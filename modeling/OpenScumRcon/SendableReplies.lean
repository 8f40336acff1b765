import OpenScumRcon.ReplyText

/-!
# The replies can be sent

For every command, every game and every engine the reply is a text that a packet can carry, as
long as the game gives addresses and numbers in a printable form.
-/

namespace OpenScumRcon

open Ending

/-! ### The captured replies -/

namespace ResponseScope

/-- The text of a scope stays sendable, also where it is cut. -/
theorem sendable_append {scope : ResponseScope} (h : Sendable scope.output) {text : Bytes}
    (htext : Sendable text) (allocations : Allocations) :
  Sendable (scope.append text allocations).output
  := by
  rw [append]
  split
  · apply h
  · apply h.append
    constructor
    · apply (htext.valid.split (utf8PrefixSize_isBoundary_of_valid htext.valid _)).1
    · intro hnul
      apply htext.nul (List.mem_of_mem_take hnul)

/-- An accepted message leaves the scope's text sendable. -/
theorem sendable_accept {scope : ResponseScope} (h : Sendable scope.output) {text : Bytes}
    (htext : Sendable text) (allocations : Allocations) :
  Sendable (scope.accept text allocations).output
  := by
  rw [accept]
  dsimp only
  split
  · apply h
  split
  · split
    · apply h
    split
    · apply h
    · apply sendable_append
      · apply h.append sendable_lineFeed
      · apply htext
  · apply sendable_append
    · apply h
    · apply htext

end ResponseScope

theorem cleanUnit_ne_zero (c : UInt16) :
  cleanUnit c ≠ 0
  := by
  rw [cleanUnit]
  split
  · decide
  · next h =>
      rw [not_or] at h
      apply h.1

/-- A message read from the game is sendable, whatever its units are. -/
theorem sendable_readMessage {message : ℕ} {memory : MessageMemory} {text : Bytes}
    (h : readMessage message memory = some text) :
  Sendable text
  := by
  have hmessage : ∀ {num : ℕ} {units : WideString} {text : Bytes},
      messageText num units = some text → Sendable text := by
    intro num units text htext
    apply sendable_wideCharToMultiByte htext
    intro hzero
    obtain ⟨c, -, hc⟩ := List.mem_map.mp hzero
    apply cleanUnit_ne_zero c hc
  rw [readMessage] at h
  split at h
  · cases h
  split at h
  · cases h
  split at h
  · rw [← Option.some.inj h]
    apply sendable_nil
  dsimp only at h
  split at h
  · cases h
  split at h
  · cases h
  next text' htext =>
  split at h
  · cases h
  · rw [← Option.some.inj h]
    apply hmessage htext

namespace ResponseCapture

/-- What the scope at an address has collected can be sent. -/
def Collected (i : ℕ) (s : ResponseCapture Unit) : Prop :=
  ∀ scope ∈ s.scopes i, Sendable scope.output

/-- A scope may be replaced by one with a sendable text. -/
theorem Collected.setScope {i : ℕ} {s : ResponseCapture Unit} (h : s.Collected i) {j : ℕ}
    {scope : ResponseScope} (hscope : j = i → Sendable scope.output) :
  (s.setScope j scope).Collected i
  := by
  intro scope' hscope'
  rw [ResponseCapture.setScope] at hscope'
  dsimp only at hscope'
  rcases eq_or_ne i j with rfl | hne
  · rw [Function.update_self] at hscope'
    rw [← Option.some.inj hscope']
    apply hscope rfl
  · rw [Function.update_of_ne hne] at hscope'
    apply h scope' hscope'

/-- A scope that is the innermost one is the one at its address. -/
theorem Collected.innermost {i j : ℕ} {s : ResponseCapture Unit} (h : s.Collected i)
    {scope : ResponseScope} (hinnermost : s.innermost () = some (j, scope)) (hj : j = i) :
  Sendable scope.output
  := by
  rw [ResponseCapture.innermost] at hinnermost
  split at hinnermost
  · cases hinnermost
  next k _ =>
  obtain ⟨scope', hscope, heq⟩ := Option.map_eq_some_iff.mp hinnermost
  obtain ⟨rfl, rfl⟩ := Prod.mk.inj heq
  rw [hj] at hscope
  apply h _ hscope

/-- A message keeps the texts of the scopes sendable. -/
theorem Collected.receive {i : ℕ} {s : ResponseCapture Unit} (h : s.Collected i)
    (call : ResponseCall) (memory : MessageMemory) :
  (s.receive () call memory).Collected i
  := by
  rw [ResponseCapture.receive]
  split
  · apply h
  split
  · rw [failure]
    split
    · apply h
    · next hinnermost =>
        apply h.setScope
        apply h.innermost hinnermost
  next text htext =>
  rw [accept]
  split
  · apply h
  split
  · apply h
  · next hinnermost =>
      apply h.setScope
      intro hj
      apply ResponseScope.sendable_accept (h.innermost hinnermost hj)
      apply sendable_readMessage htext

end ResponseCapture

/-- What a handler replies while its scope lives can be sent. -/
theorem sendable_respond (s : Game) (scope command : ℕ) (effect : NativeEffect) :
  Sendable (s.respond scope command effect).1.output
  := by
  have hstart : (s.capture.step (.construct () scope command)).Collected scope := by
    intro scope' hscope'
    rw [ResponseCapture.step] at hscope'
    dsimp only at hscope'
    rw [Function.update_self] at hscope'
    rw [← Option.some.inj hscope']
    apply sendable_nil
  have hrun : (Transition.run ResponseCapture.step
      (s.capture.step (.construct () scope command))
      (effect.replies.map fun reply => .receive () reply.1 reply.2)).Collected scope := by
    apply Transition.run_invariant_of_forall (P := ResponseCapture.Collected scope)
      (Q := fun a => ∃ call memory, a = .receive () call memory) _ hstart
    · intro a ha
      obtain ⟨reply, -, rfl⟩ := List.mem_map.mp ha
      exact ⟨reply.1, reply.2, rfl⟩
    · rintro s a ⟨call, memory, rfl⟩ hs
      apply hs.receive
  rw [Game.respond]
  dsimp only
  generalize Transition.run (ResponseCapture.step (ι := Unit)) _ _ = capture at hrun ⊢
  cases hscope : capture.scopes scope with
  | none => apply sendable_nil
  | some scope' => apply hrun scope' hscope

/-- The reply to a command is sendable when the captured text is. -/
theorem sendable_composeReply (result : Bool) {capture : ResponseScope}
    (h : Sendable capture.output) :
  Sendable (composeReply result capture)
  := by
  have hnote : ∀ {reply : Bytes} (p : Prop) [Decidable p] {text : Bytes}, Sendable reply →
      Sendable text → Sendable (if p then reply ++ text else reply) := by
    intro reply p _ text hreply htext
    apply sendable_ite (hreply.append htext) hreply
  have hresult : Sendable (if result then []
      else ascii "error: native command returned false") := by
    apply sendable_ite sendable_nil (sendable_literal (by decide))
  have houtput : ∀ {reply : Bytes}, Sendable reply →
      Sendable (if capture.output = [] then reply
        else reply ++ (if reply = [] then [] else [Byte.lineFeed]) ++ capture.output) := by
    intro reply hreply
    apply sendable_ite hreply
    apply (hreply.append _).append h
    apply sendable_ite sendable_nil sendable_lineFeed
  rw [composeReply]
  apply sendable_ite (sendable_literal (by decide))
  apply hnote _ _ (sendable_literal (by decide))
  apply hnote _ _ (sendable_literal_append (by decide) (by decide))
  apply houtput hresult

/-- So is the reply of the registry. -/
theorem sendable_nativeReply (result : Option Bool) {capture : ResponseScope}
    (h : Sendable capture.output) :
  Sendable (nativeReply result capture)
  := by
  cases result with
  | none =>
      rw [nativeReply, raisedReply]
      apply sendable_literal_append (by decide) (by decide)
  | some result => apply sendable_composeReply result h

/-! ### What is thrown -/

/-- The response to a command that throws this can be sent. -/
def TextThrown (thrown : Thrown) : Prop :=
  Sendable (responseText (.error thrown))

/-- An exception with one of the source's literals. -/
theorem textThrown_literal {characters : List Char}
    (h : (characters.all fun c => 0 < c.toNat && c.toNat < 128) = true) :
  TextThrown (.exception (ascii (String.ofList characters)))
  := by
  rw [TextThrown, responseText]
  apply Sendable.append (sendable_literal (by decide)) (sendable_literal h)

theorem ends_utf8 (value : WideString) :
  Ends TextThrown Utf8.Valid (utf8 value)
  := by
  cases h : utf8 value with
  | ok text => apply valid_of_utf8 h
  | error thrown =>
      rw [utf8] at h
      split at h
      · rw [← Except.error.inj h]
        apply textThrown_literal (by decide)
      split at h
      · cases h
      split at h
      · rw [← Except.error.inj h]
        apply textThrown_literal (by decide)
      · cases h

theorem ends_wide (value : Bytes) :
  Ends TextThrown (fun _ => True) (wide value)
  := by
  rw [wide]
  split
  · trivial
  split
  · apply textThrown_literal (by decide)
  · trivial

/-! ### The registry -/

/-- What is printed of a command. -/
def PrintableCommand (c : Command) : Prop :=
  Utf8.Valid c.verb ∧ Sendable c.unsupported

theorem World.sendable_unsupported (w : World) (command : Command) :
  Sendable (w.unsupported command)
  := by
  rw [unsupported]
  apply sendable_ite (sendable_literal (by decide))
  apply sendable_ite (sendable_literal (by decide))
  apply sendable_ite (sendable_literal (by decide)) sendable_nil

/-- The command of a class has a printable verb and usage. -/
theorem World.ends_readCommand (w : World) (cls cdo : ℕ) :
  Ends TextThrown PrintableCommand (w.readCommand cls cdo)
  := by
  rw [readCommand]
  dsimp only
  split
  · apply textThrown_literal (by decide)
  have hverb := ends_utf8 (w.strValue (w.property cdo "_verb" .str) cdo)
  split
  · next hthrown =>
      rw [hthrown] at hverb
      apply hverb
  next verb hvalue =>
  rw [hvalue] at hverb
  split
  · have hmetadata : Sendable (ascii "metadata") := sendable_literal (by decide)
    exact ⟨hverb, hmetadata⟩
  · exact ⟨hverb, w.sendable_unsupported _⟩

/-- One class of the table keeps the commands printable. -/
theorem World.ends_visitCommand (w : World) (s : List Command × List ℕ) (cls : ℕ)
    (hs : ∀ c ∈ s.1, PrintableCommand c) :
  Ends TextThrown (fun s' => ∀ c ∈ s'.1, PrintableCommand c) (w.visitCommand s cls)
  := by
  rw [visitCommand]
  split
  · apply hs
  split
  · apply hs
  have hread := w.ends_readCommand cls (w.classDefaultObject cls)
  split
  · next hthrown =>
      rw [hthrown] at hread
      apply hread
  · next hcommand =>
      rw [hcommand] at hread
      intro c hc
      rcases List.mem_append.mp hc with hc | hc
      · apply hs c hc
      · rw [List.mem_singleton.mp hc]
        apply hread

/-- All commands of the table are printable. -/
theorem World.ends_commands (w : World) :
  Ends TextThrown (fun entries => ∀ c ∈ entries, PrintableCommand c) w.commands
  := by
  rw [commands]
  split
  · apply textThrown_literal (by decide)
  split
  · apply textThrown_literal (by decide)
  · rw [commandsOf]
    split
    · apply textThrown_literal (by decide)
    dsimp only
    split
    · apply textThrown_literal (by decide)
    apply ends_bind (Q := fun s => ∀ c ∈ s.1, PrintableCommand c)
    · apply ends_foldlM
      · intro s cls hs
        apply w.ends_visitCommand s cls hs
      · simp
    · rintro ⟨result, seen⟩ hresult
      dsimp only
      split
      · apply textThrown_literal (by decide)
      · intro c hc
        apply hresult c ((List.mem_insertionSort _).mp hc)
  · apply textThrown_literal (by decide)

/-- A line of the catalogue is sendable. -/
theorem sendable_catalogueLine {c : Command} (h : PrintableCommand c) :
  Sendable (catalogueLine c)
  := by
  rw [catalogueLine]
  apply Sendable.append _ sendable_lineFeed
  apply Sendable.append _ (sendable_ite (sendable_literal (by decide)) h.2)
  apply Sendable.append _ (sendable_literal (by decide))
  apply Sendable.append _ (sendable_boolDigit _)
  apply Sendable.append _ (sendable_literal (by decide))
  apply Sendable.append _ (sendable_boolDigit _)
  apply Sendable.append _ (sendable_literal (by decide))
  apply Sendable.append _ (sendable_boolDigit _)
  apply Sendable.append _ (sendable_literal (by decide))
  apply Sendable.append _ (sendable_decimal _)
  apply Sendable.append _ (sendable_literal (by decide))
  apply Sendable.append _ (sendable_decimal _)
  apply Sendable.append _ (sendable_literal (by decide))
  apply Sendable.append _ (sendable_decimal _)
  apply Sendable.append (sendable_field h.1) (sendable_literal (by decide))

/-- The catalogue is sendable, whatever the filter is. -/
theorem ends_catalogue (w : World) (filter : Bytes) :
  Ends TextThrown Sendable (catalogue w filter)
  := by
  rw [catalogue]
  apply ends_bind w.ends_commands
  intro entries hentries
  have hlines : Sendable ((entries.filter fun c =>
      filter = [] || filter <:+: lowerAscii c.verb).flatMap catalogueLine) := by
    apply sendable_flatMap
    intro c hc
    apply sendable_catalogueLine (hentries c (List.mem_of_mem_filter hc))
  change Sendable _
  apply Sendable.append _ (sendable_literal_append (by decide) (by decide))
  apply Sendable.append _ (sendable_boolDigit _)
  apply Sendable.append _ (sendable_literal (by decide))
  apply Sendable.append _ (sendable_boolDigit _)
  apply Sendable.append _ (sendable_literal (by decide))
  apply Sendable.append _ (sendable_decimal _)
  apply Sendable.append _ (sendable_literal (by decide))
  apply Sendable.append _ (sendable_decimal _)
  apply Sendable.append hlines (sendable_literal (by decide))

/-! ### The players -/

/-- What the code takes over from the game without a check of its characters: the addresses, which
have no NUL in them, and the formatted coordinates. -/
structure World.Printable (w : World) : Prop where
  address : ∀ function connection, ∀ value ∈ w.remoteAddress function connection, 0 ∉ value
  location : ∀ pawn, ∀ l ∈ w.location pawn, Sendable l.1 ∧ Sendable l.2.1 ∧ Sendable l.2.2

/-- One object keeps the players' SteamIDs sendable. -/
theorem World.ends_visitPlayer (w : World) (players : List Player) (object : ℕ)
    (hplayers : ∀ p ∈ players, Sendable p.id) :
  Ends TextThrown (fun players => ∀ p ∈ players, Sendable p.id) (w.visitPlayer players object)
  := by
  rw [visitPlayer]
  split
  · apply hplayers
  have hvalue := ends_utf8 (w.callString w.getUserId object)
  split
  · next hthrown =>
      rw [stringCall] at hthrown
      rw [hthrown] at hvalue
      apply hvalue
  split
  · apply hplayers
  next hvalid =>
  split
  · apply textThrown_literal (by decide)
  split
  · apply textThrown_literal (by decide)
  · rw [Bool.not_eq_true', Bool.not_eq_false] at hvalid
    intro p hp
    rcases List.mem_append.mp hp with hp | hp
    · apply hplayers p hp
    · rw [List.mem_singleton.mp hp]
      apply sendable_steamId hvalid

/-- The SteamIDs of the connected players are sendable. -/
theorem World.ends_connectedPlayers (w : World) :
  Ends TextThrown (fun players => ∀ p ∈ players, Sendable p.id) w.connectedPlayers
  := by
  rw [connectedPlayers]
  split
  · apply textThrown_literal (by decide)
  apply ends_bind (Q := fun players => ∀ p ∈ players, Sendable p.id)
  · apply ends_foldlM
    · intro players object hplayers
      apply w.ends_visitPlayer players object hplayers
    · simp
  · intro players hplayers p hp
    apply hplayers p ((List.mem_insertionSort _).mp hp)

theorem sendable_labelled {label : String} (hlabel : (ascii label).all isAscii = true)
    {value : Option Bytes} (h : ∀ text ∈ value, Sendable text) :
  Sendable (labelled label value)
  := by
  cases value with
  | none => apply sendable_nil
  | some text => apply (sendable_of_all hlabel).append (h text rfl)

section

variable {w : World}

theorem World.sendable_balance {controller : ℕ} {name : String} :
  ∀ text ∈ w.balance controller name, Sendable text
  := by
  intro text htext
  rw [balance] at htext
  split at htext
  · cases htext
  · rw [← Option.some.inj htext]
    apply sendable_decimal

theorem World.sendable_ping {controller : ℕ} :
  ∀ text ∈ w.ping controller, Sendable text
  := by
  intro text htext
  rw [ping] at htext
  split at htext
  · cases htext
  · rw [← Option.some.inj htext]
    apply sendable_decimal

/-- The coordinates are sendable where the rendered ones are. -/
theorem World.Printable.sendable_coordinates (hw : w.Printable) {controller : ℕ} :
  ∀ text ∈ w.coordinates controller, Sendable text
  := by
  intro text htext
  rw [coordinates] at htext
  dsimp only at htext
  split at htext
  · cases htext
  · obtain ⟨⟨x, y, z⟩, hlocation, rfl⟩ := Option.map_eq_some_iff.mp htext
    obtain ⟨hx, hy, hz⟩ := hw.location _ _ hlocation
    have hcomma : Sendable (ascii ", ") := sendable_literal (by decide)
    apply (((hx.append hcomma).append hy).append hcomma |>.append hz).append
    apply sendable_literal (by decide)

/-- The line of a player is sendable. -/
theorem World.Printable.sendable_playerLine (hw : w.Printable) {player : Player}
    (hid : Sendable player.id) {ip : Option Bytes} (hip : ∀ text ∈ ip, Sendable text)
    {name : Bytes} (hname : Utf8.Valid name) :
  Sendable (playerLine w player ip name)
  := by
  have haddress : Sendable (addressText ip) := by
    cases ip with
    | none => apply sendable_literal (by decide)
    | some text =>
        rw [addressText]
        apply Sendable.append _ (sendable_literal (by decide))
        apply (sendable_literal (by decide)).append (hip text rfl)
  have hprofile : ∀ text ∈ (w.profileId player.controller).map fun id => decimal id.toInt,
      Sendable text := by
    intro text htext
    obtain ⟨id, -, rfl⟩ := Option.map_eq_some_iff.mp htext
    apply sendable_decimal
  have hdetails : Sendable (playerDetails w player.controller ip) := by
    rw [playerDetails]
    apply Sendable.append _ (sendable_labelled (by decide) hw.sendable_coordinates)
    apply Sendable.append _ (sendable_labelled (by decide) w.sendable_ping)
    apply Sendable.append _ (sendable_labelled (by decide) w.sendable_balance)
    apply Sendable.append _ (sendable_labelled (by decide) w.sendable_balance)
    apply (sendable_labelled (by decide) hprofile).append haddress
  rw [playerLine]
  apply Sendable.append _ (sendable_literal (by decide))
  apply Sendable.append _ (sendable_field hname)
  apply Sendable.append _ (sendable_literal (by decide))
  apply Sendable.append _ hdetails
  apply (sendable_literal (by decide)).append hid

/-- The world of the game stays as it is while the list is made. -/
theorem World.Printable.yields_connectionIp (hw : w.Printable) (controller : ℕ) :
  Yields (fun s : Game => s.world = w) TextThrown (fun ip => ∀ text ∈ ip, Sendable text)
    (connectionIp controller)
  := by
  have hnone : ∀ text ∈ (none : Option Bytes), Sendable text := by simp
  rw [connectionIp]
  apply yields_bind yields_get
  rintro s rfl
  dsimp only
  split
  · apply yields_pure hnone
  split
  · apply yields_bind (Q := fun _ => True)
    · apply yields_modify
      intro s hs
      apply hs
    · intro _ _
      apply yields_pure hnone
  next value hvalue =>
  have haddress : Ends TextThrown Sendable (utf8 value) := by
    have hvalid := ends_utf8 value
    cases htext : utf8 value with
    | ok text => apply sendable_of_utf8 htext (hw.address _ _ value hvalue)
    | error thrown =>
        rw [htext] at hvalid
        apply hvalid
  apply yields_bind (yields_mk_pure haddress)
  intro address hsendable
  split
  · apply yields_pure hnone
  · apply yields_pure
    intro text htext
    rw [← Option.some.inj htext]
    apply hsendable

/-- The lines of the players are sendable, player by player. -/
theorem World.Printable.yields_lines (hw : w.Printable) {players : List Player}
    (hplayers : ∀ p ∈ players, Sendable p.id) :
  Yields (fun s : Game => s.world = w) TextThrown Sendable (listPlayers.lines w players)
  := by
  induction players with
  | nil => apply yields_pure sendable_nil
  | cons player players ih =>
      rw [List.forall_mem_cons] at hplayers
      rw [listPlayers.lines]
      apply yields_bind (hw.yields_connectionIp _)
      intro ip hip
      apply yields_bind (yields_mk_pure (ends_utf8 _))
      intro name hname
      apply yields_bind (ih hplayers.2)
      intro rest hrest
      apply yields_pure
      apply (hw.sendable_playerLine hplayers.1 hip hname).append hrest

/-- The player list is sendable. -/
theorem World.Printable.yields_listPlayers (hw : w.Printable) :
  Yields (fun s : Game => s.world = w) TextThrown Sendable listPlayers
  := by
  rw [listPlayers]
  apply yields_bind yields_get
  rintro s rfl
  apply yields_bind (yields_mk_pure s.world.ends_connectedPlayers)
  intro players hplayers
  split
  · apply yields_pure (sendable_literal (by decide))
  split
  · apply yields_throw (textThrown_literal (by decide))
  · apply hw.yields_lines hplayers

end

end OpenScumRcon
