import OpenScumRcon.SendableReplies
import OpenScumRcon.WeatherReply

/-!
# The responses can be sent

The replies of the routes and of the sentinels, the responses of the dispatcher, and from them
the responses of a whole run.
-/

namespace OpenScumRcon

open Ending

/-! ### Native execution -/

/-- A refused verb is answered by a sendable text. -/
theorem sendable_selectCommand {wanted : Bytes} {entries : List Command}
    {command : Option Command} (hentries : ∀ c ∈ entries, PrintableCommand c)
    (hcommand : ∀ c ∈ command, PrintableCommand c) :
  Ends Sendable PrintableCommand (selectCommand wanted entries command)
  := by
  induction entries generalizing command with
  | nil =>
      cases command with
      | none => apply sendable_literal (by decide)
      | some c => apply hcommand c rfl
  | cons c entries ih =>
      rw [List.forall_mem_cons] at hentries
      rw [selectCommand]
      split
      · split
        · apply sendable_literal (by decide)
        · apply ih hentries.2
          intro c' hc'
          rw [← Option.some.inj hc']
          apply hentries.1
      · apply ih hentries.2 hcommand

theorem sendable_mismatchReply (command : Command) :
  Sendable (mismatchReply command)
  := by
  rw [mismatchReply]
  apply Sendable.append _ (sendable_decimal _)
  apply Sendable.append _ (sendable_literal (by decide))
  apply Sendable.append _ (sendable_decimal _)
  apply Sendable.append _ (sendable_literal (by decide))
  apply (sendable_literal (by decide)).append (sendable_decimal _)

/-- The reply that says why nothing has been selected can be sent. -/
theorem ends_selectTarget (engine : Engine) (w : World) (request : DispatchRequest) :
  Ends TextThrown (Ends Sendable fun _ => True) (selectTarget engine w request)
  := by
  rw [selectTarget]
  apply ends_bind w.ends_commands
  intro entries hentries
  have hselect : Ends Sendable PrintableCommand
      (selectCommand (lowerAscii request.verb) entries none) :=
    sendable_selectCommand hentries (by simp)
  split
  · next hcommand =>
      rw [hcommand] at hselect
      apply hselect
  next command hcommand =>
  rw [hcommand] at hselect
  split
  · apply Sendable.append (sendable_literal (by decide)) hselect.2
  split
  · apply sendable_mismatchReply
  apply ends_bind w.ends_connectedPlayers
  intro players _
  dsimp only
  split
  · apply sendable_literal (by decide)
  split
  · apply sendable_literal (by decide)
  split
  · apply sendable_literal (by decide)
  · apply ends_bind (ends_mapM ends_wide request.arguments)
    intro arguments _
    trivial

/-- Whatever holds of the state before, the reply can be sent. -/
def AlwaysReplies (x : GameM Game Bytes) : Prop :=
  Yields (fun _ : Game => True) TextThrown Sendable x

/-- The call of a command ends in a sendable reply. -/
theorem alwaysReplies_invokeTarget (engine : Engine) (target : Target) :
  AlwaysReplies (invokeTarget engine target)
  := by
  rw [invokeTarget]
  apply yields_bind yields_get
  intro s _
  dsimp only
  split
  · apply yields_bind (yields_set trivial)
    intro _ _
    apply yields_pure (sendable_literal (by decide))
  · apply yields_bind (yields_set trivial)
    intro _ _
    apply yields_pure
    apply sendable_nativeReply
    apply sendable_respond

/-- An execution request ends in a sendable reply. -/
theorem alwaysReplies_execute (engine : Engine) (request : DispatchRequest) :
  AlwaysReplies (execute engine request)
  := by
  rw [execute]
  apply yields_bind yields_get
  intro s _
  split
  · apply yields_pure (sendable_literal (by decide))
  split
  · apply yields_pure (sendable_literal (by decide))
  apply yields_bind (Q := Ends Sendable fun _ => True)
  · apply yields_mk_pure (ends_selectTarget engine s.world request)
  · rintro (reply | target) hreply
    · apply yields_pure (Q := Sendable) hreply
    · apply alwaysReplies_invokeTarget

/-! ### The GodMode route -/

namespace Godmode

theorem sendable_boolText (b : Bool) :
  Sendable (boolText b)
  := by
  cases b
  · apply sendable_of_all
    decide
  · apply sendable_of_all
    decide

theorem sendable_state (w : World) (player : Player) :
  Sendable (state w player)
  := by
  rw [state]
  apply Sendable.append _ (sendable_boolText _)
  apply Sendable.append _ (sendable_literal (by decide))
  apply (sendable_literal (by decide)).append (sendable_boolText _)

/-- A SteamID for which a player is found is one that the game has given. -/
theorem sendable_findPlayer (w : World) (id : Bytes) :
  Ends Sendable (fun _ => Sendable id) (findPlayer w id)
  := by
  cases h : findPlayer w id with
  | ok player =>
      have hid := (isTarget_of_findPlayer h).isPlayer
      rw [isPlayer, Bool.and_eq_true, decide_eq_true_eq] at hid
      rw [← hid.2]
      apply sendable_utf8
  | error error =>
      rw [findPlayer] at h
      split at h
      · rw [← Except.error.inj h]
        apply sendable_literal (by decide)
      split at h
      · rw [← Except.error.inj h]
        apply sendable_literal (by decide)
      · rw [playerOf] at h
        split at h
        · rw [← Except.error.inj h]
          apply sendable_literal (by decide)
        split at h
        · rw [← Except.error.inj h]
          apply sendable_literal (by decide)
        · cases h
      · rw [← Except.error.inj h]
        apply sendable_literal (by decide)

/-- The verified reply is sendable. -/
theorem sendable_verifyReply {request : Request} (hid : Sendable request.steamId)
    (player : Player) (w w' : World) (result : Bool) {capture : ResponseScope}
    (hcapture : Sendable capture.output) :
  Sendable (verifyReply request player w w' result capture)
  := by
  rw [verifyReply]
  apply sendable_ite (sendable_literal (by decide))
  apply sendable_ite
  · apply (sendable_literal (by decide)).append (sendable_state w' player)
  · apply Sendable.append _ (sendable_ite (sendable_literal (by decide)) sendable_nil)
    apply Sendable.append _ (sendable_ite (sendable_literal (by decide)) sendable_nil)
    apply Sendable.append _ (sendable_ite sendable_nil (sendable_lineFeed.append hcapture))
    apply Sendable.append _ (sendable_state w' player)
    apply Sendable.append _ (sendable_literal (by decide))
    apply (sendable_literal (by decide)).append hid

/-- The call of the godmode handler ends in a sendable reply. -/
theorem alwaysReplies_callHandler (engine : Engine) {request : Request}
    (hid : Sendable request.steamId) (player : Player) (object : ℕ) :
  AlwaysReplies (callHandler engine request player object)
  := by
  rw [callHandler]
  apply yields_bind yields_get
  intro s _
  dsimp only
  split
  · apply yields_pure (sendable_literal (by decide))
  · apply yields_bind (yields_set trivial)
    intro _ _
    apply yields_pure
    apply sendable_verifyReply hid
    apply sendable_respond

/-- The chat diagnostic ends in a sendable reply. -/
theorem alwaysReplies_diagnosticOf (engine : Engine) (request : Request) (player : Player) :
  AlwaysReplies (diagnosticOf engine request player)
  := by
  rw [diagnosticOf]
  split
  · rw [chatDiagnostic]
    apply yields_bind yields_get
    intro s _
    dsimp only
    apply yields_bind (yields_set trivial)
    intro _ _
    apply yields_pure
    apply Sendable.append
    · apply (sendable_literal (by decide)).append (sendable_boolText _)
    · apply sendable_ite sendable_nil
      apply (sendable_literal (by decide)).append (sendable_utf8 _)
  · apply yields_pure sendable_nil

/-- So does the construction of the handler. -/
theorem alwaysReplies_construct (engine : Engine) {request : Request}
    (hid : Sendable request.steamId) (player : Player) (cls : ℕ) {before : Bytes}
    (hbefore : Sendable before) :
  AlwaysReplies (construct engine request player cls before)
  := by
  rw [construct]
  apply yields_bind (alwaysReplies_diagnosticOf engine request player)
  intro diagnostic hdiagnostic
  apply yields_bind yields_get
  intro s _
  dsimp only
  apply yields_bind (yields_set trivial)
  intro _ _
  split
  · apply yields_pure (sendable_literal (by decide))
  split
  · apply yields_pure
    apply Sendable.append _ (sendable_literal (by decide))
    apply Sendable.append _ hdiagnostic
    apply Sendable.append _ hbefore
    apply Sendable.append _ (sendable_literal (by decide))
    apply (sendable_literal_append (by decide) (by decide)).append hid
  · apply alwaysReplies_callHandler engine hid

/-- A godmode request ends in a sendable reply. -/
theorem alwaysReplies_act (engine : Engine) (request : Request) :
  AlwaysReplies (act engine request)
  := by
  rw [act]
  apply yields_bind yields_get
  intro s _
  dsimp only
  split
  · apply yields_pure (sendable_literal (by decide))
  have hplayer := sendable_findPlayer s.world request.steamId
  split
  · next error herror =>
      rw [herror] at hplayer
      apply yields_pure
      apply (sendable_literal (by decide)).append hplayer
  next player hfound =>
  rw [hfound] at hplayer
  split
  · apply yields_pure
    apply Sendable.append _ (sendable_state s.world player)
    apply Sendable.append _ (sendable_literal (by decide))
    apply (sendable_literal (by decide)).append hplayer
  split
  · apply yields_pure (sendable_literal (by decide))
  split
  · apply yields_pure (sendable_literal (by decide))
  · apply alwaysReplies_construct engine hplayer
    apply sendable_state

end Godmode

/-! ### The sentinels -/

/-- A diagnostic that reads a sendable text ends in a sendable reply. -/
theorem alwaysReplies_readReply {f : World → Bytes} (h : ∀ w, Sendable (f w)) :
  AlwaysReplies (readReply f)
  := by
  rw [readReply]
  apply yields_bind yields_get
  intro s _
  apply yields_pure (h s.world)

/-- The status of the trace is sendable. -/
theorem TraceReads.sendable_statusOf (t : TraceReads) (state : GodmodeTrace.State ℕ Unit) :
  Sendable (t.statusOf state)
  := by
  rw [statusOf]
  apply Sendable.append _ (sendable_decimal _)
  apply Sendable.append _ (sendable_literal (by decide))
  apply Sendable.append _ (sendable_decimal _)
  apply Sendable.append _ (sendable_literal (by decide))
  apply Sendable.append _ (sendable_boolDigit _)
  apply Sendable.append _ (sendable_literal (by decide))
  apply Sendable.append _ (sendable_boolDigit _)
  apply Sendable.append _ (sendable_literal (by decide))
  apply Sendable.append _ (sendable_boolDigit _)
  apply Sendable.append _ (sendable_literal (by decide))
  apply (sendable_literal (by decide)).append (sendable_boolDigit _)

theorem TraceReads.sendable_start (t : TraceReads) :
  Sendable t.start
  := by
  rw [start, GodmodeTrace.State.start]
  dsimp only
  split
  · dsimp only
    apply sendable_literal (by decide)
  split
  · dsimp only
    apply sendable_literal (by decide)
  split
  · dsimp only
    apply sendable_literal (by decide)
  split
  · dsimp only
    apply sendable_literal (by decide)
  · dsimp only
    apply sendable_literal (by decide)

theorem alwaysReplies_callContextResolverAndDump (r : Reflection) :
  AlwaysReplies (callContextResolverAndDump r)
  := by
  rw [callContextResolverAndDump]
  apply yields_bind yields_get
  intro s _
  dsimp only
  apply yields_bind (yields_set trivial)
  intro _ _
  apply yields_pure
  apply (sendable_literal (by decide)).append (sendable_pointer _)

theorem alwaysReplies_callExecutorResolverAndDump (r : Reflection) :
  AlwaysReplies (callExecutorResolverAndDump r)
  := by
  rw [callExecutorResolverAndDump]
  apply yields_bind yields_get
  intro s _
  split
  · apply yields_pure (sendable_literal (by decide))
  · dsimp only
    apply yields_bind (yields_set trivial)
    intro _ _
    apply yields_pure
    apply Sendable.append _ (sendable_pointer _)
    apply Sendable.append
    · apply Sendable.append (sendable_ite (sendable_literal (by decide)) (sendable_literal (by decide)))
      apply sendable_literal (by decide)
    · rw [executorCall]
      apply Sendable.append _ (sendable_literal (by decide))
      apply (sendable_literal (by decide)).append (sendable_pointer _)

section

variable (r : Reflection) (w : World) (d : Resolved)

theorem sendable_dumpPlayerRpcChannelInfo :
  Sendable (dumpPlayerRpcChannelInfo r w d)
  := by
  rw [dumpPlayerRpcChannelInfo]
  apply sendable_ite (sendable_literal (by decide))
  apply Sendable.append _ (sendable_literal (by decide))
  apply Sendable.append _ (sendable_ite (sendable_literal (by decide)) (sendable_literal (by decide)))
  apply Sendable.append _ (sendable_literal (by decide))
  apply (sendable_literal (by decide)).append (sendable_decimal _)

theorem sendable_dumpChatServerFunctionFlags :
  Sendable (dumpChatServerFunctionFlags r w d)
  := by
  rw [dumpChatServerFunctionFlags]
  apply sendable_ite (sendable_literal (by decide))
  dsimp only
  apply Sendable.append
  · apply (sendable_literal (by decide)).append (sendable_hexadecimal _)
  · apply sendable_flatMap
    intro flag hflag
    have hname : (ascii flag.1).all isAscii = true := by
      revert flag
      decide
    have hspace : Sendable [Byte.space] := sendable_of_all (by decide)
    have hequals : Sendable [Byte.equals] := sendable_of_all (by decide)
    apply Sendable.append
    · apply (hspace.append (sendable_of_all hname)).append hequals
    · apply sendable_ite (sendable_literal (by decide)) (sendable_literal (by decide))

theorem sendable_dumpSetgodmodeField0x20 :
  Sendable (dumpSetgodmodeField0x20 r w)
  := by
  rw [dumpSetgodmodeField0x20]
  apply sendable_ite (sendable_literal (by decide))
  apply Sendable.append _ (sendable_pointer _)
  apply Sendable.append _ (sendable_literal (by decide))
  apply (sendable_literal (by decide)).append (sendable_pointer _)

end

/-- Every sentinel ends in a sendable reply. -/
theorem alwaysReplies_sentinels {r : Reflection} {d : Resolved} {text : Bytes}
    {f : GameM Game Bytes} (h : (text, f) ∈ (sentinels r d).calls) :
  AlwaysReplies f
  := by
  simp only [Sentinels.calls, sentinels, List.mem_cons, Prod.mk.injEq, List.not_mem_nil,
    or_false] at h
  rcases h with ⟨-, rfl⟩ | ⟨-, rfl⟩ | ⟨-, rfl⟩ | ⟨-, rfl⟩ | ⟨-, rfl⟩ | ⟨-, rfl⟩ | ⟨-, rfl⟩ |
    ⟨-, rfl⟩ | ⟨-, rfl⟩ | ⟨-, rfl⟩
  · apply alwaysReplies_readReply
    intro w
    apply TraceReads.sendable_start
  · apply alwaysReplies_readReply
    intro w
    apply (sendable_literal (by decide)).append (TraceReads.sendable_statusOf _ _)
  · apply alwaysReplies_readReply
    intro w
    apply TraceReads.sendable_statusOf
  · apply alwaysReplies_readReply
    intro w
    rw [dumpAdminCommandPermissionLevels]
    apply Sendable.append _ (sendable_literal_append (by decide) (by decide))
    apply (sendable_literal (by decide)).append (sendable_decimal _)
  · apply alwaysReplies_readReply
    intro w
    rw [dumpTestProcessAdminCommandAddress]
    apply sendable_ite (sendable_literal (by decide))
    apply (sendable_literal (by decide)).append (sendable_hexadecimal _)
  · apply alwaysReplies_readReply
    intro w
    apply sendable_dumpPlayerRpcChannelInfo
  · apply alwaysReplies_readReply
    intro w
    apply sendable_dumpChatServerFunctionFlags
  · apply alwaysReplies_callContextResolverAndDump
  · apply alwaysReplies_callExecutorResolverAndDump
  · apply alwaysReplies_readReply
    intro w
    apply sendable_dumpSetgodmodeField0x20

/-! ### The dispatcher -/

/-- The scan's error texts are sendable. -/
theorem ends_scan (text : Bytes) (s : Scan) :
  Ends Sendable (fun _ => True) (scan text s)
  := by
  fun_induction scan text s with
  | case1 => trivial
  | case2 => apply sendable_literal (by decide)
  | case3 => apply sendable_literal (by decide)
  | case4 _ _ _ _ ih => apply ih
  | case5 => apply sendable_literal (by decide)
  | case6 _ _ _ _ _ _ _ _ _ ih => apply ih
  | case7 => apply sendable_literal (by decide)
  | case8 _ _ _ _ _ _ _ _ _ ih => apply ih
  | case9 => apply sendable_literal (by decide)
  | case10 => trivial

/-- A parser's error text is sendable when it is a literal. -/
theorem sendable_error_fail (r : DispatchRequest) {why : String}
    (h : (ascii why).all isAscii = true) :
  Sendable (r.fail why).error
  := by
  apply sendable_of_all h

theorem sendable_error_dispatchExec (others : List Bytes) :
  Sendable (dispatchExec others).error
  := by
  rcases others with _ | ⟨id, _ | ⟨verb, arguments⟩⟩
  · apply sendable_error_fail _ (by decide)
  · apply sendable_error_fail _ (by decide)
  · rw [dispatchExec]
    split
    · apply sendable_error_fail _ (by decide)
    · dsimp only
      split
      · apply sendable_error_fail _ (by decide)
      · apply sendable_nil

/-- The error text of a request is sendable. -/
theorem sendable_error_dispatchTokens (first : Bytes) (others : List Bytes) :
  Sendable (dispatchTokens first others).error
  := by
  unfold dispatchTokens
  dsimp only
  split
  · split
    · apply sendable_error_fail _ (by decide)
    · apply sendable_nil
  split
  · split
    · apply sendable_error_fail _ (by decide)
    · apply sendable_nil
  split
  · split
    · apply sendable_nil
    · apply sendable_nil
    · apply sendable_error_fail _ (by decide)
  split
  · apply sendable_error_dispatchExec
  · apply sendable_nil

/-- No byte of the request gets into the reason of its rejection. -/
theorem sendable_error (text : Bytes) :
  Sendable (parseDispatchRequest text).error
  := by
  rw [parseDispatchRequest]
  split
  · apply sendable_error_fail _ (by decide)
  split
  · apply sendable_error_fail _ (by decide)
  next trimmed _ =>
  have hscan := ends_scan trimmed {}
  split
  · next hwhy =>
      rw [hwhy] at hscan
      apply hscan
  split
  · apply sendable_error_fail _ (by decide)
  split
  · apply sendable_error_fail _ (by decide)
  · apply sendable_error_dispatchTokens

/-- In a game that prints, the reply can be sent. -/
def Replies (x : GameM Game Bytes) : Prop :=
  ∀ s : Game, s.world.Printable → Ends TextThrown Sendable (x.run.run s).1

theorem AlwaysReplies.replies {x : GameM Game Bytes} (h : AlwaysReplies x) :
  Replies x
  := fun s _ => (h s trivial).1

theorem replies_of_sendable {reply : Bytes} (h : Sendable reply) :
  Replies (pure reply)
  := fun _ _ => h

/-- The route of the weather replies with numbers of the game, or why there are none. -/
theorem replies_weather (engine : Engine) (timeOnly : Bool) :
  Replies ((nativeRoutes engine).weather timeOnly)
  := by
  intro s _
  have hweather := sendable_responseText_weather s.world s.world.floatBits s.world.ties timeOnly
  have hrun : ((nativeRoutes engine).weather timeOnly).run.run s
      = (weather s.world s.world.floatBits s.world.ties timeOnly, s) := rfl
  rw [hrun]
  cases hresult : weather s.world s.world.floatBits s.world.ties timeOnly with
  | ok reply =>
      rw [hresult] at hweather
      apply hweather
  | error thrown =>
      rw [hresult] at hweather
      apply hweather

/-- The registry replies with a sendable text. -/
theorem replies_registryDispatch (engine : Engine) (text : Bytes) (authority : CommandAuthority) :
  Replies (Registry.dispatch (nativeRoutes engine) text authority)
  := by
  rw [Registry.dispatch]
  split
  · apply replies_of_sendable (sendable_literal (by decide))
  dsimp only
  split
  · apply replies_of_sendable
    apply (sendable_literal (by decide)).append (sendable_error text)
  · intro s hs
    apply (hs.yields_listPlayers s rfl).1
  · apply replies_weather
  · apply replies_weather
  · intro s _
    apply ends_catalogue
  · apply (alwaysReplies_execute engine _).replies
  · apply replies_of_sendable (sendable_literal_append (by decide) (by decide))

/-- Every routed command is answered by a sendable text. -/
theorem replies_dispatchCommand (engine : Engine) (d : AdminDispatch) (text : Bytes)
    (authority : CommandAuthority) :
  Replies (dispatchCommand (nativeRoutes engine) d text authority)
  := by
  rw [dispatchCommand]
  split
  · apply replies_of_sendable (sendable_literal (by decide))
  split
  · apply replies_of_sendable (sendable_literal (by decide))
  rw [Godmode.dispatch]
  split
  · rw [pure_bind]
    apply replies_registryDispatch
  split
  · rw [pure_bind]
    apply replies_of_sendable (sendable_literal_append (by decide) (by decide))
  · rw [bind_map_left]
    apply AlwaysReplies.replies
    apply yields_bind (Godmode.alwaysReplies_act engine (Godmode.parse text))
    intro reply hreply
    apply yields_pure hreply

/-- The response to any command can be sent, whoever has sent it. -/
theorem sendable_response (password : Bytes) (engine : Engine) (r : Reflection) (d : Resolved)
    (text : Bytes) (authority : CommandAuthority) (m : ModState Game)
    (hworld : m.game.world.Printable) :
  Sendable (respond (nativeMod password engine r d) text authority m).1
  := by
  obtain ⟨x, hx, hresponse, -⟩ := respond_ran (nativeMod password engine r d) text authority m
  have hreplies : Replies x := by
    cases hx with
    | sentinel h => apply (alwaysReplies_sentinels h).replies
    | fixed h =>
        have hfixed : ∀ reply ∈ fixedReplies, reply.all isAscii = true := by decide +kernel
        apply replies_of_sendable (sendable_of_all (hfixed _ h))
    | dispatch h => apply replies_dispatchCommand
  have hends := hreplies m.game hworld
  rw [hresponse]
  cases hresult : (x.run.run m.game).1 with
  | ok reply =>
      rw [hresult] at hends
      apply hends
  | error thrown =>
      rw [hresult] at hends
      apply hends

/-! ### Whole runs -/

theorem sendable_commandTimedOut :
  Sendable commandTimedOut
  := by
  apply sendable_of_all
  decide

namespace System

variable {ι : Type} [DecidableEq ι]

/-- The game prints what the code takes over from it when a command is processed. -/
def PrintsCommands (s : System ι Game) : Action ι Game → Prop
  | .process => s.mod.game.world.Printable
  | _ => True

variable {password : Bytes} {engine : Engine} {r : Reflection} {d : Resolved}

/-- A step keeps the responses such that they can be sent. -/
theorem Inv.sendable_step {s : System ι Game} (h : s.Inv (nativeMod password engine r d).password)
    {a : Action ι Game} (ha : s.PrintsCommands a) (hs : ∀ e ∈ s.exchange.dispatched, Sendable e.2) :
  ∀ e ∈ (s.step (nativeMod password engine r d) a).exchange.dispatched, Sendable e.2
  := by
  rcases h.dispatched_cases a with hsame | ⟨rfl, item, -, -, hdispatched⟩
  · rw [hsame]
    apply hs
  · rw [hdispatched, List.forall_mem_append, List.forall_mem_singleton]
    use hs
    apply sendable_response password engine r d item.commandText .authenticatedRcon s.mod ha

/-- The responses of a run can be sent, and so can the answers. -/
theorem sendable_run (password : Bytes) (engine : Engine) (r : Reflection) (d : Resolved)
    (m : ModState Game) {actions : List (Action ι Game)}
    (hactions : Transition.Along (System.step (nativeMod password engine r d))
      System.PrintsCommands { mod := m } actions) :
  (∀ e ∈ (System.run (nativeMod password engine r d) m actions).exchange.dispatched,
    Sendable e.2) ∧
  ∀ c, ∀ a ∈ ((System.run (nativeMod password engine r d) m actions).connections c).answers,
    Sendable a.text
  := by
  obtain ⟨hinv, hdispatched⟩ : (System.run (nativeMod password engine r d) m actions).Inv
      (nativeMod password engine r d).password ∧
      ∀ e ∈ (System.run (nativeMod password engine r d) m actions).exchange.dispatched,
        Sendable e.2 := by
    apply Transition.run_invariant_of_along (P := fun s : System ι Game =>
      s.Inv (nativeMod password engine r d).password ∧ ∀ e ∈ s.exchange.dispatched, Sendable e.2)
      _ _ hactions
    · rintro s a ha ⟨hinv, hs⟩
      exact ⟨hinv.step a, hinv.sendable_step ha hs⟩
    · use inv_init password m
      simp
  use hdispatched
  intro c a ha
  obtain ⟨item, -, -, -, htimeout | hmem⟩ := hinv.answer ha
  · rw [htimeout]
    apply sendable_commandTimedOut
  · apply hdispatched _ hmem

end System

end OpenScumRcon
