import OpenScumRcon.ExecRequest
import OpenScumRcon.Library.Transition
import OpenScumRcon.NativeRoutes

/-!
# The gate in front of native execution

A native handler of the registry is called at most once for a request, and only when no handler
has raised an exception before and everything the dispatcher checks holds of the world. The
world, the registry and the players in it, and what the handlers do may be different for every
request.
-/

namespace OpenScumRcon

/-! ### The selection of the command -/

/-- The loop finds the only command with the verb. -/
theorem selectCommand_eq_ok_iff {wanted : Bytes} {command : Command} (commands : List Command)
    (found : Option Command) :
  selectCommand wanted commands found = .ok command ↔
    found.toList ++ commands.filter (fun c => lowerAscii c.verb = wanted) = [command]
  := by
  induction commands generalizing found with
  | nil =>
      cases found with
      | none => simp [selectCommand]
      | some c => simp [selectCommand]
  | cons c commands ih =>
      rw [selectCommand]
      by_cases hverb : lowerAscii c.verb = wanted
      · rw [if_pos hverb, List.filter_cons_of_pos (by simpa using hverb)]
        cases found with
        | none =>
            rw [if_neg (by simp), ih]
            rfl
        | some other =>
            simp
      · rw [if_neg hverb, List.filter_cons_of_neg (by simpa using hverb), ih]

theorem isError_selectCommand {wanted reply : Bytes} (commands : List Command)
    (found : Option Command) (h : selectCommand wanted commands found = .error reply) :
  IsError reply
  := by
  induction commands generalizing found with
  | nil =>
      cases found with
      | none =>
          rw [← Except.error.inj h]
          decide
      | some c => cases h
  | cons c commands ih =>
      rw [selectCommand] at h
      split at h
      · split at h
        · rw [← Except.error.inj h]
          decide
        · apply ih _ h
      · apply ih _ h

/-! ### The number of arguments -/

/-- The command takes so many arguments: those it requires, up to those it declares, and behind
them any number of groups of those that repeat. -/
def Takes (command : Command) (n : ℕ) : Prop :=
  command.required ≤ n ∧ (n ≤ command.declared ∨
    0 < command.repeating ∧ ∃ k : ℕ, (n : ℤ) = command.declared + k * command.repeating)

/-- The count check accepts no other number of arguments than the command takes. -/
theorem takes_of_countMismatch {command : Command} {n : ℕ} (hrepeating : 0 ≤ command.repeating)
    (h : countMismatch command n = false) :
  Takes command n
  := by
  simp only [countMismatch, Bool.or_eq_false_iff, Bool.and_eq_false_iff, decide_eq_false_iff_not,
    not_lt, not_not] at h
  obtain ⟨⟨hrequired, hfixed⟩, hgroups⟩ := h
  use hrequired
  by_cases hle : (n : ℤ) ≤ command.declared
  · left
    apply hle
  · right
    have hne : command.repeating ≠ 0 := hfixed.resolve_right hle
    have hpos : 0 < command.repeating := by omega
    use hpos
    have hmod : (n - command.declared).tmod command.repeating = 0 := by
      rcases hgroups with (hzero | hle') | hmod
      · cases hne hzero
      · cases hle hle'
      · apply hmod
    obtain ⟨k, hk⟩ := Int.dvd_of_tmod_eq_zero hmod
    have hk' : 0 ≤ k := by
      by_contra hneg
      have hnonpos : command.repeating * k ≤ 0 :=
        Int.mul_nonpos_of_nonneg_of_nonpos hrepeating (by omega)
      omega
    use k.toNat
    rw [Int.toNat_of_nonneg hk', Int.mul_comm]
    omega

/-! ### The player -/

/-- The loop ends with the controller of a player with the SteamID, if it has met one. -/
theorem findController_cases (players : List Player) (steamId : Bytes) :
  findController players steamId = 0 ∨
    ∃ p ∈ players, p.id = steamId ∧ p.controller = findController players steamId
  := by
  unfold findController
  generalize 0 = controller
  induction players generalizing controller with
  | nil => exact .inl rfl
  | cons p players ih =>
      rw [List.foldl_cons]
      split
      · next hid =>
          right
          rcases ih p.controller with heq | ⟨q, hq, hqid, hqc⟩
          · exact ⟨p, List.mem_cons_self, hid, heq.symm⟩
          · exact ⟨q, List.mem_cons_of_mem _ hq, hqid, hqc⟩
      · rcases ih controller with heq | ⟨q, hq, hqid, hqc⟩
        · exact .inl heq
        · exact .inr ⟨q, List.mem_cons_of_mem _ hq, hqid, hqc⟩

/-- The controller is the only connected one with the SteamID. -/
structure World.ConnectedAs (w : World) (steamId : Bytes) (controller : ℕ) : Prop where
  mem : controller ∈ w.objects
  connected : w.connected controller = true
  userId : w.stringCall controller w.getUserId = .ok steamId
  unique : ∀ object ∈ w.objects, w.connected object = true →
    w.stringCall object w.getUserId = .ok steamId → object = controller

/-- The controller found is that of a connected player with the SteamID asked for. -/
theorem connectedAs_of_findController {w : World} {players : List Player} {steamId : Bytes}
    (hplayers : w.connectedPlayers = .ok players) (h : findController players steamId ≠ 0) :
  w.ConnectedAs steamId (findController players steamId)
  := by
  obtain ⟨p, hp, hid, hcontroller⟩ := (findController_cases players steamId).resolve_left h
  have hmem : p ∈ w.players := by
    obtain ⟨-, -, -, -, heq⟩ := World.connectedPlayers_eq_ok_iff.mp hplayers
    rw [heq, List.mem_insertionSort] at hp
    apply hp
  obtain ⟨object, hobject, hplayer⟩ := List.mem_filterMap.mp hmem
  obtain ⟨hconnected, hcall, -, hobject'⟩ := World.player_eq_some_iff.mp hplayer
  rw [← hcontroller, hobject', ← hid]
  constructor
  · apply hobject
  · apply hconnected
  · apply hcall
  · intro other hother hconnected' hcall'
    rw [← hobject']
    apply World.controller_unique hplayers hp other hother hconnected' hcall'

/-! ### The selection of the target -/

/-- The wide strings are the texts. -/
def Carries (texts : List Bytes) (strings : List WideString) : Prop :=
  List.Forall₂ (fun text units => wideCharToMultiByte units = some text) texts strings

theorem carries_of_mapM_wide {texts : List Bytes} {strings : List WideString}
    (h : texts.mapM wide = .ok strings) :
  Carries texts strings
  := by
  induction texts generalizing strings with
  | nil =>
      rw [List.mapM_nil] at h
      rw [← Except.ok.inj h]
      apply List.Forall₂.nil
  | cons text texts ih =>
      rw [List.mapM_cons] at h
      cases hwide : wide text with
      | error thrown =>
          rw [hwide] at h
          cases h
      | ok units =>
          rw [hwide] at h
          cases hrest : texts.mapM wide with
          | error thrown =>
              rw [hrest] at h
              cases h
          | ok rest =>
              rw [hrest] at h
              rw [← Except.ok.inj h]
              apply List.Forall₂.cons _ (ih hrest)
              apply wideCharToMultiByte_of_wide hwide

/-- Everything that is checked before a command object is made. -/
structure Selects (engine : Engine) (w : World) (request : DispatchRequest) (target : Target) :
    Prop where
  registers : w.Registers target.command
  verb : lowerAscii target.command.verb = lowerAscii request.verb
  unique : ∀ command, w.Registers command →
    lowerAscii command.verb = lowerAscii request.verb → command = target.command
  supported : w.Supported target.command
  takes : Takes target.command request.arguments.length
  connected : w.ConnectedAs request.steamId target.controller
  prisoner : w.hasPrisoner target.controller = true
  executor : w.executorClass ≠ 0 ∧ engine.getInterface w target.controller w.executorClass ≠ 0
  arguments : Carries request.arguments target.arguments

/-- The command that is selected is the only entry with the verb. -/
theorem registers_of_selectCommand {w : World} {commands : List Command} {wanted : Bytes}
    {command : Command} (hcommands : w.commands = .ok commands)
    (h : selectCommand wanted commands none = .ok command) :
  w.Registers command ∧ lowerAscii command.verb = wanted ∧
    ∀ other, w.Registers other → lowerAscii other.verb = wanted → other = command
  := by
  have hmem := (World.commands_spec hcommands).2
  rw [selectCommand_eq_ok_iff, Option.toList_none, List.nil_append] at h
  have hfilter : ∀ other, other ∈ [command] ↔
      w.Registers other ∧ lowerAscii other.verb = wanted := by
    intro other
    rw [← h, List.mem_filter, hmem, decide_eq_true_iff]
  obtain ⟨hregisters, hverb⟩ := (hfilter command).mp List.mem_cons_self
  use hregisters, hverb
  intro other hother hverb'
  apply List.mem_singleton.mp
  apply (hfilter other).mpr ⟨hother, hverb'⟩

/-- A target that has passed all checks, or an error. -/
def Selection (engine : Engine) (w : World) (request : DispatchRequest) :
    Except Bytes Target → Prop
  | .error reply => IsError reply
  | .ok target => Selects engine w request target

/-- A target comes with every check passed, and a refusal with an error text. -/
theorem selectTarget_selection {engine : Engine} {w : World} {request : DispatchRequest}
    {result : Except Bytes Target} (hlength : request.arguments.length < 2 ^ 31)
    (h : selectTarget engine w request = .ok result) :
  Selection engine w request result
  := by
  rw [selectTarget] at h
  simp only [bind, Except.bind, pure, Except.pure] at h
  split at h
  · cases h
  next commands hcommands =>
  split at h
  · next reply hselect =>
      rw [← Except.ok.inj h]
      apply isError_selectCommand commands none hselect
  next command hselect =>
  obtain ⟨hregisters, hverb, hunique⟩ := registers_of_selectCommand hcommands hselect
  split at h
  · rw [← Except.ok.inj h]
    apply isError_append (by decide)
  next hunsupported =>
  split at h
  · rw [← Except.ok.inj h]
    simp only [Selection, mismatchReply, List.append_assoc]
    apply isError_append (by decide)
  next hcount =>
  split at h
  · cases h
  next players hplayers =>
  split at h
  · rw [← Except.ok.inj h]
    rw [Selection]
    decide
  next hcontroller =>
  split at h
  · rw [← Except.ok.inj h]
    rw [Selection]
    decide
  next hprisoner =>
  split at h
  · rw [← Except.ok.inj h]
    rw [Selection]
    decide
  next hexecutor =>
  split at h
  · cases h
  next arguments harguments =>
  rw [← Except.ok.inj h]
  have hsupported : w.Supported command := by
    obtain ⟨registry, -, -, hentry⟩ := hregisters
    apply World.supported_of_readCommand hentry.read (not_not.mp hunsupported)
  rw [toInt_ofNat_of_lt hlength, Bool.not_eq_true] at hcount
  rw [Bool.not_eq_true', Bool.not_eq_false] at hprisoner
  rw [not_or] at hexecutor
  constructor
  · apply hregisters
  · apply hverb
  · apply hunique
  · apply hsupported
  · apply takes_of_countMismatch hsupported.repeating.1 hcount
  · apply connectedAs_of_findController hplayers hcontroller
  · apply hprisoner
  · apply hexecutor
  · apply carries_of_mapM_wide harguments

/-! ### One request -/

/-- No handler has been called, and the latch is as it was. -/
structure Untouched (s s' : Game) : Prop where
  invocations : s'.invocations = s.invocations
  nativeFaulted : s'.nativeFaulted = s.nativeFaulted

/-- The reply is an error, or there is none because an exception has been thrown. -/
def Refused : Except Thrown Bytes → Prop
  | .ok reply => IsError reply
  | .error _ => True

/-- The new command object for a target, and the world that holds it. -/
def makeObject (engine : Engine) (w : World) (target : Target) : ℕ × World :=
  engine.newObject w target.controller target.command.cls

def nativeCall (engine : Engine) (w : World) (target : Target) (object : ℕ) :
    NativeEffect × Option Bool :=
  engine.execute w (w.slot object 0x288) object target.arguments

/-- The handler of the target has been called once, on a new object that has passed, and the
latch tells whether it has raised an exception. -/
structure Invoked (engine : Engine) (w : World) (target : Target) (s s' : Game)
    (result : Except Thrown Bytes) : Prop where
  object : validInstance (makeObject engine w target).2 target (makeObject engine w target).1 = true
  invocations : s'.invocations = s.invocations ++
    [{ function := (makeObject engine w target).2.slot (makeObject engine w target).1 0x288
       command := (makeObject engine w target).1
       arguments := target.arguments
       raised := (nativeCall engine (makeObject engine w target).2 target
        (makeObject engine w target).1).2.isNone }]
  nativeFaulted : s'.nativeFaulted = (s.nativeFaulted ||
    (nativeCall engine (makeObject engine w target).2 target
      (makeObject engine w target).1).2.isNone)
  reply : ∃ reply, result = .ok reply ∧
    ((nativeCall engine (makeObject engine w target).2 target
      (makeObject engine w target).1).2 ≠ some true → IsError reply)

theorem ne_nil_of_isError {reply : Bytes} (h : IsError reply) :
  reply ≠ []
  := by
  rintro rfl
  revert h
  decide

theorem isError_ite {p : Prop} [Decidable p] {s t : Bytes} (hs : IsError s) (ht : IsError t) :
  IsError (if p then s else t)
  := by
  split
  · apply hs
  · apply ht

/-- Nothing that is put behind the error takes it away. -/
theorem isError_composeReply_false (capture : ResponseScope) :
  IsError (composeReply false capture)
  := by
  have hfalse : IsError (ascii "error: native command returned false") := by
    decide
  have herror : ∀ {reply : Bytes}, IsError reply → IsError (if reply = [] then
      ascii "ok: native command returned true; no synchronous SCUM response" else reply) := by
    intro reply h
    rw [if_neg (ne_nil_of_isError h)]
    apply h
  have happend : ∀ {reply : Bytes} (p : Prop) [Decidable p] (text : Bytes), IsError reply →
      IsError (if p then reply ++ text else reply) := by
    intro reply p _ text h
    apply isError_ite (isError_append h text) h
  rw [composeReply]
  apply herror
  apply happend
  apply happend
  apply isError_ite hfalse
  rw [List.append_assoc]
  apply isError_append hfalse

theorem isError_nativeReply {result : Option Bool} (h : result ≠ some true)
    (capture : ResponseScope) :
  IsError (nativeReply result capture)
  := by
  cases result with
  | none =>
      rw [nativeReply]
      decide
  | some result =>
      cases result with
      | false => apply isError_composeReply_false
      | true => cases h rfl

/-- A command object that does not pass is left alone, and the handler is called once
otherwise. -/
theorem run_invokeTarget (engine : Engine) (target : Target) (s : Game) :
  ∃ result s', (invokeTarget engine target).run.run s = (result, s') ∧
    (Untouched s s' ∧ Refused result ∨ Invoked engine s.world target s s' result)
  := by
  rw [invokeTarget, GameM.run_bind, GameM.run_get]
  dsimp only
  split
  · rw [GameM.run_bind, GameM.run_set]
    refine ⟨_, _, rfl, .inl ⟨⟨rfl, rfl⟩, ?_⟩⟩
    rw [Refused]
    decide
  next hvalid =>
  rw [Bool.not_eq_true', Bool.not_eq_false] at hvalid
  rw [GameM.run_bind, GameM.run_set]
  refine ⟨_, _, rfl, .inr ⟨hvalid, rfl, rfl, _, rfl, ?_⟩⟩
  intro hresult
  apply isError_nativeReply hresult

/-- The checks the dispatcher makes of its own state. -/
structure Enabled (s : Game) : Prop where
  latch : s.nativeFaulted = false
  build : s.world.supportedBuild = true
  ready : s.world.captureReady = true

/-- A handler is called only when everything has been checked, and otherwise the reply is an
error or an exception is thrown. -/
theorem run_execute (engine : Engine) {request : DispatchRequest} (s : Game)
    (hlength : request.arguments.length < 2 ^ 31) :
  ∃ result s', (execute engine request).run.run s = (result, s') ∧
    (Untouched s s' ∧ Refused result ∨
    ∃ target, Enabled s ∧ Selects engine s.world request target ∧
      Invoked engine s.world target s s' result)
  := by
  rw [execute, GameM.run_bind, GameM.run_get]
  dsimp only
  split
  · refine ⟨_, s, rfl, .inl ⟨⟨rfl, rfl⟩, ?_⟩⟩
    rw [Refused]
    decide
  next hlatch =>
  split
  · refine ⟨_, s, rfl, .inl ⟨⟨rfl, rfl⟩, ?_⟩⟩
    rw [Refused]
    decide
  next hready =>
  simp only [Bool.or_eq_true, Bool.not_eq_true', not_or, Bool.not_eq_false] at hready
  rw [Bool.not_eq_true] at hlatch
  rw [GameM.run_bind, GameM.run_ofExcept]
  cases hselect : selectTarget engine s.world request with
  | error thrown => exact ⟨_, s, rfl, .inl ⟨⟨rfl, rfl⟩, trivial⟩⟩
  | ok selection =>
      have hselection := selectTarget_selection hlength hselect
      cases selection with
      | error reply => exact ⟨_, s, rfl, .inl ⟨⟨rfl, rfl⟩, hselection⟩⟩
      | ok target =>
          obtain ⟨result, s', hrun, hcases⟩ := run_invokeTarget engine target s
          use result, s', hrun
          rcases hcases with hrefused | hinvoked
          · left
            apply hrefused
          · right
            exact ⟨target, ⟨hlatch, hready.1, hready.2⟩, hselection, hinvoked⟩

/-! ### The other requests -/

instance : Std.Refl Untouched :=
  ⟨fun _ => ⟨rfl, rfl⟩⟩

instance : IsTrans Game Untouched :=
  ⟨fun _ _ _ h h' =>
    ⟨h'.invocations.trans h.invocations, h'.nativeFaulted.trans h.nativeFaulted⟩⟩

theorem keeps_connectionIp (controller : ℕ) :
  GameM.Keeps Untouched (connectionIp controller)
  := by
  rw [connectionIp]
  apply GameM.keeps_bind GameM.keeps_get
  intro s
  dsimp only
  split
  · apply GameM.keeps_pure
  split
  · apply GameM.keeps_bind
    · constructor
      intro s
      exact ⟨rfl, rfl⟩
    · intro _
      apply GameM.keeps_pure
  · apply GameM.keeps_bind (GameM.keeps_ofExcept _)
    intro address
    split
    · apply GameM.keeps_pure
    · apply GameM.keeps_pure

/-- The list keeps what the address of a player keeps. -/
theorem keeps_lines {R : Game → Game → Prop} [Std.Refl R] [IsTrans Game R]
    (hip : ∀ controller, GameM.Keeps R (connectionIp controller)) (w : World)
    (players : List Player) :
  GameM.Keeps R (listPlayers.lines w players)
  := by
  induction players with
  | nil => apply GameM.keeps_pure
  | cons player players ih =>
      apply GameM.keeps_bind (hip _)
      intro ip
      apply GameM.keeps_bind (GameM.keeps_ofExcept _)
      intro name
      apply GameM.keeps_bind ih
      intro rest
      apply GameM.keeps_pure

theorem keeps_listPlayers {R : Game → Game → Prop} [Std.Refl R] [IsTrans Game R]
    (hip : ∀ controller, GameM.Keeps R (connectionIp controller)) :
  GameM.Keeps R listPlayers
  := by
  apply GameM.keeps_bind GameM.keeps_get
  intro s
  apply GameM.keeps_bind (GameM.keeps_ofExcept _)
  intro players
  split
  · apply GameM.keeps_pure
  split
  · apply GameM.keeps_ofExcept
  · apply keeps_lines hip

/-- A request for anything but the execution of a command calls no handler. -/
theorem keeps_dispatch (engine : Engine) {text : Bytes}
    (h : (parseDispatchRequest text).action ≠ .execute) (authority : CommandAuthority) :
  GameM.Keeps Untouched (Registry.dispatch (nativeRoutes engine) text authority)
  := by
  have hread : ∀ read : World → Except Thrown Bytes,
      GameM.Keeps Untouched (do
        let s : Game ← get
        GameM.ofExcept (read s.world)) := by
    intro read
    apply GameM.keeps_bind GameM.keeps_get
    intro s
    apply GameM.keeps_ofExcept
  rw [Registry.dispatch]
  split
  · apply GameM.keeps_pure
  dsimp only
  split
  · apply GameM.keeps_pure
  · apply keeps_listPlayers keeps_connectionIp
  · apply hread fun w => weather w w.floatBits w.ties false
  · apply hread fun w => weather w w.floatBits w.ties true
  · apply hread fun w => catalogue w _
  · next haction => cases h haction
  · apply GameM.keeps_pure

/-! ### Runs -/

/-- A request, with the world it meets and what the engine does on its way. -/
structure NativeRequest where
  text : Bytes
  authority : CommandAuthority
  world : World
  engine : Engine

namespace NativeRequest

/-- The answer to a request. The dispatcher keeps its own state between requests, and everything
else may have changed. -/
def answer (s : Game) (request : NativeRequest) : Except Thrown Bytes × Game :=
  (Registry.dispatch (nativeRoutes request.engine) request.text request.authority).run.run
    { s with world := request.world }

/-- The state after a list of requests from the start of the process. -/
def reached (requests : List NativeRequest) : Game :=
  Transition.run (fun s request => (answer s request).2) { world := {} } requests

/-- The request has had its handler called for a target that has passed all checks. -/
structure Executed (request : NativeRequest) (target : Target) (s s' : Game)
    (result : Except Thrown Bytes) : Prop where
  authority : request.authority = .authenticatedRcon
  action : (parseDispatchRequest request.text).action = .execute
  latch : s.nativeFaulted = false
  build : request.world.supportedBuild = true
  ready : request.world.captureReady = true
  selects : Selects request.engine request.world (parseDispatchRequest request.text) target
  invoked : Invoked request.engine request.world target s s' result

/-- The request has called no handler, and if it was one to execute a command, it has been
refused. -/
structure Unexecuted (request : NativeRequest) (s s' : Game) (result : Except Thrown Bytes) :
    Prop where
  untouched : Untouched s s'
  refused : (parseDispatchRequest request.text).action = .execute → Refused result

/-- One request. -/
theorem answer_cases (s : Game) (request : NativeRequest) :
  request.Unexecuted s (answer s request).2 (answer s request).1 ∨
    ∃ target, request.Executed target s (answer s request).2 (answer s request).1
  := by
  by_cases haction : (parseDispatchRequest request.text).action = .execute
  · obtain ⟨steamId, verb, arguments, hexec⟩ := exists_execRequest haction
    have hlength : (parseDispatchRequest request.text).arguments.length < 2 ^ 31 := by
      have hle := hexec.tokens_length_le
      rw [hexec.parse_eq]
      dsimp only
      omega
    by_cases hauthority : request.authority = .authenticatedRcon
    · obtain ⟨result, s', hrun, hcases⟩ :=
        run_execute request.engine { s with world := request.world } hlength
      have hanswer : answer s request = (result, s') := by
        rw [answer, Registry.dispatch, isRconAuthorized_iff.mpr hauthority, Bool.not_true,
          if_neg Bool.false_ne_true]
        dsimp only
        rw [haction]
        apply hrun
      rw [hanswer]
      rcases hcases with ⟨huntouched, hrefused⟩ | ⟨target, henabled, hselects, hinvoked⟩
      · left
        use ⟨huntouched.invocations, huntouched.nativeFaulted⟩
        intro _
        apply hrefused
      · right
        exact ⟨target, hauthority, haction, henabled.latch, henabled.build, henabled.ready, hselects,
          hinvoked.object, hinvoked.invocations, hinvoked.nativeFaulted, hinvoked.reply⟩
    · have hanswer : answer s request = (.ok authorityRequired, { s with world := request.world }) := by
        rw [answer, Registry.dispatch, if_pos]
        · rfl
        · rw [Bool.not_eq_true', ← Bool.not_eq_true, isRconAuthorized_iff]
          apply hauthority
      rw [hanswer]
      left
      use ⟨rfl, rfl⟩
      intro _
      apply isError_authorityRequired
  · left
    have hkeeps := (keeps_dispatch request.engine haction request.authority).related
      { s with world := request.world }
    use ⟨hkeeps.invocations, hkeeps.nativeFaulted⟩
    intro hexec
    cases haction hexec

/-- The latch is set exactly when a handler has raised an exception. -/
theorem nativeFaulted_reached (requests : List NativeRequest) :
  (reached requests).nativeFaulted = (reached requests).invocations.any Invocation.raised
  := by
  apply Transition.run_invariant
    (P := fun s : Game => s.nativeFaulted = s.invocations.any Invocation.raised)
  · intro s request hs
    rcases answer_cases s request with hunexecuted | ⟨target, hexecuted⟩
    · rw [hunexecuted.untouched.nativeFaulted, hunexecuted.untouched.invocations, hs]
    · rw [hexecuted.invoked.nativeFaulted, hexecuted.invoked.invocations, hs, List.any_append,
        List.any_cons, List.any_nil, Bool.or_false]
  · rfl

/-- After every run, a request calls the native handler at most once, and only when no handler
has raised an exception before and everything has been checked. Otherwise it is refused. -/
theorem native_execution (requests : List NativeRequest) (request : NativeRequest) :
  request.Unexecuted (reached requests) (answer (reached requests) request).2
    (answer (reached requests) request).1 ∨
  ((∀ earlier ∈ (reached requests).invocations, earlier.raised = false) ∧
    ∃ target, request.Executed target (reached requests) (answer (reached requests) request).2
      (answer (reached requests) request).1)
  := by
  rcases answer_cases (reached requests) request with hunexecuted | ⟨target, hexecuted⟩
  · left
    apply hunexecuted
  · right
    have hnone := hexecuted.latch
    rw [nativeFaulted_reached, List.any_eq_false] at hnone
    constructor
    · intro earlier hearlier
      rw [← Bool.not_eq_true]
      apply hnone earlier hearlier
    · use target

/-- A world with one player and one command, which requires an argument. -/
def oneCommand : World where
  numElements := 1000
  indexToObject i := some { object := i.toNat, isValid := true }
  objects := [100, 200, 300, 800]
  internalIndex object := object
  classDefault object := object == 600
  isA object cls := [(100, 1), (300, 2), (800, 5)].contains (object, cls)
  classPrivate _ := 400
  outerPrivate _ := 100
  isChildOf cls parent := (cls, parent) == (400, 6)
  classDefaultObject _ := 600
  staticFindObject path :=
    if path = "/Script/SCUM.ConZPlayerController" then 1
    else if path = "/Script/SCUM.Prisoner" then 2
    else if path = "/Script/SCUM.ConZPlayerController:GetUserId" then 3
    else if path = "/Script/SCUM.AdminCommandRegistry" then 5
    else if path = "/Script/SCUM.AdminCommand" then 6
    else 7
  propertyByName _ name :=
    if name = "NetConnection" then 31
    else if name = "Pawn" then 32
    else if name = "_verb" then 33
    else if name = "_numberOfRequiredArguments" then 34
    else if name = "_numberOfRepeatingArguments" then 35
    else if name = "_commands" ∨ name = "_argumentDescriptions" then 36
    else 38
  propertyKind p :=
    if p < 33 then .object
    else if p = 33 then .str
    else if p < 36 then .int
    else if p = 36 then .array
    else if p = 37 then .objectClass
    else .bool
  inner _ := 37
  elementSize _ := 8
  objectValue p _ := if p = 31 then 200 else 300
  boolValue _ _ := true
  intValue p _ := if p = 34 then 1 else 0
  strValue _ _ := "SpawnItem".toList.flatMap Utf16.encodeChar
  arrayNum _ _ := 1
  arrayElement _ _ _ := 400
  parmsSize _ := 16
  callString _ _ := "76561198000000001".toList.flatMap Utf16.encodeChar
  moduleBase := 4096
  supportedBuild := true
  captureReady := true
  captureFunction := 4096
  memory a := (LittleEndian.encode 8 (if a < 1000 then 1000 else 4096))[a % 100 % 8]?
  virtualQuery _ := some { allocationBase := 4096, state := 0x1000, protect := 0x20 }

/-- A request to run the command, whose handler ends with the result. -/
def spawn (result : Option Bool) : NativeRequest where
  text := ascii "!exec 76561198000000001 spawnitem \"two words\""
  authority := .authenticatedRcon
  world := oneCommand
  engine :=
    { newObject := fun w _ _ => (700, w)
      getInterface := fun _ _ _ => 1
      execute := fun w _ _ _ => ({ world := w }, result)
      canExecute := fun w _ _ _ => ((true, []), w)
      setGodMode := fun w _ _ _ => ({ world := w }, true)
      scope := 1 }

example :
  (reached [spawn (some true), spawn (some false), spawn none, spawn (some true)]).invocations.map
    (fun invocation => (invocation.arguments.map wideCharToMultiByte, invocation.raised))
    = [([some (ascii "two words")], false), ([some (ascii "two words")], false),
      ([some (ascii "two words")], true)]
  := by decide +kernel

end NativeRequest

end OpenScumRcon
