import OpenScumRcon.NativeRuns
import OpenScumRcon.StartupChecks

/-!
# A build that is not supported

Start-up compares the game with the build the mod knows, and leaves the answers in variables that
the routes read again with every command. On any other build the variables stay as they are over
every run, and with them the game: no command has an effect on it, but for the two diagnostics that
call functions at fixed addresses.
-/

namespace OpenScumRcon

/-! ### The variables -/

/-- The variables say that the build is not supported. -/
structure Locked (s : Game) : Prop where
  build : s.world.supportedBuild = false
  signatures : s.signaturesOk = false

/-- On a build that is not supported, nothing has changed. -/
structure Frozen (s s' : Game) : Prop where
  same : Locked s → s' = s

instance : Std.Refl Frozen :=
  ⟨fun _ => ⟨fun _ => rfl⟩⟩

instance : IsTrans Game Frozen where
  trans s s' s'' h h' := by
    constructor
    intro hlocked
    have hsame := h.same hlocked
    rw [hsame] at h'
    apply h'.same hlocked

/-! ### The routes -/

theorem frozen_connectionIp (controller : ℕ) :
  GameM.Keeps Frozen (connectionIp controller)
  := by
  constructor
  intro s
  constructor
  intro hlocked
  rw [connectionIp, GameM.run_bind, GameM.run_get]
  dsimp only
  rw [hlocked.build, Bool.not_false, Bool.or_true, Bool.true_or, if_pos rfl, GameM.run_pure]

/-- Without support, a request to execute a command is refused. -/
theorem run_execute_of_locked {s : Game} (h : Locked s) (engine : Engine)
    (request : DispatchRequest) :
  (execute engine request).run.run s
    = (.ok (if s.nativeFaulted then nativeDisabled else dispatcherDisabled), s)
  := by
  rw [execute, GameM.run_bind, GameM.run_get]
  dsimp only
  rw [h.build]
  split
  · rfl
  · rfl

/-- The reply of the GodMode route on a build it does not know. -/
def godmodeDisabled : Bytes :=
  ascii "error: native GodMode disabled: unsupported SCUM build/signature"

theorem Godmode.run_act_of_locked {s : Game} (h : Locked s) (engine : Engine) (request : Request) :
  (act engine request).run.run s = (.ok godmodeDisabled, s)
  := by
  rw [act, GameM.run_bind, GameM.run_get]
  dsimp only
  rw [h.signatures]
  rfl

theorem frozen_read (read : World → Except Thrown Bytes) :
  GameM.Keeps Frozen (do
    let s : Game ← get
    GameM.ofExcept (read s.world))
  := by
  apply GameM.keeps_bind GameM.keeps_get
  intro s
  apply GameM.keeps_ofExcept

/-- With the gate shut the registry changes nothing in the game. -/
theorem frozen_dispatch (engine : Engine) (text : Bytes) (authority : CommandAuthority) :
  GameM.Keeps Frozen (Registry.dispatch (nativeRoutes engine) text authority)
  := by
  rw [Registry.dispatch]
  split
  · apply GameM.keeps_pure
  dsimp only
  split
  · apply GameM.keeps_pure
  · apply keeps_listPlayers frozen_connectionIp
  · apply frozen_read fun w => weather w w.floatBits w.ties false
  · apply frozen_read fun w => weather w w.floatBits w.ties true
  · apply frozen_read fun w => catalogue w _
  · constructor
    intro s
    constructor
    intro hlocked
    have hroute : (nativeRoutes engine).execute = execute engine := rfl
    rw [hroute, run_execute_of_locked hlocked]
  · apply GameM.keeps_pure

/-- With the gate shut the godmode handler changes nothing in the game. -/
theorem Godmode.frozen_dispatch (engine : Engine) (text : Bytes) (authority : CommandAuthority) :
  GameM.Keeps Frozen (Godmode.dispatch (nativeRoutes engine) text authority)
  := by
  rw [dispatch]
  split
  · apply GameM.keeps_pure
  split
  · apply GameM.keeps_pure
  split
  · apply GameM.keeps_pure
  · rw [map_eq_pure_bind]
    apply GameM.keeps_bind
    · constructor
      intro s
      constructor
      intro hlocked
      have hroute : (nativeRoutes engine).godmode (parse text) = act engine (parse text) := rfl
      rw [hroute, run_act_of_locked hlocked]
    · intro reply
      apply GameM.keeps_pure

/-- With the gate shut no routed command changes the game. -/
theorem frozen_dispatchCommand (engine : Engine) (d : AdminDispatch) (text : Bytes)
    (authority : CommandAuthority) :
  GameM.Keeps Frozen (dispatchCommand (nativeRoutes engine) d text authority)
  := by
  rw [dispatchCommand]
  split
  · apply GameM.keeps_pure
  split
  · apply GameM.keeps_pure
  · apply GameM.keeps_bind (Godmode.frozen_dispatch engine text authority)
    intro reply
    cases reply with
    | some reply => apply GameM.keeps_pure
    | none => apply frozen_dispatch

/-! ### The sentinels -/

/-- The diagnostics that call functions of the game at addresses of one build, whatever the build
is. -/
def resolverSentinels : List Bytes :=
  [ascii "!call_context_resolver", ascii "!call_executor_resolver"]

/-- The functions that the two diagnostics call leave the variable of the mod alone. -/
structure Reflection.KeepsBuild (r : Reflection) : Prop where
  contextResolver : ∀ w, (r.contextResolver w).2.supportedBuild = w.supportedBuild
  executorResolver : ∀ w object, (r.executorResolver w object).2.supportedBuild = w.supportedBuild

/-- The record, the latch and the variables are as they were. -/
structure StaysLocked (s s' : Game) : Prop where
  untouched : Untouched s s'
  build : s'.world.supportedBuild = s.world.supportedBuild
  signatures : s'.signaturesOk = s.signaturesOk

theorem StaysLocked.locked {s s' : Game} (h : StaysLocked s s') (hlocked : Locked s) :
  Locked s'
  := ⟨h.build.trans hlocked.build, h.signatures.trans hlocked.signatures⟩

theorem staysLocked_refl (s : Game) :
  StaysLocked s s
  := ⟨⟨rfl, rfl⟩, rfl, rfl⟩

/-- Whatever a command does, the mod stays as it is, and only the two diagnostics change more. -/
structure Harmless (text : Bytes) (s s' : Game) : Prop where
  stays : StaysLocked s s'
  same : text ∉ resolverSentinels → s' = s

theorem harmless_readReply (text : Bytes) (f : World → Bytes) (s : Game) :
  Harmless text s ((readReply f).run.run s).2
  := ⟨staysLocked_refl s, fun _ => rfl⟩

/-- Every diagnostic is harmless. -/
theorem harmless_sentinels {r : Reflection} (hr : r.KeepsBuild) {d : Resolved} {text : Bytes}
    {f : GameM Game Bytes} (h : (text, f) ∈ (sentinels r d).calls) (s : Game) :
  Harmless text s (f.run.run s).2
  := by
  simp only [Sentinels.calls, sentinels, List.mem_cons, Prod.mk.injEq, List.not_mem_nil,
    or_false] at h
  rcases h with ⟨-, rfl⟩ | ⟨-, rfl⟩ | ⟨-, rfl⟩ | ⟨-, rfl⟩ | ⟨-, rfl⟩ | ⟨-, rfl⟩ | ⟨-, rfl⟩ |
    ⟨rfl, rfl⟩ | ⟨rfl, rfl⟩ | ⟨-, rfl⟩
  · apply harmless_readReply
  · apply harmless_readReply
  · apply harmless_readReply
  · apply harmless_readReply
  · apply harmless_readReply
  · apply harmless_readReply
  · apply harmless_readReply
  · constructor
    · exact ⟨⟨rfl, rfl⟩, hr.contextResolver s.world, rfl⟩
    · intro hnot
      cases hnot List.mem_cons_self
  · constructor
    · rw [callExecutorResolverAndDump, GameM.run_bind, GameM.run_get]
      dsimp only
      split
      · apply staysLocked_refl
      · exact ⟨⟨rfl, rfl⟩, hr.executorResolver s.world _, rfl⟩
    · intro hnot
      cases hnot (List.mem_cons_of_mem _ List.mem_cons_self)
  · apply harmless_readReply

/-! ### One command -/

variable {engine : Engine} {r : Reflection} {d : Resolved} {password : Bytes}

/-- What one drained command may change, with the gate shut. -/
theorem respond_harmless (hr : r.KeepsBuild) (text : Bytes) (authority : CommandAuthority)
    {m : ModState Game} (hlocked : Locked m.game) :
  Harmless text m.game (respond (nativeMod password engine r d) text authority m).2.game
  := by
  obtain ⟨x, hx, -, hgame, -⟩ := respond_ran (nativeMod password engine r d) text authority m
  have hsame : ∀ s', s' = m.game → Harmless text m.game s' := by
    rintro _ rfl
    exact ⟨staysLocked_refl m.game, fun _ => rfl⟩
  rw [hgame]
  cases hx with
  | sentinel h => apply harmless_sentinels hr h
  | fixed h =>
      apply hsame
      rfl
  | dispatch h =>
      apply hsame
      apply ((frozen_dispatchCommand engine m.dispatch text authority).related m.game).same hlocked

/-- The response to a command that needs support says that there is none. -/
structure Refusal (text response : Bytes) : Prop where
  execute : (parseDispatchRequest text).action = .execute → response = dispatcherDisabled
  godmode : (Godmode.parse text).action ∉ [.unrelated, .invalid] → response = godmodeDisabled

/-- What the dispatcher replies to a command that needs support. -/
theorem run_dispatchCommand_of_locked (engine : Engine) {d : AdminDispatch}
    (hinitialized : d.initialized = true) {s : Game} (hlocked : Locked s)
    (hlatch : s.nativeFaulted = false) (text : Bytes) :
  Refusal text (responseText
    ((dispatchCommand (nativeRoutes engine) d text .authenticatedRcon).run.run s).1)
  := by
  rw [dispatchCommand, isRconAuthorized_iff.mpr rfl, hinitialized, Bool.not_true,
    if_neg Bool.false_ne_true, if_neg Bool.false_ne_true]
  constructor
  · intro haction
    have hunrelated : (Godmode.parse text).action = .unrelated := by
      apply unrelated_of_acts
      rw [haction]
      decide
    have hroute : (nativeRoutes engine).execute = execute engine := rfl
    rw [Godmode.dispatch_of_unrelated _ _ hunrelated, pure_bind, Registry.dispatch,
      isRconAuthorized_iff.mpr rfl, Bool.not_true, if_neg Bool.false_ne_true]
    dsimp only
    rw [haction]
    dsimp only
    rw [hroute, run_execute_of_locked hlocked, hlatch]
    rfl
  · intro haction
    rw [List.mem_cons, List.mem_singleton, not_or] at haction
    have hroute : (nativeRoutes engine).godmode (Godmode.parse text)
        = Godmode.act engine (Godmode.parse text) := rfl
    rw [Godmode.dispatch, if_neg haction.1, isRconAuthorized_iff.mpr rfl, Bool.not_true,
      if_neg Bool.false_ne_true, if_neg haction.2, map_eq_pure_bind, bind_assoc, GameM.run_bind,
      hroute, Godmode.run_act_of_locked hlocked]
    rfl

/-! ### The mod that has been loaded -/

namespace Loading

variable {detours : Detours} {w : World} {l : Loading}

/-- On a build that does not match, no detour is installed. -/
theorem detoured_of_unsupported (hbuild : buildMatches l.world = false)
    (hfirst : l.world.supportedBuild = false) (detours : Detours) :
  detoured detours l = behind initializeGodmode { l with ticking := true }
  := by
  have hticking : ({ l with ticking := true } : Loading).world = l.world := rfl
  have htrace : behind (initializeTrace detours) { l with ticking := true }
      = { l with ticking := true } := by
    rw [behind, initializeTrace, GameM.run_bind, GameM.run_get]
    dsimp only
    rw [hticking, hbuild, if_neg Bool.false_ne_true, GameM.run_pure]
  have hgodmode : (behind initializeGodmode { l with ticking := true }).world = l.world := rfl
  have hcapture : behind (initializeCapture detours) (behind initializeGodmode { l with ticking := true })
      = behind initializeGodmode { l with ticking := true } := by
    rw [behind, initializeCapture, GameM.run_bind, GameM.run_get]
    dsimp only
    rw [hgodmode, hfirst, Bool.not_false, Bool.or_true, Bool.true_or, if_pos rfl, GameM.run_pure]
  have hobservers : behind (installObservers detours) (behind initializeGodmode { l with ticking := true })
      = behind initializeGodmode { l with ticking := true } := by
    rw [behind, installObservers, GameM.run_bind, GameM.run_get]
    dsimp only
    rw [hgodmode, hfirst, if_neg Bool.false_ne_true, GameM.run_pure]
  rw [detoured, htrace, hcapture, hobservers]

/-- The mod, as it starts to work on commands. -/
def mod (l : Loading) : ModState Game where
  game := l.game
  dispatch := l.dispatch

/-- No command has been processed, and none that needs support will be. -/
structure Unsupported (m : ModState Game) : Prop where
  initialized : m.dispatch.initialized = true
  locked : Locked m.game
  latch : m.game.nativeFaulted = false
  invocations : m.game.invocations = []

/-- If it listens on a build that does not match, the mod has not touched the game. -/
theorem unsupported_loaded {file : Option Bytes} {config : Config}
    (hlistening : (loaded detours file w).listening = some config)
    (hbuild : buildMatches w = false) :
  Unsupported (loaded detours file w).mod ∧ (loaded detours file w).world.memory = w.memory
  := by
  obtain ⟨-, hresolvable, hgame, hnone, -⟩ := run_initializeDispatch w
  have hw : Resolvable w := by
    by_contra hw
    rw [loaded_of_not_resolvable hw, hnone] at hlistening
    cases hlistening
  cases hfile : loadConfig file with
  | error thrown =>
      rw [loaded_of_thrown hw hfile, hnone] at hlistening
      cases hlistening
  | ok config' =>
      have hworld : (dispatching w).world = (constructed w).world := by
        rw [world, hgame, world]
      have hdetoured : detoured detours (dispatching w)
          = behind initializeGodmode { dispatching w with ticking := true } := by
        apply detoured_of_unsupported
        · rw [hworld]
          apply hbuild
        · rw [hworld]
          rfl
      rw [loaded_of_config hw hfile, hdetoured]
      constructor
      · constructor
        · apply hresolvable.mpr hw
        · constructor
          · calc
              _ = (dispatching w).world.supportedBuild := rfl
              _ = false := by
                  rw [hworld]
                  rfl
          · calc
              _ = ((dispatching w).world.supportedBuild
                    && (dispatching w).world.read
                      ((dispatching w).world.moduleBase + Godmode.canExecuteRva) 15
                      = some Godmode.permission) := rfl
              _ = false := by
                  rw [hworld]
                  rfl
        · calc
            _ = (dispatching w).game.nativeFaulted := rfl
            _ = false := by
                rw [hgame]
                rfl
        · calc
            _ = (dispatching w).game.invocations := rfl
            _ = [] := by
                rw [hgame]
                rfl
      · calc
          _ = (dispatching w).world.memory := rfl
          _ = w.memory := by
              rw [hworld]
              rfl

end Loading

/-! ### Runs -/

namespace System

variable {ι : Type} [DecidableEq ι]

/-- Outside of the commands, the game leaves the mod alone. -/
def LeavesMod (s : System ι Game) : Action ι Game → Prop
  | .game game => StaysLocked s.mod.game game
  | _ => True

/-- What holds behind a run on a build that is not supported. -/
structure Inert (r : Reflection) (d : Resolved) (s : System ι Game) : Prop where
  mod : Loading.Unsupported s.mod
  refusals : ∀ item response, (item, response) ∈ s.exchange.dispatched →
    Ordinary (sentinels r d) item.commandText → Refusal item.commandText response

theorem unsupported_of_stays {m m' : ModState Game} (h : Loading.Unsupported m)
    (hstays : StaysLocked m.game m'.game) (hdispatch : m'.dispatch = m.dispatch) :
  Loading.Unsupported m'
  := by
  constructor
  · rw [hdispatch]
    apply h.initialized
  · apply hstays.locked h.locked
  · rw [hstays.untouched.nativeFaulted]
    apply h.latch
  · rw [hstays.untouched.invocations]
    apply h.invocations

/-- Processing a command keeps what holds, and it refuses the command. -/
theorem Inert.step_process {s : System ι Game} (h : s.Inert r d) (hr : r.KeepsBuild)
    (hinv : s.Inv (nativeMod password engine r d).password) {item : PendingCommand}
    {rest : List PendingCommand} (hbatch : s.exchange.batch = item :: rest) :
  (s.step (nativeMod password engine r d) .process).Inert r d
  := by
  obtain ⟨hdispatched, hmod⟩ := hinv.step_process hbatch
  have hharmless : Harmless item.commandText s.mod.game (respond (nativeMod password engine r d)
      item.commandText .authenticatedRcon s.mod).2.game := by
    apply respond_harmless hr _ _ h.mod.locked
  obtain ⟨x, -, -, -, hdispatch⟩ :=
    respond_ran (nativeMod password engine r d) item.commandText .authenticatedRcon s.mod
  constructor
  · rw [hmod]
    apply unsupported_of_stays h.mod hharmless.stays hdispatch
  · rw [hdispatched]
    intro item' response hmem hordinary
    rcases List.mem_append.mp hmem with hold | hnew
    · apply h.refusals item' response hold hordinary
    · obtain ⟨rfl, rfl⟩ := Prod.mk.inj (List.mem_singleton.mp hnew)
      have hsentinels : Ordinary (nativeMod password engine r d).sentinels item'.commandText :=
        hordinary
      rw [(respond_of_ran (ran_of_ordinary hsentinels .authenticatedRcon s.mod)).1]
      apply run_dispatchCommand_of_locked engine h.mod.initialized h.mod.locked h.mod.latch

/-- A step of a run keeps what holds. -/
theorem Inert.step {s : System ι Game} (h : s.Inert r d) (hr : r.KeepsBuild)
    (hinv : s.Inv (nativeMod password engine r d).password) {a : Action ι Game}
    (ha : s.LeavesMod a) :
  (s.step (nativeMod password engine r d) a).Inert r d
  := by
  by_cases hnot : a = .process → s.exchange.batch = []
  · constructor
    · by_cases hgame : ∀ game, a ≠ .game game
      · rw [step_mod (nativeMod password engine r d) hgame hnot]
        apply h.mod
      · rw [not_forall] at hgame
        obtain ⟨game, hgame⟩ := hgame
        obtain rfl := not_not.mp hgame
        have hstays : StaysLocked s.mod.game
            (s.step (nativeMod password engine r d) (.game game)).mod.game := ha
        apply unsupported_of_stays h.mod hstays
        rfl
    · rcases hinv.dispatched_cases a with hsame | ⟨hprocess, item, rest, hbatch, -⟩
      · rw [hsame]
        apply h.refusals
      · rw [hnot hprocess] at hbatch
        cases hbatch
  · rw [Classical.not_imp] at hnot
    obtain ⟨rfl, hbatch⟩ := hnot
    obtain ⟨item, rest, hcons⟩ := List.exists_cons_of_ne_nil hbatch
    apply h.step_process hr hinv hcons

/-- A run in which the game leaves the mod alone is inert. -/
theorem inert_run (hr : r.KeepsBuild) {m : ModState Game} (hm : Loading.Unsupported m)
    {actions : List (Action ι Game)}
    (hactions : Transition.Along (System.step (nativeMod password engine r d)) LeavesMod
      { mod := m } actions) :
  (System.run (nativeMod password engine r d) m actions).Inert r d
  := by
  have hboth : (System.run (nativeMod password engine r d) m actions).Inert r d
      ∧ (System.run (nativeMod password engine r d) m actions).Inv
        (nativeMod password engine r d).password := by
    apply Transition.run_invariant_of_along
      (P := fun s : System ι Game => s.Inert r d ∧ s.Inv (nativeMod password engine r d).password) _ _
      hactions
    · rintro s a ha ⟨hinert, hinv⟩
      use hinert.step hr hinv ha
      apply hinv.step
    · constructor
      · use hm
        rintro item response ⟨⟩
      · apply System.inv_run (nativeMod password engine r d) m []
  apply hboth.1

/-- When the mod listens on a build that does not match, start-up has not written to the game, and
in every run behind it no handler is called, every command that would need one is refused, and
processing a command leaves the game as it is, unless it is one of the two diagnostics that call
functions at fixed addresses. -/
theorem unsupported_inert (engine : Engine) (hr : r.KeepsBuild) (detours : Detours)
    (file : Option Bytes) (w : World) {config : Config}
    (hlistening : (Loading.loaded detours file w).listening = some config)
    (hbuild : Loading.buildMatches w = false) (actions : List (Action ι Game))
    (hactions : Transition.Along
      (System.step (nativeMod config.password engine r (Loading.loaded detours file w).resolved))
      LeavesMod { mod := (Loading.loaded detours file w).mod } actions) :
  let l := Loading.loaded detours file w
  let mod := nativeMod config.password engine r l.resolved
  let s := System.run mod l.mod actions
  l.world.memory = w.memory ∧
    s.mod.game.invocations = [] ∧
    (∀ item response, (item, response) ∈ s.exchange.dispatched →
      Ordinary mod.sentinels item.commandText → Refusal item.commandText response) ∧
    ∀ front item, front ++ [.process] <+: actions →
      (System.run mod l.mod front).exchange.batch.head? = some item →
      item.commandText ∉ resolverSentinels →
      (System.run mod l.mod (front ++ [.process])).mod.game = (System.run mod l.mod front).mod.game
  := by
  intro l mod s
  obtain ⟨hunsupported, hmemory⟩ := Loading.unsupported_loaded hlistening hbuild
  have hinert := inert_run hr hunsupported hactions
  use hmemory, hinert.mod.invocations, hinert.refusals
  intro front item hfront hhead hresolver
  obtain ⟨back, rfl⟩ := hfront
  rw [List.append_assoc, Transition.along_append] at hactions
  have hbefore := inert_run hr hunsupported hactions.1
  have hinv : (System.run mod l.mod front).Inv mod.password := System.inv_run mod l.mod front
  obtain ⟨rest, hbatch⟩ := List.head?_eq_some_iff.mp hhead
  have hrun : System.run mod l.mod (front ++ [.process])
      = (System.run mod l.mod front).step mod .process := by
    rw [System.run, Transition.run_append]
    rfl
  rw [hrun, (hinv.step_process hbatch).2]
  apply (respond_harmless hr item.commandText .authenticatedRcon hbefore.mod.locked).same hresolver

end System

/-- A process where every object is found, and no memory can be read. -/
def otherBuild : World where
  staticFindObject := fun _ => 1

def otherLoaded : Loading :=
  Loading.loaded Loading.jump (some (ascii "password=secret")) otherBuild

/-- The client that executes a command meets the refusal. -/
theorem System.unsupported_inert_executingClient :
  (System.run (nativeMod (ascii "secret") (NativeRequest.spawn (some true)).engine nullReflection
      otherLoaded.resolved) otherLoaded.mod executingClient).exchange.dispatched.map Prod.snd
    = [dispatcherDisabled] ∧
  (System.run (nativeMod (ascii "secret") (NativeRequest.spawn (some true)).engine nullReflection
      otherLoaded.resolved) otherLoaded.mod executingClient).mod.game.invocations = []
  := by
  constructor
  · decide +kernel
  · have hconfig : otherLoaded.listening = some { password := ascii "secret" } := by
      decide +kernel
    obtain ⟨-, hinvocations, -⟩ := System.unsupported_inert (NativeRequest.spawn (some true)).engine
      (r := nullReflection) ⟨fun _ => rfl, fun _ _ => rfl⟩ Loading.jump
      (some (ascii "password=secret")) otherBuild hconfig (by decide +kernel) executingClient
      (by simp [executingClient, Transition.Along, System.LeavesMod])
    apply hinvocations

end OpenScumRcon
