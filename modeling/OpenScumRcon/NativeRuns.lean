import OpenScumRcon.Diagnostics
import OpenScumRcon.DispatchEffect
import OpenScumRcon.ExecutionGate
import OpenScumRcon.Guarantees
import OpenScumRcon.Routing
import OpenScumRcon.VerifiedGodmode

/-!
# Native calls over runs of the system

The game records the calls of its native handlers. In a run of the whole system, with the
commands acting on the game and nothing else calling handlers, every call in the record has been
made by the game thread for a command of its own, which a client has sent behind the packet that
authenticates it, and which asks for this call.
-/

namespace OpenScumRcon

/-- The mod as it acts on the game. -/
def nativeMod (password : Bytes) (engine : Engine) (r : Reflection) (d : Resolved) :
    Mod Game where
  password
  routes := nativeRoutes engine
  sentinels := sentinels r d

/-! ### One command -/

/-- The handler has been called for a text that asks for it, once everything has been checked. -/
inductive Warranted (engine : Engine) (text : Bytes) (s s' : Game) (reply : Bytes) : Prop where
  | command (target : Target)
      (action : (parseDispatchRequest text).action = .execute)
      (enabled : Enabled s)
      (selects : Selects engine s.world (parseDispatchRequest text) target)
      (invoked : Invoked engine s.world target s s' (.ok reply)) :
      Warranted engine text s s' reply
  | godmode (player : Godmode.Player)
      (action : (Godmode.parse text).action = .execute)
      (called : Godmode.Called engine (Godmode.parse text) s s' player reply)
      (latch : s'.nativeFaulted = s.nativeFaulted) :
      Warranted engine text s s' reply

/-- The code calls no handler, or one that the text asks for. -/
def Accountable (engine : Engine) (text : Bytes) (x : GameM Game Bytes) : Prop :=
  ∀ s, ∃ result s', x.run.run s = (result, s') ∧
    (Untouched s s' ∨ ∃ reply, result = .ok reply ∧ Warranted engine text s s' reply)

variable {engine : Engine} {text : Bytes}

theorem accountable_of_keeps {x : GameM Game Bytes} (h : GameM.Keeps Untouched x) :
  Accountable engine text x
  := by
  intro s
  refine ⟨_, _, rfl, ?_⟩
  left
  apply h.related

/-! ### The sentinels -/

theorem keeps_readReply (f : World → Bytes) :
  GameM.Keeps Untouched (readReply f)
  := by
  apply GameM.keeps_bind GameM.keeps_get
  intro s
  apply GameM.keeps_pure

theorem keeps_callContextResolverAndDump (r : Reflection) :
  GameM.Keeps Untouched (callContextResolverAndDump r)
  := ⟨fun _ => ⟨rfl, rfl⟩⟩

theorem keeps_callExecutorResolverAndDump (r : Reflection) :
  GameM.Keeps Untouched (callExecutorResolverAndDump r)
  := by
  constructor
  intro s
  rw [callExecutorResolverAndDump, GameM.run_bind, GameM.run_get]
  dsimp only
  split
  · exact ⟨rfl, rfl⟩
  · exact ⟨rfl, rfl⟩

/-- The functions behind the sentinels call no handler. -/
theorem keeps_sentinels {r : Reflection} {d : Resolved} {f : GameM Game Bytes}
    (h : (text, f) ∈ (sentinels r d).calls) :
  GameM.Keeps Untouched f
  := by
  simp only [Sentinels.calls, sentinels, List.mem_cons, Prod.mk.injEq, List.not_mem_nil,
    or_false] at h
  rcases h with ⟨-, rfl⟩ | ⟨-, rfl⟩ | ⟨-, rfl⟩ | ⟨-, rfl⟩ | ⟨-, rfl⟩ | ⟨-, rfl⟩ | ⟨-, rfl⟩ |
    ⟨-, rfl⟩ | ⟨-, rfl⟩ | ⟨-, rfl⟩
  · apply keeps_readReply
  · apply keeps_readReply
  · apply keeps_readReply
  · apply keeps_readReply
  · apply keeps_readReply
  · apply keeps_readReply
  · apply keeps_readReply
  · apply keeps_callContextResolverAndDump
  · apply keeps_callExecutorResolverAndDump
  · apply keeps_readReply

/-! ### The GodMode route -/

/-- The latch is as it was. -/
def SameLatch (s s' : Game) : Prop :=
  s'.nativeFaulted = s.nativeFaulted

instance : Std.Refl SameLatch :=
  ⟨fun _ => rfl⟩

instance : IsTrans Game SameLatch :=
  ⟨fun _ _ _ h h' => h'.trans h⟩

namespace Godmode

theorem keeps_callHandler (engine : Engine) (request : Request) (player : Player) (object : ℕ) :
  GameM.Keeps SameLatch (callHandler engine request player object)
  := by
  constructor
  intro s
  rw [callHandler, GameM.run_bind, GameM.run_get]
  dsimp only
  split
  · rfl
  · rfl

theorem keeps_diagnosticOf (engine : Engine) (request : Request) (player : Player) :
  GameM.Keeps SameLatch (diagnosticOf engine request player)
  := by
  constructor
  intro s
  rw [diagnosticOf]
  split
  · rfl
  · rfl

/-- Constructing the godmode handler leaves the latch as it is. -/
theorem keeps_construct (engine : Engine) (request : Request) (player : Player) (cls : ℕ)
    (before : Bytes) :
  GameM.Keeps SameLatch (construct engine request player cls before)
  := by
  apply GameM.keeps_bind (keeps_diagnosticOf engine request player)
  intro diagnostic
  constructor
  intro s
  rw [GameM.run_bind, GameM.run_get]
  dsimp only
  rw [GameM.run_bind, GameM.run_set]
  dsimp only
  split
  · rfl
  split
  · rfl
  · have hcall := (keeps_callHandler engine request player
      (engine.newObject s.world player.controller cls).1).related
      { s with world := (engine.newObject s.world player.controller cls).2 }
    apply hcall

theorem keeps_act (engine : Engine) (request : Request) :
  GameM.Keeps SameLatch (act engine request)
  := by
  apply GameM.keeps_bind GameM.keeps_get
  intro s
  dsimp only
  split
  · apply GameM.keeps_pure
  split
  · apply GameM.keeps_pure
  split
  · apply GameM.keeps_pure
  split
  · apply GameM.keeps_pure
  split
  · apply GameM.keeps_pure
  · apply keeps_construct

/-- The route declines a request, or calls the handler for it. -/
theorem accountable_dispatch (engine : Engine) (text : Bytes) (s : Game)
    (hunrelated : (parse text).action ≠ .unrelated) :
  ∃ reply s', (Godmode.dispatch (nativeRoutes engine) text .authenticatedRcon).run.run s
      = (.ok (some reply), s') ∧
    (Untouched s s' ∨ Warranted engine text s s' reply)
  := by
  rw [dispatch, if_neg hunrelated, isRconAuthorized_iff.mpr rfl, Bool.not_true,
    if_neg Bool.false_ne_true]
  split
  · exact ⟨usage, s, rfl, .inl ⟨rfl, rfl⟩⟩
  next hinvalid =>
  have hroute : (nativeRoutes engine).godmode (parse text) = act engine (parse text) := rfl
  have hlatch := (keeps_act engine (parse text)).related s
  obtain ⟨reply, s', hrun, hcases⟩ := run_act engine (parse text) s
  rw [hrun] at hlatch
  rw [map_eq_pure_bind, GameM.run_bind, hroute, hrun]
  refine ⟨reply, s', rfl, ?_⟩
  rcases hcases with hdeclined | ⟨player, hcalled⟩
  · left
    exact ⟨hdeclined.invocations, hlatch⟩
  · right
    obtain ⟨hstate, hprepare⟩ := hcalled.admitted.action
    apply Warranted.godmode player _ hcalled hlatch
    cases haction : (parse text).action with
    | execute => rfl
    | unrelated => cases hunrelated haction
    | invalid => cases hinvalid haction
    | state => cases hstate haction
    | prepare => cases hprepare haction

end Godmode

/-! ### The generic route -/

/-- Every call of the registry has passed its checks. -/
theorem Registry.accountable_dispatch (engine : Engine) (text : Bytes) :
  Accountable engine text (Registry.dispatch (nativeRoutes engine) text .authenticatedRcon)
  := by
  by_cases haction : (parseDispatchRequest text).action = .execute
  · intro s
    obtain ⟨steamId, verb, arguments, hexec⟩ := exists_execRequest haction
    have hlength : (parseDispatchRequest text).arguments.length < 2 ^ 31 := by
      have hle := hexec.tokens_length_le
      rw [hexec.parse_eq]
      dsimp only
      omega
    obtain ⟨result, s', hrun, hcases⟩ := run_execute engine s hlength
    have hdispatch : Registry.dispatch (nativeRoutes engine) text .authenticatedRcon
        = execute engine (parseDispatchRequest text) := by
      rw [Registry.dispatch, isRconAuthorized_iff.mpr rfl, Bool.not_true,
        if_neg Bool.false_ne_true]
      dsimp only
      rw [haction]
      rfl
    rw [hdispatch]
    use result, s', hrun
    rcases hcases with ⟨huntouched, -⟩ | ⟨target, henabled, hselects, hinvoked⟩
    · left
      apply huntouched
    · obtain ⟨reply, rfl, -⟩ := hinvoked.reply
      right
      exact ⟨reply, rfl, .command target haction henabled hselects hinvoked⟩
  · apply accountable_of_keeps
    apply keeps_dispatch engine haction

/-! ### The dispatcher -/

/-- Every call of a routed command has passed its checks. -/
theorem accountable_dispatchCommand (engine : Engine) (d : AdminDispatch) (text : Bytes) :
  Accountable engine text (dispatchCommand (nativeRoutes engine) d text .authenticatedRcon)
  := by
  intro s
  rw [dispatchCommand, isRconAuthorized_iff.mpr rfl, Bool.not_true, if_neg Bool.false_ne_true]
  split
  · exact ⟨.ok notInitialized, s, rfl, .inl ⟨rfl, rfl⟩⟩
  by_cases hunrelated : (Godmode.parse text).action = .unrelated
  · rw [Godmode.dispatch_of_unrelated _ _ hunrelated, pure_bind]
    apply Registry.accountable_dispatch
  · obtain ⟨reply, s', hrun, hcases⟩ := Godmode.accountable_dispatch engine text s hunrelated
    rw [GameM.run_bind, hrun]
    refine ⟨.ok reply, s', rfl, ?_⟩
    rcases hcases with huntouched | hwarranted
    · left
      apply huntouched
    · right
      exact ⟨reply, rfl, hwarranted⟩

/-- What a command does to the record of calls: nothing, or the call that it asks for. -/
theorem respond_accountable (password : Bytes) (engine : Engine) (r : Reflection) (d : Resolved)
    (text : Bytes) (m : ModState Game) :
  Untouched m.game (respond (nativeMod password engine r d) text .authenticatedRcon m).2.game ∨
    Warranted engine text m.game
      (respond (nativeMod password engine r d) text .authenticatedRcon m).2.game
      (respond (nativeMod password engine r d) text .authenticatedRcon m).1
  := by
  obtain ⟨x, hx, hresponse, hgame, -⟩ :=
    respond_ran (nativeMod password engine r d) text .authenticatedRcon m
  have haccountable : Accountable engine text x := by
    cases hx with
    | sentinel h => apply accountable_of_keeps (keeps_sentinels h)
    | fixed h => apply accountable_of_keeps (GameM.keeps_pure _)
    | dispatch h => apply accountable_dispatchCommand
  obtain ⟨result, s', hrun, hcases⟩ := haccountable m.game
  rw [hrun] at hresponse hgame
  rw [hresponse, hgame]
  rcases hcases with huntouched | ⟨reply, rfl, hwarranted⟩
  · left
    apply huntouched
  · right
    apply hwarranted

/-! ### One step of the system -/

namespace System

variable {ι : Type} [DecidableEq ι] {s : System ι Game}

/-- Outside of the commands no handler is called, and only the transport has authority. -/
def CallsNothing (s : System ι Game) : Action ι Game → Prop
  | .game game => Untouched s.mod.game game
  | .foreign _ authority => authority ≠ .authenticatedRcon
  | _ => True

omit [DecidableEq ι] in
theorem CallsNothing.unprivileged {a : Action ι Game} (ha : s.CallsNothing a) :
  a.Unprivileged
  := by
  cases a with
  | foreign commandText authority => apply ha
  | _ => trivial

/-- Only commands and the game itself change what the mod acts on. -/
theorem step_mod (mod : Mod Game) {a : Action ι Game} (hgame : ∀ game, a ≠ .game game)
    (hnot : a = .process → s.exchange.batch = []) :
  (s.step mod a).mod = s.mod
  := by
  cases a with
  | accept w sock =>
      rw [step, accept]
      split <;> rfl
  | advance w => apply handle_mod
  | enqueue w => apply handle_mod
  | ready w => apply handle_mod
  | timeout w => apply handle_mod
  | foreign commandText authority => rfl
  | drain => rfl
  | process => rw [step, Exchange.process_of_nil mod s.mod (hnot rfl)]
  | game game => cases hgame game rfl

/-- Without a command there is no call. -/
theorem step_untouched (mod : Mod Game) {a : Action ι Game} (ha : s.CallsNothing a)
    (hnot : a = .process → s.exchange.batch = []) :
  Untouched s.mod.game (s.step mod a).mod.game
  := by
  by_cases hgame : ∀ game, a ≠ .game game
  · rw [step_mod mod hgame hnot]
    exact ⟨rfl, rfl⟩
  · rw [not_forall] at hgame
    obtain ⟨game, hgame⟩ := hgame
    obtain rfl := not_not.mp hgame
    apply ha

/-- Processing an item dispatches it, with the response to its text. -/
theorem Inv.step_process {mod : Mod Game} (h : s.Inv mod.password) {item : PendingCommand}
    {rest : List PendingCommand} (hbatch : s.exchange.batch = item :: rest) :
  (s.step mod .process).exchange.dispatched = s.exchange.dispatched
      ++ [(item, (respond mod item.commandText .authenticatedRcon s.mod).1)] ∧
    (s.step mod .process).mod = (respond mod item.commandText .authenticatedRcon s.mod).2
  := by
  have hmem : item ∈ s.exchange.handoff.submitted := by
    rw [h.exchange.accounted.order]
    simp [Exchange.handoff, hbatch]
  have hauthority := h.exchange.authority item hmem
  rw [System.step, Exchange.process_of_cons h.exchange mod s.mod hbatch, hauthority]
  constructor
  · dsimp only
    rw [Exchange.complete_eq h.exchange hbatch]
  · rfl

/-- The history of what has been dispatched stays as it is, or a command is processed. -/
theorem Inv.dispatched_cases {mod : Mod Game} (h : s.Inv mod.password) (a : Action ι Game) :
  (s.step mod a).exchange.dispatched = s.exchange.dispatched ∨
  a = .process ∧ ∃ item rest, s.exchange.batch = item :: rest ∧
    (s.step mod .process).exchange.dispatched = s.exchange.dispatched
      ++ [(item, (respond mod item.commandText .authenticatedRcon s.mod).1)]
  := by
  have hstep := exchangeStep mod s a
  generalize hx : (s.step mod a).exchange = x at hstep
  cases hstep with
  | same =>
      left
      rfl
  | packet _ c packet =>
      left
      rw [Exchange.enqueue_of_authorized]
  | foreign commandText authority =>
      left
      by_cases hauthority : authority = .authenticatedRcon
      · rw [hauthority, Exchange.enqueue_of_authorized]
      · rw [Exchange.enqueue_of_unauthorized h.exchange _ hauthority]
  | drain =>
      left
      rw [(s.exchange.drain_history).2]
  | process =>
      rcases hbatch : s.exchange.batch with _ | ⟨item, rest⟩
      · left
        rw [Exchange.process_of_nil mod s.mod hbatch]
      · right
        exact ⟨rfl, item, rest, rfl, (h.step_process hbatch).1⟩

/-- The history of what has been dispatched only grows. -/
theorem Inv.isPrefix_dispatched {mod : Mod Game} (h : s.Inv mod.password) (a : Action ι Game) :
  s.exchange.dispatched <+: (s.step mod a).exchange.dispatched
  := by
  rcases h.dispatched_cases a with hsame | ⟨rfl, item, rest, -, hdispatched⟩
  · rw [hsame]
  · rw [hdispatched]
    apply List.prefix_append

end System

/-! ### The record -/

/-- A call in the record, with the command it has been made for, the response to that, and the
game before and after. -/
structure NativeCall where
  invocation : Invocation
  item : PendingCommand
  response : Bytes
  before : Game
  after : Game

section

variable {ι : Type} [DecidableEq ι]

/-- A step of the game thread in the run has processed the command and made the call, and no
other. A command is executed only if no handler has raised an exception before. -/
structure NativeCall.Made (mod : Mod Game) (engine : Engine) (m : ModState Game)
    (actions : List (Action ι Game)) (call : NativeCall) : Prop where
  step : ∃ front, front ++ [.process] <+: actions ∧
    (System.run mod m front).exchange.batch.head? = some call.item ∧
    call.before = (System.run mod m front).mod.game ∧
    call.after = (System.run mod m (front ++ [.process])).mod.game
  invocations : call.after.invocations = call.before.invocations ++ [call.invocation]
  warranted : Warranted engine call.item.commandText call.before call.after call.response
  latch : (parseDispatchRequest call.item.commandText).action = .execute →
    ∀ earlier ∈ call.before.invocations, earlier.raised = false

theorem NativeCall.Made.mono {mod : Mod Game} {engine : Engine} {m : ModState Game}
    {actions actions' : List (Action ι Game)} {call : NativeCall}
    (h : call.Made mod engine m actions) (hsub : actions <+: actions') :
  call.Made mod engine m actions'
  := by
  obtain ⟨front, hfront, hstep⟩ := h.step
  exact ⟨⟨front, hfront.trans hsub, hstep⟩, h.invocations, h.warranted, h.latch⟩

/-- The calls behind the record after a run. -/
structure NativeCalls (mod : Mod Game) (engine : Engine) (m : ModState Game)
    (actions : List (Action ι Game)) (calls : List NativeCall) : Prop where
  invocations : calls.map NativeCall.invocation
    = (System.run mod m actions).mod.game.invocations
  dispatched : (calls.map fun call => (call.item, call.response)).Sublist
    (System.run mod m actions).exchange.dispatched
  made : ∀ call ∈ calls, call.Made mod engine m actions
  latch : (System.run mod m actions).mod.game.nativeFaulted
    = (System.run mod m actions).mod.game.invocations.any Invocation.raised

variable {engine : Engine} {mod : Mod Game} {m : ModState Game} {front : List (Action ι Game)}
  {calls : List NativeCall}

/-- A step that makes no call. -/
theorem NativeCalls.concat_of_untouched (h : NativeCalls mod engine m front calls)
    {a : Action ι Game}
    (huntouched : Untouched (System.run mod m front).mod.game
      (System.run mod m (front ++ [a])).mod.game)
    (hdispatched : (System.run mod m front).exchange.dispatched
      <+: (System.run mod m (front ++ [a])).exchange.dispatched) :
  NativeCalls mod engine m (front ++ [a]) calls
  := by
  constructor
  · rw [huntouched.invocations, h.invocations]
  · apply h.dispatched.trans hdispatched.sublist
  · intro call hcall
    apply (h.made call hcall).mono (List.prefix_append front [a])
  · rw [huntouched.nativeFaulted, huntouched.invocations, h.latch]

/-- The record after a call, and the latch. -/
theorem Warranted.exists_invocation {text reply : Bytes} {s s' : Game}
    (h : Warranted engine text s s' reply) :
  ∃ invocation, s'.invocations = s.invocations ++ [invocation] ∧
    s'.nativeFaulted = (s.nativeFaulted || invocation.raised) ∧
    ((parseDispatchRequest text).action = .execute → s.nativeFaulted = false)
  := by
  cases h with
  | command target action enabled selects invoked =>
      exact ⟨_, invoked.invocations, invoked.nativeFaulted, fun _ => enabled.latch⟩
  | godmode player action called latch =>
      refine ⟨_, called.invocations, ?_, ?_⟩
      · rw [latch, Bool.or_false]
      · intro hexecute
        have hunrelated : (Godmode.parse text).action = .unrelated := by
          apply unrelated_of_acts
          rw [hexecute]
          decide
        rw [action] at hunrelated
        cases hunrelated

/-- A step that makes a call for the item it processes. -/
theorem NativeCalls.concat_of_warranted (h : NativeCalls mod engine m front calls)
    {item : PendingCommand} {response : Bytes}
    (hitem : (System.run mod m front).exchange.batch.head? = some item)
    (hwarranted : Warranted engine item.commandText (System.run mod m front).mod.game
      (System.run mod m (front ++ [.process])).mod.game response)
    (hdispatched : (System.run mod m (front ++ [.process])).exchange.dispatched
      = (System.run mod m front).exchange.dispatched ++ [(item, response)]) :
  ∃ call, NativeCalls mod engine m (front ++ [.process]) (calls ++ [call])
  := by
  obtain ⟨invocation, hinvocations, hlatch, hexecute⟩ := hwarranted.exists_invocation
  use ⟨invocation, item, response, (System.run mod m front).mod.game,
    (System.run mod m (front ++ [.process])).mod.game⟩
  constructor
  · rw [hinvocations, List.map_append, h.invocations]
    rfl
  · rw [hdispatched, List.map_append]
    apply h.dispatched.append (List.Sublist.refl _)
  · rw [List.forall_mem_append, List.forall_mem_singleton]
    constructor
    · intro call hcall
      apply (h.made call hcall).mono (List.prefix_append front _)
    · refine ⟨⟨front, List.prefix_rfl, hitem, rfl, rfl⟩, hinvocations, hwarranted, ?_⟩
      intro haction
      have hnone := hexecute haction
      rw [h.latch, List.any_eq_false] at hnone
      intro earlier hearlier
      rw [← Bool.not_eq_true]
      apply hnone earlier hearlier
  · rw [hlatch, hinvocations, h.latch, List.any_append, List.any_cons, List.any_nil,
      Bool.or_false]

/-- One more step keeps the calls behind the record. -/
theorem NativeCalls.concat {password : Bytes} {r : Reflection} {d : Resolved}
    (h : NativeCalls (nativeMod password engine r d) engine m front calls) (a : Action ι Game)
    (ha : (System.run (nativeMod password engine r d) m front).CallsNothing a) :
  ∃ calls', NativeCalls (nativeMod password engine r d) engine m (front ++ [a]) calls'
  := by
  have hinv := System.inv_run (nativeMod password engine r d) m front
  have hrun : System.run (nativeMod password engine r d) m (front ++ [a])
      = (System.run (nativeMod password engine r d) m front).step
        (nativeMod password engine r d) a := by
    rw [System.run, Transition.run_append]
    rfl
  have hprefix := hinv.isPrefix_dispatched a
  rw [← hrun] at hprefix
  by_cases hnot : a = .process →
      (System.run (nativeMod password engine r d) m front).exchange.batch = []
  · use calls
    have huntouched := System.step_untouched (nativeMod password engine r d) ha hnot
    rw [← hrun] at huntouched
    apply h.concat_of_untouched huntouched hprefix
  · rw [Classical.not_imp] at hnot
    obtain ⟨rfl, hbatch⟩ := hnot
    obtain ⟨item, rest, hcons⟩ := List.exists_cons_of_ne_nil hbatch
    obtain ⟨hdispatched, hmod⟩ := hinv.step_process hcons
    rw [← hrun] at hdispatched hmod
    have haccountable := respond_accountable password engine r d item.commandText
      (System.run (nativeMod password engine r d) m front).mod
    rw [← hmod] at haccountable
    rcases haccountable with huntouched | hwarranted
    · use calls
      apply h.concat_of_untouched huntouched hprefix
    · have hhead : (System.run (nativeMod password engine r d) m front).exchange.batch.head?
          = some item := by
        rw [hcons, List.head?_cons]
      obtain ⟨call, hcalls⟩ := h.concat_of_warranted hhead hwarranted hdispatched
      use calls ++ [call]

/-- In every run of the system in which nothing but commands calls handlers and only the
transport has authority, the record of native calls is accounted for by dispatched commands, in
order and each for one call: a step of the game thread has processed the command, which asks for
the call and had passed all checks in the game of that moment, and no exception had been raised
before if it executes a command of the registry. The command is the payload of a command packet
behind the packet that authenticates a client. -/
theorem System.native_calls (password : Bytes) (engine : Engine) (r : Reflection) (d : Resolved)
    (m : ModState Game) (hrecord : m.game.invocations = [])
    (hlatch : m.game.nativeFaulted = false) (actions : List (Action ι Game))
    (hactions : Transition.Along (System.step (nativeMod password engine r d))
      System.CallsNothing { mod := m } actions) :
  let mod := nativeMod password engine r d
  let s := System.run mod m actions
  ∃ calls : List NativeCall,
    calls.map NativeCall.invocation = s.mod.game.invocations ∧
    (calls.map fun call => (call.item, call.response)).Sublist s.exchange.dispatched ∧
    (calls.map fun call => call.item.response).Nodup ∧
    ∀ call ∈ calls, call.Made mod engine m actions ∧
      ∃ c packet auth rest, (call.item, .packet c packet) ∈ s.exchange.enqueued ∧
        Authenticates password (s.connections c).stream auth rest ∧ packet ∈ rest ∧
        packet.type = Protocol.serverdataExeccommand ∧
        packet.payload = call.item.commandText
  := by
  intro mod s
  have hinv : s.Inv password := System.inv_run mod m actions
  obtain ⟨calls, hcalls⟩ : ∃ calls, NativeCalls mod engine m actions calls := by
    let P : List (Action ι Game) → System ι Game → Prop := fun actions _ =>
      ∃ calls, NativeCalls mod engine m actions calls
    apply Transition.run_history (P := P) _ _ hactions
    · use []
      refine ⟨?_, List.nil_sublist _, by simp, ?_⟩
      · exact hrecord.symm
      · exact hlatch.trans (by rw [System.run, Transition.run_nil, hrecord]; rfl)
    · rintro front a ha ⟨calls, hcalls⟩
      apply hcalls.concat a ha
  have hdispatched : ∀ call ∈ calls, call.item ∈ s.exchange.dispatched.map Prod.fst := by
    intro call hcall
    have hmem := hcalls.dispatched.subset (List.mem_map_of_mem hcall)
    apply List.mem_map_of_mem (f := Prod.fst) hmem
  have horder : s.exchange.enqueued.map Prod.fst = s.exchange.dispatched.map Prod.fst
      ++ s.exchange.batch ++ s.exchange.queue.pending := hinv.exchange.accounted.order
  use calls, hcalls.invocations, hcalls.dispatched
  constructor
  · have hnodup : ((s.exchange.enqueued.map Prod.fst).map PendingCommand.response).Nodup :=
      hinv.exchange.accounted.nodup
    rw [horder, List.append_assoc, List.map_append] at hnodup
    have hsublist := (hcalls.dispatched.map Prod.fst).map PendingCommand.response
    rw [List.map_map, List.map_map] at hsublist
    apply List.Nodup.sublist hsublist (List.Nodup.of_append_left hnodup)
  · intro call hcall
    use hcalls.made call hcall
    have hmem : call.item ∈ s.exchange.enqueued.map Prod.fst := by
      rw [horder, List.append_assoc]
      apply List.mem_append_left _ (hdispatched call hcall)
    obtain ⟨⟨item, origin⟩, he, rfl⟩ := List.mem_map.mp hmem
    have hunprivileged : ∀ a ∈ actions, a.Unprivileged :=
      Transition.forall_of_along (fun _ _ ha => ha.unprivileged) hactions
    cases origin with
    | other => exact absurd rfl (System.origin_run mod m hunprivileged _ he)
    | packet c packet =>
        obtain ⟨auth, rest, hauth, hrest, htype, hpayload⟩ := hinv.authenticates he
        exact ⟨c, packet, auth, rest, he, hauth, hrest, htype, hpayload⟩

end

/-- A process of which nothing is known, and whose functions return null. -/
def nullReflection : Reflection where
  unreachable _ _ := false
  fullName _ _ := []
  funcPtr _ _ := 0
  functionFlags _ _ := 0
  contextResolver w := (0, w)
  executorResolver w _ := (none, w)
  memory _ _ := 0
  trace _ := {}

/-- The bytes of a client that authenticates and executes a command. -/
def executingStream : Bytes :=
  Protocol.encodePacket 1 Protocol.serverdataAuth (ascii "secret")
    ++ Protocol.encodePacket 7 Protocol.serverdataExeccommand
      (ascii "!exec 76561198000000001 spawnitem \"two words\"")

def executingClient : List (Action Unit Game) :=
  [.accept () { incoming := executingStream }, .advance (), .advance (), .enqueue (), .drain,
    .process]

/-- The system after the client has executed its command. -/
def afterExecution : System Unit Game :=
  System.run (nativeMod (ascii "secret") (NativeRequest.spawn (some true)).engine nullReflection {})
    { game := { world := NativeRequest.oneCommand }, dispatch := { initialized := true } }
    executingClient

/-- A client whose command is executed with one argument of two words. -/
theorem System.native_calls_executingClient :
  (afterExecution.mod.game.invocations.map fun invocation =>
      invocation.arguments.map wideCharToMultiByte) = [[some (ascii "two words")]] ∧
  ∃ (call : NativeCall) (c : ℕ) (packet auth : Protocol.Packet) (rest : List Protocol.Packet),
    afterExecution.mod.game.invocations = [call.invocation] ∧
    (call.item, call.response) ∈ afterExecution.exchange.dispatched ∧
    Authenticates (ascii "secret") (afterExecution.connections c).stream auth rest ∧
    packet ∈ rest ∧ packet.payload = call.item.commandText
  := by
  have harguments : (afterExecution.mod.game.invocations.map fun invocation =>
      invocation.arguments.map wideCharToMultiByte) = [[some (ascii "two words")]] := by
    decide +kernel
  use harguments
  obtain ⟨calls, hinvocations, hdispatched, -, hmade⟩ :=
    System.native_calls (ascii "secret") (NativeRequest.spawn (some true)).engine nullReflection
      {} { game := { world := NativeRequest.oneCommand }, dispatch := { initialized := true } }
      rfl rfl executingClient (by simp [executingClient, Transition.Along, System.CallsNothing])
  have hlength : calls.length = 1 := by
    have hlengths := congrArg List.length hinvocations
    have hone := congrArg List.length harguments
    rw [List.length_map] at hlengths hone
    exact hlengths.trans hone
  obtain ⟨call, rfl⟩ := List.length_eq_one_iff.mp hlength
  obtain ⟨-, c, packet, auth, rest, -, hauth, hrest, -, hpayload⟩ :=
    hmade call List.mem_cons_self
  refine ⟨call, c, packet, auth, rest, hinvocations.symm, ?_, hauth, hrest, hpayload⟩
  apply hdispatched.subset
  apply List.mem_cons_self

end OpenScumRcon
