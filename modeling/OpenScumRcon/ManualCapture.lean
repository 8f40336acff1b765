import Mathlib.Data.List.Infix
import OpenScumRcon.Guarantees

/-!
# The manual capture

`!capture_start` and `!capture_stop` switch the capture of calls on and off. The flag is also
set and cleared around every dispatched command, and cleared when anything throws. So a
manual capture goes on until the first such command behind it, and the flag tells what the
last of the two sentinels was exactly as long as no such command is processed in between.
-/

namespace OpenScumRcon

open Protocol

variable {ι σ : Type}

def captureStart : Bytes := ascii "!capture_start"
def captureStop : Bytes := ascii "!capture_stop"

/-- The last of the two sentinels among the commands was the one that starts the capture. -/
def manualCapture (commands : List Bytes) : Bool :=
  commands.foldl
    (fun on text => if text = captureStart then true else if text = captureStop then false else on)
    false

/-! ### The branches of the loop body -/

/-- The sentinels that call a function of the game. -/
def Sentinels.calls (sentinels : Sentinels σ) : List (Bytes × GameM σ Bytes) :=
  [(ascii "!godmode_trace_start", sentinels.traceStart),
    (ascii "!godmode_trace_stop", sentinels.traceStop),
    (ascii "!godmode_trace_status", sentinels.traceStatus),
    (ascii "!dump_admin_permissions", sentinels.dumpAdminCommandPermissionLevels),
    (ascii "!dump_func_address", sentinels.dumpTestProcessAdminCommandAddress),
    (ascii "!dump_rpc_channel", sentinels.dumpPlayerRpcChannelInfo),
    (ascii "!dump_chat_flags", sentinels.dumpChatServerFunctionFlags),
    (ascii "!call_context_resolver", sentinels.callContextResolverAndDump),
    (ascii "!call_executor_resolver", sentinels.callExecutorResolverAndDump),
    (ascii "!dump_setgodmode_field", sentinels.dumpSetgodmodeField0x20)]

/-- The sentinels that switch the other captures. -/
def switches : List Bytes :=
  [ascii "!native_capture_start", ascii "!native_capture_stop",
    ascii "!capture_registration_start", ascii "!capture_registration_stop"]

def tryNative : Bytes := ascii "!try_native_setgodmode "

/-- The command selects no sentinel, so it is dispatched. -/
structure Ordinary (sentinels : Sentinels σ) (text : Bytes) : Prop where
  start : text ≠ captureStart
  stop : text ≠ captureStop
  calls : text ∉ sentinels.calls.map Prod.fst
  switches : text ∉ switches
  tryNative : tryNative.isPrefixOf text = false

def Throws {α : Type} (x : GameM σ α) (game : σ) : Prop :=
  ∃ thrown game', x.run.run game = (.error thrown, game')

/-- Processing the command clears the flag: it is dispatched, or a sentinel throws. -/
def Intrudes (sentinels : Sentinels σ) (text : Bytes) (game : σ) : Prop :=
  Ordinary sentinels text ∨ ∃ f, (text, f) ∈ sentinels.calls ∧ Throws f game

variable {mod : Mod σ} {text : Bytes}

/-- Neither of the two sentinels calls a function of the game. -/
theorem Sentinels.not_mem_calls (sentinels : Sentinels σ) :
  captureStart ∉ sentinels.calls.map Prod.fst ∧ captureStop ∉ sentinels.calls.map Prod.fst
  := by
  simp only [Sentinels.calls, List.map_cons, List.map_nil]
  decide

theorem Intrudes.ne {sentinels : Sentinels σ} {game : σ} (h : Intrudes sentinels text game) :
  text ≠ captureStart ∧ text ≠ captureStop
  := by
  rcases h with hordinary | ⟨f, hf, -⟩
  · exact ⟨hordinary.start, hordinary.stop⟩
  · have hmem := List.mem_map_of_mem (f := Prod.fst) hf
    constructor
    · rintro rfl
      apply sentinels.not_mem_calls.1 hmem
    · rintro rfl
      apply sentinels.not_mem_calls.2 hmem

theorem dispatchText_of_mem_calls {f : GameM σ Bytes} (h : (text, f) ∈ mod.sentinels.calls)
    (authority : CommandAuthority) :
  dispatchText mod text authority = ModM.onGame f
  := by
  simp only [Sentinels.calls, List.mem_cons, Prod.mk.injEq, List.not_mem_nil, or_false] at h
  rcases h with ⟨rfl, rfl⟩ | ⟨rfl, rfl⟩ | ⟨rfl, rfl⟩ | ⟨rfl, rfl⟩ | ⟨rfl, rfl⟩ | ⟨rfl, rfl⟩ |
    ⟨rfl, rfl⟩ | ⟨rfl, rfl⟩ | ⟨rfl, rfl⟩ | ⟨rfl, rfl⟩ <;> rfl

/-- The other switches leave the flag as it is. -/
theorem dispatchText_of_mem_switches (mod : Mod σ) (h : text ∈ switches)
    (authority : CommandAuthority) :
  ∃ (f : ModState σ → ModState σ) (reply : Bytes),
    (∀ m, (f m).capturingCalls = m.capturingCalls) ∧
    dispatchText mod text authority = (do modify f; pure reply)
  := by
  simp only [switches, List.mem_cons, List.not_mem_nil, or_false] at h
  rcases h with rfl | rfl | rfl | rfl
  · use fun m => { m with capturingNativeCalls := true }, ascii "ok: native capture started"
    exact ⟨fun _ => rfl, rfl⟩
  · use fun m => { m with capturingNativeCalls := false }, ascii "ok: native capture stopped"
    exact ⟨fun _ => rfl, rfl⟩
  · use fun m => { m with registrationLogCount := 0, capturingRegistrationCalls := true },
      ascii "ok: registration capture started"
    exact ⟨fun _ => rfl, rfl⟩
  · use fun m => { m with capturingRegistrationCalls := false },
      ascii "ok: registration capture stopped"
    exact ⟨fun _ => rfl, rfl⟩

theorem dispatchText_of_tryNative (mod : Mod σ) (h : tryNative.isPrefixOf text = true)
    (authority : CommandAuthority) :
  ∃ reply, dispatchText mod text authority = pure reply
  := by
  have hne : ∀ {s : Bytes}, tryNative.isPrefixOf s = false → text ≠ s := by
    rintro s hs rfl
    rw [h] at hs
    cases hs
  rw [tryNative] at h hne
  rw [dispatchText, if_neg (hne (by decide)), if_neg (hne (by decide)), if_neg (hne (by decide)),
    if_neg (hne (by decide)), if_neg (hne (by decide)), if_neg (hne (by decide)),
    if_neg (hne (by decide)), if_neg (hne (by decide)), if_neg (hne (by decide)),
    if_neg (hne (by decide)), if_neg (hne (by decide)), if_neg (hne (by decide)),
    if_neg (hne (by decide)), if_neg (hne (by decide)), if_neg (hne (by decide)),
    if_neg (hne (by decide)), if_pos h]
  dsimp only
  split
  · use ascii "error: usage: !try_native_setgodmode <true|false> <steamId>"
  · use ascii ("error: experimental call disabled: old address targets Immortality; "
      ++ "use observation-only !godmode_trace_start")

/-- Every other command is dispatched with the flag set, and clears it. -/
theorem dispatchText_of_ordinary (h : Ordinary mod.sentinels text)
    (authority : CommandAuthority) :
  dispatchText mod text authority = (do
    ModM.setCapturingCalls true
    let response ← ModM.onGame
      (dispatchCommand mod.routes (← get).dispatch text authority)
    ModM.setCapturingCalls false
    pure response)
  := by
  obtain ⟨hstart, hstop, hcalls, hswitches, htry⟩ := h
  simp only [Sentinels.calls, List.map_cons, List.map_nil, List.mem_cons, List.not_mem_nil,
    or_false, not_or] at hcalls
  simp only [switches, List.mem_cons, List.not_mem_nil, or_false, not_or] at hswitches
  have htry' : ¬ (ascii "!try_native_setgodmode ").isPrefixOf text = true := by
    rw [Bool.not_eq_true]
    apply htry
  rw [captureStart] at hstart
  rw [captureStop] at hstop
  simp only [dispatchText, hstart, hstop, hcalls, hswitches, htry', Bool.false_eq_true, if_false]

/-! ### The flag -/

/-- What processing a command does to the flag. -/
inductive CaptureEffect (sentinels : Sentinels σ) (text : Bytes) (m : ModState σ) : Bool → Prop
    where
  | start (htext : text = captureStart) : CaptureEffect sentinels text m true
  | stop (htext : text = captureStop) : CaptureEffect sentinels text m false
  | intrudes (hstart : text ≠ captureStart) (hstop : text ≠ captureStop)
      (h : Intrudes sentinels text m.game) : CaptureEffect sentinels text m false
  | keeps (hstart : text ≠ captureStart) (hstop : text ≠ captureStop)
      (h : ¬ Intrudes sentinels text m.game) : CaptureEffect sentinels text m m.capturingCalls

/-- Code that acts on the game alone keeps the rest of the state. -/
theorem ModM.run_onGame (x : GameM σ Bytes) (m : ModState σ) :
  (ModM.onGame x).run.run m = ((x.run.run m.game).1, { m with game := (x.run.run m.game).2 })
  := rfl

theorem respond_of_ok {authority : CommandAuthority} {m m' : ModState σ} {response : Bytes}
    (h : (dispatchText mod text authority).run.run m = (.ok response, m')) :
  respond mod text authority m = (response, m')
  := by
  rw [respond, h]

theorem respond_of_error {authority : CommandAuthority} {m m' : ModState σ} {thrown : Thrown}
    (h : (dispatchText mod text authority).run.run m = (.error thrown, m')) :
  (respond mod text authority m).2 = { m' with capturingCalls := false }
  := by
  rw [respond, h]
  cases thrown with
  | exception what => rfl
  | unknown => rfl

/-- What a sentinel does to the flag. -/
theorem captureEffect_of_mem_calls {f : GameM σ Bytes} (hf : (text, f) ∈ mod.sentinels.calls)
    (hstart : text ≠ captureStart) (hstop : text ≠ captureStop) (authority : CommandAuthority)
    (m : ModState σ) :
  CaptureEffect mod.sentinels text m (respond mod text authority m).2.capturingCalls
  := by
  have hrun : ∀ g, (text, g) ∈ mod.sentinels.calls →
      (dispatchText mod text authority).run.run m
        = ((g.run.run m.game).1, { m with game := (g.run.run m.game).2 }) := by
    intro g hg
    rw [dispatchText_of_mem_calls hg, ModM.run_onGame]
  rcases hresult : f.run.run m.game with ⟨thrown | reply, game⟩
  · have hf' := hrun f hf
    rw [hresult] at hf'
    rw [respond_of_error hf']
    apply CaptureEffect.intrudes hstart hstop
    right
    use f, hf, thrown, game
  · have hf' := hrun f hf
    rw [hresult] at hf'
    rw [respond_of_ok hf']
    apply CaptureEffect.keeps hstart hstop
    rintro (hordinary | ⟨g, hg, thrown, game', hthrows⟩)
    · apply hordinary.calls (List.mem_map_of_mem (f := Prod.fst) hf)
    · have hg' := hrun g hg
      rw [hf', hthrows] at hg'
      cases hg'

/-- A command that is neither dispatched nor calls a function of the game keeps the flag. -/
theorem captureEffect_of_not_mem_calls (hcalls : text ∉ mod.sentinels.calls.map Prod.fst)
    (hordinary : ¬ Ordinary mod.sentinels text)
    (hstart : text ≠ captureStart) (hstop : text ≠ captureStop) (authority : CommandAuthority)
    (m : ModState σ) :
  CaptureEffect mod.sentinels text m (respond mod text authority m).2.capturingCalls
  := by
  have hnot : ¬ Intrudes mod.sentinels text m.game := by
    rintro (h | ⟨f, hf, -⟩)
    · apply hordinary h
    · apply hcalls (List.mem_map_of_mem (f := Prod.fst) hf)
  by_cases hswitches : text ∈ switches
  · obtain ⟨f, reply, hkeep, hdispatch⟩ := dispatchText_of_mem_switches mod hswitches authority
    have hrun : (dispatchText mod text authority).run.run m = (.ok reply, f m) := by
      rw [hdispatch]
      rfl
    rw [respond_of_ok hrun]
    dsimp only
    rw [hkeep]
    apply CaptureEffect.keeps hstart hstop hnot
  by_cases htry : tryNative.isPrefixOf text = true
  · obtain ⟨reply, hdispatch⟩ := dispatchText_of_tryNative mod htry authority
    have hrun : (dispatchText mod text authority).run.run m = (.ok reply, m) := by
      rw [hdispatch]
      rfl
    rw [respond_of_ok hrun]
    apply CaptureEffect.keeps hstart hstop hnot
  rw [Bool.not_eq_true] at htry
  apply absurd _ hordinary
  exact ⟨hstart, hstop, hcalls, hswitches, htry⟩

theorem captureEffect_of_ordinary (h : Ordinary mod.sentinels text) (authority : CommandAuthority)
    (m : ModState σ) :
  CaptureEffect mod.sentinels text m (respond mod text authority m).2.capturingCalls
  := by
  have hdispatch := dispatchText_of_ordinary h authority
  have hclear : (respond mod text authority m).2.capturingCalls = false := by
    rcases hresult : (dispatchCommand mod.routes m.dispatch text authority).run.run m.game
      with ⟨thrown | reply, game⟩
    · have hrun : (dispatchText mod text authority).run.run m
          = (.error thrown, { m with capturingCalls := true, game }) := by
        rw [hdispatch]
        simp only [GameM.run_bind, GameM.run_modify, GameM.run_get, ModM.setCapturingCalls,
          ModM.run_onGame, hresult]
      rw [respond_of_error hrun]
    · have hrun : (dispatchText mod text authority).run.run m
          = (.ok reply, { m with capturingCalls := false, game }) := by
        rw [hdispatch]
        simp only [GameM.run_bind, GameM.run_modify, GameM.run_get, GameM.run_pure,
          ModM.setCapturingCalls, ModM.run_onGame, hresult]
      rw [respond_of_ok hrun]
  rw [hclear]
  apply CaptureEffect.intrudes h.start h.stop (.inl h)

/-- Every command has one of the effects on the flag. -/
theorem captureEffect (mod : Mod σ) (text : Bytes) (authority : CommandAuthority)
    (m : ModState σ) :
  CaptureEffect mod.sentinels text m (respond mod text authority m).2.capturingCalls
  := by
  by_cases hstart : text = captureStart
  · obtain rfl := hstart
    apply CaptureEffect.start rfl
  by_cases hstop : text = captureStop
  · obtain rfl := hstop
    apply CaptureEffect.stop rfl
  by_cases hordinary : Ordinary mod.sentinels text
  · apply captureEffect_of_ordinary hordinary
  by_cases hcalls : text ∈ mod.sentinels.calls.map Prod.fst
  · obtain ⟨⟨_, f⟩, hf, rfl⟩ := List.mem_map.mp hcalls
    apply captureEffect_of_mem_calls hf hstart hstop
  · apply captureEffect_of_not_mem_calls hcalls hordinary hstart hstop

/-! ### Runs -/

/-- The commands dispatched so far. -/
def Exchange.processed (x : Exchange Origin) : List Bytes :=
  x.dispatched.map fun d => d.1.commandText

/-- The flag tells whether the manual capture is on. -/
def System.FollowsManual (s : System ι σ) : Prop :=
  s.mod.capturingCalls = manualCapture s.exchange.processed

/-- The step does not process a command that clears the flag while the manual capture is on. -/
def System.Undisturbed (sentinels : Sentinels σ) (s : System ι σ) (a : Action ι σ) : Prop :=
  a = .process → ∀ item rest, s.exchange.batch = item :: rest →
    manualCapture s.exchange.processed = true →
    ¬ Intrudes sentinels item.commandText s.mod.game

theorem manualCapture_append (commands : List Bytes) (text : Bytes) :
  manualCapture (commands ++ [text]) = if text = captureStart then true
    else if text = captureStop then false else manualCapture commands
  := by
  rw [manualCapture, List.foldl_append]
  rfl

namespace System

variable {s : System ι σ}

/-- Processing the first item of the batch. -/
theorem step_process [DecidableEq ι] (h : s.Inv mod.password) {item : PendingCommand}
    {rest : List PendingCommand} (hbatch : s.exchange.batch = item :: rest) :
  (s.step mod .process).exchange.processed = s.exchange.processed ++ [item.commandText] ∧
  (s.step mod .process).mod = (respond mod item.commandText item.authority s.mod).2
  := by
  rw [System.step, Exchange.process_of_cons h.exchange mod s.mod hbatch]
  constructor
  · dsimp only
    rw [Exchange.processed, Exchange.complete_eq h.exchange hbatch, List.map_append]
    rfl
  · rfl

theorem handle_mod [DecidableEq ι] (s : System ι σ) (w : ι)
    (f : ℕ → Connection → Exchange Origin → Connection × Exchange Origin) :
  (s.handle w f).mod = s.mod
  := by
  rw [handle]
  split <;> rfl

/-- A step that processes no item keeps the flag. -/
theorem step_capturingCalls [DecidableEq ι] (s : System ι σ) (a : Action ι σ)
    (hnot : a = .process → s.exchange.batch = []) :
  (s.step mod a).mod.capturingCalls = s.mod.capturingCalls
  := by
  cases a with
  | accept w sock =>
      rw [step, accept]
      split <;> rfl
  | advance w => rw [step, handle_mod]
  | enqueue w => rw [step, handle_mod]
  | ready w => rw [step, handle_mod]
  | timeout w => rw [step, handle_mod]
  | foreign commandText authority => rfl
  | drain => rfl
  | process => rw [step, Exchange.process_of_nil mod s.mod (hnot rfl)]
  | game game => rfl

theorem enqueue_dispatched (x : Exchange Origin) (commandText : Bytes)
    (authority : CommandAuthority) (origin : Origin) :
  (x.enqueue commandText authority origin).2.dispatched = x.dispatched
  := by
  rw [Exchange.enqueue]
  split <;> rfl

/-- A step that processes no item dispatches nothing. -/
theorem step_processed [DecidableEq ι] (s : System ι σ) (a : Action ι σ)
    (hnot : a = .process → s.exchange.batch = []) :
  (s.step mod a).exchange.processed = s.exchange.processed
  := by
  have hstep := exchangeStep mod s a
  rw [Exchange.processed, Exchange.processed]
  generalize (s.step mod a).exchange = x at hstep
  cases hstep with
  | same => rfl
  | packet _ c packet => rw [enqueue_dispatched]
  | foreign commandText authority => rw [enqueue_dispatched]
  | drain => rw [(s.exchange.drain_history).2]
  | process => rw [Exchange.process_of_nil mod s.mod (hnot rfl)]

/-- After processing an item, the flag follows the manual capture exactly if the item has not
cleared it while the capture was on. -/
theorem followsManual_process_iff [DecidableEq ι] (h : s.Inv mod.password)
    (hfollows : s.FollowsManual) {item : PendingCommand} {rest : List PendingCommand}
    (hbatch : s.exchange.batch = item :: rest) :
  (s.step mod .process).FollowsManual ↔
    (manualCapture s.exchange.processed = true →
      ¬ Intrudes mod.sentinels item.commandText s.mod.game)
  := by
  obtain ⟨hprocessed, hmod⟩ := step_process h hbatch
  rw [FollowsManual, hprocessed, hmod, manualCapture_append]
  have heffect := captureEffect mod item.commandText item.authority s.mod
  generalize (respond mod item.commandText item.authority s.mod).2.capturingCalls = flag at *
  rw [FollowsManual] at hfollows
  cases heffect with
  | start htext =>
      rw [if_pos htext]
      constructor
      · intro _ _ hintrudes
        apply hintrudes.ne.1 htext
      · intro _
        rfl
  | stop htext =>
      have hne : item.commandText ≠ captureStart := by
        rw [htext]
        decide
      rw [if_neg hne, if_pos htext]
      constructor
      · intro _ _ hintrudes
        apply hintrudes.ne.2 htext
      · intro _
        rfl
  | intrudes hstart hstop hintrudes =>
      rw [if_neg hstart, if_neg hstop]
      constructor
      · intro heq hon
        rw [hon] at heq
        cases heq
      · intro hnot
        symm
        rw [Bool.eq_false_iff]
        intro hon
        apply hnot hon hintrudes
  | keeps hstart hstop hnot =>
      rw [if_neg hstart, if_neg hstop]
      constructor
      · intro _ _
        apply hnot
      · intro _
        apply hfollows

/-- The flag follows the manual capture after a step exactly if the step does not disturb
it. -/
theorem followsManual_step_iff [DecidableEq ι] (h : s.Inv mod.password)
    (hfollows : s.FollowsManual) (a : Action ι σ) :
  (s.step mod a).FollowsManual ↔ Undisturbed mod.sentinels s a
  := by
  by_cases hidle : a = .process → s.exchange.batch = []
  · rw [FollowsManual, step_processed s a hidle, step_capturingCalls s a hidle]
    constructor
    · intro _ hprocess item rest hbatch
      rw [hidle hprocess] at hbatch
      cases hbatch
    · intro _
      apply hfollows
  · obtain ⟨rfl, hne⟩ := Classical.not_imp.mp hidle
    obtain ⟨item, rest, hbatch⟩ := List.exists_cons_of_ne_nil hne
    rw [followsManual_process_iff h hfollows hbatch]
    constructor
    · intro hnot _ item' rest' hbatch'
      rw [hbatch] at hbatch'
      obtain ⟨rfl, rfl⟩ := List.cons.inj hbatch'
      apply hnot
    · intro hundisturbed
      apply hundisturbed rfl item rest hbatch

/-- In every run from a state with the flag off, the flag tells after each step whether the
manual capture is on exactly if no command is dispatched, and no sentinel throws, while it is
on. -/
theorem manual_capture_iff [DecidableEq ι] (mod : Mod σ) {m : ModState σ}
    (hm : m.capturingCalls = false) (actions : List (Action ι σ)) :
  (∀ front, front <+: actions → (run mod m front).FollowsManual)
    ↔ Transition.Along (System.step mod) (Undisturbed mod.sentinels) { mod := m } actions
  := by
  apply Transition.forall_isPrefix_iff_along (I := Inv mod.password)
  · intro s a h
    apply h.step
  · intro s a h hfollows
    apply followsManual_step_iff h hfollows
  · apply inv_init
  · apply hm

/-- A client authenticates and sends two commands, which are processed. -/
def twoCommands (first second : Bytes) : List (Action Unit Unit) :=
  [.accept () { incoming := encodePacket 1 serverdataAuth (ascii "secret")
      ++ encodePacket 7 serverdataExeccommand first
      ++ encodePacket 8 serverdataExeccommand second },
    .advance (), .advance (), .enqueue (), .drain, .process, .ready (), .advance (),
    .advance (), .enqueue (), .drain, .process]

instance (s : System ι σ) : Decidable s.FollowsManual :=
  inferInstanceAs (Decidable (_ = _))

/-- The capture switched on and then a status query. -/
theorem manual_capture_traceStatus :
  Transition.Along (System.step (silentMod (ascii "secret")))
    (Undisturbed (silentMod (ascii "secret")).sentinels)
    { mod := { game := (), dispatch := { initialized := true } } }
    (twoCommands captureStart (ascii "!godmode_trace_status")) ∧
  (run (silentMod (ascii "secret")) { game := (), dispatch := { initialized := true } }
    (twoCommands captureStart (ascii "!godmode_trace_status"))).mod.capturingCalls = true
  := by
  constructor
  · apply (manual_capture_iff _ rfl _).mp
    intro front hfront
    have hmem := (List.mem_inits _ _).mpr hfront
    clear hfront
    revert front
    decide +kernel
  · decide +kernel

/-- A dispatched command ends the capture that was started before it. -/
theorem not_followsManual_listPlayers :
  (run (silentMod (ascii "secret")) { game := (), dispatch := { initialized := true } }
    (twoCommands captureStart (ascii "ListPlayers"))).exchange.processed
    = [captureStart, ascii "ListPlayers"] ∧
  manualCapture [captureStart, ascii "ListPlayers"] = true ∧
  (run (silentMod (ascii "secret")) { game := (), dispatch := { initialized := true } }
    (twoCommands captureStart (ascii "ListPlayers"))).mod.capturingCalls = false ∧
  ¬ ∀ front, front <+: twoCommands captureStart (ascii "ListPlayers") →
    (run (silentMod (ascii "secret")) { game := (), dispatch := { initialized := true } }
      front).FollowsManual
  := by
  refine ⟨by decide +kernel, by decide, by decide +kernel, ?_⟩
  intro h
  have hlast := h _ (List.prefix_refl _)
  revert hlast
  decide +kernel

end System

end OpenScumRcon
