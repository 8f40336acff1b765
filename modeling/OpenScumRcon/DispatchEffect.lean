import OpenScumRcon.ManualCapture

/-!
# What a command does to the game

Every branch of the loop body that drains the queue runs some code on the game: the function of
a sentinel, the dispatcher, or none where the reply is fixed. The response is what this code
replies, or says what it has thrown, and the game is the one that it leaves.
-/

namespace OpenScumRcon

variable {σ : Type}

/-- The replies of the branches that leave the game alone. -/
def fixedReplies : List Bytes :=
  [ascii "ok: capture started", ascii "ok: capture stopped",
    ascii "ok: native capture started", ascii "ok: native capture stopped",
    ascii "ok: registration capture started", ascii "ok: registration capture stopped",
    ascii "error: usage: !try_native_setgodmode <true|false> <steamId>",
    ascii ("error: experimental call disabled: old address targets Immortality; "
      ++ "use observation-only !godmode_trace_start")]

/-- The code a command runs on the game. -/
inductive RunsOnGame (mod : Mod σ) (d : AdminDispatch) (text : Bytes)
    (authority : CommandAuthority) : GameM σ Bytes → Prop where
  | sentinel {f : GameM σ Bytes} (h : (text, f) ∈ mod.sentinels.calls) :
      RunsOnGame mod d text authority f
  | fixed {reply : Bytes} (h : reply ∈ fixedReplies) :
      RunsOnGame mod d text authority (pure reply)
  | dispatch (h : Ordinary mod.sentinels text) :
      RunsOnGame mod d text authority (dispatchCommand mod.routes d text authority)

/-- The response to a command whose code has ended so. -/
def responseText : Except Thrown Bytes → Bytes
  | .ok reply => reply
  | .error (.exception what) => ascii "error: exception during dispatch: " ++ what
  | .error .unknown => ascii "error: unknown exception during dispatch"

/-- A step of the mod on the game: the code has been run and has ended so. -/
structure Ran (x : GameM σ Bytes) (m : ModState σ) (result : Except Thrown Bytes)
    (m' : ModState σ) : Prop where
  result : result = (x.run.run m.game).1
  game : m'.game = (x.run.run m.game).2
  dispatch : m'.dispatch = m.dispatch

/-- A branch that leaves the game alone. -/
theorem ran_pure {reply : Bytes} {m m' : ModState σ} (hgame : m'.game = m.game)
    (hdispatch : m'.dispatch = m.dispatch) :
  Ran (pure reply) m (.ok reply) m'
  := ⟨rfl, hgame, hdispatch⟩

/-- The branches of the sentinels that switch a capture. -/
theorem exists_ran_of_switch (mod : Mod σ) {text : Bytes}
    (h : text ∈ captureStart :: captureStop :: switches) (authority : CommandAuthority)
    (m : ModState σ) :
  ∃ reply ∈ fixedReplies, Ran (pure reply) m
    ((dispatchText mod text authority).run.run m).1
    ((dispatchText mod text authority).run.run m).2
  := by
  simp only [switches, List.mem_cons, List.not_mem_nil, or_false] at h
  rcases h with rfl | rfl | rfl | rfl | rfl | rfl
  · exact ⟨ascii "ok: capture started", by decide, ran_pure rfl rfl⟩
  · exact ⟨ascii "ok: capture stopped", by decide, ran_pure rfl rfl⟩
  · exact ⟨ascii "ok: native capture started", by decide, ran_pure rfl rfl⟩
  · exact ⟨ascii "ok: native capture stopped", by decide, ran_pure rfl rfl⟩
  · exact ⟨ascii "ok: registration capture started", by decide, ran_pure rfl rfl⟩
  · exact ⟨ascii "ok: registration capture stopped", by decide, ran_pure rfl rfl⟩

/-- The branch of the call that has been disabled. -/
theorem exists_ran_of_tryNative {mod : Mod σ} {text : Bytes}
    (h : tryNative.isPrefixOf text = true) (hcalls : text ∉ mod.sentinels.calls.map Prod.fst)
    (hswitches : text ∉ captureStart :: captureStop :: switches) (authority : CommandAuthority)
    (m : ModState σ) :
  ∃ reply ∈ fixedReplies, Ran (pure reply) m
    ((dispatchText mod text authority).run.run m).1
    ((dispatchText mod text authority).run.run m).2
  := by
  simp only [Sentinels.calls, List.map_cons, List.map_nil, List.mem_cons, List.not_mem_nil,
    or_false, not_or] at hcalls
  simp only [switches, captureStart, captureStop, List.mem_cons, List.not_mem_nil, or_false,
    not_or] at hswitches
  have hpos : (ascii "!try_native_setgodmode ").isPrefixOf text = true := h
  simp only [dispatchText, hcalls, hswitches, hpos, if_true, if_false]
  split
  · exact ⟨_, by decide, ran_pure rfl rfl⟩
  · exact ⟨_, by decide, ran_pure rfl rfl⟩

/-- The branch that dispatches the command. -/
theorem ran_of_ordinary {mod : Mod σ} {text : Bytes} (h : Ordinary mod.sentinels text)
    (authority : CommandAuthority) (m : ModState σ) :
  Ran (dispatchCommand mod.routes m.dispatch text authority) m
    ((dispatchText mod text authority).run.run m).1
    ((dispatchText mod text authority).run.run m).2
  := by
  have hrun : ∀ x : GameM σ Bytes, ∀ m : ModState σ,
      Ran x m ((do
        let response ← ModM.onGame x
        ModM.setCapturingCalls false
        pure response : ModM σ Bytes).run.run m).1
      ((do
        let response ← ModM.onGame x
        ModM.setCapturingCalls false
        pure response : ModM σ Bytes).run.run m).2 := by
    intro x m
    rw [GameM.run_bind, ModM.run_onGame]
    rcases hx : x.run.run m.game with ⟨thrown | reply, game⟩
    · exact ⟨by rw [hx], by rw [hx], rfl⟩
    · exact ⟨by rw [hx]; rfl, by rw [hx]; rfl, rfl⟩
  rw [dispatchText_of_ordinary h]
  obtain ⟨hresult, hgame, hdispatch⟩ := hrun
    (dispatchCommand mod.routes m.dispatch text authority) { m with capturingCalls := true }
  exact ⟨hresult, hgame, hdispatch⟩

/-- Every branch runs some code on the game, and its end is the end of this code. -/
theorem dispatchText_ran (mod : Mod σ) (text : Bytes) (authority : CommandAuthority)
    (m : ModState σ) :
  ∃ x, RunsOnGame mod m.dispatch text authority x ∧ Ran x m
    ((dispatchText mod text authority).run.run m).1
    ((dispatchText mod text authority).run.run m).2
  := by
  by_cases hcalls : text ∈ mod.sentinels.calls.map Prod.fst
  · obtain ⟨⟨text, f⟩, hf, rfl⟩ := List.mem_map.mp hcalls
    use f, .sentinel hf
    rw [dispatchText_of_mem_calls hf, ModM.run_onGame]
    exact ⟨rfl, rfl, rfl⟩
  by_cases hswitches : text ∈ captureStart :: captureStop :: switches
  · obtain ⟨reply, hreply, hran⟩ := exists_ran_of_switch mod hswitches authority m
    use pure reply, .fixed hreply, hran.result, hran.game, hran.dispatch
  by_cases htry : tryNative.isPrefixOf text = true
  · obtain ⟨reply, hreply, hran⟩ := exists_ran_of_tryNative htry hcalls hswitches authority m
    use pure reply, .fixed hreply, hran.result, hran.game, hran.dispatch
  rw [Bool.not_eq_true] at htry
  rw [List.mem_cons, List.mem_cons, not_or, not_or] at hswitches
  have hordinary : Ordinary mod.sentinels text :=
    ⟨hswitches.1, hswitches.2.1, hcalls, hswitches.2.2, htry⟩
  refine ⟨_, .dispatch hordinary, ?_⟩
  apply ran_of_ordinary hordinary

/-- The response and the game behind it are those of code that has been run. -/
theorem respond_of_ran {mod : Mod σ} {text : Bytes} {authority : CommandAuthority}
    {m : ModState σ} {x : GameM σ Bytes}
    (hran : Ran x m ((dispatchText mod text authority).run.run m).1
      ((dispatchText mod text authority).run.run m).2) :
  (respond mod text authority m).1 = responseText (x.run.run m.game).1 ∧
    (respond mod text authority m).2.game = (x.run.run m.game).2 ∧
    (respond mod text authority m).2.dispatch = m.dispatch
  := by
  rw [respond, ← hran.result]
  rcases hrun : (dispatchText mod text authority).run.run m with ⟨thrown | reply, m'⟩
  · rw [hrun] at hran
    cases thrown with
    | exception what => exact ⟨rfl, hran.game, hran.dispatch⟩
    | unknown => exact ⟨rfl, hran.game, hran.dispatch⟩
  · rw [hrun] at hran
    exact ⟨rfl, hran.game, hran.dispatch⟩

/-- The response to a command and the game behind it are those of the code it runs. -/
theorem respond_ran (mod : Mod σ) (text : Bytes) (authority : CommandAuthority)
    (m : ModState σ) :
  ∃ x, RunsOnGame mod m.dispatch text authority x ∧
    (respond mod text authority m).1 = responseText (x.run.run m.game).1 ∧
    (respond mod text authority m).2.game = (x.run.run m.game).2 ∧
    (respond mod text authority m).2.dispatch = m.dispatch
  := by
  obtain ⟨x, hx, hran⟩ := dispatchText_ran mod text authority m
  use x, hx
  apply respond_of_ran hran

end OpenScumRcon
