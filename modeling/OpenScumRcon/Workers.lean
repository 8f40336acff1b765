import OpenScumRcon.System

/-!
# Workers and their connections

A worker handles a connection from when it has been accepted until its handler has closed it, and
no other worker does. So a connection that is not closed changes only by the steps of one worker.
-/

namespace OpenScumRcon

open Protocol

variable {ι σ : Type} [DecidableEq ι]

namespace System

/-- No two workers handle one connection, and one that is not closed is handled. -/
structure Assigned (s : System ι σ) : Prop where
  accepted : ∀ w c, s.workers w = some c → c < s.acceptances
  injective : ∀ w w' c, s.workers w = some c → s.workers w' = some c → w = w'
  handled : ∀ c, (s.connections c).phase.isClosed = false → ∃ w, s.workers w = some c

variable {s : System ι σ}

omit [DecidableEq ι] in
theorem assigned_init (m : ModState σ) :
  ({ mod := m } : System ι σ).Assigned
  := by
  constructor
  · intro w c h
    cases h
  · intro w w' c h
    cases h
  · intro c h
    cases h

/-- A worker that accepts a client has it to itself. -/
theorem Assigned.accept (h : s.Assigned) (w : ι) (sock : Socket) :
  (s.accept w sock).Assigned
  := by
  rw [System.accept]
  split
  · apply h
  next hfree =>
  have hcases : ∀ w' c, Function.update s.workers w (some s.acceptances) w' = some c →
      (w' = w ∧ c = s.acceptances) ∨ (w' ≠ w ∧ s.workers w' = some c) := by
    intro w' c hw'
    rcases eq_or_ne w' w with rfl | hne
    · left
      rw [Function.update_self] at hw'
      exact ⟨rfl, (Option.some.inj hw').symm⟩
    · right
      rw [Function.update_of_ne hne] at hw'
      exact ⟨hne, hw'⟩
  constructor
  · intro w' c hw'
    rcases hcases w' c hw' with ⟨-, rfl⟩ | ⟨-, hw'⟩
    · apply Nat.lt_succ_self
    · apply Nat.lt_succ_of_lt (h.accepted w' c hw')
  · intro w₁ w₂ c hw₁ hw₂
    rcases hcases w₁ c hw₁ with ⟨rfl, rfl⟩ | ⟨-, hold₁⟩ <;>
      rcases hcases w₂ _ hw₂ with ⟨rfl, heq⟩ | ⟨-, hold₂⟩
    · rfl
    · cases Nat.lt_irrefl _ (h.accepted w₂ _ hold₂)
    · subst heq
      cases Nat.lt_irrefl _ (h.accepted w₁ _ hold₁)
    · apply h.injective w₁ w₂ c hold₁ hold₂
  · intro c hopen
    dsimp only at hopen ⊢
    rcases eq_or_ne c s.acceptances with rfl | hne
    · use w
      rw [Function.update_self]
    · rw [Function.update_of_ne hne] at hopen
      obtain ⟨w', hw'⟩ := h.handled c hopen
      use w'
      rw [Function.update_of_ne]
      · apply hw'
      · rintro rfl
        rw [hfree] at hw'
        cases hw'

/-- A handler's step leaves the assignment as it is. -/
theorem Assigned.handle (h : s.Assigned) (w : ι)
    (f : ℕ → Connection → Exchange Origin → Connection × Exchange Origin) :
  (s.handle w f).Assigned
  := by
  rw [System.handle]
  split
  · apply h
  next c hw =>
  dsimp only
  generalize (f c (s.connections c) s.exchange).1 = C
  have hsub : ∀ w' c', (if C.phase.isClosed then Function.update s.workers w none
      else s.workers) w' = some c' → s.workers w' = some c' := by
    intro w' c' hw'
    split at hw'
    · rcases eq_or_ne w' w with rfl | hne
      · rw [Function.update_self] at hw'
        cases hw'
      · rw [Function.update_of_ne hne] at hw'
        apply hw'
    · apply hw'
  constructor
  · intro w' c' hw'
    apply h.accepted w' c' (hsub w' c' hw')
  · intro w₁ w₂ c' hw₁ hw₂
    apply h.injective w₁ w₂ c' (hsub w₁ c' hw₁) (hsub w₂ c' hw₂)
  · intro c' hopen
    dsimp only at hopen ⊢
    rcases eq_or_ne c' c with rfl | hne
    · rw [Function.update_self] at hopen
      use w
      rw [hopen, if_neg Bool.false_ne_true, hw]
    · rw [Function.update_of_ne hne] at hopen
      obtain ⟨w', hw'⟩ := h.handled c' hopen
      use w'
      split
      · rw [Function.update_of_ne]
        · apply hw'
        · rintro rfl
          rw [hw] at hw'
          apply hne (Option.some.inj hw').symm
      · apply hw'

theorem Assigned.step (h : s.Assigned) (mod : Mod σ) (a : Action ι σ) :
  (s.step mod a).Assigned
  := by
  cases a with
  | accept w sock => apply h.accept
  | advance w => apply h.handle w fun _ C x => (C.advance mod.password, x)
  | enqueue w => apply h.handle w Connection.enqueue
  | ready w => apply h.handle w fun _ C x => (C.ready x, x)
  | timeout w => apply h.handle w fun _ C x => (C.timeout x, x)
  | foreign commandText authority => exact ⟨h.accepted, h.injective, h.handled⟩
  | drain => exact ⟨h.accepted, h.injective, h.handled⟩
  | process => exact ⟨h.accepted, h.injective, h.handled⟩
  | game game => exact ⟨h.accepted, h.injective, h.handled⟩

theorem assigned_run (mod : Mod σ) (m : ModState σ) (actions : List (Action ι σ)) :
  (run mod m actions).Assigned
  := by
  apply Transition.run_invariant
  · intro s a h
    apply h.step
  · apply assigned_init

/-! ### The steps of one handler -/

/-- The worker handles the connection, which is this one. -/
structure Stands (w : ι) (c : ℕ) (C : Connection) (s : System ι σ) : Prop where
  worker : s.workers w = some c
  connection : s.connections c = C

/-- The connection after an action, when the worker handles it. -/
def turn (password : Bytes) (w : ι) (c : ℕ) (C : Connection) (x : Exchange Origin) :
    Action ι σ → Connection
  | .advance w' => if w' = w then C.advance password else C
  | .enqueue w' => if w' = w then (C.enqueue c x).1 else C
  | .ready w' => if w' = w then C.ready x else C
  | .timeout w' => if w' = w then C.timeout x else C
  | _ => C

/-- The other workers' steps leave a connection as it is. -/
theorem Stands.handle_of_ne {w w' : ι} {c : ℕ} {C : Connection} (h : s.Stands w c C)
    (hassigned : s.Assigned) (hne : w' ≠ w)
    (f : ℕ → Connection → Exchange Origin → Connection × Exchange Origin) :
  (s.handle w' f).Stands w c C
  := by
  rw [handle]
  split
  · apply h
  next c' hw' =>
  have hc : c ≠ c' := by
    rintro rfl
    apply hne (hassigned.injective w' w c hw' h.worker)
  constructor
  · dsimp only
    split
    · rw [Function.update_of_ne hne.symm]
      apply h.worker
    · apply h.worker
  · dsimp only
    rw [Function.update_of_ne hc]
    apply h.connection

/-- The connection after a step of its worker. -/
theorem Stands.handle {w : ι} {c : ℕ} {C : Connection} (h : s.Stands w c C)
    (f : ℕ → Connection → Exchange Origin → Connection × Exchange Origin) :
  (s.handle w f).connections c = (f c C s.exchange).1 ∧
    ((f c C s.exchange).1.phase.isClosed = false → (s.handle w f).workers w = some c)
  := by
  obtain ⟨hw, rfl⟩ := h
  rw [System.handle, hw]
  dsimp only
  use Function.update_self _ _ _
  intro hopen
  rw [hopen, if_neg Bool.false_ne_true, hw]

/-- A step by anyone changes the connection as the turn of its worker does, and the worker goes on
to handle it unless it has been closed. -/
theorem Stands.step {w : ι} {c : ℕ} {C : Connection} (h : s.Stands w c C)
    (hassigned : s.Assigned) (mod : Mod σ) (a : Action ι σ) :
  (s.step mod a).connections c = turn mod.password w c C s.exchange a ∧
    ((turn mod.password w c C s.exchange a).phase.isClosed = false →
      (s.step mod a).workers w = some c)
  := by
  have hhandle : ∀ (w' : ι) (f : ℕ → Connection → Exchange Origin → Connection × Exchange Origin),
      (s.handle w' f).connections c = (if w' = w then (f c C s.exchange).1 else C) ∧
        ((if w' = w then (f c C s.exchange).1 else C).phase.isClosed = false →
          (s.handle w' f).workers w = some c) := by
    intro w' f
    rcases eq_or_ne w' w with rfl | hne
    · rw [if_pos rfl]
      apply h.handle
    · rw [if_neg hne]
      have hother := h.handle_of_ne hassigned hne f
      use hother.connection
      intro _
      apply hother.worker
  cases a with
  | accept w' sock =>
      have hturn : turn mod.password w c C s.exchange (.accept w' sock : Action ι σ) = C := rfl
      rw [hturn, System.step, accept]
      split
      · exact ⟨h.connection, fun _ => h.worker⟩
      next hfree =>
      dsimp only
      constructor
      · rw [Function.update_of_ne (Nat.ne_of_lt (hassigned.accepted w c h.worker))]
        apply h.connection
      · intro _
        rw [Function.update_of_ne]
        · apply h.worker
        · rintro rfl
          rw [h.worker] at hfree
          cases hfree
  | advance w' => apply hhandle w' fun _ C x => (C.advance mod.password, x)
  | enqueue w' => apply hhandle w' Connection.enqueue
  | ready w' => apply hhandle w' fun _ C x => (C.ready x, x)
  | timeout w' => apply hhandle w' fun _ C x => (C.timeout x, x)
  | foreign commandText authority => exact ⟨h.connection, fun _ => h.worker⟩
  | drain => exact ⟨h.connection, fun _ => h.worker⟩
  | process => exact ⟨h.connection, fun _ => h.worker⟩
  | game game => exact ⟨h.connection, fun _ => h.worker⟩

/-! ### The turns in each phase -/

section

variable {password : Bytes} {w : ι} {c : ℕ} {C : Connection} {x : Exchange Origin}
  {packet : Packet} {future : ℕ} {text : Bytes}

theorem turn_enqueuing (hphase : C.phase = .enqueuing packet) (a : Action ι σ) :
  (turn password w c C x a = C ∧ a ≠ .enqueue w) ∨
    ∃ future, turn password w c C x a = { C with phase := .waiting packet future }
  := by
  cases a with
  | advance w' => simp [turn, Connection.advance, hphase]
  | enqueue w' =>
      by_cases hw : w' = w
      · right
        use x.promises.count
        simp [turn, Connection.enqueue, hphase, hw, Exchange.enqueue_of_authorized]
      · left
        simp [turn, hw]
  | ready w' => simp [turn, Connection.ready, hphase]
  | timeout w' => simp [turn, Connection.timeout, hphase]
  | _ => simp [turn]

/-- A waiting connection comes to reply, and does so once its future is ready. -/
theorem turn_waiting (hphase : C.phase = .waiting packet future) (a : Action ι σ) :
  (turn password w c C x a = C ∧ (a = .ready w → x.promises.value future = none)) ∨
    ∃ text, turn password w c C x a = { C with phase := .replying packet future text }
  := by
  cases a with
  | advance w' => simp [turn, Connection.advance, hphase]
  | enqueue w' => simp [turn, Connection.enqueue, hphase]
  | ready w' =>
      by_cases hw : w' = w
      · cases hvalue : x.promises.value future with
        | none => simp [turn, Connection.ready, hphase, hvalue]
        | some text =>
            right
            use text
            simp [turn, Connection.ready, hphase, hvalue, hw]
      · left
        simp [turn, hw]
  | timeout w' =>
      by_cases hw : w' = w
      · cases hvalue : x.promises.value future with
        | none =>
            right
            use commandTimedOut
            simp [turn, Connection.timeout, hphase, hvalue, hw]
        | some text => simp [turn, Connection.timeout, hphase, hvalue]
      · left
        simp [turn, hw]
  | _ => simp [turn]

/-- A reply becomes an answer at the connection's next step. -/
theorem turn_replying (hphase : C.phase = .replying packet future text) (a : Action ι σ) :
  (turn password w c C x a = C ∧ a ≠ .advance w) ∨
    (turn password w c C x a).answers = C.answers ++ [⟨packet, future, text⟩]
  := by
  cases a with
  | advance w' =>
      by_cases hw : w' = w
      · right
        rw [turn, if_pos hw, Connection.advance, hphase]
        dsimp only
        split <;> rfl
      · left
        simp [turn, hw]
  | enqueue w' => simp [turn, Connection.enqueue, hphase]
  | ready w' => simp [turn, Connection.ready, hphase]
  | timeout w' => simp [turn, Connection.timeout, hphase]
  | _ => simp [turn]

end

end System

end OpenScumRcon
