import OpenScumRcon.Library.Transition

/-!
# What happens in the end

A schedule gives an action for every time, and with it an infinite run. One property leads to
another when the second holds at some time after the first has held. The rules derive this from
what single steps do: a property holds unless another does, and an action that recurs in the
schedule brings the other about.
-/

namespace Transition

universe u v

variable {S : Type u} {A : Type v}

/-! ### Schedules -/

/-- The state before time `n` of the schedule. -/
def after (step : S → A → S) (s : S) (schedule : ℕ → A) : ℕ → S
  | 0 => s
  | n + 1 => step (after step s schedule n) (schedule n)

theorem after_eq_run (step : S → A → S) (s : S) (schedule : ℕ → A) (n : ℕ) :
  after step s schedule n = run step s ((List.range n).map schedule)
  := by
  induction n with
  | zero => rfl
  | succ n ih => rw [after, ih, List.range_succ, List.map_append, run_append, List.map_singleton,
      run_cons, run_nil]

/-- An action of a kind comes again and again. -/
def Recurs (schedule : ℕ → A) (p : A → Prop) : Prop :=
  ∀ n, ∃ m, n ≤ m ∧ p (schedule m)

/-- Whenever the one holds, the other holds then or later. -/
def LeadsTo (states : ℕ → S) (P Q : S → Prop) : Prop :=
  ∀ n, P (states n) → ∃ m, n ≤ m ∧ Q (states m)

/-- The one goes on to hold until the other does. -/
def Unless (states : ℕ → S) (P Q : S → Prop) : Prop :=
  ∀ n, P (states n) → P (states (n + 1)) ∨ Q (states (n + 1))

variable {states : ℕ → S} {P Q R : S → Prop}

/-! ### The rules -/

theorem LeadsTo.trans (h : LeadsTo states P Q) (h' : LeadsTo states Q R) :
  LeadsTo states P R
  := by
  intro n hP
  obtain ⟨m, hm, hQ⟩ := h n hP
  obtain ⟨k, hk, hR⟩ := h' m hQ
  use k, Nat.le_trans hm hk

/-- What holds at a time holds at a later one, or the other has held in between. -/
theorem Unless.until (h : Unless states P Q) {n : ℕ} (hP : P (states n)) (k : ℕ) :
  P (states (n + k)) ∨ ∃ m, n ≤ m ∧ m ≤ n + k ∧ Q (states m)
  := by
  induction k with
  | zero =>
      left
      apply hP
  | succ k ih =>
      rcases ih with hP | ⟨m, hnm, hmk, hQ⟩
      · rcases h (n + k) hP with hP | hQ
        · left
          apply hP
        · right
          use n + k + 1, by omega, by omega
      · right
        use m, hnm, by omega

/-- An action that recurs leads to what it brings about, if nothing but that ends what holds
before. -/
theorem leadsTo_of_recurs {schedule : ℕ → A} {p : A → Prop} (hrecurs : Recurs schedule p)
    (hstep : ∀ n, P (states n) →
      (P (states (n + 1)) ∧ ¬ p (schedule n)) ∨ Q (states (n + 1))) :
  LeadsTo states P Q
  := by
  have hunless : Unless states P Q := by
    intro n hP
    rcases hstep n hP with ⟨hP, -⟩ | hQ
    · left
      apply hP
    · right
      apply hQ
  intro n hP
  obtain ⟨m, hm, hp⟩ := hrecurs n
  obtain ⟨k, rfl⟩ := Nat.exists_eq_add_of_le hm
  rcases hunless.until hP k with hP | ⟨m, hnm, -, hQ⟩
  · rcases hstep (n + k) hP with ⟨-, hnot⟩ | hQ
    · cases hnot hp
    · use n + k + 1, by omega
  · use m, hnm

/-- Progress of one property while another holds until a third does. -/
theorem Unless.and_leadsTo {P' : S → Prop} (h : Unless states P Q) (h' : LeadsTo states R P') :
  LeadsTo states (fun s => P s ∧ R s) (fun s => (P s ∧ P' s) ∨ Q s)
  := by
  rintro n ⟨hP, hR⟩
  obtain ⟨m, hm, hP'⟩ := h' n hR
  obtain ⟨k, rfl⟩ := Nat.exists_eq_add_of_le hm
  rcases h.until hP k with hP | ⟨m, hnm, -, hQ⟩
  · use n + k, hm
    left
    exact ⟨hP, hP'⟩
  · use m, hnm
    right
    apply hQ

/-- A measure that gets smaller in the end, again and again, gets to its end. -/
theorem leadsTo_of_measure (μ : S → ℕ)
    (h : ∀ k, LeadsTo states (fun s => P s ∧ μ s = k) (fun s => (P s ∧ μ s < k) ∨ Q s)) :
  LeadsTo states P Q
  := by
  intro n hP
  induction hk : μ (states n) using Nat.strongRecOn generalizing n with
  | ind k ih =>
      obtain ⟨m, hm, ⟨hP', hlt⟩ | hQ⟩ := h k n ⟨hP, hk⟩
      · obtain ⟨m', hm', hQ⟩ := ih (μ (states m)) hlt m hP' rfl
        use m', Nat.le_trans hm hm'
      · use m, hm

end Transition
