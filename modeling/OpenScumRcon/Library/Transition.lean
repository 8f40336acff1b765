import Mathlib.Data.List.Induction
import Mathlib.Logic.Relation

/-!
# Runs

A system makes a step for every action, and a run is what a list of actions does to a
state. An invariant of the steps is an invariant of the runs, and a system whose steps are
steps of another one, up to a function on states, has the runs of the other one. A condition
on the steps holds along a run when every step of the run, in the state it is made in, meets
it.
-/

namespace Transition

variable {S A T : Type*}

/-- The state after a list of actions. -/
def run (step : S → A → S) (s : S) (actions : List A) : S :=
  actions.foldl step s

variable {step : S → A → S}

@[simp]
theorem run_nil (s : S) :
  run step s [] = s
  := rfl

@[simp]
theorem run_cons (s : S) (a : A) (actions : List A) :
  run step s (a :: actions) = run step (step s a) actions
  := rfl

theorem run_append (s : S) (actions actions' : List A) :
  run step s (actions ++ actions') = run step (run step s actions) actions'
  := List.foldl_append

/-- What every step by an action of the run preserves holds after the run. -/
theorem run_invariant_of_forall {P : S → Prop} {Q : A → Prop}
    (hstep : ∀ s a, Q a → P s → P (step s a)) {s : S} (hs : P s) {actions : List A}
    (hactions : ∀ a ∈ actions, Q a) :
  P (run step s actions)
  := by
  induction actions generalizing s with
  | nil => apply hs
  | cons a actions ih =>
      rw [List.forall_mem_cons] at hactions
      apply ih _ hactions.2
      apply hstep s a hactions.1 hs

/-- What every step preserves holds after every run. -/
theorem run_invariant {P : S → Prop} (hstep : ∀ s a, P s → P (step s a)) {s : S} (hs : P s)
    (actions : List A) :
  P (run step s actions)
  := by
  apply run_invariant_of_forall (fun s a _ => hstep s a) hs (Q := fun _ => True)
  simp

/-- Every step of the run meets the condition in the state it is made in. -/
def Along (step : S → A → S) (Q : S → A → Prop) : S → List A → Prop
  | _, [] => True
  | s, a :: actions => Q s a ∧ Along step Q (step s a) actions

instance decidableAlong {Q : S → A → Prop} [∀ s a, Decidable (Q s a)] :
    (s : S) → (actions : List A) → Decidable (Along step Q s actions)
  | _, [] => isTrue trivial
  | s, a :: actions =>
      have : Decidable (Along step Q (step s a) actions) := decidableAlong _ _
      inferInstanceAs (Decidable (_ ∧ _))

theorem along_append {Q : S → A → Prop} {s : S} {actions actions' : List A} :
  Along step Q s (actions ++ actions')
    ↔ Along step Q s actions ∧ Along step Q (run step s actions) actions'
  := by
  induction actions generalizing s with
  | nil => simp [Along, run]
  | cons a actions ih => simp [Along, ih, and_assoc]

/-- What every step that meets the condition preserves holds after a run whose steps meet
it. -/
theorem run_invariant_of_along {P : S → Prop} {Q : S → A → Prop}
    (hstep : ∀ s a, Q s a → P s → P (step s a)) {s : S} (hs : P s) {actions : List A}
    (hactions : Along step Q s actions) :
  P (run step s actions)
  := by
  induction actions generalizing s with
  | nil => apply hs
  | cons a actions ih => apply ih (hstep s a hactions.1 hs) hactions.2

theorem forall_of_along {Q : S → A → Prop} {R : A → Prop} (hQ : ∀ s a, Q s a → R a) {s : S}
    {actions : List A} (hactions : Along step Q s actions) :
  ∀ a ∈ actions, R a
  := by
  induction actions generalizing s with
  | nil => simp
  | cons a actions ih =>
      rw [List.forall_mem_cons]
      exact ⟨hQ s a hactions.1, ih hactions.2⟩

/-- What one more step preserves of a run and the state it leads to holds of every run. -/
theorem run_history {P : List A → S → Prop} {Q : S → A → Prop} {s : S} (hs : P [] s)
    (hstep : ∀ front a, Q (run step s front) a → P front (run step s front) →
      P (front ++ [a]) (step (run step s front) a)) {actions : List A}
    (hactions : Along step Q s actions) :
  P actions (run step s actions)
  := by
  induction actions using List.reverseRecOn with
  | nil => apply hs
  | append_singleton front a ih =>
      obtain ⟨hfront, hlast, -⟩ := along_append.mp hactions
      rw [run_append]
      apply hstep front a hlast (ih hfront)

/-- Two systems whose steps keep a relation under the condition stay related in a run whose
steps meet it. -/
theorem run_related {step' : T → A → T} {R : S → T → Prop} {Q : T → A → Prop}
    (hstep : ∀ s t a, Q t a → R s t → R (step s a) (step' t a)) {s : S} {t : T} (hrelated : R s t)
    {actions : List A} (hactions : Along step' Q t actions) :
  R (run step s actions) (run step' t actions)
  := by
  induction actions generalizing s t with
  | nil => apply hrelated
  | cons a actions ih => apply ih (hstep s t a hactions.1 hrelated) hactions.2

/-- When a step keeps a property exactly if it meets the condition, all states of a run have
the property exactly if all its steps meet the condition. -/
theorem forall_isPrefix_iff_along {I P : S → Prop} {Q : S → A → Prop}
    (hinv : ∀ s a, I s → I (step s a)) (hiff : ∀ s a, I s → P s → (P (step s a) ↔ Q s a))
    {s : S} (hI : I s) (hP : P s) (actions : List A) :
  (∀ front, front <+: actions → P (run step s front)) ↔ Along step Q s actions
  := by
  induction actions generalizing s with
  | nil =>
      constructor
      · intro _
        trivial
      · intro _ front hfront
        rw [List.prefix_nil.mp hfront]
        apply hP
  | cons a actions ih =>
      constructor
      · intro h
        have hnext : P (step s a) := h [a] ⟨actions, rfl⟩
        use (hiff s a hI hP).mp hnext
        apply (ih (hinv s a hI) hnext).mp
        intro front hfront
        apply h (a :: front)
        apply (List.prefix_cons_inj a).mpr hfront
      · rintro ⟨hQ, hrest⟩ front hfront
        have hnext : P (step s a) := (hiff s a hI hP).mpr hQ
        rcases List.prefix_cons_iff.mp hfront with rfl | ⟨front', rfl, hfront'⟩
        · apply hP
        · apply (ih (hinv s a hI) hnext).mpr hrest front' hfront'

/-- A plan is a list of actions of one kind that are still to be made. What the actions of the
other kind preserve, and what the next action of the plan carries over to the rest of the plan,
holds with an empty plan after a run whose actions of the kind are the plan. -/
theorem run_of_filter_eq {own : A → Bool} {P : List A → S → Prop}
    (hother : ∀ s a plan, own a = false → P plan s → P plan (step s a))
    (hown : ∀ s a plan, P (a :: plan) s → P plan (step s a)) {s : S} {actions plan : List A}
    (hplan : actions.filter own = plan) (hs : P plan s) :
  P [] (run step s actions)
  := by
  induction actions generalizing s plan with
  | nil =>
      rw [← hplan] at hs
      apply hs
  | cons a actions ih =>
      cases ha : own a with
      | false =>
          rw [List.filter_cons_of_neg (by simp [ha])] at hplan
          apply ih hplan (hother s a plan ha hs)
      | true =>
          rw [List.filter_cons_of_pos ha] at hplan
          rw [← hplan] at hs
          apply ih rfl (hown s a _ hs)

/-- When every step is matched by a run of another system, so is every run. The actions of the other
system stem from those of the run. -/
theorem exists_run_of_matched {B : Type*} {step' : T → B → T} {R : S → T → Prop} {Q : A → B → Prop}
    (hstep : ∀ s t a, R s t → ∃ matched : List B, (∀ b ∈ matched, Q a b) ∧
      R (step s a) (run step' t matched)) {s : S} {t : T} (hrelated : R s t) (actions : List A) :
  ∃ matched : List B, (∀ b ∈ matched, ∃ a ∈ actions, Q a b) ∧
    R (run step s actions) (run step' t matched)
  := by
  induction actions generalizing s t with
  | nil => exact ⟨[], by simp, hrelated⟩
  | cons a actions ih =>
      obtain ⟨first, hfirst, hnext⟩ := hstep s t a hrelated
      obtain ⟨rest, hrest, hrun⟩ := ih hnext
      use first ++ rest
      constructor
      · intro b hb
        rcases List.mem_append.mp hb with hb | hb
        · exact ⟨a, List.mem_cons_self, hfirst b hb⟩
        · obtain ⟨a', ha', hQ⟩ := hrest b hb
          exact ⟨a', List.mem_cons_of_mem a ha', hQ⟩
      · rw [run_append]
        apply hrun

/-- A run is a sequence of steps of a system that simulates each of its steps. -/
theorem run_simulated {P : S → Prop} (hstep : ∀ s a, P s → P (step s a)) {f : S → T}
    {r : T → T → Prop} (hsim : ∀ s a, P s → Relation.ReflTransGen r (f s) (f (step s a)))
    {s : S} (hs : P s) (actions : List A) :
  Relation.ReflTransGen r (f s) (f (run step s actions))
  := by
  induction actions generalizing s with
  | nil => apply Relation.ReflTransGen.refl
  | cons a actions ih => apply (hsim s a hs).trans (ih (hstep s a hs))

/-- What every step of a relation preserves holds along all sequences of steps. -/
theorem invariant_of_reflTransGen {r : T → T → Prop} {P : T → Prop}
    (hstep : ∀ t t', r t t' → P t → P t') {t t' : T} (h : Relation.ReflTransGen r t t')
    (ht : P t) :
  P t'
  := by
  induction h with
  | refl => apply ht
  | tail _ hlast ih => apply hstep _ _ hlast ih

end Transition
