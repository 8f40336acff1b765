import OpenScumRcon.Library.Transition
import Mathlib.Data.List.Nodup

/-!
# Handing over items in batches

Producers submit items, each under a key of its own. A consumer takes all pending items at
once and finishes them one by one, each with a result. Every item is finished at most once,
in the order of submission, and is never lost: at any time it is finished, in the batch, or
pending, and in only one of them.
-/

variable {α β κ : Type*}

/-- The items of a hand-off: those submitted so far, the pending ones, the batch the consumer
has taken, and the finished ones with their results. -/
structure Handoff (α β : Type*) where
  submitted : List α := []
  pending : List α := []
  batch : List α := []
  finished : List (α × β) := []

namespace Handoff

variable (key : α → κ)

/-- The steps of a hand-off. -/
inductive Step : Handoff α β → Handoff α β → Prop where
  | submit {h : Handoff α β} (a : α) (hfresh : key a ∉ h.submitted.map key) :
      Step h { h with submitted := h.submitted ++ [a], pending := h.pending ++ [a] }
  | take {h : Handoff α β} (hbatch : h.batch = []) :
      Step h { h with batch := h.pending, pending := [] }
  | finish {h : Handoff α β} (a : α) (rest : List α) (b : β) (hbatch : h.batch = a :: rest) :
      Step h { h with batch := rest, finished := h.finished ++ [(a, b)] }

/-- Every submitted item is accounted for once, in order, and the keys tell the items apart. -/
structure Accounted (h : Handoff α β) : Prop where
  order : h.submitted = h.finished.map Prod.fst ++ h.batch ++ h.pending
  nodup : (h.submitted.map key).Nodup

theorem accounted_empty :
  Accounted key ({} : Handoff α β)
  := by
  constructor
  · rfl
  · apply List.nodup_nil

variable {key}

theorem Step.accounted {h h' : Handoff α β} (hstep : Step key h h') (hacc : Accounted key h) :
  Accounted key h'
  := by
  obtain ⟨horder, hnodup⟩ := hacc
  cases hstep with
  | submit a hfresh =>
      constructor
      · rw [horder, List.append_assoc]
      · rw [List.map_append, List.map_singleton, ← List.concat_eq_append]
        apply hnodup.concat hfresh
  | take hbatch =>
      constructor
      · rw [horder, hbatch, List.append_nil, List.append_nil]
      · apply hnodup
  | finish a rest b hbatch =>
      constructor
      · rw [horder, hbatch, List.map_append, List.map_singleton, List.append_assoc,
          List.append_assoc, List.append_assoc]
        rfl
      · apply hnodup

/-- The items stay accounted for along every sequence of steps. -/
theorem accounted_of_reflTransGen {h h' : Handoff α β}
    (hsteps : Relation.ReflTransGen (Step key) h h') (hacc : Accounted key h) :
  Accounted key h'
  := Transition.invariant_of_reflTransGen (fun _ _ hstep => hstep.accounted) hsteps hacc

/-- An item in the batch or pending is not finished. -/
theorem Accounted.not_finished {h : Handoff α β} (hacc : Accounted key h) {a : α}
    (ha : a ∈ h.batch ++ h.pending) :
  ∀ d ∈ h.finished, key d.1 ≠ key a
  := by
  intro d hd heq
  have hnodup := hacc.nodup
  rw [hacc.order, List.append_assoc, List.map_append] at hnodup
  apply (List.nodup_append.mp hnodup).2.2 (key d.1) _ (key a) _ heq
  · apply List.mem_map_of_mem (List.mem_map_of_mem hd)
  · apply List.mem_map_of_mem ha

/-- A submitted item is finished, or it waits in the batch or behind it. -/
theorem Accounted.cases {h : Handoff α β} (hacc : Accounted key h) {a : α}
    (ha : a ∈ h.submitted) :
  (∃ b, (a, b) ∈ h.finished) ∨ a ∈ h.batch ++ h.pending
  := by
  rw [hacc.order, List.append_assoc, List.mem_append] at ha
  rcases ha with ha | ha
  · left
    obtain ⟨⟨a, b⟩, hd, rfl⟩ := List.mem_map.mp ha
    use b
  · right
    apply ha

end Handoff
