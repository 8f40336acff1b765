import Mathlib.Data.List.Basic
import Mathlib.Tactic.Common

/-!
# Cutting a list into chunks

A cutter says how long the first chunk of a list is, and cuts something off every list
that is not empty. Cutting what is left again and again gives the chunks of the list:
none of them is empty, and put together in order they are the list.
-/

variable {α : Type*}

/-- The length of the first chunk of every list, positive when the list is not empty. -/
structure Cutter (α : Type*) where
  cut : List α → ℕ
  cut_pos : ∀ {l : List α}, l ≠ [] → 0 < cut l

namespace Cutter

variable (c : Cutter α)

theorem length_drop_cut_lt {l : List α} (h : l ≠ []) :
  (l.drop (c.cut l)).length < l.length
  := by
  have hlen := List.length_pos_iff.mpr h
  have hcut := c.cut_pos h
  rw [List.length_drop]
  omega

/-- The chunks of a list, in order. -/
def chunks (l : List α) : List (List α) :=
  if _h : l = [] then []
  else l.take (c.cut l) :: chunks (l.drop (c.cut l))
termination_by l.length
decreasing_by
  apply c.length_drop_cut_lt _h

@[simp]
theorem chunks_nil :
  c.chunks [] = []
  := by
  rw [chunks, dif_pos rfl]

theorem chunks_of_ne_nil {l : List α} (h : l ≠ []) :
  c.chunks l = l.take (c.cut l) :: c.chunks (l.drop (c.cut l))
  := by
  rw [chunks, dif_neg h]

/-- To prove something of every list and its chunks, prove it of the empty list and pass
it from what is left after the first chunk to the whole. -/
theorem induction_on {motive : List α → Prop} (l : List α) (nil : motive [])
    (chunk : ∀ l, l ≠ [] → motive (l.drop (c.cut l)) → motive l) :
  motive l
  := by
  induction hn : l.length using Nat.strongRecOn generalizing l with
  | ind n ih =>
      by_cases h : l = []
      · subst h
        apply nil
      · apply chunk l h
        apply ih _ _ _ rfl
        rw [← hn]
        apply c.length_drop_cut_lt h

/-- Put together in order, the chunks are the list. -/
theorem flatten_chunks (l : List α) :
  (c.chunks l).flatten = l
  := by
  induction l using c.induction_on with
  | nil => simp
  | chunk l h ih =>
      rw [c.chunks_of_ne_nil h, List.flatten_cons, ih]
      apply List.take_append_drop

theorem chunks_ne_nil {l : List α} (h : l ≠ []) :
  c.chunks l ≠ []
  := by
  rw [c.chunks_of_ne_nil h]
  apply List.cons_ne_nil

/-- What the first chunk has and passes on to what is left, every chunk has. -/
theorem forall_chunks {P : List α → Prop} {Q : List α → Prop}
    (step : ∀ l, l ≠ [] → P l → Q (l.take (c.cut l)) ∧ P (l.drop (c.cut l)))
    {l : List α} (hl : P l) :
  ∀ chunk ∈ c.chunks l, Q chunk
  := by
  induction l using c.induction_on with
  | nil => simp
  | chunk l h ih =>
      obtain ⟨hchunk, hrest⟩ := step l h hl
      rw [c.chunks_of_ne_nil h]
      rw [List.forall_mem_cons]
      exact ⟨hchunk, ih hrest⟩

/-- What the first chunk has whenever something is left after it, every chunk but the last
has. -/
theorem forall_dropLast_chunks {P : List α → Prop} {Q : List α → Prop}
    (step : ∀ l, P l → c.cut l < l.length → Q (l.take (c.cut l)))
    (next : ∀ l, l ≠ [] → P l → P (l.drop (c.cut l))) {l : List α} (hl : P l) :
  ∀ chunk ∈ (c.chunks l).dropLast, Q chunk
  := by
  induction l using c.induction_on with
  | nil => simp
  | chunk l h ih =>
      rw [c.chunks_of_ne_nil h]
      by_cases hlt : c.cut l < l.length
      · have hrest : l.drop (c.cut l) ≠ [] := by
          rw [ne_eq, List.drop_eq_nil_iff]
          omega
        rw [List.dropLast_cons_of_ne_nil (c.chunks_ne_nil hrest)]
        rw [List.forall_mem_cons]
        exact ⟨step l hl hlt, ih (next l h hl)⟩
      · rw [List.drop_eq_nil_of_le (Nat.le_of_not_lt hlt), chunks_nil]
        simp

/-- No chunk is empty. -/
theorem ne_nil_of_mem_chunks {l chunk : List α} (h : chunk ∈ c.chunks l) :
  chunk ≠ []
  := by
  apply c.forall_chunks (P := fun _ => True) (Q := (· ≠ [])) _ trivial chunk h
  intro l hl _
  refine ⟨?_, trivial⟩
  rw [ne_eq, List.take_eq_nil_iff, not_or]
  exact ⟨Nat.ne_of_gt (c.cut_pos hl), hl⟩

/-- The chunks after the chunks `front` are those of what is left of the list behind
them. -/
theorem chunks_drop_of_append {l : List α} {front back : List (List α)}
    (h : c.chunks l = front ++ back) :
  c.chunks (l.drop front.flatten.length) = back
  := by
  induction front generalizing l with
  | nil => simpa using h
  | cons chunk front ih =>
      have hl : l ≠ [] := by
        rintro rfl
        simp at h
      rw [c.chunks_of_ne_nil hl, List.cons_append] at h
      obtain ⟨rfl, hrest⟩ := List.cons.inj h
      have hcut : (l.drop (l.take (c.cut l)).length) = l.drop (c.cut l) := by
        rw [List.length_take]
        by_cases hle : c.cut l ≤ l.length
        · rw [Nat.min_eq_left hle]
        · rw [Nat.min_eq_right (by omega), List.drop_length,
            List.drop_eq_nil_of_le (by omega)]
      rw [List.flatten_cons, List.length_append, ← List.drop_drop, hcut]
      apply ih hrest

end Cutter
