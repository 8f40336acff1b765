import Mathlib.Data.List.Basic
import Mathlib.Tactic.Common

/-!
# Searching a pattern

The places at which a pattern stands in a text, for any comparison of their elements: the
first one, and all of them in order. With a comparison that is equality they are the places at
which the pattern is a prefix of the rest of the text.
-/

namespace Search

variable {α β : Type}

/-- The pattern stands at the beginning of the text. -/
def startsWith (same : α → β → Bool) : List α → List β → Bool
  | _, [] => true
  | [], _ :: _ => false
  | a :: text, b :: pattern => same a b && startsWith same text pattern

/-- The first place at which the pattern stands, or the end of the text. -/
def first (same : α → β → Bool) (pattern : List β) : List α → ℕ
  | [] => 0
  | a :: text =>
      if startsWith same (a :: text) pattern then 0 else first same pattern text + 1

/-- The places of the text behind `offset` that the search goes on to find. -/
def all (same : α → β → Bool) (pattern : List β) (text : List α) (offset : ℕ) : List ℕ :=
  let place := first same pattern text
  if place < text.length then
    (offset + place) :: all same pattern (text.drop (place + 1)) (offset + place + 1)
  else []
  termination_by text.length
  decreasing_by
    rw [List.length_drop]
    omega

/-! ### The places found -/

theorem startsWith_first {same : α → β → Bool} {pattern : List β} {text : List α}
    (h : first same pattern text < text.length) :
  startsWith same (text.drop (first same pattern text)) pattern = true
  := by
  induction text with
  | nil => contradiction
  | cons a text ih =>
      rw [first] at h ⊢
      split
      · next hstarts => apply hstarts
      · next hstarts =>
          rw [if_neg hstarts] at h
          rw [List.drop_succ_cons]
          apply ih
          apply Nat.lt_of_succ_lt_succ h

/-- The pattern does not stand before the first place. -/
theorem first_le {same : α → β → Bool} {pattern : List β} {text : List α} {i : ℕ}
    (h : startsWith same (text.drop i) pattern = true) (hi : i < text.length) :
  first same pattern text ≤ i
  := by
  induction text generalizing i with
  | nil => contradiction
  | cons a text ih =>
      rw [first]
      split
      · apply Nat.zero_le
      · next hstarts =>
          cases i with
          | zero => contradiction
          | succ i =>
              apply Nat.succ_le_succ
              apply ih h
              apply Nat.lt_of_succ_lt_succ hi

/-- The search finds the places behind the offset at which the pattern stands. -/
theorem mem_all_iff {same : α → β → Bool} {pattern : List β} {text : List α}
    {offset i : ℕ} :
  i ∈ all same pattern text offset ↔
    ∃ k < text.length, i = offset + k ∧ startsWith same (text.drop k) pattern = true
  := by
  fun_induction all same pattern text offset with
  | case1 text offset place hplace ih =>
      rw [List.mem_cons, ih]
      constructor
      · rintro (rfl | ⟨k, hk, rfl, hstarts⟩)
        · exact ⟨place, hplace, rfl, startsWith_first hplace⟩
        · rw [List.length_drop] at hk
          rw [List.drop_drop] at hstarts
          use place + 1 + k, by omega, by omega
      · rintro ⟨k, hk, rfl, hstarts⟩
        have hle : place ≤ k := first_le hstarts hk
        obtain rfl | hlt := Nat.eq_or_lt_of_le hle
        · left
          rfl
        · right
          obtain ⟨m, rfl⟩ := Nat.exists_eq_add_of_le hlt
          use m, by rw [List.length_drop]; omega, by omega
          rw [List.drop_drop]
          apply hstarts
  | case2 text offset place hplace =>
      constructor
      · intro h
        contradiction
      · rintro ⟨k, hk, -, hstarts⟩
        have hle := first_le hstarts hk
        omega

/-- The places are found in order, and none twice. -/
theorem pairwise_all (same : α → β → Bool) (pattern : List β) (text : List α) (offset : ℕ) :
  (all same pattern text offset).Pairwise (· < ·)
  := by
  fun_induction all same pattern text offset with
  | case1 text offset place hplace ih =>
      rw [List.pairwise_cons]
      use fun i hi => ?_, ih
      obtain ⟨k, -, rfl, -⟩ := mem_all_iff.mp hi
      omega
  | case2 => apply List.Pairwise.nil

/-! ### Comparisons -/

/-- Where the comparison with each element of the pattern is equality, the pattern stands where
it is a prefix. -/
theorem startsWith_iff_isPrefix {same : α → α → Bool} {pattern : List α}
    (h : ∀ b ∈ pattern, ∀ a, same a b = true ↔ a = b) {text : List α} :
  startsWith same text pattern = true ↔ pattern <+: text
  := by
  induction pattern generalizing text with
  | nil => simp [startsWith]
  | cons b pattern ih =>
      cases text with
      | nil => simp [startsWith]
      | cons a text =>
          rw [List.forall_mem_cons] at h
          rw [startsWith, Bool.and_eq_true, h.1, ih h.2, List.cons_prefix_cons]
          apply and_congr_left'
          apply eq_comm

/-- A pattern with an element that compares equal to nothing stands nowhere. -/
theorem startsWith_eq_false {same : α → β → Bool} {pattern : List β} {b : β}
    (hb : b ∈ pattern) (h : ∀ a, same a b = false) (text : List α) :
  startsWith same text pattern = false
  := by
  induction pattern generalizing text with
  | nil => contradiction
  | cons c pattern ih =>
      cases text with
      | nil => rfl
      | cons a text =>
          rw [startsWith]
          obtain rfl | hb := List.mem_cons.mp hb
          · rw [h, Bool.false_and]
          · rw [ih hb, Bool.and_false]

end Search
