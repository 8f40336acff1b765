import Mathlib.Data.List.DropRight
import Mathlib.Tactic.Common

/-!
# Trimming and words

A predicate on the elements of a list marks those that count as blank. Trimming takes the
blank elements off both ends of the list. The words of the list are the maximal non-empty
runs of elements that are not blank, in order.
-/

variable {α : Type*} (p : α → Bool)

namespace List

/-- The list without the blank elements at its ends. -/
def trim (l : List α) : List α :=
  (l.dropWhile p).rdropWhile p

/-- Neither the first nor the last element is blank. -/
def Trimmed (l : List α) : Prop :=
  (∀ x ∈ l.head?, p x = false) ∧ (∀ x ∈ l.getLast?, p x = false)

/-- What trimming takes off is blank. -/
theorem exists_trim (l : List α) :
  ∃ front back, l = front ++ l.trim p ++ back ∧ (∀ x ∈ front, p x = true) ∧
    (∀ x ∈ back, p x = true)
  := by
  use l.takeWhile p, (l.dropWhile p).rtakeWhile p
  and_intros
  · rw [trim, append_assoc, rdropWhile_append_rtakeWhile, takeWhile_append_dropWhile]
  · intro x hx
    apply mem_takeWhile_imp hx
  · intro x hx
    apply mem_rtakeWhile_imp hx

theorem head?_dropWhile_blank (l : List α) :
  ∀ x ∈ (l.dropWhile p).head?, p x = false
  := by
  induction l with
  | nil => simp
  | cons y l ih =>
      rw [dropWhile_cons]
      split
      · apply ih
      · next hy => simpa using hy

/-- A trimmed list has no blanks around it. -/
theorem trimmed_trim (l : List α) :
  (l.trim p).Trimmed p
  := by
  constructor
  · intro x hx
    apply head?_dropWhile_blank p l x
    obtain ⟨rest, hrest⟩ := rdropWhile_prefix p (l.dropWhile p)
    change x ∈ ((l.dropWhile p).rdropWhile p).head? at hx
    rw [← hrest, head?_append, hx]
    rfl
  · intro x hx
    have hne : (l.dropWhile p).rdropWhile p ≠ [] := by
      intro hnil
      rw [trim, hnil] at hx
      cases hx
    have hlast := rdropWhile_last_not p (l.dropWhile p) hne
    rw [trim, getLast?_eq_some_getLast hne] at hx
    rw [← Option.some.inj hx]
    simpa using hlast

theorem length_trim_le (l : List α) :
  (l.trim p).length ≤ l.length
  := by
  have hback := rdropWhile_prefix p (l.dropWhile p)
  apply Nat.le_trans hback.length_le
  apply (dropWhile_suffix p).length_le

/-- A list whose ends are not blank is what is left of it between blank elements. -/
theorem trim_append {front l back : List α} (hl : l.Trimmed p) (hne : l ≠ [])
    (hfront : ∀ x ∈ front, p x = true) (hback : ∀ x ∈ back, p x = true) :
  (front ++ l ++ back).trim p = l
  := by
  have hdrop : (front ++ l ++ back).dropWhile p = l ++ back := by
    obtain ⟨x, l', rfl⟩ := exists_cons_of_ne_nil hne
    have hx : p x = false := hl.1 x rfl
    rw [append_assoc, dropWhile_append_of_pos hfront, cons_append, dropWhile_cons_of_neg]
    simp [hx]
  have hlast : p (l.getLast hne) = false := by
    apply hl.2
    rw [getLast?_eq_some_getLast hne]
    rfl
  have hrdrop : (l ++ back).rdropWhile p = l := by
    rw [rdropWhile, reverse_append, dropWhile_append_of_pos (by simpa using hback),
      ← rdropWhile, rdropWhile_eq_self_iff]
    intro _
    simp [hlast]
  rw [trim, hdrop, hrdrop]

theorem Trimmed.trim_eq {l : List α} (h : l.Trimmed p) :
  l.trim p = l
  := by
  rcases eq_or_ne l [] with rfl | hne
  · rfl
  · have hnil : ∀ x ∈ ([] : List α), p x = true := by simp
    simpa using trim_append p h hne hnil hnil

/-- A list that begins with a blank element and does not end with one is a run of blank
elements and a trimmed list. -/
theorem exists_blank_run {l : List α} (hne : l ≠ []) (hhead : ∀ x ∈ l.head?, p x = true)
    (hlast : ∀ x ∈ l.getLast?, p x = false) :
  ∃ gap rest, l = gap ++ rest ∧ gap ≠ [] ∧ (∀ x ∈ gap, p x = true) ∧ rest ≠ [] ∧ rest.Trimmed p
  := by
  have hsplit : l.takeWhile p ++ l.dropWhile p = l := takeWhile_append_dropWhile
  have hgap : ∀ x ∈ l.takeWhile p, p x = true := by
    intro x hx
    apply mem_takeWhile_imp hx
  have hgapne : l.takeWhile p ≠ [] := by
    obtain ⟨x, l', rfl⟩ := exists_cons_of_ne_nil hne
    rw [takeWhile_cons_of_pos (hhead x rfl)]
    apply cons_ne_nil
  have hrestne : l.dropWhile p ≠ [] := by
    intro hnil
    rw [hnil, append_nil] at hsplit
    have hblank := hgap (l.getLast hne) (by rw [hsplit]; apply getLast_mem)
    rw [hlast _ (getLast?_eq_some_getLast hne)] at hblank
    cases hblank
  use l.takeWhile p, l.dropWhile p, hsplit.symm, hgapne, hgap, hrestne
  constructor
  · apply head?_dropWhile_blank
  · intro x hx
    apply hlast
    rw [← hsplit, getLast?_append_of_ne_nil _ hrestne]
    apply hx

/-- A list that does not begin with a blank element is a run of elements that are not blank,
up to the first blank one. -/
theorem exists_word {l : List α} (hne : l ≠ []) (hhead : ∀ x ∈ l.head?, p x = false) :
  ∃ word rest, l = word ++ rest ∧ word ≠ [] ∧ (∀ x ∈ word, p x = false) ∧
    (∀ x ∈ rest.head?, p x = true)
  := by
  have hsplit : l.takeWhile (fun x => !p x) ++ l.dropWhile (fun x => !p x) = l :=
    takeWhile_append_dropWhile
  have hwordne : l.takeWhile (fun x => !p x) ≠ [] := by
    obtain ⟨x, l', rfl⟩ := exists_cons_of_ne_nil hne
    rw [takeWhile_cons_of_pos (by rw [hhead x rfl]; rfl)]
    apply cons_ne_nil
  use l.takeWhile (fun x => !p x), l.dropWhile (fun x => !p x), hsplit.symm, hwordne
  constructor
  · intro x hx
    simpa using mem_takeWhile_imp hx
  · intro x hx
    simpa using head?_dropWhile_blank _ _ x hx

/-- The words of a list. -/
def words (l : List α) : List (List α) :=
  (l.splitOnP p).filter (fun word => !word.isEmpty)

@[simp]
theorem words_nil :
  ([] : List α).words p = []
  := rfl

/-- Blank elements in front of a list add no word. -/
theorem words_append_of_blank {front : List α} (h : ∀ x ∈ front, p x = true) (l : List α) :
  (front ++ l).words p = l.words p
  := by
  induction front with
  | nil => rfl
  | cons x front ih =>
      have hx : p x = true := h x mem_cons_self
      have hrest := ih (fun y hy => h y (mem_cons_of_mem _ hy))
      rw [← hrest, words, cons_append, splitOnP_cons_eq_if_modifyHead, if_pos hx]
      rfl

/-- A run of elements that are not blank is the first word when a blank element or nothing
comes behind it. -/
theorem words_append_of_not_blank {word l : List α} (hne : word ≠ [])
    (h : ∀ x ∈ word, p x = false) (hl : ∀ x ∈ l.head?, p x = true) :
  (word ++ l).words p = word :: l.words p
  := by
  cases l with
  | nil =>
      rw [append_nil, words, splitOnP_eq_singleton h, words_nil]
      simp [hne]
  | cons y l =>
      have hy : p y = true := hl y rfl
      have hrest := words_append_of_blank p (by simpa using hy : ∀ x ∈ [y], p x = true) l
      rw [singleton_append] at hrest
      rw [hrest, words, splitOnP_append_cons_of_forall_mem h y hy]
      simp [words, hne]

end List
