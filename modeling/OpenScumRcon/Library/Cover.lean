import Mathlib.Data.List.Basic
import Mathlib.Tactic.Common

/-!
# Lookups among items that cover keys apart

Each item of a list covers some keys. When no two items cover the same key, the first item that
covers a key is the only one, so the order of the items does not matter.
-/

namespace Cover

variable {α κ : Type} {covers : α → κ → Prop} {items : List α} {a b : α} {k : κ}

/-- No two items cover the same key. -/
def Apart (covers : α → κ → Prop) (items : List α) : Prop :=
  items.Pairwise fun a b => ∀ k, covers a k → ¬ covers b k

/-- Two items that cover one point are the same. -/
theorem Apart.eq (h : Apart covers items) (ha : a ∈ items) (hb : b ∈ items)
    (hak : covers a k) (hbk : covers b k) :
  a = b
  := by
  induction items with
  | nil => contradiction
  | cons c items ih =>
      obtain ⟨hc, h⟩ := List.pairwise_cons.mp h
      obtain hac | ha := List.mem_cons.mp ha
      · obtain hbc | hb := List.mem_cons.mp hb
        · rw [hac, hbc]
        · exfalso
          rw [hac] at hak
          apply hc b hb k hak hbk
      · obtain hbc | hb := List.mem_cons.mp hb
        · exfalso
          rw [hbc] at hbk
          apply hc a ha k hbk hak
        · apply ih h ha hb

variable [∀ a k, Decidable (covers a k)]

theorem covers_of_find? (h : items.find? (fun a => covers a k) = some a) :
  covers a k
  := by
  have hdecide := List.find?_some h
  apply of_decide_eq_true hdecide

/-- The item that covers a key is the one that is found. -/
theorem Apart.find?_eq_some_iff (h : Apart covers items) :
  items.find? (fun a => covers a k) = some a ↔ a ∈ items ∧ covers a k
  := by
  constructor
  · intro hfind
    exact ⟨List.mem_of_find?_eq_some hfind, covers_of_find? hfind⟩
  · rintro ⟨ha, hak⟩
    obtain ⟨b, hfind⟩ : ∃ b, items.find? (fun a => covers a k) = some b := by
      rw [← Option.isSome_iff_exists, List.find?_isSome]
      exact ⟨a, ha, decide_eq_true hak⟩
    rw [hfind, h.eq ha (List.mem_of_find?_eq_some hfind) hak (covers_of_find? hfind)]

/-- The search fails exactly where nothing covers the point. -/
theorem find?_eq_none_iff :
  items.find? (fun a => covers a k) = none ↔ ∀ a ∈ items, ¬ covers a k
  := by
  rw [List.find?_eq_none]
  simp only [decide_eq_true_iff]

end Cover
