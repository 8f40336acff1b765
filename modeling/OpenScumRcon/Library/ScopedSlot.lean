import Mathlib.Data.List.Basic
import Mathlib.Data.Option.Basic

/-!
# A slot that one call of a stack holds

A call may put something into a slot, for as long as it is open, when the slot is empty. The
open calls are a stack, the innermost one first, and `held` is what a call has in the slot. As
no other call puts anything in before, at most one open call holds the slot, and it is empty
again when none is open.
-/

namespace ScopedSlot

variable {F A : Type*} {held : F → Option A}

/-- The slot has in it what the calls of the stack hold. -/
def Scoped (held : F → Option A) (stack : List F) (slot : Option A) : Prop :=
  stack.filterMap held = slot.toList

theorem scoped_nil_iff {slot : Option A} :
  Scoped held [] slot ↔ slot = none
  := by
  cases slot <;> simp [Scoped]

/-- A call that holds nothing may come and go. -/
theorem scoped_cons_iff_of_eq_none {call : F} {stack : List F} {slot : Option A}
    (h : held call = none) :
  Scoped held (call :: stack) slot ↔ Scoped held stack slot
  := by
  rw [Scoped, List.filterMap_cons_none h]
  rfl

/-- A call that holds the slot has found it empty. -/
theorem scoped_cons_iff_of_eq_some {call : F} {stack : List F} {slot : Option A} {a : A}
    (h : held call = some a) :
  Scoped held (call :: stack) slot ↔ slot = some a ∧ Scoped held stack none
  := by
  rw [Scoped, Scoped, List.filterMap_cons_some h]
  cases slot with
  | none => simp
  | some b =>
      rw [Option.toList_some, Option.toList_none, List.cons.injEq, Option.some.injEq]
      constructor
      · rintro ⟨rfl, hrest⟩
        use rfl
      · rintro ⟨rfl, hrest⟩
        use rfl

/-- No call holds an empty slot. -/
theorem Scoped.eq_none {stack : List F} (h : Scoped held stack none) {call : F}
    (hmem : call ∈ stack) :
  held call = none
  := by
  apply List.filterMap_eq_nil_iff.mp h call hmem

end ScopedSlot
