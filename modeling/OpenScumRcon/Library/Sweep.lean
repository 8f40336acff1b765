import Mathlib.Data.List.Basic
import Mathlib.Tactic.Common

/-!
# Linear sweeps

A sweep goes over a buffer from an offset to a stop. At each place a decoder, of which nothing
is known, finds something of positive length or fails, and the sweep goes on behind it or one
place further. An address advances with the offset, so it is always the first address and the
distance from the first offset.
-/

namespace Sweep

variable {α : Type}

/-- Something that a decoder has found. -/
structure Piece (α : Type) where
  length : ℕ
  positive : 0 < length
  content : α

/-- A place of a sweep, and what the decoder has found there. -/
structure Visit (α : Type) where
  offset : ℕ
  address : UInt64
  found : Option (Piece α)

/-- How far the sweep goes on. -/
def advance : Option (Piece α) → ℕ
  | none => 1
  | some piece => piece.length

theorem advance_pos (found : Option (Piece α)) :
  0 < advance found
  := by
  cases found with
  | none => apply Nat.zero_lt_one
  | some piece => apply piece.positive

/-- The places of the sweep. -/
def visits (decode : UInt64 → ℕ → Option (Piece α)) (stop offset : ℕ) (address : UInt64) :
    List (Visit α) :=
  if offset < stop then
    let found := decode address offset
    { offset, address, found } ::
      visits decode stop (offset + advance found) (address + UInt64.ofNat (advance found))
  else []
  termination_by stop - offset
  decreasing_by
    have hpositive := advance_pos (decode address offset)
    omega

/-- A place is before the stop, its address is as far from the first one as its offset, and the
decoder has been asked there. -/
theorem mem_visits {decode : UInt64 → ℕ → Option (Piece α)} {stop offset : ℕ}
    {address : UInt64} {visit : Visit α} (h : visit ∈ visits decode stop offset address) :
  ∃ k, visit.offset = offset + k ∧ offset + k < stop ∧
    visit.address = address + UInt64.ofNat k ∧
    visit.found = decode visit.address visit.offset
  := by
  fun_induction visits decode stop offset address with
  | case1 offset address hlt found ih =>
      obtain rfl | h := List.mem_cons.mp h
      · use 0
        simp [hlt, found]
      · obtain ⟨k, hoffset, hstop, haddress, hfound⟩ := ih h
        use advance found + k, by omega, by omega
        rw [haddress, UInt64.ofNat_add, UInt64.add_assoc]
        use rfl
        rw [hfound, haddress, UInt64.add_assoc]
  | case2 => contradiction

/-- The sweep starts where it is told to. -/
theorem first_mem_visits (decode : UInt64 → ℕ → Option (Piece α)) {stop offset : ℕ}
    (address : UInt64) (h : offset < stop) :
  { offset, address, found := decode address offset } ∈ visits decode stop offset address
  := by
  rw [visits, if_pos h]
  apply List.mem_cons_self

/-- The sweep comes to a place before which the decoder always fails. -/
theorem exists_mem_visits (decode : UInt64 → ℕ → Option (Piece α)) {stop offset place : ℕ}
    (address : UInt64) (hle : offset ≤ place) (hlt : place < stop)
    (h : ∀ a, ∀ o < place, decode a o = none) :
  ∃ visit ∈ visits decode stop offset address, visit.offset = place
  := by
  fun_induction visits decode stop offset address with
  | case1 offset address hstop found ih =>
      obtain rfl | hbefore := Nat.eq_or_lt_of_le hle
      · exact ⟨_, List.mem_cons_self, rfl⟩
      · have hadvance : advance found = 1 := by
          rw [show found = none from h address offset hbefore]
          rfl
        rw [hadvance] at ih
        obtain ⟨visit, hvisit, hplace⟩ := ih hbefore
        rw [hadvance]
        exact ⟨visit, List.mem_cons_of_mem _ hvisit, hplace⟩
  | case2 offset address hstop => omega

end Sweep
