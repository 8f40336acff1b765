import OpenScumRcon.Library.LittleEndian

/-!
# Fields of a buffer

Reading a field at an offset of a buffer. A read that leaves the buffer gives the first index
outside of it as an error, so a computation is safe when all that it reads is inside.
-/

namespace Fields

variable {α β : Type}

/-- The bytes of a field, or the first index of it that is not in the buffer. -/
def bytesAt (buffer : List UInt8) (i size : ℕ) : Except ℕ (List UInt8) :=
  if i + size ≤ buffer.length then .ok ((buffer.drop i).take size)
  else .error (max i buffer.length)

/-- The number that the bytes of a field present. -/
def value (buffer : List UInt8) (i size : ℕ) : ℕ :=
  LittleEndian.decode ((buffer.drop i).take size)

/-- Reads the number at an offset. -/
def numberAt (buffer : List UInt8) (i size : ℕ) : Except ℕ ℕ :=
  (bytesAt buffer i size).map LittleEndian.decode

/-- All reads of the computation are inside the buffer. -/
def Safe (x : Except ℕ α) : Prop :=
  ∃ a, x = .ok a

theorem safe_pure (a : α) :
  Safe (pure a)
  := ⟨a, rfl⟩

theorem not_safe_error (i : ℕ) :
  ¬ Safe (.error i : Except ℕ α)
  := by
  rintro ⟨a, ha⟩
  cases ha

/-- A sequence is safe when its first part is, and what follows is at the first part's value. -/
theorem safe_bind_iff {x : Except ℕ α} {f : α → Except ℕ β} :
  Safe (x >>= f) ↔ ∃ a, x = .ok a ∧ Safe (f a)
  := by
  cases x with
  | error i =>
      constructor
      · intro h
        exfalso
        apply not_safe_error i h
      · rintro ⟨a, ha, -⟩
        cases ha
  | ok a =>
      constructor
      · intro h
        exact ⟨a, rfl, h⟩
      · rintro ⟨_, ⟨⟩, h⟩
        apply h

/-- A computation on a value that was read accesses nothing. -/
theorem safe_bind_pure_iff {x : Except ℕ α} {f : α → β} :
  Safe (x >>= fun a => pure (f a)) ↔ Safe x
  := by
  rw [safe_bind_iff]
  constructor
  · rintro ⟨a, ha, -⟩
    exact ⟨a, ha⟩
  · rintro ⟨a, ha⟩
    exact ⟨a, ha, safe_pure (f a)⟩

/-- A field is read safely when it ends inside the buffer. -/
theorem safe_bytesAt_bind_iff {buffer : List UInt8} {i size : ℕ}
    {f : List UInt8 → Except ℕ β} :
  Safe (bytesAt buffer i size >>= f) ↔
    i + size ≤ buffer.length ∧ Safe (f ((buffer.drop i).take size))
  := by
  rw [safe_bind_iff, bytesAt]
  split
  · next hle => simp [hle]
  · next hlt => simp [hlt]

/-- A number is read inside the buffer, and the rest goes on with its value. -/
theorem safe_numberAt_bind_iff {buffer : List UInt8} {i size : ℕ} {f : ℕ → Except ℕ β} :
  Safe (numberAt buffer i size >>= f) ↔
    i + size ≤ buffer.length ∧ Safe (f (value buffer i size))
  := by
  rw [safe_bind_iff, numberAt, bytesAt, value]
  split
  · next hle => simp [hle, Except.map]
  · next hlt => simp [hlt, Except.map]

/-- Only the branch taken has to be safe. -/
theorem safe_ite_iff {p : Prop} [Decidable p] {x y : Except ℕ α} :
  Safe (if p then x else y) ↔ (p → Safe x) ∧ (¬ p → Safe y)
  := by
  split
  · next h => simp [h]
  · next h => simp [h]

end Fields
