import OpenScumRcon.Bytes
import OpenScumRcon.Library.Search

/-!
# The pattern search of the scanner

The scanner looks for patterns among the bytes of a file. A byte of the file is a
`std::uint8_t` and one of the pattern a `char`, which is signed. Before they are compared both
become an `int`, so a byte from 128 on is never equal to the `char` with the same bits. The
search is exact for patterns of ASCII, and finds no other pattern at all.
-/

namespace OpenScumRcon

namespace PeXrefScanner

/-- `==` between a byte of the file and a `char` of the pattern, given by its bits. -/
def sameByte (byte char : UInt8) : Bool :=
  (byte.toNat : ℤ) = char.toInt8.toInt

def findAllAscii (bytes needle : Bytes) : List ℕ :=
  if needle = [] then [] else Search.all sameByte needle bytes 0

/-- The pattern of the option `ptr:`. -/
def pointerNeedle (va : UInt64) : Bytes :=
  (List.range 8).map fun b => ((va >>> UInt64.ofNat (b * 8)) &&& 0xff).toUInt8

/-- The offset is one of the pattern in the bytes. -/
def OccursAt (bytes needle : Bytes) (i : ℕ) : Prop :=
  needle <+: bytes.drop i

/-- The offsets are those of the pattern, in order. -/
def Exact (bytes needle : Bytes) (offsets : List ℕ) : Prop :=
  offsets.Pairwise (· < ·) ∧ ∀ i, i ∈ offsets ↔ OccursAt bytes needle i

/-! ### The comparison -/

/-- The value of a `char` with the bits of a byte. -/
theorem toInt_toInt8 (char : UInt8) :
  char.toInt8.toInt = if char.toNat < 128 then (char.toNat : ℤ) else char.toNat - 256
  := by
  have hcond := BitVec.toInt_eq_toNat_cond char.toBitVec
  change char.toBitVec.toInt = _
  rw [hcond, UInt8.toNat_toBitVec]
  split
  · rw [if_pos (by omega)]
  · rw [if_neg (by omega)]
    rfl

theorem sameByte_of_lt {char : UInt8} (h : char.toNat < 128) (byte : UInt8) :
  sameByte byte char = true ↔ byte = char
  := by
  rw [sameByte, decide_eq_true_iff, toInt_toInt8, if_pos h, Int.natCast_inj, UInt8.toNat_inj]

theorem sameByte_of_le {char : UInt8} (h : 128 ≤ char.toNat) (byte : UInt8) :
  sameByte byte char = false
  := by
  have hlt := char.toNat_lt
  rw [sameByte, decide_eq_false_iff_not, toInt_toInt8, if_neg (Nat.not_lt.mpr h)]
  omega

/-! ### Exactness -/

/-- A pattern that is not empty occurs only inside the bytes. -/
theorem OccursAt.lt_length {bytes needle : Bytes} {i : ℕ} (hneedle : needle ≠ [])
    (h : OccursAt bytes needle i) :
  i < bytes.length
  := by
  have hlength := h.length_le
  have hpositive := List.length_pos_iff.mpr hneedle
  rw [List.length_drop] at hlength
  omega

theorem pairwise_findAllAscii (bytes needle : Bytes) :
  (findAllAscii bytes needle).Pairwise (· < ·)
  := by
  rw [findAllAscii]
  split
  · apply List.Pairwise.nil
  · apply Search.pairwise_all

/-- The search is exact for patterns of ASCII. -/
theorem exact_of_ascii {bytes needle : Bytes} (hneedle : needle ≠ [])
    (h : ∀ c ∈ needle, c.toNat < 128) :
  Exact bytes needle (findAllAscii bytes needle)
  := by
  use pairwise_findAllAscii bytes needle
  intro i
  have hstarts (text : Bytes) :
      Search.startsWith sameByte text needle = true ↔ needle <+: text :=
    Search.startsWith_iff_isPrefix fun c hc => sameByte_of_lt (h c hc)
  rw [findAllAscii, if_neg hneedle, Search.mem_all_iff]
  constructor
  · rintro ⟨k, -, rfl, hk⟩
    rw [Nat.zero_add]
    apply (hstarts _).mp hk
  · intro hoccurs
    exact ⟨i, hoccurs.lt_length hneedle, (Nat.zero_add i).symm, (hstarts _).mpr hoccurs⟩

/-- The search finds nothing when a byte of the pattern is not ASCII. -/
theorem findAllAscii_eq_nil {bytes needle : Bytes} {c : UInt8} (hc : c ∈ needle)
    (h : 128 ≤ c.toNat) :
  findAllAscii bytes needle = []
  := by
  rw [findAllAscii, if_neg (List.ne_nil_of_mem hc), List.eq_nil_iff_forall_not_mem]
  intro i hi
  obtain ⟨k, -, -, hstarts⟩ := Search.mem_all_iff.mp hi
  rw [Search.startsWith_eq_false hc (sameByte_of_le h)] at hstarts
  contradiction

/-- The search is exact exactly when the pattern is ASCII or does not occur. -/
theorem findAllAscii_exact_iff (bytes needle : Bytes) (hneedle : needle ≠ []) :
  Exact bytes needle (findAllAscii bytes needle) ↔
    (∀ c ∈ needle, c.toNat < 128) ∨ ∀ i, ¬ OccursAt bytes needle i
  := by
  by_cases hascii : ∀ c ∈ needle, c.toNat < 128
  · exact ⟨fun _ => .inl hascii, fun _ => exact_of_ascii hneedle hascii⟩
  · have hnil : findAllAscii bytes needle = [] := by
      rw [not_forall₂] at hascii
      obtain ⟨c, hc, hle⟩ := hascii
      apply findAllAscii_eq_nil hc (Nat.le_of_not_lt hle)
    rw [Exact, hnil]
    constructor
    · rintro ⟨-, hmem⟩
      right
      intro i hoccurs
      apply List.not_mem_nil ((hmem i).mpr hoccurs)
    · rintro (hall | hnone)
      · contradiction
      · use List.Pairwise.nil
        intro i
        constructor
        · intro hi
          contradiction
        · intro hoccurs
          exfalso
          apply hnone i hoccurs

theorem findAllAscii_exact_iff_mz :
  Exact [0x4d, 0x5a, 0x4d, 0x5a] [0x4d, 0x5a] (findAllAscii [0x4d, 0x5a, 0x4d, 0x5a] [0x4d, 0x5a])
  := (findAllAscii_exact_iff [0x4d, 0x5a, 0x4d, 0x5a] [0x4d, 0x5a] (by decide)).mpr
    (.inl (forall_mem_of_all (by decide)))

/-- The pointer whose search came out empty is not found in a file that consists of it. -/
theorem findAllAscii_not_exact :
  OccursAt (pointerNeedle 0x1418c7b60) (pointerNeedle 0x1418c7b60) 0 ∧
    findAllAscii (pointerNeedle 0x1418c7b60) (pointerNeedle 0x1418c7b60) = [] ∧
    ¬ Exact (pointerNeedle 0x1418c7b60) (pointerNeedle 0x1418c7b60)
      (findAllAscii (pointerNeedle 0x1418c7b60) (pointerNeedle 0x1418c7b60))
  := by
  have hoccurs : OccursAt (pointerNeedle 0x1418c7b60) (pointerNeedle 0x1418c7b60) 0 := by
    apply List.prefix_rfl
  have hnil : findAllAscii (pointerNeedle 0x1418c7b60) (pointerNeedle 0x1418c7b60) = [] := by
    apply findAllAscii_eq_nil (c := 0x8c)
    · decide
    · decide
  use hoccurs, hnil
  rintro ⟨-, hmem⟩
  rw [hnil] at hmem
  apply List.not_mem_nil ((hmem 0).mpr hoccurs)

end PeXrefScanner

end OpenScumRcon
