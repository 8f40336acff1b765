import Mathlib.Data.List.Find
import OpenScumRcon.Library.Cover
import OpenScumRcon.PeImage

/-!
# The translations of addresses

File offsets are translated by the raw size of a section and RVAs by its virtual size. On a
table of sections that do not overlap the two translations are inverse to each other, and stay
inside the raw data, exactly when the two sizes of each section agree.
-/

namespace OpenScumRcon

namespace PeXrefScanner

/-- The range of a section contains the position. -/
def Section.Covers (start size : Section → UInt32) (s : Section) (x : ℕ) : Prop :=
  (start s).toNat ≤ x ∧ x < (start s).toNat + (size s).toNat

instance (start size : Section → UInt32) (s : Section) (x : ℕ) :
    Decidable (s.Covers start size x) :=
  inferInstanceAs (Decidable (_ ∧ _))

/-- The raw data of the section contains the file offset. -/
abbrev Section.HoldsOffset : Section → ℕ → Prop :=
  Section.Covers Section.pointerToRawData Section.sizeOfRawData

/-- The section contains the RVA. -/
abbrev Section.HoldsRva : Section → ℕ → Prop :=
  Section.Covers Section.virtualAddress Section.virtualSize

/-- The ranges of the sections do not overlap, and end before `2 ^ 32`. -/
structure Placed (start size : Section → UInt32) (sections : List Section) : Prop where
  apart : Cover.Apart (Section.Covers start size) sections
  bounded : ∀ s ∈ sections, (start s).toNat + (size s).toNat < 2 ^ 32

/-- A table of sections whose raw data and whose addresses are placed well. -/
structure WellPlaced (sections : List Section) : Prop where
  raw : Placed Section.pointerToRawData Section.sizeOfRawData sections
  virtual : Placed Section.virtualAddress Section.virtualSize sections

/-- The place from the target on of a position in a section. -/
def Section.place (start target : Section → UInt32) (s : Section) (x : ℕ) : ℕ :=
  (target s).toNat + (x - (start s).toNat)

namespace PeImage

/-! ### One translation -/

variable {image : PeImage} {start size target : Section → UInt32} {x : UInt64} {s : Section}

/-- In a section that ends before `2 ^ 32` the sum of 32 bits is the end. -/
theorem covers_iff (h : (start s).toNat + (size s).toNat < 2 ^ 32) :
  (start s).toUInt64 ≤ x ∧ x < (start s + size s).toUInt64 ↔ s.Covers start size x.toNat
  := by
  rw [UInt64.le_iff_toNat_le, UInt64.lt_iff_toNat_lt, UInt32.toNat_toUInt64,
    UInt32.toNat_toUInt64, UInt32.toNat_add, Nat.mod_eq_of_lt h]
  rfl

theorem find?_eq (h : Placed start size image.sections) :
  image.sections.find? (fun s => (start s).toUInt64 ≤ x ∧ x < (start s + size s).toUInt64) =
    image.sections.find? fun s => s.Covers start size x.toNat
  := by
  apply List.find?_congr
  intro s hs
  rw [decide_eq_decide]
  apply covers_iff (h.bounded s hs)

theorem place_lt (target : Section → UInt32) (h : Placed start size image.sections) (hs : s ∈ image.sections)
    (hx : s.Covers start size x.toNat) :
  s.place start target x.toNat < 2 ^ 33
  := by
  have htarget := (target s).toNat_lt
  have hend := h.bounded s hs
  have hlt := hx.2
  rw [Section.place]
  omega

/-- A position in a section is translated by its place in the section. -/
theorem translate_of_covers (h : Placed start size image.sections) (hs : s ∈ image.sections)
    (hx : s.Covers start size x.toNat) :
  image.translate start size target x = (UInt64.ofNat (s.place start target x.toNat)).toInt64
  := by
  have hfind := h.apart.find?_eq_some_iff.mpr ⟨hs, hx⟩
  have hplace := place_lt target h hs hx
  have hstart : (start s).toUInt64 ≤ x := by
    rw [UInt64.le_iff_toNat_le, UInt32.toNat_toUInt64]
    apply hx.1
  rw [translate, find?_eq h, hfind]
  apply congrArg UInt64.toInt64
  rw [← UInt64.toNat_inj, UInt64.toNat_ofNat', UInt64.toNat_add, UInt32.toNat_toUInt64,
    UInt64.toNat_sub_of_le _ _ hstart, UInt32.toNat_toUInt64]
  rfl

/-- Only positions in sections are translated. -/
theorem translate_of_not_covers (h : Placed start size image.sections)
    (hx : ∀ s ∈ image.sections, ¬ s.Covers start size x.toNat) :
  image.translate start size target x = -1
  := by
  rw [translate, find?_eq h, Cover.find?_eq_none_iff.mpr hx]

theorem toInt64_ofNat_nonneg {n : ℕ} (h : n < 2 ^ 63) :
  0 ≤ (UInt64.ofNat n).toInt64
  := by
  rw [UInt64.toInt64_ofNat', Int64.le_iff_toInt_le, Int64.toInt_ofNat_of_lt h, Int64.toInt_zero]
  apply Int.natCast_nonneg

theorem translate_nonneg_iff (target : Section → UInt32) (h : Placed start size image.sections) :
  0 ≤ image.translate start size target x ↔
    ∃ s ∈ image.sections, s.Covers start size x.toNat
  := by
  constructor
  · intro hnonneg
    by_contra hnone
    push Not at hnone
    rw [translate_of_not_covers h hnone] at hnonneg
    contradiction
  · rintro ⟨s, hs, hx⟩
    have hplace := place_lt target h hs hx
    rw [translate_of_covers h hs hx]
    apply toInt64_ofNat_nonneg
    omega

/-- The number of a translated position. -/
theorem toNat_translate (target : Section → UInt32) (h : Placed start size image.sections)
    (hs : s ∈ image.sections) (hx : s.Covers start size x.toNat) :
  (image.translate start size target x).toUInt64.toNat = s.place start target x.toNat
  := by
  have hplace := place_lt target h hs hx
  rw [translate_of_covers h hs hx, UInt64.toUInt64_toInt64, UInt64.toNat_ofNat',
    Nat.mod_eq_of_lt (by omega)]

/-! ### Both translations -/

/-- A position translated forth and back, where the section keeps it in both ranges. -/
theorem translate_translate {size' : Section → UInt32}
    (h : Placed start size image.sections) (h' : Placed target size' image.sections)
    (hs : s ∈ image.sections) (hx : s.Covers start size x.toNat)
    (hplace : s.Covers target size' (s.place start target x.toNat)) :
  image.translate target size' start (image.translate start size target x).toUInt64 = x.toInt64
  := by
  have hback : s.place target start (s.place start target x.toNat) = x.toNat := by
    have hstart := hx.1
    rw [Section.place, Section.place]
    omega
  rw [← toNat_translate _ h hs hx] at hplace hback
  rw [translate_of_covers h' hs hplace, hback, UInt64.ofNat_toNat]

/-- Where the sizes agree, a position keeps its section. -/
theorem covers_place {size' : Section → UInt32} {n : ℕ} (hsize : size s = size' s)
    (hx : s.Covers start size n) :
  s.Covers target size' (s.place start target n)
  := by
  obtain ⟨hle, hlt⟩ := hx
  rw [hsize] at hlt
  rw [Section.Covers, Section.place]
  omega

/-- The translations are inverse to each other, and the translation of an RVA is a file offset
in the raw data of its section. -/
structure Invertible (image : PeImage) : Prop where
  rva : ∀ o, 0 ≤ image.fileOffsetToRva o →
    image.rvaToFileOffset (image.fileOffsetToRva o).toUInt64 = o.toInt64
  offset : ∀ r, 0 ≤ image.rvaToFileOffset r →
    image.fileOffsetToRva (image.rvaToFileOffset r).toUInt64 = r.toInt64
  inside : ∀ r, 0 ≤ image.rvaToFileOffset r → ∀ s ∈ image.sections, s.HoldsRva r.toNat →
    s.HoldsOffset (image.rvaToFileOffset r).toUInt64.toNat

theorem invertible_of_sizes (h : WellPlaced image.sections)
    (hsizes : ∀ s ∈ image.sections, s.virtualSize = s.sizeOfRawData) :
  image.Invertible
  where
  rva o ho := by
    obtain ⟨s, hs, hx⟩ := (translate_nonneg_iff _ h.raw).mp ho
    apply translate_translate h.raw h.virtual hs hx
    apply covers_place (hsizes s hs).symm hx
  offset r hr := by
    obtain ⟨s, hs, hx⟩ := (translate_nonneg_iff _ h.virtual).mp hr
    apply translate_translate h.virtual h.raw hs hx
    apply covers_place (hsizes s hs) hx
  inside r _ s hs hx := by
    rw [rvaToFileOffset, toNat_translate _ h.virtual hs hx]
    apply covers_place (hsizes s hs) hx

/-- The first RVA behind the raw data is not one of the section. -/
theorem Invertible.virtualSize_le (h : image.Invertible) (hplaced : WellPlaced image.sections)
    (hs : s ∈ image.sections) :
  s.virtualSize.toNat ≤ s.sizeOfRawData.toNat
  := by
  have hend := hplaced.virtual.bounded s hs
  by_contra hlt
  have hrva : (UInt64.ofNat (s.virtualAddress.toNat + s.sizeOfRawData.toNat)).toNat =
      s.virtualAddress.toNat + s.sizeOfRawData.toNat := by
    rw [UInt64.toNat_ofNat']
    omega
  have hx : s.HoldsRva
      (UInt64.ofNat (s.virtualAddress.toNat + s.sizeOfRawData.toNat)).toNat := by
    rw [hrva]
    constructor
    · apply Nat.le_add_right
    · omega
  have hinside := h.inside _ ((translate_nonneg_iff _ hplaced.virtual).mpr ⟨s, hs, hx⟩) s hs hx
  rw [rvaToFileOffset, toNat_translate _ hplaced.virtual hs hx, Section.place, hrva] at hinside
  have hraw := hinside.2
  omega

/-- A file offset that is translated back is in the section of its RVA. -/
theorem Invertible.holdsRva_of_holdsOffset (h : image.Invertible)
    (hplaced : WellPlaced image.sections) (hs : s ∈ image.sections) (hx : s.HoldsOffset x.toNat)
    (hbound : x.toNat < 2 ^ 63) :
  s.HoldsRva (image.fileOffsetToRva x).toUInt64.toNat
  := by
  have hback := h.rva x ((translate_nonneg_iff Section.virtualAddress hplaced.raw).mpr ⟨s, hs, hx⟩)
  have hnonneg : 0 ≤ image.rvaToFileOffset (image.fileOffsetToRva x).toUInt64 := by
    rw [hback, ← UInt64.ofNat_toNat (x := x)]
    apply toInt64_ofNat_nonneg hbound
  obtain ⟨s', hs', hx'⟩ := (translate_nonneg_iff _ hplaced.virtual).mp hnonneg
  -- the section of the RVA holds the offset, so it is the same one
  have hinside := h.inside _ hnonneg s' hs' hx'
  rw [hback, UInt64.toUInt64_toInt64] at hinside
  rw [← hplaced.raw.apart.eq hs' hs hinside hx]
  apply hx'

/-- The first file offset behind what the section occupies is not in its raw data. -/
theorem Invertible.sizeOfRawData_le (h : image.Invertible) (hplaced : WellPlaced image.sections)
    (hs : s ∈ image.sections) :
  s.sizeOfRawData.toNat ≤ s.virtualSize.toNat
  := by
  have hend := hplaced.raw.bounded s hs
  by_contra hlt
  have hoffset : (UInt64.ofNat (s.pointerToRawData.toNat + s.virtualSize.toNat)).toNat =
      s.pointerToRawData.toNat + s.virtualSize.toNat := by
    rw [UInt64.toNat_ofNat']
    omega
  have hx : s.HoldsOffset
      (UInt64.ofNat (s.pointerToRawData.toNat + s.virtualSize.toNat)).toNat := by
    rw [hoffset]
    constructor
    · apply Nat.le_add_right
    · omega
  have hrva := h.holdsRva_of_holdsOffset hplaced hs hx (by omega)
  rw [fileOffsetToRva, toNat_translate _ hplaced.raw hs hx, Section.place, hoffset] at hrva
  have hvirtual := hrva.2
  omega

theorem Invertible.virtualSize_eq (h : image.Invertible) (hplaced : WellPlaced image.sections)
    (hs : s ∈ image.sections) :
  s.virtualSize = s.sizeOfRawData
  := by
  apply UInt32.toNat_inj.mp
  apply Nat.le_antisymm
  · apply h.virtualSize_le hplaced hs
  · apply h.sizeOfRawData_le hplaced hs

/-- The translations are inverse to each other exactly when the sizes of each section agree. -/
theorem invertible_iff (image : PeImage) (h : WellPlaced image.sections) :
  image.Invertible ↔ ∀ s ∈ image.sections, s.virtualSize = s.sizeOfRawData
  := by
  constructor
  · intro hinvertible s hs
    apply hinvertible.virtualSize_eq h hs
  · apply invertible_of_sizes h

/-- A section with its raw data only. -/
theorem invertible_iff_text :
  Invertible ⟨[], 0x140000000, [⟨ascii ".text", 0x1000, 0x200, 0x400, 0x200, true⟩]⟩
  := by
  apply (invertible_iff ⟨[], 0x140000000, [⟨ascii ".text", 0x1000, 0x200, 0x400, 0x200, true⟩]⟩
    ⟨⟨List.pairwise_singleton _ _, by decide⟩, ⟨List.pairwise_singleton _ _, by decide⟩⟩).mpr
  decide

/-- In the zero-filled tail of a section the translation goes on into the raw data of the next
section. -/
theorem not_invertible_of_tail :
  WellPlaced [⟨ascii ".data", 0x1000, 0x1000, 0x400, 0x200, false⟩,
      ⟨ascii ".text", 0x2000, 0x200, 0x600, 0x200, true⟩] ∧
    rvaToFileOffset ⟨[], 0x140000000, [⟨ascii ".data", 0x1000, 0x1000, 0x400, 0x200, false⟩,
      ⟨ascii ".text", 0x2000, 0x200, 0x600, 0x200, true⟩]⟩ 0x1200 = 0x600 ∧
    fileOffsetToRva ⟨[], 0x140000000, [⟨ascii ".data", 0x1000, 0x1000, 0x400, 0x200, false⟩,
      ⟨ascii ".text", 0x2000, 0x200, 0x600, 0x200, true⟩]⟩ 0x600 = 0x2000 ∧
    ¬ Invertible ⟨[], 0x140000000, [⟨ascii ".data", 0x1000, 0x1000, 0x400, 0x200, false⟩,
      ⟨ascii ".text", 0x2000, 0x200, 0x600, 0x200, true⟩]⟩
  := by
  have hoffset : rvaToFileOffset ⟨[], 0x140000000,
      [⟨ascii ".data", 0x1000, 0x1000, 0x400, 0x200, false⟩,
        ⟨ascii ".text", 0x2000, 0x200, 0x600, 0x200, true⟩]⟩ 0x1200 = 0x600 := by
    decide
  have hrva : fileOffsetToRva ⟨[], 0x140000000,
      [⟨ascii ".data", 0x1000, 0x1000, 0x400, 0x200, false⟩,
        ⟨ascii ".text", 0x2000, 0x200, 0x600, 0x200, true⟩]⟩ 0x600 = 0x2000 := by
    decide
  constructor
  · constructor
    · constructor
      · apply List.pairwise_pair.mpr
        rintro k ⟨-, hk⟩ ⟨hk', -⟩
        exact Nat.not_lt.mpr hk' hk
      · decide
    · constructor
      · apply List.pairwise_pair.mpr
        rintro k ⟨-, hk⟩ ⟨hk', -⟩
        exact Nat.not_lt.mpr hk' hk
      · decide
  use hoffset, hrva
  intro h
  have hback := h.offset 0x1200 (by rw [hoffset]; decide)
  rw [hoffset] at hback
  change fileOffsetToRva _ 0x600 = _ at hback
  rw [hrva] at hback
  revert hback
  decide

end PeImage

end PeXrefScanner

end OpenScumRcon
