import OpenScumRcon.Library.Fields
import OpenScumRcon.PeImage

/-!
# Loading a PE file

The scanner reads the headers of a file at offsets that it computes from the headers. The
offset of the PE header is a number of 32 bits, and so are the sums that start from it. What
is read outside the file is the error of the computation.
-/

namespace OpenScumRcon

namespace PeXrefScanner

open Fields

/-- Why a file is not loaded, by the line that `loadPe` prints. -/
inductive Rejection where
  /-- `Not a valid PE file (missing MZ header)` -/
  | missingMz
  /-- `Not a valid PE file (missing PE signature)` -/
  | missingSignature
  /-- `Only PE32+ (x64) is supported (magic=0x...)` -/
  | unsupported (magic : ℕ)
  deriving DecidableEq

/-- The entry of a section: its name up to a NUL, its numbers, and whether it can be executed. -/
def readSection (b : Bytes) (entry : ℕ) : Except ℕ Section := do
  let name ← bytesAt b entry 8
  let virtualSize ← numberAt b (entry + 8) 4
  let virtualAddress ← numberAt b (entry + 12) 4
  let sizeOfRawData ← numberAt b (entry + 16) 4
  let pointerToRawData ← numberAt b (entry + 20) 4
  let characteristics ← numberAt b (entry + 36) 4
  pure {
    name := name.takeWhile (· ≠ 0)
    virtualAddress := UInt32.ofNat virtualAddress
    virtualSize := UInt32.ofNat virtualSize
    pointerToRawData := UInt32.ofNat pointerToRawData
    sizeOfRawData := UInt32.ofNat sizeOfRawData
    executable := UInt32.ofNat characteristics &&& 0x20000000 ≠ 0 }

/-- The loop over the section table from the entry `i` on. -/
def readSections (b : Bytes) (sectionTableOffset : ℕ) : ℕ → ℕ → Except ℕ (List Section)
  | _, 0 => pure []
  | i, count + 1 => do
      let s ← readSection b (sectionTableOffset + i * 40)
      let sections ← readSections b sectionTableOffset (i + 1) count
      pure (s :: sections)

/-- The headers behind the PE signature, at the sums of 32 bits from the PE offset on. -/
def readHeaders (b : Bytes) (peOffset : UInt32) : Except ℕ (Except Rejection PeImage) := do
  let numberOfSections ← numberAt b (peOffset + 6).toNat 2
  let sizeOfOptionalHeader ← numberAt b (peOffset + 20).toNat 2
  let optionalHeaderOffset := (peOffset + 24).toNat
  let magic ← numberAt b optionalHeaderOffset 2
  if magic ≠ 0x20b then pure (.error (.unsupported magic))
  else do
    let imageBase ← numberAt b (optionalHeaderOffset + 24) 8
    let sections ← readSections b (optionalHeaderOffset + sizeOfOptionalHeader) 0 numberOfSections
    pure (.ok { bytes := b, imageBase := UInt64.ofNat imageBase, sections })

/-- What `loadPe` does with the content of a file. -/
def loadPe (b : Bytes) : Except ℕ (Except Rejection PeImage) :=
  if b.length < 0x40 then pure (.error .missingMz)
  else do
    let m ← numberAt b 0 1
    if m ≠ 0x4d then pure (.error .missingMz)
    else do
      let z ← numberAt b 1 1
      if z ≠ 0x5a then pure (.error .missingMz)
      else do
        let offset ← numberAt b 0x3c 4
        let peOffset := UInt32.ofNat offset
        if b.length ≤ (peOffset + 24).toNat then pure (.error .missingSignature)
        else do
          let p ← numberAt b peOffset.toNat 1
          if p ≠ 0x50 then pure (.error .missingSignature)
          else do
            let e ← numberAt b (peOffset + 1).toNat 1
            if e ≠ 0x45 then pure (.error .missingSignature)
            else readHeaders b peOffset

/-! ### What is read -/

theorem safe_readSection_iff {b : Bytes} {entry : ℕ} :
  Safe (readSection b entry) ↔ entry + 40 ≤ b.length
  := by
  simp only [readSection, safe_bytesAt_bind_iff, safe_numberAt_bind_iff, safe_pure, and_true]
  omega

/-- The table is read to the end of its last entry. -/
theorem safe_readSections_iff {b : Bytes} {table i count : ℕ} :
  Safe (readSections b table i count) ↔ count = 0 ∨ table + (i + count) * 40 ≤ b.length
  := by
  induction count generalizing i with
  | zero => simp [readSections, safe_pure]
  | succ count ih =>
      rw [readSections, safe_bind_iff]
      constructor
      · rintro ⟨s, hs, hrest⟩
        right
        have hentry := safe_readSection_iff.mp ⟨s, hs⟩
        obtain ⟨sections, hsections, -⟩ := safe_bind_iff.mp hrest
        obtain rfl | hle := ih.mp ⟨sections, hsections⟩
        · omega
        · omega
      · rintro (hzero | hle)
        · contradiction
        · have hentry : table + i * 40 + 40 ≤ b.length := by omega
          have htable : table + (i + 1 + count) * 40 ≤ b.length := by omega
          obtain ⟨s, hs⟩ := safe_readSection_iff.mpr hentry
          obtain ⟨sections, hsections⟩ := ih.mpr (.inr htable)
          use s, hs
          apply safe_bind_iff.mpr
          exact ⟨sections, hsections, safe_pure _⟩

/-! ### What the headers announce -/

def peOffset (b : Bytes) : UInt32 :=
  UInt32.ofNat (value b 0x3c 4)

/-- The sum of 32 bits at which the scanner looks for what is so far behind the PE offset. -/
def headerAt (b : Bytes) (k : UInt32) : ℕ :=
  (peOffset b + k).toNat

def StartsWithMz (b : Bytes) : Prop :=
  0x40 ≤ b.length ∧ value b 0 1 = 0x4d ∧ value b 1 1 = 0x5a

/-- The section table that the headers announce is in the file. -/
def SectionsFit (b : Bytes) : Prop :=
  value b (headerAt b 6) 2 = 0 ∨
    headerAt b 24 + value b (headerAt b 20) 2 + value b (headerAt b 6) 2 * 40 ≤ b.length

/-- The headers behind the signature are in the file, as far as they are looked at. -/
def HeadersFit (b : Bytes) : Prop :=
  headerAt b 6 + 2 ≤ b.length ∧ headerAt b 20 + 2 ≤ b.length ∧ headerAt b 24 + 2 ≤ b.length ∧
    (value b (headerAt b 24) 2 = 0x20b → headerAt b 24 + 32 ≤ b.length ∧ SectionsFit b)

/-- The file is long enough for what its headers announce, unless it is rejected before. -/
def Fits (b : Bytes) : Prop :=
  StartsWithMz b → headerAt b 24 < b.length →
    (peOffset b).toNat < b.length ∧
      (value b (peOffset b).toNat 1 = 0x50 →
        headerAt b 1 < b.length ∧ (value b (headerAt b 1) 1 = 0x45 → HeadersFit b))

theorem safe_readHeaders_iff {b : Bytes} :
  Safe (readHeaders b (peOffset b)) ↔ HeadersFit b
  := by
  simp only [readHeaders, safe_numberAt_bind_iff, safe_ite_iff, safe_bind_pure_iff, safe_pure,
    safe_readSections_iff, implies_true, true_and, ne_eq, not_not, Nat.zero_add, Nat.add_assoc,
    HeadersFit, SectionsFit, headerAt]

/-- Every index that `loadPe` reads is inside the file exactly when the file is long enough for
what its headers announce. -/
theorem safe_loadPe_iff (b : Bytes) :
  Safe (loadPe b) ↔ Fits b
  := by
  simp only [loadPe, safe_numberAt_bind_iff, safe_ite_iff, safe_pure, implies_true, true_and,
    ne_eq, not_not, Nat.not_lt, Nat.not_le]
  change (_ → _ ∧ (_ → _ ∧ (_ → _ ∧ (_ → _ ∧ (_ → _ ∧ (_ → Safe (readHeaders b (peOffset b)))))))) ↔ _
  rw [safe_readHeaders_iff]
  constructor
  · rintro hloads ⟨hsize, hm, hz⟩ hheader
    obtain ⟨-, hloads⟩ := hloads hsize
    obtain ⟨-, hloads⟩ := hloads hm
    obtain ⟨-, hloads⟩ := hloads hz
    apply hloads hheader
  · intro hfits hsize
    use by omega
    intro hm
    use by omega
    intro hz
    use by omega
    apply hfits ⟨hsize, hm, hz⟩

/-- A PE offset near `2 ^ 32`, and a signature at the end of the file. -/
theorem not_safe_loadPe :
  ¬ Safe (loadPe (ascii "MZ" ++ List.replicate 58 0 ++ [0xf0, 0xff, 0xff, 0xff])) ∧
    ¬ Safe (loadPe (ascii "MZ" ++ List.replicate 38 0 ++ ascii "PE" ++ List.replicate 18 0 ++
      [40, 0, 0, 0, 0]))
  := by
  have hwraps : loadPe (ascii "MZ" ++ List.replicate 58 0 ++ [0xf0, 0xff, 0xff, 0xff]) =
      .error 0xfffffff0 := by
    rfl
  have hends : loadPe (ascii "MZ" ++ List.replicate 38 0 ++ ascii "PE" ++ List.replicate 18 0 ++
      [40, 0, 0, 0, 0]) = .error 65 := by
    rfl
  rw [hwraps, hends]
  exact ⟨not_safe_error _, not_safe_error _⟩

end PeXrefScanner

end OpenScumRcon
