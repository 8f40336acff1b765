import OpenScumRcon.AddressTranslation
import OpenScumRcon.Library.Sweep
import OpenScumRcon.LoadPe

/-!
# The context of a reference

The scanner sweeps the executable section for instructions that refer to known addresses, and
around each it prints the instructions of a window of file offsets. The address of the first
line is translated from the start of the window, and the others are counted from it. So the
lines show their true addresses exactly when every section that the window meets is loaded at the
distance from its raw data at which the window starts. It is not so where the window starts in the
headers, or goes on into a section that is placed differently.

The disassembler is a parameter: it finds what it likes.
-/

namespace OpenScumRcon

namespace PeXrefScanner

/-! ### The sweep of the executable section -/

/-- An operand of an instruction, as far as the scanner looks at it. -/
inductive Operand where
  | memory (ripBase : Bool) (displacement : Int64)
  | immediate (isRelative : Bool) (value : UInt64)
  | other

/-- The functions of the disassembler that the sweep calls. -/
structure Zydis where
  decodeFull : Bytes → Option (Sweep.Piece (List Operand))
  calcAbsoluteAddress : Sweep.Piece (List Operand) → Operand → UInt64 → Option UInt64

structure StringHit where
  label : Bytes
  encoding : Bytes
  va : UInt64

/-- A reference for which the context is printed. -/
structure Xref where
  va : UInt64
  fileOffset : ℕ
  reason : Bytes

/-- The bytes of the file from an offset up to a stop. -/
def PeImage.slice (image : PeImage) (offset stop : ℕ) : Bytes :=
  (image.bytes.drop offset).take (stop - offset)

/-- The address that an operand refers to. -/
def absoluteAddress (zydis : Zydis) (instruction : Sweep.Piece (List Operand))
    (runtimeAddress : UInt64) (op : Operand) : Option UInt64 :=
  match op with
  | .immediate false value => some value
  | .memory true _ | .immediate true _ =>
      zydis.calcAbsoluteAddress instruction op runtimeAddress
  | _ => none

/-- Why an address is looked for: it is in the first 64 bytes of a string, or it is exactly a
function. -/
def reasonFor (hits exactHits : List StringHit) (address : UInt64) : Option Bytes :=
  match hits.find? fun h => h.va ≤ address ∧ address < h.va + 64 with
  | some h => some (ascii "[" ++ h.encoding ++ ascii "] \"" ++ h.label ++ ascii "\"")
  | none =>
      (exactHits.find? fun h => address = h.va).map fun h =>
        ascii "[" ++ h.encoding ++ ascii "] call/ref to 0x" ++ h.label

/-- The references of the instruction at a place of the sweep. -/
def xrefsAt (zydis : Zydis) (hits exactHits : List StringHit)
    (visit : Sweep.Visit (List Operand)) : List Xref :=
  match visit.found with
  | none => []
  | some instruction =>
      instruction.content.filterMap fun op =>
        match absoluteAddress zydis instruction visit.address op with
        | none => none
        | some address =>
            (reasonFor hits exactHits address).map fun reason =>
              { va := visit.address, fileOffset := visit.offset, reason }

/-- The end of the sweep of the executable section. -/
def sectionEnd (image : PeImage) (text : Section) : ℕ :=
  min image.bytes.length (text.pointerToRawData.toNat + text.sizeOfRawData.toNat)

/-- The loop of `main` over the first executable section. -/
def scan (image : PeImage) (zydis : Zydis) (hits exactHits : List StringHit) : List Xref :=
  match image.findExecutableSection with
  | none => []
  | some text =>
      (Sweep.visits
        (fun _ offset => zydis.decodeFull (image.slice offset (sectionEnd image text)))
        (sectionEnd image text) text.pointerToRawData.toNat
        (image.imageBase + text.virtualAddress.toUInt64)).flatMap
          (xrefsAt zydis hits exactHits)

/-! ### The context -/

/-- A line of the report. An instruction is printed with its address and its text, and is known
here by the file offset at which it has been decoded too. -/
inductive Line where
  | xref (reason : Bytes) (va : UInt64) (fileOffset : ℕ)
  | decodeFailed (offset : ℕ)
  | instruction (offset : ℕ) (address : UInt64) (text : Bytes) (marker : Bool)

def before : ℕ := 400

def after : ℕ := 600

def windowStart (xrefFileOffset : ℕ) : ℕ :=
  if before < xrefFileOffset then xrefFileOffset - before else 0

def windowEnd (image : PeImage) (xrefFileOffset : ℕ) : ℕ :=
  min image.bytes.length (xrefFileOffset + after)

/-- The line of a place. The instruction that holds the reference is marked. -/
def contextLine (xrefFileOffset : ℕ) (visit : Sweep.Visit Bytes) : Line :=
  match visit.found with
  | none => .decodeFailed visit.offset
  | some instruction =>
      .instruction visit.offset visit.address instruction.content
        (visit.offset ≤ xrefFileOffset ∧ xrefFileOffset < visit.offset + instruction.length)

/-- What is printed for a reference. The disassembler is given the address and the bytes up to
the end of the window. -/
def dumpContext (image : PeImage) (disassemble : UInt64 → Bytes → Option (Sweep.Piece Bytes))
    (xref : Xref) : List Line :=
  .xref xref.reason xref.va xref.fileOffset ::
    (Sweep.visits
      (fun runtimeAddress offset =>
        disassemble runtimeAddress (image.slice offset (windowEnd image xref.fileOffset)))
      (windowEnd image xref.fileOffset) (windowStart xref.fileOffset)
      (image.fileOffsetToVa (UInt64.ofNat (windowStart xref.fileOffset)))).map
        (contextLine xref.fileOffset)

/-! ### What a line shows -/

/-- The address that is printed for a file offset of the window. -/
def shownVa (image : PeImage) (xref : Xref) (offset : ℕ) : UInt64 :=
  image.fileOffsetToVa (UInt64.ofNat (windowStart xref.fileOffset)) +
    UInt64.ofNat (offset - windowStart xref.fileOffset)

/-- The window of the reference contains the file offset. -/
def InWindow (image : PeImage) (xref : Xref) (offset : ℕ) : Prop :=
  windowStart xref.fileOffset ≤ offset ∧ offset < windowEnd image xref.fileOffset

/-- An instruction is printed inside the window, with the address counted from its start. -/
theorem mem_dumpContext {image : PeImage}
    {disassemble : UInt64 → Bytes → Option (Sweep.Piece Bytes)} {xref : Xref}
    {offset : ℕ} {address : UInt64} {text : Bytes} {marker : Bool}
    (h : Line.instruction offset address text marker ∈ dumpContext image disassemble xref) :
  InWindow image xref offset ∧ address = shownVa image xref offset
  := by
  rw [dumpContext, List.mem_cons] at h
  obtain h | h := h
  · cases h
  · obtain ⟨visit, hvisit, hline⟩ := List.mem_map.mp h
    obtain ⟨k, hoffset, hstop, haddress, -⟩ := Sweep.mem_visits hvisit
    rw [contextLine] at hline
    split at hline
    · cases hline
    · cases hline
      constructor
      · constructor
        · omega
        · omega
      · rw [haddress, shownVa, hoffset, Nat.add_sub_cancel_left]

theorem length_slice {image : PeImage} {offset stop : ℕ} (h : stop ≤ image.bytes.length) :
  (image.slice offset stop).length = stop - offset
  := by
  rw [PeImage.slice, List.length_take, List.length_drop]
  omega

/-- For each offset of the window there is a disassembler with which an instruction is printed
there. -/
theorem exists_mem_dumpContext {image : PeImage} {xref : Xref} {offset : ℕ}
    (h : InWindow image xref offset) :
  ∃ disassemble text marker, Line.instruction offset (shownVa image xref offset) text marker ∈
    dumpContext image disassemble xref
  := by
  have hend : windowEnd image xref.fileOffset ≤ image.bytes.length := Nat.min_le_left _ _
  obtain ⟨hstart, hstop⟩ := h
  -- it fails until so many bytes are left as there are behind the offset
  use fun _ bytes =>
    if bytes.length = windowEnd image xref.fileOffset - offset then
      some { length := 1, positive := Nat.zero_lt_one, content := [] }
    else none
  have hvisits := Sweep.exists_mem_visits
    (fun _ o =>
      if (image.slice o (windowEnd image xref.fileOffset)).length =
          windowEnd image xref.fileOffset - offset then
        some { length := 1, positive := Nat.zero_lt_one, content := ([] : Bytes) }
      else none)
    (image.fileOffsetToVa (UInt64.ofNat (windowStart xref.fileOffset))) hstart hstop
  obtain ⟨visit, hvisit, hplace⟩ := hvisits (by
    intro _ o ho
    rw [length_slice hend, if_neg]
    omega)
  obtain ⟨k, hoffset, -, haddress, hfound⟩ := Sweep.mem_visits hvisit
  rw [hplace, length_slice hend, if_pos rfl] at hfound
  use [], decide (offset ≤ xref.fileOffset ∧ xref.fileOffset < offset + 1)
  rw [dumpContext]
  apply List.mem_cons_of_mem
  apply List.mem_map.mpr
  use visit, hvisit
  rw [contextLine, hfound]
  dsimp only
  rw [hplace, haddress, shownVa]
  congr 2
  congr 1
  omega

/-! ### The references of the sweep -/

/-- A reference is found in the raw data of the executable section, at the address that the sweep
has counted from the start of the section. -/
theorem mem_scan {image : PeImage} {zydis : Zydis} {hits exactHits : List StringHit}
    {xref : Xref} (h : xref ∈ scan image zydis hits exactHits) :
  ∃ text, image.findExecutableSection = some text ∧ text.HoldsOffset xref.fileOffset ∧
    xref.fileOffset < image.bytes.length ∧
    xref.va = image.imageBase + text.virtualAddress.toUInt64 +
      UInt64.ofNat (xref.fileOffset - text.pointerToRawData.toNat)
  := by
  rw [scan] at h
  split at h
  · contradiction
  next text htext =>
  obtain ⟨visit, hvisit, hxref⟩ := List.mem_flatMap.mp h
  obtain ⟨k, hoffset, hstop, haddress, -⟩ := Sweep.mem_visits hvisit
  obtain ⟨hva, hfileOffset⟩ : xref.va = visit.address ∧ xref.fileOffset = visit.offset := by
    rw [xrefsAt] at hxref
    split at hxref
    · contradiction
    · obtain ⟨op, -, hop⟩ := List.mem_filterMap.mp hxref
      split at hop
      · contradiction
      · obtain ⟨reason, -, rfl⟩ := Option.map_eq_some_iff.mp hop
        exact ⟨rfl, rfl⟩
  rw [sectionEnd] at hstop
  use text, htext
  constructor
  · constructor
    · omega
    · omega
  use by omega
  rw [hva, haddress, hfileOffset, hoffset, Nat.add_sub_cancel_left]

/-- The references of the first instruction of the section are among those found. -/
theorem first_mem_scan {image : PeImage} {zydis : Zydis} {hits exactHits : List StringHit}
    {text : Section} {xref : Xref} (htext : image.findExecutableSection = some text)
    (hlt : text.pointerToRawData.toNat < sectionEnd image text)
    (h : xref ∈ xrefsAt zydis hits exactHits
      { offset := text.pointerToRawData.toNat
        address := image.imageBase + text.virtualAddress.toUInt64
        found := zydis.decodeFull
          (image.slice text.pointerToRawData.toNat (sectionEnd image text)) }) :
  xref ∈ scan image zydis hits exactHits
  := by
  rw [scan, htext]
  apply List.mem_flatMap.mpr
  exact ⟨_, Sweep.first_mem_visits _ _ hlt, h⟩

/-- The reference itself is in its window. -/
theorem inWindow_of_mem_scan {image : PeImage} {zydis : Zydis}
    {hits exactHits : List StringHit} {xref : Xref}
    (h : xref ∈ scan image zydis hits exactHits) :
  InWindow image xref xref.fileOffset
  := by
  obtain ⟨text, -, -, hlength, -⟩ := mem_scan h
  constructor
  · rw [windowStart]
    split
    · apply Nat.sub_le
    · apply Nat.zero_le
  · rw [windowEnd, after]
    omega

/-! ### True addresses -/

/-- Some section holds the file offset in its raw data. -/
def InRawData (image : PeImage) (offset : ℕ) : Prop :=
  ∃ s ∈ image.sections, s.HoldsOffset offset

/-- Whatever the disassembler finds, each instruction is printed with the address of its file
offset, and one at the reference with the address of the reference. -/
def ShowsTrueAddresses (image : PeImage) (xref : Xref) : Prop :=
  ∀ disassemble offset address text marker,
    Line.instruction offset address text marker ∈ dumpContext image disassemble xref →
      (InRawData image offset → address = image.fileOffsetToVa (UInt64.ofNat offset)) ∧
        (offset = xref.fileOffset → address = xref.va)

/-- The addresses are true exactly when those counted from the start of the window are. -/
theorem showsTrueAddresses_iff_shownVa {image : PeImage} {zydis : Zydis}
    {hits exactHits : List StringHit} {xref : Xref} (h : xref ∈ scan image zydis hits exactHits) :
  ShowsTrueAddresses image xref ↔
    (∀ offset, InWindow image xref offset → InRawData image offset →
      shownVa image xref offset = image.fileOffsetToVa (UInt64.ofNat offset)) ∧
    shownVa image xref xref.fileOffset = xref.va
  := by
  constructor
  · intro hshows
    constructor
    · intro offset hwindow hraw
      obtain ⟨disassemble, text, marker, hline⟩ := exists_mem_dumpContext hwindow
      apply (hshows disassemble offset _ text marker hline).1 hraw
    · obtain ⟨disassemble, text, marker, hline⟩ :=
        exists_mem_dumpContext (inWindow_of_mem_scan h)
      apply (hshows disassemble xref.fileOffset _ text marker hline).2 rfl
  · rintro ⟨htrue, hxref⟩ disassemble offset address text marker hline
    obtain ⟨hwindow, rfl⟩ := mem_dumpContext hline
    constructor
    · apply htrue offset hwindow
    · rintro rfl
      apply hxref

/-! ### Distances -/

/-- The section in whose raw data the scan of `fileOffsetToRva` finds a file offset. -/
def PeImage.sectionAt (image : PeImage) (offset : ℕ) : Option Section :=
  image.sections.find? fun s =>
    s.pointerToRawData.toUInt64 ≤ UInt64.ofNat offset ∧
      UInt64.ofNat offset < (s.pointerToRawData + s.sizeOfRawData).toUInt64

/-- How far the addresses of a section are from its raw data. -/
def PeImage.distance (image : PeImage) (s : Section) : UInt64 :=
  image.imageBase + s.virtualAddress.toUInt64 - s.pointerToRawData.toUInt64

/-- How far the printed addresses are from the file offsets. A window that starts in no section is
counted from zero on. -/
def shownDistance (image : PeImage) (xref : Xref) : UInt64 :=
  match image.sectionAt (windowStart xref.fileOffset) with
  | some s => image.distance s
  | none => -UInt64.ofNat (windowStart xref.fileOffset)

/-- The sections that the window meets, and the executable section, are loaded at the distance that
is shown. Raw data that the scan does not find, because the end of its section exceeds 32 bits, has
the address zero. -/
structure SameDistance (image : PeImage) (xref : Xref) : Prop where
  met : ∀ offset s, InWindow image xref offset → image.sectionAt offset = some s →
    image.distance s = shownDistance image xref
  lost : ∀ offset, InWindow image xref offset → InRawData image offset →
    image.sectionAt offset = none → -UInt64.ofNat offset = shownDistance image xref
  executable : ∀ text, image.findExecutableSection = some text →
    image.distance text = shownDistance image xref

/-- A section in which the scan finds an offset has it in its raw data. -/
theorem holdsOffset_of_sectionAt {image : PeImage} {s : Section} {offset : ℕ}
    (h : image.sectionAt offset = some s) (hlt : offset < 2 ^ 64) :
  s ∈ image.sections ∧ s.HoldsOffset offset
  := by
  have hfound := List.find?_some h
  rw [decide_eq_true_iff, UInt64.le_iff_toNat_le, UInt64.lt_iff_toNat_lt, UInt32.toNat_toUInt64,
    UInt32.toNat_toUInt64, UInt32.toNat_add, UInt64.toNat_ofNat', Nat.mod_eq_of_lt hlt] at hfound
  use List.mem_of_find?_eq_some h, hfound.1
  apply Nat.lt_of_lt_of_le hfound.2 (Nat.mod_le _ _)

/-- In a section, addresses are at its distance from the file offsets. -/
theorem fileOffsetToVa_of_sectionAt {image : PeImage} {s : Section} {offset : ℕ}
    (h : image.sectionAt offset = some s) :
  image.fileOffsetToVa (UInt64.ofNat offset) = image.distance s + UInt64.ofNat offset
  := by
  have hfound := List.find?_some h
  rw [decide_eq_true_iff] at hfound
  have hrva : image.fileOffsetToRva (UInt64.ofNat offset) =
      (s.virtualAddress.toUInt64 + (UInt64.ofNat offset - s.pointerToRawData.toUInt64)).toInt64 := by
    rw [PeImage.sectionAt] at h
    rw [PeImage.fileOffsetToRva, PeImage.translate, h]
  have hplace : (s.virtualAddress.toUInt64 +
      (UInt64.ofNat offset - s.pointerToRawData.toUInt64)).toNat < 2 ^ 63 := by
    have hva := s.virtualAddress.toNat_lt
    have hend := (s.pointerToRawData + s.sizeOfRawData).toNat_lt
    rw [UInt64.lt_iff_toNat_lt, UInt32.toNat_toUInt64] at hfound
    rw [UInt64.toNat_add, UInt64.toNat_sub_of_le _ _ hfound.1, UInt32.toNat_toUInt64]
    omega
  have hnonneg : ¬ image.fileOffsetToRva (UInt64.ofNat offset) < 0 := by
    rw [hrva, Int64.not_lt, ← UInt64.ofNat_toNat (x := _ + _)]
    apply PeImage.toInt64_ofNat_nonneg hplace
  rw [PeImage.fileOffsetToVa, if_neg hnonneg, hrva, UInt64.toUInt64_toInt64, PeImage.distance]
  grind

/-- Outside of the sections there are no addresses. -/
theorem fileOffsetToVa_of_not_sectionAt {image : PeImage} {offset : ℕ}
    (h : image.sectionAt offset = none) :
  image.fileOffsetToVa (UInt64.ofNat offset) = 0
  := by
  rw [PeImage.sectionAt] at h
  rw [PeImage.fileOffsetToVa, PeImage.fileOffsetToRva, PeImage.translate, h]
  rfl

/-- The printed addresses are at the same distance from all file offsets of the window. -/
theorem shownVa_eq {image : PeImage} {xref : Xref} {offset : ℕ}
    (hle : windowStart xref.fileOffset ≤ offset) :
  shownVa image xref offset = shownDistance image xref + UInt64.ofNat offset
  := by
  have hoffset : UInt64.ofNat offset = UInt64.ofNat (windowStart xref.fileOffset) +
      UInt64.ofNat (offset - windowStart xref.fileOffset) := by
    rw [← UInt64.ofNat_add, Nat.add_sub_cancel' hle]
  rw [shownVa, shownDistance, hoffset]
  cases hstart : image.sectionAt (windowStart xref.fileOffset) with
  | some s =>
      rw [fileOffsetToVa_of_sectionAt hstart, UInt64.add_assoc]
  | none =>
      rw [fileOffsetToVa_of_not_sectionAt hstart]
      dsimp only
      rw [← UInt64.add_assoc, UInt64.add_left_neg]

/-- The reference is at the distance of the executable section. -/
theorem va_of_mem_scan {image : PeImage} {zydis : Zydis} {hits exactHits : List StringHit}
    {xref : Xref} (h : xref ∈ scan image zydis hits exactHits) :
  xref.fileOffset < 2 ^ 33 ∧ ∃ text, image.findExecutableSection = some text ∧
    xref.va = image.distance text + UInt64.ofNat xref.fileOffset
  := by
  obtain ⟨text, htext, hholds, -, hva⟩ := mem_scan h
  have hraw := text.pointerToRawData.toNat_lt
  have hsize := text.sizeOfRawData.toNat_lt
  obtain ⟨hle, hlt⟩ := hholds
  use by omega, text, htext
  have hoffset : UInt64.ofNat xref.fileOffset = text.pointerToRawData.toUInt64 +
      UInt64.ofNat (xref.fileOffset - text.pointerToRawData.toNat) := by
    rw [← UInt64.toNat_inj, UInt64.toNat_add, UInt32.toNat_toUInt64, UInt64.toNat_ofNat',
      UInt64.toNat_ofNat']
    omega
  rw [hva, hoffset, PeImage.distance]
  grind

/-- The printed addresses are the true ones exactly when every section that the window meets, and the
executable one, is loaded at the distance from its raw data that the window starts with. -/
theorem showsTrueAddresses_iff (image : PeImage) (zydis : Zydis)
    (hits exactHits : List StringHit) (xref : Xref)
    (h : xref ∈ scan image zydis hits exactHits) :
  ShowsTrueAddresses image xref ↔ SameDistance image xref
  := by
  obtain ⟨hbound, text, htext, hva⟩ := va_of_mem_scan h
  obtain ⟨hstart, -⟩ := inWindow_of_mem_scan h
  have hwindow : ∀ offset, InWindow image xref offset → offset < 2 ^ 64 := by
    rintro offset ⟨-, hlt⟩
    rw [windowEnd, after] at hlt
    omega
  rw [showsTrueAddresses_iff_shownVa h, shownVa_eq hstart, hva, UInt64.add_left_inj]
  constructor
  · rintro ⟨htrue, hexecutable⟩
    constructor
    · intro offset s hin hs
      have hraw : InRawData image offset := ⟨s, holdsOffset_of_sectionAt hs (hwindow offset hin)⟩
      have heq := htrue offset hin hraw
      rw [shownVa_eq hin.1, fileOffsetToVa_of_sectionAt hs, UInt64.add_left_inj] at heq
      apply heq.symm
    · intro offset hin hraw hnone
      have heq := htrue offset hin hraw
      rw [shownVa_eq hin.1, fileOffsetToVa_of_not_sectionAt hnone] at heq
      grind
    · intro text' htext'
      rw [htext] at htext'
      rw [← Option.some.inj htext', hexecutable]
  · rintro ⟨hmet, hlost, hexecutable⟩
    constructor
    · intro offset hin hraw
      rw [shownVa_eq hin.1]
      cases hs : image.sectionAt offset with
      | some s => rw [fileOffsetToVa_of_sectionAt hs, hmet offset s hin hs]
      | none =>
          rw [fileOffsetToVa_of_not_sectionAt hs, ← hlost offset hin hraw hs,
            UInt64.add_left_neg]
    · rw [hexecutable text htext]

/-- The instruction `mov rax, 0x140001234`. -/
def movBytes : Bytes :=
  [0x48, 0xb8, 0x34, 0x12, 0x00, 0x40, 0x01, 0x00, 0x00, 0x00]

/-- What Zydis finds in the bytes of that instruction. -/
def movZydis : Zydis where
  decodeFull bytes :=
    if bytes = movBytes then
      some { length := 10, positive := by decide, content := [.other, .immediate false 0x140001234] }
    else none
  calcAbsoluteAddress _ _ _ := none

def movHit : StringHit :=
  { label := ascii "0x140001234", encoding := ascii "FUNC", va := 0x140001234 }

def movXref (va : UInt64) (fileOffset : ℕ) : Xref :=
  { va, fileOffset, reason := ascii "[FUNC] call/ref to 0x0x140001234" }

theorem mem_xrefsAt_mov (offset : ℕ) (address : UInt64) :
  movXref address offset ∈ xrefsAt movZydis [] [movHit]
    { offset, address, found := movZydis.decodeFull movBytes }
  := by
  apply List.mem_singleton_self

/-- The instruction alone, in a section from the start of the bytes on. -/
theorem showsTrueAddresses_iff_mov :
  ShowsTrueAddresses ⟨movBytes, 0x140000000, [⟨ascii ".text", 0x1000, 10, 0, 10, true⟩]⟩
    (movXref 0x140001000 0)
  := by
  apply (showsTrueAddresses_iff _ movZydis [] [movHit] _ _).mpr
  · have hfound : ∀ k : Fin 10, PeImage.sectionAt ⟨movBytes, 0x140000000,
        [⟨ascii ".text", 0x1000, 10, 0, 10, true⟩]⟩ k ≠ none := by
      decide
    constructor
    · intro offset s _ hs
      rw [List.mem_singleton.mp (List.mem_of_find?_eq_some hs)]
      decide
    · rintro offset ⟨-, hlt⟩ - hnone
      cases hfound ⟨offset, Nat.lt_of_lt_of_le hlt (Nat.min_le_left _ _)⟩ hnone
    · rintro text ⟨⟩
      decide
  · apply first_mem_scan rfl
    · decide
    · apply mem_xrefsAt_mov

/-- A file with headers of 160 bytes and the instruction in its only section. -/
def movFile : Bytes :=
  ascii "MZ" ++ List.replicate 58 0 ++ [0x40, 0, 0, 0] ++
    ascii "PE" ++ [0, 0, 0, 0, 1, 0] ++ List.replicate 12 0 ++ [0x20, 0, 0, 0] ++
    [0x0b, 0x02] ++ List.replicate 22 0 ++ [0, 0, 0, 0x40, 1, 0, 0, 0] ++
    ascii ".text" ++ [0, 0, 0] ++ [10, 0, 0, 0] ++ [0, 0x10, 0, 0] ++ [10, 0, 0, 0] ++
    [160, 0, 0, 0] ++ List.replicate 12 0 ++ [0, 0, 0, 0x20] ++ movBytes

def movImage : PeImage :=
  { bytes := movFile
    imageBase := 0x140000000
    sections := [⟨ascii ".text", 0x1000, 10, 160, 10, true⟩] }

set_option maxRecDepth 4000 in
theorem loadPe_movFile :
  loadPe movFile = .ok (.ok movImage) ∧ movFile.length = 170 ∧ movFile.drop 160 = movBytes
  := by
  use rfl, rfl
  rfl

/-- The window of the only reference starts in the headers. -/
theorem not_showsTrueAddresses_of_headers :
  loadPe movFile = .ok (.ok movImage) ∧
    movXref 0x140001000 160 ∈ scan movImage movZydis [] [movHit] ∧
    ¬ ShowsTrueAddresses movImage (movXref 0x140001000 160)
  := by
  obtain ⟨hload, hlength, hdrop⟩ := loadPe_movFile
  have hend : sectionEnd movImage ⟨ascii ".text", 0x1000, 10, 160, 10, true⟩ = 170 := by
    rw [sectionEnd, movImage, hlength]
    rfl
  use hload
  constructor
  · apply first_mem_scan rfl
    · rw [hend]
      decide
    · rw [hend]
      change _ ∈ xrefsAt movZydis [] [movHit]
        { offset := 160, address := _, found := movZydis.decodeFull ((movFile.drop 160).take 10) }
      rw [hdrop]
      apply mem_xrefsAt_mov
  · intro hshows
    have hwindow : InWindow movImage (movXref 0x140001000 160) 160 := by
      constructor
      · decide
      · rw [windowEnd, movImage, hlength]
        decide
    obtain ⟨disassemble, text, marker, hline⟩ := exists_mem_dumpContext hwindow
    have haddress := (hshows disassemble 160 _ text marker hline).2 rfl
    revert haddress
    decide

end PeXrefScanner

end OpenScumRcon
