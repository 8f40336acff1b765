import OpenScumRcon.Bytes

/-!
# The image of the scanner

A PE file as the scanner keeps it: its bytes, the address at which it is loaded, and its
sections. A section has a range of file offsets, its raw data, and a range of addresses
relative to the base, its RVAs.
-/

namespace OpenScumRcon

namespace PeXrefScanner

structure Section where
  name : Bytes
  virtualAddress : UInt32
  virtualSize : UInt32
  pointerToRawData : UInt32
  sizeOfRawData : UInt32
  executable : Bool
  deriving DecidableEq

structure PeImage where
  bytes : Bytes
  imageBase : UInt64
  sections : List Section

namespace PeImage

/-- The scan behind both translations: the first section whose range, of 32 bits, contains the
position gives the place of the position from the target on. There is `-1` when none does. -/
def translate (image : PeImage) (start size target : Section → UInt32) (x : UInt64) : Int64 :=
  match image.sections.find? fun s =>
      (start s).toUInt64 ≤ x ∧ x < (start s + size s).toUInt64 with
  | none => -1
  | some s => ((target s).toUInt64 + (x - (start s).toUInt64)).toInt64

def fileOffsetToRva (image : PeImage) (fileOffset : UInt64) : Int64 :=
  image.translate Section.pointerToRawData Section.sizeOfRawData Section.virtualAddress fileOffset

def rvaToFileOffset (image : PeImage) (rva : UInt64) : Int64 :=
  image.translate Section.virtualAddress Section.virtualSize Section.pointerToRawData rva

def fileOffsetToVa (image : PeImage) (fileOffset : UInt64) : UInt64 :=
  let rva := image.fileOffsetToRva fileOffset
  if rva < 0 then 0 else image.imageBase + rva.toUInt64

def findExecutableSection (image : PeImage) : Option Section :=
  image.sections.find? Section.executable

end PeImage

end PeXrefScanner

end OpenScumRcon
