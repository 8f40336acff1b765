import OpenScumRcon.Library.LittleEndian

/-!
# Bytes and 32-bit integers

A `std::string` and a `std::vector<char>` are lists of bytes. The bytes of a `char` literal
carry the name of the character, and `ascii` gives those of a string literal. An
`std::int32_t` is copied to and from the wire by `memcpy`, so on the x64 target it is its
four bytes, the least significant first.
-/

namespace OpenScumRcon

abbrev Byte := UInt8

abbrev Bytes := List Byte

/-- The bytes of an ASCII string literal. -/
def ascii (literal : String) : Bytes :=
  literal.toList.map (fun c => UInt8.ofNat c.toNat)

namespace Byte

def nul : Byte := 0
def tab : Byte := 9
def lineFeed : Byte := 10
def carriageReturn : Byte := 13
def substitute : Byte := 26
def space : Byte := 32
def doubleQuote : Byte := 34
def hash : Byte := 35
def plus : Byte := 43
def minus : Byte := 45
def digitZero : Byte := 48
def digitNine : Byte := 57
def semicolon : Byte := 59
def equals : Byte := 61
def upperA : Byte := 65
def upperZ : Byte := 90
def backslash : Byte := 92
def underscore : Byte := 95
def lowerA : Byte := 97
def lowerZ : Byte := 122
def verticalBar : Byte := 124
def delete : Byte := 127

end Byte

/-- A property of every byte of a text, checked byte by byte. -/
theorem forall_mem_of_all {p : Byte → Prop} [DecidablePred p] {text : Bytes}
    (h : text.all (fun c => decide (p c)) = true) :
  ∀ c ∈ text, p c
  := by
  simpa [List.all_eq_true] using h

/-! ### 32-bit integers in memory -/

/-- The four bytes `memcpy` copies from an `std::int32_t`. -/
def int32Bytes (x : Int32) : Bytes :=
  LittleEndian.encode 4 x.toUInt32.toNat

/-- The `std::int32_t` to which `memcpy` copies four bytes. -/
def int32OfBytes (bytes : Bytes) : Int32 :=
  (UInt32.ofNat (LittleEndian.decode bytes)).toInt32

@[simp]
theorem length_int32Bytes (x : Int32) :
  (int32Bytes x).length = 4
  := LittleEndian.length_encode 4 _

/-- Reading a written field gives the number back. -/
@[simp]
theorem int32OfBytes_int32Bytes (x : Int32) :
  int32OfBytes (int32Bytes x) = x
  := by
  have hx := x.toUInt32.toNat_lt
  rw [int32OfBytes, int32Bytes, LittleEndian.decode_encode hx, UInt32.ofNat_toNat]
  rfl

/-- Writing a read field gives the four bytes back. -/
theorem int32Bytes_int32OfBytes {bytes : Bytes} (h : bytes.length = 4) :
  int32Bytes (int32OfBytes bytes) = bytes
  := by
  have hlt := LittleEndian.decode_lt bytes
  rw [h] at hlt
  have hnat : (int32OfBytes bytes).toUInt32.toNat = LittleEndian.decode bytes := by
    apply UInt32.toNat_ofNat_of_lt'
    apply hlt
  rw [int32Bytes, hnat, ← h]
  apply LittleEndian.encode_decode

theorem int32Bytes_injective :
  Function.Injective int32Bytes
  := by
  intro x y h
  rw [← int32OfBytes_int32Bytes x, h, int32OfBytes_int32Bytes]

/-- A size below `2 ^ 31` survives the cast from `std::size_t` to `std::int32_t`. -/
theorem toInt_ofNat_of_lt {n : ℕ} (h : n < 2 ^ 31) :
  (Int32.ofNat n).toInt = n
  := Int32.toInt_ofNat_of_lt h

end OpenScumRcon
