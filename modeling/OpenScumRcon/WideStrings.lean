import OpenScumRcon.CommandAuthority
import OpenScumRcon.Library.Utf8
import OpenScumRcon.Library.Utf16

/-!
# Wide strings

The strings of the game are UTF-16. They are converted with the functions of Windows, which
refuse what is not UTF-16 or UTF-8 when they are asked to. The names `utf8` and `wide` are
those of the helpers around them.
-/

namespace OpenScumRcon

/-- An `FString` or a `std::wstring`: its code units, without the NUL at the end. -/
abbrev WideString := List UInt16

/-- `WideCharToMultiByte` to UTF-8 with `WC_ERR_INVALID_CHARS`. -/
def wideCharToMultiByte (units : WideString) : Option Bytes :=
  (Utf16.decode units).map fun characters => characters.flatMap String.utf8EncodeChar

/-- `WideCharToMultiByte` to UTF-8 without a flag. -/
def wideCharToMultiByteLossy (units : WideString) : Bytes :=
  (Utf16.decodeLossy '\uFFFD' units).flatMap String.utf8EncodeChar

/-- `MultiByteToWideChar` from UTF-8 with `MB_ERR_INVALID_CHARS`. -/
def multiByteToWideChar (text : Bytes) : Option WideString :=
  (Utf8.decode text).map fun characters => characters.flatMap Utf16.encodeChar

/-- The text of an `FString`, up to a bound on its length. -/
def utf8 (value : WideString) : Except Thrown Bytes :=
  if 65536 < value.length then .error (.exception (ascii "invalid reflected string length"))
  else if value = [] then .ok []
  else
    match wideCharToMultiByte value with
    | none => .error (.exception (ascii "invalid reflected string encoding"))
    | some text => .ok text

def wide (value : Bytes) : Except Thrown WideString :=
  if value = [] then .ok []
  else
    match multiByteToWideChar value with
    | none => .error (.exception (ascii "arguments must use valid UTF-8"))
    | some units => .ok units

/-! ### Conversion -/

/-- What has been converted is valid. -/
theorem valid_wideCharToMultiByte {units : WideString} {text : Bytes}
    (h : wideCharToMultiByte units = some text) :
  Utf8.Valid text
  := by
  obtain ⟨characters, -, rfl⟩ := Option.map_eq_some_iff.mp h
  apply Utf8.Valid.flatMap_encodeChar

/-- Conversion to wide characters loses nothing. -/
theorem wideCharToMultiByte_of_multiByteToWideChar {text : Bytes} {units : WideString}
    (h : multiByteToWideChar text = some units) :
  wideCharToMultiByte units = some text
  := by
  obtain ⟨characters, hdecode, rfl⟩ := Option.map_eq_some_iff.mp h
  rw [wideCharToMultiByte, Utf16.decode_flatMap_encodeChar, Utf8.decode_eq_some_iff.mp hdecode]
  rfl

/-- A text within the bound is converted, and one beyond it is refused. -/
theorem utf8_eq_ok_iff {value : WideString} {text : Bytes} :
  utf8 value = .ok text ↔ value.length ≤ 65536 ∧ wideCharToMultiByte value = some text
  := by
  rw [utf8]
  split
  · next hlong =>
      constructor
      · rintro ⟨⟩
      · rintro ⟨hshort, -⟩
        omega
  next hshort =>
  split
  · next hnil =>
      rw [hnil, Except.ok.injEq]
      constructor
      · rintro rfl
        exact ⟨by simp, rfl⟩
      · rintro ⟨-, h⟩
        apply Option.some.inj h
  · split
    · next hnone =>
        rw [hnone]
        simp
    · next text' hsome =>
        rw [hsome, Except.ok.injEq, Option.some.injEq]
        constructor
        · intro h
          exact ⟨by omega, h⟩
        · rintro ⟨-, h⟩
          apply h

theorem utf8_of_lt_length {value : WideString} (h : 65536 < value.length) :
  utf8 value = .error (.exception (ascii "invalid reflected string length"))
  := by
  rw [utf8, if_pos h]

theorem wideCharToMultiByte_of_wide {value : Bytes} {units : WideString}
    (h : wide value = .ok units) :
  wideCharToMultiByte units = some value
  := by
  rw [wide] at h
  split at h
  · next hnil =>
      rw [← Except.ok.inj h, hnil]
      rfl
  · split at h
    · cases h
    · next hunits =>
        rw [← Except.ok.inj h]
        apply wideCharToMultiByte_of_multiByteToWideChar hunits

end OpenScumRcon
