import OpenScumRcon.Library.Ending
import OpenScumRcon.NativeRuns
import OpenScumRcon.PlayerListFormat
import OpenScumRcon.ResponseTruncation

/-!
# The texts of the replies

A packet carries a text without loss when it is UTF-8 and has no NUL in it. All replies of the
mod are such texts: what they take over from the game has been converted and checked, and what
a player or the game can choose freely has its control characters replaced.
-/

namespace OpenScumRcon

/-! ### Texts that a packet can carry -/

structure Sendable (text : Bytes) : Prop where
  valid : Utf8.Valid text
  nul : Byte.nul ∉ text

theorem sendable_nil :
  Sendable []
  := ⟨Utf8.Valid.nil, by simp⟩

/-- Sendable texts one behind the other are sendable. -/
theorem Sendable.append {s t : Bytes} (hs : Sendable s) (ht : Sendable t) :
  Sendable (s ++ t)
  := by
  use hs.valid.append ht.valid
  rw [List.mem_append, not_or]
  exact ⟨hs.nul, ht.nul⟩

/-- A text put together from sendable pieces is sendable. -/
theorem sendable_flatMap {α : Type} {f : α → Bytes} {items : List α}
    (h : ∀ a ∈ items, Sendable (f a)) :
  Sendable (items.flatMap f)
  := by
  induction items with
  | nil => apply sendable_nil
  | cons a items ih =>
      rw [List.forall_mem_cons] at h
      rw [List.flatMap_cons]
      apply h.1.append (ih h.2)

theorem sendable_ite {p : Prop} [Decidable p] {s t : Bytes} (hs : Sendable s)
    (ht : Sendable t) :
  Sendable (if p then s else t)
  := by
  split
  · apply hs
  · apply ht

/-- An ASCII character that is not NUL. -/
def isAscii (c : Byte) : Bool :=
  0 < c && c < 128

/-- An ASCII text without NUL is sendable; the source's literals are such texts. -/
theorem sendable_of_all {text : Bytes} (h : text.all isAscii = true) :
  Sendable text
  := by
  have hbyte : ∀ c ∈ text, 0 < c.toNat ∧ c.toNat < 128 := by
    intro c hc
    have hascii := List.all_eq_true.mp h c hc
    simpa [isAscii, UInt8.lt_iff_toNat_lt] using hascii
  constructor
  · apply Utf8.valid_of_lt
    intro c hc
    apply (hbyte c hc).2
  · intro hnul
    have hpos := (hbyte _ hnul).1
    contradiction

/-- A literal of the source. -/
theorem sendable_literal {characters : List Char}
    (h : (characters.all fun c => 0 < c.toNat && c.toNat < 128) = true) :
  Sendable (ascii (String.ofList characters))
  := by
  apply sendable_of_all
  rw [ascii, String.toList_ofList, List.all_map, List.all_eq_true]
  intro c hc
  have hrange := List.all_eq_true.mp h c hc
  rw [Bool.and_eq_true, decide_eq_true_eq, decide_eq_true_eq] at hrange
  rw [Function.comp_apply, isAscii, Bool.and_eq_true, decide_eq_true_eq, decide_eq_true_eq,
    UInt8.lt_iff_toNat_lt, UInt8.lt_iff_toNat_lt, UInt8.toNat_ofNat_of_lt' (Nat.lt_trans hrange.2 (by decide))]
  exact hrange

/-- A literal that the source has in two parts. -/
theorem sendable_literal_append {front back : List Char}
    (hfront : (front.all fun c => 0 < c.toNat && c.toNat < 128) = true)
    (hback : (back.all fun c => 0 < c.toNat && c.toNat < 128) = true) :
  Sendable (ascii (String.ofList front ++ String.ofList back))
  := by
  have hsplit : ascii (String.ofList front ++ String.ofList back)
      = ascii (String.ofList front) ++ ascii (String.ofList back) := by
    simp [ascii]
  rw [hsplit]
  apply (sendable_literal hfront).append (sendable_literal hback)

theorem sendable_lineFeed :
  Sendable [Byte.lineFeed]
  := by
  apply sendable_of_all
  decide

theorem isAscii_of_isDigit {c : Byte} (h : isDigit c = true) :
  isAscii c = true
  := by
  simp only [isDigit, isAscii, Bool.and_eq_true, decide_eq_true_eq, UInt8.le_iff_toNat_le,
    UInt8.lt_iff_toNat_lt, Byte.digitZero, Byte.digitNine, UInt8.reduceToNat] at h ⊢
  omega

/-- Numbers are sendable. -/
theorem sendable_decimal (i : ℤ) :
  Sendable (decimal i)
  := by
  apply sendable_of_all
  rw [List.all_eq_true]
  intro c hc
  rcases mem_decimal hc with rfl | hdigit
  · decide
  · apply isAscii_of_isDigit hdigit

/-- SteamIDs are sendable. -/
theorem sendable_steamId {id : Bytes} (h : steamIdValid id = true) :
  Sendable id
  := by
  apply sendable_of_all
  rw [List.all_eq_true]
  intro c hc
  apply isAscii_of_isDigit ((steamIdValid_iff.mp h).2 c hc)

theorem sendable_boolDigit (b : Bool) :
  Sendable (boolDigit b)
  := by
  cases b
  · apply sendable_of_all
    decide
  · apply sendable_of_all
    decide

/-! ### Numbers in hexadecimal -/

theorem isAscii_upperHexDigit {n : ℕ} (h : n < 16) :
  isAscii (upperHexDigit n) = true
  := by
  have hdigit : ∀ k : Fin 16, isAscii (upperHexDigit k) = true := by decide
  apply hdigit ⟨n, h⟩

theorem sendable_hexByte (b : Byte) :
  Sendable (hexByte b)
  := by
  have hlt := b.toNat_lt
  apply sendable_of_all
  rw [hexByte, List.all_cons, List.all_cons, List.all_nil, Bool.and_true,
    isAscii_upperHexDigit (by omega), isAscii_upperHexDigit (by omega)]
  rfl

theorem sendable_pointer (address : ℕ) :
  Sendable (pointer address)
  := by
  apply sendable_flatMap
  intro b _
  apply sendable_hexByte

theorem isAscii_digitChar {n : ℕ} (h : n < 16) :
  isAscii (UInt8.ofNat n.digitChar.toNat) = true
  := by
  have hdigit : ∀ k : Fin 16, isAscii (UInt8.ofNat (k : ℕ).digitChar.toNat) = true := by decide
  apply hdigit ⟨n, h⟩

/-- Numbers in hexadecimal are sendable. -/
theorem sendable_hexadecimal (n : ℕ) :
  Sendable (hexadecimal n)
  := by
  apply sendable_of_all
  rw [hexadecimal]
  induction n using Nat.strongRecOn with
  | ind n ih =>
      obtain hlt | hle := Nat.lt_or_ge n 16
      · rw [Nat.toDigits_of_lt_base hlt]
        simpa using isAscii_digitChar hlt
      · have hmod : n % 16 < 16 := Nat.mod_lt n (by decide)
        have hsplit := Nat.toDigits_append_toDigits (b := 16) (n := n / 16) (d := n % 16)
          (by decide) (by omega) hmod
        rw [Nat.div_add_mod] at hsplit
        rw [← hsplit, List.map_append, List.all_append, ih (n / 16) (by omega),
          Nat.toDigits_of_lt_base hmod]
        simpa using isAscii_digitChar hmod

/-! ### Texts of the game -/

/-- Characters without NUL are sendable in UTF-8. -/
theorem sendable_flatMap_encodeChar {characters : List Char} (h : '\x00' ∉ characters) :
  Sendable (characters.flatMap String.utf8EncodeChar)
  := ⟨Utf8.Valid.flatMap_encodeChar characters, Utf8.zero_not_mem_flatMap_encodeChar h⟩

/-- Wide strings without NUL are sendable once converted. -/
theorem sendable_wideCharToMultiByte {units : WideString} {text : Bytes}
    (h : wideCharToMultiByte units = some text) (hunits : 0 ∉ units) :
  Sendable text
  := by
  obtain ⟨characters, hcharacters, rfl⟩ := Option.map_eq_some_iff.mp h
  apply sendable_flatMap_encodeChar
  apply Utf16.null_not_mem_decode hcharacters hunits

/-- So are those converted with replacement characters. -/
theorem sendable_wideCharToMultiByteLossy {units : WideString} (hunits : 0 ∉ units) :
  Sendable (wideCharToMultiByteLossy units)
  := by
  apply sendable_flatMap_encodeChar
  apply Utf16.null_not_mem_decodeLossy _ hunits
  decide

/-- A C string has no NUL in it. -/
theorem Godmode.sendable_utf8 (value : WideString) :
  Sendable (Godmode.utf8 value)
  := by
  apply sendable_wideCharToMultiByteLossy
  intro hmem
  have hne := List.mem_takeWhile_imp hmem
  simp at hne

/-- A cleaned field is sendable. -/
theorem sendable_field {value : Bytes} (h : Utf8.Valid value) :
  Sendable (field value)
  := by
  have hfield := fieldText_field h
  use hfield.valid
  intro hnul
  have hle := (hfield.byte _ hnul).1
  contradiction

/-- What `utf8` converts is valid, and has no NUL in it if the string has none. -/
theorem valid_of_utf8 {value : WideString} {text : Bytes} (h : utf8 value = .ok text) :
  Utf8.Valid text
  := by
  rw [utf8] at h
  split at h
  · cases h
  split at h
  · rw [← Except.ok.inj h]
    apply Utf8.Valid.nil
  split at h
  · cases h
  · next htext =>
      rw [← Except.ok.inj h]
      apply valid_wideCharToMultiByte htext

/-- A reflected string without NUL is sendable. -/
theorem sendable_of_utf8 {value : WideString} {text : Bytes} (h : utf8 value = .ok text)
    (hvalue : 0 ∉ value) :
  Sendable text
  := by
  rw [utf8] at h
  split at h
  · cases h
  split at h
  · rw [← Except.ok.inj h]
    apply sendable_nil
  split at h
  · cases h
  · next htext =>
      rw [← Except.ok.inj h]
      apply sendable_wideCharToMultiByte htext hvalue

end OpenScumRcon
