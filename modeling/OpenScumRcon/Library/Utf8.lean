import Mathlib.Data.List.Basic
import Mathlib.Tactic.Common

/-!
# UTF-8 and its code point boundaries

A list of bytes is valid UTF-8 when it is a concatenation of the encodings of characters.
The encoding of a character is a byte that is not a continuation byte, followed by at most
three continuation bytes. So in valid text the code point boundaries are the positions
whose byte is not a continuation byte, cutting at one leaves two valid parts, and no
position is more than three bytes after one.
-/

namespace Utf8

/-- A continuation byte: its two highest bits are `10`. -/
def IsContinuation (b : UInt8) : Prop :=
  b &&& 0xc0 = 0x80

instance (b : UInt8) : Decidable (IsContinuation b) :=
  inferInstanceAs (Decidable (b &&& 0xc0 = 0x80))

/-- Concatenations of encoded characters. -/
inductive Valid : List UInt8 → Prop where
  | nil : Valid []
  | char (c : Char) {rest : List UInt8} : Valid rest → Valid (String.utf8EncodeChar c ++ rest)

/-- A code point boundary: the end of the text, or a position whose byte is not a
continuation byte. -/
def IsBoundary (text : List UInt8) (n : ℕ) : Prop :=
  n ≤ text.length ∧ ∀ b, text[n]? = some b → ¬ IsContinuation b

/-! ### The encoding of a character -/

theorem isContinuation_trailing (n : ℕ) :
  IsContinuation (UInt8.ofNat (n % 64 + 128))
  := by
  have h : ∀ k : Fin 64, IsContinuation (UInt8.ofNat (k + 128)) := by decide
  apply h ⟨n % 64, Nat.mod_lt n (by decide)⟩

theorem not_isContinuation_ascii {n : ℕ} (hn : n ≤ 127) :
  ¬ IsContinuation (UInt8.ofNat n)
  := by
  have h : ∀ k : Fin 128, ¬ IsContinuation (UInt8.ofNat k) := by decide
  apply h ⟨n, by omega⟩

theorem not_isContinuation_leading {n : ℕ} (hn : 192 ≤ n) (hn' : n < 256) :
  ¬ IsContinuation (UInt8.ofNat n)
  := by
  have h : ∀ k : Fin 64, ¬ IsContinuation (UInt8.ofNat (192 + k)) := by decide
  obtain ⟨k, rfl⟩ := Nat.exists_eq_add_of_le hn
  apply h ⟨k, by omega⟩

/-- A leading byte, then at most three continuation bytes. -/
theorem encodeChar_shape (c : Char) :
  ∃ b tail, String.utf8EncodeChar c = b :: tail ∧ ¬ IsContinuation b ∧
    (∀ t ∈ tail, IsContinuation t) ∧ tail.length ≤ 3
  := by
  unfold String.utf8EncodeChar
  dsimp only
  generalize c.val.toNat = v
  split
  · next h => exact ⟨_, _, rfl, not_isContinuation_ascii h, by simp, by simp⟩
  · split
    · refine ⟨_, _, rfl, not_isContinuation_leading (by omega) (by omega), ?_, by simp⟩
      simp only [List.forall_mem_cons, List.not_mem_nil, false_imp_iff, implies_true,
        isContinuation_trailing, and_self]
    · split
      · refine ⟨_, _, rfl, not_isContinuation_leading (by omega) (by omega), ?_, by simp⟩
        simp only [List.forall_mem_cons, List.not_mem_nil, false_imp_iff, implies_true,
          isContinuation_trailing, and_self]
      · refine ⟨_, _, rfl, not_isContinuation_leading (by omega) (by omega), ?_, by simp⟩
        simp only [List.forall_mem_cons, List.not_mem_nil, false_imp_iff, implies_true,
          isContinuation_trailing, and_self]

theorem length_encodeChar_le (c : Char) :
  (String.utf8EncodeChar c).length ≤ 4
  := by
  obtain ⟨b, tail, hc, -, -, htail⟩ := encodeChar_shape c
  rw [hc, List.length_cons]
  omega

/-! ### Boundaries of valid text -/

theorem IsBoundary.length (text : List UInt8) :
  IsBoundary text text.length
  := by
  use Nat.le_refl _
  simp

theorem Valid.append {s t : List UInt8} (hs : Valid s) (ht : Valid t) :
  Valid (s ++ t)
  := by
  induction hs with
  | nil => apply ht
  | char c _ ih =>
      rw [List.append_assoc]
      exact .char c ih

theorem Valid.flatMap_encodeChar (characters : List Char) :
  Valid (characters.flatMap String.utf8EncodeChar)
  := by
  induction characters with
  | nil => exact .nil
  | cons c characters ih =>
      rw [List.flatMap_cons]
      exact .char c ih

/-- The start of valid text is a boundary. -/
theorem Valid.isBoundary_zero {text : List UInt8} (h : Valid text) :
  IsBoundary text 0
  := by
  use Nat.zero_le _
  intro b hb
  cases h with
  | nil => simp at hb
  | char c _ =>
      obtain ⟨b', tail, hc, hb', -⟩ := encodeChar_shape c
      rw [hc, List.cons_append, List.getElem?_cons_zero] at hb
      rw [← Option.some.inj hb]
      apply hb'

/-- A text starts with the encoding of one character only. -/
theorem encodeChar_append_inj {c d : Char} {s t : List UInt8}
    (h : String.utf8EncodeChar c ++ s = String.utf8EncodeChar d ++ t) :
  c = d
  := by
  have hc := ByteArray.utf8DecodeChar?_utf8EncodeChar_append (b := s.toByteArray) (c := c)
  rw [← List.toByteArray_append, h, List.toByteArray_append,
    ByteArray.utf8DecodeChar?_utf8EncodeChar_append] at hc
  symm
  apply Option.some.inj hc

/-- Valid text that is not empty starts with a character. -/
theorem Valid.exists_char {text : List UInt8} (h : Valid text) (hne : text ≠ []) :
  ∃ c rest, text = String.utf8EncodeChar c ++ rest ∧ Valid rest
  := by
  cases h with
  | nil => contradiction
  | char c hrest => exact ⟨c, _, rfl, hrest⟩

/-- Inside the encoding of a character there is no boundary after its start. -/
theorem IsBoundary.zero_or_length_le {c : Char} {rest : List UInt8} {n : ℕ}
    (h : IsBoundary (String.utf8EncodeChar c ++ rest) n) :
  n = 0 ∨ (String.utf8EncodeChar c).length ≤ n
  := by
  obtain ⟨b, tail, hc, -, htail, -⟩ := encodeChar_shape c
  rw [hc] at h ⊢
  cases n with
  | zero => exact .inl rfl
  | succ k =>
      right
      by_contra hk
      have hlt : k < tail.length := by
        rw [List.length_cons] at hk
        omega
      have hget : (b :: tail ++ rest)[k + 1]? = some tail[k] := by
        rw [List.cons_append, List.getElem?_cons_succ, List.getElem?_append_left hlt,
          List.getElem?_eq_getElem hlt]
      apply h.2 _ hget
      apply htail
      apply List.getElem_mem

theorem isBoundary_append_right {s t : List UInt8} {n : ℕ} :
  IsBoundary (s ++ t) (s.length + n) ↔ IsBoundary t n
  := by
  unfold IsBoundary
  rw [List.length_append, List.getElem?_append_right (Nat.le_add_right _ _),
    Nat.add_sub_cancel_left]
  apply and_congr_left'
  omega

/-- A boundary of the rest of a text is one of the text. -/
theorem IsBoundary.of_drop {text : List UInt8} {n k : ℕ} (hn : n ≤ text.length)
    (h : IsBoundary (text.drop n) k) :
  IsBoundary text (n + k)
  := by
  have hsplit := isBoundary_append_right (s := text.take n) (t := text.drop n) (n := k)
  rw [List.take_append_drop, List.length_take_of_le hn] at hsplit
  apply hsplit.mpr h

/-- The end of a character before valid text is a boundary. -/
theorem Valid.isBoundary_length (c : Char) {rest : List UInt8} (h : Valid rest) :
  IsBoundary (String.utf8EncodeChar c ++ rest) (String.utf8EncodeChar c).length
  := isBoundary_append_right.mpr h.isBoundary_zero

/-- Cutting valid text at a boundary leaves two valid parts. -/
theorem Valid.split {text : List UInt8} (h : Valid text) {n : ℕ} (hn : IsBoundary text n) :
  Valid (text.take n) ∧ Valid (text.drop n)
  := by
  induction h generalizing n with
  | nil => simp [Valid.nil]
  | char c hrest ih =>
      obtain rfl | hle := hn.zero_or_length_le
      · rw [List.take_zero, List.drop_zero]
        exact ⟨.nil, .char c hrest⟩
      · obtain ⟨m, rfl⟩ := Nat.exists_eq_add_of_le hle
        obtain ⟨htake, hdrop⟩ := ih (isBoundary_append_right.mp hn)
        rw [List.take_length_add_append, List.drop_length_add_append]
        exact ⟨.char c htake, hdrop⟩

/-- No position of valid text is more than three bytes after a boundary. -/
theorem Valid.exists_isBoundary {text : List UInt8} (h : Valid text) {n : ℕ}
    (hn : n ≤ text.length) :
  ∃ m ≤ n, n ≤ m + 3 ∧ IsBoundary text m
  := by
  induction h generalizing n with
  | nil =>
      use n, Nat.le_refl n, Nat.le_add_right n 3, hn
      simp
  | char c hrest ih =>
      by_cases hc : n < (String.utf8EncodeChar c).length
      · have hlen := length_encodeChar_le c
        use 0, Nat.zero_le n, by omega
        apply (Valid.char c hrest).isBoundary_zero
      · obtain ⟨k, rfl⟩ := Nat.exists_eq_add_of_le (Nat.le_of_not_lt hc)
        rw [List.length_append] at hn
        obtain ⟨m, hmk, hkm, hm⟩ := ih (n := k) (by omega)
        use (String.utf8EncodeChar c).length + m, by omega, by omega
        apply isBoundary_append_right.mpr hm

/-- A position between two characters of the text, or at one of its ends. -/
def SplitsAt (text : List UInt8) (n : ℕ) : Prop :=
  n ≤ text.length ∧ Valid (text.take n) ∧ Valid (text.drop n)

/-- The boundaries of valid text are the positions between its characters. -/
theorem Valid.isBoundary_iff_splitsAt {text : List UInt8} (h : Valid text) {n : ℕ} :
  IsBoundary text n ↔ SplitsAt text n
  := by
  constructor
  · intro hn
    exact ⟨hn.1, h.split hn⟩
  · rintro ⟨hle, -, hdrop⟩
    obtain ⟨-, hzero⟩ := hdrop.isBoundary_zero
    use hle
    intro b hb
    apply hzero
    rw [List.getElem?_drop, Nat.add_zero, hb]

/-! ### Decoding -/

/-- The characters of a text. There are none when it is not valid. -/
def decode (text : List UInt8) : Option (List Char) :=
  (ByteArray.utf8Decode? ⟨text.toArray⟩).map Array.toList

theorem mk_toArray (text : List UInt8) :
  (⟨text.toArray⟩ : ByteArray) = text.toByteArray
  := by
  apply ByteArray.ext
  rw [List.data_toByteArray]

/-- Decoding gives the characters whose encoding the text is. -/
theorem decode_eq_some_iff {text : List UInt8} {characters : List Char} :
  decode text = some characters ↔ text = characters.flatMap String.utf8EncodeChar
  := by
  rw [decode, mk_toArray]
  constructor
  · intro h
    obtain ⟨decoded, hdecoded, rfl⟩ := Option.map_eq_some_iff.mp h
    have hsome : text.toByteArray.utf8Decode?.isSome = true := by
      rw [hdecoded]
      rfl
    have hencode : decoded.toList.utf8Encode = text.toByteArray := by
      have hget := ByteArray.utf8Encode_get_utf8Decode? (b := text.toByteArray) (h := hsome)
      simp only [hdecoded, Option.get_some] at hget
      apply hget
    have hdata := congrArg (fun b : ByteArray => b.data.toList) hencode
    simpa [List.utf8Encode] using hdata.symm
  · rintro rfl
    have hdecode := List.utf8Decode?_utf8Encode (l := characters)
    rw [List.utf8Encode] at hdecode
    rw [hdecode]
    rfl

/-! ### Replacing characters below 128 -/

/-- The encoding of a character is one byte below 128, or has no byte below 128. -/
theorem encodeChar_cases (c : Char) :
  (∃ n : ℕ, n < 128 ∧ String.utf8EncodeChar c = [UInt8.ofNat n]) ∨
    ∀ b ∈ String.utf8EncodeChar c, 128 ≤ b.toNat
  := by
  have hbyte : ∀ {n : ℕ}, 128 ≤ n → n < 256 → 128 ≤ (UInt8.ofNat n).toNat := by
    intro n hle hlt
    rw [UInt8.toNat_ofNat']
    omega
  unfold String.utf8EncodeChar
  dsimp only
  generalize c.val.toNat = v
  split
  · next h =>
      left
      use v, by omega
  · right
    split
    · simp only [List.forall_mem_cons, List.not_mem_nil, false_imp_iff, implies_true, and_true]
      exact ⟨hbyte (by omega) (by omega), hbyte (by omega) (by omega)⟩
    · split
      · simp only [List.forall_mem_cons, List.not_mem_nil, false_imp_iff, implies_true, and_true]
        exact ⟨hbyte (by omega) (by omega), hbyte (by omega) (by omega),
          hbyte (by omega) (by omega)⟩
      · simp only [List.forall_mem_cons, List.not_mem_nil, false_imp_iff, implies_true, and_true]
        exact ⟨hbyte (by omega) (by omega), hbyte (by omega) (by omega),
          hbyte (by omega) (by omega), hbyte (by omega) (by omega)⟩

/-- A byte below 128 is the encoding of a character. -/
theorem exists_encodeChar {b : UInt8} (h : b.toNat < 128) :
  ∃ c, String.utf8EncodeChar c = [b]
  := by
  have hascii : ∀ n : Fin 128, String.utf8EncodeChar (Char.ofNat n) = [UInt8.ofNat n] := by
    decide
  use Char.ofNat b.toNat
  rw [hascii ⟨b.toNat, h⟩, UInt8.ofNat_toNat]

/-- Replacing characters below 128 by others below 128 keeps a text valid. -/
theorem Valid.map {f : UInt8 → UInt8} (hlow : ∀ b, b.toNat < 128 → (f b).toNat < 128)
    (hhigh : ∀ b, 128 ≤ b.toNat → f b = b) {text : List UInt8} (h : Valid text) :
  Valid (text.map f)
  := by
  induction h with
  | nil => apply Valid.nil
  | char c hrest ih =>
      rw [List.map_append]
      rcases encodeChar_cases c with ⟨n, hn, hc⟩ | hc
      · have hb : (UInt8.ofNat n).toNat < 128 := by
          rw [UInt8.toNat_ofNat']
          omega
        obtain ⟨c', hc'⟩ := exists_encodeChar (hlow _ hb)
        rw [hc, List.map_singleton, ← hc']
        apply Valid.char c' ih
      · have hsame : (String.utf8EncodeChar c).map f = String.utf8EncodeChar c := by
          conv_rhs => rw [← List.map_id (String.utf8EncodeChar c)]
          apply List.map_congr_left
          intro b hb
          apply hhigh b (hc b hb)
        rw [hsame]
        apply Valid.char c ih

/-! ### Texts without null characters -/

/-- A character that is not null has no null byte in its encoding. -/
theorem zero_not_mem_encodeChar {c : Char} (h : c ≠ '\x00') :
  0 ∉ String.utf8EncodeChar c
  := by
  intro hmem
  rcases encodeChar_cases c with ⟨n, -, heq⟩ | hhigh
  · rw [heq, List.mem_singleton] at hmem
    rw [← hmem] at heq
    apply h
    apply encodeChar_append_inj (s := []) (t := [])
    rw [heq]
    rfl
  · have hle := hhigh 0 hmem
    contradiction

/-- Only the NUL character has a zero byte. -/
theorem zero_not_mem_flatMap_encodeChar {characters : List Char} (h : '\x00' ∉ characters) :
  0 ∉ characters.flatMap String.utf8EncodeChar
  := by
  rw [List.mem_flatMap]
  rintro ⟨c, hc, hmem⟩
  apply zero_not_mem_encodeChar _ hmem
  rintro rfl
  apply h hc

/-- A text of bytes below 128 is valid. -/
theorem valid_of_lt {text : List UInt8} (h : ∀ b ∈ text, b.toNat < 128) :
  Valid text
  := by
  induction text with
  | nil => apply Valid.nil
  | cons b text ih =>
      rw [List.forall_mem_cons] at h
      obtain ⟨c, hc⟩ := exists_encodeChar h.1
      rw [← List.singleton_append, ← hc]
      apply Valid.char c (ih h.2)

end Utf8
