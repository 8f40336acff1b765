import OpenScumRcon.Bytes
import OpenScumRcon.Library.Trim

/-!
# Strings

The functions of the standard library the parsers call on strings, and the small predicates
on bytes they share.
-/

namespace OpenScumRcon

/-- `std::string::find_first_not_of`, with no position for `npos`. -/
def findFirstNotOf (text : Bytes) (set : Bytes) : Option ℕ :=
  text.findIdx? (fun c => c ∉ set)

/-- `std::string::find_last_not_of`, with no position for `npos`. -/
def findLastNotOf (text : Bytes) (set : Bytes) : Option ℕ :=
  (text.reverse.findIdx? (fun c => c ∉ set)).map (fun i => text.length - 1 - i)

/-- The white space both parsers and the configuration reader trim. -/
def trimmedSet : Bytes :=
  [Byte.space, Byte.tab, Byte.carriageReturn, Byte.lineFeed]

/-- The part of a text from its first byte that is not in `trimmedSet` to its last. -/
def substrTrimmed (text : Bytes) : Option Bytes :=
  match findFirstNotOf text trimmedSet, findLastNotOf text trimmedSet with
  | some first, some last => some ((text.drop first).take (last - first + 1))
  | _, _ => none

/-- `lower_ascii`: the bytes `A` to `Z` in lower case. -/
def lowerAscii (s : Bytes) : Bytes :=
  s.map (fun c => if Byte.upperA ≤ c ∧ c ≤ Byte.upperZ then c + (Byte.lowerA - Byte.upperA) else c)

/-- At most one leading `#` is erased. -/
def eraseHash (verb : Bytes) : Bytes :=
  match verb with
  | [] => []
  | c :: rest => if c = Byte.hash then rest else c :: rest

def isDigit (c : Byte) : Bool :=
  Byte.digitZero ≤ c && c ≤ Byte.digitNine

/-- Exactly 17 decimal digits. -/
def steamIdValid (id : Bytes) : Bool :=
  id.length == 17 && id.all isDigit

theorem steamIdValid_iff {id : Bytes} :
  steamIdValid id = true ↔ id.length = 17 ∧ ∀ c ∈ id, isDigit c = true
  := by
  rw [steamIdValid, Bool.and_eq_true, beq_iff_eq, List.all_eq_true]

/-- Letters, digits and the underscore. -/
def isWordByte (c : Byte) : Bool :=
  (Byte.lowerA ≤ c && c ≤ Byte.lowerZ) || (Byte.upperA ≤ c && c ≤ Byte.upperZ)
    || (Byte.digitZero ≤ c && c ≤ Byte.digitNine) || c == Byte.underscore

/-- An integer as a stream or `std::to_string` writes it. -/
def decimal (i : ℤ) : Bytes :=
  let digits := (Nat.toDigits 10 i.natAbs).map fun c => UInt8.ofNat c.toNat
  if i < 0 then Byte.minus :: digits else digits

/-- In the set of trimmed bytes. -/
def isTrimmed (c : Byte) : Bool :=
  c ∈ trimmedSet

/-- A decimal is digits behind an optional sign. -/
theorem mem_decimal {i : ℤ} {c : Byte} (h : c ∈ decimal i) :
  c = Byte.minus ∨ isDigit c = true
  := by
  have hdigits : ∀ b ∈ (Nat.toDigits 10 i.natAbs).map (fun c => UInt8.ofNat c.toNat),
      isDigit b = true := by
    intro b hb
    obtain ⟨d, hd, rfl⟩ := List.mem_map.mp hb
    have hdigit := Nat.isDigit_of_mem_toDigits (by decide) (by decide) hd
    simp only [Char.isDigit, ge_iff_le, Bool.and_eq_true, decide_eq_true_eq,
      UInt32.le_iff_toNat_le] at hdigit
    have hlow : 48 ≤ d.toNat := hdigit.1
    have hhigh : d.toNat ≤ 57 := hdigit.2
    have hbyte : (UInt8.ofNat d.toNat).toNat = d.toNat := by
      rw [UInt8.toNat_ofNat']
      omega
    simp only [isDigit, Bool.and_eq_true, decide_eq_true_eq, UInt8.le_iff_toNat_le, hbyte,
      Byte.digitZero, Byte.digitNine, UInt8.reduceToNat]
    omega
  rw [decimal] at h
  split at h
  · rcases List.mem_cons.mp h with rfl | hmem
    · left
      rfl
    · right
      apply hdigits c hmem
  · right
    apply hdigits c h

/-! ### Trimming -/

/-- The search stops at the first byte that is not trimmed. -/
theorem findFirstNotOf_append {front text : Bytes} {c : Byte}
    (hfront : ∀ b ∈ front, isTrimmed b = true) (hc : isTrimmed c = false) :
  findFirstNotOf (front ++ c :: text) trimmedSet = some front.length
  := by
  have hnone : front.findIdx? (fun b => b ∉ trimmedSet) = none := by
    rw [List.findIdx?_eq_none_iff]
    intro b hb
    simpa [isTrimmed] using hfront b hb
  have hc' : c ∉ trimmedSet := by simpa [isTrimmed] using hc
  rw [findFirstNotOf, List.findIdx?_append, hnone, List.findIdx?_cons]
  simp [hc']

theorem findFirstNotOf_eq_none {text : Bytes} (h : ∀ b ∈ text, isTrimmed b = true) :
  findFirstNotOf text trimmedSet = none
  := by
  rw [findFirstNotOf, List.findIdx?_eq_none_iff]
  intro b hb
  simpa [isTrimmed] using h b hb

/-- The search from the back stops at the last such byte. -/
theorem findLastNotOf_append {text back : Bytes} {c : Byte}
    (hback : ∀ b ∈ back, isTrimmed b = true) (hc : isTrimmed c = false) :
  findLastNotOf (text ++ c :: back) trimmedSet = some text.length
  := by
  have hrev : (text ++ c :: back).reverse = back.reverse ++ c :: text.reverse := by
    simp
  have hfind : findFirstNotOf (back.reverse ++ c :: text.reverse) trimmedSet
      = some back.reverse.length := by
    apply findFirstNotOf_append _ hc
    simpa using hback
  rw [findFirstNotOf] at hfind
  rw [findLastNotOf, hrev, hfind, Option.map_some, List.length_append, List.length_cons,
    List.length_reverse]
  congr 1
  omega

/-- The part of a text between the trimmed bytes at its ends, when there is one. -/
theorem substrTrimmed_eq (text : Bytes) :
  substrTrimmed text = if text.trim isTrimmed = [] then none else some (text.trim isTrimmed)
  := by
  obtain ⟨front, back, htext, hfront, hback⟩ := List.exists_trim isTrimmed text
  obtain ⟨hhead, hlast⟩ := List.trimmed_trim isTrimmed text
  generalize text.trim isTrimmed = inner at *
  split
  · next hnil =>
      have hall : ∀ b ∈ text, isTrimmed b = true := by
        intro b hb
        rw [htext, hnil, List.append_nil, List.mem_append] at hb
        rcases hb with hb | hb
        · apply hfront b hb
        · apply hback b hb
      rw [substrTrimmed, findFirstNotOf_eq_none hall]
  · next hne =>
      obtain ⟨c, rest, hcons⟩ := List.exists_cons_of_ne_nil hne
      have hc : isTrimmed c = false := by
        apply hhead
        rw [hcons]
        rfl
      have hd : isTrimmed (inner.getLast hne) = false := by
        apply hlast
        rw [List.getLast?_eq_some_getLast hne]
        rfl
      have hfirst : findFirstNotOf text trimmedSet = some front.length := by
        rw [htext, hcons, List.append_assoc, List.cons_append]
        apply findFirstNotOf_append hfront hc
      have hend : findLastNotOf text trimmedSet = some (front ++ inner.dropLast).length := by
        have hsplit : text = (front ++ inner.dropLast) ++ inner.getLast hne :: back := by
          rw [htext]
          conv_lhs => rw [← List.dropLast_concat_getLast hne]
          simp
        rw [hsplit]
        apply findLastNotOf_append hback hd
      have hpos := List.length_pos_iff.mpr hne
      have hlen : (front ++ inner.dropLast).length - front.length + 1 = inner.length := by
        rw [List.length_append, List.length_dropLast]
        omega
      rw [substrTrimmed, hfirst, hend]
      dsimp only
      rw [hlen, htext, List.append_assoc, List.drop_left, List.take_left]

end OpenScumRcon
