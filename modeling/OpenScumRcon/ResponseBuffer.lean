import Mathlib.Order.Bounds.Defs
import Mathlib.Order.Monotone.Basic
import OpenScumRcon.Bytes
import OpenScumRcon.Library.Utf8

/-!
# The size of a UTF-8 prefix

`utf8PrefixSize` cuts a text at a limit without cutting the continuation bytes of a code
point. It gives the greatest position up to the limit that is a code point boundary, and
`0` when there is none.
-/

namespace OpenScumRcon

open Utf8

/-- The loop of `utf8PrefixSize`: steps back from `size` while the byte after the cut is a
continuation byte. -/
def utf8PrefixSize.loop (text : Bytes) : ℕ → ℕ
  | 0 => 0
  | size + 1 =>
      if h : size + 1 < text.length then
        if text[size + 1] &&& 0xc0 = 0x80 then loop text size else size + 1
      else size + 1

/-- The length of the longest prefix of `text` of at most `limit` bytes that does not cut a
code point. -/
def utf8PrefixSize (text : Bytes) (limit : ℕ) : ℕ :=
  utf8PrefixSize.loop text (min text.length limit)

theorem utf8PrefixSize.loop_le (text : Bytes) (size : ℕ) :
  loop text size ≤ size
  := by
  induction size with
  | zero => apply Nat.le_refl 0
  | succ size ih =>
      rw [loop]
      split
      · split
        · apply Nat.le_succ_of_le ih
        · apply Nat.le_refl _
      · apply Nat.le_refl _

/-- The loop stops at a character boundary or at nothing. -/
theorem utf8PrefixSize.loop_isBoundary (text : Bytes) {size : ℕ} (h : size ≤ text.length) :
  loop text size = 0 ∨ IsBoundary text (loop text size)
  := by
  induction size with
  | zero => exact .inl rfl
  | succ size ih =>
      rw [loop]
      split
      · next hlt =>
          split
          · apply ih (Nat.le_of_succ_le h)
          · next hb =>
              right
              use h
              intro b hget
              rw [List.getElem?_eq_getElem hlt] at hget
              rw [← Option.some.inj hget]
              apply hb
      · next hge =>
          right
          have hsize : size + 1 = text.length := by omega
          rw [hsize]
          apply IsBoundary.length

theorem utf8PrefixSize.loop_greatest (text : Bytes) {size m : ℕ} (hm : m ≤ size)
    (h : IsBoundary text m) :
  m ≤ loop text size
  := by
  induction size with
  | zero => apply Nat.le_trans hm (Nat.zero_le _)
  | succ size ih =>
      rw [loop]
      split
      · next hlt =>
          split
          · next hb =>
              apply ih
              -- the byte at `size + 1` continues a code point, so the boundary is before it
              have hne : m ≠ size + 1 := by
                rintro rfl
                apply h.2 _ (List.getElem?_eq_getElem hlt) hb
              omega
          · apply hm
      · apply hm

theorem utf8PrefixSize.loop_le_succ (text : Bytes) (size : ℕ) :
  loop text size ≤ loop text (size + 1)
  := by
  rw [loop]
  split
  · split
    · apply Nat.le_refl _
    · apply Nat.le_succ_of_le (loop_le text size)
  · apply Nat.le_succ_of_le (loop_le text size)

/-! ### What the cut is -/

theorem utf8PrefixSize_le_length (text : Bytes) (limit : ℕ) :
  utf8PrefixSize text limit ≤ text.length
  := Nat.le_trans (utf8PrefixSize.loop_le _ _) (Nat.min_le_left _ _)

theorem utf8PrefixSize_le_limit (text : Bytes) (limit : ℕ) :
  utf8PrefixSize text limit ≤ limit
  := Nat.le_trans (utf8PrefixSize.loop_le _ _) (Nat.min_le_right _ _)

/-- The cut is a boundary, unless no boundary was found. -/
theorem utf8PrefixSize_isBoundary (text : Bytes) (limit : ℕ) :
  utf8PrefixSize text limit = 0 ∨ IsBoundary text (utf8PrefixSize text limit)
  := utf8PrefixSize.loop_isBoundary text (Nat.min_le_left _ _)

/-- No boundary up to the limit is after the cut. -/
theorem utf8PrefixSize_greatest (text : Bytes) {limit m : ℕ} (hm : m ≤ limit)
    (h : IsBoundary text m) :
  m ≤ utf8PrefixSize text limit
  := utf8PrefixSize.loop_greatest text (Nat.le_min.mpr ⟨h.1, hm⟩) h

/-- A text within the limit is not cut. -/
theorem utf8PrefixSize_of_length_le {text : Bytes} {limit : ℕ} (h : text.length ≤ limit) :
  utf8PrefixSize text limit = text.length
  := by
  apply Nat.le_antisymm (utf8PrefixSize_le_length text limit)
  apply utf8PrefixSize_greatest text h
  apply IsBoundary.length

/-- The cut of a valid text is a boundary. -/
theorem utf8PrefixSize_isBoundary_of_valid {text : Bytes} (h : Valid text) (limit : ℕ) :
  IsBoundary text (utf8PrefixSize text limit)
  := by
  obtain h0 | hb := utf8PrefixSize_isBoundary text limit
  · rw [h0]
    apply h.isBoundary_zero
  · apply hb

/-- At most three bytes of a valid text are given up. -/
theorem limit_le_utf8PrefixSize {text : Bytes} (h : Valid text) {limit : ℕ}
    (hlimit : limit ≤ text.length) :
  limit ≤ utf8PrefixSize text limit + 3
  := by
  obtain ⟨m, hm, hm', hb⟩ := h.exists_isBoundary hlimit
  have hle := utf8PrefixSize_greatest text hm hb
  omega

/-- A greater limit never makes the cut smaller. -/
theorem utf8PrefixSize_mono (text : Bytes) {limit limit' : ℕ} (h : limit ≤ limit') :
  utf8PrefixSize text limit ≤ utf8PrefixSize text limit'
  := by
  apply monotone_nat_of_le_succ (utf8PrefixSize.loop_le_succ text)
  omega

/-- The cut behind a text that fits is the cut of what follows it. -/
theorem utf8PrefixSize_append_of_length_le {text : Bytes} (rest : Bytes) {limit : ℕ}
    (hrest : Valid rest) (h : text.length ≤ limit) :
  utf8PrefixSize (text ++ rest) limit =
    text.length + utf8PrefixSize rest (limit - text.length)
  := by
  have hzero : IsBoundary (text ++ rest) (text.length + 0) := by
    apply isBoundary_append_right.mpr hrest.isBoundary_zero
  have hlength := utf8PrefixSize_greatest (text ++ rest) h hzero
  have hlimit := utf8PrefixSize_le_limit (text ++ rest) limit
  apply Nat.le_antisymm
  · obtain ⟨k, hk⟩ := Nat.exists_eq_add_of_le hlength
    obtain h0 | hb := utf8PrefixSize_isBoundary (text ++ rest) limit
    · omega
    · rw [hk] at hb ⊢
      apply Nat.add_le_add_left
      apply utf8PrefixSize_greatest rest (by omega)
      apply isBoundary_append_right.mp hb
  · have hle := utf8PrefixSize_le_limit rest (limit - text.length)
    apply utf8PrefixSize_greatest _ (by omega)
    apply isBoundary_append_right.mpr
    apply utf8PrefixSize_isBoundary_of_valid hrest

theorem utf8PrefixSize.loop_append {text : Bytes} (rest : Bytes) {size : ℕ}
    (h : size < text.length) :
  loop (text ++ rest) size = loop text size
  := by
  induction size with
  | zero => rfl
  | succ size ih =>
      rw [loop, loop, dif_pos h, dif_pos (by rw [List.length_append]; omega),
        List.getElem_append_left h, ih (Nat.lt_of_succ_lt h)]

/-- What follows a text over the limit does not change its cut. -/
theorem utf8PrefixSize_append_of_lt_length {text : Bytes} (rest : Bytes) {limit : ℕ}
    (h : limit < text.length) :
  utf8PrefixSize (text ++ rest) limit = utf8PrefixSize text limit
  := by
  rw [utf8PrefixSize, utf8PrefixSize, List.length_append, Nat.min_eq_right (by omega),
    Nat.min_eq_right (by omega)]
  apply utf8PrefixSize.loop_append rest h

/-- The first character behind the cut of a valid text reaches over the limit. -/
theorem exists_char_of_limit_lt {text : Bytes} (h : Valid text) {limit : ℕ}
    (hlimit : limit < text.length) :
  ∃ c rest, text.drop (utf8PrefixSize text limit) = String.utf8EncodeChar c ++ rest ∧
    limit < utf8PrefixSize text limit + (String.utf8EncodeChar c).length
  := by
  have hcut := utf8PrefixSize_isBoundary_of_valid h limit
  have hle := utf8PrefixSize_le_limit text limit
  have hne : text.drop (utf8PrefixSize text limit) ≠ [] := by
    rw [ne_eq, List.drop_eq_nil_iff]
    omega
  obtain ⟨c, rest, hdrop, hrest⟩ := (h.split hcut).2.exists_char hne
  use c, rest, hdrop
  by_contra hfits
  have hpos := List.length_pos_iff.mpr (String.utf8EncodeChar_ne_nil (c := c))
  -- otherwise the end of the character is a later boundary within the limit
  have hend : IsBoundary text
      (utf8PrefixSize text limit + (String.utf8EncodeChar c).length) := by
    apply IsBoundary.of_drop hcut.1
    rw [hdrop]
    apply hrest.isBoundary_length
  have hgreatest := utf8PrefixSize_greatest text (Nat.le_of_not_lt hfits) hend
  omega

/-- The cut of a valid text falls between two of its characters. -/
theorem splitsAt_utf8PrefixSize {text : Bytes} (h : Valid text) (limit : ℕ) :
  SplitsAt text (utf8PrefixSize text limit)
  := h.isBoundary_iff_splitsAt.mp (utf8PrefixSize_isBoundary_of_valid h limit)

theorem min_le_utf8PrefixSize {text : Bytes} (h : Valid text) (limit : ℕ) :
  min text.length limit ≤ utf8PrefixSize text limit + 3
  := by
  obtain hle | hle := Nat.le_total text.length limit
  · rw [Nat.min_eq_left hle, utf8PrefixSize_of_length_le hle]
    apply Nat.le_add_right
  · rw [Nat.min_eq_right hle]
    apply limit_le_utf8PrefixSize h hle

/-- The greatest safe cut: of valid text it is the greatest position up to the limit between
two characters, and of any bytes it is within its bounds and grows with the limit. -/
theorem utf8PrefixSize_greatest_cut (text : Bytes) (limit : ℕ) :
  (Valid text →
    IsGreatest {n | n ≤ limit ∧ SplitsAt text n} (utf8PrefixSize text limit) ∧
      min text.length limit ≤ utf8PrefixSize text limit + 3) ∧
    utf8PrefixSize text limit ≤ min text.length limit ∧
    (text.length ≤ limit → utf8PrefixSize text limit = text.length) ∧
    ∀ limit', limit ≤ limit' → utf8PrefixSize text limit ≤ utf8PrefixSize text limit'
  := by
  constructor
  · intro h
    constructor
    · constructor
      · exact ⟨utf8PrefixSize_le_limit text limit, splitsAt_utf8PrefixSize h limit⟩
      · rintro n ⟨hn, hsplit⟩
        apply utf8PrefixSize_greatest text hn
        apply h.isBoundary_iff_splitsAt.mpr hsplit
    · apply min_le_utf8PrefixSize h
  constructor
  · apply Nat.le_min.mpr
    exact ⟨utf8PrefixSize_le_length text limit, utf8PrefixSize_le_limit text limit⟩
  constructor
  · apply utf8PrefixSize_of_length_le
  · intro limit' hle
    apply utf8PrefixSize_mono text hle

/-- Two of the three bytes of the euro sign do not fit: the cut is before it. -/
theorem utf8PrefixSize_greatest_cut_euro :
  IsGreatest {n | n ≤ 3 ∧ SplitsAt [0x61, 0xe2, 0x82, 0xac] n} 1
  := ((utf8PrefixSize_greatest_cut [0x61, 0xe2, 0x82, 0xac] 3).1
      (.char 'a' (.char '€' .nil))).1

end OpenScumRcon
