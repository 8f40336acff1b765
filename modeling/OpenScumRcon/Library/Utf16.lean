import Mathlib.Data.List.Basic
import Mathlib.Tactic.Common

/-!
# UTF-16

A character is one code unit, or a pair of surrogates. Decoding fails on a surrogate that is
not part of a pair, and takes the encoding of characters back to the characters.
-/

namespace Utf16

/-- A high surrogate, the first unit of a pair. -/
def IsHigh (u : UInt16) : Prop :=
  0xd800 ≤ u ∧ u ≤ 0xdbff

/-- A low surrogate, the second unit of a pair. -/
def IsLow (u : UInt16) : Prop :=
  0xdc00 ≤ u ∧ u ≤ 0xdfff

instance (u : UInt16) : Decidable (IsHigh u) :=
  inferInstanceAs (Decidable (_ ∧ _))

instance (u : UInt16) : Decidable (IsLow u) :=
  inferInstanceAs (Decidable (_ ∧ _))

/-- The code units of a character. -/
def encodeChar (c : Char) : List UInt16 :=
  if c.toNat < 0x10000 then [UInt16.ofNat c.toNat]
  else
    [UInt16.ofNat (0xd800 + (c.toNat - 0x10000) / 0x400),
      UInt16.ofNat (0xdc00 + (c.toNat - 0x10000) % 0x400)]

/-- The characters of code units. There are none when a surrogate stands alone. -/
def decode : List UInt16 → Option (List Char)
  | [] => some []
  | u :: units =>
      if IsHigh u then
        match units with
        | [] => none
        | v :: units =>
            if IsLow v then
              (decode units).map
                (Char.ofNat (0x10000 + (u.toNat - 0xd800) * 0x400 + (v.toNat - 0xdc00)) :: ·)
            else none
      else if IsLow u then none
      else (decode units).map (Char.ofNat u.toNat :: ·)

/-- Decoding in which a surrogate that stands alone is replaced by `replacement`. -/
def decodeLossy (replacement : Char) : List UInt16 → List Char
  | [] => []
  | [u] => if IsHigh u ∨ IsLow u then [replacement] else [Char.ofNat u.toNat]
  | u :: v :: units =>
      if IsHigh u ∧ IsLow v then
        Char.ofNat (0x10000 + (u.toNat - 0xd800) * 0x400 + (v.toNat - 0xdc00))
          :: decodeLossy replacement units
      else if IsHigh u ∨ IsLow u then replacement :: decodeLossy replacement (v :: units)
      else Char.ofNat u.toNat :: decodeLossy replacement (v :: units)

/-- A unit that is no surrogate is a character. -/
theorem decode_single {u : UInt16} (hhigh : ¬ IsHigh u) (hlow : ¬ IsLow u)
    (units : List UInt16) :
  decode (u :: units) = (decode units).map (Char.ofNat u.toNat :: ·)
  := by
  cases units <;> simp [decode, hhigh, hlow]

/-- A surrogate pair is a character. -/
theorem decode_pair {u v : UInt16} (hhigh : IsHigh u) (hlow : IsLow v) (units : List UInt16) :
  decode (u :: v :: units) = (decode units).map
    (Char.ofNat (0x10000 + (u.toNat - 0xd800) * 0x400 + (v.toNat - 0xdc00)) :: ·)
  := by
  rw [decode, if_pos hhigh, if_pos hlow]

/-- The number of a character is outside the surrogates. -/
theorem toNat_cases (c : Char) :
  c.toNat < 0xd800 ∨ 0xdfff < c.toNat ∧ c.toNat < 0x110000
  := c.valid

/-- The encoding of a character is a unit outside the surrogates with its number, or a pair of
surrogates. -/
theorem encodeChar_cases (c : Char) :
  (∃ u, encodeChar c = [u] ∧ u.toNat = c.toNat ∧ ¬ IsHigh u ∧ ¬ IsLow u) ∨
    ∃ u v, encodeChar c = [u, v] ∧ IsHigh u ∧ IsLow v ∧
      0x10000 + (u.toNat - 0xd800) * 0x400 + (v.toNat - 0xdc00) = c.toNat
  := by
  have hcases := toNat_cases c
  rw [encodeChar]
  split
  · next hlt =>
      left
      have hunit : (UInt16.ofNat c.toNat).toNat = c.toNat := by
        rw [UInt16.toNat_ofNat']
        omega
      use UInt16.ofNat c.toNat, rfl, hunit
      constructor
      · rintro ⟨hle, hge⟩
        rw [UInt16.le_iff_toNat_le, hunit] at hle hge
        simp at hle hge
        omega
      · rintro ⟨hle, hge⟩
        rw [UInt16.le_iff_toNat_le, hunit] at hle hge
        simp at hle hge
        omega
  · next hge =>
      right
      generalize hn : c.toNat - 0x10000 = n
      have hbound : n < 0x100000 := by omega
      have hfirst : (UInt16.ofNat (0xd800 + n / 0x400)).toNat = 0xd800 + n / 0x400 := by
        rw [UInt16.toNat_ofNat']
        omega
      have hsecond : (UInt16.ofNat (0xdc00 + n % 0x400)).toNat = 0xdc00 + n % 0x400 := by
        rw [UInt16.toNat_ofNat']
        omega
      use UInt16.ofNat (0xd800 + n / 0x400), UInt16.ofNat (0xdc00 + n % 0x400), rfl
      constructor
      · constructor
        · rw [UInt16.le_iff_toNat_le, hfirst]
          simp
        · rw [UInt16.le_iff_toNat_le, hfirst]
          simp
          omega
      constructor
      · constructor
        · rw [UInt16.le_iff_toNat_le, hsecond]
          simp
        · rw [UInt16.le_iff_toNat_le, hsecond]
          simp
          omega
      · rw [hfirst, hsecond]
        omega

theorem decode_encodeChar_append (c : Char) (units : List UInt16) :
  decode (encodeChar c ++ units) = (decode units).map (c :: ·)
  := by
  obtain ⟨u, hc, hunit, hhigh, hlow⟩ | ⟨u, v, hc, hhigh, hlow, hvalue⟩ := encodeChar_cases c
  · rw [hc, List.singleton_append, decode_single hhigh hlow, hunit, Char.ofNat_toNat]
  · rw [hc, List.cons_append, List.singleton_append, decode_pair hhigh hlow, hvalue,
      Char.ofNat_toNat]

/-- Decoding is left inverse to encoding. -/
theorem decode_flatMap_encodeChar (characters : List Char) :
  decode (characters.flatMap encodeChar) = some characters
  := by
  induction characters with
  | nil => rfl
  | cons c characters ih =>
      rw [List.flatMap_cons, decode_encodeChar_append, ih]
      rfl

/-! ### Well-formed units -/

/-- Code units that encode characters. -/
def WellFormed (units : List UInt16) : Prop :=
  ∃ characters : List Char, units = characters.flatMap encodeChar

theorem isHigh_or_isLow_le {u : UInt16} (h : IsHigh u ∨ IsLow u) :
  0xd800 ≤ u.toNat
  := by
  obtain ⟨hle, -⟩ | ⟨hle, -⟩ := h
  · rw [UInt16.le_iff_toNat_le] at hle
    apply hle
  · rw [UInt16.le_iff_toNat_le] at hle
    apply Nat.le_trans _ hle
    decide

theorem IsHigh.not_isLow {u : UInt16} (h : IsHigh u) :
  ¬ IsLow u
  := by
  rintro ⟨hle, -⟩
  have hge := h.2
  rw [UInt16.le_iff_toNat_le] at hle hge
  simp at hle hge
  omega

/-- The encoding of characters does not end in the middle of a pair. -/
theorem not_isHigh_getLast? {characters : List Char} {u : UInt16}
    (h : (characters.flatMap encodeChar).getLast? = some u) :
  ¬ IsHigh u
  := by
  obtain rfl | ⟨characters, c, rfl⟩ := List.eq_nil_or_concat characters
  · cases h
  · rw [List.concat_eq_append, List.flatMap_append, List.flatMap_singleton] at h
    obtain ⟨v, hc, -, hhigh, -⟩ | ⟨v, w, hc, -, hlow, -⟩ := encodeChar_cases c
    · rw [hc, List.getLast?_concat] at h
      rw [← Option.some.inj h]
      apply hhigh
    · rw [hc, List.append_cons, List.getLast?_concat] at h
      rw [← Option.some.inj h]
      intro hhigh
      apply hhigh.not_isLow hlow

/-- A prefix of an encoding encodes a prefix of the characters, but for the first half of a pair
at its end. -/
theorem take_flatMap_encodeChar (characters : List Char) (n : ℕ) :
  ∃ first, first <+: characters ∧
    ((characters.flatMap encodeChar).take n = first.flatMap encodeChar ∨
      ∃ u, IsHigh u ∧
        (characters.flatMap encodeChar).take n = first.flatMap encodeChar ++ [u])
  := by
  induction characters generalizing n with
  | nil =>
      use [], List.prefix_rfl
      left
      apply List.take_nil
  | cons c characters ih =>
      rw [List.flatMap_cons]
      obtain hlt | hle := Nat.lt_or_ge n (encodeChar c).length
      · use [], List.nil_prefix
        rw [List.take_append_of_le_length (Nat.le_of_lt hlt)]
        obtain ⟨u, hc, -⟩ | ⟨u, v, hc, hhigh, -⟩ := encodeChar_cases c
        · left
          rw [hc, List.length_singleton] at hlt
          rw [Nat.lt_one_iff.mp hlt]
          rfl
        · rw [hc, List.length_cons, List.length_singleton] at hlt
          obtain rfl | rfl : n = 0 ∨ n = 1 := by omega
          · left
            rfl
          · right
            rw [hc]
            use u, hhigh
            rfl
      · obtain ⟨m, rfl⟩ := Nat.exists_eq_add_of_le hle
        obtain ⟨first, hfirst, htake⟩ := ih m
        use c :: first, List.prefix_cons_inj c |>.mpr hfirst
        rw [List.take_length_add_append, List.flatMap_cons]
        obtain htake | ⟨u, hhigh, htake⟩ := htake
        · left
          rw [htake]
        · right
          use u, hhigh
          rw [htake, List.append_assoc]

/-! ### The null character -/

theorem ofNat_ne_null {n : ℕ} (hvalid : n.isValidChar) (h : n ≠ 0) :
  Char.ofNat n ≠ '\x00'
  := by
  intro heq
  have hnat := congrArg Char.toNat heq
  rw [Char.ofNat, dif_pos hvalid] at hnat
  apply h hnat

theorem ofNat_unit_ne_null {u : UInt16} (h : ¬ (IsHigh u ∨ IsLow u)) (hu : u ≠ 0) :
  Char.ofNat u.toNat ≠ '\x00'
  := by
  apply ofNat_ne_null
  · simp only [IsHigh, IsLow, UInt16.le_iff_toNat_le, UInt16.reduceToNat] at h
    have hlt := u.toNat_lt
    rw [Nat.isValidChar]
    omega
  · intro hzero
    apply hu
    apply UInt16.toNat_inj.mp hzero

/-- No surrogate pair is the NUL character. -/
theorem ofNat_pair_ne_null {u v : UInt16} (hhigh : IsHigh u) (hlow : IsLow v) :
  Char.ofNat (0x10000 + (u.toNat - 0xd800) * 0x400 + (v.toNat - 0xdc00)) ≠ '\x00'
  := by
  simp only [IsHigh, IsLow, UInt16.le_iff_toNat_le, UInt16.reduceToNat] at hhigh hlow
  apply ofNat_ne_null
  · rw [Nat.isValidChar]
    omega
  · omega

/-- Where no unit is null, no character is. -/
theorem null_not_mem_decode {units : List UInt16} {characters : List Char}
    (h : decode units = some characters) (hunits : 0 ∉ units) :
  '\x00' ∉ characters
  := by
  induction units using decode.induct generalizing characters with
  | case1 =>
      cases h
      apply List.not_mem_nil
  | case2 u hhigh => simp [decode, hhigh] at h
  | case3 u hhigh v units hlow ih =>
      rw [decode_pair hhigh hlow] at h
      obtain ⟨rest, hrest, rfl⟩ := Option.map_eq_some_iff.mp h
      rw [List.mem_cons, not_or]
      use (ofNat_pair_ne_null hhigh hlow).symm
      apply ih hrest
      intro hmem
      apply hunits (List.mem_cons_of_mem _ (List.mem_cons_of_mem _ hmem))
  | case4 u hhigh v units hlow => simp [decode, hhigh, hlow] at h
  | case5 u units hhigh hlow =>
      cases units <;> simp [decode, hhigh, hlow] at h
  | case6 u units hhigh hlow ih =>
      rw [decode_single hhigh hlow] at h
      obtain ⟨rest, hrest, rfl⟩ := Option.map_eq_some_iff.mp h
      rw [List.mem_cons, not_or] at hunits ⊢
      use (ofNat_unit_ne_null (not_or.mpr ⟨hhigh, hlow⟩) (Ne.symm hunits.1)).symm
      apply ih hrest hunits.2

/-- Units without NUL decode to characters without NUL. -/
theorem null_not_mem_decodeLossy {replacement : Char} (hreplacement : replacement ≠ '\x00')
    {units : List UInt16} (hunits : 0 ∉ units) :
  '\x00' ∉ decodeLossy replacement units
  := by
  induction units using decodeLossy.induct with
  | case1 => apply List.not_mem_nil
  | case2 u h =>
      rw [decodeLossy, if_pos h, List.mem_singleton]
      apply hreplacement.symm
  | case3 u h =>
      rw [decodeLossy, if_neg h, List.mem_singleton]
      rw [List.mem_singleton] at hunits
      apply (ofNat_unit_ne_null h (Ne.symm hunits)).symm
  | case4 u v units h ih =>
      rw [decodeLossy, if_pos h, List.mem_cons, not_or]
      use (ofNat_pair_ne_null h.1 h.2).symm
      apply ih
      intro hmem
      apply hunits (List.mem_cons_of_mem _ (List.mem_cons_of_mem _ hmem))
  | case5 u v units h h' ih =>
      rw [decodeLossy, if_neg h, if_pos h', List.mem_cons, not_or]
      rw [List.mem_cons, not_or] at hunits
      use hreplacement.symm
      apply ih hunits.2
  | case6 u v units h h' ih =>
      rw [decodeLossy, if_neg h, if_neg h', List.mem_cons, not_or]
      rw [List.mem_cons, not_or] at hunits
      use (ofNat_unit_ne_null h' (Ne.symm hunits.1)).symm
      apply ih hunits.2

end Utf16
