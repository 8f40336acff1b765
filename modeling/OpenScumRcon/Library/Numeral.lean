import Mathlib.Data.List.DropRight
import OpenScumRcon.Library.SignificantDigits

/-!
# Numbers in texts

`Numeral.read` reads a number at the beginning of an ASCII text, as JSON writes numbers: a sign,
digits without a zero in front of them, a fraction, and an exponent. `Numeral.general` writes a
number as C does with the conversion `%g`. What it has written is read as the number with so many
significant digits.
-/

/-- A decimal number, as it is written. -/
structure Numeral where
  negative : Bool
  digits : ℕ
  exponent : ℤ

namespace Numeral

def magnitude (x : Numeral) : ℚ :=
  x.digits * 10 ^ x.exponent

/-! ### Digits -/

def isDigit (c : UInt8) : Bool :=
  48 ≤ c && c ≤ 57

/-- The number that digits are. -/
def ofDigits (digits : List UInt8) : ℕ :=
  digits.foldl (fun n c => 10 * n + (c.toNat - 48)) 0

/-- The last `n` digits of a number. -/
def lastDigits : ℕ → ℕ → List UInt8
  | 0, _ => []
  | n + 1, d => lastDigits n (d / 10) ++ [UInt8.ofNat (48 + d % 10)]

theorem toNat_digit {d : ℕ} (h : d < 10) :
  (UInt8.ofNat (48 + d)).toNat = 48 + d
  := by
  rw [UInt8.toNat_ofNat']
  omega

theorem ofDigits_concat (digits : List UInt8) (c : UInt8) :
  ofDigits (digits ++ [c]) = 10 * ofDigits digits + (c.toNat - 48)
  := by
  rw [ofDigits, ofDigits, List.foldl_concat]

theorem ofDigits_lastDigits (n d : ℕ) :
  ofDigits (lastDigits n d) = d % 10 ^ n
  := by
  induction n generalizing d with
  | zero => rw [pow_zero, Nat.mod_one]; rfl
  | succ n ih =>
      rw [lastDigits, ofDigits_concat, ih, toNat_digit (Nat.mod_lt d (by norm_num)), pow_succ',
        Nat.mod_mul]
      omega

theorem length_lastDigits (n d : ℕ) :
  (lastDigits n d).length = n
  := by
  induction n generalizing d with
  | zero => rfl
  | succ n ih => rw [lastDigits, List.length_append, ih, List.length_singleton]

theorem isDigit_lastDigits {n d : ℕ} :
  ∀ c ∈ lastDigits n d, isDigit c = true
  := by
  induction n generalizing d with
  | zero => simp [lastDigits]
  | succ n ih =>
      rw [lastDigits, List.forall_mem_append, List.forall_mem_singleton]
      use ih
      have h : ∀ k : Fin 10, isDigit (UInt8.ofNat (48 + k)) = true := by decide
      apply h ⟨d % 10, Nat.mod_lt d (by norm_num)⟩

theorem head?_lastDigits (n d : ℕ) :
  (lastDigits (n + 1) d).head? = some (UInt8.ofNat (48 + d / 10 ^ n % 10))
  := by
  induction n generalizing d with
  | zero => rw [pow_zero, Nat.div_one]; rfl
  | succ n ih =>
      rw [lastDigits, List.head?_append, ih, Option.some_or, Nat.div_div_eq_div_mul, pow_succ']

/-- A zero in front does not change the number. -/
theorem ofDigits_replicate_append (k : ℕ) (digits : List UInt8) :
  ofDigits (List.replicate k 48 ++ digits) = ofDigits digits
  := by
  induction k with
  | zero => rfl
  | succ k ih =>
      rw [List.replicate_succ, List.cons_append, ← ih]
      rfl

/-! ### Reading -/

/-- Digits at the beginning of a text, if there are any. -/
def readDigits (text : List UInt8) : Option (List UInt8 × List UInt8) :=
  if text.takeWhile isDigit = [] then none
  else some (text.takeWhile isDigit, text.dropWhile isDigit)

/-- The digits behind a point, if there is one. -/
def readFraction : List UInt8 → Option (List UInt8 × List UInt8)
  | 46 :: text => readDigits text
  | text => some ([], text)

/-- A sign in front of an exponent. -/
def readSign : List UInt8 → Bool × List UInt8
  | 45 :: text => (true, text)
  | 43 :: text => (false, text)
  | text => (false, text)

def readExponent : List UInt8 → Option (ℤ × List UInt8)
  | c :: text =>
      if c = 101 ∨ c = 69 then do
        let (digits, rest) ← readDigits (readSign text).2
        pure (if (readSign text).1 then -ofDigits digits else ofDigits digits, rest)
      else some (0, c :: text)
  | [] => some (0, [])

/-- A number at the beginning of a text, and the rest of it. -/
def read (text : List UInt8) : Option (Numeral × List UInt8) := do
  let negative : Bool := text.head? = some 45
  let (whole, text) ← readDigits (if negative then text.drop 1 else text)
  -- no zero in front of other digits
  if whole.head? = some 48 ∧ whole.length ≠ 1 then none
  else
    let (part, text) ← readFraction text
    let (exponent, text) ← readExponent text
    pure ({ negative, digits := ofDigits (whole ++ part), exponent := exponent - part.length }, text)

/-! ### Writing -/

/-- A fraction, without a point if it has no digits. -/
def fraction (part : List UInt8) : List UInt8 :=
  if part = [] then [] else 46 :: part

/-- Zeros at the end are left out. -/
def trimZeros (part : List UInt8) : List UInt8 :=
  part.rdropWhile (· = 48)

/-- An exponent has a sign and at least two digits. -/
def exponentText (x : ℤ) : List UInt8 :=
  101 :: (if x < 0 then 45 else 43) :: lastDigits (max 2 (Nat.log 10 x.natAbs + 1)) x.natAbs

/-- The conversion `%g` of a number that is not zero, with its first digit and `n` more. -/
def generalPositive (ties : ℕ → Bool) (n : ℕ) (v : ℚ) : List UInt8 :=
  let x := SignificantDigits.scientific ties n v
  let digits := lastDigits (n + 1) x.1
  if x.2 < -4 ∨ n < x.2 then
    digits.take 1 ++ fraction (trimZeros (digits.drop 1)) ++ exponentText x.2
  else if x.2 < 0 then
    48 :: fraction (trimZeros (List.replicate ((-x.2).toNat - 1) 48 ++ digits))
  else
    digits.take (x.2.toNat + 1) ++ fraction (trimZeros (digits.drop (x.2.toNat + 1)))

/-- The conversion `%g`. A zero has its sign. -/
def general (ties : ℕ → Bool) (n : ℕ) (negative : Bool) (v : ℚ) : List UInt8 :=
  (if negative then [45] else []) ++ if v = 0 then [48] else generalPositive ties n v

/-! ### What has been written is read -/

/-- A text that does not go on with the number in front of it. -/
def Stops (text : List UInt8) : Prop :=
  ∀ c, text.head? = some c → isDigit c = false ∧ c ≠ 46 ∧ c ≠ 101 ∧ c ≠ 69

/-- Digits are read up to the first byte that is none. -/
theorem readDigits_append {digits rest : List UInt8} (hne : digits ≠ [])
    (hdigits : ∀ c ∈ digits, isDigit c = true) (hrest : ∀ c, rest.head? = some c → isDigit c = false) :
  readDigits (digits ++ rest) = some (digits, rest)
  := by
  have htake : rest.takeWhile isDigit = [] := by
    cases rest with
    | nil => rfl
    | cons c rest => rw [List.takeWhile_cons, hrest c rfl, if_neg Bool.false_ne_true]
  have hdrop : rest.dropWhile isDigit = rest := by
    cases rest with
    | nil => rfl
    | cons c rest => rw [List.dropWhile_cons, hrest c rfl, if_neg Bool.false_ne_true]
  have htake' : (digits ++ rest).takeWhile isDigit = digits := by
    rw [List.takeWhile_append_of_pos hdigits, htake, List.append_nil]
  have hdrop' : (digits ++ rest).dropWhile isDigit = rest := by
    rw [List.dropWhile_append_of_pos hdigits, hdrop]
  rw [readDigits, htake', hdrop', if_neg hne]

/-- A written fraction is read back. -/
theorem readFraction_append {part rest : List UInt8} (hdigits : ∀ c ∈ part, isDigit c = true)
    (hrest : ∀ c, rest.head? = some c → isDigit c = false ∧ c ≠ 46) :
  readFraction (fraction part ++ rest) = some (part, rest)
  := by
  rw [fraction]
  split
  next hnil =>
    rw [hnil, List.nil_append, readFraction.eq_def]
    split
    next text => cases (hrest 46 rfl).2 rfl
    next => rfl
  next hne =>
    rw [List.cons_append, readFraction]
    apply readDigits_append hne hdigits
    intro c hc
    apply (hrest c hc).1

/-- A written exponent is read back. -/
theorem readExponent_append {x : ℤ} {rest : List UInt8} (hrest : Stops rest) :
  readExponent (exponentText x ++ rest) = some (x, rest)
  := by
  have hne : lastDigits (max 2 (Nat.log 10 x.natAbs + 1)) x.natAbs ≠ [] := by
    rw [← List.length_pos_iff, length_lastDigits]
    omega
  have hdigits : readDigits (lastDigits (max 2 (Nat.log 10 x.natAbs + 1)) x.natAbs ++ rest)
      = some (lastDigits (max 2 (Nat.log 10 x.natAbs + 1)) x.natAbs, rest) := by
    apply readDigits_append hne isDigit_lastDigits
    intro c hc
    apply (hrest c hc).1
  have hvalue : ofDigits (lastDigits (max 2 (Nat.log 10 x.natAbs + 1)) x.natAbs) = x.natAbs := by
    rw [ofDigits_lastDigits]
    apply Nat.mod_eq_of_lt
    apply (Nat.lt_pow_succ_log_self (b := 10) (by norm_num) _).trans_le
    apply Nat.pow_le_pow_right (by norm_num)
    omega
  rw [exponentText, List.cons_append, readExponent, if_pos (by decide)]
  by_cases hneg : x < 0
  · rw [if_pos hneg, List.cons_append, readSign]
    dsimp only
    rw [hdigits]
    dsimp only [Option.bind_eq_bind, Option.bind_some]
    rw [if_pos rfl, hvalue, Int.natCast_natAbs, abs_of_neg hneg, neg_neg]
    rfl
  · rw [if_neg hneg, List.cons_append, readSign]
    dsimp only
    rw [hdigits]
    dsimp only [Option.bind_eq_bind, Option.bind_some]
    rw [if_neg Bool.false_ne_true, hvalue, Int.natCast_natAbs, abs_of_nonneg (not_lt.mp hneg)]
    rfl

/-- The parts of a number, as `read` takes them. -/
structure Parts where
  negative : Bool
  whole : List UInt8
  part : List UInt8
  exponent : Option ℤ

namespace Parts

/-- The digits are digits, and none of those in front of the point is a zero in front of others. -/
structure Proper (x : Parts) : Prop where
  whole : ∀ c ∈ x.whole, isDigit c = true
  part : ∀ c ∈ x.part, isDigit c = true
  ne_nil : x.whole ≠ []
  zero : x.whole.head? = some 48 → x.whole.length = 1

def text (x : Parts) : List UInt8 :=
  (if x.negative then [45] else []) ++ (x.whole ++ (fraction x.part ++ (x.exponent.map exponentText).getD []))

def numeral (x : Parts) : Numeral where
  negative := x.negative
  digits := ofDigits (x.whole ++ x.part)
  exponent := x.exponent.getD 0 - x.part.length

/-- The exponent, if there is one. -/
def exponentOf (x : Parts) : List UInt8 :=
  (x.exponent.map exponentText).getD []

/-- An absent exponent is read as zero. -/
theorem readExponent_exponentOf (x : Parts) {rest : List UInt8} (hrest : Stops rest) :
  readExponent (x.exponentOf ++ rest) = some (x.exponent.getD 0, rest)
  := by
  rw [exponentOf]
  cases x.exponent with
  | some e => apply readExponent_append hrest
  | none =>
      cases rest with
      | nil => rfl
      | cons c rest =>
          obtain ⟨-, -, he, hE⟩ := hrest c rfl
          have hc : ¬ (c = 101 ∨ c = 69) := by
            rintro (heq | heq)
            · apply he heq
            · apply hE heq
          rw [Option.map_none, Option.getD_none, List.nil_append, readExponent, if_neg hc,
            Option.getD_none]

/-- Behind the fraction there is no digit and no point. -/
theorem exponentOf_stops (x : Parts) {rest : List UInt8} (hrest : Stops rest) :
  ∀ c, (x.exponentOf ++ rest).head? = some c → isDigit c = false ∧ c ≠ 46
  := by
  intro c hc
  rw [exponentOf] at hc
  cases hexponent : x.exponent with
  | none =>
      rw [hexponent] at hc
      obtain ⟨hdigit, hpoint, -⟩ := hrest c hc
      use hdigit, hpoint
  | some e =>
      rw [hexponent] at hc
      obtain rfl := Option.some.inj hc
      decide

/-- Behind the digits in front of the point there is no digit. -/
theorem fraction_stops (x : Parts) {rest : List UInt8} (hrest : Stops rest) :
  ∀ c, (fraction x.part ++ (x.exponentOf ++ rest)).head? = some c → isDigit c = false
  := by
  intro c hc
  rw [fraction] at hc
  split at hc
  · apply (x.exponentOf_stops hrest c hc).1
  · obtain rfl := Option.some.inj hc
    rfl

/-- A written numeral is read back. -/
theorem read_text {x : Parts} (hx : x.Proper) {rest : List UInt8} (hrest : Stops rest) :
  read (x.text ++ rest) = some (x.numeral, rest)
  := by
  have htext : x.text ++ rest = (if x.negative then [45] else [])
      ++ (x.whole ++ (fraction x.part ++ (x.exponentOf ++ rest))) := by
    rw [text, exponentOf, List.append_assoc, List.append_assoc, List.append_assoc]
  have hwhole := readDigits_append hx.ne_nil hx.whole (x.fraction_stops hrest)
  have hpart := readFraction_append hx.part (x.exponentOf_stops hrest)
  have hexponent := x.readExponent_exponentOf hrest
  have hzero : ¬ (x.whole.head? = some 48 ∧ x.whole.length ≠ 1) := by
    rintro ⟨hhead, hlength⟩
    apply hlength (hx.zero hhead)
  have hsign : decide ((x.text ++ rest).head? = some 45) = x.negative ∧
      (if x.negative then (x.text ++ rest).drop 1 else x.text ++ rest)
        = x.whole ++ (fraction x.part ++ (x.exponentOf ++ rest)) := by
    rw [htext]
    cases x.negative with
    | true => exact ⟨rfl, rfl⟩
    | false =>
        constructor
        · obtain ⟨c, whole, hcons⟩ := List.exists_cons_of_ne_nil hx.ne_nil
          rw [hcons]
          apply decide_eq_false
          intro hhead
          obtain rfl := Option.some.inj hhead
          have hdigit := hx.whole 45 (by rw [hcons]; apply List.mem_cons_self)
          cases hdigit
        · rfl
  obtain ⟨hhead, hbody⟩ := hsign
  rw [read]
  dsimp only
  rw [hhead, hbody, hwhole]
  dsimp only [Option.bind_eq_bind, Option.bind_some]
  rw [if_neg hzero, hpart]
  dsimp only [Option.bind_eq_bind, Option.bind_some]
  rw [hexponent]
  rfl

/-- The characters of a number. -/
theorem mem_text {x : Parts} (hx : x.Proper) {c : UInt8} (hc : c ∈ x.text) :
  isDigit c = true ∨ c ∈ [43, 45, 46, 101]
  := by
  rw [text, List.mem_append, List.mem_append, List.mem_append] at hc
  rcases hc with hsign | hwhole | hpart | hexponent
  · split at hsign
    · rw [List.mem_singleton.mp hsign]
      decide
    · cases hsign
  · left
    apply hx.whole c hwhole
  · rw [fraction] at hpart
    split at hpart
    · cases hpart
    · rcases List.mem_cons.mp hpart with rfl | hdigit
      · decide
      · left
        apply hx.part c hdigit
  · cases hx' : x.exponent with
    | none =>
        rw [hx'] at hexponent
        cases hexponent
    | some e =>
        rw [hx', Option.map_some, Option.getD_some, exponentText] at hexponent
        rcases List.mem_cons.mp hexponent with rfl | hrest
        · decide
        rcases List.mem_cons.mp hrest with rfl | hdigit
        · split
          · decide
          · decide
        · left
          apply isDigit_lastDigits c hdigit

/-- The number that has been written. -/
theorem magnitude_numeral (x : Parts) :
  x.numeral.magnitude = ofDigits (x.whole ++ x.part) * 10 ^ (x.exponent.getD 0 - x.part.length)
  := rfl

end Parts

/-- Zeros behind the point do not change the number. -/
theorem trimZeros_value (whole part : List UInt8) :
  (ofDigits (whole ++ trimZeros part) : ℚ) * 10 ^ (-(trimZeros part).length : ℤ)
    = ofDigits (whole ++ part) * 10 ^ (-part.length : ℤ)
  := by
  induction part using List.reverseRecOn with
  | nil => rfl
  | append_singleton part c ih =>
      rw [trimZeros]
      by_cases hc : c = 48
      · rw [List.rdropWhile_concat_pos _ _ _ (by rw [hc]; rfl), ← trimZeros, ih, ← List.append_assoc,
          ofDigits_concat, hc, List.length_append, List.length_singleton]
        have hexponent : -(part.length : ℤ) = -((part.length + 1 : ℕ) : ℤ) + 1 := by
          push_cast
          ring
        rw [hexponent, zpow_add_one₀ (by norm_num)]
        push_cast
        ring
      · rw [List.rdropWhile_concat_neg _ _ _ (by simpa using hc)]

/-- Zeros trimmed from the fraction do not change the number. -/
theorem magnitude_trimZeros (negative : Bool) (whole part : List UInt8) (exponent : Option ℤ) :
  ({ negative, whole, part := trimZeros part, exponent } : Parts).numeral.magnitude
    = ofDigits (whole ++ part) * 10 ^ (exponent.getD 0 - part.length)
  := by
  rw [Parts.magnitude_numeral]
  dsimp only
  rw [sub_eq_add_neg, sub_eq_add_neg, zpow_add₀ (by norm_num), zpow_add₀ (by norm_num),
    mul_left_comm, trimZeros_value, mul_left_comm]

/-! ### Significant digits -/

variable {ties : ℕ → Bool} {n : ℕ} {v : ℚ}

/-- The parts of what `%g` writes. -/
def generalParts (ties : ℕ → Bool) (n : ℕ) (negative : Bool) (v : ℚ) : Parts :=
  let x := SignificantDigits.scientific ties n v
  let digits := lastDigits (n + 1) x.1
  if v = 0 then { negative, whole := [48], part := [], exponent := none }
  else if x.2 < -4 ∨ n < x.2 then
    { negative, whole := digits.take 1, part := trimZeros (digits.drop 1), exponent := some x.2 }
  else if x.2 < 0 then
    { negative, whole := [48],
      part := trimZeros (List.replicate ((-x.2).toNat - 1) 48 ++ digits), exponent := none }
  else
    { negative, whole := digits.take (x.2.toNat + 1), part := trimZeros (digits.drop (x.2.toNat + 1)),
      exponent := none }

/-- The text of `%.*g` is that of its parts. -/
theorem general_eq (ties : ℕ → Bool) (n : ℕ) (negative : Bool) (v : ℚ) :
  general ties n negative v = (generalParts ties n negative v).text
  := by
  rw [general, generalParts, generalPositive]
  by_cases hv : v = 0
  · rw [if_pos hv, if_pos hv]
    rfl
  rw [if_neg hv, if_neg hv]
  by_cases hexponential : (SignificantDigits.scientific ties n v).2 < -4
      ∨ n < (SignificantDigits.scientific ties n v).2
  · rw [if_pos hexponential, if_pos hexponential, Parts.text, List.append_assoc]
    rfl
  rw [if_neg hexponential, if_neg hexponential]
  by_cases hnegative : (SignificantDigits.scientific ties n v).2 < 0
  · rw [if_pos hnegative, if_pos hnegative, Parts.text, Option.map_none, Option.getD_none,
      List.append_nil]
    rfl
  · rw [if_neg hnegative, if_neg hnegative, Parts.text, Option.map_none, Option.getD_none,
      List.append_nil]

theorem isDigit_trimZeros {part : List UInt8} (h : ∀ c ∈ part, isDigit c = true) :
  ∀ c ∈ trimZeros part, isDigit c = true
  := by
  intro c hc
  apply h c ((List.rdropWhile_prefix _ _).subset hc)

/-- The first of the significant digits is not zero. -/
theorem head?_scientific (ties : ℕ → Bool) (n : ℕ) (hv : 0 < v) :
  (lastDigits (n + 1) (SignificantDigits.scientific ties n v).1).head? ≠ some 48
  := by
  obtain ⟨hlow, hhigh⟩ := SignificantDigits.scientific_bounds ties n hv
  generalize (SignificantDigits.scientific ties n v).1 = d at hlow hhigh
  have hpos : 0 < d / 10 ^ n := Nat.div_pos hlow (by positivity)
  have hlt : d / 10 ^ n < 10 := by
    apply Nat.div_lt_of_lt_mul
    rw [← pow_succ]
    apply hhigh
  rw [head?_lastDigits, Nat.mod_eq_of_lt hlt]
  intro hzero
  have htoNat := congrArg UInt8.toNat (Option.some.inj hzero)
  rw [toNat_digit hlt] at htoNat
  have : (48 : UInt8).toNat = 48 := rfl
  omega

/-- The parts of a number are a numeral. -/
theorem proper_generalParts (ties : ℕ → Bool) (n : ℕ) (negative : Bool) (hv : 0 ≤ v) :
  (generalParts ties n negative v).Proper
  := by
  have hdigits := @isDigit_lastDigits (n + 1) (SignificantDigits.scientific ties n v).1
  have hlength := length_lastDigits (n + 1) (SignificantDigits.scientific ties n v).1
  rw [generalParts]
  by_cases hzero : v = 0
  · rw [if_pos hzero]
    exact ⟨List.forall_mem_singleton.mpr rfl, List.forall_mem_nil _, List.cons_ne_nil _ _,
      fun _ => rfl⟩
  have hhead := head?_scientific ties n (lt_of_le_of_ne hv (Ne.symm hzero))
  generalize lastDigits (n + 1) (SignificantDigits.scientific ties n v).1 = digits at *
  rw [if_neg hzero]
  -- digits in front of the point begin with the first significant digit
  have htake : ∀ k : ℕ, ∀ exponent : Option ℤ, ({
      negative
      whole := digits.take (k + 1)
      part := trimZeros (digits.drop (k + 1))
      exponent } : Parts).Proper := by
    intro k exponent
    constructor
    · intro c hc
      apply hdigits c (List.mem_of_mem_take hc)
    · apply isDigit_trimZeros
      intro c hc
      apply hdigits c (List.mem_of_mem_drop hc)
    · dsimp only
      rw [← List.length_pos_iff, List.length_take]
      omega
    · dsimp only
      rw [List.head?_take, if_neg (Nat.succ_ne_zero k)]
      intro hzero
      cases hhead hzero
  split_ifs
  · apply htake 0
  · constructor
    · exact List.forall_mem_singleton.mpr rfl
    · apply isDigit_trimZeros
      rw [List.forall_mem_append]
      use List.forall_mem_replicate.mpr (Or.inr rfl)
    · apply List.cons_ne_nil
    · intro
      rfl
  · apply htake

/-- What `%g` has written is read as the decimal number with the significant digits. -/
theorem magnitude_generalParts (ties : ℕ → Bool) (n : ℕ) (negative : Bool) (hv : 0 < v) :
  (generalParts ties n negative v).numeral.magnitude
    = SignificantDigits.value n (SignificantDigits.scientific ties n v)
  := by
  obtain ⟨-, hhigh⟩ := SignificantDigits.scientific_bounds ties n hv
  have hvalue := ofDigits_lastDigits (n + 1) (SignificantDigits.scientific ties n v).1
  have hlength := length_lastDigits (n + 1) (SignificantDigits.scientific ties n v).1
  rw [Nat.mod_eq_of_lt hhigh] at hvalue
  rw [generalParts, SignificantDigits.value, if_neg hv.ne']
  generalize lastDigits (n + 1) (SignificantDigits.scientific ties n v).1 = digits at *
  rw [← hvalue]
  generalize (SignificantDigits.scientific ties n v).2 = x at *
  split_ifs with hexponential hnegative
  · rw [magnitude_trimZeros, List.take_append_drop, List.length_drop, hlength]
    rfl
  · have hzeros : [48] ++ (List.replicate ((-x).toNat - 1) 48 ++ digits)
        = List.replicate ((-x).toNat - 1 + 1) 48 ++ digits := by
      rw [List.replicate_succ]
      rfl
    rw [magnitude_trimZeros, hzeros, ofDigits_replicate_append, List.length_append,
      List.length_replicate, hlength, Option.getD_none]
    congr 2
    omega
  · rw [magnitude_trimZeros, List.take_append_drop, List.length_drop, hlength, Option.getD_none]
    congr 2
    omega

/-- What `%g` has written is read, up to its end. -/
theorem read_general (ties : ℕ → Bool) (n : ℕ) (negative : Bool) (hv : 0 ≤ v) {rest : List UInt8}
    (hrest : Stops rest) :
  read (general ties n negative v ++ rest) = some ((generalParts ties n negative v).numeral, rest)
  := by
  rw [general_eq]
  apply Parts.read_text (proper_generalParts ties n negative hv) hrest

theorem negative_generalParts (ties : ℕ → Bool) (n : ℕ) (negative : Bool) (v : ℚ) :
  (generalParts ties n negative v).numeral.negative = negative
  := by
  rw [generalParts]
  split_ifs <;> rfl

theorem magnitude_generalParts_zero (ties : ℕ → Bool) (n : ℕ) (negative : Bool) :
  (generalParts ties n negative 0).numeral.magnitude = 0
  := by
  have hzero : ofDigits [48] = 0 := rfl
  rw [generalParts, if_pos rfl, Parts.magnitude_numeral]
  apply mul_eq_zero_of_left
  rw [List.append_nil, hzero, Nat.cast_zero]

end Numeral
