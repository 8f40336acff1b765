import OpenScumRcon.Library.Numeral

/-!
# Flat JSON objects

`FlatJson.readObject` reads a JSON object whose members are numbers, strings and literals, without
white space and without escapes. All that it reads is JSON. An object that has been put together from
the texts of its members is read as these members.
-/

namespace FlatJson

/-- The value of a member. -/
inductive Scalar where
  | null
  | bool (b : Bool)
  | string (text : List UInt8)
  | number (x : Numeral)

/-! ### Reading -/

/-- A character of a string that is not escaped. -/
def isPlain (c : UInt8) : Bool :=
  32 ≤ c && c < 127 && c != 34 && c != 92

/-- A string behind its first quote. -/
def readString (text : List UInt8) : Option (List UInt8 × List UInt8) :=
  match text.dropWhile isPlain with
  | 34 :: rest => some (text.takeWhile isPlain, rest)
  | _ => none

def readScalar : List UInt8 → Option (Scalar × List UInt8)
  | 110 :: 117 :: 108 :: 108 :: rest => some (.null, rest)
  | 116 :: 114 :: 117 :: 101 :: rest => some (.bool true, rest)
  | 102 :: 97 :: 108 :: 115 :: 101 :: rest => some (.bool false, rest)
  | 34 :: text => (readString text).map fun x => (.string x.1, x.2)
  | text => (Numeral.read text).map fun x => (.number x.1, x.2)

/-- A key and its value. -/
def readMember : List UInt8 → Option ((List UInt8 × Scalar) × List UInt8)
  | 34 :: text =>
      match readString text with
      | some (key, 58 :: text) => (readScalar text).map fun x => ((key, x.1), x.2)
      | _ => none
  | _ => none

/-- At most so many members, up to the end of the object and of the text. -/
def readMembers : ℕ → List UInt8 → Option (List (List UInt8 × Scalar))
  | 0, _ => none
  | fuel + 1, text =>
      match readMember text with
      | some (x, [125]) => some [x]
      | some (x, 44 :: text) => (readMembers fuel text).map (x :: ·)
      | _ => none

def readObject : List UInt8 → Option (List (List UInt8 × Scalar))
  | 123 :: text => if text = [125] then some [] else readMembers text.length text
  | _ => none

/-! ### Writing -/

/-- A member, given the text of its value. -/
def member (key text : List UInt8) : List UInt8 :=
  34 :: key ++ 34 :: 58 :: text

/-- What follows a member in an object. -/
def Ends (rest : List UInt8) : Prop :=
  ∃ tail, rest = 44 :: tail ∨ rest = 125 :: tail

/-- The text is read as the value, wherever it stands in an object. -/
def Spells (text : List UInt8) (x : Scalar) : Prop :=
  ∀ rest, Ends rest → readScalar (text ++ rest) = some (x, rest)

theorem stops_of_ends {rest : List UInt8} (h : Ends rest) :
  Numeral.Stops rest
  := by
  obtain ⟨tail, rfl | rfl⟩ := h
  · intro c hc
    obtain rfl := Option.some.inj hc
    decide
  · intro c hc
    obtain rfl := Option.some.inj hc
    decide

/-- A string of plain bytes is read up to its closing quote. -/
theorem readString_append {text : List UInt8} (htext : ∀ c ∈ text, isPlain c = true)
    (rest : List UInt8) :
  readString (text ++ 34 :: rest) = some (text, rest)
  := by
  have hquote : isPlain 34 = false := rfl
  rw [readString, List.dropWhile_append_of_pos htext, List.takeWhile_append_of_pos htext,
    List.dropWhile_cons_of_neg (by rw [hquote]; decide),
    List.takeWhile_cons_of_neg (by rw [hquote]; decide), List.append_nil]
  rfl

theorem spells_null :
  Spells [110, 117, 108, 108] .null
  := fun _ _ => rfl

theorem spells_true :
  Spells [116, 114, 117, 101] (.bool true)
  := fun _ _ => rfl

/-- The spelling of a string of plain bytes. -/
theorem spells_string {text : List UInt8} (htext : ∀ c ∈ text, isPlain c = true) :
  Spells (34 :: text ++ [34]) (.string text)
  := by
  intro rest _
  have hread := readString_append htext rest
  rw [List.append_assoc, List.cons_append, List.singleton_append, readScalar, hread]
  rfl

/-- A text that begins with a sign or a digit is read as a number. -/
theorem spells_number {text : List UInt8} {x : Numeral}
    (hhead : ∃ c tail, text = c :: tail ∧ (c = 45 ∨ Numeral.isDigit c = true))
    (hread : ∀ rest, Numeral.Stops rest → Numeral.read (text ++ rest) = some (x, rest)) :
  Spells text (.number x)
  := by
  intro rest hrest
  have hnumber := hread rest (stops_of_ends hrest)
  obtain ⟨c, tail, rfl, hc⟩ := hhead
  rw [List.cons_append] at hnumber ⊢
  rw [readScalar, hnumber]
  · rfl
  all_goals
    intro _ heq
    obtain rfl := (List.cons.inj heq).1
    revert hc
    decide

/-- A member is read, with what follows it. -/
theorem readMember_append {key text : List UInt8} {x : Scalar}
    (hkey : ∀ c ∈ key, isPlain c = true) (h : Spells text x) {rest : List UInt8} (hrest : Ends rest) :
  readMember (member key text ++ rest) = some ((key, x), rest)
  := by
  have hread := readString_append hkey (58 :: (text ++ rest))
  have htext : member key text ++ rest = 34 :: (key ++ 34 :: 58 :: (text ++ rest)) := by
    simp [member]
  rw [htext, readMember, hread]
  change (readScalar (text ++ rest)).map _ = _
  rw [h rest hrest]
  rfl

/-- A member of an object, by its key, its text and its value. -/
structure Member where
  key : List UInt8
  text : List UInt8
  value : Scalar
  plain : ∀ c ∈ key, isPlain c = true
  spells : Spells text value

namespace Member

def write (m : Member) : List UInt8 :=
  member m.key m.text

def read (m : Member) : List UInt8 × Scalar :=
  (m.key, m.value)

end Member

/-- The text of an object, by its members. -/
def object (first : Member) (others : List Member) : List UInt8 :=
  123 :: first.write ++ (others.flatMap fun m => 44 :: m.write) ++ [125]

/-- The members of a written object are read back in order, with fuel for each. -/
theorem readMembers_append (first : Member) (others : List Member) {fuel : ℕ}
    (hfuel : others.length < fuel) :
  readMembers fuel (first.write ++ ((others.flatMap fun m => 44 :: m.write) ++ [125]))
    = some ((first :: others).map Member.read)
  := by
  induction others generalizing first fuel with
  | nil =>
      obtain ⟨fuel, rfl⟩ := Nat.exists_eq_add_one.mpr hfuel
      rw [List.flatMap_nil, List.nil_append, readMembers, Member.write,
        readMember_append first.plain first.spells ⟨[], .inr rfl⟩]
      rfl
  | cons second others ih =>
      obtain ⟨fuel, rfl⟩ := Nat.exists_eq_add_one.mpr (Nat.zero_lt_of_lt hfuel)
      rw [List.flatMap_cons, List.cons_append, List.cons_append, List.append_assoc, readMembers,
        Member.write, readMember_append first.plain first.spells ⟨_, .inl rfl⟩]
      change (readMembers fuel _).map _ = _
      rw [ih second (by rw [List.length_cons] at hfuel; omega)]
      rfl

theorem length_le_flatMap (others : List Member) :
  others.length ≤ (others.flatMap fun m => 44 :: m.write).length
  := by
  induction others with
  | nil => apply le_rfl
  | cons second others ih =>
      rw [List.flatMap_cons, List.length_append, List.length_cons, List.length_cons]
      omega

/-- An object is read as its members. -/
theorem readObject_object (first : Member) (others : List Member) :
  readObject (object first others) = some ((first :: others).map Member.read)
  := by
  have hlength := length_le_flatMap others
  rw [object, List.cons_append, List.cons_append, List.append_assoc, readObject, if_neg]
  · apply readMembers_append first others
    rw [List.length_append, List.length_append, List.length_singleton]
    omega
  · rw [Member.write, member]
    rintro ⟨⟩

end FlatJson
