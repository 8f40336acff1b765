import Mathlib.Algebra.Group.Int.Defs
import OpenScumRcon.CommandAuthority
import OpenScumRcon.Connection
import OpenScumRcon.DispatchRequest
import OpenScumRcon.GodmodeRequest

/-!
# The configuration

`loadConfig` reads the configuration file line by line, through a stream in text mode: the line
breaks of Windows are line feeds, and the byte `0x1a` ends the file. What stands behind a `;` or a
`#` is a comment, wherever in the line it begins. So the password that becomes effective is the
configured one up to its first such byte.
-/

namespace OpenScumRcon

open Protocol

structure Config where
  bindHost : Bytes := ascii "0.0.0.0"
  port : UInt16 := 28016
  password : Bytes := ascii "changeme"
  deriving DecidableEq

/-! ### Reading the file -/

/-- The bytes of a file, with the line breaks of Windows as line feeds. -/
def lineFeeds : Bytes → Bytes
  | [] => []
  | c :: rest =>
      if c = Byte.carriageReturn ∧ rest.head? = some Byte.lineFeed then lineFeeds rest
      else c :: lineFeeds rest

/-- A byte that does not end a text file. -/
def isText (c : Byte) : Bool :=
  c != Byte.substitute

/-- What `std::ifstream` has to read of a file, which it opens in text mode. -/
def textMode (file : Bytes) : Bytes :=
  (lineFeeds file).takeWhile isText

/-- The lines `std::getline` extracts one after another, up to the end of the stream. -/
def getlines : Bytes → List Bytes
  | [] => []
  | c :: rest =>
      if c = Byte.lineFeed then [] :: getlines rest
      else
        match getlines rest with
        | [] => [[c]]
        | line :: lines => (c :: line) :: lines

/-- The value of a list of decimal digits. -/
def decimalValue (digits : Bytes) : ℕ :=
  digits.foldl (fun n c => 10 * n + (c - Byte.digitZero).toNat) 0

/-- `std::stoi`: white space, a sign and decimal digits in front of anything else. -/
def stoi (text : Bytes) : Except Thrown ℤ :=
  let text := text.dropWhile Godmode.isSpace
  let unsigned := if text.head? = some Byte.plus ∨ text.head? = some Byte.minus then text.drop 1 else text
  let digits := unsigned.takeWhile isDigit
  if digits = [] then .error (Thrown.exception (ascii "invalid stoi argument"))
  else
    let value : ℤ := if text.head? = some Byte.minus then -decimalValue digits else decimalValue digits
    if value < -2 ^ 31 ∨ 2 ^ 31 ≤ value then
      .error (Thrown.exception (ascii "stoi argument out of range"))
    else .ok value

/-- A byte that begins a comment. -/
def isComment (c : Byte) : Bool :=
  c == Byte.semicolon || c == Byte.hash

def trimValue (s : Bytes) : Bytes :=
  (substrTrimmed s).getD []

/-- The key and the value of a line, when it has an equals sign in front of its comment. -/
def keyValue (line : Bytes) : Option (Bytes × Bytes) :=
  let line := line.takeWhile (fun c => !isComment c)
  match line.dropWhile (fun c => c != Byte.equals) with
  | [] => none
  | _ :: value => some (trimValue (line.takeWhile (fun c => c != Byte.equals)), trimValue value)

/-- The loop body of `loadConfig`. -/
def Config.readLine (config : Config) (line : Bytes) : Except Thrown Config :=
  match keyValue line with
  | none => .ok config
  | some (key, value) =>
      if key = ascii "bind_host" then .ok { config with bindHost := value }
      else if key = ascii "port" then
        (stoi value).map fun port => { config with port := UInt16.ofNat (port % 2 ^ 16).toNat }
      else if key = ascii "password" then .ok { config with password := value }
      else .ok config

/-- The configuration in a file. A file that cannot be opened is `none`. -/
def loadConfig (file : Option Bytes) : Except Thrown Config :=
  match file with
  | none => .ok {}
  | some file => (getlines (textMode file)).foldlM Config.readLine {}

/-! ### Numbers -/

/-- The number of a text of decimal digits. -/
def unsigned (text : Bytes) : Option ℤ :=
  if text ≠ [] ∧ text.all isDigit = true then some (decimalValue text) else none

/-- The number of a text that is a decimal integer, with a sign or without. -/
def integer (text : Bytes) : Option ℤ :=
  match text with
  | [] => none
  | c :: digits =>
      if c = Byte.plus then unsigned digits
      else if c = Byte.minus then (unsigned digits).map fun n => -n
      else unsigned (c :: digits)

/-- A text begins with an integer, perhaps behind white space. -/
def Leads (text : Bytes) (n : ℤ) : Prop :=
  ∃ blank number rest, text = blank ++ number ++ rest ∧
    (∀ c ∈ blank, Godmode.isSpace c = true) ∧ integer number = some n ∧
    ∀ c ∈ rest.head?, isDigit c = false

/-- The number of a port: a decimal integer in 16 bits. -/
def portNumber (value : Bytes) : Option ℤ :=
  (integer value).filter fun n => 0 ≤ n ∧ n < 2 ^ 16

def ValidPort (value : Bytes) : Prop :=
  ∃ n, portNumber value = some n

/-! ### The effective password -/

/-- The lines of a file, however much of it is read. -/
def fileLines (file : Bytes) : List Bytes :=
  getlines (lineFeeds file)

/-- A line that has no password and no invalid port. -/
structure OtherLine (line : Bytes) : Prop where
  password : ∀ value, keyValue line ≠ some (ascii "password", value)
  port : ∀ value, keyValue line = some (ascii "port", value) → ValidPort value

/-- The file has one line with a password, and it is `p`. No line above it ends the file. -/
def SetsPassword (file p : Bytes) : Prop :=
  ∃ front back, fileLines file = front ++ (ascii "password = " ++ p) :: back ∧
    (∀ line ∈ front ++ back, OtherLine line) ∧ ∀ line ∈ front, line.all isText = true

/-- A password that a line of the file can hold: without line breaks, and without blanks at
its ends. -/
structure OnLine (p : Bytes) : Prop where
  lineBreak : ∀ c ∈ p, c ≠ Byte.carriageReturn ∧ c ≠ Byte.lineFeed
  trimmed : p.Trimmed isBlank

/-- What is left of a password when the end of the file and the comment have been cut off. -/
def effectivePassword (p : Bytes) : Bytes :=
  ((p.takeWhile isText).takeWhile (fun c => !isComment c)).trim isTrimmed

/-! ### The lines that are read -/

/-- The lines up to the first byte that ends a text file. -/
def cutLines : List Bytes → List Bytes
  | [] => []
  | line :: lines =>
      if line.all isText then line :: cutLines lines
      else if line.takeWhile isText = [] then [] else [line.takeWhile isText]

theorem cutLines_cons_of_all {line : Bytes} (h : line.all isText = true) (lines : List Bytes) :
  cutLines (line :: lines) = line :: cutLines lines
  := by
  rw [cutLines, if_pos h]

/-- A byte in front of the lines is in front of those that are read. -/
theorem getlines_cons_cutLines {c : Byte} (hc : c ≠ Byte.lineFeed) (htext : isText c = true)
    {text text' : Bytes} (h : getlines text' = cutLines (getlines text)) :
  getlines (c :: text') = cutLines (getlines (c :: text))
  := by
  rw [getlines, getlines, if_neg hc, if_neg hc, h]
  cases getlines text with
  | nil => rw [cutLines, cutLines_cons_of_all (by simp [htext]), cutLines]
  | cons line lines =>
      rw [cutLines]
      dsimp only
      by_cases hall : line.all isText = true
      · rw [if_pos hall, cutLines_cons_of_all (by simp [htext, hall])]
      · have hnot : ¬ (c :: line).all isText = true := by
          rw [List.all_cons, htext, Bool.true_and]
          apply hall
        rw [if_neg hall, cutLines, if_neg hnot, List.takeWhile_cons_of_pos htext,
          if_neg (List.cons_ne_nil _ _)]
        by_cases hnil : line.takeWhile isText = []
        · rw [if_pos hnil, hnil]
        · rw [if_neg hnil]

/-- The lines of what is read are those up to the end of the text file. -/
theorem getlines_takeWhile (text : Bytes) :
  getlines (text.takeWhile isText) = cutLines (getlines text)
  := by
  induction text with
  | nil => rfl
  | cons c text ih =>
      by_cases hc : c = Byte.lineFeed
      · subst hc
        rw [List.takeWhile_cons_of_pos (by decide), getlines, getlines, if_pos rfl, if_pos rfl, ih,
          cutLines_cons_of_all rfl]
      cases htext : isText c with
      | true =>
          rw [List.takeWhile_cons_of_pos htext]
          apply getlines_cons_cutLines hc htext ih
      | false =>
          have hcut : ∀ line lines, cutLines ((c :: line) :: lines) = [] := by
            intro line lines
            rw [cutLines, List.all_cons, htext, Bool.false_and, if_neg Bool.false_ne_true,
              List.takeWhile_cons_of_neg (by simp [htext]), if_pos rfl]
          rw [List.takeWhile_cons_of_neg (by simp [htext]), getlines, getlines, if_neg hc]
          cases getlines text with
          | nil => rw [hcut]
          | cons line lines => rw [hcut]

/-- The lines `loadConfig` reads are those of the file, up to its end as a text file. -/
theorem getlines_textMode (file : Bytes) :
  getlines (textMode file) = cutLines (fileLines file)
  := getlines_takeWhile (lineFeeds file)

theorem cutLines_append {front : List Bytes} (h : ∀ line ∈ front, line.all isText = true)
    (lines : List Bytes) :
  cutLines (front ++ lines) = front ++ cutLines lines
  := by
  induction front with
  | nil => rfl
  | cons line front ih =>
      rw [List.forall_mem_cons] at h
      rw [List.cons_append, cutLines_cons_of_all h.1, ih h.2, List.cons_append]

/-- A line that is read is one of the file, or what is read of one. -/
theorem mem_cutLines {lines : List Bytes} {line : Bytes} (h : line ∈ cutLines lines) :
  ∃ line' ∈ lines, line = line' ∨ line = line'.takeWhile isText
  := by
  induction lines with
  | nil => cases h
  | cons line' lines ih =>
      rw [cutLines] at h
      split at h
      · rcases List.mem_cons.mp h with rfl | hrest
        · exact ⟨line, List.mem_cons_self, .inl rfl⟩
        · obtain ⟨line'', hmem, heq⟩ := ih hrest
          exact ⟨line'', List.mem_cons_of_mem _ hmem, heq⟩
      · split at h
        · cases h
        · exact ⟨line', List.mem_cons_self, .inr (List.mem_singleton.mp h)⟩

/-! ### Integers -/

/-- A digit is neither white space nor a sign. -/
theorem isDigit_ne {c : Byte} (h : isDigit c = true) :
  Godmode.isSpace c = false ∧ c ≠ Byte.plus ∧ c ≠ Byte.minus
  := by
  rw [isDigit, Bool.and_eq_true, decide_eq_true_iff, decide_eq_true_iff] at h
  and_intros
  · rw [Bool.eq_false_iff]
    intro hspace
    simp only [Godmode.isSpace, Bool.or_eq_true, Bool.and_eq_true, decide_eq_true_iff,
      beq_iff_eq] at hspace
    rcases hspace with ⟨-, hle⟩ | rfl
    · exact absurd (UInt8.le_trans h.1 hle) (by decide)
    · exact absurd h.1 (by decide)
  · rintro rfl
    exact absurd h.1 (by decide)
  · rintro rfl
    exact absurd h.1 (by decide)

theorem unsigned_eq_some_iff {digits : Bytes} {n : ℤ} :
  unsigned digits = some n ↔
    digits ≠ [] ∧ (∀ c ∈ digits, isDigit c = true) ∧ (decimalValue digits : ℤ) = n
  := by
  rw [unsigned, ← and_assoc, ← List.all_eq_true]
  split
  · next h => rw [Option.some_inj, and_iff_right h]
  · next h =>
      constructor
      · rintro ⟨⟩
      · rintro ⟨hdigits, -⟩
        cases h hdigits

/-- An integer is the number of its digits, behind a sign or without one. -/
theorem integer_eq_some_iff {text : Bytes} {n : ℤ} :
  integer text = some n ↔ ∃ digits m, unsigned digits = some m ∧
    (text = Byte.plus :: digits ∧ n = m ∨ text = Byte.minus :: digits ∧ n = -m ∨
      text = digits ∧ n = m)
  := by
  constructor
  · intro h
    cases text with
    | nil => cases h
    | cons c digits =>
        rw [integer] at h
        split at h
        · next hplus => exact ⟨digits, n, h, .inl ⟨by rw [hplus], rfl⟩⟩
        split at h
        · next hminus =>
            obtain ⟨m, hm, rfl⟩ := Option.map_eq_some_iff.mp h
            exact ⟨digits, m, hm, .inr (.inl ⟨by rw [hminus], rfl⟩)⟩
        · exact ⟨c :: digits, n, h, .inr (.inr ⟨rfl, rfl⟩)⟩
  · rintro ⟨digits, m, hdigits, ⟨rfl, rfl⟩ | ⟨rfl, rfl⟩ | ⟨rfl, rfl⟩⟩
    · rw [integer]
      apply hdigits
    · rw [integer, if_neg (by decide), if_pos rfl, hdigits]
      rfl
    · obtain ⟨hne, hall, -⟩ := unsigned_eq_some_iff.mp hdigits
      obtain ⟨c, rest, rfl⟩ := List.exists_cons_of_ne_nil hne
      obtain ⟨-, hplus, hminus⟩ := isDigit_ne (hall c List.mem_cons_self)
      rw [integer, if_neg hplus, if_neg hminus, hdigits]

/-- `std::stoi` takes the integer at the beginning of a text, if it is in the range of `int`. -/
theorem stoi_of_integer {blank number rest : Bytes} {n : ℤ}
    (hblank : ∀ c ∈ blank, Godmode.isSpace c = true) (hnumber : integer number = some n)
    (hrest : ∀ c ∈ rest.head?, isDigit c = false) :
  stoi (blank ++ number ++ rest) =
    if n < -2 ^ 31 ∨ 2 ^ 31 ≤ n then .error (Thrown.exception (ascii "stoi argument out of range"))
    else .ok n
  := by
  obtain ⟨digits, m, hdigits, hcases⟩ := integer_eq_some_iff.mp hnumber
  obtain ⟨hne, hall, rfl⟩ := unsigned_eq_some_iff.mp hdigits
  have htake : (digits ++ rest).takeWhile isDigit = digits := by
    rw [List.takeWhile_append_of_pos hall]
    cases rest with
    | nil => simp
    | cons c rest => rw [List.takeWhile_cons_of_neg (by simp [hrest c rfl]), List.append_nil]
  have hdrop : ∀ {c : Byte} {text : Bytes}, Godmode.isSpace c = false →
      (blank ++ c :: text).dropWhile Godmode.isSpace = c :: text := by
    intro c text hc
    rw [List.dropWhile_append_of_pos hblank, List.dropWhile_cons_of_neg (by simp [hc])]
  rw [List.append_assoc, stoi]
  rcases hcases with ⟨rfl, rfl⟩ | ⟨rfl, rfl⟩ | ⟨rfl, rfl⟩
  · rw [List.cons_append, hdrop (by decide)]
    simp [htake, hne, Byte.plus, Byte.minus]
  · rw [List.cons_append, hdrop (by decide)]
    simp [htake, hne]
  · obtain ⟨c, rest', rfl⟩ := List.exists_cons_of_ne_nil hne
    obtain ⟨hspace, hplus, hminus⟩ := isDigit_ne (hall c List.mem_cons_self)
    rw [List.cons_append] at htake ⊢
    rw [hdrop hspace]
    simp [htake, hplus, hminus]

/-- The digits at the beginning of a text are an integer, with a sign in front of them or without one,
and it ends where they do. -/
theorem exists_integer_of_digits (sign text : Bytes) {n : ℤ}
    (h : integer (sign ++ text.takeWhile isDigit) = some n) :
  ∃ number rest m, sign ++ text = number ++ rest ∧ integer number = some m ∧
    ∀ c ∈ rest.head?, isDigit c = false
  := by
  use sign ++ text.takeWhile isDigit, text.dropWhile isDigit, n
  rw [List.append_assoc, List.takeWhile_append_dropWhile]
  exact ⟨rfl, h, List.head?_dropWhile_blank isDigit text⟩

/-- A text that `std::stoi` takes has digits behind its white space and its sign. -/
theorem exists_leads_of_stoi {text : Bytes} {n : ℤ} (h : stoi text = .ok n) :
  ∃ m, Leads text m
  := by
  have hunsigned : ∀ {text : Bytes}, text.takeWhile isDigit ≠ [] →
      unsigned (text.takeWhile isDigit) = some (decimalValue (text.takeWhile isDigit) : ℤ) := by
    intro text hne
    apply unsigned_eq_some_iff.mpr
    exact ⟨hne, fun c hc => List.mem_takeWhile_imp hc, rfl⟩
  suffices hnumber : ∃ number rest m, text.dropWhile Godmode.isSpace = number ++ rest ∧
      integer number = some m ∧ ∀ c ∈ rest.head?, isDigit c = false by
    obtain ⟨number, rest, m, hdrop, hinteger, hrest⟩ := hnumber
    use m, text.takeWhile Godmode.isSpace, number, rest
    refine ⟨?_, fun c hc => List.mem_takeWhile_imp hc, hinteger, hrest⟩
    rw [List.append_assoc, ← hdrop, List.takeWhile_append_dropWhile]
  rw [stoi] at h
  generalize text.dropWhile Godmode.isSpace = text at h ⊢
  by_cases hplus : text.head? = some Byte.plus
  · obtain ⟨digits, rfl⟩ := List.head?_eq_some_iff.mp hplus
    have hne : digits.takeWhile isDigit ≠ [] := by
      intro hnil
      simp [hnil] at h
    apply exists_integer_of_digits [Byte.plus] digits
    apply integer_eq_some_iff.mpr
    exact ⟨_, _, hunsigned hne, .inl ⟨rfl, rfl⟩⟩
  by_cases hminus : text.head? = some Byte.minus
  · obtain ⟨digits, rfl⟩ := List.head?_eq_some_iff.mp hminus
    have hne : digits.takeWhile isDigit ≠ [] := by
      intro hnil
      simp [hnil] at h
    apply exists_integer_of_digits [Byte.minus] digits
    apply integer_eq_some_iff.mpr
    exact ⟨_, _, hunsigned hne, .inr (.inl ⟨rfl, rfl⟩)⟩
  · have hne : text.takeWhile isDigit ≠ [] := by
      intro hnil
      simp [hplus, hminus, hnil] at h
    apply exists_integer_of_digits [] text
    apply integer_eq_some_iff.mpr
    exact ⟨_, _, hunsigned hne, .inr (.inr ⟨rfl, rfl⟩)⟩

/-- `std::stoi` takes a text exactly when it begins with an integer in the range of `int`. -/
theorem stoi_eq_ok_iff {text : Bytes} {n : ℤ} :
  stoi text = .ok n ↔ Leads text n ∧ -2 ^ 31 ≤ n ∧ n < 2 ^ 31
  := by
  constructor
  · intro h
    obtain ⟨m, blank, number, rest, rfl, hblank, hinteger, hrest⟩ := exists_leads_of_stoi h
    rw [stoi_of_integer hblank hinteger hrest] at h
    split at h
    · cases h
    next hrange =>
    obtain rfl := Except.ok.inj h
    use ⟨blank, number, rest, rfl, hblank, hinteger, hrest⟩
    omega
  · rintro ⟨⟨blank, number, rest, rfl, hblank, hinteger, hrest⟩, hmin, hmax⟩
    rw [stoi_of_integer hblank hinteger hrest, if_neg (by omega)]

/-- The number of a port is taken as it is. -/
theorem stoi_of_portNumber {value : Bytes} {n : ℤ} (h : portNumber value = some n) :
  stoi value = .ok n ∧ 0 ≤ n ∧ n < 2 ^ 16
  := by
  rw [portNumber, Option.filter_eq_some_iff] at h
  obtain ⟨hinteger, hrange⟩ := h
  rw [decide_eq_true_iff] at hrange
  have hleads : Leads value n := by
    use [], value, []
    simp [hinteger]
  refine ⟨stoi_eq_ok_iff.mpr ⟨hleads, ?_, ?_⟩, hrange⟩
  · omega
  · omega

/-! ### The other lines -/

theorem trimValue_eq (s : Bytes) :
  trimValue s = s.trim isTrimmed
  := by
  rw [trimValue, substrTrimmed_eq]
  split
  · next hnil =>
      rw [hnil]
      rfl
  · rfl

/-- What is not trimmed stays in a text. -/
theorem mem_trimValue {text : Bytes} {c : Byte} (hc : c ∈ text) (hblank : isTrimmed c = false) :
  c ∈ trimValue text
  := by
  rw [trimValue_eq]
  obtain ⟨front, back, htext, hfront, hback⟩ := List.exists_trim isTrimmed text
  rw [htext, List.mem_append, List.mem_append] at hc
  rcases hc with (hc | hc) | hc
  · rw [hfront c hc] at hblank
    cases hblank
  · apply hc
  · rw [hback c hc] at hblank
    cases hblank

/-- What is read of a line has the key of the line, or none, and its value, or one that the end of
the file has cut off. -/
theorem keyValue_takeWhile (line : Bytes) :
  keyValue (line.takeWhile isText) = none ∨ ∃ key value value',
    keyValue line = some (key, value) ∧ keyValue (line.takeWhile isText) = some (key, value') ∧
    (value' = value ∨ Byte.substitute ∈ value)
  := by
  have hcommute : (line.takeWhile isText).takeWhile (fun c => !isComment c) =
      (line.takeWhile fun c => !isComment c).takeWhile isText := by
    rw [List.takeWhile_takeWhile, List.takeWhile_takeWhile]
    congr 1
    funext c
    rw [decide_eq_decide]
    apply and_comm
  rw [keyValue, keyValue, hcommute]
  generalize line.takeWhile (fun c => !isComment c) = text
  by_cases hall : ∀ c ∈ text, isText c = true
  · rw [List.takeWhile_eq_self_iff.mpr hall]
    split
    · left
      rfl
    · right
      exact ⟨_, _, _, rfl, rfl, .inl rfl⟩
  -- the end of the file is in front of the comment
  obtain ⟨back, hback⟩ : ∃ back, text = text.takeWhile isText ++ Byte.substitute :: back := by
    have hne : text.dropWhile isText ≠ [] := by
      intro hnil
      rw [List.dropWhile_eq_nil_iff] at hnil
      apply hall hnil
    obtain ⟨c, back, hcons⟩ := List.exists_cons_of_ne_nil hne
    have hc := List.head?_dropWhile_blank isText text c (by rw [hcons]; rfl)
    have hsubstitute : c = Byte.substitute := by
      simpa [isText] using hc
    use back
    rw [← hsubstitute, ← hcons, List.takeWhile_append_dropWhile]
  generalize text.takeWhile isText = front at hback
  subst hback
  cases hdrop : front.dropWhile (fun c => c != Byte.equals) with
  | nil =>
      left
      rfl
  | cons c value =>
      have hlength : (front.takeWhile fun c => c != Byte.equals).length ≠ front.length := by
        have hsplit := congrArg List.length
          (List.takeWhile_append_dropWhile (l := front) (p := fun c => c != Byte.equals))
        rw [hdrop, List.length_append, List.length_cons] at hsplit
        omega
      right
      rw [List.dropWhile_append, List.takeWhile_append, hdrop, if_neg hlength]
      refine ⟨_, _, _, rfl, rfl, .inr ?_⟩
      apply mem_trimValue _ (by decide)
      simp

/-- An integer is made of digits and a sign. -/
theorem isText_of_integer {text : Bytes} {n : ℤ} (h : integer text = some n) :
  Byte.substitute ∉ text
  := by
  obtain ⟨digits, m, hdigits, hcases⟩ := integer_eq_some_iff.mp h
  obtain ⟨-, hall, -⟩ := unsigned_eq_some_iff.mp hdigits
  have hnot : Byte.substitute ∉ digits := by
    intro hmem
    cases hall _ hmem
  rcases hcases with ⟨rfl, -⟩ | ⟨rfl, -⟩ | ⟨rfl, -⟩
  · rw [List.mem_cons, not_or]
    exact ⟨by decide, hnot⟩
  · rw [List.mem_cons, not_or]
    exact ⟨by decide, hnot⟩
  · apply hnot

theorem ValidPort.isText {value : Bytes} (h : ValidPort value) :
  Byte.substitute ∉ value
  := by
  obtain ⟨n, hn⟩ := h
  rw [portNumber, Option.filter_eq_some_iff] at hn
  apply isText_of_integer hn.1

theorem otherLine_of_none {line : Bytes} (h : keyValue line = none) :
  OtherLine line
  := by
  constructor
  · intro value hvalue
    rw [h] at hvalue
    cases hvalue
  · intro value hvalue
    rw [h] at hvalue
    cases hvalue

theorem otherLine_of_port {line : Bytes} (value : Bytes)
    (h : keyValue line = some (ascii "port", value)) (hvalue : ValidPort value) :
  OtherLine line
  := by
  constructor
  · intro value' hpassword
    rw [h] at hpassword
    obtain ⟨hkey, -⟩ := Prod.mk.inj (Option.some.inj hpassword)
    revert hkey
    decide
  · intro value' hport
    rw [h] at hport
    obtain ⟨-, rfl⟩ := Prod.mk.inj (Option.some.inj hport)
    apply hvalue

/-- What is read of another line is another line. -/
theorem OtherLine.takeWhile {line : Bytes} (h : OtherLine line) :
  OtherLine (line.takeWhile isText)
  := by
  rcases keyValue_takeWhile line with hnone | ⟨key, value, value', hline, hread, hvalue⟩
  · apply otherLine_of_none hnone
  · constructor
    · intro other hpassword
      rw [hread] at hpassword
      obtain ⟨rfl, -⟩ := Prod.mk.inj (Option.some.inj hpassword)
      apply h.password value hline
    · intro other hport
      rw [hread] at hport
      obtain ⟨rfl, rfl⟩ := Prod.mk.inj (Option.some.inj hport)
      have hvalid := h.port value hline
      rcases hvalue with rfl | hcut
      · apply hvalid
      · cases hvalid.isText hcut

/-- The lines that are read of a file that sets a password. The line of the password is read up to
the end of the file. -/
theorem SetsPassword.getlines {file p : Bytes} (h : SetsPassword file p) :
  ∃ front back, getlines (textMode file) = front ++ (ascii "password = " ++ p.takeWhile isText) :: back
    ∧ ∀ line ∈ front ++ back, OtherLine line
  := by
  obtain ⟨front, back, hlines, hother, hfront⟩ := h
  rw [List.forall_mem_append] at hother
  have hkey : ∀ c ∈ ascii "password = ", OpenScumRcon.isText c = true :=
    forall_mem_of_all (by decide)
  rw [getlines_textMode, hlines, cutLines_append hfront, cutLines,
    List.takeWhile_append_of_pos hkey]
  split
  · next hall =>
      rw [List.all_append, Bool.and_eq_true, List.all_eq_true, List.all_eq_true] at hall
      use front, cutLines back
      constructor
      · rw [List.takeWhile_eq_self_iff.mpr hall.2]
      · rw [List.forall_mem_append]
        use hother.1
        intro line hline
        obtain ⟨line', hmem, rfl | rfl⟩ := mem_cutLines hline
        · apply hother.2 line hmem
        · apply (hother.2 line' hmem).takeWhile
  · have hne : ascii "password = " ++ p.takeWhile isText ≠ [] :=
      List.append_ne_nil_of_left_ne_nil (by decide) _
    use front, []
    constructor
    · rw [if_neg hne]
    · rw [List.append_nil]
      apply hother.1

/-! ### The password that is read -/

/-- A line without a password leaves the password as it is. -/
theorem Config.readLine_of_other (config : Config) {line : Bytes} (h : OtherLine line) :
  ∃ config', config.readLine line = .ok config' ∧ config'.password = config.password
  := by
  rw [readLine]
  split
  · use config
  next key value hkey =>
  split
  · use { config with bindHost := value }
  split
  · next hport =>
      rw [hport] at hkey
      obtain ⟨n, hn⟩ := h.port value hkey
      rw [(stoi_of_portNumber hn).1]
      use { config with port := UInt16.ofNat (n % 2 ^ 16).toNat }
      constructor
      · rfl
      · rfl
  split
  · next hpassword =>
      rw [hpassword] at hkey
      apply absurd hkey (h.password value)
  · use config

theorem foldlM_readLine_of_other {lines : List Bytes} (h : ∀ line ∈ lines, OtherLine line)
    (config : Config) :
  ∃ config', lines.foldlM Config.readLine config = .ok config' ∧
    config'.password = config.password
  := by
  induction lines generalizing config with
  | nil => use config, rfl
  | cons line lines ih =>
      rw [List.forall_mem_cons] at h
      obtain ⟨config₁, hread, hpassword⟩ := config.readLine_of_other h.1
      obtain ⟨config₂, hfold, hpassword'⟩ := ih h.2 config₁
      use config₂
      rw [List.foldlM_cons, hread]
      use hfold
      rw [hpassword', hpassword]

/-- What is read of the line of the password has the effective password for its value. -/
theorem keyValue_password (p : Bytes) :
  keyValue (ascii "password = " ++ p.takeWhile isText) =
    some (ascii "password", effectivePassword p)
  := by
  have hcomment : ∀ c ∈ ascii "password = ", (!isComment c) = true :=
    forall_mem_of_all (by decide)
  have hkey : ∀ c ∈ ascii "password ", (c != Byte.equals) = true :=
    forall_mem_of_all (by decide)
  have hsplit : ascii "password = " = ascii "password " ++ [Byte.equals, Byte.space] := by
    decide
  have htrim : trimValue (ascii "password ") = ascii "password" := by
    decide
  rw [keyValue, List.takeWhile_append_of_pos hcomment, hsplit, List.append_assoc,
    List.dropWhile_append_of_pos hkey, List.takeWhile_append_of_pos hkey]
  simp only [List.cons_append, List.nil_append, List.dropWhile_cons, List.takeWhile_cons,
    bne_self_eq_false, Bool.false_eq_true, if_false, List.append_nil, htrim]
  rw [trimValue_eq, effectivePassword, List.trim, List.dropWhile_cons_of_pos (by decide)]
  rfl

/-- The effective password of a file is that of its line. -/
theorem loadConfig_password {file p : Bytes} (h : SetsPassword file p) :
  ∃ config, loadConfig (some file) = .ok config ∧ config.password = effectivePassword p
  := by
  obtain ⟨front, back, hlines, hother⟩ := h.getlines
  rw [List.forall_mem_append] at hother
  obtain ⟨config₁, hfront, -⟩ := foldlM_readLine_of_other hother.1 {}
  obtain ⟨config₂, hback, hpassword⟩ :=
    foldlM_readLine_of_other hother.2 { config₁ with password := effectivePassword p }
  have hline : config₁.readLine (ascii "password = " ++ p.takeWhile isText)
      = .ok { config₁ with password := effectivePassword p } := by
    rw [Config.readLine, keyValue_password]
    rfl
  use config₂
  rw [loadConfig, hlines, List.foldlM_append, hfront]
  change ((ascii "password = " ++ p.takeWhile isText) :: back).foldlM Config.readLine config₁ = _ ∧ _
  rw [List.foldlM_cons, hline]
  exact ⟨hback, hpassword⟩

theorem OnLine.isTrimmed {p : Bytes} (h : OnLine p) :
  p.Trimmed isTrimmed
  := by
  have heq : ∀ c ∈ p, OpenScumRcon.isTrimmed c = isBlank c := by
    intro c hc
    obtain ⟨hcr, hlf⟩ := h.lineBreak c hc
    simp only [OpenScumRcon.isTrimmed, trimmedSet, List.mem_cons, List.not_mem_nil, hcr, hlf,
      or_false, isBlank]
    rw [Bool.decide_or, beq_eq_decide, beq_eq_decide]
  constructor
  · intro c hc
    rw [heq c (List.mem_of_head? hc)]
    apply h.trimmed.1 c hc
  · intro c hc
    rw [heq c (List.mem_of_getLast? hc)]
    apply h.trimmed.2 c hc

/-- A password is effective as it is exactly when no byte of it begins a comment or ends the file. -/
theorem effectivePassword_eq_iff {p : Bytes} (h : OnLine p) :
  effectivePassword p = p ↔ ∀ c ∈ p, isComment c = false ∧ isText c = true
  := by
  rw [effectivePassword, List.takeWhile_takeWhile]
  constructor
  · intro heq c hc
    have hprefix := List.takeWhile_prefix (l := p) fun c => (!isComment c) = true ∧ isText c = true
    have hlength := List.length_trim_le isTrimmed
      (p.takeWhile fun c => (!isComment c) = true ∧ isText c = true)
    rw [heq] at hlength
    rw [← hprefix.eq_of_length_le hlength] at hc
    simpa using List.mem_takeWhile_imp hc
  · intro hall
    have hself : p.takeWhile (fun c => (!isComment c) = true ∧ isText c = true) = p := by
      rw [List.takeWhile_eq_self_iff]
      intro c hc
      simp [hall c hc]
    rw [hself]
    apply h.isTrimmed.trim_eq

/-! ### The password of the server -/

/-- With the first packet received, authentication compares its payload with the password. -/
theorem authenticate_of_recvPacket (password : Bytes) {sock sock' : Socket} {auth : Packet}
    (hrecv : recvPacket sock = (some auth, sock')) (htype : auth.type = serverdataAuth) :
  authenticate password sock =
    if auth.payload = password then sendAll sock' (authReply auth)
    else (false, (sendAll sock' (encodePacket (-1) serverdataAuthResponse [])).2)
  := by
  rw [authenticate, hrecv]
  dsimp only
  rw [if_neg (not_not.mpr htype), ite_not]
  rfl

/-- The configured password is the effective one unless a comment begins in it, or the file ends: the
file is read without an error, its password is `p` when no byte of `p` begins a comment or ends a
text file, and only then, and the server authenticates a client exactly when the payload of its
packet is `p`. -/
theorem configured_password {file p : Bytes} (hfile : SetsPassword file p) (hp : OnLine p) :
  ∃ config, loadConfig (some file) = .ok config ∧
    (config.password = p ↔ ∀ c ∈ p, isComment c = false ∧ isText c = true) ∧
    ((∀ c ∈ p, isComment c = false ∧ isText c = true) →
      ∀ (sock sock' : Socket) (auth : Packet),
      recvPacket sock = (some auth, sock') → auth.type = serverdataAuth →
      authenticate config.password sock =
        if auth.payload = p then sendAll sock' (authReply auth)
        else (false, (sendAll sock' (encodePacket (-1) serverdataAuthResponse [])).2))
  := by
  obtain ⟨config, hload, hpassword⟩ := loadConfig_password hfile
  have hiff : config.password = p ↔ ∀ c ∈ p, isComment c = false ∧ isText c = true := by
    rw [hpassword]
    apply effectivePassword_eq_iff hp
  use config, hload, hiff
  intro hall sock sock' auth hrecv htype
  rw [authenticate_of_recvPacket _ hrecv htype, hiff.mpr hall]

theorem configured_password_quoted :
  ∃ config, loadConfig (some (ascii "; EN\r\nport = 28016\r\npassword = \"s3cr = t\"\r\n")) = .ok config ∧
    config.password = ascii "\"s3cr = t\""
  := by
  have hfile : SetsPassword (ascii "; EN\r\nport = 28016\r\npassword = \"s3cr = t\"\r\n")
      (ascii "\"s3cr = t\"") := by
    use [ascii "; EN", ascii "port = 28016"], []
    constructor
    · decide +kernel
    constructor
    · rw [List.append_nil, List.forall_mem_cons, List.forall_mem_singleton]
      constructor
      · apply otherLine_of_none
        decide +kernel
      · apply otherLine_of_port (ascii "28016")
        · decide +kernel
        · use 28016
          decide +kernel
    · decide +kernel
  have hp : OnLine (ascii "\"s3cr = t\"") := by
    use forall_mem_of_all (by decide)
    constructor
    · rintro c ⟨⟩
      decide
    · rintro c ⟨⟩
      decide
  obtain ⟨config, hload, hiff, -⟩ := configured_password hfile hp
  use config, hload
  apply hiff.mpr
  apply forall_mem_of_all
  decide

/-- A password that begins with a comment character leaves the server with the empty one. -/
theorem effective_password_empty :
  SetsPassword (ascii "password = #secret") (ascii "#secret") ∧ OnLine (ascii "#secret") ∧
  loadConfig (some (ascii "password = #secret")) = .ok { password := [] }
  := by
  and_intros
  · use [], []
    constructor
    · decide +kernel
    · simp
  · use forall_mem_of_all (by decide)
    constructor
    · rintro c ⟨⟩
      decide
    · rintro c ⟨⟩
      decide
  · rfl

end OpenScumRcon
