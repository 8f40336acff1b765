import OpenScumRcon.Library.FlatJson
import OpenScumRcon.LiveQuery
import OpenScumRcon.ReplyText

/-!
# What a client learns of the weather

The reply to a query is read as a JSON object, and each number in it is nearer to the value of its
field than to any other number of the format in which the game keeps it. So a client gets the fields
exactly, whichever way the runtime rounds ties. A field that is not there, or not finite, is null, and
without a field that is required there is no reply.
-/

namespace OpenScumRcon

open FlatJson

/-! ### Numbers in the reply -/

/-- A number in a reply tells a number of the game. -/
structure Tells (x : Numeral) (negative : Bool) (v : ℚ) : Prop where
  sign : x.negative = negative
  nearest : ∀ w, Binary32.IsMagnitude w → w ≠ v → |x.magnitude - v| < |x.magnitude - w|

variable {ties : ℕ → Bool} {negative : Bool} {v : ℚ}

/-- Nine significant digits tell a number of the game. -/
theorem tells_generalParts (ties : ℕ → Bool) (negative : Bool) (hv : Binary32.IsMagnitude v) :
  Tells (Numeral.generalParts ties 8 negative v).numeral negative v
  := by
  constructor
  · apply Numeral.negative_generalParts
  · intro w hw hne
    rcases hv.1.eq_or_lt with hzero | hpos
    · rw [← hzero] at hne ⊢
      rw [Numeral.magnitude_generalParts_zero, sub_zero, abs_zero, zero_sub, abs_neg]
      apply abs_pos.mpr hne
    · rw [Numeral.magnitude_generalParts ties 8 negative hpos]
      apply hv.2.nearest ties (by norm_num) hpos hw.2 hne.symm

/-- A number in a reply does not tell two numbers. -/
theorem Tells.unique {x : Numeral} {negative' : Bool} {w : ℚ} (hv : Tells x negative v)
    (hw : Tells x negative' w) (hv' : Binary32.IsMagnitude v) (hw' : Binary32.IsMagnitude w) :
  negative = negative' ∧ v = w
  := by
  use hv.sign.symm.trans hw.sign
  by_contra hne
  have hless := hv.nearest w hw' (Ne.symm hne)
  have hmore := hw.nearest v hv' hne
  exact lt_asymm hless hmore

/-- A field of the game has a value of its format. -/
theorem liveFloat_cases (floats : FloatProperties) (object : ℕ) (name : String) :
  liveFloat floats object name = none ∨ ∃ negative v,
    liveFloat floats object name = some (.finite negative v) ∧ Binary32.IsMagnitude v
  := by
  rw [liveFloat]
  cases floats object name with
  | none =>
      left
      rfl
  | some bits =>
      dsimp only
      cases hbits : Binary32.ofBits bits with
      | nonfinite =>
          left
          rfl
      | finite negative v =>
          right
          exact ⟨negative, v, rfl, Binary32.isMagnitude_of_ofBits hbits⟩

/-- The bits of a field whose value is known. -/
theorem exists_bits_of_liveFloat {floats : FloatProperties} {object : ℕ} {name : String}
    {value : FloatValue} (h : liveFloat floats object name = some value) :
  ∃ bits, floats object name = some bits ∧ Binary32.ofBits bits = value ∧ isfinite value = true
  := by
  rw [liveFloat] at h
  cases hbits : floats object name with
  | none =>
      rw [hbits] at h
      cases h
  | some bits =>
      rw [hbits] at h
      dsimp only at h
      split at h
      next hfinite =>
        obtain rfl := Option.some.inj h
        exact ⟨bits, rfl, rfl, hfinite⟩
      next => cases h

/-- Fields with one value have the same bits. -/
theorem bits_eq_of_liveFloat {floats floats' : FloatProperties} {object object' : ℕ}
    {name : String} (h : liveFloat floats object name = liveFloat floats' object' name)
    (hne : liveFloat floats object name ≠ none) :
  floats object name = floats' object' name
  := by
  obtain ⟨value, hvalue⟩ := Option.ne_none_iff_exists'.mp hne
  obtain ⟨bits, hbits, heq, hfinite⟩ := exists_bits_of_liveFloat hvalue
  obtain ⟨bits', hbits', heq', -⟩ := exists_bits_of_liveFloat (h.symm.trans hvalue)
  cases value with
  | nonfinite => cases hfinite
  | finite negative v => rw [hbits, hbits', Binary32.ofBits_injective heq heq']

/-! ### Members of the reply -/

/-- What a member of the reply is to show. -/
inductive Shown where
  | literal (x : Scalar)
  | number (value : Option FloatValue)

/-- The value that has been read shows it. -/
inductive Shows : Scalar → Shown → Prop where
  | literal (x : Scalar) : Shows x (.literal x)
  | absent : Shows .null (.number none)
  | number {x : Numeral} {negative : Bool} {v : ℚ} (h : Tells x negative v) :
      Shows (.number x) (.number (some (.finite negative v)))

/-- What the text of an optional number is read as. -/
def scalarOf (ties : ℕ → Bool) : Option FloatValue → Scalar
  | some (.finite negative v) => .number (Numeral.generalParts ties 8 negative v).numeral
  | _ => .null

theorem exists_cons_general (ties : ℕ → Bool) (n : ℕ) (negative : Bool) (hv : 0 ≤ v) :
  ∃ c tail, Numeral.general ties n negative v = c :: tail ∧
    (c = 45 ∨ Numeral.isDigit c = true)
  := by
  have hproper := Numeral.proper_generalParts ties n negative hv
  have hnegative := Numeral.negative_generalParts ties n negative v
  rw [Numeral.general_eq, Numeral.Parts.text]
  obtain ⟨c, whole, hcons⟩ := List.exists_cons_of_ne_nil hproper.ne_nil
  split
  · exact ⟨45, _, rfl, .inl rfl⟩
  · rw [hcons]
    refine ⟨c, _, rfl, .inr (hproper.whole c ?_)⟩
    rw [hcons]
    apply List.mem_cons_self

/-- The text of a field of the game is read. -/
theorem spells_liveFloat (ties : ℕ → Bool) (floats : FloatProperties) (object : ℕ) (name : String) :
  Spells (optionalText ties (liveFloat floats object name))
    (scalarOf ties (liveFloat floats object name))
  := by
  rcases liveFloat_cases floats object name with hnone | ⟨negative, v, hsome, hv⟩
  · rw [hnone]
    apply spells_null
  · rw [hsome]
    apply spells_number
    · apply exists_cons_general ties 8 negative hv.1
    · intro rest hrest
      apply Numeral.read_general ties 8 negative hv.1 hrest

theorem shows_liveFloat (ties : ℕ → Bool) (floats : FloatProperties) (object : ℕ) (name : String) :
  Shows (scalarOf ties (liveFloat floats object name)) (.number (liveFloat floats object name))
  := by
  rcases liveFloat_cases floats object name with hnone | ⟨negative, v, hsome, hv⟩
  · rw [hnone]
    apply Shows.absent
  · rw [hsome]
    apply Shows.number (tells_generalParts ties negative hv)

/-- A key of the reply that stands for a field. -/
structure LiveKey where
  key : String
  field : String
  plain : ((ascii key).all isPlain) = true

/-- The member with the value of a field. -/
def liveMember (ties : ℕ → Bool) (floats : FloatProperties) (active : ℕ) (k : LiveKey) : Member where
  key := ascii k.key
  text := optionalText ties (liveFloat floats active k.field)
  value := scalarOf ties (liveFloat floats active k.field)
  plain := List.all_eq_true.mp k.plain
  spells := spells_liveFloat ties floats active k.field

/-! ### The clock -/

/-- A time of day that the game can have. -/
structure InDay (negative : Bool) (v : ℚ) : Prop where
  sign : negative = true → v = 0
  le : v ≤ 24

/-- The product with 60 has few bits, so the clock shows the exact minute. -/
theorem roundBits_hours (hv : Binary32.IsMagnitude v) :
  SignificantDigits.roundBits 53 (v * 60) = v * 60
  := by
  obtain ⟨hnonneg, m, e, hm, hlt, -⟩ := hv
  have hproduct : v * 60 = (m * 15 : ℕ) * 2 ^ (e + 2) := by
    rw [← abs_of_nonneg hnonneg, hm, zpow_add₀ (by norm_num)]
    push_cast
    ring
  rw [hproduct]
  apply SignificantDigits.roundBits_of_lt
  omega

theorem ingameClock_of_inDay (hv : Binary32.IsMagnitude v) (h : InDay negative v) :
  ingameClock (.finite negative v) = .ok (clockOfMinute (⌊v * 60⌋₊ % 1440))
  := by
  rw [ingameClock, roundBits_hours hv, if_neg]
  rintro (⟨hsign, hne⟩ | hlt)
  · apply hne (h.sign hsign)
  · apply not_lt.mpr h.le hlt

theorem ingameClock_of_not_inDay (h : ¬ InDay negative v) :
  ingameClock (.finite negative v) = .error (.exception (ascii "invalid live time of day"))
  := by
  rw [ingameClock, if_pos]
  by_contra hnot
  rw [not_or, not_and, not_not, not_lt] at hnot
  apply h ⟨hnot.1, hnot.2⟩

theorem plain_decimal (n : ℕ) :
  ∀ c ∈ decimal n, isPlain c = true
  := by
  intro c hc
  rcases mem_decimal hc with rfl | hdigit
  · rfl
  · simp only [isDigit, isPlain, Bool.and_eq_true, decide_eq_true_eq, bne_iff_ne,
      UInt8.le_iff_toNat_le, UInt8.lt_iff_toNat_lt, ne_eq, ← UInt8.toNat_inj, Byte.digitZero,
      Byte.digitNine, UInt8.reduceToNat] at hdigit ⊢
    omega

theorem plain_twoDigits (n : ℕ) :
  ∀ c ∈ twoDigits n, isPlain c = true
  := by
  rw [twoDigits, List.forall_mem_append]
  use List.forall_mem_replicate.mpr (.inr rfl)
  apply plain_decimal

theorem plain_clockOfMinute (minute : ℕ) :
  ∀ c ∈ clockOfMinute minute, isPlain c = true
  := by
  rw [clockOfMinute, List.forall_mem_append, List.forall_mem_append]
  refine ⟨⟨plain_twoDigits _, ?_⟩, plain_twoDigits _⟩
  apply List.all_eq_true.mp
  decide +kernel

/-! ### The reply -/

def okMember : Member where
  key := ascii "ok"
  text := ascii "true"
  value := .bool true
  plain := List.all_eq_true.mp (by decide +kernel)
  spells := spells_true

/-- A member with a string. -/
def stringMember (key : String) (hkey : ((ascii key).all isPlain) = true) (text : Bytes)
    (htext : ∀ c ∈ text, isPlain c = true) : Member where
  key := ascii key
  text := 34 :: text ++ [34]
  value := .string text
  plain := List.all_eq_true.mp hkey
  spells := spells_string htext

def nullMember (key : String) (hkey : ((ascii key).all isPlain) = true) : Member where
  key := ascii key
  text := ascii "null"
  value := .null
  plain := List.all_eq_true.mp hkey
  spells := spells_null

/-- The keys that stand for fields, in the order of the reply to a query of the weather. -/
def weatherKeys : List LiveKey :=
  [⟨"windAzimuth", "_windAzimuth", by decide +kernel⟩,
    ⟨"windIntensity", "_windIntensity", by decide +kernel⟩,
    ⟨"rainIntensity", "_rainIntensity", by decide +kernel⟩,
    ⟨"fogDensity", "_fogDensity", by decide +kernel⟩,
    ⟨"sunriseTime", "_sunriseTime", by decide +kernel⟩,
    ⟨"sunsetTime", "_sunsetTime", by decide +kernel⟩,
    ⟨"airTemperature", "_baseAirTemperature", by decide +kernel⟩,
    ⟨"waterTemperature", "_waterTemperature", by decide +kernel⟩,
    ⟨"cirrostratusCoverage", "_cirrostratusCoverage", by decide +kernel⟩,
    ⟨"cumulonimbusCoverage", "_cumulonimbusCoverage", by decide +kernel⟩,
    ⟨"nimbostratusCoverage", "_nimbostratusCoverage", by decide +kernel⟩,
    ⟨"maxWindSpeedKph", "_maxWindSpeedKph", by decide +kernel⟩]

def timeKey : LiveKey :=
  ⟨"timeOfDay", "_timeOfDay", by decide +kernel⟩

def speedKey : LiveKey :=
  ⟨"timeOfDaySpeed", "_timeOfDaySpeed", by decide +kernel⟩

/-- The members of a reply behind the first one. -/
def weatherMembers (ties : ℕ → Bool) (floats : FloatProperties) (active : ℕ) (timeOnly : Bool)
    (minute : ℕ) : List Member :=
  [stringMember "source" (by decide +kernel) (ascii "live_scum_weather_controller")
      (List.all_eq_true.mp (by decide +kernel)),
    liveMember ties floats active timeKey,
    stringMember "timeOfDayText" (by decide +kernel) (clockOfMinute minute)
      (plain_clockOfMinute minute),
    liveMember ties floats active speedKey]
  ++ if timeOnly then []
    else weatherKeys.map (liveMember ties floats active)
      ++ [nullMember "windSpeedKph" (by decide +kernel)]

/-- What these members are to show. -/
def weatherShown (floats : FloatProperties) (active : ℕ) (timeOnly : Bool) (minute : ℕ) :
    List (Bytes × Shown) :=
  [(ascii "ok", .literal (.bool true)),
    (ascii "source", .literal (.string (ascii "live_scum_weather_controller"))),
    (ascii "timeOfDay", .number (liveFloat floats active "_timeOfDay")),
    (ascii "timeOfDayText", .literal (.string (clockOfMinute minute))),
    (ascii "timeOfDaySpeed", .number (liveFloat floats active "_timeOfDaySpeed"))]
  ++ if timeOnly then []
    else weatherKeys.map (fun k => (ascii k.key, .number (liveFloat floats active k.field)))
      ++ [(ascii "windSpeedKph", .literal .null)]

/-- A member that has been read shows what it is to show. -/
def ShowsMember (m : Bytes × Scalar) (shown : Bytes × Shown) : Prop :=
  m.1 = shown.1 ∧ Shows m.2 shown.2

theorem shows_liveMember (ties : ℕ → Bool) (floats : FloatProperties) (active : ℕ) (k : LiveKey) :
  ShowsMember (liveMember ties floats active k).read
    (ascii k.key, .number (liveFloat floats active k.field))
  := ⟨rfl, shows_liveFloat ties floats active k.field⟩

/-- The members of a reply show the values of its fields, in order. -/
theorem shows_weatherMembers (ties : ℕ → Bool) (floats : FloatProperties) (active : ℕ)
    (timeOnly : Bool) (minute : ℕ) :
  List.Forall₂ ShowsMember
    ((okMember :: weatherMembers ties floats active timeOnly minute).map Member.read)
    (weatherShown floats active timeOnly minute)
  := by
  have hkeys : List.Forall₂ ShowsMember
      ((weatherKeys.map (liveMember ties floats active)).map Member.read)
      (weatherKeys.map fun k => (ascii k.key, .number (liveFloat floats active k.field))) := by
    rw [List.forall₂_map_left_iff, List.forall₂_map_left_iff, List.forall₂_map_right_iff,
      List.forall₂_same]
    intro k _
    apply shows_liveMember
  have hliteral : ∀ (key : Bytes) (x : Scalar), ShowsMember (key, x) (key, .literal x) :=
    fun _ x => ⟨rfl, .literal x⟩
  rw [weatherMembers, ← List.cons_append, List.map_append, weatherShown]
  apply List.rel_append
  · apply List.Forall₂.cons (hliteral _ _)
    apply List.Forall₂.cons (hliteral _ _)
    apply List.Forall₂.cons (shows_liveMember ties floats active timeKey)
    apply List.Forall₂.cons (hliteral _ _)
    apply List.Forall₂.cons (shows_liveMember ties floats active speedKey)
    apply List.Forall₂.nil
  · split
    · apply List.Forall₂.nil
    · rw [List.map_append]
      apply List.rel_append hkeys
      apply List.Forall₂.cons (hliteral _ _)
      apply List.Forall₂.nil

/-- The text in front of the value of a further member. -/
def keyText (key : String) : Bytes :=
  ascii ",\"" ++ ascii key ++ ascii "\":"

theorem keyText_append (m : Member) {key : String} (hkey : m.key = ascii key) :
  keyText key ++ m.text = 44 :: m.write
  := by
  rw [Member.write, member, hkey, keyText]
  have hfront : ascii ",\"" = [44, 34] := by decide +kernel
  have hback : ascii "\":" = [34, 58] := by decide +kernel
  rw [hfront, hback]
  simp

/-- What the reply begins with. -/
def timeText (ties : ℕ → Bool) (time : Bytes) (clock : Bytes) (speed : Option FloatValue) : Bytes :=
  ascii "\x7b\"ok\":true,\"source\":\"live_scum_weather_controller\",\"timeOfDay\":"
    ++ time ++ ascii ",\"timeOfDayText\":\"" ++ clock ++ ascii "\""
    ++ optionalMember ties "timeOfDaySpeed" speed

/-- The source's text of the time is that of its members. -/
theorem timeText_eq (ties : ℕ → Bool) (floats : FloatProperties) (active minute : ℕ) :
  timeText ties (liveMember ties floats active timeKey).text (clockOfMinute minute)
      (liveFloat floats active "_timeOfDaySpeed")
    = 123 :: okMember.write
      ++ (weatherMembers ties floats active true minute).flatMap fun m => 44 :: m.write
  := by
  have hfront : ascii "\x7b\"ok\":true,\"source\":\"live_scum_weather_controller\",\"timeOfDay\":"
      = 123 :: okMember.write ++ keyText "source" ++ (34 :: ascii "live_scum_weather_controller" ++ [34])
        ++ keyText "timeOfDay" := by decide +kernel
  have hclock : ascii ",\"timeOfDayText\":\"" = keyText "timeOfDayText" ++ [34] := by decide +kernel
  have hquote : ascii "\"" = [34] := by decide +kernel
  have hspeed : optionalMember ties "timeOfDaySpeed" (liveFloat floats active "_timeOfDaySpeed")
      = keyText "timeOfDaySpeed" ++ (liveMember ties floats active speedKey).text := rfl
  rw [weatherMembers, if_pos rfl, List.append_nil, List.flatMap_cons, List.flatMap_cons,
    List.flatMap_cons, List.flatMap_cons, List.flatMap_nil, ← keyText_append _ rfl,
    ← keyText_append _ rfl, ← keyText_append _ rfl, ← keyText_append _ rfl, timeText, hfront, hclock,
    hquote, hspeed]
  simp [stringMember, List.append_assoc]
  rfl

/-- The full reply continues that of the time. -/
theorem weatherMembers_false (ties : ℕ → Bool) (floats : FloatProperties) (active minute : ℕ) :
  weatherMembers ties floats active false minute = weatherMembers ties floats active true minute
    ++ (weatherKeys.map (liveMember ties floats active)
      ++ [nullMember "windSpeedKph" (by decide +kernel)])
  := by
  rw [weatherMembers, weatherMembers, if_neg Bool.false_ne_true, if_pos rfl, List.append_nil]

/-- What the reply to a query of the weather goes on with. -/
theorem weatherText_eq (ties : ℕ → Bool) (floats : FloatProperties) (active : ℕ) :
  ascii ",\"windAzimuth\":" ++ optionalText ties (liveFloat floats active "_windAzimuth")
      ++ ascii ",\"windIntensity\":" ++ optionalText ties (liveFloat floats active "_windIntensity")
      ++ ascii ",\"rainIntensity\":" ++ optionalText ties (liveFloat floats active "_rainIntensity")
      ++ ascii ",\"fogDensity\":" ++ optionalText ties (liveFloat floats active "_fogDensity")
      ++ optionalMember ties "sunriseTime" (liveFloat floats active "_sunriseTime")
      ++ optionalMember ties "sunsetTime" (liveFloat floats active "_sunsetTime")
      ++ optionalMember ties "airTemperature" (liveFloat floats active "_baseAirTemperature")
      ++ optionalMember ties "waterTemperature" (liveFloat floats active "_waterTemperature")
      ++ optionalMember ties "cirrostratusCoverage" (liveFloat floats active "_cirrostratusCoverage")
      ++ optionalMember ties "cumulonimbusCoverage" (liveFloat floats active "_cumulonimbusCoverage")
      ++ optionalMember ties "nimbostratusCoverage" (liveFloat floats active "_nimbostratusCoverage")
      ++ optionalMember ties "maxWindSpeedKph" (liveFloat floats active "_maxWindSpeedKph")
      ++ ascii ",\"windSpeedKph\":null"
    = (weatherKeys.map (liveMember ties floats active)
        ++ [nullMember "windSpeedKph" (by decide +kernel)]).flatMap fun m => 44 :: m.write
  := by
  have hazimuth : ascii ",\"windAzimuth\":" = keyText "windAzimuth" := by decide +kernel
  have hwind : ascii ",\"windIntensity\":" = keyText "windIntensity" := by decide +kernel
  have hrain : ascii ",\"rainIntensity\":" = keyText "rainIntensity" := by decide +kernel
  have hfog : ascii ",\"fogDensity\":" = keyText "fogDensity" := by decide +kernel
  have hspeed : ascii ",\"windSpeedKph\":null"
      = 44 :: (nullMember "windSpeedKph" (by decide +kernel)).write := by decide +kernel
  have hmember : ∀ k : LiveKey, 44 :: (liveMember ties floats active k).write
      = optionalMember ties k.key (liveFloat floats active k.field) := by
    intro k
    rw [← keyText_append (liveMember ties floats active k) rfl]
    rfl
  rw [List.flatMap_append, List.flatMap_map, hazimuth, hwind, hrain, hfog, hspeed]
  simp only [hmember, weatherKeys, List.flatMap_cons, List.flatMap_nil, List.append_nil,
    optionalMember, keyText, List.append_assoc]

/-! ### The query -/

/-- The fields without which there is no reply. -/
def requiredFields (timeOnly : Bool) : List String :=
  if timeOnly then ["_timeOfDay"]
  else ["_timeOfDay", "_windAzimuth", "_windIntensity", "_rainIntensity", "_fogDensity"]

/-- The reply about a controller. -/
def weatherOf (floats : FloatProperties) (ties : ℕ → Bool) (active : ℕ) (timeOnly : Bool) :
    Except Thrown Bytes := do
  weatherJson ties (← weatherSnapshot floats active timeOnly) timeOnly

variable {floats : FloatProperties} {active : ℕ}

/-- A field that is there is written as an optional one is. -/
theorem streamed_of_liveFloat (ties : ℕ → Bool) {name : String} {value : FloatValue}
    (h : liveFloat floats active name = some value) :
  isfinite value = true ∧ streamed ties value = optionalText ties (liveFloat floats active name)
  := by
  rcases liveFloat_cases floats active name with hnone | ⟨negative, v, hsome, -⟩
  · rw [hnone] at h
    cases h
  · rw [h] at hsome
    obtain rfl := Option.some.inj hsome
    rw [h]
    exact ⟨rfl, rfl⟩

theorem requiredFloat_eq {name : String} {value : FloatValue}
    (h : liveFloat floats active name = some value) :
  requiredFloat floats active name = .ok value
  := by
  rw [requiredFloat, h]

/-- With the required fields and a possible time of day, the reply is an object with its members. -/
theorem weatherOf_eq (ties : ℕ → Bool) {timeOnly : Bool}
    (htime : liveFloat floats active "_timeOfDay" = some (.finite negative v))
    (hday : InDay negative v)
    (hrequired : ∀ name ∈ requiredFields timeOnly, liveFloat floats active name ≠ none) :
  weatherOf floats ties active timeOnly
    = .ok (object okMember (weatherMembers ties floats active timeOnly (⌊v * 60⌋₊ % 1440)))
  := by
  have hv : Binary32.IsMagnitude v := by
    rcases liveFloat_cases floats active "_timeOfDay" with hnone | ⟨negative', w, hsome, hw⟩
    · rw [hnone] at htime
      cases htime
    · rw [htime] at hsome
      obtain ⟨-, rfl⟩ := FloatValue.finite.inj (Option.some.inj hsome)
      apply hw
  have hclock := ingameClock_of_inDay hv hday
  have htext := timeText_eq ties floats active (⌊v * 60⌋₊ % 1440)
  have htimeText : (liveMember ties floats active timeKey).text
      = streamed ties (.finite negative v) := (streamed_of_liveFloat ties htime).2.symm
  have hclose : ascii "\x7d" = [125] := by decide +kernel
  rw [htimeText, timeText] at htext
  rw [weatherOf, weatherSnapshot, requiredFloat_eq htime]
  cases timeOnly with
  | true =>
      change weatherJson ties { timeOfDay := .finite negative v, timeSpeed := _ } true = _
      rw [weatherJson]
      dsimp only
      rw [hclock]
      change Except.ok _ = _
      rw [htext, hclose, object]
  | false =>
      rw [requiredFields, if_neg Bool.false_ne_true] at hrequired
      simp only [List.forall_mem_cons, Option.ne_none_iff_exists'] at hrequired
      obtain ⟨-, ⟨azimuth, hazimuth⟩, ⟨wind, hwind⟩, ⟨rain, hrain⟩, ⟨fog, hfog⟩, -⟩ := hrequired
      obtain ⟨hazimuth', hazimuthText⟩ := streamed_of_liveFloat ties hazimuth
      obtain ⟨hwind', hwindText⟩ := streamed_of_liveFloat ties hwind
      obtain ⟨hrain', hrainText⟩ := streamed_of_liveFloat ties hrain
      obtain ⟨hfog', hfogText⟩ := streamed_of_liveFloat ties hfog
      have hrest := weatherText_eq ties floats active
      rw [← hazimuthText, ← hwindText, ← hrainText, ← hfogText] at hrest
      rw [requiredFloat_eq hazimuth, requiredFloat_eq hwind, requiredFloat_eq hrain,
        requiredFloat_eq hfog]
      change weatherJson ties
        (.mk (.finite negative v) azimuth wind rain fog _ _ _ _ _ _ _ _ _) false = _
      rw [weatherJson]
      dsimp only
      rw [hclock, List.all_cons, List.all_cons, List.all_cons, List.all_cons, List.all_nil,
        hazimuth', hwind', hrain', hfog']
      change Except.ok _ = _
      rw [htext, hclose, object, weatherMembers_false, List.flatMap_append, ← hrest]
      simp only [List.append_assoc]

/-- Without a required field there is no reply. -/
theorem weatherOf_of_missing (ties : ℕ → Bool) {timeOnly : Bool} {name : String}
    (hname : name ∈ requiredFields timeOnly) (hnone : liveFloat floats active name = none) :
  weatherOf floats ties active timeOnly
    = .error (.exception (ascii "required live weather field unavailable"))
  := by
  have hmissing : requiredFloat floats active name
      = .error (.exception (ascii "required live weather field unavailable")) := by
    rw [requiredFloat, hnone]
  have hcases : ∀ name, (∃ value, requiredFloat floats active name = .ok value) ∨
      requiredFloat floats active name
        = .error (.exception (ascii "required live weather field unavailable")) := by
    intro name
    rw [requiredFloat]
    cases liveFloat floats active name with
    | none => exact .inr rfl
    | some value => exact .inl ⟨value, rfl⟩
  rw [weatherOf, weatherSnapshot]
  cases timeOnly with
  | true =>
      rw [List.mem_singleton.mp hname] at hmissing
      rw [hmissing]
      rfl
  | false =>
      rcases hcases "_timeOfDay" with ⟨time, htime⟩ | hthrown
      · rcases hcases "_windAzimuth" with ⟨azimuth, hazimuth⟩ | hthrown
        · rcases hcases "_windIntensity" with ⟨wind, hwind⟩ | hthrown
          · rcases hcases "_rainIntensity" with ⟨rain, hrain⟩ | hthrown
            · rcases hcases "_fogDensity" with ⟨fog, hfog⟩ | hthrown
              · simp only [requiredFields, Bool.false_eq_true, if_false, List.mem_cons,
                  List.not_mem_nil, or_false] at hname
                rcases hname with rfl | rfl | rfl | rfl | rfl
                · cases htime.symm.trans hmissing
                · cases hazimuth.symm.trans hmissing
                · cases hwind.symm.trans hmissing
                · cases hrain.symm.trans hmissing
                · cases hfog.symm.trans hmissing
              · rw [htime, hazimuth, hwind, hrain, hthrown]
                rfl
            · rw [htime, hazimuth, hwind, hthrown]
              rfl
          · rw [htime, hazimuth, hthrown]
            rfl
        · rw [htime, hthrown]
          rfl
      · rw [hthrown]
        rfl

/-- Neither is there one at a time that no day has. -/
theorem weatherOf_of_not_inDay (ties : ℕ → Bool) {timeOnly : Bool}
    (htime : liveFloat floats active "_timeOfDay" = some (.finite negative v))
    (hday : ¬ InDay negative v)
    (hrequired : ∀ name ∈ requiredFields timeOnly, liveFloat floats active name ≠ none) :
  weatherOf floats ties active timeOnly
    = .error (.exception (ascii "invalid live time of day"))
  := by
  have hclock := ingameClock_of_not_inDay hday
  rw [weatherOf, weatherSnapshot, requiredFloat_eq htime]
  cases timeOnly with
  | true =>
      change weatherJson ties { timeOfDay := .finite negative v, timeSpeed := _ } true = _
      rw [weatherJson]
      dsimp only
      rw [hclock]
      rfl
  | false =>
      rw [requiredFields, if_neg Bool.false_ne_true] at hrequired
      simp only [List.forall_mem_cons, Option.ne_none_iff_exists'] at hrequired
      obtain ⟨-, ⟨azimuth, hazimuth⟩, ⟨wind, hwind⟩, ⟨rain, hrain⟩, ⟨fog, hfog⟩, -⟩ := hrequired
      rw [requiredFloat_eq hazimuth, requiredFloat_eq hwind, requiredFloat_eq hrain,
        requiredFloat_eq hfog]
      change weatherJson ties
        (.mk (.finite negative v) azimuth wind rain fog _ _ _ _ _ _ _ _ _) false = _
      rw [weatherJson]
      dsimp only
      rw [hclock]
      rfl

/-! ### What a packet can carry of it -/

theorem sendable_plain {text : Bytes} (h : ∀ c ∈ text, isPlain c = true) :
  Sendable text
  := by
  apply sendable_of_all
  rw [List.all_eq_true]
  intro c hc
  have hplain := h c hc
  simp only [isPlain, isAscii, Bool.and_eq_true, decide_eq_true_eq, UInt8.le_iff_toNat_le,
    UInt8.lt_iff_toNat_lt, UInt8.reduceToNat] at hplain ⊢
  omega

/-- The text of a field is ASCII. -/
theorem sendable_optionalText (ties : ℕ → Bool) (floats : FloatProperties) (object : ℕ)
    (name : String) :
  Sendable (optionalText ties (liveFloat floats object name))
  := by
  rcases liveFloat_cases floats object name with hnone | ⟨negative, v, hsome, hv⟩
  · rw [hnone]
    apply sendable_literal (by decide)
  · have htext : optionalText ties (some (.finite negative v))
        = (Numeral.generalParts ties 8 negative v).text := Numeral.general_eq ties 8 negative v
    rw [hsome, htext]
    apply sendable_plain
    intro c hc
    rcases Numeral.Parts.mem_text (Numeral.proper_generalParts ties 8 negative hv.1) hc with
      hdigit | hother
    · simp only [Numeral.isDigit, isPlain, Bool.and_eq_true, decide_eq_true_eq, bne_iff_ne,
        UInt8.le_iff_toNat_le, UInt8.lt_iff_toNat_lt, ne_eq, ← UInt8.toNat_inj,
        UInt8.reduceToNat] at hdigit ⊢
      omega
    · have hplain : ∀ c ∈ ([43, 45, 46, 101] : Bytes), isPlain c = true := by decide +kernel
      apply hplain c hother

theorem sendable_write (m : Member) (htext : Sendable m.text) :
  Sendable m.write
  := by
  have hwrite : m.write = [34] ++ (m.key ++ ([34, 58] ++ m.text)) := by
    simp [Member.write, member]
  have hquote : Sendable [34] := sendable_of_all (by decide)
  have hcolon : Sendable [34, 58] := sendable_of_all (by decide)
  rw [hwrite]
  apply hquote.append
  apply (sendable_plain m.plain).append
  apply hcolon.append htext

theorem sendable_object {first : Member} {others : List Member}
    (h : ∀ m ∈ first :: others, Sendable m.text) :
  Sendable (object first others)
  := by
  rw [List.forall_mem_cons] at h
  have hobject : object first others
      = [123] ++ (first.write ++ ((others.flatMap fun m => [44] ++ m.write) ++ [125])) := by
    simp [object]
  have hopen : Sendable [123] := sendable_of_all (by decide)
  have hclose : Sendable [125] := sendable_of_all (by decide)
  have hcomma : Sendable [44] := sendable_of_all (by decide)
  rw [hobject]
  apply hopen.append
  apply (sendable_write first h.1).append
  apply Sendable.append _ hclose
  apply sendable_flatMap
  intro m hm
  apply hcomma.append (sendable_write m (h.2 m hm))

/-- The reply is sendable. -/
theorem sendable_weather (ties : ℕ → Bool) (floats : FloatProperties) (active : ℕ)
    (timeOnly : Bool) (minute : ℕ) :
  Sendable (object okMember (weatherMembers ties floats active timeOnly minute))
  := by
  have hstring : ∀ text : Bytes, (∀ c ∈ text, isPlain c = true) → Sendable (34 :: text ++ [34]) := by
    intro text htext
    have hquote : Sendable [34] := sendable_of_all (by decide)
    apply Sendable.append (hquote.append (sendable_plain htext)) hquote
  have htime : ∀ m ∈ weatherMembers ties floats active true minute, Sendable m.text := by
    rw [weatherMembers, if_pos rfl, List.append_nil, List.forall_mem_cons, List.forall_mem_cons,
      List.forall_mem_cons, List.forall_mem_singleton]
    constructor
    · apply hstring _ (List.all_eq_true.mp (by decide +kernel))
    constructor
    · apply sendable_optionalText
    constructor
    · apply hstring _ (plain_clockOfMinute minute)
    · apply sendable_optionalText
  apply sendable_object
  rw [List.forall_mem_cons]
  constructor
  · apply sendable_literal (by decide)
  cases timeOnly with
  | true => apply htime
  | false =>
      rw [weatherMembers_false, List.forall_mem_append, List.forall_mem_append,
        List.forall_mem_singleton]
      use htime
      constructor
      · intro m hm
        obtain ⟨k, -, rfl⟩ := List.mem_map.mp hm
        apply sendable_optionalText
      · apply sendable_literal (by decide)

/-! ### The active controller -/

/-- On a supported build, the live settings of the world name this controller, and no other one. -/
structure World.Active (w : World) (active : ℕ) : Prop where
  build : w.supportedBuild = true
  settings : w.staticFindObject "/Script/SCUM.ConZWorldSettings" ≠ 0
  controller : w.staticFindObject "/Script/SCUM.WeatherController2" ≠ 0
  unique : ∀ other, (∃ object ∈ w.objects, w.activeController object = some other) ↔ other = active

/-- There is one active controller exactly when all that are active are the same. -/
theorem World.activeControllers_eq_singleton_iff {w : World} {active : ℕ} :
  w.activeControllers = [active] ↔
    ∀ other, (∃ object ∈ w.objects, w.activeController object = some other) ↔ other = active
  := by
  have hmem : ∀ other, other ∈ w.activeControllers ↔
      ∃ object ∈ w.objects, w.activeController object = some other := by
    intro other
    rw [activeControllers, List.mem_dedup, List.mem_filterMap]
  constructor
  · intro heq other
    rw [← hmem, heq, List.mem_singleton]
  · intro hunique
    have hnodup : w.activeControllers.Nodup := List.nodup_dedup _
    apply List.perm_singleton.mp
    rw [List.perm_ext_iff_of_nodup hnodup (List.nodup_singleton active)]
    intro other
    rw [List.mem_singleton, hmem, hunique]

/-- The reply is about the active controller, if there is one. -/
theorem weather_of_active {w : World} (h : w.Active active) (floats : FloatProperties)
    (ties : ℕ → Bool) (timeOnly : Bool) :
  weather w floats ties timeOnly = weatherOf floats ties active timeOnly
  := by
  have hone := World.activeControllers_eq_singleton_iff.mpr h.unique
  rw [weather, h.build, Bool.not_true, if_neg Bool.false_ne_true, if_neg, hone]
  · rfl
  · rw [not_or]
    exact ⟨h.settings, h.controller⟩

def weatherErrors : List Bytes :=
  [ascii "error: live weather unavailable for this SCUM build",
    ascii "error: weather reflection unavailable",
    ascii "error: active weather controller not ready",
    ascii "error: ambiguous active weather controller"]

/-- Otherwise the reply is an error. -/
theorem weather_of_not_active {w : World} (h : ∀ active, ¬ w.Active active)
    (floats : FloatProperties) (ties : ℕ → Bool) (timeOnly : Bool) :
  ∃ text ∈ weatherErrors, weather w floats ties timeOnly = .ok text
  := by
  rw [weather]
  split
  · exact ⟨_, by decide, rfl⟩
  next hbuild =>
  split
  · exact ⟨_, by decide, rfl⟩
  next hclasses =>
  rw [not_or] at hclasses
  rw [Bool.not_eq_true', Bool.not_eq_false] at hbuild
  split
  · exact ⟨_, by decide, rfl⟩
  next active hone =>
    cases h active ⟨hbuild, hclasses.1, hclasses.2,
      World.activeControllers_eq_singleton_iff.mp hone⟩
  · exact ⟨_, by decide, rfl⟩

/-- Whatever the query ends with can be sent. -/
theorem sendable_responseText_weather (w : World) (floats : FloatProperties) (ties : ℕ → Bool)
    (timeOnly : Bool) :
  Sendable (responseText (weather w floats ties timeOnly))
  := by
  by_cases hactive : ∃ active, w.Active active
  · obtain ⟨active, hactive⟩ := hactive
    rw [weather_of_active hactive]
    by_cases hrequired : ∀ name ∈ requiredFields timeOnly, liveFloat floats active name ≠ none
    · have hmem : "_timeOfDay" ∈ requiredFields timeOnly := by
        cases timeOnly <;> exact List.mem_cons_self
      rcases liveFloat_cases floats active "_timeOfDay" with hnone | ⟨negative, v, hsome, -⟩
      · cases hrequired "_timeOfDay" hmem hnone
      · by_cases hday : InDay negative v
        · rw [weatherOf_eq ties hsome hday hrequired]
          apply sendable_weather
        · rw [weatherOf_of_not_inDay ties hsome hday hrequired]
          apply sendable_of_all
          decide +kernel
    · rw [not_forall] at hrequired
      obtain ⟨name, hrequired⟩ := hrequired
      rw [Classical.not_imp, not_not] at hrequired
      rw [weatherOf_of_missing ties hrequired.1 hrequired.2]
      apply sendable_of_all
      decide +kernel
  · rw [not_exists] at hactive
    obtain ⟨text, htext, hreply⟩ := weather_of_not_active hactive floats ties timeOnly
    have herrors : ∀ text ∈ weatherErrors, text.all isAscii = true := by decide +kernel
    rw [hreply]
    apply sendable_of_all (herrors text htext)

/-- When a controller is the active one, it has the required fields, and its time is one that a day
has, the reply is read as a JSON object, and its members show the values of the fields exactly, those
that are not there as null, and the minute of the time. Without a required field, or at another time,
an exception is thrown, and without an active controller the reply is an error. What is replied or
thrown can be sent. -/
theorem weather_exact (w : World) (floats : FloatProperties) (ties : ℕ → Bool) (timeOnly : Bool) :
  (∀ active negative v, w.Active active →
    liveFloat floats active "_timeOfDay" = some (.finite negative v) →
    (∀ name ∈ requiredFields timeOnly, liveFloat floats active name ≠ none) →
    (InDay negative v → ∃ reply members, weather w floats ties timeOnly = .ok reply ∧
      readObject reply = some members ∧
      List.Forall₂ ShowsMember members (weatherShown floats active timeOnly (⌊v * 60⌋₊ % 1440))) ∧
    (¬ InDay negative v → weather w floats ties timeOnly
      = .error (.exception (ascii "invalid live time of day")))) ∧
  (∀ active, w.Active active →
    (∃ name ∈ requiredFields timeOnly, liveFloat floats active name = none) →
    weather w floats ties timeOnly
      = .error (.exception (ascii "required live weather field unavailable"))) ∧
  ((∀ active, ¬ w.Active active) →
    ∃ text ∈ weatherErrors, weather w floats ties timeOnly = .ok text) ∧
  Sendable (responseText (weather w floats ties timeOnly))
  := by
  constructor
  · intro active negative v hactive htime hrequired
    rw [weather_of_active hactive]
    constructor
    · intro hday
      rw [weatherOf_eq ties htime hday hrequired]
      refine ⟨_, _, rfl, readObject_object _ _, ?_⟩
      apply shows_weatherMembers
    · intro hday
      apply weatherOf_of_not_inDay ties htime hday hrequired
  constructor
  · rintro active hactive ⟨name, hname, hnone⟩
    rw [weather_of_active hactive]
    apply weatherOf_of_missing ties hname hnone
  constructor
  · intro hnone
    apply weather_of_not_active hnone
  · apply sendable_responseText_weather

/-! ### Two replies -/

/-- A reply about a controller is an object with its members. -/
theorem object_of_weatherOf {timeOnly : Bool} {reply : Bytes}
    (h : weatherOf floats ties active timeOnly = .ok reply) :
  ∃ minute, reply = object okMember (weatherMembers ties floats active timeOnly minute)
  := by
  have hrequired : ∀ name ∈ requiredFields timeOnly, liveFloat floats active name ≠ none := by
    intro name hname hnone
    rw [weatherOf_of_missing ties hname hnone] at h
    cases h
  have hmem : "_timeOfDay" ∈ requiredFields timeOnly := by
    cases timeOnly <;> exact List.mem_cons_self
  rcases liveFloat_cases floats active "_timeOfDay" with hnone | ⟨negative, v, hsome, -⟩
  · cases hrequired "_timeOfDay" hmem hnone
  · by_cases hday : InDay negative v
    · rw [weatherOf_eq ties hsome hday hrequired] at h
      exact ⟨_, (Except.ok.inj h).symm⟩
    · rw [weatherOf_of_not_inDay ties hsome hday hrequired] at h
      cases h

/-- The fields that a reply shows. -/
def shownFields (timeOnly : Bool) : List String :=
  ["_timeOfDay", "_timeOfDaySpeed"] ++ if timeOnly then [] else weatherKeys.map LiveKey.field

/-- What the text of a field is read as tells the field. -/
theorem liveFloat_of_scalarOf {ties' : ℕ → Bool} {floats' : FloatProperties} {active' : ℕ}
    {name : String}
    (h : scalarOf ties (liveFloat floats active name)
      = scalarOf ties' (liveFloat floats' active' name)) :
  liveFloat floats active name = liveFloat floats' active' name
  := by
  rcases liveFloat_cases floats active name with hnone | ⟨negative, v, hsome, hv⟩
  · rcases liveFloat_cases floats' active' name with hnone' | ⟨negative', v', hsome', hv'⟩
    · rw [hnone, hnone']
    · rw [hnone, hsome'] at h
      cases h
  · rcases liveFloat_cases floats' active' name with hnone' | ⟨negative', v', hsome', hv'⟩
    · rw [hsome, hnone'] at h
      cases h
    · rw [hsome, hsome'] at h
      have htells := tells_generalParts ties negative hv
      rw [Scalar.number.inj h] at htells
      obtain ⟨rfl, rfl⟩ := htells.unique (tells_generalParts ties' negative' hv') hv hv'
      rw [hsome, hsome']

theorem liveFloat_of_read {ties' : ℕ → Bool} {floats' : FloatProperties} {active' : ℕ}
    {k : LiveKey}
    (h : (liveMember ties floats active k).read = (liveMember ties' floats' active' k).read) :
  liveFloat floats active k.field = liveFloat floats' active' k.field
  := liveFloat_of_scalarOf (Prod.mk.inj h).2

theorem length_weatherMembers (ties : ℕ → Bool) (floats : FloatProperties) (active : ℕ)
    (timeOnly : Bool) (minute : ℕ) :
  (weatherMembers ties floats active timeOnly minute).length = if timeOnly then 4 else 17
  := by
  rw [weatherMembers, List.length_append]
  cases timeOnly with
  | true => rfl
  | false =>
      rw [if_neg Bool.false_ne_true, List.length_append, List.length_map]
      rfl

/-- Equal replies of the time show equal bits in all their fields. -/
theorem liveFloat_of_timeMembers {ties' : ℕ → Bool} {floats' : FloatProperties} {active' : ℕ}
    {minute minute' : ℕ}
    (h : (weatherMembers ties floats active true minute).map Member.read
      = (weatherMembers ties' floats' active' true minute').map Member.read) :
  ∀ name ∈ shownFields true, liveFloat floats active name = liveFloat floats' active' name
  := by
  obtain ⟨-, h⟩ := List.cons.inj h
  obtain ⟨htime, h⟩ := List.cons.inj h
  obtain ⟨-, h⟩ := List.cons.inj h
  obtain ⟨hspeed, -⟩ := List.cons.inj h
  rw [shownFields, if_pos rfl, List.append_nil, List.forall_mem_cons, List.forall_mem_singleton]
  exact ⟨liveFloat_of_read htime, liveFloat_of_read hspeed⟩

/-- The members of a reply tell which query it answers, and the fields. -/
theorem liveFloat_of_members {ties' : ℕ → Bool} {floats' : FloatProperties} {active' : ℕ}
    {timeOnly timeOnly' : Bool} {minute minute' : ℕ}
    (h : (weatherMembers ties floats active timeOnly minute).map Member.read
      = (weatherMembers ties' floats' active' timeOnly' minute').map Member.read) :
  timeOnly = timeOnly' ∧ ∀ name ∈ shownFields timeOnly,
    liveFloat floats active name = liveFloat floats' active' name
  := by
  have hlength := congrArg List.length h
  rw [List.length_map, List.length_map, length_weatherMembers, length_weatherMembers] at hlength
  cases timeOnly with
  | true =>
      cases timeOnly' with
      | true => exact ⟨rfl, liveFloat_of_timeMembers h⟩
      | false => contradiction
  | false =>
      cases timeOnly' with
      | true => contradiction
      | false =>
          use rfl
          rw [weatherMembers_false, weatherMembers_false, List.map_append, List.map_append,
            List.map_append, List.map_append] at h
          obtain ⟨htime, hrest⟩ := List.append_inj h (by
            rw [List.length_map, List.length_map, length_weatherMembers, length_weatherMembers])
          obtain ⟨hkeys, -⟩ := List.append_inj hrest (by
            rw [List.length_map, List.length_map, List.length_map, List.length_map])
          rw [List.map_map, List.map_map, List.map_inj_left] at hkeys
          rw [shownFields, if_neg Bool.false_ne_true, List.forall_mem_append]
          constructor
          · apply liveFloat_of_timeMembers htime
          · intro name hname
            obtain ⟨k, hk, rfl⟩ := List.mem_map.mp hname
            apply liveFloat_of_read (hkeys k hk)

/-- Nothing that a reply shows is lost in it: replies of the same text answer the same query, and the
fields that they show are the same bits in both games, or in neither are there and finite, although
the games and the runtimes of the language may be different. -/
theorem weather_determined {w w' : World} {floats floats' : FloatProperties} {ties ties' : ℕ → Bool}
    {timeOnly timeOnly' : Bool} {active active' : ℕ} {reply : Bytes} (hactive : w.Active active)
    (hactive' : w'.Active active') (h : weather w floats ties timeOnly = .ok reply)
    (h' : weather w' floats' ties' timeOnly' = .ok reply) :
  timeOnly = timeOnly' ∧ ∀ name ∈ shownFields timeOnly,
    liveFloat floats active name = liveFloat floats' active' name ∧
      (liveFloat floats active name ≠ none → floats active name = floats' active' name)
  := by
  rw [weather_of_active hactive] at h
  rw [weather_of_active hactive'] at h'
  obtain ⟨minute, hreply⟩ := object_of_weatherOf h
  obtain ⟨minute', hreply'⟩ := object_of_weatherOf h'
  have hread := readObject_object okMember (weatherMembers ties floats active timeOnly minute)
  rw [← hreply, hreply', readObject_object] at hread
  obtain ⟨-, hmembers⟩ := List.cons.inj (Option.some.inj hread)
  obtain ⟨hquery, hfields⟩ := liveFloat_of_members hmembers.symm
  use hquery
  intro name hname
  use hfields name hname
  apply bits_eq_of_liveFloat (hfields name hname)

/-- Settings of the world, at the address 1, with a controller at the address 2. -/
def weatherWorld : World where
  numElements := 3
  indexToObject := fun i => some ⟨i.toNat, true⟩
  objects := [1]
  internalIndex := fun object => object
  isA := fun object cls => object = 1 && cls = 3 || object = 2 && cls = 4
  staticFindObject := fun name =>
    if name = "/Script/SCUM.ConZWorldSettings" then 3
    else if name = "/Script/SCUM.WeatherController2" then 4 else 0
  propertyByName := fun _ name => if name = "WeatherController2" then 5 else 0
  propertyKind := fun _ => .object
  objectValue := fun _ _ => 2
  supportedBuild := true

/-- It is a quarter past six, and the other fields have no exact decimal digits. One of them is as it
is given. -/
def weatherFloats (sunrise : Option UInt32) : FloatProperties :=
  fun _ name =>
    if name = "_timeOfDay" then some 0x40c80000
    else if name = "_sunriseTime" then sunrise else some 0x3eaaaaab

theorem active_weatherWorld :
  weatherWorld.Active 2
  := by
  refine ⟨rfl, by decide +kernel, by decide +kernel, ?_⟩
  apply World.activeControllers_eq_singleton_iff.mp
  decide +kernel

def weatherReply : Bytes :=
  ((weather weatherWorld (weatherFloats none) (fun _ => true) false).toOption).getD []

/-- Runtimes that round ties differently write the same reply, and a field that is not there is not
told from one that is not a number. -/
theorem weather_determined_weatherWorld :
  weather weatherWorld (weatherFloats none) (fun _ => true) false = .ok weatherReply ∧
  weather weatherWorld (weatherFloats (some 0x7fc00000)) (fun _ => false) false
    = .ok weatherReply ∧
  ∀ name ∈ shownFields false, liveFloat (weatherFloats none) 2 name
    = liveFloat (weatherFloats (some 0x7fc00000)) 2 name
  := by
  have hreply : weather weatherWorld (weatherFloats none) (fun _ => true) false
      = .ok weatherReply := by
    decide +kernel
  have hreply' : weather weatherWorld (weatherFloats (some 0x7fc00000)) (fun _ => false) false
      = .ok weatherReply := by
    decide +kernel
  use hreply, hreply'
  intro name hname
  apply ((weather_determined active_weatherWorld active_weatherWorld hreply hreply').2 name hname).1

end OpenScumRcon
