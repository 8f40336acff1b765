import OpenScumRcon.Library.Binary32
import OpenScumRcon.Library.Numeral
import OpenScumRcon.CommandAuthority
import OpenScumRcon.Strings
import OpenScumRcon.World

/-!
# The weather and the time of day

The reply to a query is a JSON object with the current values of the active weather controller. They
are floating-point numbers of the game, and the code computes with them as doubles. The runtime of
the language decides how a tie is rounded when a number is written.
-/

namespace OpenScumRcon

/-! ### The format -/

/-- A number in a field of two digits. -/
def twoDigits (n : ℕ) : Bytes :=
  List.replicate (2 - (decimal n).length) Byte.digitZero ++ decimal n

def clockOfMinute (minute : ℕ) : Bytes :=
  twoDigits (minute / 60) ++ ascii ":" ++ twoDigits (minute % 60)

/-- `ingame_clock`. The product of doubles is rounded. -/
def ingameClock : FloatValue → Except Thrown Bytes
  | .nonfinite => .error (.exception (ascii "invalid live time of day"))
  | .finite negative magnitude =>
      if (negative ∧ magnitude ≠ 0) ∨ 24 < magnitude then
        .error (.exception (ascii "invalid live time of day"))
      else .ok (clockOfMinute (⌊SignificantDigits.roundBits 53 (magnitude * 60)⌋₊ % 1440))

/-- The current fields of the controller. -/
structure WeatherSnapshot where
  timeOfDay : FloatValue
  windAzimuth : FloatValue := .finite false 0
  windIntensity : FloatValue := .finite false 0
  rainIntensity : FloatValue := .finite false 0
  fogDensity : FloatValue := .finite false 0
  timeSpeed : Option FloatValue := none
  sunrise : Option FloatValue := none
  sunset : Option FloatValue := none
  airTemperature : Option FloatValue := none
  waterTemperature : Option FloatValue := none
  cirrostratus : Option FloatValue := none
  cumulonimbus : Option FloatValue := none
  nimbostratus : Option FloatValue := none
  maxWindSpeedKph : Option FloatValue := none

/-- `std::isfinite` -/
def isfinite : FloatValue → Bool
  | .finite _ _ => true
  | .nonfinite => false

/-- A number as the stream writes it, with nine significant digits. What is not finite is never
written. -/
def streamed (ties : ℕ → Bool) : FloatValue → Bytes
  | .finite negative magnitude => Numeral.general ties 8 negative magnitude
  | .nonfinite => []

/-- The text of an optional number. -/
def optionalText (ties : ℕ → Bool) : Option FloatValue → Bytes
  | none => ascii "null"
  | some value => if isfinite value then streamed ties value else ascii "null"

def optionalMember (ties : ℕ → Bool) (key : String) (value : Option FloatValue) : Bytes :=
  ascii ",\"" ++ ascii key ++ ascii "\":" ++ optionalText ties value

/-- `weather_json` -/
def weatherJson (ties : ℕ → Bool) (s : WeatherSnapshot) (timeOnly : Bool) : Except Thrown Bytes := do
  let clock ← ingameClock s.timeOfDay
  let time := ascii "\x7b\"ok\":true,\"source\":\"live_scum_weather_controller\",\"timeOfDay\":"
    ++ streamed ties s.timeOfDay ++ ascii ",\"timeOfDayText\":\"" ++ clock ++ ascii "\""
    ++ optionalMember ties "timeOfDaySpeed" s.timeSpeed
  if timeOnly then pure (time ++ ascii "\x7d")
  else if ¬ [s.windAzimuth, s.windIntensity, s.rainIntensity, s.fogDensity].all
      isfinite then
    throw (.exception (ascii "invalid live weather value"))
  else
    pure (time
      ++ ascii ",\"windAzimuth\":" ++ streamed ties s.windAzimuth
      ++ ascii ",\"windIntensity\":" ++ streamed ties s.windIntensity
      ++ ascii ",\"rainIntensity\":" ++ streamed ties s.rainIntensity
      ++ ascii ",\"fogDensity\":" ++ streamed ties s.fogDensity
      ++ optionalMember ties "sunriseTime" s.sunrise
      ++ optionalMember ties "sunsetTime" s.sunset
      ++ optionalMember ties "airTemperature" s.airTemperature
      ++ optionalMember ties "waterTemperature" s.waterTemperature
      ++ optionalMember ties "cirrostratusCoverage" s.cirrostratus
      ++ optionalMember ties "cumulonimbusCoverage" s.cumulonimbus
      ++ optionalMember ties "nimbostratusCoverage" s.nimbostratus
      ++ optionalMember ties "maxWindSpeedKph" s.maxWindSpeedKph
      ++ ascii ",\"windSpeedKph\":null" ++ ascii "\x7d")

/-! ### The query -/

/-- The bits of a property of an object, if there is one of this name with floating-point numbers. -/
abbrev FloatProperties :=
  ℕ → String → Option UInt32

/-- `live_float` -/
def liveFloat (floats : FloatProperties) (object : ℕ) (name : String) : Option FloatValue :=
  match floats object name with
  | none => none
  | some bits => if isfinite (Binary32.ofBits bits) then some (Binary32.ofBits bits) else none

namespace World

/-- The controller that live settings of the world name as the active one. -/
def activeController (w : World) (object : ℕ) : Option ℕ :=
  let active := w.objectProperty object "WeatherController2"
  if w.live object && w.isA object (w.staticFindObject "/Script/SCUM.ConZWorldSettings")
      && w.live active && w.isA active (w.staticFindObject "/Script/SCUM.WeatherController2") then
    some active
  else none

/-- The set of the active controllers. -/
def activeControllers (w : World) : List ℕ :=
  (w.objects.filterMap w.activeController).dedup

end World

/-- A field without which there is no reply. -/
def requiredFloat (floats : FloatProperties) (object : ℕ) (name : String) :
    Except Thrown FloatValue :=
  match liveFloat floats object name with
  | none => .error (.exception (ascii "required live weather field unavailable"))
  | some value => .ok value

/-- What the query reads of the active controller. -/
def weatherSnapshot (floats : FloatProperties) (active : ℕ) (timeOnly : Bool) :
    Except Thrown WeatherSnapshot := do
  let timeOfDay ← requiredFloat floats active "_timeOfDay"
  let timeSpeed := liveFloat floats active "_timeOfDaySpeed"
  if timeOnly then pure { timeOfDay, timeSpeed }
  else
    let windAzimuth ← requiredFloat floats active "_windAzimuth"
    let windIntensity ← requiredFloat floats active "_windIntensity"
    let rainIntensity ← requiredFloat floats active "_rainIntensity"
    let fogDensity ← requiredFloat floats active "_fogDensity"
    pure
      { timeOfDay, timeSpeed, windAzimuth, windIntensity, rainIntensity, fogDensity
        sunrise := liveFloat floats active "_sunriseTime"
        sunset := liveFloat floats active "_sunsetTime"
        airTemperature := liveFloat floats active "_baseAirTemperature"
        waterTemperature := liveFloat floats active "_waterTemperature"
        cirrostratus := liveFloat floats active "_cirrostratusCoverage"
        cumulonimbus := liveFloat floats active "_cumulonimbusCoverage"
        nimbostratus := liveFloat floats active "_nimbostratusCoverage"
        maxWindSpeedKph := liveFloat floats active "_maxWindSpeedKph" }

/-- `weather` -/
def weather (w : World) (floats : FloatProperties) (ties : ℕ → Bool) (timeOnly : Bool) :
    Except Thrown Bytes :=
  if !w.supportedBuild then .ok (ascii "error: live weather unavailable for this SCUM build")
  else if w.staticFindObject "/Script/SCUM.ConZWorldSettings" = 0
      ∨ w.staticFindObject "/Script/SCUM.WeatherController2" = 0 then
    .ok (ascii "error: weather reflection unavailable")
  else
    match w.activeControllers with
    | [] => .ok (ascii "error: active weather controller not ready")
    | [active] => do weatherJson ties (← weatherSnapshot floats active timeOnly) timeOnly
    | _ => .ok (ascii "error: ambiguous active weather controller")

end OpenScumRcon
