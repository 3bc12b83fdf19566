import AmlogicHal.Lib.Json
import Mathlib.Order.BoundedOrder.Basic
import Mathlib.Order.Lattice
import Mathlib.Order.Nat
import Mathlib.Logic.Function.Basic

/-!
# The configuration of the thermal HAL

`ParseSensorInfo` reads for every sensor the thresholds and the hysteresis of the seven severities,
hot and cold. Temperatures are exact rational numbers, and a threshold that is NaN is absent.
Parameters are the texts of numbers and the numbers of texts, the names of the sensor types, and the
trip point of the first thermal zone, which replaces a higher shutdown temperature.

Every name is parsed once. Hot thresholds have to rise with the severity and cold ones have to fall.
Nothing is required of the hysteresis but that it is a number.
-/

namespace AmlogicHal.Thermal

open Parse

/-! ## Severities -/

inductive ThrottlingSeverity where
  | none
  | light
  | moderate
  | severe
  | critical
  | emergency
  | shutdown
deriving Repr

namespace ThrottlingSeverity

/-- The index of a severity, and its value as a number. -/
def level : ThrottlingSeverity → Nat
  | .none => 0
  | .light => 1
  | .moderate => 2
  | .severe => 3
  | .critical => 4
  | .emergency => 5
  | .shutdown => 6

theorem level_injective : Function.Injective level := by
  intro a b h
  cases a <;> cases b <;> first | rfl | cases h

instance : LinearOrder ThrottlingSeverity := LinearOrder.lift' level level_injective

instance : OrderBot ThrottlingSeverity where
  bot := .none
  bot_le s := Nat.zero_le s.level

/-- From `NONE` to `SHUTDOWN`. -/
def all : List ThrottlingSeverity :=
  [.none, .light, .moderate, .severe, .critical, .emergency, .shutdown]

theorem mem_all (s : ThrottlingSeverity) : s ∈ all := by
  cases s <;> simp [all]

end ThrottlingSeverity

def throttlingSeverityCount : Nat := ThrottlingSeverity.all.length

abbrev ThrottlingArray (α : Type) := ThrottlingSeverity → α

/-- What is known of a sensor, whose type is one of `τ`. -/
structure SensorInfo (τ : Type) where
  type : τ
  hotThresholds : ThrottlingArray (Option Rat)
  coldThresholds : ThrottlingArray (Option Rat)
  hotHysteresis : ThrottlingArray Rat
  coldHysteresis : ThrottlingArray Rat
  vrThreshold : Option Rat
  multiplier : Rat
  isMonitor : Bool

/-- The sensors with their names, in the order of the document. -/
abbrev SensorInfoMap (τ : Type) := List (String × SensorInfo τ)

/-! ## The parser -/

structure ConfigEnv (τ : Type) where
  realText : Rat → String
  /-- `std::stof`, which throws or gives a number or NaN. -/
  stof : String → Parse (Option Rat)
  getTypeFromString : String → Option τ
  /-- What is in `trip_point_2_temp`, if it can be read. -/
  tripPoint : Option Int
  /-- What becomes of a number that is converted to an `int` and has no place there. -/
  outOfInt : Rat → Int

section Parser

variable {τ : Type} (env : ConfigEnv τ)

def getFloatFromValue (value : Json) : Parse (Option Rat) :=
  match value.string? with
  | some text => env.stof text
  | none => some <$> value.asFloat

/-- The number without its fraction. -/
def truncated (q : Rat) : Int := q.num.tdiv q.den

/-- The conversion of a float to an `int`, which is undefined for numbers out of its range. -/
def toInt (q : Rat) : Int :=
  if -2 ^ 31 ≤ truncated q ∧ truncated q < 2 ^ 31 then truncated q else env.outOfInt q

def resetShutDownTemp (configSdValue minTemp : Int) : Int :=
  let temp := (env.tripPoint.getD 0).tdiv 1000
  if temp < minTemp then configSdValue
  else if temp < configSdValue then temp else configSdValue

/-- `std::numeric_limits<float>::min()`, which is the smallest positive number. -/
def floatMin : Rat := 1 / 2 ^ 126

/-- `std::numeric_limits<float>::max()`. -/
def floatMax : Rat := (2 ^ 24 - 1) * 2 ^ 104

/-- The shutdown temperature, and no other one, is compared with that of the kernel. -/
def hotThreshold (s : ThrottlingSeverity) (t min : Rat) : Rat :=
  if s = .shutdown then resetShutDownTemp env (toInt env t) (toInt env min) else t

variable (values : Json)

/-- The body of the loop over the hot thresholds, with the least value that is still allowed. -/
def parseHotThreshold (r : ThrottlingArray (Option Rat) × Rat)
    (s : ThrottlingSeverity) : Parse (ThrottlingArray (Option Rat) × Rat) := do
  match ← getFloatFromValue env (← values.index s.level) with
  | none => pure (Function.update r.1 s none, r.2)
  | some t => do
    require (¬ t < r.2)
    let t := hotThreshold env s t r.2
    pure (Function.update r.1 s (some t), t)

def parseHotThresholds : Parse (ThrottlingArray (Option Rat)) := do
  require (values.size = throttlingSeverityCount)
  Prod.fst <$> ThrottlingSeverity.all.foldlM (parseHotThreshold env values)
    (fun _ => none, floatMin)

/-- The body of the loop over the cold thresholds, with the greatest value that is still allowed. -/
def parseColdThreshold (r : ThrottlingArray (Option Rat) × Rat)
    (s : ThrottlingSeverity) : Parse (ThrottlingArray (Option Rat) × Rat) := do
  match ← getFloatFromValue env (← values.index s.level) with
  | none => pure (Function.update r.1 s none, r.2)
  | some t => do
    require (¬ t > r.2)
    pure (Function.update r.1 s (some t), t)

def parseColdThresholds : Parse (ThrottlingArray (Option Rat)) :=
  if values.size ≠ throttlingSeverityCount then
    pure fun _ => none
  else
    Prod.fst <$>
      ThrottlingSeverity.all.foldlM (parseColdThreshold env values) (fun _ => none, floatMax)

/-- The body of the loops over the hysteresis. -/
def parseHysteresisValue (a : ThrottlingArray Rat) (s : ThrottlingSeverity) :
    Parse (ThrottlingArray Rat) := do
  let t ← found (← getFloatFromValue env (← values.index s.level))
  pure (Function.update a s t)

def parseHysteresis : Parse (ThrottlingArray Rat) :=
  if values.size ≠ throttlingSeverityCount then
    pure fun _ => 0
  else
    ThrottlingSeverity.all.foldlM (parseHysteresisValue env values) fun _ => 0

def parseMonitor (monitor : Json) : Bool :=
  if monitor.empty then false else monitor.bool?.getD false

/-- The body of the loop over the sensors. -/
def parseSensor (parsed : SensorInfoMap τ) (entry : Json) : Parse (SensorInfoMap τ) := do
  let name ← entry.text env.realText "Name"
  require (name ≠ "")
  require (name ∉ parsed.map Prod.fst)
  let type ← found (env.getTypeFromString (← entry.text env.realText "Type"))
  let hotThresholds ← parseHotThresholds env (← entry.get "HotThreshold")
  let hotHysteresis ← parseHysteresis env (← entry.get "HotHysteresis")
  let coldThresholds ← parseColdThresholds env (← entry.get "ColdThreshold")
  let coldHysteresis ← parseHysteresis env (← entry.get "ColdHysteresis")
  let vrThreshold ← getFloatFromValue env (← entry.get "VrThreshold")
  let multiplier ← (← entry.get "Multiplier").asFloat
  let isMonitor := parseMonitor (← entry.get "Monitor")
  pure (parsed ++ [(name, ⟨type, hotThresholds, coldThresholds, hotHysteresis, coldHysteresis,
    vrThreshold, multiplier, isMonitor⟩)])

/-- `ParseSensorInfo`, from the value that the reader makes of the file, if there is one. Without a
result, an accessor or a conversion throws. -/
def parseSensorInfo (doc : Option Json) : Option (SensorInfoMap τ) :=
  match doc with
  | none => some []
  | some root => cleared [] do
    (← (← root.get "Sensors").elements).foldlM (parseSensor env) []

end Parser

end AmlogicHal.Thermal
