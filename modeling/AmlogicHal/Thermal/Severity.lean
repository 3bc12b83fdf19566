import AmlogicHal.Lib.Hysteresis
import AmlogicHal.Lib.Machine
import AmlogicHal.Thermal.Config

/-!
# Severities from temperatures

`getSeverityFromThresholds` goes once through the severities from `SHUTDOWN` down and keeps the
first one whose hot threshold is reached, the first one whose threshold minus hysteresis is
exceeded, and the same for cold. The second one is taken if the first one is below the previous
severity.

The intended law is that a severity is kept while the temperature stays above its threshold minus
hysteresis, and raised only where a threshold is reached. `severity_law` says exactly when the code
obeys it: not if the lower bound of some severity above the previous one is exceeded before its
threshold is reached (`severity_rises_below_threshold`), nor if the reached severity has no
hysteresis and the temperature is exactly at its threshold, which is compared with `<=` and the
lower bound with `<`.
-/

namespace AmlogicHal.Thermal

open Hysteresis

variable {τ : Type}

/-! ## The code -/

namespace ThrottlingSeverity

/-- From `SHUTDOWN` down to the one above `NONE`. -/
def descending : List ThrottlingSeverity :=
  [.shutdown, .emergency, .critical, .severe, .moderate, .light]

theorem descending_pairwise : descending.Pairwise (· > ·) := by decide

theorem mem_descending {s : ThrottlingSeverity} : s ∈ descending ↔ s ≠ .none := by
  cases s <;> decide

end ThrottlingSeverity

open ThrottlingSeverity

variable (info : SensorInfo τ)

namespace SensorInfo

def reachesHot (value : Rat) (s : ThrottlingSeverity) : Bool :=
  (info.hotThresholds s).any fun t => t ≤ value

def holdsHot (value : Rat) (s : ThrottlingSeverity) : Bool :=
  (info.hotThresholds s).any fun t => t - info.hotHysteresis s < value

def reachesCold (value : Rat) (s : ThrottlingSeverity) : Bool :=
  (info.coldThresholds s).any fun t => t ≥ value

def holdsCold (value : Rat) (s : ThrottlingSeverity) : Bool :=
  (info.coldThresholds s).any fun t => t + info.coldHysteresis s > value

end SensorInfo

structure Scan where
  hot : ThrottlingSeverity
  hotHysteresis : ThrottlingSeverity
  cold : ThrottlingSeverity
  coldHysteresis : ThrottlingSeverity
deriving DecidableEq, Repr

def Scan.visit (value : Rat) (r : Scan) (s : ThrottlingSeverity) : Scan where
  hot := if info.reachesHot value s = true ∧ r.hot = .none then s else r.hot
  hotHysteresis :=
    if info.holdsHot value s = true ∧ r.hotHysteresis = .none then s else r.hotHysteresis
  cold := if info.reachesCold value s = true ∧ r.cold = .none then s else r.cold
  coldHysteresis :=
    if info.holdsCold value s = true ∧ r.coldHysteresis = .none then s else r.coldHysteresis

def getSeverityFromThresholds
    (prevHotSeverity prevColdSeverity : ThrottlingSeverity) (value : Rat) :
    ThrottlingSeverity × ThrottlingSeverity :=
  let r := ThrottlingSeverity.descending.foldl (Scan.visit info value) ⟨.none, .none, .none, .none⟩
  (if r.hot < prevHotSeverity then r.hotHysteresis else r.hot,
    if r.cold < prevColdSeverity then r.coldHysteresis else r.cold)

structure SensorStatus where
  severity : ThrottlingSeverity
  prevHotSeverity : ThrottlingSeverity
  prevColdSeverity : ThrottlingSeverity
deriving DecidableEq, Repr

def SensorStatus.initial : SensorStatus := ⟨.none, .none, .none⟩

structure Temperature (τ : Type) where
  type : τ
  name : String
  value : Rat
  throttlingStatus : ThrottlingSeverity
deriving DecidableEq

/-- `readTemperature`, from the number in the file of the sensor: the temperature, and the hot and
the cold severity. -/
def readTemperature (name : String) (info : SensorInfo τ) (status : SensorStatus) (raw : Rat) :
    Temperature τ × (ThrottlingSeverity × ThrottlingSeverity) :=
  let value := raw * info.multiplier
  let severities :=
    if info.isMonitor then
      getSeverityFromThresholds info status.prevHotSeverity status.prevColdSeverity value
    else
      (.none, .none)
  (⟨info.type, name, value,
    if severities.1 > severities.2 then severities.1 else severities.2⟩, severities)

def SensorStatus.record (r : Temperature τ × (ThrottlingSeverity × ThrottlingSeverity)) :
    SensorStatus :=
  ⟨r.1.throttlingStatus, r.2.1, r.2.2⟩

def sensorMachine (name : String) (info : SensorInfo τ) :
    Machine SensorStatus Rat (Temperature τ) where
  step status raw :=
    let r := readTemperature name info status raw
    (.record r, r.1)

/-! ## The loop -/

/-- The severities above `NONE` with a property. -/
def severitiesWith (p : ThrottlingSeverity → Bool) : Set ThrottlingSeverity :=
  {s | s ≠ .none ∧ p s = true}

theorem scan_severities (p : ThrottlingSeverity → Bool) :
    IsGreatest (insert ⊥ (severitiesWith p)) (scan p descending .none) := by
  have h := scan_isGreatest p descending_pairwise
  simp only [mem_descending] at h
  exact h

theorem getSeverityFromThresholds_eq
    (prevHot prevCold : ThrottlingSeverity) (value : Rat) :
    getSeverityFromThresholds info prevHot prevCold value =
      (select prevHot (scan (info.reachesHot value) descending .none)
          (scan (info.holdsHot value) descending .none),
        select prevCold (scan (info.reachesCold value) descending .none)
          (scan (info.holdsCold value) descending .none)) := by
  unfold getSeverityFromThresholds
  rfl

/-! ## The law -/

/-- The new severity is the largest one, or `NONE`, that is reached, or is held and not above the
previous one. -/
def SeverityLaw (reaches holds : ThrottlingSeverity → Bool)
    (prev new : ThrottlingSeverity) : Prop :=
  IsGreatest (Allowed (severitiesWith reaches) (severitiesWith holds) prev) new

/-- A severity that is reached or held by mistake does not come in the way of the law. -/
def SeverityRegular (reaches holds : ThrottlingSeverity → Bool)
    (prev : ThrottlingSeverity) : Prop :=
  Regular (severitiesWith reaches) (severitiesWith holds) prev

instance (reaches holds : ThrottlingSeverity → Bool) (prev s : ThrottlingSeverity) :
    Decidable (s ∈ Allowed (severitiesWith reaches) (severitiesWith holds) prev) :=
  inferInstanceAs (Decidable
    (s = .none ∨ (s ≠ .none ∧ reaches s = true) ∨ (s ≠ .none ∧ holds s = true) ∧ s ≤ prev))

instance (reaches holds : ThrottlingSeverity → Bool) (prev new : ThrottlingSeverity) :
    Decidable (SeverityLaw reaches holds prev new) :=
  decidable_of_iff (new ∈ Allowed (severitiesWith reaches) (severitiesWith holds) prev ∧
      ∀ s ∈ ThrottlingSeverity.all,
        s ∈ Allowed (severitiesWith reaches) (severitiesWith holds) prev → s ≤ new)
    (and_congr_right fun _ => ⟨fun h s hs => h s s.mem_all hs, fun h _ _ hs => h hs⟩)

section Law

variable (name : String) (info : SensorInfo τ) (status : SensorStatus) (raw : Rat)

/-- The law for the hot and for the cold severity that are recorded of one reading. -/
def SensorInfo.Law : Prop :=
  let value := raw * info.multiplier
  let new := ((sensorMachine name info).step status raw).1
  SeverityLaw (info.reachesHot value) (info.holdsHot value) status.prevHotSeverity
      new.prevHotSeverity ∧
    SeverityLaw (info.reachesCold value) (info.holdsCold value) status.prevColdSeverity
      new.prevColdSeverity

/-- The condition on the thresholds, the hysteresis, the previous severities and the reading. -/
def SensorInfo.IsRegular : Prop :=
  let value := raw * info.multiplier
  SeverityRegular (info.reachesHot value) (info.holdsHot value) status.prevHotSeverity ∧
    SeverityRegular (info.reachesCold value) (info.holdsCold value) status.prevColdSeverity

/-- A severity rises only to one whose threshold is reached. -/
def SensorInfo.RisesOnlyIfReached : Prop :=
  let value := raw * info.multiplier
  let new := ((sensorMachine name info).step status raw).1
  (status.prevHotSeverity < new.prevHotSeverity →
      info.reachesHot value new.prevHotSeverity = true) ∧
    (status.prevColdSeverity < new.prevColdSeverity →
      info.reachesCold value new.prevColdSeverity = true)

instance : Decidable (info.Law name status raw) :=
  inferInstanceAs (Decidable (_ ∧ _))

instance : Decidable (info.RisesOnlyIfReached name status raw) :=
  inferInstanceAs (Decidable ((_ → _) ∧ (_ → _)))

variable {name info status raw}

variable (name status raw) in
theorem sensorMachine_step (hmon : info.isMonitor = true) :
    let value := raw * info.multiplier
    let new := ((sensorMachine name info).step status raw).1
    new.prevHotSeverity = select status.prevHotSeverity
        (scan (info.reachesHot value) descending .none)
        (scan (info.holdsHot value) descending .none) ∧
      new.prevColdSeverity = select status.prevColdSeverity
        (scan (info.reachesCold value) descending .none)
        (scan (info.holdsCold value) descending .none) := by
  simp [sensorMachine, SensorStatus.record, readTemperature, if_pos hmon,
    getSeverityFromThresholds_eq]

theorem SensorInfo.law_iff_isRegular (hmon : info.isMonitor = true) :
    info.Law name status raw ↔ info.IsRegular status raw := by
  obtain ⟨hhot, hcold⟩ := sensorMachine_step name status raw hmon
  unfold SensorInfo.Law SensorInfo.IsRegular SeverityLaw SeverityRegular
  dsimp only
  rw [hhot, hcold]
  exact and_congr (select_isGreatest_iff (scan_severities _) (scan_severities _))
    (select_isGreatest_iff (scan_severities _) (scan_severities _))

theorem SensorInfo.Law.risesOnlyIfReached (h : info.Law name status raw) :
    info.RisesOnlyIfReached name status raw :=
  ⟨fun hlt => (mem_reached_of_lt h.1.1 hlt).2, fun hlt => (mem_reached_of_lt h.2.1 hlt).2⟩

end Law

/-- Exactly if every reading is regular. -/
theorem severity_law (name : String) {info : SensorInfo τ} (hmon : info.isMonitor = true)
    (readings : List Rat) :
    ((sensorMachine name info).Always (info.Law name) .initial readings ↔
        (sensorMachine name info).Always info.IsRegular .initial readings) ∧
      ((sensorMachine name info).Always info.IsRegular .initial readings →
        (sensorMachine name info).Always (info.RisesOnlyIfReached name) .initial readings) := by
  have hlaw : (sensorMachine name info).Always info.IsRegular .initial readings →
      (sensorMachine name info).Always (info.Law name) .initial readings :=
    .mono fun _ _ h => (info.law_iff_isRegular hmon).mpr h
  exact ⟨⟨.mono fun _ _ h => (info.law_iff_isRegular hmon).mp h, hlaw⟩,
    fun hregular => (hlaw hregular).mono fun _ _ h => h.risesOnlyIfReached⟩

/-- A sensor that is `SEVERE` from 95 degrees on and shuts down from 125 degrees on, with a
hysteresis of one and of two degrees. -/
def severeSensor : SensorInfo Unit where
  type := ()
  hotThresholds
    | .severe => some 95
    | .shutdown => some 125
    | _ => none
  coldThresholds _ := none
  hotHysteresis
    | .severe => 1
    | .shutdown => 2
    | _ => 0
  coldHysteresis _ := 0
  vrThreshold := none
  multiplier := 1
  isMonitor := true

theorem severity_law_severe :
    (sensorMachine "cpu" severeSensor).Always severeSensor.IsRegular .initial [96, 189 / 2, 90] ∧
      (sensorMachine "cpu" severeSensor).Always (severeSensor.RisesOnlyIfReached "cpu") .initial
        [96, 189 / 2, 90] := by
  have hmon : severeSensor.isMonitor = true := rfl
  obtain ⟨hiff, hrises⟩ := severity_law "cpu" hmon [96, 189 / 2, 90]
  have hlaw : (sensorMachine "cpu" severeSensor).Always (severeSensor.Law "cpu") .initial
      [96, 189 / 2, 90] := by
    decide +kernel
  exact ⟨hiff.mp hlaw, hrises (hiff.mp hlaw)⟩

/-! ## Where the law fails -/

/-- Sensors of one type, `"NAN"` as the only text of a number, and no trip point of the kernel. -/
def exampleEnv : ConfigEnv Unit where
  realText _ := ""
  stof text := if text = "NAN" then .ok none else .error .badType
  getTypeFromString text := if text = "CPU" then some () else none
  tripPoint := none
  outOfInt _ := 0

/-- The same sensor, but with a hysteresis of 40 degrees for the shutdown temperature. -/
def wideHysteresisDoc : Json :=
  .object [("Sensors", .array [.object [("Name", .string "cpu"), ("Type", .string "CPU"),
    ("HotThreshold", .array [.string "NAN", .string "NAN", .string "NAN", .int 95, .string "NAN",
      .string "NAN", .int 125]),
    ("HotHysteresis", .array [.int 0, .int 0, .int 0, .int 1, .int 0, .int 0, .int 40]),
    ("VrThreshold", .string "NAN"), ("Multiplier", .int 1), ("Monitor", .bool true)]])]

/-- The parser accepts the document. The sensor that is `SEVERE` goes to `SHUTDOWN` when it cools
down below 95 degrees. -/
theorem severity_rises_below_threshold :
    (parseSensorInfo exampleEnv (some wideHysteresisDoc)).map (List.map Prod.fst) = some ["cpu"] ∧
      ∀ sensors ∈ parseSensorInfo exampleEnv (some wideHysteresisDoc), ∀ x ∈ sensors,
        x.2.isMonitor = true ∧
        ((sensorMachine x.1 x.2).exec .initial [96]).2 = ⟨.severe, .severe, .none⟩ ∧
        ((sensorMachine x.1 x.2).exec .initial [96, 94]).2 = ⟨.shutdown, .shutdown, .none⟩ ∧
        ¬ x.2.Law x.1 ⟨.severe, .severe, .none⟩ 94 ∧
        ¬ x.2.RisesOnlyIfReached x.1 ⟨.severe, .severe, .none⟩ 94 := by
  decide +kernel

end AmlogicHal.Thermal
