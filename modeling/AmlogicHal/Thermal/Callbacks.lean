import AmlogicHal.Thermal.Severity
import Mathlib.Data.List.Nodup

/-!
# What the callbacks are told

A callback that registers gets the current temperatures at once, with severities that are computed
for it. The watcher reads the sensors on uevents or on a timeout, records the severities, and tells
the callbacks about those that differ from the recorded ones.

A registration does not record what it delivers. So a callback may be told a severity that the HAL
does not hold, and if the temperature is back to normal at the next pass, it is not told
(`registration_leaves_stale`). `passes_agree_iff` is the exact condition on the readings under which
after every pass each callback was last told the severity that the HAL holds.
-/

namespace AmlogicHal.Thermal

open List

variable {τ κ : Type}

section Model

variable [DecidableEq τ] [DecidableEq κ]

/-! ## The HAL -/

/-- `sensor_info_map_`, with one entry for every name. -/
structure Sensors (τ : Type) where
  entries : SensorInfoMap τ
  nodup : (entries.map Prod.fst).Nodup

structure CallbackSetting (τ κ : Type) where
  callback : κ
  isFilterType : Bool
  type : τ
deriving DecidableEq

/-- The callback is told about sensors of this type. -/
def CallbackSetting.accepts (c : CallbackSetting τ κ) (type : τ) : Bool :=
  !c.isFilterType || type = c.type

structure ThermalHal (τ κ : Type) where
  status : String → SensorStatus
  callbacks : List (CallbackSetting τ κ)
  readings : String → Rat

def ThermalHal.initial (readings : String → Rat) : ThermalHal τ κ :=
  ⟨fun _ => .initial, [], readings⟩

/-- A call of `notifyThrottling`. -/
abbrev Delivery (τ κ : Type) := κ × Temperature τ

variable (hal : ThermalHal τ κ)

namespace ThermalHal

variable (sensors : Sensors τ)

def read (x : String × SensorInfo τ) : Temperature τ :=
  (readTemperature x.1 x.2 (hal.status x.1) (hal.readings x.1)).1

def fillCurrentTemperatures (filterType : Bool) (type : τ) :
    List (Temperature τ) :=
  (sensors.entries.filter fun x => !(filterType && x.2.type ≠ type)).map hal.read

/-- `registerThermalChangedCallback`. A callback that is registered already is refused. -/
def registerThermalChangedCallback (callback : κ) (filterType : Bool)
    (type : τ) : ThermalHal τ κ × List (Delivery τ κ) :=
  if hal.callbacks.any fun c => c.callback = callback then
    (hal, [])
  else
    ({ hal with callbacks := hal.callbacks ++ [⟨callback, filterType, type⟩] },
      ((hal.fillCurrentTemperatures sensors filterType type).filter
        fun t => !filterType || t.type = type).map fun t => (callback, t))

def unregisterThermalChangedCallback (callback : κ) : ThermalHal τ κ :=
  { hal with callbacks := hal.callbacks.filter fun c => c.callback ≠ callback }

def sendThermalChangedCallback (temps : List (Temperature τ)) :
    List (Delivery τ κ) :=
  temps.flatMap fun t => (hal.callbacks.filter fun c => c.accepts t.type).map fun c =>
    (c.callback, t)

end ThermalHal

structure Pass (τ : Type) where
  status : String → SensorStatus
  temps : List (Temperature τ)
  thermalTriggered : Bool

/-- A pass reads the sensor: it is monitored, and is among those of the uevent if there is one. -/
def passReads (uevents : List String) (x : String × SensorInfo τ) : Bool :=
  x.2.isMonitor && (uevents.isEmpty || uevents.contains x.1)

/-- The body of the loop of `thermalWatcherCallbackFunc`. -/
def Pass.visit (uevents : List String) (readings : String → Rat) (p : Pass τ)
    (x : String × SensorInfo τ) : Pass τ :=
  if x.2.isMonitor = false then
    p
  else if passReads uevents x = false then
    { p with thermalTriggered := p.thermalTriggered || (p.status x.1).severity ≠ .none }
  else
    let r := readTemperature x.1 x.2 (p.status x.1) (readings x.1)
    { status := Function.update p.status x.1 (.record r)
      temps := if r.1.throttlingStatus ≠ (p.status x.1).severity then p.temps ++ [r.1] else p.temps
      thermalTriggered := p.thermalTriggered || r.1.throttlingStatus ≠ .none }

/-- `thermalWatcherCallbackFunc`. Its result is the last field. -/
def thermalWatcherCallbackFunc (sensors : Sensors τ) (hal : ThermalHal τ κ)
    (uevents : List String) : Pass τ :=
  sensors.entries.foldl (Pass.visit uevents hal.readings) ⟨hal.status, [], false⟩

inductive ThermalEvent (τ κ : Type) where
  | reading (name : String) (raw : Rat)
  | register (callback : κ) (filterType : Bool) (type : τ)
  | unregister (callback : κ)
  | pass (uevents : List String)
deriving DecidableEq

def thermalStep (sensors : Sensors τ) (hal : ThermalHal τ κ) :
    ThermalEvent τ κ → ThermalHal τ κ × List (Delivery τ κ)
  | .reading name raw => ({ hal with readings := Function.update hal.readings name raw }, [])
  | .register callback filterType type =>
    hal.registerThermalChangedCallback sensors callback filterType type
  | .unregister callback => (hal.unregisterThermalChangedCallback callback, [])
  | .pass uevents =>
    let p := thermalWatcherCallbackFunc sensors hal uevents
    ({ hal with status := p.status }, hal.sendThermalChangedCallback p.temps)

/-! ## The view of the callbacks -/

/-- What the callbacks were told last; and for a callback that has registered, the readings at its
registration, until a pass reads the sensor. -/
structure View (κ : Type) where
  last : κ → String → Option ThrottlingSeverity
  unconfirmed : κ → String → Option Rat

namespace View

def initial : View κ := ⟨fun _ _ => none, fun _ _ => none⟩

def deliver (v : View κ) (ds : List (Delivery τ κ)) : View κ :=
  { v with last := ds.foldl (fun last d k name =>
      if d.1 = k ∧ d.2.name = name then some d.2.throttlingStatus else last k name) v.last }

def confirm (uevents : List String) (v : View κ) : View κ :=
  { v with unconfirmed := fun k name =>
      if uevents.isEmpty || uevents.contains name then none else v.unconfirmed k name }

def register (callback : κ) (readings : String → Rat) (v : View κ) : View κ :=
  { v with unconfirmed := fun k name =>
      if k = callback then some (readings name) else v.unconfirmed k name }

def note (v : View κ) : ThermalEvent τ κ → View κ
  | .reading _ _ | .unregister _ => v
  | .register callback _ _ =>
    if hal.callbacks.any fun c => c.callback = callback then v
    else v.register callback hal.readings
  | .pass uevents => v.confirm uevents

end View

/-- The HAL together with the view of the callbacks. -/
def thermalMachine (sensors : Sensors τ) :
    Machine (ThermalHal τ κ × View κ) (ThermalEvent τ κ) (List (Delivery τ κ)) where
  step s e :=
    let r := thermalStep sensors s.1 e
    ((r.1, (s.2.note s.1 e).deliver r.2), r.2)

end Model

/-! ## What a pass does -/

def ThermalHal.statusOf (hal : ThermalHal τ κ) (x : String × SensorInfo τ) (raw : Rat) :
    ThrottlingSeverity :=
  (readTemperature x.1 x.2 (hal.status x.1) raw).1.throttlingStatus

section Visit

variable {uevents : List String} {readings : String → Rat} {x : String × SensorInfo τ} {p : Pass τ}
  {l : SensorInfoMap τ}

theorem passReads_isMonitor (h : passReads uevents x = true) : x.2.isMonitor = true :=
  (Bool.and_eq_true_iff.mp h).1

theorem Pass.visit_status_ne {name : String} (hne : name ≠ x.1) :
    (p.visit uevents readings x).status name = p.status name := by
  unfold Pass.visit
  split
  · rfl
  · split
    · rfl
    · exact Function.update_of_ne hne _ _

theorem Pass.visit_eq_of_not_reads (h : passReads uevents x = false) :
    (p.visit uevents readings x).status = p.status ∧
    (p.visit uevents readings x).temps = p.temps := by
  unfold Pass.visit
  split <;> exact ⟨rfl, rfl⟩

theorem Pass.visit_of_reads (h : passReads uevents x = true) :
    (p.visit uevents readings x).status x.1 =
        .record (readTemperature x.1 x.2 (p.status x.1) (readings x.1)) ∧
      (p.visit uevents readings x).temps =
        p.temps ++ (if (readTemperature x.1 x.2 (p.status x.1) (readings x.1)).1.throttlingStatus ≠
            (p.status x.1).severity then
          [(readTemperature x.1 x.2 (p.status x.1) (readings x.1)).1] else []) := by
  unfold Pass.visit
  rw [if_neg (by simp [passReads_isMonitor h]), if_neg (by simp [h])]
  dsimp only
  split <;> simp

theorem foldl_visit_status_ne {name : String} (hne : name ∉ l.map Prod.fst) :
    (l.foldl (Pass.visit uevents readings) p).status name = p.status name := by
  induction l generalizing p with
  | nil => rfl
  | cons x l ih =>
    rw [map_cons, mem_cons, not_or] at hne
    rw [foldl_cons, ih hne.2, Pass.visit_status_ne hne.1]

theorem foldl_visit_status (hnodup : (l.map Prod.fst).Nodup) (hx : x ∈ l) :
    (l.foldl (Pass.visit uevents readings) p).status x.1 =
      if passReads uevents x = true then
        .record (readTemperature x.1 x.2 (p.status x.1) (readings x.1)) else p.status x.1 := by
  induction l generalizing p with
  | nil => cases hx
  | cons y l ih =>
    rw [map_cons, nodup_cons] at hnodup
    rw [foldl_cons]
    rcases mem_cons.mp hx with rfl | hx
    · rw [foldl_visit_status_ne hnodup.1]
      split
      · next hr => exact (Pass.visit_of_reads hr).1
      · next hr => rw [(Pass.visit_eq_of_not_reads (by simpa using hr)).1]
    · have hne : x.1 ≠ y.1 := fun h => hnodup.1 (h ▸ mem_map_of_mem hx)
      rw [ih hnodup.2 hx, Pass.visit_status_ne hne]

/-- The temperatures of a pass are those of the sensors it reads whose status has changed. -/
theorem mem_foldl_visit_temps (hnodup : (l.map Prod.fst).Nodup) {t : Temperature τ} :
    t ∈ (l.foldl (Pass.visit uevents readings) p).temps ↔ t ∈ p.temps ∨
      ∃ x ∈ l, passReads uevents x = true ∧
        t = (readTemperature x.1 x.2 (p.status x.1) (readings x.1)).1 ∧
        t.throttlingStatus ≠ (p.status x.1).severity := by
  induction l generalizing p with
  | nil => simp
  | cons y l ih =>
    rw [map_cons, nodup_cons] at hnodup
    -- the first sensor does not change the status of the others
    have hrest : ∀ x ∈ l, (p.visit uevents readings y).status x.1 = p.status x.1 := fun x hx =>
      Pass.visit_status_ne fun h => hnodup.1 (h ▸ mem_map_of_mem hx)
    have hfirst : t ∈ (p.visit uevents readings y).temps ↔ t ∈ p.temps ∨
        passReads uevents y = true ∧
          t = (readTemperature y.1 y.2 (p.status y.1) (readings y.1)).1 ∧
          t.throttlingStatus ≠ (p.status y.1).severity := by
      cases hr : passReads uevents y with
      | false =>
        have hsame : (p.visit uevents readings y).temps = p.temps :=
          (Pass.visit_eq_of_not_reads hr).2
        simp [hsame]
      | true =>
        rw [(Pass.visit_of_reads hr).2, mem_append]
        split
        · next hch =>
          simp only [mem_singleton, true_and]
          refine or_congr_right ⟨fun h => ⟨h, h ▸ hch⟩, fun h => h.1⟩
        · next hch =>
          simp only [not_mem_nil, true_and]
          refine or_congr_right ⟨False.elim, fun h => hch (h.1 ▸ h.2)⟩
    rw [foldl_cons, ih hnodup.2, hfirst, exists_mem_cons_iff, or_assoc]
    refine or_congr_right (or_congr_right ?_)
    exact exists_congr fun x => and_congr_right fun hx => by rw [hrest x hx]

end Visit

/-! ## What deliveries do -/

section Deliveries

variable [DecidableEq κ] {ds : List (Delivery τ κ)}

theorem View.deliver_last_of_forall_not {v : View κ} {k : κ} {name : String}
    (h : ∀ d ∈ ds, d.1 = k → d.2.name ≠ name) :
    (v.deliver ds).last k name = v.last k name := by
  unfold View.deliver
  generalize v.last = last
  induction ds generalizing last with
  | nil => rfl
  | cons d ds ih =>
    rw [forall_mem_cons] at h
    rw [foldl_cons, ih h.2]
    exact if_neg fun hd => h.1 hd.1 hd.2

/-- If all deliveries for a sensor tell the same, this is what was told last. -/
theorem View.deliver_last_of_exists {v : View κ} {k : κ} {name : String} {s : ThrottlingSeverity}
    (h : ∃ d ∈ ds, d.1 = k ∧ d.2.name = name)
    (hall : ∀ d ∈ ds, d.1 = k → d.2.name = name → d.2.throttlingStatus = s) :
    (v.deliver ds).last k name = some s := by
  induction ds generalizing v with
  | nil =>
    obtain ⟨d, hd, -⟩ := h
    cases hd
  | cons d ds ih =>
    rw [forall_mem_cons] at hall
    have hsplit : v.deliver (d :: ds) = (v.deliver [d]).deliver ds := rfl
    rw [hsplit]
    by_cases hrest : ∃ d ∈ ds, d.1 = k ∧ d.2.name = name
    · exact ih hrest hall.2
    · -- the first delivery is the last one for this sensor
      have hno : ∀ d ∈ ds, d.1 = k → d.2.name ≠ name := fun d hd hk hn => hrest ⟨d, hd, hk, hn⟩
      rw [View.deliver_last_of_forall_not hno]
      obtain ⟨d', hd', hk, hn⟩ := h
      rcases mem_cons.mp hd' with rfl | hd'
      · rw [← hall.1 hk hn]
        exact if_pos ⟨hk, hn⟩
      · exact absurd ⟨d', hd', hk, hn⟩ hrest

end Deliveries

theorem Sensors.eq_of_name {sensors : Sensors τ} {x y : String × SensorInfo τ}
    (hx : x ∈ sensors.entries) (hy : y ∈ sensors.entries) (h : x.1 = y.1) : x = y :=
  inj_on_of_nodup_map sensors.nodup hx hy h

section Steps

variable {sensors : Sensors τ} {s : ThermalHal τ κ × View κ} {uevents : List String}
  {x : String × SensorInfo τ} {c : CallbackSetting τ κ}

theorem mem_temps_iff (hx : x ∈ sensors.entries) {t : Temperature τ} (hname : t.name = x.1) :
    t ∈ (thermalWatcherCallbackFunc sensors s.1 uevents).temps ↔
      passReads uevents x = true ∧ t = s.1.read x ∧
        t.throttlingStatus ≠ (s.1.status x.1).severity := by
  unfold thermalWatcherCallbackFunc
  rw [mem_foldl_visit_temps sensors.nodup]
  constructor
  · rintro (h | ⟨y, hy, hr, rfl, hch⟩)
    · cases h
    · obtain rfl := sensors.eq_of_name hy hx hname
      exact ⟨hr, rfl, hch⟩
  · rintro ⟨hr, rfl, hch⟩
    exact .inr ⟨x, hx, hr, rfl, hch⟩

variable [DecidableEq τ]

theorem mem_sendThermalChangedCallback {hal : ThermalHal τ κ} {temps : List (Temperature τ)}
    {d : Delivery τ κ} : d ∈ hal.sendThermalChangedCallback temps ↔
      d.2 ∈ temps ∧ ∃ c ∈ hal.callbacks, c.accepts d.2.type = true ∧ c.callback = d.1 := by
  unfold ThermalHal.sendThermalChangedCallback
  simp only [mem_flatMap, mem_map, mem_filter]
  constructor
  · rintro ⟨t, ht, c, ⟨hc, hacc⟩, rfl⟩
    exact ⟨ht, c, hc, hacc, rfl⟩
  · rintro ⟨ht, c, hc, hacc, hk⟩
    exact ⟨d.2, ht, c, ⟨hc, hacc⟩, by rw [hk]⟩

variable [DecidableEq κ]

theorem pass_status (hx : x ∈ sensors.entries) :
    ((thermalMachine sensors).step s (.pass uevents)).1.1.status x.1 =
      if passReads uevents x = true then
        .record (readTemperature x.1 x.2 (s.1.status x.1) (s.1.readings x.1))
      else s.1.status x.1 :=
  foldl_visit_status sensors.nodup hx

theorem pass_last (hx : x ∈ sensors.entries) (hc : c ∈ s.1.callbacks)
    (hacc : c.accepts x.2.type = true) :
    ((thermalMachine sensors).step s (.pass uevents)).1.2.last c.callback x.1 =
      if passReads uevents x = true ∧
        s.1.statusOf x (s.1.readings x.1) ≠ (s.1.status x.1).severity then
        some (s.1.statusOf x (s.1.readings x.1))
      else s.2.last c.callback x.1 := by
  split
  · next h =>
    refine View.deliver_last_of_exists ⟨(c.callback, s.1.read x), ?_, rfl, rfl⟩ ?_
    · exact mem_sendThermalChangedCallback.mpr
        ⟨(mem_temps_iff hx rfl).mpr ⟨h.1, rfl, h.2⟩, c, hc, hacc, rfl⟩
    · intro d hd _ hname
      rw [((mem_temps_iff hx hname).mp (mem_sendThermalChangedCallback.mp hd).1).2.1]
      rfl
  · next h =>
    refine View.deliver_last_of_forall_not fun d hd _ hname => h ?_
    obtain ⟨hr, heq, hch⟩ := (mem_temps_iff hx hname).mp (mem_sendThermalChangedCallback.mp hd).1
    rw [heq] at hch
    exact ⟨hr, hch⟩

theorem register_last {k : κ} {filterType : Bool} {type : τ}
    (hnew : ¬ (s.1.callbacks.any fun c => c.callback = k) = true) (hx : x ∈ sensors.entries)
    (hacc : CallbackSetting.accepts ⟨k, filterType, type⟩ x.2.type = true) :
    ((thermalMachine sensors).step s (.register k filterType type)).1.2.last k x.1 =
      some (s.1.statusOf x (s.1.readings x.1)) := by
  simp only [thermalMachine, thermalStep, ThermalHal.registerThermalChangedCallback, if_neg hnew]
  refine View.deliver_last_of_exists ⟨(k, s.1.read x), ?_, rfl, rfl⟩ ?_
  · refine mem_map_of_mem (mem_filter.mpr ⟨mem_map_of_mem ?_, hacc⟩)
    refine mem_filter.mpr ⟨hx, ?_⟩
    revert hacc
    unfold CallbackSetting.accepts
    cases filterType <;> simp
  · intro d hd _ hname
    obtain ⟨t, ht, rfl⟩ := mem_map.mp hd
    obtain ⟨y, hy, rfl⟩ := mem_map.mp (mem_filter.mp ht).1
    rw [sensors.eq_of_name (mem_filter.mp hy).1 hx hname]
    rfl

theorem register_last_ne {k k' : κ} {filterType : Bool} {type : τ} {name : String} (hne : k' ≠ k) :
    ((thermalMachine sensors).step s (.register k filterType type)).1.2.last k' name =
      s.2.last k' name := by
  simp only [thermalMachine, thermalStep, ThermalHal.registerThermalChangedCallback, View.note]
  split
  · rfl
  · refine View.deliver_last_of_forall_not fun d hd hk => ?_
    obtain ⟨t, -, rfl⟩ := mem_map.mp hd
    exact absurd hk.symm hne

/-! ## Agreement -/

/-- What a callback was told last: the severity that the HAL holds, or if no pass has read the
sensor since its registration, the status of the reading at that time. -/
def ViewInv (sensors : Sensors τ) (s : ThermalHal τ κ × View κ) : Prop :=
  ∀ x ∈ sensors.entries, x.2.isMonitor = true → ∀ c ∈ s.1.callbacks, c.accepts x.2.type = true →
    s.2.last c.callback x.1 = some
      (match s.2.unconfirmed c.callback x.1 with
        | none => (s.1.status x.1).severity
        | some raw => s.1.statusOf x raw)

/-- After a pass, every callback was last told the severity that the HAL holds, for every sensor
that the pass has read. -/
def PassAgrees (sensors : Sensors τ) (s : ThermalHal τ κ × View κ) : ThermalEvent τ κ → Prop
  | .pass uevents =>
    let s' := ((thermalMachine sensors).step s (.pass uevents)).1
    ∀ x ∈ sensors.entries, passReads uevents x = true → ∀ c ∈ s'.1.callbacks,
      c.accepts x.2.type = true → s'.2.last c.callback x.1 = some (s'.1.status x.1).severity
  | _ => True

/-- If a pass reads a sensor and its status is the severity that the HAL holds, then the readings at
the registrations since the last pass that read the sensor had this status too. -/
def RegistrationsConfirmed (sensors : Sensors τ) (s : ThermalHal τ κ × View κ) :
    ThermalEvent τ κ → Prop
  | .pass uevents =>
    ∀ x ∈ sensors.entries, passReads uevents x = true → ∀ c ∈ s.1.callbacks,
      c.accepts x.2.type = true → ∀ raw ∈ s.2.unconfirmed c.callback x.1,
        s.1.statusOf x (s.1.readings x.1) = (s.1.status x.1).severity →
          s.1.statusOf x raw = (s.1.status x.1).severity
  | _ => True

theorem passAgrees_iff (hinv : ViewInv sensors s) (e : ThermalEvent τ κ) :
    PassAgrees sensors s e ↔ RegistrationsConfirmed sensors s e := by
  cases e with
  | reading | register | unregister => exact Iff.rfl
  | pass uevents =>
    refine forall₂_congr fun x hx => forall_congr' fun hr => forall₂_congr fun c hc =>
      forall_congr' fun hacc => ?_
    have hlast := hinv x hx (passReads_isMonitor hr) c hc hacc
    rw [pass_last (s := s) hx hc hacc, pass_status hx, if_pos hr]
    change _ = some (s.1.statusOf x (s.1.readings x.1)) ↔ _
    by_cases hch : s.1.statusOf x (s.1.readings x.1) = (s.1.status x.1).severity
    · -- the pass tells nothing, and what was told before has to be right
      rw [if_neg fun h => h.2 hch, hlast, hch]
      cases s.2.unconfirmed c.callback x.1 with
      | none => simp
      | some raw => simp
    · rw [if_pos ⟨hr, hch⟩]
      exact iff_of_true rfl fun _ _ h => absurd h hch

theorem ViewInv.step (hinv : ViewInv sensors s) {e : ThermalEvent τ κ}
    (he : PassAgrees sensors s e) : ViewInv sensors ((thermalMachine sensors).step s e).1 := by
  intro x hx hmon c hc hacc
  cases e with
  | reading name raw => exact hinv x hx hmon c hc hacc
  | unregister callback => exact hinv x hx hmon c (mem_filter.mp hc).1 hacc
  | register k filterType type =>
    by_cases hold : (s.1.callbacks.any fun c => c.callback = k) = true
    · -- the callback is refused
      simp only [thermalMachine, thermalStep, ThermalHal.registerThermalChangedCallback,
        if_pos hold, View.note] at hc ⊢
      exact hinv x hx hmon c hc hacc
    · have hview : ∀ k' name, ((thermalMachine sensors).step s
          (.register k filterType type)).1.2.unconfirmed k' name =
            if k' = k then some (s.1.readings name) else s.2.unconfirmed k' name := by
        intro k' name
        simp only [thermalMachine, View.note, if_neg hold, View.deliver, View.register]
      have hhal : ((thermalMachine sensors).step s (.register k filterType type)).1.1 =
          { s.1 with callbacks := s.1.callbacks ++ [⟨k, filterType, type⟩] } := by
        simp only [thermalMachine, thermalStep, ThermalHal.registerThermalChangedCallback,
          if_neg hold]
      rw [hhal] at hc ⊢
      rw [hview]
      rcases mem_append.mp hc with hc | hc
      · have hne : c.callback ≠ k := fun h => hold (any_eq_true.mpr ⟨c, hc, by simp [h]⟩)
        rw [register_last_ne hne, if_neg hne]
        exact hinv x hx hmon c hc hacc
      · obtain rfl := mem_singleton.mp hc
        rw [register_last hold hx hacc, if_pos rfl]
        rfl
  | pass uevents =>
    have hview : ((thermalMachine sensors).step s (.pass uevents)).1.2.unconfirmed c.callback x.1 =
        if passReads uevents x = true then none else s.2.unconfirmed c.callback x.1 := by
      simp [thermalMachine, View.note, View.deliver, View.confirm, passReads, hmon]
    rw [hview]
    cases hr : passReads uevents x with
    | true => exact he x hx hr c hc hacc
    | false =>
      have hstatus : ((thermalMachine sensors).step s (.pass uevents)).1.1.status x.1 =
          s.1.status x.1 := by
        rw [pass_status hx, hr, if_neg Bool.false_ne_true]
      rw [pass_last (s := s) hx hc hacc, hr, if_neg fun h => Bool.false_ne_true h.1,
        if_neg Bool.false_ne_true, hinv x hx hmon c hc hacc]
      unfold ThermalHal.statusOf
      rw [hstatus]

/-- Exactly if at every pass the registrations since the last one are confirmed, for the sensors
that the pass has read. -/
theorem passes_agree_iff (sensors : Sensors τ) (readings : String → Rat)
    (es : List (ThermalEvent τ κ)) :
    (thermalMachine sensors).Always (PassAgrees sensors) (.initial readings, .initial) es ↔
      (thermalMachine sensors).Always (RegistrationsConfirmed sensors)
        (.initial readings, .initial) es :=
  Machine.always_congr (I := ViewInv sensors) (fun _ e hinv => passAgrees_iff hinv e)
    (fun _ _ hinv he => hinv.step he) es _ nofun

end Steps

/-- The sensor reads 96 degrees when a callback registers, and 50 degrees at the next pass. -/
def coolingRun : List (ThermalEvent Unit Nat) :=
  [.reading "cpu" 96, .register 1 false (), .reading "cpu" 50, .pass []]

/-- The callback was told `SEVERE`, while the HAL holds `NONE`. -/
theorem registration_leaves_stale :
    let sensors : Sensors Unit := ⟨[("cpu", severeSensor)], by simp⟩
    let s := ((thermalMachine sensors).exec (.initial fun _ => 50, .initial) coolingRun).2
    passReads [] ("cpu", severeSensor) = true ∧ s.1.callbacks = [⟨1, false, ()⟩] ∧
      s.2.last 1 "cpu" = some .severe ∧ (s.1.status "cpu").severity = .none := by
  decide +kernel

end AmlogicHal.Thermal
