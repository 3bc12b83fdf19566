import AmlogicHal.Thermal.Severity
import Mathlib.Data.Rat.Floor

/-!
# Hot thresholds that rise with the severity

The parser refuses a hot threshold that is lower than the one before it. The last one, the shutdown
temperature, it hands to `resetShutDownTemp`, which cuts the fraction off both the configured value
and the threshold before it. What comes out is not below that threshold without its fraction, and
that is all.

1. `hotThresholds_nonDecreasing_iff`: for a shutdown temperature that an `int` can hold, the stored
   thresholds rise unless the highest one below the shutdown temperature has a fraction, and the
   configured or the kernel's shutdown temperature is in the same degree.
2. `shutdown_belowEmergency`: a shutdown temperature below the emergency one, once from the
   configuration and once from the kernel.
-/

namespace AmlogicHal.Thermal

open Parse Function List

variable {τ : Type} {env : ConfigEnv τ}

/-- The thresholds that are there do not decrease with the severity. -/
def NonDecreasing (h : ThrottlingArray (Option Rat)) : Prop :=
  ∀ s u a b, s < u → h s = some a → h u = some b → a ≤ b

/-- `m` is the highest threshold of the severities below `SHUTDOWN`. -/
structure IsHighest (h : ThrottlingArray (Option Rat)) (m : Rat) : Prop where
  attained : ∃ s < .shutdown, h s = some m
  le : ∀ s < .shutdown, ∀ a, h s = some a → a ≤ m

/-- The threshold in the description, if it is there and a number. -/
def configured (env : ConfigEnv τ) (values : Json) (s : ThrottlingSeverity) : Option Rat :=
  match values.index s.level >>= getFloatFromValue env with
  | .ok t => t
  | .error _ => none

/-- The trip point of the kernel in whole degrees, and zero without one. -/
def kernelTemp (env : ConfigEnv τ) : Int := (env.tripPoint.getD 0).tdiv 1000

/-- The highest threshold below the shutdown temperature has a fraction, and the configured or the
kernel's shutdown temperature is in the same degree. -/
def SameDegree (env : ConfigEnv τ) (values : Json) (h : ThrottlingArray (Option Rat)) : Prop :=
  ∃ m t, IsHighest h m ∧ configured env values .shutdown = some t ∧ m ≠ truncated m ∧
    (truncated t = truncated m ∨ kernelTemp env = truncated m)

/-- The configured shutdown temperature is one that an `int` can hold. -/
def ShutdownInInt (env : ConfigEnv τ) (values : Json) : Prop :=
  ∀ t, configured env values .shutdown = some t → t < 2 ^ 31

def IsSensorEntry (doc : Option Json) (entry : Json) : Prop :=
  ∃ root sensors entries, doc = some root ∧ root.get "Sensors" = .ok sensors ∧
    sensors.elements = .ok entries ∧ entry ∈ entries

/-! ## Whole degrees -/

theorem truncated_eq_floor {q : Rat} (h : 0 ≤ q) : truncated q = ⌊q⌋ := by
  rw [truncated, Int.tdiv_eq_ediv_of_nonneg (Rat.num_nonneg.mpr h), Rat.floor_def']

theorem truncated_mono {p q : Rat} (hp : 0 ≤ p) (h : p ≤ q) : truncated p ≤ truncated q := by
  rw [truncated_eq_floor hp, truncated_eq_floor (hp.trans h)]
  exact Int.floor_mono h

theorem toInt_eq (env : ConfigEnv τ) {q : Rat} (h : 0 ≤ q) (hlt : q < 2 ^ 31) :
    toInt env q = truncated q := by
  have hnonneg : 0 ≤ ⌊q⌋ := Int.floor_nonneg.mpr h
  have hsmall : ⌊q⌋ < 2 ^ 31 := Int.floor_lt.mpr (by exact_mod_cast hlt)
  rw [toInt, truncated_eq_floor h, if_pos ⟨by omega, hsmall⟩]

variable {m : Rat} {values : Json} {h : ThrottlingArray (Option Rat)} {s : ThrottlingSeverity}

theorem le_intCast_iff (hm : 0 ≤ m) {v : Int} (h : truncated m ≤ v) :
    m ≤ v ↔ ¬ (m ≠ truncated m ∧ v = truncated m) := by
  rw [truncated_eq_floor hm] at *
  constructor
  · rintro hle ⟨hfraction, rfl⟩
    exact hfraction (le_antisymm hle (Int.floor_le m))
  · intro hnot
    rcases lt_or_eq_of_le h with hlt | rfl
    · exact (Int.lt_floor_add_one m).le.trans (by exact_mod_cast hlt)
    · by_contra hgt
      exact hnot ⟨fun heq => hgt heq.le, rfl⟩

theorem resetShutDownTemp_ge (env : ConfigEnv τ) {config min : Int} (h : min ≤ config) :
    min ≤ resetShutDownTemp env config min := by
  unfold resetShutDownTemp
  dsimp only
  split
  · exact h
  · split <;> omega

theorem resetShutDownTemp_eq_iff (env : ConfigEnv τ) {config min : Int} (h : min ≤ config) :
    resetShutDownTemp env config min = min ↔ config = min ∨ kernelTemp env = min := by
  unfold resetShutDownTemp kernelTemp
  dsimp only
  split
  · omega
  · split <;> omega

/-! ## The loop -/

theorem floatMin_pos : 0 < floatMin := by decide +kernel

theorem parseHotThreshold_cases {h' : ThrottlingArray (Option Rat)} {m' : Rat}
    (hp : parseHotThreshold env values (h, m) s = .ok (h', m')) :
    configured env values s = none ∧ h' = update h s none ∧ m' = m ∨
      ∃ t, configured env values s = some t ∧ m ≤ t ∧
        h' = update h s (some (hotThreshold env s t m)) ∧ m' = hotThreshold env s t m := by
  obtain ⟨value, hvalue, hp⟩ := bind_ok hp
  obtain ⟨x, hx, hp⟩ := bind_ok hp
  have hconf : configured env values s = x := by
    rw [configured, hvalue]
    simp [bind, Except.bind, hx]
  cases x with
  | none =>
    cases hp
    exact .inl ⟨hconf, rfl, rfl⟩
  | some t =>
    obtain ⟨_, hreq, hp⟩ := bind_ok hp
    cases hp
    exact .inr ⟨t, hconf, not_lt.mp (require_ok hreq), rfl, rfl⟩

/-- What the loop keeps: the least value that is still allowed is the highest threshold so far. -/
structure HotInv (h : ThrottlingArray (Option Rat)) (m : Rat) : Prop where
  rising : NonDecreasing h
  le : ∀ s a, h s = some a → a ≤ m
  last : (∃ s, h s = some m) ∨ m = floatMin ∧ ∀ s, h s = none
  pos : 0 ≤ m

theorem hotInv_start : HotInv (fun _ => none) floatMin where
  rising _ _ _ _ _ hsome := by cases hsome
  le _ _ hsome := by cases hsome
  last := .inr ⟨rfl, fun _ => rfl⟩
  pos := floatMin_pos.le

theorem update_absent (habove : ∀ u, h u ≠ none → u < s) : update h s none = h := by
  refine update_eq_self_iff.mpr ?_
  by_contra hne
  exact lt_irrefl s (habove s (Ne.symm hne))

theorem HotInv.update {t : Rat} (hi : HotInv h m) (habove : ∀ u, h u ≠ none → u < s) (ht : m ≤ t) :
    HotInv (update h s (some t)) t := by
  have hold : ∀ u a, Function.update h s (some t) u = some a →
      u = s ∧ a = t ∨ u < s ∧ h u = some a := by
    intro u a hu
    rcases eq_or_ne u s with rfl | hne
    · rw [update_self] at hu
      exact .inl ⟨rfl, (Option.some.inj hu).symm⟩
    · rw [update_of_ne hne] at hu
      exact .inr ⟨habove u (by simp [hu]), hu⟩
  refine ⟨fun u v a b huv ha hb => ?_, fun u a hu => ?_, .inl ⟨s, update_self _ _ _⟩,
    hi.pos.trans ht⟩
  · rcases hold u a ha with ⟨rfl, -⟩ | ⟨-, hu⟩
    · rcases hold v b hb with ⟨rfl, -⟩ | ⟨hv, -⟩
      · exact absurd huv (lt_irrefl _)
      · exact absurd huv hv.asymm
    · rcases hold v b hb with ⟨-, rfl⟩ | ⟨-, hv⟩
      · exact (hi.le u a hu).trans ht
      · exact hi.rising u v a b huv hu hv
  · rcases hold u a hu with ⟨-, rfl⟩ | ⟨-, hu⟩
    · exact le_rfl
    · exact (hi.le u a hu).trans ht

/-- The loop over severities below `SHUTDOWN`, in their order. -/
theorem HotInv.loop : ∀ {ss : List ThrottlingSeverity}
    {h h' : ThrottlingArray (Option Rat)} {m m' : Rat}, HotInv h m → ss.Pairwise (· < ·) →
    (∀ s ∈ ss, s < .shutdown ∧ ∀ u, h u ≠ none → u < s) → (∀ u, h u ≠ none → u < .shutdown) →
    ss.foldlM (parseHotThreshold env values) (h, m) = .ok (h', m') →
    HotInv h' m' ∧ ∀ u, h' u ≠ none → u < .shutdown
  | [], _, _, _, _, hi, _, _, hlow, hp => by
    cases hp
    exact ⟨hi, hlow⟩
  | s :: ss, h, h', m, m', hi, hsorted, hss, hlow, hp => by
    rw [foldlM_cons] at hp
    obtain ⟨⟨h₁, m₁⟩, hstep, hrest⟩ := bind_ok hp
    obtain ⟨hsmall, habove⟩ := hss s mem_cons_self
    obtain ⟨hfirst, hsorted⟩ := pairwise_cons.mp hsorted
    have hss' := fun u hu => hss u (mem_cons_of_mem s hu)
    rcases parseHotThreshold_cases hstep with ⟨-, rfl, rfl⟩ | ⟨t, -, ht, rfl, rfl⟩
    · rw [update_absent habove] at hrest
      exact hi.loop hsorted hss' hlow hrest
    · -- below `SHUTDOWN` the threshold is stored as it is
      have hplain : hotThreshold env s t m = t := if_neg hsmall.ne
      rw [hplain] at hrest
      have hnew : ∀ u, Function.update h s (some t) u ≠ none → u = s ∨ h u ≠ none := by
        intro u hu
        rcases eq_or_ne u s with rfl | hne
        · exact .inl rfl
        · rw [update_of_ne hne] at hu
          exact .inr hu
      refine (hi.update habove ht).loop hsorted (fun v hv => ⟨(hss' v hv).1, fun u hu => ?_⟩)
        (fun u hu => ?_) hrest
      · rcases hnew u hu with rfl | hu
        · exact hfirst v hv
        · exact (hss' v hv).2 u hu
      · rcases hnew u hu with rfl | hu
        · exact hsmall
        · exact hlow u hu

/-- The severities below `SHUTDOWN`. -/
def lowSeverities : List ThrottlingSeverity :=
  [.none, .light, .moderate, .severe, .critical, .emergency]

/-- What the loop has done before it comes to the shutdown temperature, and what it then does. -/
theorem parseHotThresholds_parts (hp : parseHotThresholds env values = .ok h) :
    ∃ h₀ m, HotInv h₀ m ∧ (∀ u, h₀ u ≠ none → u < .shutdown) ∧
      (configured env values .shutdown = none ∧ h = h₀ ∨
        ∃ t, configured env values .shutdown = some t ∧ m ≤ t ∧
          h = update h₀ .shutdown
            (some ((resetShutDownTemp env (toInt env t) (toInt env m) : Int) : Rat))) := by
  obtain ⟨_, -, hp⟩ := bind_ok hp
  have hall : ThrottlingSeverity.all = lowSeverities ++ [.shutdown] := rfl
  rw [hall, foldlM_append] at hp
  cases hrun : lowSeverities.foldlM _ (fun _ => none, floatMin) >>=
      fun r => [ThrottlingSeverity.shutdown].foldlM (parseHotThreshold env values) r with
  | error e =>
    rw [hrun] at hp
    cases hp
  | ok r =>
    rw [hrun] at hp
    obtain rfl : r.1 = h := Except.ok.inj hp
    obtain ⟨⟨h₀, m⟩, hlow, hlast⟩ := bind_ok hrun
    obtain ⟨hi, hsmall⟩ := hotInv_start.loop (by decide) (by
        intro s hs
        refine ⟨?_, fun u hu => absurd rfl hu⟩
        revert s
        decide)
      (fun u hu => absurd rfl hu) hlow
    refine ⟨h₀, m, hi, hsmall, ?_⟩
    obtain ⟨⟨h', m'⟩, hstep, hlast⟩ := bind_ok hlast
    cases hlast
    rcases parseHotThreshold_cases hstep with ⟨hconf, rfl, -⟩ | ⟨t, hconf, ht, rfl, -⟩
    · exact .inl ⟨hconf, update_absent hsmall⟩
    · exact .inr ⟨t, hconf, ht, rfl⟩

/-! ## What is stored -/

variable {h₀ : ThrottlingArray (Option Rat)}

theorem nonDecreasing_update_iff {v : Rat} (hi : HotInv h₀ m)
    (hsmall : ∀ u, h₀ u ≠ none → u < .shutdown) :
    NonDecreasing (update h₀ .shutdown (some v)) ↔ ∀ s a, h₀ s = some a → a ≤ v := by
  have hlow : ∀ s a, h₀ s = some a → s ≠ .shutdown := fun s a hs => (hsmall s (by simp [hs])).ne
  constructor
  · intro hmono s a hs
    refine hmono s .shutdown a v (hsmall s (by simp [hs])) ?_ (update_self _ _ _)
    rwa [update_of_ne (hlow s a hs)]
  · intro hall s u a b hsu ha hb
    have hs : s ≠ .shutdown := by
      rintro rfl
      revert hsu
      cases u <;> decide
    rw [update_of_ne hs] at ha
    rcases eq_or_ne u .shutdown with rfl | hu
    · cases hb
      exact hall s a ha
    · rw [update_of_ne hu] at hb
      exact hi.rising s u a b hsu ha hb

theorem isHighest_update_iff {m' : Rat} {x : Option Rat} (hi : HotInv h₀ m)
    (hsmall : ∀ u, h₀ u ≠ none → u < .shutdown) :
    IsHighest (update h₀ .shutdown x) m' ↔ m' = m ∧ ∃ s, h₀ s = some m := by
  have hsame : ∀ s < ThrottlingSeverity.shutdown, update h₀ .shutdown x s = h₀ s :=
    fun s hs => update_of_ne hs.ne _ _
  constructor
  · rintro ⟨⟨s, hs, hattained⟩, hle⟩
    rw [hsame s hs] at hattained
    rcases hi.last with ⟨u, hu⟩ | ⟨-, hnone⟩
    · have hus := hsmall u (by simp [hu])
      have hmm := hle u hus m ((hsame u hus).trans hu)
      exact ⟨le_antisymm (hi.le s m' hattained) hmm, u, hu⟩
    · rw [hnone s] at hattained
      cases hattained
  · rintro ⟨rfl, u, hu⟩
    have hus := hsmall u (by simp [hu])
    exact ⟨⟨u, hus, (hsame u hus).trans hu⟩, fun s hs a ha =>
      hi.le s a ((hsame s hs).symm.trans ha)⟩

theorem parseHotThresholds_nonDecreasing_iff (hp : parseHotThresholds env values = .ok h)
    (hint : ShutdownInInt env values) :
    NonDecreasing h ↔ ¬ SameDegree env values h := by
  obtain ⟨h₀, m, hi, hsmall, ⟨hconf, rfl⟩ | ⟨t, hconf, ht, rfl⟩⟩ := parseHotThresholds_parts hp
  · refine iff_of_true hi.rising ?_
    rintro ⟨_, t, -, hconf', -⟩
    rw [hconf] at hconf'
    cases hconf'
  · have hmin : truncated m ≤ truncated t := truncated_mono hi.pos ht
    have hlt := hint t hconf
    rw [toInt_eq env hi.pos (ht.trans_lt hlt), toInt_eq env (hi.pos.trans ht) hlt,
      nonDecreasing_update_iff hi hsmall]
    unfold SameDegree
    simp only [isHighest_update_iff hi hsmall, hconf, Option.some.injEq]
    rcases hi.last with hsome | ⟨-, hnone⟩
    · -- the new threshold has to reach the highest one, which it can miss by a fraction only
      have hreach : (∀ s a, h₀ s = some a →
          a ≤ ((resetShutDownTemp env (truncated t) (truncated m) : Int) : Rat)) ↔
          m ≤ ((resetShutDownTemp env (truncated t) (truncated m) : Int) : Rat) := by
        constructor
        · intro hall
          obtain ⟨s, hs⟩ := hsome
          exact hall s m hs
        · exact fun hle s a ha => (hi.le s a ha).trans hle
      rw [hreach, le_intCast_iff hi.pos (resetShutDownTemp_ge env hmin),
        resetShutDownTemp_eq_iff env hmin]
      refine not_congr ⟨?_, ?_⟩
      · rintro ⟨hfraction, hdegree⟩
        exact ⟨m, t, ⟨rfl, hsome⟩, rfl, hfraction, hdegree⟩
      · rintro ⟨_, _, ⟨rfl, -⟩, rfl, hfraction, hdegree⟩
        exact ⟨hfraction, hdegree⟩
    · refine iff_of_true (fun s a hs => ?_) ?_
      · rw [hnone s] at hs
        cases hs
      · rintro ⟨_, _, ⟨-, s, hs⟩, -⟩
        rw [hnone s] at hs
        cases hs

theorem parseSensor_parts {parsed parsed' : SensorInfoMap τ} {entry : Json}
    (hp : parseSensor env parsed entry = .ok parsed') :
    ∃ x values, parsed' = parsed ++ [x] ∧ entry.text env.realText "Name" = .ok x.1 ∧
      entry.get "HotThreshold" = .ok values ∧
      parseHotThresholds env values = .ok x.2.hotThresholds := by
  obtain ⟨name, hname, hp⟩ := bind_ok hp
  obtain ⟨_, -, hp⟩ := bind_ok hp
  obtain ⟨_, -, hp⟩ := bind_ok hp
  obtain ⟨_, -, hp⟩ := bind_ok hp
  obtain ⟨type, -, hp⟩ := bind_ok hp
  obtain ⟨values, hvalues, hp⟩ := bind_ok hp
  obtain ⟨hot, hhot, hp⟩ := bind_ok hp
  -- the other fields come after the thresholds
  iterate 11 obtain ⟨_, -, hp⟩ := bind_ok hp
  cases hp
  exact ⟨_, values, rfl, hname, hvalues, hhot⟩

theorem parseSensorInfo_hotThresholds {doc : Option Json} {sensors : SensorInfoMap τ}
    (hp : parseSensorInfo env doc = some sensors) :
    ∀ x ∈ sensors, ∃ entry values, IsSensorEntry doc entry ∧
      entry.text env.realText "Name" = .ok x.1 ∧ entry.get "HotThreshold" = .ok values ∧
      parseHotThresholds env values = .ok x.2.hotThresholds := by
  cases doc with
  | none =>
    cases hp
    simp
  | some root =>
    rcases cleared_eq_some hp with hparsed | rfl
    · obtain ⟨array, harray, hparsed⟩ := bind_ok hparsed
      obtain ⟨entries, hentries, hparsed⟩ := bind_ok hparsed
      refine foldlM_invariant (fun sensors : SensorInfoMap τ =>
        ∀ x ∈ sensors, ∃ entry values, IsSensorEntry _ entry ∧
          entry.text env.realText "Name" = .ok x.1 ∧ entry.get "HotThreshold" = .ok values ∧
          parseHotThresholds env values = .ok x.2.hotThresholds)
        entries hparsed (by simp) ?_
      intro parsed entry parsed' hentry hall hstep
      obtain ⟨x, values, rfl, hname, hvalues, hhot⟩ := parseSensor_parts hstep
      refine forall_mem_append.mpr ⟨hall, fun y hy => ?_⟩
      cases mem_singleton.mp hy
      exact ⟨entry, values, ⟨root, array, entries, rfl, harray, hentries, hentry⟩, hname,
        hvalues, hhot⟩
    · simp

theorem hotThresholds_nonDecreasing_iff {doc : Option Json} {sensors : SensorInfoMap τ}
    (hp : parseSensorInfo env doc = some sensors) {x : String × SensorInfo τ} (hx : x ∈ sensors) :
    ∃ entry values, IsSensorEntry doc entry ∧ entry.text env.realText "Name" = .ok x.1 ∧
      entry.get "HotThreshold" = .ok values ∧
      (ShutdownInInt env values →
        (NonDecreasing x.2.hotThresholds ↔ ¬ SameDegree env values x.2.hotThresholds)) := by
  obtain ⟨entry, values, hentry, hname, hvalues, hhot⟩ := parseSensorInfo_hotThresholds hp x hx
  exact ⟨entry, values, hentry, hname, hvalues, parseHotThresholds_nonDecreasing_iff hhot⟩

/-- One sensor with an emergency and a shutdown temperature. -/
def shutdownDoc (emergency shutdown : Rat) : Json :=
  .object [("Sensors", .array [.object [("Name", .string "cpu"), ("Type", .string "CPU"),
    ("HotThreshold", .array [.string "NAN", .string "NAN", .string "NAN", .string "NAN",
      .string "NAN", .real emergency, .real shutdown]),
    ("VrThreshold", .string "NAN"), ("Multiplier", .int 1)]])]

/-- The two temperatures as they are stored. -/
def storedShutdown (sensors : SensorInfoMap τ) : List (Option Rat × Option Rat) :=
  sensors.map fun x => (x.2.hotThresholds .emergency, x.2.hotThresholds .shutdown)

/-- The kernel shuts down at 98 degrees. -/
theorem hotThresholds_nonDecreasing_kernel :
    ∃ sensors, parseSensorInfo { exampleEnv with tripPoint := some 98000 }
        (some (shutdownDoc 95 105)) = some sensors ∧
      storedShutdown sensors = [(some 95, some 98)] ∧
      ∀ x ∈ sensors, NonDecreasing x.2.hotThresholds := by
  have hstored : (parseSensorInfo { exampleEnv with tripPoint := some 98000 }
      (some (shutdownDoc 95 105))).map storedShutdown = some [(some 95, some 98)] := by
    decide +kernel
  have hwhole : ∀ sensors ∈ parseSensorInfo { exampleEnv with tripPoint := some 98000 }
      (some (shutdownDoc 95 105)), ∀ x ∈ sensors, ∀ s ∈ ThrottlingSeverity.all,
        ∀ a ∈ x.2.hotThresholds s, a = truncated a := by
    decide +kernel
  obtain ⟨sensors, hp, hs⟩ := Option.map_eq_some_iff.mp hstored
  refine ⟨sensors, hp, hs, fun x hx => ?_⟩
  obtain ⟨entry, values, ⟨_, _, _, ⟨⟩, ⟨⟩, ⟨⟩, hentry⟩, -, hvalues, hiff⟩ :=
    hotThresholds_nonDecreasing_iff hp hx
  cases mem_singleton.mp hentry
  cases hvalues
  have hint : ∀ t ∈ configured { exampleEnv with tripPoint := some 98000 } (.array [.string "NAN",
      .string "NAN", .string "NAN", .string "NAN", .string "NAN", .real 95, .real 105]) .shutdown,
      t < 2 ^ 31 := by
    decide +kernel
  refine (hiff hint).mpr ?_
  rintro ⟨m, t, ⟨⟨s, -, hm⟩, -⟩, -, hfraction, -⟩
  exact hfraction (hwhole sensors hp x hx s s.mem_all m hm)

theorem shutdown_belowEmergency :
    ∃ sensors sensors',
      parseSensorInfo exampleEnv (some (shutdownDoc (191 / 2) (959 / 10))) = some sensors ∧
      parseSensorInfo { exampleEnv with tripPoint := some 95000 }
        (some (shutdownDoc (191 / 2) 110)) = some sensors' ∧
      storedShutdown sensors = [(some (191 / 2), some 95)] ∧
      storedShutdown sensors' = [(some (191 / 2), some 95)] ∧
      ∀ x ∈ sensors ++ sensors', ¬ NonDecreasing x.2.hotThresholds := by
  have hstored : (parseSensorInfo exampleEnv (some (shutdownDoc (191 / 2) (959 / 10)))).map
      storedShutdown = some [(some (191 / 2), some 95)] := by
    decide +kernel
  have hstored' : (parseSensorInfo { exampleEnv with tripPoint := some 95000 }
      (some (shutdownDoc (191 / 2) 110))).map storedShutdown =
        some [(some (191 / 2), some 95)] := by
    decide +kernel
  obtain ⟨sensors, hp, hs⟩ := Option.map_eq_some_iff.mp hstored
  obtain ⟨sensors', hp', hs'⟩ := Option.map_eq_some_iff.mp hstored'
  refine ⟨sensors, sensors', hp, hp', hs, hs', fun x hx hmono => ?_⟩
  have hx' : (x.2.hotThresholds .emergency, x.2.hotThresholds .shutdown) =
      (some (191 / 2 : Rat), some (95 : Rat)) := by
    rcases mem_append.mp hx with hx | hx
    · exact mem_singleton.mp (hs ▸ mem_map_of_mem hx)
    · exact mem_singleton.mp (hs' ▸ mem_map_of_mem hx)
  have hle := hmono .emergency .shutdown _ _ (by decide) (congrArg Prod.fst hx')
    (congrArg Prod.snd hx')
  revert hle
  decide +kernel

end AmlogicHal.Thermal
