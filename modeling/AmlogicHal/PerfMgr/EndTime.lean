import AmlogicHal.Lib.Traced
import AmlogicHal.PerfMgr.Config

/-!
# The arithmetic of end times

The duration of an action is an unsigned number of 64 bits in the document and a signed number of
milliseconds in the action. `Request` compares it with the time that is left on the clock before it
adds it, so that a long duration means for ever. One that does not fit into the signed number comes
out negative and passes the comparison; the request ends in the past or even outside the clock.

`duration_safe_iff` is the exact condition: the duration is below 2^63 and the clock is not
negative, or the duration is zero.
-/

namespace AmlogicHal.PerfMgr

open Traced

/-- The computation of `end_time`, from the duration in the document. Every value that has to fit
into a signed number of 64 bits is recorded, as the exact number. -/
def requestEndTime (duration : Nat) (now : Int) : Traced Int Unit Int := do
  let timeoutMs := millisecondsOf duration
  emit duration
  if timeoutMs ≠ 0 then do
    let left := timeMax - now
    emit left
    emit (durationMs left)
    if durationMs left > timeoutMs then do
      emit (timeoutMs * nsPerMs)
      emit (now + timeoutMs * nsPerMs)
      pure (now + timeoutMs * nsPerMs)
    else
      pure timeMax
  else
    pure timeMax

/-- A signed number of 64 bits. -/
def FitsInt64 (x : Int) : Prop := -2 ^ 63 ≤ x ∧ x < 2 ^ 63

theorem requestEndTime_val (duration : Nat) (now : Int) :
    ((requestEndTime duration now).run ()).val = endTime now (millisecondsOf duration) := by
  unfold requestEndTime endTime
  by_cases hzero : millisecondsOf duration = 0
  · simp [hzero]
  · by_cases hlong : durationMs (timeMax - now) > millisecondsOf duration <;> simp [hzero, hlong]

/-- Nothing overflows, and the request does not end before it begins. -/
structure SafeDuration (duration : Nat) (now : Int) : Prop where
  fits : (requestEndTime duration now).All FitsInt64 ()
  notPast : now ≤ ((requestEndTime duration now).run ()).val

variable {duration : Nat} {now : Int}

theorem millisecondsOf_eq (h : duration < 2 ^ 63) : millisecondsOf duration = duration := by
  unfold millisecondsOf
  rw [BitVec.toInt_eq_toNat_cond, BitVec.toNat_ofNat]
  omega

theorem durationMs_mul_le {ns : Int} (h : 0 ≤ ns) :
    0 ≤ durationMs ns ∧ durationMs ns * nsPerMs ≤ ns := by
  unfold durationMs nsPerMs
  rw [Int.tdiv_eq_ediv_of_nonneg h]
  omega

theorem safeDuration_of_lt (hd : duration < 2 ^ 63) (h0 : 0 ≤ now) (hnow : FitsInt64 now) :
    SafeDuration duration now := by
  have hfits : FitsInt64 duration := by
    unfold FitsInt64
    omega
  have hle : now ≤ timeMax := by
    exact Int.le_sub_one_of_lt hnow.2
  obtain ⟨hpos, hmul⟩ := durationMs_mul_le (sub_nonneg.mpr hle)
  have hms := millisecondsOf_eq hd
  refine ⟨?_, ?_⟩
  · unfold requestEndTime
    simp only [hms, all_bind, all_emit, all_ite, all_pure, run_emit]
    refine ⟨hfits, ?_⟩
    split
    · refine ⟨?_, ?_, ?_⟩
      · unfold FitsInt64 timeMax at *
        omega
      · unfold FitsInt64 timeMax nsPerMs at *
        omega
      · split
        · unfold FitsInt64 timeMax nsPerMs at *
          refine ⟨?_, ?_, trivial⟩ <;> omega
        · trivial
    · trivial
  · rw [requestEndTime_val, hms]
    exact (endTime_mem hle (Int.natCast_nonneg duration)).1

theorem safeDuration_zero (hnow : FitsInt64 now) : SafeDuration 0 now := by
  have hms : millisecondsOf 0 = 0 := millisecondsOf_eq (by decide)
  refine ⟨?_, ?_⟩
  · unfold requestEndTime
    simp only [hms, all_bind, all_emit, all_pure, ne_eq, not_true_eq_false, ite_false]
    exact ⟨by unfold FitsInt64; omega, trivial⟩
  · rw [requestEndTime_val, hms]
    unfold endTime timeMax
    exact Int.le_sub_one_of_lt hnow.2

theorem SafeDuration.cond (h : SafeDuration duration now) :
    duration = 0 ∨ duration < 2 ^ 63 ∧ 0 ≤ now := by
  have hfits := h.fits
  unfold requestEndTime at hfits
  simp only [all_bind, all_emit, all_ite, run_emit] at hfits
  obtain ⟨hd, hrest⟩ := hfits
  have hlt : duration < 2 ^ 63 := by exact_mod_cast hd.2
  rcases Nat.eq_zero_or_pos duration with hzero | hpos
  · exact .inl hzero
  · have hne : millisecondsOf duration ≠ 0 := by
      rw [millisecondsOf_eq hlt]
      omega
    rw [if_pos hne] at hrest
    -- the time that is left on the clock
    have hleft := hrest.1.2
    unfold timeMax at hleft
    exact .inr ⟨hlt, by omega⟩

theorem duration_safe_iff {realText : Rat → String} {doc : Option Json} {m : HintManager}
    (h : getFromJson realText doc = some m) {hint : String} {actions : List NodeAction}
    (hactions : m.actions hint = some actions) {a : NodeAction} (ha : a ∈ actions) :
    ∃ duration < 2 ^ 64, a.timeoutMs = millisecondsOf duration ∧ ∀ now, FitsInt64 now →
      ((requestEndTime duration now).run ()).val = endTime now a.timeoutMs ∧
        (SafeDuration duration now ↔ duration = 0 ∨ duration < 2 ^ 63 ∧ 0 ≤ now) := by
  obtain ⟨root, nodes, parsed, -, hparsed, rfl⟩ := getFromJson_parts h
  have hall := parseActions_invariant hparsed
    (I := fun as => ∀ a ∈ as, ∃ duration < 2 ^ 64, a.timeoutMs = millisecondsOf duration) (by simp)
    (by
      intro as b duration has _ hlt htime _ c hc
      rcases List.mem_append.mp hc with hc | hc
      · exact has c hc
      · exact ⟨duration, hlt, List.mem_singleton.mp hc ▸ htime⟩)
  obtain ⟨duration, hlt, htime⟩ := hall hint actions hactions a ha
  refine ⟨duration, hlt, htime, fun now hnow => ⟨?_, SafeDuration.cond, ?_⟩⟩
  · rw [requestEndTime_val, htime]
  · rintro (rfl | ⟨hd, h0⟩)
    · exact safeDuration_zero hnow
    · exact safeDuration_of_lt hd h0 hnow

/-- A document with one node, one value and one hint of some duration. -/
def durationDoc (duration : Int) : Json :=
  .object [
    ("Nodes", .array [.object [("Name", .string "cpu"), ("Path", .string "/cpu"),
      ("Values", .array [.string "high"])]]),
    ("Actions", .array [.object [("PowerHint", .string "LAUNCH"), ("Node", .string "cpu"),
      ("Value", .string "high"), ("Duration", .int duration)]])]

/-- A second, on a clock that has run for five. -/
theorem duration_safe_second :
    ∃ m, getFromJson (fun _ => "") (some (durationDoc 1000)) = some m ∧
      m.actions "LAUNCH" = some [⟨0, 0, 1000⟩] ∧ SafeDuration 1000 5000000000 := by
  have haccepted : (getFromJson (fun _ => "") (some (durationDoc 1000))).bind (·.actions "LAUNCH") =
      some [⟨0, 0, 1000⟩] := by decide +kernel
  obtain ⟨m, hm, hact⟩ := Option.bind_eq_some_iff.mp haccepted
  obtain ⟨duration, hlt, htime, hsafe⟩ := duration_safe_iff hm hact List.mem_cons_self
  obtain rfl : duration = 1000 := by
    unfold millisecondsOf at htime
    rw [BitVec.toInt_eq_toNat_cond, BitVec.toNat_ofNat] at htime
    dsimp only at htime
    omega
  have hnow : FitsInt64 5000000000 := by
    unfold FitsInt64
    omega
  exact ⟨m, hm, hact, (hsafe 5000000000 hnow).2.mpr (.inr (by omega))⟩

/-- The longest duration that the parser accepts becomes minus one millisecond: the request has
ended before it begins. -/
theorem longestDuration_past :
    ∃ m, getFromJson (fun _ => "") (some (durationDoc (2 ^ 64 - 1))) = some m ∧
      m.actions "LAUNCH" = some [⟨0, 0, -1⟩] ∧
      ((requestEndTime (2 ^ 64 - 1) 5000000000).run ()).val = 4999000000 ∧
      ¬ SafeDuration (2 ^ 64 - 1) 5000000000 := by
  have haccepted : (getFromJson (fun _ => "") (some (durationDoc (2 ^ 64 - 1)))).bind
      (·.actions "LAUNCH") = some [⟨0, 0, -1⟩] := by decide +kernel
  obtain ⟨m, hm, hact⟩ := Option.bind_eq_some_iff.mp haccepted
  have hval : ((requestEndTime (2 ^ 64 - 1) 5000000000).run ()).val = 4999000000 := by
    decide +kernel
  refine ⟨m, hm, hact, hval, fun hsafe => ?_⟩
  have hpast := hsafe.notPast
  omega

end AmlogicHal.PerfMgr
