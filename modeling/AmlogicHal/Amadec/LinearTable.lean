import AmlogicHal.Amadec.Interpolation
import AmlogicHal.Amadec.Resample

/-!
# The table of the linear interpolation

`af_resample_linear_coef_get` adds up a step with 14 binary places and carries the fraction over;
`af_resample_process_linear_inner` then takes each sample between two neighbours of the block.

`linearCoefGet_interpolates`: the entries are the multiples of the step, the positions lie in the
block, and no number on the way leaves its type.
-/

namespace AmlogicHal.Amadec

/-- `step_i`. -/
def linearStep (sampNumIn sampNumOut : Nat) : Nat := (sampNumIn - 1) * 16384 / (sampNumOut - 1)

theorem getElem_coefSteps (step : Nat) {k i : Nat} (hi : i < k) (forward pos : Nat) :
    (coefSteps step k forward pos)[i]? =
      some (pos + (forward + (i + 1) * step) / 16384, (forward + (i + 1) * step) % 16384) := by
  induction k generalizing i forward pos with
  | zero => exact absurd hi (Nat.not_lt_zero i)
  | succ k ih =>
    unfold coefSteps
    cases i with
    | zero => simp
    | succ i =>
      have hsum : forward + (i + 1 + 1) * step = forward + step + (i + 1) * step := by
        rw [Nat.add_mul (i + 1) 1]
        omega
      rw [List.getElem?_cons_succ, ih (Nat.lt_of_succ_lt_succ hi), hsum]
      congr 2 <;> omega

theorem length_coefSteps (step k forward pos : Nat) :
    (coefSteps step k forward pos).length = k := by
  induction k generalizing forward pos with
  | zero => rfl
  | succ k ih => simp [coefSteps, ih]

variable {m n : Nat}

theorem getElem_linearCoefGet (hne : m ≠ n) {i : Nat} (hi : i < n - 1) :
    (linearCoefGet m n)[i]? = some (i * linearStep m n / 16384, i * linearStep m n % 16384) := by
  unfold linearCoefGet
  rw [if_neg hne]
  cases i with
  | zero => simp
  | succ i =>
    rw [List.cons_append, List.getElem?_cons_succ,
      List.getElem?_append_left (by rw [length_coefSteps]; omega), getElem_coefSteps _ (by omega)]
    simp [linearStep]

theorem linearStep_lt (hm : 2 ≤ m) {i : Nat} (hi : i < n - 1) :
    i * linearStep m n < (m - 1) * 16384 := by
  have hstep : linearStep m n * (n - 1) ≤ (m - 1) * 16384 := Nat.div_mul_le_self _ _
  rcases Nat.eq_zero_or_pos (linearStep m n) with hzero | hpos
  · rw [hzero]
    omega
  · calc i * linearStep m n < (n - 1) * linearStep m n := Nat.mul_lt_mul_of_pos_right hi hpos
      _ ≤ (m - 1) * 16384 := by rwa [Nat.mul_comm]

theorem fraction_between {c : Nat} (hc : c < 16384) (a b : Int) :
    min a b ≤ a + c * (b - a) / 16384 ∧ a + c * (b - a) / 16384 ≤ max a b := by
  rcases Int.le_total a b with h | h
  · have hlow : 0 ≤ (c : Int) * (b - a) := Int.mul_nonneg (by omega) (by omega)
    have hhigh : (c : Int) * (b - a) ≤ 16384 * (b - a) :=
      Int.mul_le_mul_of_nonneg_right (by omega) (by omega)
    omega
  · have hlow : 16384 * (b - a) ≤ (c : Int) * (b - a) :=
      Int.mul_le_mul_of_nonpos_right (by omega) (by omega)
    have hhigh : (c : Int) * (b - a) ≤ 0 := Int.mul_nonpos_of_nonneg_of_nonpos (by omega) (by omega)
    omega

/-- `y` is taken between the shorts `a` and `b`: the product fits an `int`, and the sum needs no
cut. -/
structure Interpolated (a b : Int) (coef : Nat) (y : Int) : Prop where
  product : IsInt32 (coef * (b - a))
  sum : y = a + coef * (b - a) / 16384
  between : min a b ≤ y ∧ y ≤ max a b

theorem interpolated {a b : Int} {c : Nat} (ha : IsShort a) (hb : IsShort b) (hc : c < 16384) :
    Interpolated a b c ((a + c * (b - a) / 16384).bmod 65536) := by
  have hbetween := fraction_between hc a b
  unfold IsShort at ha hb
  have hcut : (a + c * (b - a) / 16384).bmod 65536 = a + c * (b - a) / 16384 :=
    Int.bmod_eq_of_le (by omega) (by omega)
  rw [hcut]
  exact ⟨by unfold IsInt32; omega, rfl, hbetween⟩

/-- There are `n` entries; the arrays of the program hold 129. -/
theorem linearCoefGet_interpolates (hm : 2 ≤ m) (hmax : m ≤ 129) (hn : 2 ≤ n) (hne : m ≠ n) :
    (linearCoefGet m n).length = n ∧ (∀ i, 1 ≤ i → i ≤ n - 2 → (linearCoefGet m n)[i]? =
      some (i * linearStep m n / 16384, i * linearStep m n % 16384)) ∧
    (m - 1) * 16384 < 2 ^ 31 ∧ (∀ i, i * linearStep m n % 16384 + linearStep m n < 2 ^ 31) ∧
    ∀ i < n - 1, ∃ pos coef, (linearCoefGet m n)[i]? = some (pos, coef) ∧ pos + 1 ≤ m - 1 ∧
      ∀ (s : Resampler) (buf : List Int), s.sampNumOut = n → s.interpolate = linearCoefGet m n →
        (∀ x ∈ buf, IsShort x) → ∃ y, (s.interpolateChannel buf)[i]? = some y ∧
          Interpolated (buf.getD pos 0) (buf.getD (pos + 1) 0) coef y := by
  have hstep : linearStep m n ≤ (m - 1) * 16384 := Nat.div_le_self _ _
  have hlength : (linearCoefGet m n).length = n := by
    simp [linearCoefGet, hne, length_coefSteps]
    omega
  refine ⟨hlength, fun i _ hi => getElem_linearCoefGet hne (by omega), by omega, fun i => by omega,
    fun i hi => ?_⟩
  have hentry := getElem_linearCoefGet hne hi
  have hlt := linearStep_lt hm hi
  refine ⟨_, _, hentry, by omega, fun s buf hout htable hbuf => ⟨_, ?_,
    interpolated (isShort_getD hbuf _) (isShort_getD hbuf _) (Nat.mod_lt _ (by decide))⟩⟩
  have htake := (List.getElem?_take_of_lt (l := s.interpolate) (hout ▸ hi)).trans (htable ▸ hentry)
  rw [Resampler.interpolateChannel, List.getElem?_append_left, List.getElem?_map, htake]
  · rfl
  · rw [List.length_map]
    exact (List.getElem?_eq_some_iff.mp htake).1

/-- Blocks of 129 samples give blocks of 128. -/
theorem linearCoefGet_interpolates_down : (linearCoefGet 129 128)[1]? = some (1, 129) :=
  (linearCoefGet_interpolates (by decide) (by decide) (by decide) (by decide)).2.1 1 (by decide)
    (by decide)

end AmlogicHal.Amadec
