import Mathlib.Data.Nat.Notation

/-!
# Shift registers with feedback

A register takes one bit at a time: the bit is added to the lowest one, the register moves down, and
if the sum was one, the feedback polynomial is added. If the polynomial has its highest bit, a step
can be undone, and as many bits as the register is wide are told apart by what they leave in it
(`agree_of_run_eq`).
-/

namespace AmlogicHal.ShiftRegister

open BitVec List

variable {w : Nat} (poly : BitVec w)

def shift (s : BitVec w) (bit : Bool) : BitVec w :=
  if (s.getLsbD 0 ^^ bit) = true then (s >>> 1) ^^^ poly else s >>> 1

def run (s : BitVec w) (bits : List Bool) : BitVec w := bits.foldl (shift poly) s

theorem getLsbD_shift (s : BitVec w) (bit : Bool) (i : Nat) :
    (shift poly s bit).getLsbD i =
      (s.getLsbD (i + 1) ^^ ((s.getLsbD 0 ^^ bit) && poly.getLsbD i)) := by
  unfold shift
  split
  · next h => simp [h, Nat.add_comm]
  · next h => simp [h, Nat.add_comm]

/-- What does not reach the lowest bit moves down beside the rest. -/
theorem run_xor (x y : BitVec w) (bits : List Bool) (hx : ∀ i < bits.length, x.getLsbD i = false) :
    run poly (x ^^^ y) bits = (x >>> bits.length) ^^^ run poly y bits := by
  induction bits generalizing x y with
  | nil => simp [run]
  | cons bit bits ih =>
    have hshift : shift poly (x ^^^ y) bit = (x >>> 1) ^^^ shift poly y bit := by
      apply eq_of_getLsbD_eq
      intro i _
      simp [getLsbD_shift, hx 0 (Nat.zero_lt_succ _), Nat.add_comm 1]
    have hrest := ih (x >>> 1) (shift poly y bit) fun i hi => by
      simpa [Nat.add_comm 1] using hx (i + 1) (Nat.succ_lt_succ hi)
    rw [← shiftRight_add, Nat.add_comm 1] at hrest
    exact (congrArg (run poly · bits) hshift).trans hrest

/-- The bits can be added to the register all at once. -/
theorem run_bits (s v : BitVec w) (k : Nat) (hv : ∀ i ≥ k, v.getLsbD i = false) :
    run poly s ((range k).map v.getLsbD) = run poly (s ^^^ v) (replicate k false) := by
  induction k generalizing s v with
  | zero =>
    have hzero : v = 0#w := eq_of_getLsbD_eq fun i _ => by simp [hv i (Nat.zero_le i)]
    simp [hzero]
  | succ k ih =>
    have hshift : shift poly s (v.getLsbD 0) ^^^ (v >>> 1) = shift poly (s ^^^ v) false := by
      apply eq_of_getLsbD_eq
      intro i _
      simp [getLsbD_shift, Nat.add_comm 1, Bool.xor_comm (v.getLsbD (i + 1))]
    have hrest := ih (shift poly s (v.getLsbD 0)) (v >>> 1) fun i hi => by
      simpa [Nat.add_comm 1] using hv (i + 1) (Nat.succ_le_succ hi)
    rw [hshift] at hrest
    have htail : v.getLsbD ∘ Nat.succ = (v >>> 1).getLsbD := by
      funext i
      simp [Nat.add_comm 1]
    rw [range_succ_eq_map, map_cons, map_map, htail]
    exact hrest

variable {poly} (hpoly : poly.getLsbD (w - 1) = true) {s t : BitVec w} {bit bit' : Bool}
include hpoly

/-- Going back over a step: the highest bit tells what was shifted out, and the other bits move
up. -/
theorem agree_of_shift {n : Nat} (hn : n < w)
    (h : ∀ i ≥ n, (shift poly s bit).getLsbD i = (shift poly t bit').getLsbD i) :
    (s.getLsbD 0 ^^ bit) = (t.getLsbD 0 ^^ bit') ∧
    ∀ i ≥ n, s.getLsbD (i + 1) = t.getLsbD (i + 1) := by
  simp only [getLsbD_shift] at h
  have hout : (s.getLsbD 0 ^^ bit) = (t.getLsbD 0 ^^ bit') := by
    have hend : w ≤ w - 1 + 1 := by omega
    simpa [hpoly, getLsbD_of_ge s _ hend, getLsbD_of_ge t _ hend] using h (w - 1)
      (Nat.le_sub_one_of_lt hn)
  refine ⟨hout, fun i hi => ?_⟩
  simpa [hout] using h i hi

theorem shift_injective (h : shift poly s bit = shift poly t bit) : s = t := by
  have hw : 0 < w := Nat.pos_of_ne_zero fun hzero => by
    rw [getLsbD_of_ge poly (w - 1) (by omega)] at hpoly
    cases hpoly
  obtain ⟨hout, hagree⟩ := agree_of_shift hpoly hw fun i _ => congrArg (BitVec.getLsbD · i) h
  apply eq_of_getLsbD_eq
  intro i _
  cases i with
  | zero => simpa using hout
  | succ i => exact hagree i (Nat.zero_le i)

theorem run_injective {bits : List Bool} (h : run poly s bits = run poly t bits) : s = t := by
  induction bits generalizing s t with
  | nil => exact h
  | cons bit bits ih => exact shift_injective hpoly (ih h)

/-- Back from equal registers, every step leaves one more of the low bits open. -/
theorem agree_of_run_eq {bits bits' : List Bool} (hlen : bits.length = bits'.length)
    (hw : bits.length ≤ w) (h : run poly s bits = run poly t bits') :
    (∀ i ≥ bits.length, s.getLsbD i = t.getLsbD i) ∧ (s = t → bits = bits') := by
  induction bits generalizing s t bits' with
  | nil =>
    obtain rfl := length_eq_zero_iff.mp hlen.symm
    exact ⟨fun i _ => congrArg (BitVec.getLsbD · i) h, fun _ => rfl⟩
  | cons bit bits ih =>
    obtain ⟨bit', bits', rfl⟩ := exists_cons_of_length_eq_add_one hlen.symm
    obtain ⟨hrest, hbits⟩ := ih (Nat.succ.inj hlen) (Nat.le_of_succ_le hw) h
    obtain ⟨hout, hagree⟩ := agree_of_shift hpoly hw hrest
    refine ⟨fun i hi => ?_, fun hst => ?_⟩
    · obtain ⟨i, rfl⟩ := Nat.exists_eq_add_one.mpr (Nat.zero_lt_of_lt hi)
      exact hagree i (Nat.le_of_succ_le_succ hi)
    · subst hst
      obtain rfl : bit = bit' := by simpa using hout
      rw [hbits rfl]

end AmlogicHal.ShiftRegister
