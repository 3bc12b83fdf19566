import Mathlib.Data.BitVec

/-!
# Bit fields of a packed record

A packed record is one bit vector, least significant bit first, and a field is the bits
`off .. off + w - 1`. `getField` reads a field and `setField` writes it; `getField_setField_same`
and `getField_setField_disjoint` are all that a proof about a record needs.
-/

namespace AmlogicHal

open BitVec

namespace BitField

variable {n w v : Nat}

def getField (off w : Nat) (x : BitVec n) : BitVec w := x.extractLsb' off w

def setField (off : Nat) (f : BitVec w) (x : BitVec n) : BitVec n :=
  (x &&& ~~~((BitVec.allOnes w).setWidth n <<< off)) ||| (f.setWidth n <<< off)

theorem getLsbD_setField (off : Nat) (f : BitVec w) (x : BitVec n) (i : Nat) :
    (setField off f x).getLsbD i =
      if off ≤ i ∧ i < off + w ∧ i < n then f.getLsbD (i - off) else x.getLsbD i := by
  unfold setField
  by_cases hn : i < n
  · by_cases hlo : off ≤ i
    · by_cases hhi : i < off + w
      · have hsub : i - off < w := by omega
        simp [hn, hhi, hsub, Nat.not_lt.mpr hlo]
      · have hsub : ¬ i - off < w := by omega
        simp [hn, hhi, hsub, getLsbD_of_ge f (i - off) (by omega)]
    · simp [hn, Nat.lt_of_not_le hlo]
  · simp [hn, getLsbD_of_ge x i (by omega)]

theorem getField_setField_same (off : Nat) (f : BitVec w) (x : BitVec n) (hfit : off + w ≤ n) :
    getField off w (setField off f x) = f := by
  apply eq_of_getLsbD_eq
  intro i hi
  have hin : off ≤ off + i ∧ off + i < off + w ∧ off + i < n := by omega
  simp only [getField, getLsbD_extractLsb', hi, decide_true, Bool.true_and,
    getLsbD_setField, if_pos hin, Nat.add_sub_cancel_left]

theorem getField_setField_disjoint (off off' : Nat) (f : BitVec w) (x : BitVec n)
    (hdisj : off' + v ≤ off ∨ off + w ≤ off') :
    getField off' v (setField off f x) = getField off' v x := by
  apply eq_of_getLsbD_eq
  intro i hi
  have hout : ¬ (off ≤ off' + i ∧ off' + i < off + w ∧ off' + i < n) := by omega
  simp [getField, getLsbD_setField, hout]

theorem getField_setField_within (off off' : Nat) (f : BitVec v) (x : BitVec n)
    (hin : off + w ≤ n) :
    getField off w (setField (off + off') f x) = setField off' f (getField off w x) := by
  apply eq_of_getLsbD_eq
  intro i hi
  have hiff : (off + off' ≤ off + i ∧ off + i < off + off' + v ∧ off + i < n) ↔
      (off' ≤ i ∧ i < off' + v ∧ i < w) := by omega
  have hsub : off + i - (off + off') = i - off' := by omega
  simp only [getField, getLsbD_extractLsb', hi, decide_true, Bool.true_and, getLsbD_setField,
    hiff, hsub]

end BitField

end AmlogicHal
