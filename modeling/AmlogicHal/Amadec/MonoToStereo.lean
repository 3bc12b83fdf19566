import Mathlib.Data.List.Basic

/-!
# Mono to stereo in place

`ad_audio_decode_loop` doubles the samples of a mono decoder inside the buffer they stand in, from
the last one to the first.

`expandMono_stereo`: every sample stands at both places of its frame.
-/

namespace AmlogicHal.Amadec

/-- A turn of the loop over the samples. -/
def expandTurn (samplesNum : Nat) (buf : List (BitVec 16)) (i : Nat) : List (BitVec 16) :=
  let samples := buf.getD (samplesNum - i - 1) 0
  (buf.set (2 * (samplesNum - i) - 1) samples).set (2 * (samplesNum - i) - 2) samples

/-- What the loop does with the `outlen` bytes in `outbuf`, and the new `outlen`. -/
def expandMono (infoChannels channels outlen : Nat) (buf : List (BitVec 16)) :
    List (BitVec 16) × Nat :=
  if infoChannels = 1 ∧ channels = 2 then
    ((List.range (outlen / 2)).foldl (expandTurn (outlen / 2)) buf, outlen * 2)
  else (buf, outlen)

/-- The samples from `m` on are at their places, and those below have not been touched. -/
structure Expanded (n m : Nat) (orig buf : List (BitVec 16)) : Prop where
  length : buf.length = orig.length
  untouched : ∀ k < m, buf[k]? = orig[k]?
  done : ∀ k < n, m ≤ k → buf[2 * k]? = orig[k]? ∧ buf[2 * k + 1]? = orig[k]?

variable {n : Nat} {orig : List (BitVec 16)}

theorem Expanded.turn {i : Nat} {buf : List (BitVec 16)} (hfit : 2 * n ≤ orig.length) (hi : i < n)
    (h : Expanded n (n - i) orig buf) : Expanded n (n - (i + 1)) orig (expandTurn n buf i) := by
  have hlen := h.length
  obtain ⟨m, hm⟩ : ∃ m, n - i = m + 1 := ⟨n - i - 1, by omega⟩
  have hsample : orig[m]? = some (buf.getD m 0) := by
    rw [← h.untouched m (by omega)]
    grind
  have hbuf : expandTurn n buf i =
      (buf.set (2 * m + 1) (buf.getD m 0)).set (2 * m) (buf.getD m 0) := by
    simp [expandTurn, hm, Nat.mul_add]
  have hrest : n - (i + 1) = m := by omega
  rw [hbuf, hrest]
  refine ⟨by simp [hlen], fun k hk => ?_, fun k hk hle => ?_⟩
  · rw [← h.untouched k (by omega), List.getElem?_set_ne (by omega),
      List.getElem?_set_ne (by omega)]
  · rcases Nat.lt_or_eq_of_le hle with hlt | rfl
    · obtain ⟨heven, hodd⟩ := h.done k hk (by omega)
      rw [← heven]
      grind
    · grind

theorem expandMono_stereo (hfit : 2 * n ≤ orig.length) :
    (expandMono 1 2 (2 * n) orig).2 = 2 * (2 * n) ∧
      ∀ k < n, (expandMono 1 2 (2 * n) orig).1[2 * k]? = orig[k]? ∧
        (expandMono 1 2 (2 * n) orig).1[2 * k + 1]? = orig[k]? := by
  have hturns : ∀ i ≤ n, Expanded n (n - i) orig ((List.range i).foldl (expandTurn n) orig) := by
    intro i hi
    induction i with
    | zero => exact ⟨rfl, fun _ _ => rfl, fun k hk hle => absurd hk (Nat.not_lt.mpr hle)⟩
    | succ i ih =>
      rw [List.range_succ, List.foldl_concat]
      exact (ih (by omega)).turn hfit hi
  unfold expandMono
  rw [if_pos ⟨rfl, rfl⟩, Nat.mul_div_cancel_left n (by decide)]
  exact ⟨Nat.mul_comm _ _, fun k hk => (hturns n (Nat.le_refl n)).done k hk (by omega)⟩

theorem expandMono_stereo_three :
    (expandMono 1 2 (2 * 3) [1, 2, 3, 0, 0, 0, 0]).1[4]? = some 3 :=
  ((expandMono_stereo (n := 3) (by decide)).2 2 (by decide)).1

end AmlogicHal.Amadec
