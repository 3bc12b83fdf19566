import AmlogicHal.Amadec.Resample
import Mathlib.Algebra.Order.Ring.Rat
import Mathlib.Tactic.Ring

/-!
# The sizes of the second resampler

`af_resample_api` turns blocks of 128 frames into blocks of `128 - delta` frames by interpolation.
It asks for less than the caller wants if the blocks get longer, copies what does not fill a block,
and reads once more if there is room left. The model has the sizes only: how much is asked for,
which bytes of the caller's buffer are written, and what is returned in `*size`.

`afResampleApi_within`: neither the writes nor the result go beyond what the caller asked for. The
loop over the blocks keeps `128 * numCh * k + (128 - delta) * sample_read`, where `k` counts the
frames written and `sample_read` the samples left.
-/

namespace AmlogicHal.Amadec

open List

/-! ## The model -/

/-- What `dsp_read` returns: at most as many bytes as it is asked for, or zero, or an error. -/
def dspReadBytes (asked : Nat) (answer : Int) : Int := min answer asked

/-- `dsp_pcm_read` before the division: the number of bytes that are read, and the answers that are
left. -/
def dspPcmReadBytes (len : Nat) : Nat → List Int → Nat × List Int
  | cnt, [] => (cnt, [])
  | cnt, answer :: answers =>
    if cnt < len then
      if dspReadBytes (len - cnt) answer ≤ 0 then (cnt, answers)
      else dspPcmReadBytes len (cnt + (dspReadBytes (len - cnt) answer).toNat) answers
    else (cnt, answer :: answers)

/-- The loop over the blocks: the frames that were written, the samples that are left, and the
ranges of the caller's buffer that were written, each with its start and its length in bytes. -/
structure ApiBlocks where
  k : Nat
  sampleRead : Nat
  writes : List (Nat × Nat)

def apiBlocks (numCh : Nat) (delta : Int) (sampleRead k : Nat) : ApiBlocks :=
  if (numCh = 1 ∨ numCh = 2) ∧ defaultNumsampsPerch * numCh ≤ sampleRead then
    let frames := (defaultNumsampsPerch - delta).toNat
    let r := apiBlocks numCh delta (sampleRead - defaultNumsampsPerch * numCh) (k + frames)
    { r with writes := (2 * (k * numCh), 2 * (frames * numCh)) :: r.writes }
  else ⟨k, sampleRead, []⟩
termination_by sampleRead
decreasing_by
  next h =>
    unfold defaultNumsampsPerch at h ⊢
    omega

/-- `*size` at the end, the ranges of the caller's buffer that were written, and how many bytes were
asked for, each time, to be read into `date_temp`. -/
structure ApiResult where
  size : Nat
  writes : List (Nat × Nat)
  asked : List Nat

/-- `*size` before the first read, an `unsigned int`. -/
def scaledSize (numCh size : Nat) (delta : Int) : Nat :=
  if delta < 0 then
    (size * defaultNumsampsPerch % 2 ^ 32 / (defaultNumsampsPerch - delta).toNat) &&&
      (2 ^ 32 - 2 * numCh)
  else size

def copyRest (numCh : Nat) (r : ApiBlocks) : ApiBlocks :=
  if r.sampleRead > 0 then
    { r with
      k := r.k + r.sampleRead / numCh
      writes := r.writes ++ [(2 * (r.k * numCh), 2 * r.sampleRead)] }
  else r

def readMore (numCh size : Nat) (answers : List Int) (r : ApiBlocks) : ApiBlocks :=
  if 2 * (r.k * numCh) < size then
    copyRest numCh { r with
      sampleRead := (dspPcmReadBytes (size - 2 * (r.k * numCh)) 0 answers).1 / 2 }
  else r

/-- `af_resample_api`. With more than two channels it stops at the first block and leaves
`*size`. -/
def afResampleApi (numCh size : Nat) (enable : Bool) (delta : Int) (answers : List Int) :
    ApiResult :=
  if enable ∧ delta ≠ 0 ∧ defaultNumsampsPerch * 2 * numCh ≤ size then
    let size := scaledSize numCh size delta
    let got := dspPcmReadBytes size 0 answers
    if ¬ (numCh = 1 ∨ numCh = 2) ∧ defaultNumsampsPerch * numCh ≤ got.1 / 2 then ⟨size, [], [size]⟩
    else
      let first := copyRest numCh (apiBlocks numCh delta (got.1 / 2) 0)
      let last := readMore numCh size got.2 first
      let again := if 2 * (first.k * numCh) < size then [size - 2 * (first.k * numCh)] else []
      ⟨2 * (last.k * numCh), last.writes, size :: again⟩
  else
    let got := dspPcmReadBytes size 0 answers
    ⟨2 * (got.1 / 2), [(0, 2 * (got.1 / 2))], [size]⟩

/-! ## Reading -/

theorem dspPcmReadBytes_le (len : Nat) : ∀ (answers : List Int) (cnt : Nat), cnt ≤ len →
    (dspPcmReadBytes len cnt answers).1 ≤ len
  | [], _, h => h
  | answer :: answers, cnt, h => by
    unfold dspPcmReadBytes
    split
    · next hlt =>
      split
      · exact h
      · have hanswer : dspReadBytes (len - cnt) answer ≤ (len - cnt : Nat) := Int.min_le_right _ _
        exact dspPcmReadBytes_le len answers _ (by omega)
    · exact h

theorem dspPcmRead_samples_le (len : Nat) (answers : List Int) :
    2 * ((dspPcmReadBytes len 0 answers).1 / 2) ≤ len :=
  (Nat.mul_div_le _ 2).trans (dspPcmReadBytes_le len answers 0 (Nat.zero_le len))

/-! ## The blocks -/

/-- Nothing is written behind the first `size` bytes, and behind the frames that were counted less
than a frame. -/
structure ApiBlocks.Within (numCh size : Nat) (r : ApiBlocks) : Prop where
  writes : ∀ w ∈ r.writes, w.1 + w.2 ≤ size ∧ w.1 + w.2 < 2 * (r.k * numCh) + 2 * numCh
  frames : 2 * (r.k * numCh) ≤ size

section Blocks

variable {numCh size : Nat} {delta : Int}

/-- What the loop over the blocks makes of `sampleRead` samples, behind `k` frames: a block takes
128 frames from the samples that are left and adds `128 - delta` frames to those that are
written. -/
structure ApiBlocks.Follows (numCh : Nat) (delta : Int) (sampleRead k : Nat) (r : ApiBlocks) :
    Prop where
  balance : defaultNumsampsPerch * numCh * r.k +
    (defaultNumsampsPerch - delta).toNat * r.sampleRead =
    defaultNumsampsPerch * numCh * k + (defaultNumsampsPerch - delta).toNat * sampleRead
  rest : r.sampleRead ≤ sampleRead
  frames : k ≤ r.k
  writes : ∀ w ∈ r.writes, w.1 + w.2 ≤ 2 * (r.k * numCh)

theorem apiBlocks_follows (numCh : Nat) (delta : Int) (sampleRead k : Nat) :
    (apiBlocks numCh delta sampleRead k).Follows numCh delta sampleRead k := by
  induction sampleRead, k using apiBlocks.induct numCh delta with
  | case1 sampleRead k h frames ih =>
    rw [apiBlocks, if_pos h]
    obtain ⟨t, rfl⟩ := Nat.exists_eq_add_of_le h.2
    rw [Nat.add_sub_cancel_left] at ih
    rw [Nat.add_sub_cancel_left]
    refine ⟨?_, ih.rest.trans (Nat.le_add_left t _),
      (Nat.le_add_right k frames).trans ih.frames, ?_⟩
    · refine ih.balance.trans ?_
      ring
    · intro w hw
      rcases mem_cons.mp hw with rfl | hw
      · have hend : (k + frames) * numCh ≤ (apiBlocks numCh delta t (k + frames)).k * numCh :=
          Nat.mul_le_mul_right numCh ih.frames
        rw [Nat.add_mul] at hend
        show 2 * (k * numCh) + 2 * (frames * numCh) ≤
          2 * ((apiBlocks numCh delta t (k + frames)).k * numCh)
        omega
      · exact ih.writes w hw
  | case2 sampleRead k h =>
    rw [apiBlocks, if_neg h]
    exact ⟨rfl, Nat.le_refl _, Nat.le_refl _, fun _ hw => absurd hw not_mem_nil⟩

theorem copyRest_within {r : ApiBlocks} (h : r.Within numCh size) (hpos : 0 < numCh)
    (hfit : 2 * (r.k * numCh + r.sampleRead) ≤ size) : (copyRest numCh r).Within numCh size := by
  unfold copyRest
  split
  · have hdiv := Nat.div_add_mod r.sampleRead numCh
    have hmod := Nat.mod_lt r.sampleRead hpos
    have hk : (r.k + r.sampleRead / numCh) * numCh =
        r.k * numCh + numCh * (r.sampleRead / numCh) := by
      ring
    refine ⟨fun w hw => ?_, ?_⟩
    · rw [hk]
      rcases mem_append.mp hw with hw | hw
      · have hold := h.writes w hw
        omega
      · cases mem_singleton.mp hw
        omega
    · rw [hk]
      omega
  · exact h

theorem readMore_within {r : ApiBlocks} (h : r.Within numCh size) (hpos : 0 < numCh) {asked : Nat}
    (hasked : asked ≤ size) (answers : List Int) :
    (readMore numCh asked answers r).Within numCh size := by
  unfold readMore
  split
  · next hlt =>
    have hread := dspPcmRead_samples_le (asked - 2 * (r.k * numCh)) answers
    refine copyRest_within ⟨h.writes, h.frames⟩ hpos ?_
    dsimp only
    omega
  · exact h

theorem scaledSize_le (numCh : Nat) (delta : Int) (hsize : size ≤ 2 * dateTempSize) :
    scaledSize numCh size delta ≤ size ∧
      (delta < 0 → (defaultNumsampsPerch - delta).toNat * scaledSize numCh size delta ≤
        defaultNumsampsPerch * size) := by
  unfold scaledSize
  split
  · next hneg =>
    have hfits : size * defaultNumsampsPerch % 2 ^ 32 = size * defaultNumsampsPerch := by
      unfold defaultNumsampsPerch
      unfold dateTempSize at hsize
      omega
    rw [hfits]
    have hframes : defaultNumsampsPerch ≤ (defaultNumsampsPerch - delta).toNat := by omega
    have hand :=
      Nat.and_le_left (n := size * defaultNumsampsPerch / (defaultNumsampsPerch - delta).toNat)
      (m := 2 ^ 32 - 2 * numCh)
    refine ⟨hand.trans ?_, fun _ => ?_⟩
    · refine Nat.div_le_of_le_mul ?_
      rw [Nat.mul_comm]
      exact Nat.mul_le_mul_right size hframes
    · refine (Nat.mul_le_mul_left _ hand).trans ((Nat.mul_div_le _ _).trans ?_)
      rw [Nat.mul_comm]
  · next hneg => exact ⟨Nat.le_refl size, fun h => absurd h hneg⟩

theorem blocks_fit {asked sampleRead : Nat} {r : ApiBlocks} (h : r.Follows numCh delta sampleRead 0)
    (hread : 2 * sampleRead ≤ asked) (hasked : asked ≤ size)
    (hlonger : delta < 0 →
      (defaultNumsampsPerch - delta).toNat * asked ≤ defaultNumsampsPerch * size) :
    2 * (r.k * numCh + r.sampleRead) ≤ size := by
  have hbalance := h.balance
  rw [Nat.mul_zero, Nat.zero_add, Nat.mul_assoc, Nat.mul_comm numCh] at hbalance
  obtain ⟨t, ht⟩ := Nat.exists_eq_add_of_le h.rest
  rcases Int.lt_or_le delta 0 with hneg | hnonneg
  · have hframes : defaultNumsampsPerch ≤ (defaultNumsampsPerch - delta).toNat := by omega
    have hrest := Nat.mul_le_mul_right r.sampleRead hframes
    have hread' := Nat.mul_le_mul_left (defaultNumsampsPerch - delta).toNat hread
    have hscaled : defaultNumsampsPerch * (2 * (r.k * numCh + r.sampleRead)) ≤
        defaultNumsampsPerch * size := by
      calc defaultNumsampsPerch * (2 * (r.k * numCh + r.sampleRead))
          = 2 * (defaultNumsampsPerch * (r.k * numCh) + defaultNumsampsPerch * r.sampleRead) := by
            ring
        _ ≤ 2 * ((defaultNumsampsPerch - delta).toNat * sampleRead) := by omega
        _ = (defaultNumsampsPerch - delta).toNat * (2 * sampleRead) := by ring
        _ ≤ (defaultNumsampsPerch - delta).toNat * asked := hread'
        _ ≤ defaultNumsampsPerch * size := hlonger hneg
    exact Nat.le_of_mul_le_mul_left hscaled (by decide)
  · -- the frames are as many as before or fewer
    have hframes : (defaultNumsampsPerch - delta).toNat ≤ defaultNumsampsPerch := by omega
    have hblocks : defaultNumsampsPerch * (r.k * numCh) ≤ defaultNumsampsPerch * t := by
      rw [ht, Nat.mul_add] at hbalance
      have ht' := Nat.mul_le_mul_right t hframes
      omega
    have hk := Nat.le_of_mul_le_mul_left hblocks (by decide)
    omega

end Blocks

/-! ## The whole call -/

/-- For one or two channels, a size that fits into `date_temp` and any `delta`, whatever the reads
give. Behind the bytes of the result less than a frame is written. Each read fits into
`date_temp`. -/
theorem afResampleApi_within (numCh size : Nat) (enable : Bool) (delta : Int) (answers : List Int)
    (hch : numCh = 1 ∨ numCh = 2) (hsize : size ≤ 2 * dateTempSize) :
    (afResampleApi numCh size enable delta answers).size ≤ size ∧
      (∀ w ∈ (afResampleApi numCh size enable delta answers).writes,
        w.1 + w.2 ≤ size ∧
          w.1 + w.2 < (afResampleApi numCh size enable delta answers).size + 2 * numCh) ∧
      ∀ n ∈ (afResampleApi numCh size enable delta answers).asked, n ≤ 2 * dateTempSize := by
  have hpos : 0 < numCh := by omega
  unfold afResampleApi
  split
  · obtain ⟨hscaled, hlonger⟩ := scaledSize_le numCh delta hsize
    rw [if_neg fun h => h.1 hch]
    have hfollows := apiBlocks_follows numCh delta
      ((dspPcmReadBytes (scaledSize numCh size delta) 0 answers).1 / 2) 0
    have hfit := blocks_fit hfollows (dspPcmRead_samples_le _ answers) hscaled hlonger
    have hblocks : (apiBlocks numCh delta
        ((dspPcmReadBytes (scaledSize numCh size delta) 0 answers).1 / 2) 0).Within numCh size := by
      refine ⟨fun w hw => ?_, by omega⟩
      have hw' := hfollows.writes w hw
      omega
    have hwithin := readMore_within (copyRest_within hblocks hpos hfit) hpos hscaled
      (dspPcmReadBytes (scaledSize numCh size delta) 0 answers).2
    refine ⟨hwithin.frames, hwithin.writes, fun n hn => ?_⟩
    rcases mem_cons.mp hn with rfl | hn
    · exact hscaled.trans hsize
    · split at hn
      · cases mem_singleton.mp hn
        omega
      · exact absurd hn not_mem_nil
  · have hread := dspPcmRead_samples_le size answers
    refine ⟨hread, fun w hw => ?_, fun n hn => ?_⟩
    · cases mem_singleton.mp hw
      dsimp only
      omega
    · cases mem_singleton.mp hn
      exact hsize

/-- Ten blocks of a stereo stream that get longer by two frames each. -/
theorem afResampleApi_within_longer :
    (afResampleApi 2 5200 true (-2) [5120]).size ≤ 5200 ∧
      (∀ w ∈ (afResampleApi 2 5200 true (-2) [5120]).writes,
        w.1 + w.2 ≤ 5200 ∧ w.1 + w.2 < (afResampleApi 2 5200 true (-2) [5120]).size + 2 * 2) ∧
      ∀ n ∈ (afResampleApi 2 5200 true (-2) [5120]).asked, n ≤ 2 * dateTempSize :=
  afResampleApi_within 2 5200 true (-2) [5120] (by decide) (by decide)

end AmlogicHal.Amadec
