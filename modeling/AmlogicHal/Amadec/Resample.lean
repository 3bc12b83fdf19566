import AmlogicHal.Lib.Machine
import Mathlib.Algebra.Ring.Nat
import Mathlib.Algebra.Order.Group.Nat

/-!
# The resampler

`af_resample_api_normal` delivers PCM data to the output and can stretch or shorten them a little:
it turns blocks of `SampNumIn` frames into blocks of 128 by interpolation. A call asks for any
number of frames, so data are kept between calls at both ends: input that does not fill a block
(`ReservedBuf`) and output that was not asked for (`OutSampReserveBuf`). If the resampler is
switched off, or another type is chosen, the calls first empty the two buffers, the first one as it
is.

`resample_conserved`: over all sequences of calls, the samples that were read are cut into pieces,
in order, each a whole block or copied; what the pieces give is delivered, in order; and no call
delivers more than it was asked for.
-/

namespace AmlogicHal.Amadec

open Machine List

/-! ## The model -/

def defaultNumsampsPerch : Nat := 128

def maxNumsampsPerch : Nat := 129

/-- `MAXCH_NUMBER * MAXFRAMESIZE`, the size of `date_temp`. -/
def dateTempSize : Nat := 8 * 8192

inductive ResampleType
  | none | down | up
deriving DecidableEq

/-- `af_resample_ctl_t`. The two buffers are lists of as many samples as they hold, and the two
arrays for the interpolation are one list of positions and coefficients. -/
structure Resampler where
  sampNumIn : Nat
  sampNumOut : Nat
  interpolate : List (Nat × Nat)
  reserved : List Int
  outSampReserve : List Int
  initFlag : Bool
  lastResamType : ResampleType

/-- A call: the number of bytes that are asked for, the settings, the difference of the block sizes
(the property `resampledelta`, or its default), and what the calls of `dsp_read` have to give, one
after the other. -/
structure ResampleCall where
  size : Nat
  enableResample : Bool
  resampleType : ResampleType
  delta : Int
  reads : List (List Int)

inductive Piece
  | block (input output : List Int)
  | copied (samples : List Int)

namespace Piece

def input : Piece → List Int
  | .block input _ => input
  | .copied samples => samples

def output : Piece → List Int
  | .block _ output => output
  | .copied samples => samples

end Piece

/-- What a call does: the samples it reads, the pieces it makes of the input, and the samples it
delivers. -/
structure ResampleEffect where
  read : List Int
  pieces : List Piece
  delivered : List Int

namespace ResampleEffect

def consumed (o : ResampleEffect) : List Int := o.pieces.flatMap Piece.input

def produced (o : ResampleEffect) : List Int := o.pieces.flatMap Piece.output

end ResampleEffect

open ResampleEffect

/-- `dsp_read`: at most `n` samples of what there is. -/
def dspRead (n : Nat) (reads : List (List Int)) : List Int := (reads.headD []).take n

/-- `dsp_pcm_read`: reads until there are `n` samples, or nothing comes. -/
def dspPcmRead : Nat → List (List Int) → List Int × List (List Int)
  | _, [] => ([], [])
  | n, c :: cs =>
    if n = 0 then ([], c :: cs)
    else if (c.take n).length = 0 then ([], cs)
    else
      let r := dspPcmRead (n - (c.take n).length) cs
      (c.take n ++ r.1, r.2)

/-- The loop of `af_resample_linear_coef_get`: `k` entries, with the fraction and the position that
have been reached. The numbers have 14 binary places. -/
def coefSteps (step : Nat) : Nat → Nat → Nat → List (Nat × Nat)
  | 0, _, _ => []
  | k + 1, forward, pos =>
    (pos + (forward + step) / 16384, (forward + step) % 16384) ::
      coefSteps step k ((forward + step) % 16384) (pos + (forward + step) / 16384)

def linearCoefGet (sampNumIn sampNumOut : Nat) : List (Nat × Nat) :=
  if sampNumIn = sampNumOut then (List.range sampNumOut).map fun i => (i, 0)
  else
    (0, 0) :: coefSteps ((sampNumIn - 1) * 16384 / (sampNumOut - 1)) (sampNumOut - 2) 0 0 ++
      [(sampNumOut - 1, 0)]

def blockSize : ResampleType → Int → Int
  | .none, _ => defaultNumsampsPerch
  | .down, delta => defaultNumsampsPerch + delta
  | .up, delta => defaultNumsampsPerch - delta

namespace Resampler

/-- `af_resample_linear_init` clears everything. -/
def initial : Resampler := ⟨0, 0, [], [], [], false, .none⟩

def setSampsNumRatio (s : Resampler) (resampleType : ResampleType) (delta : Int) : Resampler :=
  { s with
    lastResamType := resampleType
    sampNumIn := (blockSize resampleType delta).toNat
    sampNumOut := defaultNumsampsPerch
    interpolate := linearCoefGet (blockSize resampleType delta).toNat defaultNumsampsPerch
    reserved := []
    outSampReserve := []
    initFlag := true }

def stopProcess (s : Resampler) : Resampler := { s with initFlag := false, lastResamType := .none }

/-- `af_get_pcm_in_resampler`. -/
def getPcm (s : Resampler) (n : Nat) : Resampler × List Int :=
  if n < s.outSampReserve.length then
    ({ s with outSampReserve := s.outSampReserve.drop n }, s.outSampReserve.take n)
  else ({ s with outSampReserve := [] }, s.outSampReserve)

def getUnproInput (s : Resampler) (n : Nat) : Resampler × List Int :=
  if n ≥ s.reserved.length then ({ s with reserved := [] }, s.reserved)
  else ({ s with reserved := s.reserved.drop n }, s.reserved.take n)

/-- `af_get_delta_inputsampnum`. -/
def deltaInput (s : Resampler) (numCh : Nat) : Nat := s.sampNumIn * numCh - s.reserved.length

/-- The samples of one channel of a block, interpolated. A sample has 16 bits. -/
def interpolateChannel (s : Resampler) (buf : List Int) : List Int :=
  (s.interpolate.take (s.sampNumOut - 1)).map (fun x =>
    (buf.getD x.1 0 + x.2 * (buf.getD (x.1 + 1) 0 - buf.getD x.1 0) / 16384).bmod 65536) ++
    [buf.getD (s.sampNumIn - 1) 0]

def block (s : Resampler) (numCh : Nat) (input : List Int) : List Int :=
  (List.range (s.sampNumOut * numCh)).map fun j =>
    (s.interpolateChannel ((List.range s.sampNumIn).map fun i =>
      input.getD (numCh * i + j % numCh) 0)).getD
      (j / numCh) 0

/-- The loop over the blocks behind the first one, while more than a block is left: the blocks, and
the rest. -/
def moreBlocks (s : Resampler) (numCh : Nat) (rest : Nat) (input : List Int) :
    List (List Int) × List Int :=
  -- the source does not look at the second condition, without which the loop does not end
  if rest > s.sampNumIn ∧ s.sampNumIn > 0 then
    let r := s.moreBlocks numCh (rest - s.sampNumIn) (input.drop (s.sampNumIn * numCh))
    (input.take (s.sampNumIn * numCh) :: r.1, r.2)
  else ([], input.take (rest * numCh))
termination_by rest
decreasing_by
  next h => exact Nat.sub_lt (Nat.zero_lt_of_lt h.1) h.2

def blockPieces (s : Resampler) (numCh : Nat) (blocks : List (List Int)) : List Piece :=
  blocks.map fun input => .block input (s.block numCh input)

/-- The end of `af_resample_process_linear_inner`: of the output whole blocks are given out, and
`rest` is the input that is kept. -/
def emit (s : Resampler) (numCh : Nat) (blocks : List (List Int)) (rest : List Int) :
    Resampler × List Piece × List Int :=
  let pieces := s.blockPieces numCh blocks
  let dataOut := s.outSampReserve ++ pieces.flatMap Piece.output
  let reserveNum := dataOut.length % (defaultNumsampsPerch * numCh)
  ({ s with reserved := rest, outSampReserve := dataOut.drop (dataOut.length - reserveNum) },
    pieces,
    dataOut.take (dataOut.length - reserveNum))

/-- `af_resample_process_linear_inner` for an initialised resampler. -/
def processLinearInner (s : Resampler) (numCh : Nat) (dataIn : List Int) :
    Resampler × List Piece × List Int :=
  let numSampsPerChIn := dataIn.length / numCh
  let numSampsPerChPre := s.reserved.length / numCh
  if numSampsPerChPre + numSampsPerChIn < s.sampNumIn then
    ({ s with reserved := s.reserved ++ dataIn }, [], [])
  else
    let inputOffset := (s.sampNumIn - numSampsPerChPre) * numCh
    let more := s.moreBlocks numCh (numSampsPerChPre + numSampsPerChIn - s.sampNumIn)
      (dataIn.drop inputOffset)
    s.emit numCh ((s.reserved ++ dataIn.take inputOffset) :: more.1) more.2

end Resampler

open Resampler

/-- A call under way: the resampler, what the dsp still has to give, and what has been done so far.
`dataOut` is `data_out` up to `outbuf_offset`. -/
structure Progress where
  ctl : Resampler
  reads : List (List Int)
  read : List Int
  pieces : List Piece
  dataOut : List Int

namespace Progress

def readBlock (p : Progress) (numCh : Nat) : Progress × List Int :=
  let got := dspPcmRead (p.ctl.deltaInput numCh) p.reads
  let r := p.ctl.processLinearInner numCh got.1
  ({ p with ctl := r.1, reads := got.2, read := p.read ++ got.1, pieces := p.pieces ++ r.2.1 },
    r.2.2)

/-- The loop while at least a whole block is asked for, with the number of samples that are left to
be delivered, or `none` if the call ends because nothing came. -/
def fill (p : Progress) (numCh n : Nat) : Progress × Option Nat :=
  -- with at least one channel, the second condition follows from the first
  if n ≥ defaultNumsampsPerch * numCh ∧ n > 0 then
    if (p.readBlock numCh).2.length = 0 then ((p.readBlock numCh).1, none)
    else
      fill { (p.readBlock numCh).1 with
        dataOut := (p.readBlock numCh).1.dataOut ++ (p.readBlock numCh).2 } numCh
        (n - (p.readBlock numCh).2.length)
  else (p, some n)
termination_by n
decreasing_by
  next h hr => exact Nat.sub_lt h.2 (Nat.pos_of_ne_zero hr)

def tail (p : Progress) (numCh n : Nat) : Progress :=
  let r := p.readBlock numCh
  if r.2.length = 0 then r.1
  else
    { r.1 with
      dataOut := r.1.dataOut ++ r.2.take n
      ctl := { r.1.ctl with outSampReserve := r.2.drop n } }

end Progress

namespace Resampler

variable (s : Resampler)

def resampled (numCh n : Nat) (e : ResampleCall) : Progress :=
  let s := if s.initFlag then s else s.setSampsNumRatio e.resampleType e.delta
  let g := s.getPcm n
  match Progress.fill ⟨g.1, e.reads, [], [], g.2⟩ numCh (n - g.2.length) with
  | (p, none) => p
  | (p, some n) => if n > 0 then p.tail numCh n else p

def drainOutput (n : Nat) : Resampler × List Int :=
  if s.outSampReserve.length > 0 then s.getPcm n else (s, [])

def drainInput (n : Nat) : Resampler × List Int :=
  if s.reserved.length > 0 then s.getUnproInput n else (s, [])

def settle : Resampler :=
  if s.outSampReserve.length = 0 ∧ s.reserved.length = 0 then s.stopProcess else s

def readDirect (n : Nat) (reads : List (List Int)) : List Int :=
  if n > 0 then dspRead n reads else []

/-- The call with the resampler switched off: what is kept is delivered first. -/
def passed (n : Nat) (e : ResampleCall) : Progress :=
  let g := s.drainOutput n
  let u := g.1.drainInput (n - g.2.length)
  let got := readDirect (n - g.2.length - u.2.length) e.reads
  ⟨u.1.settle, e.reads.tail, got, [.copied u.2, .copied got], g.2 ++ u.2 ++ got⟩

/-- `af_resample_api_normal`. Another type is taken over only when nothing is kept; until then the
resampler is switched off. -/
def apiNormal (numCh : Nat) (e : ResampleCall) : Progress :=
  let n := min (e.size / 2) dateTempSize
  if e.enableResample then
    if s.lastResamType = e.resampleType then s.resampled numCh n e
    else if s.outSampReserve.length = 0 ∧ s.reserved.length = 0 then
      s.stopProcess.resampled numCh n e
    else s.passed n e
  else s.passed n e

end Resampler

def resampler (numCh : Nat) : Machine Resampler ResampleCall ResampleEffect where
  step s e :=
    let p := s.apiNormal numCh e
    (p.ctl, ⟨p.read, p.pieces, p.dataOut⟩)

/-! ## What is conserved -/

def Resampler.Ready (s : Resampler) : Prop :=
  (1 ≤ s.sampNumIn ∧ s.sampNumIn ≤ maxNumsampsPerch) ∧ s.sampNumOut = defaultNumsampsPerch ∧
    s.interpolate = linearCoefGet s.sampNumIn s.sampNumOut

def Piece.Whole (numCh : Nat) : Piece → Prop
  | .block input output =>
    ∃ s : Resampler, s.Ready ∧ input.length = s.sampNumIn * numCh ∧ output = s.block numCh input
  | .copied _ => True

/-- Whole frames are asked for and read, and the blocks have at least one frame and fit into the
arrays. -/
structure ResampleCall.Legal (numCh : Nat) (e : ResampleCall) : Prop where
  size : 2 * numCh ∣ e.size
  block : 1 ≤ blockSize e.resampleType e.delta ∧ blockSize e.resampleType e.delta ≤ maxNumsampsPerch
  reads : ∀ c ∈ e.reads, numCh ∣ c.length

section Conservation

variable (numCh : Nat)

/-- After this call: all samples that were read are in the pieces, in order, or kept; what the
pieces give was delivered, in order, or is kept; the pieces of the call are whole; it delivers at
most as much as was asked for; and the buffers are used within their size. -/
structure Conserved (s : Resampler × List (ResampleCall × ResampleEffect)) (e : ResampleCall) :
    Prop where
  consumed : Machine.total ResampleEffect.consumed ((resampler numCh).recorded.step s e).1.2 ++
      ((resampler numCh).step s.1 e).1.reserved =
    Machine.total ResampleEffect.read ((resampler numCh).recorded.step s e).1.2
  delivered : Machine.total ResampleEffect.delivered ((resampler numCh).recorded.step s e).1.2 ++
      ((resampler numCh).step s.1 e).1.outSampReserve =
    Machine.total ResampleEffect.produced ((resampler numCh).recorded.step s e).1.2
  pieces : ∀ piece ∈ ((resampler numCh).step s.1 e).2.pieces, piece.Whole numCh
  size : 2 * ((resampler numCh).step s.1 e).2.delivered.length ≤ e.size
  inArrays : ((resampler numCh).step s.1 e).1.reserved.length ≤ maxNumsampsPerch * numCh ∧
    ((resampler numCh).step s.1 e).1.outSampReserve.length ≤ maxNumsampsPerch * numCh

structure Resampler.Valid (s : Resampler) : Prop where
  ready : s.initFlag = true → s.Ready ∧ s.reserved.length ≤ s.sampNumIn * numCh
  idle : s.initFlag = false → s.reserved = [] ∧ s.outSampReserve = []
  reserved : numCh ∣ s.reserved.length
  outSampReserve : numCh ∣ s.outSampReserve.length
  outSampReserve_le : s.outSampReserve.length ≤ defaultNumsampsPerch * numCh

/-- What holds in a call that began in the state `start`. -/
structure Progress.Balanced (start : Resampler) (p : Progress) : Prop where
  valid : p.ctl.Valid numCh
  consumed : p.pieces.flatMap Piece.input ++ p.ctl.reserved = start.reserved ++ p.read
  delivered : p.dataOut ++ p.ctl.outSampReserve =
    start.outSampReserve ++ p.pieces.flatMap Piece.output
  whole : ∀ piece ∈ p.pieces, piece.Whole numCh
  reads : ∀ c ∈ p.reads, numCh ∣ c.length

variable {numCh} {s : Resampler}

/-! ### The parts of a call -/

theorem dspPcmRead_spec (n : Nat) (reads : List (List Int)) (hn : numCh ∣ n)
    (hreads : ∀ c ∈ reads, numCh ∣ c.length) :
    (dspPcmRead n reads).1.length ≤ n ∧ numCh ∣ (dspPcmRead n reads).1.length ∧
      ∀ c ∈ (dspPcmRead n reads).2, numCh ∣ c.length := by
  induction reads generalizing n with
  | nil => exact ⟨Nat.zero_le _, Nat.dvd_zero _, nofun⟩
  | cons c cs ih =>
    have hcs : ∀ c' ∈ cs, numCh ∣ c'.length := fun c' hc' => hreads c' (mem_cons_of_mem _ hc')
    have htake : numCh ∣ (c.take n).length := by
      rw [length_take]
      rcases Nat.le_total n c.length with hle | hle
      · rwa [Nat.min_eq_left hle]
      · rw [Nat.min_eq_right hle]
        exact hreads c mem_cons_self
    have hle : (c.take n).length ≤ n := length_take_le _ _
    unfold dspPcmRead
    split
    · exact ⟨Nat.zero_le _, Nat.dvd_zero _, hreads⟩
    · split
      · exact ⟨Nat.zero_le _, Nat.dvd_zero _, hcs⟩
      · obtain ⟨hlength, hdvd, hrest⟩ := ih _ (Nat.dvd_sub hn htake) hcs
        refine ⟨?_, ?_, hrest⟩
        · rw [length_append]
          omega
        · rw [length_append]
          exact Nat.dvd_add htake hdvd

theorem length_block (input : List Int) : (s.block numCh input).length = s.sampNumOut * numCh := by
  rw [block, length_map, length_range]

theorem moreBlocks_spec (hpos : 1 ≤ s.sampNumIn) (rest : Nat) (input : List Int)
    (hinput : input.length = rest * numCh) :
    (s.moreBlocks numCh rest input).1.flatten ++ (s.moreBlocks numCh rest input).2 = input ∧
      (∀ b ∈ (s.moreBlocks numCh rest input).1, b.length = s.sampNumIn * numCh) ∧
      (s.moreBlocks numCh rest input).2.length ≤ s.sampNumIn * numCh ∧
      numCh ∣ (s.moreBlocks numCh rest input).2.length := by
  induction rest using Nat.strong_induction_on generalizing input with
  | _ rest ih =>
    unfold moreBlocks
    split
    · next h =>
      have hlength : (input.drop (s.sampNumIn * numCh)).length = (rest - s.sampNumIn) * numCh := by
        rw [length_drop, hinput, Nat.sub_mul]
      obtain ⟨hflat, hblocks, hle, hdvd⟩ := ih _ (Nat.sub_lt (Nat.zero_lt_of_lt h.1) h.2) _ hlength
      refine ⟨?_, ?_, hle, hdvd⟩
      · rw [flatten_cons, append_assoc, hflat, take_append_drop]
      · intro b hb
        rcases mem_cons.mp hb with rfl | hb
        · rw [length_take, hinput]
          exact Nat.min_eq_left (Nat.mul_le_mul_right _ h.1.le)
        · exact hblocks b hb
    · next h =>
      have hrest : rest ≤ s.sampNumIn := Nat.not_lt.mp fun hlt => h ⟨hlt, hpos⟩
      rw [← hinput, take_length]
      exact ⟨rfl, nofun, hinput ▸ Nat.mul_le_mul_right _ hrest, hinput ▸ Nat.dvd_mul_left _ _⟩

/-- What `af_resample_process_linear_inner` does. -/
structure InnerSpec (numCh : Nat) (s : Resampler) (dataIn : List Int)
    (r : Resampler × List Piece × List Int) : Prop where
  valid : r.1.Valid numCh
  initFlag : r.1.initFlag = true
  consumed : r.2.1.flatMap Piece.input ++ r.1.reserved = s.reserved ++ dataIn
  delivered : r.2.2 ++ r.1.outSampReserve = s.outSampReserve ++ r.2.1.flatMap Piece.output
  whole : ∀ piece ∈ r.2.1, piece.Whole numCh
  /-- In a call of `af_resample_api_normal` there is at most one block. -/
  single : s.outSampReserve = [] → dataIn.length ≤ s.deltaInput numCh →
    r.1.outSampReserve = [] ∧ (r.2.2 = [] ∨ r.2.2.length = defaultNumsampsPerch * numCh)

theorem blockPieces_input (blocks : List (List Int)) :
    (s.blockPieces numCh blocks).flatMap Piece.input = blocks.flatten := by
  rw [blockPieces, flatMap_map, flatten_eq_flatMap]
  rfl

theorem length_blockPieces_output (numCh : Nat) (s : Resampler) (blocks : List (List Int)) :
    ((s.blockPieces numCh blocks).flatMap Piece.output).length =
      blocks.length * (s.sampNumOut * numCh) := by
  induction blocks with
  | nil => rw [length_nil, Nat.zero_mul]; rfl
  | cons b blocks ih =>
    show (s.block numCh b ++ (s.blockPieces numCh blocks).flatMap Piece.output).length = _
    rw [length_append, ih, length_block, length_cons, Nat.succ_mul, Nat.add_comm]

variable {blocks : List (List Int)}

theorem blockPieces_whole (hready : s.Ready)
    (hblocks : ∀ b ∈ blocks, b.length = s.sampNumIn * numCh) :
    ∀ piece ∈ s.blockPieces numCh blocks, piece.Whole numCh := by
  intro piece hpiece
  obtain ⟨b, hb, rfl⟩ := mem_map.mp hpiece
  exact ⟨s, hready, hblocks b hb, rfl⟩

theorem emit_spec (hnum : 0 < numCh) (hv : s.Valid numCh) (hinit : s.initFlag = true)
    {dataIn rest : List Int} (hblocks : ∀ b ∈ blocks, b.length = s.sampNumIn * numCh)
    (hflat : blocks.flatten ++ rest = s.reserved ++ dataIn)
    (hle : rest.length ≤ s.sampNumIn * numCh) (hdvd : numCh ∣ rest.length)
    (hsingle : dataIn.length ≤ s.deltaInput numCh → blocks.length = 1) :
    InnerSpec numCh s dataIn (s.emit numCh blocks rest) := by
  have hready := (hv.ready hinit).1
  have hlength := length_blockPieces_output numCh s blocks
  rw [hready.2.1] at hlength
  have hpos : 0 < defaultNumsampsPerch * numCh := Nat.mul_pos (by decide) hnum
  unfold emit
  dsimp only
  refine ⟨⟨fun _ => ⟨hready, hle⟩, fun hf => (nomatch hinit.symm.trans hf), hdvd, ?_, ?_⟩,
    hinit, ?_,
    take_append_drop _ _, blockPieces_whole hready hblocks, fun hnone hshort => ?_⟩
  · -- what is kept of the output is in whole frames
    rw [length_drop, Nat.sub_sub_self (Nat.mod_le _ _), length_append, hlength]
    refine (Nat.dvd_mod_iff (Nat.dvd_mul_left _ _)).mpr (Nat.dvd_add hv.outSampReserve ?_)
    exact Nat.dvd_mul_left_of_dvd (Nat.dvd_mul_left _ _) _
  · rw [length_drop, Nat.sub_sub_self (Nat.mod_le _ _)]
    exact (Nat.mod_lt _ hpos).le
  · rw [blockPieces_input, hflat]
  · rw [hsingle hshort, Nat.one_mul] at hlength
    rw [hnone, nil_append, hlength, Nat.mod_self, Nat.sub_zero]
    have htake := take_length (l := (s.blockPieces numCh blocks).flatMap Piece.output)
    have hdrop := drop_length (l := (s.blockPieces numCh blocks).flatMap Piece.output)
    rw [hlength] at htake hdrop
    exact ⟨hdrop, .inr (htake.symm ▸ hlength)⟩

theorem processLinearInner_spec (hnum : 0 < numCh) (hv : s.Valid numCh) (hinit : s.initFlag = true)
    {dataIn : List Int} (hdvd : numCh ∣ dataIn.length) :
    InnerSpec numCh s dataIn (s.processLinearInner numCh dataIn) := by
  obtain ⟨hready, hreserved⟩ := hv.ready hinit
  obtain ⟨a, ha⟩ := hv.reserved
  obtain ⟨b, hb⟩ := hdvd
  rw [Nat.mul_comm] at ha hb
  have hpre : s.reserved.length / numCh = a := by rw [ha, Nat.mul_div_cancel _ hnum]
  have hin : dataIn.length / numCh = b := by rw [hb, Nat.mul_div_cancel _ hnum]
  unfold processLinearInner
  dsimp only
  rw [hpre, hin]
  split
  · next hshort =>
    -- the input does not fill the block
    have hlength : (s.reserved ++ dataIn).length = (a + b) * numCh := by
      rw [length_append, ha, hb, Nat.add_mul]
    refine ⟨⟨fun _ => ⟨hready, ?_⟩, fun hf => (nomatch hinit.symm.trans hf), ?_, hv.outSampReserve,
      hv.outSampReserve_le⟩, hinit, rfl, (append_nil _).symm, nofun,
      fun hnone _ => ⟨hnone, .inl rfl⟩⟩
    · rw [hlength]
      exact Nat.mul_le_mul_right _ hshort.le
    · rw [hlength]
      exact Nat.dvd_mul_left _ _
  · next hfull =>
    have hfull : s.sampNumIn ≤ a + b := Nat.not_lt.mp hfull
    have hle : a ≤ s.sampNumIn := Nat.le_of_mul_le_mul_right (ha ▸ hreserved) hnum
    have hrest : (dataIn.drop ((s.sampNumIn - a) * numCh)).length =
        (a + b - s.sampNumIn) * numCh := by
      rw [length_drop, hb, ← Nat.sub_mul]
      congr 1
      omega
    obtain ⟨hflat, hblocks, hmore, hmoredvd⟩ := moreBlocks_spec hready.1.1 _ _ hrest
    -- the first block takes what is kept and the front of the input
    have hfirst : (s.reserved ++ dataIn.take ((s.sampNumIn - a) * numCh)).length =
        s.sampNumIn * numCh := by
      have htake : (s.sampNumIn - a) * numCh ≤ dataIn.length :=
        hb ▸ Nat.mul_le_mul_right _ (Nat.sub_le_iff_le_add'.mpr hfull)
      rw [length_append, length_take_of_le htake, ha, ← Nat.add_mul, Nat.add_sub_of_le hle]
    refine emit_spec hnum hv hinit (forall_mem_cons.mpr ⟨hfirst, hblocks⟩) ?_ hmore hmoredvd ?_
    · rw [flatten_cons, append_assoc, hflat, append_assoc, take_append_drop]
    · intro hshort
      have hb : b ≤ s.sampNumIn - a := by
        rw [deltaInput, ha, hb, ← Nat.sub_mul] at hshort
        exact Nat.le_of_mul_le_mul_right hshort hnum
      have hzero : a + b - s.sampNumIn = 0 := by omega
      rw [hzero, moreBlocks, if_neg fun h => Nat.not_lt_zero _ h.1]
      rfl

/-! ### The resampler switched on -/

variable {start : Resampler} {p : Progress}

/-- A block is read. Its output may be divided in any way between what is delivered and what is
kept. -/
theorem readBlock_spec (hnum : 0 < numCh) (h : p.Balanced numCh start)
    (hinit : p.ctl.initFlag = true) (hnone : p.ctl.outSampReserve = []) :
    ((p.readBlock numCh).2 = [] ∨ (p.readBlock numCh).2.length = defaultNumsampsPerch * numCh) ∧
      (p.readBlock numCh).1.ctl.initFlag = true ∧ (p.readBlock numCh).1.ctl.outSampReserve = [] ∧
      ∀ out kept, (p.readBlock numCh).2 = out ++ kept → numCh ∣ kept.length →
        kept.length ≤ defaultNumsampsPerch * numCh →
        Progress.Balanced numCh start { (p.readBlock numCh).1 with
          dataOut := p.dataOut ++ out
          ctl := { (p.readBlock numCh).1.ctl with outSampReserve := kept } } := by
  have hdelta : numCh ∣ p.ctl.deltaInput numCh :=
    Nat.dvd_sub (Nat.dvd_mul_left _ _) h.valid.reserved
  obtain ⟨hle, hdvd, hreads⟩ := dspPcmRead_spec _ p.reads hdelta h.reads
  have hinner := processLinearInner_spec hnum h.valid hinit hdvd
  obtain ⟨hempty, hsingle⟩ := hinner.single hnone hle
  unfold Progress.readBlock
  dsimp only
  generalize dspPcmRead _ p.reads = got at *
  generalize p.ctl.processLinearInner numCh got.1 = r at *
  refine ⟨hsingle, hinner.initFlag, hempty, fun out kept hout hkept hkeptle => ?_⟩
  have hready := hinner.valid.ready hinner.initFlag
  have hdelivered := hinner.delivered
  have hbefore := h.delivered
  rw [hempty, hnone, append_nil, nil_append] at hdelivered
  rw [hnone, append_nil] at hbefore
  refine ⟨⟨fun _ => hready, fun hf => (nomatch hinner.initFlag.symm.trans hf),
    hinner.valid.reserved,
    hkept, hkeptle⟩, ?_, ?_, fun piece hpiece => ?_, hreads⟩
  · show (p.pieces ++ r.2.1).flatMap Piece.input ++ r.1.reserved =
      start.reserved ++ (p.read ++ got.1)
    rw [flatMap_append, append_assoc, hinner.consumed, ← append_assoc, h.consumed, append_assoc]
  · show p.dataOut ++ out ++ kept = start.outSampReserve ++ (p.pieces ++ r.2.1).flatMap Piece.output
    rw [flatMap_append, ← hdelivered, ← append_assoc, ← hbefore, append_assoc, ← hout]
  · exact (mem_append.mp hpiece).elim (h.whole piece) (hinner.whole piece)

/-- A call that was asked for `asked` samples has still to deliver `n`. -/
structure Filling (numCh : Nat) (start : Resampler) (asked : Nat) (p : Progress) (n : Nat) :
    Prop where
  balanced : p.Balanced numCh start
  initFlag : p.ctl.initFlag = true
  outSampReserve : n > 0 → p.ctl.outSampReserve = []
  dvd : numCh ∣ n
  length : p.dataOut.length + n = asked

/-- The loop keeps the balance, and ends with nothing more to read or a part of a block to
deliver. -/
theorem fill_spec (hnum : 0 < numCh) {asked : Nat} (n : Nat) (p : Progress)
    (h : Filling numCh start asked p n) :
    (p.fill numCh n).1.Balanced numCh start ∧ (p.fill numCh n).1.dataOut.length ≤ asked ∧
      ∀ m ∈ (p.fill numCh n).2, Filling numCh start asked (p.fill numCh n).1 m := by
  induction n using Nat.strong_induction_on generalizing p with
  | _ n ih =>
    have hlength := h.length
    unfold Progress.fill
    split
    · next hn =>
      have hnone := h.outSampReserve hn.2
      obtain ⟨hblock, hinit, hempty, hbalanced⟩ := readBlock_spec hnum h.balanced h.initFlag hnone
      have hkept : numCh ∣ (p.readBlock numCh).1.ctl.outSampReserve.length ∧
          (p.readBlock numCh).1.ctl.outSampReserve.length ≤ defaultNumsampsPerch * numCh := by
        rw [hempty]
        exact ⟨Nat.dvd_zero _, Nat.zero_le _⟩
      have hbalanced := hbalanced (p.readBlock numCh).2 (p.readBlock numCh).1.ctl.outSampReserve
        (by rw [hempty, append_nil]) hkept.1 hkept.2
      split
      · next hzero =>
        -- nothing came
        rw [eq_nil_of_length_eq_zero hzero, append_nil] at hbalanced
        exact ⟨hbalanced, hlength ▸ Nat.le_add_right _ _, nofun⟩
      · next hpos =>
        have hout := hblock.resolve_left fun hnil => hpos (by rw [hnil]; rfl)
        refine ih _ (Nat.sub_lt hn.2 (Nat.pos_of_ne_zero hpos)) _
          ⟨hbalanced, hinit, fun _ => hempty, ?_, ?_⟩
        · exact Nat.dvd_sub h.dvd (hout ▸ Nat.dvd_mul_left _ _)
        · show (p.dataOut ++ (p.readBlock numCh).2).length + _ = asked
          rw [length_append]
          omega
    · exact ⟨h.balanced, hlength ▸ Nat.le_add_right _ _, fun m hm => Option.mem_some.mp hm ▸ h⟩

variable {n : Nat} {e : ResampleCall}

theorem tail_spec (hnum : 0 < numCh) {asked : Nat} (h : Filling numCh start asked p n)
    (hn : n > 0) : (p.tail numCh n).Balanced numCh start ∧
    (p.tail numCh n).dataOut.length ≤ asked := by
  have hlength := h.length
  obtain ⟨hblock, hinit, hempty, hbalanced⟩ :=
    readBlock_spec hnum h.balanced h.initFlag (h.outSampReserve hn)
  unfold Progress.tail
  dsimp only
  split
  · next hzero =>
    have hnil := eq_nil_of_length_eq_zero hzero
    have hbalanced :=
      hbalanced [] (p.readBlock numCh).1.ctl.outSampReserve (by rw [hnil, hempty]; rfl)
      (hempty ▸ Nat.dvd_zero _) (hempty ▸ Nat.zero_le _)
    rw [append_nil] at hbalanced
    exact ⟨hbalanced, hlength ▸ Nat.le_add_right _ _⟩
  · next hpos =>
    have hout := hblock.resolve_left fun hnil => hpos (by rw [hnil]; rfl)
    have hdvd : numCh ∣ ((p.readBlock numCh).2.drop n).length := by
      rw [length_drop, hout]
      exact Nat.dvd_sub (Nat.dvd_mul_left _ _) h.dvd
    have hle : ((p.readBlock numCh).2.drop n).length ≤ defaultNumsampsPerch * numCh :=
      hout ▸ length_drop ▸ Nat.sub_le _ _
    refine ⟨hbalanced _ _ (take_append_drop _ _).symm hdvd hle, ?_⟩
    show (p.dataOut ++ (p.readBlock numCh).2.take n).length ≤ asked
    rw [length_append]
    have := length_take_le n (p.readBlock numCh).2
    omega

theorem getPcm_eq (s : Resampler) (n : Nat) :
    s.getPcm n = ({ s with outSampReserve := s.outSampReserve.drop n },
      s.outSampReserve.take n) := by
  unfold getPcm
  split
  · rfl
  · next hge =>
    have hge := Nat.not_lt.mp hge
    rw [drop_of_length_le hge, take_of_length_le hge]

theorem getUnproInput_eq (s : Resampler) (n : Nat) :
    s.getUnproInput n = ({ s with reserved := s.reserved.drop n }, s.reserved.take n) := by
  unfold getUnproInput
  split
  · next hge => rw [drop_of_length_le hge, take_of_length_le hge]
  · rfl

theorem drop_eq_nil_or (l : List Int) (n : Nat) : l.drop n = [] ∨ n - (l.take n).length = 0 := by
  rcases Nat.le_total l.length n with hle | hle
  · exact .inl (drop_of_length_le hle)
  · exact .inr (by rw [length_take_of_le hle, Nat.sub_self])

theorem take_append_append_drop {l x : List Int} (h : l.drop n = [] ∨ x = []) :
    l.take n ++ x ++ l.drop n = l ++ x := by
  rcases h with hnil | rfl
  · rw [hnil, append_nil, take_of_length_le (drop_eq_nil_iff.mp hnil)]
  · rw [append_nil, append_nil, take_append_drop]

theorem dvd_length_drop {l : List Int} (hl : numCh ∣ l.length) (hn : numCh ∣ n) :
    numCh ∣ (l.drop n).length ∧ numCh ∣ n - (l.take n).length := by
  refine ⟨length_drop ▸ Nat.dvd_sub hl hn, ?_⟩
  rcases drop_eq_nil_or l n with hnil | hzero
  · have hle : l.length ≤ n := drop_eq_nil_iff.mp hnil
    rw [take_of_length_le hle]
    exact Nat.dvd_sub hn hl
  · rw [hzero]
    exact Nat.dvd_zero _

theorem setUp_spec (hv : s.Valid numCh) (hlegal : e.Legal numCh) :
    let s' := if s.initFlag then s else s.setSampsNumRatio e.resampleType e.delta
    s'.Valid numCh ∧ s'.initFlag = true ∧ s'.reserved = s.reserved ∧
    s'.outSampReserve = s.outSampReserve := by
  cases hinit : s.initFlag with
  | true => exact ⟨hv, hinit, rfl, rfl⟩
  | false =>
    obtain ⟨hreserved, hout⟩ := hv.idle hinit
    obtain ⟨hpos, hle⟩ := hlegal.block
    have hready : (s.setSampsNumRatio e.resampleType e.delta).Ready :=
      ⟨⟨Int.le_toNat (Int.le_trans (by decide) hpos) |>.mpr hpos, Int.toNat_le.mpr hle⟩, rfl, rfl⟩
    exact ⟨⟨fun _ => ⟨hready, Nat.zero_le _⟩, nofun, Nat.dvd_zero _, Nat.dvd_zero _, Nat.zero_le _⟩,
      rfl, hreserved.symm, hout.symm⟩

theorem resampled_spec (hnum : 0 < numCh) (hv : s.Valid numCh) (hlegal : e.Legal numCh)
    (hn : numCh ∣ n) :
    (s.resampled numCh n e).Balanced numCh s ∧ (s.resampled numCh n e).dataOut.length ≤ n := by
  obtain ⟨hvalid, hinit, hreserved, hout⟩ := setUp_spec hv hlegal
  unfold resampled
  dsimp only at hvalid hinit hreserved hout ⊢
  generalize (if s.initFlag = true then s else s.setSampsNumRatio e.resampleType e.delta) = s' at *
  rw [getPcm_eq]
  obtain ⟨hdrop, hleft⟩ := dvd_length_drop hvalid.outSampReserve hn
  have hfilling : Filling numCh s n
      ⟨{ s' with outSampReserve := s'.outSampReserve.drop n }, e.reads, [], [],
        s'.outSampReserve.take n⟩ (n - (s'.outSampReserve.take n).length) := by
    refine ⟨⟨⟨hvalid.ready, fun hf => (nomatch hinit.symm.trans hf), hvalid.reserved, hdrop, ?_⟩,
      ?_, ?_,
      nofun, hlegal.reads⟩, hinit, fun hpos => ?_, hleft, ?_⟩
    · exact (length_drop ▸ Nat.sub_le _ _).trans hvalid.outSampReserve_le
    · rw [hreserved]
      exact (append_nil _).symm
    · rw [← hout]
      exact (take_append_drop n s'.outSampReserve).trans (append_nil _).symm
    · exact (drop_eq_nil_or s'.outSampReserve n).resolve_right (Nat.ne_of_gt hpos)
    · exact Nat.add_sub_of_le (length_take_le _ _)
  obtain ⟨hbalanced, hlength, hmore⟩ := fill_spec hnum _ _ hfilling
  generalize Progress.fill _ numCh _ = r at *
  obtain ⟨q, m⟩ := r
  cases m with
  | none => exact ⟨hbalanced, hlength⟩
  | some m =>
    dsimp only
    split
    · next hpos => exact tail_spec hnum (hmore m rfl) hpos
    · exact ⟨hbalanced, hlength⟩

/-! ### The resampler switched off -/

theorem drainOutput_eq :
    s.drainOutput n =
      ({ s with outSampReserve := s.outSampReserve.drop n }, s.outSampReserve.take n) := by
  unfold drainOutput
  split
  · exact getPcm_eq s n
  · next hzero =>
    have hnil := eq_nil_of_length_eq_zero (Nat.eq_zero_of_not_pos hzero)
    rw [hnil, drop_nil, take_nil, ← hnil]

theorem drainInput_eq :
    s.drainInput n = ({ s with reserved := s.reserved.drop n }, s.reserved.take n) := by
  unfold drainInput
  split
  · exact getUnproInput_eq s n
  · next hzero =>
    have hnil := eq_nil_of_length_eq_zero (Nat.eq_zero_of_not_pos hzero)
    rw [hnil, drop_nil, take_nil, ← hnil]

theorem settle_spec (hv : s.Valid numCh) :
    s.settle.Valid numCh ∧ s.settle.outSampReserve = s.outSampReserve ∧
    s.settle.reserved = s.reserved := by
  unfold settle
  split
  · next hzero =>
    have hout := eq_nil_of_length_eq_zero hzero.1
    have hreserved := eq_nil_of_length_eq_zero hzero.2
    exact ⟨⟨nofun, fun _ => ⟨hreserved, hout⟩, hv.reserved, hv.outSampReserve,
      hv.outSampReserve_le⟩, rfl,
      rfl⟩
  · exact ⟨hv, rfl, rfl⟩

theorem drained_valid (hv : s.Valid numCh) {m : Nat} (hn : numCh ∣ n) (hm : numCh ∣ m) :
    Valid numCh { s with
      outSampReserve := s.outSampReserve.drop n, reserved := s.reserved.drop m } := by
  have hle (l : List Int) (k : Nat) : (l.drop k).length ≤ l.length := length_drop ▸ Nat.sub_le _ _
  refine ⟨fun hinit => ?_, fun hinit => ?_, (dvd_length_drop hv.reserved hm).1,
    (dvd_length_drop hv.outSampReserve hn).1, (hle _ _).trans hv.outSampReserve_le⟩
  · obtain ⟨hready, hreserved⟩ := hv.ready hinit
    exact ⟨hready, (hle _ _).trans hreserved⟩
  · obtain ⟨hreserved, hout⟩ := hv.idle hinit
    rw [hreserved, hout]
    exact ⟨drop_nil, drop_nil⟩

theorem length_readDirect_le (n : Nat) (reads : List (List Int)) :
    (readDirect n reads).length ≤ n := by
  unfold readDirect dspRead
  split
  · exact length_take_le _ _
  · exact Nat.zero_le _

theorem passed_spec (hv : s.Valid numCh) (hlegal : e.Legal numCh) (hn : numCh ∣ n) :
    (s.passed n e).Balanced numCh s ∧ (s.passed n e).dataOut.length ≤ n := by
  have hm := (dvd_length_drop hv.outSampReserve hn).2
  obtain ⟨hvalid, hout, hreserved⟩ := settle_spec (drained_valid hv hn hm)
  have hfirst : (s.outSampReserve.take n).length ≤ n := length_take_le _ _
  have hkept := drop_eq_nil_or s.outSampReserve n
  unfold passed
  rw [drainOutput_eq]
  dsimp only
  rw [drainInput_eq]
  dsimp only
  -- `m` samples are to be delivered after the first buffer, and `k` after the second one
  generalize hmdef : n - (s.outSampReserve.take n).length = m at *
  have hsecond : (s.reserved.take m).length ≤ m := length_take_le _ _
  have hkept' := drop_eq_nil_or s.reserved m
  generalize hkdef : m - (s.reserved.take m).length = k at *
  have hthird := length_readDirect_le k e.reads
  generalize readDirect k e.reads = got at *
  have hinput : s.reserved.drop m = [] ∨ got = [] := by
    refine hkept'.imp_right fun hk => eq_nil_of_length_eq_zero ?_
    omega
  have houtput : s.outSampReserve.drop n = [] ∨ s.reserved.take m ++ got = [] := by
    refine hkept.imp_right fun hm => eq_nil_of_length_eq_zero ?_
    rw [length_append]
    omega
  refine ⟨⟨hvalid, ?_, ?_, ?_, fun c hc => hlegal.reads c (mem_of_mem_tail hc)⟩, ?_⟩
  · show s.reserved.take m ++ (got ++ []) ++ _ = s.reserved ++ got
    rw [hreserved, append_nil]
    exact take_append_append_drop hinput
  · show s.outSampReserve.take n ++ s.reserved.take m ++ got ++ _ =
      s.outSampReserve ++ (s.reserved.take m ++ (got ++ []))
    rw [hout, append_nil, append_assoc (s.outSampReserve.take n)]
    exact take_append_append_drop houtput
  · intro piece hpiece
    rcases mem_pair.mp hpiece with rfl | rfl <;> exact trivial
  · rw [length_append, length_append]
    omega

/-! ### Calls -/

theorem apiNormal_spec (hnum : numCh = 1 ∨ numCh = 2) (hv : s.Valid numCh)
    (hlegal : e.Legal numCh) :
    (s.apiNormal numCh e).Balanced numCh s ∧ 2 * (s.apiNormal numCh e).dataOut.length ≤ e.size := by
  have hpos : 0 < numCh := by omega
  have hn : numCh ∣ min (e.size / 2) dateTempSize := by
    have hhalf : numCh ∣ e.size / 2 := Nat.dvd_div_of_mul_dvd hlegal.size
    have htemp : numCh ∣ dateTempSize := by rcases hnum with rfl | rfl <;> decide
    rcases Nat.le_total _ dateTempSize with hle | hle
    · rwa [Nat.min_eq_left hle]
    · rwa [Nat.min_eq_right hle]
  have hsize {k : Nat} (hk : k ≤ min (e.size / 2) dateTempSize) : 2 * k ≤ e.size := by omega
  have hresampled := resampled_spec hpos hv hlegal hn
  have hpassed := passed_spec hv hlegal hn
  unfold apiNormal
  split
  · split
    · exact ⟨hresampled.1, hsize hresampled.2⟩
    · split
      · next hzero =>
        -- the resampler is stopped and set up again for the other type
        have hstopped : s.stopProcess.Valid numCh :=
          ⟨nofun, fun _ => ⟨eq_nil_of_length_eq_zero hzero.2, eq_nil_of_length_eq_zero hzero.1⟩,
            hv.reserved, hv.outSampReserve, hv.outSampReserve_le⟩
        obtain ⟨⟨hvalid, hconsumed, hdelivered, hwhole, hreads⟩, hlength⟩ :=
          resampled_spec hpos hstopped hlegal hn
        exact ⟨⟨hvalid, hconsumed, hdelivered, hwhole, hreads⟩, hsize hlength⟩
      · exact ⟨hpassed.1, hsize hpassed.2⟩
  · exact ⟨hpassed.1, hsize hpassed.2⟩

theorem Resampler.Valid.inArrays (hv : s.Valid numCh) :
    s.reserved.length ≤ maxNumsampsPerch * numCh ∧
    s.outSampReserve.length ≤ maxNumsampsPerch * numCh := by
  refine ⟨?_, hv.outSampReserve_le.trans (Nat.mul_le_mul_right _ (by decide))⟩
  cases hinit : s.initFlag with
  | true =>
    obtain ⟨hready, hle⟩ := hv.ready hinit
    exact hle.trans (Nat.mul_le_mul_right _ hready.1.2)
  | false =>
    rw [(hv.idle hinit).1]
    exact Nat.zero_le _

theorem initial_valid (numCh : Nat) : initial.Valid numCh :=
  ⟨nofun, fun _ => ⟨rfl, rfl⟩, Nat.dvd_zero _, Nat.dvd_zero _, Nat.zero_le _⟩

/-- For one or two channels, calls that ask for and read whole frames, and settings for which the
blocks fit into the arrays. -/
theorem resample_conserved (numCh : Nat) (hnum : numCh = 1 ∨ numCh = 2) (es : List ResampleCall)
    (hlegal : ∀ e ∈ es, e.Legal numCh) :
    (resampler numCh).recorded.Always (Conserved numCh) (.initial, []) es := by
  have hlegal : (resampler numCh).recorded.Always (fun _ e => e.Legal numCh) (.initial, []) es :=
    always_of_mem hlegal
  refine hlegal.of_invariant (I := fun s : Resampler × List _ =>
    s.1.Valid numCh ∧
      total consumed s.2 ++ s.1.reserved =
        total read s.2 ∧
      total delivered s.2 ++ s.1.outSampReserve =
        total produced s.2)
    (fun s e h hl => ?_) ⟨initial_valid numCh, rfl, rfl⟩
  obtain ⟨hv, hconsumed, hdelivered⟩ := h
  obtain ⟨hbalanced, hsize⟩ := apiNormal_spec hnum hv hl
  have hconsumed := (total_snoc_iff (x := (e, ((resampler numCh).step s.1 e).2)) hconsumed).mpr
    hbalanced.consumed
  have hdelivered := (total_snoc_iff (x := (e, ((resampler numCh).step s.1 e).2)) hdelivered).mpr
    hbalanced.delivered
  exact ⟨⟨hconsumed, hdelivered, hbalanced.whole, hsize, hbalanced.valid.inArrays⟩, hbalanced.valid,
    hconsumed, hdelivered⟩

end Conservation

/-- Two channels: a block is delivered in two calls, the second one also reads a part of the next
block, and the third one finds the resampler switched off. -/
theorem resample_conserved_switchedOff :
    (resampler 2).recorded.Always (Conserved 2) (.initial, [])
      [⟨200, true, .down, 1, [List.replicate 258 7, List.replicate 20 8]⟩,
        ⟨400, true, .down, 1, [List.replicate 100 9]⟩, ⟨800, false, .up, 1, [[1, 2, 3, 4]]⟩] := by
  refine resample_conserved 2 (.inr rfl) _ ?_
  simp only [forall_mem_cons]
  refine ⟨⟨by decide, by decide, ?_⟩, ⟨by decide, by decide, ?_⟩, ⟨by decide, by decide, by decide⟩,
    nofun⟩
  all_goals
    simp only [forall_mem_cons, length_replicate]
    decide

end AmlogicHal.Amadec
