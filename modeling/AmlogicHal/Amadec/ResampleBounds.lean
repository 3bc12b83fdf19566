import AmlogicHal.Amadec.ResampleApi
import AmlogicHal.Lib.Traced

/-!
# The arrays of the resampler

The linear resampler of `af_resample_api_normal` works in arrays of 129 samples per channel, for at
most two channels, and in two tables of 129 entries. A block has 128 frames and `delta` more or
less, where `delta` is the value of a property, or 2 for a wifi display. Nothing compares it with
the size of the arrays.

`Resample` has the samples; here are the counters and every access to the arrays, with the integers
of the source. `resample_inBounds_iff`: all accesses of all runs are inside of the arrays exactly if
every block has between 1 and 129 frames. With `delta` 2 and `RESAMPLE_TYPE_DOWN` a block has 130
(`wifiDisplay_outOfBounds`).
-/

namespace AmlogicHal.Amadec

open Traced Ensures List

/-! ## The model -/

/-- The arrays with `MAX_NUMSAMPS_PERCH` samples for each channel, and the tables. -/
inductive SampleArray
  | interpolateCoef
  | interpolateIndex
  | reservedBuf
  | outSampReserveBuf
  | dataIn
  | outbuftmp16
  | buf16In
deriving DecidableEq

def SampleArray.capacity : SampleArray → Nat
  | .interpolateCoef | .interpolateIndex | .buf16In => maxNumsampsPerch
  | .reservedBuf | .outSampReserveBuf | .dataIn | .outbuftmp16 => maxNumsampsPerch * 2

/-- The use of `len` entries from `start` on. A negative length is a huge one for `memcpy`. -/
structure SampleAccess where
  array : SampleArray
  start : Int
  len : Int
deriving DecidableEq

open SampleAccess

def SampleAccess.InBounds (a : SampleAccess) : Prop :=
  0 ≤ a.start ∧ 0 ≤ a.len ∧ a.start + a.len ≤ a.array.capacity

/-- The counters of `af_resample_ctl_t` and the table of positions. The numbers of samples that are
kept are of type `short` in the source; they fit as long as the arrays hold so many. -/
structure ResampleCounts where
  sampNumIn : Int
  sampNumOut : Nat
  indexArray : List Int
  reservedSampsValid : Nat
  outSampReserveLen : Nat
  initFlag : Bool
  lastResamType : ResampleType

open ResampleCounts

def ResampleCounts.initial : ResampleCounts := ⟨0, 0, [], 0, 0, false, .none⟩

/-- A call, with what `dsp_read` returns, one time after the other. -/
structure CountedCall where
  size : Nat
  enableResample : Bool
  resampleType : ResampleType
  delta : Int
  answers : List Int

structure CountState where
  ctl : ResampleCounts
  answers : List Int

abbrev Counted (α : Type) := Traced SampleAccess CountState α

def touch (array : SampleArray) (start len : Int) : Counted Unit := emit ⟨array, start, len⟩

/-- The output goes to `date_temp` or to one of the arrays. -/
def touchOutput (dest : Option SampleArray) (start len : Int) : Counted Unit :=
  match dest with
  | none => pure ()
  | some array => touch array start len

def setCtl (f : ResampleCounts → ResampleCounts) : Counted Unit :=
  modify fun s => { s with ctl := f s.ctl }

def toShort (x : Int) : Int := x.bmod 65536

/-- The loop of `af_resample_linear_coef_get`, with the fraction and the position that were
reached. -/
def indexSteps (step : Int) : Nat → Int → Int → List Int
  | 0, _, _ => []
  | k + 1, forward, pos =>
    toShort (pos + (forward + step) / 16384) ::
      indexSteps step k ((forward + step) % 16384) (pos + (forward + step) / 16384)

/-- `InterpolateIndexArray` for blocks of `sampNumIn` frames. -/
def indexTable (sampNumIn : Int) : List Int :=
  if sampNumIn = defaultNumsampsPerch then (range defaultNumsampsPerch).map Int.ofNat
  else
    0 :: indexSteps (Int.tdiv ((sampNumIn - 1) * 16384) (defaultNumsampsPerch - 1))
      (defaultNumsampsPerch - 2) 0 0 ++ [((defaultNumsampsPerch - 1 : Nat) : Int)]

/-- `af_resample_linear_coef_get` writes the first 128 entries of both tables. -/
def writeTables : Counted Unit :=
  forRange (fun i => do
    touch .interpolateIndex i 1
    touch .interpolateCoef i 1) defaultNumsampsPerch

def setSampsNumRatio (e : CountedCall) : Counted Unit := do
  setCtl fun c =>
    { c with
      lastResamType := e.resampleType
      sampNumIn := blockSize e.resampleType e.delta
      sampNumOut := defaultNumsampsPerch
      indexArray := indexTable (blockSize e.resampleType e.delta)
      reservedSampsValid := 0
      outSampReserveLen := 0
      initFlag := true }
  writeTables

def ensureInit (e : CountedCall) : Counted Unit :=
  read fun s => if s.ctl.initFlag then pure () else setSampsNumRatio e

def stopProcess : Counted Unit :=
  setCtl fun c => { c with initFlag := false, lastResamType := .none }

/-- `af_get_pcm_in_resampler`: how many samples it gives. -/
def getPcmInResampler (n : Nat) : Counted Nat :=
  read fun s =>
    let len := s.ctl.outSampReserveLen
    if n < len then do
      touch .outSampReserveBuf 0 n
      touch .outSampReserveBuf n (len - n : Nat)
      touch .outSampReserveBuf 0 (len - n : Nat)
      setCtl fun c => { c with outSampReserveLen := len - n }
      pure n
    else do
      touch .outSampReserveBuf 0 len
      setCtl fun c => { c with outSampReserveLen := 0 }
      pure len

/-- `af_get_unpro_inputsampnum`: how many samples it gives. -/
def getUnproInputsampnum (n : Nat) : Counted Nat :=
  read fun s =>
    let valid := s.ctl.reservedSampsValid
    if valid ≤ n then do
      touch .reservedBuf 0 valid
      setCtl fun c => { c with reservedSampsValid := 0 }
      pure valid
    else do
      touch .reservedBuf 0 n
      touch .reservedBuf n (valid - n : Nat)
      touch .reservedBuf 0 (valid - n : Nat)
      setCtl fun c => { c with reservedSampsValid := valid - n }
      pure n

/-- `dsp_pcm_read` into `data_in`: the number of samples. The length is an `int`. -/
def dspPcmReadIn (len : Int) : Counted Nat :=
  read fun s => do
    let got := dspPcmReadBytes (len.bmod (2 ^ 32)).toNat 0 s.answers
    touch .dataIn 0 ((got.1 + 1) / 2 : Nat)
    modify fun s => { s with answers := got.2 }
    pure (got.1 / 2)

variable (numCh : Nat)

/-- The samples of one channel go to `buf16_in`. The block begins at `first` in `source`. -/
def gatherChannel (source : SampleArray) (first valid : Int) (chId : Nat) : Counted Unit :=
  forRange (fun i => do
    touch source (first + (numCh * i + chId : Nat)) 1
    touch .buf16In i 1) valid.toNat

def outputChannel (c : ResampleCounts) (dest : Option SampleArray) (outputOffset : Nat)
    (valid : Int) (chId : Nat) : Counted Unit := do
  forRange (fun i => do
    touch .interpolateIndex i 1
    touch .interpolateCoef i 1
    touch .buf16In (c.indexArray.getD i 0) 1
    touch .buf16In (c.indexArray.getD i 0 + 1) 1
    touchOutput dest (outputOffset + numCh * i + chId : Nat) 1) (c.sampNumOut - 1)
  touch .buf16In (valid - 1) 1
  touchOutput dest (outputOffset + numCh * (c.sampNumOut - 1) + chId : Nat) 1

/-- A block. `buf16_in_valid` is a `short`. -/
def interpolateBlock (source : SampleArray) (first : Int) (dest : Option SampleArray)
    (outputOffset : Nat) : Counted Unit :=
  read fun s => forRange (fun chId => do
    gatherChannel numCh source first (toShort s.ctl.sampNumIn) chId
    outputChannel numCh s.ctl dest outputOffset (toShort s.ctl.sampNumIn) chId) numCh

/-- The loop over the blocks behind the first one, with the frames that are left, and the places in
the input and the output. -/
def moreInput (numCh : Nat) (dest : Option SampleArray) (sampNumIn rest inputOffset : Int)
    (outputOffset : Nat) : Counted (Int × Int × Nat) :=
  -- the source does not look at the second condition, without which the loop does not end
  if rest > sampNumIn ∧ sampNumIn > 0 then
    interpolateBlock numCh .dataIn inputOffset dest outputOffset >>= fun _ =>
      moreInput numCh dest sampNumIn (rest - sampNumIn) (inputOffset + sampNumIn * numCh)
        (outputOffset + defaultNumsampsPerch * numCh)
  else pure (rest, inputOffset, outputOffset)
termination_by rest.toNat
decreasing_by
  next h => omega

def keepInput (numIn : Nat) : Counted Nat :=
  read fun s => do
    touch .dataIn 0 numIn
    touch .reservedBuf s.ctl.reservedSampsValid numIn
    setCtl fun c => { c with reservedSampsValid := c.reservedSampsValid + numIn }
    pure 0

def keepUnused (numCh numIn : Nat) (rest inputOffset : Int) : Counted Unit :=
  if inputOffset < numIn then do
    touch .reservedBuf 0 (rest * numCh)
    touch .dataIn inputOffset (rest * numCh)
    setCtl fun c => { c with reservedSampsValid := (rest * numCh).toNat }
  else setCtl fun c => { c with reservedSampsValid := 0 }

/-- The end of `af_resample_process_linear_inner`. -/
def keepRest (numCh numIn : Nat) (dest : Option SampleArray) (rest inputOffset : Int)
    (outputOffset : Nat) : Counted Nat := do
  let curOutSampReserveNum := outputOffset % (defaultNumsampsPerch * numCh)
  setCtl fun c => { c with outSampReserveLen := curOutSampReserveNum }
  touch .outSampReserveBuf 0 curOutSampReserveNum
  touchOutput dest (outputOffset - curOutSampReserveNum : Nat) curOutSampReserveNum
  keepUnused numCh numIn rest inputOffset
  pure (outputOffset - curOutSampReserveNum)

def fillBlock (numCh numIn : Nat) (dest : Option SampleArray) : Counted Nat :=
  read fun s => do
    let pre := s.ctl.reservedSampsValid / numCh
    let inputOffset := (s.ctl.sampNumIn - pre) * numCh
    touch .dataIn 0 inputOffset
    touch .reservedBuf s.ctl.reservedSampsValid inputOffset
    touch .outSampReserveBuf 0 s.ctl.outSampReserveLen
    touchOutput dest 0 s.ctl.outSampReserveLen
    interpolateBlock numCh .reservedBuf 0 dest s.ctl.outSampReserveLen
    setCtl fun c => { c with reservedSampsValid := 0 }
    let r ← moreInput numCh dest s.ctl.sampNumIn
      ((pre + numIn / numCh : Nat) - s.ctl.sampNumIn) inputOffset
      (s.ctl.outSampReserveLen + s.ctl.sampNumOut * numCh)
    keepRest numCh numIn dest r.1 r.2.1 r.2.2

/-- `af_resample_process_linear_inner`: the number of samples of the output. -/
def processLinearInner (numCh numIn : Nat) (dest : Option SampleArray) (e : CountedCall) :
    Counted Nat :=
  ensureInit e >>= fun _ => read fun s =>
    if (s.ctl.reservedSampsValid / numCh + numIn / numCh : Nat) <
      s.ctl.sampNumIn then keepInput numIn
    else fillBlock numCh numIn dest

def readBlockTo (dest : Option SampleArray) (e : CountedCall) : Counted Nat :=
  read fun s => do
    let numIn ← dspPcmReadIn (2 * (s.ctl.sampNumIn * numCh - s.ctl.reservedSampsValid))
    processLinearInner numCh numIn dest e

/-- The loop while at least a whole block is asked for, with the number of samples that are left to
be delivered, or `none` if the call ends because nothing came. -/
def fillWhole (numCh n : Nat) (e : CountedCall) : Counted (Option Nat) :=
  if defaultNumsampsPerch * numCh ≤ n ∧ 0 < n then
    readBlockTo numCh none e >>= fun cnt =>
      if cnt = 0 then pure none else fillWhole numCh (n - cnt) e
  else pure (some n)
termination_by n
decreasing_by
  next hn hc => exact Nat.sub_lt hn.2 (Nat.pos_of_ne_zero hc)

def fillLast (numCh n : Nat) (e : CountedCall) : Counted Unit :=
  readBlockTo numCh (some .outbuftmp16) e >>= fun cnt =>
    if cnt = 0 then pure ()
    else do
      touch .outbuftmp16 0 n
      touch .outbuftmp16 n (cnt - n)
      touch .outSampReserveBuf 0 (cnt - n)
      setCtl fun c => { c with outSampReserveLen := cnt - n }

def countResampled (numCh n : Nat) (e : CountedCall) : Counted Unit := do
  ensureInit e
  let g ← getPcmInResampler n
  let rest ← fillWhole numCh (n - g) e
  match rest with
  | none => pure ()
  | some n => if n > 0 then fillLast numCh n e else pure ()

def drainOutputCount (n : Nat) : Counted Nat :=
  read fun s => if s.ctl.outSampReserveLen > 0 then getPcmInResampler n else pure 0

def drainInputCount (n : Nat) : Counted Nat :=
  read fun s => if s.ctl.reservedSampsValid > 0 then getUnproInputsampnum n else pure 0

def settleCount : Counted Unit :=
  read fun s =>
    if s.ctl.outSampReserveLen = 0 ∧ s.ctl.reservedSampsValid = 0 then stopProcess else pure ()

/-- The call with the resampler switched off. What is read goes to `date_temp`. -/
def countPassed (n : Nat) : Counted Unit := do
  let g ← drainOutputCount n
  let _ ← drainInputCount (n - g)
  settleCount

def countApiNormal (e : CountedCall) : Counted Unit :=
  read fun s =>
    let n := min (e.size / 2) dateTempSize
    if e.enableResample then
      if s.ctl.lastResamType = e.resampleType then countResampled numCh n e
      else if s.ctl.outSampReserveLen = 0 ∧ s.ctl.reservedSampsValid = 0 then
        stopProcess >>= fun _ => countResampled numCh n e
      else countPassed n
    else countPassed n

def countedResampler : Machine ResampleCounts CountedCall (List SampleAccess) where
  step s e :=
    let r := (countApiNormal numCh e).run ⟨s, e.answers⟩
    (r.st.ctl, r.log)

def SamplesInBounds (s : ResampleCounts) (e : CountedCall) : Prop :=
  ∀ a ∈ ((countedResampler numCh).step s e).2, a.InBounds

/-! ## The table of positions -/

theorem toShort_eq {x : Int} (hnonneg : 0 ≤ x) (hle : x < 32768) : toShort x = x :=
  Int.bmod_eq_of_le (by omega) (by omega)

theorem indexSteps_le {step : Int} (limit : Int) (hstep : 0 ≤ step) (hlimit : limit < 32768) :
    ∀ (k : Nat) {forward pos : Int}, 0 ≤ forward → 0 ≤ pos →
      pos * 16384 + forward + k * step < (limit + 1) * 16384 →
      ∀ x ∈ indexSteps step k forward pos, 0 ≤ x ∧ x ≤ limit
  | 0, _, _, _, _, _ => fun _ hx => absurd hx not_mem_nil
  | k + 1, forward, pos, hforward, hpos, hsum => by
    have hk : ((k + 1 : Nat) : Int) * step = k * step + step := by
      push_cast
      ring
    have hrest : 0 ≤ (k : Int) * step := Int.mul_nonneg (Int.natCast_nonneg k) hstep
    intro x hx
    rcases mem_cons.mp hx with rfl | hx
    · rw [toShort_eq (by omega) (by omega)]
      omega
    · exact indexSteps_le limit hstep hlimit k (by omega) (by omega) (by omega) x hx

theorem indexTable_le {b : Int} (hpos : 1 ≤ b) (hle : b ≤ maxNumsampsPerch) :
    ∀ x ∈ indexTable b, 0 ≤ x ∧ x ≤ 127 := by
  unfold maxNumsampsPerch at hle
  unfold indexTable
  split
  · intro x hx
    obtain ⟨i, hi, rfl⟩ := mem_map.mp hx
    have hi' := mem_range.mp hi
    unfold defaultNumsampsPerch at hi'
    show 0 ≤ (i : Int) ∧ (i : Int) ≤ 127
    omega
  · intro x hx
    rcases mem_append.mp hx with hx | hx
    · rcases mem_cons.mp hx with rfl | hx
      · decide
      · have hstep : Int.tdiv ((b - 1) * 16384) ((defaultNumsampsPerch : Int) - 1) =
            (b - 1) * 16384 / 127 := Int.tdiv_eq_ediv_of_nonneg (by omega)
        rw [hstep] at hx
        have hbound :=
          indexSteps_le 126 (by omega) (by decide) _ (Int.le_refl 0) (Int.le_refl 0) ?_ x hx
        · omega
        · show 0 * 16384 + 0 + 126 * ((b - 1) * 16384 / 127) < (126 + 1) * 16384
          omega
    · cases mem_singleton.mp hx
      decide

theorem getD_indexTable_le {b : Int} (hpos : 1 ≤ b) (hle : b ≤ maxNumsampsPerch) (i : Nat) :
    0 ≤ (indexTable b).getD i 0 ∧ (indexTable b).getD i 0 ≤ 127 := by
  rw [getD_eq_getElem?_getD]
  cases hget : (indexTable b)[i]? with
  | none => decide
  | some x => exact indexTable_le hpos hle x (mem_of_getElem? hget)

theorem indexSteps_eq (step k forward pos : Nat)
    (hsum : 16384 * pos + forward + k * step < 536870912) :
    indexSteps step k forward pos = (coefSteps step k forward pos).map fun x => (x.1 : Int) := by
  induction k generalizing forward pos with
  | zero => rfl
  | succ k ih =>
    rw [Nat.add_mul, Nat.one_mul] at hsum
    have hpos : ((pos : Int) + (forward + step) / 16384) =
        (pos + (forward + step) / 16384 : Nat) := by
      omega
    have hforward : ((forward : Int) + step) % 16384 = ((forward + step) % 16384 : Nat) := by omega
    have hrest := ih ((forward + step) % 16384) (pos + (forward + step) / 16384) (by omega)
    unfold indexSteps coefSteps
    rw [hpos, hforward, toShort_eq (by omega) (by omega), hrest, map_cons]

theorem indexTable_eq_linearCoefGet {n : Nat} (hpos : 1 ≤ n) (hle : n ≤ maxNumsampsPerch) :
    indexTable n = (linearCoefGet n defaultNumsampsPerch).map fun x => (x.1 : Int) := by
  unfold indexTable linearCoefGet
  rcases eq_or_ne n defaultNumsampsPerch with rfl | hne
  · rfl
  · unfold maxNumsampsPerch at hle
    have hstep : Int.tdiv (((n : Int) - 1) * 16384) ((defaultNumsampsPerch : Int) - 1) =
        ((n - 1) * 16384 / (defaultNumsampsPerch - 1) : Nat) := by
      rw [Int.tdiv_eq_ediv_of_nonneg (by omega)]
      unfold defaultNumsampsPerch
      omega
    have hsteps := indexSteps_eq ((n - 1) * 16384 / (defaultNumsampsPerch - 1))
      (defaultNumsampsPerch - 2) 0 0 (by unfold defaultNumsampsPerch; omega)
    rw [if_neg (fun h => hne (Int.ofNat_inj.mp h)), if_neg hne, hstep, map_append, map_cons]
    exact congrArg (fun steps => (0 : Int) :: steps ++ [_]) hsteps

/-! ## One block -/

section Accesses

variable {numCh : Nat} {s : CountState} {e : CountedCall} {dest : Option SampleArray}
  (array : SampleArray)

@[simp] theorem touch_run (start len : Int) :
    (touch array start len).run s = ⟨(), s, [⟨array, start, len⟩]⟩ := rfl

@[simp] theorem touch_all (start len : Int) (s : CountState) :
    (touch array start len).All SampleAccess.InBounds s ↔
    0 ≤ start ∧ 0 ≤ len ∧ start + len ≤ array.capacity :=
  all_emit _ s

theorem touch_one {array : SampleArray} {i : Int} (hnonneg : 0 ≤ i) (hlt : i < array.capacity)
    (s : CountState) : (touch array i 1).All SampleAccess.InBounds s :=
  (touch_all array i 1 s).mpr ⟨hnonneg, by decide, hlt⟩

theorem touch_wide {array : SampleArray} (harray : array.capacity = maxNumsampsPerch * 2)
    {start len : Int} (h : 0 ≤ start ∧ 0 ≤ len ∧ start + len ≤ (maxNumsampsPerch * 2 : Nat))
    (s : CountState) : (touch array start len).All SampleAccess.InBounds s := by
  rwa [touch_all, harray]

theorem touch_table {array : SampleArray} (harray : array.capacity = maxNumsampsPerch) {i : Nat}
    (hi : i < maxNumsampsPerch) (s : CountState) : (touch array i 1).All SampleAccess.InBounds s :=
  touch_one (Int.natCast_nonneg i) (harray ▸ Int.ofNat_lt.mpr hi) s

theorem touch_keeps (start len : Int) : (touch array start len).Keeps := keeps_emit _

theorem touch_before {α : Type} {array : SampleArray} {start len : Int} {f : Unit → Counted α}
    {Q : α → CountState → Prop} (harray : array.capacity = maxNumsampsPerch * 2)
    (h : 0 ≤ start ∧ 0 ≤ len ∧ start + len ≤ (maxNumsampsPerch * 2 : Nat))
    (hf : (f ()).Ensures SampleAccess.InBounds s Q) :
    (touch array start len >>= f).Ensures SampleAccess.InBounds s Q :=
  (touch_keeps array start len).before (touch_wide harray h s) hf

theorem touchOutput_keeps (dest : Option SampleArray) (start len : Int) :
    (touchOutput dest start len).Keeps := by
  intro s
  cases dest <;> rfl

/-- The output goes to `date_temp`, or to an array for two channels. -/
def WideOutput (dest : Option SampleArray) : Prop :=
  ∀ array ∈ dest, array.capacity = maxNumsampsPerch * 2

theorem touchOutput_all (hdest : WideOutput dest) {start len : Int} (hstart : 0 ≤ start)
    (hlen : 0 ≤ len) (hfit : start + len ≤ (maxNumsampsPerch * 2 : Nat)) (s : CountState) :
    (touchOutput dest start len).All SampleAccess.InBounds s := by
  cases dest with
  | none => exact (all_pure () s).mpr trivial
  | some array => exact touch_wide (hdest array rfl) ⟨hstart, hlen, hfit⟩ s

variable (f : ResampleCounts → ResampleCounts)

@[simp] theorem setCtl_run : (setCtl f).run s = ⟨(), { s with ctl := f s.ctl }, []⟩ := rfl

@[simp] theorem setCtl_all (s : CountState) : (setCtl f).All SampleAccess.InBounds s ↔ True :=
  all_modify _ s

structure ResampleCounts.SetUp (numCh : Nat) (c : ResampleCounts) : Prop where
  block : 1 ≤ c.sampNumIn ∧ c.sampNumIn ≤ maxNumsampsPerch
  sampNumOut : c.sampNumOut = defaultNumsampsPerch
  indexArray : c.indexArray = indexTable c.sampNumIn
  reserved : c.reservedSampsValid ≤ c.sampNumIn * numCh
  initFlag : c.initFlag = true

theorem gatherChannel_keeps (source : SampleArray) (first valid : Int) (chId : Nat) :
    (gatherChannel numCh source first valid chId).Keeps :=
  Keeps.forRange (fun _ => (touch_keeps _ _ _).bind fun _ => touch_keeps _ _ _) _

variable {source : SampleArray} {first : Int} {outputOffset : Nat}

theorem gatherChannel_all {valid : Int} {chId : Nat} (hchId : chId < numCh) (hfirst : 0 ≤ first)
    (hvalid : valid ≤ maxNumsampsPerch) (hfit : first + valid * numCh ≤ source.capacity) :
    (gatherChannel numCh source first valid chId).All SampleAccess.InBounds s := by
  refine Keeps.all_forRange (fun _ => (touch_keeps _ _ _).bind fun _ => touch_keeps _ _ _)
    fun i hi => ?_
  have hlast : (i + 1 : Int) * numCh ≤ valid * numCh :=
    Int.mul_le_mul_of_nonneg_right (by omega) (by omega)
  have hi' : (i : Int) < valid := by omega
  have hbefore : (0 : Int) ≤ numCh * i := Int.natCast_nonneg _
  rw [Int.add_mul, Int.one_mul, Int.mul_comm] at hlast
  refine (touch_keeps _ _ _).all_bind.mpr ⟨touch_one ?_ ?_ s, touch_one ?_ ?_ s⟩
  · omega
  · omega
  · exact Int.natCast_nonneg i
  · exact Int.lt_of_lt_of_le hi' hvalid

theorem outputSample_keeps (pos : Int) (i place : Nat) : Traced.Keeps (do
    touch .interpolateIndex i 1
    touch .interpolateCoef i 1
    touch .buf16In pos 1
    touch .buf16In (pos + 1) 1
    touchOutput dest place 1 : Counted Unit) :=
  (touch_keeps _ _ _).bind fun _ => (touch_keeps _ _ _).bind fun _ =>
    (touch_keeps _ _ _).bind fun _ =>
    (touch_keeps _ _ _).bind fun _ => touchOutput_keeps _ _ _

theorem outputChannel_keeps (c : ResampleCounts) (dest : Option SampleArray) (outputOffset : Nat)
    (valid : Int) (chId : Nat) : (outputChannel numCh c dest outputOffset valid chId).Keeps :=
  (Keeps.forRange (fun _ => outputSample_keeps _ _ _) _).bind fun _ =>
    (touch_keeps _ _ _).bind fun _ =>
    touchOutput_keeps _ _ _

theorem outputChannel_all {c : ResampleCounts} (h : c.SetUp numCh) (hdest : WideOutput dest)
    (houtput : outputOffset + defaultNumsampsPerch * numCh ≤ maxNumsampsPerch * 2) {chId : Nat}
    (hchId : chId < numCh) :
    (outputChannel numCh c dest outputOffset c.sampNumIn chId).All SampleAccess.InBounds s := by
  obtain ⟨hpos, hle⟩ := h.block
  have hplace : ∀ i < defaultNumsampsPerch, ∀ t : CountState,
      (touchOutput dest (outputOffset + numCh * i + chId : Nat) 1).All SampleAccess.InBounds t := by
    intro i hi t
    have hlast : numCh * (i + 1) ≤ numCh * defaultNumsampsPerch := Nat.mul_le_mul_left numCh hi
    rw [Nat.mul_succ, Nat.mul_comm numCh defaultNumsampsPerch] at hlast
    exact touchOutput_all hdest (Int.natCast_nonneg _) (by decide) (by omega) t
  unfold outputChannel
  rw [h.sampNumOut, h.indexArray]
  refine (Keeps.forRange (fun _ => outputSample_keeps _ _ _) _).all_bind.mpr
    ⟨Keeps.all_forRange (fun _ => outputSample_keeps _ _ _) fun i hi => ?_, ?_⟩
  · obtain ⟨hnonneg, hindex⟩ := getD_indexTable_le hpos hle i
    have hi' : i < maxNumsampsPerch := Nat.lt_trans hi (by decide)
    have hsample : ∀ pos : Int, 0 ≤ pos → pos ≤ 128 →
        (touch .buf16In pos 1).All SampleAccess.InBounds s := fun pos hnonneg hle =>
      touch_one hnonneg (Int.lt_of_le_of_lt hle (by decide)) s
    refine (touch_keeps _ _ _).all_bind.mpr ⟨touch_table rfl hi' s, ?_⟩
    refine (touch_keeps _ _ _).all_bind.mpr ⟨touch_table rfl hi' s, ?_⟩
    refine (touch_keeps _ _ _).all_bind.mpr ⟨hsample _ hnonneg (by omega), ?_⟩
    exact (touch_keeps _ _ _).all_bind.mpr ⟨hsample _ (by omega) (by omega), hplace i (by omega) s⟩
  · have hlast := hplace (defaultNumsampsPerch - 1) (by decide) s
    refine (touch_keeps _ _ _).all_bind.mpr ⟨touch_one (by omega) ?_ s, hlast⟩
    show c.sampNumIn - 1 < (maxNumsampsPerch : Int)
    omega

theorem interpolateBlock_ensures (h : s.ctl.SetUp numCh) (hdest : WideOutput dest)
    (hfirst : 0 ≤ first) (hfit : first + s.ctl.sampNumIn * numCh ≤ source.capacity)
    (houtput : outputOffset + defaultNumsampsPerch * numCh ≤ maxNumsampsPerch * 2) :
    (interpolateBlock numCh source first dest outputOffset).Ensures SampleAccess.InBounds s
      fun _ t => t = s := by
  have hvalid : toShort s.ctl.sampNumIn = s.ctl.sampNumIn := by
    have hblock := h.block
    unfold maxNumsampsPerch at hblock
    exact toShort_eq (by omega) (by omega)
  have hkeeps : ∀ chId, Traced.Keeps (do
      gatherChannel numCh source first (toShort s.ctl.sampNumIn) chId
      outputChannel numCh s.ctl dest outputOffset (toShort s.ctl.sampNumIn) chId : Counted Unit) :=
    fun chId => (gatherChannel_keeps _ _ _ _).bind fun _ => outputChannel_keeps _ _ _ _ _
  refine ⟨?_, Keeps.forRange hkeeps numCh s⟩
  refine (all_read _ _).mpr (Keeps.all_forRange hkeeps fun chId hchId => ?_)
  rw [hvalid]
  exact (gatherChannel_keeps _ _ _ _).all_bind.mpr
    ⟨gatherChannel_all hchId hfirst h.block.2 hfit, outputChannel_all h hdest houtput hchId⟩

/-! ## The parts of a call -/

theorem ResampleCounts.SetUp.samples_le (h : s.ctl.SetUp numCh) (hch : numCh = 1 ∨ numCh = 2) :
    s.ctl.sampNumIn * numCh ≤ (maxNumsampsPerch * 2 : Nat) := by
  obtain ⟨hpos, hle⟩ := h.block
  rcases hch with rfl | rfl <;> omega

/-- What a block that was processed leaves: the resampler is as before, but for the input that is
kept, and gives a whole block or nothing. -/
structure Processed (numCh n : Nat) (t : CountState) : Prop where
  setUp : t.ctl.SetUp numCh
  outSampReserve : t.ctl.outSampReserveLen = 0
  output : n = 0 ∨ n = defaultNumsampsPerch * numCh

section Block

variable (hch : numCh = 1 ∨ numCh = 2) (h : s.ctl.SetUp numCh)

include hch h

theorem keepRest_ensures (hdest : WideOutput dest) (numIn : Nat) {inputOffset : Int}
    (hnonneg : 0 ≤ inputOffset) (hle : inputOffset ≤ (maxNumsampsPerch * 2 : Nat)) :
    (keepRest numCh numIn dest 0 inputOffset (defaultNumsampsPerch * numCh)).Ensures
      SampleAccess.InBounds s fun n t => Processed numCh n t := by
  have hsetUp : ∀ reserved : Nat, reserved ≤ s.ctl.sampNumIn * numCh →
      { s.ctl with outSampReserveLen := 0, reservedSampsValid := reserved }.SetUp numCh :=
    fun _ hreserved => { h with reserved := hreserved }
  have hzero : (0 : Int) ≤ s.ctl.sampNumIn * numCh :=
    (Int.natCast_nonneg s.ctl.reservedSampsValid).trans h.reserved
  unfold keepRest
  rw [Nat.mod_self]
  refine modify_bind (touch_before rfl (by omega) ((touchOutput_keeps _ _ _).before ?_ ?_))
  · refine touchOutput_all hdest (Int.natCast_nonneg _) (Int.le_refl 0) ?_ _
    unfold defaultNumsampsPerch maxNumsampsPerch
    omega
  · refine bind (R := fun _ t => t.ctl.SetUp numCh ∧ t.ctl.outSampReserveLen = 0) ?_
      fun _ t ht => ensures_pure ⟨ht.1, ht.2, .inr rfl⟩
    unfold keepUnused
    split
    · rw [Int.zero_mul]
      exact touch_before rfl (by omega)
        (touch_before rfl (by omega) ⟨(setCtl_all _ _).mpr trivial, hsetUp 0 hzero, rfl⟩)
    · exact ⟨(setCtl_all _ _).mpr trivial, hsetUp 0 hzero, rfl⟩

variable {numIn : Nat} (hin : (s.ctl.reservedSampsValid + numIn : Nat) ≤ s.ctl.sampNumIn * numCh)

include hin

variable (hout : s.ctl.outSampReserveLen = 0)
include hout

theorem keepInput_ensures :
    (keepInput numIn).Ensures SampleAccess.InBounds s fun n t => Processed numCh n t := by
  have hle := h.samples_le hch
  refine read (touch_before rfl (by omega) (touch_before rfl (by omega) ⟨?_, ?_⟩))
  · simp
  · exact ⟨{ h with reserved := hin }, hout, .inl rfl⟩

omit hout in
theorem exactly_one_block
    (hfull : ¬ ((s.ctl.reservedSampsValid / numCh + numIn / numCh : Nat) : Int) < s.ctl.sampNumIn) :
    ((s.ctl.reservedSampsValid / numCh + numIn / numCh : Nat) : Int) = s.ctl.sampNumIn := by
  rcases hch with rfl | rfl <;> omega

theorem fillBlock_ensures (hdest : WideOutput dest)
    (hfull : ¬ ((s.ctl.reservedSampsValid / numCh + numIn / numCh : Nat) : Int) < s.ctl.sampNumIn) :
    (fillBlock numCh numIn dest).Ensures SampleAccess.InBounds s fun n t =>
      Processed numCh n t := by
  have hle := h.samples_le hch
  have hone := exactly_one_block hch h hin hfull
  have hoffset : 0 ≤ (s.ctl.sampNumIn - (s.ctl.reservedSampsValid / numCh : Nat)) * numCh ∧
      (s.ctl.sampNumIn - (s.ctl.reservedSampsValid / numCh : Nat)) * numCh ≤ numIn := by
    rcases hch with rfl | rfl <;> omega
  have hrest : ((s.ctl.reservedSampsValid / numCh + numIn / numCh : Nat) : Int) -
      s.ctl.sampNumIn = 0 := by
    omega
  have hmore : ∀ inputOffset outputOffset,
      moreInput numCh dest s.ctl.sampNumIn 0 inputOffset outputOffset =
      pure (0, inputOffset, outputOffset) := by
    intro inputOffset outputOffset
    rw [moreInput, if_neg (by omega)]
  refine read ?_
  dsimp only
  rw [hout, hrest, hmore, h.sampNumOut]
  refine touch_before rfl (by omega) (touch_before rfl (by omega) (touch_before rfl (by omega)
    ((touchOutput_keeps _ _ _).before ?_ ?_)))
  · exact touchOutput_all hdest (Int.le_refl 0) (Int.le_refl 0) (by decide) s
  · refine (interpolateBlock_ensures h hdest (Int.le_refl 0) ?_ ?_).bind ?_
    · show 0 + s.ctl.sampNumIn * numCh ≤ ((maxNumsampsPerch * 2 : Nat) : Int)
      omega
    · unfold defaultNumsampsPerch maxNumsampsPerch
      omega
    · rintro _ t rfl
      have hdone : { t.ctl with reservedSampsValid := 0 }.SetUp numCh :=
        { h with reserved := (Int.natCast_nonneg _).trans h.reserved }
      have hinside : (t.ctl.sampNumIn - (t.ctl.reservedSampsValid / numCh : Nat)) * numCh ≤
          (maxNumsampsPerch * 2 : Nat) := by omega
      rw [Nat.zero_add]
      exact keepRest_ensures hch hdone hdest numIn hoffset.1 hinside

theorem processLinearInner_ensures (hdest : WideOutput dest) :
    (processLinearInner numCh numIn dest e).Ensures SampleAccess.InBounds s fun n t =>
      Processed numCh n t := by
  refine bind (R := fun _ t => t = s) ?_ ?_
  · refine read ?_
    rw [if_pos h.initFlag]
    exact ensures_pure rfl
  · rintro _ t rfl
    refine read ?_
    split
    · exact keepInput_ensures hch h hin hout
    · next hfull => exact fillBlock_ensures hch h hin hout hdest hfull

end Block

theorem dspPcmReadIn_ensures {samples : Int} (hnonneg : 0 ≤ samples)
    (hle : samples ≤ (maxNumsampsPerch * 2 : Nat)) :
    (dspPcmReadIn (2 * samples)).Ensures SampleAccess.InBounds s fun n t => n ≤ samples ∧
    t.ctl = s.ctl := by
  have hint : (2 * samples).bmod (2 ^ 32) = 2 * samples := by
    unfold maxNumsampsPerch at hle
    exact Int.bmod_eq_of_le (by omega) (by omega)
  refine read ?_
  rw [hint]
  have hread := dspPcmReadBytes_le (2 * samples).toNat s.answers 0 (Nat.zero_le _)
  refine touch_before rfl (by omega) (modify_bind (ensures_pure ⟨?_, rfl⟩))
  omega

theorem readBlockTo_ensures (hch : numCh = 1 ∨ numCh = 2) (h : s.ctl.SetUp numCh)
    (hout : s.ctl.outSampReserveLen = 0) (hdest : WideOutput dest) :
    (readBlockTo numCh dest e).Ensures SampleAccess.InBounds s fun n t => Processed numCh n t := by
  have hle := h.samples_le hch
  have hreserved := h.reserved
  refine read ((dspPcmReadIn_ensures (by omega) (by omega)).bind ?_)
  rintro numIn t ⟨hn, ht⟩
  rw [← ht] at h hout hn
  exact processLinearInner_ensures hch h (by push_cast; omega) hout hdest

/-- What the loop leaves: output is kept only if no more is asked for. -/
structure BlocksFilled (numCh : Nat) (n : Nat) (t : CountState) : Prop where
  setUp : t.ctl.SetUp numCh
  outSampReserve : t.ctl.outSampReserveLen ≤ defaultNumsampsPerch * numCh
  used : 0 < n → t.ctl.outSampReserveLen = 0

theorem fillWhole_ensures (hch : numCh = 1 ∨ numCh = 2) (n : Nat) :
    ∀ {s : CountState}, BlocksFilled numCh n s →
    (fillWhole numCh n e).Ensures SampleAccess.InBounds s
      fun r t => BlocksFilled numCh 0 t ∧ ∀ m ∈ r, BlocksFilled numCh m t ∧
        m < defaultNumsampsPerch * numCh := by
  induction n using Nat.strong_induction_on with
  | _ n ih =>
    intro s h
    rw [fillWhole]
    split
    · next hn =>
      refine (readBlockTo_ensures hch h.setUp (h.used hn.2) (fun _ hnone => ?_)).bind ?_
      · exact absurd hnone (Option.not_mem_none _)
      · intro cnt t ht
        have hfilled : ∀ m, BlocksFilled numCh m t := fun m =>
          ⟨ht.setUp, ht.outSampReserve ▸ Nat.zero_le _, fun _ => ht.outSampReserve⟩
        split
        · exact ensures_pure ⟨hfilled 0, fun m hm => absurd hm (Option.not_mem_none m)⟩
        · next hcnt => exact ih (n - cnt) (Nat.sub_lt hn.2 (Nat.pos_of_ne_zero hcnt)) (hfilled _)
    · next hn =>
      refine ensures_pure ⟨⟨h.setUp, h.outSampReserve, fun h0 => absurd h0 (Nat.lt_irrefl 0)⟩, ?_⟩
      intro m hm
      cases hm
      refine ⟨h, Nat.not_le.mp fun hle => hn ⟨hle, ?_⟩⟩
      unfold defaultNumsampsPerch at hle
      omega

theorem fillLast_ensures (hch : numCh = 1 ∨ numCh = 2) {n : Nat} (hn : 0 < n)
    (hlt : n < defaultNumsampsPerch * numCh) (h : BlocksFilled numCh n s) :
    (fillLast numCh n e).Ensures SampleAccess.InBounds s fun _ t => BlocksFilled numCh 0 t := by
  have hwide : WideOutput (some .outbuftmp16) := fun array harray => by
    cases harray
    rfl
  refine (readBlockTo_ensures hch h.setUp (h.used hn) hwide).bind ?_
  intro cnt t ht
  have hfilled : ∀ len, len ≤ defaultNumsampsPerch * numCh →
      BlocksFilled numCh 0 { t with ctl := { t.ctl with outSampReserveLen := len } } :=
    fun len hlen =>
    ⟨{ ht.setUp with }, hlen, fun h0 => absurd h0 (Nat.lt_irrefl 0)⟩
  split
  · exact ensures_pure ⟨ht.setUp, ht.outSampReserve ▸ Nat.zero_le _, fun _ => ht.outSampReserve⟩
  · next hcnt =>
    have hblock : cnt = defaultNumsampsPerch * numCh := ht.output.resolve_left hcnt
    have hsize : defaultNumsampsPerch * numCh ≤ maxNumsampsPerch * 2 := by
      unfold defaultNumsampsPerch maxNumsampsPerch
      omega
    exact touch_before rfl (by omega) (touch_before rfl (by omega) (touch_before rfl (by omega)
      ⟨(setCtl_all _ _).mpr trivial, hfilled (cnt - n) (by omega)⟩))

theorem getPcmInResampler_ensures (hch : numCh = 1 ∨ numCh = 2)
    (hlen : s.ctl.outSampReserveLen ≤ defaultNumsampsPerch * numCh) (n : Nat) :
    (getPcmInResampler n).Ensures SampleAccess.InBounds s fun g t =>
      t.ctl = { s.ctl with outSampReserveLen := s.ctl.outSampReserveLen - n } ∧
        g = min n s.ctl.outSampReserveLen := by
  have hsize : s.ctl.outSampReserveLen ≤ maxNumsampsPerch * 2 := by
    unfold defaultNumsampsPerch at hlen
    unfold maxNumsampsPerch
    omega
  refine read ?_
  dsimp only
  split
  · next hlt =>
    exact touch_before rfl (by omega) (touch_before rfl (by omega) (touch_before rfl (by omega)
      (modify_bind (ensures_pure ⟨rfl, (Nat.min_eq_left hlt.le).symm⟩))))
  · next hge =>
    have hall : s.ctl.outSampReserveLen - n = 0 := by omega
    refine touch_before rfl (by omega) (modify_bind (ensures_pure ⟨?_, ?_⟩))
    · rw [hall]
    · exact (Nat.min_eq_right (Nat.not_lt.mp hge)).symm

theorem getUnproInputsampnum_ensures (hsize : s.ctl.reservedSampsValid ≤ maxNumsampsPerch * 2)
    (n : Nat) : (getUnproInputsampnum n).Ensures SampleAccess.InBounds s fun _ t =>
      t.ctl = { s.ctl with reservedSampsValid := s.ctl.reservedSampsValid - n } := by
  refine read ?_
  dsimp only
  split
  · next hle =>
    have hall : s.ctl.reservedSampsValid - n = 0 := by omega
    refine touch_before rfl (by omega) (modify_bind (ensures_pure ?_))
    rw [hall]
  · next hgt =>
    exact touch_before rfl (by omega) (touch_before rfl (by omega) (touch_before rfl (by omega)
      (modify_bind (ensures_pure rfl))))

/-! ## A whole call -/

structure ResampleCounts.Valid (numCh : Nat) (c : ResampleCounts) : Prop where
  setUp : c.initFlag = true → c.SetUp numCh
  idle : c.initFlag = false → c.reservedSampsValid = 0 ∧ c.outSampReserveLen = 0
  outSampReserve : c.outSampReserveLen ≤ defaultNumsampsPerch * numCh

theorem BlocksFilled.valid {n : Nat} (h : BlocksFilled numCh n s) : s.ctl.Valid numCh :=
  ⟨fun _ => h.setUp, fun hidle => absurd (h.setUp.initFlag.symm.trans hidle) (by decide),
    h.outSampReserve⟩

def FitsArrays (resampleType : ResampleType) (delta : Int) : Prop :=
  1 ≤ blockSize resampleType delta ∧ blockSize resampleType delta ≤ maxNumsampsPerch

theorem writeTables_keeps : writeTables.Keeps :=
  Keeps.forRange (fun _ => (touch_keeps _ _ _).bind fun _ => touch_keeps _ _ _) _

theorem setSampsNumRatio_ensures (hfits : FitsArrays e.resampleType e.delta) (s : CountState) :
    (setSampsNumRatio e).Ensures SampleAccess.InBounds s
      fun _ t => t.ctl.SetUp numCh ∧ t.ctl.outSampReserveLen = 0 := by
  refine modify_bind (writeTables_keeps.ensures ?_ ⟨⟨hfits, rfl, rfl, ?_, rfl⟩, rfl⟩)
  · refine Keeps.all_forRange (fun _ => (touch_keeps _ _ _).bind fun _ => touch_keeps _ _ _)
      fun i hi => ?_
    have hi' : i < maxNumsampsPerch := Nat.lt_trans hi (by decide)
    exact (touch_keeps _ _ _).all_bind.mpr ⟨touch_table rfl hi' _, touch_table rfl hi' _⟩
  · exact Int.mul_nonneg (Int.le_of_lt (Int.lt_of_lt_of_le (by decide) hfits.1))
      (Int.natCast_nonneg numCh)

theorem countResampled_ensures (hch : numCh = 1 ∨ numCh = 2)
    (hfits : FitsArrays e.resampleType e.delta) (hv : s.ctl.Valid numCh) (n : Nat) :
    (countResampled numCh n e).Ensures SampleAccess.InBounds s fun _ t => t.ctl.Valid numCh := by
  refine bind (R := fun _ t => t.ctl.SetUp numCh ∧
    t.ctl.outSampReserveLen ≤ defaultNumsampsPerch * numCh) ?_ ?_
  · refine read ?_
    split
    · next hinit => exact ensures_pure ⟨hv.setUp hinit, hv.outSampReserve⟩
    · exact (setSampsNumRatio_ensures hfits s).mono fun _ t ht => ⟨ht.1, ht.2 ▸ Nat.zero_le _⟩
  · rintro _ t ⟨hsetUp, hlen⟩
    refine (getPcmInResampler_ensures hch hlen n).bind ?_
    rintro g u ⟨hu, hg⟩
    have hfilled : BlocksFilled numCh (n - g) u := by
      refine ⟨?_, ?_, fun hpos => ?_⟩
      · rw [hu]
        exact { hsetUp with }
      · rw [hu]
        exact (Nat.sub_le _ _).trans hlen
      · rw [hu]
        show t.ctl.outSampReserveLen - n = 0
        omega
    refine (fillWhole_ensures hch (n - g) hfilled).bind ?_
    rintro r v ⟨hdone, hmore⟩
    cases r with
    | none => exact ensures_pure hdone.valid
    | some m =>
      obtain ⟨hm, hlt⟩ := hmore m rfl
      dsimp only
      split
      · next hpos => exact (fillLast_ensures hch hpos hlt hm).mono fun _ t ht => ht.valid
      · exact ensures_pure hdone.valid

theorem ResampleCounts.Valid.drained {c : ResampleCounts} (hv : c.Valid numCh) (n m : Nat) :
    { c with
      outSampReserveLen := c.outSampReserveLen - n
      reservedSampsValid := c.reservedSampsValid - m }.Valid numCh := by
  refine ⟨fun hinit => ?_, fun hidle => ?_, (Nat.sub_le _ _).trans hv.outSampReserve⟩
  · have hsetUp := hv.setUp hinit
    have hreserved : ((c.reservedSampsValid - m : Nat) : Int) ≤ c.sampNumIn * numCh := by
      have hbefore := hsetUp.reserved
      omega
    exact { hsetUp with reserved := hreserved }
  · have hzero := hv.idle hidle
    show c.reservedSampsValid - m = 0 ∧ c.outSampReserveLen - n = 0
    omega

theorem ResampleCounts.Valid.reserved_le (hv : s.ctl.Valid numCh) (hch : numCh = 1 ∨ numCh = 2) :
    s.ctl.reservedSampsValid ≤ maxNumsampsPerch * 2 := by
  cases hinit : s.ctl.initFlag with
  | false => exact (hv.idle hinit).1 ▸ Nat.zero_le _
  | true =>
    have hsetUp := hv.setUp hinit
    exact Int.ofNat_le.mp (hsetUp.reserved.trans (hsetUp.samples_le hch))

theorem drainOutputCount_ensures (hch : numCh = 1 ∨ numCh = 2) (hv : s.ctl.Valid numCh) (n : Nat) :
    (drainOutputCount n).Ensures SampleAccess.InBounds s fun _ t => t.ctl.Valid numCh := by
  refine read ?_
  split
  · refine (getPcmInResampler_ensures hch hv.outSampReserve n).mono fun _ t ht => ?_
    rw [ht.1]
    exact hv.drained n 0
  · exact ensures_pure hv

theorem drainInputCount_ensures (hch : numCh = 1 ∨ numCh = 2) (hv : s.ctl.Valid numCh) (n : Nat) :
    (drainInputCount n).Ensures SampleAccess.InBounds s fun _ t => t.ctl.Valid numCh := by
  refine read ?_
  split
  · refine (getUnproInputsampnum_ensures (hv.reserved_le hch) n).mono fun _ t ht => ?_
    rw [ht]
    exact hv.drained 0 n
  · exact ensures_pure hv

theorem stopped_valid (hzero : s.ctl.outSampReserveLen = 0 ∧ s.ctl.reservedSampsValid = 0) :
    { s.ctl with initFlag := false, lastResamType := .none }.Valid numCh :=
  ⟨fun hinit => absurd hinit Bool.false_ne_true, fun _ => ⟨hzero.2, hzero.1⟩,
    hzero.1 ▸ Nat.zero_le _⟩

theorem countPassed_ensures (hch : numCh = 1 ∨ numCh = 2) (hv : s.ctl.Valid numCh) (n : Nat) :
    (countPassed n).Ensures SampleAccess.InBounds s fun _ t => t.ctl.Valid numCh := by
  refine (drainOutputCount_ensures hch hv n).bind fun g t ht => ?_
  refine (drainInputCount_ensures hch ht (n - g)).bind fun _ u hu => ?_
  refine read ?_
  split
  · next hzero => exact ⟨(setCtl_all _ _).mpr trivial, stopped_valid hzero⟩
  · exact ensures_pure hu

theorem countApiNormal_ensures (hch : numCh = 1 ∨ numCh = 2)
    (hfits : FitsArrays e.resampleType e.delta) (hv : s.ctl.Valid numCh) :
    (countApiNormal numCh e).Ensures SampleAccess.InBounds s fun _ t => t.ctl.Valid numCh := by
  refine read ?_
  split
  · split
    · exact countResampled_ensures hch hfits hv _
    · split
      · next hzero =>
        exact modify_bind (countResampled_ensures hch hfits (stopped_valid hzero) _)
      · exact countPassed_ensures hch hv _
  · exact countPassed_ensures hch hv _

/-! ## Blocks that do not fit -/

theorem interpolateBlock_touches (hnum : 0 < numCh)
    (h : (interpolateBlock numCh source first dest outputOffset).All SampleAccess.InBounds s) :
    (∀ i : Nat, i < (toShort s.ctl.sampNumIn).toNat → i < maxNumsampsPerch) ∧
    1 ≤ toShort s.ctl.sampNumIn := by
  rw [interpolateBlock, all_read, all_forRange] at h
  have hchannel := h 0 hnum
  rw [(gatherChannel_keeps _ _ _ _).all_bind] at hchannel
  obtain ⟨hgather, houtput⟩ := hchannel
  refine ⟨fun i hi => ?_, ?_⟩
  · have htouch := (all_forRange _ _ _).mp hgather i hi
    rw [(touch_keeps _ _ _).all_bind] at htouch
    have hentry : (i : Int) + 1 ≤ (maxNumsampsPerch : Int) := ((touch_all _ _ _ _).mp htouch.2).2.2
    omega
  · rw [outputChannel, all_bind, all_bind] at houtput
    have hlast : 0 ≤ toShort s.ctl.sampNumIn - 1 := ((touch_all _ _ _ _).mp houtput.2.1).1
    omega

theorem fillBlock_touches {numIn : Nat}
    (h : (fillBlock numCh numIn dest).All SampleAccess.InBounds s) :
    0 ≤ (s.ctl.sampNumIn - (s.ctl.reservedSampsValid / numCh : Nat)) * numCh ∧
      (interpolateBlock numCh .reservedBuf 0 dest s.ctl.outSampReserveLen).All
        SampleAccess.InBounds s := by
  have hparts := (all_read _ _).mp h
  rw [(touch_keeps _ _ _).all_bind, (touch_keeps _ _ _).all_bind, (touch_keeps _ _ _).all_bind,
    (touchOutput_keeps _ _ _).all_bind, all_bind] at hparts
  exact ⟨((touch_all _ _ _ _).mp hparts.1).2.1, hparts.2.2.2.2.1⟩

theorem dspPcmReadIn_run (len : Int) :
    (dspPcmReadIn len).run s =
      ⟨(dspPcmReadBytes (len.bmod (2 ^ 32)).toNat 0 s.answers).1 / 2,
        { s with answers := (dspPcmReadBytes (len.bmod (2 ^ 32)).toNat 0 s.answers).2 },
        [⟨.dataIn, 0,
          (((dspPcmReadBytes (len.bmod (2 ^ 32)).toNat 0 s.answers).1 + 1) / 2 : Nat)⟩]⟩ := rfl

theorem ensureInit_run (hinit : s.ctl.initFlag = true) : (ensureInit e).run s = ⟨(), s, []⟩ := by
  simp [ensureInit, hinit]

theorem dspPcmReadBytes_all (len : Nat) (answers : List Int) :
    (dspPcmReadBytes len 0 (len :: answers)).1 = len := by
  unfold dspPcmReadBytes
  split
  · next hlen =>
    have hread : dspReadBytes (len - 0) (len : Int) = len := by
      unfold dspReadBytes
      omega
    rw [hread, if_neg (by omega), Int.toNat_natCast, Nat.zero_add]
    cases answers with
    | nil => rfl
    | cons answer answers => simp [dspPcmReadBytes]
  · next hlen =>
    omega

theorem processLinearInner_touches {numIn : Nat}
    (h : (processLinearInner numCh numIn dest e).All SampleAccess.InBounds s) (hnum : 0 < numCh)
    (hinit : s.ctl.initFlag = true) (hreserved : s.ctl.reservedSampsValid = 0)
    (hfull : ¬ ((numIn / numCh : Nat) : Int) < s.ctl.sampNumIn) :
    0 ≤ s.ctl.sampNumIn * numCh ∧
      (∀ i : Nat, i < (toShort s.ctl.sampNumIn).toNat → i < maxNumsampsPerch) ∧
      1 ≤ toShort s.ctl.sampNumIn := by
  rw [processLinearInner, all_bind, ensureInit_run hinit, all_read, all_ite, hreserved,
    Nat.zero_div,
    Nat.zero_add, if_neg hfull] at h
  obtain ⟨hoffset, hblock⟩ := fillBlock_touches h.2
  rw [hreserved, Nat.zero_div, Int.natCast_zero, Int.sub_zero] at hoffset
  exact ⟨hoffset, interpolateBlock_touches hnum hblock⟩

/-- The first block after the resampler was set up, if the dsp has enough data. -/
theorem readBlockTo_outOfBounds (hch : numCh = 1 ∨ numCh = 2) (hinit : s.ctl.initFlag = true)
    (hreserved : s.ctl.reservedSampsValid = 0)
    (hanswers : s.answers = [2 * (s.ctl.sampNumIn * numCh)])
    (hint : -2 ^ 28 < s.ctl.sampNumIn ∧ s.ctl.sampNumIn < 2 ^ 28)
    (h : (readBlockTo numCh dest e).All SampleAccess.InBounds s) :
    1 ≤ s.ctl.sampNumIn ∧ s.ctl.sampNumIn ≤ maxNumsampsPerch := by
  have hlen : (2 * (s.ctl.sampNumIn * numCh - (0 : Nat))).bmod (2 ^ 32) =
      2 * (s.ctl.sampNumIn * numCh) := by
    rw [Int.bmod_eq_of_le] <;> rcases hch with rfl | rfl <;> omega
  have hread : ((dspPcmReadBytes (2 * (s.ctl.sampNumIn * numCh)).toNat 0 s.answers).1 : Int) =
      max 0 (2 * (s.ctl.sampNumIn * numCh)) := by
    rw [hanswers]
    rcases Int.le_total 0 (2 * (s.ctl.sampNumIn * numCh)) with hle | hle
    · obtain ⟨n, hn⟩ := Int.eq_ofNat_of_zero_le hle
      rw [hn, Int.toNat_natCast, dspPcmReadBytes_all]
      omega
    · have hzero : (2 * (s.ctl.sampNumIn * numCh)).toNat = 0 := Int.toNat_of_nonpos hle
      have hnone := dspPcmReadBytes_le 0 [2 * (s.ctl.sampNumIn * numCh)] 0 (Nat.le_refl 0)
      rw [hzero]
      omega
  rw [readBlockTo, all_read, all_bind, hreserved, dspPcmReadIn_run, hlen] at h
  obtain ⟨hin, hprocess⟩ := h
  have hdata := ((touch_all .dataIn 0 _ s).mp ((touch_keeps _ _ _).all_bind.mp hin).1).2.2
  rw [hlen] at hdata
  have hcapacity : (SampleArray.dataIn.capacity : Int) = 258 := rfl
  obtain ⟨hoffset, hframes, hlast⟩ := processLinearInner_touches hprocess (by omega) hinit hreserved
    (by rcases hch with rfl | rfl <;> dsimp only <;> omega)
  dsimp only at hoffset hframes hlast
  have hpos : 1 ≤ s.ctl.sampNumIn := by
    rcases Int.lt_or_le s.ctl.sampNumIn 1 with hlt | hle
    · have hzero : s.ctl.sampNumIn = 0 := by rcases hch with rfl | rfl <;> omega
      rw [hzero] at hlast
      exact absurd hlast (by decide)
    · exact hle
  refine ⟨hpos, Int.not_lt.mp fun hgt => ?_⟩
  -- the input still fits, so that there is one channel and the block is too long for `buf16_in`
  unfold maxNumsampsPerch at hgt hframes
  have hle : s.ctl.sampNumIn ≤ 258 := by rcases hch with rfl | rfl <;> omega
  rw [toShort_eq (by omega) (by omega)] at hframes
  exact absurd (hframes 129 (by omega)) (by decide)

def ResampleCounts.ready (resampleType : ResampleType) (delta : Int) : ResampleCounts :=
  ⟨blockSize resampleType delta, defaultNumsampsPerch, indexTable (blockSize resampleType delta), 0,
    0, true,
    resampleType⟩

theorem setSampsNumRatio_ctl (s : CountState) :
    ((setSampsNumRatio e).run s).st = ⟨.ready e.resampleType e.delta, s.answers⟩ := by
  rw [setSampsNumRatio, run_bind]
  rw [writeTables_keeps]
  rfl

theorem countResampled_reads (hnum : 0 < numCh) (hinit : s.ctl.initFlag = false)
    (h : (countResampled numCh 1 e).All SampleAccess.InBounds s) :
    (readBlockTo numCh (some .outbuftmp16) e).All SampleAccess.InBounds
      ⟨.ready e.resampleType e.delta, s.answers⟩ := by
  have hsetUp : ((ensureInit e).run s).st = ⟨.ready e.resampleType e.delta, s.answers⟩ := by
    rw [ensureInit, run_read, hinit]
    exact setSampsNumRatio_ctl s
  have hwhole : fillWhole numCh (1 - 0) e = pure (some 1) := by
    rw [fillWhole, if_neg]
    unfold defaultNumsampsPerch
    omega
  rw [countResampled, all_bind, hsetUp, all_bind] at h
  have hrest := h.2.2
  -- nothing is kept yet
  have hkept : (getPcmInResampler 1).run ⟨.ready e.resampleType e.delta, s.answers⟩ =
      ⟨0, ⟨.ready e.resampleType e.delta, s.answers⟩, [⟨.outSampReserveBuf, 0, 0⟩]⟩ := rfl
  rw [hkept, hwhole, all_bind, run_pure] at hrest
  have hlast : (fillLast numCh 1 e).All SampleAccess.InBounds
      ⟨.ready e.resampleType e.delta, s.answers⟩ := hrest.2
  rw [fillLast, all_bind] at hlast
  exact hlast.1

end Accesses

/-- A first call that asks for one sample, when the dsp has enough for a block. -/
def firstBlockCall (resampleType : ResampleType) (delta : Int) : CountedCall :=
  ⟨2, true, resampleType, delta, [2 * (blockSize resampleType delta * numCh)]⟩

theorem firstBlockCall_fits {numCh : Nat} (hch : numCh = 1 ∨ numCh = 2)
    {resampleType : ResampleType} {delta : Int}
    (hint : -2 ^ 28 < blockSize resampleType delta ∧ blockSize resampleType delta < 2 ^ 28)
    (h : SamplesInBounds numCh .initial (firstBlockCall numCh resampleType delta)) :
    FitsArrays resampleType delta := by
  have hresampled : resampleType ≠ .none → (countResampled numCh 1
      (firstBlockCall numCh resampleType delta)).All SampleAccess.InBounds
        ⟨.initial, [2 * (blockSize resampleType delta * numCh)]⟩ := by
    intro htype
    have hcall : (countApiNormal numCh (firstBlockCall numCh resampleType delta)).All
        SampleAccess.InBounds ⟨.initial, [2 * (blockSize resampleType delta * numCh)]⟩ := h
    have hchanged : ¬ initial.lastResamType =
        (firstBlockCall numCh resampleType delta).resampleType := fun heq => htype heq.symm
    rw [countApiNormal, all_read] at hcall
    have henable : (firstBlockCall numCh resampleType delta).enableResample = true := rfl
    have hempty : initial.outSampReserveLen = 0 ∧ initial.reservedSampsValid = 0 := ⟨rfl, rfl⟩
    have hone : min ((firstBlockCall numCh resampleType delta).size / 2) dateTempSize = 1 := by
      show min (2 / 2) (8 * 8192) = 1
      decide
    rw [if_pos henable, if_neg hchanged, if_pos hempty, all_bind, hone] at hcall
    exact hcall.2
  rcases eq_or_ne resampleType .none with rfl | htype
  · exact ⟨Int.ofNat_le.mpr (by decide), Int.ofNat_le.mpr (by decide)⟩
  · have hread := countResampled_reads (by omega) rfl (hresampled htype)
    exact readBlockTo_outOfBounds hch rfl rfl rfl hint hread

/-! ## Runs -/

/-- For runs with any of the types and deltas that `admits` allows, and block sizes for which the
products of the source fit into an `int`. -/
theorem resample_inBounds_iff (numCh : Nat) (hch : numCh = 1 ∨ numCh = 2)
    (admits : ResampleType → Int → Prop)
    (hint : ∀ resampleType delta, admits resampleType delta →
      -2 ^ 28 < blockSize resampleType delta ∧ blockSize resampleType delta < 2 ^ 28) :
    (∀ es : List CountedCall, (∀ e ∈ es, admits e.resampleType e.delta) →
      (countedResampler numCh).Always (SamplesInBounds numCh) .initial es) ↔
      ∀ resampleType delta, admits resampleType delta → 1 ≤ blockSize resampleType delta ∧
        blockSize resampleType delta ≤ maxNumsampsPerch := by
  constructor
  · intro h resampleType delta hadmits
    have hrun := h [firstBlockCall numCh resampleType delta] fun e he => by
      cases mem_singleton.mp he
      exact hadmits
    exact firstBlockCall_fits hch (hint resampleType delta hadmits) hrun.1
  · intro hfits es hes
    have hinit : initial.Valid numCh :=
      ⟨fun hinit => absurd hinit Bool.false_ne_true, fun _ => ⟨rfl, rfl⟩, Nat.zero_le _⟩
    refine Machine.Always.of_invariant (fun s e hv hadmits => ?_) hinit (Machine.always_of_mem hes)
    exact countApiNormal_ensures hch (hfits _ _ hadmits) hv

/-- With the default of `resampledelta` everything is inside, also after a change of the type. -/
theorem resample_inBounds_default :
    (countedResampler 2).Always (SamplesInBounds 2) .initial
      [firstBlockCall 2 .down 1, firstBlockCall 2 .up 1, firstBlockCall 2 .down 1] := by
  refine (resample_inBounds_iff 2 (.inr rfl) (fun _ delta => delta = 1) ?_).mpr ?_ _ (by decide)
  all_goals
    rintro resampleType delta rfl
    cases resampleType <;> exact ⟨by decide, by decide⟩

/-- A first call with enough data goes beyond the end of `data_in`. -/
theorem wifiDisplay_outOfBounds :
    blockSize .down 2 = 130 ∧
      ¬ (countedResampler 2).Always (SamplesInBounds 2) .initial [firstBlockCall 2 .down 2] := by
  refine ⟨by decide, fun h => ?_⟩
  have hfits : FitsArrays .down 2 := firstBlockCall_fits (.inr rfl) ⟨by decide, by decide⟩ h.1
  exact absurd hfits.2 (by decide)

end AmlogicHal.Amadec
