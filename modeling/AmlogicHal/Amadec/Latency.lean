import AmlogicHal.Amadec.PcmRoom

/-!
# The latency of a package

The decode loop adds up how long the outputs of a package play, in units of 1/90000 s, and adds the
sum to its time stamp. An output of `outlen` bytes adds
`outlen * 90000 / (samplerate * channels * 2)`, all in `int`, with the rate and the channels of
`audec`. `check_audio_info_changed` sets these when the decoder first reports its information; later
changes reach `audec` only when another thread resets the track.

`ExactLatency` is the account that is meant. `latency_iff` says in which runs the loop keeps it: the
information is known, the products fit into an `int`, and no change is waiting for the track.
`latency_wrong` has a run for each of the three.
-/

namespace AmlogicHal.Amadec

/-! ## The model -/

/-- What a decoder reports, and what `audec` and the PCM buffer say of the stream. Zeros are
unknown. -/
structure StreamInfo where
  channels : Nat
  samplerate : Nat
deriving DecidableEq, Repr

namespace StreamInfo

def Known (i : StreamInfo) : Prop := i.channels ≠ 0 ∧ i.samplerate ≠ 0

instance (i : StreamInfo) : Decidable i.Known := inferInstanceAs (Decidable (_ ∧ _))

def bytesPerSecond (i : StreamInfo) : Nat := i.samplerate * i.channels * 2

end StreamInfo

open StreamInfo

inductive LatencyEvent where
  /-- A package is taken from the list. -/
  | package
  /-- The decoder has an output and reports its information. The track may be reset between the
  check of this information and the sum. -/
  | output (outlen : Nat) (info : StreamInfo) (nAudioDecoderType : AudioFormat)
    (resetBetween : Bool)
  /-- `adec_reset_track`, by another thread. -/
  | resetTrack
deriving DecidableEq

structure LatencyLoop where
  audec : StreamInfo
  gBst : StreamInfo
  formatChangedFlag : Bool
  latencys : Int
  crashed : Bool
deriving DecidableEq

/-- The value of an `int` operation that may overflow. -/
def int32 (x : Int) : Int := x.bmod (2 ^ 32)

variable (info : StreamInfo)

namespace LatencyLoop

/-- `audio_codec_init` limits the channels, and `OutBufferInit` copies the information. -/
def start (header : StreamInfo) : LatencyLoop :=
  let audec : StreamInfo := ⟨if header.channels > 2 then 2 else header.channels, header.samplerate⟩
  ⟨audec, audec, false, 0, false⟩

def checkAudioInfoChanged (s : LatencyLoop) : LatencyLoop :=
  if info.channels ≠ 0 ∧ info.samplerate ≠ 0 then
    if info.channels ≠ s.gBst.channels ∨ info.samplerate ≠ s.gBst.samplerate then
      if s.audec.channels = 0 ∨ s.audec.samplerate = 0 then { s with gBst := info, audec := info }
      -- With `USE_AOUT_IN_ADEC` the thread waits here until the flag is cleared, so the track is
      -- reset before.
      else { s with gBst := info, formatChangedFlag := true }
    else s
  else s

def resetTrack (s : LatencyLoop) : LatencyLoop :=
  if s.formatChangedFlag then { s with audec := s.gBst, formatChangedFlag := false } else s

def addLatency (outlen : Nat) (s : LatencyLoop) : LatencyLoop :=
  let bytes := int32 (int32 (s.audec.samplerate * s.audec.channels) * 2)
  if bytes = 0 then { s with crashed := true }
  else { s with latencys := int32 (s.latencys + (int32 (outlen * 90000)).tdiv bytes) }

def checked (resetBetween : Bool) (s : LatencyLoop) : LatencyLoop :=
  if resetBetween then (s.checkAudioInfoChanged info).resetTrack else s.checkAudioInfoChanged info

end LatencyLoop

open LatencyLoop

variable (format : AudioFormat)

def LatencyLoop.step (s : LatencyLoop) : LatencyEvent → LatencyLoop
  | .package => { s with latencys := 0 }
  | .output outlen info nAudioDecoderType resetBetween =>
    if outlen > 0 ∧ format.raw = false then
      if nAudioDecoderType ≠ .aacLatm then (s.checked info resetBetween).addLatency outlen
      else s.checked info resetBetween
    else if resetBetween then s.resetTrack else s
  | .resetTrack => s.resetTrack

def latencyLoop : Machine LatencyLoop LatencyEvent Unit :=
  ⟨fun s e => (s.step format e, ())⟩

/-! ## The account -/

/-- The information on the stream, the one that the track is set to, and the latency of the package
so far. -/
structure ExactLatency where
  current : StreamInfo
  applied : StreamInfo
  latency : Nat
deriving DecidableEq

namespace ExactLatency

def start (header : StreamInfo) : ExactLatency :=
  let info : StreamInfo := ⟨if header.channels > 2 then 2 else header.channels, header.samplerate⟩
  ⟨info, info, 0⟩

def report (a : ExactLatency) : ExactLatency :=
  if info.Known then
    { a with current := info, applied := if a.applied.Known then a.applied else info }
  else a

def reset (a : ExactLatency) : ExactLatency := { a with applied := a.current }

def reported (resetBetween : Bool) (a : ExactLatency) : ExactLatency :=
  if resetBetween then (a.report info).reset else a.report info

/-- The time that `outlen` bytes play, rounded down. -/
def add (outlen : Nat) (a : ExactLatency) : ExactLatency :=
  { a with latency := a.latency + outlen * 90000 / a.current.bytesPerSecond }

def step (a : ExactLatency) : LatencyEvent → ExactLatency
  | .package => { a with latency := 0 }
  | .output outlen info nAudioDecoderType resetBetween =>
    if outlen > 0 ∧ format.raw = false then
      if nAudioDecoderType ≠ .aacLatm then (a.reported info resetBetween).add outlen
      else a.reported info resetBetween
    else if resetBetween then a.reset else a
  | .resetTrack => a.reset

end ExactLatency

def exactLatency : Machine ExactLatency LatencyEvent Unit :=
  ⟨fun a e => (a.step format e, ())⟩

def CountsLatency (outlen : Nat) (nAudioDecoderType : AudioFormat) : Prop :=
  (outlen > 0 ∧ format.raw = false) ∧ nAudioDecoderType ≠ .aacLatm

instance (outlen : Nat) (nAudioDecoderType : AudioFormat) :
    Decidable (CountsLatency format outlen nAudioDecoderType) :=
  inferInstanceAs (Decidable (_ ∧ _))

/-- No `int` operation of the sum overflows. -/
structure NoOverflow (s : LatencyLoop) (outlen : Nat) : Prop where
  divisor : s.audec.bytesPerSecond < 2 ^ 31
  dividend : outlen * 90000 < 2 ^ 31
  sum : s.latencys + (outlen * 90000 / s.audec.bytesPerSecond : Nat) < 2 ^ 31

/-- There is no overflow and no division by zero in this step, and the latency is the exact one
after it. -/
def AddsExactly (s : LatencyLoop × ExactLatency) : LatencyEvent → Prop
  | .output outlen info nAudioDecoderType resetBetween =>
    CountsLatency format outlen nAudioDecoderType →
      NoOverflow (s.1.checked info resetBetween) outlen ∧
        (s.1.step format (.output outlen info nAudioDecoderType resetBetween)).crashed = false ∧
        (s.1.step format (.output outlen info nAudioDecoderType resetBetween)).latencys =
          (s.2.step format (.output outlen info nAudioDecoderType resetBetween)).latency
  | _ => True

/-- The information is known, the numbers are small enough, and what the track is set to gives the
same time as what the decoder reports. -/
structure ExactLatency.Fits (a : ExactLatency) (outlen : Nat) : Prop where
  known : a.applied.Known
  divisor : a.applied.bytesPerSecond < 2 ^ 31
  dividend : outlen * 90000 < 2 ^ 31
  sum : a.latency + outlen * 90000 / a.applied.bytesPerSecond < 2 ^ 31
  applied : outlen * 90000 / a.applied.bytesPerSecond = outlen * 90000 / a.current.bytesPerSecond

def LatencyFits (s : LatencyLoop × ExactLatency) : LatencyEvent → Prop
  | .output outlen info nAudioDecoderType resetBetween =>
    CountsLatency format outlen nAudioDecoderType → (s.2.reported info resetBetween).Fits outlen
  | _ => True

/-! ## The information -/

structure SameInfo (s : LatencyLoop) (a : ExactLatency) : Prop where
  audec : s.audec = a.applied
  gBst : s.gBst = a.current
  /-- Without the flag no change is waiting. -/
  flag : s.formatChangedFlag = false → a.applied = a.current
  unknown : a.applied.Known ∨ a.applied = a.current

variable {s : LatencyLoop} {a : ExactLatency} {info : StreamInfo} {i : StreamInfo} {outlen : Nat}

theorem StreamInfo.not_known : ¬ i.Known ↔ i.channels = 0 ∨ i.samplerate = 0 := by
  unfold Known
  omega

theorem StreamInfo.ne_iff {j : StreamInfo} : i.channels ≠ j.channels ∨ i.samplerate ≠ j.samplerate ↔
    i ≠ j := by
  obtain ⟨channels, samplerate⟩ := i
  obtain ⟨channels', samplerate'⟩ := j
  rw [ne_eq (mk _ _), mk.injEq]
  dsimp only
  omega

theorem LatencyLoop.checkAudioInfoChanged_eq :
    s.checkAudioInfoChanged info =
      if info.Known ∧ info ≠ s.gBst then
        if s.audec.Known then { s with gBst := info, formatChangedFlag := true }
        else { s with gBst := info, audec := info }
      else s := by
  change (if info.Known then _ else s) = _
  simp [← not_known, ne_iff, ite_and]

section

variable (h : SameInfo s a)
include h

theorem SameInfo.check (info : StreamInfo) :
    SameInfo (s.checkAudioInfoChanged info) (a.report info) := by
  rw [checkAudioInfoChanged_eq, h.gBst]
  unfold ExactLatency.report
  by_cases hknown : info.Known
  · by_cases hnew : info = a.current
    · -- the information is that of the PCM buffer, and the track is set to it unless it has one
      have happlied : (if a.applied.Known then a.applied else info) = a.applied := by
        split
        · rfl
        · next hunset => rw [hnew, h.unknown.resolve_left hunset]
      rw [if_neg (fun hc => hc.2 hnew), if_pos hknown, happlied, hnew]
      exact h
    · rw [if_pos ⟨hknown, hnew⟩, if_pos hknown]
      by_cases happlied : a.applied.Known
      · rw [h.audec, if_pos happlied, if_pos happlied]
        exact ⟨rfl, rfl, fun hflag => Bool.noConfusion hflag, .inl happlied⟩
      · rw [h.audec, if_neg happlied, if_neg happlied]
        exact ⟨rfl, rfl, fun _ => rfl, .inr rfl⟩
  · rw [if_neg (fun hc => hknown hc.1), if_neg hknown]
    exact h

theorem SameInfo.reset : SameInfo s.resetTrack a.reset := by
  unfold resetTrack
  split
  · exact ⟨h.gBst, h.gBst, fun _ => rfl, .inr rfl⟩
  · next hflag =>
    have hsame := h.flag (by simpa using hflag)
    exact ⟨h.audec.trans hsame, h.gBst, fun _ => rfl, .inr rfl⟩

theorem SameInfo.checked (info : StreamInfo) (resetBetween : Bool) :
    SameInfo (s.checked info resetBetween) (a.reported info resetBetween) := by
  unfold LatencyLoop.checked ExactLatency.reported
  split
  · exact (h.check info).reset
  · exact h.check info

theorem SameInfo.step (e : LatencyEvent) : SameInfo (s.step format e) (a.step format e) := by
  cases e with
  | package => exact ⟨h.audec, h.gBst, h.flag, h.unknown⟩
  | resetTrack => exact h.reset
  | output outlen info nAudioDecoderType resetBetween =>
    have hchecked := h.checked info resetBetween
    unfold LatencyLoop.step ExactLatency.step
    dsimp only
    split
    · split
      · unfold addLatency ExactLatency.add
        dsimp only
        split
        · exact ⟨hchecked.audec, hchecked.gBst, hchecked.flag, hchecked.unknown⟩
        · exact ⟨hchecked.audec, hchecked.gBst, hchecked.flag, hchecked.unknown⟩
      · exact hchecked
    · split
      · exact h.reset
      · exact h

end

/-! ## The sum -/

theorem int32_of_lt {n : Nat} (hn : n < 2 ^ 31) : int32 n = n :=
  Int.bmod_eq_of_le (by omega) (by omega)

@[simp] theorem LatencyLoop.resetTrack_sum :
    s.resetTrack.latencys = s.latencys ∧ s.resetTrack.crashed = s.crashed := by
  unfold resetTrack
  split <;> exact ⟨rfl, rfl⟩

@[simp] theorem LatencyLoop.checkAudioInfoChanged_sum :
    (s.checkAudioInfoChanged info).latencys = s.latencys ∧
    (s.checkAudioInfoChanged info).crashed = s.crashed := by
  rw [checkAudioInfoChanged_eq]
  split
  · split <;> exact ⟨rfl, rfl⟩
  · exact ⟨rfl, rfl⟩

@[simp] theorem LatencyLoop.checked_sum (info : StreamInfo) (resetBetween : Bool)
    (s : LatencyLoop) : (s.checked info resetBetween).latencys = s.latencys ∧
    (s.checked info resetBetween).crashed = s.crashed := by
  unfold checked
  split <;> simp

@[simp] theorem ExactLatency.reported_latency (resetBetween : Bool) :
    (a.reported info resetBetween).latency = a.latency := by
  have hreport : (a.report info).latency = a.latency := by
    unfold ExactLatency.report
    split <;> rfl
  unfold ExactLatency.reported
  split
  · exact hreport
  · exact hreport

theorem StreamInfo.bytesPerSecond_eq_zero : i.bytesPerSecond = 0 ↔ ¬ i.Known := by
  rw [not_known, bytesPerSecond, Nat.mul_eq_zero, Nat.mul_eq_zero]
  omega

section

variable (h : NoOverflow s outlen)
include h

theorem NoOverflow.bytes :
    int32 (int32 (s.audec.samplerate * s.audec.channels) * 2) = s.audec.bytesPerSecond := by
  have hbytes : s.audec.samplerate * s.audec.channels * 2 < 2 ^ 31 := h.divisor
  rw [← Int.natCast_mul, int32_of_lt (by omega)]
  exact int32_of_lt hbytes

theorem LatencyLoop.addLatency_of_unknown (hknown : ¬ s.audec.Known) :
    s.addLatency outlen = { s with crashed := true } := by
  have hzero := h.bytes
  rw [bytesPerSecond_eq_zero.mpr hknown, Int.natCast_zero] at hzero
  unfold addLatency
  rw [if_pos hzero]

theorem LatencyLoop.addLatency_of_known {latency : Nat}
    (hknown : s.audec.Known) (hlatency : s.latencys = latency) :
    s.addLatency outlen =
      { s with latencys := (latency + outlen * 90000 / s.audec.bytesPerSecond : Nat) } := by
  have hdivisor : ¬ (s.audec.bytesPerSecond : Int) = 0 := by
    intro hzero
    exact bytesPerSecond_eq_zero.mp (Int.natCast_eq_zero.mp hzero) hknown
  have hquotient : (int32 (outlen * 90000)).tdiv s.audec.bytesPerSecond =
      (outlen * 90000 / s.audec.bytesPerSecond : Nat) := by
    have hdividend : (outlen : Int) * 90000 = (outlen * 90000 : Nat) := by omega
    rw [hdividend, int32_of_lt h.dividend, ← Int.ofNat_tdiv]
  have hsum := h.sum
  unfold addLatency
  rw [h.bytes, if_neg hdivisor, hquotient, hlatency, ← Int.natCast_add, int32_of_lt (by omega)]

end

/-! ## The runs -/

structure KeepsAccount (s : LatencyLoop × ExactLatency) : Prop where
  info : SameInfo s.1 s.2
  running : s.1.crashed = false
  latency : s.1.latencys = s.2.latency

variable (format : AudioFormat)

variable (t : LatencyLoop × ExactLatency)

theorem addsExactly_iff (e : LatencyEvent) (h : KeepsAccount t) :
    AddsExactly format t e ↔ LatencyFits format t e := by
  obtain ⟨s, a⟩ := t
  cases e with
  | package => exact Iff.rfl
  | resetTrack => exact Iff.rfl
  | output outlen info nAudioDecoderType resetBetween =>
    refine imp_congr_right fun ⟨houtput, htype⟩ => ?_
    have hinfo := h.info.checked info resetBetween
    have hrunning := ((checked_sum info resetBetween s).2).trans h.running
    have hlatency : (s.checked info resetBetween).latencys =
        (a.reported info resetBetween).latency := by
      rw [(checked_sum info resetBetween s).1, a.reported_latency]
      exact h.latency
    unfold step ExactLatency.step
    dsimp only
    rw [if_pos houtput, if_pos htype, if_pos houtput, if_pos htype]
    generalize s.checked info resetBetween = s' at *
    generalize a.reported info resetBetween = a' at *
    constructor
    · rintro ⟨hno, hcrashed, hexact⟩
      have hknown : s'.audec.Known := by
        refine Classical.byContradiction fun hunknown => ?_
        rw [addLatency_of_unknown hno hunknown] at hcrashed
        exact Bool.noConfusion hcrashed
      rw [addLatency_of_known hno hknown hlatency] at hexact
      have hequal := Int.ofNat_inj.mp hexact
      have hsum := hno.sum
      have hdivisor := hno.divisor
      rw [hinfo.audec] at hknown hequal hsum hdivisor
      exact ⟨hknown, hdivisor, hno.dividend, by omega, Nat.add_left_cancel hequal⟩
    · intro hfits
      have hno : NoOverflow s' outlen := by
        have hsum := hfits.sum
        refine ⟨hinfo.audec ▸ hfits.divisor, hfits.dividend, ?_⟩
        rw [hinfo.audec, hlatency]
        omega
      rw [addLatency_of_known hno (hinfo.audec ▸ hfits.known) hlatency]
      refine ⟨hno, hrunning, ?_⟩
      unfold ExactLatency.add
      rw [hinfo.audec, hfits.applied]

theorem KeepsAccount.step (e : LatencyEvent) (h : KeepsAccount t)
    (hexact : AddsExactly format t e) :
    KeepsAccount (((latencyLoop format).both (exactLatency format)).step t e).1 := by
  obtain ⟨s, a⟩ := t
  suffices hsum : (s.step format e).crashed = false ∧
      (s.step format e).latencys = (a.step format e).latency from
    ⟨h.info.step format e, hsum.1, hsum.2⟩
  have hreset : s.resetTrack.crashed = false ∧ s.resetTrack.latencys = a.latency :=
    ⟨s.resetTrack_sum.2.trans h.running, s.resetTrack_sum.1.trans h.latency⟩
  cases e with
  | package => exact ⟨h.running, rfl⟩
  | resetTrack => exact hreset
  | output outlen info nAudioDecoderType resetBetween =>
    by_cases hcounts : CountsLatency format outlen nAudioDecoderType
    · exact (hexact hcounts).2
    · unfold LatencyLoop.step ExactLatency.step
      dsimp only
      by_cases houtput : outlen > 0 ∧ format.raw = false
      · have htype : ¬ nAudioDecoderType ≠ .aacLatm := fun htype => hcounts ⟨houtput, htype⟩
        rw [if_pos houtput, if_neg htype, if_pos houtput, if_neg htype, a.reported_latency,
          (checked_sum info resetBetween s).1, (checked_sum info resetBetween s).2]
        exact ⟨h.running, h.latency⟩
      · rw [if_neg houtput, if_neg houtput]
        split
        · exact hreset
        · exact ⟨h.running, h.latency⟩

theorem latency_iff (format : AudioFormat) (header : StreamInfo) (es : List LatencyEvent) :
    ((latencyLoop format).both (exactLatency format)).Always (AddsExactly format)
        (.start header, .start header) es ↔
      ((latencyLoop format).both (exactLatency format)).Always (LatencyFits format)
        (.start header, .start header) es := by
  refine Machine.always_congr (addsExactly_iff format) (KeepsAccount.step format) es _ ?_
  exact ⟨⟨rfl, rfl, fun _ => rfl, .inr rfl⟩, rfl, rfl⟩

/-- Without information the loop divides by zero. 24000 bytes, in stereo at 48000 Hz, times 90000
are beyond `int`. After a change to 24000 Hz the first output is still counted with the old rate. -/
theorem latency_wrong :
    ((latencyLoop .aac).exec (.start ⟨0, 0⟩) [.output 4096 ⟨0, 0⟩ .aac false]).2.crashed = true ∧
      ((latencyLoop .aac).exec (.start ⟨2, 48000⟩)
        [.output 24000 ⟨2, 48000⟩ .aac false]).2.latencys = -11119 ∧
      ((exactLatency .aac).exec (.start ⟨2, 48000⟩)
        [.output 24000 ⟨2, 48000⟩ .aac false]).2.latency = 11250 ∧
      ((latencyLoop .aac).exec (.start ⟨2, 48000⟩)
        [.output 4096 ⟨2, 24000⟩ .aac false]).2.latencys = 1920 ∧
      ((exactLatency .aac).exec (.start ⟨2, 48000⟩)
        [.output 4096 ⟨2, 24000⟩ .aac false]).2.latency = 3840 := by
  decide

end AmlogicHal.Amadec
