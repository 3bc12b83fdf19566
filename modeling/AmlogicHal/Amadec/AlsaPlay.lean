import Mathlib.Algebra.Order.Ring.Rat
import Mathlib.Algebra.Order.Ring.Int
import Mathlib.Tactic.LinearCombination
import Mathlib.Tactic.Ring

/-!
# Playing through ALSA

`alsa_play` converts a piece of the stream to the rate and channels of the device, writes it with
`pcm_write`, and returns how many bytes were played; the playback loop goes on behind them. So the
frames the device accepts have to be the converted form of exactly these bytes (`PlayedExactly`).

If `snd_pcm_prepare` fails, `pcm_write` returns 0 whatever the device has accepted.
`alsaPlay_exact_iff` says when the result is right, and after `prepareFails_repeats` 32 frames are
played again.
-/

namespace AmlogicHal.Amadec

open List

/-! ## Writing to the device -/

/-- One turn of the loop in `pcm_write`: what `snd_pcm_writei` answers, and the calls that
follow. -/
inductive WriteAnswer where
  /-- The device takes as many frames as it has room for. -/
  | accepts (room : Nat)
  /-- `-EINTR`. -/
  | interrupted
  /-- `-ESTRPIPE`. Whether `snd_pcm_resume` succeeds when it no longer answers `-EAGAIN`, and
  whether `snd_pcm_prepare` does if it is called. -/
  | suspended (resumed prepared : Bool)
  /-- Any other error. -/
  | failed (prepared : Bool)
deriving DecidableEq, Repr

/-- The room that is used in this turn, or nothing if `snd_pcm_prepare` fails. -/
def WriteAnswer.room : WriteAnswer → Option Nat
  | accepts room => some room
  | interrupted => some 0
  | suspended resumed prepared => if resumed || prepared then some 0 else none
  | failed prepared => if prepared then some 0 else none

/-- The result of `pcm_write`, which is a `size_t`, and the frames that the device has accepted. -/
structure PcmWritten (φ : Type) where
  result : Nat
  accepted : List φ

/-- The loop of `pcm_write`. It has not returned as long as there are frames left and the device has
not answered. -/
def writeLoop {φ : Type} : List WriteAnswer → List φ → Nat → List φ → Option (PcmWritten φ)
  | [], data, result, accepted => if data.length > 0 then none else some ⟨result, accepted⟩
  | answer :: answers, data, result, accepted =>
    if data.length > 0 then
      match answer.room with
      | none => some ⟨0, accepted⟩
      | some room =>
        writeLoop answers (data.drop room) (result + (data.take room).length)
          (accepted ++ data.take room)
    else some ⟨result, accepted⟩

/-- What `alsa_play` finds besides its arguments. -/
structure AlsaHost where
  /-- The width of `size_t`. -/
  sizeBits : Nat
  tvMode : Bool
  mallocOk : Bool
  /-- What `alsa_default_vol` makes of a sample. -/
  volume : Int → Int
  /-- What is in a variable that was not set. -/
  indeterminate : Int

variable (host : AlsaHost)

/-- A frame of the device. A TV has eight channels of 32 bits. -/
def AlsaHost.deviceFrame (frame : Int × Int) : List Int :=
  let l := host.volume frame.1
  let r := host.volume frame.2
  if host.tvMode then [l * 65536, r * 65536, l * 65536, r * 65536, 0, 0, 0, 0] else [l, r]

def pcmWrite (frames : List (Int × Int)) (answers : List WriteAnswer) :
    Option (PcmWritten (List Int)) :=
  if host.tvMode && !host.mallocOk then some ⟨2 ^ host.sizeBits - 1, []⟩
  else writeLoop answers (frames.map host.deviceFrame) 0 []

/-! ## Interpolation -/

def clipToShort (x : Int) : Int := if x > 0x7fff then 0x7fff else if x < -0x8000 then -0x8000 else x

/-- The last samples that a pass has seen, oldest first. -/
structure History where
  s0 : Int
  s1 : Int
  s2 : Int
  s3 : Int
  s4 : Int
  s5 : Int
deriving DecidableEq, Repr

namespace History

def push (s : History) (x : Int) : History := ⟨s.s1, s.s2, s.s3, s.s4, s.s5, x⟩

/-- The sample between the third and the fourth one. -/
def between (s : History) : Int :=
  clipToShort ((150 * (s.s2 + s.s3) - 25 * (s.s1 + s.s4) + 3 * (s.s0 + s.s5) + 128) / 256)

/-- One pass over the samples of a channel: two samples for each. -/
def upsample (s : History) : List Int → List Int × History
  | [] => ([], s)
  | x :: xs =>
    ((s.push x).s2 :: (s.push x).between :: ((s.push x).upsample xs).1, ((s.push x).upsample xs).2)

end History

open History

structure Passes where
  pass1 : History
  pass2 : History
deriving DecidableEq, Repr

/-- The part of `pcm_interpolation` for one channel. -/
def Passes.interpolate (p : Passes) (interpolation : Nat) (xs : List Int) : List Int × Passes :=
  if interpolation ≥ 2 then
    ((p.pass2.upsample (p.pass1.upsample xs).1).1,
      ⟨(p.pass1.upsample xs).2, (p.pass2.upsample (p.pass1.upsample xs).1).2⟩)
  else ((p.pass1.upsample xs).1, ⟨(p.pass1.upsample xs).2, p.pass2⟩)

/-- `pass1_history` and `pass2_history`, channel by channel. -/
structure Histories where
  first : Passes
  second : Passes
deriving DecidableEq, Repr

/-- The samples of channel `ch` in the first `n` frames of a buffer. -/
def channelSamples (src : Nat → Int) (numChannel ch n : Nat) : List Int :=
  (List.range n).map fun i => src (numChannel * i + ch)

def interpolateStereo (interpolation : Nat) (h : Histories) (src : Nat → Int) (n : Nat) :
    List (Int × Int) × Histories :=
  let left := h.first.interpolate interpolation (channelSamples src 2 0 n)
  let right := h.second.interpolate interpolation (channelSamples src 2 1 n)
  (left.1.zip right.1, ⟨left.2, right.2⟩)

def interpolateMono (interpolation : Nat) (h : Histories) (src : Nat → Int) (n : Nat) :
    List (Int × Int) × Histories :=
  let only := h.first.interpolate interpolation (channelSamples src 1 0 n)
  (only.1.map fun x => (x, x), ⟨only.2, h.second⟩)

/-! ## The branches of `oversample_play` -/

/-- `bits_per_frame`: two channels of 16 bits. -/
def bitsPerFrame : Nat := 32

/-- A branch of `oversample_play`. -/
structure Conversion where
  /-- The bits that are divided by to get the number of frames. -/
  frameBits : Nat
  /-- The number of frames is cut to a multiple of this. -/
  group : Nat
  /-- The frames that are written for the first frames of a buffer. -/
  convert : Histories → (Nat → Int) → Nat → List (Int × Int) × Histories
  /-- Their number, as it is given to `pcm_write`. -/
  outFrames : Nat → Nat
  /-- The bytes that were written are multiplied by this, -/
  mul : Nat
  /-- or divided by this. -/
  div : Nat

namespace Conversion

def stereoHalf : Conversion where
  frameBits := bitsPerFrame
  group := 32
  convert h src n := ((List.range (n / 2)).map fun i => (src (4 * i), src (4 * i + 1)), h)
  outFrames n := n / 2
  mul := 2
  div := 1

def stereoTwice : Conversion where
  frameBits := bitsPerFrame
  group := 16
  convert := interpolateStereo 1
  outFrames n := n * 2
  mul := 1
  div := 2

def stereoFourfold : Conversion where
  frameBits := bitsPerFrame
  group := 8
  convert := interpolateStereo 2
  outFrames n := n * 4
  mul := 1
  div := 4

/-- Frames are counted as if there were two channels: of two samples one is played. -/
def monoHalf : Conversion where
  frameBits := bitsPerFrame
  group := 32
  convert h src n := ((List.range n).map fun i => (src (2 * i), src (2 * i)), h)
  outFrames n := n
  mul := 1
  div := 1

def monoSame : Conversion where
  frameBits := bitsPerFrame / 2
  group := 16
  convert h src n := ((List.range n).map fun i => (src i, src i), h)
  outFrames n := n
  mul := 1
  div := 2

def monoTwice : Conversion where
  frameBits := bitsPerFrame / 2
  group := 8
  convert := interpolateMono 1
  outFrames n := n * 2
  mul := 1
  div := 4

def monoFourfold : Conversion where
  frameBits := bitsPerFrame / 2
  group := 8
  convert := interpolateMono 2
  outFrames n := n * 4
  mul := 1
  div := 8

/-- `alsa_play` without oversampling. -/
def plain : Conversion where
  frameBits := bitsPerFrame
  group := 32
  convert h src n := ((List.range n).map fun i => (src (2 * i), src (2 * i + 1)), h)
  outFrames n := n
  mul := 1
  div := 1

/-- The number of frames in `len` bytes. The product is an `unsigned`. -/
def frames (c : Conversion) (len : Nat) : Nat := len * 8 % 2 ^ 32 / c.frameBits / c.group * c.group

end Conversion

open Conversion

/-- What a call of `alsa_play` does: its result, the frames that the device has accepted, and the
histories after it. -/
structure AlsaPlayed where
  ret : Int
  accepted : List (List Int)
  histories : Histories
deriving DecidableEq, Repr

/-- `ret * bits_per_frame / 8` for a `size_t`, as an `int`. -/
def AlsaHost.bytesOf (frames : Nat) : Int :=
  Int.bmod (frames * bitsPerFrame % 2 ^ host.sizeBits / 8 : Nat) (2 ^ 32)

def Conversion.play (c : Conversion) (host : AlsaHost) (h : Histories) (src : Nat → Int) (len : Nat)
    (answers : List WriteAnswer) : Option AlsaPlayed :=
  (pcmWrite host (c.convert h src (c.frames len)).1 answers).map fun written =>
    ⟨(host.bytesOf written.result * c.mul).tdiv c.div, written.accepted,
      (c.convert h src (c.frames len)).2⟩

/-- `oversample`: -1, 0, 1 and 2. -/
inductive Oversample where
  | half
  | same
  | twice
  | fourfold
deriving DecidableEq, Repr

/-- The fields of `alsa_param_t` that `alsa_init` takes from the stream. -/
structure AlsaParam where
  flag : Bool
  oversample : Oversample
  rate : Nat
  realChannel : Nat
deriving DecidableEq, Repr

open AlsaParam

/-- The branch of `oversample_play`, which for some parameters has none. -/
def AlsaParam.branch (p : AlsaParam) : Option Conversion :=
  if p.realChannel = 2 then
    match p.oversample with
    | .half => some .stereoHalf
    | .same => none
    | .twice => some .stereoTwice
    | .fourfold => some .stereoFourfold
  else if p.realChannel = 1 then
    match p.oversample with
    | .half => some .monoHalf
    | .same => some .monoSame
    | .twice => some .monoTwice
    | .fourfold => some .monoFourfold
  else none

def oversamplePlay (p : AlsaParam) (h : Histories) (src : Nat → Int) (count : Nat)
    (answers : List WriteAnswer) : Option AlsaPlayed :=
  match p.branch with
  | some c => c.play host h src count answers
  -- `ret` is returned without having been set.
  | none => some ⟨host.indeterminate, [], h⟩

def alsaPlay (p : AlsaParam) (h : Histories) (src : Nat → Int) (len : Nat)
    (answers : List WriteAnswer) : Option AlsaPlayed :=
  if !p.flag then Conversion.plain.play host h src len answers
  else oversamplePlay host p h src len answers

/-- The choice that `alsa_init` makes. The flag is 0 unless it is set. -/
def alsaInit (samplerate : Int) (channels : Nat) : AlsaParam :=
  if samplerate ≥ (88200 + 96000) / 2 then ⟨true, .half, 48000, channels⟩
  else if samplerate ≥ (64000 + 88200) / 2 then ⟨true, .half, 44100, channels⟩
  else if samplerate ≥ (48000 + 64000) / 2 then ⟨true, .half, 32000, channels⟩
  else if samplerate ≥ (44100 + 48000) / 2 then ⟨channels = 1, .same, 48000, channels⟩
  else if samplerate ≥ (32000 + 44100) / 2 then ⟨channels = 1, .same, 44100, channels⟩
  else if samplerate ≥ (24000 + 32000) / 2 then ⟨channels = 1, .same, 32000, channels⟩
  else if samplerate ≥ (22050 + 24000) / 2 then ⟨true, .twice, 48000, channels⟩
  else if samplerate ≥ (16000 + 22050) / 2 then ⟨true, .twice, 44100, channels⟩
  else if samplerate ≥ (12000 + 16000) / 2 then ⟨true, .twice, 32000, channels⟩
  else if samplerate ≥ (11025 + 12000) / 2 then ⟨true, .fourfold, 48000, channels⟩
  else if samplerate ≥ (8000 + 11025) / 2 then ⟨true, .fourfold, 44100, channels⟩
  else ⟨true, .fourfold, 32000, channels⟩

/-! ## What is to be returned -/

def AlsaParam.conversion (p : AlsaParam) : Option Conversion :=
  if !p.flag then some .plain else p.branch

/-- The result is a number of whole frames of the input, and the device has accepted their converted
form. -/
def Conversion.PlayedExactly (c : Conversion) (host : AlsaHost) (h : Histories) (src : Nat → Int)
    (out : AlsaPlayed) : Prop :=
  ∃ n : Nat, out.ret * 8 = n * c.frameBits ∧
    out.accepted = (c.convert h src n).1.map host.deviceFrame

/-- The room that the device has until an error ends the loop. -/
def roomOf : List WriteAnswer → Nat
  | [] => 0
  | answer :: answers => answer.room.elim 0 (· + roomOf answers)

/-- The device has room for nothing or for all that it is offered, and the number of bytes of the
latter can be represented. -/
def Conversion.NothingOrAll (c : Conversion) (host : AlsaHost) (len : Nat)
    (answers : List WriteAnswer) : Prop :=
  min (roomOf answers) (c.outFrames (c.frames len)) = 0 ∨
    c.outFrames (c.frames len) ≤ roomOf answers ∧
      c.outFrames (c.frames len) * bitsPerFrame < 2 ^ host.sizeBits ∧
      c.outFrames (c.frames len) * 4 < 2 ^ 31

/-! ## What is accepted -/

/-- The loop returns after the device has accepted everything, or with 0 after a part. -/
theorem writeLoop_spec {φ : Type} {answers : List WriteAnswer} {out : PcmWritten φ} :
    ∀ {data : List φ} {result : Nat} {accepted : List φ},
      writeLoop answers data result accepted = some out →
        out.accepted = accepted ++ data.take (roomOf answers) ∧
          (data.length ≤ roomOf answers ∧ out.result = result + data.length ∨
            roomOf answers < data.length ∧ out.result = 0) := by
  induction answers with
  | nil =>
    intro data result accepted h
    unfold writeLoop at h
    split at h
    · exact absurd h (by simp)
    · next hempty =>
      have hnil : data = [] := length_eq_zero_iff.mp (Nat.eq_zero_of_not_pos hempty)
      cases Option.some.inj h
      simp [hnil]
  | cons answer answers ih =>
    intro data result accepted h
    unfold writeLoop at h
    split at h
    · next hpos =>
      cases hroom : answer.room with
      | none =>
        rw [hroom] at h
        cases Option.some.inj h
        simp [roomOf, hroom, hpos]
      | some room =>
        rw [hroom] at h
        obtain ⟨haccepted, hresult⟩ := ih h
        rw [length_drop, length_take] at hresult
        have hrooms : roomOf (answer :: answers) = room + roomOf answers := by
          rw [roomOf, hroom]; rfl
        rw [hrooms]
        refine ⟨?_, by omega⟩
        rw [haccepted, append_assoc, ← take_add]
    · next hempty =>
      have hnil : data = [] := length_eq_zero_iff.mp (Nat.eq_zero_of_not_pos hempty)
      cases Option.some.inj h
      simp [hnil]

/-! ## What is returned -/

namespace AlsaHost

variable {host : AlsaHost}

theorem bytesOf_zero : host.bytesOf 0 = 0 := by
  unfold bytesOf
  rw [Nat.zero_mul, Nat.zero_mod]
  rfl

/-- The number of bytes, which is too small by a multiple of 2^29 if it cannot be represented. -/
theorem bytesOf_spec (hbits : host.sizeBits = 32 ∨ host.sizeBits = 64) {n : Nat} (hn : n < 2 ^ 30) :
    ∃ j : Nat, host.bytesOf n = 4 * n - j * 2 ^ 29 ∧
      (j = 0 ↔ n * bitsPerFrame < 2 ^ host.sizeBits ∧ n * 4 < 2 ^ 31) := by
  unfold bytesOf bitsPerFrame
  rcases hbits with h | h
  · rw [h]
    have hbytes : n * 32 % 2 ^ 32 / 8 = 4 * n % 2 ^ 29 := by omega
    rw [hbytes, Int.bmod_eq_of_le (by omega) (by omega)]
    exact ⟨4 * n / 2 ^ 29, by omega, by omega⟩
  · rw [h]
    have hbytes : n * 32 % 2 ^ 64 / 8 = 4 * n := by omega
    rw [hbytes]
    by_cases hsmall : n * 4 < 2 ^ 31
    · rw [Int.bmod_eq_of_le (by omega) (by omega)]
      exact ⟨0, by omega, by omega⟩
    · have hwraps : Int.bmod ((4 * n : Nat) : Int) (2 ^ 32) = 4 * n - 2 ^ 32 := by
        rw [Int.bmod_def]
        split <;> omega
      exact ⟨8, by omega, by omega⟩

end AlsaHost

theorem History.length_upsample (xs : List Int) :
    ∀ s : History, (s.upsample xs).1.length = xs.length * 2 := by
  induction xs with
  | nil => exact fun _ => rfl
  | cons x xs ih =>
    simp only [upsample, length_cons, ih]
    omega

theorem Passes.length_interpolate (p : Passes) (xs : List Int) :
    (p.interpolate 1 xs).1.length = xs.length * 2 ∧
    (p.interpolate 2 xs).1.length = xs.length * 4 := by
  constructor
  · exact length_upsample xs _
  · show (upsample _ (upsample _ xs).1).1.length = _
    rw [length_upsample, length_upsample]
    omega

namespace Conversion

def frameBytes (c : Conversion) : Nat := c.frameBits / 8

/-- What all branches have in common. -/
structure Regular (c : Conversion) : Prop where
  length : ∀ h src n, (c.convert h src n).1.length = c.outFrames n
  frameBits : c.frameBits = 8 * c.frameBytes
  frameBytes : 0 < c.frameBytes ∧ c.frameBytes ≤ 4
  group : 0 < c.group
  mul : 0 < c.mul
  div : c.div ∣ 8
  scaled : ∀ k, 4 * c.outFrames (k * c.group) * c.mul = k * c.group * c.frameBytes * c.div
  bounded : ∀ n, 4 * c.outFrames n ≤ n * c.frameBits
  /-- Nothing is written for nothing, or for half of what gives a frame. -/
  empty : ∀ n, c.outFrames n = 0 → n < 2
  /-- Fewer frames of the input give fewer frames of the output. -/
  least : ∀ k n, c.outFrames n = c.outFrames (k * c.group) → k * c.group ≤ n

theorem regular_stereoHalf : stereoHalf.Regular := by
  refine ⟨fun h src n => by simp [stereoHalf], rfl, by decide, by decide, by decide, by decide, ?_,
    ?_, ?_, ?_⟩
  all_goals
    simp only [stereoHalf, frameBytes, bitsPerFrame]
    omega

/-- All branches but one write a fixed number of frames for each frame of the input. -/
theorem regular_of_linear {c : Conversion} (u : Nat)
    (hlength : ∀ h src n, (c.convert h src n).1.length = n * u) (hout : ∀ n, c.outFrames n = n * u)
    (hvalues : 0 < u ∧ c.frameBits = 8 * c.frameBytes ∧ (0 < c.frameBytes ∧ c.frameBytes ≤ 4) ∧
      0 < c.group ∧ 0 < c.mul ∧ c.div ∣ 8 ∧ 4 * u * c.mul = c.frameBytes * c.div ∧
        4 * u ≤ c.frameBits) : c.Regular := by
  obtain ⟨hu, hframeBits, hframeBytes, hgroup, hmul, hdiv, hscaled, hbounded⟩ := hvalues
  refine ⟨fun h src n => by rw [hlength, hout], hframeBits, hframeBytes, hgroup, hmul, hdiv,
    fun k => ?_,
    fun n => ?_, fun n hn => ?_, fun k n hn => ?_⟩
  · calc 4 * c.outFrames (k * c.group) * c.mul = k * c.group * (4 * u * c.mul) := by
          rw [hout]
          ring
      _ = k * c.group * c.frameBytes * c.div := by rw [hscaled, Nat.mul_assoc _ c.frameBytes]
  · have hle : n * (4 * u) ≤ n * c.frameBits := Nat.mul_le_mul_left n hbounded
    rwa [hout, ← Nat.mul_left_comm]
  · rw [hout] at hn
    have hzero : n = 0 := (Nat.mul_eq_zero.mp hn).resolve_right hu.ne'
    omega
  · rw [hout, hout] at hn
    exact Nat.le_of_eq (Nat.eq_of_mul_eq_mul_right hu hn).symm

theorem regular_stereoTwice : stereoTwice.Regular := by
  refine regular_of_linear 2 (fun h src n => ?_) (fun _ => rfl) (by decide)
  simp [stereoTwice, interpolateStereo, channelSamples, (Passes.length_interpolate _ _).1]

theorem regular_stereoFourfold : stereoFourfold.Regular := by
  refine regular_of_linear 4 (fun h src n => ?_) (fun _ => rfl) (by decide)
  simp [stereoFourfold, interpolateStereo, channelSamples, (Passes.length_interpolate _ _).2]

theorem regular_monoHalf : monoHalf.Regular :=
  regular_of_linear 1 (fun h src n => by simp [monoHalf]) (fun n => (Nat.mul_one n).symm)
    (by decide)

theorem regular_monoSame : monoSame.Regular :=
  regular_of_linear 1 (fun h src n => by simp [monoSame]) (fun n => (Nat.mul_one n).symm)
    (by decide)

theorem regular_monoTwice : monoTwice.Regular := by
  refine regular_of_linear 2 (fun h src n => ?_) (fun _ => rfl) (by decide)
  simp [monoTwice, interpolateMono, channelSamples, (Passes.length_interpolate _ _).1]

theorem regular_monoFourfold : monoFourfold.Regular := by
  refine regular_of_linear 4 (fun h src n => ?_) (fun _ => rfl) (by decide)
  simp [monoFourfold, interpolateMono, channelSamples, (Passes.length_interpolate _ _).2]

theorem regular_plain : plain.Regular :=
  regular_of_linear 1 (fun h src n => by simp [plain]) (fun n => (Nat.mul_one n).symm) (by decide)

variable {c : Conversion} {host : AlsaHost}

theorem Regular.convert_zero (hc : c.Regular) (h : Histories) (src : Nat → Int) :
    (c.convert h src 0).1 = [] := by
  have hzero := hc.scaled 0
  have hout : c.outFrames 0 = 0 := by
    have hne := hc.mul.ne'
    simpa [hne] using hzero
  exact length_eq_zero_iff.mp ((hc.length h src 0).trans hout)

theorem Regular.ret_iff (hc : c.Regular) {ret : Int} {n : Nat} :
    ret * 8 = n * c.frameBits ↔ ret = n * c.frameBytes := by
  rw [hc.frameBits, Nat.cast_mul, mul_left_comm]
  omega

theorem frames_eq (c : Conversion) (len : Nat) :
    ∃ k, c.frames len = k * c.group ∧ c.frames len * c.frameBits ≤ len * 8 % 2 ^ 32 := by
  refine ⟨_, rfl, ?_⟩
  have hgroup := Nat.div_mul_le_self (len * 8 % 2 ^ 32 / c.frameBits) c.group
  have hbits := Nat.div_mul_le_self (len * 8 % 2 ^ 32) c.frameBits
  exact (Nat.mul_le_mul_right _ hgroup).trans hbits

/-- The result for a call in which everything is accepted: the bytes of its frames, or less if their
number cannot be represented. -/
theorem ret_spec (hc : c.Regular) (hbits : host.sizeBits = 32 ∨ host.sizeBits = 64) (len : Nat) :
    ∃ j : Nat, (host.bytesOf (c.outFrames (c.frames len)) * c.mul).tdiv c.div =
        c.frames len * c.frameBytes - j ∧
      (j = 0 ↔ c.outFrames (c.frames len) * bitsPerFrame < 2 ^ host.sizeBits ∧
        c.outFrames (c.frames len) * 4 < 2 ^ 31) := by
  obtain ⟨k, hk, hsmall⟩ := c.frames_eq len
  have hbounded := hc.bounded (c.frames len)
  obtain ⟨j, hj, hfits⟩ := AlsaHost.bytesOf_spec hbits
    (by omega : c.outFrames (c.frames len) < 2 ^ 30)
  obtain ⟨e, he⟩ := hc.div
  have hscaled := hc.scaled k
  rw [← hk] at hscaled
  have hdiv : (c.div : Int) ≠ 0 := by
    intro h
    rw [Int.natCast_eq_zero.mp h, Nat.zero_mul] at he
    exact absurd he (by decide)
  have hproduct : host.bytesOf (c.outFrames (c.frames len)) * c.mul =
      c.div * (c.frames len * c.frameBytes - (j * (e * 2 ^ 26) * c.mul : Nat)) := by
    have hcast : (4 * c.outFrames (c.frames len) * c.mul : Int) =
        c.frames len * c.frameBytes * c.div :=
      mod_cast hscaled
    have height : (8 : Int) = c.div * e := mod_cast he
    rw [hj]
    push_cast
    linear_combination hcast - j * c.mul * 2 ^ 26 * height
  refine ⟨j * (e * 2 ^ 26) * c.mul, ?_, ?_⟩
  · rw [hproduct, Int.mul_tdiv_cancel_left _ hdiv]
  · have he' : e ≠ 0 := by
      rintro rfl
      exact absurd he (by simp)
    have hmul := hc.mul.ne'
    rw [← hfits]
    simp [he', hmul]

variable {h : Histories} {src : Nat → Int} {len : Nat} {answers : List WriteAnswer}
    {out : AlsaPlayed}

theorem play_spec (hmemory : (host.tvMode && !host.mallocOk) = false)
    (hout : c.play host h src len answers = some out) (hc : c.Regular) :
    out.accepted.length = min (roomOf answers) (c.outFrames (c.frames len)) ∧
      (out.accepted = (c.convert h src (c.frames len)).1.map host.deviceFrame ∧
          out.ret = (host.bytesOf (c.outFrames (c.frames len)) * c.mul).tdiv c.div ∨
        out.accepted.length < c.outFrames (c.frames len) ∧ out.ret = 0) := by
  obtain ⟨written, hwritten, rfl⟩ := Option.map_eq_some_iff.mp hout
  unfold pcmWrite at hwritten
  rw [hmemory] at hwritten
  have hlength : ((c.convert h src (c.frames len)).1.map host.deviceFrame).length =
      c.outFrames (c.frames len) := by
    rw [length_map, hc.length]
  obtain ⟨haccepted, hresult⟩ := writeLoop_spec hwritten
  rw [nil_append] at haccepted
  have htaken : written.accepted.length = min (roomOf answers) (c.outFrames (c.frames len)) := by
    rw [haccepted, length_take, hlength]
  refine ⟨htaken, ?_⟩
  rw [hlength, Nat.zero_add] at hresult
  rcases hresult with ⟨hall, hresult⟩ | ⟨hpart, hresult⟩
  · exact .inl ⟨haccepted.trans (take_of_length_le (hlength.trans_le hall)), by rw [hresult]⟩
  · refine .inr ⟨htaken.trans_lt (by omega), ?_⟩
    rw [hresult, host.bytesOf_zero, Int.zero_mul, Int.zero_tdiv]

theorem playedExactly_iff_of_ret_zero (hc : c.Regular) (hret : out.ret = 0) :
    c.PlayedExactly host h src out ↔ out.accepted = [] := by
  constructor
  · rintro ⟨n, hn, hn'⟩
    have hzero : n = 0 := by
      rw [hc.ret_iff, hret] at hn
      have hne := hc.frameBytes.1.ne'
      simpa [hne] using hn.symm
    rwa [hzero, hc.convert_zero] at hn'
  · intro hnil
    refine ⟨0, by simp [hret], ?_⟩
    rw [hnil, hc.convert_zero]
    rfl

theorem playedExactly_iff (hbits : host.sizeBits = 32 ∨ host.sizeBits = 64)
    (hmemory : (host.tvMode && !host.mallocOk) = false)
    (hout : c.play host h src len answers = some out) (hc : c.Regular) :
    c.PlayedExactly host h src out ↔ c.NothingOrAll host len answers := by
  obtain ⟨k, hk, -⟩ := c.frames_eq len
  obtain ⟨htaken, hcases⟩ := play_spec hmemory hout hc
  have hcondition : c.NothingOrAll host len answers ↔ out.accepted = [] ∨
      out.accepted.length = c.outFrames (c.frames len) ∧
        c.outFrames (c.frames len) * bitsPerFrame < 2 ^ host.sizeBits ∧
          c.outFrames (c.frames len) * 4 < 2 ^ 31 := by
    rw [NothingOrAll, ← length_eq_zero_iff, htaken, min_eq_right_iff]
  rw [hcondition]
  rcases hcases with ⟨haccepted, hret⟩ | ⟨hpart, hret⟩
  · obtain ⟨j, hj, hfits⟩ := c.ret_spec hc hbits len
    rw [hj] at hret
    have hlength : out.accepted.length = c.outFrames (c.frames len) := by
      rw [haccepted, length_map, hc.length]
    constructor
    · rintro ⟨n, hn, hn'⟩
      have hsame : c.outFrames n = c.outFrames (c.frames len) := by
        rw [← hlength, hn', length_map, hc.length]
      have hle : c.frames len ≤ n := by
        rw [hk] at hsame ⊢
        exact hc.least k n hsame
      have hmono : (c.frames len * c.frameBytes : Int) ≤ n * c.frameBytes :=
        mod_cast Nat.mul_le_mul_right c.frameBytes hle
      rw [hc.ret_iff, hret] at hn
      exact .inr ⟨hlength, hfits.mp (by omega)⟩
    · intro hall
      have hzero : j = 0 := by
        rcases hall with hnil | ⟨-, hall⟩
        · rw [hnil] at hlength
          refine hfits.mpr ?_
          rw [← hlength]
          exact ⟨by simp, by decide⟩
        · exact hfits.mpr hall
      refine ⟨c.frames len, hc.ret_iff.mpr ?_, haccepted⟩
      rw [hret, hzero, Nat.cast_zero, Int.sub_zero]
  · rw [playedExactly_iff_of_ret_zero hc hret]
    exact (or_iff_left fun hall => Nat.ne_of_lt hpart hall.1).symm

theorem playedExactly_iff_of_noMemory (hmemory : (host.tvMode && !host.mallocOk) = true)
    (hout : c.play host h src len answers = some out) (hc : c.Regular) :
    c.PlayedExactly host h src out ↔
      ∃ n < 2, (host.bytesOf (2 ^ host.sizeBits - 1) * c.mul).tdiv c.div =
        (n * c.frameBytes : Nat) ∧ c.outFrames n = 0 := by
  obtain ⟨written, hwritten, rfl⟩ := Option.map_eq_some_iff.mp hout
  unfold pcmWrite at hwritten
  rw [hmemory] at hwritten
  cases Option.some.inj hwritten
  have hempty : ∀ n, [] = (c.convert h src n).1.map host.deviceFrame ↔ c.outFrames n = 0 := by
    intro n
    rw [eq_comm, map_eq_nil_iff, ← length_eq_zero_iff, hc.length]
  constructor
  · rintro ⟨n, hn, hn'⟩
    have hzero := (hempty n).mp hn'
    refine ⟨n, hc.empty n hzero, ?_, hzero⟩
    rw [hc.ret_iff] at hn
    rw [Nat.cast_mul, ← hn]
  · rintro ⟨n, -, hn, hzero⟩
    refine ⟨n, ?_, (hempty n).mpr hzero⟩
    rw [hc.ret_iff, ← Nat.cast_mul, ← hn]

end Conversion

/-! ## The parameters of a stream -/

/-- A choice either oversamples and sets the flag, or sets it for one channel only. -/
def AlsaParam.Chosen (channels : Nat) (p : AlsaParam) : Prop :=
  p.realChannel = channels ∧
    (p.flag = decide (channels = 1) ∧ p.oversample = .same ∨ p.flag = true ∧ p.oversample ≠ .same)

variable {p : AlsaParam} {c : Conversion} {host : AlsaHost}

theorem AlsaParam.Chosen.ite {channels : Nat} {c : Prop} [Decidable c] {q : AlsaParam}
    (hp : p.Chosen channels) (hq : q.Chosen channels) : (if c then p else q).Chosen channels :=
  iteInduction (fun _ => hp) fun _ => hq

theorem alsaInit_chosen (samplerate : Int) (channels : Nat) :
    (alsaInit samplerate channels).Chosen channels := by
  have hsame : ∀ rate, Chosen channels ⟨channels = 1, .same, rate, channels⟩ :=
    fun rate => ⟨rfl, .inl ⟨rfl, rfl⟩⟩
  have hover : ∀ oversample rate, oversample ≠ .same →
      Chosen channels ⟨true, oversample, rate, channels⟩ :=
    fun oversample rate hne => ⟨rfl, .inr ⟨rfl, hne⟩⟩
  have hhalf := fun rate => hover .half rate (by decide)
  have htwice := fun rate => hover .twice rate (by decide)
  have hfourfold := fun rate => hover .fourfold rate (by decide)
  exact (hhalf _).ite <| (hhalf _).ite <| (hhalf _).ite <| (hsame _).ite <| (hsame _).ite <|
    (hsame _).ite <| (htwice _).ite <| (htwice _).ite <| (htwice _).ite <| (hfourfold _).ite <|
      (hfourfold _).ite (hfourfold _)

theorem AlsaParam.conversion_cases (hc : p.conversion = some c) :
    p.flag = false ∧ c = .plain ∨
      p.flag = true ∧ (p.realChannel = 2 ∧ (p.oversample = .half ∧ c = .stereoHalf ∨
            p.oversample = .twice ∧ c = .stereoTwice ∨
              p.oversample = .fourfold ∧ c = .stereoFourfold) ∨
          p.realChannel = 1 ∧
            (p.oversample = .half ∧ c = .monoHalf ∨ p.oversample = .same ∧ c = .monoSame ∨
            p.oversample = .twice ∧ c = .monoTwice ∨
              p.oversample = .fourfold ∧ c = .monoFourfold)) := by
  unfold conversion at hc
  cases hflag : p.flag with
  | false =>
    rw [hflag] at hc
    exact .inl ⟨rfl, (Option.some.inj hc).symm⟩
  | true =>
    rw [hflag] at hc
    refine .inr ⟨rfl, ?_⟩
    change p.branch = some c at hc
    unfold branch at hc
    split at hc
    · next htwo =>
      refine .inl ⟨htwo, ?_⟩
      revert hc
      cases p.oversample with
      | half => exact fun hc => .inl ⟨rfl, (Option.some.inj hc).symm⟩
      | same => exact fun hc => absurd hc (Option.some_ne_none c).symm
      | twice => exact fun hc => .inr (.inl ⟨rfl, (Option.some.inj hc).symm⟩)
      | fourfold => exact fun hc => .inr (.inr ⟨rfl, (Option.some.inj hc).symm⟩)
    · split at hc
      · next hone =>
        refine .inr ⟨hone, ?_⟩
        revert hc
        cases p.oversample with
        | half => exact fun hc => .inl ⟨rfl, (Option.some.inj hc).symm⟩
        | same => exact fun hc => .inr (.inl ⟨rfl, (Option.some.inj hc).symm⟩)
        | twice => exact fun hc => .inr (.inr (.inl ⟨rfl, (Option.some.inj hc).symm⟩))
        | fourfold => exact fun hc => .inr (.inr (.inr ⟨rfl, (Option.some.inj hc).symm⟩))
      · exact absurd hc (by simp)

theorem AlsaParam.conversion_regular (hc : p.conversion = some c) : c.Regular := by
  rcases p.conversion_cases hc with ⟨-, rfl⟩ |
    ⟨-, ⟨-, ⟨-, rfl⟩ | ⟨-, rfl⟩ | ⟨-, rfl⟩⟩ | ⟨-, ⟨-, rfl⟩ | ⟨-, rfl⟩ | ⟨-, rfl⟩ | ⟨-, rfl⟩⟩⟩
  · exact regular_plain
  · exact regular_stereoHalf
  · exact regular_stereoTwice
  · exact regular_stereoFourfold
  · exact regular_monoHalf
  · exact regular_monoSame
  · exact regular_monoTwice
  · exact regular_monoFourfold

theorem alsaInit_conversion (samplerate : Int) {channels : Nat}
    (hch : channels = 1 ∨ channels = 2) :
    ∃ c, (alsaInit samplerate channels).conversion = some c := by
  obtain ⟨hreal, hcases⟩ := alsaInit_chosen samplerate channels
  unfold conversion branch
  rw [hreal]
  rcases hch with rfl | rfl
  · rcases hcases with ⟨hflag, hover⟩ | ⟨hflag, hover⟩
    · rw [hflag, hover]
      exact ⟨_, rfl⟩
    · rw [hflag]
      cases hover' : (alsaInit samplerate 1).oversample <;> exact ⟨_, rfl⟩
  · rcases hcases with ⟨hflag, hover⟩ | ⟨hflag, hover⟩
    · rw [hflag]
      exact ⟨_, rfl⟩
    · rw [hflag]
      cases hover' : (alsaInit samplerate 2).oversample with
      | half => exact ⟨_, rfl⟩
      | same => exact absurd hover' hover
      | twice => exact ⟨_, rfl⟩
      | fourfold => exact ⟨_, rfl⟩

theorem AlsaHost.bytesOf_max (hbits : host.sizeBits = 32 ∨ host.sizeBits = 64) :
    host.bytesOf (2 ^ host.sizeBits - 1) = if host.sizeBits = 64 then -4 else 2 ^ 29 - 4 := by
  unfold AlsaHost.bytesOf
  rcases hbits with h | h
  · rw [h]
    decide
  · rw [h]
    decide

/-- What is computed from -1 is a number of frames that gives no output in one case only. -/
theorem noMemory_iff (hbits : host.sizeBits = 32 ∨ host.sizeBits = 64)
    (hc : p.conversion = some c) :
    (∃ n < 2, (host.bytesOf (2 ^ host.sizeBits - 1) * c.mul).tdiv c.div = (n * c.frameBytes : Nat) ∧
        c.outFrames n = 0) ↔
      p.flag = true ∧ p.realChannel = 1 ∧ p.oversample = .fourfold ∧ host.sizeBits = 64 := by
  rw [AlsaHost.bytesOf_max hbits]
  rcases p.conversion_cases hc with ⟨hflag, rfl⟩ | ⟨hflag, ⟨hreal, hover⟩ | ⟨hreal, hover⟩⟩
  · simp only [hflag, Bool.false_eq_true, false_and]
    rcases hbits with h | h <;> rw [h] <;> decide
  · rw [hflag, hreal]
    rcases hover with ⟨hover, rfl⟩ | ⟨hover, rfl⟩ | ⟨hover, rfl⟩ <;> rw [hover] <;>
      rcases hbits with h | h <;> rw [h] <;> decide
  · rw [hflag, hreal]
    rcases hover with ⟨hover, rfl⟩ | ⟨hover, rfl⟩ | ⟨hover, rfl⟩ | ⟨hover, rfl⟩ <;> rw [hover] <;>
      rcases hbits with h | h <;> rw [h] <;> decide

theorem alsaPlay_eq (hc : p.conversion = some c) (h : Histories) (src : Nat → Int) (len : Nat)
    (answers : List WriteAnswer) :
    alsaPlay host p h src len answers = c.play host h src len answers := by
  unfold conversion at hc
  unfold alsaPlay oversamplePlay
  split
  · next hflag =>
    rw [if_pos hflag] at hc
    rw [Option.some.inj hc]
  · next hflag =>
    rw [if_neg hflag] at hc
    rw [hc]

/-- The answers are those after which `alsa_play` returns. Without the buffer for the TV the result
is right only for a mono stream of less than 14000 Hz on a system of 64 bits. The 8 KiB of
`OUTPUT_BUFFER_SIZE`, which the loop has at most, are converted inside the 64 KiB of
`output_buffer`. -/
theorem alsaPlay_exact_iff (host : AlsaHost) (hbits : host.sizeBits = 32 ∨ host.sizeBits = 64)
    (samplerate : Int) (channels : Nat) (hch : channels = 1 ∨ channels = 2) (h : Histories)
    (src : Nat → Int) (len : Nat) (answers : List WriteAnswer) (out : AlsaPlayed)
    (hout : alsaPlay host (alsaInit samplerate channels) h src len answers = some out) :
    ∃ c, (alsaInit samplerate channels).conversion = some c ∧
      (c.PlayedExactly host h src out ↔
        if host.tvMode && !host.mallocOk then
          channels = 1 ∧ (alsaInit samplerate channels).oversample = .fourfold ∧ host.sizeBits = 64
        else c.NothingOrAll host len answers) ∧
      (len ≤ 8 * 1024 → c.outFrames (c.frames len) * 4 ≤ 64 * 1024) := by
  obtain ⟨c, hc⟩ := alsaInit_conversion samplerate hch
  have hregular := conversion_regular hc
  obtain ⟨-, -, hframes⟩ := c.frames_eq len
  have hbounded := hregular.bounded (c.frames len)
  rw [alsaPlay_eq hc] at hout
  refine ⟨c, hc, ?_, by omega⟩
  split
  · next hmemory =>
    rw [c.playedExactly_iff_of_noMemory hmemory hout hregular, noMemory_iff hbits hc,
      (alsaInit_chosen samplerate channels).1]
    refine and_iff_right_of_imp fun hfourfold => ?_
    rcases (alsaInit_chosen samplerate channels).2 with ⟨-, hsame⟩ | ⟨hflag, -⟩
    · rw [hsame] at hfourfold
      exact absurd hfourfold.2.1 (by decide)
    · exact hflag
  · next hmemory =>
    exact c.playedExactly_iff hbits (Bool.not_eq_true _ ▸ hmemory) hout hregular

/-- A device that is not a TV, on a system of 64 bits and at full volume. -/
def AlsaHost.plain64 : AlsaHost := ⟨64, false, true, id, 0⟩

/-- The histories as `alsa_init` sets them. -/
def Histories.zero : Histories :=
  ⟨⟨⟨0, 0, 0, 0, 0, 0⟩, ⟨0, 0, 0, 0, 0, 0⟩⟩, ⟨⟨0, 0, 0, 0, 0, 0⟩, ⟨0, 0, 0, 0, 0, 0⟩⟩⟩

/-- The first frames of a buffer with the samples 0, 1, 2, ... -/
def countingFrames (n : Nat) : List (List Int) :=
  (List.range n).map fun i : Nat => [2 * (i : Int), 2 * (i : Int) + 1]

/-- 64 frames are played in two parts with an interruption between them. -/
theorem alsaPlay_exact_interrupted :
    Conversion.plain.PlayedExactly .plain64 .zero (fun i => i) ⟨256, countingFrames 64, .zero⟩ := by
  obtain ⟨c, hc, hiff, -⟩ :=
    alsaPlay_exact_iff .plain64 (.inr rfl) 48000 2 (.inr rfl) .zero (fun i => i) 256
    [.accepts 32, .interrupted, .accepts 100] ⟨256, countingFrames 64, .zero⟩ (by decide)
  obtain rfl : .plain = c := Option.some.inj hc
  exact hiff.mpr (.inr (by decide))

/-- 32 of 64 frames are accepted, then `snd_pcm_prepare` fails after an error: the result is 0. -/
theorem prepareFails_repeats :
    ∃ out, alsaPlay .plain64 (alsaInit 48000 2) .zero (fun i => i) 256
        [.accepts 32, .failed false] = some out ∧
      out.ret = 0 ∧ out.accepted = countingFrames 32 ∧
      ¬ Conversion.plain.PlayedExactly .plain64 .zero (fun i => i) out := by
  refine ⟨⟨0, countingFrames 32, .zero⟩, by decide, rfl, rfl, ?_⟩
  rintro ⟨n, hn, haccepted⟩
  have hlength := congrArg List.length haccepted
  simp only [countingFrames, length_map, length_range, regular_plain.length] at hlength
  have hn' : (0 : Int) = n * 32 := hn
  have hout : 32 = n := hlength
  omega

end AmlogicHal.Amadec
