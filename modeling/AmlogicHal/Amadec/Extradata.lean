import AmlogicHal.Amadec.MediaSource
import AmlogicHal.Lib.Traced
import Mathlib.Logic.Function.Basic

/-!
# The extra data of a stream, on the way to the decoder

`audio_decode_init` takes the extra data of the player's `arm_audio_info` over into the new
`aml_audio_dec_t`, and every attempt of `audio_codec_init` takes them over from there into the
decoder operations. All three have an array of 4096 bytes with a size beside it.

If the size is larger than the array, `audio_decode_init` copies nothing but records the size, and
`audio_codec_init` copies as many bytes as are recorded. `extradata_iff`: everything stays inside
the arrays exactly for sizes up to 4096.
-/

namespace AmlogicHal.Amadec

open Traced

/-! ## The model -/

/-- The structures with fields `extradata` and `extradata_size`. -/
inductive ExtradataHolder where
  | audioInfo | audec | adecOps
deriving DecidableEq

namespace ExtradataHolder

def room : ExtradataHolder → Nat
  | audioInfo => 4096
  | audec => 4096
  | adecOps => 4096

end ExtradataHolder

open ExtradataHolder

structure Extradata where
  extradataSize : Int
  extradata : Memory Byte

abbrev ExtradataFields := ExtradataHolder → Extradata

/-- One structure takes the extra data over from another one: it records a size, and so many bytes
are copied. -/
structure ExtradataTransfer where
  dst : ExtradataHolder
  src : ExtradataHolder
  recorded : Int
  copied : Nat
deriving DecidableEq

namespace ExtradataTransfer

/-- The copy stays inside both arrays, and not more is recorded than was stored. -/
def Safe (t : ExtradataTransfer) : Prop :=
  t.copied ≤ t.src.room ∧ t.copied ≤ t.dst.room ∧ t.recorded ≤ t.copied

instance (t : ExtradataTransfer) : Decidable t.Safe :=
  inferInstanceAs (Decidable (_ ∧ _ ∧ _))

end ExtradataTransfer

open ExtradataTransfer

/-- The assignment of the size and the `memcpy` of `n` bytes; without a `memcpy` it is none. -/
def takeOver (dst src : ExtradataHolder) (n : Nat) :
    Traced ExtradataTransfer ExtradataFields Unit :=
  read fun a => do
    emit ⟨dst, src, (a src).extradataSize, n⟩
    modify fun a => Function.update a dst
      ⟨(a src).extradataSize, (a dst).extradata.store 0 ((a src).extradata.slice 0 n)⟩

/-- What the player and the system answer in `audio_decode_init`. -/
structure DecodeInitAnswers where
  /-- `*handle` is an instance already. -/
  existing : Bool
  malloc : Bool
  /-- `audiodec_init` has created the thread. -/
  audiodecInit : Bool
deriving DecidableEq

/-- What `audio_decode_init` does with the extra data, after the `memset` of the new instance. -/
def takeOverInfo : Traced ExtradataTransfer ExtradataFields Unit := do
  modify fun a => Function.update a .audec ⟨0, fun _ => 0⟩
  read fun a =>
    if 0 < (a .audioInfo).extradataSize ∧ (a .audioInfo).extradataSize ≤ 4096 then
      takeOver .audec .audioInfo (a .audioInfo).extradataSize.toNat
    else takeOver .audec .audioInfo 0

variable (e : DecodeInitAnswers)

def audioDecodeInit : Traced ExtradataTransfer ExtradataFields Int :=
  if e.existing then pure (-1)
  else if ¬ e.malloc then pure (-1)
  else do
    takeOverInfo
    if e.audiodecInit then pure 0 else pure (-1)

/-- What `audio_codec_init` does with the extra data. -/
def setExtradata : Traced ExtradataTransfer ExtradataFields Unit :=
  read fun a =>
    if 0 < (a .audec).extradataSize then takeOver .adecOps .audec (a .audec).extradataSize.toNat
    else takeOver .adecOps .audec 0

/-- `audio_decode_init`, and the attempts of the thread that it starts to initialize the codec. -/
def passExtradata (attempts : Nat) : Traced ExtradataTransfer ExtradataFields Unit := do
  let ret ← audioDecodeInit e
  if ret = 0 then forRange (fun _ => setExtradata) attempts else pure ()

/-! ## The way of the size -/

variable {a : ExtradataFields} {e : DecodeInitAnswers}

theorem all_takeOver (P : ExtradataTransfer → Prop) (dst src : ExtradataHolder) (n : Nat) :
    (takeOver dst src n).All P a ↔ P ⟨dst, src, (a src).extradataSize, n⟩ := by
  simp [takeOver]

theorem takeOver_size {dst src : ExtradataHolder} {n : Nat} :
    (((takeOver dst src n).run a).st dst).extradataSize = (a src).extradataSize := by
  simp [takeOver]

theorem takeOver_of_ne {dst src h : ExtradataHolder} {n : Nat} (hne : h ≠ dst) :
    ((takeOver dst src n).run a).st h = a h := by
  simp [takeOver, hne]

/-- What `audio_codec_init` does is safe for a size that the arrays have room for. -/
theorem setExtradata_safe (hsize : (a .audec).extradataSize ≤ 4096) :
    setExtradata.All ExtradataTransfer.Safe a := by
  rw [setExtradata, all_read, all_ite]
  split
  next hpos =>
    rw [all_takeOver]
    simp only [ExtradataTransfer.Safe, room]
    omega
  next hneg =>
    rw [all_takeOver]
    simp only [ExtradataTransfer.Safe, room]
    omega

theorem setExtradata_audec : (setExtradata.run a).st .audec = a .audec := by
  rw [setExtradata, run_read, run_ite]
  split <;> exact takeOver_of_ne (by decide)

theorem attempts_safe (hsize : (a .audec).extradataSize ≤ 4096) (attempts : Nat) :
    (forRange (fun _ => setExtradata) attempts).All ExtradataTransfer.Safe a := by
  refine (all_forRange_of_invariant (I := fun _ a =>
    (a .audec).extradataSize ≤ 4096) _ _ ?_ hsize).1
  intro _ _ a hsize
  refine ⟨setExtradata_safe hsize, ?_⟩
  rwa [setExtradata_audec]

theorem takeOverInfo_safe_iff :
    takeOverInfo.All ExtradataTransfer.Safe a ↔ (a .audioInfo).extradataSize ≤ 4096 := by
  rw [takeOverInfo, all_bind, all_read, all_ite]
  simp only [all_modify, true_and, all_takeOver, run_modify, ne_eq, reduceCtorEq, not_false_eq_true,
    Function.update_of_ne, ExtradataTransfer.Safe, room]
  split <;> omega

theorem takeOverInfo_size :
    ((takeOverInfo.run a).st .audec).extradataSize = (a .audioInfo).extradataSize := by
  rw [takeOverInfo, run_bind, run_read, run_ite]
  split <;> simp [takeOver_size]

namespace DecodeInitAnswers

/-- `audio_decode_init` comes to the extra data. -/
def Creates : Prop := e.existing = false ∧ e.malloc = true

instance : Decidable e.Creates := inferInstanceAs (Decidable (_ ∧ _))

end DecodeInitAnswers

theorem audioDecodeInit_of_creates (he : e.Creates) :
    audioDecodeInit e = takeOverInfo >>= fun _ => if e.audiodecInit then pure 0 else pure (-1) := by
  simp [audioDecodeInit, he.1, he.2]

theorem audioDecodeInit_of_not_creates (he : ¬ e.Creates) : audioDecodeInit e = pure (-1) := by
  unfold audioDecodeInit
  split
  · rfl
  · split
    · rfl
    · exact absurd ⟨by simpa using ‹¬ e.existing›, by simpa using ‹¬ ¬ e.malloc›⟩ he

theorem extradata_iff (e : DecodeInitAnswers) (attempts : Nat) (a : ExtradataFields) :
    (passExtradata e attempts).All ExtradataTransfer.Safe a ↔
      (e.Creates → (a .audioInfo).extradataSize ≤ 4096) := by
  by_cases he : e.Creates
  · rw [passExtradata, audioDecodeInit_of_creates he, all_bind, all_bind, takeOverInfo_safe_iff]
    constructor
    · exact fun h _ => h.1.1
    · intro hsize
      have hsize := hsize he
      have hrecorded : ((takeOverInfo.run a).st .audec).extradataSize ≤ 4096 := by
        rwa [takeOverInfo_size]
      cases e.audiodecInit with
      | false => simp [hsize]
      | true => simp [hsize, attempts_safe hrecorded]
  · rw [passExtradata, audioDecodeInit_of_not_creates he]
    simp [he]

/-- A player that passes 5000 bytes: nothing is copied first, then 5000 bytes into 4096. -/
theorem extradata_overrun :
    ((passExtradata ⟨false, true, true⟩ 1).run (fun _ => ⟨5000, fun _ => 0⟩)).log =
      [⟨.audec, .audioInfo, 5000, 0⟩, ⟨.adecOps, .audec, 5000, 5000⟩] ∧
      ¬ (passExtradata ⟨false, true, true⟩ 1).All ExtradataTransfer.Safe
        (fun _ => ⟨5000, fun _ => 0⟩) := by
  constructor
  · rfl
  · rw [Traced.All]
    decide

end AmlogicHal.Amadec
