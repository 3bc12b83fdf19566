import AmlogicHal.Lib.Traced
import Mathlib.Data.List.Perm.Basic

/-!
# Opening and closing a codec

`codec_init` of `codec_ctrl.c` opens the device of the stream, the subtitle device and the control
device, and stores their descriptors in the parameter structure. `codec_close` closes what is stored
there, also after a failed `codec_init`. `orderly_end_iff` says for which parameters and which
answers of the operating system this closes every descriptor exactly once. It does not

* if the formats (or the DRM mode) are rejected after the device has been opened: `codec_init`
  closes the device and leaves its descriptor in `handle`, and `codec_close` closes it again;
* for a subtitle stream, whose one descriptor is stored as `handle` and as `sub_handle`;
* for a subtitle or control device with the descriptor 0, which `codec_close` takes for none.
-/

namespace AmlogicHal.Media

open List

/-! ## The model -/

inductive StreamType
  | unknown | esVideo | esAudio | esSub | ps | ts | rm
deriving DecidableEq

/-- The device files that `codec_init` opens, each at most once. -/
inductive Device
  | videoEs | videoHevc | videoDvHevc | videoDvAvc | audioEs | ps | ts | rm | sub | cntl
deriving DecidableEq

/-- The requests that `codec_init` makes, each at most once, and whose result it looks at. -/
inductive CodecCmd
  | vformat | vid | sysinfo | aformat | aid | samplerate | achannel | audioInfo | sid | subType
  | tsSkipbyte | drmmode | abSize | vbSize | portInit
deriving DecidableEq

/-- What the operating system says: the descriptor of an opened device, and whether a request to a
device succeeds. -/
structure CodecIo where
  opens : Device → Option Nat
  ioctl : CodecCmd → Bool

inductive FdEvent
  | opened (fd : Nat)
  | closed (fd : Nat)
deriving DecidableEq

/-- The fields of `codec_para_t` that `codec_init` and `codec_close` read or write. -/
structure CodecPara where
  handle : Int
  cntlHandle : Int
  subHandle : Int
  audioUtilsHandle : Int
  streamType : StreamType
  hasVideo : Bool
  hasAudio : Bool
  hasSub : Bool
  dvEnable : Bool
  videoType : Int
  audioType : Int
  videoPid : Int
  audioPid : Int
  subPid : Int
  audioChannels : Int
  audioSamplerate : Int
  vbufSize : Int
  abufSize : Int
  audioInfoValid : Bool

def vformatMpeg12 : Int := 0
def vformatMpeg4 : Int := 1
def vformatH264 : Int := 2
def vformatVc1 : Int := 6
def vformatAvs : Int := 7
def vformatHevc : Int := 11
def vformatVp9 : Int := 14
def vformatMax : Int := 15

def aformatMpeg : Int := 0
def aformatMpeg1 : Int := 26
def aformatMpeg2 : Int := 27
def aformatMax : Int := 32

/-- `IS_AUDIO_NEED_EXT_INFO`: ADPCM, WMA, WMAPRO, PCM_S16BE, PCM_S16LE, PCM_U8, PCM_BLURAY, AMR,
ALAC, AC3, EAC3, APE, FLAC, PCM_WIFIDISPLAY, COOK, RAAC, TRUEHD, WMAVOI, WMALOSSLESS. -/
def audioNeedExtInfo (format : Int) : Bool :=
  format ∈ [11, 14, 15, 7, 1, 10, 16, 12, 17, 3, 21, 20, 8, 22, 9, 13, 25, 28, 29]

def isValidPid (pid : Int) : Bool := 0 ≤ pid ∧ pid ≤ 0x1fff

/-! ### Error codes -/

/-- `C_PAE | n`. -/
def codecError (n : BitVec 32) : BitVec 32 := 0x01000000 ||| n

def codecErrorParameter : BitVec 32 := codecError 5
def codecErrorAudioTypeUnknown : BitVec 32 := codecError 6
def codecErrorVideoTypeUnknown : BitVec 32 := codecError 7
def codecErrorStreamTypeUnknown : BitVec 32 := codecError 8
def codecErrorInitFailed : BitVec 32 := codecError 10
def codecErrorSetBufsizeFailed : BitVec 32 := codecError 11
def codecOpenHandleFailed : BitVec 32 := codecError 12

/-- `EBUSY`, `ENOMEM` and `ENODEV` have codes of their own. The error -1 of a system call becomes
1. -/
def systemErrorToCodecError (error : BitVec 32) : BitVec 32 :=
  if error = 0 then 0
  else if error = 16 then -codecError 3
  else if error = 12 then -codecError 2
  else if error = 19 then -codecError 4
  else -codecError error

/-- `r < 0`. -/
def isError (r : BitVec 32) : Bool := r.slt 0

abbrev CodecM := Traced FdEvent CodecPara

variable (p : CodecPara)

namespace CodecIo

variable (io : CodecIo)

/-! ### Devices -/

/-- `codec_h_open`, with the answer to its last try. -/
def hOpen (device : Device) : CodecM Int :=
  match io.opens device with
  | some fd => do
    Traced.emit (.opened fd)
    pure fd
  | none => pure (-1)

def hIoctl (handle : Int) (cmd : CodecCmd) : BitVec 32 :=
  if handle < 0 then -1 else if io.ioctl cmd then 0 else -1

/-- The result of a request as the setters below return it. -/
def request (p : CodecPara) (cmd : CodecCmd) : BitVec 32 :=
  if isError (io.hIoctl p.handle cmd) then systemErrorToCodecError (io.hIoctl p.handle cmd) else 0

/-! ### Settings -/

/-- The result of the first request is only looked at if there is no second one. -/
def setVideoFormat : BitVec 32 :=
  if p.videoType < 0 ∨ p.videoType > vformatMax then -codecErrorVideoTypeUnknown
  else if p.videoPid ≥ 0 then io.request p .vid
  else io.request p .vformat

def setVideoCodecInfo : BitVec 32 := io.request p .sysinfo

def setAudioFormat : BitVec 32 :=
  if p.audioType < 0 ∨ p.audioType > aformatMax then -codecErrorAudioTypeUnknown
  else if io.request p .aformat ≠ 0 then io.request p .aformat
  else if p.audioPid ≥ 0 ∧ io.request p .aid ≠ 0 then io.request p .aid
  else if p.audioSamplerate > 0 ∧ io.request p .samplerate ≠ 0 then io.request p .samplerate
  else if p.audioChannels > 0 ∧ io.request p .achannel ≠ 0 then io.request p .achannel
  else 0

def setAudioInfo : BitVec 32 := io.request p .audioInfo

def setSubFormat : BitVec 32 :=
  if p.subPid ≥ 0 then
    if io.request p .sid ≠ 0 then io.request p .sid else io.request p .subType
  else 0

def setTsSkipByte : BitVec 32 := io.request p .tsSkipbyte

/-- The result of the request, which is not made a codec error. -/
def codecSetDrmmode : BitVec 32 := io.hIoctl p.handle .drmmode

end CodecIo

open CodecIo

def codecHClose (handle : Int) : CodecM Unit :=
  if 0 ≤ handle then Traced.emit (.closed handle.toNat) else pure ()

namespace CodecIo

variable (io : CodecIo)

def codecInitSub : CodecM (BitVec 32) := do
  let subHandle ← io.hOpen .sub
  if subHandle < 0 then pure (systemErrorToCodecError (-1))
  else
    Traced.modify fun p => { p with subHandle := subHandle }
    pure 0

/-! ### The stream types -/

/-- The steps are taken until one has a negative result. Then the device is closed, and its
descriptor stays in `handle`. -/
def setUp : List (CodecM (BitVec 32)) → CodecM (BitVec 32)
  | [] => pure 0
  | step :: steps => do
    let r ← step
    if isError r then
      Traced.read fun p => do
        codecHClose p.handle
        pure (systemErrorToCodecError r)
    else setUp steps

end CodecIo

structure Setting where
  condition : CodecPara → Bool
  set : CodecPara → BitVec 32

open Setting

def Setting.always (set : CodecPara → BitVec 32) : Setting := ⟨fun _ => true, set⟩

def Setting.step (x : Setting) : CodecM (BitVec 32) :=
  Traced.read fun p => pure (if x.condition p then x.set p else 0)

namespace CodecIo

variable (io : CodecIo)

/-- What the routines share: the device is opened, the settings are made, and then the subtitle
device may be opened too. -/
def openAndSetUp (device : Device) (settings : List Setting)
    (subSteps : List (CodecM (BitVec 32))) : CodecM (BitVec 32) := do
  let handle ← io.hOpen device
  if handle < 0 then pure codecOpenHandleFailed
  else
    Traced.modify fun p => { p with handle := handle }
    setUp (settings.map Setting.step ++ subSteps)

end CodecIo

def CodecPara.videoDevice : Device :=
  if p.videoType = vformatHevc ∨ p.videoType = vformatVp9 then
    if p.dvEnable ∧ p.videoType = vformatHevc then .videoDvHevc else .videoHevc
  else if p.videoType = vformatH264 ∧ p.dvEnable then .videoDvAvc
  else .videoEs

def CodecPara.hasValidPid : Bool :=
  p.hasVideo && isValidPid p.videoPid || p.hasAudio && isValidPid p.audioPid

namespace CodecIo

variable (io : CodecIo)

def videoEsSettings : List Setting :=
  [.always io.setVideoFormat, .always io.setVideoCodecInfo, .always io.codecSetDrmmode]

def codecVideoEsInit : CodecM (BitVec 32) :=
  Traced.read fun p =>
    if p.hasVideo then io.openAndSetUp p.videoDevice io.videoEsSettings [] else pure 0

def audioEsSettings : List Setting :=
  [.always io.setAudioFormat, ⟨fun p => audioNeedExtInfo p.audioType, io.setAudioInfo⟩]

def codecAudioEsInit : CodecM (BitVec 32) :=
  Traced.read fun p =>
    if p.hasAudio then io.openAndSetUp .audioEs io.audioEsSettings [] else pure 0

def codecSubEsInit : CodecM (BitVec 32) :=
  Traced.read fun p =>
    if p.hasSub then do
      let r ← io.codecInitSub
      if isError r then pure codecOpenHandleFailed
      else
        Traced.modify fun p => { p with handle := p.subHandle, subPid := 0xffff }
        Traced.read fun p =>
          if isError (io.setSubFormat p) then pure (systemErrorToCodecError (io.setSubFormat p))
          else pure 0
    else pure 0

/-- The subtitle part of the containers. -/
def subSteps : List (CodecM (BitVec 32)) :=
  if p.hasSub then [(Setting.always io.setSubFormat).step, io.codecInitSub] else []

def containerInit (device : Device) (settings : List Setting)
    (subSteps : CodecPara → List (CodecM (BitVec 32))) : CodecM (BitVec 32) :=
  Traced.read fun p =>
    if p.hasValidPid then io.openAndSetUp device settings (subSteps p)
    else pure (-codecErrorParameter)

def psSettings : List Setting :=
  [⟨fun p => p.hasVideo, io.setVideoFormat⟩,
    ⟨fun p => p.hasVideo && (p.videoType = vformatH264 || p.videoType = vformatVc1 ||
      p.videoType = vformatMpeg12), io.setVideoCodecInfo⟩,
    ⟨fun p => p.hasAudio, io.setAudioFormat⟩,
    ⟨fun p => p.hasAudio && audioNeedExtInfo p.audioType, io.setAudioInfo⟩]

def codecPsInit : CodecM (BitVec 32) := io.containerInit .ps io.psSettings io.subSteps

def tsSettings : List Setting :=
  [⟨fun p => p.hasVideo, io.setVideoFormat⟩,
    ⟨fun p => p.hasVideo && (p.videoType = vformatH264 || p.videoType = vformatMpeg4 ||
      p.videoType = vformatVc1 || p.videoType = vformatAvs || p.videoType = vformatMpeg12),
      io.setVideoCodecInfo⟩,
    ⟨fun p => p.hasAudio, io.setAudioFormat⟩,
    ⟨fun p => p.hasAudio && p.audioInfoValid, io.setAudioInfo⟩,
    .always io.setTsSkipByte]

/-- The result of `codec_set_demux_source`, which comes first, is ignored. -/
def codecTsInit : CodecM (BitVec 32) := io.containerInit .ts io.tsSettings io.subSteps

def rmSettings : List Setting :=
  [⟨fun p => p.hasVideo, io.setVideoFormat⟩, ⟨fun p => p.hasVideo, io.setVideoCodecInfo⟩,
    ⟨fun p => p.hasAudio, io.setAudioFormat⟩, ⟨fun p => p.hasAudio, io.setAudioInfo⟩]

def codecRmInit : CodecM (BitVec 32) := io.containerInit .rm io.rmSettings fun _ => []

/-! ### `codec_init` and `codec_close` -/

def codecInitCntl : CodecM (BitVec 32) := do
  let cntl ← io.hOpen .cntl
  if cntl < 0 then pure (systemErrorToCodecError (-1))
  else
    Traced.modify fun p => { p with cntlHandle := cntl }
    pure 0

def codecChangeBufSize : BitVec 32 :=
  if p.abufSize > 0 ∧ io.request p .abSize ≠ 0 then io.request p .abSize
  else if p.vbufSize > 0 then io.request p .vbSize
  else 0

def initStream (streamType : StreamType) : CodecM (BitVec 32) :=
  match streamType with
  | .esVideo => io.codecVideoEsInit
  | .esAudio => io.codecAudioEsInit
  | .esSub => io.codecSubEsInit
  | .ps => io.codecPsInit
  | .ts => io.codecTsInit
  | .rm => io.codecRmInit
  | .unknown => pure (-codecErrorStreamTypeUnknown)

def portInit (p : CodecPara) : BitVec 32 :=
  if io.codecChangeBufSize p ≠ 0 then -codecErrorSetBufsizeFailed
  else if io.hIoctl p.handle .portInit ≠ 0 then -codecErrorInitFailed
  else 0

/-- What `codec_init` does after the device of the stream has been set up. -/
def initPort : CodecM (BitVec 32) := do
  let ret ← io.codecInitCntl
  if ret ≠ 0 then pure ret
  else Traced.read fun p => pure (io.portInit p)

end CodecIo

/-- The parameters as `codec_init` hands them to the routine of the stream type. -/
def CodecPara.reset : CodecPara :=
  { p with
    handle := -1
    cntlHandle := -1
    subHandle := -1
    audioUtilsHandle := -1
    audioType := if p.audioType = aformatMpeg1 ∨ p.audioType = aformatMpeg2 then aformatMpeg
      else p.audioType }

/-- Up to the start of the audio decoder, which nothing depends on. -/
def CodecIo.codecInit (io : CodecIo) : CodecM (BitVec 32) := do
  Traced.modify CodecPara.reset
  Traced.read fun p => do
    let ret ← io.initStream p.streamType
    if ret ≠ 0 then pure ret else io.initPort

def codecCloseSubFd (subFd : Int) : CodecM Unit :=
  if subFd ≠ 0 then codecHClose subFd else pure ()

def codecCloseCntl : CodecM Unit :=
  if p.cntlHandle ≠ 0 then codecHClose p.cntlHandle else pure ()

def closeSub : CodecM Unit :=
  if p.hasSub ∧ p.subHandle ≥ 0 then codecCloseSubFd p.subHandle else pure ()

/-- After the audio decoder has been stopped. -/
def codecClose : CodecM Unit :=
  Traced.read fun p => do
    closeSub p
    codecCloseCntl p
    codecHClose p.handle

/-! ## An orderly end -/

def opened (log : List FdEvent) : List Nat :=
  log.filterMap fun
    | .opened fd => some fd
    | .closed _ => none

def closed (log : List FdEvent) : List Nat :=
  log.filterMap fun
    | .opened _ => none
    | .closed fd => some fd

def CodecPara.handles (p : CodecPara) : List Int :=
  [p.handle, p.cntlHandle, p.subHandle, p.audioUtilsHandle]

/-- What `codec_init` leaves is in order: every stored handle is negative or open, and with the
following `codec_close` every descriptor that was opened is closed once, and no other one. -/
structure Orderly (r : Outcome FdEvent CodecPara (BitVec 32)) : Prop where
  valid : ∀ h ∈ r.st.handles, h < 0 ∨
    ∃ fd : Nat, h = fd ∧ fd ∈ opened r.log ∧ fd ∉ closed r.log
  once : (closed (r.log ++ (codecClose.run r.st).log)).Perm
    (opened (r.log ++ (codecClose.run r.st).log))

/-! ### Conditions on the parameters and the operating system -/

namespace CodecPara

def VideoUnknown : Prop := p.videoType < 0 ∨ p.videoType > vformatMax

def AudioUnknown : Prop := p.audioType < 0 ∨ p.audioType > aformatMax

instance : Decidable p.VideoUnknown := inferInstanceAs (Decidable (_ ∨ _))

instance : Decidable p.AudioUnknown := inferInstanceAs (Decidable (_ ∨ _))

/-- The device of the stream, if it needs one and its pids are valid. -/
def device : Option Device :=
  match p.streamType with
  | .esVideo => if p.hasVideo then some p.videoDevice else none
  | .esAudio => if p.hasAudio then some .audioEs else none
  | .ps => if p.hasValidPid then some .ps else none
  | .ts => if p.hasValidPid then some .ts else none
  | .rm => if p.hasValidPid then some .rm else none
  | .esSub | .unknown => none

/-- The subtitles of the stream come with the other data. -/
def HasSubDevice : Prop :=
  (p.streamType = .ps ∨ p.streamType = .ts) ∧ p.hasSub = true

end CodecPara

open CodecPara

namespace CodecIo

variable (io : CodecIo) (p : CodecPara)

/-- The settings are rejected after the device has been opened. -/
def Rejects : Prop :=
  match p.streamType with
  | .esVideo => p.VideoUnknown ∨ io.ioctl .drmmode = false
  | .esAudio => p.AudioUnknown
  | .ps | .ts | .rm => p.hasVideo = true ∧ p.VideoUnknown ∨ p.hasAudio = true ∧ p.AudioUnknown
  | .esSub | .unknown => False

def OpensDevice : Prop := ∃ device ∈ p.device, (io.opens device).isSome

/-- The device of the stream is set up; an elementary stream may be without one. -/
def SetsUp : Prop :=
  match p.streamType with
  | .esVideo | .esAudio => p.device.isSome → io.OpensDevice p ∧ ¬ io.Rejects p
  | .ps | .ts | .rm => io.OpensDevice p ∧ ¬ io.Rejects p
  | .esSub => True
  | .unknown => False

/-- A subtitle stream has its one descriptor in two fields. -/
def SharesHandle : Prop :=
  p.streamType = .esSub ∧ p.hasSub = true ∧ ∃ s ∈ io.opens .sub, s ≠ 0

/-- A descriptor 0 is stored that `codec_close` takes for none. -/
def StoresZero : Prop :=
  io.SetsUp p ∧ (io.opens .cntl = some 0 ∨ p.HasSubDevice ∧ io.opens .sub = some 0)

end CodecIo

/-! ## The settings -/

@[simp] theorem systemErrorToCodecError_ne_zero {r : BitVec 32} (h : isError r = true) :
    systemErrorToCodecError r ≠ 0 := by
  have hne : r ≠ 0 := by
    rintro rfl
    exact absurd h (by decide)
  unfold systemErrorToCodecError
  rw [if_neg hne]
  have hcode : ∀ n, -codecError n ≠ 0 := by
    intro n hn
    have hor : codecError n = 0 := BitVec.neg_eq_zero_iff.mp hn
    exact absurd (BitVec.or_eq_zero_iff.mp hor).1 (by decide)
  split
  · exact hcode 3
  · split
    · exact hcode 2
    · split
      · exact hcode 4
      · exact hcode r

@[simp] theorem systemErrorToCodecError_neg_one : systemErrorToCodecError 0xffffffff#32 = 1#32 := by
  decide

@[simp] theorem isError_one : isError 1#32 = false := by decide

section Settings

variable (io : CodecIo) (p : CodecPara)

theorem hIoctl_eq (handle : Int) (cmd : CodecCmd) :
    io.hIoctl handle cmd = 0 ∨ io.hIoctl handle cmd = -1 := by
  unfold hIoctl
  split
  · exact .inr rfl
  · split
    · exact .inl rfl
    · exact .inr rfl

@[simp] theorem isError_request (cmd : CodecCmd) : isError (io.request p cmd) = false := by
  unfold request
  rcases hIoctl_eq io p.handle cmd with h | h <;> rw [h] <;> decide

theorem isError_ite {c : Prop} [Decidable c] {a b : BitVec 32} (ha : isError a = false)
    (hb : isError b = false) : isError (if c then a else b) = false := by
  split
  · exact ha
  · exact hb

@[simp] theorem isError_zero : isError 0#32 = false := by decide

@[simp] theorem isError_setVideoFormat : isError (io.setVideoFormat p) = decide p.VideoUnknown := by
  unfold setVideoFormat
  split
  · next h => rw [decide_eq_true (show p.VideoUnknown from h)]; decide
  · next h =>
    rw [decide_eq_false (show ¬ p.VideoUnknown from h)]
    exact isError_ite (isError_request io p _) (isError_request io p _)

@[simp] theorem isError_setAudioFormat : isError (io.setAudioFormat p) = decide p.AudioUnknown := by
  unfold setAudioFormat
  split
  · next h => rw [decide_eq_true (show p.AudioUnknown from h)]; decide
  · next h =>
    rw [decide_eq_false (show ¬ p.AudioUnknown from h)]
    exact isError_ite (isError_request io p _) (isError_ite (isError_request io p _)
      (isError_ite (isError_request io p _) (isError_ite (isError_request io p _) isError_zero)))

@[simp] theorem isError_setVideoCodecInfo : isError (io.setVideoCodecInfo p) = false :=
  isError_request io p _

@[simp] theorem isError_setAudioInfo : isError (io.setAudioInfo p) = false := isError_request io p _

@[simp] theorem isError_setTsSkipByte : isError (io.setTsSkipByte p) = false :=
  isError_request io p _

@[simp] theorem isError_setSubFormat : isError (io.setSubFormat p) = false := by
  exact isError_ite (isError_ite (isError_request io p _) (isError_request io p _)) isError_zero

theorem isError_codecSetDrmmode (h : 0 ≤ p.handle) :
    isError (io.codecSetDrmmode p) = !io.ioctl .drmmode := by
  unfold codecSetDrmmode hIoctl
  rw [if_neg (by omega)]
  cases io.ioctl .drmmode <;> decide

end Settings

/-! ## What the routine of a stream type leaves -/

section Routines

variable {io : CodecIo} {p : CodecPara}

@[simp] theorem not_natCast_neg (fd : Nat) : ¬ ((fd : Int) < 0) :=
  Int.not_lt.mpr (Int.natCast_nonneg fd)

variable {device : Device}

theorem run_hOpen_some {fd : Nat} (h : io.opens device = some fd) :
    (io.hOpen device).run p = ⟨fd, p, [.opened fd]⟩ := by
  simp [hOpen, h]

theorem run_hOpen_none (h : io.opens device = none) : (io.hOpen device).run p = ⟨-1, p, []⟩ := by
  simp [hOpen, h]

theorem run_codecHClose (fd : Nat) : (codecHClose fd).run p = ⟨(), p, [.closed fd]⟩ := by
  simp [codecHClose]

theorem setUp_step (x : Setting) (steps : List (CodecM (BitVec 32))) (fd : Nat)
    (hfd : p.handle = fd) :
    (setUp (x.step :: steps)).run p =
      if x.condition p = true ∧ isError (x.set p) = true then
        ⟨systemErrorToCodecError (x.set p), p, [.closed fd]⟩
      else (setUp steps).run p := by
  cases hc : x.condition p with
  | false => simp [setUp, step, hc]
  | true =>
    cases hf : isError (x.set p) with
    | false => simp [setUp, step, hc, hf]
    | true => simp [setUp, step, hc, hf, hfd, run_codecHClose]

def AnyRejected (p : CodecPara) (settings : List Setting) : Prop :=
  ∃ x ∈ settings, x.condition p = true ∧ isError (x.set p) = true

theorem setUp_settings (settings : List Setting) (steps : List (CodecM (BitVec 32))) (fd : Nat)
    (hfd : p.handle = fd) :
    (AnyRejected p settings ∧ ∃ r ≠ 0,
      (setUp (settings.map step ++ steps)).run p = ⟨r, p, [.closed fd]⟩) ∨
    (¬ AnyRejected p settings ∧
      (setUp (settings.map step ++ steps)).run p = (setUp steps).run p) := by
  induction settings with
  | nil => exact .inr ⟨by simp [AnyRejected], rfl⟩
  | cons x settings ih =>
    rw [map_cons, cons_append, setUp_step x _ fd hfd]
    split
    · next hx =>
      exact .inl ⟨⟨x, mem_cons_self, hx⟩, _, systemErrorToCodecError_ne_zero hx.2, rfl⟩
    · next hx =>
      refine ih.imp (fun h => ⟨?_, h.2⟩) (fun h => ⟨?_, h.2⟩)
      · obtain ⟨y, hy, hbad⟩ := h.1
        exact ⟨y, mem_cons_of_mem _ hy, hbad⟩
      · rintro ⟨y, hy, hbad⟩
        rcases mem_cons.mp hy with rfl | hy
        · exact hx hbad
        · exact h.1 ⟨y, hy, hbad⟩

/-- What is left of the parameters, with the descriptors that are open, for each of the ways a
routine can end. -/
inductive Left (io : CodecIo) (p : CodecPara) : Outcome FdEvent CodecPara (BitVec 32) → Prop
  | unopened {r : BitVec 32} : r ≠ 0 → ¬ io.SetsUp p → ¬ (io.OpensDevice p ∧ io.Rejects p) →
      ¬ io.SharesHandle p → Left io p ⟨r, p, []⟩
  | rejected {r : BitVec 32} {d : Nat} : r ≠ 0 → io.OpensDevice p ∧ io.Rejects p →
      Left io p ⟨r, { p with handle := d }, [.opened d, .closed d]⟩
  | noDevice {pid : Int} : io.SetsUp p → ¬ io.OpensDevice p → ¬ p.HasSubDevice →
      ¬ io.SharesHandle p → Left io p ⟨0, { p with subPid := pid }, []⟩
  | device {d : Nat} : io.SetsUp p → ¬ io.Rejects p → ¬ (p.HasSubDevice ∧ io.opens .sub = some 0) →
      ¬ io.SharesHandle p → Left io p ⟨0, { p with handle := d }, [.opened d]⟩
  | deviceSub {d s : Nat} : io.SetsUp p → ¬ io.Rejects p → p.HasSubDevice → io.opens .sub = some s →
      ¬ io.SharesHandle p →
      Left io p ⟨0, { p with handle := d, subHandle := s }, [.opened d, .opened s]⟩
  | sub {s : Nat} : p.streamType = .esSub → p.hasSub = true → io.opens .sub = some s →
      Left io p ⟨0, { p with handle := s, subHandle := s, subPid := 0xffff }, [.opened s]⟩

theorem setsUp_iff_of_device (h : p.device.isSome) : io.SetsUp p ↔
    io.OpensDevice p ∧ ¬ io.Rejects p := by
  unfold SetsUp
  cases htype : p.streamType with
  | esVideo | esAudio => exact imp_iff_right h
  | ps | ts | rm => exact Iff.rfl
  | esSub | unknown => simp [device, htype] at h

theorem not_sharesHandle_of_device (h : p.device.isSome) : ¬ io.SharesHandle p := by
  rintro ⟨htype, -⟩
  simp [device, htype] at h

theorem run_codecInitSub : io.codecInitSub.run p =
    match io.opens .sub with
    | some s => ⟨0, { p with subHandle := s }, [.opened s]⟩
    | none => ⟨1, p, []⟩ := by
  cases h : io.opens .sub with
  | none => simp [codecInitSub, run_hOpen_none h]
  | some s => simp [codecInitSub, run_hOpen_some h]

theorem run_openAndSetUp_none (h : io.opens device = none) (settings : List Setting)
    (subSteps : List (CodecM (BitVec 32))) :
    (io.openAndSetUp device settings subSteps).run p = ⟨codecOpenHandleFailed, p, []⟩ := by
  simp [openAndSetUp, run_hOpen_none h]

variable {settings : List Setting} {subSteps : List (CodecM (BitVec 32))}

theorem run_openAndSetUp_some {d : Nat} (h : io.opens device = some d)
    {r : Outcome FdEvent CodecPara (BitVec 32)}
    (hr : (setUp (settings.map step ++ subSteps)).run { p with handle := d } = r) :
    (io.openAndSetUp device settings subSteps).run p = ⟨r.val, r.st, .opened d :: r.log⟩ := by
  simp [openAndSetUp, run_hOpen_some h, hr]

theorem setUp_subSteps (d : Nat) :
    (setUp [(always io.setSubFormat).step, io.codecInitSub]).run
        { p with handle := d } =
      match io.opens .sub with
      | some s => ⟨0, { p with handle := d, subHandle := s }, [.opened s]⟩
      | none => ⟨0, { p with handle := d }, []⟩ := by
  rw [setUp_step _ _ d rfl, if_neg (by simp [always])]
  cases h : io.opens .sub with
  | none => simp [setUp, run_codecInitSub, h]
  | some s => simp [setUp, run_codecInitSub, h]

theorem openAndSetUp_left (hdevice : p.device = some device)
    (hrejects : ∀ d : Nat, AnyRejected { p with handle := d } settings ↔ io.Rejects p)
    (hsub : p.HasSubDevice → subSteps = [(always io.setSubFormat).step, io.codecInitSub])
    (hnone : ¬ p.HasSubDevice → subSteps = []) :
    Left io p ((io.openAndSetUp device settings subSteps).run p) := by
  have hshares : ¬ io.SharesHandle p := not_sharesHandle_of_device (by simp [hdevice])
  have hsets : io.SetsUp p ↔ _ := setsUp_iff_of_device (by simp [hdevice])
  cases hopen : io.opens device with
  | none =>
    have hclosed : ¬ io.OpensDevice p := by simp [OpensDevice, hdevice, hopen]
    rw [run_openAndSetUp_none hopen]
    exact .unopened (by decide) (fun h => hclosed (hsets.mp h).1) (fun h => hclosed h.1) hshares
  | some d =>
    have hopened : io.OpensDevice p := by simp [OpensDevice, hdevice, hopen]
    obtain ⟨hbad, r, hr, hrun⟩ | ⟨hok, hrun⟩ :=
      setUp_settings (p := { p with handle := d }) settings subSteps d rfl
    · rw [run_openAndSetUp_some hopen hrun]
      exact .rejected hr ⟨hopened, (hrejects d).mp hbad⟩
    · have hok : ¬ io.Rejects p := fun h => hok ((hrejects d).mpr h)
      have hsets : io.SetsUp p := hsets.mpr ⟨hopened, hok⟩
      rw [run_openAndSetUp_some hopen hrun]
      by_cases hhas : p.HasSubDevice
      · rw [hsub hhas, setUp_subSteps]
        cases h : io.opens .sub with
        | none => exact .device hsets hok (by simp [h]) hshares
        | some s => exact .deviceSub hsets hok hhas h hshares
      · rw [hnone hhas]
        exact .device hsets hok (fun h => hhas h.1) hshares

theorem codecSubEsInit_left (htype : p.streamType = .esSub) (hsub : p.subHandle = -1)
    (hhandle : p.handle = -1) : Left io p (io.codecSubEsInit.run p) := by
  have hsets : io.SetsUp p := by simp [SetsUp, htype]
  have hclosed : ¬ io.OpensDevice p := by simp [OpensDevice, device, htype]
  have hno : ¬ p.HasSubDevice := by simp [HasSubDevice, htype]
  cases hhas : p.hasSub with
  | false =>
    have hrun : io.codecSubEsInit.run p = ⟨0, p, []⟩ := by simp [codecSubEsInit, hhas]
    rw [hrun]
    exact .noDevice hsets hclosed hno (by simp [SharesHandle, hhas])
  | true =>
    cases h : io.opens .sub with
    | none =>
      have hrun : io.codecSubEsInit.run p = ⟨0, { p with subPid := 0xffff }, []⟩ := by
        simp [codecSubEsInit, hhas, run_codecInitSub, h, hsub, hhandle]
      rw [hrun]
      exact .noDevice hsets hclosed hno (by simp [SharesHandle, h])
    | some s =>
      have hrun : io.codecSubEsInit.run p =
          ⟨0, { p with handle := s, subHandle := s, subPid := 0xffff }, [.opened s]⟩ := by
        simp [codecSubEsInit, hhas, run_codecInitSub, h]
      rw [hrun]
      exact .sub htype hhas h

theorem noDevice_left (hdevice : p.device = none)
    (htype : p.streamType = .esVideo ∨ p.streamType = .esAudio) : Left io p ⟨0, p, []⟩ := by
  have hclosed : ¬ io.OpensDevice p := by simp [OpensDevice, hdevice]
  rcases htype with htype | htype
  · exact .noDevice (by simp [SetsUp, htype, hdevice]) hclosed
      (by simp [HasSubDevice, htype]) (by simp [SharesHandle, htype])
  · exact .noDevice (by simp [SetsUp, htype, hdevice]) hclosed
      (by simp [HasSubDevice, htype]) (by simp [SharesHandle, htype])

theorem noPid_left (hdevice : p.device = none) (hsets : ¬ io.SetsUp p)
    (htype : p.streamType ≠ .esSub) {r : BitVec 32} (hr : r ≠ 0) : Left io p ⟨r, p, []⟩ := by
  have hclosed : ¬ io.OpensDevice p := by simp [OpensDevice, hdevice]
  exact .unopened hr hsets (fun h => hclosed h.1) (fun h => htype h.1)

theorem containerInit_left (htype : p.streamType = .ps ∨ p.streamType = .ts ∨ p.streamType = .rm)
    (hdevice : p.device = if p.hasValidPid then some device else none)
    (hrejects : ∀ d : Nat, AnyRejected { p with handle := d } settings ↔
      p.hasVideo = true ∧ p.VideoUnknown ∨ p.hasAudio = true ∧ p.AudioUnknown)
    {subSteps : CodecPara → List (CodecM (BitVec 32))}
    (hsub : p.HasSubDevice → subSteps p = [(always io.setSubFormat).step, io.codecInitSub])
    (hnone : ¬ p.HasSubDevice → subSteps p = []) :
    Left io p ((io.containerInit device settings subSteps).run p) := by
  have hcontainer : io.Rejects p ↔ p.hasVideo = true ∧ p.VideoUnknown ∨
      p.hasAudio = true ∧ p.AudioUnknown := by
    rcases htype with h | h | h <;> simp [Rejects, h]
  cases hpid : p.hasValidPid with
  | true =>
    have hrun : (io.containerInit device settings subSteps).run p =
        (io.openAndSetUp device settings (subSteps p)).run p := by
      simp [containerInit, hpid]
    rw [hrun]
    exact openAndSetUp_left (hdevice.trans (if_pos hpid))
      (fun d => (hrejects d).trans hcontainer.symm) hsub hnone
  | false =>
    have hrun : (io.containerInit device settings subSteps).run p =
        ⟨-codecErrorParameter, p, []⟩ := by
      simp [containerInit, hpid]
    have hdevice : p.device = none := by simp [hdevice, hpid]
    have hclosed : ¬ io.OpensDevice p := by simp [OpensDevice, hdevice]
    have hsets : ¬ io.SetsUp p := by
      rcases htype with h | h | h <;> simp [SetsUp, h, hclosed]
    rw [hrun]
    exact noPid_left hdevice hsets (by rcases htype with h | h | h <;> simp [h]) (by decide)

theorem subSteps_eq (htype : p.streamType = .ps ∨ p.streamType = .ts) :
    (p.HasSubDevice → io.subSteps p = [(always io.setSubFormat).step, io.codecInitSub]) ∧
      (¬ p.HasSubDevice → io.subSteps p = []) := by
  refine ⟨fun h => if_pos h.2, fun h => if_neg fun hhas => h ⟨htype, hhas⟩⟩

theorem initStream_left (hsub : p.subHandle = -1) (hhandle : p.handle = -1) :
    Left io p ((io.initStream p.streamType).run p) := by
  cases htype : p.streamType with
  | unknown =>
    exact noPid_left (by simp [device, htype]) (by simp [SetsUp, htype]) (by simp [htype])
      (by decide)
  | esSub => exact codecSubEsInit_left htype hsub hhandle
  | esVideo =>
    cases hhas : p.hasVideo with
    | false =>
      have hdevice : p.device = none := by simp [device, htype, hhas]
      simpa [initStream, codecVideoEsInit, hhas] using noDevice_left hdevice (.inl htype)
    | true =>
      have hdevice : p.device = some p.videoDevice := by simp [device, htype, hhas]
      have hrejects : ∀ d : Nat, AnyRejected { p with handle := d } io.videoEsSettings ↔
          io.Rejects p :=
        fun d => by simp [AnyRejected, videoEsSettings, always, Rejects, htype,
          isError_codecSetDrmmode, VideoUnknown]
      simpa [initStream, codecVideoEsInit, hhas] using
        openAndSetUp_left hdevice hrejects (by simp [HasSubDevice, htype]) fun _ => rfl
  | esAudio =>
    cases hhas : p.hasAudio with
    | false =>
      have hdevice : p.device = none := by simp [device, htype, hhas]
      simpa [initStream, codecAudioEsInit, hhas] using noDevice_left hdevice (.inr htype)
    | true =>
      have hdevice : p.device = some .audioEs := by simp [device, htype, hhas]
      have hrejects : ∀ d : Nat, AnyRejected { p with handle := d } io.audioEsSettings ↔
          io.Rejects p :=
        fun d => by simp [AnyRejected, audioEsSettings, always, Rejects, htype, AudioUnknown]
      simpa [initStream, codecAudioEsInit, hhas] using
        openAndSetUp_left hdevice hrejects (by simp [HasSubDevice, htype]) fun _ => rfl
  | ps =>
    refine containerInit_left (.inl htype) (by simp [device, htype]) (fun d => ?_)
      (subSteps_eq (.inl htype)).1 (subSteps_eq (.inl htype)).2
    simp [AnyRejected, psSettings, VideoUnknown, AudioUnknown]
  | ts =>
    refine containerInit_left (.inr (.inl htype)) (by simp [device, htype]) (fun d => ?_)
      (subSteps_eq (.inr htype)).1 (subSteps_eq (.inr htype)).2
    simp [AnyRejected, tsSettings, always, VideoUnknown, AudioUnknown]
  | rm =>
    refine containerInit_left (.inr (.inr htype)) (by simp [device, htype]) (fun d => ?_)
      (by simp [HasSubDevice, htype]) fun _ => rfl
    simp [AnyRejected, rmSettings, VideoUnknown, AudioUnknown]

end Routines

/-! ## A failed `codec_init` and its `codec_close` -/

section Init

variable {io : CodecIo} {p : CodecPara}

theorem run_initPort : io.initPort.run p =
    match io.opens .cntl with
    | some c => ⟨io.portInit { p with cntlHandle := c }, { p with cntlHandle := c }, [.opened c]⟩
    | none => ⟨1, p, []⟩ := by
  cases h : io.opens .cntl with
  | none => simp [initPort, codecInitCntl, run_hOpen_none h]
  | some c => simp [initPort, codecInitCntl, run_hOpen_some h]

/-- The descriptors that `codec_close` closes. -/
def closing (handle : Int) : List Nat := if 0 ≤ handle then [handle.toNat] else []

def closingUnlessZero (handle : Int) : List Nat := if handle = 0 then [] else closing handle

@[simp] theorem closing_natCast (fd : Nat) : closing fd = [fd] := by simp [closing]

@[simp] theorem closingUnlessZero_natCast (fd : Nat) :
    closingUnlessZero fd = if fd = 0 then [] else [fd] := by
  simp [closingUnlessZero]

theorem run_codecHClose_eq (handle : Int) (q : CodecPara) :
    (codecHClose handle).run q = ⟨(), q, (closing handle).map FdEvent.closed⟩ := by
  unfold codecHClose closing
  split <;> simp

theorem run_unlessZero (handle : Int) (q : CodecPara) :
    (if handle ≠ 0 then codecHClose handle else pure ()).run q =
      ⟨(), q, (closingUnlessZero handle).map FdEvent.closed⟩ := by
  unfold closingUnlessZero
  rw [ite_not]
  split
  · rfl
  · exact run_codecHClose_eq handle q

theorem run_closeSub (q : CodecPara) :
    (closeSub q).run q =
      ⟨(), q, (if q.hasSub then closingUnlessZero q.subHandle else []).map FdEvent.closed⟩ := by
  unfold closeSub
  cases q.hasSub with
  | false => simp
  | true =>
    rcases Int.lt_or_le q.subHandle 0 with h | h
    · have hnone : closingUnlessZero q.subHandle = [] := by
        rw [closingUnlessZero, if_neg (Int.ne_of_lt h), closing, if_neg (Int.not_le.mpr h)]
      rw [if_neg fun hsub => Int.not_le.mpr h hsub.2, if_pos rfl, hnone]
      rfl
    · rw [if_pos ⟨rfl, h⟩]
      exact run_unlessZero q.subHandle q

theorem codecClose_log (q : CodecPara) : (codecClose.run q).log =
    ((if q.hasSub then closingUnlessZero q.subHandle else []) ++
      (closingUnlessZero q.cntlHandle ++ closing q.handle)).map FdEvent.closed := by
  have hcntl : (codecCloseCntl q).run q = _ := run_unlessZero q.cntlHandle q
  unfold codecClose
  rw [Traced.run_read, Traced.run_bind, run_closeSub, Traced.run_bind, hcntl, run_codecHClose_eq,
    map_append, map_append]

@[simp] theorem opened_append (xs ys : List FdEvent) : opened (xs ++ ys) = opened xs ++ opened ys :=
  filterMap_append

@[simp] theorem closed_append (xs ys : List FdEvent) : closed (xs ++ ys) = closed xs ++ closed ys :=
  filterMap_append

@[simp] theorem opened_map_closed (fds : List Nat) : opened (fds.map FdEvent.closed) = [] := by
  simp [opened]

@[simp] theorem closed_map_closed (fds : List Nat) : closed (fds.map FdEvent.closed) = fds := by
  simp [closed]

/-- Orderliness in terms of the fields that `codec_close` looks at. -/
theorem orderly_iff (r : Outcome FdEvent CodecPara (BitVec 32)) : Orderly r ↔
    (∀ h ∈ r.st.handles, h < 0 ∨ ∃ fd : Nat, h = fd ∧ fd ∈ opened r.log ∧ fd ∉ closed r.log) ∧
      (closed r.log ++ ((if r.st.hasSub then closingUnlessZero r.st.subHandle else []) ++
        (closingUnlessZero r.st.cntlHandle ++ closing r.st.handle))).Perm (opened r.log) := by
  constructor
  · rintro ⟨hvalid, honce⟩
    rw [codecClose_log] at honce
    exact ⟨hvalid, by simpa using honce⟩
  · rintro ⟨hvalid, honce⟩
    refine ⟨hvalid, ?_⟩
    rw [codecClose_log]
    simpa using honce

/-! ### The parameters before and after the reset -/

theorem reset_audioUnknown : p.reset.AudioUnknown ↔ p.AudioUnknown := by
  unfold AudioUnknown reset
  dsimp only
  split
  · next h => rcases h with h | h <;> rw [h] <;> decide
  · exact Iff.rfl

theorem reset_rejects : io.Rejects p.reset ↔ io.Rejects p := by
  unfold Rejects
  rw [reset_audioUnknown]
  exact Iff.rfl

theorem reset_setsUp : io.SetsUp p.reset ↔ io.SetsUp p := by
  unfold SetsUp
  rw [reset_rejects]
  exact Iff.rfl

theorem codecInit_of_failed {r : Outcome FdEvent CodecPara (BitVec 32)}
    (h : (io.initStream p.streamType).run p.reset = r) (hr : r.val ≠ 0) :
    io.codecInit.run p = r := by
  have htype : p.reset.streamType = p.streamType := rfl
  have hr : ¬ r.val = 0#32 := hr
  simp [codecInit, htype, h, hr]

theorem codecInit_of_setUp {q : CodecPara} {log : List FdEvent}
    (h : (io.initStream p.streamType).run p.reset = ⟨0, q, log⟩) : io.codecInit.run p =
      match io.opens .cntl with
      | some c => ⟨io.portInit { q with cntlHandle := c }, { q with cntlHandle := c },
        log ++ [.opened c]⟩
      | none => ⟨1, q, log⟩ := by
  have htype : p.reset.streamType = p.streamType := rfl
  have hrun : io.codecInit.run p =
      ⟨(io.initPort.run q).val, (io.initPort.run q).st, log ++ (io.initPort.run q).log⟩ := by
    simp [codecInit, htype, h]
  rw [hrun, run_initPort]
  cases io.opens .cntl with
  | none => simp
  | some c => rfl

theorem storesZero_iff (hsets : io.SetsUp p) : io.StoresZero p ↔
    io.opens .cntl = some 0 ∨ p.HasSubDevice ∧ io.opens .sub = some 0 :=
  and_iff_right hsets

theorem closing_perm_iff {subs hs fds : List Nat} {c : Nat} :
    (subs ++ ((if c = 0 then [] else [c]) ++ hs)).Perm (fds ++ [c]) ↔
      (subs ++ hs).Perm (if some c = some 0 then fds ++ [0] else fds) := by
  rcases eq_or_ne c 0 with rfl | hc
  · simp
  · rw [if_neg hc, if_neg (mt Option.some.inj hc)]
    have hmove : (subs ++ ([c] ++ hs)).Perm (subs ++ hs ++ [c]) := by
      rw [append_assoc]
      exact perm_append_comm.append_left subs
    exact ⟨fun h => (perm_append_right_iff [c]).mp (hmove.symm.trans h),
      fun h => hmove.trans (h.append_right [c])⟩

/-- A routine that has set up the device: what matters is what is closed of what it has opened, and
whether the control device has the descriptor 0. -/
theorem orderly_of_setUp {q : CodecPara} (fds subs hs : List Nat)
    (h : (io.initStream p.streamType).run p.reset = ⟨0, q, fds.map FdEvent.opened⟩)
    (hvalid : ∀ handle ∈ q.handles, handle < 0 ∨ ∃ fd ∈ fds, handle = (fd : Nat))
    (hcntl : q.cntlHandle = -1)
    (hsubs : (if q.hasSub then closingUnlessZero q.subHandle else []) = subs)
    (hhs : closing q.handle = hs) :
    Orderly (io.codecInit.run p) ↔
    (subs ++ hs).Perm (if io.opens .cntl = some 0 then fds ++ [0] else fds) := by
  have hopened : ∀ fds : List Nat, opened (fds.map FdEvent.opened) = fds := by simp [opened]
  have hclosed : ∀ fds : List Nat, closed (fds.map FdEvent.opened) = [] := by simp [closed]
  rw [codecInit_of_setUp h, orderly_iff]
  cases io.opens .cntl with
  | none =>
    rw [hopened, hclosed, hcntl, hsubs, hhs, if_neg nofun]
    refine and_iff_right fun handle hmem => (hvalid handle hmem).imp_right ?_
    rintro ⟨fd, hfd, rfl⟩
    exact ⟨fd, rfl, hfd, not_mem_nil⟩
  | some c =>
    dsimp only
    have hlog : fds.map FdEvent.opened ++ [.opened c] = (fds ++ [c]).map FdEvent.opened := by simp
    rw [hlog, hopened, hclosed, closingUnlessZero_natCast, hsubs, hhs, nil_append, closing_perm_iff]
    refine and_iff_right fun handle hmem => ?_
    have hcases : handle = c ∨ handle ∈ q.handles := by
      simp only [handles, mem_cons] at hmem ⊢
      tauto
    rcases hcases with rfl | hold
    · exact .inr ⟨c, rfl, by simp, not_mem_nil⟩
    · refine (hvalid handle hold).imp_right ?_
      rintro ⟨fd, hfd, rfl⟩
      exact ⟨fd, rfl, mem_append_left _ hfd, not_mem_nil⟩

theorem reset_conditions :
    (¬ (io.OpensDevice p ∧ io.Rejects p) ∧ ¬ io.SharesHandle p ∧ ¬ io.StoresZero p) ↔
      (¬ (io.OpensDevice p.reset ∧ io.Rejects p.reset) ∧ ¬ io.SharesHandle p.reset ∧
        ¬ io.StoresZero p.reset) := by
  unfold StoresZero
  rw [reset_rejects, reset_setsUp]
  exact Iff.rfl

theorem orderly_end_iff (io : CodecIo) (p : CodecPara) : Orderly (io.codecInit.run p) ↔
    ¬ (io.OpensDevice p ∧ io.Rejects p) ∧ ¬ io.SharesHandle p ∧ ¬ io.StoresZero p := by
  have hleft : Left io p.reset ((io.initStream p.streamType).run p.reset) := initStream_left rfl rfl
  rw [reset_conditions]
  cases hrun : (io.initStream p.streamType).run p.reset with
  | mk val st log =>
  rw [hrun] at hleft
  cases hleft with
  | unopened hr hsets hrejected hshares =>
    rw [codecInit_of_failed hrun hr, orderly_iff]
    refine iff_of_true ⟨?_, ?_⟩ ⟨hrejected, hshares, fun h => hsets h.1⟩
    · simp [handles, reset]
    · have hsub : (if p.reset.hasSub then closingUnlessZero p.reset.subHandle else []) = [] :=
        ite_self _
      rw [hsub]
      exact .refl _
  | rejected hr hrejected =>
    rw [codecInit_of_failed hrun hr, orderly_iff]
    refine iff_of_false (fun h => ?_) fun h => h.1 hrejected
    obtain hneg | ⟨fd, hfd, -, hopen⟩ := h.1 _ mem_cons_self
    · exact absurd hneg (not_natCast_neg _)
    · cases Int.ofNat.inj hfd
      exact hopen (by simp [closed])
  | noDevice hsets hclosed hno hshares =>
    rw [orderly_of_setUp [] [] [] hrun (by simp [handles, reset]) rfl (ite_self _)
      rfl, and_iff_right fun h => hclosed h.1, and_iff_right hshares, storesZero_iff hsets,
      or_iff_left fun h => hno h.1]
    split <;> simp [*]
  | @device d hsets hok hzero hshares =>
    rw [orderly_of_setUp [d] [] [d] hrun (by simp [handles, reset]) rfl
      (ite_self _) (closing_natCast d), and_iff_right fun h => hok h.2, and_iff_right hshares,
      storesZero_iff hsets, or_iff_left hzero]
    split <;> simp [*]
  | @deviceSub d s hsets hok hhas hsub hshares =>
    rw [orderly_of_setUp [d, s] _ [d] hrun
      (by simp [handles, reset]) rfl
      ((if_pos hhas.2).trans (closingUnlessZero_natCast s)) (closing_natCast d),
      and_iff_right fun h => hok h.2, and_iff_right hshares, storesZero_iff hsets,
        and_iff_right hhas,
      hsub, Option.some_inj]
    rcases eq_or_ne s 0 with rfl | hs
    · refine iff_of_false (fun h => ?_) fun h => h (.inr rfl)
      rw [if_pos rfl] at h
      split at h <;> simpa using h.length_eq
    · rw [if_neg hs, or_iff_left hs]
      split
      · next hz => exact iff_of_false (fun h => by simpa using h.length_eq) fun h => h hz
      · next hz => exact iff_of_true (.swap d s []) hz
  | @sub s htype hhas hsub =>
    have hrejects : ¬ io.Rejects p.reset := by simp [Rejects, htype]
    have hsets : io.SetsUp p.reset := by simp [SetsUp, htype]
    have hshares : io.SharesHandle p.reset ↔ s ≠ 0 := by
      simp [SharesHandle, htype, hhas, hsub]
    have hno : ¬ p.reset.HasSubDevice := by simp [HasSubDevice, htype]
    rw [orderly_of_setUp [s] _ [s] hrun
      (by simp [handles, reset]) rfl
      ((if_pos hhas).trans (closingUnlessZero_natCast s)) (closing_natCast s),
      and_iff_right fun h => hrejects h.2, hshares, storesZero_iff hsets, or_iff_left fun h =>
        hno h.1]
    rcases eq_or_ne s 0 with rfl | hs
    · rw [if_pos rfl]
      split
      · next hz => exact iff_of_false (fun h => by simpa using h.length_eq) fun h => h.2 hz
      · next hz => exact iff_of_true (.refl _) ⟨fun h => h rfl, hz⟩
    · rw [if_neg hs]
      refine iff_of_false (fun h => ?_) fun h => h.1 hs
      split at h
      · exact hs (by simpa using h)
      · simpa using h.length_eq

end Init

/-- A transport stream with H.264 video, MPEG audio and subtitles. -/
def tsPara : CodecPara :=
  { handle := 0, cntlHandle := 0, subHandle := 0, audioUtilsHandle := 0, streamType := .ts,
    hasVideo := true, hasAudio := true, hasSub := true, dvEnable := false, videoType := vformatH264,
    audioType := aformatMpeg, videoPid := 33, audioPid := 34, subPid := 35, audioChannels := 2,
    audioSamplerate := 48000, vbufSize := 0, abufSize := 0, audioInfoValid := false }

/-- The devices have the descriptors 3, 4 and 5, and all requests succeed. -/
def openIo : CodecIo where
  opens
    | .sub => some 4
    | .cntl => some 5
    | _ => some 3
  ioctl _ := true

/-- The audio format of the stream is unknown: `codec_init` fails with 6 and closes the descriptor
3, which is still in `handle`, and `codec_close` closes it again. -/
theorem rejected_closedTwice :
    (openIo.codecInit.run { tsPara with audioType := -1 }).val = 6 ∧
      (openIo.codecInit.run { tsPara with audioType := -1 }).st.handle = 3 ∧
      (openIo.codecInit.run { tsPara with audioType := -1 }).log = [.opened 3, .closed 3] ∧
      (codecClose.run (openIo.codecInit.run { tsPara with audioType := -1 }).st).log = [.closed 3] ∧
      ¬ Orderly (openIo.codecInit.run { tsPara with audioType := -1 }) := by
  refine ⟨by decide, by decide, by decide, by decide, fun h => ?_⟩
  exact absurd h.once.length_eq (by decide)

/-- A subtitle stream whose port cannot be initialised: its one descriptor is closed twice. -/
example :
    let r := CodecIo.codecInit { openIo with ioctl := fun cmd => cmd ≠ .portInit } |>.run
      { tsPara with streamType := .esSub }
    r.val = -codecErrorInitFailed ∧ r.log = [.opened 4, .opened 5] ∧
      (codecClose.run r.st).log = [.closed 4, .closed 5, .closed 4] := by
  decide

end AmlogicHal.Media
