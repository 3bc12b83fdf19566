import AmlogicHal.Amadec.Latency
import AmlogicHal.Lib.Holders

/-!
# The attempts to initialize the codec

`adec_armdec_loop` calls `audio_codec_init` until it succeeds. An attempt initializes the decoders,
the PCM buffer, the raw buffer if the raw output is enabled, and the registers of the audio FIFO,
each with its own error path.

The error paths release all that the attempt has opened (`audioCodecInit_only`), except for what
`aml_hw_mixer_init` opens (`attempts_openMixers`). And `OutBufferInit_raw` doubles `nOutBufSize` for
DTS and TrueHD, so the next attempt starts from there. `attempts_iff` says when nothing stays open
and when the buffers have the sizes of a first attempt nevertheless; in `doubled_again` they have
not.
-/

namespace AmlogicHal.Amadec

open List

/-! ## The model -/

/-- The variables that hold something to be released. The data of a buffer are held in its
`buffer_stream_t`. -/
inductive CodecSlot where
  | decoder | adDecoder | gBst | gBstData | gBstRaw | gBstRawData | fdUio | memmap
deriving DecidableEq

structure CodecConfig where
  format : AudioFormat
  useAoutInAdec : Bool
  associateDecSupported : Bool
  stageFrightCodecEnableType : Bool
  /-- `find_audio_lib` has found the functions of a decoder, `init` and `release` among them. -/
  loaded : Bool
  /-- What `init` of the decoder sets `nOutBufSize` to. -/
  decoderSize : Option Int
deriving DecidableEq

/-- What the decoders, `malloc`, the device and the system files answer in one attempt. -/
structure InitAnswers where
  /-- `aml_hw_mixer_init`, which is not in the repository, opens something. -/
  hwMixer : Bool
  adInit : Bool
  init : Bool
  gBst : Bool
  gBstData : Bool
  /-- `digital_raw`, as `enable_raw_output` reads it. -/
  digitalRaw : Int
  gBstRaw : Bool
  /-- `digital_raw`, as `OutBufferInit_raw` reads it. -/
  digitalRawAgain : Int
  gBstRawData : Bool
  /-- There is `/sys/module/dvb_demux/`. -/
  multiDemux : Bool
  fdUio : Bool
  memmap : Bool
deriving DecidableEq

inductive InitResult where
  | initted
  | failed
  /-- A function that was not found is called. -/
  | crashed
deriving DecidableEq

/-- What `init_buff` and its caller write into a `buffer_stream_t`. -/
structure BufferFields where
  bufLength : Int
  info : StreamInfo

structure Codec where
  nOutBufSize : Int
  info : StreamInfo
  gBst : BufferFields
  gBstRaw : BufferFields
  resources : Holders CodecSlot
  /-- How often `aml_hw_mixer_init` has opened something that `aml_hw_mixer_deinit` did not
  close. -/
  openMixers : Nat

namespace Codec

/-- The state after `RegisterDecode`. -/
def registered (nOutBufSize : Int) (info : StreamInfo) : Codec :=
  ⟨nOutBufSize, info, ⟨0, ⟨0, 0⟩⟩, ⟨0, ⟨0, 0⟩⟩, .empty, 0⟩

def forget (k : CodecSlot) (s : Codec) : Codec := { s with resources := s.resources.forget k }

def acquire (k : CodecSlot) (succeeds : Bool) (s : Codec) : Codec :=
  { s with resources := s.resources.acquire k succeeds }

def release (k : CodecSlot) (s : Codec) : Codec := { s with resources := s.resources.release k }

def sizes (s : Codec) : Option Int × Option Int :=
  ((s.resources.held .gBstData).map fun _ => s.gBst.bufLength,
    (s.resources.held .gBstRawData).map fun _ => s.gBstRaw.bufLength)

end Codec

namespace CodecConfig

variable (c : CodecConfig)

variable (e : InitAnswers)

/-- The attempt opens something for the mixer. No error path calls `aml_hw_mixer_deinit`. -/
def opensMixer : Bool := !c.useAoutInAdec && e.hwMixer

variable (s : Codec)

/-- The first lines of `audio_codec_init`, which overwrite the pointers and the descriptor. -/
def reset : Codec :=
  let s := ((((s.forget .gBst).forget .gBstData).forget .gBstRaw).forget .gBstRawData).forget .fdUio
  { s with
    info := ⟨if s.info.channels > 2 then 2 else s.info.channels, s.info.samplerate⟩
    openMixers := s.openMixers + (c.opensMixer e).toNat }

/-- The result of the associated decoder is overwritten by that of the main one. -/
def decoderInit : Codec × Bool :=
  if !c.stageFrightCodecEnableType && c.loaded then
    let s := if c.useAoutInAdec then s else s.acquire .adDecoder e.adInit
    let s := s.acquire .decoder e.init
    if e.init then ({ s with nOutBufSize := c.decoderSize.getD s.nOutBufSize }, true)
    else (s, false)
  else (s, true)

/-- `nOutBufSize` after `OutBufferInit` has set the default. -/
def sizeOr (nOutBufSize : Int) : Int :=
  OutBufferConfig.size ⟨nOutBufSize, c.associateDecSupported, c.useAoutInAdec⟩

def outBufferInit : Codec × Bool :=
  let s := s.acquire .gBst e.gBst
  if e.gBst then
    let s := { s with nOutBufSize := c.sizeOr s.nOutBufSize }.acquire .gBstData e.gBstData
    if e.gBstData then ({ s with gBst := ⟨s.nOutBufSize, s.info⟩ }, true) else (s, false)
  else (s, false)

def DoublesSize : Prop :=
  (c.format = .dts ∨ c.format = .truehd) ∧ e.digitalRawAgain = 2

instance : Decidable (c.DoublesSize e) := inferInstanceAs (Decidable (_ ∧ _))

/-- `nOutBufSize` after `OutBufferInit_raw` has changed it. -/
def rawSize (nOutBufSize : Int) : Int :=
  let size := if nOutBufSize ≤ 0 then (defaultPcmBufferSize : Int) else nOutBufSize
  if c.DoublesSize e then int32 (size * 2) else size

def outBufferInitRaw : Codec × Bool :=
  let s := s.acquire .gBstRaw e.gBstRaw
  if e.gBstRaw then
    let s := { s with nOutBufSize := c.rawSize e s.nOutBufSize }.acquire .gBstRawData e.gBstRawData
    if e.gBstRawData then
      let info : StreamInfo := ⟨if s.info.channels > 0 then s.info.channels else 2,
        if s.info.samplerate > 0 then s.info.samplerate else 48000⟩
      ({ s with gBstRaw := ⟨s.nOutBufSize, info⟩, info := info }, true)
    else (s, false)
  else (s, false)

def enableRawOutput : Bool := e.digitalRaw ≠ 0 && c.format.raw

def useSwCheckApts : Bool := !c.useAoutInAdec && e.multiDemux

def inBufferInit : Codec × Bool :=
  if c.useSwCheckApts e then (s, true)
  else
    let s := (s.forget .memmap).acquire .fdUio e.fdUio
    if e.fdUio then (s.acquire .memmap e.memmap, e.memmap) else (s, false)

/-- `OutBufferRelease` with `release_buffer`. Without a `buffer_stream_t` there are no data. -/
def outBufferRelease : Codec := (s.release .gBstData).release .gBst

def outBufferReleaseRaw : Codec := (s.release .gBstRawData).release .gBstRaw

def inBufferRelease : Codec :=
  if c.useSwCheckApts e then s else (s.release .fdUio).release .memmap

def releaseDecoders : Codec :=
  let s := s.release .decoder
  if c.useAoutInAdec then s else s.release .adDecoder

/-- The first two error paths do not check whether there is a `release`. -/
def err1 : Codec × InitResult :=
  if c.loaded then (c.releaseDecoders s, .failed) else (s, .crashed)

def err2 : Codec × InitResult :=
  if c.loaded then (outBufferRelease (c.releaseDecoders s), .failed) else (s, .crashed)

def err3 : Codec × InitResult :=
  let s := if c.loaded then c.releaseDecoders s else s
  (outBufferReleaseRaw (c.inBufferRelease e (outBufferRelease s)), .failed)

def audioCodecInit : Codec × InitResult :=
  let decoders := c.decoderInit e (c.reset e s)
  if !decoders.2 then c.err1 decoders.1
  else
    let pcm := c.outBufferInit e decoders.1
    if !pcm.2 then c.err2 pcm.1
    else
      let raw := if c.enableRawOutput e then c.outBufferInitRaw e pcm.1 else (pcm.1, true)
      if !raw.2 then c.err2 (outBufferReleaseRaw raw.1)
      else
        let uio := c.inBufferInit e raw.1
        if !uio.2 then c.err3 e uio.1 else (uio.1, .initted)

/-- `adec_armdec_loop` up to the first success. -/
def attempts : Machine Codec InitAnswers InitResult := ⟨fun s e => c.audioCodecInit e s⟩

/-! ## What decides on the result -/

def decodersReady : Bool := c.stageFrightCodecEnableType || !c.loaded || e.init

def rawReady : Bool := !c.enableRawOutput e || e.gBstRaw && e.gBstRawData

def uioReady : Bool := c.useSwCheckApts e || e.fdUio && e.memmap

/-- The attempt gets to the line that doubles `nOutBufSize`. -/
def Doubles : Prop :=
  c.decodersReady e = true ∧ e.gBst = true ∧ e.gBstData = true ∧ c.enableRawOutput e = true ∧
    e.gBstRaw = true ∧ c.DoublesSize e

instance : Decidable (c.Doubles e) := inferInstanceAs (Decidable (_ ∧ _))

/-- `init` is called and sets `nOutBufSize`. -/
def SetsSize : Prop :=
  c.stageFrightCodecEnableType = false ∧ c.loaded = true ∧ c.decoderSize.isSome

instance : Decidable c.SetsSize := inferInstanceAs (Decidable (_ ∧ _))

/-- The size of the PCM buffer after it was doubled some times, in `int`. -/
def grown : Nat → Int → Int
  | 0, size => size
  | k + 1, size => grown k (c.sizeOr (int32 (size * 2)))

variable {c} {e : InitAnswers} {s : Codec} {ks : List CodecSlot}

theorem decoderInit_ready : (c.decoderInit e s).2 = c.decodersReady e := by
  unfold decoderInit decodersReady
  cases c.stageFrightCodecEnableType <;> cases c.loaded <;> cases e.init <;> rfl

theorem outBufferInit_ready : (c.outBufferInit e s).2 = (e.gBst && e.gBstData) := by
  unfold outBufferInit
  cases e.gBst <;> cases e.gBstData <;> rfl

theorem outBufferInitRaw_ready :
    (if c.enableRawOutput e then c.outBufferInitRaw e s else (s, true)).2 = c.rawReady e := by
  unfold outBufferInitRaw rawReady
  cases c.enableRawOutput e <;> cases e.gBstRaw <;> cases e.gBstRawData <;> rfl

theorem inBufferInit_ready : (c.inBufferInit e s).2 = c.uioReady e := by
  unfold inBufferInit uioReady
  cases c.useSwCheckApts e <;> cases e.fdUio <;> rfl

theorem initted_iff :
    (c.audioCodecInit e s).2 = .initted ↔
      c.decodersReady e = true ∧ (e.gBst && e.gBstData) = true ∧ c.rawReady e = true ∧
        c.uioReady e = true := by
  have herr1 : ∀ s, (c.err1 s).2 ≠ .initted := by
    intro s
    unfold err1
    split <;> exact InitResult.noConfusion
  have herr2 : ∀ s, (c.err2 s).2 ≠ .initted := by
    intro s
    unfold err2
    split <;> exact InitResult.noConfusion
  unfold audioCodecInit
  dsimp only
  rw [decoderInit_ready, outBufferInit_ready, outBufferInitRaw_ready, inBufferInit_ready]
  cases c.decodersReady e with
  | false => simp [herr1]
  | true =>
    cases e.gBst && e.gBstData with
    | false => simp [herr2]
    | true =>
      cases c.rawReady e with
      | false => simp [herr2]
      | true =>
        cases c.uioReady e with
        | false => simp [err3]
        | true => simp

/-! ## What is released -/

open Holders

def decoderSlots (c : CodecConfig) : List CodecSlot :=
  if c.loaded then if c.useAoutInAdec then [.decoder] else [.decoder, .adDecoder] else []

def uioSlots (c : CodecConfig) (e : InitAnswers) : List CodecSlot :=
  if c.useSwCheckApts e then [] else [.memmap, .fdUio]

theorem not_mem_decoderSlots {k : CodecSlot} (ks : List CodecSlot)
    (hk : k ∉ ks ++ [.decoder, .adDecoder]) : k ∉ ks ++ c.decoderSlots := by
  have hsub : c.decoderSlots ⊆ [.decoder, .adDecoder] := by
    unfold decoderSlots
    split
    · split
      · exact cons_subset_cons _ (nil_subset _)
      · exact List.Subset.refl _
    · exact nil_subset _
  intro hmem
  exact hk (mem_append.mpr ((mem_append.mp hmem).imp_right (hsub ·)))

theorem reset_only (h : Only s.resources []) : Only (c.reset e s).resources [] :=
  ((((h.forget not_mem_nil).forget not_mem_nil).forget not_mem_nil).forget not_mem_nil).forget
    not_mem_nil

theorem decoderInit_only (h : Only s.resources []) :
    Only (c.decoderInit e s).1.resources c.decoderSlots := by
  unfold decoderInit decoderSlots
  cases c.loaded with
  | false =>
    rw [Bool.and_false]
    exact h
  | true =>
    cases c.stageFrightCodecEnableType with
    | true => exact h.mono (nil_subset _)
    | false =>
      cases c.useAoutInAdec with
      | true =>
        have hmain := h.acquire (k := .decoder) not_mem_nil
        cases e.init with
        | true => exact hmain true
        | false => exact hmain false
      | false =>
        have hboth :=
          (h.acquire (k := .adDecoder) not_mem_nil e.adInit).acquire (k := .decoder) (by decide)
        cases e.init with
        | true => exact hboth true
        | false => exact hboth false

theorem outBufferInit_only (h : Only s.resources c.decoderSlots) :
    Only (c.outBufferInit e s).1.resources (.gBstData :: .gBst :: c.decoderSlots) := by
  have hstruct := h.acquire (k := .gBst) (not_mem_decoderSlots [] (by decide)) e.gBst
  unfold outBufferInit
  split
  · have hdata :=
      hstruct.acquire (k := .gBstData) (not_mem_decoderSlots [.gBst] (by decide)) e.gBstData
    split <;> exact hdata
  · exact hstruct.mono (subset_cons_self _ _)

def bufferSlots (c : CodecConfig) : List CodecSlot :=
  .gBstRawData :: .gBstRaw :: .gBstData :: .gBst :: c.decoderSlots

theorem outBufferInitRaw_only (h : Only s.resources (.gBstData :: .gBst :: c.decoderSlots)) :
    Only (c.outBufferInitRaw e s).1.resources c.bufferSlots := by
  have hstruct :=
    h.acquire (k := .gBstRaw) (not_mem_decoderSlots [.gBstData, .gBst] (by decide)) e.gBstRaw
  unfold outBufferInitRaw
  dsimp only
  split
  · have hdata := hstruct.acquire (k := .gBstRawData)
      (not_mem_decoderSlots [.gBstRaw, .gBstData, .gBst] (by decide)) e.gBstRawData
    split <;> exact hdata
  · exact hstruct.mono (subset_cons_self _ _)

theorem inBufferInit_only (h : Only s.resources c.bufferSlots) :
    Only (c.inBufferInit e s).1.resources (c.uioSlots e ++ c.bufferSlots) := by
  unfold inBufferInit uioSlots
  split
  · exact h
  · have hmap : .memmap ∉ .fdUio :: c.bufferSlots :=
      not_mem_decoderSlots [.fdUio, .gBstRawData, .gBstRaw, .gBstData, .gBst] (by decide)
    have hopened := (h.forget (not_mem_of_not_mem_cons hmap)).acquire (k := .fdUio)
      (not_mem_decoderSlots [.gBstRawData, .gBstRaw, .gBstData, .gBst] (by decide)) e.fdUio
    split
    · exact hopened.acquire hmap e.memmap
    · exact hopened.mono (subset_cons_self _ _)

theorem releaseDecoders_only {ks' : List CodecSlot} (hloaded : c.loaded = true)
    (h : Only s.resources ks) (hsub : ∀ k ∈ ks, k ∈ c.decoderSlots ∨ k ∈ ks') :
    Only (c.releaseDecoders s).resources ks' := by
  unfold releaseDecoders
  unfold decoderSlots at hsub
  rw [if_pos hloaded] at hsub
  split
  · next haout =>
    rw [if_pos haout] at hsub
    exact h.release fun k hk => (hsub k hk).imp_left mem_singleton.mp
  · next haout =>
    rw [if_neg haout] at hsub
    refine h.release_both fun k hk => ?_
    have hk := hsub k hk
    rwa [mem_cons, mem_singleton, or_assoc] at hk

theorem inBufferRelease_only {ks' : List CodecSlot} (h : Only s.resources ks)
    (hsub : ∀ k ∈ ks, k ∈ c.uioSlots e ∨ k ∈ ks') : Only (c.inBufferRelease e s).resources ks' := by
  unfold inBufferRelease
  unfold uioSlots at hsub
  split
  · next hsw =>
    rw [if_pos hsw] at hsub
    exact h.mono fun k hk => (hsub k hk).resolve_left not_mem_nil
  · next hsw =>
    rw [if_neg hsw] at hsub
    refine h.release_both fun k hk => ?_
    have hk := hsub k hk
    rwa [mem_cons, mem_singleton, or_assoc, or_left_comm] at hk

/-! ### The error paths -/

theorem err1_only (h : Only s.resources c.decoderSlots) (hfailed : (c.err1 s).2 = .failed) :
    Only (c.err1 s).1.resources [] := by
  unfold err1 at hfailed ⊢
  split
  · next hloaded => exact releaseDecoders_only hloaded h fun k hk => .inl hk
  · next hloaded =>
    rw [if_neg hloaded] at hfailed
    cases hfailed

theorem err2_only (h : Only s.resources (.gBstData :: .gBst :: c.decoderSlots))
    (hfailed : (c.err2 s).2 = .failed) : Only (c.err2 s).1.resources [] := by
  unfold err2 at hfailed ⊢
  split
  · next hloaded =>
    have hbuffer : Only (c.releaseDecoders s).resources [.gBstData, .gBst] :=
      releaseDecoders_only hloaded h fun k hk => by simpa [or_comm, or_assoc, or_left_comm] using hk
    exact hbuffer.release_both fun k hk => by simpa using hk
  · next hloaded =>
    rw [if_neg hloaded] at hfailed
    cases hfailed

theorem err3_only (h : Only s.resources (c.uioSlots e ++ c.bufferSlots)) :
    Only (c.err3 e s).1.resources [] := by
  have hdecoders : Only (if c.loaded then c.releaseDecoders s else s).resources
      (c.uioSlots e ++ [.gBstRawData, .gBstRaw, .gBstData, .gBst]) := by
    split
    · next hloaded =>
      refine releaseDecoders_only hloaded h fun k hk => ?_
      simp only [bufferSlots, mem_append, mem_cons] at hk ⊢
      tauto
    · next hloaded =>
      refine h.mono fun k hk => ?_
      rw [bufferSlots, decoderSlots, if_neg hloaded] at hk
      exact hk
  have hpcm : Only (outBufferRelease (if c.loaded then c.releaseDecoders s else s)).resources
      (c.uioSlots e ++ [.gBstRawData, .gBstRaw]) := by
    refine hdecoders.release_both fun k hk => ?_
    simp only [mem_append, mem_cons] at hk ⊢
    tauto
  have huio : Only (c.inBufferRelease e
      (outBufferRelease (if c.loaded then c.releaseDecoders s else s))).resources
      [.gBstRawData, .gBstRaw] :=
    inBufferRelease_only hpcm fun k hk => mem_append.mp hk
  exact huio.release_both fun k hk => by simpa using hk

theorem audioCodecInit_only (h : Only s.resources [])
    (hfailed : (c.audioCodecInit e s).2 = .failed) :
    Only (c.audioCodecInit e s).1.resources [] := by
  have hdecoders := decoderInit_only (c := c) (e := e) (reset_only (c := c) (e := e) h)
  have hpcm := outBufferInit_only (e := e) hdecoders
  have hraw : Only (if c.enableRawOutput e then c.outBufferInitRaw e
      (c.outBufferInit e (c.decoderInit e (c.reset e s)).1).1
      else ((c.outBufferInit e (c.decoderInit e (c.reset e s)).1).1, true)).1.resources
        c.bufferSlots := by
    split
    · exact outBufferInitRaw_only hpcm
    · exact hpcm.mono fun k hk => mem_cons_of_mem _ (mem_cons_of_mem _ hk)
  revert hfailed
  unfold audioCodecInit
  dsimp only
  generalize (if c.enableRawOutput e then _ else _ : Codec × Bool) = raw at hraw ⊢
  split
  · exact err1_only hdecoders
  · split
    · exact err2_only hpcm
    · split
      · have hreleased : Only (outBufferReleaseRaw raw.1).resources
            (.gBstData :: .gBst :: c.decoderSlots) :=
          hraw.release_both fun k hk => by simpa only [bufferSlots, mem_cons] using hk
        exact err2_only hreleased
      · split
        · exact fun _ => err3_only (inBufferInit_only hraw)
        · exact fun hfailed => by cases hfailed

/-! ## The sizes -/

theorem sizeOr_of_pos {n : Int} (hn : 0 < n) : c.sizeOr n = n := by
  exact if_neg (Int.not_le.mpr hn)

theorem sizeOr_pos (n : Int) : 0 < c.sizeOr n := OutBufferConfig.size_pos _

@[simp] theorem sizeOr_sizeOr (n : Int) : c.sizeOr (c.sizeOr n) = c.sizeOr n :=
  sizeOr_of_pos (sizeOr_pos n)

/-- `nOutBufSize` after a successful `init`. -/
def decoderSizeOr (c : CodecConfig) (n : Int) : Int :=
  if !c.stageFrightCodecEnableType && c.loaded then c.decoderSize.getD n else n

theorem decoderSizeOr_of_sets (h : c.SetsSize) (n m : Int) :
    c.decoderSizeOr n = c.decoderSizeOr m := by
  obtain ⟨hstage, hloaded, hsize⟩ := h
  obtain ⟨size, hsize⟩ := Option.isSome_iff_exists.mp hsize
  rw [decoderSizeOr, decoderSizeOr, hstage, hloaded, hsize]
  rfl

theorem decoderSizeOr_of_not_sets (h : ¬ c.SetsSize) (n : Int) : c.decoderSizeOr n = n := by
  unfold decoderSizeOr
  split
  · next hcalled =>
    cases hsize : c.decoderSize with
    | none => rfl
    | some size =>
      rw [Bool.and_eq_true, Bool.not_eq_true'] at hcalled
      exact absurd ⟨hcalled.1, hcalled.2, by rw [hsize]; rfl⟩ h
  · rfl

theorem decoderInit_size :
    (c.decoderInit e s).1.nOutBufSize =
      if c.decodersReady e then c.decoderSizeOr s.nOutBufSize else s.nOutBufSize := by
  unfold decoderInit decodersReady decoderSizeOr
  cases c.stageFrightCodecEnableType <;> cases c.loaded <;> cases e.init <;>
    cases c.useAoutInAdec <;> rfl

theorem outBufferInit_size :
    (c.outBufferInit e s).1.nOutBufSize = if e.gBst then c.sizeOr s.nOutBufSize
      else s.nOutBufSize := by
  unfold outBufferInit
  cases e.gBst <;> cases e.gBstData <;> rfl

theorem outBufferInitRaw_size :
    (c.outBufferInitRaw e s).1.nOutBufSize = if e.gBstRaw then c.rawSize e s.nOutBufSize
      else s.nOutBufSize := by
  unfold outBufferInitRaw
  cases e.gBstRaw <;> cases e.gBstRawData <;> rfl

theorem rawSize_of_pos {n : Int} (hn : 0 < n) :
    c.rawSize e n = if c.DoublesSize e then int32 (n * 2) else n := by
  unfold rawSize
  rw [if_neg (Int.not_le.mpr hn)]

/-! ### What the releases do not change -/

section Keeps

variable {β : Type} {f : Codec → β} (hf : ∀ s resources, f { s with resources } = f s)
include hf

theorem inBufferInit_keeps : f (c.inBufferInit e s).1 = f s := by
  unfold inBufferInit
  split
  · rfl
  · split <;> exact hf s _

theorem releaseDecoders_keeps : f (c.releaseDecoders s) = f s := by
  unfold releaseDecoders
  split <;> exact hf s _

theorem outBufferRelease_keeps : f (outBufferRelease s) = f s := hf s _

theorem outBufferReleaseRaw_keeps : f (outBufferReleaseRaw s) = f s := hf s _

theorem inBufferRelease_keeps : f (c.inBufferRelease e s) = f s := by
  unfold inBufferRelease
  split
  · rfl
  · exact hf s _

theorem err1_keeps : f (c.err1 s).1 = f s := by
  unfold err1
  split
  · exact releaseDecoders_keeps hf
  · rfl

theorem err2_keeps : f (c.err2 s).1 = f s := by
  unfold err2
  split
  · exact (outBufferRelease_keeps hf).trans (releaseDecoders_keeps hf)
  · rfl

theorem err3_keeps : f (c.err3 e s).1 = f s := by
  unfold err3
  dsimp only
  rw [outBufferReleaseRaw_keeps hf, inBufferRelease_keeps hf, outBufferRelease_keeps hf]
  split
  · exact releaseDecoders_keeps hf
  · rfl

theorem audioCodecInit_leaves :
    f (c.audioCodecInit e s).1 =
      if c.decodersReady e then
        if e.gBst && e.gBstData then
          f (if c.enableRawOutput e then c.outBufferInitRaw e
            (c.outBufferInit e (c.decoderInit e (c.reset e s)).1).1
            else ((c.outBufferInit e (c.decoderInit e (c.reset e s)).1).1, true)).1
        else f (c.outBufferInit e (c.decoderInit e (c.reset e s)).1).1
      else f (c.decoderInit e (c.reset e s)).1 := by
  unfold audioCodecInit
  dsimp only
  rw [decoderInit_ready, outBufferInit_ready, outBufferInitRaw_ready, inBufferInit_ready]
  cases c.decodersReady e with
  | false => exact err1_keeps hf
  | true =>
    cases e.gBst && e.gBstData with
    | false => exact err2_keeps hf
    | true =>
      cases c.rawReady e with
      | false => exact (err2_keeps hf).trans (outBufferReleaseRaw_keeps hf)
      | true =>
        cases c.uioReady e with
        | false => exact (err3_keeps hf).trans (inBufferInit_keeps hf)
        | true => exact inBufferInit_keeps hf

end Keeps

/-- One attempt, which may fail or not, in the size that the next one gives to the PCM buffer. -/
theorem audioCodecInit_size (hsets : ¬ c.SetsSize) :
    c.sizeOr (c.audioCodecInit e s).1.nOutBufSize =
      if c.Doubles e then c.sizeOr (int32 (c.sizeOr s.nOutBufSize * 2))
      else c.sizeOr s.nOutBufSize := by
  have hdecoders : (c.decoderInit e (c.reset e s)).1.nOutBufSize = s.nOutBufSize := by
    rw [decoderInit_size, decoderSizeOr_of_not_sets hsets, ite_self]
    rfl
  rw [audioCodecInit_leaves (f := Codec.nOutBufSize) fun _ _ => rfl, outBufferInit_size, hdecoders]
  by_cases hready : c.decodersReady e
  · by_cases hpcm : e.gBst && e.gBstData
    · obtain ⟨hstruct, hdata⟩ := Bool.and_eq_true_iff.mp hpcm
      rw [if_pos hready, if_pos hpcm]
      by_cases hraw : c.enableRawOutput e
      · rw [if_pos hraw, outBufferInitRaw_size, outBufferInit_size, hdecoders, if_pos hstruct]
        by_cases hrawStruct : e.gBstRaw
        · rw [if_pos hrawStruct, rawSize_of_pos (sizeOr_pos _)]
          by_cases hdoubles : c.DoublesSize e
          · rw [if_pos hdoubles, if_pos ⟨hready, hstruct, hdata, hraw, hrawStruct, hdoubles⟩]
          · rw [if_neg hdoubles, if_neg (fun h => hdoubles h.2.2.2.2.2), sizeOr_sizeOr]
        · rw [if_neg hrawStruct, if_neg (fun h => hrawStruct h.2.2.2.2.1), sizeOr_sizeOr]
      · rw [if_neg hraw, outBufferInit_size, hdecoders, if_pos hstruct,
          if_neg (fun h => hraw h.2.2.2.1),
          sizeOr_sizeOr]
    · have hnot : ¬ c.Doubles e := fun h => hpcm (Bool.and_eq_true_iff.mpr ⟨h.2.1, h.2.2.1⟩)
      rw [if_pos hready, if_neg hpcm, if_neg hnot]
      split
      · exact sizeOr_sizeOr _
      · rfl
  · rw [if_neg hready, if_neg (fun h => hready h.1)]

theorem size_after (hsets : ¬ c.SetsSize) (es : List InitAnswers) :
    ∀ s : Codec, c.sizeOr (c.attempts.exec s es).2.nOutBufSize =
      c.grown (es.countP fun e => decide (c.Doubles e)) (c.sizeOr s.nOutBufSize) := by
  induction es with
  | nil => exact fun s => rfl
  | cons e es ih =>
    intro s
    have hstep := audioCodecInit_size (e := e) (s := s) hsets
    refine (ih (c.audioCodecInit e s).1).trans ?_
    rw [hstep]
    by_cases hdoubles : c.Doubles e
    · rw [if_pos hdoubles,
        countP_cons_of_pos (p := fun e => decide (c.Doubles e)) (decide_eq_true hdoubles), grown]
    · rw [if_neg hdoubles, countP_cons_of_neg (by simpa using hdoubles)]

end CodecConfig

/-! ## The buffers -/

namespace Codec

variable {s : Codec} {k : CodecSlot}

theorem sizes_acquire (hpcm : .gBstData ≠ k) (hraw : .gBstRawData ≠ k) (succeeds : Bool) :
    (s.acquire k succeeds).sizes = s.sizes := by
  unfold sizes acquire
  rw [Holders.held_acquire_of_ne hpcm, Holders.held_acquire_of_ne hraw]

theorem sizes_forget (hpcm : .gBstData ≠ k) (hraw : .gBstRawData ≠ k) :
    (s.forget k).sizes = s.sizes := by
  unfold sizes forget
  rw [Holders.held_forget_of_ne hpcm, Holders.held_forget_of_ne hraw]

end Codec

namespace CodecConfig

open Holders

variable {c : CodecConfig} {e : InitAnswers} {s : Codec}

theorem outBufferInit_sizes (hready : (e.gBst && e.gBstData) = true)
    (h : Only s.resources c.decoderSlots) :
    (c.outBufferInit e s).1.sizes = (some (c.sizeOr s.nOutBufSize), none) := by
  obtain ⟨hstruct, hdata⟩ := Bool.and_eq_true_iff.mp hready
  have hraw := (outBufferInit_only (e := e) h).held_eq_none (k := .gBstRawData)
    (not_mem_decoderSlots [.gBstData, .gBst] (by decide))
  unfold outBufferInit at hraw ⊢
  rw [hstruct, hdata] at hraw ⊢
  unfold Codec.sizes
  rw [hraw]
  unfold Codec.acquire
  rw [if_pos rfl, if_pos rfl]
  rfl

theorem outBufferInitRaw_sizes (hready : (e.gBstRaw && e.gBstRawData) = true) :
    (c.outBufferInitRaw e s).1.sizes = (s.sizes.1, some (c.rawSize e s.nOutBufSize)) := by
  obtain ⟨hstruct, hdata⟩ := Bool.and_eq_true_iff.mp hready
  unfold outBufferInitRaw
  rw [hstruct, hdata]
  unfold Codec.sizes Codec.acquire
  rw [if_pos rfl, if_pos rfl]
  rw [held_acquire_self, held_acquire_of_ne (by decide), held_acquire_of_ne (by decide)]
  rfl

theorem inBufferInit_sizes : (c.inBufferInit e s).1.sizes = s.sizes := by
  have hopened : ((s.forget .memmap).acquire .fdUio e.fdUio).sizes = s.sizes := by
    rw [Codec.sizes_acquire (by decide) (by decide), Codec.sizes_forget (by decide) (by decide)]
  unfold inBufferInit
  split
  · rfl
  · split
    · exact (Codec.sizes_acquire (by decide) (by decide) _).trans hopened
    · exact hopened

theorem initted_sizes (h : Only s.resources []) (hinitted : (c.audioCodecInit e s).2 = .initted) :
    (c.audioCodecInit e s).1.sizes =
      (some (c.sizeOr (c.decoderSizeOr s.nOutBufSize)),
        if c.enableRawOutput e then some (c.rawSize e (c.sizeOr (c.decoderSizeOr s.nOutBufSize)))
        else none) := by
  obtain ⟨hdecoders, hpcm, hraw, huio⟩ := initted_iff.mp hinitted
  have hsize : (c.decoderInit e (c.reset e s)).1.nOutBufSize = c.decoderSizeOr s.nOutBufSize := by
    rw [decoderInit_size, if_pos hdecoders]
    rfl
  have hsizes :=
    outBufferInit_sizes hpcm (decoderInit_only (c := c) (e := e) (reset_only (c := c) (e := e) h))
  rw [hsize] at hsizes
  unfold audioCodecInit
  dsimp only
  rw [decoderInit_ready, outBufferInit_ready, outBufferInitRaw_ready, inBufferInit_ready, hdecoders,
    hpcm, hraw, huio]
  refine inBufferInit_sizes.trans ?_
  unfold rawReady at hraw
  by_cases henabled : c.enableRawOutput e
  · rw [henabled] at hraw
    rw [if_pos henabled, if_pos henabled, outBufferInitRaw_sizes hraw, hsizes, outBufferInit_size,
      if_pos (Bool.and_eq_true_iff.mp hpcm).1, hsize]
  · rw [if_neg henabled, if_neg henabled]
    exact hsizes

/-! ## The attempts -/

theorem audioCodecInit_openMixers :
    (c.audioCodecInit e s).1.openMixers = s.openMixers + (c.opensMixer e).toNat := by
  have hdecoders : (c.decoderInit e (c.reset e s)).1.openMixers = (c.reset e s).openMixers := by
    unfold decoderInit
    cases c.stageFrightCodecEnableType <;> cases c.loaded <;> cases e.init <;>
      cases c.useAoutInAdec <;> rfl
  have hpcm : ∀ s, (c.outBufferInit e s).1.openMixers = s.openMixers := by
    intro s
    unfold outBufferInit
    cases e.gBst <;> cases e.gBstData <;> rfl
  have hraw : ∀ s, (c.outBufferInitRaw e s).1.openMixers = s.openMixers := by
    intro s
    unfold outBufferInitRaw
    cases e.gBstRaw <;> cases e.gBstRawData <;> rfl
  rw [audioCodecInit_leaves (f := Codec.openMixers) fun _ _ => rfl, apply_ite Prod.fst,
    apply_ite Codec.openMixers, hraw, hpcm, hdecoders]
  simp only [ite_self]
  rfl

theorem attempts_openMixers (es : List InitAnswers) :
    ∀ s : Codec, (c.attempts.exec s es).2.openMixers = s.openMixers + es.countP c.opensMixer := by
  induction es with
  | nil => exact fun s => rfl
  | cons e es ih =>
    intro s
    refine (ih (c.audioCodecInit e s).1).trans ?_
    rw [audioCodecInit_openMixers, countP_cons, Nat.add_assoc, Nat.add_comm (es.countP _)]
    cases c.opensMixer e <;> rfl

theorem attempts_only {nOutBufSize : Int} {info : StreamInfo} {es : List InitAnswers}
    (hfailed : c.attempts.Always (fun s e => (c.audioCodecInit e s).2 = .failed)
      (.registered nOutBufSize info) es) :
    Only (c.attempts.exec (.registered nOutBufSize info) es).2.resources [] :=
  (Machine.run_exec es hfailed).invariant (fun _ s => Only s.resources []) only_empty
    fun _ _ _ h hfailed => audioCodecInit_only h hfailed

/-- They have the sizes of a first attempt if and only if `init` sets the size, or the attempts that
doubled it have brought it back to the first one. Failed attempts leave nothing open but what they
have opened for the mixer. -/
theorem attempts_iff (c : CodecConfig) (nOutBufSize : Int) (info : StreamInfo)
    (es : List InitAnswers) (e : InitAnswers)
    (hfailed : c.attempts.Always (fun s e => (c.audioCodecInit e s).2 = .failed)
      (.registered nOutBufSize info) es)
    (hinitted : (c.audioCodecInit e (c.attempts.exec (.registered nOutBufSize info) es).2).2 =
      .initted) :
    ResourceEvent.Paired (c.attempts.exec (.registered nOutBufSize info) es).2.resources.history ∧
      ((c.attempts.exec (.registered nOutBufSize info) es).2.openMixers = 0 ↔
        ∀ e ∈ es, c.opensMixer e = false) ∧
      (c.audioCodecInit e (.registered nOutBufSize info)).2 = .initted ∧
      ((c.audioCodecInit e (c.attempts.exec (.registered nOutBufSize info) es).2).1.sizes =
          (c.audioCodecInit e (.registered nOutBufSize info)).1.sizes ↔
        c.SetsSize ∨
          c.grown (es.countP fun e => decide (c.Doubles e)) (c.sizeOr nOutBufSize) =
            c.sizeOr nOutBufSize) := by
  have honly := attempts_only hfailed
  have hfirst : (c.audioCodecInit e (.registered nOutBufSize info)).2 = .initted :=
    initted_iff.mpr (initted_iff.mp hinitted)
  refine ⟨honly.paired, ?_, hfirst, ?_⟩
  · rw [attempts_openMixers]
    show 0 + es.countP c.opensMixer = 0 ↔ _
    simp [countP_eq_zero]
  rw [initted_sizes honly hinitted, initted_sizes only_empty hfirst]
  by_cases hsets : c.SetsSize
  · rw [decoderSizeOr_of_sets hsets _ (Codec.registered nOutBufSize info).nOutBufSize]
    exact iff_of_true rfl (.inl hsets)
  · rw [decoderSizeOr_of_not_sets hsets, decoderSizeOr_of_not_sets hsets, size_after hsets,
      or_iff_right hsets]
    constructor
    · intro hsizes
      exact Option.some.inj (congrArg Prod.fst hsizes)
    · intro hgrown
      rw [show c.sizeOr (Codec.registered nOutBufSize info).nOutBufSize =
        c.sizeOr nOutBufSize from rfl, hgrown]

/-- `malloc` and the device work, and the raw output is set to 2. -/
def allWell : InitAnswers := ⟨false, true, true, true, true, 2, true, 2, true, false, true, true⟩

/-- AAC with the decoder `libfaad`. -/
def aacCodec : CodecConfig := ⟨.aac, false, false, false, true, some (64 * 1024)⟩

/-- There is no memory for the PCM buffer, then the decoder fails. -/
def aacFailures : List InitAnswers :=
  [{ allWell with gBstData := false }, { allWell with init := false }]

theorem attempts_iff_aac :
    ResourceEvent.Paired
      (aacCodec.attempts.exec (.registered 0 ⟨2, 48000⟩) aacFailures).2.resources.history ∧
      (aacCodec.attempts.exec (.registered 0 ⟨2, 48000⟩) aacFailures).2.openMixers = 0 ∧
      (aacCodec.audioCodecInit allWell
        (aacCodec.attempts.exec (.registered 0 ⟨2, 48000⟩) aacFailures).2).1.sizes =
        (aacCodec.audioCodecInit allWell (.registered 0 ⟨2, 48000⟩)).1.sizes := by
  obtain ⟨hpaired, hmixers, -, hsizes⟩ :=
    attempts_iff aacCodec 0 ⟨2, 48000⟩ aacFailures allWell (by decide) (by decide)
  exact ⟨hpaired, hmixers.mpr (by decide), hsizes.mpr (.inl (by decide))⟩

/-- DTS, for which `find_audio_lib` has no decoder and the OMX library decodes. -/
def dtsCodec : CodecConfig := ⟨.dts, false, false, true, false, none⟩

/-- The device cannot be opened at first. The next attempt has buffers of the double size; without
memory for the PCM buffer, a `release` that is `NULL` is called. What is opened for the mixer stays
open. -/
theorem doubled_again :
    (dtsCodec.audioCodecInit { allWell with fdUio := false } (.registered 0 ⟨2, 48000⟩)).2 =
      .failed ∧ (dtsCodec.audioCodecInit allWell
        (dtsCodec.audioCodecInit { allWell with fdUio := false } (.registered 0 ⟨2, 48000⟩)).1).2 =
          .initted ∧
      (dtsCodec.audioCodecInit allWell
        (dtsCodec.audioCodecInit { allWell with fdUio := false }
          (.registered 0 ⟨2, 48000⟩)).1).1.sizes =
          (some 768000, some 1536000) ∧
      (dtsCodec.audioCodecInit allWell (.registered 0 ⟨2, 48000⟩)).1.sizes =
        (some 384000, some 768000) ∧
      (dtsCodec.audioCodecInit { allWell with gBst := false } (.registered 0 ⟨2, 48000⟩)).2 =
        .crashed ∧
      (dtsCodec.audioCodecInit { allWell with fdUio := false, hwMixer := true }
        (.registered 0 ⟨2, 48000⟩)).1.openMixers = 1 := by
  decide

end CodecConfig

end AmlogicHal.Amadec
