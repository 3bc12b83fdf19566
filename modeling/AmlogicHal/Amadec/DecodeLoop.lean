import AmlogicHal.Amadec.BufferStream

/-!
# The decode loop

`audio_decode_loop` offers packages of encoded data to the decoder and writes the decoded data to
the PCM buffer. What the decoder does not consume is kept for the next package, at four places that
differ by the format:

* a decoder that fails gets the same bytes again, with the next package behind them;
* AMR, COOK and RAAC wait for another package when at most half of the bytes are left;
* AAC waits for one when bytes were consumed and nothing was decoded;
* Dolby and DTS are not decoded: all bytes are copied to the output.

`decode_accounted`: for every format but APE, COOK and RAAC the bytes that were consumed, and then
the pending ones, are the bytes of the packages; and the same for the decoded data on their way
through the PCM buffer, which another thread reads. APE drops the bytes of a failed call; COOK and
RAAC take the offset from the decoder.
-/

namespace AmlogicHal.Amadec

open Machine List

/-- `ACODEC_FMT_*`. -/
inductive AudioFormat
  | null | mpeg | pcmS16le | aac | ac3 | alaw | mulaw | dts | pcmS16be | flac | cook | pcmU8 | adpcm
  | amr | raac | wma | wmapro | pcmBluray | alac | vorbis | aacLatm | ape | eac3 | wifidisplay | dra
  | truehd | mpeg1 | mpeg2 | wmavoi | ac4
deriving DecidableEq

def isDolbyFormat : AudioFormat → Bool
  | .ac3 | .eac3 | .ac4 | .truehd => true
  | _ => false

variable (format : AudioFormat)

namespace AudioFormat

/-- The data are copied to the output as they are. -/
def raw : Bool := isDolbyFormat format || format = .dts

/-- The loop waits for another package when few bytes are left. -/
def delays : Bool := format = .cook || format = .raac || format = .amr

end AudioFormat

/-! ## The model -/

/-- Where the thread is: before `package_get`, at the head of the inner loop, or in the loop that
writes to the PCM buffer. -/
inductive Phase
  | fetch | decode | write
deriving DecidableEq

/-- The local variables of the loop, and the fields of `audec` that it writes. `inbuf` has `rlen`
bytes. The size of `outbuf` is not modelled: an output that fits into the PCM buffer fits into it.
`decode_offset` is an `unsigned long`, of `ulongBits` bits: 32 or 64, as the build has it. -/
structure DecodeLoop (α : Type) where
  phase : Phase
  inbuf : List α
  inlen : Nat
  declen : Nat
  pRestData : Option (List α)
  needdata : Nat
  outbuf : List α
  outlen : Nat
  ulongBits : Nat
  decodeOffset : Nat
  decodePcmOffset : Nat
  nDecodeErrCount : Nat
  gBst : BufferStream α

/-- What the thread is told if it asks: by `package_get`, and by the decoder, which returns `dlen`,
puts `output` into `outbuf` and may set a time stamp. -/
structure Answers (α : Type) where
  package : Option (List α)
  dlen : Int
  output : List α
  pts : Nat

/-- The decode thread goes on, or the reader of the PCM buffer takes up to `size` bytes. -/
inductive DecodeEvent (α : Type)
  | advance (answers : Answers α)
  | read (size : Nat)

inductive LoopEffect (α : Type)
  | idle
  | fetched (package : List α)
  | decoded (offered : List α) (dlen : Nat) (output : List α)
  | wrote (bytes : List α)
  | taken (bytes : List α)

structure DecoderCall (α : Type) where
  offered : List α
  dlen : Int
  output : List α

namespace DecodeLoop

variable {α : Type}

/-- The thread starts with a new PCM buffer; `audio_codec_init` has cleared the offsets. -/
def initial (ulongBits : Nat) (gBst : BufferStream α) : DecodeLoop α where
  phase := .fetch
  inbuf := []
  inlen := 0
  declen := 0
  pRestData := none
  needdata := 0
  outbuf := []
  outlen := 0
  ulongBits := ulongBits
  decodeOffset := 0
  decodePcmOffset := 0
  nDecodeErrCount := 0
  gBst := gBst

variable (s : DecodeLoop α)

def next : DecodeLoop α :=
  { s with phase := if s.declen < s.inbuf.length then .decode else .fetch }

/-- The new `inbuf` and `pRestData`. -/
def join (package : List α) : List α × Option (List α) :=
  match s.pRestData with
  | none => (package, none)
  | some rest => if s.inlen ≠ 0 then (rest.take s.inlen ++ package, none) else (package, some rest)

def fetch : Option (List α) → DecodeLoop α × LoopEffect α
  | none => (s, .idle)
  | some package =>
    (next { s with
      inbuf := (s.join package).1
      inlen := (s.join package).1.length
      declen := 0
      pRestData := (s.join package).2 }, .fetched package)

/-- The inner loop is left, and what the decoder has not consumed is kept. -/
def saveRest : DecodeLoop α :=
  { s with pRestData := some ((s.inbuf.drop s.declen).take s.inlen), phase := .fetch }

/-- The call in this iteration. The copy for the raw formats is from the start of `inbuf`. -/
def call (answers : Answers α) : DecoderCall α :=
  if format.raw then ⟨s.inbuf.take s.inlen, s.inlen, s.inbuf.take s.inlen⟩
  else ⟨(s.inbuf.drop s.declen).take s.inlen, answers.dlen, answers.output⟩

/-- `dlen <= 0`. -/
def decodeFailed : DecodeLoop α :=
  let kept := if format = .ape then { s with inlen := 0, phase := .fetch }
    else if s.inlen > 0 then s.saveRest else { s with phase := .fetch }
  { kept with nDecodeErrCount := s.nDecodeErrCount + 1, needdata := 0 }

/-- The lengths after a call that consumed `dlen` bytes. -/
def consume (dlen : Nat) : DecodeLoop α :=
  { s with
    nDecodeErrCount := 0
    declen := s.declen + dlen
    inlen := s.inlen - dlen
    needdata :=
      if format.delays ∧ s.inlen - dlen ≤ s.declen + dlen then s.needdata + 1 else s.needdata }

def writing : DecodeLoop α :=
  if s.outlen = 0 then s.next else { s with phase := .write }

def ulong (n : Nat) : Nat := n % 2 ^ s.ulongBits

/-- What is done with the output of a call, after `consume`. -/
def deliver (dlen : Nat) (output : List α) (pts : Nat) :
    DecodeLoop α :=
  if (format = .aacLatm ∨ format = .aac) ∧ output.length = 0 ∧ s.inlen ≠ 0 then
    { s.saveRest with decodeOffset := s.ulong (s.decodeOffset + dlen) }
  else
    writing { s with
      decodeOffset :=
        s.ulong (if format = .raac ∨ format = .cook then pts else s.decodeOffset + dlen)
      decodePcmOffset := s.decodePcmOffset + output.length
      outbuf := output
      outlen := output.length }

/-- The iteration only keeps the bytes for the next package. -/
def waits : Bool := format.delays && s.needdata > 0

/-- One iteration of the inner loop, up to the writing. -/
def iterate (answers : Answers α) :
    DecodeLoop α × LoopEffect α :=
  if s.waits format then ({ s.saveRest with needdata := 0 }, .idle)
  else
    let c := s.call format answers
    if c.dlen ≤ 0 then (s.decodeFailed format, .decoded c.offered 0 [])
    else
      ((s.consume format c.dlen.toNat).deliver format c.dlen.toNat c.output answers.pts,
        .decoded c.offered c.dlen.toNat c.output)

def free : Nat := s.gBst.bufLength - s.gBst.bufLevel

/-- One iteration of the loop that writes. `outbuf` is always written from its start. -/
def writeRound : DecodeLoop α × LoopEffect α :=
  if s.free < s.outlen then (s, .idle)
  else
    let r := s.gBst.writeData (s.outbuf.take s.outlen)
    (writing { s with gBst := r.1, outlen := s.outlen - r.2.ret.toNat },
      .wrote (s.outbuf.take r.2.ret.toNat))

def advance (answers : Answers α) :
    DecodeLoop α × LoopEffect α :=
  match s.phase with
  | .fetch => s.fetch answers.package
  | .decode => s.iterate format answers
  | .write => s.writeRound

/-- `read_pcm_buffer`, by another thread. -/
def readPcm (size : Nat) : DecodeLoop α × LoopEffect α :=
  ({ s with gBst := (s.gBst.readData size).1 }, .taken (s.gBst.readData size).2.out)

end DecodeLoop

open DecodeLoop

def decodeLoop (α : Type) (format : AudioFormat) :
    Machine (DecodeLoop α) (DecodeEvent α) (LoopEffect α) where
  step s
    | .advance answers => s.advance format answers
    | .read size => s.readPcm size

/-! ## The accounts -/

namespace LoopEffect

variable {α : Type}

def packageBytes : LoopEffect α → List α
  | .fetched package => package
  | _ => []

def consumed : LoopEffect α → List α
  | .decoded offered dlen _ => offered.take dlen
  | _ => []

def output : LoopEffect α → List α
  | .decoded _ _ output => output
  | _ => []

def written : LoopEffect α → List α
  | .wrote bytes => bytes
  | _ => []

def read : LoopEffect α → List α
  | .taken bytes => bytes
  | _ => []

end LoopEffect

namespace DecodeLoop

section Accounts

variable {α : Type} (format : AudioFormat)

variable (s : DecodeLoop α)

/-- The bytes that have come in packages and have not been consumed. -/
def pending : List α :=
  match s.phase with
  | .fetch => s.pRestData.getD []
  | _ => s.inbuf.drop s.declen

def unwritten : List α :=
  match s.phase with
  | .write => s.outbuf.take s.outlen
  | _ => []

/-- The decoder is called in this step, or the copy made that replaces it. -/
def Calls : Prop := s.phase = .decode ∧ s.waits format = false

instance : Decidable (s.Calls format) := inferInstanceAs (Decidable (_ ∧ _))

/-- The decoder fails, or consumes at most what it is offered. -/
def Legal : DecodeEvent α → Prop
  | .advance answers =>
    s.Calls format → (s.call format answers).dlen ≤ 0 ∨ (s.call format answers).dlen ≤ s.inlen
  | .read _ => True

/-- The output of a decoder that does not fail fits into the PCM buffer. -/
def HasRoom : DecodeEvent α → Prop
  | .advance answers => s.Calls format → 0 < (s.call format answers).dlen →
    (s.call format answers).output.length ≤ s.free
  | .read _ => True

instance : (e : DecodeEvent α) → Decidable (s.Legal format e)
  | .advance _ => inferInstanceAs (Decidable (_ → _ ∨ _))
  | .read _ => .isTrue trivial

instance : (e : DecodeEvent α) → Decidable (s.HasRoom format e)
  | .advance _ => inferInstanceAs (Decidable (_ → _ → _))
  | .read _ => .isTrue trivial

/-- What is known of a history `h` that ends in the state `s`: the bytes that came in packages were
consumed or are pending, `decode_offset` is the number of those that were consumed, as far as an
`unsigned long` can hold it, what was decoded was written or is waiting to be, and what was written
was read or is in the PCM buffer; all of it in order. -/
structure Accounts (s : DecodeLoop α) (h : List (DecodeEvent α × LoopEffect α)) : Prop where
  pending : Machine.total LoopEffect.consumed h ++ s.pending =
    Machine.total LoopEffect.packageBytes h
  decodeOffset : s.decodeOffset = s.ulong (Machine.total LoopEffect.consumed h).length
  unwritten : Machine.total LoopEffect.written h ++ s.unwritten = Machine.total LoopEffect.output h
  contents : Machine.total LoopEffect.read h ++ s.gBst.contents = Machine.total LoopEffect.written h

/-- If the decoder is called in this step, it is offered the bytes that have come in packages, from
the first one on that was not consumed; and the accounts are right after the step. -/
structure Accounted (s : DecodeLoop α × List (DecodeEvent α × LoopEffect α)) (e : DecodeEvent α) :
    Prop where
  offered : ∀ offered dlen output,
    ((decodeLoop α format).step s.1 e).2 = .decoded offered dlen output →
      offered = (Machine.total LoopEffect.packageBytes s.2).drop
        (Machine.total LoopEffect.consumed s.2).length
  accounts : Accounts ((decodeLoop α format).recorded.step s e).1.1
    ((decodeLoop α format).recorded.step s e).1.2

/-- If there is something to write, all of it is written in this step. -/
def WritesAtOnce : DecodeEvent α → Prop
  | .advance answers => s.phase = .write →
    ((decodeLoop α format).step s (.advance answers)).2 = .wrote s.outbuf ∧
      ((decodeLoop α format).step s (.advance answers)).1.phase ≠ .write
  | .read _ => True

/-! ## One step -/

/-- `inbuf` is in use: it has `inlen` bytes from `declen` on, and nothing else is kept. -/
def Inside : Prop :=
  s.declen + s.inlen = s.inbuf.length ∧ s.pRestData.getD [] = []

/-- What the lengths are in each phase. The raw formats are copied from the start of `inbuf`, so it
matters that they never have a second iteration. -/
def Valid (s : DecodeLoop α) : Prop :=
  (∃ q r, Holds s.gBst q r) ∧
    match s.phase with
    | .fetch => (s.pRestData.getD []).length = s.inlen
    | .decode => s.Inside ∧ s.declen < s.inbuf.length ∧ (format.raw = true → s.declen = 0)
    | .write =>
      s.Inside ∧ s.outlen = s.outbuf.length ∧ (format.raw = true → s.declen = s.inbuf.length)

structure StepSpec (s : DecodeLoop α) (x : DecodeLoop α × LoopEffect α) : Prop where
  valid : Valid format x.1
  offered : ∀ offered dlen output, x.2 = .decoded offered dlen output → offered = s.pending
  pending : x.2.consumed ++ x.1.pending = s.pending ++ x.2.packageBytes
  decodeOffset : ∀ n, s.decodeOffset = s.ulong n →
    x.1.decodeOffset = x.1.ulong (n + x.2.consumed.length)
  unwritten : x.2.written ++ x.1.unwritten = s.unwritten ++ x.2.output
  contents : x.2.read ++ x.1.gBst.contents = s.gBst.contents ++ x.2.written

variable {format} {s : DecodeLoop α}

theorem accounts_decode (hphase : s.phase = .decode) :
    s.pending = s.inbuf.drop s.declen ∧ s.unwritten = [] := by
  unfold pending unwritten
  rw [hphase]
  exact ⟨rfl, rfl⟩

theorem StepSpec.idle (h : Valid format s) : StepSpec format s (s, .idle) :=
  ⟨h, nofun, by simp [LoopEffect.consumed, LoopEffect.packageBytes],
    fun _ hoffset => hoffset, by
      simp [LoopEffect.written, LoopEffect.output], by simp [LoopEffect.read, LoopEffect.written]⟩

theorem next_of_lt (h : s.declen < s.inbuf.length) : s.next = { s with phase := .decode } := by
  unfold next
  rw [if_pos h]

theorem next_of_ge (h : s.inbuf.length ≤ s.declen) : s.next = { s with phase := .fetch } := by
  unfold next
  rw [if_neg (Nat.not_lt.mpr h)]

theorem next_spec (format : AudioFormat) (hholds : ∃ q r, Holds s.gBst q r) (h : s.Inside)
    (hraw : format.raw = true → s.declen = 0 ∨ s.declen = s.inbuf.length) :
    Valid format s.next ∧ s.next.pending = s.inbuf.drop s.declen ∧ s.next.unwritten = [] := by
  rcases Nat.lt_or_ge s.declen s.inbuf.length with hlt | hge
  · rw [next_of_lt hlt]
    exact ⟨⟨hholds, h, hlt, fun hr => (hraw hr).resolve_right hlt.ne⟩, rfl, rfl⟩
  · have hinlen : s.inlen = 0 := by
      have := h.1
      omega
    rw [next_of_ge hge, drop_of_length_le hge]
    exact ⟨⟨hholds, by rw [h.2, hinlen]; rfl⟩, h.2, rfl⟩

theorem writing_spec (format : AudioFormat) (hholds : ∃ q r, Holds s.gBst q r) (h : s.Inside)
    (hout : s.outlen = s.outbuf.length ∨ s.outlen = 0)
    (hraw : format.raw = true → s.declen = s.inbuf.length) :
    Valid format s.writing ∧ s.writing.pending = s.inbuf.drop s.declen ∧
      s.writing.unwritten = s.outbuf.take s.outlen := by
  unfold writing
  split
  · next hzero =>
    rw [hzero, take_zero]
    exact next_spec format hholds h fun hr => .inr (hraw hr)
  · next hpos =>
    exact ⟨⟨hholds, h, hout.resolve_right hpos, hraw⟩, rfl, rfl⟩

@[simp]
theorem decodeOffset_writing (s : DecodeLoop α) : s.writing.decodeOffset = s.decodeOffset := by
  unfold writing
  split <;> rfl

@[simp]
theorem ulongBits_writing (s : DecodeLoop α) : s.writing.ulongBits = s.ulongBits := by
  unfold writing
  split <;> rfl

@[simp]
theorem gBst_writing (s : DecodeLoop α) : s.writing.gBst = s.gBst := by
  unfold writing
  split <;> rfl

theorem join_fst (hrest : (s.pRestData.getD []).length = s.inlen) (package : List α) :
    (s.join package).1 = s.pRestData.getD [] ++ package ∧ (s.join package).2.getD [] = [] := by
  unfold join
  cases hdata : s.pRestData with
  | none => exact ⟨rfl, rfl⟩
  | some rest =>
    have hlength : rest.length = s.inlen := by rwa [hdata] at hrest
    dsimp only
    split
    · rw [← hlength, take_length]
      exact ⟨rfl, rfl⟩
    · next hzero =>
      have hnil : rest = [] := eq_nil_of_length_eq_zero (hlength.trans (not_not.mp hzero))
      rw [hnil]
      exact ⟨rfl, rfl⟩

theorem fetch_spec (h : Valid format s) (hphase : s.phase = .fetch) (package : Option (List α)) :
    StepSpec format s (s.fetch package) := by
  obtain ⟨hholds, hrest⟩ := h
  rw [hphase] at hrest
  cases package with
  | none => exact .idle ⟨hholds, by rwa [hphase]⟩
  | some package =>
    obtain ⟨hinbuf, hnone⟩ := join_fst hrest package
    have hpending : s.pending = s.pRestData.getD [] := by rw [pending, hphase]
    have hunwritten : s.unwritten = [] := by rw [unwritten, hphase]
    obtain ⟨hvalid, hnext, hwrite⟩ := next_spec format hholds (s := { s with
        inbuf := (s.join package).1
        inlen := (s.join package).1.length
        declen := 0
        pRestData := (s.join package).2 }) ⟨Nat.zero_add _, hnone⟩ fun _ => .inl rfl
    refine ⟨hvalid, nofun, ?_, fun _ hoffset => hoffset, ?_, ?_⟩
    · rw [hpending]
      exact hnext.trans hinbuf
    · rw [hunwritten]
      exact hwrite
    · exact (append_nil _).symm

/-- The bytes that are kept when the inner loop is left are all that `inbuf` still has. -/
theorem Inside.take_drop (h : s.Inside) :
    (s.inbuf.drop s.declen).take s.inlen = s.inbuf.drop s.declen := by
  have hlengths := h.1
  exact take_of_length_le (by rw [length_drop]; omega)

theorem saveRest_spec (format : AudioFormat) (hholds : ∃ q r, Holds s.gBst q r) (h : s.Inside) :
    Valid format s.saveRest ∧ s.saveRest.pending = s.inbuf.drop s.declen ∧
    s.saveRest.unwritten = [] := by
  refine ⟨⟨hholds, ?_⟩, h.take_drop, rfl⟩
  have hlengths := h.1
  show ((s.inbuf.drop s.declen).take s.inlen).length = s.inlen
  rw [h.take_drop, length_drop]
  omega

theorem offered_call (h : s.Inside) (hraw : format.raw = true → s.declen = 0)
    (answers : Answers α) : (s.call format answers).offered = s.inbuf.drop s.declen := by
  unfold call
  split
  · next hr =>
    have htake := h.take_drop
    rwa [hraw hr, drop_zero] at htake ⊢
  · exact h.take_drop

theorem consume_inside (h : s.Inside) {dlen : Nat} (hle : dlen ≤ s.inlen) :
    (s.consume format dlen).Inside := by
  have hlengths := h.1
  refine ⟨?_, h.2⟩
  show s.declen + dlen + (s.inlen - dlen) = s.inbuf.length
  omega

theorem deliver_spec (hholds : ∃ q r, Holds s.gBst q r) (h : s.Inside)
    (hformat : format ≠ .raac ∧ format ≠ .cook)
    (hraw : format.raw = true → s.declen = s.inbuf.length) (dlen : Nat) (output : List α)
    (pts : Nat) :
    Valid format (s.deliver format dlen output pts) ∧
      (s.deliver format dlen output pts).pending = s.inbuf.drop s.declen ∧
      (s.deliver format dlen output pts).unwritten = output ∧
      (s.deliver format dlen output pts).ulongBits = s.ulongBits ∧
      (s.deliver format dlen output pts).decodeOffset = s.ulong (s.decodeOffset + dlen) ∧
      (s.deliver format dlen output pts).gBst = s.gBst := by
  unfold deliver
  split
  · next hresync =>
    -- the decoder of AAC has consumed something without an output
    obtain ⟨hvalid, hpending, hunwritten⟩ := saveRest_spec format hholds h
    have hnil : output = [] := eq_nil_of_length_eq_zero hresync.2.1
    exact ⟨hvalid, hpending, hunwritten.trans hnil.symm, rfl, rfl, rfl⟩
  · rw [if_neg (not_or.mpr hformat)]
    obtain ⟨hvalid, hpending, hunwritten⟩ := writing_spec format (s := { s with
        decodeOffset := s.ulong (s.decodeOffset + dlen)
        decodePcmOffset := s.decodePcmOffset + output.length
        outbuf := output
        outlen := output.length }) hholds h (.inl rfl) hraw
    exact ⟨hvalid, hpending, hunwritten.trans take_length, ulongBits_writing _,
      decodeOffset_writing _, gBst_writing _⟩

section

variable (h : Valid format s)
include h

section

variable (hphase : s.phase = .decode)
include hphase

theorem Valid.decode :
    (∃ q r, Holds s.gBst q r) ∧ s.Inside ∧ s.declen < s.inbuf.length ∧
    (format.raw = true → s.declen = 0) := by
  unfold Valid at h
  rwa [hphase] at h

omit hphase in
theorem Valid.write (hphase : s.phase = .write) :
    (∃ q r, Holds s.gBst q r) ∧ s.Inside ∧ s.outlen = s.outbuf.length ∧
      (format.raw = true → s.declen = s.inbuf.length) := by
  unfold Valid at h
  rwa [hphase] at h

omit h in
theorem StepSpec.keep {s' : DecodeLoop α} {effect : LoopEffect α}
    (hsaved : Valid format s' ∧ s'.pending = s.inbuf.drop s.declen ∧ s'.unwritten = [])
    (hoffset : s'.decodeOffset = s.decodeOffset ∧ s'.ulongBits = s.ulongBits)
    (hbst : s'.gBst = s.gBst)
    (heffect : effect = .idle ∨ effect = .decoded (s.inbuf.drop s.declen) 0 []) :
    StepSpec format s (s', effect) := by
  obtain ⟨hpending, hunwritten⟩ := accounts_decode hphase
  obtain ⟨hvalid, hrest, hnothing⟩ := hsaved
  have hkept : s'.pending = s.pending ++ [] := by rw [hrest, hpending, append_nil]
  have hunwritten : s'.unwritten = s.unwritten ++ [] := by rw [hnothing, hunwritten]; rfl
  have hcontents : s'.gBst.contents = s.gBst.contents ++ [] := by rw [hbst, append_nil]
  have hoffset (n : Nat) (hn : s.decodeOffset = s.ulong n) : s'.decodeOffset = s'.ulong n := by
    rw [hoffset.1, hn, ulong, ulong, hoffset.2]
  rcases heffect with rfl | rfl
  · exact ⟨hvalid, nofun, hkept, hoffset, hunwritten, hcontents⟩
  · refine ⟨hvalid, ?_, hkept, hoffset, hunwritten, hcontents⟩
    rintro _ _ _ ⟨⟩
    exact hpending.symm

theorem deliver_stepSpec
    (hformat : format ≠ .raac ∧ format ≠ .cook) {dlen : Nat} (hle : dlen ≤ s.inlen)
    (hraw : format.raw = true → dlen = s.inlen) (output : List α) (pts : Nat) :
    StepSpec format s ((s.consume format dlen).deliver format dlen output pts,
      .decoded (s.inbuf.drop s.declen) dlen output) := by
  obtain ⟨hpending, hunwritten⟩ := accounts_decode hphase
  obtain ⟨hholds, hinside, hlt, _⟩ := h.decode hphase
  have hlengths := hinside.1
  have hall : format.raw = true → s.declen + dlen = s.inbuf.length :=
    fun hr => by rw [hraw hr, hlengths]
  obtain ⟨hvalid, hleft, houtput, hbits, hoffset, hbst⟩ :=
    deliver_spec (s := s.consume format dlen) hholds
    (consume_inside hinside hle) hformat hall dlen output pts
  have hlength : ((s.inbuf.drop s.declen).take dlen).length = dlen :=
    length_take_of_le (by rw [length_drop]; omega)
  refine ⟨hvalid, ?_, ?_, ?_, ?_, ?_⟩
  · rintro _ _ _ ⟨⟩
    exact hpending.symm
  · show (s.inbuf.drop s.declen).take dlen ++ _ = s.pending ++ []
    rw [hleft, hpending, append_nil]
    show _ ++ s.inbuf.drop (s.declen + dlen) = _
    rw [← drop_drop, take_append_drop]
  · intro n hn
    show _ = ulong _ (n + ((s.inbuf.drop s.declen).take dlen).length)
    rw [hlength, hoffset, ulong, ulong, hbits]
    show (s.decodeOffset + dlen) % 2 ^ s.ulongBits = (n + dlen) % 2 ^ s.ulongBits
    rw [hn, ulong, Nat.mod_add_mod]
  · rw [hunwritten]
    exact houtput
  · exact (congrArg BufferStream.contents hbst).trans (append_nil _).symm

theorem iterate_spec
    (hformat : format ≠ .ape ∧ format ≠ .raac ∧ format ≠ .cook) (answers : Answers α)
    (hlegal : s.Legal format (.advance answers)) :
    StepSpec format s (s.iterate format answers) := by
  obtain ⟨hholds, hinside, hlt, hraw⟩ := h.decode hphase
  have hsaved := saveRest_spec format hholds hinside
  unfold iterate
  split
  · exact .keep hphase hsaved ⟨rfl, rfl⟩ rfl (.inl rfl)
  · next hwaits =>
    have hlegal := hlegal ⟨hphase, by simpa using hwaits⟩
    dsimp only
    rw [offered_call hinside hraw answers]
    split
    · -- the decoder fails
      have hpos : s.inlen > 0 := by
        have := hinside.1
        omega
      have hfailed : s.decodeFailed format =
          { s.saveRest with nDecodeErrCount := s.nDecodeErrCount + 1, needdata := 0 } := by
        unfold decodeFailed
        rw [if_neg hformat.1, if_pos hpos]
      rw [hfailed]
      exact .keep hphase hsaved ⟨rfl, rfl⟩ rfl (.inr rfl)
    · next hpos =>
      have hle := hlegal.resolve_left hpos
      have hall : format.raw = true → (s.call format answers).dlen.toNat = s.inlen := by
        intro hr
        simp [call, hr]
      exact deliver_stepSpec h hphase hformat.2 (Int.toNat_le.mpr hle) hall _ _

end

omit h in
/-- The buffer takes everything, so that `outbuf` need not be written a second time. -/
theorem writeRound_eq {q : Fifo α} {r : Nat} (hq : Holds s.gBst q r)
    (hout : s.outlen = s.outbuf.length) (hfree : ¬ s.free < s.outlen) :
    s.writeRound = (writing { s with gBst := (s.gBst.writeData s.outbuf).1, outlen := 0 },
      .wrote s.outbuf) ∧ q.accepted s.outbuf = s.outbuf := by
  have haccepted : q.accepted s.outbuf = s.outbuf := by
    unfold free at hfree
    rw [hq.length, hq.level, hout] at hfree
    exact take_of_length_le (Nat.not_lt.mp hfree)
  have hret := (hq.writeData_spec s.outbuf).ret
  rw [haccepted] at hret
  refine ⟨?_, haccepted⟩
  unfold writeRound
  rw [if_neg hfree, hout, take_length]
  dsimp only
  rw [hret, Int.toNat_natCast, Nat.sub_self, take_length]

theorem writeRound_spec (hphase : s.phase = .write) : StepSpec format s s.writeRound := by
  obtain ⟨⟨q, r, hq⟩, hinside, hout, hraw⟩ := h.write hphase
  rcases Nat.lt_or_ge s.free s.outlen with hlt | hge
  · unfold writeRound
    rw [if_pos hlt]
    exact .idle h
  · obtain ⟨heq, haccepted⟩ := writeRound_eq hq hout (Nat.not_lt.mpr hge)
    obtain ⟨r', hr'⟩ := (hq.writeData_spec s.outbuf).holds
    obtain ⟨hvalid, hpending, hunwritten⟩ := writing_spec format
      (s := { s with gBst := (s.gBst.writeData s.outbuf).1, outlen := 0 }) ⟨_, r', hr'⟩
      hinside (.inr rfl) hraw
    have hbefore : s.pending = s.inbuf.drop s.declen := by rw [pending, hphase]
    have hwhole : s.unwritten = s.outbuf := by rw [unwritten, hphase, hout]; exact take_length
    rw [heq]
    refine ⟨hvalid, nofun, ?_, ?_, ?_, ?_⟩
    · rw [hbefore]
      exact hpending.trans (append_nil _).symm
    · intro n hn
      rw [decodeOffset_writing, ulong, ulongBits_writing]
      exact hn
    · show s.outbuf ++ _ = s.unwritten ++ []
      rw [hunwritten, hwhole]
      rfl
    · rw [hq.contents_eq]
      show BufferStream.contents (writing _).gBst = q.bytes ++ s.outbuf
      rw [gBst_writing, hr'.contents_eq]
      exact congrArg _ haccepted

theorem readPcm_spec (size : Nat) : StepSpec format s (s.readPcm size) := by
  obtain ⟨⟨q, r, hq⟩, hphase⟩ := h
  have hspec := hq.readData_spec size
  obtain ⟨r', hr'⟩ := hspec.holds
  refine ⟨⟨⟨_, r', hr'⟩, hphase⟩, nofun, (append_nil _).symm, fun _ hoffset => hoffset,
    (append_nil _).symm, ?_⟩
  · show (s.gBst.readData size).2.out ++ _ = s.gBst.contents ++ []
    unfold readPcm
    rw [hspec.out, hr'.contents_eq, hq.contents_eq, append_nil]
    exact take_append_drop size q.bytes

theorem step_stepSpec
    (hformat : format ≠ .ape ∧ format ≠ .raac ∧ format ≠ .cook) (e : DecodeEvent α)
    (hlegal : s.Legal format e) : StepSpec format s ((decodeLoop α format).step s e) := by
  cases e with
  | read size => exact readPcm_spec h size
  | advance answers =>
    show StepSpec format s (s.advance format answers)
    unfold advance
    split
    · next hphase => exact fetch_spec h hphase _
    · next hphase => exact iterate_spec h hphase hformat answers hlegal
    · next hphase => exact writeRound_spec h hphase

end

/-! ## Runs -/

theorem StepSpec.accounted {h : List (DecodeEvent α × LoopEffect α)} {e : DecodeEvent α}
    (hspec : StepSpec format s ((decodeLoop α format).step s e)) (haccounts : Accounts s h) :
    Accounted format (s, h) e := by
  refine ⟨fun offered dlen output heffect => ?_, ?_, ?_, ?_, ?_⟩
  · rw [hspec.offered _ _ _ heffect, ← haccounts.pending]
    exact drop_left.symm
  · exact (total_snoc_iff haccounts.pending).mpr hspec.pending
  · show ((decodeLoop α format).step s e).1.decodeOffset = ulong _
      (total LoopEffect.consumed (h ++ [(e, ((decodeLoop α format).step s e).2)])).length
    rw [total_snoc, length_append]
    exact hspec.decodeOffset _ haccounts.decodeOffset
  · exact (total_snoc_iff haccounts.unwritten).mpr hspec.unwritten
  · exact (total_snoc_iff haccounts.contents).mpr hspec.contents

def Roomy (s : DecodeLoop α) : Prop := s.phase = .write → s.outlen ≤ s.free

theorem phase_next_ne (s : DecodeLoop α) : s.next.phase ≠ .write := by
  unfold next
  split <;> exact nofun

theorem phase_writing_ne (h : s.outlen = 0) : s.writing.phase ≠ .write := by
  unfold writing
  rw [if_pos h]
  exact s.phase_next_ne

theorem writing_roomy (h : s.outlen ≤ s.free) : s.writing.Roomy := by
  unfold writing
  split
  · exact fun hphase => absurd hphase s.phase_next_ne
  · exact fun _ => h

theorem free_readPcm {q : Fifo α} {r : Nat} (hq : Holds s.gBst q r) (size : Nat) :
    s.free ≤ (s.readPcm size).1.free := by
  obtain ⟨r', hr'⟩ := (hq.readData_spec size).holds
  show s.gBst.bufLength - s.gBst.bufLevel ≤
    (s.gBst.readData size).1.bufLength - (s.gBst.readData size).1.bufLevel
  rw [hq.length, hq.level, hr'.length, hr'.level]
  exact Nat.sub_le_sub_left (length_drop ▸ Nat.sub_le _ _) _

theorem iterate_roomy (hphase : s.phase = .decode) {answers : Answers α}
    (hroom : s.HasRoom format (.advance answers)) : (s.iterate format answers).1.Roomy := by
  unfold iterate
  split
  · exact nofun
  · next hwaits =>
    dsimp only
    split
    · have hfailed : (s.decodeFailed format).phase = .fetch := by
        unfold decodeFailed
        split
        · rfl
        · split <;> rfl
      exact fun hwrite => absurd (hfailed.symm.trans hwrite) nofun
    · next hpos =>
      unfold deliver
      split
      · exact nofun
      · exact writing_roomy (hroom ⟨hphase, by simpa using hwaits⟩ (Int.not_le.mp hpos))

theorem step_roomy (h : Valid format s) (hroomy : s.Roomy) {e : DecodeEvent α}
    (hroom : s.HasRoom format e) : ((decodeLoop α format).step s e).1.Roomy := by
  cases e with
  | read size =>
    obtain ⟨⟨q, r, hq⟩, _⟩ := h
    exact fun hphase => (hroomy hphase).trans (free_readPcm hq size)
  | advance answers =>
    show (s.advance format answers).1.Roomy
    unfold advance
    split
    · next hphase =>
      cases answers.package with
      | none => exact hroomy
      | some package => exact fun hwrite => absurd hwrite (phase_next_ne _)
    · next hphase => exact iterate_roomy hphase hroom
    · next hphase =>
      obtain ⟨⟨q, r, hq⟩, _, hout, _⟩ := h.write hphase
      obtain ⟨heq, _⟩ := writeRound_eq hq hout (Nat.not_lt.mpr (hroomy hphase))
      rw [heq]
      exact fun hwrite => absurd hwrite (phase_writing_ne rfl)

theorem writesAtOnce_of_roomy (h : Valid format s) (hroomy : s.Roomy) (e : DecodeEvent α) :
    s.WritesAtOnce format e := by
  cases e with
  | read => trivial
  | advance answers =>
    intro hphase
    obtain ⟨⟨q, r, hq⟩, _, hout, _⟩ := h.write hphase
    obtain ⟨heq, _⟩ := writeRound_eq hq hout (Nat.not_lt.mpr (hroomy hphase))
    have hstep : (decodeLoop α format).step s (.advance answers) = s.writeRound := by
      show s.advance format answers = _
      unfold advance
      rw [hphase]
    rw [hstep, heq]
    exact ⟨rfl, phase_writing_ne rfl⟩

theorem initial_valid (format : AudioFormat) (ulongBits : Nat) (gBst : BufferStream α)
    {address length : Nat} (haddress : address ≠ 0) (hlength : 1 ≤ length) :
    Valid format (.initial ulongBits (gBst.initBuff address length).1) ∧
      (gBst.initBuff address length).1.contents = [] := by
  obtain ⟨r, hr⟩ := (initBuff_spec gBst haddress hlength).holds
  exact ⟨⟨⟨_, r, hr⟩, rfl⟩, hr.contents_eq⟩

end Accounts

end DecodeLoop

namespace DecodeEvent

def package {α : Type} (bytes : List α) : DecodeEvent α := .advance ⟨some bytes, 0, [], 0⟩

/-- The decoder consumes `dlen` bytes and decodes `output`. -/
def decoder {α : Type} (dlen : Int) (output : List α) : DecodeEvent α :=
  .advance ⟨none, dlen, output, 0⟩

end DecodeEvent

end AmlogicHal.Amadec
