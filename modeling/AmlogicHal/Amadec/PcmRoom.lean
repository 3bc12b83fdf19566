import AmlogicHal.Lib.Schedules
import AmlogicHal.Amadec.DecodeLoop
import Mathlib.Algebra.Order.Ring.Rat

/-!
# Room in the PCM buffer

Before the decode loop writes an output to the PCM buffer it waits for room for all of it.
`OutBufferInit` chooses the size of the buffer without regard to `AVCODEC_MAX_AUDIO_FRAME_SIZE`, the
size of the outputs the loop allows for; the default is smaller.

`written_iff`: with a reader that goes on reading, an output is written in the end if and only if it
is not larger than the buffer. `defaultBuffer_waits` is a decoder for which the loop waits forever.
-/

namespace AmlogicHal.Amadec

open DecodeEvent Machine List

/-! ## The size of the buffer -/

def avcodecMaxAudioFrameSize : Nat := 500 * 1024

def defaultPcmBufferSize : Nat := 192000 * 2

structure OutBufferConfig where
  /-- `nOutBufSize` as the decoder has set it. -/
  nOutBufSize : Int
  associateDecSupported : Bool
  useAoutInAdec : Bool
deriving DecidableEq, Repr

/-- `nOutBufSize` after `OutBufferInit` has set the default. -/
def OutBufferConfig.size (c : OutBufferConfig) : Int :=
  if c.nOutBufSize ≤ 0 then
    if !c.useAoutInAdec && c.associateDecSupported then defaultPcmBufferSize / 4
    else defaultPcmBufferSize
  else c.nOutBufSize

theorem OutBufferConfig.size_pos (c : OutBufferConfig) : 0 < c.size := by
  unfold size
  split
  · split <;> decide
  · next h => exact Int.not_le.mp h

/-! ## One step -/

namespace DecodeLoop

variable {α : Type} {format : AudioFormat} {s : DecodeLoop α} {length : Nat}

/-- The buffer is in order and has its size, and what is to be written is all of `outbuf`. -/
structure HasBuffer (length : Nat) (s : DecodeLoop α) : Prop where
  holds : ∃ q r, Holds s.gBst q r
  bufLength : s.gBst.bufLength = length
  outlen : s.phase = .write → s.outlen = s.outbuf.length ∧ s.outlen ≠ 0

section

variable (h : HasBuffer length s)
include h

theorem HasBuffer.of_not_write {s' : DecodeLoop α} (hbst : s'.gBst = s.gBst)
    (hphase : s'.phase ≠ .write) : HasBuffer length s' :=
  ⟨hbst ▸ h.holds, hbst ▸ h.bufLength, fun hwrite => absurd hwrite hphase⟩

omit h in
theorem hasBuffer_writing (hholds : ∃ q r, Holds s.gBst q r) (hlength : s.gBst.bufLength = length)
    (hout : s.outlen = s.outbuf.length ∨ s.outlen = 0) : HasBuffer length s.writing := by
  refine ⟨by rwa [gBst_writing], by rwa [gBst_writing], ?_⟩
  unfold writing
  split
  · exact fun hwrite => absurd hwrite s.phase_next_ne
  · next hne => exact fun _ => ⟨hout.resolve_right hne, hne⟩

theorem hasBuffer_readPcm (size : Nat) : HasBuffer length (s.readPcm size).1 := by
  obtain ⟨q, r, hq⟩ := h.holds
  obtain ⟨r', hr'⟩ := (hq.readData_spec size).holds
  refine ⟨⟨_, r', hr'⟩, ?_, h.outlen⟩
  exact hr'.length.trans (hq.length.symm.trans h.bufLength)

theorem hasBuffer_iterate (answers : Answers α) :
    HasBuffer length (s.iterate format answers).1 := by
  unfold iterate
  split
  · exact h.of_not_write rfl (by simp [saveRest])
  · dsimp only
    split
    · unfold decodeFailed
      split
      · exact h.of_not_write rfl (by simp)
      · split
        · exact h.of_not_write rfl (by simp [saveRest])
        · exact h.of_not_write rfl (by simp)
    · unfold deliver
      split
      · exact h.of_not_write rfl (by simp [saveRest])
      · exact hasBuffer_writing h.holds h.bufLength (.inl rfl)

theorem hasBuffer_writeRound (hphase : s.phase = .write) : HasBuffer length s.writeRound.1 := by
  obtain ⟨q, r, hq⟩ := h.holds
  by_cases hfree : s.free < s.outlen
  · rw [writeRound, if_pos hfree]
    exact h
  · obtain ⟨heq, -⟩ := writeRound_eq hq (h.outlen hphase).1 hfree
    obtain ⟨r', hr'⟩ := (hq.writeData_spec s.outbuf).holds
    rw [heq]
    refine hasBuffer_writing (s := { s with gBst := (s.gBst.writeData s.outbuf).1, outlen := 0 })
      ⟨_, r', hr'⟩ ?_ (.inr rfl)
    exact hr'.length.trans (hq.length.symm.trans h.bufLength)

theorem hasBuffer_step (e : DecodeEvent α) :
    HasBuffer length ((decodeLoop α format).step s e).1 := by
  cases e with
  | read size => exact hasBuffer_readPcm h size
  | advance answers =>
    show HasBuffer length (s.advance format answers).1
    unfold advance
    split
    · cases answers.package with
      | none => exact h
      | some package => exact h.of_not_write (by unfold fetch next; rfl) (phase_next_ne _)
    · exact hasBuffer_iterate h answers
    · next hphase => exact hasBuffer_writeRound h hphase

end

/-! ## While the loop waits -/

structure Writing (length : Nat) (output : List α) (s : DecodeLoop α) : Prop where
  hasBuffer : HasBuffer length s
  phase : s.phase = .write
  outbuf : s.outbuf = output

variable {output : List α}

section

variable (h : Writing length output s)
include h

theorem Writing.outlen : s.outlen = output.length := by
  rw [(h.hasBuffer.outlen h.phase).1, h.outbuf]

theorem Writing.free_eq : s.gBst.bufLevel ≤ length ∧ s.free = length - s.gBst.bufLevel := by
  obtain ⟨q, r, hq⟩ := h.hasBuffer.holds
  refine ⟨?_, by rw [free, h.hasBuffer.bufLength]⟩
  rw [hq.level, ← h.hasBuffer.bufLength, hq.length]
  exact q.fits

theorem Writing.readPcm (size : Nat) :
    Writing length output (s.readPcm size).1 ∧
    (s.readPcm size).1.gBst.bufLevel = s.gBst.bufLevel - size := by
  obtain ⟨q, r, hq⟩ := h.hasBuffer.holds
  obtain ⟨r', hr'⟩ := (hq.readData_spec size).holds
  refine ⟨⟨hasBuffer_readPcm h.hasBuffer size, h.phase, h.outbuf⟩, ?_⟩
  show (s.gBst.readData size).1.bufLevel = _
  rw [hr'.level, hq.level]
  exact length_drop

theorem Writing.step_advance (answers : Answers α) :
    (decodeLoop α format).step s (.advance answers) = s.writeRound := by
  show s.advance format answers = _
  unfold advance
  rw [h.phase]

theorem Writing.waits (hfree : s.free < output.length) : s.writeRound = (s, .idle) := by
  rw [writeRound, if_pos (by rwa [h.outlen])]

theorem Writing.writes (hfree : output.length ≤ s.free) :
    s.writeRound.2 = .wrote output ∧ s.writeRound.1.phase ≠ .write := by
  obtain ⟨q, r, hq⟩ := h.hasBuffer.holds
  obtain ⟨heq, -⟩ :=
    writeRound_eq hq (h.hasBuffer.outlen h.phase).1 (Nat.not_lt.mpr (by rwa [h.outlen]))
  rw [heq, h.outbuf]
  exact ⟨rfl, phase_writing_ne rfl⟩

end

end DecodeLoop

open DecodeLoop

/-! ## Endless runs -/

section Endless

variable {α : Type} {format : AudioFormat} {s : DecodeLoop α} {length : Nat}
  {es : Nat → DecodeEvent α}

def DecodeEvent.Advances : DecodeEvent α → Prop
  | .advance _ => True
  | .read _ => False

def DecodeEvent.Reads : DecodeEvent α → Prop
  | .advance _ => False
  | .read size => 0 < size

/-- At some time `output` is written, and the loop goes on. -/
def WrittenInTheEnd (format : AudioFormat) (s : DecodeLoop α) (es : Nat → DecodeEvent α)
    (output : List α) : Prop :=
  ∃ n, ((decodeLoop α format).step ((decodeLoop α format).after s es n) (es n)).2 = .wrote output ∧
    ((decodeLoop α format).after s es (n + 1)).phase ≠ .write

theorem writing_forever {output : List α} (h : s.Writing length output)
    (hlarge : length < output.length) :
    ∀ n, ((decodeLoop α format).after s es n).Writing length output := by
  refine after_invariant (fun s e h => ?_) h
  cases e with
  | read size => exact (h.readPcm size).1
  | advance answers =>
    have hfree : s.free < output.length := by
      rw [h.free_eq.2]
      omega
    rw [h.step_advance, h.waits hfree]
    exact h

theorem writtenInTheEnd_of_le {output : List α} (h : s.Writing length output)
    (hfits : output.length ≤ length) (hadvances : Recurs Advances es)
    (hreads : Recurs Reads es) : WrittenInTheEnd format s es output := by
  -- The reader makes room: the level is the rank.
  obtain ⟨n, hn, hroom⟩ := after_reaches (m := decodeLoop α format)
    (W := fun s => s.Writing length output) (G := fun s => output.length ≤ s.free)
    (fun s => s.gBst.bufLevel)
    (fun s e h hwaits => by
      cases e with
      | read size =>
        refine ⟨(h.readPcm size).1, ?_⟩
        exact (h.readPcm size).2.le.trans (Nat.sub_le _ _)
      | advance answers =>
        rw [h.step_advance, h.waits (Nat.lt_of_not_le hwaits)]
        exact ⟨h, Nat.le_refl _⟩)
    (fun s e h hwaits hreads => by
      cases e with
      | read size =>
        have hlevel := (h.readPcm size).2
        obtain ⟨hle, hfree⟩ := h.free_eq
        have hpos : 0 < size := hreads
        show (s.readPcm size).1.gBst.bufLevel < s.gBst.bufLevel
        omega
      | advance answers => exact hreads.elim)
    hreads h
  -- The room is still there when the thread comes back.
  obtain ⟨k, ⟨hk, hroom⟩, hadvance⟩ := after_holds_at (m := decodeLoop α format)
    (V := fun s => s.Writing length output ∧ output.length ≤ s.free)
    (fun s e h hread => by
      cases e with
      | read size =>
        obtain ⟨q, r, hq⟩ := h.1.hasBuffer.holds
        exact ⟨(h.1.readPcm size).1, h.2.trans (free_readPcm hq size)⟩
      | advance answers => exact absurd trivial hread)
    (hadvances.shift n) ⟨hn, hroom⟩
  refine ⟨n + k, ?_⟩
  rw [Nat.add_assoc, after_add, after_add]
  cases hevent : es (n + k) with
  | read size =>
    rw [hevent] at hadvance
    exact hadvance.elim
  | advance answers =>
    obtain ⟨hwrote, hphase⟩ := hk.writes hroom
    refine ⟨by rw [hk.step_advance]; exact hwrote, ?_⟩
    show ((decodeLoop α format).step _ (es (n + k))).1.phase ≠ .write
    rw [hevent, hk.step_advance]
    exact hphase

theorem hasBuffer_exec (format : AudioFormat) (config : OutBufferConfig) (ulongBits : Nat)
    (gBst : BufferStream α) (address : Nat) (haddress : address ≠ 0)
    (history : List (DecodeEvent α)) : ((decodeLoop α format).exec
        (.initial ulongBits (gBst.initBuff address config.size.toNat).1) history).2.HasBuffer
      config.size.toNat := by
  have hpos : 1 ≤ config.size.toNat := by
    have := config.size_pos
    omega
  obtain ⟨r, hr⟩ := (initBuff_spec gBst haddress hpos).holds
  have hstart : HasBuffer config.size.toNat
      (.initial ulongBits (gBst.initBuff address config.size.toNat).1) :=
    ⟨⟨_, r, hr⟩, hr.length, fun hwrite => absurd hwrite (by simp [initial])⟩
  exact exec_invariant (I := HasBuffer config.size.toNat) history
    (fun e _ s h => hasBuffer_step h e) hstart

theorem written_iff (format : AudioFormat) (config : OutBufferConfig) (ulongBits : Nat)
    (gBst : BufferStream α) (address : Nat) (haddress : address ≠ 0)
    (history : List (DecodeEvent α)) (s : DecodeLoop α)
    (hs : s = ((decodeLoop α format).exec
      (.initial ulongBits (gBst.initBuff address config.size.toNat).1) history).2)
    (hphase : s.phase = .write) (es : Nat → DecodeEvent α)
    (hadvances : Recurs DecodeEvent.Advances es) (hreads : Recurs DecodeEvent.Reads es) :
    WrittenInTheEnd format s es s.outbuf ↔ s.outbuf.length ≤ config.size := by
  have hbuffer := hasBuffer_exec format config ulongBits gBst address haddress history
  have hpos := config.size_pos
  rw [← hs] at hbuffer
  have hwriting : s.Writing config.size.toNat s.outbuf := ⟨hbuffer, hphase, rfl⟩
  constructor
  · rintro ⟨n, -, hleft⟩
    by_contra hlarge
    exact hleft (writing_forever hwriting (by omega) (n + 1)).phase
  · intro hfits
    exact writtenInTheEnd_of_le hwriting (by omega) hadvances hreads

end Endless

def OutBufferConfig.default : OutBufferConfig := ⟨0, false, true⟩

def newLoop (config : OutBufferConfig) : DecodeLoop Nat :=
  .initial 32 (BufferStream.initBuff 1 config.size.toNat ⟨fun _ => 0, 0, 0, 0, 0, 0, false⟩).1

def decodesTo (output : List Nat) : List (DecodeEvent Nat) :=
  [.advance ⟨some [0], 0, [], 0⟩, .advance ⟨none, 1, output, 0⟩]

def takingTurns (n : Nat) : DecodeEvent Nat :=
  if n % 2 = 0 then .advance ⟨none, 0, [], 0⟩ else .read 1

theorem recurs_takingTurns : Recurs Advances takingTurns ∧ Recurs Reads takingTurns := by
  constructor
  · intro n
    refine ⟨2 * n, by omega, ?_⟩
    rw [takingTurns, if_pos (by omega)]
    trivial
  · intro n
    refine ⟨2 * n + 1, by omega, ?_⟩
    rw [takingTurns, if_neg (by omega)]
    exact Nat.one_pos

theorem decodesTo_spec (output : List Nat) (hne : output.length ≠ 0) (config : OutBufferConfig) :
    ((decodeLoop Nat .mpeg).exec (newLoop config) (decodesTo output)).2.phase = .write ∧
      ((decodeLoop Nat .mpeg).exec (newLoop config) (decodesTo output)).2.outbuf = output := by
  have hwriting : ((decodeLoop Nat .mpeg).exec (newLoop config) (decodesTo output)).2 =
      writing { newLoop config with
          phase := .decode, inbuf := [0], inlen := 0, declen := 1, decodeOffset := 1,
          decodePcmOffset := 0 + output.length, outbuf := output, outlen := output.length } := rfl
  rw [hwriting, writing, if_neg hne]
  exact ⟨rfl, rfl⟩

theorem written_three :
    WrittenInTheEnd .mpeg ((decodeLoop Nat .mpeg).exec (newLoop .default) (decodesTo [7, 8, 9])).2
      takingTurns [7, 8, 9] := by
  obtain ⟨hphase, hout⟩ := decodesTo_spec [7, 8, 9] (by decide) .default
  have hiff := written_iff .mpeg .default 32 _ 1 (by decide) (decodesTo [7, 8, 9])
    ((decodeLoop Nat .mpeg).exec (newLoop .default) (decodesTo [7, 8, 9])).2 rfl hphase takingTurns
    recurs_takingTurns.1 recurs_takingTurns.2
  rw [hout] at hiff
  exact hiff.mpr (by decide)

/-- An output of 384001 bytes is not larger than `AVCODEC_MAX_AUDIO_FRAME_SIZE`. -/
theorem defaultBuffer_waits :
    ∃ output : List Nat, output.length ≤ avcodecMaxAudioFrameSize ∧
      ∀ n, ((decodeLoop Nat .mpeg).after
        ((decodeLoop Nat .mpeg).exec (newLoop .default) (decodesTo output)).2 takingTurns n).phase =
          .write := by
  refine ⟨replicate 384001 0, by rw [length_replicate]; decide, fun n => ?_⟩
  obtain ⟨hphase, hout⟩ := decodesTo_spec (replicate 384001 0)
    (by rw [length_replicate]; decide) .default
  have hbuffer := hasBuffer_exec .mpeg .default 32 ⟨fun _ => 0, 0, 0, 0, 0, 0, false⟩ 1 (by decide)
    (decodesTo (replicate 384001 0))
  exact (writing_forever ⟨hbuffer, hphase, hout⟩ (by rw [length_replicate]; decide) n).phase

end AmlogicHal.Amadec
