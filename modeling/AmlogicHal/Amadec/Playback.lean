import AmlogicHal.Amadec.DecodeLoop
import AmlogicHal.Amadec.DtvOutLoop

/-!
# From the decoder to the output

`audio_decode_loop` writes the PCM buffer, and `dtv_patch_out_loop` in another thread reads it for
`pcmout_cb`. `playback_inOrder`: in every interleaving of the two the decoded bytes are those that
were accepted, then those on their way, from the output back to the decoder.
-/

namespace AmlogicHal.Amadec

open Machine DecodeLoop List

variable {α : Type}

structure Playback (α : Type) where
  decoder : DecodeLoop α
  out : OutLoop α

inductive PlaybackEvent (α : Type)
  | decode (answers : Answers α)
  | output (e : Iteration α)

namespace Playback

/-- `dsp_read`, if the iteration calls it. The level that it has checked before is any one, since
the decoder goes on in between. -/
def dspRead (s : Playback α) (e : Iteration α) : DecodeLoop α × LoopEffect α :=
  if !e.paused && !e.givesUp &&
    !s.out.throttled e then s.decoder.readPcm (outputBufferSize - s.out.len)
  else (s.decoder, .idle)

def served (s : Playback α) (e : Iteration α) : Iteration α :=
  { e with read := (s.dspRead e).2.read }

/-- The decoded bytes that `pcmout_cb` has not accepted yet. -/
def onTheWay (s : Playback α) : List α :=
  s.out.pending ++ (s.decoder.gBst.contents ++ s.decoder.unwritten)

end Playback

def playback (α : Type) (format : AudioFormat) :
    Machine (Playback α) (PlaybackEvent α) (LoopEffect α × OutLoopOutput α) where
  step s
    | .decode answers =>
      let d := s.decoder.advance format answers
      ({ s with decoder := d.1 }, d.2, ⟨[], [], []⟩)
    | .output e =>
      let o := (outLoop α).step s.out (s.served e)
      (⟨(s.dspRead e).1, o.1⟩, (s.dspRead e).2, o.2)

/-- The decoder consumes and `pcmout_cb` accepts at most what it is offered, and no iteration gives
up over pending bytes that the second move would change. -/
def PlaybackEvent.Sound (format : AudioFormat) (s : Playback α) : PlaybackEvent α → Prop
  | .decode answers => s.decoder.Legal format (.advance answers)
  | .output e =>
    0 ≤ e.written ∧ e.written ≤ (s.out.len + (s.dspRead e).2.read.length : Nat) ∧
      GivesUpInPlace s.out e

structure InFlow (format : AudioFormat)
    (h : List (PlaybackEvent α × LoopEffect α × OutLoopOutput α)) (s : Playback α) : Prop where
  valid : Valid format s.decoder
  fits : Fits s.out
  inOrder : total (·.2.accepted) h ++ s.onTheWay = total (·.1.output) h

variable {format : AudioFormat} {s : Playback α}

theorem read_advance (s : DecodeLoop α) (answers : Answers α) :
    (s.advance format answers).2.read = [] := by
  unfold advance
  split
  · cases answers.package <;> rfl
  · unfold DecodeLoop.iterate
    split
    · rfl
    · dsimp only
      split <;> rfl
  · unfold writeRound
    split <;> rfl

theorem got_served (s : Playback α) (e : Iteration α) (hpaused : e.paused = false)
    (hgives : e.givesUp = false) : s.out.got (s.served e) = (s.dspRead e).2.read := by
  have hsame : s.out.throttled (s.served e) = s.out.throttled e := rfl
  rw [OutLoop.got, hsame, Playback.served, Playback.dspRead, hpaused, hgives]
  cases s.out.throttled e <;> rfl

theorem obtained_served (s : Playback α) (e : Iteration α) :
    ((outLoop α).step s.out (s.served e)).2.obtained = (s.dspRead e).2.read := by
  cases hpaused : e.paused with
  | true =>
    rw [step_paused (e := s.served e) hpaused, Playback.dspRead, hpaused]
    rfl
  | false =>
    cases hgives : e.givesUp with
    | true =>
      rw [step_givesUp (e := s.served e) hpaused hgives, Playback.dspRead, hpaused, hgives]
      rfl
    | false =>
      rw [step_transfer (e := s.served e) hpaused hgives, s.out.obtained_transfer]
      exact got_served s e hpaused hgives

/-- The PCM buffer delivers at most what it is asked for. -/
theorem legal_served (hvalid : Valid format s.decoder) {e : Iteration α}
    (hsound : PlaybackEvent.Sound format s (.output e)) : Legal s.out (s.served e) := by
  obtain ⟨⟨q, r, hq⟩, -⟩ := hvalid
  intro hpaused hgives
  rw [got_served s e hpaused hgives]
  refine ⟨?_, fun _ => ⟨hsound.1, hsound.2.1⟩⟩
  unfold Playback.dspRead
  split
  · show (s.decoder.gBst.readData _).2.out.length ≤ _
    rw [(hq.readData_spec _).out]
    exact length_take_le _ _
  · exact Nat.zero_le _

theorem InFlow.step {h : List (PlaybackEvent α × LoopEffect α × OutLoopOutput α)}
    (hflow : InFlow format h s) (hformat : format ≠ .ape ∧ format ≠ .raac ∧ format ≠ .cook)
    {e : PlaybackEvent α} (hsound : e.Sound format s) :
    InFlow format (h ++ [(e, ((playback α format).step s e).2)])
      ((playback α format).step s e).1 := by
  obtain ⟨x, hx⟩ : ∃ x, (playback α format).step s e = x := ⟨_, rfl⟩
  -- each thread keeps its own bytes, and the output obtains what the PCM buffer loses
  have hstages : StepSpec format s.decoder (x.1.decoder, x.2.1) ∧ Fits x.1.out ∧
      x.2.2.accepted ++ x.1.out.pending = s.out.pending ++ x.2.1.read := by
    subst hx
    cases e with
    | decode answers =>
      refine ⟨step_stepSpec hflow.valid hformat (.advance answers) hsound, hflow.fits, ?_⟩
      show [] ++ s.out.pending = _ ++ LoopEffect.read (advance format _ _).2
      rw [read_advance, append_nil]
      rfl
    | output e =>
      obtain ⟨hkeeps, hfits, -⟩ := step_spec hflow.fits (legal_served hflow.valid hsound)
      have hkeeps : Keeps s.out (s.served e) := hkeeps.mpr hsound.2.2
      rw [Keeps, obtained_served] at hkeeps
      refine ⟨?_, hfits, hkeeps⟩
      show StepSpec format s.decoder (s.dspRead e)
      unfold Playback.dspRead
      split
      · exact readPcm_spec hflow.valid _
      · exact .idle hflow.valid
  obtain ⟨hdecoder, hfits, hout⟩ := hstages
  rw [hx]
  refine ⟨hdecoder.valid, hfits, (total_snoc_iff hflow.inOrder).mpr ?_⟩
  have hcontents : x.2.1.read ++ _ = _ ++ x.2.1.written := hdecoder.contents
  have hunwritten : x.2.1.written ++ _ = _ ++ x.2.1.output := hdecoder.unwritten
  unfold Playback.onTheWay
  rw [← append_assoc, hout, append_assoc, ← append_assoc x.2.1.read, hcontents, append_assoc,
    hunwritten]
  simp only [append_assoc]

theorem playback_inOrder (hformat : format ≠ .ape ∧ format ≠ .raac ∧ format ≠ .cook)
    (ulongBits : Nat) (gBst : BufferStream α) {address length : Nat} (haddress : address ≠ 0)
    (hlength : 1 ≤ length) (buffer : Memory α) (es : List (PlaybackEvent α))
    (hsound : (playback α format).Always (fun s e => e.Sound format s)
      ⟨.initial ulongBits (gBst.initBuff address length).1, .initial buffer⟩ es) :
    let r := (playback α format).exec
      ⟨.initial ulongBits (gBst.initBuff address length).1, .initial buffer⟩ es
    total (·.2.accepted) r.1 ++ r.2.onTheWay = total (·.1.output) r.1 := by
  obtain ⟨hvalid, hcontents⟩ :=
    DecodeLoop.initial_valid format ulongBits gBst haddress hlength
  refine ((run_exec es hsound).invariant (InFlow format) ⟨hvalid, Nat.zero_le _, ?_⟩
    fun h s e hflow hsound => hflow.step hformat hsound).inOrder
  show [] ++ ([] ++ ((gBst.initBuff address length).1.contents ++ [])) = []
  rw [hcontents]
  rfl

/-- A frame of three bytes is copied to the PCM buffer, and two of them are accepted. -/
theorem playback_inOrder_ac3 :
    let r := (playback Nat .ac3).exec
      ⟨.initial 32 (zeroStream.initBuff 100 8).1, .initial fun _ => 0⟩
      [.decode ⟨some [1, 2, 3], 0, [], 0⟩, .decode ⟨none, 0, [], 0⟩, .decode ⟨none, 0, [], 0⟩,
        .output (.transferring [] 2)]
    total (·.2.accepted) r.1 ++ r.2.onTheWay = total (·.1.output) r.1 :=
  playback_inOrder (by decide) 32 zeroStream (by decide) (by decide) _ _
    ⟨fun _ => .inr (Int.le_refl _), fun _ => .inr (Int.le_refl _), fun _ => .inr (Int.le_refl _),
      ⟨by decide, by decide, fun _ hgives => absurd hgives (by decide)⟩, trivial⟩

end AmlogicHal.Amadec
