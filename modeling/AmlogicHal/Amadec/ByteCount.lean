import AmlogicHal.Amadec.DtvOutLoop
import Mathlib.Algebra.BigOperators.Group.List.Basic
import Mathlib.Algebra.Order.Ring.Rat

/-!
# The counter of the bytes that were read

`alsa_playback_loop` and `dtv_patch_out_loop` read PCM data from the decoder and offer them to the
output, which may take only a part. In each iteration they add `len` to `pcm_bytes_readed`: all that
the buffer holds, so what the last write left over is counted again.

`pcmBytesReaded_iff` says in which runs the counter is right. In `remainder_counted_twice` it is
not.
-/

namespace AmlogicHal.Amadec

open OutLoop

/-! ## The model -/

/-- The local variables of an output loop, and the counter, which `audio_codec_init` sets to 0. -/
structure LoopCounts where
  len : Int
  offset : Int
  pcmBytesReaded : Int
  /-- The loop has not been left. -/
  running : Bool
deriving DecidableEq, Repr

/-- An iteration of `alsa_playback_loop`. -/
structure AlsaTurn where
  /-- The results of `dsp_read`. If there are too few, the stop flag ends the inner loop. -/
  reads : List Int
  /-- The stop flag is set after the inner loop. -/
  stopped : Bool
  /-- The result of `alsa_play` if it is called. -/
  played : Int
deriving DecidableEq, Repr

/-- An iteration of `dtv_patch_out_loop`. -/
structure DtvTurn where
  /-- It comes to `dsp_read`. -/
  reaches : Bool
  /-- The result of `dsp_read`, unless a raw format is left out this time. -/
  read : Option Int
  /-- The result of `pcmout_cb` if it is called. -/
  written : Int
  /-- The state is `DTV_PATCH_STATE_STOPED` at the end. -/
  stopped : Bool
deriving DecidableEq, Repr

namespace LoopCounts

def start : LoopCounts := ⟨0, 0, 0, true⟩

def read (len2 : Int) (s : LoopCounts) : LoopCounts := { s with len := s.len + len2, offset := 0 }

def count (s : LoopCounts) : LoopCounts := { s with pcmBytesReaded := s.pcmBytesReaded + s.len }

/-- The output takes `len2` bytes, or fails. -/
def play (len2 : Int) (s : LoopCounts) : LoopCounts :=
  if 0 ≤ len2 then { s with len := s.len - len2, offset := s.offset + len2 }
  else { s with len := 0, offset := 0 }

/-- The inner loop of `alsa_playback_loop`, with the results that it has used. -/
def readUp : List Int → LoopCounts → LoopCounts × List Int
  | [], s => (s, [])
  | len2 :: reads, s =>
    if s.len < 128 * 2 then
      ((readUp reads (s.read len2)).1, len2 :: (readUp reads (s.read len2)).2)
    else (s, [])

def alsaPlayback (s : LoopCounts) (e : AlsaTurn) : LoopCounts × List Int :=
  if s.running then
    let t := (readUp e.reads s).1.count
    -- The inner loop ends below 256 bytes only if the stop flag is set.
    if e.stopped || t.len < 128 * 2 then ({ t with running := false }, (readUp e.reads s).2)
    else (t.play e.played, (readUp e.reads s).2)
  else (s, [])

def dtvPatchOut (s : LoopCounts) (e : DtvTurn) : LoopCounts × List Int :=
  if s.running then
    if e.reaches then
      let t := s.read (e.read.getD 0)
      let t := if t.len = 0 then t else t.count.play e.written
      ({ t with running := !e.stopped }, e.read.toList)
    else ({ s with running := !e.stopped }, [])
  else (s, [])

end LoopCounts

open LoopCounts

/-- The outputs are the results of `dsp_read`. -/
def alsaCounts : Machine LoopCounts AlsaTurn (List Int) := ⟨LoopCounts.alsaPlayback⟩

def dtvCounts : Machine LoopCounts DtvTurn (List Int) := ⟨LoopCounts.dtvPatchOut⟩

/-! ## What is to be counted -/

/-- The bytes that these calls of `dsp_read` have delivered. A call that fails returns a negative
number and delivers none. -/
def bytesRead (reads : List Int) : Int := (reads.map (max 0)).sum

/-- What the calls that fail take off `len`. -/
def bytesLost (reads : List Int) : Int := (reads.map fun r => max 0 r - r).sum

section Law

variable {ε : Type}

def bytesObtained (h : List (ε × List Int)) : Int := (h.map fun x => bytesRead x.2).sum

/-- After this iteration the counter is the number of bytes obtained so far. -/
def BytesCounted (m : Machine LoopCounts ε (List Int)) (s : LoopCounts × List (ε × List Int))
    (e : ε) : Prop :=
  (m.recorded.step s e).1.1.pcmBytesReaded = bytesObtained (m.recorded.step s e).1.2

/-- Nothing is left over from the iterations before, except for what makes up for failing calls. -/
def LeavesNothing (m : Machine LoopCounts ε (List Int)) (reads : LoopCounts → ε → Prop)
    (s : LoopCounts) (e : ε) : Prop :=
  reads s e → s.len = bytesLost (m.step s e).2

end Law

def AlsaReads (s : LoopCounts) (_ : AlsaTurn) : Prop := s.running = true

def DtvReads (s : LoopCounts) (e : DtvTurn) : Prop := s.running = true ∧ e.reaches = true

/-! ## One iteration -/

theorem bytesRead_eq (reads : List Int) : bytesRead reads = reads.sum + bytesLost reads := by
  induction reads with
  | nil => rfl
  | cons r reads ih =>
    simp only [bytesRead, bytesLost, List.map_cons, List.sum_cons] at ih ⊢
    omega

theorem bytesObtained_snoc {ε : Type} (h : List (ε × List Int)) (x : ε × List Int) :
    bytesObtained (h ++ [x]) = bytesObtained h + bytesRead x.2 := by
  simp [bytesObtained]

namespace LoopCounts

variable {s : LoopCounts}

@[simp] theorem pcmBytesReaded_play (len2 : Int) :
    (s.play len2).pcmBytesReaded = s.pcmBytesReaded := by
  unfold play
  split <;> rfl

theorem readUp_spec (reads : List Int) (s : LoopCounts) :
    (readUp reads s).1.len = s.len + (readUp reads s).2.sum ∧
      (readUp reads s).1.pcmBytesReaded = s.pcmBytesReaded := by
  induction reads generalizing s with
  | nil => simp [readUp]
  | cons len2 reads ih =>
    unfold readUp
    split
    · obtain ⟨hlen, hpcm⟩ := ih _
      refine ⟨?_, hpcm⟩
      rw [hlen, List.sum_cons, ← add_assoc]
      rfl
    · simp

theorem pcmBytesReaded_alsaPlayback (e : AlsaTurn) (h : s.running = true) :
    (s.alsaPlayback e).1.pcmBytesReaded =
      s.pcmBytesReaded + (s.len + (s.alsaPlayback e).2.sum) := by
  obtain ⟨hlen, hpcm⟩ := readUp_spec e.reads s
  have hcount : (readUp e.reads s).1.count.pcmBytesReaded =
      s.pcmBytesReaded + (s.len + (readUp e.reads s).2.sum) := by
    rw [← hlen, ← hpcm]
    rfl
  unfold alsaPlayback
  rw [if_pos h]
  dsimp only
  split
  · exact hcount
  · exact (pcmBytesReaded_play e.played).trans hcount

theorem pcmBytesReaded_dtvPatchOut (e : DtvTurn) (h : s.running = true)
    (hreaches : e.reaches = true) :
    (s.dtvPatchOut e).1.pcmBytesReaded = s.pcmBytesReaded + (s.len + (s.dtvPatchOut e).2.sum) := by
  have hsum : e.read.toList.sum = e.read.getD 0 := by
    cases e.read with
    | none => rfl
    | some len2 => simp
  unfold dtvPatchOut
  rw [if_pos h, if_pos hreaches]
  dsimp only
  rw [hsum]
  split
  -- With `len = 0` nothing is counted, and nothing would be.
  · next hzero =>
    show s.pcmBytesReaded = s.pcmBytesReaded + (s.read (e.read.getD 0)).len
    rw [hzero, add_zero]
  · exact pcmBytesReaded_play e.written

end LoopCounts

/-! ## Runs -/

section Runs

variable {ε : Type} {m : Machine LoopCounts ε (List Int)} {reads : LoopCounts → ε → Prop}

/-- A loop that adds `len` in the iterations that read, and in no others, counts right exactly if
nothing is ever left over. -/
theorem counted_iff_of_adds
    (hadds : ∀ s e, reads s e →
      (m.step s e).1.pcmBytesReaded = s.pcmBytesReaded + (s.len + (m.step s e).2.sum))
    (hskips : ∀ s e, ¬ reads s e →
      (m.step s e).1.pcmBytesReaded = s.pcmBytesReaded ∧ (m.step s e).2 = []) (es : List ε) :
    m.recorded.Always (BytesCounted m) (.start, []) es ↔
    m.Always (LeavesNothing m reads) .start es := by
  refine Iff.trans ?_ (Machine.recorded_always (h := []))
  refine Machine.always_congr (I := fun s : LoopCounts × List _ =>
    s.1.pcmBytesReaded = bytesObtained s.2) (fun s e hs => ?_) (fun s e _ hp => hp) es _ rfl
  have hsplit := bytesRead_eq (m.step s.1 e).2
  show (m.step s.1 e).1.pcmBytesReaded = bytesObtained (s.2 ++ [(e, (m.step s.1 e).2)]) ↔ _
  rw [bytesObtained_snoc, ← hs, hsplit]
  by_cases hreads : reads s.1 e
  · rw [hadds s.1 e hreads]
    constructor
    · intro h _
      omega
    · intro h
      rw [h hreads, add_comm (bytesLost _)]
  · obtain ⟨hpcm, hnone⟩ := hskips s.1 e hreads
    rw [hpcm, hnone]
    constructor
    · intro _ h
      exact absurd h hreads
    · intro _
      exact (add_zero _).symm

end Runs

/-- Right: at all times the number of bytes obtained, exactly if every iteration that reads starts
with an empty buffer (but for the bytes that failing calls of `dsp_read` take off `len`). -/
theorem pcmBytesReaded_iff (alsaTurns : List AlsaTurn) (dtvTurns : List DtvTurn) :
    (alsaCounts.recorded.Always (BytesCounted alsaCounts) (.start, []) alsaTurns ↔
      alsaCounts.Always (LeavesNothing alsaCounts AlsaReads) .start alsaTurns) ∧
    (dtvCounts.recorded.Always (BytesCounted dtvCounts) (.start, []) dtvTurns ↔
      dtvCounts.Always (LeavesNothing dtvCounts DtvReads) .start dtvTurns) := by
  constructor
  · refine counted_iff_of_adds (fun s e h => s.pcmBytesReaded_alsaPlayback e h)
      (fun s e h => ?_) alsaTurns
    have hnone : s.alsaPlayback e = (s, []) := if_neg h
    exact ⟨congrArg (·.1.pcmBytesReaded) hnone, congrArg (·.2) hnone⟩
  · refine counted_iff_of_adds (fun s e h => s.pcmBytesReaded_dtvPatchOut e h.1 h.2)
      (fun s e h => ?_) dtvTurns
    show (s.dtvPatchOut e).1.pcmBytesReaded = _ ∧ (s.dtvPatchOut e).2 = []
    unfold dtvPatchOut
    split
    · next hrunning =>
      rw [if_neg fun hreaches => h ⟨hrunning, hreaches⟩]
      exact ⟨rfl, rfl⟩
    · exact ⟨rfl, rfl⟩

/-- 300 bytes are read and 256 of them played, in whole groups of 32 frames; the other 44 are
counted with the next 212. In the other loop the output takes half of 1024 bytes, and nothing is
read after that. -/
theorem remainder_counted_twice :
    (alsaCounts.exec .start [⟨[300], false, 256⟩, ⟨[212], false, 256⟩]).2.pcmBytesReaded = 556 ∧
      bytesObtained (alsaCounts.exec .start [⟨[300], false, 256⟩, ⟨[212], false, 256⟩]).1 = 512 ∧
      (dtvCounts.exec .start
        [⟨true, some 1024, 512, false⟩, ⟨true, some 0, 512, false⟩]).2.pcmBytesReaded = 1536 ∧
      bytesObtained (dtvCounts.exec .start
        [⟨true, some 1024, 512, false⟩, ⟨true, some 0, 512, false⟩]).1 = 1024 := by
  decide

/-! ## The counts of the loop with its bytes -/

section Counts

variable {α : Type} {s : OutLoop α} {t : LoopCounts} {e : Iteration α}

/-- An iteration of the loop with its bytes as one of the counts. -/
def OutLoop.turn (s : OutLoop α) (e : Iteration α) : DtvTurn where
  reaches := !e.paused && !e.givesUp
  read := if s.throttled e then none else some e.read.length
  written := e.written
  stopped := false

/-- The counts of a loop that has not been left. -/
structure CountsOf (t : LoopCounts) (s : OutLoop α) : Prop where
  running : t.running = true
  len : t.len = s.len
  offset : t.offset = s.offset

theorem OutLoop.turn_read (s : OutLoop α) (e : Iteration α) :
    (s.turn e).read.getD 0 = (s.got e).length ∧
    bytesRead (s.turn e).read.toList = (s.got e).length := by
  unfold turn got
  split <;> simp [bytesRead]

theorem countsOf_transfer (h : CountsOf t s)
    (hwritten : s.len + (s.got e).length ≠ 0 →
      0 ≤ e.written ∧ e.written ≤ (s.len + (s.got e).length : Nat))
    (hreaches : (s.turn e).reaches = true) :
    CountsOf (dtvCounts.step t (s.turn e)).1 (s.transfer e).1 := by
  have hlen : (t.read ((s.turn e).read.getD 0)).len = (s.len + (s.got e).length : Nat) := by
    show t.len + _ = _
    rw [(s.turn_read e).1, h.len, Nat.cast_add]
  show CountsOf (t.dtvPatchOut (s.turn e)).1 _
  unfold dtvPatchOut transfer
  rw [if_pos h.running, if_pos hreaches]
  dsimp only
  by_cases hzero : s.len + (s.got e).length = 0
  · rw [if_pos hzero, if_pos (by rw [hlen, hzero]; rfl)]
    exact ⟨rfl, by rw [hlen, hzero], rfl⟩
  · obtain ⟨hnonneg, hle⟩ := hwritten hzero
    obtain ⟨n, hn⟩ := Int.eq_ofNat_of_zero_le hnonneg
    have hn' : n ≤ s.len + (s.got e).length := by
      rw [hn] at hle
      exact Int.ofNat_le.mp hle
    rw [if_neg hzero, if_neg (by rw [hlen]; exact Int.natCast_ne_zero.mpr hzero), if_pos hnonneg]
    have hplay : (s.turn e).written = n := hn
    rw [play, hplay, if_pos (Int.natCast_nonneg n), hn, Int.toNat_natCast]
    refine ⟨rfl, ?_, Int.zero_add _⟩
    show (t.read _).len - n = _
    rw [hlen, Int.ofNat_sub hn']

theorem countsOf_step (h : CountsOf t s) (hlegal : Legal s e) :
    CountsOf (dtvCounts.step t (s.turn e)).1 ((outLoop α).step s e).1 ∧
      bytesRead (dtvCounts.step t (s.turn e)).2 = ((outLoop α).step s e).2.obtained.length := by
  cases hreaches : (s.turn e).reaches with
  | true =>
    obtain ⟨hpaused, hgives⟩ : e.paused = false ∧ e.givesUp = false := by
      simpa [turn] using hreaches
    rw [step_transfer hpaused hgives]
    refine ⟨countsOf_transfer h (hlegal hpaused hgives).2 hreaches, ?_⟩
    have hused : (dtvCounts.step t (s.turn e)).2 = (s.turn e).read.toList := by
      show (t.dtvPatchOut _).2 = _
      rw [dtvPatchOut, if_pos h.running, if_pos hreaches]
    rw [hused, s.obtained_transfer]
    exact (s.turn_read e).2
  | false =>
    have hskip : dtvCounts.step t (s.turn e) = ({ t with running := true }, []) := by
      show t.dtvPatchOut _ = _
      rw [dtvPatchOut, if_pos h.running, hreaches]
      rfl
    rw [hskip]
    cases hpaused : e.paused with
    | true =>
      rw [step_paused hpaused]
      exact ⟨⟨rfl, h.len, h.offset⟩, rfl⟩
    | false =>
      have hgives : e.givesUp = true := by simpa [turn, hpaused] using hreaches
      rw [step_givesUp hpaused hgives]
      exact ⟨⟨rfl, h.len, h.offset⟩, rfl⟩

/-- Every run of the loop with its bytes is a run of the counts, in which as many bytes are
obtained. -/
theorem outLoop_counts (es : List (Iteration α)) :
    ∀ {s : OutLoop α} {t : LoopCounts}, CountsOf t s → (outLoop α).Always Legal s es →
      ∃ turns : List DtvTurn, CountsOf (dtvCounts.exec t turns).2 ((outLoop α).exec s es).2 ∧
        bytesObtained (dtvCounts.exec t turns).1 = (obtained ((outLoop α).exec s es).1).length := by
  induction es with
  | nil =>
    intro s t h _
    exact ⟨[], h, rfl⟩
  | cons e es ih =>
    rintro s t h ⟨hlegal, hrest⟩
    obtain ⟨hnext, hread⟩ := countsOf_step h hlegal
    obtain ⟨turns, hcounts, hobtained⟩ := ih hnext hrest
    refine ⟨s.turn e :: turns, hcounts, ?_⟩
    show bytesRead _ + bytesObtained _ = ((_ ++ obtained _ : List α).length : Int)
    rw [hread, hobtained, List.length_append, Nat.cast_add]

end Counts

end AmlogicHal.Amadec
