import AmlogicHal.Lib.Machine
import AmlogicHal.Lib.Memory

/-!
# The output loop of the DTV patch

`dtv_patch_out_loop` reads PCM data from the decoder into a local buffer and offers them to
`pcmout_cb`. What that leaves is moved to the start of the buffer at the top of the next iteration.

The move depends on `offset`, which is only reset after the next read. An iteration that gives up in
between (too little data in the decoder, no space in the output) leaves `offset` as it is, and the
next one moves the rest again, over itself. `out_inOrder_iff` says when the data stay in order; in
`lowLevel_repeats` they do not. The buffer is always used within its size.
-/

namespace AmlogicHal.Amadec

open Memory

/-! ## The model -/

def outputBufferSize : Nat := 6 * 1024

structure OutLoop (α : Type) where
  buffer : Memory α
  len : Nat
  offset : Nat
  readcount : Nat

structure Iteration (α : Type) where
  paused : Bool
  audecNull : Bool
  dspReadNull : Bool
  bufLevel : Nat
  getCurPtsNull : Bool
  bufferSpace : Int
  bufferLevel : Int
  /-- The stream is Dolby or DTS. -/
  audioRawFormatType : Bool
  /-- What `dsp_read` delivers if it is called. -/
  read : List α
  /-- The result of `pcmout_cb` if it is called. -/
  written : Int

/-- What an iteration does: the bytes it gets from `dsp_read`, the bytes that `pcmout_cb` takes, and
the ranges of the buffer that are used, each with its start and its length. -/
structure OutLoopOutput (α : Type) where
  obtained : List α
  accepted : List α
  accesses : List (Nat × Nat)

section Model

variable {α : Type}

/-- The iteration ends before `dsp_read`. -/
def Iteration.givesUp (e : Iteration α) : Bool :=
  e.audecNull || e.dspReadNull || e.bufLevel < 768 || e.getCurPtsNull || e.bufferSpace < 4096

variable (s : OutLoop α)

namespace OutLoop

variable (e : Iteration α)

/-- The raw formats are read only every 25th time while the output has enough data. -/
def throttled : Bool :=
  e.bufferLevel > 2304 && s.readcount < 25 && e.audioRawFormatType

def got : List α := if s.throttled e then [] else e.read

def moved : Memory α :=
  if s.offset > 0 then s.buffer.move 0 s.offset s.len else s.buffer

def moveAccesses : List (Nat × Nat) :=
  if s.offset > 0 then [(s.offset, s.len), (0, s.len)] else []

def readAccesses : List (Nat × Nat) :=
  if s.throttled e then [] else [(s.len, outputBufferSize - s.len)]

/-- An iteration that calls `dsp_read` and offers what there is. -/
def transfer : OutLoop α × OutLoopOutput α :=
  let buffer := s.moved.store s.len (s.got e)
  let len := s.len + (s.got e).length
  let readcount := if s.throttled e then s.readcount + 1 else 0
  let accesses := s.moveAccesses ++ s.readAccesses e
  if len = 0 then (⟨buffer, 0, 0, readcount⟩, ⟨s.got e, [], accesses⟩)
  else if 0 ≤ e.written then
    (⟨buffer, len - e.written.toNat, e.written.toNat, readcount⟩,
      ⟨s.got e, buffer.slice 0 e.written.toNat, accesses ++ [(0, len)]⟩)
  else (⟨buffer, 0, 0, readcount⟩, ⟨s.got e, [], accesses ++ [(0, len)]⟩)

/-- `dtv_patch_out_loop` starts with an empty buffer. -/
def initial (buffer : Memory α) : OutLoop α := ⟨buffer, 0, 0, 0⟩

def pending : List α := s.buffer.slice s.offset s.len

end OutLoop

/-- A run ends when the state is `DTV_PATCH_STATE_STOPED`. -/
def outLoop (α : Type) : Machine (OutLoop α) (Iteration α) (OutLoopOutput α) where
  step s e :=
    if e.paused then (s, ⟨[], [], []⟩)
    else if e.givesUp then ({ s with buffer := s.moved }, ⟨[], [], s.moveAccesses⟩)
    else s.transfer e

/-! ## Properties of iterations -/

variable (e : Iteration α)

/-- `dsp_read` delivers at most what it is asked for, and `pcmout_cb` takes at most what it is
offered. -/
def Legal : Prop :=
  e.paused = false → e.givesUp = false →
    (s.got e).length ≤ outputBufferSize - s.len ∧
      (s.len + (s.got e).length ≠ 0 →
        0 ≤ e.written ∧ e.written ≤ (s.len + (s.got e).length : Nat))

instance : Decidable (Legal s e) :=
  inferInstanceAs (Decidable (_ → _ → _ ∧ (_ → _)))

def InBounds : Prop :=
  ∀ a ∈ ((outLoop α).step s e).2.accesses, a.1 + a.2 ≤ outputBufferSize

/-- All bytes that were obtained in a run, and all that were accepted. -/
def obtained (h : List (Iteration α × OutLoopOutput α)) : List α := h.flatMap fun x => x.2.obtained

def accepted (h : List (Iteration α × OutLoopOutput α)) : List α := h.flatMap fun x => x.2.accepted

/-- After this iteration, what was accepted and then what is pending is what was obtained. -/
def InOrder (s : OutLoop α × List (Iteration α × OutLoopOutput α)) (e : Iteration α) : Prop :=
  accepted ((outLoop α).recorded.step s e).1.2 ++ ((outLoop α).recorded.step s e).1.1.pending =
    obtained ((outLoop α).recorded.step s e).1.2

/-- If the iteration gives up after the move, moving the pending bytes by `offset` once more does
not change them: they repeat every `offset` bytes, as far as they go. -/
def GivesUpInPlace : Prop :=
  e.paused = false → e.givesUp = true →
    ∀ i, s.offset + i < s.len → s.buffer (s.offset + (s.offset + i)) = s.buffer (s.offset + i)

/-! ## One iteration -/

def Fits : Prop := s.offset + s.len ≤ outputBufferSize

namespace OutLoop

variable {s : OutLoop α} {e : Iteration α}

theorem slice_moved : s.moved.slice 0 s.len = s.pending := by
  unfold moved pending
  split
  · exact slice_move s.buffer 0 s.offset s.len
  · next h => rw [Nat.eq_zero_of_not_pos h]

theorem slice_read (s : OutLoop α) (e : Iteration α) :
    (s.moved.store s.len (s.got e)).slice 0 (s.len + (s.got e).length) = s.pending ++ s.got e := by
  have hread := slice_store_append s.moved 0 s.len (s.got e)
  rw [Nat.zero_add, slice_moved] at hread
  exact hread

theorem moveAccesses_inBounds (h : Fits s) :
    ∀ a ∈ s.moveAccesses, a.1 + a.2 ≤ outputBufferSize := by
  unfold moveAccesses
  split
  · have hlen : s.len ≤ outputBufferSize := Nat.le_trans (Nat.le_add_left _ _) h
    simpa using ⟨h, hlen⟩
  · exact nofun

theorem readAccesses_inBounds (h : Fits s) :
    ∀ a ∈ s.readAccesses e, a.1 + a.2 ≤ outputBufferSize := by
  have hlen : s.len ≤ outputBufferSize := Nat.le_trans (Nat.le_add_left _ _) h
  unfold readAccesses
  split
  · exact nofun
  · simpa using Nat.le_of_eq (Nat.add_sub_of_le hlen)

theorem transfer_spec (h : Fits s) (hread : (s.got e).length ≤ outputBufferSize - s.len)
    (hwritten : s.len + (s.got e).length ≠ 0 →
      0 ≤ e.written ∧ e.written ≤ (s.len + (s.got e).length : Nat)) :
    ((s.transfer e).2.accepted ++ (s.transfer e).1.pending =
      s.pending ++ (s.transfer e).2.obtained) ∧
      Fits (s.transfer e).1 ∧ ∀ a ∈ (s.transfer e).2.accesses, a.1 + a.2 ≤ outputBufferSize := by
  have hlen : s.len + (s.got e).length ≤ outputBufferSize := by
    unfold Fits at h
    omega
  have hslice := slice_read s e
  have hmove := moveAccesses_inBounds h
  have hreads := readAccesses_inBounds (e := e) h
  have haccesses : ∀ a ∈ s.moveAccesses ++ s.readAccesses e, a.1 + a.2 ≤ outputBufferSize := by
    intro a ha
    exact (List.mem_append.mp ha).elim (hmove a) (hreads a)
  unfold transfer
  dsimp only
  split
  · next hzero =>
    rw [hzero] at hslice
    exact ⟨hslice, Nat.zero_le _, haccesses⟩
  · next hpos =>
    obtain ⟨hnonneg, hle⟩ := hwritten hpos
    obtain ⟨n, hn⟩ := Int.eq_ofNat_of_zero_le hnonneg
    have hn' : n ≤ s.len + (s.got e).length := by
      rw [hn] at hle
      exact Int.ofNat_le.mp hle
    rw [if_pos hnonneg, hn]
    refine ⟨?_, ?_, ?_⟩
    · show slice _ 0 n ++ slice _ n (s.len + (s.got e).length - n) = _
      have hsplit := slice_append (s.moved.store s.len (s.got e)) 0 n (s.len + (s.got e).length - n)
      rw [Nat.zero_add, Nat.add_sub_of_le hn'] at hsplit
      exact hsplit.trans hslice
    · show n + (s.len + (s.got e).length - n) ≤ outputBufferSize
      rwa [Nat.add_sub_of_le hn']
    · intro a ha
      rcases List.mem_append.mp ha with ha | ha
      · exact haccesses a ha
      · cases List.mem_singleton.mp ha
        rwa [Nat.zero_add]

theorem obtained_transfer (s : OutLoop α) (e : Iteration α) :
    (s.transfer e).2.obtained = s.got e := by
  unfold transfer
  dsimp only
  split
  · rfl
  · split <;> rfl

theorem moved_cell (j : Nat) :
    s.moved j = if j < s.len then s.buffer (s.offset + j) else s.buffer j := by
  unfold moved
  split
  · split
    · next hj => simpa using move_inside s.buffer 0 s.offset hj
    · next hj =>
      exact move_of_ge s.buffer s.offset s.len ((Nat.zero_add _).symm ▸ Nat.not_lt.mp hj)
  · next h => rw [Nat.eq_zero_of_not_pos h, Nat.zero_add, ite_self]

/-- An iteration that gives up: the pending bytes are the same if and only if they repeat. -/
theorem pending_moved_iff :
    OutLoop.pending { s with buffer := s.moved } = s.pending ↔
      ∀ i, s.offset + i < s.len →
        s.buffer (s.offset + (s.offset + i)) = s.buffer (s.offset + i) := by
  constructor
  · intro h i hi
    have hcell : s.moved (s.offset + i) = s.buffer (s.offset + i) :=
      eq_of_slice_eq h (Nat.lt_of_le_of_lt (Nat.le_add_left i s.offset) hi)
    rwa [moved_cell, if_pos hi] at hcell
  · intro h
    refine slice_congr fun i _ => ?_
    show s.moved (s.offset + i) = s.buffer (s.offset + i)
    rw [moved_cell]
    split
    · next hi => exact h i hi
    · rfl

end OutLoop

variable {s : OutLoop α} {e : Iteration α}

/-- What one iteration adds to the bytes that were accepted and to those that are pending. -/
def Keeps (s : OutLoop α) (e : Iteration α) : Prop :=
  ((outLoop α).step s e).2.accepted ++ ((outLoop α).step s e).1.pending =
    s.pending ++ ((outLoop α).step s e).2.obtained

theorem step_paused (h : e.paused = true) : (outLoop α).step s e = (s, ⟨[], [], []⟩) := if_pos h

theorem step_givesUp (h : e.paused = false) (hgives : e.givesUp = true) :
    (outLoop α).step s e = ({ s with buffer := s.moved }, ⟨[], [], s.moveAccesses⟩) := by
  simp [outLoop, h, hgives]

theorem step_transfer (h : e.paused = false) (hgives : e.givesUp = false) :
    (outLoop α).step s e = s.transfer e := by
  simp [outLoop, h, hgives]

/-- Every iteration stays inside the buffer, and keeps the bytes in order if and only if it does not
give up over bytes that the second move would change. -/
theorem step_spec (h : Fits s) (hlegal : Legal s e) :
    (Keeps s e ↔ GivesUpInPlace s e) ∧ Fits ((outLoop α).step s e).1 ∧ InBounds s e := by
  unfold Keeps InBounds GivesUpInPlace
  cases hpaused : e.paused with
  | true =>
    rw [step_paused hpaused]
    exact ⟨by simp, h, nofun⟩
  | false =>
    cases hgives : e.givesUp with
    | true =>
      rw [step_givesUp hpaused hgives]
      refine ⟨?_, h, OutLoop.moveAccesses_inBounds h⟩
      simpa using s.pending_moved_iff
    | false =>
      obtain ⟨hread, hwritten⟩ := hlegal hpaused hgives
      obtain ⟨hkeeps, hfits, hbounds⟩ := OutLoop.transfer_spec h hread hwritten
      rw [step_transfer hpaused hgives]
      exact ⟨by simpa using hkeeps, hfits, hbounds⟩

/-! ## Runs -/

/-- If the bytes were in order before, they are in order after an iteration exactly if it keeps
them. -/
theorem inOrder_iff {h : List (Iteration α × OutLoopOutput α)}
    (hbefore : accepted h ++ s.pending = obtained h) : InOrder (s, h) e ↔ Keeps s e :=
  Machine.total_snoc_iff hbefore

/-- The order is kept if and only if no iteration gives up over pending bytes that the second move
would change, for a `dsp_read` and a `pcmout_cb` that keep to the sizes they are given. -/
theorem out_inOrder_iff (buffer : Memory α) (es : List (Iteration α))
    (hlegal : (outLoop α).Always Legal (.initial buffer) es) :
    ((outLoop α).recorded.Always InOrder (.initial buffer, []) es ↔
      (outLoop α).Always GivesUpInPlace (.initial buffer) es) ∧
      (outLoop α).Always InBounds (.initial buffer) es := by
  have hfits : Fits (.initial buffer : OutLoop α) := Nat.zero_le _
  have hbounds : (outLoop α).Always InBounds (.initial buffer) es :=
    hlegal.of_invariant (fun s e h hl => ⟨(step_spec h hl).2.2, (step_spec h hl).2.1⟩) hfits
  have hrecorded := Machine.recorded_always (h := []) |>.mpr hlegal
  refine ⟨Iff.trans ?_ (Machine.recorded_always (h := [])), hbounds⟩
  refine hrecorded.congr (I := fun s : OutLoop α × List _ =>
    Fits s.1 ∧ accepted s.2 ++ s.1.pending = obtained s.2) (fun s e h hl => ?_)
      (fun s e h hl hp => ?_)
    ⟨hfits, rfl⟩
  · exact (inOrder_iff h.2).trans (step_spec h.1 hl).1
  · exact ⟨(step_spec h.1 hl).2.1, hp⟩

/-- An iteration of a PCM stream that reads `read` and of which `written` bytes are taken. -/
def Iteration.transferring (read : List α) (written : Int) : Iteration α :=
  { paused := false, audecNull := false, dspReadNull := false, bufLevel := 4096,
    getCurPtsNull := false, bufferSpace := 8192, bufferLevel := 0, audioRawFormatType := false,
    read := read, written := written }

def Iteration.lowLevel : Iteration α := { Iteration.transferring [] 0 with bufLevel := 0 }

end Model

/-- All of four bytes are taken, then an iteration gives up; of the next two bytes one is taken,
then both. -/
theorem out_inOrder_lowLevel :
    (outLoop Nat).recorded.Always InOrder (.initial fun _ => 0, [])
      [.transferring [1, 2, 3, 4] 4, .lowLevel, .transferring [5, 6] 1, .transferring [7] 2] :=
  (out_inOrder_iff _ _ (by decide)).1.mpr
    ⟨nofun, fun _ _ _ hi => absurd hi (Nat.not_lt_zero _), nofun, nofun, trivial⟩

/-- One of four bytes is taken, and the next iteration gives up: the output gets 1, 3, 4, 4. -/
theorem lowLevel_repeats :
    (outLoop Nat).Always Legal (.initial fun _ => 0)
        [.transferring [1, 2, 3, 4] 1, .lowLevel, .transferring [] 3] ∧
      obtained ((outLoop Nat).exec (.initial fun _ => 0)
        [.transferring [1, 2, 3, 4] 1, .lowLevel, .transferring [] 3]).1 = [1, 2, 3, 4] ∧
      accepted ((outLoop Nat).exec (.initial fun _ => 0)
        [.transferring [1, 2, 3, 4] 1, .lowLevel, .transferring [] 3]).1 = [1, 3, 4, 4] := by
  decide

end AmlogicHal.Amadec
