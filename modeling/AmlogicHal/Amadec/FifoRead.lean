import AmlogicHal.Amadec.MediaSource
import AmlogicHal.Lib.Machine

/-!
# Reading from the audio FIFO

`read_buffer` pops bytes from the hardware FIFO into the caller's buffer, in batches of as many as
the FIFO says it has. When the FIFO stays empty it returns what it has. When the FIFO is not ready
for a byte it returns 0, and the bytes popped before are lost. A call is followed from one look at
the hardware (`FifoMoment`) to the next.

* `fifoLoop_sound`: the buffer has the bytes that were popped, and always room for them.
* `fifoReadBuffer_iff`: the calls of a run return all bytes that they pop exactly if no look finds a
  FIFO that is not ready, for the last time, after a byte was popped (`KeepsBytes`).
-/

namespace AmlogicHal.Amadec

open Feed List

/-! ## The model -/

/-- How many bytes the FIFO has, whether it is ready for the next one, and whether the thread has to
exit. -/
structure FifoMoment where
  bytesAvail : Nat
  ready : Bool
  requireExit : Bool
deriving DecidableEq

/-- The loop whose condition looks next. -/
inductive FifoPlace where
  /-- The level at the start of a batch, and then in `while (bytes == 0)`. -/
  | level (waitTimes : Nat)
  /-- `while (!AIFIFO_READY)`, for byte `i` of the batch. -/
  | byte (bytes i : Nat)
deriving DecidableEq

/-- The variables of a call, with the buffer and the FIFO. `p` is the distance from the start of the
buffer. -/
structure FifoRead where
  len : Nat
  p : Nat
  fifoReadyWait : Nat
  place : FifoPlace
  buffer : Memory Byte
  fifo : Feed

inductive FifoEnd where
  | returned (len : Nat)
  /-- `return 0` because the FIFO is not ready. -/
  | notReady
deriving DecidableEq

/-- The condition of the outer loop. -/
def nextBatch (size : Int) (s : FifoRead) : FifoRead × Option FifoEnd :=
  if s.len < size then ({ s with place := .level 0 }, none) else (s, some (.returned s.len))

/-- The inner loops, with `bytes` from the register. -/
def startBatch (size : Int) (bytes : Nat) (s : FifoRead) : FifoRead :=
  { s with place := .byte (min (size - s.len).toNat bytes) 0 }

def popByte (s : FifoRead) : FifoRead :=
  { s with
    buffer := s.buffer.store s.p (s.fifo.next 1), fifo := s.fifo.advance 1, p :=
      s.p + 1, fifoReadyWait := 0 }

/-- What the call does until it looks again. -/
def fifoStep (size : Int) (m : FifoMoment) (s : FifoRead) : FifoRead × Option FifoEnd :=
  match s.place with
  | .level waitTimes =>
    if 0 < waitTimes ∧ (10 < waitTimes ∨ m.requireExit) then (s, some (.returned s.len))
    else if m.bytesAvail = 0 then ({ s with place := .level (waitTimes + 1) }, none)
    else (startBatch size m.bytesAvail s, none)
  | .byte bytes i =>
    if m.ready then
      if i + 1 < bytes then ({ popByte s with place := .byte bytes (i + 1) }, none)
      else nextBatch size { popByte s with len := s.len + bytes }
    else if 100 < s.fifoReadyWait + 1 ∨ m.requireExit then (s, some .notReady)
    else ({ s with fifoReadyWait := s.fifoReadyWait + 1 }, none)

def fifoLoop (size : Int) : List FifoMoment → FifoRead × Option FifoEnd → FifoRead × Option FifoEnd
  | m :: ms, (s, none) => fifoLoop size ms (fifoStep size m s)
  | _, r => r

/-- A call of `read_buffer`, with the moments at which it looks. -/
structure FifoCall where
  size : Int
  buffer : Memory Byte
  memmapFailed : Bool
  /-- `AIU_MEM_AIFIFO_LEVEL`. -/
  level : Nat
  moments : List FifoMoment

/-- The bytes that a call reports as returned, how many it has written to the buffer, and how it has
ended. -/
structure FifoOutput where
  reported : List Byte
  written : Nat
  ended : Option FifoEnd

/-- The result of the call is the number of bytes reported. -/
def reportedBytes (buffer : Memory Byte) : Option FifoEnd → List Byte
  | some (.returned len) => buffer.slice 0 len
  | _ => []

def fifoReadBuffer (fifo : Feed) (c : FifoCall) : Feed × FifoOutput :=
  if c.memmapFailed ∨ c.level - 128 ≤ c.size then (fifo, ⟨[], 0, some (.returned 0)⟩)
  else
    let r := fifoLoop c.size c.moments (nextBatch c.size ⟨0, 0, 0, .level 0, c.buffer, fifo⟩)
    (r.1.fifo, ⟨reportedBytes r.1.buffer r.2, r.1.p, r.2⟩)

def fifoReads : Machine Feed FifoCall FifoOutput := ⟨fifoReadBuffer⟩

/-! ## The loops -/

/-- What is popped is in the buffer, and the buffer has room for it. -/
structure Held (size : Int) (buffer : Memory Byte) (fifo : Feed) (s : FifoRead) : Prop where
  buffer_eq : s.buffer = buffer.store 0 (fifo.next s.p)
  fifo_eq : s.fifo = fifo.advance s.p
  room : s.p ≤ size.toNat

/-- How `p` and `len` are related at each place. -/
def Placed (size : Int) (s : FifoRead) : Prop :=
  match s.place with
  | .level _ => s.p = s.len ∧ s.len < size
  | .byte bytes i => s.p = s.len + i ∧ i < bytes ∧ s.len + bytes ≤ size

/-- The invariant of a call. -/
def Sound (size : Int) (buffer : Memory Byte) (fifo : Feed)
    (r : FifoRead × Option FifoEnd) : Prop :=
  Held size buffer fifo r.1 ∧
    match r.2 with
    | none => Placed size r.1
    | some (.returned len) => r.1.p = len
    | some .notReady => True

variable {size : Int} {buffer : Memory Byte} {fifo : Feed} {s : FifoRead}

theorem Held.popByte (h : Held size buffer fifo s) (hroom : s.p + 1 ≤ size.toNat) :
    Held size buffer fifo (popByte s) := by
  refine ⟨?_, ?_, hroom⟩
  · have hstore := Memory.store_append buffer 0 (fifo.next s.p) ((fifo.advance s.p).next 1)
    rw [length_next, Nat.zero_add, next_append] at hstore
    rw [Amadec.popByte, h.buffer_eq, h.fifo_eq]
    exact hstore
  · rw [Amadec.popByte, h.fifo_eq]
    exact advance_advance _ _ _

theorem startBatch_placed {bytes : Nat} (hbytes : bytes ≠ 0) (hp : s.p = s.len)
    (hlen : s.len < size) : Placed size (startBatch size bytes s) := by
  simp only [Placed, startBatch]
  omega

theorem nextBatch_sound (h : Held size buffer fifo s) (hp : s.p = s.len) :
    Sound size buffer fifo (nextBatch size s) := by
  unfold nextBatch
  split
  next hlen => exact ⟨⟨h.buffer_eq, h.fifo_eq, h.room⟩, hp, hlen⟩
  next => exact ⟨h, hp⟩

theorem fifoStep_sound (m : FifoMoment) (h : Held size buffer fifo s) (hplaced : Placed size s) :
    Sound size buffer fifo (fifoStep size m s) := by
  have hstart : ∀ bytes, Held size buffer fifo (startBatch size bytes s) := fun _ =>
    ⟨h.buffer_eq, h.fifo_eq, h.room⟩
  unfold fifoStep
  cases hplace : s.place with
  | level waitTimes =>
    obtain ⟨hp, hlen⟩ : s.p = s.len ∧ s.len < size := by
      simpa only [Placed, hplace] using hplaced
    dsimp only
    split
    next => exact ⟨h, hp⟩
    next =>
      split
      next => exact ⟨⟨h.buffer_eq, h.fifo_eq, h.room⟩, hp, hlen⟩
      next hbytes => exact ⟨hstart _, startBatch_placed hbytes hp hlen⟩
  | byte bytes i =>
    obtain ⟨hp, hi, hroom⟩ : s.p = s.len + i ∧ i < bytes ∧ s.len + bytes ≤ size := by
      simpa only [Placed, hplace] using hplaced
    have hpop := h.popByte (by omega)
    dsimp only
    split
    next =>
      split
      next hmore =>
        refine ⟨⟨hpop.buffer_eq, hpop.fifo_eq, hpop.room⟩, ?_, hmore, hroom⟩
        show s.p + 1 = s.len + (i + 1)
        omega
      next hlast =>
        refine nextBatch_sound ⟨hpop.buffer_eq, hpop.fifo_eq, hpop.room⟩ ?_
        show s.p + 1 = s.len + bytes
        omega
    next =>
      split
      next => exact ⟨h, trivial⟩
      next =>
        refine ⟨⟨h.buffer_eq, h.fifo_eq, h.room⟩, ?_⟩
        simpa only [Placed, hplace] using ⟨hp, hi, hroom⟩

theorem fifoLoop_sound :
    ∀ (ms : List FifoMoment) (r : FifoRead × Option FifoEnd), Sound size buffer fifo r →
    Sound size buffer fifo (fifoLoop size ms r)
  | [], (_, none), h => h
  | [], (_, some _), h => h
  | m :: ms, (_, none), h => fifoLoop_sound ms _ (fifoStep_sound m h.1 h.2)
  | _ :: _, (_, some _), h => h

/-! ## A call -/

/-- The look ends the call because the FIFO is not ready. -/
def FifoRead.GivesUp (m : FifoMoment) (s : FifoRead) : Prop :=
  match s.place with
  | .level _ => False
  | .byte _ _ => m.ready = false ∧ (100 < s.fifoReadyWait + 1 ∨ m.requireExit = true)

def KeepsBytes (size : Int) : List FifoMoment → FifoRead × Option FifoEnd → Prop
  | m :: ms, (s, none) => (s.GivesUp m → s.p = 0) ∧ KeepsBytes size ms (fifoStep size m s)
  | _, _ => True

def FifoCall.Keeps (fifo : Feed) (c : FifoCall) : Prop :=
  ¬ (c.memmapFailed ∨ c.level - 128 ≤ c.size) →
    KeepsBytes c.size c.moments (nextBatch c.size ⟨0, 0, 0, .level 0, c.buffer, fifo⟩)

/-- The call has popped bytes and returns 0. -/
def FifoOutput.Loses (o : FifoOutput) : Prop := o.ended = some .notReady ∧ 0 < o.written

theorem fifoStep_givesUp (m : FifoMoment) :
    s.GivesUp m ∧ fifoStep size m s = (s, some .notReady) ∨
      ¬ s.GivesUp m ∧ (fifoStep size m s).2 ≠ some .notReady := by
  unfold FifoRead.GivesUp fifoStep nextBatch
  cases s.place with
  | level waitTimes =>
    refine .inr ⟨id, ?_⟩
    dsimp only
    split_ifs <;> simp
  | byte bytes i =>
    dsimp only
    split_ifs with hready hmore hnext hwait
    all_goals simp_all

theorem keepsBytes_iff :
    ∀ (ms : List FifoMoment) (r : FifoRead × Option FifoEnd), r.2 ≠ some .notReady →
    (KeepsBytes size ms r ↔
      ¬ ((fifoLoop size ms r).2 = some .notReady ∧ 0 < (fifoLoop size ms r).1.p))
  | [], (_, none), h => iff_of_true trivial fun hlost => h hlost.1
  | [], (_, some _), h => iff_of_true trivial fun hlost => h hlost.1
  | _ :: _, (_, some _), h => iff_of_true trivial fun hlost => h hlost.1
  | m :: ms, (s, none), _ => by
    rw [KeepsBytes, fifoLoop]
    rcases fifoStep_givesUp m with ⟨hgives, hstep⟩ | ⟨hgives, hstep⟩
    · have hended : fifoLoop size ms (s, some .notReady) = (s, some .notReady) := by
        cases ms <;> rfl
      have hkeeps : KeepsBytes size ms (s, some .notReady) := by cases ms <;> trivial
      rw [hstep, hended]
      simp [hgives, hkeeps]
    · rw [← keepsBytes_iff ms _ hstep]
      simp [hgives]

theorem FifoCall.keeps_iff (fifo : Feed) (c : FifoCall) : c.Keeps fifo ↔
    ¬ (fifoReadBuffer fifo c).2.Loses := by
  unfold FifoCall.Keeps fifoReadBuffer
  split
  next hempty => exact iff_of_true (absurd hempty) nofun
  next hempty =>
    refine (imp_iff_right hempty).trans (keepsBytes_iff _ _ ?_)
    unfold nextBatch
    split <;> simp

/-- What a call leaves: it has written the bytes that it has popped, and if it has returned, it
reports all of them or none. -/
structure FifoSpec (size : Int) (fifo fifo' : Feed) (o : FifoOutput) : Prop where
  fifo_eq : fifo' = fifo.advance o.written
  room : o.written ≤ size.toNat
  reported_eq : o.ended = none ∨ o.ended = some .notReady ∧ o.reported = [] ∨
    o.ended ≠ some .notReady ∧ o.reported = fifo.next o.written

theorem fifoReadBuffer_spec (fifo : Feed) (c : FifoCall) :
    FifoSpec c.size fifo (fifoReadBuffer fifo c).1 (fifoReadBuffer fifo c).2 := by
  unfold fifoReadBuffer
  split
  next => exact ⟨rfl, Nat.zero_le _, .inr (.inr ⟨by simp, rfl⟩)⟩
  next =>
    have hstart : Held c.size c.buffer fifo ⟨0, 0, 0, .level 0, c.buffer, fifo⟩ :=
      ⟨(Memory.store_nil c.buffer 0).symm, rfl, Nat.zero_le _⟩
    have hsound := fifoLoop_sound c.moments _ (nextBatch_sound hstart rfl)
    generalize fifoLoop c.size c.moments _ = r at hsound ⊢
    obtain ⟨s, ended⟩ := r
    obtain ⟨hheld, hended⟩ := hsound
    refine ⟨hheld.fifo_eq, hheld.room, ?_⟩
    cases ended with
    | none => exact .inl rfl
    | some ended =>
      cases ended with
      | notReady => exact .inr (.inl ⟨rfl, rfl⟩)
      | returned len =>
        refine .inr (.inr ⟨by simp, ?_⟩)
        have hp : s.p = len := hended
        have hslice := Memory.slice_store c.buffer 0 (fifo.next len)
        rw [length_next] at hslice
        show s.buffer.slice 0 len = fifo.next s.p
        rw [hheld.buffer_eq, hp, hslice]

/-! ## A run -/

def Returns (fifo : Feed) (c : FifoCall) : Prop := (fifoReadBuffer fifo c).2.ended ≠ none

/-- The step: what a call reports, and then the calls behind it, is what they pop exactly if it
loses nothing. -/
theorem FifoSpec.reported_append_iff {fifo' : Feed} {o : FifoOutput} {n : Nat} {rest : List Byte}
    (h : FifoSpec size fifo fifo' o) (hreturns : o.ended ≠ none) (hrest : rest.length ≤ n) :
    (o.reported ++ rest).length ≤ o.written + n ∧
      (o.reported ++ rest = fifo.next (o.written + n) ↔ ¬ o.Loses ∧ rest = fifo'.next n) := by
  rw [← next_append, ← h.fifo_eq, length_append]
  rcases h.reported_eq with hrunning | ⟨hnotReady, hnone⟩ | ⟨hreturned, hall⟩
  · exact absurd hrunning hreturns
  · rw [hnone, nil_append, length_nil, Nat.zero_add]
    refine ⟨Nat.le_trans hrest (Nat.le_add_left _ _), ?_⟩
    by_cases hwritten : 0 < o.written
    · refine iff_of_false (fun heq => ?_) fun hkept => hkept.1 ⟨hnotReady, hwritten⟩
      have hlong := congrArg length heq
      rw [length_append, length_next, length_next] at hlong
      omega
    · have hempty : fifo.next o.written = [] := by
        rw [Nat.eq_zero_of_not_pos hwritten]
        rfl
      rw [hempty, nil_append]
      exact (and_iff_right fun hloses => hwritten hloses.2).symm
  · rw [hall, length_next, append_cancel_left_eq]
    exact ⟨Nat.add_le_add_left hrest _, (and_iff_right fun hloses => hreturned hloses.1).symm⟩

theorem fifoReads_spec : ∀ (cs : List FifoCall) (fifo : Feed), fifoReads.Always Returns fifo cs →
    ∃ n, (fifoReads.exec fifo cs).2 = fifo.advance n ∧
      (Machine.total FifoOutput.reported (fifoReads.exec fifo cs).1).length ≤ n ∧
      (Machine.total FifoOutput.reported (fifoReads.exec fifo cs).1 = fifo.next n ↔
        fifoReads.Always (fun fifo c => c.Keeps fifo) fifo cs)
  | [], _, _ => ⟨0, rfl, Nat.le_refl 0, fun _ => trivial, fun _ => rfl⟩
  | c :: cs, fifo, hreturns => by
    have hspec := fifoReadBuffer_spec fifo c
    obtain ⟨n, hlast, hlength, hiff⟩ := fifoReads_spec cs (fifoReadBuffer fifo c).1 hreturns.2
    obtain ⟨hle, hstep⟩ := hspec.reported_append_iff hreturns.1 hlength
    refine ⟨_, ?_, hle, hstep.trans (and_congr (c.keeps_iff fifo).symm hiff)⟩
    rw [← advance_advance, ← hspec.fifo_eq]
    exact hlast

theorem fifoReads_inside : ∀ (cs : List FifoCall) (fifo : Feed),
    ∀ x ∈ (fifoReads.exec fifo cs).1, x.2.written ≤ x.1.size.toNat
  | [], _ => nofun
  | c :: cs, fifo =>
    forall_mem_cons.mpr
      ⟨(fifoReadBuffer_spec fifo c).room, fifoReads_inside cs (fifoReadBuffer fifo c).1⟩

/-! ## The result -/

/-- Calls that have returned; none of them writes past its buffer. -/
theorem fifoReadBuffer_iff (stream : Memory Byte) (cs : List FifoCall)
    (hreturns : fifoReads.Always Returns ⟨stream, 0⟩ cs) :
    (Machine.total FifoOutput.reported (fifoReads.exec ⟨stream, 0⟩ cs).1 =
          (fifoReads.exec ⟨stream, 0⟩ cs).2.delivered ∧
        ∀ x ∈ (fifoReads.exec ⟨stream, 0⟩ cs).1, x.2.written ≤ x.1.size.toNat) ↔
      fifoReads.Always (fun fifo c => c.Keeps fifo) ⟨stream, 0⟩ cs := by
  obtain ⟨n, hlast, -, hiff⟩ := fifoReads_spec cs ⟨stream, 0⟩ hreturns
  have hdelivered : (fifoReads.exec ⟨stream, 0⟩ cs).2.delivered = next n ⟨stream, 0⟩ := by
    rw [hlast, delivered_advance]
    rfl
  rw [hdelivered, hiff, and_iff_left (fifoReads_inside cs _)]

def countingFifo : Feed := ⟨fun i => BitVec.ofNat 8 i, 0⟩

/-- Two bytes are asked for and two are there, but if the FIFO is not ready for the second one the
thread has to exit. -/
def readTwoBytes (ready : Bool) : FifoCall :=
  ⟨2, fun _ => 0, false, 1000, [⟨2, true, false⟩, ⟨2, true, false⟩, ⟨1, ready, !ready⟩]⟩

theorem fifoReadBuffer_complete :
    Machine.total FifoOutput.reported (fifoReads.exec countingFifo [readTwoBytes true]).1 =
        (fifoReads.exec countingFifo [readTwoBytes true]).2.delivered ∧
      ∀ x ∈ (fifoReads.exec countingFifo [readTwoBytes true]).1, x.2.written ≤ x.1.size.toNat := by
  refine (fifoReadBuffer_iff (fun i => BitVec.ofNat 8 i) [readTwoBytes true] ⟨?_, trivial⟩).mpr
    ⟨fun _ => ⟨nofun, nofun, nofun, trivial⟩, trivial⟩
  show some (FifoEnd.returned 2) ≠ none
  exact Option.some_ne_none _

/-- One byte is popped, and none is reported. -/
theorem fifoReadBuffer_loses :
    Machine.total FifoOutput.reported (fifoReads.exec countingFifo [readTwoBytes false]).1 = [] ∧
      (fifoReads.exec countingFifo [readTwoBytes false]).2.delivered = [0] := by
  decide

end AmlogicHal.Amadec
