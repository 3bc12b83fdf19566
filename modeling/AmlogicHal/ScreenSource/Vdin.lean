import AmlogicHal.Lib.Machine
import Mathlib.Logic.Embedding.Basic

/-!
# The buffers of the screen-source capture device

`vdin_screen_source` (`v4l2_vdin.cpp`) streams frames from a V4L2 driver. A buffer is queued in the
driver, dequeued with a frame in it, handed to a consumer and queued again when the last reference
to it is released. The consumers are a client that calls `acquire_buffer`, the native window the
work thread copies frames into, and the data callback the work thread calls.

References are counted in `refcount`, which only `release_buffer` changes under the lock.
`acquire_buffer`, the work thread, `start` and `stop` take no lock, so the steps of a run are pieces
of these functions:

* `start` is one step. Until its STREAMON nothing can be dequeued, and after it `start` touches no
  buffer.
* `acquire_buffer` is two steps. The driver writes the index of the dequeued buffer into the shared
  `mVideoInfo->buf`, and the rest of the call reads it back from there.
* One pass of the work thread is up to six steps: check `mState`, dequeue, look up, copy, release,
  deliver.
* `stop` is three steps: it announces itself in `mState`, then waits for the work thread and stops
  the stream, then frees the buffers.

`Owned` is what the counting is for: no buffer is queued while a consumer holds it, and none that
was dequeued is lost. It does not hold of all runs.

* With both outputs configured, the release after the copy into the window queues the buffer, and
  the callback hands it to the client after that.
* A failed copy, a refused `VIDIOC_QBUF`, a stop during a pass and `acquire_buffer` beside an output
  lose buffers.

`Careful` excludes the latter. `ScreenSource/Owned.lean` proves `Owned` of the runs with one output
and careful steps.
-/

namespace AmlogicHal.ScreenSource

abbrev Addr := Nat

/-! ## 1. The driver -/

/-- The capture queue of the driver: how many buffers it has allocated, whether it streams, the
buffers it may fill, and the buffers that were taken from it while it streamed. -/
structure Driver where
  allocated : Nat
  streaming : Bool
  queued : Nat → Bool
  dequeued : Nat → Bool

namespace Driver

def init : Driver := ⟨0, false, fun _ => false, fun _ => false⟩

/-- `VIDIOC_REQBUFS` frees the buffers there are and allocates `count` others. -/
def reqbufs (d : Driver) (ok : Bool) (count : Nat) : Driver :=
  if ok then
    { d with allocated := count, queued := fun _ => false, dequeued := fun _ => false }
  else d

/-- Whether `VIDIOC_QBUF` succeeds. A buffer that is queued already is refused. -/
def accepts (d : Driver) (ok : Bool) (i : Nat) : Bool :=
  ok && decide (i < d.allocated) && !d.queued i

def qbuf (d : Driver) (ok : Bool) (i : Nat) : Driver :=
  if d.accepts ok i then
    { d with
      queued := Function.update d.queued i true
      dequeued := Function.update d.dequeued i false }
  else d

/-- `VIDIOC_DQBUF`. The driver picks the buffer, among those that are queued. -/
def dqbuf (d : Driver) : Option Nat → Option (Nat × Driver)
  | none => none
  | some i =>
    if d.streaming && d.queued i then
      some (i, { d with
        queued := Function.update d.queued i false
        dequeued := Function.update d.dequeued i true })
    else none

/-- `VIDIOC_STREAMOFF` takes every buffer out of the queue. -/
def streamoff (d : Driver) (ok : Bool) : Driver :=
  if ok then
    { d with streaming := false, queued := fun _ => false, dequeued := fun _ => false }
  else d

end Driver

/-! ## 2. The device -/

/-- `mFrameType`: the outputs of the work thread. -/
structure Outputs where
  nativeWindow : Bool
  callBack : Bool

variable (cfg : Outputs)

/-- `mFrameType & NATIVE_WINDOW_DATA || mFrameType & CALL_BACK_DATA`. -/
def Outputs.any : Bool := cfg.nativeWindow || cfg.callBack

inductive State
  | START
  | PAUSE
  | STOPPING
  | STOP
  deriving DecidableEq

/-- How far a pass of `workThread` has come. -/
inductive WorkerPc
  | idle
  /-- `mState` was `START`, and the buffer is not acquired yet. -/
  | polling
  /-- The ioctl in `acquire_buffer` has dequeued the buffer `k`. -/
  | dequeued (k : Nat)
  /-- The reference for the window is counted, and `src` is about to be copied. -/
  | copying (index : Nat) (src : Addr)
  | copied (index : Nat) (src : Addr)
  /-- The callback is next. -/
  | delivering (index : Nat)
  deriving DecidableEq

/-- How far a call of `stop` has come. -/
inductive StopPc
  | idle
  /-- `mState` is set, and the call waits for the work thread. -/
  | waiting
  /-- The work thread is gone and the stream is off. -/
  | off
  deriving DecidableEq

/-- The state of `vdin_screen_source` with its driver and its callers. -/
structure Vdin where
  driver : Driver
  /-- `mVideoInfo->buf.index`, which every call of `acquire_buffer` shares. -/
  bufIndex : Nat
  refcount : Nat → Nat
  /-- What consumers get as a buffer's address: `mVideoInfo->mem[i]`, or `src_temp[i]` for a width
  that is not a multiple of 32. -/
  ptr : Nat → Addr
  /-- The vector that leads from these addresses back to indices: `mBufs` or `mTemp_Bufs`. -/
  bufs : Addr → Option Nat
  mBufferCount : Nat
  mState : State
  mOpen : Bool
  workThread : Bool
  worker : WorkerPc
  stopping : StopPc
  /-- The buffers of the client calls of `acquire_buffer` that are past their ioctl. -/
  acquiring : List Nat
  /-- The buffers clients were handed and have not released, once for each reference. -/
  held : List Nat
  /-- `KeyedVector::valueFor` ends the process on a key it does not have. -/
  aborted : Bool

/-- The device after `init` and `set_format`, which decide the number of buffers. -/
def Vdin.init (mBufferCount : Nat) : Vdin where
  driver := .init
  bufIndex := 0
  refcount := fun _ => 0
  ptr := fun _ => 0
  bufs := fun _ => none
  mBufferCount := mBufferCount
  mState := .STOP
  mOpen := false
  workThread := false
  worker := .idle
  stopping := .idle
  acquiring := []
  held := []
  aborted := false

variable (s : Vdin)

/-- `mVideoInfo->refcount[i] += 1`. -/
def Vdin.retain (i : Nat) : Vdin :=
  { s with refcount := Function.update s.refcount i (s.refcount i + 1) }

/-! ### Starting -/

/-- The answers `start` gets. `mem` are the addresses of the buffers: live mappings do not
overlap. -/
structure StartAnswers where
  querycap : Bool
  reqbufs : Bool
  querybuf : Nat → Bool
  mmap : Nat → Bool
  mem : Nat ↪ Addr
  qbuf : Nat → Bool
  streamon : Bool
  initNativeWindow : Bool

/-- The loop of `start_v4l2_device` that maps the buffers: the first `n` rounds, and whether they
all succeeded. -/
def mapBuffers (a : StartAnswers) (s : Vdin) : Nat → Vdin × Bool
  | 0 => (s, true)
  | n + 1 =>
    match mapBuffers a s n with
    | (s, false) => (s, false)
    | (s, true) =>
      let s := { s with bufIndex := n }
      if a.querybuf n && a.mmap n then
        ({ s with
          ptr := Function.update s.ptr n (a.mem n)
          refcount := Function.update s.refcount n 0
          bufs := Function.update s.bufs (a.mem n) (some n) }, true)
      else (s, false)

/-- The loop of `start_v4l2_device` that queues the buffers. -/
def queueBuffers (a : StartAnswers) (s : Vdin) : Nat → Vdin × Bool
  | 0 => (s, true)
  | n + 1 =>
    match queueBuffers a s n with
    | (s, false) => (s, false)
    | (s, true) =>
      ({ s with bufIndex := n, driver := s.driver.qbuf (a.qbuf n) n },
        s.driver.accepts (a.qbuf n) n)

/-- `start_v4l2_device`. No failure undoes the calls before it. -/
def startV4l2Device (a : StartAnswers) (s : Vdin) : Vdin × Bool :=
  if !a.querycap then (s, false)
  else if !a.reqbufs then (s, false)
  else
    match mapBuffers a { s with driver := s.driver.reqbufs true s.mBufferCount } s.mBufferCount with
    | (s, false) => (s, false)
    | (s, true) =>
      match queueBuffers a s s.mBufferCount with
      | (s, false) => (s, false)
      | (s, true) =>
        if a.streamon then ({ s with driver := { s.driver with streaming := true } }, true)
        else (s, false)

def start (a : StartAnswers) : Vdin :=
  if s.mOpen then s
  else
    match startV4l2Device a s with
    | (s, false) => s
    | (s, true) =>
      if cfg.nativeWindow && !a.initNativeWindow then s
      else { s with workThread := s.workThread || cfg.any, mState := .START, mOpen := true }

/-! ### Stopping -/

def stop : Vdin :=
  if s.stopping = .idle then { s with mState := .STOPPING, stopping := .waiting } else s

/-- `requestExitAndWait` returns between two passes of the work thread. Then the stream is
stopped. -/
def stopStream (streamoff : Bool) : Vdin :=
  if s.stopping = .waiting ∧ s.worker = .idle then
    { s with workThread := false, driver := s.driver.streamoff streamoff, stopping := .off }
  else s

/-- The rest of `stop`: the buffers are freed and their addresses forgotten. -/
def stopBuffers (reqbufs : Bool) : Vdin :=
  if s.stopping = .off then
    { s with
      driver := s.driver.reqbufs reqbufs 0
      bufs := fun _ => none
      mBufferCount := 0
      mState := .STOP
      mOpen := false
      stopping := .idle }
  else s

/-! ### Acquiring and releasing -/

/-- The rest of `acquire_buffer` after its ioctl: a reference is counted if there is no output. The
caller gets the buffer `bufIndex`. -/
def acquireTail : Vdin :=
  if cfg.any then s else s.retain s.bufIndex

/-- A client's `acquire_buffer` up to its ioctl. -/
def acquire (dqbuf : Option Nat) : Vdin :=
  match s.driver.dqbuf dqbuf with
  | none => s
  | some (k, driver) => { s with driver := driver, bufIndex := k, acquiring := k :: s.acquiring }

/-- The client's call that dequeued `k` returns. The client holds what the call returned. -/
def acquired (k : Nat) : Vdin :=
  if k ∈ s.acquiring then
    { acquireTail cfg s with acquiring := s.acquiring.erase k, held := s.bufIndex :: s.held }
  else s

def releaseBuffer (ptr : Addr) (qbuf : Bool) : Vdin :=
  match s.bufs ptr with
  | none => { s with aborted := true }
  | some currentIndex =>
    if 0 < s.refcount currentIndex then
      let s := { s with
        refcount := Function.update s.refcount currentIndex (s.refcount currentIndex - 1) }
      if s.refcount currentIndex = 0 then { s with driver := s.driver.qbuf qbuf currentIndex }
      else s
    else s

def release (ptr : Addr) (qbuf : Bool) : Vdin :=
  match s.bufs ptr with
  | none => releaseBuffer s ptr qbuf
  | some i => { releaseBuffer s ptr qbuf with held := s.held.erase i }

/-! ### The work thread -/

def workerCheck : Vdin :=
  if s.workThread = true ∧ s.worker = .idle ∧ s.mState = .START then { s with worker := .polling }
  else s

/-- The pass calls `acquire_buffer`, up to its ioctl. -/
def workerDequeue (dqbuf : Option Nat) : Vdin :=
  match s.worker with
  | .polling =>
    match s.driver.dqbuf dqbuf with
    | none => { s with worker := .idle }
    | some (k, driver) => { s with driver := driver, bufIndex := k, worker := .dequeued k }
  | _ => s

/-- The pass has its buffer and looks its index up. A reference is counted for the window. -/
def workerLookup : Vdin :=
  match s.worker with
  | .dequeued _ =>
    let s := acquireTail cfg s
    let src := s.ptr s.bufIndex
    match s.bufs src with
    | none => { s with aborted := true }
    | some index =>
      if cfg.nativeWindow then { s.retain index with worker := .copying index src }
      else { s with worker := .delivering index }
  | _ => s

/-- The copy into the window. It fails without a window, without a buffer of the window or without
its address, and the pass ends there. -/
def workerCopy (window : Bool) : Vdin :=
  match s.worker with
  | .copying index src =>
    if window then { s with worker := .copied index src } else { s with worker := .idle }
  | _ => s

/-- `release_buffer(src)` after the copy. -/
def workerRelease (qbuf : Bool) : Vdin :=
  match s.worker with
  | .copied index src =>
    match s.bufs src with
    | none => releaseBuffer s src qbuf
    | some _ => { releaseBuffer s src qbuf with worker := .delivering index }
  | _ => s

/-- The callback, which hands the client a reference. `mDataCB` is set whenever `CALL_BACK_DATA`
is. -/
def workerDeliver (cfg : Outputs) (s : Vdin) : Vdin :=
  match s.worker with
  | .delivering index =>
    if cfg.callBack = true ∧ s.mState = .START then
      { s.retain index with held := index :: s.held, worker := .idle }
    else { s with worker := .idle }
  | _ => s

/-- One step of a run, with the answers of the driver and the window. -/
inductive Event
  | start (answers : StartAnswers)
  | pause
  | stop
  | stopStream (streamoff : Bool)
  | stopBuffers (reqbufs : Bool)
  | acquire (dqbuf : Option Nat)
  | acquired (k : Nat)
  | release (ptr : Addr) (qbuf : Bool)
  | workerCheck
  | workerDequeue (dqbuf : Option Nat)
  | workerLookup
  | workerCopy (window : Bool)
  | workerRelease (qbuf : Bool)
  | workerDeliver

def react : Event → Vdin
  | .start answers => start cfg s answers
  | .pause => { s with mState := .PAUSE }
  | .stop => stop s
  | .stopStream streamoff => stopStream s streamoff
  | .stopBuffers reqbufs => stopBuffers s reqbufs
  | .acquire dqbuf => acquire s dqbuf
  | .acquired k => acquired cfg s k
  | .release ptr qbuf => release s ptr qbuf
  | .workerCheck => workerCheck s
  | .workerDequeue dqbuf => workerDequeue s dqbuf
  | .workerLookup => workerLookup cfg s
  | .workerCopy window => workerCopy s window
  | .workerRelease qbuf => workerRelease s qbuf
  | .workerDeliver => workerDeliver cfg s

def vdinMachine : Machine Vdin Event Unit where
  step s e := (if s.aborted then s else react cfg s e, ())

/-! ## 3. Who has a buffer -/

/-- The buffer the work thread copies into the window. -/
def WorkerPc.window : WorkerPc → Option Nat
  | .copying index _ => some index
  | .copied index _ => some index
  | _ => none

/-- The buffer the work thread has dequeued and not handed over. After the copy into a window it
has. -/
def WorkerPc.carried : WorkerPc → Option Nat
  | .dequeued k => some k
  | .delivering index => if cfg.nativeWindow then none else some index
  | _ => none

/-- A consumer has a reference to the buffer `i`: a client that was handed it, or the window. -/
def Held (i : Nat) : Prop := i ∈ s.held ∨ i ∈ s.worker.window

/-- The call that dequeued the buffer `i` is still running. -/
def InFlight (i : Nat) : Prop :=
  i ∈ s.acquiring ∨ i ∈ s.worker.carried cfg

/-- Lost: dequeued while streaming, and neither held nor on its way to a consumer until it is queued
again. -/
def Owned (cfg : Outputs) (s : Vdin) : Prop :=
  ∀ i, (s.driver.queued i = true → ¬ Held s i) ∧
    (s.driver.streaming = true → s.driver.dequeued i = true → Held s i ∨ InFlight cfg s i)

def KeepsOwned (e : Event) : Prop :=
  Owned cfg ((vdinMachine cfg).step s e).1

/-- What callers, window and driver have to keep to.

* The device is started when no other call runs and no client holds a buffer.
* With the callback configured it is not paused or stopped during a pass of the work thread.
* A client calls `acquire_buffer` only if there is no output, and one call at a time.
* A client releases only buffers it holds.
* The window takes every frame, and the driver takes every buffer back. -/
def Careful : Event → Prop
  | .start _ => s.mOpen = true ∨ s.stopping = .idle ∧ s.acquiring = [] ∧ s.held = []
  | .pause => cfg.callBack = true → s.worker = .idle
  | .stop => cfg.callBack = true → s.worker = .idle
  | .acquire _ => cfg.any = false ∧ s.acquiring = []
  | .release ptr qbuf => (∀ i ∈ s.bufs ptr, i ∈ s.held) ∧ qbuf = true
  | .workerCopy window => window = true
  | .workerRelease qbuf => qbuf = true
  | _ => True

instance : ∀ e, Decidable (Careful cfg s e)
  | .start _ => inferInstanceAs (Decidable (_ ∨ _))
  | .pause => inferInstanceAs (Decidable (_ → _))
  | .stop => inferInstanceAs (Decidable (_ → _))
  | .acquire _ => inferInstanceAs (Decidable (_ ∧ _))
  | .release ptr qbuf => inferInstanceAs (Decidable ((∀ i ∈ s.bufs ptr, i ∈ s.held) ∧ qbuf = true))
  | .workerCopy _ => inferInstanceAs (Decidable (_ = true))
  | .workerRelease _ => inferInstanceAs (Decidable (_ = true))
  | .stopStream _ => .isTrue trivial
  | .stopBuffers _ => .isTrue trivial
  | .acquired _ => .isTrue trivial
  | .workerCheck => .isTrue trivial
  | .workerDequeue _ => .isTrue trivial
  | .workerLookup => .isTrue trivial
  | .workerDeliver => .isTrue trivial

end AmlogicHal.ScreenSource
