import AmlogicHal.Lib.Machine
import Mathlib.Algebra.Order.Group.Unbundled.Int

/-!
# The interaction handler

`Acquire` asks for the `INTERACTION` hint while the user touches the screen. The thread `Routine`
ends the hint when the display is idle or the requested time is over. It waits without the lock, so
`Acquire` can move the state under it and wakes it up with a counter (the event file).

`handlerMachine` has a step for each section under the lock and for each thing that `Routine` does
in between: reading the duration, the two calls of `poll` and the reading of the idle file. Inputs
say what the system calls return and how time goes by.

`hint_alternates`: in every interleaving the calls of `DoHint` and `EndHint` alternate, and the hint
is outstanding exactly in the states `INTERACTION` and `WAITING`.
-/

namespace AmlogicHal.DispPower

/-! ## The handler -/

inductive InteractionState where
  | uninitialized
  | idle
  | interaction
  | waiting
deriving DecidableEq, Repr

/-- `struct timespec`. -/
structure Timespec where
  sec : Int
  nsec : Int
deriving DecidableEq, Repr

/-- What `clock_gettime` reads when `ns` nanoseconds have gone by. -/
def Timespec.ofNs (ns : Nat) : Timespec := ⟨ns / 1000000000, ns % 1000000000⟩

/-- `CalcTimespecDiffMs`. Two readings of the clock differ by an amount that `size_t` can hold. -/
def calcTimespecDiffMs (start stop : Timespec) : Int :=
  (stop.sec - start.sec) * 1000 + (stop.nsec - start.nsec).tdiv 1000000

inductive RoutinePc where
  /-- About to lock, or waiting for the condition. -/
  | locking
  /-- Unlocked, before it reads `mDurationMs`. -/
  | entering
  /-- In the first `poll`, since a time, with the timeout for the second one. -/
  | polling (since : Nat) (timeoutMs : Int)
  /-- Before it reads the idle file. -/
  | reading (timeoutMs : Int)
  /-- In the second `poll`, since a time. -/
  | pollingIdle (since : Nat) (timeoutMs : Int)
  | releasing
  | exited
deriving DecidableEq, Repr

structure Handler where
  state : InteractionState
  events : Nat
  durationMs : Int
  lastTimespec : Timespec
  routine : RoutinePc
  now : Nat
deriving DecidableEq, Repr

def waitMs : Nat := 100
def minDurationMs : Int := 1400
def maxDurationMs : Int := 5650

def nsPerMs : Nat := 1000000

/-- The handler after its constructor and a successful `Init`. -/
def Handler.initialized (now : Nat) : Handler := ⟨.idle, 0, 0, .ofNs 0, .locking, now⟩

inductive HandlerObs where
  | doHint
  | endHint
  /-- `Routine` sets the state to `WAITING`. -/
  | enterWaiting
deriving DecidableEq, Repr

namespace Handler

def finalDuration (duration : Int) : Int :=
  if duration + 650 > maxDurationMs then maxDurationMs
  else if duration + 650 > minDurationMs then duration + 650
  else minDurationMs

/-- The previous request covers the new one. -/
def covered (duration : Int) (h : Handler) : Bool :=
  h.state ≠ .idle ∧ finalDuration duration ≤ h.durationMs ∧
    calcTimespecDiffMs h.lastTimespec (.ofNs h.now) ≤ h.durationMs - finalDuration duration

def abortWaitLocked (h : Handler) : Handler := { h with events := h.events + 1 }

def acquire (duration : Int) (h : Handler) : Handler × List HandlerObs :=
  if h.state = .uninitialized ∨ h.covered duration then
    (h, [])
  else
    let h' := { h with
      lastTimespec := .ofNs h.now
      durationMs := finalDuration duration
      state := .interaction }
    match h.state with
    | .waiting => (h'.abortWaitLocked, [])
    | .idle => (h', [.doHint])
    | _ => (h', [])

/-- The section of `Routine` that waits for the condition. -/
def lockedWait (h : Handler) : Handler × List HandlerObs :=
  match h.state with
  | .idle => (h, [])
  | .uninitialized => ({ h with routine := .exited }, [])
  | _ => ({ h with state := .waiting, routine := .entering }, [.enterWaiting])

/-- `Release`, and back to the top of the loop. -/
def release (h : Handler) : Handler × List HandlerObs :=
  if h.state = .waiting then
    ({ h with state := .idle, routine := .locking }, [.endHint])
  else
    -- the read clears the counter
    ({ h with events := 0, routine := .locking }, [])

def exit (h : Handler) : Handler :=
  if h.state = .uninitialized then h else { h.abortWaitLocked with state := .uninitialized }

end Handler

inductive PollResult where
  | event
  | idle
  | timeout
  | error
deriving DecidableEq, Repr

inductive IdleRead where
  | eof
  | idle
  | busy
deriving DecidableEq, Repr

/-- The answers of the system to the next step of `Routine`. -/
structure RoutineIo where
  poll : PollResult
  read : IdleRead
deriving DecidableEq, Repr

/-- A call of `poll` with a timeout can be over with this result. -/
def pollReturns (h : Handler) (since : Nat) (timeoutMs : Int) : PollResult → Bool
  | .event => 0 < h.events
  | .timeout => 0 ≤ timeoutMs ∧ since + timeoutMs * nsPerMs ≤ h.now
  | .idle | .error => true

/-- The next step of `Routine`. It waits as long as `poll` cannot return. -/
def routineStep (io : RoutineIo) (h : Handler) : Handler × List HandlerObs :=
  match h.routine with
  | .locking => h.lockedWait
  | .entering => ({ h with routine := .polling h.now h.durationMs }, [])
  | .polling since timeoutMs =>
    if pollReturns h since waitMs io.poll then
      match io.poll with
      | .timeout => ({ h with routine := .reading timeoutMs }, [])
      | .event | .error => ({ h with routine := .releasing }, [])
      -- the first call does not look at the idle file
      | .idle => (h, [])
    else
      (h, [])
  | .reading timeoutMs =>
    match io.read with
    | .busy => ({ h with routine := .pollingIdle h.now timeoutMs }, [])
    | .eof | .idle => ({ h with routine := .releasing }, [])
  | .pollingIdle since timeoutMs =>
    if pollReturns h since timeoutMs io.poll then
      ({ h with routine := .releasing }, [])
    else
      (h, [])
  | .releasing => h.release
  | .exited => (h, [])

/-! ## Runs -/

inductive HandlerStep where
  | acquire (duration : Int)
  | routine (io : RoutineIo)
  | advance (ns : Nat)
  | exit
deriving DecidableEq, Repr

structure HandlerOutput where
  time : Nat
  obs : List HandlerObs
deriving DecidableEq, Repr

def handlerStep (h : Handler) : HandlerStep → Handler × HandlerOutput
  | .acquire duration => ((h.acquire duration).1, ⟨h.now, (h.acquire duration).2⟩)
  | .routine io => ((routineStep io h).1, ⟨h.now, (routineStep io h).2⟩)
  | .advance ns => ({ h with now := h.now + ns }, ⟨h.now, []⟩)
  | .exit => (h.exit, ⟨h.now, []⟩)

def handlerMachine : Machine Handler HandlerStep HandlerOutput := ⟨handlerStep⟩

abbrev HandlerHistory := List (HandlerStep × HandlerOutput)

def hintCalls (h : HandlerHistory) : List HandlerObs :=
  (h.flatMap fun x => x.2.obs).filter fun o => o ≠ .enterWaiting

/-- The calls alternate; `on` says whether the hint is outstanding before them. -/
def alternates : Bool → List HandlerObs → Bool
  | _, [] => true
  | false, .doHint :: cs => alternates true cs
  | true, .endHint :: cs => alternates false cs
  | _, _ => false

/-- The hint is outstanding: the last call for it is `DoHint`. -/
def outstanding (h : HandlerHistory) : Bool := (hintCalls h).getLast? = some .doHint

/-! ## What a step does -/

/-- The states in which the hint is outstanding. -/
def InteractionState.active : InteractionState → Bool
  | .interaction | .waiting => true
  | .uninitialized | .idle => false

/-- The hint is switched on, switched off or left alone. -/
inductive Switch : Bool → List HandlerObs → Bool → Prop
  | keep (on : Bool) : Switch on [] on
  | enter : Switch true [.enterWaiting] true
  | doHint : Switch false [.doHint] true
  | endHint : Switch true [.endHint] false

variable {h : Handler}

theorem acquire_switch (duration : Int) (hi : h.state ≠ .uninitialized) :
    (h.acquire duration).1.state ≠ .uninitialized ∧
      Switch h.state.active (h.acquire duration).2 (h.acquire duration).1.state.active := by
  unfold Handler.acquire
  split
  · exact ⟨hi, .keep _⟩
  · cases hs : h.state with
    | uninitialized => exact absurd hs hi
    | idle => exact ⟨nofun, .doHint⟩
    | interaction => exact ⟨nofun, .keep _⟩
    | waiting => exact ⟨nofun, .keep _⟩

theorem lockedWait_switch (hi : h.state ≠ .uninitialized) :
    h.lockedWait.1.state ≠ .uninitialized ∧
    Switch h.state.active h.lockedWait.2 h.lockedWait.1.state.active := by
  unfold Handler.lockedWait
  cases hs : h.state with
  | uninitialized => exact absurd hs hi
  | idle =>
    rw [hs]
    exact ⟨nofun, .keep _⟩
  | interaction => exact ⟨nofun, .enter⟩
  | waiting => exact ⟨nofun, .enter⟩

theorem release_switch (hi : h.state ≠ .uninitialized) :
    h.release.1.state ≠ .uninitialized ∧
    Switch h.state.active h.release.2 h.release.1.state.active := by
  unfold Handler.release
  split
  · next hs =>
    rw [hs]
    exact ⟨nofun, .endHint⟩
  · exact ⟨hi, .keep _⟩

/-- How `Routine` moves on between the sections under the lock. -/
inductive Moves (h : Handler) (io : RoutineIo) : RoutinePc → RoutinePc → Prop
  | stay (pc : RoutinePc) : Moves h io pc pc
  | start : Moves h io .entering (.polling h.now h.durationMs)
  | timedOut {since : Nat} {t : Int} (hpast : since + waitMs * nsPerMs ≤ h.now) :
      Moves h io (.polling since t) (.reading t)
  | woken {since : Nat} {t : Int} (hio : io.poll = .event ∧ 0 < h.events ∨ io.poll = .error) :
      Moves h io (.polling since t) .releasing
  | busy {t : Int} : Moves h io (.reading t) (.pollingIdle h.now t)
  | notBusy {t : Int} (hio : io.read ≠ .busy) : Moves h io (.reading t) .releasing
  | idleTimedOut {since : Nat} {t : Int} (hpast : since + t * nsPerMs ≤ h.now) :
      Moves h io (.pollingIdle since t) .releasing
  | idleWoken {since : Nat} {t : Int}
      (hio : io.poll = .event ∧ 0 < h.events ∨ io.poll = .error ∨ io.poll = .idle) :
      Moves h io (.pollingIdle since t) .releasing

variable (io : RoutineIo)

theorem routineStep_locking (hl : h.routine = .locking) : routineStep io h = h.lockedWait := by
  rw [routineStep, hl]

theorem routineStep_releasing (hr : h.routine = .releasing) : routineStep io h = h.release := by
  rw [routineStep, hr]

theorem routineStep_moves (hl : h.routine ≠ .locking) (hr : h.routine ≠ .releasing) :
    ∃ pc, Moves h io h.routine pc ∧ routineStep io h = ({ h with routine := pc }, []) := by
  unfold routineStep
  cases hpc : h.routine with
  | locking => exact absurd hpc hl
  | releasing => exact absurd hpc hr
  | exited =>
    refine ⟨_, .stay _, ?_⟩
    dsimp only
    rw [← hpc]
  | entering => exact ⟨_, .start, rfl⟩
  | reading t =>
    cases hio : io.read with
    | busy => exact ⟨_, .busy, rfl⟩
    | eof | idle => exact ⟨_, .notBusy (by simp [hio]), rfl⟩
  | polling since t =>
    dsimp only
    split
    · next hret =>
      cases hio : io.poll with
      | event => exact ⟨_, .woken (.inl ⟨hio, by simpa [hio, pollReturns] using hret⟩), rfl⟩
      | error => exact ⟨_, .woken (.inr hio), rfl⟩
      | idle => exact ⟨_, .stay _, by rw [← hpc]⟩
      | timeout =>
        refine ⟨_, .timedOut ?_, rfl⟩
        simp only [hio, pollReturns, decide_eq_true_eq] at hret
        exact_mod_cast hret.2
    · exact ⟨_, .stay _, by rw [← hpc]⟩
  | pollingIdle since t =>
    dsimp only
    split
    · next hret =>
      cases hio : io.poll with
      | event => exact ⟨_, .idleWoken (.inl ⟨hio, by simpa [hio, pollReturns] using hret⟩), rfl⟩
      | error => exact ⟨_, .idleWoken (.inr (.inl hio)), rfl⟩
      | idle => exact ⟨_, .idleWoken (.inr (.inr hio)), rfl⟩
      | timeout =>
        refine ⟨_, .idleTimedOut ?_, rfl⟩
        simp only [hio, pollReturns, decide_eq_true_eq] at hret
        exact hret.2
    · exact ⟨_, .stay _, by rw [← hpc]⟩

theorem handlerStep_switch (hi : h.state ≠ .uninitialized) {e : HandlerStep} (he : e ≠ .exit) :
    (handlerStep h e).1.state ≠ .uninitialized ∧
      Switch h.state.active (handlerStep h e).2.obs (handlerStep h e).1.state.active := by
  cases e with
  | acquire duration => exact acquire_switch duration hi
  | routine io =>
    simp only [handlerStep]
    by_cases hl : h.routine = .locking
    · rw [routineStep_locking io hl]
      exact lockedWait_switch hi
    · by_cases hr : h.routine = .releasing
      · rw [routineStep_releasing io hr]
        exact release_switch hi
      · obtain ⟨pc, -, hstep⟩ := routineStep_moves io hl hr
        rw [hstep]
        exact ⟨hi, .keep _⟩
  | advance ns => exact ⟨hi, .keep _⟩
  | exit => exact absurd rfl he

/-! ## Alternation -/

theorem hintCalls_snoc (h : HandlerHistory) (x : HandlerStep × HandlerOutput) :
    hintCalls (h ++ [x]) = hintCalls h ++ x.2.obs.filter fun o => o ≠ .enterWaiting := by
  simp [hintCalls]

/-- Whether the hint is outstanding after calls. -/
def levelAfter (on : Bool) (cs : List HandlerObs) : Bool :=
  match cs.getLast? with
  | none => on
  | some c => c = .doHint

theorem alternates_snoc {on : Bool} {cs : List HandlerObs} {c : HandlerObs}
    (h : alternates on cs = true) :
    alternates on (cs ++ [c]) = alternates (levelAfter on cs) [c] := by
  induction cs generalizing on with
  | nil => rfl
  | cons d cs ih =>
    have hlevel : ∀ on', levelAfter on (d :: cs) = levelAfter on' cs ∨ cs = [] := by
      intro on'
      cases cs with
      | nil => exact .inr rfl
      | cons d' cs => exact .inl (by simp [levelAfter, List.getLast?_cons])
    cases on <;> cases d <;> simp only [alternates, Bool.false_eq_true, List.cons_append] at h ⊢
    · rw [ih h]
      rcases hlevel true with hl | rfl
      · rw [hl]
      · rfl
    · rw [ih h]
      rcases hlevel false with hl | rfl
      · rw [hl]
      · rfl

/-- What holds in every state of a run without `Exit`. -/
structure HintInv (h : HandlerHistory) (s : Handler) : Prop where
  initialized : s.state ≠ .uninitialized
  alternating : alternates false (hintCalls h) = true
  level : levelAfter false (hintCalls h) = s.state.active

theorem HintInv.step {h : HandlerHistory} {s : Handler} (hinv : HintInv h s) {e : HandlerStep}
    (he : e ≠ .exit) : HintInv (h ++ [(e, (handlerStep s e).2)]) (handlerStep s e).1 := by
  obtain ⟨hinit, hswitch⟩ := handlerStep_switch hinv.initialized he
  have hcalls : alternates false (hintCalls (h ++ [(e, (handlerStep s e).2)])) = true ∧
      levelAfter false (hintCalls (h ++ [(e, (handlerStep s e).2)])) =
        (handlerStep s e).1.state.active := by
    rw [hintCalls_snoc]
    generalize (handlerStep s e).2.obs = obs at hswitch
    generalize (handlerStep s e).1.state.active = on' at hswitch
    generalize hon : s.state.active = on at hswitch
    have hlevel := hinv.level.trans hon
    cases hswitch with
    | keep | enter => exact ⟨by simpa using hinv.alternating, by simpa using hlevel⟩
    | doHint | endHint =>
      refine ⟨(alternates_snoc hinv.alternating).trans ?_, by simp [levelAfter]⟩
      rw [hlevel]
      rfl
  exact ⟨hinit, hcalls.1, hcalls.2⟩

theorem outstanding_eq (h : HandlerHistory) : outstanding h = levelAfter false (hintCalls h) := by
  unfold outstanding levelAfter
  cases (hintCalls h).getLast? with
  | none => rfl
  | some c => simp

theorem hint_alternates {now : Nat} {h : HandlerHistory} {s : Handler}
    (hrun : handlerMachine.Run (fun _ e => e ≠ .exit) (.initialized now) h s) :
    alternates false (hintCalls h) = true ∧
      (outstanding h = true ↔ s.state = .interaction ∨ s.state = .waiting) := by
  have hinv : HintInv h s := hrun.invariant HintInv ⟨nofun, rfl, rfl⟩ fun _ _ _ hi he => hi.step he
  refine ⟨hinv.alternating, ?_⟩
  rw [outstanding_eq, hinv.level]
  cases s.state <;> simp [InteractionState.active]

/-- A touch, and the wait of `Routine` until the requested time is over. -/
def touchRun : List HandlerStep :=
  [.acquire 100, .routine ⟨.timeout, .busy⟩, .routine ⟨.timeout, .busy⟩, .advance 100000000,
    .routine ⟨.timeout, .busy⟩, .routine ⟨.timeout, .busy⟩, .advance 1400000000,
    .routine ⟨.timeout, .busy⟩, .routine ⟨.timeout, .busy⟩]

theorem hint_alternates_touch :
    let r := handlerMachine.exec (.initialized 0) touchRun
    hintCalls r.1 = [.doHint, .endHint] ∧ alternates false (hintCalls r.1) = true := by
  have hrun : handlerMachine.Run (fun _ e => e ≠ .exit) (.initialized 0) _ _ :=
    Machine.run_exec touchRun (by simp [touchRun, Machine.Always])
  exact ⟨by decide +kernel, (hint_alternates hrun).1⟩

end AmlogicHal.DispPower
