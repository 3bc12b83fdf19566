import AmlogicHal.Lib.Machine
import Mathlib.Logic.Function.Basic

/-!
# The exit flag of a thread

`amthreadpool.c` asks a thread to exit with `on_required_exit`, which cancel and uncancel write
under the thread's mutex. Wake reads the flag without the mutex and writes the value back under it,
and the sleeping thread counts the flag down without the mutex.

Every unlocked read, unlocked write and locked section is a step here, for any number of wakes,
cancels and uncancels at once. A command is settled when it is complete and no opposite one has been
issued.

* `exitFlag_settled`: the flag says what the settled command asked for as long as commands are
  carried out while no wake or sleep is under way, and wakes while no sleep is counting down.
* `wake_losesCancel`, `sleep_resurrectsCancel`, `wakes_loseCancel`: each of these conditions is
  needed.
-/

namespace AmlogicHal.Media

/-! ## The model -/

/-- Where the thread is in `amthreadpool_thread_usleep_in`: it has seen a flag above one, or it has
read the value to decrement. -/
inductive Sleep where
  | awake
  | checked
  | loaded (value : Int)
deriving DecidableEq

/-- The flag, the values that wakes have read and not yet written, the issued commands (`true` for a
cancel) and the settled one. -/
structure ExitFlag where
  onRequiredExit : Int
  wakes : List Int
  sleep : Sleep
  issued : Bool → Nat
  settled : Option Bool

def ExitFlag.initial : ExitFlag := ⟨0, [], .awake, fun _ => 0, none⟩

/-- The atomic steps: of `amthreadpool_thread_wake` the read and the locked section (of the wake at
a place of the list), of `amthreadpool_thread_usleep_in` the comparison and the two accesses of the
decrement, of a command the call and the locked section. -/
inductive FlagStep where
  | wakeRead
  | wakeSection (i : Nat)
  | sleepCheck
  | sleepLoad
  | sleepStore
  | issue (cancel : Bool)
  | command (cancel : Bool)
deriving DecidableEq

/-- What `amthreadpool_pool_thread_cancel_l1` is called with. -/
def commandValue (cancel : Bool) : Int := if cancel then 3 else 0

namespace ExitFlag

def step (s : ExitFlag) : FlagStep → ExitFlag
  | .wakeRead => { s with wakes := s.wakes ++ [s.onRequiredExit] }
  | .wakeSection i =>
    match s.wakes[i]? with
    | some value => { s with onRequiredExit := value, wakes := s.wakes.eraseIdx i }
    | none => s
  | .sleepCheck =>
    if s.sleep = .awake ∧ s.onRequiredExit > 1 then { s with sleep := .checked } else s
  | .sleepLoad =>
    if s.sleep = .checked then { s with sleep := .loaded s.onRequiredExit } else s
  | .sleepStore =>
    match s.sleep with
    | .loaded value => { s with onRequiredExit := value - 1, sleep := .awake }
    | _ => s
  | .issue cancel =>
    { s with
      issued := Function.update s.issued cancel (s.issued cancel + 1)
      settled := if s.settled = some !cancel then none else s.settled }
  | .command cancel =>
    if s.issued cancel = 0 then s
    else
      { s with
        onRequiredExit := commandValue cancel
        issued := Function.update s.issued cancel (s.issued cancel - 1)
        settled := if s.issued (!cancel) = 0 then some cancel else none }

def onRequireExit (s : ExitFlag) : Bool := s.onRequiredExit ≠ 0

end ExitFlag

def flagMachine : Machine ExitFlag FlagStep Unit where
  step s e := (s.step e, ())

/-! ## What the flag says -/

/-- The flag says what the settled command asked for. -/
def ExitFlag.Obeys (s : ExitFlag) : Prop :=
  ∀ cancel, s.settled = some cancel → s.onRequireExit = cancel

def ObeysSettled (s : ExitFlag) (e : FlagStep) : Prop := (s.step e).Obeys

/-- Commands are carried out while no wake and no sleep is under way, and wakes while no sleep
is. -/
def Apart (s : ExitFlag) : FlagStep → Prop
  | .command _ => s.wakes = [] ∧ s.sleep = .awake
  | .wakeSection _ => s.sleep = .awake
  | _ => True

/-- With the steps apart, a wake holds a value that says the same as the flag, and the flag is what
the sleep has seen. -/
structure FlagInv (s : ExitFlag) : Prop where
  obeys : s.Obeys
  wakes : ∀ value ∈ s.wakes, value ≠ 0 ↔ s.onRequiredExit ≠ 0
  checked : s.sleep = .checked → s.onRequiredExit > 1
  loaded : ∀ value, s.sleep = .loaded value → value > 1 ∧ s.onRequiredExit = value

theorem flagInv_initial : FlagInv .initial where
  obeys := fun _ h => by cases h
  wakes := fun _ h => by cases h
  checked := fun h => by cases h
  loaded := fun _ h => by cases h

/-- A flag that keeps saying the same satisfies the settled command still. -/
theorem ExitFlag.Obeys.congr {s s' : ExitFlag} (h : s.Obeys)
    (hflag : s'.onRequiredExit ≠ 0 ↔ s.onRequiredExit ≠ 0)
    (hsettled : ∀ cancel, s'.settled = some cancel → s.settled = some cancel) : s'.Obeys := by
  intro cancel hcancel
  rw [← h cancel (hsettled cancel hcancel)]
  exact decide_eq_decide.mpr hflag

theorem FlagInv.step {s : ExitFlag} (h : FlagInv s) {e : FlagStep} (hapart : Apart s e) :
    FlagInv (s.step e) := by
  cases e with
  | wakeRead =>
    refine ⟨h.obeys, fun value hvalue => ?_, h.checked, h.loaded⟩
    rcases List.mem_append.mp hvalue with hold | hnew
    · exact h.wakes value hold
    · rw [List.mem_singleton.mp hnew]
      exact Iff.rfl
  | wakeSection i =>
    simp only [ExitFlag.step]
    cases hget : s.wakes[i]? with
    | none => exact h
    | some value =>
      have hsame := h.wakes value (List.mem_of_getElem? hget)
      refine ⟨h.obeys.congr hsame fun _ hc => hc, fun other hother => ?_, ?_, ?_⟩
      · exact (h.wakes other (List.mem_of_mem_eraseIdx hother)).trans hsame.symm
      · exact fun hc => absurd (hc.symm.trans hapart) (by decide)
      · exact fun v hl => absurd (hl.symm.trans hapart) (by simp)
  | sleepCheck =>
    simp only [ExitFlag.step]
    split
    · next hsee => exact ⟨h.obeys, h.wakes, fun _ => hsee.2, fun _ hl => by cases hl⟩
    · exact h
  | sleepLoad =>
    simp only [ExitFlag.step]
    split
    · next hchecked =>
      refine ⟨h.obeys, h.wakes, fun hc => (by cases hc), fun value hl => ?_⟩
      cases hl
      exact ⟨h.checked hchecked, rfl⟩
    · exact h
  | sleepStore =>
    simp only [ExitFlag.step]
    split
    · next value hloaded =>
      obtain ⟨hvalue, hflag⟩ := h.loaded value hloaded
      have hsame : value - 1 ≠ 0 ↔ s.onRequiredExit ≠ 0 := by omega
      refine ⟨h.obeys.congr hsame fun _ hc => hc, fun other hother => ?_, fun hc => (by cases hc),
        fun _ hl => by cases hl⟩
      exact (h.wakes other hother).trans hsame.symm
    · exact h
  | issue cancel =>
    refine ⟨h.obeys.congr Iff.rfl fun c hc => ?_, h.wakes, h.checked, h.loaded⟩
    change (if s.settled = some !cancel then none else s.settled) = some c at hc
    split at hc
    · cases hc
    · exact hc
  | command cancel =>
    simp only [ExitFlag.step]
    split
    · exact h
    · obtain ⟨hwakes, hsleep⟩ := hapart
      refine ⟨fun c hc => ?_, fun value hvalue => ?_, fun hc => ?_, fun value hl => ?_⟩
      · change (if s.issued (!cancel) = 0 then some cancel else none) = some c at hc
        split at hc
        · cases hc
          cases cancel <;> rfl
        · cases hc
      · exact absurd (hwakes ▸ hvalue) List.not_mem_nil
      · exact absurd (hc.symm.trans hsleep) (by decide)
      · exact absurd (hl.symm.trans hsleep) (by simp)

theorem exitFlag_settled (es : List FlagStep) (h : flagMachine.Always Apart .initial es) :
    flagMachine.Always ObeysSettled .initial es :=
  Machine.Always.of_invariant (I := FlagInv)
    (fun _ _ hs hapart => ⟨(hs.step hapart).obeys, hs.step hapart⟩) flagInv_initial h

/-- The thread is cancelled, woken, and sleeps until the flag is one. -/
theorem cancelled_staysCancelled :
    let es : List FlagStep := [.issue true, .command true, .wakeRead, .wakeSection 0, .sleepCheck,
      .sleepLoad, .sleepStore, .sleepCheck, .sleepLoad, .sleepStore, .sleepCheck]
    flagMachine.Always Apart .initial es ∧ flagMachine.Always ObeysSettled .initial es := by
  intro es
  have hapart : flagMachine.Always Apart .initial es := by
    simp [es, Machine.Always, Apart, flagMachine, ExitFlag.step, ExitFlag.initial]
  exact ⟨hapart, exitFlag_settled es hapart⟩

/-- A wake reads the flag before a cancel and writes it back after. -/
theorem wake_losesCancel :
    let s := (flagMachine.exec .initial
      [.wakeRead, .issue true, .command true, .wakeSection 0]).2
    s.settled = some true ∧ s.onRequireExit = false := by
  decide

/-- A sleep reads the flag before an uncancel and writes it back after. -/
theorem sleep_resurrectsCancel :
    let s := (flagMachine.exec .initial
      [.issue true, .command true, .sleepCheck, .sleepLoad, .issue false, .command false,
        .sleepStore]).2
    s.settled = some false ∧ s.onRequireExit = true := by
  decide

/-- The first wake sets the flag of a cancelled thread back to three for the comparison, and the
second to one for the decrement. -/
theorem wakes_loseCancel :
    let s := (flagMachine.exec .initial
      [.issue true, .command true, .wakeRead, .sleepCheck, .sleepLoad, .sleepStore, .sleepCheck,
        .sleepLoad, .sleepStore, .wakeRead, .wakeSection 0, .sleepCheck, .wakeSection 0, .sleepLoad,
        .sleepStore]).2
    s.settled = some true ∧ s.onRequireExit = false := by
  decide

end AmlogicHal.Media
