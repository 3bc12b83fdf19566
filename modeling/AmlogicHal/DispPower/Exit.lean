import AmlogicHal.DispPower.Handler

/-!
# What `Exit` leaves behind

`Exit` sets the state to `UNINITIALIZED`, wakes the thread `Routine` and waits for its end.
`Release` ends the hint in the state `WAITING` only, which `Exit` has overwritten, so no hint is
ended from then on.

1. `exit_endsHint_iff`: in every interleaving, every `DoHint` has been followed by an `EndHint`
   exactly if `Exit` found the state `IDLE`.
2. `exit_leavesHint`: a touch and an `Exit` right after it. `Exit` returns, and the hint stays.
-/

namespace AmlogicHal.DispPower

open Handler List

/-- Every `DoHint` has been followed by an `EndHint`. -/
def HintsEnded (h : HandlerHistory) : Prop :=
  ∀ before after, hintCalls h = before ++ .doHint :: after → .endHint ∈ after

theorem hintsEnded_iff (h : HandlerHistory) : HintsEnded h ↔ outstanding h = false := by
  constructor
  · intro hended
    by_contra hout
    have hlast : (hintCalls h).getLast? = some .doHint := by simpa [outstanding] using hout
    obtain ⟨before, hcalls⟩ := getLast?_eq_some_iff.mp hlast
    exact absurd (hended before [] hcalls) not_mem_nil
  · intro hout before after hcalls
    cases hafter : after.getLast? with
    | none =>
      -- then this `DoHint` would be the last call
      have hnil := getLast?_eq_none_iff.mp hafter
      simp [outstanding, hcalls, hnil] at hout
    | some c =>
      have hmem := mem_of_getLast? hafter
      have hc : c ∈ hintCalls h := by simp [hcalls, hmem]
      have hlast : (hintCalls h).getLast? = some c := by
        rw [hcalls, getLast?_append, getLast?_cons, hafter]
        rfl
      cases c with
      | endHint => exact hmem
      | doHint => simp [outstanding, hlast] at hout
      | enterWaiting => simp [hintCalls] at hc

/-! ## After `Exit` -/

/-- What holds from `Exit` on. -/
structure AfterExit (h : HandlerHistory) (s : Handler) : Prop where
  state : s.state = .uninitialized
  silent : hintCalls h = []

theorem routineStep_uninitialized (io : RoutineIo) {s : Handler} (hs : s.state = .uninitialized) :
    (routineStep io s).1.state = .uninitialized ∧ (routineStep io s).2 = [] := by
  by_cases hl : s.routine = .locking
  · simp [routineStep_locking io hl, lockedWait, hs]
  · by_cases hr : s.routine = .releasing
    · -- `Release` finds another state than the one in which it ends the hint
      simp [routineStep_releasing io hr, release, hs]
    · obtain ⟨pc, -, hstep⟩ := routineStep_moves io hl hr
      simp [hstep, hs]

theorem AfterExit.step {h : HandlerHistory} {s : Handler} (hi : AfterExit h s) (e : HandlerStep) :
    AfterExit (h ++ [(e, (handlerStep s e).2)]) (handlerStep s e).1 := by
  have hstep : (handlerStep s e).1.state = .uninitialized ∧ (handlerStep s e).2.obs = [] := by
    cases e with
    | acquire duration => simp [handlerStep, acquire, hi.state]
    | routine io => exact routineStep_uninitialized io hi.state
    | advance ns => exact ⟨hi.state, rfl⟩
    | exit => simp [handlerStep, exit, hi.state]
  exact ⟨hstep.1, by simp [hintCalls_snoc, hi.silent, hstep.2]⟩

theorem Handler.exit_state (s : Handler) : s.exit.state = .uninitialized := by
  unfold exit
  split
  · assumption
  · rfl

/-- Up to `Exit` and from `Exit` on, whether it has returned by then or not. -/
theorem exit_endsHint_iff {now : Nat} {h h' : HandlerHistory} {s s' : Handler}
    (hrun : handlerMachine.Run (fun _ e => e ≠ .exit) (.initialized now) h s)
    (hrun' : handlerMachine.Run (fun _ _ => True) s.exit h' s') :
    HintsEnded (h ++ (.exit, ⟨s.now, []⟩) :: h') ↔ s.state = .idle := by
  have hinv : HintInv h s := hrun.invariant HintInv ⟨fun hstate => (by cases hstate), rfl, rfl⟩
    fun _ _ _ hi he => hi.step he
  have hexit : AfterExit h' s' := hrun'.invariant AfterExit ⟨s.exit_state, rfl⟩
    fun _ _ e hi _ => hi.step e
  have hcalls : hintCalls (h ++ (.exit, ⟨s.now, []⟩) :: h') = hintCalls h := by
    have hsilent := hexit.silent
    unfold hintCalls at hsilent ⊢
    rw [flatMap_append, flatMap_cons, filter_append, filter_append, hsilent]
    simp
  have hlevel : outstanding (h ++ (.exit, ⟨s.now, []⟩) :: h') = s.state.active := by
    rw [← hinv.level, ← outstanding_eq, outstanding, outstanding, hcalls]
  rw [hintsEnded_iff, hlevel]
  cases hs : s.state with
  | uninitialized => exact absurd hs hinv.initialized
  | idle | interaction | waiting => simp [InteractionState.active]

/-- `Exit` after a touch whose time is over. -/
theorem exit_endsHint_touch :
    let r := handlerMachine.exec (.initialized 0) touchRun
    let r' := handlerMachine.exec r.2.exit [.routine ⟨.timeout, .busy⟩]
    r'.2.routine = .exited ∧ HintsEnded (r.1 ++ (.exit, ⟨r.2.now, []⟩) :: r'.1) := by
  intro r r'
  have hrun : handlerMachine.Run (fun _ e => e ≠ .exit) (.initialized 0) r.1 r.2 :=
    Machine.run_exec touchRun (by simp [touchRun, Machine.Always])
  have hrun' : handlerMachine.Run (fun _ _ => True) r.2.exit r'.1 r'.2 :=
    Machine.run_exec [HandlerStep.routine ⟨.timeout, .busy⟩] ⟨trivial, trivial⟩
  have hidle : r.2.state = .idle := by decide +kernel
  exact ⟨by decide +kernel, (exit_endsHint_iff hrun hrun').mpr hidle⟩

theorem exit_leavesHint :
    let r := handlerMachine.exec (.initialized 0)
      [.acquire 100, .exit, .routine ⟨.timeout, .busy⟩]
    r.2.routine = .exited ∧ hintCalls r.1 = [.doHint] ∧ ¬ HintsEnded r.1 := by
  refine ⟨by decide +kernel, by decide +kernel, fun hended => ?_⟩
  rw [hintsEnded_iff] at hended
  revert hended
  decide +kernel

end AmlogicHal.DispPower
