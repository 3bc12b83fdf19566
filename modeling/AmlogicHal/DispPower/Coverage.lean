import AmlogicHal.DispPower.Handler
import Mathlib.Tactic.Ring

/-!
# How long the interaction hint lasts

Every `Acquire` asks for the hint for a number of milliseconds from now on, and may be skipped if
the outstanding request lasts longer. That is decided in whole milliseconds, from a difference of
clock readings that is off by less than one; `Routine` waits another 100 milliseconds before the
requested time counts, so this does not matter.

`acquire_covered`: as long as the display does not become idle and no system call fails, the hint is
outstanding for the whole time that any `Acquire` asks for, skipped or not.
-/

namespace AmlogicHal.DispPower

open Handler List

/-! ## Arithmetic -/

theorem finalDuration_eq (d : Int) : finalDuration d = max 1400 (min 5650 (d + 650)) := by
  unfold finalDuration maxDurationMs minDurationMs
  split
  · omega
  · split <;> omega

theorem calcTimespecDiffMs_bounds (a b : Nat) :
    calcTimespecDiffMs (.ofNs a) (.ofNs b) * nsPerMs < (b : Int) - a + nsPerMs ∧
      (b : Int) - a < calcTimespecDiffMs (.ofNs a) (.ofNs b) * nsPerMs + nsPerMs := by
  unfold calcTimespecDiffMs Timespec.ofNs nsPerMs
  dsimp only
  rcases le_total ((a : Int) % 1000000000) (b % 1000000000) with hle | hle
  · rw [Int.tdiv_eq_ediv_of_nonneg (by omega)]
    omega
  · obtain ⟨k, hk⟩ : ∃ k : Int, (b : Int) % 1000000000 - a % 1000000000 = -k :=
      ⟨(a : Int) % 1000000000 - b % 1000000000, by ring⟩
    rw [hk, Int.neg_tdiv, Int.tdiv_eq_ediv_of_nonneg (by omega)]
    omega

/-! ## The invariant -/

/-- The display does not become idle, no system call fails, and nobody calls `Exit`. The duration of
an `Acquire` is a 32-bit number that 650 can be added to. -/
def Undisturbed : HandlerStep → Prop
  | .acquire d => -2 ^ 31 ≤ d ∧ d + 650 < 2 ^ 31
  | .routine io => (io.poll = .event ∨ io.poll = .timeout) ∧ io.read = .busy
  | .advance _ => True
  | .exit => False

/-- Some `Acquire` has run since `Routine` last set the state to `WAITING`. -/
def acquiredSinceWaiting (h : HandlerHistory) : Bool :=
  h.foldl (fun acquired x =>
    if .enterWaiting ∈ x.2.obs then false
    else match x.1 with
      | .acquire _ => true
      | _ => acquired) false

theorem acquiredSinceWaiting_snoc (h : HandlerHistory) (x : HandlerStep × HandlerOutput) :
    acquiredSinceWaiting (h ++ [x]) =
      if .enterWaiting ∈ x.2.obs then false
      else match x.1 with
        | .acquire _ => true
        | _ => acquiredSinceWaiting h := by
  simp [acquiredSinceWaiting]

/-- How far the wait has come when the state is still `WAITING`; `last` is the time of the last
`Acquire` that was not skipped. -/
def Waited (last : Nat) (s : Handler) : Prop :=
  match s.routine with
  | .entering => True
  | .polling since t => t = s.durationMs ∧ last ≤ since
  | .reading t => t = s.durationMs ∧ last + waitMs * nsPerMs ≤ s.now
  | .pollingIdle since t => t = s.durationMs ∧ last + waitMs * nsPerMs ≤ since
  | .releasing => last + waitMs * nsPerMs + s.durationMs * nsPerMs ≤ s.now
  | .locking | .exited => False

/-- The time for which an `Acquire` of the history asks is over. -/
def Expired (s : Handler) (t : Nat) (d : Int) : Prop :=
  t + Handler.finalDuration d * nsPerMs < s.now

/-- The time for which an `Acquire` of the history asks is covered by the last one that was not
skipped, but for the error of a clock difference. -/
def Covered (last : Nat) (s : Handler) (t : Nat) (d : Int) : Prop :=
  t + Handler.finalDuration d * nsPerMs < last + s.durationMs * nsPerMs + nsPerMs

structure CoverInv (h : HandlerHistory) (s : Handler) (last : Nat) : Prop where
  lastTimespec : s.lastTimespec = .ofNs last
  last_le : last ≤ s.now
  initialized : s.state ≠ .uninitialized
  /-- Nothing is pending when `Routine` comes back to its lock. -/
  events : s.routine = .locking → s.events = 0
  pending : 0 < s.events → acquiredSinceWaiting h = true
  idle : s.state = .idle → s.routine = .locking
  waiting : s.state = .waiting → s.events = 0 ∧ Waited last s
  expired : s.state = .idle → ∀ x ∈ h, ∀ d, x.1 = .acquire d → Expired s x.2.time d
  covered : s.state ≠ .idle → ∀ x ∈ h, ∀ d, x.1 = .acquire d → Covered last s x.2.time d

/-! ## Steps -/

section Steps

variable {h : HandlerHistory} {s : Handler} {last : Nat}

theorem mem_of_acquire {e : HandlerStep} {out : HandlerOutput} {y : HandlerStep × HandlerOutput}
    {d : Int} (he : ∀ d, e ≠ .acquire d) (hy : y ∈ h ++ [(e, out)]) (hd : y.1 = .acquire d) :
    y ∈ h := by
  rcases mem_append.mp hy with hy | hy
  · exact hy
  · obtain rfl := mem_singleton.mp hy
    exact absurd hd (he d)

section

variable (hinv : CoverInv h s last)
include hinv

theorem CoverInv.skipped {d : Int} (hc : s.covered d = true) :
    CoverInv (h ++ [(.acquire d, ⟨s.now, []⟩)]) s last := by
  simp only [Handler.covered, decide_eq_true_eq] at hc
  obtain ⟨hidle, hle, helapsed⟩ := hc
  rw [hinv.lastTimespec] at helapsed
  refine { hinv with pending := fun _ => ?_, expired := fun hs => absurd hs hidle, covered := ?_ }
  · rw [acquiredSinceWaiting_snoc]
    simp
  · intro _ x hx d' hd'
    rcases mem_append.mp hx with hx | hx
    · exact hinv.covered hidle x hx d' hd'
    · obtain rfl := mem_singleton.mp hx
      obtain rfl := HandlerStep.acquire.inj hd'
      have hbounds := (calcTimespecDiffMs_bounds last s.now).2
      unfold Covered
      unfold nsPerMs at *
      dsimp only
      omega

theorem CoverInv.lastsLonger {d : Int} (hc : ¬ s.covered d = true) {x : HandlerStep × HandlerOutput}
    (hx : x ∈ h) {d' : Int} (hd' : x.1 = .acquire d') :
    x.2.time + finalDuration d' * nsPerMs < s.now + finalDuration d * nsPerMs + nsPerMs := by
  have hpos : 1400 ≤ finalDuration d := by
    rw [finalDuration_eq]
    omega
  by_cases hidle : s.state = .idle
  · have hexp := hinv.expired hidle x hx d' hd'
    unfold Expired nsPerMs at *
    omega
  · have hcov := hinv.covered hidle x hx d' hd'
    have hle := hinv.last_le
    have hbounds := (calcTimespecDiffMs_bounds last s.now).1
    simp only [Handler.covered, decide_eq_true_eq, hinv.lastTimespec, hidle, ne_eq,
      not_false_eq_true, true_and, not_and, not_le] at hc
    unfold Covered nsPerMs at *
    omega

theorem CoverInv.granted {d : Int} (hc : ¬ s.covered d = true) {obs : List HandlerObs}
    (hobs : .enterWaiting ∉ obs) {events : Nat} (hevents : s.routine = .locking → events = 0) :
    CoverInv (h ++ [(.acquire d, ⟨s.now, obs⟩)])
      ⟨.interaction, events, finalDuration d, .ofNs s.now, s.routine, s.now⟩ s.now where
  lastTimespec := rfl
  last_le := le_rfl
  initialized := nofun
  events := hevents
  pending _ := by simp [acquiredSinceWaiting_snoc, hobs]
  idle := nofun
  waiting := nofun
  expired := nofun
  covered := by
    intro _ x hx d' hd'
    rcases mem_append.mp hx with hx | hx
    · exact hinv.lastsLonger hc hx hd'
    · obtain rfl := mem_singleton.mp hx
      obtain rfl := HandlerStep.acquire.inj hd'
      unfold Covered nsPerMs
      dsimp only
      omega

theorem CoverInv.acquire (d : Int) :
    ∃ last', CoverInv (h ++ [(.acquire d, ⟨s.now, (s.acquire d).2⟩)]) (s.acquire d).1 last' := by
  unfold Handler.acquire
  split
  · next hc => exact ⟨last, hinv.skipped (hc.resolve_left hinv.initialized)⟩
  · next hc =>
    rw [not_or] at hc
    refine ⟨s.now, ?_⟩
    cases hs : s.state with
    | uninitialized => exact absurd hs hinv.initialized
    | idle => exact hinv.granted hc.2 (by simp) hinv.events
    | interaction => exact hinv.granted hc.2 (by simp) hinv.events
    | waiting =>
      -- `Routine` is not at its lock then, so the counter may be raised
      refine hinv.granted hc.2 (by simp) fun hl => ?_
      have hwaited := (hinv.waiting hs).2
      rw [Waited, hl] at hwaited
      exact hwaited.elim

theorem CoverInv.other (e : HandlerStep) (he : ∀ d, e ≠ .acquire d) {out : HandlerOutput}
    {s' : Handler} (hlast : s'.lastTimespec = s.lastTimespec) (hdur : s'.durationMs = s.durationMs)
    (hnow : s.now ≤ s'.now) (hinit : s'.state ≠ .uninitialized)
    (hevents : s'.routine = .locking → s'.events = 0)
    (hpending : 0 < s'.events → 0 < s.events ∧ .enterWaiting ∉ out.obs)
    (hidle : s'.state = .idle ↔ s.state = .idle)
    (hlocking : s.state = .idle → s'.routine = .locking)
    (hwaiting : s'.state = .waiting → s'.events = 0 ∧ Waited last s') :
    CoverInv (h ++ [(e, out)]) s' last where
  lastTimespec := hlast.trans hinv.lastTimespec
  last_le := hinv.last_le.trans hnow
  initialized := hinit
  events := hevents
  pending hpos := by
    obtain ⟨hold, hobs⟩ := hpending hpos
    rw [acquiredSinceWaiting_snoc, if_neg hobs]
    split
    · next d hd => exact absurd hd (he d)
    · exact hinv.pending hold
  idle hs := hlocking (hidle.mp hs)
  waiting := hwaiting
  expired := by
    intro hs y hy d hd
    have hexp := hinv.expired (hidle.mp hs) y (mem_of_acquire he hy hd) d hd
    unfold Expired at *
    omega
  covered := by
    intro hs y hy d hd
    have hcov := hinv.covered (fun hi => hs (hidle.mpr hi)) y (mem_of_acquire he hy hd) d hd
    unfold Covered at *
    rwa [hdur]

theorem CoverInv.advance (ns : Nat) (out : HandlerOutput) (hobs : out.obs = []) :
    CoverInv (h ++ [(.advance ns, out)]) { s with now := s.now + ns } last := by
  refine hinv.other (.advance ns) nofun rfl rfl (Nat.le_add_right _ _) hinv.initialized hinv.events
    (fun hpos => ⟨hpos, by simp [hobs]⟩) Iff.rfl hinv.idle fun hs => ?_
  obtain ⟨hev, hwaited⟩ := hinv.waiting hs
  refine ⟨hev, ?_⟩
  unfold Waited at *
  cases hr : s.routine with
  | reading t | releasing =>
    simp only [hr] at hwaited ⊢
    omega
  | polling since t | pollingIdle since t =>
    simp only [hr] at hwaited ⊢
    exact hwaited
  | entering => trivial
  | locking | exited => simp only [hr] at hwaited

theorem CoverInv.lockedWait (hl : s.routine = .locking) (io : RoutineIo) :
    CoverInv (h ++ [(.routine io, ⟨s.now, s.lockedWait.2⟩)]) s.lockedWait.1 last := by
  have hnone := hinv.events hl
  unfold Handler.lockedWait
  cases hs : s.state with
  | uninitialized => exact absurd hs hinv.initialized
  | idle =>
    exact hinv.other (.routine io) nofun rfl rfl le_rfl hinv.initialized hinv.events
      (fun hpos => ⟨hpos, by simp⟩) Iff.rfl hinv.idle hinv.waiting
  | interaction | waiting =>
    exact hinv.other (.routine io) nofun rfl rfl le_rfl nofun nofun
      (fun hpos => by simp [hnone] at hpos) (by simp [hs]) (by simp [hs]) fun _ => ⟨hnone, trivial⟩

theorem CoverInv.release (hr : s.routine = .releasing) (io : RoutineIo) :
    CoverInv (h ++ [(.routine io, ⟨s.now, s.release.2⟩)]) s.release.1 last := by
  have hnotIdle : s.state ≠ .idle := fun hs => by
    have hl := hinv.idle hs
    rw [hr] at hl
    cases hl
  unfold Handler.release
  split
  · next hs =>
    -- the time is over for every request
    obtain ⟨hev, hwaited⟩ := hinv.waiting hs
    rw [Waited, hr] at hwaited
    refine ⟨hinv.lastTimespec, hinv.last_le, nofun, fun _ => hev, fun hpos => ?_,
      fun _ => rfl, nofun,
      fun _ x hx d hd => ?_, fun hne => absurd rfl hne⟩
    · simp [hev] at hpos
    · have hcov := hinv.covered hnotIdle x (mem_of_acquire (e := .routine io) nofun hx hd) d hd
      unfold Covered at hcov
      unfold Expired
      unfold waitMs nsPerMs at *
      dsimp only at *
      omega
  · next hs =>
    exact hinv.other (.routine io) nofun rfl rfl le_rfl hinv.initialized (fun _ => rfl) (by simp)
      Iff.rfl (fun hi => absurd hi hnotIdle) fun hw => absurd hw hs

theorem CoverInv.moves {io : RoutineIo} {pc : RoutinePc} (hio : Undisturbed (.routine io))
    (hl : s.routine ≠ .locking) (hr : s.routine ≠ .releasing) (hm : Moves s io s.routine pc) :
    CoverInv (h ++ [(.routine io, ⟨s.now, []⟩)]) { s with routine := pc } last := by
  have hnotIdle : s.state ≠ .idle := fun hs => hl (hinv.idle hs)
  have hpc : pc ≠ .locking := by
    rintro rfl
    generalize s.routine = r at hm hl
    cases hm with
    | stay => exact hl rfl
  refine hinv.other (.routine io) nofun rfl rfl le_rfl hinv.initialized (fun h => absurd h hpc)
    (fun hpos => ⟨hpos, by simp⟩) Iff.rfl (fun hi => absurd hi hnotIdle) fun hs => ?_
  obtain ⟨hev, hwaited⟩ := hinv.waiting hs
  refine ⟨hev, ?_⟩
  have hpoll : io.poll ≠ .error ∧ io.poll ≠ .idle := by
    rcases hio.1 with hp | hp <;> simp [hp]
  have hle := hinv.last_le
  unfold Waited at *
  generalize s.routine = r at hm hwaited hl hr
  cases hm with
  | stay => exact hwaited
  | start => exact ⟨rfl, hle⟩
  | timedOut hpast => exact ⟨hwaited.1, by dsimp only at *; omega⟩
  | woken hw => simp [hpoll, hev] at hw
  | busy => exact ⟨hwaited.1, hwaited.2⟩
  | notBusy hread => exact absurd hio.2 hread
  | idleTimedOut hpast =>
    obtain ⟨rfl, hsince⟩ := hwaited
    dsimp only at *
    omega
  | idleWoken hw => simp [hpoll, hev] at hw

theorem CoverInv.step {e : HandlerStep} (he : Undisturbed e) :
    ∃ last', CoverInv (h ++ [(e, (handlerStep s e).2)]) (handlerStep s e).1 last' := by
  cases e with
  | acquire d => exact hinv.acquire d
  | advance ns => exact ⟨last, hinv.advance ns _ rfl⟩
  | exit => exact he.elim
  | routine io =>
    refine ⟨last, ?_⟩
    simp only [handlerStep]
    by_cases hl : s.routine = .locking
    · rw [routineStep_locking io hl]
      exact hinv.lockedWait hl io
    · by_cases hr : s.routine = .releasing
      · rw [routineStep_releasing io hr]
        exact hinv.release hr io
      · obtain ⟨pc, hm, hstep⟩ := routineStep_moves io hl hr
        rw [hstep]
        exact hinv.moves he hl hr hm

end

end Steps

/-! ## Runs -/

theorem Handler.initialized_coverInv (now : Nat) : CoverInv [] (.initialized now) 0 where
  lastTimespec := rfl
  last_le := Nat.zero_le _
  initialized := nofun
  events _ := rfl
  pending := nofun
  idle _ := rfl
  waiting := nofun
  expired _ := nofun
  covered _ := nofun

theorem Undisturbed.ne_exit {e : HandlerStep} (he : Undisturbed e) : e ≠ .exit := by
  rintro rfl
  exact he

/-- Nobody calls `Exit`. An abort is pending in the event counter only if some `Acquire` has run
since the state was set to `WAITING`. -/
theorem acquire_covered {now : Nat} {h : HandlerHistory} {s : Handler}
    (hrun : handlerMachine.Run (fun _ e => Undisturbed e) (.initialized now) h s) :
    (∀ x ∈ h, ∀ d, x.1 = .acquire d →
        s.now ≤ x.2.time + max 1400 (min 5650 (d + 650)) * nsPerMs → outstanding h = true) ∧
      (0 < s.events → acquiredSinceWaiting h = true) := by
  have hhint : HintInv h s := hrun.invariant HintInv ⟨nofun, rfl, rfl⟩
    fun _ _ _ hi he => hi.step he.ne_exit
  obtain ⟨last, hcover⟩ : ∃ last, CoverInv h s last :=
    hrun.invariant (fun h s => ∃ last, CoverInv h s last)
      ⟨0, initialized_coverInv now⟩ fun _ _ _ ⟨_, hi⟩ he => hi.step he
  refine ⟨fun x hx d hd hle => ?_, hcover.pending⟩
  rw [outstanding_eq, hhint.level]
  cases hs : s.state with
  | uninitialized => exact absurd hs hcover.initialized
  | idle =>
    have hexp := hcover.expired hs x hx d hd
    rw [Expired, finalDuration_eq] at hexp
    omega
  | interaction | waiting => rfl

/-- A second touch that is skipped because the first one lasts longer, and the wait of `Routine` to
the end of the time that the second one asks for. -/
def coveredRun : List HandlerStep :=
  [.acquire 1000, .routine ⟨.timeout, .busy⟩, .routine ⟨.timeout, .busy⟩, .advance 100000000,
    .routine ⟨.timeout, .busy⟩, .acquire 850, .routine ⟨.timeout, .busy⟩, .advance 1500000000,
    .routine ⟨.timeout, .busy⟩]

theorem acquire_covered_twice :
    let r := handlerMachine.exec (.initialized 0) coveredRun
    r.2.now = 1600000000 ∧ (HandlerStep.acquire 850, ⟨100000000, []⟩) ∈ r.1 ∧
      outstanding r.1 = true := by
  have hrun : handlerMachine.Run (fun _ e => Undisturbed e) (.initialized 0) _ _ :=
    Machine.run_exec coveredRun (by simp [coveredRun, Machine.Always, Undisturbed])
  have hskip : (HandlerStep.acquire 850, (⟨100000000, []⟩ : HandlerOutput)) ∈
      (handlerMachine.exec (.initialized 0) coveredRun).1 := by decide +kernel
  exact ⟨by decide +kernel, hskip, (acquire_covered hrun).1 _ hskip 850 rfl (by decide +kernel)⟩

end AmlogicHal.DispPower
