import AmlogicHal.ScreenSource.Custody

/-!
# Runs of the capture device

* `buffers_owned`: with one output at most and careful steps, no buffer is queued while a consumer
  holds it and none is lost.
* `bothOutputs_queuedWhileHeld`: one pass with both outputs, and `copied_delivered_queued` for every
  such pass.
* `failedCopy_lost`, `failedQbuf_lost`, `skippedCallback_lost`, `acquiredBesideOutput_lost`: what
  the steps do that are not careful.
-/

namespace AmlogicHal.ScreenSource

open View

/-! ## 1. Which threads there are -/

/-- Which threads there are. -/
structure Control (cfg : Outputs) (s : Vdin) : Prop where
  thread : s.workThread = true → cfg.any = true ∧ s.mOpen = true
  busy : s.worker ≠ .idle → s.workThread = true
  off : s.stopping = .off → s.workThread = false
  started : cfg.callBack = true → s.worker ≠ .idle → s.mState = .START
  acquirers : s.acquiring ≠ [] → cfg.any = false
  copies : ∀ i ∈ s.worker.window, cfg.nativeWindow = true

variable {cfg : Outputs} {s : Vdin} {k : Nat}

theorem control_init (count : Nat) : Control cfg (.init count) where
  thread h := by simp [Vdin.init] at h
  busy h := absurd rfl h
  off h := by simp [Vdin.init] at h
  started _ h := absurd rfl h
  acquirers h := absurd rfl h
  copies i h := by simp [Vdin.init, WorkerPc.window] at h

section

variable (h : Control cfg s)
include h

theorem Control.idle_of_closed (hopen : s.mOpen = false) : s.worker = .idle := by
  by_contra hbusy
  have hthread := h.thread (h.busy hbusy)
  rw [hopen] at hthread
  exact Bool.false_ne_true hthread.2

theorem Control.any_of_busy (hbusy : s.worker ≠ .idle) : cfg.any = true :=
  (h.thread (h.busy hbusy)).1

theorem Control.alone (hbusy : s.worker ≠ .idle) : s.acquiring = [] := by
  by_contra hne
  have hany := h.acquirers hne
  rw [h.any_of_busy hbusy] at hany
  exact Bool.false_ne_true hany.symm

theorem start_control (hcareful : s.mOpen = true ∨ s.stopping = .idle)
    (a : StartAnswers) : Control cfg (start cfg s a) := by
  rw [start]
  split
  · exact h
  · next hclosed =>
    have hopen : s.mOpen = false := by simpa using hclosed
    have hidle := h.idle_of_closed hopen
    obtain ⟨driver, bufIndex, refcount, ptr, bufs, heq⟩ := startV4l2Device_frame a s
    generalize startV4l2Device a s = started at heq
    obtain ⟨s', ok⟩ := started
    subst heq
    cases ok with
    | false => exact { h with }
    | true =>
      dsimp only
      split
      · exact { h with }
      · have hthread : s.workThread = false := by
          by_contra hthread
          have hboth := h.thread (by simpa using hthread)
          rw [hopen] at hboth
          exact Bool.false_ne_true hboth.2
        exact {
          thread := fun hany => ⟨by simpa [hthread] using hany, rfl⟩
          busy := fun hbusy => absurd hidle hbusy
          off := fun hoff => by simp_all
          started := fun _ _ => rfl
          acquirers := h.acquirers
          copies := h.copies }

end

theorem releaseBuffer_frame (s : Vdin) (ptr : Addr) (qbuf : Bool) :
    ∃ refcount driver aborted, releaseBuffer s ptr qbuf =
      { s with refcount := refcount, driver := driver, aborted := aborted } := by
  rw [releaseBuffer]
  split
  · exact ⟨_, _, _, rfl⟩
  · dsimp only
    split
    · split
      · exact ⟨_, _, _, rfl⟩
      · exact ⟨_, _, _, rfl⟩
    · exact ⟨_, _, _, rfl⟩

section

variable (h : Control cfg s)
include h

theorem release_control (ptr : Addr) (qbuf : Bool) : Control cfg (release s ptr qbuf) := by
  obtain ⟨refcount, driver, aborted, heq⟩ := releaseBuffer_frame s ptr qbuf
  rw [release, heq]
  split
  · exact { h with }
  · exact { h with }

theorem Control.worker (hbusy : s.worker ≠ .idle) {refcount : Nat → Nat} {driver : Driver}
    {bufIndex : Nat} {held : List Nat} {aborted : Bool} (worker : WorkerPc)
    (hcopies : ∀ i ∈ worker.window, cfg.nativeWindow = true) :
    Control cfg { s with
      refcount := refcount, driver := driver, bufIndex := bufIndex, held := held
      aborted := aborted, worker := worker } :=
  { h with
    busy := fun _ => h.busy hbusy
    started := fun hcall _ => h.started hcall hbusy
    copies := hcopies }

theorem Control.worker_noWindow (hbusy : s.worker ≠ .idle) {refcount : Nat → Nat} {driver : Driver}
    {bufIndex : Nat} {held : List Nat} {aborted : Bool} (worker : WorkerPc)
    (hwindow : worker.window = none) :
    Control cfg { s with
      refcount := refcount, driver := driver, bufIndex := bufIndex, held := held
      aborted := aborted, worker := worker } :=
  h.worker hbusy worker fun i hi => by
    rw [hwindow] at hi
    cases hi

theorem workerCheck_control : Control cfg (workerCheck s) := by
  rw [workerCheck]
  split
  · next hpass =>
    exact { h with
      busy := fun _ => hpass.1
      started := fun _ _ => hpass.2.2
      copies := by simp [WorkerPc.window] }
  · exact h

theorem workerDequeue_control (dqbuf : Option Nat) : Control cfg (workerDequeue s dqbuf) := by
  rw [workerDequeue]
  split
  · next hworker =>
    have hbusy : s.worker ≠ .idle := by simp [hworker]
    split
    · exact h.worker_noWindow hbusy _ rfl
    · exact h.worker_noWindow hbusy _ rfl
  · exact h

theorem workerLookup_control : Control cfg (workerLookup cfg s) := by
  rw [workerLookup]
  split
  · next k hworker =>
    have hbusy : s.worker ≠ .idle := by simp [hworker]
    rw [acquireTail, h.any_of_busy hbusy, if_pos rfl]
    dsimp only
    split
    · exact { h with }
    · split
      · next hnative => exact h.worker hbusy _ fun _ _ => hnative
      · exact h.worker_noWindow hbusy _ rfl
  · exact h

theorem workerCopy_control (window : Bool) : Control cfg (workerCopy s window) := by
  rw [workerCopy]
  split
  · next index src hworker =>
    have hbusy : s.worker ≠ .idle := by simp [hworker]
    have hnative : cfg.nativeWindow = true := h.copies index (by rw [hworker]; rfl)
    split
    · exact h.worker hbusy _ fun _ _ => hnative
    · exact h.worker hbusy _ fun _ _ => hnative
  · exact h

theorem workerRelease_control (qbuf : Bool) : Control cfg (workerRelease s qbuf) := by
  rw [workerRelease]
  split
  · next index src hworker =>
    have hbusy : s.worker ≠ .idle := by simp [hworker]
    obtain ⟨refcount, driver, aborted, heq⟩ := releaseBuffer_frame s src qbuf
    rw [heq]
    split
    · exact { h with }
    · exact h.worker_noWindow hbusy _ rfl
  · exact h

theorem workerDeliver_control : Control cfg (workerDeliver cfg s) := by
  rw [workerDeliver]
  split
  · next index hworker =>
    have hbusy : s.worker ≠ .idle := by simp [hworker]
    split
    · exact h.worker_noWindow hbusy _ rfl
    · exact h.worker_noWindow hbusy _ rfl
  · exact h

theorem stop_control (hcareful : cfg.callBack = true → s.worker = .idle) :
    Control cfg (stop s) := by
  rw [stop]
  split
  · exact { h with
      off := fun hoff => by simp at hoff
      started := fun hcall hbusy => absurd (hcareful hcall) hbusy }
  · exact h

theorem stopStream_control (streamoff : Bool) : Control cfg (stopStream s streamoff) := by
  rw [stopStream]
  split
  · next hidle =>
    exact { h with
      thread := fun hthread => by simp at hthread
      busy := fun hbusy => absurd hidle.2 hbusy
      off := fun _ => rfl }
  · exact h

theorem stopBuffers_control (reqbufs : Bool) : Control cfg (stopBuffers s reqbufs) := by
  rw [stopBuffers]
  split
  · next hoff =>
    have hgone := h.off hoff
    have hidle : ¬ s.worker ≠ .idle := fun hbusy => by simp [h.busy hbusy] at hgone
    exact { h with
      thread := fun hthread => by simp [hgone] at hthread
      off := fun hoff => by simp at hoff
      started := fun _ hbusy => absurd hbusy hidle }
  · exact h

theorem react_control (e : Event) (hcareful : Careful cfg s e) : Control cfg (react cfg s e) := by
  cases e with
  | start a => exact start_control h (hcareful.imp_right And.left) a
  | pause => exact { h with started := fun hcall hbusy => absurd (hcareful hcall) hbusy }
  | stop => exact stop_control h hcareful
  | stopStream streamoff => exact stopStream_control h streamoff
  | stopBuffers reqbufs => exact stopBuffers_control h reqbufs
  | acquire dqbuf =>
    rw [react, acquire]
    split
    · exact h
    · exact { h with acquirers := fun _ => hcareful.1 }
  | acquired k =>
    rw [react, acquired]
    split
    · next hk =>
      have hany := h.acquirers (List.ne_nil_of_mem hk)
      rw [acquireTail, hany, if_neg Bool.false_ne_true]
      exact { h with acquirers := fun _ => hany }
    · exact h
  | release ptr qbuf => exact release_control h ptr qbuf
  | workerCheck => exact workerCheck_control h
  | workerDequeue dqbuf => exact workerDequeue_control h dqbuf
  | workerLookup => exact workerLookup_control h
  | workerCopy window => exact workerCopy_control h window
  | workerRelease qbuf => exact workerRelease_control h qbuf
  | workerDeliver => exact workerDeliver_control h

end

theorem react_custody (h : Custody cfg s) (hcontrol : Control cfg s)
    (hone : cfg.nativeWindow = false ∨ cfg.callBack = false) (e : Event)
    (hcareful : Careful cfg s e) : Custody cfg (react cfg s e) := by
  cases e with
  | start a => exact start_custody a h hcontrol.idle_of_closed (hcareful.imp_right And.right)
  | pause => exact { h with }
  | stop =>
    rw [react, stop]
    split
    · exact { h with }
    · exact h
  | stopStream streamoff => exact stopStream_custody h streamoff
  | stopBuffers reqbufs => exact stopBuffers_custody h reqbufs
  | acquire dqbuf =>
    refine acquire_custody h hcareful.2 ?_ dqbuf
    by_contra hbusy
    have hany := hcontrol.any_of_busy hbusy
    rw [hcareful.1] at hany
    exact Bool.false_ne_true hany
  | acquired k => exact acquired_custody h hcontrol.acquirers k
  | release ptr qbuf =>
    obtain ⟨hheld, rfl⟩ := hcareful
    exact release_custody h hheld
  | workerCheck => exact workerCheck_custody h
  | workerDequeue dqbuf => exact workerDequeue_custody h hcontrol.alone dqbuf
  | workerLookup => exact workerLookup_custody h hcontrol.any_of_busy
  | workerCopy window =>
    obtain rfl : window = true := hcareful
    exact workerCopy_custody h
  | workerRelease qbuf =>
    obtain rfl : qbuf = true := hcareful
    exact workerRelease_custody h hcontrol.copies
  | workerDeliver => exact workerDeliver_custody h hone hcontrol.any_of_busy hcontrol.started

/-! ## 2. Careful runs -/

theorem buffers_owned (hone : cfg.nativeWindow = false ∨ cfg.callBack = false) (mBufferCount : Nat)
    (events : List Event)
    (hcareful : (vdinMachine cfg).Always (Careful cfg) (.init mBufferCount) events) :
    (vdinMachine cfg).Always (KeepsOwned cfg) (.init mBufferCount) events := by
  refine Machine.Always.of_invariant (I := fun s => Control cfg s ∧ Custody cfg s) ?_
    ⟨control_init mBufferCount, custody_init mBufferCount⟩ hcareful
  rintro s e ⟨hcontrol, hcustody⟩ hcareful
  have hkept : Control cfg ((vdinMachine cfg).step s e).1 ∧
      Custody cfg ((vdinMachine cfg).step s e).1 := by
    rw [vdinMachine]
    dsimp only
    split
    · exact ⟨hcontrol, hcustody⟩
    · exact ⟨react_control hcontrol e hcareful, react_custody hcustody hcontrol hone e hcareful⟩
  exact ⟨hkept.2.owned, hkept⟩

def everyCallSucceeds : StartAnswers where
  querycap := true
  reqbufs := true
  querybuf := fun _ => true
  mmap := fun _ => true
  mem := ⟨fun i => 0x1000 * (i + 1),
    fun _ _ h => Nat.succ.inj (Nat.eq_of_mul_eq_mul_left (by decide) h)⟩
  qbuf := fun _ => true
  streamon := true
  initNativeWindow := true

/-- Two frames through the callback. The client still holds the second one when the device is
stopped. -/
theorem buffers_owned_callback :
    (vdinMachine ⟨false, true⟩).Always (KeepsOwned ⟨false, true⟩) (.init 4)
      [.start everyCallSucceeds, .workerCheck, .workerDequeue (some 2), .workerLookup,
        .workerDeliver, .release 0x3000 true, .workerCheck, .workerDequeue (some 2), .workerLookup,
        .workerDeliver, .stop, .stopStream true, .stopBuffers true] :=
  buffers_owned (.inl rfl) 4 _ (by decide)

/-! ## 3. How the other runs go wrong -/

/-- The copy into the window is the last reference when it is released. -/
theorem copied_delivered_queued (hcall : cfg.callBack = true) {src : Addr}
    (hworker : s.worker = .copied k src) (hsrc : s.bufs src = some k)
    (hlast : s.refcount k = 1) (haccepts : s.driver.accepts true k = true)
    (hstate : s.mState = .START) : ¬ Owned cfg (workerDeliver cfg (workerRelease s true)) := by
  intro howned
  have hrelease : workerRelease s true = { s with
      refcount := Function.update s.refcount k 0
      driver := s.driver.qbuf true k
      worker := .delivering k } := by
    simp [workerRelease, hworker, hsrc, releaseBuffer_last hsrc hlast]
  rw [hrelease, workerDeliver] at howned
  dsimp only at howned
  rw [if_pos ⟨hcall, hstate⟩] at howned
  refine (howned k).1 ?_ (.inl List.mem_cons_self)
  simp [Vdin.retain, Driver.qbuf, haccepts]

theorem bothOutputs_queuedWhileHeld :
    ¬ (vdinMachine ⟨true, true⟩).Always (KeepsOwned ⟨true, true⟩) (.init 4)
      [.start everyCallSucceeds, .workerCheck, .workerDequeue (some 0), .workerLookup,
        .workerCopy true, .workerRelease true, .workerDeliver] := by
  rintro ⟨-, -, -, -, -, -, hlast, -⟩
  exact (hlast 0).1 (by decide) (.inl (by decide))

theorem not_owned_of_lost (hstream : s.driver.streaming = true) (hk : s.driver.dequeued k = true)
    (hclients : (view cfg s k).clients = 0) (hcalls : (view cfg s k).calls = 0)
    (hcopies : (view cfg s k).copies = 0) : ¬ Owned cfg s := by
  intro howned
  cases (howned k).2 hstream hk with
  | inl hheld => simp [held_iff cfg, hclients, hcopies] at hheld
  | inr hcall => simp [inFlight_iff, hcalls] at hcall

variable (h : Custody cfg s)
include h

/-- A copy into the window that fails ends the pass without a release. -/
theorem failedCopy_lost {src : Addr} (hworker : s.worker = .copying k src)
    (hstream : s.driver.streaming = true) (hk : s.driver.dequeued k = true) :
    ¬ Owned cfg (workerCopy s false) := by
  obtain ⟨d, hv⟩ := h.of_window (by rw [hworker]; rfl)
  have hclients : s.held.count k = 0 := congrArg clients hv
  have hcalls : s.acquiring.count k + (s.worker.carried cfg).toList.count k = 0 := congrArg calls hv
  rw [hworker] at hcalls
  rw [workerCopy, hworker]
  exact not_owned_of_lost hstream hk hclients hcalls rfl

/-- A buffer the driver does not take back is not tried again. -/
theorem failedQbuf_lost (hheld : k ∈ s.held) {ptr : Addr}
    (hptr : s.bufs ptr = some k) (hstream : s.driver.streaming = true)
    (hk : s.driver.dequeued k = true) : ¬ Owned cfg (release s ptr false) := by
  obtain ⟨d, hv⟩ := h.of_held hheld
  have hcount : s.held.count k = 1 := congrArg clients hv
  have hrelease : release s ptr false = { s with
      refcount := Function.update s.refcount k 0, held := s.held.erase k } := by
    simp only [release, hptr, releaseBuffer_last hptr (congrArg refcount hv)]
    simp [Driver.qbuf, Driver.accepts]
  rw [hrelease]
  refine not_owned_of_lost hstream hk ?_ (congrArg calls hv) (congrArg copies hv)
  simp [view, hcount]

/-- A callback that is skipped because the device is being stopped leaves the frame with nobody. -/
theorem skippedCallback_lost (hwindow : cfg.nativeWindow = false)
    (hworker : s.worker = .delivering k) (hstate : s.mState ≠ .START)
    (hstream : s.driver.streaming = true) (hk : s.driver.dequeued k = true) :
    ¬ Owned cfg (workerDeliver cfg s) := by
  obtain ⟨d, hv⟩ := h.of_inFlight (k := k) (.inr (by simp [hworker, WorkerPc.carried, hwindow]))
  have hclients : s.held.count k = 0 := congrArg clients hv
  have hcalls : s.acquiring.count k + (s.worker.carried cfg).toList.count k = 1 := congrArg calls hv
  simp only [hworker, WorkerPc.carried, hwindow, Bool.false_eq_true, if_false, Option.toList_some,
    List.count_singleton_self, Nat.add_eq_right] at hcalls
  rw [workerDeliver, hworker]
  dsimp only
  rw [if_neg fun hdeliver => hstate hdeliver.2]
  exact not_owned_of_lost hstream hk hclients hcalls rfl

/-- With an output configured, `acquire_buffer` counts no reference for its client, so the client's
release does nothing. -/
theorem acquiredBesideOutput_lost (hany : cfg.any = true)
    (hcall : k ∈ s.acquiring) (hptr : s.bufs (s.ptr k) = some k)
    (hstream : s.driver.streaming = true) (hk : s.driver.dequeued k = true) (qbuf : Bool) :
    ¬ Owned cfg (release (acquired cfg s k) (s.ptr k) qbuf) := by
  obtain ⟨d, hv⟩ := h.of_inFlight (.inl hcall)
  have hrefcount : s.refcount k = 0 := congrArg refcount hv
  have hclients : s.held.count k = 0 := congrArg clients hv
  have hcalls : s.acquiring.count k + (s.worker.carried cfg).toList.count k = 1 := congrArg calls hv
  have hcopies : s.worker.window.toList.count k = 0 := congrArg copies hv
  have hcount : 0 < s.acquiring.count k := List.count_pos_iff.mpr hcall
  have hrelease : release (acquired cfg s k) (s.ptr k) qbuf =
      { s with acquiring := s.acquiring.erase k } := by
    simp [acquired, hcall, acquireTail, hany, release, releaseBuffer, hptr, hrefcount, h.index k _]
  rw [hrelease]
  refine not_owned_of_lost hstream hk hclients ?_ hcopies
  simp only [view, List.count_erase_self]
  omega

end AmlogicHal.ScreenSource
