import AmlogicHal.ScreenSource.Vdin

/-!
# Every buffer has one custodian

What the device knows about a buffer is spread over the driver's queue, the reference counts and the
calls that are under way; `view` puts it together. A buffer is with nobody, with the driver, with
the call that dequeued it, with the window or with a client, and each of these has its own view.

* `Custody`: every buffer has one of these views. It gives `Owned`.
* `Custody.take`, `Custody.pass`, `Custody.giveBack`: the ways a buffer changes hands, all of them
  `Custody.move`: one buffer moves, and the others stay.
* `Custody.withdraw`: the driver gives up all its buffers.
* One lemma for each step of the device, with the part of `Careful` it needs.
-/

namespace AmlogicHal.ScreenSource

open WorkerPc Function List

/-! ## 1. Custodians -/

/-- What the device knows about one buffer: its place in the driver, its count, the references of
clients, the calls that have dequeued it and the copies into the window. -/
structure View where
  queued : Bool
  dequeued : Bool
  refcount : Nat
  clients : Nat
  calls : Nat
  copies : Nat

open View

def view (cfg : Outputs) (s : Vdin) (i : Nat) : View where
  queued := s.driver.queued i
  dequeued := s.driver.dequeued i
  refcount := s.refcount i
  clients := s.held.count i
  calls := s.acquiring.count i + (s.worker.carried cfg).toList.count i
  copies := s.worker.window.toList.count i

/-- Who has a buffer: nobody, the driver, the call that dequeued it, the window or a client. -/
inductive Custodian
  | nobody
  | driver
  | call
  | window
  | client

/-- What a buffer looks like with its custodian. `dequeued` tells whether it was dequeued from the
stream that is on: a consumer may keep a buffer for longer. -/
def Custodian.view (dequeued : Bool) : Custodian → View
  | .nobody => ⟨false, false, 0, 0, 0, 0⟩
  | .driver => ⟨true, false, 0, 0, 0, 0⟩
  | .call => ⟨false, dequeued, 0, 0, 1, 0⟩
  | .window => ⟨false, dequeued, 1, 0, 0, 1⟩
  | .client => ⟨false, dequeued, 1, 1, 0, 0⟩

structure Custody (cfg : Outputs) (s : Vdin) : Prop where
  custodian : ∀ i, ∃ c d, view cfg s i = Custodian.view d c
  allocated : ∀ i, s.driver.queued i = true ∨ s.driver.dequeued i = true → i < s.driver.allocated
  /-- The address of a buffer that somebody has leads back to it, as long as the device knows it. -/
  known : ∀ i d, view cfg s i ≠ Custodian.view d .nobody → ∀ j ∈ s.bufs (s.ptr i), j = i
  /-- The shared index is that of the call between its ioctl and its return. -/
  index : ∀ i, i ∈ s.acquiring ∨ s.worker = .dequeued i → s.bufIndex = i
  source : ∀ i src, s.worker = .copying i src ∨ s.worker = .copied i src → src = s.ptr i

variable {cfg : Outputs} {s : Vdin} {k : Nat}

theorem held_iff (cfg : Outputs) (s : Vdin) (i : Nat) :
    Held s i ↔ 0 < (view cfg s i).clients + (view cfg s i).copies := by
  simp only [Held, view, Nat.add_pos_iff_pos_or_pos, count_pos_iff, Option.mem_toList,
    Option.mem_def]

theorem inFlight_iff (i : Nat) : InFlight cfg s i ↔ 0 < (view cfg s i).calls := by
  simp only [InFlight, view, Nat.add_pos_iff_pos_or_pos, count_pos_iff, Option.mem_toList,
    Option.mem_def]

section

variable (h : Custody cfg s)
include h

theorem Custody.owned : Owned cfg s := by
  intro i
  obtain ⟨c, d, hv⟩ := h.custodian i
  have hqueued : s.driver.queued i = (view cfg s i).queued := rfl
  have hdequeued : s.driver.dequeued i = (view cfg s i).dequeued := rfl
  rw [held_iff cfg, inFlight_iff, hqueued, hdequeued, hv]
  cases c <;> simp [Custodian.view]

omit h in
theorem custody_init (count : Nat) : Custody cfg (.init count) where
  custodian _ := ⟨.nobody, false, rfl⟩
  allocated i h := by simp [Vdin.init, Driver.init] at h
  known i d h := absurd rfl h
  index i h := by simp [Vdin.init] at h
  source i src h := by simp [Vdin.init] at h

/-! ### Which custodian a buffer has -/

theorem Custody.of_queued (hk : s.driver.queued k = true) :
    view cfg s k = Custodian.view false .driver := by
  obtain ⟨c, d, hv⟩ := h.custodian k
  have hqueued : (view cfg s k).queued = true := hk
  rw [hv] at hqueued ⊢
  cases c with
  | driver => rfl
  | _ => simp [Custodian.view] at hqueued

theorem Custody.of_held (hk : k ∈ s.held) : ∃ d, view cfg s k = Custodian.view d .client := by
  obtain ⟨c, d, hv⟩ := h.custodian k
  have hclients : 0 < (view cfg s k).clients := count_pos_iff.mpr hk
  rw [hv] at hclients ⊢
  cases c with
  | client => exact ⟨d, rfl⟩
  | _ => simp [Custodian.view] at hclients

theorem Custody.of_inFlight (hk : InFlight cfg s k) :
    ∃ d, view cfg s k = Custodian.view d .call := by
  obtain ⟨c, d, hv⟩ := h.custodian k
  have hcalls : 0 < (view cfg s k).calls := by
    cases hk with
    | inl hacquiring => exact Nat.add_pos_left (count_pos_iff.mpr hacquiring) _
    | inr hcarried =>
      exact Nat.add_pos_right _ (count_pos_iff.mpr (Option.mem_toList.mpr hcarried))
  rw [hv] at hcalls ⊢
  cases c with
  | call => exact ⟨d, rfl⟩
  | _ => simp [Custodian.view] at hcalls

theorem Custody.of_window (hk : k ∈ s.worker.window) :
    ∃ d, view cfg s k = Custodian.view d .window := by
  obtain ⟨c, d, hv⟩ := h.custodian k
  have hcopies : 0 < (view cfg s k).copies := count_pos_iff.mpr (Option.mem_toList.mpr hk)
  rw [hv] at hcopies ⊢
  cases c with
  | window => exact ⟨d, rfl⟩
  | _ => simp [Custodian.view] at hcopies

end

variable {c : Custodian} {d : Bool}

section

variable (h : Custody cfg s)
include h

theorem Custody.known_of (hv : view cfg s k = Custodian.view d c)
    (hc : c ≠ .nobody) : ∀ j ∈ s.bufs (s.ptr k), j = k := by
  apply h.known k d
  rw [hv]
  cases c with
  | nobody => exact absurd rfl hc
  | _ => simp [Custodian.view]

/-! ### Steps that move one buffer -/

theorem Custody.move {s' : Vdin}
    (hothers : ∀ i, i ≠ k → view cfg s' i = view cfg s i) (hk : view cfg s' k = Custodian.view d c)
    (hallocated : s'.driver.allocated = s.driver.allocated)
    (hin : (Custodian.view d c).queued = true ∨ (Custodian.view d c).dequeued = true →
      k < s.driver.allocated) (hbufs : s'.bufs = s.bufs) (hptr : s'.ptr = s.ptr)
    (hknown : ∀ j ∈ s.bufs (s.ptr k), j = k)
    (hindex : ∀ i, i ∈ s'.acquiring ∨ s'.worker = .dequeued i → s'.bufIndex = i)
    (hsource : ∀ i src, s'.worker = .copying i src ∨ s'.worker = .copied i src → src = s.ptr i) :
    Custody cfg s' where
  custodian i := by
    by_cases hi : i = k
    · subst hi
      exact ⟨c, d, hk⟩
    · rw [hothers i hi]
      exact h.custodian i
  allocated i hi := by
    rw [hallocated]
    by_cases hik : i = k
    · subst hik
      rw [← hk] at hin
      exact hin hi
    · have hqueued : s'.driver.queued i = s.driver.queued i := congrArg queued (hothers i hik)
      have hdequeued : s'.driver.dequeued i = s.driver.dequeued i :=
        congrArg View.dequeued (hothers i hik)
      rw [hqueued, hdequeued] at hi
      exact h.allocated i hi
  known i d' hi := by
    rw [hbufs, hptr]
    by_cases hik : i = k
    · subst hik
      exact hknown
    · rw [hothers i hik] at hi
      exact h.known i d' hi
  index := hindex
  source i src hi := by
    rw [hptr]
    exact hsource i src hi

theorem Custody.pass {s' : Vdin} {c₀ : Custodian}
    (hbefore : view cfg s k = Custodian.view d c₀) (hc₀ : c₀ ≠ .nobody)
    (hothers : ∀ i, i ≠ k → view cfg s' i = view cfg s i) (hk : view cfg s' k = Custodian.view d c)
    (hdriver : s'.driver = s.driver) (hbufs : s'.bufs = s.bufs) (hptr : s'.ptr = s.ptr)
    (hindex : ∀ i, i ∈ s'.acquiring ∨ s'.worker = .dequeued i → s'.bufIndex = i)
    (hsource : ∀ i src, s'.worker = .copying i src ∨ s'.worker = .copied i src → src = s.ptr i) :
    Custody cfg s' := by
  refine h.move hothers hk (by rw [hdriver]) ?_ hbufs hptr (h.known_of hbefore hc₀) hindex hsource
  intro hin
  rw [← hk] at hin
  apply h.allocated k
  rw [← hdriver]
  exact hin

theorem Custody.advance {before : WorkerPc} (hworker : s.worker = before) (worker : WorkerPc)
    (hcarried : worker.carried cfg = before.carried cfg) (hwindow : worker.window = before.window)
    (hindex : ∀ i, worker ≠ .dequeued i)
    (hsource : ∀ i src, worker = .copying i src ∨ worker = .copied i src → src = s.ptr i) :
    Custody cfg { s with worker := worker } := by
  have hview : ∀ i, view cfg { s with worker := worker } i = view cfg s i := by
    intro i
    simp [view, hcarried, hwindow, hworker]
  exact {
    custodian := fun i => hview i ▸ h.custodian i
    allocated := h.allocated
    known := fun i d hi => h.known i d (hview i ▸ hi)
    index := fun i hi => h.index i (hi.imp_right fun heq => absurd heq (hindex i))
    source := hsource }

theorem Custody.take {d : Driver} {answer : Option Nat}
    (hd : s.driver.dqbuf answer = some (k, d)) {acquiring : List Nat} {worker : WorkerPc}
    (hcalls : ∀ i, acquiring.count i + (worker.carried cfg).toList.count i =
      (view cfg s i).calls + if i = k then 1 else 0)
    (hwindow : worker.window = s.worker.window)
    (hindex : ∀ i, i ∈ acquiring ∨ worker = .dequeued i → k = i)
    (hsource : ∀ i src, worker = .copying i src ∨ worker = .copied i src → src = s.ptr i) :
    Custody cfg { s with
      driver := d, bufIndex := k, acquiring := acquiring, worker := worker } := by
  cases answer with
  | none => simp [Driver.dqbuf] at hd
  | some i =>
    simp only [Driver.dqbuf, Option.ite_none_right_eq_some, Bool.and_eq_true, Option.some.injEq,
      Prod.mk.injEq] at hd
    obtain ⟨⟨_, hq⟩, rfl, rfl⟩ := hd
    have hv := h.of_queued hq
    refine h.move ?_ (c := .call) (d := true) ?_ rfl ?_ rfl rfl
      (h.known_of hv (by simp)) hindex hsource
    · intro j hj
      have hcall := hcalls j
      rw [if_neg hj, Nat.add_zero] at hcall
      simp only [view] at hcall ⊢
      rw [update_of_ne hj, update_of_ne hj, hwindow, hcall]
    · have hcall := hcalls i
      rw [if_pos rfl, hv] at hcall
      simp only [view, Custodian.view, mk.injEq] at hv ⊢
      obtain ⟨-, -, hrefcount, hclients, -, hcopies⟩ := hv
      rw [update_self, update_self, hwindow]
      exact ⟨rfl, rfl, hrefcount, hclients, hcall, hcopies⟩
    · exact fun _ => h.allocated i (.inl hq)

theorem Custody.giveBack (hbefore : view cfg s k = Custodian.view d c)
    (hc : c = .client ∨ c = .window) {held : List Nat} {worker : WorkerPc}
    (hothers : ∀ i, i ≠ k → held.count i = s.held.count i)
    (hcarried : worker.carried cfg = s.worker.carried cfg)
    (hwindows : ∀ i, i ≠ k → worker.window.toList.count i = s.worker.window.toList.count i)
    (hheld : held.count k = 0) (hwindow : worker.window.toList.count k = 0)
    (hindex : ∀ i, worker = .dequeued i → s.worker = .dequeued i)
    (hsource : ∀ i src, worker = .copying i src ∨ worker = .copied i src → src = s.ptr i) :
    Custody cfg { s with
        refcount := update s.refcount k 0
        driver := s.driver.qbuf true k
        held := held
        worker := worker } := by
  have hknown : ∀ j ∈ s.bufs (s.ptr k), j = k := by
    refine h.known_of hbefore ?_
    rintro rfl
    simp at hc
  have hfree : s.driver.queued k = false ∧ (view cfg s k).calls = 0 := by
    rw [show s.driver.queued k = (view cfg s k).queued from rfl, hbefore]
    cases hc with
    | inl hclient => simp [hclient, Custodian.view]
    | inr hcopy => simp [hcopy, Custodian.view]
  have hindex' : ∀ i, i ∈ s.acquiring ∨ worker = .dequeued i → s.bufIndex = i :=
    fun i hi => h.index i (hi.imp_right (hindex i))
  by_cases hin : k < s.driver.allocated
  · have haccepts : s.driver.accepts true k = true := by
      simp [Driver.accepts, hin, hfree.1]
    rw [Driver.qbuf, if_pos haccepts]
    refine h.move ?_ (c := .driver) (d := d) ?_ rfl (fun _ => hin) rfl rfl hknown hindex' hsource
    · intro i hi
      simp only [view]
      rw [update_of_ne hi, update_of_ne hi, update_of_ne hi, hothers i hi, hcarried, hwindows i hi]
    · simp only [view, Custodian.view]
      rw [update_self, update_self, update_self, hheld, hcarried, hwindow]
      exact congrArg (View.mk true false 0 0 · 0) hfree.2
  · have hrefused : s.driver.accepts true k = false := by
      simp [Driver.accepts, hin]
    have hdequeued : s.driver.dequeued k = false := by
      by_contra hd
      exact hin (h.allocated k (.inr (by simpa using hd)))
    rw [Driver.qbuf, hrefused, if_neg Bool.false_ne_true]
    refine h.move ?_ (c := .nobody) (d := d) ?_ rfl ?_ rfl rfl hknown hindex' hsource
    · intro i hi
      simp only [view]
      rw [update_of_ne hi, hothers i hi, hcarried, hwindows i hi]
    · simp only [view, Custodian.view]
      rw [update_self, hheld, hcarried, hwindow, hfree.1, hdequeued]
      exact congrArg (View.mk false false 0 0 · 0) hfree.2
    · simp [Custodian.view]

/-- Without a stream, what the driver had nobody has. -/
def Custodian.withdrawn : Custodian → Custodian
  | .driver => .nobody
  | c => c

theorem Custody.withdraw (driver : Driver) (bufs : Addr → Option Nat)
    (hqueued : driver.queued = fun _ => false) (hdequeued : driver.dequeued = fun _ => false)
    (hbufs : ∀ p, ∀ i ∈ bufs p, i ∈ s.bufs p) :
    Custody cfg { s with driver := driver, bufs := bufs } := by
  have hview : ∀ i, view cfg { s with driver := driver, bufs := bufs } i =
      { view cfg s i with queued := false, dequeued := false } := by
    intro i
    simp [view, hqueued, hdequeued]
  refine {
    custodian := fun i => ?_, allocated := fun i hi => ?_, known := fun i d hi j hj => ?_
    index := h.index, source := h.source }
  · obtain ⟨c, d, hv⟩ := h.custodian i
    refine ⟨c.withdrawn, false, ?_⟩
    rw [hview, hv]
    cases c <;> rfl
  · simp [hqueued, hdequeued] at hi
  · refine h.known i d (fun hnobody => hi ?_) j (hbufs _ j hj)
    rw [hview, hnobody]
    rfl

/-! ## 2. The steps keep custody -/

theorem acquire_custody (halone : s.acquiring = [])
    (hworker : s.worker = .idle) (dqbuf : Option Nat) : Custody cfg (acquire s dqbuf) := by
  rw [acquire]
  split
  · exact h
  · next k driver hd =>
    refine h.take hd ?_ rfl ?_ h.source
    · intro i
      simp only [view, count_cons, beq_iff_eq, eq_comm (a := k)]
      ac_rfl
    · intro i hi
      rw [halone, hworker] at hi
      simpa [eq_comm] using hi

theorem acquired_custody (hany : s.acquiring ≠ [] → cfg.any = false) (k : Nat) :
    Custody cfg (acquired cfg s k) := by
  rw [acquired]
  split
  · next hk =>
    obtain ⟨d, hv⟩ := h.of_inFlight (.inl hk)
    have hindex := h.index k (.inl hk)
    rw [acquireTail, hany (ne_nil_of_mem hk), if_neg Bool.false_ne_true, hindex]
    refine h.pass (c := .client) hv (by simp) ?_ ?_ rfl rfl rfl ?_ h.source
    · intro i hi
      simp [view, Vdin.retain, hi, hi.symm]
    · simp only [view, Custodian.view, mk.injEq] at hv ⊢
      obtain ⟨hqueued, hdequeued, hrefcount, hclients, hcalls, hcopies⟩ := hv
      have hcount : 0 < s.acquiring.count k := count_pos_iff.mpr hk
      refine ⟨hqueued, hdequeued, ?_, ?_, ?_, hcopies⟩
      · simp [Vdin.retain, hrefcount]
      · simp [hclients]
      · simp only [Vdin.retain, count_erase_self]
        omega
    · exact fun i hi => h.index i (hi.imp_left mem_of_mem_erase)
  · exact h

end

theorem releaseBuffer_last {ptr : Addr} (hptr : s.bufs ptr = some k) (hk : s.refcount k = 1)
    (qbuf : Bool) : releaseBuffer s ptr qbuf =
      { s with refcount := update s.refcount k 0, driver := s.driver.qbuf qbuf k } := by
  simp [releaseBuffer, hptr, hk]

section

variable (h : Custody cfg s)
include h

theorem release_custody {ptr : Addr} (hheld : ∀ i ∈ s.bufs ptr, i ∈ s.held) :
    Custody cfg (release s ptr true) := by
  rw [release]
  split
  · next hptr =>
    rw [releaseBuffer, hptr]
    exact { h with }
  · next k hptr =>
    obtain ⟨d, hv⟩ := h.of_held (hheld k hptr)
    have hcount : s.held.count k = 1 := congrArg clients hv
    rw [releaseBuffer_last hptr (congrArg refcount hv)]
    refine h.giveBack hv (.inl rfl) ?_ rfl (fun _ _ => rfl) ?_ (congrArg copies hv)
      (fun _ hi => hi) h.source
    · exact fun i hi => count_erase_of_ne hi
    · rw [count_erase_self, hcount]

theorem workerCheck_custody : Custody cfg (workerCheck s) := by
  rw [workerCheck]
  split
  · next hpass =>
    exact h.advance hpass.2.1 .polling rfl rfl (by simp) (by simp)
  · exact h

theorem workerDequeue_custody (halone : s.worker ≠ .idle → s.acquiring = []) (dqbuf : Option Nat) :
    Custody cfg (workerDequeue s dqbuf) := by
  rw [workerDequeue]
  split
  · next hworker =>
    split
    · exact h.advance hworker .idle rfl rfl (by simp) (by simp)
    · next k driver hd =>
      refine h.take hd ?_ ?_ ?_ ?_
      · simp [view, hworker, carried, count_singleton, eq_comm (a := k)]
      · rw [hworker]
        rfl
      · intro i hi
        rw [halone (by simp [hworker])] at hi
        simpa using hi
      · intro i src hi
        simp at hi
  · exact h

theorem workerLookup_custody (hany : s.worker ≠ .idle → cfg.any = true) :
    Custody cfg (workerLookup cfg s) := by
  rw [workerLookup]
  split
  · next k hworker =>
    obtain ⟨d, hv⟩ := h.of_inFlight (.inr (by rw [hworker]; rfl))
    have hindex := h.index k (.inr hworker)
    have hknown := h.known_of hv (by simp)
    rw [acquireTail, hany (by rw [hworker]; simp), if_pos rfl]
    dsimp only
    split
    · exact { h with }
    · next index hptr =>
      rw [hindex] at hptr
      obtain rfl := hknown index hptr
      split
      · next hnative =>
        refine h.pass (c := .window) hv (by simp) ?_ ?_ rfl rfl rfl ?_ ?_
        · intro i hi
          simp [view, Vdin.retain, hworker, carried, window, hi, hi.symm]
        · simp only [view, Custodian.view, mk.injEq, hworker] at hv ⊢
          obtain ⟨hqueued, hdequeued, hrefcount, hclients, hcalls, hcopies⟩ := hv
          simp [Vdin.retain, carried, window] at hcalls ⊢
          exact ⟨hqueued, hdequeued, hrefcount, hclients, hcalls⟩
        · exact fun i hi => h.index i (hi.imp_right (by simp))
        · intro i src hi
          simp only [copying.injEq, reduceCtorEq, or_false] at hi
          rw [← hi.2, ← hi.1, hindex]
      · next hnative =>
        exact h.advance hworker _ (by simp [carried, hnative]) rfl (by simp) (by simp)
  · exact h

theorem workerCopy_custody : Custody cfg (workerCopy s true) := by
  rw [workerCopy]
  split
  · next index src hworker =>
    have hsource := h.source index src (.inl hworker)
    refine h.advance hworker _ rfl rfl (by simp) fun i src' hi => ?_
    simp only [reduceCtorEq, copied.injEq, false_or] at hi
    rw [← hi.2, ← hi.1, hsource]
  · exact h

theorem workerRelease_custody (hnative : ∀ i ∈ s.worker.window, cfg.nativeWindow = true) :
    Custody cfg (workerRelease s true) := by
  rw [workerRelease]
  split
  · next index src hworker =>
    have hwindow : index ∈ s.worker.window := by
      rw [hworker]
      rfl
    obtain ⟨d, hv⟩ := h.of_window hwindow
    split
    · next hptr =>
      rw [releaseBuffer, hptr]
      exact { h with }
    · next i hptr =>
      rw [h.source index src (.inr hworker)] at hptr ⊢
      obtain rfl := h.known_of hv (by simp) i hptr
      rw [releaseBuffer_last hptr (congrArg refcount hv)]
      refine h.giveBack hv (.inr rfl) (fun _ _ => rfl) ?_ ?_ (congrArg clients hv) rfl ?_ ?_
      · simp [hworker, carried, hnative i hwindow]
      · intro j hj
        simp [hworker, window, hj.symm]
      · simp
      · simp
  · exact h

theorem workerDeliver_custody (hone : cfg.nativeWindow = false ∨ cfg.callBack = false)
    (hany : s.worker ≠ .idle → cfg.any = true)
    (hstarted : cfg.callBack = true → s.worker ≠ .idle → s.mState = .START) :
    Custody cfg (workerDeliver cfg s) := by
  rw [workerDeliver]
  split
  · next index hworker =>
    have hbusy : s.worker ≠ .idle := by
      rw [hworker]
      simp
    cases hcall : cfg.callBack with
    | true =>
      have hnative : cfg.nativeWindow = false := by simpa [hcall] using hone
      have hcarried : index ∈ s.worker.carried cfg := by
        simp [hworker, carried, hnative]
      obtain ⟨d, hv⟩ := h.of_inFlight (.inr hcarried)
      rw [if_pos ⟨rfl, hstarted hcall hbusy⟩]
      refine h.pass (c := .client) hv (by simp) ?_ ?_ rfl rfl rfl ?_ ?_
      · intro i hi
        simp [view, Vdin.retain, hworker, carried, window, hnative, hi, hi.symm]
      · simp only [view, Custodian.view, mk.injEq, hworker] at hv ⊢
        obtain ⟨hqueued, hdequeued, hrefcount, hclients, hcalls, hcopies⟩ := hv
        simp [Vdin.retain, carried, window, hnative] at hcalls ⊢
        exact ⟨hqueued, hdequeued, hrefcount, hclients, hcalls⟩
      · exact fun i hi => h.index i (hi.imp_right (by simp))
      · simp
    | false =>
      have hnative : cfg.nativeWindow = true := by simpa [Outputs.any, hcall] using hany hbusy
      -- the window has had the frame, and there is no callback: the pass has nothing to hand over
      exact h.advance hworker .idle (by simp [carried, hnative]) rfl (by simp) (by simp)
  · exact h

theorem stopStream_custody (streamoff : Bool) : Custody cfg (stopStream s streamoff) := by
  rw [stopStream]
  split
  · cases streamoff with
    | true => exact { h.withdraw _ s.bufs rfl rfl fun _ _ hi => hi with }
    | false => exact { h with }
  · exact h

theorem stopBuffers_custody (reqbufs : Bool) : Custody cfg (stopBuffers s reqbufs) := by
  rw [stopBuffers]
  split
  · cases reqbufs with
    | true =>
      exact { h.withdraw _ (fun _ => none) rfl rfl (by simp) with }
    | false => exact { h with known := fun i d _ j hj => by simp at hj }
  · exact h

end

/-! ### Starting -/

/-- Nobody but the driver has a buffer. -/
structure Unused (s : Vdin) : Prop where
  held : s.held = []
  acquiring : s.acquiring = []
  worker : s.worker = .idle
  refcount : ∀ i, s.refcount i = 0
  dequeued : ∀ i, s.driver.dequeued i = false

theorem Unused.custody (h : Unused s)
    (hallocated : ∀ i, s.driver.queued i = true → i < s.driver.allocated)
    (hknown : ∀ i, s.driver.queued i = true → ∀ j ∈ s.bufs (s.ptr i), j = i) : Custody cfg s := by
  have hview : ∀ i, view cfg s i = ⟨s.driver.queued i, false, 0, 0, 0, 0⟩ := by
    simp [view, h.held, h.acquiring, h.worker, h.refcount, h.dequeued, carried, window]
  refine {
    custodian := fun i => ?_, allocated := fun i hi => ?_, known := fun i d hi => ?_
    index := fun i hi => ?_, source := fun i src hi => ?_ }
  · rw [hview]
    cases s.driver.queued i with
    | true => exact ⟨.driver, false, rfl⟩
    | false => exact ⟨.nobody, false, rfl⟩
  · exact hallocated i (by simpa [h.dequeued] using hi)
  · apply hknown i
    by_contra hq
    have hfalse : s.driver.queued i = false := by simpa using hq
    rw [hview, hfalse] at hi
    exact hi rfl
  · simp [h.acquiring, h.worker] at hi
  · simp [h.worker] at hi

variable (a : StartAnswers)

theorem mapBuffers_frame (s : Vdin) (n : Nat) :
    ∃ bufIndex refcount ptr bufs, (mapBuffers a s n).1 =
      { s with bufIndex := bufIndex, refcount := refcount, ptr := ptr, bufs := bufs } := by
  induction n with
  | zero => exact ⟨_, _, _, _, rfl⟩
  | succ n ih =>
    obtain ⟨bufIndex, refcount, ptr, bufs, heq⟩ := ih
    rw [mapBuffers]
    split
    · next s' hs' =>
      rw [hs'] at heq
      exact ⟨bufIndex, refcount, ptr, bufs, heq⟩
    · next s' hs' =>
      rw [hs'] at heq
      subst heq
      split
      · exact ⟨_, _, _, _, rfl⟩
      · exact ⟨_, _, _, _, rfl⟩

theorem mapBuffers_driver (s : Vdin) (n : Nat) : (mapBuffers a s n).1.driver = s.driver := by
  obtain ⟨_, _, _, _, heq⟩ := mapBuffers_frame a s n
  rw [heq]

theorem mapBuffers_mBufferCount (s : Vdin) (n : Nat) :
    (mapBuffers a s n).1.mBufferCount = s.mBufferCount := by
  obtain ⟨_, _, _, _, heq⟩ := mapBuffers_frame a s n
  rw [heq]

theorem mapBuffers_refcount (hs : ∀ i, s.refcount i = 0) (n : Nat) :
    ∀ i, (mapBuffers a s n).1.refcount i = 0 := by
  induction n with
  | zero => exact hs
  | succ n ih =>
    rw [mapBuffers]
    split
    · next s' hs' =>
      rw [hs'] at ih
      exact ih
    · next s' hs' =>
      rw [hs'] at ih
      split
      · intro i
        by_cases hi : i = n
        · simp [hi]
        · simpa [hi] using ih i
      · exact ih

/-- The buffers have different addresses, so each address leads back to its buffer. -/
theorem mapBuffers_known (s : Vdin) (n : Nat) (hok : (mapBuffers a s n).2 = true) : ∀ i < n,
      (mapBuffers a s n).1.ptr i = a.mem i ∧ (mapBuffers a s n).1.bufs (a.mem i) = some i := by
  induction n with
  | zero => simp
  | succ n ih =>
    rw [mapBuffers] at hok ⊢
    split at hok
    · simp at hok
    · next s' hs' =>
      rw [hs'] at ih
      split at hok
      · next hmapped =>
        rw [if_pos hmapped]
        intro i hi
        by_cases hin : i = n
        · subst hin
          exact ⟨update_self .., update_self ..⟩
        · obtain ⟨hptr, hbufs⟩ := ih rfl i (by omega)
          have hmem : a.mem i ≠ a.mem n := fun heq => hin (a.mem.injective heq)
          exact ⟨by simpa [hin] using hptr, by simpa [hmem] using hbufs⟩
      · simp at hok

theorem queueBuffers_frame (s : Vdin) (n : Nat) :
    ∃ bufIndex queued dequeued, (queueBuffers a s n).1 = { s with
        bufIndex := bufIndex
        driver := { s.driver with queued := queued, dequeued := dequeued } } ∧
      (∀ i, queued i = true → s.driver.queued i = true ∨ i < n ∧ i < s.driver.allocated) ∧
      ∀ i, dequeued i = true → s.driver.dequeued i = true := by
  induction n with
  | zero => exact ⟨_, _, _, rfl, fun _ hi => .inl hi, fun _ hi => hi⟩
  | succ n ih =>
    obtain ⟨bufIndex, queued, dequeued, heq, hqueued, hdequeued⟩ := ih
    have hmono : ∀ i, queued i = true →
        s.driver.queued i = true ∨ i < n + 1 ∧ i < s.driver.allocated :=
      fun i hi => (hqueued i hi).imp_right fun hlt => ⟨Nat.lt_succ_of_lt hlt.1, hlt.2⟩
    rw [queueBuffers]
    split
    · next s' hs' =>
      rw [hs'] at heq
      exact ⟨bufIndex, queued, dequeued, heq, hmono, hdequeued⟩
    · next s' hs' =>
      rw [hs'] at heq
      subst heq
      rw [Driver.qbuf]
      split
      · next haccepts =>
        refine ⟨_, _, _, rfl, fun i hi => ?_, fun i hi => ?_⟩
        · by_cases hin : i = n
          · subst hin
            simp only [Driver.accepts, Bool.and_eq_true, decide_eq_true_eq] at haccepts
            exact .inr ⟨Nat.lt_succ_self _, haccepts.1.2⟩
          · exact hmono i (by simpa [hin] using hi)
        · by_cases hin : i = n
          · simp [hin] at hi
          · exact hdequeued i (by simpa [hin] using hi)
      · exact ⟨_, _, _, rfl, hmono, hdequeued⟩

theorem Custody.refcount_eq (h : Custody cfg s) (i : Nat) :
    s.refcount i = s.held.count i + s.worker.window.toList.count i := by
  obtain ⟨c, d, hv⟩ := h.custodian i
  have hsum : (view cfg s i).refcount = (view cfg s i).clients + (view cfg s i).copies := by
    rw [hv]
    cases c <;> rfl
  exact hsum

theorem startV4l2Device_frame (s : Vdin) :
    ∃ driver bufIndex refcount ptr bufs, (startV4l2Device a s).1 = { s with
        driver := driver, bufIndex := bufIndex, refcount := refcount, ptr := ptr
        bufs := bufs } := by
  rw [startV4l2Device]
  split
  · exact ⟨_, _, _, _, _, rfl⟩
  split
  · exact ⟨_, _, _, _, _, rfl⟩
  obtain ⟨_, _, _, _, hmap⟩ :=
    mapBuffers_frame a { s with driver := s.driver.reqbufs true s.mBufferCount } s.mBufferCount
  split
  · next s' hs' =>
    rw [hs'] at hmap
    exact ⟨_, _, _, _, _, hmap⟩
  · next s' hs' =>
    rw [hs'] at hmap
    subst hmap
    obtain ⟨_, _, _, hqueue, -⟩ := queueBuffers_frame a _ s.mBufferCount
    split
    · next s' hs' =>
      rw [hs'] at hqueue
      exact ⟨_, _, _, _, _, hqueue⟩
    · next s' hs' =>
      rw [hs'] at hqueue
      subst hqueue
      split
      · exact ⟨_, _, _, _, _, rfl⟩
      · exact ⟨_, _, _, _, _, rfl⟩

theorem Custody.unused_reqbufs (h : Custody cfg s) (hheld : s.held = [])
    (hacquiring : s.acquiring = []) (hworker : s.worker = .idle) (count : Nat) :
    Unused { s with driver := s.driver.reqbufs true count } where
  held := hheld
  acquiring := hacquiring
  worker := hworker
  refcount i := by simp [h.refcount_eq i, hheld, hworker, window]
  dequeued _ := rfl

theorem mapBuffers_unused (h : Unused s) (a : StartAnswers) (n : Nat) :
    Unused (mapBuffers a s n).1 := by
  have hrefcount := mapBuffers_refcount a h.refcount n
  obtain ⟨bufIndex, refcount, ptr, bufs, heq⟩ := mapBuffers_frame a s n
  rw [heq] at hrefcount ⊢
  exact { h with refcount := hrefcount }

theorem queueBuffers_custody (h : Unused s) (hnone : ∀ i, s.driver.queued i = false) {n : Nat}
    (hknown : ∀ i < n, ∀ j ∈ s.bufs (s.ptr i), j = i) (a : StartAnswers) :
    Custody cfg (queueBuffers a s n).1 := by
  obtain ⟨bufIndex, queued, dequeued, heq, hqueued, hdequeued⟩ := queueBuffers_frame a s n
  have hin : ∀ i, queued i = true → i < n ∧ i < s.driver.allocated := by
    intro i hi
    simpa [hnone] using hqueued i hi
  have hclear : ∀ i, dequeued i = false := by
    intro i
    by_contra hd
    have hbefore := hdequeued i (by simpa using hd)
    rw [h.dequeued i] at hbefore
    exact Bool.false_ne_true hbefore
  rw [heq]
  exact Unused.custody { h with dequeued := hclear } (fun i hi => (hin i hi).2) fun i hi =>
    hknown i (hin i hi).1

theorem startV4l2Device_custody (h : Custody cfg s) (hheld : s.held = [])
    (hacquiring : s.acquiring = []) (hworker : s.worker = .idle) (a : StartAnswers) :
    Custody cfg (startV4l2Device a s).1 := by
  rw [startV4l2Device]
  split
  · exact h
  split
  · exact h
  have hunused := h.unused_reqbufs hheld hacquiring hworker s.mBufferCount
  have hnone : ∀ i, (s.driver.reqbufs true s.mBufferCount).queued i = false := fun _ => rfl
  generalize s.driver.reqbufs true s.mBufferCount = driver at hunused hnone ⊢
  have hmapped := mapBuffers_unused hunused a s.mBufferCount
  have hdriver := mapBuffers_driver a { s with driver := driver } s.mBufferCount
  have hcount := mapBuffers_mBufferCount a { s with driver := driver } s.mBufferCount
  have hknown := mapBuffers_known a { s with driver := driver } s.mBufferCount
  generalize mapBuffers a { s with driver := driver } s.mBufferCount =
    mapped at hmapped hdriver hcount hknown ⊢
  obtain ⟨s', ok⟩ := mapped
  dsimp only at hmapped hdriver hcount hknown
  rw [← hdriver] at hnone
  cases ok with
  | false =>
    have hempty : ∀ i, s'.driver.queued i ≠ true := fun i => by simp [hnone i]
    exact hmapped.custody (fun i hi => absurd hi (hempty i)) fun i hi => absurd hi (hempty i)
  | true =>
    have hcustody : Custody cfg (queueBuffers a s' s'.mBufferCount).1 := by
      refine queueBuffers_custody hmapped hnone (fun i hi j hj => ?_) a
      obtain ⟨hptr, hbufs⟩ := hknown rfl i (hcount ▸ hi)
      rw [hptr, hbufs] at hj
      exact (Option.some.inj hj).symm
    dsimp only
    generalize queueBuffers a s' s'.mBufferCount = queued at hcustody ⊢
    obtain ⟨s'', ok⟩ := queued
    cases ok with
    | false => exact hcustody
    | true =>
      dsimp only
      split
      · exact { hcustody with }
      · exact hcustody

theorem start_custody (h : Custody cfg s) (hworker : s.mOpen = false → s.worker = .idle)
    (hcareful : s.mOpen = true ∨ s.acquiring = [] ∧ s.held = []) :
    Custody cfg (start cfg s a) := by
  rw [start]
  split
  · exact h
  · next hclosed =>
    have hopen : s.mOpen = false := by simpa using hclosed
    obtain ⟨hacquiring, hheld⟩ : s.acquiring = [] ∧ s.held = [] := by simpa [hopen] using hcareful
    have hcustody := startV4l2Device_custody h hheld hacquiring (hworker hopen) a
    generalize startV4l2Device a s = started at hcustody
    obtain ⟨s', ok⟩ := started
    cases ok with
    | false => exact hcustody
    | true =>
      dsimp only
      split
      · exact hcustody
      · exact { hcustody with }

end AmlogicHal.ScreenSource
