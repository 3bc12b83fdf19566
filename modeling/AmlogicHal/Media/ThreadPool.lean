import AmlogicHal.Media.ItemList

/-!
# Thread pools

`amthreadpool.c` registers every thread that is created through it in a global list. A thread that
is created by a registered one joins the pool of its creator; the others get a pool of their own,
kept in the global list of pools under their pid.

A pool is freed when the thread it was made for is joined, also if other threads of the pool are
still registered; these keep a pointer to the freed pool (`ownerJoined_leaves_dangling`).
`pools_listed_iff`: this is the only way. The pools of the registered threads stay in the list
exactly if the owner of a pool is always joined last, and then no call uses a freed pool.
-/

namespace AmlogicHal.Media

open Machine Function List

/-! ## The model -/

/-- What is registered for a thread: its creator (`ppid[0]`) and its pool. -/
structure ThreadData where
  ppid : Nat
  pool : Option Nat
deriving DecidableEq

/-- A pool with the thread it was made for and the threads that have joined it. -/
structure Pool where
  pid : Nat
  threadlist : ItemList Nat ThreadData

/-- The allocated pools, by address, and the two global lists. -/
structure ThreadPools where
  heap : Nat → Option Pool
  threadpoolList : ItemList Nat Nat
  threadpoolThreadlist : ItemList Nat ThreadData

def ThreadPools.initial : ThreadPools := ⟨fun _ => none, .init 0 true, .init 0 true⟩

/-- What `malloc` and `pthread_create` say to `amthreadpool_pthread_create`. The memory of a pool
that was freed may be given out again. -/
structure CreateIo where
  started : Bool
  poolData : Option Nat
  poolItem : Bool
  memberItem : Bool
  threadItem : Bool

/-- The memory of a pool is used; `live` if it is allocated. -/
structure PoolAccess where
  pool : Option Nat
  live : Bool
deriving DecidableEq

/-- What a call does: the pools it uses and the threads it wakes. -/
structure PoolOutput where
  accesses : List PoolAccess
  woken : List Nat

variable (s : ThreadPools)

namespace ThreadPools

def access (pool : Option Nat) : PoolAccess :=
  ⟨pool, pool.any fun p => (s.heap p).isSome⟩

def onThreadlist (p : Nat)
    (f : ItemList Nat ThreadData → ItemList Nat ThreadData) : ThreadPools :=
  { s with
    heap := Function.update s.heap p
      ((s.heap p).map fun pool => { pool with threadlist := f pool.threadlist }) }

variable (pid : Nat)

def createPool (io : CreateIo) (s : ThreadPools) : Option Nat × ThreadPools :=
  match io.poolData with
  | some p =>
    (some p,
      { s with
        heap := Function.update s.heap p (some ⟨pid, .init 0 true⟩)
        threadpoolList := (s.threadpoolList.addTailDataExt pid p io.poolItem).2 })
  | none => (none, s)

def register (thread : ThreadData) (io : CreateIo) (s : ThreadPools) : ThreadPools :=
  { s with
    threadpoolThreadlist :=
      (s.threadpoolThreadlist.addTailDataExt pid thread io.threadItem).2 }

def poolAddThread (pid ppid : Nat) (pool : Option Nat) (io : CreateIo) (s : ThreadPools) :
    ThreadPools × List PoolAccess :=
  match pool with
  | some p =>
    let thread : ThreadData := ⟨ppid, some p⟩
    let s' := s.onThreadlist p fun l => (l.addTailDataExt pid thread io.memberItem).2
    (s'.register pid thread io, [s.access (some p)])
  | none =>
    let r := s.createPool pid io
    (r.2.register pid ⟨ppid, r.1⟩ io, [])

/-- `amthreadpool_start_thread`, while its creator waits for it. -/
def startThread (creator pid : Nat) (io : CreateIo) (s : ThreadPools) :
    ThreadPools × List PoolAccess :=
  match s.threadpoolThreadlist.findMatchItem creator with
  | some x => s.poolAddThread pid creator x.2.pool io
  | none => s.poolAddThread pid creator none io

def without (s : ThreadPools) : ThreadPools :=
  { s with threadpoolThreadlist := (s.threadpoolThreadlist.getMatchItem pid).2 }

/-- The thread and its membership in the pool at `p` are gone. -/
def leave (pid p : Nat) (s : ThreadPools) : ThreadPools :=
  (s.without pid).onThreadlist p fun l => (l.getMatchItem pid).2

def withoutPool (pid p : Nat) (s : ThreadPools) : ThreadPools :=
  { s with
    heap := Function.update s.heap p none
    threadpoolList := (s.threadpoolList.getMatchItem pid).2 }

theorem leave_withoutPool (pid p : Nat) (s : ThreadPools) :
    (s.leave pid p).withoutPool pid p = (s.without pid).withoutPool pid p := by
  simp [withoutPool, leave, onThreadlist]

def release (s : ThreadPools) : ThreadPools × List PoolAccess :=
  match s.threadpoolList.findMatchItem pid with
  | some x => (s.withoutPool pid x.2, [s.access (some x.2)])
  | none => (s, [])

/-- `amthreadpool_pool_del_thread`. A thread without a pool is an access too: its pool is used
without a check. -/
def poolDelThread (s : ThreadPools) : ThreadPools × List PoolAccess :=
  match s.threadpoolThreadlist.findMatchItem pid with
  | none => (s, [])
  | some x =>
    match x.2.pool with
    | none => (s.without pid, [s.access none])
    | some p =>
      let s' := s.leave pid p
      if (s.heap p).any fun pool => pool.pid = pid then
        ((s'.release pid).1, s.access (some p) :: (s'.release pid).2)
      else (s', [s.access (some p)])

def members (pid p : Nat) (s : ThreadPools) : List Nat :=
  match s.heap p with
  | some pool => if pool.pid = pid then pool.threadlist.datas else []
  | none => []

def threadCancel (allthreads : Bool) (s : ThreadPools) : PoolOutput :=
  match s.threadpoolThreadlist.findMatchItem pid with
  | none => ⟨[], []⟩
  | some x =>
    match allthreads, x.2.pool with
    | true, some p => ⟨[s.access (some p)], s.members pid p ++ [pid]⟩
    | _, _ => ⟨[], [pid]⟩

end ThreadPools

inductive PoolCall
  | create (creator pid : Nat) (io : CreateIo)
  | join (pid : Nat)
  | cancel (pid : Nat) (allthreads : Bool)

def poolMachine : Machine ThreadPools PoolCall PoolOutput where
  step s
    | .create creator pid io =>
      if io.started then ((s.startThread creator pid io).1, ⟨(s.startThread creator pid io).2, []⟩)
      else (s, ⟨[], []⟩)
    | .join pid => ((s.poolDelThread pid).1, ⟨(s.poolDelThread pid).2, []⟩)
    | .cancel pid allthreads => (s, s.threadCancel pid allthreads)

/-! ## Properties of calls -/

/-- Every registered thread has a pool that is in the list of pools. -/
def Listed : Prop :=
  ∀ x ∈ s.threadpoolThreadlist.items, ∃ y ∈ s.threadpoolList.items, x.2.pool = some y.2

def StaysListed (e : PoolCall) : Prop := Listed (poolMachine.step s e).1

def UsesLive (e : PoolCall) : Prop :=
  ∀ a ∈ (poolMachine.step s e).2.accesses, a.live = true

/-- The new thread has a pid that no registered thread has, and there is memory for it; a pool gets
memory that is not allocated. -/
def Possible : PoolCall → Prop
  | .create _ pid io => pid ∉ s.threadpoolThreadlist.datas ∧
      (∃ p ∈ io.poolData, s.heap p = none) ∧ io.poolItem = true ∧ io.threadItem = true
  | _ => True

instance : Decidable (Listed s) := inferInstanceAs (Decidable (∀ x ∈ _, _))

/-- The thread that a pool was made for is joined when no other thread of the pool is registered. -/
def OwnerLast : PoolCall → Prop
  | .join pid => ∀ x ∈ s.threadpoolThreadlist.items, x.1 = pid → ∀ p ∈ x.2.pool,
      ∀ pool ∈ s.heap p, pool.pid = pid →
      ∀ y ∈ s.threadpoolThreadlist.items, y.2.pool = some p → y.1 = pid
  | _ => True

instance (e : PoolCall) : Decidable (Possible s e) := by
  cases e <;> unfold Possible <;> infer_instance

instance (e : PoolCall) : Decidable (OwnerLast s e) := by
  cases e <;> unfold OwnerLast <;> infer_instance

/-! ## The invariant -/

/-- The lists have one entry for every pid; a pool in the list is allocated, and the thread it was
made for is registered. -/
structure PoolInv (s : ThreadPools) : Prop where
  threads : s.threadpoolThreadlist.Keyed
  pools : s.threadpoolList.Keyed
  allocated : ∀ x ∈ s.threadpoolList.items, ∃ pool, s.heap x.2 = some pool ∧ pool.pid = x.1
  owner : ∀ x ∈ s.threadpoolList.items,
    ∃ y ∈ s.threadpoolThreadlist.items, y.1 = x.1 ∧ y.2.pool = some x.2
  listed : Listed s

theorem poolInv_initial : PoolInv .initial :=
  ⟨ItemList.keyed_init, ItemList.keyed_init, nofun, nofun, nofun⟩

namespace PoolInv

variable {s : ThreadPools} {x : Nat × ThreadData} {pid : Nat} {io : CreateIo} {y : Nat × Nat}

section

variable (h : PoolInv s)
include h

theorem live (hx : x ∈ s.threadpoolThreadlist.items) : (s.access x.2.pool).live = true := by
  obtain ⟨y, hy, hpool⟩ := h.listed x hx
  obtain ⟨pool, hheap, -⟩ := h.allocated y hy
  simp [ThreadPools.access, hpool, hheap]

theorem onThreadlist (p : Nat) (f : ItemList Nat ThreadData → ItemList Nat ThreadData) :
    PoolInv (s.onThreadlist p f) where
  threads := h.threads
  pools := h.pools
  allocated x hx := by
    obtain ⟨pool, hheap, hpid⟩ := h.allocated x hx
    rcases eq_or_ne x.2 p with rfl | hne
    · exact ⟨{ pool with threadlist := f pool.threadlist }, by
        simp [ThreadPools.onThreadlist, hheap], hpid⟩
    · exact ⟨pool, (update_of_ne hne _ _).trans hheap, hpid⟩
  owner := h.owner
  listed := h.listed

section

variable (hnew : pid ∉ s.threadpoolThreadlist.datas)
include hnew

theorem register_items (thread : ThreadData) (hio : io.threadItem = true) :
    (s.register pid thread io).threadpoolThreadlist.items =
      s.threadpoolThreadlist.items ++ [(pid, thread)] := by
  unfold ThreadPools.register
  rw [hio]
  exact h.threads.addTailDataExt_new hnew thread

theorem createPool_items {p : Nat} (hitem : io.poolItem = true) :
    (s.threadpoolList.addTailDataExt pid p io.poolItem).2.items =
      s.threadpoolList.items ++ [(pid, p)] := by
  have hnewPool : pid ∉ s.threadpoolList.datas := by
    intro hmem
    obtain ⟨x, hx, rfl⟩ := mem_map.mp hmem
    obtain ⟨y, hy, heq, -⟩ := h.owner x hx
    exact hnew (heq ▸ mem_map_of_mem hy)
  rw [hitem]
  exact h.pools.addTailDataExt_new hnewPool p

theorem register {thread : ThreadData}
    (hpool : ∃ y ∈ s.threadpoolList.items, thread.pool = some y.2)
    (hio : io.threadItem = true) : PoolInv (s.register pid thread io) := by
  have hitems := h.register_items hnew thread hio
  refine ⟨h.threads.addTailDataExt _ _ _, h.pools, h.allocated, fun x hx => ?_, fun x hx => ?_⟩
  · obtain ⟨y, hy, howner⟩ := h.owner x hx
    exact ⟨y, hitems ▸ mem_append_left _ hy, howner⟩
  · rw [hitems] at hx
    rcases mem_append.mp hx with hx | hx
    · exact h.listed x hx
    · cases mem_singleton.mp hx
      exact hpool

theorem createPool {ppid p : Nat} (hdata : io.poolData = some p) (hfree : s.heap p = none)
    (hitem : io.poolItem = true) (hio : io.threadItem = true) :
    PoolInv ((s.createPool pid io).2.register pid ⟨ppid, (s.createPool pid io).1⟩ io) := by
  have hpools := h.createPool_items hnew (p := p) hitem
  have hthreads := h.register_items hnew ⟨ppid, some p⟩ hio
  unfold ThreadPools.createPool
  rw [hdata]
  refine ⟨h.threads.addTailDataExt _ _ _, h.pools.addTailDataExt _ _ _, fun x hx => ?_,
    fun x hx => ?_, fun x hx => ?_⟩
  · rcases mem_append.mp (hpools ▸ hx) with hx | hx
    · obtain ⟨pool, hheap, hpid⟩ := h.allocated x hx
      have hne : x.2 ≠ p := fun heq => by simp [heq, hfree] at hheap
      exact ⟨pool, (update_of_ne hne _ _).trans hheap, hpid⟩
    · cases mem_singleton.mp hx
      exact ⟨_, update_self _ _ _, rfl⟩
  · rcases mem_append.mp (hpools ▸ hx) with hx | hx
    · obtain ⟨y, hy, howner⟩ := h.owner x hx
      exact ⟨y, hthreads ▸ mem_append_left _ hy, howner⟩
    · cases mem_singleton.mp hx
      exact ⟨_, hthreads ▸ mem_append_right _ (mem_singleton_self _), rfl, rfl⟩
  · rcases mem_append.mp (hthreads ▸ hx) with hx | hx
    · obtain ⟨y, hy, hy'⟩ := h.listed x hx
      exact ⟨y, hpools ▸ mem_append_left _ hy, hy'⟩
    · cases mem_singleton.mp hx
      exact ⟨_, hpools ▸ mem_append_right _ (mem_singleton_self _), rfl⟩

end

theorem startThread {creator : Nat} (hpossible : Possible s (.create creator pid io)) :
    PoolInv (s.startThread creator pid io).1 := by
  obtain ⟨hnew, ⟨p, hdata, hfree⟩, hitem, hio⟩ := hpossible
  unfold ThreadPools.startThread
  split
  · next x hfind =>
    obtain ⟨hx, -⟩ := h.threads.findMatchItem_eq_some.mp hfind
    obtain ⟨y, hy, hy'⟩ := h.listed x hx
    rw [hy']
    exact (h.onThreadlist y.2 _).register hnew ⟨y, hy, rfl⟩ hio
  · exact h.createPool hnew hdata hfree hitem hio

theorem startThread_live (creator pid : Nat) (io : CreateIo) :
    ∀ a ∈ (s.startThread creator pid io).2, a.live = true := by
  unfold ThreadPools.startThread
  split
  · next x hfind =>
    obtain ⟨hx, -⟩ := h.threads.findMatchItem_eq_some.mp hfind
    have hlive := h.live hx
    unfold ThreadPools.poolAddThread
    split
    · next p hp =>
      rw [hp] at hlive
      intro a ha
      cases mem_singleton.mp ha
      exact hlive
    · simp
  · exact fun _ ha => absurd ha not_mem_nil

theorem pool_eq {x : Nat × Nat} (hx : x ∈ s.threadpoolList.items) (hy : y ∈ s.threadpoolList.items)
    (heq : x.2 = y.2) : x = y := by
  obtain ⟨pool, hpool, hpid⟩ := h.allocated x hx
  obtain ⟨pool', hpool', hpid'⟩ := h.allocated y hy
  rw [← heq, hpool] at hpool'
  cases hpool'
  exact h.pools.eq_of_mem hx hy (hpid.symm.trans hpid')

theorem owns_own (hx : x ∈ s.threadpoolThreadlist.items) (hy : y ∈ s.threadpoolList.items)
    (howns : y.1 = x.1) :
    x.2.pool = some y.2 := by
  obtain ⟨z, hz, heq, hpool⟩ := h.owner y hy
  rw [h.threads.eq_of_mem hx hz (howns.symm.trans heq.symm)]
  exact hpool

end

/-! ## Joining a thread -/

section

variable (h : PoolInv s)
include h

/-- What a join does: nothing for a thread that is not registered; a member leaves its pool; with
its owner a pool is freed. -/
theorem poolDelThread_cases (pid : Nat) :
    (pid ∉ s.threadpoolThreadlist.datas ∧ s.poolDelThread pid = (s, [])) ∨
    ∃ thread, (pid, thread) ∈ s.threadpoolThreadlist.items ∧
      ∃ y ∈ s.threadpoolList.items, thread.pool = some y.2 ∧
        ((y.1 = pid ∧ s.poolDelThread pid = ((s.leave pid y.2).withoutPool pid y.2,
            [s.access thread.pool, (s.leave pid y.2).access thread.pool])) ∨
          (y.1 ≠ pid ∧ s.poolDelThread pid = (s.leave pid y.2, [s.access thread.pool]))) := by
  cases hfind : s.threadpoolThreadlist.findMatchItem pid with
  | none =>
    exact .inl ⟨ItemList.not_mem_of_findMatchItem hfind, by rw [ThreadPools.poolDelThread, hfind]⟩
  | some x =>
    obtain ⟨hx, rfl⟩ := h.threads.findMatchItem_eq_some.mp hfind
    obtain ⟨y, hy, hpool⟩ := h.listed x hx
    obtain ⟨pool, hheap, hpid⟩ := h.allocated y hy
    refine .inr ⟨x.2, hx, y, hy, hpool, ?_⟩
    unfold ThreadPools.poolDelThread
    rw [hfind]
    dsimp only
    rw [hpool]
    dsimp only
    rw [hheap, Option.any_some, hpid]
    rcases eq_or_ne y.1 x.1 with howns | hother
    · have hrelease : s.threadpoolList.findMatchItem x.1 = some y :=
        h.pools.findMatchItem_eq_some.mpr ⟨hy, howns⟩
      refine .inl ⟨howns, ?_⟩
      rw [if_pos (decide_eq_true howns)]
      simp [ThreadPools.release, ThreadPools.leave, ThreadPools.onThreadlist, ThreadPools.without,
        hrelease]
    · exact .inr ⟨hother, if_neg (by simpa using hother)⟩

theorem mem_without :
    x ∈ (s.without pid).threadpoolThreadlist.items ↔ x ∈ s.threadpoolThreadlist.items ∧ x.1 ≠ pid :=
  h.threads.mem_getMatchItem

theorem poolDelThread_items (pid : Nat) :
    (∀ x, x ∈ (s.poolDelThread pid).1.threadpoolThreadlist.items ↔
      x ∈ s.threadpoolThreadlist.items ∧ x.1 ≠ pid) ∧
    ∀ y ∈ (s.poolDelThread pid).1.threadpoolList.items, y ∈ s.threadpoolList.items := by
  obtain ⟨hno, heq⟩ | ⟨_, -, y, -, -, ⟨-, heq⟩ | ⟨-, heq⟩⟩ := h.poolDelThread_cases pid
  · rw [heq]
    exact ⟨fun x =>
      (and_iff_left_of_imp fun hx (heq : x.1 = pid) => hno (heq ▸ mem_map_of_mem hx)).symm,
      fun _ hy => hy⟩
  · rw [heq]
    exact ⟨fun _ => h.mem_without, fun _ hy => (h.pools.mem_getMatchItem.mp hy).1⟩
  · rw [heq]
    exact ⟨fun _ => h.mem_without, fun _ hy => hy⟩

theorem without_member (hmember : ∀ y ∈ s.threadpoolList.items, y.1 ≠ pid) :
    PoolInv (s.without pid) where
  threads := h.threads.getMatchItem pid
  pools := h.pools
  allocated := h.allocated
  owner y hy := by
    obtain ⟨x, hx, heq, hpool⟩ := h.owner y hy
    exact ⟨x, h.mem_without.mpr ⟨hx, heq.symm ▸ hmember y hy⟩, heq, hpool⟩
  listed x hx := h.listed x (h.mem_without.mp hx).1

theorem without_owner {p : Nat} (hp : (pid, p) ∈ s.threadpoolList.items)
    (hlast : ∀ x ∈ s.threadpoolThreadlist.items, x.2.pool = some p → x.1 = pid) :
    PoolInv ((s.without pid).withoutPool pid p) := by
  have hpools : ∀ {y}, y ∈ ((s.without pid).withoutPool pid p).threadpoolList.items ↔
      y ∈ s.threadpoolList.items ∧ y.1 ≠ pid := h.pools.mem_getMatchItem
  refine ⟨h.threads.getMatchItem pid, h.pools.getMatchItem pid, fun y hy => ?_, fun y hy => ?_,
    fun x hx => ?_⟩
  · obtain ⟨hy, hne⟩ := hpools.mp hy
    obtain ⟨pool, hheap, hpid⟩ := h.allocated y hy
    have haddress : y.2 ≠ p := fun heq => hne (congrArg Prod.fst (h.pool_eq hy hp heq))
    exact ⟨pool, (update_of_ne haddress _ _).trans hheap, hpid⟩
  · obtain ⟨hy, hne⟩ := hpools.mp hy
    obtain ⟨x, hx, heq, hpool⟩ := h.owner y hy
    exact ⟨x, h.mem_without.mpr ⟨hx, heq.symm ▸ hne⟩, heq, hpool⟩
  · obtain ⟨hx, hne⟩ := h.mem_without.mp hx
    obtain ⟨y, hy, hpool⟩ := h.listed x hx
    refine ⟨y, hpools.mpr ⟨hy, fun howns => ?_⟩, hpool⟩
    cases h.pools.eq_of_mem hy hp howns
    exact hne (hlast x hx hpool)

/-- If the owner leaves a pool that is listed for no other thread, the owner was the last one. -/
theorem ownerLast_of_listed {p : Nat} (hp : (pid, p) ∈ s.threadpoolList.items)
    (hlisted : Listed ((s.without pid).withoutPool pid p)) :
    ∀ x ∈ s.threadpoolThreadlist.items, x.2.pool = some p → x.1 = pid := by
  intro x hx hpool
  rcases eq_or_ne x.1 pid with heq | hne
  · exact heq
  · obtain ⟨y, hy, hy'⟩ := hlisted x (h.mem_without.mpr ⟨hx, hne⟩)
    obtain ⟨hy, howner⟩ := h.pools.mem_getMatchItem.mp hy
    have haddress : y.2 = p := Option.some.inj (hy'.symm.trans hpool)
    exact absurd (congrArg Prod.fst (h.pool_eq hy hp haddress)) howner

theorem poolDelThread_live (pid : Nat) : ∀ a ∈ (s.poolDelThread pid).2, a.live = true := by
  obtain ⟨-, heq⟩ | ⟨thread, hx, y, -, hpool, ⟨-, heq⟩ | ⟨-, heq⟩⟩ := h.poolDelThread_cases pid
  · rw [heq]
    exact nofun
  · have hlive := h.live hx
    have hlive' : ((s.leave pid y.2).access thread.pool).live = true := by
      simpa [ThreadPools.access, ThreadPools.leave, ThreadPools.onThreadlist, ThreadPools.without,
        hpool] using hlive
    rw [heq]
    simp [hlive, hlive']
  · rw [heq]
    simpa using h.live hx

theorem ownerLast_iff {thread : ThreadData} (hx : (pid, thread) ∈ s.threadpoolThreadlist.items)
    (hy : y ∈ s.threadpoolList.items) (hpool : thread.pool = some y.2) :
    OwnerLast s (.join pid) ↔
      (y.1 = pid → ∀ x ∈ s.threadpoolThreadlist.items, x.2.pool = some y.2 → x.1 = pid) := by
  obtain ⟨pool, hheap, hpid⟩ := h.allocated y hy
  constructor
  · intro hlast howns
    exact hlast _ hx rfl y.2 hpool pool hheap (hpid.trans howns)
  · intro hlast x hx' heq p hp pool' hheap' howns
    cases h.threads.eq_of_mem hx hx' heq.symm
    cases hpool.symm.trans hp
    cases hheap.symm.trans hheap'
    exact hlast (hpid.symm.trans howns)

/-- A join keeps the invariant if the owner of a pool is the last one to be joined, and otherwise a
registered thread is left with a pool that is not listed. -/
theorem poolDelThread_iff (pid : Nat) :
    (OwnerLast s (.join pid) → PoolInv (s.poolDelThread pid).1) ∧
      (Listed (s.poolDelThread pid).1 → OwnerLast s (.join pid)) := by
  obtain ⟨hno, heq⟩ | ⟨thread, hx, y, hy, hpool, hcase⟩ := h.poolDelThread_cases pid
  · rw [heq]
    exact ⟨fun _ => h, fun _ x hx heq => absurd (heq ▸ mem_map_of_mem hx) hno⟩
  · rw [h.ownerLast_iff hx hy hpool]
    obtain ⟨rfl, heq⟩ | ⟨hother, heq⟩ := hcase
    · rw [heq]
      rw [s.leave_withoutPool]
      exact ⟨fun hlast => h.without_owner hy (hlast rfl),
        fun hlisted _ => h.ownerLast_of_listed hy hlisted⟩
    · rw [heq]
      have hmember : ∀ z ∈ s.threadpoolList.items, z.1 ≠ pid := by
        intro z hz howns
        have haddress : z.2 = y.2 := Option.some.inj ((h.owns_own hx hz howns).symm.trans hpool)
        exact hother (h.pool_eq hz hy haddress ▸ howns)
      exact ⟨fun _ => (h.without_member hmember).onThreadlist y.2 fun l => (l.getMatchItem pid).2,
        fun _ howns => absurd howns hother⟩

theorem threadCancel_live (pid : Nat) (allthreads : Bool) :
    ∀ a ∈ (s.threadCancel pid allthreads).accesses, a.live = true := by
  unfold ThreadPools.threadCancel
  split
  · exact nofun
  · next x hfind =>
    have hlive := h.live (h.threads.findMatchItem_eq_some.mp hfind).1
    split
    · next p hp =>
      rw [hp] at hlive
      simpa using hlive
    · exact nofun

theorem usesLive (e : PoolCall) : UsesLive s e := by
  cases e with
  | create creator pid io =>
    unfold UsesLive poolMachine
    dsimp only
    split
    · exact h.startThread_live creator pid io
    · exact nofun
  | join pid => exact h.poolDelThread_live pid
  | cancel pid allthreads => exact h.threadCancel_live pid allthreads

theorem step {e : PoolCall} (hpossible : Possible s e) (hlast : OwnerLast s e) :
    PoolInv (poolMachine.step s e).1 := by
  cases e with
  | create creator pid io =>
    unfold poolMachine
    dsimp only
    split
    · exact h.startThread hpossible
    · exact h
  | join pid => exact (h.poolDelThread_iff pid).1 hlast
  | cancel pid allthreads => exact h

theorem staysListed_iff {e : PoolCall} (hpossible : Possible s e) : StaysListed s e ↔
    OwnerLast s e := by
  refine ⟨fun hlisted => ?_, fun hlast => (h.step hpossible hlast).listed⟩
  cases e with
  | create creator pid io => exact trivial
  | join pid => exact (h.poolDelThread_iff pid).2 hlisted
  | cancel pid allthreads => exact trivial

end

end PoolInv

/-! ## Runs -/

theorem pools_listed_iff (es : List PoolCall)
    (hpossible : poolMachine.Always Possible .initial es) :
    (poolMachine.Always StaysListed .initial es ↔ poolMachine.Always OwnerLast .initial es) ∧
      (poolMachine.Always OwnerLast .initial es → poolMachine.Always UsesLive .initial es) := by
  have hiff : poolMachine.Always (fun s e => Possible s e ∧ StaysListed s e) .initial es ↔
      poolMachine.Always (fun s e => Possible s e ∧ OwnerLast s e) .initial es :=
    always_congr (fun s e h => and_congr_right h.staysListed_iff)
      (fun s e h hp => h.step hp.1 ((h.staysListed_iff hp.1).mp hp.2)) es _ poolInv_initial
  rw [always_and, always_and, and_iff_right hpossible,
    and_iff_right hpossible] at hiff
  refine ⟨hiff, fun hlast => ?_⟩
  exact Always.of_invariant (fun s e h hc => ⟨h.usesLive e, h.step hc.1 hc.2⟩)
    poolInv_initial (always_and.mpr ⟨hpossible, hlast⟩)

/-- The call succeeds, and a pool gets the memory at `p`. -/
def CreateIo.ok (p : Nat) : CreateIo := ⟨true, some p, true, true, true⟩

/-- Thread 1 creates 2, which creates 3; 3 is joined before 2, whose pool is then used again. -/
theorem pools_listed_inOrder :
    let es : List PoolCall := [.create 1 2 (.ok 0), .create 2 3 (.ok 1), .cancel 2 true, .join 3,
      .join 2, .create 1 4 (.ok 0)]
    poolMachine.Always OwnerLast .initial es ∧ poolMachine.Always StaysListed .initial es ∧
      poolMachine.Always UsesLive .initial es := by
  intro es
  have hlast : poolMachine.Always OwnerLast .initial es := by decide
  have hlisted := pools_listed_iff es (by decide)
  exact ⟨hlast, hlisted.1.mpr hlast, hlisted.2 hlast⟩

/-- Thread 3 keeps the pointer, and its join uses it. -/
theorem ownerJoined_leaves_dangling :
    poolMachine.Always Possible .initial
        [.create 1 2 (.ok 0), .create 2 3 (.ok 1), .join 2, .join 3] ∧
      ¬ Listed (poolMachine.exec .initial
        [.create 1 2 (.ok 0), .create 2 3 (.ok 1), .join 2]).2 ∧
      (poolMachine.exec .initial
        [.create 1 2 (.ok 0), .create 2 3 (.ok 1), .join 2, .join 3]).1.getLast?.map
          (fun x => x.2.accesses) = some [⟨some 0, false⟩] := by
  decide

end AmlogicHal.Media
