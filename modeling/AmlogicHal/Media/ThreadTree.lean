import AmlogicHal.Lib.Forest
import AmlogicHal.Media.ExitFlag
import AmlogicHal.Media.ThreadPool

/-!
# Trees of threads

A thread that `amthreadpool.c` starts gets the pids of its ancestors in the array `ppid`, as many as
fit, and the pool of its creator. This model adds `ppid` and `on_required_exit` to the thread pools,
and compares them with the forest of all threads ever created: a thread whose creator is not
registered is a root, every other one is a child of its creator. Pids are used again after a join,
so a thread of the forest is named by its place in the order of creations.

1. `threadTree_matches`: if the thread a pool was made for is always joined last, `ppid` holds the
   first eight ancestors, two threads have the same pool exactly if they have the same root, and a
   command for the pool of a root sets the flags of that root and of the registered threads below
   it, and no other.
2. `reusedPool_cancelled`: a root that is joined before its child leaves it with a pool that is
   freed. The next root gets the same memory, and a cancel for that root reaches what the child
   creates.
-/

namespace AmlogicHal.Media

open Forest ThreadPools ItemList Function List Option

/-! ## The model -/

def maxThreadDepth : Nat := 8

/-- The loop of `amthreadpool_start_thread` from `i` on, with `n` passes left. -/
def copyPpid (parent : List Nat) : Nat → Nat → List Nat → List Nat
  | 0, _, ppid => ppid
  | n + 1, i, ppid =>
    if parent.getD i 0 = 0 then ppid
    else copyPpid parent n (i + 1) (ppid.set (i + 1) (parent.getD i 0))

/-- The array of a new thread; `parent` is the one of its creator, if that is registered. -/
def newPpid (creator : Nat) (parent : Option (List Nat)) : List Nat :=
  let ppid := (List.replicate maxThreadDepth 0).set 0 creator
  match parent with
  | none => ppid
  | some parent => copyPpid parent (maxThreadDepth - 1) 0 ppid

/-- The thread pools, and `ppid` and `on_required_exit` of the threads. -/
structure ThreadTree where
  pools : ThreadPools
  ppid : Nat → List Nat
  onRequiredExit : Nat → Int

def ThreadTree.initial : ThreadTree := ⟨.initial, fun _ => [], fun _ => 0⟩

/-- A command is a cancel or an uncancel. -/
inductive TreeCall
  | create (creator pid : Nat) (io : CreateIo)
  | join (pid : Nat)
  | command (pid : Nat) (cancel allthreads : Bool)

namespace ThreadTree

def create (creator pid : Nat) (io : CreateIo) (s : ThreadTree) : ThreadTree where
  pools := (s.pools.startThread creator pid io).1
  ppid := Function.update s.ppid pid (newPpid creator
    ((s.pools.threadpoolThreadlist.findMatchItem creator).map fun _ => s.ppid creator))
  onRequiredExit := Function.update s.onRequiredExit pid 0

def command (pid : Nat) (cancel allthreads : Bool) (s : ThreadTree) : ThreadTree :=
  { s with
    onRequiredExit := fun t =>
      if t ∈ (s.pools.threadCancel pid allthreads).woken then commandValue cancel
      else s.onRequiredExit t }

def step (s : ThreadTree) : TreeCall → ThreadTree
  | .create creator pid io => if io.started then s.create creator pid io else s
  | .join pid => { s with pools := (s.pools.poolDelThread pid).1 }
  | .command pid cancel allthreads => s.command pid cancel allthreads

end ThreadTree

def treeMachine : Machine ThreadTree TreeCall Unit where
  step s e := (s.step e, ())

/-- The call as the thread pools see it. -/
def TreeCall.toPoolCall : TreeCall → PoolCall
  | .create creator pid io => .create creator pid io
  | .join pid => .join pid
  | .command pid _ allthreads => .cancel pid allthreads

theorem treeMachine_pools (s : ThreadTree) (e : TreeCall) :
    (treeMachine.step s e).1.pools = (poolMachine.step s.pools e.toPoolCall).1 := by
  cases e with
  | create creator pid io =>
    simp only [treeMachine, ThreadTree.step, TreeCall.toPoolCall, poolMachine]
    split <;> rfl
  | join pid => rfl
  | command pid cancel allthreads => rfl

/-! ## The forest of creations -/

/-- All threads ever created, each under the pid of its creator, and the registered threads, by
pid. -/
structure Family where
  births : Forest Nat
  current : Nat → Option Nat

def Family.initial : Family := ⟨[], fun _ => none⟩

namespace Family

def create (creator pid : Nat) (f : Family) : Family where
  births := f.births ++ [⟨creator, f.current creator⟩]
  current := Function.update f.current pid (some f.births.length)

def without (f : Family) (pid : Nat) : Family :=
  { f with current := Function.update f.current pid none }

def step (f : Family) : TreeCall → Family
  | .create creator pid io => if io.started then f.create creator pid else f
  | .join pid => f.without pid
  | .command _ _ _ => f

end Family

def familyMachine : Machine Family TreeCall Unit where
  step f e := (f.step e, ())

/-! ## The array of ancestors -/

/-- The array that starts with the given pids. -/
def ppidArray (pids : List Nat) : List Nat :=
  pids.take maxThreadDepth ++ List.replicate (maxThreadDepth - pids.length) 0

theorem ppidArray_getD (pids : List Nat) {i : Nat} (hi : i < maxThreadDepth) :
    (ppidArray pids).getD i 0 = pids.getD i 0 := by
  have htake : (pids.take maxThreadDepth)[i]? = pids[i]? := List.getElem?_take_of_lt hi
  simp only [ppidArray, getD_eq_getElem?_getD, List.getElem?_append, htake]
  split
  · rfl
  · next hlen =>
    rw [List.getElem?_eq_none (l := pids), List.getElem?_replicate]
    · split <;> rfl
    · rw [length_take] at hlen
      omega

variable {pids : List Nat}

theorem ppidArray_of_length {n : Nat} (hlen : pids.length + n = maxThreadDepth) :
    ppidArray pids = pids ++ List.replicate n 0 := by
  unfold ppidArray
  rw [take_of_length_le (by omega), show maxThreadDepth - pids.length = n by omega]

theorem ppidArray_set {creator a : Nat} {i : Nat} (hi : i + 1 < maxThreadDepth)
    (ha : pids[i]? = some a) :
    (ppidArray (creator :: pids.take i)).set (i + 1) a =
      ppidArray (creator :: pids.take (i + 1)) := by
  obtain ⟨n, hn⟩ := Nat.exists_eq_add_of_lt hi
  have hlt : i < pids.length := (List.getElem?_eq_some_iff.mp ha).1
  have htake : (creator :: pids.take i).length = i + 1 := by
    rw [length_cons, length_take, Nat.min_eq_left (Nat.le_of_lt hlt)]
  have hnext : creator :: pids.take (i + 1) = (creator :: pids.take i) ++ [a] := by
    rw [take_add_one, ha]
    rfl
  have hmore : (creator :: pids.take (i + 1)).length = i + 2 := by
    rw [hnext, length_append, htake]
    rfl
  rw [ppidArray_of_length (n := n + 1) (by omega), ppidArray_of_length (n := n) (by omega),
    set_append_right _ _ (Nat.le_of_eq htake), htake, Nat.sub_self, hnext, append_assoc]
  rfl

variable (creator : Nat)

theorem copyPpid_eq (hpids : ∀ a ∈ pids, a ≠ 0) :
    ∀ n i, n + i = maxThreadDepth - 1 → i ≤ pids.length →
      copyPpid (ppidArray pids) n i (ppidArray (creator :: pids.take i)) =
        ppidArray (creator :: pids) := by
  intro n
  induction n with
  | zero =>
    intro i hi hle
    -- seven are copied, and the array is full
    have hfull : i = 7 := (Nat.zero_add i).symm.trans hi
    subst hfull
    have hnone : maxThreadDepth - (creator :: pids).length = 0 :=
      Nat.sub_eq_zero_of_le (Nat.succ_le_succ hle)
    rw [copyPpid, ppidArray_of_length, ppidArray, hnone]
    · rfl
    · rw [length_cons, length_take, Nat.min_eq_left hle]
      rfl
  | succ n ih =>
    intro i hi hle
    have hlt : i + 1 < maxThreadDepth := by
      omega
    rw [copyPpid, ppidArray_getD pids (by omega)]
    cases hget : pids[i]? with
    | none =>
      have hend : pids.take i = pids := take_of_length_le (List.getElem?_eq_none_iff.mp hget)
      rw [getD_eq_getElem?_getD, hget, getD_none, if_pos rfl, hend]
    | some a =>
      have hmem : a ≠ 0 := hpids a (mem_of_getElem? hget)
      rw [getD_eq_getElem?_getD, hget]
      dsimp only [getD_some]
      rw [if_neg hmem, ppidArray_set hlt hget]
      exact ih (i + 1) (by omega) (List.getElem?_eq_some_iff.mp hget).1

/-- What does not fit is left out. -/
example : newPpid 9 (some [8, 7, 6, 5, 4, 3, 2, 1]) = [9, 8, 7, 6, 5, 4, 3, 2] := by decide

theorem newPpid_child (hpids : ∀ a ∈ pids, a ≠ 0) :
    newPpid creator (some (ppidArray pids)) = ppidArray (creator :: pids) :=
  copyPpid_eq creator hpids _ 0 rfl (Nat.zero_le _)

/-! ## The threads of a pool -/

/-- The list of a pool has the registered threads with that pool, apart from the one it was made
for. -/
def Filled (s : ThreadPools) : Prop :=
  ∀ y ∈ s.threadpoolList.items, ∃ pool, s.heap y.2 = some pool ∧ pool.threadlist.Keyed ∧
    ∀ d, d ∈ pool.threadlist.datas ↔
      d ≠ y.1 ∧ ∃ thread, (d, thread) ∈ s.threadpoolThreadlist.items ∧ thread.pool = some y.2

theorem PoolInv.other_pool {s : ThreadPools} {pid : Nat} (hinv : PoolInv s)
    {thread : ThreadData} (hx : (pid, thread) ∈ s.threadpoolThreadlist.items)
    {z : Nat × Nat} (hne : thread.pool ≠ some z.2) (d : Nat) :
    (d ≠ z.1 ∧ ∃ thread, (d, thread) ∈ s.threadpoolThreadlist.items ∧ thread.pool = some z.2) ↔
      d ≠ z.1 ∧ ∃ thread, (d, thread) ∈ (s.without pid).threadpoolThreadlist.items ∧
        thread.pool = some z.2 := by
  refine and_congr_right fun _ => exists_congr fun other => and_congr_left fun hpool => ?_
  rw [hinv.mem_without]
  refine (and_iff_left_of_imp fun hmem heq => ?_).symm
  cases hinv.threads.eq_of_mem hx hmem heq.symm
  exact hne hpool

namespace Filled

variable {s : ThreadPools} {pid ppid : Nat} {io : CreateIo} (h : Filled s) (hinv : PoolInv s)
include h hinv

theorem child (hnew : pid ∉ s.threadpoolThreadlist.datas) (hmember : io.memberItem = true)
    (hthread : io.threadItem = true) {y : Nat × Nat} (hy : y ∈ s.threadpoolList.items) :
    Filled (s.poolAddThread pid ppid (some y.2) io).1 := by
  intro z hz
  obtain ⟨pool, hheap, hkeyed, hdatas⟩ := h z hz
  have hitems := hinv.register_items hnew ⟨ppid, some y.2⟩ hthread
  change ∃ pool, update s.heap y.2 _ z.2 = some pool ∧ _
  rcases eq_or_ne z.2 y.2 with heq | hne
  · cases hinv.pool_eq hz hy heq
    have habsent : pid ∉ pool.threadlist.datas := fun hmem => by
      obtain ⟨-, thread, hx, -⟩ := (hdatas pid).mp hmem
      exact hnew (mem_map_of_mem hx)
    have howner : pid ≠ y.1 := by
      rintro rfl
      obtain ⟨x, hx, heq, -⟩ := hinv.owner y hy
      exact hnew (heq ▸ mem_map_of_mem hx)
    rw [update_self, hheap]
    refine ⟨_, rfl, hkeyed.addTailDataExt _ _ _, fun d => ?_⟩
    change d ∈ (pool.threadlist.addTailDataExt pid _ io.memberItem).2.items.map Prod.fst ↔
      d ≠ y.1 ∧ ∃ thread, (d, thread) ∈ (s.register pid _ io).threadpoolThreadlist.items ∧ _
    rw [hmember, hkeyed.addTailDataExt_new habsent, hitems, map_append, mem_append]
    simp only [mem_append, map_cons, map_nil, mem_singleton, Prod.mk.injEq, or_and_right, exists_or]
    rw [and_or_left, ← hdatas d]
    refine or_congr_right ⟨?_, fun hd => ?_⟩
    · rintro rfl
      exact ⟨howner, _, ⟨rfl, rfl⟩, rfl⟩
    · obtain ⟨-, thread, ⟨rfl, -⟩, -⟩ := hd
      rfl
  · rw [update_of_ne hne]
    refine ⟨pool, hheap, hkeyed, fun d => (hdatas d).trans ?_⟩
    change _ ↔ d ≠ z.1 ∧
      ∃ thread, (d, thread) ∈ (s.register pid _ io).threadpoolThreadlist.items ∧ _
    rw [hitems]
    simp [or_and_right, exists_or, hne.symm]

theorem newRoot {p : Nat} (hnew : pid ∉ s.threadpoolThreadlist.datas)
    (hdata : io.poolData = some p) (hfree : s.heap p = none) (hitem : io.poolItem = true)
    (hthread : io.threadItem = true) : Filled (s.poolAddThread pid ppid none io).1 := by
  have hpools := hinv.createPool_items hnew (p := p) hitem
  have hitems := hinv.register_items hnew ⟨ppid, some p⟩ hthread
  -- nobody has a pool at an address that is free
  have hnobody : ∀ x ∈ s.threadpoolThreadlist.items, x.2.pool ≠ some p := by
    intro x hx heq
    have hlive := hinv.live hx
    simp [access, heq, hfree] at hlive
  unfold poolAddThread createPool
  rw [hdata]
  intro z hz
  change ∃ pool, update s.heap p _ z.2 = some pool ∧ _
  change z ∈ (s.threadpoolList.addTailDataExt pid p io.poolItem).2.items at hz
  rw [hpools] at hz
  rcases mem_append.mp hz with hz | hz
  · obtain ⟨pool, hheap, hkeyed, hdatas⟩ := h z hz
    have hne : z.2 ≠ p := fun heq => by simp [heq, hfree] at hheap
    rw [update_of_ne hne]
    refine ⟨pool, hheap, hkeyed, fun d => (hdatas d).trans ?_⟩
    change _ ↔ d ≠ z.1 ∧
      ∃ thread, (d, thread) ∈ (s.register pid _ io).threadpoolThreadlist.items ∧ _
    rw [hitems]
    simp [or_and_right, exists_or, hne.symm]
  · cases mem_singleton.mp hz
    rw [update_self]
    refine ⟨_, rfl, keyed_init, fun d => iff_of_false not_mem_nil ?_⟩
    rintro ⟨hne, thread, hmem, hpool⟩
    change (d, thread) ∈ (s.register pid _ io).threadpoolThreadlist.items at hmem
    rw [hitems] at hmem
    rcases mem_append.mp hmem with hmem | hmem
    · exact hnobody _ hmem hpool
    · cases mem_singleton.mp hmem
      exact hne rfl

theorem join (pid : Nat) : Filled (s.poolDelThread pid).1 := by
  obtain ⟨-, heq⟩ | ⟨thread, hx, y, hy, hpool, ⟨rfl, heq⟩ | ⟨hother, heq⟩⟩ :=
    hinv.poolDelThread_cases pid
  · rw [heq]
    exact h
  · rw [heq, leave_withoutPool]
    intro z hz
    obtain ⟨hz, hne⟩ := hinv.pools.mem_getMatchItem.mp hz
    have haddress : z.2 ≠ y.2 := fun heq => hne (congrArg Prod.fst (hinv.pool_eq hz hy heq))
    obtain ⟨pool, hheap, hkeyed, hdatas⟩ := h z hz
    refine ⟨pool, (update_of_ne haddress _ _).trans hheap, hkeyed, fun d => (hdatas d).trans ?_⟩
    exact hinv.other_pool hx (by simpa [hpool] using haddress.symm) d
  · rw [heq]
    intro z hz
    obtain ⟨pool, hheap, hkeyed, hdatas⟩ := h z hz
    change ∃ pool, update s.heap y.2 _ z.2 = some pool ∧ _
    rcases eq_or_ne z.2 y.2 with heq | hne
    · cases hinv.pool_eq hz hy heq
      rw [update_self, show (s.without pid).heap y.2 = some pool from hheap]
      refine ⟨_, rfl, hkeyed.getMatchItem pid, fun d => ?_⟩
      change d ∈ (pool.threadlist.getMatchItem pid).2.datas ↔
        d ≠ y.1 ∧ ∃ thread, (d, thread) ∈ (s.without pid).threadpoolThreadlist.items ∧ _
      rw [hkeyed.mem_getMatchItem_datas, hdatas d]
      simp only [hinv.mem_without]
      tauto
    · rw [update_of_ne hne]
      exact ⟨pool, hheap, hkeyed, fun d =>
        (hdatas d).trans (hinv.other_pool hx (by simpa [hpool] using hne.symm) d)⟩

end Filled

/-! ## The pools hold the family -/

/-- A family as it comes about: parents are older, and every registered thread is a node of its
own. -/
structure Family.Sound (f : Family) : Prop where
  grown : f.births.Grown
  born : ∀ pid n, f.current pid = some n → n < f.births.length
  single : ∀ pid pid' n, f.current pid = some n → f.current pid' = some n → pid = pid'

section

variable {f : Family} {creator pid d m : Nat}

theorem create_current : (f.create creator pid).current d = some m ↔
    d = pid ∧ m = f.births.length ∨ d ≠ pid ∧ f.current d = some m := by
  rcases eq_or_ne d pid with rfl | hne
  · simp [Family.create, eq_comm]
  · simp [Family.create, hne]

theorem without_current :
    (f.without pid).current d = some m ↔ d ≠ pid ∧ f.current d = some m := by
  rcases eq_or_ne d pid with rfl | hne
  · simp [Family.without]
  · simp [Family.without, hne]

variable (h : f.Sound)
include h

theorem Family.Sound.create : (f.create creator pid).Sound where
  grown := h.grown.snoc fun k hk => h.born creator k hk
  born d m hd := by
    rw [Family.create, length_append, length_singleton]
    rcases create_current.mp hd with ⟨-, rfl⟩ | ⟨-, hd⟩
    · exact Nat.lt_succ_self _
    · exact Nat.lt_succ_of_lt (h.born d m hd)
  single d d' m hd hd' := by
    rcases create_current.mp hd with ⟨rfl, rfl⟩ | ⟨-, hd⟩
    · rcases create_current.mp hd' with ⟨rfl, -⟩ | ⟨-, hd'⟩
      · rfl
      · exact absurd (h.born d' _ hd') (Nat.lt_irrefl _)
    · rcases create_current.mp hd' with ⟨-, rfl⟩ | ⟨-, hd'⟩
      · exact absurd (h.born d _ hd) (Nat.lt_irrefl _)
      · exact h.single d d' m hd hd'

theorem Family.Sound.join (pid : Nat) : (f.without pid).Sound where
  grown := h.grown
  born d m hd := h.born d m (without_current.mp hd).2
  single d d' m hd hd' := h.single d d' m (without_current.mp hd).2 (without_current.mp hd').2

end

/-- The threads of the family are registered, each with the pool of its root. -/
structure HoldsFamily (s : ThreadPools) (f : Family) : Prop where
  inv : PoolInv s
  filled : Filled s
  sound : f.Sound
  registered : ∀ pid, pid ∈ s.threadpoolThreadlist.datas ↔ ∃ n, f.current pid = some n
  pool : ∀ x ∈ s.threadpoolThreadlist.items, ∀ n, f.current x.1 = some n →
    ∃ y ∈ s.threadpoolList.items, x.2.pool = some y.2 ∧ f.current y.1 = some (f.births.root n)

theorem holdsFamily_initial : HoldsFamily .initial .initial :=
  ⟨poolInv_initial, nofun, ⟨grown_nil, nofun, nofun⟩, fun _ => ⟨nofun, nofun⟩, nofun⟩

namespace HoldsFamily

variable {s s' : ThreadPools} {f : Family} {pid creator : Nat} (h : HoldsFamily s f)
include h

/-- A new thread, with a pool that is listed for its root or for itself. -/
theorem create (thread : ThreadData) (hnew : pid ∉ s.threadpoolThreadlist.datas) (hinv : PoolInv s')
    (hfilled : Filled s')
    (hitems : s'.threadpoolThreadlist.items = s.threadpoolThreadlist.items ++ [(pid, thread)])
    (hlist : ∀ y ∈ s.threadpoolList.items, y ∈ s'.threadpoolList.items)
    (hthread : ∃ y ∈ s'.threadpoolList.items, thread.pool = some y.2 ∧
      (f.create creator pid).current y.1 =
        some ((f.create creator pid).births.root f.births.length)) :
    HoldsFamily s' (f.create creator pid) where
  inv := hinv
  filled := hfilled
  sound := h.sound.create
  registered d := by
    rw [datas, hitems, map_append, mem_append]
    simp only [create_current, exists_or]
    rcases eq_or_ne d pid with rfl | hne
    · simp
    · simpa [hne, datas] using h.registered d
  pool x hx n hn := by
    rw [hitems] at hx
    rcases mem_append.mp hx with hx | hx
    · rcases create_current.mp hn with ⟨heq, -⟩ | ⟨-, hn⟩
      · exact absurd (heq ▸ mem_map_of_mem hx) hnew
      · obtain ⟨y, hy, hpool, hroot⟩ := h.pool x hx n hn
        refine ⟨y, hlist y hy, hpool, create_current.mpr (.inr ⟨?_, ?_⟩)⟩
        · rintro rfl
          exact hnew ((h.registered _).mpr ⟨_, hroot⟩)
        · exact hroot.trans (congrArg some (root_snoc _ (h.sound.born x.1 n hn)).symm)
    · cases mem_singleton.mp hx
      rcases create_current.mp hn with ⟨-, rfl⟩ | ⟨hne, -⟩
      · exact hthread
      · exact absurd rfl hne

theorem join (hlast : OwnerLast s (.join pid)) :
    HoldsFamily (s.poolDelThread pid).1 (f.without pid) := by
  have hinv := (h.inv.poolDelThread_iff pid).1 hlast
  obtain ⟨hthreads, hpools⟩ := h.inv.poolDelThread_items pid
  refine ⟨hinv, h.filled.join h.inv pid, h.sound.join pid, fun d => ?_, fun x hx n hn => ?_⟩
  · simp only [without_current, exists_and_left, ← h.registered d, datas, List.mem_map, hthreads]
    constructor
    · rintro ⟨x, ⟨hx, hne⟩, rfl⟩
      exact ⟨hne, x, hx, rfl⟩
    · rintro ⟨hne, x, hx, rfl⟩
      exact ⟨x, ⟨hx, hne⟩, rfl⟩
  · -- the pool is still listed, so its owner is still registered
    obtain ⟨y, hy, hpool⟩ := hinv.listed x hx
    obtain ⟨z, hz, heq, -⟩ := hinv.owner y hy
    obtain ⟨y', hy', hpool', hroot⟩ :=
      h.pool x ((hthreads x).mp hx).1 n (without_current.mp hn).2
    cases h.inv.pool_eq (hpools y hy) hy' (Option.some.inj (hpool.symm.trans hpool'))
    exact ⟨y, hy, hpool, without_current.mpr ⟨heq ▸ ((hthreads z).mp hz).2, hroot⟩⟩

end HoldsFamily

/-! ## Calls and runs -/

/-- A thread that is started has a pid that no registered thread has, there is memory to register
it, and its creator has a pid other than zero. -/
def Creatable (s : ThreadTree) : TreeCall → Prop
  | .create creator pid io => io.started = true →
      Possible s.pools (.create creator pid io) ∧ creator ≠ 0 ∧ io.memberItem = true
  | _ => True

/-- The thread that a pool was made for is the last one of its pool to be joined. -/
def RootLast (s : ThreadTree) (e : TreeCall) : Prop := OwnerLast s.pools e.toPoolCall

instance (s : ThreadTree) (e : TreeCall) : Decidable (Creatable s e) := by
  cases e <;> unfold Creatable <;> infer_instance

instance (s : ThreadTree) (e : TreeCall) : Decidable (RootLast s e) :=
  inferInstanceAs (Decidable (OwnerLast _ _))

/-- The pools hold the family, and the arrays hold the lineages. -/
structure Related (s : ThreadTree) (f : Family) : Prop where
  holds : HoldsFamily s.pools f
  ppid : ∀ pid n, f.current pid = some n → s.ppid pid = ppidArray (f.births.lineage n)
  nonzero : ∀ pid n, f.current pid = some n → ∀ a ∈ f.births.lineage n, a ≠ 0

theorem related_initial : Related .initial .initial := ⟨holdsFamily_initial, nofun, nofun⟩

namespace Related

variable {s : ThreadTree} {f : Family} {pid creator : Nat} {io : CreateIo} (h : Related s f)
include h

theorem snoc {pools : ThreadPools} {pids : List Nat} {exits : Nat → Int}
    (hholds : HoldsFamily pools (f.create creator pid)) (hcreator : creator ≠ 0)
    (hpids : (f.create creator pid).births.lineage f.births.length = creator :: pids)
    (hnonzero : ∀ a ∈ pids, a ≠ 0) :
    Related ⟨pools, update s.ppid pid (ppidArray (creator :: pids)), exits⟩
      (f.create creator pid) where
  holds := hholds
  ppid d m hd := by
    dsimp only
    rcases create_current.mp hd with ⟨rfl, rfl⟩ | ⟨hne, hd⟩
    · rw [update_self, hpids]
    · rw [update_of_ne hne, h.ppid d m hd, Family.create,
        lineage_snoc _ (h.holds.sound.born d m hd)]
  nonzero d m hd := by
    rcases create_current.mp hd with ⟨-, rfl⟩ | ⟨-, hd⟩
    · rw [hpids]
      exact forall_mem_cons.mpr ⟨hcreator, hnonzero⟩
    · rw [Family.create, lineage_snoc _ (h.holds.sound.born d m hd)]
      exact h.nonzero d m hd

theorem create (hstarted : io.started = true) (hc : Creatable s (.create creator pid io)) :
    Related (s.create creator pid io) (f.create creator pid) := by
  obtain ⟨hpossible, hcreator, hmember⟩ := hc hstarted
  obtain ⟨hnew, ⟨p, hdata, hfree⟩, hitem, hthread⟩ := hpossible
  rw [Option.mem_def] at hdata
  have hinv := h.holds.inv
  have hstart : PoolInv (s.pools.startThread creator pid io).1 :=
    hinv.startThread ⟨hnew, ⟨p, hdata, hfree⟩, hitem, hthread⟩
  have hborn := fun k hk => h.holds.sound.born creator k hk
  have hlineage := lineage_new creator hborn
  have hroot := root_new creator hborn
  unfold ThreadTree.create
  unfold startThread at hstart ⊢
  cases hfind : s.pools.threadpoolThreadlist.findMatchItem creator with
  | none =>
    have hnone : f.current creator = none := by
      by_contra hsome
      exact not_mem_of_findMatchItem hfind
        ((h.holds.registered creator).mpr (Option.ne_none_iff_exists'.mp hsome))
    have hitems := hinv.createPool_items hnew (p := p) hitem
    rw [hfind] at hstart
    rw [hnone] at hlineage hroot
    refine h.snoc (h.holds.create ⟨creator, some p⟩ hnew hstart
      (h.holds.filled.newRoot hinv hnew hdata hfree hitem hthread) ?_ ?_ ?_) hcreator ?_
      (forall_mem_nil _)
    · simpa [poolAddThread, createPool, hdata, register] using hinv.register_items hnew _ hthread
    · intro y hy
      simpa [poolAddThread, createPool, hdata, register, hitems] using .inl hy
    · refine ⟨(pid, p), ?_, rfl, ?_⟩
      · simp [poolAddThread, createPool, hdata, register, hitems]
      · simpa [Family.create, hnone] using hroot.symm
    · simpa [Family.create, hnone] using hlineage
  | some x =>
    obtain ⟨hx, rfl⟩ := hinv.threads.findMatchItem_eq_some.mp hfind
    obtain ⟨k, hk⟩ := (h.holds.registered x.1).mp (mem_map_of_mem hx)
    obtain ⟨y, hy, hpool, howner⟩ := h.holds.pool x hx k hk
    have hparent := h.nonzero x.1 k hk
    rw [hfind] at hstart
    rw [hk] at hlineage hroot
    dsimp only [map_some] at hstart ⊢
    rw [hpool] at hstart ⊢
    rw [h.ppid x.1 k hk, newPpid_child x.1 hparent]
    refine h.snoc (h.holds.create ⟨x.1, some y.2⟩ hnew hstart
      (h.holds.filled.child hinv hnew hmember hthread hy) ?_ (fun _ hy => hy) ⟨y, hy, rfl, ?_⟩)
      hcreator ?_ hparent
    · exact hinv.register_items hnew _ hthread
    · have hne : y.1 ≠ pid := fun heq => hnew ((h.holds.registered _).mpr ⟨_, heq ▸ howner⟩)
      refine create_current.mpr (.inr ⟨hne, howner.trans ?_⟩)
      simpa [Family.create, hk] using hroot.symm
    · simpa [Family.create, hk] using hlineage

theorem step {e : TreeCall} (hc : Creatable s e) (hlast : RootLast s e) :
    Related (s.step e) (f.step e) := by
  cases e with
  | create creator pid io =>
    simp only [ThreadTree.step, Family.step]
    split
    · next hstarted => exact h.create hstarted hc
    · exact h
  | join pid =>
    exact ⟨h.holds.join hlast, fun d m hd => h.ppid d m (without_current.mp hd).2,
      fun d m hd => h.nonzero d m (without_current.mp hd).2⟩
  | command pid cancel allthreads => exact ⟨h.holds, h.ppid, h.nonzero⟩

end Related

/-- The registered threads are as the family has them: their arrays hold the first of their
ancestors, and two of them have the same pool exactly if they have the same root. -/
structure Matches (s : ThreadTree) (f : Family) : Prop where
  registered : ∀ pid, pid ∈ s.pools.threadpoolThreadlist.datas ↔ ∃ n, f.current pid = some n
  ppid : ∀ pid n, f.current pid = some n → s.ppid pid = ppidArray (f.births.lineage n)
  pools : ∀ x ∈ s.pools.threadpoolThreadlist.items, ∀ y ∈ s.pools.threadpoolThreadlist.items, ∀ n m,
    f.current x.1 = some n → f.current y.1 = some m →
    x.2.pool.isSome = true ∧ (x.2.pool = y.2.pool ↔ f.births.root n = f.births.root m)

/-- The registered thread `t` is the node `r` or stands below it. -/
def Family.InTree (f : Family) (r t : Nat) : Prop :=
  ∃ n, f.current t = some n ∧ (n = r ∨ f.births.Below r n)

/-- A command for the pool of a root sets the flags in its tree, and leaves the others alone. -/
def SetsTree (s : ThreadTree) (f : Family) : TreeCall → Prop
  | .command pid cancel true => ∀ r, f.current pid = some r → f.births.IsRoot r → ∀ t,
      (f.InTree r t → (s.command pid cancel true).onRequiredExit t = commandValue cancel) ∧
        (¬ f.InTree r t → (s.command pid cancel true).onRequiredExit t = s.onRequiredExit t)
  | _ => True

variable {s : ThreadTree} {f : Family}

theorem HoldsFamily.pool_iff {s : ThreadPools} (h : HoldsFamily s f) {x y : Nat × ThreadData}
    (hx : x ∈ s.threadpoolThreadlist.items) (hy : y ∈ s.threadpoolThreadlist.items) {n m : Nat}
    (hn : f.current x.1 = some n) (hm : f.current y.1 = some m) :
    x.2.pool = y.2.pool ↔ f.births.root n = f.births.root m := by
  obtain ⟨p, hp, hpool, hroot⟩ := h.pool x hx n hn
  obtain ⟨q, hq, hpool', hroot'⟩ := h.pool y hy m hm
  rw [hpool, hpool', Option.some_inj]
  constructor
  · intro heq
    cases h.inv.pool_eq hp hq heq
    exact Option.some.inj (hroot.symm.trans hroot')
  · intro heq
    rw [h.inv.pools.eq_of_mem hp hq (h.sound.single p.1 q.1 _ hroot (heq ▸ hroot'))]

theorem Related.toMatches (h : Related s f) : Matches s f := by
  refine ⟨h.holds.registered, h.ppid, fun x hx y hy n m hn hm => ⟨?_, h.holds.pool_iff hx hy hn hm⟩⟩
  obtain ⟨p, -, hpool, -⟩ := h.holds.pool x hx n hn
  exact hpool ▸ rfl

theorem Related.woken_iff (h : Related s f) {r : Nat} (hr : f.current pid = some r)
    (hroot : f.births.IsRoot r) (t : Nat) :
    t ∈ (s.pools.threadCancel pid true).woken ↔ f.InTree r t := by
  obtain ⟨x, hx, rfl⟩ := mem_map.mp ((h.holds.registered pid).mpr ⟨r, hr⟩)
  obtain ⟨y, hy, hpool, howner⟩ := h.holds.pool x hx r hr
  have hown := root_of_isRoot hroot
  rw [hown] at howner
  -- the pool was made for this thread
  have hpid : y.1 = x.1 := h.holds.sound.single y.1 x.1 r howner hr
  obtain ⟨pool, hheap, -, hdatas⟩ := h.holds.filled y hy
  obtain ⟨pool', hheap', hpid'⟩ := h.holds.inv.allocated y hy
  cases hheap.symm.trans hheap'
  have hfind := h.holds.inv.threads.findMatchItem_eq_some.mpr ⟨hx, rfl⟩
  have hwoken : (s.pools.threadCancel x.1 true).woken = pool.threadlist.datas ++ [x.1] := by
    simp [threadCancel, members, hfind, hpool, hheap, hpid'.trans hpid]
  rw [hwoken, mem_append, mem_singleton, hdatas t, hpid]
  constructor
  · rintro (⟨-, thread, ht, hsame⟩ | rfl)
    · obtain ⟨n, hn⟩ := (h.holds.registered t).mp (mem_map_of_mem ht)
      have hbelow := (h.holds.pool_iff ht hx hn hr).mp (hsame.trans hpool.symm)
      exact ⟨n, hn, (root_eq_iff h.holds.sound.grown hroot).mp (hbelow.trans hown)⟩
    · exact ⟨r, hr, .inl rfl⟩
  · rintro ⟨n, hn, htree⟩
    rcases eq_or_ne t x.1 with rfl | hne
    · exact .inr rfl
    · obtain ⟨⟨_, thread⟩, ht, rfl⟩ := mem_map.mp ((h.holds.registered t).mpr ⟨n, hn⟩)
      have hbelow := (root_eq_iff h.holds.sound.grown hroot).mpr htree
      exact .inl ⟨hne, thread, ht,
        ((h.holds.pool_iff ht hx hn hr).mpr (hbelow.trans hown.symm)).trans hpool⟩

theorem Related.setsTree (h : Related s f) (e : TreeCall) : SetsTree s f e := by
  cases e with
  | create | join => trivial
  | command pid cancel allthreads =>
    cases allthreads with
    | false => trivial
    | true =>
      intro r hr hroot t
      have hwoken := h.woken_iff hr hroot t
      exact ⟨fun ht => if_pos (hwoken.mpr ht), fun ht => if_neg fun hmem => ht (hwoken.mp hmem)⟩

/-- After the call the threads are as the family has them, and a command for a tree reaches that
tree. -/
def MatchesFamily (x : ThreadTree × Family) (e : TreeCall) : Prop :=
  Matches (x.1.step e) (x.2.step e) ∧ SetsTree x.1 x.2 e

theorem threadTree_matches (es : List TreeCall) (h : treeMachine.Always Creatable .initial es)
    (hlast : treeMachine.Always RootLast .initial es) :
    (treeMachine.both familyMachine).Always MatchesFamily (.initial, .initial) es :=
  Machine.Always.of_invariant (I := fun x : ThreadTree × Family => Related x.1 x.2)
    (fun _ e hx hc => ⟨⟨(hx.step hc.1 hc.2).toMatches, hx.setsTree e⟩, hx.step hc.1 hc.2⟩)
    related_initial (Machine.both_always.mpr (Machine.always_and.mpr ⟨h, hlast⟩))

/-- A root, its child and its grandchild; the child is joined, and the pool of the root is
cancelled. When the others are joined, the next root gets the memory of that pool. -/
theorem grandchild_matches :
    let es : List TreeCall :=
      [.create 1 2 (.ok 0), .create 2 3 (.ok 1), .create 3 4 (.ok 1), .join 3,
        .command 2 true true, .join 4, .join 2, .create 1 5 (.ok 0), .command 5 true true]
    treeMachine.Always Creatable .initial es ∧ treeMachine.Always RootLast .initial es ∧
      (treeMachine.both familyMachine).Always MatchesFamily (.initial, .initial) es := by
  intro es
  have hcreatable : treeMachine.Always Creatable .initial es := by decide
  have hlast : treeMachine.Always RootLast .initial es := by decide
  exact ⟨hcreatable, hlast, threadTree_matches es hcreatable hlast⟩

/-- Thread 1 creates 2, which creates 3. Thread 2 is joined, and 1 creates 5, whose pool gets the
memory of the pool that 3 still points to. Then 3 creates 4, and a cancel for 5 sets the flag of
4. -/
theorem reusedPool_cancelled :
    let es : List TreeCall :=
      [.create 1 2 (.ok 0), .create 2 3 (.ok 1), .join 2, .create 1 5 (.ok 0), .create 3 4 (.ok 1)]
    let x := ((treeMachine.both familyMachine).exec (.initial, .initial) es).2
    treeMachine.Always Creatable .initial es ∧
      x.2.births = [⟨1, none⟩, ⟨2, some 0⟩, ⟨1, none⟩, ⟨3, some 1⟩] ∧
      x.2.current 5 = some 2 ∧ x.2.current 4 = some 3 ∧
      x.1.onRequiredExit 4 = 0 ∧ (x.1.command 5 true true).onRequiredExit 4 = commandValue true ∧
      ¬ MatchesFamily x (.command 5 true true) := by
  intro es x
  have hbirths : x.2.births = [⟨1, none⟩, ⟨2, some 0⟩, ⟨1, none⟩, ⟨3, some 1⟩] := by decide
  have hflag : (x.1.command 5 true true).onRequiredExit 4 = commandValue true := by decide
  refine ⟨by decide, hbirths, rfl, rfl, rfl, hflag, fun hmatches => ?_⟩
  have hroot : x.2.births.IsRoot 2 := hbirths ▸ ⟨_, rfl, rfl⟩
  have hother : ¬ x.2.InTree 2 4 := by
    rintro ⟨n, hn, htree⟩
    cases (show x.2.current 4 = some 3 from rfl).symm.trans hn
    have hsound : x.2.Sound := (holdsFamily_initial.sound.create.create.join 2).create.create
    have htree := (root_eq_iff hsound.grown hroot).mpr htree
    simp [hbirths, root] at htree
  have hkept := (hmatches.2 2 rfl hroot 4).2 hother
  rw [hflag] at hkept
  exact absurd hkept (by decide)

end AmlogicHal.Media
