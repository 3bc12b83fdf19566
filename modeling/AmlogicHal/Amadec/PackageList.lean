import AmlogicHal.Lib.LinkedQueue
import AmlogicHal.Lib.Machine

/-!
# The package lists

The reader threads of `adec-ffmpeg-mgt.c` hand encoded packages to the decoder threads in a linked
list, and there is a second one for the associated audio. A list is a pointer to its first node, one
to its last and a counter. `package_add` does not write the link of a new node, so the last node
leads anywhere, and `package_list_free` even puts its link into `first`: only the counter tells that
the list is empty.

`PackageQueue` says what a list is for: a queue of at most eight packages.
`packageLists_are_queues`: both lists are such queues in every sequence of calls, with allocations
that may fail, and no call uses memory that is not allocated. What is allocated is what is in a
queue or in the hands of a caller, so a package is freed once and none is lost.
-/

namespace AmlogicHal.Amadec

open Heap Function List Option

/-- `struct package` without its link. `data` is a pointer. -/
@[ext]
structure Package (δ : Type) where
  data : δ
  size : Int
  pts : UInt64
deriving DecidableEq

/-- What a caller sees of a call: what it returned, the package it got, or the packages that were
freed. -/
inductive PackageAnswer (δ : Type)
  | ret (code : Int)
  | got (p : Option (Package δ))
  | freed (ps : List (Package δ))
deriving DecidableEq

/-! ## What a list is for -/

/-- A queue that never has more than eight packages. -/
@[ext]
structure PackageQueue (δ : Type) where
  packages : List (Package δ)
  fits : packages.length ≤ 8

/-- `memory` is whether an allocation would succeed. -/
inductive QueueCall (δ : Type)
  | add (p : Package δ) (memory : Bool)
  | get
  | free
deriving DecidableEq

namespace PackageQueue

variable {δ : Type}

def empty : PackageQueue δ := ⟨[], Nat.zero_le 8⟩

def add (p : Package δ) (memory : Bool) (q : PackageQueue δ) : PackageQueue δ × PackageAnswer δ :=
  if h : q.packages.length < 8 then
    if memory then (⟨q.packages ++ [p], List.length_append ▸ h⟩, .ret 0) else (q, .ret (-1))
  else (q, .ret (-2))

def get (q : PackageQueue δ) : PackageQueue δ × PackageAnswer δ :=
  (⟨q.packages.tail, List.length_tail ▸ (Nat.sub_le _ 1).trans q.fits⟩, .got q.packages.head?)

end PackageQueue

def packageQueue (δ : Type) : Machine (PackageQueue δ) (QueueCall δ) (PackageAnswer δ) where
  step
    | q, .add p memory => q.add p memory
    | q, .get => q.get
    | q, .free => (.empty, .freed q.packages)

/-! ## The model of the source -/

structure PackageList (κ : Type) where
  first : Option κ
  packNum : Nat
  current : Option κ
deriving DecidableEq

variable (w : PackListName)

section Model

variable {κ δ : Type}

namespace PackageList

def init : PackageList κ := ⟨none, 0, none⟩

def get (heap : Heap κ (Package δ)) (l : PackageList κ) : Option (Option κ × PackageList κ) :=
  if l.packNum = 0 then some (none, l)
  else if l.packNum = 1 then some (l.first, ⟨none, 0, none⟩)
  else do
    let node ← heap.load l.first
    some (l.first, { l with first := node.next, packNum := l.packNum - 1 })

variable [DecidableEq κ]

/-- `found` is what is in the memory that `malloc` returns. -/
def add (p : Package δ) (malloc : Option (κ × Node κ (Package δ))) (heap : Heap κ (Package δ))
    (l : PackageList κ) : Option (Int × Heap κ (Package δ) × PackageList κ) :=
  if l.packNum = 8 then some (-2, heap, l)
  else
    match malloc with
    | none => some (-1, heap, l)
    | some (a, found) =>
      let heap := heap.put a { found with payload := p }
      if l.packNum = 0 then some (0, heap, ⟨some a, 1, some a⟩)
      else do
        let heap ← heap.setNext l.current a
        some (0, heap, { l with current := some a, packNum := l.packNum + 1 })

/-- The loop of `package_list_free`, with the packages that it frees. -/
def freeLoop : Nat → Option κ → Heap κ (Package δ) →
    Option (List (κ × Package δ) × Heap κ (Package δ) × Option κ)
  | 0, first, heap => some ([], heap, first)
  | packNum + 1, first, heap => do
    let p ← first
    let node ← heap.load first
    let heap ← heap.free first
    let r ← freeLoop packNum node.next heap
    some ((p, node.payload) :: r.1, r.2)

def free (heap : Heap κ (Package δ)) (l : PackageList κ) :
    Option (List (κ × Package δ) × Heap κ (Package δ) × PackageList κ) :=
  (freeLoop l.packNum l.first heap).map fun r =>
    (r.1, r.2.1, { l with first := r.2.2, packNum := 0 })

end PackageList

open PackageList

/-- The two lists of an `aml_audio_dec_t`. -/
inductive PackListName
  | packList
  | adPackList
deriving DecidableEq

def PackListName.other : PackListName → PackListName
  | .packList => .adPackList
  | .adPackList => .packList

structure PackageLists (κ δ : Type) where
  heap : Heap κ (Package δ)
  lists : PackListName → PackageList κ
  /-- The packages that callers have got and not freed yet. -/
  held : List (κ × Package δ)

/-- A call on one of the lists, or a caller that frees the `n`th of the packages that callers
have. -/
inductive PackageEvent (κ δ : Type)
  | add (w : PackListName) (p : Package δ) (malloc : Option (κ × Node κ (Package δ)))
  | get (w : PackListName)
  | free (w : PackListName)
  | release (n : Nat)

namespace PackageLists

def init : PackageLists κ δ := ⟨.empty, fun _ => .init, []⟩

def getFrom (s : PackageLists κ δ) : Option (Option κ × PackageLists κ δ) :=
  ((s.lists w).get s.heap).map fun r => (r.1, { s with lists := Function.update s.lists w r.2 })

def packageGet : PackageLists κ δ → Option (Option κ × PackageLists κ δ) := getFrom .packList

def adPackageGet : PackageLists κ δ → Option (Option κ × PackageLists κ δ) := getFrom .adPackList

variable [DecidableEq κ]

def addTo (p : Package δ) (malloc : Option (κ × Node κ (Package δ)))
    (s : PackageLists κ δ) : Option (Int × PackageLists κ δ) :=
  ((s.lists w).add p malloc s.heap).map fun r =>
    (r.1, { s with heap := r.2.1, lists := Function.update s.lists w r.2.2 })

def packageAdd : Package δ → Option (κ × Node κ (Package δ)) → PackageLists κ δ →
    Option (Int × PackageLists κ δ) := addTo .packList

def adPackageAdd : Package δ → Option (κ × Node κ (Package δ)) → PackageLists κ δ →
    Option (Int × PackageLists κ δ) := addTo .adPackList

def freeFrom (s : PackageLists κ δ) :
    Option (List (κ × Package δ) × PackageLists κ δ) :=
  ((s.lists w).free s.heap).map fun r =>
    (r.1, { s with heap := r.2.1, lists := Function.update s.lists w r.2.2 })

def packageListFree : PackageLists κ δ → Option (List (κ × Package δ) × PackageLists κ δ) :=
  freeFrom .packList

def adPackageListFree : PackageLists κ δ → Option (List (κ × Package δ) × PackageLists κ δ) :=
  freeFrom .adPackList

/-- The caller reads the package that it got and has it from now on. -/
def hand (r : Option κ × PackageLists κ δ) : Option (PackageAnswer δ × PackageLists κ δ) :=
  match r with
  | (none, s) => some (.got none, s)
  | (some a, s) => (s.heap a).map fun node =>
    (.got (some node.payload), { s with held := (a, node.payload) :: s.held })

def release (n : Nat) (s : PackageLists κ δ) : Option (PackageLists κ δ) :=
  match s.held[n]? with
  | none => some s
  | some x => (s.heap.free (some x.1)).map fun heap =>
    { s with heap := heap, held := s.held.eraseIdx n }

def call (s : PackageLists κ δ) : PackageEvent κ δ → Option (PackageAnswer δ × PackageLists κ δ)
  | .add .packList p malloc => (s.packageAdd p malloc).map fun r => (.ret r.1, r.2)
  | .add .adPackList p malloc => (s.adPackageAdd p malloc).map fun r => (.ret r.1, r.2)
  | .get .packList => s.packageGet.bind hand
  | .get .adPackList => s.adPackageGet.bind hand
  | .free .packList => s.packageListFree.map fun r => (.freed (r.1.map Prod.snd), r.2)
  | .free .adPackList => s.adPackageListFree.map fun r => (.freed (r.1.map Prod.snd), r.2)
  | .release n => (s.release n).map fun s' => (.freed [], s')

end PackageLists

open PackageLists

/-- An event that uses memory that is not allocated has no answer. -/
def packageLists (κ δ : Type) [DecidableEq κ] :
    Machine (PackageLists κ δ) (PackageEvent κ δ) (Option (PackageAnswer δ)) where
  step s e :=
    match s.call e with
    | none => (s, none)
    | some r => (r.2, some r.1)

/-! ## One call -/

/-- The list has the packages `xs`. Without packages its pointers may be anything. -/
structure HasPackages (heap : Heap κ (Package δ)) (l : PackageList κ) (xs : List (κ × Package δ)) :
    Prop where
  count : l.packNum = xs.length
  linked : heap.Linked (xs.map Prod.fst)
  ends : xs ≠ [] → l.first = (xs.map Prod.fst).head? ∧ l.current = (xs.map Prod.fst).getLast?

/-- The nodes of `xs` lead to where they led before. -/
def KeepsLinks (heap heap' : Heap κ (Package δ)) (xs : List (κ × Package δ)) : Prop :=
  ∀ x ∈ xs, heap'.next x.1 = heap.next x.1

section Lists

variable {heap heap' : Heap κ (Package δ)} {l : PackageList κ} {x : κ × Package δ}
  {xs rest : List (κ × Package δ)}

theorem HasPackages.frame (h : HasPackages heap l xs) (hkeep : KeepsLinks heap heap' xs) :
    HasPackages heap' l xs := by
  refine ⟨h.count, h.linked.congr fun c hc => ?_, h.ends⟩
  obtain ⟨x, hx, rfl⟩ := mem_map.mp hc
  exact hkeep x hx

theorem hasPackages_nil {first current : Option κ} :
    HasPackages heap ⟨first, 0, current⟩ ([] : List (κ × Package δ)) :=
  ⟨rfl, .nil, fun h => (h rfl).elim⟩

theorem HasPackages.first_eq (h : HasPackages heap l (x :: xs)) : l.first = some x.1 :=
  (h.ends (cons_ne_nil x xs)).1

theorem PackageList.get_nil (h : HasPackages heap l []) : l.get heap = some (none, l) :=
  if_pos h.count

theorem PackageList.get_cons (h : HasPackages heap l (x :: xs)) :
    ∃ l', l.get heap = some (some x.1, l') ∧ HasPackages heap l' xs := by
  have hcount : l.packNum = xs.length + 1 := h.count
  cases xs with
  | nil =>
    refine ⟨⟨none, 0, none⟩, ?_, hasPackages_nil⟩
    simp [get, hcount, h.first_eq]
  | cons y ys =>
    obtain ⟨node, hnode, hnext⟩ := bind_eq_some_iff.mp h.linked.next_eq
    refine ⟨{ l with first := node.next, packNum := l.packNum - 1 }, ?_, ?_⟩
    · simp [get, hcount, h.first_eq, hnode]
    · refine ⟨?_, h.linked.tail, fun _ => ⟨hnext, ?_⟩⟩
      · rw [hcount]
        rfl
      · have hcurrent := (h.ends (cons_ne_nil _ _)).2
        rwa [map_cons, map_cons, List.getLast?_cons_cons] at hcurrent

variable [DecidableEq κ] {a : κ} {p : Package δ} {malloc : Option (κ × Node κ (Package δ))}

variable (h : HasPackages heap l xs)
include h

theorem PackageList.add_full (hfull : ¬ xs.length < 8)
    (hfits : xs.length ≤ 8) : l.add p malloc heap = some (-2, heap, l) := by
  have height : l.packNum = 8 := h.count.trans (Nat.le_antisymm hfits (Nat.not_lt.mp hfull))
  exact if_pos height

theorem PackageList.add_noMemory (hlt : xs.length < 8) :
    l.add p none heap = some (-1, heap, l) := by
  have hne : l.packNum ≠ 8 := h.count ▸ Nat.ne_of_lt hlt
  exact if_neg hne

/-- The new node may hold anything where its link is. -/
theorem PackageList.add_spec (ho : heap.Owned (xs ++ rest))
    (hlt : xs.length < 8) (ha : heap a = none) (found : Node κ (Package δ)) :
    ∃ heap' l', l.add p (some (a, found)) heap = some (0, heap', l') ∧
      HasPackages heap' l' (xs ++ [(a, p)]) ∧ heap'.Owned (xs ++ [(a, p)] ++ rest) ∧
      KeepsLinks heap heap' rest := by
  have hne : l.packNum ≠ 8 := h.count ▸ Nat.ne_of_lt hlt
  have hput := ho.put ha { found with payload := p }
  have hperm : ((a, p) :: (xs ++ rest)).Perm (xs ++ [(a, p)] ++ rest) := by
    rw [append_assoc]
    exact perm_middle.symm
  rcases eq_nil_or_concat' xs with rfl | ⟨front, last, rfl⟩
  · have hzero : l.packNum = 0 := h.count
    refine ⟨_, ⟨some a, 1, some a⟩, ?_, ⟨rfl, .singleton a, fun _ => ⟨rfl, rfl⟩⟩, hput, ?_⟩
    · simp [add, hzero]
    · exact fun x hx => next_of_eq (put_of_ne (ho.fresh_ne ha hx))
  · have hcount : l.packNum = front.length + 1 := by simpa using h.count
    have hlast : last ∈ front ++ [last] ++ rest := by simp
    have hcurrent : l.current = some last.1 := by
      have := (h.ends (by simp)).2
      simpa using this
    obtain ⟨q, hq⟩ := ho.node hlast
    have hnode : heap.put a { found with payload := p } last.1 = some ⟨last.2, q⟩ :=
      (put_of_ne (ho.fresh_ne ha hlast)).trans hq
    have hkeep : ∀ x ∈ front ++ [last] ++ rest, x.1 ≠ last.1 →
        ((heap.put a { found with payload := p }).put last.1 ⟨last.2, some a⟩).next x.1 =
          heap.next x.1 := by
      intro x hx hxlast
      refine next_of_eq ?_
      rw [put_of_ne hxlast, put_of_ne (ho.fresh_ne ha hx)]
    refine ⟨_, { l with current := some a, packNum := l.packNum + 1 }, ?_, ⟨?_, ?_, ?_⟩,
      (hput.putNext hnode (some a)).perm hperm, ?_⟩
    · have hpos : l.packNum ≠ 0 := hcount ▸ Nat.succ_ne_zero _
      simp [add, hne, hpos, hcurrent, setNext_eq hnode]
    · simp [hcount]
    · have hlinked := h.linked
      rw [map_append] at hlinked
      rw [map_append, map_append, append_assoc]
      refine hlinked.concat (by simp [Heap.next]) fun c hc => ?_
      obtain ⟨x, hx, rfl⟩ := mem_map.mp hc
      rw [append_assoc] at ho
      exact hkeep x (by simp [hx]) (ho.ne hx (by simp))
    · intro _
      have hfirst := (h.ends (by simp)).1
      rw [hfirst]
      simp
    · intro x hx
      exact hkeep x (mem_append_right _ hx) (ho.ne (by simp) hx).symm

omit h in
theorem PackageList.freeLoop_spec : ∀ (xs : List (κ × Package δ)) {heap : Heap κ (Package δ)}
    {first : Option κ}, heap.Linked (xs.map Prod.fst) → heap.Owned (xs ++ rest) →
    (xs ≠ [] → first = (xs.map Prod.fst).head?) →
    ∃ heap' first', freeLoop xs.length first heap = some (xs, heap', first') ∧
      heap'.Owned rest ∧ KeepsLinks heap heap' rest
  | [], heap, first, _, ho, _ => ⟨heap, first, rfl, ho, fun _ _ => rfl⟩
  | x :: xs, heap, first, hl, ho, hfirst => by
    obtain ⟨q, hq⟩ := ho.node mem_cons_self
    have hx : first = some x.1 := hfirst (cons_ne_nil x xs)
    have hsame : ∀ y ∈ xs ++ rest, (heap.remove x.1).next y.1 = heap.next y.1 := fun y hy =>
      next_of_eq (remove_of_ne (ho.head_ne hy))
    have hlinked : (heap.remove x.1).Linked (xs.map Prod.fst) := by
      refine hl.tail.congr fun c hc => ?_
      obtain ⟨y, hy, rfl⟩ := mem_map.mp hc
      exact hsame y (mem_append_left _ hy)
    have hnext : xs ≠ [] → q = (xs.map Prod.fst).head? := by
      intro hne
      cases xs with
      | nil => exact (hne rfl).elim
      | cons y ys =>
        have hlink := hl.next_eq
        rwa [Heap.next, hq] at hlink
    obtain ⟨heap', first', hloop, hrest, hkeep⟩ := freeLoop_spec xs hlinked ho.remove hnext
    refine ⟨heap', first', ?_, hrest, fun y hy => ?_⟩
    · simp [freeLoop, hx, hq, free_eq hq, hloop]
    · exact (hkeep y hy).trans (hsame y (mem_append_right _ hy))

theorem PackageList.free_spec (ho : heap.Owned (xs ++ rest)) :
    ∃ heap' l', l.free heap = some (xs, heap', l') ∧ HasPackages heap' l' [] ∧ heap'.Owned rest ∧
      KeepsLinks heap heap' rest := by
  obtain ⟨heap', first', hloop, hrest, hkeep⟩ :=
    freeLoop_spec xs h.linked ho fun hne => (h.ends hne).1
  refine ⟨heap', { l with first := first', packNum := 0 }, ?_, hasPackages_nil, hrest, hkeep⟩
  rw [free, h.count, hloop, map_some]

end Lists

/-! ## Both lists -/

/-- The call of an event on the list `w`, as the queue sees it. -/
def PackageEvent.callTo : PackageEvent κ δ → Option (QueueCall δ)
  | .add w' p malloc => if w' = w then some (.add p malloc.isSome) else none
  | .get w' => if w' = w then some .get else none
  | .free w' => if w' = w then some .free else none
  | .release _ => none

/-- `malloc` returns memory that is not in use. -/
def FreshMemory (s : PackageLists κ δ) : PackageEvent κ δ → Prop
  | .add _ _ (some (a, _)) => s.heap a = none
  | _ => True

instance (s : PackageLists κ δ) : ∀ e, Decidable (FreshMemory s e)
  | .add _ _ (some (a, _)) => inferInstanceAs (Decidable (s.heap a = none))
  | .add _ _ none => .isTrue trivial
  | .get _ => .isTrue trivial
  | .free _ => .isTrue trivial
  | .release _ => .isTrue trivial

/-- The lists have the packages `q`, and what is allocated are these and those that callers have. -/
structure HoldsPackages (s : PackageLists κ δ) (q : PackListName → List (κ × Package δ)) :
    Prop where
  represents : ∀ w, HasPackages s.heap (s.lists w) (q w)
  owned : s.heap.Owned (q .packList ++ (q .adPackList ++ s.held))
  fits : ∀ w, (q w).length ≤ 8

section Both

variable {s : PackageLists κ δ} {q : PackListName → List (κ × Package δ)}

theorem PackListName.other_ne : w.other ≠ w := by
  cases w <;> decide

theorem PackListName.eq_or_eq_other (w w' : PackListName) : w' = w ∨ w' = w.other := by
  cases w <;> cases w' <;> decide

theorem perm_parts (held : List (κ × Package δ)) :
    (q .packList ++ (q .adPackList ++ held)).Perm (q w ++ (q w.other ++ held)) := by
  cases w with
  | packList => rfl
  | adPackList => exact perm_append_comm_assoc _ _ _

variable (h : HoldsPackages s q)
include h

theorem HoldsPackages.owned_at :
    s.heap.Owned (q w ++ (q w.other ++ s.held)) :=
  h.owned.perm (perm_parts w s.held)

omit h in
theorem init_holdsPackages : HoldsPackages (.init : PackageLists κ δ) fun _ => [] :=
  ⟨fun _ => hasPackages_nil, owned_empty, fun _ => Nat.zero_le 8⟩

theorem HoldsPackages.replace {w : PackListName} {heap' : Heap κ (Package δ)}
    {l' : PackageList κ} {xs' held' : List (κ × Package δ)} (hrep : HasPackages heap' l' xs')
    (hkeep : KeepsLinks s.heap heap' (q w.other)) (ho : heap'.Owned (xs' ++ (q w.other ++ held')))
    (hfits : xs'.length ≤ 8) :
    HoldsPackages ⟨heap', update s.lists w l', held'⟩ (update q w xs') := by
  have hother : update q w xs' w.other = q w.other := update_of_ne w.other_ne _ _
  refine ⟨fun w' => ?_, ?_, fun w' => ?_⟩
  · show HasPackages heap' (update s.lists w l' w') (update q w xs' w')
    rcases w.eq_or_eq_other w' with rfl | rfl
    · rwa [update_self, update_self]
    · rw [update_of_ne w.other_ne, hother]
      exact (h.represents w.other).frame hkeep
  · refine Owned.perm ?_ (perm_parts w held').symm
    rwa [update_self, hother]
  · rcases w.eq_or_eq_other w' with rfl | rfl
    · rwa [update_self]
    · rw [hother]
      exact h.fits w.other

omit h in
theorem KeepsLinks.refl (heap : Heap κ (Package δ)) (xs : List (κ × Package δ)) :
    KeepsLinks heap heap xs := fun _ _ => rfl

omit h in
theorem KeepsLinks.left {heap heap' : Heap κ (Package δ)} {xs ys : List (κ × Package δ)}
    (h : KeepsLinks heap heap' (xs ++ ys)) : KeepsLinks heap heap' xs :=
  fun x hx => h x (mem_append_left ys hx)

variable [DecidableEq κ]

/-- A call does on the list `w` what it does on the queue, and nothing on the other list. -/
def CallConforms (s : PackageLists κ δ) (q : PackListName → List (κ × Package δ))
    (e : PackageEvent κ δ) (w : PackListName) (r : PackageQueue δ × PackageAnswer δ) : Prop :=
  ∃ s' xs', s.call e = some (r.2, s') ∧ HoldsPackages s' (Function.update q w xs') ∧
    r.1.packages = xs'.map Prod.snd

theorem conforms_of_unchanged {e : PackageEvent κ δ} {w : PackListName}
    {r : PackageQueue δ × PackageAnswer δ}
    (hr : r.1.packages = (q w).map Prod.snd)
    (hcall : s.call e = some (r.2, { s with lists := update s.lists w (s.lists w) })) :
    CallConforms s q e w r :=
  ⟨_, q w, hcall, h.replace (h.represents w) (.refl _ _) (h.owned_at w) (h.fits w), hr⟩

variable {w : PackListName} {queue : PackageQueue δ}

section

variable (hq : queue.packages = (q w).map Prod.snd)
include hq

theorem PackageLists.add_conforms
    (p : Package δ)
    (malloc : Option (κ × Node κ (Package δ))) (hfresh : FreshMemory s (.add w p malloc)) :
    CallConforms s q (.add w p malloc) w (queue.add p malloc.isSome) := by
  have hcall : s.call (.add w p malloc) = (s.addTo w p malloc).map fun r => (.ret r.1, r.2) := by
    cases w <;> rfl
  have hlen : queue.packages.length = (q w).length := by rw [hq, length_map]
  rcases Nat.lt_or_ge (q w).length 8 with hlt | hge
  · cases malloc with
    | none =>
      have hadd : queue.add p false = (queue, .ret (-1)) := by simp [PackageQueue.add, hlen, hlt]
      rw [isSome_none, hadd]
      refine conforms_of_unchanged h hq (hcall.trans ?_)
      rw [addTo, add_noMemory (h.represents w) hlt]
      rfl
    | some m =>
      obtain ⟨a, found⟩ := m
      obtain ⟨heap', l', hspec, hrep, howned, hkeep⟩ :=
        add_spec (h.represents w) (h.owned_at w) hlt hfresh found
      have hfits : (q w ++ [(a, p)]).length ≤ 8 := length_append ▸ hlt
      refine ⟨_, q w ++ [(a, p)], hcall.trans ?_, h.replace hrep hkeep.left howned hfits, ?_⟩
      · rw [addTo, hspec]
        simp [PackageQueue.add, hlen, hlt]
      · simp [PackageQueue.add, hlt, hq]
  · have hadd : queue.add p malloc.isSome = (queue, .ret (-2)) := by
      simp [PackageQueue.add, hlen, Nat.not_lt.mpr hge]
    rw [hadd]
    refine conforms_of_unchanged h hq (hcall.trans ?_)
    rw [addTo, add_full (h.represents w) (Nat.not_lt.mpr hge) (h.fits w)]
    rfl

theorem PackageLists.get_conforms : CallConforms s q (.get w) w queue.get := by
  have hcall : s.call (.get w) = (s.getFrom w).bind hand := by
    cases w <;> rfl
  cases hxs : q w with
  | nil =>
    rw [hxs] at hq
    have hget : queue.get.2 = .got none := by simp [PackageQueue.get, hq]
    refine conforms_of_unchanged h (by simp [PackageQueue.get, hq, hxs]) (hcall.trans ?_)
    rw [getFrom, get_nil (hxs ▸ h.represents w), hget]
    rfl
  | cons x xs =>
    have howned := h.owned_at w
    have hlen := h.fits w
    rw [hxs] at hq howned hlen
    obtain ⟨l', hget, hrep⟩ := get_cons (hxs ▸ h.represents w)
    obtain ⟨p, hnode⟩ := howned.node mem_cons_self
    -- the first node goes from the list to the caller
    have hmoved : s.heap.Owned (xs ++ (q w.other ++ x :: s.held)) := by
      refine howned.perm ?_
      rw [← append_assoc, ← append_assoc]
      exact perm_middle.symm
    refine ⟨_, xs, hcall.trans ?_, h.replace hrep (.refl _ _) hmoved (Nat.le_of_succ_le hlen), ?_⟩
    · rw [getFrom, hget]
      simp [hand, PackageQueue.get, hnode, hq]
    · simp [PackageQueue.get, hq]

theorem PackageLists.free_conforms :
    CallConforms s q (.free w) w (.empty, .freed queue.packages) := by
  have hcall : s.call (.free w) = (s.freeFrom w).map fun r => (.freed (r.1.map Prod.snd), r.2) := by
    cases w <;> rfl
  obtain ⟨heap', l', hfree, hrep, howned, hkeep⟩ := free_spec (h.represents w) (h.owned_at w)
  refine ⟨_, [], hcall.trans ?_, h.replace hrep hkeep.left howned (Nat.zero_le 8), rfl⟩
  rw [freeFrom, hfree, hq]
  rfl

end

theorem PackageLists.release_spec (n : Nat) : ∃ s', s.release n = some s' ∧ HoldsPackages s' q := by
  cases hx : s.held[n]? with
  | none =>
    refine ⟨s, ?_, h⟩
    rw [release, hx]
  | some x =>
    obtain ⟨hn, hget⟩ := List.getElem?_eq_some_iff.mp hx
    have howned : s.heap.Owned (x :: (q .packList ++ (q .adPackList ++ s.held.eraseIdx n))) := by
      refine h.owned.perm ?_
      have hheld : s.held.Perm (x :: s.held.eraseIdx n) :=
        (hget ▸ getElem_cons_eraseIdx_perm hn).symm
      refine ((hheld.append_left _).append_left _).trans ?_
      rw [← append_assoc, ← append_assoc]
      exact perm_middle
    obtain ⟨p, hnode⟩ := howned.node mem_cons_self
    refine ⟨{ s with heap := s.heap.remove x.1, held := s.held.eraseIdx n }, ?_, ?_⟩
    · simp [release, hx, free_eq hnode]
    · refine ⟨fun w => (h.represents w).frame fun y hy => ?_, howned.remove, h.fits⟩
      refine next_of_eq (remove_of_ne (howned.head_ne ?_))
      cases w with
      | packList => exact mem_append_left _ hy
      | adPackList => exact mem_append_right _ (mem_append_left _ hy)

end Both

/-! ## Runs -/

def callsOf (es : List (PackageEvent κ δ)) : List (QueueCall δ) :=
  es.filterMap (·.callTo w)

def answersOf (h : List (PackageEvent κ δ × Option (PackageAnswer δ))) :
    List (Option (PackageAnswer δ)) :=
  (h.filter fun x => (x.1.callTo w).isSome).map Prod.snd

def advanceQueues (e : PackageEvent κ δ) (queues : PackListName → PackageQueue δ)
    (w : PackListName) : PackageQueue δ :=
  match e.callTo w with
  | none => queues w
  | some c => ((packageQueue δ).step (queues w) c).1

variable [DecidableEq κ]

def Simulates (s : PackageLists κ δ) (queues : PackListName → PackageQueue δ) : Prop :=
  ∃ q, HoldsPackages s q ∧ ∀ w, (queues w).packages = (q w).map Prod.snd

structure EventConforms (queues : PackListName → PackageQueue δ) (e : PackageEvent κ δ)
    (r : PackageLists κ δ × Option (PackageAnswer δ)) : Prop where
  simulates : Simulates r.1 (advanceQueues e queues)
  answered : r.2 ≠ none
  answer : ∀ w c, e.callTo w = some c → r.2 = some ((packageQueue δ).step (queues w) c).2

variable {s : PackageLists κ δ} {queues : PackListName → PackageQueue δ}
  {q : PackListName → List (κ × Package δ)} {e : PackageEvent κ δ}

theorem CallConforms.event {w : PackListName} {c : QueueCall δ}
    (h : CallConforms s q e w ((packageQueue δ).step (queues w) c))
    (hq : ∀ w, (queues w).packages = (q w).map Prod.snd) (hw : e.callTo w = some c)
    (hother : e.callTo w.other = none) :
    EventConforms queues e ((packageLists κ δ).step s e) := by
  obtain ⟨s', xs', hcall, hholds, hpackages⟩ := h
  have hstep : (packageLists κ δ).step s e = (s', some ((packageQueue δ).step (queues w) c).2) := by
    simp [packageLists, hcall]
  rw [hstep]
  refine ⟨⟨_, hholds, fun w' => ?_⟩, some_ne_none _, fun w' c' hc' => ?_⟩
  · rcases w.eq_or_eq_other w' with rfl | rfl
    · rw [advanceQueues, hw, update_self]
      exact hpackages
    · rw [advanceQueues, hother, update_of_ne w.other_ne]
      exact hq w.other
  · rcases w.eq_or_eq_other w' with rfl | rfl
    · cases hw.symm.trans hc'
      rfl
    · exact absurd (hother.symm.trans hc') (some_ne_none c').symm

theorem step_conforms (h : Simulates s queues) (hfresh : FreshMemory s e) :
    EventConforms queues e ((packageLists κ δ).step s e) := by
  obtain ⟨q, hholds, hq⟩ := h
  cases e with
  | add w p malloc =>
    exact (add_conforms hholds (hq w) p malloc hfresh).event hq (if_pos rfl)
      (if_neg w.other_ne.symm)
  | get w =>
    exact (get_conforms hholds (hq w)).event hq (if_pos rfl) (if_neg w.other_ne.symm)
  | free w =>
    exact (free_conforms hholds (hq w)).event hq (if_pos rfl) (if_neg w.other_ne.symm)
  | release n =>
    obtain ⟨s', hrelease, hholds'⟩ := release_spec hholds n
    have hstep : (packageLists κ δ).step s (.release n) = (s', some (.freed [])) := by
      simp [packageLists, call, hrelease]
    rw [hstep]
    refine ⟨⟨q, hholds', hq⟩, some_ne_none _, fun _ _ hc => ?_⟩
    exact absurd hc (some_ne_none _).symm

theorem exec_conforms : ∀ (es : List (PackageEvent κ δ)) {s : PackageLists κ δ}
    {queues : PackListName → PackageQueue δ}, Simulates s queues →
    (packageLists κ δ).Always FreshMemory s es →
    (∀ w, answersOf w ((packageLists κ δ).exec s es).1 =
      ((packageQueue δ).exec (queues w) (callsOf w es)).1.map fun x => some x.2) ∧
      (∀ x ∈ ((packageLists κ δ).exec s es).1, x.2 ≠ none) ∧
      Simulates ((packageLists κ δ).exec s es).2 fun w =>
        ((packageQueue δ).exec (queues w) (callsOf w es)).2
  | [], _, _, h, _ => ⟨fun _ => rfl, fun _ hx => absurd hx not_mem_nil, h⟩
  | e :: es, s, queues, h, hfresh => by
    obtain ⟨hsim, hanswered, hanswer⟩ := step_conforms h hfresh.1
    obtain ⟨hanswers, hall, hend⟩ := exec_conforms es hsim hfresh.2
    have hqueue : ∀ w, (packageQueue δ).exec (queues w) (callsOf w (e :: es)) =
        match e.callTo w with
        | none => (packageQueue δ).exec (advanceQueues e queues w) (callsOf w es)
        | some c =>
          ((c, ((packageQueue δ).step (queues w) c).2) ::
            ((packageQueue δ).exec (advanceQueues e queues w) (callsOf w es)).1,
            ((packageQueue δ).exec (advanceQueues e queues w) (callsOf w es)).2) := by
      intro w
      unfold callsOf advanceQueues
      cases hc : e.callTo w with
      | none => simp [hc]
      | some c => simp [hc, Machine.exec]
    refine ⟨fun w => ?_, ?_, ?_⟩
    · have hrest := hanswers w
      rw [hqueue]
      cases hc : e.callTo w with
      | none => simpa [answersOf, Machine.exec, hc] using hrest
      | some c => simpa [answersOf, Machine.exec, hc, hanswer w c hc] using hrest
    · intro x hx
      rcases mem_cons.mp hx with rfl | hx
      · exact hanswered
      · exact hall x hx
    · have hsame : (fun w => ((packageQueue δ).exec (queues w) (callsOf w (e :: es))).2) =
          fun w => ((packageQueue δ).exec (advanceQueues e queues w) (callsOf w es)).2 := by
        funext w
        rw [hqueue]
        cases e.callTo w <;> rfl
      rw [hsame]
      exact hend

/-- Callers free packages in between. Two runs with the same calls, one on each list, have the same
answers.
-/
theorem packageLists_are_queues (es : List (PackageEvent κ δ))
    (hfresh : (packageLists κ δ).Always FreshMemory .init es) :
    (∀ w, answersOf w ((packageLists κ δ).exec .init es).1 =
      ((packageQueue δ).exec .empty (callsOf w es)).1.map fun x => some x.2) ∧
      (∀ x ∈ ((packageLists κ δ).exec .init es).1, x.2 ≠ none) ∧
      (∃ q : PackListName → List (κ × Package δ),
        (∀ w, (q w).map Prod.snd = ((packageQueue δ).exec .empty (callsOf w es)).2.packages) ∧
          ((packageLists κ δ).exec .init es).2.heap.Owned
            (q .packList ++ (q .adPackList ++ ((packageLists κ δ).exec .init es).2.held))) ∧
      ∀ es' : List (PackageEvent κ δ), (packageLists κ δ).Always FreshMemory .init es' →
        callsOf .packList es = callsOf .adPackList es' →
        answersOf .packList ((packageLists κ δ).exec .init es).1 =
          answersOf .adPackList ((packageLists κ δ).exec .init es').1 := by
  have hinit : Simulates (.init : PackageLists κ δ) fun _ => .empty :=
    ⟨fun _ => [], init_holdsPackages, fun _ => rfl⟩
  obtain ⟨hanswers, hall, q, hholds, hq⟩ := exec_conforms es hinit hfresh
  refine ⟨hanswers, hall, ⟨q, fun w => (hq w).symm, hholds.owned⟩, fun es' hfresh' hcalls => ?_⟩
  have hanswers' := (exec_conforms es' hinit hfresh').1
  rw [hanswers .packList, hanswers' .adPackList, hcalls]

end Model

/-- Two packages are added and freed, and then two more are added, for one of which there is no
memory; the node of the other one is at an address that was used before. -/
def reuseAfterFree (address : Nat) : List (PackageEvent Nat Nat) :=
  [.add w ⟨7, 100, 0⟩ (some (address, ⟨⟨0, 0, 0⟩, none⟩)),
    .add w ⟨8, 200, 90⟩ (some (address + 1, ⟨⟨0, 0, 0⟩, some 5⟩)), .free w,
    .add w ⟨9, 300, 180⟩ (some (address, ⟨⟨7, 100, 0⟩, some (address + 1)⟩)),
    .add w ⟨10, 400, 270⟩ none, .get w, .get w, .release 0]

theorem packageLists_are_queues_reuseAfterFree :
    (packageLists Nat Nat).Always FreshMemory .init (reuseAfterFree .packList 1) ∧
      (packageLists Nat Nat).Always FreshMemory .init (reuseAfterFree .adPackList 20) ∧
      answersOf .packList ((packageLists Nat Nat).exec .init (reuseAfterFree .packList 1)).1 =
        [some (.ret 0), some (.ret 0), some (.freed [⟨7, 100, 0⟩, ⟨8, 200, 90⟩]), some (.ret 0),
          some (.ret (-1)), some (.got (some ⟨9, 300, 180⟩)), some (.got none)] ∧
      answersOf .packList ((packageLists Nat Nat).exec .init (reuseAfterFree .packList 1)).1 =
        answersOf .adPackList
          ((packageLists Nat Nat).exec .init (reuseAfterFree .adPackList 20)).1 := by
  have hfresh : (packageLists Nat Nat).Always FreshMemory .init (reuseAfterFree .packList 1) := by
    decide
  have hfresh' : (packageLists Nat Nat).Always FreshMemory .init
      (reuseAfterFree .adPackList 20) := by
    decide
  obtain ⟨hanswers, -, -, hsame⟩ := packageLists_are_queues _ hfresh
  refine ⟨hfresh, hfresh', (hanswers .packList).trans (by decide), hsame _ hfresh' (by decide)⟩

end AmlogicHal.Amadec
