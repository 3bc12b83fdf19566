import AmlogicHal.Lib.LinkedRing
import AmlogicHal.Media.ItemList
import Mathlib.Algebra.GroupWithZero.Nat
import Mathlib.Data.List.Find
import Mathlib.Data.List.Perm.Basic

/-!
# Item lists with their links

`ItemList` has the items of a list as a plain list. In `itemlist.c` they are nodes in a ring of
pointers, with a counter beside it, in memory that is allocated and freed one by one. Here are the
links of all nodes, the counter, and which items were allocated and which were freed. The deque
beside it has the items of the list, and those that callers have because a call returned them.

`itemlist_refines_deque`: the two levels agree on every sequence of operations. The ring has the
nodes of the list in its order, the counter is its length and stays within the limit, and every item
that was allocated is in the list, with a caller of the deque, or freed once.

The loops of the source follow the links. Here they get as many turns as the counter says, and one
more; that they come to their end is a part of the result.
-/

namespace AmlogicHal.Media

open List Option

variable {κ δ ε : Type}

/-- The addresses of the list and those that `list_del` leaves in a node. -/
structure ListAddresses (κ : Type) where
  /-- `&itemlist->list`. -/
  head : κ
  poison₁ : κ
  poison₂ : κ

structure LinkedList (κ δ ε : Type) where
  links : Links κ
  itemData : κ → δ
  ext : κ → ε
  itemCount : Int
  maxItems : Int
  rejectSameItemData : Bool
  /-- What `item_alloc` returned. -/
  allocated : List κ
  /-- What `item_free` was called for. -/
  freed : List κ

namespace LinkedList

variable [DecidableEq κ] (m : ListAddresses κ)

def init (links : Links κ) (itemData : κ → δ) (ext : κ → ε) (maxItems : Int)
    (rejectSameItemData : Bool) : LinkedList κ δ ε :=
  ⟨links.initHead m.head, itemData, ext, 0, maxItems, rejectSameItemData, [], []⟩

def itemAlloc (a : κ) (s : LinkedList κ δ ε) : LinkedList κ δ ε :=
  { s with allocated := a :: s.allocated }

def itemFree (a : κ) (s : LinkedList κ δ ε) : LinkedList κ δ ε :=
  { s with freed := a :: s.freed }

/-- Whoever has an item fills in its data. -/
def fill (a : κ) (data : δ) (ext : ε) (s : LinkedList κ δ ε) : LinkedList κ δ ε :=
  { s with itemData := Function.update s.itemData a data, ext := Function.update s.ext a ext }

def addTail (a : κ) (s : LinkedList κ δ ε) : Int × LinkedList κ δ ε :=
  if 0 < s.maxItems ∧ s.maxItems ≤ s.itemCount then (-1, s)
  else
    (0, { s with
      links := s.links.addTail a m.head
      itemCount := s.itemCount + 1 })

/-- `list_del` and the counter. -/
def takeOut (a : κ) (s : LinkedList κ δ ε) : LinkedList κ δ ε :=
  { s with
    links := s.links.del m.poison₁ m.poison₂ a
    itemCount := s.itemCount - 1 }

def getHead (s : LinkedList κ δ ε) : Option κ × LinkedList κ δ ε :=
  if s.links.isEmpty m.head then (none, s)
  else (some (s.links.next m.head), s.takeOut m (s.links.next m.head))

def getTail (s : LinkedList κ δ ε) : Option κ × LinkedList κ δ ε :=
  if s.links.isEmpty m.head then (none, s)
  else (some (s.links.prev m.head), s.takeOut m (s.links.prev m.head))

def delItem (a : κ) (s : LinkedList κ δ ε) : Int × LinkedList κ δ ε := (0, s.takeOut m a)

/-- How many turns a loop is given. -/
def turns (s : LinkedList κ δ ε) : Nat := s.itemCount.toNat + 1

section Match

variable [DecidableEq δ]

def findMatchItem (data : δ) (s : LinkedList κ δ ε) : Option (Option κ) :=
  s.links.findFrom m.head (fun a => s.itemData a = data) s.turns (s.links.next m.head)

def getMatchItem (data : δ) (s : LinkedList κ δ ε) : Option (Option κ × LinkedList κ δ ε) :=
  (s.findMatchItem m data).map fun
    | none => (none, s)
    | some a => (some a, s.takeOut m a)

def haveMatchData (data : δ) (s : LinkedList κ δ ε) : Option Bool :=
  (s.findMatchItem m data).map Option.isSome

/-- The condition under which `itemlist_add_tail_data_ext` has nothing to add. -/
def rejectsSame (data : δ) (s : LinkedList κ δ ε) : Option Bool :=
  if s.rejectSameItemData then s.haveMatchData m data else some false

/-- `address` is what `item_alloc` returns. -/
def addTailDataExt (data : δ) (ext : ε) (address : Option κ) (s : LinkedList κ δ ε) :
    Option (Int × LinkedList κ δ ε) := do
  let same ← s.rejectsSame m data
  if same then
    some (0, s)
  else
    match address with
    | none => some (-12, s)
    | some a =>
      let r := ((s.itemAlloc a).fill a data ext).addTail m a
      if r.1 ≠ 0 then some (-1, r.2.itemFree a) else some (0, r.2)

def delMatchDataItem (data : δ) (s : LinkedList κ δ ε) : Option (Int × LinkedList κ δ ε) :=
  (s.getMatchItem m data).map fun
    | (none, s') => (-1, s')
    | (some a, s') => (0, s'.itemFree a)

variable [Zero δ]

/-- The loop of `itemlist_clean`, with the data that were handed to `free_fun`. -/
def cleanLoop (freeFun : Bool) :
    Nat → κ → κ → List δ → LinkedList κ δ ε → Option (List δ × LinkedList κ δ ε)
  | 0, _, _, _, _ => none
  | turns + 1, llist, tmplist, datas, s =>
    if llist = m.head then some (datas, s)
    else
      let datas := if freeFun ∧ s.itemData llist ≠ 0 then datas ++ [s.itemData llist] else datas
      let s := (s.takeOut m llist).itemFree llist
      cleanLoop freeFun turns tmplist (s.links.next tmplist) datas s

def clean (freeFun : Bool) (s : LinkedList κ δ ε) : Option (List δ × LinkedList κ δ ε) :=
  let first := s.links.next m.head
  s.cleanLoop m freeFun s.turns first (s.links.next first) []

end Match

end LinkedList

/-! ## The deque -/

/-- Items of the deque have their address with them. -/
abbrev Deque (κ δ ε : Type) := ItemList δ (ε × κ)

namespace ItemList

def address (x : Item δ (ε × κ)) : κ := x.2.2

def addresses (l : Deque κ δ ε) : List κ := l.items.map address

def delItem [DecidableEq κ] (a : κ) (l : Deque κ δ ε) : Deque κ δ ε :=
  { l with items := l.items.eraseP fun x => address x = a }

/-- What is handed to `free_fun`, and the list behind. -/
def clean [DecidableEq δ] [Zero δ] (freeFun : Bool) (l : Deque κ δ ε) : List δ × Deque κ δ ε :=
  (if freeFun then l.datas.filter (· ≠ 0) else [], { l with items := [] })

theorem clean_cons [DecidableEq δ] [Zero δ] (freeFun : Bool) (l : Deque κ δ ε)
    (x : Item δ (ε × κ)) (items : List (Item δ (ε × κ))) :
    (({ l with items := x :: items } : Deque κ δ ε).clean freeFun).1 =
      (if freeFun ∧ x.1 ≠ 0 then [x.1] else []) ++
        (({ l with items := items } : Deque κ δ ε).clean freeFun).1 := by
  cases freeFun with
  | false => simp [clean]
  | true =>
    by_cases hx : x.1 = 0
    · simp [clean, datas, hx]
    · simp [clean, datas, hx]

theorem exists_split_of_find? {α : Type} {p : α → Bool} {xs : List α} {x : α}
    (hfind : xs.find? p = some x) : ∃ ys zs, xs = ys ++ x :: zs ∧ xs.eraseP p = ys ++ zs := by
  obtain ⟨hx, ys, zs, rfl, hys⟩ := List.find?_eq_some_iff_append.mp hfind
  refine ⟨ys, zs, rfl, ?_⟩
  rw [eraseP_append_right _ (fun y hy => by simpa using hys y hy), eraseP_cons_of_pos hx]

theorem getMatchItem_none [DecidableEq δ] {l : ItemList δ ε} {data : δ}
    (hfind : l.findMatchItem data = none) : l.getMatchItem data = (none, l) := by
  have hsame : l.items.eraseP (fun item => item.1 = data) = l.items :=
    eraseP_of_forall_not (List.find?_eq_none.mp hfind)
  rw [getMatchItem, hfind, hsame]

end ItemList

open ItemList

/-! ## Operations -/

inductive ItemCall (κ δ ε : Type) where
  /-- A caller allocates an item. -/
  | alloc (a : κ)
  /-- A caller frees an item. -/
  | free (a : κ)
  /-- A caller fills an item and adds it. -/
  | addTail (a : κ) (data : δ) (ext : ε)
  | addTailDataExt (data : δ) (ext : ε) (address : Option κ)
  | getHead
  | getTail
  | getMatch (data : δ)
  | delMatch (data : δ)
  | delItem (a : κ)
  | clean (freeFun : Bool)

inductive ItemReply (κ δ : Type) where
  | done
  | ret (value : Int)
  | item (a : Option κ)
  | cleaned (datas : List δ)
deriving DecidableEq, Repr

section Machines

variable [DecidableEq κ] [DecidableEq δ] [Zero δ] (m : ListAddresses κ)

/-- An operation on the links, with nothing if a loop does not come to its end. -/
def LinkedList.call (s : LinkedList κ δ ε) :
    ItemCall κ δ ε → Option (LinkedList κ δ ε × ItemReply κ δ)
  | .alloc a => some (s.itemAlloc a, .done)
  | .free a => some (s.itemFree a, .done)
  | .addTail a data ext =>
    let r := (s.fill a data ext).addTail m a
    some (r.2, .ret r.1)
  | .addTailDataExt data ext address =>
    (s.addTailDataExt m data ext address).map fun r => (r.2, .ret r.1)
  | .getHead => some ((s.getHead m).2, .item (s.getHead m).1)
  | .getTail => some ((s.getTail m).2, .item (s.getTail m).1)
  | .getMatch data => (s.getMatchItem m data).map fun r => (r.2, .item r.1)
  | .delMatch data => (s.delMatchDataItem m data).map fun r => (r.2, .ret r.1)
  | .delItem a => some ((s.delItem m a).2, .ret (s.delItem m a).1)
  | .clean freeFun => (s.clean m freeFun).map fun r => (r.2, .cleaned r.1)

/-- After an operation that does not come to its end there is no state, and no result of a later
one. -/
def linkedMachine :
    Machine (Option (LinkedList κ δ ε)) (ItemCall κ δ ε) (Option (ItemReply κ δ)) where
  step s c :=
    match s.bind fun s => s.call m c with
    | none => (none, none)
    | some (s', reply) => (some s', some reply)

/-- The deque, and the items that callers have: those they allocate, those that a get returns and
those they delete from the list, until they free or add them. -/
structure DequeState (κ δ ε : Type) where
  list : Deque κ δ ε
  held : List κ

/-- The item, if there is one, is returned to the caller. -/
def DequeState.returns (held : List κ) (r : Option (Item δ (ε × κ)) × Deque κ δ ε) :
    DequeState κ δ ε :=
  ⟨r.2, (r.1.map ItemList.address).toList ++ held⟩

def dequeMachine : Machine (DequeState κ δ ε) (ItemCall κ δ ε) (ItemReply κ δ) where
  step d
    | .alloc a => (⟨d.list, a :: d.held⟩, .done)
    | .free a => (⟨d.list, d.held.erase a⟩, .done)
    | .addTail a data ext =>
      let r := d.list.addTail (data, ext, a)
      (⟨r.2, if r.1 = 0 then d.held.erase a else d.held⟩, .ret r.1)
    | .addTailDataExt data _ none =>
      (d, .ret (if d.list.rejectSameItemData && d.list.haveMatchData data then 0 else -12))
    | .addTailDataExt data ext (some a) =>
      let r := d.list.addTailDataExt data (ext, a) true
      (⟨r.2, d.held⟩, .ret r.1)
    | .getHead => (.returns d.held d.list.getHead, .item (d.list.getHead.1.map ItemList.address))
    | .getTail => (.returns d.held d.list.getTail, .item (d.list.getTail.1.map ItemList.address))
    | .getMatch data =>
      let r := d.list.getMatchItem data
      (.returns d.held r, .item (r.1.map ItemList.address))
    | .delMatch data =>
      let r := d.list.delMatchDataItem data
      (⟨r.2, d.held⟩, .ret r.1)
    | .delItem a => (⟨d.list.delItem a, a :: d.held⟩, .ret 0)
    | .clean freeFun => (⟨(d.list.clean freeFun).2, d.held⟩, .cleaned (d.list.clean freeFun).1)

end Machines

/-! ## The relation between them -/

/-- The links, the counter and the memory of a list are those of a deque. -/
structure Conforms (m : ListAddresses κ) (s : LinkedList κ δ ε) (l : Deque κ δ ε) (held : List κ) :
    Prop where
  ring : s.links.Ring m.head l.addresses
  count : s.itemCount = l.items.length
  limit : 0 < s.maxItems → s.itemCount ≤ s.maxItems
  contents : ∀ x ∈ l.items, s.itemData (ItemList.address x) = x.1 ∧
    s.ext (ItemList.address x) = x.2.1
  maxItems : l.maxItems = s.maxItems.toNat
  rejects : l.rejectSameItemData = s.rejectSameItemData
  /-- No item is in the list twice, or in the list and with a caller. -/
  live : (l.addresses ++ held).Nodup
  outside : m.head ∉ held
  /-- What was allocated was freed once, or is in the list, or with a caller. -/
  custody : s.allocated.Perm (s.freed ++ (l.addresses ++ held))

/-- An address that `item_alloc` may return. -/
def FreshAddress (m : ListAddresses κ) (d : DequeState κ δ ε) (a : κ) : Prop :=
  a ≠ m.head ∧ a ∉ d.list.addresses ++ d.held

namespace Conforms

variable {m : ListAddresses κ} {s : LinkedList κ δ ε} {l : Deque κ δ ε} {held : List κ} {a : κ}

section

variable (h : Conforms m s l held)
include h

theorem held_notMem (ha : a ∈ held) : a ∉ m.head :: l.addresses := by
  intro hmem
  rcases mem_cons.mp hmem with rfl | hlist
  · exact h.outside ha
  · exact (nodup_append.mp h.live).2.2 a hlist a ha rfl

theorem itemAlloc (hfresh : FreshAddress m ⟨l, held⟩ a) :
    Conforms m (s.itemAlloc a) l (a :: held) := by
  have hmoved : (l.addresses ++ a :: held).Perm (a :: (l.addresses ++ held)) := perm_middle
  refine { h with live := ?_, outside := ?_, custody := ?_ }
  · exact hmoved.nodup_iff.mpr (nodup_cons.mpr ⟨hfresh.2, h.live⟩)
  · exact fun hmem => (mem_cons.mp hmem).elim (fun heq => hfresh.1 heq.symm) h.outside
  · exact ((h.custody.cons a).trans perm_middle.symm).trans (hmoved.symm.append_left _)

theorem isFull_iff : l.isFull = true ↔ 0 < s.maxItems ∧ s.maxItems ≤ s.itemCount := by
  rw [isFull, decide_eq_true_eq, h.maxItems, h.count]
  omega

theorem turns_eq : s.turns = l.addresses.length + 1 := by
  rw [LinkedList.turns, h.count, addresses, length_map]
  rfl

end

variable [DecidableEq κ]

theorem itemFree (h : Conforms m s l held) (ha : a ∈ held) :
    Conforms m (s.itemFree a) l (held.erase a) := by
  have hsub : held.erase a |>.Sublist held := erase_sublist
  refine { h with live := ?_, outside := ?_, custody := ?_ }
  · exact h.live.sublist (hsub.append_left _)
  · exact fun hmem => h.outside (hsub.subset hmem)
  · have hheld : (l.addresses ++ held).Perm (a :: (l.addresses ++ held.erase a)) :=
      ((perm_cons_erase ha).append_left _).trans perm_middle
    exact h.custody.trans ((hheld.append_left _).trans perm_middle)

theorem fill (h : Conforms m s l held) (ha : a ∈ held) (data : δ) (ext : ε) :
    Conforms m (s.fill a data ext) l held := by
  refine { h with contents := fun x hx => ?_ }
  have hne : address x ≠ a := by
    rintro rfl
    exact h.held_notMem ha (mem_cons_of_mem _ (mem_map_of_mem hx))
  simp only [LinkedList.fill, Function.update_of_ne hne]
  exact h.contents x hx

theorem fill_item (data : δ) (ext : ε) :
    ((s.fill a data ext).itemData a, (s.fill a data ext).ext a, a) = (data, ext, a) := by
  simp [LinkedList.fill]

theorem addTail (h : Conforms m s l held) (ha : a ∈ held) :
    (s.addTail m a).1 = (l.addTail (s.itemData a, s.ext a, a)).1 ∧
      Conforms m (s.addTail m a).2 (l.addTail (s.itemData a, s.ext a, a)).2
        (if (l.addTail (s.itemData a, s.ext a, a)).1 = 0 then held.erase a else held) := by
  unfold LinkedList.addTail ItemList.addTail
  by_cases hfull : l.isFull = true
  · rw [if_pos hfull, if_pos (h.isFull_iff.mp hfull)]
    exact ⟨rfl, h⟩
  · have hroom : ¬ (0 < s.maxItems ∧ s.maxItems ≤ s.itemCount) :=
      fun hlimit => hfull (h.isFull_iff.mpr hlimit)
    rw [if_neg hfull, if_neg hroom]
    have haddresses : (l.items ++ [(s.itemData a, s.ext a, a)]).map address =
        l.addresses ++ [a] := by
      simp [addresses, address]
    have hheld : (l.addresses ++ held).Perm (l.addresses ++ [a] ++ held.erase a) := by
      rw [append_assoc, singleton_append]
      exact (perm_cons_erase ha).append_left _
    refine ⟨rfl, { h with ring := ?_, count := ?_, limit := ?_, contents := ?_, live := ?_,
                          outside := ?_, custody := ?_ }⟩
    · rw [addresses, haddresses]
      exact h.ring.addTail (h.held_notMem ha)
    · rw [length_append, length_singleton, h.count]
      rfl
    · dsimp only
      omega
    · intro x hx
      rcases mem_append.mp hx with hold | hnew
      · exact h.contents x hold
      · rw [mem_singleton.mp hnew]
        exact ⟨rfl, rfl⟩
    · rw [addresses, haddresses]
      exact hheld.nodup_iff.mp h.live
    · exact fun hmem => h.outside (mem_of_mem_erase hmem)
    · rw [addresses, haddresses]
      exact h.custody.trans (hheld.append_left _)

theorem addTail_rejected (hret : (s.addTail m a).1 ≠ 0) : s.addTail m a = (-1, s) := by
  unfold LinkedList.addTail at hret ⊢
  split at hret
  · next hfull => rw [if_pos hfull]
  · exact absurd rfl hret

variable {ys zs : List (Item δ (ε × κ))} {x : Item δ (ε × κ)}

section

variable (h : Conforms m s l held)
include h

theorem takeOut (hitems : l.items = ys ++ x :: zs) :
    Conforms m (s.takeOut m (address x)) { l with items := ys ++ zs } (address x :: held) := by
  have hbefore : l.addresses = ys.map address ++ address x :: zs.map address := by
    rw [addresses, hitems, map_append, map_cons]
  have hmoved : (l.addresses ++ held).Perm ((ys ++ zs).map address ++ address x :: held) := by
    rw [hbefore, map_append]
    exact (perm_middle.append_right _).trans perm_middle.symm
  have hring := h.ring
  rw [hbefore] at hring
  refine { h with
    ring := ?_, count := ?_, limit := ?_, contents := ?_, live := ?_, outside := ?_, custody := ?_ }
  · change Links.Ring _ m.head ((ys ++ zs).map address)
    rw [map_append]
    exact hring.del
  · have hcount := h.count
    rw [hitems] at hcount
    simp only [length_append, length_cons] at hcount ⊢
    change s.itemCount - 1 = _
    omega
  · have hlimit := h.limit
    change 0 < s.maxItems → s.itemCount - 1 ≤ s.maxItems
    omega
  · intro y hy
    apply h.contents y
    rw [hitems]
    rcases mem_append.mp hy with hfront | hback
    · exact mem_append_left _ hfront
    · exact mem_append_right _ (mem_cons_of_mem _ hback)
  · exact hmoved.nodup_iff.mp h.live
  · intro hmem
    rcases mem_cons.mp hmem with heq | hheld
    · apply (nodup_cons.mp hring.nodup).1
      rw [heq]
      exact mem_append_right _ mem_cons_self
    · exact h.outside hheld
  · exact h.custody.trans (hmoved.append_left _)

/-! ## Heads, tails and matches -/

theorem isEmpty_iff : s.links.isEmpty m.head = true ↔ l.items = [] := by
  rw [h.ring.isEmpty_iff, addresses, map_eq_nil_iff]

theorem taken (hitems : l.items = ys ++ x :: zs) {address : κ}
    (haddress : address = ItemList.address x) {r : Option (Item δ (ε × κ)) × Deque κ δ ε}
    (hr : r = (some x, { l with items := ys ++ zs })) :
    some address = r.1.map ItemList.address ∧
      Conforms m (s.takeOut m address) r.2 (DequeState.returns held r).held := by
  subst haddress hr
  exact ⟨rfl, h.takeOut hitems⟩

theorem getHead : (s.getHead m).1 = l.getHead.1.map address ∧
    Conforms m (s.getHead m).2 l.getHead.2 (DequeState.returns held l.getHead).held := by
  unfold LinkedList.getHead
  cases hitems : l.items with
  | nil =>
    have hsame : l.getHead = (none, l) := by
      obtain ⟨items, maxItems, rejects⟩ := l
      cases hitems
      rfl
    rw [if_pos (h.isEmpty_iff.mpr hitems), hsame]
    exact ⟨rfl, h⟩
  | cons x items =>
    have hnext : s.links.next m.head = address x := by
      rw [h.ring.next_head, addresses, hitems]
      rfl
    rw [if_neg (fun hempty => by rw [h.isEmpty_iff.mp hempty] at hitems; cases hitems)]
    refine h.taken (show l.items = [] ++ x :: items from hitems) hnext ?_
    rw [ItemList.getHead, hitems]
    rfl

theorem getTail : (s.getTail m).1 = l.getTail.1.map address ∧
    Conforms m (s.getTail m).2 l.getTail.2 (DequeState.returns held l.getTail).held := by
  unfold LinkedList.getTail
  rcases eq_nil_or_concat' l.items with hitems | ⟨front, x, hitems⟩
  · have hsame : l.getTail = (none, l) := by
      obtain ⟨items, maxItems, rejects⟩ := l
      cases hitems
      rfl
    rw [if_pos (h.isEmpty_iff.mpr hitems), hsame]
    exact ⟨rfl, h⟩
  · have hprev : s.links.prev m.head = address x := by
      rw [h.ring.prev_head, addresses, hitems]
      simp
    rw [if_neg (fun hempty => by rw [h.isEmpty_iff.mp hempty] at hitems; simp at hitems)]
    refine h.taken hitems hprev ?_
    rw [ItemList.getTail, hitems]
    simp

theorem delItem (ha : a ∈ l.addresses) : Conforms m (s.takeOut m a) (l.delItem a) (a :: held) := by
  have hsome : (l.items.find? fun x => address x = a).isSome = true := by
    obtain ⟨x, hx, haddress⟩ := mem_map.mp ha
    exact List.find?_isSome.mpr ⟨x, hx, decide_eq_true haddress⟩
  obtain ⟨x, hfind⟩ := isSome_iff_exists.mp hsome
  obtain ⟨ys, zs, hitems, herase⟩ := exists_split_of_find? hfind
  have haddress : address x = a := by
    simpa using List.find?_some hfind
  rw [ItemList.delItem, herase, ← haddress]
  exact h.takeOut hitems

end

section Match

variable [DecidableEq δ]

variable (h : Conforms m s l held)
include h

variable (data : δ)

theorem findMatchItem : s.findMatchItem m data = some ((l.findMatchItem data).map address) := by
  have hturns : l.addresses.length < s.turns := by
    rw [h.turns_eq]
    exact Nat.lt_succ_self _
  rw [LinkedList.findMatchItem, h.ring.findFrom _ hturns, addresses, List.find?_map,
    ItemList.findMatchItem]
  congr 2
  apply List.find?_congr
  intro x hx
  rw [Function.comp_apply, (h.contents x hx).1]

theorem getMatchItem :
    ∃ r, s.getMatchItem m data = some r ∧
      r.1 = (l.getMatchItem data).1.map address ∧
      Conforms m r.2 (l.getMatchItem data).2
        (DequeState.returns held (l.getMatchItem data)).held := by
  have hloop := h.findMatchItem data
  cases hfind : l.findMatchItem data with
  | none =>
    rw [hfind] at hloop
    refine ⟨(none, s), by rw [LinkedList.getMatchItem, hloop]; rfl, ?_⟩
    rw [getMatchItem_none hfind]
    exact ⟨rfl, h⟩
  | some x =>
    rw [hfind] at hloop
    obtain ⟨ys, zs, hitems, herase⟩ := exists_split_of_find? hfind
    refine ⟨(some _, s.takeOut m (address x)), by rw [LinkedList.getMatchItem, hloop]; rfl,
      h.taken hitems rfl ?_⟩
    rw [ItemList.getMatchItem, hfind, herase]

theorem delMatchDataItem :
    ∃ r, s.delMatchDataItem m data = some r ∧ r.1 = (l.delMatchDataItem data).1 ∧
      Conforms m r.2 (l.delMatchDataItem data).2 held := by
  obtain ⟨⟨found, s'⟩, hget, hfound, hconforms⟩ := h.getMatchItem data
  rw [LinkedList.delMatchDataItem, hget, ItemList.delMatchDataItem]
  generalize l.getMatchItem data = taken at hfound hconforms ⊢
  obtain ⟨item, l'⟩ := taken
  cases item with
  | none =>
    cases hfound
    exact ⟨(-1, s'), rfl, rfl, hconforms⟩
  | some x =>
    cases hfound
    have hfreed := hconforms.itemFree mem_cons_self
    exact ⟨(0, s'.itemFree _), rfl, rfl, erase_cons_head (address x) held ▸ hfreed⟩

/-! ## Adding data -/

theorem haveMatchData : s.haveMatchData m data = some (l.haveMatchData data) := by
  rw [LinkedList.haveMatchData, h.findMatchItem, map_some, isSome_map]
  rfl

theorem rejectsSame :
    s.rejectsSame m data = some (l.rejectSameItemData && l.haveMatchData data) := by
  rw [LinkedList.rejectsSame, h.haveMatchData, h.rejects]
  cases s.rejectSameItemData <;> rfl

theorem addTailDataExt_none (ext : ε) :
    s.addTailDataExt m data ext none =
      some (if l.rejectSameItemData && l.haveMatchData data then 0 else -12, s) := by
  rw [LinkedList.addTailDataExt, h.rejectsSame]
  cases l.rejectSameItemData && l.haveMatchData data <;> rfl

theorem addTailDataExt_some (hfresh : FreshAddress m ⟨l, held⟩ a) (data : δ) (ext : ε) :
    ∃ r, s.addTailDataExt m data ext (some a) = some r ∧
      r.1 = (l.addTailDataExt data (ext, a) true).1 ∧
      Conforms m r.2 (l.addTailDataExt data (ext, a) true).2 held := by
  rw [LinkedList.addTailDataExt, h.rejectsSame, addTailDataExt]
  cases l.rejectSameItemData && l.haveMatchData data with
  | true => exact ⟨(0, s), rfl, rfl, h⟩
  | false =>
    have hadd := ((h.itemAlloc hfresh).fill mem_cons_self data ext).addTail mem_cons_self
    rw [fill_item] at hadd
    by_cases hret : (((s.itemAlloc a).fill a data ext).addTail m a).1 = 0
    · refine ⟨(0, (((s.itemAlloc a).fill a data ext).addTail m a).2), ?_, hret ▸ hadd.1, ?_⟩
      · exact if_neg (not_not_intro hret)
      · have hconforms := hadd.2
        rwa [if_pos (hadd.1.symm.trans hret), erase_cons_head] at hconforms
    · -- the list is full, so the item is still with the call, which frees it
      have hrejected := addTail_rejected hret
      refine ⟨(-1, (((s.itemAlloc a).fill a data ext).addTail m a).2.itemFree a),
        if_pos hret, ?_, ?_⟩
      · rw [hrejected] at hadd
        exact hadd.1
      · have hconforms := hadd.2
        rw [if_neg fun hzero => hret (hadd.1.trans hzero)] at hconforms
        exact erase_cons_head a held ▸ hconforms.itemFree mem_cons_self

variable [Zero δ]

/-! ## Cleaning -/

omit h in
theorem cleanLoop (freeFun : Bool) {turns : Nat} :
    ∀ {items : List (Item δ (ε × κ))} {s : LinkedList κ δ ε} (datas : List δ),
      Conforms m s { l with items := items } held → items.length < turns →
      ∃ s', LinkedList.cleanLoop m freeFun turns (s.links.next m.head)
          (s.links.next (s.links.next m.head)) datas s =
            some (datas ++ (({ l with items := items } : Deque κ δ ε).clean freeFun).1, s') ∧
        Conforms m s' { l with items := [] } held := by
  induction turns with
  | zero => intro items s datas _ hturns; omega
  | succ turns ih =>
    intro items s datas h hturns
    cases items with
    | nil =>
      refine ⟨s, ?_, h⟩
      have hempty : s.links.next m.head = m.head := h.ring.next_head
      rw [hempty, LinkedList.cleanLoop, if_pos rfl]
      cases freeFun <;> simp [ItemList.clean, ItemList.datas]
    | cons x items =>
      have hfirst : s.links.next m.head = ItemList.address x := h.ring.next_head
      have hne : ItemList.address x ≠ m.head := by
        intro heq
        exact (nodup_cons.mp h.ring.nodup).1 (heq ▸ mem_cons_self)
      have hfreed := (h.takeOut (show _ = [] ++ x :: items from rfl)).itemFree mem_cons_self
      have hrest : Conforms m ((s.takeOut m (ItemList.address x)).itemFree (ItemList.address x))
          { l with items := items } held := erase_cons_head (ItemList.address x) held ▸ hfreed
      -- `tmplist` was read before the node was taken out, and is where the head leads to now
      have hnext : ((s.takeOut m (ItemList.address x)).itemFree
          (ItemList.address x)).links.next m.head = s.links.next (ItemList.address x) :=
        Links.Ring.del_next_head (show s.links.Ring m.head (_ :: _) from h.ring)
      have hdata : s.itemData (ItemList.address x) = x.1 := (h.contents x mem_cons_self).1
      obtain ⟨s', hloop, hs'⟩ := ih _ hrest (Nat.lt_of_succ_lt_succ hturns)
      refine ⟨s', ?_, hs'⟩
      rw [hfirst, LinkedList.cleanLoop, if_neg hne]
      rw [← hnext, hloop, hdata, ItemList.clean_cons]
      split
      · rw [append_assoc]
      · rw [nil_append]

theorem clean (freeFun : Bool) :
    ∃ r, s.clean m freeFun = some r ∧ r.1 = (l.clean freeFun).1 ∧
      Conforms m r.2 (l.clean freeFun).2 held := by
  have hturns : l.items.length < s.turns := by
    rw [h.turns_eq, addresses, length_map]
    exact Nat.lt_succ_self _
  obtain ⟨s', hloop, hs'⟩ := cleanLoop freeFun [] h hturns
  exact ⟨_, hloop, nil_append _, hs'⟩

end Match

theorem init (m : ListAddresses κ) (links : Links κ) (itemData : κ → δ) (ext : κ → ε)
    (maxItems : Int) (rejectSameItemData : Bool) :
    Conforms m (.init m links itemData ext maxItems rejectSameItemData)
      (.init maxItems.toNat rejectSameItemData) [] where
  ring := Links.ring_initHead m.head
  count := rfl
  limit := Int.le_of_lt
  contents _ hx := absurd hx not_mem_nil
  maxItems := rfl
  rejects := rfl
  live := nodup_nil
  outside := not_mem_nil
  custody := .nil

end Conforms

/-! ## Whole runs -/

/-- What the callers and `malloc` keep to. `malloc` returns no memory that is in use. A caller frees
and adds only items that it has, and deletes only items of the list. -/
def Allowed (m : ListAddresses κ) (st : Option (LinkedList κ δ ε) × DequeState κ δ ε) :
    ItemCall κ δ ε → Prop
  | .alloc a => FreshAddress m st.2 a
  | .addTailDataExt _ _ address => ∀ a ∈ address, FreshAddress m st.2 a
  | .free a | .addTail a _ _ => a ∈ st.2.held
  | .delItem a => a ∈ st.2.list.addresses
  | .getHead | .getTail | .getMatch _ | .delMatch _ | .clean _ => True

instance [DecidableEq κ] (m : ListAddresses κ) (d : DequeState κ δ ε) (a : κ) :
    Decidable (FreshAddress m d a) :=
  inferInstanceAs (Decidable (a ≠ m.head ∧ a ∉ d.list.addresses ++ d.held))

instance [DecidableEq κ] (m : ListAddresses κ) (st : Option (LinkedList κ δ ε) × DequeState κ δ ε) :
    ∀ c : ItemCall κ δ ε, Decidable (Allowed m st c)
  | .alloc a => inferInstanceAs (Decidable (FreshAddress m st.2 a))
  | .addTailDataExt _ _ address =>
    inferInstanceAs (Decidable (∀ a ∈ address, FreshAddress m st.2 a))
  | .free a => inferInstanceAs (Decidable (a ∈ st.2.held))
  | .addTail a _ _ => inferInstanceAs (Decidable (a ∈ st.2.held))
  | .delItem a => inferInstanceAs (Decidable (a ∈ st.2.list.addresses))
  | .getHead | .getTail | .getMatch _ | .delMatch _ | .clean _ => .isTrue trivial

section Runs

variable [DecidableEq κ] [DecidableEq δ] [Zero δ] {m : ListAddresses κ} {s : LinkedList κ δ ε}
  {d : DequeState κ δ ε}

/-- One operation comes to its end, returns what the deque returns and leaves what the deque has. -/
theorem call_conforms (h : Conforms m s d.list d.held) {c : ItemCall κ δ ε}
    (hallowed : Allowed m (some s, d) c) :
    ∃ s', s.call m c = some (s', (dequeMachine.step d c).2) ∧
      Conforms m s' (dequeMachine.step d c).1.list (dequeMachine.step d c).1.held := by
  cases c with
  | alloc a => exact ⟨_, rfl, h.itemAlloc hallowed⟩
  | free a => exact ⟨_, rfl, h.itemFree hallowed⟩
  | addTail a data ext =>
    have hadd := (h.fill hallowed data ext).addTail hallowed
    rw [Conforms.fill_item] at hadd
    exact ⟨_, by rw [LinkedList.call, hadd.1]; rfl, hadd.2⟩
  | addTailDataExt data ext address =>
    cases address with
    | none => exact ⟨s, by rw [LinkedList.call, h.addTailDataExt_none]; rfl, h⟩
    | some a =>
      obtain ⟨r, hr, hret, hconforms⟩ := h.addTailDataExt_some (hallowed a rfl) data ext
      exact ⟨r.2, by rw [LinkedList.call, hr, map_some, hret]; rfl, hconforms⟩
  | getHead => exact ⟨_, by rw [LinkedList.call, h.getHead.1]; rfl, h.getHead.2⟩
  | getTail => exact ⟨_, by rw [LinkedList.call, h.getTail.1]; rfl, h.getTail.2⟩
  | getMatch data =>
    obtain ⟨r, hr, hitem, hconforms⟩ := h.getMatchItem data
    exact ⟨r.2, by rw [LinkedList.call, hr, map_some, hitem]; rfl, hconforms⟩
  | delMatch data =>
    obtain ⟨r, hr, hret, hconforms⟩ := h.delMatchDataItem data
    exact ⟨r.2, by rw [LinkedList.call, hr, map_some, hret]; rfl, hconforms⟩
  | delItem a => exact ⟨_, rfl, h.delItem hallowed⟩
  | clean freeFun =>
    obtain ⟨r, hr, hdatas, hconforms⟩ := h.clean freeFun
    exact ⟨r.2, by rw [LinkedList.call, hr, map_some, hdatas]; rfl, hconforms⟩

theorem itemlist_refines_deque (m : ListAddresses κ) (links : Links κ) (itemData : κ → δ)
    (ext : κ → ε) (maxItems : Int) (rejectSameItemData : Bool) (calls : List (ItemCall κ δ ε))
    (hallowed : ((linkedMachine m).both dequeMachine).Always (Allowed m)
      (some (.init m links itemData ext maxItems rejectSameItemData),
        ⟨.init maxItems.toNat rejectSameItemData, []⟩) calls) :
    ∃ s d history,
      ((linkedMachine m).both dequeMachine).exec
        (some (.init m links itemData ext maxItems rejectSameItemData),
          ⟨.init maxItems.toNat rejectSameItemData, []⟩) calls = (history, some s, d) ∧
      (∀ x ∈ history, x.2.1 = some x.2.2) ∧ Conforms m s d.list d.held := by
  have hinvariant := (Machine.run_exec calls hallowed).invariant
    (fun history st => (∀ x ∈ history, x.2.1 = some x.2.2) ∧
      ∃ s, st.1 = some s ∧ Conforms m s st.2.list st.2.held)
    ⟨fun x hx => absurd hx not_mem_nil, _, rfl, .init ..⟩ ?_
  · obtain ⟨hreplies, s, hs, hconforms⟩ := hinvariant
    exact ⟨s, _, _, Prod.ext rfl (Prod.ext hs rfl), hreplies, hconforms⟩
  · -- one more operation
    rintro history ⟨_, d⟩ c ⟨hreplies, s, rfl, hconforms⟩ hc
    obtain ⟨s', hcall, hconforms'⟩ := call_conforms hconforms hc
    have hstep : (linkedMachine m).step (some s) c = (some s', some (dequeMachine.step d c).2) := by
      simp [linkedMachine, hcall]
    refine ⟨fun x hx => ?_, s', congrArg Prod.fst hstep, hconforms'⟩
    rcases mem_append.mp hx with hold | hnew
    · exact hreplies x hold
    · rw [mem_singleton.mp hnew]
      exact congrArg Prod.snd hstep

/-- A list for at most one item: the second one is refused, the first one is deleted and its address
is used again. The caller of the get has an item behind the run, while those of the match-delete and
of the clean are freed. -/
theorem itemlist_refines_deque_limited :
    ∃ (s : LinkedList Nat Nat Unit) (d : DequeState Nat Nat Unit)
      (history : List (ItemCall Nat Nat Unit × Option (ItemReply Nat Nat) × ItemReply Nat Nat)),
      ((linkedMachine ⟨0, 98, 99⟩).both dequeMachine).exec
        (some (.init ⟨0, 98, 99⟩ ⟨id, id⟩ (fun _ => 0) (fun _ => ()) 1 true),
          ⟨.init (Int.toNat 1) true, []⟩)
        [.addTailDataExt 5 () (some 1), .addTailDataExt 6 () (some 2), .delItem 1, .free 1,
          .alloc 1, .addTail 1 7 (), .delMatch 7, .addTailDataExt 8 () (some 2), .getHead,
          .addTailDataExt 9 () (some 3), .clean true] = (history, some s, d) ∧
      (∀ x ∈ history, x.2.1 = some x.2.2) ∧ Conforms ⟨0, 98, 99⟩ s d.list d.held :=
  itemlist_refines_deque _ _ _ _ _ _ _ (by decide)

end Runs

end AmlogicHal.Media
