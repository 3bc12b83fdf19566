import AmlogicHal.Lib.Holders
import AmlogicHal.Lib.Machine
import Mathlib.Data.List.Nodup
import Mathlib.Logic.Function.Basic

/-!
# Item lists

`itemlist.c`: lists of items, each with an `item_data` and some more words, behind a mutex. A list
may be told to reject items whose `item_data` it has already.

`itemlist_add_tail_data_ext` looks for the data in one section under the mutex and adds the item in
another. Two callers that both look before either adds put the same data into the list twice
(`sameData_twice`). `sameData_rejected_iff` says exactly when the data stay different; they do if no
two calls for the same data overlap.
-/

namespace AmlogicHal.Media

open Function List

variable {δ ε : Type}

/-- An item: `item_data` and the extra words. -/
abbrev Item (δ ε : Type) := δ × ε

/-- `item_count` is the length of the list. -/
structure ItemList (δ ε : Type) where
  items : List (Item δ ε)
  maxItems : Nat
  rejectSameItemData : Bool

namespace ItemList

def init (maxItems : Nat) (rejectSameItemData : Bool) : ItemList δ ε :=
  ⟨[], maxItems, rejectSameItemData⟩

variable (l : ItemList δ ε)

def datas : List δ := l.items.map Prod.fst

def isFull : Bool := 0 < l.maxItems ∧ l.maxItems ≤ l.items.length

def addTail (item : Item δ ε) (l : ItemList δ ε) : Int × ItemList δ ε :=
  if l.isFull then (-1, l) else (0, { l with items := l.items ++ [item] })

def getHead : Option (Item δ ε) × ItemList δ ε :=
  (l.items.head?, { l with items := l.items.tail })

def getTail : Option (Item δ ε) × ItemList δ ε :=
  (l.items.getLast?, { l with items := l.items.dropLast })

section Match

variable [DecidableEq δ]

def findMatchItem (data : δ) (l : ItemList δ ε) : Option (Item δ ε) :=
  l.items.find? fun item => item.1 = data

/-- The first item with the data is taken out. -/
def getMatchItem (data : δ) (l : ItemList δ ε) : Option (Item δ ε) × ItemList δ ε :=
  (l.findMatchItem data, { l with items := l.items.eraseP fun item => item.1 = data })

def haveMatchData (data : δ) (l : ItemList δ ε) : Bool := (l.findMatchItem data).isSome

/-- `item_alloc` succeeds if `allocated`. -/
def addTailDataExt (data : δ) (ext : ε) (allocated : Bool) (l : ItemList δ ε) :
    Int × ItemList δ ε :=
  if l.rejectSameItemData && l.haveMatchData data then (0, l)
  else if allocated then l.addTail (data, ext)
  else (-12, l)

def delMatchDataItem (data : δ) (l : ItemList δ ε) : Int × ItemList δ ε :=
  match l.getMatchItem data with
  | (some _, l') => (0, l')
  | (none, l') => (-1, l')

end Match

/-! ## What the operations do to the data -/

theorem addTail_datas (item : Item δ ε) (l : ItemList δ ε) :
    (l.addTail item).2.datas = if l.isFull then l.datas else l.datas ++ [item.1] := by
  unfold addTail
  split <;> simp [datas]

theorem addTail_config (item : Item δ ε) (l : ItemList δ ε) :
    (l.addTail item).2.rejectSameItemData = l.rejectSameItemData ∧
    (l.addTail item).2.maxItems = l.maxItems := by
  unfold addTail
  split <;> exact ⟨rfl, rfl⟩

theorem datas_sublist {l l' : ItemList δ ε} (h : l'.items.Sublist l.items) :
    l'.datas.Sublist l.datas := h.map Prod.fst

theorem getHead_sublist : l.getHead.2.items.Sublist l.items := tail_sublist _

theorem getTail_sublist : l.getTail.2.items.Sublist l.items := dropLast_sublist _

section Match

variable [DecidableEq δ]

theorem getMatchItem_sublist (data : δ) (l : ItemList δ ε) :
    (l.getMatchItem data).2.items.Sublist l.items :=
  eraseP_sublist

theorem haveMatchData_iff {data : δ} {l : ItemList δ ε} : l.haveMatchData data = true ↔
    data ∈ l.datas := by
  simp [haveMatchData, findMatchItem, datas]

theorem not_mem_of_findMatchItem {data : δ} {l : ItemList δ ε} (h : l.findMatchItem data = none) :
    data ∉ l.datas := by
  intro hmem
  have hsome := haveMatchData_iff.mpr hmem
  rw [haveMatchData, h] at hsome
  exact absurd hsome Bool.false_ne_true

end Match

/-- A list without a limit that rejects data it has, used by one caller at a time: a table with the
data as its keys. -/
structure Keyed (l : ItemList δ ε) : Prop where
  rejects : l.rejectSameItemData = true
  unlimited : l.maxItems = 0
  distinct : l.datas.Nodup

theorem keyed_init : (init 0 true : ItemList δ ε).Keyed := ⟨rfl, rfl, nodup_nil⟩

namespace Keyed

variable {l : ItemList δ ε} {x : Item δ ε} {data : δ}

variable (h : l.Keyed)
include h

theorem eq_of_mem {y : Item δ ε} (hx : x ∈ l.items) (hy : y ∈ l.items)
    (heq : x.1 = y.1) : x = y :=
  inj_on_of_nodup_map h.distinct hx hy heq

variable [DecidableEq δ]

theorem findMatchItem_eq_some : l.findMatchItem data = some x ↔ x ∈ l.items ∧ x.1 = data := by
  constructor
  · intro hx
    exact ⟨mem_of_find?_eq_some hx, by simpa using List.find?_some hx⟩
  · rintro ⟨hx, rfl⟩
    have hsome : (l.findMatchItem x.1).isSome = true := haveMatchData_iff.mpr (mem_map_of_mem hx)
    obtain ⟨y, hy⟩ := Option.isSome_iff_exists.mp hsome
    have hxy : y = x := h.eq_of_mem (mem_of_find?_eq_some hy) hx (by simpa using List.find?_some hy)
    rw [hy, hxy]

theorem mem_getMatchItem : x ∈ (l.getMatchItem data).2.items ↔ x ∈ l.items ∧ x.1 ≠ data := by
  obtain ⟨items, maxItems, rejects⟩ := l
  have hdistinct := h.distinct
  unfold datas at hdistinct
  dsimp only [getMatchItem] at hdistinct ⊢
  clear h
  induction items with
  | nil => simp
  | cons y items ih =>
    rw [map_cons, nodup_cons] at hdistinct
    rcases eq_or_ne y.1 data with rfl | hy
    · -- this is the item that is taken out, and no other one has the data
      have hother : x ∈ items → x.1 ≠ y.1 := fun hx heq =>
        hdistinct.1 (heq ▸ mem_map_of_mem hx)
      rw [eraseP_cons_of_pos (by simp), mem_cons]
      exact ⟨fun hx => ⟨.inr hx, hother hx⟩, fun hx =>
        hx.1.resolve_left fun heq => hx.2 (heq ▸ rfl)⟩
    · have ih := ih hdistinct.2
      rw [eraseP_cons_of_neg (by simpa using hy), mem_cons, mem_cons]
      constructor
      · rintro (rfl | hx)
        · exact ⟨.inl rfl, hy⟩
        · exact ⟨.inr (ih.mp hx).1, (ih.mp hx).2⟩
      · rintro ⟨rfl | hx, hne⟩
        · exact .inl rfl
        · exact .inr (ih.mpr ⟨hx, hne⟩)

theorem mem_getMatchItem_datas {d : δ} : d ∈ (l.getMatchItem data).2.datas ↔
    d ∈ l.datas ∧ d ≠ data := by
  constructor
  · intro hd
    obtain ⟨x, hx, rfl⟩ := mem_map.mp hd
    obtain ⟨hx, hne⟩ := h.mem_getMatchItem.mp hx
    exact ⟨mem_map_of_mem hx, hne⟩
  · rintro ⟨hd, hne⟩
    obtain ⟨x, hx, rfl⟩ := mem_map.mp hd
    exact mem_map_of_mem (h.mem_getMatchItem.mpr ⟨hx, hne⟩)

theorem getMatchItem (data : δ) : (l.getMatchItem data).2.Keyed :=
  ⟨h.rejects, h.unlimited, h.distinct.sublist (datas_sublist (l.getMatchItem_sublist data))⟩

theorem addTailDataExt_new (hnew : data ∉ l.datas) (ext : ε) :
    (l.addTailDataExt data ext true).2.items = l.items ++ [(data, ext)] := by
  have hno : l.haveMatchData data = false := by
    rw [← Bool.not_eq_true, haveMatchData_iff]
    exact hnew
  simp [ItemList.addTailDataExt, hno, addTail, isFull, h.unlimited]

theorem addTailDataExt (data : δ) (ext : ε) (allocated : Bool) :
    (l.addTailDataExt data ext allocated).2.Keyed := by
  unfold ItemList.addTailDataExt
  split
  · exact h
  · next hno =>
    rw [h.rejects, Bool.true_and, haveMatchData_iff] at hno
    split
    · refine ⟨(addTail_config _ _).1.trans h.rejects, (addTail_config _ _).2.trans h.unlimited, ?_⟩
      rw [addTail_datas]
      split
      · exact h.distinct
      · rw [← concat_eq_append, nodup_concat]
        exact ⟨hno, h.distinct⟩
    · exact h

end Keyed

end ItemList

open ItemList

/-! ## Concurrent callers -/

/-- The list, and the callers of `itemlist_add_tail_data_ext` that have not found their data in it
and are about to add their item. -/
structure SharedList (δ ε : Type) where
  list : ItemList δ ε
  adding : Nat → Option (Item δ ε)

open SharedList

def SharedList.initial (maxItems : Nat) : SharedList δ ε :=
  ⟨.init maxItems true, fun _ => none⟩

inductive ListStep (δ ε : Type)
  /-- The caller starts to add an item, and looks for its data. -/
  | look (caller : Nat) (data : δ) (ext : ε) (allocated : Bool)
  /-- The caller adds the item it has allocated. -/
  | add (caller : Nat)
  | getHead
  | getTail
  | getMatch (data : δ)

/-- An item is only added if its data are not in the list, or the list is full. -/
def AddsNew (s : SharedList δ ε) : ListStep δ ε → Prop
  | .add caller => ∀ item, s.adding caller = some item → s.list.isFull = false →
      item.1 ∉ s.list.datas
  | _ => True

/-- Nobody starts to add data that another caller is about to add. -/
def NoOverlap (s : SharedList δ ε) : ListStep δ ε → Prop
  | .look _ data _ _ => ∀ caller item, s.adding caller = some item → item.1 ≠ data
  | _ => True

/-! ### Separate calls -/

/-- What holds as long as no two calls for the same data overlap. -/
structure Separate (s : SharedList δ ε) : Prop where
  distinct : s.list.datas.Nodup
  rejects : s.list.rejectSameItemData = true
  absent : ∀ caller item, s.adding caller = some item → item.1 ∉ s.list.datas
  different : ∀ caller caller' item item', s.adding caller = some item →
    s.adding caller' = some item' → item.1 = item'.1 → caller = caller'

variable {s : SharedList δ ε} {caller : Nat}

theorem Separate.addsNew (h : Separate s) (e : ListStep δ ε) : AddsNew s e := by
  cases e with
  | add caller => exact fun item hitem _ => h.absent caller item hitem
  | _ => trivial

theorem Separate.takeOut (h : Separate s) {l : ItemList δ ε} (hsub : l.items.Sublist s.list.items)
    (hrejects : l.rejectSameItemData = true) :
    Separate { s with list := l } where
  distinct := h.distinct.sublist (datas_sublist hsub)
  rejects := hrejects
  absent caller item hitem hmem := h.absent caller item hitem ((datas_sublist hsub).subset hmem)
  different := h.different

theorem Separate.look (h : Separate s) {item : Item δ ε} (hnew : item.1 ∉ s.list.datas)
    (hover : ∀ caller' item', s.adding caller' = some item' → item'.1 ≠ item.1) :
    Separate { s with adding := update s.adding caller (some item) } where
  distinct := h.distinct
  rejects := h.rejects
  absent c x hx := by
    rcases Holders.update_eq_some_iff.mp hx with ⟨-, ⟨⟩⟩ | ⟨-, hx⟩
    · exact hnew
    · exact h.absent c x hx
  different c c' x x' hx hx' heq := by
    rcases Holders.update_eq_some_iff.mp hx with ⟨hc, ⟨⟩⟩ | ⟨-, hx⟩ <;>
      rcases Holders.update_eq_some_iff.mp hx' with ⟨hc', ⟨⟩⟩ | ⟨-, hx'⟩
    · exact hc.trans hc'.symm
    · exact absurd heq.symm (hover c' x' hx')
    · exact absurd heq (hover c x hx)
    · exact h.different c c' x x' hx hx' heq

theorem Separate.add (h : Separate s) {item : Item δ ε} (hitem : s.adding caller = some item) :
    Separate ⟨(s.list.addTail item).2, update s.adding caller none⟩ := by
  -- the callers that are left are others, with other data
  have hothers : ∀ c x, update s.adding caller none c = some x →
      c ≠ caller ∧ s.adding c = some x := by
    intro c x hx
    rcases Holders.update_eq_some_iff.mp hx with ⟨-, ⟨⟩⟩ | h
    exact h
  refine ⟨?_, (addTail_config item s.list).1.trans h.rejects, fun c x hx hmem => ?_,
    fun c c' x x' hx hx' heq => ?_⟩
  · rw [addTail_datas]
    split
    · exact h.distinct
    · rw [← concat_eq_append, nodup_concat]
      exact ⟨h.absent caller item hitem, h.distinct⟩
  · obtain ⟨hne, hx⟩ := hothers c x hx
    rw [addTail_datas] at hmem
    split at hmem
    · exact h.absent c x hx hmem
    · rcases mem_append.mp hmem with hmem | hmem
      · exact h.absent c x hx hmem
      · exact hne (h.different c caller x item hx hitem (mem_singleton.mp hmem))
  · exact h.different c c' x x' (hothers c x hx).2 (hothers c' x' hx').2 heq

/-! ### Steps and runs -/

section Shared

variable [DecidableEq δ]

/-- A caller is in one call at a time. -/
def SharedList.step (s : SharedList δ ε) : ListStep δ ε → SharedList δ ε
  | .look caller data ext allocated =>
    match s.adding caller with
    | some _ => s
    | none =>
      if s.list.rejectSameItemData && s.list.haveMatchData data then s
      else if allocated then
        { s with adding := Function.update s.adding caller (some (data, ext)) }
      else s
  | .add caller =>
    match s.adding caller with
    | none => s
    | some item =>
      { list := (s.list.addTail item).2, adding := Function.update s.adding caller none }
  | .getHead => { s with list := s.list.getHead.2 }
  | .getTail => { s with list := s.list.getTail.2 }
  | .getMatch data => { s with list := (s.list.getMatchItem data).2 }

def sharedMachine : Machine (SharedList δ ε) (ListStep δ ε) Unit where
  step s e := (s.step e, ())

/-- After the step no two items have the same data. -/
def StaysDistinct (s : SharedList δ ε) (e : ListStep δ ε) : Prop := (s.step e).list.datas.Nodup

variable {s : SharedList δ ε}

theorem staysDistinct_iff (hs : s.list.datas.Nodup) (e : ListStep δ ε) : StaysDistinct s e ↔
    AddsNew s e := by
  cases e with
  | look caller data ext allocated =>
    refine iff_of_true ?_ trivial
    unfold StaysDistinct step
    dsimp only
    split
    · exact hs
    · split
      · exact hs
      · split <;> exact hs
  | add caller =>
    unfold StaysDistinct step AddsNew
    dsimp only
    cases s.adding caller with
    | none => exact iff_of_true hs nofun
    | some item =>
      rw [addTail_datas]
      cases hfull : s.list.isFull with
      | true => exact iff_of_true hs fun _ _ h => absurd h.symm Bool.false_ne_true
      | false =>
        rw [if_neg Bool.false_ne_true, ← concat_eq_append, nodup_concat]
        exact ⟨fun h x hx _ => Option.some.inj hx ▸ h.1, fun h => ⟨h item rfl rfl, hs⟩⟩
  | getHead =>
    exact iff_of_true (hs.sublist (datas_sublist s.list.getHead_sublist)) trivial
  | getTail =>
    exact iff_of_true (hs.sublist (datas_sublist s.list.getTail_sublist)) trivial
  | getMatch data =>
    exact iff_of_true (hs.sublist (datas_sublist (s.list.getMatchItem_sublist data))) trivial

theorem Separate.step (h : Separate s) {e : ListStep δ ε} (he : NoOverlap s e) :
    Separate (s.step e) := by
  cases e with
  | look caller data ext allocated =>
    unfold SharedList.step
    dsimp only
    split
    · exact h
    · split
      · exact h
      · next hfound =>
        split
        · refine h.look (fun hmem => hfound ?_) he
          rw [h.rejects, haveMatchData_iff.mpr hmem]
          rfl
        · exact h
  | add caller =>
    unfold SharedList.step
    dsimp only
    split
    · exact h
    · next item hitem => exact h.add hitem
  | getHead => exact h.takeOut s.list.getHead_sublist h.rejects
  | getTail => exact h.takeOut s.list.getTail_sublist h.rejects
  | getMatch data => exact h.takeOut (s.list.getMatchItem_sublist data) h.rejects

/-- They do exactly if every item is added when its data are not in the list. -/
theorem sameData_rejected_iff (maxItems : Nat) (es : List (ListStep δ ε)) :
    (sharedMachine.Always StaysDistinct (.initial maxItems) es ↔
        sharedMachine.Always AddsNew (.initial maxItems) es) ∧
      (sharedMachine.Always NoOverlap (.initial maxItems) es →
        sharedMachine.Always StaysDistinct (.initial maxItems) es) := by
  have hstart : Separate (initial maxItems : SharedList δ ε) :=
    ⟨nodup_nil, rfl, nofun, nofun⟩
  constructor
  · exact Machine.always_congr (I := fun s => s.list.datas.Nodup)
      (fun s e hs => staysDistinct_iff hs e) (fun _ _ _ h => h) es _ hstart.distinct
  · refine Machine.Always.of_invariant (I := Separate) (fun s e hs he => ⟨?_, hs.step he⟩) hstart
    exact (staysDistinct_iff hs.distinct e).mpr (hs.addsNew e)

end Shared

/-- The second caller looks when the first one is done. -/
theorem sameData_rejected_inTurn :
    (sharedMachine.Always StaysDistinct (.initial 0)
      [.look 1 5 () true, .add 1, .look 2 5 () true, .add 2] : Prop) := by
  have h := sameData_rejected_iff 0 [.look 1 5 () true, .add 1, .look 2 5 () true, .add 2]
  exact h.2
    (by simp [Machine.Always, NoOverlap, sharedMachine, step, initial, init, addTail, isFull,
    haveMatchData, findMatchItem])

theorem sameData_twice :
    ((sharedMachine.exec (.initial 0)
      [.look 1 5 () true, .look 2 5 () true, .add 1, .add 2]).2.list :
      ItemList Nat Unit).datas = [5, 5] := by
  decide

end AmlogicHal.Media
