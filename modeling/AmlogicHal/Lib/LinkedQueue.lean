import Mathlib.Data.List.Chain
import Mathlib.Data.List.Nodup
import Mathlib.Data.List.Perm.Basic
import Mathlib.Logic.Function.Basic

/-!
# Linked nodes on a heap

The nodes of singly linked lists, in memory that is allocated and freed one node at a time. An
access to a node that is not allocated has no result, so a computation with a result has used no
node after it was freed and freed none twice.

* `Heap.Owned h xs`: the allocated nodes are those of `xs`, with these payloads, no two at one
  address. All lists of a program together are such an `xs`, in any order, so a node that goes from
  one list to another leaves it as it is.
* `Heap.Linked h xs`: every node of `xs` leads to the next one. Where the last one leads is not
  said; it may never have been written.
-/

namespace AmlogicHal

open Function List Option

structure Node (κ β : Type) where
  payload : β
  next : Option κ

/-- The node at each address, if one is allocated there. -/
abbrev Heap (κ β : Type) := κ → Option (Node κ β)

namespace Heap

variable {κ β : Type}

def empty : Heap κ β := fun _ => none

/-- What a pointer that may be null points to. -/
def load (h : Heap κ β) (p : Option κ) : Option (Node κ β) := p.bind h

def payload (h : Heap κ β) (a : κ) : Option β := (h a).map Node.payload

def next (h : Heap κ β) (a : κ) : Option κ := (h a).bind Node.next

@[simp] theorem load_some (h : Heap κ β) (a : κ) : h.load (some a) = h a := rfl

theorem next_of_eq {h h' : Heap κ β} {c : κ} (heq : h' c = h c) : h'.next c = h.next c := by
  unfold next
  rw [heq]

/-! ## Whose nodes there are -/

structure Owned (h : Heap κ β) (xs : List (κ × β)) : Prop where
  nodup : (xs.map Prod.fst).Nodup
  payload_iff : ∀ a v, h.payload a = some v ↔ (a, v) ∈ xs

section Owned

variable {h : Heap κ β} {xs ys : List (κ × β)} {x : κ × β} {a : κ}

theorem owned_empty : (empty : Heap κ β).Owned [] :=
  ⟨nodup_nil, fun _ _ => iff_of_false (some_ne_none _).symm not_mem_nil⟩

theorem Owned.perm (ho : h.Owned xs) (hperm : xs.Perm ys) : h.Owned ys :=
  ⟨(hperm.map Prod.fst).nodup_iff.mp ho.nodup, fun a v => (ho.payload_iff a v).trans hperm.mem_iff⟩

theorem Owned.node (ho : h.Owned xs) (hx : x ∈ xs) : ∃ p, h x.1 = some ⟨x.2, p⟩ := by
  have hpayload := (ho.payload_iff x.1 x.2).mpr hx
  obtain ⟨n, hn, hv⟩ := map_eq_some_iff.mp hpayload
  exact ⟨n.next, hn.trans (by rw [← hv])⟩

theorem Owned.ne (ho : h.Owned (xs ++ ys)) {y : κ × β} (hx : x ∈ xs) (hy : y ∈ ys) : x.1 ≠ y.1 := by
  have hnodup := ho.nodup
  rw [map_append] at hnodup
  exact (nodup_append.mp hnodup).2.2 _ (mem_map_of_mem hx) _ (mem_map_of_mem hy)

theorem Owned.head_ne (ho : h.Owned (x :: xs)) {y : κ × β} (hy : y ∈ xs) : y.1 ≠ x.1 := by
  have hsplit : h.Owned ([x] ++ xs) := ho
  exact (hsplit.ne (mem_singleton_self x) hy).symm

theorem Owned.fresh_ne (ho : h.Owned xs) (ha : h a = none) (hx : x ∈ xs) : x.1 ≠ a := by
  rintro rfl
  obtain ⟨p, hp⟩ := ho.node hx
  exact some_ne_none _ (hp.symm.trans ha)

end Owned

/-! ## Lists of nodes -/

def Linked (h : Heap κ β) (xs : List κ) : Prop := xs.IsChain fun a b => h.next a = some b

section Linked

variable {h h' : Heap κ β} {xs front : List κ} {a b last : κ}

theorem Linked.congr (hl : h.Linked xs) (hkeep : ∀ c ∈ xs, h'.next c = h.next c) : h'.Linked xs :=
  hl.imp_of_mem_imp fun c _ hc _ heq => (hkeep c hc).trans heq

theorem Linked.next_eq (hl : h.Linked (a :: b :: xs)) : h.next a = some b :=
  (isChain_cons_cons.mp hl).1

theorem Linked.tail (hl : h.Linked (a :: xs)) : h.Linked xs := List.IsChain.tail hl

theorem Linked.concat (hl : h.Linked (front ++ [last])) (hnext : h'.next last = some b)
    (hkeep : ∀ c ∈ front, h'.next c = h.next c) : h'.Linked (front ++ [last, b]) := by
  refine isChain_append_cons_cons.mpr ⟨?_, hnext, .singleton b⟩
  rcases eq_nil_or_concat' front with rfl | ⟨init, c, rfl⟩
  · exact .singleton last
  · have hsplit := hl
    rw [Linked, append_assoc, singleton_append, isChain_append_cons_cons] at hsplit
    rw [append_assoc, singleton_append, isChain_append_cons_cons]
    have hinit : h'.Linked (init ++ [c]) := Linked.congr hsplit.1 hkeep
    have hc : h'.next c = h.next c := hkeep c (mem_append_right _ (mem_singleton_self c))
    exact ⟨hinit, hc.trans hsplit.2.1, .singleton last⟩

end Linked

/-! ## Writing -/

variable [DecidableEq κ]

def put (h : Heap κ β) (a : κ) (n : Node κ β) : Heap κ β := Function.update h a (some n)

def remove (h : Heap κ β) (a : κ) : Heap κ β := Function.update h a none

/-- Writes the link of a node. -/
def setNext (h : Heap κ β) (p : Option κ) (b : κ) : Option (Heap κ β) :=
  p.bind fun a => (h a).map fun n => h.put a { n with next := some b }

/-- Gives a node back. -/
def free (h : Heap κ β) (p : Option κ) : Option (Heap κ β) :=
  p.bind fun a => (h a).map fun _ => h.remove a

variable {h : Heap κ β} {xs : List (κ × β)} {x : κ × β} {a c : κ} {n : Node κ β}

@[simp] theorem put_self : h.put a n a = some n := by
  rw [put, update_self]

theorem put_of_ne (hne : c ≠ a) : h.put a n c = h c := by
  rw [put, update_of_ne hne]

theorem remove_of_ne (hne : c ≠ a) : h.remove a c = h c := by
  rw [remove, update_of_ne hne]

theorem setNext_eq (hn : h a = some n) (b : κ) :
    h.setNext (some a) b = some (h.put a { n with next := some b }) := by
  simp [setNext, hn]

theorem free_eq (hn : h a = some n) : h.free (some a) = some (h.remove a) := by
  simp [free, hn]

theorem payload_put (a c : κ) :
    (h.put a n).payload c = if c = a then some n.payload else h.payload c := by
  unfold payload
  split
  · next heq => rw [heq, put_self, map_some]
  · next hne => rw [put_of_ne hne]

theorem payload_remove (a c : κ) :
    (h.remove a).payload c = if c = a then none else h.payload c := by
  unfold payload remove
  split
  · next heq => rw [heq, update_self, map_none]
  · next hne => rw [update_of_ne hne]

theorem Owned.put (ho : h.Owned xs) (ha : h a = none) (n : Node κ β) :
    (h.put a n).Owned ((a, n.payload) :: xs) := by
  have hfresh : ∀ v, (a, v) ∉ xs := fun v hv => ho.fresh_ne ha hv rfl
  refine ⟨nodup_cons.mpr ⟨?_, ho.nodup⟩, fun c v => ?_⟩
  · intro hmem
    obtain ⟨x, hx, hxa⟩ := mem_map.mp hmem
    exact ho.fresh_ne ha hx hxa
  · rw [payload_put, mem_cons, Prod.mk.injEq]
    split
    · next heq =>
      rw [heq, Option.some.injEq, eq_comm]
      simp [hfresh v]
    · next hne => simp [hne, ho.payload_iff]

theorem Owned.putNext (ho : h.Owned xs) (hn : h a = some n) (p : Option κ) :
    (h.put a { n with next := p }).Owned xs := by
  refine ⟨ho.nodup, fun c v => ?_⟩
  rw [payload_put, ← ho.payload_iff]
  split
  · next heq => rw [heq, payload, hn, map_some]
  · rfl

theorem Owned.remove (ho : h.Owned (x :: xs)) : (h.remove x.1).Owned xs := by
  refine ⟨(nodup_cons.mp ho.nodup).2, fun c v => ?_⟩
  rw [payload_remove]
  split
  · next heq =>
    exact iff_of_false (some_ne_none v).symm fun hmem => ho.head_ne hmem heq
  · next hne =>
    rw [ho.payload_iff, mem_cons]
    exact or_iff_right fun heq => hne (congrArg Prod.fst heq)

end Heap

end AmlogicHal
