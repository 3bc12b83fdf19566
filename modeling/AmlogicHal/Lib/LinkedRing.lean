import Mathlib.Data.List.Chain
import Mathlib.Data.List.Nodup
import Mathlib.Logic.Function.Basic

/-!
# Doubly linked rings

Lists as in `list.h`: every node has a link to the next and to the previous one, and a list is a
ring through a head that is no element. The links are two functions of the addresses, so a link may
lead anywhere, and that the ring is closed is something to prove.

`Ring l head xs`: the nodes of the ring are the head and `xs`, in this order. There is one lemma for
each operation of `list.h`, and one for a loop over the list.
-/

namespace AmlogicHal

open List

structure Links (α : Type) where
  next : α → α
  prev : α → α

namespace Links

variable {α : Type}

/-- Two neighbours lead to one another. -/
def Joined (l : Links α) (a b : α) : Prop := l.next a = b ∧ l.prev b = a

/-- The ring through `head` has the nodes `xs`. -/
structure Ring (l : Links α) (head : α) (xs : List α) : Prop where
  nodup : (head :: xs).Nodup
  chain : List.IsChain l.Joined (head :: xs ++ [head])

theorem isChain_congr {l l' : Links α} :
    ∀ {xs : List α}, List.IsChain l.Joined xs → (∀ a ∈ xs.dropLast, l'.next a = l.next a) →
      (∀ a ∈ xs.tail, l'.prev a = l.prev a) → List.IsChain l'.Joined xs
  | [], _, _, _ => .nil
  | [_], _, _, _ => .singleton _
  | a :: b :: xs, hchain, hnext, hprev => by
    rw [isChain_cons_cons] at hchain ⊢
    refine ⟨⟨?_, ?_⟩, isChain_congr hchain.2 (fun x hx => hnext x ?_) fun x hx => hprev x ?_⟩
    · rw [hnext a (by simp), hchain.1.1]
    · rw [hprev b (by simp), hchain.1.2]
    · rw [dropLast_cons_cons]
      exact mem_cons_of_mem _ hx
    · exact mem_cons_of_mem _ hx

section Reading

variable {l : Links α} {head a : α} {xs ys zs : List α}

theorem Ring.next_head (h : l.Ring head xs) : l.next head = xs.head?.getD head := by
  have hchain := h.chain
  cases xs with
  | nil => exact (isChain_pair.mp hchain).1
  | cons x xs => exact (isChain_cons_cons.mp hchain).1.1

theorem Ring.prev_head (h : l.Ring head xs) : l.prev head = xs.getLast?.getD head := by
  rcases eq_nil_or_concat' xs with rfl | ⟨front, last, rfl⟩
  · exact (isChain_pair.mp h.chain).2
  · have hchain := h.chain
    have hcycle : head :: (front ++ [last]) ++ [head] = (head :: front) ++ last :: head :: [] := by
      simp
    rw [hcycle, isChain_append_cons_cons] at hchain
    rw [hchain.2.1.2]
    simp

theorem exists_last (head : α) (xs : List α) : ∃ front last, head :: xs = front ++ [last] :=
  (eq_nil_or_concat' (head :: xs)).resolve_left (cons_ne_nil head xs)

theorem Ring.neighbours (h : l.Ring head (ys ++ a :: zs)) {front rest : List α} {before after : α}
    (hfront : head :: ys = front ++ [before]) (hrest : zs ++ [head] = after :: rest) :
    List.IsChain l.Joined (front ++ [before]) ∧ l.prev a = before ∧ l.next a = after ∧
      List.IsChain l.Joined (after :: rest) := by
  have hchain := h.chain
  have hcycle : head :: (ys ++ a :: zs) ++ [head] = front ++ before :: a :: after :: rest := by
    rw [← cons_append, hfront, append_assoc, cons_append, hrest]
    simp
  rw [hcycle, isChain_append_cons_cons, isChain_cons_cons] at hchain
  obtain ⟨hbefore, ⟨-, hprev⟩, ⟨hnext, -⟩, hafter⟩ := hchain
  exact ⟨hbefore, hprev, hnext, hafter⟩

end Reading

/-! ## Operations -/

variable [DecidableEq α]

variable (l : Links α)

def setNext (a b : α) : Links α := { l with next := Function.update l.next a b }

def setPrev (a b : α) : Links α := { l with prev := Function.update l.prev a b }

def initHead (head : α) : Links α := (l.setNext head head).setPrev head head

def insert (new prev next : α) : Links α :=
  (((l.setPrev next new).setNext new next).setPrev new prev).setNext prev new

def addTail (new head : α) : Links α := l.insert new (l.prev head) head

def unlink (prev next : α) : Links α := (l.setPrev next prev).setNext prev next

/-- `list_del`, with the values that it leaves in the node. -/
def del (poison₁ poison₂ entry : α) : Links α :=
  ((l.unlink (l.prev entry) (l.next entry)).setNext entry poison₁).setPrev entry poison₂

def isEmpty (head : α) : Bool := l.next head = head

/-- A loop over the list from `pos` on, up to the first node with a property. It is given a number
of turns, and has no result if it needs more. -/
def findFrom (l : Links α) (head : α) (p : α → Bool) : Nat → α → Option (Option α)
  | 0, _ => none
  | turns + 1, pos =>
    if pos = head then some none
    else if p pos then some (some pos)
    else l.findFrom head p turns (l.next pos)

/-! ## What the operations write -/

variable (l : Links α)

theorem addTail_next (new head x : α) :
    (l.addTail new head).next x =
      if x = l.prev head then new else if x = new then head else l.next x := by
  simp [addTail, insert, setNext, setPrev, Function.update_apply]

theorem addTail_prev (new head x : α) :
    (l.addTail new head).prev x =
      if x = new then l.prev head else if x = head then new else l.prev x := by
  simp [addTail, insert, setNext, setPrev, Function.update_apply]

theorem del_next (poison₁ poison₂ entry x : α) :
    (l.del poison₁ poison₂ entry).next x =
      if x = entry then poison₁ else if x = l.prev entry then l.next entry else l.next x := by
  simp [del, unlink, setNext, setPrev, Function.update_apply]

theorem del_prev (poison₁ poison₂ entry x : α) :
    (l.del poison₁ poison₂ entry).prev x =
      if x = entry then poison₂ else if x = l.next entry then l.prev entry else l.prev x := by
  simp [del, unlink, setNext, setPrev, Function.update_apply]

/-! ## What they do to a ring -/

variable {l : Links α} {head a poison₁ poison₂ : α} {xs ys zs : List α}

theorem ring_initHead (head : α) : (l.initHead head).Ring head [] := by
  refine ⟨nodup_singleton head, ?_⟩
  simp [Joined, initHead, setNext, setPrev]

theorem Ring.addTail (h : l.Ring head xs) (hnew : a ∉ head :: xs) :
    (l.addTail a head).Ring head (xs ++ [a]) := by
  obtain ⟨front, last, hsplit⟩ := exists_last head xs
  have hnodup := h.nodup
  have hchain := h.chain
  rw [hsplit, append_assoc, singleton_append, isChain_append_cons_cons] at hchain
  obtain ⟨hfront, ⟨-, hlast⟩, -⟩ := hchain
  have hlastNew : last ≠ a := fun heq => hnew (by rw [hsplit, heq]; simp)
  have hheadNew : head ≠ a := fun heq => hnew (heq ▸ mem_cons_self)
  refine ⟨?_, ?_⟩
  · rw [← cons_append, nodup_append_comm, singleton_append, nodup_cons]
    exact ⟨hnew, hnodup⟩
  · have hcycle : head :: (xs ++ [a]) ++ [head] = front ++ last :: a :: [head] := by
      rw [← cons_append, hsplit]
      simp
    rw [hcycle, isChain_append_cons_cons]
    refine ⟨isChain_congr hfront (fun x hx => ?_) (fun x hx => ?_), ⟨?_, ?_⟩, ?_⟩
    · -- the links in front of the last node
      rw [dropLast_concat] at hx
      rw [hsplit] at hnodup hnew
      have hne : x ≠ last := by
        rintro rfl
        exact (nodup_append.mp hnodup).2.2 x hx x (mem_singleton_self x) rfl
      have hnewx : x ≠ a := by
        rintro rfl
        exact hnew (mem_append_left _ hx)
      rw [addTail_next, hlast, if_neg hne, if_neg hnewx]
    · rw [← hsplit, tail_cons] at hx
      have hnewx : x ≠ a := by
        rintro rfl
        exact hnew (mem_cons_of_mem _ hx)
      have hheadx : x ≠ head := by
        rintro rfl
        exact (nodup_cons.mp hnodup).1 hx
      rw [addTail_prev, if_neg hnewx, if_neg hheadx]
    · rw [addTail_next, if_pos hlast.symm]
    · rw [addTail_prev, if_pos rfl, hlast]
    · rw [isChain_pair]
      refine ⟨?_, ?_⟩
      · rw [addTail_next, hlast, if_neg hlastNew.symm, if_pos rfl]
      · rw [addTail_prev, if_neg hheadNew, if_pos rfl]

theorem Ring.del (h : l.Ring head (ys ++ a :: zs)) :
    (l.del poison₁ poison₂ a).Ring head (ys ++ zs) := by
  obtain ⟨front, before, hfront⟩ := exists_last head ys
  obtain ⟨after, rest, hrest⟩ : ∃ after rest, zs ++ [head] = after :: rest :=
    exists_cons_of_ne_nil (by simp)
  obtain ⟨hchainFront, hprev, hnext, hchainRest⟩ := h.neighbours hfront hrest
  have hparts := h.nodup
  rw [← cons_append, nodup_append] at hparts
  obtain ⟨hnodupFront, hnodupRest, hapart⟩ := hparts
  -- the nodes on both sides are different from the node and from one another
  have hfrontNe : ∀ x ∈ head :: ys, x ≠ a := fun x hx => hapart x hx a mem_cons_self
  have hrestNe : ∀ x ∈ zs ++ [head], x ≠ a := by
    intro x hx
    rcases mem_append.mp hx with hz | hhead
    · rintro rfl
      exact (nodup_cons.mp hnodupRest).1 hz
    · rw [mem_singleton.mp hhead]
      exact hfrontNe head mem_cons_self
  have hcross : ∀ x ∈ ys, ∀ y ∈ zs ++ [head], x ≠ y := by
    intro x hx y hy
    rcases mem_append.mp hy with hz | hhead
    · exact hapart x (mem_cons_of_mem _ hx) y (mem_cons_of_mem _ hz)
    · rw [mem_singleton.mp hhead]
      rintro rfl
      exact (nodup_cons.mp hnodupFront).1 hx
  have hnodupEnd : (zs ++ [head]).Nodup := by
    rw [nodup_append_comm, singleton_append, nodup_cons]
    exact ⟨fun hz => hapart head mem_cons_self head (mem_cons_of_mem _ hz) rfl,
      (nodup_cons.mp hnodupRest).2⟩
  have hafter : after ∈ zs ++ [head] := hrest ▸ mem_cons_self
  have hbefore : before ∈ head :: ys := by
    rw [hfront]
    exact mem_append_right _ (mem_singleton_self _)
  refine ⟨?_, ?_⟩
  · exact h.nodup.sublist (((sublist_cons_self a zs).append_left ys).cons_cons head)
  · have hcycle : head :: (ys ++ zs) ++ [head] = front ++ before :: after :: rest := by
      rw [← cons_append, hfront, append_assoc, hrest]
      simp
    rw [hcycle, isChain_append_cons_cons]
    refine ⟨isChain_congr hchainFront (fun x hx => ?_) (fun x hx => ?_), ⟨?_, ?_⟩,
      isChain_congr hchainRest (fun x hx => ?_) fun x hx => ?_⟩
    · rw [dropLast_concat] at hx
      have hmem : x ∈ head :: ys := by
        rw [hfront]
        exact mem_append_left _ hx
      have hne : x ≠ before := by
        rw [hfront] at hnodupFront
        exact (nodup_append.mp hnodupFront).2.2 x hx before (mem_singleton_self _)
      rw [del_next, if_neg (hfrontNe x hmem), hprev, if_neg hne]
    · rw [← hfront, tail_cons] at hx
      rw [del_prev, if_neg (hfrontNe x (mem_cons_of_mem _ hx)), hnext,
        if_neg (hcross x hx after hafter)]
    · rw [del_next, if_neg (hfrontNe before hbefore), hprev, if_pos rfl, hnext]
    · rw [del_prev, if_neg (hrestNe after hafter), hnext, if_pos rfl, hprev]
    · rw [← hrest, dropLast_concat] at hx
      have hne : x ≠ before := (hapart before hbefore x (mem_cons_of_mem _ hx)).symm
      rw [del_next, if_neg (hrestNe x (mem_append_left _ hx)), hprev, if_neg hne]
    · have hmem : x ∈ zs ++ [head] := by
        rw [hrest]
        exact mem_cons_of_mem _ hx
      have hne : x ≠ after := by
        rintro rfl
        exact (nodup_cons.mp (hrest ▸ hnodupEnd)).1 hx
      rw [del_prev, if_neg (hrestNe x hmem), hnext, if_neg hne]

theorem Ring.del_next_head (h : l.Ring head (a :: zs)) :
    (l.del poison₁ poison₂ a).next head = l.next a := by
  have hne : head ≠ a := by
    rintro rfl
    exact (nodup_cons.mp h.nodup).1 mem_cons_self
  have hprev : l.prev a = head := (isChain_cons_cons.mp h.chain).1.2
  rw [del_next, if_neg hne, if_pos hprev.symm]

/-! ## Loops -/

theorem Ring.isEmpty_iff (h : l.Ring head xs) : l.isEmpty head = true ↔ xs = [] := by
  rw [isEmpty, decide_eq_true_eq, h.next_head]
  cases xs with
  | nil => simp
  | cons x xs =>
    have hne : head ≠ x := by
      rintro rfl
      exact (nodup_cons.mp h.nodup).1 mem_cons_self
    simpa using hne.symm

theorem findFrom_of_chain {p : α → Bool} {turns : Nat} :
    ∀ {a : α} {xs : List α}, List.IsChain l.Joined (a :: xs ++ [head]) → head ∉ xs →
      xs.length < turns → l.findFrom head p turns (l.next a) = some (xs.find? p) := by
  induction turns with
  | zero => intro a xs _ _ hturns; omega
  | succ turns ih =>
    intro a xs hchain hhead hturns
    cases xs with
    | nil =>
      rw [(isChain_pair.mp hchain).1, findFrom, if_pos rfl]
      rfl
    | cons x xs =>
      rw [cons_append, cons_append, isChain_cons_cons] at hchain
      have hne : x ≠ head := fun heq => hhead (heq ▸ mem_cons_self)
      rw [hchain.1.1, findFrom, if_neg hne, List.find?_cons]
      cases p x with
      | true => rfl
      | false =>
        exact ih hchain.2 (fun hmem => hhead (mem_cons_of_mem _ hmem))
          (Nat.lt_of_succ_lt_succ hturns)

/-- A loop over the whole list finds the first node with the property, if it is given one turn more
than there are nodes. -/
theorem Ring.findFrom (h : l.Ring head xs) (p : α → Bool) {turns : Nat}
    (hturns : xs.length < turns) : l.findFrom head p turns (l.next head) = some (xs.find? p) :=
  findFrom_of_chain h.chain (nodup_cons.mp h.nodup).1 hturns

end Links

end AmlogicHal
