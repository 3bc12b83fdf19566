import Mathlib.Data.List.TakeWhile
import Mathlib.Order.Lattice

/-!
# Queues that are ordered by a key

An item goes behind all items whose key is not greater, and items are taken out at the front. Such a
queue stays sorted, and items with the same key leave it in the order in which they came.

* `insertBehind`: where an item goes. `filter_insertBehind` says that it is the last one of its key.
* `Served`: a queue with all that was put in, removed and taken out so far. Every operation keeps it
  (`Served.insert`, `Served.retain`, `Served.dequeue`).
-/

namespace AmlogicHal.StableQueue

open List

variable {α κ : Type} [LinearOrder κ] {key : α → κ}

def insertBehind (key : α → κ) (a : α) (q : List α) : List α :=
  q.takeWhile (key · ≤ key a) ++ a :: q.dropWhile (key · ≤ key a)

def Sorted (key : α → κ) (q : List α) : Prop := q.Pairwise fun a b => key a ≤ key b

theorem perm_insertBehind (a : α) (q : List α) : (insertBehind key a q).Perm (a :: q) := by
  refine perm_middle.trans (List.Perm.cons a ?_)
  rw [takeWhile_append_dropWhile]

variable {q : List α}

theorem le_of_mem_takeWhile {a b : α} (hb : b ∈ q.takeWhile (key · ≤ key a)) : key b ≤ key a := by
  have hle := mem_takeWhile_imp hb
  exact of_decide_eq_true hle

theorem Sorted.lt_of_mem_dropWhile {a : α} (h : Sorted key q) :
    ∀ b ∈ q.dropWhile (key · ≤ key a), key a < key b := by
  induction q with
  | nil => exact fun b hb => absurd hb not_mem_nil
  | cons c q ih =>
    obtain ⟨hc, hq⟩ := pairwise_cons.mp h
    rw [dropWhile_cons]
    cases hle : decide (key c ≤ key a) with
    | true => exact ih hq
    | false =>
      have hlt : key a < key c := not_le.mp (of_decide_eq_false hle)
      intro b hb
      cases mem_cons.mp hb with
      | inl heq => exact heq ▸ hlt
      | inr hmem => exact lt_of_lt_of_le hlt (hc b hmem)

theorem Sorted.insertBehind (h : Sorted key q) (a : α) : Sorted key (insertBehind key a q) := by
  have hsplit : Sorted key (q.takeWhile (key · ≤ key a) ++ q.dropWhile (key · ≤ key a)) := by
    rw [takeWhile_append_dropWhile]
    exact h
  obtain ⟨htake, hdrop, hcross⟩ := pairwise_append.mp hsplit
  refine pairwise_append.mpr ⟨htake, pairwise_cons.mpr ⟨?_, hdrop⟩, ?_⟩
  · exact fun b hb => le_of_lt (h.lt_of_mem_dropWhile b hb)
  · intro b hb c hc
    cases mem_cons.mp hc with
    | inl heq => exact heq ▸ le_of_mem_takeWhile hb
    | inr hmem => exact hcross b hb c hmem

theorem filter_insertBehind (h : Sorted key q) (a : α) (k : κ) :
    (insertBehind key a q).filter (key · = k) = q.filter (key · = k) ++ if key a =
      k then [a] else [] := by
  have hq : q.filter (key · = k) = (q.takeWhile (key · ≤ key a)).filter (key · = k) ++
      (q.dropWhile (key · ≤ key a)).filter (key · = k) := by
    rw [← filter_append, takeWhile_append_dropWhile]
  rw [hq, StableQueue.insertBehind, filter_append, filter_cons, append_assoc]
  by_cases hk : key a = k
  · have hnone : (q.dropWhile (key · ≤ key a)).filter (key · = k) = [] := by
      refine filter_eq_nil_iff.mpr fun b hb heq => ?_
      exact ne_of_lt (h.lt_of_mem_dropWhile b hb) (hk.trans (of_decide_eq_true heq).symm)
    rw [hnone, if_pos (decide_eq_true hk), if_pos hk]
    rfl
  · rw [if_neg (by simpa using hk), if_neg hk, append_nil]

/-! ## All that went in and came out -/

/-- The queue with what was put in, removed and taken out at the front so far, oldest first. Of the
items of one key those that were taken out and those in the queue are in the order in which they
came. -/
structure Served (key : α → κ) (sent removed out queue : List α) : Prop where
  sorted : Sorted key queue
  inOrder : ∀ k, ((out ++ queue).filter (key · = k)).Sublist sent
  account : sent.Perm (queue ++ removed ++ out)

theorem served_nil : Served key [] [] [] [] :=
  ⟨List.Pairwise.nil, fun _ => List.Sublist.slnil, List.Perm.nil⟩

namespace Served

variable {sent removed out queue : List α}

variable (h : Served key sent removed out queue)
include h

theorem insert (a : α) : Served key (sent ++ [a]) removed out (insertBehind key a queue) := by
  refine ⟨h.sorted.insertBehind a, fun k => ?_, ?_⟩
  · rw [filter_append, filter_insertBehind h.sorted, ← append_assoc, ← filter_append]
    refine (h.inOrder k).append ?_
    split
    · exact List.Sublist.refl _
    · exact nil_sublist _
  · calc (sent ++ [a]).Perm (a :: sent) := perm_append_singleton a sent
      _ |>.Perm (a :: (queue ++ removed ++ out)) := h.account.cons a
      _ |>.Perm _ := ((perm_insertBehind a queue).symm.append_right removed).append_right out

theorem retain {kept dropped : List α}
    (hsub : kept.Sublist queue) (hdrop : queue.Perm (kept ++ dropped)) :
    Served key sent (removed ++ dropped) out kept := by
  refine ⟨h.sorted.sublist hsub, fun k => ?_, ?_⟩
  · exact ((hsub.append_left out).filter _).trans (h.inOrder k)
  · refine h.account.trans (List.Perm.append_right out ?_)
    calc (queue ++ removed).Perm (kept ++ dropped ++ removed) := hdrop.append_right removed
      _ |>.Perm _ := by
        rw [append_assoc]
        exact perm_append_comm.append_left kept

omit h in
theorem dequeue {a : α} (h : Served key sent removed out (a :: queue)) :
    Served key sent removed (out ++ [a]) queue := by
  refine ⟨(pairwise_cons.mp h.sorted).2, fun k => ?_, h.account.trans ?_⟩
  · rw [append_assoc]
    exact h.inOrder k
  · calc (a :: queue ++ removed ++ out).Perm (queue ++ removed ++ out ++ [a]) :=
          (perm_append_singleton a _).symm
      _ |>.Perm _ := by rw [append_assoc]

theorem out_sublist (k : κ) :
    (out.filter (key · = k)).Sublist sent :=
  ((sublist_append_left out queue).filter _).trans (h.inOrder k)

end Served

end AmlogicHal.StableQueue
