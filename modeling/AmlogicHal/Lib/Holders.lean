import AmlogicHal.Lib.Resources
import Mathlib.Logic.Function.Basic

/-!
# Variables that hold resources

A program keeps the handles of its resources in a few variables. An assignment forgets the handle
that the variable had, a release closes it. Resources are numbered in the order in which they are
opened.

`Only h ks`: nothing was lost so far, and the open resources are those in the variables `ks`. It has
a rule for every operation, so a function is followed by the list of the variables it has filled.
-/

namespace AmlogicHal

open Function List

structure Holders (κ : Type) where
  held : κ → Option Nat
  next : Nat
  /-- What happened to the resources, the newest first. -/
  history : List (ResourceEvent Nat)

namespace Holders

variable {κ : Type}

def empty : Holders κ := ⟨fun _ => none, 0, []⟩

/-- No resource is lost, and each open one is in one of the variables `ks`. -/
structure Only (h : Holders κ) (ks : List κ) : Prop where
  opens : ∃ rs, ResourceEvent.Opens h.history rs ∧ ∀ r, r ∈ rs ↔ ∃ k, h.held k = some r
  distinct : ∀ j k r, h.held j = some r → h.held k = some r → j = k
  heldFresh : ∀ k r, h.held k = some r → r < h.next
  closedFresh : ∀ r, .closed r ∈ h.history → r < h.next
  only : ∀ k r, h.held k = some r → k ∈ ks

variable {h : Holders κ} {ks ks' : List κ} {k : κ}

theorem only_empty : Only (empty : Holders κ) [] where
  opens := ⟨[], .nil, fun r => by simp [empty]⟩
  distinct j k r hj := by cases hj
  heldFresh k r hk := by cases hk
  closedFresh r hr := by cases hr
  only k r hk := by cases hk

theorem Only.held_eq_none (ho : Only h ks) (hk : k ∉ ks) : h.held k = none := by
  cases hheld : h.held k with
  | none => rfl
  | some r => exact absurd (ho.only k r hheld) hk

theorem Only.mono (ho : Only h ks) (hsub : ks ⊆ ks') : Only h ks' :=
  { ho with only := fun k r hk => hsub (ho.only k r hk) }

theorem Only.paired (ho : Only h []) : ResourceEvent.Paired h.history := by
  obtain ⟨rs, hopens, hrs⟩ := ho.opens
  have hnil : rs = [] := by
    refine eq_nil_iff_forall_not_mem.mpr fun r hr => ?_
    obtain ⟨k, hk⟩ := (hrs r).mp hr
    exact not_mem_nil (ho.only k r hk)
  exact (hnil ▸ hopens).paired

/-! ## The operations -/

variable [DecidableEq κ]

/-- The variable is overwritten with no handle. -/
def forget (k : κ) (h : Holders κ) : Holders κ :=
  match h.held k with
  | none => h
  | some r => ⟨Function.update h.held k none, h.next, .forgot r :: h.history⟩

/-- The variable is overwritten with a new resource, or with no handle if there is none. -/
def acquire (k : κ) (succeeds : Bool) (h : Holders κ) : Holders κ :=
  let h := h.forget k
  if succeeds then ⟨Function.update h.held k (some h.next), h.next + 1, .opened h.next :: h.history⟩
  else h

/-- The resource in the variable is closed, and the variable has no handle after that. -/
def release (k : κ) (h : Holders κ) : Holders κ :=
  match h.held k with
  | none => h
  | some r => ⟨Function.update h.held k none, h.next, .closed r :: h.history⟩

theorem held_forget_of_ne {j : κ} (hne : j ≠ k) : (h.forget k).held j = h.held j := by
  unfold forget
  split
  · rfl
  · exact update_of_ne hne ..

theorem held_acquire_of_ne {j : κ} (hne : j ≠ k) (succeeds : Bool) :
    (h.acquire k succeeds).held j = h.held j := by
  unfold acquire
  split
  · exact (update_of_ne hne ..).trans (held_forget_of_ne hne)
  · exact held_forget_of_ne hne

theorem held_acquire_self : (h.acquire k true).held k = some (h.forget k).next := by
  exact update_self ..

variable (ho : Only h ks)
include ho

theorem Only.forget_eq (hk : k ∉ ks) : h.forget k = h := by
  rw [forget, ho.held_eq_none hk]

theorem Only.forget (hk : k ∉ ks) : Only (h.forget k) ks := by
  rw [ho.forget_eq hk]
  exact ho

omit ho in
theorem update_eq_some_iff {β : Type} {f : κ → Option β} {v : Option β} {j : κ} {r : β} :
    update f k v j = some r ↔ j = k ∧ v = some r ∨ j ≠ k ∧ f j = some r := by
  by_cases hjk : j = k
  · simp [hjk]
  · simp [hjk]

theorem Only.acquire (hk : k ∉ ks) (succeeds : Bool) : Only (h.acquire k succeeds) (k :: ks) := by
  unfold Holders.acquire
  rw [ho.forget_eq hk]
  split
  · obtain ⟨rs, hopens, hrs⟩ := ho.opens
    constructor
    · refine ⟨h.next :: rs, hopens.opened fun hclosed => Nat.lt_irrefl _ (ho.closedFresh _ hclosed),
        fun r => ?_⟩
      rw [mem_cons, hrs]
      constructor
      · rintro (rfl | ⟨j, hj⟩)
        · exact ⟨k, update_eq_some_iff.mpr (.inl ⟨rfl, rfl⟩)⟩
        · refine ⟨j, update_eq_some_iff.mpr (.inr ⟨?_, hj⟩)⟩
          rintro rfl
          exact hk (ho.only j r hj)
      · rintro ⟨j, hj⟩
        rcases update_eq_some_iff.mp hj with ⟨-, hr⟩ | ⟨-, hj⟩
        · exact .inl (Option.some.inj hr).symm
        · exact .inr ⟨j, hj⟩
    · -- the new name is not that of a resource that is held
      intro i j r hi hj
      rcases update_eq_some_iff.mp hi with ⟨hik, hr⟩ | ⟨-, hi⟩ <;>
        rcases update_eq_some_iff.mp hj with ⟨hjk, hr'⟩ | ⟨-, hj⟩
      · exact hik.trans hjk.symm
      · exact absurd (ho.heldFresh j r hj) (Option.some.inj hr ▸ Nat.lt_irrefl _)
      · exact absurd (ho.heldFresh i r hi) (Option.some.inj hr' ▸ Nat.lt_irrefl _)
      · exact ho.distinct i j r hi hj
    · intro j r hj
      rcases update_eq_some_iff.mp hj with ⟨-, hr⟩ | ⟨-, hj⟩
      · exact Option.some.inj hr ▸ Nat.lt_succ_self _
      · exact Nat.lt_succ_of_lt (ho.heldFresh j r hj)
    · intro r hr
      rcases mem_cons.mp hr with heq | hr
      · cases heq
      · exact Nat.lt_succ_of_lt (ho.closedFresh r hr)
    · intro j r hj
      rcases update_eq_some_iff.mp hj with ⟨hjk, -⟩ | ⟨-, hj⟩
      · exact hjk ▸ mem_cons_self
      · exact mem_cons_of_mem _ (ho.only j r hj)
  · exact ho.mono (subset_cons_self _ _)

theorem Only.release (hsub : ∀ j ∈ ks, j = k ∨ j ∈ ks') : Only (h.release k) ks' := by
  unfold Holders.release
  cases hheld : h.held k with
  | none =>
    refine { ho with only := fun j r hj => (hsub j (ho.only j r hj)).resolve_left ?_ }
    rintro rfl
    rw [hheld] at hj
    cases hj
  | some q =>
    obtain ⟨rs, hopens, hrs⟩ := ho.opens
    have hother : ∀ {j r}, update h.held k none j = some r → j ≠ k ∧ h.held j = some r :=
      fun hj => (update_eq_some_iff.mp hj).resolve_left fun hnone =>
        Option.some_ne_none _ hnone.2.symm
    have hq : q ∈ rs := (hrs q).mpr ⟨k, hheld⟩
    constructor
    · refine ⟨rs.filter (· ≠ q), hopens.closed hq fun r => ?_, fun r => ?_⟩
      · rw [mem_filter, decide_eq_true_iff, and_comm]
      · rw [mem_filter, decide_eq_true_iff, hrs]
        constructor
        · rintro ⟨⟨j, hj⟩, hne⟩
          refine ⟨j, update_eq_some_iff.mpr (.inr ⟨?_, hj⟩)⟩
          rintro rfl
          exact hne (Option.some.inj (hj.symm.trans hheld))
        · rintro ⟨j, hj⟩
          obtain ⟨hjk, hj⟩ := hother hj
          exact ⟨⟨j, hj⟩, fun hr => hjk (ho.distinct j k r hj (hr ▸ hheld))⟩
    · intro i j r hi hj
      exact ho.distinct i j r (hother hi).2 (hother hj).2
    · intro j r hj
      exact ho.heldFresh j r (hother hj).2
    · intro r hr
      rcases mem_cons.mp hr with heq | hr
      · cases heq
        exact ho.heldFresh k q hheld
      · exact ho.closedFresh r hr
    · intro j r hj
      exact (hsub j (ho.only j r (hother hj).2)).resolve_left (hother hj).1

theorem Only.release_both {j : κ} (hsub : ∀ i ∈ ks, i = j ∨ i = k ∨ i ∈ ks') :
    Only ((h.release j).release k) ks' := by
  have hfirst : Only (h.release j) (k :: ks') :=
    ho.release fun i hi => (hsub i hi).imp_right fun h => mem_cons.mpr h
  exact hfirst.release fun i hi => mem_cons.mp hi

end Holders

end AmlogicHal
