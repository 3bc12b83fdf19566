import Mathlib.Data.List.Basic

/-!
# Histories of resources

A program opens resources, uses them through handles and closes them. A history is the list of what
it does with them, the newest event first, so that a property of an event and of what was before it
is a recursion on the list.

A program that overwrites its only handle of an open resource can never close it. `forgot` marks
where a handle is overwritten.
-/

namespace AmlogicHal

open List

inductive ResourceEvent (ρ : Type) where
  | opened (r : ρ)
  | used (r : ρ)
  | closed (r : ρ)
  /-- The handle of the resource is overwritten. -/
  | forgot (r : ρ)
deriving DecidableEq, Repr

namespace ResourceEvent

variable {ρ : Type} {t : List (ResourceEvent ρ)} {r q : ρ}

def IsOpen (t : List (ResourceEvent ρ)) (r : ρ) : Prop := .opened r ∈ t ∧ .closed r ∉ t

/-- Nothing is used, or closed once more, after it was closed. -/
def SafeUse : List (ResourceEvent ρ) → Prop
  | [] => True
  | .used r :: t => .closed r ∉ t ∧ SafeUse t
  | .closed r :: t => .closed r ∉ t ∧ SafeUse t
  | .opened _ :: t => SafeUse t
  | .forgot _ :: t => SafeUse t

/-- No handle of an open resource is overwritten. -/
def KeepsHandles : List (ResourceEvent ρ) → Prop
  | [] => True
  | .forgot r :: t => ¬ IsOpen t r ∧ KeepsHandles t
  | .opened _ :: t => KeepsHandles t
  | .used _ :: t => KeepsHandles t
  | .closed _ :: t => KeepsHandles t

/-- Everything that was opened was closed exactly once, and not used after that. -/
def Paired [DecidableEq ρ] (t : List (ResourceEvent ρ)) : Prop :=
  (∀ r, .opened r ∈ t → t.count (.closed r) = 1) ∧ SafeUse t

/-! ## Open resources -/

@[simp] theorem isOpen_used : IsOpen (.used q :: t) r ↔ IsOpen t r := by
  simp [IsOpen]

@[simp] theorem isOpen_forgot : IsOpen (.forgot q :: t) r ↔ IsOpen t r := by
  simp [IsOpen]

@[simp] theorem isOpen_closed : IsOpen (.closed q :: t) r ↔ r ≠ q ∧ IsOpen t r := by
  simp only [IsOpen, mem_cons, reduceCtorEq, false_or, closed.injEq, not_or]
  tauto

theorem isOpen_opened (hfresh : .closed q ∉ t) : IsOpen (.opened q :: t) r ↔
    r = q ∨ IsOpen t r := by
  simp only [IsOpen, mem_cons, opened.injEq, reduceCtorEq, false_or]
  constructor
  · rintro ⟨rfl | hopened, hclosed⟩
    · exact .inl rfl
    · exact .inr ⟨hopened, hclosed⟩
  · rintro (rfl | ⟨hopened, hclosed⟩)
    · exact ⟨.inl rfl, hfresh⟩
    · exact ⟨.inr hopened, hclosed⟩

variable {e : ResourceEvent ρ}

theorem IsOpen.cons (h : IsOpen t r) (hne : e ≠ .closed r) : IsOpen (e :: t) r := by
  refine ⟨mem_cons_of_mem _ h.1, fun hclosed => ?_⟩
  rcases mem_cons.mp hclosed with heq | hbefore
  · exact hne heq.symm
  · exact h.2 hbefore

theorem KeepsHandles.of_cons (h : KeepsHandles (e :: t)) : KeepsHandles t := by
  cases e with
  | forgot q => exact h.2
  | opened q => exact h
  | used q => exact h
  | closed q => exact h

/-! ## Histories without a loss -/

/-- A history that is safe so far and keeps its handles, with the resources that are open. -/
structure Opens (t : List (ResourceEvent ρ)) (rs : List ρ) : Prop where
  safe : SafeUse t
  keeps : KeepsHandles t
  isOpen : ∀ r, IsOpen t r ↔ r ∈ rs

section Opens

variable {rs : List ρ}

theorem Opens.nil : Opens ([] : List (ResourceEvent ρ)) [] :=
  ⟨trivial, trivial, fun r => by simp [IsOpen]⟩

variable (h : Opens t rs)
include h

theorem Opens.used (hmem : r ∈ rs) : Opens (.used r :: t) rs :=
  ⟨⟨((h.isOpen r).mpr hmem).2, h.safe⟩, h.keeps, fun q => isOpen_used.trans (h.isOpen q)⟩

theorem Opens.forgot (hmem : r ∉ rs) : Opens (.forgot r :: t) rs :=
  ⟨h.safe, ⟨fun hopen => hmem ((h.isOpen r).mp hopen), h.keeps⟩,
    fun q => isOpen_forgot.trans (h.isOpen q)⟩

theorem Opens.opened (hfresh : .closed r ∉ t) : Opens (.opened r :: t) (r :: rs) := by
  refine ⟨h.safe, h.keeps, fun q => ?_⟩
  rw [isOpen_opened hfresh, h.isOpen, mem_cons]

theorem Opens.closed {rest : List ρ} (hmem : r ∈ rs)
    (hrest : ∀ q, q ∈ rest ↔ q ≠ r ∧ q ∈ rs) : Opens (.closed r :: t) rest := by
  refine ⟨⟨((h.isOpen r).mpr hmem).2, h.safe⟩, h.keeps, fun q => ?_⟩
  rw [isOpen_closed, h.isOpen, hrest]

end Opens

/-! ## Losses -/

/-- The resource is open, and a handle of an open resource was overwritten. -/
structure Leaked (t : List (ResourceEvent ρ)) (r : ρ) : Prop where
  overwritten : ¬ KeepsHandles t
  isOpen : IsOpen t r

theorem Leaked.of_forgot (h : IsOpen t r) : Leaked (.forgot r :: t) r :=
  ⟨fun hkeeps => hkeeps.1 h, isOpen_forgot.mpr h⟩

theorem Leaked.cons (h : Leaked t r) (hne : e ≠ .closed r) :
    Leaked (e :: t) r :=
  ⟨fun hkeeps => h.overwritten hkeeps.of_cons, h.isOpen.cons hne⟩

/-! ## Whole histories -/

variable [DecidableEq ρ]

theorem SafeUse.count_closed_le (h : SafeUse t) (r : ρ) : t.count (.closed r) ≤ 1 := by
  induction t with
  | nil => exact Nat.zero_le _
  | cons e t ih =>
    cases e with
    | opened q => simpa using ih h
    | forgot q => simpa using ih h
    | used q => simpa using ih h.2
    | closed q =>
      by_cases hq : q = r
      · subst hq
        have hzero : t.count (.closed q) = 0 := count_eq_zero_of_not_mem h.1
        rw [count_cons_self]
        omega
      · rw [count_cons_of_ne (by simpa using hq)]
        exact ih h.2

theorem Opens.paired (h : Opens t []) : Paired t := by
  refine ⟨fun r hopened => ?_, h.safe⟩
  have hclosed : .closed r ∈ t := by
    by_contra hopen
    exact not_mem_nil ((h.isOpen r).mp ⟨hopened, hopen⟩)
  have hpos : 0 < t.count (.closed r) := count_pos_iff.mpr hclosed
  have hle := h.safe.count_closed_le r
  omega

theorem Leaked.not_paired (h : Leaked t r) : ¬ Paired t := by
  intro hpaired
  have hcount := hpaired.1 r h.isOpen.1
  rw [count_eq_zero_of_not_mem h.isOpen.2] at hcount
  cases hcount

end ResourceEvent

end AmlogicHal
