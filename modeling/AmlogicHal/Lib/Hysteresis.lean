import Mathlib.Order.Bounds.Basic
import Mathlib.Order.BoundedOrder.Basic

/-!
# Levels with hysteresis

A level of a linear order with a bottom is chosen from two sets: the levels that are reached now,
and those that may be held once they were reached. The law of hysteresis is that the new level is
the largest one that is reached, or that is held and not above the previous level.

* `scan`: the search for the largest level with a property in a descending list.
* `select`: take the largest reached level, or the largest held one if the first is below the
  previous level.
* `select_isGreatest_iff`: when `select` obeys the law. A held level above the previous one breaks
  it, and so does a reached level that is not held.
-/

namespace AmlogicHal.Hysteresis

open List

variable {α : Type} [LinearOrder α] [OrderBot α]

/-! ## The search -/

def scan (p : α → Bool) (levels : List α) (start : α) : α :=
  levels.foldl (fun r s => if p s = true ∧ r = ⊥ then s else r) start

theorem scan_of_ne (p : α → Bool) (levels : List α) {start : α} (hne : start ≠ ⊥) :
    scan p levels start = start := by
  induction levels with
  | nil => rfl
  | cons s levels ih =>
    rw [scan, foldl_cons, if_neg (fun h => hne h.2)]
    exact ih

theorem scan_isGreatest (p : α → Bool) {levels : List α} (hdesc : levels.Pairwise (· > ·)) :
    IsGreatest (insert ⊥ {s | s ∈ levels ∧ p s = true}) (scan p levels ⊥) := by
  induction levels with
  | nil =>
    refine ⟨.inl rfl, ?_⟩
    rintro s (rfl | ⟨hs, -⟩)
    · exact le_rfl
    · cases hs
  | cons s levels ih =>
    rw [pairwise_cons] at hdesc
    rw [scan, foldl_cons]
    by_cases hp : p s = true
    · -- the rest of the list is below `s`
      have hfirst : scan p levels s = s := by
        rcases eq_or_ne s ⊥ with hbot | hne
        · rw [hbot] at hdesc ⊢
          cases levels with
          | nil => rfl
          | cons t levels => exact absurd (hdesc.1 t mem_cons_self) not_lt_bot
        · exact scan_of_ne p levels hne
      rw [if_pos ⟨hp, rfl⟩]
      change IsGreatest _ (scan p levels s)
      rw [hfirst]
      refine ⟨.inr ⟨mem_cons_self, hp⟩, ?_⟩
      rintro t (rfl | ⟨ht, -⟩)
      · exact bot_le
      · rcases mem_cons.mp ht with rfl | ht
        · exact le_rfl
        · exact (hdesc.1 t ht).le
    · rw [if_neg fun h => hp h.1]
      obtain ⟨hmem, hub⟩ := ih hdesc.2
      refine ⟨hmem.imp id fun h => ⟨mem_cons_of_mem _ h.1, h.2⟩, ?_⟩
      rintro t (rfl | ⟨ht, hpt⟩)
      · exact bot_le
      · rcases mem_cons.mp ht with rfl | ht
        · exact absurd hpt hp
        · exact hub (.inr ⟨ht, hpt⟩)

/-! ## The choice -/

def select (prev reached held : α) : α := if reached < prev then held else reached

/-- The levels that the law allows. -/
def Allowed (reached held : Set α) (prev : α) : Set α :=
  insert ⊥ (reached ∪ {s | s ∈ held ∧ s ≤ prev})

/-- Nothing makes `select` differ from the law: the previous level is reached, or one above it is;
or no held level is above the previous one, and no reached level is above all held ones. -/
def Regular (reached held : Set α) (prev : α) : Prop :=
  (prev = ⊥ ∨ ∃ s ∈ reached, prev ≤ s) ∨
    (∀ s ∈ held, s ≤ prev) ∧ ∀ s ∈ reached, ∃ t ∈ insert ⊥ held, s ≤ t

section Select

variable {reached held : Set α} {prev r h : α}

theorem select_isGreatest_iff (hr : IsGreatest (insert ⊥ reached) r)
    (hh : IsGreatest (insert ⊥ held) h) :
    IsGreatest (Allowed reached held prev) (select prev r h) ↔ Regular reached held prev := by
  unfold select
  split
  · next hlt =>
    have hne : ¬ (prev = ⊥ ∨ ∃ s ∈ reached, prev ≤ s) := by
      rintro (rfl | ⟨s, hs, hle⟩)
      · exact not_lt_bot hlt
      · exact absurd (hle.trans (hr.2 (.inr hs))) (not_le.mpr hlt)
    unfold Regular
    rw [or_iff_right hne]
    constructor
    · rintro ⟨hmem, hub⟩
      have hle : h ≤ prev := by
        rcases hmem with rfl | hmem | hmem
        · exact bot_le
        · exact (hr.2 (.inr hmem)).trans hlt.le
        · exact hmem.2
      exact ⟨fun s hs => (hh.2 (.inr hs)).trans hle, fun s hs => ⟨h, hh.1, hub (.inr (.inl hs))⟩⟩
    · rintro ⟨hheld, hreached⟩
      refine ⟨hh.1.imp id fun hmem => .inr ⟨hmem, hheld h hmem⟩, ?_⟩
      rintro s (rfl | hs | hs)
      · exact bot_le
      · obtain ⟨t, ht, hle⟩ := hreached s hs
        exact hle.trans (hh.2 ht)
      · exact hh.2 (.inr hs.1)
  · next hge =>
    rw [not_lt] at hge
    refine iff_of_true ⟨hr.1.imp id .inl, ?_⟩ (.inl ?_)
    · rintro s (rfl | hs | hs)
      · exact bot_le
      · exact hr.2 (.inr hs)
      · exact hs.2.trans hge
    · rcases hr.1 with hbot | hmem
      · exact .inl (le_bot_iff.mp (hbot ▸ hge))
      · exact .inr ⟨r, hmem, hge⟩

theorem mem_reached_of_lt {s : α} (hs : s ∈ Allowed reached held prev) (hlt : prev < s) :
    s ∈ reached := by
  rcases hs with rfl | hs | hs
  · exact absurd hlt not_lt_bot
  · exact hs
  · exact absurd hlt (not_lt.mpr hs.2)

end Select

end AmlogicHal.Hysteresis
