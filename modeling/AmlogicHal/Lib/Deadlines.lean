import Mathlib.Data.List.AList
import Mathlib.Order.MinMax

/-!
# Deadlines that are dropped late

A table keeps one deadline for each key. A new deadline for a key never shortens the one that is
there, and a deadline that has passed may stay in the table until somebody looks for it.

What the table means at a given time is its `view`: the deadlines that are still live. The lemmas
say how the operations act on views: it makes no difference when the dead entries are dropped. A
time is given by the set `p` of deadlines that are live then, which contains with a deadline all
later ones.
-/

namespace AmlogicHal

open Option

/-- One deadline for each key. -/
abbrev Deadlines (κ τ : Type) := AList (fun _ : κ => τ)

namespace Deadlines

variable {κ τ δ : Type} [DecidableEq κ]

/-- Drop the deadlines that are not live. -/
def purge (p : τ → Bool) (m : Deadlines κ τ) : Deadlines κ τ :=
  ⟨m.entries.filter fun x => p x.2, m.nodupKeys.sublist List.filter_sublist⟩

def view (p : τ → Bool) (m : Deadlines κ τ) (k : κ) : Option τ := (m.lookup k).filter p

variable {p q : τ → Bool} {m : Deadlines κ τ}

@[simp] theorem view_empty (k : κ) : view p (∅ : Deadlines κ τ) k = none := rfl

theorem view_eq_some {k : κ} {e : τ} : view p m k = some e ↔ m.lookup k = some e ∧ p e = true := by
  simp [view]

@[simp] theorem view_erase (k : κ) (m : Deadlines κ τ) : view p (m.erase k) k = none := by
  simp [view]

theorem view_erase_ne {k k' : κ} (h : k' ≠ k) (m : Deadlines κ τ) :
    view p (m.erase k) k' = view p m k' := by
  rw [view, AList.lookup_erase_ne h, view]

theorem lookup_purge (p : τ → Bool) (m : Deadlines κ τ) (k : κ) :
    (m.purge p).lookup k = view p m k := by
  ext e
  change e ∈ (m.purge p).lookup k ↔ _
  rw [AList.mem_lookup_iff, view_eq_some, purge, List.mem_filter]
  exact and_congr_left fun _ => AList.mem_lookup_iff.symm

theorem view_later (hpq : ∀ e, q e = true → p e = true) (m : Deadlines κ τ) (k : κ) :
    view q m k = (view p m k).filter q := by
  unfold view
  cases m.lookup k with
  | none => rfl
  | some e =>
    by_cases he : q e = true
    · simp [filter_some, hpq e he]
    · by_cases he' : p e = true <;> simp [filter_some, he, he']

theorem view_purge (m : Deadlines κ τ) (k : κ) : view p (m.purge p) k = view p m k := by
  rw [view, lookup_purge, ← view_later (fun _ h => h)]

theorem purge_isEmpty (p : τ → Bool) (m : Deadlines κ τ) :
    (m.purge p).entries.isEmpty = true ↔ ∀ k, view p m k = none := by
  rw [List.isEmpty_iff, List.eq_nil_iff_forall_not_mem]
  constructor
  · intro h k
    rw [← lookup_purge, eq_none_iff_forall_ne_some]
    intro e he
    exact h ⟨k, e⟩ (AList.mem_lookup_iff.mp he)
  · rintro h ⟨k, e⟩ hmem
    have he := AList.mem_lookup_iff.mpr hmem
    rw [lookup_purge, h k] at he
    cases he

/-! ## Later deadlines -/

section Extend

variable [LinearOrder τ]

/-- Set the deadline of `k`, unless it has a later one. -/
def extend (k : κ) (e : τ) (m : Deadlines κ τ) : Deadlines κ τ :=
  match m.lookup k with
  | none => m.insert k e
  | some old => if old < e then m.insert k e else m

theorem lookup_extend (k : κ) (e : τ) :
    (m.extend k e).lookup k = some (((m.lookup k).map (max · e)).getD e) := by
  unfold extend
  cases hk : m.lookup k with
  | none => simp
  | some old =>
    dsimp only
    split
    · next hlt => simp [max_eq_right hlt.le]
    · next hge => simp [hk, max_eq_left (not_lt.mp hge)]

theorem lookup_extend_ne {k k' : κ} (h : k' ≠ k) (e : τ) (m : Deadlines κ τ) :
    (m.extend k e).lookup k' = m.lookup k' := by
  unfold extend
  split
  · exact AList.lookup_insert_ne h
  · split
    · exact AList.lookup_insert_ne h
    · rfl

/-- The new deadline counts against the live one only: a dead one that is later than `e` is still
dead, and `e` with it. -/
theorem view_extend (hp : ∀ a b, a ≤ b → p a = true → p b = true) (k : κ) (e : τ)
    (m : Deadlines κ τ) :
    view p (m.extend k e) k = (some (((view p m k).map (max · e)).getD e)).filter p := by
  unfold view
  rw [lookup_extend]
  cases hk : m.lookup k with
  | none => rfl
  | some old =>
    by_cases hold : p old = true
    · simp [filter_some, hold]
    · rcases le_total old e with hle | hle
      · simp [filter_some, hold, max_eq_right hle]
      · have he : ¬ p e = true := fun he => hold (hp e old hle he)
        simp [filter_some, hold, he, max_eq_left hle]

theorem view_extend_ne {k k' : κ} (h : k' ≠ k) (e : τ) (m : Deadlines κ τ) :
    view p (m.extend k e) k' = view p m k' := by
  rw [view, lookup_extend_ne h, view]

end Extend

/-! ## The earliest deadline -/

variable [LinearOrder δ]

/-- The least value of `f` on the deadlines, and `cap` if it is smaller or there are none. -/
def least (f : τ → δ) (cap : δ) (m : Deadlines κ τ) : δ :=
  m.entries.foldl (fun acc x => min (f x.2) acc) cap

theorem foldl_min_le {α : Type} (f : α → δ) (xs : List α) (cap : δ) :
    xs.foldl (fun acc x => min (f x) acc) cap ≤ cap ∧
      ∀ x ∈ xs, xs.foldl (fun acc x => min (f x) acc) cap ≤ f x := by
  induction xs generalizing cap with
  | nil => simp
  | cons y xs ih =>
    obtain ⟨hcap, hall⟩ := ih _
    refine ⟨hcap.trans (min_le_right _ _), fun x hx => ?_⟩
    rcases List.mem_cons.mp hx with rfl | hx
    · exact hcap.trans (min_le_left _ _)
    · exact hall x hx

theorem foldl_min_mem {α : Type} (f : α → δ) (xs : List α) (cap : δ) :
    xs.foldl (fun acc x => min (f x) acc) cap = cap ∨
      ∃ x ∈ xs, xs.foldl (fun acc x => min (f x) acc) cap = f x := by
  induction xs generalizing cap with
  | nil => exact .inl rfl
  | cons y xs ih =>
    rcases ih _ with h | ⟨x, hx, h⟩
    · rcases min_choice (f y) cap with hm | hm
      · exact .inr ⟨y, List.mem_cons_self, h.trans hm⟩
      · exact .inl (h.trans hm)
    · exact .inr ⟨x, List.mem_cons_of_mem _ hx, h⟩

variable (f : τ → δ)

theorem least_le (cap : δ) {k : κ} {e : τ}
    (h : m.lookup k = some e) : m.least f cap ≤ f e :=
  (foldl_min_le (fun x : (_ : κ) × τ => f x.2) m.entries cap).2 ⟨k, e⟩ (AList.mem_lookup_iff.mp h)

omit [DecidableEq κ] in
theorem least_le_cap (cap : δ) (m : Deadlines κ τ) : m.least f cap ≤ cap :=
  (foldl_min_le (fun x : (_ : κ) × τ => f x.2) m.entries cap).1

theorem least_mem (cap : δ) (m : Deadlines κ τ) :
    m.least f cap = cap ∨ ∃ k e, m.lookup k = some e ∧ m.least f cap = f e := by
  rcases foldl_min_mem (fun x : (_ : κ) × τ => f x.2) m.entries cap with h | ⟨x, hx, h⟩
  · exact .inl h
  · exact .inr ⟨x.1, x.2, AList.mem_lookup_iff.mpr hx, h⟩

end Deadlines

end AmlogicHal
