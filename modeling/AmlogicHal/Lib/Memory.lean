import Mathlib.Data.List.Basic

/-!
# Cells that are addressed by numbers

A buffer of the source is a memory without an end, so that an access outside the buffer is an access
like any other, and being inside is something to prove.

* `Memory.slice`: the contents of a range.
* `Memory.store`: the memory after a list has been written to a range (`memcpy`).
* `Memory.move`: the memory after a range has been copied to another one, which may overlap it
  (`memmove`).
-/

namespace AmlogicHal

open List

abbrev Memory (α : Type) := Nat → α

namespace Memory

variable {α : Type}

def slice (m : Memory α) (start n : Nat) : List α := (range n).map fun i => m (start + i)

def store (m : Memory α) (start : Nat) (bs : List α) : Memory α := fun j =>
  if start ≤ j then bs[j - start]?.getD (m j) else m j

def move (m : Memory α) (dst src n : Nat) : Memory α := m.store dst (m.slice src n)

/-! ## Slices -/

variable (m : Memory α) {start n i : Nat}

@[simp] theorem length_slice (start n : Nat) : (m.slice start n).length = n := by
  simp [slice]

theorem getElem?_slice (hi : i < n) : (m.slice start n)[i]? = some (m (start + i)) := by
  simp [slice, hi]

theorem slice_congr {m m' : Memory α} {start' : Nat}
    (h : ∀ i < n, m (start + i) = m' (start' + i)) : m.slice start n = m'.slice start' n :=
  map_congr_left fun i hi => h i (mem_range.mp hi)

theorem eq_of_slice_eq {m m' : Memory α} {start' : Nat} (h : m.slice start n = m'.slice start' n)
    (hi : i < n) :
    m (start + i) = m' (start' + i) := by
  have hcell := congrArg (fun l => l[i]?) h
  simpa only [getElem?_slice m hi, getElem?_slice m' hi, Option.some.injEq] using hcell

theorem slice_append (start k n : Nat) :
    m.slice start k ++ m.slice (start + k) n = m.slice start (k + n) := by
  simp [slice, range_add, Nat.add_assoc]

theorem drop_slice (start : Nat) {k : Nat} (hk : k ≤ n) :
    (m.slice start n).drop k = m.slice (start + k) (n - k) := by
  obtain ⟨r, rfl⟩ := Nat.exists_eq_add_of_le hk
  rw [← slice_append, drop_left' (length_slice m start k), Nat.add_sub_cancel_left]

/-! ## Stores -/

variable (bs : List α)

theorem store_of_lt {j : Nat} (hj : j < start) : m.store start bs j = m j :=
  if_neg (Nat.not_le.mpr hj)

theorem store_of_ge {j : Nat} (hj : start + bs.length ≤ j) : m.store start bs j = m j := by
  have hnone : bs[j - start]? = none := getElem?_eq_none (Nat.le_sub_of_add_le' hj)
  rw [store, if_pos (Nat.le_of_add_right_le hj), hnone, Option.getD_none]

theorem store_inside (start : Nat) {bs : List α} (hi : i < bs.length) :
    m.store start bs (start + i) = bs[i] := by
  rw [store, if_pos (Nat.le_add_right _ _), Nat.add_sub_cancel_left, getElem?_eq_getElem hi,
    Option.getD_some]

theorem slice_store (start : Nat) (bs : List α) :
    (m.store start bs).slice start bs.length = bs := by
  refine ext_getElem (length_slice _ _ _) fun i _ hi => ?_
  simp only [slice, getElem_map, getElem_range]
  exact store_inside m start hi

theorem slice_store_before {s : Nat} (h : s + n ≤ start) :
    (m.store start bs).slice s n = m.slice s n :=
  slice_congr fun _ hi =>
    store_of_lt m bs (Nat.lt_of_lt_of_le (Nat.add_lt_add_left hi s) h)

theorem slice_store_append (start n : Nat) (bs : List α) :
    (m.store (start + n) bs).slice start (n + bs.length) = m.slice start n ++ bs := by
  rw [← slice_append, slice_store_before m bs (Nat.le_refl _), slice_store]

@[simp] theorem store_nil (start : Nat) : m.store start [] = m := by
  funext j
  simp [store]

theorem store_append (start : Nat) (xs ys : List α) :
    (m.store start xs).store (start + xs.length) ys = m.store start (xs ++ ys) := by
  funext j
  rcases Nat.lt_or_ge j start with hlt | hge
  · rw [store_of_lt _ _ (Nat.lt_add_right _ hlt), store_of_lt _ _ hlt, store_of_lt _ _ hlt]
  · obtain ⟨i, rfl⟩ := Nat.exists_eq_add_of_le hge
    rcases Nat.lt_or_ge i xs.length with hi | hi
    · have hboth : i < (xs ++ ys).length := length_append ▸ Nat.lt_add_right _ hi
      rw [store_of_lt _ _ (Nat.add_lt_add_left hi start), store_inside m start hi,
        store_inside m start hboth, getElem_append_left hi]
    · obtain ⟨k, rfl⟩ := Nat.exists_eq_add_of_le hi
      rw [store, if_pos (by omega), store_of_ge _ _ (by omega), store, if_pos hge]
      congr 1
      rw [Nat.add_sub_cancel_left, getElem?_append_right hi]
      congr 1
      omega

/-! ## Moves -/

theorem move_inside (dst src : Nat) (hi : i < n) : m.move dst src n (dst + i) = m (src + i) := by
  have hlength : i < (m.slice src n).length := (length_slice m src n).symm ▸ hi
  rw [move, store_inside m dst hlength]
  simp [slice]

theorem move_of_ge {dst j : Nat} (src n : Nat) (hj : dst + n ≤ j) :
    m.move dst src n j = m j :=
  store_of_ge m _ ((length_slice m src n).symm ▸ hj)

theorem slice_move (dst src n : Nat) : (m.move dst src n).slice dst n = m.slice src n := by
  have h := slice_store m dst (m.slice src n)
  rwa [length_slice] at h

end Memory

end AmlogicHal
