import AmlogicHal.Lib.Memory
import Mathlib.Data.Nat.ModEq

/-!
# Ring buffers

`capacity` cells from the address `base` on are used as a ring. Its contents are a window: `n` cells
from the position `start` on, where the positions count modulo the capacity.

* `window_append`, `drop_window`: windows that follow one another; reading from the front takes a
  prefix.
* `window_eq_slice`, `window_eq_slices`: a window as one range of cells, or as two if it goes over
  the end.
* `window_store`, `window_stores`: storing behind a window adds to it.
* `gap`: how far one position is behind another one, the only distance below the capacity
  (`add_gap`, `gap_unique`).
-/

namespace AmlogicHal

open List

namespace Memory

variable {α : Type}

/-- The `n` cells from position `start` of the ring. -/
def window (m : Memory α) (base capacity start n : Nat) : List α :=
  (range n).map fun i => m (base + (start + i) % capacity)

section Ring

variable (m : Memory α) (base capacity start n : Nat)

@[simp] theorem length_window : (m.window base capacity start n).length = n := by
  simp [window]

theorem window_mod :
    m.window base capacity (start % capacity) n = m.window base capacity start n := by
  refine map_congr_left fun i _ => ?_
  rw [Nat.mod_add_mod]

theorem window_append (k : Nat) :
    m.window base capacity start k ++ m.window base capacity (start + k) n =
      m.window base capacity start (k + n) := by
  simp [window, range_add, Nat.add_assoc]

theorem window_cons : m.window base capacity start (n + 1) =
    m (base + start % capacity) :: m.window base capacity (start + 1) n := by
  rw [Nat.add_comm n 1, ← window_append]
  rfl

variable {n}

theorem take_window {k : Nat} (hk : k ≤ n) :
    (m.window base capacity start n).take k = m.window base capacity start k := by
  obtain ⟨r, rfl⟩ := Nat.exists_eq_add_of_le hk
  rw [← window_append, take_left' (length_window _ _ _ _ _)]

theorem drop_window {k : Nat} (hk : k ≤ n) :
    (m.window base capacity start n).drop k = m.window base capacity (start + k) (n - k) := by
  obtain ⟨r, rfl⟩ := Nat.exists_eq_add_of_le hk
  rw [← window_append, drop_left' (length_window _ _ _ _ _), Nat.add_sub_cancel_left]

variable {capacity start}

theorem window_eq_slice (h : start + n ≤ capacity) :
    m.window base capacity start n = m.slice (base + start) n := by
  refine map_congr_left fun i hi => ?_
  have hlt : start + i < capacity :=
    Nat.lt_of_lt_of_le (Nat.add_lt_add_left (mem_range.mp hi) start) h
  rw [Nat.mod_eq_of_lt hlt, Nat.add_assoc]

theorem window_eq_slices (hstart : start ≤ capacity) (hn : n ≤ capacity)
    (h : capacity ≤ start + n) : m.window base capacity start n =
      m.slice (base + start) (capacity - start) ++ m.slice base (n - (capacity - start)) := by
  have htail : capacity - start ≤ n := Nat.sub_le_of_le_add (Nat.add_comm start n ▸ h)
  have hhead : m.window base capacity (start + (capacity - start)) (n - (capacity - start)) =
      m.slice base (n - (capacity - start)) := by
    rw [Nat.add_sub_of_le hstart, ← window_mod, Nat.mod_self,
      window_eq_slice m base (Nat.zero_add _ ▸ (Nat.sub_le _ _).trans hn), Nat.add_zero]
  rw [← window_eq_slice m base (Nat.le_of_eq (Nat.add_sub_of_le hstart)), ← hhead, window_append,
    Nat.add_sub_of_le htail]

end Ring

variable {capacity start : Nat}

theorem position_inj {i j : Nat} (hi : i < capacity) (hj : j < capacity)
    (h : (start + i) % capacity = (start + j) % capacity) : i = j := by
  have hmod : i ≡ j [MOD capacity] := Nat.ModEq.add_left_cancel' start h
  rwa [Nat.ModEq, Nat.mod_eq_of_lt hi, Nat.mod_eq_of_lt hj] at hmod

/-- The distance from the position `a` forward to the position `b`. -/
def gap (capacity a b : Nat) : Nat := (b + (capacity - a)) % capacity

theorem gap_lt (a b : Nat) (h : 0 < capacity) : gap capacity a b < capacity := Nat.mod_lt _ h

theorem add_gap {a : Nat} (b : Nat) (ha : a ≤ capacity) :
    (a + gap capacity a b) % capacity = b % capacity := by
  have hround : a + (b + (capacity - a)) = b + capacity := by
    rw [Nat.add_left_comm, Nat.add_sub_of_le ha]
  rw [gap, Nat.add_mod_mod, hround, Nat.add_mod_right]

theorem gap_unique {a b k : Nat} (ha : a ≤ capacity) (hk : k < capacity)
    (h : (a + k) % capacity = b % capacity) : gap capacity a b = k :=
  position_inj (gap_lt a b (Nat.zero_lt_of_lt hk)) hk ((add_gap b ha).trans h.symm)

/-- Storing at the position behind a window, within the free cells and not over the end of the ring,
adds to the window. -/
theorem window_store (m : Memory α) (base : Nat) {n p : Nat} {bs : List α}
    (hp : p = (start + n) % capacity) (hend : p + bs.length ≤ capacity)
    (hfree : n + bs.length ≤ capacity) :
    (m.store (base + p) bs).window base capacity start (n + bs.length) =
      m.window base capacity start n ++ bs := by
  -- the position of a stored element, counted from the start of the window
  have hpos : ∀ j < bs.length, (start + (n + j)) % capacity = p + j := by
    intro j hj
    rw [← Nat.add_assoc, ← Nat.mod_add_mod, ← hp,
      Nat.mod_eq_of_lt (Nat.lt_of_lt_of_le (Nat.add_lt_add_left hj p) hend)]
  have hold : (m.store (base + p) bs).window base capacity start n =
      m.window base capacity start n := by
    refine map_congr_left fun i hi => ?_
    have hi := mem_range.mp hi
    rcases Nat.lt_or_ge _ p with hlt | hge
    · exact store_of_lt m bs (Nat.add_lt_add_left hlt base)
    · rcases Nat.lt_or_ge ((start + i) % capacity) _ with hlt | hge'
      · -- an old position that is also a new one
        obtain ⟨j, hj⟩ := Nat.exists_eq_add_of_le hge
        have hjlt : j < bs.length := Nat.lt_of_add_lt_add_left (hj ▸ hlt)
        have heq : i = n + j := position_inj
          (hi.trans_le ((Nat.le_add_right n _).trans hfree))
          ((Nat.add_lt_add_left hjlt n).trans_le hfree) (hj.trans (hpos j hjlt).symm)
        exact absurd hi (heq ▸ Nat.not_lt.mpr (Nat.le_add_right n j))
      · exact store_of_ge m bs (by rw [Nat.add_assoc]; exact Nat.add_le_add_left hge' base)
  have hnew : (m.store (base + p) bs).window base capacity (start + n) bs.length = bs := by
    rw [← window_mod, ← hp, window_eq_slice _ base hend, slice_store]
  rw [← window_append, hold, hnew]

/-- Storing behind a window over the end of the ring: first to its last cells, then to its first. -/
theorem window_stores (m : Memory α) (base : Nat) {n : Nat} {first second : List α}
    (hend : start + n < capacity) (hfirst : start + n + first.length = capacity)
    (hfree : n + (first.length + second.length) ≤ capacity) :
    ((m.store (base + (start + n)) first).store base second).window base capacity start
        (n + (first.length + second.length)) =
      m.window base capacity start n ++ (first ++ second) := by
  rw [← Nat.add_assoc n] at hfree ⊢
  have hone := window_store m base (Nat.mod_eq_of_lt hend).symm (Nat.le_of_eq hfirst)
    ((Nat.le_add_right _ _).trans hfree)
  have hzero : 0 = (start + (n + first.length)) % capacity := by
    rw [← Nat.add_assoc, hfirst, Nat.mod_self]
  have htwo := window_store (m.store (base + (start + n)) first) base hzero
    (Nat.zero_add _ ▸ (Nat.le_add_left _ _).trans hfree) hfree
  rw [Nat.add_zero] at htwo
  rw [htwo, hone, append_assoc]

end Memory

end AmlogicHal
