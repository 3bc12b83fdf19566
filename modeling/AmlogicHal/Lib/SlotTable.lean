import Mathlib.Data.Fintype.Card
import Mathlib.Logic.Function.Basic

/-!
# Tables of slots

A table of slots, each empty or with a key and a value, in no order and with no hash. It represents
a finite map if every key is in one slot at most.

* `Represents.put`: writing or clearing the one slot that may hold a key updates the map at the key.
* `Represents.exists_empty`: a table that has as many slots as there are keys has an empty one for
  every key that is not in it.
-/

namespace AmlogicHal.SlotTable

open List

variable {K V : Type} [DecidableEq K]

/-- The slots hold the entries of `m`, each once. -/
structure Represents (slots : List (Option (K × V))) (m : K → Option V) : Prop where
  sound : ∀ (i : Nat) k v, slots[i]? = some (some (k, v)) → m k = some v
  complete : ∀ k v, m k = some v → ∃ i : Nat, slots[i]? = some (some (k, v))
  distinct : ∀ (i j : Nat) k v w,
    slots[i]? = some (some (k, v)) → slots[j]? = some (some (k, w)) → i = j

omit [DecidableEq K] in
theorem represents_empty (n : Nat) :
    Represents (replicate n (none : Option (K × V))) fun _ => none := by
  have hnone : ∀ (i : Nat) k v, (replicate n (none : Option (K × V)))[i]? ≠ some (some (k, v)) := by
    intro i k v h
    rw [getElem?_replicate] at h
    split at h <;> cases h
  exact ⟨fun i k v h => absurd h (hnone i k v), nofun, fun i _ k v _ h => absurd h (hnone i k v)⟩

namespace Represents

variable {slots : List (Option (K × V))} {m : K → Option V}

/-- If slot `i` is the only one that may hold `k`, and it holds nothing else, then it can be written
or cleared. -/
theorem put (h : Represents slots m) {i : Nat} (hi : i < slots.length) {k : K}
    (hkey : ∀ k' v, slots[i]? = some (some (k', v)) → k' = k)
    (honly : ∀ (j : Nat) v, slots[j]? = some (some (k, v)) → j = i) (x : Option V) :
    Represents (slots.set i (x.map fun v => (k, v))) (Function.update m k x) := by
  have hself : (slots.set i (x.map fun v => (k, v)))[i]? = some (x.map fun v => (k, v)) :=
    getElem?_set_self hi
  have hother : ∀ {j : Nat}, j ≠ i → (slots.set i (x.map fun v => (k, v)))[j]? = slots[j]? :=
    fun hj => getElem?_set_ne (Ne.symm hj)
  -- the new entry is in slot `i`, and every other slot is as before and has another key
  have hcases : ∀ {j : Nat} {k' v}, (slots.set i (x.map fun v => (k, v)))[j]? =
      some (some (k', v)) → (j = i ∧ k' = k ∧ x = some v) ∨
      (j ≠ i ∧ k' ≠ k ∧ slots[j]? = some (some (k', v))) := by
    intro j k' v hj
    by_cases hji : j = i
    · subst hji
      rw [hself] at hj
      obtain ⟨w, rfl, hw⟩ := Option.map_eq_some_iff.mp (Option.some.inj hj)
      cases hw
      exact .inl ⟨rfl, rfl, rfl⟩
    · rw [hother hji] at hj
      refine .inr ⟨hji, ?_, hj⟩
      rintro rfl
      exact hji (honly j v hj)
  refine ⟨fun j k' v hj => ?_, fun k' v hv => ?_, fun j j' k' v w hj hj' => ?_⟩
  · rcases hcases hj with ⟨-, rfl, rfl⟩ | ⟨-, hne, hj⟩
    · exact Function.update_self _ _ _
    · rw [Function.update_of_ne hne]
      exact h.sound j k' v hj
  · rcases eq_or_ne k' k with rfl | hne
    · rw [Function.update_self] at hv
      exact ⟨i, by rw [hself, hv]; rfl⟩
    · rw [Function.update_of_ne hne] at hv
      obtain ⟨j, hj⟩ := h.complete k' v hv
      have hji : j ≠ i := by
        rintro rfl
        exact hne (hkey k' v hj)
      exact ⟨j, by rw [hother hji, hj]⟩
  · rcases hcases hj with ⟨rfl, rfl, -⟩ | ⟨-, hne, hj⟩ <;>
      rcases hcases hj' with ⟨rfl, hk, -⟩ | ⟨-, hne', hj'⟩
    · rfl
    · exact absurd rfl hne'
    · exact absurd hk hne
    · exact h.distinct j j' k' v w hj hj'

theorem exists_empty (h : Represents slots m) {keys : Finset K} (hcard : keys.card ≤ slots.length)
    (hkeys : ∀ (i : Nat) k v, slots[i]? = some (some (k, v)) → k ∈ keys) {k : K} (hk : k ∈ keys)
    (hnew : ∀ (i : Nat) v, slots[i]? ≠ some (some (k, v))) : ∃ i : Nat, slots[i]? = some none := by
  by_contra hfull
  -- then every slot has a key, all of them different and different from `k`
  have hentry : ∀ i : Nat, i < slots.length → ∃ x : K × V, slots[i]? = some (some x) := by
    intro i hi
    cases hslot : slots[i] with
    | none => exact absurd ⟨i, by rw [getElem?_eq_getElem hi, hslot]⟩ hfull
    | some x => exact ⟨x, by rw [getElem?_eq_getElem hi, hslot]⟩
  choose entry hentry using hentry
  have hcount : (Finset.univ : Finset (Fin slots.length)).card ≤ (keys.erase k).card := by
    refine Finset.card_le_card_of_injOn (fun i => (entry i i.2).1) (fun i _ => ?_)
      fun i _ j _ heq => ?_
    · refine Finset.mem_erase.mpr ⟨?_, hkeys i _ _ (hentry i i.2)⟩
      intro heq
      exact hnew i (entry i i.2).2 (heq ▸ hentry i i.2)
    · have hkey : (entry i i.2).1 = (entry j j.2).1 := heq
      have hj : slots[(j : Nat)]? = some (some ((entry i i.2).1, (entry j j.2).2)) := by
        rw [hentry j j.2, hkey]
      exact Fin.ext (h.distinct i j _ _ _ (hentry i i.2) hj)
  rw [Finset.card_fin, Finset.card_erase_of_mem hk] at hcount
  have hpos := Finset.card_pos.mpr ⟨k, hk⟩
  omega

end Represents

end AmlogicHal.SlotTable
