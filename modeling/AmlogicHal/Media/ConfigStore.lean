import AmlogicHal.Lib.Machine
import AmlogicHal.Lib.SlotTable

/-!
# The configuration store of the media utilities

`amconfigutils.c` keeps text values under text paths in a table of 128 slots. A path is compared on
its own characters only, so a slot whose path merely starts with it matches too, and the first match
is taken. A lookup may then return the value of a longer path, and a set may overwrite or delete it
(`longer_path_matches`).

`store_refines_map`: if no slot with a longer path stands before the path's own, whenever a path is
set or looked up, then the store is a finite map from paths to values.
-/

namespace AmlogicHal.Media

open SlotTable List Option

/-- The characters of a C string, without the terminating zero. -/
abbrev CString := List Char

def maxConfig : Nat := 128

def configPathMax : Nat := 32

def configValueMax : Nat := 92

/-- The path and the value fit into what `malloc_config_item` allocates, each in its part. -/
def Fits (item : CString × CString) : Prop :=
  item.1.length ≤ configPathMax ∧ item.2.length ≤ configValueMax

/-- `amconfigs`: a slot is a null pointer, or a path with its value. -/
structure ConfigStore where
  slots : List (Option (CString × CString))
  length_eq : slots.length = maxConfig
  fits : ∀ item, some item ∈ slots → Fits item

variable (s : ConfigStore)

namespace ConfigStore

/-- The table after `am_config_init`. -/
def initial : ConfigStore where
  slots := List.replicate maxConfig none
  length_eq := List.length_replicate
  fits := fun _ h => nomatch List.eq_of_mem_replicate h

def put (i : Nat) (slot : Option (CString × CString))
    (hfits : ∀ item, slot = some item → Fits item) : ConfigStore where
  slots := s.slots.set i slot
  length_eq := by rw [List.length_set, s.length_eq]
  fits := fun item h => (List.mem_or_eq_of_mem_set h).elim (s.fits item) fun heq =>
    hfits item heq.symm

end ConfigStore

/-! ## Lookup and update -/

/-- `strncmp(path, ppath, strlen(path)) == 0`. -/
def pathMatches (path : CString) (slot : Option (CString × CString)) : Bool :=
  slot.any fun item => path.isPrefixOf item.1

def getMatchedIndex (path : CString) (s : ConfigStore) : Except Int Nat :=
  if path.length ≥ configPathMax then .error (-40)
  else
    match s.slots.findIdx? (pathMatches path) with
    | some i => .ok i
    | none => .error (-10)

def getUnusedIndex : Except Int Nat :=
  match s.slots.findIdx? Option.isNone with
  | some i => .ok i
  | none => .error (-20)

def ConfigStore.valueAt (i : Nat) : CString :=
  match s.slots[i]? with
  | some (some item) => item.2
  | _ => []

/-- The length that is returned, and the text in `val`. `propertyGet path dflt` is what
`property_get` leaves in `val`. -/
def amGetconfig (propertyGet : CString → Option CString → CString) (path : CString)
    (dflt : Option CString) (s : ConfigStore) : Nat × CString :=
  let val :=
    match getMatchedIndex path s with
    | .ok i => s.valueAt i
    | .error _ => propertyGet path dflt
  (val.length, val)

theorem fits_item {path : CString} (hpath : ¬path.length > configPathMax) (val : CString) :
    ∀ item, some (path, val.take configValueMax) = some item → Fits item := by
  rintro _ ⟨⟩
  exact ⟨Nat.le_of_not_lt hpath, length_take_le _ _⟩

/-- `allocated` says whether `malloc` succeeds. A null value is treated as the empty one. -/
def amSetconfig (path : CString) (val : Option CString) (allocated : Bool) (s : ConfigStore) :
    Int × ConfigStore :=
  if hpath : path.length > configPathMax then (-1, s)
  else
    let setval := (val.getD []).take configValueMax
    match getMatchedIndex path s with
    | .ok i =>
      if setval = [] then (1, s.put i none nofun)
      else (0, s.put i (some (path, setval)) (fits_item hpath _))
    | .error _ =>
      match getUnusedIndex s with
      | .error e => (e, s)
      | .ok i =>
        if setval = [] then (1, s)
        else if allocated then (0, s.put i (some (path, setval)) (fits_item hpath _))
        else (-4, s)

inductive Call
  | set (path : CString) (val : Option CString) (allocated : Bool)
  | get (path : CString) (dflt : Option CString)

inductive Reply
  | set (ret : Int)
  | get (len : Nat) (val : CString)
deriving DecidableEq

def configMachine (propertyGet : CString → Option CString → CString) :
    Machine ConfigStore Call Reply where
  step s
    | .set path val allocated =>
      let r := amSetconfig path val allocated s
      (r.2, .set r.1)
    | .get path dflt =>
      let r := amGetconfig propertyGet path dflt s
      (s, .get r.1 r.2)

/-! ## The map that the store is meant to be -/

/-- A set replaces the value of exactly its path; a null or empty value removes it. -/
def Call.apply (m : CString → Option CString) : Call → CString → Option CString
  | .set path val _ => Function.update m path (val.filter (· ≠ []))
  | .get _ _ => m

def configMap (h : List (Call × Reply)) : CString → Option CString :=
  h.foldl (fun m x => x.1.apply m) fun _ => none

theorem configMap_append (h : List (Call × Reply)) (c : Call) (r : Reply) :
    configMap (h ++ [(c, r)]) = c.apply (configMap h) := by
  rw [configMap, foldl_append]
  rfl

/-! ## What a path matches -/

def ConfigStore.pathAt (i : Nat) : Option CString :=
  s.slots[i]?.join.map Prod.fst

/-- No longer path that starts with `path` stands before the slot of `path` itself. -/
def Resolved (path : CString) : Prop :=
  ∀ i < maxConfig, ∀ p ∈ s.pathAt i, path <+: p → p = path ∨ ∃ j < i, s.pathAt j = some path

instance (path : CString) : Decidable (Resolved s path) :=
  inferInstanceAs (Decidable (∀ i < maxConfig, ∀ p ∈ s.pathAt i, path <+: p → _))

section Match

variable {s : ConfigStore} {path : CString} {i : Nat}

theorem pathAt_eq_some_iff : s.pathAt i = some path ↔ ∃ v, s.slots[i]? = some (some (path, v)) := by
  simp [ConfigStore.pathAt, join_eq_some_iff]

theorem pathMatches_self (v : CString) : pathMatches path (some (path, v)) = true :=
  isPrefixOf_iff_prefix.mpr prefix_rfl

theorem getMatchedIndex_ok (hres : Resolved s path) (h : getMatchedIndex path s = .ok i) :
    ∃ v, s.slots[i]? = some (some (path, v)) := by
  unfold getMatchedIndex at h
  split at h
  · cases h
  · split at h
    · rename_i j hfind
      obtain rfl : j = i := Except.ok.inj h
      obtain ⟨hi, hmatch, hfirst⟩ := List.findIdx?_eq_some_iff_getElem.mp hfind
      obtain ⟨item, hslot, hpre⟩ := (any_eq_true _ _).mp hmatch
      have hitem : s.slots[j]? = some (some item) := by
        rw [List.getElem?_eq_getElem hi, hslot]
      rcases hres j (s.length_eq ▸ hi) item.1 (pathAt_eq_some_iff.mpr ⟨item.2, hitem⟩)
        (List.isPrefixOf_iff_prefix.mp hpre) with rfl | ⟨k, hk, hpath⟩
      · exact ⟨item.2, hitem⟩
      · -- the slot of the path itself would have matched first
        obtain ⟨v, hv⟩ := pathAt_eq_some_iff.mp hpath
        obtain ⟨hlt, hget⟩ := List.getElem?_eq_some_iff.mp hv
        exact absurd (hget ▸ pathMatches_self v) (hfirst k hk)
    · cases h

theorem getMatchedIndex_error {e : Int} (hlen : path.length < configPathMax)
    (h : getMatchedIndex path s = .error e) (i : Nat) (v : CString) :
    s.slots[i]? ≠ some (some (path, v)) := by
  unfold getMatchedIndex at h
  rw [if_neg (Nat.not_le.mpr hlen)] at h
  split at h
  · cases h
  · rename_i hfind
    intro hslot
    have hno := List.findIdx?_eq_none_iff.mp hfind _ (mem_of_getElem? hslot)
    rw [pathMatches_self] at hno
    cases hno

theorem getUnusedIndex_ok (h : getUnusedIndex s = .ok i) : s.slots[i]? = some none := by
  unfold getUnusedIndex at h
  split at h
  · rename_i j hfind
    cases h
    obtain ⟨hi, hnone, -⟩ := List.findIdx?_eq_some_iff_getElem.mp hfind
    rw [List.getElem?_eq_getElem hi, isNone_iff_eq_none.mp hnone]
  · cases h

theorem getUnusedIndex_error {e : Int} (h : getUnusedIndex s = .error e) (i : Nat) :
    s.slots[i]? ≠ some none := by
  unfold getUnusedIndex at h
  split at h
  · cases h
  · rename_i hfind
    intro hslot
    cases List.findIdx?_eq_none_iff.mp hfind _ (mem_of_getElem? hslot)

end Match

/-! ## Refinement -/

/-- The store holds the map `m`, under paths from `paths` only. -/
structure Holds (paths : Finset CString) (s : ConfigStore) (m : CString → Option CString) :
    Prop where
  represents : Represents s.slots m
  mem_paths : ∀ (i : Nat) k v, s.slots[i]? = some (some (k, v)) → k ∈ paths

theorem holds_initial (paths : Finset CString) : Holds paths .initial fun _ => none where
  represents := represents_empty maxConfig
  mem_paths := fun i k v h => by
    cases eq_of_mem_replicate (mem_of_getElem? h)

section Refinement

variable {paths : Finset CString} {s : ConfigStore} {m : CString → Option CString} {path : CString}

variable (h : Holds paths s m)
include h

theorem Holds.put (hpath : path ∈ paths) {i : Nat}
    (hslot : (∃ v, s.slots[i]? = some (some (path, v))) ∨
      (s.slots[i]? = some none ∧ ∀ (j : Nat) v, s.slots[j]? ≠ some (some (path, v))))
    (x : Option CString) (hfits : ∀ item, (x.map fun v => (path, v)) = some item → Fits item) :
    Holds paths (s.put i (x.map fun v => (path, v)) hfits) (Function.update m path x) := by
  have hi : i < s.slots.length := by
    rcases hslot with ⟨v, hv⟩ | ⟨hnone, -⟩
    · exact (List.getElem?_eq_some_iff.mp hv).1
    · exact (List.getElem?_eq_some_iff.mp hnone).1
  have hkey : ∀ k' v, s.slots[i]? = some (some (k', v)) → k' = path := by
    intro k' v hk'
    rcases hslot with ⟨w, hw⟩ | ⟨hnone, -⟩
    · rw [hw] at hk'
      cases hk'
      rfl
    · rw [hnone] at hk'
      cases hk'
  have honly : ∀ (j : Nat) v, s.slots[j]? = some (some (path, v)) → j = i := by
    intro j v hj
    rcases hslot with ⟨w, hw⟩ | ⟨-, hnew⟩
    · exact h.represents.distinct j i path v w hj hw
    · exact absurd hj (hnew j v)
  refine ⟨h.represents.put hi hkey honly x, fun j k v hj => ?_⟩
  -- a slot that was not written is as before, and the one that was has the path itself
  rcases eq_or_ne i j with rfl | hne
  · rw [show (s.put i (x.map fun v => (path, v)) hfits).slots[i]? = some (x.map fun v => (path, v))
      from List.getElem?_set_self hi] at hj
    obtain ⟨w, -, hw⟩ := map_eq_some_iff.mp (Option.some.inj hj)
    cases hw
    exact hpath
  · rw [show (s.put i (x.map fun v => (path, v)) hfits).slots[j]? =
      s.slots[j]? from List.getElem?_set_ne hne] at hj
    exact h.mem_paths j k v hj

theorem Holds.eq_none (hnew : ∀ (i : Nat) v, s.slots[i]? ≠ some (some (path, v))) :
    m path = none := by
  refine eq_none_iff_forall_ne_some.mpr fun v hv => ?_
  obtain ⟨i, hi⟩ := h.represents.complete path v hv
  exact hnew i v hi

omit h in
theorem filter_eq_of_short {val : Option CString} (hval : ∀ v ∈ val, v.length < configValueMax) :
    val.filter (· ≠ []) =
      if (val.getD []).take configValueMax = [] then none
      else some ((val.getD []).take configValueMax) := by
  cases val with
  | none => rfl
  | some v =>
    have htake : v.take configValueMax = v := take_of_length_le (Nat.le_of_lt (hval v rfl))
    rw [getD_some, htake]
    by_cases hv : v = [] <;> simp [hv]

theorem Holds.amSetconfig (hcard : paths.card ≤ maxConfig)
    (hpath : path ∈ paths) (hlen : path.length < configPathMax) (hres : Resolved s path)
    {val : Option CString} (hval : ∀ v ∈ val, v.length < configValueMax) :
    Holds paths (amSetconfig path val true s).2 (Function.update m path (val.filter (· ≠ []))) := by
  have hlong : ¬path.length > configPathMax := Nat.not_lt.mpr (Nat.le_of_lt hlen)
  rw [filter_eq_of_short hval]
  unfold Media.amSetconfig
  rw [dif_neg hlong]
  dsimp only
  split
  · -- the slot of the path itself
    rename_i i hmatch
    have hslot := getMatchedIndex_ok hres hmatch
    split
    · exact h.put hpath (.inl hslot) none nofun
    · exact h.put hpath (.inl hslot) (some _) (fits_item hlong _)
  · rename_i e hmatch
    have hnew := getMatchedIndex_error hlen hmatch
    split
    · -- the table cannot be full of other paths
      rename_i e' hunused
      obtain ⟨i, hi⟩ := h.represents.exists_empty (s.length_eq ▸ hcard) h.mem_paths hpath hnew
      exact absurd hi (getUnusedIndex_error hunused i)
    · rename_i i hunused
      split
      · rwa [Function.update_eq_self_iff.mpr (h.eq_none hnew).symm]
      · exact h.put hpath (.inr ⟨getUnusedIndex_ok hunused, hnew⟩) (some _) (fits_item hlong _)

theorem Holds.amGetconfig (hlen : path.length < configPathMax)
    (hres : Resolved s path) (propertyGet : CString → Option CString → CString)
    (dflt : Option CString) :
    (amGetconfig propertyGet path dflt s).2 = (m path).getD (propertyGet path dflt) := by
  unfold Media.amGetconfig
  split
  · rename_i i hmatch
    obtain ⟨v, hv⟩ := getMatchedIndex_ok hres hmatch
    rw [h.represents.sound i path v hv, ConfigStore.valueAt, hv]
    rfl
  · rename_i e hmatch
    rw [h.eq_none (getMatchedIndex_error hlen hmatch)]
    rfl

end Refinement

/-- The calls the store is made for: paths from `paths`, short enough, with short values, with
memory for a new item, and a set only in a table where its path is resolved. -/
def Regular (paths : Finset CString) (s : ConfigStore) : Call → Prop
  | .set path val allocated =>
    path ∈ paths ∧ path.length < configPathMax ∧ (∀ v ∈ val, v.length < configValueMax) ∧
      allocated = true ∧ Resolved s path
  | .get path _ => path ∈ paths ∧ path.length < configPathMax

instance (paths : Finset CString) (s : ConfigStore) (c : Call) : Decidable (Regular paths s c) := by
  cases c <;> unfold Regular <;> infer_instance

section Runs

variable {propertyGet : CString → Option CString → CString} {paths : Finset CString}

theorem run_holds (hcard : paths.card ≤ maxConfig) {h : List (Call × Reply)} {s : ConfigStore}
    (hr : (configMachine propertyGet).Run (Regular paths) .initial h s) :
    Holds paths s (configMap h) := by
  refine hr.invariant (fun h s => Holds paths s (configMap h)) (holds_initial paths) ?_
  intro h s c hholds hc
  rw [configMap_append]
  cases c with
  | set path val allocated =>
    obtain ⟨hpath, hlen, hval, rfl, hres⟩ := hc
    exact hholds.amSetconfig hcard hpath hlen hres hval
  | get path dflt => exact hholds

/-- For regular calls under at most 128 paths, and lookups of a resolved path that is no Android
property. -/
theorem store_refines_map (hcard : paths.card ≤ maxConfig) {h : List (Call × Reply)}
    {s : ConfigStore} (hr : (configMachine propertyGet).Run (Regular paths) .initial h s)
    {path : CString} (hlen : path.length < configPathMax) (hres : Resolved s path)
    (dflt : Option CString) (hprop : propertyGet path dflt = dflt.getD []) :
    (amGetconfig propertyGet path dflt s).2 = (configMap h path).getD (dflt.getD []) := by
  rw [(run_holds hcard hr).amGetconfig hlen hres, hprop]

def noProperty : CString → Option CString → CString := fun _ dflt => dflt.getD []

/-- The shorter path is set first, so both paths are resolved. -/
def nestedCalls : List Call :=
  [.set "media.a".toList (some "1".toList) true, .set "media.a.b".toList (some "2".toList) true]

theorem store_refines_map_nested :
    let r := (configMachine noProperty).exec .initial nestedCalls
    (configMachine noProperty).Run (Regular {"media.a".toList, "media.a.b".toList}) .initial
        r.1 r.2 ∧
      (amGetconfig noProperty "media.a".toList none r.2).2 = "1".toList := by
  have hrun : (configMachine noProperty).Run (Regular {"media.a".toList, "media.a.b".toList})
      .initial ((configMachine noProperty).exec .initial nestedCalls).1
      ((configMachine noProperty).exec .initial nestedCalls).2 :=
    Machine.run_exec nestedCalls ⟨by decide +kernel, by decide +kernel, trivial⟩
  refine ⟨hrun, (store_refines_map (by decide +kernel) hrun (by decide +kernel)
    (by decide +kernel) none rfl).trans ?_⟩
  decide +kernel

/-- `media.a.b` is set alone: a lookup of `media.a` returns its value, and a set of `media.a` takes
its slot.
-/
theorem longer_path_matches :
    let r := (configMachine noProperty).exec .initial
      [.set "media.a.b".toList (some "2".toList) true]
    let r' := (configMachine noProperty).exec .initial
      [.set "media.a.b".toList (some "2".toList) true, .set "media.a".toList (some "1".toList) true]
    configMap r.1 "media.a".toList = none ∧
      (amGetconfig noProperty "media.a".toList none r.2).2 = "2".toList ∧
      configMap r'.1 "media.a.b".toList = some "2".toList ∧
      (amGetconfig noProperty "media.a.b".toList none r'.2).2 = [] := by
  decide +kernel

end Runs

end AmlogicHal.Media
