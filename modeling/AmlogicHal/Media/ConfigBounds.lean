import AmlogicHal.Lib.CStrings
import AmlogicHal.Lib.Traced
import AmlogicHal.Media.ConfigStore
import Mathlib.Algebra.Order.Ring.Rat

/-!
# Where the configuration store writes

A configuration item is one allocation of 132 bytes, with its path at offset 0 and its value at
offset 36. Both are written with `strcpy`, and a lookup copies the value to a buffer of the caller
with `strcpy`. This is the store with the bytes of its items, and with a record of every write.

1. The writes to an item stay inside it, and its path and value end inside their fields (`ItemOk`,
   `writes_inBounds_iff`).
2. A value may have 92 characters, and then a lookup writes 93 bytes into the buffer of 92. So the
   writes to the caller stay inside exactly if no lookup finds such a value, or takes such a
   default. The values are those that were set, cut to 92 characters (`SetBy`).
3. Read back from the bytes, the items are those of `ConfigStore`, whose calls return the same
   (`exec_reads`, `amGetconfig_eq`).
-/

namespace AmlogicHal.Media.Raw

open Traced Memory List

/-- A string that a caller passes: its characters, without a zero. -/
abbrev CText := { text : CString // nul ∉ text }

abbrev Item := Memory Char

def itemSize : Nat := configPathMax + configValueMax + 8

def configValueOff : Nat := configPathMax + 4

/-- `amconfigs`. -/
abbrev Slots := List (Option Item)

inductive ConfigWrite where
  | item (start len : Nat)
  /-- The first bytes of a buffer of `CONFIG_VALUE_MAX` bytes. -/
  | buffer (len : Nat)
  /-- One byte in a copy that `strdup` made. -/
  | copy (index size : Nat)
deriving DecidableEq, Repr

/-- The bytes are inside what they belong to. -/
def ConfigWrite.InBounds : ConfigWrite → Prop
  | .item start len => start + len ≤ itemSize
  | .buffer len => len ≤ configValueMax
  | .copy index size => index < size

instance : ∀ w : ConfigWrite, Decidable w.InBounds
  | .item start len => inferInstanceAs (Decidable (start + len ≤ itemSize))
  | .buffer len => inferInstanceAs (Decidable (len ≤ configValueMax))
  | .copy index size => inferInstanceAs (Decidable (index < size))

/-- `property_get`, which leaves less than `PROPERTY_VALUE_MAX` characters, and that is 92. -/
structure Properties where
  get : CString → Option CString → CString
  get_lt : ∀ path dflt, (get path dflt).length < configValueMax

/-! ## Lookup -/

def Item.path (item : Item) : CString := item.cstring 0 itemSize

def Item.value (item : Item) : CString := item.cstring configValueOff (itemSize - configValueOff)

def Item.contents (item : Item) : CString × CString := (item.path, item.value)

/-- `strncmp(a, b, n) == 0`. -/
def strncmpEq (a b : CString) (n : Nat) : Bool := (a ++ [nul]).take n = (b ++ [nul]).take n

/-- The length of the path goes through an `int`, and as a `size_t` to `strncmp`. -/
def getMatchedIndex (path : CString) (slots : Slots) : Except Int Nat :=
  let len := (BitVec.ofNat 32 path.length).toInt
  if len ≥ configPathMax then .error (-40)
  else
    let n := (len % 2 ^ 64).toNat
    match slots.findIdx? (·.any fun item => strncmpEq path item.path n) with
    | some i => .ok i
    | none => .error (-10)

def getUnusedIndex (slots : Slots) : Except Int Nat :=
  match slots.findIdx? Option.isNone with
  | some i => .ok i
  | none => .error (-20)

def valueAt (slots : Slots) (i : Nat) : CString :=
  match slots[i]? with
  | some (some item) => item.value
  | _ => []

/-! ## Calls -/

abbrev ConfigM := Traced ConfigWrite Slots

section Model

variable (properties : Properties)

/-- The end of `am_setconfig` for an item. -/
def writeItem (i : Nat) (item : Item) (path setval : CString) : ConfigM Int := do
  emit (.item 0 (path.length + 1))
  emit (.item configValueOff (setval.length + 1))
  modify fun slots => slots.set i (some ((item.strcpy 0 path).strcpy configValueOff setval))
  pure 0

/-- The part of `am_setconfig` under the lock. `allocated` is what `malloc` returns, with what was
in that memory. -/
def storeText (path setval : CString) (allocated : Option Item) : ConfigM Int :=
  Traced.read fun slots =>
    match getMatchedIndex path slots with
    | .ok i =>
      if setval = [] then do
        modify fun slots => slots.set i none
        pure 1
      else
        match slots[i]? with
        | some (some item) => writeItem i item path setval
        -- a slot that matches is no null pointer
        | _ => pure 0
    | .error _ =>
      match getUnusedIndex slots with
      | .error e => pure e
      | .ok i =>
        if setval = [] then pure 1
        else
          match allocated with
          | none => pure (-4)
          | some item => writeItem i item path setval

/-- The characters of the value. A null pointer is treated as the empty text. -/
def valueText (val : Option CText) : CString := (val.map Subtype.val).getD []

def setval (val : Option CText) : CString := (valueText val).take configValueMax

def amSetconfig (path : CText) (val : Option CText) (allocated : Option Item) : ConfigM Int :=
  if path.val.length > configPathMax then pure (-1)
  else do
    if (valueText val).length ≥ configValueMax then
      emit (.copy configValueMax ((valueText val).length + 1))
    storeText path.val (setval val) allocated

/-- The length that is returned, and the text in the buffer of the caller. -/
def amGetconfig (path : CText) (dflt : Option CText) : ConfigM (Nat × CString) := do
  emit (.buffer 1)
  Traced.read fun slots =>
    match getMatchedIndex path.val slots with
    | .ok i => do
      let text := valueAt slots i
      emit (.buffer (text.length + 1))
      pure (text.length, text)
    | .error _ => do
      emitAll (dflt.toList.map fun d => .buffer (d.val.length + 1))
      let text := properties.get path.val (dflt.map Subtype.val)
      emit (.buffer (text.length + 1))
      pure (text.length, text)

/-! ## Typed getters -/

/-- `sscanf` with one conversion. -/
structure Scanf where
  int : CString → Option Int
  float : CString → Option Rat

variable (scanf : Scanf)

/-- What the typed getters share: a buffer of their own, and no default. -/
def typedGetter {β : Type} (path : CText) (f : Nat → CString → β) : ConfigM β := do
  let r ← amGetconfig properties path none
  pure (f r.1 r.2)

/-- What is scanned, if a text was found. -/
def scanned {β : Type} (scan : CString → Option β) (len : Nat) (buf : CString) : Option β :=
  if len > 0 then scan buf else none

/-- The value that is returned, and `*value`. -/
def amGetconfigFloat (path : CText) : ConfigM (Int × Rat) :=
  typedGetter properties path fun len buf =>
    match scanned scanf.float len buf with
    | some value => (0, value)
    | none => (-2, -1)

def amGetconfigIntDef (path : CText) (dflt : Int) : ConfigM Int :=
  typedGetter properties path fun len buf => (scanned scanf.int len buf).getD dflt

def amGetconfigFloatDef (path : CText) (dflt : Rat) : ConfigM Rat :=
  typedGetter properties path fun len buf => (scanned scanf.float len buf).getD dflt

/-- `strcasecmp(buf, "true") == 0 || strcmp(buf, "1") == 0`. -/
def isTrue (buf : CString) : Bool :=
  buf.map Char.toLower = "true".toList ∨ buf = "1".toList

def amGetconfigBool (path : CText) : ConfigM Int :=
  typedGetter properties path fun len buf => if len > 0 ∧ isTrue buf then 1 else 0

def amGetconfigBoolDef (path : CText) (dflt : Int) : ConfigM Int :=
  typedGetter properties path fun len buf =>
    if len > 0 then (if isTrue buf then 1 else 0) else dflt

/-! ## Runs -/

inductive RawCall where
  | set (path : CText) (val : Option CText) (allocated : Option Item)
  | get (path : CText) (dflt : Option CText)
  | getFloat (path : CText)
  | getIntDef (path : CText) (dflt : Int)
  | getFloatDef (path : CText) (dflt : Rat)
  | getBool (path : CText)
  | getBoolDef (path : CText) (dflt : Int)

open RawCall

inductive RawReply where
  | text (len : Nat) (val : CString)
  | int (value : Int)
  | float (value : Rat)
  | floatAt (ret : Int) (value : Rat)
deriving DecidableEq, Repr

def RawCall.run : RawCall → ConfigM RawReply
  | .set path val allocated => do
    let ret ← amSetconfig path val allocated
    pure (.int ret)
  | .get path dflt => do
    let r ← amGetconfig properties path dflt
    pure (.text r.1 r.2)
  | .getFloat path => do
    let r ← amGetconfigFloat properties scanf path
    pure (.floatAt r.1 r.2)
  | .getIntDef path dflt => do
    let value ← amGetconfigIntDef properties scanf path dflt
    pure (.int value)
  | .getFloatDef path dflt => do
    let value ← amGetconfigFloatDef properties scanf path dflt
    pure (.float value)
  | .getBool path => do
    let value ← amGetconfigBool properties path
    pure (.int value)
  | .getBoolDef path dflt => do
    let value ← amGetconfigBoolDef properties path dflt
    pure (.int value)

def rawMachine : Machine Slots RawCall RawReply where
  step slots c :=
    let o := (c.run properties scanf).run slots
    (o.st, o.val)

/-- The table after `am_config_init`. -/
def initial : Slots := List.replicate maxConfig none

end Model

/-- What a call looks up, with the default. -/
def RawCall.lookup : RawCall → Option (CText × Option CText)
  | .set _ _ _ => none
  | .get path dflt => some (path, dflt)
  | .getFloat path => some (path, none)
  | .getIntDef path _ => some (path, none)
  | .getFloatDef path _ => some (path, none)
  | .getBool path => some (path, none)
  | .getBoolDef path _ => some (path, none)

/-! ## Single calls -/

structure ItemOk (item : Item) : Prop where
  path : item.Terminated 0 configValueOff
  value : item.Terminated configValueOff (itemSize - configValueOff)

def ItemsOk (slots : Slots) : Prop := ∀ item, some item ∈ slots → ItemOk item

/-- One of the calls has set the path and, cut to 92 characters, the value of the item. -/
def SetBy (calls : List RawCall) (item : Item) : Prop :=
  ∃ path val allocated, RawCall.set path val allocated ∈ calls ∧
    item.contents = (path.val, setval val)

section Calls

variable {properties : Properties} {scanf : Scanf} {slots : Slots} {P : ConfigWrite → Prop}

/-- All calls but `am_setconfig` write what `am_getconfig` writes, and leave the store alone. -/
theorem RawCall.all_run_of_lookup {c : RawCall} {path : CText} {dflt : Option CText}
    (hlookup : c.lookup = some (path, dflt)) :
    (c.run properties scanf).All P slots ↔ (amGetconfig properties path dflt).All P slots := by
  cases c <;> cases hlookup <;>
    simp [run, amGetconfigFloat, amGetconfigIntDef, amGetconfigFloatDef, amGetconfigBool,
      amGetconfigBoolDef, typedGetter]

variable (path : CText)

theorem amGetconfig_st (dflt : Option CText) :
    ((amGetconfig properties path dflt).run slots).st = slots := by
  simp only [amGetconfig, run_bind, run_read, run_emit]
  split <;> rfl

theorem RawCall.run_st_of_lookup {c : RawCall} {path : CText} {dflt : Option CText}
    (hlookup : c.lookup = some (path, dflt)) :
    ((c.run properties scanf).run slots).st = slots := by
  cases c <;> cases hlookup <;>
    simp [run, amGetconfigFloat, amGetconfigIntDef, amGetconfigFloatDef, amGetconfigBool,
      amGetconfigBoolDef, typedGetter, amGetconfig_st]

/-- A lookup finds a text that fits into the buffer of the caller with its zero. -/
def FitsBuffer (path : CText) (dflt : Option CText) (slots : Slots) : Prop :=
  match getMatchedIndex path.val slots with
  | .ok i => (valueAt slots i).length < configValueMax
  | .error _ => ∀ d ∈ dflt, d.val.length < configValueMax

theorem amGetconfig_inBounds_iff (dflt : Option CText) :
    (amGetconfig properties path dflt).All ConfigWrite.InBounds slots ↔
    FitsBuffer path dflt slots := by
  have hfirst : ConfigWrite.InBounds (.buffer 1) := by decide
  have hproperty := properties.get_lt path.val (dflt.map Subtype.val)
  simp only [amGetconfig, FitsBuffer, all_bind, all_emit, hfirst, true_and, run_emit, all_read]
  split
  · simp only [all_bind, all_emit, all_pure, and_true]
    exact Nat.succ_le_iff
  · simp only [all_bind, all_emit, all_emitAll, all_pure, and_true, mem_map, Option.mem_toList,
      forall_exists_index, and_imp, forall_apply_eq_imp_iff₂]
    constructor
    · intro h d hd
      exact h.1 d hd
    · intro h
      exact ⟨fun d hd => h d hd, hproperty⟩

theorem writeItem_inBounds {i : Nat} {item : Item} {path setval : CString}
    (hpath : path.length ≤ configPathMax) (hval : setval.length ≤ configValueMax) :
    (writeItem i item path setval).All ConfigWrite.InBounds slots := by
  simp only [writeItem, all_bind, all_emit, all_modify, all_pure, and_true]
  unfold ConfigWrite.InBounds itemSize configValueOff
  omega

/-- What the part under the lock does: nothing, or it clears a slot, or it writes an item. -/
theorem storeText_cases (path setval : CString) (allocated : Option Item) (slots : Slots) :
    (∃ ret, (storeText path setval allocated).run slots = ⟨ret, slots, []⟩) ∨
      (∃ i, (storeText path setval allocated).run slots = ⟨1, slots.set i none, []⟩) ∨
      ∃ i item, (storeText path setval allocated).run slots =
        (writeItem i item path setval).run slots := by
  simp only [storeText, run_read]
  split
  · split
    · exact .inr (.inl ⟨_, rfl⟩)
    · split
      · exact .inr (.inr ⟨_, _, rfl⟩)
      · exact .inl ⟨0, rfl⟩
  · split
    · exact .inl ⟨_, rfl⟩
    · split
      · exact .inl ⟨1, rfl⟩
      · split
        · exact .inl ⟨-4, rfl⟩
        · exact .inr (.inr ⟨_, _, rfl⟩)

theorem storeText_inBounds {path setval : CString} (allocated : Option Item)
    (hpath : path.length ≤ configPathMax) (hval : setval.length ≤ configValueMax) :
    (storeText path setval allocated).All ConfigWrite.InBounds slots := by
  rcases storeText_cases path setval allocated slots with ⟨_, hrun⟩ | ⟨_, hrun⟩ | ⟨i, item, hrun⟩
  · simp [All, hrun]
  · simp [All, hrun]
  · rw [All, hrun]
    exact writeItem_inBounds hpath hval

theorem amSetconfig_inBounds (val : Option CText) (allocated : Option Item) :
    (amSetconfig path val allocated).All ConfigWrite.InBounds slots := by
  unfold amSetconfig
  split
  · exact (all_pure _ _).mpr trivial
  · next hpath =>
    have hstore : (storeText path.val (setval val) allocated).All ConfigWrite.InBounds slots :=
      storeText_inBounds allocated (Nat.not_lt.mp hpath) (length_take_le _ _)
    split
    · next hcut =>
      simp only [all_bind, all_emit, run_emit]
      exact ⟨Nat.lt_succ_of_le hcut, hstore⟩
    · exact hstore

/-! ## Items end in their fields -/

theorem writeItem_itemOk {item : Item} {path setval : CString}
    (hpath : path.length ≤ configPathMax) (hval : setval.length ≤ configValueMax) :
    ItemOk ((item.strcpy 0 path).strcpy configValueOff setval) where
  path := by
    have hfield : path.length < configValueOff := by
      unfold configValueOff
      omega
    rw [Terminated, slice_strcpy_before _ _ (Nat.le_of_eq (Nat.zero_add _))]
    exact terminated_strcpy item hfield
  value := by
    apply terminated_strcpy
    unfold itemSize configValueOff
    omega

theorem contents_writeItem {item : Item} {path setval : CString} (hpath : nul ∉ path)
    (hval : nul ∉ setval) (hpathlen : path.length ≤ configPathMax)
    (hvallen : setval.length ≤ configValueMax) :
    Item.contents ((item.strcpy 0 path).strcpy configValueOff setval) = (path, setval) := by
  have hok : ItemOk ((item.strcpy 0 path).strcpy configValueOff setval) :=
    writeItem_itemOk hpathlen hvallen
  refine Prod.ext ?_ ?_
  · change cstring _ 0 itemSize = path
    rw [hok.path.cstring_eq (by decide), cstring,
      slice_strcpy_before _ _ (Nat.le_of_eq (Nat.zero_add _))]
    apply cstring_strcpy item hpath
    unfold configValueOff
    omega
  · change cstring _ configValueOff _ = setval
    apply cstring_strcpy _ hval
    unfold itemSize configValueOff
    omega

theorem nul_notMem_setval (val : Option CText) : nul ∉ setval val := by
  intro hmem
  have htext : nul ∈ valueText val := mem_of_mem_take hmem
  cases val with
  | none => cases htext
  | some v => exact v.property htext

theorem items_set {Q : Item → Prop} {i : Nat} {slot : Option Item}
    (h : ∀ item, some item ∈ slots → Q item)
    (hslot : ∀ item, slot = some item → Q item) :
    ∀ item, some item ∈ slots.set i slot → Q item := by
  intro item hmem
  rcases mem_or_eq_of_mem_set hmem with hbefore | heq
  · exact h item hbefore
  · exact hslot item heq.symm

theorem items_storeText {Q : Item → Prop} {path setval : CString}
    (h : ∀ item, some item ∈ slots → Q item) (allocated : Option Item)
    (hnew : ∀ item : Item, Q ((item.strcpy 0 path).strcpy configValueOff setval)) :
    ∀ item, some item ∈ ((storeText path setval allocated).run slots).st → Q item := by
  rcases storeText_cases path setval allocated slots with ⟨_, hrun⟩ | ⟨_, hrun⟩ | ⟨i, item, hrun⟩
  · rwa [hrun]
  · rw [hrun]
    exact items_set h fun item heq => by cases heq
  · rw [hrun]
    refine items_set h fun item heq => ?_
    cases heq
    exact hnew _

theorem amSetconfig_of_long {path : CText} (hpath : path.val.length > configPathMax)
    (val : Option CText) (allocated : Option Item) :
    (amSetconfig path val allocated).run slots = ⟨-1, slots, []⟩ := by
  rw [amSetconfig, if_pos hpath, run_pure]

theorem amSetconfig_of_short (slots : Slots) {path : CText}
    (hpath : ¬ path.val.length > configPathMax) (val : Option CText) (allocated : Option Item) :
    let store := storeText path.val (setval val) allocated
    ((amSetconfig path val allocated).run slots).val = (store.run slots).val ∧
      ((amSetconfig path val allocated).run slots).st = (store.run slots).st := by
  rw [amSetconfig, if_neg hpath]
  split <;> exact ⟨rfl, rfl⟩

/-- What holds for the items that a call writes holds for all items. -/
theorem items_step {Q : Item → Prop} (h : ∀ item, some item ∈ slots → Q item) (c : RawCall)
    (hnew : ∀ path val allocated, c = .set path val allocated → path.val.length ≤ configPathMax →
      ∀ item : Item, Q ((item.strcpy 0 path.val).strcpy configValueOff (setval val))) :
    ∀ item, some item ∈ ((rawMachine properties scanf).step slots c).1 → Q item := by
  change ∀ item, some item ∈ ((c.run properties scanf).run slots).st → Q item
  cases hlookup : c.lookup with
  | some r => rwa [RawCall.run_st_of_lookup hlookup]
  | none =>
    cases c <;> cases hlookup
    next path val allocated =>
    change ∀ item, some item ∈ ((amSetconfig path val allocated).run slots).st → Q item
    by_cases hpath : path.val.length > configPathMax
    · rwa [amSetconfig_of_long hpath]
    · rw [(amSetconfig_of_short slots hpath val allocated).2]
      exact items_storeText h allocated (hnew path val allocated rfl (Nat.not_lt.mp hpath))

end Calls

/-! ## Whole runs -/

/-- The writes to items and to copies are in bounds. -/
def ConfigWrite.OwnInBounds : ConfigWrite → Prop
  | .buffer _ => True
  | .item start len => start + len ≤ itemSize
  | .copy index size => index < size

section Runs

variable {properties : Properties} {scanf : Scanf} {slots : Slots}

theorem items_initial {Q : Item → Prop} : ∀ item, some item ∈ initial → Q item := by
  intro item hmem
  cases eq_of_mem_replicate hmem

theorem RawCall.inBounds_iff (c : RawCall) :
    (c.run properties scanf).All ConfigWrite.InBounds slots ↔
      ∀ path dflt, c.lookup = some (path, dflt) → FitsBuffer path dflt slots := by
  cases hlookup : c.lookup with
  | some r =>
    rw [all_run_of_lookup hlookup, amGetconfig_inBounds_iff]
    constructor
    · rintro h path dflt ⟨⟩
      exact h
    · exact fun h => h _ _ rfl
  | none =>
    cases c <;> cases hlookup
    next path val allocated =>
    refine iff_of_true ?_ fun path dflt hsome => by cases hsome
    simp only [run, all_bind, all_pure, and_true]
    exact amSetconfig_inBounds path val allocated

theorem amGetconfig_ownInBounds (path : CText) (dflt : Option CText) :
    (amGetconfig properties path dflt).All ConfigWrite.OwnInBounds slots := by
  simp only [amGetconfig, all_bind, all_emit, all_read, run_emit]
  refine ⟨trivial, ?_⟩
  split
  · simp only [all_bind, all_emit, all_pure, and_true]
    trivial
  · simp only [all_bind, all_emit, all_emitAll, all_pure, and_true, mem_map]
    refine ⟨?_, trivial⟩
    rintro w ⟨d, -, rfl⟩
    trivial

theorem RawCall.ownInBounds (c : RawCall) :
    (c.run properties scanf).All ConfigWrite.OwnInBounds slots := by
  cases hlookup : c.lookup with
  | some r =>
    rw [all_run_of_lookup hlookup]
    exact amGetconfig_ownInBounds _ _
  | none =>
    have hall : (c.run properties scanf).All ConfigWrite.InBounds slots :=
      c.inBounds_iff.mpr fun path dflt hsome => by rw [hlookup] at hsome; cases hsome
    refine hall.mono fun w hw => ?_
    cases w with
    | buffer len => trivial
    | item start len => exact hw
    | copy index size => exact hw

end Runs

theorem writes_inBounds_iff (properties : Properties) (scanf : Scanf) (calls : List RawCall) :
    ((rawMachine properties scanf).Always
        (fun slots c => (c.run properties scanf).All ConfigWrite.InBounds slots) initial calls ↔
      (rawMachine properties scanf).Always
        (fun slots c => ∀ path dflt, c.lookup = some (path, dflt) → FitsBuffer path dflt slots)
        initial calls) ∧
    (rawMachine properties scanf).Always
      (fun slots c => (c.run properties scanf).All ConfigWrite.OwnInBounds slots) initial calls ∧
    ItemsOk ((rawMachine properties scanf).exec initial calls).2 ∧
    ∀ item, some item ∈ ((rawMachine properties scanf).exec initial calls).2 →
      SetBy calls item := by
  refine ⟨?_, ?_, ?_, ?_⟩
  · exact Machine.always_congr (I := fun _ => True) (fun _ c _ => c.inBounds_iff)
      (fun _ _ _ _ => trivial) calls initial trivial
  · exact Machine.always_of_invariant (I := fun _ => True) (fun _ c _ => c.ownInBounds)
      (fun _ _ _ => trivial) calls initial trivial
  · refine Machine.exec_invariant calls (I := ItemsOk)
      (fun c _ _ hok => items_step hok c ?_) items_initial
    exact fun path val _ _ hpath _ => writeItem_itemOk hpath (length_take_le _ _)
  · refine Machine.exec_invariant calls (I := fun slots => ∀ item, some item ∈ slots →
      SetBy calls item)
      (fun c hc _ hset => items_step hset c ?_) items_initial
    rintro path val allocated rfl hpath item
    exact ⟨path, val, allocated, hc,
      contents_writeItem path.property (nul_notMem_setval val) hpath (length_take_le _ _)⟩

def noProperties : Properties where
  get _ _ := []
  get_lt _ _ := by decide

def examplePath : CText := ⟨['p'], by decide⟩

def longValue : CText := ⟨List.replicate 92 'x', by decide⟩

/-- A value of 92 characters is set and looked up: 93 bytes go into the buffer of 92. -/
theorem lookup_pastBuffer :
    let slots := ((amSetconfig examplePath (some longValue) (some fun _ => 'x')).run initial).st
    ((amGetconfig noProperties examplePath none).run slots).log = [.buffer 1, .buffer 93] ∧
      ¬ ConfigWrite.InBounds (.buffer 93) := by
  decide +kernel

/-! ## The store without the bytes -/

/-- The bytes of the items are those of a store. -/
def Reads (slots : Slots) (s : ConfigStore) : Prop :=
  s.slots = slots.map (Option.map Item.contents)

section Refinement

variable {properties : Properties} {scanf : Scanf} {slots : Slots} {s : ConfigStore}

/-- Comparing as many characters as the first string has finds out if it starts the second. -/
theorem strncmpEq_length {path : CString} (hfree : nul ∉ path) (p : CString) :
    strncmpEq path p path.length = path.isPrefixOf p := by
  rw [Bool.eq_iff_iff, strncmpEq, decide_eq_true_eq, isPrefixOf_iff_prefix, take_left]
  rw [← prefix_iff_eq_take]
  constructor
  · intro h
    rcases prefix_concat_iff.mp h with rfl | hprefix
    · exact absurd (mem_append_right _ (mem_singleton_self _)) hfree
    · exact hprefix
  · exact fun h => h.trans (prefix_append _ _)

section

variable (hreads : Reads slots s)
include hreads

theorem getMatchedIndex_eq {path : CString} (hfree : nul ∉ path) (hlen : path.length < 2 ^ 31) :
    getMatchedIndex path slots = Media.getMatchedIndex path s := by
  have hint : (BitVec.ofNat 32 path.length).toInt = path.length := by
    have hnat : (BitVec.ofNat 32 path.length).toNat = path.length := by
      exact Nat.mod_eq_of_lt (by omega)
    rw [BitVec.toInt_eq_toNat_of_lt (by omega), hnat]
  have hsize : ((path.length : Int) % 2 ^ 64).toNat = path.length := by omega
  have hfind : slots.findIdx? (·.any fun item => strncmpEq path item.path path.length) =
      s.slots.findIdx? (pathMatches path) := by
    rw [hreads, List.findIdx?_map]
    congr 1
    funext slot
    cases slot with
    | none => rfl
    | some item => exact strncmpEq_length hfree item.path
  simp only [getMatchedIndex, Media.getMatchedIndex, hint, hsize, hfind]
  by_cases hlong : path.length ≥ configPathMax
  · rw [if_pos hlong, if_pos (Int.ofNat_le.mpr hlong)]
  · refine (if_neg fun h => hlong (Int.ofNat_le.mp h)).trans (Eq.trans ?_ (if_neg hlong).symm)
    cases s.slots.findIdx? _ <;> rfl

theorem getUnusedIndex_eq : getUnusedIndex slots = Media.getUnusedIndex s := by
  have hfind : s.slots.findIdx? Option.isNone = slots.findIdx? Option.isNone := by
    rw [hreads, List.findIdx?_map]
    congr 1
    funext slot
    cases slot <;> rfl
  unfold getUnusedIndex Media.getUnusedIndex
  generalize s.slots.findIdx? Option.isNone = free at hfind ⊢
  subst hfind
  cases slots.findIdx? Option.isNone <;> rfl

theorem valueAt_eq (i : Nat) : valueAt slots i = s.valueAt i := by
  rw [valueAt, ConfigStore.valueAt, hreads, List.getElem?_map]
  cases slots[i]? with
  | none => rfl
  | some slot => cases slot <;> rfl

theorem amGetconfig_eq (path : CText) (dflt : Option CText) (hlen : path.val.length < 2 ^ 31) :
    ((amGetconfig properties path dflt).run slots).val =
      Media.amGetconfig properties.get path.val (dflt.map Subtype.val) s := by
  have hindex := getMatchedIndex_eq hreads path.property hlen
  simp only [amGetconfig, Media.amGetconfig, run_bind, run_read, run_emit, hindex]
  cases Media.getMatchedIndex path.val s with
  | ok i =>
    simp [valueAt_eq hreads]
  | error e => rfl

theorem Reads.set (i : Nat) {slot : Option Item} {new : Option (CString × CString)}
    (hslot : slot.map Item.contents = new) (hfits : ∀ item, new = some item → Fits item) :
    Reads (slots.set i slot) (s.put i new hfits) := by
  change s.slots.set i new = (slots.set i slot).map (Option.map Item.contents)
  rw [hreads, map_set, hslot]

end

theorem getMatchedIndex_slot {path : CString} {i : Nat} (h : getMatchedIndex path slots = .ok i) :
    ∃ item, slots[i]? = some (some item) := by
  unfold getMatchedIndex at h
  dsimp only at h
  split at h
  · cases h
  · split at h
    · next j hfind =>
      cases h
      obtain ⟨hi, hmatch, -⟩ := List.findIdx?_eq_some_iff_getElem.mp hfind
      obtain ⟨item, hslot, -⟩ := (Option.any_eq_true _ _).mp hmatch
      exact ⟨item, by rw [List.getElem?_eq_getElem hi, hslot]⟩
    · cases h

theorem amSetconfig_eq (hreads : Reads slots s) (path : CText) (val : Option CText)
    (allocated : Option Item) :
    ((amSetconfig path val allocated).run slots).val =
        (Media.amSetconfig path.val (val.map Subtype.val) allocated.isSome s).1 ∧
      Reads ((amSetconfig path val allocated).run slots).st
        (Media.amSetconfig path.val (val.map Subtype.val) allocated.isSome s).2 := by
  by_cases hpath : path.val.length > configPathMax
  · rw [amSetconfig_of_long hpath, Media.amSetconfig, dif_pos hpath]
    exact ⟨rfl, hreads⟩
  · obtain ⟨hval, hst⟩ := amSetconfig_of_short slots hpath val allocated
    rw [hval, hst, Media.amSetconfig, dif_neg hpath]
    have hshort : path.val.length < 2 ^ 31 := by
      unfold configPathMax at hpath
      omega
    have hindex := getMatchedIndex_eq hreads path.property hshort
    have hwritten : ∀ item : Item, (some ((item.strcpy 0 path.val).strcpy configValueOff
        (setval val))).map Item.contents = some (path.val, setval val) := by
      intro item
      rw [Option.map_some, contents_writeItem path.property (nul_notMem_setval val)
        (Nat.not_lt.mp hpath) (length_take_le _ _)]
    have hsetval : ((val.map Subtype.val).getD []).take configValueMax = setval val := rfl
    simp only [hsetval, storeText, run_read, hindex, getUnusedIndex_eq hreads]
    cases hmatch : Media.getMatchedIndex path.val s with
    | ok i =>
      obtain ⟨item, hitem⟩ := getMatchedIndex_slot (hindex.trans hmatch)
      by_cases hempty : setval val = []
      · simp only [if_pos hempty]
        exact ⟨rfl, hreads.set i rfl _⟩
      · simp only [if_neg hempty, hitem]
        exact ⟨rfl, hreads.set i (hwritten item) _⟩
    | error e =>
      cases Media.getUnusedIndex s with
      | error e => exact ⟨rfl, hreads⟩
      | ok i =>
        by_cases hempty : setval val = []
        · simp only [if_pos hempty]
          exact ⟨rfl, hreads⟩
        · cases allocated with
          | none =>
            simp only [if_neg hempty]
            exact ⟨rfl, hreads⟩
          | some item =>
            simp only [if_neg hempty]
            exact ⟨rfl, hreads.set i (hwritten item) (fits_item hpath _)⟩

theorem initial_reads : Reads initial .initial := by
  simp [Reads, initial, ConfigStore.initial]

end Refinement

/-- The call of the store without the bytes. -/
def RawCall.toCall : RawCall → Call
  | .set path val allocated => .set path.val (val.map Subtype.val) allocated.isSome
  | .get path dflt => .get path.val (dflt.map Subtype.val)
  | .getFloat path => .get path.val none
  | .getIntDef path _ => .get path.val none
  | .getFloatDef path _ => .get path.val none
  | .getBool path => .get path.val none
  | .getBoolDef path _ => .get path.val none

def storeMachine (properties : Properties) : Machine ConfigStore RawCall Reply where
  step s c := (configMachine properties.get).step s c.toCall

theorem exec_reads (properties : Properties) (scanf : Scanf) (calls : List RawCall) :
    Reads ((rawMachine properties scanf).exec initial calls).2
      ((storeMachine properties).exec .initial calls).2 := by
  refine Machine.exec_simulation ?_ calls initial_reads
  intro slots s c hreads
  cases hlookup : c.lookup with
  | none =>
    cases c <;> cases hlookup
    exact (amSetconfig_eq hreads _ _ _).2
  | some r =>
    have hraw : ((rawMachine properties scanf).step slots c).1 = slots :=
      RawCall.run_st_of_lookup hlookup
    have hstore : ((storeMachine properties).step s c).1 = s := by
      cases c <;> cases hlookup <;> rfl
    rwa [hraw, hstore]

end AmlogicHal.Media.Raw
