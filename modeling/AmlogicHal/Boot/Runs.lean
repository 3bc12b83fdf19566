import AmlogicHal.Boot.Edits

/-!
# Runs of the boot control HAL

What holds after any sequence of calls on a device whose control block was valid at the start.

* `good_run`: the block stays valid, the number of slots stays what it was, and the object of the
  HAL agrees with the block.
* `getActiveBootSlot_lastActive`: the active slot, which the HAL recomputes from the priorities, is
  the one that was set last.
* `disabled_untouched_valid`: a slot that was made unbootable stays so, calls leave the other slots
  alone, and the block on disk passes the check.
-/

namespace AmlogicHal.Boot

open BootloaderControl BitField Traced Call List

/-! ## The invariant of every run -/

/-- The running slot, as the boot properties name it, has the property `P`. -/
def Running (P : Nat → Prop) (io : Io) : Prop :=
  ∀ c, slotSuffixToIndex (io.getProperty "ro.boot.slot_suffix") = some c → P c

/-- The block is valid and has `nb` slots, and the object of the HAL was made from it. -/
structure Good (P : Nat → Prop) (nb : BitVec 3) (s : Hal) : Prop where
  crc : s.world.misc.CrcValid
  nbSlot : s.world.misc.nbSlot = nb
  object : ∀ bc, s.impl = some bc →
    bc.initialized = true ∧ bc.miscDevice ≠ "" ∧ bc.numSlots = nb.toNat ∧ P bc.currentSlot

variable {P : Nat → Prop} {nb : BitVec 3} {s : Hal} {bc : BootControl} {call : Call} {ret : Ret}
  {c c' : BootloaderControl}

theorem MiscStep.crcValid (h : MiscStep bc call ret c c') (hcrc : c.CrcValid) : c'.CrcValid := by
  rcases h with ⟨rfl, -⟩ | ⟨e, -, rfl, -⟩
  · exact hcrc
  · exact crcValid_updateCrc e

theorem MiscStep.nbSlot_eq (h : MiscStep bc call ret c c') : c'.nbSlot = c.nbSlot := by
  rcases h with ⟨rfl, -⟩ | ⟨e, he, rfl, -⟩
  · rfl
  · rw [nbSlot_updateCrc, nbSlot_edit he]

variable {j : Nat} {w : World} {h : List ((Call × Io) × Output)}

theorem MiscStep.untouched (h : MiscStep bc call ret c c') (hj : j < kMaxNumSlots)
    (hne : call.target bc ≠ some j) : Untouched call (c.slotMetadata j) (c'.slotMetadata j) := by
  rcases h with ⟨rfl, -⟩ | ⟨e, he, rfl, -⟩
  · exact .inl rfl
  · rw [slotMetadata_updateCrc hj]
    exact untouched_edit he hj hne

/-- A step of the HAL: there is no object and nothing happens, or the call works on the block. -/
theorem halStep_misc (hs : Good P nb s) (e : Call × Io) :
    (e.1 ≠ .create ∧ s.impl = none ∧ halStep s e = (s, ⟨.notLoaded, []⟩)) ∨
      ∃ bc, (e.1 ≠ .create → s.impl = some bc) ∧
        MiscStep bc e.1 (halStep s e).2.ret s.world.misc (halStep s e).1.world.misc := by
  by_cases hc : e.1 = .create
  · refine .inr ⟨{}, fun h => absurd hc h, ?_⟩
    simpa only [halStep, if_pos hc] using perform_misc e.2 {} s.world hs.crc e.1
  · cases hi : s.impl with
    | none => exact .inl ⟨hc, rfl, by simp only [halStep, if_neg hc, hi]⟩
    | some bc =>
      refine .inr ⟨bc, fun _ => rfl, ?_⟩
      simpa only [halStep, if_neg hc, hi] using perform_misc e.2 bc s.world hs.crc e.1

theorem keepObject_some {o : BootControl} (h : keepObject call ret bc = some o) :
    o = bc ∧ ¬ (call = .create ∧ ret = .bool false) := by
  unfold keepObject at h
  split at h
  · contradiction
  · next hk => exact ⟨(Option.some.inj h).symm, fun hc => hk (.inr hc)⟩

theorem perform_object (io : Io) (w : World) (h : bc.initialized = true) (call : Call) :
    ((perform io bc call).run w).val.2 = bc := by
  cases call with
  | create | init => simp only [perform, run_bind, run_pure, init_again io w h]
  | _ => rfl

theorem good_start (hcrc : w.misc.CrcValid) : Good P w.misc.nbSlot ⟨w, none⟩ :=
  ⟨hcrc, rfl, fun _ h => nomatch h⟩

theorem good_step (hs : Good P nb s) (e : Call × Io) (hrun : Running P e.2) :
    Good P nb (halStep s e).1 := by
  have hobj : ∀ bc, (halStep s e).1.impl = some bc →
      bc.initialized = true ∧ bc.miscDevice ≠ "" ∧ bc.numSlots = nb.toNat ∧ P bc.currentSlot := by
    intro o ho
    by_cases hc : e.1 = .create
    · -- the fresh object of the constructor
      simp only [halStep, if_pos hc] at ho
      obtain ⟨hval, hok⟩ := keepObject_some ho
      have hres : ((init e.2 {}).run s.world).val = (true, o) := by
        rw [hc] at hval hok
        refine Prod.ext ?_ hval.symm
        have hne : ((init e.2 {}).run s.world).val.1 ≠ false := fun hf =>
          hok ⟨rfl, congrArg Ret.bool hf⟩
        simpa using hne
      obtain ⟨hinit, hdev, hnum, hcur⟩ := init_object e.2 s.world rfl hs.crc hres
      exact ⟨hinit, hdev, hs.nbSlot ▸ hnum, hrun _ hcur⟩
    · cases hi : s.impl with
      | none =>
        simp only [halStep, if_neg hc, hi] at ho
        contradiction
      | some bc =>
        simp only [halStep, if_neg hc, hi] at ho
        have hbc := hs.object bc hi
        obtain ⟨rfl, -⟩ := keepObject_some ho
        rw [perform_object e.2 s.world hbc.1]
        exact hbc
  rcases halStep_misc hs e with ⟨-, -, hsame⟩ | ⟨bc, -, hm⟩
  · rw [hsame]
    exact hs
  · exact ⟨hm.crcValid hs.crc, hm.nbSlot_eq.trans hs.nbSlot, hobj⟩

theorem good_run (hcrc : w.misc.CrcValid)
    (hrun : halMachine.Run (fun _ e => Running P e.2) ⟨w, none⟩ h s) : Good P w.misc.nbSlot s :=
  hrun.invariant (fun _ s => Good P w.misc.nbSlot s) (good_start hcrc) fun _ _ e hs hP =>
    good_step hs e hP

/-! ## A device on which nothing fails -/

/-- Every request to the system succeeds, and slot 0 is running. -/
def okIo : Io where
  getProperty name := if name = "ro.boot.slot_suffix" then "_a" else ""
  blkDevice := "/dev/block/by-name/misc"
  load := true
  save := true
  saveRoll := true
  readVirtualAb := true
  writeVirtualAb := true
  statBoot _ := .found
  teeInfo := true
  reboot := true
  gptMode := .gpt
  writeBootloaderImg := true
  setEnv _ := true

/-- A valid block with `nb` slots and zeros everywhere else. -/
def zeroWorld (nb : BitVec 3) : World where
  misc := ((BootloaderControl.mk 0).setNbSlot nb).updateCrc
  virtualAb := ⟨true, 0, 0⟩
  env _ := none
  sysBootComplete := true

theorem zeroWorld_crcValid (nb : BitVec 3) : (zeroWorld nb).misc.CrcValid := crcValid_updateCrc _

theorem okIo_running : Running (· = 0) okIo := by
  intro c hc
  have h0 : slotSuffixToIndex (okIo.getProperty "ro.boot.slot_suffix") = some 0 := by decide
  exact (Option.some.inj hc).symm

/-! ## The active slot -/

theorem priority_updateCrc (hj : j < kMaxNumSlots) (c : BootloaderControl) :
    c.updateCrc.priority j = c.priority j :=
  congrArg (getField 0 4) (slotMetadata_updateCrc hj c)

theorem priority_edit (h : Edit bc call c c') (hj : j < kMaxNumSlots)
    (hne : ∀ slot, call ≠ .setActiveBootSlot slot) : c'.priority j = c.priority j := by
  have hfield : ∀ (off : Nat) {w : Nat} (f : BitVec w) (m : BitVec 16), 4 ≤ off →
      getField 0 4 (setField off f m) = getField 0 4 m := fun off _ f m hoff =>
    getField_setField_disjoint _ _ _ _ (by omega)
  unfold priority
  cases h with
  | mark =>
    simp only [markEdit, slotMetadata_setTriesRemaining hj, slotMetadata_setSuccessfulBoot hj,
      slotMetadata_setFirstboot hj, slotMetadata_setMergeFlag hj]
    split
    · rw [hfield _ _ _ (by omega), hfield _ _ _ (by omega)]
    · rfl
  | @activate slot _ hv => exact absurd rfl (hne slot)
  | unbootable _ hv =>
    simp only [unbootableEdit, slotMetadata_setTriesRemaining hj, slotMetadata_setSuccessfulBoot hj]
    split
    · rw [hfield _ _ _ (by omega), hfield _ _ _ (by omega)]
    · rfl
  | firstboot | merge | roll => simp [hj]

variable {slot : Nat}

theorem priority_activateEdit_self (hslot : slot < kMaxNumSlots) :
    (activateEdit bc slot c).priority slot = 15 := by
  unfold priority activateEdit
  split
  · simp only [slotMetadata_setVerityCorrupted hslot, slotMetadata_setTriesRemaining hslot,
      slotMetadata_setPriority hslot, if_true]
    rw [getField_setField_disjoint _ _ _ _ (by omega),
      getField_setField_disjoint _ _ _ _ (by omega),
      getField_setField_same _ _ _ (by omega)]
    rfl
  · simp only [slotMetadata_setTriesRemaining hslot, slotMetadata_setPriority hslot, if_true]
    rw [getField_setField_disjoint _ _ _ _ (by omega), getField_setField_same _ _ _ (by omega)]
    rfl

theorem priority_activateEdit_lt (hj : j < kMaxNumSlots) (hnum : j < bc.numSlots) (hne : j ≠ slot) :
    (activateEdit bc slot c).priority j < 15 := by
  unfold priority
  rw [slotMetadata_activateEdit hj (fun h => hne h.symm), if_pos hnum]
  unfold lowerMetadata
  split
  · rw [getField_setField_same _ _ _ (by omega)]
    decide
  · next h => exact BitVec.not_le.mp h

/-- The slot of the last `SetActiveBootSlot` in a history that returned true. -/
def lastActive (h : List ((Call × Io) × Output)) : Option Nat :=
  h.foldl
    (fun acc x =>
      match x.1.1, x.2.ret with
      | .setActiveBootSlot slot, .bool true => some slot
      | _, _ => acc)
    none

variable {x : (Call × Io) × Output}

section

variable (h)

theorem lastActive_set (hcall : x.1.1 = .setActiveBootSlot slot)
    (hret : x.2.ret = .bool true) :
    lastActive (h ++ [x]) = some slot := by
  simp [lastActive, hcall, hret]

theorem lastActive_other
    (hno : ∀ slot, x.1.1 = .setActiveBootSlot slot → x.2.ret ≠ .bool true) :
    lastActive (h ++ [x]) = lastActive h := by
  simp [lastActive]

end

/-- The slot `a` has the highest priority of all slots, and no other slot has it. -/
def TopSlot (nb : Nat) (c : BootloaderControl) (a : Nat) : Prop :=
  a < nb ∧ c.priority a = 15 ∧ ∀ j < nb, j ≠ a → c.priority j < 15

theorem topSlot_step (hs : Good P nb s) (hnb : nb.toNat ≤ kMaxNumSlots) (e : Call × Io)
    (htop : ∀ a, lastActive h = some a → TopSlot nb.toNat s.world.misc a) :
    ∀ a, lastActive (h ++ [(e, (halStep s e).2)]) = some a →
    TopSlot nb.toNat (halStep s e).1.world.misc a := by
  intro a ha
  rcases halStep_misc hs e with ⟨-, -, hsame⟩ | ⟨bc, hbc, ⟨hc, hret⟩ | ⟨c', hed, hc, hret⟩⟩
  · rw [lastActive_other h (by simp [hsame])] at ha
    rw [hsame]
    exact htop a ha
  · rw [lastActive_other h fun slot hcall => hret (congrArg commits hcall)] at ha
    rw [hc]
    exact htop a ha
  · rw [hc]
    by_cases hact : ∃ slot, e.1 = .setActiveBootSlot slot
    · obtain ⟨slot, hslot⟩ := hact
      rw [lastActive_set h hslot (hret (congrArg commits hslot))] at ha
      obtain rfl := Option.some.inj ha
      have hnum := (hs.object bc (hbc (by simp [hslot]))).2.2.1
      rw [hslot] at hed
      cases hed with
      | activate _ hv =>
        obtain ⟨h4, hlt⟩ := isValidSlot_iff.mp hv
        refine ⟨hnum ▸ hlt, ?_, fun j hj hne => ?_⟩
        · rw [priority_updateCrc h4, priority_activateEdit_self h4]
        · have hj4 : j < kMaxNumSlots := by omega
          rw [priority_updateCrc hj4]
          exact priority_activateEdit_lt hj4 (hnum ▸ hj) hne
      | roll _ hcall => simp at hcall
    · have hother : ∀ slot, e.1 ≠ .setActiveBootSlot slot := fun slot hslot => hact ⟨slot, hslot⟩
      rw [lastActive_other h fun slot hslot => absurd hslot (hother slot)] at ha
      have hpri : ∀ j < nb.toNat, c'.updateCrc.priority j = s.world.misc.priority j := by
        intro j hj
        have hj4 : j < kMaxNumSlots := by omega
        rw [priority_updateCrc hj4, priority_edit hed hj4 hother]
      obtain ⟨hlt, h15, hrest⟩ := htop a ha
      exact ⟨hlt, (hpri a hlt).trans h15, fun j hj hne => (hpri j hj).symm ▸ hrest j hj hne⟩

theorem findHighest_top {a : Nat} (w : World) (ha : c.priority a = 15) :
    ∀ (l : List Nat) (active : Nat), (∀ j ∈ l, j ≠ a → c.priority j < 15) →
      (active ≠ a → c.priority active < 15) → a ∈ l ∨ active = a →
      ((findHighest c l active (c.priority active)).run w).val = a := by
  intro l
  induction l with
  | nil =>
    intro active _ _ hmem
    rcases hmem with hmem | rfl
    · exact absurd hmem not_mem_nil
    · rfl
  | cons i rest ih =>
    intro active hl hact hmem
    have hrest : ∀ j ∈ rest, j ≠ a → c.priority j < 15 := fun j hj => hl j (.tail _ hj)
    simp only [findHighest, run_bind, run_ite, touch, run_emit]
    split
    · next hgt =>
      refine ih i hrest (hl i (.head _)) ?_
      rcases hmem with hmem | rfl
      · rcases mem_cons.mp hmem with rfl | hmem
        · exact .inr rfl
        · exact .inl hmem
      · -- nothing is above the slot on top
        rw [ha] at hgt
        have hlt : (15 : BitVec 4).toNat < (c.priority i).toNat := hgt
        simp at hlt
        omega
    · next hle =>
      refine ih active hrest hact ?_
      by_cases heq : active = a
      · exact .inr heq
      · refine .inl ((mem_cons.mp (hmem.resolve_right heq)).resolve_left ?_)
        rintro rfl
        exact hle (ha ▸ hact heq)

/-- Whatever is called and fails to save, as long as the running slot stays the same; and that slot
alone has the highest priority. -/
theorem getActiveBootSlot_lastActive {w : World} {cur a : Nat} {h : List ((Call × Io) × Output)}
    {io : Io} (hcrc : w.misc.CrcValid) (hnb : w.misc.nbSlot.toNat ≤ kMaxNumSlots)
    (hcur : cur < w.misc.nbSlot.toNat)
    (hrun : halMachine.Run (fun _ e => Running (· = cur) e.2) ⟨w, none⟩ h s)
    (hobj : s.impl = some bc) (hlast : lastActive h = some a) (hload : io.load = true) :
    ((getActiveBootSlot io bc).run s.world).val = .slot a ∧
      ∀ j < w.misc.nbSlot.toNat, j ≠ a → s.world.misc.priority j < s.world.misc.priority a := by
  obtain ⟨hs, htop⟩ := hrun.invariant
    (fun h s => Good (· = cur) w.misc.nbSlot s ∧
      ∀ a, lastActive h = some a → TopSlot w.misc.nbSlot.toNat s.world.misc a)
    ⟨good_start hcrc, by simp [lastActive]⟩
    fun _ _ e hs hP => ⟨good_step hs.1 e hP, topSlot_step hs.1 hnb e hs.2⟩
  obtain ⟨hlt, h15, hrest⟩ := htop a hlast
  obtain ⟨-, hdev, hnum, hcs⟩ := hs.object bc hobj
  refine ⟨?_, fun j hj hne => h15.symm ▸ hrest j hj hne⟩
  simp only [getActiveBootSlot, touch, run_bind, run_load_ok _ hdev hload, run_emit,
    run_pure, hcs, hnum]
  exact congrArg Ret.slot (findHighest_top _ h15 _ _
    (fun j hj => hrest j (mem_range.mp hj)) (hrest cur hcur) (.inl (mem_range.mpr hlt)))

/-- Slot 1 is set active on a device with two slots that runs slot 0. -/
theorem getActiveBootSlot_lastActive_two :
    let s := (halMachine.exec ⟨zeroWorld 2, none⟩
      [(.create, okIo), (.setActiveBootSlot 1, okIo)]).2
    ((getActiveBootSlot okIo ⟨true, okIo.blkDevice, 2, 0⟩).run s.world).val = .slot 1 ∧
      ∀ j < (zeroWorld 2).misc.nbSlot.toNat, j ≠ 1 →
        s.world.misc.priority j < s.world.misc.priority 1 := by
  intro s
  have hnb : (zeroWorld 2).misc.nbSlot.toNat = 2 := by decide +kernel
  have hrun := Machine.run_exec (m := halMachine) (C := fun _ e => Running (· = 0) e.2)
    (s := ⟨zeroWorld 2, none⟩) [(.create, okIo), (.setActiveBootSlot 1, okIo)]
    ⟨okIo_running, okIo_running, trivial⟩
  have hobj : s.impl = some ⟨true, okIo.blkDevice, 2, 0⟩ := by decide +kernel
  have hlast : lastActive (halMachine.exec ⟨zeroWorld 2, none⟩
    [(.create, okIo), (.setActiveBootSlot 1, okIo)]).1 = some 1 := by decide +kernel
  exact getActiveBootSlot_lastActive (zeroWorld_crcValid 2) (hnb ▸ by decide) (hnb ▸ by decide)
    hrun hobj hlast rfl

/-! ## Slots that were made unbootable -/

/-- In this history `SetSlotAsUnbootable` has returned true for the slot, and no
`SetActiveBootSlot` for it has returned true since. -/
def disabled (slot : Nat) (h : List ((Call × Io) × Output)) : Bool :=
  h.foldl
    (fun acc x =>
      match x.1.1, x.2.ret with
      | .setSlotAsUnbootable t, .bool true => acc || t == slot
      | .setActiveBootSlot t, .bool true => acc && t != slot
      | _, _ => acc)
    false

section

variable (h)

theorem disabled_unbootable {t : Nat}
    (hcall : x.1.1 = .setSlotAsUnbootable t) (hret : x.2.ret = .bool true) :
    disabled slot (h ++ [x]) = (disabled slot h || t == slot) := by
  simp [disabled, hcall, hret]

theorem disabled_active {t : Nat}
    (hcall : x.1.1 = .setActiveBootSlot t) (hret : x.2.ret = .bool true) :
    disabled slot (h ++ [x]) = (disabled slot h && t != slot) := by
  simp [disabled, hcall, hret]

theorem disabled_other
    (hno : x.1.1.commits = true → x.2.ret ≠ .bool true) :
    disabled slot (h ++ [x]) = disabled slot h := by
  simp only [disabled, foldl_append, foldl_cons, foldl_nil]
  split
  · next hcall hret => exact absurd hret (hno (congrArg commits hcall))
  · next hcall hret => exact absurd hret (hno (congrArg commits hcall))
  · rfl

end

/-- The metadata of a slot that cannot be booted and is not marked successful. -/
def Dead (m : BitVec 16) : Prop := getField 4 3 m = (0 : BitVec 3) ∧ getField 7 1 m = (0 : BitVec 1)

theorem Untouched.dead {m m' : BitVec 16} (h : Untouched call m m') (hd : Dead m) : Dead m' := by
  rcases h with rfl | ⟨-, -, rfl⟩
  · exact hd
  · refine ⟨?_, ?_⟩
    · rw [getField_setField_disjoint _ _ _ _ (by omega)]
      exact hd.1
    · rw [getField_setField_disjoint _ _ _ _ (by omega)]
      exact hd.2

theorem dead_unbootableEdit (hslot : slot < kMaxNumSlots) :
    Dead ((unbootableEdit slot c).slotMetadata slot) := by
  simp only [Dead, unbootableEdit, slotMetadata_setTriesRemaining hslot,
    slotMetadata_setSuccessfulBoot hslot, if_true]
  refine ⟨getField_setField_same _ _ _ (by omega), ?_⟩
  rw [getField_setField_disjoint _ _ _ _ (by omega), getField_setField_same _ _ _ (by omega)]

theorem dead_step (hs : Good (· ≠ slot) nb s) (e : Call × Io) (hdead : disabled slot h = true →
      slot < kMaxNumSlots ∧ Dead (s.world.misc.slotMetadata slot))
    (hdis : disabled slot (h ++ [(e, (halStep s e).2)]) = true) :
    slot < kMaxNumSlots ∧ Dead ((halStep s e).1.world.misc.slotMetadata slot) := by
  rcases halStep_misc hs e with ⟨-, -, hsame⟩ | ⟨bc, hbc, hm⟩
  · rw [disabled_other h (by simp [hsame])] at hdis
    rw [hsame]
    exact hdead hdis
  · have hkeep : disabled slot h = true → e.1.target bc ≠ some slot →
        slot < kMaxNumSlots ∧ Dead ((halStep s e).1.world.misc.slotMetadata slot) := by
      intro hd htarget
      obtain ⟨h4, hdd⟩ := hdead hd
      exact ⟨h4, (hm.untouched h4 htarget).dead hdd⟩
    have hcur : e.1 ≠ .create → bc.currentSlot ≠ slot := fun hne =>
      (hs.object bc (hbc hne)).2.2.2
    rcases hm with ⟨hc, hret⟩ | ⟨c', hed, hc, hret⟩
    · rw [disabled_other h hret] at hdis
      rw [hc]
      exact hdead hdis
    · have hother : e.1.commits ≠ true → disabled slot h = true := fun hno => by
        rw [disabled_other h fun hyes => absurd hyes hno] at hdis
        exact hdis
      obtain ⟨call, io⟩ := e
      cases hed with
      | mark =>
        exact hkeep (hother (by simp [commits])) fun ht =>
          hcur (by simp) (Option.some.inj ht)
      | @activate t _ hv =>
        rw [disabled_active h rfl (hret rfl), Bool.and_eq_true] at hdis
        refine hkeep hdis.1 fun ht => ?_
        obtain rfl := Option.some.inj ht
        simp at hdis
      | @unbootable t _ hv =>
        by_cases ht : t = slot
        · subst ht
          have h4 := (isValidSlot_iff.mp hv).1
          rw [hc, slotMetadata_updateCrc h4]
          exact ⟨h4, dead_unbootableEdit h4⟩
        · rw [disabled_unbootable h rfl (hret rfl)] at hdis
          have hd : disabled slot h = true := by simpa [ht] using hdis
          exact hkeep hd fun h' => ht (Option.some.inj h')
      | firstboot | merge => exact hkeep (hother (by simp [commits])) (by simp [target])
      | roll _ hcall =>
        rcases hcall with rfl | rfl <;>
          exact hkeep (hother (by simp [commits])) (by simp [target])

theorem dead_isSlotBootable (io : Io) (hd : Dead (w.misc.slotMetadata slot)) :
    ((isSlotBootable io bc slot).run w).val = .bool false := by
  have htries : w.misc.triesRemaining slot = 0 := hd.1
  exact slotCall_cases (fun r => r.val = .bool false) rfl fun _ => by simp [htries]

theorem dead_isSlotMarkedSuccessful (io : Io) (hd : Dead (w.misc.slotMetadata slot)) :
    ((isSlotMarkedSuccessful io bc slot).run w).val = .bool false := by
  have hsucc : w.misc.successfulBoot slot = 0 := hd.2
  -- a slot that is not marked successful never asks for a reboot
  have hdown : ((finishFirstBoot io slot w.misc).run w).val = false := by
    simp only [finishFirstBoot, run_ite]
    split
    · simp [rebootForArb, hsucc]
    · rfl
  refine slotCall_cases (fun r => r.val = .bool false) rfl fun _ => ?_
  simp [hdown, markedSuccessful, hsucc]

/-- Unbootable: neither bootable nor marked successful, unless it is the running slot or was set
active since. `SetActiveBootSlot` may lower the priority of another slot from 15 to 14. The check
passes after a call that returns true. -/
theorem disabled_untouched_valid {w : World} {h : List ((Call × Io) × Output)}
    (hcrc : w.misc.CrcValid) (hrun : halMachine.Run (fun _ _ => True) ⟨w, none⟩ h s) :
    (∀ slot bc io, disabled slot h = true → (∀ x ∈ h, Running (· ≠ slot) x.1.2) →
      s.impl = some bc →
      ((isSlotBootable io bc slot).run s.world).val = .bool false ∧
        ((isSlotMarkedSuccessful io bc slot).run s.world).val = .bool false) ∧
    (∀ e j, j < kMaxNumSlots → (∀ bc, s.impl = some bc → e.1.target bc ≠ some j) →
      Untouched e.1 (s.world.misc.slotMetadata j) ((halStep s e).1.world.misc.slotMetadata j)) ∧
    (∀ e, (halStep s e).2.ret = .bool true → (halStep s e).1.world.misc.CrcValid) := by
  have hs : Good (fun _ => True) w.misc.nbSlot s :=
    good_run hcrc (hrun.mono fun _ _ _ _ _ => trivial)
  refine ⟨fun slot bc io hdis hnot _ => ?_, fun e j hj hne => ?_, fun e _ => ?_⟩
  · obtain ⟨-, hdead⟩ := ((hrun.restrict hnot).mono fun _ _ hc => hc.2).invariant
      (fun h s => Good (· ≠ slot) w.misc.nbSlot s ∧ (disabled slot h = true →
        slot < kMaxNumSlots ∧ Dead _))
      ⟨good_start hcrc, by simp [disabled]⟩
      fun _ _ e hs hP => ⟨good_step hs.1 e hP, dead_step hs.1 e hs.2⟩
    have hd := (hdead hdis).2
    exact ⟨dead_isSlotBootable io hd, dead_isSlotMarkedSuccessful io hd⟩
  · rcases halStep_misc hs e with ⟨-, -, hsame⟩ | ⟨bc, hbc, hm⟩
    · rw [hsame]
      exact .inl rfl
    · refine hm.untouched hj ?_
      by_cases hc : e.1 = .create
      · simp [hc, target]
      · exact hne bc (hbc hc)
  · exact (good_step hs e fun _ _ => trivial).crc

/-- Slot 1 is made unbootable on a device with two slots that runs slot 0. -/
theorem disabled_untouched_valid_two :
    let s := (halMachine.exec ⟨zeroWorld 2, none⟩
      [(.create, okIo), (.setSlotAsUnbootable 1, okIo)]).2
    ((isSlotBootable okIo ⟨true, okIo.blkDevice, 2, 0⟩ 1).run s.world).val = .bool false ∧
      ((isSlotMarkedSuccessful okIo ⟨true, okIo.blkDevice, 2, 0⟩ 1).run s.world).val =
        .bool false := by
  intro s
  have hrun := Machine.run_exec (m := halMachine) (C := fun _ _ => True)
    (s := ⟨zeroWorld 2, none⟩) [(.create, okIo), (.setSlotAsUnbootable 1, okIo)]
    ⟨trivial, trivial, trivial⟩
  have hdis : disabled 1 (halMachine.exec ⟨zeroWorld 2, none⟩
    [(.create, okIo), (.setSlotAsUnbootable 1, okIo)]).1 = true := by decide +kernel
  have hobj : s.impl = some ⟨true, okIo.blkDevice, 2, 0⟩ := by decide +kernel
  have hnot : Running (· ≠ 1) okIo := fun c hc => by simp [okIo_running c hc]
  refine (disabled_untouched_valid (zeroWorld_crcValid 2) hrun).1 1 _ okIo hdis ?_ hobj
  intro x hx
  rcases mem_cons.mp hx with rfl | hx
  · exact hnot
  · rw [mem_singleton.mp hx]
    exact hnot

end AmlogicHal.Boot
