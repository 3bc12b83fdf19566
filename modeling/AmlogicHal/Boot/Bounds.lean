import AmlogicHal.Boot.Runs

/-!
# The indices into `slot_info`

The array has four elements. The slot count of a block is a field of three bits that nothing checks
against the size of the array: `Init` copies it to `num_slots_`, and the loops of
`GetActiveBootSlot` and `SetActiveBootSlot` run up to it. `slotInfo_inBounds_iff` says that this is
the only way to leave the array, and that a block with more than four slots does leave it.
-/

namespace AmlogicHal.Boot

open BootloaderControl Traced List

variable {P : Nat → Prop} {bc : BootControl} {c : BootloaderControl}

/-! ## Loops -/

variable (w : World) (io : Io) {slot : Nat}

theorem findHighest_all : ∀ (l : List Nat) (active : Nat) (maxPriority : BitVec 4),
    (∀ i ∈ l, P i) → (findHighest c l active maxPriority).All P w := by
  intro l
  induction l with
  | nil => intro active maxPriority _; simp [findHighest]
  | cons i rest ih =>
    intro active maxPriority hl
    have hi := hl i (.head _)
    have hrest : ∀ j ∈ rest, P j := fun j hj => hl j (.tail _ hj)
    simp only [findHighest, touch, all_bind, all_emit, run_emit, all_ite]
    refine ⟨hi, ?_⟩
    split
    · exact ⟨hi, ih _ _ hrest⟩
    · exact ih _ _ hrest

theorem findHighest_visits {i : Nat} :
    ∀ (l : List Nat) (active : Nat) (maxPriority : BitVec 4), i ∈ l →
      i ∈ ((findHighest c l active maxPriority).run w).log := by
  intro l
  induction l with
  | nil => intro _ _ h; exact absurd h not_mem_nil
  | cons k rest ih =>
    intro active maxPriority h
    rcases mem_cons.mp h with rfl | h
    · exact mem_cons_self
    · refine mem_cons_of_mem _ ?_
      split
      · exact mem_cons_of_mem _ (ih _ _ h)
      · exact ih _ _ h

theorem lowerOthers_all (slot : Nat) : ∀ (l : List Nat) (c : BootloaderControl),
    (∀ i ∈ l, P i) → (lowerOthers slot l c).All P w := by
  intro l
  induction l with
  | nil => intro c _; simp [lowerOthers]
  | cons i rest ih =>
    intro c hl
    have hi := hl i (.head _)
    have hrest : ∀ j ∈ rest, P j := fun j hj => hl j (.tail _ hj)
    simp only [lowerOthers, touch, all_bind, all_emit, run_emit, all_ite]
    split
    · refine ⟨hi, ?_⟩
      split
      · exact ⟨hi, ih _ hrest⟩
      · exact ih _ hrest
    · exact ih _ hrest

/-! ## Calls -/

@[simp] theorem load_all (dev : String) (w : World) :
    (loadBootloaderControl io dev).All P w := by simp [loadBootloaderControl]

@[simp] theorem updateAndSave_all (saved : Bool) (c : BootloaderControl) (w : World) :
    (updateAndSaveBootloaderControl saved c).All P w := by
  simp only [updateAndSaveBootloaderControl, all_ite]
  split <;> simp

@[simp] theorem rebootForArb_all (due : Bool) (w : World) : (rebootForArb io due).All P w := by
  simp only [rebootForArb, all_read, all_ite]
  split <;> simp [setSysBootComplete]

@[simp] theorem setBootloaderEnvCommon_all (name value : String) (w : World) :
    (setBootloaderEnvCommon io name value).All P w := by simp [setBootloaderEnvCommon]

variable (w : World)

@[simp] theorem prepareBootloader_all : (prepareBootloader io).All P w := by
  unfold prepareBootloader
  split
  · simp
  · split
    · simp only [prepareGpt, all_read, all_ite]
      split <;> simp
    · simp
  · split
    · simp only [prepareDts, setBootloaderIndex, all_ite]
      split <;> simp
    · simp

theorem init_all (bc : BootControl) (w : World) (hcrc : w.misc.CrcValid) :
    (init io bc).All P w := by
  simp only [init, all_ite]
  split
  · simp
  split
  · simp
  split
  · simp
  simp only [all_bind, load_all, run_load, true_and]
  split
  · simp
  · next c hc =>
    obtain ⟨-, rfl⟩ : _ ∧ w.misc = c := by simpa using hc
    have hvalid : ∀ bc, (validateBlock io bc w.misc).All P w := fun bc => by
      simp [Traced.All, validateBlock_valid io bc w hcrc]
    have hmsg : (initMiscVirtualAbMessageIfNeeded io).All P w := by
      simp only [initMiscVirtualAbMessageIfNeeded, all_read, all_ite]
      split
      · simp
      · split
        · simp
        · split <;> simp
    have hroll : ∀ w', (clearRollFlag io w.misc).All P w' := fun w' => by
      simp only [clearRollFlag, all_ite]
      split <;> simp
    simp only [initFrom, all_bind, hvalid, validateBlock_valid io _ w hcrc, hmsg, all_ite, true_and]
    split
    · simp
    · exact ⟨hroll _, by simp⟩

theorem markBootSuccessful_all (hcur : P bc.currentSlot) : (markBootSuccessful io bc).All P w := by
  simp only [markBootSuccessful, all_bind, load_all, run_load, true_and]
  split
  · simp
  · simp [markSuccessful, touch, hcur]

theorem getActiveBootSlot_all (hcur : P bc.currentSlot) (hnum : ∀ i < bc.numSlots, P i) :
    (getActiveBootSlot io bc).All P w := by
  simp only [getActiveBootSlot, all_bind, load_all, run_load, true_and]
  split
  · simp
  · simp only [all_bind, touch, all_emit, all_pure, and_true]
    exact ⟨hcur, findHighest_all _ _ _ _ fun i hi => hnum i (mem_range.mp hi)⟩

theorem activate_all (hslot : P slot) (hnum : ∀ i < bc.numSlots, P i) (c : BootloaderControl) :
    (activate bc slot c).All P w := by
  have hloop := lowerOthers_all w slot _ c fun i hi => hnum i (mem_range.mp hi)
  simp only [activate, all_bind, touch, all_emit, all_ite]
  refine ⟨hloop, hslot, hslot, ?_⟩
  split
  · simp [hslot]
  · simp

theorem slotCall_all {f : BootloaderControl → BootM Ret} {io : Io} {w : World}
    (h : bc.isValidSlot slot = true → (f w.misc).All P w) :
    Traced.All P (if bc.isValidSlot slot = false then pure (.bool false)
      else loadBootloaderControl io bc.miscDevice >>= fun loaded =>
        match loaded with
        | none => pure (.bool false)
        | some c => f c) w :=
  slotCall_cases (fun r => ∀ i ∈ r.log, P i) nofun h

theorem setActiveBootSlot_all (slot : Nat) (hvalid : ∀ i, bc.isValidSlot i = true → P i)
    (hnum : ∀ i < bc.numSlots, P i) :
    (setActiveBootSlot io bc slot).All P w := by
  refine slotCall_all fun hv => ?_
  simp only [all_bind, prepareBootloader_all, all_ite, true_and]
  split
  · exact ⟨activate_all _ (hvalid slot hv) hnum _, by simp⟩
  · simp

theorem setSlotAsUnbootable_all (slot : Nat)
    (hvalid : ∀ i, bc.isValidSlot i = true → P i) : (setSlotAsUnbootable io bc slot).All P w := by
  exact slotCall_all fun hv => by simp [touch, hvalid slot hv]

theorem isSlotBootable_all (slot : Nat) (hvalid : ∀ i, bc.isValidSlot i = true → P i) :
    (isSlotBootable io bc slot).All P w := by
  exact slotCall_all fun hv => by simp [touch, hvalid slot hv]

theorem finishFirstBoot_all (hslot : P slot) (c : BootloaderControl) :
    (finishFirstBoot io slot c).All P w := by
  simp only [finishFirstBoot, all_ite]
  split
  · simp [touch, hslot]
  · simp

theorem markedSuccessful_all (hslot : P slot) (c : BootloaderControl) :
    (markedSuccessful slot c).All P w := by
  simp only [markedSuccessful, touch, all_bind, all_emit, all_ite]
  refine ⟨hslot, ?_⟩
  split
  · simp [hslot]
  · simp

theorem isSlotMarkedSuccessful_all (slot : Nat)
    (hvalid : ∀ i, bc.isValidSlot i = true → P i) :
    (isSlotMarkedSuccessful io bc slot).All P w := by
  refine slotCall_all fun hv => ?_
  simp only [all_bind, all_ite]
  refine ⟨finishFirstBoot_all io _ (hvalid slot hv) _, ?_⟩
  split
  · simp
  · exact ⟨markedSuccessful_all _ (hvalid slot hv) _, by simp⟩

theorem setSnapshotMergeStatus_all (status : MergeStatus) :
    (setSnapshotMergeStatus io bc status).All P w := by
  have hmsg : ∀ w', (setMiscVirtualAbMergeStatus io bc.currentSlot status).All P w' := fun w' => by
    simp only [setMiscVirtualAbMergeStatus, all_ite]
    split <;> simp
  simp only [setSnapshotMergeStatus, saveMergeFlag, all_bind, load_all, run_load, true_and]
  refine ⟨?_, hmsg _, by simp⟩
  split <;> simp

/-- A call uses the running slot, the valid slots and the slots below `num_slots_`, and no other
index. -/
theorem perform_all (hcrc : w.misc.CrcValid) (hcur : P bc.currentSlot)
    (hvalid : ∀ i, bc.isValidSlot i = true → P i) (hnum : ∀ i < bc.numSlots, P i) (call : Call) :
    (perform io bc call).All P w := by
  cases call with
  | create | init => simpa [perform] using init_all io bc w hcrc
  | markBootSuccessful => simpa [perform] using markBootSuccessful_all io w hcur
  | getActiveBootSlot => simpa [perform] using getActiveBootSlot_all io w hcur hnum
  | setActiveBootSlot slot => simpa [perform] using setActiveBootSlot_all io w slot hvalid hnum
  | setSlotAsUnbootable slot => simpa [perform] using setSlotAsUnbootable_all io w slot hvalid
  | isSlotBootable slot => simpa [perform] using isSlotBootable_all io w slot hvalid
  | isSlotMarkedSuccessful slot =>
    simpa [perform] using isSlotMarkedSuccessful_all io w slot hvalid
  | setSnapshotMergeStatus status => simpa [perform] using setSnapshotMergeStatus_all io w status

/-! ## Runs -/

theorem slotSuffixToIndex_lt {suffix : String} {c : Nat} (h : slotSuffixToIndex suffix = some c) :
    c < kMaxNumSlots := by
  obtain ⟨hlt, -⟩ := List.findIdx?_eq_some_iff_findIdx_eq.mp h
  exact hlt

theorem halStep_inBounds {nb : BitVec 3} {s : Hal} (hs : Good (· < kMaxNumSlots) nb s)
    (hnb : nb.toNat ≤ kMaxNumSlots) (e : Call × Io) :
    ∀ i ∈ (halStep s e).2.touched, i < kMaxNumSlots := by
  have hvalid : ∀ (bc : BootControl) (i : Nat), bc.isValidSlot i = true → i < kMaxNumSlots :=
    fun bc i hi => (isValidSlot_iff.mp hi).1
  by_cases hc : e.1 = .create
  · simp only [halStep, if_pos hc]
    exact perform_all e.2 s.world hs.crc (by decide) (hvalid {})
      (fun i hi => absurd hi (Nat.not_lt_zero i)) e.1
  · cases hi : s.impl with
    | none =>
      simp only [halStep, if_neg hc, hi]
      exact fun i h => absurd h not_mem_nil
    | some bc =>
      simp only [halStep, if_neg hc, hi]
      obtain ⟨-, -, hnum, hcur⟩ := hs.object bc hi
      exact perform_all e.2 s.world hs.crc hcur (hvalid bc)
        (fun i hlt => Nat.lt_of_lt_of_le (hnum ▸ hlt) hnb) e.1

theorem create_okIo (impl : Option BootControl) (hcrc : w.misc.CrcValid) :
    ∃ bc, (halStep ⟨w, impl⟩ (.create, okIo)).1.impl = some bc := by
  have hmsg : ((initMiscVirtualAbMessageIfNeeded okIo).run w).val = true := by
    simp only [initMiscVirtualAbMessageIfNeeded, run_read, run_ite, okIo]
    split
    · contradiction
    · split
      · rfl
      · rfl
  have hsuffix : slotSuffixToIndex (okIo.getProperty "ro.boot.slot_suffix") = some 0 := by decide
  have hprop : okIo.getProperty "ro.boot.slot_suffix" ≠ "" := by decide
  have hload : (loadBootloaderControl okIo okIo.blkDevice).run w = ⟨some w.misc, w, []⟩ :=
    run_load_ok w (by decide) rfl
  have hok : ((init okIo {}).run w).val.1 = true := by
    simp only [init, run_ite, hsuffix, if_neg hprop, run_bind, hload, initFrom,
      validateBlock_valid okIo _ w hcrc, hmsg]
    rfl
  simp [halStep, perform, keepObject, hok]

theorem getActiveBootSlot_visits {io : Io} {i : Nat} (hdev : bc.miscDevice ≠ "")
    (hload : io.load = true) (hi : i < bc.numSlots) :
    i ∈ ((getActiveBootSlot io bc).run w).log := by
  simp only [getActiveBootSlot, touch, run_bind, run_load_ok w hdev hload, run_emit, run_pure]
  simp [findHighest_visits w _ _ _ (mem_range.mpr hi)]

/-- Every index below the slot count of a valid block is used by some run: create the HAL and ask
for the active slot. -/
theorem slotInfo_visited {w : World} {i : Nat} (hcrc : w.misc.CrcValid)
    (hi : i < w.misc.nbSlot.toNat) :
    ∃ h s, halMachine.Run (fun _ _ => True) ⟨w, none⟩ h s ∧ ∃ x ∈ h, i ∈ x.2.touched := by
  obtain ⟨bc, hbc⟩ := create_okIo w none hcrc
  have hs : Good (fun _ => True) w.misc.nbSlot (halStep ⟨w, none⟩ (.create, okIo)).1 :=
    good_step (good_start hcrc) _ fun _ _ => trivial
  have hrun : halMachine.Run (fun _ _ => True) ⟨w, none⟩ _ (halStep ⟨w, none⟩ (.create, okIo)).1 :=
    Machine.Run.start.step _ trivial
  generalize (halStep ⟨w, none⟩ _).1 = s at hbc hs hrun
  obtain ⟨-, hdev, hnum, -⟩ := hs.object bc hbc
  refine ⟨_, _, hrun.step (.getActiveBootSlot, okIo) trivial, _,
    mem_append_right _ (mem_singleton_self _), ?_⟩
  show i ∈ (halStep s (.getActiveBootSlot, okIo)).2.touched
  simp only [halStep, hbc, perform, run_bind, run_pure, append_nil]
  exact getActiveBootSlot_visits s.world hdev rfl (hnum ▸ hi)

theorem slotInfo_inBounds_iff {w : World} (hcrc : w.misc.CrcValid) :
    (∀ h s, halMachine.Run (fun _ _ => True) ⟨w, none⟩ h s →
      ∀ x ∈ h, ∀ i ∈ x.2.touched, i < kMaxNumSlots) ↔ w.misc.nbSlot.toNat ≤ kMaxNumSlots := by
  constructor
  · intro hall
    by_contra hnb
    obtain ⟨h, s, hrun, x, hx, hmem⟩ := slotInfo_visited hcrc (Nat.lt_of_not_le hnb)
    exact absurd (hall h s hrun x hx _ hmem) (Nat.lt_irrefl _)
  · intro hnb h s hrun
    have hinv := hrun.invariant
      (fun h s => Good (· < kMaxNumSlots) w.misc.nbSlot s ∧
        ∀ x ∈ h, ∀ i ∈ x.2.touched, i < kMaxNumSlots)
      ⟨good_start hcrc, by simp⟩ ?_
    · exact hinv.2
    · rintro h s e ⟨hs, hh⟩ -
      refine ⟨good_step hs e fun c hc => slotSuffixToIndex_lt hc, fun x hx => ?_⟩
      rcases mem_append.mp hx with hx | hx
      · exact hh x hx
      · rw [mem_singleton.mp hx]
        exact halStep_inBounds hs hnb e

/-- The condition can be met: a block with two slots. -/
theorem slotInfo_inBounds_two :
    (zeroWorld 2).misc.CrcValid ∧
      ∀ h s, halMachine.Run (fun _ _ => True) ⟨zeroWorld 2, none⟩ h s →
        ∀ x ∈ h, ∀ i ∈ x.2.touched, i < kMaxNumSlots :=
  ⟨zeroWorld_crcValid 2, (slotInfo_inBounds_iff (zeroWorld_crcValid 2)).mpr (by decide +kernel)⟩

/-- A valid block with seven slots: after `Init`, `GetActiveBootSlot` reads `slot_info[6]`. -/
theorem slotInfo_overrun_seven :
    (zeroWorld 7).misc.CrcValid ∧ ∃ h s,
      halMachine.Run (fun _ _ => True) ⟨zeroWorld 7, none⟩ h s ∧ ∃ x ∈ h, 6 ∈ x.2.touched := by
  have hseven : 6 < (zeroWorld 7).misc.nbSlot.toNat := by decide +kernel
  exact ⟨zeroWorld_crcValid 7, slotInfo_visited (zeroWorld_crcValid 7) hseven⟩

end AmlogicHal.Boot
