import AmlogicHal.Boot.Control

/-!
# What one call does to the control block

Every call either leaves the block in the misc partition as it was or saves one edit of it with a
new checksum. `Edit` lists the edits, `perform_misc` says that there are no others, and the frame
lemmas say what an edit changes.

The results hold for every slot count, also for the counts of five to seven that the three-bit
field `nb_slot` allows: the loop of `SetActiveBootSlot` then writes behind `slot_info`, but not
into it.
-/

namespace AmlogicHal.Boot

open BootloaderControl BitField Traced Call

/-! ## The loop of `SetActiveBootSlot` -/

def lowerMetadata (m : BitVec 16) : BitVec 16 :=
  if getField 0 4 m ≥ kActivePriority then setField 0 (kActivePriority - 1) m else m

def lowerAll (slot : Nat) : List Nat → BootloaderControl → BootloaderControl
  | [], c => c
  | i :: rest, c =>
    if i ≠ slot ∧ c.priority i ≥ kActivePriority then
      lowerAll slot rest (c.setPriority i (kActivePriority - 1))
    else
      lowerAll slot rest c

theorem lowerOthers_val (slot : Nat) (w : World) : ∀ (l : List Nat) (c : BootloaderControl),
    ((lowerOthers slot l c).run w).val = lowerAll slot l c ∧
    ((lowerOthers slot l c).run w).st = w := by
  intro l
  induction l with
  | nil => intro c; exact ⟨rfl, rfl⟩
  | cons i rest ih =>
    intro c
    by_cases hs : i ≠ slot
    · by_cases hp : c.priority i ≥ kActivePriority
      · simpa [lowerOthers, lowerAll, touch, hs, hp] using ih _
      · simpa [lowerOthers, lowerAll, touch, hs, hp] using ih c
    · simpa [lowerOthers, lowerAll, hs] using ih c

theorem lowerMetadata_idem (m : BitVec 16) : lowerMetadata (lowerMetadata m) = lowerMetadata m := by
  unfold lowerMetadata
  split
  · next h =>
    rw [getField_setField_same _ _ _ (by omega)]
    exact if_neg (by decide)
  · rfl

variable {slot : Nat}

/-- The loop lowers the metadata of the slots it visits, the new active slot apart, and leaves the
other ones alone. -/
theorem slotMetadata_lowerAll {j : Nat} (hj : j < kMaxNumSlots) :
    ∀ (l : List Nat) (c : BootloaderControl),
      (lowerAll slot l c).slotMetadata j =
        if j ∈ l ∧ j ≠ slot then lowerMetadata (c.slotMetadata j) else c.slotMetadata j := by
  intro l
  induction l with
  | nil => intro c; simp [lowerAll]
  | cons i rest ih =>
    intro c
    have hstep : ∀ c' : BootloaderControl,
        c'.slotMetadata j = (if i = j ∧ j ≠ slot then lowerMetadata (c.slotMetadata j)
          else c.slotMetadata j) →
        (if j ∈ rest ∧ j ≠ slot then lowerMetadata (c'.slotMetadata j) else c'.slotMetadata j) =
          if j ∈ i :: rest ∧ j ≠ slot then lowerMetadata (c.slotMetadata j)
          else c.slotMetadata j := by
      intro c' hc'
      rw [hc']
      by_cases hij : i = j
      · by_cases hjs : j = slot
        · simp [hjs]
        · by_cases hr : j ∈ rest
          · simp [hij, hjs, lowerMetadata_idem]
          · simp [hij, hr]
      · have hij' : j ≠ i := fun h => hij h.symm
        simp [hij, hij']
    unfold lowerAll
    split
    · next h =>
      rw [ih]
      apply hstep
      rw [slotMetadata_setPriority hj]
      by_cases hij : i = j
      · subst hij
        rw [if_pos rfl, if_pos ⟨rfl, h.1⟩]
        exact (if_pos h.2).symm
      · simp [hij]
    · next h =>
      rw [ih]
      apply hstep
      by_cases hij : i = j ∧ j ≠ slot
      · rw [if_pos hij]
        obtain ⟨rfl, hs⟩ := hij
        have hlow : ¬ c.priority i ≥ kActivePriority := fun hp => h ⟨hs, hp⟩
        exact (if_neg hlow).symm
      · rw [if_neg hij]

theorem nbSlot_lowerAll (slot : Nat) : ∀ (l : List Nat) (c : BootloaderControl),
    (lowerAll slot l c).nbSlot = c.nbSlot := by
  intro l
  induction l with
  | nil => intro c; rfl
  | cons i rest ih =>
    intro c
    unfold lowerAll
    split
    · rw [ih, nbSlot_setPriority]
    · exact ih c

/-! ## The edits -/

/-- The block that `MarkBootSuccessful` saves. -/
def markEdit (current : Nat) (c : BootloaderControl) : BootloaderControl :=
  (((c.setMergeFlag 0).setFirstboot 0).setSuccessfulBoot current 1).setTriesRemaining current 1

/-- The block that `SetActiveBootSlot` saves. -/
def activateEdit (bc : BootControl) (slot : Nat) (c : BootloaderControl) : BootloaderControl :=
  let c := ((lowerAll slot (List.range bc.numSlots) c).setPriority slot
    kActivePriority).setTriesRemaining slot 6
  if slot ≠ bc.currentSlot then c.setVerityCorrupted slot 0 else c

/-- The block that `SetSlotAsUnbootable` saves. -/
def unbootableEdit (slot : Nat) (c : BootloaderControl) : BootloaderControl :=
  (c.setSuccessfulBoot slot 0).setTriesRemaining slot 0

/-- `Edit bc call c c'`: the call on the object `bc` may save `c'` when it loaded `c`. -/
inductive Edit (bc : BootControl) : Call → BootloaderControl → BootloaderControl → Prop
  | mark (c : BootloaderControl) : Edit bc .markBootSuccessful c (markEdit bc.currentSlot c)
  | activate {slot : Nat} (c : BootloaderControl) : bc.isValidSlot slot = true →
      Edit bc (.setActiveBootSlot slot) c (activateEdit bc slot c)
  | unbootable {slot : Nat} (c : BootloaderControl) : bc.isValidSlot slot = true →
      Edit bc (.setSlotAsUnbootable slot) c (unbootableEdit slot c)
  | firstboot {slot : Nat} (c : BootloaderControl) :
      Edit bc (.isSlotMarkedSuccessful slot) c (c.setFirstboot 0)
  | merge {status : MergeStatus} (c : BootloaderControl) :
      Edit bc (.setSnapshotMergeStatus status) c (c.setMergeFlag status.toByte)
  | roll {call : Call} (c : BootloaderControl) : call = .create ∨ call = .init →
      Edit bc call c (c.setRollFlag 0)

/-- The slot whose metadata a call is meant to change. -/
def Call.target (bc : BootControl) : Call → Option Nat
  | .markBootSuccessful => some bc.currentSlot
  | .setActiveBootSlot slot => some slot
  | .setSlotAsUnbootable slot => some slot
  | _ => none

/-- What a call may do to the metadata of a slot it is not aimed at: nothing, or, for
`SetActiveBootSlot`, lower a priority of 15 to 14. -/
def Untouched (call : Call) (m m' : BitVec 16) : Prop :=
  m' = m ∨ ((∃ slot, call = .setActiveBootSlot slot) ∧ getField 0 4 m = (15 : BitVec 4) ∧
    m' = setField 0 (14 : BitVec 4) m)

variable {bc : BootControl} {c c' : BootloaderControl} {call : Call}

theorem isValidSlot_iff : bc.isValidSlot slot = true ↔
    slot < kMaxNumSlots ∧ slot < bc.numSlots := by
  simp [BootControl.isValidSlot]

theorem lowerMetadata_untouched (slot : Nat) (m : BitVec 16) :
    Untouched (.setActiveBootSlot slot) m (lowerMetadata m) := by
  unfold lowerMetadata
  split
  · next h =>
    refine .inr ⟨⟨slot, rfl⟩, ?_, rfl⟩
    have hge : 15 ≤ (getField 0 4 m).toNat := h
    apply BitVec.eq_of_toNat_eq
    show (getField 0 4 m).toNat = 15
    omega
  · exact .inl rfl

theorem slotMetadata_activateEdit {j : Nat} (hj : j < kMaxNumSlots) (hslot : slot ≠ j) :
    (activateEdit bc slot c).slotMetadata j =
      if j < bc.numSlots then lowerMetadata (c.slotMetadata j) else c.slotMetadata j := by
  have hjs : j ≠ slot := fun he => hslot he.symm
  unfold activateEdit
  split <;> simp [hj, hslot, hjs, slotMetadata_lowerAll]

theorem nbSlot_edit (h : Edit bc call c c') : c'.nbSlot = c.nbSlot := by
  cases h with
  | mark => simp [markEdit]
  | activate _ hv =>
    unfold activateEdit
    split <;> simp [nbSlot_lowerAll]
  | unbootable _ hv => simp [unbootableEdit]
  | firstboot | merge | roll => simp

theorem untouched_edit {j : Nat} (h : Edit bc call c c') (hj : j < kMaxNumSlots)
    (hne : call.target bc ≠ some j) :
    Untouched call (c.slotMetadata j) (c'.slotMetadata j) := by
  cases h with
  | mark =>
    have hcur : bc.currentSlot ≠ j := fun he => hne (congrArg some he)
    exact .inl (by simp [markEdit, hj, hcur])
  | @activate slot _ hv =>
    have hslot : slot ≠ j := fun he => hne (congrArg some he)
    rw [slotMetadata_activateEdit hj hslot]
    split
    · exact lowerMetadata_untouched slot _
    · exact .inl rfl
  | @unbootable slot _ hv =>
    have hslot : slot ≠ j := fun he => hne (congrArg some he)
    exact .inl (by simp [unbootableEdit, hj, hslot])
  | firstboot | merge | roll => exact .inl (by simp [hj])

/-! ## One call -/

/-- The calls whose result says whether their edit is on disk. `MarkBootSuccessful` is not one of
them: after its save the device may go down before the call returns. -/
def Call.commits : Call → Bool
  | .setActiveBootSlot _ | .setSlotAsUnbootable _ => true
  | _ => false

/-- What a call that gave `ret` did to the block: nothing, or one edit with a new checksum. For a
call that commits, the result tells which. -/
def MiscStep (bc : BootControl) (call : Call) (ret : Ret) (c c' : BootloaderControl) : Prop :=
  (c' = c ∧ (call.commits = true → ret ≠ .bool true)) ∨
    ∃ e, Edit bc call c e ∧ c' = e.updateCrc ∧ (call.commits = true → ret = .bool true)

variable (io : Io)

theorem run_load (dev : String) (w : World) :
    (loadBootloaderControl io dev).run w =
      ⟨if dev ≠ "" ∧ io.load = true then some w.misc else none, w, []⟩ := rfl

variable (w : World)

theorem run_load_ok {io : Io} {dev : String} (hdev : dev ≠ "") (hload : io.load = true) :
    (loadBootloaderControl io dev).run w = ⟨some w.misc, w, []⟩ := by
  rw [run_load, if_pos ⟨hdev, hload⟩]

theorem slotCall_cases {f : BootloaderControl → BootM Ret} {io : Io} {w : World}
    (motive : Outcome Nat World Ret → Prop) (hrefused : motive ⟨.bool false, w, []⟩)
    (hloaded : bc.isValidSlot slot = true → motive ((f w.misc).run w)) :
    motive (Traced.run (if bc.isValidSlot slot = false then pure (.bool false)
      else loadBootloaderControl io bc.miscDevice >>= fun loaded =>
        match loaded with
        | none => pure (.bool false)
        | some c => f c) w) := by
  simp only [run_ite, run_bind, run_load]
  split
  · exact hrefused
  · next hv =>
    split
    · exact hrefused
    · next c hc =>
      obtain ⟨-, rfl⟩ : _ ∧ w.misc = c := by simpa using hc
      exact hloaded (by simpa using hv)

theorem run_updateAndSave (saved : Bool) (c : BootloaderControl) (w : World) :
    (updateAndSaveBootloaderControl saved c).run w =
      ⟨saved, if saved = true then { w with misc := c.updateCrc } else w, []⟩ := by
  cases saved <;> rfl

theorem setSysBootComplete_misc : ((setSysBootComplete io).run w).st.misc = w.misc := by
  simp only [setSysBootComplete, run_modify]
  split <;> rfl

theorem setBootloaderEnvCommon_misc (name value : String) (w : World) :
    ((setBootloaderEnvCommon io name value).run w).st.misc = w.misc := by
  simp only [setBootloaderEnvCommon, run_modify]
  split <;> rfl

theorem prepareGpt_misc : ((prepareGpt io).run w).st.misc = w.misc := by
  simp only [prepareGpt, run_read, run_ite]
  split
  · exact setBootloaderEnvCommon_misc ..
  · rfl

theorem prepareDts_misc : ((prepareDts io).run w).st.misc = w.misc := by
  simp only [prepareDts, setBootloaderIndex, run_ite]
  split <;> simp [setBootloaderEnvCommon_misc]

theorem prepareBootloader_misc : ((prepareBootloader io).run w).st.misc = w.misc := by
  unfold prepareBootloader
  split
  · rfl
  · split
    · exact prepareGpt_misc io w
    · rfl
  · split
    · exact prepareDts_misc io w
    · rfl

theorem initMiscVirtualAb_misc :
    ((initMiscVirtualAbMessageIfNeeded io).run w).st.misc = w.misc := by
  simp only [initMiscVirtualAbMessageIfNeeded, run_read, run_ite]
  split
  · rfl
  · split
    · rfl
    · split <;> rfl

theorem setMiscVirtualAb_misc (slot : Nat) (status : MergeStatus) (w : World) :
    ((setMiscVirtualAbMergeStatus io slot status).run w).st.misc = w.misc := by
  simp only [setMiscVirtualAbMergeStatus, run_ite]
  split <;> rfl

theorem miscStep_save {ret : Ret} {e : BootloaderControl} {saved : Bool} {w : World}
    (hw : w.misc = c) (he : Edit bc call c e) (hret : call.commits = true → ret = .bool saved) :
    MiscStep bc call ret c ((updateAndSaveBootloaderControl saved e).run w).st.misc := by
  cases saved with
  | true => exact .inr ⟨e, he, rfl, hret⟩
  | false => exact .inl ⟨hw, fun hc => by simp [hret hc]⟩

theorem rebootForArb_misc (due : Bool) (w : World) :
    ((rebootForArb io due).run w).st.misc = w.misc := by
  simp only [rebootForArb, run_read, run_ite]
  split
  · exact setSysBootComplete_misc io w
  · rfl

theorem markSuccessful_run (current : Nat) (c : BootloaderControl) (w : World) :
    ((markSuccessful io current c).run w).val.2 = markEdit current c ∧
      ((markSuccessful io current c).run w).st.misc = w.misc :=
  ⟨rfl, rebootForArb_misc io _ w⟩

theorem markBootSuccessful_misc (bc : BootControl) (w : World) :
    MiscStep bc .markBootSuccessful ((markBootSuccessful io bc).run w).val w.misc
      ((markBootSuccessful io bc).run w).st.misc := by
  simp only [markBootSuccessful, run_bind, run_load]
  split
  · exact .inl ⟨rfl, by simp⟩
  · next c hc =>
    obtain ⟨-, rfl⟩ : _ ∧ w.misc = c := by simpa using hc
    obtain ⟨hval, hst⟩ := markSuccessful_run io bc.currentSlot w.misc w
    exact miscStep_save hst (.mark _) (by simp [commits])

theorem activate_run (bc : BootControl) (slot : Nat) (c : BootloaderControl) (w : World) :
    ((activate bc slot c).run w).val = activateEdit bc slot c ∧
    ((activate bc slot c).run w).st = w := by
  obtain ⟨hval, hst⟩ := lowerOthers_val slot w (List.range bc.numSlots) c
  simp only [activate, activateEdit, touch, run_bind, run_emit, run_ite, hval, hst, run_pure]
  split <;> exact ⟨rfl, rfl⟩

theorem setActiveBootSlot_misc (bc : BootControl) (slot : Nat) (w : World) :
    MiscStep bc (.setActiveBootSlot slot) ((setActiveBootSlot io bc slot).run w).val w.misc
      ((setActiveBootSlot io bc slot).run w).st.misc := by
  refine slotCall_cases (fun r => MiscStep bc _ r.val w.misc r.st.misc) (.inl ⟨rfl, by simp⟩)
    fun hv => ?_
  simp only [run_bind, run_ite]
  split
  · obtain ⟨hval, hst⟩ := activate_run bc slot w.misc ((prepareBootloader io).run w).st
    simp only [run_pure, hval, hst]
    exact miscStep_save (prepareBootloader_misc io w) (.activate _ hv) (by simp [run_updateAndSave])
  · exact .inl ⟨prepareBootloader_misc io w, by simp⟩

theorem setSlotAsUnbootable_misc (bc : BootControl) (slot : Nat) (w : World) :
    MiscStep bc (.setSlotAsUnbootable slot) ((setSlotAsUnbootable io bc slot).run w).val w.misc
      ((setSlotAsUnbootable io bc slot).run w).st.misc := by
  refine slotCall_cases (fun r => MiscStep bc _ r.val w.misc r.st.misc) (.inl ⟨rfl, by simp⟩)
    fun hv => ?_
  exact miscStep_save rfl (.unbootable _ hv) (by simp [run_updateAndSave])

theorem findHighest_st (c : BootloaderControl) (w : World) :
    ∀ (l : List Nat) (active : Nat) (maxPriority : BitVec 4),
      ((findHighest c l active maxPriority).run w).st = w := by
  intro l
  induction l with
  | nil => intro _ _; rfl
  | cons i rest ih =>
    intro active maxPriority
    simp only [findHighest, run_bind, run_ite, touch, run_emit]
    split <;> exact ih _ _

theorem getActiveBootSlot_st (bc : BootControl) (w : World) :
    ((getActiveBootSlot io bc).run w).st = w := by
  simp only [getActiveBootSlot, run_bind, run_load]
  split
  · rfl
  · exact findHighest_st ..

theorem isSlotBootable_st (bc : BootControl) (slot : Nat) (w : World) :
    ((isSlotBootable io bc slot).run w).st = w := by
  exact slotCall_cases (fun r => r.st = w) rfl fun _ => rfl

theorem finishFirstBoot_misc (bc : BootControl) (slot : Nat) (w : World) (ret : Ret) :
    MiscStep bc (.isSlotMarkedSuccessful slot) ret w.misc
      ((finishFirstBoot io slot w.misc).run w).st.misc := by
  simp only [finishFirstBoot, run_ite, run_bind, run_pure, touch, run_emit]
  split
  · rw [rebootForArb_misc]
    exact miscStep_save rfl (.firstboot _) (by simp [commits])
  · exact .inl ⟨rfl, by simp [commits]⟩

theorem markedSuccessful_st (slot : Nat) (c : BootloaderControl) (w : World) :
    ((markedSuccessful slot c).run w).st = w := by
  simp only [markedSuccessful, touch, run_bind, run_emit, run_ite]
  split <;> rfl

theorem isSlotMarkedSuccessful_misc (bc : BootControl) (slot : Nat) (w : World) (ret : Ret) :
    MiscStep bc (.isSlotMarkedSuccessful slot) ret w.misc
      ((isSlotMarkedSuccessful io bc slot).run w).st.misc := by
  refine slotCall_cases (fun r => MiscStep bc _ ret w.misc r.st.misc)
    (.inl ⟨rfl, by simp [commits]⟩) fun _ => ?_
  simp only [run_bind, run_ite, run_pure, markedSuccessful_st]
  split <;> exact finishFirstBoot_misc io bc slot w ret

theorem setSnapshotMergeStatus_misc (bc : BootControl) (status : MergeStatus) (w : World)
    (ret : Ret) :
    MiscStep bc (.setSnapshotMergeStatus status) ret w.misc
      ((setSnapshotMergeStatus io bc status).run w).st.misc := by
  simp only [setSnapshotMergeStatus, saveMergeFlag, run_bind, run_load, run_pure,
    setMiscVirtualAb_misc]
  split
  · exact .inl ⟨rfl, by simp [commits]⟩
  · next c hc =>
    obtain ⟨-, rfl⟩ : _ ∧ w.misc = c := by simpa using hc
    exact miscStep_save rfl (.merge _) (by simp [commits])

/-! ## Init -/

theorem validateBlock_valid (bc : BootControl) (w : World) (hcrc : c.CrcValid) :
    (validateBlock io bc c).run w = ⟨c, w, []⟩ := by
  simp [validateBlock, if_pos hcrc]

theorem clearRollFlag_nbSlot (c : BootloaderControl) (w : World) :
    ((clearRollFlag io c).run w).val.nbSlot = c.nbSlot := by
  simp only [clearRollFlag, run_ite, run_bind, run_pure]
  split
  · exact nbSlot_setRollFlag c 0
  · rfl

theorem clearRollFlag_misc (bc : BootControl) (w : World) (ret : Ret) (hw : w.misc = c)
    (hcall : call = .create ∨ call = .init) :
    MiscStep bc call ret c ((clearRollFlag io c).run w).st.misc := by
  have hcommits : call.commits ≠ true := by rcases hcall with rfl | rfl <;> simp [commits]
  simp only [clearRollFlag, run_ite, run_bind, run_pure]
  split
  · exact miscStep_save hw (.roll _ hcall) fun h => absurd h hcommits
  · exact .inl ⟨hw, fun h => absurd h hcommits⟩

theorem init_again (h : bc.initialized = true) : (init io bc).run w = ⟨(true, bc), w, []⟩ := by
  simp [init, if_pos h]

theorem init_misc (bc : BootControl) (w : World) (ret : Ret) (hcrc : w.misc.CrcValid)
    (hcall : call = .create ∨ call = .init) :
    MiscStep bc call ret w.misc ((init io bc).run w).st.misc := by
  have hsame : ∀ {c}, c = w.misc → MiscStep bc call ret w.misc c := fun h =>
    .inl ⟨h, by rcases hcall with rfl | rfl <;> simp [commits]⟩
  simp only [init, run_ite]
  split
  · exact hsame rfl
  split
  · exact hsame rfl
  split
  · exact hsame rfl
  simp only [run_bind, run_load]
  split
  · exact hsame rfl
  · next c hc =>
    obtain ⟨-, rfl⟩ : _ ∧ w.misc = c := by simpa using hc
    simp only [initFrom, run_bind, validateBlock_valid io _ w hcrc, run_ite, run_pure]
    split
    · exact hsame (initMiscVirtualAb_misc io w)
    · exact clearRollFlag_misc io bc _ ret (initMiscVirtualAb_misc io w) hcall

theorem init_object {o : BootControl} (hfresh : bc.initialized = false) (hcrc : w.misc.CrcValid)
    (hok : ((init io bc).run w).val = (true, o)) :
    o.initialized = true ∧ o.miscDevice ≠ "" ∧ o.numSlots = w.misc.nbSlot.toNat ∧
      slotSuffixToIndex (io.getProperty "ro.boot.slot_suffix") = some o.currentSlot := by
  simp only [init, run_ite, hfresh] at hok
  split at hok
  · contradiction
  split at hok
  · simp at hok
  split at hok
  · simp at hok
  next cur hcur =>
  simp only [run_bind, run_load] at hok
  split at hok
  · simp at hok
  · next c hc =>
    obtain ⟨⟨hdev, -⟩, rfl⟩ : _ ∧ w.misc = c := by simpa using hc
    simp only [initFrom, run_bind, validateBlock_valid io _ w hcrc, run_ite, run_pure] at hok
    split at hok
    · simp at hok
    · obtain rfl := (Prod.mk.inj hok).2
      exact ⟨rfl, hdev, congrArg BitVec.toNat (clearRollFlag_nbSlot io _ _), hcur⟩

/-! ## One step of the HAL -/

theorem perform_misc (bc : BootControl) (w : World) (hcrc : w.misc.CrcValid) (call : Call) :
    MiscStep bc call ((perform io bc call).run w).val.1 w.misc
      ((perform io bc call).run w).st.misc := by
  cases call with
  | create => exact init_misc io bc w _ hcrc (.inl rfl)
  | init => exact init_misc io bc w _ hcrc (.inr rfl)
  | markBootSuccessful => exact markBootSuccessful_misc io bc w
  | getActiveBootSlot =>
    exact .inl ⟨congrArg World.misc (getActiveBootSlot_st io bc w), by simp [commits]⟩
  | setActiveBootSlot slot => exact setActiveBootSlot_misc io bc slot w
  | setSlotAsUnbootable slot => exact setSlotAsUnbootable_misc io bc slot w
  | isSlotBootable slot =>
    exact .inl ⟨congrArg World.misc (isSlotBootable_st io bc slot w), by simp [commits]⟩
  | isSlotMarkedSuccessful slot => exact isSlotMarkedSuccessful_misc io bc slot w _
  | setSnapshotMergeStatus status => exact setSnapshotMergeStatus_misc io bc status w _

end AmlogicHal.Boot
