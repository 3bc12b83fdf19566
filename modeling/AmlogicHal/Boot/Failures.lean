import AmlogicHal.Boot.Runs

/-!
# Calls of the boot control HAL that fail

`SetActiveBootSlot` writes variables of the u-boot environment first and saves the control block
last. Nothing takes the variables back when a later step fails.

* `setActiveBootSlot_atomic_iff`: a call leaves no trace when it fails exactly if all its steps
  succeed, or every variable it can set has its new value already. The control block never changes
  in a call that fails.
* `failedImage_setsUpdateDt`, `failedSave_setsWriteBoot`: two calls that fail and change a variable.

`Init` marks the object as initialized before it has finished, and ignores the result of its saves.

* `init_slots_exact`: in every sequence of `Init` calls in which a call that has read the block
  comes to its end and finds or leaves a valid block on disk, the number of slots is that of the
  block.
* `failedInit_noSlots`: if such a call fails, all later ones return true, and no slot is valid.
* `unsavedDefault_notOnDisk`: if the default block cannot be saved, its number of slots is taken all
  the same.
-/

namespace AmlogicHal.Boot

open BootloaderControl Traced Bool

/-! ## SetActiveBootSlot -/

/-- The variables that a call of `SetActiveBootSlot` sets, with their values, once it has the
block. -/
def envWrites (io : Io) (w : World) : List (String × String) :=
  if io.updating = false then []
  else
    match io.gptMode with
    | .failed => []
    | .gpt => if w.env "write_boot" = some "0" then [("write_boot", "1")] else []
    | .dts =>
      if io.writeBootloaderImg = true then
        [("reboot_status", "reboot_next"), ("expect_index", "0"), ("update_env", "1"),
          ("update_dt", "1")]
      else [("update_dt", "1")]

/-- The environment after some writes, of which those that `set` refuses have no effect. -/
def setVariables (set : String → Bool) :
    List (String × String) → (String → Option String) → String → Option String
  | [], env => env
  | x :: xs, env =>
    setVariables set xs (if set x.1 = true then Function.update env x.1 (some x.2) else env)

variable {set : String → Bool} (io : Io)

theorem setVariables_other {name : String} :
    ∀ {xs : List (String × String)} {env : String → Option String}, name ∉ xs.map Prod.fst →
      setVariables set xs env name = env name
  | [], _, _ => rfl
  | x :: xs, env, h => by
    obtain ⟨hne, hnot⟩ := not_or.mp (mt List.mem_cons.mpr h)
    rw [setVariables, setVariables_other hnot]
    split
    · exact Function.update_of_ne hne _ _
    · rfl

/-- Writes to different variables change nothing exactly if each of them is refused or finds its
value. -/
theorem setVariables_eq_self_iff :
    ∀ {xs : List (String × String)} {env : String → Option String}, (xs.map Prod.fst).Nodup →
      (setVariables set xs env = env ↔ ∀ x ∈ xs, set x.1 = true → env x.1 = some x.2)
  | [], _, _ => by simp [setVariables]
  | x :: xs, env, h => by
    obtain ⟨hnot, hnodup⟩ := List.nodup_cons.mp h
    rw [List.forall_mem_cons, setVariables]
    by_cases hset : set x.1 = true
    · rw [if_pos hset]
      constructor
      · intro heq
        have hx : env x.1 = some x.2 := by
          rw [← congrFun heq x.1, setVariables_other hnot, Function.update_self]
        rw [← hx, Function.update_eq_self] at heq
        exact ⟨fun _ => hx, (setVariables_eq_self_iff hnodup).mp heq⟩
      · rintro ⟨hx, hxs⟩
        rw [← hx hset, Function.update_eq_self]
        exact (setVariables_eq_self_iff hnodup).mpr hxs
    · rw [if_neg hset, setVariables_eq_self_iff hnodup]
      exact (and_iff_right fun h => absurd h hset).symm

theorem envWrites_nodup (w : World) : ((envWrites io w).map Prod.fst).Nodup := by
  unfold envWrites
  split
  · exact List.nodup_nil
  · cases io.gptMode with
    | failed => exact List.nodup_nil
    | gpt => dsimp only; split <;> decide
    | dts => dsimp only; split <;> decide

theorem setBootloaderEnvCommon_env (name value : String) (w : World) :
    ((setBootloaderEnvCommon io name value).run w).st.env =
      setVariables io.setEnv [(name, value)] w.env := by
  simp only [setBootloaderEnvCommon, run_modify, setVariables]
  split <;> rfl

theorem prepareBootloader_env (w : World) :
    ((prepareBootloader io).run w).st.env = setVariables io.setEnv (envWrites io w) w.env := by
  unfold prepareBootloader envWrites
  cases hup : io.updating with
  | false => cases io.gptMode <;> rfl
  | true =>
    cases io.gptMode with
    | failed => rfl
    | gpt =>
      simp only [prepareGpt, run_read, run_ite, if_true]
      split
      · exact setBootloaderEnvCommon_env ..
      · rfl
    | dts =>
      simp only [prepareDts, setBootloaderIndex, run_ite, if_true]
      split
      · simp only [run_bind, run_pure, setBootloaderEnvCommon_env]
        rfl
      · exact setBootloaderEnvCommon_env ..

/-- The call leaves the block and the environment as they were if it returns false. -/
def Atomic (io : Io) (bc : BootControl) (slot : Nat) (w : World) : Prop :=
  let r := (setActiveBootSlot io bc slot).run w
  r.val = .bool false → r.st.misc = w.misc ∧ r.st.env = w.env

/-- The call has the block, and sets variables that do not have their new values yet. -/
def ChangesEnv (io : Io) (bc : BootControl) (slot : Nat) (w : World) : Prop :=
  bc.isValidSlot slot = true ∧ bc.miscDevice ≠ "" ∧ io.load = true ∧
    ∃ x ∈ envWrites io w, io.setEnv x.1 = true ∧ w.env x.1 ≠ some x.2

/-- The slot is valid, the block can be loaded and saved, and the partition table is known; in dts
mode a real update can write the bootloader image. -/
def Succeeds (io : Io) (bc : BootControl) (slot : Nat) : Prop :=
  bc.isValidSlot slot = true ∧ bc.miscDevice ≠ "" ∧ io.load = true ∧ io.gptMode ≠ .failed ∧
    (io.gptMode = .dts → io.updating = true → io.writeBootloaderImg = true) ∧ io.save = true

variable (bc : BootControl)

theorem prepareBootloader_val (w : World) : ((prepareBootloader io).run w).val = true ↔
    io.gptMode ≠ .failed ∧
    (io.gptMode = .dts → io.updating = true → io.writeBootloaderImg = true) := by
  unfold prepareBootloader
  cases io.gptMode with
  | failed => simp
  | gpt =>
    simp only [prepareGpt, run_ite, run_read]
    split
    · split <;> simp
    · simp
  | dts =>
    simp only [prepareDts, setBootloaderIndex, run_ite]
    split
    · next hup => split <;> simp_all
    · next hup => simp [hup]

theorem setActiveBootSlot_false_iff (slot : Nat) (w : World) :
    ((setActiveBootSlot io bc slot).run w).val = .bool false ↔ ¬ Succeeds io bc slot := by
  simp only [setActiveBootSlot, run_ite, run_bind, run_load]
  by_cases hvalid : bc.isValidSlot slot = true
  · rw [if_neg (by simp [hvalid])]
    by_cases hload : bc.miscDevice ≠ "" ∧ io.load = true
    · rw [if_pos hload]
      simp only [run_bind, run_ite, run_pure, run_updateAndSave]
      split
      · next hprepared =>
        obtain ⟨hmode, himage⟩ := (prepareBootloader_val io w).mp hprepared
        have hsave : Succeeds io bc slot ↔ io.save = true :=
          ⟨fun h => h.2.2.2.2.2, fun h => ⟨hvalid, hload.1, hload.2, hmode, himage, h⟩⟩
        rw [hsave]
        simp
      · next hprepared =>
        rw [prepareBootloader_val] at hprepared
        exact iff_of_true rfl fun h => hprepared ⟨h.2.2.2.1, h.2.2.2.2.1⟩
    · rw [if_neg hload]
      exact iff_of_true rfl fun h => hload ⟨h.2.1, h.2.2.1⟩
  · rw [if_pos (eq_false_iff.mpr hvalid)]
    exact iff_of_true rfl fun h => hvalid h.1

theorem setActiveBootSlot_env (slot : Nat) (w : World) :
    ((setActiveBootSlot io bc slot).run w).st.env =
      if bc.isValidSlot slot = true ∧ bc.miscDevice ≠ "" ∧ io.load = true then
        setVariables io.setEnv (envWrites io w) w.env
      else w.env := by
  simp only [setActiveBootSlot, run_ite, run_bind, run_load]
  by_cases hvalid : bc.isValidSlot slot = true
  · by_cases hload : bc.miscDevice ≠ "" ∧ io.load = true
    · rw [if_neg (by simp [hvalid]), if_pos hload, if_pos ⟨hvalid, hload⟩, ← prepareBootloader_env]
      simp only [run_bind, run_ite, run_pure, run_updateAndSave]
      obtain ⟨-, hst⟩ := activate_run bc slot w.misc ((prepareBootloader io).run w).st
      split
      · rw [hst]
        split <;> rfl
      · rfl
    · rw [if_neg (by simp [hvalid]), if_neg hload, if_neg fun h => hload h.2]
      rfl
  · rw [if_pos (eq_false_iff.mpr hvalid), if_neg fun h => hvalid h.1]
    rfl

variable {w : World}

theorem setActiveBootSlot_failed_misc {io : Io} {bc : BootControl} {slot : Nat}
    (h : ((setActiveBootSlot io bc slot).run w).val = .bool false) :
    ((setActiveBootSlot io bc slot).run w).st.misc = w.misc := by
  cases setActiveBootSlot_misc io bc slot w with
  | inl hsame => exact hsame.1
  | inr hedit =>
    obtain ⟨_, -, -, hret⟩ := hedit
    rw [h] at hret
    exact absurd (hret rfl) (by decide)

theorem setActiveBootSlot_atomic_iff (io : Io) (bc : BootControl) (slot : Nat) (w : World) :
    Atomic io bc slot w ↔ (Succeeds io bc slot ∨ ¬ ChangesEnv io bc slot w) := by
  have henv : ((setActiveBootSlot io bc slot).run w).st.env = w.env ↔
      ¬ ChangesEnv io bc slot w := by
    rw [setActiveBootSlot_env]
    by_cases hblock : bc.isValidSlot slot = true ∧ bc.miscDevice ≠ "" ∧ io.load = true
    · rw [if_pos hblock, setVariables_eq_self_iff (envWrites_nodup io w)]
      constructor
      · rintro hall ⟨-, -, -, x, hx, hset, hne⟩
        exact hne (hall x hx hset)
      · intro hno x hx hset
        by_contra hne
        exact hno ⟨hblock.1, hblock.2.1, hblock.2.2, x, hx, hset, hne⟩
    · rw [if_neg hblock]
      exact iff_of_true rfl fun h => hblock ⟨h.1, h.2.1, h.2.2.1⟩
  have hfalse := setActiveBootSlot_false_iff io bc slot w
  constructor
  · intro hatomic
    by_cases hval : ((setActiveBootSlot io bc slot).run w).val = .bool false
    · exact .inr (henv.mp (hatomic hval).2)
    · exact .inl (not_not.mp (mt hfalse.mpr hval))
  · intro hor hval
    cases hor with
    | inl hsucceeds => exact absurd hsucceeds (hfalse.mp hval)
    | inr hno => exact ⟨setActiveBootSlot_failed_misc hval, henv.mpr hno⟩

/-- An object as `Init` leaves it on a device with two slots. -/
def twoSlots : BootControl := ⟨true, "/dev/block/by-name/misc", 2, 0⟩

/-- In dts mode, with an image that cannot be written. -/
theorem failedImage_setsUpdateDt :
    let io := { okIo with gptMode := .dts, writeBootloaderImg := false }
    let r := (setActiveBootSlot io twoSlots 1).run (zeroWorld 2)
    (zeroWorld 2).misc.CrcValid ∧ r.val = .bool false ∧ (zeroWorld 2).env "update_dt" = none ∧
      r.st.env "update_dt" = some "1" :=
  ⟨zeroWorld_crcValid 2, by decide⟩

/-- On a device with a GPT, with a block that cannot be saved. -/
theorem failedSave_setsWriteBoot :
    let w := { zeroWorld 2 with env := Function.update (fun _ => none) "write_boot" (some "0") }
    let r := (setActiveBootSlot { okIo with save := false } twoSlots 1).run w
    r.val = .bool false ∧ r.st.env "write_boot" = some "1" := by
  decide +kernel

/-! ## Init -/

/-- `Init` calls on one object. -/
def initMachine : Machine (World × BootControl) Io Bool where
  step s io :=
    let r := (Boot.init io s.2).run s.1
    ((r.st, r.val.2), r.val.1)

/-- The block on disk is valid, and the object has its number of slots. -/
def SlotsExact (s : World × BootControl) : Prop :=
  s.1.misc.CrcValid ∧ s.2.numSlots = s.1.misc.nbSlot.toNat

/-- If the call returns true, the number of slots is that of a valid block on disk, and the valid
slots are those of the block. -/
def ReportsSlots (s : World × BootControl) (io : Io) : Prop :=
  (initMachine.step s io).2 = true →
    SlotsExact (initMachine.step s io).1 ∧
      ∀ slot, (initMachine.step s io).1.2.isValidSlot slot = true ↔
        slot < kMaxNumSlots ∧ slot < (initMachine.step s io).1.1.misc.nbSlot.toNat

/-- `Init` gets as far as to read the block. -/
def Io.loads (io : Io) : Prop :=
  (slotSuffixToIndex (io.getProperty "ro.boot.slot_suffix")).isSome = true ∧ io.blkDevice ≠ "" ∧
    io.load = true

/-- The message for virtual A/B updates is there or can be written. -/
def Io.virtualAbReady (io : Io) (w : World) : Bool :=
  io.readVirtualAb && (w.virtualAb.header || io.writeVirtualAb)

/-- A call that reads the block comes to its end, and there is a valid block on disk then. -/
def Completes (s : World × BootControl) (io : Io) : Prop :=
  s.2.initialized = false → io.loads →
    io.virtualAbReady s.1 = true ∧ (s.1.misc.CrcValid ∨ io.save = true)

/-- The block `c` that `Init` works with is the one on disk, as far as the number of slots goes. -/
def OnDisk (w : World) (c : BootloaderControl) : Prop :=
  w.misc.CrcValid ∧ w.misc.nbSlot = c.nbSlot

variable {c : BootloaderControl}

theorem onDisk_save (saved : Bool) {c' : BootloaderControl} (h : OnDisk w c)
    (hnb : c'.nbSlot = c.nbSlot) :
    OnDisk ((updateAndSaveBootloaderControl saved c').run w).st c' := by
  cases saved with
  | true => exact ⟨crcValid_updateCrc c', nbSlot_updateCrc c'⟩
  | false => exact ⟨h.1, h.2.trans hnb.symm⟩

theorem validateBlock_onDisk (w : World) (h : w.misc.CrcValid ∨ io.save = true) :
    OnDisk ((validateBlock io bc w.misc).run w).st ((validateBlock io bc w.misc).run w).val := by
  by_cases hcrc : w.misc.CrcValid
  · rw [validateBlock_valid io bc w hcrc]
    exact ⟨hcrc, rfl⟩
  · have hsave := h.resolve_left hcrc
    simp only [validateBlock, if_neg hcrc, run_bind, run_pure, run_updateAndSave, hsave, if_true]
    exact ⟨crcValid_updateCrc _, nbSlot_updateCrc _⟩

theorem clearRollFlag_onDisk (h : OnDisk w c) :
    OnDisk ((clearRollFlag io c).run w).st ((clearRollFlag io c).run w).val := by
  simp only [clearRollFlag, run_ite, run_bind, run_pure]
  split
  · exact onDisk_save io.saveRoll h (nbSlot_setRollFlag c 0)
  · exact h

theorem initMiscVirtualAb_val :
    ((initMiscVirtualAbMessageIfNeeded io).run w).val = io.virtualAbReady w := by
  unfold initMiscVirtualAbMessageIfNeeded Io.virtualAbReady
  rw [run_read]
  cases io.readVirtualAb with
  | false => rfl
  | true =>
    cases hheader : w.virtualAb.header with
    | true => rfl
    | false => cases io.writeVirtualAb <;> rfl

theorem fillSlots_st (nbSlot currentSlot : Nat) : ∀ (l : List Nat) (c : BootloaderControl),
    ((fillSlots nbSlot currentSlot l c).run w).st = w := by
  intro l
  induction l with
  | nil => exact fun c => rfl
  | cons slot rest ih => exact fun c => ih _

theorem validateBlock_virtualAb : ((validateBlock io bc c).run w).st.virtualAb = w.virtualAb := by
  have hdefault : ((initDefaultBootloaderControl io bc).run w).st = w := by
    simp [initDefaultBootloaderControl, fillSlots_st]
  simp only [validateBlock, run_ite, run_bind, run_pure, run_updateAndSave, hdefault]
  split
  · rfl
  · split <;> rfl

theorem initFrom_spec (w : World) :
    let r := (initFrom io bc w.misc).run w
    r.val.1 = io.virtualAbReady w ∧ r.val.2.initialized = true ∧
      (r.val.1 = false → r.val.2.numSlots = bc.numSlots) ∧
      (r.val.1 = true → w.misc.CrcValid ∨ io.save = true → SlotsExact (r.st, r.val.2)) := by
  intro r
  have hready : io.virtualAbReady ((validateBlock io
      { bc with miscDevice := io.blkDevice, initialized := true } w.misc).run w).st =
      io.virtualAbReady w := by
    rw [Io.virtualAbReady, validateBlock_virtualAb]
    rfl
  have hr : r = (initFrom io bc w.misc).run w := rfl
  simp only [initFrom, run_bind, initMiscVirtualAb_val, hready, run_ite, run_pure] at hr
  cases hval : io.virtualAbReady w with
  | false =>
    rw [hval, if_pos rfl] at hr
    rw [hr]
    exact ⟨rfl, rfl, fun _ => rfl, fun h => absurd h false_ne_true⟩
  | true =>
    rw [hval, if_neg (by decide)] at hr
    rw [hr]
    refine ⟨rfl, rfl, fun h => absurd h.symm false_ne_true, fun _ hsave => ?_⟩
    have hblock :=
      validateBlock_onDisk io { bc with miscDevice := io.blkDevice, initialized := true } w hsave
    have hsame := initMiscVirtualAb_misc io ((validateBlock io
      { bc with miscDevice := io.blkDevice, initialized := true } w.misc).run w).st
    have hmessage : OnDisk ((initMiscVirtualAbMessageIfNeeded io).run ((validateBlock io
        { bc with miscDevice := io.blkDevice, initialized := true } w.misc).run w).st).st _ :=
      ⟨hsame.symm ▸ hblock.1, hsame.symm ▸ hblock.2⟩
    obtain ⟨hcrc, hnb⟩ := clearRollFlag_onDisk io hmessage
    exact ⟨hcrc, congrArg BitVec.toNat hnb.symm⟩

theorem init_loaded {io : Io} (w : World) (hfresh : bc.initialized = false) (h : io.loads) :
    ∃ current, (init io bc).run w =
      (initFrom io { bc with currentSlot := current } w.misc).run w := by
  obtain ⟨hsuffix, hdev, hload⟩ := h
  obtain ⟨current, hcurrent⟩ := Option.isSome_iff_exists.mp hsuffix
  have hproperty : io.getProperty "ro.boot.slot_suffix" ≠ "" := by
    intro hempty
    rw [hempty] at hcurrent
    exact absurd hcurrent (by decide +revert)
  refine ⟨current, ?_⟩
  simp only [init, hfresh, false_eq_true, if_false, if_neg hproperty, hcurrent]
  rw [run_bind, run_load_ok w hdev hload]
  rfl

/-- A call that does not get as far as to read the block leaves the object as it was, but for the
current slot. -/
theorem init_notLoaded {io : Io} {bc : BootControl} (w : World) (hfresh : bc.initialized = false)
    (h : ¬ io.loads) :
    ∃ current, (init io bc).run w = ⟨(false, { bc with currentSlot := current }), w, []⟩ := by
  obtain ⟨initialized, miscDevice, numSlots, currentSlot⟩ := bc
  subst hfresh
  simp only [init, false_eq_true, if_false, run_ite]
  split
  · exact ⟨currentSlot, rfl⟩
  · cases hcurrent : slotSuffixToIndex _ with
    | none => exact ⟨currentSlot, rfl⟩
    | some current =>
      have hno : ¬ (io.blkDevice ≠ "" ∧ io.load = true) :=
        fun hload => h ⟨by rw [hcurrent]; rfl, hload⟩
      refine ⟨current, ?_⟩
      rw [run_bind, run_load, if_neg hno]
      rfl

theorem SlotsExact.valid_iff {s : World × BootControl} (h : SlotsExact s) (slot : Nat) :
    s.2.isValidSlot slot = true ↔ slot < kMaxNumSlots ∧ slot < s.1.misc.nbSlot.toNat := by
  rw [isValidSlot_iff, h.2]

theorem init_slots_step (s : World × BootControl) (io : Io)
    (hs : s.2.initialized = true → SlotsExact s) (hc : Completes s io) : ReportsSlots s io ∧
      ((initMachine.step s io).1.2.initialized = true → SlotsExact (initMachine.step s io).1) := by
  obtain ⟨w, bc⟩ := s
  have hstep : ((initMachine.step (w, bc) io).2 = true →
      (initMachine.step (w, bc) io).1.2.initialized = true) ∧
      ((initMachine.step (w, bc) io).1.2.initialized = true →
        SlotsExact (initMachine.step (w, bc) io).1) := by
    unfold initMachine
    dsimp only
    cases hfresh : bc.initialized with
    | true =>
      rw [init_again io w hfresh]
      exact ⟨fun _ => hfresh, hs⟩
    | false =>
      by_cases hload : io.loads
      · obtain ⟨current, hrun⟩ := init_loaded _ w hfresh hload
        obtain ⟨hval, hinit, -, hexact⟩ := initFrom_spec io { bc with currentSlot := current } w
        obtain ⟨hready, hsave⟩ := hc hfresh hload
        rw [hrun]
        exact ⟨fun _ => hinit, fun _ => hexact (hval.trans hready) hsave⟩
      · obtain ⟨current, hrun⟩ := init_notLoaded w hfresh hload
        rw [hrun]
        exact ⟨fun h => absurd h false_ne_true, fun h => absurd (hfresh.symm.trans h) false_ne_true⟩
  exact ⟨fun htrue => ⟨hstep.2 (hstep.1 htrue), (hstep.2 (hstep.1 htrue)).valid_iff⟩, hstep.2⟩

theorem init_slots_exact (w : World) (es : List Io) (h : initMachine.Always Completes (w, {}) es) :
    initMachine.Always ReportsSlots (w, {}) es := by
  have hnew : ({} : BootControl).initialized = true → SlotsExact (w, {}) := fun h =>
    absurd h false_ne_true
  exact Machine.Always.of_invariant (I := fun s => s.2.initialized = true → SlotsExact s)
    init_slots_step hnew h

/-- Two calls on a device on which nothing fails. -/
theorem init_slots_exact_two : initMachine.Always ReportsSlots (zeroWorld 2, {}) [okIo, okIo] := by
  have hready : ∀ w, okIo.virtualAbReady w = true := fun w => or_true _
  exact init_slots_exact _ _
    ⟨fun _ _ => ⟨hready _, .inr rfl⟩, fun _ _ => ⟨hready _, .inr rfl⟩, trivial⟩

theorem failedInit_noSlots (hload : io.loads) (hready : io.virtualAbReady w = false) :
    (initMachine.step (w, {}) io).2 = false ∧
      ∀ es, initMachine.Always
        (fun s io => (initMachine.step s io).2 = true ∧
          ∀ slot, (initMachine.step s io).1.2.isValidSlot slot = false)
        (initMachine.step (w, {}) io).1 es := by
  obtain ⟨current, hrun⟩ := init_loaded {} w rfl hload
  obtain ⟨hval, hinit, hnum, -⟩ := initFrom_spec io { currentSlot := current } w
  have hfalse := hval.trans hready
  have hempty : ∀ s io, s.2.initialized = true ∧ s.2.numSlots = 0 →
      initMachine.step s io = (s, true) := by
    rintro ⟨w, bc⟩ io ⟨h, -⟩
    unfold initMachine
    dsimp only
    rw [init_again io w h]
  have hfirst : (initMachine.step (w, {}) io).2 = false ∧
      (initMachine.step (w, {}) io).1.2.initialized = true ∧
      (initMachine.step (w, {}) io).1.2.numSlots = 0 := by
    unfold initMachine
    dsimp only
    rw [hrun]
    exact ⟨hfalse, hinit, hnum hfalse⟩
  refine ⟨hfirst.1, fun es => Machine.always_of_invariant
    (I := fun s => s.2.initialized = true ∧ s.2.numSlots = 0) (fun s io hs => ?_)
      (fun s io hs => ?_) es _
    hfirst.2⟩
  · rw [hempty s io hs]
    refine ⟨rfl, fun slot => ?_⟩
    rw [BootControl.isValidSlot, hs.2, decide_eq_false (Nat.not_lt_zero slot), Bool.and_false]
  · rw [hempty s io hs]
    exact hs

/-- The message for virtual A/B updates cannot be read. -/
def unreadableIo : Io := { okIo with readVirtualAb := false }

/-- The message cannot be read in the first of two calls. The second one returns true, the block on
disk is valid and has two slots, and the object has none. -/
theorem secondInit_noSlots :
    let r := initMachine.exec (zeroWorld 2, {}) [unreadableIo, okIo]
    r.1.map Prod.snd = [false, true] ∧ r.2.1.misc = (zeroWorld 2).misc ∧
      (zeroWorld 2).misc.nbSlot = 2 ∧ r.2.2.numSlots = 0 := by
  have hloads : unreadableIo.loads := ⟨rfl, by decide, rfl⟩
  obtain ⟨current, hrun⟩ := init_loaded {} (zeroWorld 2) rfl hloads
  have hfirst : initMachine.step (zeroWorld 2, {}) unreadableIo =
      ((zeroWorld 2, ⟨true, unreadableIo.blkDevice, 0, current⟩), false) := by
    unfold initMachine
    dsimp only
    rw [hrun]
    simp only [initFrom, run_bind, validateBlock_valid _ _ _ (zeroWorld_crcValid 2)]
    rfl
  have hsecond : ∀ bc : BootControl, bc.initialized = true →
      initMachine.step (zeroWorld 2, bc) okIo = ((zeroWorld 2, bc), true) := by
    intro bc h
    unfold initMachine
    dsimp only
    rw [init_again okIo _ h]
  intro r
  have hr : r = ([(unreadableIo, false), (okIo, true)],
      (zeroWorld 2, ⟨true, unreadableIo.blkDevice, 0, current⟩)) := by
    change initMachine.exec _ _ = _
    simp only [Machine.exec, hfirst, hsecond]
  rw [hr]
  exact ⟨rfl, rfl, (nbSlot_updateCrc _).trans (by decide), rfl⟩

theorem unsavedDefault_notOnDisk (hload : io.loads) (hready : io.virtualAbReady w = true)
    (hsave : io.save = false) (hroll : io.saveRoll = false) :
    (initMachine.step (w, {}) io).2 = true ∧ (initMachine.step (w, {}) io).1.1.misc = w.misc := by
  obtain ⟨current, hrun⟩ := init_loaded {} w rfl hload
  obtain ⟨hval, -⟩ := initFrom_spec io { currentSlot := current } w
  have hblock : ∀ bc, ((validateBlock io bc w.misc).run w).st.misc = w.misc := by
    intro bc
    simp only [validateBlock, run_ite, run_bind, run_pure, run_updateAndSave, hsave,
      initDefaultBootloaderControl, fillSlots_st, false_eq_true, if_false]
    split <;> rfl
  have hflag : ∀ c w, ((clearRollFlag io c).run w).st = w := by
    intro c w
    simp only [clearRollFlag, run_ite, run_bind, run_pure, run_updateAndSave, hroll, false_eq_true,
      if_false]
    split <;> rfl
  unfold initMachine
  dsimp only
  rw [hrun]
  refine ⟨hval.trans hready, ?_⟩
  simp only [initFrom, run_bind, run_ite, run_pure, hflag]
  split
  · exact (initMiscVirtualAb_misc io _).trans (hblock _)
  · exact (initMiscVirtualAb_misc io _).trans (hblock _)

end AmlogicHal.Boot
