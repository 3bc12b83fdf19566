import AmlogicHal.Boot.Layout
import AmlogicHal.Lib.Machine
import AmlogicHal.Lib.Traced

/-!
# The boot control operations

`libboot_control.cpp`: every operation loads the control block from the misc partition, works on the
copy and saves it with a new checksum. The records of the traced computations are the indices used
into `slot_info`.

What the operations ask the system for (property values, whether the block device could be read or
written, whether the reboot call came back) is the argument `Io`. A save that fails leaves the
partition as it was.

`halMachine` is the HAL as its clients see it: the service checks the result of `Init` when it is
constructed, and `libboot_control.h` says that the HAL should fail to load when
`InitMiscVirtualAbMessageIfNeeded` fails, so there is an object to call only after an `Init` that
returned true.
-/

namespace AmlogicHal.Boot

open BootloaderControl

/-! ## The environment -/

/-- The result of `stat` on a boot partition. -/
inductive StatResult where
  | found
  | missing
  | failed
deriving DecidableEq, Repr

/-- The result of `get_gpt_mode`. -/
inductive GptMode where
  | failed
  | gpt
  | dts
deriving DecidableEq, Repr

/-- `MergeStatus` of the boot HAL. -/
inductive MergeStatus where
  | none
  | unknown
  | snapshotted
  | merging
  | cancelled
deriving DecidableEq, Repr

def MergeStatus.toByte : MergeStatus → BitVec 8
  | .none => 0
  | .unknown => 1
  | .snapshotted => 2
  | .merging => 3
  | .cancelled => 4

/-- `misc_virtual_ab_message`. `header` says that version and magic are the expected ones. -/
structure MiscVirtualAbMessage where
  header : Bool
  mergeStatus : BitVec 8
  sourceSlot : Nat
deriving DecidableEq, Repr

/-- What lies outside the HAL process and is kept between calls. -/
structure World where
  misc : BootloaderControl
  virtualAb : MiscVirtualAbMessage
  env : String → Option String
  /-- `sys_boot_complete` reads "1". -/
  sysBootComplete : Bool

structure Io where
  getProperty : String → String
  /-- `get_bootloader_message_blk_device`, empty when there is none. -/
  blkDevice : String
  /-- `LoadBootloaderControl` succeeds. -/
  load : Bool
  /-- `UpdateAndSaveBootloaderControl` succeeds. -/
  save : Bool
  /-- The save of `Init` that clears the roll flag succeeds. -/
  saveRoll : Bool
  readVirtualAb : Bool
  writeVirtualAb : Bool
  /-- `stat` on the boot partition of a slot. -/
  statBoot : Nat → StatResult
  /-- `sys_boot_complete` can be opened. -/
  teeInfo : Bool
  /-- `android_reboot` takes the device down. -/
  reboot : Bool
  gptMode : GptMode
  writeBootloaderImg : Bool
  /-- Writing a variable of the u-boot environment succeeds. -/
  setEnv : String → Bool

inductive Ret where
  | bool (b : Bool)
  | slot (n : Nat)
  /-- The device goes down inside the call. -/
  | noReturn
  /-- There is no HAL object to call. -/
  | notLoaded
deriving DecidableEq, Repr

/-- The fields of class `BootControl`. -/
structure BootControl where
  initialized : Bool := false
  miscDevice : String := ""
  numSlots : Nat := 0
  currentSlot : Nat := 0
deriving DecidableEq, Repr

/-- An operation of the library. It records the indices it uses into `slot_info`. -/
abbrev BootM := Traced Nat World

variable (io : Io)

/-- An access to `slot_info[i]`. -/
def touch (i : Nat) : BootM Unit := Traced.emit i

/-! ## The control block on disk -/

def loadBootloaderControl (miscDevice : String) : BootM (Option BootloaderControl) :=
  Traced.read fun w => pure (if miscDevice ≠ "" ∧ io.load = true then some w.misc else none)

def updateAndSaveBootloaderControl (saved : Bool) (c : BootloaderControl) : BootM Bool := do
  if saved = true then
    Traced.modify fun w => { w with misc := c.updateCrc }
    pure true
  else
    pure false

/-! ## Helpers of the operations -/

def getSysBootComplete (w : World) : Bool := io.teeInfo && w.sysBootComplete

def setSysBootComplete : BootM Unit :=
  Traced.modify fun w => if io.teeInfo = true then { w with sysBootComplete := true } else w

def setBootloaderEnvCommon (name value : String) : BootM Unit :=
  Traced.modify fun w =>
    if io.setEnv name = true then { w with env := Function.update w.env name (some value) } else w

def setBootloaderIndex (bootNum : String) : BootM Bool := do
  setBootloaderEnvCommon io "reboot_status" "reboot_next"
  setBootloaderEnvCommon io "expect_index" bootNum
  setBootloaderEnvCommon io "update_env" "1"
  pure true

def initMiscVirtualAbMessageIfNeeded : BootM Bool := Traced.read fun w => do
  if io.readVirtualAb = false then
    pure false
  else if w.virtualAb.header = true then
    pure true
  else if io.writeVirtualAb = true then
    Traced.modify fun w => { w with virtualAb := ⟨true, 0, 0⟩ }
    pure true
  else
    pure false

def setMiscVirtualAbMergeStatus (currentSlot : Nat) (status : MergeStatus) :
    BootM Bool := do
  if io.readVirtualAb = true ∧ io.writeVirtualAb = true then
    Traced.modify fun w =>
      { w with virtualAb := ⟨w.virtualAb.header, status.toByte, currentSlot⟩ }
    pure true
  else
    pure false

/-- `SlotSuffixToIndex`, with `none` for -1. -/
def slotSuffixToIndex (suffix : String) : Option Nat :=
  kSlotSuffixes.findIdx? (· == suffix)

/-! ## Init -/

/-- The loop over the boot partitions of `InitDefaultBootloaderControl`:
`last_existing_slot` and `first_missing_slot`. -/
def scanBootPartitions (stat : Nat → StatResult) : Int × Int :=
  (List.range kMaxNumSlots).foldl
    (fun acc slot =>
      match stat slot with
      | .found => ((slot : Int), acc.2)
      | .missing => if acc.2 = -1 then (acc.1, (slot : Int)) else acc
      | .failed => acc)
    (-1, -1)

/-- The number of slots that `InitDefaultBootloaderControl` settles on. -/
def defaultNbSlot (miscDevice : String) : BitVec 3 :=
  if '/' ∈ miscDevice.toList then
    let scan := scanBootPartitions io.statBoot
    if (scan.1 ≠ -1 ∧ scan.1 = scan.2 - 1) ∨ (scan.2 = -1 ∧ scan.1 = (kMaxNumSlots : Int) - 1) then
      BitVec.ofInt 3 (scan.1 + 1)
    else
      BitVec.ofNat 3 kMaxNumSlots
  else
    BitVec.ofNat 3 kMaxNumSlots

/-- The `slot_metadata entry` built for one slot. -/
def defaultEntry (nbSlot currentSlot slot : Nat) : BitVec 16 :=
  let entry : BitVec 16 :=
    if slot < nbSlot then
      BitField.setField 4 kDefaultBootAttempts (BitField.setField 0 (7#4) (0#16))
    else
      0#16
  if currentSlot = slot then BitField.setField 7 (1#1) entry else entry

def fillSlots (nbSlot currentSlot : Nat) : List Nat → BootloaderControl → BootM BootloaderControl
  | [], c => pure c
  | slot :: rest, c => do
    touch slot
    fillSlots nbSlot currentSlot rest
      (c.setSlotMetadata slot (defaultEntry nbSlot currentSlot slot))

/-- The first four bytes: the suffix of the current slot, NUL terminated. -/
def suffixBytes (currentSlot : Nat) : BitVec 32 :=
  if currentSlot < kMaxNumSlots then BitVec.ofNat 32 (0x5f + (0x61 + currentSlot) * 256) else 0

variable (bc : BootControl)

def initDefaultBootloaderControl : BootM BootloaderControl := do
  let nb := defaultNbSlot io bc.miscDevice
  let c : BootloaderControl := ((((BootloaderControl.mk 0).setSlotSuffix
    (suffixBytes bc.currentSlot)).setMagic bootCtrlMagic).setVersion bootCtrlVersion).setNbSlot nb
  let c ← fillSlots nb.toNat bc.currentSlot (List.range kMaxNumSlots) c
  pure ((c.setRecoveryTriesRemaining 0).setMergeFlag (-1)).updateCrc

/-- The part of `Init` that replaces an invalid block by the default one. -/
def validateBlock (c : BootloaderControl) :
    BootM BootloaderControl := do
  if c.CrcValid then
    pure c
  else
    let d ← initDefaultBootloaderControl io bc
    let _ ← updateAndSaveBootloaderControl io.save d
    pure d

/-- The part of `Init` that clears the roll flag. -/
def clearRollFlag (c : BootloaderControl) : BootM BootloaderControl := do
  if c.rollFlag = 1 then
    let _ ← updateAndSaveBootloaderControl io.saveRoll (c.setRollFlag 0)
    pure (c.setRollFlag 0)
  else
    pure c

/-- `Init` from the moment the block has been read. `initialized_` is set before the block is
validated, `num_slots_` only at the end. -/
def initFrom (c : BootloaderControl) : BootM (Bool × BootControl) := do
  let bc := { bc with miscDevice := io.blkDevice, initialized := true }
  let c ← validateBlock io bc c
  let ready ← initMiscVirtualAbMessageIfNeeded io
  if ready = false then
    pure (false, bc)
  else
    let c ← clearRollFlag io c
    pure (true, { bc with numSlots := c.nbSlot.toNat })

def init : BootM (Bool × BootControl) := do
  if bc.initialized = true then
    pure (true, bc)
  else if io.getProperty "ro.boot.slot_suffix" = "" then
    pure (false, bc)
  else
    match slotSuffixToIndex (io.getProperty "ro.boot.slot_suffix") with
    | none => pure (false, bc)
    | some current =>
      let bc := { bc with currentSlot := current }
      let loaded ← loadBootloaderControl io io.blkDevice
      match loaded with
      | none => pure (false, bc)
      | some c => initFrom io bc c

/-! ## Queries and updates -/

def BootControl.isValidSlot (slot : Nat) : Bool :=
  decide (slot < kMaxNumSlots) && decide (slot < bc.numSlots)

/-- The anti-rollback step of two operations: when it is due and the trusted side has not been
told yet, tell it. The value says whether the device has to reboot. -/
def rebootForArb (due : Bool) : BootM Bool := Traced.read fun w => do
  if due = true ∧ getSysBootComplete io w = false then
    setSysBootComplete io
    pure true
  else
    pure false

/-- `MarkBootSuccessful` up to the save: whether the device has to reboot, and the block to
save. -/
def markSuccessful (current : Nat) (c : BootloaderControl) :
    BootM (Bool × BootloaderControl) := do
  let c := (c.setMergeFlag 0).setFirstboot 0
  touch current
  let flag ← rebootForArb io (c.successfulBoot current == 0)
  touch current
  touch current
  pure (flag, (c.setSuccessfulBoot current 1).setTriesRemaining current 1)

def markBootSuccessful : BootM Ret := do
  let loaded ← loadBootloaderControl io bc.miscDevice
  match loaded with
  | none => pure (.bool false)
  | some c =>
    let r ← markSuccessful io bc.currentSlot c
    let saved ← updateAndSaveBootloaderControl io.save r.2
    -- `reboot_device` comes back only when the reboot call failed
    pure (if r.1 = true ∧ io.reboot = true then .noReturn else .bool saved)

/-- The loop of `GetActiveBootSlot`. -/
def findHighest (c : BootloaderControl) : List Nat → Nat → BitVec 4 → BootM Nat
  | [], active, _ => pure active
  | i :: rest, active, maxPriority => do
    touch i
    if c.priority i > maxPriority then
      touch i
      findHighest c rest i (c.priority i)
    else
      findHighest c rest active maxPriority

def getActiveBootSlot : BootM Ret := do
  let loaded ← loadBootloaderControl io bc.miscDevice
  match loaded with
  | none => pure (.slot 0)
  | some c =>
    touch bc.currentSlot
    let active ← findHighest c (List.range bc.numSlots) bc.currentSlot (c.priority bc.currentSlot)
    pure (.slot active)

/-- A real update: not called from a test, from fastbootd or in fastboot mode. -/
def Io.updating : Bool :=
  io.getProperty "ro.product.device" != "generic" &&
  io.getProperty "init.svc.fastbootd" != "running" &&
  io.getProperty "sys.usb.config" != "fastboot"

/-- The bootloader work of `SetActiveBootSlot` on a device with a GPT. -/
def prepareGpt : BootM Bool := Traced.read fun w => do
  if w.env "write_boot" = some "0" then
    setBootloaderEnvCommon io "write_boot" "1"
    pure true
  else
    pure true

/-- The bootloader work of `SetActiveBootSlot` on a device with a device tree table. The variable
`update_dt` is set even when the image could not be written. -/
def prepareDts : BootM Bool := do
  if io.writeBootloaderImg = true then
    let ret ← setBootloaderIndex io "0"
    setBootloaderEnvCommon io "update_dt" "1"
    pure ret
  else
    setBootloaderEnvCommon io "update_dt" "1"
    pure false

/-- The part of `SetActiveBootSlot` between the load and the change of the block: the value of
`ret`, where the early `return false` is false too. -/
def prepareBootloader : BootM Bool :=
  match io.gptMode with
  | .failed => pure false
  | .gpt => if io.updating = true then prepareGpt io else pure true
  | .dts => if io.updating = true then prepareDts io else pure true

def kActivePriority : BitVec 4 := 15

/-- The loop of `SetActiveBootSlot`: every other slot gets a lower priority. -/
def lowerOthers (slot : Nat) : List Nat → BootloaderControl → BootM BootloaderControl
  | [], c => pure c
  | i :: rest, c => do
    if i ≠ slot then
      touch i
      if c.priority i ≥ kActivePriority then
        touch i
        lowerOthers slot rest (c.setPriority i (kActivePriority - 1))
      else
        lowerOthers slot rest c
    else
      lowerOthers slot rest c

/-- The block that `SetActiveBootSlot` saves. -/
def activate (slot : Nat) (c : BootloaderControl) : BootM BootloaderControl := do
  let c ← lowerOthers slot (List.range bc.numSlots) c
  touch slot
  touch slot
  let c := (c.setPriority slot kActivePriority).setTriesRemaining slot 6
  if slot ≠ bc.currentSlot then
    touch slot
    pure (c.setVerityCorrupted slot 0)
  else
    pure c

def setActiveBootSlot (slot : Nat) : BootM Ret := do
  if bc.isValidSlot slot = false then
    pure (.bool false)
  else
    let loaded ← loadBootloaderControl io bc.miscDevice
    match loaded with
    | none => pure (.bool false)
    | some c =>
      let prepared ← prepareBootloader io
      if prepared = true then
        let c ← activate bc slot c
        let saved ← updateAndSaveBootloaderControl io.save c
        pure (.bool saved)
      else
        pure (.bool false)

def setSlotAsUnbootable (slot : Nat) : BootM Ret := do
  if bc.isValidSlot slot = false then
    pure (.bool false)
  else
    let loaded ← loadBootloaderControl io bc.miscDevice
    match loaded with
    | none => pure (.bool false)
    | some c =>
      touch slot
      touch slot
      let saved ← updateAndSaveBootloaderControl io.save
        ((c.setSuccessfulBoot slot 0).setTriesRemaining slot 0)
      pure (.bool saved)

def isSlotBootable (slot : Nat) : BootM Ret := do
  if bc.isValidSlot slot = false then
    pure (.bool false)
  else
    let loaded ← loadBootloaderControl io bc.miscDevice
    match loaded with
    | none => pure (.bool false)
    | some c =>
      touch slot
      pure (.bool (c.triesRemaining slot ≠ 0))

/-- The part of `IsSlotMarkedSuccessful` that runs once after the first boot. The value says that
the device goes down. Clearing `firstboot` does not change the metadata of a valid slot, so what
follows reads the block as it was loaded. -/
def finishFirstBoot (slot : Nat) (c : BootloaderControl) : BootM Bool :=
  if io.getProperty "sys.boot_completed" = "1" ∧ c.firstboot = 1 then do
    let _ ← updateAndSaveBootloaderControl io.save (c.setFirstboot 0)
    touch slot
    let flag ← rebootForArb io (c.successfulBoot slot == 1)
    pure (flag && io.reboot)
  else
    pure false

/-- The value that `IsSlotMarkedSuccessful` returns. -/
def markedSuccessful (slot : Nat) (c : BootloaderControl) : BootM Bool := do
  touch slot
  if c.successfulBoot slot ≠ 0 then
    touch slot
    pure (decide (c.triesRemaining slot ≠ 0))
  else
    pure false

def isSlotMarkedSuccessful (slot : Nat) : BootM Ret := do
  if bc.isValidSlot slot = false then
    pure (.bool false)
  else
    let loaded ← loadBootloaderControl io bc.miscDevice
    match loaded with
    | none => pure (.bool false)
    | some c =>
      let down ← finishFirstBoot io slot c
      if down = true then
        pure .noReturn
      else
        let ret ← markedSuccessful slot c
        pure (.bool ret)

/-- The part of `SetSnapshotMergeStatus` that works on the control block. -/
def saveMergeFlag (status : MergeStatus) : BootM Unit := do
  let loaded ← loadBootloaderControl io bc.miscDevice
  match loaded with
  | none => pure ()
  | some c =>
    let _ ← updateAndSaveBootloaderControl io.save (c.setMergeFlag status.toByte)
    pure ()

def setSnapshotMergeStatus (io : Io) (bc : BootControl) (status : MergeStatus) : BootM Ret := do
  saveMergeFlag io bc status
  let ok ← setMiscVirtualAbMergeStatus io bc.currentSlot status
  pure (.bool ok)

/-! ## The HAL -/

/-- The calls of the HAL's clients. `create` constructs the service, `init` calls `Init` again. -/
inductive Call where
  | create
  | init
  | markBootSuccessful
  | getActiveBootSlot
  | setActiveBootSlot (slot : Nat)
  | setSlotAsUnbootable (slot : Nat)
  | isSlotBootable (slot : Nat)
  | isSlotMarkedSuccessful (slot : Nat)
  | setSnapshotMergeStatus (status : MergeStatus)
deriving DecidableEq, Repr

def perform : Call → BootM (Ret × BootControl)
  | .create | .init => do
    let r ← Boot.init io bc
    pure (.bool r.1, r.2)
  | .markBootSuccessful => do
    let r ← Boot.markBootSuccessful io bc
    pure (r, bc)
  | .getActiveBootSlot => do
    let r ← Boot.getActiveBootSlot io bc
    pure (r, bc)
  | .setActiveBootSlot slot => do
    let r ← Boot.setActiveBootSlot io bc slot
    pure (r, bc)
  | .setSlotAsUnbootable slot => do
    let r ← Boot.setSlotAsUnbootable io bc slot
    pure (r, bc)
  | .isSlotBootable slot => do
    let r ← Boot.isSlotBootable io bc slot
    pure (r, bc)
  | .isSlotMarkedSuccessful slot => do
    let r ← Boot.isSlotMarkedSuccessful io bc slot
    pure (r, bc)
  | .setSnapshotMergeStatus status => do
    let r ← Boot.setSnapshotMergeStatus io bc status
    pure (r, bc)

structure Hal where
  world : World
  impl : Option BootControl

/-- What a call shows: its result and the indices it used into `slot_info`. -/
structure Output where
  ret : Ret
  touched : List Nat

/-- The object after a call: none when the device went down or the first `Init` failed. -/
def keepObject (call : Call) (ret : Ret) (bc : BootControl) : Option BootControl :=
  if ret = .noReturn ∨ (call = .create ∧ ret = .bool false) then none else some bc

def halStep (s : Hal) (e : Call × Io) : Hal × Output :=
  let object := if e.1 = .create then some {} else s.impl
  match object with
  | none => (s, ⟨.notLoaded, []⟩)
  | some bc =>
    let r := (perform e.2 bc e.1).run s.world
    (⟨r.st, keepObject e.1 r.val.1 r.val.2⟩, ⟨r.val.1, r.log⟩)

def halMachine : Machine Hal (Call × Io) Output := ⟨halStep⟩

end AmlogicHal.Boot
