import AmlogicHal.Lib.BitField

/-!
# The boot control block

`bootloader_control` (`boot_control_definition.h`) is a packed record of 32 bytes in the misc
partition: here one vector of 256 bits, least significant bit first, with the fields at the offsets
of the packed little-endian layout. An index into the four-element array `slot_info` addresses the
two bytes at `12 + 2 * i`, so from four on it falls on the fields behind the array.

* `crc32`, `bootloaderControlLECRC`: the checksum of the first 28 bytes.
* `BootloaderControl.updateCrc`, `crcValid_updateCrc`: the block with its checksum recomputed is
  valid.
* `nbSlot_put`, `slotMetadata_put`, `slotMetadata_slotField`: what a write to the block changes.
-/

namespace AmlogicHal.Boot

open BitField

structure BootloaderControl where
  raw : BitVec 256
deriving DecidableEq, Repr

/-- `sizeof(slot_info) / sizeof(slot_info[0])`. -/
def kMaxNumSlots : Nat := 4

def kSlotSuffixes : List String := ["_a", "_b", "_c", "_d"]

def kDefaultBootAttempts : BitVec 3 := 7

def bootCtrlMagic : BitVec 32 := 0x42414342

def bootCtrlVersion : BitVec 8 := 1

variable (c : BootloaderControl)

namespace BootloaderControl

/-- Write the field `f` at bit `off`. -/
def put {w : Nat} (off : Nat) (f : BitVec w) (c : BootloaderControl) : BootloaderControl :=
  ⟨setField off f c.raw⟩

/-! ## Fields -/

variable (i : Nat)

/-- The first bit of `slot_info[i]`. -/
def slotOff : Nat := 96 + 16 * i

/-- `nb_slot`, three bits. -/
def nbSlot : BitVec 3 := getField 72 3 c.raw

def rollFlag : BitVec 8 := getField 88 8 c.raw

def firstboot : BitVec 8 := getField 168 8 c.raw

def crc32Le : BitVec 32 := getField 224 32 c.raw

/-- All sixteen bits of `slot_info[i]`. -/
def slotMetadata (c : BootloaderControl) : BitVec 16 := getField (slotOff i) 16 c.raw

/-- `slot_info[i].priority`. -/
def priority (c : BootloaderControl) : BitVec 4 := getField 0 4 (c.slotMetadata i)

/-- `slot_info[i].tries_remaining`. -/
def triesRemaining (c : BootloaderControl) : BitVec 3 := getField 4 3 (c.slotMetadata i)

/-- `slot_info[i].successful_boot`. -/
def successfulBoot (c : BootloaderControl) : BitVec 1 := getField 7 1 (c.slotMetadata i)

def setSlotSuffix (f : BitVec 32) : BootloaderControl → BootloaderControl := put 0 f
def setMagic (f : BitVec 32) : BootloaderControl → BootloaderControl := put 32 f
def setVersion (f : BitVec 8) : BootloaderControl → BootloaderControl := put 64 f
def setNbSlot (f : BitVec 3) : BootloaderControl → BootloaderControl := put 72 f
def setRecoveryTriesRemaining (f : BitVec 3) : BootloaderControl → BootloaderControl := put 75 f
def setRollFlag (f : BitVec 8) : BootloaderControl → BootloaderControl := put 88 f
def setMergeFlag (f : BitVec 8) : BootloaderControl → BootloaderControl := put 160 f
def setFirstboot (f : BitVec 8) : BootloaderControl → BootloaderControl := put 168 f
def setCrc32Le (f : BitVec 32) : BootloaderControl → BootloaderControl := put 224 f

def setSlotMetadata (f : BitVec 16) : BootloaderControl → BootloaderControl :=
  put (slotOff i) f
def setPriority (f : BitVec 4) : BootloaderControl → BootloaderControl :=
  put (slotOff i) f
def setTriesRemaining (f : BitVec 3) : BootloaderControl → BootloaderControl :=
  put (slotOff i + 4) f
def setSuccessfulBoot (f : BitVec 1) : BootloaderControl → BootloaderControl :=
  put (slotOff i + 7) f
def setVerityCorrupted (f : BitVec 1) : BootloaderControl → BootloaderControl :=
  put (slotOff i + 8) f

def byte (c : BootloaderControl) : BitVec 8 := getField (8 * i) 8 c.raw

end BootloaderControl

/-! ## The checksum -/

/-- One round of the loop that fills `crc_table`: `mask` is all ones when the low bit is set. -/
def crcRound (crc : BitVec 32) : BitVec 32 :=
  let mask := -(crc &&& 1#32)
  (crc >>> 1) ^^^ (0xEDB88320#32 &&& mask)

/-- `crc_table` once it has been computed. -/
def crcTable : List (BitVec 32) :=
  (List.range 256).map fun i => crcRound^[8] (BitVec.ofNat 32 i)

/-- `CRC32`: one table lookup for each byte. -/
def crc32 (buf : List (BitVec 8)) : BitVec 32 :=
  ~~~(buf.foldl
    (fun ret b => (ret >>> 8) ^^^ crcTable.getD ((ret ^^^ b.setWidth 32) &&& 0xFF#32).toNat 0)
    (-1))

/-- The machine is little-endian, so `htole32` changes nothing. -/
def bootloaderControlLECRC : BitVec 32 :=
  crc32 ((List.range 28).map c.byte)

namespace BootloaderControl

def CrcValid : Prop := c.crc32Le = bootloaderControlLECRC c

instance : Decidable c.CrcValid :=
  inferInstanceAs (Decidable (_ = _))

/-- `buffer->crc32_le = BootloaderControlLECRC(buffer)`. -/
def updateCrc : BootloaderControl := c.setCrc32Le (bootloaderControlLECRC c)

/-- The checksum is not part of the bytes it covers. -/
theorem lecrc_setCrc32Le (f : BitVec 32) (c : BootloaderControl) :
    bootloaderControlLECRC (c.setCrc32Le f) = bootloaderControlLECRC c := by
  unfold bootloaderControlLECRC
  congr 1
  apply List.map_congr_left
  intro i hi
  have hi28 : i < 28 := List.mem_range.mp hi
  exact getField_setField_disjoint _ _ _ _ (by omega)

variable {j : Nat} (hj : j < kMaxNumSlots) (c : BootloaderControl)

theorem crcValid_updateCrc : c.updateCrc.CrcValid := by
  unfold CrcValid updateCrc
  rw [lecrc_setCrc32Le]
  exact getField_setField_same _ _ _ (by omega)

/-! ## What a write leaves alone -/

theorem nbSlot_put {w : Nat} (off : Nat) (f : BitVec w) (c : BootloaderControl)
    (hout : off + w ≤ 72 ∨ 75 ≤ off) : (c.put off f).nbSlot = c.nbSlot :=
  getField_setField_disjoint _ _ _ _ (by omega)

theorem nbSlot_slotField {w : Nat} (i off : Nat) (f : BitVec w) (c : BootloaderControl) :
    (c.put (slotOff i + off) f).nbSlot = c.nbSlot :=
  nbSlot_put _ _ _ (by simp only [slotOff]; omega)

variable (f : BitVec 8)

@[simp] theorem nbSlot_setRollFlag : (c.setRollFlag f).nbSlot = c.nbSlot :=
  nbSlot_put _ _ _ (by omega)

@[simp] theorem nbSlot_setMergeFlag : (c.setMergeFlag f).nbSlot = c.nbSlot :=
  nbSlot_put _ _ _ (by omega)

@[simp] theorem nbSlot_setFirstboot : (c.setFirstboot f).nbSlot = c.nbSlot :=
  nbSlot_put _ _ _ (by omega)

@[simp] theorem nbSlot_updateCrc : c.updateCrc.nbSlot = c.nbSlot := nbSlot_put _ _ _ (by omega)

variable (i : Nat)

@[simp] theorem nbSlot_setPriority (f : BitVec 4) :
    (c.setPriority i f).nbSlot = c.nbSlot := nbSlot_slotField i 0 f c

@[simp] theorem nbSlot_setTriesRemaining (f : BitVec 3) :
    (c.setTriesRemaining i f).nbSlot = c.nbSlot := nbSlot_slotField i 4 f c

@[simp] theorem nbSlot_setSuccessfulBoot (f : BitVec 1) :
    (c.setSuccessfulBoot i f).nbSlot = c.nbSlot := nbSlot_slotField i 7 f c

@[simp] theorem nbSlot_setVerityCorrupted (f : BitVec 1) :
    (c.setVerityCorrupted i f).nbSlot = c.nbSlot := nbSlot_slotField i 8 f c

theorem slotMetadata_put {w : Nat} (hj : j < kMaxNumSlots) (off : Nat) (f : BitVec w)
    (c : BootloaderControl) (hout : off + w ≤ 96 ∨ 160 ≤ off) :
    (c.put off f).slotMetadata j = c.slotMetadata j := by
  have hoff : slotOff j + 16 ≤ 160 ∧ 96 ≤ slotOff j := by
    simp only [slotOff, kMaxNumSlots] at *
    omega
  exact getField_setField_disjoint _ _ _ _ (by omega)

theorem slotMetadata_slotField {w : Nat} (hj : j < kMaxNumSlots) (i off : Nat) (f : BitVec w)
    (c : BootloaderControl) (hfit : off + w ≤ 16) :
    (c.put (slotOff i + off) f).slotMetadata j =
      if i = j then setField off f (c.slotMetadata j) else c.slotMetadata j := by
  split
  · next h =>
    subst h
    have hin : slotOff i + 16 ≤ 256 := by simp only [slotOff, kMaxNumSlots] at *; omega
    exact getField_setField_within _ _ _ _ hin
  · next h =>
    have hd : slotOff i + 16 ≤ slotOff j ∨ slotOff j + 16 ≤ slotOff i := by
      simp only [slotOff]
      omega
    exact getField_setField_disjoint _ _ _ _ (by omega)

include hj

@[simp] theorem slotMetadata_setRollFlag :
    (c.setRollFlag f).slotMetadata j = c.slotMetadata j := slotMetadata_put hj _ _ _ (by omega)

@[simp] theorem slotMetadata_setMergeFlag :
    (c.setMergeFlag f).slotMetadata j = c.slotMetadata j := slotMetadata_put hj _ _ _ (by omega)

@[simp] theorem slotMetadata_setFirstboot :
    (c.setFirstboot f).slotMetadata j = c.slotMetadata j := slotMetadata_put hj _ _ _ (by omega)

@[simp] theorem slotMetadata_updateCrc :
    c.updateCrc.slotMetadata j = c.slotMetadata j := slotMetadata_put hj _ _ _ (by omega)

@[simp] theorem slotMetadata_setPriority (f : BitVec 4) :
    (c.setPriority i f).slotMetadata j =
      if i = j then setField 0 f (c.slotMetadata j) else c.slotMetadata j :=
  slotMetadata_slotField hj i 0 f c (by omega)

@[simp] theorem slotMetadata_setTriesRemaining (f : BitVec 3) :
    (c.setTriesRemaining i f).slotMetadata j =
      if i = j then setField 4 f (c.slotMetadata j) else c.slotMetadata j :=
  slotMetadata_slotField hj i 4 f c (by omega)

@[simp] theorem slotMetadata_setSuccessfulBoot (f : BitVec 1) :
    (c.setSuccessfulBoot i f).slotMetadata j =
      if i = j then setField 7 f (c.slotMetadata j) else c.slotMetadata j :=
  slotMetadata_slotField hj i 7 f c (by omega)

@[simp] theorem slotMetadata_setVerityCorrupted (f : BitVec 1) :
    (c.setVerityCorrupted i f).slotMetadata j =
      if i = j then setField 8 f (c.slotMetadata j) else c.slotMetadata j :=
  slotMetadata_slotField hj i 8 f c (by omega)

end BootloaderControl

end AmlogicHal.Boot
