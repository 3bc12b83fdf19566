import AmlogicHal.Lib.Traced

/-!
# CEC messages and the CEC device

The data of `HdmiCecControl`: messages and events, the device record, and what an operation does to
the outside. An operation is a traced computation over `CecDevice`; its records (`Obs`) are its
array accesses and all that it hands to the driver, to the listeners and to the message queue.

The numbers from `hdmi_cec.h` of the platform (logical addresses, opcodes, results, the body length
of 16) have the values they have there.
-/

namespace AmlogicHal.Cec

/-! ## Constants -/

/-- `CEC_MESSAGE_BODY_MAX_LENGTH`. -/
def bodyMaxLength : Nat := 16

/-- `cec_logical_address_t`. -/
abbrev LogicalAddress := BitVec 4

def addrTv : LogicalAddress := 0
def addrReserved1 : LogicalAddress := 12
def addrFreeUse : LogicalAddress := 14
def addrBroadcast : LogicalAddress := 15

def invalidPhysicalAddress : Nat := 0xFFFF

namespace Opcode

def featureAbort : BitVec 8 := 0x00
def imageViewOn : BitVec 8 := 0x04
def textViewOn : BitVec 8 := 0x0D
def setMenuLanguage : BitVec 8 := 0x32
def standby : BitVec 8 := 0x36
def userControlPressed : BitVec 8 := 0x44
def giveOsdName : BitVec 8 := 0x46
def setOsdName : BitVec 8 := 0x47
def setAudioVolumeLevel : BitVec 8 := 0x73
def routingChange : BitVec 8 := 0x80
def routingInformation : BitVec 8 := 0x81
def activeSource : BitVec 8 := 0x82
def givePhysicalAddress : BitVec 8 := 0x83
def reportPhysicalAddress : BitVec 8 := 0x84
def setStreamPath : BitVec 8 := 0x86
def deviceVendorId : BitVec 8 := 0x87
def vendorCommand : BitVec 8 := 0x89
def giveDeviceVendorId : BitVec 8 := 0x8C
def reportPowerStatus : BitVec 8 := 0x90
def getMenuLanguage : BitVec 8 := 0x91

end Opcode

/-- The results of a write to the driver that the source names. -/
def resultSuccess : Int := 0
def resultNack : Int := 1
def resultBusy : Int := 2
def resultFail : Int := 3

def sendMessageRetryHal : Nat := 2

def delayTimeoutMs : Int := 5000

def delayTransmissionTimeout : Int := 2000

def bootOtpRetryCount : Nat := 7

/-- `HDMI_EVENT_CEC_MESSAGE` and `HDMI_EVENT_VENDOR_MESSAGE`. -/
def eventCecMessage : Nat := 1
def eventVendorMessage : Nat := 4

/-! ## Messages -/

/-- `cec_message_t`: `body` is the array of 16 bytes, of which `length` are in use. -/
structure CecMessage where
  initiator : LogicalAddress
  destination : LogicalAddress
  length : Nat
  body : List (BitVec 8)
deriving DecidableEq, Repr

namespace CecMessage

/-- `body[i]`. What lies outside the array is not known to the model: it reads as zero. -/
def byte (i : Int) (m : CecMessage) : BitVec 8 :=
  if i < 0 then 0 else m.body.getD i.toNat 0

def opcode (m : CecMessage) : BitVec 8 := m.byte 0

/-- The two bytes at `i` and `j` as a big-endian number. -/
def word (i j : Int) (m : CecMessage) : Nat := (m.byte i).toNat * 256 + (m.byte j).toNat

/-- The three bytes behind the opcode as a big-endian number. -/
def triple (m : CecMessage) : Nat := (m.byte 1).toNat * 65536 + m.word 2 3

def ofBytes (initiator destination : LogicalAddress) (bytes : List (BitVec 8)) : CecMessage :=
  ⟨initiator, destination, bytes.length,
    bytes ++ List.replicate (bodyMaxLength - bytes.length) 0⟩

end CecMessage

/-- `hdmi_cec_event_t` with a CEC message. An `eventType` of zero keeps it from the listener. -/
structure CecEvent where
  eventType : Nat
  cec : CecMessage
deriving DecidableEq, Repr

/-- The bytes that one read from the driver returned: never more than were asked for. -/
structure Frame where
  bytes : List (BitVec 8)
  length_le : bytes.length ≤ bodyMaxLength
deriving DecidableEq, Repr

namespace Frame

/-- `msgBuf[0]`. -/
def header (f : Frame) : BitVec 8 := f.bytes.headD 0

/-- The message of a frame: the header split into nibbles, and the rest copied to a cleared body. -/
def message (f : Frame) : CecMessage :=
  .ofBytes ((f.header >>> 4).setWidth 4) (f.header.setWidth 4) f.bytes.tail

end Frame

/-- The message types of `MsgHandler`. -/
inductive MsgType where
  | getMenuLanguage
  | giveOsdName
  | giveDeviceVendorId
  | givePhysicalAddress
  | oneTouchPlay
  | processCecWakeup
  | userControlPressed
  | reportPhysicalAddress
  | maySendSetStreamPath
  | setOsdName
  | sendFeatureAbort
  | delayPhysicalAddress
deriving DecidableEq, Repr

structure CMessage where
  type : MsgType
  delayMs : Int := 0
  para : List Nat := []
deriving DecidableEq, Repr

/-! ## The device -/

/-- `hdmi_device_t` and the members of `HdmiCecControl`, as far as an operation reads them.
`driverOpen` is `driver_fd >= 0`; the listeners are `true` when they are set. -/
structure CecDevice where
  driverOpen : Bool
  isTv : Bool
  isPlayback : Bool
  isAudioSystem : Bool
  isCecEnabled : Bool
  isCecControlled : Bool
  hdmiCfgInit : Bool
  phyAddr : Nat
  playbackLogicalAddr : LogicalAddress
  activeLogicalAddr : Nat
  activeRoutingPath : Nat
  /-- `added_phy_addr`: one entry for each logical address below 15. -/
  addedPhyAddr : List Nat
  /-- `vendor_ids`: one entry for each logical address below 15. -/
  vendorIds : List Nat
  deviceName : List (BitVec 8)
  eventListener : Bool
  vendorEventListener : Bool
  /-- The event that `mCachedRoutingEvent` was made to point to. -/
  cachedRoutingEvent : Option CecEvent
  bootOtpCount : Nat
  /-- `cec_wake_status`. -/
  wakeLogicalAddr : LogicalAddress
  wakePhyAddr : Nat
  wakeEnabled : Int
  isReboot : Bool

namespace CecDevice

/-- `added_phy_addr[a]`. -/
def addedAt (a : LogicalAddress) (d : CecDevice) : Nat := d.addedPhyAddr.getD a.toNat 0

def setAdded (a : LogicalAddress) (addr : Nat) (d : CecDevice) : CecDevice :=
  { d with addedPhyAddr := d.addedPhyAddr.set a.toNat addr }

/-- `vendor_ids[a]`. -/
def vendorAt (a : LogicalAddress) (d : CecDevice) : Nat := d.vendorIds.getD a.toNat 0

def setVendor (a : LogicalAddress) (id : Nat) (d : CecDevice) : CecDevice :=
  { d with vendorIds := d.vendorIds.set a.toNat id }

end CecDevice

/-- A device in use, with a listener and all switches on. Its tables are as the constructor leaves
them. -/
def freshDevice (isTv isPlayback : Bool) : CecDevice where
  driverOpen := true
  isTv := isTv
  isPlayback := isPlayback
  isAudioSystem := false
  isCecEnabled := true
  isCecControlled := true
  hdmiCfgInit := true
  phyAddr := 0x1000
  playbackLogicalAddr := 4
  activeLogicalAddr := 0
  activeRoutingPath := 0
  addedPhyAddr := List.replicate 15 0
  vendorIds := List.replicate 15 0
  deviceName := []
  eventListener := true
  vendorEventListener := false
  cachedRoutingEvent := none
  bootOtpCount := 0
  wakeLogicalAddr := 0
  wakePhyAddr := 0
  wakeEnabled := 1
  isReboot := false

/-- The answers of the system to one operation. -/
structure CecIo where
  /-- `CEC_IOC_GET_PHYSICAL_ADDR`. -/
  physicalAddress : Nat
  /-- The property that says whether a box is connected. -/
  boxConnected : Bool
  /-- The properties for one touch play at boot. -/
  bootOtp : Bool
  oneTouchPlay : Bool
  /-- What the driver returns for the writes of the operation, in order. -/
  writeResult : Nat → Int
  /-- What lies in the message on the stack before it is filled. -/
  stale : Nat → BitVec 8

def quietIo : CecIo where
  physicalAddress := 0x1000
  boxConnected := true
  bootOtp := false
  oneTouchPlay := false
  writeResult _ := resultSuccess
  stale _ := 0

/-! ## What an operation does -/

inductive Buffer where
  | msgBuf
  | body
  | vendorIds
  | addedPhyAddr
deriving DecidableEq, Repr

/-- The two tables have `CEC_ADDR_BROADCAST` entries. -/
def Buffer.size : Buffer → Nat
  | .msgBuf | .body => 16
  | .vendorIds | .addedPhyAddr => 15

structure Access where
  buffer : Buffer
  index : Int
  write : Bool
deriving DecidableEq, Repr

def Access.InBounds (a : Access) : Prop := 0 ≤ a.index ∧ a.index < a.buffer.size

instance (a : Access) : Decidable a.InBounds := inferInstanceAs (Decidable (_ ∧ _))

inductive Ioctl where
  | enableCec
  | wakeup
  | sysCtrl
  | setLang
deriving DecidableEq, Repr

inductive Obs where
  | access (a : Access)
  | deliver (e : CecEvent)
  | vendorEvent (e : CecEvent)
  /-- The duplicate filter drops a report of a physical address. -/
  | alreadyAdded (initiator : LogicalAddress) (devPhyAddr : Nat)
  | sendMsg (msg : CMessage)
  | removeMsg (type : MsgType)
  | driverWrite (frame : List (BitVec 8))
  | ioctl (request : Ioctl) (value : Int)
deriving DecidableEq, Repr

/-- An operation of `HdmiCecControl`. -/
abbrev CecM := Traced Obs CecDevice

/-- Accesses to `body` at the given indices, for reading. -/
def readBody (indices : List Int) : CecM Unit :=
  Traced.emitAll (indices.map fun i => .access ⟨.body, i, false⟩)

/-- Accesses to `body` at the given indices, for writing. -/
def writeBody (indices : List Int) : CecM Unit :=
  Traced.emitAll (indices.map fun i => .access ⟨.body, i, true⟩)

def readTable (b : Buffer) (a : LogicalAddress) : CecM Unit :=
  Traced.emit (.access ⟨b, a.toNat, false⟩)

def writeTable (b : Buffer) (a : LogicalAddress) : CecM Unit :=
  Traced.emit (.access ⟨b, a.toNat, true⟩)

/-- The accesses of a `memcpy` of `n` bytes. -/
def copyAccesses (src dst : Buffer) (srcOff dstOff n : Nat) : List Obs :=
  (List.range n).flatMap fun k : Nat =>
    [.access ⟨src, (srcOff + k : Nat), false⟩, .access ⟨dst, (dstOff + k : Nat), true⟩]

end AmlogicHal.Cec
