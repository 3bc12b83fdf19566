import AmlogicHal.Cec.Device

/-!
# The CEC operations

`HdmiCecControl.cpp`: what the service does with a frame from the driver (`readCecMessage`), with a
message from a client (`HdmiCec::sendMessage`, `sendMessage`, `send`), with an option (`setOption`)
and with a message of its own queue (`handleMessage`).

A `switch` of the source is a chain of conditions on the opcode. The macro `NO_USE_DROID_PATCH` is
defined nowhere, so the code it guards is left out.
-/

namespace AmlogicHal.Cec

open Traced

/-! ## Helpers -/

def sendMsg (msg : CMessage) : CecM Unit := emit (.sendMsg msg)

def removeMsg (type : MsgType) : CecM Unit := emit (.removeMsg type)

def isSourceDevice (a : LogicalAddress) : Bool :=
  a ∈ ([1, 2, 3, 4, 6, 7, 8, 9, 10, 11] : List LogicalAddress)

/-- The switch returns true for six opcodes, and so does the line behind it. -/
def transferableInSleep (_opcode : BitVec 8) : Bool := true

/-- `isCompatVendor`: the vendors that use another code for Chinese. -/
def isCompatVendor (vendorId language : Nat) : Bool :=
  (language == 0x636869 &&
    (vendorId == 0x00e091 || vendorId == 0x4d5354 || vendorId == 0x0000f0)) ||
    (language == 0x6b6f72 && vendorId == 0x00e091)

variable (io : CecIo)

/-- `getPhysicalAddress` as far as it changes the device: a valid answer is kept. -/
def getPhysicalAddress : CecM Unit :=
  modify fun d =>
    if d.driverOpen = true ∧ d.isTv = false ∧ io.physicalAddress ≠ 0 ∧
        io.physicalAddress ≠ invalidPhysicalAddress then
      { d with phyAddr := io.physicalAddress }
    else
      d

/-- The end of `updateActiveState`: an activeness event for the vendor listener, or, when there is
none yet, for the one to come. -/
def notifyActiveness (on : Bool) : CecM Unit := do
  let event : CecEvent := ⟨eventVendorMessage,
    .ofBytes addrReserved1 addrBroadcast [Opcode.vendorCommand, 1, if on then 1 else 0]⟩
  writeBody [0, 1, 2]
  Traced.read fun d =>
    if d.vendorEventListener = true then
      emit (.vendorEvent event)
    else
      modify fun d => { d with cachedRoutingEvent := some event }

variable (m : CecMessage)

/-- The part of `updateActiveState` for a received message. -/
def updateActiveReceived : CecM Unit :=
  if m.opcode = Opcode.setStreamPath ∨ m.opcode = Opcode.routingChange ∨
      m.opcode = Opcode.activeSource then do
    readBody [(m.length : Int) - 2, (m.length : Int) - 1]
    Traced.read fun d =>
      notifyActiveness (m.word ((m.length : Int) - 2) ((m.length : Int) - 1) = d.phyAddr)
  else if m.opcode = Opcode.standby then
    notifyActiveness false
  else if m.opcode = Opcode.reportPowerStatus ∧ m.initiator = addrTv ∧ m.length = 2 then do
    readBody [1]
    if m.byte 1 = 1 then
      notifyActiveness false
    else
      pure ()
  else
    pure ()

def updateActiveState (received : Bool) : CecM Unit :=
  Traced.read fun d =>
    if d.isPlayback = false then
      pure ()
    else do
      readBody [0]
      if received = true then
        if d.isCecEnabled = false then
          getPhysicalAddress io
          updateActiveReceived m
        else
          updateActiveReceived m
      else if m.opcode = Opcode.activeSource then
        notifyActiveness true
      else
        pure ()

/-! ## Frames from the driver -/

variable (e : CecEvent)

/-- The first switch of `messageValidateAndHandle`. -/
def validateCommon : CecM CecEvent := do
  readBody [0]
  if e.cec.opcode = Opcode.deviceVendorId then
    readBody [1, 2, 3]
    writeTable .vendorIds e.cec.initiator
    modify (CecDevice.setVendor e.cec.initiator e.cec.triple)
    pure e
  else if e.cec.opcode = Opcode.setAudioVolumeLevel ∧ e.cec.initiator ≠ addrBroadcast ∧
      e.cec.destination ≠ addrBroadcast ∧ e.cec.length = 1 then
    removeMsg .sendFeatureAbort
    sendMsg ⟨.sendFeatureAbort, 0,
      [e.cec.destination.toNat, e.cec.initiator.toNat, e.cec.opcode.toNat, 0]⟩
    pure { e with eventType := 0 }
  else
    pure e

/-- The report of a physical address to a TV with a non-zero high byte: it is dropped when the
table has the same address for the device, and kept in the table otherwise. -/
def filterReport : CecM CecEvent := do
  readTable .addedPhyAddr e.cec.initiator
  Traced.read fun d =>
    if d.addedAt e.cec.initiator = e.cec.word 1 2 then do
      emit (.alreadyAdded e.cec.initiator (e.cec.word 1 2))
      pure { e with eventType := 0 }
    else do
      writeTable .addedPhyAddr e.cec.initiator
      modify (CecDevice.setAdded e.cec.initiator (e.cec.word 1 2))
      pure e

/-- The switch of `messageValidateAndHandle` for a TV. -/
def validateTv : CecM CecEvent :=
  if e.cec.opcode = Opcode.reportPhysicalAddress then do
    readBody [1, 2, 1]
    if e.cec.byte 1 = 0 then
      removeMsg .givePhysicalAddress
      sendMsg ⟨.givePhysicalAddress, delayTimeoutMs / 5, [e.cec.initiator.toNat]⟩
      readBody [0]
      pure { e with eventType := 0 }
    else
      filterReport e
  else if (e.cec.opcode = Opcode.routingChange ∨ e.cec.opcode = Opcode.routingInformation) ∧
      e.cec.destination ≠ addrBroadcast then
    pure { e with eventType := 0 }
  else
    pure e

/-- The body with the language replaced by `ZH_LANGUAGE`. -/
def CecMessage.setChinese : CecMessage :=
  { m with body := ((m.body.set 1 0x7a).set 2 0x68).set 3 0x6f }

/-- `handleSetMenuLanguage` with `compatLangIfneeded`. -/
def handleSetMenuLanguage : CecM CecEvent :=
  if e.cec.initiator ≠ addrTv then
    pure { e with eventType := 0 }
  else do
    readBody [1, 2, 3]
    readTable .vendorIds addrTv
    Traced.read fun d =>
      if isCompatVendor (d.vendorAt addrTv) e.cec.triple = true then do
        writeBody [1, 2, 3]
        pure ⟨e.eventType, e.cec.setChinese⟩
      else
        pure e

/-- The switch of `messageValidateAndHandle` for a playback device. -/
def validatePlayback : CecM CecEvent :=
  if e.cec.opcode = Opcode.givePhysicalAddress then
    if e.cec.initiator = addrTv ∧ io.boxConnected = false then do
      sendMsg ⟨.delayPhysicalAddress, 1000, []⟩
      pure { e with eventType := 0 }
    else
      pure e
  else if e.cec.opcode = Opcode.setMenuLanguage then
    handleSetMenuLanguage e
  else if e.cec.opcode = Opcode.giveOsdName then
    Traced.read fun d =>
      if e.cec.initiator = addrTv ∧ e.cec.destination ≠ addrBroadcast ∧
          d.isAudioSystem = false then do
        removeMsg .setOsdName
        sendMsg ⟨.setOsdName, 1000, []⟩
        pure e
      else
        pure e
  else
    pure e

/-- The second half of `messageValidateAndHandle`. -/
def validateForRole : CecM CecEvent :=
  Traced.read fun d =>
    if d.isTv = true then
      validateTv e
    else if d.isPlayback = true then
      validatePlayback io e
    else
      pure e

def messageValidateAndHandle : CecM CecEvent := do
  let e ← validateCommon e
  validateForRole io e

/-- The first half of `handleOTPMsg`. -/
def recordActiveSource : CecM Unit := do
  readBody [0]
  if m.opcode = Opcode.activeSource then
    readBody [1, 2]
    modify fun d => { d with
      activeLogicalAddr := m.initiator.toNat, activeRoutingPath := m.word 1 2 }
  else
    pure ()

def handleOTPMsg : CecM Unit := do
  recordActiveSource e.cec
  updateActiveState io e.cec true

/-- The event type that `readCecMessage` starts with. -/
def initialEventType (f : Frame) : CecM Nat :=
  Traced.read fun d =>
    if d.isCecControlled = true then
      pure eventCecMessage
    else do
      emit (.access ⟨.msgBuf, 1, false⟩)
      pure (if transferableInSleep f.message.opcode = true then eventCecMessage else 0)

/-- The end of `readCecMessage`. -/
def notifyListener : CecM Unit :=
  Traced.read fun d =>
    if d.isCecEnabled = true ∧ d.eventListener = true ∧ e.eventType ≠ 0 then
      emit (.deliver e)
    else
      pure ()

def readCecMessage (f : Frame) : CecM Unit :=
  if f.bytes.length ≤ 1 then
    -- ping messages are ignored
    pure ()
  else do
    emitAll (copyAccesses .msgBuf .body 1 0 (f.bytes.length - 1))
    emitAll [.access ⟨.msgBuf, 0, false⟩, .access ⟨.msgBuf, 0, false⟩]
    let eventType ← initialEventType f
    let e ← messageValidateAndHandle io ⟨eventType, f.message⟩
    handleOTPMsg io e
    notifyListener e

/-! ## Messages to the driver -/

/-- The frame of a message: `msgBuf` up to its end. -/
def frameOf : List (BitVec 8) :=
  ((m.initiator.setWidth 8 <<< 4) ||| m.destination.setWidth 8) :: m.body.take m.length

/-- `send`, whose result is the one of the write to the driver. -/
def send : CecM Unit := do
  emit (.access ⟨.msgBuf, 0, true⟩)
  emitAll (copyAccesses .body .msgBuf 0 1 m.length)
  emitAll ((List.range (m.length + 1)).map fun k : Nat => .access ⟨.msgBuf, k, false⟩)
  emit (.driverWrite (frameOf m))
  -- `printCecMessage`
  readBody ((List.range m.length).map fun k : Nat => (k : Int))

/-- The switch of `preHandleOfSend`. The value says that the message is filtered. -/
def preHandleOfSend : CecM Bool := do
  readBody [0]
  if m.opcode = Opcode.giveDeviceVendorId then
    writeTable .vendorIds m.destination
    modify (CecDevice.setVendor m.destination 0)
    pure false
  else if m.opcode = Opcode.givePhysicalAddress then
    writeTable .addedPhyAddr m.destination
    modify (CecDevice.setAdded m.destination 0)
    pure false
  else if m.opcode = Opcode.activeSource then
    updateActiveState io m false
    Traced.read fun d => pure (d.isPlayback && !d.isCecControlled)
  else if m.opcode = Opcode.textViewOn ∨ m.opcode = Opcode.imageViewOn then
    Traced.read fun d => pure (d.isPlayback && !d.isCecControlled)
  else if m.opcode = Opcode.setOsdName then
    Traced.read fun d =>
      if d.isPlayback = true ∧ m.destination = addrTv then do
        removeMsg .setOsdName
        pure false
      else
        pure false
  else
    pure false

def postHandleOfSend (result : Int) : CecM Unit :=
  if m.length = 0 ∧ result = resultNack then do
    readTable .addedPhyAddr m.destination
    Traced.read fun d =>
      if d.addedAt m.destination ≠ 0 then do
        writeTable .addedPhyAddr m.destination
        modify (CecDevice.setAdded m.destination 0)
      else
        pure ()
  else
    pure ()

/-- The loop of `sendMessage` from its attempt `k` on, with `n` more attempts left. -/
def sendLoop (io : CecIo) (m : CecMessage) : Nat → Nat → CecM Int
  | 0, k => do
    send m
    pure (io.writeResult k)
  | n + 1, k => do
    send m
    if m.length ≠ 0 ∧ (io.writeResult k = resultBusy ∨ io.writeResult k = resultFail) then
      sendLoop io m n (k + 1)
    else
      pure (io.writeResult k)

/-- `sendMessage` behind its two checks. -/
def sendChecked : CecM Int := do
  let filtered ← preHandleOfSend io m
  if filtered = true then
    pure resultSuccess
  else
    let ret ← sendLoop io m (sendMessageRetryHal - 1) 0
    postHandleOfSend m ret
    pure ret

def sendMessage (io : CecIo) (m : CecMessage) : CecM Int :=
  Traced.read fun d =>
    if d.driverOpen = false ∨ d.isCecEnabled = false then
      pure resultFail
    else
      sendChecked io m

structure AidlMessage where
  initiator : LogicalAddress
  destination : LogicalAddress
  body : List (BitVec 8)
deriving DecidableEq, Repr

/-- The message that `HdmiCec::sendMessage` builds. It is not cleared first: behind the bytes of
the client lies what was on the stack. -/
def AidlMessage.toCec (a : AidlMessage) (stale : Nat → BitVec 8) : CecMessage :=
  let n := min a.body.length bodyMaxLength
  ⟨a.initiator, a.destination, n,
    a.body.take n ++ (List.range (bodyMaxLength - n)).map fun k : Nat => stale (n + k)⟩

/-- `HdmiCec::sendMessage`. -/
def aidlSendMessage (a : AidlMessage) : CecM Int := do
  writeBody ((List.range (min a.body.length bodyMaxLength)).map fun k : Nat => (k : Int))
  sendMessage io (a.toCec io.stale)

/-! ## Options -/

inductive CecOption where
  | enableCec
  | wakeup
  | systemCecControl
  | setLang
deriving DecidableEq, Repr

/-- `handleCecEnabled`. The value says that the driver is not told. -/
def handleCecEnabled (enabled : Int) : CecM Bool :=
  Traced.read fun d =>
    if d.isPlayback = false ∨ d.vendorEventListener = false then
      pure false
    else if enabled = 1 then do
      emit (.ioctl .wakeup d.wakeEnabled)
      pure false
    else do
      emit (.ioctl .wakeup 0)
      pure true

def updateActiveStateForFramework : CecM Unit :=
  Traced.read fun d =>
    if d.isReboot = false ∧ d.activeRoutingPath ≠ 0 then do
      removeMsg .maySendSetStreamPath
      sendMsg ⟨.maySendSetStreamPath, 0, []⟩
    else
      pure ()

/-- The first time that the system takes control. The property that is read here always says what
`is_cec_enabled` says. -/
def initHdmiCfg : CecM Unit :=
  Traced.read fun d =>
    if d.hdmiCfgInit = false ∧ d.isCecControlled = true then do
      emit (.ioctl .enableCec (if d.isCecEnabled = true then 1 else 0))
      updateActiveStateForFramework
      modify fun d => { d with hdmiCfgInit := true }
    else
      pure ()

def setEnableCec (value : Int) : CecM Unit := do
  modify fun d => { d with
    isCecEnabled := value = 1, isCecControlled := value = 1 || d.isCecControlled }
  let handled ← handleCecEnabled value
  if handled = true then
    pure ()
  else
    emit (.ioctl .enableCec value)

def setOption (flag : CecOption) (value : Int) : CecM Unit :=
  Traced.read fun d =>
    if d.driverOpen = false then
      pure ()
    else
      match flag with
      | .enableCec => setEnableCec value
      | .wakeup => do
        modify fun d => { d with wakeEnabled := value }
        emit (.ioctl .wakeup value)
      | .systemCecControl => do
        emit (.ioctl .sysCtrl value)
        modify fun d => { d with isCecControlled := value = 1 }
        initHdmiCfg
      | .setLang => emit (.ioctl .setLang value)

/-! ## The queue's messages -/

def CMessage.arg (i : Nat) (msg : CMessage) : Nat := msg.para.getD i 0

def CMessage.addr (i : Nat) (msg : CMessage) : LogicalAddress := BitVec.ofNat 4 (msg.arg i)

def CMessage.byteArg (i : Nat) (msg : CMessage) : BitVec 8 := BitVec.ofNat 8 (msg.arg i)

def highByte (n : Nat) : BitVec 8 := BitVec.ofNat 8 (n / 256)

def lowByte (n : Nat) : BitVec 8 := BitVec.ofNat 8 n

/-- The physical address that `sendOneTouchPlay` announces. -/
def otpAddress (phyAddr : Nat) : Nat :=
  if phyAddr = invalidPhysicalAddress ∨ phyAddr = 0 then 0x1000 else phyAddr

/-- The last part of `sendOneTouchPlay`. -/
def finishOneTouchPlay (logicalAddress physicalAddress : Nat) : CecM Unit := do
  modify fun d => { d with bootOtpCount := d.bootOtpCount + 1 }
  Traced.read fun d =>
    if d.bootOtpCount < bootOtpRetryCount then do
      removeMsg .oneTouchPlay
      sendMsg ⟨.oneTouchPlay, delayTransmissionTimeout, [logicalAddress]⟩
    else
      pure ()
  modify fun d => { d with
    activeLogicalAddr := logicalAddress, activeRoutingPath := physicalAddress }

def sendOneTouchPlay (logicalAddress : Nat) : CecM Unit :=
  Traced.read fun d => do
    let addr := BitVec.ofNat 4 logicalAddress
    let physicalAddress := otpAddress d.phyAddr
    let active := CecMessage.ofBytes addr addrBroadcast [Opcode.activeSource,
      highByte physicalAddress, lowByte physicalAddress, BitVec.ofNat 8 logicalAddress]
    send (.ofBytes addr addrTv [Opcode.textViewOn])
    send active
    updateActiveState io active false
    finishOneTouchPlay logicalAddress physicalAddress

/-- An event that the HAL makes up for the listener. -/
def deliverMade (make : CecDevice → CecMessage) (cond : CecIo → CecDevice → Bool) :
    CecM Unit :=
  Traced.read fun d =>
    if cond io d = true ∧ d.eventListener = true then
      emit (.deliver ⟨eventCecMessage, make d⟩)
    else
      pure ()

def processCecWakeup : CecM Unit :=
  deliverMade io
    (fun d => .ofBytes d.wakeLogicalAddr addrBroadcast
      [Opcode.activeSource, highByte d.wakePhyAddr, lowByte d.wakePhyAddr])
    (fun _ d => isSourceDevice d.wakeLogicalAddr)

def maySendSetStreamPath : CecM Unit :=
  deliverMade io
    (fun d => .ofBytes addrFreeUse addrBroadcast
      [Opcode.setStreamPath, highByte d.activeRoutingPath, lowByte d.activeRoutingPath])
    (fun io d => d.isPlayback && !d.isAudioSystem && io.bootOtp && io.oneTouchPlay)

def sendAsTv : CecM Unit :=
  Traced.read fun d => if d.isTv = true then send m else pure ()

def handleMessage (msg : CMessage) : CecM Unit :=
  match msg.type with
  | .givePhysicalAddress =>
    sendAsTv (.ofBytes addrTv (msg.addr 0) [Opcode.givePhysicalAddress])
  | .reportPhysicalAddress => Traced.read fun d =>
    send (.ofBytes (msg.addr 0) addrBroadcast [Opcode.reportPhysicalAddress, highByte d.phyAddr,
      lowByte d.phyAddr, msg.byteArg 1])
  | .userControlPressed =>
    sendAsTv (.ofBytes (msg.addr 0) (msg.addr 1) [Opcode.userControlPressed, msg.byteArg 2])
  | .oneTouchPlay => sendOneTouchPlay io (msg.arg 0)
  | .getMenuLanguage => Traced.read fun d =>
    send (.ofBytes d.playbackLogicalAddr addrTv [Opcode.getMenuLanguage])
  | .giveOsdName => Traced.read fun d =>
    send (.ofBytes d.playbackLogicalAddr addrTv [Opcode.giveOsdName])
  | .giveDeviceVendorId => Traced.read fun d =>
    send (.ofBytes d.playbackLogicalAddr addrTv [Opcode.giveDeviceVendorId])
  | .processCecWakeup => processCecWakeup io
  | .maySendSetStreamPath => maySendSetStreamPath io
  | .setOsdName => Traced.read fun d =>
    send (.ofBytes d.playbackLogicalAddr addrTv
      (Opcode.setOsdName :: d.deviceName.take (bodyMaxLength - 2)))
  | .sendFeatureAbort =>
    send (.ofBytes (msg.addr 0) (msg.addr 1)
      [Opcode.featureAbort, msg.byteArg 2, msg.byteArg 3])
  | .delayPhysicalAddress =>
    deliverMade io
      (fun d => .ofBytes addrTv d.playbackLogicalAddr [Opcode.givePhysicalAddress])
      (fun _ d => d.isCecEnabled)

end AmlogicHal.Cec
