import AmlogicHal.Cec.DuplicateFilter

/-!
# The activeness of a playback device

`updateActiveState` tells the vendor listener whether the playback device is the active source. It
reads the path of a message from the end of its body, while `handleOTPMsg` records it from the
front. Without a vendor listener it keeps the address of its local event for the one to come.

1. `updateActiveState_announced`: what an update tells the listener, or leaves for it.
2. `activeSource_path_iff`: both readings of an Active Source message agree exactly if its second
   and third byte are its last two. The message of `sendOneTouchPlay` has a fourth byte
   (`oneTouchPlay_pathDiffers`).
3. `cachedEvent_latest_iff`: a new vendor listener gets the latest event, and from memory that is
   alive, exactly if there was none. `staleEvent_delivered` shows what it gets otherwise.
-/

namespace AmlogicHal.Cec

open Traced Opcode CecDevice CecMessage List

/-! ## What an update computes -/

/-- The event at the end of `updateActiveState`. -/
def activenessEvent (on : Bool) : CecEvent :=
  ⟨eventVendorMessage,
    .ofBytes addrReserved1 addrBroadcast [Opcode.vendorCommand, 1, if on then 1 else 0]⟩

theorem activenessEvent_injective {a b : Bool} (h : activenessEvent a = activenessEvent b) :
    a = b := by
  revert h
  cases a <;> cases b <;> decide

/-- The path that `updateActiveState` compares with the own physical address. -/
def comparedPath (m : CecMessage) : Nat := m.word ((m.length : Int) - 2) ((m.length : Int) - 1)

/-- `updated` and `value` for a received message. -/
def receivedActiveness (m : CecMessage) (own : Nat) : Option Bool :=
  if m.opcode = Opcode.setStreamPath ∨ m.opcode = Opcode.routingChange ∨
      m.opcode = Opcode.activeSource then
    some (comparedPath m = own)
  else if m.opcode = Opcode.standby then
    some false
  else if (m.opcode = Opcode.reportPowerStatus ∧ m.initiator = addrTv ∧ m.length = 2) ∧
    m.byte 1 = 1 then
    some false
  else
    none

/-- The device with the address that the message is compared with. -/
def CecDevice.refreshed (io : CecIo) (received : Bool) (d : CecDevice) : CecDevice :=
  if d.isPlayback = true ∧ received = true ∧ d.isCecEnabled = false then
    ((getPhysicalAddress io).run d).st
  else
    d

/-- `updated` and `value`. -/
def activenessOf (io : CecIo) (m : CecMessage) (received : Bool) (d : CecDevice) : Option Bool :=
  if d.isPlayback = false then
    none
  else if received = true then
    receivedActiveness m (d.refreshed io received).phyAddr
  else if m.opcode = Opcode.activeSource then
    some true
  else
    none

def Obs.toVendor : Obs → Option CecEvent
  | .vendorEvent e => some e
  | _ => none

def vendorEvents (log : List Obs) : List CecEvent := log.filterMap Obs.toVendor

theorem vendorEvents_append (l₁ l₂ : List Obs) :
    vendorEvents (l₁ ++ l₂) = vendorEvents l₁ ++ vendorEvents l₂ :=
  filterMap_append

theorem vendorEvents_access {l : List Obs} (h : ∀ o ∈ l, o.IsAccess) : vendorEvents l = [] := by
  refine filterMap_eq_nil_iff.mpr fun o ho => ?_
  cases o with
  | vendorEvent e => exact absurd (h _ ho) id
  | _ => rfl

theorem vendorEvents_readBody (is : List Int) (d : CecDevice) :
    vendorEvents ((readBody is).run d).log = [] :=
  vendorEvents_access (readBody_isAccess is d)

/-- An outcome on the device `d` that announces `on`, or nothing: the listener gets the event, or
the device keeps it. -/
structure Announced (on : Option Bool) (d : CecDevice) (r : Outcome Obs CecDevice Unit) : Prop where
  state : r.st = if d.vendorEventListener = true then d else
    { d with cachedRoutingEvent := (on.map activenessEvent).or d.cachedRoutingEvent }
  events : vendorEvents r.log =
    if d.vendorEventListener = true then (on.map activenessEvent).toList else []

theorem announced_none (d : CecDevice) : Announced none d ((pure () : CecM Unit).run d) where
  state := by
    split <;> rfl
  events := by
    split <;> rfl

theorem notifyActiveness_announced (on : Bool) (d : CecDevice) :
    Announced (some on) d ((notifyActiveness on).run d) := by
  cases hlistener : d.vendorEventListener with
  | true =>
    simp only [notifyActiveness, run_bind, writeBody_run, run_read, hlistener, if_true]
    exact ⟨(if_pos hlistener).symm, (if_pos hlistener).symm⟩
  | false =>
    have hno : ¬ d.vendorEventListener = true := hlistener ▸ Bool.false_ne_true
    simp only [notifyActiveness, run_bind, writeBody_run, run_read, if_neg hno]
    exact ⟨(if_neg hno).symm, (if_neg hno).symm⟩

variable {d : CecDevice}

theorem Announced.readBody {on : Option Bool} {d' : CecDevice} {x : CecM Unit} (is : List Int)
    (h : Announced on d' (x.run d)) : Announced on d' ((readBody is >>= fun _ => x).run d) where
  state := h.state
  events := by
    rw [run_bind]
    change vendorEvents (_ ++ _) = _
    rw [vendorEvents_append, vendorEvents_readBody]
    exact h.events

theorem updateActiveReceived_announced (m : CecMessage) (d : CecDevice) :
    Announced (receivedActiveness m d.phyAddr) d ((updateActiveReceived m).run d) := by
  unfold updateActiveReceived receivedActiveness
  split
  · exact .readBody _ (notifyActiveness_announced _ d)
  · split
    · exact notifyActiveness_announced false d
    · by_cases hpower : m.opcode = reportPowerStatus ∧ m.initiator = addrTv ∧ m.length = 2
      · rw [if_pos hpower]
        by_cases hstandby : m.byte 1 = 1
        · rw [if_pos hstandby, if_pos ⟨hpower, hstandby⟩]
          exact .readBody _ (notifyActiveness_announced false d)
        · rw [if_neg hstandby, if_neg fun h => hstandby h.2]
          exact .readBody _ (announced_none d)
      · rw [if_neg hpower, if_neg fun h => hpower h.1]
        exact announced_none d

variable (io : CecIo)

theorem updateActiveState_announced (m : CecMessage) (received : Bool) (d : CecDevice) :
    Announced (activenessOf io m received d) (d.refreshed io received)
      ((updateActiveState io m received).run d) := by
  unfold updateActiveState activenessOf refreshed
  rw [run_read]
  cases hplay : d.isPlayback with
  | false => exact announced_none d
  | true =>
    refine .readBody [0] ?_
    cases received with
    | true =>
      cases henabled : d.isCecEnabled with
      | true => exact updateActiveReceived_announced m d
      | false =>
        have h := updateActiveReceived_announced m ((getPhysicalAddress io).run d).st
        exact ⟨h.state, h.events⟩
    | false =>
      change Announced (if m.opcode = activeSource then some true else none) d
        ((if m.opcode = activeSource then notifyActiveness true else pure ()).run d)
      split
      · exact notifyActiveness_announced true d
      · exact announced_none d

/-! ## The two readings of an Active Source message -/

theorem validate_activeSource {e : CecEvent} (d : CecDevice)
    (hop : e.cec.opcode = activeSource) :
    (messageValidateAndHandle io e).run d = ⟨e, d, [.access ⟨.body, 0, false⟩]⟩ := by
  have hother : ∀ op ∈ [deviceVendorId, setAudioVolumeLevel,
      reportPhysicalAddress, routingChange, routingInformation,
      givePhysicalAddress, setMenuLanguage, giveOsdName],
      ¬ activeSource = op := by decide
  simp only [forall_mem_cons, not_mem_nil, false_imp_iff, implies_true, and_true] at hother
  simp only [messageValidateAndHandle, validateCommon, validateForRole, validateTv,
    validatePlayback,
    run_bind, readBody_run, run_read, run_pure, hop, hother, false_or, false_and, if_false,
    ite_self]
  rfl

/-- The activeness events of an outcome on `d`: what the vendor listener gets, or what is kept for
it. -/
def activenessEvents (d : CecDevice) (r : Outcome Obs CecDevice Unit) : List CecEvent :=
  if d.vendorEventListener = true then vendorEvents r.log else r.st.cachedRoutingEvent.toList

variable {r : Outcome Obs CecDevice Unit}

theorem Announced.activenessEvents_eq {on : Bool} (h : Announced (some on) d r) :
    activenessEvents d r = [activenessEvent on] := by
  unfold activenessEvents
  split
  · next hlistener => rw [h.events, if_pos hlistener]; rfl
  · next hlistener => rw [h.state, if_neg hlistener]; rfl

theorem Announced.keeps {on : Option Bool} (h : Announced on d r) :
    ∃ kept, r.st = { d with cachedRoutingEvent := kept } := by
  rw [h.state]
  split
  · exact ⟨d.cachedRoutingEvent, rfl⟩
  · exact ⟨_, rfl⟩

theorem CecDevice.refreshed_keeps (received : Bool) (d : CecDevice) :
    ∃ addr, d.refreshed io received = { d with phyAddr := addr } := by
  unfold refreshed getPhysicalAddress
  split
  · rw [run_modify]
    split
    · exact ⟨_, rfl⟩
    · exact ⟨d.phyAddr, rfl⟩
  · exact ⟨d.phyAddr, rfl⟩

def CecDevice.recorded (m : CecMessage) (d : CecDevice) : CecDevice :=
  { d with activeLogicalAddr := m.initiator.toNat, activeRoutingPath := m.word 1 2 }

variable {m : CecMessage} {f : Frame}

theorem handleOTPMsg_announced (eventType : Nat) (hplay : d.isPlayback = true)
    (hop : m.opcode = activeSource) :
    let d₁ := (d.recorded m).refreshed io true
    Announced (some (comparedPath m = d₁.phyAddr : Bool)) d₁
      ((handleOTPMsg io ⟨eventType, m⟩).run d) := by
  have h := updateActiveState_announced io m true (d.recorded m)
  have hon : activenessOf io m true (d.recorded m) =
      some (comparedPath m = ((d.recorded m).refreshed io true).phyAddr : Bool) := by
    unfold activenessOf receivedActiveness
    rw [if_neg fun h => absurd (h.symm.trans hplay) Bool.false_ne_true, if_pos rfl,
      if_pos (.inr (.inr hop))]
  rw [hon] at h
  unfold handleOTPMsg recordActiveSource
  rw [if_pos hop]
  exact ⟨h.state, h.events⟩

theorem Frame.not_ping (hop : f.message.opcode = activeSource) : ¬ f.bytes.length ≤ 1 := by
  intro hlen
  have htail : f.bytes.tail = [] := by
    rw [← length_eq_zero_iff, length_tail]
    omega
  simp only [Frame.message, htail] at hop
  exact absurd (show (0 : BitVec 8) = activeSource from hop) (by decide)

/-- Around `handleOTPMsg` the vendor listener gets nothing of an Active Source message. -/
theorem readCecMessage_otp (d : CecDevice) (hop : f.message.opcode = activeSource) :
    let o := (handleOTPMsg io ⟨eventCecMessage, f.message⟩).run d
    ((readCecMessage io f).run d).st = o.st ∧
      vendorEvents ((readCecMessage io f).run d).log = vendorEvents o.log := by
  obtain ⟨pre, hpre, hrun⟩ := readCecMessage_run io d (Frame.not_ping hop)
  rw [validate_activeSource io d hop] at hrun
  rw [hrun]
  refine ⟨rfl, ?_⟩
  simp only [vendorEvents_append, vendorEvents_access hpre]
  split
  · exact append_nil _
  · exact append_nil _

theorem readCecMessage_activeSource (hplay : d.isPlayback = true)
    (hop : f.message.opcode = activeSource) :
    let r := (readCecMessage io f).run d
    r.st.activeRoutingPath = f.message.word 1 2 ∧
      activenessEvents d r = [activenessEvent (comparedPath f.message = r.st.phyAddr)] := by
  obtain ⟨hst, hevents⟩ := readCecMessage_otp io d hop
  have hann := handleOTPMsg_announced io eventCecMessage hplay hop
  obtain ⟨addr, hrefresh⟩ := refreshed_keeps io true _
  obtain ⟨kept, hkept⟩ := hann.keeps
  have hend : ((readCecMessage io f).run d).st =
      { d.recorded f.message with phyAddr := addr, cachedRoutingEvent := kept } := by
    rw [hst, hkept, hrefresh]
  rw [hrefresh] at hann
  have htold := hann.activenessEvents_eq
  refine ⟨congrArg activeRoutingPath hend, ?_⟩
  rw [hend]
  refine Eq.trans ?_ htold
  unfold activenessEvents
  rw [hevents, hst]
  rfl

theorem CecMessage.word_inj {i j k l : Int} :
    m.word i j = m.word k l ↔ m.byte i = m.byte k ∧ m.byte j = m.byte l := by
  constructor
  · intro h
    unfold word at h
    exact ⟨BitVec.eq_of_toNat_eq (by omega), BitVec.eq_of_toNat_eq (by omega)⟩
  · rintro ⟨hik, hjl⟩
    unfold word
    rw [hik, hjl]

theorem CecMessage.byte_sub {k : Nat} (h : k ≤ m.length) :
    m.byte ((m.length : Int) - k) = m.body.getD (m.length - k) 0 := by
  unfold byte
  rw [if_neg (by omega), show ((m.length : Int) - k).toNat = m.length - k by omega]

/-- The recorded path is the compared one, and the event says that the device is active exactly if
it is the own address. -/
def ReadsOnePath (d : CecDevice) (m : CecMessage) (r : Outcome Obs CecDevice Unit) : Prop :=
  r.st.activeRoutingPath = comparedPath m ∧
    (activenessEvents d r = [activenessEvent true] ↔ r.st.activeRoutingPath = r.st.phyAddr)

/-- In a message of three bytes they are. -/
theorem activeSource_path_iff (io : CecIo) {f : Frame} {d : CecDevice} (hplay : d.isPlayback = true)
    (hop : f.message.opcode = Opcode.activeSource) (hlen : 3 ≤ f.message.length) :
    ReadsOnePath d f.message ((readCecMessage io f).run d) ↔
      f.message.body.getD 1 0 = f.message.body.getD (f.message.length - 2) 0 ∧
        f.message.body.getD 2 0 = f.message.body.getD (f.message.length - 1) 0 := by
  obtain ⟨hpath, hevents⟩ := readCecMessage_activeSource io hplay hop
  unfold ReadsOnePath
  rw [hpath, hevents]
  have hword : f.message.word 1 2 = comparedPath f.message ↔
      f.message.body.getD 1 0 = f.message.body.getD (f.message.length - 2) 0 ∧
        f.message.body.getD 2 0 = f.message.body.getD (f.message.length - 1) 0 := by
    unfold comparedPath
    rw [word_inj, ← byte_sub (by omega),
      ← byte_sub (by omega)]
    rfl
  rw [← hword]
  refine and_iff_left_of_imp fun hsame => ?_
  rw [hsame]
  constructor
  · exact fun h => of_decide_eq_true (activenessEvent_injective (cons.inj h).1)
  · intro h
    rw [decide_eq_true h]

/-- A message of three bytes with the own address makes the device active. -/
theorem activeSource_own_active :
    let f : Frame := ⟨[0x4F, 0x82, 0x10, 0x00], by decide⟩
    ReadsOnePath (freshDevice false true) f.message
      ((readCecMessage quietIo f).run (freshDevice false true)) := by
  exact (activeSource_path_iff quietIo rfl rfl
    (by decide)).mpr (by decide)

/-- For the address `0x1000` it is recorded as that path, and makes a device with that address
inactive. -/
theorem oneTouchPlay_pathDiffers :
    let f : Frame := ⟨[0x4F, 0x82, 0x10, 0x00, 0x04], by decide⟩
    let r := (readCecMessage quietIo f).run (freshDevice false true)
    .driverWrite f.bytes ∈ ((sendOneTouchPlay quietIo 4).run (freshDevice false true)).log ∧
      r.st.activeRoutingPath = 0x1000 ∧ r.st.phyAddr = 0x1000 ∧ comparedPath f.message = 0x0004 ∧
      activenessEvents (freshDevice false true) r = [activenessEvent false] := by
  decide +kernel

/-! ## The event for a listener to come -/

/-- The end of `setVendorEventObserver`. -/
def enableDriverAgain : CecM Unit :=
  Traced.read fun d =>
    if d.isCecEnabled = false then do
      let _ ← handleCecEnabled 0
      emit (.ioctl .enableCec 1)
    else
      pure ()

/-- `setVendorEventObserver`. `cached` is what `mCachedRoutingEvent` points to, as it is read. -/
def setVendorEventObserver (cached : Option CecEvent) : CecM Unit := do
  modify fun d => { d with vendorEventListener := true }
  match cached with
  | none => enableDriverAgain
  | some e => do
    emit (.vendorEvent e)
    enableDriverAgain

/-- A call of `updateActiveState`. -/
structure ActivenessUpdate where
  io : CecIo
  message : CecMessage
  received : Bool

/-- The device between calls, the number of the next call, and the call whose local variable
`mCachedRoutingEvent` points to. -/
structure Calls where
  device : CecDevice
  next : Nat
  owner : Option Nat

namespace Calls

/-- The update computes an event, and points `mCachedRoutingEvent` to it if there is no listener. -/
def update (s : Calls) (u : ActivenessUpdate) : Calls × Option CecEvent :=
  let event := (activenessOf u.io u.message u.received s.device).map activenessEvent
  let pointed := event.isSome && !s.device.vendorEventListener
  ({ device := ((updateActiveState u.io u.message u.received).run s.device).st
     next := s.next + 1
     owner := if pointed = true then some s.next else s.owner }, event)

/-- The variable that `mCachedRoutingEvent` points to belongs to the running call. -/
def Alive (s : Calls) : Prop := s.owner = some s.next

instance (s : Calls) : Decidable s.Alive := inferInstanceAs (Decidable (_ = _))

/-- What the running call reads through `mCachedRoutingEvent`. Of a variable that is gone it reads
what the stack holds in its place. -/
def cached (s : Calls) (stack : CecEvent) : Option CecEvent :=
  match s.device.cachedRoutingEvent with
  | none => none
  | some e => some (if s.Alive then e else stack)

end Calls

def updateMachine : Machine Calls ActivenessUpdate (Option CecEvent) where
  step := Calls.update

def latestEvent (h : List (ActivenessUpdate × Option CecEvent)) : Option CecEvent :=
  h.foldl (fun latest x => x.2.or latest) none

theorem latestEvent_snoc (h : List (ActivenessUpdate × Option CecEvent))
    (x : ActivenessUpdate × Option CecEvent) :
    latestEvent (h ++ [x]) = x.2.or (latestEvent h) := by
  unfold latestEvent
  rw [foldl_append]
  rfl

/-- What holds as long as there is no listener: the pointer was set to the latest event, in a call
that is over. -/
structure Waiting (h : List (ActivenessUpdate × Option CecEvent)) (s : Calls) : Prop where
  listener : s.device.vendorEventListener = false
  cached : s.device.cachedRoutingEvent = latestEvent h
  finished : ∀ k, s.owner = some k → k < s.next

theorem Waiting.step {h : List (ActivenessUpdate × Option CecEvent)} {s : Calls} (hw : Waiting h s)
    (u : ActivenessUpdate) :
    Waiting (h ++ [(u, (updateMachine.step s u).2)]) (updateMachine.step s u).1 := by
  have hann := updateActiveState_announced u.io u.message u.received s.device
  obtain ⟨addr, hrefresh⟩ := refreshed_keeps u.io u.received s.device
  have hstate := hann.state
  rw [hrefresh, if_neg (by rw [hw.listener]; exact Bool.false_ne_true)] at hstate
  refine ⟨?_, ?_, ?_⟩
  · exact (congrArg vendorEventListener hstate).trans hw.listener
  · rw [latestEvent_snoc, ← hw.cached]
    exact congrArg cachedRoutingEvent hstate
  · intro k hk
    change (if _ then some s.next else s.owner) = some k at hk
    split at hk
    · cases hk
      exact Nat.lt_succ_self s.next
    · exact Nat.lt_succ_of_lt (hw.finished k hk)

theorem enableDriverAgain_events (d : CecDevice) :
    vendorEvents (enableDriverAgain.run d).log = [] := by
  simp only [enableDriverAgain, handleCecEnabled, run_read, run_ite, run_bind]
  split
  · split <;> rfl
  · rfl

theorem setVendorEventObserver_events (cached : Option CecEvent) :
    vendorEvents ((setVendorEventObserver cached).run d).log = cached.toList := by
  unfold setVendorEventObserver
  cases cached with
  | none => exact enableDriverAgain_events _
  | some e =>
    simp only [run_bind, run_modify, run_emit, vendorEvents_append, enableDriverAgain_events]
    rfl

def Calls.start (d : CecDevice) : Calls :=
  ⟨{ d with vendorEventListener := false, cachedRoutingEvent := none }, 0, none⟩

theorem waiting_exec (d : CecDevice) (us : List ActivenessUpdate) :
    Waiting (updateMachine.exec (.start d) us).1 (updateMachine.exec (.start d) us).2 :=
  have hrun := Machine.run_exec (C := fun _ _ => True) us (Machine.always_of_mem fun _ _ => trivial)
  hrun.invariant Waiting ⟨rfl, rfl, fun k hk => by cases hk⟩ fun _ _ u hw _ => hw.step u

/-- Setting a vendor listener in `s` delivers exactly the latest event, and reads it from a variable
that is alive. -/
def DeliversLatest (h : List (ActivenessUpdate × Option CecEvent)) (s : Calls)
    (stack : CecEvent) : Prop :=
  vendorEvents ((setVendorEventObserver (s.cached stack)).run s.device).log =
    (latestEvent h).toList ∧ (s.device.cachedRoutingEvent.isSome = true → s.Alive)

theorem cachedEvent_latest_iff (d : CecDevice) (us : List ActivenessUpdate) (stack : CecEvent) :
    let r := updateMachine.exec (.start d) us
    DeliversLatest r.1 r.2 stack ↔ latestEvent r.1 = none := by
  intro r
  have hw : Waiting r.1 r.2 := waiting_exec d us
  have hgone : ¬ r.2.Alive := fun h => Nat.lt_irrefl _ (hw.finished _ h)
  constructor
  · rintro ⟨-, halive⟩
    rw [hw.cached] at halive
    exact Option.not_isSome_iff_eq_none.mp fun h => hgone (halive h)
  · intro hnone
    rw [DeliversLatest, setVendorEventObserver_events, Calls.cached, hw.cached, hnone]
    exact ⟨rfl, fun h => absurd h Bool.false_ne_true⟩

theorem staleEvent_delivered :
    let active : ActivenessUpdate := ⟨quietIo, .ofBytes 4 addrBroadcast [0x82, 0x10, 0x00], true⟩
    let r := updateMachine.exec (.start (freshDevice false true)) [active]
    let other : CecEvent := ⟨0, .ofBytes 0 0 []⟩
    latestEvent r.1 = some (activenessEvent true) ∧ ¬ r.2.Alive ∧
      vendorEvents ((setVendorEventObserver (r.2.cached other)).run r.2.device).log = [other] := by
  decide +kernel

end AmlogicHal.Cec
