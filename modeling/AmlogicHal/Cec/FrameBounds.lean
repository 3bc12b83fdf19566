import AmlogicHal.Cec.Effects

/-!
# Array bounds on the receive and send paths

Both paths index fixed arrays with values from outside: body indices relative to the length of a
message, and logical addresses into two tables of fifteen entries, with none for the broadcast
address.

* `readCecMessage_inBounds_iff`: a frame from the bus is handled within bounds unless it comes from
  address 15 and is stored under it, or it is a routing message without its two address bytes for a
  playback device.
* `aidlSendMessage_inBounds_iff`: a client's message is sent within bounds unless it has sixteen
  bytes or more, or it is addressed to 15 and makes the HAL use a table.
-/

namespace AmlogicHal.Cec

open Traced Opcode Buffer List

/-- The accesses that `which` selects are inside their arrays. -/
def Guarded (which : Access → Bool) : Obs → Prop
  | .access a => which a = true → a.InBounds
  | _ => True

variable {which : Access → Bool}

/-! ## Accesses -/

theorem readBody_all (is : List Int) (d : CecDevice) :
    (readBody is).All (Guarded which) d ↔ ∀ i ∈ is, which ⟨.body, i, false⟩ = true →
    0 ≤ i ∧ i < 16 := by
  simp [readBody, Guarded, Access.InBounds, size]

theorem writeBody_all (is : List Int) (d : CecDevice) :
    (writeBody is).All (Guarded which) d ↔ ∀ i ∈ is, which ⟨.body, i, true⟩ = true →
    0 ≤ i ∧ i < 16 := by
  simp [writeBody, Guarded, Access.InBounds, size]

/-- The tables have an entry for every address but the broadcast one. -/
theorem tableAccess_guarded {b : Buffer} (hb : b = .vendorIds ∨ b = .addedPhyAddr)
    (a : LogicalAddress) (write : Bool) :
    Guarded which (.access ⟨b, a.toNat, write⟩) ↔
    (which ⟨b, a.toNat, write⟩ = true → a ≠ addrBroadcast) := by
  have hne : a ≠ addrBroadcast ↔ (a.toNat : Int) < 15 := by
    rw [Ne, ← BitVec.toNat_inj]
    show ¬ a.toNat = 15 ↔ _
    omega
  rcases hb with rfl | rfl <;>
    simp only [Guarded, Access.InBounds, size, hne] <;>
    exact ⟨fun h hw => (h hw).2, fun h hw => ⟨by omega, h hw⟩⟩

theorem copyAccesses_guarded {src dst : Buffer} {srcOff dstOff n : Nat}
    (hsrc : srcOff + n ≤ src.size) (hdst : dstOff + n ≤ dst.size) :
    ∀ o ∈ copyAccesses src dst srcOff dstOff n, Guarded which o := by
  intro o ho
  simp only [copyAccesses, mem_flatMap, mem_range, mem_cons, not_mem_nil, or_false] at ho
  obtain ⟨k, hk, rfl | rfl⟩ := ho
  · have hlt : srcOff + k < src.size := by omega
    exact fun _ => ⟨Int.natCast_nonneg _, Int.ofNat_lt.mpr hlt⟩
  · have hlt : dstOff + k < dst.size := by omega
    exact fun _ => ⟨Int.natCast_nonneg _, Int.ofNat_lt.mpr hlt⟩

@[simp] theorem sendMsg_all (msg : CMessage) (d : CecDevice) :
    (sendMsg msg).All (Guarded which) d := by simp [sendMsg, Guarded]

@[simp] theorem removeMsg_all (type : MsgType) (d : CecDevice) :
    (removeMsg type).All (Guarded which) d := by simp [removeMsg, Guarded]

variable (io : CecIo) (d : CecDevice)

@[simp] theorem getPhysicalAddress_all :
    (getPhysicalAddress io).All (Guarded which) d := by simp [getPhysicalAddress]

@[simp] theorem notifyActiveness_all (on : Bool) : (notifyActiveness on).All (Guarded which) d := by
  simp only [notifyActiveness, all_bind, all_read, all_ite, writeBody_all]
  split <;> simp [Guarded]

/-! ## Receiving -/

def anyAccess (_ : Access) : Bool := true

/-- The messages whose last two bytes are a routing path. -/
def CecMessage.Routing (m : CecMessage) : Prop :=
  m.opcode = Opcode.setStreamPath ∨ m.opcode = Opcode.routingChange ∨
    m.opcode = Opcode.activeSource

instance (m : CecMessage) : Decidable m.Routing := inferInstanceAs (Decidable (_ ∨ _ ∨ _))

variable {m : CecMessage}

theorem updateActiveReceived_all (hlen : m.length ≤ 16) :
    (updateActiveReceived m).All (Guarded anyAccess) d ↔ (m.Routing → 2 ≤ m.length) := by
  unfold updateActiveReceived
  split
  · next h =>
    have hr : m.Routing := h
    simp only [all_bind, readBody_all, all_read, notifyActiveness_all, and_true, hr, true_implies]
    simp only [mem_cons, not_mem_nil, or_false, forall_eq_or_imp, forall_eq, anyAccess,
      true_implies]
    omega
  · next h =>
    have hr : ¬ m.Routing := h
    simp only [hr, false_implies, iff_true]
    split
    · simp
    · split
      · simp only [all_bind, readBody_all, all_ite]
        split <;> simp
      · simp

theorem updateActiveState_all (hlen : m.length ≤ 16) :
    (updateActiveState io m true).All (Guarded anyAccess) d ↔
    (d.isPlayback = true → m.Routing → 2 ≤ m.length) := by
  simp only [updateActiveState, all_read, all_ite]
  split
  · next h => simp [h]
  · next h =>
    have hp : d.isPlayback = true := by simpa using h
    simp only [all_bind, readBody_all, all_ite, if_true, hp, true_implies]
    split <;> simp [updateActiveReceived_all _ hlen]

/-- The frame is stored under the address it comes from. -/
def StoresInitiator (d : CecDevice) (m : CecMessage) : Prop :=
  m.opcode = Opcode.deviceVendorId ∨
    (d.isTv = true ∧ m.opcode = Opcode.reportPhysicalAddress ∧ m.byte 1 ≠ 0)

variable (e : CecEvent)

theorem validateCommon_all :
    (validateCommon e).All (Guarded anyAccess) d ↔
      (e.cec.opcode = deviceVendorId → e.cec.initiator ≠ addrBroadcast) := by
  simp only [validateCommon, all_bind, readBody_all, all_ite]
  split
  · next h =>
    simp only [writeTable, all_emit, tableAccess_guarded (.inl rfl), anyAccess, true_implies,
      all_modify, all_pure, and_true, h]
    simp
  · next h =>
    simp only [h, false_implies, iff_true]
    split <;> simp

theorem filterReport_all : (filterReport e).All (Guarded anyAccess) d ↔
    e.cec.initiator ≠ addrBroadcast := by
  simp only [filterReport, all_bind, all_read, all_ite, readTable, all_emit, writeTable,
    tableAccess_guarded (.inr rfl), anyAccess, true_implies, run_emit, all_modify, all_pure,
    and_true]
  split <;> simp [Guarded]

theorem validateTv_all :
    (validateTv e).All (Guarded anyAccess) d ↔
      (e.cec.opcode = reportPhysicalAddress → e.cec.byte 1 ≠ 0 →
        e.cec.initiator ≠ addrBroadcast) := by
  unfold validateTv
  split
  · next h =>
    simp only [all_bind, readBody_all, all_ite, h, true_implies]
    split
    · next h0 => simp [h0]
    · next h0 =>
      rw [filterReport_all]
      exact ⟨fun hall _ => hall.2, fun hne => ⟨by simp, hne h0⟩⟩
  · next h =>
    simp only [h, false_implies, iff_true]
    split <;> simp

theorem validatePlayback_all (d : CecDevice) :
    (validatePlayback io e).All (Guarded anyAccess) d := by
  unfold validatePlayback
  split
  · split <;> simp
  · split
    · unfold handleSetMenuLanguage
      split
      · simp
      · simp only [all_bind, readBody_all, readTable, all_emit, all_read, all_ite]
        refine ⟨by simp, (tableAccess_guarded (.inl rfl) _ _).mpr fun _ => by decide, ?_⟩
        split
        · simp [writeBody_all]
        · simp
    · split
      · simp only [all_read, all_ite]
        split <;> simp
      · simp

theorem validateForRole_all :
    (validateForRole io e).All (Guarded anyAccess) d ↔
      (d.isTv = true → e.cec.opcode = reportPhysicalAddress → e.cec.byte 1 ≠ 0 →
        e.cec.initiator ≠ addrBroadcast) := by
  simp only [validateForRole, all_read, all_ite]
  split
  · next h => simp [h, validateTv_all]
  · next h =>
    refine ⟨fun _ htv => absurd htv h, fun _ => ?_⟩
    split
    · exact validatePlayback_all io e d
    · simp

theorem validate_all :
    (messageValidateAndHandle io e).All (Guarded anyAccess) d ↔
      (StoresInitiator d e.cec → e.cec.initiator ≠ addrBroadcast) := by
  have htv : ((validateCommon e).run d).st.isTv = d.isTv :=
    congrArg View.isTv (validateCommon_view e d)
  simp only [messageValidateAndHandle, all_bind, validateCommon_all, validateForRole_all,
    validateCommon_cec, htv]
  constructor
  · rintro ⟨hvendor, hreport⟩ (h | ⟨ht, hop, h1⟩)
    · exact hvendor h
    · exact hreport ht hop h1
  · intro h
    exact ⟨fun hop => h (.inl hop), fun ht hop h1 => h (.inr ⟨ht, hop, h1⟩)⟩

theorem handleOTPMsg_all (hlen : e.cec.length ≤ 16) :
    (handleOTPMsg io e).All (Guarded anyAccess) d ↔
    (d.isPlayback = true → e.cec.Routing → 2 ≤ e.cec.length) := by
  have hrec : (recordActiveSource e.cec).All (Guarded anyAccess) d := by
    simp only [recordActiveSource, all_bind, readBody_all, all_ite]
    split <;> simp
  have hplay : ((recordActiveSource e.cec).run d).st.isPlayback = d.isPlayback := by
    simp only [recordActiveSource, run_bind, readBody_run, run_ite]
    split <;> rfl
  simp [handleOTPMsg, hrec, updateActiveState_all io _ hlen, hplay]

/-- The accesses of `handleOTPMsg` behind the validation, in terms of the message before it. -/
theorem handleValidated_all (d : CecDevice) (hlen : e.cec.length ≤ 16) :
    (handleOTPMsg io ((messageValidateAndHandle io e).run d).val).All (Guarded anyAccess)
        ((messageValidateAndHandle io e).run d).st ↔
      (d.isPlayback = true → e.cec.Routing → 2 ≤ e.cec.length) := by
  have hkeep : ((messageValidateAndHandle io e).run d).val.cec.opcode = e.cec.opcode ∧
      ((messageValidateAndHandle io e).run d).val.cec.length = e.cec.length := by
    have h := validateForRole_keeps io ((validateCommon e).run d).val ((validateCommon e).run d).st
    rwa [validateCommon_cec] at h
  have hplay : ((messageValidateAndHandle io e).run d).st.isPlayback = d.isPlayback := by
    have h1 := congrArg View.isPlayback (validateCommon_view e d)
    have h2 := congrArg View.isPlayback (validateForRole_view io ((validateCommon e).run d).val
      ((validateCommon e).run d).st)
    refine (h2.trans ?_).trans h1
    split <;> rfl
  rw [handleOTPMsg_all io _ _ (hkeep.2 ▸ hlen), hplay, hkeep.2]
  simp [CecMessage.Routing, hkeep.1]

/-- A ping is always in bounds. -/
theorem readCecMessage_inBounds_iff (io : CecIo) (f : Frame) (d : CecDevice) :
    (readCecMessage io f).All (Guarded anyAccess) d ↔
      f.bytes.length ≤ 1 ∨
        (¬ (f.message.initiator = addrBroadcast ∧ StoresInitiator d f.message) ∧
          ¬ (d.isPlayback = true ∧ f.message.Routing ∧ f.bytes.length = 2)) := by
  unfold readCecMessage
  split
  · next h => simp [h]
  · next h =>
    have hle := f.length_le
    simp only [bodyMaxLength] at hle
    have hmlen : f.message.length = f.bytes.length - 1 := length_tail
    have hcopy : ∀ o ∈ copyAccesses .msgBuf .body 1 0 (f.bytes.length - 1),
        Guarded anyAccess o :=
      copyAccesses_guarded (by simp only [size]; omega) (by simp only [size]; omega)
    have hheader : Guarded anyAccess (.access ⟨.msgBuf, 0, false⟩) := fun _ => by decide
    have htype : (initialEventType f).All (Guarded anyAccess) d := by
      simp only [initialEventType, all_read, all_ite]
      split
      · simp
      · simp only [all_bind, all_emit, all_pure, and_true]
        exact fun _ => by decide
    have hnotify : ∀ e d', (notifyListener e).All (Guarded anyAccess) d' := by
      intro e d'
      simp only [notifyListener, all_read, all_ite]
      split <;> simp [Guarded]
    have hst : ((initialEventType f).run d).st = d := by
      simp only [initialEventType, run_read, run_ite]
      split <;> rfl
    have hotp := handleValidated_all io ⟨((initialEventType f).run d).val, f.message⟩ d
      (show f.message.length ≤ 16 by omega)
    simp only [all_bind, all_emitAll, htype, hnotify, hst, validate_all, run_emitAll, hotp, h,
      false_or, and_true, true_and]
    have htwo : (d.isPlayback = true → f.message.Routing → 2 ≤ f.message.length) ↔
        ¬ (d.isPlayback = true ∧ f.message.Routing ∧ f.bytes.length = 2) := by
      constructor
      · rintro hall ⟨hp, hr, h2⟩
        have := hall hp hr
        omega
      · intro hno hp hr
        by_contra hlt
        exact hno ⟨hp, hr, by omega⟩
    have hinit : (StoresInitiator d f.message → f.message.initiator ≠ addrBroadcast) ↔
        ¬ (f.message.initiator = addrBroadcast ∧ StoresInitiator d f.message) :=
      ⟨fun hall hno => hall hno.2 hno.1, fun hno hs hi => hno ⟨hi, hs⟩⟩
    rw [htwo, hinit]
    exact ⟨fun hall => hall.2.2, fun hall => ⟨hcopy, by simp [hheader], hall⟩⟩

/-- `<Device Vendor ID>` from address 15 is stored in `vendor_ids[15]`, and a `<Set Stream Path>`
without an address makes a playback device read `body[-1]`. -/
theorem readCecMessage_overrun :
    Obs.access ⟨.vendorIds, 15, true⟩ ∈ ((readCecMessage quietIo
      ⟨[0xF0, 0x87, 0x00, 0x10, 0xFA], by decide⟩).run (freshDevice true false)).log ∧
    Obs.access ⟨.body, -1, false⟩ ∈ ((readCecMessage quietIo
      ⟨[0x04, 0x86], by decide⟩).run (freshDevice false true)).log := by
  decide +kernel

/-! ## Sending -/

/-- Writes to the two buffers, and every access to the tables. -/
def sendAccess (a : Access) : Bool :=
  a.write || a.buffer = .vendorIds || a.buffer = .addedPhyAddr

/-- `send` copies the body behind the header byte, so fifteen bytes fit. -/
theorem send_all : (send m).All (Guarded sendAccess) d ↔ m.length ≤ 15 := by
  have hread : ∀ l : List Int, (readBody l).All (Guarded sendAccess) d := fun l => by
    simp [readBody_all, sendAccess]
  have hscan : ∀ o ∈ (List.range (m.length + 1)).map fun k : Nat =>
      Obs.access ⟨.msgBuf, k, false⟩, Guarded sendAccess o := by
    intro o ho
    obtain ⟨k, -, rfl⟩ := mem_map.mp ho
    exact fun h => absurd h (by simp [sendAccess])
  have hheader : Guarded sendAccess (.access ⟨.msgBuf, 0, true⟩) := fun _ => by decide
  simp only [send, all_bind, all_emit, all_emitAll, run_emit, run_emitAll, hread, hheader, and_true,
    true_and]
  constructor
  · rintro ⟨hcopy, -⟩
    by_contra hlt
    -- the write of the sixteenth byte
    have hmem : Obs.access ⟨.msgBuf, 16, true⟩ ∈ copyAccesses .body .msgBuf 0 1 m.length := by
      refine mem_flatMap.mpr ⟨15, mem_range.mpr (by omega), ?_⟩
      exact mem_cons_of_mem _ (mem_cons_self ..)
    exact absurd (hcopy _ hmem rfl) (by decide)
  · intro hle
    exact ⟨copyAccesses_guarded (by simp only [size]; omega) (by simp only [size]; omega), hscan,
      trivial⟩

theorem sendLoop_poll (h : m.length = 0) (n k : Nat) :
    ((sendLoop io m n k).run d).val = io.writeResult k := by
  cases n with
  | zero => simp [sendLoop]
  | succ n => simp [sendLoop, h]

theorem postHandleOfSend_all (result : Int) :
    (postHandleOfSend m result).All (Guarded sendAccess) d ↔
      (m.length = 0 → result = resultNack → m.destination ≠ addrBroadcast) := by
  unfold postHandleOfSend
  split
  · next h =>
    simp only [all_bind, all_read, all_ite, readTable, writeTable, all_emit,
      tableAccess_guarded (.inr rfl), run_emit, all_modify, and_true, h.1, h.2, true_implies]
    simp only [sendAccess, decide_true, Bool.or_true, true_implies]
    split <;> simp
  · next h =>
    simp only [all_pure, true_iff]
    exact fun h0 hn => absurd ⟨h0, hn⟩ h

theorem updateActiveSent_all (m : CecMessage) (d : CecDevice) :
    (updateActiveState io m false).All (Guarded which) d := by
  simp only [updateActiveState, all_read, all_ite]
  split
  · simp
  · simp only [all_bind, readBody_all, all_ite]
    split
    · contradiction
    · split <;> simp

theorem updateActiveSent_st_isCecControlled :
    ((updateActiveState io m false).run d).st.isCecControlled = d.isCecControlled := by
  simp only [updateActiveState, run_read, run_ite, run_bind]
  split
  · rfl
  · split
    · contradiction
    · split
      · simp only [notifyActiveness, run_bind, run_read, run_ite]
        split <;> rfl
      · rfl

/-- The messages that make `preHandleOfSend` write to a table. -/
def CecMessage.Queries (m : CecMessage) : Prop :=
  m.opcode = Opcode.giveDeviceVendorId ∨ m.opcode = Opcode.givePhysicalAddress

instance (m : CecMessage) : Decidable m.Queries := inferInstanceAs (Decidable (_ ∨ _))

theorem preHandleOfSend_all :
    (preHandleOfSend io m).All (Guarded sendAccess) d ↔
    (m.Queries → m.destination ≠ addrBroadcast) := by
  have hw : ∀ b a, sendAccess ⟨b, a, true⟩ = true := fun _ _ => rfl
  simp only [preHandleOfSend, all_bind, readBody_all, all_ite]
  split
  · next h =>
    simp only [writeTable, all_emit, tableAccess_guarded (.inl rfl), hw, true_implies, all_modify,
      all_pure, and_true, CecMessage.Queries, h, true_or]
    simp
  · next h1 =>
    split
    · next h =>
      simp only [writeTable, all_emit, tableAccess_guarded (.inr rfl), hw, true_implies, all_modify,
        all_pure, and_true, CecMessage.Queries, h, or_true]
      simp
    · next h2 =>
      have hq : ¬ m.Queries := fun hq => hq.elim h1 h2
      simp only [hq, false_implies, iff_true]
      refine ⟨by simp, ?_⟩
      split
      · exact ⟨updateActiveSent_all io m _, by simp⟩
      · split
        · simp
        · split
          · simp only [all_read, all_ite]
            split <;> simp
          · simp

/-- The messages that a sleeping playback device does not send. -/
def Filtered (d : CecDevice) (m : CecMessage) : Prop :=
  (m.opcode = Opcode.activeSource ∨ m.opcode = Opcode.textViewOn ∨
    m.opcode = Opcode.imageViewOn) ∧ d.isPlayback = true ∧ d.isCecControlled = false

theorem preHandleOfSend_val (m : CecMessage) (d : CecDevice) :
    ((preHandleOfSend io m).run d).val = true ↔ Filtered d m := by
  have hplay : ((updateActiveState io m false).run d).st.isPlayback = d.isPlayback :=
    congrArg View.isPlayback (updateActiveState_view ..)
  simp only [preHandleOfSend, run_bind, readBody_run, run_ite]
  split
  · next h => simp [Filtered, h, giveDeviceVendorId, activeSource, textViewOn, imageViewOn]
  · split
    · next h => simp [Filtered, h, givePhysicalAddress, activeSource, textViewOn, imageViewOn]
    · split
      · next h => simp [Filtered, h, hplay, updateActiveSent_st_isCecControlled]
      · next ha =>
        split
        · next h => simp [Filtered, h]
        · next h =>
          have hno : ¬ Filtered d m := fun hf => hf.1.elim ha h
          simp only [hno, iff_false]
          split
          · simp only [run_read, run_ite]
            split <;> simp
          · simp

theorem sendChecked_all :
    (sendChecked io m).All (Guarded sendAccess) d ↔
      (m.Queries → m.destination ≠ addrBroadcast) ∧
        (Filtered d m ∨ (m.length ≤ 15 ∧ (m.length = 0 → io.writeResult 0 = resultNack →
          m.destination ≠ addrBroadcast))) := by
  simp only [sendChecked, all_bind, all_ite, preHandleOfSend_all]
  refine and_congr_right fun _ => ?_
  split
  · next h => simp [(preHandleOfSend_val io m d).mp h]
  · next h =>
    have hno : ¬ Filtered d m := fun hf => h ((preHandleOfSend_val io m d).mpr hf)
    simp only [hno, false_or, sendLoop_all, send_all, postHandleOfSend_all, all_pure, and_true]
    refine and_congr_right fun _ => ?_
    constructor
    · intro hall h0
      simpa only [sendLoop_poll io _ h0] using hall h0
    · intro hall h0
      simpa only [sendLoop_poll io _ h0] using hall h0

/-- So is one that does not get past the checks of `sendMessage`. The table is used before the
message is sent, or for a poll that nobody answers. -/
theorem aidlSendMessage_inBounds_iff (io : CecIo) (a : AidlMessage) (d : CecDevice) :
    (aidlSendMessage io a).All (Guarded sendAccess) d ↔
      ¬ (d.driverOpen = true ∧ d.isCecEnabled = true) ∨
        (¬ (a.destination = addrBroadcast ∧ (a.toCec io.stale).Queries) ∧
          (Filtered d (a.toCec io.stale) ∨
            (a.body.length ≤ 15 ∧
              ¬ (a.body = [] ∧ a.destination = addrBroadcast ∧
                io.writeResult 0 = resultNack)))) := by
  have hlen : (a.toCec io.stale).length = min a.body.length 16 := rfl
  have hdest : (a.toCec io.stale).destination = a.destination := rfl
  have hfill : (writeBody ((List.range (min a.body.length bodyMaxLength)).map
      fun k : Nat => (k : Int))).All (Guarded sendAccess) d := by
    rw [writeBody_all]
    intro i hi _
    obtain ⟨k, hk, rfl⟩ := mem_map.mp hi
    have hk16 := mem_range.mp hk
    simp only [bodyMaxLength] at hk16
    omega
  have hempty : a.body = [] ↔ min a.body.length 16 = 0 := by
    rw [← length_eq_zero_iff]
    omega
  simp only [aidlSendMessage, all_bind, hfill, true_and, writeBody_run, sendMessage, all_read,
    all_ite]
  split
  · next h =>
    simp only [all_pure, true_iff]
    refine .inl fun hboth => ?_
    rcases h with h | h
    · simp [h] at hboth
    · simp [h] at hboth
  · next h =>
    have hopen : d.driverOpen = true ∧ d.isCecEnabled = true := by
      constructor
      · by_contra hc
        exact h (.inl (by simpa using hc))
      · by_contra hc
        exact h (.inr (by simpa using hc))
    rw [sendChecked_all, hlen, hdest, hempty]
    simp only [hopen, and_self, not_true_eq_false, false_or]
    refine and_congr ?_ (or_congr Iff.rfl (and_congr (by omega) ?_))
    · exact ⟨fun hq hno => hq hno.2 hno.1, fun hno hq hd => hno ⟨hd, hq⟩⟩
    · exact ⟨fun hp hno => hp hno.1 hno.2.2 hno.2.1, fun hno h0 hn hd => hno ⟨h0, hd, hn⟩⟩

/-- A body of sixteen bytes, which the AIDL service lets through, makes `send` write `msgBuf[16]`,
and `<Give Physical Address>` to address 15 clears `added_phy_addr[15]`. -/
theorem aidlSendMessage_overrun :
    Obs.access ⟨.msgBuf, 16, true⟩ ∈ ((aidlSendMessage quietIo
      ⟨0, 4, List.replicate 16 0xA0⟩).run (freshDevice true false)).log ∧
    Obs.access ⟨.addedPhyAddr, 15, true⟩ ∈ ((aidlSendMessage quietIo
      ⟨0, 15, [Opcode.givePhysicalAddress]⟩).run (freshDevice true false)).log := by
  decide +kernel

end AmlogicHal.Cec
