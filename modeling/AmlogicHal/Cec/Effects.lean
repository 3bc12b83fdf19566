import AmlogicHal.Cec.Control

/-!
# What the CEC operations leave alone

`CecDevice.view` is the part of the device that decides where a received message goes: the role of
the device, its switches and the table of added addresses. Most operations do not change it; the
lemmas here say so, and what validation does to a message. `Obs.Plain` is the same for what an
operation records: it holds of everything but a delivery to the listener and a drop by the filter.
-/

namespace AmlogicHal.Cec

open Traced Obs CecMessage

/-- The part of the device that decides where a received message goes. -/
structure View where
  driverOpen : Bool
  isTv : Bool
  isPlayback : Bool
  isCecEnabled : Bool
  eventListener : Bool
  addedPhyAddr : List Nat
deriving DecidableEq, Repr

def CecDevice.view (d : CecDevice) : View :=
  ⟨d.driverOpen, d.isTv, d.isPlayback, d.isCecEnabled, d.eventListener, d.addedPhyAddr⟩

/-! ## Emitting operations -/

variable (is : List Int) (b : Buffer) (m : CecMessage) (io : CecIo) (e : CecEvent) (d : CecDevice)
  (a : LogicalAddress)

@[simp] theorem readBody_run :
    (readBody is).run d = ⟨(), d, is.map fun i => .access ⟨.body, i, false⟩⟩ := rfl

@[simp] theorem writeBody_run :
    (writeBody is).run d = ⟨(), d, is.map fun i => .access ⟨.body, i, true⟩⟩ := rfl

@[simp] theorem readTable_run : (readTable b a).run d = ⟨(), d, [.access ⟨b, a.toNat, false⟩]⟩ :=
  rfl

@[simp] theorem writeTable_run : (writeTable b a).run d = ⟨(), d, [.access ⟨b, a.toNat, true⟩]⟩ :=
  rfl

@[simp] theorem sendMsg_run (msg : CMessage) : (sendMsg msg).run d = ⟨(), d, [.sendMsg msg]⟩ := rfl

@[simp] theorem removeMsg_run (type : MsgType) :
    (removeMsg type).run d = ⟨(), d, [.removeMsg type]⟩ := rfl

@[simp] theorem send_st : ((send m).run d).st = d := by
  simp [send]

/-! ## Activeness -/

theorem getPhysicalAddress_view : ((getPhysicalAddress io).run d).st.view = d.view := by
  simp only [getPhysicalAddress, run_modify]
  split <;> rfl

theorem notifyActiveness_view (on : Bool) (d : CecDevice) :
    ((notifyActiveness on).run d).st.view = d.view := by
  simp only [notifyActiveness, run_bind, writeBody_run, run_read, run_ite]
  split <;> rfl

theorem updateActiveReceived_view : ((updateActiveReceived m).run d).st.view = d.view := by
  unfold updateActiveReceived
  split
  · simp [notifyActiveness_view]
  · split
    · exact notifyActiveness_view _ d
    · split
      · split
        · exact notifyActiveness_view _ d
        · rfl
      · rfl

theorem updateActiveState_view (received : Bool) :
    ((updateActiveState io m received).run d).st.view = d.view := by
  simp only [updateActiveState, run_read, run_ite, run_bind, readBody_run]
  split
  · rfl
  · split
    · split
      · rw [updateActiveReceived_view, getPhysicalAddress_view]
      · exact updateActiveReceived_view m d
    · split
      · exact notifyActiveness_view _ d
      · rfl

theorem handleOTPMsg_view : ((handleOTPMsg io e).run d).st.view = d.view := by
  simp only [handleOTPMsg, recordActiveSource, run_bind, readBody_run, updateActiveState_view,
    run_ite]
  split <;> rfl

/-! ## Validation -/

theorem validateCommon_frame :
    ((validateCommon e).run d).st.view = d.view ∧ ((validateCommon e).run d).val.cec = e.cec := by
  simp only [validateCommon, run_bind, readBody_run, run_ite, writeTable_run, removeMsg_run,
    sendMsg_run, run_modify, run_pure]
  split
  · exact ⟨rfl, rfl⟩
  · split <;> exact ⟨rfl, rfl⟩

theorem validateCommon_view : ((validateCommon e).run d).st.view = d.view :=
  (validateCommon_frame e d).1

theorem validateCommon_cec : ((validateCommon e).run d).val.cec = e.cec :=
  (validateCommon_frame e d).2

theorem handleSetMenuLanguage_view : ((handleSetMenuLanguage e).run d).st.view = d.view := by
  unfold handleSetMenuLanguage
  split
  · rfl
  · rw [run_bind, run_bind, run_read, run_ite]
    split <;> rfl

theorem validatePlayback_view : ((validatePlayback io e).run d).st.view = d.view := by
  unfold validatePlayback
  split
  · split <;> rfl
  · split
    · exact handleSetMenuLanguage_view e d
    · split
      · simp only [run_read, run_ite]
        split <;> rfl
      · rfl

/-- The filter for reports leaves everything but the entry of the reporting device alone. -/
theorem filterReport_view :
    ((filterReport e).run d).st.view =
      (if d.addedAt e.cec.initiator = e.cec.word 1 2 then d
        else d.setAdded e.cec.initiator (e.cec.word 1 2)).view := by
  simp only [filterReport, run_bind, readTable_run, run_read, run_ite]
  split <;> rfl

/-- A report of a physical address that the filter looks at. -/
def CecMessage.Report (m : CecMessage) : Prop :=
  m.opcode = Opcode.reportPhysicalAddress ∧ m.byte 1 ≠ 0

instance (m : CecMessage) : Decidable m.Report := inferInstanceAs (Decidable (_ ∧ _))

theorem CecMessage.byte_one_of_not_report {m : CecMessage}
    (hop : m.opcode = Opcode.reportPhysicalAddress) (h : ¬ m.Report) : m.byte 1 = 0 := by
  by_contra hne
  exact h ⟨hop, hne⟩

theorem validateTv_report {e : CecEvent} (h : e.cec.Report) :
    (validateTv e).run d =
      ⟨((filterReport e).run d).val, ((filterReport e).run d).st,
        [1, 2, 1].map (fun i => .access ⟨.body, i, false⟩) ++ ((filterReport e).run d).log⟩ := by
  simp only [validateTv, if_pos h.1, run_bind, readBody_run, if_neg h.2]

theorem validateTv_other {e : CecEvent} (h : ¬ e.cec.Report) : ((validateTv e).run d).st = d := by
  unfold validateTv
  split
  · next hop =>
    have h0 := byte_one_of_not_report hop h
    simp only [run_bind, readBody_run, if_pos h0, removeMsg_run, sendMsg_run, run_pure]
  · split <;> rfl

theorem validateForRole_view :
    ((validateForRole io e).run d).st.view =
      (if d.isTv = true ∧ e.cec.Report ∧ d.addedAt e.cec.initiator ≠ e.cec.word 1 2 then
        d.setAdded e.cec.initiator (e.cec.word 1 2) else d).view := by
  simp only [validateForRole, run_read, run_ite]
  split
  · next htv =>
    by_cases hr : e.cec.Report
    · rw [validateTv_report d hr, filterReport_view]
      by_cases ha : d.addedAt e.cec.initiator = e.cec.word 1 2
      · rw [if_pos ha, if_neg fun h => h.2.2 ha]
      · rw [if_neg ha, if_pos ⟨htv, hr, ha⟩]
    · rw [validateTv_other d hr, if_neg fun h => hr h.2.1]
  · next htv =>
    have hsame := congrArg CecDevice.view (if_neg (fun h => htv h.1) :
      (if d.isTv = true ∧ e.cec.Report ∧ d.addedAt e.cec.initiator ≠ e.cec.word 1 2 then
        d.setAdded e.cec.initiator (e.cec.word 1 2) else d) = d)
    split
    · exact (validatePlayback_view io e d).trans hsame.symm
    · exact hsame.symm

theorem CecMessage.setChinese_opcode : m.setChinese.opcode = m.opcode := by
  simp [opcode, byte, setChinese]

theorem handleSetMenuLanguage_keeps :
    ((handleSetMenuLanguage e).run d).val.cec.opcode = e.cec.opcode ∧
      ((handleSetMenuLanguage e).run d).val.cec.length = e.cec.length := by
  unfold handleSetMenuLanguage
  split
  · exact ⟨rfl, rfl⟩
  · rw [run_bind, run_bind, run_read, run_ite]
    split
    · exact ⟨setChinese_opcode _, rfl⟩
    · exact ⟨rfl, rfl⟩

theorem validateForRole_keeps :
    ((validateForRole io e).run d).val.cec.opcode = e.cec.opcode ∧
      ((validateForRole io e).run d).val.cec.length = e.cec.length := by
  simp only [validateForRole, run_read, run_ite]
  split
  · unfold validateTv
    split
    · split
      · exact ⟨rfl, rfl⟩
      · simp only [filterReport, run_bind, run_read, run_ite]
        split <;> exact ⟨rfl, rfl⟩
    · split <;> exact ⟨rfl, rfl⟩
  · split
    · unfold validatePlayback
      split
      · split <;> exact ⟨rfl, rfl⟩
      · split
        · exact handleSetMenuLanguage_keeps e d
        · split
          · simp only [run_read, run_ite]
            split <;> exact ⟨rfl, rfl⟩
          · exact ⟨rfl, rfl⟩
    · exact ⟨rfl, rfl⟩

/-! ## Sending -/

theorem sendLoop_all {P : Obs → Prop} : ∀ n k, (sendLoop io m n k).All P d ↔ (send m).All P d := by
  intro n
  induction n with
  | zero => intro k; simp [sendLoop]
  | succ n ih =>
    intro k
    simp only [sendLoop, all_bind, all_ite, send_st]
    split
    · rw [ih]
      exact and_self_iff
    · simp

theorem sendLoop_st : ∀ n k, ((sendLoop io m n k).run d).st = d := by
  intro n
  induction n with
  | zero => intro k; simp [sendLoop]
  | succ n ih =>
    intro k
    simp only [sendLoop, run_bind, run_ite, send_st]
    split
    · exact ih (k + 1)
    · rfl

/-! ## Records that the listener has no part in -/

def Obs.Plain : Obs → Prop
  | .deliver _ | .alreadyAdded _ _ => False
  | _ => True

/-- A record of something that stays in the HAL or goes to the vendor listener. -/
def Obs.Internal : Obs → Prop
  | .access _ | .vendorEvent _ | .sendMsg _ | .removeMsg _ => True
  | _ => False

theorem Obs.Internal.plain {o : Obs} (h : o.Internal) : o.Plain := by
  cases o with
  | deliver _ | alreadyAdded _ _ => exact h
  | _ => trivial

@[simp] theorem all_plain {α : Type} {x : CecM α} {d : CecDevice} (h : x.All Internal d) :
    x.All Plain d := h.mono fun _ => Internal.plain

def Obs.IsAccess : Obs → Prop
  | .access _ => True
  | _ => False

theorem Obs.IsAccess.internal {o : Obs} (h : o.IsAccess) : o.Internal := by
  cases o with
  | access a => trivial
  | _ => exact absurd h id

theorem readBody_isAccess : (readBody is).All IsAccess d := by simp [readBody, IsAccess]

theorem scan_isAccess (n : Nat) :
    ∀ o ∈ (List.range n).map fun k : Nat => access ⟨.msgBuf, k, false⟩, o.IsAccess := by
  intro o ho
  obtain ⟨k, -, rfl⟩ := List.mem_map.mp ho
  exact trivial

@[simp] theorem readBody_internal :
    (readBody is).All Internal d := (readBody_isAccess is d).mono fun _ => IsAccess.internal

@[simp] theorem writeBody_internal : (writeBody is).All Internal d := by simp [writeBody, Internal]

@[simp] theorem readTable_internal : (readTable b a).All Internal d := by simp [readTable, Internal]

@[simp] theorem writeTable_internal : (writeTable b a).All Internal d := by
  simp [writeTable, Internal]

@[simp] theorem sendMsg_internal (msg : CMessage) : (sendMsg msg).All Internal d := by
  simp [sendMsg, Internal]

@[simp] theorem removeMsg_internal (type : MsgType) :
    (removeMsg type).All Internal d := by simp [removeMsg, Internal]

theorem copyAccesses_isAccess (src dst : Buffer) (srcOff dstOff n : Nat) :
    ∀ o ∈ copyAccesses src dst srcOff dstOff n, o.IsAccess := by
  intro o ho
  simp only [copyAccesses, List.mem_flatMap, List.mem_cons, List.not_mem_nil, or_false] at ho
  obtain ⟨k, -, rfl | rfl⟩ := ho <;> exact trivial

@[simp] theorem getPhysicalAddress_internal : (getPhysicalAddress io).All Internal d := by
  simp [getPhysicalAddress]

@[simp] theorem notifyActiveness_internal (on : Bool) : (notifyActiveness on).All Internal d := by
  simp only [notifyActiveness, all_bind, writeBody_internal, all_read, all_ite, true_and]
  split <;> simp [Internal]

@[simp] theorem updateActiveReceived_internal : (updateActiveReceived m).All Internal d := by
  unfold updateActiveReceived
  split
  · simp
  · split
    · simp
    · split
      · split <;> simp
      · simp

@[simp] theorem updateActiveState_internal (received : Bool) :
    (updateActiveState io m received).All Internal d := by
  simp only [updateActiveState, all_read, all_ite]
  split
  · simp
  · split
    · split <;> simp
    · split <;> simp

@[simp] theorem handleOTPMsg_internal : (handleOTPMsg io e).All Internal d := by
  simp only [handleOTPMsg, recordActiveSource, all_bind, readBody_internal, all_ite,
    updateActiveState_internal, true_and, and_true]
  split <;> simp

@[simp] theorem validateCommon_internal : (validateCommon e).All Internal d := by
  simp only [validateCommon, all_bind, readBody_internal, all_ite, true_and]
  split
  · simp
  · split <;> simp

@[simp] theorem preHandleOfSend_internal : (preHandleOfSend io m).All Internal d := by
  simp only [preHandleOfSend, all_bind, readBody_internal, all_ite, true_and]
  split
  · simp
  · split
    · simp
    · split
      · simp
      · split
        · simp
        · split
          · simp only [all_read, all_ite]
            split <;> simp
          · simp

@[simp] theorem postHandleOfSend_internal (result : Int) :
    (postHandleOfSend m result).All Internal d := by
  unfold postHandleOfSend
  split
  · simp only [all_bind, readTable_internal, all_read, all_ite, true_and]
    split <;> simp
  · simp

@[simp] theorem send_plain : (send m).All Plain d := by
  simp only [send, all_bind, all_emit, all_emitAll, all_plain (readBody_internal _ _), and_true]
  exact ⟨trivial, fun o ho => (copyAccesses_isAccess _ _ _ _ _ o ho).internal.plain,
    fun o ho => (scan_isAccess _ o ho).internal.plain, trivial⟩

theorem aidlSendMessage_plain (a : AidlMessage) : (aidlSendMessage io a).All Plain d := by
  simp only [aidlSendMessage, sendMessage, all_bind, all_read, all_ite]
  split
  · simp
  · simp only [sendChecked, all_bind, all_ite]
    split
    · simp
    · simp [sendLoop_all]

theorem setOption_plain (flag : CecOption) (value : Int) : (setOption flag value).All Plain d := by
  simp only [setOption, all_read, all_ite]
  split
  · simp
  · cases flag with
    | enableCec =>
      simp only [setEnableCec, handleCecEnabled, all_bind, all_modify, all_read, all_ite, true_and]
      refine ⟨?_, ?_⟩
      · split
        · simp
        · split <;> simp [Plain]
      · split <;> simp [Plain]
    | wakeup | setLang => simp [Plain]
    | systemCecControl =>
      simp only [initHdmiCfg, updateActiveStateForFramework, all_bind, all_emit, all_modify,
        all_read, all_ite, true_and]
      refine ⟨trivial, ?_⟩
      split
      · refine ⟨trivial, ?_, trivial⟩
        split <;> simp
      · simp

end AmlogicHal.Cec
