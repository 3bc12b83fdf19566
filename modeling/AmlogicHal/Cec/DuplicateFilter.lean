import AmlogicHal.Cec.FrameBounds
import AmlogicHal.Lib.Machine

/-!
# The filter for repeated reports of a physical address

A TV keeps one physical address for each logical address and does not pass on a report that repeats
it. The entry is written while a frame is validated, before it is known whether it goes to the
listener, and cleared by `<Give Physical Address>` and by a poll that nobody answers.

`duplicateFilter_iff`: over whole runs of the service, a report is withheld exactly when the last
report delivered from the same device since its entry was cleared had the same address. This needs
CEC to have been enabled whenever the device reported: while it is disabled a report is noted, but
not delivered.
-/

namespace AmlogicHal.Cec

open Traced CecDevice CecMessage Opcode Obs List

/-! ## The service -/

/-- What happens to the service: a frame from the driver, a message from a client, an option, and a
message of its own queue. -/
inductive CecCall where
  | receive (f : Frame)
  | send (a : AidlMessage)
  | option (flag : CecOption) (value : Int)
  | handle (msg : CMessage)

/-- What a call shows: its result, its records, and whether CEC was enabled when it was made. -/
structure CecOutput where
  ret : Int
  obs : List Obs
  enabled : Bool

def cecPerform (io : CecIo) : CecCall → CecM Int
  | .receive f => do
    readCecMessage io f
    pure 0
  | .send a => aidlSendMessage io a
  | .option flag value => do
    setOption flag value
    pure 0
  | .handle msg => do
    handleMessage io msg
    pure 0

def cecStep (d : CecDevice) (e : CecCall × CecIo) : CecDevice × CecOutput :=
  let r := (cecPerform e.2 e.1).run d
  (r.st, ⟨r.val, r.log, d.isCecEnabled⟩)

def cecMachine : Machine CecDevice (CecCall × CecIo) CecOutput := ⟨cecStep⟩

/-! ## What the listener has seen -/

variable (i : LogicalAddress)

/-- The address in a report from `i` that is delivered. -/
def reportFrom : Obs → Option Nat
  | .deliver e => if e.cec.initiator = i ∧ e.cec.Report then some (e.cec.word 1 2) else none
  | _ => none

def Obs.isDriverWrite : Obs → Bool
  | .driverWrite _ => true
  | _ => false

/-- The entry of `i` is cleared: a client's `<Give Physical Address>` to `i` went to the driver, or
a client's poll of `i` was not acknowledged. -/
def isReset (x : (CecCall × CecIo) × CecOutput) : Bool :=
  match x.1.1 with
  | .send a => a.destination == i &&
      ((x.2.obs.any Obs.isDriverWrite &&
          (a.toCec x.1.2.stale).opcode == Opcode.givePhysicalAddress) ||
        (a.body.isEmpty && x.2.ret == resultNack))
  | _ => false

/-- A report from `i` came in while CEC was disabled. -/
def isMissed (x : (CecCall × CecIo) × CecOutput) : Bool :=
  match x.1.1 with
  | .receive f => decide (f.message.initiator = i ∧ f.message.Report) && !x.2.enabled
  | _ => false

/-- The address of the last report from `i` that was delivered since the last reset of `i`. -/
def lastDelivered (h : List ((CecCall × CecIo) × CecOutput)) : Option Nat :=
  h.foldl
    (fun acc x => if isReset i x = true then none else (x.2.obs.findSome? (reportFrom i)).or acc)
    none

/-- CEC was enabled at every report received from `i` since the last reset of `i`. -/
def noneMissed (h : List ((CecCall × CecIo) × CecOutput)) : Bool :=
  h.foldl (fun acc x => if isReset i x = true then true else acc && !isMissed i x) true

theorem lastDelivered_snoc (h : List ((CecCall × CecIo) × CecOutput))
    (x : (CecCall × CecIo) × CecOutput) :
    lastDelivered i (h ++ [x]) = if isReset i x = true then none else
      (x.2.obs.findSome? (reportFrom i)).or (lastDelivered i h) := by
  simp [lastDelivered]

theorem noneMissed_snoc (h : List ((CecCall × CecIo) × CecOutput))
    (x : (CecCall × CecIo) × CecOutput) :
    noneMissed i (h ++ [x]) = if isReset i x = true then true else
      noneMissed i h && !isMissed i x := by
  simp [noneMissed]

/-- The report is withheld by the filter: it notices a repeated address, and the listener gets
nothing. -/
def Withheld (addr : Nat) (obs : List Obs) : Prop :=
  .alreadyAdded i addr ∈ obs ∧ ∀ e, .deliver e ∉ obs

/-! ## The queue's messages -/

variable {i a : LogicalAddress} {f : Frame} {e : CecEvent} {d d' : CecDevice}

theorem reportFrom_plain (o : Obs) (h : o.Plain) : reportFrom i o = none := by
  cases o with
  | deliver e => exact absurd h id
  | _ => rfl

theorem CecMessage.ofBytes_opcode (a b : LogicalAddress) (x : BitVec 8) (l : List (BitVec 8)) :
    (ofBytes a b (x :: l)).opcode = x := rfl

variable (io : CecIo)

theorem deliverMade_noReport {make : CecDevice → CecMessage} (cond : CecIo → CecDevice → Bool)
    (d : CecDevice) (hop : (make d).opcode ≠ reportPhysicalAddress) :
    (deliverMade io make cond).All (fun o => reportFrom i o = none) d := by
  simp only [deliverMade, all_read, all_ite]
  split
  · rw [all_emit]
    exact if_neg fun h => hop h.2.1
  · simp

variable (logicalAddress : Nat) (m : CecMessage)

theorem sendOneTouchPlay_plain (d : CecDevice) :
    (sendOneTouchPlay io logicalAddress).All Plain d := by
  simp only [sendOneTouchPlay, finishOneTouchPlay, all_read, all_bind, send_plain,
    all_plain, updateActiveState_internal, all_modify, all_ite, true_and, and_true]
  split <;> simp

theorem handleMessage_noReport (msg : CMessage) (d : CecDevice) :
    (handleMessage io msg).All (fun o => reportFrom i o = none) d := by
  have hsend : ∀ m d', (send m).All (fun o => reportFrom i o = none) d' := fun m d' =>
    (send_plain m d').mono reportFrom_plain
  have htv : ∀ m, (sendAsTv m).All (fun o => reportFrom i o = none) d := fun m => by
    simp only [sendAsTv, all_read, all_ite]
    split
    · exact hsend m d
    · simp
  unfold handleMessage
  split
  · exact htv _
  · exact (all_read _ d).mpr (hsend _ d)
  · exact htv _
  · exact (sendOneTouchPlay_plain io _ d).mono reportFrom_plain
  · exact (all_read _ d).mpr (hsend _ d)
  · exact (all_read _ d).mpr (hsend _ d)
  · exact (all_read _ d).mpr (hsend _ d)
  · exact deliverMade_noReport io _ d (by rw [ofBytes_opcode]; decide)
  · exact deliverMade_noReport io _ d (by rw [ofBytes_opcode]; decide)
  · exact (all_read _ d).mpr (hsend _ d)
  · exact hsend _ d
  · exact deliverMade_noReport io _ d (by rw [ofBytes_opcode]; decide)

theorem deliverMade_st (make : CecDevice → CecMessage) (cond : CecIo → CecDevice → Bool) :
    ((deliverMade io make cond).run d).st = d := by
  simp only [deliverMade, run_read, run_ite]
  split <;> rfl

theorem sendAsTv_st : ((sendAsTv m).run d).st = d := by
  simp only [sendAsTv, run_read, run_ite]
  split
  · exact send_st m d
  · rfl

theorem sendOneTouchPlay_view (d : CecDevice) :
    ((sendOneTouchPlay io logicalAddress).run d).st.view = d.view := by
  have hfinish : ∀ a d', ((finishOneTouchPlay logicalAddress a).run d').st.view = d'.view := by
    intro a d'
    simp only [finishOneTouchPlay, run_bind, run_modify, run_read, run_ite]
    split <;> rfl
  simp [sendOneTouchPlay, hfinish, updateActiveState_view]

theorem handleMessage_view (msg : CMessage) (d : CecDevice) :
    ((handleMessage io msg).run d).st.view = d.view := by
  unfold handleMessage
  split
  · rw [sendAsTv_st]
  · rw [run_read, send_st]
  · rw [sendAsTv_st]
  · exact sendOneTouchPlay_view io _ d
  · rw [run_read, send_st]
  · rw [run_read, send_st]
  · rw [run_read, send_st]
  · rw [processCecWakeup, deliverMade_st]
  · rw [maySendSetStreamPath, deliverMade_st]
  · rw [run_read, send_st]
  · rw [send_st]
  · rw [deliverMade_st]

/-! ## Receiving on a TV -/

theorem Frame.not_report (h : f.bytes.length ≤ 1) : ¬ f.message.Report := by
  have htail : f.bytes.tail = [] := by
    rw [← length_eq_zero_iff, length_tail]
    omega
  rintro ⟨hop, -⟩
  simp only [Frame.message, htail] at hop
  exact absurd (show (0 : BitVec 8) = reportPhysicalAddress from hop) (by decide)

theorem initialEventType_run (f : Frame) (d : CecDevice) :
    ∃ l, (∀ o ∈ l, o.IsAccess) ∧ (initialEventType f).run d = ⟨eventCecMessage, d, l⟩ := by
  simp only [initialEventType, run_read, run_ite]
  split
  · exact ⟨[], forall_mem_nil _, rfl⟩
  · refine ⟨[.access ⟨.msgBuf, 1, false⟩], ?_, rfl⟩
    exact forall_mem_singleton.mpr trivial

/-- The parts of `readCecMessage` for a frame that is not a ping. -/
theorem readCecMessage_run (d : CecDevice) (h : ¬ f.bytes.length ≤ 1) :
    let v := (messageValidateAndHandle io ⟨eventCecMessage, f.message⟩).run d
    let o := (handleOTPMsg io v.val).run v.st
    ∃ pre, (∀ o ∈ pre, o.IsAccess) ∧
      (readCecMessage io f).run d =
        ⟨(), o.st, pre ++ (v.log ++ (o.log ++
          if v.st.isCecEnabled = true ∧ v.st.eventListener = true ∧ v.val.eventType ≠ 0 then
            [.deliver v.val] else []))⟩ := by
  intro v o
  obtain ⟨l, hl, htype⟩ := initialEventType_run f d
  have hview : o.st.view = v.st.view := handleOTPMsg_view io v.val v.st
  have hnotify : (notifyListener v.val).run o.st = ⟨(), o.st,
      if v.st.isCecEnabled = true ∧ v.st.eventListener = true ∧ v.val.eventType ≠ 0 then
        [.deliver v.val] else []⟩ := by
    have hen : o.st.isCecEnabled = v.st.isCecEnabled := congrArg View.isCecEnabled hview
    have hli : o.st.eventListener = v.st.eventListener := congrArg View.eventListener hview
    simp only [notifyListener, run_read, run_ite, hen, hli]
    split <;> rfl
  refine ⟨copyAccesses .msgBuf .body 1 0 (f.bytes.length - 1) ++
    ([.access ⟨.msgBuf, 0, false⟩, .access ⟨.msgBuf, 0, false⟩] ++ l), ?_, ?_⟩
  · intro x hx
    rcases mem_append.mp hx with hx | hx
    · exact copyAccesses_isAccess _ _ _ _ _ x hx
    · rcases mem_append.mp hx with hx | hx
      · have hacc : x = .access ⟨.msgBuf, 0, false⟩ := by simpa using hx
        rw [hacc]
        trivial
      · exact hl x hx
  · simp only [readCecMessage, if_neg h, run_bind, run_emitAll, htype]
    rw [hnotify]
    simp only [append_assoc]
    rfl

theorem validateCommon_report (d : CecDevice) (hr : e.cec.Report) :
    (validateCommon e).run d = ⟨e, d, [.access ⟨.body, 0, false⟩]⟩ := by
  have h1 : e.cec.opcode ≠ deviceVendorId := by rw [hr.1]; decide
  have h2 : ¬ (e.cec.opcode = setAudioVolumeLevel ∧ e.cec.initiator ≠ addrBroadcast ∧
      e.cec.destination ≠ addrBroadcast ∧ e.cec.length = 1) := fun h =>
    absurd (hr.1.symm.trans h.1) (by decide)
  simp only [validateCommon, run_bind, readBody_run, if_neg h1, if_neg h2, run_pure]
  rfl

theorem validate_report (htv : d.isTv = true) (hr : e.cec.Report) :
    ∃ l, (∀ o ∈ l, Plain o) ∧ (messageValidateAndHandle io e).run d =
      if d.addedAt e.cec.initiator = e.cec.word 1 2 then
        ⟨{ e with eventType := 0 }, d, l ++ [.alreadyAdded e.cec.initiator (e.cec.word 1 2)]⟩
      else ⟨e, d.setAdded e.cec.initiator (e.cec.word 1 2), l⟩ := by
  have hrun := validateCommon_report d hr
  simp only [messageValidateAndHandle, run_bind, hrun, validateForRole, run_read, if_pos htv,
    validateTv_report d hr, filterReport, readTable_run]
  split
  · refine ⟨[0, 1, 2, 1].map (fun i => .access ⟨.body, i, false⟩) ++
      [.access ⟨.addedPhyAddr, e.cec.initiator.toNat, false⟩], by simp [Plain], ?_⟩
    simp
  · refine ⟨[0, 1, 2, 1].map (fun i => .access ⟨.body, i, false⟩) ++
      [.access ⟨.addedPhyAddr, e.cec.initiator.toNat, false⟩,
        .access ⟨.addedPhyAddr, e.cec.initiator.toNat, true⟩], by simp [Plain], ?_⟩
    simp

theorem validate_otherTv (htv : d.isTv = true) (hr : ¬ e.cec.Report) :
    (messageValidateAndHandle io e).All Plain d ∧
      ((messageValidateAndHandle io e).run d).val.cec = e.cec ∧
      ((messageValidateAndHandle io e).run d).st.view = d.view := by
  have hcec := validateCommon_cec e d
  have hview := validateCommon_view e d
  have htv' : ((validateCommon e).run d).st.isTv = true := (congrArg View.isTv hview).trans htv
  generalize hc : (validateCommon e).run d = c at hcec hview htv'
  have hr' : ¬ c.val.cec.Report := hcec ▸ hr
  have hplain : (validateTv c.val).All Plain c.st := by
    unfold validateTv
    split
    · next hop =>
      have h0 := byte_one_of_not_report hop hr'
      simp only [all_bind, if_pos h0, all_plain, readBody_internal, removeMsg_internal,
        sendMsg_internal, all_pure, and_self]
    · split <;> simp
  have hval : ((validateTv c.val).run c.st).val.cec = c.val.cec := by
    unfold validateTv
    split
    · next hop =>
      have h0 := byte_one_of_not_report hop hr'
      rw [if_pos h0]
      rfl
    · split <;> rfl
  simp [messageValidateAndHandle, hc, validateForRole, run_read, if_pos htv',
    validateTv_other c.st hr', hval, hcec, hview, hplain, and_self]

theorem receive_short (d : CecDevice) (h : f.bytes.length ≤ 1) :
    (readCecMessage io f).run d = ⟨(), d, []⟩ := by
  simp [readCecMessage, if_pos h]

theorem findSome_plain {l : List Obs} (h : ∀ o ∈ l, Plain o) :
    l.findSome? (reportFrom i) = none :=
  List.findSome?_eq_none_iff.mpr fun o ho => reportFrom_plain o (h o ho)

theorem receive_view (f : Frame) (htv : d.isTv = true) :
    ((readCecMessage io f).run d).st.view =
      (if f.message.Report ∧ d.addedAt f.message.initiator ≠ f.message.word 1 2 then
        d.setAdded f.message.initiator (f.message.word 1 2) else d).view := by
  by_cases hlen : f.bytes.length ≤ 1
  · rw [receive_short io d hlen, if_neg fun h => Frame.not_report hlen h.1]
  · obtain ⟨pre, -, hrun⟩ := readCecMessage_run io d hlen
    simp only [hrun, handleOTPMsg_view]
    by_cases hr : f.message.Report
    · obtain ⟨l, -, hv⟩ := validate_report io (e := ⟨eventCecMessage, f.message⟩) htv hr
      by_cases ha : d.addedAt f.message.initiator = f.message.word 1 2
      · rw [hv, if_pos ha, if_neg fun h => h.2 ha]
      · rw [hv, if_neg ha, if_pos ⟨hr, ha⟩]
    · rw [if_neg fun h => hr h.1]
      exact (validate_otherTv io htv hr).2.2

theorem receive_delivers (f : Frame) (htv : d.isTv = true) (i : LogicalAddress) :
    ((readCecMessage io f).run d).log.findSome? (reportFrom i) =
      if f.message.initiator = i ∧ f.message.Report ∧
          d.addedAt f.message.initiator ≠ f.message.word 1 2 ∧ d.isCecEnabled = true ∧
          d.eventListener = true then
        some (f.message.word 1 2) else none := by
  by_cases hlen : f.bytes.length ≤ 1
  · rw [receive_short io d hlen, if_neg fun h => Frame.not_report hlen h.2.1]
    rfl
  · obtain ⟨pre, hpre, hrun⟩ := readCecMessage_run io d hlen
    rw [hrun]
    simp only [List.findSome?_append, findSome_plain fun o ho => (hpre o ho).internal.plain,
      findSome_plain (all_plain (handleOTPMsg_internal io _ _)), Option.none_or]
    by_cases hr : f.message.Report
    · obtain ⟨l, hl, hv⟩ := validate_report io (e := ⟨eventCecMessage, f.message⟩) htv hr
      by_cases ha : d.addedAt f.message.initiator = f.message.word 1 2
      · rw [if_pos ha] at hv
        rw [if_neg (c := f.message.initiator = i ∧ _) fun h => h.2.2.1 ha]
        simp [hv, findSome_plain hl, reportFrom]
      · rw [if_neg ha] at hv
        have hsw : (d.setAdded f.message.initiator (f.message.word 1 2)).isCecEnabled =
            d.isCecEnabled ∧ (d.setAdded f.message.initiator (f.message.word 1 2)).eventListener =
            d.eventListener := ⟨rfl, rfl⟩
        simp only [hv, findSome_plain hl, Option.none_or, hsw]
        by_cases hd : d.isCecEnabled = true ∧ d.eventListener = true
        · by_cases hi : f.message.initiator = i
          · simp [hd, hi, hi ▸ ha, reportFrom, eventCecMessage]
          · simp [hd, hi, reportFrom]
        · rw [if_neg fun h => hd ⟨h.1, h.2.1⟩, if_neg fun h => hd h.2.2.2]
          rfl
    · obtain ⟨hplain, hcec, -⟩ := validate_otherTv io (e := ⟨eventCecMessage, f.message⟩) htv hr
      rw [if_neg (c := f.message.initiator = i ∧ _) fun h => hr h.2.1, findSome_plain hplain]
      split
      · simp [reportFrom, hcec, hr]
      · rfl

theorem receive_withheld (htv : d.isTv = true) (hr : f.message.Report) :
    Withheld f.message.initiator (f.message.word 1 2) ((readCecMessage io f).run d).log ↔
      d.addedAt f.message.initiator = f.message.word 1 2 := by
  have hlen : ¬ f.bytes.length ≤ 1 := fun h => Frame.not_report h hr
  obtain ⟨pre, hpre, hrun⟩ := readCecMessage_run io d hlen
  have hotp := fun e d => all_plain (handleOTPMsg_internal io e d)
  obtain ⟨l, hl, hv⟩ := validate_report io (e := ⟨eventCecMessage, f.message⟩) htv hr
  by_cases ha : d.addedAt f.message.initiator = f.message.word 1 2
  · rw [if_pos ha] at hv
    refine iff_of_true ⟨?_, fun e he => ?_⟩ ha
    · rw [hrun, hv]
      simp
    · rw [hrun, hv] at he
      simp only [ne_eq, not_true_eq_false, and_false, if_false, append_nil, mem_append,
        mem_singleton, reduceCtorEq, or_false] at he
      rcases he with he | he | he
      · exact (hpre _ he).internal.plain
      · exact hl _ he
      · exact hotp _ _ _ he
  · rw [if_neg ha] at hv
    refine iff_of_false (fun hw => ?_) ha
    have hmem := hw.1
    rw [hrun, hv] at hmem
    simp only [mem_append] at hmem
    rcases hmem with h | h | h | h
    · exact (hpre _ h).internal.plain
    · exact hl _ h
    · exact hotp _ _ _ h
    · split at h <;> simp at h

/-! ## Sending -/

theorem CecDevice.addedAt_setAdded (a : LogicalAddress) (v : Nat)
    (hi : i.toNat < d.addedPhyAddr.length) :
    (d.setAdded a v).addedAt i = if a = i then v else d.addedAt i := by
  simp only [addedAt, setAdded, getD_eq_getElem?_getD, List.getElem?_set, BitVec.toNat_inj]
  split
  · next h => simp [h, hi]
  · rfl

theorem CecDevice.setAdded_zero (h : d.addedAt a = 0) : d.setAdded a 0 = d := by
  have hset : d.addedPhyAddr.set a.toNat 0 = d.addedPhyAddr := by
    by_cases hlt : a.toNat < d.addedPhyAddr.length
    · have hget : d.addedPhyAddr[a.toNat] = 0 := by
        simpa [addedAt, hlt] using h
      rw [← hget, set_getElem_self]
    · exact set_eq_of_length_le (by omega)
  simp [setAdded, hset]

theorem CecDevice.setAdded_view {v : Nat} (h : d.view = d'.view) :
    (d.setAdded a v).view = (d'.setAdded a v).view :=
  congrArg (fun w : View => { w with addedPhyAddr := w.addedPhyAddr.set a.toNat v }) h

theorem CecDevice.setAdded_setAdded (v w : Nat) :
    (d.setAdded a v).setAdded a w = d.setAdded a w := by
  simp [setAdded]

theorem preHandleOfSend_view (d : CecDevice) :
    ((preHandleOfSend io m).run d).st.view =
      (if m.opcode = givePhysicalAddress then d.setAdded m.destination 0 else d).view := by
  simp only [preHandleOfSend, run_bind, readBody_run, run_ite, writeTable_run, run_modify, run_pure,
    run_read]
  split
  · next h => rw [if_neg (by rw [h]; decide)]; rfl
  · split
    · rfl
    · split
      · exact updateActiveState_view ..
      · split
        · rfl
        · split
          · split <;> rfl
          · rfl

theorem postHandleOfSend_st (result : Int) :
    ((postHandleOfSend m result).run d).st =
      if m.length = 0 ∧ result = resultNack then d.setAdded m.destination 0 else d := by
  unfold postHandleOfSend
  split
  · simp only [run_bind, readTable_run, run_read, run_ite]
    split
    · rfl
    · next h => exact (setAdded_zero (by simpa using h)).symm
  · rfl

theorem sendLoop_writes (d : CecDevice) (n k : Nat) :
    .driverWrite (frameOf m) ∈ ((sendLoop io m n k).run d).log := by
  have hsend : .driverWrite (frameOf m) ∈ ((send m).run d).log := by simp [send]
  cases n with
  | zero => simp [sendLoop, hsend]
  | succ n => simp [sendLoop, hsend]

theorem sendChecked_filtered {io : CecIo} {m : CecMessage}
    (hf : ((preHandleOfSend io m).run d).val = true) :
    m.opcode ≠ givePhysicalAddress ∧ ((sendChecked io m).run d).st.view = d.view ∧
      ((sendChecked io m).run d).val = resultSuccess := by
  have hop : m.opcode ≠ givePhysicalAddress := by
    rcases ((preHandleOfSend_val io m d).mp hf).1 with h | h | h <;> rw [h] <;> decide
  simp only [sendChecked, run_bind, if_pos hf, run_pure]
  exact ⟨hop, by rw [preHandleOfSend_view, if_neg hop], trivial⟩

theorem sendChecked_sent {io : CecIo} {m : CecMessage}
    (hf : ¬ ((preHandleOfSend io m).run d).val = true) :
    let r := (sendChecked io m).run d
    .driverWrite (frameOf m) ∈ r.log ∧
      r.st.view = (if m.opcode = givePhysicalAddress ∨
        (m.length = 0 ∧ r.val = resultNack) then d.setAdded m.destination 0 else d).view := by
  simp only [sendChecked, run_bind, if_neg hf, run_pure]
  refine ⟨mem_append_right _ (mem_append_left _ (sendLoop_writes io _ _ _ _)), ?_⟩
  rw [postHandleOfSend_st, sendLoop_st]
  have hpre := preHandleOfSend_view io m d
  by_cases hop : m.opcode = givePhysicalAddress
  · rw [if_pos hop] at hpre
    simp only [hop, true_or, if_true]
    split
    · rw [setAdded_view hpre, setAdded_setAdded]
    · exact hpre
  · rw [if_neg hop] at hpre
    simp only [hop, false_or]
    split
    · exact setAdded_view hpre
    · exact hpre

theorem aidlSendMessage_reached (a : AidlMessage)
    (h : ¬ (d.driverOpen = false ∨ d.isCecEnabled = false)) :
    let q := (sendChecked io (a.toCec io.stale)).run d
    ∃ writes, (aidlSendMessage io a).run d = ⟨q.val, q.st, writes ++ q.log⟩ := by
  simp only [aidlSendMessage, sendMessage, run_bind, writeBody_run, run_read, if_neg h]
  exact ⟨_, rfl⟩

/-- What a client's message does to the table: it clears the entry of its destination when it is a
`<Give Physical Address>` that went to the driver, or a poll that was not acknowledged. -/
theorem send_view (a : AidlMessage) (d : CecDevice) :
    let r := (aidlSendMessage io a).run d
    r.st.view = (if isReset a.destination ((.send a, io), ⟨r.val, r.log, d.isCecEnabled⟩) =
      true then
        d.setAdded a.destination 0 else d).view := by
  intro r
  by_cases hreach : d.driverOpen = false ∨ d.isCecEnabled = false
  · have hr : r = ⟨resultFail, d, ((List.range (min a.body.length bodyMaxLength)).map
        fun k : Nat => (k : Int)).map fun i => .access ⟨.body, i, true⟩⟩ := by
      simp [r, aidlSendMessage, sendMessage, if_pos hreach, run_pure]
    rw [hr]
    simp [isReset, resultFail, resultNack, isDriverWrite]
  · obtain ⟨writes, hr⟩ := aidlSendMessage_reached io a hreach
    rw [show r = _ from hr]
    by_cases hf : ((preHandleOfSend io (a.toCec io.stale)).run d).val = true
    · -- filtered: neither sent nor a query
      obtain ⟨hop, hview, hval⟩ := sendChecked_filtered hf
      rw [hview, hval]
      simp [isReset, hop, resultSuccess, resultNack]
    · obtain ⟨hmem, hview⟩ := sendChecked_sent hf
      have hsent : (writes ++ ((sendChecked io (a.toCec io.stale)).run d).log).any
          isDriverWrite = true :=
        List.any_eq_true.mpr ⟨_, List.mem_append_right _ hmem, rfl⟩
      have hempty : (a.toCec io.stale).length = 0 ↔ a.body = [] := by
        have hlen : (a.toCec io.stale).length = min a.body.length 16 := rfl
        rw [hlen, ← List.length_eq_zero_iff]
        omega
      rw [hview]
      simp only [isReset, hsent, hempty, Bool.true_and, Bool.or_eq_true, Bool.and_eq_true,
        beq_iff_eq, List.isEmpty_iff, true_and]
      rfl

theorem setOption_keeps (flag : CecOption) (value : Int) (d : CecDevice) :
    let d' := ((setOption flag value).run d).st
    d'.isTv = d.isTv ∧ d'.eventListener = d.eventListener ∧ d'.addedPhyAddr = d.addedPhyAddr := by
  simp only [setOption, run_read, run_ite]
  split
  · exact ⟨rfl, rfl, rfl⟩
  · cases flag with
    | enableCec =>
      simp only [setEnableCec, run_bind, run_modify, run_ite]
      have hst : ∀ d' : CecDevice, ((handleCecEnabled value).run d').st = d' := by
        intro d'
        simp only [handleCecEnabled, run_read, run_ite]
        split
        · rfl
        · split <;> rfl
      rw [hst]
      split <;> exact ⟨rfl, rfl, rfl⟩
    | wakeup | setLang => exact ⟨rfl, rfl, rfl⟩
    | systemCecControl =>
      simp only [initHdmiCfg, updateActiveStateForFramework, run_bind, run_emit, run_modify,
        run_read, run_ite]
      split
      · split <;> exact ⟨rfl, rfl, rfl⟩
      · exact ⟨rfl, rfl, rfl⟩

/-! ## Runs -/

/-- The device is a TV with a listener, and if no report of `i` was missed, the entry of `i` is the
address that was delivered last. -/
structure Tracks (i : LogicalAddress) (h : List ((CecCall × CecIo) × CecOutput))
    (d : CecDevice) : Prop where
  isTv : d.isTv = true
  listener : d.eventListener = true
  length : d.addedPhyAddr.length = 15
  entry : noneMissed i h = true → d.addedAt i = (lastDelivered i h).getD 0

variable {h : List ((CecCall × CecIo) × CecOutput)} {x : (CecCall × CecIo) × CecOutput}

section

variable (ht : Tracks i h d)
include ht

/-- A step that neither resets `i` nor delivers a report from it adds nothing to keep up with. -/
theorem Tracks.snoc (hreset : isReset i x = false)
    (hobs : x.2.obs.findSome? (reportFrom i) = none) :
    Tracks i (h ++ [x]) d := by
  refine ⟨ht.isTv, ht.listener, ht.length, fun hm => ?_⟩
  rw [noneMissed_snoc, hreset, if_neg Bool.false_ne_true, Bool.and_eq_true] at hm
  rw [lastDelivered_snoc, hreset, if_neg Bool.false_ne_true, hobs]
  exact ht.entry hm.1

theorem Tracks.congr (htv : d'.isTv = d.isTv)
    (hli : d'.eventListener = d.eventListener) (hadd : d'.addedPhyAddr = d.addedPhyAddr) :
    Tracks i h d' := by
  refine ⟨htv.trans ht.isTv, hli.trans ht.listener, hadd ▸ ht.length, fun hm => ?_⟩
  rw [← ht.entry hm, addedAt, addedAt, hadd]

theorem Tracks.of_view (hview : d'.view = d.view) : Tracks i h d' :=
  ht.congr (congrArg View.isTv hview) (congrArg View.eventListener hview)
    (congrArg View.addedPhyAddr hview)

variable (hi : i ≠ addrBroadcast)
include hi

omit ht in
theorem toNat_lt_of_ne_broadcast : i.toNat < 15 := by
  have hne : i.toNat ≠ 15 := fun h => hi (BitVec.eq_of_toNat_eq h)
  omega

/-- The entry of `i` is set: what was recorded has to say so. -/
theorem Tracks.setAdded_self {v : Nat}
    (hlast : noneMissed i (h ++ [x]) = true → (lastDelivered i (h ++ [x])).getD 0 = v) :
    Tracks i (h ++ [x]) (d.setAdded i v) := by
  refine ⟨ht.isTv, ht.listener, length_set.trans ht.length, fun hm => ?_⟩
  rw [addedAt_setAdded _ _ (ht.length ▸ toNat_lt_of_ne_broadcast hi), if_pos rfl, hlast hm]

theorem Tracks.setAdded_other (ha : a ≠ i) (v : Nat) : Tracks i h (d.setAdded a v) := by
  refine ⟨ht.isTv, ht.listener, length_set.trans ht.length, fun hm => ?_⟩
  rw [addedAt_setAdded _ _ (ht.length ▸ toNat_lt_of_ne_broadcast hi), if_neg ha]
  exact ht.entry hm

theorem tracks_receive (f : Frame) (io : CecIo) :
    Tracks i (h ++ [((.receive f, io), (cecStep d (.receive f, io)).2)])
      (cecStep d (.receive f, io)).1 := by
  have hobs : (cecStep d (.receive f, io)).2.obs = ((readCecMessage io f).run d).log := by
    simp [cecStep, cecPerform]
  have hdel := receive_delivers io f ht.isTv i
  rw [← hobs] at hdel
  refine Tracks.of_view ?_ (receive_view io f ht.isTv)
  by_cases hnew : f.message.Report ∧ d.addedAt f.message.initiator ≠ f.message.word 1 2
  · rw [if_pos hnew]
    by_cases hfrom : f.message.initiator = i
    · rw [hfrom]
      refine ht.setAdded_self hi fun hm => ?_
      rw [noneMissed_snoc, if_neg (by simp [isReset]), Bool.and_eq_true] at hm
      have hen : d.isCecEnabled = true := by
        simpa [isMissed, hfrom, hnew.1, cecStep] using hm.2
      rw [if_pos ⟨hfrom, hnew.1, hnew.2, hen, ht.listener⟩] at hdel
      rw [lastDelivered_snoc, hdel]
      rfl
    · rw [if_neg fun h => hfrom h.1] at hdel
      exact (ht.snoc rfl hdel).setAdded_other hi hfrom _
  · rw [if_neg fun h => hnew ⟨h.2.1, h.2.2.1⟩] at hdel
    rw [if_neg hnew]
    exact ht.snoc rfl hdel

theorem tracks_send (a : AidlMessage) (io : CecIo) :
    Tracks i (h ++ [((.send a, io), (cecStep d (.send a, io)).2)]) (cecStep d (.send a, io)).1 := by
  have hobs : (cecStep d (.send a, io)).2.obs.findSome? (reportFrom i) = none :=
    findSome_plain (aidlSendMessage_plain io d a)
  have hview : (cecStep d (.send a, io)).1.view =
      (if isReset a.destination ((.send a, io), (cecStep d (.send a, io)).2) = true then
        d.setAdded a.destination 0 else d).view := send_view io a d
  refine Tracks.of_view ?_ hview
  by_cases hto : a.destination = i
  · subst hto
    split
    · next hreset =>
      refine ht.setAdded_self hi fun _ => ?_
      rw [lastDelivered_snoc, if_pos hreset]
      rfl
    · next hreset => exact ht.snoc (by simpa using hreset) hobs
  · have hkeep := ht.snoc (show isReset i ((.send a, io), (cecStep d (.send a, io)).2) = false by
      simp [isReset, hto]) hobs
    split
    · exact hkeep.setAdded_other hi hto 0
    · exact hkeep

theorem tracks_step (e : CecCall × CecIo) :
    Tracks i (h ++ [(e, (cecStep d e).2)]) (cecStep d e).1 := by
  obtain ⟨call, io⟩ := e
  cases call with
  | receive f => exact tracks_receive ht hi f io
  | send a => exact tracks_send ht hi a io
  | option flag value =>
    obtain ⟨htv, hli, hadd⟩ := setOption_keeps flag value d
    refine Tracks.congr (ht.snoc rfl ?_) htv hli hadd
    simpa [cecStep, cecPerform] using findSome_plain (setOption_plain d flag value)
  | handle msg =>
    refine Tracks.of_view (ht.snoc rfl ?_) (handleMessage_view io msg d)
    have hno : ((handleMessage io msg).run d).log.findSome? (reportFrom i) = none :=
      List.findSome?_eq_none_iff.mpr (handleMessage_noReport io msg d)
    simpa [cecStep, cecPerform] using hno

end

theorem duplicateFilter_iff {d₀ d : CecDevice} {h : List ((CecCall × CecIo) × CecOutput)}
    {i : LogicalAddress} {f : Frame} {io : CecIo} (htv : d₀.isTv = true)
    (hli : d₀.eventListener = true) (hadd : d₀.addedPhyAddr = List.replicate 15 0)
    (hrun : cecMachine.Run (fun _ _ => True) d₀ h d) (hi : i ≠ addrBroadcast)
    (hnone : noneMissed i h = true) (hfrom : f.message.initiator = i) (hr : f.message.Report) :
    Withheld i (f.message.word 1 2) (cecStep d (.receive f, io)).2.obs ↔
      lastDelivered i h = some (f.message.word 1 2) := by
  have ht : Tracks i h d := by
    refine hrun.invariant (Tracks i) ⟨htv, hli, by simp [hadd], fun _ => ?_⟩
      fun _ _ e ht _ => tracks_step ht hi e
    simp only [addedAt, hadd, lastDelivered, getD_eq_getElem?_getD,
      List.getElem?_replicate]
    split <;> rfl
  have hobs : (cecStep d (.receive f, io)).2.obs = ((readCecMessage io f).run d).log := by
    simp [cecStep, cecPerform]
  -- the high byte is not zero, so an empty entry never matches
  have hpos : f.message.word 1 2 ≠ 0 := by
    have h1 : (f.message.byte 1).toNat ≠ 0 := fun h0 => hr.2 (BitVec.eq_of_toNat_eq h0)
    unfold word
    omega
  subst hfrom
  rw [hobs, receive_withheld io ht.isTv hr, ht.entry hnone]
  cases lastDelivered f.message.initiator h with
  | none => simp [hpos.symm]
  | some a => simp

/-- `<Report Physical Address>` of 1.0.0.0 and of 2.0.0.0 from playback device 4. -/
def reportA : Frame := ⟨[0x4F, 0x84, 0x10, 0x00, 0x04], by decide⟩
def reportB : Frame := ⟨[0x4F, 0x84, 0x20, 0x00, 0x04], by decide⟩

/-- The same report again is withheld. -/
theorem duplicateFilter_repeats :
    Withheld 4 0x1000 (cecStep (cecMachine.exec (freshDevice true false)
      [(.receive reportA, quietIo)]).2 (.receive reportA, quietIo)).2.obs := by
  have hrun := Machine.run_exec (m := cecMachine) (C := fun _ _ => True)
    (s := freshDevice true false) [(.receive reportA, quietIo)] ⟨trivial, trivial⟩
  have hnone : noneMissed 4 (cecMachine.exec (freshDevice true false)
    [(.receive reportA, quietIo)]).1 = true := by decide +kernel
  have hlast : lastDelivered 4 (cecMachine.exec (freshDevice true false)
    [(.receive reportA, quietIo)]).1 = some (reportA.message.word 1 2) := by decide +kernel
  exact (duplicateFilter_iff rfl rfl rfl hrun (by decide) hnone
    (by decide) (by decide)).mpr hlast

/-- A device that moves to another port and back reports its first address again, and the report is
delivered although one with the same address was delivered before. And a report that came in while
CEC was disabled makes the filter withhold the next one although none was ever delivered. -/
theorem duplicateFilter_returns :
    (let r := cecMachine.exec (freshDevice true false)
        [(.receive reportA, quietIo), (.receive reportB, quietIo)];
      (∃ x ∈ r.1, x.2.obs.findSome? (reportFrom 4) = some 0x1000) ∧
        (∀ x ∈ r.1, isReset 4 x = false) ∧
        .alreadyAdded 4 0x1000 ∉ (cecStep r.2 (.receive reportA, quietIo)).2.obs) ∧
    (let r := cecMachine.exec (freshDevice true false)
        [(.option .enableCec 0, quietIo), (.receive reportA, quietIo),
          (.option .enableCec 1, quietIo)];
      (∀ x ∈ r.1, x.2.obs.findSome? (reportFrom 4) = none) ∧
        .alreadyAdded 4 0x1000 ∈ (cecStep r.2 (.receive reportA, quietIo)).2.obs) := by
  decide +kernel

end AmlogicHal.Cec
