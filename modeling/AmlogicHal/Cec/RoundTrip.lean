import AmlogicHal.Cec.DuplicateFilter
import AmlogicHal.Cec.Service

/-!
# From a message to a frame and back

`send` makes a frame of a message, `readCecMessage` an event of a frame, `getAidlCecMessage` a
client's message of an event, and `HdmiCec::sendMessage` a message of that again. Some of them count
the header byte in the length and some do not.

* `frame_roundTrip`: a body of one to fifteen bytes comes through unchanged, and is sent again as
  the same frame. On the way validation decides whether the listener gets the event, and the filter
  of `preHandleOfSend` whether the driver gets the second frame.
-/

namespace AmlogicHal.Cec

open Traced CecMessage List

/-! ## What a log hands out -/

def Obs.delivered : Obs → Option CecEvent
  | .deliver e => some e
  | _ => none

def Obs.written : Obs → Option (List (BitVec 8))
  | .driverWrite frame => some frame
  | _ => none

def deliveries (log : List Obs) : List CecEvent := log.filterMap Obs.delivered

def writes (log : List Obs) : List (List (BitVec 8)) := log.filterMap Obs.written

theorem writes_append (l₁ l₂ : List Obs) : writes (l₁ ++ l₂) = writes l₁ ++ writes l₂ :=
  filterMap_append

theorem deliveries_append (l₁ l₂ : List Obs) :
    deliveries (l₁ ++ l₂) = deliveries l₁ ++ deliveries l₂ :=
  filterMap_append

theorem writes_internal {l : List Obs} (h : ∀ o ∈ l, o.Internal) : writes l = [] := by
  refine filterMap_eq_nil_iff.mpr fun o ho => ?_
  cases o with
  | driverWrite frame => exact absurd (h _ ho) id
  | _ => rfl

theorem deliveries_plain {l : List Obs} (h : ∀ o ∈ l, o.Plain) : deliveries l = [] := by
  refine filterMap_eq_nil_iff.mpr fun o ho => ?_
  cases o with
  | deliver e => exact absurd (h _ ho) id
  | _ => rfl

/-! ## Sending -/

theorem writes_send (m : CecMessage) (d : CecDevice) :
    writes ((send m).run d).log = [frameOf m] := by
  have hscan : ∀ o ∈ (List.range (m.length + 1)).map fun k : Nat =>
      Obs.access ⟨.msgBuf, k, false⟩, o.Internal := fun o ho => (scan_isAccess _ o ho).internal
  have hcopy : ∀ o ∈ copyAccesses .body .msgBuf 0 1 m.length, o.Internal := fun o ho =>
    (copyAccesses_isAccess _ _ _ _ _ o ho).internal
  have hprint := readBody_internal ((List.range m.length).map fun k : Nat => (k : Int)) d
  simp only [send, run_bind, run_emit, run_emitAll, writes_append,
    writes_internal hcopy, writes_internal hscan,
    writes_internal hprint]
  rfl

variable (io : CecIo) (i : LogicalAddress) {bytes : List (BitVec 8)}

theorem writes_sendLoop (m : CecMessage) (d : CecDevice) :
    ∀ n k, ∃ again, writes ((sendLoop io m n k).run d).log =
      List.replicate (again + 1) (frameOf m) := by
  intro n
  induction n with
  | zero =>
    intro k
    refine ⟨0, ?_⟩
    simp only [sendLoop, run_bind, run_pure, writes_append, writes_send]
    rfl
  | succ n ih =>
    intro k
    simp only [sendLoop, run_bind, run_ite, writes_append, writes_send, send_st]
    split
    · obtain ⟨again, hagain⟩ := ih (k + 1)
      exact ⟨again + 1, by rw [hagain, replicate_succ]; rfl⟩
    · exact ⟨0, rfl⟩

/-- What the driver gets of a client's message: nothing, or its frame once or more often. -/
theorem writes_aidlSendMessage (a : AidlMessage) (d : CecDevice) :
    ∃ n, writes ((aidlSendMessage io a).run d).log = List.replicate n (frameOf (a.toCec io.stale)) ∧
      (0 < n ↔ d.driverOpen = true ∧ d.isCecEnabled = true ∧ ¬ Filtered d (a.toCec io.stale)) := by
  generalize hm : a.toCec io.stale = m
  have hfill := writes_internal (writeBody_internal
    ((List.range (min a.body.length bodyMaxLength)).map fun k : Nat => (k : Int)) d)
  rw [writeBody_run] at hfill
  have hpre := writes_internal (preHandleOfSend_internal m io d)
  simp only [aidlSendMessage, sendMessage, run_bind, run_read, run_ite, writes_append,
    writeBody_run,
    hfill, hm, nil_append]
  by_cases hopen : d.driverOpen = false ∨ d.isCecEnabled = false
  · refine ⟨0, by rw [if_pos hopen]; rfl, iff_of_false (Nat.lt_irrefl 0) fun h => ?_⟩
    rcases hopen with hopen | hopen
    · exact absurd (hopen.symm.trans h.1) Bool.false_ne_true
    · exact absurd (hopen.symm.trans h.2.1) Bool.false_ne_true
  · rw [if_neg hopen]
    simp only [not_or, Bool.not_eq_false] at hopen
    simp only [sendChecked, run_bind, run_ite, writes_append, hpre, nil_append]
    by_cases hfil : ((preHandleOfSend io m).run d).val = true
    · refine ⟨0, by rw [if_pos hfil]; rfl, iff_of_false (Nat.lt_irrefl 0) fun h => ?_⟩
      exact h.2.2 ((preHandleOfSend_val io m d).mp hfil)
    · obtain ⟨again, hagain⟩ :=
        writes_sendLoop io m ((preHandleOfSend io m).run d).st (sendMessageRetryHal - 1) 0
      refine ⟨again + 1, ?_, iff_of_true again.succ_pos ⟨hopen.1, hopen.2, fun h => ?_⟩⟩
      · rw [if_neg hfil]
        simp only [run_pure, writes_append, hagain,
          writes_internal (postHandleOfSend_internal m _ _)]
        exact append_nil _
      · exact hfil ((preHandleOfSend_val io m d).mpr h)

/-! ## Receiving -/

variable (e : CecEvent) (d : LogicalAddress)

theorem validateTv_undelivered (d : CecDevice) :
    (validateTv e).All (fun o => o.delivered = none) d := by
  unfold validateTv
  split
  · simp only [all_bind, all_ite]
    refine ⟨by simp [readBody, Obs.delivered], ?_⟩
    split
    · simp [removeMsg, sendMsg, readBody, Obs.delivered]
    · simp only [filterReport, readTable, writeTable, all_bind, all_emit, all_read, all_ite]
      refine ⟨rfl, ?_⟩
      split
      · exact ⟨rfl, (all_pure _ _).mpr trivial⟩
      · exact ⟨rfl, (all_modify _ _).mpr trivial, (all_pure _ _).mpr trivial⟩
  · split <;> simp

theorem validatePlayback_internal (d : CecDevice) : (validatePlayback io e).All Obs.Internal d := by
  unfold validatePlayback
  split
  · split <;> simp
  · split
    · unfold handleSetMenuLanguage
      split
      · simp
      · simp only [all_bind, readBody_internal, readTable_internal, all_read, all_ite, true_and]
        split <;> simp
    · split
      · simp only [all_read, all_ite]
        split <;> simp
      · simp

theorem deliveries_of_all {α : Type} {x : CecM α} {d : CecDevice}
    (h : x.All (fun o => o.delivered = none) d) : deliveries (x.run d).log = [] :=
  filterMap_eq_nil_iff.mpr h

theorem validate_deliveries (d : CecDevice) :
    deliveries ((messageValidateAndHandle io e).run d).log = [] := by
  simp only [messageValidateAndHandle, run_bind, deliveries_append,
    deliveries_plain (all_plain (validateCommon_internal e d)), validateForRole, run_read, run_ite,
    nil_append]
  split
  · exact deliveries_of_all (validateTv_undelivered _ _)
  · split
    · exact deliveries_plain (all_plain (validatePlayback_internal io _ _))
    · rfl

theorem validate_switches (d : CecDevice) :
    ((messageValidateAndHandle io e).run d).st.isCecEnabled = d.isCecEnabled ∧
      ((messageValidateAndHandle io e).run d).st.eventListener = d.eventListener := by
  have hcommon := validateCommon_view e d
  have hrole := validateForRole_view io ((validateCommon e).run d).val ((validateCommon e).run d).st
  have hsame : ∀ (c : Prop) [Decidable c] (c₀ : CecDevice) (a : LogicalAddress) (addr : Nat),
      (if c then c₀.setAdded a addr else c₀).view.isCecEnabled = c₀.view.isCecEnabled ∧
        (if c then c₀.setAdded a addr else c₀).view.eventListener = c₀.view.eventListener := by
    intro c _ c₀ a addr
    split <;> exact ⟨rfl, rfl⟩
  constructor
  · exact ((congrArg View.isCecEnabled hrole).trans (hsame _ _ _ _).1).trans
      (congrArg View.isCecEnabled hcommon)
  · exact ((congrArg View.eventListener hrole).trans (hsame _ _ _ _).2).trans
      (congrArg View.eventListener hcommon)

/-- The listener gets the event of a frame as it was received exactly if CEC is enabled, there is a
listener and validation leaves the event alone. -/
theorem readCecMessage_delivers_iff {f : Frame} (d : CecDevice) (h : ¬ f.bytes.length ≤ 1) :
    deliveries ((readCecMessage io f).run d).log = [⟨eventCecMessage, f.message⟩] ↔
      d.isCecEnabled = true ∧ d.eventListener = true ∧
        ((messageValidateAndHandle io ⟨eventCecMessage, f.message⟩).run d).val =
          ⟨eventCecMessage, f.message⟩ := by
  obtain ⟨pre, hpre, hrun⟩ := readCecMessage_run io d h
  obtain ⟨henabled, hlistener⟩ := validate_switches io ⟨eventCecMessage, f.message⟩ d
  have hquiet := deliveries_plain fun o ho => (hpre o ho).internal.plain
  simp only [hrun, deliveries_append, hquiet, validate_deliveries,
    deliveries_plain (all_plain (handleOTPMsg_internal io _ _)), henabled, hlistener, nil_append]
  generalize ((messageValidateAndHandle io ⟨eventCecMessage, f.message⟩).run d).val = v
  constructor
  · intro hdeliver
    split at hdeliver
    · next hcond => exact ⟨hcond.1, hcond.2.1, (List.cons.inj hdeliver).1⟩
    · cases hdeliver
  · rintro ⟨hen, hli, rfl⟩
    rw [if_pos ⟨hen, hli, Nat.one_ne_zero⟩]
    rfl

/-! ## The round trip -/

theorem nibbles_initiator : (((i.setWidth 8 <<< 4) ||| d.setWidth 8) >>> 4).setWidth 4 = i := by
  decide +revert

theorem nibbles_destination : ((i.setWidth 8 <<< 4) ||| d.setWidth 8).setWidth 4 = d := by
  decide +revert

theorem message_frameOf {m : CecMessage} {f : Frame} (hf : f.bytes = frameOf m) :
    f.message = .ofBytes m.initiator m.destination (m.body.take m.length) := by
  unfold Frame.message Frame.header
  rw [hf]
  exact congr (congr (congrArg _ (nibbles_initiator _ _)) (nibbles_destination _ _)) rfl

theorem getAidlCecMessage_ofBytes (eventType : Nat) (i d : LogicalAddress)
    (hlen : bytes.length ≤ bodyMaxLength) :
    getAidlCecMessage ⟨eventType, .ofBytes i d bytes⟩ = ⟨i, d, bytes⟩ := by
  simp [getAidlCecMessage, ofBytes, Nat.min_eq_left hlen]

theorem frameOf_toCec {a : AidlMessage} (hlen : a.body.length ≤ bodyMaxLength)
    (stale : Nat → BitVec 8) :
    frameOf (a.toCec stale) =
      ((a.initiator.setWidth 8 <<< 4) ||| a.destination.setWidth 8) :: a.body := by
  simp only [frameOf, AidlMessage.toCec, Nat.min_eq_left hlen, take_length]
  exact congrArg _ take_left

theorem opcode_toCec {a : AidlMessage} (hpos : 0 < a.body.length) (stale : Nat → BitVec 8) :
    (a.toCec stale).opcode = a.body.getD 0 0 := by
  cases hbody : a.body with
  | nil => exact absurd hpos (by rw [hbody]; exact Nat.lt_irrefl 0)
  | cons x l =>
    have hmin : min (l.length + 1) 16 = min l.length 15 + 1 := by omega
    simp [opcode, byte, AidlMessage.toCec, hbody, bodyMaxLength, hmin]

theorem opcode_ofBytes (hpos : 0 < bytes.length) : (ofBytes i d bytes).opcode = bytes.getD 0 0 := by
  cases bytes with
  | nil => exact absurd hpos (Nat.lt_irrefl 0)
  | cons x l => rfl

theorem filtered_congr {m m' : CecMessage} (d : CecDevice) (hop : m.opcode = m'.opcode) :
    Filtered d m ↔ Filtered d m' := by
  unfold Filtered
  rw [hop]

/-- The frame has zeros behind the bytes. -/
theorem frame_roundTrip (io io' : CecIo) (d₀ d d' : CecDevice) {m : CecMessage}
    (hbody : m.body.length = bodyMaxLength) (hpos : 1 ≤ m.length) (hle : m.length ≤ 15) :
    ∃ f : Frame, writes ((send m).run d₀).log = [f.bytes] ∧
      f.message = ⟨m.initiator, m.destination, m.length,
        m.body.take m.length ++ List.replicate (bodyMaxLength - m.length) 0⟩ ∧
      (deliveries ((readCecMessage io f).run d).log = [⟨eventCecMessage, f.message⟩] ↔
        d.isCecEnabled = true ∧ d.eventListener = true ∧
          ((messageValidateAndHandle io ⟨eventCecMessage, f.message⟩).run d).val =
            ⟨eventCecMessage, f.message⟩) ∧
      ∃ n,
        writes ((aidlSendMessage io' (getAidlCecMessage ⟨eventCecMessage, f.message⟩)).run d').log =
          List.replicate n f.bytes ∧
        (0 < n ↔ d'.driverOpen = true ∧ d'.isCecEnabled = true ∧ ¬ Filtered d' f.message) := by
  have htake : (m.body.take m.length).length = m.length := by
    rw [length_take, hbody]
    exact Nat.min_eq_left (Nat.le_trans hle (by decide))
  have hframe : (frameOf m).length = m.length + 1 := by
    rw [frameOf, length_cons, htake]
  let f : Frame := ⟨frameOf m, by rw [hframe]; exact Nat.succ_le_succ hle⟩
  have hmsg : f.message = .ofBytes m.initiator m.destination (m.body.take m.length) :=
    message_frameOf rfl
  have hping : ¬ f.bytes.length ≤ 1 := by
    change ¬ (frameOf m).length ≤ 1
    omega
  refine ⟨f, writes_send m d₀, ?_, readCecMessage_delivers_iff io d hping, ?_⟩
  · rw [hmsg, ofBytes, htake]
  · have hlen : (m.body.take m.length).length ≤ bodyMaxLength := by
      rw [htake]
      exact Nat.le_trans hle (by decide)
    have hpos' : 0 < (m.body.take m.length).length := by
      rw [htake]
      exact hpos
    rw [hmsg, getAidlCecMessage_ofBytes _ _ _ hlen]
    obtain ⟨n, hn, hsent⟩ := writes_aidlSendMessage io' ⟨_, _, m.body.take m.length⟩ d'
    refine ⟨n, hn.trans (congrArg _ (frameOf_toCec hlen _)), hsent.trans ?_⟩
    rw [filtered_congr d' ((opcode_toCec hpos' _).trans (opcode_ofBytes _ _ hpos').symm)]

/-- A key press from the TV comes through. -/
theorem userControl_roundTrip :
    let m : CecMessage := ⟨0, 4, 2, [0x44, 0x41] ++ List.replicate 14 0xFF⟩
    let d := freshDevice false true
    ∃ f : Frame, writes ((send m).run d).log = [f.bytes] ∧
      deliveries ((readCecMessage quietIo f).run d).log =
        [⟨eventCecMessage, 0, 4, 2, [0x44, 0x41] ++ List.replicate 14 0⟩] ∧
      f.bytes ∈ writes ((aidlSendMessage quietIo
        (getAidlCecMessage ⟨eventCecMessage, f.message⟩)).run d).log := by
  obtain ⟨f, hsent, hmsg, hdeliver, n, hagain, hpos⟩ := frame_roundTrip quietIo quietIo
    (freshDevice false true) _ _
    (m := ⟨0, 4, 2, [0x44, 0x41] ++ List.replicate 14 0xFF⟩) rfl (by decide) (by decide)
  refine ⟨f, hsent, ?_, ?_⟩
  · rw [hmsg] at hdeliver
    exact hdeliver.mpr (by decide)
  · rw [hagain]
    refine mem_replicate.mpr ⟨Nat.pos_iff_ne_zero.mp (hpos.mpr ⟨rfl, rfl, ?_⟩), rfl⟩
    exact fun h => absurd h.2.2 (by decide)

end AmlogicHal.Cec
