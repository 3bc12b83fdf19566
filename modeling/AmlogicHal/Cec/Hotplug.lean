import AmlogicHal.Cec.Device
import AmlogicHal.Lib.Machine

/-!
# Hotplug events

The service polls the connection state of its ports and reports a change while the box is awake.
During sleep a cable that is plugged in again is still reported if the box was awake when it was
pulled out; for this there is one flag, which every unplugged port overwrites.

* `checkConnectStatus` is the poll, over the ports in the order of `port_data`.
* `hotplug_reported_iff`: over whole runs, every reconnect of a port that was last reported as
  disconnected is reported, exactly as long as the flag is set whenever such a port comes back
  during sleep. The status bits follow the last successful reads in any case.
* `outAwake_single`: with one port the flag is always set there.
* `hotplug_lost_two`: with two ports a reconnect gets lost.
-/

namespace AmlogicHal.Cec

open Traced Machine List

/-! ## The poll -/

def devTypePlayback : Int := 4

/-- The device with what the poll reads and writes besides. -/
structure HotplugDevice extends CecDevice where
  firstDeviceType : Int
  /-- The port ids in `port_data`, which has `total_port` entries. -/
  portIds : List Nat
  cecConnectStatus : BitVec 32
  hotplugOutAwake : Bool

open HotplugDevice

structure HotplugIo where
  /-- The result of `CEC_IOC_GET_CONNECT_STATUS`, and the value it leaves. -/
  ret : Nat → Int
  connect : Nat → Int
  /-- The property for the power state. -/
  isWake : Nat → Bool

inductive HotplugObs where
  | connectStatus (port : Nat)
  | boxConnection (connected : Bool)
  | hotplug (connected : Int) (portId : Nat)
deriving DecidableEq, Repr

abbrev HotplugM := Traced HotplugObs HotplugDevice

/-- The port that the driver is asked for, and the bit of the status. A playback device with one
port uses 0. -/
def HotplugDevice.portOf (d : HotplugDevice) (portId : Nat) : Nat :=
  if d.portIds.length = 1 ∧ d.firstDeviceType = devTypePlayback then 0 else portId

variable (io : HotplugIo)

/-- `connect ? 1 : 0`, as a condition. -/
def HotplugIo.connected (i : Nat) : Bool := io.connect i != 0

/-- `b << port`. -/
def shifted (b : Bool) (port : Nat) : BitVec 32 := (if b then 1#32 else 0#32) <<< port

/-- What a playback device does on a change; the result is whether it counts as awake. -/
def noteHotplug (i : Nat) : HotplugM Bool :=
  read fun d =>
    if d.isPlayback then do
      emit (.boxConnection (io.connected i))
      if io.connected i = false then do
        modify fun d => { d with hotplugOutAwake := io.isWake i }
        pure (io.isWake i)
      else if !io.isWake i && d.hotplugOutAwake then
        pure true
      else
        pure (io.isWake i)
    else
      pure (io.isWake i)

def reportHotplug (i portId : Nat) (isWake : Bool) : HotplugM Unit :=
  read fun d =>
    if d.eventListener && d.isCecEnabled && isWake then
      emit (.hotplug (io.connect i) portId)
    else
      pure ()

/-- The body of the loop for the port at position `i`, on the status so far. -/
def checkPort (portId i : Nat) (prev : BitVec 32) : HotplugM (BitVec 32) :=
  read fun d => do
    emit (.connectStatus (d.portOf portId))
    if io.ret i ≠ 0 then
      pure prev
    else if (prev &&& shifted true (d.portOf portId)) ^^^
        shifted (io.connected i) (d.portOf portId) ≠ 0 then do
      let isWake ← noteHotplug io i
      reportHotplug io i portId isWake
      pure ((prev &&& ~~~(prev &&& shifted true (d.portOf portId))) |||
        shifted (io.connected i) (d.portOf portId))
    else
      pure prev

def checkPorts (io : HotplugIo) : List (Nat × Nat) → BitVec 32 → HotplugM (BitVec 32)
  | [], prev => pure prev
  | x :: xs, prev => do
    let prev ← checkPort io x.1 x.2 prev
    checkPorts io xs prev

def checkConnectStatus : HotplugM Unit :=
  read fun d => do
    let prev ← checkPorts io d.portIds.zipIdx d.cecConnectStatus
    modify fun d => { d with cecConnectStatus := prev }

def hotplugMachine : Machine HotplugDevice HotplugIo (List HotplugObs) where
  step d io := (((checkConnectStatus io).run d).st, ((checkConnectStatus io).run d).log)

/-! ## The status bits -/

theorem shifted_getLsbD (b : Bool) (p q : Nat) :
    (shifted b p).getLsbD q = (b && decide (q = p) && decide (q < 32)) := by
  unfold shifted
  cases b with
  | false => simp
  | true =>
    by_cases hq : q = p
    · subst hq
      simp
    · by_cases hlt : q < p
      · simp [hlt, hq]
      · have hsub : q - p ≠ 0 := by omega
        simp [hq, hsub]

variable {p : Nat}

theorem setBit_getLsbD (hp : p < 32) (prev : BitVec 32) (b : Bool) (q : Nat) :
    ((prev &&& ~~~(prev &&& shifted true p)) ||| shifted b p).getLsbD q =
      if q = p then b else prev.getLsbD q := by
  simp only [BitVec.getLsbD_or, BitVec.getLsbD_and, BitVec.getLsbD_not, shifted_getLsbD]
  by_cases hq : q = p
  · subst hq
    cases prev.getLsbD q <;> simp [hp]
  · have hlt : prev.getLsbD q = true → q < 32 := BitVec.lt_of_getLsbD
    cases hb : prev.getLsbD q <;> simp_all

theorem changed_iff (hp : p < 32) (prev : BitVec 32) (b : Bool) :
    (prev &&& shifted true p) ^^^ shifted b p ≠ 0 ↔ prev.getLsbD p ≠ b := by
  have hbit : ∀ q, ((prev &&& shifted true p) ^^^ shifted b p).getLsbD q =
      (decide (q = p) && (prev.getLsbD p ^^ b)) := by
    intro q
    simp only [BitVec.getLsbD_xor, BitVec.getLsbD_and, shifted_getLsbD]
    by_cases hq : q = p
    · subst hq
      simp [hp]
    · simp [hq]
  constructor
  · intro hne heq
    refine hne (BitVec.eq_of_getLsbD_eq fun q _ => ?_)
    rw [hbit q, heq]
    simp
  · intro hne h0
    have hp' := hbit p
    cases h1 : prev.getLsbD p <;> cases b <;> simp_all

/-! ## What the listener has seen -/

def eventOf (p : Nat) : HotplugObs → Option Bool
  | .hotplug c q => if q = p then some (c != 0) else none
  | _ => none

/-- The state of the port `p` that was reported last. -/
def lastEvent (p : Nat) (obs : List HotplugObs) : Option Bool := obs.reverse.findSome? (eventOf p)

@[simp] theorem lastEvent_nil : lastEvent p [] = none := rfl

@[simp] theorem lastEvent_append (xs ys : List HotplugObs) :
    lastEvent p (xs ++ ys) = (lastEvent p ys).or (lastEvent p xs) := by
  simp [lastEvent]

@[simp] theorem lastEvent_single (o : HotplugObs) : lastEvent p [o] = eventOf p o := by
  simp only [lastEvent, reverse_singleton, List.findSome?_cons, List.findSome?_nil]
  cases eventOf p o <;> rfl

variable {obs : List HotplugObs}

theorem lastEvent_mem {b : Bool} (h : lastEvent p obs = some b) :
    ∃ c : Int, (c != 0) = b ∧ .hotplug c p ∈ obs := by
  obtain ⟨o, ho, hev⟩ := exists_of_findSome?_eq_some h
  cases o with
  | connectStatus _ => simp [eventOf] at hev
  | boxConnection _ => simp [eventOf] at hev
  | hotplug c q =>
    simp only [eventOf] at hev
    split at hev
    · next hq =>
      subst hq
      exact ⟨c, by simpa using hev, mem_reverse.mp ho⟩
    · simp at hev

theorem lastEvent_none (h : lastEvent p obs = none) (c : Int) : .hotplug c p ∉ obs := by
  intro hmem
  have hno := List.findSome?_eq_none_iff.mp h _ (mem_reverse.mpr hmem)
  simp [eventOf] at hno

/-! ## One port -/

def HotplugDevice.config (d : HotplugDevice) : HotplugDevice :=
  { d with cecConnectStatus := 0, hotplugOutAwake := false }

theorem HotplugDevice.portOf_config (d : HotplugDevice) (portId : Nat) :
    d.config.portOf portId = d.portOf portId := rfl

variable {d d' : HotplugDevice}

theorem HotplugDevice.portOf_congr (h : d'.config = d.config) : d'.portOf = d.portOf := by
  funext portId
  rw [← d'.portOf_config, h, d.portOf_config]

theorem HotplugDevice.switches_congr (h : d'.config = d.config) :
    d'.isPlayback = d.isPlayback ∧ d'.eventListener = d.eventListener ∧
    d'.isCecEnabled = d.isCecEnabled := by
  simp only [config, mk.injEq] at h
  simp [h]

/-- A change on the port at position `i` counts as seen awake. -/
def seenAwake (i : Nat) (d : HotplugDevice) : Bool :=
  io.isWake i || (d.isPlayback && io.connected i && d.hotplugOutAwake)

theorem noteHotplug_run (i : Nat) (d : HotplugDevice) :
    ((noteHotplug io i).run d).val = seenAwake io i d ∧
      ((noteHotplug io i).run d).st.config = d.config ∧
      ∀ p, lastEvent p ((noteHotplug io i).run d).log = none := by
  unfold noteHotplug seenAwake
  simp only [run_read, run_ite, run_bind, run_emit, run_modify, run_pure]
  split
  · next hplay =>
    split
    · next hout => simp [hout, config, eventOf]
    · split
      · next hin hawake => simp_all [eventOf]
      · next hin hsleep => cases hw : io.isWake i <;> simp_all [eventOf]
  · next hplay => simp_all

theorem reportHotplug_st (i portId : Nat) (isWake : Bool) :
    ((reportHotplug io i portId isWake).run d).st = d := by
  unfold reportHotplug
  simp only [run_read, run_ite, run_emit, run_pure]
  split <;> rfl

def Changed (portId i : Nat) (prev : BitVec 32) (d : HotplugDevice) : Prop :=
  io.ret i = 0 ∧ prev.getLsbD (d.portOf portId) ≠ io.connected i

instance (portId i : Nat) (prev : BitVec 32) (d : HotplugDevice) :
    Decidable (Changed io portId i prev d) := inferInstanceAs (Decidable (_ ∧ _))

variable {io : HotplugIo} {portId i : Nat} {prev : BitVec 32}

theorem checkPort_unchanged (hp : d.portOf portId < 32) (h : ¬ Changed io portId i prev d) :
    (checkPort io portId i prev).run d = ⟨prev, d, [.connectStatus (d.portOf portId)]⟩ := by
  unfold checkPort
  simp only [run_read, run_ite, run_bind, run_emit, run_pure]
  by_cases hret : io.ret i = 0
  · have h0 := mt (changed_iff hp prev _).mp fun hne => h ⟨hret, hne⟩
    rw [if_neg (by simp [hret]), if_neg h0]
    rfl
  · rw [if_pos hret]
    rfl

theorem checkPort_changed (hp : d.portOf portId < 32) (h : Changed io portId i prev d) :
    (checkPort io portId i prev).run d =
      ⟨(prev &&& ~~~(prev &&& shifted true (d.portOf portId))) |||
          shifted (io.connected i) (d.portOf portId),
        ((noteHotplug io i).run d).st,
        [.connectStatus (d.portOf portId)] ++ (((noteHotplug io i).run d).log ++
          ((reportHotplug io i portId ((noteHotplug io i).run d).val).run
            ((noteHotplug io i).run d).st).log)⟩ := by
  unfold checkPort
  simp only [run_read, run_ite, run_bind, run_emit, run_pure]
  rw [if_neg (by simp [h.1]), if_pos ((changed_iff hp prev _).mpr h.2)]
  simp [reportHotplug_st]

theorem reportHotplug_event (i portId : Nat) (isWake : Bool) :
    lastEvent p ((reportHotplug io i portId isWake).run d).log =
      if p = portId ∧ (d.eventListener && d.isCecEnabled && isWake) = true then
        some (io.connected i) else none := by
  unfold reportHotplug
  simp only [run_read, run_ite, run_emit, run_pure]
  split
  · next hsend =>
    by_cases hq : p = portId
    · subst hq
      simp [hsend, eventOf, HotplugIo.connected]
    · simp [hq, eventOf, Ne.symm hq]
  · next hquiet => simp [hquiet]

theorem noteHotplug_flag :
    ((noteHotplug io i).run d).st.hotplugOutAwake =
      if d.isPlayback = true ∧ io.connected i = false then io.isWake i else d.hotplugOutAwake := by
  unfold noteHotplug
  simp only [run_read, run_ite, run_bind, run_emit, run_modify, run_pure]
  split
  · next hplay =>
    split
    · next hout => simp [hplay, hout]
    · next hin => split <;> simp [hin]
  · next hplay => simp [hplay]

theorem checkPort_config (io : HotplugIo) (portId i : Nat) (prev : BitVec 32)
    (d : HotplugDevice) : ((checkPort io portId i prev).run d).st.config = d.config := by
  unfold checkPort
  simp only [run_read, run_ite, run_bind, run_emit, run_pure]
  split
  · rfl
  · split
    · simp only [reportHotplug_st]
      exact (noteHotplug_run io i d).2.1
    · rfl

theorem checkPort_status (io : HotplugIo) (i : Nat) (prev : BitVec 32) (hp : d.portOf portId < 32)
    (q : Nat) :
    ((checkPort io portId i prev).run d).val.getLsbD q =
      if q = d.portOf portId ∧ io.ret i = 0 then io.connected i else prev.getLsbD q := by
  by_cases h : Changed io portId i prev d
  · rw [checkPort_changed hp h, setBit_getLsbD hp]
    simp [h.1]
  · rw [checkPort_unchanged hp h]
    split
    · next hq =>
      rw [hq.1]
      exact not_not.mp fun hne => h ⟨hq.2, hne⟩
    · rfl

theorem checkPort_event (io : HotplugIo) (i : Nat) (prev : BitVec 32) (hp : d.portOf portId < 32)
    (p : Nat) :
    lastEvent p ((checkPort io portId i prev).run d).log =
      if p = portId ∧ Changed io portId i prev d ∧
          (d.eventListener && d.isCecEnabled && seenAwake io i d) = true then
        some (io.connected i) else none := by
  by_cases h : Changed io portId i prev d
  · obtain ⟨hval, hcfg, hlog⟩ := noteHotplug_run io i d
    obtain ⟨-, hli, hen⟩ := switches_congr hcfg
    rw [checkPort_changed hp h]
    simp only [lastEvent_append, lastEvent_single, eventOf, hlog, reportHotplug_event, hval, hli,
      hen, h, Option.or_none, true_and]
  · rw [checkPort_unchanged hp h]
    simp [h, eventOf]

def Unplugged (io : HotplugIo) (prev : BitVec 32) (d : HotplugDevice) (x : Nat × Nat) : Prop :=
  io.ret x.2 = 0 ∧ io.connected x.2 = false ∧ prev.getLsbD (d.portOf x.1) = true

instance (io : HotplugIo) (prev : BitVec 32) (d : HotplugDevice) (x : Nat × Nat) :
    Decidable (Unplugged io prev d x) := inferInstanceAs (Decidable (_ ∧ _ ∧ _))

theorem checkPort_flag (hp : d.portOf portId < 32) (hplay : d.isPlayback = true) :
    ((checkPort io portId i prev).run d).st.hotplugOutAwake =
      if Unplugged io prev d (portId, i) then io.isWake i else d.hotplugOutAwake := by
  by_cases h : Changed io portId i prev d
  · rw [checkPort_changed hp h, noteHotplug_flag]
    obtain ⟨hret, hbit⟩ := h
    cases hcon : io.connected i <;> simp_all [Unplugged]
  · rw [checkPort_unchanged hp h, if_neg]
    rintro ⟨hret, hcon, hbit⟩
    exact h ⟨hret, by rw [hbit, hcon]; decide⟩

/-! ## One poll -/

theorem checkPorts_append (xs ys : List (Nat × Nat)) :
    (checkPorts io (xs ++ ys) prev).run d =
      let r := (checkPorts io xs prev).run d
      let q := (checkPorts io ys r.val).run r.st
      ⟨q.val, q.st, r.log ++ q.log⟩ := by
  induction xs generalizing prev d with
  | nil => simp [checkPorts]
  | cons x xs ih => simp [checkPorts, ih]

theorem checkPorts_config (io : HotplugIo) (xs : List (Nat × Nat)) (prev : BitVec 32)
    (d : HotplugDevice) : ((checkPorts io xs prev).run d).st.config = d.config := by
  induction xs generalizing prev d with
  | nil => rfl
  | cons x xs ih =>
    simp only [checkPorts, run_bind]
    rw [ih, checkPort_config]

theorem checkConnectStatus_config (io : HotplugIo) (d : HotplugDevice) :
    ((checkConnectStatus io).run d).st.config = d.config :=
  checkPorts_config io d.portIds.zipIdx d.cecConnectStatus d

/-- The ports have bits of their own in the status. -/
structure HotplugDevice.Wired (d : HotplugDevice) : Prop where
  nodup : d.portIds.Nodup
  portOf_lt : ∀ p ∈ d.portIds, d.portOf p < 32

theorem HotplugDevice.portIds_congr (h : d'.config = d.config) : d'.portIds = d.portIds := by
  simp only [config, mk.injEq] at h
  simp [h]

theorem HotplugDevice.Wired.congr (hw : d.Wired) (h : d'.config = d.config) : d'.Wired := by
  have hids := portIds_congr h
  exact ⟨hids ▸ hw.nodup, by rw [hids, portOf_congr h]; exact hw.portOf_lt⟩

theorem HotplugDevice.portOf_ne {q : Nat} (hp : p ∈ d.portIds) (hq : q ∈ d.portIds) (hne : p ≠ q) :
    d.portOf p ≠ d.portOf q := by
  unfold portOf
  split
  · next h1 =>
    obtain ⟨a, ha⟩ := length_eq_one_iff.mp h1.1
    rw [ha, mem_singleton] at hp hq
    exact absurd (hp.trans hq.symm) hne
  · exact hne

theorem checkPorts_other (io : HotplugIo) (xs : List (Nat × Nat)) (prev : BitVec 32) (hw : d.Wired)
    (hp : p ∈ d.portIds) (hxs : ∀ x ∈ xs, x.1 ∈ d.portIds ∧ x.1 ≠ p) :
    let r := (checkPorts io xs prev).run d
    r.val.getLsbD (d.portOf p) = prev.getLsbD (d.portOf p) ∧ lastEvent p r.log = none := by
  induction xs generalizing prev d with
  | nil => simp [checkPorts]
  | cons x xs ih =>
    obtain ⟨hx, hne⟩ := hxs x mem_cons_self
    have hlt := hw.portOf_lt _ hx
    have hcfg := checkPort_config io x.1 x.2 prev d
    have hids := portIds_congr hcfg
    obtain ⟨hb, he⟩ := ih ((checkPort io x.1 x.2 prev).run d).val (hw.congr hcfg)
      (hids ▸ hp) fun y hy => hids ▸ hxs y (mem_cons_of_mem _ hy)
    rw [portOf_congr hcfg, checkPort_status io x.2 prev hlt] at hb
    have hport := portOf_ne hp hx (Ne.symm hne)
    constructor
    · simpa [checkPorts, hport] using hb
    · have hev := checkPort_event io x.2 prev hlt p
      simp only [Ne.symm hne, false_and, if_false] at hev
      simp [checkPorts, he, hev]

theorem zipIdx_split (hw : d.Wired) (hi : d.portIds[i]? = some p) :
    d.portIds.zipIdx = d.portIds.zipIdx.take i ++ (p, i) :: d.portIds.zipIdx.drop (i + 1) ∧
      (∀ x ∈ d.portIds.zipIdx.take i, x.1 ∈ d.portIds ∧ x.1 ≠ p) ∧
      ∀ x ∈ d.portIds.zipIdx.drop (i + 1), x.1 ∈ d.portIds ∧ x.1 ≠ p := by
  obtain ⟨hlt, hget⟩ := List.getElem?_eq_some_iff.mp hi
  have hsplit : d.portIds.zipIdx =
      d.portIds.zipIdx.take i ++ (p, i) :: d.portIds.zipIdx.drop (i + 1) := by
    have hlt' : i < d.portIds.zipIdx.length := by simpa using hlt
    have hdrop := drop_eq_getElem_cons hlt'
    rw [getElem_zipIdx, hget, Nat.zero_add] at hdrop
    rw [← hdrop, take_append_drop]
  have hids : d.portIds = (d.portIds.zipIdx.take i).map Prod.fst ++
      p :: (d.portIds.zipIdx.drop (i + 1)).map Prod.fst := by
    have hmap := congrArg (List.map Prod.fst) hsplit
    simpa only [zipIdx_map_fst, map_append, map_cons] using hmap
  have hnd := hw.nodup
  rw [hids, nodup_append] at hnd
  refine ⟨hsplit, fun x hx => ⟨?_, ?_⟩, fun x hx => ⟨?_, ?_⟩⟩
  · exact (mem_zipIdx' (mem_of_mem_take hx)).2 ▸ getElem_mem _
  · exact hnd.2.2 _ (mem_map_of_mem hx) _ mem_cons_self
  · exact (mem_zipIdx' (mem_of_mem_drop hx)).2 ▸ getElem_mem _
  · rintro rfl
    exact (nodup_cons.mp hnd.2.1).1 (mem_map_of_mem hx)

/-- The flag is what the last unplugged port left. The bits of the ports to come are as they were
before the poll, because every port has a bit of its own. -/
theorem checkPorts_flag (xs : List (Nat × Nat)) (hw : d.Wired) (hplay : d.isPlayback = true)
    (hmem : ∀ x ∈ xs, x.1 ∈ d.portIds) (hnd : (xs.map Prod.fst).Nodup) :
    ((checkPorts io xs prev).run d).st.hotplugOutAwake =
      xs.foldl (fun flag x => if Unplugged io prev d x then io.isWake x.2
        else flag) d.hotplugOutAwake := by
  induction xs generalizing prev d with
  | nil => rfl
  | cons x xs ih =>
    obtain ⟨hx, hnd⟩ := nodup_cons.mp hnd
    have hxmem := hmem x mem_cons_self
    have hlt := hw.portOf_lt _ hxmem
    have hcfg := checkPort_config io x.1 x.2 prev d
    have hids := portIds_congr hcfg
    have hplay' := (switches_congr hcfg).1.trans hplay
    simp only [checkPorts, run_bind, foldl_cons]
    rw [ih (hw.congr hcfg) hplay' (fun y hy => hids ▸ hmem y (mem_cons_of_mem _ hy)) hnd,
      checkPort_flag hlt hplay]
    refine foldl_ext _ _ _ fun flag y hy => ?_
    have hne : y.1 ≠ x.1 := fun heq => hx (heq ▸ mem_map_of_mem hy)
    have hport := portOf_ne (hmem y (mem_cons_of_mem _ hy)) hxmem hne
    have hsame : Unplugged io ((checkPort io x.1 x.2 prev).run d).val
        ((checkPort io x.1 x.2 prev).run d).st y ↔ Unplugged io prev d y := by
      simp [Unplugged, portOf_congr hcfg, checkPort_status io x.2 prev hlt, hport]
    simp [hsame]

/-- The flag when the poll comes to position `i`: the power state at the last port before it that
is unplugged in this poll, or the flag before the poll if there is none. -/
def outAwakeAt (io : HotplugIo) (i : Nat) (d : HotplugDevice) : Bool :=
  (d.portIds.zipIdx.take i).foldl
    (fun flag x => if Unplugged io d.cecConnectStatus d x then io.isWake x.2 else flag)
    d.hotplugOutAwake

/-- The poll when it comes to position `i`. -/
def beforePort (io : HotplugIo) (i : Nat) (d : HotplugDevice) : HotplugDevice :=
  ((checkPorts io (d.portIds.zipIdx.take i) d.cecConnectStatus).run d).st

theorem beforePort_flag (hw : d.Wired) (hplay : d.isPlayback = true) (io : HotplugIo) (i : Nat) :
    (beforePort io i d).hotplugOutAwake = outAwakeAt io i d := by
  refine checkPorts_flag _ hw hplay (fun x hx => ?_) ?_
  · exact (mem_zipIdx' (mem_of_mem_take hx)).2 ▸ getElem_mem _
  · rw [map_take, zipIdx_map_fst]
    exact hw.nodup.sublist (take_sublist _ _)

theorem checkConnectStatus_port (io : HotplugIo) (hw : d.Wired) (hi : d.portIds[i]? = some p) :
    let r := (checkConnectStatus io).run d
    r.st.cecConnectStatus.getLsbD (d.portOf p) =
        (if io.ret i = 0 then io.connected i else d.cecConnectStatus.getLsbD (d.portOf p)) ∧
      lastEvent p r.log =
        if Changed io p i d.cecConnectStatus d ∧
            (d.eventListener && d.isCecEnabled && seenAwake io i (beforePort io i d)) = true then
          some (io.connected i) else none := by
  have hp : p ∈ d.portIds := mem_of_getElem? hi
  obtain ⟨hsplit, hpre, hpost⟩ := zipIdx_split hw hi
  -- the ports before `p`
  obtain ⟨hb₁, he₁⟩ := checkPorts_other io _ d.cecConnectStatus hw hp hpre
  have hc₁ : (beforePort io i d).config = d.config := checkPorts_config io _ _ d
  generalize hr₁ : (checkPorts io _ d.cecConnectStatus).run d = r₁ at hb₁ he₁
  have hst : beforePort io i d = r₁.st := congrArg Outcome.st hr₁
  rw [hst] at hc₁ ⊢
  -- the port itself
  have hport := portOf_congr hc₁
  have hlt : r₁.st.portOf p < 32 := hport ▸ hw.portOf_lt _ hp
  have hb₂ := checkPort_status io i r₁.val hlt (d.portOf p)
  have he₂ := checkPort_event io i r₁.val hlt p
  have hc₂ := (checkPort_config io p i r₁.val r₁.st).trans hc₁
  generalize hr₂ : (checkPort io p i r₁.val).run r₁.st = r₂ at hb₂ he₂ hc₂
  -- the ports behind it
  have hids := portIds_congr hc₂
  obtain ⟨hb₃, he₃⟩ :=
    checkPorts_other io _ r₂.val (hw.congr hc₂) (hids ▸ hp) (by rw [hids]; exact hpost)
  rw [portOf_congr hc₂] at hb₃
  have hrun : (checkPorts io d.portIds.zipIdx d.cecConnectStatus).run d =
      let r₃ := (checkPorts io (d.portIds.zipIdx.drop (i + 1)) r₂.val).run r₂.st
      ⟨r₃.val, r₃.st, r₁.log ++ (r₂.log ++ r₃.log)⟩ := by
    conv_lhs => rw [hsplit]
    rw [checkPorts_append, hr₁]
    simp [checkPorts, hr₂]
  obtain ⟨-, hli, hen⟩ := switches_congr hc₁
  have hch : Changed io p i r₁.val r₁.st ↔ Changed io p i d.cecConnectStatus d := by
    simp only [Changed, hport, hb₁]
  unfold checkConnectStatus
  simp only [run_read, run_bind, run_modify, hrun, append_nil]
  constructor
  · rw [hb₃, hb₂, hport, hb₁]
    simp
  · simp [he₁, he₂, he₃, true_and, hch, hli, hen]

/-! ## Runs of polls -/

abbrev HotplugHistory := List (HotplugIo × List HotplugObs)

/-- The state of the port at position `i` that was read last. -/
def lastRead (i : Nat) (h : HotplugHistory) : Option Bool :=
  h.reverse.findSome? fun x => if x.1.ret i = 0 then some (x.1.connected i) else none

theorem lastRead_snoc (h : HotplugHistory) :
    lastRead i (h ++ [(io, obs)]) =
      if io.ret i = 0 then some (io.connected i) else lastRead i h := by
  simp only [lastRead, reverse_append, reverse_singleton, singleton_append, List.findSome?_cons]
  split <;> simp_all

/-- The port `p` at position `i` was last reported as disconnected, and is now read as connected. -/
structure Reconnects (s : HotplugDevice × HotplugHistory) (io : HotplugIo) (i p : Nat) : Prop where
  port : s.1.portIds[i]? = some p
  out : lastEvent p (s.2.flatMap Prod.snd) = some false
  ok : io.ret i = 0
  connected : io.connected i = true

/-- What a poll owes its listener and the status: every reconnect is reported in the poll that
reads it, and every bit is what was read last (`d₀` is the device before the run). -/
structure PollOk (d₀ : HotplugDevice) (s : HotplugDevice × HotplugHistory) (io : HotplugIo) :
    Prop where
  reported : ∀ i p, Reconnects s io i p →
    ∃ c : Int, c ≠ 0 ∧ .hotplug c p ∈ (hotplugMachine.step s.1 io).2
  bits : ∀ i p : Nat, s.1.portIds[i]? = some p →
    (hotplugMachine.step s.1 io).1.cecConnectStatus.getLsbD (s.1.portOf p) =
      (lastRead i (s.2 ++ [(io, (hotplugMachine.step s.1 io).2)])).getD
        (d₀.cecConnectStatus.getLsbD (d₀.portOf p))

/-- When a port reconnects during sleep, the last port that was noticed as unplugged, in this poll
or before, was unplugged awake. -/
def OutAwake (s : HotplugDevice × HotplugHistory) (io : HotplugIo) : Prop :=
  ∀ i p, Reconnects s io i p → io.isWake i = false → outAwakeAt io i s.1 = true

/-- What holds between polls as long as all reconnects are reported. -/
structure HotplugInv (d₀ : HotplugDevice) (s : HotplugDevice × HotplugHistory) : Prop where
  config : s.1.config = d₀.config
  out : ∀ i p : Nat, s.1.portIds[i]? = some p → lastEvent p (s.2.flatMap Prod.snd) = some false →
    s.1.cecConnectStatus.getLsbD (s.1.portOf p) = false
  bits : ∀ i p : Nat, s.1.portIds[i]? = some p → s.1.cecConnectStatus.getLsbD (s.1.portOf p) =
    (lastRead i s.2).getD (d₀.cecConnectStatus.getLsbD (d₀.portOf p))

section Runs

variable {d₀ : HotplugDevice} {s : HotplugDevice × HotplugHistory}

section

variable (hw : d₀.Wired)
include hw

theorem poll_bits (hinv : HotplugInv d₀ s) (io : HotplugIo) {i p : Nat}
    (hi : s.1.portIds[i]? = some p) :
    (hotplugMachine.step s.1 io).1.cecConnectStatus.getLsbD (s.1.portOf p) =
      (lastRead i (s.2 ++ [(io, (hotplugMachine.step s.1 io).2)])).getD
        (d₀.cecConnectStatus.getLsbD (d₀.portOf p)) := by
  obtain ⟨hbit, -⟩ := checkConnectStatus_port io (hw.congr hinv.config) hi
  rw [lastRead_snoc]
  simp only [hotplugMachine, hbit, hinv.bits i p hi]
  split <;> rfl

theorem poll_event (hplay : d₀.isPlayback = true) (hli : d₀.eventListener = true)
    (hen : d₀.isCecEnabled = true) (hinv : HotplugInv d₀ s) {i p : Nat}
    (hre : Reconnects s io i p) :
    lastEvent p (hotplugMachine.step s.1 io).2 =
      if (io.isWake i || outAwakeAt io i s.1) = true then some true else none := by
  obtain ⟨-, hev⟩ := checkConnectStatus_port io (hw.congr hinv.config) hre.port
  have hch : Changed io p i s.1.cecConnectStatus s.1 :=
    ⟨hre.ok, by rw [hinv.out i p hre.port hre.out, hre.connected]; decide⟩
  have hbefore : (beforePort io i s.1).config = d₀.config :=
    (checkPorts_config io _ _ s.1).trans hinv.config
  obtain ⟨hplay₁, hli₁, hen₁⟩ := switches_congr hinv.config
  have hplay₂ := (switches_congr hbefore).1
  have hflag := beforePort_flag (hw.congr hinv.config) (hplay₁.trans hplay) io i
  simp [hotplugMachine, hev, hch, seenAwake, hplay₂, hflag, hli₁, hen₁, hplay, hli, hen,
    hre.connected]

theorem pollOk_iff (hplay : d₀.isPlayback = true) (hli : d₀.eventListener = true)
    (hen : d₀.isCecEnabled = true) (hinv : HotplugInv d₀ s) (io : HotplugIo) :
    PollOk d₀ s io ↔ OutAwake s io := by
  constructor
  · intro hok i p hre hsleep
    obtain ⟨c, -, hmem⟩ := hok.reported i p hre
    have hev := poll_event hw hplay hli hen hinv hre
    by_contra hflag
    rw [if_neg (by simpa [hsleep] using hflag)] at hev
    exact lastEvent_none hev c hmem
  · intro hawake
    refine ⟨fun i p hre => ?_, fun i p hi => poll_bits hw hinv io hi⟩
    have hev := poll_event hw hplay hli hen hinv hre
    have hflag : (io.isWake i || outAwakeAt io i s.1) = true := by
      cases hwake : io.isWake i with
      | true => rfl
      | false => simpa using hawake i p hre hwake
    rw [if_pos hflag] at hev
    obtain ⟨c, hc, hmem⟩ := lastEvent_mem hev
    exact ⟨c, by simpa using hc, hmem⟩

theorem hotplugInv_step (hinv : HotplugInv d₀ s) (io : HotplugIo)
    (hok : PollOk d₀ s io) : HotplugInv d₀ (hotplugMachine.recorded.step s io).1 := by
  have hcfg : (hotplugMachine.step s.1 io).1.config = s.1.config := checkConnectStatus_config io s.1
  have hids := portIds_congr hcfg
  have hport := portOf_congr hcfg
  refine ⟨hcfg.trans hinv.config, ?_, ?_⟩
  · intro i p hi hout
    simp only [recorded, hids, hport, flatMap_append, flatMap_singleton,
      lastEvent_append] at hi hout ⊢
    obtain ⟨hbit, hev⟩ := checkConnectStatus_port io (hw.congr hinv.config) hi
    simp only [hotplugMachine] at hout ⊢
    rw [hbit]
    cases hlast : lastEvent p ((checkConnectStatus io).run s.1).log with
    | some b =>
      -- reported in this poll: the bit is what was reported
      rw [hlast] at hout hev
      split at hev
      · next hch =>
        rw [if_pos hch.1.1]
        simp_all
      · simp at hev
    | none =>
      rw [hlast, Option.none_or] at hout
      split
      · next hret =>
        -- read as connected, it would have been reported
        cases hcon : io.connected i with
        | false => rfl
        | true =>
          obtain ⟨c, -, hmem⟩ := hok.reported i p ⟨hi, hout, hret, hcon⟩
          exact absurd hmem (lastEvent_none hlast c)
      · exact hinv.out i p hi hout
  · intro i p hi
    simp only [recorded, hids, hport] at hi ⊢
    exact hok.bits i p hi

end

theorem hotplugInv_start (d : HotplugDevice) : HotplugInv d (d, []) where
  config := rfl
  out := by simp
  bits := by simp [lastRead]

end Runs

/-- For a playback device with CEC enabled and a listener. -/
theorem hotplug_reported_iff {d : HotplugDevice} (hw : d.Wired) (hplay : d.isPlayback = true)
    (hli : d.eventListener = true) (hen : d.isCecEnabled = true) (es : List HotplugIo) :
    hotplugMachine.recorded.Always (PollOk d) (d, []) es ↔
      hotplugMachine.recorded.Always OutAwake (d, []) es :=
  always_congr (fun _ io hinv => pollOk_iff hw hplay hli hen hinv io)
    (fun _ io hinv hok => hotplugInv_step hw hinv io hok) es _ (hotplugInv_start d)

/-! ## A device with one port -/

/-- With one port the flag belongs to it. -/
structure SinglePortInv (d₀ : HotplugDevice) (s : HotplugDevice × HotplugHistory) : Prop
    extends HotplugInv d₀ s where
  flag : ∀ p ∈ s.1.portIds, lastEvent p (s.2.flatMap Prod.snd) = some false →
    s.1.hotplugOutAwake = true

theorem single_position {ids : List Nat} (h1 : ids.length = 1) (hi : ids[i]? = some p) :
    i = 0 ∧ ids = [p] := by
  obtain ⟨a, rfl⟩ := length_eq_one_iff.mp h1
  obtain ⟨hlt, rfl⟩ := List.getElem?_eq_some_iff.mp hi
  have h0 : i = 0 := by simpa using hlt
  subst h0
  exact ⟨rfl, rfl⟩

theorem single_flag (hids : d.portIds = [p]) (hp : d.portOf p < 32) (hplay : d.isPlayback = true) :
    ((checkConnectStatus io).run d).st.hotplugOutAwake =
      if Unplugged io d.cecConnectStatus d (p, 0) then io.isWake 0 else d.hotplugOutAwake := by
  rw [← checkPort_flag hp hplay]
  simp [checkConnectStatus, checkPorts, hids]

variable {d₀ : HotplugDevice} {s : HotplugDevice × HotplugHistory}

theorem SinglePortInv.outAwake (h1 : d₀.portIds.length = 1) (hinv : SinglePortInv d₀ s)
    (io : HotplugIo) : OutAwake s io := by
  intro i p hre _
  have hids := portIds_congr hinv.config
  obtain ⟨rfl, -⟩ := single_position (hids ▸ h1) hre.port
  exact hinv.flag p (mem_of_getElem? hre.port) hre.out

theorem SinglePortInv.step (hw : d₀.Wired) (hplay : d₀.isPlayback = true)
    (hli : d₀.eventListener = true) (hen : d₀.isCecEnabled = true) (h1 : d₀.portIds.length = 1)
    (hinv : SinglePortInv d₀ s) (io : HotplugIo) :
    SinglePortInv d₀ (hotplugMachine.recorded.step s io).1 := by
  have hok := (pollOk_iff hw hplay hli hen hinv.toHotplugInv io).mpr (hinv.outAwake h1 io)
  refine ⟨hotplugInv_step hw hinv.toHotplugInv io hok, ?_⟩
  intro p hp hout
  have hids := portIds_congr (checkConnectStatus_config io s.1)
  simp only [recorded, hotplugMachine, hids, flatMap_append, flatMap_singleton,
    lastEvent_append] at hp hout ⊢
  obtain ⟨i, hi⟩ := mem_iff_getElem?.mp hp
  obtain ⟨rfl, hone⟩ := single_position (portIds_congr hinv.config ▸ h1) hi
  have hws := hw.congr hinv.config
  obtain ⟨-, hev⟩ := checkConnectStatus_port io hws hi
  have hplay₁ := (switches_congr hinv.config).1.trans hplay
  rw [single_flag hone (hws.portOf_lt _ hp) hplay₁]
  cases hlast : lastEvent p ((checkConnectStatus io).run s.1).log with
  | some b =>
    -- unplugged in this poll, and reported because it was seen awake
    rw [hlast] at hout hev
    split at hev
    · next hch =>
      have hcon : io.connected 0 = false := by simp_all
      have hwake : io.isWake 0 = true := by simp_all [seenAwake]
      have hbit : s.1.cecConnectStatus.getLsbD (s.1.portOf p) = true := by
        simpa [hcon] using hch.1.2
      rw [if_pos ⟨hch.1.1, hcon, hbit⟩, hwake]
    · simp at hev
  | none =>
    -- still out, so nothing changed that could clear the flag
    rw [hlast, Option.none_or] at hout
    rw [if_neg]
    · exact hinv.flag p hp hout
    · rintro ⟨-, -, hbit⟩
      rw [hinv.out 0 p hi hout] at hbit
      cases hbit

theorem outAwake_single (hw : d.Wired) (hplay : d.isPlayback = true) (hli : d.eventListener = true)
    (hen : d.isCecEnabled = true) (h1 : d.portIds.length = 1) (es : List HotplugIo) :
    hotplugMachine.recorded.Always OutAwake (d, []) es :=
  always_of_invariant (I := SinglePortInv d) (fun _ io hinv => hinv.outAwake h1 io)
    (fun _ io hinv => hinv.step hw hplay hli hen h1 io) es _
    ⟨hotplugInv_start d, by simp⟩

/-- A playback box with the given ports, all of them connected. -/
def connectedBox (ids : List Nat) : HotplugDevice where
  toCecDevice := freshDevice false true
  firstDeviceType := devTypePlayback
  portIds := ids
  cecConnectStatus := 0xFFFFFFFF
  hotplugOutAwake := false

/-- A poll in which every read succeeds. -/
def poll (connect : List Int) (awake : Bool) : HotplugIo where
  ret _ := 0
  connect i := connect.getD i 0
  isWake _ := awake

/-- Unplugged awake and plugged in again asleep: the one port of a box is reported. -/
theorem hotplug_reported_one :
    hotplugMachine.recorded.Always (PollOk (connectedBox [1])) (connectedBox [1], [])
      [poll [0] true, poll [1] false] :=
  (hotplug_reported_iff ⟨by decide, by decide⟩ rfl rfl rfl _).mpr
    (outAwake_single ⟨by decide, by decide⟩ rfl rfl rfl rfl _)

/-- Port 1 is unplugged awake, then port 2 asleep, which clears the flag. Then port 1 is plugged in
again. -/
theorem hotplug_lost_two :
    let r := hotplugMachine.exec (connectedBox [1, 2]) [poll [0, 1] true, poll [0, 0] false]
    lastEvent 1 (r.1.flatMap Prod.snd) = some false ∧
      (poll [1, 0] false).connected 0 = true ∧
      (hotplugMachine.step r.2 (poll [1, 0] false)).2 =
        [.connectStatus 1, .boxConnection true, .connectStatus 2] := by
  decide +kernel

end AmlogicHal.Cec
