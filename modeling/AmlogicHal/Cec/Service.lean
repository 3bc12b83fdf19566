import AmlogicHal.Cec.Control
import AmlogicHal.Lib.Machine
import Mathlib.Data.List.AList

/-!
# The callbacks of the CEC service

`HdmiCec.cpp` of the AIDL service keeps the callback of each client process in a map, with a counter
beside it. `setCallback` counts every call, also one that replaces a callback, and
`handleBinderDied` takes one off for every entry it removes.

* `surplus_step`: the counter gets ahead of the map by one with every replaced callback, and only
  then.
* `callbackSize_exact_iff`: the counter is the number of entries exactly as long as no callback is
  replaced. The events go to all entries in any case, because the counter is never behind.
* `replacedCallback_counted`: a client that sets its callback twice is counted twice.
-/

namespace AmlogicHal.Cec

/-! ## The service -/

abbrev Callback := Nat

/-- `unordered_map<int, shared_ptr<IHdmiCecCallback>>`. -/
abbrev CallbackMap := AList (fun _ : Int => Callback)

/-- The members of `HdmiCec` that have to do with callbacks. -/
structure HdmiCec where
  callbackSize : Int
  callbackMap : CallbackMap
  vendorCallback : Option Callback
  isVendorCallback : Bool

def HdmiCec.new : HdmiCec := ⟨0, ∅, none, false⟩

def getAidlCecMessage (e : CecEvent) : AidlMessage :=
  ⟨e.cec.initiator, e.cec.destination, e.cec.body.take (min e.cec.length bodyMaxLength)⟩

def langVendorCallback : String := "aml"

/-- What a call does outside: the messages to callbacks, and whether the vendor observer is handed
to `HdmiCecControl`. -/
structure ServiceOutput where
  delivered : List (Callback × AidlMessage)
  vendorObserver : Bool

namespace HdmiCec

/-- `setCallback`, called by the process `pid`. -/
def setCallback (pid : Int) (callback : Option Callback) (s : HdmiCec) : HdmiCec × ServiceOutput :=
  match callback with
  | none => (s, ⟨[], false⟩)
  | some cb =>
    if s.isVendorCallback = true then
      ({ s with vendorCallback := some cb, isVendorCallback := false }, ⟨[], true⟩)
    else
      ({ s with callbackSize := s.callbackSize + 1, callbackMap := s.callbackMap.insert pid cb },
        ⟨[], false⟩)

def setLanguage (language : String) (s : HdmiCec) : HdmiCec :=
  if language.length ≠ 3 then s
  else if language = langVendorCallback then { s with isVendorCallback := true }
  else s

/-- One pass of the loop of `handleBinderDied`. -/
def dropIfDead (isAlive : Callback → Bool) (s : HdmiCec) (entry : Sigma fun _ : Int => Callback) :
    HdmiCec :=
  if isAlive entry.2 = true then s
  else
    { s with callbackMap := s.callbackMap.erase entry.1, callbackSize := s.callbackSize - 1 }

def handleBinderDied (isAlive : Callback → Bool) (s : HdmiCec) : HdmiCec :=
  s.callbackMap.entries.foldl (dropIfDead isAlive) s

/-- `HdmiCecCallback::onEventUpdate`. -/
def onEventUpdate (e : CecEvent) (s : HdmiCec) : List (Callback × AidlMessage) :=
  if s.callbackSize = 0 then []
  else if e.eventType = eventCecMessage then
    s.callbackMap.entries.map fun entry => (entry.2, getAidlCecMessage e)
  else []

/-- `HdmiCecVendorCallback::onEventUpdate`. -/
def onVendorEventUpdate (e : CecEvent) (s : HdmiCec) : List (Callback × AidlMessage) :=
  match s.vendorCallback with
  | none => []
  | some cb => if e.eventType = eventVendorMessage then [(cb, getAidlCecMessage e)] else []

end HdmiCec

open HdmiCec List

/-- A call of a client, a death notification with the binders that are alive then, or an event of
`HdmiCecControl`. -/
inductive ServiceStep where
  | setCallback (pid : Int) (callback : Option Callback)
  | setLanguage (language : String)
  | serviceDied (isAlive : Callback → Bool)
  | event (e : CecEvent)
  | vendorEvent (e : CecEvent)

def serviceMachine : Machine HdmiCec ServiceStep ServiceOutput where
  step s
    | .setCallback pid callback => s.setCallback pid callback
    | .setLanguage language => (s.setLanguage language, ⟨[], false⟩)
    | .serviceDied isAlive => (s.handleBinderDied isAlive, ⟨[], false⟩)
    | .event e => (s, ⟨s.onEventUpdate e, false⟩)
    | .vendorEvent e => (s, ⟨s.onVendorEventUpdate e, false⟩)

/-! ## The counter and the map -/

/-- What the counter is ahead of the map. -/
def HdmiCec.surplus (s : HdmiCec) : Int := s.callbackSize - s.callbackMap.keys.length

/-- The step replaces the callback of a process. -/
def Replaces (s : HdmiCec) : ServiceStep → Prop
  | .setCallback pid callback =>
    callback.isSome = true ∧ s.isVendorCallback = false ∧ pid ∈ s.callbackMap
  | _ => False

instance (s : HdmiCec) : ∀ e, Decidable (Replaces s e)
  | .setCallback _ _ => inferInstanceAs (Decidable (_ ∧ _ ∧ _))
  | .setLanguage _ | .serviceDied _ | .event _ | .vendorEvent _ => .isFalse not_false

theorem length_keys_insert (m : CallbackMap) (pid : Int) (cb : Callback) :
    ((m.insert pid cb).keys.length : Int) = m.keys.length + if pid ∈ m then 0 else 1 := by
  rw [AList.keys_insert, length_cons]
  by_cases hmem : pid ∈ m
  · have hpos : 0 < m.keys.length := length_pos_of_mem hmem
    rw [if_pos hmem, length_erase_of_mem hmem]
    omega
  · rw [if_neg hmem, erase_of_not_mem hmem]
    rfl

theorem length_keys_erase {m : CallbackMap} {pid : Int} (hmem : pid ∈ m) :
    ((m.erase pid).keys.length : Int) = m.keys.length - 1 := by
  have hpos : 0 < m.keys.length := length_pos_of_mem hmem
  rw [AList.keys_erase, length_erase_of_mem hmem]
  omega

variable (isAlive : Callback → Bool)

theorem surplus_foldl :
    ∀ (entries : List (Sigma fun _ : Int => Callback)) (s : HdmiCec), entries.NodupKeys →
      (∀ entry ∈ entries, entry.1 ∈ s.callbackMap) →
      (entries.foldl (dropIfDead isAlive) s).surplus = s.surplus := by
  intro entries
  induction entries with
  | nil => exact fun s _ _ => rfl
  | cons entry entries ih =>
    intro s hnodup hmem
    obtain ⟨hnot, hrest⟩ := nodupKeys_cons.mp hnodup
    obtain ⟨hfirst, hmem⟩ := forall_mem_cons.mp hmem
    rw [foldl_cons, ih _ hrest]
    · unfold dropIfDead
      split
      · rfl
      · simp only [surplus, length_keys_erase hfirst]
        omega
    · intro other hother
      unfold dropIfDead
      split
      · exact hmem other hother
      · have hne : other.1 ≠ entry.1 := fun heq => hnot (heq ▸ mem_keys_of_mem hother)
        exact AList.mem_erase.mpr ⟨hne, hmem other hother⟩

variable (s : HdmiCec)

theorem surplus_handleBinderDied :
    (s.handleBinderDied isAlive).surplus = s.surplus :=
  surplus_foldl isAlive _ s s.callbackMap.nodupKeys fun _ hentry => mem_keys_of_mem hentry

theorem surplus_step (e : ServiceStep) :
    (serviceMachine.step s e).1.surplus = s.surplus + if Replaces s e then 1 else 0 := by
  cases e with
  | setCallback pid callback =>
    cases callback with
    | none =>
      have hno : ¬ Replaces s (.setCallback pid none) := fun h => absurd h.1 Bool.false_ne_true
      rw [if_neg hno, Int.add_zero]
      rfl
    | some cb =>
      change (s.setCallback pid (some cb)).1.surplus = _
      unfold setCallback
      cases hvendor : s.isVendorCallback with
      | true =>
        have hno : ¬ Replaces s (.setCallback pid (some cb)) := fun h =>
          absurd (hvendor.symm.trans h.2.1) (by decide)
        rw [if_neg hno, Int.add_zero]
        rfl
      | false =>
        have hiff : Replaces s (.setCallback pid (some cb)) ↔ pid ∈ s.callbackMap :=
          ⟨fun h => h.2.2, fun h => ⟨rfl, hvendor, h⟩⟩
        simp only [surplus, length_keys_insert, hiff, Bool.false_eq_true, if_false]
        split <;> omega
  | setLanguage language =>
    change (s.setLanguage language).surplus = s.surplus + 0
    unfold setLanguage
    rw [Int.add_zero]
    split
    · rfl
    · split <;> rfl
  | serviceDied isAlive => exact (surplus_handleBinderDied isAlive s).trans (Int.add_zero _).symm
  | event e => exact (Int.add_zero _).symm
  | vendorEvent e => exact (Int.add_zero _).symm

/-! ## What the clients see -/

def CountExact (s : HdmiCec) (e : ServiceStep) : Prop :=
  (serviceMachine.step s e).1.callbackSize = (serviceMachine.step s e).1.callbackMap.entries.length

/-- A CEC message goes to every entry of the map, and so to nobody exactly if there is none. -/
def ReachesAll (s : HdmiCec) : ServiceStep → Prop
  | .event e => e.eventType = eventCecMessage →
      s.onEventUpdate e = s.callbackMap.entries.map fun entry => (entry.2, getAidlCecMessage e)
  | _ => True

theorem length_keys (m : CallbackMap) : m.keys.length = m.entries.length := length_map Sigma.fst

theorem countExact_iff (e : ServiceStep) : CountExact s e ↔
    (serviceMachine.step s e).1.surplus = 0 := by
  unfold CountExact surplus
  rw [length_keys]
  exact Int.sub_eq_zero.symm

theorem reachesAll_of_surplus {s : HdmiCec} (h : 0 ≤ s.surplus) (e : ServiceStep) :
    ReachesAll s e := by
  cases e with
  | event e =>
    intro htype
    unfold onEventUpdate
    by_cases hsize : s.callbackSize = 0
    · have hempty : s.callbackMap.entries = [] := by
        unfold surplus at h
        rw [hsize, length_keys] at h
        exact eq_nil_of_length_eq_zero (by omega)
      rw [if_pos hsize, hempty]
      rfl
    · rw [if_neg hsize, if_pos htype]
  | _ => trivial

theorem callbackSize_exact_iff (es : List ServiceStep) :
    (serviceMachine.Always CountExact .new es ↔
      serviceMachine.Always (fun s e => ¬ Replaces s e) .new es) ∧
      serviceMachine.Always ReachesAll .new es := by
  constructor
  · refine Machine.always_congr (I := fun s : HdmiCec => s.surplus = 0) (fun s e hs => ?_)
      (fun s e _ hexact => (countExact_iff s e).mp hexact) es .new rfl
    rw [countExact_iff, surplus_step, hs]
    split
    · next h => exact iff_of_false (by decide) (not_not.mpr h)
    · next h => exact iff_of_true rfl h
  · refine Machine.always_of_invariant (I := fun s : HdmiCec => 0 ≤ s.surplus)
      (fun s e hs => reachesAll_of_surplus hs e) (fun s e hs => ?_) es .new (Int.le_refl 0)
    rw [surplus_step]
    split <;> omega

/-- After its death the counter says one, and the map is empty. -/
theorem replacedCallback_counted :
    let s := (serviceMachine.exec .new
      [.setCallback 100 (some 1), .setCallback 100 (some 2), .serviceDied fun _ => false]).2
    s.callbackSize = 1 ∧ s.callbackMap.entries.length = 0 := by
  decide

end AmlogicHal.Cec
