import AmlogicHal.Lib.Machine

/-!
# The USB gadget and its monitor

`UsbGadget::setCurrentUsbFunctions` links the functions of a request into the configuration of the
gadget. MTP, PTP and ADB are served by a process through FunctionFS (FFS). If there is one of them,
the gadget is pulled up by a monitor thread, when all endpoints in its list exist. The list is
filled while the functions are linked and cleared when the monitor is stopped; a request that fails
in between leaves its endpoints in it.

* `setCurrentUsbFunctions`: a request, with any of its file operations failing.
* `monitorCheck`: the checks of the monitor thread.
* `monitor_exact_iff`: whenever the monitor is started, its list is that of the request exactly if
  before the request the monitor was running or the list was empty (`Clean`).
* `starts_exact`: so it is, if no request for ADB with MTP or PTP fails in its ADB part.
* `leftover_monitored`: after such a failure the endpoints of MTP are waited for, which nobody
  creates.
-/

namespace AmlogicHal.Usb

inductive Status
  | success
  | error
  | configurationNotSupported
deriving DecidableEq

inductive GadgetFunction
  | adb
  | accessory
  | mtp
  | midi
  | ptp
  | rndis
  | audioSource
  | ncm
deriving DecidableEq

open GadgetFunction List

/-- The values of `GadgetFunction` in the interface of the HAL. No two functions share a bit. -/
structure FunctionBits where
  none : BitVec 64
  bit : GadgetFunction → BitVec 64
  disjoint : ∀ f g, f ≠ g → bit f &&& bit g = 0

namespace FunctionBits

variable (b : FunctionBits)

def mask (fs : List GadgetFunction) : BitVec 64 := fs.foldr (fun f m => b.bit f ||| m) 0

def has (functions : BitVec 64) (f : GadgetFunction) : Bool := functions &&& b.bit f != 0

end FunctionBits

/-- A file operation of a request that can fail. `remove` unlinks one function, and `descUse` is the
write of `"1"` for a function with a directory of endpoints. -/
inductive GadgetOp
  | deviceClass
  | deviceSubClass
  | deviceProtocol
  | clearDescUse
  | openConfig
  | remove (index : Nat)
  | vendorId
  | productId
  | descUse (dir : String)
  | inotify (dir : String)
  | link (name : String)
  | pullUp
deriving DecidableEq

/-- Where the monitor thread is: before its first check, or in its loop with the variable
`writeUdc`. -/
inductive MonitorThread
  | starting
  | watching (writeUdc : Bool)
deriving DecidableEq

structure MonitorFfs where
  endpointList : List String
  watchFd : List String
  thread : Option MonitorThread

structure UsbGadget where
  currentUsbFunctions : BitVec 64
  currentUsbFunctionsApplied : Bool
  monitorFfs : MonitorFfs
  gadgetPullup : Bool
  /-- The functions in the configuration, with the numbers of their links. -/
  links : List (Nat × String)

/-- What a request gets: the mask of the functions, and which operations succeed. -/
structure Request where
  functions : BitVec 64
  ok : GadgetOp → Bool

/-! ## Taking the gadget down -/

namespace MonitorFfs

def isMonitorRunning (m : MonitorFfs) : Bool := m.thread.isSome

/-- `reset`. The list of watches is not cleared. -/
def reset (m : MonitorFfs) : MonitorFfs := { m with endpointList := [], thread := none }

def startMonitor (m : MonitorFfs) : MonitorFfs := { m with thread := some .starting }

def addInotifyFd (dir : String) (m : MonitorFfs) : MonitorFfs :=
  { m with watchFd := m.watchFd ++ [dir] }

def addEndPoints (endpoints : List String) (m : MonitorFfs) : MonitorFfs :=
  { m with endpointList := m.endpointList ++ endpoints }

end MonitorFfs

/-- `unlinkFunctions`, behind `opendir`: stops at the first link that cannot be removed. -/
def unlinkFunctions (ok : GadgetOp → Bool) : List (Nat × String) → Status × List (Nat × String)
  | [] => (.success, [])
  | link :: links => if ok (.remove link.1) then unlinkFunctions ok links
    else (.error, link :: links)

variable (ok : GadgetOp → Bool)

/-- `resetGadget`. That the gadget cannot be pulled down is only logged. -/
def resetGadget (g : UsbGadget) : Status × UsbGadget :=
  if !ok .deviceClass then (.error, g)
  else if !ok .deviceSubClass then (.error, g)
  else if !ok .deviceProtocol then (.error, g)
  else if !ok .clearDescUse then (.error, g)
  else if !ok .openConfig then (.error, g)
  else
    let (status, links) := unlinkFunctions ok g.links
    (status, { g with links := links })

def tearDownGadget (g : UsbGadget) : Status × UsbGadget :=
  match resetGadget ok g with
  | (.success, g) =>
    if g.monitorFfs.isMonitorRunning then
      (.success, { g with monitorFfs := g.monitorFfs.reset, gadgetPullup := false })
    else (.success, g)
  | (_, g) => (.error, g)

/-! ## Setting it up -/

def productIds : List (List GadgetFunction × String) :=
  [([.mtp], "0x4ee1"), ([.adb, .mtp], "0x4ee2"), ([.rndis], "0x4ee3"), ([.adb, .rndis], "0x4ee4"),
   ([.ptp], "0x4ee5"), ([.adb, .ptp], "0x4ee6"), ([.adb], "0x4ee7"), ([.midi], "0x4ee8"),
   ([.adb, .midi], "0x4ee9"), ([.ncm], "0x4eeb"), ([.adb, .ncm], "0x4eec"),
     ([.accessory], "0x2d00"),
   ([.adb, .accessory], "0x2d01"), ([.audioSource], "0x2d02"), ([.adb, .audioSource], "0x2d03"),
   ([.accessory, .audioSource], "0x2d04"), ([.adb, .accessory, .audioSource], "0x2d05")]

variable (b : FunctionBits)

variable (r : Request)

/-- `validateAndSetVidPid`, with the ids that are written. -/
def validateAndSetVidPid : Status × List String :=
  match productIds.find? fun entry => r.functions = b.mask entry.1 with
  | none => (.configurationNotSupported, [])
  | some (_, pid) =>
    if !r.ok .vendorId then (.error, [])
    else if !r.ok .productId then (.error, ["0x18d1"])
    else (.success, ["0x18d1", pid])

/-- The gadget, and the local variables of `setupFunctions`. -/
structure Setup where
  gadget : UsbGadget
  ffsEnabled : Bool
  functionCount : Nat

namespace Setup

def andThen (x : Status × Setup) (f : Setup → Status × Setup) : Status × Setup :=
  match x with
  | (.success, s) => f s
  | (status, s) => (status, s)

/-- `linkFunction(name, (*functionCount)++)`. -/
def linkFunction (name : String) (s : Setup) : Status × Setup :=
  let index := s.functionCount
  let s := { s with functionCount := index + 1 }
  if ok (.link name) then
    (.success, { s with gadget := { s.gadget with links := s.gadget.links ++ [(index, name)] } })
  else (.error, s)

/-- A function with endpoints in a directory. -/
def addFfsFunction (dir name : String) (endpoints : List String) (s : Setup) :
    Status × Setup :=
  if !ok (.descUse dir) then (.error, s)
  else if !ok (.inotify dir) then (.error, s)
  else
    andThen
      (linkFunction ok name
        { s with gadget := { s.gadget with monitorFfs := s.gadget.monitorFfs.addInotifyFd dir } })
      fun s => (.success,
        { s with
          gadget := { s.gadget with monitorFfs := s.gadget.monitorFfs.addEndPoints endpoints } })

def addFunction (f : GadgetFunction) (name : String) (s : Setup) :
    Status × Setup :=
  if b.has r.functions f then linkFunction r.ok name s else (.success, s)

end Setup

def mtpEndpoints : List String :=
  ["/dev/usb-ffs/mtp/ep1", "/dev/usb-ffs/mtp/ep2", "/dev/usb-ffs/mtp/ep3"]

def ptpEndpoints : List String :=
  ["/dev/usb-ffs/ptp/ep1", "/dev/usb-ffs/ptp/ep2", "/dev/usb-ffs/ptp/ep3"]

def adbEndpoints : List String := ["/dev/usb-ffs/adb/ep1", "/dev/usb-ffs/adb/ep2"]

def addMtpOrPtp (s : Setup) : Status × Setup :=
  if b.has r.functions .mtp then
    Setup.addFfsFunction r.ok "/dev/usb-ffs/mtp/" "ffs.mtp" mtpEndpoints
      { s with ffsEnabled := true }
  else if b.has r.functions .ptp then
    Setup.addFfsFunction r.ok "/dev/usb-ffs/ptp/" "ffs.ptp" ptpEndpoints
      { s with ffsEnabled := true }
  else (.success, s)

def addOthers (s : Setup) : Status × Setup :=
  Setup.andThen
    (Setup.andThen
      (Setup.andThen
        (Setup.andThen (Setup.addFunction b r .midi "midi.gs5" s)
          (Setup.addFunction b r .accessory "accessory.gs2"))
        (Setup.addFunction b r .audioSource "audio_source.gs3"))
      (Setup.addFunction b r .rndis "rndis.gsi"))
    (Setup.addFunction b r .ncm "ncm.gs6")

def addGenericAndroidFunctions (s : Setup) : Status × Setup :=
  Setup.andThen (addMtpOrPtp b r s) (addOthers b r)

def addAdb (s : Setup) : Status × Setup :=
  Setup.addFfsFunction ok "/dev/usb-ffs/adb/" "ffs.adb" adbEndpoints s

def addFunctions (g : UsbGadget) : Status × Setup :=
  Setup.andThen (addGenericAndroidFunctions b r ⟨g, false, 0⟩) fun s =>
    if b.has r.functions .adb then addAdb r.ok { s with ffsEnabled := true } else (.success, s)

/-- How a request ends: the status, whether the monitor is started, and whether the gadget is pulled
up. -/
structure GadgetOutput where
  status : Status
  started : Bool
  pulledUp : Bool

/-- `setupFunctions`. What the callback of the framework is told is left out, and so is the time for
which the monitor is waited for. -/
def setupFunctions (g : UsbGadget) : UsbGadget × GadgetOutput :=
  match addFunctions b r g with
  | (.success, s) =>
    if !s.ffsEnabled then
      if !r.ok .pullUp then (s.gadget, ⟨.error, false, false⟩)
      else ({ s.gadget with currentUsbFunctionsApplied := true }, ⟨.success, false, true⟩)
    else
      ({ s.gadget with monitorFfs := s.gadget.monitorFfs.startMonitor }, ⟨.success, true, false⟩)
  | (_, s) => (s.gadget, ⟨.error, false, false⟩)

def configure (g : UsbGadget) : UsbGadget × GadgetOutput :=
  if r.functions = b.none then (g, ⟨.success, false, false⟩)
  else
    match (validateAndSetVidPid b r).1 with
    | .success => setupFunctions b r g
    | status => (g, ⟨status, false, false⟩)

def setCurrentUsbFunctions (g : UsbGadget) : UsbGadget × GadgetOutput :=
  let g := { g with currentUsbFunctions := r.functions, currentUsbFunctionsApplied := false }
  match tearDownGadget r.ok g with
  | (.success, g) => configure b r g
  | (status, g) => (g, ⟨status, false, false⟩)

/-! ## The monitor -/

/-- The first one, or one after an event of a watched directory. The gadget is pulled up once until
an endpoint is absent again. -/
def monitorCheck (present : String → Bool) (pullUp : Bool) (g : UsbGadget) :
    UsbGadget × GadgetOutput :=
  let descriptorPresent := g.monitorFfs.endpointList.all present
  let enter (writeUdc : Bool) (g : UsbGadget) : UsbGadget :=
    { g with monitorFfs := { g.monitorFfs with thread := some (.watching writeUdc) } }
  let wait (writeUdc : Bool) : UsbGadget × GadgetOutput :=
    (enter writeUdc g, ⟨.success, false, false⟩)
  let pull : UsbGadget × GadgetOutput :=
    if pullUp then
      (enter false { g with currentUsbFunctionsApplied := true, gadgetPullup := true },
        ⟨.success, false, true⟩)
    else wait true
  match g.monitorFfs.thread with
  | none => (g, ⟨.success, false, false⟩)
  | some .starting => if descriptorPresent then pull else wait true
  | some (.watching writeUdc) =>
    if !descriptorPresent && !writeUdc then wait true
    else if descriptorPresent && writeUdc then pull
    else wait writeUdc

inductive GadgetEvent
  | request (r : Request)
  | check (present : String → Bool) (pullUp : Bool)

def UsbGadget.step (g : UsbGadget) : GadgetEvent → UsbGadget × GadgetOutput
  | .request r => setCurrentUsbFunctions b r g
  | .check present pullUp => monitorCheck present pullUp g

def gadgetMachine : Machine UsbGadget GadgetEvent GadgetOutput where
  step g e := g.step b e

def UsbGadget.init : UsbGadget := ⟨0, false, ⟨[], [], none⟩, false, []⟩

/-! ## What a request adds -/

def ffsEndpoints : GadgetFunction → List String
  | .mtp => mtpEndpoints
  | .ptp => ptpEndpoints
  | .adb => adbEndpoints
  | _ => []

def requestedEndpoints (functions : BitVec 64) : List String :=
  ([.mtp, .ptp, .adb].filter (b.has functions)).flatMap ffsEndpoints

variable (b : FunctionBits)

namespace FunctionBits

variable {b : FunctionBits}

theorem has_mask_of_not_mem {fs : List GadgetFunction} {f : GadgetFunction} (hf : f ∉ fs) :
    b.has (b.mask fs) f = false := by
  have hzero : b.mask fs &&& b.bit f = 0 := by
    induction fs with
    | nil => exact BitVec.zero_and
    | cons g gs ih =>
      obtain ⟨hne, hgs⟩ := ne_and_not_mem_of_not_mem_cons hf
      rw [mask, foldr_cons, ← mask, BitVec.and_or_distrib_right, b.disjoint g f hne.symm, ih hgs]
      rfl
  rw [has, hzero]
  rfl

end FunctionBits

theorem supported_mask {b : FunctionBits} {r : Request}
    (h : (validateAndSetVidPid b r).1 = .success) :
    ∃ entry ∈ productIds, r.functions = b.mask entry.1 := by
  rw [validateAndSetVidPid] at h
  split at h
  · cases h
  next fs pid hfind =>
    exact ⟨(fs, pid), mem_of_find?_eq_some hfind, by simpa using find?_some hfind⟩

theorem supported_mtp_or_ptp {b : FunctionBits} {r : Request}
    (h : (validateAndSetVidPid b r).1 = .success) :
    b.has r.functions .mtp = false ∨ b.has r.functions .ptp = false := by
  have htable : ∀ entry ∈ productIds, mtp ∉ entry.1 ∨ ptp ∉ entry.1 := by decide
  obtain ⟨entry, hentry, hmask⟩ := supported_mask h
  rw [hmask]
  exact (htable entry hentry).imp FunctionBits.has_mask_of_not_mem FunctionBits.has_mask_of_not_mem

namespace Setup

variable {b : FunctionBits} {r : Request} {s : Setup}

/-- What a part of the setup does: the thread is as before, and after a success the list has got
`endpoints` and the flag is set if `ffs` is. -/
structure Extends (s : Setup) (endpoints : List String) (ffs : Bool) (x : Status × Setup) :
    Prop where
  thread : x.2.gadget.monitorFfs.thread = s.gadget.monitorFfs.thread
  endpointList : x.1 = .success →
    x.2.gadget.monitorFfs.endpointList = s.gadget.monitorFfs.endpointList ++ endpoints
  ffsEnabled : x.1 = .success → x.2.ffsEnabled = (s.ffsEnabled || ffs)

variable {x : Status × Setup} {f : Setup → Status × Setup}

theorem Extends.andThen {endpoints endpoints' : List String} {ffs ffs' : Bool}
    (hx : Extends s endpoints ffs x) (hf : ∀ t, Extends t endpoints' ffs' (f t)) :
    Extends s (endpoints ++ endpoints') (ffs || ffs') (andThen x f) := by
  obtain ⟨status, t⟩ := x
  cases status with
  | success =>
    refine ⟨(hf t).thread.trans hx.thread, fun h => ?_, fun h => ?_⟩
    · rw [← append_assoc, ← hx.endpointList rfl]
      exact (hf t).endpointList h
    · rw [← Bool.or_assoc, ← hx.ffsEnabled rfl]
      exact (hf t).ffsEnabled h
  | error => exact ⟨hx.thread, nofun, nofun⟩
  | configurationNotSupported => exact ⟨hx.thread, nofun, nofun⟩

def Keeps (s : Setup) (x : Status × Setup) : Prop :=
  x.2.gadget.monitorFfs = s.gadget.monitorFfs ∧ x.2.ffsEnabled = s.ffsEnabled

theorem Keeps.extends (h : Keeps s x) : Extends s [] false x :=
  ⟨congrArg MonitorFfs.thread h.1,
    fun _ => (congrArg MonitorFfs.endpointList h.1).trans (append_nil _).symm,
    fun _ => h.2.trans (Bool.or_false _).symm⟩

theorem Keeps.andThen (hx : Keeps s x) (hf : ∀ s, Keeps s (f s)) : Keeps s (andThen x f) := by
  obtain ⟨status, t⟩ := x
  cases status with
  | success => exact ⟨(hf t).1.trans hx.1, (hf t).2.trans hx.2⟩
  | error => exact hx
  | configurationNotSupported => exact hx

variable (ok : GadgetOp → Bool)

theorem linkFunction_keeps (name : String) (s : Setup) : Keeps s (linkFunction ok name s) := by
  rw [linkFunction]
  split <;> exact ⟨rfl, rfl⟩

theorem addFunction_keeps (b : FunctionBits) (r : Request) (f : GadgetFunction) (name : String)
    (s : Setup) : Keeps s (addFunction b r f name s) := by
  rw [addFunction]
  split
  · exact linkFunction_keeps _ _ _
  · exact ⟨rfl, rfl⟩

theorem addOthers_keeps (b : FunctionBits) (r : Request) (s : Setup) : Keeps s (addOthers b r s) :=
  ((((addFunction_keeps b r .midi _ s).andThen (addFunction_keeps b r .accessory _)).andThen
    (addFunction_keeps b r .audioSource _)).andThen (addFunction_keeps b r .rndis _)).andThen
    (addFunction_keeps b r .ncm _)

theorem addFfsFunction_extends (dir name : String) (endpoints : List String) (s : Setup) :
    Extends s endpoints false (addFfsFunction ok dir name endpoints s) := by
  rw [addFfsFunction]
  split
  · exact ⟨rfl, nofun, nofun⟩
  · split
    · exact ⟨rfl, nofun, nofun⟩
    · rw [linkFunction]
      split
      · exact ⟨rfl, fun _ => rfl, fun _ => (Bool.or_false _).symm⟩
      · exact ⟨rfl, nofun, nofun⟩

theorem addFfsFunction_failed (dir name : String) (endpoints : List String) (s : Setup) :
    (addFfsFunction ok dir name endpoints s).1 = .success ∨
      (addFfsFunction ok dir name endpoints s).2.gadget.monitorFfs.endpointList =
        s.gadget.monitorFfs.endpointList := by
  rw [addFfsFunction]
  split
  · exact .inr rfl
  · split
    · exact .inr rfl
    · rw [linkFunction]
      split
      · exact .inl rfl
      · exact .inr rfl

end Setup

section

open Setup

variable {b : FunctionBits} {r : Request} {g : UsbGadget}

/-- The endpoints of the first part. -/
def mtpOrPtpEndpoints (b : FunctionBits) (functions : BitVec 64) : List String :=
  if b.has functions .mtp then mtpEndpoints else if b.has functions .ptp then ptpEndpoints else []

def adbPartEndpoints (b : FunctionBits) (functions : BitVec 64) : List String :=
  if b.has functions .adb then adbEndpoints else []

theorem addMtpOrPtp_extends (b : FunctionBits) (r : Request) (s : Setup) :
    Extends s (mtpOrPtpEndpoints b r.functions) (b.has r.functions .mtp || b.has r.functions .ptp)
      (addMtpOrPtp b r s) := by
  have hffs (dir name : String) (endpoints : List String) :
      Extends s endpoints true
        (addFfsFunction r.ok dir name endpoints { s with ffsEnabled := true }) := by
    obtain ⟨hthread, hlist, hffs⟩ :=
      addFfsFunction_extends r.ok dir name endpoints { s with ffsEnabled := true }
    exact ⟨hthread, hlist, fun h => (hffs h).trans (Bool.or_true _).symm⟩
  rw [addMtpOrPtp, mtpOrPtpEndpoints]
  cases b.has r.functions .mtp with
  | true => exact hffs _ _ _
  | false =>
    cases b.has r.functions .ptp with
    | true => exact hffs _ _ _
    | false => exact Keeps.extends ⟨rfl, rfl⟩

theorem addFunctions_extends (b : FunctionBits) (r : Request) (g : UsbGadget) :
    Extends ⟨g, false, 0⟩ (mtpOrPtpEndpoints b r.functions ++ adbPartEndpoints b r.functions)
      (b.has r.functions .mtp || b.has r.functions .ptp || b.has r.functions .adb)
        (addFunctions b r g) := by
  have hadb (s : Setup) : Extends s (adbPartEndpoints b r.functions) (b.has r.functions .adb)
      (if b.has r.functions .adb then addAdb r.ok { s with ffsEnabled := true }
        else (.success, s)) := by
    rw [adbPartEndpoints]
    cases b.has r.functions .adb with
    | true =>
      obtain ⟨hthread, hlist, hffs⟩ :=
        addFfsFunction_extends r.ok "/dev/usb-ffs/adb/" "ffs.adb" adbEndpoints
          { s with ffsEnabled := true }
      exact ⟨hthread, hlist, fun h => (hffs h).trans (Bool.or_true _).symm⟩
    | false => exact Keeps.extends ⟨rfl, rfl⟩
  have hgeneric :=
    (addMtpOrPtp_extends b r ⟨g, false, 0⟩).andThen fun s => (addOthers_keeps b r s).extends
  have hall := hgeneric.andThen hadb
  rw [append_nil, Bool.or_false] at hall
  exact hall

theorem requestedEndpoints_eq (h : (validateAndSetVidPid b r).1 = .success) :
    mtpOrPtpEndpoints b r.functions ++ adbPartEndpoints b r.functions =
      requestedEndpoints b r.functions := by
  have hone := supported_mtp_or_ptp h
  rw [mtpOrPtpEndpoints, adbPartEndpoints, requestedEndpoints]
  cases hmtp : b.has r.functions .mtp <;> cases hptp : b.has r.functions .ptp <;>
    cases hadb : b.has r.functions .adb <;> simp_all [ffsEndpoints]

end

/-! ## When the monitor is started -/

def Clean (g : UsbGadget) : Prop :=
  g.monitorFfs.isMonitorRunning = true ∨ g.monitorFfs.endpointList = []

instance (g : UsbGadget) : Decidable (Clean g) := inferInstanceAs (Decidable (_ ∨ _))

def leftover (g : UsbGadget) : List String :=
  if g.monitorFfs.isMonitorRunning then [] else g.monitorFfs.endpointList

theorem leftover_eq_nil_iff (g : UsbGadget) : leftover g = [] ↔ Clean g := by
  rw [leftover, Clean]
  cases g.monitorFfs.isMonitorRunning with
  | true => exact ⟨fun _ => .inl rfl, fun _ => rfl⟩
  | false => exact ⟨.inr, fun h => h.resolve_left Bool.false_ne_true⟩

variable (ok : GadgetOp → Bool)

theorem resetGadget_monitorFfs (g : UsbGadget) :
    (resetGadget ok g).2.monitorFfs = g.monitorFfs := by
  rw [resetGadget]
  repeat' split
  all_goals rfl

theorem tearDownGadget_spec (g : UsbGadget) :
    ((tearDownGadget ok g).1 ≠ .success ∧ (tearDownGadget ok g).2.monitorFfs = g.monitorFfs) ∨
      ((tearDownGadget ok g).1 = .success ∧ (tearDownGadget ok g).2.monitorFfs.thread = none ∧
        (tearDownGadget ok g).2.monitorFfs.endpointList = leftover g) := by
  have hsame := resetGadget_monitorFfs ok g
  rw [tearDownGadget]
  generalize resetGadget ok g = x at hsame ⊢
  obtain ⟨status, t⟩ := x
  cases status with
  | success =>
    right
    dsimp only
    split
    next hrunning =>
      rw [leftover, ← hsame, if_pos hrunning]
      exact ⟨rfl, rfl, rfl⟩
    next hstopped =>
      rw [leftover, ← hsame, if_neg hstopped]
      exact ⟨rfl, Option.not_isSome_iff_eq_none.mp hstopped, rfl⟩
  | error => exact .inl ⟨nofun, hsame⟩
  | configurationNotSupported => exact .inl ⟨nofun, hsame⟩

section

variable {b : FunctionBits} {r : Request} {g : UsbGadget}

theorem setupFunctions_started (hvalid : (validateAndSetVidPid b r).1 = .success)
    (h : (setupFunctions b r g).2.started = true) :
    (setupFunctions b r g).1.monitorFfs.endpointList =
      g.monitorFfs.endpointList ++ requestedEndpoints b r.functions := by
  have hext := addFunctions_extends b r g
  rw [requestedEndpoints_eq hvalid] at hext
  rw [setupFunctions] at h ⊢
  generalize addFunctions b r g = x at hext h ⊢
  obtain ⟨status, t⟩ := x
  cases status with
  | success =>
    cases hffs : t.ffsEnabled with
    | false =>
      dsimp only at h
      rw [hffs] at h
      cases hpull : r.ok .pullUp <;> rw [hpull] at h <;> cases h
    | true =>
      dsimp only
      rw [hffs]
      exact hext.endpointList rfl
  | error => cases h
  | configurationNotSupported => cases h

theorem configure_started (h : (configure b r g).2.started = true) :
    (configure b r g).1.monitorFfs.endpointList =
      g.monitorFfs.endpointList ++ requestedEndpoints b r.functions := by
  rw [configure] at h ⊢
  split at h
  · cases h
  next hsome =>
    rw [if_neg hsome]
    cases hvalid : (validateAndSetVidPid b r).1 with
    | success =>
      rw [hvalid] at h
      exact setupFunctions_started hvalid h
    | error =>
      rw [hvalid] at h
      cases h
    | configurationNotSupported =>
      rw [hvalid] at h
      cases h

theorem setCurrentUsbFunctions_started (h : (setCurrentUsbFunctions b r g).2.started = true) :
    (setCurrentUsbFunctions b r g).1.monitorFfs.endpointList =
      leftover g ++ requestedEndpoints b r.functions := by
  have hdown := tearDownGadget_spec r.ok
    { g with currentUsbFunctions := r.functions, currentUsbFunctionsApplied := false }
  have hleft : leftover
      { g with currentUsbFunctions := r.functions, currentUsbFunctionsApplied := false } =
      leftover g := rfl
  rw [hleft] at hdown
  rw [setCurrentUsbFunctions] at h ⊢
  generalize tearDownGadget r.ok _ = x at hdown h ⊢
  obtain ⟨status, t⟩ := x
  cases status with
  | success =>
    obtain ⟨hne, -⟩ | ⟨-, -, hlist⟩ := hdown
    · exact absurd rfl hne
    · rw [← hlist]
      exact configure_started h
  | error => cases h
  | configurationNotSupported => cases h

end

def Waiting (g : UsbGadget) : Prop :=
  g.monitorFfs.thread = some .starting ∨ g.monitorFfs.thread = some (.watching true)

/-- What is required of a step. A request that starts the monitor gives it exactly the endpoints of
its FFS functions, if and only if the state before it was clean. A check pulls the gadget up as soon
as all of the endpoints in the list exist. -/
def ExactIffClean (b : FunctionBits) (g : UsbGadget) : GadgetEvent → Prop
  | .request r =>
    (setCurrentUsbFunctions b r g).2.started = true →
      ((setCurrentUsbFunctions b r g).1.monitorFfs.endpointList = requestedEndpoints b r.functions ↔
        Clean g)
  | .check present pullUp =>
    (monitorCheck present pullUp g).2.pulledUp = true ↔
      Waiting g ∧ pullUp = true ∧ ∀ endpoint ∈ g.monitorFfs.endpointList, present endpoint = true

theorem monitorCheck_pulledUp_iff (present : String → Bool) (pullUp : Bool) (g : UsbGadget) :
    (monitorCheck present pullUp g).2.pulledUp = true ↔
      Waiting g ∧ pullUp = true ∧ ∀ endpoint ∈ g.monitorFfs.endpointList,
        present endpoint = true := by
  rw [← all_eq_true, Waiting, monitorCheck]
  cases g.monitorFfs.thread with
  | none => simp
  | some thread =>
    cases thread with
    | starting => cases g.monitorFfs.endpointList.all present <;> cases pullUp <;> simp
    | watching writeUdc =>
      cases writeUdc <;> cases g.monitorFfs.endpointList.all present <;> cases pullUp <;> simp

theorem request_exact_iff (r : Request) (g : UsbGadget)
    (h : (setCurrentUsbFunctions b r g).2.started = true) :
    (setCurrentUsbFunctions b r g).1.monitorFfs.endpointList = requestedEndpoints b r.functions ↔
    Clean g := by
  rw [setCurrentUsbFunctions_started h, ← leftover_eq_nil_iff]
  exact append_left_eq_self

/-- Every step of every run. -/
theorem monitor_exact_iff (b : FunctionBits) (events : List GadgetEvent) :
    (gadgetMachine b).Always (ExactIffClean b) UsbGadget.init events := by
  refine Machine.always_of_invariant (I := fun _ => True) ?_ (fun _ _ _ => trivial) events _ trivial
  intro g e _
  cases e with
  | request r => exact request_exact_iff b r g
  | check present pullUp => exact monitorCheck_pulledUp_iff present pullUp g

def singleBits : FunctionBits where
  none := 0
  bit
    | .adb => 0x01
    | .accessory => 0x02
    | .mtp => 0x04
    | .midi => 0x08
    | .ptp => 0x10
    | .rndis => 0x20
    | .audioSource => 0x40
    | .ncm => 0x80
  disjoint := by
    intro f g hne
    cases f <;> cases g <;> first | rfl | exact absurd rfl hne

/-- A request for MTP and ADB in which ADB cannot be linked, and then one for ADB alone. -/
theorem leftover_monitored :
    let history := ((gadgetMachine singleBits).exec UsbGadget.init
      [.request ⟨0x05, (· != .link "ffs.adb")⟩, .request ⟨0x01, fun _ => true⟩,
        .check (· ∈ adbEndpoints) true]).1
    history.map (fun x => (x.2.started, x.2.pulledUp)) =
      [(false, false), (true, false), (false, false)] ∧
    ((gadgetMachine singleBits).exec UsbGadget.init
      [.request ⟨0x05, (· != .link "ffs.adb")⟩,
        .request ⟨0x01, fun _ => true⟩]).2.monitorFfs.endpointList =
        mtpEndpoints ++ adbEndpoints ∧
    requestedEndpoints singleBits 0x01 = adbEndpoints := by
  decide

/-! ## Requests that do not fail halfway -/

/-- If the request is for ADB together with MTP or PTP, its ADB part succeeds. -/
def AdbPartOk (b : FunctionBits) (r : Request) : Prop :=
  b.has r.functions .adb = true → (b.has r.functions .mtp || b.has r.functions .ptp) = true →
    r.ok (.descUse "/dev/usb-ffs/adb/") = true ∧ r.ok (.inotify "/dev/usb-ffs/adb/") = true ∧
      r.ok (.link "ffs.adb") = true

section

open Setup

variable {b : FunctionBits} {r : Request} {g : UsbGadget}

section

variable (hvalid : (validateAndSetVidPid b r).1 = .success)
include hvalid

theorem addOthers_of_ffs
    (hffs : (b.has r.functions .mtp || b.has r.functions .ptp) = true) (s : Setup) :
    addOthers b r s = (.success, s) := by
  have htable : ∀ entry ∈ productIds,
      (mtp ∉ entry.1 ∧ ptp ∉ entry.1) ∨
        ∀ f ∈ [midi, .accessory, .audioSource, .rndis, .ncm], f ∉ entry.1 := by decide
  obtain ⟨entry, hentry, hmask⟩ := supported_mask hvalid
  rcases htable entry hentry with ⟨hmtp, hptp⟩ | hothers
  · rw [hmask, FunctionBits.has_mask_of_not_mem hmtp, FunctionBits.has_mask_of_not_mem hptp] at hffs
    cases hffs
  · have hnone (f : GadgetFunction) (hf : f ∈ [midi, .accessory, .audioSource, .rndis, .ncm])
        (name : String) (s : Setup) : addFunction b r f name s = (.success, s) := by
      rw [addFunction, hmask, FunctionBits.has_mask_of_not_mem (hothers f hf)]
      rfl
    simp [addOthers, andThen, hnone]

omit hvalid in
theorem addMtpOrPtp_failed (b : FunctionBits) (r : Request) (s : Setup) :
    (addMtpOrPtp b r s).1 = .success ∨
      (addMtpOrPtp b r s).2.gadget.monitorFfs.endpointList = s.gadget.monitorFfs.endpointList := by
  rw [addMtpOrPtp]
  split
  · exact addFfsFunction_failed ..
  · split
    · exact addFfsFunction_failed ..
    · exact .inl rfl

omit hvalid in
theorem addAdb_ok {ok : GadgetOp → Bool} (hdesc : ok (.descUse "/dev/usb-ffs/adb/") = true)
    (hinotify : ok (.inotify "/dev/usb-ffs/adb/") = true) (hlink : ok (.link "ffs.adb") = true)
    (s : Setup) : (addAdb ok s).1 = .success := by
  rw [addAdb, addFfsFunction, hdesc, hinotify, linkFunction, hlink]
  rfl

/-- If the ADB part succeeds, a setup that fails leaves nothing in the list. -/
theorem addFunctions_failed (hadb : AdbPartOk b r) :
    (addFunctions b r g).1 = .success ∨
      (addFunctions b r g).2.gadget.monitorFfs.endpointList = g.monitorFfs.endpointList := by
  rw [addFunctions, addGenericAndroidFunctions]
  cases hffs : b.has r.functions .mtp || b.has r.functions .ptp with
  | true =>
    have hfirst := addMtpOrPtp_failed b r ⟨g, false, 0⟩
    generalize addMtpOrPtp b r ⟨g, false, 0⟩ = x at hfirst ⊢
    obtain ⟨status, s⟩ := x
    cases status with
    | success =>
      rw [andThen, addOthers_of_ffs hvalid hffs, andThen]
      split
      next hadb' =>
        obtain ⟨hdesc, hinotify, hlink⟩ := hadb hadb' hffs
        exact .inl (addAdb_ok hdesc hinotify hlink _)
      · exact .inl rfl
    | error => exact hfirst
    | configurationNotSupported => exact hfirst
  | false =>
    obtain ⟨hmtp, hptp⟩ := Bool.or_eq_false_iff.mp hffs
    have hnone : addMtpOrPtp b r ⟨g, false, 0⟩ = (.success, ⟨g, false, 0⟩) := by
      rw [addMtpOrPtp, hmtp, hptp]
      rfl
    have hkeeps := addOthers_keeps b r ⟨g, false, 0⟩
    rw [hnone, andThen]
    generalize addOthers b r ⟨g, false, 0⟩ = x at hkeeps ⊢
    obtain ⟨status, s⟩ := x
    have hlist : s.gadget.monitorFfs.endpointList = g.monitorFfs.endpointList :=
      congrArg MonitorFfs.endpointList hkeeps.1
    cases status with
    | success =>
      split
      · exact (addFfsFunction_failed ..).imp id fun h => h.trans hlist
      · exact .inl rfl
    | error => exact .inr hlist
    | configurationNotSupported => exact .inr hlist

theorem setupFunctions_clean (hadb : AdbPartOk b r)
    (hg : g.monitorFfs.endpointList = []) : Clean (setupFunctions b r g).1 := by
  have hext := addFunctions_extends b r g
  have hfailed := addFunctions_failed (g := g) hvalid hadb
  rw [hg] at hfailed
  rw [setupFunctions]
  generalize addFunctions b r g = x at hext hfailed ⊢
  obtain ⟨status, s⟩ := x
  cases status with
  | success =>
    cases hffs : s.ffsEnabled with
    | true =>
      dsimp only
      rw [hffs]
      exact .inl rfl
    | false =>
      have hnone := hext.ffsEnabled rfl
      rw [hffs, Bool.false_or] at hnone
      obtain ⟨hffs', hadb'⟩ := Bool.or_eq_false_iff.mp hnone.symm
      obtain ⟨hmtp, hptp⟩ := Bool.or_eq_false_iff.mp hffs'
      have hlist := hext.endpointList rfl
      rw [hg, mtpOrPtpEndpoints, adbPartEndpoints, hmtp, hptp, hadb'] at hlist
      dsimp only
      rw [hffs]
      cases r.ok .pullUp <;> exact .inr hlist
  | error => exact .inr (hfailed.resolve_left nofun)
  | configurationNotSupported => exact .inr (hfailed.resolve_left nofun)

end

theorem configure_clean (hadb : AdbPartOk b r) (hg : g.monitorFfs.endpointList = []) :
    Clean (configure b r g).1 := by
  rw [configure]
  split
  · exact .inr hg
  · cases hvalid : (validateAndSetVidPid b r).1 with
    | success => exact setupFunctions_clean hvalid hadb hg
    | error => exact .inr hg
    | configurationNotSupported => exact .inr hg

theorem setCurrentUsbFunctions_clean (hadb : AdbPartOk b r) (hg : Clean g) :
    Clean (setCurrentUsbFunctions b r g).1 := by
  have hdown := tearDownGadget_spec r.ok
    { g with currentUsbFunctions := r.functions, currentUsbFunctionsApplied := false }
  have hleft : leftover
      { g with currentUsbFunctions := r.functions, currentUsbFunctionsApplied := false } = [] :=
    (leftover_eq_nil_iff g).mpr hg
  rw [hleft] at hdown
  rw [setCurrentUsbFunctions]
  generalize tearDownGadget r.ok _ = x at hdown ⊢
  obtain ⟨status, t⟩ := x
  have hfailed (h : t.monitorFfs = g.monitorFfs) : Clean t := by
    rw [Clean, h]
    exact hg
  cases status with
  | success =>
    obtain ⟨hne, -⟩ | ⟨-, -, hlist⟩ := hdown
    · exact absurd rfl hne
    · exact configure_clean hadb hlist
  | error => exact hfailed (hdown.resolve_right fun h => nomatch h.1).2
  | configurationNotSupported => exact hfailed (hdown.resolve_right fun h => nomatch h.1).2

theorem monitorCheck_clean (present : String → Bool) (pullUp : Bool) (hg : Clean g) :
    Clean (monitorCheck present pullUp g).1 := by
  rw [monitorCheck]
  cases hthread : g.monitorFfs.thread with
  | none => exact hg
  | some thread =>
    cases thread with
    | starting =>
      dsimp only
      repeat' split
      all_goals exact .inl rfl
    | watching writeUdc =>
      dsimp only
      repeat' split
      all_goals exact .inl rfl

end

/-- The list that a request gives to the monitor is the one of its FFS functions. -/
def StartsExact (b : FunctionBits) (g : UsbGadget) : GadgetEvent → Prop
  | .request r =>
    (setCurrentUsbFunctions b r g).2.started = true →
      (setCurrentUsbFunctions b r g).1.monitorFfs.endpointList = requestedEndpoints b r.functions
  | .check _ _ => True

theorem starts_exact {events : List GadgetEvent}
    (hevents : ∀ e ∈ events, ∀ r, e = .request r → AdbPartOk b r) :
    (gadgetMachine b).Always (StartsExact b) UsbGadget.init events := by
  have hall : (gadgetMachine b).Always (fun _ e => ∀ r, e = .request r →
      AdbPartOk b r) UsbGadget.init events :=
    Machine.always_of_mem hevents
  refine Machine.Always.of_invariant (I := Clean) ?_ (.inr rfl) hall
  intro g e hg hadb
  cases e with
  | request r =>
    exact ⟨fun hstarted => (request_exact_iff b r g hstarted).mpr hg,
      setCurrentUsbFunctions_clean (hadb r rfl) hg⟩
  | check present pullUp => exact ⟨trivial, monitorCheck_clean present pullUp hg⟩

theorem starts_exact_adb :
    (gadgetMachine singleBits).Always (StartsExact singleBits) UsbGadget.init
      [.request ⟨0x05, (· != .link "ffs.mtp")⟩, .request ⟨0x01, fun _ => true⟩] :=
  starts_exact _ (by simp [AdbPartOk])

end AmlogicHal.Usb
