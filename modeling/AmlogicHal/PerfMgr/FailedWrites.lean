import AmlogicHal.PerfMgr.Config

/-!
# Updates whose write fails

An update that cannot write its value is to be repeated, and until then the node is to stay as it
is.

1. A file node may be told to hold its descriptor, for files that take a value back when they are
   closed. `Update` replaces the descriptor before it writes, so the one that holds the old value is
   closed before there is a new one, and a write that fails leaves none open, or one that holds no
   value. `descriptor_kept_iff` says exactly which updates do no harm.
2. The looper thread sleeps until the first of the timeouts that the updates return. After a failure
   a file node asks for another update in 500 milliseconds, and a property node does not.
   `looper_retries_iff` says when every value that could not be written is tried again in time.
-/

namespace AmlogicHal.PerfMgr

open PerfMgr.Node List

/-! ## Held descriptors -/

inductive NodeCall where
  | addRequest (valueIndex : Nat) (hint : String) (endTime : Int)
  | removeRequest (hint : String)
  | advance (ns : Nat)
  | update (openOk writeOk : Bool)
deriving DecidableEq, Repr

/-- A descriptor is closed, or a value is written through it. -/
inductive FdEvent where
  | closed (fd : Nat)
  | wrote (fd : Nat)
deriving DecidableEq, Repr

/-- The descriptor is closed before any value is written. -/
def ClosedEarly (d : Nat) : List FdEvent → Prop
  | [] => False
  | .closed fd :: es => fd = d ∨ ClosedEarly d es
  | .wrote _ :: _ => False

/-- A file node with a record of its descriptors. They are named by the order in which they are
opened, because the system uses the numbers of closed descriptors again. -/
structure HeldNode where
  node : Node
  now : Int
  opened : Nat
  /-- The descriptor of the last successful write, if that was not of the default value. -/
  writer : Option Nat

namespace HeldNode

/-- What `open` and `WriteStringToFd` answer. -/
def io (openOk writeOk : Bool) (s : HeldNode) : NodeIo :=
  ⟨if openOk then some s.opened else none, writeOk, true⟩

def update (openOk writeOk : Bool) (s : HeldNode) : HeldNode :=
  let u := s.node.update s.now (s.io openOk writeOk)
  { s with
    node := u.node
    opened := if s.node.needsWrite s.now && openOk then s.opened + 1 else s.opened
    writer :=
      if u.written = none then s.writer
      else if u.node.currentValIndex = u.node.defaultValIndex then none
      else (s.io openOk writeOk).openFd }

/-- What an update does with its descriptors, in order. `fd_.reset` closes the old one when `open`
has returned; the new one is closed again behind the default value. -/
def events (openOk writeOk : Bool) (s : HeldNode) : List FdEvent :=
  if s.node.needsWrite s.now then
    s.node.fd.toList.map .closed ++
      if openOk && writeOk then
        .wrote s.opened ::
          if s.node.valueIndex s.now = s.node.defaultValIndex then [.closed s.opened] else []
      else []
  else []

def step (s : HeldNode) : NodeCall → HeldNode
  | .addRequest valueIndex hint endTime =>
    { s with node := (s.node.addRequest valueIndex hint endTime).1 }
  | .removeRequest hint => { s with node := s.node.removeRequest hint }
  | .advance ns => { s with now := s.now + ns }
  | .update openOk writeOk => s.update openOk writeOk

/-- A node as its constructor leaves it, which is told to hold its descriptor. -/
def start (name path : String) (values : List String) (defaultIndex : Nat) (reset : Bool)
    (now : Int) : HeldNode :=
  ⟨.ofConfig name path (.file true) values defaultIndex reset, now, 0, none⟩

/-- The descriptor is open exactly when the current value is not the default one, and it is the one
that wrote this value. -/
structure Kept (s : HeldNode) : Prop where
  isOpen : s.node.fd ≠ none ↔ s.node.currentValIndex ≠ s.node.defaultValIndex
  writer : ∀ d, s.writer = some d → s.node.fd = some d

end HeldNode

def heldMachine : Machine HeldNode NodeCall Unit := ⟨fun s e => (s.step e, ())⟩

/-- The descriptor is as it should be after the update, and during it the one of the last write
stays open until a value is written. -/
def KeepsDescriptor (s : HeldNode) : NodeCall → Prop
  | .update openOk writeOk => (s.update openOk writeOk).Kept ∧
      ∀ d, s.writer = some d → ¬ ClosedEarly d (s.events openOk writeOk)
  | _ => True

/-- A value is only written while the default one is current, and if that fails, the file could not
be opened. -/
def WritesFromDefault (s : HeldNode) : NodeCall → Prop
  | .update openOk writeOk => s.node.needsWrite s.now = true →
      s.node.currentValIndex = s.node.defaultValIndex ∧ (openOk = true → writeOk = true)
  | _ => True

structure HeldInv (s : HeldNode) : Prop where
  kind : s.node.kind = .file true
  kept : s.Kept
  written : s.writer ≠ none ↔ s.node.currentValIndex ≠ s.node.defaultValIndex

section Held

variable {s : HeldNode} {openOk writeOk : Bool}

section

variable (hkind : s.node.kind = .file true)
include hkind

theorem HeldNode.update_idle
    (hneeds : ¬ s.node.needsWrite s.now = true) :
    s.update openOk writeOk = { s with node := s.node.scanned s.now } := by
  simp [update, Node.update, hkind, Node.fileUpdate, hneeds]

variable (hneeds : s.node.needsWrite s.now = true)
include hneeds

theorem HeldNode.update_ok : s.update true true = { s with
        node := { s.node.scanned s.now with
          fd := if s.node.valueIndex s.now = s.node.defaultValIndex then none else some s.opened
          currentValIndex := s.node.valueIndex s.now
          resetOnInit := false }
        opened := s.opened + 1
        writer := if s.node.valueIndex s.now = s.node.defaultValIndex then none
          else some s.opened } := by
  simp [update, io, Node.update, hkind, Node.fileUpdate, hneeds, Node.scanned]

theorem HeldNode.update_failed (hfail : ¬ (openOk = true ∧ writeOk = true)) :
    s.update openOk writeOk = { s with
        node := { s.node.scanned s.now with fd := if openOk then some s.opened else none }
        opened := if openOk then s.opened + 1 else s.opened } := by
  have hno : (s.io openOk writeOk).openFd = none ∨ (s.io openOk writeOk).writeOk = false := by
    cases openOk with
    | false => exact .inl rfl
    | true => exact .inr (by simpa [io] using hfail)
  simp [update, Node.update, hkind, Node.fileUpdate, hneeds, hno]
  rfl

end

variable (h : HeldInv s)
include h

theorem HeldInv.update_ok (hneeds : s.node.needsWrite s.now = true) :
    HeldInv (s.update true true) := by
  rw [HeldNode.update_ok h.kind hneeds]
  by_cases hdef : s.node.valueIndex s.now = s.node.defaultValIndex <;>
    exact ⟨h.kind, ⟨by simp [scanned], by simp⟩, by simp [scanned]⟩

theorem HeldInv.writer_none (hdef : s.node.currentValIndex = s.node.defaultValIndex) :
    s.writer = none := by
  by_contra hwriter
  exact h.written.mp hwriter hdef

/-- If the default value is current, there is no descriptor, and the update is not to leave one. -/
theorem HeldInv.update_failed_iff (hneeds : s.node.needsWrite s.now = true)
    (hdef : s.node.currentValIndex = s.node.defaultValIndex)
    (hfail : ¬ (openOk = true ∧ writeOk = true)) : (s.update openOk writeOk).Kept ↔
    openOk = false := by
  rw [HeldNode.update_failed h.kind hneeds hfail]
  constructor
  · rintro ⟨hopen, -⟩
    cases openOk with
    | false => rfl
    | true => exact absurd hdef (hopen.mp (by simp))
  · rintro rfl
    exact ⟨by simp [scanned, hdef], by simp [h.writer_none hdef]⟩

theorem HeldInv.frame {n : Node} {now : Int} (hkind : n.kind = s.node.kind)
    (hfd : n.fd = s.node.fd) (hcur : n.currentValIndex = s.node.currentValIndex)
    (hdef : n.defaultValIndex = s.node.defaultValIndex) :
    HeldInv { s with node := n, now := now } :=
  ⟨hkind.trans h.kind,
    ⟨by rw [hfd, hcur, hdef]; exact h.kept.isOpen, fun d hd => hfd.trans (h.kept.writer d hd)⟩,
    by rw [hcur, hdef]; exact h.written⟩

theorem keepsDescriptor_iff (e : NodeCall) : KeepsDescriptor s e ↔ WritesFromDefault s e := by
  cases e with
  | addRequest | removeRequest | advance => exact Iff.rfl
  | update openOk writeOk =>
    unfold KeepsDescriptor WritesFromDefault HeldNode.events
    dsimp only
    by_cases hneeds : s.node.needsWrite s.now = true
    · rw [if_pos hneeds, forall_prop_of_true hneeds]
      by_cases hdef : s.node.currentValIndex = s.node.defaultValIndex
      · simp only [h.writer_none hdef, reduceCtorEq, false_imp_iff, implies_true, and_true, hdef,
          true_and]
        by_cases hok : openOk = true ∧ writeOk = true
        · obtain ⟨rfl, rfl⟩ := hok
          exact iff_of_true (h.update_ok hneeds).kept fun _ => rfl
        · rw [h.update_failed_iff hneeds hdef hok, ← Bool.not_eq_true]
          exact ⟨fun hno hopen => absurd hopen hno, fun himp hopen => hok ⟨hopen, himp hopen⟩⟩
      · -- the value that is current was written through a descriptor that is closed first
        obtain ⟨d, hd⟩ := Option.ne_none_iff_exists'.mp (h.written.mpr hdef)
        refine iff_of_false (fun hkeeps => hkeeps.2 d hd ?_) fun hwrites => hdef hwrites.1
        rw [h.kept.writer d hd]
        exact .inl rfl
    · have hsame : HeldInv { s with node := s.node.scanned s.now } := h.frame rfl rfl rfl rfl
      rw [HeldNode.update_idle h.kind hneeds, if_neg hneeds]
      exact iff_of_true ⟨hsame.kept, fun _ _ => id⟩ fun hyes => absurd hyes hneeds

theorem HeldInv.step {e : NodeCall} (he : WritesFromDefault s e) : HeldInv (s.step e) := by
  cases e with
  | addRequest valueIndex hint endTime =>
    refine h.frame ?_ ?_ ?_ ?_ <;>
      · unfold addRequest
        split <;> rfl
  | removeRequest hint => exact h.frame rfl rfl rfl rfl
  | advance ns => exact h.frame rfl rfl rfl rfl
  | update openOk writeOk =>
    change HeldInv (s.update openOk writeOk)
    by_cases hneeds : s.node.needsWrite s.now = true
    · obtain ⟨hdef, hopen⟩ := he hneeds
      cases openOk with
      | true =>
        obtain rfl := hopen rfl
        exact h.update_ok hneeds
      | false =>
        have hfail : ¬ (false = true ∧ writeOk = true) := by simp
        have hkept := (h.update_failed_iff hneeds hdef hfail).mpr rfl
        rw [HeldNode.update_failed h.kind hneeds hfail] at hkept ⊢
        exact ⟨h.kind, hkept, h.written⟩
    · rw [HeldNode.update_idle h.kind hneeds]
      exact h.frame rfl rfl rfl rfl

end Held

/-- After every update the descriptor is open exactly when the current value is not the default one,
it is the one that wrote that value, and it was not closed before another value was written. -/
theorem descriptor_kept_iff (name path : String) (values : List String) (defaultIndex : Nat)
    (reset : Bool) (now : Int) (es : List NodeCall) :
    heldMachine.Always KeepsDescriptor (.start name path values defaultIndex reset now) es ↔
      heldMachine.Always WritesFromDefault (.start name path values defaultIndex reset now) es :=
  Machine.always_congr (I := HeldInv) (fun _ e h => keepsDescriptor_iff h e)
    (fun _ e h hkeeps => h.step ((keepsDescriptor_iff h e).mp hkeeps)) es _
    ⟨rfl, ⟨by simp [HeldNode.start, ofConfig], by simp [HeldNode.start]⟩,
      by simp [HeldNode.start, ofConfig]⟩

/-- A value is requested and written, the request is given up, and the file cannot be opened: the
descriptor is gone while the value is still the current one. -/
theorem failedOpen_closesDescriptor :
    let start := HeldNode.start "dma" "/dev/cpu_dma_latency" ["0", "100"] 1 false 0
    let es : List NodeCall := [.addRequest 0 "LAUNCH" timeMax, .update true true,
      .removeRequest "LAUNCH", .update false true]
    let s := (heldMachine.exec start es).2
    s.writer = some 0 ∧ s.node.fd = none ∧ s.node.currentValIndex ≠ s.node.defaultValIndex ∧
      ¬ heldMachine.Always KeepsDescriptor start es := by
  intro start es s
  have hfd : s.node.fd = none := by decide +kernel
  have hcur : s.node.currentValIndex ≠ s.node.defaultValIndex := by decide +kernel
  refine ⟨by decide +kernel, hfd, hcur, fun hall => ?_⟩
  have hkept : s.Kept := hall.2.2.2.1.1
  exact hkept.isOpen.mpr hcur hfd

/-- The default value is written with success, and the descriptor of the old one is closed before
that. -/
theorem newValue_closesFirst :
    let start := HeldNode.start "dma" "/dev/cpu_dma_latency" ["0", "100"] 1 false 0
    let s := (heldMachine.exec start [.addRequest 0 "LAUNCH" timeMax, .update true true,
      .removeRequest "LAUNCH"]).2
    s.writer = some 0 ∧ s.events true true = [.closed 0, .wrote 1, .closed 1] := by
  decide +kernel

/-! ## The looper thread -/

/-- `NodeLooperThread`: its nodes, and the time. -/
structure Looper where
  nodes : List Node
  now : Int

/-- One call of `Update` in a pass over the nodes: the node before it, when it happens, and what the
system answers. -/
structure Visit where
  node : Node
  time : Int
  io : NodeIo

def Visit.updated (v : Visit) : Updated := v.node.update v.time v.io

/-- The update leaves another value than the one that wins. -/
def Visit.LeftBehind (v : Visit) : Prop :=
  v.updated.node.currentValIndex ≠ v.node.valueIndex v.time

/-- One pass over the nodes. For every node there is the time that has gone by since the loop began,
and the answers of the system. -/
def visits (now : Int) (answers : Nat → Nat × NodeIo) (nodes : List Node) : List Visit :=
  nodes.mapIdx fun i n => ⟨n, now + (answers i).1, (answers i).2⟩

def afterVisits (vs : List Visit) : List Node := vs.map fun v => v.updated.node

/-- The shortest timeout of a pass; `kMaxUpdatePeriod` is the longest duration there is. -/
def timeoutMs (vs : List Visit) : Int :=
  vs.foldl (fun t v => min v.updated.expireTime t) msMax

def sleepTimeoutNs (timeoutMs : Int) : Int :=
  if timeoutMs < (timeMax.tdiv 1000).tdiv 1000 then timeoutMs * 1000 * 1000 else timeMax

namespace Looper

variable (first second : Nat → Nat × NodeIo) (s : Looper)

/-- The first pass of `threadLoop`, whose timeouts are not looked at. -/
def firstVisits : List Visit := visits s.now first s.nodes

def secondVisits : List Visit := visits s.now second (afterVisits (s.firstVisits first))

/-- How long `threadLoop` sleeps. -/
def sleep : Int := sleepTimeoutNs (timeoutMs (s.secondVisits first second))

end Looper

inductive LooperCall where
  | addRequest (k valueIndex : Nat) (hint : String) (endTime : Int)
  | removeRequest (k : Nat) (hint : String)
  | advance (ns : Nat)
  | threadLoop (first second : Nat → Nat × NodeIo)

def Looper.step (s : Looper) : LooperCall → Looper
  | .addRequest k valueIndex hint endTime =>
    { s with nodes := s.nodes.modify k fun n => (n.addRequest valueIndex hint endTime).1 }
  | .removeRequest k hint => { s with nodes := s.nodes.modify k fun n => n.removeRequest hint }
  | .advance ns => { s with now := s.now + ns }
  | .threadLoop first second => { s with nodes := afterVisits (s.secondVisits first second) }

def looperMachine : Machine Looper LooperCall Unit := ⟨fun s e => (s.step e, ())⟩

/-- In 500 milliseconds or sooner. -/
def retryMs : Int := 500

/-- Every update that leaves another value than the one that wins asks for the next one soon, and
the thread does not sleep longer than that. -/
def RetriesInTime (s : Looper) : LooperCall → Prop
  | .threadLoop first second =>
    (∀ v ∈ s.firstVisits first, v.LeftBehind → v.updated.expireTime ≤ retryMs) ∧
      ∀ v ∈ s.secondVisits first second, v.LeftBehind →
        v.updated.expireTime ≤ retryMs ∧ s.sleep first second ≤ retryMs * nsPerMs
  | _ => True

/-- A property that cannot be set to another value is one for which a request of that value ends
soon. -/
def Visit.FailsShortly (v : Visit) : Prop :=
  v.node.kind = .property → v.io.setOk = false → v.node.valueIndex v.time ≠ v.node.currentValIndex →
    ∃ hint e, v.node.requests v.time (v.node.valueIndex v.time) hint = some e ∧
      durationMs (e - v.time) ≤ retryMs

def FailsShortly (s : Looper) : LooperCall → Prop
  | .threadLoop first second =>
    ∀ v ∈ s.firstVisits first ++ s.secondVisits first second, v.FailsShortly
  | _ => True

/-! ### One update -/

theorem fileUpdate_retries (holdFd : Bool) {now : Int} {io : NodeIo} {n : Node}
    (h : (n.fileUpdate holdFd now io).node.currentValIndex ≠ n.valueIndex now) :
    (n.fileUpdate holdFd now io).expireTime ≤ retryMs := by
  unfold fileUpdate at *
  split at h
  · next hneeds =>
    rw [if_pos hneeds]
    split at h
    · next hfail =>
      rw [if_pos hfail]
      exact min_le_right _ _
    · exact absurd rfl h
  · next hneeds => exact absurd (valueIndex_of_not_needsWrite hneeds) h

/-- A property node is left behind only by a failure, and then returns the timeout of its group. -/
theorem propertyUpdate_retries_iff {now : Int} {io : NodeIo} {n : Node} :
    ((n.propertyUpdate now io).node.currentValIndex ≠ n.valueIndex now →
        (n.propertyUpdate now io).expireTime ≤ retryMs) ↔
      (io.setOk = false → n.valueIndex now ≠ n.currentValIndex → n.expireTime now ≤ retryMs) := by
  unfold propertyUpdate
  split
  · split
    · next hfail => exact ⟨fun h _ hne => h (Ne.symm hne), fun h hne => h hfail (Ne.symm hne)⟩
    · next hok => exact iff_of_true (fun hne => absurd rfl hne) fun hfail => absurd hfail hok
  · next hneeds =>
    have hsame := valueIndex_of_not_needsWrite hneeds
    exact iff_of_true (fun hne => absurd hsame hne) fun _ hne => absurd hsame.symm hne

theorem expireTime_le_iff (now : Int) (n : Node) : n.expireTime now ≤ retryMs ↔
    ∃ hint e, n.requests now (n.valueIndex now) hint = some e ∧ durationMs (e - now) ≤ retryMs := by
  have htime := n.expireTime_spec now
  constructor
  · intro hle
    rcases htime.attained with hmax | ⟨hint, e, he, heq⟩
    · exact absurd (hmax ▸ hle) (by decide)
    · exact ⟨hint, e, he, heq ▸ hle⟩
  · rintro ⟨hint, e, he, hle⟩
    exact (htime.le hint e he).trans hle

theorem Visit.retries_iff (v : Visit) :
    (v.LeftBehind → v.updated.expireTime ≤ retryMs) ↔ v.FailsShortly := by
  unfold LeftBehind FailsShortly updated update
  simp only [← expireTime_le_iff]
  cases hkind : v.node.kind with
  | file holdFd => exact iff_of_true (fileUpdate_retries holdFd) fun hkind => by cases hkind
  | property => exact propertyUpdate_retries_iff.trans ⟨fun h _ => h, fun h => h rfl⟩

/-! ### The sleep -/

theorem timeoutMs_le {vs : List Visit} {v : Visit} (hv : v ∈ vs) :
    timeoutMs vs ≤ v.updated.expireTime :=
  (Deadlines.foldl_min_le (fun v : Visit => v.updated.expireTime) vs msMax).2 v hv

theorem sleepTimeoutNs_le {t : Int} (h : t ≤ retryMs) : sleepTimeoutNs t ≤ retryMs * nsPerMs := by
  have hlt : t < (timeMax.tdiv 1000).tdiv 1000 := lt_of_le_of_lt h (by decide)
  rw [sleepTimeoutNs, if_pos hlt]
  unfold retryMs nsPerMs at *
  omega

theorem retriesInTime_iff (s : Looper) (e : LooperCall) : RetriesInTime s e ↔ FailsShortly s e := by
  cases e with
  | addRequest | removeRequest | advance => exact Iff.rfl
  | threadLoop first second =>
    unfold RetriesInTime FailsShortly
    simp only [forall_mem_append, ← Visit.retries_iff]
    refine and_congr_right fun _ => forall₂_congr fun v hv => forall_congr' fun hleft => ?_
    exact and_iff_left_of_imp fun hsoon => sleepTimeoutNs_le ((timeoutMs_le hv).trans hsoon)

/-! ### Runs -/

theorem Visit.updated_kind (v : Visit) : v.updated.node.kind = v.node.kind :=
  frame_kind (v.node.update_spec v.time v.io).1

def FilesOnly (nodes : List Node) : Prop := ∀ n ∈ nodes, n.kind ≠ .property

theorem FilesOnly.visits {nodes : List Node} (h : FilesOnly nodes) (now : Int)
    (answers : Nat → Nat × NodeIo) :
    (∀ v ∈ visits now answers nodes, v.node.kind ≠ .property) ∧
      FilesOnly (afterVisits (PerfMgr.visits now answers nodes)) := by
  have hall : ∀ v ∈ PerfMgr.visits now answers nodes, v.node.kind ≠ .property := by
    intro v hv
    obtain ⟨i, hi, rfl⟩ := mem_mapIdx.mp hv
    exact h _ (getElem_mem hi)
  refine ⟨hall, fun n hn => ?_⟩
  obtain ⟨v, hv, rfl⟩ := mem_map.mp hn
  rw [v.updated_kind]
  exact hall v hv

theorem FilesOnly.modify {nodes : List Node} (h : FilesOnly nodes) (k : Nat) {f : Node → Node}
    (hf : ∀ n, (f n).frame = n.frame) : FilesOnly (nodes.modify k f) := by
  intro n hn
  obtain ⟨i, hi⟩ := mem_iff_getElem?.mp hn
  rw [getElem?_modify] at hi
  obtain ⟨m, hm, rfl⟩ := Option.map_eq_some_iff.mp hi
  split
  · rw [frame_kind (hf m)]
    exact h m (mem_of_getElem? hm)
  · exact h m (mem_of_getElem? hm)

theorem FilesOnly.step {s : Looper} (h : FilesOnly s.nodes) (e : LooperCall) :
    FailsShortly s e ∧ FilesOnly (s.step e).nodes := by
  cases e with
  | addRequest k valueIndex hint endTime =>
    exact ⟨trivial, h.modify k fun n => n.addRequest_frame valueIndex hint endTime⟩
  | removeRequest k hint => exact ⟨trivial, h.modify k fun n => n.removeRequest_frame hint⟩
  | advance ns => exact ⟨trivial, h⟩
  | threadLoop first second =>
    obtain ⟨hfirst, hafter⟩ := h.visits s.now first
    obtain ⟨hsecond, hafter'⟩ := hafter.visits s.now second
    refine ⟨forall_mem_append.mpr ⟨fun v hv hprop => ?_, fun v hv hprop => ?_⟩, hafter'⟩
    · exact absurd hprop (hfirst v hv)
    · exact absurd hprop (hsecond v hv)

/-- In time: every update that leaves another value than the one that wins returns at most 500
milliseconds, and the thread sleeps no longer. This is so exactly if every property that could not
be set to another value has a request that ends in that time. File nodes alone are always tried
again in time. -/
theorem looper_retries_iff (s : Looper) (es : List LooperCall) :
    (looperMachine.Always RetriesInTime s es ↔ looperMachine.Always FailsShortly s es) ∧
      (FilesOnly s.nodes → looperMachine.Always RetriesInTime s es) := by
  have hiff : looperMachine.Always RetriesInTime s es ↔ looperMachine.Always FailsShortly s es :=
    Machine.always_congr (I := fun _ => True) (fun s e _ => retriesInTime_iff s e)
      (fun _ _ _ _ => trivial) es s trivial
  refine ⟨hiff, fun hfiles => hiff.mpr ?_⟩
  exact Machine.always_of_invariant (I := fun s => FilesOnly s.nodes) (fun _ e h => (h.step e).1)
    (fun _ e h => (h.step e).2) es s hfiles

def twoValues (kind : NodeKind) : Node := .ofConfig "n" "/n" kind ["high", "low"] 1 false

def noWrites : NodeIo := ⟨none, false, false⟩

/-- A hint asks for the first value for ever, and it cannot be written. The file node is tried again
in half a second, the property node not before some other call wakes the thread up. -/
theorem failedProperty_sleepsForever :
    let request : LooperCall := .addRequest 0 0 "LAUNCH" timeMax
    let file := (looperMachine.exec ⟨[twoValues (.file false)], 0⟩ [request]).2
    let property := (looperMachine.exec ⟨[twoValues .property], 0⟩ [request]).2
    file.sleep (fun _ => (0, noWrites)) (fun _ => (0, noWrites)) = 500000000 ∧
      property.sleep (fun _ => (0, noWrites)) (fun _ => (0, noWrites)) = timeMax ∧
      ¬ looperMachine.Always RetriesInTime ⟨[twoValues .property], 0⟩
        [request, .threadLoop (fun _ => (0, noWrites)) (fun _ => (0, noWrites))] := by
  intro request file property
  refine ⟨by decide +kernel, by decide +kernel, fun hall => ?_⟩
  have hloop := hall.2.1.2
  have hvisit : ∀ v ∈ property.secondVisits (fun _ => (0, noWrites)) (fun _ => (0, noWrites)),
      v.updated.node.currentValIndex ≠ v.node.valueIndex v.time ∧
        v.updated.expireTime = timeMax.tdiv 1000000 := by
    decide +kernel
  have hlen : 0 <
      (property.secondVisits (fun _ => (0, noWrites)) (fun _ => (0, noWrites))).length := by
    decide +kernel
  obtain ⟨v, hv⟩ := exists_mem_of_length_pos hlen
  have hsoon := (hloop v hv (hvisit v hv).1).1
  rw [(hvisit v hv).2] at hsoon
  revert hsoon
  decide

end AmlogicHal.PerfMgr
