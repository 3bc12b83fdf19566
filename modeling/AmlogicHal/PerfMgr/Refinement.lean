import AmlogicHal.PerfMgr.HintManager

/-!
# What the nodes are for

The specification of the performance manager knows only the time, and for every node, value and hint
the end of the hint's request: the latest end that was requested since the request was last
cancelled or expired. A request disappears at the moment in which it has less than a millisecond
left.

* `perf_refines`: after every run, the live requests of the nodes are those of the specification,
  although the nodes drop expired requests late, and only in the groups that a scan comes to.
* `update_selects`: hence an update gives the node the first value that is requested, or the default
  one, and returns no later than the first of its requests ends.
-/

namespace AmlogicHal.PerfMgr

open HintManager

/-! ## The specification -/

/-- The ends of the requests, by node, value and hint. -/
structure HintSpec where
  now : Int
  ends : Nat → Nat → String → Option Int

namespace HintSpec

/-- The request of an action: the later end counts if there is one already. -/
def request (hint : String) (a : NodeAction) (σ : HintSpec) : HintSpec :=
  { σ with
    ends := fun k v h =>
      if k = a.nodeIndex ∧ v = a.valueIndex ∧ h = hint then
        extended σ.now (endTime σ.now a.timeoutMs) (σ.ends k v h)
      else
        σ.ends k v h }

/-- The hint gives up all its requests on the node of an action. -/
def cancel (hint : String) (a : NodeAction) (σ : HintSpec) : HintSpec :=
  { σ with ends := fun k v h => if k = a.nodeIndex ∧ h = hint then none else σ.ends k v h }

def advance (ns : Nat) (σ : HintSpec) : HintSpec where
  now := σ.now + ns
  ends k v h := (σ.ends k v h).filter (live (σ.now + ns))

end HintSpec

/-- The actions with their timeouts overridden, and without those for values that do not exist. -/
def HintManager.requested (m : HintManager) (hint : String) (timeoutOverride : Option Int) :
    List NodeAction :=
  ((m.accepted hint).map fun a => { a with timeoutMs := timeoutOverride.getD a.timeoutMs }).filter
    m.hasValue

/-- A step of the specification. Of the manager it reads only what never changes. -/
def specStep (m : HintManager) (σ : HintSpec) : PerfCall → HintSpec
  | .doHint hint timeoutOverride =>
    (m.requested hint timeoutOverride).foldl (fun σ a => σ.request hint a) σ
  | .endHint hint => (m.accepted hint).foldl (fun σ a => σ.cancel hint a) σ
  | .advance ns => σ.advance ns
  | .update _ _ => σ

def specMachine (m : HintManager) : Machine HintSpec PerfCall Unit :=
  ⟨fun σ e => (specStep m σ e, ())⟩

def HintSpec.start (now : Int) : HintSpec := ⟨now, fun _ _ _ => none⟩

/-! ## The nodes refine it -/

/-- The live requests of the nodes are those of the specification. -/
structure Refines (m₀ : HintManager) (s : PerfState) (σ : HintSpec) : Prop where
  frame : s.manager.frame = m₀.frame
  now : s.now = σ.now
  ends : ∀ k v hint, nodeRequests s.now s.manager.nodes k v hint = σ.ends k v hint

theorem requestNode_requests (now : Int) (hint : String) (a : NodeAction) (m : HintManager)
    (k v : Nat) (hint' : String) :
    nodeRequests now (requestNode now hint a m.nodes).1 k v hint' =
      if m.hasValue a = true ∧ k = a.nodeIndex ∧ v = a.valueIndex ∧ hint' = hint then
        extended now (endTime now a.timeoutMs) (nodeRequests now m.nodes k v hint')
      else
        nodeRequests now m.nodes k v hint' := by
  unfold requestNode hasValue
  cases hn : m.nodes[a.nodeIndex]? with
  | none => simp
  | some n =>
    rw [nodeRequests_set hn]
    by_cases hk : k = a.nodeIndex
    · subst hk
      have hreq : nodeRequests now m.nodes a.nodeIndex v hint' = n.requests now v hint' := by
        simp [nodeRequests, hn]
      rw [if_pos rfl, Node.addRequest_requests, hreq]
      refine if_congr ?_ rfl rfl
      simp only [decide_eq_true_eq, true_and]
      tauto
    · simp [hk]

theorem cancelNode_requests (now : Int) (hint : String) (a : NodeAction) (nodes : List Node)
    (k v : Nat) (hint' : String) :
    nodeRequests now (cancelNode hint a nodes).1 k v hint' =
      if k = a.nodeIndex ∧ hint' = hint then none else nodeRequests now nodes k v hint' := by
  unfold cancelNode
  cases hn : nodes[a.nodeIndex]? with
  | none =>
    dsimp only
    split
    · next h => simp [nodeRequests, h.1, hn]
    · rfl
  | some n =>
    rw [nodeRequests_set hn]
    by_cases hk : k = a.nodeIndex
    · subst hk
      simp [Node.removeRequest_requests, nodeRequests, hn]
    · simp [hk]

section Steps

variable {m₀ : HintManager} {s : PerfState} {σ : HintSpec}

section

variable (h : Refines m₀ s σ)
include h

variable (hint : String)

theorem Refines.accepted : s.manager.accepted hint = m₀.accepted hint := accepted_congr h.frame hint

theorem Refines.request (a : NodeAction) :
    Refines m₀
      { s with manager := s.manager.setNodes (requestNode s.now hint a s.manager.nodes).1 }
      (if m₀.hasValue a = true then σ.request hint a else σ) := by
  have hvalue := HintManager.hasValue_congr h.frame a
  refine ⟨?_, ?_, fun k v hint' => ?_⟩
  · rw [← h.frame]
    simp [HintManager.frame, HintManager.setNodes, requestNode_frame]
  · split <;> exact h.now
  · rw [HintManager.setNodes, requestNode_requests, hvalue, h.ends, h.now]
    by_cases hv : m₀.hasValue a = true
    · simp [hv, HintSpec.request]
    · simp [hv]

theorem Refines.cancel (a : NodeAction) :
    Refines m₀ { s with manager := s.manager.setNodes (cancelNode hint a s.manager.nodes).1 }
      (σ.cancel hint a) := by
  refine ⟨?_, h.now, fun k v hint' => ?_⟩
  · rw [← h.frame]
    simp [HintManager.frame, HintManager.setNodes, cancelNode_frame]
  · rw [HintManager.setNodes, cancelNode_requests, h.ends]
    rfl

theorem Refines.advance (ns : Nat) : Refines m₀ { s with now := s.now + ns } (σ.advance ns) := by
  refine ⟨h.frame, by simp [HintSpec.advance, h.now], fun k v hint => ?_⟩
  have hends := h.ends k v hint
  simp only [HintSpec.advance, ← hends, ← h.now, nodeRequests]
  cases s.manager.nodes[k]? with
  | none => rfl
  | some n => exact n.requests_later (by omega) v hint

theorem Refines.update {k : Nat} {n : Node} (hn : s.manager.nodes[k]? = some n) (io : NodeIo) :
    Refines m₀ { s with
      manager := s.manager.setNodes (s.manager.nodes.set k (n.update s.now io).node) } σ := by
  obtain ⟨hframe, hreq, -, -⟩ := n.update_spec s.now io
  refine ⟨?_, h.now, fun k' v hint => ?_⟩
  · rw [← h.frame]
    simp [HintManager.frame, HintManager.setNodes, frame_set hn hframe]
  · rw [HintManager.setNodes, nodeRequests_set hn, hreq, ← h.ends]
    split
    · next hk => simp [nodeRequests, hk, hn]
    · rfl

theorem refines_step (e : PerfCall) :
    Refines m₀ (perfMachine.step s e).1 ((specMachine m₀).step σ e).1 := by
  cases e with
  | doHint hint timeoutOverride =>
    simp only [perfMachine, perfStep, specMachine, specStep, requested, doHint_nodes, h.accepted,
      List.foldl_filter]
    exact List.foldl_rel (r := fun nodes σ => Refines m₀ ⟨s.manager.setNodes nodes, s.now⟩ σ) h
      fun a _ nodes σ hr => hr.request hint a
  | endHint hint =>
    simp only [perfMachine, perfStep, specMachine, specStep, endHint_nodes, h.accepted]
    exact List.foldl_rel (r := fun nodes σ => Refines m₀ ⟨s.manager.setNodes nodes, s.now⟩ σ) h
      fun a _ nodes σ hr => hr.cancel hint a
  | advance ns => exact h.advance ns
  | update k io =>
    simp only [perfMachine, perfStep, specMachine, specStep]
    split
    · exact h
    · next n hn => exact h.update hn io

end

end Steps

def HintManager.Fresh (m : HintManager) : Prop :=
  ∀ n ∈ m.nodes, ∀ g ∈ n.reqSorted, g.requestMap = ∅

theorem refines_start {m : HintManager} (hm : m.Fresh) (now : Int) :
    Refines m ⟨m, now⟩ (.start now) := by
  refine ⟨rfl, rfl, fun k v hint => ?_⟩
  simp only [nodeRequests, Node.requests, groupRequests, HintSpec.start]
  cases hn : m.nodes[k]? with
  | none => rfl
  | some n =>
    cases hg : n.reqSorted[v]? with
    | none => simp [hg]
    | some g =>
      have hempty := hm n (List.mem_of_getElem? hn) g (List.mem_of_getElem? hg)
      simp [hg, RequestGroup.requests, hempty]

theorem perf_refines {m : HintManager} (hm : m.Fresh) (now : Int) (es : List PerfCall) :
    Refines m (perfMachine.exec ⟨m, now⟩ es).2 ((specMachine m).exec (.start now) es).2 :=
  Machine.exec_simulation (R := Refines m) (fun _ _ e h => refines_step h e) es
    (refines_start hm now)

/-! ## Updates -/

/-- Some hint requests the value `v` of the node `k` for another millisecond at least. -/
def HintSpec.Requested (σ : HintSpec) (k v : Nat) : Prop :=
  ∃ hint e, σ.ends k v hint = some e ∧ nsPerMs ≤ e - σ.now

section Update

variable {m : HintManager} {s : PerfState} {σ : HintSpec} {k : Nat} {n : Node}

section

variable (h : Refines m s σ)
include h

variable (hn : s.manager.nodes[k]? = some n)
include hn

theorem Refines.requests : n.requests s.now = σ.ends k := by
  funext v hint
  rw [← h.ends, nodeRequests, hn, Option.bind_some]

theorem Refines.wanted_iff (v : Nat) : n.Wanted s.now v ↔ σ.Requested k v := by
  constructor
  · rintro ⟨hint, e, he⟩
    refine ⟨hint, e, h.requests hn ▸ he, ?_⟩
    rw [← h.now]
    exact live_iff.mp (Node.requests_live he)
  · rintro ⟨hint, e, he, -⟩
    exact ⟨hint, e, by rw [h.requests hn, he]⟩

theorem Refines.valueIndex : FirstOr (σ.Requested k) n.defaultValIndex (n.valueIndex s.now) := by
  have hfirst := n.valueIndex_first s.now
  rwa [show n.Wanted s.now = σ.Requested k from funext fun v =>
    propext (h.wanted_iff hn v)] at hfirst

theorem Refines.expireTime :
    IsExpireTime s.now (σ.ends k (n.valueIndex s.now)) (n.expireTime s.now) :=
  h.requests hn ▸ n.expireTime_spec s.now

end

theorem step_update (hn : s.manager.nodes[k]? = some n) (io : NodeIo) :
    (perfMachine.step s (.update k io)).1.manager.nodes[k]? = some (n.update s.now io).node ∧
      (perfMachine.step s (.update k io)).2 = .timeout (n.update s.now io).expireTime := by
  obtain ⟨hlt, rfl⟩ := List.getElem?_eq_some_iff.mp hn
  simp [perfMachine, perfStep, hlt]

end Update

/-- First value: one that is requested for another millisecond at least. It is the current value of
the node if the write succeeds. -/
theorem update_selects {m : HintManager} (hm : m.Fresh) (now : Int) (es : List PerfCall)
    {k : Nat} {n : Node} (hn : (perfMachine.exec ⟨m, now⟩ es).2.manager.nodes[k]? = some n)
    (io : NodeIo) :
    let s := (perfMachine.exec ⟨m, now⟩ es).2
    let σ := ((specMachine m).exec (.start now) es).2
    ∃ i n' t, FirstOr (σ.Requested k) n.defaultValIndex i ∧
      (perfMachine.step s (.update k io)).1.manager.nodes[k]? = some n' ∧
      (perfMachine.step s (.update k io)).2 = .timeout t ∧
      (n.WriteSucceeds s.now io → n'.currentValIndex = i) ∧
      ∀ hint e, σ.ends k i hint = some e → t * nsPerMs ≤ e - s.now := by
  intro s σ
  have href : Refines m s σ := perf_refines hm now es
  obtain ⟨hnode, hout⟩ := step_update hn io
  obtain ⟨-, -, hle, hok⟩ := n.update_spec s.now io
  refine ⟨n.valueIndex s.now, _, _, href.valueIndex hn, hnode, hout, fun h => (hok h).2, ?_⟩
  intro hint e he
  have hlive : live s.now e = true := Node.requests_live (by rw [href.requests hn]; exact he)
  have htime := (href.expireTime hn).le hint e he
  calc (n.update s.now io).expireTime * nsPerMs
      ≤ durationMs _ * nsPerMs :=
        Int.mul_le_mul_of_nonneg_right (hle.trans htime) (by decide)
    _ ≤ e - s.now := durationMs_le hlive

/-- A manager with one node of two values, and a hint that asks for the first one for a second. -/
def boostManager : HintManager where
  hasLooper := true
  exitPending := false
  nodes := [⟨"cpu", "/cpu", .file false, [⟨"high", ∅⟩, ⟨"low", ∅⟩], 1, false, 1, none⟩]
  actions hint := if hint = "LAUNCH" then some [⟨0, 0, 1000⟩] else none

theorem boostManager_fresh : boostManager.Fresh := by
  intro n hn g hg
  obtain rfl := List.mem_singleton.mp hn
  simp only [List.mem_cons, List.not_mem_nil, or_false] at hg
  rcases hg with rfl | rfl <;> rfl

def NodeIo.AllOk (io : NodeIo) : Prop :=
  io.openFd ≠ none ∧ io.writeOk = true ∧ io.setOk = true

theorem NodeIo.AllOk.writeSucceeds {io : NodeIo} (h : io.AllOk) (now : Int) (n : Node) :
    n.WriteSucceeds now io := by
  intro _
  split
  · exact ⟨h.1, h.2.1⟩
  · exact h.2.2

/-- The hint is given, half a second goes by, and the node gets the first value that is
requested. -/
theorem update_selects_boost :
    let es : List PerfCall := [.doHint "LAUNCH" none, .advance 500000000]
    let s := (perfMachine.exec ⟨boostManager, 0⟩ es).2
    let σ := ((specMachine boostManager).exec (.start 0) es).2
    ∃ n', (perfMachine.step s (.update 0 ⟨some 3, true, true⟩)).1.manager.nodes[0]? = some n' ∧
      FirstOr (σ.Requested 0) 1 n'.currentValIndex := by
  intro es s σ
  have hlen : 0 < s.manager.nodes.length := by decide +kernel
  obtain ⟨i, n', t, hfirst, hnode, -, hcur, -⟩ := update_selects boostManager_fresh 0 es
    (List.getElem?_eq_getElem hlen) ⟨some 3, true, true⟩
  have hok : NodeIo.AllOk ⟨some 3, true, true⟩ := ⟨by simp, rfl, rfl⟩
  refine ⟨n', hnode, ?_⟩
  rw [hcur (hok.writeSucceeds _ _)]
  exact hfirst

end AmlogicHal.PerfMgr
