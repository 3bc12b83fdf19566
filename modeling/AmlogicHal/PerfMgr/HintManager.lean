import AmlogicHal.Lib.Machine
import AmlogicHal.PerfMgr.Node

/-!
# The hint manager

The configuration maps every hint to its actions: for some of the nodes, the value that the hint
asks for and for how long. `DoHint` adds the requests of these actions to the nodes, `EndHint`
removes the requests of the hint from the nodes of its actions.

`perfMachine` runs the calls of the clients together with the clock and with the updates of the
nodes, which the looper thread makes under the same lock as the calls.
-/

namespace AmlogicHal.PerfMgr

/-! ## Requests and their end times -/

structure NodeAction where
  nodeIndex : Nat
  valueIndex : Nat
  /-- In milliseconds. Zero is for ever. -/
  timeoutMs : Int
deriving DecidableEq, Repr

/-- The end time that `Request` computes for a timeout. -/
def endTime (now timeoutMs : Int) : Int :=
  if timeoutMs ≠ 0 then
    if durationMs (timeMax - now) > timeoutMs then now + timeoutMs * nsPerMs else timeMax
  else
    timeMax

theorem endTime_mem {now timeoutMs : Int} (hnow : now ≤ timeMax) (ht : 0 ≤ timeoutMs) :
    now ≤ endTime now timeoutMs ∧ endTime now timeoutMs ≤ timeMax := by
  unfold endTime
  split
  · split
    · next hlt =>
      unfold durationMs nsPerMs at *
      rw [Int.tdiv_eq_ediv_of_nonneg (by omega)] at hlt
      omega
    · exact ⟨hnow, le_rfl⟩
  · exact ⟨hnow, le_rfl⟩

/-- `HintManager` with its `NodeLooperThread`. -/
structure HintManager where
  hasLooper : Bool
  exitPending : Bool
  nodes : List Node
  actions : String → Option (List NodeAction)

/-- The body of the loop of `Request`, with its part of the result. -/
def requestNode (now : Int) (hint : String) (a : NodeAction) (nodes : List Node) :
    List Node × Bool :=
  match nodes[a.nodeIndex]? with
  | none => (nodes, false)
  | some n =>
    let r := n.addRequest a.valueIndex hint (endTime now a.timeoutMs)
    (nodes.set a.nodeIndex r.1, r.2)

def cancelNode (hint : String) (a : NodeAction) (nodes : List Node) : List Node × Bool :=
  match nodes[a.nodeIndex]? with
  | none => (nodes, false)
  | some n => (nodes.set a.nodeIndex (n.removeRequest hint), true)

namespace HintManager

def request (now : Int) (actions : List NodeAction) (hint : String) (m : HintManager) :
    HintManager × Bool :=
  if m.exitPending then
    (m, false)
  else
    let r := actions.foldl (fun acc a =>
      ((requestNode now hint a acc.1).1, (requestNode now hint a acc.1).2 && acc.2)) (m.nodes, true)
    ({ m with nodes := r.1 }, r.2)

def cancel (actions : List NodeAction) (hint : String) (m : HintManager) : HintManager × Bool :=
  if m.exitPending then
    (m, false)
  else
    let r := actions.foldl (fun acc a =>
      ((cancelNode hint a acc.1).1, (cancelNode hint a acc.1).2 && acc.2)) (m.nodes, true)
    ({ m with nodes := r.1 }, r.2)

/-- The actions of a hint that passes `ValidateHint`. -/
def validActions (hint : String) (m : HintManager) : Option (List NodeAction) :=
  if m.hasLooper then m.actions hint else none

/-- `DoHint`, with the override of its second form. -/
def doHint (now : Int) (hint : String) (timeoutOverride : Option Int) (m : HintManager) :
    HintManager × Bool :=
  match m.validActions hint with
  | none => (m, false)
  | some actions =>
    match timeoutOverride with
    | none => m.request now actions hint
    | some t => m.request now (actions.map fun a => { a with timeoutMs := t }) hint

def endHint (hint : String) (m : HintManager) : HintManager × Bool :=
  match m.validActions hint with
  | none => (m, false)
  | some actions => m.cancel actions hint

/-- The actions that a call for a hint stands for: none, if the call is not accepted. -/
def accepted (m : HintManager) (hint : String) : List NodeAction :=
  if m.exitPending then [] else (m.validActions hint).getD []

def ActsOn (m : HintManager) (hint : String) (k : Nat) : Prop :=
  ∃ a ∈ m.accepted hint, a.nodeIndex = k

def setNodes (nodes : List Node) (m : HintManager) : HintManager := { m with nodes := nodes }

theorem foldl_fst {α β γ : Type} (f : β → α → β) (g : β × γ → α → γ) (as : List α) (b : β) (c : γ) :
    (as.foldl (fun acc a => (f acc.1 a, g acc a)) (b, c)).1 = as.foldl f b := by
  induction as generalizing b c with
  | nil => rfl
  | cons a as ih => exact ih _ _

theorem doHint_nodes (now : Int) (hint : String) (timeoutOverride : Option Int)
    (m : HintManager) :
    (m.doHint now hint timeoutOverride).1 = m.setNodes (((m.accepted hint).map fun a =>
        { a with timeoutMs := timeoutOverride.getD a.timeoutMs }).foldl
          (fun nodes a => (requestNode now hint a nodes).1) m.nodes) := by
  have hrequest : ∀ actions, (m.request now actions hint).1 = m.setNodes
      ((if m.exitPending then [] else actions).foldl
        (fun nodes a => (requestNode now hint a nodes).1) m.nodes) := by
    intro actions
    unfold request
    split
    · rfl
    · simp [setNodes, foldl_fst (fun nodes a => (requestNode now hint a nodes).1)]
  unfold doHint accepted
  cases m.validActions hint with
  | none => simp [setNodes]
  | some actions =>
    cases timeoutOverride with
    | none => simp [hrequest]
    | some t =>
      rw [hrequest]
      cases m.exitPending <;> rfl

theorem endHint_nodes (hint : String) (m : HintManager) :
    (m.endHint hint).1 = m.setNodes ((m.accepted hint).foldl
      (fun nodes a => (cancelNode hint a nodes).1) m.nodes) := by
  unfold endHint accepted cancel
  cases m.validActions hint with
  | none => simp [setNodes]
  | some actions =>
    dsimp only
    split
    · rfl
    · simp [setNodes, foldl_fst (fun nodes a => (cancelNode hint a nodes).1)]

end HintManager

/-! ## Runs -/

structure PerfState where
  manager : HintManager
  now : Int

inductive PerfCall where
  | doHint (hint : String) (timeoutOverride : Option Int)
  | endHint (hint : String)
  | advance (ns : Nat)
  | update (k : Nat) (io : NodeIo)

inductive PerfOutput where
  | ret (ok : Bool)
  | timeout (ms : Int)
  | none
deriving DecidableEq, Repr

def perfStep (s : PerfState) : PerfCall → PerfState × PerfOutput
  | .doHint hint timeoutOverride =>
    let r := s.manager.doHint s.now hint timeoutOverride
    ({ s with manager := r.1 }, .ret r.2)
  | .endHint hint =>
    let r := s.manager.endHint hint
    ({ s with manager := r.1 }, .ret r.2)
  | .advance ns => ({ s with now := s.now + ns }, .none)
  | .update k io =>
    match s.manager.nodes[k]? with
    | none => (s, .none)
    | some n =>
      let u := n.update s.now io
      ({ s with manager := { s.manager with nodes := s.manager.nodes.set k u.node } },
        .timeout u.expireTime)

def perfMachine : Machine PerfState PerfCall PerfOutput := ⟨perfStep⟩

/-! ## The requests of all nodes -/

def nodeRequests (now : Int) (nodes : List Node) (k v : Nat) (hint : String) : Option Int :=
  (nodes[k]?).bind (·.requests now v hint)

def HintManager.hasValue (m : HintManager) (a : NodeAction) : Bool :=
  match m.nodes[a.nodeIndex]? with
  | none => false
  | some n => a.valueIndex < n.reqSorted.length

def HintManager.frame (m : HintManager) : HintManager := { m with nodes := m.nodes.map Node.frame }

theorem frame_set {nodes : List Node} {k : Nat} {n n' : Node} (hn : nodes[k]? = some n)
    (h : n'.frame = n.frame) : (nodes.set k n').map Node.frame = nodes.map Node.frame := by
  refine List.ext_getElem? fun i => ?_
  simp only [List.getElem?_map, List.getElem?_set]
  split
  · next hki =>
    subst hki
    obtain ⟨hlt, rfl⟩ := List.getElem?_eq_some_iff.mp hn
    simp [hlt, h]
  · rfl

theorem nodeRequests_set {now : Int} {nodes : List Node} {k : Nat} {n n' : Node}
    (hn : nodes[k]? = some n) (k' v : Nat) (hint : String) :
    nodeRequests now (nodes.set k n') k' v hint =
      if k' = k then n'.requests now v hint else nodeRequests now nodes k' v hint := by
  have hlt := (List.getElem?_eq_some_iff.mp hn).1
  simp only [nodeRequests, List.getElem?_set]
  by_cases hk : k' = k
  · subst hk
    simp [hlt]
  · simp [hk, Ne.symm hk]

theorem HintManager.hasValue_frame (m : HintManager) (a : NodeAction) :
    m.frame.hasValue a = m.hasValue a := by
  simp only [hasValue, frame, List.getElem?_map]
  cases m.nodes[a.nodeIndex]? with
  | none => rfl
  | some n => simp [Node.frame]

theorem HintManager.hasValue_congr {m m' : HintManager} (h : m.frame = m'.frame) (a : NodeAction) :
    m.hasValue a = m'.hasValue a := by
  rw [← m.hasValue_frame, h, m'.hasValue_frame]

theorem HintManager.accepted_congr {m m' : HintManager} (h : m.frame = m'.frame) (hint : String) :
    m.accepted hint = m'.accepted hint := by
  have hframe : ∀ m : HintManager, m.frame.accepted hint = m.accepted hint := fun _ => rfl
  rw [← hframe, h, hframe]

theorem requestNode_frame (now : Int) (hint : String) (a : NodeAction) (nodes : List Node) :
    (requestNode now hint a nodes).1.map Node.frame = nodes.map Node.frame := by
  unfold requestNode
  split
  · rfl
  · next n hn => exact frame_set hn (n.addRequest_frame _ _ _)

theorem cancelNode_frame (hint : String) (a : NodeAction) (nodes : List Node) :
    (cancelNode hint a nodes).1.map Node.frame = nodes.map Node.frame := by
  unfold cancelNode
  split
  · rfl
  · next n hn => exact frame_set hn (n.removeRequest_frame _)

end AmlogicHal.PerfMgr
