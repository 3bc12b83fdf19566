import AmlogicHal.Lib.Json
import AmlogicHal.PerfMgr.Refinement

/-!
# The configuration of the performance manager

`GetFromJSON` reads the nodes and the actions of a JSON document. The actions name their node and
the value they ask for, and the parser turns the names into indices, which the looper thread uses
later on.

* `parsed_wellFormed`: what the parser accepts has indices that exist, and no hint has two actions
  for a node.
* `getFromJson_hints`: so no call of `DoHint` or `EndHint` for a configured hint meets an index out
  of bounds, in whatever state the manager is, and `EndHint` leaves no request of its hint behind.
-/

namespace AmlogicHal.PerfMgr

open Parse List Option

section Parser

variable (realText : Rat → String)

/-! ## Nodes -/

/-- `is_file`, from the `Type` of a node. -/
def parseType (type : String) : Parse Bool :=
  if type = "" ∨ type = "File" then .ok true
  else if type = "Property" then .ok false
  else .error .rejected

/-- The body of the loop over the values of a node. -/
def parseValue (isFile : Bool) (parsed : List String) (value : Json) : Parse (List String) := do
  let value ← value.asString realText
  require (value ∉ parsed)
  require (¬ (isFile = true ∧ value = ""))
  pure (parsed ++ [value])

def parseValues (isFile : Bool) (entry : Json) : Parse (List String) := do
  let values ← (← (← entry.get "Values").elements).foldlM (parseValue realText isFile) []
  require (1 ≤ values.length)
  pure values

/-- The default index, which is the last one if the entry has no usable one. -/
def parseDefaultIndex (count : Nat) (entry : Json) : Parse Nat := do
  let defaultIndex := (← entry.get "DefaultIndex").uint64?.getD (count - 1)
  require (defaultIndex ≤ count - 1)
  pure defaultIndex

/-- A flag that is false if the entry has no usable one. -/
def parseFlag (key : String) (entry : Json) : Parse Bool := do
  pure ((← entry.get key).bool?.getD false)

/-- Only a file node has the flag `HoldFd`. -/
def parseKind (isFile : Bool) (entry : Json) : Parse NodeKind :=
  if isFile then .file <$> parseFlag "HoldFd" entry else .ok .property

/-- The constructors of `FileNode` and `PropertyNode`. -/
def Node.ofConfig (name path : String) (kind : NodeKind) (values : List String)
    (defaultIndex : Nat) (reset : Bool) : Node where
  name := name
  nodePath := path
  kind := kind
  reqSorted := values.map fun value => ⟨value, ∅⟩
  defaultValIndex := defaultIndex
  resetOnInit := reset
  currentValIndex := defaultIndex
  fd := none

/-- The body of the loop over the nodes. The names and the paths that were parsed before are those
of the nodes. -/
def parseNode (parsed : List Node) (entry : Json) : Parse (List Node) := do
  let name ← entry.text realText "Name"
  require (name ≠ "")
  require (name ∉ parsed.map Node.name)
  let path ← entry.text realText "Path"
  require (path ≠ "")
  require (path ∉ parsed.map Node.nodePath)
  let isFile ← parseType (← entry.text realText "Type")
  let values ← parseValues realText isFile entry
  let defaultIndex ← parseDefaultIndex values.length entry
  let reset ← parseFlag "ResetOnInit" entry
  let kind ← parseKind isFile entry
  pure (parsed ++ [.ofConfig name path kind values defaultIndex reset])

def parseNodes (root : Json) : Parse (List Node) := do
  (← (← root.get "Nodes").elements).foldlM (parseNode realText) []

/-! ## Actions -/

/-- `nodes_index`: a later node of the same name replaces an earlier one. -/
def nodesIndex (nodes : List Node) : String → Option Nat :=
  nodes.zipIdx.foldl (fun index x => Function.update index x.1.name (some x.2)) fun _ => none

def Node.getValueIndex (value : String) (n : Node) : Option Nat :=
  n.reqSorted.findIdx? fun g => g.requestValue = value

/-- `std::chrono::milliseconds` of an unsigned number. -/
def millisecondsOf (duration : Nat) : Int := (BitVec.ofNat 64 duration).toInt

/-- `actions_parsed`. -/
abbrev ActionMap := AList (fun _ : String => List NodeAction)

/-- The body of the loop over the actions. -/
def parseAction (nodes : List Node) (parsed : ActionMap) (entry : Json) : Parse ActionMap := do
  let hint ← entry.text realText "PowerHint"
  require (hint ≠ "")
  let nodeName ← entry.text realText "Node"
  let nodeIndex ← found (nodesIndex nodes nodeName)
  let valueName ← entry.text realText "Value"
  let valueIndex ← found (nodes[nodeIndex]?.bind (Node.getValueIndex valueName))
  let duration ← found (← entry.get "Duration").uint64?
  let action : NodeAction := ⟨nodeIndex, valueIndex, millisecondsOf duration⟩
  match parsed.lookup hint with
  | none => pure (parsed.insert hint [action])
  | some actions => do
    require (∀ a ∈ actions, a.nodeIndex ≠ nodeIndex)
    pure (parsed.insert hint (actions ++ [action]))

def parseActions (root : Json) (nodes : List Node) : Parse ActionMap := do
  (← (← root.get "Actions").elements).foldlM (parseAction realText nodes) ∅

/-- `GetFromJSON`, from the value that the reader makes of the document, if there is one. -/
def getFromJson (doc : Option Json) : Option HintManager := do
  let root ← doc
  let nodes ← cleared [] (parseNodes realText root)
  if nodes.isEmpty then
    none
  else
    let actions ← cleared ∅ (parseActions realText root nodes)
    if actions.entries.isEmpty then
      none
    else
      some ⟨true, false, nodes, fun hint => actions.lookup hint⟩

end Parser

/-! ## What is accepted -/

/-- The node and the value of an action exist. -/
def InRange (nodes : List Node) (a : NodeAction) : Prop :=
  ∃ n, nodes[a.nodeIndex]? = some n ∧ a.valueIndex < n.reqSorted.length

/-- The actions of a hint exist, and there is one for each node at most. -/
structure ActionsOk (nodes : List Node) (actions : List NodeAction) : Prop where
  inRange : ∀ a ∈ actions, InRange nodes a
  nodup : (actions.map NodeAction.nodeIndex).Nodup

structure HintManager.WellFormed (m : HintManager) : Prop where
  looper : m.hasLooper = true
  running : m.exitPending = false
  actions : ∀ hint actions, m.actions hint = some actions → ActionsOk m.nodes actions

open HintManager

variable {n : Node} {nodes : List Node} {actions : List NodeAction} {a : NodeAction}

theorem Node.getValueIndex_lt {value : String} {i : Nat} (h : n.getValueIndex value = some i) :
    i < n.reqSorted.length :=
  (List.findIdx?_eq_some_iff_findIdx_eq.mp h).1

theorem ActionsOk.snoc (h : ActionsOk nodes actions) (ha : InRange nodes a)
    (hnew : ∀ b ∈ actions, b.nodeIndex ≠ a.nodeIndex) : ActionsOk nodes (actions ++ [a]) := by
  refine ⟨fun b hb => ?_, ?_⟩
  · rcases mem_append.mp hb with hb | hb
    · exact h.inRange b hb
    · exact mem_singleton.mp hb ▸ ha
  · rw [map_append, map_singleton, nodup_append]
    refine ⟨h.nodup, nodup_singleton _, fun i hi j hj => ?_⟩
    obtain ⟨b, hb, rfl⟩ := mem_map.mp hi
    exact mem_singleton.mp hj ▸ hnew b hb

section Accepted

variable {realText : Rat → String} {nodes : List Node} {root : Json}

theorem parseAction_cases {parsed parsed' : ActionMap} {entry : Json}
    (h : parseAction realText nodes parsed entry = .ok parsed') :
    ∃ hint a duration, InRange nodes a ∧ duration < 2 ^ 64 ∧ a.timeoutMs = millisecondsOf duration ∧
      (∀ b ∈ (parsed.lookup hint).getD [], b.nodeIndex ≠ a.nodeIndex) ∧
      parsed' = parsed.insert hint ((parsed.lookup hint).getD [] ++ [a]) := by
  obtain ⟨hint, -, h⟩ := bind_ok h
  obtain ⟨_, -, h⟩ := bind_ok h
  obtain ⟨nodeName, -, h⟩ := bind_ok h
  obtain ⟨nodeIndex, hnode, h⟩ := bind_ok h
  obtain ⟨valueName, -, h⟩ := bind_ok h
  obtain ⟨valueIndex, hvalue, h⟩ := bind_ok h
  obtain ⟨_, -, h⟩ := bind_ok h
  obtain ⟨duration, hduration, h⟩ := bind_ok h
  obtain ⟨n, hn, hindex⟩ := bind_eq_some_iff.mp (found_ok hvalue)
  refine ⟨hint, ⟨nodeIndex, valueIndex, millisecondsOf duration⟩, duration,
    ⟨n, hn, Node.getValueIndex_lt hindex⟩, Json.uint64?_lt (found_ok hduration), rfl, ?_⟩
  split at h
  · next hnone =>
    rw [hnone]
    exact ⟨by simp, (Except.ok.inj h).symm⟩
  · next actions hactions =>
    obtain ⟨_, hnew, h⟩ := bind_ok h
    rw [hactions]
    exact ⟨require_ok hnew, (Except.ok.inj h).symm⟩

/-- What the first action of a hint has and every further one keeps, the actions of all hints
have. -/
theorem parseActions_invariant {actions : ActionMap}
    (h : parseActions realText root nodes = .ok actions) {I : List NodeAction → Prop} (hnil : I [])
    (hsnoc : ∀ as a duration, I as → InRange nodes a → duration < 2 ^ 64 →
      a.timeoutMs = millisecondsOf duration → (∀ b ∈ as, b.nodeIndex ≠ a.nodeIndex) →
        I (as ++ [a])) :
    ∀ hint as, actions.lookup hint = some as → I as := by
  obtain ⟨_, -, h⟩ := bind_ok h
  obtain ⟨entries, -, h⟩ := bind_ok h
  refine foldlM_invariant (fun parsed : ActionMap => ∀ hint as, parsed.lookup hint = some as → I as)
    entries h (fun hint as has => by simp at has) ?_
  intro parsed entry parsed' _ hI hstep hint' as has
  obtain ⟨hint, a, duration, hrange, hlt, htime, hnew, rfl⟩ := parseAction_cases hstep
  by_cases heq : hint' = hint
  · subst heq
    rw [AList.lookup_insert] at has
    obtain rfl := Option.some.inj has
    have hold : I ((parsed.lookup hint').getD []) := by
      cases hlook : parsed.lookup hint' with
      | none => exact hnil
      | some old => exact hI hint' old hlook
    exact hsnoc _ a duration hold hrange hlt htime hnew
  · rw [AList.lookup_insert_ne heq] at has
    exact hI hint' as has

theorem parseActions_ok {actions : ActionMap} (h : parseActions realText root nodes = .ok actions) :
    ∀ hint as, actions.lookup hint = some as → ActionsOk nodes as :=
  parseActions_invariant h ⟨by simp, by simp⟩ fun _ _ _ hok hrange _ _ hnew => hok.snoc hrange hnew

theorem parseNode_snoc {parsed parsed' : List Node} {entry : Json}
    (h : parseNode realText parsed entry = .ok parsed') :
    ∃ name path kind values defaultIndex reset,
      parsed' = parsed ++ [Node.ofConfig name path kind values defaultIndex reset] := by
  obtain ⟨name, -, h⟩ := bind_ok h
  obtain ⟨_, -, h⟩ := bind_ok h
  obtain ⟨_, -, h⟩ := bind_ok h
  obtain ⟨path, -, h⟩ := bind_ok h
  obtain ⟨_, -, h⟩ := bind_ok h
  obtain ⟨_, -, h⟩ := bind_ok h
  obtain ⟨type, -, h⟩ := bind_ok h
  obtain ⟨isFile, -, h⟩ := bind_ok h
  obtain ⟨values, -, h⟩ := bind_ok h
  obtain ⟨defaultIndex, -, h⟩ := bind_ok h
  obtain ⟨reset, -, h⟩ := bind_ok h
  obtain ⟨kind, -, h⟩ := bind_ok h
  exact ⟨_, _, _, _, _, _, (Except.ok.inj h).symm⟩

theorem parseNodes_fresh (h : parseNodes realText root = .ok nodes) :
    ∀ n ∈ nodes, ∀ g ∈ n.reqSorted, g.requestMap = ∅ := by
  obtain ⟨_, -, h⟩ := bind_ok h
  obtain ⟨entries, -, h⟩ := bind_ok h
  refine foldlM_invariant
    (fun nodes : List Node => ∀ n ∈ nodes, ∀ g ∈ n.reqSorted, g.requestMap = ∅) entries h
    (by simp) ?_
  intro parsed entry parsed' _ hfresh hstep n hn g hg
  obtain ⟨name, path, kind, values, defaultIndex, reset, rfl⟩ := parseNode_snoc hstep
  rcases mem_append.mp hn with hn | hn
  · exact hfresh n hn g hg
  · rw [mem_singleton.mp hn] at hg
    obtain ⟨value, -, rfl⟩ := mem_map.mp hg
    rfl

theorem getFromJson_parts {doc : Option Json} {m : HintManager}
    (h : getFromJson realText doc = some m) :
    ∃ root nodes, ∃ actions : ActionMap, parseNodes realText root = .ok nodes ∧
      parseActions realText root nodes = .ok actions ∧
      m = ⟨true, false, nodes, fun hint => actions.lookup hint⟩ := by
  obtain ⟨root, -, h⟩ := bind_eq_some_iff.mp h
  obtain ⟨nodes, hnodes, h⟩ := bind_eq_some_iff.mp h
  split at h
  · cases h
  · next hne =>
    obtain ⟨actions, hactions, h⟩ := bind_eq_some_iff.mp h
    split at h
    · cases h
    · next hne' =>
      have hn := (cleared_eq_some hnodes).resolve_right fun h => hne (by simp [h])
      have ha := (cleared_eq_some hactions).resolve_right fun h => hne' (by rw [h]; rfl)
      exact ⟨root, nodes, actions, hn, ha, (Option.some.inj h).symm⟩

theorem parsed_wellFormed {doc : Option Json} {m : HintManager}
    (h : getFromJson realText doc = some m) : m.WellFormed ∧ m.Fresh := by
  obtain ⟨root, nodes, actions, hnodes, hactions, rfl⟩ := getFromJson_parts h
  exact ⟨⟨rfl, rfl, parseActions_ok hactions⟩, parseNodes_fresh hnodes⟩

end Accepted

/-! ## Calls in bounds -/

variable {m : HintManager}

theorem inRange_iff : InRange m.nodes a ↔ m.hasValue a = true := by
  unfold InRange hasValue
  cases m.nodes[a.nodeIndex]? with
  | none => simp
  | some n => simp

theorem requestNode_ret (h : m.hasValue a = true) (now : Int) (hint : String) :
    (requestNode now hint a m.nodes).2 = true := by
  obtain ⟨n, hn, hlt⟩ := inRange_iff.mpr h
  simp [requestNode, hn, Node.addRequest, not_le.mpr hlt]

theorem cancelNode_ret (h : m.hasValue a = true) (hint : String) :
    (cancelNode hint a m.nodes).2 = true := by
  obtain ⟨n, hn, -⟩ := inRange_iff.mpr h
  simp [cancelNode, hn]

/-- A loop over actions that exist, in which no step changes which actions exist, returns true. -/
theorem foldl_ret (f : NodeAction → List Node → List Node × Bool)
    (hframe : ∀ a nodes, (f a nodes).1.map Node.frame = nodes.map Node.frame)
    (hret : ∀ (m : HintManager) a, m.hasValue a = true → (f a m.nodes).2 = true)
    (h : ∀ a ∈ actions, m.hasValue a = true) :
    (actions.foldl (fun acc a => ((f a acc.1).1, (f a acc.1).2 && acc.2)) (m.nodes, true)).2 =
      true := by
  have hboth := List.foldlRecOn (motive := fun acc : List Node × Bool =>
      acc.1.map Node.frame = m.nodes.map Node.frame ∧ acc.2 = true)
    actions (fun acc a => ((f a acc.1).1, (f a acc.1).2 && acc.2)) (b := (m.nodes, true)) ⟨rfl, rfl⟩
    (by
      rintro ⟨nodes, ok⟩ ⟨hnodes, hok⟩ a ha
      have hsame : (m.setNodes nodes).frame = m.frame := by
        simp only [frame, setNodes] at hnodes ⊢
        rw [hnodes]
      have hvalue := (hasValue_congr hsame a).trans (h a ha)
      refine ⟨(hframe a nodes).trans hnodes, ?_⟩
      rw [Bool.and_eq_true]
      exact ⟨hret _ a hvalue, hok⟩)
  exact hboth.2

theorem request_ret (hrun : m.exitPending = false) (h : ∀ a ∈ actions, m.hasValue a = true)
    (now : Int) (hint : String) :
    (m.request now actions hint).2 = true := by
  rw [request, if_neg (by simp [hrun])]
  exact foldl_ret _ (requestNode_frame now hint) (fun _ _ hv => requestNode_ret hv now hint) h

theorem cancel_ret (hrun : m.exitPending = false) (h : ∀ a ∈ actions, m.hasValue a = true)
    (hint : String) :
    (m.cancel actions hint).2 = true := by
  rw [cancel, if_neg (by simp [hrun])]
  exact foldl_ret _ (cancelNode_frame hint) (fun _ _ hv => cancelNode_ret hv hint) h

section WellFormed

variable {m : HintManager} {hint : String} {actions : List NodeAction}

section

variable (hw : m.WellFormed)
include hw

section

variable (h : m.actions hint = some actions)
include h

theorem HintManager.WellFormed.validActions : m.validActions hint = some actions := by
  rw [HintManager.validActions, if_pos hw.looper, h]

theorem HintManager.WellFormed.accepted : m.accepted hint = actions := by
  rw [HintManager.accepted, if_neg (by simp [hw.running]), hw.validActions h, getD_some]

theorem HintManager.WellFormed.hasValue :
    ∀ a ∈ actions, m.hasValue a = true :=
  fun a ha => inRange_iff.mp ((hw.actions hint actions h).inRange a ha)

theorem HintManager.WellFormed.doHint_ret (now : Int)
    (timeoutOverride : Option Int) : (m.doHint now hint timeoutOverride).2 = true := by
  unfold doHint
  rw [hw.validActions h]
  cases timeoutOverride with
  | none => exact request_ret hw.running (hw.hasValue h) now hint
  | some t =>
    refine request_ret hw.running (fun b hb => ?_) now hint
    obtain ⟨a, ha, rfl⟩ := mem_map.mp hb
    exact hw.hasValue h a ha

theorem HintManager.WellFormed.endHint_ret : (m.endHint hint).2 = true := by
  unfold endHint
  rw [hw.validActions h]
  exact cancel_ret hw.running (hw.hasValue h) hint

end

theorem HintManager.WellFormed.congr {m' : HintManager} (h : m'.frame = m.frame) :
    m'.WellFormed := by
  have hvalue := hasValue_congr h
  simp only [frame, mk.injEq] at h
  obtain ⟨hlooper, hexit, -, hactions⟩ := h
  refine ⟨hlooper.trans hw.looper, hexit.trans hw.running, fun hint actions hact => ?_⟩
  rw [hactions] at hact
  refine ⟨fun a ha => inRange_iff.mpr ?_, (hw.actions hint actions hact).nodup⟩
  rw [hvalue]
  exact hw.hasValue hact a ha

end

end WellFormed

/-! ## Requests that are left -/

/-- Some group of the node has a request of the hint, expired or not. -/
def Node.Holds (hint : String) (n : Node) : Prop :=
  ∃ g ∈ n.reqSorted, g.requestMap.lookup hint ≠ none

def HeldAt (nodes : List Node) (k : Nat) (hint : String) : Prop :=
  ∃ n, nodes[k]? = some n ∧ n.Holds hint

variable {hint hint' : String} {now : Int} {k : Nat}

theorem Node.addRequest_holds {v : Nat} {e : Int} (h : (n.addRequest v hint e).1.Holds hint') :
    n.Holds hint' ∨ hint' = hint := by
  by_cases heq : hint' = hint
  · exact .inr heq
  · unfold Node.addRequest at h
    split at h
    · exact .inl h
    · obtain ⟨g, hg, hlook⟩ := h
      obtain ⟨i, hi⟩ := mem_iff_getElem?.mp hg
      rw [List.getElem?_modify] at hi
      split at hi
      · obtain ⟨g', hg', rfl⟩ := map_eq_some_iff.mp hi
        rw [RequestGroup.addRequest, Deadlines.lookup_extend_ne heq] at hlook
        exact .inl ⟨g', mem_of_getElem? hg', hlook⟩
      · obtain ⟨g', hg', rfl⟩ := map_eq_some_iff.mp hi
        exact .inl ⟨g', mem_of_getElem? hg', hlook⟩

theorem Node.removeRequest_holds (h : (n.removeRequest hint).Holds hint') :
    n.Holds hint' ∧ hint' ≠ hint := by
  obtain ⟨g, hg, hlook⟩ := h
  obtain ⟨g', hg', rfl⟩ := mem_map.mp hg
  have hne : hint' ≠ hint := by
    rintro rfl
    exact hlook (AList.lookup_erase _ _)
  rw [RequestGroup.removeRequest, AList.lookup_erase_ne hne] at hlook
  exact ⟨⟨g', hg', hlook⟩, hne⟩

theorem scanGroups_holds (gs : List RequestGroup)
    (h : ∃ g ∈ (scanGroups now gs).1, g.requestMap.lookup hint ≠ none) :
    ∃ g ∈ gs, g.requestMap.lookup hint ≠ none := by
  have hkept : ∀ g : RequestGroup, (g.getExpireTime now).1.requestMap.lookup hint ≠ none →
      g.requestMap.lookup hint ≠ none := by
    intro g hlook hnone
    rw [RequestGroup.getExpireTime, Deadlines.lookup_purge, Deadlines.view, hnone] at hlook
    exact hlook rfl
  induction gs with
  | nil => exact h
  | cons g gs ih =>
    unfold scanGroups at h
    dsimp only at h
    split at h
    · obtain ⟨g', hg', hlook⟩ := h
      rcases mem_cons.mp hg' with rfl | hg'
      · exact ⟨g, mem_cons_self, hkept g hlook⟩
      · exact ⟨g', mem_cons_of_mem _ hg', hlook⟩
    · obtain ⟨g', hg', hlook⟩ := h
      rcases mem_cons.mp hg' with rfl | hg'
      · exact ⟨g, mem_cons_self, hkept g hlook⟩
      · obtain ⟨g'', hg'', hlook⟩ := ih ⟨g', hg', hlook⟩
        exact ⟨g'', mem_cons_of_mem _ hg'', hlook⟩

theorem Node.update_reqSorted (now : Int) (io : NodeIo) (n : Node) :
    (n.update now io).node.reqSorted = (scanGroups now n.reqSorted).1 := by
  rcases n.update_cases now io with ⟨-, hu⟩ | ⟨-, fd, timeout, -, hu⟩ | ⟨fd, hu⟩ <;>
    · rw [hu]
      rfl

theorem Node.update_holds {io : NodeIo} (h : (n.update now io).node.Holds hint) : n.Holds hint := by
  unfold Node.Holds at h
  rw [Node.update_reqSorted] at h
  exact scanGroups_holds n.reqSorted h

theorem heldAt_set {j : Nat} (h : HeldAt (nodes.set j n) k hint) :
    (k = j ∧ n.Holds hint) ∨ (k ≠ j ∧ HeldAt nodes k hint) := by
  obtain ⟨n', hn', hholds⟩ := h
  rw [List.getElem?_set] at hn'
  split at hn'
  · next hjk =>
    split at hn'
    · exact .inl ⟨hjk.symm, Option.some.inj hn' ▸ hholds⟩
    · cases hn'
  · next hjk => exact .inr ⟨Ne.symm hjk, n', hn', hholds⟩

theorem requestNode_held (h : HeldAt (requestNode now hint a nodes).1 k hint') :
    HeldAt nodes k hint' ∨ (k = a.nodeIndex ∧ hint' = hint) := by
  unfold requestNode at h
  split at h
  · exact .inl h
  · next n hn =>
    rcases heldAt_set h with ⟨rfl, hholds⟩ | ⟨-, hheld⟩
    · rcases Node.addRequest_holds hholds with hholds | heq
      · exact .inl ⟨n, hn, hholds⟩
      · exact .inr ⟨rfl, heq⟩
    · exact .inl hheld

theorem cancelNode_held (h : HeldAt (cancelNode hint a nodes).1 k hint') :
    HeldAt nodes k hint' ∧ ¬ (k = a.nodeIndex ∧ hint' = hint) := by
  unfold cancelNode at h
  split at h
  · next hnone =>
    refine ⟨h, fun heq => ?_⟩
    obtain ⟨n, hn, -⟩ := h
    rw [heq.1, hnone] at hn
    cases hn
  · next n hn =>
    rcases heldAt_set h with ⟨rfl, hholds⟩ | ⟨hne, hheld⟩
    · obtain ⟨hholds, hne⟩ := Node.removeRequest_holds hholds
      exact ⟨⟨n, hn, hholds⟩, fun heq => hne heq.2⟩
    · exact ⟨hheld, fun heq => hne heq.1⟩

/-- Requests of a hint are at the nodes of its actions only. -/
def Owned (m : HintManager) (nodes : List Node) : Prop :=
  ∀ k hint, HeldAt nodes k hint → m.ActsOn hint k

/-- A step of the system keeps the requests where they belong. `m` stands for the configuration,
which no step changes. -/
theorem owned_step {s : PerfState} (hframe : s.manager.frame = m.frame)
    (h : Owned m s.manager.nodes) (e : PerfCall) :
    Owned m (perfMachine.step s e).1.manager.nodes := by
  cases e with
  | doHint hint timeoutOverride =>
    simp only [perfMachine, perfStep, doHint_nodes, accepted_congr hframe, setNodes]
    refine List.foldlRecOn (motive := Owned m) _ _ h fun nodes hnodes a ha k hint' hheld => ?_
    rcases requestNode_held hheld with hheld | ⟨rfl, rfl⟩
    · exact hnodes k hint' hheld
    · obtain ⟨b, hb, rfl⟩ := mem_map.mp ha
      exact ⟨b, hb, rfl⟩
  | endHint hint =>
    simp only [perfMachine, perfStep, endHint_nodes, accepted_congr hframe, setNodes]
    exact List.foldlRecOn (motive := Owned m) _ _ h fun nodes hnodes a ha k hint' hheld =>
      hnodes k hint' (cancelNode_held hheld).1
  | advance ns => exact h
  | update k io =>
    simp only [perfMachine, perfStep]
    split
    · exact h
    · next n hn =>
      intro k' hint hheld
      rcases heldAt_set hheld with ⟨rfl, hholds⟩ | ⟨-, hheld⟩
      · exact h _ hint ⟨n, hn, Node.update_holds hholds⟩
      · exact h k' hint hheld

theorem perfStep_frame (s : PerfState) (e : PerfCall) :
    (perfMachine.step s e).1.manager.frame = s.manager.frame := by
  have hfold : ∀ (actions : List NodeAction) (f : List Node → NodeAction → List Node),
      (∀ nodes a, (f nodes a).map Node.frame = nodes.map Node.frame) →
        (s.manager.setNodes (actions.foldl f s.manager.nodes)).frame = s.manager.frame := by
    intro actions f hf
    have hnodes := List.foldlRecOn
      (motive := fun nodes => nodes.map Node.frame = s.manager.nodes.map Node.frame) actions f rfl
      fun nodes hnodes a _ => (hf nodes a).trans hnodes
    simp [frame, setNodes, hnodes]
  cases e with
  | doHint hint timeoutOverride =>
    simp only [perfMachine, perfStep, doHint_nodes]
    exact hfold _ _ fun nodes a => requestNode_frame s.now hint a nodes
  | endHint hint =>
    simp only [perfMachine, perfStep, endHint_nodes]
    exact hfold _ _ fun nodes a => cancelNode_frame hint a nodes
  | advance ns => rfl
  | update k io =>
    simp only [perfMachine, perfStep]
    split
    · rfl
    · next n hn =>
      simp [frame, frame_set hn (n.update_spec s.now io).1]

theorem endHint_held (h : HeldAt (m.endHint hint).1.nodes k hint) :
    HeldAt m.nodes k hint ∧ ∀ a ∈ m.accepted hint, a.nodeIndex ≠ k := by
  rw [endHint_nodes, setNodes] at h
  have hall : ∀ (actions : List NodeAction) (nodes : List Node),
      HeldAt (actions.foldl (fun nodes a => (cancelNode hint a nodes).1) nodes) k hint →
        HeldAt nodes k hint ∧ ∀ a ∈ actions, a.nodeIndex ≠ k := by
    intro actions
    induction actions with
    | nil => exact fun nodes h => ⟨h, by simp⟩
    | cons a actions ih =>
      intro nodes h
      obtain ⟨hheld, hrest⟩ := ih _ h
      obtain ⟨hheld, hne⟩ := cancelNode_held hheld
      refine ⟨hheld, fun b hb => ?_⟩
      rcases mem_cons.mp hb with rfl | hb
      · exact fun heq => hne ⟨heq.symm, rfl⟩
      · exact hrest b hb
  exact hall _ _ h

theorem owned_run (hfresh : m.Fresh) (now : Int) (es : List PerfCall) :
    (perfMachine.exec ⟨m, now⟩ es).2.manager.frame = m.frame ∧
      Owned m (perfMachine.exec ⟨m, now⟩ es).2.manager.nodes := by
  refine Machine.exec_invariant
    (I := fun s : PerfState => s.manager.frame = m.frame ∧ Owned m s.manager.nodes) es
    (fun e _ s hs => ⟨(perfStep_frame s e).trans hs.1, owned_step hs.1 hs.2 e⟩) ⟨rfl, ?_⟩
  rintro k hint ⟨n, hn, g, hg, hlook⟩
  rw [hfresh n (mem_of_getElem? hn) g hg] at hlook
  exact absurd rfl hlook

theorem getFromJson_hints {realText : Rat → String} {doc : Option Json} {m : HintManager}
    (h : getFromJson realText doc = some m) :
    (∀ hint actions, m.actions hint = some actions → ActionsOk m.nodes actions) ∧
      ∀ (now : Int) (es : List PerfCall) (hint : String), m.actions hint ≠ none →
        let s := (perfMachine.exec ⟨m, now⟩ es).2
        (∀ timeoutOverride, (s.manager.doHint s.now hint timeoutOverride).2 = true) ∧
          (s.manager.endHint hint).2 = true ∧
          ∀ n ∈ (s.manager.endHint hint).1.nodes, ¬ n.Holds hint := by
  obtain ⟨hw, hfresh⟩ := parsed_wellFormed h
  refine ⟨hw.actions, fun now es hint hsupported => ?_⟩
  intro s
  obtain ⟨hframe, howned⟩ := owned_run hfresh now es
  obtain ⟨actions, hactions⟩ := ne_none_iff_exists'.mp hsupported
  have hws : s.manager.WellFormed := hw.congr hframe
  have hactions' : s.manager.actions hint = some actions := by
    have hsame : s.manager.frame.actions = m.frame.actions := by rw [hframe]
    exact (congrFun hsame hint).trans hactions
  refine ⟨hws.doHint_ret hactions' s.now, hws.endHint_ret hactions', fun n hn hholds => ?_⟩
  obtain ⟨k, hk⟩ := mem_iff_getElem?.mp hn
  obtain ⟨hheld, hne⟩ := endHint_held ⟨n, hk, hholds⟩
  obtain ⟨a, ha, hak⟩ := howned k hint hheld
  rw [hw.accepted hactions] at ha
  exact hne a (by rwa [hws.accepted hactions']) hak

/-- A document with one node of two values and one hint. -/
def boostDoc : Json :=
  .object [
    ("Nodes", .array [.object [("Name", .string "cpu"), ("Path", .string "/cpu"),
      ("Values", .array [.string "high", .string "low"])]]),
    ("Actions", .array [.object [("PowerHint", .string "LAUNCH"), ("Node", .string "cpu"),
      ("Value", .string "high"), ("Duration", .int 1000)]])]

theorem getFromJson_hints_boost :
    ∃ m, getFromJson (fun _ => "") (some boostDoc) = some m ∧ m.actions "LAUNCH" ≠ none ∧
      ∀ now es, let s := (perfMachine.exec ⟨m, now⟩ es).2
        (s.manager.doHint s.now "LAUNCH" none).2 = true ∧
          ∀ n ∈ (s.manager.endHint "LAUNCH").1.nodes, ¬ n.Holds "LAUNCH" := by
  have haccepted : ((getFromJson (fun _ => "") (some boostDoc)).bind (·.actions "LAUNCH")).isSome =
      true := by decide +kernel
  obtain ⟨actions, hactions⟩ := isSome_iff_exists.mp haccepted
  obtain ⟨m, hm, hact⟩ := bind_eq_some_iff.mp hactions
  have hsupported : m.actions "LAUNCH" ≠ none := by simp [hact]
  refine ⟨m, hm, hsupported, fun now es => ?_⟩
  obtain ⟨hdo, -, hend⟩ := (getFromJson_hints hm).2 now es "LAUNCH" hsupported
  exact ⟨hdo none, hend⟩

end AmlogicHal.PerfMgr
