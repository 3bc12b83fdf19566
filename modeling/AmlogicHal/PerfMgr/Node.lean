import AmlogicHal.Lib.Deadlines
import Mathlib.Data.Int.Order.Basic
import Mathlib.Tactic.Ring

/-!
# Nodes of the performance manager

A node is a file or a property that takes one of several values, in the order of their priority. For
every value there is a group of requests: hints that ask for it, each with the time at which its
request ends. `Update` gives the node the first value with a live request, or the default one, and
returns after how many milliseconds it should be called again.

Times are nanoseconds of the steady clock, as exact integers. For timeouts that are not negative the
end times are in the range of the clock (`endTime_mem`). The source reads the clock for every group;
here one `Update` happens at one instant.
-/

namespace AmlogicHal.PerfMgr

open Deadlines List

def nsPerMs : Int := 1000000

/-- `ReqTime::max()`, in nanoseconds. -/
def timeMax : Int := 2 ^ 63 - 1

/-- `std::chrono::milliseconds::max()`. -/
def msMax : Int := 2 ^ 63 - 1

/-- `duration_cast<milliseconds>` rounds towards zero. -/
def durationMs (ns : Int) : Int := ns.tdiv nsPerMs

/-- The request is not yet expired: its remaining duration is not zero when rounded. -/
def live (now endTime : Int) : Bool := 0 < durationMs (endTime - now)

theorem live_iff {now e : Int} : live now e = true ↔ nsPerMs ≤ e - now := by
  unfold live durationMs nsPerMs
  rw [decide_eq_true_eq]
  rcases le_total 0 (e - now) with h | h
  · rw [Int.tdiv_eq_ediv_of_nonneg h]
    omega
  · obtain ⟨k, hk⟩ : ∃ k : Int, e - now = -k := ⟨now - e, by ring⟩
    rw [hk, Int.neg_tdiv, Int.tdiv_eq_ediv_of_nonneg (by omega)]
    omega

theorem durationMs_le {now e : Int} (h : live now e = true) :
    durationMs (e - now) * nsPerMs ≤ e - now := by
  have hle := live_iff.mp h
  unfold durationMs nsPerMs at *
  rw [Int.tdiv_eq_ediv_of_nonneg (by omega)]
  omega

theorem live_mono {now a b : Int} (hab : a ≤ b) (ha : live now a = true) : live now b = true := by
  rw [live_iff] at *
  omega

theorem live_of_later {now now' e : Int} (hle : now ≤ now') (h : live now' e = true) :
    live now e = true := by
  rw [live_iff] at *
  omega

/-! ## Request groups -/

/-- `RequestGroup`: a value and the end times of the hints that request it. -/
structure RequestGroup where
  requestValue : String
  requestMap : Deadlines String Int

namespace RequestGroup

def addRequest (hint : String) (endTime : Int) (g : RequestGroup) : RequestGroup :=
  { g with requestMap := g.requestMap.extend hint endTime }

def removeRequest (hint : String) (g : RequestGroup) : RequestGroup :=
  { g with requestMap := g.requestMap.erase hint }

def requests (now : Int) (g : RequestGroup) : String → Option Int := g.requestMap.view (live now)

/-- The group without its expired requests, whether there are others, and the shortest of their
remaining durations. -/
def getExpireTime (now : Int) (g : RequestGroup) : RequestGroup × Bool × Int :=
  let kept := g.requestMap.purge (live now)
  ({ g with requestMap := kept }, !kept.entries.isEmpty,
    kept.least (fun e => durationMs (e - now)) msMax)

def frame (g : RequestGroup) : RequestGroup := { g with requestMap := ∅ }

end RequestGroup

/-! ## Nodes -/

/-- A node is a `FileNode` or a `PropertyNode`. -/
inductive NodeKind where
  | file (holdFd : Bool)
  | property
deriving DecidableEq, Repr

structure Node where
  name : String
  nodePath : String
  kind : NodeKind
  reqSorted : List RequestGroup
  defaultValIndex : Nat
  resetOnInit : Bool
  currentValIndex : Nat
  /-- `fd_` of a file node, when it is open. -/
  fd : Option Nat

/-- What the system answers during one `Update`. -/
structure NodeIo where
  openFd : Option Nat
  /-- `WriteStringToFd` succeeds. -/
  writeOk : Bool
  setOk : Bool

/-- `Update` leaves the node, a value that was written, and the timeout. -/
structure Updated where
  node : Node
  written : Option String
  expireTime : Int

/-- The loop of `Update`: the groups after it, the position of the first one with a live request,
and its expire time. Groups behind that one are not looked at. -/
def scanGroups (now : Int) : List RequestGroup → List RequestGroup × Option Nat × Int
  | [] => ([], none, msMax)
  | g :: gs =>
    let r := g.getExpireTime now
    if r.2.1 then
      (r.1 :: gs, some 0, r.2.2)
    else
      let q := scanGroups now gs
      (r.1 :: q.1, q.2.1.map (· + 1), q.2.2)

/-- The end time of a hint after a request: the later one, if there is a live one already. -/
def extended (now e : Int) (old : Option Int) : Option Int :=
  (some ((old.map (max · e)).getD e)).filter (live now)

variable (now : Int)

theorem RequestGroup.addRequest_requests (hint : String) (e : Int) (g : RequestGroup)
    (hint' : String) :
    (g.addRequest hint e).requests now hint' =
      if hint' = hint then extended now e (g.requests now hint') else g.requests now hint' := by
  split
  · next h =>
    subst h
    exact view_extend (fun _ _ => live_mono) hint' e g.requestMap
  · next h => exact view_extend_ne h e g.requestMap

theorem RequestGroup.removeRequest_requests (hint : String) (g : RequestGroup) (hint' : String) :
    (g.removeRequest hint).requests now hint' =
      if hint' = hint then none else g.requests now hint' := by
  split
  · next h =>
    subst h
    exact view_erase hint' g.requestMap
  · next h => exact view_erase_ne h g.requestMap

variable (now : Int)

/-- The live requests in a list of groups, by the position of the group. -/
def groupRequests (gs : List RequestGroup) (v : Nat) (hint : String) : Option Int :=
  (gs[v]?).bind (·.requests now hint)

namespace Node

/-- Without bounds for `valueIndex` nothing is added; the result says so. -/
def addRequest (valueIndex : Nat) (hint : String) (endTime : Int) (n : Node) : Node × Bool :=
  if valueIndex ≥ n.reqSorted.length then
    (n, false)
  else
    ({ n with reqSorted := n.reqSorted.modify valueIndex (·.addRequest hint endTime) }, true)

def removeRequest (hint : String) (n : Node) : Node :=
  { n with reqSorted := n.reqSorted.map (·.removeRequest hint) }

/-- `value_index` as the loop leaves it. -/
def valueIndex (n : Node) : Nat :=
  (scanGroups now n.reqSorted).2.1.getD n.defaultValIndex

def reqValue (i : Nat) (n : Node) : String :=
  ((n.reqSorted[i]?).map RequestGroup.requestValue).getD ""

/-- The node as the loop leaves it, and `expire_time`. -/
def scanned (n : Node) : Node := { n with reqSorted := (scanGroups now n.reqSorted).1 }

def expireTime (n : Node) : Int := (scanGroups now n.reqSorted).2.2

/-- The value changes, or the node is to be reset. -/
def needsWrite (n : Node) : Bool :=
  n.valueIndex now != n.currentValIndex || n.resetOnInit

/-- `FileNode::Update`. The file is opened anew for every write; a node that holds its descriptor
keeps it open until the default value has been written. -/
def fileUpdate (holdFd : Bool) (now : Int) (io : NodeIo) (n : Node) : Updated :=
  if n.needsWrite now then
    if io.openFd = none ∨ io.writeOk = false then
      -- retry in 500 ms or sooner
      ⟨{ n.scanned now with fd := io.openFd }, none, min (n.expireTime now) 500⟩
    else
      ⟨{ n.scanned now with
          fd := if holdFd = false ∨ n.valueIndex now = n.defaultValIndex then none else io.openFd
          currentValIndex := n.valueIndex now
          resetOnInit := false }, some (n.reqValue (n.valueIndex now)), n.expireTime now⟩
  else
    ⟨n.scanned now, none, n.expireTime now⟩

/-- `PropertyNode::Update`. A failure does not shorten the timeout. -/
def propertyUpdate (io : NodeIo) (n : Node) : Updated :=
  if n.needsWrite now then
    if io.setOk = false then
      ⟨n.scanned now, none, n.expireTime now⟩
    else
      ⟨{ n.scanned now with currentValIndex := n.valueIndex now, resetOnInit := false },
        some (n.reqValue (n.valueIndex now)), n.expireTime now⟩
  else
    ⟨n.scanned now, none, n.expireTime now⟩

def update (io : NodeIo) (n : Node) : Updated :=
  match n.kind with
  | .file holdFd => n.fileUpdate holdFd now io
  | .property => n.propertyUpdate now io

def requests (n : Node) : Nat → String → Option Int := groupRequests now n.reqSorted

end Node

/-! ## What the scan finds -/

/-- `i` is the smallest index with the property `P`, or `d` if there is none. -/
def FirstOr (P : Nat → Prop) (d i : Nat) : Prop :=
  (P i ∧ ∀ j < i, ¬ P j) ∨ ((∀ j, ¬ P j) ∧ i = d)

theorem FirstOr.unique {P : Nat → Prop} {d i j : Nat} (hi : FirstOr P d i) (hj : FirstOr P d j) :
    i = j := by
  rcases hi with ⟨hPi, hlti⟩ | ⟨hnone, rfl⟩
  · rcases hj with ⟨hPj, hltj⟩ | ⟨hnone, -⟩
    · exact le_antisymm (not_lt.mp fun h => hlti j h hPj) (not_lt.mp fun h => hltj i h hPi)
    · exact absurd hPi (hnone i)
  · rcases hj with ⟨hPj, -⟩ | ⟨-, rfl⟩
    · exact absurd hPj (hnone j)
    · rfl

/-- `t` is the shortest remaining duration of the requests, and the largest duration if there are
none. -/
structure IsExpireTime (now : Int) (requests : String → Option Int) (t : Int) : Prop where
  le_max : t ≤ msMax
  le : ∀ hint e, requests hint = some e → t ≤ durationMs (e - now)
  attained : t = msMax ∨ ∃ hint e, requests hint = some e ∧ t = durationMs (e - now)

theorem IsExpireTime.unique {now : Int} {requests : String → Option Int} {t t' : Int}
    (h : IsExpireTime now requests t) (h' : IsExpireTime now requests t') : t = t' := by
  have hle : ∀ {t t'}, IsExpireTime now requests t → IsExpireTime now requests t' → t ≤ t' := by
    intro t t' h h'
    rcases h'.attained with rfl | ⟨hint, e, he, rfl⟩
    · exact h.le_max
    · exact h.le hint e he
  exact le_antisymm (hle h h') (hle h' h)

variable (g : RequestGroup) (gs : List RequestGroup)

theorem RequestGroup.getExpireTime_requests :
    (g.getExpireTime now).1.requests now = g.requests now :=
  funext fun hint => view_purge g.requestMap hint

theorem RequestGroup.getExpireTime_active :
    (g.getExpireTime now).2.1 = true ↔ ∃ hint e, g.requests now hint = some e := by
  have hempty := purge_isEmpty (live now) g.requestMap
  simp only [getExpireTime, Bool.not_eq_true', Bool.eq_false_iff, ne_eq, hempty, not_forall]
  exact exists_congr fun hint => Option.ne_none_iff_exists'

theorem RequestGroup.getExpireTime_time :
    IsExpireTime now (g.requests now) (g.getExpireTime now).2.2 := by
  have hlook := lookup_purge (live now) g.requestMap
  refine ⟨?_, fun hint e he => ?_, ?_⟩
  · exact least_le_cap (fun e => durationMs (e - now)) msMax (g.requestMap.purge (live now))
  · exact least_le (fun e => durationMs (e - now)) msMax ((hlook hint).trans he)
  · rcases least_mem (fun e => durationMs (e - now)) msMax (g.requestMap.purge (live now)) with
      h | ⟨hint, e, he, h⟩
    · exact .inl h
    · exact .inr ⟨hint, e, (hlook hint).symm.trans he, h⟩

theorem scanGroups_requests : groupRequests now (scanGroups now gs).1 = groupRequests now gs := by
  induction gs with
  | nil => rfl
  | cons g gs ih =>
    unfold scanGroups
    dsimp only
    split
    · funext v
      cases v with
      | zero => exact g.getExpireTime_requests now
      | succ v => rfl
    · funext v
      cases v with
      | zero => exact g.getExpireTime_requests now
      | succ v => exact congrFun ih v

theorem scanGroups_frame :
    (scanGroups now gs).1.map RequestGroup.frame = gs.map RequestGroup.frame := by
  induction gs with
  | nil => rfl
  | cons g gs ih =>
    unfold scanGroups
    dsimp only
    split
    · rfl
    · rw [map_cons, ih]
      rfl

theorem scanGroups_spec :
    (∃ i, (scanGroups now gs).2.1 = some i ∧
        (∃ hint e, groupRequests now gs i hint = some e) ∧
        (∀ j < i, ∀ hint, groupRequests now gs j hint = none) ∧
        IsExpireTime now (groupRequests now gs i) (scanGroups now gs).2.2) ∨
      ((scanGroups now gs).2.1 = none ∧ (∀ j hint, groupRequests now gs j hint = none) ∧
        (scanGroups now gs).2.2 = msMax) := by
  induction gs with
  | nil => exact .inr ⟨rfl, fun _ _ => rfl, rfl⟩
  | cons g gs ih =>
    have hactive := g.getExpireTime_active now
    unfold scanGroups
    dsimp only
    split
    · next h =>
      exact .inl ⟨0, rfl, hactive.mp h, fun j hj => absurd hj (Nat.not_lt_zero j),
        g.getExpireTime_time now⟩
    · next h =>
      have hnone : ∀ hint, g.requests now hint = none := by
        intro hint
        by_contra hsome
        exact h (hactive.mpr ⟨hint, Option.ne_none_iff_exists'.mp hsome⟩)
      rcases ih with ⟨i, hi, hreq, hbefore, htime⟩ | ⟨hi, hall, htime⟩
      · refine .inl ⟨i + 1, by simp [hi], hreq, fun j hj => ?_, htime⟩
        cases j with
        | zero => exact hnone
        | succ j => exact hbefore j (Nat.lt_of_succ_lt_succ hj)
      · refine .inr ⟨by simp [hi], fun j => ?_, htime⟩
        cases j with
        | zero => exact hnone
        | succ j => exact hall j

namespace Node

/-- A hint wants the value `v`. -/
def Wanted (n : Node) (v : Nat) : Prop := ∃ hint e, n.requests now v hint = some e

variable (now : Int)

theorem valueIndex_first (n : Node) :
    FirstOr (n.Wanted now) n.defaultValIndex (n.valueIndex now) := by
  unfold valueIndex
  rcases scanGroups_spec now n.reqSorted with ⟨i, hi, hreq, hbefore, -⟩ | ⟨hi, hall, -⟩
  · rw [hi]
    refine .inl ⟨hreq, fun j hj => ?_⟩
    rintro ⟨hint, e, he⟩
    rw [requests, hbefore j hj] at he
    cases he
  · rw [hi]
    refine .inr ⟨fun j => ?_, rfl⟩
    rintro ⟨hint, e, he⟩
    rw [requests, hall j] at he
    cases he

theorem expireTime_spec (n : Node) :
    IsExpireTime now (n.requests now (n.valueIndex now)) (n.expireTime now) := by
  unfold valueIndex expireTime
  rcases scanGroups_spec now n.reqSorted with ⟨i, hi, -, -, htime⟩ | ⟨-, hall, htime⟩
  · rw [hi]
    exact htime
  · rw [htime]
    refine ⟨le_rfl, fun hint e he => ?_, .inl rfl⟩
    rw [requests, hall] at he
    cases he

/-! ## Update -/

def WriteSucceeds (now : Int) (io : NodeIo) (n : Node) : Prop :=
  n.needsWrite now = true →
    match n.kind with
    | .file _ => io.openFd ≠ none ∧ io.writeOk = true
    | .property => io.setOk = true

def frame (n : Node) : Node :=
  { n with
    reqSorted := n.reqSorted.map RequestGroup.frame
    resetOnInit := false
    currentValIndex := 0
    fd := none }

variable {n : Node}

theorem frame_setGroups {gs : List RequestGroup}
    (h : gs.map RequestGroup.frame = n.reqSorted.map RequestGroup.frame) :
    { n with reqSorted := gs }.frame = n.frame := by
  simp [frame, h]

theorem frame_default {m : Node} (h : n.frame = m.frame) :
    n.defaultValIndex = m.defaultValIndex := by
  have hdef := congrArg (fun n : Node => n.defaultValIndex) h
  exact hdef

theorem frame_kind {m : Node} (h : n.frame = m.frame) : n.kind = m.kind := by
  have hkind := congrArg (fun n : Node => n.kind) h
  exact hkind

theorem valueIndex_of_not_needsWrite {now : Int} (h : ¬ n.needsWrite now = true) :
    n.currentValIndex = n.valueIndex now := by
  simp only [needsWrite, Bool.or_eq_true, bne_iff_ne, not_or, not_not] at h
  exact h.1.symm

/-- What `Update` of either kind does: it has nothing to write, or fails to write, or writes. -/
theorem update_cases (io : NodeIo) (n : Node) :
    (¬ n.needsWrite now = true ∧ n.update now io = ⟨n.scanned now, none, n.expireTime now⟩) ∨
      (¬ n.WriteSucceeds now io ∧ ∃ fd, ∃ timeout ≤ n.expireTime now,
        n.update now io = ⟨{ n.scanned now with fd := fd }, none, timeout⟩) ∨
      ∃ fd, n.update now io = ⟨{ n.scanned now with
            fd := fd
            currentValIndex := n.valueIndex now
            resetOnInit := false }, some (n.reqValue (n.valueIndex now)), n.expireTime now⟩ := by
  unfold update WriteSucceeds
  cases n.kind with
  | file holdFd =>
    unfold fileUpdate
    dsimp only
    split
    · next hneeds =>
      split
      · next hfail =>
        refine .inr (.inl ⟨fun hok => ?_, io.openFd, _, min_le_left _ _, rfl⟩)
        rcases hfail with hopen | hwrite
        · exact (hok hneeds).1 hopen
        · exact absurd (hok hneeds).2 (by simp [hwrite])
      · exact .inr (.inr ⟨_, rfl⟩)
    · next hneeds => exact .inl ⟨hneeds, rfl⟩
  | property =>
    unfold propertyUpdate
    dsimp only
    split
    · next hneeds =>
      split
      · next hfail =>
        -- the timeout stays that of the group
        refine .inr (.inl ⟨fun hok => ?_, n.fd, _, le_rfl, rfl⟩)
        exact absurd (hok hneeds) (by simp [hfail])
      · exact .inr (.inr ⟨n.fd, rfl⟩)
    · next hneeds => exact .inl ⟨hneeds, rfl⟩

/-- `Update` keeps the live requests, and its timeout is at most that of the selected group. If the
node is written, the timeout is that of the group and the current value is the selected one. -/
theorem update_spec (io : NodeIo) (n : Node) :
    (n.update now io).node.frame = n.frame ∧
      (n.update now io).node.requests now = n.requests now ∧
      (n.update now io).expireTime ≤ n.expireTime now ∧
      (n.WriteSucceeds now io →
        (n.update now io).expireTime = n.expireTime now ∧
          (n.update now io).node.currentValIndex = n.valueIndex now) := by
  have hframe : (n.scanned now).frame = n.frame :=
    frame_setGroups (scanGroups_frame now n.reqSorted)
  have hreq := scanGroups_requests now n.reqSorted
  rcases n.update_cases now io with ⟨hsame, hu⟩ | ⟨hfails, fd, timeout, hle, hu⟩ | ⟨fd, hu⟩
  · rw [hu]
    exact ⟨hframe, hreq, le_rfl, fun _ => ⟨rfl, valueIndex_of_not_needsWrite hsame⟩⟩
  · rw [hu]
    exact ⟨hframe, hreq, hle, fun hok => absurd hok hfails⟩
  · rw [hu]
    exact ⟨hframe, hreq, le_rfl, fun _ => ⟨rfl, rfl⟩⟩

/-! ## Requests -/

theorem addRequest_frame (v : Nat) (hint : String) (e : Int) (n : Node) :
    (n.addRequest v hint e).1.frame = n.frame := by
  unfold addRequest
  split
  · rfl
  · refine frame_setGroups (ext_getElem? fun i => ?_)
    simp only [getElem?_map, getElem?_modify]
    split <;> cases n.reqSorted[i]? <;> rfl

theorem addRequest_requests (v : Nat) (hint : String) (e : Int) (n : Node) (v' : Nat)
    (hint' : String) :
    (n.addRequest v hint e).1.requests now v' hint' =
      if v' = v ∧ hint' = hint ∧ v < n.reqSorted.length then
        extended now e (n.requests now v' hint') else n.requests now v' hint' := by
  unfold addRequest
  split
  · next hge => rw [if_neg fun h => absurd h.2.2 (not_lt.mpr hge)]
  · next hlt =>
    rw [ge_iff_le, not_le] at hlt
    simp only [requests, groupRequests, getElem?_modify]
    by_cases hv : v' = v
    · subst hv
      simp [hlt, RequestGroup.addRequest_requests]
    · simp [hv, Ne.symm hv]

theorem removeRequest_frame (hint : String) (n : Node) :
    (n.removeRequest hint).frame = n.frame := by
  refine frame_setGroups ?_
  rw [map_map]
  rfl

theorem removeRequest_requests (hint : String) (n : Node) (v : Nat) (hint' : String) :
    (n.removeRequest hint).requests now v hint' =
      if hint' = hint then none else n.requests now v hint' := by
  simp only [removeRequest, requests, groupRequests, getElem?_map]
  cases n.reqSorted[v]? with
  | none => simp
  | some g => exact g.removeRequest_requests now hint hint'

theorem requests_live {now : Int} {v : Nat} {hint : String} {e : Int}
    (h : n.requests now v hint = some e) : live now e = true := by
  obtain ⟨g, -, hg⟩ := Option.bind_eq_some_iff.mp h
  exact (view_eq_some.mp hg).2

theorem requests_later {now now' : Int} (hle : now ≤ now') (n : Node) (v : Nat) (hint : String) :
    n.requests now' v hint = (n.requests now v hint).filter (live now') := by
  simp only [requests, groupRequests]
  cases n.reqSorted[v]? with
  | none => rfl
  | some g => exact view_later (fun _ => live_of_later hle) g.requestMap hint

end Node

end AmlogicHal.PerfMgr
