import AmlogicHal.PerfMgr.Refinement

/-!
# Ended hints leave no trace

While a hint is active it changes which groups the scans of the nodes come to, and with it which
expired requests of the other hints are dropped, so afterwards the nodes may differ from those of a
run without the hint. The specification does not: there the hints do not touch each other's requests
(`Agree`), and an ended hint has none (`Cleared`). So both runs refine the same specification state,
and every update computes the same (`endHint_noninterference`).
-/

namespace AmlogicHal.PerfMgr

def PerfCall.isOf (hint : String) : PerfCall → Bool
  | .doHint h _ => h == hint
  | .endHint h => h == hint
  | .advance _ | .update _ _ => false

/-! ## Hints do not touch each other -/

/-- The two states agree but for the requests of `hint`. -/
structure HintSpec.Agree (hint : String) (σ τ : HintSpec) : Prop where
  now : σ.now = τ.now
  ends : ∀ k v h, h ≠ hint → σ.ends k v h = τ.ends k v h

open HintSpec List

namespace HintSpec.Agree

variable {hint : String} {σ τ : HintSpec}

section

variable (h : Agree hint σ τ)
include h

theorem request (other : String) (a : NodeAction) :
    Agree hint (σ.request other a) (τ.request other a) :=
  ⟨h.now, fun k v g hg => by simp only [HintSpec.request, h.ends k v g hg, h.now]⟩

theorem cancel (other : String) (a : NodeAction) :
    Agree hint (σ.cancel other a) (τ.cancel other a) :=
  ⟨h.now, fun k v g hg => by simp only [HintSpec.cancel, h.ends k v g hg]⟩

theorem request_left (a : NodeAction) : Agree hint (σ.request hint a) τ :=
  ⟨h.now, fun k v g hg => by simp [HintSpec.request, hg, h.ends k v g hg]⟩

theorem cancel_left (a : NodeAction) : Agree hint (σ.cancel hint a) τ :=
  ⟨h.now, fun k v g hg => by simp [HintSpec.cancel, hg, h.ends k v g hg]⟩

theorem step (m : HintManager) (e : PerfCall) : Agree hint (specStep m σ e) (specStep m τ e) := by
  cases e with
  | doHint other t => exact foldl_rel h fun a _ _ _ hr => hr.request other a
  | endHint other => exact foldl_rel h fun a _ _ _ hr => hr.cancel other a
  | advance ns =>
    exact ⟨by simp [specStep, advance, h.now],
      fun k v g hg => by simp only [specStep, advance, h.ends k v g hg, h.now]⟩
  | update k io => exact h

theorem step_left (m : HintManager) {e : PerfCall} (he : e.isOf hint = true) :
    Agree hint (specStep m σ e) τ := by
  cases e with
  | doHint other t =>
    obtain rfl : other = hint := by simpa [PerfCall.isOf] using he
    exact foldlRecOn (motive := fun σ => Agree other σ τ) _ _ h fun _ hr a _ => hr.request_left a
  | endHint other =>
    obtain rfl : other = hint := by simpa [PerfCall.isOf] using he
    exact foldlRecOn (motive := fun σ => Agree other σ τ) _ _ h fun _ hr a _ => hr.cancel_left a
  | advance ns => cases he
  | update k io => cases he

end

theorem exec (m : HintManager) (es : List PerfCall) (h : Agree hint σ τ) :
    Agree hint ((specMachine m).exec σ es).2
      ((specMachine m).exec τ (es.filter fun e => !e.isOf hint)).2 := by
  induction es generalizing σ τ with
  | nil => exact h
  | cons e es ih =>
    cases he : e.isOf hint with
    | true =>
      rw [filter_cons_of_neg (by simp [he])]
      exact ih (h.step_left m he)
    | false =>
      rw [filter_cons_of_pos (by simp [he])]
      exact ih (h.step m e)

end HintSpec.Agree

/-! ## An ended hint has no requests -/

def HintSpec.Cleared (hint : String) (σ : HintSpec) : Prop := ∀ k v, σ.ends k v hint = none

def HintSpec.Owned (m : HintManager) (hint : String) (σ : HintSpec) : Prop :=
  ∀ k v e, σ.ends k v hint = some e → m.ActsOn hint k

theorem HintManager.requested_node {m : HintManager} {hint : String} {t : Option Int}
    {a : NodeAction} (ha : a ∈ m.requested hint t) :
    m.ActsOn hint a.nodeIndex := by
  obtain ⟨b, hb, rfl⟩ := mem_map.mp (mem_filter.mp ha).1
  exact ⟨b, hb, rfl⟩

section Ended

variable {m : HintManager} {hint : String} {σ : HintSpec}

theorem HintSpec.Owned.step (h : σ.Owned m hint) (e : PerfCall) :
    (specStep m σ e).Owned m hint := by
  cases e with
  | doHint other t =>
    refine foldlRecOn (motive := fun σ : HintSpec => σ.Owned m hint) _ _ h
      fun σ hr a ha k v e he => ?_
    simp only [request] at he
    split at he
    · next heq =>
      obtain ⟨rfl, -, rfl⟩ := heq
      exact HintManager.requested_node ha
    · exact hr k v e he
  | endHint other =>
    refine foldlRecOn (motive := fun σ : HintSpec => σ.Owned m hint) _ _ h
      fun σ hr a _ k v e he => ?_
    simp only [cancel] at he
    split at he
    · cases he
    · exact hr k v e he
  | advance ns => exact fun k v e he => h k v e (Option.filter_eq_some_iff.mp he).1
  | update k io => exact h

theorem HintSpec.Cleared.step (h : σ.Cleared hint) {e : PerfCall}
    (he : ∀ t, e ≠ .doHint hint t) : (specStep m σ e).Cleared hint := by
  cases e with
  | doHint other t =>
    have hne : hint ≠ other := fun heq => he t (by rw [heq])
    refine foldlRecOn (motive := fun σ : HintSpec => σ.Cleared hint) _ _ h fun σ hr a _ k v => ?_
    simp [request, hne, hr k v]
  | endHint other =>
    refine foldlRecOn (motive := fun σ : HintSpec => σ.Cleared hint) _ _ h fun σ hr a _ k v => ?_
    simp [cancel, hr k v]
  | advance ns => exact fun k v => by simp [specStep, advance, h k v]
  | update k io => exact h

theorem foldl_cancel (as : List NodeAction) {k v : Nat}
    (h : σ.ends k v hint = none ∨ ∃ a ∈ as, a.nodeIndex = k) :
    (as.foldl (fun σ a => σ.cancel hint a) σ).ends k v hint = none := by
  induction as generalizing σ with
  | nil => simpa using h
  | cons a as ih =>
    refine ih ?_
    by_cases hk : k = a.nodeIndex
    · exact .inl (by simp [cancel, hk])
    · rcases h with h | ⟨b, hb, hbk⟩
      · exact .inl (by simp [cancel, h])
      · rcases mem_cons.mp hb with rfl | hb
        · exact absurd hbk.symm hk
        · exact .inr ⟨b, hb, hbk⟩

theorem HintSpec.Owned.cleared (h : σ.Owned m hint) :
    (specStep m σ (.endHint hint)).Cleared hint := by
  intro k v
  refine foldl_cancel _ ?_
  cases he : σ.ends k v hint with
  | none => exact .inl rfl
  | some e => exact .inr (h k v e he)

theorem spec_noninterference (m : HintManager) (hint : String) (now : Int)
    (before after : List PerfCall) (hafter : ∀ e ∈ after, ∀ t, e ≠ .doHint hint t) :
    ((specMachine m).exec (.start now) (before ++ .endHint hint :: after)).2 =
      ((specMachine m).exec (.start now) ((before ++ .endHint hint :: after).filter fun e =>
        !e.isOf hint)).2 := by
  have hagree : Agree hint _ _ := Agree.exec m (before ++ .endHint hint :: after)
    (σ := .start now) ⟨rfl, fun _ _ _ _ => rfl⟩
  have howned : ((specMachine m).exec (.start now) before).2.Owned m hint :=
    Machine.exec_invariant before (fun e _ _ h => h.step e) fun k v e he => by cases he
  have hleft : ((specMachine m).exec (.start now) (before ++ .endHint hint :: after)).2.Cleared
      hint := by
    rw [Machine.exec_append]
    exact Machine.exec_invariant after (fun e he _ h => h.step (hafter e he)) howned.cleared
  have hright : ((specMachine m).exec (.start now)
      ((before ++ .endHint hint :: after).filter fun e => !e.isOf hint)).2.Cleared hint := by
    refine Machine.exec_invariant _ (fun e he _ h => h.step fun t heq => ?_) fun _ _ => rfl
    subst heq
    simp [PerfCall.isOf] at he
  generalize ((specMachine m).exec _ _).2 = σ at *
  generalize ((specMachine m).exec (.start now)
    ((before ++ .endHint hint :: after).filter fun e => !e.isOf hint)).2 = τ at *
  cases σ
  cases τ
  obtain ⟨hnow, hends⟩ := hagree
  congr
  funext k v h
  by_cases hh : h = hint
  · rw [hh]
    exact (hleft k v).trans (hright k v).symm
  · exact hends k v h hh

end Ended

/-! ## Updates -/

/-- What an update shows of a node depends on the specification and on what never changes. -/
theorem Refines.update_congr {m : HintManager} {s₁ s₂ : PerfState} {σ : HintSpec}
    (h₁ : Refines m s₁ σ) (h₂ : Refines m s₂ σ) (k : Nat) {io₁ io₂ : NodeIo} (hok₁ : io₁.AllOk)
    (hok₂ : io₂.AllOk) :
    (perfMachine.step s₁ (.update k io₁)).2 = (perfMachine.step s₂ (.update k io₂)).2 ∧
      ((perfMachine.step s₁ (.update k io₁)).1.manager.nodes[k]?).map Node.currentValIndex =
        ((perfMachine.step s₂ (.update k io₂)).1.manager.nodes[k]?).map Node.currentValIndex := by
  have hframe : (s₁.manager.nodes[k]?).map Node.frame = (s₂.manager.nodes[k]?).map Node.frame := by
    have hnodes := congrArg HintManager.nodes (h₁.frame.trans h₂.frame.symm)
    simpa [HintManager.frame] using congrArg (fun ns : List Node => ns[k]?) hnodes
  have hnow := h₁.now.trans h₂.now.symm
  cases hn₁ : s₁.manager.nodes[k]? with
  | none =>
    have hn₂ : s₂.manager.nodes[k]? = none := by simpa [hn₁] using hframe.symm
    simp [perfMachine, perfStep, hn₁, hn₂]
  | some n₁ =>
    rw [hn₁] at hframe
    obtain ⟨n₂, hn₂, hfr⟩ := Option.map_eq_some_iff.mp hframe.symm
    obtain ⟨hnode₁, hout₁⟩ := step_update hn₁ io₁
    obtain ⟨hnode₂, hout₂⟩ := step_update hn₂ io₂
    obtain ⟨htime₁, hcur₁⟩ := (n₁.update_spec s₁.now io₁).2.2.2 (hok₁.writeSucceeds _ _)
    obtain ⟨htime₂, hcur₂⟩ := (n₂.update_spec s₂.now io₂).2.2.2 (hok₂.writeSucceeds _ _)
    have hindex : n₁.valueIndex s₁.now = n₂.valueIndex s₂.now :=
      (h₁.valueIndex hn₁).unique (Node.frame_default hfr ▸ h₂.valueIndex hn₂)
    have htime : (n₁.update s₁.now io₁).expireTime = (n₂.update s₂.now io₂).expireTime := by
      have ht₁ := h₁.expireTime hn₁
      rw [hindex, hnow] at ht₁
      rw [htime₁, htime₂, hnow]
      exact ht₁.unique (h₂.expireTime hn₂)
    rw [hout₁, hout₂, hnode₁, hnode₂, htime]
    simp [hcur₁, hcur₂, hindex]

/-- The runs have the same calls, updates and time steps but for those for the hint, which ends and
is not given again. The write has to succeed. -/
theorem endHint_noninterference {m : HintManager} (hm : m.Fresh) (now : Int) (hint : String)
    (before after : List PerfCall) (hafter : ∀ e ∈ after, ∀ t, e ≠ .doHint hint t) (k : Nat)
    {io₁ io₂ : NodeIo} (hok₁ : io₁.AllOk) (hok₂ : io₂.AllOk) :
    let es := before ++ .endHint hint :: after
    let s₁ := (perfMachine.exec ⟨m, now⟩ es).2
    let s₂ := (perfMachine.exec ⟨m, now⟩ (es.filter fun e => !e.isOf hint)).2
    (perfMachine.step s₁ (.update k io₁)).2 = (perfMachine.step s₂ (.update k io₂)).2 ∧
      ((perfMachine.step s₁ (.update k io₁)).1.manager.nodes[k]?).map Node.currentValIndex =
        ((perfMachine.step s₂ (.update k io₂)).1.manager.nodes[k]?).map Node.currentValIndex := by
  intro es s₁ s₂
  have h₁ := perf_refines hm now es
  have h₂ := perf_refines hm now (es.filter fun e => !e.isOf hint)
  rw [← spec_noninterference m hint now before after hafter] at h₂
  exact h₁.update_congr h₂ k hok₁ hok₂

/-- The hint is given and ended again: the update is that of a manager to which nothing was
given. -/
theorem endHint_noninterference_boost :
    (perfMachine.step (perfMachine.exec ⟨boostManager, 0⟩
        [.doHint "LAUNCH" none, .advance 500000000, .endHint "LAUNCH"]).2
      (.update 0 ⟨some 3, true, true⟩)).2 =
      (perfMachine.step (perfMachine.exec ⟨boostManager, 0⟩ [.advance 500000000]).2
        (.update 0 ⟨some 3, true, true⟩)).2 := by
  have hok : NodeIo.AllOk ⟨some 3, true, true⟩ := ⟨by simp, rfl, rfl⟩
  exact (endHint_noninterference boostManager_fresh 0 "LAUNCH"
    [.doHint "LAUNCH" none, .advance 500000000] [] (by simp) 0 hok hok).1

end AmlogicHal.PerfMgr
