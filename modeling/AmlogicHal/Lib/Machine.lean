import Mathlib.Data.List.Basic

/-!
# Machines and their runs

A component is a machine: one input takes the state to the next one and shows an output. The inputs
carry everything the component does not decide itself (arguments, the answers of the operating
system, the clock), so a run is a list of inputs.

* `Machine.Run`: the runs from a start state, with the history they leave and a guard that every
  step has to meet.
* `Run.invariant`, `exec_invariant`: the induction over a run, and over one that is given by its
  inputs.
* `Machine.Always`: a property of every step of a run that is given by its inputs.
* `always_of_invariant`, `Always.of_invariant`: what every step from a state of an invariant has,
  every run has; the second one for the runs whose steps meet a guard.
* `always_congr`, `Always.congr`: two step properties that agree wherever an invariant holds agree
  on whole runs.
* `exec_isChain`: what any two steps in a row have, all neighbours in a history have.
* `exec_simulation`: a relation that every step keeps relates two machines on every list of inputs.
* `Machine.both`: two machines side by side, for a property that compares them at every step.
* `Machine.recorded`: the machine that keeps its own history, for step properties that read it;
  `recorded_always` is for those that do not.
* `total`: what the outputs of a history come to; `total_snoc_iff` is the step of a conservation
  law.
-/

namespace AmlogicHal

open List

/-- One input takes the state to the next state and shows an output. -/
structure Machine (σ ε ω : Type) where
  step : σ → ε → σ × ω

namespace Machine

variable {σ ε ω : Type}

/-- `Run m C s₀ h s`: from `s₀` the machine can reach `s` with the history `h` (each input with
its output, oldest first), and every step was taken in a state and on an input that meet `C`. -/
inductive Run (m : Machine σ ε ω) (C : σ → ε → Prop) (s₀ : σ) : List (ε × ω) → σ → Prop
  | start : Run m C s₀ [] s₀
  | step {h : List (ε × ω)} {s : σ} (e : ε) : Run m C s₀ h s → C s e →
      Run m C s₀ (h ++ [(e, (m.step s e).2)]) (m.step s e).1

/-- The history and the last state of a run that is given by its inputs. -/
def exec (m : Machine σ ε ω) (s : σ) : List ε → List (ε × ω) × σ
  | [] => ([], s)
  | e :: es =>
    let r := m.exec (m.step s e).1 es
    ((e, (m.step s e).2) :: r.1, r.2)

def Always (m : Machine σ ε ω) (P : σ → ε → Prop) : σ → List ε → Prop
  | _, [] => True
  | s, e :: es => P s e ∧ m.Always P (m.step s e).1 es

instance (m : Machine σ ε ω) (P : σ → ε → Prop) [∀ s e, Decidable (P s e)] :
    ∀ (s : σ) (es : List ε), Decidable (m.Always P s es)
  | _, [] => .isTrue trivial
  | s, e :: es =>
    have := instDecidableAlways m P (m.step s e).1 es
    inferInstanceAs (Decidable (P s e ∧ m.Always P (m.step s e).1 es))

variable {m : Machine σ ε ω} {C : σ → ε → Prop} {s₀ s : σ} {h : List (ε × ω)} {Q P : σ → ε → Prop}
  {I : σ → Prop}

theorem Run.invariant (I : List (ε × ω) → σ → Prop) (hr : m.Run C s₀ h s) (h0 : I [] s₀)
    (hstep : ∀ h s e, I h s → C s e → I (h ++ [(e, (m.step s e).2)]) (m.step s e).1) :
    I h s := by
  induction hr with
  | start => exact h0
  | step e _ hc ih => exact hstep _ _ e ih hc

theorem Run.mono {D : σ → ε → Prop} (hr : m.Run C s₀ h s) (hCD : ∀ s e, C s e → D s e) :
    m.Run D s₀ h s := by
  induction hr with
  | start => exact .start
  | step e _ hc ih => exact .step e ih (hCD _ _ hc)

theorem Run.restrict {Q : ε → Prop} (hr : m.Run C s₀ h s) (hQ : ∀ x ∈ h, Q x.1) :
    m.Run (fun s e => C s e ∧ Q e) s₀ h s := by
  induction hr with
  | start => exact .start
  | step e _ hc ih =>
    exact .step e (ih fun x hx => hQ x (mem_append_left _ hx))
      ⟨hc, hQ (e, _) (mem_append_right _ (mem_singleton_self _))⟩

theorem Run.append_exec (hr : m.Run C s₀ h s) :
    ∀ es : List ε, m.Always C s es → m.Run C s₀ (h ++ (m.exec s es).1) (m.exec s es).2 := by
  intro es
  induction es generalizing h s with
  | nil =>
    intro _
    simpa [exec] using hr
  | cons e es ih =>
    intro hall
    have hnext := ih (hr.step e hall.1) hall.2
    simpa [exec] using hnext

theorem run_exec (es : List ε) (hall : m.Always C s es) :
    m.Run C s (m.exec s es).1 (m.exec s es).2 := by
  simpa using (Run.start : m.Run C s [] s).append_exec es hall

theorem Always.mono (hPQ : ∀ s e, P s e → Q s e) :
    ∀ {es : List ε} {s : σ}, m.Always P s es → m.Always Q s es
  | [], _, _ => trivial
  | _ :: _, _, ⟨hp, hrest⟩ => ⟨hPQ _ _ hp, hrest.mono hPQ⟩

theorem always_iff_forall_mem {Q : ε → Prop} :
    ∀ {es : List ε} {s : σ}, m.Always (fun _ e => Q e) s es ↔ ∀ e ∈ es, Q e
  | [], _ => by simp [Always]
  | _ :: _, _ => by rw [forall_mem_cons, Always, always_iff_forall_mem]

theorem always_of_mem {Q : ε → Prop} {es : List ε} (h : ∀ e ∈ es, Q e) :
    m.Always (fun _ e => Q e) s es :=
  always_iff_forall_mem.mpr h

theorem always_and :
    ∀ {es : List ε} {s : σ}, m.Always (fun s e => P s e ∧ Q s e) s es ↔
      m.Always P s es ∧ m.Always Q s es
  | [], _ => ⟨fun _ => ⟨trivial, trivial⟩, fun _ => trivial⟩
  | _ :: _, _ => (and_congr_right fun _ => always_and).trans and_and_and_comm

theorem always_of_invariant (hP : ∀ s e, I s → P s e) (hkeep : ∀ s e, I s → I (m.step s e).1) :
    ∀ (es : List ε) (s : σ), I s → m.Always P s es := by
  intro es
  induction es with
  | nil => intro s _; exact trivial
  | cons e es ih => intro s hi; exact ⟨hP s e hi, ih _ (hkeep s e hi)⟩

theorem Always.of_invariant
    (hstep : ∀ s e, I s → C s e → P s e ∧ I (m.step s e).1) :
    ∀ {es : List ε} {s : σ}, I s → m.Always C s es → m.Always P s es
  | [], _, _, _ => trivial
  | _ :: _, _, hi, ⟨hc, hrest⟩ =>
    ⟨(hstep _ _ hi hc).1, Always.of_invariant hstep (hstep _ _ hi hc).2 hrest⟩

theorem always_congr (hiff : ∀ s e, I s → (P s e ↔ Q s e))
    (hkeep : ∀ s e, I s → P s e → I (m.step s e).1) :
    ∀ (es : List ε) (s : σ), I s → (m.Always P s es ↔ m.Always Q s es) := by
  intro es
  induction es with
  | nil => intro s _; exact Iff.rfl
  | cons e es ih =>
    intro s hi
    constructor
    · rintro ⟨hp, hrest⟩
      exact ⟨(hiff s e hi).mp hp, (ih _ (hkeep s e hi hp)).mp hrest⟩
    · rintro ⟨hq, hrest⟩
      have hp := (hiff s e hi).mpr hq
      exact ⟨hp, (ih _ (hkeep s e hi hp)).mpr hrest⟩

theorem Always.congr (hiff : ∀ s e, I s → C s e → (P s e ↔ Q s e))
    (hkeep : ∀ s e, I s → C s e → P s e → I (m.step s e).1) {es : List ε} (hi : I s)
    (hc : m.Always C s es) : m.Always P s es ↔ m.Always Q s es := by
  have hguarded := always_congr (fun s e hi => and_congr_right fun hc => hiff s e hi hc)
    (fun s e hi hcp => hkeep s e hi hcp.1 hcp.2) es s hi
  rwa [always_and, always_and, and_iff_right hc, and_iff_right hc] at hguarded

theorem exec_append (m : Machine σ ε ω) (s : σ) (xs ys : List ε) :
    (m.exec s (xs ++ ys)).2 = (m.exec (m.exec s xs).2 ys).2 := by
  induction xs generalizing s with
  | nil => rfl
  | cons x xs ih => exact ih _

theorem exec_invariant (es : List ε) (hstep : ∀ e ∈ es, ∀ s, I s → I (m.step s e).1) :
    ∀ {s : σ}, I s → I (m.exec s es).2 := by
  induction es with
  | nil => exact fun h => h
  | cons e es ih =>
    exact fun h => ih (fun e' he' => hstep e' (mem_cons_of_mem _ he')) (hstep e mem_cons_self _ h)

theorem exec_isChain {R : ε × ω → ε × ω → Prop}
    (hstep : ∀ s e e', R (e, (m.step s e).2) (e', (m.step (m.step s e).1 e').2)) :
    ∀ (es : List ε) (s : σ), (m.exec s es).1.IsChain R
  | [], _ => .nil
  | [e], s => .singleton (e, (m.step s e).2)
  | e :: e' :: es, s => .cons_cons (hstep s e e') (exec_isChain hstep (e' :: es) (m.step s e).1)

theorem exec_simulation {σ' ω' : Type} {m' : Machine σ' ε ω'} {R : σ → σ' → Prop}
    (hstep : ∀ s t e, R s t → R (m.step s e).1 (m'.step t e).1) :
    ∀ (es : List ε) {s : σ} {t : σ'}, R s t → R (m.exec s es).2 (m'.exec t es).2 := by
  intro es
  induction es with
  | nil => exact fun h => h
  | cons e es ih => exact fun h => ih (hstep _ _ e h)

def both {σ' ω' : Type} (m : Machine σ ε ω) (m' : Machine σ' ε ω') :
    Machine (σ × σ') ε (ω × ω') where
  step s e := (((m.step s.1 e).1, (m'.step s.2 e).1), ((m.step s.1 e).2, (m'.step s.2 e).2))

theorem both_always {σ' ω' : Type} {m' : Machine σ' ε ω'} :
    ∀ {es : List ε} {s : σ} {t : σ'}, (m.both m').Always (fun s e => P s.1 e) (s, t) es ↔
      m.Always P s es
  | [], _, _ => Iff.rfl
  | _ :: _, _, _ => and_congr_right fun _ => both_always

def recorded (m : Machine σ ε ω) : Machine (σ × List (ε × ω)) ε ω where
  step s e := (((m.step s.1 e).1, s.2 ++ [(e, (m.step s.1 e).2)]), (m.step s.1 e).2)

theorem recorded_always : ∀ {es : List ε} {s : σ} {h : List (ε × ω)},
    m.recorded.Always (fun s e => P s.1 e) (s, h) es ↔ m.Always P s es
  | [], _, _ => Iff.rfl
  | _ :: _, _, _ => and_congr_right fun _ => recorded_always

/-- The data that a history shows under `f`, oldest first. -/
def total {α : Type} (f : ω → List α) (h : List (ε × ω)) : List α := h.flatMap fun x => f x.2

theorem total_snoc {α : Type} (f : ω → List α) (h : List (ε × ω)) (x : ε × ω) :
    total f (h ++ [x]) = total f h ++ f x.2 := by
  simp [total]

/-- If all that went in has come out or is kept, this is so after one more step exactly if the step
gives out or keeps what was kept and what it takes in. -/
theorem total_snoc_iff {α : Type} {into out : ω → List α} {x : ε × ω} {kept kept' : List α}
    (hbefore : total out h ++ kept = total into h) :
    total out (h ++ [x]) ++ kept' = total into (h ++ [x]) ↔
    out x.2 ++ kept' = kept ++ into x.2 := by
  rw [total_snoc, total_snoc, ← hbefore, append_assoc, append_assoc, append_cancel_left_eq]

end Machine

end AmlogicHal
