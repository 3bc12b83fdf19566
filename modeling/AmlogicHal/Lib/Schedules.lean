import AmlogicHal.Lib.Machine

/-!
# Endless runs

A schedule is an endless sequence of inputs. That something happens in the end is shown from what
happens again and again.

* `Machine.after`: the state after the first inputs of a schedule.
* `Recurs`: infinitely many inputs of a schedule have a property.
* `after_invariant`: the induction over an endless run.
* `after_holds_at`: what all other inputs keep is still there when an input with the property comes.
* `after_reaches`: a rank that recurring inputs reduce, and that no input raises, takes the run to
  its goal.
-/

namespace AmlogicHal

def Recurs {ε : Type} (Q : ε → Prop) (es : Nat → ε) : Prop := ∀ n, ∃ k, n ≤ k ∧ Q (es k)

theorem Recurs.shift {ε : Type} {Q : ε → Prop} {es : Nat → ε} (h : Recurs Q es) (d : Nat) :
    Recurs Q fun i => es (d + i) := by
  intro n
  obtain ⟨k, hk, hq⟩ := h (d + n)
  refine ⟨k - d, by omega, ?_⟩
  show Q (es (d + (k - d)))
  rwa [Nat.add_sub_of_le (by omega)]

namespace Machine

variable {σ ε ω : Type}

def after (m : Machine σ ε ω) (s : σ) (es : Nat → ε) : Nat → σ
  | 0 => s
  | n + 1 => (m.step (m.after s es n) (es n)).1

variable {m : Machine σ ε ω} {s : σ} {es : Nat → ε}

theorem after_add (s : σ) (es : Nat → ε) (d n : Nat) :
    m.after s es (d + n) = m.after (m.after s es d) (fun i => es (d + i)) n := by
  induction n with
  | zero => rfl
  | succ n ih =>
    show (m.step (m.after s es (d + n)) (es (d + n))).1 = _
    rw [ih]
    rfl

theorem after_invariant {I : σ → Prop} (hkeep : ∀ s e, I s → I (m.step s e).1) (h : I s) :
    ∀ n, I (m.after s es n)
  | 0 => h
  | n + 1 => hkeep _ _ (after_invariant hkeep h n)

theorem after_holds_at {V : σ → Prop} {Q : ε → Prop} (hkeep : ∀ s e, V s → ¬ Q e → V (m.step s e).1)
    (hrecurs : Recurs Q es) (h : V s) : ∃ n, V (m.after s es n) ∧ Q (es n) := by
  obtain ⟨k, -, hk⟩ := hrecurs 0
  -- The induction is on the time until the input that is known to have the property.
  induction k generalizing s es with
  | zero => exact ⟨0, h, hk⟩
  | succ k ih =>
    by_cases hnow : Q (es 0)
    · exact ⟨0, h, hnow⟩
    · have hshift : ∀ n, m.after s es (1 + n) =
          m.after (m.step s (es 0)).1 (fun i => es (1 + i)) n :=
        after_add s es 1
      obtain ⟨n, hn, hq⟩ := ih (hrecurs.shift 1) (hkeep s _ h hnow) (by rwa [Nat.add_comm])
      exact ⟨1 + n, by rw [hshift]; exact hn, hq⟩

theorem after_reaches {W G : σ → Prop} {Q : ε → Prop} (rank : σ → Nat)
    (hkeep : ∀ s e, W s → ¬ G s → W (m.step s e).1 ∧ rank (m.step s e).1 ≤ rank s)
    (hreduce : ∀ s e, W s → ¬ G s → Q e → rank (m.step s e).1 < rank s)
    (hrecurs : Recurs Q es) (h : W s) : ∃ n, W (m.after s es n) ∧ G (m.after s es n) := by
  induction hr : rank s using Nat.strongRecOn generalizing s es with
  | _ r ih =>
    apply Classical.byContradiction
    intro hnone
    have hnever : ∀ n, W (m.after s es n) → ¬ G (m.after s es n) := fun n hw hg => hnone ⟨n, hw, hg⟩
    -- Up to any time the run is on its way.
    have hway : ∀ n, W (m.after s es n) ∧ rank (m.after s es n) ≤ r := by
      intro n
      induction n with
      | zero => exact ⟨h, Nat.le_of_eq hr⟩
      | succ n ihn =>
        obtain ⟨hw, hle⟩ := hkeep _ (es n) ihn.1 (hnever n ihn.1)
        exact ⟨hw, Nat.le_trans hle ihn.2⟩
    obtain ⟨k, -, hk⟩ := hrecurs 0
    have hdown := hreduce _ (es k) (hway k).1 (hnever k (hway k).1) hk
    obtain ⟨n, hw, hg⟩ :=
      ih _ (Nat.lt_of_lt_of_le hdown (hway k).2) (hrecurs.shift (k + 1)) (hway (k + 1)).1 rfl
    rw [← after_add] at hw hg
    exact hnever _ hw hg

end Machine

end AmlogicHal
