import Mathlib.Data.List.Basic

/-!
# Traced computations

A computation over a state that records what it does (array accesses, messages handed to another
component), in order. A function of the source with array accesses becomes one traced computation,
and a bounds property is a property of every record of its trace.

`All P x s`: every record of `x` run from `s` has the property `P`. The rule for sequencing
(`all_bind`) is an equivalence, so it gives the exact condition under which a whole function is in
bounds.
-/

namespace AmlogicHal

/-- What a traced computation leaves: its value, the state and its records, oldest first. -/
structure Outcome (ο σ α : Type) where
  val : α
  st : σ
  log : List ο

/-- A computation over the state `σ` with records of type `ο`. -/
def Traced (ο σ α : Type) : Type := σ → Outcome ο σ α

namespace Traced

variable {ο σ α β : Type}

def run (x : Traced ο σ α) (s : σ) : Outcome ο σ α := x s

instance : Monad (Traced ο σ) where
  pure a := fun s => ⟨a, s, []⟩
  bind x f := fun s =>
    let r := x s
    let q := f r.val r.st
    ⟨q.val, q.st, r.log ++ q.log⟩

def emit (o : ο) : Traced ο σ Unit := fun s => ⟨(), s, [o]⟩

/-- Record every element of a list, in order. -/
def emitAll (os : List ο) : Traced ο σ Unit := fun s => ⟨(), s, os⟩

def read (f : σ → Traced ο σ α) : Traced ο σ α := fun s => f s s

def modify (f : σ → σ) : Traced ο σ Unit := fun s => ⟨(), f s, []⟩

/-- `for (i = 0; i < n; i++) body i`. -/
def forRange (body : Nat → Traced ο σ Unit) : Nat → Traced ο σ Unit
  | 0 => pure ()
  | n + 1 => forRange body n >>= fun _ => body n

/-! ## Running -/

@[simp] theorem run_pure (a : α) (s : σ) : (pure a : Traced ο σ α).run s = ⟨a, s, []⟩ := rfl

@[simp] theorem run_bind (x : Traced ο σ α) (f : α → Traced ο σ β) (s : σ) :
    (x >>= f).run s =
      ⟨((f (x.run s).val).run (x.run s).st).val, ((f (x.run s).val).run (x.run s).st).st,
        (x.run s).log ++ ((f (x.run s).val).run (x.run s).st).log⟩ := rfl

@[simp] theorem run_emit (o : ο) (s : σ) : (emit o : Traced ο σ Unit).run s = ⟨(), s, [o]⟩ := rfl

@[simp] theorem run_emitAll (os : List ο) (s : σ) :
    (emitAll os : Traced ο σ Unit).run s = ⟨(), s, os⟩ := rfl

variable (f : σ → Traced ο σ α)

@[simp] theorem run_read (s : σ) : (read f).run s = (f s).run s := rfl

@[simp] theorem run_modify (f : σ → σ) (s : σ) :
    (modify f : Traced ο σ Unit).run s = ⟨(), f s, []⟩ := rfl

@[simp] theorem run_ite (c : Prop) [Decidable c] (x y : Traced ο σ α) (s : σ) :
    (if c then x else y).run s = if c then x.run s else y.run s := by
  split <;> rfl

/-! ## Properties of every record -/

/-- Every record of `x` run from `s` has the property `P`. -/
def All (P : ο → Prop) (x : Traced ο σ α) (s : σ) : Prop := ∀ o ∈ (x.run s).log, P o

variable {P : ο → Prop} {x : Traced ο σ α} {s : σ} {I : Nat → σ → Prop}
  {body : Nat → Traced ο σ Unit}

theorem All.mono {Q : ο → Prop} (h : x.All P s) (hPQ : ∀ o, P o → Q o) : x.All Q s :=
  fun o ho => hPQ o (h o ho)

@[simp] theorem all_pure (a : α) (s : σ) : (pure a : Traced ο σ α).All P s ↔ True := by
  simp [All]

@[simp] theorem all_bind (x : Traced ο σ α) (f : α → Traced ο σ β) (s : σ) :
    (x >>= f).All P s ↔ x.All P s ∧ (f (x.run s).val).All P (x.run s).st := by
  simp only [All, run_bind, List.mem_append]
  constructor
  · intro h
    exact ⟨fun o ho => h o (.inl ho), fun o ho => h o (.inr ho)⟩
  · rintro ⟨hx, hf⟩ o (ho | ho)
    · exact hx o ho
    · exact hf o ho

@[simp] theorem all_emit (o : ο) (s : σ) : (emit o : Traced ο σ Unit).All P s ↔ P o := by
  simp [All]

@[simp] theorem all_emitAll (os : List ο) : (emitAll os : Traced ο σ Unit).All P s ↔
    ∀ o ∈ os, P o := by
  simp [All]

@[simp] theorem all_read (s : σ) : (read f).All P s ↔ (f s).All P s := Iff.rfl

@[simp] theorem all_modify (f : σ → σ) (s : σ) : (modify f : Traced ο σ Unit).All P s ↔ True := by
  simp [All]

theorem all_ite (c : Prop) [Decidable c] (x y : Traced ο σ α) :
    (if c then x else y).All P s ↔ if c then x.All P s else y.All P s := by
  split <;> exact Iff.rfl

/-! ## Loops -/

theorem all_forRange (body : Nat → Traced ο σ Unit) (n : Nat) (s : σ) :
    (forRange body n).All P s ↔ ∀ i < n, (body i).All P ((forRange body i).run s).st := by
  induction n with
  | zero => exact ⟨fun _ => nofun, fun _ => nofun⟩
  | succ n ih =>
    rw [forRange, all_bind, ih]
    constructor
    · rintro ⟨hbefore, hlast⟩ i hi
      rcases Nat.lt_succ_iff_lt_or_eq.mp hi with hlt | rfl
      · exact hbefore i hlt
      · exact hlast
    · exact fun h => ⟨fun i hi => h i (Nat.lt_succ_of_lt hi), h n (Nat.lt_succ_self n)⟩

theorem forRange_invariant {n : Nat} (hstep : ∀ i < n, ∀ s, I i s → I (i + 1) ((body i).run s).st)
    (h0 : I 0 s) :
    ∀ i ≤ n, I i ((forRange body i).run s).st
  | 0, _ => h0
  | i + 1, hi => hstep i hi _ (forRange_invariant hstep h0 i (Nat.le_of_succ_le hi))

theorem all_forRange_of_invariant (body : Nat → Traced ο σ Unit) (n : Nat)
    (hstep : ∀ i < n, ∀ s, I i s → (body i).All P s ∧ I (i + 1) ((body i).run s).st) (h0 : I 0 s) :
    (forRange body n).All P s ∧ I n ((forRange body n).run s).st := by
  have hinv := forRange_invariant (fun i hi s hs => (hstep i hi s hs).2) h0
  exact ⟨(all_forRange body n s).mpr fun i hi => (hstep i hi _ (hinv i (Nat.le_of_lt hi))).1,
    hinv n (Nat.le_refl n)⟩

/-! ## Computations that only record -/

/-- The computation leaves the state as it is. -/
def Keeps (x : Traced ο σ α) : Prop := ∀ s, (x.run s).st = s

theorem keeps_emit (o : ο) : (emit o : Traced ο σ Unit).Keeps := fun _ => rfl

variable {f : α → Traced ο σ β}

theorem Keeps.bind (hx : x.Keeps) (hf : ∀ a, (f a).Keeps) : (x >>= f).Keeps := by
  intro s
  exact (hf _ _).trans (hx s)

theorem Keeps.all_bind (hx : x.Keeps) : (x >>= f).All P s ↔
    x.All P s ∧ (f (x.run s).val).All P s := by
  rw [Traced.all_bind, hx s]

theorem Keeps.forRange (hbody : ∀ i, (body i).Keeps) :
    ∀ n, (forRange body n).Keeps
  | 0 => fun _ => rfl
  | n + 1 => (Keeps.forRange hbody n).bind fun _ => hbody n

theorem Keeps.all_forRange (hbody : ∀ i, (body i).Keeps) {n : Nat} (h : ∀ i < n, (body i).All P s) :
    (Traced.forRange body n).All P s := by
  refine (Traced.all_forRange body n s).mpr fun i hi => ?_
  rw [Keeps.forRange hbody i s]
  exact h i hi

/-! ## Records and results together -/

/-- From `s`, every record of `x` has the property `P`, and its value and the state that it leaves
have the property `Q`. -/
def Ensures (P : ο → Prop) (x : Traced ο σ α) (s : σ) (Q : α → σ → Prop) : Prop :=
  x.All P s ∧ Q (x.run s).val (x.run s).st

variable {R : α → σ → Prop} {Q : β → σ → Prop}

theorem Ensures.bind (hx : x.Ensures P s R) (hf : ∀ a t, R a t → (f a).Ensures P t Q) :
    (x >>= f).Ensures P s Q :=
  ⟨(all_bind x f s).mpr ⟨hx.1, (hf _ _ hx.2).1⟩, (hf _ _ hx.2).2⟩

theorem Ensures.mono {Q : α → σ → Prop} (hx : x.Ensures P s Q) (hQR : ∀ a t, Q a t → R a t) :
    x.Ensures P s R :=
  ⟨hx.1, hQR _ _ hx.2⟩

theorem ensures_pure {a : α} {Q : α → σ → Prop} (h : Q a s) :
    (pure a : Traced ο σ α).Ensures P s Q :=
  ⟨(all_pure a s).mpr trivial, h⟩

theorem Ensures.read {f : σ → Traced ο σ α} {Q : α → σ → Prop} (h : (f s).Ensures P s Q) :
    (Traced.read f).Ensures P s Q := h

theorem Ensures.modify_bind {g : σ → σ} {f : Unit → Traced ο σ β} (h : (f ()).Ensures P (g s) Q) :
    (modify g >>= f).Ensures P s Q :=
  ⟨(all_bind _ f s).mpr ⟨(all_modify g s).mpr trivial, h.1⟩, h.2⟩

theorem Keeps.before {x : Traced ο σ Unit} {f : Unit → Traced ο σ β} (hx : x.Keeps)
    (hall : x.All P s) (hf : (f ()).Ensures P s Q) : (x >>= f).Ensures P s Q :=
  Ensures.bind (R := fun _ t => t = s) ⟨hall, hx s⟩ fun _ t ht => by rwa [ht]

theorem Keeps.ensures {x : Traced ο σ Unit} {Q : Unit → σ → Prop} (hx : x.Keeps) (hall : x.All P s)
    (h : Q () s) : x.Ensures P s Q :=
  ⟨hall, by rwa [hx s]⟩

end Traced

end AmlogicHal
