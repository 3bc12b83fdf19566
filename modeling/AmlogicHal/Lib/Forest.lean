import Mathlib.Data.List.Basic

/-!
# Growing forests

A forest that grows node by node: a list in which every node has a label and, unless it is a root, a
parent that stands before it. Nodes are named by their places, so a new one changes nothing for the
others.

* `lineage`: the labels on the way from a node to its root.
* `root_eq_iff`: the nodes with a given root are that root and the nodes below it.
-/

namespace AmlogicHal

open List

/-- A node: its label, and the place of its parent. -/
structure Forest.Node (α : Type) where
  label : α
  parent : Option Nat
deriving DecidableEq

/-- The nodes in the order in which they grew. -/
abbrev Forest (α : Type) := List (Forest.Node α)

namespace Forest

variable {α : Type} {f : Forest α} {n r : Nat} {node : Node α}

def lineage (f : Forest α) (n : Nat) : List α :=
  match f[n]? with
  | none => []
  | some node =>
    match node.parent with
    | none => [node.label]
    | some k => if k < n then node.label :: lineage f k else [node.label]
termination_by n

/-- The root of the tree that a node stands in. -/
def root (f : Forest α) (n : Nat) : Nat :=
  match f[n]? with
  | none => n
  | some node =>
    match node.parent with
    | none => n
    | some k => if k < n then root f k else n
termination_by n

/-- `Below f r n`: the node `n` is a child of `r`, or of a node below `r`. -/
inductive Below (f : Forest α) (r : Nat) : Nat → Prop
  | child {n : Nat} {node : Node α} : f[n]? = some node → node.parent = some r → Below f r n
  | step {n k : Nat} {node : Node α} : f[n]? = some node → node.parent = some k → Below f r k →
      Below f r n

def IsRoot (f : Forest α) (r : Nat) : Prop := ∃ node, f[r]? = some node ∧ node.parent = none

/-- Parents stand before their children. -/
def Grown (f : Forest α) : Prop :=
  ∀ (n : Nat) (node : Node α) (k : Nat), f[n]? = some node → node.parent = some k → k < n

/-! ## A new node -/

theorem grown_nil : Grown ([] : Forest α) := by
  intro n node k h
  cases h

theorem Grown.snoc (h : Grown f) (hparent : ∀ k, node.parent = some k → k < f.length) :
    Grown (f ++ [node]) := by
  intro n other k hn hk
  rcases Nat.lt_trichotomy n f.length with hlt | rfl | hgt
  · rw [getElem?_append_left hlt] at hn
    exact h n other k hn hk
  · rw [getElem?_concat_length] at hn
    cases hn
    exact hparent k hk
  · rw [getElem?_eq_none (by rw [length_append]; exact hgt)] at hn
    cases hn

theorem lineage_snoc (node : Node α) : n < f.length → lineage (f ++ [node]) n = lineage f n := by
  induction n using Nat.strongRecOn with
  | _ n ih =>
    intro hn
    rw [lineage, lineage, getElem?_append_left hn]
    cases f[n]? with
    | none => rfl
    | some other =>
      dsimp only
      cases other.parent with
      | none => rfl
      | some k =>
        dsimp only
        split
        · next hk => rw [ih k hk (Nat.lt_trans hk hn)]
        · rfl

theorem root_snoc (node : Node α) : n < f.length → root (f ++ [node]) n = root f n := by
  induction n using Nat.strongRecOn with
  | _ n ih =>
    intro hn
    rw [root, root, getElem?_append_left hn]
    cases f[n]? with
    | none => rfl
    | some other =>
      dsimp only
      cases other.parent with
      | none => rfl
      | some k =>
        dsimp only
        split
        · next hk => exact ih k hk (Nat.lt_trans hk hn)
        · rfl

section New

variable (a : α) {parent : Option Nat} (hparent : ∀ k, parent = some k → k < f.length)
include hparent

theorem lineage_new :
    lineage (f ++ [⟨a, parent⟩]) f.length = a :: (parent.map (lineage f)).getD [] := by
  rw [lineage, getElem?_concat_length]
  cases parent with
  | none => rfl
  | some k =>
    dsimp only
    rw [if_pos (hparent k rfl), lineage_snoc _ (hparent k rfl)]
    rfl

theorem root_new : root (f ++ [⟨a, parent⟩]) f.length = (parent.map (root f)).getD f.length := by
  rw [root, getElem?_concat_length]
  cases parent with
  | none => rfl
  | some k =>
    dsimp only
    rw [if_pos (hparent k rfl), root_snoc _ (hparent k rfl)]
    rfl

end New

/-! ## The nodes of a tree -/

theorem root_of_isRoot (h : IsRoot f r) : root f r = r := by
  obtain ⟨node, hr, hparent⟩ := h
  rw [root, hr]
  dsimp only
  rw [hparent]

theorem root_of_parent (h : Grown f) {k : Nat} (hn : f[n]? = some node)
    (hk : node.parent = some k) : root f n = root f k := by
  rw [root, hn]
  dsimp only
  rw [hk]
  exact if_pos (h n node k hn hk)

theorem root_eq_iff (h : Grown f) (hr : IsRoot f r) : root f n = r ↔ n = r ∨ Below f r n := by
  constructor
  · induction n using Nat.strongRecOn with
    | _ n ih =>
      intro hroot
      cases hn : f[n]? with
      | none =>
        rw [root, hn] at hroot
        exact .inl hroot
      | some node =>
        cases hparent : node.parent with
        | none =>
          rw [root_of_isRoot ⟨node, hn, hparent⟩] at hroot
          exact .inl hroot
        | some k =>
          rw [root_of_parent h hn hparent] at hroot
          rcases ih k (h n node k hn hparent) hroot with rfl | hbelow
          · exact .inr (.child hn hparent)
          · exact .inr (.step hn hparent hbelow)
  · rintro (rfl | hbelow)
    · exact root_of_isRoot hr
    · induction hbelow with
      | child hn hparent => exact (root_of_parent h hn hparent).trans (root_of_isRoot hr)
      | step hn hparent _ ih => exact (root_of_parent h hn hparent).trans ih

end Forest

end AmlogicHal
