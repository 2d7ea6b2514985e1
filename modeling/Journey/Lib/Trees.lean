import Journey.Lib.Machine
import Mathlib.Data.List.Forall2

/-!
# Journey.Lib.Trees — labelled trees and bottom-up passes

Nothing here knows a program.  A bottom-up pass rewrites the children of a node first, and then the node
itself by a rule that may fail.

* `Tree.fold`: the value of a tree, computed from the leaves.
* `Tree.Everywhere`: a property of all the subtrees.
* `Tree.bottomUp`: the pass.
* `Tree.bottomUp_rel`: a relation between a tree and what the pass makes of it, from one step of the rule.
-/

namespace Journey

/-- A tree with any number of children at each node. -/
inductive Tree (α : Type)
  | node (label : α) (children : List (Tree α))

namespace Tree

variable {α β ε : Type}

def label : Tree α → α
  | node a _ => a

def children : Tree α → List (Tree α)
  | node _ ts => ts

/-! ## Folds -/

section Fold

mutual

/-- The value of a tree: `f` on the label and the values of the children. -/
def fold (f : α → List β → β) : Tree α → β
  | node a ts => f a (foldAll f ts)

def foldAll (f : α → List β → β) : List (Tree α) → List β
  | [] => []
  | t :: ts => t.fold f :: foldAll f ts

end

theorem foldAll_eq_map (f : α → List β → β) (ts : List (Tree α)) : foldAll f ts = ts.map (fold f) := by
  induction ts with
  | nil => rfl
  | cons t ts ih => rw [foldAll, ih, List.map_cons]

theorem fold_node (f : α → List β → β) (a : α) (ts : List (Tree α)) :
    (node a ts).fold f = f a (ts.map (fold f)) := by
  rw [fold, foldAll_eq_map]

end Fold

/-! ## Passes -/

section Passes

variable {P : Tree α → Prop} {rule : Tree α → Except ε (Tree α)} {R : Tree α → Tree α → Prop}

/-- The property holds of the tree and of all its subtrees. -/
inductive Everywhere (P : Tree α → Prop) : Tree α → Prop
  | node {a : α} {ts : List (Tree α)} (here : P (node a ts)) (below : ∀ t ∈ ts, Everywhere P t) :
      Everywhere P (node a ts)

theorem Everywhere.at_root {a : α} {ts : List (Tree α)} (h : Everywhere P (Tree.node a ts)) : P (Tree.node a ts) := by
  cases h with
  | node here _ => exact here

theorem Everywhere.at_child {a : α} {ts : List (Tree α)} (h : Everywhere P (Tree.node a ts)) :
    ∀ t ∈ ts, Everywhere P t := by
  cases h with
  | node _ below => exact below

theorem Everywhere.and {Q : Tree α → Prop} {t : Tree α} (hP : Everywhere P t) (hQ : Everywhere Q t) :
    Everywhere (fun t => P t ∧ Q t) t := by
  induction hP with
  | node here below ih => exact .node ⟨here, hQ.at_root⟩ fun t ht => ih t ht (hQ.at_child t ht)

theorem Everywhere.imp {Q : Tree α → Prop} (hPQ : ∀ t, P t → Q t) {t : Tree α} (h : Everywhere P t) : Everywhere Q t := by
  induction h with
  | node here _ ih => exact .node (hPQ _ here) ih

/-- What holds everywhere in a tree holds everywhere in each subtree. -/
theorem Everywhere.subtrees {t : Tree α} (h : Everywhere P t) : Everywhere (Everywhere P) t := by
  induction h with
  | node here below ih => exact .node (.node here below) ih

/-- The tree is one of the subtrees of the other one. -/
inductive Within (s : Tree α) : Tree α → Prop
  | self : Within s s
  | child {a : α} {t : Tree α} {ts : List (Tree α)} (ht : t ∈ ts) (h : Within s t) : Within s (node a ts)

mutual

/-- The pass: the children, and then the node with its new children. -/
def bottomUp (rule : Tree α → Except ε (Tree α)) : Tree α → Except ε (Tree α)
  | node a ts => do
    let ts ← bottomUpAll rule ts
    rule (node a ts)

def bottomUpAll (rule : Tree α → Except ε (Tree α)) : List (Tree α) → Except ε (List (Tree α))
  | [] => .ok []
  | t :: ts => do
    let t ← bottomUp rule t
    let ts ← bottomUpAll rule ts
    return t :: ts

end

theorem bottomUpAll_rel {ts : List (Tree α)} (h : ∀ t ∈ ts, ∃ t', bottomUp rule t = .ok t' ∧ R t t') :
    ∃ ts', bottomUpAll rule ts = .ok ts' ∧ List.Forall₂ R ts ts' := by
  induction ts with
  | nil => exact ⟨[], rfl, .nil⟩
  | cons t ts ih =>
    obtain ⟨t', ht, hR⟩ := h t (List.mem_cons_self ..)
    obtain ⟨ts', hts, hRs⟩ := ih fun s hs => h s (List.mem_cons_of_mem _ hs)
    refine ⟨t' :: ts', ?_, .cons hR hRs⟩
    rw [bottomUpAll, ht, ok_bind, hts]
    rfl

/-- **What one step of the rule does, the pass does.**  If the rule, at a node whose children have been
rewritten already, gives something related to the node as it was, so does the whole pass. -/
theorem bottomUp_rel
    (hrule : ∀ a ts ts', Everywhere P (node a ts) → List.Forall₂ R ts ts' →
      ∃ t', rule (node a ts') = .ok t' ∧ R (node a ts) t')
    {t : Tree α} (ht : Everywhere P t) : ∃ t', bottomUp rule t = .ok t' ∧ R t t' := by
  induction ht with
  | @node a ts here below ih =>
    obtain ⟨ts', hts, hRs⟩ := bottomUpAll_rel ih
    obtain ⟨t', ht', hR⟩ := hrule a ts ts' (.node here below) hRs
    refine ⟨t', ?_, hR⟩
    rw [bottomUp, hts, ok_bind, ht']

theorem bottomUpAll_fixed {ts : List (Tree α)} (h : ∀ t ∈ ts, bottomUp rule t = .ok t) : bottomUpAll rule ts = .ok ts := by
  induction ts with
  | nil => rfl
  | cons t ts ih =>
    rw [bottomUpAll, h t (List.mem_cons_self ..), ok_bind, ih fun s hs => h s (List.mem_cons_of_mem _ hs)]
    rfl

/-- A pass leaves a tree as it is if the rule does so everywhere. -/
theorem bottomUp_fixed {t : Tree α} (h : Everywhere (fun t => rule t = .ok t) t) : bottomUp rule t = .ok t := by
  induction h with
  | node here below ih => rw [bottomUp, bottomUpAll_fixed ih, ok_bind, here]

end Passes

/-! ## Labels -/

section Labels

variable {P : α → Prop} {a a' : α} {t : Tree α} {ts : List (Tree α)} {rule : Tree α → Except ε (Tree α)}

/-- All the labels of a tree have the property. -/
def Labels (P : α → Prop) : Tree α → Prop := Everywhere fun t => P t.label

theorem labels_node : Labels P (node a ts) ↔ P a ∧ ∀ t ∈ ts, Labels P t :=
  ⟨fun h => ⟨h.at_root, h.at_child⟩, fun h => .node h.1 h.2⟩

theorem labels_bottomUpAll (h : ∀ t ∈ ts, ∀ t', bottomUp rule t = .ok t' → Labels P t') {ts' : List (Tree α)}
    (hts : bottomUpAll rule ts = .ok ts') : ∀ t' ∈ ts', Labels P t' := by
  induction ts generalizing ts' with
  | nil =>
    cases hts
    exact fun _ hmem => absurd hmem List.not_mem_nil
  | cons t ts ih =>
    rw [bottomUpAll] at hts
    obtain ⟨t', ht', hts⟩ := bind_eq_ok.mp hts
    obtain ⟨rest, hrest, hts⟩ := bind_eq_ok.mp hts
    cases hts
    rw [List.forall_mem_cons]
    exact ⟨h t (List.mem_cons_self ..) t' ht', ih (fun s hs => h s (List.mem_cons_of_mem _ hs)) hrest⟩

/-- A pass keeps a property of the labels if the rule does, at a node whose children have it. -/
theorem labels_bottomUp (hrule : ∀ t t', Labels P t → rule t = .ok t' → Labels P t') (h : Labels P t) :
    ∀ t', bottomUp rule t = .ok t' → Labels P t' := by
  induction h with
  | @node a ts here below ih =>
    intro t' ht'
    rw [bottomUp] at ht'
    obtain ⟨ts', hts', ht'⟩ := bind_eq_ok.mp ht'
    exact hrule _ _ (labels_node.mpr ⟨here, labels_bottomUpAll ih hts'⟩) ht'

end Labels

end Tree

end Journey
