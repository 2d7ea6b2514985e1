import Journey.Bustub.Binder.Session
import Journey.Bustub.Planner.Names

/-!
# Journey.Bustub.Planner.Depth — how deep the planner gets

The planner plans the statement of a CTE wherever the CTE is read, in the scope of the reader.  If that statement itself
reads CTEs, it may find other ones there than the binder did, itself among them, and then the planner does not end.

* `selectDepth`: how deep the recursion gets, given how deep it gets for the CTEs in scope.
* `selectFree`, `selectClosed`: no CTE from outside is read; no CTE of a `WITH` clause reads one from outside.
* `planSelect_deeper`: **the planner ends on closed statements**; a deeper stack changes nothing.
-/

namespace Journey.Planner

open SqlType Catalog Execution Optimizer Binder

/-! ## Depths -/

section Depths

mutual

/-- How deep `PlanSelect` gets, if planning the statement of a CTE in scope gets `n` deep. -/
def selectDepth : SelectStatement → ℕ → ℕ
  | ⟨_, table, _, _, _, _, _, ctes, _⟩, n => refDepth table (if ctes.isEmpty then n else ctesDepth ctes) + 1

def refDepth : BoundTableRef → ℕ → ℕ
  | .crossProduct left right, n => max (refDepth left n) (refDepth right n) + 1
  | .join _ left right _, n => max (refDepth left n) (refDepth right n) + 1
  | .subquery ref, n => subqueryDepth ref n + 1
  | .cte _ _, n => n + 1
  | .empty, _ => 1
  | .baseTable _ _ _ _, _ => 1
  | .expressionList _ _, _ => 1

def subqueryDepth : BoundSubqueryRef → ℕ → ℕ
  | ⟨subquery, _, _⟩, n => selectDepth subquery n

def ctesDepth : List BoundSubqueryRef → ℕ
  | [] => 0
  | cte :: ctes => max (subqueryDepth cte 0) (ctesDepth ctes)

end

mutual

/-- No CTE from outside of the statement is read in it. -/
def selectFree : SelectStatement → Prop
  | ⟨_, table, _, _, _, _, _, ctes, _⟩ => (ctes = [] → refFree table) ∧ ctesFree ctes

def refFree : BoundTableRef → Prop
  | .crossProduct left right => refFree left ∧ refFree right
  | .join _ left right _ => refFree left ∧ refFree right
  | .subquery ref => subqueryFree ref
  | .cte _ _ => False
  | .empty => True
  | .baseTable _ _ _ _ => True
  | .expressionList _ _ => True

def subqueryFree : BoundSubqueryRef → Prop
  | ⟨subquery, _, _⟩ => selectFree subquery

def ctesFree : List BoundSubqueryRef → Prop
  | [] => True
  | cte :: ctes => subqueryFree cte ∧ ctesFree ctes

end

mutual

/-- No CTE of a `WITH` clause, at any place in the statement, reads one from outside of that clause. -/
def selectClosed : SelectStatement → Prop
  | ⟨_, table, _, _, _, _, _, ctes, _⟩ => refClosed table ∧ ctesFree ctes ∧ ctesClosed ctes

def refClosed : BoundTableRef → Prop
  | .crossProduct left right => refClosed left ∧ refClosed right
  | .join _ left right _ => refClosed left ∧ refClosed right
  | .subquery ref => subqueryClosed ref
  | .cte _ _ => True
  | .empty => True
  | .baseTable _ _ _ _ => True
  | .expressionList _ _ => True

def subqueryClosed : BoundSubqueryRef → Prop
  | ⟨subquery, _, _⟩ => selectClosed subquery

def ctesClosed : List BoundSubqueryRef → Prop
  | [] => True
  | cte :: ctes => subqueryClosed cte ∧ ctesClosed ctes

end

variable {statement : SelectStatement} {ctes : CTEScope} {n : ℕ}

theorem selectDepth_eq (statement : SelectStatement) (n : ℕ) : selectDepth statement n =
    refDepth statement.table (if statement.ctes.isEmpty then n else ctesDepth statement.ctes) + 1 := by
  cases statement
  rw [selectDepth]

theorem subqueryDepth_eq (ref : BoundSubqueryRef) (n : ℕ) : subqueryDepth ref n = selectDepth ref.subquery n := by
  cases ref
  rw [subqueryDepth]

theorem refDepth_pos (ref : BoundTableRef) (n : ℕ) : 0 < refDepth ref n := by
  cases ref <;> exact Nat.succ_pos _

theorem selectClosed_iff : selectClosed statement ↔
    refClosed statement.table ∧ ctesFree statement.ctes ∧ ctesClosed statement.ctes := by
  cases statement
  rw [selectClosed]

theorem subqueryClosed_iff {ref : BoundSubqueryRef} : subqueryClosed ref ↔ selectClosed ref.subquery := by
  cases ref
  rw [subqueryClosed]

mutual

/-- Where no CTE is read, it does not matter how deep they are. -/
theorem selectDepth_of_free (n m : ℕ) : ∀ statement : SelectStatement, selectFree statement →
    selectDepth statement n = selectDepth statement m
  | ⟨_, table, _, _, _, _, _, ctes, _⟩, h => by
    rw [selectFree] at h
    rw [selectDepth, selectDepth]
    cases ctes with
    | nil => exact congrArg (· + 1) (refDepth_of_free n m table (h.1 rfl))
    | cons _ _ => rfl

theorem refDepth_of_free (n m : ℕ) : ∀ ref : BoundTableRef, refFree ref → refDepth ref n = refDepth ref m
  | .crossProduct left right, h => by
    rw [refDepth, refDepth, refDepth_of_free n m left h.1, refDepth_of_free n m right h.2]
  | .join _ left right _, h => by
    rw [refDepth, refDepth, refDepth_of_free n m left h.1, refDepth_of_free n m right h.2]
  | .subquery ⟨subquery, _, _⟩, h => by
    rw [refDepth, refDepth, subqueryDepth, subqueryDepth, selectDepth_of_free n m subquery h]
  | .cte _ _, h => absurd h id
  | .empty, _ => rfl
  | .baseTable _ _ _ _, _ => rfl
  | .expressionList _ _, _ => rfl

end

/-- The CTEs in scope read none from outside, and planning them gets `n` deep at most. -/
def Shallow (ctes : CTEScope) (n : ℕ) : Prop :=
  ∀ list ∈ ctes, ∀ cte ∈ list, selectFree cte.subquery ∧ selectClosed cte.subquery ∧ selectDepth cte.subquery 0 ≤ n

theorem shallow_of_closed {list : List BoundSubqueryRef} (hfree : ctesFree list) (hclosed : ctesClosed list) :
    ∀ cte ∈ list, selectFree cte.subquery ∧ selectClosed cte.subquery ∧ selectDepth cte.subquery 0 ≤ ctesDepth list := by
  induction list with
  | nil => exact fun _ hcte => absurd hcte List.not_mem_nil
  | cons cte list ih =>
    obtain ⟨subquery, names, aliasName⟩ := cte
    rw [ctesDepth, subqueryDepth]
    intro cte hcte
    rcases List.mem_cons.mp hcte with rfl | hcte
    · exact ⟨hfree.1, hclosed.1, le_max_left _ _⟩
    · obtain ⟨hcteFree, hcteClosed, hdepth⟩ := ih hfree.2 hclosed.2 cte hcte
      exact ⟨hcteFree, hcteClosed, hdepth.trans (le_max_right _ _)⟩

theorem Shallow.scopeOf (h : Shallow ctes n) (hclosed : selectClosed statement) :
    Shallow (Planner.scopeOf ctes statement) (if statement.ctes.isEmpty then n else ctesDepth statement.ctes) := by
  obtain ⟨-, hfree, hctes⟩ := selectClosed_iff.mp hclosed
  unfold Planner.scopeOf
  split_ifs
  · exact h
  · rintro list ⟨⟩
    exact shallow_of_closed hfree hctes

/-- What the planner needs to know of a CTE that it finds. -/
theorem Shallow.find (h : Shallow ctes n) {cteName : String} {cte : BoundSubqueryRef}
    (hfind : findCTE ctes cteName = .ok cte) :
    selectFree cte.subquery ∧ selectClosed cte.subquery ∧ selectDepth cte.subquery n ≤ n := by
  unfold findCTE at hfind
  split at hfind
  · cases hfind
  · rename_i list
    split at hfind
    · cases hfind
    · rename_i found hfound
      cases hfind
      obtain ⟨hfree, hclosed, hdepth⟩ := h list rfl _ (List.mem_of_find?_eq_some hfound)
      refine ⟨hfree, hclosed, ?_⟩
      rwa [selectDepth_of_free n 0 _ hfree]

end Depths

/-! ## The recursion ends -/

section Deeper

variable {catalog : Catalog} {valueToString : Value → String}

/-- Where the depth is enough, one more changes nothing. -/
theorem plan_deeper (depth : ℕ) :
    (∀ {ctes n statement}, Shallow ctes n → selectClosed statement → selectDepth statement n ≤ depth → ∀ st,
      planSelect catalog valueToString (depth + 1) ctes statement st =
        planSelect catalog valueToString depth ctes statement st) ∧
    ∀ {ctes n ref}, Shallow ctes n → refClosed ref → refDepth ref n ≤ depth → ∀ st,
      planTableRef catalog valueToString (depth + 1) ctes ref st =
        planTableRef catalog valueToString depth ctes ref st := by
  induction depth with
  | zero =>
    constructor
    · intro ctes n statement _ _ hdepth
      rw [selectDepth_eq] at hdepth
      omega
    · intro ctes n ref _ _ hdepth
      exact absurd hdepth (Nat.not_le.mpr (refDepth_pos ref n))
  | succ depth ih =>
    obtain ⟨ihselect, ihref⟩ := ih
    constructor
    · intro ctes n statement hscope hclosed hdepth st
      rw [selectDepth_eq] at hdepth
      have htable := ihref (hscope.scopeOf hclosed) (selectClosed_iff.mp hclosed).1 (by omega)
      rw [planSelect, planSelect]
      generalize statement.table = table at htable
      cases table <;> simp only [htable]
    · intro ctes n ref hscope hclosed hdepth st
      cases ref with
      | empty => rfl
      | baseTable _ _ _ _ => rfl
      | expressionList _ _ => rfl
      | crossProduct left right =>
        rw [refDepth] at hdepth
        have hleft := ihref hscope hclosed.1 (n := n) (by omega)
        have hright := ihref hscope hclosed.2 (n := n) (by omega)
        simp only [planTableRef, hleft, hright]
      | join _ left right _ =>
        rw [refDepth] at hdepth
        have hleft := ihref hscope hclosed.1 (n := n) (by omega)
        have hright := ihref hscope hclosed.2 (n := n) (by omega)
        simp only [planTableRef, hleft, hright]
      | subquery ref =>
        rw [refDepth, subqueryDepth_eq] at hdepth
        have hselect := ihselect hscope (subqueryClosed_iff.mp hclosed) (by omega)
        rw [planTableRef, planTableRef, hselect]
      | cte cteName aliasName =>
        rw [refDepth] at hdepth
        rw [planTableRef, planTableRef]
        cases hfind : findCTE ctes cteName with
        | error e => rfl
        | ok cte =>
          obtain ⟨-, hcte, hcteDepth⟩ := hscope.find hfind
          rw [ok_bind, ok_bind, ihselect hscope hcte (by omega)]

/-- **A deeper stack changes nothing.** -/
theorem planSelect_deeper {ctes : CTEScope} {n depth : ℕ} {statement : SelectStatement} (hscope : Shallow ctes n)
    (hclosed : selectClosed statement) (hdepth : selectDepth statement n ≤ depth) (st : PlannerState) :
    planSelect catalog valueToString depth ctes statement st =
      planSelect catalog valueToString (selectDepth statement n) ctes statement st := by
  induction depth, hdepth using Nat.le_induction with
  | base => rfl
  | succ depth hle ih => rw [(plan_deeper depth).1 hscope hclosed hle st, ih]

end Deeper

end Journey.Planner
