import Journey.Bustub.Planner.Safety

/-!
# Journey.Bustub.Planner.Query — planning what the binder returns

* `planDelete`, `planQuery`: the planner over all statements.
* `plan_ends`: **the planner ends on what the binder returns**, with a plan or a thrown error.
-/

namespace Journey.Planner

open SqlType Catalog Execution Optimizer Binder

/-! ## The statements -/

section Model

/-- `DeletePlanNode`. -/
structure DeletePlanNode where
  outputSchema : Schema
  child : PlanNode
  tableOid : UInt32

/-- The plan of a statement.  `DeletePlanNode` and `UpdatePlanNode` have a type of their own: no node has one of them below
it, and no rule of the optimizer matches them, though it goes on to their child. -/
inductive QueryPlan
  | node (plan : PlanNode)
  | delete (plan : DeletePlanNode)
  | update (plan : UpdatePlanNode)

variable (catalog : Catalog) (valueToString : Value → String)

/-- `PlanDelete`. -/
def planDelete (statement : DeleteStatement) : Except Fault DeletePlanNode := do
  let table ← planBaseTableRef catalog statement.table.table statement.table.alias_ statement.table.schema
  let (_, condition) ← planScalar [table] statement.expr
  let filter : PlanNode := .node (outputSchema table, .filter condition) [table]
  return ⟨.create [.fixed "__bustub_internal.delete_rows" .integer 4 integer_fixed integer_size], filter,
    statement.table.oid⟩

/-- `PlanQuery`. -/
def planQuery (depth : ℕ) : BoundStatement → PlannerState → Except Fault (QueryPlan × PlannerState)
  | .select statement, st => do
    let (plan, st) ← planSelect catalog valueToString depth none statement st
    return (.node plan, st)
  | .insert statement, st => do
    let (select, st) ← planSelect catalog valueToString depth none statement.select st
    let plan ← planInsert statement.table.schema statement.table.oid select
    return (.node plan, st)
  | .delete statement, st => do
    let plan ← planDelete catalog statement
    return (.delete plan, st)
  | .update statement, st => do
    let plan ← planUpdate catalog statement
    return (.update plan, st)
  | .explain _ _, _ => .error (.exception .invalid "the statement Explain is not supported in planner yet")

end Model

/-! ## The planner ends -/

section Ends

variable {catalog : Catalog} {valueToString : Value → String}

/-- What the planner relies on and the binder does not check: no CTE of a `WITH` clause reads one from outside of that
clause, and the table of an `UPDATE` has the columns that are assigned to. -/
def Plannable : BoundStatement → Prop
  | .select statement => selectClosed statement
  | .insert statement => selectClosed statement.select
  | .update statement => ∀ target ∈ statement.targetExpr, ∃ name, target.1 = some name
  | .delete _ => True
  | .explain _ _ => True

/-- How deep the planner gets. -/
def queryDepth : BoundStatement → ℕ
  | .select statement => selectDepth statement 0
  | .insert statement => selectDepth statement.select 0
  | _ => 0

theorem shallow_none : Shallow none 0 := fun _ h => by cases h

/-- A statement that was bound where no CTE is in scope. -/
theorem planSelect_safely {heap : Heap} {bound depth : ℕ} {statement : SelectStatement}
    (hscoped : StatementScoped catalog heap bound none statement) (hclosed : selectClosed statement)
    (hdepth : selectDepth statement 0 ≤ depth) (id : ℕ) :
    Safely (planSelect catalog valueToString depth none statement ⟨heap, id⟩) := by
  have hknown : Known catalog heap bound none := fun _ h => by cases h
  exact (plan_safely depth).1 shallow_none hknown hscoped hclosed (.inr rfl) hdepth fun _ => rfl

theorem planDelete_safely (catalog : Catalog) (statement : DeleteStatement) : Safely (planDelete catalog statement) :=
  (planBaseTableRef_safely _ _ _ _).bind fun table => (planScalar_safely [table] _).bind fun _ => safely_pure _

/-- The loop over the assignments: the columns that are found are columns of the table. -/
theorem assignTargets_safely {filter : PlanNode} {targets : List (Option (List String) × BoundExpression)}
    (htargets : ∀ target ∈ targets, ∃ name, target.1 = some name) : ∀ exprs : List (Option Expr),
    exprs.length = (outputSchema filter).columns.length →
      Meets (assignTargets filter targets exprs) (fun r => r.length = (outputSchema filter).columns.length) Safe := by
  induction targets with
  | nil => exact fun exprs hlen => hlen
  | cons target targets ih =>
    intro exprs hlen
    obtain ⟨hname, hrest⟩ := List.forall_mem_cons.mp htargets
    obtain ⟨col, targetExpr⟩ := target
    obtain ⟨name, rfl⟩ := hname
    refine Meets.bind (planScalar_safely [filter] targetExpr) ?_
    rintro ⟨_, targetAbstractExpr⟩ -
    have hcolumn := (planColumnRef_safely name [filter]).meets
      (P := fun named => ∃ i column, named.2 = .columnValue 0 i column ∧
        i < (outputSchema filter).columns.length) ?_
    · refine Meets.bind hcolumn ?_
      rintro ⟨_, _⟩ ⟨i, column, rfl, hi⟩
      show Meets (if i < exprs.length then
        assignTargets filter targets (exprs.set i (some targetAbstractExpr)) else throw .outOfBounds) _ _
      rw [if_pos (by rwa [hlen])]
      exact ih hrest _ (by rw [List.length_set, hlen])
    · intro named hok
      obtain ⟨i, column, hnamed, hget, -, -⟩ := planColumnRef_cases hok
      exact ⟨i, column, hnamed, (List.getElem?_eq_some_iff.mp hget).1⟩

theorem planUpdate_safely (catalog : Catalog) {statement : UpdateStatement}
    (h : ∀ target ∈ statement.targetExpr, ∃ name, target.1 = some name) : Safely (planUpdate catalog statement) := by
  refine (planBaseTableRef_safely _ _ _ _).bind fun table => ?_
  refine (planScalar_safely [table] _).bind fun condition => ?_
  refine Meets.bind (assignTargets_safely h _ List.length_replicate) ?_
  intro targetExprs hlen
  refine Safely.bind ?_ fun _ => safely_pure _
  refine (Meets.mapM (R := fun _ => True) ?_).imp (fun _ _ => trivial) fun _ he => he
  rintro ⟨expr, idx⟩ hmem
  have hidx := List.snd_lt_of_mem_zipIdx hmem
  cases expr with
  | some expr => trivial
  | none =>
    show Meets (columnOf 0 _ idx) _ _
    rw [columnOf, List.getElem?_eq_getElem (by omega)]
    trivial

/-- **The planner ends on what the binder returns.**  Take a statement that the binder returns, whatever it has bound
before, in which no CTE of a `WITH` clause reads one from outside of that clause, and which does not assign to a column
that the table does not have.  Then the planner's recursion over statements and CTEs is at most `queryDepth` deep, and it
ends with a plan or throws: it never follows a null pointer and reads no list out of bounds. -/
theorem plan_ends {st st' : BinderState} (hsession : Session st) {stmt : PGStatement} {statement : BoundStatement}
    (hbind : bindStatement catalog stmt st = .ok (statement, st')) (hplannable : Plannable statement) (id depth : ℕ)
    (hdepth : queryDepth statement ≤ depth) :
    planQuery catalog valueToString depth statement ⟨st'.heap, id⟩ =
      planQuery catalog valueToString (queryDepth statement) statement ⟨st'.heap, id⟩ ∧
    Safely (planQuery catalog valueToString depth statement ⟨st'.heap, id⟩) := by
  obtain ⟨-, hscoped⟩ := (bindStatement_meets hsession.scopes.2 stmt).of_ok hbind
  cases statement with
  | select statement =>
    refine ⟨?_, (planSelect_safely hscoped hplannable hdepth id).bind fun _ => safely_pure _⟩
    show (planSelect _ _ depth _ _ _ >>= _) = planSelect _ _ (selectDepth statement 0) _ _ _ >>= _
    rw [planSelect_deeper shallow_none hplannable hdepth]
  | insert statement =>
    refine ⟨?_, ?_⟩
    · show (planSelect _ _ depth _ _ _ >>= _) = planSelect _ _ (selectDepth statement.select 0) _ _ _ >>= _
      rw [planSelect_deeper shallow_none hplannable hdepth]
    · refine (planSelect_safely hscoped.2.2 hplannable hdepth id).bind fun select => ?_
      exact Safely.bind (Safely.ite trivial trivial) fun _ => safely_pure _
  | delete statement => exact ⟨rfl, (planDelete_safely catalog statement).bind fun _ => safely_pure _⟩
  | update statement => exact ⟨rfl, (planUpdate_safely catalog hplannable).bind fun _ => safely_pure _⟩
  | explain _ _ => exact ⟨rfl, trivial⟩

/-- What the binder makes of `WITH c AS (SELECT 1 AS x) SELECT x FROM c, (VALUES (2)) AS v`. -/
def statementC : SelectStatement where
  exprs := 2
  table := .crossProduct (.cte "c" "c")
    (.subquery ⟨valuesStatement 1 [[.constant (.integer 2)]] "__values#0", [["__values#0", "0"]], "v"⟩)
  where_ := .invalid
  groupBy := []
  limitCount := .invalid
  limitOffset := .invalid
  sort := []
  ctes := [⟨selectOnly 0, [["x"]], "c"⟩]
  isDistinct := false

/-- The binder, when it has bound the CTE. -/
def boundCTE : BinderState where
  scope := none
  cteScope := none
  universalId := 0
  heap := Function.update BinderState.new.heap 0 ⟨.invalid, [.alias_ "x" (.constant (.integer 1))]⟩
  next := 1

/-- The binder, when it has bound the `FROM` clause. -/
def boundFrom : BinderState where
  scope := none
  cteScope := some statementC.ctes
  universalId := 1
  heap := Function.update boundCTE.heap 1 (valuesExprs "__values#0" 1)
  next := 2

/-- A statement with a `FROM` clause, bound part by part. -/
theorem bindSelect_of_parts {stmt : PGSelectStmt} {st st₁ st₂ st₃ : BinderState} {ctes : List BoundSubqueryRef}
    {table : BoundTableRef} {statement : SelectStatement} (hvalues : stmt.valuesLists = [])
    (hcte : bindCTE catalog stmt.withRecursive stmt.withClause { st with scope := none } = .ok (ctes, st₁))
    (hfrom : bindFrom catalog stmt.fromClause
      (if stmt.withClause.isEmpty then st₁ else { st₁ with cteScope := some ctes }) = .ok (table, st₂))
    (hclauses : bindClauses stmt table ctes { st₂ with scope := some table } = .ok (statement, st₃)) :
    bindSelect catalog stmt st = .ok (statement, { st₃ with scope := st.scope, cteScope := st.cteScope }) := by
  cases stmt
  subst hvalues
  dsimp only at hcte hfrom hclauses
  rw [bindSelect]
  unfold Binder.newContext
  simp only [List.isEmpty_nil, if_true, hcte, hfrom, hclauses, ok_bind]
  rfl

/-- The `SELECT` of `treeC`. -/
def selectC : PGSelectStmt :=
  plainSelect [.select "c" false (plainSelect [] [] (.resTarget (some "x") (.aConst (.integer 1))))]
    [.rangeVar "c" none, .rangeSubselect false (plainValues (.aConst (.integer 2))) (some "v")] (columnOfName "x")

theorem bind_treeC : ∃ st', bindStatement Catalog.new (treeC (columnOfName "x")) .new =
    .ok (.select statementC, st') := by
  have hcte : bindCTE Catalog.new selectC.withRecursive selectC.withClause .new = .ok (statementC.ctes, boundCTE) := rfl
  have hfrom : bindFrom Catalog.new selectC.fromClause { boundCTE with cteScope := some statementC.ctes } =
      .ok (statementC.table, boundFrom) := rfl
  obtain ⟨st', hclauses⟩ : ∃ st', bindClauses selectC statementC.table statementC.ctes
      { boundFrom with scope := some statementC.table } = .ok (statementC, st') := ⟨_, rfl⟩
  have hselect : bindSelect Catalog.new selectC .new = .ok (statementC, { st' with scope := none, cteScope := none }) :=
    bindSelect_of_parts rfl hcte hfrom hclauses
  refine ⟨{ st' with scope := none, cteScope := none }, ?_⟩
  rw [treeC, bindStatement, bindStatement]
  exact congrArg (· >>= _) hselect

/-- The only CTE reads none, and five calls are deep enough. -/
theorem plan_ends_statementC : ∃ st', bindStatement Catalog.new (treeC (columnOfName "x")) .new =
    .ok (.select statementC, st') ∧
      Safely (planQuery Catalog.new (fun _ => "") 5 (.select statementC) ⟨st'.heap, 0⟩) := by
  obtain ⟨st', hbind⟩ := bind_treeC
  have hplannable : Plannable (.select statementC) :=
    ⟨⟨trivial, trivial, trivial, trivial⟩, ⟨⟨fun _ => trivial, trivial⟩, trivial⟩, ⟨trivial, trivial, trivial⟩, trivial⟩
  exact ⟨st', hbind, (plan_ends Session.new hbind hplannable 0 5 (by decide)).2⟩

/-- A statement that finds itself where it looks for a CTE is never planned. -/
theorem planSelect_of_self {ctes : CTEScope} {cteName aliasName : String} {cte : BoundSubqueryRef}
    (hfind : findCTE ctes cteName = .ok cte) (htable : cte.subquery.table = .cte cteName aliasName)
    (hctes : cte.subquery.ctes = []) (depth : ℕ) (st : PlannerState) :
    planSelect catalog valueToString depth ctes cte.subquery st = .error .undefined := by
  induction depth using Nat.strong_induction_on generalizing st with
  | _ depth ih =>
    have hscope : scopeOf ctes cte.subquery = ctes := by rw [scopeOf, hctes]; rfl
    rcases depth with - | - | depth
    · rfl
    · rw [planSelect, htable]
      rfl
    · rw [planSelect, htable, hscope]
      simp only [planTableRef, hfind, ok_bind, ih depth (by omega), error_bind]

/-- `WITH c AS (SELECT 1 AS x) SELECT * FROM (WITH c AS (SELECT x FROM c) SELECT * FROM c) AS s`. -/
def treeShadow : PGStatement :=
  .select (plainSelect [.select "c" false (plainSelect [] [] (.resTarget (some "x") (.aConst (.integer 1))))]
    [.rangeSubselect false (plainSelect [.select "c" false (plainSelect [] [.rangeVar "c" none] (columnOfName "x"))]
      [.rangeVar "c" none] (.columnRef .aStar [])) (some "s")] (.columnRef .aStar []))

-- the binder returns a statement, in which the inner `c` is to read the outer one
example : (bindStatement Catalog.new treeShadow .new).isOk = true := by decide +kernel

/-- The inner `c`. -/
def shadowing : BoundSubqueryRef := ⟨{ selectOnly 1 with table := .cte "c" "c" }, [["c", "x"]], "c"⟩

-- the planner finds it in its own place
example (depth : ℕ) (st : PlannerState) :
    planSelect catalog valueToString depth (some [shadowing]) shadowing.subquery st = .error .undefined :=
  planSelect_of_self rfl rfl rfl depth st

end Ends

end Journey.Planner
