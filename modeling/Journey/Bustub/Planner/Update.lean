import Journey.Bustub.Planner.Names
import Journey.Bustub.Planner.Values
import Mathlib.Data.List.Forall2

/-!
# Journey.Bustub.Planner.Update — binding and planning `UPDATE`

An `UPDATE` becomes a list of expressions, one for each column of the table, from which the new row is
built.  The binder matches the names of the assignments with the columns, the planner puts the planned
expressions in their places and fills the rest with the columns themselves.

* `bindUpdate`, `planUpdate`: the two passes.  What `BindExpression` makes of a parse tree is given.
* `lastAssigned`: the assignment that counts for a column.
* `Tracks`: what the loop over the assignments has put where; `planUpdate_targets`: what an accepted statement assigns.
* `boundType`: the type of a bound expression over the columns of the table.
* `update_typed_iff`: the plan keeps rows well typed exactly when, for each column that is assigned, the last
  expression assigned to it has the type of the column.
-/

namespace Journey.Planner

open SqlType Catalog Storage Execution Optimizer Binder

/-! ## Binding and planning -/

section Model

variable {PGNode : Type}

/-- `BoundBaseTableRef`. -/
structure BoundBaseTableRef where
  table : String
  oid : UInt32
  alias_ : Option String
  schema : Schema

def BoundBaseTableRef.toRef (ref : BoundBaseTableRef) : BoundTableRef :=
  .baseTable ref.table ref.oid ref.alias_ ref.schema

/-- `BindBaseTableRef`. -/
def bindBaseTableRef (catalog : Catalog) (tableName : String) (alias_ : Option String) :
    Except Fault BoundBaseTableRef :=
  match catalog.getTable tableName with
  | .error _ => .error .assertion
  | .ok none => .error (.exception .invalid ("invalid table " ++ tableName))
  | .ok (some info) => .ok ⟨tableName, info.oid, alias_, info.schema⟩

/-- `PGUpdateStmt`: whether it has a `WITH` and a `FROM` clause, the table, the `WHERE` clause, and the
assignments, each a name and an expression. -/
structure PGUpdateStmt (PGNode : Type) where
  withClause : Bool
  fromClause : Bool
  relname : String
  whereClause : Option PGNode
  targetList : List (String × PGNode)

/-- `UpdateStatement`.  The column of an assignment is the null pointer if the table has none of that name. -/
structure UpdateStatement where
  table : BoundBaseTableRef
  filterExpr : BoundExpression
  targetExpr : List (Option (List String) × BoundExpression)

/-- An assignment, bound. -/
def bindTarget (bindExpression : BoundTableRef → PGNode → Except Fault BoundExpression) (table : BoundBaseTableRef)
    (target : String × PGNode) : Except Fault (Option (List String) × BoundExpression) := do
  let column ← resolveColumnRefFromBaseTableRef table.table table.alias_ table.schema [target.1]
  let expr ← bindExpression table.toRef target.2
  return (column, expr)

/-- `BindUpdate`; `bindExpression` is `BindExpression` with the table as its scope. -/
def bindUpdate (catalog : Catalog) (bindExpression : BoundTableRef → PGNode → Except Fault BoundExpression)
    (stmt : PGUpdateStmt PGNode) : Except Fault UpdateStatement :=
  if stmt.withClause then .error (.exception .notImplemented "update with clause not supported yet")
  else if stmt.fromClause then .error (.exception .notImplemented "update from clause not supported yet")
  else do
    let table ← bindBaseTableRef catalog stmt.relname none
    let filterExpr ← (match stmt.whereClause with
      | some whereClause => bindExpression table.toRef whereClause
      | none => .ok (.constant (.boolean 1)))
    let targetExpr ← stmt.targetList.mapM (bindTarget bindExpression table)
    return ⟨table, filterExpr, targetExpr⟩

/-- `UpdatePlanNode`. -/
structure UpdatePlanNode where
  outputSchema : Schema
  child : PlanNode
  tableOid : UInt32
  targetExpressions : List Expr

/-- `GetColIdx` of a `ColumnValueExpression`. -/
def colIdxOf : Expr → Except Fault ℕ
  | .columnValue _ colIdx _ => .ok colIdx
  | _ => .error .undefined

/-- The loop of `PlanUpdate` over the assignments; the expressions are null pointers at first. -/
def assignTargets (filter : PlanNode) : List (Option (List String) × BoundExpression) → List (Option Expr) →
    Except Fault (List (Option Expr))
  | [], targetExprs => .ok targetExprs
  | (col, targetExpr) :: rest, targetExprs => do
    let (_, targetAbstractExpr) ← planScalar [filter] targetExpr
    match col with
    | none => throw .undefined
    | some name => do
      let (_, colAbstractExpr) ← planColumnRef name [filter]
      let colIdx ← colIdxOf colAbstractExpr
      if colIdx < targetExprs.length then
        assignTargets filter rest (targetExprs.set colIdx (some targetAbstractExpr))
      else throw .outOfBounds

/-- The expression at `idx`, or the column itself. -/
def orColumn (schema : Schema) (target : Option Expr × ℕ) : Except Fault Expr :=
  match target.1 with
  | some expr => .ok expr
  | none => columnOf 0 schema target.2

/-- `PlanUpdate`. -/
def planUpdate (catalog : Catalog) (statement : UpdateStatement) : Except Fault UpdatePlanNode := do
  let table ← planBaseTableRef catalog statement.table.table statement.table.alias_ statement.table.schema
  let (_, condition) ← planScalar [table] statement.filterExpr
  let filter : PlanNode := .node (outputSchema table, .filter condition) [table]
  let targetExprs ← assignTargets filter statement.targetExpr
    (List.replicate (outputSchema filter).columns.length none)
  let targetExprs ← targetExprs.zipIdx.mapM (orColumn (outputSchema filter))
  return ⟨.create [.fixed "__bustub_internal.update_rows" .integer 4 integer_fixed integer_size], filter,
    statement.table.oid, targetExprs⟩

end Model

/-! ## The column of an assignment -/

section Columns

variable {table name : String} {alias_ : Option String} {schema : Schema} {ref : List String}

/-- The binder returns the only column of that name. -/
theorem resolve_target (h : resolveColumnRefFromBaseTableRef table alias_ schema [name] = .ok (some ref)) :
    ∃ (i : ℕ) (column : Column), schema.columns[i]? = some column ∧ lower column.name = name ∧
      ref = [getBoundTableName table alias_, column.name] ∧
      ∀ (j : ℕ) c, schema.columns[j]? = some c → lower c.name = name → j = i := by
  obtain ⟨direct, hdirect, h⟩ := bind_eq_ok.mp h
  obtain ⟨stripped, hstripped, h⟩ := bind_eq_ok.mp h
  -- a name of one part is not stripped
  cases hstripped
  cases direct with
  | none => cases h
  | some rest =>
    cases h
    obtain ⟨i, column, hcolumn, hmatch, rfl, huniq⟩ := onlyMatch_unique hdirect
    refine ⟨i, column, hcolumn, of_decide_eq_true hmatch, rfl, ?_⟩
    intro j c hc hlower
    exact huniq j c hc (decide_eq_true hlower)

theorem getElem?_inferScanSchema (boundTableName : String) (schema : Schema) (i : ℕ) :
    (inferScanSchema boundTableName schema).columns[i]? = schema.columns[i]?.map fun column =>
      placed (schema.columns.map fun column => withColumnName column (boundTableName ++ "." ++ column.name)) i
        (withColumnName column (boundTableName ++ "." ++ column.name)) := by
  rw [inferScanSchema, getElem?_create, List.getElem?_map, Option.map_map]
  rfl

theorem length_inferScanSchema (boundTableName : String) (schema : Schema) :
    (inferScanSchema boundTableName schema).columns.length = schema.columns.length := by
  rw [inferScanSchema, length_create, List.length_map]

/-- What `PlanColumnRef` returns over one plan. -/
theorem planColumnRef_cases {colName : List String} {child : PlanNode} {named : String × Expr}
    (h : planColumnRef colName [child] = .ok named) :
    ∃ i column, named.2 = .columnValue 0 i column ∧ (outputSchema child).columns[i]? = some column ∧
      column.name = joinName colName ∧
      (outputSchema child).columns.find? (fun c => c.name = joinName colName) = some column := by
  obtain ⟨-, -, h⟩ := bind_eq_ok.mp h
  obtain ⟨i, hi, h⟩ := bind_eq_ok.mp h
  obtain ⟨expr, hexpr, h⟩ := bind_eq_ok.mp h
  cases h
  unfold getColIdx at hi
  split at hi
  · cases hi
  · next k hk =>
    cases hi
    obtain ⟨hlt, hname, hbefore⟩ := List.findIdx?_eq_some_iff_getElem.mp hk
    unfold columnOf at hexpr
    rw [List.getElem?_eq_getElem hlt] at hexpr
    cases hexpr
    refine ⟨i, _, rfl, List.getElem?_eq_getElem hlt, of_decide_eq_true hname, ?_⟩
    exact List.find?_eq_some_iff_getElem.mpr ⟨hname, i, hlt, rfl, fun j hj => by simpa using hbefore j hj⟩

/-- **The planner puts an assignment where the binder found its column**, which is the only one of that name. -/
theorem colIdx_of_target {filter : PlanNode} {named : String × Expr} {k : ℕ}
    (hschema : outputSchema filter = inferScanSchema (getBoundTableName table alias_) schema)
    (hresolve : resolveColumnRefFromBaseTableRef table alias_ schema [name] = .ok (some ref))
    (hplan : planColumnRef ref [filter] = .ok named) (hk : colIdxOf named.2 = .ok k) :
    ∀ (i : ℕ) column, schema.columns[i]? = some column → (lower column.name = name ↔ k = i) := by
  obtain ⟨i, column, hcolumn, hlower, rfl, huniq⟩ := resolve_target hresolve
  obtain ⟨k', found, hnamed, hfound, hname, -⟩ := planColumnRef_cases hplan
  rw [hnamed] at hk
  cases hk
  -- the column that the planner found has the name of the binder's
  have hki : k = i := by
    rw [hschema, getElem?_inferScanSchema] at hfound
    cases hc : schema.columns[k]? with
    | none =>
      rw [hc] at hfound
      cases hfound
    | some c =>
      rw [hc] at hfound
      cases hfound
      have heq : getBoundTableName table alias_ ++ "." ++ c.name = getBoundTableName table alias_ ++ "." ++ column.name := by
        rw [← joinName_pair _ column.name]
        exact hname
      rw [String.append_right_inj] at heq
      exact huniq k c hc (by rw [heq, hlower])
  intro j c hc
  constructor
  · intro hlow
    rw [hki, huniq j c hc hlow]
  · rintro rfl
    rw [hki, hcolumn] at hc
    cases hc
    exact hlower

end Columns

/-! ## The loop over the assignments -/

section Assignments

variable {PGNode : Type} {bindExpression : BoundTableRef → PGNode → Except Fault BoundExpression}
  {table : BoundBaseTableRef} {filter : PlanNode} {done rest : List (String × PGNode)} {exprs exprs' : List (Option Expr)}

/-- The assignment that counts for a column: the last one of its name. -/
def lastAssigned (column : Column) (targets : List (String × PGNode)) : Option PGNode :=
  targets.foldl (fun last target => if lower column.name = target.1 then some target.2 else last) none

theorem lastAssigned_concat (column : Column) (done : List (String × PGNode)) (target : String × PGNode) :
    lastAssigned column (done ++ [target]) =
      if lower column.name = target.1 then some target.2 else lastAssigned column done := by
  unfold lastAssigned
  rw [List.foldl_append]
  rfl

/-- The expression is what the binder and the planner make of the parse tree `val`. -/
def Makes (bindExpression : BoundTableRef → PGNode → Except Fault BoundExpression) (table : BoundBaseTableRef)
    (filter : PlanNode) (val : PGNode) (e : Expr) : Prop :=
  ∃ bound name, bindExpression table.toRef val = .ok bound ∧ planScalar [filter] bound = .ok (name, e)

/-- What the loop has put where, after the assignments `done`. -/
structure Tracks (bindExpression : BoundTableRef → PGNode → Except Fault BoundExpression) (table : BoundBaseTableRef)
    (filter : PlanNode) (done : List (String × PGNode)) (exprs : List (Option Expr)) : Prop where
  length : exprs.length = table.schema.columns.length
  none_of : ∀ (i : ℕ) column, table.schema.columns[i]? = some column → lastAssigned column done = none →
    exprs[i]? = some none
  some_of : ∀ (i : ℕ) column val, table.schema.columns[i]? = some column → lastAssigned column done = some val →
    ∃ e, exprs[i]? = some (some e) ∧ Makes bindExpression table filter val e

theorem tracks_nil : Tracks bindExpression table filter []
    (List.replicate table.schema.columns.length (none : Option Expr)) := by
  refine ⟨List.length_replicate, ?_, fun _ _ _ _ hval => by cases hval⟩
  intro i column hcolumn _
  obtain ⟨hi, -⟩ := List.getElem?_eq_some_iff.mp hcolumn
  exact List.getElem?_replicate_of_lt hi

/-- **One assignment**: its expression is in the place of its column. -/
theorem Tracks.set {target : String × PGNode} {k : ℕ} {e : Expr} (ht : Tracks bindExpression table filter done exprs)
    (hk : ∀ (i : ℕ) column, table.schema.columns[i]? = some column → (lower column.name = target.1 ↔ k = i))
    (he : Makes bindExpression table filter target.2 e) :
    Tracks bindExpression table filter (done ++ [target]) (exprs.set k (some e)) := by
  refine ⟨by rw [List.length_set, ht.length], ?_, ?_⟩
  · intro i column hcolumn hnone
    rw [lastAssigned_concat] at hnone
    split_ifs at hnone with hname
    rw [List.getElem?_set_ne fun heq => hname ((hk i column hcolumn).mpr heq)]
    exact ht.none_of i column hcolumn hnone
  · intro i column val hcolumn hval
    rw [lastAssigned_concat] at hval
    split_ifs at hval with hname
    · cases hval
      obtain rfl := (hk i column hcolumn).mp hname
      obtain ⟨hi, -⟩ := List.getElem?_eq_some_iff.mp hcolumn
      exact ⟨e, List.getElem?_set_self (by rw [ht.length]; exact hi), he⟩
    · rw [List.getElem?_set_ne fun heq => hname ((hk i column hcolumn).mpr heq)]
      exact ht.some_of i column val hcolumn hval

/-- **The whole loop.** -/
theorem Tracks.assignTargets
    (hschema : outputSchema filter = inferScanSchema (getBoundTableName table.table table.alias_) table.schema)
    {targets : List (Option (List String) × BoundExpression)}
    (hbind : List.Forall₂ (fun target bound => bindTarget bindExpression table target = .ok bound) rest targets)
    (ht : Tracks bindExpression table filter done exprs)
    (hok : Planner.assignTargets filter targets exprs = .ok exprs') :
    Tracks bindExpression table filter (done ++ rest) exprs' := by
  induction hbind generalizing done exprs with
  | nil =>
    cases hok
    rw [List.append_nil]
    exact ht
  | @cons target bound rest targets htarget _ ih =>
    obtain ⟨column, hcolumn, htarget⟩ := bind_eq_ok.mp htarget
    obtain ⟨expr, hexpr, htarget⟩ := bind_eq_ok.mp htarget
    cases htarget
    obtain ⟨⟨name, e⟩, he, hok⟩ := bind_eq_ok.mp hok
    cases column with
    | none => cases hok
    | some ref =>
      obtain ⟨named, hnamed, hok⟩ := bind_eq_ok.mp hok
      obtain ⟨k, hk, hok⟩ := bind_eq_ok.mp hok
      split_ifs at hok with hlt
      · have hstep := ht.set (colIdx_of_target hschema hcolumn hnamed hk) ⟨expr, name, hexpr, he⟩
        have hrest := ih hstep hok
        rwa [List.append_assoc, List.singleton_append] at hrest

end Assignments

/-! ## Types -/

section Types

variable {child : PlanNode}

/-- The type of a bound expression over the columns of a table. -/
def boundType (schema : Schema) : BoundExpression → Option TypeId
  | .constant val => some val.getTypeId
  | .columnRef colName _ => (schema.columns.find? fun c => c.name = joinName colName).map Column.type
  | .binaryOp opName _ _ => if opName = "+" ∨ opName = "-" then some .integer else some .boolean
  | .funcCall _ _ => some .vector
  | .alias_ _ child => boundType schema child
  | _ => none

/-- The expression, if it is a column, is one of the schema. -/
def ReadsColumn (schema : Schema) (e : Expr) : Prop :=
  ∀ t i c, e = .columnValue t i c → schema.columns[i]? = some c

theorem arithmeticExpression_ok {left right e : Expr} {computeType : ArithmeticType}
    (h : arithmeticExpression left right computeType = .ok e) : e = .arithmetic computeType left right := by
  unfold arithmeticExpression at h
  split_ifs at h
  exact (Except.ok.inj h).symm

theorem logicExpression_ok {left right e : Expr} {logicType : LogicType}
    (h : logicExpression left right logicType = .ok e) : e = .logic logicType left right := by
  unfold logicExpression at h
  split_ifs at h
  exact (Except.ok.inj h).symm

/-- The factory makes a comparison, an arithmetic or a logic expression; which of them, the operator says. -/
theorem getBinaryExpressionFromFactory_cases {opName : String} {left right e : Expr}
    (h : getBinaryExpressionFromFactory opName left right = .ok e) :
    ((opName = "+" ∨ opName = "-") ∧ ∃ computeType, e = .arithmetic computeType left right) ∨
      (¬ (opName = "+" ∨ opName = "-") ∧
        ((∃ compType, e = .comparison compType left right) ∨ ∃ logicType, e = .logic logicType left right)) := by
  unfold getBinaryExpressionFromFactory at h
  by_cases harith : opName = "+" ∨ opName = "-"
  · refine .inl ⟨harith, ?_⟩
    rcases harith with rfl | rfl
    · simp only [String.reduceEq, or_self, if_false, if_true] at h
      exact ⟨_, arithmeticExpression_ok h⟩
    · simp only [String.reduceEq, or_self, if_false, if_true] at h
      exact ⟨_, arithmeticExpression_ok h⟩
  · refine .inr ⟨harith, ?_⟩
    obtain ⟨hplus, hminus⟩ := not_or.mp harith
    rw [if_neg hplus, if_neg hminus] at h
    -- six comparisons and two logic operators are left
    iterate 6
      rcases ite_eq_ok h with h | h
      · exact .inl ⟨_, (Except.ok.inj h).symm⟩
    rcases ite_eq_ok h with h | h
    · exact .inr ⟨_, logicExpression_ok h⟩
    rcases ite_eq_ok h with h | h
    · exact .inr ⟨_, logicExpression_ok h⟩
    · cases h

/-- **The type of a planned expression** is that of the bound one. -/
theorem planExpression_type : ∀ (expr : BoundExpression) {ctx ctx' : PlannerContext} {name : String} {e : Expr},
    planExpression [child] expr ctx = .ok ((name, e), ctx') → ctx.exprInAgg = [] →
    boundType (outputSchema child) expr = some e.returnType ∧ ReadsColumn (outputSchema child) e
  | .aggCall funcName isDistinct args, ctx, ctx', name, e, h, hctx => by
    rw [planExpression, hctx] at h
    cases h
  | .columnRef colName qualified, ctx, ctx', name, e, h, _ => by
    obtain ⟨named, hnamed, h⟩ := bind_eq_ok.mp h
    cases h
    obtain ⟨i, column, he, hcolumn, -, hfind⟩ := planColumnRef_cases hnamed
    cases he
    rw [boundType, hfind]
    refine ⟨rfl, ?_⟩
    intro t j c heq
    cases heq
    exact hcolumn
  | .binaryOp opName larg rarg, ctx, ctx', name, e, h, _ => by
    obtain ⟨_, -, h⟩ := bind_eq_ok.mp h
    obtain ⟨_, -, h⟩ := bind_eq_ok.mp h
    obtain ⟨expr, hexpr, h⟩ := bind_eq_ok.mp h
    cases h
    rcases getBinaryExpressionFromFactory_cases hexpr with
      ⟨hop, computeType, rfl⟩ | ⟨hop, ⟨compType, rfl⟩ | ⟨logicType, rfl⟩⟩
    · rw [boundType, if_pos hop]
      exact ⟨rfl, fun t i c heq => by cases heq⟩
    · rw [boundType, if_neg hop]
      exact ⟨rfl, fun t i c heq => by cases heq⟩
    · rw [boundType, if_neg hop]
      exact ⟨rfl, fun t i c heq => by cases heq⟩
  | .funcCall funcName args, ctx, ctx', name, e, h, _ => by
    obtain ⟨_, -, h⟩ := bind_eq_ok.mp h
    obtain ⟨expr, hexpr, h⟩ := bind_eq_ok.mp h
    cases h
    unfold funcCallExpression at hexpr
    split_ifs at hexpr
    · cases hexpr
      exact ⟨rfl, fun t i c heq => by cases heq⟩
    · cases hexpr
  | .constant val, ctx, ctx', name, e, h, _ => by
    obtain ⟨expr, hexpr, h⟩ := bind_eq_ok.mp h
    cases h
    obtain ⟨_, -, hexpr⟩ := bind_eq_ok.mp hexpr
    cases hexpr
    exact ⟨rfl, fun t i c heq => by cases heq⟩
  | .alias_ aliasName inner, ctx, ctx', name, e, h, hctx => by
    obtain ⟨⟨⟨_, expr⟩, ctx₁⟩, hinner, h⟩ := bind_eq_ok.mp h
    cases h
    exact planExpression_type inner hinner hctx
  | .window _ _ _ _ _ _ _ _, _, _, _, _, h, _ => nomatch h
  | .invalid, _, _, _, _, h, _ => nomatch h
  | .star, _, _, _, _, h, _ => nomatch h
  | .unaryOp _ _, _, _, _, _, h, _ => nomatch h

theorem planScalar_type {expr : BoundExpression} {name : String} {e : Expr}
    (h : planScalar [child] expr = .ok (name, e)) :
    boundType (outputSchema child) expr = some e.returnType ∧ ReadsColumn (outputSchema child) e := by
  obtain ⟨⟨named, ctx'⟩, hplan, h⟩ := bind_eq_ok.mp h
  cases h
  exact planExpression_type expr hplan rfl

end Types

/-! ## The plan -/

section Plans

variable {PGNode : Type} {catalog : Catalog} {bindExpression : BoundTableRef → PGNode → Except Fault BoundExpression}
  {stmt : PGUpdateStmt PGNode} {statement : UpdateStatement} {plan : UpdatePlanNode}

/-- The expressions of an update: one for each column, the one assigned to it last or the column itself. -/
structure Targets (bindExpression : BoundTableRef → PGNode → Except Fault BoundExpression) (table : BoundBaseTableRef)
    (stmt : PGUpdateStmt PGNode) (plan : UpdatePlanNode) : Prop where
  length : plan.targetExpressions.length = table.schema.columns.length
  assigned : ∀ (i : ℕ) column val, table.schema.columns[i]? = some column →
    lastAssigned column stmt.targetList = some val →
    ∃ e, plan.targetExpressions[i]? = some e ∧ Makes bindExpression table plan.child val e
  identity : ∀ (i : ℕ) column, table.schema.columns[i]? = some column → lastAssigned column stmt.targetList = none →
    ∃ c, (outputSchema plan.child).columns[i]? = some c ∧ c.name = table.table ++ "." ++ column.name ∧
      c.type = column.type ∧ plan.targetExpressions[i]? = some (.columnValue 0 i c)

theorem bindUpdate_cases (hbind : bindUpdate catalog bindExpression stmt = .ok statement) :
    statement.table.alias_ = none ∧
      List.Forall₂ (fun target bound => bindTarget bindExpression statement.table target = .ok bound)
        stmt.targetList statement.targetExpr := by
  unfold bindUpdate at hbind
  split_ifs at hbind
  obtain ⟨table, htable, hbind⟩ := bind_eq_ok.mp hbind
  obtain ⟨filterExpr, -, hbind⟩ := bind_eq_ok.mp hbind
  obtain ⟨targetExpr, htargets, hbind⟩ := bind_eq_ok.mp hbind
  cases hbind
  refine ⟨?_, forall₂_of_mapM_eq_ok htargets⟩
  unfold bindBaseTableRef at htable
  split at htable
  · cases htable
  · cases htable
  · cases htable
    rfl

/-- **The shape of the plan**, for every statement that is accepted. -/
theorem planUpdate_targets (hbind : bindUpdate catalog bindExpression stmt = .ok statement)
    (hplan : planUpdate catalog statement = .ok plan) :
    Targets bindExpression statement.table stmt plan ∧
      outputSchema plan.child = inferScanSchema statement.table.table statement.table.schema := by
  obtain ⟨halias, htargets⟩ := bindUpdate_cases hbind
  obtain ⟨scan, hscan, hplan⟩ := bind_eq_ok.mp hplan
  obtain ⟨⟨_, condition⟩, -, hplan⟩ := bind_eq_ok.mp hplan
  obtain ⟨exprs, hexprs, hplan⟩ := bind_eq_ok.mp hplan
  obtain ⟨final, hfinal, hplan⟩ := bind_eq_ok.mp hplan
  cases hplan
  have hschema : outputSchema scan =
      inferScanSchema (getBoundTableName statement.table.table statement.table.alias_) statement.table.schema :=
    outputSchema_planBaseTableRef hscan
  have hcount : (outputSchema scan).columns.length = statement.table.schema.columns.length := by
    rw [hschema, length_inferScanSchema]
  rw [outputSchema_node, hcount] at hexprs
  have hfilter : outputSchema (.node (outputSchema scan, .filter condition) [scan] : PlanNode) =
      inferScanSchema (getBoundTableName statement.table.table statement.table.alias_) statement.table.schema := hschema
  have htracks := tracks_nil.assignTargets hfilter htargets hexprs
  rw [List.nil_append] at htracks
  rw [outputSchema_node] at hfinal
  obtain ⟨hlength, hitem⟩ := List.forall₂_iff_get.mp (forall₂_of_mapM_eq_ok hfinal)
  rw [List.length_zipIdx] at hlength
  -- the expression at `i` is the assigned one or the column
  have hat : ∀ (i : ℕ) o, exprs[i]? = some o → ∃ e, final[i]? = some e ∧ orColumn (outputSchema scan) (o, i) = .ok e := by
    intro i o ho
    obtain ⟨hi, rfl⟩ := List.getElem?_eq_some_iff.mp ho
    have hi' : i < final.length := by omega
    refine ⟨final[i], List.getElem?_eq_getElem hi', ?_⟩
    have horcol := hitem i (by rw [List.length_zipIdx]; exact hi) hi'
    simpa only [List.get_eq_getElem, List.getElem_zipIdx, Nat.zero_add] using horcol
  rw [halias] at hschema
  refine ⟨⟨?_, ?_, ?_⟩, hschema⟩
  · show final.length = _
    rw [← hlength, htracks.length]
  · intro i column val hcolumn hval
    obtain ⟨e, he, hmakes⟩ := htracks.some_of i column val hcolumn hval
    obtain ⟨e', hfinali, hor⟩ := hat i _ he
    cases hor
    exact ⟨e, hfinali, hmakes⟩
  · intro i column hcolumn hnone
    obtain ⟨e', hfinali, hor⟩ := hat i _ (htracks.none_of i column hcolumn hnone)
    have hscanned := getElem?_inferScanSchema statement.table.table statement.table.schema i
    rw [hcolumn, ← show _ = inferScanSchema statement.table.table _ from hschema] at hscanned
    unfold orColumn columnOf at hor
    dsimp only at hor
    rw [hscanned] at hor
    cases hor
    exact ⟨_, hscanned, rfl, rfl, hfinali⟩

/-- The expressions have the types of the columns, in their order. -/
def HasTypes (table : BoundBaseTableRef) (plan : UpdatePlanNode) : Prop :=
  plan.targetExpressions.map Expr.returnType = table.schema.columns.map Column.type

/-- A row that is built from the values of the expressions is encoded, and decodes to these values. -/
def Rebuilds (table : BoundBaseTableRef) (plan : UpdatePlanNode) : Prop :=
  ∀ (tuple : Tuple) values,
    plan.targetExpressions.mapM (fun e => e.evaluate (some tuple) (outputSchema plan.child)) = .ok values →
    encodedSize table.schema.columns values < 2 ^ 31 →
    ∃ row, Tuple.ofValues values table.schema = .ok row ∧
      ∀ (j : ℕ) v, values[j]? = some v → row.getValue table.schema j = .ok v

/-- What the plan of an `UPDATE` should be. -/
structure KeepsRowsTyped (bindExpression : BoundTableRef → PGNode → Except Fault BoundExpression)
    (table : BoundBaseTableRef) (stmt : PGUpdateStmt PGNode) (plan : UpdatePlanNode) : Prop where
  targets : Targets bindExpression table stmt plan
  types : HasTypes table plan
  rebuilt : Rebuilds table plan

/-- For each column that is assigned, the expression assigned to it last has its type. -/
def AssignsTyped (bindExpression : BoundTableRef → PGNode → Except Fault BoundExpression)
    (table : BoundBaseTableRef) (stmt : PGUpdateStmt PGNode) : Prop :=
  ∀ (i : ℕ) column val bound, table.schema.columns[i]? = some column →
    lastAssigned column stmt.targetList = some val → bindExpression table.toRef val = .ok bound →
    boundType (inferScanSchema table.table table.schema) bound = some column.type

variable {table : BoundBaseTableRef}

theorem Targets.hasTypes_iff (ht : Targets bindExpression table stmt plan)
    (hchild : outputSchema plan.child = inferScanSchema table.table table.schema) :
    HasTypes table plan ↔ AssignsTyped bindExpression table stmt := by
  constructor
  · intro htypes i column val bound hcolumn hval hbound
    obtain ⟨e, he, bound', name, hbound', hplan⟩ := ht.assigned i column val hcolumn hval
    rw [hbound] at hbound'
    cases hbound'
    have hat := congrArg (fun types => types[i]?) htypes
    rw [List.getElem?_map, List.getElem?_map, he, hcolumn] at hat
    rw [← hchild, (planScalar_type hplan).1]
    exact hat
  · intro htyped
    refine List.ext_getElem? fun i => ?_
    rw [List.getElem?_map, List.getElem?_map]
    cases hcolumn : table.schema.columns[i]? with
    | none =>
      have hlen := List.getElem?_eq_none_iff.mp hcolumn
      rw [List.getElem?_eq_none (by rw [ht.length]; exact hlen)]
      rfl
    | some column =>
      cases hval : lastAssigned column stmt.targetList with
      | none =>
        obtain ⟨c, -, -, htype, he⟩ := ht.identity i column hcolumn hval
        rw [he]
        exact congrArg some htype
      | some val =>
        obtain ⟨e, he, bound, name, hbound, hplan⟩ := ht.assigned i column val hcolumn hval
        have htype := htyped i column val bound hcolumn hval hbound
        rw [← hchild, (planScalar_type hplan).1] at htype
        rw [he]
        exact htype

theorem Targets.readsColumn (ht : Targets bindExpression table stmt plan) {e : Expr}
    (he : e ∈ plan.targetExpressions) : ReadsColumn (outputSchema plan.child) e := by
  obtain ⟨i, hi, rfl⟩ := List.mem_iff_getElem.mp he
  have hi' : i < table.schema.columns.length := ht.length ▸ hi
  have hcolumn := List.getElem?_eq_getElem hi'
  have hget := List.getElem?_eq_getElem hi
  cases hval : lastAssigned table.schema.columns[i] stmt.targetList with
  | none =>
    obtain ⟨c, hc, -, -, he⟩ := ht.identity i _ hcolumn hval
    rw [hget] at he
    intro t j c' heq
    rw [heq] at he
    cases he
    exact hc
  | some val =>
    obtain ⟨e, he, bound, name, -, hplan⟩ := ht.assigned i _ val hcolumn hval
    rw [hget] at he
    cases he
    exact (planScalar_type hplan).2

/-- Values of the right types are encoded and decoded. -/
theorem Targets.rebuilds (ht : Targets bindExpression table stmt plan) {columns : List Column}
    (hschema : table.schema = .create columns) (htypes : HasTypes table plan) : Rebuilds table plan := by
  intro tuple values hvalues hsize
  have hall := (List.forall₂_and_left _ _).mpr ⟨fun e he => ht.readsColumn he, forall₂_of_mapM_eq_ok hvalues⟩
  have hvalued : plan.targetExpressions.map Expr.returnType = values.map Value.getTypeId := by
    refine map_eq_of_forall₂ hall ?_
    rintro e v ⟨hreads, hv⟩
    rw [evaluate_eq_eval] at hv
    refine (getTypeId_eval_of_column ?_ hv).symm
    intro t i c heq hread
    exact getTypeId_getValue (hreads t i c heq) hread
  have hwt : WellTyped columns values := by
    unfold WellTyped
    rw [← hvalued, htypes, hschema, types_create]
  rw [hschema, encodedSize_create] at hsize
  rw [hschema]
  exact ofValues_getValue hwt hsize

/-- **`UPDATE` keeps rows well typed** exactly when the expression assigned last to each assigned column has the
type of the column.  The binder and the planner accept other statements, too. -/
theorem update_typed_iff {columns : List Column} (hbind : bindUpdate catalog bindExpression stmt = .ok statement)
    (hplan : planUpdate catalog statement = .ok plan) (hschema : statement.table.schema = .create columns) :
    KeepsRowsTyped bindExpression statement.table stmt plan ↔ AssignsTyped bindExpression statement.table stmt := by
  obtain ⟨ht, hchild⟩ := planUpdate_targets hbind hplan
  rw [← ht.hasTypes_iff hchild]
  constructor
  · intro hkeeps
    exact hkeeps.types
  · intro htypes
    exact ⟨ht, htypes, ht.rebuilds hschema htypes⟩

/-- A table with one integer column. -/
def oneInteger : Schema := .create [.fixed "a" .integer 4 integer_fixed integer_size]

/-- The catalog after `CREATE TABLE t(a INTEGER)`. -/
def catalogOfT : Catalog :=
  match Catalog.new.createTable "t" oneInteger false (fun _ _ => 0) [] with
  | .ok (_, catalog) => catalog
  | .error _ => .new

/-- `UPDATE t SET a = val`. -/
def setA (val : PGValue) : PGUpdateStmt PGValue := ⟨false, false, "t", none, [("a", val)]⟩

/-- The literals of an `UPDATE`, bound. -/
def bindLiteral (_ : BoundTableRef) (val : PGValue) : Except Fault BoundExpression := bindConstant val

/-- The columns of `u(a INTEGER, b BOOLEAN, c INTEGER)`. -/
def columnsOfU : List Column :=
  [.fixed "a" .integer 4 integer_fixed integer_size, .fixed "b" .boolean 1 boolean_fixed boolean_size,
    .fixed "c" .integer 4 integer_fixed integer_size]

def catalogOfU : Catalog :=
  match Catalog.new.createTable "u" (.create columnsOfU) false (fun _ _ => 0) [] with
  | .ok (_, catalog) => catalog
  | .error _ => .new

/-- `UPDATE u SET a = 'x', c = 7, a = 5`: the string is overwritten, and `b` stays. -/
def assignTwice : PGUpdateStmt PGValue :=
  ⟨false, false, "u", none, [("a", .string [120]), ("c", .integer 7), ("a", .integer 5)]⟩

theorem update_typed_iff_twice : ∃ statement plan, bindUpdate catalogOfU bindLiteral assignTwice = .ok statement ∧
    planUpdate catalogOfU statement = .ok plan ∧
    plan.targetExpressions.map Expr.returnType = [.integer, .boolean, .integer] ∧
    plan.targetExpressions[0]? = some (.constantValue (.integer 5)) ∧
    KeepsRowsTyped bindLiteral statement.table assignTwice plan := by
  obtain ⟨statement, hbind, plan, hplan, htypes, hfirst⟩ :
      ∃ statement, bindUpdate catalogOfU bindLiteral assignTwice = .ok statement ∧ ∃ plan,
        planUpdate catalogOfU statement = .ok plan ∧
          plan.targetExpressions.map Expr.returnType = [.integer, .boolean, .integer] ∧
          plan.targetExpressions[0]? = some (.constantValue (.integer 5)) :=
    ⟨_, rfl, _, rfl, rfl, rfl⟩
  have hschema : statement.table.schema = .create columnsOfU := by
    cases hbind
    rfl
  refine ⟨statement, plan, hbind, hplan, htypes, hfirst, (update_typed_iff hbind hplan hschema).mpr ?_⟩
  intro i column val bound hcolumn hval hbound
  rw [hschema] at hcolumn
  match i, hcolumn with
  | 0, hcolumn =>
    cases hcolumn
    cases hval
    cases hbound
    rfl
  | 1, hcolumn =>
    -- no target names the column
    cases hcolumn
    cases hval
  | 2, hcolumn =>
    cases hcolumn
    cases hval
    cases hbound
    rfl

/-- `UPDATE t SET a = 'x'` is accepted for an integer column, and its plan assigns a string. -/
theorem string_into_integer :
    ∃ statement plan, bindUpdate catalogOfT bindLiteral (setA (.string [120])) = .ok statement ∧
      planUpdate catalogOfT statement = .ok plan ∧
      plan.targetExpressions = [.constantValue (stringValue [120])] ∧
      ¬ KeepsRowsTyped bindLiteral statement.table (setA (.string [120])) plan := by
  refine ⟨_, _, rfl, rfl, rfl, ?_⟩
  intro hkeeps
  cases hkeeps.types

end Plans

end Journey.Planner
