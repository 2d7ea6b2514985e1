import Journey.Bustub.Planner.Aggregation
import Journey.Bustub.Type.Cast

/-!
# Journey.Bustub.Planner.Select — `PlanSelect` and `PlanTableRef`

The planner's recursion over statements and table references.  A reference to a CTE is planned by planning
the statement of the CTE in the place of the reference, so the recursion does not follow the syntax: `depth`
is how deep the stack may get.

* `planSelectWindow`, `planSelectList`: the three ways to plan a select list.
* `planTableRef`, `planSelect`: the recursion.  The CTEs in scope are those of the innermost statement that
  has any.
* `PlannerState`: the expressions behind the statements, and the counter for unnamed columns.
-/

namespace Journey.Planner

open SqlType Catalog Execution Optimizer Binder

/-! ## Expressions outside of an aggregation -/

section Scalars

/-- `PlanExpression` in a context without aggregations. -/
def planScalar (children : List PlanNode) (expr : BoundExpression) : Except Fault (String × Expr) := do
  let (named, _) ← planExpression children expr newContext
  return named

/-- The expressions of `BoundOrderBy`s, planned. -/
def planOrderBys (children : List PlanNode) (orderBys : List BoundOrderBy) : Except Fault (List OrderBy) :=
  orderBys.mapM fun orderBy => do
    let (_, expr) ← planScalar children orderBy.expr
    return ⟨orderBy.type, orderBy.nullOrder, expr⟩

/-- A generated name. -/
def unnamed (id : ℕ) : String := "__unnamed#" ++ toString id

/-- A name, or a generated one in the place of `UNNAMED_COLUMN`, and the counter. -/
def nameOrUnnamed (name : String) (id : ℕ) : String × ℕ :=
  if name = unnamedColumn then (unnamed id, id + 1) else (name, id)

end Scalars

/-! ## Window functions -/

section Windows

/-- `GetWindowAggCallFromFactory`. -/
def getWindowAggCallFromFactory (funcName : String) (args : List Expr) :
    Except Fault (WindowFunctionType × List Expr) :=
  match args with
  | [] =>
    if funcName = "count_star" then .ok (.countStarAggregate, [])
    else if funcName = "rank" then .ok (.rank, [])
    else .error (unsupported 0)
  | [expr] =>
    if funcName = "min" then .ok (.minAggregate, [expr])
    else if funcName = "max" then .ok (.maxAggregate, [expr])
    else if funcName = "sum" then .ok (.sumAggregate, [expr])
    else if funcName = "count" then .ok (.countAggregate, [expr])
    else .error (unsupported 1)
  | _ => .error (unsupported args.length)
where
  unsupported (n : ℕ) : Fault :=
    .exception .invalid ("unsupported window_call " ++ funcName ++ " with " ++ toString n ++ " args")

/-- The column that stands for a window function until its value is known. -/
def placeholder : Expr := .columnValue 0 (2 ^ 32 - 1) (.fixed "<placeholder>" .integer 4 integer_fixed integer_size)

/-- The argument of a window call; `count(*)` and `row_number` are rewritten into `count(1)`. -/
def cleanArg : List Expr → Except Fault Expr
  | [] => .ok (.constantValue (.integer 1))
  | [arg] => .ok arg
  | _ => .error (.exception .notImplemented "only agg call of zero/one arg is supported")

/-- The part of the loop of `PlanSelectWindow` for a window call, column `index` of the output. -/
def planWindowCall (child : PlanNode) (index : ℕ) : BoundExpression → Except Fault WindowFunction
  | .window funcName args partitionBy orderBys _ _ start end_ =>
    if start ≠ .unboundedPreceding ∨ (end_ ≠ .currentRowRows ∧ end_ ≠ .currentRowRange) then
      .error (.exception .invalid "BusTub currently only support window function with default window frame settings")
    else do
      let partitionBy ← partitionBy.mapM (planScalar [child])
      if funcName = "rank" ∧ orderBys.isEmpty then
        .error (.exception .invalid "order by clause is mandatory for rank function")
      else do
        let orderBy ← planOrderBys [child] orderBys
        let rawArgs ← args.mapM (planScalar [child])
        let (type, cleanArgs) ← getWindowAggCallFromFactory funcName (rawArgs.map Prod.snd)
        let function ← cleanArg cleanArgs
        return ⟨index, function, type, partitionBy.map Prod.snd, orderBy⟩
  | _ => .error (.logicError "std::bad_cast")

/-- The loop of `PlanSelectWindow` for the item at `index`: the column, the window function, the counter. -/
def planWindowItem (child : PlanNode) (index : ℕ) (item : BoundExpression) (id : ℕ) :
    Except Fault ((String × Expr) × List WindowFunction × ℕ) :=
  if item.hasWindowFunction then
    match item with
    | .alias_ name call => do
      let function ← planWindowCall child index call
      return ((name, placeholder), [function], id)
    | call => do
      let function ← planWindowCall child index call
      return ((unnamed id, placeholder), [function], id + 1)
  else do
    let (name, expr) ← planScalar [child] item
    let (name, id) := nameOrUnnamed name id
    return ((name, expr), [], id)

/-- The whole loop. -/
def planWindowItems (child : PlanNode) : ℕ → List BoundExpression → ℕ →
    Except Fault (List (String × Expr) × List WindowFunction × ℕ)
  | _, [], id => .ok ([], [], id)
  | index, item :: items, id => do
    let (column, function, id) ← planWindowItem child index item id
    let (columns, functions, id) ← planWindowItems child (index + 1) items id
    return (column :: columns, function ++ functions, id)

variable (valueToString : Value → String)

mutual

/-- `ToString` of an expression, given that of values. -/
def exprToString : Expr → String
  | .columnValue tupleIdx colIdx _ => "#" ++ toString tupleIdx ++ "." ++ toString colIdx
  | .constantValue val => valueToString val
  | .arithmetic computeType left right =>
    "(" ++ exprToString left ++ (match computeType with | .plus => "+" | .minus => "-") ++ exprToString right ++ ")"
  | .comparison compType left right =>
    "(" ++ exprToString left ++ (match compType with
      | .equal => "="
      | .notEqual => "!="
      | .lessThan => "<"
      | .lessThanOrEqual => "<="
      | .greaterThan => ">"
      | .greaterThanOrEqual => ">=") ++ exprToString right ++ ")"
  | .logic logicType left right =>
    "(" ++ exprToString left ++ (match logicType with | .and => "and" | .or => "or") ++ exprToString right ++ ")"
  | .array children => "[" ++ ",".intercalate (exprsToString children) ++ "]"
  | .string exprType arg =>
    (match exprType with | .lower => "lower" | .upper => "upper") ++ "(" ++ exprToString arg ++ ")"

def exprsToString : List Expr → List String
  | [] => []
  | expr :: exprs => exprToString expr :: exprsToString exprs

end

/-- Two `ORDER BY`s agree, as `CheckOrderByCompatible` compares them. -/
def sameOrderBy (first orderBy : List OrderBy) : Bool :=
  orderBy.length == first.length && (List.zip first orderBy).all fun (a, b) =>
    a.orderType == b.orderType && a.orderNull == b.orderNull &&
      exprToString valueToString a.expr == exprToString valueToString b.expr

/-- `CheckOrderByCompatible`. -/
def checkOrderByCompatible (orderByExprs : List (List OrderBy)) : Except Fault Unit :=
  match orderByExprs with
  | [] => .ok ()
  | first :: _ =>
    if orderByExprs.all (sameOrderBy valueToString first) then .ok ()
    else .error (.exception .invalid "order by clause of window functions are not compatible")

/-- `PlanSelectWindow`. -/
def planSelectWindow (selectList : List BoundExpression) (child : PlanNode) (id : ℕ) :
    Except Fault (PlanNode × ℕ) := do
  let (columns, functions, id) ← planWindowItems child 0 selectList id
  checkOrderByCompatible valueToString (functions.map WindowFunction.orderBy)
  let schema ← projectionSchema columns
  return (.node (schema, .other (.windowFunction (columns.map Prod.snd) functions)) [child], id)

end Windows

/-! ## The stages of a statement -/

section Stages

/-- The loop of a normal select: the columns and the counter. -/
def planSelectItems (child : PlanNode) : List BoundExpression → ℕ → Except Fault (List (String × Expr) × ℕ)
  | [], id => .ok ([], id)
  | item :: items, id => do
    let (name, expr) ← planScalar [child] item
    let (name, id) := nameOrUnnamed name id
    let (columns, id) ← planSelectItems child items id
    return ((name, expr) :: columns, id)

/-- What the loop over the select list finds first. -/
inductive SelectKind
  | plain
  | agg
  | window
deriving DecidableEq

/-- The loop that sets `has_agg` or `has_window_agg`. -/
def selectKind : List BoundExpression → Except Fault SelectKind
  | [] => .ok .plain
  | item :: items => do
    if ← item.hasAggregation then return .agg
    if item.hasWindowFunction then return .window
    selectKind items

/-- The select list of a statement with what belongs to it: the plan, the expressions that are left, and
the counter. -/
def planSelectList (valueToString : Value → String) (exprs : SelectExprs) (groupBy : List BoundExpression)
    (plan : PlanNode) (id : ℕ) : Except Fault (PlanNode × SelectExprs × ℕ) := do
  let kind ← selectKind exprs.selectList
  if kind = .window then
    if exprs.having.isInvalid = false then
      .error (.exception .invalid "HAVING on window function is not supported yet.")
    else if groupBy.isEmpty = false then
      .error (.exception .invalid "Group by is not allowed to use with window function.")
    else do
      let (plan, id) ← planSelectWindow valueToString exprs.selectList plan id
      return (plan, exprs, id)
  else if exprs.having.isInvalid = false ∨ groupBy.isEmpty = false ∨ kind = .agg then do
    let (plan, exprs) ← planSelectAgg exprs groupBy plan
    return (plan, exprs, id)
  else do
    let (columns, id) ← planSelectItems plan exprs.selectList id
    let plan ← projectionNode columns plan
    return (plan, exprs, id)

/-- The filter for the `WHERE` clause, if there is one. -/
def planWhere (where_ : BoundExpression) (plan : PlanNode) : Except Fault PlanNode :=
  if where_.isInvalid then .ok plan
  else do
    let (_, expr) ← planScalar [plan] where_
    return .node (outputSchema plan, .filter expr) [plan]

/-- The columns of a plan, each as an expression over it. -/
def columnsOf (plan : PlanNode) : List Expr :=
  (outputSchema plan).columns.mapIdx fun i column => .columnValue 0 i column

/-- `DISTINCT` as an aggregation over all the columns. -/
def planDistinct (isDistinct : Bool) (plan : PlanNode) : PlanNode :=
  if isDistinct then .node (outputSchema plan, .other (.aggregation (columnsOf plan) [] [])) [plan] else plan

/-- `ORDER BY`. -/
def planSort (sort : List BoundOrderBy) (plan : PlanNode) : Except Fault PlanNode :=
  if sort.isEmpty then .ok plan
  else do
    let orderBys ← planOrderBys [plan] sort
    return .node (outputSchema plan, .sort orderBys) [plan]

/-- The constant of a `LIMIT` or `OFFSET` clause.  It is cast first, and the result is not used. -/
def integerConstant (clause : String) : BoundExpression → Except Fault Int32
  | .constant val => do
    let _ ← val.castAs .integer
    match val with
    | .integer i => return i
    | _ => throw (mustBeInteger clause)
  | _ => .error (mustBeInteger clause)
where
  mustBeInteger (clause : String) : Fault :=
    .exception .notImplemented (clause ++ " clause must be an integer constant.")

/-- The constant of a clause, if there is one. -/
def clauseConstant (clause : String) (expr : BoundExpression) : Except Fault (Option Int32) :=
  if expr.isInvalid then .ok none else (integerConstant clause expr).map some

/-- `LIMIT` and `OFFSET`; the limit becomes a `size_t`. -/
def planLimit (limitCount limitOffset : BoundExpression) (plan : PlanNode) : Except Fault PlanNode := do
  let limit ← clauseConstant "LIMIT" limitCount
  let offset ← clauseConstant "OFFSET" limitOffset
  match offset, limit with
  | some _, _ => .error (.exception .notImplemented "OFFSET clause is not supported yet.")
  | none, none => .ok plan
  | none, some limit => .ok (.node (outputSchema plan, .other (.limit limit.toInt64.toUInt64)) [plan])

end Stages

/-! ## Table references -/

section TableRefs

/-- `InferScanSchema`. -/
def inferScanSchema (boundTableName : String) (schema : Schema) : Schema :=
  .create (schema.columns.map fun column => withColumnName column (boundTableName ++ "." ++ column.name))

/-- `StringUtil::StartsWith`. -/
def startsWith (str start : String) : Bool := start.toList.isPrefixOf str.toList

/-- `PlanBaseTableRef`. -/
def planBaseTableRef (catalog : Catalog) (table : String) (alias_ : Option String) (schema : Schema) :
    Except Fault PlanNode :=
  match catalog.getTable table with
  | .ok (some info) =>
    let schema := inferScanSchema (getBoundTableName table alias_) schema
    if startsWith info.name "__" then
      if startsWith info.name "__mock" then .ok (.node (schema, .other (.mockScan info.name)) [])
      else .error (.exception .invalid ("unsupported internal table: " ++ info.name))
    else .ok (.node (schema, .seqScan info.oid info.name none) [])
  | _ => .error .assertion

/-- The node of a cross product or a join. -/
def joinNode (left right : PlanNode) (predicate : Expr) (joinType : JoinType) : PlanNode :=
  .node (inferJoinSchema left right, .nestedLoopJoin predicate joinType) [left, right]

/-- The column `idx` of `PlanSubquery`'s projection. -/
def subqueryItem (alias_ : String) (selectListName : List (List String)) (idx : ℕ) (column : Column) :
    Except Fault (String × Expr) :=
  match selectListName[idx]? with
  | none => .error .outOfBounds
  | some name => .ok (alias_ ++ "." ++ joinName name, .columnValue 0 idx column)

/-- The end of `PlanSubquery`: the projection that renames the columns of the planned statement. -/
def subqueryNode (alias_ : String) (selectListName : List (List String)) (selectNode : PlanNode) :
    Except Fault PlanNode := do
  let items ← (outputSchema selectNode).columns.zipIdx.mapM fun (column, idx) =>
    subqueryItem alias_ selectListName idx column
  projectionNode items selectNode

/-- The columns of a `VALUES` list: those of its first row. -/
def valuesSchema (identifier : String) (firstRow : List Expr) : Except Fault Schema := do
  let columns ← firstRow.mapM getReturnType
  return .create (columns.mapIdx fun idx column => withColumnName column (identifier ++ "." ++ toString idx))

/-- `PlanExpressionListRef`. -/
def planExpressionListRef (values : List (List BoundExpression)) (identifier : String) : Except Fault PlanNode := do
  let rows ← values.mapM fun row => row.mapM (planScalar [])
  let allExprs := rows.map fun row => row.map Prod.snd
  match allExprs with
  | [] => throw .outOfBounds
  | firstRow :: _ =>
    let schema ← valuesSchema identifier firstRow
    return .node (schema, .other (.values allExprs)) []

/-- The plan for a statement without a `FROM` clause: one row without columns. -/
def emptyNode : PlanNode := .node (.create [], .other (.values [[]])) []

end TableRefs

/-! ## The recursion -/

section Recursion

/-- What planning changes: the expressions behind the statements, and `universal_id_`. -/
structure PlannerState where
  heap : Heap
  universalId : ℕ

/-- The CTEs in scope inside of a statement. -/
def scopeOf (ctes : CTEScope) (statement : SelectStatement) : CTEScope :=
  if statement.ctes.isEmpty then ctes else some statement.ctes

variable (catalog : Catalog) (valueToString : Value → String)

mutual

/-- `PlanSelect`. -/
def planSelect : ℕ → CTEScope → SelectStatement → PlannerState → Except Fault (PlanNode × PlannerState)
  | 0, _, _, _ => .error .undefined
  | depth + 1, ctes, statement, st => do
    let (plan, st) ← (match statement.table with
      | .empty => .ok (emptyNode, st)
      | table => planTableRef depth (scopeOf ctes statement) table st)
    let plan ← planWhere statement.where_ plan
    let (plan, exprs, id) ←
      planSelectList valueToString (st.heap statement.exprs) statement.groupBy plan st.universalId
    let plan := planDistinct statement.isDistinct plan
    let plan ← planSort statement.sort plan
    let plan ← planLimit statement.limitCount statement.limitOffset plan
    return (plan, ⟨Function.update st.heap statement.exprs exprs, id⟩)

/-- `PlanTableRef`. -/
def planTableRef : ℕ → CTEScope → BoundTableRef → PlannerState → Except Fault (PlanNode × PlannerState)
  | 0, _, _, _ => .error .undefined
  | _ + 1, _, .empty, _ => .error (.exception .invalid "the table ref type Empty is not supported in planner yet")
  | _ + 1, _, .baseTable table _ alias_ schema, st => do
    let plan ← planBaseTableRef catalog table alias_ schema
    return (plan, st)
  | depth + 1, ctes, .crossProduct left right, st => do
    let (left, st) ← planTableRef depth ctes left st
    let (right, st) ← planTableRef depth ctes right st
    return (joinNode left right (.constantValue (.boolean 1)) .inner, st)
  | depth + 1, ctes, .join joinType left right condition, st => do
    let (left, st) ← planTableRef depth ctes left st
    let (right, st) ← planTableRef depth ctes right st
    let (_, joinCondition) ← planScalar [left, right] condition
    return (joinNode left right joinCondition joinType, st)
  | _ + 1, _, .expressionList values identifier, st => do
    let plan ← planExpressionListRef values identifier
    return (plan, st)
  | depth + 1, ctes, .subquery ref, st => do
    let (selectNode, st) ← planSelect depth ctes ref.subquery st
    let plan ← subqueryNode ref.alias_ ref.selectListName selectNode
    return (plan, st)
  | depth + 1, ctes, .cte cteName alias_, st => do
    let cte ← findCTE ctes cteName
    let (selectNode, st) ← planSelect depth ctes cte.subquery st
    let plan ← subqueryNode alias_ cte.selectListName selectNode
    return (plan, st)

end

end Recursion

end Journey.Planner
