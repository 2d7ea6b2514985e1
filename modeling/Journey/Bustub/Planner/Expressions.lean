import Journey.Bustub.Binder.Statements
import Journey.Bustub.Execution.Aggregation

/-!
# Journey.Bustub.Planner.Expressions — planning bound expressions

The planner turns a bound expression into an expression tree that reads the output of the plan nodes under
it.  Aggregate calls are planned in two traversals: `addAggCallToContext` takes them out, and
`planExpression` puts references to the columns of the aggregation node in their places.

* `PlanNode`: the plan tree of the optimizer, with the node classes that only the planner builds.
* `planColumnRef`, `planExpression`: the traversal that plans.
* `addAggCallToContext`: the traversal that collects; it returns what it leaves in the place of its argument.
-/

namespace Journey.Planner

open SqlType Catalog Execution Optimizer Binder

/-! ## Plan nodes -/

section Plans

/-- `WindowFunctionType`. -/
inductive WindowFunctionType
  | countStarAggregate
  | countAggregate
  | sumAggregate
  | minAggregate
  | maxAggregate
  | rank
deriving DecidableEq, Repr

/-- `WindowFunctionPlanNode::WindowFunction`, with its place among the columns. -/
structure WindowFunction where
  index : ℕ
  function : Expr
  type : WindowFunctionType
  partitionBy : List Expr
  orderBy : List OrderBy

/-- The plan node classes that no rule of the optimizer looks at. -/
inductive PlanKind
  | values (rows : List (List Expr))
  | mockScan (table : String)
  | aggregation (groupBys aggregates : List Expr) (aggTypes : List AggregationType)
  | windowFunction (columns : List Expr) (windowFunctions : List WindowFunction)
  | limit (limit : UInt64)
  | insert (tableOid : UInt32)

abbrev PlanNode := Optimizer.PlanNode PlanKind

/-- `UNNAMED_COLUMN`. -/
def unnamedColumn : String := "<unnamed>"

/-- `Value::GetColumn`. -/
def getColumn : Value → Except Fault Column
  | .invalid => .error (.logicError "Cannot get size of invalid type")
  | .boolean _ => .ok (.fixed "<val>" .boolean 1 boolean_fixed boolean_size)
  | .tinyint _ => .ok (.fixed "<val>" .tinyint 1 (by decide) rfl)
  | .smallint _ => .ok (.fixed "<val>" .smallint 2 smallint_fixed smallint_size)
  | .integer _ => .ok (.fixed "<val>" .integer 4 integer_fixed integer_size)
  | .bigint _ => .ok (.fixed "<val>" .bigint 8 (by decide) rfl)
  | .decimal _ => .ok (.fixed "<val>" .decimal 8 decimal_fixed decimal_size)
  | .timestamp _ => .ok (.fixed "<val>" .timestamp 8 (by decide) rfl)
  | .varchar data => .ok (.varlen "<val>" .varchar (Value.varlenLen data) _ (.inl rfl) rfl)
  | .vector data => .ok (.varlen "<val>" .vector (Value.varlenLen data) _ (.inr rfl) rfl)

/-- `GetReturnType`, as the constructors of the expressions set it. -/
def getReturnType : Expr → Except Fault Column
  | .columnValue _ _ retType => .ok retType
  | .constantValue val => getColumn val
  | .arithmetic _ _ _ => .ok (.fixed "<val>" .integer 4 integer_fixed integer_size)
  | .comparison _ _ _ => .ok (.fixed "<val>" .boolean 1 boolean_fixed boolean_size)
  | .logic _ _ _ => .ok (.fixed "<val>" .boolean 1 boolean_fixed boolean_size)
  | .array children => .ok (.varlen "<val>" .vector (UInt32.ofNat children.length) _ (.inr rfl) rfl)
  | .string _ _ => .ok (.varlen "<val>" .varchar 256 _ (.inl rfl) rfl)

/-- `WithColumnName`. -/
def withColumnName (column : Column) (name : String) : Column := { column with name := name }

/-- `InferProjectionSchema`, and `InferWindowSchema`, which does the same. -/
def inferProjectionSchema (expressions : List Expr) : Except Fault Schema := do
  let columns ← expressions.mapM getReturnType
  return .create (columns.map fun column => withColumnName column "<unnamed>")

/-- `RenameSchema`. -/
def renameSchema (schema : Schema) (colNames : List String) : Except Fault Schema :=
  if colNames.length ≠ schema.columns.length then .error (.exception .invalid "mismatched number of columns")
  else .ok (.create (List.zipWith withColumnName schema.columns colNames))

/-- The schema of a projection with the names it is given. -/
def projectionSchema (items : List (String × Expr)) : Except Fault Schema := do
  let schema ← inferProjectionSchema (items.map Prod.snd)
  renameSchema schema (items.map Prod.fst)

/-- `InferJoinSchema`. -/
def inferJoinSchema (left right : PlanNode) : Schema :=
  .create ((outputSchema left).columns ++ (outputSchema right).columns)

end Plans

/-! ## Column references and the factories -/

section Factories

/-- `TryGetColIdx`. -/
def tryGetColIdx (schema : Schema) (colName : String) : Option ℕ :=
  schema.columns.findIdx? fun column => column.name = colName

/-- `GetColIdx`. -/
def getColIdx (schema : Schema) (colName : String) : Except Fault ℕ :=
  match tryGetColIdx schema colName with
  | none => .error (.logicError "Column does not exist")
  | some colIdx => .ok colIdx

/-- A `ColumnValueExpression` for a column of a child. -/
def columnOf (tupleIdx : ℕ) (schema : Schema) (colIdx : ℕ) : Except Fault Expr :=
  match schema.columns[colIdx]? with
  | none => .error .outOfBounds
  | some column => .ok (.columnValue tupleIdx colIdx column)

/-- The loop that ensures that there is no duplicated column. -/
def noDuplicate (colName : String) : List Column → Bool → Except Fault Unit
  | [], _ => .ok ()
  | column :: columns, found =>
    if colName = column.name then
      if found then .error (.exception .invalid "duplicated column found in schema")
      else noDuplicate colName columns true
    else noDuplicate colName columns found

/-- `PlanColumnRef`. -/
def planColumnRef (name : List String) (children : List PlanNode) : Except Fault (String × Expr) :=
  let colName := joinName name
  match children with
  | [] => .error (.exception .invalid "column ref should have at least one child")
  | [child] => do
    let schema := outputSchema child
    noDuplicate colName schema.columns false
    let colIdx ← getColIdx schema colName
    let expr ← columnOf 0 schema colIdx
    return (colName, expr)
  | [left, right] =>
    match tryGetColIdx (outputSchema left) colName, tryGetColIdx (outputSchema right) colName with
    | some _, some _ => .error (.exception .invalid ("ambiguous column name " ++ colName))
    | some colIdx, none => do
      let expr ← columnOf 0 (outputSchema left) colIdx
      return (colName, expr)
    | none, some colIdx => do
      let expr ← columnOf 1 (outputSchema right) colIdx
      return (colName, expr)
    | none, none => .error (.exception .invalid ("column name " ++ colName ++ " not found"))
  | _ => .error (.logicError "no executor with expression has more than two children for now")

/-- `PlanConstant`; the constructor of the expression asks the value for its column. -/
def planConstant (val : Value) : Except Fault Expr := do
  let _ ← getColumn val
  return .constantValue val

/-- The constructor of `ArithmeticExpression`. -/
def arithmeticExpression (left right : Expr) (computeType : ArithmeticType) : Except Fault Expr :=
  if left.returnType ≠ .integer ∨ right.returnType ≠ .integer then
    .error (.exception .notImplemented "only support integer for now")
  else .ok (.arithmetic computeType left right)

/-- The constructor of `LogicExpression`. -/
def logicExpression (left right : Expr) (logicType : LogicType) : Except Fault Expr :=
  if left.returnType ≠ .boolean ∨ right.returnType ≠ .boolean then
    .error (.exception .notImplemented "expect boolean from either side")
  else .ok (.logic logicType left right)

/-- `GetBinaryExpressionFromFactory`. -/
def getBinaryExpressionFromFactory (opName : String) (left right : Expr) : Except Fault Expr :=
  if opName = "=" ∨ opName = "==" then .ok (.comparison .equal left right)
  else if opName = "!=" ∨ opName = "<>" then .ok (.comparison .notEqual left right)
  else if opName = "<" then .ok (.comparison .lessThan left right)
  else if opName = "<=" then .ok (.comparison .lessThanOrEqual left right)
  else if opName = ">" then .ok (.comparison .greaterThan left right)
  else if opName = ">=" then .ok (.comparison .greaterThanOrEqual left right)
  else if opName = "+" then arithmeticExpression left right .plus
  else if opName = "-" then arithmeticExpression left right .minus
  else if opName = "and" then logicExpression left right .and
  else if opName = "or" then logicExpression left right .or
  else .error (.exception .invalid ("binary op " ++ opName ++ " not supported in planner yet"))

/-- `GetFuncCallFromFactory`, which is a stub. -/
def getFuncCallFromFactory (funcName : String) (_args : List Expr) : Except Fault Expr :=
  .error (.exception .invalid ("func call " ++ funcName ++ " not supported in planner yet"))

/-- The end of `PlanFuncCall`, when the arguments are planned. -/
def funcCallExpression (funcName : String) (args : List Expr) : Except Fault Expr :=
  if funcName = "construct_array" then .ok (.array args) else getFuncCallFromFactory funcName args

end Factories

/-! ## The two traversals -/

section Traversals

/-- `PlannerContext`; the CTEs in scope are passed beside it. -/
structure PlannerContext where
  allowAggregation : Bool
  nextAggregation : ℕ
  aggregations : List BoundExpression
  exprInAgg : List Expr

/-- The context that `NewContext` sets. -/
def newContext : PlannerContext := ⟨false, 0, [], []⟩

/-- `AddAggregation`. -/
def PlannerContext.addAggregation (ctx : PlannerContext) (expr : BoundExpression) : Except Fault PlannerContext :=
  if ctx.allowAggregation then .ok { ctx with aggregations := ctx.aggregations ++ [expr] }
  else .error (.exception .invalid "AggCall not allowed in this position")

/-- What both traversals throw at the classes they do not know. -/
def notSupported (expr : BoundExpression) : Fault :=
  .exception .invalid ("expression type " ++ expr.typeName ++ " not supported in planner yet")

mutual

/-- `AddAggCallToContext`: the expression that is left, and the context. -/
def addAggCallToContext : BoundExpression → PlannerContext → Except Fault (BoundExpression × PlannerContext)
  | .aggCall funcName isDistinct args, ctx => do
    let pseudo := .aggCall ("__pseudo_agg#" ++ toString ctx.aggregations.length) isDistinct []
    let ctx ← ctx.addAggregation (.aggCall funcName isDistinct args)
    return (pseudo, ctx)
  | .columnRef colName qualified, ctx => .ok (.columnRef colName qualified, ctx)
  | .binaryOp opName larg rarg, ctx => do
    let (larg, ctx) ← addAggCallToContext larg ctx
    let (rarg, ctx) ← addAggCallToContext rarg ctx
    return (.binaryOp opName larg rarg, ctx)
  | .funcCall funcName args, ctx => do
    let (args, ctx) ← addAggCallsToContext args ctx
    return (.funcCall funcName args, ctx)
  | .constant val, ctx => .ok (.constant val, ctx)
  | .alias_ name child, ctx => do
    let (child, ctx) ← addAggCallToContext child ctx
    return (.alias_ name child, ctx)
  | .invalid, _ => .error (notSupported .invalid)
  | .star, _ => .error (notSupported .star)
  | .unaryOp opName arg, _ => .error (notSupported (.unaryOp opName arg))
  | .window funcName args partitionBy orderBys startOffset endOffset start end_, _ =>
    .error (notSupported (.window funcName args partitionBy orderBys startOffset endOffset start end_))

/-- The loop over a list of expressions. -/
def addAggCallsToContext : List BoundExpression → PlannerContext →
    Except Fault (List BoundExpression × PlannerContext)
  | [], ctx => .ok ([], ctx)
  | expr :: exprs, ctx => do
    let (expr, ctx) ← addAggCallToContext expr ctx
    let (exprs, ctx) ← addAggCallsToContext exprs ctx
    return (expr :: exprs, ctx)

end

mutual

/-- `PlanExpression`: the name and the expression. -/
def planExpression (children : List PlanNode) : BoundExpression → PlannerContext →
    Except Fault ((String × Expr) × PlannerContext)
  | .aggCall _ _ _, ctx =>
    match ctx.exprInAgg[ctx.nextAggregation]? with
    | none => .error (.exception .invalid "unexpected agg call")
    | some expr => .ok ((unnamedColumn, expr), { ctx with nextAggregation := ctx.nextAggregation + 1 })
  | .columnRef colName _, ctx => do
    let named ← planColumnRef colName children
    return (named, ctx)
  | .binaryOp opName larg rarg, ctx => do
    let ((_, left), ctx) ← planExpression children larg ctx
    let ((_, right), ctx) ← planExpression children rarg ctx
    let expr ← getBinaryExpressionFromFactory opName left right
    return ((unnamedColumn, expr), ctx)
  | .funcCall funcName args, ctx => do
    let (args, ctx) ← planExpressions children args ctx
    let expr ← funcCallExpression funcName (args.map Prod.snd)
    return ((unnamedColumn, expr), ctx)
  | .constant val, ctx => do
    let expr ← planConstant val
    return ((unnamedColumn, expr), ctx)
  | .alias_ name child, ctx => do
    let ((_, expr), ctx) ← planExpression children child ctx
    return ((name, expr), ctx)
  | .window _ _ _ _ _ _ _ _, _ => .error (.exception .invalid "should not parse window expressions here")
  | .invalid, _ => .error (notSupported .invalid)
  | .star, _ => .error (notSupported .star)
  | .unaryOp opName arg, _ => .error (notSupported (.unaryOp opName arg))

/-- The loop over a list of expressions. -/
def planExpressions (children : List PlanNode) : List BoundExpression → PlannerContext →
    Except Fault (List (String × Expr) × PlannerContext)
  | [], ctx => .ok ([], ctx)
  | expr :: exprs, ctx => do
    let (named, ctx) ← planExpression children expr ctx
    let (rest, ctx) ← planExpressions children exprs ctx
    return (named :: rest, ctx)

end

end Traversals

end Journey.Planner
