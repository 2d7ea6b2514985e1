import Journey.Bustub.Optimizer.Plan

/-!
# Journey.Bustub.Binder.Statements — what the binder hands to the planner

Bound expressions, table references and `SELECT` statements.

* `BoundExpression`: a column reference has at least two parts, since the binder puts the name of a table
  in front of every column it resolves.
* `SelectStatement`: `having_` and `select_list_` are reached through a pointer.  The planner writes to
  them although the statement is `const`, so they are kept in a `Heap` beside the statement.
-/

namespace Journey.Binder

open SqlType Catalog Optimizer

/-! ## Expressions -/

section Expressions

/-- `WindowBoundary`. -/
inductive WindowBoundary
  | invalid
  | unboundedPreceding
  | unboundedFollowing
  | currentRowRange
  | currentRowRows
  | exprPrecedingRows
  | exprFollowingRows
  | exprPrecedingRange
  | exprFollowingRange
deriving DecidableEq, Repr

mutual

/-- `BoundExpression` with its classes.  The default one has the type `INVALID`. -/
inductive BoundExpression
  | invalid
  | constant (val : Value)
  | columnRef (colName : List String) (qualified : 2 ≤ colName.length)
  | aggCall (funcName : String) (isDistinct : Bool) (args : List BoundExpression)
  | star
  | unaryOp (opName : String) (arg : BoundExpression)
  | binaryOp (opName : String) (larg rarg : BoundExpression)
  | alias_ (name : String) (child : BoundExpression)
  | funcCall (funcName : String) (args : List BoundExpression)
  | window (funcName : String) (args partitionBy : List BoundExpression) (orderBys : List BoundOrderBy)
      (startOffset endOffset : Option BoundExpression) (start end_ : WindowBoundary)

/-- `BoundOrderBy`. -/
structure BoundOrderBy where
  type : OrderByType
  nullOrder : OrderByNullType
  expr : BoundExpression

end

/-- The parts of a name with a dot between them, `fmt::join(col_name, ".")`. -/
def joinName (colName : List String) : String := ".".intercalate colName

namespace BoundExpression

/-- `ExpressionType`, as it is printed. -/
def typeName : BoundExpression → String
  | invalid => "Invalid"
  | constant _ => "Constant"
  | columnRef _ _ => "ColumnRef"
  | aggCall _ _ _ => "AggregationCall"
  | star => "Star"
  | unaryOp _ _ => "UnaryOperation"
  | binaryOp _ _ _ => "BinaryOperation"
  | alias_ _ _ => "Alias"
  | funcCall _ _ => "FuncCall"
  | window _ _ _ _ _ _ _ _ => "Window"

/-- `IsInvalid`. -/
def isInvalid : BoundExpression → Bool
  | invalid => true
  | _ => false

/-- `HasAggregation`.  A function call does not look at its arguments. -/
def hasAggregation : BoundExpression → Except Fault Bool
  | invalid => .error (.logicError "has aggregation should have been implemented!")
  | constant _ => .ok false
  | columnRef _ _ => .ok false
  | aggCall _ _ _ => .ok true
  | star => .error (.exception .invalid "`HasAggregation` should not have been called on `BoundStar`.")
  | unaryOp _ arg => arg.hasAggregation
  | binaryOp _ larg rarg => do
    if ← larg.hasAggregation then return true
    rarg.hasAggregation
  | alias_ _ child => child.hasAggregation
  | funcCall _ _ => .ok false
  | window _ _ _ _ _ _ _ _ => .ok false

/-- `HasWindowFunction`.  The operators do not look at their arguments. -/
def hasWindowFunction : BoundExpression → Bool
  | alias_ _ child => child.hasWindowFunction
  | window _ _ _ _ _ _ _ _ => true
  | _ => false

end BoundExpression

end Expressions

/-! ## Table references and statements -/

section Statements

mutual

/-- `BoundTableRef` with its classes. -/
inductive BoundTableRef
  | empty
  | baseTable (table : String) (oid : UInt32) (alias_ : Option String) (schema : Schema)
  | crossProduct (left right : BoundTableRef)
  | join (joinType : JoinType) (left right : BoundTableRef) (condition : BoundExpression)
  | expressionList (values : List (List BoundExpression)) (identifier : String)
  | subquery (ref : BoundSubqueryRef)
  | cte (cteName alias_ : String)

/-- `BoundSubqueryRef`. -/
structure BoundSubqueryRef where
  subquery : SelectStatement
  selectListName : List (List String)
  alias_ : String

/-- `SelectStatement`.  `exprs` is where its `having_` and `select_list_` are. -/
structure SelectStatement where
  exprs : ℕ
  table : BoundTableRef
  where_ : BoundExpression
  groupBy : List BoundExpression
  limitCount : BoundExpression
  limitOffset : BoundExpression
  sort : List BoundOrderBy
  ctes : List BoundSubqueryRef
  isDistinct : Bool

end

/-- `having_` and `select_list_` of a statement. -/
structure SelectExprs where
  having : BoundExpression
  selectList : List BoundExpression

/-- The expressions behind the statements. -/
abbrev Heap := ℕ → SelectExprs

/-- `GetBoundTableName`. -/
def getBoundTableName (table : String) (alias_ : Option String) : String := alias_.getD table

/-- The CTEs in scope; `none` is the null pointer. -/
abbrev CTEScope := Option (List BoundSubqueryRef)

/-- The CTE of a name: the first one in the list. -/
def findCTE (ctes : CTEScope) (cteName : String) : Except Fault BoundSubqueryRef :=
  match ctes with
  | none => .error .outOfBounds
  | some ctes =>
    match ctes.find? fun cte => cte.alias_ = cteName with
    | none => .error (.logicError "CTE not found")
    | some cte => .ok cte

end Statements

end Journey.Binder
