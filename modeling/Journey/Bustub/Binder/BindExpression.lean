import Journey.Bustub.Binder.Resolve
import Journey.Bustub.Planner.Values

/-!
# Journey.Bustub.Binder.BindExpression — from the parse tree to bound expressions

The nodes of the parse tree that stand for expressions, and what the binder makes of them in a scope: the table
reference whose columns may be named, and the CTEs.  `NIL`, the null pointer, is the empty list, as it is in the
parser.

* `PGNode`, `PGWindowDef`, `PGSortBy`: the nodes.
* `bindExpression`: `BindExpression`, with one branch for each kind of node.
* `bindSelectList`: `BindSelectList`, where `*` stands alone.
-/

namespace Journey.Binder

open SqlType Catalog Optimizer Planner

/-! ## The parse tree -/

section ParseTree

/-- A part of the name in a `PGColumnRef`. -/
inductive PGField
  | string (str : String)
  | aStar
  | other (tag : String)
deriving DecidableEq, Repr

/-- `PGAExpr_Kind`: a plain operator, or one of the others. -/
inductive PGAExprKind
  | op
  | other
deriving DecidableEq, Repr

/-- `PGBoolExprType`. -/
inductive PGBoolExprType
  | andExpr
  | orExpr
  | notExpr
deriving DecidableEq, Repr

/-- `PGSortByDir`. -/
inductive PGSortByDir
  | default
  | asc
  | desc
  | using_
deriving DecidableEq, Repr

/-- `PGSortByNulls`. -/
inductive PGSortByNulls
  | default
  | first
  | last
deriving DecidableEq, Repr

mutual

/-- `PGNode`, where it is an expression; a node of another kind is given by its tag. -/
inductive PGNode
  | columnRef (head : PGField) (rest : List PGField)
  | aConst (val : PGValue)
  | resTarget (name : Option String) (val : PGNode)
  | aStar
  | funcCall (funcname : String) (args : List PGNode) (aggDistinct : Bool) (over_ : Option PGWindowDef)
  | aExpr (kind : PGAExprKind) (name : String) (lexpr rexpr : Option PGNode)
  | boolExpr (boolop : PGBoolExprType) (args : List PGNode)
  | other (tag : String)

/-- `PGWindowDef`. -/
structure PGWindowDef where
  partitionClause : List PGNode
  orderClause : List PGSortBy
  frameOptions : UInt32
  startOffset : Option PGNode
  endOffset : Option PGNode

/-- `PGSortBy`, or a node that is none. -/
inductive PGSortBy
  | sortBy (dir : PGSortByDir) (nulls : PGSortByNulls) (node : PGNode)
  | other

end

end ParseTree

/-! ## Leaves -/

section Leaves

/-- A thrown `Exception`. -/
def throwException {α : Type} (msg : String) : Except Fault α := .error (.exception .invalid msg)

/-- A thrown `NotImplementedException`. -/
def throwNotImplemented {α : Type} (msg : String) : Except Fault α := .error (.exception .notImplemented msg)

/-- The `BoundColumnRef` of a name that is resolved, which has the name of the table in front. -/
def boundColumnRef (colName : List String) : Except Fault BoundExpression :=
  if h : 2 ≤ colName.length then .ok (.columnRef colName h) else .error .undefined

/-- The text of a part of a name.  `val.str` of a node that has no text is anything. -/
def fieldName : PGField → Except Fault String
  | .string str => .ok str
  | _ => .error .undefined

/-- `*scope_`. -/
def derefScope : Option BoundTableRef → Except Fault BoundTableRef
  | some scope => .ok scope
  | none => .error .outOfBounds

/-- `BindColumnRef`. -/
def bindColumnRef (scope : Option BoundTableRef) (ctes : CTEScope) (head : PGField) (rest : List PGField) :
    Except Fault BoundExpression :=
  match head with
  | .string str => do
    let names ← rest.mapM fieldName
    let table ← derefScope scope
    let colName ← resolveColumn ctes table (str :: names)
    boundColumnRef colName
  | .aStar => .ok .star
  | .other tag => throwException ("ColumnRef type " ++ tag ++ " not implemented!")

/-- `FRAMEOPTION_RANGE` and the flags for the two ends of a frame. -/
def frameRange : UInt32 := 0x00002

def startUnboundedPreceding : UInt32 := 0x00010

def endUnboundedPreceding : UInt32 := 0x00020

def startUnboundedFollowing : UInt32 := 0x00040

def endUnboundedFollowing : UInt32 := 0x00080

def startCurrentRow : UInt32 := 0x00100

def endCurrentRow : UInt32 := 0x00200

def startValuePreceding : UInt32 := 0x00400

def endValuePreceding : UInt32 := 0x00800

def startValueFollowing : UInt32 := 0x01000

def endValueFollowing : UInt32 := 0x02000

/-- `BindWindowFrame`. -/
def bindWindowFrame (frameOptions : UInt32) : Except Fault (WindowBoundary × WindowBoundary) :=
  if frameOptions &&& endUnboundedPreceding ≠ 0 ∨ frameOptions &&& startUnboundedFollowing ≠ 0 then
    throwException
      "Window frames starting with unbounded following or ending in unbounded preceding make no sense"
  else
    let rangeMode := decide (frameOptions &&& frameRange ≠ 0)
    let start : WindowBoundary :=
      if frameOptions &&& startUnboundedPreceding ≠ 0 then .unboundedPreceding
      else if frameOptions &&& startValuePreceding ≠ 0 then
        if rangeMode then .exprPrecedingRange else .exprPrecedingRows
      else if frameOptions &&& startValueFollowing ≠ 0 then
        if rangeMode then .exprFollowingRange else .exprFollowingRows
      else if frameOptions &&& startCurrentRow ≠ 0 then
        if rangeMode then .currentRowRange else .currentRowRows
      else .invalid
    let end_ : WindowBoundary :=
      if frameOptions &&& endUnboundedFollowing ≠ 0 then .unboundedFollowing
      else if frameOptions &&& endValuePreceding ≠ 0 then
        if rangeMode then .exprPrecedingRange else .exprPrecedingRows
      else if frameOptions &&& endValueFollowing ≠ 0 then
        if rangeMode then .exprFollowingRange else .exprFollowingRows
      else if frameOptions &&& endCurrentRow ≠ 0 then
        if rangeMode then .currentRowRange else .currentRowRows
      else .invalid
    .ok (start, end_)

/-- The functions that are bound as aggregations. -/
def isAggName (functionName : String) : Bool :=
  functionName = "min" || functionName = "max" || functionName = "first" || functionName = "last" ||
    functionName = "sum" || functionName = "count" || functionName = "rank" || functionName = "row_number"

/-- `row_number()` and `count(*)` are counted as `count_star`. -/
def aggName (functionName : String) (children : List BoundExpression) : String :=
  if (functionName = "count" ∧ children.isEmpty) ∨ functionName = "row_number" then "count_star" else functionName

/-- What `BindFuncCall` makes of its arguments; `window` is what it makes of the `OVER` clause, if there is one. -/
def callOf (functionName : String) (aggDistinct : Bool) (children : List BoundExpression)
    (window : Option (Except Fault BoundExpression)) : Except Fault BoundExpression :=
  if isAggName functionName then
    match window with
    | some bound =>
      if aggDistinct then throwException "DISTINCT is not supported in window functions" else bound
    | none => .ok (.aggCall (aggName functionName children) aggDistinct children)
  else .ok (.funcCall functionName children)

/-- The `ExpressionType` is `STAR`. -/
def isStar : BoundExpression → Bool
  | .star => true
  | _ => false

/-- The type and the null order of a `PGSortBy`. -/
def orderByType : PGSortByDir → Except Fault OrderByType
  | .default => .ok .default
  | .asc => .ok .asc
  | .desc => .ok .desc
  | .using_ => throwNotImplemented "unimplemented order by type"

def orderByNullType : PGSortByNulls → OrderByNullType
  | .default => .default
  | .first => .nullsFirst
  | .last => .nullsLast

/-- The arguments of an `AND` or an `OR`, joined from the left. -/
def joinArgs (opName : String) (atLeast : String) : List BoundExpression → Except Fault BoundExpression
  | first :: second :: rest => .ok (rest.foldl (.binaryOp opName) (.binaryOp opName first second))
  | _ => throwException atLeast

/-- What `BindBoolExpr` makes of its arguments. -/
def boolOf (boolop : PGBoolExprType) (exprs : List BoundExpression) : Except Fault BoundExpression :=
  match boolop with
  | .andExpr => joinArgs "and" "AND should have at least 1 arg" exprs
  | .orExpr => joinArgs "or" "OR should have at least 1 arg" exprs
  | .notExpr =>
    match exprs with
    | [expr] => .ok (.unaryOp "not" expr)
    | _ => throwException "NOT should have 1 arg"

/-- What `BindAExpr` makes of its operands. -/
def operatorOf (name : String) : Option BoundExpression → Option BoundExpression → Except Fault BoundExpression
  | some left, some right => .ok (.binaryOp name left right)
  | none, some right => .ok (.unaryOp name right)
  | _, none => throwException "unsupported AExpr: left == null while right != null"

end Leaves

/-! ## The recursion -/

section Recursion

variable (scope : Option BoundTableRef) (ctes : CTEScope)

mutual

/-- `BindExpression`, and with it `BindResTarget`, `BindFuncCall`, `BindAExpr` and `BindBoolExpr`. -/
def bindExpression : PGNode → Except Fault BoundExpression
  | .columnRef head rest => bindColumnRef scope ctes head rest
  | .aConst val => bindConstant val
  | .resTarget name val => do
    let expr ← bindExpression val
    match name with
    | some name => return .alias_ name expr
    | none => return expr
  | .aStar => .ok .star
  | .funcCall funcname args aggDistinct over_ => do
    let children ← bindChildren args
    callOf (lower funcname) aggDistinct children (bindOver over_ (aggName (lower funcname) children) children)
  | .aExpr kind name lexpr rexpr =>
    match kind with
    | .other => throwException "unsupported op in AExpr"
    | .op => do
      let leftExpr ← bindOperand lexpr
      let rightExpr ← bindOperand rexpr
      operatorOf name leftExpr rightExpr
  | .boolExpr boolop args => do
    let exprs ← bindExpressionList args
    boolOf boolop exprs
  | .other tag => throwException ("Expr of type " ++ tag ++ " not implemented")

/-- The arguments of a function. -/
def bindChildren : List PGNode → Except Fault (List BoundExpression)
  | [] => .ok []
  | node :: nodes => do
    let expr ← bindExpression node
    let exprs ← bindChildren nodes
    return expr :: exprs

/-- `BindExpressionList`. -/
def bindExpressionList : List PGNode → Except Fault (List BoundExpression)
  | [] => .ok []
  | node :: nodes => do
    let expr ← bindExpression node
    if isStar expr then throwException "unsupported * in expression list"
    else do
      let exprs ← bindExpressionList nodes
      return expr :: exprs

/-- A node that may be the null pointer. -/
def bindOperand : Option PGNode → Except Fault (Option BoundExpression)
  | some node => do
    let expr ← bindExpression node
    return some expr
  | none => .ok none

/-- What a call with an `OVER` clause is bound to. -/
def bindOver : Option PGWindowDef → String → List BoundExpression → Option (Except Fault BoundExpression)
  | some window, funcName, children => some (bindWindowExpression window funcName children)
  | none, _, _ => none

/-- `BindWindowExpression`.  The planner does not look at the offsets. -/
def bindWindowExpression : PGWindowDef → String → List BoundExpression → Except Fault BoundExpression
  | ⟨partitionClause, orderClause, frameOptions, startOffset, endOffset⟩, funcName, children => do
    let partitionBy ← bindExpressionList partitionClause
    let sort ← bindSort orderClause
    let startExpr ← bindOperand startOffset
    let endExpr ← bindOperand endOffset
    let (start, end_) ← bindWindowFrame frameOptions
    return .window funcName children partitionBy sort startExpr endExpr start end_

/-- `BindSort`. -/
def bindSort : List PGSortBy → Except Fault (List BoundOrderBy)
  | [] => .ok []
  | .sortBy dir nulls node :: rest => do
    let type ← orderByType dir
    let expr ← bindExpression node
    let orderBys ← bindSort rest
    return ⟨type, orderByNullType nulls, expr⟩ :: orderBys
  | .other :: _ => throwNotImplemented "unsupported order by node"

end

/-- What the loop of `BindSelectList` has gathered. -/
structure SelectItems where
  selectList : List BoundExpression
  isSelectStar : Bool
  hasAgg : Bool
  hasWindowAgg : Bool

/-- One round of the loop of `BindSelectList`. -/
def bindSelectItem (items : SelectItems) (target : PGNode) : Except Fault SelectItems := do
  let expr ← bindExpression scope ctes target
  if isStar expr then
    if items.selectList.isEmpty then do
      let table ← derefScope scope
      let columns ← getAllColumns ctes table
      let selectList ← columns.mapM boundColumnRef
      return { items with selectList := selectList, isSelectStar := true }
    else throwException "select * cannot have other expressions in list"
  else if items.isSelectStar then throwException "select * cannot have other expressions in list"
  else do
    let hasAgg ← expr.hasAggregation
    return ⟨items.selectList ++ [expr], items.isSelectStar, items.hasAgg || hasAgg,
      items.hasWindowAgg || expr.hasWindowFunction⟩

/-- `BindSelectList`. -/
def bindSelectList (list : List PGNode) : Except Fault (List BoundExpression) := do
  let items ← list.foldlM (bindSelectItem scope ctes) ⟨[], false, false, false⟩
  if items.hasAgg && items.hasWindowAgg then
    throwException "cannot have both normal agg and window agg in same query"
  else return items.selectList

/-- A clause that may be missing: then the expression is `INVALID`. -/
def bindClause : Option PGNode → Except Fault BoundExpression
  | some node => bindExpression scope ctes node
  | none => .ok .invalid

end Recursion

end Journey.Binder
