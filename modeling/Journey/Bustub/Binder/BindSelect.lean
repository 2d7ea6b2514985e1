import Journey.Bustub.Binder.BindExpression
import Journey.Bustub.Planner.Update

/-!
# Journey.Bustub.Binder.BindSelect — from the parse tree to bound statements

What the binder makes of `FROM` clauses and of whole `SELECT` statements, with the state it works on: the scope in which
columns are looked up, the CTEs in which tables are looked up, and the counter for generated names.

* `newContext`: the guard that gives a function a scope of its own, and puts back the one that was there.
* `bindTableRef`, `bindSelect`: the recursion over tables and statements.
-/

namespace Journey.Binder

open SqlType Catalog Optimizer Planner

/-! ## The parse tree -/

section ParseTree

/-- `PGJoinType`; the kinds that do not come from the syntax are given by their numbers. -/
inductive PGJoinType
  | inner
  | left
  | full
  | right
  | other (number : ℕ)
deriving DecidableEq, Repr

mutual

/-- `PGNode`, where it is a table: `PGRangeVar`, `PGJoinExpr`, `PGRangeSubselect`, or a node of another kind. -/
inductive PGTableNode
  | rangeVar (relname : String) (alias_ : Option String)
  | joinExpr (jointype : PGJoinType) (larg rarg : PGTableNode) (quals : Option PGNode)
  | rangeSubselect (lateral : Bool) (subquery : PGSelectStmt) (alias_ : Option String)
  | other (tag : String)

/-- `PGSelectStmt`.  `DISTINCT` may come with expressions, `DISTINCT ON`. -/
structure PGSelectStmt where
  valuesLists : List (List PGNode)
  withRecursive : Bool
  withClause : List PGCommonTableExpr
  fromClause : List PGTableNode
  distinctClause : Option Bool
  targetList : List PGNode
  whereClause : Option PGNode
  groupClause : List PGNode
  havingClause : Option PGNode
  limitCount : Option PGNode
  limitOffset : Option PGNode
  sortClause : List PGSortBy

/-- `PGCommonTableExpr`; its query may be something else than a `SELECT` statement. -/
inductive PGCommonTableExpr
  | select (ctename : String) (cterecursive : Bool) (ctequery : PGSelectStmt)
  | other (ctename : String)

end

end ParseTree

/-! ## The state -/

section State

/-- The fields of the binder, and the `having_` and the `select_list_` of the statements it has made. -/
structure BinderState where
  scope : Option BoundTableRef
  cteScope : CTEScope
  universalId : ℕ
  heap : Heap
  next : ℕ

/-- A new binder. -/
def BinderState.new : BinderState := ⟨none, none, 0, fun _ => ⟨.invalid, []⟩, 0⟩

/-- `NewContext`: there is no scope at first, and the destructor of the guard puts back what was there. -/
def newContext {α : Type} (st : BinderState) (body : BinderState → Except Fault (α × BinderState)) :
    Except Fault (α × BinderState) := do
  let (result, st') ← body { st with scope := none }
  return (result, { st' with scope := st.scope, cteScope := st.cteScope })

/-- A name from the counter. -/
def generateName (stem : String) (st : BinderState) : String × BinderState :=
  (stem ++ toString st.universalId, { st with universalId := st.universalId + 1 })

/-- A new statement. -/
def makeStatement (st : BinderState) (exprs : SelectExprs) : ℕ × BinderState :=
  (st.next, { st with heap := Function.update st.heap st.next exprs, next := st.next + 1 })

/-- The kind of a join. -/
def bindJoinType : PGJoinType → Except Fault JoinType
  | .inner => .ok .inner
  | .left => .ok .left
  | .full => .ok .outer
  | .right => .ok .right
  | .other number => throwException ("Join type " ++ toString number ++ " not supported")

end State

/-! ## The recursion -/

section Recursion

variable (catalog : Catalog)

/-- `BindRangeVar`: a CTE, or a table of the catalog. -/
def bindRangeVar (ctes : CTEScope) (relname : String) (alias_ : Option String) : Except Fault BoundTableRef :=
  match (ctes.getD []).find? fun cte => cte.alias_ = relname with
  | some cte => .ok (.cte cte.alias_ (alias_.getD relname))
  | none => do
    let table ← bindBaseTableRef catalog relname alias_
    return table.toRef

/-- The condition of a join. -/
def bindQuals (st : BinderState) : Option PGNode → Except Fault BoundExpression
  | some node => bindExpression st.scope st.cteScope node
  | none => .error .assertion

/-- The rows of a `VALUES` list: each is bound, and then compared with the first. -/
def bindRows (st : BinderState) : List (List PGNode) → List (List BoundExpression) →
    Except Fault (List (List BoundExpression))
  | [], allValues => .ok allValues
  | target :: lists, allValues => do
    let values ← bindExpressionList st.scope st.cteScope target
    if allValues.head?.any fun first => first.length ≠ values.length then
      throwException "values must have the same length"
    else bindRows st lists (allValues ++ [values])

/-- The branch of `BindSelect` for a `VALUES` list. -/
def bindValues (lists : List (List PGNode)) (st : BinderState) : Except Fault (SelectStatement × BinderState) := do
  let (identifier, st) := generateName "__values#" st
  let allValues ← bindRows st lists []
  match allValues with
  | [] => throwException "at least one row of values should be provided"
  | first :: _ =>
    let (exprs, st) := makeStatement st (valuesExprs identifier first.length)
    return (valuesStatement exprs allValues identifier, st)

/-- The clauses behind `FROM`, in the order in which they are bound. -/
def bindClauses (stmt : PGSelectStmt) (table : BoundTableRef) (ctes : List BoundSubqueryRef) (st : BinderState) :
    Except Fault (SelectStatement × BinderState) := do
  let isDistinct ← (match stmt.distinctClause with
    | some true => throwNotImplemented "DISTINCT ON is not supported"
    | some false => .ok true
    | none => .ok false)
  if stmt.targetList.isEmpty then throwException "no select list"
  else do
    let selectList ← bindSelectList st.scope st.cteScope stmt.targetList
    let where_ ← bindClause st.scope st.cteScope stmt.whereClause
    let groupBy ← bindExpressionList st.scope st.cteScope stmt.groupClause
    let having ← bindClause st.scope st.cteScope stmt.havingClause
    let limitCount ← bindClause st.scope st.cteScope stmt.limitCount
    let limitOffset ← bindClause st.scope st.cteScope stmt.limitOffset
    let sort ← bindSort st.scope st.cteScope stmt.sortClause
    let (exprs, st) := makeStatement st ⟨having, selectList⟩
    return (⟨exprs, table, where_, groupBy, limitCount, limitOffset, sort, ctes, isDistinct⟩, st)

/-- `BindSubquery`, when its statement is bound. -/
def nameSubquery (subquery : SelectStatement) (aliasName : String) (st : BinderState) :
    BoundSubqueryRef × BinderState :=
  let (ref, id) := bindSubquery st.heap subquery aliasName st.universalId
  (ref, { st with universalId := id })

mutual

/-- `BindTableRef`, and with it `BindRangeVar`, `BindJoin` and `BindRangeSubselect`. -/
def bindTableRef : PGTableNode → BinderState → Except Fault (BoundTableRef × BinderState)
  | .rangeVar relname alias_, st => do
    let table ← bindRangeVar catalog st.cteScope relname alias_
    return (table, st)
  | .joinExpr jointype larg rarg quals, st => newContext st fun st => do
    let joinType ← bindJoinType jointype
    let (left, st) ← bindTableRef larg st
    let (right, st) ← bindTableRef rarg st
    -- the columns of both sides are in scope while the condition is still the null pointer
    let st := { st with scope := some (.join joinType left right .invalid) }
    let condition ← bindQuals st quals
    return (.join joinType left right condition, st)
  | .rangeSubselect lateral subquery alias_, st =>
    if lateral then throwNotImplemented "LATERAL in subquery is not supported"
    else do
      let (aliasName, st) := (match alias_ with
        | some aliasName => (aliasName, st)
        | none => generateName "__subquery#" st)
      let (statement, st) ← bindSelect subquery st
      let (ref, st) := nameSubquery statement aliasName st
      return (.subquery ref, st)
  | .other tag, _ => throwException ("unsupported node type: " ++ tag)

/-- The tables of a `FROM` clause behind the first, in cross products from the left. -/
def bindTableRefs : List PGTableNode → BoundTableRef → BinderState → Except Fault (BoundTableRef × BinderState)
  | [], result, st => .ok (result, st)
  | node :: nodes, result, st => do
    let (table, st) ← bindTableRef node st
    bindTableRefs nodes (.crossProduct result table) st

/-- `BindFrom`. -/
def bindFrom : List PGTableNode → BinderState → Except Fault (BoundTableRef × BinderState)
  | [], st => newContext st fun st => .ok (.empty, st)
  | node :: nodes, st => newContext st fun st => do
    let (table, st) ← bindTableRef node st
    bindTableRefs nodes table st

/-- `BindCTE`.  The CTEs of the clause do not see each other, but those of the statement around it. -/
def bindCTE (withRecursive : Bool) : List PGCommonTableExpr → BinderState →
    Except Fault (List BoundSubqueryRef × BinderState)
  | [], st => .ok ([], st)
  | .other _ :: _, _ => throwException "SELECT not found"
  | .select ctename cterecursive ctequery :: rest, st =>
    if cterecursive ∨ withRecursive then throwNotImplemented "recursive CTE not supported"
    else do
      let (statement, st) ← bindSelect ctequery st
      let (ref, st) := nameSubquery statement ctename st
      let (refs, st) ← bindCTE withRecursive rest st
      return (ref :: refs, st)

/-- `BindSelect`. -/
def bindSelect : PGSelectStmt → BinderState → Except Fault (SelectStatement × BinderState)
  | ⟨valuesLists, withRecursive, withClause, fromClause, distinctClause, targetList, whereClause, groupClause,
      havingClause, limitCount, limitOffset, sortClause⟩, st => newContext st fun st =>
    if valuesLists.isEmpty then do
      let (ctes, st) ← bindCTE withRecursive withClause st
      let st := if withClause.isEmpty then st else { st with cteScope := some ctes }
      let (table, st) ← bindFrom fromClause st
      let st := { st with scope := some table }
      bindClauses ⟨valuesLists, withRecursive, withClause, fromClause, distinctClause, targetList, whereClause,
        groupClause, havingClause, limitCount, limitOffset, sortClause⟩ table ctes st
    else bindValues valuesLists st

end

end Recursion

end Journey.Binder
