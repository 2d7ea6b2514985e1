import Journey.Bustub.Planner.Depth

/-!
# Journey.Bustub.Planner.Safety — the planner is safe on what the binder returns

The planner trusts the binder: it reads names off a list by the number of a column, and the first row of a `VALUES` list
without a look at whether there is one.

* `Safely`: a computation that ends with a result or throws.
* `planExpression_safely`, `planSelectList_safely`, …: the stages of a statement are safe on anything.
* `plan_safely`: the recursion, over scoped tables and statements.
-/

namespace Journey.Planner

open SqlType Catalog Execution Optimizer Binder

/-! ## Thrown errors -/

section Faults

variable {α β : Type} {x : Except Fault α} {f : α → Except Fault β}

/-- Something is thrown, or an assertion fails: nothing is read out of bounds or otherwise undefined. -/
def Safe : Fault → Prop
  | .outOfBounds => False
  | .undefined => False
  | _ => True

/-- The computation ends with a result or throws. -/
def Safely (x : Except Fault α) : Prop := Meets x (fun _ => True) Safe

theorem safely_pure (a : α) : Safely (pure a : Except Fault α) := trivial

theorem Safely.bind (h : Safely x) (hf : ∀ a, Safely (f a)) : Safely (x >>= f) := Meets.bind h fun a _ => hf a

theorem Safely.meets {P : α → Prop} (h : Safely x) (hP : ∀ a, x = .ok a → P a) : Meets x P Safe :=
  meets_iff.mpr ⟨hP, fun _ he => h.of_error he⟩

theorem Safely.ite {c : Prop} [Decidable c] {y : Except Fault α} (hx : Safely x) (hy : Safely y) :
    Safely (if c then x else y) := Meets.ite (fun _ => hx) (fun _ => hy)

theorem safely_mapM (h : ∀ a, Safely (f a)) (as : List α) : Safely (as.mapM f) :=
  (Meets.mapM fun a _ => h a).imp (fun _ _ => trivial) fun _ he => he

end Faults

/-! ## Expressions -/

section Expressions

variable {children : List PlanNode} {child plan : PlanNode}

theorem getColumn_safely (val : Value) : Safely (getColumn val) := by
  cases val <;> trivial

theorem getReturnType_safely (e : Expr) : Safely (getReturnType e) := by
  cases e with
  | constantValue val => exact getColumn_safely val
  | _ => trivial

theorem renameSchema_safely (schema : Schema) (colNames : List String) : Safely (renameSchema schema colNames) :=
  Safely.ite trivial trivial

theorem projectionSchema_safely (items : List (String × Expr)) : Safely (projectionSchema items) := by
  refine Safely.bind ?_ fun schema => renameSchema_safely schema _
  exact (safely_mapM getReturnType_safely _).bind fun _ => safely_pure _

theorem noDuplicate_safely (colName : String) (columns : List Column) (found : Bool) :
    Safely (noDuplicate colName columns found) := by
  rw [noDuplicate_eq]
  exact Safely.ite trivial trivial

/-- The number of a column that was looked up is not out of bounds. -/
theorem columnOf_safely (tupleIdx : ℕ) {schema : Schema} {colName : String} {colIdx : ℕ}
    (h : tryGetColIdx schema colName = some colIdx) : Safely (columnOf tupleIdx schema colIdx) := by
  obtain ⟨hlt, -, -⟩ := List.findIdx?_eq_some_iff_getElem.mp h
  rw [columnOf, List.getElem?_eq_getElem hlt]
  trivial

theorem planColumnRef_safely (name : List String) (children : List PlanNode) :
    Safely (planColumnRef name children) := by
  unfold planColumnRef
  dsimp only
  split
  · trivial
  · refine (noDuplicate_safely _ _ _).bind fun _ => ?_
    unfold getColIdx
    cases hidx : tryGetColIdx _ (joinName name) with
    | none => trivial
    | some colIdx => exact (columnOf_safely 0 hidx).bind fun _ => safely_pure _
  · split
    · trivial
    · rename_i hidx _
      exact (columnOf_safely 0 hidx).bind fun _ => safely_pure _
    · rename_i hidx
      exact (columnOf_safely 1 hidx).bind fun _ => safely_pure _
    · trivial
  · trivial

theorem arithmeticExpression_safely (left right : Expr) (computeType : ArithmeticType) :
    Safely (arithmeticExpression left right computeType) := Safely.ite trivial trivial

theorem logicExpression_safely (left right : Expr) (logicType : LogicType) :
    Safely (logicExpression left right logicType) := Safely.ite trivial trivial

theorem getBinaryExpressionFromFactory_safely (opName : String) (left right : Expr) :
    Safely (getBinaryExpressionFromFactory opName left right) := by
  unfold getBinaryExpressionFromFactory
  iterate 6 refine Safely.ite trivial ?_
  iterate 2 refine Safely.ite (arithmeticExpression_safely _ _ _) ?_
  iterate 2 refine Safely.ite (logicExpression_safely _ _ _) ?_
  trivial

theorem addAggregation_safely (ctx : PlannerContext) (expr : BoundExpression) : Safely (ctx.addAggregation expr) :=
  Safely.ite trivial trivial

mutual

theorem addAggCallToContext_safely : ∀ (expr : BoundExpression) (ctx : PlannerContext),
    Safely (addAggCallToContext expr ctx)
  | .aggCall _ _ _, ctx => (addAggregation_safely ctx _).bind fun _ => safely_pure _
  | .binaryOp _ larg rarg, ctx =>
    (addAggCallToContext_safely larg ctx).bind fun r =>
      (addAggCallToContext_safely rarg r.2).bind fun _ => safely_pure _
  | .funcCall _ args, ctx => (addAggCallsToContext_safely args ctx).bind fun _ => safely_pure _
  | .alias_ _ child, ctx => (addAggCallToContext_safely child ctx).bind fun _ => safely_pure _
  | .columnRef _ _, _ => trivial
  | .constant _, _ => trivial
  | .invalid, _ => trivial
  | .star, _ => trivial
  | .unaryOp _ _, _ => trivial
  | .window _ _ _ _ _ _ _ _, _ => trivial

theorem addAggCallsToContext_safely : ∀ (exprs : List BoundExpression) (ctx : PlannerContext),
    Safely (addAggCallsToContext exprs ctx)
  | [], _ => trivial
  | expr :: exprs, ctx =>
    (addAggCallToContext_safely expr ctx).bind fun r =>
      (addAggCallsToContext_safely exprs r.2).bind fun _ => safely_pure _

end

mutual

/-- **Any expression can be planned**, over any plans. -/
theorem planExpression_safely : ∀ (expr : BoundExpression) (ctx : PlannerContext),
    Safely (planExpression children expr ctx)
  | .aggCall _ _ _, ctx => by
    rw [planExpression]
    split <;> trivial
  | .columnRef colName _, _ => (planColumnRef_safely colName children).bind fun _ => safely_pure _
  | .binaryOp opName larg rarg, ctx =>
    (planExpression_safely larg ctx).bind fun r =>
      (planExpression_safely rarg r.2).bind fun _ =>
        (getBinaryExpressionFromFactory_safely opName _ _).bind fun _ => safely_pure _
  | .funcCall _ args, ctx => by
    refine (planExpressions_safely args ctx).bind fun r => Safely.bind ?_ fun _ => safely_pure _
    exact Safely.ite trivial trivial
  | .constant val, _ => ((getColumn_safely val).bind fun _ => safely_pure _).bind fun _ => safely_pure _
  | .alias_ _ child, ctx => (planExpression_safely child ctx).bind fun _ => safely_pure _
  | .window _ _ _ _ _ _ _ _, _ => trivial
  | .invalid, _ => trivial
  | .star, _ => trivial
  | .unaryOp _ _, _ => trivial

theorem planExpressions_safely : ∀ (exprs : List BoundExpression) (ctx : PlannerContext),
    Safely (planExpressions children exprs ctx)
  | [], _ => trivial
  | expr :: exprs, ctx =>
    (planExpression_safely expr ctx).bind fun r =>
      (planExpressions_safely exprs r.2).bind fun _ => safely_pure _

end

theorem planScalar_safely (children : List PlanNode) (expr : BoundExpression) : Safely (planScalar children expr) :=
  (planExpression_safely expr _).bind fun _ => safely_pure _

theorem planOrderBys_safely (children : List PlanNode) (orderBys : List BoundOrderBy) :
    Safely (planOrderBys children orderBys) := by
  refine safely_mapM ?_ orderBys
  intro orderBy
  exact (planScalar_safely children orderBy.expr).bind fun _ => safely_pure _

theorem projectionNode_safely (items : List (String × Expr)) (child : PlanNode) :
    Safely (projectionNode items child) := (projectionSchema_safely items).bind fun _ => safely_pure _

end Expressions

/-! ## Select lists -/

section SelectLists

variable {child plan : PlanNode}

theorem getAggCallFromFactory_safely (funcName : String) (args : List Expr) :
    Safely (getAggCallFromFactory funcName args) := by
  unfold getAggCallFromFactory
  split
  · exact Safely.ite trivial trivial
  · iterate 4 refine Safely.ite trivial ?_
    trivial
  · trivial

theorem planAggregation_safely (child : PlanNode) (expr : BoundExpression) : Safely (planAggregation child expr) := by
  unfold planAggregation
  split
  · rename_i funcName isDistinct args
    refine Safely.bind ?_ ?_
    · cases isDistinct with
      | true => trivial
      | false => exact (planExpressions_safely args _).bind fun _ => getAggCallFromFactory_safely funcName _
    · rintro ⟨aggType, exprs⟩
      dsimp only
      split <;> trivial
  · trivial

theorem aggregationNode_safely (items : List (String × Expr)) (terms : List (AggregationType × Expr))
    (child : PlanNode) : Safely (aggregationNode items terms child) := by
  refine Safely.bind ?_ fun schema => (renameSchema_safely schema _).bind fun _ => safely_pure _
  exact (safely_mapM getReturnType_safely _).bind fun _ => safely_pure _

theorem planSelectAgg_safely (exprs : SelectExprs) (groupBy : List BoundExpression) (child : PlanNode) :
    Safely (planSelectAgg exprs groupBy child) := by
  refine (planExpressions_safely groupBy _).bind fun groups => ?_
  refine Safely.bind (Safely.ite trivial (addAggCallToContext_safely _ _)) fun having => ?_
  refine (addAggCallsToContext_safely _ _).bind fun list => ?_
  refine (safely_mapM (planAggregation_safely child) _).bind fun terms => ?_
  refine (aggregationNode_safely _ terms child).bind fun node => ?_
  refine Safely.bind ?_ fun filtered => ?_
  · exact Safely.ite trivial ((planExpression_safely _ _).bind fun _ => safely_pure _)
  · refine (planExpressions_safely _ _).bind fun items => ?_
    exact (projectionNode_safely _ _).bind fun _ => safely_pure _

theorem getWindowAggCallFromFactory_safely (funcName : String) (args : List Expr) :
    Safely (getWindowAggCallFromFactory funcName args) := by
  unfold getWindowAggCallFromFactory
  split
  · iterate 2 refine Safely.ite trivial ?_
    trivial
  · iterate 4 refine Safely.ite trivial ?_
    trivial
  · trivial

theorem cleanArg_safely (args : List Expr) : Safely (cleanArg args) := by
  unfold cleanArg
  split <;> trivial

theorem planWindowCall_safely (child : PlanNode) (index : ℕ) (call : BoundExpression) :
    Safely (planWindowCall child index call) := by
  unfold planWindowCall
  split
  · refine Safely.ite trivial ?_
    refine (safely_mapM (planScalar_safely [child]) _).bind fun _ => ?_
    refine Safely.ite trivial ?_
    refine (planOrderBys_safely [child] _).bind fun _ => ?_
    refine (safely_mapM (planScalar_safely [child]) _).bind fun _ => ?_
    refine (getWindowAggCallFromFactory_safely _ _).bind fun _ => ?_
    exact (cleanArg_safely _).bind fun _ => safely_pure _
  · trivial

theorem planWindowItem_safely (child : PlanNode) (index : ℕ) (item : BoundExpression) (id : ℕ) :
    Safely (planWindowItem child index item id) := by
  unfold planWindowItem
  refine Safely.ite ?_ ((planScalar_safely [child] item).bind fun _ => safely_pure _)
  split
  · exact (planWindowCall_safely child index _).bind fun _ => safely_pure _
  · exact (planWindowCall_safely child index _).bind fun _ => safely_pure _

theorem planWindowItems_safely (child : PlanNode) (items : List BoundExpression) : ∀ index id,
    Safely (planWindowItems child index items id) := by
  induction items with
  | nil => exact fun _ _ => trivial
  | cons item items ih =>
    intro index id
    refine (planWindowItem_safely child index item id).bind fun r => ?_
    exact (ih (index + 1) r.2.2).bind fun _ => safely_pure _

theorem planSelectWindow_safely (valueToString : Value → String) (selectList : List BoundExpression)
    (child : PlanNode) (id : ℕ) : Safely (planSelectWindow valueToString selectList child id) := by
  refine (planWindowItems_safely child selectList 0 id).bind fun r => ?_
  refine Safely.bind ?_ fun _ => (projectionSchema_safely _).bind fun _ => safely_pure _
  unfold checkOrderByCompatible
  split
  · trivial
  · exact Safely.ite trivial trivial

theorem planSelectItems_safely (child : PlanNode) (items : List BoundExpression) : ∀ id,
    Safely (planSelectItems child items id) := by
  induction items with
  | nil => exact fun _ => trivial
  | cons item items ih =>
    intro id
    refine (planScalar_safely [child] item).bind fun r => ?_
    exact (ih _).bind fun _ => safely_pure _

theorem hasAggregation_safely (expr : BoundExpression) : Safely expr.hasAggregation := by
  induction expr using BoundExpression.hasAggregation.induct with
  | case6 _ arg ih => exact ih
  | case7 _ larg rarg ihl ihr =>
    refine ihl.bind fun agg => ?_
    cases agg with
    | true => trivial
    | false => exact ihr
  | case8 _ child ih => exact ih
  | _ => trivial

theorem selectKind_safely (items : List BoundExpression) : Safely (selectKind items) := by
  induction items with
  | nil => trivial
  | cons item items ih =>
    refine (hasAggregation_safely item).bind fun agg => ?_
    cases agg with
    | true => trivial
    | false => exact Safely.ite trivial (Safely.ite trivial ih)

/-- **Any select list can be planned**, over any plan. -/
theorem planSelectList_safely (valueToString : Value → String) (exprs : SelectExprs) (groupBy : List BoundExpression)
    (plan : PlanNode) (id : ℕ) : Safely (planSelectList valueToString exprs groupBy plan id) := by
  refine (selectKind_safely exprs.selectList).bind fun kind => ?_
  refine Safely.ite ?_ (Safely.ite ?_ ?_)
  · refine Safely.ite trivial (Safely.ite trivial ?_)
    exact (planSelectWindow_safely valueToString exprs.selectList plan id).bind fun _ => safely_pure _
  · exact (planSelectAgg_safely exprs groupBy plan).bind fun _ => safely_pure _
  · refine (planSelectItems_safely plan exprs.selectList id).bind fun r => ?_
    exact (projectionNode_safely r.1 plan).bind fun _ => safely_pure _

end SelectLists

/-! ## The other stages -/

section Stages

theorem planWhere_safely (where_ : BoundExpression) (plan : PlanNode) : Safely (planWhere where_ plan) :=
  Safely.ite trivial ((planScalar_safely [plan] where_).bind fun _ => safely_pure _)

theorem planSort_safely (sort : List BoundOrderBy) (plan : PlanNode) : Safely (planSort sort plan) :=
  Safely.ite trivial ((planOrderBys_safely [plan] sort).bind fun _ => safely_pure _)

theorem stringTo_safely (name : String) (lo hi : Int) (s : List UInt8) : Safely (stringTo name lo hi s) := by
  unfold stringTo
  split
  · trivial
  · exact Safely.ite trivial trivial

/-- The cast of a limit. -/
theorem castAs_integer_safely (val : Value) : Safely (val.castAs .integer) := by
  cases val with
  | tinyint i => exact Safely.ite trivial (Safely.ite trivial trivial)
  | smallint i => exact Safely.ite trivial (Safely.ite trivial trivial)
  | integer i => exact Safely.ite trivial (Safely.ite trivial trivial)
  | bigint i => exact Safely.ite trivial (Safely.ite trivial trivial)
  | decimal bits => exact Safely.ite trivial (Safely.ite trivial trivial)
  | varchar data =>
    refine (stringTo_safely _ _ _ _).bind fun n => ?_
    exact Safely.ite trivial trivial
  | _ => trivial

theorem clauseConstant_safely (clause : String) (expr : BoundExpression) : Safely (clauseConstant clause expr) := by
  refine Safely.ite trivial ?_
  have hconstant : Safely (integerConstant clause expr) := by
    unfold integerConstant
    split
    · rename_i val
      refine (castAs_integer_safely val).bind fun _ => ?_
      cases val <;> trivial
    · trivial
  cases hint : integerConstant clause expr with
  | ok i => trivial
  | error e => exact hconstant.of_error hint

theorem planLimit_safely (limitCount limitOffset : BoundExpression) (plan : PlanNode) :
    Safely (planLimit limitCount limitOffset plan) := by
  refine (clauseConstant_safely "LIMIT" limitCount).bind fun limit => ?_
  refine (clauseConstant_safely "OFFSET" limitOffset).bind fun offset => ?_
  cases offset <;> cases limit <;> trivial

theorem planBaseTableRef_safely (catalog : Catalog) (table : String) (aliasName : Option String) (schema : Schema) :
    Safely (planBaseTableRef catalog table aliasName schema) := by
  unfold planBaseTableRef
  split
  · exact Safely.ite (Safely.ite trivial trivial) trivial
  · trivial

/-- There is a name for each column of the statement. -/
theorem subqueryNode_safely (aliasName : String) {selectListName : List (List String)} {selectNode : PlanNode}
    (hlen : (columnNames selectNode).length = selectListName.length) :
    Safely (subqueryNode aliasName selectListName selectNode) := by
  rw [length_columnNames] at hlen
  refine Safely.bind ?_ fun items => projectionNode_safely items selectNode
  refine (Meets.mapM (R := fun _ => True) ?_).imp (fun _ _ => trivial) fun _ he => he
  rintro ⟨column, idx⟩ hmem
  have hidx : idx < selectListName.length := by
    have hlt := List.snd_lt_of_mem_zipIdx hmem
    omega
  show Meets (subqueryItem aliasName selectListName idx column) _ _
  rw [subqueryItem, List.getElem?_eq_getElem hidx]
  trivial

/-- There is a row. -/
theorem planExpressionListRef_safely {values : List (List BoundExpression)} (hne : values ≠ []) (identifier : String) :
    Safely (planExpressionListRef values identifier) := by
  have hrows : Safely (values.mapM fun row => row.mapM (planScalar [])) :=
    safely_mapM (fun row => safely_mapM (planScalar_safely []) row) values
  refine Meets.bind (hrows.meets (P := fun rows => rows ≠ []) ?_) ?_
  · rintro rows hok rfl
    exact hne (List.length_eq_zero_iff.mp (forall₂_of_mapM_eq_ok hok).length_eq)
  · intro rows hrows
    obtain ⟨row, rest, rfl⟩ := List.exists_cons_of_ne_nil hrows
    refine Safely.bind ?_ fun _ => safely_pure _
    exact (safely_mapM getReturnType_safely _).bind fun _ => safely_pure _

end Stages

/-! ## The recursion -/

section Recursion

variable {catalog : Catalog} {heap : Heap} {bound n : ℕ} {valueToString : Value → String} {ctes outer : CTEScope}

/-- The statements of the CTEs in scope are scoped, wherever they were bound. -/
def Known (catalog : Catalog) (heap : Heap) (bound : ℕ) (ctes : CTEScope) : Prop :=
  ∀ list ∈ ctes, ∀ cte ∈ list, ∃ outer, StatementScoped catalog heap bound outer cte.subquery

/-- Planning rewrites select lists, and leaves the names of their items. -/
def SameNames (heap heap' : Heap) : Prop :=
  ∀ a, (heap' a).selectList.map itemName = (heap a).selectList.map itemName

theorem Known.find (h : Known catalog heap bound ctes) {cteName : String} {cte : BoundSubqueryRef}
    (hfind : findCTE ctes cteName = .ok cte) : ∃ outer, StatementScoped catalog heap bound outer cte.subquery := by
  unfold findCTE at hfind
  split at hfind
  · cases hfind
  · rename_i list
    split at hfind
    · cases hfind
    · rename_i found hfound
      cases hfind
      exact h list rfl _ (List.mem_of_find?_eq_some hfound)

theorem Known.scopeOf {statement : SelectStatement} (h : Known catalog heap bound ctes)
    (hctes : ∀ cte ∈ statement.ctes, StatementScoped catalog heap bound outer cte.subquery) :
    Known catalog heap bound (Planner.scopeOf ctes statement) := by
  unfold Planner.scopeOf
  split_ifs
  · exact h
  · rintro list ⟨⟩ cte hcte
    exact ⟨outer, hctes cte hcte⟩

/-- A table sees CTEs of the scope it was bound in, if it sees any. -/
theorem sees_scopeOf {statement : SelectStatement} (h : selectFree statement ∨ ctes = outer) :
    refFree statement.table ∨ scopeOf ctes statement = scopeOf outer statement := by
  by_cases hempty : statement.ctes = []
  · refine h.imp ?_ ?_
    · intro hfree
      cases statement
      exact hfree.1 hempty
    · rintro rfl
      rfl
  · have hcons : ¬ statement.ctes.isEmpty = true := fun h => hempty (List.isEmpty_iff.mp h)
    refine .inr ?_
    rw [scopeOf, scopeOf, if_neg hcons, if_neg hcons]

/-- The node of a subquery or a CTE, when its statement is planned. -/
theorem subquery_safely {depth : ℕ} {ref : BoundSubqueryRef} {st : PlannerState} (aliasName : String)
    (hnamed : NamedIn heap bound ref) (hnames : SameNames heap st.heap)
    (hselect : Safely (planSelect catalog valueToString depth ctes ref.subquery st)) :
    Safely (planSelect catalog valueToString depth ctes ref.subquery st >>= fun r =>
      subqueryNode aliasName ref.selectListName r.1 >>= fun plan => pure (plan, r.2)) := by
  refine Meets.bind (hselect.meets (P := fun r => (columnNames r.1).length = ref.selectListName.length) ?_) ?_
  · rintro ⟨selectNode, st'⟩ hok
    have hlist : ref.Named st.heap := hnamed.named.congr (hnames _)
    exact (planSelect_length hok).trans hlist.length_eq.symm
  · rintro ⟨selectNode, st'⟩ hlen
    exact (subqueryNode_safely aliasName hlen).bind fun _ => safely_pure _

/-- Scoped statements are planned safely at this depth, in the scope they were bound in, or in any if they see no
CTEs. -/
def SelectsSafe (catalog : Catalog) (heap : Heap) (bound : ℕ) (valueToString : Value → String) (depth : ℕ) : Prop :=
  ∀ ⦃ctes outer n statement st⦄, Shallow ctes n → Known catalog heap bound ctes →
    StatementScoped catalog heap bound outer statement → selectClosed statement →
    selectFree statement ∨ ctes = outer → selectDepth statement n ≤ depth → SameNames heap st.heap →
      Safely (planSelect catalog valueToString depth ctes statement st)

/-- The same of scoped tables. -/
def RefsSafe (catalog : Catalog) (heap : Heap) (bound : ℕ) (valueToString : Value → String) (depth : ℕ) : Prop :=
  ∀ ⦃ctes outer n ref st⦄, Shallow ctes n → Known catalog heap bound ctes →
    RefScoped catalog heap bound outer ref → refClosed ref → refFree ref ∨ ctes = outer → refDepth ref n ≤ depth →
      SameNames heap st.heap → Safely (planTableRef catalog valueToString depth ctes ref st)

/-- Two tables, the second after the first. -/
theorem RefsSafe.pair {depth : ℕ} (ih : RefsSafe catalog heap bound valueToString depth) {left right : BoundTableRef}
    {st : PlannerState} (f : PlanNode × PlannerState → PlanNode × PlannerState → Except Fault (PlanNode × PlannerState))
    (hf : ∀ l r, Safely (f l r)) (hscope : Shallow ctes n) (hknown : Known catalog heap bound ctes)
    (hleft : RefScoped catalog heap bound outer left) (hright : RefScoped catalog heap bound outer right)
    (hclosed : refClosed left ∧ refClosed right) (hfree : (refFree left ∧ refFree right) ∨ ctes = outer)
    (hdepth : max (refDepth left n) (refDepth right n) + 1 ≤ depth + 1) (hnames : SameNames heap st.heap) :
    Safely (planTableRef catalog valueToString depth ctes left st >>= fun l =>
      planTableRef catalog valueToString depth ctes right l.2 >>= f l) := by
  have hl := ih hscope hknown hleft hclosed.1 (hfree.imp_left And.left) (by omega) hnames
  refine Meets.bind (hl.meets (P := fun r => SameNames heap r.2.heap) ?_) ?_
  · intro l hok a
    exact (((plan_run depth).2 hok).itemNames a).trans (hnames a)
  · intro l hsame
    have hr := ih hscope hknown hright hclosed.2 (hfree.imp_left And.right) (by omega) hsame
    exact hr.bind fun r => hf l r

theorem RefsSafe.select {depth : ℕ} (ih : RefsSafe catalog heap bound valueToString depth) :
    SelectsSafe catalog heap bound valueToString (depth + 1) := by
  intro ctes outer n statement st hscope hknown hscoped hclosed hfree hdepth hnames
  rw [selectDepth_eq] at hdepth
  have htable : statement.table = .empty ∨
      Safely (planTableRef catalog valueToString depth (scopeOf ctes statement) statement.table st) := by
    have hclosedTable := (selectClosed_iff.mp hclosed).1
    cases hscoped with
    | values _ _ hne _ _ =>
      refine .inr ?_
      cases depth with
      | zero => exact absurd (Nat.le_of_succ_le_succ hdepth) (Nat.not_le.mpr (refDepth_pos _ _))
      | succ depth => exact (planExpressionListRef_safely hne _).bind fun _ => safely_pure _
    | select hmade hnamed hctes href hclauses =>
      exact .inr (ih (hscope.scopeOf hclosed) (hknown.scopeOf hctes) href hclosedTable (sees_scopeOf hfree)
        (by omega) hnames)
  rw [planSelect]
  refine Safely.bind ?_ fun table => ?_
  · split
    · trivial
    · exact htable.resolve_left ‹_›
  · refine (planWhere_safely _ _).bind fun filtered => ?_
    refine (planSelectList_safely _ _ _ _ _).bind fun list => ?_
    refine (planSort_safely _ _).bind fun sorted => ?_
    exact (planLimit_safely _ _ _).bind fun _ => safely_pure _

theorem RefsSafe.step {depth : ℕ} (ih : RefsSafe catalog heap bound valueToString depth)
    (ihs : SelectsSafe catalog heap bound valueToString depth) :
    RefsSafe catalog heap bound valueToString (depth + 1) := by
  intro ctes outer n ref st hscope hknown hscoped hclosed hfree hdepth hnames
  cases hscoped with
  | empty => trivial
  | baseTable htable => exact (planBaseTableRef_safely _ _ _ _).bind fun _ => safely_pure _
  | crossProduct hleft hright =>
    exact ih.pair _ (fun _ _ => safely_pure _) hscope hknown hleft hright hclosed hfree hdepth hnames
  | join hleft hright hcondition =>
    refine ih.pair _ ?_ hscope hknown hleft hright hclosed hfree hdepth hnames
    exact fun l r => (planScalar_safely _ _).bind fun _ => safely_pure _
  | @subquery _ ref hnamed hstatement =>
    rw [refDepth, subqueryDepth_eq] at hdepth
    refine subquery_safely ref.alias_ hnamed hnames ?_
    refine ihs hscope hknown hstatement (subqueryClosed_iff.mp hclosed) ?_ (by omega) hnames
    cases ref
    exact hfree
  | @cte _ cteName aliasName cte hfind hnamed =>
    rw [refDepth] at hdepth
    obtain rfl := hfree.resolve_left id
    obtain ⟨hcteFree, hcteClosed, hcteDepth⟩ := hscope.find hfind
    obtain ⟨outer, hstatement⟩ := hknown.find hfind
    rw [planTableRef, hfind, ok_bind]
    refine subquery_safely aliasName hnamed hnames ?_
    exact ihs hscope hknown hstatement hcteClosed (.inl hcteFree) (by omega) hnames

/-- **The recursion is safe**, with as much depth as the statement needs. -/
theorem plan_safely (depth : ℕ) :
    SelectsSafe catalog heap bound valueToString depth ∧ RefsSafe catalog heap bound valueToString depth := by
  induction depth with
  | zero =>
    constructor
    · intro ctes outer n statement st _ _ _ _ _ hdepth
      rw [selectDepth_eq] at hdepth
      omega
    · intro ctes outer n ref st _ _ _ _ _ hdepth
      exact absurd hdepth (Nat.not_le.mpr (refDepth_pos ref n))
  | succ depth ih => exact ⟨ih.2.select, ih.2.step ih.1⟩

end Recursion

end Journey.Planner
