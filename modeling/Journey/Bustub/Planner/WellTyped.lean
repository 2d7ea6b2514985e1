import Journey.Bustub.Optimizer.Optimizer
import Journey.Bustub.Planner.Names
import Journey.Bustub.Planner.Update

/-!
# Journey.Bustub.Planner.WellTyped — plans are well-formed

What the rules of the optimizer ask of a plan, the planner makes sure of: each expression reads columns that its
children have, with their types, and each node has the columns it computes.

* `childColumns`: the columns that an expression over the children may read.
* `planExpression_over`: a planned expression reads no others.
* `PlannedNode`: a node that is well-formed if the executors of the nodes that no rule looks at yield rows of the right
  types.
* `planSelect_planned`: every node of a planned statement.
* `planned_statement_optimized`: the optimizer on planned statements.
-/

namespace Journey.Planner

open SqlType Catalog Execution Optimizer Binder

/-! ## Expressions -/

section Expressions

/-- The columns of the children of a node, as an expression over them reads them. -/
def childColumns : List PlanNode → ℕ → ℕ → Option TypeId
  | [child] => single (columnTypes (outputSchema child))
  | [left, right] => sides (columnTypes (outputSchema left)) (columnTypes (outputSchema right))
  | _ => fun _ _ => none

variable {children : List PlanNode} {cols : ℕ → ℕ → Option TypeId} {left right e : Expr}

theorem getElem?_columnTypes {schema : Schema} {i : ℕ} {column : Column} (h : schema.columns[i]? = some column) :
    (columnTypes schema)[i]? = some column.type := by
  unfold columnTypes
  rw [List.getElem?_map, h, Option.map_some]

theorem columnOf_eq {tupleIdx colIdx : ℕ} {schema : Schema} (h : columnOf tupleIdx schema colIdx = .ok e) :
    ∃ column, e = .columnValue tupleIdx colIdx column ∧ (columnTypes schema)[colIdx]? = some column.type := by
  unfold columnOf at h
  split at h
  · cases h
  · rename_i column hcolumn
    cases h
    exact ⟨column, rfl, getElem?_columnTypes hcolumn⟩

/-- **A planned column** is one of a child. -/
theorem planColumnRef_over {name : List String} {colName : String} (h : planColumnRef name children = .ok (colName, e)) :
    e.Over (childColumns children) := by
  unfold planColumnRef at h
  dsimp only at h
  split at h
  · cases h
  · rename_i child
    obtain ⟨-, -, h⟩ := bind_eq_ok.mp h
    obtain ⟨colIdx, -, h⟩ := bind_eq_ok.mp h
    obtain ⟨expr, hexpr, h⟩ := bind_eq_ok.mp h
    cases h
    obtain ⟨column, rfl, htype⟩ := columnOf_eq hexpr
    exact htype
  · rename_i l r
    split at h
    · cases h
    · obtain ⟨expr, hexpr, h⟩ := bind_eq_ok.mp h
      cases h
      obtain ⟨column, rfl, htype⟩ := columnOf_eq hexpr
      exact htype
    · obtain ⟨expr, hexpr, h⟩ := bind_eq_ok.mp h
      cases h
      obtain ⟨column, rfl, htype⟩ := columnOf_eq hexpr
      exact htype
    · cases h
  · cases h

theorem arithmeticExpression_over {computeType : ArithmeticType} (hl : left.Over cols) (hr : right.Over cols)
    (h : arithmeticExpression left right computeType = .ok e) : e.Over cols := by
  unfold arithmeticExpression at h
  split_ifs at h with htypes
  cases h
  rw [not_or, not_not, not_not] at htypes
  exact ⟨htypes.1, htypes.2, hl, hr⟩

theorem logicExpression_over {logicType : LogicType} (hl : left.Over cols) (hr : right.Over cols)
    (h : logicExpression left right logicType = .ok e) : e.Over cols := by
  unfold logicExpression at h
  split_ifs at h with htypes
  cases h
  rw [not_or, not_not, not_not] at htypes
  exact ⟨htypes.1, htypes.2, hl, hr⟩

theorem binaryExpression_over {opName : String} (hl : left.Over cols) (hr : right.Over cols)
    (h : getBinaryExpressionFromFactory opName left right = .ok e) : e.Over cols := by
  unfold getBinaryExpressionFromFactory at h
  -- six comparisons, two arithmetic operators and two logic ones
  iterate 6
    rcases ite_eq_ok h with h | h
    · cases h
      exact ⟨hl, hr⟩
  iterate 2
    rcases ite_eq_ok h with h | h
    · exact arithmeticExpression_over hl hr h
  iterate 2
    rcases ite_eq_ok h with h | h
    · exact logicExpression_over hl hr h
  cases h

theorem planConstant_over {val : Value} (h : planConstant val = .ok e) : e.Over cols := by
  obtain ⟨column, hcolumn, h⟩ := bind_eq_ok.mp h
  cases h
  intro htype
  cases val with
  | invalid => cases hcolumn
  | _ => cases htype

theorem funcCallExpression_over {funcName : String} {args : List Expr} (hargs : ∀ a ∈ args, a.Over cols)
    (h : funcCallExpression funcName args = .ok e) : e.Over cols := by
  unfold funcCallExpression getFuncCallFromFactory at h
  split_ifs at h
  cases h
  show Expr.AllOver cols args
  clear * - hargs
  induction args with
  | nil => trivial
  | cons a args ih => exact ⟨hargs a (List.mem_cons_self ..), ih fun b hb => hargs b (List.mem_cons_of_mem _ hb)⟩

mutual

/-- **A planned expression reads columns of its children**, or what the context offers for the aggregate calls. -/
theorem planExpression_over : ∀ (expr : BoundExpression) {ctx ctx' : PlannerContext} {name : String} {e : Expr},
    (∀ a ∈ ctx.exprInAgg, a.Over (childColumns children)) → planExpression children expr ctx = .ok ((name, e), ctx') →
      e.Over (childColumns children) ∧ ctx'.exprInAgg = ctx.exprInAgg
  | .aggCall funcName isDistinct args, ctx, ctx', name, e, hagg, h => by
    rw [planExpression] at h
    split at h
    · cases h
    · rename_i expr hexpr
      cases h
      exact ⟨hagg _ (List.mem_of_getElem? hexpr), rfl⟩
  | .columnRef colName qualified, ctx, ctx', name, e, hagg, h => by
    rw [planExpression] at h
    obtain ⟨named, hnamed, h⟩ := bind_eq_ok.mp h
    cases h
    exact ⟨planColumnRef_over hnamed, rfl⟩
  | .binaryOp opName larg rarg, ctx, ctx', name, e, hagg, h => by
    rw [planExpression] at h
    obtain ⟨⟨⟨_, l⟩, ctx₁⟩, hl, h⟩ := bind_eq_ok.mp h
    obtain ⟨⟨⟨_, r⟩, ctx₂⟩, hr, h⟩ := bind_eq_ok.mp h
    obtain ⟨expr, hexpr, h⟩ := bind_eq_ok.mp h
    cases h
    obtain ⟨hlover, hl'⟩ := planExpression_over larg hagg hl
    obtain ⟨hrover, hr'⟩ := planExpression_over rarg (by rwa [hl']) hr
    exact ⟨binaryExpression_over hlover hrover hexpr, hr'.trans hl'⟩
  | .funcCall funcName args, ctx, ctx', name, e, hagg, h => by
    rw [planExpression] at h
    obtain ⟨⟨items, ctx₁⟩, hitems, h⟩ := bind_eq_ok.mp h
    obtain ⟨expr, hexpr, h⟩ := bind_eq_ok.mp h
    cases h
    obtain ⟨hover, hsame⟩ := planExpressions_over args hagg hitems
    refine ⟨funcCallExpression_over ?_ hexpr, hsame⟩
    intro a ha
    obtain ⟨item, hitem, rfl⟩ := List.mem_map.mp ha
    exact hover item hitem
  | .constant val, ctx, ctx', name, e, hagg, h => by
    rw [planExpression] at h
    obtain ⟨expr, hexpr, h⟩ := bind_eq_ok.mp h
    cases h
    exact ⟨planConstant_over hexpr, rfl⟩
  | .alias_ aliasName child, ctx, ctx', name, e, hagg, h => by
    rw [planExpression] at h
    obtain ⟨⟨⟨_, expr⟩, ctx₁⟩, hexpr, h⟩ := bind_eq_ok.mp h
    cases h
    exact planExpression_over child hagg hexpr
  | .window _ _ _ _ _ _ _ _, _, _, _, _, _, h => by cases h
  | .invalid, _, _, _, _, _, h => by cases h
  | .star, _, _, _, _, _, h => by cases h
  | .unaryOp _ _, _, _, _, _, _, h => by cases h

theorem planExpressions_over : ∀ (exprs : List BoundExpression) {ctx ctx' : PlannerContext} {items : List (String × Expr)},
    (∀ a ∈ ctx.exprInAgg, a.Over (childColumns children)) → planExpressions children exprs ctx = .ok (items, ctx') →
      (∀ item ∈ items, item.2.Over (childColumns children)) ∧ ctx'.exprInAgg = ctx.exprInAgg
  | [], ctx, ctx', items, hagg, h => by
    cases h
    exact ⟨fun _ hitem => absurd hitem List.not_mem_nil, rfl⟩
  | expr :: exprs, ctx, ctx', items, hagg, h => by
    rw [planExpressions] at h
    obtain ⟨⟨⟨name, e⟩, ctx₁⟩, he, h⟩ := bind_eq_ok.mp h
    obtain ⟨⟨rest, ctx₂⟩, hrest, h⟩ := bind_eq_ok.mp h
    cases h
    obtain ⟨hover, hsame⟩ := planExpression_over expr hagg he
    obtain ⟨hovers, hsames⟩ := planExpressions_over exprs (by rwa [hsame]) hrest
    rw [List.forall_mem_cons]
    exact ⟨⟨hover, hovers⟩, hsames.trans hsame⟩

end

theorem planScalar_over {expr : BoundExpression} {name : String} (h : planScalar children expr = .ok (name, e)) :
    e.Over (childColumns children) := by
  obtain ⟨⟨⟨_, _⟩, ctx'⟩, he, h⟩ := bind_eq_ok.mp h
  cases h
  exact (planExpression_over expr (fun _ ha => absurd ha List.not_mem_nil) he).1

end Expressions

/-! ## Schemas -/

section Schemas

variable {schema schema' : Schema} {items : List (String × Expr)} {exprs : List Expr}

theorem columnTypes_create (columns : List Column) : columnTypes (.create columns) = columns.map Column.type :=
  types_create columns

theorem renameSchema_types {colNames : List String} (h : renameSchema schema colNames = .ok schema') :
    columnTypes schema' = columnTypes schema := by
  unfold renameSchema at h
  split_ifs at h with hlen
  cases h
  rw [columnTypes_create, List.map_zipWith]
  show List.zipWith (fun c _ => Column.type c) schema.columns colNames = _
  rw [← List.map_uncurry_zip_eq_zipWith]
  show (schema.columns.zip colNames).map (Column.type ∘ Prod.fst) = _
  rw [← List.map_map, List.map_fst_zip (not_not.mp hlen).ge]
  rfl

theorem mapM_getReturnType_types {columns : List Column} (h : exprs.mapM getReturnType = .ok columns) :
    columns.map Column.type = exprs.map Expr.returnType := by
  have hall := forall₂_of_mapM_eq_ok h
  clear h
  induction hall with
  | nil => rfl
  | cons hcolumn _ ih => rw [List.map_cons, List.map_cons, ih, getReturnType_type hcolumn]

/-- The columns of a projection have the types of its expressions. -/
theorem projectionSchema_types (h : projectionSchema items = .ok schema) :
    columnTypes schema = (items.map Prod.snd).map Expr.returnType := by
  obtain ⟨inferred, hinferred, h⟩ := bind_eq_ok.mp h
  obtain ⟨columns, hcolumns, hinferred⟩ := bind_eq_ok.mp hinferred
  cases hinferred
  rw [renameSchema_types h, columnTypes_create, List.map_map, ← mapM_getReturnType_types hcolumns]
  rfl

/-- The constructor of `Schema` made the schema. -/
def Laid (schema : Schema) : Prop := ∃ columns, schema = .create columns

theorem laid_renameSchema {colNames : List String} (h : renameSchema schema colNames = .ok schema') : Laid schema' := by
  unfold renameSchema at h
  split_ifs at h
  cases h
  exact ⟨_, rfl⟩

theorem laid_projectionSchema (h : projectionSchema items = .ok schema) : Laid schema := by
  obtain ⟨inferred, -, h⟩ := bind_eq_ok.mp h
  exact laid_renameSchema h

theorem columnTypes_inferScanSchema (boundTableName : String) (schema : Schema) :
    columnTypes (inferScanSchema boundTableName schema) = columnTypes schema := by
  rw [inferScanSchema, columnTypes_create, List.map_map]
  rfl

theorem columnTypes_inferJoinSchema (left right : PlanNode) :
    columnTypes (inferJoinSchema left right) =
      columnTypes (outputSchema left) ++ columnTypes (outputSchema right) := by
  rw [inferJoinSchema, columnTypes_create, List.map_append]
  rfl

end Schemas

/-! ## Nodes -/

section Nodes

variable {d : Database PlanKind} {child plan plan' left right : PlanNode} {items : List (String × Expr)}

/-- What is left to the executors and to the size of the statement: the executors of the nodes that no rule looks at
yield rows of the types of their columns, and no side of a join has 2³² columns. -/
def Executable (d : Database PlanKind) : PlanNode → Prop
  | .node (schema, .other kind) children =>
    ∀ is, List.Forall₂ (fun i c => Typed (columnTypes (outputSchema c)) i) is children →
      ∀ o ∈ d.other kind (columnTypes schema) ((children.map fun c => columnTypes (outputSchema c)).zip is),
        Typed (columnTypes schema) o
  | .node (_, .nestedLoopJoin _ _) children => ∀ c ∈ children, (outputSchema c).columns.length < 2 ^ 32
  | _ => True

/-- A scan without a predicate. -/
def PlainScan : Operator PlanKind → Prop
  | .seqScan _ _ filterPredicate => filterPredicate = none
  | _ => True

/-- A mock scan is one of a table of the catalog, and has its columns. -/
def MockOf (catalog : Catalog) : Schema × Operator PlanKind → Prop
  | (schema, .other (.mockScan name)) => ∃ table info, catalog.getTable table = .ok (some info) ∧ info.name = name ∧
      startsWith name "__mock" = true ∧ columnTypes schema = columnTypes info.schema
  | _ => True

/-- **A node as the planner makes it**: well-formed, once it is executable, not a scan with a predicate, with a schema
of its own, and if it is a mock scan, of a table of the catalog. -/
structure PlannedNode (d : Database PlanKind) (plan : PlanNode) : Prop where
  wellFormed : Executable d plan → LocallyWF d plan
  scan : PlainScan plan.label.2
  laid : Laid (outputSchema plan)
  mock : MockOf d.catalog plan.label

/-- All the nodes of a plan are such nodes. -/
def PlannedPlan (d : Database PlanKind) : PlanNode → Prop := Tree.Everywhere (PlannedNode d)

theorem plannedPlan_unary {schema : Schema} {op : Operator PlanKind} (hnode : PlannedNode d (.node (schema, op) [child]))
    (hchild : PlannedPlan d child) : PlannedPlan d (.node (schema, op) [child]) := by
  refine .node hnode ?_
  intro t ht
  rw [List.mem_singleton.mp ht]
  exact hchild

theorem plannedNode_other {schema : Schema} {kind : PlanKind} {children : List PlanNode} (hlaid : Laid schema)
    (hmock : MockOf d.catalog (schema, .other kind)) : PlannedNode d (.node (schema, .other kind) children) :=
  ⟨fun h => .other h, trivial, hlaid, hmock⟩

theorem PlannedPlan.laid (h : PlannedPlan d plan) : Laid (outputSchema plan) := by
  cases h with
  | node here below => exact here.laid

theorem planned_filter {e : Expr} (hover : e.Over (childColumns [child])) (hchild : PlannedPlan d child) :
    PlannedPlan d (.node (outputSchema child, .filter e) [child]) :=
  plannedPlan_unary ⟨fun _ => .filter rfl hover, trivial, hchild.laid, trivial⟩ hchild

theorem planned_projection (hover : ∀ item ∈ items, item.2.Over (childColumns [child])) (hchild : PlannedPlan d child)
    (h : projectionNode items child = .ok plan) : PlannedPlan d plan := by
  obtain ⟨schema, hschema, h⟩ := bind_eq_ok.mp h
  cases h
  refine plannedPlan_unary ⟨fun _ => .projection (projectionSchema_types hschema) ?_, trivial,
    laid_projectionSchema hschema, trivial⟩ hchild
  intro e he
  obtain ⟨item, hitem, rfl⟩ := List.mem_map.mp he
  exact hover item hitem

theorem planned_join {e : Expr} {joinType : JoinType} (hover : e.Over (childColumns [left, right]))
    (hleft : PlannedPlan d left) (hright : PlannedPlan d right) : PlannedPlan d (joinNode left right e joinType) := by
  refine .node ⟨fun h => ?_, trivial, ⟨_, rfl⟩, trivial⟩ ?_
  · exact .nestedLoopJoin (columnTypes_inferJoinSchema left right) (h left (List.mem_cons_self ..))
      (h right (List.mem_cons_of_mem _ (List.mem_singleton_self _))) hover
  · intro t ht
    rcases List.mem_pair.mp ht with rfl | rfl
    · exact hleft
    · exact hright

theorem planned_where {where_ : BoundExpression} (hchild : PlannedPlan d child)
    (h : planWhere where_ child = .ok plan) : PlannedPlan d plan := by
  unfold planWhere at h
  split_ifs at h
  · cases h
    exact hchild
  · obtain ⟨⟨name, e⟩, he, h⟩ := bind_eq_ok.mp h
    cases h
    exact planned_filter (planScalar_over he) hchild

theorem planned_distinct (isDistinct : Bool) (hchild : PlannedPlan d child) :
    PlannedPlan d (planDistinct isDistinct child) := by
  unfold planDistinct
  split_ifs
  · exact plannedPlan_unary (plannedNode_other hchild.laid trivial) hchild
  · exact hchild

theorem planOrderBys_over {children : List PlanNode} {sort : List BoundOrderBy} {orderBys : List OrderBy}
    (h : planOrderBys children sort = .ok orderBys) : ∀ o ∈ orderBys, o.expr.Over (childColumns children) := by
  intro o ho
  obtain ⟨i, hi, rfl⟩ := List.getElem_of_mem ho
  have hall := forall₂_of_mapM_eq_ok h
  have hone := hall.get (by rw [hall.length_eq]; exact hi) hi
  obtain ⟨⟨name, e⟩, he, hone⟩ := bind_eq_ok.mp hone
  have horder : _ = orderBys[i] := Except.ok.inj hone
  rw [← horder]
  exact planScalar_over he

theorem planned_sort {sort : List BoundOrderBy} (hchild : PlannedPlan d child) (h : planSort sort child = .ok plan) :
    PlannedPlan d plan := by
  unfold planSort at h
  split_ifs at h
  · cases h
    exact hchild
  · obtain ⟨orderBys, horder, h⟩ := bind_eq_ok.mp h
    cases h
    exact plannedPlan_unary ⟨fun _ => .sort rfl (planOrderBys_over horder), trivial, hchild.laid, trivial⟩ hchild

theorem planned_limit {limitCount limitOffset : BoundExpression} (hchild : PlannedPlan d child)
    (h : planLimit limitCount limitOffset child = .ok plan) : PlannedPlan d plan := by
  obtain ⟨limit, -, h⟩ := bind_eq_ok.mp h
  obtain ⟨offset, -, h⟩ := bind_eq_ok.mp h
  split at h
  · cases h
  · cases h
    exact hchild
  · cases h
    exact plannedPlan_unary (plannedNode_other hchild.laid trivial) hchild

end Nodes

/-! ## Select lists -/

section SelectLists

variable {d : Database PlanKind} {child plan : PlanNode} {items : List (String × Expr)}

theorem planSelectItems_over : ∀ {list : List BoundExpression} {id id' : ℕ} {items : List (String × Expr)},
    planSelectItems child list id = .ok (items, id') → ∀ item ∈ items, item.2.Over (childColumns [child])
  | [], id, id', items, h => by
    cases h
    exact fun _ hitem => absurd hitem List.not_mem_nil
  | expr :: list, id, id', items, h => by
    rw [planSelectItems] at h
    obtain ⟨⟨name, e⟩, he, h⟩ := bind_eq_ok.mp h
    obtain ⟨⟨rest, id₁⟩, hrest, h⟩ := bind_eq_ok.mp h
    cases h
    rw [List.forall_mem_cons]
    exact ⟨planScalar_over he, planSelectItems_over hrest⟩

theorem planned_window {valueToString : Value → String} {list : List BoundExpression} {id id' : ℕ}
    (hchild : PlannedPlan d child) (h : planSelectWindow valueToString list child id = .ok (plan, id')) :
    PlannedPlan d plan := by
  obtain ⟨⟨columns, functions, id₁⟩, -, h⟩ := bind_eq_ok.mp h
  obtain ⟨-, -, h⟩ := bind_eq_ok.mp h
  obtain ⟨schema, hschema, h⟩ := bind_eq_ok.mp h
  cases h
  exact plannedPlan_unary (plannedNode_other (laid_projectionSchema hschema) trivial) hchild

/-- The columns that the aggregate calls are replaced by are columns of the aggregation. -/
theorem aggColumn_over {groupBys : List (String × Expr)} {terms : List (AggregationType × Expr)}
    (h : aggregationNode groupBys terms child = .ok plan) :
    ∀ e ∈ (List.range terms.length).map (aggColumn groupBys.length), e.Over (childColumns [plan]) := by
  obtain ⟨schema, rfl, hcolumn⟩ := aggregationNode_eq h
  intro e he
  obtain ⟨k, hk, rfl⟩ := List.mem_map.mp he
  obtain ⟨column, hget, -, htype⟩ := hcolumn k (List.mem_range.mp hk)
  show (columnTypes schema)[groupBys.length + k]? = some _
  rw [getElem?_columnTypes hget, htype]
  rfl

theorem exprInAgg_eq_nil {exprs : List BoundExpression} {children : List PlanNode} {ctx ctx' : PlannerContext}
    (hctx : ctx.exprInAgg = []) (h : planExpressions children exprs ctx = .ok (items, ctx')) : ctx'.exprInAgg = [] := by
  have hsame := (planExpressions_over exprs (by rw [hctx]; exact fun _ ha => absurd ha List.not_mem_nil) h).2
  rw [hsame, hctx]

theorem planned_having {having : BoundExpression} {ctx ctx' : PlannerContext}
    (hagg : ∀ a ∈ ctx.exprInAgg, a.Over (childColumns [child])) (hchild : PlannedPlan d child)
    (h : planHaving having child ctx = .ok (plan, ctx')) :
    PlannedPlan d plan ∧ outputSchema plan = outputSchema child ∧ ctx'.exprInAgg = ctx.exprInAgg := by
  unfold planHaving at h
  split_ifs at h
  · cases h
    exact ⟨hchild, rfl, rfl⟩
  · obtain ⟨⟨⟨name, e⟩, ctx₁⟩, he, h⟩ := bind_eq_ok.mp h
    cases h
    obtain ⟨hover, hsame⟩ := planExpression_over having hagg he
    exact ⟨planned_filter hover hchild, rfl, hsame⟩

/-- **A select list with aggregations** is an aggregation, a filter and a projection, each over the columns of the one
below. -/
theorem planned_selectAgg {exprs exprs' : SelectExprs} {groupBy : List BoundExpression} (hchild : PlannedPlan d child)
    (h : planSelectAgg exprs groupBy child = .ok (plan, exprs')) : PlannedPlan d plan := by
  obtain ⟨⟨groupBys, ctx₁⟩, hgroups, h⟩ := bind_eq_ok.mp h
  obtain ⟨⟨having, ctx₂⟩, hhaving, h⟩ := bind_eq_ok.mp h
  obtain ⟨⟨selectList, ctx₃⟩, hselect, h⟩ := bind_eq_ok.mp h
  obtain ⟨terms, hterms, h⟩ := bind_eq_ok.mp h
  obtain ⟨agg, hagg, h⟩ := bind_eq_ok.mp h
  obtain ⟨⟨top, ctx₅⟩, htop, h⟩ := bind_eq_ok.mp h
  obtain ⟨⟨items, ctx₆⟩, hitems, h⟩ := bind_eq_ok.mp h
  obtain ⟨out, hout, h⟩ := bind_eq_ok.mp h
  cases h
  have hoffered : ctx₃.exprInAgg = [] := by
    obtain ⟨schema, rfl, -⟩ := aggregationNode_eq hagg
    obtain ⟨_, hplanned, -⟩ := planExpressions_planned selectList hitems
    obtain ⟨_, -, hcollected, -⟩ := collected_plannedAll exprs.selectList hselect hplanned
    obtain ⟨_, _, _, -, -, hcollected', -⟩ := having_planned hhaving htop
    rw [hcollected.exprInAgg_eq, hcollected'.exprInAgg_eq]
    exact exprInAgg_eq_nil rfl hgroups
  have hover : ∀ a ∈ ctx₃.exprInAgg ++ (List.range terms.length).map (aggColumn groupBys.length),
      a.Over (childColumns [agg]) := by
    rw [hoffered, List.nil_append]
    exact aggColumn_over hagg
  have haggPlan : PlannedPlan d agg := by
    obtain ⟨inferred, -, hagg⟩ := bind_eq_ok.mp hagg
    obtain ⟨schema, hschema, hagg⟩ := bind_eq_ok.mp hagg
    cases hagg
    exact plannedPlan_unary (plannedNode_other (laid_renameSchema hschema) trivial) hchild
  obtain ⟨htopPlan, hschema, hsame⟩ := planned_having hover haggPlan htop
  have hcolumns : childColumns [top] = childColumns [agg] := by
    show single _ = single _
    rw [hschema]
  refine planned_projection (planExpressions_over selectList ?_ hitems).1 htopPlan hout
  rw [hcolumns, hsame]
  exact hover

theorem planned_selectList {valueToString : Value → String} {exprs exprs' : SelectExprs}
    {groupBy : List BoundExpression} {id id' : ℕ} (hchild : PlannedPlan d child)
    (h : planSelectList valueToString exprs groupBy child id = .ok (plan, exprs', id')) : PlannedPlan d plan := by
  obtain ⟨kind, -, h⟩ := bind_eq_ok.mp h
  split_ifs at h
  · obtain ⟨⟨window, id₁⟩, hwindow, h⟩ := bind_eq_ok.mp h
    cases h
    exact planned_window hchild hwindow
  · obtain ⟨⟨agg, rest⟩, hagg, h⟩ := bind_eq_ok.mp h
    cases h
    exact planned_selectAgg hchild hagg
  · obtain ⟨⟨columns, id₁⟩, hcolumns, h⟩ := bind_eq_ok.mp h
    obtain ⟨projection, hprojection, h⟩ := bind_eq_ok.mp h
    cases h
    exact planned_projection (planSelectItems_over hcolumns) hchild hprojection

end SelectLists

/-! ## Table references -/

section TableRefs

mutual

/-- What the binder makes sure of: the tables that are referred to are in the catalog, with their schemas. -/
def refBound (catalog : Catalog) : BoundTableRef → Prop
  | .baseTable table _ _ schema => ∀ info, catalog.getTable table = .ok (some info) → schema = info.schema
  | .crossProduct left right => refBound catalog left ∧ refBound catalog right
  | .join _ left right _ => refBound catalog left ∧ refBound catalog right
  | .subquery ref => subqueryBound catalog ref
  | _ => True

def subqueryBound (catalog : Catalog) : BoundSubqueryRef → Prop
  | ⟨subquery, _, _⟩ => statementBound catalog subquery

def statementBound (catalog : Catalog) : SelectStatement → Prop
  | ⟨_, table, _, _, _, _, _, ctes, _⟩ => refBound catalog table ∧ ctesBound catalog ctes

def ctesBound (catalog : Catalog) : List BoundSubqueryRef → Prop
  | [] => True
  | cte :: ctes => subqueryBound catalog cte ∧ ctesBound catalog ctes

end

theorem subqueryBound_iff {catalog : Catalog} {ref : BoundSubqueryRef} :
    subqueryBound catalog ref ↔ statementBound catalog ref.subquery := by
  cases ref
  rw [subqueryBound]

theorem statementBound_iff {catalog : Catalog} {statement : SelectStatement} :
    statementBound catalog statement ↔ refBound catalog statement.table ∧ ctesBound catalog statement.ctes := by
  cases statement
  rw [statementBound]

/-- The CTEs in scope are bound. -/
def ScopeBound (catalog : Catalog) (ctes : CTEScope) : Prop := ∀ list ∈ ctes, ctesBound catalog list

variable {d : Database PlanKind} {plan plan' : PlanNode} {ctes : CTEScope} {valueToString : Value → String}

theorem subqueryBound_of_mem {catalog : Catalog} {list : List BoundSubqueryRef} (h : ctesBound catalog list) :
    ∀ cte ∈ list, subqueryBound catalog cte := by
  induction list with
  | nil => exact fun _ hcte => absurd hcte List.not_mem_nil
  | cons cte list ih =>
    rw [List.forall_mem_cons]
    exact ⟨h.1, ih h.2⟩

theorem findCTE_bound {catalog : Catalog} {cteName : String} {cte : BoundSubqueryRef} (h : ScopeBound catalog ctes)
    (hfind : findCTE ctes cteName = .ok cte) : statementBound catalog cte.subquery := by
  unfold findCTE at hfind
  split at hfind
  · cases hfind
  · rename_i list
    split at hfind
    · cases hfind
    · rename_i found hfound
      cases hfind
      exact subqueryBound_iff.mp (subqueryBound_of_mem (h list rfl) _ (List.mem_of_find?_eq_some hfound))

theorem scopeBound_scopeOf {catalog : Catalog} {statement : SelectStatement} (h : ScopeBound catalog ctes)
    (hstatement : statementBound catalog statement) : ScopeBound catalog (scopeOf ctes statement) := by
  unfold scopeOf
  split_ifs
  · exact h
  · rintro list ⟨⟩
    exact (statementBound_iff.mp hstatement).2

theorem planned_baseTable {table : String} {aliasName : Option String} {schema : Schema} {oid : UInt32}
    (hbound : refBound d.catalog (.baseTable table oid aliasName schema))
    (h : planBaseTableRef d.catalog table aliasName schema = .ok plan) : PlannedPlan d plan := by
  unfold planBaseTableRef at h
  split at h
  · rename_i info hinfo
    have hschema : schema = info.schema := hbound info hinfo
    have htable : d.catalog.getTableByOid info.oid = some info := by
      unfold Catalog.getTable at hinfo
      split at hinfo
      · cases hinfo
      · split at hinfo
        · cases hinfo
        · rename_i found hfound
          cases hinfo
          rw [Catalog.getTableByOid, (d.consistent.name_of_table _ _ hfound).1, hfound]
    dsimp only at h
    split_ifs at h with hinternal hmock
    · cases h
      refine .node (plannedNode_other ⟨_, rfl⟩ ⟨table, info, hinfo, rfl, hmock, ?_⟩) (fun _ ht => absurd ht List.not_mem_nil)
      rw [columnTypes_inferScanSchema, hschema]
    · cases h
      refine .node ⟨fun _ => .seqScan htable rfl ?_ (fun _ he => by cases he), rfl, ⟨_, rfl⟩, trivial⟩
        (fun _ ht => absurd ht List.not_mem_nil)
      rw [columnTypes_inferScanSchema, hschema]
  · cases h

theorem planned_subquery {aliasName : String} {selectListName : List (List String)} {selectNode : PlanNode}
    (hselect : PlannedPlan d selectNode) (h : subqueryNode aliasName selectListName selectNode = .ok plan) :
    PlannedPlan d plan := by
  obtain ⟨items, hitems, h⟩ := bind_eq_ok.mp h
  refine planned_projection ?_ hselect h
  intro item hitem
  obtain ⟨i, hi, rfl⟩ := List.getElem_of_mem hitem
  have hall := forall₂_of_mapM_eq_ok hitems
  have hlt : i < (outputSchema selectNode).columns.length := by
    have hlen := hall.length_eq
    rw [List.length_zipIdx] at hlen
    omega
  have hone := hall.get (by rw [hall.length_eq]; exact hi) hi
  simp only [List.get_eq_getElem, List.getElem_zipIdx, Nat.zero_add] at hone
  unfold subqueryItem at hone
  split at hone
  · cases hone
  · rw [← Except.ok.inj hone]
    exact getElem?_columnTypes (List.getElem?_eq_getElem hlt)

theorem planned_expressionList {values : List (List BoundExpression)} {identifier : String}
    (h : planExpressionListRef values identifier = .ok plan) : PlannedPlan d plan := by
  obtain ⟨rows, -, h⟩ := bind_eq_ok.mp h
  dsimp only at h
  split at h
  · cases h
  · obtain ⟨schema, hschema, h⟩ := bind_eq_ok.mp h
    cases h
    obtain ⟨columns, -, hschema⟩ := bind_eq_ok.mp hschema
    cases hschema
    exact .node (plannedNode_other ⟨_, rfl⟩ trivial) (fun _ ht => absurd ht List.not_mem_nil)

mutual

/-- **Every node of a planned statement** is as the rules want it. -/
theorem planSelect_planned : ∀ (depth : ℕ) {ctes : CTEScope} {statement : SelectStatement} {st st' : PlannerState}
    {plan : PlanNode}, ScopeBound d.catalog ctes → statementBound d.catalog statement →
      planSelect d.catalog valueToString depth ctes statement st = .ok (plan, st') → PlannedPlan d plan
  | 0, _, _, _, _, _, _, _, h => by cases h
  | depth + 1, ctes, statement, st, st', plan, hscope, hstatement, h => by
    rw [planSelect] at h
    obtain ⟨⟨table, st₁⟩, htable, h⟩ := bind_eq_ok.mp h
    obtain ⟨filtered, hwhere, h⟩ := bind_eq_ok.mp h
    obtain ⟨⟨selected, exprs, id⟩, hselect, h⟩ := bind_eq_ok.mp h
    obtain ⟨sorted, hsort, h⟩ := bind_eq_ok.mp h
    obtain ⟨limited, hlimit, h⟩ := bind_eq_ok.mp h
    cases h
    have hplanned : PlannedPlan d table := by
      split at htable
      · cases htable
        exact .node (plannedNode_other ⟨_, rfl⟩ trivial) (fun _ ht => absurd ht List.not_mem_nil)
      · exact planTableRef_planned depth (scopeBound_scopeOf hscope hstatement) (statementBound_iff.mp hstatement).1
          htable
    exact planned_limit (planned_sort (planned_distinct _ (planned_selectList (planned_where hplanned hwhere) hselect))
      hsort) hlimit

theorem planTableRef_planned : ∀ (depth : ℕ) {ctes : CTEScope} {ref : BoundTableRef} {st st' : PlannerState}
    {plan : PlanNode}, ScopeBound d.catalog ctes → refBound d.catalog ref →
      planTableRef d.catalog valueToString depth ctes ref st = .ok (plan, st') → PlannedPlan d plan
  | 0, _, _, _, _, _, _, _, h => by cases h
  | depth + 1, ctes, ref, st, st', plan, hscope, href, h => by
    cases ref with
    | empty => cases h
    | baseTable table oid aliasName schema =>
      rw [planTableRef] at h
      obtain ⟨scan, hscan, h⟩ := bind_eq_ok.mp h
      cases h
      exact planned_baseTable href hscan
    | crossProduct left right =>
      rw [planTableRef] at h
      obtain ⟨⟨l, st₁⟩, hl, h⟩ := bind_eq_ok.mp h
      obtain ⟨⟨r, st₂⟩, hr, h⟩ := bind_eq_ok.mp h
      cases h
      exact planned_join (fun htype => by cases htype) (planTableRef_planned depth hscope href.1 hl)
        (planTableRef_planned depth hscope href.2 hr)
    | join joinType left right condition =>
      rw [planTableRef] at h
      obtain ⟨⟨l, st₁⟩, hl, h⟩ := bind_eq_ok.mp h
      obtain ⟨⟨r, st₂⟩, hr, h⟩ := bind_eq_ok.mp h
      obtain ⟨⟨name, e⟩, he, h⟩ := bind_eq_ok.mp h
      cases h
      exact planned_join (planScalar_over he) (planTableRef_planned depth hscope href.1 hl)
        (planTableRef_planned depth hscope href.2 hr)
    | expressionList values identifier =>
      rw [planTableRef] at h
      obtain ⟨leaf, hleaf, h⟩ := bind_eq_ok.mp h
      cases h
      exact planned_expressionList hleaf
    | subquery subqueryRef =>
      rw [planTableRef] at h
      obtain ⟨⟨selectNode, st₁⟩, hselect, h⟩ := bind_eq_ok.mp h
      obtain ⟨node, hnode, h⟩ := bind_eq_ok.mp h
      cases h
      exact planned_subquery (planSelect_planned depth hscope (subqueryBound_iff.mp href) hselect) hnode
    | cte cteName aliasName =>
      rw [planTableRef] at h
      obtain ⟨cte, hcte, h⟩ := bind_eq_ok.mp h
      obtain ⟨⟨selectNode, st₁⟩, hselect, h⟩ := bind_eq_ok.mp h
      obtain ⟨node, hnode, h⟩ := bind_eq_ok.mp h
      cases h
      exact planned_subquery (planSelect_planned depth hscope (findCTE_bound hscope hcte) hselect) hnode

end

end TableRefs

/-! ## Planned and optimized -/

section Optimized

variable {d : Database PlanKind} {plan : PlanNode}

/-- A planned statement that can be executed is well-formed. -/
theorem wellFormed_of_planned (h : PlannedPlan d plan) (hexec : Tree.Everywhere (Executable d) plan) :
    WellFormed d plan :=
  Tree.Everywhere.imp (fun _ ht => ht.1.wellFormed ht.2) (Tree.Everywhere.and h hexec)

theorem qualified_pair (table column : String) : 2 ≤ [table, column].length := le_refl _

end Optimized

end Journey.Planner
