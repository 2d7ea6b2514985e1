import Journey.Bustub.Planner.Rewriting

/-!
# Journey.Bustub.Planner.Repeat — planning a statement twice

Two plannings of a statement may differ in the names `__unnamed#n` only, since the counter for them goes on.
They do differ in more if the first one has taken aggregate calls out of the statement.

* `erasePlan`: a plan with one name in the place of all the generated ones; `SamePlan` is equality up to that.
* `planExpression_erase`: planning an expression does not look at generated names.  A column reference has a
  dot in its name, and a generated name has none.
* `plan_congr`: the counter does not matter but for generated names.
* `replan_iff`: a statement that was planned is planned to the same again iff no aggregate call is in the
  `HAVING` clause or the select list of a statement that was planned for it.
-/

namespace Journey.Planner

open SqlType Catalog Execution Optimizer Binder

/-! ## Plans up to generated names -/

section Erase

/-- A name that the planner has made up. -/
def Generated (name : String) : Prop := ∃ id, name = unnamed id

open Classical in
/-- One name in the place of all the generated ones. -/
noncomputable def eraseName (name : String) : String := if Generated name then unnamed 0 else name

theorem eraseName_unnamed (id : ℕ) : eraseName (unnamed id) = unnamed 0 := if_pos ⟨id, rfl⟩

/-- The names that no erasure gives are not looked for in vain after it. -/
theorem eraseName_eq_iff {name colName : String} (h : ¬ Generated colName) :
    eraseName name = colName ↔ name = colName := by
  unfold eraseName
  split_ifs with hname
  · constructor
    · rintro rfl
      exact absurd ⟨0, rfl⟩ h
    · rintro rfl
      exact absurd hname h
  · exact Iff.rfl

noncomputable def eraseColumn (column : Column) : Column := withColumnName column (eraseName column.name)

noncomputable def eraseSchema (schema : Schema) : Schema := { schema with columns := schema.columns.map eraseColumn }

mutual

noncomputable def eraseExpr : Expr → Expr
  | .columnValue tupleIdx colIdx retType => .columnValue tupleIdx colIdx (eraseColumn retType)
  | .constantValue val => .constantValue val
  | .arithmetic computeType left right => .arithmetic computeType (eraseExpr left) (eraseExpr right)
  | .comparison compType left right => .comparison compType (eraseExpr left) (eraseExpr right)
  | .logic logicType left right => .logic logicType (eraseExpr left) (eraseExpr right)
  | .array children => .array (eraseExprs children)
  | .string exprType arg => .string exprType (eraseExpr arg)

noncomputable def eraseExprs : List Expr → List Expr
  | [] => []
  | expr :: exprs => eraseExpr expr :: eraseExprs exprs

end

theorem eraseExprs_eq_map (exprs : List Expr) : eraseExprs exprs = exprs.map eraseExpr := by
  induction exprs with
  | nil => rfl
  | cons expr exprs ih => rw [eraseExprs, ih, List.map_cons]

noncomputable def eraseOrderBy (orderBy : OrderBy) : OrderBy := { orderBy with expr := eraseExpr orderBy.expr }

noncomputable def eraseFunction (f : WindowFunction) : WindowFunction where
  index := f.index
  function := eraseExpr f.function
  type := f.type
  partitionBy := f.partitionBy.map eraseExpr
  orderBy := f.orderBy.map eraseOrderBy

noncomputable def eraseKind : PlanKind → PlanKind
  | .values rows => .values (rows.map (List.map eraseExpr))
  | .mockScan table => .mockScan table
  | .aggregation groupBys aggregates aggTypes =>
    .aggregation (groupBys.map eraseExpr) (aggregates.map eraseExpr) aggTypes
  | .windowFunction columns functions => .windowFunction (columns.map eraseExpr) (functions.map eraseFunction)
  | .limit limit => .limit limit
  | .insert tableOid => .insert tableOid

noncomputable def eraseOperator : Operator PlanKind → Operator PlanKind
  | .seqScan tableOid tableName predicate => .seqScan tableOid tableName (predicate.map eraseExpr)
  | .indexScan tableOid indexOid predicate keys =>
    .indexScan tableOid indexOid (predicate.map eraseExpr) (keys.map eraseExpr)
  | .filter predicate => .filter (eraseExpr predicate)
  | .projection expressions => .projection (expressions.map eraseExpr)
  | .sort orderBys => .sort (orderBys.map eraseOrderBy)
  | .nestedLoopJoin predicate joinType => .nestedLoopJoin (eraseExpr predicate) joinType
  | .nestedIndexJoin predicate innerOid indexOid indexName tableName schema joinType =>
    .nestedIndexJoin (eraseExpr predicate) innerOid indexOid indexName tableName (eraseSchema schema) joinType
  | .other kind => .other (eraseKind kind)

/-- The plan with one name in the place of all the generated ones, in its schemas and in the types of its
expressions. -/
noncomputable def erasePlan (plan : PlanNode) : PlanNode :=
  plan.fold fun label children => .node (eraseSchema label.1, eraseOperator label.2) children

/-- The plans have the same structure, expressions and schemas, up to the counter of unnamed columns. -/
def SamePlan (plan plan' : PlanNode) : Prop := erasePlan plan = erasePlan plan'

@[simp] theorem erasePlan_node (schema : Schema) (op : Operator PlanKind) (children : List PlanNode) :
    erasePlan (.node (schema, op) children) =
      .node (eraseSchema schema, eraseOperator op) (children.map erasePlan) := by
  unfold erasePlan
  rw [Tree.fold_node]

theorem outputSchema_erasePlan (plan : PlanNode) :
    outputSchema (erasePlan plan) = eraseSchema (outputSchema plan) := by
  obtain ⟨⟨schema, op⟩, children⟩ := plan
  rw [erasePlan_node]
  rfl

/-- Plans that are the same have the same columns. -/
theorem SamePlan.schema_eq {plan plan' : PlanNode} (h : SamePlan plan plan') :
    eraseSchema (outputSchema plan) = eraseSchema (outputSchema plan') := by
  rw [← outputSchema_erasePlan, h, outputSchema_erasePlan]

theorem SamePlan.columns_eq {plan plan' : PlanNode} (h : SamePlan plan plan') :
    (outputSchema plan).columns.map eraseColumn = (outputSchema plan').columns.map eraseColumn :=
  congrArg Schema.columns h.schema_eq

end Erase

/-! ## Names -/

section Names

/-- A generated name has no dot. -/
theorem dot_notMem_unnamed (id : ℕ) : '.' ∉ (unnamed id).toList := by
  unfold unnamed
  rw [String.toList_append, List.mem_append, Nat.toString_eq_repr, Nat.toList_repr]
  rintro (h | h)
  · revert h
    decide
  · have hdigit := Nat.isDigit_of_mem_toDigits (by decide) (by decide) h
    revert hdigit
    decide

/-- The name of a column reference has one. -/
theorem dot_mem_joinName {colName : List String} (h : 2 ≤ colName.length) : '.' ∈ (joinName colName).toList := by
  match colName, h with
  | a :: b :: rest, _ =>
    unfold joinName
    rw [String.intercalate_cons_cons, String.toList_append, String.toList_append]
    simp

theorem not_generated_joinName {colName : List String} (h : 2 ≤ colName.length) : ¬ Generated (joinName colName) := by
  rintro ⟨id, hid⟩
  exact dot_notMem_unnamed id (hid ▸ dot_mem_joinName h)

end Names

/-! ## Expressions -/

section Expressions

/-- The name and the expression, with the generated names in its type erased. -/
noncomputable def eraseNamed (named : String × Expr) : String × Expr := (named.1, eraseExpr named.2)

noncomputable def eraseContext (ctx : PlannerContext) : PlannerContext :=
  { ctx with exprInAgg := ctx.exprInAgg.map eraseExpr }

variable {colName : String} {schema : Schema} {children children' : List PlanNode}

theorem noDuplicate_erase (h : ¬ Generated colName) (columns : List Column) (found : Bool) :
    noDuplicate colName (columns.map eraseColumn) found = noDuplicate colName columns found := by
  induction columns generalizing found with
  | nil => rfl
  | cons column columns ih =>
    have hname : colName = (eraseColumn column).name ↔ colName = column.name := by
      rw [eq_comm, eq_comm (a := colName)]
      exact eraseName_eq_iff h
    rw [List.map_cons, noDuplicate, noDuplicate]
    simp only [hname, ih]

theorem tryGetColIdx_erase (h : ¬ Generated colName) (schema : Schema) :
    tryGetColIdx (eraseSchema schema) colName = tryGetColIdx schema colName := by
  unfold tryGetColIdx eraseSchema
  rw [List.findIdx?_map]
  congr 1
  ext column
  exact decide_eq_decide.mpr (eraseName_eq_iff h)

theorem columnOf_erase (tupleIdx : ℕ) (schema : Schema) (colIdx : ℕ) :
    columnOf tupleIdx (eraseSchema schema) colIdx = (columnOf tupleIdx schema colIdx).map eraseExpr := by
  unfold columnOf eraseSchema
  rw [List.getElem?_map]
  cases schema.columns[colIdx]? <;> rfl

/-- **A column reference is planned as over the plans with their generated names.** -/
theorem planColumnRef_erase {name : List String} (h : 2 ≤ name.length) (children : List PlanNode) :
    planColumnRef name (children.map erasePlan) = (planColumnRef name children).map eraseNamed := by
  have hname := not_generated_joinName h
  match children with
  | [] => rfl
  | [child] =>
    simp only [planColumnRef, List.map_cons, List.map_nil, outputSchema_erasePlan, getColIdx,
      tryGetColIdx_erase hname, columnOf_erase]
    rw [eraseSchema, noDuplicate_erase hname]
    cases noDuplicate (joinName name) (outputSchema child).columns false with
    | error e => rfl
    | ok _ =>
      cases tryGetColIdx (outputSchema child) (joinName name) with
      | none => rfl
      | some i =>
        simp only [ok_bind]
        cases columnOf 0 (outputSchema child) i <;> rfl
  | [left, right] =>
    simp only [planColumnRef, List.map_cons, List.map_nil, outputSchema_erasePlan, tryGetColIdx_erase hname,
      columnOf_erase]
    cases tryGetColIdx (outputSchema left) (joinName name) with
    | none =>
      cases tryGetColIdx (outputSchema right) (joinName name) with
      | none => rfl
      | some j =>
        simp only
        cases columnOf 1 (outputSchema right) j <;> rfl
    | some i =>
      cases tryGetColIdx (outputSchema right) (joinName name) with
      | none =>
        simp only
        cases columnOf 0 (outputSchema left) i <;> rfl
      | some j => rfl
  | _ :: _ :: _ :: _ => rfl

theorem returnType_eraseExpr (e : Expr) : (eraseExpr e).returnType = e.returnType := by
  cases e <;> rfl

theorem arithmeticExpression_erase (left right : Expr) (computeType : ArithmeticType) :
    arithmeticExpression (eraseExpr left) (eraseExpr right) computeType =
      (arithmeticExpression left right computeType).map eraseExpr := by
  unfold arithmeticExpression
  rw [returnType_eraseExpr, returnType_eraseExpr]
  split_ifs <;> rfl

theorem logicExpression_erase (left right : Expr) (logicType : LogicType) :
    logicExpression (eraseExpr left) (eraseExpr right) logicType =
      (logicExpression left right logicType).map eraseExpr := by
  unfold logicExpression
  rw [returnType_eraseExpr, returnType_eraseExpr]
  split_ifs <;> rfl

theorem getBinaryExpressionFromFactory_erase (opName : String) (left right : Expr) :
    getBinaryExpressionFromFactory opName (eraseExpr left) (eraseExpr right) =
      (getBinaryExpressionFromFactory opName left right).map eraseExpr := by
  unfold getBinaryExpressionFromFactory
  simp only [apply_ite (Except.map eraseExpr), arithmeticExpression_erase, logicExpression_erase]
  rfl

theorem funcCallExpression_erase (funcName : String) (args : List Expr) :
    funcCallExpression funcName (args.map eraseExpr) = (funcCallExpression funcName args).map eraseExpr := by
  unfold funcCallExpression
  split_ifs
  · rw [← eraseExprs_eq_map]
    rfl
  · rfl

mutual

/-- **Planning an expression does not look at generated names.** -/
theorem planExpression_erase (children : List PlanNode) : ∀ (expr : BoundExpression) (ctx : PlannerContext),
    planExpression (children.map erasePlan) expr (eraseContext ctx) =
      (planExpression children expr ctx).map fun out => (eraseNamed out.1, eraseContext out.2)
  | .aggCall funcName isDistinct args, ctx => by
    rw [planExpression, planExpression]
    change (match (ctx.exprInAgg.map eraseExpr)[ctx.nextAggregation]? with | none => _ | some expr => _) = _
    rw [List.getElem?_map]
    cases ctx.exprInAgg[ctx.nextAggregation]? <;> rfl
  | .columnRef colName qualified, ctx => by
    rw [planExpression, planExpression, planColumnRef_erase qualified]
    cases planColumnRef colName children <;> rfl
  | .binaryOp opName larg rarg, ctx => by
    rw [planExpression, planExpression, planExpression_erase children larg ctx]
    cases planExpression children larg ctx with
    | error e => rfl
    | ok left =>
      simp only [Except.map, ok_bind]
      rw [planExpression_erase children rarg left.2]
      cases planExpression children rarg left.2 with
      | error e => rfl
      | ok right =>
        simp only [Except.map, ok_bind, eraseNamed, getBinaryExpressionFromFactory_erase]
        cases getBinaryExpressionFromFactory opName left.1.2 right.1.2 <;> rfl
  | .funcCall funcName args, ctx => by
    rw [planExpression, planExpression, planExpressions_erase children args ctx]
    cases planExpressions children args ctx with
    | error e => rfl
    | ok items =>
      have hsnd : (items.1.map eraseNamed).map Prod.snd = (items.1.map Prod.snd).map eraseExpr := by
        rw [List.map_map, List.map_map]
        rfl
      simp only [Except.map, ok_bind, hsnd, funcCallExpression_erase]
      cases funcCallExpression funcName (items.1.map Prod.snd) <;> rfl
  | .constant val, ctx => by
    rw [planExpression, planExpression]
    unfold planConstant
    cases getColumn val <;> rfl
  | .alias_ aliasName child, ctx => by
    rw [planExpression, planExpression, planExpression_erase children child ctx]
    cases planExpression children child ctx <;> rfl
  | .window _ _ _ _ _ _ _ _, _ => rfl
  | .invalid, _ => rfl
  | .star, _ => rfl
  | .unaryOp _ _, _ => rfl

theorem planExpressions_erase (children : List PlanNode) : ∀ (exprs : List BoundExpression) (ctx : PlannerContext),
    planExpressions (children.map erasePlan) exprs (eraseContext ctx) =
      (planExpressions children exprs ctx).map fun out => (out.1.map eraseNamed, eraseContext out.2)
  | [], _ => rfl
  | expr :: exprs, ctx => by
    rw [planExpressions, planExpressions, planExpression_erase children expr ctx]
    cases planExpression children expr ctx with
    | error e => rfl
    | ok named =>
      simp only [Except.map, ok_bind]
      rw [planExpressions_erase children exprs named.2]
      cases planExpressions children exprs named.2 <;> rfl

end

theorem planExpression_congr (h : children.map erasePlan = children'.map erasePlan) {ctx ctx' : PlannerContext}
    (hctx : eraseContext ctx = eraseContext ctx') (expr : BoundExpression) :
    (planExpression children expr ctx).map (fun out => (eraseNamed out.1, eraseContext out.2)) =
      (planExpression children' expr ctx').map fun out => (eraseNamed out.1, eraseContext out.2) := by
  rw [← planExpression_erase, h, hctx, planExpression_erase]

theorem planExpressions_congr (h : children.map erasePlan = children'.map erasePlan) {ctx ctx' : PlannerContext}
    (hctx : eraseContext ctx = eraseContext ctx') (exprs : List BoundExpression) :
    (planExpressions children exprs ctx).map (fun out => (out.1.map eraseNamed, eraseContext out.2)) =
      (planExpressions children' exprs ctx').map fun out => (out.1.map eraseNamed, eraseContext out.2) := by
  rw [← planExpressions_erase, h, hctx, planExpressions_erase]

theorem planScalar_congr (h : children.map erasePlan = children'.map erasePlan) (expr : BoundExpression) :
    (planScalar children expr).map eraseNamed = (planScalar children' expr).map eraseNamed :=
  map_bind_congr (planExpression_congr h rfl expr) fun _ _ hab => congrArg Except.ok (congrArg Prod.fst hab)

theorem mapM_planScalar_congr (h : children.map erasePlan = children'.map erasePlan) (exprs : List BoundExpression) :
    (exprs.mapM (planScalar children)).map (List.map eraseNamed) =
      (exprs.mapM (planScalar children')).map (List.map eraseNamed) :=
  mapM_congr_map (planScalar_congr h) exprs

theorem planOrderBys_congr (h : children.map erasePlan = children'.map erasePlan) (orderBys : List BoundOrderBy) :
    (planOrderBys children orderBys).map (List.map eraseOrderBy) =
      (planOrderBys children' orderBys).map (List.map eraseOrderBy) := by
  refine mapM_congr_map ?_ orderBys
  intro orderBy
  refine map_bind_congr (planScalar_congr h orderBy.expr) ?_
  intro a b hab
  exact congrArg (fun named => Except.ok (⟨orderBy.type, orderBy.nullOrder, named.2⟩ : OrderBy)) hab

end Expressions

/-! ## Schemas -/

section Schemas

variable {plan plan' : PlanNode}

/-- The offsets of a schema do not depend on its names. -/
theorem eraseSchema_create (columns : List Column) :
    eraseSchema (.create columns) = .create (columns.map eraseColumn) := by
  induction columns using List.reverseRecOn with
  | nil => rfl
  | append_singleton columns column ih =>
    rw [create_concat, List.map_append, List.map_singleton, create_concat, ← ih, List.length_map]
    have hinlined : (eraseColumn column).isInlined = column.isInlined := rfl
    unfold Schema.addColumn eraseSchema
    simp only [hinlined]
    split_ifs <;> simp [eraseColumn, withColumnName, Column.slotSize, Column.isInlined]

theorem getReturnType_erase (e : Expr) (name : String) :
    (getReturnType (eraseExpr e)).map (withColumnName · name) = (getReturnType e).map (withColumnName · name) := by
  cases e with
  | array children => simp only [eraseExpr, eraseExprs_eq_map, getReturnType, List.length_map]
  | _ => rfl

theorem inferProjectionSchema_erase (es : List Expr) :
    inferProjectionSchema (es.map eraseExpr) = inferProjectionSchema es := by
  have heq (es : List Expr) : inferProjectionSchema es =
      (es.mapM fun e => (getReturnType e).map (withColumnName · "<unnamed>")).map Schema.create := by
    unfold inferProjectionSchema
    rw [← map_mapM]
    cases es.mapM getReturnType <;> rfl
  rw [heq, heq, List.mapM_map]
  simp only [Function.comp_def, getReturnType_erase]

theorem renameSchema_congr (schema : Schema) {names names' : List String}
    (h : names.map eraseName = names'.map eraseName) :
    (renameSchema schema names).map eraseSchema = (renameSchema schema names').map eraseSchema := by
  have hlen : names.length = names'.length := by simpa using congrArg List.length h
  have hcolumns (names : List String) : (List.zipWith withColumnName schema.columns names).map eraseColumn =
      List.zipWith withColumnName schema.columns (names.map eraseName) := by
    rw [List.map_zipWith, List.zipWith_map_right]
    rfl
  unfold renameSchema
  rw [hlen]
  split_ifs
  · rfl
  · simp only [Except.map, eraseSchema_create, hcolumns, h]

/-- The name and the expression of a column with the generated names erased, its own included. -/
noncomputable def eraseItem (item : String × Expr) : String × Expr := (eraseName item.1, eraseExpr item.2)

theorem map_snd_of_eraseItem {items items' : List (String × Expr)} (h : items.map eraseItem = items'.map eraseItem) :
    (items.map Prod.snd).map eraseExpr = (items'.map Prod.snd).map eraseExpr := by
  have hsnd := congrArg (List.map Prod.snd) h
  rw [List.map_map, List.map_map] at hsnd
  rw [List.map_map, List.map_map]
  exact hsnd

theorem map_fst_of_eraseItem {items items' : List (String × Expr)} (h : items.map eraseItem = items'.map eraseItem) :
    (items.map Prod.fst).map eraseName = (items'.map Prod.fst).map eraseName := by
  have hfst := congrArg (List.map Prod.fst) h
  rw [List.map_map, List.map_map] at hfst
  rw [List.map_map, List.map_map]
  exact hfst

theorem eraseItem_of_eraseNamed {items items' : List (String × Expr)}
    (h : items.map eraseNamed = items'.map eraseNamed) : items.map eraseItem = items'.map eraseItem := by
  have himage := congrArg (List.map fun named : String × Expr => (eraseName named.1, named.2)) h
  rw [List.map_map, List.map_map] at himage
  exact himage

theorem projectionSchema_congr {items items' : List (String × Expr)}
    (h : items.map eraseItem = items'.map eraseItem) :
    (projectionSchema items).map eraseSchema = (projectionSchema items').map eraseSchema := by
  unfold projectionSchema
  rw [← inferProjectionSchema_erase, map_snd_of_eraseItem h, inferProjectionSchema_erase]
  cases inferProjectionSchema (items'.map Prod.snd) with
  | error e => rfl
  | ok schema => exact renameSchema_congr schema (map_fst_of_eraseItem h)

theorem projectionNode_congr {items items' : List (String × Expr)} (h : items.map eraseItem = items'.map eraseItem)
    (hplan : SamePlan plan plan') :
    (projectionNode items plan).map erasePlan = (projectionNode items' plan').map erasePlan := by
  refine map_bind_congr (projectionSchema_congr h) ?_
  intro schema schema' hschema
  refine congrArg Except.ok ?_
  rw [erasePlan_node, erasePlan_node, hschema]
  simp only [eraseOperator, map_snd_of_eraseItem h, List.map_cons, List.map_nil]
  rw [show erasePlan plan = erasePlan plan' from hplan]

end Schemas

/-! ## Aggregations -/

section Aggregations

variable {child child' : PlanNode}

theorem SamePlan.singleton (h : SamePlan child child') : [child].map erasePlan = [child'].map erasePlan :=
  congrArg (fun plan => [plan]) h

theorem getAggCallFromFactory_erase (funcName : String) (args : List Expr) :
    getAggCallFromFactory funcName (args.map eraseExpr) =
      (getAggCallFromFactory funcName args).map fun out => (out.1, out.2.map eraseExpr) := by
  match args with
  | [] =>
    simp only [getAggCallFromFactory, List.map_nil]
    split_ifs <;> rfl
  | [_] =>
    simp only [getAggCallFromFactory, List.map_cons, List.map_nil]
    split_ifs <;> rfl
  | _ :: _ :: _ => simp [getAggCallFromFactory, Except.map]

noncomputable def eraseTerm (term : AggregationType × Expr) : AggregationType × Expr := (term.1, eraseExpr term.2)

theorem planAggregation_congr (h : SamePlan child child') (expr : BoundExpression) :
    (planAggregation child expr).map eraseTerm = (planAggregation child' expr).map eraseTerm := by
  cases expr with
  | aggCall funcName isDistinct args =>
    unfold planAggregation
    have hcall : (planAggCall funcName isDistinct args [child]).map (fun out => (out.1, out.2.map eraseExpr)) =
        (planAggCall funcName isDistinct args [child']).map fun out => (out.1, out.2.map eraseExpr) := by
      cases isDistinct with
      | true => rfl
      | false =>
        refine map_bind_congr (planExpressions_congr h.singleton rfl args) ?_
        intro a b hab
        rw [← getAggCallFromFactory_erase, ← getAggCallFromFactory_erase,
          map_snd_of_eraseItem (eraseItem_of_eraseNamed (congrArg Prod.fst hab))]
    refine map_bind_congr hcall ?_
    rintro ⟨type, exprs⟩ ⟨type', exprs'⟩ hab
    obtain ⟨rfl, hexprs⟩ := Prod.mk.inj hab
    match exprs, exprs', hexprs with
    | [], [], _ => rfl
    | [e], [e'], hexprs => exact congrArg (fun e => Except.ok (type, e)) (List.cons.inj hexprs).1
    | [_], _ :: _ :: _, hexprs => cases (List.cons.inj hexprs).2
    | _ :: _ :: _, [_], hexprs => cases (List.cons.inj hexprs).2
    | _ :: _ :: _, _ :: _ :: _, _ => rfl
  | _ => rfl

theorem inferAggSchema_erase (groupBys aggregates : List Expr) :
    inferAggSchema (groupBys.map eraseExpr) (aggregates.map eraseExpr) = inferAggSchema groupBys aggregates := by
  have heq (groupBys aggregates : List Expr) : inferAggSchema groupBys aggregates =
      (groupBys.mapM fun e => (getReturnType e).map (withColumnName · "<unnamed>")).map fun columns =>
        .create (columns ++ aggregates.map fun _ => .fixed "<unnamed>" .integer 4 (by decide) rfl) := by
    unfold inferAggSchema
    rw [← map_mapM]
    cases groupBys.mapM getReturnType <;> rfl
  rw [heq, heq, List.mapM_map, List.map_map]
  simp only [Function.comp_def, getReturnType_erase]

theorem aggregationNode_congr {items items' : List (String × Expr)} {terms terms' : List (AggregationType × Expr)}
    (hitems : items.map eraseItem = items'.map eraseItem) (hterms : terms.map eraseTerm = terms'.map eraseTerm)
    (hplan : SamePlan child child') :
    (aggregationNode items terms child).map erasePlan = (aggregationNode items' terms' child').map erasePlan := by
  have hsnd : (terms.map Prod.snd).map eraseExpr = (terms'.map Prod.snd).map eraseExpr := by
    have himage := congrArg (List.map Prod.snd) hterms
    rw [List.map_map, List.map_map] at himage
    rw [List.map_map, List.map_map]
    exact himage
  have hfst : terms.map Prod.fst = terms'.map Prod.fst := by
    have himage := congrArg (List.map Prod.fst) hterms
    rw [List.map_map, List.map_map] at himage
    exact himage
  have hlen : terms.length = terms'.length := by simpa using congrArg List.length hterms
  unfold aggregationNode
  rw [← inferAggSchema_erase, map_snd_of_eraseItem hitems, hsnd, inferAggSchema_erase, hlen, hfst]
  cases inferAggSchema (items'.map Prod.snd) (terms'.map Prod.snd) with
  | error e => rfl
  | ok schema =>
    rw [ok_bind, ok_bind]
    refine map_bind_congr (renameSchema_congr schema ?_) ?_
    · rw [List.map_append, List.map_append, map_fst_of_eraseItem hitems]
    · intro out out' hout
      refine congrArg Except.ok ?_
      rw [erasePlan_node, erasePlan_node, hout]
      simp only [eraseOperator, eraseKind, map_snd_of_eraseItem hitems, hsnd, hplan.singleton]

theorem planHaving_congr (h : SamePlan child child') (having : BoundExpression) (ctx : PlannerContext) :
    (planHaving having child ctx).map (fun out => (erasePlan out.1, eraseContext out.2)) =
      (planHaving having child' ctx).map fun out => (erasePlan out.1, eraseContext out.2) := by
  unfold planHaving
  split_ifs
  · exact congrArg (fun plan => Except.ok (plan, eraseContext ctx)) h
  · refine map_bind_congr (planExpression_congr h.singleton rfl having) ?_
    intro a b hab
    obtain ⟨hnamed, hctx⟩ := Prod.mk.inj hab
    refine congrArg Except.ok (Prod.ext ?_ hctx)
    simp only [erasePlan_node, h.schema_eq, eraseOperator, h.singleton]
    rw [(Prod.mk.inj hnamed).2]

/-- Group-by expressions: the context is left as it was. -/
theorem planExpressions_outside_congr (h : SamePlan child child') {ctx : PlannerContext} (hctx : ctx.exprInAgg = [])
    (exprs : List BoundExpression) :
    (planExpressions [child] exprs ctx).map (fun out => (out.1.map eraseNamed, out.2)) =
      (planExpressions [child'] exprs ctx).map fun out => (out.1.map eraseNamed, out.2) := by
  have hcongr := planExpressions_congr h.singleton (rfl : eraseContext ctx = eraseContext ctx) exprs
  cases ha : planExpressions [child] exprs ctx with
  | error e =>
    rw [ha] at hcongr
    cases hb : planExpressions [child'] exprs ctx with
    | error e' =>
      rw [hb] at hcongr
      cases hcongr
      rfl
    | ok b =>
      rw [hb] at hcongr
      cases hcongr
  | ok a =>
    rw [ha] at hcongr
    cases hb : planExpressions [child'] exprs ctx with
    | error e =>
      rw [hb] at hcongr
      cases hcongr
    | ok b =>
      rw [hb] at hcongr
      have ha' := (plannedAll_of_newContext hctx ha).2.eq_of_nil hctx
      have hb' := (plannedAll_of_newContext hctx hb).2.eq_of_nil hctx
      exact congrArg Except.ok (Prod.ext (Prod.mk.inj (Except.ok.inj hcongr)).1 (ha'.trans hb'.symm))

/-- **`PlanSelectAgg` does not look at generated names.** -/
theorem planSelectAgg_congr (h : SamePlan child child') (exprs : SelectExprs) (groupBy : List BoundExpression) :
    (planSelectAgg exprs groupBy child).map (fun out => (erasePlan out.1, out.2)) =
      (planSelectAgg exprs groupBy child').map fun out => (erasePlan out.1, out.2) := by
  refine map_bind_congr (planExpressions_outside_congr h rfl groupBy) ?_
  rintro ⟨groups, ctx⟩ ⟨groups', _⟩ hgroups
  obtain ⟨hgroups, rfl⟩ := Prod.mk.inj hgroups
  have hitems := eraseItem_of_eraseNamed hgroups
  have hlen : groups.length = groups'.length := by simpa using congrArg List.length hgroups
  refine map_bind_congr (v := id) rfl ?_
  rintro ⟨having, ctx₂⟩ _ rfl
  refine map_bind_congr (v := id) rfl ?_
  rintro ⟨selectList, ctx₃⟩ _ rfl
  refine map_bind_congr (mapM_congr_map (planAggregation_congr h) ctx₃.aggregations) ?_
  intro terms terms' hterms
  have hlen' : terms.length = terms'.length := by simpa using congrArg List.length hterms
  refine map_bind_congr (aggregationNode_congr hitems hterms h) ?_
  intro agg agg' hagg
  rw [hlen, hlen']
  refine map_bind_congr (planHaving_congr hagg having _) ?_
  rintro ⟨top, ctx₅⟩ ⟨top', ctx₅'⟩ htop
  obtain ⟨htop, hctx⟩ := Prod.mk.inj htop
  refine map_bind_congr (planExpressions_congr (SamePlan.singleton htop) hctx selectList) ?_
  rintro ⟨items, ctx₆⟩ ⟨items', ctx₆'⟩ hout
  refine map_bind_congr (projectionNode_congr (eraseItem_of_eraseNamed (Prod.mk.inj hout).1) htop) ?_
  intro out out' hout
  exact congrArg (fun plan => Except.ok (plan, (⟨having, selectList⟩ : SelectExprs))) hout

end Aggregations

/-! ## Select lists -/

section SelectLists

variable {child child' : PlanNode} {valueToString : Value → String}

theorem eraseName_nameOrUnnamed (name : String) (id id' : ℕ) :
    eraseName (nameOrUnnamed name id).1 = eraseName (nameOrUnnamed name id').1 := by
  unfold nameOrUnnamed
  split_ifs
  · rw [eraseName_unnamed, eraseName_unnamed]
  · rfl

/-- The columns of a normal select, up to the counter. -/
theorem planSelectItems_congr (h : SamePlan child child') (items : List BoundExpression) (id id' : ℕ) :
    (planSelectItems child items id).map (fun out => out.1.map eraseItem) =
      (planSelectItems child' items id').map fun out => out.1.map eraseItem := by
  induction items generalizing id id' with
  | nil => rfl
  | cons item items ih =>
    refine map_bind_congr (planScalar_congr h.singleton item) ?_
    rintro ⟨name, e⟩ ⟨name', e'⟩ hnamed
    obtain ⟨rfl, he⟩ := Prod.mk.inj hnamed
    refine map_bind_congr (ih _ _) ?_
    intro columns columns' hcolumns
    have hitem : eraseItem ((nameOrUnnamed name id).1, e) = eraseItem ((nameOrUnnamed name id').1, e') :=
      Prod.ext (eraseName_nameOrUnnamed name id id') he
    exact congrArg Except.ok (congrArg₂ List.cons hitem hcolumns)

theorem getWindowAggCallFromFactory_erase (funcName : String) (args : List Expr) :
    getWindowAggCallFromFactory funcName (args.map eraseExpr) =
      (getWindowAggCallFromFactory funcName args).map fun out => (out.1, out.2.map eraseExpr) := by
  match args with
  | [] =>
    simp only [getWindowAggCallFromFactory, List.map_nil]
    split_ifs <;> rfl
  | [_] =>
    simp only [getWindowAggCallFromFactory, List.map_cons, List.map_nil]
    split_ifs <;> rfl
  | _ :: _ :: _ => simp [getWindowAggCallFromFactory, Except.map]

theorem cleanArg_erase (args : List Expr) : cleanArg (args.map eraseExpr) = (cleanArg args).map eraseExpr := by
  match args with
  | [] => rfl
  | [_] => rfl
  | _ :: _ :: _ => rfl

theorem planWindowCall_congr (h : SamePlan child child') (index : ℕ) (call : BoundExpression) :
    (planWindowCall child index call).map eraseFunction = (planWindowCall child' index call).map eraseFunction := by
  cases call with
  | window funcName args partitionBy orderBys _ _ start end_ =>
    simp only [planWindowCall]
    split_ifs
    · rfl
    · exact map_bind_congr (mapM_planScalar_congr h.singleton partitionBy) fun _ _ _ => rfl
    · refine map_bind_congr (mapM_planScalar_congr h.singleton partitionBy) ?_
      intro parts parts' hparts
      refine map_bind_congr (planOrderBys_congr h.singleton orderBys) ?_
      intro orders orders' horders
      refine map_bind_congr (mapM_planScalar_congr h.singleton args) ?_
      intro raw raw' hraw
      refine map_bind_congr (v := fun out => (out.1, out.2.map eraseExpr)) ?_ ?_
      · rw [← getWindowAggCallFromFactory_erase, ← getWindowAggCallFromFactory_erase,
          map_snd_of_eraseItem (eraseItem_of_eraseNamed hraw)]
      · rintro ⟨type, clean⟩ ⟨type', clean'⟩ hclean
        obtain ⟨rfl, hclean⟩ := Prod.mk.inj hclean
        refine map_bind_congr (v := eraseExpr) ?_ ?_
        · rw [← cleanArg_erase, ← cleanArg_erase, hclean]
        · intro f f' hf
          refine congrArg Except.ok ?_
          simp only [eraseFunction, hf, map_snd_of_eraseItem (eraseItem_of_eraseNamed hparts), horders]
  | _ => rfl

/-- A column and a window function, with the generated names erased. -/
noncomputable def eraseWindowItem (out : (String × Expr) × List WindowFunction × ℕ) :
    (String × Expr) × List WindowFunction := (eraseItem out.1, out.2.1.map eraseFunction)

theorem planWindowItem_congr (h : SamePlan child child') (index : ℕ) (item : BoundExpression) (id id' : ℕ) :
    (planWindowItem child index item id).map eraseWindowItem =
      (planWindowItem child' index item id').map eraseWindowItem := by
  have hplaceholder (name : String) (id id' : ℕ) (f f' : WindowFunction) (hf : eraseFunction f = eraseFunction f') :
      eraseWindowItem ((name, placeholder), [f], id) = eraseWindowItem ((name, placeholder), [f'], id') :=
    Prod.ext rfl (congrArg (fun f => [f]) hf)
  unfold planWindowItem
  split_ifs
  · split
    · exact map_bind_congr (planWindowCall_congr h index _) fun f f' hf =>
        congrArg Except.ok (hplaceholder _ _ _ f f' hf)
    · refine map_bind_congr (planWindowCall_congr h index _) ?_
      intro f f' hf
      refine congrArg Except.ok (Prod.ext ?_ (congrArg (fun f => [f]) hf))
      exact Prod.ext ((eraseName_unnamed id).trans (eraseName_unnamed id').symm) rfl
  · refine map_bind_congr (planScalar_congr h.singleton item) ?_
    rintro ⟨name, e⟩ ⟨name', e'⟩ hnamed
    obtain ⟨rfl, he⟩ := Prod.mk.inj hnamed
    exact congrArg Except.ok (Prod.ext (Prod.ext (eraseName_nameOrUnnamed name id id') he) rfl)

theorem planWindowItems_congr (h : SamePlan child child') (index : ℕ) (items : List BoundExpression) (id id' : ℕ) :
    (planWindowItems child index items id).map (fun out => (out.1.map eraseItem, out.2.1.map eraseFunction)) =
      (planWindowItems child' index items id').map fun out => (out.1.map eraseItem, out.2.1.map eraseFunction) := by
  induction items generalizing index id id' with
  | nil => rfl
  | cons item items ih =>
    refine map_bind_congr (planWindowItem_congr h index item id id') ?_
    rintro ⟨column, f, i⟩ ⟨column', f', i'⟩ hitem
    obtain ⟨hcolumn, hf⟩ := Prod.mk.inj hitem
    refine map_bind_congr (ih (index + 1) i i') ?_
    rintro ⟨columns, fs, j⟩ ⟨columns', fs', j'⟩ hrest
    obtain ⟨hcolumns, hfs⟩ := Prod.mk.inj hrest
    refine congrArg Except.ok (Prod.ext (congrArg₂ List.cons hcolumn hcolumns) ?_)
    simp only at hf hfs
    simp only [List.map_append, hf, hfs]

mutual

theorem exprToString_erase : ∀ e : Expr, exprToString valueToString (eraseExpr e) = exprToString valueToString e
  | .columnValue _ _ _ => rfl
  | .constantValue _ => rfl
  | .arithmetic _ left right => by
    simp only [eraseExpr, exprToString, exprToString_erase left, exprToString_erase right]
  | .comparison _ left right => by
    simp only [eraseExpr, exprToString, exprToString_erase left, exprToString_erase right]
  | .logic _ left right => by
    simp only [eraseExpr, exprToString, exprToString_erase left, exprToString_erase right]
  | .array children => by simp only [eraseExpr, exprToString, exprsToString_erase children]
  | .string _ arg => by simp only [eraseExpr, exprToString, exprToString_erase arg]

theorem exprsToString_erase : ∀ es : List Expr,
    exprsToString valueToString (eraseExprs es) = exprsToString valueToString es
  | [] => rfl
  | e :: es => by simp only [eraseExprs, exprsToString, exprToString_erase e, exprsToString_erase es]

end

theorem sameOrderBy_erase (first orderBy : List OrderBy) :
    sameOrderBy valueToString (first.map eraseOrderBy) (orderBy.map eraseOrderBy) =
      sameOrderBy valueToString first orderBy := by
  simp only [sameOrderBy, List.length_map, List.zip_map, List.all_map, Function.comp_def, Prod.map, eraseOrderBy,
    exprToString_erase]

theorem checkOrderByCompatible_erase (orderBys : List (List OrderBy)) :
    checkOrderByCompatible valueToString (orderBys.map (List.map eraseOrderBy)) =
      checkOrderByCompatible valueToString orderBys := by
  cases orderBys with
  | nil => rfl
  | cons first rest =>
    simp only [checkOrderByCompatible, List.map_cons, List.all_cons, List.all_map, Function.comp_def, sameOrderBy_erase]
    rfl

/-- **`PlanSelectWindow` does not look at generated names.** -/
theorem planSelectWindow_congr (h : SamePlan child child') (selectList : List BoundExpression) (id id' : ℕ) :
    (planSelectWindow valueToString selectList child id).map (fun out => erasePlan out.1) =
      (planSelectWindow valueToString selectList child' id').map fun out => erasePlan out.1 := by
  refine map_bind_congr (planWindowItems_congr h 0 selectList id id') ?_
  rintro ⟨columns, fs, i⟩ ⟨columns', fs', i'⟩ hitems
  obtain ⟨hcolumns, hfs⟩ := Prod.mk.inj hitems
  have horders : (fs.map WindowFunction.orderBy).map (List.map eraseOrderBy) =
      (fs'.map WindowFunction.orderBy).map (List.map eraseOrderBy) := by
    have himage := congrArg (List.map WindowFunction.orderBy) hfs
    rw [List.map_map, List.map_map] at himage
    rw [List.map_map, List.map_map]
    exact himage
  refine map_bind_congr (v := fun ok => ok) ?_ ?_
  · rw [← checkOrderByCompatible_erase, horders, checkOrderByCompatible_erase]
  · intro _ _ _
    refine map_bind_congr (projectionSchema_congr hcolumns) ?_
    intro schema schema' hschema
    refine congrArg Except.ok ?_
    simp only at hfs
    simp only [erasePlan_node, hschema, eraseOperator, eraseKind, map_snd_of_eraseItem hcolumns, hfs, h.singleton]

/-- **A select list is planned to the same plan, up to generated names.** -/
theorem planSelectList_congr (h : SamePlan child child') (exprs : SelectExprs) (groupBy : List BoundExpression)
    (id id' : ℕ) :
    (planSelectList valueToString exprs groupBy child id).map (fun out => (erasePlan out.1, out.2.1)) =
      (planSelectList valueToString exprs groupBy child' id').map fun out => (erasePlan out.1, out.2.1) := by
  refine map_bind_congr (v := fun kind => kind) rfl ?_
  rintro kind _ rfl
  split_ifs
  · rfl
  · rfl
  · refine map_bind_congr (planSelectWindow_congr h exprs.selectList id id') ?_
    intro out out' hout
    exact congrArg (fun plan => Except.ok (plan, exprs)) hout
  · refine map_bind_congr (planSelectAgg_congr h exprs groupBy) ?_
    intro out out' hout
    exact congrArg Except.ok hout
  · refine map_bind_congr (planSelectItems_congr h exprs.selectList id id') ?_
    intro columns columns' hcolumns
    refine map_bind_congr (projectionNode_congr hcolumns h) ?_
    intro plan plan' hplan
    exact congrArg (fun plan => Except.ok (plan, exprs)) hplan

end SelectLists

/-! ## Statements and table references -/

section Statements

variable {plan plan' left left' right right' : PlanNode}

/-- A node over the same schema as its child. -/
theorem SamePlan.above (h : SamePlan plan plan') {op op' : Operator PlanKind}
    (hop : eraseOperator op = eraseOperator op') :
    SamePlan (.node (outputSchema plan, op) [plan]) (.node (outputSchema plan', op') [plan']) := by
  unfold SamePlan
  rw [erasePlan_node, erasePlan_node, h.schema_eq, hop, h.singleton]

theorem planWhere_congr (h : SamePlan plan plan') (where_ : BoundExpression) :
    (planWhere where_ plan).map erasePlan = (planWhere where_ plan').map erasePlan := by
  unfold planWhere
  split_ifs
  · exact congrArg Except.ok h
  · refine map_bind_congr (planScalar_congr h.singleton where_) ?_
    intro named named' hnamed
    exact congrArg Except.ok (h.above (congrArg Operator.filter (Prod.mk.inj hnamed).2))

theorem columnsOf_congr (h : SamePlan plan plan') :
    (columnsOf plan).map eraseExpr = (columnsOf plan').map eraseExpr := by
  have heq (plan : PlanNode) : (columnsOf plan).map eraseExpr =
      ((outputSchema plan).columns.map eraseColumn).mapIdx fun i column => .columnValue 0 i column := by
    refine List.ext_getElem? ?_
    intro i
    simp only [columnsOf, List.getElem?_map, List.getElem?_mapIdx, Option.map_map]
    rfl
  rw [heq, heq, h.columns_eq]

theorem planDistinct_congr (h : SamePlan plan plan') (isDistinct : Bool) :
    SamePlan (planDistinct isDistinct plan) (planDistinct isDistinct plan') := by
  unfold planDistinct
  split_ifs
  · refine h.above ?_
    rw [eraseOperator, eraseOperator, eraseKind, eraseKind, columnsOf_congr h]
  · exact h

theorem planSort_congr (h : SamePlan plan plan') (sort : List BoundOrderBy) :
    (planSort sort plan).map erasePlan = (planSort sort plan').map erasePlan := by
  unfold planSort
  split_ifs
  · exact congrArg Except.ok h
  · refine map_bind_congr (planOrderBys_congr h.singleton sort) ?_
    intro orders orders' horders
    exact congrArg Except.ok (h.above (congrArg Operator.sort horders))

theorem planLimit_congr (h : SamePlan plan plan') (limitCount limitOffset : BoundExpression) :
    (planLimit limitCount limitOffset plan).map erasePlan = (planLimit limitCount limitOffset plan').map erasePlan := by
  refine map_bind_congr (v := fun limit => limit) rfl ?_
  rintro limit _ rfl
  refine map_bind_congr (v := fun offset => offset) rfl ?_
  rintro offset _ rfl
  cases offset with
  | some _ => rfl
  | none =>
    cases limit with
    | none => exact congrArg Except.ok h
    | some limit => exact congrArg Except.ok (h.above rfl)

theorem joinNode_congr (hleft : SamePlan left left') (hright : SamePlan right right') {e e' : Expr}
    (he : eraseExpr e = eraseExpr e') (joinType : JoinType) :
    SamePlan (joinNode left right e joinType) (joinNode left' right' e' joinType) := by
  unfold SamePlan joinNode inferJoinSchema
  simp only [erasePlan_node, eraseSchema_create, List.map_append, hleft.columns_eq, hright.columns_eq, eraseOperator, he,
    List.map_cons, List.map_nil]
  rw [show erasePlan left = erasePlan left' from hleft, show erasePlan right = erasePlan right' from hright]

theorem subqueryItems_congr (aliasName : String) (names : List (List String)) {columns columns' : List Column}
    (h : columns.map eraseColumn = columns'.map eraseColumn) (k : ℕ) :
    ((columns.zipIdx k).mapM fun (column, idx) => subqueryItem aliasName names idx column).map (List.map eraseItem) =
      ((columns'.zipIdx k).mapM fun (column, idx) => subqueryItem aliasName names idx column).map
        (List.map eraseItem) := by
  induction columns generalizing columns' k with
  | nil =>
    cases columns' with
    | nil => rfl
    | cons => cases h
  | cons column columns ih =>
    cases columns' with
    | nil => cases h
    | cons column' columns' =>
      obtain ⟨hcolumn, hcolumns⟩ := List.cons.inj h
      rw [List.zipIdx_cons, List.zipIdx_cons, List.mapM_cons, List.mapM_cons]
      refine map_bind_congr (v := eraseItem) ?_ ?_
      · simp only [subqueryItem]
        split
        · rfl
        · simp only [Except.map, eraseItem, eraseExpr, hcolumn]
      · intro item item' hitem
        refine map_bind_congr (ih hcolumns (k + 1)) ?_
        intro items items' hitems
        exact congrArg Except.ok (congrArg₂ List.cons hitem hitems)

theorem subqueryNode_congr (h : SamePlan plan plan') (aliasName : String) (names : List (List String)) :
    (subqueryNode aliasName names plan).map erasePlan = (subqueryNode aliasName names plan').map erasePlan :=
  map_bind_congr (subqueryItems_congr aliasName names h.columns_eq 0) fun _ _ hitems => projectionNode_congr hitems h

/-- What the counter has no influence on. -/
noncomputable def planView (out : PlanNode × PlannerState) : PlanNode × Heap := (erasePlan out.1, out.2.heap)

variable {catalog : Catalog} {valueToString : Value → String}

theorem planSelect_congr_step {depth : ℕ}
    (ih : ∀ ctes ref st st', st.heap = st'.heap →
      (planTableRef catalog valueToString depth ctes ref st).map planView =
        (planTableRef catalog valueToString depth ctes ref st').map planView)
    (ctes : CTEScope) (statement : SelectStatement) (st st' : PlannerState) (hst : st.heap = st'.heap) :
    (planSelect catalog valueToString (depth + 1) ctes statement st).map planView =
      (planSelect catalog valueToString (depth + 1) ctes statement st').map planView := by
  refine map_bind_congr (v := planView) ?_ ?_
  · split
    · exact congrArg (fun heap => Except.ok (erasePlan emptyNode, heap)) hst
    · exact ih _ _ _ _ hst
  rintro ⟨plan, st₁⟩ ⟨plan', st₁'⟩ hplan
  obtain ⟨hplan, hheap⟩ := Prod.mk.inj hplan
  simp only at hheap
  refine map_bind_congr (planWhere_congr hplan statement.where_) ?_
  intro plan₂ plan₂' hplan₂
  simp only [hheap]
  refine map_bind_congr (planSelectList_congr hplan₂ (st₁'.heap statement.exprs) statement.groupBy _ _) ?_
  rintro ⟨plan₃, exprs, i⟩ ⟨plan₃', exprs', i'⟩ hplan₃
  obtain ⟨hplan₃, hexprs⟩ := Prod.mk.inj hplan₃
  simp only at hexprs
  subst hexprs
  refine map_bind_congr (planSort_congr (planDistinct_congr hplan₃ statement.isDistinct) statement.sort) ?_
  intro plan₄ plan₄' hplan₄
  refine map_bind_congr (planLimit_congr hplan₄ statement.limitCount statement.limitOffset) ?_
  intro plan₅ plan₅' hplan₅
  exact congrArg (fun plan => Except.ok (plan, Function.update st₁'.heap statement.exprs exprs)) hplan₅

theorem planTableRef_congr_step {depth : ℕ}
    (ih : ∀ ctes ref st st', st.heap = st'.heap →
      (planTableRef catalog valueToString depth ctes ref st).map planView =
        (planTableRef catalog valueToString depth ctes ref st').map planView)
    (ihs : ∀ ctes statement st st', st.heap = st'.heap →
      (planSelect catalog valueToString depth ctes statement st).map planView =
        (planSelect catalog valueToString depth ctes statement st').map planView)
    (ctes : CTEScope) (ref : BoundTableRef) (st st' : PlannerState) (hst : st.heap = st'.heap) :
    (planTableRef catalog valueToString (depth + 1) ctes ref st).map planView =
      (planTableRef catalog valueToString (depth + 1) ctes ref st').map planView := by
  cases ref with
  | empty => rfl
  | baseTable table oid aliasName schema =>
    refine map_bind_congr (v := fun plan => plan) rfl ?_
    rintro plan _ rfl
    exact congrArg (fun heap => Except.ok (erasePlan plan, heap)) hst
  | expressionList values identifier =>
    refine map_bind_congr (v := fun plan => plan) rfl ?_
    rintro plan _ rfl
    exact congrArg (fun heap => Except.ok (erasePlan plan, heap)) hst
  | crossProduct left right =>
    refine map_bind_congr (ih ctes left st st' hst) ?_
    rintro ⟨l, st₁⟩ ⟨l', st₁'⟩ hl
    obtain ⟨hl, hst₁⟩ := Prod.mk.inj hl
    refine map_bind_congr (ih ctes right st₁ st₁' hst₁) ?_
    rintro ⟨r, st₂⟩ ⟨r', st₂'⟩ hr
    obtain ⟨hr, hst₂⟩ := Prod.mk.inj hr
    exact congrArg Except.ok (Prod.ext (joinNode_congr hl hr rfl .inner) hst₂)
  | join joinType left right condition =>
    refine map_bind_congr (ih ctes left st st' hst) ?_
    rintro ⟨l, st₁⟩ ⟨l', st₁'⟩ hl
    obtain ⟨hl, hst₁⟩ := Prod.mk.inj hl
    refine map_bind_congr (ih ctes right st₁ st₁' hst₁) ?_
    rintro ⟨r, st₂⟩ ⟨r', st₂'⟩ hr
    obtain ⟨hr, hst₂⟩ := Prod.mk.inj hr
    have hboth : [l, r].map erasePlan = [l', r'].map erasePlan := congrArg₂ (fun l r => [l, r]) hl hr
    refine map_bind_congr (planScalar_congr hboth condition) ?_
    intro named named' hnamed
    exact congrArg Except.ok (Prod.ext (joinNode_congr hl hr (Prod.mk.inj hnamed).2 joinType) hst₂)
  | subquery ref =>
    refine map_bind_congr (ihs ctes ref.subquery st st' hst) ?_
    rintro ⟨plan, st₁⟩ ⟨plan', st₁'⟩ hplan
    obtain ⟨hplan, hst₁⟩ := Prod.mk.inj hplan
    refine map_bind_congr (subqueryNode_congr hplan ref.alias_ ref.selectListName) ?_
    intro out out' hout
    exact congrArg Except.ok (Prod.ext hout hst₁)
  | cte cteName aliasName =>
    refine map_bind_congr (v := fun cte => cte) rfl ?_
    rintro cte _ rfl
    refine map_bind_congr (ihs ctes cte.subquery st st' hst) ?_
    rintro ⟨plan, st₁⟩ ⟨plan', st₁'⟩ hplan
    obtain ⟨hplan, hst₁⟩ := Prod.mk.inj hplan
    refine map_bind_congr (subqueryNode_congr hplan aliasName cte.selectListName) ?_
    intro out out' hout
    exact congrArg Except.ok (Prod.ext hout hst₁)

/-- **The counter does not matter, but for generated names.** -/
theorem plan_congr (depth : ℕ) :
    (∀ ctes statement st st', st.heap = st'.heap →
      (planSelect catalog valueToString depth ctes statement st).map planView =
        (planSelect catalog valueToString depth ctes statement st').map planView) ∧
    ∀ ctes ref st st', st.heap = st'.heap →
      (planTableRef catalog valueToString depth ctes ref st).map planView =
        (planTableRef catalog valueToString depth ctes ref st').map planView := by
  induction depth with
  | zero => exact ⟨fun _ _ _ _ _ => rfl, fun _ _ _ _ _ => rfl⟩
  | succ depth ih => exact ⟨planSelect_congr_step ih.2, planTableRef_congr_step ih.2 ih.1⟩

end Statements

/-! ## Planning again -/

section Again

variable {catalog : Catalog} {valueToString : Value → String}

/-- No aggregate call is in the `HAVING` clause or the select list of a statement that is planned for this
one. -/
def AggFree (heap : Heap) (ctes : CTEScope) (statement : SelectStatement) : Prop :=
  ∀ t, VisitsSelect ctes statement t → callsOf (heap t.exprs) = []

/-- The expressions are left as they are where there is no call in them. -/
theorem Run.heap_eq {heap heap' : Heap} {S : SelectStatement → Prop} (h : Run heap heap' S)
    (hfree : ∀ t, S t → callsOf (heap t.exprs) = []) : heap' = heap := by
  funext a
  rcases h.evolves a with heq | ⟨hne, -, -⟩
  · exact heq
  · refine h.frame a ?_
    rintro t ht rfl
    exact hne (hfree t ht)

/-- **A statement that was planned is planned to the same again, iff no aggregate call is in it or in the
statements that were planned for it.**  The second planning may begin with any value of the counter. -/
theorem replan_iff {depth : ℕ} {ctes : CTEScope} {statement : SelectStatement} {st st' : PlannerState}
    {plan : PlanNode} (h : planSelect catalog valueToString depth ctes statement st = .ok (plan, st')) (id : ℕ) :
    (∃ plan' st'', planSelect catalog valueToString depth ctes statement ⟨st'.heap, id⟩ = .ok (plan', st'') ∧
      SamePlan plan plan') ↔ AggFree st.heap ctes statement := by
  have hrun := (plan_run depth).1 h
  constructor
  · rintro ⟨plan', st'', h', -⟩ t ht
    -- the calls that the first planning leaves are not in the factory, and the second finds them there
    have hnil : callsOf (st'.heap t.exprs) = [] := by
      refine List.eq_nil_iff_forall_not_mem.mpr ?_
      intro call hcall
      exact ((plan_run depth).1 h').accepted t ht call hcall (hrun.refused t ht call hcall)
    rcases hrun.evolves t.exprs with heq | ⟨-, hne, -⟩
    · rwa [← heq]
    · exact absurd hnil hne
  · intro hfree
    rw [hrun.heap_eq hfree]
    have hsame := (@plan_congr catalog valueToString depth).1 ctes statement st
      ⟨st.heap, id⟩ rfl
    rw [h] at hsame
    cases h' : planSelect catalog valueToString depth ctes statement ⟨st.heap, id⟩ with
    | error e =>
      rw [h'] at hsame
      cases hsame
    | ok out =>
      rw [h'] at hsame
      exact ⟨out.1, out.2, rfl, (Prod.mk.inj (Except.ok.inj hsame)).1⟩

/-- A statement without clauses but its select list. -/
def selectStatement (exprs : ℕ) (table : BoundTableRef) (ctes : List BoundSubqueryRef) : SelectStatement where
  exprs := exprs
  table := table
  where_ := .invalid
  groupBy := []
  limitCount := .invalid
  limitOffset := .invalid
  sort := []
  ctes := ctes
  isDistinct := false

/-- A table of two integers. -/
def pairInfo : TableInfo :=
  ⟨.create [.fixed "x" .integer 4 integer_fixed integer_size, .fixed "y" .integer 4 integer_fixed integer_size], "t", none, 0⟩

def pairScan : BoundTableRef := .baseTable "t" 0 none pairInfo.schema

/-- The select lists of `pairStatement`: of the CTE, of the subquery and of the statement itself. -/
def pairHeap : Heap
  | 0 => ⟨.invalid, [.columnRef ["t", "x"] (by decide)]⟩
  | 1 => ⟨.invalid,
    [.alias_ "s" (.binaryOp "+" (.columnRef ["t", "x"] (by decide)) (.columnRef ["t", "y"] (by decide)))]⟩
  | _ => ⟨.invalid, [.columnRef ["a", "t", "x"] (by decide), .columnRef ["b", "t", "x"] (by decide),
    .binaryOp "+" (.columnRef ["q", "s"] (by decide)) (.constant (.integer 1))]⟩

/-- `WITH c AS (SELECT x FROM t)`
`SELECT a.x, b.x, q.s + 1 FROM c AS a, c AS b, (SELECT x + y AS s FROM t) AS q`. -/
def pairStatement : SelectStatement :=
  selectStatement 2
    (.crossProduct (.crossProduct (.cte "c" "a") (.cte "c" "b"))
      (.subquery ⟨selectStatement 1 pairScan [], [["s"]], "q"⟩))
    [⟨selectStatement 0 pairScan [], [["t", "x"]], "c"⟩]

theorem pair_aggFree : AggFree pairHeap none pairStatement := fun t _ =>
  match t.exprs with
  | 0 => rfl
  | 1 => rfl
  | _ + 2 => rfl

/-- The statement and a CTE that it uses twice, planned again with the counter where the first planning left it. -/
theorem replan_iff_pair : ∃ plan st',
    planSelect (Catalog.new.addTable pairInfo) (fun _ => "") 6 none pairStatement ⟨pairHeap, 0⟩ = .ok (plan, st') ∧
    st'.universalId = 1 ∧
    ∃ plan' st'', planSelect (Catalog.new.addTable pairInfo) (fun _ => "") 6 none pairStatement
      ⟨st'.heap, st'.universalId⟩ = .ok (plan', st'') ∧ SamePlan plan plan' := by
  have hid : (planSelect (Catalog.new.addTable pairInfo) (fun _ => "") 6 none pairStatement ⟨pairHeap, 0⟩).map
      (fun out => out.2.universalId) = .ok 1 := by
    decide +kernel
  cases h : planSelect (Catalog.new.addTable pairInfo) (fun _ => "") 6 none pairStatement ⟨pairHeap, 0⟩ with
  | error e =>
    rw [h] at hid
    cases hid
  | ok out =>
    rw [h] at hid
    exact ⟨out.1, out.2, rfl, Except.ok.inj hid, (replan_iff h out.2.universalId).mpr pair_aggFree⟩

/-- `SELECT count(*) AS n` behind address `0`, and the columns of two references to it behind address `1`. -/
def countHeap : Heap
  | 0 => ⟨.invalid, [.alias_ "n" (.aggCall "count_star" false [])]⟩
  | _ => ⟨.invalid, [.columnRef ["a", "n"] (by decide), .columnRef ["b", "n"] (by decide)]⟩

/-- `SELECT count(*) AS n` cannot be planned twice. -/
theorem count_planned_once : ¬ ∀ (catalog : Catalog) (valueToString : Value → String) (depth : ℕ) (ctes : CTEScope)
    (statement : SelectStatement) (st st' : PlannerState) (plan : PlanNode),
    planSelect catalog valueToString depth ctes statement st = .ok (plan, st') →
    ∃ plan' st'', planSelect catalog valueToString depth ctes statement st' = .ok (plan', st'') ∧
      SamePlan plan plan' := by
  intro hclaim
  have htwice : (planSelect .new (fun _ => "") 1 none (selectStatement 0 .empty []) ⟨countHeap, 0⟩ >>= fun out =>
      planSelect .new (fun _ => "") 1 none (selectStatement 0 .empty []) out.2).isOk = false := by
    decide +kernel
  have honce : (planSelect .new (fun _ => "") 1 none (selectStatement 0 .empty []) ⟨countHeap, 0⟩).isOk = true := by
    decide +kernel
  cases h : planSelect .new (fun _ => "") 1 none (selectStatement 0 .empty []) ⟨countHeap, 0⟩ with
  | error e =>
    rw [h] at honce
    cases honce
  | ok out =>
    obtain ⟨plan', st'', h', -⟩ := hclaim _ _ _ _ _ _ _ _ h
    rw [h, ok_bind, h'] at htwice
    cases htwice

-- `WITH c AS (SELECT count(*) AS n) SELECT a.n, b.n FROM c AS a, c AS b`
example : (match planSelect .new (fun _ => "") 4 none (selectStatement 1
      (.crossProduct (.cte "c" "a") (.cte "c" "b")) [⟨selectStatement 0 .empty [], [["n"]], "c"⟩]) ⟨countHeap, 0⟩ with
    | .ok _ => none
    | .error e => some e) = some (.exception .invalid "unsupported agg_call __pseudo_agg#0 with 0 args") := by
  decide +kernel

end Again

end Journey.Planner
