import Journey.Bustub.Planner.Expressions

/-!
# Journey.Bustub.Planner.Aggregation — `PlanSelectAgg`

An aggregation is planned in two phases.  The first takes the aggregate calls out of the `HAVING` clause
and of the select list and plans them over the child; the second plans what is left over the aggregation
node, and puts a reference to an output column of that node where a call was.

* `planSelectAgg`: the two phases.
* `Planned`: an expression and what it is planned as, with the aggregate calls in it from left to right,
  each beside the expression in its place.
* `planExpression_planned`, `collected_planned`: the two traversals meet the same calls.
* `selectAgg_calls`: call `k` becomes a reference to column `agg_begin + k`, which computes that call.
-/

namespace Journey.Planner

open SqlType Catalog Execution Optimizer Binder

/-! ## The functions -/

section Model

/-- `GetAggCallFromFactory`. -/
def getAggCallFromFactory (funcName : String) (args : List Expr) : Except Fault (AggregationType × List Expr) :=
  match args with
  | [] =>
    if funcName = "count_star" then .ok (.countStarAggregate, []) else .error (unsupported 0)
  | [expr] =>
    if funcName = "min" then .ok (.minAggregate, [expr])
    else if funcName = "max" then .ok (.maxAggregate, [expr])
    else if funcName = "sum" then .ok (.sumAggregate, [expr])
    else if funcName = "count" then .ok (.countAggregate, [expr])
    else .error (unsupported 1)
  | _ => .error (unsupported args.length)
where
  unsupported (n : ℕ) : Fault :=
    .exception .invalid ("unsupported agg_call " ++ funcName ++ " with " ++ toString n ++ " args")

/-- `PlanAggCall`.  The arguments are planned in a context without aggregations. -/
def planAggCall (funcName : String) (isDistinct : Bool) (args : List BoundExpression) (children : List PlanNode) :
    Except Fault (AggregationType × List Expr) := do
  if isDistinct then throw (.exception .notImplemented "distinct agg is not implemented yet")
  let (exprs, _) ← planExpressions children args newContext
  getAggCallFromFactory funcName (exprs.map Prod.snd)

/-- The loop's body for one of the aggregations of the context: its type and its input. -/
def planAggregation (child : PlanNode) : BoundExpression → Except Fault (AggregationType × Expr)
  | .aggCall funcName isDistinct args => do
    let (aggType, exprs) ← planAggCall funcName isDistinct args [child]
    match exprs with
    | [] => return (aggType, .constantValue (.integer 1))
    | [expr] => return (aggType, expr)
    | _ => throw (.exception .notImplemented "only agg call of zero/one arg is supported")
  | _ => .error (.exception .notImplemented "alias for agg call is not supported for now")

/-- `Column("<agg_result>", TypeId::INTEGER)`. -/
def aggResult : Column := .fixed "<agg_result>" .integer 4 integer_fixed integer_size

/-- The reference to output column `agg_begin + k` of the aggregation node. -/
def aggColumn (aggBegin k : ℕ) : Expr := .columnValue 0 (aggBegin + k) aggResult

/-- `InferAggSchema`. -/
def inferAggSchema (groupBys aggregates : List Expr) : Except Fault Schema := do
  let columns ← groupBys.mapM getReturnType
  return .create ((columns.map fun column => withColumnName column "<unnamed>") ++
    aggregates.map fun _ => .fixed "<unnamed>" .integer 4 integer_fixed integer_size)

/-- The aggregation node of the first phase; `items` are the planned group-by expressions, `terms` the
planned aggregate calls. -/
def aggregationNode (items : List (String × Expr)) (terms : List (AggregationType × Expr)) (child : PlanNode) :
    Except Fault PlanNode := do
  let schema ← inferAggSchema (items.map Prod.snd) (terms.map Prod.snd)
  let schema ← renameSchema schema
    (items.map Prod.fst ++ (List.range terms.length).map fun k => "agg#" ++ toString k)
  return .node (schema,
    .other (.aggregation (items.map Prod.snd) (terms.map Prod.snd) (terms.map Prod.fst))) [child]

/-- The filter for the `HAVING` clause, if there is one. -/
def planHaving (having : BoundExpression) (plan : PlanNode) (ctx : PlannerContext) :
    Except Fault (PlanNode × PlannerContext) :=
  if having.isInvalid then .ok (plan, ctx)
  else do
    let ((_, expr), ctx) ← planExpression [plan] having ctx
    return (.node (outputSchema plan, .filter expr) [plan], ctx)

/-- The projection of planned expressions under their names. -/
def projectionNode (items : List (String × Expr)) (child : PlanNode) : Except Fault PlanNode := do
  let schema ← projectionSchema items
  return .node (schema, .projection (items.map Prod.snd)) [child]

/-- `AddAggCallToContext` on the `HAVING` clause, if there is one. -/
def collectHaving (having : BoundExpression) (ctx : PlannerContext) :
    Except Fault (BoundExpression × PlannerContext) :=
  if having.isInvalid then .ok (having, ctx) else addAggCallToContext having ctx

/-- `PlanSelectAgg`: the plan, and what is left of the `HAVING` clause and of the select list. -/
def planSelectAgg (exprs : SelectExprs) (groupBy : List BoundExpression) (child : PlanNode) :
    Except Fault (PlanNode × SelectExprs) := do
  let ctx := { newContext with allowAggregation := true }
  let (groupBys, ctx) ← planExpressions [child] groupBy ctx
  let (having, ctx) ← collectHaving exprs.having ctx
  let (selectList, ctx) ← addAggCallsToContext exprs.selectList ctx
  -- phase 1
  let terms ← ctx.aggregations.mapM (planAggregation child)
  let ctx := { ctx with exprInAgg := ctx.exprInAgg ++ (List.range terms.length).map (aggColumn groupBys.length) }
  let plan ← aggregationNode groupBys terms child
  -- phase 2
  let (plan, ctx) ← planHaving having plan ctx
  let (items, _) ← planExpressions [plan] selectList ctx
  let plan ← projectionNode items plan
  return (plan, ⟨having, selectList⟩)

end Model

/-! ## What an expression is planned as -/

section Traces

/-- An aggregate call. -/
structure AggCall where
  funcName : String
  isDistinct : Bool
  args : List BoundExpression

/-- The call as an expression. -/
def AggCall.toExpr (call : AggCall) : BoundExpression := .aggCall call.funcName call.isDistinct call.args

/-- The aggregate calls of an expression in the order they are met, each with the expression it becomes. -/
abbrev Trace := List (AggCall × Expr)

mutual

/-- The expression `e` is what `expr` is planned as over the children, given what becomes of the aggregate
calls in it. -/
inductive Planned (children : List PlanNode) : BoundExpression → Expr → Trace → Prop
  | aggCall (call : AggCall) (e : Expr) : Planned children call.toExpr e [(call, e)]
  | columnRef {colName : List String} {qualified : 2 ≤ colName.length} {name : String} {e : Expr}
      (h : planColumnRef colName children = .ok (name, e)) : Planned children (.columnRef colName qualified) e []
  | constant {val : Value} {e : Expr} (h : planConstant val = .ok e) : Planned children (.constant val) e []
  | binaryOp {opName : String} {larg rarg : BoundExpression} {left right e : Expr} {tl tr : Trace}
      (hl : Planned children larg left tl) (hr : Planned children rarg right tr)
      (h : getBinaryExpressionFromFactory opName left right = .ok e) :
      Planned children (.binaryOp opName larg rarg) e (tl ++ tr)
  | funcCall {funcName : String} {args : List BoundExpression} {es : List Expr} {e : Expr} {t : Trace}
      (hargs : PlannedAll children args es t) (h : funcCallExpression funcName es = .ok e) :
      Planned children (.funcCall funcName args) e t
  | alias_ {name : String} {child : BoundExpression} {e : Expr} {t : Trace} (h : Planned children child e t) :
      Planned children (.alias_ name child) e t

/-- The same for a list of expressions. -/
inductive PlannedAll (children : List PlanNode) : List BoundExpression → List Expr → Trace → Prop
  | nil : PlannedAll children [] [] []
  | cons {expr : BoundExpression} {exprs : List BoundExpression} {e : Expr} {es : List Expr} {t ts : Trace}
      (h : Planned children expr e t) (hs : PlannedAll children exprs es ts) :
      PlannedAll children (expr :: exprs) (e :: es) (t ++ ts)

end

/-- What the second traversal consumes: it goes on where the expressions of the trace end. -/
structure Consumed (ctx ctx' : PlannerContext) (t : Trace) : Prop where
  allow_eq : ctx'.allowAggregation = ctx.allowAggregation
  same : ctx'.exprInAgg = ctx.exprInAgg
  aggregations_eq : ctx'.aggregations = ctx.aggregations
  next_eq : ctx'.nextAggregation = ctx.nextAggregation + t.length
  drop_eq : ctx.exprInAgg.drop ctx.nextAggregation = t.map Prod.snd ++ ctx.exprInAgg.drop ctx'.nextAggregation

/-- What the first traversal collects. -/
structure Collected (ctx ctx' : PlannerContext) (t : Trace) : Prop where
  aggregations_eq : ctx'.aggregations = ctx.aggregations ++ t.map fun c => c.1.toExpr
  exprInAgg_eq : ctx'.exprInAgg = ctx.exprInAgg
  next_eq : ctx'.nextAggregation = ctx.nextAggregation

variable {children : List PlanNode} {ctx ctx' ctx'' : PlannerContext} {t t' : Trace}

theorem Consumed.refl (ctx : PlannerContext) : Consumed ctx ctx [] := ⟨rfl, rfl, rfl, rfl, rfl⟩

theorem Consumed.trans (h : Consumed ctx ctx' t) (h' : Consumed ctx' ctx'' t') : Consumed ctx ctx'' (t ++ t') := by
  refine ⟨h'.allow_eq.trans h.allow_eq, h'.same.trans h.same, h'.aggregations_eq.trans h.aggregations_eq, ?_, ?_⟩
  · rw [h'.next_eq, h.next_eq, List.length_append, Nat.add_assoc]
  · rw [h.drop_eq, ← h.same, h'.drop_eq, List.map_append, List.append_assoc]

theorem Collected.refl (ctx : PlannerContext) : Collected ctx ctx [] := ⟨(List.append_nil _).symm, rfl, rfl⟩

theorem Collected.trans (h : Collected ctx ctx' t) (h' : Collected ctx' ctx'' t') :
    Collected ctx ctx'' (t ++ t') := by
  refine ⟨?_, h'.exprInAgg_eq.trans h.exprInAgg_eq, h'.next_eq.trans h.next_eq⟩
  rw [h'.aggregations_eq, h.aggregations_eq, List.map_append, List.append_assoc]

end Traces

/-! ## The traversals -/

section Traversals

variable {children : List PlanNode}

mutual

/-- The second traversal takes the expressions of the context one after the other. -/
theorem planExpression_planned : ∀ (expr : BoundExpression) {ctx ctx' : PlannerContext} {name : String} {e : Expr},
    planExpression children expr ctx = .ok ((name, e), ctx') →
    ∃ t, Planned children expr e t ∧ Consumed ctx ctx' t
  | .aggCall funcName isDistinct args, ctx, ctx', name, e, h => by
    rw [planExpression] at h
    split at h
    · cases h
    · rename_i hget
      cases h
      obtain ⟨hlt, rfl⟩ := List.getElem?_eq_some_iff.mp hget
      exact ⟨_, .aggCall ⟨funcName, isDistinct, args⟩ _, rfl, rfl, rfl, rfl, List.drop_eq_getElem_cons hlt⟩
  | .columnRef colName qualified, ctx, ctx', name, e, h => by
    obtain ⟨named, href, h⟩ := bind_eq_ok.mp h
    cases h
    exact ⟨[], .columnRef href, .refl _⟩
  | .binaryOp opName larg rarg, ctx, ctx', name, e, h => by
    obtain ⟨⟨⟨_, left⟩, ctx₁⟩, hleft, h⟩ := bind_eq_ok.mp h
    obtain ⟨⟨⟨_, right⟩, ctx₂⟩, hright, h⟩ := bind_eq_ok.mp h
    obtain ⟨expr, hexpr, h⟩ := bind_eq_ok.mp h
    cases h
    obtain ⟨tl, hl, hcl⟩ := planExpression_planned larg hleft
    obtain ⟨tr, hr, hcr⟩ := planExpression_planned rarg hright
    exact ⟨tl ++ tr, .binaryOp hl hr hexpr, hcl.trans hcr⟩
  | .funcCall funcName args, ctx, ctx', name, e, h => by
    obtain ⟨⟨items, ctx₁⟩, hargs, h⟩ := bind_eq_ok.mp h
    obtain ⟨expr, hexpr, h⟩ := bind_eq_ok.mp h
    cases h
    obtain ⟨t, ht, hc⟩ := planExpressions_planned args hargs
    exact ⟨t, .funcCall ht hexpr, hc⟩
  | .constant val, ctx, ctx', name, e, h => by
    obtain ⟨expr, hexpr, h⟩ := bind_eq_ok.mp h
    cases h
    exact ⟨[], .constant hexpr, .refl _⟩
  | .alias_ aliasName child, ctx, ctx', name, e, h => by
    obtain ⟨⟨⟨_, expr⟩, ctx₁⟩, hchild, h⟩ := bind_eq_ok.mp h
    cases h
    obtain ⟨t, ht, hc⟩ := planExpression_planned child hchild
    exact ⟨t, .alias_ ht, hc⟩
  | .window _ _ _ _ _ _ _ _, _, _, _, _, h => nomatch h
  | .invalid, _, _, _, _, h => nomatch h
  | .star, _, _, _, _, h => nomatch h
  | .unaryOp _ _, _, _, _, _, h => nomatch h

theorem planExpressions_planned : ∀ (exprs : List BoundExpression) {ctx ctx' : PlannerContext}
    {items : List (String × Expr)}, planExpressions children exprs ctx = .ok (items, ctx') →
    ∃ t, PlannedAll children exprs (items.map Prod.snd) t ∧ Consumed ctx ctx' t
  | [], ctx, ctx', items, h => by
    cases h
    exact ⟨[], .nil, .refl _⟩
  | expr :: exprs, ctx, ctx', items, h => by
    obtain ⟨⟨⟨name, e⟩, ctx₁⟩, hexpr, h⟩ := bind_eq_ok.mp h
    obtain ⟨⟨rest, ctx₂⟩, hrest, h⟩ := bind_eq_ok.mp h
    cases h
    obtain ⟨t, ht, hc⟩ := planExpression_planned expr hexpr
    obtain ⟨ts, hts, hcs⟩ := planExpressions_planned exprs hrest
    exact ⟨t ++ ts, .cons ht hts, hc.trans hcs⟩

end

mutual

/-- What the first traversal leaves is planned as what was there before is, with the calls it has
collected. -/
theorem collected_planned : ∀ (expr : BoundExpression) {expr' : BoundExpression} {ctx ctx' : PlannerContext}
    {e : Expr} {t' : Trace}, addAggCallToContext expr ctx = .ok (expr', ctx') → Planned children expr' e t' →
    ∃ t : Trace, Planned children expr e t ∧ Collected ctx ctx' t ∧ t.map Prod.snd = t'.map Prod.snd
  | .aggCall funcName isDistinct args, expr', ctx, ctx', e, t', h, hplan => by
    obtain ⟨ctx₁, hadd, h⟩ := bind_eq_ok.mp h
    cases h
    unfold PlannerContext.addAggregation at hadd
    split_ifs at hadd
    cases hadd
    generalize hcall : BoundExpression.aggCall _ _ _ = call at hplan
    cases hplan with
    | aggCall call e => exact ⟨[(⟨funcName, isDistinct, args⟩, e)], .aggCall ⟨_, _, _⟩ e, ⟨rfl, rfl, rfl⟩, rfl⟩
    | columnRef | constant | binaryOp | funcCall | alias_ => cases hcall
  | .columnRef colName qualified, expr', ctx, ctx', e, t', h, hplan => by
    cases h
    cases hplan with
    | columnRef href => exact ⟨[], .columnRef href, .refl _, rfl⟩
  | .binaryOp opName larg rarg, expr', ctx, ctx', e, t', h, hplan => by
    obtain ⟨⟨larg', ctx₁⟩, hl, h⟩ := bind_eq_ok.mp h
    obtain ⟨⟨rarg', ctx₂⟩, hr, h⟩ := bind_eq_ok.mp h
    cases h
    cases hplan with
    | binaryOp hpl hpr hexpr =>
      obtain ⟨tl, hpl, hcl, htl⟩ := collected_planned larg hl hpl
      obtain ⟨tr, hpr, hcr, htr⟩ := collected_planned rarg hr hpr
      refine ⟨tl ++ tr, .binaryOp hpl hpr hexpr, hcl.trans hcr, ?_⟩
      rw [List.map_append, List.map_append, htl, htr]
  | .funcCall funcName args, expr', ctx, ctx', e, t', h, hplan => by
    obtain ⟨⟨args', ctx₁⟩, hargs, h⟩ := bind_eq_ok.mp h
    cases h
    cases hplan with
    | funcCall hpargs hexpr =>
      obtain ⟨t, hpargs, hc, ht⟩ := collected_plannedAll args hargs hpargs
      exact ⟨t, .funcCall hpargs hexpr, hc, ht⟩
  | .constant val, expr', ctx, ctx', e, t', h, hplan => by
    cases h
    cases hplan with
    | constant hval => exact ⟨[], .constant hval, .refl _, rfl⟩
  | .alias_ aliasName child, expr', ctx, ctx', e, t', h, hplan => by
    obtain ⟨⟨child', ctx₁⟩, hchild, h⟩ := bind_eq_ok.mp h
    cases h
    cases hplan with
    | alias_ hpchild =>
      obtain ⟨t, hpchild, hc, ht⟩ := collected_planned child hchild hpchild
      exact ⟨t, .alias_ hpchild, hc, ht⟩
  | .window _ _ _ _ _ _ _ _, _, _, _, _, _, h, _ => nomatch h
  | .invalid, _, _, _, _, _, h, _ => nomatch h
  | .star, _, _, _, _, _, h, _ => nomatch h
  | .unaryOp _ _, _, _, _, _, _, h, _ => nomatch h

theorem collected_plannedAll : ∀ (exprs : List BoundExpression) {exprs' : List BoundExpression}
    {ctx ctx' : PlannerContext} {es : List Expr} {t' : Trace}, addAggCallsToContext exprs ctx = .ok (exprs', ctx') →
    PlannedAll children exprs' es t' →
    ∃ t : Trace, PlannedAll children exprs es t ∧ Collected ctx ctx' t ∧ t.map Prod.snd = t'.map Prod.snd
  | [], exprs', ctx, ctx', es, t', h, hplan => by
    cases h
    cases hplan
    exact ⟨[], .nil, .refl _, rfl⟩
  | expr :: exprs, exprs', ctx, ctx', es, t', h, hplan => by
    obtain ⟨⟨expr', ctx₁⟩, hexpr, h⟩ := bind_eq_ok.mp h
    obtain ⟨⟨rest', ctx₂⟩, hrest, h⟩ := bind_eq_ok.mp h
    cases h
    cases hplan with
    | cons hp hps =>
      obtain ⟨t, hp, hc, ht⟩ := collected_planned expr hexpr hp
      obtain ⟨ts, hps, hcs, hts⟩ := collected_plannedAll exprs hrest hps
      refine ⟨t ++ ts, .cons hp hps, hc.trans hcs, ?_⟩
      rw [List.map_append, List.map_append, ht, hts]

end

end Traversals

/-! ## The plan of an aggregation -/

section Aggregations

/-- The nodes that a statement with aggregations is planned as. -/
structure SelectAgg where
  groupBys : List Expr
  aggregates : List Expr
  aggTypes : List AggregationType
  aggSchema : Schema
  having : Option Expr
  exprs : List Expr
  schema : Schema

namespace SelectAgg

/-- The aggregation node. -/
def aggregation (p : SelectAgg) (child : PlanNode) : PlanNode :=
  .node (p.aggSchema, .other (.aggregation p.groupBys p.aggregates p.aggTypes)) [child]

/-- The filter over it, if there is one. -/
def filtered (p : SelectAgg) (child : PlanNode) : PlanNode :=
  match p.having with
  | none => p.aggregation child
  | some e => .node (p.aggSchema, .filter e) [p.aggregation child]

/-- The projection on top. -/
def node (p : SelectAgg) (child : PlanNode) : PlanNode := .node (p.schema, .projection p.exprs) [p.filtered child]

end SelectAgg

/-- The type and the input of the aggregate that computes a call over the child. -/
inductive Computes (child : PlanNode) : AggCall → AggregationType → Expr → Prop
  | countStar : Computes child ⟨"count_star", false, []⟩ .countStarAggregate (.constantValue (.integer 1))
  | unary {funcName : String} {aggType : AggregationType} {arg : BoundExpression} {input : Expr}
      (hname : (funcName, aggType) ∈ [("min", AggregationType.minAggregate), ("max", .maxAggregate),
        ("sum", .sumAggregate), ("count", .countAggregate)])
      (harg : Planned [child] arg input []) : Computes child ⟨funcName, false, [arg]⟩ aggType input

/-- The calls of the trace are the aggregates of the node, in the same order: each is planned as the
reference to its own column, and its column computes it. -/
structure InOrder (child : PlanNode) (p : SelectAgg) (t : Trace) : Prop where
  aggregates_length : p.aggregates.length = t.length
  aggTypes_length : p.aggTypes.length = t.length
  reference : ∀ (k : ℕ) call e, t[k]? = some (call, e) → e = aggColumn p.groupBys.length k
  computes : ∀ (k : ℕ) call e, t[k]? = some (call, e) → ∃ aggType input, p.aggTypes[k]? = some aggType ∧
    p.aggregates[k]? = some input ∧ Computes child call aggType input
  column : ∀ k : ℕ, k < t.length → ∃ column, p.aggSchema.columns[p.groupBys.length + k]? = some column ∧
    column.name = "agg#" ++ toString k ∧ column.type = .integer

/-- A `HAVING` clause that is there is planned as the predicate. -/
def PlannedHaving (children : List PlanNode) (having : BoundExpression) (predicate : Option Expr) (t : Trace) : Prop :=
  (having.isInvalid = true ∧ predicate = none ∧ t = []) ∨ ∃ e, predicate = some e ∧ Planned children having e t

variable {child : PlanNode} {ctx ctx' : PlannerContext} {t : Trace}

/-- Nothing is consumed where nothing is offered. -/
theorem Consumed.eq_nil (h : Consumed ctx ctx' t) (hctx : ctx.exprInAgg = []) : t = [] := by
  have hdrop := h.drop_eq
  rw [hctx, List.drop_nil, List.drop_nil, List.append_nil] at hdrop
  exact List.map_eq_nil_iff.mp hdrop.symm

/-- The context is as it was where nothing is offered. -/
theorem Consumed.eq_of_nil (h : Consumed ctx ctx' t) (hctx : ctx.exprInAgg = []) : ctx' = ctx := by
  have hnext := h.next_eq
  rw [h.eq_nil hctx] at hnext
  cases ctx
  cases ctx'
  cases h.allow_eq
  cases h.same
  cases h.aggregations_eq
  cases hnext
  rfl

/-- Expressions planned without aggregations have no calls. -/
theorem plannedAll_of_newContext {exprs : List BoundExpression} {items : List (String × Expr)}
    (hctx : ctx.exprInAgg = []) (h : planExpressions [child] exprs ctx = .ok (items, ctx')) :
    PlannedAll [child] exprs (items.map Prod.snd) [] ∧ Consumed ctx ctx' [] := by
  obtain ⟨t, ht, hc⟩ := planExpressions_planned exprs h
  cases hc.eq_nil hctx
  exact ⟨ht, hc⟩

theorem getAggCallFromFactory_cases {funcName : String} {args exprs : List Expr} {aggType : AggregationType}
    (h : getAggCallFromFactory funcName args = .ok (aggType, exprs)) :
    (funcName = "count_star" ∧ args = [] ∧ aggType = .countStarAggregate ∧ exprs = []) ∨
      ∃ expr, args = [expr] ∧ exprs = [expr] ∧ (funcName, aggType) ∈ [("min", AggregationType.minAggregate),
        ("max", .maxAggregate), ("sum", .sumAggregate), ("count", .countAggregate)] := by
  unfold getAggCallFromFactory at h
  split at h
  · split_ifs at h with hname
    cases h
    exact .inl ⟨hname, rfl, rfl, rfl⟩
  · split_ifs at h with h1 h2 h3 h4 <;> cases h
    all_goals subst funcName
    all_goals exact .inr ⟨_, rfl, rfl, by simp⟩
  · cases h

theorem planAggregation_computes {call : AggCall} {aggType : AggregationType} {input : Expr}
    (h : planAggregation child call.toExpr = .ok (aggType, input)) : Computes child call aggType input := by
  obtain ⟨funcName, isDistinct, args⟩ := call
  obtain ⟨⟨type, exprs⟩, hcall, h⟩ := bind_eq_ok.mp h
  unfold planAggCall at hcall
  cases isDistinct with
  | true => cases hcall
  | false =>
    obtain ⟨⟨items, ctx⟩, hargs, hcall⟩ := bind_eq_ok.mp hcall
    obtain ⟨hplanned, -⟩ := plannedAll_of_newContext rfl hargs
    obtain ⟨rfl, hitems, rfl, rfl⟩ | ⟨expr, hitems, rfl, hname⟩ := getAggCallFromFactory_cases hcall
    · cases h
      rw [hitems] at hplanned
      cases hplanned
      exact .countStar
    · cases h
      rw [hitems] at hplanned
      generalize htrace : ([] : Trace) = t at hplanned
      cases hplanned with
      | cons harg hrest =>
        cases hrest
        rw [List.append_nil] at htrace
        exact .unary hname (htrace ▸ harg)

/-- The column of the aggregation node for the aggregate `k`. -/
theorem aggregationNode_eq {items : List (String × Expr)} {terms : List (AggregationType × Expr)} {plan : PlanNode}
    (h : aggregationNode items terms child = .ok plan) :
    ∃ schema : Schema, plan = .node (schema, .other (.aggregation (items.map Prod.snd) (terms.map Prod.snd)
        (terms.map Prod.fst))) [child] ∧
      ∀ k, k < terms.length → ∃ column, schema.columns[items.length + k]? = some column ∧
        column.name = "agg#" ++ toString k ∧ column.type = .integer := by
  obtain ⟨inferred, hinferred, h⟩ := bind_eq_ok.mp h
  obtain ⟨schema, hschema, h⟩ := bind_eq_ok.mp h
  cases h
  refine ⟨schema, rfl, ?_⟩
  intro k hk
  obtain ⟨columns, hcolumns, hinferred⟩ := bind_eq_ok.mp hinferred
  cases hinferred
  have hlen : columns.length = items.length := by
    rw [← (forall₂_of_mapM_eq_ok hcolumns).length_eq, List.length_map]
  unfold renameSchema at hschema
  split_ifs at hschema
  cases hschema
  simp only [getElem?_create, List.getElem?_zipWith]
  rw [List.getElem?_append_right (by rw [List.length_map, hlen]; omega),
    List.getElem?_append_right (by rw [List.length_map]; omega)]
  simp only [List.length_map, hlen, Nat.add_sub_cancel_left, List.getElem?_map, List.getElem?_range hk,
    List.getElem?_eq_getElem hk, Option.map_some]
  exact ⟨_, rfl, rfl, rfl⟩

/-- The first traversal does not leave an invalid expression. -/
theorem isInvalid_collected {expr expr' : BoundExpression} (h : addAggCallToContext expr ctx = .ok (expr', ctx')) :
    expr'.isInvalid = false := by
  cases expr with
  | invalid | star | unaryOp | window => cases h
  | constant | columnRef =>
    cases h
    rfl
  | aggCall | funcCall | alias_ =>
    obtain ⟨_, _, h⟩ := bind_eq_ok.mp h
    cases h
    rfl
  | binaryOp =>
    obtain ⟨_, _, h⟩ := bind_eq_ok.mp h
    obtain ⟨_, _, h⟩ := bind_eq_ok.mp h
    cases h
    rfl

/-- The first traversal on a `HAVING` clause, and the second on what it leaves. -/
theorem having_planned {having having' : BoundExpression} {c c' : PlannerContext} {schema : Schema}
    {op : Operator PlanKind} {plan : PlanNode} (hcollect : collectHaving having c = .ok (having', c'))
    (hplan : planHaving having' (.node (schema, op) [child]) ctx = .ok (plan, ctx')) :
    ∃ (predicate : Option Expr) (t t' : Trace), PlannedHaving [.node (schema, op) [child]] having predicate t ∧
      (plan = match predicate with
        | none => .node (schema, op) [child]
        | some e => .node (schema, .filter e) [.node (schema, op) [child]]) ∧
      Collected c c' t ∧ Consumed ctx ctx' t' ∧ t.map Prod.snd = t'.map Prod.snd := by
  unfold collectHaving at hcollect
  split_ifs at hcollect with hinvalid
  · cases hcollect
    unfold planHaving at hplan
    rw [if_pos hinvalid] at hplan
    cases hplan
    exact ⟨none, [], [], .inl ⟨hinvalid, rfl, rfl⟩, rfl, .refl _, .refl _, rfl⟩
  · unfold planHaving at hplan
    rw [isInvalid_collected hcollect, if_neg Bool.false_ne_true] at hplan
    obtain ⟨⟨⟨_, e⟩, ctx₁⟩, he, hplan⟩ := bind_eq_ok.mp hplan
    cases hplan
    obtain ⟨t', ht', hconsumed⟩ := planExpression_planned having' he
    obtain ⟨t, ht, hcollected, htt'⟩ := collected_planned having hcollect ht'
    exact ⟨some e, t, t', .inr ⟨e, rfl, ht⟩, rfl, hcollected, hconsumed, htt'⟩

/-- What is consumed is all that was offered, if there is as much of it. -/
theorem Consumed.all (h : Consumed ctx ctx' t) (hnext : ctx.nextAggregation = 0)
    (hlen : ctx.exprInAgg.length = t.length) : t.map Prod.snd = ctx.exprInAgg := by
  have hdrop := h.drop_eq
  rw [h.next_eq, hnext, Nat.zero_add, ← hlen, List.drop_length, List.append_nil, List.drop_zero] at hdrop
  exact hdrop.symm

/-- **The calls met in the `HAVING` clause and then in the select list are the aggregates of the node**: call
`k` is planned as the reference to output column `agg_begin + k`, aggregate `k` is that call with its own
argument and type, and there are as many aggregates as calls. -/
theorem selectAgg_calls {exprs rest : SelectExprs} {groupBy : List BoundExpression} {child plan : PlanNode}
    (h : planSelectAgg exprs groupBy child = .ok (plan, rest)) :
    ∃ (p : SelectAgg) (havingCalls selectCalls : Trace), plan = p.node child ∧
      PlannedAll [child] groupBy p.groupBys [] ∧
      PlannedHaving [p.aggregation child] exprs.having p.having havingCalls ∧
      PlannedAll [p.filtered child] exprs.selectList p.exprs selectCalls ∧
      InOrder child p (havingCalls ++ selectCalls) := by
  obtain ⟨⟨groups, ctx₁⟩, hgroups, h⟩ := bind_eq_ok.mp h
  obtain ⟨⟨having', ctx₂⟩, hhaving, h⟩ := bind_eq_ok.mp h
  obtain ⟨⟨selectList', ctx₃⟩, hselect, h⟩ := bind_eq_ok.mp h
  obtain ⟨terms, hterms, h⟩ := bind_eq_ok.mp h
  obtain ⟨agg, hagg, h⟩ := bind_eq_ok.mp h
  obtain ⟨⟨top, ctx₅⟩, htop, h⟩ := bind_eq_ok.mp h
  obtain ⟨⟨items, ctx₆⟩, hitems, h⟩ := bind_eq_ok.mp h
  obtain ⟨out, hout, h⟩ := bind_eq_ok.mp h
  obtain ⟨schema, -, hout⟩ := bind_eq_ok.mp hout
  cases hout
  cases h
  obtain ⟨hgroupBys, hconsumed₁⟩ := plannedAll_of_newContext rfl hgroups
  obtain ⟨aggSchema, rfl, hcolumn⟩ := aggregationNode_eq hagg
  obtain ⟨predicate, th, th', hph, rfl, hcollected₂, hconsumed₅, hth⟩ := having_planned hhaving htop
  obtain ⟨ts', hps', hconsumed₆⟩ := planExpressions_planned selectList' hitems
  obtain ⟨ts, hps, hcollected₃, hts⟩ := collected_plannedAll exprs.selectList hselect hps'
  have hcollected := hcollected₂.trans hcollected₃
  have hconsumed := hconsumed₅.trans hconsumed₆
  have hterm := forall₂_of_mapM_eq_ok hterms
  -- one term, one reference and one call each
  have hlen : terms.length = (th ++ ts).length := by
    rw [← hterm.length_eq, hcollected.aggregations_eq, hconsumed₁.aggregations_eq, List.length_append,
      List.length_map]
    exact Nat.zero_add _
  have hsnd : (th ++ ts).map Prod.snd = (th' ++ ts').map Prod.snd := by
    rw [List.map_append, List.map_append, hth, hts]
  have hoffered : ctx₃.exprInAgg = [] := by rw [hcollected.exprInAgg_eq, hconsumed₁.same]; rfl
  have hnext : ctx₃.nextAggregation = 0 := by rw [hcollected.next_eq, hconsumed₁.next_eq]; rfl
  have hrefs : (th ++ ts).map Prod.snd = (List.range terms.length).map (aggColumn groups.length) := by
    rw [hsnd, hconsumed.all hnext]
    · rw [hoffered, List.nil_append]
    · have hlen' := congrArg List.length hsnd
      rw [List.length_map, List.length_map] at hlen'
      rw [hoffered, List.nil_append, List.length_map, List.length_range, hlen, hlen']
  refine ⟨⟨groups.map Prod.snd, terms.map Prod.snd, terms.map Prod.fst, aggSchema, predicate, items.map Prod.snd,
    schema⟩, th, ts, rfl, hgroupBys, hph, hps, ?_, ?_, ?_, ?_, ?_⟩
  · rw [List.length_map, hlen]
  · rw [List.length_map, hlen]
  · intro k call e hk
    have hk' := congrArg (·[k]?) hrefs
    have hlt : k < terms.length := hlen ▸ (List.getElem?_eq_some_iff.mp hk).1
    simp only [List.getElem?_map, hk, List.getElem?_range hlt, Option.map_some, Option.some.injEq] at hk'
    rw [hk', List.length_map]
  · intro k call e hk
    have hlt : k < terms.length := hlen ▸ (List.getElem?_eq_some_iff.mp hk).1
    have hagg : ctx₃.aggregations[k]? = some call.toExpr := by
      rw [hcollected.aggregations_eq, hconsumed₁.aggregations_eq]
      change ([] ++ _)[k]? = _
      rw [List.nil_append, List.getElem?_map, hk]
      rfl
    have hterm_k := (List.forall₂_iff_get.mp hterm).2 k (List.getElem?_eq_some_iff.mp hagg).1 hlt
    refine ⟨(terms[k]).1, (terms[k]).2, ?_, ?_, planAggregation_computes ?_⟩
    · rw [List.getElem?_map, List.getElem?_eq_getElem hlt]
      rfl
    · rw [List.getElem?_map, List.getElem?_eq_getElem hlt]
      rfl
    · rw [List.get_eq_getElem, (List.getElem?_eq_some_iff.mp hagg).2] at hterm_k
      exact hterm_k
  · intro k hk
    rw [List.length_map]
    exact hcolumn k (hlen ▸ hk)

/-- `having count(v4) > count(v5)` and the select list `v3, max(v1) + max(v2)`. -/
def maxCountExprs : SelectExprs where
  having := .binaryOp ">" (.aggCall "count" false [.columnRef ["t", "v4"] (by decide)])
    (.aggCall "count" false [.columnRef ["t", "v5"] (by decide)])
  selectList := [.columnRef ["t", "v3"] (by decide),
    .binaryOp "+" (.aggCall "max" false [.columnRef ["t", "v1"] (by decide)])
      (.aggCall "max" false [.columnRef ["t", "v2"] (by decide)])]

/-- A scan of a table of five integer columns. -/
def fiveColumns : PlanNode :=
  .node (.create (["t.v1", "t.v2", "t.v3", "t.v4", "t.v5"].map fun name =>
      .fixed name .integer 4 integer_fixed integer_size),
    .seqScan 0 "t" none) []

theorem selectAgg_calls_maxCount : ∃ plan rest,
    planSelectAgg maxCountExprs [.columnRef ["t", "v3"] (by decide)] fiveColumns = .ok (plan, rest) ∧
      ∃ (p : SelectAgg) (havingCalls selectCalls : Trace), plan = p.node fiveColumns ∧
        PlannedHaving [p.aggregation fiveColumns] maxCountExprs.having p.having havingCalls ∧
        PlannedAll [p.filtered fiveColumns] maxCountExprs.selectList p.exprs selectCalls ∧
        InOrder fiveColumns p (havingCalls ++ selectCalls) := by
  have hok : (planSelectAgg maxCountExprs [.columnRef ["t", "v3"] (by decide)] fiveColumns).isOk = true := by
    decide +kernel
  cases h : planSelectAgg maxCountExprs [.columnRef ["t", "v3"] (by decide)] fiveColumns with
  | error e =>
    rw [h] at hok
    cases hok
  | ok out =>
    obtain ⟨p, th, ts, hplan, -, hhaving, hselect, horder⟩ := selectAgg_calls h
    exact ⟨out.1, out.2, rfl, p, th, ts, hplan, hhaving, hselect, horder⟩

end Aggregations

end Journey.Planner
