import Journey.Bustub.Binder.Resolve
import Journey.Bustub.Planner.Select

/-!
# Journey.Bustub.Planner.Rewriting — what planning does to the statements

`AddAggCallToContext` leaves a call without arguments, named `__pseudo_agg#k`, where it has taken an
aggregate call out.  No later phase puts the call back, and the factory does not know that name.

* `calls`: the aggregate calls of an expression that the traversals meet.
* `Replaced`: what planning a select list does to the calls in it.
* `VisitsSelect`: the statements that are planned for a statement, through subqueries and CTEs.
* `plan_run`: in the statements that are visited all the calls were known to the factory, and none is
  any more; the others are left as they were.
-/

namespace Journey.Planner

open SqlType Catalog Execution Optimizer Binder

/-! ## Calls -/

section Calls

mutual

/-- The aggregate calls of an expression, from left to right. -/
def calls : BoundExpression → List AggCall
  | .aggCall funcName isDistinct args => [⟨funcName, isDistinct, args⟩]
  | .binaryOp _ larg rarg => calls larg ++ calls rarg
  | .funcCall _ args => callsAll args
  | .alias_ _ child => calls child
  | .invalid => []
  | .constant _ => []
  | .columnRef _ _ => []
  | .star => []
  | .unaryOp _ _ => []
  | .window _ _ _ _ _ _ _ _ => []

def callsAll : List BoundExpression → List AggCall
  | [] => []
  | expr :: exprs => calls expr ++ callsAll exprs

end

/-- A call without arguments whose name the factory does not know. -/
def Refused (call : AggCall) : Prop := call.args = [] ∧ call.funcName ≠ "count_star"

/-- What the first traversal does to the calls of an expression. -/
structure Taken (ctx ctx' : PlannerContext) (before after : List AggCall) (unchanged : Prop) : Prop where
  aggregations_eq : ctx'.aggregations = ctx.aggregations ++ before.map AggCall.toExpr
  refused : ∀ call ∈ after, Refused call
  length_eq : after.length = before.length
  same : before = [] → unchanged

variable {children : List PlanNode} {ctx ctx' ctx'' : PlannerContext}

theorem Taken.refl (ctx : PlannerContext) {unchanged : Prop} (h : unchanged) : Taken ctx ctx [] [] unchanged :=
  ⟨(List.append_nil _).symm, nofun, rfl, fun _ => h⟩

theorem Taken.append {before after before' after' : List AggCall} {same same' both : Prop}
    (h : Taken ctx ctx' before after same) (h' : Taken ctx' ctx'' before' after' same')
    (hboth : same → same' → both) : Taken ctx ctx'' (before ++ before') (after ++ after') both := by
  refine ⟨?_, ?_, ?_, ?_⟩
  · rw [h'.aggregations_eq, h.aggregations_eq, List.map_append, List.append_assoc]
  · intro call hcall
    rcases List.mem_append.mp hcall with hcall | hcall
    · exact h.refused call hcall
    · exact h'.refused call hcall
  · rw [List.length_append, List.length_append, h.length_eq, h'.length_eq]
  · intro hnil
    obtain ⟨hbefore, hbefore'⟩ := List.append_eq_nil_iff.mp hnil
    exact hboth (h.same hbefore) (h'.same hbefore')

theorem Taken.imp {before after : List AggCall} {same same' : Prop} (h : Taken ctx ctx' before after same)
    (himp : same → same') : Taken ctx ctx' before after same' :=
  ⟨h.aggregations_eq, h.refused, h.length_eq, fun hnil => himp (h.same hnil)⟩

/-- The factory does not know the names that the first traversal makes up. -/
theorem refused_pseudo (n : ℕ) (isDistinct : Bool) : Refused ⟨"__pseudo_agg#" ++ toString n, isDistinct, []⟩ := by
  refine ⟨rfl, ?_⟩
  intro heq
  have hlist := congrArg String.toList heq
  rw [String.toList_append] at hlist
  cases hlist

mutual

theorem addAggCallToContext_taken : ∀ (expr : BoundExpression) {expr' : BoundExpression}
    {ctx ctx' : PlannerContext}, addAggCallToContext expr ctx = .ok (expr', ctx') →
    Taken ctx ctx' (calls expr) (calls expr') (expr' = expr)
  | .aggCall funcName isDistinct args, expr', ctx, ctx', h => by
    obtain ⟨ctx₁, hadd, h⟩ := bind_eq_ok.mp h
    cases h
    unfold PlannerContext.addAggregation at hadd
    split_ifs at hadd
    cases hadd
    refine ⟨rfl, ?_, rfl, nofun⟩
    intro call hcall
    cases List.mem_singleton.mp hcall
    exact refused_pseudo _ _
  | .columnRef colName qualified, expr', ctx, ctx', h => by
    cases h
    exact .refl _ rfl
  | .binaryOp opName larg rarg, expr', ctx, ctx', h => by
    obtain ⟨⟨larg', ctx₁⟩, hl, h⟩ := bind_eq_ok.mp h
    obtain ⟨⟨rarg', ctx₂⟩, hr, h⟩ := bind_eq_ok.mp h
    cases h
    refine (addAggCallToContext_taken larg hl).append (addAggCallToContext_taken rarg hr) ?_
    rintro rfl rfl
    rfl
  | .funcCall funcName args, expr', ctx, ctx', h => by
    obtain ⟨⟨args', ctx₁⟩, hargs, h⟩ := bind_eq_ok.mp h
    cases h
    exact (addAggCallsToContext_taken args hargs).imp fun heq => heq ▸ rfl
  | .constant val, expr', ctx, ctx', h => by
    cases h
    exact .refl _ rfl
  | .alias_ aliasName child, expr', ctx, ctx', h => by
    obtain ⟨⟨child', ctx₁⟩, hchild, h⟩ := bind_eq_ok.mp h
    cases h
    exact (addAggCallToContext_taken child hchild).imp fun heq => heq ▸ rfl
  | .window _ _ _ _ _ _ _ _, _, _, _, h => nomatch h
  | .invalid, _, _, _, h => nomatch h
  | .star, _, _, _, h => nomatch h
  | .unaryOp _ _, _, _, _, h => nomatch h

theorem addAggCallsToContext_taken : ∀ (exprs : List BoundExpression) {exprs' : List BoundExpression}
    {ctx ctx' : PlannerContext}, addAggCallsToContext exprs ctx = .ok (exprs', ctx') →
    Taken ctx ctx' (callsAll exprs) (callsAll exprs') (exprs' = exprs)
  | [], exprs', ctx, ctx', h => by
    cases h
    exact .refl _ rfl
  | expr :: exprs, exprs', ctx, ctx', h => by
    obtain ⟨⟨expr', ctx₁⟩, hexpr, h⟩ := bind_eq_ok.mp h
    obtain ⟨⟨rest', ctx₂⟩, hrest, h⟩ := bind_eq_ok.mp h
    cases h
    refine (addAggCallToContext_taken expr hexpr).append (addAggCallsToContext_taken exprs hrest) ?_
    rintro rfl rfl
    rfl

end

/-- The first traversal leaves an item of a select list the name it gives itself. -/
theorem addAggCallToContext_itemName {expr expr' : BoundExpression}
    (h : addAggCallToContext expr ctx = .ok (expr', ctx')) : itemName expr' = itemName expr := by
  cases expr with
  | aggCall funcName isDistinct args =>
    obtain ⟨_, -, h⟩ := bind_eq_ok.mp h
    cases h
    rfl
  | columnRef colName qualified =>
    cases h
    rfl
  | binaryOp opName larg rarg =>
    obtain ⟨_, -, h⟩ := bind_eq_ok.mp h
    obtain ⟨_, -, h⟩ := bind_eq_ok.mp h
    cases h
    rfl
  | funcCall funcName args =>
    obtain ⟨_, -, h⟩ := bind_eq_ok.mp h
    cases h
    rfl
  | constant val =>
    cases h
    rfl
  | alias_ aliasName child =>
    obtain ⟨_, -, h⟩ := bind_eq_ok.mp h
    cases h
    rfl
  | window _ _ _ _ _ _ _ _ => cases h
  | invalid => cases h
  | star => cases h
  | unaryOp _ _ => cases h

theorem addAggCallsToContext_itemNames {exprs exprs' : List BoundExpression}
    (h : addAggCallsToContext exprs ctx = .ok (exprs', ctx')) : exprs'.map itemName = exprs.map itemName := by
  induction exprs generalizing exprs' ctx with
  | nil =>
    cases h
    rfl
  | cons expr exprs ih =>
    obtain ⟨⟨expr', ctx₁⟩, hexpr, h⟩ := bind_eq_ok.mp h
    obtain ⟨⟨rest', ctx₂⟩, hrest, h⟩ := bind_eq_ok.mp h
    cases h
    rw [List.map_cons, List.map_cons, addAggCallToContext_itemName hexpr, ih hrest]

mutual

/-- The trace of a planned expression has its calls. -/
theorem Planned.calls_eq : ∀ {expr : BoundExpression} {e : Expr} {t : Trace}, Planned children expr e t →
    calls expr = t.map Prod.fst
  | _, _, _, .aggCall _ _ => rfl
  | _, _, _, .columnRef _ => rfl
  | _, _, _, .constant _ => rfl
  | _, _, _, .binaryOp hl hr _ => by rw [calls, hl.calls_eq, hr.calls_eq, List.map_append]
  | _, _, _, .funcCall hargs _ => by rw [calls, hargs.calls_eq]
  | _, _, _, .alias_ h => by rw [calls, h.calls_eq]

theorem PlannedAll.calls_eq : ∀ {exprs : List BoundExpression} {es : List Expr} {t : Trace},
    PlannedAll children exprs es t → callsAll exprs = t.map Prod.fst
  | _, _, _, .nil => rfl
  | _, _, _, .cons h hs => by rw [callsAll, h.calls_eq, hs.calls_eq, List.map_append]

end

/-- Outside of an aggregation there are no calls. -/
theorem calls_of_planScalar {expr : BoundExpression} {named : String × Expr}
    (h : planScalar children expr = .ok named) : calls expr = [] := by
  obtain ⟨⟨named, ctx⟩, hexpr, -⟩ := bind_eq_ok.mp h
  obtain ⟨t, ht, hconsumed⟩ := planExpression_planned expr hexpr
  rw [ht.calls_eq, hconsumed.eq_nil rfl]
  rfl

end Calls

/-! ## Select lists -/

section SelectLists

/-- The calls of a `HAVING` clause and a select list. -/
def callsOf (exprs : SelectExprs) : List AggCall := calls exprs.having ++ callsAll exprs.selectList

/-- What planning a select list does to the calls in it. -/
structure Replaced (exprs exprs' : SelectExprs) : Prop where
  accepted : ∀ call ∈ callsOf exprs, ¬ Refused call
  refused : ∀ call ∈ callsOf exprs', Refused call
  length_eq : (callsOf exprs').length = (callsOf exprs).length
  same : callsOf exprs = [] → exprs' = exprs
  itemNames : exprs'.selectList.map itemName = exprs.selectList.map itemName

theorem Replaced.of_nil {exprs : SelectExprs} (h : callsOf exprs = []) : Replaced exprs exprs := by
  refine ⟨?_, ?_, rfl, fun _ => rfl, rfl⟩
  · rw [h]
    nofun
  · rw [h]
    nofun

theorem calls_of_isInvalid {expr : BoundExpression} (h : expr.isInvalid = true) : calls expr = [] := by
  cases expr <;> first | rfl | cases h

theorem calls_of_hasWindowFunction : ∀ {expr : BoundExpression}, expr.hasWindowFunction = true → calls expr = []
  | .alias_ _ child, h => by
    have hchild : child.hasWindowFunction = true := h
    rw [calls, calls_of_hasWindowFunction hchild]
  | .window _ _ _ _ _ _ _ _, _ => rfl

variable {child plan : PlanNode} {exprs exprs' : SelectExprs} {groupBy items : List BoundExpression}
  {columns : List (String × Expr)} {id id' : ℕ} {valueToString : Value → String}

theorem planSelectItems_calls (h : planSelectItems child items id = .ok (columns, id')) : callsAll items = [] := by
  induction items generalizing columns id id' with
  | nil => rfl
  | cons item items ih =>
    obtain ⟨⟨name, expr⟩, hitem, h⟩ := bind_eq_ok.mp h
    obtain ⟨⟨rest, id₁⟩, hrest, -⟩ := bind_eq_ok.mp h
    rw [callsAll, calls_of_planScalar hitem, ih hrest]
    rfl

theorem planWindowItem_calls {index : ℕ} {item : BoundExpression} {out : (String × Expr) × List WindowFunction × ℕ}
    (h : planWindowItem child index item id = .ok out) : calls item = [] := by
  unfold planWindowItem at h
  split_ifs at h with hwindow
  · exact calls_of_hasWindowFunction hwindow
  · obtain ⟨named, hitem, -⟩ := bind_eq_ok.mp h
    exact calls_of_planScalar hitem

theorem planWindowItems_calls {index : ℕ} {functions : List WindowFunction}
    (h : planWindowItems child index items id = .ok (columns, functions, id')) : callsAll items = [] := by
  induction items generalizing columns functions id id' index with
  | nil => rfl
  | cons item items ih =>
    obtain ⟨⟨column, function, id₁⟩, hitem, h⟩ := bind_eq_ok.mp h
    obtain ⟨⟨rest, functions', id₂⟩, hrest, -⟩ := bind_eq_ok.mp h
    rw [callsAll, planWindowItem_calls hitem, ih hrest]
    rfl

/-- The three ways to plan a select list. -/
theorem planSelectList_cases (h : planSelectList valueToString exprs groupBy child id = .ok (plan, exprs', id')) :
    (exprs.having.isInvalid = true ∧ exprs' = exprs ∧
      planSelectWindow valueToString exprs.selectList child id = .ok (plan, id')) ∨
    (planSelectAgg exprs groupBy child = .ok (plan, exprs') ∧ id' = id) ∨
    (exprs.having.isInvalid = true ∧ exprs' = exprs ∧ ∃ columns,
      planSelectItems child exprs.selectList id = .ok (columns, id') ∧ projectionNode columns child = .ok plan) := by
  obtain ⟨kind, -, h⟩ := bind_eq_ok.mp h
  split_ifs at h with hkind hhaving hgroup hagg
  · obtain ⟨⟨plan, id₁⟩, hplan, h⟩ := bind_eq_ok.mp h
    cases h
    exact .inl ⟨(Bool.not_eq_false _).mp hhaving, rfl, hplan⟩
  · obtain ⟨⟨plan, exprs₁⟩, hplan, h⟩ := bind_eq_ok.mp h
    cases h
    exact .inr (.inl ⟨hplan, rfl⟩)
  · obtain ⟨⟨columns, id₁⟩, hcolumns, h⟩ := bind_eq_ok.mp h
    obtain ⟨plan, hplan, h⟩ := bind_eq_ok.mp h
    cases h
    rw [not_or, Bool.not_eq_false] at hagg
    exact .inr (.inr ⟨hagg.1, rfl, columns, hcolumns, hplan⟩)

theorem Computes.not_refused {call : AggCall} {aggType : AggregationType} {input : Expr}
    (h : Computes child call aggType input) : ¬ Refused call := by
  rintro ⟨hargs, hname⟩
  cases h with
  | countStar => exact hname rfl
  | unary => cases hargs

theorem collectHaving_taken {having having' : BoundExpression} {ctx ctx' : PlannerContext}
    (h : collectHaving having ctx = .ok (having', ctx')) :
    Taken ctx ctx' (calls having) (calls having') (having' = having) := by
  unfold collectHaving at h
  split_ifs at h with hinvalid
  · cases h
    rw [calls_of_isInvalid hinvalid]
    exact .refl _ rfl
  · exact addAggCallToContext_taken having h

/-- `PlanSelectAgg` finds all the calls in the factory, and leaves none that are there. -/
theorem planSelectAgg_replaced (h : planSelectAgg exprs groupBy child = .ok (plan, exprs')) :
    Replaced exprs exprs' := by
  obtain ⟨⟨groups, ctx₁⟩, hgroups, h⟩ := bind_eq_ok.mp h
  obtain ⟨⟨having', ctx₂⟩, hhaving, h⟩ := bind_eq_ok.mp h
  obtain ⟨⟨selectList', ctx₃⟩, hselect, h⟩ := bind_eq_ok.mp h
  obtain ⟨terms, hterms, h⟩ := bind_eq_ok.mp h
  obtain ⟨agg, -, h⟩ := bind_eq_ok.mp h
  obtain ⟨⟨top, ctx₅⟩, -, h⟩ := bind_eq_ok.mp h
  obtain ⟨⟨items, ctx₆⟩, -, h⟩ := bind_eq_ok.mp h
  obtain ⟨out, -, h⟩ := bind_eq_ok.mp h
  cases h
  have htaken := (collectHaving_taken hhaving).append (addAggCallsToContext_taken exprs.selectList hselect)
    (And.intro (a := having' = exprs.having) (b := selectList' = exprs.selectList))
  refine ⟨?_, htaken.refused, htaken.length_eq, ?_, addAggCallsToContext_itemNames hselect⟩
  · intro call hcall
    have hmem : call.toExpr ∈ ctx₃.aggregations := by
      rw [htaken.aggregations_eq]
      exact List.mem_append_right _ (List.mem_map_of_mem hcall)
    obtain ⟨⟨aggType, input⟩, hterm⟩ := exists_of_mapM_eq_ok hterms hmem
    exact (planAggregation_computes hterm).not_refused
  · intro hnil
    obtain ⟨hsame, hsame'⟩ := htaken.same hnil
    rw [hsame, hsame']

theorem planSelectList_replaced (h : planSelectList valueToString exprs groupBy child id = .ok (plan, exprs', id')) :
    Replaced exprs exprs' := by
  obtain ⟨hinvalid, rfl, hplan⟩ | ⟨hplan, -⟩ | ⟨hinvalid, rfl, columns, hcolumns, -⟩ := planSelectList_cases h
  · obtain ⟨⟨columns, functions, id₁⟩, hcolumns, -⟩ := bind_eq_ok.mp hplan
    exact .of_nil (by rw [callsOf, calls_of_isInvalid hinvalid, planWindowItems_calls hcolumns]; rfl)
  · exact planSelectAgg_replaced hplan
  · exact .of_nil (by rw [callsOf, calls_of_isInvalid hinvalid, planSelectItems_calls hcolumns]; rfl)

end SelectLists

/-! ## The statements that are planned -/

section Visits

mutual

/-- The statement `t` is planned for the statement. -/
inductive VisitsSelect : CTEScope → SelectStatement → SelectStatement → Prop
  | self (ctes : CTEScope) (statement : SelectStatement) : VisitsSelect ctes statement statement
  | table {ctes : CTEScope} {statement t : SelectStatement}
      (h : VisitsRef (scopeOf ctes statement) statement.table t) : VisitsSelect ctes statement t

/-- The statement `t` is planned for the table reference. -/
inductive VisitsRef : CTEScope → BoundTableRef → SelectStatement → Prop
  | crossLeft {ctes : CTEScope} {left right : BoundTableRef} {t : SelectStatement} (h : VisitsRef ctes left t) :
      VisitsRef ctes (.crossProduct left right) t
  | crossRight {ctes : CTEScope} {left right : BoundTableRef} {t : SelectStatement} (h : VisitsRef ctes right t) :
      VisitsRef ctes (.crossProduct left right) t
  | joinLeft {ctes : CTEScope} {joinType : JoinType} {left right : BoundTableRef} {condition : BoundExpression}
      {t : SelectStatement} (h : VisitsRef ctes left t) : VisitsRef ctes (.join joinType left right condition) t
  | joinRight {ctes : CTEScope} {joinType : JoinType} {left right : BoundTableRef} {condition : BoundExpression}
      {t : SelectStatement} (h : VisitsRef ctes right t) : VisitsRef ctes (.join joinType left right condition) t
  | subquery {ctes : CTEScope} {ref : BoundSubqueryRef} {t : SelectStatement} (h : VisitsSelect ctes ref.subquery t) :
      VisitsRef ctes (.subquery ref) t
  | cte {ctes : CTEScope} {cteName aliasName : String} {ref : BoundSubqueryRef} {t : SelectStatement}
      (hfind : findCTE ctes cteName = .ok ref) (h : VisitsSelect ctes ref.subquery t) :
      VisitsRef ctes (.cte cteName aliasName) t

end

/-- What planning does to the expressions behind the statements, if it plans the statements of `S`. -/
structure Run (heap heap' : Heap) (S : SelectStatement → Prop) : Prop where
  frame : ∀ a, (∀ t, S t → t.exprs ≠ a) → heap' a = heap a
  evolves : ∀ a, heap' a = heap a ∨
    (callsOf (heap a) ≠ [] ∧ callsOf (heap' a) ≠ [] ∧ ∀ call ∈ callsOf (heap' a), Refused call)
  accepted : ∀ t, S t → ∀ call ∈ callsOf (heap t.exprs), ¬ Refused call
  refused : ∀ t, S t → ∀ call ∈ callsOf (heap' t.exprs), Refused call
  itemNames : ∀ a, (heap' a).selectList.map itemName = (heap a).selectList.map itemName

namespace Run

variable {heap heap' heap'' : Heap} {S S' : SelectStatement → Prop}

theorem none (heap : Heap) : Run heap heap fun _ => False :=
  ⟨fun _ _ => rfl, fun _ => .inl rfl, nofun, nofun, fun _ => rfl⟩

theorem congr (h : Run heap heap' S) (hS : ∀ t, S t ↔ S' t) : Run heap heap' S' := by
  have heq : S = S' := funext fun t => propext (hS t)
  rwa [← heq]

/-- One run after the other. -/
theorem trans (h : Run heap heap' S) (h' : Run heap' heap'' S') : Run heap heap'' fun t => S t ∨ S' t := by
  refine ⟨?_, ?_, ?_, ?_, fun a => (h'.itemNames a).trans (h.itemNames a)⟩
  · intro a ha
    rw [h'.frame a fun t ht => ha t (.inr ht), h.frame a fun t ht => ha t (.inl ht)]
  · intro a
    rcases h'.evolves a with heq | ⟨hne, hne', href⟩
    · rw [heq]
      exact h.evolves a
    · rcases h.evolves a with heq | ⟨hne₀, -, -⟩
      · rw [heq] at hne
        exact .inr ⟨hne, hne', href⟩
      · exact .inr ⟨hne₀, hne', href⟩
  · rintro t (ht | ht)
    · exact h.accepted t ht
    · rcases h.evolves t.exprs with heq | ⟨-, hne, href⟩
      · rw [← heq]
        exact h'.accepted t ht
      · -- the calls were refused before the second run, which found them in the factory
        obtain ⟨call, hcall⟩ := List.exists_mem_of_ne_nil _ hne
        exact absurd (href call hcall) (h'.accepted t ht call hcall)
  · rintro t (ht | ht)
    · rcases h'.evolves t.exprs with heq | ⟨-, -, href⟩
      · rw [heq]
        exact h.refused t ht
      · exact href
    · exact h'.refused t ht

/-- The run that plans one select list. -/
theorem single {statement : SelectStatement} {exprs : SelectExprs} (h : Replaced (heap statement.exprs) exprs) :
    Run heap (Function.update heap statement.exprs exprs) fun t => t = statement := by
  refine ⟨?_, ?_, ?_, ?_, ?_⟩
  · intro a ha
    exact Function.update_of_ne (ha statement rfl).symm _ _
  · intro a
    by_cases ha : a = statement.exprs
    · subst ha
      rw [Function.update_self]
      by_cases hnil : callsOf (heap statement.exprs) = []
      · exact .inl (h.same hnil)
      · refine .inr ⟨hnil, ?_, h.refused⟩
        intro hnil'
        have hlen := h.length_eq
        rw [hnil'] at hlen
        exact hnil (List.length_eq_zero_iff.mp hlen.symm)
    · exact .inl (Function.update_of_ne ha _ _)
  · rintro t rfl
    exact h.accepted
  · rintro t rfl
    rw [Function.update_self]
    exact h.refused
  · intro a
    by_cases ha : a = statement.exprs
    · subst ha
      rw [Function.update_self]
      exact h.itemNames
    · rw [Function.update_of_ne ha]

end Run

variable {catalog : Catalog} {valueToString : Value → String}

/-- What one more call deep the recursion does, given what it does below. -/
theorem planSelect_step {depth : ℕ}
    (ih : ∀ {ctes ref st plan st'}, planTableRef catalog valueToString depth ctes ref st = .ok (plan, st') →
      Run st.heap st'.heap (VisitsRef ctes ref))
    {ctes : CTEScope} {statement : SelectStatement} {st st' : PlannerState} {plan : PlanNode}
    (h : planSelect catalog valueToString (depth + 1) ctes statement st = .ok (plan, st')) :
    Run st.heap st'.heap (VisitsSelect ctes statement) := by
  obtain ⟨⟨plan₁, st₁⟩, htable, h⟩ := bind_eq_ok.mp h
  obtain ⟨plan₂, -, h⟩ := bind_eq_ok.mp h
  obtain ⟨⟨plan₃, exprs, id⟩, hlist, h⟩ := bind_eq_ok.mp h
  obtain ⟨plan₄, -, h⟩ := bind_eq_ok.mp h
  obtain ⟨plan₅, -, h⟩ := bind_eq_ok.mp h
  cases h
  have hrun : Run st.heap st₁.heap (VisitsRef (scopeOf ctes statement) statement.table) := by
    split at htable
    · rename_i hempty
      cases htable
      refine (Run.none _).congr ?_
      intro t
      rw [hempty]
      exact ⟨False.elim, nofun⟩
    · exact ih htable
  refine (hrun.trans (.single (planSelectList_replaced hlist))).congr ?_
  intro t
  constructor
  · rintro (ht | rfl)
    · exact .table ht
    · exact .self _ _
  · rintro (_ | ht)
    · exact .inr rfl
    · exact .inl ht

theorem planTableRef_step {depth : ℕ}
    (ih : ∀ {ctes ref st plan st'}, planTableRef catalog valueToString depth ctes ref st = .ok (plan, st') →
      Run st.heap st'.heap (VisitsRef ctes ref))
    (ihs : ∀ {ctes statement st plan st'}, planSelect catalog valueToString depth ctes statement st = .ok (plan, st') →
      Run st.heap st'.heap (VisitsSelect ctes statement))
    {ctes : CTEScope} {ref : BoundTableRef} {st st' : PlannerState} {plan : PlanNode}
    (h : planTableRef catalog valueToString (depth + 1) ctes ref st = .ok (plan, st')) :
    Run st.heap st'.heap (VisitsRef ctes ref) := by
  cases ref with
  | empty => cases h
  | baseTable table oid aliasName schema =>
    obtain ⟨_, -, h⟩ := bind_eq_ok.mp h
    cases h
    exact (Run.none _).congr fun t => ⟨False.elim, nofun⟩
  | expressionList values identifier =>
    obtain ⟨_, -, h⟩ := bind_eq_ok.mp h
    cases h
    exact (Run.none _).congr fun t => ⟨False.elim, nofun⟩
  | crossProduct left right =>
    obtain ⟨⟨_, st₁⟩, hleft, h⟩ := bind_eq_ok.mp h
    obtain ⟨⟨_, st₂⟩, hright, h⟩ := bind_eq_ok.mp h
    cases h
    refine ((ih hleft).trans (ih hright)).congr ?_
    intro t
    constructor
    · rintro (ht | ht)
      · exact .crossLeft ht
      · exact .crossRight ht
    · rintro (ht | ht)
      · exact .inl ht
      · exact .inr ht
  | join joinType left right condition =>
    obtain ⟨⟨_, st₁⟩, hleft, h⟩ := bind_eq_ok.mp h
    obtain ⟨⟨_, st₂⟩, hright, h⟩ := bind_eq_ok.mp h
    obtain ⟨_, -, h⟩ := bind_eq_ok.mp h
    cases h
    refine ((ih hleft).trans (ih hright)).congr ?_
    intro t
    constructor
    · rintro (ht | ht)
      · exact .joinLeft ht
      · exact .joinRight ht
    · intro ht
      cases ht with
      | joinLeft ht => exact .inl ht
      | joinRight ht => exact .inr ht
  | subquery ref =>
    obtain ⟨⟨_, st₁⟩, hselect, h⟩ := bind_eq_ok.mp h
    obtain ⟨_, -, h⟩ := bind_eq_ok.mp h
    cases h
    refine (ihs hselect).congr ?_
    intro t
    refine ⟨.subquery, ?_⟩
    intro ht
    cases ht with
    | subquery ht => exact ht
  | cte cteName aliasName =>
    obtain ⟨ref, hfind, h⟩ := bind_eq_ok.mp h
    obtain ⟨⟨_, st₁⟩, hselect, h⟩ := bind_eq_ok.mp h
    obtain ⟨_, -, h⟩ := bind_eq_ok.mp h
    cases h
    refine (ihs hselect).congr ?_
    intro t
    refine ⟨.cte hfind, ?_⟩
    intro ht
    cases ht with
    | cte hfind' ht =>
      cases hfind.symm.trans hfind'
      exact ht

/-- **All the calls in the statements that are planned were in the factory, and none is any more.** -/
theorem plan_run (depth : ℕ) :
    (∀ {ctes statement st plan st'}, planSelect catalog valueToString depth ctes statement st = .ok (plan, st') →
      Run st.heap st'.heap (VisitsSelect ctes statement)) ∧
    ∀ {ctes ref st plan st'}, planTableRef catalog valueToString depth ctes ref st = .ok (plan, st') →
      Run st.heap st'.heap (VisitsRef ctes ref) := by
  induction depth with
  | zero => exact ⟨nofun, nofun⟩
  | succ depth ih => exact ⟨planSelect_step ih.2, planTableRef_step ih.2 ih.1⟩

end Visits

end Journey.Planner
