import Journey.Bustub.Planner.Rewriting

/-!
# Journey.Bustub.Planner.Names — the binder and the planner name the same columns

The binder and the planner each go over a table reference and put the names of its columns together.  The
planner looks a column up by the full name that the binder has left in the reference to it.

* `columnNames`: the names of the columns that a plan returns.
* `planSelect_length`: a statement is planned to as many columns as its select list has items.
* `planTableRef_names`: the columns of a plan have the names that `GetAllColumns` gives them.
* `columns_agree`: a column reference of the binder is found in the plan, unless two columns share its name.
-/

namespace Journey.Planner

open SqlType Catalog Execution Optimizer Binder

/-! ## Schemas -/

section Schemas

/-- The names of the columns. -/
def names (schema : Schema) : List String := schema.columns.map Column.name

/-- The names of the columns that a plan returns. -/
def columnNames (plan : PlanNode) : List String := names (outputSchema plan)

variable {schema schema' : Schema} {items : List (String × Expr)} {plan child : PlanNode}

theorem names_create (columns : List Column) : names (.create columns) = columns.map Column.name :=
  map_create (fun _ _ => rfl) columns

theorem names_inferScanSchema (boundTableName : String) (schema : Schema) :
    names (inferScanSchema boundTableName schema) =
      schema.columns.map fun column => boundTableName ++ "." ++ column.name := by
  rw [inferScanSchema, names_create, List.map_map]
  rfl

theorem names_inferJoinSchema (left right : PlanNode) :
    names (inferJoinSchema left right) = columnNames left ++ columnNames right := by
  rw [inferJoinSchema, names_create, List.map_append]
  rfl

theorem renameSchema_names {colNames : List String} (h : renameSchema schema colNames = .ok schema') :
    names schema' = colNames := by
  unfold renameSchema at h
  split_ifs at h with hlen
  cases h
  rw [names_create, List.map_zipWith]
  show List.zipWith (fun _ name => name) schema.columns colNames = colNames
  rw [← List.map_uncurry_zip_eq_zipWith]
  exact List.map_snd_zip (not_not.mp hlen).le

theorem projectionSchema_names (h : projectionSchema items = .ok schema) : names schema = items.map Prod.fst := by
  obtain ⟨inferred, -, h⟩ := bind_eq_ok.mp h
  exact renameSchema_names h

theorem projectionNode_names (h : projectionNode items child = .ok plan) : columnNames plan = items.map Prod.fst := by
  obtain ⟨schema, hschema, h⟩ := bind_eq_ok.mp h
  cases h
  exact projectionSchema_names hschema

theorem length_columnNames (plan : PlanNode) : (columnNames plan).length = (outputSchema plan).columns.length :=
  List.length_map _

end Schemas

/-! ## How many columns a statement has -/

section Lengths

variable {child plan plan' : PlanNode} {exprs exprs' : SelectExprs} {groupBy items : List BoundExpression}
  {columns : List (String × Expr)} {id id' : ℕ} {valueToString : Value → String}

theorem planSelectItems_length (h : planSelectItems child items id = .ok (columns, id')) :
    columns.length = items.length := by
  induction items generalizing columns id with
  | nil =>
    cases h
    rfl
  | cons item items ih =>
    obtain ⟨⟨name, expr⟩, -, h⟩ := bind_eq_ok.mp h
    obtain ⟨⟨rest, id₁⟩, hrest, h⟩ := bind_eq_ok.mp h
    cases h
    exact congrArg (· + 1) (ih hrest)

theorem planWindowItems_length {index : ℕ} {functions : List WindowFunction}
    (h : planWindowItems child index items id = .ok (columns, functions, id')) : columns.length = items.length := by
  induction items generalizing columns functions id index with
  | nil =>
    cases h
    rfl
  | cons item items ih =>
    obtain ⟨⟨column, function, id₁⟩, -, h⟩ := bind_eq_ok.mp h
    obtain ⟨⟨rest, functions', id₂⟩, hrest, h⟩ := bind_eq_ok.mp h
    cases h
    exact congrArg (· + 1) (ih hrest)

theorem planExpressions_length {children : List PlanNode} {ctx ctx' : PlannerContext}
    (h : planExpressions children items ctx = .ok (columns, ctx')) : columns.length = items.length := by
  induction items generalizing columns ctx with
  | nil =>
    cases h
    rfl
  | cons item items ih =>
    obtain ⟨⟨named, ctx₁⟩, -, h⟩ := bind_eq_ok.mp h
    obtain ⟨⟨rest, ctx₂⟩, hrest, h⟩ := bind_eq_ok.mp h
    cases h
    exact congrArg (· + 1) (ih hrest)

theorem projectionNode_length (h : projectionNode columns child = .ok plan) :
    (columnNames plan).length = columns.length := by
  rw [projectionNode_names h, List.length_map]

theorem planSelectAgg_length (h : planSelectAgg exprs groupBy child = .ok (plan, exprs')) :
    (columnNames plan).length = exprs.selectList.length := by
  obtain ⟨_, -, h⟩ := bind_eq_ok.mp h
  obtain ⟨_, -, h⟩ := bind_eq_ok.mp h
  obtain ⟨⟨selectList', ctx₃⟩, hselect, h⟩ := bind_eq_ok.mp h
  obtain ⟨_, -, h⟩ := bind_eq_ok.mp h
  obtain ⟨_, -, h⟩ := bind_eq_ok.mp h
  obtain ⟨_, -, h⟩ := bind_eq_ok.mp h
  obtain ⟨⟨items, ctx₆⟩, hitems, h⟩ := bind_eq_ok.mp h
  obtain ⟨out, hout, h⟩ := bind_eq_ok.mp h
  cases h
  have hnames := congrArg List.length (addAggCallsToContext_itemNames hselect)
  rw [List.length_map, List.length_map] at hnames
  rw [projectionNode_length hout, planExpressions_length hitems, hnames]

/-- A select list is planned to one column for each item. -/
theorem planSelectList_length (h : planSelectList valueToString exprs groupBy child id = .ok (plan, exprs', id')) :
    (columnNames plan).length = exprs.selectList.length := by
  obtain ⟨-, -, hplan⟩ | ⟨hplan, -⟩ | ⟨-, -, columns, hcolumns, hplan⟩ := planSelectList_cases h
  · obtain ⟨⟨columns, functions, id₁⟩, hcolumns, hplan⟩ := bind_eq_ok.mp hplan
    obtain ⟨_, -, hplan⟩ := bind_eq_ok.mp hplan
    obtain ⟨schema, hschema, hplan⟩ := bind_eq_ok.mp hplan
    cases hplan
    show (names schema).length = _
    rw [projectionSchema_names hschema, List.length_map, planWindowItems_length hcolumns]
  · exact planSelectAgg_length hplan
  · rw [projectionNode_length hplan, planSelectItems_length hcolumns]

theorem planDistinct_names (isDistinct : Bool) (plan : PlanNode) :
    columnNames (planDistinct isDistinct plan) = columnNames plan := by
  unfold planDistinct
  split_ifs <;> rfl

theorem planSort_names {sort : List BoundOrderBy} (h : planSort sort plan = .ok plan') :
    columnNames plan' = columnNames plan := by
  unfold planSort at h
  split_ifs at h
  · cases h
    rfl
  · obtain ⟨orderBys, -, h⟩ := bind_eq_ok.mp h
    cases h
    rfl

theorem planLimit_names {limitCount limitOffset : BoundExpression}
    (h : planLimit limitCount limitOffset plan = .ok plan') : columnNames plan' = columnNames plan := by
  obtain ⟨limit, -, h⟩ := bind_eq_ok.mp h
  obtain ⟨offset, -, h⟩ := bind_eq_ok.mp h
  cases offset with
  | some _ => cases h
  | none =>
    cases limit with
    | none =>
      cases h
      rfl
    | some limit =>
      cases h
      rfl

variable {catalog : Catalog} {depth : ℕ} {ctes : CTEScope} {statement : SelectStatement} {st st' : PlannerState}

/-- **A statement is planned to as many columns as its select list has items.** -/
theorem planSelect_length (h : planSelect catalog valueToString depth ctes statement st = .ok (plan, st')) :
    (columnNames plan).length = (st.heap statement.exprs).selectList.length := by
  cases depth with
  | zero => cases h
  | succ depth =>
    obtain ⟨⟨plan₁, st₁⟩, htable, h⟩ := bind_eq_ok.mp h
    obtain ⟨plan₂, -, h⟩ := bind_eq_ok.mp h
    obtain ⟨⟨plan₃, exprs, id⟩, hlist, h⟩ := bind_eq_ok.mp h
    obtain ⟨plan₄, hsort, h⟩ := bind_eq_ok.mp h
    obtain ⟨plan₅, hlimit, h⟩ := bind_eq_ok.mp h
    cases h
    rw [planLimit_names hlimit, planSort_names hsort, planDistinct_names, planSelectList_length hlist]
    -- the tables were planned first, and may have been planned through the same select list
    split at htable
    · cases htable
      rfl
    · have hnames := congrArg List.length (((plan_run depth).2 htable).itemNames statement.exprs)
      rwa [List.length_map, List.length_map] at hnames

end Lengths

/-! ## Table references -/

section TableRefs

theorem joinName_cons {name : List String} (h : name ≠ []) (first : String) :
    joinName (first :: name) = first ++ "." ++ joinName name :=
  String.intercalate_cons_of_ne_nil h

theorem joinName_pair (first second : String) : joinName [first, second] = first ++ "." ++ second := by
  rw [joinName_cons (List.cons_ne_nil _ _)]
  exact congrArg _ String.intercalate_singleton

variable {catalog : Catalog} {valueToString : Value → String} {depth : ℕ} {ctes ctes' : CTEScope}
  {st st' : PlannerState} {plan left right : PlanNode} {heap heap' : Heap} {subquery : BoundSubqueryRef}

/-- The columns of a scan are those of the table, with longer names. -/
theorem outputSchema_planBaseTableRef {table : String} {aliasName : Option String} {schema : Schema}
    (h : planBaseTableRef catalog table aliasName schema = .ok plan) :
    outputSchema plan = inferScanSchema (getBoundTableName table aliasName) schema := by
  unfold planBaseTableRef at h
  split at h
  · dsimp only at h
    split_ifs at h
    · cases h
      rfl
    · cases h
      rfl
  · cases h

theorem planBaseTableRef_names {table : String} {aliasName : Option String} {schema : Schema}
    (h : planBaseTableRef catalog table aliasName schema = .ok plan) :
    columnNames plan = schema.columns.map fun column => getBoundTableName table aliasName ++ "." ++ column.name := by
  rw [columnNames, outputSchema_planBaseTableRef h, names_inferScanSchema]

theorem joinNode_names {predicate : Expr} {joinType : JoinType} {columns columns' : List (List String)}
    (hl : columnNames left = columns.map joinName) (hr : columnNames right = columns'.map joinName) :
    columnNames (joinNode left right predicate joinType) = (columns ++ columns').map joinName := by
  rw [List.map_append, ← hl, ← hr]
  exact names_inferJoinSchema left right

/-- The projection over a subquery has the names of the select list behind its alias. -/
theorem subqueryNode_names {aliasName : String} {selectListName : List (List String)} {selectNode : PlanNode}
    (hlen : (columnNames selectNode).length = selectListName.length)
    (h : subqueryNode aliasName selectListName selectNode = .ok plan) :
    columnNames plan = selectListName.map fun name => aliasName ++ "." ++ joinName name := by
  obtain ⟨items, hitems, h⟩ := bind_eq_ok.mp h
  rw [projectionNode_names h]
  obtain ⟨hlength, hitem⟩ := List.forall₂_iff_get.mp (forall₂_of_mapM_eq_ok hitems)
  rw [List.length_zipIdx, ← length_columnNames, hlen] at hlength
  refine List.ext_getElem ?_ ?_
  · rw [List.length_map, List.length_map, hlength]
  · intro i hi hi'
    rw [List.length_map] at hi hi'
    have hcolumn := hitem i (by rwa [List.length_zipIdx, ← length_columnNames, hlen]) hi
    simp only [List.get_eq_getElem, List.getElem_zipIdx, Nat.zero_add, subqueryItem] at hcolumn
    rw [List.getElem?_eq_getElem hi'] at hcolumn
    rw [List.getElem_map, List.getElem_map, ← Except.ok.inj hcolumn]

theorem plan_subquery_names {aliasName : String} (hnamed : subquery.Named st.heap) {selectNode : PlanNode}
    (hselect : planSelect catalog valueToString depth ctes subquery.subquery st = .ok (selectNode, st'))
    (h : subqueryNode aliasName subquery.selectListName selectNode = .ok plan) :
    columnNames plan = (subquery.selectListName.map (aliasName :: ·)).map joinName := by
  rw [subqueryNode_names ((planSelect_length hselect).trans hnamed.length_eq.symm) h, List.map_map]
  refine List.map_congr_left ?_
  intro name hname
  exact (joinName_cons (hnamed.ne_nil hname) aliasName).symm

theorem named_append {l r ref : BoundTableRef} (htables : tables ref = tables l ++ tables r)
    (h : Named heap ctes ref) : Named heap ctes l ∧ Named heap ctes r := by
  constructor
  · intro table htable
    exact h table (htables ▸ List.mem_append_left _ htable)
  · intro table htable
    exact h table (htables ▸ List.mem_append_right _ htable)

theorem sameCTEs_append {l r ref : BoundTableRef} (htables : tables ref = tables l ++ tables r)
    (h : SameCTEs ctes ctes' ref) : SameCTEs ctes ctes' l ∧ SameCTEs ctes ctes' r := by
  constructor
  · intro cteName aliasName htable
    exact h cteName aliasName (htables ▸ List.mem_append_left _ htable)
  · intro cteName aliasName htable
    exact h cteName aliasName (htables ▸ List.mem_append_right _ htable)

/-- Planning leaves the names of the subqueries what they are. -/
theorem named_congr {ref : BoundTableRef} (h : Named heap ctes ref)
    (heq : ∀ a, (heap' a).selectList.map itemName = (heap a).selectList.map itemName) : Named heap' ctes ref := by
  intro table htable
  have hnamed := h table htable
  cases table with
  | subquery subquery => exact BoundSubqueryRef.Named.congr hnamed (heq _)
  | cte cteName aliasName => exact fun cte hfind => (hnamed cte hfind).congr (heq _)
  | _ => trivial

/-- **The columns of a plan have the names that `GetAllColumns` gives them.** -/
theorem planTableRef_names : ∀ (ref : BoundTableRef) {depth : ℕ} {st st' : PlannerState} {plan : PlanNode}
    {columns : List (List String)}, Named st.heap ctes ref → SameCTEs ctes ctes' ref →
    planTableRef catalog valueToString depth ctes' ref st = .ok (plan, st') → getAllColumns ctes ref = .ok columns →
    columnNames plan = columns.map joinName
  | _, 0, _, _, _, _, _, _, h, _ => nomatch h
  | .crossProduct left right, depth + 1, st, st', plan, columns, hnamed, hsame, h, hall => by
    obtain ⟨⟨leftPlan, st₁⟩, hleft, h⟩ := bind_eq_ok.mp h
    obtain ⟨⟨rightPlan, st₂⟩, hright, h⟩ := bind_eq_ok.mp h
    cases h
    obtain ⟨cols, hcols, hall⟩ := bind_eq_ok.mp hall
    obtain ⟨cols', hcols', hall⟩ := bind_eq_ok.mp hall
    cases hall
    obtain ⟨hnamedl, hnamedr⟩ := named_append rfl hnamed
    obtain ⟨hsamel, hsamer⟩ := sameCTEs_append rfl hsame
    have hnamedr' := named_congr hnamedr ((plan_run depth).2 hleft).itemNames
    exact joinNode_names (planTableRef_names left hnamedl hsamel hleft hcols)
      (planTableRef_names right hnamedr' hsamer hright hcols')
  | .join joinType left right condition, depth + 1, st, st', plan, columns, hnamed, hsame, h, hall => by
    obtain ⟨⟨leftPlan, st₁⟩, hleft, h⟩ := bind_eq_ok.mp h
    obtain ⟨⟨rightPlan, st₂⟩, hright, h⟩ := bind_eq_ok.mp h
    obtain ⟨_, -, h⟩ := bind_eq_ok.mp h
    cases h
    obtain ⟨cols, hcols, hall⟩ := bind_eq_ok.mp hall
    obtain ⟨cols', hcols', hall⟩ := bind_eq_ok.mp hall
    cases hall
    obtain ⟨hnamedl, hnamedr⟩ := named_append rfl hnamed
    obtain ⟨hsamel, hsamer⟩ := sameCTEs_append rfl hsame
    have hnamedr' := named_congr hnamedr ((plan_run depth).2 hleft).itemNames
    exact joinNode_names (planTableRef_names left hnamedl hsamel hleft hcols)
      (planTableRef_names right hnamedr' hsamer hright hcols')
  | .baseTable table oid aliasName schema, depth + 1, st, st', plan, columns, hnamed, hsame, h, hall => by
    obtain ⟨basePlan, hbase, h⟩ := bind_eq_ok.mp h
    cases h
    cases hall
    rw [planBaseTableRef_names hbase, List.map_map]
    refine List.map_congr_left ?_
    intro column hcolumn
    exact (joinName_pair _ _).symm
  | .subquery subquery, depth + 1, st, st', plan, columns, hnamed, hsame, h, hall => by
    obtain ⟨⟨selectNode, st₁⟩, hselect, h⟩ := bind_eq_ok.mp h
    obtain ⟨_, hnode, h⟩ := bind_eq_ok.mp h
    cases h
    cases hall
    exact plan_subquery_names (hnamed _ (.head _)) hselect hnode
  | .cte cteName aliasName, depth + 1, st, st', plan, columns, hnamed, hsame, h, hall => by
    obtain ⟨cte, hfind, h⟩ := bind_eq_ok.mp h
    obtain ⟨⟨selectNode, st₁⟩, hselect, h⟩ := bind_eq_ok.mp h
    obtain ⟨_, hnode, h⟩ := bind_eq_ok.mp h
    cases h
    rw [hsame cteName aliasName (.head _)] at hfind
    obtain ⟨cte', hfind', hall⟩ := bind_eq_ok.mp hall
    cases hfind.symm.trans hfind'
    cases hall
    rw [plan_subquery_names (hnamed _ (.head _) cte hfind) hselect hnode]
    have hset : (subqueryColumns cte).map (fun columnRef => columnRef.set 0 aliasName) =
        cte.selectListName.map (aliasName :: ·) := by
      rw [subqueryColumns, List.map_map]
      rfl
    rw [hset]
  | .empty, _ + 1, _, _, _, _, _, _, _, hall => nomatch hall
  | .expressionList _ _, _ + 1, _, _, _, _, _, _, _, hall => nomatch hall

end TableRefs

/-! ## Finding a column -/

section Finding

variable {schema : Schema} {name : List String} {colName : String} {plan left right : PlanNode}

/-- What the loop against duplicates throws. -/
def duplicated : Fault := .exception .invalid "duplicated column found in schema"

theorem noDuplicate_eq (colName : String) (columns : List Column) (found : Bool) :
    noDuplicate colName columns found =
      if (columns.map Column.name).count colName + found.toNat ≤ 1 then .ok () else .error duplicated := by
  induction columns generalizing found with
  | nil =>
    rw [List.map_nil, List.count_nil, if_pos (by cases found <;> decide)]
    rfl
  | cons column columns ih =>
    rw [noDuplicate, List.map_cons, List.count_cons]
    by_cases heq : colName = column.name
    · rw [if_pos heq, if_pos (beq_iff_eq.mpr heq.symm)]
      cases found with
      | false => exact ih true
      | true =>
        rw [if_pos rfl, if_neg (by simp only [Bool.toNat_true]; omega)]
        rfl
    · rw [if_neg heq, ih, if_neg (fun h => heq (beq_iff_eq.mp h).symm), Nat.add_zero]

theorem tryGetColIdx_eq_none : tryGetColIdx schema colName = none ↔ colName ∉ names schema := by
  unfold tryGetColIdx names
  rw [List.findIdx?_eq_none_iff, List.mem_map, not_exists]
  constructor
  · rintro h column ⟨hcolumn, rfl⟩
    exact of_decide_eq_false (h column hcolumn) rfl
  · intro h column hcolumn
    exact decide_eq_false fun heq => h column ⟨hcolumn, heq⟩

/-- A column is found where it stands. -/
theorem tryGetColIdx_of_mem (h : colName ∈ names schema) :
    ∃ i column, tryGetColIdx schema colName = some i ∧ schema.columns[i]? = some column ∧ column.name = colName := by
  cases hfind : tryGetColIdx schema colName with
  | none => exact absurd h (tryGetColIdx_eq_none.mp hfind)
  | some i =>
    obtain ⟨hi, hname, -⟩ := List.findIdx?_eq_some_iff_getElem.mp hfind
    exact ⟨i, schema.columns[i], rfl, List.getElem?_eq_getElem hi, of_decide_eq_true hname⟩

/-- `PlanColumnRef` over one plan finds a name that occurs once, and refuses one that occurs more often. -/
theorem planColumnRef_of_mem (h : joinName name ∈ columnNames plan) :
    if (columnNames plan).count (joinName name) = 1 then
      ∃ i column, (outputSchema plan).columns[i]? = some column ∧ column.name = joinName name ∧
        planColumnRef name [plan] = .ok (joinName name, .columnValue 0 i column)
    else planColumnRef name [plan] = .error duplicated := by
  have hpos : 1 ≤ (columnNames plan).count (joinName name) := List.count_pos_iff.mpr h
  have hdup : noDuplicate (joinName name) (outputSchema plan).columns false =
      if (columnNames plan).count (joinName name) ≤ 1 then .ok () else .error duplicated := noDuplicate_eq _ _ false
  split_ifs with hone
  · obtain ⟨i, column, hidx, hcolumn, hname⟩ := tryGetColIdx_of_mem h
    refine ⟨i, column, hcolumn, hname, ?_⟩
    rw [if_pos hone.le] at hdup
    simp only [planColumnRef, hdup, ok_bind, getColIdx, hidx, columnOf, hcolumn]
    rfl
  · rw [if_neg fun hle => hone (le_antisymm hle hpos)] at hdup
    simp only [planColumnRef, hdup, error_bind]

/-- `PlanColumnRef` over the two sides of a join finds a name that occurs once in them. -/
theorem planColumnRef_sides (h : (columnNames left ++ columnNames right).count (joinName name) = 1) :
    ∃ expr, planColumnRef name [left, right] = .ok (joinName name, expr) := by
  rw [List.count_append] at h
  by_cases hl : joinName name ∈ columnNames left
  · have hr : joinName name ∉ columnNames right := by
      intro hr
      have hl' := List.count_pos_iff.mpr hl
      have hr' := List.count_pos_iff.mpr hr
      omega
    obtain ⟨i, column, hidx, hcolumn, -⟩ := tryGetColIdx_of_mem hl
    refine ⟨.columnValue 0 i column, ?_⟩
    simp only [planColumnRef, hidx, tryGetColIdx_eq_none.mpr hr, columnOf, hcolumn]
    rfl
  · have hr : joinName name ∈ columnNames right := by
      rw [List.count_eq_zero_of_not_mem hl, Nat.zero_add] at h
      exact List.count_pos_iff.mp (h ▸ Nat.one_pos)
    obtain ⟨i, column, hidx, hcolumn, -⟩ := tryGetColIdx_of_mem hr
    refine ⟨.columnValue 1 i column, ?_⟩
    simp only [planColumnRef, hidx, tryGetColIdx_eq_none.mpr hl, columnOf, hcolumn]
    rfl

/-- `PlanColumnRef` finds the column in the plan, and in the two sides of it if the plan is a join. -/
structure Found (plan : PlanNode) (name : List String) : Prop where
  once : (columnNames plan).count (joinName name) = 1
  planned : ∃ i column, (outputSchema plan).columns[i]? = some column ∧ column.name = joinName name ∧
    planColumnRef name [plan] = .ok (joinName name, .columnValue 0 i column)
  sides : ∀ left right predicate joinType, plan = joinNode left right predicate joinType →
    ∃ expr, planColumnRef name [left, right] = .ok (joinName name, expr)

theorem Found.of_once (h : (columnNames plan).count (joinName name) = 1) : Found plan name := by
  refine ⟨h, ?_, ?_⟩
  · have hmem := planColumnRef_of_mem (List.count_pos_iff.mp (h ▸ Nat.one_pos))
    rwa [if_pos h] at hmem
  · rintro left right predicate joinType rfl
    refine planColumnRef_sides ?_
    rwa [← names_inferJoinSchema]

variable {catalog : Catalog} {valueToString : Value → String} {depth : ℕ} {ctes ctes' : CTEScope}
  {ref : BoundTableRef} {st st' : PlannerState}

/-- **The columns of a plan have the names that `SELECT *` gives them, in their order; and what the binder returns
for a name or for `*` is found in the plan if no other column shares its full name, and is refused as duplicated
if one does.** -/
theorem columns_agree (hnamed : Named st.heap ctes ref) (hsame : SameCTEs ctes ctes' ref)
    (hplan : planTableRef catalog valueToString depth ctes' ref st = .ok (plan, st')) :
    (∀ columns, getAllColumns ctes ref = .ok columns → columnNames plan = columns.map joinName) ∧
    ∀ name, Returns ctes ref name → ∃ columns, getAllColumns ctes ref = .ok columns ∧ name ∈ columns ∧
      ((columns.map joinName).count (joinName name) = 1 → Found plan name) ∧
      ((columns.map joinName).count (joinName name) ≠ 1 → planColumnRef name [plan] = .error duplicated) := by
  have hnames : ∀ columns, getAllColumns ctes ref = .ok columns → columnNames plan = columns.map joinName :=
    fun columns hcolumns => planTableRef_names ref hnamed hsame hplan hcolumns
  refine ⟨hnames, ?_⟩
  intro name hreturns
  obtain ⟨columns, hcolumns, hmem⟩ := hreturns.mem
  refine ⟨columns, hcolumns, hmem, ?_, ?_⟩
  · intro honce
    rw [← hnames columns hcolumns] at honce
    exact .of_once honce
  · intro hmore
    have hname : joinName name ∈ columnNames plan := by
      rw [hnames columns hcolumns]
      exact List.mem_map_of_mem hmem
    have hplanned := planColumnRef_of_mem hname
    rw [← hnames columns hcolumns] at hmore
    rwa [if_neg hmore] at hplanned

/-- The statement of a select list with nothing else. -/
def selectOnly (exprs : ℕ) : SelectStatement := ⟨exprs, .empty, .invalid, [], .invalid, .invalid, [], [], false⟩

/-- The select lists of `SELECT 1 AS x`, `SELECT 2 AS y`, `SELECT 1 AS x, 2 AS x` and `SELECT x FROM c`. -/
def aliased : Heap
  | 0 => ⟨.invalid, [.alias_ "x" (.constant (.integer 1))]⟩
  | 1 => ⟨.invalid, [.alias_ "y" (.constant (.integer 2))]⟩
  | 2 => ⟨.invalid, [.alias_ "x" (.constant (.integer 1)), .alias_ "x" (.constant (.integer 2))]⟩
  | _ => ⟨.invalid, [.columnRef ["c", "x"] (by decide)]⟩

/-- What the binder makes of the statements as subqueries. -/
def aliasedRef (exprs : ℕ) (aliasName : String) : BoundSubqueryRef :=
  (bindSubquery aliased (selectOnly exprs) aliasName 0).1

theorem named_aliasedRef (exprs : ℕ) (aliasName : String) : (aliasedRef exprs aliasName).Named aliased := ⟨0, rfl⟩

/-- `FROM c, (SELECT 2 AS y) s`. -/
def twoTables : BoundTableRef := .crossProduct (.cte "c" "c") (.subquery (aliasedRef 1 "s"))

/-- `WITH c AS (SELECT 1 AS x) … FROM c, (SELECT 2 AS y) s`: the names `x` and `s.y` are found in the plan. -/
theorem columns_agree_cross : ∃ plan st',
    planTableRef .new (fun _ => "") 3 (some [aliasedRef 0 "c"]) twoTables ⟨aliased, 0⟩ = .ok (plan, st') ∧
    Found plan ["c", "x"] ∧ Found plan ["s", "y"] := by
  have hnamed : Named aliased (some [aliasedRef 0 "c"]) twoTables := by
    intro table htable
    rcases List.mem_pair.mp htable with rfl | rfl
    · intro cte hfind
      cases hfind
      exact named_aliasedRef 0 "c"
    · exact named_aliasedRef 1 "s"
  obtain ⟨⟨plan, st'⟩, hplan⟩ : ∃ out,
      planTableRef .new (fun _ => "") 3 (some [aliasedRef 0 "c"]) twoTables ⟨aliased, 0⟩ = .ok out := ⟨_, rfl⟩
  refine ⟨plan, st', hplan, ?_⟩
  obtain ⟨-, hfound⟩ := columns_agree hnamed (fun _ _ _ => rfl) hplan
  have hx : resolveColumn (some [aliasedRef 0 "c"]) twoTables ["x"] = .ok ["c", "x"] := by decide +kernel
  have hy : resolveColumn (some [aliasedRef 0 "c"]) twoTables ["s", "y"] = .ok ["s", "y"] := by decide +kernel
  obtain ⟨_, hcolumns, -, hfoundx, -⟩ := hfound _ (.name hx (.head _) (by decide +kernel) (fun h => h rfl))
  cases hcolumns
  obtain ⟨_, hcolumns, -, hfoundy, -⟩ := hfound _ (.name hy (.tail _ (.head _)) (by decide +kernel) id)
  cases hcolumns
  exact ⟨hfoundx (by decide +kernel), hfoundy (by decide +kernel)⟩

/-- Whatever the binder returns on the reference is the name of exactly one column of the plan. -/
def NamesOneColumn (catalog : Catalog) (valueToString : Value → String) (ctes ctes' : CTEScope) (ref : BoundTableRef)
    (st : PlannerState) : Prop :=
  ∀ depth plan st' name, planTableRef catalog valueToString depth ctes' ref st = .ok (plan, st') →
    (∃ columns, getAllColumns ctes ref = .ok columns ∧ name ∈ columns) ∨
      (∃ colName, resolveColumn ctes ref colName = .ok name) →
    (columnNames plan).count (joinName name) = 1

theorem not_namesOneColumn {planned : List String}
    (hplan : (planTableRef catalog valueToString depth ctes' ref st).map (fun out => columnNames out.1) = .ok planned)
    (hreturns : (∃ columns, getAllColumns ctes ref = .ok columns ∧ name ∈ columns) ∨
      (∃ colName, resolveColumn ctes ref colName = .ok name))
    (hcount : planned.count (joinName name) ≠ 1) : ¬ NamesOneColumn catalog valueToString ctes ctes' ref st := by
  intro hclaim
  cases hout : planTableRef catalog valueToString depth ctes' ref st with
  | error e =>
    rw [hout] at hplan
    cases hplan
  | ok out =>
    rw [hout] at hplan
    cases hplan
    exact hcount (hclaim depth out.1 out.2 name hout hreturns)

/-- `WITH d AS (SELECT x FROM c), c AS (SELECT 2 AS y)`, where the first `c` is one of an outer statement. -/
def innerCTEs : CTEScope :=
  some [(bindSubquery aliased { selectOnly 3 with table := .cte "c" "c" } "d" 0).1, aliasedRef 1 "c"]

/-- `SELECT * FROM (SELECT 1 AS x, 2 AS x) s` has two columns of one name.  The column of
`WITH c AS (SELECT 1 AS x) SELECT x FROM c AS d` is `c.x` to the binder and `d.x` to the planner.  In
`WITH c AS (SELECT 1 AS x) SELECT * FROM (WITH d AS (SELECT x FROM c), c AS (SELECT 2 AS y) SELECT * FROM d) s`
the binder reads `x` from the outer `c`, and the planner finds the inner one in its place. -/
theorem names_not_unique :
    (Named aliased none (.subquery (aliasedRef 2 "s")) ∧
      ¬ NamesOneColumn .new (fun _ => "") none none (.subquery (aliasedRef 2 "s")) ⟨aliased, 0⟩) ∧
    (Named aliased (some [aliasedRef 0 "c"]) (.cte "c" "d") ∧
      ¬ NamesOneColumn .new (fun _ => "") (some [aliasedRef 0 "c"]) (some [aliasedRef 0 "c"]) (.cte "c" "d")
        ⟨aliased, 0⟩) ∧
    (Named aliased (some [aliasedRef 0 "c"]) (.cte "c" "c") ∧
      ¬ NamesOneColumn .new (fun _ => "") (some [aliasedRef 0 "c"]) innerCTEs (.cte "c" "c") ⟨aliased, 0⟩) := by
  have hcte : ∀ aliasName, Named aliased (some [aliasedRef 0 "c"]) (.cte "c" aliasName) := by
    intro aliasName table htable
    cases List.mem_singleton.mp htable
    intro cte hfind
    cases hfind
    exact named_aliasedRef 0 "c"
  have hsubquery : Named aliased none (.subquery (aliasedRef 2 "s")) := by
    intro table htable
    cases List.mem_singleton.mp htable
    exact named_aliasedRef 2 "s"
  have hx : ∀ aliasName, resolveColumn (some [aliasedRef 0 "c"]) (.cte "c" aliasName) ["x"] = .ok ["c", "x"] :=
    fun _ => rfl
  refine ⟨⟨hsubquery, ?_⟩, ⟨hcte "d", ?_⟩, ⟨hcte "c", ?_⟩⟩
  · have hplan : (planTableRef .new (fun _ => "") 2 none (.subquery (aliasedRef 2 "s")) ⟨aliased, 0⟩).map
        (fun out => columnNames out.1) = .ok ["s.x", "s.x"] := by decide +kernel
    exact not_namesOneColumn hplan (.inl ⟨_, rfl, .head _⟩) (by decide +kernel)
  · have hplan : (planTableRef .new (fun _ => "") 2 (some [aliasedRef 0 "c"]) (.cte "c" "d") ⟨aliased, 0⟩).map
        (fun out => columnNames out.1) = .ok ["d.x"] := by decide +kernel
    exact not_namesOneColumn hplan (.inr ⟨_, hx "d"⟩) (by decide +kernel)
  · have hplan : (planTableRef .new (fun _ => "") 2 innerCTEs (.cte "c" "c") ⟨aliased, 0⟩).map
        (fun out => columnNames out.1) = .ok ["c.y"] := by decide +kernel
    exact not_namesOneColumn hplan (.inr ⟨_, hx "c"⟩) (by decide +kernel)

end Finding

end Journey.Planner
