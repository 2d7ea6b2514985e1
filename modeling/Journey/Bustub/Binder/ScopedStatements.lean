import Journey.Bustub.Binder.Scoping

/-!
# Journey.Bustub.Binder.ScopedStatements — what the binder returns is scoped

* `Frame`: what a function of the binder leaves as it was.
* `visible_of_resolve`, `visible_of_getAllColumns`: the names that the binder gives to columns are visible.
* `bindTableRef_meets`, `bindSelect_meets`: one lemma for each function, along the recursion.
-/

namespace Journey.Binder

open SqlType Catalog Optimizer Planner

/-! ## What a function leaves as it was -/

section Frames

/-- Names are generated and statements are made; those that were there stay. -/
structure Grows (st st' : BinderState) : Prop where
  universalId : st.universalId ≤ st'.universalId
  next : st.next ≤ st'.next
  heap : ∀ a < st.next, st'.heap a = st.heap a

/-- And the scopes are what they were. -/
structure Frame (st st' : BinderState) : Prop extends Grows st st' where
  scope : st'.scope = st.scope
  cteScope : st'.cteScope = st.cteScope

/-- The CTEs in scope are subqueries that the binder has made. -/
def Good (st : BinderState) : Prop := ∀ list ∈ st.cteScope, ∀ cte ∈ list, NamedIn st.heap st.next cte

variable {st st₁ st₂ : BinderState} {catalog : Catalog} {ctes : CTEScope} {table : BoundTableRef}
  {statement : SelectStatement} {ref : BoundSubqueryRef}

theorem Grows.refl (st : BinderState) : Grows st st := ⟨le_refl _, le_refl _, fun _ _ => rfl⟩

theorem Grows.trans (h : Grows st st₁) (h' : Grows st₁ st₂) : Grows st st₂ :=
  ⟨h.universalId.trans h'.universalId, h.next.trans h'.next,
    fun a ha => (h'.heap a (ha.trans_le h.next)).trans (h.heap a ha)⟩

theorem Frame.refl (st : BinderState) : Frame st st := ⟨.refl st, rfl, rfl⟩

theorem Frame.trans (h : Frame st st₁) (h' : Frame st₁ st₂) : Frame st st₂ :=
  ⟨h.toGrows.trans h'.toGrows, h'.scope.trans h.scope, h'.cteScope.trans h.cteScope⟩

theorem Grows.good (h : Grows st st₁) (hctes : st₁.cteScope = st.cteScope) (hst : Good st) : Good st₁ := by
  intro list hlist cte hcte
  rw [hctes] at hlist
  exact (hst list hlist cte hcte).mono h.next h.heap

theorem Grows.scopedTable (h : Grows st st₁) (ht : RefScoped catalog st.heap st.next ctes table) :
    RefScoped catalog st₁.heap st₁.next ctes table := ht.mono h.next h.heap

theorem Grows.scopedStatement (h : Grows st st₁) (hs : StatementScoped catalog st.heap st.next ctes statement) :
    StatementScoped catalog st₁.heap st₁.next ctes statement := hs.mono h.next h.heap

theorem Grows.named (h : Grows st st₁) (hn : NamedIn st.heap st.next ref) : NamedIn st₁.heap st₁.next ref :=
  hn.mono h.next h.heap

theorem frame_generateName (stem : String) (st : BinderState) : Frame st (generateName stem st).2 :=
  ⟨⟨Nat.le_succ _, le_refl _, fun _ _ => rfl⟩, rfl, rfl⟩

theorem frame_makeStatement (st : BinderState) (exprs : SelectExprs) : Frame st (makeStatement st exprs).2 :=
  ⟨⟨le_refl _, Nat.le_succ _, fun _ ha => Function.update_of_ne ha.ne _ _⟩, rfl, rfl⟩

theorem made_makeStatement (st : BinderState) (exprs : SelectExprs) :
    (makeStatement st exprs).1 < (makeStatement st exprs).2.next ∧
      (makeStatement st exprs).2.heap (makeStatement st exprs).1 = exprs :=
  ⟨Nat.lt_succ_self _, Function.update_self _ _ _⟩

theorem selectListNames_le (items : List (Option (List String))) (id : ℕ) : id ≤ (selectListNames items id).2 := by
  induction items generalizing id with
  | nil => exact le_refl _
  | cons item items ih =>
    cases item with
    | some name => exact ih id
    | none => exact (Nat.le_succ id).trans (ih (id + 1))

theorem frame_nameSubquery (statement : SelectStatement) (aliasName : String) (st : BinderState) :
    Frame st (nameSubquery statement aliasName st).2 :=
  ⟨⟨selectListNames_le _ _, le_refl _, fun _ _ => rfl⟩, rfl, rfl⟩

/-- The subquery has the names that `BindSubquery` gives it. -/
theorem named_nameSubquery (hs : StatementScoped catalog st.heap st.next ctes statement) (aliasName : String) :
    NamedIn (nameSubquery statement aliasName st).2.heap (nameSubquery statement aliasName st).2.next
      (nameSubquery statement aliasName st).1 := by
  refine ⟨⟨st.universalId, rfl⟩, ?_⟩
  show statement.exprs < st.next
  cases hs with
  | values hmade _ _ _ _ => exact hmade
  | select hmade _ _ _ _ => exact hmade

variable {α : Type} {Q : α → BinderState → Prop} {E : Fault → Prop}

/-- **The guard**: whatever is done inside, the scopes are what they were. -/
theorem newContext_meets {body : BinderState → Except Fault (α × BinderState)}
    (hQ : ∀ a st₁ st₂, Grows st₁ st₂ → Q a st₁ → Q a st₂)
    (h : Meets (body { st with scope := none }) (fun r => Grows st r.2 ∧ Q r.1 r.2) E) :
    Meets (newContext st body) (fun r => Frame st r.2 ∧ Q r.1 r.2) E := by
  refine Meets.bind h ?_
  rintro ⟨a, st₁⟩ ⟨hgrows, hq⟩
  refine ⟨⟨⟨hgrows.universalId, hgrows.next, hgrows.heap⟩, rfl, rfl⟩, hQ a st₁ _ ?_ hq⟩
  exact ⟨le_refl _, le_refl _, fun _ _ => rfl⟩

end Frames

/-! ## Columns in scope -/

section Columns

/-- A name all of whose parts have a text. -/
def Legible (c : PGField × List PGField) : Prop := ∀ field ∈ c.2, ∃ str, field = .string str

/-- `*`, or something else that is not a name. -/
def Nameless (c : PGField × List PGField) : Prop := ∀ str, c.1 ≠ .string str

variable {catalog : Catalog} {heap : Heap} {bound : ℕ} {ctes : CTEScope} {table : BoundTableRef} {E : Fault → Prop}
  {P : List String → Prop}

theorem boundColumnRef_meets {colName : List String} (hlong : 2 ≤ colName.length) (hP : P colName) :
    Meets (boundColumnRef colName) (Scoped P) E := by
  unfold boundColumnRef
  rw [dif_pos hlong]
  exact hP

theorem fieldNames_meets {c : PGField × List PGField} :
    Meets (c.2.mapM fieldName) (fun _ => True) (fun _ => ¬ Legible c) := by
  have hfield : ∀ field ∈ c.2, Meets (fieldName field) (fun _ => True) (fun _ => ¬ Legible c) := by
    intro field hfield
    cases field with
    | string str => trivial
    | _ =>
      intro hlegible
      obtain ⟨str, hstr⟩ := hlegible _ hfield
      cases hstr
  exact (Meets.mapM hfield).imp (fun _ _ => trivial) (fun _ he => he)

/-- `*` stands for visible names. -/
theorem visible_of_getAllColumns : ∀ (ref : BoundTableRef) {columns : List (List String)} {name : List String},
    getAllColumns ctes ref = .ok columns → name ∈ columns → Visible ctes ref name
  | .baseTable _ _ _ _, columns, name, h, hname => by
    cases h
    obtain ⟨column, hcolumn, rfl⟩ := List.mem_map.mp hname
    exact ⟨column, hcolumn, rfl⟩
  | .crossProduct left right, columns, name, h, hname => by
    obtain ⟨cols, hleft, h⟩ := bind_eq_ok.mp h
    obtain ⟨cols', hright, h⟩ := bind_eq_ok.mp h
    cases h
    exact (List.mem_append.mp hname).imp (visible_of_getAllColumns left hleft) (visible_of_getAllColumns right hright)
  | .join _ left right _, columns, name, h, hname => by
    obtain ⟨cols, hleft, h⟩ := bind_eq_ok.mp h
    obtain ⟨cols', hright, h⟩ := bind_eq_ok.mp h
    cases h
    exact (List.mem_append.mp hname).imp (visible_of_getAllColumns left hleft) (visible_of_getAllColumns right hright)
  | .subquery _, columns, name, h, hname => by
    cases h
    obtain ⟨own, hown, rfl⟩ := List.mem_map.mp hname
    exact ⟨own, hown, rfl⟩
  | .cte _ _, columns, name, h, hname => by
    obtain ⟨cte, hfind, h⟩ := bind_eq_ok.mp h
    cases h
    obtain ⟨columnRef, hcolumn, rfl⟩ := List.mem_map.mp hname
    obtain ⟨own, hown, rfl⟩ := List.mem_map.mp hcolumn
    exact ⟨cte, hfind, own, hown, .inr rfl⟩
  | .empty, _, _, h, _ => nomatch h
  | .expressionList _ _, _, _, h, _ => nomatch h

theorem visible_of_sides {colName name : List String} {x y : Except Fault (Option (List String))}
    (h : (x >>= fun left => y >>= fun right => eitherSide colName left right) = .ok (some name)) :
    x = .ok (some name) ∨ y = .ok (some name) := by
  obtain ⟨left, hleft, h⟩ := bind_eq_ok.mp h
  obtain ⟨right, hright, h⟩ := bind_eq_ok.mp h
  cases left with
  | none =>
    cases h
    exact .inr hright
  | some leftName =>
    cases right with
    | none =>
      cases h
      exact .inl hleft
    | some rightName => cases h

/-- A name of the query is resolved to a visible one. -/
theorem visible_of_resolve {colName : List String} : ∀ (ref : BoundTableRef) {name : List String},
    resolveColumnInternal ctes ref colName = .ok (some name) → Visible ctes ref name
  | .baseTable _ _ _ _, name, h => by
    obtain ⟨_, rest, hrest, rfl⟩ := resolveEither_eq_ok h
    obtain ⟨column, hcolumn, rfl⟩ := mem_of_resolveColumnRefFromSchema hrest
    exact ⟨column, hcolumn, rfl⟩
  | .crossProduct left right, name, h =>
    (visible_of_sides h).imp (visible_of_resolve left) (visible_of_resolve right)
  | .join _ left right _, name, h =>
    (visible_of_sides h).imp (visible_of_resolve left) (visible_of_resolve right)
  | .subquery _, name, h => by
    obtain ⟨own, hown, rfl⟩ := List.mem_map.mp (mem_of_resolveColumnRefFromSubqueryRef h)
    exact ⟨own, hown, rfl⟩
  | .cte _ _, name, h => by
    obtain ⟨cte, hfind, h⟩ := bind_eq_ok.mp h
    obtain ⟨own, hown, rfl⟩ := List.mem_map.mp (mem_of_resolveColumnRefFromSubqueryRef h)
    exact ⟨cte, hfind, own, hown, .inl (by rw [findCTE_alias hfind])⟩
  | .empty, _, h => nomatch h
  | .expressionList _ _, _, h => nomatch h

theorem visible_of_resolveColumn {colName name : List String} (h : resolveColumn ctes table colName = .ok name) :
    Visible ctes table name := by
  obtain ⟨found, hfound, h⟩ := bind_eq_ok.mp h
  cases found with
  | none => cases h
  | some columnRef =>
    cases h
    exact visible_of_resolve table hfound

/-- **A column in scope** is bound to a visible name. -/
theorem bindColumnRef_meets (h : RefScoped catalog heap bound ctes table) (c : PGField × List PGField) :
    Meets (bindColumnRef (some table) ctes c.1 c.2) (Scoped (Visible ctes table)) (fun e => Legible c → Thrown e) := by
  unfold bindColumnRef
  split
  · rename_i str _
    refine Meets.bind (fieldNames_meets.imp (fun _ hnames => hnames) fun e he hlegible => absurd hlegible he) ?_
    intro names _
    have hresolve := resolveColumn_meets h (str :: names)
    show Meets (resolveColumn ctes table (str :: names) >>= boundColumnRef) _ _
    cases hname : resolveColumn ctes table (str :: names) with
    | error e => exact fun _ => hresolve.of_error hname
    | ok name => exact boundColumnRef_meets (hresolve.of_ok hname) (visible_of_resolveColumn hname)
  · trivial
  · exact fun _ => trivial

/-- Where there is no scope, no column can be bound. -/
theorem bindColumnRef_none (c : PGField × List PGField) :
    Meets (bindColumnRef none ctes c.1 c.2) (Scoped fun _ => False) (fun e => Nameless c → Thrown e) := by
  unfold bindColumnRef
  split
  · rename_i str hstr
    refine Meets.bind (P := fun _ => True) ?_ ?_
    · exact fieldNames_meets.imp (fun _ hnames => hnames) fun _ _ hnameless => absurd hstr (hnameless str)
    · intro names _ hnameless
      exact absurd hstr (hnameless str)
  · trivial
  · exact fun _ => trivial

end Columns

/-! ## Clauses and `VALUES` lists -/

section Clauses

mutual

/-- No `VALUES` list names a column, and all the names have texts. -/
def PGTableNode.Plain : PGTableNode → Prop
  | .rangeVar _ _ => True
  | .joinExpr _ larg rarg quals => larg.Plain ∧ rarg.Plain ∧ ∀ c ∈ columnsOfOption quals, Legible c
  | .rangeSubselect _ subquery _ => subquery.Plain
  | .other _ => True

def PlainTables : List PGTableNode → Prop
  | [] => True
  | node :: nodes => node.Plain ∧ PlainTables nodes

def PlainCTEs : List PGCommonTableExpr → Prop
  | [] => True
  | .select _ _ ctequery :: rest => ctequery.Plain ∧ PlainCTEs rest
  | .other _ :: rest => PlainCTEs rest

def PGSelectStmt.Plain : PGSelectStmt → Prop
  | ⟨valuesLists, _, withClause, fromClause, _, targetList, whereClause, groupClause, havingClause, limitCount,
      limitOffset, sortClause⟩ =>
    (∀ row ∈ valuesLists, ∀ c ∈ columnsOfList row, Nameless c) ∧ PlainCTEs withClause ∧ PlainTables fromClause ∧
      ∀ c ∈ columnsOfList targetList ++ columnsOfOption whereClause ++ columnsOfList groupClause ++
        columnsOfOption havingClause ++ columnsOfOption limitCount ++ columnsOfOption limitOffset ++
        columnsOfSorts sortClause, Legible c

end

variable {catalog : Catalog} {heap : Heap} {bound : ℕ} {ctes : CTEScope} {table : BoundTableRef} {E : Fault → Prop}
  {st : BinderState}

/-- A clause in the scope of a table. -/
theorem columns_visible (h : RefScoped catalog heap bound ctes table) {plain : Prop}
    {columns : List (PGField × List PGField)} (hplain : plain → ∀ c ∈ columns, Legible c) :
    Columns (some table) ctes (Visible ctes table) (fun e => plain → Thrown e) columns := by
  intro c hc
  refine (bindColumnRef_meets h c).imp (fun _ hs => hs) ?_
  intro e he hp
  exact he (hplain hp c hc)

theorem bindSelectItem_meets (h : RefScoped catalog heap bound ctes table) (hE : ∀ e, Thrown e → E e) {items : SelectItems}
    (hitems : ScopedArgs (Visible ctes table) items.selectList) {target : PGNode}
    (htarget : Columns (some table) ctes (Visible ctes table) E target.columns) :
    Meets (bindSelectItem (some table) ctes items target)
      (fun items => ScopedArgs (Visible ctes table) items.selectList) E := by
  refine Meets.bind (bindExpression_meets hE target htarget) ?_
  intro expr hexpr
  refine Meets.ite (fun _ => ?_) (fun _ => ?_)
  · refine Meets.ite (fun _ => ?_) (fun _ => throwException_meets hE _)
    -- the columns that `*` stands for
    have hall := getAllColumns_meets h
    show Meets (getAllColumns ctes table >>= fun columns => columns.mapM boundColumnRef >>= _) _ _
    cases hcolumns : getAllColumns ctes table with
    | error e => exact hE e (hall.of_error hcolumns)
    | ok columns =>
      show Meets (columns.mapM boundColumnRef >>= _) _ _
      refine Meets.bind (Meets.mapM (R := Scoped (Visible ctes table)) ?_) ?_
      · intro name hname
        exact boundColumnRef_meets (hall.of_ok hcolumns name hname)
          (visible_of_getAllColumns table hcolumns hname)
      · intro selectList hlist
        exact scopedArgs_iff.mpr hlist
  · refine Meets.ite (fun _ => throwException_meets hE _) (fun _ => ?_)
    refine Meets.bind ((hasAggregation_meets hexpr).imp (fun _ hagg => hagg) hE) ?_
    intro agg _
    refine scopedArgs_iff.mpr ?_
    intro e he
    rcases List.mem_append.mp he with he | he
    · exact scopedArgs_iff.mp hitems e he
    · rw [List.mem_singleton.mp he]
      exact hexpr

theorem mem_columnsOfList {nodes : List PGNode} {node : PGNode} (hnode : node ∈ nodes)
    {c : PGField × List PGField} (hc : c ∈ node.columns) : c ∈ columnsOfList nodes := by
  induction nodes with
  | nil => cases hnode
  | cons head nodes ih =>
    rw [columnsOfList, List.mem_append]
    rcases List.mem_cons.mp hnode with rfl | hnode
    · exact .inl hc
    · exact .inr (ih hnode)

theorem bindSelectList_meets (h : RefScoped catalog heap bound ctes table) (hE : ∀ e, Thrown e → E e) {list : List PGNode}
    (hlist : Columns (some table) ctes (Visible ctes table) E (columnsOfList list)) :
    Meets (bindSelectList (some table) ctes list) (ScopedArgs (Visible ctes table)) E := by
  refine Meets.bind (P := fun items : SelectItems => ScopedArgs (Visible ctes table) items.selectList) ?_ ?_
  · refine Meets.foldlM (R := fun items : SelectItems => ScopedArgs (Visible ctes table) items.selectList) trivial ?_
    intro items hitems target htarget
    exact bindSelectItem_meets h hE hitems fun c hc => hlist c (mem_columnsOfList htarget hc)
  · intro items hitems
    exact Meets.ite (fun _ => throwException_meets hE _) (fun _ => hitems)

/-- **The rows of a `VALUES` list** are bound without a scope. -/
theorem bindRows_meets {lists : List (List PGNode)} {allValues : List (List BoundExpression)} {n : ℕ}
    (hscope : st.scope = none) (hE : ∀ e, Thrown e → E e)
    (hcolumns : ∀ row ∈ lists, Columns none st.cteScope (fun _ => False) E (columnsOfList row))
    (hlength : ∀ row ∈ allValues, row.length = n) (hrows : ∀ row ∈ allValues, ScopedArgs (fun _ => False) row) :
    Meets (bindRows st lists allValues) (fun values => (∃ n, ∀ row ∈ values, row.length = n) ∧
      ∀ row ∈ values, ScopedArgs (fun _ => False) row) E := by
  induction lists generalizing allValues n with
  | nil => exact ⟨⟨n, hlength⟩, hrows⟩
  | cons target lists ih =>
    rw [bindRows]
    have htarget : Meets (bindExpressionList st.scope st.cteScope target) (ScopedArgs fun _ => False) E := by
      rw [hscope]
      exact bindExpressionList_meets hE target (hcolumns target (.head _))
    refine Meets.bind htarget ?_
    intro values hvalues
    refine Meets.ite (fun _ => throwException_meets hE _) ?_
    intro hsame
    have hrest := fun row hrow => hcolumns row (.tail target hrow)
    have hrows' : ∀ row ∈ allValues ++ [values], ScopedArgs (fun _ => False) row := by
      intro row hrow
      rcases List.mem_append.mp hrow with hrow | hrow
      · exact hrows row hrow
      · rw [List.mem_singleton.mp hrow]
        exact hvalues
    cases allValues with
    | nil =>
      refine ih (n := values.length) hrest ?_ hrows'
      intro row hrow
      rw [List.mem_singleton.mp hrow]
    | cons first others =>
      refine ih (n := n) hrest ?_ hrows'
      intro row hrow
      rcases List.mem_append.mp hrow with hrow | hrow
      · exact hlength row hrow
      · have hfirst : first.length = values.length := by simpa using hsame
        rw [List.mem_singleton.mp hrow, ← hfirst]
        exact hlength first (.head _)

end Clauses

/-! ## Statements -/

section Statements

variable {catalog : Catalog} {st : BinderState} {table : BoundTableRef}

theorem bindRangeVar_meets (hst : Good st) (relname : String) (alias_ : Option String) :
    Meets (bindRangeVar catalog st.cteScope relname alias_) (RefScoped catalog st.heap st.next st.cteScope) Thrown := by
  unfold bindRangeVar
  split
  · rename_i cte hfound
    cases hctes : st.cteScope with
    | none =>
      rw [hctes] at hfound
      cases hfound
    | some list =>
      rw [hctes, Option.getD_some] at hfound
      have halias : cte.alias_ = relname :=
        of_decide_eq_true (List.find?_some (p := fun cte : BoundSubqueryRef => decide (cte.alias_ = relname)) hfound)
      refine RefScoped.cte ?_ (hst list hctes cte (List.mem_of_find?_eq_some hfound))
      rw [halias]
      unfold findCTE
      simp only [hfound]
  · unfold bindBaseTableRef
    split
    · trivial
    · trivial
    · rename_i info hinfo
      exact RefScoped.baseTable hinfo

/-- The name of a column is looked up in the two sides of a join, whatever its condition is. -/
theorem bindColumnRef_condition {ctes : CTEScope} {joinType : JoinType} {left right : BoundTableRef}
    {condition condition' : BoundExpression} (c : PGField × List PGField) :
    bindColumnRef (some (.join joinType left right condition)) ctes c.1 c.2 =
      bindColumnRef (some (.join joinType left right condition')) ctes c.1 c.2 := by
  obtain ⟨head, rest⟩ := c
  cases head <;> rfl

/-- The condition of a join sees both sides. -/
theorem bindQuals_meets {joinType : JoinType} {left right : BoundTableRef}
    (hleft : RefScoped catalog st.heap st.next st.cteScope left)
    (hright : RefScoped catalog st.heap st.next st.cteScope right) (quals : Option PGNode) :
    Meets (bindQuals { st with scope := some (.join joinType left right .invalid) } quals)
      (fun condition => RefScoped catalog st.heap st.next st.cteScope (.join joinType left right condition))
      (fun e => (∀ c ∈ columnsOfOption quals, Legible c) → Thrown e) := by
  cases quals with
  | none => exact fun _ => trivial
  | some node =>
    have hsome : RefScoped catalog st.heap st.next st.cteScope (.join joinType left right (.constant (.boolean 1))) :=
      .join hleft hright trivial
    have hcolumns : Columns (some (.join joinType left right .invalid)) st.cteScope
        (Visible st.cteScope (.join joinType left right .invalid))
        (fun e => (∀ c ∈ node.columns, Legible c) → Thrown e) node.columns := by
      intro c hc
      rw [bindColumnRef_condition]
      exact columns_visible hsome id c hc
    refine Meets.imp (bindExpression_meets (fun e he _ => he) node hcolumns) ?_ fun _ he => he
    intro condition hcondition
    exact .join hleft hright hcondition

theorem bindValues_meets (catalog : Catalog) (outer : CTEScope) (hscope : st.scope = none) (lists : List (List PGNode)) :
    Meets (bindValues lists st)
      (fun r => Grows st r.2 ∧ StatementScoped catalog r.2.heap r.2.next outer r.1)
      (fun e => (∀ row ∈ lists, ∀ c ∈ columnsOfList row, Nameless c) → Thrown e) := by
  have hname := frame_generateName "__values#" st
  have hrows : Meets (bindRows (generateName "__values#" st).2 lists []) _
      (fun e => (∀ row ∈ lists, ∀ c ∈ columnsOfList row, Nameless c) → Thrown e) :=
    bindRows_meets (hname.scope.trans hscope) (fun e he _ => he)
      (fun row hrow c hc => (bindColumnRef_none c).imp (fun _ hs => hs) fun e he hplain => he (hplain row hrow c hc))
      (fun _ hnil => absurd hnil List.not_mem_nil) (fun _ hnil => absurd hnil List.not_mem_nil) (n := 0)
  refine Meets.bind hrows ?_
  rintro values ⟨⟨n, hlength⟩, hscoped⟩
  cases values with
  | nil => exact fun _ => trivial
  | cons first rest =>
    obtain ⟨hmade, hlist⟩ := made_makeStatement (generateName "__values#" st).2
      (valuesExprs (generateName "__values#" st).1 first.length)
    refine ⟨hname.toGrows.trans (frame_makeStatement _ _).toGrows, ?_⟩
    refine StatementScoped.values hmade hlist (List.cons_ne_nil _ _) ?_ hscoped
    intro row hrow
    rw [hlength row hrow, hlength first (.head _)]

/-- **The clauses behind `FROM`** see its tables. -/
theorem bindClauses_meets (catalog : Catalog) (outer : CTEScope) {ctes : List BoundSubqueryRef} (stmt : PGSelectStmt)
    (hscope : st.scope = some table) (hctes : st.cteScope = if ctes.isEmpty then outer else some ctes)
    (htable : RefScoped catalog st.heap st.next st.cteScope table)
    (hnamed : ∀ cte ∈ ctes, NamedIn st.heap st.next cte)
    (hstatements : ∀ cte ∈ ctes, StatementScoped catalog st.heap st.next outer cte.subquery) :
    Meets (bindClauses stmt table ctes st)
      (fun r => Grows st r.2 ∧ StatementScoped catalog r.2.heap r.2.next outer r.1)
      (fun e => (∀ c ∈ columnsOfList stmt.targetList ++ columnsOfOption stmt.whereClause ++
        columnsOfList stmt.groupClause ++ columnsOfOption stmt.havingClause ++ columnsOfOption stmt.limitCount ++
        columnsOfOption stmt.limitOffset ++ columnsOfSorts stmt.sortClause, Legible c) → Thrown e) := by
  generalize hplain : (∀ c ∈ columnsOfList stmt.targetList ++ columnsOfOption stmt.whereClause ++
    columnsOfList stmt.groupClause ++ columnsOfOption stmt.havingClause ++ columnsOfOption stmt.limitCount ++
    columnsOfOption stmt.limitOffset ++ columnsOfSorts stmt.sortClause, Legible c) = plain
  have hE : ∀ e, Thrown e → plain → Thrown e := fun e he _ => he
  have hcolumns := columns_visible htable fun hp : plain => hplain ▸ hp
  simp only [columns_append] at hcolumns
  obtain ⟨⟨⟨⟨⟨⟨htarget, hwhere⟩, hgroup⟩, hhaving⟩, hcount⟩, hoffset⟩, hsort⟩ := hcolumns
  unfold bindClauses
  refine Meets.bind (P := fun _ => True) ?_ ?_
  · split
    · exact throwNotImplemented_meets hE _
    · trivial
    · trivial
  intro isDistinct _
  refine Meets.ite (fun _ => throwException_meets hE _) (fun _ => ?_)
  rw [hscope]
  refine Meets.bind (bindSelectList_meets htable hE htarget) ?_
  intro selectList hselectList
  refine Meets.bind (bindClause_meets hE hwhere) ?_
  intro where_ hwhere_
  refine Meets.bind (bindExpressionList_meets hE stmt.groupClause hgroup) ?_
  intro groupBy hgroupBy
  refine Meets.bind (bindClause_meets hE hhaving) ?_
  intro having hhaving_
  refine Meets.bind (bindClause_meets hE hcount) ?_
  intro limitCount hlimitCount
  refine Meets.bind (bindClause_meets hE hoffset) ?_
  intro limitOffset hlimitOffset
  refine Meets.bind (bindSort_meets hE stmt.sortClause hsort) ?_
  intro sort hsort_
  have hgrows := (frame_makeStatement st ⟨having, selectList⟩).toGrows
  obtain ⟨hmade, hlist⟩ := made_makeStatement st ⟨having, selectList⟩
  refine ⟨hgrows, ?_⟩
  refine StatementScoped.select hmade (fun cte hcte => hgrows.named (hnamed cte hcte))
    (fun cte hcte => hgrows.scopedStatement (hstatements cte hcte)) ?_ ?_
  · have hsame := hgrows.scopedTable htable
    rw [hctes] at hsame
    exact hsame
  · rw [hctes] at hwhere_ hgroupBy hhaving_ hselectList hlimitCount hlimitOffset hsort_
    show ClausesScoped _ _ ((makeStatement st ⟨having, selectList⟩).2.heap (makeStatement st ⟨having, selectList⟩).1)
    rw [hlist]
    exact ⟨hwhere_, hgroupBy, hhaving_, hselectList, hlimitCount, hlimitOffset, hsort_⟩

mutual

/-- **A table of a `FROM` clause.** -/
theorem bindTableRef_meets : ∀ (node : PGTableNode) (st : BinderState), Good st →
    Meets (bindTableRef catalog node st)
      (fun r => Frame st r.2 ∧ RefScoped catalog r.2.heap r.2.next st.cteScope r.1) (fun e => node.Plain → Thrown e)
  | .rangeVar relname alias_, st, hst => by
    refine Meets.bind ((bindRangeVar_meets hst relname alias_).imp (fun _ ht => ht) fun _ he _ => he) ?_
    intro table htable
    exact ⟨.refl st, htable⟩
  | .joinExpr jointype larg rarg quals, st, hst => by
    refine newContext_meets (Q := fun table st' => RefScoped catalog st'.heap st'.next st.cteScope table)
      (fun _ _ _ hgrows htable => hgrows.scopedTable htable) ?_
    have hst₀ : Good { st with scope := none } := hst
    refine Meets.bind (P := fun _ => True) ?_ ?_
    · cases jointype with
      | other number => exact fun _ => trivial
      | _ => trivial
    intro joinType _
    refine Meets.bind ((bindTableRef_meets larg _ hst₀).imp (fun _ hr => hr) fun _ he hp => he hp.1) ?_
    rintro ⟨left, st₁⟩ ⟨hframe₁, hleft⟩
    have hst₁ := hframe₁.good hframe₁.cteScope hst₀
    refine Meets.bind ((bindTableRef_meets rarg st₁ hst₁).imp (fun _ hr => hr) fun _ he hp => he hp.2.1) ?_
    rintro ⟨right, st₂⟩ ⟨hframe₂, hright⟩
    have hctes₁ : st₁.cteScope = st.cteScope := hframe₁.cteScope
    have hctes₂ : st₂.cteScope = st.cteScope := hframe₂.cteScope.trans hctes₁
    have hleft₂ := hframe₂.scopedTable hleft
    have hgrows : Grows st st₂ := by
      have hgrows₁ := (hframe₁.trans hframe₂).toGrows
      exact ⟨hgrows₁.universalId, hgrows₁.next, hgrows₁.heap⟩
    have hquals : Meets (bindQuals { st₂ with scope := some (.join joinType left right .invalid) } quals)
        (fun condition => RefScoped catalog st₂.heap st₂.next st₂.cteScope (.join joinType left right condition))
        (fun e => (∀ c ∈ columnsOfOption quals, Legible c) → Thrown e) := by
      refine bindQuals_meets ?_ ?_ quals
      · rw [hctes₂]
        exact hleft₂
      · rw [hctes₂, ← hctes₁]
        exact hright
    refine Meets.bind (hquals.imp (fun _ hr => hr) fun _ he hp => he hp.2.2) ?_
    intro condition hcondition
    refine ⟨⟨hgrows.universalId, hgrows.next, hgrows.heap⟩, ?_⟩
    rw [hctes₂] at hcondition
    exact hcondition
  | .rangeSubselect lateral subquery alias_, st, hst => by
    refine Meets.ite (fun _ _ => trivial) (fun _ => ?_)
    have hrest : ∀ aliasName st₀, Frame st st₀ →
        Meets (bindSelect catalog subquery st₀ >>= fun r =>
            pure (BoundTableRef.subquery (nameSubquery r.1 aliasName r.2).1, (nameSubquery r.1 aliasName r.2).2))
          (fun r => Frame st r.2 ∧ RefScoped catalog r.2.heap r.2.next st.cteScope r.1)
          (fun e => subquery.Plain → Thrown e) := by
      intro aliasName st₀ hframe₀
      refine Meets.bind (bindSelect_meets subquery st₀ (hframe₀.good hframe₀.cteScope hst)) ?_
      rintro ⟨statement, st₁⟩ ⟨hframe₁, hstatement⟩
      have hname := frame_nameSubquery statement aliasName st₁
      refine ⟨(hframe₀.trans hframe₁).trans hname, ?_⟩
      refine RefScoped.subquery (named_nameSubquery hstatement aliasName) ?_
      rw [← hframe₀.cteScope]
      exact hname.scopedStatement hstatement
    cases alias_ with
    | some aliasName => exact hrest aliasName st (.refl st)
    | none => exact hrest _ _ (frame_generateName "__subquery#" st)
  | .other _, _, _ => fun _ => trivial

theorem bindTableRefs_meets : ∀ (nodes : List PGTableNode) (result : BoundTableRef) (st : BinderState), Good st →
    RefScoped catalog st.heap st.next st.cteScope result →
      Meets (bindTableRefs catalog nodes result st)
        (fun r => Frame st r.2 ∧ RefScoped catalog r.2.heap r.2.next st.cteScope r.1)
        (fun e => PlainTables nodes → Thrown e)
  | [], result, st, _, hresult => ⟨.refl st, hresult⟩
  | node :: nodes, result, st, hst, hresult => by
    refine Meets.bind ((bindTableRef_meets node st hst).imp (fun _ hr => hr) fun _ he hp => he hp.1) ?_
    rintro ⟨table, st₁⟩ ⟨hframe, htable⟩
    refine (bindTableRefs_meets nodes _ st₁ (hframe.good hframe.cteScope hst) ?_).imp ?_ fun _ he hp => he hp.2
    · rw [hframe.cteScope]
      exact .crossProduct (hframe.scopedTable hresult) htable
    · rintro ⟨table, st₂⟩ ⟨hframe', htable⟩
      rw [hframe.cteScope] at htable
      exact ⟨hframe.trans hframe', htable⟩

theorem bindFrom_meets : ∀ (nodes : List PGTableNode) (st : BinderState), Good st →
    Meets (bindFrom catalog nodes st)
      (fun r => Frame st r.2 ∧ RefScoped catalog r.2.heap r.2.next st.cteScope r.1)
      (fun e => PlainTables nodes → Thrown e)
  | [], st, _ => ⟨.refl st, .empty⟩
  | node :: nodes, st, hst => by
    rw [bindFrom]
    refine newContext_meets (Q := fun table st' => RefScoped catalog st'.heap st'.next st.cteScope table)
      (fun _ _ _ hgrows htable => hgrows.scopedTable htable) ?_
    have hst₀ : Good { st with scope := none } := hst
    refine Meets.bind ((bindTableRef_meets node _ hst₀).imp (fun _ hr => hr) fun _ he hp => he hp.1) ?_
    rintro ⟨table, st₁⟩ ⟨hframe, htable⟩
    have hctes : st₁.cteScope = st.cteScope := hframe.cteScope
    refine (bindTableRefs_meets nodes table st₁ (hframe.good hframe.cteScope hst₀) ?_).imp ?_ fun _ he hp => he hp.2
    · rw [hctes]
      exact htable
    · rintro ⟨table, st₂⟩ ⟨hframe', htable⟩
      have hgrows := (hframe.trans hframe').toGrows
      rw [hctes] at htable
      exact ⟨⟨hgrows.universalId, hgrows.next, hgrows.heap⟩, htable⟩

/-- **The CTEs of a `WITH` clause** are bound in the scope around it. -/
theorem bindCTE_meets (withRecursive : Bool) : ∀ (list : List PGCommonTableExpr) (st : BinderState), Good st →
    Meets (bindCTE catalog withRecursive list st)
      (fun r => Frame st r.2 ∧ (∀ cte ∈ r.1, NamedIn r.2.heap r.2.next cte) ∧
        (∀ cte ∈ r.1, StatementScoped catalog r.2.heap r.2.next st.cteScope cte.subquery) ∧
        r.1.isEmpty = list.isEmpty)
      (fun e => PlainCTEs list → Thrown e)
  | [], st, _ => ⟨.refl st, fun _ hnil => absurd hnil List.not_mem_nil, fun _ hnil => absurd hnil List.not_mem_nil, rfl⟩
  | .other _ :: _, _, _ => fun _ => trivial
  | .select ctename cterecursive ctequery :: rest, st, hst => by
    refine Meets.ite (fun _ _ => trivial) (fun _ => ?_)
    refine Meets.bind ((bindSelect_meets ctequery st hst).imp (fun _ hr => hr) fun _ he hp => he hp.1) ?_
    rintro ⟨statement, st₁⟩ ⟨hframe₁, hstatement⟩
    have hname := frame_nameSubquery statement ctename st₁
    have hframe₂ := hframe₁.trans hname
    refine Meets.bind ((bindCTE_meets withRecursive rest (nameSubquery statement ctename st₁).2
      (hframe₂.good hframe₂.cteScope hst)).imp (fun _ hr => hr) fun _ he hp => he hp.2) ?_
    rintro ⟨refs, st₃⟩ ⟨hframe₃, hnamed, hstatements, -⟩
    refine ⟨hframe₂.trans hframe₃, ?_, ?_, rfl⟩
    · intro cte hcte
      rcases List.mem_cons.mp hcte with rfl | hcte
      · exact hframe₃.named (named_nameSubquery hstatement ctename)
      · exact hnamed cte hcte
    · intro cte hcte
      rcases List.mem_cons.mp hcte with rfl | hcte
      · exact (hname.toGrows.trans hframe₃.toGrows).scopedStatement hstatement
      · rw [← hframe₂.cteScope]
        exact hstatements cte hcte

/-- **A statement.** -/
theorem bindSelect_meets : ∀ (stmt : PGSelectStmt) (st : BinderState), Good st →
    Meets (bindSelect catalog stmt st)
      (fun r => Frame st r.2 ∧ StatementScoped catalog r.2.heap r.2.next st.cteScope r.1)
      (fun e => stmt.Plain → Thrown e)
  | ⟨valuesLists, withRecursive, withClause, fromClause, distinctClause, targetList, whereClause, groupClause,
      havingClause, limitCount, limitOffset, sortClause⟩, st, hst => by
    rw [bindSelect]
    refine newContext_meets (Q := fun statement st' => StatementScoped catalog st'.heap st'.next st.cteScope statement)
      (fun _ _ _ hgrows hstatement => hgrows.scopedStatement hstatement) ?_
    have hst₀ : Good { st with scope := none } := hst
    refine Meets.ite (fun _ => ?_) (fun _ => ?_)
    · refine Meets.bind ((bindCTE_meets withRecursive withClause _ hst₀).imp (fun _ hr => hr)
        fun _ he hp => he hp.2.1) ?_
      rintro ⟨ctes, st₁⟩ ⟨hframe₁, hnamed, hstatements, hempty⟩
      have hctes₁ : st₁.cteScope = st.cteScope := hframe₁.cteScope
      -- the CTEs of the clause take the place of those around it
      obtain ⟨st₂, heq, hgrows₂, hctes₂, hst₂⟩ : ∃ st₂ : BinderState,
          (if withClause.isEmpty then st₁ else { st₁ with cteScope := some ctes }) = st₂ ∧ Grows st₁ st₂ ∧
            st₂.cteScope = (if ctes.isEmpty then st.cteScope else some ctes) ∧ Good st₂ := by
        refine ⟨_, rfl, ?_⟩
        rw [hempty]
        split_ifs
        · exact ⟨.refl _, hctes₁, hframe₁.good hframe₁.cteScope hst₀⟩
        · refine ⟨⟨le_refl _, le_refl _, fun _ _ => rfl⟩, rfl, ?_⟩
          rintro list ⟨⟩ cte hcte
          exact hnamed cte hcte
      dsimp only
      rw [heq]
      refine Meets.bind ((bindFrom_meets fromClause st₂ hst₂).imp (fun _ hr => hr) fun _ he hp => he hp.2.2.1) ?_
      rintro ⟨table, st₃⟩ ⟨hframe₃, htable⟩
      have hgrows₃ := hgrows₂.trans hframe₃.toGrows
      refine (bindClauses_meets catalog st.cteScope _ rfl ?_ ?_ ?_ ?_).imp ?_ fun _ he hp => he hp.2.2.2
      · exact hframe₃.cteScope.trans hctes₂
      · show RefScoped catalog st₃.heap st₃.next st₃.cteScope table
        rw [hframe₃.cteScope]
        exact htable
      · exact fun cte hcte => hgrows₃.named (hnamed cte hcte)
      · exact fun cte hcte => hgrows₃.scopedStatement (hstatements cte hcte)
      · rintro ⟨statement, st₄⟩ ⟨hgrows₄, hstatement⟩
        have hall := (hframe₁.toGrows.trans hgrows₃).trans ⟨hgrows₄.universalId, hgrows₄.next, hgrows₄.heap⟩
        exact ⟨⟨hall.universalId, hall.next, hall.heap⟩, hstatement⟩
    · refine (bindValues_meets catalog st.cteScope rfl valuesLists).imp ?_ fun _ he hp => he hp.1
      rintro ⟨statement, st₁⟩ ⟨hgrows, hstatement⟩
      exact ⟨⟨hgrows.universalId, hgrows.next, hgrows.heap⟩, hstatement⟩

end

end Statements

end Journey.Binder
