import Journey.Bustub.Optimizer.Plan

/-!
# Journey.Bustub.Optimizer.WellFormed — plans the planner makes

* `WellFormed`: what the planner makes sure of.
* `typed_results`: the rows of such a plan have the types of its output schema.
* `Same`: two plans with the same output schema and the same results; `same_node`: replacing the children of a
  node by plans that mean the same.
* `Executors`: one order of the rows wherever SQL leaves it open.
* `fixedRows`: a database for plans over constant rows.
-/

namespace Journey.Optimizer

open SqlType Catalog Execution

/-! ## Well-formed plans -/

section WellFormed

variable {κ : Type} {d : Database κ} {types : List TypeId}

/-- The row has the given types. -/
def HasTypes (types : List TypeId) (row : Record) : Prop := row.map Value.getTypeId = types

/-- All the rows have the given types. -/
def Typed (types : List TypeId) (o : Result) : Prop := ∀ rows, o = some rows → ∀ row ∈ rows, HasTypes types row

/-- **What the planner makes sure of** at a node: the number of children, tables and indexes that are in the
catalog, columns that are there, and output columns of the types that the node computes. -/
inductive LocallyWF (d : Database κ) : PlanNode κ → Prop
  | seqScan {schema : Schema} {tableOid : UInt32} {tableName : String} {filterPredicate : Option Expr}
      {info : TableInfo} (table : d.catalog.getTableByOid tableOid = some info) (name : info.name = tableName)
      (types : columnTypes schema = columnTypes info.schema)
      (hcols : ∀ e ∈ filterPredicate, e.Over (single (columnTypes schema))) :
      LocallyWF d (.node (schema, .seqScan tableOid tableName filterPredicate) [])
  | indexScan {schema : Schema} {tableOid indexOid : UInt32} {filterPredicate : Option Expr} {predKeys : List Expr}
      {info : TableInfo} {index : IndexInfo} (table : d.catalog.getTableByOid tableOid = some info)
      (found : d.catalog.getIndexByOid indexOid = some index) (own : index.tableName = info.name)
      (types : columnTypes schema = columnTypes info.schema)
      (hcols : ∀ e ∈ filterPredicate, e.Over (single (columnTypes schema))) :
      LocallyWF d (.node (schema, .indexScan tableOid indexOid filterPredicate predKeys) [])
  | filter {schema : Schema} {predicate : Expr} {child : PlanNode κ}
      (types : columnTypes schema = columnTypes (outputSchema child))
      (hcols : predicate.Over (single (columnTypes schema))) :
      LocallyWF d (.node (schema, .filter predicate) [child])
  | projection {schema : Schema} {expressions : List Expr} {child : PlanNode κ}
      (types : columnTypes schema = expressions.map Expr.returnType)
      (hcols : ∀ e ∈ expressions, e.Over (single (columnTypes (outputSchema child)))) :
      LocallyWF d (.node (schema, .projection expressions) [child])
  | sort {schema : Schema} {orderBys : List OrderBy} {child : PlanNode κ}
      (types : columnTypes schema = columnTypes (outputSchema child))
      (hcols : ∀ o ∈ orderBys, o.expr.Over (single (columnTypes schema))) :
      LocallyWF d (.node (schema, .sort orderBys) [child])
  | nestedLoopJoin {schema : Schema} {predicate : Expr} {joinType : JoinType} {left right : PlanNode κ}
      (types : columnTypes schema = columnTypes (outputSchema left) ++ columnTypes (outputSchema right))
      -- `GetColumnCount` answers a `uint32_t`
      (countLeft : (outputSchema left).columns.length < 2 ^ 32)
      (countRight : (outputSchema right).columns.length < 2 ^ 32)
      (hcols : predicate.Over (sides (columnTypes (outputSchema left)) (columnTypes (outputSchema right)))) :
      LocallyWF d (.node (schema, .nestedLoopJoin predicate joinType) [left, right])
  | nestedIndexJoin {schema innerTableSchema : Schema} {keyPredicate : Expr} {innerTableOid indexOid : UInt32}
      {indexName indexTableName : String} {joinType : JoinType} {child : PlanNode κ} {info : TableInfo}
      {index : IndexInfo} (table : d.catalog.getTableByOid innerTableOid = some info)
      (found : d.catalog.getIndexByOid indexOid = some index) (own : index.tableName = info.name)
      (inner : columnTypes innerTableSchema = columnTypes info.schema)
      (types : columnTypes schema = columnTypes (outputSchema child) ++ columnTypes innerTableSchema)
      (hcols : keyPredicate.Over (single (columnTypes (outputSchema child)))) :
      LocallyWF d (.node (schema, .nestedIndexJoin keyPredicate innerTableOid indexOid indexName indexTableName
        innerTableSchema joinType) [child])
  | other {schema : Schema} {kind : κ} {children : List (PlanNode κ)}
      (yields : ∀ is, List.Forall₂ (fun i c => Typed (columnTypes (outputSchema c)) i) is children →
        ∀ o ∈ d.other kind (columnTypes schema) ((children.map fun c => columnTypes (outputSchema c)).zip is),
          Typed (columnTypes schema) o) :
      LocallyWF d (.node (schema, .other kind) children)

/-- A well-formed plan. -/
def WellFormed (d : Database κ) : PlanNode κ → Prop := Tree.Everywhere (LocallyWF d)

end WellFormed

/-! ## Types of rows -/

section Types

variable {κ : Type} {d : Database κ} {types lt rt : List TypeId} {row left right : Record} {o o' : Result}

theorem typed_none : Typed types none := nofun

theorem typed_some {rows : List Record} : Typed types (some rows) ↔ ∀ row ∈ rows, HasTypes types row := by
  constructor
  · intro h
    exact h rows rfl
  · rintro h _ ⟨⟩
    exact h

theorem HasTypes.length_eq (h : HasTypes types row) : row.length = types.length := by
  rw [← h, List.length_map]

theorem HasTypes.append (hl : HasTypes lt left) (hr : HasTypes rt right) : HasTypes (lt ++ rt) (left ++ right) := by
  unfold HasTypes
  rw [List.map_append, hl, hr]

theorem hasTypes_padding (types : List TypeId) : HasTypes types (padding types) := by
  unfold HasTypes padding
  rw [List.map_map, List.map_congr_left (g := id)]
  · exact List.map_id _
  · intro type _
    exact getTypeId_nullOf type

/-- A row can be read at the columns it has. -/
theorem HasTypes.reads (h : HasTypes types row) : Reads (single types) (readRow row) := by
  intro t i type hcol
  cases t with
  | succ t => cases hcol
  | zero =>
    change types[i]? = some type at hcol
    rw [← h, List.getElem?_map] at hcol
    obtain ⟨v, hv, htype⟩ := Option.map_eq_some_iff.mp hcol
    refine ⟨v, ?_, htype⟩
    unfold readRow
    rw [hv]

theorem Typed.of_bag (h : Typed types o) (hbag : bag o' = bag o) : Typed types o' := by
  rintro rows rfl
  obtain ⟨rows', rfl, hperm⟩ := bag_eq_some.mp hbag.symm
  intro row hrow
  exact h rows' rfl row (hperm.mem_iff.mpr hrow)

theorem Typed.selects {test : Record → Option Bool} (h : Typed types o) :
    Typed types (o.bind (Journey.selects test)) := by
  rintro rows hrows row hrow
  obtain ⟨all, rfl, hsel⟩ := Option.bind_eq_some_iff.mp hrows
  exact h all rfl row (mem_of_selects hsel hrow)

theorem Typed.selectsBy {filterPredicate : Option Expr} (h : Typed types o) :
    Typed types (o.bind (selectsBy filterPredicate)) := by
  cases filterPredicate with
  | some predicate => exact h.selects
  | none => cases o <;> exact h

/-- A projection computes rows of the return types. -/
theorem hasTypes_projectRow {expressions : List Expr} (hover : ∀ e ∈ expressions, e.Over (single types))
    (h : HasTypes types left) (hrow : projectRow expressions left = some row) :
    HasTypes (expressions.map Expr.returnType) row := by
  unfold projectRow at hrow
  unfold HasTypes
  induction expressions generalizing row with
  | nil =>
    cases hrow
    rfl
  | cons e es ih =>
    rw [List.mapM_cons] at hrow
    obtain ⟨v, hv, hrow⟩ := Option.bind_eq_some_iff.mp hrow
    obtain ⟨vs, hvs, hcons⟩ := Option.bind_eq_some_iff.mp hrow
    cases hcons
    rw [List.map_cons, List.map_cons, ih (fun e' he' => hover e' (List.mem_cons_of_mem _ he')) hvs,
      getTypeId_eval h.reads.getTypeId (hover e (List.mem_cons_self ..)) (toOption_eq_some.mp hv)]

theorem typed_join {joinType : JoinType} {on : Record → Record → Option Bool} {lefts rights : List Record}
    (hl : ∀ a ∈ lefts, HasTypes lt a) (hr : ∀ b ∈ rights, HasTypes rt b) :
    Typed (lt ++ rt) (join joinType on (padding rt) lefts rights) := by
  rintro rows hrows row hrow
  unfold join at hrows
  split_ifs at hrows
  rw [← Option.some.inj hrows] at hrow
  obtain ⟨a, ha, hrow⟩ := List.mem_flatMap.mp hrow
  obtain ⟨b, rfl, hb | ⟨-, rfl⟩⟩ := mem_joined hrow
  · exact (hl a ha).append (hr b hb)
  · exact (hl a ha).append (hasTypes_padding rt)

theorem typed_sortedBy {orders : List KeyOrder} {key : Record → Record} {rows : List Record}
    (h : ∀ row ∈ rows, HasTypes types row) (ho : o ∈ sortedBy orders key rows) : Typed types o := by
  obtain ⟨rows', ⟨hperm, -⟩, rfl⟩ := ho
  exact typed_some.mpr fun row hrow => h row (hperm.mem_iff.mp hrow)

theorem typed_indexScanResults {tableOid indexOid : UInt32} {filterPredicate : Option Expr} {predKeys : List Expr}
    (h : ∀ row ∈ d.table tableOid, HasTypes types row)
    (ho : o ∈ d.indexScanResults tableOid indexOid filterPredicate predKeys) : Typed types o := by
  unfold Database.indexScanResults at ho
  split at ho
  · rw [Set.mem_singleton_iff.mp ho]
    exact typed_none
  · obtain ⟨i, hi, rfl⟩ := ho
    have hrows : Typed types i := typed_sortedBy h hi
    refine Typed.selectsBy ?_
    by_cases hkeys : predKeys.isEmpty
    · simp only [hkeys, if_true]
      cases i <;> exact hrows
    · simp only [hkeys]
      exact hrows.selects

theorem typed_sortResults {orderBys : List OrderBy} {i : Result} (h : Typed types i)
    (ho : o ∈ d.sortResults orderBys i) : Typed types o := by
  cases i with
  | none =>
    rw [Set.mem_singleton_iff.mp ho]
    exact typed_none
  | some rows =>
    change o ∈ if _ then _ else _ at ho
    split_ifs at ho
    · exact typed_sortedBy (typed_some.mp h) ho
    · rw [Set.mem_singleton_iff.mp ho]
      exact typed_none

theorem typed_indexJoin {keyPredicate : Expr} {innerTableOid indexOid : UInt32} {joinType : JoinType}
    {outers : List Record} (hl : ∀ a ∈ outers, HasTypes lt a) (hr : ∀ b ∈ d.table innerTableOid, HasTypes rt b) :
    Typed (lt ++ rt) (d.indexJoin keyPredicate innerTableOid indexOid rt joinType outers) := by
  rintro rows hrows
  obtain ⟨info, -, hrows⟩ := Option.bind_eq_some_iff.mp hrows
  split at hrows
  · exact typed_join hl hr rows hrows
  · cases hrows

/-- **The rows of a well-formed plan have the types of its output schema.** -/
theorem typed_results {plan : PlanNode κ} (h : WellFormed d plan) :
    ∀ o ∈ d.results plan, Typed (columnTypes (outputSchema plan)) o := by
  induction h with
  | @node _ children here below ih =>
    intro o ho
    cases here with
    | seqScan table name types hcols =>
      rw [Database.results_node] at ho
      rw [Set.mem_singleton_iff.mp ho, outputSchema_node, types]
      have hall : Typed _ (some (d.table _)) := typed_some.mpr (d.typed _ _ table)
      exact hall.selectsBy
    | indexScan table found own types hcols =>
      rw [Database.results_node] at ho
      rw [outputSchema_node, types]
      exact typed_indexScanResults (d.typed _ _ table) ho
    | @filter schema predicate child types hcols =>
      rw [Database.results_node] at ho
      obtain ⟨i, hi, rfl⟩ := ho
      rw [outputSchema_node, types]
      exact (ih child (List.mem_singleton_self child) i hi).selects
    | @projection schema expressions child types hcols =>
      rw [Database.results_node] at ho
      obtain ⟨i, hi, rfl⟩ := ho
      rw [outputSchema_node, types]
      rintro rows hrows row hrow
      obtain ⟨all, rfl, hmap⟩ := Option.bind_eq_some_iff.mp hrows
      have hmem : some row ∈ all.map (projectRow expressions) := by
        rw [map_of_mapM_eq_some hmap]
        exact List.mem_map_of_mem hrow
      obtain ⟨left, hleft, hproj⟩ := List.mem_map.mp hmem
      exact hasTypes_projectRow hcols (ih child (List.mem_singleton_self child) _ hi all rfl left hleft) hproj
    | @sort schema orderBys child types hcols =>
      rw [Database.results_node] at ho
      obtain ⟨i, hi, ho⟩ := ho
      rw [outputSchema_node, types]
      exact typed_sortResults (ih child (List.mem_singleton_self child) i hi) ho
    | @nestedLoopJoin schema predicate joinType left right types countLeft countRight hcols =>
      rw [Database.results_node] at ho
      obtain ⟨i, hi, j, hj, ho⟩ := ho
      have hl := ih left (by simp) i hi
      have hr := ih right (by simp) j hj
      rw [outputSchema_node, types]
      refine Typed.of_bag ?_ ho
      cases i with
      | none => exact typed_none
      | some ls =>
        cases j with
        | none => exact typed_none
        | some rs =>
          rw [Database.types_meaning]
          exact typed_join (typed_some.mp hl) (typed_some.mp hr)
    | @nestedIndexJoin schema innerTableSchema _ _ _ _ _ _ child info _ table found own inner types hcols =>
      rw [Database.results_node] at ho
      obtain ⟨i, hi, ho⟩ := ho
      have hl := ih child (List.mem_singleton_self child) i hi
      rw [outputSchema_node, types]
      refine Typed.of_bag ?_ ho
      cases i with
      | none => exact typed_none
      | some ls =>
        refine typed_indexJoin (typed_some.mp hl) ?_
        rw [inner]
        exact d.typed _ _ table
    | other yields =>
      rw [Database.results_node] at ho
      obtain ⟨is, his, ho⟩ := ho
      have htypes : (children.map d.meaning).map Meaning.types = children.map fun c => columnTypes (outputSchema c) := by
        rw [List.map_map]
        exact List.map_congr_left fun c _ => d.types_meaning c
      rw [htypes] at ho
      rw [List.forall₂_map_right_iff] at his
      refine yields is (List.forall₂_iff_zip.mpr ⟨his.length_eq, ?_⟩) o ho
      intro i c hmem
      exact ih c (List.of_mem_zip hmem).2 i (List.forall₂_zip his hmem)

end Types

/-! ## Plans that mean the same -/

section Same

variable {κ : Type} {d : Database κ} {plan plan' : PlanNode κ} {schema : Schema} {op : Operator κ}
  {children children' : List (PlanNode κ)}

/-- **The second plan means what the first one does**: the same output schema and the same results.  It is
well-formed. -/
structure Same (d : Database κ) (plan plan' : PlanNode κ) : Prop where
  schema : outputSchema plan' = outputSchema plan
  results : d.results plan' = d.results plan
  wellFormed : WellFormed d plan'

theorem Same.meaning (h : Same d plan plan') : d.meaning plan' = d.meaning plan := by
  rw [d.meaning_eq, d.meaning_eq, h.schema, h.results]

/-- New children with the output schemas of the old ones keep a node well-formed. -/
theorem LocallyWF.of_children (h : LocallyWF d (.node (schema, op) children))
    (hs : List.Forall₂ (fun c c' => outputSchema c' = outputSchema c) children children') :
    LocallyWF d (.node (schema, op) children') := by
  cases h with
  | seqScan table name types hcols =>
    cases hs
    exact .seqScan table name types hcols
  | indexScan table found own types hcols =>
    cases hs
    exact .indexScan table found own types hcols
  | filter types hcols =>
    obtain ⟨c, _, hc, hnil, rfl⟩ := List.forall₂_cons_left_iff.mp hs
    cases hnil
    exact .filter (by rw [hc, types]) hcols
  | projection types hcols =>
    obtain ⟨c, _, hc, hnil, rfl⟩ := List.forall₂_cons_left_iff.mp hs
    cases hnil
    exact .projection types (by rwa [hc])
  | sort types hcols =>
    obtain ⟨c, _, hc, hnil, rfl⟩ := List.forall₂_cons_left_iff.mp hs
    cases hnil
    exact .sort (by rw [hc, types]) hcols
  | nestedLoopJoin types countLeft countRight hcols =>
    obtain ⟨l, _, hl, hrest, rfl⟩ := List.forall₂_cons_left_iff.mp hs
    obtain ⟨r, _, hr, hnil, rfl⟩ := List.forall₂_cons_left_iff.mp hrest
    cases hnil
    rw [← hl, ← hr] at types hcols
    rw [← hl] at countLeft
    rw [← hr] at countRight
    exact .nestedLoopJoin types countLeft countRight hcols
  | nestedIndexJoin table found own inner types hcols =>
    obtain ⟨c, _, hc, hnil, rfl⟩ := List.forall₂_cons_left_iff.mp hs
    cases hnil
    rw [← hc] at types hcols
    exact .nestedIndexJoin table found own inner types hcols
  | other yields =>
    have htypes : (children'.map fun c => columnTypes (outputSchema c)) =
        children.map fun c => columnTypes (outputSchema c) := by
      clear yields
      induction hs with
      | nil => rfl
      | cons hc _ ih => rw [List.map_cons, List.map_cons, hc, ih]
    refine .other ?_
    intro is his o ho
    rw [htypes] at ho
    refine yields is ?_ o ho
    clear ho yields htypes
    induction hs generalizing is with
    | nil => exact his
    | cons hc _ ih =>
      obtain ⟨i, is', hi, his', rfl⟩ := List.forall₂_cons_right_iff.mp his
      rw [hc] at hi
      exact .cons hi (ih is' his')

/-- **A node whose children are replaced by plans that mean the same** means the same. -/
theorem same_node (h : LocallyWF d (.node (schema, op) children)) (hs : List.Forall₂ (Same d) children children') :
    Same d (.node (schema, op) children) (.node (schema, op) children') where
  schema := rfl
  results := by
    have hmap : children'.map d.meaning = children.map d.meaning := by
      clear h
      induction hs with
      | nil => rfl
      | cons hc _ ih => rw [List.map_cons, List.map_cons, hc.meaning, ih]
    rw [d.results_node, d.results_node, hmap]
  wellFormed := by
    refine .node (h.of_children (hs.imp fun _ _ hc => hc.schema)) ?_
    intro c' hc'
    obtain ⟨i, hi, rfl⟩ := List.getElem_of_mem hc'
    have hc : Same d _ _ := hs.get (by rw [hs.length_eq]; exact hi) hi
    exact hc.wellFormed

theorem Same.trans {plan'' : PlanNode κ} (h : Same d plan plan') (h' : Same d plan' plan'') : Same d plan plan'' :=
  ⟨h'.schema.trans h.schema, h'.results.trans h.results, h'.wellFormed⟩

end Same

/-! ## Executors -/

section Executors

variable {κ : Type} {d : Database κ} {plan plan' : PlanNode κ}

/-- Executors that settle what is left open: the rows of a node in one order, given those of its children. -/
structure Executors (d : Database κ) where
  run : List TypeId → Operator κ → List (List TypeId × Result) → Result
  allowed : ∀ types op inputs, run types op inputs ∈ d.step types op (inputs.map fun i => ⟨i.1, {i.2}⟩)

namespace Executors

variable (x : Executors d)

/-- The types of the columns and the rows of a plan. -/
def rows : PlanNode κ → List TypeId × Result :=
  Tree.fold fun a inputs => (columnTypes a.1, x.run (columnTypes a.1) a.2 inputs)

/-- What running a plan gives. -/
def result (plan : PlanNode κ) : Result := (x.rows plan).2

theorem rows_node (schema : Schema) (op : Operator κ) (children : List (PlanNode κ)) :
    x.rows (.node (schema, op) children) =
      (columnTypes schema, x.run (columnTypes schema) op (children.map x.rows)) := Tree.fold_node _ _ _

theorem rows_eq (plan : PlanNode κ) : x.rows plan = (columnTypes (outputSchema plan), x.result plan) := by
  obtain ⟨⟨schema, op⟩, children⟩ := plan
  rw [result, rows_node]
  rfl

theorem result_node (schema : Schema) (op : Operator κ) (children : List (PlanNode κ)) :
    x.result (.node (schema, op) children) = x.run (columnTypes schema) op (children.map x.rows) := by
  rw [result, rows_node]

end Executors

theorem sortResults_nonempty (orderBys : List OrderBy) (i : Result) : (d.sortResults orderBys i).Nonempty := by
  unfold Database.sortResults
  split
  · exact Set.singleton_nonempty _
  · split_ifs
    · exact sortedBy_nonempty
    · exact Set.singleton_nonempty _

/-- A node whose children have results has one. -/
theorem step_nonempty (types : List TypeId) (op : Operator κ) (ms : List Meaning) (h : ∀ m ∈ ms, m.results.Nonempty) :
    (d.step types op ms).Nonempty := by
  unfold Database.step
  split
  · exact Set.singleton_nonempty _
  · unfold Database.indexScanResults
    split
    · exact Set.singleton_nonempty _
    · exact sortedBy_nonempty.image _
  · exact (h _ (List.mem_singleton_self _)).image _
  · exact (h _ (List.mem_singleton_self _)).image _
  · obtain ⟨i, hi⟩ := h _ (List.mem_singleton_self _)
    obtain ⟨o, ho⟩ := sortResults_nonempty _ i
    exact ⟨o, i, hi, ho⟩
  · obtain ⟨i, hi⟩ := h _ (List.mem_cons_self ..)
    obtain ⟨j, hj⟩ := h _ (List.mem_cons_of_mem _ (List.mem_singleton_self _))
    exact ⟨_, i, hi, j, hj, rfl⟩
  · obtain ⟨i, hi⟩ := h _ (List.mem_singleton_self _)
    exact ⟨_, i, hi, rfl⟩
  · have hchoice : ∃ is, List.Forall₂ (fun i m => i ∈ m.results) is ms := by
      induction ms with
      | nil => exact ⟨[], .nil⟩
      | cons m ms ih =>
        obtain ⟨i, hi⟩ := h m (List.mem_cons_self ..)
        obtain ⟨is, his⟩ := ih fun m' hm' => h m' (List.mem_cons_of_mem _ hm')
        exact ⟨i :: is, .cons hi his⟩
    obtain ⟨is, his⟩ := hchoice
    obtain ⟨o, ho⟩ := d.other_nonempty _ types ((ms.map Meaning.types).zip is)
    exact ⟨o, is, his, ho⟩
  · exact Set.singleton_nonempty _

/-- There are such executors. -/
theorem executors_exist (d : Database κ) : Nonempty (Executors d) := by
  have hstep : ∀ types op (inputs : List (List TypeId × Result)),
      (d.step types op (inputs.map fun i => ⟨i.1, {i.2}⟩)).Nonempty := by
    intro types op inputs
    refine step_nonempty types op _ ?_
    rintro m hm
    obtain ⟨i, -, rfl⟩ := List.mem_map.mp hm
    exact Set.singleton_nonempty _
  exact ⟨⟨fun types op inputs => (hstep types op inputs).some, fun types op inputs => (hstep types op inputs).some_mem⟩⟩

/-- What the executors give for a plan is one of its results. -/
theorem Executors.result_mem (x : Executors d) (h : WellFormed d plan) : x.result plan ∈ d.results plan := by
  induction h with
  | @node a children here below ih =>
    obtain ⟨schema, op⟩ := a
    have hrun := x.allowed (columnTypes schema) op (children.map x.rows)
    rw [← x.result_node, List.map_map] at hrun
    rw [d.results_node]
    cases here with
    | seqScan table name types hcols => exact hrun
    | indexScan table found own types hcols => exact hrun
    | @filter _ _ child types hcols =>
      obtain ⟨i, rfl, hi⟩ := hrun
      exact ⟨_, ih child (List.mem_singleton_self child), hi⟩
    | @projection _ _ child types hcols =>
      obtain ⟨i, rfl, hi⟩ := hrun
      exact ⟨_, ih child (List.mem_singleton_self child), hi⟩
    | @sort _ _ child types hcols =>
      obtain ⟨i, rfl, hi⟩ := hrun
      exact ⟨_, ih child (List.mem_singleton_self child), hi⟩
    | @nestedLoopJoin _ _ _ left right types countLeft countRight hcols =>
      obtain ⟨i, rfl, j, rfl, hij⟩ := hrun
      refine ⟨_, ih left (by simp), _, ih right (by simp), ?_⟩
      rw [d.types_meaning]
      rw [Function.comp_apply, x.rows_eq right] at hij
      exact hij
    | @nestedIndexJoin _ _ _ _ _ _ _ _ child _ _ table found own inner types hcols =>
      obtain ⟨i, rfl, hi⟩ := hrun
      exact ⟨_, ih child (List.mem_singleton_self child), hi⟩
    | other yields =>
      obtain ⟨is, his, ho⟩ := hrun
      rw [List.map_map] at ho
      rw [List.forall₂_map_right_iff] at his
      refine ⟨is, ?_, ?_⟩
      · rw [List.forall₂_map_right_iff]
        refine List.forall₂_iff_zip.mpr ⟨his.length_eq, ?_⟩
        intro i c hmem
        have hi : i = x.result c := List.forall₂_zip his hmem
        rw [hi]
        exact ih c (List.of_mem_zip hmem).2
      · rw [List.map_map]
        convert ho using 4
        funext c
        exact (d.types_meaning c).trans (congrArg Prod.fst (x.rows_eq c)).symm

end Executors

/-! ## Constant rows -/

section FixedRows

/-- No tables; a leaf has the rows that are given with it. -/
def fixedRows : Database (List Record) where
  catalog := .new
  consistent := consistent_new
  table := fun _ => []
  typed := fun _ _ _ _ h => nomatch h
  defaultNullsFirst := fun _ => true
  indexNullsFirst := fun _ => true
  finds := fun _ _ _ => some true
  other := fun rows _ _ => {some rows}
  other_nonempty := fun _ _ _ => Set.singleton_nonempty _

/-- A leaf with constant rows. -/
def leaf (schema : Schema) (rows : List Record) : PlanNode (List Record) := .node (schema, .other rows) []

variable {schema : Schema} {rows : List Record}

theorem results_leaf : fixedRows.results (leaf schema rows) = {some rows} := by
  rw [leaf, Database.results_node]
  ext o
  constructor
  · rintro ⟨is, -, ho⟩
    exact ho
  · intro ho
    exact ⟨[], .nil, ho⟩

theorem leaf_wellFormed (h : ∀ row ∈ rows, HasTypes (columnTypes schema) row) :
    WellFormed fixedRows (leaf schema rows) := by
  refine .node (.other ?_) nofun
  intro is _ o ho
  rw [Set.mem_singleton_iff.mp ho]
  exact typed_some.mpr h

/-- An `INTEGER` column. -/
def integerColumn (name : String) : Column := .fixed name .integer 4 integer_fixed integer_size

end FixedRows

end Journey.Optimizer
