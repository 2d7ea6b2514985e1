import Journey.Bustub.Execution.MockTables
import Journey.Bustub.Execution.Pipeline
import Journey.Bustub.Planner.WellTyped

/-!
# Journey.Bustub.Planner.QueryRun — from the statement to the tuples

The executors work on encoded tuples and in batches; the meaning of a plan is about rows of values.  For statements over
mock tables and `VALUES` lists, with filters, projections and subqueries, all the executors are there.

* `Represents`: the tuple holds the values of the row.
* `Creates`: the executors that the factory makes of a plan.
* `Leaves`: what the two leaves mean.
* `creates_yields`: **the executors compute the meaning of the plan**.
* `query_runs`: planned, optimized and executed, a statement gives the rows that its plan means.
-/

namespace Journey.Planner

open SqlType Catalog Storage Execution Optimizer Binder

/-! ## Tuples and rows -/

section Tuples

variable {schema : Schema} {cols cols' : List Column} {row : Execution.Row} {record : Record} {values : List Value}

/-- The tuple has the values of the row. -/
structure Represents (schema : Schema) (row : Execution.Row) (record : Record) : Prop where
  types : Optimizer.HasTypes (columnTypes schema) record
  values : ∀ i v, record[i]? = some v → row.1.getValue schema i = .ok v

theorem Represents.read (h : Represents schema row record) (t i : ℕ) :
    row.1.getValue schema i = readRow record t i := by
  unfold readRow
  cases hv : record[i]? with
  | some v => exact h.values i v hv
  | none =>
    rw [List.getElem?_eq_none_iff, h.types.length_eq, columnTypes, List.length_map] at hv
    unfold Tuple.getValue
    rw [List.getElem?_eq_none hv]

/-- **An expression has the same value on the tuple and on the row.** -/
theorem Represents.evaluate (h : Represents schema row record) (e : Expr) :
    e.evaluate (some row.1) schema = e.eval (readRow record) := by
  rw [evaluate_eq_eval]
  congr 1
  ext t i
  rw [h.read t i]

theorem represents_ofValues (hwt : WellTyped cols values) (hsize : encodedSize cols values < 2 ^ 31) (rid : RID) :
    ∃ t, Tuple.ofValues values (.create cols) = .ok t ∧ Represents (.create cols) (t, rid) values := by
  obtain ⟨t, hof, hread⟩ := ofValues_getValue hwt hsize
  refine ⟨t, hof, ?_, hread⟩
  unfold Optimizer.HasTypes
  rw [columnTypes_create]
  exact hwt

theorem column_congr (h : cols.map Column.type = cols'.map Column.type) (i : ℕ) :
    cols[i]? = none ∧ cols'[i]? = none ∨ ∃ c c', cols[i]? = some c ∧ cols'[i]? = some c' ∧ c.type = c'.type := by
  have hi := congrArg (fun l => l[i]?) h
  simp only [List.getElem?_map] at hi
  cases hc : cols[i]? with
  | none =>
    rw [hc, Option.map_none, eq_comm, Option.map_eq_none_iff] at hi
    exact .inl ⟨rfl, hi⟩
  | some c =>
    rw [hc, Option.map_some, eq_comm, Option.map_eq_some_iff] at hi
    obtain ⟨c', hc', htype⟩ := hi
    exact .inr ⟨c, c', rfl, hc', htype.symm⟩

theorem slotSizes_congr (h : cols.map Column.type = cols'.map Column.type) : slotSizes cols = slotSizes cols' := by
  unfold slotSizes
  refine List.ext_getElem? ?_
  intro i
  rcases column_congr h i with ⟨hc, hc'⟩ | ⟨c, c', hc, hc', htype⟩
  · simp [hc, hc']
  · simp [hc, hc', slotSize_congr htype]

/-- A tuple is read by the types of the columns, not by their names. -/
theorem getValue_congr (h : cols.map Column.type = cols'.map Column.type) (t : Tuple) (i : ℕ) :
    t.getValue (.create cols) i = t.getValue (.create cols') i := by
  unfold Tuple.getValue Tuple.getDataPtr
  rw [getElem?_create, getElem?_create]
  rcases column_congr h i with ⟨hc, hc'⟩ | ⟨c, c', hc, hc', htype⟩
  · rw [hc, hc']
    rfl
  · have hoffset : (placed cols i c).offset = (placed cols' i c').offset := by
      unfold placed
      rw [slotSizes_congr h]
    have hinlined : (placed cols i c).isInlined = (placed cols' i c').isInlined := isInlined_congr htype
    have hcolumn : (placed cols i c).type = (placed cols' i c').type := htype
    simp only [hc, hc', Option.map_some, hoffset, hinlined, hcolumn]

theorem Represents.of_types {schema' : Schema} (h : Represents schema row record) (hlaid : Laid schema)
    (hlaid' : Laid schema') (htypes : columnTypes schema' = columnTypes schema) : Represents schema' row record := by
  obtain ⟨cols, rfl⟩ := hlaid
  obtain ⟨cols', rfl⟩ := hlaid'
  refine ⟨htypes ▸ h.types, ?_⟩
  intro i v hv
  rw [columnTypes_create, columnTypes_create] at htypes
  rw [getValue_congr htypes]
  exact h.values i v hv

end Tuples

/-! ## The executors of a plan -/

section Factory

/-- `ExecutorFactory::CreateExecutor`, for the plan nodes whose executors are there.  A shuffled mock table comes in any
order. -/
inductive Creates : (plan : PlanNode) → Execution.Plan (outputSchema plan) → Prop
  | values {schema : Schema} {rows : List (List Expr)} :
    Creates (.node (schema, .other (.values rows)) []) (.values (rows.map fun row => row.map Expr.evaluate) schema)
  | mockScan {schema : Schema} {table : String} {order : List ℕ} (h : order.Perm (List.range (getSizeOf table))) :
    Creates (.node (schema, .other (.mockScan table)) []) (.mockScan (mockTable table schema order h) schema)
  | filter {schema : Schema} {e : Expr} {child : PlanNode} {p : Execution.Plan (outputSchema child)}
    (predicate : Predicate (outputSchema child)) (hpredicate : predicate.1 = e.evaluate) (hchild : Creates child p) :
    Creates (.node (schema, .filter e) [child]) (.filter (outputSchema child) predicate schema p)
  | projection {schema : Schema} {expressions : List Expr} {child : PlanNode}
    {p : Execution.Plan (outputSchema child)} (hchild : Creates child p) :
    Creates (.node (schema, .projection expressions) [child])
      (.projection (outputSchema child) (expressions.map Expr.evaluate) schema p)

/-- The rows of a `VALUES` list. -/
def valuesRecords (rows : List (List Expr)) : Result :=
  rows.mapM fun row => row.mapM fun e => (e.evaluate none (.create [])).toOption

/-- The rows of a mock table. -/
def mockRecords (table : String) (types : List TypeId) : Result :=
  (List.range (getSizeOf table)).mapM fun i => (mockValues table types (UInt64.ofNat i)).toOption

/-- **What the leaves mean**: the rows that are written there, and the rows of the mock table, for a shuffled one in any
order. -/
structure Leaves (d : Database PlanKind) : Prop where
  values : ∀ rows types, d.other (.values rows) types [] = {valuesRecords rows}
  mockScan : ∀ table types, d.other (.mockScan table) types [] =
    if getShuffled table then anyOrder (mockRecords table types) else {mockRecords table types}

/-- The rows fit into tuples, whose sizes are 32-bit numbers. -/
def Fits (d : Database PlanKind) (plan : PlanNode) : Prop :=
  ∀ rows, some rows ∈ d.results plan → ∀ row ∈ rows, encodedSize (outputSchema plan).columns row < 2 ^ 31

/-- The node has a schema of its own, and rows that fit into tuples. -/
structure Runnable (d : Database PlanKind) (plan : PlanNode) : Prop where
  laid : Laid (outputSchema plan)
  fits : Fits d plan

end Factory

/-! ## One node -/

section Nodes

variable {d : Database PlanKind} {schema childSchema : Schema} {row : Execution.Row} {record : Record}
  {rows : List Execution.Row} {records : List Record} {o : Option (List Execution.Row)} {r : Result}

/-- The tuples hold the rows, one by one; where a row cannot be computed, there are none. -/
def Yields (schema : Schema) (o : Option (List Execution.Row)) (r : Result) : Prop :=
  Option.Rel (List.Forall₂ (Represents schema)) o r

/-- The tuple made of values that could be computed. -/
def encode (schema : Schema) (rid : RID) (values : Option Record) : Option Execution.Row :=
  values.bind fun values => (Tuple.ofValues values schema).toOption.map fun t => (t, rid)

theorem encode_some (hlaid : Laid schema) (htypes : Optimizer.HasTypes (columnTypes schema) record)
    (hsize : encodedSize schema.columns record < 2 ^ 31) (rid : RID) :
    ∃ row, encode schema rid (some record) = some row ∧ Represents schema row record := by
  obtain ⟨cols, rfl⟩ := hlaid
  unfold Optimizer.HasTypes at htypes
  rw [columnTypes_create] at htypes
  rw [encodedSize_create] at hsize
  obtain ⟨t, hof, hrep⟩ := represents_ofValues htypes hsize rid
  refine ⟨(t, rid), ?_, hrep⟩
  unfold encode
  rw [Option.bind_some, hof]
  rfl

/-- The tuple of values as `encode` makes it. -/
theorem map_tupleOf (exprs : List Expression) (tuple : Option Tuple) (tupleSchema : Schema) (rid : RID) :
    (tupleOf exprs tuple tupleSchema schema).map (fun tuple => (tuple, rid)) =
      encode schema rid (exprs.mapM fun expr => (expr tuple tupleSchema).toOption) := by
  unfold tupleOf encode
  show Option.map _ (Option.bind _ _) = _
  rw [Option.map_bind]
  rfl

theorem tupleOf_constants (exprs : List Expr) (rid : RID) :
    (tupleOf (exprs.map Expr.evaluate) none (.create []) schema).map (fun tuple => (tuple, rid)) =
      encode schema rid (exprs.mapM fun e => (e.evaluate none (.create [])).toOption) := by
  rw [map_tupleOf, List.mapM_map]
  rfl

theorem tupleOf_represents (expressions : List Expr) (h : Represents childSchema row record) :
    (tupleOf (expressions.map Expr.evaluate) (some row.1) childSchema schema).map (fun tuple => (tuple, row.2)) =
      encode schema row.2 (Optimizer.projectRow expressions record) := by
  rw [map_tupleOf, List.mapM_map]
  have hvalues : ((fun a : Expression => (a (some row.1) childSchema).toOption) ∘ Expr.evaluate) =
      fun e => (e.eval (readRow record)).toOption := by
    ext1 e
    exact congrArg Except.toOption (h.evaluate e)
  rw [hvalues]
  rfl

theorem mockRow_toOption (table : String) (i : ℕ) (rid : RID) :
    ((getFunctionOf table schema i).toOption.map fun tuple => (tuple, rid)) =
      encode schema rid (mockValues table (columnTypes schema) (UInt64.ofNat i)).toOption := by
  unfold getFunctionOf encode
  rw [toOption_bind, Option.map_bind]
  rfl

/-- Tuples made of the rows of a node. -/
theorem yields_encode {α β : Type} {R : α → β → Prop} {as : List α} {bs : List β} {f : α → Option Execution.Row}
    {g : β → Option Record} (h : List.Forall₂ R as bs) (rid : α → RID)
    (hf : ∀ a b, R a b → f a = encode schema (rid a) (g b)) (hlaid : Laid schema)
    (htyped : Optimizer.Typed (columnTypes schema) (bs.mapM g))
    (hfits : ∀ rows, bs.mapM g = some rows → ∀ row ∈ rows, encodedSize schema.columns row < 2 ^ 31) :
    Yields schema (as.mapM f) (bs.mapM g) := by
  refine mapM_rel h ?_ ?_
  · intro a b hab hb
    rw [hf a b hab, hb]
    rfl
  · intro rows hrows a b record hab hb hmem
    rw [hf a b hab, hb]
    exact encode_some hlaid (htyped rows hrows record hmem) (hfits rows hrows record hmem) (rid a)

/-- **A filter keeps the tuples of the rows that pass.** -/
theorem yields_filter {e : Expr} {predicate : Predicate childSchema} (hpredicate : predicate.1 = e.evaluate)
    (h : List.Forall₂ (Represents childSchema) rows records) :
    Yields childSchema
      (keepPassing (fun row => (predicate.1 (some row.1) childSchema).toOption.map letsThrough) rows)
      (selects (Optimizer.pass e) records) := by
  induction h with
  | nil => exact .some .nil
  | @cons row record rows records hrow _ ih =>
    have hpass : (predicate.1 (some row.1) childSchema).toOption.map letsThrough = Optimizer.pass e record := by
      rw [← toOption_passes]
      unfold passes Optimizer.pass
      rw [hpredicate, hrow.evaluate]
      cases e.eval (readRow record) <;> rfl
    rw [selects_cons, keepPassing, hpass]
    cases Optimizer.pass e record with
    | none => exact .none
    | some keep =>
      rw [Option.bind_some]
      show Yields childSchema ((keepPassing _ rows).bind _) _
      unfold Yields at ih
      generalize keepPassing _ rows = kept at ih ⊢
      generalize selects (Optimizer.pass e) records = selected at ih ⊢
      cases ih with
      | none => exact .none
      | some hall =>
        cases keep with
        | true => exact .some (.cons hrow hall)
        | false => exact .some hall

theorem Yields.of_types (h : Yields childSchema o r) (hlaid : Laid childSchema) (hlaid' : Laid schema)
    (htypes : columnTypes schema = columnTypes childSchema) : Yields schema o r := by
  cases h with
  | none => exact .none
  | some hall => exact .some (hall.imp fun _ _ hrep => hrep.of_types hlaid hlaid' htypes)

theorem results_leaf (kind : PlanKind) :
    d.results (.node (schema, .other kind) []) = d.other kind (columnTypes schema) [] := by
  rw [d.results_node]
  ext o
  constructor
  · rintro ⟨is, his, ho⟩
    cases his
    exact ho
  · intro ho
    exact ⟨[], .nil, ho⟩

end Nodes

/-! ## All the nodes -/

section Plans

variable {d : Database PlanKind} {plan : PlanNode}

/-- The order in which the rows of a mock table come is one that its meaning allows. -/
theorem mock_order_mem (hleaves : Leaves d) (schema : Schema) {table : String} {order : List ℕ}
    (h : order.Perm (List.range (getSizeOf table))) :
    (mockTable table schema order h).order.mapM
        (fun i => (mockValues table (columnTypes schema) (UInt64.ofNat i)).toOption) ∈
      d.other (.mockScan table) (columnTypes schema) [] := by
  rw [hleaves.mockScan]
  unfold MockTable.order mockTable
  by_cases hs : getShuffled table = true
  · simp only [hs, if_true]
    split_ifs
    · exact mem_anyOrder.mpr rfl
    · exact mem_anyOrder.mpr (bag_mapM_perm h)
  · simp [hs, mockRecords]

/-- **The executors compute the meaning of the plan**: what they give, read back, is one of its results. -/
theorem creates_yields (hleaves : Leaves d) (hwf : WellFormed d plan) (hrun : Tree.Everywhere (Runnable d) plan)
    {p : Execution.Plan (outputSchema plan)} (hp : Creates plan p) :
    ∃ r ∈ d.results plan, Yields (outputSchema plan) (denote p) r := by
  induction hp with
  | @values schema rows =>
    have hres : d.results (.node (schema, .other (.values rows)) []) = {valuesRecords rows} := by
      rw [results_leaf, hleaves.values]
    refine ⟨valuesRecords rows, by rw [hres]; rfl, ?_⟩
    have hmem : valuesRecords rows ∈ d.results (.node (schema, .other (.values rows)) []) := by
      rw [hres]
      rfl
    have hall : List.Forall₂ (fun a b => a = List.map Expr.evaluate b) (rows.map fun row => row.map Expr.evaluate) rows :=
      List.forall₂_map_left_iff.mpr (List.forall₂_same.mpr fun _ _ => rfl)
    refine yields_encode hall (fun _ => ⟨invalidPageId, 0⟩) ?_ hrun.at_root.laid (typed_results hwf _ hmem) ?_
    · rintro _ row rfl
      exact tupleOf_constants row _
    · intro records hrecords
      refine hrun.at_root.fits records ?_
      rw [← hrecords]
      exact hmem
  | @mockScan schema table order h =>
    have hmem := mock_order_mem hleaves schema h
    rw [← results_leaf] at hmem
    refine ⟨_, hmem, ?_⟩
    have hall : List.Forall₂ Eq (mockTable table schema order h).order (mockTable table schema order h).order :=
      List.forall₂_refl _
    refine yields_encode hall (fun _ => ⟨0, 0⟩) ?_ hrun.at_root.laid (typed_results hwf _ hmem) ?_
    · rintro i _ rfl
      exact mockRow_toOption table i ⟨0, 0⟩
    · intro records hrecords
      refine hrun.at_root.fits records ?_
      rw [← hrecords]
      exact hmem
  | @filter schema e child p predicate hpredicate hchild ih =>
    have hbelow := hrun.at_child child (List.mem_singleton_self _)
    obtain ⟨r, hr, hyields⟩ := ih (hwf.at_child child (List.mem_singleton_self _)) hbelow
    refine ⟨r.bind (selects (Optimizer.pass e)), ?_, ?_⟩
    · rw [d.results_node]
      exact ⟨r, hr, rfl⟩
    · have hlaid : Laid (outputSchema child) := by
        cases hbelow with
        | node here _ => exact here.laid
      have htypes : columnTypes schema = columnTypes (outputSchema child) := by
        cases hwf.at_root with
        | filter types _ => exact types
      refine Yields.of_types ?_ hlaid hrun.at_root.laid htypes
      show Yields (outputSchema child) ((denote p).bind _) _
      unfold Yields at hyields
      generalize denote p = o at hyields ⊢
      cases hyields with
      | none => exact .none
      | some hall => exact yields_filter hpredicate hall
  | @projection schema expressions child p hchild ih =>
    have hbelow := hrun.at_child child (List.mem_singleton_self _)
    obtain ⟨r, hr, hyields⟩ := ih (hwf.at_child child (List.mem_singleton_self _)) hbelow
    have hmem : (r.bind fun rows => rows.mapM (Optimizer.projectRow expressions)) ∈
        d.results (.node (schema, .projection expressions) [child]) := by
      rw [d.results_node]
      exact ⟨r, hr, rfl⟩
    refine ⟨_, hmem, ?_⟩
    show Yields schema ((denote p).bind _) _
    unfold Yields at hyields
    generalize denote p = o at hyields ⊢
    cases hyields with
    | none => exact .none
    | @some rows records hall =>
      refine yields_encode hall Prod.snd ?_ hrun.at_root.laid (typed_results hwf _ hmem) ?_
      · intro row record hrep
        exact tupleOf_represents expressions hrep
      · intro out hout
        refine hrun.at_root.fits out ?_
        rw [← hout]
        exact hmem

/-- Polling new executors ends with the rows of the plan, or with an exception if one of them cannot be computed. -/
theorem poll_new {schema : Schema} (p : Execution.Plan schema) {batchSize : ℕ} (hn : 0 < batchSize) :
    ∃ fuel, ∀ k ≥ fuel, ∃ result, pollExecutor p batchSize k (init p (create p)) = some result ∧
      result.toOption = denote p := by
  refine ⟨pending p (create p) + 1, ?_⟩
  intro k hk
  obtain ⟨result, hres, heq⟩ := drain_spec (next_produces p) (fun _ : ℕ => hn) k 0 (create p) [] (by omega)
  refine ⟨result, ?_, by rw [heq, nil_append?, left_create]⟩
  rw [init_create]
  exact hres

end Plans

/-! ## The optimizer on pipelines -/

section Pipelines

variable {d : Database PlanKind} {plan plan' : PlanNode}

/-- A filter by a `BOOLEAN`, a projection, a `VALUES` list whose rows have the types of its columns, or a mock scan. -/
def Pipelined : PlanNode → Prop
  | .node (_, .filter predicate) [_] => predicate.returnType = .boolean
  | .node (_, .projection _) [_] => True
  | .node (schema, .other (.values rows)) [] => ∀ row ∈ rows, row.map Expr.returnType = columnTypes schema
  | .node (_, .other (.mockScan _)) [] => True
  | _ => False

/-- The shapes of such nodes. -/
inductive Shape : PlanNode → Prop
  | filter {schema : Schema} {predicate : Expr} {child : PlanNode} (h : predicate.returnType = .boolean) :
    Shape (.node (schema, .filter predicate) [child])
  | projection {schema : Schema} {expressions : List Expr} {child : PlanNode} :
    Shape (.node (schema, .projection expressions) [child])
  | values {schema : Schema} {rows : List (List Expr)} (h : ∀ row ∈ rows, row.map Expr.returnType = columnTypes schema) :
    Shape (.node (schema, .other (.values rows)) [])
  | mockScan {schema : Schema} {table : String} : Shape (.node (schema, .other (.mockScan table)) [])

theorem shape_of_pipelined (h : Pipelined plan) : Shape plan := by
  unfold Pipelined at h
  split at h
  · exact .filter h
  · exact .projection
  · exact .values h
  · exact .mockScan
  · exact h.elim

/-- **The factory makes executors** of every well-formed plan of such nodes. -/
theorem creates_of_pipelined (hwf : WellFormed d plan) (h : Tree.Everywhere Pipelined plan) :
    ∃ p : Execution.Plan (outputSchema plan), Creates plan p := by
  induction h with
  | @node a children here below ih =>
    cases shape_of_pipelined here with
    | @filter schema e child hboolean =>
      obtain ⟨p, hp⟩ := ih child (List.mem_singleton_self _) (hwf.at_child child (List.mem_singleton_self _))
      have hpred : ∀ tuple value, e.evaluate (some tuple) (outputSchema child) = .ok value → value.getTypeId = .boolean := by
        intro tuple value hvalue
        cases hwf.at_root with
        | filter types hcols =>
          rw [types] at hcols
          rw [evaluate_eq_eval] at hvalue
          rw [← hboolean]
          refine getTypeId_eval ?_ hcols hvalue
          intro t i type v htype hv
          cases t with
          | succ t => cases htype
          | zero =>
            change (columnTypes (outputSchema child))[i]? = some type at htype
            rw [columnTypes, List.getElem?_map, Option.map_eq_some_iff] at htype
            obtain ⟨c, hc, rfl⟩ := htype
            exact getTypeId_getValue hc hv
      exact ⟨_, .filter ⟨e.evaluate, hpred⟩ rfl hp⟩
    | projection =>
      obtain ⟨p, hp⟩ := ih _ (List.mem_singleton_self _) (hwf.at_child _ (List.mem_singleton_self _))
      exact ⟨_, .projection hp⟩
    | values _ => exact ⟨_, .values⟩
    | mockScan => exact ⟨_, .mockScan (List.Perm.refl _)⟩

/-- A rule that looks at joins, sorts, and filters over joins and scans, leaves these nodes as they are. -/
theorem rules_fixed (catalog : Catalog) (h : Tree.Everywhere Pipelined plan) :
    mergeFilterNLJ plan = .ok plan ∧ nljAsIndexJoin catalog plan = .ok plan ∧
      orderByAsIndexScan catalog plan = .ok plan ∧ mergeFilterScan plan = .ok plan := by
  cases h with
  | @node a children here below =>
    cases shape_of_pipelined here with
    | @filter schema e child hboolean =>
      have hchild := below child (List.mem_singleton_self _)
      cases hchild with
      | @node b grandchildren here' _ =>
        cases shape_of_pipelined here' <;> exact ⟨rfl, rfl, rfl, rfl⟩
    | projection => exact ⟨rfl, rfl, rfl, rfl⟩
    | values _ => exact ⟨rfl, rfl, rfl, rfl⟩
    | mockScan => exact ⟨rfl, rfl, rfl, rfl⟩

theorem passes_fixed (catalog : Catalog) (h : Tree.Everywhere Pipelined plan) :
    optimizeMergeFilterNLJ plan = .ok plan ∧ optimizeNLJAsIndexJoin catalog plan = .ok plan ∧
      optimizeOrderByAsIndexScan catalog plan = .ok plan ∧ optimizeMergeFilterScan plan = .ok plan := by
  have hall := h.subtrees
  refine ⟨?_, ?_, ?_, ?_⟩
  · exact Tree.bottomUp_fixed (hall.imp fun _ ht => (rules_fixed catalog ht).1)
  · exact Tree.bottomUp_fixed (hall.imp fun _ ht => (rules_fixed catalog ht).2.1)
  · exact Tree.bottomUp_fixed (hall.imp fun _ ht => (rules_fixed catalog ht).2.2.1)
  · exact Tree.bottomUp_fixed (hall.imp fun _ ht => (rules_fixed catalog ht).2.2.2)

/-- What the executors ask of a node. -/
def Ready (d : Database PlanKind) (plan : PlanNode) : Prop := Pipelined plan ∧ Runnable d plan

/-- **Merging projections** leaves nodes that the executors can run. -/
theorem ready_mergeProjection (h : Tree.Everywhere (Ready d) plan) (hrule : mergeProjection plan = .ok plan')
    (hsame : Same d plan plan') : Tree.Everywhere (Ready d) plan' := by
  unfold mergeProjection at hrule
  split at hrule
  · rename_i schema exprs child
    obtain ⟨⟨childSchema, op⟩, grandchildren⟩ := child
    have hchild := h.at_child _ (List.mem_singleton_self _)
    split_ifs at hrule with hmerge
    · cases hrule
      have htypes : columnTypes childSchema = columnTypes schema := hmerge.1
      refine .node ⟨?_, h.at_root.2.laid, ?_⟩ hchild.at_child
      · have hpipe := hchild.at_root.1
        cases shape_of_pipelined hpipe with
        | filter hboolean => exact hboolean
        | projection => trivial
        | @values _ rows hrows =>
          show ∀ row ∈ rows, row.map Expr.returnType = columnTypes schema
          rw [← htypes]
          exact hrows
        | mockScan => trivial
      · intro rows hrows
        rw [hsame.results] at hrows
        exact h.at_root.2.fits rows hrows
    · cases hrule
      exact h
  · cases hrule
  · cases hrule
    exact h

/-- **The optimizer on such plans** only merges projections; the plan it returns can be executed as well. -/
theorem optimize_pipelined (forceStarterRule : Bool) (hwf : WellFormed d plan) (h : Tree.Everywhere (Ready d) plan) :
    ∃ plan', optimize d.catalog forceStarterRule plan = .ok plan' ∧ Same d plan plan' ∧
      Tree.Everywhere (Ready d) plan' := by
  obtain ⟨plan', hmerge, hsame, hready⟩ : ∃ plan', optimizeMergeProjection plan = .ok plan' ∧
      (Same d plan plan' ∧ Tree.Everywhere (Ready d) plan') := by
    refine Tree.bottomUp_rel (R := fun t t' => Same d t t' ∧ Tree.Everywhere (Ready d) t') ?_
      (Tree.Everywhere.and hwf h)
    rintro ⟨schema, op⟩ children children' hboth hs
    have hnode : Same d (.node (schema, op) children) (.node (schema, op) children') :=
      same_node hboth.at_root.1 (hs.imp fun _ _ hc => hc.1)
    have hready : Tree.Everywhere (Ready d) (.node (schema, op) children') := by
      refine .node ⟨?_, hboth.at_root.2.2.laid, ?_⟩ ?_
      · -- as many children as before
        have hpipe := hboth.at_root.2.1
        cases shape_of_pipelined hpipe with
        | filter hboolean =>
          obtain ⟨c, _, _, hnil, rfl⟩ := List.forall₂_cons_left_iff.mp hs
          cases hnil
          exact hboolean
        | projection =>
          obtain ⟨c, _, _, hnil, rfl⟩ := List.forall₂_cons_left_iff.mp hs
          cases hnil
          trivial
        | values hrows =>
          cases hs
          exact hrows
        | mockScan =>
          cases hs
          trivial
      · intro rows hrows
        rw [hnode.results] at hrows
        exact hboth.at_root.2.2.fits rows hrows
      · intro c' hc'
        obtain ⟨i, hi, rfl⟩ := List.getElem_of_mem hc'
        have hc : Same d _ _ ∧ Tree.Everywhere (Ready d) _ := hs.get (by rw [hs.length_eq]; exact hi) hi
        exact hc.2
    obtain ⟨plan', hrule, hsame⟩ := mergeProjection_sameOrder hnode.wellFormed
    exact ⟨plan', hrule, hnode.trans hsame.toSame, ready_mergeProjection hready hrule hsame.toSame⟩
  refine ⟨plan', ?_, hsame, hready⟩
  obtain ⟨hnlj, hindex, horder, hscan⟩ := passes_fixed d.catalog (hready.imp fun _ ht => ht.1)
  unfold optimize optimizeCustom
  cases forceStarterRule with
  | true => simp [hmerge, hnlj, hindex, horder, hscan, optimizeSeqScanAsIndexScan]
  | false =>
    simp [hmerge, hnlj, horder, hscan, optimizeNLJAsHashJoin, optimizeSortLimitAsTopN, optimizeSeqScanAsIndexScan]

end Pipelines

/-! ## Statements -/

section Statements

variable {d : Database PlanKind} {plan : PlanNode} {schema : Schema} {types : List TypeId}

/-- The mock tables of the catalog have the columns that `GenerateMockTable` gives them. -/
def MockCatalog (catalog : Catalog) : Prop :=
  ∀ table info, catalog.getTable table = .ok (some info) → startsWith info.name "__mock" = true →
    ∃ cols : List Column, getMockTableSchemaOf info.name = .ok (.create cols) ∧
      columnTypes info.schema = cols.map Column.type

theorem typed_valuesRecords {rows : List (List Expr)} (h : ∀ row ∈ rows, row.map Expr.returnType = types) :
    Optimizer.Typed types (valuesRecords rows) := by
  intro records hrecords record hrecord
  obtain ⟨row, hrow, heval⟩ : ∃ row ∈ rows, (row.mapM fun e => (e.evaluate none (.create [])).toOption) = some record := by
    have hmem : some record ∈ records.map some := List.mem_map_of_mem hrecord
    rw [← map_of_mapM_eq_some hrecords] at hmem
    exact List.mem_map.mp hmem
  rw [← h row hrow]
  show record.map Value.getTypeId = row.map Expr.returnType
  clear hrow h hrecords hrecord
  induction row generalizing record with
  | nil =>
    cases heval
    rfl
  | cons e row ih =>
    rw [List.mapM_cons] at heval
    obtain ⟨v, hv, heval⟩ := Option.bind_eq_some_iff.mp heval
    obtain ⟨vs, hvs, hcons⟩ := Option.bind_eq_some_iff.mp heval
    cases hcons
    have htype : v.getTypeId = e.returnType := by
      rw [toOption_eq_some, evaluate_eq_read] at hv
      refine getTypeId_eval_of_column ?_ hv
      intro t i c _ hread
      cases hread
    rw [List.map_cons, List.map_cons, htype, ih _ hvs]

theorem typed_mockRecords {table : String} {cols : List Column}
    (hschema : getMockTableSchemaOf table = .ok (.create cols)) : Optimizer.Typed (cols.map Column.type)
      (mockRecords table (cols.map Column.type)) := by
  intro records hrecords record hrecord
  have hmem : some record ∈ records.map some := List.mem_map_of_mem hrecord
  rw [← map_of_mapM_eq_some hrecords] at hmem
  obtain ⟨i, hi, hrow⟩ := List.mem_map.mp hmem
  obtain ⟨values, hvalues, hwt, -⟩ := mockValues_ok hschema rfl (List.mem_range.mp hi)
  rw [hvalues] at hrow
  cases hrow
  exact hwt

/-- **The leaves of planned statements have rows of the types of their columns.** -/
theorem executable_of_planned (hleaves : Leaves d) (hmock : MockCatalog d.catalog) (hplanned : PlannedNode d plan)
    (hpipe : Pipelined plan) : Executable d plan := by
  cases shape_of_pipelined hpipe with
  | filter _ => trivial
  | projection => trivial
  | values hrows =>
    intro is his o ho
    cases his
    rw [List.map_nil, List.zip_nil_left, hleaves.values, Set.mem_singleton_iff] at ho
    rw [ho]
    exact typed_valuesRecords hrows
  | @mockScan schema table =>
    intro is his o ho
    cases his
    obtain ⟨_, info, hinfo, rfl, hname, htypes⟩ := hplanned.mock
    obtain ⟨cols, hschema, hcols⟩ := hmock _ info hinfo hname
    rw [htypes, hcols] at ho ⊢
    rw [List.map_nil, List.zip_nil_left, hleaves.mockScan] at ho
    split_ifs at ho
    · exact (typed_mockRecords hschema).of_bag ho
    · rw [Set.mem_singleton_iff.mp ho]
      exact typed_mockRecords hschema

/-- The factory makes executors of `plan'`, and whatever executors it makes and whatever the batch size, polling them ends
with tuples that hold, one by one, the rows of a result of `plan`, or with an exception if that is what `plan` means. -/
def Delivers (d : Database PlanKind) (plan plan' : PlanNode) (schema : Schema) : Prop :=
  (∃ p : Execution.Plan (outputSchema plan'), Creates plan' p) ∧
    ∀ p : Execution.Plan (outputSchema plan'), Creates plan' p → ∀ batchSize, 0 < batchSize →
      ∃ fuel, ∀ k ≥ fuel, ∃ result, pollExecutor p batchSize k (init p (create p)) = some result ∧
        ∃ r ∈ d.results plan, Yields schema result.toOption r

/-- **A planned pipeline is optimized and executed.** -/
theorem planned_runs (hleaves : Leaves d) (hmock : MockCatalog d.catalog) (hplanned : PlannedPlan d plan)
    (hpipe : Tree.Everywhere Pipelined plan) (hfits : Tree.Everywhere (Fits d) plan) (forceStarterRule : Bool) :
    ∃ plan', optimize d.catalog forceStarterRule plan = .ok plan' ∧ outputSchema plan' = outputSchema plan ∧
      Delivers d plan plan' (outputSchema plan) := by
  have hexec : Tree.Everywhere (Executable d) plan :=
    (Tree.Everywhere.and hplanned hpipe).imp fun _ ht => executable_of_planned hleaves hmock ht.1 ht.2
  have hwf := wellFormed_of_planned hplanned hexec
  have hready : Tree.Everywhere (Ready d) plan := by
    refine Tree.Everywhere.imp ?_ (Tree.Everywhere.and hplanned (Tree.Everywhere.and hpipe hfits))
    rintro t ⟨ht, hpipe, hfits⟩
    exact ⟨hpipe, ht.laid, hfits⟩
  obtain ⟨plan', hopt, hsame, hready'⟩ := optimize_pipelined forceStarterRule hwf hready
  refine ⟨plan', hopt, hsame.schema, creates_of_pipelined hsame.wellFormed (hready'.imp fun _ ht => ht.1), ?_⟩
  intro p hp batchSize hn
  obtain ⟨fuel, hpoll⟩ := poll_new p hn
  refine ⟨fuel, ?_⟩
  intro k hk
  obtain ⟨result, hres, hdenote⟩ := hpoll k hk
  obtain ⟨r, hr, hyields⟩ := creates_yields hleaves hsame.wellFormed (hready'.imp fun _ ht => ht.2) hp
  refine ⟨result, hres, r, hsame.results ▸ hr, ?_⟩
  rw [hdenote, ← hsame.schema]
  exact hyields

/-- **From the statement to the tuples.**  Take a `SELECT` statement whose plan has only mock scans, `VALUES` lists with
rows of one type, filters by booleans, and projections, among them those of subqueries and CTEs; and let the rows of all
nodes fit into tuples.  Then the optimizer ends, with either set of rules; the factory makes executors of its plan; and
whatever executors it makes, however it shuffles, and whatever the batch size, polling them ends, either with tuples that
hold, one by one, the rows of a result of the plan as it was before the optimizer, or with an exception if that is what
the plan means. -/
theorem query_runs (d : Database PlanKind) (hleaves : Leaves d) (hmock : MockCatalog d.catalog)
    (valueToString : Value → String) (depth : ℕ) (ctes : CTEScope) (statement : SelectStatement) (st st' : PlannerState)
    (plan : PlanNode) (hscope : ScopeBound d.catalog ctes) (hstatement : statementBound d.catalog statement)
    (hplan : planSelect d.catalog valueToString depth ctes statement st = .ok (plan, st'))
    (hpipe : Tree.Everywhere Pipelined plan) (hfits : Tree.Everywhere (Fits d) plan) (forceStarterRule : Bool) :
    ∃ plan', optimize d.catalog forceStarterRule plan = .ok plan' ∧ outputSchema plan' = outputSchema plan ∧
      (∃ p : Execution.Plan (outputSchema plan'), Creates plan' p) ∧
      ∀ p : Execution.Plan (outputSchema plan'), Creates plan' p → ∀ batchSize, 0 < batchSize →
        ∃ fuel, ∀ k ≥ fuel, ∃ result, pollExecutor p batchSize k (init p (create p)) = some result ∧
          ∃ r ∈ d.results plan, Yields (outputSchema plan) result.toOption r := by
  have hplanned := planSelect_planned depth hscope hstatement hplan
  exact planned_runs hleaves hmock hplanned hpipe hfits forceStarterRule

/-- Rows of numbers fit into tuples. -/
theorem fits_of_integers (hwf : WellFormed d plan) (h : ∀ type ∈ columnTypes (outputSchema plan), type = .integer)
    (hlen : (outputSchema plan).columns.length < 2 ^ 22) : Fits d plan := by
  intro rows hrows row hrow
  have htypes : row.map Value.getTypeId = columnTypes (outputSchema plan) := typed_results hwf _ hrows rows rfl row hrow
  have hdata : ∀ v ∈ row, dataLen v ≤ 0 := by
    intro v hv
    have htype := h v.getTypeId (htypes ▸ List.mem_map_of_mem hv)
    cases v <;> first | exact le_refl _ | cases htype
  have hle : encodedSize (outputSchema plan).columns row ≤ (outputSchema plan).columns.length * (259 + 0) :=
    encodedSize_le hdata
  omega

/-- What the leaves mean, as a function; the nodes without executors have no rows. -/
def leafResults : PlanKind → List TypeId → List (List TypeId × Result) → Set Result
  | .values rows, _, [] => {valuesRecords rows}
  | .mockScan table, types, [] =>
    if getShuffled table then anyOrder (mockRecords table types) else {mockRecords table types}
  | _, _, _ => {some []}

theorem leafResults_nonempty (kind : PlanKind) (types : List TypeId) (inputs : List (List TypeId × Result)) :
    (leafResults kind types inputs).Nonempty := by
  unfold leafResults
  split
  · exact Set.singleton_nonempty _
  · split_ifs
    · exact ⟨_, mem_anyOrder.mpr rfl⟩
    · exact Set.singleton_nonempty _
  · exact Set.singleton_nonempty _

/-- The entry of `__mock_table_123` in the catalog. -/
def mockInfo : TableInfo := ⟨.create [integerField "number"], "__mock_table_123", none, 0⟩

theorem consistent_mockCatalog : (Catalog.new.addTable mockInfo).Consistent :=
  consistent_new.addTable (by decide) (by decide)

/-- The database of that mock table. -/
def mockDatabase : Database PlanKind where
  catalog := Catalog.new.addTable mockInfo
  consistent := consistent_mockCatalog
  table := fun _ => []
  typed := fun _ _ _ _ hrow => absurd hrow List.not_mem_nil
  defaultNullsFirst := fun _ => true
  indexNullsFirst := fun _ => true
  finds := fun _ _ _ => some true
  other := leafResults
  other_nonempty := leafResults_nonempty

theorem leaves_mockDatabase : Leaves mockDatabase := ⟨fun _ _ => rfl, fun _ _ => rfl⟩

theorem mockCatalog_mockDatabase : MockCatalog mockDatabase.catalog := by
  intro table info hinfo _
  obtain ⟨oid, hoid⟩ : ∃ oid, (Catalog.new.tables.emplace 0 mockInfo).lookup oid = some info := by
    unfold getTable at hinfo
    split at hinfo
    · cases hinfo
    · split at hinfo
      · cases hinfo
      · rename_i htable
        cases hinfo
        exact ⟨_, htable⟩
  rw [lookup_emplace _ (by decide)] at hoid
  split_ifs at hoid
  · cases hoid
    exact ⟨[integerField "number"], rfl, rfl⟩
  · cases hoid

/-- `m.number`. -/
def columnM : BoundExpression := .columnRef ["m", "number"] (qualified_pair "m" "number")

/-- `SELECT m.number FROM __mock_table_123 AS m WHERE m.number = 2`. -/
def selectM : SelectStatement where
  exprs := 0
  table := .baseTable "__mock_table_123" 0 (some "m") mockInfo.schema
  where_ := .binaryOp "=" columnM (.constant (.integer 2))
  groupBy := []
  limitCount := .invalid
  limitOffset := .invalid
  sort := []
  ctes := []
  isDistinct := false

/-- No `HAVING`, and `m.number` as the select list. -/
def stateM : PlannerState := ⟨fun _ => ⟨.invalid, [columnM]⟩, 0⟩

/-- `m.number` as an expression. -/
def readM : Expr := .columnValue 0 0 (integerColumn "m.number")

/-- The planned statement. -/
def planM : PlanNode :=
  .node (.create [integerColumn "m.number"], .projection [readM])
    [.node (.create [integerColumn "m.number"], .filter (.comparison .equal readM (.constantValue (.integer 2))))
      [.node (.create [integerColumn "m.number"], .other (.mockScan "__mock_table_123")) []]]

theorem planSelect_selectM : planSelect mockDatabase.catalog (fun _ => "") 2 none selectM stateM =
    .ok (planM, ⟨Function.update stateM.heap 0 (stateM.heap 0), 0⟩) := rfl

theorem pipelined_planM : Tree.Everywhere Pipelined planM := by
  refine .node trivial ?_
  intro t ht
  rw [List.mem_singleton.mp ht]
  refine .node rfl ?_
  intro t ht
  rw [List.mem_singleton.mp ht]
  exact .node trivial fun _ ht => absurd ht List.not_mem_nil

theorem integers_planM : Tree.Everywhere (fun t => outputSchema t = .create [integerColumn "m.number"]) planM := by
  refine .node rfl ?_
  intro t ht
  rw [List.mem_singleton.mp ht]
  refine .node rfl ?_
  intro t ht
  rw [List.mem_singleton.mp ht]
  exact .node rfl fun _ ht => absurd ht List.not_mem_nil

theorem bound_selectM : statementBound mockDatabase.catalog selectM := by
  refine statementBound_iff.mpr ⟨?_, trivial⟩
  intro info hinfo
  have hget : mockDatabase.catalog.getTable "__mock_table_123" = .ok (some mockInfo) := rfl
  rw [hget] at hinfo
  cases hinfo
  rfl

theorem scope_none : ScopeBound mockDatabase.catalog none := fun _ h => by cases h

theorem fits_planM : Tree.Everywhere (Fits mockDatabase) planM := by
  have hplanned := planSelect_planned 2 scope_none bound_selectM planSelect_selectM
  have hexec : Tree.Everywhere (Executable mockDatabase) planM := by
    refine Tree.Everywhere.imp ?_ (Tree.Everywhere.and hplanned pipelined_planM)
    rintro t ⟨ht, hpipe⟩
    exact executable_of_planned leaves_mockDatabase mockCatalog_mockDatabase ht hpipe
  refine Tree.Everywhere.imp ?_ (Tree.Everywhere.and (wellFormed_of_planned hplanned hexec).subtrees integers_planM)
  rintro t ⟨hwf, hschema⟩
  refine fits_of_integers hwf ?_ ?_
  · rw [hschema]
    decide
  · rw [hschema]
    decide

/-- The projection goes, and the scan and the filter give the row `2`. -/
theorem query_runs_selectM :
    ∃ plan', optimize mockDatabase.catalog false planM = .ok plan' ∧
      outputSchema plan' = outputSchema planM ∧ (∃ p : Execution.Plan (outputSchema plan'), Creates plan' p) ∧
      ∀ p : Execution.Plan (outputSchema plan'), Creates plan' p → ∀ batchSize, 0 < batchSize →
        ∃ fuel, ∀ k ≥ fuel, ∃ result, pollExecutor p batchSize k (init p (create p)) = some result ∧
          ∃ r ∈ mockDatabase.results planM, Yields (outputSchema planM) result.toOption r :=
  query_runs mockDatabase leaves_mockDatabase mockCatalog_mockDatabase _ _ none selectM _ _ planM scope_none
    bound_selectM planSelect_selectM pipelined_planM fits_planM false

end Statements

end Journey.Planner
