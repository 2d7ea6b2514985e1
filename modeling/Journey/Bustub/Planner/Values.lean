import Journey.Bustub.Planner.Select

/-!
# Journey.Bustub.Planner.Values — `VALUES` lists

The binder makes sure that the rows of a `VALUES` list have the same length.  The planner takes the types of
the columns from the first row, and the executor encodes each row with its own values.

* `bindConstant`, `bindValuesList`: the binder; a `NULL` is an integer.
* `planInsert`: the check of `PlanInsert`, which looks at the schema only.
* `planExpressionListRef_cases`: the plan has the types of the first row.
* `values_decode`: a tuple that is emitted decodes to the values of its row iff the row has these types.
-/

namespace Journey.Planner

open SqlType Catalog Storage Execution Optimizer Binder

/-! ## Binding and planning -/

section Model

/-- The literals of the parser; a float is given by what `std::stod` makes of it, a literal of another kind by its tag. -/
inductive PGValue
  | integer (ival : Int64)
  | float (bits : UInt64)
  | string (str : List UInt8)
  | null
  | other (tag : String)

/-- `BindConstant`. -/
def bindConstant : PGValue → Except Fault BoundExpression
  | .integer ival =>
    if ival.toInt ≤ 2 ^ 31 - 1 then .ok (.constant (.integer ival.toInt32))
    else .error (.terminate "value out of range")
  | .float bits => .ok (.constant (.decimal bits))
  | .string str => .ok (.constant (stringValue str))
  | .null => .ok (.constant (.integer int32Null))
  | .other tag => .error (.exception .invalid ("unsupported pg value: " ++ tag))

/-- The loop of `BindExpressionList` over expressions that are bound. -/
def bindExpressionList (exprs : List BoundExpression) : Except Fault (List BoundExpression) :=
  exprs.mapM fun expr =>
    match expr with
    | .star => .error (.exception .invalid "unsupported * in expression list")
    | expr => .ok expr

/-- The loop of `BindValuesList`. -/
def bindValueLists : List (List BoundExpression) → List (List BoundExpression) →
    Except Fault (List (List BoundExpression))
  | [], allValues => .ok allValues
  | target :: lists, allValues => do
    let values ← bindExpressionList target
    match allValues with
    | [] => bindValueLists lists [values]
    | first :: rest =>
      if first.length ≠ values.length then .error (.exception .invalid "values must have the same length")
      else bindValueLists lists (first :: rest ++ [values])

/-- `BindValuesList`. -/
def bindValuesList (lists : List (List BoundExpression)) : Except Fault (List (List BoundExpression)) := do
  let allValues ← bindValueLists lists []
  if allValues.isEmpty then .error (.exception .invalid "at least one row of values should be provided")
  else .ok allValues

/-- The select list that `BindSelect` makes for a `VALUES` list of `n` columns. -/
def valuesExprs (name : String) (n : ℕ) : SelectExprs :=
  ⟨.invalid, (List.range n).map fun i => .columnRef [name, toString i] (le_refl 2)⟩

/-- The statement that `BindSelect` makes for a `VALUES` list. -/
def valuesStatement (exprs : ℕ) (values : List (List BoundExpression)) (identifier : String) : SelectStatement where
  exprs := exprs
  table := .expressionList values identifier
  where_ := .invalid
  groupBy := []
  limitCount := .invalid
  limitOffset := .invalid
  sort := []
  ctes := []
  isDistinct := false

/-- `PlanInsert`, when the statement that feeds it is planned. -/
def planInsert (tableSchema : Schema) (tableOid : UInt32) (select : PlanNode) : Except Fault PlanNode :=
  if tableSchema.columns.map Column.type = (outputSchema select).columns.map Column.type then
    .ok (.node (.create [.fixed "__bustub_internal.insert_rows" .integer 4 integer_fixed integer_size],
      .other (.insert tableOid)) [select])
  else .error (.exception .invalid "table schema mismatch")

/-- The executor's plan for the rows of a `VALUES` node. -/
def valuesPlan (rows : List (List Expr)) (schema : Schema) : Execution.Plan schema :=
  .values (rows.map fun row => row.map Expr.evaluate) schema

end Model

/-! ## The plan -/

section Plan

theorem getColumn_type {v : Value} {column : Column} (h : getColumn v = .ok column) : column.type = v.getTypeId := by
  cases v <;> cases h <;> rfl

theorem getReturnType_type {e : Expr} {column : Column} (h : getReturnType e = .ok column) :
    column.type = e.returnType := by
  cases e with
  | constantValue val => exact getColumn_type h
  | _ =>
    cases h
    rfl

/-- The rows have the length of the first one. -/
theorem bindValueLists_length {lists : List (List BoundExpression)} {first : List BoundExpression}
    {rest values : List (List BoundExpression)} (hrest : ∀ row ∈ rest, row.length = first.length)
    (h : bindValueLists lists (first :: rest) = .ok values) :
    ∃ rest', values = first :: rest' ∧ ∀ row ∈ rest', row.length = first.length := by
  induction lists generalizing rest with
  | nil =>
    cases h
    exact ⟨rest, rfl, hrest⟩
  | cons target lists ih =>
    obtain ⟨row, -, h⟩ := bind_eq_ok.mp h
    dsimp only at h
    split_ifs at h with hlen
    refine ih ?_ h
    intro row' hrow'
    rcases List.mem_append.mp hrow' with hrow' | hrow'
    · exact hrest row' hrow'
    · cases List.mem_singleton.mp hrow'
      exact (not_not.mp hlen).symm

theorem bindValuesList_length {lists values : List (List BoundExpression)} (h : bindValuesList lists = .ok values) :
    ∃ first rest, values = first :: rest ∧ ∀ row ∈ rest, row.length = first.length := by
  obtain ⟨values', hvalues, h⟩ := bind_eq_ok.mp h
  split_ifs at h with hempty
  cases h
  cases lists with
  | nil =>
    cases hvalues
    exact absurd rfl hempty
  | cons target lists =>
    obtain ⟨first, -, hvalues⟩ := bind_eq_ok.mp hvalues
    obtain ⟨rest, rfl, hlen⟩ := bindValueLists_length (fun _ hrow => absurd hrow List.not_mem_nil) hvalues
    exact ⟨first, rest, rfl, hlen⟩

/-- **The columns of the plan have the types of the first row**, and its rows the lengths of the list's. -/
theorem planExpressionListRef_cases {values : List (List BoundExpression)} {identifier : String} {plan : PlanNode}
    (h : planExpressionListRef values identifier = .ok plan) :
    ∃ first rest columns, plan = .node (.create columns, .other (.values (first :: rest))) [] ∧
      columns.map Column.type = first.map Expr.returnType ∧
      (first :: rest).map List.length = values.map List.length := by
  obtain ⟨rows, hrows, h⟩ := bind_eq_ok.mp h
  have hlen : (rows.map fun row => row.map Prod.snd).map List.length = values.map List.length := by
    rw [List.map_map, eq_comm]
    refine map_eq_of_forall₂ (forall₂_of_mapM_eq_ok hrows) ?_
    intro row items hrow
    exact (forall₂_of_mapM_eq_ok hrow).length_eq.trans (List.length_map _).symm
  cases hall : rows.map fun row => row.map Prod.snd with
  | nil =>
    rw [hall] at h
    cases h
  | cons first rest =>
    rw [hall] at h hlen
    obtain ⟨schema, hschema, h⟩ := bind_eq_ok.mp h
    cases h
    obtain ⟨columns, hcolumns, hschema⟩ := bind_eq_ok.mp hschema
    cases hschema
    refine ⟨first, rest, _, rfl, ?_, hlen⟩
    have htypes : (columns.mapIdx fun idx column => withColumnName column (identifier ++ "." ++ toString idx)).map
        Column.type = columns.map Column.type := by
      refine List.ext_getElem? ?_
      intro i
      simp only [List.getElem?_map, List.getElem?_mapIdx, Option.map_map]
      rfl
    rw [htypes, eq_comm]
    exact map_eq_of_forall₂ (forall₂_of_mapM_eq_ok hcolumns) fun _ _ h => (getReturnType_type h).symm

end Plan

/-! ## The tuples -/

section Tuples

/-- The tuple decodes under the schema, column by column, to the values of the expressions. -/
def Decodes (schema : Schema) (row : List Expr) (tuple : Tuple) : Prop :=
  ∀ (j : ℕ) e, row[j]? = some e → ∃ v, e.evaluate none (.create []) = .ok v ∧ tuple.getValue schema j = .ok v

variable {columns : List Column} {row first : List Expr} {r : Execution.Row}

/-- The value of an expression without a tuple has its return type. -/
theorem getTypeId_evaluate_none {e : Expr} {schema : Schema} {v : Value} (h : e.evaluate none schema = .ok v) :
    v.getTypeId = e.returnType := by
  rw [evaluate_eq_read] at h
  refine getTypeId_eval_of_column ?_ h
  intro t i c _ hcolumn
  cases hcolumn

/-- The row of an executor, from the values of its expressions. -/
theorem evaluateRow_cases {schema : Schema} (h : evaluateRow schema (row.map Expr.evaluate) = .ok r) :
    ∃ values, List.Forall₂ (fun e v => e.evaluate none (.create []) = .ok v) row values ∧
      Tuple.ofValues values schema = .ok r.1 := by
  obtain ⟨values, hvalues, h⟩ := bind_eq_ok.mp h
  obtain ⟨tuple, htuple, h⟩ := bind_eq_ok.mp h
  cases h
  rw [List.mapM_map] at hvalues
  exact ⟨values, forall₂_of_mapM_eq_ok hvalues, htuple⟩

/-- A tuple that decodes is of a row with the types of the columns. -/
theorem types_of_decodes (hlen : row.length = columns.length) (h : Decodes (.create columns) row r.1) :
    row.map Expr.returnType = columns.map Column.type := by
  refine List.ext_getElem? ?_
  intro j
  rw [List.getElem?_map, List.getElem?_map]
  by_cases hj : j < row.length
  · have hj' : j < columns.length := hlen ▸ hj
    rw [List.getElem?_eq_getElem hj, List.getElem?_eq_getElem hj']
    obtain ⟨v, hv, hget⟩ := h j row[j] (List.getElem?_eq_getElem hj)
    have hcolumn : (Schema.create columns).columns[j]? = some (placed columns j columns[j]) := by
      rw [getElem?_create, List.getElem?_eq_getElem hj']
      rfl
    have htype := getTypeId_getValue hcolumn hget
    rw [getTypeId_evaluate_none hv] at htype
    exact congrArg some htype
  · rw [List.getElem?_eq_none (by omega), List.getElem?_eq_none (by omega)]
    rfl

/-- A row with the types of the columns is encoded to a tuple that decodes. -/
theorem decodes_of_types (htypes : row.map Expr.returnType = columns.map Column.type)
    (hr : evaluateRow (.create columns) (row.map Expr.evaluate) = .ok r)
    (hsize : ∀ values, row.mapM (fun e => e.evaluate none (.create [])) = .ok values →
      encodedSize columns values < 2 ^ 31) : Decodes (.create columns) row r.1 := by
  obtain ⟨values, hvalues, htuple⟩ := evaluateRow_cases hr
  have hwt : WellTyped columns values := by
    unfold WellTyped
    rw [← htypes, eq_comm]
    exact map_eq_of_forall₂ hvalues fun _ _ h => (getTypeId_evaluate_none h).symm
  have hmapM : row.mapM (fun e => e.evaluate none (.create [])) = .ok values := mapM_eq_ok_of_forall₂ hvalues
  obtain ⟨tuple, hof, hget⟩ := ofValues_getValue hwt (hsize values hmapM)
  cases htuple.symm.trans hof
  intro j e he
  obtain ⟨hj, rfl⟩ := List.getElem?_eq_some_iff.mp he
  have hj' : j < values.length := hvalues.length_eq ▸ hj
  exact ⟨values[j], (List.forall₂_iff_get.mp hvalues).2 j hj hj', hget j _ (List.getElem?_eq_getElem hj')⟩

/-- **A tuple of a `VALUES` list decodes to the values of its row iff the row has the types of the first
one.**  The tuple is number `k` of a batch that starts at row `cursor`; its encoding is shorter than the range
of its own offsets. -/
theorem values_decode {lists values : List (List BoundExpression)} (hbind : bindValuesList lists = .ok values)
    {identifier : String} {schema : Schema} {rows : List (List Expr)} {batchSize cursor k : ℕ}
    (hplan : planExpressionListRef values identifier = .ok (.node (schema, .other (.values rows)) []))
    (hr : (next (valuesPlan rows schema) batchSize (cursor : ℕ)).batch[k]? = some r) :
    ∃ first row, rows[0]? = some first ∧ rows[cursor + k]? = some row ∧
      (Decodes schema row r.1 → row.map Expr.returnType = first.map Expr.returnType) ∧
      (row.map Expr.returnType = first.map Expr.returnType →
        (∀ values, row.mapM (fun e => e.evaluate none (.create [])) = .ok values →
          encodedSize schema.columns values < 2 ^ 31) → Decodes schema row r.1) := by
  obtain ⟨first, rest, columns, hnode, htypes, hlen⟩ := planExpressionListRef_cases hplan
  cases hnode
  obtain ⟨out, hout, hrows⟩ := fetch_rows (valuesRow ((first :: rest).map fun row => row.map Expr.evaluate)
    (.create columns)) batchSize (((first :: rest).map fun row => row.map Expr.evaluate).length - cursor) cursor []
  have hrow := hrows k r (by rw [List.nil_append] at hout; rw [← hout]; exact hr)
  unfold valuesRow at hrow
  rw [List.getElem?_map] at hrow
  cases hget : (first :: rest)[cursor + k]? with
  | none =>
    rw [hget] at hrow
    cases hrow
  | some row =>
    rw [hget] at hrow
    refine ⟨first, row, rfl, rfl, ?_, ?_⟩
    · intro hdecodes
      rw [← htypes]
      refine types_of_decodes ?_ hdecodes
      -- the binder has compared the lengths
      obtain ⟨bfirst, brest, rfl, hblen⟩ := bindValuesList_length hbind
      have hfirst : columns.length = first.length := by simpa using congrArg List.length htypes
      have hall : ∀ n ∈ (first :: rest).map List.length, n = first.length := by
        obtain ⟨hhead, -⟩ := List.cons.inj hlen
        rw [hlen]
        intro n hn
        rw [hhead]
        rcases List.mem_cons.mp hn with rfl | hn
        · rfl
        · obtain ⟨brow, hbrow, rfl⟩ := List.mem_map.mp hn
          exact hblen brow hbrow
      rw [hfirst]
      exact hall _ (List.mem_map_of_mem (List.mem_of_getElem? hget))
    · intro hsame hsize
      refine decodes_of_types (hsame.trans htypes.symm) hrow ?_
      intro values hvalues
      rw [← encodedSize_create]
      exact hsize values hvalues

/-- A row of literals. -/
def literals (values : List Value) : List BoundExpression := values.map .constant

/-- The same row, planned. -/
def constants (values : List Value) : List Expr := values.map .constantValue

/-- The columns of a list whose first row has two integers. -/
def integerPair : Schema :=
  .create [.fixed "__values#0.0" .integer 4 integer_fixed integer_size, .fixed "__values#0.1" .integer 4 integer_fixed integer_size]

/-- `VALUES (1, 2), (3, NULL)`. -/
def integerRows : List (List Value) := [[.integer 1, .integer 2], [.integer 3, .integer int32Null]]

theorem values_decode_integers : ∃ r, (next (valuesPlan (integerRows.map constants) integerPair)
      10 (0 : ℕ)).batch[1]? = some r ∧
    Decodes integerPair [.constantValue (.integer 3), .constantValue (.integer int32Null)] r.1 := by
  have hsome : ((next (valuesPlan (integerRows.map constants) integerPair)
      10 (0 : ℕ)).batch[1]?).isSome = true := by decide +kernel
  obtain ⟨r, hr⟩ := Option.isSome_iff_exists.mp hsome
  have hbind : bindValuesList (integerRows.map literals) = .ok (integerRows.map literals) := rfl
  have hplan : planExpressionListRef (integerRows.map literals) "__values#0" =
      .ok (.node (integerPair, .other (.values (integerRows.map constants))) []) := rfl
  obtain ⟨first, row, hfirst, hrow, -, hdecodes⟩ := values_decode hbind hplan hr
  cases hfirst
  cases hrow
  refine ⟨r, hr, hdecodes rfl ?_⟩
  intro values hvalues
  cases hvalues
  decide +kernel

/-- `VALUES (1, 2), (2.5, 3)`: the second row is encoded by its own types. -/
def mixedRows : List (List Value) := [[.integer 1, .integer 2], [.decimal 0x4004000000000000, .integer 3]]

-- what the binder makes of the literals
example : [[.integer 1, .integer 2], [.float 0x4004000000000000, .integer 3]].mapM (List.mapM bindConstant) =
    .ok (mixedRows.map literals) := rfl

/-- The list is accepted, also for an `INSERT` into a table of two integers, and its second tuple does not decode
to its values. -/
theorem second_row_not_decoded : ¬ ∀ (lists values : List (List BoundExpression)) (identifier : String)
    (schema tableSchema : Schema) (rows : List (List Expr)) (batchSize cursor k : ℕ) (r : Execution.Row)
    (row : List Expr) (plan : PlanNode) (st : PlannerState),
    bindValuesList lists = .ok values →
    planExpressionListRef values identifier = .ok (.node (schema, .other (.values rows)) []) →
    planSelect .new (fun _ => "") 2 none (valuesStatement 0 values identifier)
      ⟨fun _ => valuesExprs identifier schema.columns.length, 0⟩ = .ok (plan, st) →
    (planInsert tableSchema 0 plan).isOk = true →
    (next (valuesPlan rows schema) batchSize (cursor : ℕ)).batch[k]? = some r → rows[cursor + k]? = some row →
    Decodes schema row r.1 := by
  intro hclaim
  have hsome : ((next (valuesPlan (mixedRows.map constants) integerPair)
      10 (0 : ℕ)).batch[1]?).isSome = true := by decide +kernel
  obtain ⟨r, hr⟩ := Option.isSome_iff_exists.mp hsome
  have hinsert : (planSelect .new (fun _ => "") 2 none (valuesStatement 0 (mixedRows.map literals) "__values#0")
      ⟨fun _ => valuesExprs "__values#0" integerPair.columns.length, 0⟩ >>= fun out =>
        planInsert integerPair 0 out.1).isOk = true := by decide +kernel
  cases hselect : planSelect .new (fun _ => "") 2 none (valuesStatement 0 (mixedRows.map literals) "__values#0")
      ⟨fun _ => valuesExprs "__values#0" integerPair.columns.length, 0⟩ with
  | error e =>
    rw [hselect] at hinsert
    cases hinsert
  | ok out =>
    rw [hselect, ok_bind] at hinsert
    have hdecodes := hclaim (mixedRows.map literals) _ "__values#0" integerPair integerPair
      (mixedRows.map constants) 10 0 1 r _ _ _ rfl rfl hselect hinsert hr rfl
    exact absurd (types_of_decodes rfl hdecodes) (by decide)

-- `VALUES (2.5), (NULL)`: the NULL is an integer, and its four bytes are a tiny number in a column of eight
example : (match evaluateRow (.create [.fixed "__values#0.0" .decimal 8 (by decide) rfl])
      [Expr.evaluate (.constantValue (.integer int32Null))] with
    | .ok r => some (r.1.getValue (.create [.fixed "__values#0.0" .decimal 8 (by decide) rfl]) 0)
    | .error _ => none) = some (.ok (.decimal 0x80000000)) := by
  decide +kernel

end Tuples

end Journey.Planner
