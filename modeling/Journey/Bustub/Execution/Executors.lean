import Journey.Lib.Producer
import Journey.Bustub.Storage.TupleCodec

/-!
# Journey.Bustub.Execution.Executors — Values, MockScan, Filter and Projection

The executors of a plan tree, each with the fields it keeps between calls.

* `Plan`, `State`: the tree, and for every node of it its cursor, or the child batch it has fetched and
  the offset it has reached in there.
* `init`, `next`: `Init` and `Next`.  A call that throws keeps what it has changed until then.
* `pollExecutor`: the loop of `ExecutionEngine::PollExecutor`.
* `fetch_spec`, `emitRest_spec`, `fill_spec`: what each of the loops does.
-/

namespace Journey.Execution

open SqlType Catalog Storage

/-! ## Plans and states -/

section Model

/-- A tuple with its RID, as the two output vectors of `Next` hold them. -/
abbrev Row := Tuple × RID

/-- `AbstractExpression`: its `Evaluate`, on a tuple (or none) and its schema. -/
abbrev Expression := Option Tuple → Schema → Except Fault Value

/-- `ConstantValueExpression`. -/
def constantValueExpression (val : Value) : Expression := fun _ _ => .ok val

/-- `ColumnValueExpression`. -/
def columnValueExpression (colIdx : ℕ) : Expression := fun tuple schema =>
  match tuple with
  | none => .error .outOfBounds
  | some tuple => tuple.getValue schema colIdx

/-- An expression whose values, on tuples of the given schema, are booleans. -/
abbrev Predicate (schema : Schema) :=
  { e : Expression // ∀ tuple value, e (some tuple) schema = .ok value → value.getTypeId = .boolean }

/-- A column of booleans as a predicate. -/
def booleanColumn (schema : Schema) (colIdx : ℕ) (c : Column) (hc : schema.columns[colIdx]? = some c)
    (htype : c.type = .boolean) : Predicate schema :=
  ⟨columnValueExpression colIdx, fun _ _ h => (getTypeId_getValue hc h).trans htype⟩

/-- What `MockScanExecutor`'s constructor sets up: the table function, the size and the order drawn for
a shuffled table. -/
structure MockTable where
  func : ℕ → Except Fault Tuple
  size : ℕ
  shuffledIdx : List ℕ
  shuffled : shuffledIdx = [] ∨ shuffledIdx.Perm (List.range size)

/-- The plan nodes, by their output schema. -/
inductive Plan : Schema → Type
  | values (rows : List (List Expression)) (schema : Schema) : Plan schema
  | mockScan (table : MockTable) (schema : Schema) : Plan schema
  | filter (childSchema : Schema) (predicate : Predicate childSchema) (schema : Schema)
      (child : Plan childSchema) : Plan schema
  | projection (childSchema : Schema) (expressions : List Expression) (schema : Schema)
      (child : Plan childSchema) : Plan schema

/-- The fields of `FilterExecutor` and of `ProjectionExecutor`: `child_tuples_` with `child_rids_`,
`child_offset_` and the child. -/
structure Buffered (σ : Type) where
  childTuples : List Row
  childOffset : ℕ
  child : σ

/-- The fields of the executors of a plan; `cursor_` for the leaves. -/
def State : ∀ {schema : Schema}, Plan schema → Type
  | _, .values _ _ => ℕ
  | _, .mockScan _ _ => ℕ
  | _, .filter _ _ _ child => Buffered (State child)
  | _, .projection _ _ _ child => Buffered (State child)

/-- The executors right after their construction. -/
def create : ∀ {schema : Schema} (p : Plan schema), State p
  | _, .values _ _ => (0 : ℕ)
  | _, .mockScan _ _ => (0 : ℕ)
  | _, .filter _ _ _ child => (⟨[], 0, create child⟩ : Buffered (State child))
  | _, .projection _ _ _ child => (⟨[], 0, create child⟩ : Buffered (State child))

/-- `Init`: the leaves reset their cursor, the others initialize their child. -/
def init : ∀ {schema : Schema} (p : Plan schema), State p → State p
  | _, .values _ _, _ => (0 : ℕ)
  | _, .mockScan _ _, _ => (0 : ℕ)
  | _, .filter _childSchema _predicate _schema child, (st : Buffered (State child)) =>
    { st with child := init child st.child }
  | _, .projection _childSchema _expressions _schema child, (st : Buffered (State child)) =>
    { st with child := init child st.child }

end Model

/-! ## Next -/

section Next

variable {σ : Type}

/-- The expressions of a row of a `Values` node, evaluated; `RID{}` is the invalid RID. -/
def evaluateRow (schema : Schema) (rowExpr : List Expression) : Except Fault Row := do
  let values ← rowExpr.mapM fun col => col none (.create [])
  let tuple ← Tuple.ofValues values schema
  return (tuple, ⟨invalidPageId, 0⟩)

/-- Row `cursor` of a `Values` node. -/
def valuesRow (rows : List (List Expression)) (schema : Schema) (cursor : ℕ) : Except Fault Row :=
  match rows[cursor]? with
  | none => .error .outOfBounds
  | some rowExpr => evaluateRow schema rowExpr

/-- Row `cursor` of a mock table; `MakeDummyRID` is `RID{0}`. -/
def mockRow (table : MockTable) (cursor : ℕ) : Except Fault Row := do
  let tuple ← table.func (table.shuffledIdx[cursor]?.getD cursor)
  return (tuple, ⟨0, 0⟩)

/-- The loop of the leaves, `while (size < batch_size && cursor_ < ..)`, with `k` rows before the end. -/
def fetch (row : ℕ → Except Fault Row) (batchSize : ℕ) : ℕ → ℕ → List Row → Pulled Fault Row ℕ
  | 0, cursor, batch => ⟨.returned (!batch.isEmpty), batch, cursor⟩
  | k + 1, cursor, batch =>
    if batch.length < batchSize then
      match row cursor with
      | .error e => ⟨.threw e, batch, cursor⟩
      | .ok r => fetch row batchSize k (cursor + 1) (batch ++ [r])
    else ⟨.returned (!batch.isEmpty), batch, cursor⟩

/-- `value.GetAs<bool>()` of a `BOOLEAN`. -/
def getAsBool : Value → Bool
  | .boolean i => i != 0
  | _ => false

/-- The test of a filter: the predicate is true, and not null. -/
def passes {schema : Schema} (predicate : Predicate schema) (row : Row) : Except Fault Bool := do
  let value ← predicate.1 (some row.1) schema
  return !value.isNull && getAsBool value

/-- What a filter emits for a row. -/
def filterRow {schema : Schema} (predicate : Predicate schema) (row : Row) : Except Fault (Option Row) := do
  let pass ← passes predicate row
  return if pass then some row else none

/-- The row a projection computes. -/
def computeRow (expressions : List Expression) (schema childSchema : Schema) (row : Row) :
    Except Fault Row := do
  let values ← expressions.mapM fun expr => expr (some row.1) childSchema
  let tuple ← Tuple.ofValues values schema
  return (tuple, row.2)

/-- What a projection emits for a row. -/
def projectRow (expressions : List Expression) (schema childSchema : Schema) (row : Row) :
    Except Fault (Option Row) := do
  let computed ← computeRow expressions schema childSchema row
  return some computed

/-- The loop over the rest of the last child batch: the output batch, and the exception thrown. -/
def emitRest (emit : Row → Except Fault (Option Row)) : List Row → List Row → List Row × Option Fault
  | [], batch => (batch, none)
  | row :: rows, batch =>
    match emit row with
    | .error e => (batch, some e)
    | .ok out => emitRest emit rows (batch ++ out.toList)

/-- How the loop over a child batch ends: at an exception, with a full output batch and the new
`child_offset_`, or with the child batch used up. -/
inductive FillEnd
  | threw (e : Fault)
  | full (childOffset : ℕ)
  | usedUp

/-- The loop over the child batch from its `i`-th row on, until the output batch is full. -/
def fill (emit : Row → Except Fault (Option Row)) (batchSize : ℕ) : ℕ → List Row → List Row →
    List Row × FillEnd
  | _, [], batch => (batch, .usedUp)
  | i, row :: rows, batch =>
    match emit row with
    | .error e => (batch, .threw e)
    | .ok none => fill emit batchSize (i + 1) rows batch
    | .ok (some out) =>
      if batchSize ≤ (batch ++ [out]).length then
        (batch ++ [out], .full (if rows.isEmpty then 0 else i + 1))
      else fill emit batchSize (i + 1) rows (batch ++ [out])

/-- The rows of the last child batch that are still to be processed. -/
def Buffered.rest (st : Buffered σ) : List Row :=
  if st.childOffset ≠ 0 then st.childTuples.drop st.childOffset else []

/-- One round of `Next`: the rest of the last child batch, the next child batch, and as much of it as the
output batch takes.  There is no outcome yet if the child batch is used up before. -/
def nextRound (emit : Row → Except Fault (Option Row)) (childNext : σ → Pulled Fault Row σ) (batchSize : ℕ)
    (batch : List Row) (st : Buffered σ) : Option (Outcome Fault) × List Row × Buffered σ :=
  match emitRest emit st.rest batch with
  | (batch, some e) => (some (.threw e), batch, st)
  | (batch, none) =>
    let r := childNext st.child
    let st := ⟨r.batch, 0, r.state⟩
    match r.outcome with
    | .threw e => (some (.threw e), batch, st)
    | .diverged => (some .diverged, batch, st)
    | .returned false => (some (.returned (!batch.isEmpty)), batch, st)
    | .returned true =>
      match fill emit batchSize 0 r.batch batch with
      | (batch, .threw e) => (some (.threw e), batch, st)
      | (batch, .full childOffset) => (some (.returned true), batch, { st with childOffset := childOffset })
      | (batch, .usedUp) => (none, batch, st)

/-- The `while (true)` of `FilterExecutor::Next`. -/
def filterLoop (emit : Row → Except Fault (Option Row)) (childNext : σ → Pulled Fault Row σ)
    (batchSize : ℕ) : ℕ → List Row → Buffered σ → Pulled Fault Row (Buffered σ)
  | 0, batch, st => ⟨.diverged, batch, st⟩
  | fuel + 1, batch, st =>
    match nextRound emit childNext batchSize batch st with
    | (some outcome, batch, st) => ⟨outcome, batch, st⟩
    | (none, batch, st) => filterLoop emit childNext batchSize fuel batch st

/-- The single round of `ProjectionExecutor::Next`. -/
def projectOnce (emit : Row → Except Fault (Option Row)) (childNext : σ → Pulled Fault Row σ)
    (batchSize : ℕ) (st : Buffered σ) : Pulled Fault Row (Buffered σ) :=
  match nextRound emit childNext batchSize [] st with
  | (some outcome, batch, st) => ⟨outcome, batch, st⟩
  | (none, batch, st) => ⟨.returned (!batch.isEmpty), batch, st⟩

/-- How many rows can still come, at most. -/
def pending : ∀ {schema : Schema} (p : Plan schema), State p → ℕ
  | _, .values rows _schema, (cursor : ℕ) => rows.length - cursor
  | _, .mockScan table _schema, (cursor : ℕ) => table.size - cursor
  | _, .filter _childSchema _predicate _schema child, (st : Buffered (State child)) =>
    st.rest.length + pending child st.child
  | _, .projection _childSchema _expressions _schema child, (st : Buffered (State child)) =>
    st.rest.length + pending child st.child

/-- `Next`.  A filter asks its child again as long as that has rows; the fuel counts them. -/
def next : ∀ {schema : Schema} (p : Plan schema), ℕ → State p → Pulled Fault Row (State p)
  | _, .values rows schema, n, (cursor : ℕ) =>
    fetch (valuesRow rows schema) n (rows.length - cursor) cursor []
  | _, .mockScan table _schema, n, (cursor : ℕ) => fetch (mockRow table) n (table.size - cursor) cursor []
  | _, .filter _childSchema predicate _schema child, n, (st : Buffered (State child)) =>
    filterLoop (filterRow predicate) (next child n) n (pending child st.child + 1) [] st
  | _, .projection childSchema expressions schema child, n, (st : Buffered (State child)) =>
    projectOnce (projectRow expressions schema childSchema) (next child n) n st

/-- `PollExecutor`, with the batch size as a parameter. -/
def pollExecutor {schema : Schema} (p : Plan schema) (batchSize fuel : ℕ) (s : State p) :
    Option (Except Fault (List Row)) :=
  drain (next p) (fun _ => batchSize) fuel 0 s []

end Next

/-! ## The loops -/

section Loops

variable {emit : Row → Except Fault (Option Row)}

/-- The rows of a leaf from `cursor` on, `k` before the end. -/
def rowsFrom (row : ℕ → Except Fault Row) : ℕ → ℕ → Option (List Row)
  | 0, _ => some []
  | k + 1, cursor =>
    match row cursor with
    | .error _ => none
    | .ok r => (rowsFrom row k (cursor + 1)).map (r :: ·)

/-- **The loop of a leaf** takes the next `j` rows: up to the end or until the batch is full, if none of
them throws. -/
theorem fetch_spec (row : ℕ → Except Fault Row) (n k cursor : ℕ) (batch : List Row) :
    ∃ o j out, fetch row n k cursor batch = ⟨o, batch ++ out, cursor + j⟩ ∧ out.length = j ∧ j ≤ k ∧
      (batch.length ≤ n → (batch ++ out).length ≤ n) ∧
      ((o = .returned (!(batch ++ out).isEmpty) ∧ (n ≤ (batch ++ out).length ∨ j = k) ∧
          rowsFrom row k cursor = (rowsFrom row (k - j) (cursor + j)).map (out ++ ·)) ∨
        ∃ e, o = .threw e ∧ rowsFrom row k cursor = none) := by
  induction k generalizing cursor batch with
  | zero =>
    refine ⟨_, 0, [], ?_, rfl, le_refl _, by simp, .inl ⟨rfl, .inr rfl, rfl⟩⟩
    rw [List.append_nil]
    rfl
  | succ k ih =>
    by_cases hlt : batch.length < n
    · cases hrow : row cursor with
      | error e =>
        refine ⟨.threw e, 0, [], ?_, rfl, Nat.zero_le _, by simp, .inr ⟨e, rfl, ?_⟩⟩
        · unfold fetch
          rw [if_pos hlt, hrow, List.append_nil]
          rfl
        · unfold rowsFrom
          rw [hrow]
      | ok r =>
        obtain ⟨o, j, out, heq, hlen, hj, hsize, hcase⟩ := ih (cursor + 1) (batch ++ [r])
        have hbatch : batch ++ [r] ++ out = batch ++ r :: out := by simp
        rw [hbatch] at heq hsize hcase
        refine ⟨o, j + 1, r :: out, ?_, by rw [List.length_cons, hlen], by omega, ?_, ?_⟩
        · unfold fetch
          rw [if_pos hlt, hrow]
          dsimp only
          rw [heq, Nat.add_assoc, Nat.add_comm 1 j]
        · intro _
          refine hsize ?_
          rw [List.length_append, List.length_singleton]
          exact hlt
        · have hfrom : rowsFrom row (k + 1) cursor = (rowsFrom row k (cursor + 1)).map (r :: ·) := by
            rw [rowsFrom, hrow]
          rcases hcase with ⟨ho, hfull, hrows⟩ | ⟨e, ho, hnone⟩
          · refine .inl ⟨ho, hfull.imp_right (by omega), ?_⟩
            rw [hfrom, hrows, Option.map_map, Nat.add_sub_add_right, Nat.add_assoc, Nat.add_comm 1 j]
            rfl
          · exact .inr ⟨e, ho, by rw [hfrom, hnone]; rfl⟩
    · refine ⟨_, 0, [], ?_, rfl, Nat.zero_le _, by simp, .inl ⟨rfl, .inl ?_, ?_⟩⟩
      · unfold fetch
        rw [if_neg hlt, List.append_nil]
        rfl
      · rw [List.append_nil]
        omega
      · simp

/-- The loop of a leaf emits the rows from its cursor on, in order. -/
theorem fetch_rows (row : ℕ → Except Fault Row) (n k cursor : ℕ) (batch : List Row) :
    ∃ out, (fetch row n k cursor batch).batch = batch ++ out ∧
      ∀ (j : ℕ) r, out[j]? = some r → row (cursor + j) = .ok r := by
  induction k generalizing cursor batch with
  | zero => exact ⟨[], (List.append_nil _).symm, nofun⟩
  | succ k ih =>
    unfold fetch
    split_ifs
    · split
      · exact ⟨[], (List.append_nil _).symm, nofun⟩
      · rename_i r hr
        obtain ⟨out, hout, hrows⟩ := ih (cursor + 1) (batch ++ [r])
        refine ⟨r :: out, by rw [hout, List.append_assoc]; rfl, ?_⟩
        intro j r' hj
        cases j with
        | zero =>
          cases hj
          exact hr
        | succ j =>
          rw [← Nat.add_assoc, Nat.add_right_comm]
          exact hrows j r' hj
    · exact ⟨[], (List.append_nil _).symm, nofun⟩

/-- **The rest of a child batch** is emitted, or one of its rows throws. -/
theorem emitRest_spec (emit : Row → Except Fault (Option Row)) (rows batch : List Row) :
    (∃ out, emitAll emit rows = some out ∧ emitRest emit rows batch = (batch ++ out, none)) ∨
    ∃ e batch', emitAll emit rows = none ∧ emitRest emit rows batch = (batch', some e) ∧
      batch'.length ≤ batch.length + rows.length := by
  induction rows generalizing batch with
  | nil => exact .inl ⟨[], rfl, by rw [List.append_nil]; rfl⟩
  | cons row rows ih =>
    cases hrow : emit row with
    | error e =>
      refine .inr ⟨e, batch, emitAll_cons_error hrow, ?_, Nat.le_add_right _ _⟩
      unfold emitRest
      rw [hrow]
    | ok o =>
      have hrest : emitRest emit (row :: rows) batch = emitRest emit rows (batch ++ o.toList) := by
        rw [emitRest, hrow]
      have hlen : o.toList.length ≤ 1 := by cases o <;> simp
      have hall : emitAll emit (row :: rows) = (emitAll emit rows).map (o.toList ++ ·) := by
        cases o with
        | none => rw [emitAll_cons_none hrow]; simp
        | some out => exact emitAll_cons_some hrow
      rw [hrest, hall]
      rcases ih (batch ++ o.toList) with ⟨out, hout, heq⟩ | ⟨e, batch', hnone, heq, hle⟩
      · exact .inl ⟨o.toList ++ out, by rw [hout]; rfl, by rw [heq, List.append_assoc]⟩
      · refine .inr ⟨e, batch', by rw [hnone]; rfl, heq, ?_⟩
        rw [List.length_append] at hle
        rw [List.length_cons]
        omega

/-- **The loop over a child batch**: all of its rows are emitted, or those up to the one that fills the
output batch, or one of them throws. -/
theorem fill_spec (emit : Row → Except Fault (Option Row)) (n i : ℕ) (rows batch : List Row) :
    (∃ out, emitAll emit rows = some out ∧ fill emit n i rows batch = (batch ++ out, .usedUp) ∧
      (batch.length < n → (batch ++ out).length < n)) ∨
    (∃ pre post out, rows = pre ++ post ∧ emitAll emit pre = some out ∧ pre ≠ [] ∧ out ≠ [] ∧
      fill emit n i rows batch = (batch ++ out, .full (if post.isEmpty then 0 else i + pre.length)) ∧
      (batch.length < n → (batch ++ out).length ≤ n)) ∨
    ∃ e batch', emitAll emit rows = none ∧ fill emit n i rows batch = (batch', .threw e) ∧
      (batch.length < n → batch'.length < n) := by
  induction rows generalizing i batch with
  | nil => exact .inl ⟨[], rfl, by rw [List.append_nil]; rfl, by simp⟩
  | cons row rows ih =>
    cases hrow : emit row with
    | error e =>
      refine .inr (.inr ⟨e, batch, emitAll_cons_error hrow, ?_, id⟩)
      rw [fill, hrow]
    | ok o =>
      cases o with
      | none =>
        have hfill : fill emit n i (row :: rows) batch = fill emit n (i + 1) rows batch := by
          rw [fill, hrow]
        rw [hfill, emitAll_cons_none hrow]
        rcases ih (i + 1) batch with h | ⟨pre, post, out, rfl, hpre, -, hout, heq, hlt⟩ |
          ⟨e, batch', hnone, heq, hlt⟩
        · exact .inl h
        · refine .inr (.inl ⟨row :: pre, post, out, rfl, ?_, List.cons_ne_nil _ _, hout, ?_, hlt⟩)
          · rw [emitAll_cons_none hrow, hpre]
          · rw [heq, List.length_cons, Nat.add_assoc, Nat.add_comm 1]
        · exact .inr (.inr ⟨e, batch', hnone, heq, hlt⟩)
      | some r =>
        by_cases hfull : n ≤ (batch ++ [r]).length
        · -- this row fills the batch
          refine .inr (.inl ⟨[row], rows, [r], rfl, ?_, List.cons_ne_nil _ _, List.cons_ne_nil _ _, ?_, ?_⟩)
          · rw [emitAll_cons_some hrow]
            rfl
          · rw [fill, hrow]
            dsimp only
            rw [if_pos hfull]
            rfl
          · rw [List.length_append, List.length_singleton]
            omega
        · have hfill : fill emit n i (row :: rows) batch = fill emit n (i + 1) rows (batch ++ [r]) := by
            rw [fill, hrow]
            dsimp only
            rw [if_neg hfull]
          have hbatch : ∀ l, batch ++ [r] ++ l = batch ++ r :: l := fun l => by simp
          rw [hfill, emitAll_cons_some hrow]
          rcases ih (i + 1) (batch ++ [r]) with ⟨out, hout, heq, hlt⟩ |
            ⟨pre, post, out, rfl, hpre, -, -, heq, hlt⟩ | ⟨e, batch', hnone, heq, hlt⟩
          · rw [hbatch] at heq hlt
            exact .inl ⟨r :: out, by rw [hout]; rfl, heq, fun _ => hlt (by omega)⟩
          · rw [hbatch] at heq hlt
            refine .inr (.inl ⟨row :: pre, post, r :: out, rfl, ?_, List.cons_ne_nil _ _,
              List.cons_ne_nil _ _, ?_, fun _ => hlt (by omega)⟩)
            · rw [emitAll_cons_some hrow, hpre]
              rfl
            · rw [heq, List.length_cons, Nat.add_assoc, Nat.add_comm 1]
          · exact .inr (.inr ⟨e, batch', by rw [hnone]; rfl, heq, fun _ => hlt (by omega)⟩)

end Loops

end Journey.Execution
