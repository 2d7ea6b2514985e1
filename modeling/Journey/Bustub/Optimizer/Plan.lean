import Journey.Lib.Bags
import Journey.Lib.Sorting
import Journey.Lib.Trees
import Journey.Bustub.Catalog.Catalog
import Journey.Bustub.Execution.JoinRewrite

/-!
# Journey.Bustub.Optimizer.Plan — plan trees and what they mean

The plan nodes that the optimizer's rules look at, and the rows a plan yields.  Some of the executors are stubs;
the meaning of a node is that of SQL, and a plan has all the results that SQL allows: joins and scans of
unordered indexes may bring their rows in any order, and rows with equal sort keys come in any order.

* `Operator`, `PlanNode`: the nodes and the tree.
* `Database`: the catalog, the rows of the tables, and what SQL leaves open.
* `step`, `results`: the results of a node from those of its children.
-/

namespace Journey.Optimizer

open SqlType Catalog Execution

/-! ## Plan nodes -/

section Model

/-- `JoinType`. -/
inductive JoinType
  | invalid
  | left
  | right
  | inner
  | outer
deriving DecidableEq, Repr

/-- `OrderByType`. -/
inductive OrderByType
  | invalid
  | default
  | asc
  | desc
deriving DecidableEq, Repr

/-- `OrderByNullType`. -/
inductive OrderByNullType
  | default
  | nullsFirst
  | nullsLast
deriving DecidableEq, Repr

/-- `OrderBy`. -/
structure OrderBy where
  orderType : OrderByType
  orderNull : OrderByNullType
  expr : Expr

/-- The plan node classes with their fields.  `other` stands for the classes that no rule looks at. -/
inductive Operator (κ : Type)
  | seqScan (tableOid : UInt32) (tableName : String) (filterPredicate : Option Expr)
  | indexScan (tableOid indexOid : UInt32) (filterPredicate : Option Expr) (predKeys : List Expr)
  | filter (predicate : Expr)
  | projection (expressions : List Expr)
  | sort (orderBys : List OrderBy)
  | nestedLoopJoin (predicate : Expr) (joinType : JoinType)
  | nestedIndexJoin (keyPredicate : Expr) (innerTableOid indexOid : UInt32) (indexName indexTableName : String)
      (innerTableSchema : Schema) (joinType : JoinType)
  | other (kind : κ)

/-- `AbstractPlanNode`: the output schema, the class with its fields, and the children. -/
abbrev PlanNode (κ : Type) := Tree (Schema × Operator κ)

variable {κ : Type}

/-- `OutputSchema`. -/
def outputSchema (plan : PlanNode κ) : Schema := plan.label.1

@[simp] theorem outputSchema_node (schema : Schema) (op : Operator κ) (children : List (PlanNode κ)) :
    outputSchema (.node (schema, op) children) = schema := rfl

end Model

/-! ## Rows -/

section Rows

/-- A row: the values of its columns. -/
abbrev Record := List Value

/-- What running a plan gives: the rows as they come, or nothing if an executor throws. -/
abbrev Result := Option (List Record)

/-- The columns of a row, as `Evaluate` reads them. -/
def readRow (row : Record) (_t i : ℕ) : Except Fault Value :=
  match row[i]? with
  | some v => .ok v
  | none => .error .outOfBounds

/-- The columns of a left and a right row, as `EvaluateJoin` reads them. -/
def readPair (left right : Record) (t i : ℕ) : Except Fault Value :=
  if t = 0 then readRow left 0 i else readRow right 0 i

/-- The outcome of a predicate: true, and not null; nothing if it throws. -/
def truth : Except Fault Value → Option Bool
  | .ok v => some (!v.isNull && getAsBool v)
  | .error _ => none

/-- A predicate on a row. -/
def pass (predicate : Expr) (row : Record) : Option Bool := truth (predicate.eval (readRow row))

/-- A predicate on a left and a right row. -/
def passPair (predicate : Expr) (left right : Record) : Option Bool :=
  truth (predicate.eval (readPair left right))

/-- An optional predicate on rows. -/
def selectsBy : Option Expr → List Record → Result
  | none, rows => some rows
  | some predicate, rows => selects (pass predicate) rows

/-- The row a projection computes. -/
def projectRow (expressions : List Expr) (row : Record) : Option Record :=
  expressions.mapM fun e => (e.eval (readRow row)).toOption

/-- The NULL of a type. -/
def nullOf : TypeId → Value
  | .invalid => .invalid
  | .boolean => .boolean booleanNull
  | .tinyint => .tinyint int8Null
  | .smallint => .smallint int16Null
  | .integer => .integer int32Null
  | .bigint => .bigint int64Null
  | .decimal => .decimal decimalNull
  | .varchar => .varchar none
  | .timestamp => .timestamp timestampNull
  | .vector => .vector none

/-- The columns of the right side for a left row without a partner. -/
def padding (types : List TypeId) : Record := types.map nullOf

@[simp] theorem getTypeId_nullOf (type : TypeId) : (nullOf type).getTypeId = type := by
  cases type <;> rfl

theorem isNull_nullOf (type : TypeId) : (nullOf type).isNull = true := by
  cases type <;> rfl

end Rows

/-! ## Joins -/

section Joins

variable {on on' : Record → Record → Option Bool} {pad : Record} {lefts rights : List Record} {joinType : JoinType}

/-- The rows of the right side that a left row is joined with. -/
def partners (on : Record → Record → Option Bool) (rights : List Record) (left : Record) : List Record :=
  rights.filter fun right => on left right == some true

/-- The joined rows for one left row. -/
def joined (joinType : JoinType) (on : Record → Record → Option Bool) (pad : Record) (rights : List Record)
    (left : Record) : List Record :=
  match joinType, partners on rights left with
  | .left, [] => [left ++ pad]
  | _, bs => bs.map (left ++ ·)

/-- `INNER` and `LEFT` joins; an executor of another join type cannot be made. -/
def join (joinType : JoinType) (on : Record → Record → Option Bool) (pad : Record) (lefts rights : List Record) :
    Result :=
  if joinType = .inner ∨ joinType = .left then
    if lefts.all fun a => rights.all fun b => (on a b).isSome then
      some (lefts.flatMap (joined joinType on pad rights))
    else none
  else none

theorem partners_congr {left : Record} (h : ∀ b ∈ rights, on left b = on' left b) :
    partners on rights left = partners on' rights left := by
  refine List.filter_congr ?_
  intro b hb
  rw [h b hb]

theorem joined_congr {left : Record} (h : ∀ b ∈ rights, on left b = on' left b) :
    joined joinType on pad rights left = joined joinType on' pad rights left := by
  unfold joined
  rw [partners_congr h]

theorem join_of_some (hjoin : joinType = .inner ∨ joinType = .left)
    (h : ∀ a ∈ lefts, ∀ b ∈ rights, on a b ≠ none) :
    join joinType on pad lefts rights = some (lefts.flatMap (joined joinType on pad rights)) := by
  unfold join
  rw [if_pos hjoin, if_pos]
  simpa only [List.all_eq_true, Option.isSome_iff_ne_none] using h

theorem join_of_none {a b : Record} (ha : a ∈ lefts) (hb : b ∈ rights) (h : on a b = none) :
    join joinType on pad lefts rights = none := by
  unfold join
  split_ifs with _ hall
  · simp only [List.all_eq_true, Option.isSome_iff_ne_none] at hall
    exact absurd h (hall a ha b hb)
  · rfl
  · rfl

theorem join_other (hinner : joinType ≠ .inner) (hleft : joinType ≠ .left) :
    join joinType on pad lefts rights = none := by
  unfold join
  rw [if_neg (by simp [hinner, hleft])]

/-- A join looks at its condition on the rows of its two sides only. -/
theorem join_congr (h : ∀ a ∈ lefts, ∀ b ∈ rights, on a b = on' a b) :
    join joinType on pad lefts rights = join joinType on' pad lefts rights := by
  unfold join
  have hall : (lefts.all fun a => rights.all fun b => (on a b).isSome) =
      lefts.all fun a => rights.all fun b => (on' a b).isSome := by
    rw [Bool.eq_iff_iff]
    simp only [List.all_eq_true]
    exact forall₂_congr fun a ha => forall₂_congr fun b hb => by rw [h a ha b hb]
  have hrows : lefts.flatMap (joined joinType on pad rights) = lefts.flatMap (joined joinType on' pad rights) := by
    refine List.flatMap_congr ?_
    intro a ha
    exact joined_congr (h a ha)
  rw [hall, hrows]

/-- A joined row is a left row with a partner or with the padding. -/
theorem mem_joined {row left : Record} (h : row ∈ joined joinType on pad rights left) :
    ∃ right, row = left ++ right ∧ (right ∈ rights ∨ joinType = .left ∧ right = pad) := by
  unfold joined at h
  split at h
  · exact ⟨pad, List.mem_singleton.mp h, .inr ⟨rfl, rfl⟩⟩
  · obtain ⟨b, hb, rfl⟩ := List.mem_map.mp h
    exact ⟨b, rfl, .inl (List.mem_of_mem_filter hb)⟩

theorem joined_inner (a : Record) :
    joined .inner on pad rights a = (partners on rights a).map (a ++ ·) := rfl

theorem joined_left (a : Record) :
    joined .left on pad rights a =
      if partners on rights a = [] then [a ++ pad] else (partners on rights a).map (a ++ ·) := by
  unfold joined
  split
  · rename_i h
    rw [if_pos h]
  · rename_i bs hnot
    split_ifs with hnil
    · exact absurd hnil (fun h => hnot rfl h)
    · rfl

/-- The rows of a join begin with the left row they are made for. -/
theorem take_joined {n : ℕ} (hlen : ∀ a ∈ lefts, a.length = n) :
    ∀ a ∈ lefts, ∀ row ∈ joined joinType on pad rights a, row.take n = a := by
  intro a ha row hrow
  obtain ⟨b, rfl, -⟩ := mem_joined hrow
  rw [← hlen a ha, List.take_left]

theorem take_pairs {partnersOf : Record → List Record} {n : ℕ} (hlen : ∀ a ∈ lefts, a.length = n) :
    ∀ a ∈ lefts, ∀ row ∈ (partnersOf a).map (a ++ ·), row.take n = a := by
  intro a ha row hrow
  obtain ⟨b, -, rfl⟩ := List.mem_map.mp hrow
  rw [← hlen a ha, List.take_left]

end Joins

/-! ## Sorting -/

section Sorting

/-- How one sort key orders the rows. -/
structure KeyOrder where
  descending : Bool
  nullsFirst : Bool

/-- `CompareLessThan` is true. -/
def lessThan (a b : Value) : Bool :=
  match a.compareLessThan b with
  | .ok .cmpTrue => true
  | _ => false

/-- The first key comes before the second. -/
def KeyOrder.less (o : KeyOrder) (a b : Value) : Bool :=
  if a.isNull || b.isNull then
    if o.nullsFirst then a.isNull && !b.isNull else !a.isNull && b.isNull
  else if o.descending then lessThan b a else lessThan a b

/-- The first list of keys comes before the second: by the first key that tells them apart. -/
def before : List KeyOrder → Record → Record → Bool
  | o :: os, a :: as, b :: bs => o.less a b || !o.less b a && before os as bs
  | _, _, _ => false

/-- The keys of the first row come before those of the second. -/
def comesBefore (orders : List KeyOrder) (key : Record → Record) (a b : Record) : Bool := before orders (key a) (key b)

/-- The rows in any order that the keys allow. -/
def sortedBy (orders : List KeyOrder) (key : Record → Record) (rows : List Record) : Set Result :=
  Set.image some (sortings (comesBefore orders key) rows)

variable {orders orders' : List KeyOrder} {key key' : Record → Record} {rows : List Record}

theorem sortedBy_nonempty : (sortedBy orders key rows).Nonempty := sortings_nonempty.image some

theorem sortedBy_congr (h : ∀ a ∈ rows, ∀ b ∈ rows, comesBefore orders key a b = comesBefore orders' key' a b) :
    sortedBy orders key rows = sortedBy orders' key' rows := congrArg (Set.image some) (sortings_congr h)

/-- Sorting changes the order only. -/
theorem image_bag_sortedBy : Set.image bag (sortedBy orders key rows) = {bag (some rows)} := by
  refine Set.eq_singleton_iff_nonempty_unique_mem.mpr ⟨sortedBy_nonempty.image bag, ?_⟩
  rintro _ ⟨_, ⟨rows', ⟨hperm, -⟩, rfl⟩, rfl⟩
  exact bag_some_eq_some.mpr hperm

end Sorting

/-! ## Meaning -/

section Meaning

variable {κ : Type}

/-- `GetKeyAttrs`. -/
def getKeyAttrs (info : IndexInfo) : List ℕ :=
  match info.index with
  | .stlOrdered index => index.metadata.keyAttrs
  | .stlUnordered index => index.metadata.keyAttrs
  | .bPlusTree metadata => metadata.keyAttrs

/-- The index keeps its keys in order. -/
def isOrdered : IndexType → Bool
  | .bPlusTreeIndex | .stlOrderedIndex => true
  | .hashTableIndex | .stlUnorderedIndex => false

/-- The catalog and the rows of the tables, and what is left open: where `DEFAULT` puts the nulls of an ascending
or descending key, where an ordered index keeps them, what a point lookup finds, and what the operators do that no
rule looks at. -/
structure Database (κ : Type) where
  catalog : Catalog
  consistent : catalog.Consistent
  table : UInt32 → List Record
  typed : ∀ oid info, catalog.getTableByOid oid = some info → ∀ row ∈ table oid,
    row.map Value.getTypeId = columnTypes info.schema
  defaultNullsFirst : Bool → Bool
  indexNullsFirst : UInt32 → Bool
  finds : UInt32 → List Expr → Record → Option Bool
  other : κ → List TypeId → List (List TypeId × Result) → Set Result
  other_nonempty : ∀ kind types inputs, (other kind types inputs).Nonempty

/-- What a node has for its parent: the types of its columns, and its results. -/
structure Meaning where
  types : List TypeId
  results : Set Result

namespace Database

variable (d : Database κ)

/-- How a sort key orders the rows; the default direction is ascending. -/
def keyOrder (o : OrderBy) : KeyOrder where
  descending := o.orderType = .desc
  nullsFirst :=
    match o.orderNull with
    | .default => d.defaultNullsFirst (o.orderType = .desc)
    | .nullsFirst => true
    | .nullsLast => false

/-- The values of the sort keys of a row. -/
def sortKey (orderBys : List OrderBy) (row : Record) : Option Record :=
  projectRow (orderBys.map OrderBy.expr) row

/-- A sort. -/
def sortResults (orderBys : List OrderBy) : Result → Set Result
  | none => {none}
  | some rows =>
    if rows.all fun row => (sortKey orderBys row).isSome then
      sortedBy (orderBys.map d.keyOrder) (fun row => (sortKey orderBys row).getD []) rows
    else {none}

/-- The key columns of a row. -/
def keyColumns (keyAttrs : List ℕ) (row : Record) : Record := keyAttrs.map fun i => row.getD i .invalid

/-- The order of an index: ascending in the key columns, if it keeps one. -/
def indexOrder (info : IndexInfo) : List KeyOrder :=
  if isOrdered info.indexType then (getKeyAttrs info).map fun _ => ⟨false, d.indexNullsFirst info.indexOid⟩ else []

/-- The rows of a table as an index has them: in ascending order of the keys if the index is ordered, otherwise in
any order. -/
def indexRows (tableOid : UInt32) (info : IndexInfo) : Set Result :=
  sortedBy (d.indexOrder info) (keyColumns (getKeyAttrs info)) (d.table tableOid)

/-- The rows that a scan of an index yields. -/
def indexScanResults (tableOid indexOid : UInt32) (filterPredicate : Option Expr) (predKeys : List Expr) :
    Set Result :=
  match d.catalog.getIndexByOid indexOid with
  | none => {none}
  | some info =>
    let looked (rows : List Record) : Result :=
      if predKeys.isEmpty then some rows else selects (d.finds indexOid predKeys) rows
    Set.image (fun i => (i.bind looked).bind (selectsBy filterPredicate)) (d.indexRows tableOid info)

/-- The test of an index join: the key of the outer row equals the key column of the inner one. -/
def keyMatches (keyPredicate : Expr) (keyColumn : ℕ) (outer inner : Record) : Option Bool :=
  truth do
    let key ← keyPredicate.eval (readRow outer)
    let value ← readRow inner 0 keyColumn
    performComparison .equal key value

/-- An index join with the rows of a table, over an index on one column. -/
def indexJoin (keyPredicate : Expr) (innerTableOid indexOid : UInt32) (innerTypes : List TypeId)
    (joinType : JoinType) (outers : List Record) : Result := do
  let info ← d.catalog.getIndexByOid indexOid
  match getKeyAttrs info with
  | [keyColumn] =>
    join joinType (keyMatches keyPredicate keyColumn) (padding innerTypes) outers (d.table innerTableOid)
  | _ => none

/-- **The results of a node**, from what its children have. -/
def step (types : List TypeId) : Operator κ → List Meaning → Set Result
  | .seqScan tableOid _ filterPredicate, [] => {selectsBy filterPredicate (d.table tableOid)}
  | .indexScan tableOid indexOid filterPredicate predKeys, [] =>
    d.indexScanResults tableOid indexOid filterPredicate predKeys
  | .filter predicate, [m] => Set.image (fun i => i.bind (selects (pass predicate))) m.results
  | .projection expressions, [m] =>
    Set.image (fun i => i.bind fun rows => rows.mapM (projectRow expressions)) m.results
  | .sort orderBys, [m] => { o | ∃ i ∈ m.results, o ∈ d.sortResults orderBys i }
  | .nestedLoopJoin predicate joinType, [l, r] =>
    { o | ∃ i ∈ l.results, ∃ j ∈ r.results,
      o ∈ anyOrder (i.bind fun ls => j.bind fun rs => join joinType (passPair predicate) (padding r.types) ls rs) }
  | .nestedIndexJoin keyPredicate innerTableOid indexOid _ _ innerTableSchema joinType, [m] =>
    { o | ∃ i ∈ m.results,
      o ∈ anyOrder (i.bind (d.indexJoin keyPredicate innerTableOid indexOid (columnTypes innerTableSchema) joinType)) }
  | .other kind, ms =>
    { o | ∃ is, List.Forall₂ (fun i m => i ∈ m.results) is ms ∧ o ∈ d.other kind types ((ms.map Meaning.types).zip is) }
  | _, _ => {none}

/-- The meaning of a plan. -/
def meaning : PlanNode κ → Meaning := Tree.fold fun a ms => ⟨columnTypes a.1, d.step (columnTypes a.1) a.2 ms⟩

/-- The results of a plan. -/
def results (plan : PlanNode κ) : Set Result := (d.meaning plan).results

/-- The results of a plan, as bags of rows. -/
def bags (plan : PlanNode κ) : Set (Option (Multiset Record)) := Set.image bag (d.results plan)

theorem meaning_node (schema : Schema) (op : Operator κ) (children : List (PlanNode κ)) :
    d.meaning (.node (schema, op) children) =
      ⟨columnTypes schema, d.step (columnTypes schema) op (children.map d.meaning)⟩ := Tree.fold_node _ _ _

theorem results_node (schema : Schema) (op : Operator κ) (children : List (PlanNode κ)) :
    d.results (.node (schema, op) children) = d.step (columnTypes schema) op (children.map d.meaning) := by
  rw [results, meaning_node]

@[simp] theorem types_meaning (plan : PlanNode κ) : (d.meaning plan).types = columnTypes (outputSchema plan) := by
  obtain ⟨⟨schema, op⟩, children⟩ := plan
  rw [meaning_node]
  rfl

theorem meaning_eq (plan : PlanNode κ) : d.meaning plan = ⟨columnTypes (outputSchema plan), d.results plan⟩ := by
  rw [← types_meaning d]
  rfl

end Database

end Meaning

end Journey.Optimizer
