import Journey.Bustub.Catalog.Catalog
import Journey.Bustub.Planner.Expressions

/-!
# Journey.Bustub.Common.Ddl — `CREATE TABLE`

`HandleCreateStatement` makes the table, looks up the columns of the primary key, and makes an index on them.  An
exception on the way does not undo what came before it, so the model returns the catalog beside the result.

* `handleCreateStatement`, down to `CreateTable` and `CreateIndex` of the catalog.
* `AllOrNothing`: the table and its index are added, or the statement throws and the catalog is as it was.
* `createPrimaryKey_ok`, `createPrimaryKey_inv`: when the index is made, and what an index that was made tells.
* `create_table_iff`: the statements for which it is all or nothing.
-/

namespace Journey.Ddl

open SqlType Storage Catalog Planner

/-! ## The code -/

section Model

/-- `CreateStatement`. -/
structure CreateStatement where
  table : String
  columns : List Column
  primaryKey : List String

/-- `TWO_INTEGER_SIZE`. -/
def twoIntegerSize : ℕ := 8

/-- One round of the loop over the primary key. -/
def keyColumn (schema : Schema) (col : String) : Except Fault ℕ := do
  let idx ← getColIdx schema col
  match schema.columns[idx]? with
  | none => .error .outOfBounds
  | some column =>
    if column.type ≠ .integer then
      .error (.exception .notImplemented "only support creating index on integer column")
    else .ok idx

/-- `CreateIndex` with a `BPlusTreeIndex`.  Its constructor asks the buffer pool for a page: `header` is the one that
`NewPage` gives, or nothing where `NewPage` throws. -/
def createTreeIndex (c : Catalog) (indexName tableName : String) (schema keySchema : Schema) (keyAttrs : List ℕ)
    (hashFunction : GenericKey twoIntegerSize → UInt64) (isPrimaryKey : Bool) (header : Option Int32) (rounds : ℕ) :
    Except CatalogError (Option IndexInfo × Catalog) :=
  match header with
  | some _ =>
    c.createIndex twoIntegerSize indexName tableName schema keySchema keyAttrs twoIntegerSize hashFunction
      isPrimaryKey .bPlusTreeIndex rounds
  | none =>
    if tableName ∉ c.tableNames then .ok (none, c)
    else
      match c.indexNames.lookup tableName with
      | none => .error .brokenInvariant
      | some tableIndexes =>
        if indexName ∈ tableIndexes then .ok (none, c)
        else do
          let _ ← (IndexMetadata.new indexName tableName schema keyAttrs isPrimaryKey).mapError CatalogError.fault
          .error (.heap .outOfPages)

/-- The body of `if (!stmt.primary_key_.empty())`.  The loop reads `info->schema_` in its first round. -/
def createPrimaryKey (c : Catalog) (stmt : CreateStatement) (info : Option TableInfo)
    (hashFunction : GenericKey twoIntegerSize → UInt64) (header : Option Int32) (rounds : ℕ) :
    Except CatalogError (Option IndexInfo × Catalog) :=
  match info with
  | none => .error .nullTable
  | some info => do
    let colIds ← (stmt.primaryKey.mapM (keyColumn info.schema)).mapError .fault
    match info.schema.copySchema colIds with
    | none => .error (.fault .outOfBounds)
    | some keySchema =>
      if colIds = [] ∨ 2 < colIds.length then
        .error (.fault (.exception .notImplemented "only support creating index with exactly one or two columns"))
      else
        createTreeIndex c (stmt.table ++ "_pk") stmt.table info.schema keySchema colIds hashFunction true header
          rounds

/-- The text that is written at the end. -/
def created (info : TableInfo) : Option IndexInfo → String
  | some index => "Table created with id = " ++ toString info.oid ++ ", Primary key index created with id = " ++
      toString index.indexOid
  | none => "Table created with id = " ++ toString info.oid

/-- `HandleCreateStatement`. -/
def handleCreateStatement (c : Catalog) (stmt : CreateStatement) (page : Int32 → Mem) (fresh : List Int32)
    (hashFunction : GenericKey twoIntegerSize → UInt64) (header : Option Int32) (rounds : ℕ) :
    Except CatalogError String × Catalog :=
  match c.createTable stmt.table (.create stmt.columns) true page fresh with
  | .error e => (.error e, c)
  | .ok (info, c) =>
    match if stmt.primaryKey = [] then .ok (none, c)
      else createPrimaryKey c stmt info hashFunction header rounds with
    | .error e => (.error e, c)
    | .ok (index, c) =>
      match info with
      | none => (.error (.fault (.exception .invalid "Failed to create table")), c)
      | some info => (.ok (created info index), c)

end Model

/-! ## What the statement is for -/

section Spec

/-- The call ended with a C++ exception.  `outOfPages` is the one that `NewPage` throws. -/
def isThrown : CatalogError → Bool
  | .heap .outOfPages | .heap (.thrown _) => true
  | .fault (.exception _ _) | .fault (.logicError _) => true
  | _ => false

/-- The names of the indexes of a table that has `index` or none. -/
def indexNamesOf : Option IndexInfo → UnorderedMap String UInt32
  | none => ∅
  | some index => AList.insert index.name index.indexOid ∅

/-- `c'` is `c` with one table more, and with one index on it or none. -/
structure Adds (c c' : Catalog) (info : TableInfo) (index : Option IndexInfo) : Prop where
  oid_new : info.oid ∉ c.tables
  name_new : info.name ∉ c.tableNames
  tables : ∀ oid, c'.tables.lookup oid = if oid = info.oid then some info else c.tables.lookup oid
  tableNames : ∀ name,
    c'.tableNames.lookup name = if name = info.name then some info.oid else c.tableNames.lookup name
  indexNames : ∀ name,
    c'.indexNames.lookup name = if name = info.name then some (indexNamesOf index) else c.indexNames.lookup name
  index_new : ∀ made ∈ index, made.indexOid ∉ c.indexes
  indexes : ∀ oid, c'.indexes.lookup oid =
    match index with
    | none => c.indexes.lookup oid
    | some made => if oid = made.indexOid then some made else c.indexes.lookup oid

/-- The table that the statement describes, and the index if it has a primary key. -/
structure Describes (stmt : CreateStatement) (info : TableInfo) (index : Option IndexInfo) : Prop where
  name : info.name = stmt.table
  schema : info.schema = .create stmt.columns
  heap : info.table.isSome
  none_iff : index = none ↔ stmt.primaryKey = []
  key : ∀ made ∈ index, made.tableName = stmt.table ∧ made.isPrimaryKey = true ∧
    made.keySchema.columns.map Column.name = stmt.primaryKey

/-- **All or nothing.**  What the statement describes is added, or it throws and the catalog is as it was; with the
name of a table that is there it throws; and no null table is dereferenced. -/
def AllOrNothing (c : Catalog) (stmt : CreateStatement) (result : Except CatalogError String × Catalog) : Prop :=
  ((∃ text info index, result.1 = .ok text ∧ Describes stmt info index ∧ Adds c result.2 info index) ∨
    ∃ e, result.1 = .error e ∧ isThrown e = true ∧ result.2 = c) ∧
  (stmt.table ∈ c.tableNames → ∃ e, result.1 = .error e ∧ isThrown e = true) ∧
  result.1 ≠ .error .nullTable

/-- The first column of the name is an `INTEGER`. -/
def IsIntegerColumn (cols : List Column) (col : String) : Prop :=
  (cols.find? fun column => column.name = col).map Column.type = some .integer

/-- The key has at most two columns, and each is an `INTEGER` column of the table. -/
structure KeyFits (stmt : CreateStatement) : Prop where
  length_le : stmt.primaryKey.length ≤ 2
  integer : ∀ col ∈ stmt.primaryKey, IsIntegerColumn stmt.columns col

/-- The statement names a table that is there and has no key; or the buffer pool has no page for the heap; or the next
oids are not in use, the key fits, and there is a page for the index. -/
def Clean (c : Catalog) (stmt : CreateStatement) (fresh : List Int32) (header : Option Int32) : Prop :=
  if stmt.table ∈ c.tableNames then stmt.primaryKey = []
  else fresh = [] ∨ c.nextTableOid ∉ c.tables ∧
    (stmt.primaryKey = [] ∨ KeyFits stmt ∧ header.isSome ∧ c.nextIndexOid ∉ c.indexes)

end Spec

/-! ## The columns of the key -/

section Keys

variable {cols : List Column} {col : String} {primaryKey : List String}

theorem tryGetColIdx_create (cols : List Column) (col : String) :
    tryGetColIdx (.create cols) col = cols.findIdx? fun column => column.name = col := by
  have hnames : (Schema.create cols).columns.map Column.name = cols.map Column.name :=
    map_create (fun _ _ => rfl) cols
  show (Schema.create cols).columns.findIdx? ((fun name => decide (name = col)) ∘ Column.name) = _
  rw [← List.findIdx?_map, hnames, List.findIdx?_map]
  rfl

/-- A round of the loop finds the column of the name, if it is an `INTEGER`, and throws otherwise. -/
theorem keyColumn_cases (cols : List Column) (col : String) :
    (IsIntegerColumn cols col ∧ ∃ idx column, keyColumn (.create cols) col = .ok idx ∧ cols[idx]? = some column ∧
      column.name = col) ∨
    ¬ IsIntegerColumn cols col ∧ ∃ e, keyColumn (.create cols) col = .error e := by
  unfold keyColumn getColIdx IsIntegerColumn
  rw [tryGetColIdx_create, List.find?_eq_bind_findIdx?_getElem?]
  rcases hidx : cols.findIdx? fun column => column.name = col with - | idx
  · rw [hidx]
    exact .inr ⟨by simp, _, rfl⟩
  · obtain ⟨hlt, hname, -⟩ := List.findIdx?_eq_some_iff_getElem.mp hidx
    simp only [hidx, ok_bind, getElem?_create, List.getElem?_eq_getElem hlt, Option.bind_some, Option.map_some]
    by_cases htype : cols[idx].type = .integer
    · exact .inl ⟨congrArg some htype, idx, cols[idx], if_neg (not_not.mpr htype),
        List.getElem?_eq_getElem hlt, of_decide_eq_true hname⟩
    · exact .inr ⟨fun h => htype (Option.some.inj h), _, if_pos htype⟩

/-- The loop goes through if every column is there and an `INTEGER`. -/
theorem keyColumns_ok (h : ∀ col ∈ primaryKey, IsIntegerColumn cols col) :
    ∃ colIds keySchema, primaryKey.mapM (keyColumn (.create cols)) = .ok colIds ∧
      colIds.length = primaryKey.length ∧ (Schema.create cols).copySchema colIds = some keySchema ∧
      keySchema.columns.map Column.name = primaryKey := by
  have hloop : ∃ colIds keyCols, primaryKey.mapM (keyColumn (.create cols)) = .ok colIds ∧
      colIds.length = primaryKey.length ∧
      colIds.mapM (fun i => (Schema.create cols).columns[i]?) = some keyCols ∧
      keyCols.map Column.name = primaryKey := by
    induction primaryKey with
    | nil => exact ⟨[], [], rfl, rfl, rfl, rfl⟩
    | cons col primaryKey ih =>
      obtain ⟨colIds, keyCols, hids, hlen, hcols, hnames⟩ := ih fun col' h' => h col' (List.mem_cons_of_mem _ h')
      obtain ⟨-, idx, column, hidx, hcolumn, hname⟩ | ⟨hno, -⟩ := keyColumn_cases cols col
      · refine ⟨idx :: colIds, placed cols idx column :: keyCols, ?_, by simp [hlen], ?_, ?_⟩
        · rw [List.mapM_cons, hidx, ok_bind, hids]
          rfl
        · rw [List.mapM_cons, getElem?_create, hcolumn, hcols]
          rfl
        · rw [List.map_cons, hnames]
          exact congrArg (· :: primaryKey) hname
      · exact absurd (h col (List.mem_cons_self ..)) hno
  obtain ⟨colIds, keyCols, hids, hlen, hcols, hnames⟩ := hloop
  refine ⟨colIds, .create keyCols, hids, hlen, ?_, ?_⟩
  · unfold Schema.copySchema
    rw [hcols]
    rfl
  · rw [map_create (fun _ _ => rfl), hnames]

/-- And only then. -/
theorem integer_of_keyColumns {colIds : List ℕ} (h : primaryKey.mapM (keyColumn (.create cols)) = .ok colIds) :
    colIds.length = primaryKey.length ∧ ∀ col ∈ primaryKey, IsIntegerColumn cols col := by
  refine ⟨(forall₂_of_mapM_eq_ok h).length_eq.symm, ?_⟩
  intro col hcol
  obtain ⟨idx, hidx⟩ := exists_of_mapM_eq_ok h hcol
  obtain ⟨hint, -⟩ | ⟨-, e, he⟩ := keyColumn_cases cols col
  · exact hint
  · rw [he] at hidx
    cases hidx

end Keys

/-! ## The index on a new table -/

section Indexes

variable {c c' : Catalog} {info : TableInfo} {heap : TableHeap} {page : Int32 → Mem} {first : Int32}
  {fresh : List Int32} {schema keySchema : Schema} {keyAttrs : List ℕ} {index : Option IndexInfo}

/-- A heap that was just made has nothing to iterate over. -/
theorem populate_created (hheap : TableHeap.create page (first :: fresh) = .ok heap) {keyType : ℕ}
    (made : Index keyType) (rounds : ℕ) :
    populate heap schema keySchema keyAttrs rounds heap.makeIterator made = .ok made := by
  have hend : heap.makeIterator.isEnd = true := by
    cases hheap
    simp [TableHeap.makeIterator, TableIterator.new, TableIterator.isEnd]
  cases rounds with
  | zero => exact if_pos hend
  | succ rounds => exact if_pos hend

theorem lookup_addTable_tableNames (hname : info.name ∉ c.tableNames) :
    (c.addTable info).tableNames.lookup info.name = some info.oid := by
  simp only [Catalog.addTable, lookup_emplace _ hname, if_true]

theorem lookup_addTable_indexNames (hp : Paired c) (hname : info.name ∉ c.tableNames) :
    (c.addTable info).indexNames.lookup info.name = some ∅ := by
  simp only [Catalog.addTable, lookup_emplace _ ((hp _).not.mpr hname), if_true]

/-- With a page for its header, the index on a table that was just made is made. -/
theorem createTreeIndex_ok (hp : Paired c) (hname : info.name ∉ c.tableNames) (hoid : info.oid ∉ c.tables)
    (hheap : TableHeap.create page (first :: fresh) = .ok heap) (htable : info.table = some heap)
    (hcopy : schema.copySchema keyAttrs = some keySchema) (indexName : String)
    (hashFunction : GenericKey twoIntegerSize → UInt64) (header : Int32) (rounds : ℕ) :
    ∃ made : IndexInfo, made.name = indexName ∧ made.tableName = info.name ∧ made.isPrimaryKey = true ∧
      made.keySchema = keySchema ∧ made.indexOid = c.nextIndexOid ∧
      createTreeIndex (c.addTable info) indexName info.name schema keySchema keyAttrs hashFunction true
        (some header) rounds = .ok (some made, (c.addTable info).addIndex made ∅) := by
  have hget : (c.addTable info).getTable info.name = .ok (some info) := by
    have hinfo : (c.addTable info).tables.lookup info.oid = some info := by
      simp only [Catalog.addTable, lookup_emplace _ hoid, if_true]
    unfold Catalog.getTable
    simp only [lookup_addTable_tableNames hname, hinfo]
  have hmem : info.name ∈ (c.addTable info).tableNames := mem_of_lookup (lookup_addTable_tableNames hname)
  refine ⟨⟨keySchema, indexName, twoIntegerSize, .bPlusTree ⟨indexName, info.name, keyAttrs, true, keySchema⟩,
    c.nextIndexOid, info.name, twoIntegerSize, true, .bPlusTreeIndex⟩, rfl, rfl, rfl, rfl, rfl, ?_⟩
  unfold createTreeIndex Catalog.createIndex IndexMetadata.new makeIndex
  simp only [hmem, not_true, if_false, lookup_addTable_indexNames hp hname, AList.notMem_empty, hcopy,
    Except.mapError, ok_bind, hget, htable, populate_created hheap]
  rfl

/-- An index on a table that was just made got a page, and it is the only change. -/
theorem createTreeIndex_inv (hp : Paired c) (hname : info.name ∉ c.tableNames) {indexName : String}
    {hashFunction : GenericKey twoIntegerSize → UInt64} {header : Option Int32} {rounds : ℕ}
    (h : createTreeIndex (c.addTable info) indexName info.name schema keySchema keyAttrs hashFunction true header
      rounds = .ok (index, c')) :
    header.isSome ∧ c'.tables = (c.addTable info).tables ∧
      (c.nextIndexOid ∈ c.indexes → c'.indexes = c.indexes) := by
  have hmem : info.name ∈ (c.addTable info).tableNames := mem_of_lookup (lookup_addTable_tableNames hname)
  cases header with
  | none =>
    unfold createTreeIndex at h
    simp only [hmem, not_true, if_false, lookup_addTable_indexNames hp hname, AList.notMem_empty] at h
    obtain ⟨-, -, h⟩ := bind_eq_ok.mp h
    cases h
  | some page =>
    refine ⟨rfl, ?_⟩
    unfold createTreeIndex at h
    rcases createIndex_cases (c.addTable info) twoIntegerSize indexName info.name schema keySchema keyAttrs
      twoIntegerSize hashFunction true .bPlusTreeIndex rounds with
      ⟨e, -, heq⟩ | heq | ⟨made, names, -, -, hoid, -, -, heq⟩
    · rw [heq] at h
      cases h
    · rw [heq] at h
      cases h
      exact ⟨rfl, fun _ => rfl⟩
    · rw [heq] at h
      cases h
      refine ⟨rfl, fun htaken => ?_⟩
      have htaken' : made.indexOid ∈ c.indexes := hoid ▸ htaken
      exact if_pos htaken'

variable {stmt : CreateStatement}

/-- **A key that fits gets its index.** -/
theorem createPrimaryKey_ok (hp : Paired c) (hnew : stmt.table ∉ c.tableNames) (hname : info.name = stmt.table)
    (hschema : info.schema = .create stmt.columns) (hoid : info.oid ∉ c.tables)
    (hheap : TableHeap.create page (first :: fresh) = .ok heap) (htable : info.table = some heap)
    (hne : stmt.primaryKey ≠ []) (hfit : KeyFits stmt) (hashFunction : GenericKey twoIntegerSize → UInt64)
    (header : Int32) (rounds : ℕ) :
    ∃ made : IndexInfo, made.tableName = stmt.table ∧ made.isPrimaryKey = true ∧
      made.keySchema.columns.map Column.name = stmt.primaryKey ∧ made.indexOid = c.nextIndexOid ∧
      createPrimaryKey (c.addTable info) stmt (some info) hashFunction (some header) rounds =
        .ok (some made, (c.addTable info).addIndex made ∅) := by
  obtain ⟨colIds, keySchema, hids, hlen, hcopy, hnames⟩ := keyColumns_ok hfit.integer
  have hcount : ¬ (colIds = [] ∨ 2 < colIds.length) := by
    rintro (hnil | hlong)
    · rw [hnil] at hlen
      exact hne (List.length_eq_zero_iff.mp hlen.symm)
    · have := hfit.length_le
      omega
  obtain ⟨made, -, htable', hprimary, hkey, hindex, heq⟩ := createTreeIndex_ok hp (hname ▸ hnew) hoid hheap htable
    hcopy (stmt.table ++ "_pk") hashFunction header rounds
  refine ⟨made, htable'.trans hname, hprimary, hkey ▸ hnames, hindex, ?_⟩
  unfold createPrimaryKey
  simp only [hschema, hids, Except.mapError, ok_bind, hcopy, if_neg hcount]
  rw [← hname]
  exact hname ▸ heq

/-- **An index that was made had a key that fits**, a page, and changed nothing but the indexes. -/
theorem createPrimaryKey_inv (hp : Paired c) (hnew : stmt.table ∉ c.tableNames) (hname : info.name = stmt.table)
    (hschema : info.schema = .create stmt.columns) {hashFunction : GenericKey twoIntegerSize → UInt64}
    {header : Option Int32} {rounds : ℕ}
    (h : createPrimaryKey (c.addTable info) stmt (some info) hashFunction header rounds = .ok (index, c')) :
    KeyFits stmt ∧ header.isSome ∧ c'.tables = (c.addTable info).tables ∧
      (c.nextIndexOid ∈ c.indexes → c'.indexes = c.indexes) := by
  unfold createPrimaryKey at h
  obtain ⟨colIds, hids, h⟩ := bind_eq_ok.mp h
  rw [hschema] at hids h
  rcases hloop : stmt.primaryKey.mapM (keyColumn (.create stmt.columns)) with e | ids
  · rw [hloop] at hids
    cases hids
  rw [hloop] at hids
  cases hids
  obtain ⟨hlen, hint⟩ := integer_of_keyColumns hloop
  rcases hcopy : (Schema.create stmt.columns).copySchema colIds with - | keySchema
  · rw [hcopy] at h
    cases h
  rw [hcopy] at h
  dsimp only at h
  split_ifs at h with hcount
  rw [← hname] at h
  exact ⟨⟨by omega, hint⟩, createTreeIndex_inv hp (hname ▸ hnew) h⟩

end Indexes

/-! ## All or nothing -/

section Atomicity

variable {c c' : Catalog} {info info' : TableInfo} {index : Option IndexInfo} {made : IndexInfo}

theorem adds_table (hp : Paired c) (hname : info.name ∉ c.tableNames) (hoid : info.oid ∉ c.tables) :
    Adds c (c.addTable info) info none where
  oid_new := hoid
  name_new := hname
  tables := lookup_emplace _ hoid
  tableNames := lookup_emplace _ hname
  indexNames := lookup_emplace _ ((hp _).not.mpr hname)
  index_new := by simp
  indexes := fun _ => rfl

theorem adds_index (hp : Paired c) (hname : info.name ∉ c.tableNames) (hoid : info.oid ∉ c.tables)
    (htable : made.tableName = info.name) (hindex : made.indexOid ∉ c.indexes) :
    Adds c ((c.addTable info).addIndex made ∅) info (some made) where
  oid_new := hoid
  name_new := hname
  tables := lookup_emplace _ hoid
  tableNames := lookup_emplace _ hname
  indexNames := by
    intro name
    have hnames := lookup_emplace (∅ : UnorderedMap String UInt32) ((hp _).not.mpr hname) name
    simp only [Catalog.addIndex, Catalog.addTable, lookup_insert_eq, htable, hnames]
    split_ifs with heq
    · rfl
    · rfl
  index_new := by
    rintro _ ⟨⟩
    exact hindex
  indexes := lookup_emplace _ hindex

/-- The table that was added did not get an oid in use. -/
theorem Adds.oid_free (h : Adds c c' info' index) (htables : c'.tables = (c.addTable info).tables) :
    info.oid ∉ c.tables := by
  intro htaken
  have hsame : c'.tables = c.tables := htables.trans (if_pos htaken)
  have hlook := h.tables info'.oid
  rw [if_pos rfl, hsame] at hlook
  exact h.oid_new (mem_of_lookup hlook)

/-- Nor did the index. -/
theorem Adds.indexes_ne (h : Adds c c' info' (some made)) : c'.indexes ≠ c.indexes := by
  intro hsame
  have hlook : c'.indexes.lookup made.indexOid = some made := (h.indexes made.indexOid).trans (if_pos rfl)
  rw [hsame] at hlook
  exact h.index_new made rfl (mem_of_lookup hlook)

variable {stmt : CreateStatement}

theorem allOrNothing_added {text : String} (hd : Describes stmt info index) (ha : Adds c c' info index) :
    AllOrNothing c stmt (.ok text, c') :=
  ⟨.inl ⟨text, info, index, rfl, hd, ha⟩, fun h => absurd (hd.name ▸ h) ha.name_new, nofun⟩

theorem allOrNothing_thrown {e : CatalogError} (he : isThrown e = true) : AllOrNothing c stmt (.error e, c) := by
  refine ⟨.inr ⟨e, rfl, he, rfl⟩, fun _ => ⟨e, rfl, he⟩, ?_⟩
  rintro ⟨⟩
  cases he

variable (stmt) (page : Int32 → Mem) (fresh : List Int32) (hashFunction : GenericKey twoIntegerSize → UInt64)
  (header : Option Int32) (rounds : ℕ)

/-- With a name that is taken, `info` is null: a key is looked up in it, and without one the statement throws. -/
theorem handleCreateStatement_taken (h : stmt.table ∈ c.tableNames) :
    handleCreateStatement c stmt page fresh hashFunction header rounds =
      if stmt.primaryKey = [] then (.error (.fault (.exception .invalid "Failed to create table")), c)
      else (.error .nullTable, c) := by
  unfold handleCreateStatement Catalog.createTable
  simp only [if_pos h]
  by_cases hkey : stmt.primaryKey = []
  · simp only [if_pos hkey]
  · simp only [if_neg hkey]
    rfl

/-- With a new name and no page, `CreateTable` throws before it changes the catalog. -/
theorem handleCreateStatement_noPages (h : stmt.table ∉ c.tableNames) :
    handleCreateStatement c stmt page [] hashFunction header rounds = (.error (.heap .outOfPages), c) := by
  unfold handleCreateStatement Catalog.createTable
  simp only [if_neg h]
  rfl

/-- With a new name and a page, the table is made, and what the key leads to comes on top. -/
theorem handleCreateStatement_new (h : stmt.table ∉ c.tableNames) (first : Int32) :
    ∃ heap info, TableHeap.create page (first :: fresh) = .ok heap ∧ info.name = stmt.table ∧
      info.schema = .create stmt.columns ∧ info.table = some heap ∧ info.oid = c.nextTableOid ∧
      handleCreateStatement c stmt page (first :: fresh) hashFunction header rounds =
        match if stmt.primaryKey = [] then .ok (none, c.addTable info)
          else createPrimaryKey (c.addTable info) stmt (some info) hashFunction header rounds with
        | .error e => (.error e, c.addTable info)
        | .ok (index, c') => (.ok (created info index), c') := by
  refine ⟨_, ⟨.create stmt.columns, stmt.table, _, c.nextTableOid⟩, rfl, rfl, rfl, rfl, rfl, ?_⟩
  unfold handleCreateStatement Catalog.createTable
  simp only [if_neg h]
  rfl

/-- On a clean statement, what is added is what it describes. -/
theorem allOrNothing_of_clean (hp : Paired c) (h : Clean c stmt fresh header) :
    AllOrNothing c stmt (handleCreateStatement c stmt page fresh hashFunction header rounds) := by
  unfold Clean at h
  split_ifs at h with htaken
  · rw [handleCreateStatement_taken _ _ _ _ _ _ htaken, if_pos h]
    exact allOrNothing_thrown rfl
  rcases fresh with - | ⟨first, fresh⟩
  · rw [handleCreateStatement_noPages _ _ _ _ _ htaken]
    exact allOrNothing_thrown rfl
  obtain ⟨hoid, hkey⟩ := h.resolve_left (by simp)
  obtain ⟨heap, info, hheap, hname, hschema, htable, hnext, heq⟩ :=
    handleCreateStatement_new stmt page fresh hashFunction header rounds htaken first
  rw [← hnext] at hoid
  rw [heq]
  by_cases hnil : stmt.primaryKey = []
  · rw [if_pos hnil]
    exact allOrNothing_added ⟨hname, hschema, by simp [htable], by simp [hnil], by simp⟩
      (adds_table hp (hname ▸ htaken) hoid)
  · obtain ⟨hfit, hheader, hindex⟩ := hkey.resolve_left hnil
    obtain ⟨header, rfl⟩ := Option.isSome_iff_exists.mp hheader
    obtain ⟨made, hmade, hprimary, hnames, hmadeOid, hcreate⟩ := createPrimaryKey_ok hp htaken hname hschema hoid
      hheap htable hnil hfit hashFunction header rounds
    rw [if_neg hnil, hcreate]
    refine allOrNothing_added ⟨hname, hschema, by simp [htable], by simp [hnil], ?_⟩
      (adds_index hp (hname ▸ htaken) hoid (hmade.trans hname.symm) (hmadeOid ▸ hindex))
    rintro _ ⟨⟩
    exact ⟨hmade, hprimary, hnames⟩

/-- A statement that is all or nothing was clean: otherwise a null table is dereferenced, or the new table stays behind
an exception, or an oid is given twice. -/
theorem clean_of_allOrNothing (hp : Paired c)
    (h : AllOrNothing c stmt (handleCreateStatement c stmt page fresh hashFunction header rounds)) :
    Clean c stmt fresh header := by
  unfold Clean
  split_ifs with htaken
  · by_contra hkey
    rw [handleCreateStatement_taken _ _ _ _ _ _ htaken, if_neg hkey] at h
    exact h.2.2 rfl
  rcases fresh with - | ⟨first, fresh⟩
  · exact .inl rfl
  refine .inr ?_
  obtain ⟨heap, info, -, hname, hschema, -, hnext, heq⟩ :=
    handleCreateStatement_new stmt page fresh hashFunction header rounds htaken first
  rw [heq] at h
  rw [← hnext]
  by_cases hnil : stmt.primaryKey = []
  · rw [if_pos hnil] at h
    obtain ⟨_, info', index, -, -, hadds⟩ | ⟨_, ⟨⟩, -⟩ := h.1
    exact ⟨hadds.oid_free rfl, .inl hnil⟩
  rw [if_neg hnil] at h
  rcases hcreate : createPrimaryKey (c.addTable info) stmt (some info) hashFunction header rounds with
    e | ⟨index, c'⟩
  · -- an exception behind `CreateTable`: the table is in the catalog already
    rw [hcreate] at h
    obtain ⟨_, _, _, ⟨⟩, -⟩ | ⟨_, -, -, hsame⟩ := h.1
    have hmem : stmt.table ∈ (c.addTable info).tableNames :=
      hname ▸ mem_of_lookup (lookup_addTable_tableNames (hname ▸ htaken))
    exact absurd ((show c.addTable info = c from hsame) ▸ hmem) htaken
  · rw [hcreate] at h
    obtain ⟨hfit, hheader, htables, hindexes⟩ := createPrimaryKey_inv hp htaken hname hschema hcreate
    obtain ⟨_, info', index', -, hdesc, hadds⟩ | ⟨_, ⟨⟩, -⟩ := h.1
    refine ⟨hadds.oid_free htables, .inr ⟨hfit, hheader, fun hused => ?_⟩⟩
    cases index' with
    | none => exact hnil (hdesc.none_iff.mp rfl)
    | some made => exact hadds.indexes_ne (hindexes hused)

/-- **When `CREATE TABLE` is all or nothing.**  After any calls on the catalog, for every statement: the table that it
describes, and the index if it has a primary key, are added, or it throws and the catalog is as it was; with the name
of a table that is there it throws, and no null table is dereferenced; if and only if the statement is clean.  So a
key with a column that is missing or not an `INTEGER`, or with three columns, leaves the table behind, and any key
with a name that is taken leads through the null pointer. -/
theorem create_table_iff (calls : List Call) :
    AllOrNothing (after calls) stmt
      (handleCreateStatement (after calls) stmt page fresh hashFunction header rounds) ↔
    Clean (after calls) stmt fresh header :=
  ⟨clean_of_allOrNothing stmt page fresh hashFunction header rounds (after_paired calls),
    allOrNothing_of_clean stmt page fresh hashFunction header rounds (after_paired calls)⟩

/-- The catalog with the first of the tables that `GenerateMockTable` makes, which have no heap. -/
def mockCatalog : Catalog :=
  after [.createTable "__mock_table_1" (.create [.fixed "colA" .integer 4 integer_fixed integer_size,
    .fixed "colB" .integer 4 integer_fixed integer_size]) false (fun _ _ => 0) []]

/-- `CREATE TABLE __mock_table_1(a int PRIMARY KEY)`. -/
def takenWithKey : CreateStatement := ⟨"__mock_table_1", [.fixed "a" .integer 4 integer_fixed integer_size], ["a"]⟩

/-- `CREATE TABLE t(a varchar(4) PRIMARY KEY)`. -/
def varcharKey : CreateStatement := ⟨"t", [.varlen "a" .varchar 4 4 varchar_varlen rfl], ["a"]⟩

/-- A key with a name that is taken follows a null pointer; a `VARCHAR` key throws and leaves its table in the
catalog, after which the statement cannot be repeated. -/
theorem table_behind_an_exception :
    (handleCreateStatement mockCatalog takenWithKey (fun _ _ => 0) [] (fun _ => 0) none 0).1 = .error .nullTable ∧
    ¬ AllOrNothing mockCatalog takenWithKey
      (handleCreateStatement mockCatalog takenWithKey (fun _ _ => 0) [] (fun _ => 0) none 0) ∧
    (handleCreateStatement mockCatalog varcharKey (fun _ _ => 0) [0] (fun _ => 0) (some 1) 0).1 =
      .error (.fault (.exception .notImplemented "only support creating index on integer column")) ∧
    "t" ∈ (handleCreateStatement mockCatalog varcharKey (fun _ _ => 0) [0] (fun _ => 0) (some 1) 0).2.tableNames ∧
    ¬ AllOrNothing mockCatalog varcharKey
      (handleCreateStatement mockCatalog varcharKey (fun _ _ => 0) [0] (fun _ => 0) (some 1) 0) := by
  have hleft : "t" ∈ (handleCreateStatement mockCatalog varcharKey (fun _ _ => 0) [0] (fun _ => 0) (some 1)
      0).2.tableNames := by decide +kernel
  refine ⟨rfl, fun h => h.2.2 rfl, rfl, hleft, ?_⟩
  rintro ⟨⟨_, _, _, ⟨⟩, -⟩ | ⟨_, -, -, hsame⟩, -⟩
  rw [hsame] at hleft
  exact absurd hleft (by decide +kernel)

end Atomicity

end Journey.Ddl
