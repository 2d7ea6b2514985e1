import Journey.Lib.Maps
import Journey.Bustub.Storage.HeapScan
import Journey.Bustub.Storage.Index

/-!
# Journey.Bustub.Catalog.Catalog — tables, indexes and their names

`Catalog` keeps tables and indexes by oid and, beside that, two maps from names to oids.

* `createTable`, `createIndex` and the lookups, with the assertions they make.
* `Consistent`: the four maps say the same.
* `createTable_cases`, `createIndex_cases`: what the two calls that write can do.
* `catalog_stays_consistent`: every catalog reached by calls is consistent, and no assertion fires.
-/

namespace Journey.Catalog

open SqlType Storage

/-! ## The code -/

section Model

/-- `IndexType`. -/
inductive IndexType
  | bPlusTreeIndex
  | hashTableIndex
  | stlOrderedIndex
  | stlUnorderedIndex
deriving DecidableEq, Repr

/-- `TableInfo`.  A heap made without a buffer pool has no pages. -/
structure TableInfo where
  schema : Schema
  name : String
  table : Option TableHeap
  oid : UInt32

/-- `IndexInfo`.  `keyType` is the size of the `GenericKey` that the index was made for. -/
structure IndexInfo where
  keySchema : Schema
  name : String
  keyType : ℕ
  index : Index keyType
  indexOid : UInt32
  tableName : String
  keySize : ℕ
  isPrimaryKey : Bool
  indexType : IndexType

/-- How a call can end without an answer: a "Broken Invariant" assertion, an access through a null
`TableInfo` or buffer pool, an error of the heap or of the index, or no end within the given rounds. -/
inductive CatalogError
  | brokenInvariant
  | nullTable
  | noBufferPool
  | heap (e : HeapError)
  | fault (e : Fault)
  | noEnd

end Model

end Journey.Catalog

namespace Journey

open Catalog SqlType Storage

/-- `Catalog`. -/
structure Catalog where
  tables : UnorderedMap UInt32 TableInfo
  tableNames : UnorderedMap String UInt32
  nextTableOid : UInt32
  indexes : UnorderedMap UInt32 IndexInfo
  indexNames : UnorderedMap String (UnorderedMap String UInt32)
  nextIndexOid : UInt32

namespace Catalog

section Calls

/-- The constructor. -/
def new : Catalog := ⟨∅, ∅, 0, ∅, ∅, 0⟩

/-- `CreateTable`; the pages that the new heap gets come from `page` and `fresh`. -/
def createTable (c : Catalog) (tableName : String) (schema : Schema) (createTableHeap : Bool)
    (page : Int32 → Mem) (fresh : List Int32) : Except CatalogError (Option TableInfo × Catalog) :=
  if tableName ∈ c.tableNames then .ok (none, c)
  else do
    let table ← if createTableHeap then ((TableHeap.create page fresh).map some).mapError .heap else .ok none
    let tableOid := c.nextTableOid
    let info : TableInfo := ⟨schema, tableName, table, tableOid⟩
    return (some info, { c with
      nextTableOid := tableOid + 1
      tables := c.tables.emplace tableOid info
      tableNames := c.tableNames.emplace tableName tableOid
      indexNames := c.indexNames.emplace tableName ∅ })

/-- `GetTable(table_name)`. -/
def getTable (c : Catalog) (tableName : String) : Except CatalogError (Option TableInfo) :=
  match c.tableNames.lookup tableName with
  | none => .ok none
  | some tableOid =>
    match c.tables.lookup tableOid with
    | none => .error .brokenInvariant
    | some info => .ok (some info)

/-- `GetTable(table_oid)`. -/
def getTableByOid (c : Catalog) (tableOid : UInt32) : Option TableInfo := c.tables.lookup tableOid

/-- The index object that `CreateIndex` makes. -/
def makeIndex {keyType : ℕ} (metadata : IndexMetadata) (hashFunction : GenericKey keyType → UInt64) :
    IndexType → Except Fault (Index keyType)
  | .hashTableIndex => .error (.exception .notImplemented "DiskExtendibleHashTable is not implemented")
  | .bPlusTreeIndex => .ok (.bPlusTree metadata)
  | .stlOrderedIndex => .ok (.stlOrdered ⟨metadata, []⟩)
  | .stlUnorderedIndex => .ok (.stlUnordered ⟨metadata, hashFunction, []⟩)

/-- The loop that populates the index, for at most `k` rounds. -/
def populate {keyType : ℕ} (h : TableHeap) (schema keySchema : Schema) (keyAttrs : List ℕ) :
    ℕ → TableIterator → Index keyType → Except CatalogError (Index keyType)
  | 0, it, index => if it.isEnd then .ok index else .error .noEnd
  | k + 1, it, index =>
    if it.isEnd then .ok index
    else do
      let (_, tuple) ← (h.getTuple it.rid).mapError .heap
      let key ← (tuple.keyFromTuple schema keySchema keyAttrs).mapError .fault
      let (_, index) ← (index.insertEntry key tuple.rid).mapError .fault
      let it ← (it.next h).mapError .heap
      populate h schema keySchema keyAttrs k it index

/-- `CreateIndex<GenericKey<keyType>, RID, GenericComparator<keyType>>`. -/
def createIndex (c : Catalog) (keyType : ℕ) (indexName tableName : String) (schema keySchema : Schema)
    (keyAttrs : List ℕ) (keySize : ℕ) (hashFunction : GenericKey keyType → UInt64) (isPrimaryKey : Bool)
    (indexType : IndexType) (rounds : ℕ) : Except CatalogError (Option IndexInfo × Catalog) :=
  if tableName ∉ c.tableNames then .ok (none, c)
  else
    match c.indexNames.lookup tableName with
    | none => .error .brokenInvariant
    | some tableIndexes =>
      if indexName ∈ tableIndexes then .ok (none, c)
      else do
        let metadata ← (IndexMetadata.new indexName tableName schema keyAttrs isPrimaryKey).mapError .fault
        let index ← (makeIndex metadata hashFunction indexType).mapError .fault
        match ← c.getTable tableName with
        | none => throw .nullTable
        | some tableMeta =>
          match tableMeta.table with
          | none => throw .noBufferPool
          | some table =>
            let index ← populate table schema keySchema keyAttrs rounds table.makeIterator index
            let indexOid := c.nextIndexOid
            let info : IndexInfo :=
              ⟨keySchema, indexName, keyType, index, indexOid, tableName, keySize, isPrimaryKey, indexType⟩
            return (some info, { c with
              nextIndexOid := indexOid + 1
              indexes := c.indexes.emplace indexOid info
              indexNames := c.indexNames.insert tableName (tableIndexes.emplace indexName indexOid) })

/-- `GetIndex(index_name, table_name)`. -/
def getIndex (c : Catalog) (indexName tableName : String) : Except CatalogError (Option IndexInfo) :=
  match c.indexNames.lookup tableName with
  | none => if tableName ∈ c.tableNames then .error .brokenInvariant else .ok none
  | some tableIndexes =>
    match tableIndexes.lookup indexName with
    | none => .ok none
    | some indexOid =>
      match c.indexes.lookup indexOid with
      | none => .error .brokenInvariant
      | some info => .ok (some info)

/-- `GetIndex(index_name, table_oid)`. -/
def getIndexByTableOid (c : Catalog) (indexName : String) (tableOid : UInt32) :
    Except CatalogError (Option IndexInfo) :=
  match c.tables.lookup tableOid with
  | none => .ok none
  | some tableMeta => c.getIndex indexName tableMeta.name

/-- `GetIndex(index_oid)`. -/
def getIndexByOid (c : Catalog) (indexOid : UInt32) : Option IndexInfo := c.indexes.lookup indexOid

/-- `GetTableIndexes`. -/
def getTableIndexes (c : Catalog) (tableName : String) : Except CatalogError (List IndexInfo) :=
  if tableName ∉ c.tableNames then .ok []
  else
    match c.indexNames.lookup tableName with
    | none => .error .brokenInvariant
    | some tableIndexes =>
      tableIndexes.entries.mapM fun indexMeta =>
        match c.indexes.lookup indexMeta.2 with
        | none => .error .brokenInvariant
        | some info => .ok info

end Calls

/-! ## Runs -/

section Runs

/-- A call on the catalog, or a change of a table's heap by someone who has its `TableInfo`. -/
inductive Call
  | createTable (tableName : String) (schema : Schema) (createTableHeap : Bool) (page : Int32 → Mem)
      (fresh : List Int32)
  | createIndex (keyType : ℕ) (indexName tableName : String) (schema keySchema : Schema) (keyAttrs : List ℕ)
      (keySize : ℕ) (hashFunction : GenericKey keyType → UInt64) (isPrimaryKey : Bool) (indexType : IndexType)
      (rounds : ℕ)
  | getTable (tableName : String)
  | getTableByOid (tableOid : UInt32)
  | getIndex (indexName tableName : String)
  | getIndexByTableOid (indexName : String) (tableOid : UInt32)
  | getIndexByOid (indexOid : UInt32)
  | getTableIndexes (tableName : String)
  | writeHeap (tableOid : UInt32) (table : TableHeap)

/-- What a call answers; `none` is `NULL_TABLE_INFO` and `NULL_INDEX_INFO`. -/
inductive Answer
  | table (info : Option TableInfo)
  | index (info : Option IndexInfo)
  | indexes (infos : List IndexInfo)

/-- The answer and the new catalog; an error leaves the catalog as it was. -/
def settle {α : Type} (c : Catalog) (answer : α → Answer) (result : Except CatalogError (α × Catalog)) :
    Except CatalogError Answer × Catalog :=
  match result with
  | .ok (a, c') => (.ok (answer a), c')
  | .error e => (.error e, c)

/-- Make a call. -/
def call (c : Catalog) : Call → Except CatalogError Answer × Catalog
  | .createTable tableName schema createTableHeap page fresh =>
    c.settle .table (c.createTable tableName schema createTableHeap page fresh)
  | .createIndex keyType indexName tableName schema keySchema keyAttrs keySize hashFunction isPrimaryKey
      indexType rounds =>
    c.settle .index (c.createIndex keyType indexName tableName schema keySchema keyAttrs keySize hashFunction
      isPrimaryKey indexType rounds)
  | .getTable tableName => ((c.getTable tableName).map .table, c)
  | .getTableByOid tableOid => (.ok (.table (c.getTableByOid tableOid)), c)
  | .getIndex indexName tableName => ((c.getIndex indexName tableName).map .index, c)
  | .getIndexByTableOid indexName tableOid => ((c.getIndexByTableOid indexName tableOid).map .index, c)
  | .getIndexByOid indexOid => (.ok (.index (c.getIndexByOid indexOid)), c)
  | .getTableIndexes tableName => ((c.getTableIndexes tableName).map .indexes, c)
  | .writeHeap tableOid table =>
    match c.tables.lookup tableOid with
    | none => (.ok (.table none), c)
    | some info =>
      (.ok (.table (some info)),
        { c with tables := c.tables.insert tableOid { info with table := some table } })

/-- The catalog after the calls. -/
def after (calls : List Call) : Catalog := calls.foldl (fun c op => (c.call op).2) new

def Call.isCreateTable : Call → Bool
  | .createTable .. => true
  | _ => false

def Call.isCreateIndex : Call → Bool
  | .createIndex .. => true
  | _ => false

end Runs

/-! ## What a call does -/

section Cases

variable {c : Catalog}

/-- The catalog with a table more. -/
def addTable (c : Catalog) (info : TableInfo) : Catalog :=
  { c with
    nextTableOid := info.oid + 1
    tables := c.tables.emplace info.oid info
    tableNames := c.tableNames.emplace info.name info.oid
    indexNames := c.indexNames.emplace info.name ∅ }

/-- The catalog with an index more. -/
def addIndex (c : Catalog) (info : IndexInfo) (tableIndexes : UnorderedMap String UInt32) : Catalog :=
  { c with
    nextIndexOid := info.indexOid + 1
    indexes := c.indexes.emplace info.indexOid info
    indexNames := c.indexNames.insert info.tableName (tableIndexes.emplace info.name info.indexOid) }

/-- `CreateTable` fails, refuses a name that is taken, or adds the table. -/
theorem createTable_cases (c : Catalog) (tableName : String) (schema : Schema) (createTableHeap : Bool)
    (page : Int32 → Mem) (fresh : List Int32) :
    (∃ e, c.createTable tableName schema createTableHeap page fresh = .error (.heap e)) ∨
    c.createTable tableName schema createTableHeap page fresh = .ok (none, c) ∨
    ∃ info, info.name = tableName ∧ info.oid = c.nextTableOid ∧ tableName ∉ c.tableNames ∧
      c.createTable tableName schema createTableHeap page fresh = .ok (some info, c.addTable info) := by
  unfold createTable
  by_cases hname : tableName ∈ c.tableNames
  · rw [if_pos hname]
    exact .inr (.inl rfl)
  · rw [if_neg hname]
    by_cases hheap : createTableHeap = true
    · rw [if_pos hheap]
      rcases hcreate : TableHeap.create page fresh with e | table
      · exact .inl ⟨e, rfl⟩
      · exact .inr (.inr ⟨⟨schema, tableName, some table, c.nextTableOid⟩, rfl, rfl, hname, rfl⟩)
    · rw [if_neg hheap]
      exact .inr (.inr ⟨⟨schema, tableName, none, c.nextTableOid⟩, rfl, rfl, hname, rfl⟩)

end Cases

/-! ## Consistency -/

section Consistency

variable {c : Catalog} {ν : Type}

/-- **The four maps say the same.** -/
structure Consistent (c : Catalog) : Prop where
  table_of_name : ∀ name oid, c.tableNames.lookup name = some oid →
    ∃ info, c.tables.lookup oid = some info ∧ info.name = name
  name_of_table : ∀ oid info, c.tables.lookup oid = some info →
    info.oid = oid ∧ c.tableNames.lookup info.name = some oid
  indexNames_iff : ∀ name, name ∈ c.indexNames ↔ name ∈ c.tableNames
  index_of_name : ∀ table names name oid, c.indexNames.lookup table = some names → names.lookup name = some oid →
    ∃ info, c.indexes.lookup oid = some info ∧ info.name = name ∧ info.tableName = table
  name_of_index : ∀ oid info, c.indexes.lookup oid = some info → info.indexOid = oid ∧
    ∃ names, c.indexNames.lookup info.tableName = some names ∧ names.lookup info.name = some oid

/-- The tables, and nothing else, have an entry for the names of their indexes. -/
def Paired (c : Catalog) : Prop := ∀ name, name ∈ c.indexNames ↔ name ∈ c.tableNames

/-- The oids given so far are below the counters. -/
structure Counted (tables indexes : ℕ) (c : Catalog) : Prop where
  nextTable : c.nextTableOid = UInt32.ofNat tables
  table_lt : ∀ oid ∈ c.tables, oid.toNat < tables
  nextIndex : c.nextIndexOid = UInt32.ofNat indexes
  index_lt : ∀ oid ∈ c.indexes, oid.toNat < indexes

/-- The next oid is not in use. -/
theorem oid_fresh {m : UnorderedMap UInt32 ν} {n : ℕ} (hn : n < 2 ^ 32) (hlt : ∀ oid ∈ m, oid.toNat < n) :
    UInt32.ofNat n ∉ m := by
  intro hmem
  have h := hlt _ hmem
  rw [UInt32.toNat_ofNat_of_lt' hn] at h
  omega

theorem oid_lt_succ {m : UnorderedMap UInt32 ν} {n : ℕ} (hn : n < 2 ^ 32) (hlt : ∀ oid ∈ m, oid.toNat < n)
    (value : ν) : ∀ oid ∈ m.emplace (UInt32.ofNat n) value, oid.toNat < n + 1 := by
  intro oid hmem
  unfold UnorderedMap.emplace at hmem
  rw [if_neg (oid_fresh hn hlt), AList.mem_insert] at hmem
  rcases hmem with rfl | hmem
  · rw [UInt32.toNat_ofNat_of_lt' hn]
    omega
  · have := hlt oid hmem
    omega

theorem consistent_new : Consistent new where
  table_of_name := by simp [new]
  name_of_table := by simp [new]
  indexNames_iff := by simp [new]
  index_of_name := by simp [new]
  name_of_index := by simp [new]

theorem counted_new : Counted 0 0 new where
  nextTable := rfl
  table_lt := by simp [new]
  nextIndex := rfl
  index_lt := by simp [new]

theorem Paired.addTable (hp : Paired c) {info : TableInfo} (hname : info.name ∉ c.tableNames) :
    Paired (c.addTable info) := by
  intro name
  simp only [Catalog.addTable, UnorderedMap.emplace, hp info.name, if_neg hname, AList.mem_insert, hp name]

theorem Paired.addIndex (hp : Paired c) {info : IndexInfo} {tableIndexes : UnorderedMap String UInt32}
    (htable : c.indexNames.lookup info.tableName = some tableIndexes) : Paired (c.addIndex info tableIndexes) := by
  intro name
  simp only [Catalog.addIndex, AList.mem_insert]
  constructor
  · rintro (rfl | h)
    · exact (hp _).mp (mem_of_lookup htable)
    · exact (hp _).mp h
  · intro h
    exact .inr ((hp _).mpr h)

/-- A new table keeps the maps in step. -/
theorem Consistent.addTable (hc : Consistent c) {info : TableInfo} (hname : info.name ∉ c.tableNames)
    (hoid : info.oid ∉ c.tables) : Consistent (c.addTable info) := by
  have hnames : info.name ∉ c.indexNames := fun h => hname ((hc.indexNames_iff _).mp h)
  constructor
  · intro name oid h
    simp only [Catalog.addTable, lookup_emplace _ hname, lookup_emplace _ hoid] at h ⊢
    split_ifs at h with heq
    · cases h
      exact ⟨info, if_pos rfl, heq.symm⟩
    · obtain ⟨info', hinfo, hn⟩ := hc.table_of_name name oid h
      refine ⟨info', ?_, hn⟩
      rw [if_neg, hinfo]
      rintro rfl
      exact hoid (mem_of_lookup hinfo)
  · intro oid info' h
    simp only [Catalog.addTable, lookup_emplace _ hname, lookup_emplace _ hoid] at h ⊢
    split_ifs at h with heq
    · cases h
      exact ⟨heq.symm, by rw [if_pos rfl, heq]⟩
    · obtain ⟨ho, hn⟩ := hc.name_of_table oid info' h
      refine ⟨ho, ?_⟩
      rw [if_neg, hn]
      intro hsame
      exact hname (hsame ▸ mem_of_lookup hn)
  · exact Paired.addTable hc.indexNames_iff hname
  · intro table names name oid htable h
    simp only [Catalog.addTable, lookup_emplace _ hnames] at htable ⊢
    split_ifs at htable with heq
    · cases htable
      simp at h
    · exact hc.index_of_name table names name oid htable h
  · intro oid info' h
    obtain ⟨ho, names, hn, hi⟩ := hc.name_of_index oid info' h
    refine ⟨ho, names, ?_, hi⟩
    simp only [Catalog.addTable, lookup_emplace _ hnames]
    rw [if_neg, hn]
    intro hsame
    exact hnames (hsame ▸ mem_of_lookup hn)

/-- So does a new index. -/
theorem Consistent.addIndex (hc : Consistent c) {info : IndexInfo} {tableIndexes : UnorderedMap String UInt32}
    (htable : c.indexNames.lookup info.tableName = some tableIndexes) (hname : info.name ∉ tableIndexes)
    (hoid : info.indexOid ∉ c.indexes) : Consistent (c.addIndex info tableIndexes) := by
  constructor
  · exact hc.table_of_name
  · exact hc.name_of_table
  · exact Paired.addIndex hc.indexNames_iff htable
  · intro table names name oid hnames h
    simp only [Catalog.addIndex, lookup_insert_eq, lookup_emplace _ hoid] at hnames ⊢
    -- the oids that were there keep their entry
    have hold : ∀ {names' : UnorderedMap String UInt32}, c.indexNames.lookup table = some names' →
        names'.lookup name = some oid → ∃ info', (if oid = info.indexOid then some info else c.indexes.lookup oid) =
          some info' ∧ info'.name = name ∧ info'.tableName = table := by
      intro names' hn' h'
      obtain ⟨info', hinfo, hrest⟩ := hc.index_of_name table names' name oid hn' h'
      refine ⟨info', ?_, hrest⟩
      rw [if_neg, hinfo]
      rintro rfl
      exact hoid (mem_of_lookup hinfo)
    split_ifs at hnames with heq
    · cases hnames
      rw [lookup_emplace _ hname] at h
      split_ifs at h with hn
      · cases h
        exact ⟨info, if_pos rfl, hn.symm, heq.symm⟩
      · exact hold (by rw [heq]; exact htable) h
    · exact hold hnames h
  · intro oid info' h
    simp only [Catalog.addIndex, lookup_insert_eq, lookup_emplace _ hoid] at h ⊢
    split_ifs at h with heq
    · cases h
      exact ⟨heq.symm, _, if_pos rfl, by rw [lookup_emplace _ hname, if_pos rfl, heq]⟩
    · obtain ⟨ho, names, hn, hi⟩ := hc.name_of_index oid info' h
      refine ⟨ho, ?_⟩
      by_cases hsame : info'.tableName = info.tableName
      · rw [hsame, htable] at hn
        cases hn
        refine ⟨_, if_pos hsame, ?_⟩
        rw [lookup_emplace _ hname, if_neg, hi]
        intro hn
        exact hname (hn ▸ mem_of_lookup hi)
      · exact ⟨names, by rw [if_neg hsame, hn], hi⟩

/-- A table whose heap has changed is the same table. -/
theorem Consistent.writeHeap (hc : Consistent c) {oid : UInt32} {info : TableInfo}
    (hinfo : c.tables.lookup oid = some info) (table : TableHeap) :
    Consistent { c with tables := c.tables.insert oid { info with table := some table } } := by
  constructor
  · intro name oid' h
    obtain ⟨info', hinfo', hn⟩ := hc.table_of_name name oid' h
    simp only [lookup_insert_eq]
    by_cases heq : oid' = oid
    · rw [heq, hinfo] at hinfo'
      cases hinfo'
      exact ⟨_, if_pos heq, hn⟩
    · exact ⟨info', by rw [if_neg heq, hinfo'], hn⟩
  · intro oid' info' h
    simp only [lookup_insert_eq] at h
    split_ifs at h with heq
    · cases h
      rw [heq]
      exact hc.name_of_table oid info hinfo
    · exact hc.name_of_table oid' info' h
  · exact hc.indexNames_iff
  · exact hc.index_of_name
  · exact hc.name_of_index

end Consistency

/-! ## No assertion fires -/

section Assertions

variable {c : Catalog}

/-- Anything but a "Broken Invariant" assertion. -/
def Sound {α : Type} (result : Except CatalogError α) : Prop := result ≠ .error .brokenInvariant

theorem sound_ok {α : Type} (a : α) : Sound (.ok a) := by simp [Sound]

theorem sound_heap {α : Type} (x : Except HeapError α) : Sound (x.mapError .heap) := by
  cases x <;> simp [Sound, Except.mapError]

theorem sound_fault {α : Type} (x : Except Fault α) : Sound (x.mapError .fault) := by
  cases x <;> simp [Sound, Except.mapError]

theorem Sound.bind {α β : Type} {x : Except CatalogError α} {f : α → Except CatalogError β} (hx : Sound x)
    (hf : ∀ a, x = .ok a → Sound (f a)) : Sound (x >>= f) := by
  cases x with
  | error e => simpa [Sound] using hx
  | ok a => exact hf a rfl

theorem Sound.map {α β : Type} {x : Except CatalogError α} (f : α → β) (hx : Sound x) : Sound (x.map f) := by
  cases x <;> simp_all [Sound, Except.map]

theorem populate_sound {keyType : ℕ} (h : TableHeap) (schema keySchema : Schema) (keyAttrs : List ℕ) :
    ∀ (k : ℕ) (it : TableIterator) (index : Index keyType),
      Sound (populate h schema keySchema keyAttrs k it index)
  | 0, it, index => by
    unfold populate
    split_ifs
    · exact sound_ok _
    · simp [Sound]
  | k + 1, it, index => by
    unfold populate
    split_ifs
    · exact sound_ok _
    · refine (sound_heap _).bind fun _ _ => ?_
      refine (sound_fault _).bind fun _ _ => ?_
      refine (sound_fault _).bind fun _ _ => ?_
      exact (sound_heap _).bind fun _ _ => populate_sound h schema keySchema keyAttrs k _ _

theorem getTable_sound (hc : Consistent c) (tableName : String) : Sound (c.getTable tableName) := by
  unfold getTable
  split
  · exact sound_ok _
  · rename_i oid hoid
    obtain ⟨info, hinfo, -⟩ := hc.table_of_name tableName oid hoid
    rw [hinfo]
    exact sound_ok _

theorem getIndex_sound (hc : Consistent c) (indexName tableName : String) :
    Sound (c.getIndex indexName tableName) := by
  unfold getIndex
  split
  · rename_i hnone
    rw [if_neg fun h => AList.lookup_eq_none.mp hnone ((hc.indexNames_iff _).mpr h)]
    exact sound_ok _
  · rename_i names hnames
    split
    · exact sound_ok _
    · rename_i oid hoid
      obtain ⟨info, hinfo, -⟩ := hc.index_of_name tableName names indexName oid hnames hoid
      rw [hinfo]
      exact sound_ok _

/-- A table has an entry for the names of its indexes. -/
theorem Consistent.tableIndexes (hc : Consistent c) {tableName : String} (h : tableName ∈ c.tableNames) :
    ∃ names, c.indexNames.lookup tableName = some names :=
  Option.isSome_iff_exists.mp (AList.lookup_isSome.mpr ((hc.indexNames_iff _).mpr h))

/-- `GetTableIndexes` answers, and with indexes of the table, each under its own oid. -/
theorem getTableIndexes_spec (hc : Consistent c) (tableName : String) :
    ∃ infos, c.getTableIndexes tableName = .ok infos ∧
      ∀ info ∈ infos, c.getIndexByOid info.indexOid = some info ∧ info.tableName = tableName := by
  unfold getTableIndexes
  split_ifs with hmem
  · obtain ⟨names, hnames⟩ := hc.tableIndexes hmem
    rw [hnames]
    dsimp only
    have hread : ∀ e ∈ names.entries, ∃ info, c.indexes.lookup e.2 = some info ∧ info.tableName = tableName := by
      intro e he
      obtain ⟨info, hinfo, -, htable⟩ := hc.index_of_name tableName names e.1 e.2 hnames (AList.mem_lookup_iff.mpr he)
      exact ⟨info, hinfo, htable⟩
    generalize names.entries = entries at hread
    induction entries with
    | nil => exact ⟨[], rfl, List.forall_mem_nil _⟩
    | cons e entries ih =>
      obtain ⟨info, hinfo, htable⟩ := hread e (List.mem_cons_self ..)
      obtain ⟨infos, hok, hinfos⟩ := ih fun e' he' => hread e' (List.mem_cons_of_mem _ he')
      refine ⟨info :: infos, ?_, ?_⟩
      · rw [List.mapM_cons, hinfo, ok_bind, hok]
        rfl
      · intro info' hinfo'
        rcases List.mem_cons.mp hinfo' with rfl | hmem'
        · rw [getIndexByOid, (hc.name_of_index _ _ hinfo).1]
          exact ⟨hinfo, htable⟩
        · exact hinfos info' hmem'
  · exact ⟨[], rfl, List.forall_mem_nil _⟩

theorem getTableIndexes_sound (hc : Consistent c) (tableName : String) :
    Sound (c.getTableIndexes tableName) := by
  obtain ⟨infos, hok, -⟩ := getTableIndexes_spec hc tableName
  rw [hok]
  exact sound_ok infos

/-- `CreateIndex` fails, refuses a table that is missing or a name that is taken, or adds the index. -/
theorem createIndex_cases (c : Catalog) (keyType : ℕ) (indexName tableName : String)
    (schema keySchema : Schema) (keyAttrs : List ℕ) (keySize : ℕ) (hashFunction : GenericKey keyType → UInt64)
    (isPrimaryKey : Bool) (indexType : IndexType) (rounds : ℕ) :
    (∃ e, (Consistent c → e ≠ .brokenInvariant) ∧ c.createIndex keyType indexName tableName schema keySchema
      keyAttrs keySize hashFunction isPrimaryKey indexType rounds = .error e) ∨
    c.createIndex keyType indexName tableName schema keySchema keyAttrs keySize hashFunction isPrimaryKey
      indexType rounds = .ok (none, c) ∨
    ∃ info tableIndexes, info.tableName = tableName ∧ info.name = indexName ∧ info.indexOid = c.nextIndexOid ∧
      c.indexNames.lookup tableName = some tableIndexes ∧ indexName ∉ tableIndexes ∧
      c.createIndex keyType indexName tableName schema keySchema keyAttrs keySize hashFunction isPrimaryKey
        indexType rounds = .ok (some info, c.addIndex info tableIndexes) := by
  unfold createIndex
  by_cases htable : tableName ∈ c.tableNames
  swap
  · rw [if_pos htable]
    exact .inr (.inl rfl)
  rw [if_neg (not_not.mpr htable)]
  rcases hnames : c.indexNames.lookup tableName with - | names
  · refine .inl ⟨.brokenInvariant, fun hc => ?_, rfl⟩
    obtain ⟨names, hsome⟩ := hc.tableIndexes htable
    rw [hnames] at hsome
    cases hsome
  dsimp only
  by_cases hname : indexName ∈ names
  · rw [if_pos hname]
    exact .inr (.inl rfl)
  rw [if_neg hname]
  rcases hmeta : IndexMetadata.new indexName tableName schema keyAttrs isPrimaryKey with e | metadata
  · exact .inl ⟨.fault e, by simp, rfl⟩
  rcases hmake : makeIndex metadata hashFunction indexType with e | index
  · exact .inl ⟨.fault e, by simp, by simp only [Except.mapError, ok_bind, hmake]; rfl⟩
  simp only [Except.mapError, ok_bind, hmake]
  rcases hget : c.getTable tableName with e | info
  · exact .inl ⟨e, fun hc he => getTable_sound hc tableName (he ▸ hget), rfl⟩
  rw [ok_bind]
  rcases info with - | info
  · exact .inl ⟨.nullTable, by simp, rfl⟩
  rcases htab : info.table with - | table
  · exact .inl ⟨.noBufferPool, by simp, by simp only [htab]; rfl⟩
  simp only [htab]
  rcases hpop : populate table schema keySchema keyAttrs rounds table.makeIterator index with e | index
  · exact .inl ⟨e, fun _ he => populate_sound _ _ _ _ _ _ _ (he ▸ hpop), rfl⟩
  exact .inr (.inr ⟨_, names, rfl, rfl, rfl, rfl, hname, rfl⟩)

end Assertions

/-! ## Reachable catalogs -/

section Reachable

variable {c : Catalog} {tables indexes : ℕ}

/-- **Step**: a call keeps the maps in step, counts at most one table or index more, and answers without
a failed assertion; without an answer, or with a null one, it changes nothing. -/
theorem call_consistent (hc : Consistent c) (hn : Counted tables indexes c) (htables : tables < 2 ^ 32)
    (hindexes : indexes < 2 ^ 32) (op : Call) :
    (Consistent (c.call op).2 ∧ ∃ tables' indexes', Counted tables' indexes' (c.call op).2 ∧
      tables' ≤ tables + op.isCreateTable.toNat ∧ indexes' ≤ indexes + op.isCreateIndex.toNat) ∧
    Sound (c.call op).1 ∧
    ((c.call op).1 = .ok (.table none) ∨ (c.call op).1 = .ok (.index none) → (c.call op).2 = c) := by
  have hsame : Consistent c ∧ ∃ tables' indexes', Counted tables' indexes' c ∧
      tables' ≤ tables + op.isCreateTable.toNat ∧ indexes' ≤ indexes + op.isCreateIndex.toNat :=
    ⟨hc, tables, indexes, hn, by omega, by omega⟩
  cases op with
  | createTable tableName schema createTableHeap page fresh =>
    simp only [call]
    rcases createTable_cases c tableName schema createTableHeap page fresh with
      ⟨e, heq⟩ | heq | ⟨info, hname, hoid, hnew, heq⟩
    · rw [heq]
      exact ⟨hsame, by simp [settle, Sound], fun _ => rfl⟩
    · rw [heq]
      exact ⟨hsame, sound_ok _, fun _ => rfl⟩
    · rw [heq]
      rw [hn.nextTable] at hoid
      have hfresh : info.oid ∉ c.tables := hoid ▸ oid_fresh htables hn.table_lt
      refine ⟨⟨hc.addTable (hname ▸ hnew) hfresh, tables + 1, indexes, ?_, le_refl _, by omega⟩, sound_ok _,
        by simp [settle]⟩
      refine ⟨?_, ?_, hn.nextIndex, hn.index_lt⟩
      · simp [settle, addTable, hoid, UInt32.ofNat_add]
      · simp only [settle, addTable, hoid]
        exact oid_lt_succ htables hn.table_lt info
  | createIndex keyType indexName tableName schema keySchema keyAttrs keySize hashFunction isPrimaryKey
      indexType rounds =>
    simp only [call]
    rcases createIndex_cases c keyType indexName tableName schema keySchema keyAttrs keySize hashFunction
      isPrimaryKey indexType rounds with ⟨e, hne, heq⟩ | heq | ⟨info, names, htable, hname, hoid, hlook, hnew, heq⟩
    · rw [heq]
      exact ⟨hsame, by simpa [settle, Sound] using hne hc, fun _ => rfl⟩
    · rw [heq]
      exact ⟨hsame, sound_ok _, fun _ => rfl⟩
    · rw [heq]
      rw [hn.nextIndex] at hoid
      have hfresh : info.indexOid ∉ c.indexes := hoid ▸ oid_fresh hindexes hn.index_lt
      refine ⟨⟨hc.addIndex (htable ▸ hlook) (hname ▸ hnew) hfresh, tables, indexes + 1, ?_, by omega, le_refl _⟩,
        sound_ok _, by simp [settle]⟩
      refine ⟨hn.nextTable, hn.table_lt, ?_, ?_⟩
      · simp [settle, addIndex, hoid, UInt32.ofNat_add]
      · simp only [settle, addIndex, hoid]
        exact oid_lt_succ hindexes hn.index_lt info
  | getTable tableName => exact ⟨hsame, (getTable_sound hc tableName).map _, fun _ => rfl⟩
  | getTableByOid tableOid => exact ⟨hsame, sound_ok _, fun _ => rfl⟩
  | getIndex indexName tableName => exact ⟨hsame, (getIndex_sound hc indexName tableName).map _, fun _ => rfl⟩
  | getIndexByTableOid indexName tableOid =>
    refine ⟨hsame, Sound.map _ ?_, fun _ => rfl⟩
    unfold getIndexByTableOid
    split
    · exact sound_ok _
    · exact getIndex_sound hc indexName _
  | getIndexByOid indexOid => exact ⟨hsame, sound_ok _, fun _ => rfl⟩
  | getTableIndexes tableName => exact ⟨hsame, (getTableIndexes_sound hc tableName).map _, fun _ => rfl⟩
  | writeHeap tableOid table =>
    simp only [call]
    split
    · exact ⟨hsame, sound_ok _, fun _ => rfl⟩
    · rename_i info hinfo
      refine ⟨⟨hc.writeHeap hinfo table, tables, indexes, ?_, by omega, by omega⟩, sound_ok _, by simp⟩
      refine ⟨hn.nextTable, ?_, hn.nextIndex, hn.index_lt⟩
      intro oid hmem
      rcases (AList.mem_insert _).mp hmem with rfl | hmem
      · exact hn.table_lt oid (mem_of_lookup hinfo)
      · exact hn.table_lt oid hmem

/-- **Run**: what the steps keep, every run keeps. -/
theorem after_consistent (calls : List Call) (htables : calls.countP Call.isCreateTable < 2 ^ 32)
    (hindexes : calls.countP Call.isCreateIndex < 2 ^ 32) :
    Consistent (after calls) ∧ ∃ tables indexes, Counted tables indexes (after calls) ∧
      tables ≤ calls.countP Call.isCreateTable ∧ indexes ≤ calls.countP Call.isCreateIndex := by
  induction calls using List.reverseRecOn with
  | nil => exact ⟨consistent_new, 0, 0, counted_new, by simp, by simp⟩
  | append_singleton calls op ih =>
    have hcount : ∀ p : Call → Bool, (calls ++ [op]).countP p = calls.countP p + (p op).toNat := by
      intro p
      rw [List.countP_append, List.countP_singleton]
      cases p op <;> rfl
    rw [hcount] at htables hindexes
    obtain ⟨hc, tables, indexes, hn, ht, hi⟩ := ih (by omega) (by omega)
    obtain ⟨⟨hc', tables', indexes', hn', ht', hi'⟩, -⟩ := call_consistent hc hn (by omega) (by omega) op
    have hafter : after (calls ++ [op]) = ((after calls).call op).2 := by
      unfold after
      rw [List.foldl_append]
      rfl
    rw [hafter, hcount, hcount]
    exact ⟨hc', tables', indexes', hn', by omega, by omega⟩

/-- **Step**: the table names and the entries for index names stay the same set, also where an oid is given twice. -/
theorem call_paired (hp : Paired c) (op : Call) : Paired (c.call op).2 := by
  cases op with
  | createTable tableName schema createTableHeap page fresh =>
    simp only [call]
    rcases createTable_cases c tableName schema createTableHeap page fresh with
      ⟨e, heq⟩ | heq | ⟨info, hname, -, hnew, heq⟩
    · rw [heq]
      exact hp
    · rw [heq]
      exact hp
    · rw [heq]
      exact hp.addTable (hname ▸ hnew)
  | createIndex keyType indexName tableName schema keySchema keyAttrs keySize hashFunction isPrimaryKey
      indexType rounds =>
    simp only [call]
    rcases createIndex_cases c keyType indexName tableName schema keySchema keyAttrs keySize hashFunction
      isPrimaryKey indexType rounds with ⟨e, -, heq⟩ | heq | ⟨info, names, htable, -, -, hlook, -, heq⟩
    · rw [heq]
      exact hp
    · rw [heq]
      exact hp
    · rw [heq]
      exact hp.addIndex (htable ▸ hlook)
  | writeHeap tableOid table =>
    simp only [call]
    split <;> exact hp
  | _ => exact hp

/-- **Run**: after any number of calls. -/
theorem after_paired (calls : List Call) : Paired (after calls) :=
  List.foldlRecOn (motive := Paired) calls _ consistent_new.indexNames_iff fun _ hp op _ => call_paired hp op

/-- **Catalogs stay consistent.**  After any calls, with fewer than `2^32` creations of each kind: the names
and the tables are the same set of tables, each under its own oid; every table, and nothing else, has an
entry for index names; every oid there is an index of that name on that table, and conversely; two indexes of
one table have different names; the next call, whichever it is, fires no "Broken Invariant" assertion; and
if it answers null, the catalog is as it was. -/
theorem catalog_stays_consistent (calls : List Call) (htables : calls.countP Call.isCreateTable < 2 ^ 32)
    (hindexes : calls.countP Call.isCreateIndex < 2 ^ 32) :
    Consistent (after calls) ∧
    (∀ name name' oid, (after calls).tableNames.lookup name = some oid →
      (after calls).tableNames.lookup name' = some oid → name = name') ∧
    (∀ oid oid' info info', (after calls).indexes.lookup oid = some info →
      (after calls).indexes.lookup oid' = some info' → info.tableName = info'.tableName →
        info.name = info'.name → oid = oid') ∧
    ∀ op, ((after calls).call op).1 ≠ .error .brokenInvariant ∧
      (((after calls).call op).1 = .ok (.table none) ∨ ((after calls).call op).1 = .ok (.index none) →
        ((after calls).call op).2 = after calls) := by
  obtain ⟨hc, tables, indexes, hn, ht, hi⟩ := after_consistent calls htables hindexes
  refine ⟨hc, ?_, ?_, ?_⟩
  · intro name name' oid h h'
    obtain ⟨info, hinfo, rfl⟩ := hc.table_of_name name oid h
    obtain ⟨info', hinfo', rfl⟩ := hc.table_of_name name' oid h'
    rw [hinfo] at hinfo'
    cases hinfo'
    rfl
  · intro oid oid' info info' h h' htable hname
    obtain ⟨-, names, hnames, hoid⟩ := hc.name_of_index oid info h
    obtain ⟨-, names', hnames', hoid'⟩ := hc.name_of_index oid' info' h'
    rw [htable, hnames'] at hnames
    cases hnames
    rw [hname, hoid'] at hoid
    exact (Option.some.inj hoid).symm
  · intro op
    exact (call_consistent hc hn (by omega) (by omega) op).2

/-- A table, the same name again, and an index on it. -/
theorem catalog_stays_consistent_pair :
    Consistent (after [.createTable "t" (.create []) true (fun _ _ => 0) [0],
      .createTable "t" (.create []) true (fun _ _ => 0) [1],
      .createIndex 8 "i" "t" (.create []) (.create []) [] 8 (fun _ => 0) false .stlOrderedIndex 1]) :=
  (catalog_stays_consistent _ (by decide) (by decide)).1

end Reachable

end Catalog

end Journey
