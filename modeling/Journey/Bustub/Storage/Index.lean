import Journey.Bustub.Storage.TupleCodec
import Journey.Bustub.Type.Compare

/-!
# Journey.Bustub.Storage.Index — indexes over the standard containers

An index key is a `GenericKey`: the bytes of a key tuple in an array of fixed size.  `GenericComparator`
reads the columns back and compares them one after another.  `STLOrderedIndex` keeps the keys in a
`std::map` with that comparator, `STLUnorderedIndex` in a `std::unordered_map` with a hash of the bytes
and the comparator's equality.

* `GenericKey.setFromKey`, `toValue`, `genericComparator`.
* `STLOrderedIndex`, `STLUnorderedIndex`: `insertEntry`, `deleteEntry`, `scanKey`.
* `splitEntries`, `filterEntries`: how far the containers can be searched with such a comparator.
* `genericComparator_eq`: on integer columns without NULLs the comparator orders the values.
-/

namespace Journey.Storage

open SqlType Catalog

/-! ## Keys -/

section Keys

/-- `GenericKey<KeySize>`: its `data_`. -/
abbrev GenericKey (keySize : ℕ) := Buffer keySize

namespace GenericKey

variable {keySize : ℕ}

/-- `SetFromKey`: zeros, then the bytes of the tuple over them. -/
def setFromKey (keySize : ℕ) (tuple : Tuple) : Except Fault (GenericKey keySize) :=
  writeData (Buffer.zeros keySize) 0 tuple.data

/-- `ToValue`. -/
def toValue (key : GenericKey keySize) (schema : Schema) (columnIdx : ℕ) : Except Fault Value :=
  match schema.columns[columnIdx]? with
  | none => .error .outOfBounds
  | some col =>
    if col.isInlined then Value.deserializeFrom key.1 col.offset.toNat col.type
    else do
      let offset := (UInt32.ofNat (← Value.readWord key.1 col.offset.toNat 4)).toInt32
      if offset < 0 then throw .outOfBounds
      Value.deserializeFrom key.1 offset.toNatClampNeg col.type

end GenericKey

variable {keySize : ℕ}

/-- The loop of `GenericComparator::operator()`, over the columns that are left. -/
def compareColumns (keySchema : Schema) (lhs rhs : GenericKey keySize) : List ℕ → Except Fault Int
  | [] => .ok 0
  | i :: columns => do
    let lhsValue ← lhs.toValue keySchema i
    let rhsValue ← rhs.toValue keySchema i
    if (← lhsValue.compareLessThan rhsValue) = .cmpTrue then return -1
    if (← lhsValue.compareGreaterThan rhsValue) = .cmpTrue then return 1
    compareColumns keySchema lhs rhs columns

/-- `GenericComparator::operator()`. -/
def genericComparator (keySchema : Schema) (lhs rhs : GenericKey keySize) : Except Fault Int :=
  compareColumns keySchema lhs rhs (List.range keySchema.getColumnCount.toNat)

/-- `StlComparatorWrapper::operator()`. -/
def stlComparatorWrapper (keySchema : Schema) (lhs rhs : GenericKey keySize) : Except Fault Bool := do
  return (← genericComparator keySchema lhs rhs) < 0

/-- `StlEqualWrapper::operator()`. -/
def stlEqualWrapper (keySchema : Schema) (lhs rhs : GenericKey keySize) : Except Fault Bool := do
  return (← genericComparator keySchema lhs rhs) = 0

end Keys

/-! ## Containers -/

section Containers

variable {keySize : ℕ}

/-- What a container holds.  A `std::map` keeps it sorted; a `std::unordered_map` in some order. -/
abbrev Entries (keySize : ℕ) := List (GenericKey keySize × RID)

/-- `before` holds of the key of some entry. -/
def anyEntry (before : GenericKey keySize → Except Fault Bool) : Entries keySize → Except Fault Bool
  | [] => .ok false
  | e :: data => do
    if ← before e.1 then return true
    anyEntry before data

/-- Where the search of a `std::map` ends: the entries up to there, and those from there on.  It ends behind the
entries of which `before` holds.  If they do not all come first, as they may not when keys have NULLs, it depends on
the shape of the tree where it ends, and the standard leaves it undefined. -/
def splitEntries (before : GenericKey keySize → Except Fault Bool) :
    Entries keySize → Except Fault (Entries keySize × Entries keySize)
  | [] => .ok ([], [])
  | e :: data => do
    if ← before e.1 then
      let (front, back) ← splitEntries before data
      return (e :: front, back)
    if ← anyEntry before data then throw .undefined
    return ([], e :: data)

/-- `lower_bound`: behind the keys that are less. -/
def lowerBound (keySchema : Schema) (indexKey : GenericKey keySize) (data : Entries keySize) :
    Except Fault (Entries keySize × Entries keySize) :=
  splitEntries (fun key => stlComparatorWrapper keySchema key indexKey) data

/-- `upper_bound`: before the keys that are greater. -/
def upperBound (keySchema : Schema) (indexKey : GenericKey keySize) (data : Entries keySize) :
    Except Fault (Entries keySize × Entries keySize) :=
  splitEntries (fun key => do return !(← stlComparatorWrapper keySchema indexKey key)) data

/-- The entries with the keys that `same` accepts. -/
def filterEntries (same : GenericKey keySize → Except Fault Bool) : Entries keySize → Except Fault (Entries keySize)
  | [] => .ok []
  | e :: data => do
    let rest ← filterEntries same data
    if ← same e.1 then return e :: rest
    return rest

end Containers

/-! ## Indexes -/

section Indexes

variable {keySize : ℕ}

/-- `IndexMetadata`. -/
structure IndexMetadata where
  name : String
  tableName : String
  keyAttrs : List ℕ
  isPrimaryKey : Bool
  keySchema : Schema

/-- The constructor of `IndexMetadata`. -/
def IndexMetadata.new (indexName tableName : String) (tupleSchema : Schema) (keyAttrs : List ℕ)
    (isPrimaryKey : Bool) : Except Fault IndexMetadata :=
  match tupleSchema.copySchema keyAttrs with
  | none => .error .outOfBounds
  | some keySchema => .ok ⟨indexName, tableName, keyAttrs, isPrimaryKey, keySchema⟩

/-- `STLOrderedIndex`. -/
structure STLOrderedIndex (keySize : ℕ) where
  metadata : IndexMetadata
  data : Entries keySize

namespace STLOrderedIndex

/-- `data_.count` and `data_[...]`: the entry at the lower bound, unless its key is greater. -/
def find (index : STLOrderedIndex keySize) (indexKey : GenericKey keySize) : Except Fault (Option RID) := do
  match (← lowerBound index.metadata.keySchema indexKey index.data).2 with
  | [] => return none
  | (key, rid) :: _ =>
    if ← stlComparatorWrapper index.metadata.keySchema indexKey key then return none
    return some rid

/-- `InsertEntry`. -/
def insertEntry (index : STLOrderedIndex keySize) (key : Tuple) (rid : RID) :
    Except Fault (Bool × STLOrderedIndex keySize) := do
  let indexKey ← GenericKey.setFromKey keySize key
  if (← index.find indexKey).isSome then return (false, index)
  let (front, back) ← upperBound index.metadata.keySchema indexKey index.data
  return (true, { index with data := front ++ (indexKey, rid) :: back })

/-- `DeleteEntry`: `data_.erase`, from the lower bound to the upper one. -/
def deleteEntry (index : STLOrderedIndex keySize) (key : Tuple) : Except Fault (STLOrderedIndex keySize) := do
  let indexKey ← GenericKey.setFromKey keySize key
  let (front, _) ← lowerBound index.metadata.keySchema indexKey index.data
  let (_, back) ← upperBound index.metadata.keySchema indexKey index.data
  return { index with data := front ++ back }

/-- `ScanKey`. -/
def scanKey (index : STLOrderedIndex keySize) (key : Tuple) : Except Fault (List RID) := do
  let indexKey ← GenericKey.setFromKey keySize key
  return (← index.find indexKey).toList

end STLOrderedIndex

/-- `STLUnorderedIndex`. -/
structure STLUnorderedIndex (keySize : ℕ) where
  metadata : IndexMetadata
  hashFn : GenericKey keySize → UInt64
  data : Entries keySize

namespace STLUnorderedIndex

/-- The same hash, and equal. -/
def same (keySchema : Schema) (hashFn : GenericKey keySize → UInt64) (indexKey key : GenericKey keySize) :
    Except Fault Bool := do
  if hashFn key ≠ hashFn indexKey then return false
  stlEqualWrapper keySchema key indexKey

/-- What `data_.find` may come to.  It is at most one entry, unless keys have NULLs. -/
def matching (index : STLUnorderedIndex keySize) (indexKey : GenericKey keySize) : Except Fault (Entries keySize) :=
  filterEntries (same index.metadata.keySchema index.hashFn indexKey) index.data

/-- `InsertEntry`. -/
def insertEntry (index : STLUnorderedIndex keySize) (key : Tuple) (rid : RID) :
    Except Fault (Bool × STLUnorderedIndex keySize) := do
  let indexKey ← GenericKey.setFromKey keySize key
  match ← index.matching indexKey with
  | [] => return (true, { index with data := (indexKey, rid) :: index.data })
  | _ :: _ => return (false, index)

/-- `DeleteEntry`.  Which of several entries goes depends on their order in the bucket. -/
def deleteEntry (index : STLUnorderedIndex keySize) (key : Tuple) : Except Fault (STLUnorderedIndex keySize) := do
  let indexKey ← GenericKey.setFromKey keySize key
  match ← index.matching indexKey with
  | [] => return index
  | [entry] => return { index with data := index.data.erase entry }
  | _ => throw .undefined

/-- `ScanKey`.  Which of several entries answers depends on their order in the bucket. -/
def scanKey (index : STLUnorderedIndex keySize) (key : Tuple) : Except Fault (List RID) := do
  let indexKey ← GenericKey.setFromKey keySize key
  match ← index.matching indexKey with
  | [] => return []
  | [(_, rid)] => return [rid]
  | _ => throw .undefined

end STLUnorderedIndex

/-- `Index`.  The B+ tree behind `BPlusTreeIndex` is a stub: it can only be made. -/
inductive Index (keySize : ℕ)
  | stlOrdered (index : STLOrderedIndex keySize)
  | stlUnordered (index : STLUnorderedIndex keySize)
  | bPlusTree (metadata : IndexMetadata)

namespace Index

/-- `InsertEntry`. -/
def insertEntry (index : Index keySize) (key : Tuple) (rid : RID) : Except Fault (Bool × Index keySize) :=
  match index with
  | stlOrdered index => do
    let (inserted, index) ← index.insertEntry key rid
    return (inserted, stlOrdered index)
  | stlUnordered index => do
    let (inserted, index) ← index.insertEntry key rid
    return (inserted, stlUnordered index)
  | bPlusTree _ => do
    let _ ← GenericKey.setFromKey keySize key
    throw (.logicError "TODO(P2): Add implementation.")

/-- `ScanKey`. -/
def scanKey (index : Index keySize) (key : Tuple) : Except Fault (List RID) :=
  match index with
  | stlOrdered index => index.scanKey key
  | stlUnordered index => index.scanKey key
  | bPlusTree _ => do
    let _ ← GenericKey.setFromKey keySize key
    throw (.logicError "TODO(P2): Add implementation.")

end Index

end Indexes

/-! ## Integers -/

section Integers

variable {v w : Value}

/-- The four widths. -/
def isInteger : TypeId → Bool
  | .tinyint | .smallint | .integer | .bigint => true
  | _ => false

/-- **Two integers of one type are compared as numbers.** -/
theorem compare_integer (op : ComparisonType) (hint : isInteger v.getTypeId = true)
    (htype : w.getTypeId = v.getTypeId) (hv : v.isNull = false) (hw : w.isNull = false) :
    v.compare op w = .ok (op.onInt v.intValue w.intValue) := by
  have hcomparable : v.checkComparable w = true := by
    unfold Value.checkComparable
    rw [htype]
    cases v <;> first | rfl | simp [isInteger, Value.getTypeId] at hint
  have hbody : ∀ body, Value.comparable v w body = body := by
    intro body
    simp [Value.comparable, hcomparable, hv, hw]
  cases v with
  | tinyint i =>
    cases w <;> cases htype
    exact hbody _
  | smallint i =>
    cases w <;> cases htype
    exact hbody _
  | integer i =>
    cases w <;> cases htype
    exact hbody _
  | bigint i =>
    cases w <;> cases htype
    exact hbody _
  | _ => simp [isInteger, Value.getTypeId] at hint

theorem intValue_inj (hint : isInteger v.getTypeId = true) (htype : w.getTypeId = v.getTypeId)
    (h : v.intValue = w.intValue) : v = w := by
  cases v with
  | tinyint i =>
    cases w <;> cases htype
    exact congrArg _ (Int8.toInt_inj.mp h)
  | smallint i =>
    cases w <;> cases htype
    exact congrArg _ (Int16.toInt_inj.mp h)
  | integer i =>
    cases w <;> cases htype
    exact congrArg _ (Int32.toInt_inj.mp h)
  | bigint i =>
    cases w <;> cases htype
    exact congrArg _ (Int64.toInt_inj.mp h)
  | _ => simp [isInteger, Value.getTypeId] at hint

end Integers

/-! ## Encoded keys -/

section Encoded

variable {keySize : ℕ} {cols : List Column} {values : List Value} {i : ℕ} {c : Column} {v : Value}
  {key : GenericKey keySize}

theorem toValue_stored (hsize : encodedSize cols values < 2 ^ 31) (hc : cols[i]? = some c)
    (htype : v.getTypeId = c.type) (h : Stored cols values key.1 i c v) :
    key.toValue (.create cols) i = .ok v := by
  have hpayEnd := payload_end_le values hc
  obtain ⟨bs, hbs, hread⟩ := id h
  obtain ⟨bs', hbs', hback⟩ := deserializeFrom_serializeTo v (by rw [htype]; exact c.type_ne_invalid)
  rw [hbs] at hbs'
  cases hbs'
  unfold GenericKey.toValue
  rw [getElem?_create, hc]
  dsimp only [Option.map_some]
  have hcolType : (placed cols i c).type = v.getTypeId := htype.symm
  by_cases hin : c.isInlined = true
  · have hinlined : (placed cols i c).isInlined = true := hin
    rw [if_pos hin] at hread
    rw [hinlined, if_pos rfl, offset_placed hsize hc, hcolType]
    exact hback _ _ hread
  · have huninlined : c.isInlined = false := by simpa using hin
    have hplaced : (placed cols i c).isInlined = false := huninlined
    rw [if_neg hin] at hread
    rw [hplaced, if_neg Bool.false_ne_true, readWord_slot hsize hc huninlined h, ok_bind,
      UInt32.toInt32_ofNat', Int32.toNatClampNeg_ofNat_of_lt (by omega),
      if_neg (int32_ofNat_not_neg (by omega)), hcolType]
    exact hback _ _ hread.2

/-- What is stored in a tuple is stored in the key made from it. -/
theorem Stored.of_prefix {bytes bytes' : List UInt8}
    (hsame : ∀ a k, a + k ≤ bytes.length → readAt bytes' a k = readAt bytes a k)
    (h : Stored cols values bytes i c v) : Stored cols values bytes' i c v := by
  have hread : ∀ {a k : ℕ} {bs : List UInt8}, readAt bytes a k = some bs → readAt bytes' a k = some bs := by
    intro a k bs hbs
    rw [hsame a k (readAt_eq_some hbs).1, hbs]
  obtain ⟨bs, hbs, hstored⟩ := h
  refine ⟨bs, hbs, ?_⟩
  split_ifs at hstored ⊢ with hin
  · exact hread hstored
  · exact ⟨hread hstored.1, hread hstored.2⟩

/-- `SetFromKey` of a tuple that fits. -/
theorem setFromKey_spec (keySize : ℕ) (t : Tuple) (hfit : t.data.length ≤ keySize) :
    ∃ key, GenericKey.setFromKey keySize t = .ok key ∧
      ∀ a k, a + k ≤ t.data.length → readAt key.1 a k = readAt t.data a k := by
  refine ⟨⟨load (store (ofBytes (Buffer.zeros keySize).1) 0 t.data) 0 keySize, length_load ..⟩, ?_, ?_⟩
  · unfold GenericKey.setFromKey writeData Buffer.write
    rw [if_pos (by omega)]
  · intro a k hle
    rw [readAt_of_le hle, readAt_of_le (by rw [length_load]; omega)]
    refine congrArg some (load_congr ?_)
    intro j _ hj
    have hj' : j < t.data.length := by omega
    have hinside := store_inside (m := ofBytes (Buffer.zeros keySize).1) (a := 0) hj'
    rw [Nat.zero_add] at hinside
    rw [ofBytes_load (by omega), hinside]
    simp [ofBytes, hj']

end Encoded

/-! ## Rows and their keys -/

section Rows

variable {keySize : ℕ} {keyCols : List Column} {values : List Value} {key key' : GenericKey keySize}

/-- The key holds the values. -/
def Encodes (keyCols : List Column) (values : List Value) (key : GenericKey keySize) : Prop :=
  ∃ t, Tuple.ofValues values (.create keyCols) = .ok t ∧ GenericKey.setFromKey keySize t = .ok key

/-- The values are of the columns' types, and their tuple fits the array. -/
structure FitsKey (keySize : ℕ) (keyCols : List Column) (values : List Value) : Prop where
  typed : WellTyped keyCols values
  fits : encodedSize keyCols values ≤ keySize
  small : keySize < 2 ^ 31

theorem FitsKey.count (hf : FitsKey keySize keyCols values) :
    (Schema.create keyCols).getColumnCount.toNat = keyCols.length := by
  have hle := length_le_sum keyCols
  have htotal : (slotSizes keyCols).sum ≤ encodedSize keyCols values := Nat.le_add_right _ _
  have hfits := hf.fits
  have hsmall := hf.small
  unfold Schema.getColumnCount
  rw [length_create]
  exact UInt32.toNat_ofNat_of_lt' (show keyCols.length < 2 ^ 32 by omega)

/-- **Values of the columns' types have a key**, and it gives them back. -/
theorem FitsKey.encodes (hf : FitsKey keySize keyCols values) :
    ∃ t, Tuple.ofValues values (.create keyCols) = .ok t ∧ ∃ key, GenericKey.setFromKey keySize t = .ok key ∧
      ∀ i v, values[i]? = some v → key.toValue (.create keyCols) i = .ok v := by
  have hfits := hf.fits
  have hsmall := hf.small
  have hsize : encodedSize keyCols values < 2 ^ 31 := by omega
  obtain ⟨t, hof, hlen, hstored⟩ := ofValues_stored hf.typed hsize
  obtain ⟨key, hkey, hsame⟩ := setFromKey_spec keySize t (by omega)
  refine ⟨t, hof, key, hkey, ?_⟩
  intro i v hv
  obtain ⟨c, hc, htype⟩ := hf.typed.column_at hv
  have hcol := hstored i (List.getElem?_eq_some_iff.mp hc).1 c v hc hv
  exact toValue_stored hsize hc htype (hcol.of_prefix hsame)

theorem FitsKey.toValue_eq (hf : FitsKey keySize keyCols values) (he : Encodes keyCols values key) {i : ℕ} {v : Value}
    (hv : values[i]? = some v) : key.toValue (.create keyCols) i = .ok v := by
  obtain ⟨t, hof, key', hkey', hread⟩ := hf.encodes
  obtain ⟨t', hof', hkey⟩ := he
  rw [hof] at hof'
  cases hof'
  rw [hkey] at hkey'
  cases hkey'
  exact hread i v hv

theorem Encodes.unique (he : Encodes keyCols values key) (he' : Encodes keyCols values key') : key = key' := by
  obtain ⟨t, hof, hkey⟩ := he
  obtain ⟨t', hof', hkey'⟩ := he'
  rw [hof] at hof'
  cases hof'
  rw [hkey] at hkey'
  exact Except.ok.inj hkey'

end Rows

/-! ## Integer keys -/

section IntegerKeys

variable {keySize : ℕ} {keyCols : List Column} {values values' : List Value} {key key' : GenericKey keySize}

/-- The key columns are integers, and their tuple fits the array. -/
structure IntegerKey (keySize : ℕ) (keyCols : List Column) : Prop where
  integer : ∀ c ∈ keyCols, isInteger c.type = true
  fits : (slotSizes keyCols).sum ≤ keySize
  small : keySize < 2 ^ 31

theorem IntegerKey.encodedSize_eq (hk : IntegerKey keySize keyCols) (values : List Value) :
    encodedSize keyCols values = (slotSizes keyCols).sum := by
  have htails : ∀ n ∈ tailSizes keyCols values, n = 0 := by
    intro n hn
    obtain ⟨i, hi, rfl⟩ := List.mem_mapIdx.mp hn
    have hint := hk.integer _ (List.getElem_mem hi)
    have hin : keyCols[i].isInlined = true := by
      unfold Column.isInlined
      generalize keyCols[i].type = type at hint
      cases type <;> simp_all [isInteger]
    simp [payloadSize, hin]
  simp [encodedSize, List.sum_eq_zero htails]

theorem IntegerKey.fitsKey (hk : IntegerKey keySize keyCols) (hwt : WellTyped keyCols values) :
    FitsKey keySize keyCols values := by
  refine ⟨hwt, ?_, hk.small⟩
  rw [hk.encodedSize_eq]
  exact hk.fits

theorem IntegerKey.encodes (hk : IntegerKey keySize keyCols) (hwt : WellTyped keyCols values) :
    ∃ t, Tuple.ofValues values (.create keyCols) = .ok t ∧ ∃ key, GenericKey.setFromKey keySize t = .ok key ∧
      ∀ i v, values[i]? = some v → key.toValue (.create keyCols) i = .ok v :=
  (hk.fitsKey hwt).encodes

theorem IntegerKey.toValue_eq (hk : IntegerKey keySize keyCols) (hwt : WellTyped keyCols values)
    (he : Encodes keyCols values key) {i : ℕ} {v : Value} (hv : values[i]? = some v) :
    key.toValue (.create keyCols) i = .ok v :=
  (hk.fitsKey hwt).toValue_eq he hv

end IntegerKeys

/-! ## The comparator -/

section Comparator

variable {keySize : ℕ} {keyCols : List Column} {values values' : List Value} {key key' : GenericKey keySize}

/-- Values that can be looked up: of the columns' types, and no NULL. -/
structure KeyValues (keyCols : List Column) (values : List Value) : Prop where
  typed : WellTyped keyCols values
  notNull : ∀ v ∈ values, v.isNull = false

/-- The numbers of a key. -/
def numbers (values : List Value) : List Int := values.map Value.intValue

/-- The result of a comparison as the comparator gives it. -/
def signOf : Ordering → Int
  | .lt => -1
  | .eq => 0
  | .gt => 1

theorem IntegerKey.numbers_inj (hk : IntegerKey keySize keyCols) (hwt : WellTyped keyCols values)
    (hwt' : WellTyped keyCols values') (h : numbers values = numbers values') : values = values' := by
  apply List.ext_getElem
  · rw [hwt.length_eq, hwt'.length_eq]
  · intro i h1 h2
    obtain ⟨c, hc, htype⟩ := hwt.column_at (List.getElem?_eq_getElem h1)
    obtain ⟨c', hc', htype'⟩ := hwt'.column_at (List.getElem?_eq_getElem h2)
    rw [hc] at hc'
    cases hc'
    have hint := hk.integer c (List.mem_of_getElem? hc)
    have hnum := congrArg (fun l => l[i]?) h
    simp only [numbers, List.getElem?_map, List.getElem?_eq_getElem h1, List.getElem?_eq_getElem h2,
      Option.map_some, Option.some.injEq] at hnum
    exact intValue_inj (by rw [htype]; exact hint) (by rw [htype, htype']) hnum

/-- The loop, from column `i` on. -/
theorem compareColumns_eq (hk : IntegerKey keySize keyCols) (hv : KeyValues keyCols values)
    (hv' : KeyValues keyCols values') (he : Encodes keyCols values key) (he' : Encodes keyCols values' key') :
    ∀ k i, i + k = keyCols.length → compareColumns (.create keyCols) key key' (List.range' i k) =
      .ok (signOf (compare (numbers (values.drop i)) (numbers (values'.drop i))))
  | 0, i, hi => by
    have hlen := hv.typed.length_eq
    have hlen' := hv'.typed.length_eq
    rw [List.drop_eq_nil_of_le (by omega), List.drop_eq_nil_of_le (by omega)]
    rfl
  | k + 1, i, hi => by
    have hlen := hv.typed.length_eq
    have hlen' := hv'.typed.length_eq
    have hl : i < values.length := by omega
    have hr : i < values'.length := by omega
    obtain ⟨c, hc, htype⟩ := hv.typed.column_at (List.getElem?_eq_getElem hl)
    obtain ⟨c', hc', htype'⟩ := hv'.typed.column_at (List.getElem?_eq_getElem hr)
    rw [hc] at hc'
    cases hc'
    have hint : isInteger values[i].getTypeId = true := by
      rw [htype]
      exact hk.integer c (List.mem_of_getElem? hc)
    have hsame : values'[i].getTypeId = values[i].getTypeId := by rw [htype, htype']
    have hnull := hv.notNull _ (List.getElem_mem hl)
    have hnull' := hv'.notNull _ (List.getElem_mem hr)
    have hrec := compareColumns_eq hk hv hv' he he' k (i + 1) (by omega)
    rw [List.drop_eq_getElem_cons hl, List.drop_eq_getElem_cons hr]
    show _ = Except.ok (signOf (compare (_ :: numbers _) (_ :: numbers _)))
    rw [List.compare_cons_cons, List.range'_succ, compareColumns,
      hk.toValue_eq hv.typed he (List.getElem?_eq_getElem hl),
      hk.toValue_eq hv'.typed he' (List.getElem?_eq_getElem hr), ok_bind, ok_bind]
    unfold Value.compareLessThan Value.compareGreaterThan
    rw [compare_integer _ hint hsame hnull hnull', compare_integer _ hint hsame hnull hnull', ok_bind, ok_bind,
      hrec]
    unfold ComparisonType.onInt
    cases compare values[i].intValue values'[i].intValue <;> rfl

/-- **Without NULLs the comparator orders integer keys like their numbers**, column by column. -/
theorem genericComparator_eq (hk : IntegerKey keySize keyCols) (hv : KeyValues keyCols values)
    (hv' : KeyValues keyCols values') (he : Encodes keyCols values key) (he' : Encodes keyCols values' key') :
    genericComparator (.create keyCols) key key' = .ok (signOf (compare (numbers values) (numbers values'))) := by
  unfold genericComparator
  rw [(hk.fitsKey hv.typed).count, List.range_eq_range']
  exact compareColumns_eq hk hv hv' he he' keyCols.length 0 (by omega)

theorem compare_numbers_eq (hk : IntegerKey keySize keyCols) (hwt : WellTyped keyCols values)
    (hwt' : WellTyped keyCols values') : compare (numbers values) (numbers values') = .eq ↔ values = values' := by
  rw [Std.LawfulEqOrd.compare_eq_iff_eq]
  exact ⟨hk.numbers_inj hwt hwt', fun h => congrArg numbers h⟩

end Comparator

end Journey.Storage
