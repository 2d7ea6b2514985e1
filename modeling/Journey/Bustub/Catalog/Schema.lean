import Journey.Bustub.Type.Value
import Mathlib.Data.List.Induction

/-!
# Journey.Bustub.Catalog.Schema — columns and their offsets

`Schema` gives each column an offset in the fixed part of a tuple: an inlined column takes the size of
its type there, the others take the four bytes of a payload offset.

* `Schema.create`: the constructor, a pass over the columns with a running `uint32_t` offset.
* `create_columns`: column `i` begins where the columns before it end.
-/

namespace Journey.Catalog

open SqlType

/-! ## Columns -/

section Columns

/-- `Column::TypeSize`, cut to `uint8_t`; nothing where `UNREACHABLE` throws. -/
def typeSize (type : TypeId) (length : UInt32) : Option UInt8 :=
  match type with
  | .boolean | .tinyint => some 1
  | .smallint => some 2
  | .integer => some 4
  | .bigint | .decimal | .timestamp => some 8
  | .varchar => some length.toUInt8
  | .vector => some (length * 8).toUInt8
  | .invalid => none

/-- `Column`.  `length_` is what `TypeSize` answered when the column was built. -/
structure Column where
  name : String
  type : TypeId
  length : UInt32
  offset : UInt32
  sized : ∃ n, (typeSize type n).map UInt8.toUInt32 = some length

theorem boolean_fixed : TypeId.boolean ≠ .varchar ∧ TypeId.boolean ≠ .vector := by decide

theorem smallint_fixed : TypeId.smallint ≠ .varchar ∧ TypeId.smallint ≠ .vector := by decide

theorem integer_fixed : TypeId.integer ≠ .varchar ∧ TypeId.integer ≠ .vector := by decide

theorem decimal_fixed : TypeId.decimal ≠ .varchar ∧ TypeId.decimal ≠ .vector := by decide

theorem varchar_varlen : TypeId.varchar = .varchar ∨ TypeId.varchar = .vector := .inl rfl

theorem boolean_size : typeSize .boolean 0 = some 1 := rfl

theorem smallint_size : typeSize .smallint 0 = some 2 := rfl

theorem integer_size : typeSize .integer 0 = some 4 := rfl

theorem decimal_size : typeSize .decimal 0 = some 8 := rfl

namespace Column

/-- `Column(column_name, type)`. -/
def fixed (name : String) (type : TypeId) (size : UInt8) (_hassert : type ≠ .varchar ∧ type ≠ .vector)
    (h : typeSize type 0 = some size) : Column :=
  ⟨name, type, size.toUInt32, 0, 0, by rw [h]; rfl⟩

/-- `Column(column_name, type, length)`. -/
def varlen (name : String) (type : TypeId) (length : UInt32) (size : UInt8)
    (_hassert : type = .varchar ∨ type = .vector) (h : typeSize type length = some size) : Column :=
  ⟨name, type, size.toUInt32, 0, length, by rw [h]; rfl⟩

/-- `IsInlined`. -/
def isInlined (c : Column) : Bool := c.type != .varchar && c.type != .vector

/-- How many bytes of the fixed part the column takes. -/
def slotSize (c : Column) : UInt32 := if c.isInlined then c.length else 4

theorem type_ne_invalid (c : Column) : c.type ≠ .invalid := by
  intro heq
  obtain ⟨n, hn⟩ := c.sized
  rw [heq] at hn
  cases hn

end Column

end Columns

/-! ## Schemas -/

section Schemas

/-- `Schema`. -/
structure Schema where
  length : UInt32
  columns : List Column
  tupleIsInlined : Bool
  uninlinedColumns : List ℕ

namespace Schema

/-- One round of the constructor's loop; `length` is `curr_offset` until the loop ends. -/
def addColumn (s : Schema) (column : Column × ℕ) : Schema :=
  let s := if column.1.isInlined then s else
    { s with tupleIsInlined := false, uninlinedColumns := s.uninlinedColumns ++ [column.2] }
  { s with
    columns := s.columns ++ [{ column.1 with offset := s.length }]
    length := s.length + column.1.slotSize }

/-- `Schema(columns)`. -/
def create (columns : List Column) : Schema := columns.zipIdx.foldl addColumn ⟨0, [], true, []⟩

/-- `CopySchema`: the columns at the given positions; nothing if one is out of range. -/
def copySchema (s : Schema) (attrs : List ℕ) : Option Schema := do
  let cols ← attrs.mapM fun i => s.columns[i]?
  return create cols

/-- `GetColumnCount`. -/
def getColumnCount (s : Schema) : UInt32 := UInt32.ofNat s.columns.length

/-- `GetInlinedStorageSize`. -/
def getInlinedStorageSize (s : Schema) : UInt32 := s.length

/-- `GetUnlinedColumns`. -/
def getUnlinedColumns (s : Schema) : List ℕ := s.uninlinedColumns

end Schema

end Schemas

/-! ## What the constructor computes -/

section Spec

open Schema

/-- The sizes of the slots, in column order. -/
def slotSizes (cols : List Column) : List ℕ := cols.map fun c => c.slotSize.toNat

/-- The column with the offset the constructor gives it. -/
def placed (cols : List Column) (i : ℕ) (c : Column) : Column :=
  { c with offset := UInt32.ofNat (offsetOf (slotSizes cols) i) }

variable {cols : List Column} {c : Column} {i : ℕ}

theorem create_concat (cols : List Column) (c : Column) :
    create (cols ++ [c]) = addColumn (create cols) (c, cols.length) := by
  unfold create
  rw [List.zipIdx_append, List.foldl_append, Nat.zero_add]
  rfl

theorem addColumn_length (s : Schema) (col : Column × ℕ) :
    (addColumn s col).length = s.length + col.1.slotSize := by
  unfold addColumn
  split_ifs <;> rfl

theorem addColumn_columns (s : Schema) (col : Column × ℕ) :
    (addColumn s col).columns = s.columns ++ [{ col.1 with offset := s.length }] := by
  unfold addColumn
  split_ifs <;> rfl

theorem addColumn_uninlined (s : Schema) (col : Column × ℕ) :
    (addColumn s col).uninlinedColumns = s.uninlinedColumns ++ if col.1.isInlined then [] else [col.2] := by
  unfold addColumn
  split_ifs with h
  · exact (List.append_nil _).symm
  · rfl

theorem create_length (cols : List Column) :
    (create cols).length = UInt32.ofNat (slotSizes cols).sum := by
  induction cols using List.reverseRecOn with
  | nil => rfl
  | append_singleton cols c ih =>
    rw [create_concat, addColumn_length, ih]
    unfold slotSizes
    rw [List.map_append, List.sum_append, UInt32.ofNat_add, List.map_singleton, List.sum_singleton,
      UInt32.ofNat_toNat]

theorem placed_append (cols l : List Column) (h : i ≤ cols.length) (c : Column) :
    placed (cols ++ l) i c = placed cols i c := by
  unfold placed slotSizes
  rw [List.map_append, offsetOf_append_of_le (by rwa [List.length_map])]

/-- **Column `i` begins where the columns before it end**, modulo `2^32`. -/
theorem create_columns (cols : List Column) : (create cols).columns = cols.mapIdx (placed cols) := by
  induction cols using List.reverseRecOn with
  | nil => rfl
  | append_singleton cols c ih =>
    rw [create_concat, addColumn_columns, ih, List.mapIdx_concat, create_length]
    have hlast : placed (cols ++ [c]) cols.length c =
        { c with offset := UInt32.ofNat (slotSizes cols).sum } := by
      rw [placed_append _ _ (le_refl _)]
      unfold placed
      rw [← List.length_map, ← slotSizes, offsetOf_length]
    rw [hlast]
    congr 1
    refine List.ext_getElem? ?_
    intro i
    rw [List.getElem?_mapIdx, List.getElem?_mapIdx]
    by_cases hi : i < cols.length
    · rw [List.getElem?_eq_getElem hi, Option.map_some, Option.map_some, placed_append _ _ hi.le]
    · rw [List.getElem?_eq_none (by omega)]
      rfl

theorem getElem?_create (cols : List Column) (i : ℕ) :
    (create cols).columns[i]? = cols[i]?.map (placed cols i) := by
  rw [create_columns, List.getElem?_mapIdx]

theorem length_create (cols : List Column) : (create cols).columns.length = cols.length := by
  rw [create_columns, List.length_mapIdx]

/-- What does not depend on a column's offset is as it was. -/
theorem map_create {α : Type} {f : Column → α} (hf : ∀ c offset, f { c with offset := offset } = f c)
    (cols : List Column) : (create cols).columns.map f = cols.map f := by
  refine List.ext_getElem? ?_
  intro i
  rw [List.getElem?_map, List.getElem?_map, getElem?_create, Option.map_map]
  cases cols[i]? with
  | none => rfl
  | some c => exact congrArg some (hf c _)

theorem types_create (cols : List Column) : (create cols).columns.map Column.type = cols.map Column.type :=
  map_create (fun _ _ => rfl) cols

/-- The offsets that the schema had before do not matter. -/
theorem slotSizes_create (cols : List Column) : slotSizes (create cols).columns = slotSizes cols :=
  map_create (fun _ _ => rfl) cols

end Spec

end Journey.Catalog
