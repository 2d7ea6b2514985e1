import Journey.Bustub.Catalog.Schema
import Journey.Bustub.Storage.TablePage

/-!
# Journey.Bustub.Storage.TupleCodec — tuples of values

`Tuple(values, schema)` writes a fixed part, with the inlined values and the offsets of the others, and
behind it the payloads of the variable-length values, each with its length in front.

* `Tuple.ofValues`, `getDataPtr`, `getValue`, `keyFromTuple`, `serializeTo`, `deserializeFrom`: the
  member functions; an access outside of `data_` is a fault.
* `Stored`: column `i` is where the layout puts it.
* `serializeColumn_stored`: one round of the constructor's loop stores one more column.
* `tuple_codec`: the columns are read back, also through a key and through `SerializeTo`.
-/

namespace Journey.Storage

open SqlType Catalog

/-! ## The code -/

section Model

/-- `GetStorageSize`, with 0 for a null. -/
def storedLen (v : Value) : Except Fault UInt32 := do
  let len ← v.getStorageSize
  return if len = valueNull then 0 else len

/-- The loop that sizes the tuple: the length word and the bytes of column `i`. -/
def addTailSize (values : List Value) (tupleSize : UInt32) (i : ℕ) : Except Fault UInt32 :=
  match values[i]? with
  | none => .error .outOfBounds
  | some v => do
    let len ← storedLen v
    return tupleSize + (4 + len)

/-- A write into `data_`. -/
def writeData {n : ℕ} (data : Buffer n) (a : ℕ) (bs : List UInt8) : Except Fault (Buffer n) :=
  match data.write a bs with
  | some data => .ok data
  | none => .error .outOfBounds

/-- One round of the loop that serializes the attributes, on `data_` and `offset`. -/
def serializeColumn {n : ℕ} (values : List Value) (schema : Schema) (i : ℕ) (st : Buffer n × UInt32) :
    Except Fault (Buffer n × UInt32) :=
  match schema.columns[i]?, values[i]? with
  | some col, some v =>
    if !col.isInlined then do
      let data ← writeData st.1 col.offset.toNat (toLE 4 st.2.toNat)
      let bs ← v.serializeTo
      let data ← writeData data st.2.toNat bs
      let len ← storedLen v
      return (data, st.2 + (4 + len))
    else do
      let bs ← v.serializeTo
      let data ← writeData st.1 col.offset.toNat bs
      return (data, st.2)
  | _, _ => .error .outOfBounds

namespace Tuple

/-- `Tuple(values, schema)`. -/
def ofValues (values : List Value) (schema : Schema) : Except Fault Tuple := do
  if values.length ≠ schema.getColumnCount.toNat then throw .assertion
  let tupleSize ← schema.getUnlinedColumns.foldlM (addTailSize values) schema.getInlinedStorageSize
  let (data, _) ← forRange (serializeColumn values schema) schema.getColumnCount.toNat
    (Buffer.zeros tupleSize.toNat, schema.getInlinedStorageSize)
  return ⟨⟨invalidPageId, 0⟩, data.1, by rw [data.2]; exact tupleSize.toNat_lt⟩

/-- `GetDataPtr`, as an offset into `data_`. -/
def getDataPtr (t : Tuple) (schema : Schema) (columnIdx : ℕ) : Except Fault ℕ :=
  match schema.columns[columnIdx]? with
  | none => .error .outOfBounds
  | some col =>
    if col.isInlined then .ok col.offset.toNat
    else do
      let offset := (UInt32.ofNat (← Value.readWord t.data col.offset.toNat 4)).toInt32
      if offset < 0 then throw .outOfBounds
      return offset.toNatClampNeg

/-- `GetValue`. -/
def getValue (t : Tuple) (schema : Schema) (columnIdx : ℕ) : Except Fault Value :=
  match schema.columns[columnIdx]? with
  | none => .error .outOfBounds
  | some col => do
    let dataPtr ← t.getDataPtr schema columnIdx
    Value.deserializeFrom t.data dataPtr col.type

/-- `KeyFromTuple`. -/
def keyFromTuple (t : Tuple) (schema keySchema : Schema) (keyAttrs : List ℕ) : Except Fault Tuple := do
  let values ← keyAttrs.mapM fun idx => t.getValue schema idx
  ofValues values keySchema

/-- `SerializeTo`: the size as an `int32_t`, then as many bytes. -/
def serializeTo (t : Tuple) (m : Mem) (storage : ℕ) : Except Fault Mem :=
  let sz := Int32.ofNat t.data.length
  if sz < 0 then .error .outOfBounds
  else .ok (store (writeI32 m storage sz) (storage + 4) (t.data.take sz.toNatClampNeg))

/-- `DeserializeFrom`: the size as a `uint32_t`, then as many bytes. -/
def deserializeFrom (t : Tuple) (m : Mem) (storage : ℕ) : Tuple :=
  let size := UInt32.ofNat (readU m storage 4)
  { t with data := load m (storage + 4) size.toNat, length_lt := by rw [length_load]; exact size.toNat_lt }

end Tuple

end Model

/-! ## The layout -/

section Layout

/-- The bytes of a variable-length value. -/
def dataLen : Value → ℕ
  | .varchar data => (data.map fun d => d.1.length).getD 0
  | .vector data => (data.map fun d => d.1.length).getD 0
  | _ => 0

/-- What a column takes behind the fixed part. -/
def payloadSize (c : Column) (v : Option Value) : ℕ :=
  if c.isInlined then 0 else 4 + (v.map dataLen).getD 0

/-- The payload sizes, in column order. -/
def tailSizes (cols : List Column) (values : List Value) : List ℕ :=
  cols.mapIdx fun i c => payloadSize c values[i]?

/-- The size of the whole encoding. -/
def encodedSize (cols : List Column) (values : List Value) : ℕ :=
  (slotSizes cols).sum + (tailSizes cols values).sum

/-- Where the slot of column `i` begins. -/
def slotOffset (cols : List Column) (i : ℕ) : ℕ := offsetOf (slotSizes cols) i

/-- Where the payload of column `i` begins. -/
def payloadOffset (cols : List Column) (values : List Value) (i : ℕ) : ℕ :=
  (slotSizes cols).sum + offsetOf (tailSizes cols values) i

variable {cols : List Column} {values : List Value} {i j : ℕ} {c d : Column} {v w : Value}

theorem slotSize_pos (c : Column) : 0 < c.slotSize.toNat := by
  obtain ⟨n, hn⟩ := c.sized
  unfold Column.slotSize Column.isInlined
  cases htype : c.type with
  | varchar => exact (by decide : 0 < (4 : UInt32).toNat)
  | vector => exact (by decide : 0 < (4 : UInt32).toNat)
  | invalid => exact absurd htype c.type_ne_invalid
  | _ =>
    rw [htype] at hn
    rw [← Option.some.inj hn]
    decide

/-- A schema has no more columns than bytes. -/
theorem length_le_sum (cols : List Column) : cols.length ≤ (slotSizes cols).sum := by
  induction cols with
  | nil => exact le_refl _
  | cons c cols ih =>
    have hpos := slotSize_pos c
    have hsum : (slotSizes (c :: cols)).sum = c.slotSize.toNat + (slotSizes cols).sum := List.sum_cons
    rw [List.length_cons, hsum]
    omega

theorem getElem?_slotSizes (h : cols[i]? = some c) : (slotSizes cols)[i]? = some c.slotSize.toNat := by
  unfold slotSizes
  rw [List.getElem?_map, h, Option.map_some]

theorem getElem?_tailSizes (values : List Value) (h : cols[i]? = some c) :
    (tailSizes cols values)[i]? = some (payloadSize c values[i]?) := by
  unfold tailSizes
  rw [List.getElem?_mapIdx, h, Option.map_some]

theorem slot_end_le (h : cols[i]? = some c) :
    slotOffset cols i + c.slotSize.toNat ≤ (slotSizes cols).sum :=
  block_end_le (getElem?_slotSizes h)

theorem payload_end_le (values : List Value) (h : cols[i]? = some c) :
    payloadOffset cols values i + payloadSize c values[i]? ≤ encodedSize cols values := by
  have hle := block_end_le (getElem?_tailSizes values h)
  unfold payloadOffset encodedSize
  omega

theorem payloadOffset_succ (h : cols[i]? = some c) :
    payloadOffset cols values (i + 1) = payloadOffset cols values i + payloadSize c values[i]? := by
  unfold payloadOffset
  rw [offsetOf_succ (getElem?_tailSizes values h), Nat.add_assoc]

theorem slots_apart (hi : cols[i]? = some c) (hj : cols[j]? = some d) (hij : i ≠ j) :
    Apart (slotOffset cols i) c.slotSize.toNat (slotOffset cols j) d.slotSize.toNat :=
  blocks_apart (getElem?_slotSizes hi) (getElem?_slotSizes hj) hij

theorem payloads_apart (values : List Value) (hi : cols[i]? = some c) (hj : cols[j]? = some d) (hij : i ≠ j) :
    Apart (payloadOffset cols values i) (payloadSize c values[i]?) (payloadOffset cols values j)
      (payloadSize d values[j]?) := by
  have h := blocks_apart (getElem?_tailSizes values hi) (getElem?_tailSizes values hj) hij
  unfold Apart payloadOffset at *
  omega

theorem slot_payload_apart (values : List Value) (hi : cols[i]? = some c) (j n : ℕ) :
    Apart (slotOffset cols i) c.slotSize.toNat (payloadOffset cols values j) n := by
  have hle := slot_end_le hi
  unfold Apart payloadOffset
  omega

/-- The bytes of a value fill its slot, or its payload. -/
theorem length_serializeTo (hv : v.getTypeId = c.type) {bs : List UInt8} (h : v.serializeTo = .ok bs) :
    bs.length = if c.isInlined then c.slotSize.toNat else 4 + dataLen v := by
  obtain ⟨n, hn⟩ := c.sized
  unfold Column.slotSize Column.isInlined
  rw [← hv] at hn ⊢
  cases v with
  | invalid => cases h
  | varchar data =>
    cases h
    exact length_serializeVarlen data
  | vector data =>
    cases h
    exact length_serializeVarlen data
  | _ =>
    cases h
    have hlen := Option.some.inj hn
    rw [length_toLE, ← hlen]
    rfl

/-- The length of a value that is not inlined, as the code counts it. -/
theorem storedLen_eq (hv : v.getTypeId = c.type) (hc : c.isInlined = false) :
    storedLen v = .ok (UInt32.ofNat (dataLen v)) := by
  unfold Column.isInlined at hc
  rw [← hv] at hc
  have hvarlen : ∀ data : Option Varlen, (if Value.varlenLen data = valueNull then 0 else
      Value.varlenLen data) = UInt32.ofNat ((data.map fun d => d.1.length).getD 0) := by
    intro data
    cases data with
    | none => rfl
    | some data => exact if_neg (varlenLen_ne_null data)
  cases v with
  | varchar data => exact congrArg Except.ok (hvarlen data)
  | vector data => exact congrArg Except.ok (hvarlen data)
  | _ => cases hc

theorem slotSizes_append (l r : List Column) : slotSizes (l ++ r) = slotSizes l ++ slotSizes r :=
  List.map_append

/-- The payloads of columns side by side. -/
theorem tailSizes_append {l r : List Column} {lv : List Value} (h : lv.length = l.length) (rv : List Value) :
    tailSizes (l ++ r) (lv ++ rv) = tailSizes l lv ++ tailSizes r rv := by
  unfold tailSizes
  rw [List.mapIdx_append]
  congr 1
  · refine List.ext_getElem? ?_
    intro i
    rw [List.getElem?_mapIdx, List.getElem?_mapIdx]
    by_cases hi : i < l.length
    · rw [List.getElem?_append_left (by omega)]
    · have hnone : l[i]? = none := List.getElem?_eq_none (by omega)
      rw [hnone]
      rfl
  · refine List.ext_getElem? ?_
    intro i
    rw [List.getElem?_mapIdx, List.getElem?_mapIdx, List.getElem?_append_right (by omega),
      show i + l.length - lv.length = i by omega]

theorem encodedSize_append {l r : List Column} {lv : List Value} (h : lv.length = l.length) (rv : List Value) :
    encodedSize (l ++ r) (lv ++ rv) = encodedSize l lv + encodedSize r rv := by
  unfold encodedSize
  rw [slotSizes_append, tailSizes_append h, List.sum_append, List.sum_append]
  omega

end Layout

/-! ## The constructor -/

section Constructor

/-- The values have the types of the columns. -/
def WellTyped (cols : List Column) (values : List Value) : Prop :=
  values.map Value.getTypeId = cols.map Column.type

/-- Column `i` is where the layout puts it: its bytes in the slot, or in the payload that the slot
points to. -/
def Stored (cols : List Column) (values : List Value) (bytes : List UInt8) (i : ℕ) (c : Column)
    (v : Value) : Prop :=
  ∃ bs, v.serializeTo = .ok bs ∧
    if c.isInlined then readAt bytes (slotOffset cols i) bs.length = some bs
    else readAt bytes (slotOffset cols i) 4 = some (toLE 4 (payloadOffset cols values i)) ∧
      readAt bytes (payloadOffset cols values i) bs.length = some bs

variable {cols : List Column} {values : List Value} {i j n : ℕ} {c d : Column} {v w : Value}

theorem WellTyped.length_eq (h : WellTyped cols values) : values.length = cols.length := by
  have hlen := congrArg List.length h
  rwa [List.length_map, List.length_map] at hlen

theorem WellTyped.value_at (h : WellTyped cols values) (hc : cols[i]? = some c) :
    ∃ v, values[i]? = some v ∧ v.getTypeId = c.type := by
  have hi := congrArg (fun l => l[i]?) h
  rw [List.getElem?_map, List.getElem?_map, hc] at hi
  exact Option.map_eq_some_iff.mp hi

theorem WellTyped.column_at (h : WellTyped cols values) (hv : values[i]? = some v) :
    ∃ c, cols[i]? = some c ∧ v.getTypeId = c.type := by
  have hi := congrArg (fun l => l[i]?) h
  rw [List.getElem?_map, List.getElem?_map, hv] at hi
  obtain ⟨c, hc, heq⟩ := Option.map_eq_some_iff.mp hi.symm
  exact ⟨c, hc, heq.symm⟩

/-- **The size of the tuple.** -/
theorem tupleSize_eq
    (h : ∀ (i : ℕ) (c : Column), cols[i]? = some c → ∃ v, values[i]? = some v ∧ v.getTypeId = c.type)
    (start : UInt32) :
    (Schema.create cols).getUnlinedColumns.foldlM (addTailSize values) start =
      .ok (start + UInt32.ofNat (tailSizes cols values).sum) := by
  unfold Schema.getUnlinedColumns
  induction cols using List.reverseRecOn with
  | nil => exact congrArg Except.ok (by simp [tailSizes])
  | append_singleton cols c ih =>
    have hprev : ∀ (i : ℕ) (c' : Column), cols[i]? = some c' →
        ∃ v, values[i]? = some v ∧ v.getTypeId = c'.type := by
      intro i c' hc'
      refine h i c' ?_
      rw [List.getElem?_append_left (List.getElem?_eq_some_iff.mp hc').1, hc']
    obtain ⟨v, hv, htype⟩ := h cols.length c List.getElem?_concat_length
    have hsizes : tailSizes (cols ++ [c]) values = tailSizes cols values ++ [payloadSize c (some v)] := by
      unfold tailSizes
      rw [List.mapIdx_concat, hv]
    rw [create_concat, addColumn_uninlined, List.foldlM_append, ih hprev, ok_bind, hsizes, List.sum_append,
      List.sum_singleton, UInt32.ofNat_add]
    cases hin : c.isInlined with
    | true =>
      simp [payloadSize, hin]
      rfl
    | false =>
      simp [payloadSize, hin, addTailSize, hv, storedLen_eq htype hin, UInt32.add_assoc]

theorem writeData_spec (data : Buffer n) {a : ℕ} (bs : List UInt8) (h : a + bs.length ≤ n) :
    ∃ data', writeData data a bs = .ok data' ∧ readAt data'.1 a bs.length = some bs ∧
      ∀ b k, Apart a bs.length b k → readAt data'.1 b k = readAt data.1 b k := by
  obtain ⟨data', hwrite, hspec⟩ := data.write_spec h
  refine ⟨data', ?_, hspec⟩
  unfold writeData
  rw [hwrite]

/-- What is stored depends on the slot and on the payload of the column only. -/
theorem Stored.frame {bytes bytes' : List UInt8} (hv : values[i]? = some v) (htype : v.getTypeId = c.type)
    (hslot : readAt bytes' (slotOffset cols i) c.slotSize.toNat =
      readAt bytes (slotOffset cols i) c.slotSize.toNat)
    (hpayload : readAt bytes' (payloadOffset cols values i) (payloadSize c values[i]?) =
      readAt bytes (payloadOffset cols values i) (payloadSize c values[i]?))
    (h : Stored cols values bytes i c v) : Stored cols values bytes' i c v := by
  obtain ⟨bs, hbs, hread⟩ := h
  have hlen := length_serializeTo htype hbs
  refine ⟨bs, hbs, ?_⟩
  cases hin : c.isInlined with
  | true =>
    rw [hin, if_pos rfl] at hlen hread
    rw [if_pos rfl, hlen, hslot, ← hlen]
    exact hread
  | false =>
    rw [hin, if_neg Bool.false_ne_true] at hlen hread
    have hfour : c.slotSize.toNat = 4 := by
      unfold Column.slotSize
      rw [hin]
      rfl
    have hpay : payloadSize c values[i]? = bs.length := by
      unfold payloadSize
      rw [hin, hv, hlen]
      rfl
    rw [hfour] at hslot
    rw [hpay] at hpayload
    rw [if_neg Bool.false_ne_true, hslot, hpayload]
    exact hread

/-- The columns before `i` are stored. -/
def StoredUpTo (cols : List Column) (values : List Value) (bytes : List UInt8) (i : ℕ) : Prop :=
  ∀ j < i, ∀ d w, cols[j]? = some d → values[j]? = some w → Stored cols values bytes j d w

/-- **One round of the loop** stores one more column. -/
theorem serializeColumn_stored (hwt : WellTyped cols values) (hsize : encodedSize cols values < 2 ^ 31)
    (hn : encodedSize cols values ≤ n) (hc : cols[i]? = some c) (data : Buffer n)
    (hprev : StoredUpTo cols values data.1 i) :
    ∃ data' : Buffer n,
      serializeColumn values (.create cols) i (data, UInt32.ofNat (payloadOffset cols values i)) =
        .ok (data', UInt32.ofNat (payloadOffset cols values (i + 1))) ∧
      StoredUpTo cols values data'.1 (i + 1) := by
  obtain ⟨v, hv, htype⟩ := hwt.value_at hc
  obtain ⟨bs, hbs, -⟩ := deserializeFrom_serializeTo v (by rw [htype]; exact c.type_ne_invalid)
  have hlen := length_serializeTo htype hbs
  have hslotEnd := slot_end_le hc
  have hpayEnd := payload_end_le values hc
  have htotal : (slotSizes cols).sum ≤ encodedSize cols values := Nat.le_add_right _ _
  have hoff : (placed cols i c).offset.toNat = slotOffset cols i :=
    UInt32.toNat_ofNat_of_lt' (show slotOffset cols i < 2 ^ 32 by omega)
  have hpoff : (UInt32.ofNat (payloadOffset cols values i)).toNat = payloadOffset cols values i :=
    UInt32.toNat_ofNat_of_lt' (show payloadOffset cols values i < 2 ^ 32 by omega)
  -- once column `i` is stored and every block apart from it is kept, the others are stored too
  have hrest : ∀ data' : Buffer n, Stored cols values data'.1 i c v →
      (∀ j d, j ≠ i → cols[j]? = some d →
        readAt data'.1 (slotOffset cols j) d.slotSize.toNat =
          readAt data.1 (slotOffset cols j) d.slotSize.toNat ∧
        readAt data'.1 (payloadOffset cols values j) (payloadSize d values[j]?) =
          readAt data.1 (payloadOffset cols values j) (payloadSize d values[j]?)) →
      StoredUpTo cols values data'.1 (i + 1) := by
    intro data' hself hkeep j hj d w hd hw
    by_cases hji : j = i
    · subst hji
      rw [hc] at hd
      rw [hv] at hw
      cases hd
      cases hw
      exact hself
    · obtain ⟨hslot, hpay⟩ := hkeep j d hji hd
      obtain ⟨w', hw', htype'⟩ := hwt.value_at hd
      rw [hw] at hw'
      cases hw'
      exact (hprev j (by omega) d w hd hw).frame hw htype' hslot hpay
  unfold serializeColumn
  rw [getElem?_create, hc, hv, payloadOffset_succ hc, hv]
  dsimp only [Option.map_some]
  cases hin : c.isInlined with
  | true =>
    rw [hin, if_pos rfl] at hlen
    obtain ⟨data', hwrite, hread, hframe⟩ := writeData_spec data bs
      (show slotOffset cols i + bs.length ≤ n by omega)
    have hinlined : (placed cols i c).isInlined = true := hin
    have hnone : payloadSize c (some v) = 0 := by
      unfold payloadSize
      rw [hin]
      rfl
    rw [hinlined, Bool.not_true, if_neg Bool.false_ne_true, hbs, ok_bind, hoff, hwrite, ok_bind, hnone]
    refine ⟨data', rfl, hrest data' ⟨bs, hbs, by rw [hin, if_pos rfl]; exact hread⟩ ?_⟩
    intro j d hji hd
    rw [hlen] at hframe
    exact ⟨hframe _ _ (slots_apart hc hd hji.symm), hframe _ _ (slot_payload_apart values hc _ _)⟩
  | false =>
    rw [hin, if_neg Bool.false_ne_true] at hlen
    have hfour : c.slotSize.toNat = 4 := by
      unfold Column.slotSize
      rw [hin]
      rfl
    have hpay : payloadSize c (some v) = bs.length := by
      unfold payloadSize
      rw [hin, hlen]
      rfl
    rw [hv, hpay] at hpayEnd
    obtain ⟨data1, hwrite1, hread1, hframe1⟩ := writeData_spec data
      (toLE 4 (payloadOffset cols values i))
      (show slotOffset cols i + _ ≤ n by rw [length_toLE]; omega)
    obtain ⟨data2, hwrite2, hread2, hframe2⟩ := writeData_spec data1 bs
      (show payloadOffset cols values i + bs.length ≤ n by omega)
    rw [length_toLE] at hread1 hframe1
    have huninlined : (placed cols i c).isInlined = false := hin
    have hslotPay := slot_payload_apart values hc i bs.length
    rw [huninlined, Bool.not_false, if_pos rfl, hoff, hpoff, hwrite1, ok_bind, hbs, ok_bind, hwrite2, ok_bind,
      storedLen_eq htype hin, ok_bind, hpay, hlen, UInt32.ofNat_add, UInt32.ofNat_add]
    refine ⟨data2, rfl, hrest data2 ⟨bs, hbs, ?_⟩ ?_⟩
    · rw [hin, if_neg Bool.false_ne_true, hframe2 _ _ (hfour ▸ hslotPay).symm]
      exact ⟨hread1, hread2⟩
    · intro j d hji hd
      have hpays := payloads_apart values hc hd hji.symm
      rw [hv, hpay] at hpays
      constructor
      · rw [hframe2 _ _ (slot_payload_apart values hd _ _).symm]
        exact hframe1 _ _ (hfour ▸ slots_apart hc hd hji.symm)
      · rw [hframe2 _ _ hpays]
        exact hframe1 _ _ (hfour ▸ slot_payload_apart values hc _ _)

/-- **The constructor** sizes the buffer exactly and stores every column. -/
theorem ofValues_stored (hwt : WellTyped cols values) (hsize : encodedSize cols values < 2 ^ 31) :
    ∃ t, Tuple.ofValues values (.create cols) = .ok t ∧ t.data.length = encodedSize cols values ∧
      StoredUpTo cols values t.data cols.length := by
  have hcols := length_le_sum cols
  have htotal : (slotSizes cols).sum ≤ encodedSize cols values := Nat.le_add_right _ _
  have hcount : (Schema.create cols).getColumnCount.toNat = cols.length := by
    unfold Schema.getColumnCount
    rw [length_create]
    exact UInt32.toNat_ofNat_of_lt' (show cols.length < 2 ^ 32 by omega)
  have hstart : (Schema.create cols).getInlinedStorageSize = UInt32.ofNat (payloadOffset cols values 0) :=
    create_length cols
  have htuple : (UInt32.ofNat (payloadOffset cols values 0) +
      UInt32.ofNat (tailSizes cols values).sum).toNat = encodedSize cols values := by
    rw [← UInt32.ofNat_add]
    exact UInt32.toNat_ofNat_of_lt' (show encodedSize cols values < 2 ^ 32 by omega)
  obtain ⟨st, hloop, -, hstored⟩ := forRange_ok
    (serializeColumn values (.create cols))
    (fun i st => st.2 = UInt32.ofNat (payloadOffset cols values i) ∧ StoredUpTo cols values st.1.1 i)
    cols.length
    (Buffer.zeros (UInt32.ofNat (payloadOffset cols values 0) +
      UInt32.ofNat (tailSizes cols values).sum).toNat, UInt32.ofNat (payloadOffset cols values 0))
    ⟨rfl, fun j hj => absurd hj (Nat.not_lt_zero j)⟩ (by
      rintro i hi ⟨data, offset⟩ ⟨rfl, hprev⟩
      obtain ⟨data', hstep, hnext⟩ := serializeColumn_stored hwt hsize htuple.ge
        (List.getElem?_eq_getElem hi) data hprev
      exact ⟨_, hstep, rfl, hnext⟩)
  have hassert : ¬ values.length ≠ (Schema.create cols).getColumnCount.toNat := by
    rw [hcount, hwt.length_eq]
    exact not_not.mpr rfl
  refine ⟨⟨⟨invalidPageId, 0⟩, st.1.1, by rw [st.1.2]; exact UInt32.toNat_lt _⟩, ?_, ?_, hstored⟩
  · unfold Tuple.ofValues
    rw [if_neg hassert, hcount, hstart, tupleSize_eq fun i c hc => hwt.value_at hc]
    simp only [ok_bind]
    rw [hloop]
    rfl
  · rw [st.1.2, htuple]

end Constructor

/-! ## Reading back -/

section Reading

variable {cols : List Column} {values : List Value} {i : ℕ} {c : Column} {v : Value} {t : Tuple}

theorem offset_placed (hsize : encodedSize cols values < 2 ^ 31) (hc : cols[i]? = some c) :
    (placed cols i c).offset.toNat = slotOffset cols i := by
  have hslotEnd := slot_end_le hc
  have htotal : (slotSizes cols).sum ≤ encodedSize cols values := Nat.le_add_right _ _
  exact UInt32.toNat_ofNat_of_lt' (show slotOffset cols i < 2 ^ 32 by omega)

/-- The slot of a column that is not inlined points to its payload. -/
theorem readWord_slot {bytes : List UInt8} (hsize : encodedSize cols values < 2 ^ 31) (hc : cols[i]? = some c)
    (hin : c.isInlined = false) (h : Stored cols values bytes i c v) :
    Value.readWord bytes (placed cols i c).offset.toNat 4 = .ok (payloadOffset cols values i) := by
  obtain ⟨bs, -, hread⟩ := h
  have hpayEnd := payload_end_le values hc
  rw [hin, if_neg Bool.false_ne_true] at hread
  rw [offset_placed hsize hc]
  exact readWord_toLE (show payloadOffset cols values i < 256 ^ 4 by omega) hread.1

/-- Where the bytes of a stored column begin. -/
theorem getDataPtr_eq (hsize : encodedSize cols values < 2 ^ 31) (hc : cols[i]? = some c)
    (h : Stored cols values t.data i c v) :
    t.getDataPtr (.create cols) i =
      .ok (if c.isInlined then slotOffset cols i else payloadOffset cols values i) := by
  have hpayEnd := payload_end_le values hc
  unfold Tuple.getDataPtr
  rw [getElem?_create, hc]
  dsimp only [Option.map_some]
  cases hin : c.isInlined with
  | true =>
    have hinlined : (placed cols i c).isInlined = true := hin
    rw [hinlined, if_pos rfl, if_pos rfl, offset_placed hsize hc]
  | false =>
    have huninlined : (placed cols i c).isInlined = false := hin
    rw [huninlined, if_neg Bool.false_ne_true, if_neg Bool.false_ne_true, readWord_slot hsize hc hin h,
      ok_bind, UInt32.toInt32_ofNat', Int32.toNatClampNeg_ofNat_of_lt (by omega),
      if_neg (int32_ofNat_not_neg (by omega))]
    rfl

theorem getValue_eq (hsize : encodedSize cols values < 2 ^ 31) (hc : cols[i]? = some c)
    (htype : v.getTypeId = c.type) (h : Stored cols values t.data i c v) :
    t.getValue (.create cols) i = .ok v := by
  have hptr := getDataPtr_eq hsize hc h
  obtain ⟨bs, hbs, hread⟩ := h
  obtain ⟨bs', hbs', hback⟩ := deserializeFrom_serializeTo v (by rw [htype]; exact c.type_ne_invalid)
  rw [hbs] at hbs'
  cases hbs'
  unfold Tuple.getValue
  rw [getElem?_create, hc]
  dsimp only [Option.map_some]
  rw [hptr, ok_bind]
  show Value.deserializeFrom t.data _ c.type = _
  rw [← htype]
  refine hback _ _ ?_
  cases hin : c.isInlined with
  | true =>
    rw [hin] at hread
    exact hread
  | false =>
    rw [hin] at hread
    exact hread.2

theorem getValue_stored (hwt : WellTyped cols values) (hsize : encodedSize cols values < 2 ^ 31)
    (h : StoredUpTo cols values t.data cols.length) (hv : values[i]? = some v) :
    t.getValue (.create cols) i = .ok v := by
  obtain ⟨c, hc, htype⟩ := hwt.column_at hv
  exact getValue_eq hsize hc htype (h i (List.getElem?_eq_some_iff.mp hc).1 c v hc hv)

/-- Every value that the constructor stores is read back. -/
theorem ofValues_getValue (hwt : WellTyped cols values) (hsize : encodedSize cols values < 2 ^ 31) :
    ∃ t, Tuple.ofValues values (.create cols) = .ok t ∧
      ∀ i v, values[i]? = some v → t.getValue (.create cols) i = .ok v := by
  obtain ⟨t, hof, -, hstored⟩ := ofValues_stored hwt hsize
  exact ⟨t, hof, fun i v hv => getValue_stored hwt hsize hstored hv⟩

/-- The values of a column have its type. -/
theorem getTypeId_getValue {schema : Schema} (hc : schema.columns[i]? = some c)
    (h : t.getValue schema i = .ok v) : v.getTypeId = c.type := by
  unfold Tuple.getValue at h
  rw [hc] at h
  obtain ⟨dataPtr, -, hv⟩ := bind_eq_ok.mp h
  exact getTypeId_deserializeFrom hv

end Reading

/-! ## Regions of the buffer -/

section Regions

/-- A slot of the fixed part, or the payload of a column that is not inlined. -/
inductive Region
  | slot (i : ℕ)
  | payload (i : ℕ)
deriving DecidableEq

/-- The offset and the size of the slot of column `i`. -/
def slotBlock (schema : Schema) (i : ℕ) : Option (ℕ × ℕ) :=
  schema.columns[i]?.map fun c => (c.offset.toNat, c.slotSize.toNat)

/-- The offset and the size of the payload of column `i`; it begins where the tuple says it does. -/
def payloadBlock (schema : Schema) (values : List Value) (t : Tuple) (i : ℕ) : Option (ℕ × ℕ) :=
  match schema.columns[i]?, values[i]?, t.getDataPtr schema i with
  | some c, some v, .ok p => if c.isInlined then none else some (p, 4 + dataLen v)
  | _, _, _ => none

/-- The offset and the size of a region. -/
def Region.block (schema : Schema) (values : List Value) (t : Tuple) : Region → Option (ℕ × ℕ)
  | .slot i => slotBlock schema i
  | .payload i => payloadBlock schema values t i

/-- Every column has its slot and, if it is not inlined, its payload; all of them lie inside the buffer
and no two share a byte. -/
structure RegionsApart (schema : Schema) (values : List Value) (t : Tuple) : Prop where
  slot : ∀ i c, schema.columns[i]? = some c → (slotBlock schema i).isSome
  payload : ∀ i c, schema.columns[i]? = some c → c.isInlined = false →
    (payloadBlock schema values t i).isSome
  inside : ∀ (r : Region) a n, r.block schema values t = some (a, n) → a + n ≤ t.data.length
  apart : ∀ (r s : Region) a n b k, r ≠ s → r.block schema values t = some (a, n) →
    s.block schema values t = some (b, k) → Apart a n b k

variable {cols : List Column} {values : List Value} {i : ℕ} {c : Column} {v : Value} {t : Tuple}

theorem slot_block (hsize : encodedSize cols values < 2 ^ 31) (hc : cols[i]? = some c) :
    slotBlock (.create cols) i = some (slotOffset cols i, c.slotSize.toNat) := by
  have hslotEnd := slot_end_le hc
  have htotal : (slotSizes cols).sum ≤ encodedSize cols values := Nat.le_add_right _ _
  have hoff : (placed cols i c).offset.toNat = slotOffset cols i :=
    UInt32.toNat_ofNat_of_lt' (show slotOffset cols i < 2 ^ 32 by omega)
  unfold slotBlock
  rw [getElem?_create, hc, Option.map_some, Option.map_some, hoff]
  rfl

theorem payload_block (hsize : encodedSize cols values < 2 ^ 31) (hc : cols[i]? = some c)
    (hv : values[i]? = some v) (h : Stored cols values t.data i c v) (hin : c.isInlined = false) :
    payloadBlock (.create cols) values t i =
      some (payloadOffset cols values i, payloadSize c values[i]?) := by
  have hptr := getDataPtr_eq hsize hc h
  rw [hin, if_neg Bool.false_ne_true] at hptr
  have huninlined : (placed cols i c).isInlined = false := hin
  unfold payloadBlock payloadSize
  rw [getElem?_create, hc, hv, hptr, hin]
  dsimp only [Option.map_some]
  rw [huninlined]
  rfl

/-- **The regions of a stored tuple** are those of the layout. -/
theorem block_cases (hwt : WellTyped cols values) (hsize : encodedSize cols values < 2 ^ 31)
    (h : StoredUpTo cols values t.data cols.length) {r : Region} {a n : ℕ}
    (hr : r.block (.create cols) values t = some (a, n)) :
    (∃ i c, cols[i]? = some c ∧ r = .slot i ∧ a = slotOffset cols i ∧ n = c.slotSize.toNat) ∨
    ∃ i c, cols[i]? = some c ∧ r = .payload i ∧ a = payloadOffset cols values i ∧
      n = payloadSize c values[i]? := by
  cases r with
  | slot i =>
    replace hr : slotBlock (.create cols) i = some (a, n) := hr
    cases hc : cols[i]? with
    | none =>
      unfold slotBlock at hr
      rw [getElem?_create, hc] at hr
      cases hr
    | some c =>
      rw [slot_block hsize hc] at hr
      cases hr
      exact .inl ⟨i, c, hc, rfl, rfl, rfl⟩
  | payload i =>
    replace hr : payloadBlock (.create cols) values t i = some (a, n) := hr
    cases hc : cols[i]? with
    | none =>
      unfold payloadBlock at hr
      rw [getElem?_create, hc] at hr
      cases hr
    | some c =>
      obtain ⟨v, hv, htype⟩ := hwt.value_at hc
      have hi := (List.getElem?_eq_some_iff.mp hc).1
      cases hin : c.isInlined with
      | true =>
        have hinlined : (placed cols i c).isInlined = true := hin
        unfold payloadBlock at hr
        rw [getElem?_create, hc, hv, getDataPtr_eq hsize hc (h i hi c v hc hv)] at hr
        dsimp only [Option.map_some] at hr
        rw [hinlined, if_pos rfl] at hr
        cases hr
      | false =>
        rw [payload_block hsize hc hv (h i hi c v hc hv) hin] at hr
        cases hr
        exact .inr ⟨i, c, hc, rfl, rfl, rfl⟩

/-- **Slots and payloads do not overlap.** -/
theorem regionsApart (hwt : WellTyped cols values) (hsize : encodedSize cols values < 2 ^ 31)
    (hlen : t.data.length = encodedSize cols values) (h : StoredUpTo cols values t.data cols.length) :
    RegionsApart (.create cols) values t := by
  refine ⟨?_, ?_, ?_, ?_⟩
  · intro i c' hc'
    rw [getElem?_create] at hc'
    obtain ⟨c, hc, -⟩ := Option.map_eq_some_iff.mp hc'
    rw [slot_block hsize hc]
    rfl
  · intro i c' hc' hin
    rw [getElem?_create] at hc'
    obtain ⟨c, hc, rfl⟩ := Option.map_eq_some_iff.mp hc'
    obtain ⟨v, hv, -⟩ := hwt.value_at hc
    rw [payload_block hsize hc hv (h i (List.getElem?_eq_some_iff.mp hc).1 c v hc hv) hin]
    rfl
  · intro r a n hr
    rw [hlen]
    rcases block_cases hwt hsize h hr with ⟨i, c, hc, rfl, rfl, rfl⟩ | ⟨i, c, hc, rfl, rfl, rfl⟩
    · exact (slot_end_le hc).trans (Nat.le_add_right _ _)
    · exact payload_end_le values hc
  · intro r s a n b k hrs hr hs
    rcases block_cases hwt hsize h hr with ⟨i, c, hc, rfl, rfl, rfl⟩ | ⟨i, c, hc, rfl, rfl, rfl⟩
    · rcases block_cases hwt hsize h hs with ⟨j, d, hd, rfl, rfl, rfl⟩ | ⟨j, d, hd, rfl, rfl, rfl⟩
      · exact slots_apart hc hd fun hij => hrs (congrArg Region.slot hij)
      · exact slot_payload_apart values hc _ _
    · rcases block_cases hwt hsize h hs with ⟨j, d, hd, rfl, rfl, rfl⟩ | ⟨j, d, hd, rfl, rfl, rfl⟩
      · exact (slot_payload_apart values hd _ _).symm
      · exact payloads_apart values hc hd fun hij => hrs (congrArg Region.payload hij)

end Regions

/-! ## Keys -/

section Keys

variable {cols keyCols : List Column} {values keyValues : List Value} {keyAttrs : List ℕ}

theorem eq_map_of_getElem? {α β : Type} {g : α → β} {l : List β} {ks : List α}
    (hlen : l.length = ks.length) (h : ∀ (j : ℕ) (k : α), ks[j]? = some k → l[j]? = some (g k)) :
    l = ks.map g := by
  refine List.ext_getElem? ?_
  intro j
  rw [List.getElem?_map]
  cases hj : ks[j]? with
  | none => exact List.getElem?_eq_none (hlen ▸ List.getElem?_eq_none_iff.mp hj)
  | some k => exact h j k hj

/-- The values at the given positions. -/
def selected (values : List Value) (keyAttrs : List ℕ) : List Value :=
  keyAttrs.map fun k => values[k]?.getD .invalid

/-- The columns of a copied schema, up to their offsets. -/
theorem copySchema_columns {keySchema : Schema}
    (h : (Schema.create cols).copySchema keyAttrs = some keySchema) :
    ∃ keyCols, keySchema = .create keyCols ∧
      keyAttrs.map (fun k => cols[k]?.map (placed cols k)) = keyCols.map some := by
  unfold Schema.copySchema at h
  simp only [Option.bind_eq_bind, Option.bind_eq_some_iff, Option.pure_def, Option.some.injEq] at h
  obtain ⟨keyCols, hmap, rfl⟩ := h
  refine ⟨keyCols, rfl, ?_⟩
  rw [← map_of_mapM_eq_some hmap]
  exact List.map_congr_left fun k _ => (getElem?_create cols k).symm

theorem encodedSize_create (cols : List Column) (values : List Value) :
    encodedSize (Schema.create cols).columns values = encodedSize cols values := by
  have htails : tailSizes (Schema.create cols).columns values = tailSizes cols values := by
    refine List.ext_getElem? ?_
    intro i
    unfold tailSizes
    rw [List.getElem?_mapIdx, List.getElem?_mapIdx, getElem?_create, Option.map_map]
    rfl
  unfold encodedSize
  rw [slotSizes_create, htails]

variable (hkey : keyAttrs.map (fun k => cols[k]?.map (placed cols k)) = keyCols.map some)

include hkey

theorem key_column {j k : ℕ} (hj : keyAttrs[j]? = some k) :
    ∃ c, cols[k]? = some c ∧ keyCols[j]? = some (placed cols k c) := by
  have hat := congrArg (fun l => l[j]?) hkey
  rw [List.getElem?_map, hj, List.getElem?_map, Option.map_some] at hat
  obtain ⟨c', hc', heq⟩ := Option.map_eq_some_iff.mp hat.symm
  obtain ⟨c, hc, rfl⟩ := Option.map_eq_some_iff.mp heq.symm
  exact ⟨c, hc, hc'⟩

theorem length_keyCols : keyCols.length = keyAttrs.length := by
  have hlen := congrArg List.length hkey
  rw [List.length_map, List.length_map] at hlen
  exact hlen.symm

theorem selected_getElem? (hwt : WellTyped cols values) {j k : ℕ} (hj : keyAttrs[j]? = some k) :
    (selected values keyAttrs)[j]? = values[k]? := by
  obtain ⟨c, hc, -⟩ := key_column hkey hj
  obtain ⟨v, hv, -⟩ := hwt.value_at hc
  unfold selected
  rw [List.getElem?_map, hj, Option.map_some, hv, Option.getD_some]

theorem selected_wellTyped (hwt : WellTyped cols values) :
    WellTyped keyCols (selected values keyAttrs) := by
  unfold WellTyped selected
  rw [List.map_map]
  symm
  refine eq_map_of_getElem? (by rw [List.length_map, length_keyCols hkey]) ?_
  intro j k hj
  obtain ⟨c, hc, hkc⟩ := key_column hkey hj
  obtain ⟨v, hv, htype⟩ := hwt.value_at hc
  rw [List.getElem?_map, hkc, Option.map_some, Function.comp_apply, hv, Option.getD_some, htype]
  rfl

/-- A key of distinct columns is no longer than the tuple. -/
theorem key_encodedSize_le (hwt : WellTyped cols values) (hnodup : keyAttrs.Nodup) :
    encodedSize keyCols (selected values keyAttrs) ≤ encodedSize cols values := by
  have hlt : ∀ k ∈ keyAttrs, k < cols.length := by
    intro k hk
    obtain ⟨j, hj⟩ := List.getElem?_of_mem hk
    obtain ⟨c, hc, -⟩ := key_column hkey hj
    exact (List.getElem?_eq_some_iff.mp hc).1
  have hslots : slotSizes keyCols = keyAttrs.map fun k => (slotSizes cols)[k]?.getD 0 := by
    refine eq_map_of_getElem? (by unfold slotSizes; rw [List.length_map, length_keyCols hkey]) ?_
    intro j k hj
    obtain ⟨c, hc, hkc⟩ := key_column hkey hj
    rw [getElem?_slotSizes hkc, getElem?_slotSizes hc]
    rfl
  have htails : tailSizes keyCols (selected values keyAttrs) =
      keyAttrs.map fun k => (tailSizes cols values)[k]?.getD 0 := by
    refine eq_map_of_getElem? (by unfold tailSizes; rw [List.length_mapIdx, length_keyCols hkey]) ?_
    intro j k hj
    obtain ⟨c, hc, hkc⟩ := key_column hkey hj
    rw [getElem?_tailSizes _ hkc, selected_getElem? hkey hwt hj, getElem?_tailSizes _ hc]
    rfl
  unfold encodedSize
  rw [hslots, htails]
  refine Nat.add_le_add (sum_selected_le hnodup ?_) (sum_selected_le hnodup ?_)
  · unfold slotSizes
    rwa [List.length_map]
  · unfold tailSizes
    rwa [List.length_mapIdx]

end Keys

/-! ## The codec -/

section Codec

variable {cols : List Column} {values : List Value} {t : Tuple}

/-- **Round trip through storage.** -/
theorem deserializeFrom_serializeTo_data (hlen : t.data.length < 2 ^ 31) (t' : Tuple) (m : Mem)
    (storage : ℕ) :
    ∃ m', t.serializeTo m storage = .ok m' ∧ (t'.deserializeFrom m' storage).data = t.data := by
  have hnat : (Int32.ofNat t.data.length).toNatClampNeg = t.data.length :=
    Int32.toNatClampNeg_ofNat_of_lt hlen
  refine ⟨store (writeI32 m storage (Int32.ofNat t.data.length)) (storage + 4) t.data, ?_, ?_⟩
  · unfold Tuple.serializeTo
    dsimp only
    rw [if_neg (int32_ofNat_not_neg hlen), hnat, List.take_length]
  · have hapart : Apart (storage + 4) t.data.length storage 4 := .inr (.inl (le_refl _))
    have hread : readU (store (writeI32 m storage (Int32.ofNat t.data.length)) (storage + 4) t.data)
        storage 4 = t.data.length := by
      rw [readU_store_apart hapart]
      unfold writeI32
      rw [readU_writeU]
      have hword : (Int32.ofNat t.data.length).toUInt32.toNat = t.data.length :=
        UInt32.toNat_ofNat_of_lt' (show t.data.length < 2 ^ 32 by omega)
      rw [hword, Nat.mod_eq_of_lt (by omega)]
    show load _ _ (UInt32.ofNat (readU _ _ _)).toNat = _
    rw [hread, UInt32.toNat_ofNat_of_lt' (show t.data.length < 2 ^ 32 by omega), load_store]

/-- **The tuple codec.**  For values of the columns' types whose encoding stays below `2^31` bytes: the
constructor builds a tuple of exactly that size; `GetValue` gives back every value; slots and payloads
lie inside the buffer and apart from each other; a key of columns selected by `key_attrs` decodes to the
selected values; and `DeserializeFrom` after `SerializeTo` gives back the bytes. -/
theorem tuple_codec (cols : List Column) (values : List Value) (hwt : WellTyped cols values)
    (hsize : encodedSize cols values < 2 ^ 31) :
    ∃ t, Tuple.ofValues values (.create cols) = .ok t ∧ t.data.length = encodedSize cols values ∧
      (∀ i v, values[i]? = some v → t.getValue (.create cols) i = .ok v) ∧
      RegionsApart (.create cols) values t ∧
      (∀ keyAttrs keySchema, (Schema.create cols).copySchema keyAttrs = some keySchema →
        (keyAttrs.Nodup ∨ encodedSize keySchema.columns (selected values keyAttrs) < 2 ^ 31) →
        ∃ key, t.keyFromTuple (.create cols) keySchema keyAttrs = .ok key ∧
          ∀ j k v, keyAttrs[j]? = some k → values[k]? = some v → key.getValue keySchema j = .ok v) ∧
      ∀ (t' : Tuple) m storage, ∃ m', t.serializeTo m storage = .ok m' ∧
        (t'.deserializeFrom m' storage).data = t.data := by
  obtain ⟨t, hof, hlen, hstored⟩ := ofValues_stored hwt hsize
  have hget : ∀ i v, values[i]? = some v → t.getValue (.create cols) i = .ok v :=
    fun i v hv => getValue_stored hwt hsize hstored hv
  refine ⟨t, hof, hlen, hget, regionsApart hwt hsize hlen hstored, ?_,
    deserializeFrom_serializeTo_data (by rwa [hlen])⟩
  intro keyAttrs keySchema hcopy hsmall
  obtain ⟨keyCols, rfl, hkey⟩ := copySchema_columns hcopy
  have hkwt := selected_wellTyped hkey hwt
  have hksize : encodedSize keyCols (selected values keyAttrs) < 2 ^ 31 := by
    rcases hsmall with hnodup | hlt
    · exact (key_encodedSize_le hkey hwt hnodup).trans_lt hsize
    · rwa [encodedSize_create] at hlt
  -- the values read from the tuple are the selected ones
  have hread : keyAttrs.mapM (fun idx => t.getValue (.create cols) idx) = .ok (selected values keyAttrs) := by
    refine mapM_ok ?_
    intro k hk
    obtain ⟨j, hj⟩ := List.getElem?_of_mem hk
    obtain ⟨c, hc, -⟩ := key_column hkey hj
    obtain ⟨v, hv, -⟩ := hwt.value_at hc
    rw [hget k v hv, hv, Option.getD_some]
  obtain ⟨key, hkof, -, hkstored⟩ := ofValues_stored hkwt hksize
  refine ⟨key, ?_, ?_⟩
  · unfold Tuple.keyFromTuple
    rw [hread, ok_bind, hkof]
  · intro j k v hj hv
    have hkv : (selected values keyAttrs)[j]? = some v := by rw [selected_getElem? hkey hwt hj, hv]
    exact getValue_stored hkwt hksize hkstored hkv

/-- A NULL `INTEGER` between an empty string and a NULL one. -/
theorem tuple_codec_nulls :
    ∃ t, Tuple.ofValues [.varchar (some ⟨[0], by decide⟩), .integer int32Null, .varchar none]
        (.create [.varlen "a" .varchar 8 8 (by decide) rfl, .fixed "b" .integer 4 (by decide) rfl,
          .varlen "c" .varchar 8 8 (by decide) rfl]) = .ok t ∧ t.data.length = 21 ∧
      t.getValue (.create [.varlen "a" .varchar 8 8 (by decide) rfl, .fixed "b" .integer 4 (by decide) rfl,
          .varlen "c" .varchar 8 8 (by decide) rfl]) 2 = .ok (.varchar none) := by
  obtain ⟨t, hof, hlen, hget, -⟩ := tuple_codec
    [.varlen "a" .varchar 8 8 (by decide) rfl, .fixed "b" .integer 4 (by decide) rfl,
      .varlen "c" .varchar 8 8 (by decide) rfl]
    [.varchar (some ⟨[0], by decide⟩), .integer int32Null, .varchar none] rfl (by decide)
  exact ⟨t, hof, hlen, hget 2 _ rfl⟩

end Codec

end Journey.Storage
