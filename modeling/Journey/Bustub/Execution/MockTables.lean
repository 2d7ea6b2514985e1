import Journey.Bustub.Execution.Executors
import Journey.Bustub.Type.Cast

/-!
# Journey.Bustub.Execution.MockTables — the tables of the mock scan

The tables whose names begin with `__mock` are not stored: `MockScanExecutor` computes their rows.  Tuples with random
values, which an environment variable turns on, are left out.

* `getMockTableSchemaOf`, `getSizeOf`, `getShuffled`, `getFunctionOf`: the four chains of tests on the name.
* `mockTable`: what the constructor of the executor sets up, for a given shuffle.
* `mock_rows`: every row of every mock table is built, and reads back as typed values.
-/

namespace Journey.Execution

open SqlType Catalog Storage

/-! ## The data -/

section Data

def taList2022 : List String :=
  ["amstqq", "durovo", "joyceliaoo", "karthik-ramanathan-3006", "kush789", "lmwnshn", "mkpjnx", "skyzh", "thepinetree",
    "timlee0119", "yliang412"]

def taList2023 : List String :=
  ["abigalekim", "arvinwu168", "christopherlim98", "David-Lyons", "fanyuex2", "Mayank-Baranwal", "skyzh",
    "yarkhinephyo", "yliang412"]

def taList2023Fall : List String :=
  ["skyzh", "yliang412", "fernandolis10", "wiam8", "anurag-23", "Mayank-Baranwal", "abigalekim", "ChaosZhai",
    "aoleizhou", "averyqi115", "kswim8"]

def taList2024 : List String :=
  ["AlSchlo", "walkingcabbages", "averyqi115", "lanlou1554", "sweetsuro", "ChaosZhai", "SDTheSlayer", "xx01cyx",
    "yliang412", "thelongmarch-azx"]

def taList2024Fall : List String :=
  ["17zhangw", "connortsui20", "J-HowHuang", "lanlou1554", "prashanthduvvada", "unw9527", "xx01cyx", "yashkothari42"]

def taList2025Spring : List String :=
  ["AlSchlo", "carpecodeum", "ChrisLaspias", "hyoungjook", "joesunil123", "mrwhitezz", "rmboyce", "yliang412"]

def taList2025Fall : List String :=
  ["17zhangw", "quantumish", "songwdfu", "notSaranshMalik", "shinyumh", "s-wangru", "rayhhome", "MrWhitezz"]

def taOh2022 : List String :=
  ["Tuesday", "Wednesday", "Monday", "Wednesday", "Thursday", "Friday", "Wednesday", "Randomly", "Tuesday", "Monday",
    "Tuesday"]

def taOh2023 : List String :=
  ["Friday", "Thursday", "Tuesday", "Monday", "Tuesday", "Tuesday", "Randomly", "Wednesday", "Thursday"]

def taOh2023Fall : List String :=
  ["Randomly", "Tuesday", "Wednesday", "Tuesday", "Thursday", "Tuesday", "Friday", "Yesterday", "Friday", "Friday",
    "Never"]

def taOh2024 : List String :=
  ["Friday", "Thursday", "Friday", "Wednesday", "Thursday", "Yesterday", "Monday", "Tuesday", "Tuesday", "Monday"]

def taOh2024Fall : List String :=
  ["Wednesday", "Thursday", "Tuesday", "Monday", "Friday", "Thursday", "Tuesday", "Friday"]

def taOh2025Spring : List String :=
  ["Friday", "Monday", "Wednesday", "Tuesday", "Friday", "Thursday", "Monday", "Tuesday"]

def taOh2025Fall : List String :=
  ["Tuesday", "Monday", "Thursday", "Friday", "Tuesday", "Tuesday", "Friday", "Wednesday"]

def courseOnDate : List String := ["Monday", "Tuesday", "Wednesday", "Thursday", "Friday", "Saturday", "Sunday"]

/-- `mock_table_list`, without the null pointer behind it. -/
def mockTableList : List String :=
  ["__mock_table_1", "__mock_table_2", "__mock_table_3", "__mock_table_4", "__mock_table_tas_2022",
    "__mock_table_tas_2023", "__mock_table_tas_2023_fall", "__mock_table_tas_2024", "__mock_table_tas_2024_fall",
    "__mock_table_tas_2025_spring", "__mock_table_tas_2025_fall", "__mock_agg_input_small", "__mock_agg_input_big",
    "__mock_external_merge_sort_input", "__mock_table_schedule_2022", "__mock_table_schedule", "__mock_table_123",
    "__mock_graph", "__mock_t1", "__mock_t4_1m", "__mock_t5_1m", "__mock_t6_1m", "__mock_t7", "__mock_t8", "__mock_t9",
    "__mock_t10", "__mock_t11"]

/-- `GRAPH_NODE_CNT`. -/
def graphNodeCnt : UInt64 := 10

/-- U+1F4A9 in UTF-8. -/
def pileOfPoo : List UInt8 := [0xF0, 0x9F, 0x92, 0xA9]

/-- U+1F607 in UTF-8. -/
def smilingFace : List UInt8 := [0xF0, 0x9F, 0x98, 0x87]

end Data

/-! ## The four chains of tests -/

section Model

/-- `Column{name, TypeId::INTEGER}`. -/
def integerField (name : String) : Column := .fixed name .integer 4 integer_fixed integer_size

theorem varchar128_size : typeSize .varchar 128 = some 128 := rfl

/-- `Column{name, TypeId::VARCHAR, 128}`. -/
def varcharField (name : String) : Column := .varlen name .varchar 128 128 varchar_varlen varchar128_size

def officeHoursSchema : Schema := .create [varcharField "github_id", varcharField "office_hour"]

def scheduleSchema : Schema := .create [varcharField "day_of_week", integerField "has_lecture"]

def aggInputSchema : Schema :=
  .create [integerField "v1", integerField "v2", integerField "v3", integerField "v4", integerField "v5",
    varcharField "v6"]

/-- `GetMockTableSchemaOf`. -/
def getMockTableSchemaOf (table : String) : Except Fault Schema :=
  if table = "__mock_table_1" then .ok (.create [integerField "colA", integerField "colB"])
  else if table = "__mock_table_2" then .ok (.create [varcharField "colC", varcharField "colD"])
  else if table = "__mock_table_3" then .ok (.create [integerField "colE", varcharField "colF"])
  else if table = "__mock_table_4" then .ok (.create [integerField "colG", varcharField "colH"])
  else if table = "__mock_table_tas_2022" then .ok officeHoursSchema
  else if table = "__mock_table_tas_2023" then .ok officeHoursSchema
  else if table = "__mock_table_tas_2023_fall" then .ok officeHoursSchema
  else if table = "__mock_table_tas_2024" then .ok officeHoursSchema
  else if table = "__mock_table_tas_2024_fall" then .ok officeHoursSchema
  else if table = "__mock_table_tas_2025_spring" then .ok officeHoursSchema
  else if table = "__mock_table_tas_2025_fall" then .ok officeHoursSchema
  else if table = "__mock_table_schedule_2022" then .ok scheduleSchema
  else if table = "__mock_table_schedule" then .ok scheduleSchema
  else if table = "__mock_agg_input_small" ∨ table = "__mock_agg_input_big" then .ok aggInputSchema
  else if table = "__mock_external_merge_sort_input" then
    .ok (.create [integerField "v1", integerField "v2", integerField "v3"])
  else if table = "__mock_graph" then
    .ok (.create [integerField "src", integerField "dst", integerField "src_label", integerField "dst_label",
      integerField "distance"])
  else if table = "__mock_table_123" then .ok (.create [integerField "number"])
  else if table = "__mock_t4_1m" ∨ table = "__mock_t5_1m" ∨ table = "__mock_t6_1m" then
    .ok (.create [integerField "x", integerField "y"])
  else if table = "__mock_t1" then .ok (.create [integerField "x", integerField "y", integerField "z"])
  else if table = "__mock_t7" then .ok (.create [integerField "v", integerField "v1", integerField "v2"])
  else if table = "__mock_t8" then .ok (.create [integerField "v4"])
  else if table = "__mock_t9" then .ok (.create [integerField "x", integerField "y"])
  else if table = "__mock_t10" then .ok (.create [integerField "x", integerField "y"])
  else if table = "__mock_t11" then .ok (.create [integerField "x", integerField "y"])
  else .error (.exception .invalid ("mock table " ++ table ++ " not found"))

/-- `GetSizeOf`. -/
def getSizeOf (table : String) : ℕ :=
  if table = "__mock_table_1" then 100
  else if table = "__mock_table_2" then 100
  else if table = "__mock_table_3" then 100
  else if table = "__mock_table_4" then 100
  else if table = "__mock_table_tas_2022" then taList2022.length
  else if table = "__mock_table_tas_2023" then taList2023.length
  else if table = "__mock_table_tas_2023_fall" then taList2023Fall.length
  else if table = "__mock_table_tas_2024" then taList2024.length
  else if table = "__mock_table_tas_2024_fall" then taList2024Fall.length
  else if table = "__mock_table_tas_2025_spring" then taList2025Spring.length
  else if table = "__mock_table_tas_2025_fall" then taList2025Fall.length
  else if table = "__mock_table_schedule_2022" then courseOnDate.length
  else if table = "__mock_table_schedule" then courseOnDate.length
  else if table = "__mock_agg_input_small" then 1000
  else if table = "__mock_agg_input_big" then 10000
  else if table = "__mock_external_merge_sort_input" then 100000
  else if table = "__mock_graph" then (graphNodeCnt * graphNodeCnt).toNat
  else if table = "__mock_table_123" then 3
  else if table = "__mock_t1" then 1000000
  else if table = "__mock_t4_1m" ∨ table = "__mock_t5_1m" ∨ table = "__mock_t6_1m" then 1000000
  else if table = "__mock_t7" then 1000000
  else if table = "__mock_t8" then 10
  else if table = "__mock_t9" then 10000000
  else if table = "__mock_t10" then 10000
  else if table = "__mock_t11" then 1000000
  else 0

/-- `GetShuffled`. -/
def getShuffled (table : String) : Bool :=
  if table = "__mock_t1" then true
  else if table = "__mock_t2_100k" then true
  else if table = "__mock_t3_1k" then true
  else false

/-- `GetIntegerValue` of a `size_t`. -/
def integerOfSize (n : UInt64) : Value := .integer n.toUInt32.toInt32

/-- `GetVarcharValue` of the text at the index `cursor` of an array. -/
def varcharAt (texts : List String) (cursor : UInt64) : Except Fault Value :=
  match texts[cursor.toNat]? with
  | some text => .ok (stringValue (ascii text))
  | none => .error .outOfBounds

/-- `StringUtil::Repeat`. -/
def repeatText (text : List UInt8) (n : UInt64) : List UInt8 := (List.replicate n.toNat text).flatten

/-- `GetZeroValueByType`. -/
def getZeroValueByType : TypeId → Except Fault Value
  | .boolean => .ok (.boolean 0)
  | .tinyint => .ok (.tinyint 0)
  | .smallint => .ok (.smallint 0)
  | .integer => .ok (.integer 0)
  | .bigint => .ok (.bigint 0)
  | .decimal => .ok (.decimal 0)
  | .varchar => .ok (stringValue (ascii "0"))
  | _ => .error (.exception .unknownType "Unknown type for GetZeroValueType")

def officeHoursRow (taList taOh : List String) (cursor : UInt64) : Except Fault (List Value) := do
  let githubId ← varcharAt taList cursor
  let officeHour ← varcharAt taOh cursor
  return [githubId, officeHour]

/-- The values that the function of `GetFunctionOf` makes a tuple of, for output columns of the given types; without
random values. -/
def mockValues (table : String) (types : List TypeId) (cursor : UInt64) : Except Fault (List Value) :=
  if table = "__mock_table_tas_2022" then officeHoursRow taList2022 taOh2022 cursor
  else if table = "__mock_table_tas_2023" then officeHoursRow taList2023 taOh2023 cursor
  else if table = "__mock_table_tas_2023_fall" then officeHoursRow taList2023Fall taOh2023Fall cursor
  else if table = "__mock_table_tas_2024" then officeHoursRow taList2024 taOh2024 cursor
  else if table = "__mock_table_tas_2024_fall" then officeHoursRow taList2024Fall taOh2024Fall cursor
  else if table = "__mock_table_tas_2025_spring" then officeHoursRow taList2025Spring taOh2025Spring cursor
  else if table = "__mock_table_tas_2025_fall" then officeHoursRow taList2025Fall taOh2025Fall cursor
  else if table = "__mock_table_schedule_2022" then do
    let day ← varcharAt courseOnDate cursor
    return [day, .integer (if cursor = 1 ∨ cursor = 3 then 1 else 0)]
  else if table = "__mock_table_schedule" then do
    let day ← varcharAt courseOnDate cursor
    return [day, .integer (if cursor = 0 ∨ cursor = 2 then 1 else 0)]
  else if table = "__mock_table_1" then .ok [integerOfSize cursor, integerOfSize (cursor * 100)]
  else if table = "__mock_table_2" then
    .ok [stringValue (ascii (toString cursor.toNat ++ "-") ++ pileOfPoo),
      stringValue (repeatText smilingFace (cursor % 8))]
  else if table = "__mock_table_3" then
    .ok [if cursor % 2 = 0 then integerOfSize cursor else .integer int32Null,
      stringValue (ascii (toString cursor.toNat ++ "-") ++ pileOfPoo)]
  else if table = "__mock_table_4" then
    .ok [if cursor % 5 ≠ 0 then integerOfSize (cursor % 5) else .integer int32Null,
      if cursor % 10 ≠ 0 then stringValue (pileOfPoo ++ repeatText pileOfPoo (cursor % 3)) else .varchar none]
  else if table = "__mock_agg_input_small" then
    .ok [integerOfSize ((cursor + 2) % 10), integerOfSize cursor, integerOfSize ((cursor + 50) % 100),
      integerOfSize (cursor / 100), .integer 233, stringValue (repeatText pileOfPoo (cursor % 8 + 1))]
  else if table = "__mock_agg_input_big" then
    .ok [integerOfSize ((cursor + 2) % 10), integerOfSize cursor, integerOfSize ((cursor + 50) % 100),
      integerOfSize (cursor / 1000), .integer 233, stringValue (repeatText pileOfPoo (cursor % 16 + 1))]
  else if table = "__mock_external_merge_sort_input" then
    .ok [integerOfSize cursor, integerOfSize ((cursor + 1777) % 15000), integerOfSize ((cursor + 3) % 111)]
  else if table = "__mock_table_123" then .ok [integerOfSize (cursor + 1)]
  else if table = "__mock_graph" then
    let src := (cursor % graphNodeCnt).toUInt32.toInt32
    let dst := (cursor / graphNodeCnt).toUInt32.toInt32
    .ok [.integer src, .integer dst, .integer (src * 100), .integer (dst * 100),
      .integer (if src = dst then int32Null else 1)]
  else if table = "__mock_t1" then
    .ok [integerOfSize (cursor / 10000), integerOfSize (cursor % 10000), integerOfSize cursor]
  else if table = "__mock_t8" then .ok [integerOfSize cursor]
  else if table = "__mock_t4_1m" then
    .ok [integerOfSize (cursor % 500000), integerOfSize (cursor % 500000 * 10)]
  else if table = "__mock_t5_1m" then
    .ok [integerOfSize ((cursor + 30000) % 500000), integerOfSize ((cursor + 30000) % 500000 * 10)]
  else if table = "__mock_t6_1m" then
    .ok [integerOfSize ((cursor + 60000) % 500000), integerOfSize ((cursor + 60000) % 500000 * 10)]
  else if table = "__mock_t7" then .ok [integerOfSize (cursor % 20), integerOfSize cursor, integerOfSize cursor]
  else if table = "__mock_t9" then
    .ok [integerOfSize (cursor / 10000),
      integerOfSize (10000000 - (cursor / 2 + cursor / 10000 % 2 * (cursor / 2 % 2)))]
  else if table = "__mock_t10" then .ok [integerOfSize cursor, integerOfSize (cursor * 10)]
  else if table = "__mock_t11" then
    .ok [integerOfSize (-1 * (cursor % 1000) - 1), integerOfSize (cursor * 10)]
  else types.mapM getZeroValueByType

/-- `GetFunctionOf`, of a scan with the given output schema. -/
def getFunctionOf (table : String) (schema : Schema) (cursor : ℕ) : Except Fault Tuple := do
  let values ← mockValues table (schema.columns.map Column.type) (UInt64.ofNat cursor)
  Tuple.ofValues values schema

/-- What the constructor of `MockScanExecutor` sets up; `order` is what `std::shuffle` makes of the indexes. -/
def mockTable (table : String) (schema : Schema) (order : List ℕ) (h : order.Perm (List.range (getSizeOf table))) :
    MockTable where
  func := getFunctionOf table schema
  size := getSizeOf table
  shuffledIdx := if getShuffled table then order else []
  shuffled := by
    by_cases hs : getShuffled table = true
    · rw [if_pos hs]
      exact .inr h
    · rw [if_neg hs]
      exact .inl rfl

end Model

/-! ## The rows -/

section Rows

variable {cols cols' : List Column} {values : List Value} {table : String} {schema : Schema} {cursor : UInt64}

/-- What a column takes in the fixed part of a tuple depends on its type alone. -/
theorem slotSize_congr {c c' : Column} (h : c.type = c'.type) : c.slotSize = c'.slotSize := by
  obtain ⟨n, hn⟩ := c.sized
  obtain ⟨n', hn'⟩ := c'.sized
  unfold Column.slotSize Column.isInlined
  rw [h] at hn ⊢
  cases htype : c'.type with
  | varchar => rfl
  | vector => rfl
  | invalid => exact absurd htype c'.type_ne_invalid
  | _ =>
    rw [htype] at hn hn'
    exact Option.some.inj (hn.symm.trans hn')

theorem isInlined_congr {c c' : Column} (h : c.type = c'.type) : c.isInlined = c'.isInlined := by
  unfold Column.isInlined
  rw [h]

theorem slotSize_le (c : Column) : c.slotSize.toNat ≤ 255 := by
  obtain ⟨n, hn⟩ := c.sized
  unfold Column.slotSize
  split_ifs
  · obtain ⟨size, -, hsize⟩ := Option.map_eq_some_iff.mp hn
    rw [← hsize, UInt8.toNat_toUInt32]
    exact Nat.le_of_lt_succ size.toNat_lt
  · decide

theorem payloadSize_le {n : ℕ} (c : Column) {v : Option Value} (h : ∀ w ∈ v, dataLen w ≤ n) :
    payloadSize c v ≤ 4 + n := by
  unfold payloadSize
  split_ifs
  · exact Nat.zero_le _
  · cases v with
    | none => simp
    | some w => simpa using h w rfl

theorem sum_le_length_mul {l : List ℕ} {n : ℕ} (h : ∀ a ∈ l, a ≤ n) : l.sum ≤ l.length * n := by
  simpa using List.sum_le_card_nsmul l n h

/-- The size of a tuple, from a bound on its texts. -/
theorem encodedSize_le {n : ℕ} (h : ∀ v ∈ values, dataLen v ≤ n) : encodedSize cols values ≤ cols.length * (259 + n) := by
  have hslots : (slotSizes cols).sum ≤ (slotSizes cols).length * 255 := by
    refine sum_le_length_mul ?_
    intro a ha
    obtain ⟨c, -, rfl⟩ := List.mem_map.mp ha
    exact slotSize_le c
  have htails : (tailSizes cols values).sum ≤ (tailSizes cols values).length * (4 + n) := by
    refine sum_le_length_mul ?_
    intro a ha
    obtain ⟨i, hi, rfl⟩ := List.mem_mapIdx.mp ha
    refine payloadSize_le _ ?_
    intro w hw
    exact h w (List.mem_of_getElem? hw)
  unfold encodedSize
  rw [slotSizes, List.length_map] at hslots
  rw [tailSizes, List.length_mapIdx] at htails
  unfold slotSizes tailSizes
  have hmul : cols.length * (259 + n) = cols.length * 255 + cols.length * (4 + n) := by ring
  omega

theorem dataLen_stringValue (text : List UInt8) : dataLen (stringValue text) ≤ text.length + 1 := by
  unfold stringValue varlenOf dataLen
  dsimp only
  split_ifs
  · simp
  · simp

/-- The texts of the mock tables are short. -/
def textBound : ℕ := 99

/-- The row is built of values of the given types. -/
def RowOf (types : List TypeId) (row : Except Fault (List Value)) : Prop :=
  ∃ values, row = .ok values ∧ values.map Value.getTypeId = types ∧ ∀ v ∈ values, dataLen v ≤ textBound

theorem rowOf_ok (htypes : values.map Value.getTypeId = types) (h : ∀ v ∈ values, dataLen v ≤ textBound) :
    RowOf types (.ok values) := ⟨values, rfl, htypes, h⟩

theorem rowOf_pair {v w : Value} {s t : TypeId} (hv : v.getTypeId = s ∧ dataLen v ≤ textBound)
    (hw : w.getTypeId = t ∧ dataLen w ≤ textBound) : RowOf [s, t] (.ok [v, w]) := by
  refine rowOf_ok ?_ ?_
  · exact congrArg₂ (fun s t => [s, t]) hv.1 hw.1
  · intro u hu
    rcases List.mem_pair.mp hu with rfl | rfl
    · exact hv.2
    · exact hw.2

theorem varcharAt_ok {texts : List String} (h : cursor.toNat < texts.length) (hshort : ∀ s ∈ texts, (ascii s).length ≤ 90) :
    ∃ v, varcharAt texts cursor = .ok v ∧ v.getTypeId = .varchar ∧ dataLen v ≤ textBound := by
  refine ⟨stringValue (ascii texts[cursor.toNat]), ?_, rfl, ?_⟩
  · unfold varcharAt
    rw [List.getElem?_eq_getElem h]
  · have hle := dataLen_stringValue (ascii texts[cursor.toNat])
    have hlen := hshort _ (List.getElem_mem h)
    unfold textBound
    omega

theorem rowOf_officeHours {taList taOh : List String} (h : cursor.toNat < taList.length) (hlen : taOh.length = taList.length)
    (hl : ∀ s ∈ taList, (ascii s).length ≤ 90) (ho : ∀ s ∈ taOh, (ascii s).length ≤ 90) :
    RowOf [.varchar, .varchar] (officeHoursRow taList taOh cursor) := by
  obtain ⟨v, hv, hvt, hvl⟩ := varcharAt_ok h hl
  obtain ⟨w, hw, hwt, hwl⟩ := varcharAt_ok (hlen ▸ h) ho
  unfold officeHoursRow
  rw [hv, ok_bind, hw, ok_bind]
  exact rowOf_pair ⟨hvt, hvl⟩ ⟨hwt, hwl⟩

theorem rowOf_schedule (h : cursor.toNat < courseOnDate.length) (i : Int32) :
    RowOf [.varchar, .integer] (do let day ← varcharAt courseOnDate cursor; return [day, .integer i]) := by
  obtain ⟨v, hv, hvt, hvl⟩ := varcharAt_ok h (by decide +kernel)
  rw [hv, ok_bind]
  exact rowOf_pair ⟨hvt, hvl⟩ ⟨rfl, Nat.zero_le _⟩

theorem rowOf_integers {ints : List Int32} (n : ℕ) (hn : ints.length = n) :
    RowOf (List.replicate n .integer) (.ok (ints.map .integer)) := by
  refine rowOf_ok ?_ ?_
  · rw [List.map_map, ← hn]
    exact List.map_const' ..
  · intro v hv
    obtain ⟨i, -, rfl⟩ := List.mem_map.mp hv
    exact Nat.zero_le _

theorem length_repeatText (text : List UInt8) (n : UInt64) : (repeatText text n).length = n.toNat * text.length := by
  unfold repeatText
  simp

/-- The digits of a row number. -/
theorem length_digits (h : cursor.toNat < 100) : (ascii (toString cursor.toNat ++ "-")).length ≤ 3 := by
  have hlen : (toString cursor.toNat).length ≤ 2 := (Nat.length_repr_le_iff (by decide)).mpr h
  unfold ascii
  rw [List.length_map, String.length_toList, String.length_append]
  exact Nat.add_le_add_right hlen 1

theorem mod_lt_toNat (n : UInt64) {k : ℕ} (hk : 0 < k) (hlt : k < 2 ^ 64) : (n % UInt64.ofNat k).toNat < k := by
  rw [UInt64.toNat_mod, UInt64.toNat_ofNat_of_lt' hlt]
  exact Nat.mod_lt _ hk

/-- The columns of a mock table, and its rows, whatever columns the plan has. -/
def Computed (table : String) : Prop :=
  ∃ cols : List Column, getMockTableSchemaOf table = .ok (.create cols) ∧ cols.length ≤ 6 ∧
    ∀ (out : List TypeId) (cursor : UInt64), cursor.toNat < getSizeOf table →
      RowOf (cols.map Column.type) (mockValues table out cursor)

theorem computed_integers (cols : List Column) (row : UInt64 → List Int32)
    (hschema : getMockTableSchemaOf table = .ok (.create cols)) (hcols : cols.length ≤ 6)
    (hrow : ∀ out cursor, mockValues table out cursor = .ok ((row cursor).map .integer))
    (hlen : ∀ cursor, (row cursor).length = cols.length)
    (htypes : cols.map Column.type = List.replicate cols.length .integer) : Computed table := by
  refine ⟨cols, hschema, hcols, ?_⟩
  intro out cursor _
  rw [hrow, htypes]
  exact rowOf_integers _ (hlen cursor)

theorem computed_officeHours (taList taOh : List String) (hschema : getMockTableSchemaOf table = .ok officeHoursSchema)
    (hrow : ∀ out cursor, mockValues table out cursor = officeHoursRow taList taOh cursor)
    (hsize : getSizeOf table = taList.length) (hlen : taOh.length = taList.length)
    (hl : ∀ s ∈ taList, (ascii s).length ≤ 90) (ho : ∀ s ∈ taOh, (ascii s).length ≤ 90) : Computed table := by
  refine ⟨_, hschema, by decide, ?_⟩
  intro out cursor hcursor
  rw [hrow]
  rw [hsize] at hcursor
  exact rowOf_officeHours hcursor hlen hl ho

/-- The texts of the numbered tables are short. -/
theorem dataLen_numbered (h : cursor.toNat < 100) :
    dataLen (stringValue (ascii (toString cursor.toNat ++ "-") ++ pileOfPoo)) ≤ textBound := by
  have hle := dataLen_stringValue (ascii (toString cursor.toNat ++ "-") ++ pileOfPoo)
  have hdigits := length_digits h
  rw [List.length_append, show pileOfPoo.length = 4 from rfl] at hle
  unfold textBound
  omega

theorem dataLen_repeated {text : List UInt8} (htext : text.length = 4) {n : UInt64} (hn : n.toNat ≤ 16) :
    dataLen (stringValue (repeatText text n)) ≤ textBound := by
  have hle := dataLen_stringValue (repeatText text n)
  rw [length_repeatText, htext] at hle
  unfold textBound
  omega

theorem mod_succ_toNat_le (n : UInt64) {k : ℕ} (hk : 0 < k) (hlt : k < 2 ^ 32) :
    (n % UInt64.ofNat k + 1).toNat ≤ k := by
  have hmod := mod_lt_toNat n hk (by omega)
  rw [UInt64.toNat_add]
  exact (Nat.mod_le _ _).trans hmod

theorem computed_table2 : Computed "__mock_table_2" := by
  refine ⟨_, rfl, by decide, ?_⟩
  intro out cursor hcursor
  refine rowOf_pair ⟨rfl, dataLen_numbered hcursor⟩ ⟨rfl, ?_⟩
  exact dataLen_repeated rfl ((mod_lt_toNat cursor (by decide : 0 < 8) (by decide)).le.trans (by decide))

theorem computed_table3 : Computed "__mock_table_3" := by
  refine ⟨_, rfl, by decide, ?_⟩
  intro out cursor hcursor
  refine rowOf_pair ?_ ⟨rfl, dataLen_numbered hcursor⟩
  split_ifs <;> exact ⟨rfl, Nat.zero_le _⟩

theorem computed_table4 : Computed "__mock_table_4" := by
  refine ⟨_, rfl, by decide, ?_⟩
  intro out cursor hcursor
  refine rowOf_pair ?_ ?_
  · split_ifs <;> exact ⟨rfl, Nat.zero_le _⟩
  · split_ifs
    · refine ⟨rfl, ?_⟩
      have hle := dataLen_stringValue (pileOfPoo ++ repeatText pileOfPoo (cursor % 3))
      have hmod : (cursor % 3).toNat < 3 := mod_lt_toNat cursor (by decide) (by decide)
      rw [List.length_append, length_repeatText, show pileOfPoo.length = 4 from rfl] at hle
      unfold textBound
      omega
    · exact ⟨rfl, Nat.zero_le _⟩

/-- The two inputs of the aggregations. -/
theorem rowOf_aggInput (ints : List Int32) (hints : ints.length = 5) {n : UInt64} (hn : n.toNat ≤ 16) :
    RowOf (List.replicate 5 .integer ++ [.varchar])
      (.ok (ints.map .integer ++ [stringValue (repeatText pileOfPoo n)])) := by
  refine rowOf_ok ?_ ?_
  · rw [List.map_append, List.map_map, ← hints]
    exact congrArg (· ++ _) (List.map_const' ..)
  · intro v hv
    rcases List.mem_append.mp hv with hv | hv
    · obtain ⟨i, -, rfl⟩ := List.mem_map.mp hv
      exact Nat.zero_le _
    · rw [List.mem_singleton.mp hv]
      exact dataLen_repeated rfl hn

theorem computed_aggInputs : Computed "__mock_agg_input_small" ∧ Computed "__mock_agg_input_big" := by
  refine ⟨⟨_, rfl, by decide, ?_⟩, ⟨_, rfl, by decide, ?_⟩⟩
  · intro out cursor _
    exact rowOf_aggInput [_, _, _, _, _] rfl
      ((mod_succ_toNat_le cursor (by decide : 0 < 8) (by decide)).trans (by decide))
  · intro out cursor _
    exact rowOf_aggInput [_, _, _, _, _] rfl (mod_succ_toNat_le cursor (by decide : 0 < 16) (by decide))

theorem computed_schedules : Computed "__mock_table_schedule_2022" ∧ Computed "__mock_table_schedule" := by
  refine ⟨⟨_, rfl, by decide, ?_⟩, ⟨_, rfl, by decide, ?_⟩⟩
  · intro out cursor hcursor
    exact rowOf_schedule hcursor _
  · intro out cursor hcursor
    exact rowOf_schedule hcursor _

theorem computed_of_mem (h : table ∈ mockTableList) : Computed table := by
  simp only [mockTableList, List.mem_cons, List.not_mem_nil, or_false] at h
  rcases h with rfl | rfl | rfl | rfl | rfl | rfl | rfl | rfl | rfl | rfl | rfl | rfl | rfl | rfl | rfl | rfl | rfl |
    rfl | rfl | rfl | rfl | rfl | rfl | rfl | rfl | rfl | rfl
  · exact computed_integers _ (fun c => [_, _]) rfl (by decide) (fun _ _ => rfl) (fun _ => rfl) rfl
  · exact computed_table2
  · exact computed_table3
  · exact computed_table4
  · exact computed_officeHours _ _ rfl (fun _ _ => rfl) rfl rfl (by decide +kernel) (by decide +kernel)
  · exact computed_officeHours _ _ rfl (fun _ _ => rfl) rfl rfl (by decide +kernel) (by decide +kernel)
  · exact computed_officeHours _ _ rfl (fun _ _ => rfl) rfl rfl (by decide +kernel) (by decide +kernel)
  · exact computed_officeHours _ _ rfl (fun _ _ => rfl) rfl rfl (by decide +kernel) (by decide +kernel)
  · exact computed_officeHours _ _ rfl (fun _ _ => rfl) rfl rfl (by decide +kernel) (by decide +kernel)
  · exact computed_officeHours _ _ rfl (fun _ _ => rfl) rfl rfl (by decide +kernel) (by decide +kernel)
  · exact computed_officeHours _ _ rfl (fun _ _ => rfl) rfl rfl (by decide +kernel) (by decide +kernel)
  · exact computed_aggInputs.1
  · exact computed_aggInputs.2
  · exact computed_integers _ (fun c => [_, _, _]) rfl (by decide) (fun _ _ => rfl) (fun _ => rfl) rfl
  · exact computed_schedules.1
  · exact computed_schedules.2
  · exact computed_integers _ (fun c => [_]) rfl (by decide) (fun _ _ => rfl) (fun _ => rfl) rfl
  · exact computed_integers _ (fun c => [_, _, _, _, _]) rfl (by decide) (fun _ _ => rfl) (fun _ => rfl) rfl
  · exact computed_integers _ (fun c => [_, _, _]) rfl (by decide) (fun _ _ => rfl) (fun _ => rfl) rfl
  · exact computed_integers _ (fun c => [_, _]) rfl (by decide) (fun _ _ => rfl) (fun _ => rfl) rfl
  · exact computed_integers _ (fun c => [_, _]) rfl (by decide) (fun _ _ => rfl) (fun _ => rfl) rfl
  · exact computed_integers _ (fun c => [_, _]) rfl (by decide) (fun _ _ => rfl) (fun _ => rfl) rfl
  · exact computed_integers _ (fun c => [_, _, _]) rfl (by decide) (fun _ _ => rfl) (fun _ => rfl) rfl
  · exact computed_integers _ (fun c => [_]) rfl (by decide) (fun _ _ => rfl) (fun _ => rfl) rfl
  · exact computed_integers _ (fun c => [_, _]) rfl (by decide) (fun _ _ => rfl) (fun _ => rfl) rfl
  · exact computed_integers _ (fun c => [_, _]) rfl (by decide) (fun _ _ => rfl) (fun _ => rfl) rfl
  · exact computed_integers _ (fun c => [_, _]) rfl (by decide) (fun _ _ => rfl) (fun _ => rfl) rfl

theorem ite_lt {P : Prop} [Decidable P] {a b n : ℕ} (ha : a < n) (hb : b < n) : (if P then a else b) < n := by
  split_ifs
  · exact ha
  · exact hb

theorem getSizeOf_lt (table : String) : getSizeOf table < 2 ^ 64 := by
  unfold getSizeOf
  repeat refine ite_lt (by decide) ?_
  decide

/-- A table that is not in the list is not found. -/
theorem getMockTableSchemaOf_of_not_mem (h : table ∉ mockTableList) :
    getMockTableSchemaOf table = .error (.exception .invalid ("mock table " ++ table ++ " not found")) := by
  simp only [mockTableList, List.mem_cons, List.not_mem_nil, or_false, not_or] at h
  simp [getMockTableSchemaOf, h]

/-- **A row of a mock table**, for columns with the types of the table. -/
theorem mockValues_ok (hschema : getMockTableSchemaOf table = .ok (.create cols))
    (hcols' : cols'.map Column.type = cols.map Column.type) {cursor : ℕ} (hcursor : cursor < getSizeOf table) :
    ∃ values, mockValues table (cols'.map Column.type) (UInt64.ofNat cursor) = .ok values ∧ WellTyped cols' values ∧
      encodedSize cols' values < 2 ^ 31 := by
  have hmem : table ∈ mockTableList := by
    by_contra hnot
    rw [getMockTableSchemaOf_of_not_mem hnot] at hschema
    cases hschema
  obtain ⟨cols₂, hschema₂, hlen, hrows⟩ := computed_of_mem hmem
  have hsame : cols₂.map Column.type = cols'.map Column.type := by
    rw [hschema] at hschema₂
    have htypes := congrArg (fun s => s.columns.map Column.type) (Except.ok.inj hschema₂)
    simp only [types_create] at htypes
    rw [← htypes, hcols']
  have hto : (UInt64.ofNat cursor).toNat = cursor :=
    UInt64.toNat_ofNat_of_lt' (hcursor.trans (getSizeOf_lt table))
  obtain ⟨values, hvalues, hval, hshort⟩ := hrows (cols'.map Column.type) (UInt64.ofNat cursor) (hto.symm ▸ hcursor)
  refine ⟨values, hvalues, hval.trans hsame, ?_⟩
  have hle : encodedSize cols' values ≤ cols'.length * (259 + textBound) := encodedSize_le hshort
  have hcount := congrArg List.length hsame
  rw [List.length_map, List.length_map] at hcount
  have hmul := Nat.mul_le_mul_right (259 + textBound) (hcount ▸ hlen)
  exact lt_of_le_of_lt (hle.trans hmul) (by decide)

/-- **The mock tables.**  The names in `mock_table_list` are exactly those that have a schema.  For each of them every
row, in a scan whose columns have the types of the table, is computed without leaving the arrays, its values have the
types of the columns, and the tuple is built and gives the values back. -/
theorem mock_rows (table : String) :
    (table ∈ mockTableList ↔ ∃ schema, getMockTableSchemaOf table = .ok schema) ∧
      ∀ cols, getMockTableSchemaOf table = .ok (.create cols) → ∀ cols' : List Column,
        cols'.map Column.type = cols.map Column.type → ∀ cursor < getSizeOf table,
          ∃ values tuple, mockValues table (cols'.map Column.type) (UInt64.ofNat cursor) = .ok values ∧
            WellTyped cols' values ∧ getFunctionOf table (.create cols') cursor = .ok tuple ∧
            ∀ i v, values[i]? = some v → tuple.getValue (.create cols') i = .ok v := by
  constructor
  · constructor
    · intro h
      obtain ⟨cols, hschema, -⟩ := computed_of_mem h
      exact ⟨_, hschema⟩
    · rintro ⟨schema, hschema⟩
      by_contra hnot
      rw [getMockTableSchemaOf_of_not_mem hnot] at hschema
      cases hschema
  · intro cols hschema cols' hcols' cursor hcursor
    obtain ⟨values, hvalues, hwt, hsize⟩ := mockValues_ok hschema hcols' hcursor
    obtain ⟨tuple, htuple, hread⟩ := ofValues_getValue hwt hsize
    refine ⟨values, tuple, hvalues, hwt, ?_, hread⟩
    unfold getFunctionOf
    rw [types_create, hvalues, ok_bind, htuple]

/-- The columns of `__mock_table_4` in a plan that calls the table `m`. -/
def renamedTable4 : List Column := [integerField "m.colG", varcharField "m.colH"]

/-- Row 20 of `__mock_table_4` is a row of nulls. -/
theorem mock_rows_table4 : ∃ values tuple,
    mockValues "__mock_table_4" (renamedTable4.map Column.type) (UInt64.ofNat 20) = .ok values ∧
      WellTyped renamedTable4 values ∧ getFunctionOf "__mock_table_4" (.create renamedTable4) 20 = .ok tuple ∧
      ∀ i v, values[i]? = some v → tuple.getValue (.create renamedTable4) i = .ok v :=
  (mock_rows "__mock_table_4").2 [integerField "colG", varcharField "colH"] rfl renamedTable4 rfl 20 (by decide)

end Rows

end Journey.Execution
