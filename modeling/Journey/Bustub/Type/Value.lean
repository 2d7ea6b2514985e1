import Journey.Lib.Buffer
import Journey.Lib.Machine

/-!
# Journey.Bustub.Type.Value — values and their bytes

A `Value` is a type id with a payload of that type.  NULL is a payload of its own: the sentinel of the
fixed-size types, a null pointer for the variable-length ones; `size_.len_` is `BUSTUB_VALUE_NULL`
exactly for those.

* `serializeTo`, `deserializeFrom`, `getStorageSize`: the dispatch on the type, with its exceptions.
* `deserializeFrom_serializeTo`: every value is read back from its bytes.
-/

namespace Journey.SqlType

/-! ## Types and values -/

section Model

/-- `TypeId`. -/
inductive TypeId
  | invalid
  | boolean
  | tinyint
  | smallint
  | integer
  | bigint
  | decimal
  | varchar
  | timestamp
  | vector
deriving DecidableEq, Repr

/-- `ExceptionType`. -/
inductive ExceptionType
  | invalid
  | outOfRange
  | conversion
  | unknownType
  | decimal
  | mismatchType
  | divideByZero
  | incompatibleType
  | outOfMemory
  | notImplemented
  | execution
deriving DecidableEq, Repr

/-- How a call can go wrong: a failed `assert`, a thrown `Exception`, an access outside of the memory it
is given, a thrown `std::logic_error`, `std::terminate`, or a library call whose precondition does not hold. -/
inductive Fault
  | assertion
  | exception (type : ExceptionType) (msg : String)
  | outOfBounds
  | logicError (msg : String)
  | terminate (msg : String)
  | undefined
deriving DecidableEq, Repr

/-- `BUSTUB_VALUE_NULL`, the largest `uint32_t`. -/
def valueNull : UInt32 := 0xFFFFFFFF

/-- `BUSTUB_BOOLEAN_NULL`. -/
def booleanNull : Int8 := Int8.minValue

/-- `BUSTUB_INT8_NULL`. -/
def int8Null : Int8 := Int8.minValue

/-- `BUSTUB_INT16_NULL`. -/
def int16Null : Int16 := Int16.minValue

/-- `BUSTUB_INT32_NULL`. -/
def int32Null : Int32 := Int32.minValue

/-- `BUSTUB_INT64_NULL`. -/
def int64Null : Int64 := Int64.minValue

/-- `BUSTUB_DECIMAL_NULL`: the bits of the lowest `double`. -/
def decimalNull : UInt64 := 0xFFEFFFFFFFFFFFFF

/-- `BUSTUB_TIMESTAMP_NULL`. -/
def timestampNull : UInt64 := 0xFFFFFFFFFFFFFFFF

/-- The bytes behind `varlen_`.  Their number is a `uint32_t` below `BUSTUB_VARCHAR_MAX_LEN`. -/
abbrev Varlen := { bytes : List UInt8 // bytes.length < 2 ^ 32 - 1 }

/-- `Value`.  A `double` is given by its bits; a variable-length value is a null pointer or bytes. -/
inductive Value
  | invalid
  | boolean (i : Int8)
  | tinyint (i : Int8)
  | smallint (i : Int16)
  | integer (i : Int32)
  | bigint (i : Int64)
  | decimal (bits : UInt64)
  | varchar (data : Option Varlen)
  | timestamp (i : UInt64)
  | vector (data : Option Varlen)
deriving DecidableEq

namespace Value

/-- `GetTypeId`. -/
def getTypeId : Value → TypeId
  | invalid => .invalid
  | boolean _ => .boolean
  | tinyint _ => .tinyint
  | smallint _ => .smallint
  | integer _ => .integer
  | bigint _ => .bigint
  | decimal _ => .decimal
  | varchar _ => .varchar
  | timestamp _ => .timestamp
  | vector _ => .vector

/-- The `len_` of a variable-length value. -/
def varlenLen : Option Varlen → UInt32
  | none => valueNull
  | some data => UInt32.ofNat data.1.length

/-- `size_.len_`, as the constructors set it. -/
def len : Value → UInt32
  | invalid => valueNull
  | boolean i => if i = booleanNull then valueNull else 0
  | tinyint i => if i = int8Null then valueNull else 0
  | smallint i => if i = int16Null then valueNull else 0
  | integer i => if i = int32Null then valueNull else 0
  | bigint i => if i = int64Null then valueNull else 0
  | decimal bits => if bits = decimalNull then valueNull else 0
  | varchar data => varlenLen data
  | timestamp i => if i = timestampNull then valueNull else 0
  | vector data => varlenLen data

/-- `IsNull`. -/
def isNull (v : Value) : Bool := v.len == valueNull

/-- `GetStorageSize`. -/
def getStorageSize : Value → Except Fault UInt32
  | varchar data => .ok (varlenLen data)
  | vector data => .ok (varlenLen data)
  | _ => .error (.exception .notImplemented "GetStorageSize not implemented")

/-- `VarlenType::SerializeTo` and `VectorType::SerializeTo`: the length, then the bytes. -/
def serializeVarlen : Option Varlen → List UInt8
  | none => toLE 4 valueNull.toNat
  | some data => toLE 4 (varlenLen (some data)).toNat ++ data.1

/-- `SerializeTo`: the bytes written at the storage address. -/
def serializeTo : Value → Except Fault (List UInt8)
  | invalid => .error (.exception .notImplemented "SerializeTo not implemented")
  | boolean i => .ok (toLE 1 i.toUInt8.toNat)
  | tinyint i => .ok (toLE 1 i.toUInt8.toNat)
  | smallint i => .ok (toLE 2 i.toUInt16.toNat)
  | integer i => .ok (toLE 4 i.toUInt32.toNat)
  | bigint i => .ok (toLE 8 i.toUInt64.toNat)
  | decimal bits => .ok (toLE 8 bits.toNat)
  | varchar data => .ok (serializeVarlen data)
  | timestamp i => .ok (toLE 8 i.toNat)
  | vector data => .ok (serializeVarlen data)

/-- Read `k` bytes of the storage at `p`. -/
def readBytes (storage : List UInt8) (p k : ℕ) : Except Fault (List UInt8) :=
  match readAt storage p k with
  | some bs => .ok bs
  | none => .error .outOfBounds

/-- Read a word of `k` bytes of the storage at `p`. -/
def readWord (storage : List UInt8) (p k : ℕ) : Except Fault ℕ := do
  let bs ← readBytes storage p k
  return ofLE bs

/-- `VarlenType::DeserializeFrom` and `VectorType::DeserializeFrom`, with the assertion of the
constructor they call. -/
def deserializeVarlen (make : Option Varlen → Value) (storage : List UInt8) (p : ℕ) : Except Fault Value := do
  let len := UInt32.ofNat (← readWord storage p 4)
  if len = valueNull then return make none
  let data ← readBytes storage (p + 4) len.toNat
  if h : data.length < 2 ^ 32 - 1 then return make (some ⟨data, h⟩) else throw .assertion

/-- `DeserializeFrom`. -/
def deserializeFrom (storage : List UInt8) (p : ℕ) : TypeId → Except Fault Value
  | .invalid => .error (.exception .notImplemented "DeserializeFrom not implemented")
  | .boolean => do return boolean (UInt8.ofNat (← readWord storage p 1)).toInt8
  | .tinyint => do return tinyint (UInt8.ofNat (← readWord storage p 1)).toInt8
  | .smallint => do return smallint (UInt16.ofNat (← readWord storage p 2)).toInt16
  | .integer => do return integer (UInt32.ofNat (← readWord storage p 4)).toInt32
  | .bigint => do return bigint (UInt64.ofNat (← readWord storage p 8)).toInt64
  | .decimal => do return decimal (UInt64.ofNat (← readWord storage p 8))
  | .varchar => deserializeVarlen varchar storage p
  | .timestamp => do return timestamp (UInt64.ofNat (← readWord storage p 8))
  | .vector => deserializeVarlen vector storage p

end Value

end Model

/-! ## Round trip -/

section RoundTrip

variable {storage : List UInt8} {p k : ℕ}

open Value

theorem readBytes_of_readAt {bs : List UInt8} (h : readAt storage p k = some bs) :
    readBytes storage p k = .ok bs := by
  unfold readBytes
  rw [h]

/-- A word that was stored is read back. -/
theorem readWord_toLE {w : ℕ} (hw : w < 256 ^ k) (h : readAt storage p k = some (toLE k w)) :
    readWord storage p k = .ok w := by
  unfold readWord
  rw [readBytes_of_readAt h, ok_bind, ofLE_toLE_of_lt hw]
  rfl

theorem varlenLen_toNat (data : Varlen) : (varlenLen (some data)).toNat = data.1.length := by
  have hlt := data.2
  show (UInt32.ofNat data.1.length).toNat = data.1.length
  rw [UInt32.toNat_ofNat', Nat.mod_eq_of_lt (by omega)]

theorem varlenLen_ne_null (data : Varlen) : varlenLen (some data) ≠ valueNull := by
  intro heq
  have hlt := data.2
  have hlen := varlenLen_toNat data
  rw [heq, show valueNull.toNat = 2 ^ 32 - 1 from rfl] at hlen
  omega

theorem length_serializeVarlen (data : Option Varlen) :
    (serializeVarlen data).length = 4 + (data.map fun d => d.1.length).getD 0 := by
  cases data with
  | none => rfl
  | some data =>
    unfold serializeVarlen
    rw [List.length_append, length_toLE]
    rfl

theorem deserializeVarlen_serializeVarlen (make : Option Varlen → Value) (data : Option Varlen)
    (h : readAt storage p (serializeVarlen data).length = some (serializeVarlen data)) :
    deserializeVarlen make storage p = .ok (make data) := by
  cases data with
  | none =>
    have hword : readWord storage p 4 = .ok valueNull.toNat := readWord_toLE (by decide) h
    unfold deserializeVarlen
    rw [hword, ok_bind, UInt32.ofNat_toNat, if_pos rfl]
    rfl
  | some data =>
    have hsplit : readAt storage p ((toLE 4 (varlenLen (some data)).toNat).length + data.1.length) =
        some (toLE 4 (varlenLen (some data)).toNat ++ data.1) := by
      rw [← List.length_append]
      exact h
    obtain ⟨hlen, hdata⟩ := readAt_append hsplit
    rw [length_toLE] at hlen hdata
    have hword := readWord_toLE (varlenLen (some data)).toNat_lt hlen
    unfold deserializeVarlen
    rw [hword, ok_bind, UInt32.ofNat_toNat, if_neg (varlenLen_ne_null data), varlenLen_toNat,
      readBytes_of_readAt hdata, ok_bind, dif_pos data.2]
    rfl

/-- A fixed-size value that `make` builds from its word. -/
theorem word_roundTrip {k w : ℕ} (make : ℕ → Value) (hw : w < 256 ^ k)
    (h : readAt storage p (toLE k w).length = some (toLE k w)) :
    (readWord storage p k >>= fun w => pure (make w)) = .ok (make w) := by
  rw [length_toLE] at h
  rw [readWord_toLE hw h, ok_bind]
  rfl

/-- **Round trip of a value**: the bytes `SerializeTo` writes are read back by the `DeserializeFrom` of
its type, wherever they lie. -/
theorem deserializeFrom_serializeTo (v : Value) (hv : v.getTypeId ≠ .invalid) :
    ∃ bs, v.serializeTo = .ok bs ∧ ∀ storage p, readAt storage p bs.length = some bs →
      deserializeFrom storage p v.getTypeId = .ok v := by
  cases v with
  | invalid => exact absurd rfl hv
  | boolean i =>
    refine ⟨_, rfl, fun storage p h => ?_⟩
    refine (word_roundTrip (fun w => boolean (UInt8.ofNat w).toInt8) i.toUInt8.toNat_lt h).trans ?_
    simp
  | tinyint i =>
    refine ⟨_, rfl, fun storage p h => ?_⟩
    refine (word_roundTrip (fun w => tinyint (UInt8.ofNat w).toInt8) i.toUInt8.toNat_lt h).trans ?_
    simp
  | smallint i =>
    refine ⟨_, rfl, fun storage p h => ?_⟩
    refine (word_roundTrip (fun w => smallint (UInt16.ofNat w).toInt16) i.toUInt16.toNat_lt h).trans ?_
    simp
  | integer i =>
    refine ⟨_, rfl, fun storage p h => ?_⟩
    refine (word_roundTrip (fun w => integer (UInt32.ofNat w).toInt32) i.toUInt32.toNat_lt h).trans ?_
    simp
  | bigint i =>
    refine ⟨_, rfl, fun storage p h => ?_⟩
    refine (word_roundTrip (fun w => bigint (UInt64.ofNat w).toInt64) i.toUInt64.toNat_lt h).trans ?_
    simp
  | decimal bits =>
    refine ⟨_, rfl, fun storage p h => ?_⟩
    refine (word_roundTrip (fun w => decimal (UInt64.ofNat w)) bits.toNat_lt h).trans ?_
    simp
  | varchar data => exact ⟨_, rfl, fun storage p h => deserializeVarlen_serializeVarlen varchar data h⟩
  | timestamp i =>
    refine ⟨_, rfl, fun storage p h => ?_⟩
    refine (word_roundTrip (fun w => timestamp (UInt64.ofNat w)) i.toNat_lt h).trans ?_
    simp
  | vector data => exact ⟨_, rfl, fun storage p h => deserializeVarlen_serializeVarlen vector data h⟩

/-- What is read as a type has that type. -/
theorem getTypeId_deserializeFrom {type : TypeId} {v : Value} (h : deserializeFrom storage p type = .ok v) :
    v.getTypeId = type := by
  have hvarlen : ∀ make : Option Varlen → Value, deserializeVarlen make storage p = .ok v →
      ∃ data, v = make data := by
    intro make hv
    unfold deserializeVarlen at hv
    obtain ⟨len, -, hv⟩ := bind_eq_ok.mp hv
    dsimp only at hv
    split_ifs at hv with hnull
    · exact ⟨none, (Except.ok.inj hv).symm⟩
    · obtain ⟨data, -, hv⟩ := bind_eq_ok.mp hv
      split_ifs at hv with hlen
      exact ⟨_, (Except.ok.inj hv).symm⟩
  cases type with
  | invalid => cases h
  | varchar =>
    obtain ⟨data, rfl⟩ := hvarlen varchar h
    rfl
  | vector =>
    obtain ⟨data, rfl⟩ := hvarlen vector h
    rfl
  | _ =>
    obtain ⟨w, -, hv⟩ := bind_eq_ok.mp h
    rw [← Except.ok.inj hv]
    rfl

end RoundTrip

end Journey.SqlType
