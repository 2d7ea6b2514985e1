import Journey.Bustub.Type.Cast

/-!
# Journey.Bustub.Type.Compare — comparing values

The six comparisons of every type.  They are written out six times in the source, each time with another
operator; here the operator is a parameter.

* `Value.compare op`: the comparison with `op`, dispatched on the type of the left value.
* `not_null_of_compare_equal`: a NULL is equal to nothing.
* `compare_vector`: no comparison looks into a `VECTOR`.
-/

namespace Journey.SqlType

/-! ## Operators -/

section Operators

/-- `CmpBool`. -/
inductive CmpBool
  | cmpFalse
  | cmpTrue
  | cmpNull
deriving DecidableEq, Repr

/-- `GetCmpBool`. -/
def getCmpBool (b : Bool) : CmpBool := if b then .cmpTrue else .cmpFalse

/-- `ComparisonType`. -/
inductive ComparisonType
  | equal
  | notEqual
  | lessThan
  | lessThanOrEqual
  | greaterThan
  | greaterThanOrEqual
deriving DecidableEq, Repr

namespace ComparisonType

/-- The C++ operator, on operands in the given order. -/
def holds : ComparisonType → Ordering → Bool
  | equal, o => o == .eq
  | notEqual, o => o != .eq
  | lessThan, o => o == .lt
  | lessThanOrEqual, o => o != .gt
  | greaterThan, o => o == .gt
  | greaterThanOrEqual, o => o != .lt

/-- The C++ operator on two `double`s. -/
def holdsDouble : ComparisonType → Float → Float → Bool
  | equal, x, y => x == y
  | notEqual, x, y => !(x == y)
  | lessThan, x, y => x < y
  | lessThanOrEqual, x, y => x ≤ y
  | greaterThan, x, y => y < x
  | greaterThanOrEqual, x, y => y ≤ x

/-- The name in the message of `Type`'s own comparison. -/
def typeName : ComparisonType → String
  | equal => "CompareEquals"
  | notEqual => "CompareNotEquals"
  | lessThan => "CompareLessThan"
  | lessThanOrEqual => "CompareLessThanEqual"
  | greaterThan => "CompareGreaterThan"
  | greaterThanOrEqual => "CompareGreaterThanEqual"

def onInt (op : ComparisonType) (a b : Int) : CmpBool := getCmpBool (op.holds (Ord.compare a b))

def onDouble (op : ComparisonType) (x y : Float) : CmpBool := getCmpBool (op.holdsDouble x y)

end ComparisonType

end Operators

/-! ## Comparisons -/

section Compare

/-- The integer types and `DECIMAL`. -/
def isNumeric : TypeId → Bool
  | .tinyint | .smallint | .integer | .bigint | .decimal => true
  | _ => false

/-- `TypeUtil::CompareStrings`, on the values: the last byte does not count, and a length is an `int`. -/
def compareStrings : Option Varlen → Option Varlen → Except Fault Ordering
  | some l, some r =>
    if 1 ≤ l.1.length ∧ l.1.length ≤ 2 ^ 31 ∧ 1 ≤ r.1.length ∧ r.1.length ≤ 2 ^ 31 then
      .ok (List.compareLex Ord.compare l.1.dropLast r.1.dropLast)
    else .error .assertion
  | _, _ => .error .assertion

namespace Value

/-- `CheckComparable`. -/
def checkComparable (v o : Value) : Bool :=
  match v.getTypeId with
  | .boolean => o.getTypeId == .boolean || o.getTypeId == .varchar
  | .tinyint | .smallint | .integer | .bigint | .decimal =>
    isNumeric o.getTypeId || o.getTypeId == .varchar
  | .varchar => true
  | _ => false

/-- `GetAs` of an integer type, on a value of that type. -/
def intValue : Value → Int
  | tinyint i => i.toInt
  | smallint i => i.toInt
  | integer i => i.toInt
  | bigint i => i.toInt
  | _ => 0

/-- The assertion and the test for nulls that the comparisons begin with. -/
def comparable (left right : Value) (body : Except Fault CmpBool) : Except Fault CmpBool :=
  if !left.checkComparable right then .error .assertion
  else if left.isNull || right.isNull then .ok .cmpNull
  else body

/-- The `COMPARE_FUNC` of the integer types: `type` is the one of the left value, `n` its number. -/
def compareInteger (op : ComparisonType) (type : TypeId) (n : Int) : Value → Except Fault CmpBool
  | tinyint i => .ok (op.onInt n i.toInt)
  | smallint i => .ok (op.onInt n i.toInt)
  | integer i => .ok (op.onInt n i.toInt)
  | bigint i => .ok (op.onInt n i.toInt)
  | decimal bits => .ok (op.onDouble (Float.ofInt n) (Float.ofBits bits))
  | varchar data => do
    let r ← castVarchar data type
    return op.onInt n r.intValue
  | _ => .error (.exception .invalid "type error")

/-- `DECIMAL_COMPARE_FUNC`. -/
def compareDecimal (op : ComparisonType) (x : Float) : Value → Except Fault CmpBool
  | tinyint i => .ok (op.onDouble x (Float.ofInt i.toInt))
  | smallint i => .ok (op.onDouble x (Float.ofInt i.toInt))
  | integer i => .ok (op.onDouble x (Float.ofInt i.toInt))
  | bigint i => .ok (op.onDouble x (Float.ofInt i.toInt))
  | decimal bits => .ok (op.onDouble x (Float.ofBits bits))
  | varchar data => do
    match ← castVarchar data .decimal with
    | decimal bits => return op.onDouble x (Float.ofBits bits)
    | _ => throw .outOfBounds
  | _ => .error (.exception .invalid "type error")

/-- `BOOLEAN_COMPARE_FUNC`. -/
def compareBoolean (op : ComparisonType) (i : Int8) (right : Value) : Except Fault CmpBool := do
  match ← right.castAs .boolean with
  | boolean j => return op.onInt i.toInt j.toInt
  | _ => throw .outOfBounds

/-- `VARLEN_COMPARE_FUNC`. -/
def compareVarlen (op : ComparisonType) (data : Option Varlen) (right : Value) : Except Fault CmpBool := do
  match ← right.castAs .varchar with
  | varchar r =>
    let o ← compareStrings data r
    return getCmpBool (op.holds o)
  | _ => throw .outOfBounds

/-- The comparisons of `TimestampType`: `CompareNotEquals` does not ask whether the left one is null, and
`CompareGreaterThan` reads both as signed numbers. -/
def compareTimestamp (op : ComparisonType) (i : UInt64) (right : Value) : Except Fault CmpBool :=
  if !(timestamp i).checkComparable right then .error .assertion
  else if (op ≠ .notEqual ∧ i = timestampNull) ∨ right.isNull then .ok .cmpNull
  else
    match right with
    | timestamp j =>
      if op = .greaterThan then .ok (op.onInt i.toInt64.toInt j.toInt64.toInt) else .ok (op.onInt i.toNat j.toNat)
    | _ => .error .outOfBounds

/-- The comparison with `op`. -/
def compare (left : Value) (op : ComparisonType) (right : Value) : Except Fault CmpBool :=
  match left with
  | invalid => .error (.exception .notImplemented (op.typeName ++ " not implemented"))
  | boolean i => comparable left right (compareBoolean op i right)
  | tinyint i => comparable left right (compareInteger op .tinyint i.toInt right)
  | smallint i => comparable left right (compareInteger op .smallint i.toInt right)
  | integer i => comparable left right (compareInteger op .integer i.toInt right)
  | bigint i => comparable left right (compareInteger op .bigint i.toInt right)
  | decimal bits => comparable left right (compareDecimal op (Float.ofBits bits) right)
  | varchar data => comparable left right (compareVarlen op data right)
  | timestamp i => compareTimestamp op i right
  | vector _ => .error (.logicError "vector type comparison not supported")

/-- `CompareEquals`. -/
def compareEquals  (left right : Value) : Except Fault CmpBool := left.compare .equal right

/-- `CompareNotEquals`. -/
def compareNotEquals  (left right : Value) : Except Fault CmpBool := left.compare .notEqual right

/-- `CompareLessThan`. -/
def compareLessThan  (left right : Value) : Except Fault CmpBool := left.compare .lessThan right

/-- `CompareLessThanEquals`. -/
def compareLessThanEquals  (left right : Value) : Except Fault CmpBool := left.compare .lessThanOrEqual right

/-- `CompareGreaterThan`. -/
def compareGreaterThan  (left right : Value) : Except Fault CmpBool := left.compare .greaterThan right

/-- `CompareGreaterThanEquals`. -/
def compareGreaterThanEquals  (left right : Value) : Except Fault CmpBool := left.compare .greaterThanOrEqual right

/-- `CompareExactlyEquals`: nulls are equal to each other. -/
def compareExactlyEquals (v o : Value) : Except Fault Bool :=
  if v.isNull && o.isNull then .ok true
  else do
    let c ← compareEquals v o
    return c == .cmpTrue

end Value

end Compare

/-! ## Nulls -/

section Nulls

open Value

variable {v w : Value} {body : Except Fault CmpBool}

theorem not_null_of_comparable (h : comparable v w body = .ok .cmpTrue) : v.isNull = false ∧ w.isNull = false := by
  unfold comparable at h
  split_ifs at h with _ hnull
  · cases h
  · simpa using hnull

/-- **Values that are equal are not null.** -/
theorem not_null_of_compare_equal (h : v.compare .equal w = .ok .cmpTrue) : v.isNull = false ∧ w.isNull = false := by
  cases v with
  | invalid => cases h
  | vector data => cases h
  | timestamp i =>
    -- no value is comparable with a timestamp
    cases h
  | _ => exact not_null_of_comparable h

end Nulls

/-! ## Vectors -/

section Vectors

open Value

theorem isNull_vector (data : Varlen) : (vector (some data)).isNull = false :=
  beq_eq_false_iff_ne.mpr (varlenLen_ne_null data)

/-- **No comparison looks into a vector** that is not null. -/
theorem compare_vector (op : ComparisonType) (v : Value) (d d' : Varlen) :
    v.compare op (vector (some d)) = v.compare op (vector (some d')) := by
  have hnull : (vector (some d)).isNull = (vector (some d')).isNull := by
    rw [isNull_vector, isNull_vector]
  cases v with
  | invalid => rfl
  | vector _ => rfl
  | timestamp i =>
    unfold Value.compare compareTimestamp
    rw [hnull]
    rfl
  | varchar data =>
    show comparable _ _ _ = comparable _ _ _
    unfold comparable
    rw [hnull]
    rfl
  | _ => rfl

end Vectors

end Journey.SqlType
