import Journey.Lib.SignedInts
import Journey.Bustub.Type.IntegerCasts

/-!
# Journey.Bustub.Type.IntegerWidths — integers of four widths, as they are stored

The integer types once more, one level below `Value`: the fields of the class, with the null flag in `size_.len_` and the
number in a member of the union `value_`.  The six comparisons read the members in their own widths, and C++ converts
them to a common one; the casts test a range, convert, and build a new value.

* `IntegerValue`: the fields, and the invariant that every constructor keeps.
* `IntegerValue.compare`, `IntegerValue.castAs`: the code, type by type.
* `number`: the integer that a value represents, or nothing for NULL.
* `castAs_eq`: what all sixteen casts do.
* `integer_widths`: comparisons and casts against the integers.
* `compare_toValue`, `castAs_toValue`: the comparisons and casts of `Value` are the ones of the stored values.
-/

namespace Journey.SqlType

/-! ## Stored values -/

section Stored

namespace IntType

/-- `BUSTUB_INT8_NULL` and its siblings. -/
def nullRep (t : IntType) : BitVec t.bits := BitVec.intMin t.bits

/-- `BUSTUB_INT8_MIN` and its siblings. -/
def minRep (t : IntType) : BitVec t.bits := BitVec.intMin t.bits + 1

/-- `BUSTUB_INT8_MAX` and its siblings. -/
def maxRep (t : IntType) : BitVec t.bits := BitVec.intMax t.bits

theorem bits_le (t : IntType) : t.bits ≤ 64 := by cases t <;> decide

theorem fits_null (t : IntType) : Fits t.bits t.null := by cases t <;> decide

end IntType

/-- The fields of a `Value` of an integer type: `type_id_`, `size_.len_` and the eight bytes of the union `value_`.  The
member of a value that is not null is not the sentinel. -/
structure IntegerValue where
  typeId : IntType
  len : UInt32
  value : BitVec 64
  not_sentinel : len ≠ valueNull → value.setWidth typeId.bits ≠ typeId.nullRep

namespace IntegerValue

variable {w : ℕ}

/-- `IsNull`. -/
def isNull (v : IntegerValue) : Bool := v.len == valueNull

/-- `GetAs`, and the members of the union. -/
def getAs (w : ℕ) (v : IntegerValue) : BitVec w := v.value.setWidth w

/-- `Value(type)`, on storage that holds `old`. -/
def ofType (old : BitVec 64) (type : IntType) : IntegerValue := ⟨type, valueNull, old, fun h => absurd rfl h⟩

/-- `Value(type, i)`: the four constructors differ in the width of `i` only. -/
def make (old : BitVec 64) (type : IntType) (i : BitVec w) : IntegerValue :=
  -- the assignment to the member converts
  let member := staticCast type.bits i
  { typeId := type
    len := if member = type.nullRep then valueNull else 0
    value := storeLow old member
    not_sentinel := by
      intro hlen
      rw [setWidth_storeLow old member type.bits_le]
      exact fun hnull => hlen (if_pos hnull) }

end IntegerValue

end Stored

/-! ## Comparisons -/

section Comparisons

/-- The C++ operator on two signed integers, which are converted to their common type. -/
def ComparisonType.onBits {v w : ℕ} (op : ComparisonType) (x : BitVec v) (y : BitVec w) : Bool :=
  let x := staticCast (commonBits v w) x
  let y := staticCast (commonBits v w) y
  match op with
  | .equal => x == y
  | .notEqual => x != y
  | .lessThan => x.slt y
  | .lessThanOrEqual => x.sle y
  | .greaterThan => y.slt x
  | .greaterThanOrEqual => y.sle x

namespace IntegerValue

variable {w : ℕ}

/-- `TINYINT_COMPARE_FUNC`, `SMALLINT_COMPARE_FUNC`, `INT_COMPARE_FUNC` and `BIGINT_COMPARE_FUNC` on integers; `x` is the
member of the left value. -/
def compareFunc (op : ComparisonType) (x : BitVec w) (right : IntegerValue) : CmpBool :=
  match right.typeId with
  | .tinyint => getCmpBool (op.onBits x (right.getAs 8))
  | .smallint => getCmpBool (op.onBits x (right.getAs 16))
  | .integer => getCmpBool (op.onBits x (right.getAs 32))
  | .bigint => getCmpBool (op.onBits x (right.getAs 64))

/-- The comparison with `op`.  The two assertions, and the throw behind the macro, are about other types. -/
def compare (left : IntegerValue) (op : ComparisonType) (right : IntegerValue) : CmpBool :=
  if left.isNull || right.isNull then .cmpNull
  else
    match left.typeId with
    | .tinyint => compareFunc op (left.getAs 8) right
    | .smallint => compareFunc op (left.getAs 16) right
    | .integer => compareFunc op (left.getAs 32) right
    | .bigint => compareFunc op (left.getAs 64) right

end IntegerValue

end Comparisons

/-! ## Casts -/

section Casts

namespace IntegerValue

variable {w : ℕ} (old : BitVec 64) (val : IntegerValue)

/-- `Copy`. -/
def copy : IntegerValue := make old val.typeId (val.getAs val.typeId.bits)

/-- The test for null that every branch begins with. -/
def nullOr (type : IntType) (body : Except Fault IntegerValue) : Except Fault IntegerValue :=
  if val.isNull then .ok (make old type type.nullRep) else body

/-- The range test of the branches that narrow. -/
def inRange (type : IntType) (x : BitVec w) (body : Except Fault IntegerValue) : Except Fault IntegerValue :=
  if ComparisonType.greaterThan.onBits x type.maxRep || ComparisonType.lessThan.onBits x type.minRep then
    .error outOfRange
  else body

/-- A branch that converts `x`. -/
def convert (type : IntType) (x : BitVec w) : Except Fault IntegerValue :=
  .ok (make old type (staticCast type.bits x))

/-- `TinyintType::CastAs`. -/
def tinyintCastAs : IntType → Except Fault IntegerValue
  | .tinyint => nullOr old val .tinyint (.ok (copy old val))
  | .smallint => nullOr old val .smallint (convert old .smallint (val.getAs 8))
  | .integer => nullOr old val .integer (convert old .integer (val.getAs 8))
  | .bigint => nullOr old val .bigint (convert old .bigint (val.getAs 8))

/-- `SmallintType::CastAs`. -/
def smallintCastAs : IntType → Except Fault IntegerValue
  | .tinyint => nullOr old val .tinyint (inRange .tinyint (val.getAs 16) (convert old .tinyint (val.getAs 16)))
  | .smallint => nullOr old val .smallint (.ok (copy old val))
  | .integer => nullOr old val .integer (convert old .integer (val.getAs 16))
  | .bigint => nullOr old val .bigint (convert old .bigint (val.getAs 16))

/-- `IntegerType::CastAs`: the only one that converts to its own type. -/
def integerCastAs : IntType → Except Fault IntegerValue
  | .tinyint => nullOr old val .tinyint (inRange .tinyint (val.getAs 32) (convert old .tinyint (val.getAs 32)))
  | .smallint => nullOr old val .smallint (inRange .smallint (val.getAs 32) (convert old .smallint (val.getAs 32)))
  | .integer => nullOr old val .integer (convert old .integer (val.getAs 32))
  | .bigint => nullOr old val .bigint (convert old .bigint (val.getAs 32))

/-- `BigintType::CastAs`. -/
def bigintCastAs : IntType → Except Fault IntegerValue
  | .tinyint => nullOr old val .tinyint (inRange .tinyint (val.getAs 64) (convert old .tinyint (val.getAs 64)))
  | .smallint => nullOr old val .smallint (inRange .smallint (val.getAs 64) (convert old .smallint (val.getAs 64)))
  | .integer => nullOr old val .integer (inRange .integer (val.getAs 64) (convert old .integer (val.getAs 64)))
  | .bigint => nullOr old val .bigint (.ok (copy old val))

/-- `CastAs`, on the integer types. -/
def castAs (type : IntType) : Except Fault IntegerValue :=
  match val.typeId with
  | .tinyint => tinyintCastAs old val type
  | .smallint => smallintCastAs old val type
  | .integer => integerCastAs old val type
  | .bigint => bigintCastAs old val type

end IntegerValue

end Casts

/-! ## The integers -/

section Numbers

/-- The mathematical relation. -/
def ComparisonType.rel : ComparisonType → Int → Int → Prop
  | .equal, a, b => a = b
  | .notEqual, a, b => a ≠ b
  | .lessThan, a, b => a < b
  | .lessThanOrEqual, a, b => a ≤ b
  | .greaterThan, a, b => a > b
  | .greaterThanOrEqual, a, b => a ≥ b

variable {t : IntType} {n : Int} {v w : ℕ} {val left right : IntegerValue} {op : ComparisonType}

/-- **The operators compare the numbers**, whatever the widths. -/
theorem onBits_iff (op : ComparisonType) (x : BitVec v) (y : BitVec w) :
    op.onBits x y = true ↔ op.rel x.toInt y.toInt := by
  have hx := toInt_staticCast_of_le x (le_commonBits_left v w)
  have hy := toInt_staticCast_of_le y (le_commonBits_right v w)
  have heq : staticCast (commonBits v w) x = staticCast (commonBits v w) y ↔ x.toInt = y.toInt := by
    rw [← BitVec.toInt_inj, hx, hy]
  unfold ComparisonType.onBits
  cases op with
  | equal => exact beq_iff_eq.trans heq
  | notEqual => exact bne_iff_ne.trans (not_congr heq)
  | lessThan => exact BitVec.slt_iff_toInt_lt.trans (by rw [hx, hy]; rfl)
  | lessThanOrEqual => exact BitVec.sle_iff_toInt_le.trans (by rw [hx, hy]; rfl)
  | greaterThan => exact BitVec.slt_iff_toInt_lt.trans (by rw [hx, hy]; rfl)
  | greaterThanOrEqual => exact BitVec.sle_iff_toInt_le.trans (by rw [hx, hy]; rfl)

theorem toInt_nullRep (t : IntType) : t.nullRep.toInt = t.null := by cases t <;> decide

theorem toInt_minRep (t : IntType) : t.minRep.toInt = t.min := by cases t <;> decide

theorem toInt_maxRep (t : IntType) : t.maxRep.toInt = t.max := by cases t <;> decide

/-- The range without the sentinel. -/
theorem min_le_le_max_iff : t.min ≤ n ∧ n ≤ t.max ↔ FitsBoth t.bits n := by
  have hnull := t.two_mul_null
  unfold IntType.max IntType.min FitsBoth
  omega

namespace IntegerValue

/-- What the member of the value's type holds. -/
def payload (v : IntegerValue) : Int := (v.getAs v.typeId.bits).toInt

/-- The integer that a value represents, or nothing for NULL. -/
def number (v : IntegerValue) : Option Int := if v.isNull then none else some v.payload

theorem number_eq_none : val.number = none ↔ val.isNull = true := by
  unfold number
  split_ifs with h <;> simp [h]

theorem number_eq_some : val.number = some n ↔ val.isNull = false ∧ val.payload = n := by
  unfold number
  split_ifs with h <;> simp [h]

theorem payload_ne_null (h : val.isNull = false) : val.payload ≠ val.typeId.null := by
  have hlen : val.len ≠ valueNull := by simpa [isNull] using h
  intro hnull
  refine val.not_sentinel hlen (BitVec.eq_of_toInt_eq ?_)
  rw [toInt_nullRep]
  exact hnull

/-- A value that is not null has a number in its range. -/
theorem fitsBoth_payload (h : val.isNull = false) : FitsBoth val.typeId.bits val.payload :=
  IntType.fitsBoth_iff.mpr ⟨fits_toInt _, payload_ne_null h⟩

variable {old : BitVec 64}

theorem getAs_make (t : IntType) (x : BitVec w) : (make old t x).getAs t.bits = staticCast t.bits x :=
  setWidth_storeLow old _ t.bits_le

/-- The constructors keep the number if it is one of the type, and not its sentinel. -/
theorem number_make {x : BitVec w} (h : FitsBoth t.bits x.toInt) : (make old t x).number = some x.toInt := by
  have hcast : (staticCast t.bits x).toInt = x.toInt := by rw [toInt_staticCast, wrap_eq_self h.fits]
  have hne : staticCast t.bits x ≠ t.nullRep := by
    intro heq
    rw [heq, toInt_nullRep] at hcast
    exact (IntType.fitsBoth_iff.mp h).2 hcast.symm
  refine number_eq_some.mpr ⟨?_, ?_⟩
  · show ((if staticCast t.bits x = t.nullRep then valueNull else 0) == valueNull) = false
    rw [if_neg hne]
    rfl
  · show ((make old t x).getAs t.bits).toInt = x.toInt
    rw [getAs_make, hcast]

theorem number_make_null (t : IntType) : (make old t t.nullRep).number = none := by
  refine number_eq_none.mpr ?_
  show ((if staticCast t.bits t.nullRep = t.nullRep then valueNull else 0) == valueNull) = true
  rw [if_pos (staticCast_self _)]
  rfl

end IntegerValue

end Numbers

/-! ## What the code computes -/

section Code

namespace IntegerValue

variable {t : IntType} {w : ℕ} {val left right : IntegerValue} {old : BitVec 64}

/-- All sixteen pairs of types compare the members of the two values. -/
theorem compare_eq (hleft : left.isNull = false) (hright : right.isNull = false) (op : ComparisonType) :
    left.compare op right =
      getCmpBool (op.onBits (left.getAs left.typeId.bits) (right.getAs right.typeId.bits)) := by
  unfold compare
  rw [hleft, hright]
  obtain ⟨t1, len1, value1, h1⟩ := left
  obtain ⟨t2, len2, value2, h2⟩ := right
  cases t1 <;> cases t2 <;> rfl

theorem compare_null (h : left.isNull = true ∨ right.isNull = true) (op : ComparisonType) :
    left.compare op right = .cmpNull := by
  unfold compare
  rw [if_pos (by simpa using h)]

theorem inRange_eq (t : IntType) (x : BitVec w) (body : Except Fault IntegerValue) :
    inRange t x body = if t.min ≤ x.toInt ∧ x.toInt ≤ t.max then body else .error outOfRange := by
  have hhi := onBits_iff .greaterThan x t.maxRep
  have hlo := onBits_iff .lessThan x t.minRep
  rw [toInt_maxRep] at hhi
  rw [toInt_minRep] at hlo
  change _ ↔ x.toInt > t.max at hhi
  change _ ↔ x.toInt < t.min at hlo
  unfold inRange
  simp only [Bool.or_eq_true, hhi, hlo]
  split_ifs
  · omega
  · rfl
  · rfl
  · omega

theorem convert_eq (t : IntType) (x : BitVec w) : convert old t x = .ok (make old t x) := by
  unfold convert make
  simp only [staticCast_self]

/-- What a cast makes of a value that is not null: its number if it is in the range of the target. -/
def fitted (old : BitVec 64) (val : IntegerValue) (t : IntType) : Except Fault IntegerValue :=
  if t.min ≤ val.payload ∧ val.payload ≤ t.max then .ok (make old t (val.getAs val.typeId.bits)) else .error outOfRange

/-- A branch without a range test needs none. -/
theorem widened (h : val.typeId.bits ≤ t.bits) :
    nullOr old val t (.ok (make old t (val.getAs val.typeId.bits))) = nullOr old val t (fitted old val t) := by
  by_cases hnull : val.isNull = true
  · unfold nullOr
    rw [if_pos hnull, if_pos hnull]
  · have hrange := min_le_le_max_iff.mpr ((fitsBoth_payload (Bool.not_eq_true _ ▸ hnull)).mono h)
    unfold fitted
    rw [if_pos hrange]

theorem narrowed (old : BitVec 64) (val : IntegerValue) (t : IntType) :
    nullOr old val t (inRange t (val.getAs val.typeId.bits) (.ok (make old t (val.getAs val.typeId.bits)))) =
      nullOr old val t (fitted old val t) := by
  rw [inRange_eq]
  rfl

/-- **All sixteen casts**: NULL becomes NULL, a number in the range of the target is kept, another one refused. -/
theorem castAs_eq (old : BitVec 64) (val : IntegerValue) (t : IntType) :
    val.castAs old t = nullOr old val t (fitted old val t) := by
  obtain ⟨source, len, value, hsentinel⟩ := val
  cases source with
  | tinyint =>
    cases t with
    | tinyint => exact widened (Nat.le_refl _)
    | _ =>
      simp only [castAs, tinyintCastAs, convert_eq]
      exact widened (by simp [IntType.bits])
  | smallint =>
    cases t with
    | tinyint =>
      simp only [castAs, smallintCastAs, convert_eq]
      exact narrowed old _ _
    | smallint => exact widened (Nat.le_refl _)
    | _ =>
      simp only [castAs, smallintCastAs, convert_eq]
      exact widened (by simp [IntType.bits])
  | integer =>
    cases t with
    | tinyint | smallint =>
      simp only [castAs, integerCastAs, convert_eq]
      exact narrowed old _ _
    | integer | bigint =>
      simp only [castAs, integerCastAs, convert_eq]
      exact widened (by simp [IntType.bits])
  | bigint =>
    cases t with
    | bigint => exact widened (Nat.le_refl _)
    | _ =>
      simp only [castAs, bigintCastAs, convert_eq]
      exact narrowed old _ _

end IntegerValue

end Code

/-! ## Against the integers -/

section Widths

namespace IntegerValue

variable {t : IntType} {n : Int} {val left right r : IntegerValue} {old : BitVec 64}

theorem getCmpBool_ne_null (b : Bool) : getCmpBool b ≠ .cmpNull := by cases b <;> decide

theorem compare_eq_null_iff (op : ComparisonType) :
    left.compare op right = .cmpNull ↔ left.number = none ∨ right.number = none := by
  rw [number_eq_none, number_eq_none]
  refine ⟨fun h => ?_, fun h => compare_null h op⟩
  by_contra hnull
  push Not at hnull
  rw [compare_eq (Bool.not_eq_true _ ▸ hnull.1) (Bool.not_eq_true _ ▸ hnull.2)] at h
  exact getCmpBool_ne_null _ h

/-- Values that are not null are compared as their numbers. -/
theorem compare_number {a b : Int} (hleft : left.number = some a) (hright : right.number = some b)
    (op : ComparisonType) :
    (left.compare op right = .cmpTrue ↔ op.rel a b) ∧ (left.compare op right = .cmpFalse ↔ ¬ op.rel a b) := by
  obtain ⟨hnull1, rfl⟩ := number_eq_some.mp hleft
  obtain ⟨hnull2, rfl⟩ := number_eq_some.mp hright
  have hiff := onBits_iff op (left.getAs left.typeId.bits) (right.getAs right.typeId.bits)
  change _ ↔ op.rel left.payload right.payload at hiff
  rw [compare_eq hnull1 hnull2, ← hiff]
  cases op.onBits (left.getAs left.typeId.bits) (right.getAs right.typeId.bits) <;> decide

/-- The value built in the target's type has the number. -/
theorem castAs_null (h : val.number = none) (old : BitVec 64) (t : IntType) :
    val.castAs old t = .ok (make old t t.nullRep) := by
  rw [castAs_eq]
  exact if_pos (number_eq_none.mp h)

theorem castAs_number (h : val.number = some n) (old : BitVec 64) (t : IntType) :
    val.castAs old t =
      if t.min ≤ n ∧ n ≤ t.max then .ok (make old t (val.getAs val.typeId.bits)) else .error outOfRange := by
  obtain ⟨hnull, rfl⟩ := number_eq_some.mp h
  rw [castAs_eq]
  unfold nullOr
  rw [hnull]
  rfl

/-- A number in the range of the target is kept. -/
theorem castAs_in_range (h : val.number = some n) (hrange : t.min ≤ n ∧ n ≤ t.max) (old : BitVec 64) :
    ∃ r, val.castAs old t = .ok r ∧ r.typeId = t ∧ r.number = some n := by
  refine ⟨make old t (val.getAs val.typeId.bits), ?_, rfl, ?_⟩
  · rw [castAs_number h, if_pos hrange]
  · obtain ⟨-, rfl⟩ := number_eq_some.mp h
    exact number_make (min_le_le_max_iff.mp hrange)

/-- The cast says that the number is out of range. -/
def OutOfRange (answer : Except Fault IntegerValue) : Prop := ∃ msg, answer = .error (.exception .outOfRange msg)

theorem castAs_outOfRange_iff (val : IntegerValue) (old : BitVec 64) (t : IntType) :
    OutOfRange (val.castAs old t) ↔ ∃ n, val.number = some n ∧ ¬ (t.min ≤ n ∧ n ≤ t.max) := by
  cases h : val.number with
  | none =>
    rw [castAs_null h]
    refine iff_of_false ?_ ?_
    · rintro ⟨msg, hmsg⟩
      cases hmsg
    · rintro ⟨n, hn, -⟩
      cases hn
  | some n =>
    rw [castAs_number h]
    by_cases hrange : t.min ≤ n ∧ n ≤ t.max
    · rw [if_pos hrange]
      refine iff_of_false ?_ ?_
      · rintro ⟨msg, hmsg⟩
        cases hmsg
      · rintro ⟨m, hm, hout⟩
        cases hm
        exact hout hrange
    · rw [if_neg hrange]
      exact iff_of_true ⟨_, rfl⟩ ⟨n, rfl, hrange⟩

/-- A cast to a type that is as wide keeps the number, or NULL. -/
theorem castAs_widen (val : IntegerValue) (old : BitVec 64) (h : val.typeId.bits ≤ t.bits) :
    ∃ r, val.castAs old t = .ok r ∧ r.typeId = t ∧ r.number = val.number := by
  cases hn : val.number with
  | none => exact ⟨_, castAs_null hn old t, rfl, number_make_null t⟩
  | some n =>
    obtain ⟨hnull, rfl⟩ := number_eq_some.mp hn
    exact castAs_in_range hn (min_le_le_max_iff.mpr ((fitsBoth_payload hnull).mono h)) old

/-- What is cast back to a type in which its number is one keeps it. -/
theorem castAs_back (hnumber : r.number = val.number) (old : BitVec 64) :
    ∃ back, r.castAs old val.typeId = .ok back ∧ back.typeId = val.typeId ∧ back.number = val.number := by
  cases hn : val.number with
  | none =>
    rw [hn] at hnumber
    exact ⟨_, castAs_null hnumber old _, rfl, number_make_null _⟩
  | some n =>
    rw [hn] at hnumber
    obtain ⟨hnull, rfl⟩ := number_eq_some.mp hn
    exact castAs_in_range hnumber (min_le_le_max_iff.mpr (fitsBoth_payload hnull)) old

/-- **Comparisons and casts across the widths.**  For all values of integer types, nulls included, and whatever the
storage of a new value held: a comparison answers NULL exactly if an operand is NULL, and else compares the integers; a
cast to an integer type maps NULL to NULL, keeps an integer in the range of the target that is not its sentinel, and
throws `OUT_OF_RANGE` exactly for the others; and a cast to a type that is as wide and back is the identity. -/
theorem integer_widths (v w : IntegerValue) :
    (∀ op, (v.compare op w = .cmpNull ↔ v.number = none ∨ w.number = none) ∧
      ∀ a b, v.number = some a → w.number = some b →
        (v.compare op w = .cmpTrue ↔ op.rel a b) ∧ (v.compare op w = .cmpFalse ↔ ¬ op.rel a b)) ∧
    (∀ old t,
      (v.number = none → ∃ r, v.castAs old t = .ok r ∧ r.typeId = t ∧ r.number = none) ∧
      (∀ n, v.number = some n → t.min ≤ n ∧ n ≤ t.max →
        ∃ r, v.castAs old t = .ok r ∧ r.typeId = t ∧ r.number = some n) ∧
      (OutOfRange (v.castAs old t) ↔ ∃ n, v.number = some n ∧ ¬ (t.min ≤ n ∧ n ≤ t.max))) ∧
    ∀ old old' t, v.typeId.bits ≤ t.bits →
      ∃ r back, v.castAs old t = .ok r ∧ r.castAs old' v.typeId = .ok back ∧ back.typeId = v.typeId ∧
        back.number = v.number := by
  refine ⟨?_, ?_, ?_⟩
  · intro op
    exact ⟨compare_eq_null_iff op, fun a b ha hb => compare_number ha hb op⟩
  · intro old t
    refine ⟨?_, ?_, castAs_outOfRange_iff v old t⟩
    · intro hnull
      exact ⟨_, castAs_null hnull old t, rfl, number_make_null t⟩
    · intro n hn hrange
      exact castAs_in_range hn hrange old
  · intro old old' t hle
    obtain ⟨r, hr, -, hnumber⟩ := castAs_widen v old hle
    obtain ⟨back, hback, htype, hsame⟩ := castAs_back hnumber old'
    exact ⟨r, back, hr, hback, htype, hsame⟩

end IntegerValue

end Widths

/-! ## One level up -/

section Values

variable {t t1 t2 : IntType} {n : Int} {v w : Value} {op : ComparisonType}

/-- The comparisons of `Value` order the numbers with `Ord.compare`. -/
theorem holds_compare_iff (op : ComparisonType) (a b : Int) : op.holds (Ord.compare a b) = true ↔ op.rel a b := by
  rcases Int.lt_trichotomy a b with h | h | h
  · rw [compare_lt_iff_lt.mpr h]
    cases op <;> simp [ComparisonType.holds, ComparisonType.rel] <;> omega
  · rw [compare_eq_iff_eq.mpr h]
    cases op <;> simp [ComparisonType.holds, ComparisonType.rel] <;> omega
  · rw [compare_gt_iff_gt.mpr h]
    cases op <;> simp [ComparisonType.holds, ComparisonType.rel] <;> omega

/-- Where both types are integers, the assertion holds and the macro has a branch. -/
theorem compare_integers (hv : v.intType = some t1) (hw : w.intType = some t2) (op : ComparisonType) :
    v.compare op w = if v.isNull || w.isNull then .ok .cmpNull else .ok (op.onInt v.intValue w.intValue) := by
  cases v with
  | tinyint i =>
    cases w <;> cases hw
    all_goals rfl
  | smallint i =>
    cases w <;> cases hw
    all_goals rfl
  | integer i =>
    cases w <;> cases hw
    all_goals rfl
  | bigint i =>
    cases w <;> cases hw
    all_goals rfl
  | _ => cases hv

theorem castInteger_eq (name : String) (isNull : Bool) (hn : isNull = false → FitsBoth 64 n) (t : IntType) :
    Value.castInteger name isNull n t.typeId =
      if isNull then .ok (t.value t.null) else Value.narrow t.min t.max t.value n := by
  cases t with
  | bigint =>
    cases isNull with
    | true => rfl
    | false =>
      have hrange : ¬ (IntType.bigint.max < n ∨ n < IntType.bigint.min) := by
        have := min_le_le_max_iff (t := .bigint).mpr (hn rfl)
        omega
      show Except.ok _ = Value.narrow _ _ _ _
      unfold Value.narrow
      rw [if_neg hrange]
      rfl
  | _ => rfl

/-- The sentinel of a payload, and the length that its constructor writes. -/
theorem beq_eq_isNull {α : Type} [DecidableEq α] (i null : α) :
    (i == null) = ((if i = null then valueNull else 0) == valueNull) := by
  rw [Bool.eq_iff_iff, len_null_iff, beq_iff_eq]

/-- Every integer type casts its number. -/
theorem castAs_integer (hv : v.intType = some t1) (t : IntType) :
    v.castAs t.typeId =
      if v.isNull then .ok (t.value t.null) else Value.narrow t.min t.max t.value v.intValue := by
  have hfits : v.isNull = false → FitsBoth 64 v.intValue := by
    intro hnull
    have hne : v.intValue ≠ t1.null := fun h => by
      rw [(Value.isNull_iff hv).mpr h] at hnull
      cases hnull
    exact (IntType.fitsBoth_iff.mpr ⟨Value.fits_intValue hv, hne⟩).mono t1.bits_le
  have hcast : ∃ name, v.castAs t.typeId = Value.castInteger name v.isNull v.intValue t.typeId := by
    cases v with
    | tinyint i => exact ⟨"tinyint", congrArg (Value.castInteger _ · _ _) (beq_eq_isNull i int8Null)⟩
    | smallint i => exact ⟨"smallint", congrArg (Value.castInteger _ · _ _) (beq_eq_isNull i int16Null)⟩
    | integer i => exact ⟨"Integer", congrArg (Value.castInteger _ · _ _) (beq_eq_isNull i int32Null)⟩
    | bigint i => exact ⟨"bigint", congrArg (Value.castInteger _ · _ _) (beq_eq_isNull i int64Null)⟩
    | _ => cases hv
  obtain ⟨name, hname⟩ := hcast
  rw [hname]
  exact castInteger_eq name v.isNull hfits t

namespace IntegerValue

variable {val left right : IntegerValue} {old : BitVec 64}

/-- The `Value` that is stored: of the same type, with the same number. -/
def toValue (val : IntegerValue) : Value := val.typeId.value (val.number.getD val.typeId.null)

theorem intType_toValue (val : IntegerValue) : val.toValue.intType = some val.typeId := IntType.intType_value _ _

theorem intValue_toValue (h : val.isNull = false) : val.toValue.intValue = val.payload := by
  unfold toValue
  rw [number_eq_some.mpr ⟨h, rfl⟩, IntType.intValue_value]
  exact wrap_eq_self (fits_toInt _)

theorem isNull_toValue (val : IntegerValue) : val.toValue.isNull = val.isNull := by
  rw [Bool.eq_iff_iff, Value.isNull_iff (intType_toValue val)]
  by_cases h : val.isNull = true
  · refine iff_of_true ?_ h
    unfold toValue
    rw [number_eq_none.mpr h, IntType.intValue_value]
    exact wrap_eq_self val.typeId.fits_null
  · refine iff_of_false ?_ h
    rw [intValue_toValue (Bool.not_eq_true _ ▸ h)]
    exact payload_ne_null (Bool.not_eq_true _ ▸ h)

/-- Every `Value` of an integer type is stored somehow. -/
theorem exists_toValue_eq {v : Value} {t : IntType} (h : v.intType = some t) : ∃ val : IntegerValue, val.toValue = v := by
  have hv : t.value v.intValue = v := by
    cases v with
    | tinyint i =>
      cases h
      exact congrArg Value.tinyint (Int8.ofInt_toInt i)
    | smallint i =>
      cases h
      exact congrArg Value.smallint (Int16.ofInt_toInt i)
    | integer i =>
      cases h
      exact congrArg Value.integer (Int32.ofInt_toInt i)
    | bigint i =>
      cases h
      exact congrArg Value.bigint (Int64.ofInt_toInt i)
    | _ => cases h
  by_cases hnull : v.isNull = true
  · refine ⟨ofType 0 t, ?_⟩
    rw [← hv, (Value.isNull_iff h).mp hnull]
    rfl
  · have hfits := Value.fitsBoth_intValue h (Bool.not_eq_true _ ▸ hnull)
    have hint : (BitVec.ofInt t.bits v.intValue).toInt = v.intValue := by
      rw [BitVec.toInt_ofInt]
      exact wrap_eq_self hfits.fits
    rw [← hint] at hfits
    refine ⟨make 0 t (BitVec.ofInt t.bits v.intValue), ?_⟩
    unfold toValue
    rw [number_make hfits, hint]
    exact hv

/-- **The comparisons of `Value`** are those of the stored values. -/
theorem compare_toValue (left right : IntegerValue) (op : ComparisonType) :
    left.toValue.compare op right.toValue = .ok (left.compare op right) := by
  rw [compare_integers (intType_toValue left) (intType_toValue right), isNull_toValue, isNull_toValue]
  by_cases hnull : left.isNull = true ∨ right.isNull = true
  · rw [if_pos (by simpa using hnull), compare_null hnull]
  · rw [if_neg (by simpa using hnull)]
    push Not at hnull
    have hleft : left.isNull = false := Bool.not_eq_true _ ▸ hnull.1
    have hright : right.isNull = false := Bool.not_eq_true _ ▸ hnull.2
    rw [intValue_toValue hleft, intValue_toValue hright, compare_eq hleft hright]
    have hsame : op.holds (Ord.compare left.payload right.payload) =
        op.onBits (left.getAs left.typeId.bits) (right.getAs right.typeId.bits) := by
      rw [Bool.eq_iff_iff, holds_compare_iff, onBits_iff]
      rfl
    unfold ComparisonType.onInt
    rw [hsame]

/-- **The casts of `Value`** to the integer types are those of the stored values. -/
theorem castAs_toValue (old : BitVec 64) (val : IntegerValue) (t : IntType) :
    val.toValue.castAs t.typeId = (val.castAs old t).map toValue := by
  rw [castAs_integer (intType_toValue val), isNull_toValue]
  by_cases hnull : val.isNull = true
  · rw [if_pos hnull, castAs_null (number_eq_none.mpr hnull)]
    show _ = Except.ok (make old t t.nullRep).toValue
    unfold toValue
    rw [number_make_null]
    rfl
  · have hfalse : val.isNull = false := Bool.not_eq_true _ ▸ hnull
    rw [if_neg hnull, intValue_toValue hfalse, castAs_number (number_eq_some.mpr ⟨hfalse, rfl⟩)]
    unfold Value.narrow
    by_cases hrange : t.min ≤ val.payload ∧ val.payload ≤ t.max
    · rw [if_pos hrange, if_neg (by omega)]
      show _ = Except.ok (make old t (val.getAs val.typeId.bits)).toValue
      unfold toValue
      rw [number_make (min_le_le_max_iff.mp hrange)]
      rfl
    · rw [if_neg hrange, if_pos (by omega)]
      rfl

end IntegerValue

end Values

end Journey.SqlType
