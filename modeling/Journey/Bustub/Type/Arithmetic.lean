import Journey.Lib.TwosComplement
import Journey.Bustub.Type.Compare

/-!
# Journey.Bustub.Type.Arithmetic — arithmetic of the integer types

`Add`, `Subtract`, `Multiply`, `Divide` and `Modulo` of the four integer types.  Both operands are promoted to a common
type of at least 32 bits; the result, which wraps around there, is cast to the types of the operands and tested after
the fact.

* `addValue`, `subtractValue`, `multiplyValue`, `divideValue`, `moduloValue`: the templates of `IntegerParentType`.
* `Value.arithmetic op`: the operation, dispatched on the types of the values.
* `ExactOrRefused`: what an operation should answer, in terms of the exact result.
* `exact_or_refused_iff`: it answers so exactly if the exact result is not the sentinel of NULL.
-/

namespace Journey.SqlType

/-! ## The integer types -/

section Types

inductive IntType
  | tinyint
  | smallint
  | integer
  | bigint
deriving DecidableEq, Repr

namespace IntType

def typeId : IntType → TypeId
  | tinyint => .tinyint
  | smallint => .smallint
  | integer => .integer
  | bigint => .bigint

/-- `sizeof`, in bits. -/
def bits : IntType → ℕ
  | tinyint => 8
  | smallint => 16
  | integer => 32
  | bigint => 64

/-- `BUSTUB_INT8_NULL` and its siblings, as numbers. -/
def null : IntType → Int
  | tinyint => -128
  | smallint => -32768
  | integer => -2147483648
  | bigint => -9223372036854775808

/-- `Value(type, n)`. -/
def value : IntType → Int → Value
  | tinyint, n => .tinyint (Int8.ofInt n)
  | smallint, n => .smallint (Int16.ofInt n)
  | integer, n => .integer (Int32.ofInt n)
  | bigint, n => .bigint (Int64.ofInt n)

/-- The wider of two types. -/
def wider (t1 t2 : IntType) : IntType := if t2.bits ≤ t1.bits then t1 else t2

/-- The bits of the common type of two operands: nothing is computed in less than an `int`. -/
def commonBits (t1 t2 : IntType) : ℕ := max 32 (max t1.bits t2.bits)

end IntType

/-- The integer type of a value, if it has one. -/
def Value.intType : Value → Option IntType
  | .tinyint _ => some .tinyint
  | .smallint _ => some .smallint
  | .integer _ => some .integer
  | .bigint _ => some .bigint
  | _ => none

end Types

/-! ## The templates -/

section Templates

variable (t1 t2 : IntType) (x y : Int)

/-- What `AddValue`, `SubtractValue` and `MultiplyValue` do with a result of the common type: it has to be one of the
two types, and pass the operation's own test for overflow as a number of the wider one. -/
def checkedValue (result : Int) (overflows : Int → Bool) : Except Fault Value :=
  let result1 := wrap t1.bits result
  let result2 := wrap t2.bits result
  if result ≠ result1 ∧ result ≠ result2 then .error outOfRange
  else if t2.bits ≤ t1.bits then
    if overflows result1 then .error outOfRange else .ok (t1.value result1)
  else if overflows result2 then .error outOfRange else .ok (t2.value result2)

def addValue : Except Fault Value :=
  checkedValue t1 t2 (wrap (t1.commonBits t2) (x + y)) fun sum =>
    (x > 0 ∧ y > 0 ∧ sum < 0) ∨ (x < 0 ∧ y < 0 ∧ sum > 0)

def subtractValue : Except Fault Value :=
  checkedValue t1 t2 (wrap (t1.commonBits t2) (x - y)) fun diff =>
    (x > 0 ∧ y < 0 ∧ diff < 0) ∨ (x < 0 ∧ y > 0 ∧ diff > 0)

def multiplyValue : Except Fault Value :=
  checkedValue t1 t2 (wrap (t1.commonBits t2) (x * y)) fun prod =>
    y ≠ 0 ∧ wrap (t1.commonBits t2) (prod.tdiv y) ≠ x

/-- What `DivideValue` and `ModuloValue` do with a result of the common type. -/
def castValue (result : Int) : Except Fault Value :=
  if y = 0 then .error (.exception .divideByZero "Division by zero.")
  else if t2.bits ≤ t1.bits then .ok (t1.value (wrap t1.bits result)) else .ok (t2.value (wrap t2.bits result))

def divideValue : Except Fault Value := castValue t1 t2 y (wrap (t1.commonBits t2) (x.tdiv y))

def moduloValue : Except Fault Value := castValue t1 t2 y (wrap (t1.commonBits t2) (x.tmod y))

end Templates

/-! ## The operations -/

section Operations

inductive ArithmeticOp
  | add
  | subtract
  | multiply
  | divide
  | modulo
deriving DecidableEq, Repr

/-- `std::trunc`. -/
def truncDouble (x : Float) : Float := if x < 0 then x.ceil else x.floor

namespace ArithmeticOp

/-- The name in the message of `Type`'s own operation. -/
def name : ArithmeticOp → String
  | add => "Add"
  | subtract => "Subtract"
  | multiply => "Multiply"
  | divide => "Divide"
  | modulo => "Modulo"

/-- The template of the operation. -/
def onIntegers : ArithmeticOp → IntType → IntType → Int → Int → Except Fault Value
  | add => addValue
  | subtract => subtractValue
  | multiply => multiplyValue
  | divide => divideValue
  | modulo => moduloValue

/-- The operation on two `double`s; `ValMod` is the one of `Modulo`. -/
def onDoubles : ArithmeticOp → Float → Float → Float
  | add, x, y => x + y
  | subtract, x, y => x - y
  | multiply, x, y => x * y
  | divide, x, y => x / y
  | modulo, x, y => x - truncDouble (x / y) * y

/-- `Divide` and `Modulo` ask whether the right value is zero. -/
def divides : ArithmeticOp → Bool
  | divide | modulo => true
  | _ => false

end ArithmeticOp

namespace Value

/-- `IsZero`. -/
def isZero : Value → Except Fault Bool
  | tinyint i => .ok (i == 0)
  | smallint i => .ok (i == 0)
  | integer i => .ok (i == 0)
  | bigint i => .ok (i == 0)
  | decimal bits => .ok (Float.ofBits bits == 0)
  | _ => .error (.exception .notImplemented "isZero not implemented")

/-- `OperateNull` of the integer types: the NULL of the wider type. -/
def operateNull (t : IntType) (right : Value) : Except Fault Value :=
  match right.intType, right with
  | some t2, _ => .ok ((t.wider t2).value (t.wider t2).null)
  | none, decimal _ => .ok (decimal decimalNull)
  | none, _ => .error (.exception .invalid "type error")

/-- The `MODIFY_FUNC` of the integer types: `t` is the type of the left value, `n` its number. -/
def modifyInteger (op : ArithmeticOp) (t : IntType) (n : Int) : Value → Except Fault Value
  | tinyint i => op.onIntegers t .tinyint n i.toInt
  | smallint i => op.onIntegers t .smallint n i.toInt
  | integer i => op.onIntegers t .integer n i.toInt
  | bigint i => op.onIntegers t .bigint n i.toInt
  | decimal bits => .ok (decimal (op.onDoubles (Float.ofInt n) (Float.ofBits bits)).toBits)
  | varchar data => do
    let r ← castVarchar data t.typeId
    op.onIntegers t t n r.intValue
  | _ => .error (.exception .invalid "type error")

/-- `DECIMAL_MODIFY_FUNC`. -/
def modifyDecimal (op : ArithmeticOp) (x : Float) : Value → Except Fault Value
  | tinyint i => .ok (decimal (op.onDoubles x (Float.ofInt i.toInt)).toBits)
  | smallint i => .ok (decimal (op.onDoubles x (Float.ofInt i.toInt)).toBits)
  | integer i => .ok (decimal (op.onDoubles x (Float.ofInt i.toInt)).toBits)
  | bigint i => .ok (decimal (op.onDoubles x (Float.ofInt i.toInt)).toBits)
  | decimal bits => .ok (decimal (op.onDoubles x (Float.ofBits bits)).toBits)
  | varchar data => do
    match ← castVarchar data .decimal with
    | decimal bits => return decimal (op.onDoubles x (Float.ofBits bits)).toBits
    | _ => throw .outOfBounds
  | _ => .error (.exception .invalid "type error")

/-- What the operations of the numeric types begin with: the assertion, the nulls, and a divisor that is zero. -/
def operands (op : ArithmeticOp) (left right : Value) (null body : Except Fault Value) : Except Fault Value :=
  if !left.checkComparable right then .error .assertion
  else if left.isNull || right.isNull then null
  else if op.divides then do
    if ← right.isZero then throw (.exception .divideByZero "Division by zero on right-hand side")
    body
  else body

/-- The operation, dispatched on the type of the left value. -/
def arithmetic (op : ArithmeticOp) (left right : Value) : Except Fault Value :=
  match left with
  | tinyint i => operands op left right (operateNull .tinyint right) (modifyInteger op .tinyint i.toInt right)
  | smallint i => operands op left right (operateNull .smallint right) (modifyInteger op .smallint i.toInt right)
  | integer i => operands op left right (operateNull .integer right) (modifyInteger op .integer i.toInt right)
  | bigint i => operands op left right (operateNull .bigint right) (modifyInteger op .bigint i.toInt right)
  | decimal bits =>
    operands op left right (.ok (decimal decimalNull)) (modifyDecimal op (Float.ofBits bits) right)
  | _ => .error (.exception .notImplemented (op.name ++ " not implemented"))

/-- `Add`. -/
def add (left right : Value) : Except Fault Value := arithmetic .add left right

/-- `Subtract`. -/
def subtract (left right : Value) : Except Fault Value := arithmetic .subtract left right

/-- `Multiply`. -/
def multiply (left right : Value) : Except Fault Value := arithmetic .multiply left right

/-- `Divide`. -/
def divide (left right : Value) : Except Fault Value := arithmetic .divide left right

/-- `Modulo`. -/
def modulo (left right : Value) : Except Fault Value := arithmetic .modulo left right

end Value

end Operations

/-! ## What is exact -/

section Exact

/-- The exact result; there is none if the divisor is zero. -/
def ArithmeticOp.exact : ArithmeticOp → Int → Int → Option Int
  | add, x, y => some (x + y)
  | subtract, x, y => some (x - y)
  | multiply, x, y => some (x * y)
  | divide, x, y => if y = 0 then none else some (x.tdiv y)
  | modulo, x, y => if y = 0 then none else some (x.tmod y)

/-- The answer is the exact result as a value of type `t` that is not null, or says that the result is out of the
range of these values, or that the divisor is zero. -/
def ExactOrRefused (t : IntType) (exact : Option Int) (answer : Except Fault Value) : Prop :=
  match exact with
  | none => ∃ msg, answer = .error (.exception .divideByZero msg)
  | some n =>
    (FitsBoth t.bits n ∧ ∃ v, answer = .ok v ∧ v.intType = some t ∧ v.isNull = false ∧ v.intValue = n) ∨
      (¬ FitsBoth t.bits n ∧ ∃ msg, answer = .error (.exception .outOfRange msg))

variable {t t1 t2 : IntType} {n x y : Int} {v left right : Value}

theorem IntType.bits_pos (t : IntType) : 0 < t.bits := by cases t <;> decide

/-- The sentinel of NULL is the lowest number of its type. -/
theorem IntType.two_mul_null (t : IntType) : 2 * t.null = -2 ^ t.bits := by cases t <;> decide

theorem IntType.fitsBoth_iff : FitsBoth t.bits n ↔ Fits t.bits n ∧ n ≠ t.null := by
  have hnull := t.two_mul_null
  unfold FitsBoth Fits
  omega

@[simp] theorem IntType.intType_value (t : IntType) (n : Int) : (t.value n).intType = some t := by cases t <;> rfl

theorem IntType.intValue_value (t : IntType) (n : Int) : (t.value n).intValue = wrap t.bits n := by
  cases t with
  | tinyint => exact Int8.toInt_ofInt
  | smallint => exact Int16.toInt_ofInt
  | integer => exact Int32.toInt_ofInt
  | bigint => exact Int64.toInt_ofInt

theorem len_null_iff (p : Prop) [Decidable p] : ((if p then valueNull else 0) == valueNull) = true ↔ p := by
  by_cases hp : p <;> simp [hp, valueNull]

theorem Value.isNull_iff (h : v.intType = some t) : v.isNull = true ↔ v.intValue = t.null := by
  cases v with
  | tinyint i =>
    cases h
    exact (len_null_iff (i = int8Null)).trans Int8.toInt_inj.symm
  | smallint i =>
    cases h
    exact (len_null_iff (i = int16Null)).trans Int16.toInt_inj.symm
  | integer i =>
    cases h
    exact (len_null_iff (i = int32Null)).trans Int32.toInt_inj.symm
  | bigint i =>
    cases h
    exact (len_null_iff (i = int64Null)).trans Int64.toInt_inj.symm
  | _ => cases h

theorem Value.fits_intValue (h : v.intType = some t) : Fits t.bits v.intValue := by
  cases v with
  | tinyint i =>
    cases h
    have hlo := i.le_toInt
    have hhi := i.toInt_lt
    constructor <;> simp only [IntType.bits, Value.intValue] <;> omega
  | smallint i =>
    cases h
    have hlo := i.le_toInt
    have hhi := i.toInt_lt
    constructor <;> simp only [IntType.bits, Value.intValue] <;> omega
  | integer i =>
    cases h
    have hlo := i.le_toInt
    have hhi := i.toInt_lt
    constructor <;> simp only [IntType.bits, Value.intValue] <;> omega
  | bigint i =>
    cases h
    have hlo := i.le_toInt
    have hhi := i.toInt_lt
    constructor <;> simp only [IntType.bits, Value.intValue] <;> omega
  | _ => cases h

theorem Value.fitsBoth_intValue (h : v.intType = some t) (hnull : v.isNull = false) : FitsBoth t.bits v.intValue := by
  refine IntType.fitsBoth_iff.mpr ⟨fits_intValue h, fun heq => ?_⟩
  rw [(isNull_iff h).mpr heq] at hnull
  cases hnull

/-- A number in range, as a value. -/
theorem exactOrRefused_value (h : Fits t.bits n) :
    ExactOrRefused t (some n) (.ok (t.value n)) ↔ n ≠ t.null := by
  have hint : (t.value n).intValue = n := by rw [t.intValue_value, wrap_eq_self h]
  have hnull : (t.value n).isNull = true ↔ n = t.null := by rw [Value.isNull_iff (t.intType_value n), hint]
  constructor
  · rintro (⟨hfits, -⟩ | ⟨-, msg, hmsg⟩)
    · exact (IntType.fitsBoth_iff.mp hfits).2
    · cases hmsg
  · intro hne
    refine .inl ⟨IntType.fitsBoth_iff.mpr ⟨h, hne⟩, _, rfl, t.intType_value n, ?_, hint⟩
    rw [← Bool.not_eq_true, hnull]
    exact hne

theorem exactOrRefused_refused (h : ¬ Fits t.bits n) : ExactOrRefused t (some n) (.error outOfRange) :=
  .inr ⟨fun hfits => h hfits.fits, _, rfl⟩

end Exact

/-! ## The templates are exact -/

section Templates

variable {t1 t2 : IntType} {x y e : Int}

theorem IntType.wider_cases (t1 t2 : IntType) :
    (t2.bits ≤ t1.bits ∧ t1.wider t2 = t1) ∨ (¬ t2.bits ≤ t1.bits ∧ t1.wider t2 = t2) := by
  unfold IntType.wider
  by_cases h : t2.bits ≤ t1.bits
  · exact .inl ⟨h, if_pos h⟩
  · exact .inr ⟨h, if_neg h⟩

theorem IntType.bits_le_wider (t1 t2 : IntType) : t1.bits ≤ (t1.wider t2).bits ∧ t2.bits ≤ (t1.wider t2).bits := by
  rcases t1.wider_cases t2 with ⟨hle, heq⟩ | ⟨hlt, heq⟩ <;> rw [heq] <;> omega

theorem IntType.wider_le_common (t1 t2 : IntType) : (t1.wider t2).bits ≤ t1.commonBits t2 := by
  unfold IntType.commonBits
  rcases t1.wider_cases t2 with ⟨hle, heq⟩ | ⟨hlt, heq⟩ <;> rw [heq] <;> omega

/-- If the test for overflow tells whether the common type held the exact result, the checked result is the exact
one, as long as it fits the wider type. -/
theorem checkedValue_eq {overflows : Int → Bool}
    (hov : overflows (wrap (t1.commonBits t2) e) = true ↔ ¬ Fits (t1.commonBits t2) e) :
    checkedValue t1 t2 (wrap (t1.commonBits t2) e) overflows =
      if Fits (t1.wider t2).bits e then .ok ((t1.wider t2).value e) else .error outOfRange := by
  have hcommon := t1.wider_le_common t2
  generalize t1.commonBits t2 = c at *
  generalize hr : wrap c e = r at *
  unfold checkedValue
  by_cases hfits : Fits (t1.wider t2).bits e
  · -- the common type holds the exact result, and so does the wider one
    rw [if_pos hfits]
    have hexact : r = e := hr.symm.trans (wrap_eq_self (hfits.mono hcommon))
    subst hexact
    have hno : overflows r = false := by
      rw [← Bool.not_eq_true, hov]
      exact not_not.mpr (hfits.mono hcommon)
    have hwrap := wrap_eq_self hfits
    rcases t1.wider_cases t2 with ⟨hle, heq⟩ | ⟨hlt, heq⟩
    · rw [heq] at hwrap ⊢
      simp [hwrap, hle, hno]
    · rw [heq] at hwrap ⊢
      simp [hwrap, hlt, hno]
  · rw [if_neg hfits]
    -- a result that fits the wider type is not the exact one, so the test for overflow finds it
    have hfound : Fits (t1.wider t2).bits r → wrap (t1.wider t2).bits r = r ∧ overflows r = true := by
      intro hr'
      refine ⟨wrap_eq_self hr', hov.mpr fun hexact => hfits ?_⟩
      rw [← hr, wrap_eq_self hexact] at hr'
      exact hr'
    dsimp only
    by_cases htest : r ≠ wrap t1.bits r ∧ r ≠ wrap t2.bits r
    · rw [if_pos htest]
    · have hr' : Fits (t1.wider t2).bits r := by
        rw [not_and_or, not_not, not_not] at htest
        rcases htest with h1 | h2
        · exact ((wrap_eq_self_iff t1.bits_pos).mp h1.symm).mono (t1.bits_le_wider t2).1
        · exact ((wrap_eq_self_iff t2.bits_pos).mp h2.symm).mono (t1.bits_le_wider t2).2
      obtain ⟨hwrap, hover⟩ := hfound hr'
      rw [if_neg htest]
      rcases t1.wider_cases t2 with ⟨hle, heq⟩ | ⟨hlt, heq⟩
      · rw [heq] at hwrap
        rw [if_pos hle, hwrap, if_pos hover]
      · rw [heq] at hwrap
        rw [if_neg hlt, hwrap, if_pos hover]

/-- A result that fits the wider type survives the casts. -/
theorem castValue_eq (hy : y ≠ 0) (hfits : Fits (t1.wider t2).bits e) :
    castValue t1 t2 y (wrap (t1.commonBits t2) e) = .ok ((t1.wider t2).value e) := by
  unfold castValue
  rw [if_neg hy, wrap_eq_self (hfits.mono (t1.wider_le_common t2))]
  have hwrap := wrap_eq_self hfits
  rcases t1.wider_cases t2 with ⟨hle, heq⟩ | ⟨hlt, heq⟩
  · rw [heq] at hwrap ⊢
    rw [if_pos hle, hwrap]
  · rw [heq] at hwrap ⊢
    rw [if_neg hlt, hwrap]

theorem IntType.common_pos (t1 t2 : IntType) : 0 < t1.commonBits t2 :=
  t1.bits_pos.trans_le ((t1.bits_le_wider t2).1.trans (t1.wider_le_common t2))

/-- **Each template computes the exact result**, as long as it fits the wider type, and refuses it otherwise. -/
theorem onIntegers_eq (op : ArithmeticOp) (hx : FitsBoth t1.bits x) (hy : FitsBoth t2.bits y)
    (hdiv : op.divides = true → y ≠ 0) :
    ∃ e, op.exact x y = some e ∧ op.onIntegers t1 t2 x y =
      if Fits (t1.wider t2).bits e then .ok ((t1.wider t2).value e) else .error outOfRange := by
  have hpos := t1.common_pos t2
  have hx' := hx.mono ((t1.bits_le_wider t2).1.trans (t1.wider_le_common t2))
  have hy' := hy.mono ((t1.bits_le_wider t2).2.trans (t1.wider_le_common t2))
  cases op with
  | add =>
    refine ⟨x + y, rfl, ?_⟩
    show addValue t1 t2 x y = _
    refine checkedValue_eq ?_
    rw [decide_eq_true_iff]
    exact add_overflow_iff hpos hx' hy'
  | subtract =>
    refine ⟨x - y, rfl, ?_⟩
    show subtractValue t1 t2 x y = _
    refine checkedValue_eq ?_
    rw [decide_eq_true_iff]
    exact sub_overflow_iff hpos hx' hy'
  | multiply =>
    refine ⟨x * y, rfl, ?_⟩
    show multiplyValue t1 t2 x y = _
    refine checkedValue_eq ?_
    rw [decide_eq_true_iff]
    exact mul_overflow_iff hpos hx' hy'
  | divide =>
    have hy0 := hdiv rfl
    have hfits := ((hx.of_abs_le (abs_tdiv_le x y)).mono (t1.bits_le_wider t2).1).fits
    refine ⟨x.tdiv y, if_neg hy0, ?_⟩
    rw [if_pos hfits]
    exact castValue_eq hy0 hfits
  | modulo =>
    have hy0 := hdiv rfl
    have hfits := ((hx.of_abs_le (abs_tmod_le x y)).mono (t1.bits_le_wider t2).1).fits
    refine ⟨x.tmod y, if_neg hy0, ?_⟩
    rw [if_pos hfits]
    exact castValue_eq hy0 hfits

end Templates

/-! ## The operations are exact, up to NULL -/

section Operations

variable {t1 t2 : IntType} {left right : Value}

theorem isZero_eq (h : right.intType = some t2) : right.isZero = .ok (decide (right.intValue = 0)) := by
  cases right with
  | tinyint i => exact congrArg Except.ok (decide_eq_decide.mpr Int8.toInt_inj.symm)
  | smallint i => exact congrArg Except.ok (decide_eq_decide.mpr Int16.toInt_inj.symm)
  | integer i => exact congrArg Except.ok (decide_eq_decide.mpr Int32.toInt_inj.symm)
  | bigint i => exact congrArg Except.ok (decide_eq_decide.mpr Int64.toInt_inj.symm)
  | _ => cases h

theorem modifyInteger_eq (op : ArithmeticOp) (n : Int) (h : right.intType = some t2) :
    Value.modifyInteger op t1 n right = op.onIntegers t1 t2 n right.intValue := by
  cases right <;> cases h <;> rfl

/-- On integers that are not null, an operation asks for a zero divisor and runs its template. -/
theorem arithmetic_eq (op : ArithmeticOp) (hl : left.intType = some t1) (hr : right.intType = some t2)
    (hln : left.isNull = false) (hrn : right.isNull = false) :
    Value.arithmetic op left right =
      if op.divides = true ∧ right.intValue = 0 then
        .error (.exception .divideByZero "Division by zero on right-hand side")
      else op.onIntegers t1 t2 left.intValue right.intValue := by
  have hcmp : left.checkComparable right = true := by
    cases left <;> cases hl <;> cases right <;> cases hr <;> rfl
  have hop : Value.arithmetic op left right =
      Value.operands op left right (Value.operateNull t1 right) (Value.modifyInteger op t1 left.intValue right) := by
    cases left <;> cases hl <;> rfl
  rw [hop, ← modifyInteger_eq op _ hr]
  unfold Value.operands
  rw [hcmp, hln, hrn, isZero_eq hr]
  by_cases hd : op.divides = true
  · by_cases hzero : right.intValue = 0
    · simp [hd, hzero]
      rfl
    · simp [hd, hzero]
  · simp [hd]

/-- **Integer arithmetic is exact or refused, up to NULL.**  For all integer values that are not null, each operation
answers with the exact result as a value of the wider type that is not null, or refuses it since there is none,
exactly if the exact result is not the sentinel of the wider type. -/
theorem exact_or_refused_iff (op : ArithmeticOp) (left right : Value) (t1 t2 : IntType)
    (hl : left.intType = some t1) (hr : right.intType = some t2) (hln : left.isNull = false)
    (hrn : right.isNull = false) :
    ExactOrRefused (t1.wider t2) (op.exact left.intValue right.intValue) (left.arithmetic op right) ↔
      op.exact left.intValue right.intValue ≠ some (t1.wider t2).null := by
  rw [arithmetic_eq op hl hr hln hrn]
  by_cases hzero : op.divides = true ∧ right.intValue = 0
  · -- there is no exact result, and the operation says so
    have hnone : op.exact left.intValue right.intValue = none := by
      obtain ⟨hd, h0⟩ := hzero
      cases op <;> cases hd <;> exact if_pos h0
    rw [if_pos hzero, hnone]
    exact iff_of_true ⟨_, rfl⟩ (by simp)
  · have hdiv : op.divides = true → right.intValue ≠ 0 := fun hd h0 => hzero ⟨hd, h0⟩
    obtain ⟨e, he, happ⟩ := onIntegers_eq op (Value.fitsBoth_intValue hl hln) (Value.fitsBoth_intValue hr hrn) hdiv
    rw [if_neg hzero, he, happ]
    by_cases hfits : Fits (t1.wider t2).bits e
    · rw [if_pos hfits, exactOrRefused_value hfits]
      simp
    · rw [if_neg hfits]
      refine iff_of_true (exactOrRefused_refused hfits) ?_
      rintro hnull
      have h2 := (t1.wider t2).two_mul_null
      have hpos : (0 : Int) < 2 ^ (t1.wider t2).bits := by positivity
      refine hfits ?_
      rw [Option.some.inj hnull]
      constructor <;> omega

/-- The product of two corner values of different widths is refused. -/
theorem exact_or_refused_iff_corner :
    ExactOrRefused .integer (some (-2147483647 * 127)) ((Value.integer (-2147483647)).multiply (.tinyint 127)) :=
  (exact_or_refused_iff .multiply (.integer (-2147483647)) (.tinyint 127) .integer .tinyint rfl rfl rfl rfl).mpr
    (by decide)

/-- The sum of two `TINYINT`s that is out of range by one is NULL. -/
theorem sum_is_null :
    ¬ ExactOrRefused .tinyint (some (-100 + -28)) ((Value.tinyint (-100)).add (.tinyint (-28))) ∧
      ((Value.tinyint (-100)).add (.tinyint (-28))).map Value.isNull = .ok true := by
  have hadd : (Value.tinyint (-100)).add (.tinyint (-28)) = .ok (.tinyint (-128)) := by decide
  rw [hadd]
  refine ⟨?_, rfl⟩
  rintro (⟨hfits, -⟩ | ⟨-, msg, hmsg⟩)
  · revert hfits
    decide
  · cases hmsg

end Operations

end Journey.SqlType
