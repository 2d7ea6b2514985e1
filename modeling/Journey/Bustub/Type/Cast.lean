import Journey.Bustub.Type.Value
import Mathlib.Data.UInt

/-!
# Journey.Bustub.Type.Cast — texts of values and casts

`ToString` and `CastAs` of every type.  A `std::string` is a list of bytes; a `VARCHAR` holds such a
string with a zero byte behind it.

* `stoi`, `stod`: the conversions of the C++ library, with what they throw.
* `intText`, `doubleText`, `booleanText`, `timestampText`, `varlenText`: `ToString`, type by type.
* `Value.castAs`: `CastAs`, dispatched on the type of the value.
-/

namespace Journey.SqlType

/-! ## Texts -/

section Texts

/-- The bytes of a literal. -/
def ascii (s : String) : List UInt8 := s.toList.map fun c => UInt8.ofNat c.toNat

/-- A text as the message of an exception. -/
def messageOf (bytes : List UInt8) : String := String.ofList (bytes.map fun b => Char.ofNat b.toNat)

/-- `isspace`. -/
def isSpace (b : UInt8) : Bool := b == 32 || (9 ≤ b && b ≤ 13)

/-- `isdigit`. -/
def isDigit (b : UInt8) : Bool := 48 ≤ b && b ≤ 57

/-- `tolower`. -/
def toLower (b : UInt8) : UInt8 := if 65 ≤ b && b ≤ 90 then b + 32 else b

/-- The number that a list of decimal digits denotes. -/
def ofDigits (ds : List UInt8) : ℕ := ds.foldl (fun n d => 10 * n + (d.toNat - 48)) 0

/-- An optional sign, and what is behind it. -/
def readSign : List UInt8 → Bool × List UInt8
  | [] => (false, [])
  | b :: s => if b = 45 then (true, s) else if b = 43 then (false, s) else (false, b :: s)

/-- `strtoll`: the numeral at the beginning of the text; nothing if there is none. -/
def numeral (s : List UInt8) : Option Int :=
  let (neg, s) := readSign (s.dropWhile isSpace)
  let ds := s.takeWhile isDigit
  if ds.isEmpty then none else some (if neg then -(ofDigits ds : Int) else ofDigits ds)

/-- The exception that `CastAs` throws for a number out of range. -/
def outOfRange : Fault := .exception .outOfRange "Numeric value out of range."

/-- `stoi` and `stoll`, by their name and the range of what they return.  `std::out_of_range` is caught
by every caller. -/
def stringTo (name : String) (lo hi : Int) (s : List UInt8) : Except Fault Int :=
  match numeral s with
  | none => .error (.logicError name)
  | some n => if n < lo ∨ hi < n then .error outOfRange else .ok n

/-- `stoi`. -/
def stoi : List UInt8 → Except Fault Int := stringTo "stoi" Int32.minValue.toInt Int32.maxValue.toInt

/-- `stoll`. -/
def stoll : List UInt8 → Except Fault Int := stringTo "stoll" Int64.minValue.toInt Int64.maxValue.toInt

/-- The digits of a number in hexadecimal notation. -/
def hexDigit (b : UInt8) : Option ℕ :=
  if isDigit b then some (b.toNat - 48)
  else if 97 ≤ toLower b && toLower b ≤ 102 then some (b.toNat % 32 + 9) else none

/-- The exponent behind the letter `e`, or 0 if there is no numeral behind it. -/
def exponentOf (e : UInt8) : List UInt8 → Int
  | [] => 0
  | b :: s =>
    let (neg, s) := readSign s
    let ds := s.takeWhile isDigit
    if toLower b = e ∧ ¬ ds.isEmpty then (if neg then -(ofDigits ds : Int) else ofDigits ds) else 0

/-- A mantissa with an optional fraction: all of its digits, how many stand behind the point, and what
follows. -/
def mantissaOf (digit : UInt8 → Bool) (s : List UInt8) : List UInt8 × ℕ × List UInt8 :=
  let whole := s.takeWhile digit
  match s.dropWhile digit with
  | [] => (whole, 0, [])
  | b :: rest =>
    if b = 46 then (whole ++ rest.takeWhile digit, (rest.takeWhile digit).length, rest.dropWhile digit)
    else (whole, 0, b :: rest)

/-- `m * 10^e` as a `double`, rounded to the nearest; `ERANGE` where it overflows, or underflows and is
not exact. -/
def scientific (m : ℕ) (e : Int) : Except Fault Float :=
  let x := if e < 0 then Float.ofScientific m true e.natAbs else Float.ofScientific m false e.natAbs
  if x.isInf then .error outOfRange
  else if e < 0 ∧ m * 2 ^ 1022 < 10 ^ e.natAbs ∧ (m * 2 ^ 1074) % 10 ^ e.natAbs ≠ 0 then .error outOfRange
  else .ok x

/-- `strtod` behind the sign; nothing if there is no number. -/
def unsignedDouble (s : List UInt8) : Option (Except Fault Float) :=
  let lower := s.map toLower
  if (ascii "inf").isPrefixOf lower then some (.ok (1.0 / 0.0))
  else if (ascii "nan").isPrefixOf lower then some (.ok (0.0 / 0.0))
  else
    let (hex, fraction, rest) := mantissaOf (fun b => (hexDigit b).isSome) (s.drop 2)
    if (ascii "0x").isPrefixOf lower ∧ ¬ hex.isEmpty then
      let m := hex.foldl (fun n d => 16 * n + (hexDigit d).getD 0) 0
      let e := exponentOf 112 rest - 4 * fraction
      -- `m * 2^e` in decimal
      some (if 0 ≤ e then scientific (m * 2 ^ e.natAbs) 0 else scientific (m * 5 ^ e.natAbs) e)
    else
      let (ds, fraction, rest) := mantissaOf isDigit s
      if ds.isEmpty then none else some (scientific (ofDigits ds) (exponentOf 101 rest - fraction))

/-- `stod`, on the bits of the `double`. -/
def stod (s : List UInt8) : Except Fault Float :=
  let (neg, s) := readSign (s.dropWhile isSpace)
  match unsignedDouble s with
  | none => .error (.logicError "stod")
  | some (.error e) => .error e
  | some (.ok x) => .ok (if neg then -x else x)

end Texts

/-! ## ToString -/

section ToString

/-- `std::to_string` of an integer. -/
def intText (n : Int) : List UInt8 := ascii (toString n)

/-- `%0kd`. -/
def padded (k n : ℕ) : List UInt8 :=
  let ds := ascii (toString n)
  List.replicate (k - ds.length) 48 ++ ds

/-- `std::to_string` of a `double`. -/
def doubleText (bits : UInt64) : List UInt8 :=
  let x := Float.ofBits bits
  if x.isNaN then ascii (if bits < 2 ^ 63 then "nan" else "-nan") else ascii x.toString

/-- `BooleanType::ToString`, on the byte it reads. -/
def booleanText (i : Int8) : List UInt8 :=
  if i = 1 then ascii "true" else if i = 0 then ascii "false" else ascii "boolean_null"

/-- `TimestampType::ToString`: the fields are packed from the microseconds up; the sign of the time zone
overwrites what stands at position 26. -/
def timestampText (i : UInt64) : List UInt8 :=
  if i = timestampNull then ascii "timestamp_null"
  else
    let tm := i.toNat
    let second := tm / 1000000 % 100000
    let year := tm / 100000000000 % 10000
    let tz := (tm / 1000000000000000 % 27 : Int) - 12
    let day := tm / 27000000000000000 % 32
    let month := tm / 864000000000000000 % 2 ^ 16
    let date := padded 4 year ++ [45] ++ padded 2 month ++ [45] ++ padded 2 day ++ [32] ++
      padded 2 (second / 3600 % 24) ++ [58] ++ padded 2 (second / 60 % 60) ++ [58] ++ padded 2 (second % 60) ++
      [46] ++ padded 6 (tm % 1000000)
    date.take 26 ++ [if 0 ≤ tz then 43 else 45] ++ padded 2 tz.natAbs

/-- `VarlenType::ToString`: without the last byte. -/
def varlenText : Option Varlen → List UInt8
  | none => ascii "varlen_null"
  | some data => data.1.dropLast

end ToString

/-! ## CastAs -/

section Cast

/-- `TypeIdToString`. -/
def typeIdToString : TypeId → String
  | .invalid => "INVALID"
  | .boolean => "BOOLEAN"
  | .tinyint => "TINYINT"
  | .smallint => "SMALLINT"
  | .integer => "INTEGER"
  | .bigint => "BIGINT"
  | .decimal => "DECIMAL"
  | .timestamp => "TIMESTAMP"
  | .varchar => "VARCHAR"
  | .vector => "VECTOR"

/-- What `new char[len]` with a `uint32_t` length and a `memcpy` keep of the bytes; a length of
`BUSTUB_VALUE_NULL` marks the value as null. -/
def varlenOf (bytes : List UInt8) : Option Varlen :=
  let kept := bytes.take (bytes.length % 2 ^ 32)
  if h : kept.length < 2 ^ 32 - 1 then some ⟨kept, h⟩ else none

/-- `Value(TypeId::VARCHAR, const std::string &)`: the bytes with a zero behind them. -/
def stringValue (s : List UInt8) : Value := .varchar (varlenOf (s ++ [0]))

namespace Value

/-- The cast of an integer type, on the number that is not null: the range of the target without its
null sentinel, and the constructor. -/
def narrow (lo hi : Int) (make : Int → Value) (n : Int) : Except Fault Value :=
  if hi < n ∨ n < lo then .error outOfRange else .ok (make n)

/-- `CastAs` of the four integer types; `name` is how the type calls itself in the message.  Where the
target is as wide as the type, or wider, the range test of the narrower ones always passes. -/
def castInteger (name : String) (isNull : Bool) (n : Int) : TypeId → Except Fault Value
  | .tinyint => if isNull then .ok (tinyint int8Null) else narrow (-127) 127 (tinyint ∘ Int8.ofInt) n
  | .smallint => if isNull then .ok (smallint int16Null) else narrow (-32767) 32767 (smallint ∘ Int16.ofInt) n
  | .integer =>
    if isNull then .ok (integer int32Null) else narrow (-2147483647) 2147483647 (integer ∘ Int32.ofInt) n
  | .bigint =>
    if isNull then .ok (bigint int64Null) else .ok (bigint (Int64.ofInt n))
  | .decimal => .ok (decimal (if isNull then decimalNull else (Float.ofInt n).toBits))
  | .varchar => .ok (if isNull then varchar none else stringValue (intText n))
  | type => .error (.exception .invalid (name ++ " is not coercable to " ++ typeIdToString type))

/-- `BooleanType::CastAs`. -/
def castBoolean (i : Int8) : TypeId → Except Fault Value
  | .boolean => .ok (boolean i)
  | .varchar => .ok (if i = booleanNull then varchar none else stringValue (booleanText i))
  | type => .error (.exception .invalid ("BOOLEAN is not coercable to " ++ typeIdToString type))

/-- The cast of a `double` to an integer type: a range test, then a truncation. -/
def castTruncated (isNull : Bool) (null : Value) (tooLarge : Float → Bool) (lo : Int) (make : Float → Value)
    (x : Float) : Except Fault Value :=
  if isNull then .ok null
  else if tooLarge x ∨ x < Float.ofInt lo then .error outOfRange else .ok (make x)

/-- `DecimalType::CastAs`.  The bound of `BIGINT` is tested with `>=`. -/
def castDecimal (bits : UInt64) (type : TypeId) : Except Fault Value :=
  let x := Float.ofBits bits
  let isNull := bits == decimalNull
  match type with
  | .tinyint => castTruncated isNull (tinyint int8Null) (· > Float.ofInt 127) (-127) (tinyint ·.toInt8) x
  | .smallint =>
    castTruncated isNull (smallint int16Null) (· > Float.ofInt 32767) (-32767) (smallint ·.toInt16) x
  | .integer =>
    castTruncated isNull (integer int32Null) (· > Float.ofInt 2147483647) (-2147483647) (integer ·.toInt32) x
  | .bigint =>
    castTruncated isNull (bigint int64Null) (· ≥ Float.ofInt 9223372036854775807) (-9223372036854775807)
      (bigint ·.toInt64) x
  | .decimal => .ok (decimal bits)
  | .varchar => .ok (if isNull then varchar none else stringValue (doubleText bits))
  | type => .error (.exception .invalid ("DECIMAL is not coercable to " ++ typeIdToString type))

/-- `VarlenType::CastAs`. -/
def castVarchar (data : Option Varlen) : TypeId → Except Fault Value
  | .boolean =>
    let str := (varlenText data).map toLower
    if str = ascii "true" ∨ str = ascii "1" ∨ str = ascii "t" then .ok (boolean 1)
    else if str = ascii "false" ∨ str = ascii "0" ∨ str = ascii "f" then .ok (boolean 0)
    else .error (.exception .invalid "Boolean value format error.")
  | .tinyint => do
    -- cut to `int8_t` before the range is tested
    let i := Int8.ofInt (← stoi (varlenText data))
    if i < -127 then throw outOfRange
    return tinyint i
  | .smallint => do
    let i := Int16.ofInt (← stoi (varlenText data))
    if i < -32767 then throw outOfRange
    return smallint i
  | .integer => do
    let i := Int32.ofInt (← stoi (varlenText data))
    if i < -2147483647 then throw outOfRange
    return integer i
  | .bigint => do
    let i := Int64.ofInt (← stoll (varlenText data))
    if i < -9223372036854775807 then throw outOfRange
    return bigint i
  | .decimal => do
    let x ← stod (varlenText data)
    -- `BUSTUB_DECIMAL_MAX` and the lowest `float`, `BUSTUB_DECIMAL_MIN`
    if x > Float.ofBits 0x7FEFFFFFFFFFFFFF ∨ x < Float.ofBits 0xC7EFFFFFE0000000 then throw outOfRange
    return decimal x.toBits
  | .varchar => .ok (varchar data)
  | type => .error (.exception .invalid ("VARCHAR is not coercable to " ++ typeIdToString type))

/-- `TimestampType::CastAs`.  Its message holds the value as the target type would print it. -/
def castTimestamp (i : UInt64) : TypeId → Except Fault Value
  | .timestamp => .ok (timestamp i)
  | .varchar => .ok (if i = timestampNull then varchar none else stringValue (timestampText i))
  | .invalid => .error (.exception .notImplemented "ToString not implemented")
  | .boolean =>
    .error (.exception .invalid ("TIMESTAMP is not coercable to " ++ messageOf (booleanText i.toUInt8.toInt8)))
  | .decimal =>
    let text := if i = timestampNull then ascii "decimal_null" else doubleText i
    .error (.exception .invalid ("TIMESTAMP is not coercable to " ++ messageOf text))
  | .vector =>
    let text := if i = timestampNull then "vector_null" else ""
    .error (.exception .invalid ("TIMESTAMP is not coercable to " ++ text))
  | _ => .error .assertion

/-- `CastAs`. -/
def castAs : Value → TypeId → Except Fault Value
  | invalid, _ => .error (.exception .notImplemented "CastAs not implemented")
  | boolean i, type => castBoolean i type
  | tinyint i, type => castInteger "tinyint" (i == int8Null) i.toInt type
  | smallint i, type => castInteger "smallint" (i == int16Null) i.toInt type
  | integer i, type => castInteger "Integer" (i == int32Null) i.toInt type
  | bigint i, type => castInteger "bigint" (i == int64Null) i.toInt type
  | decimal bits, type => castDecimal bits type
  | varchar data, type => castVarchar data type
  | timestamp i, type => castTimestamp i type
  | vector _, _ => .error (.logicError "vector type cast not supported")

end Value

end Cast

end Journey.SqlType
