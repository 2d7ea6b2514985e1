import Journey.Bustub.Type.Arithmetic
import Journey.Bustub.Type.Timestamp

/-!
# Journey.Bustub.Type.IntegerCasts — strings cast to the integer types

A string becomes an integer on two paths: `VarlenType::CastAs` and the `CastAsTinyInt`, `CastAsSmallInt`,
`CastAsInteger` and `CastAsBigInt` of `ValueFactory`.  Both parse with `stoi` (or `stoll`), cut the number to the width
of the target and test for its lowest number.

* `castAsIntType`: the casts of `ValueFactory`, the target a parameter.
* `Numeral`: the strings that are a decimal numeral, and its number.
* `castVarchar_numeral`, `castText_numeral`: what the two paths make of a numeral.
* `string_casts_iff`: they give the number written there, or refuse it, exactly if it is not cut to another one.
-/

namespace Journey.SqlType

/-! ## The casts of `ValueFactory` -/

section Model

namespace IntType

/-- How the messages call the type. -/
def lowerName : IntType → String
  | tinyint => "tinyint"
  | smallint => "smallint"
  | integer => "integer"
  | bigint => "bigint"

/-- `BUSTUB_INT8_MIN` and its siblings. -/
def min (t : IntType) : Int := t.null + 1

/-- `BUSTUB_INT8_MAX` and its siblings. -/
def max (t : IntType) : Int := -t.min

/-- `stoll` for `BIGINT`, `stoi` for the others. -/
def parse : IntType → List UInt8 → Except Fault Int
  | bigint => stoll
  | _ => stoi

/-- The value of a `double` that is cut to an integer. -/
def truncate : IntType → Float → Value
  | tinyint, x => .tinyint x.toInt8
  | smallint, x => .smallint x.toInt16
  | integer, x => .integer x.toInt32
  | bigint, x => .bigint x.toInt64

end IntType

/-- `IsCoercableFrom` of the integer types. -/
def isCoercableFrom (type : TypeId) : Bool := isNumeric type || type == .varchar

/-- The message of a cast that is not there. -/
def notCoercable (valueToString : Value → String) (t : IntType) (value : Value) : Fault :=
  .exception .invalid (valueToString value ++ " is not coercable to " ++ typeIdToString t.typeId ++ ".")

/-- The branch of `TypeId::VARCHAR`: both exceptions of the parser are caught. -/
def castText (t : IntType) (str : List UInt8) : Except Fault Value :=
  match t.parse str with
  | .error (.logicError _) =>
    .error (.exception .invalid ("Invalid input syntax for " ++ t.lowerName ++ ": '" ++ messageOf str ++ "'"))
  | .error e => .error e
  | .ok n =>
    -- `static_cast`, then the test
    let value := t.value n
    if value.intValue < t.min then .error outOfRange else .ok value

/-- `CastAsTinyInt`, `CastAsSmallInt`, `CastAsInteger` and `CastAsBigInt`.  Where the value's type is not wider than
the target, the range test of the wider ones always passes.  A `double` that is not a number, or one past
`BUSTUB_INT64_MAX`, which the test lets through, has no integer to be cut to. -/
def castAsIntType (valueToString : Value → String) (t : IntType) (value : Value) : Except Fault Value :=
  if isCoercableFrom value.getTypeId then
    if value.isNull then .ok (t.value t.null)
    else
      match value with
      | .tinyint i => Value.narrow t.min t.max t.value i.toInt
      | .smallint i => Value.narrow t.min t.max t.value i.toInt
      | .integer i => Value.narrow t.min t.max t.value i.toInt
      | .bigint i => Value.narrow t.min t.max t.value i.toInt
      | .decimal bits =>
        let x := Float.ofBits bits
        if x > Float.ofInt t.max ∨ x < Float.ofInt t.min then .error outOfRange
        else if x.isNaN ∨ x ≥ Float.ofInt (2 ^ 63) then .error .undefined
        else .ok (t.truncate x)
      | .varchar data => castText t (varlenText data)
      | value => .error (notCoercable valueToString t value)
  else .error (notCoercable valueToString t value)

end Model

/-! ## Numerals -/

section Numerals

/-- An optionally signed decimal numeral, and the number it denotes. -/
inductive Numeral : List UInt8 → Int → Prop
  | plain (d : UInt8) (ds : List UInt8) (h : ∀ b ∈ d :: ds, isDigit b = true) : Numeral (d :: ds) (ofDigits (d :: ds))
  | plus (d : UInt8) (ds : List UInt8) (h : ∀ b ∈ d :: ds, isDigit b = true) :
    Numeral (43 :: d :: ds) (ofDigits (d :: ds))
  | minus (d : UInt8) (ds : List UInt8) (h : ∀ b ∈ d :: ds, isDigit b = true) :
    Numeral (45 :: d :: ds) (-ofDigits (d :: ds))

variable {s : List UInt8} {n : Int}

theorem readSign_plus (s : List UInt8) : readSign (43 :: s) = (false, s) := rfl

theorem readSign_minus (s : List UInt8) : readSign (45 :: s) = (true, s) := rfl

/-- The parser reads a numeral, whatever its length. -/
theorem numeral_of_numeral (h : Numeral s n) : numeral s = some n := by
  unfold numeral
  cases h with
  | plain d ds h =>
    have hall : (d :: ds).takeWhile isDigit = d :: ds := List.takeWhile_eq_self_iff.mpr h
    have hd := h d (by simp)
    rw [List.dropWhile_cons_of_neg (by rw [not_space_of_digit hd]; exact Bool.false_ne_true), readSign_digit hd]
    dsimp only
    rw [hall]
    rfl
  | plus d ds h =>
    have hall : (d :: ds).takeWhile isDigit = d :: ds := List.takeWhile_eq_self_iff.mpr h
    rw [List.dropWhile_cons_of_neg (by decide), readSign_plus]
    dsimp only
    rw [hall]
    rfl
  | minus d ds h =>
    have hall : (d :: ds).takeWhile isDigit = d :: ds := List.takeWhile_eq_self_iff.mpr h
    rw [List.dropWhile_cons_of_neg (by decide), readSign_minus]
    dsimp only
    rw [hall]
    rfl

/-- The width in which a target's numbers are parsed. -/
def IntType.parseBits : IntType → ℕ
  | bigint => 64
  | _ => 32

theorem parse_numeral (t : IntType) (h : Numeral s n) :
    t.parse s = if Fits t.parseBits n then .ok n else .error outOfRange := by
  have hto : ∀ name (lo hi : Int), stringTo name lo hi s = if lo ≤ n ∧ n ≤ hi then .ok n else .error outOfRange := by
    intro name lo hi
    unfold stringTo
    rw [numeral_of_numeral h]
    dsimp only
    by_cases hin : lo ≤ n ∧ n ≤ hi
    · rw [if_pos hin, if_neg (by omega)]
    · rw [if_neg hin, if_pos (by omega)]
  have hint : t ≠ .bigint → t.parse s = if Fits 32 n then .ok n else .error outOfRange := by
    intro ht
    have hparse : t.parse s = stringTo "stoi" Int32.minValue.toInt Int32.maxValue.toInt s := by cases t <;> trivial
    rw [hparse, hto]
    refine if_congr ?_ rfl rfl
    show -2147483648 ≤ n ∧ n ≤ 2147483647 ↔ _
    unfold Fits
    omega
  cases t with
  | bigint =>
    show stringTo "stoll" Int64.minValue.toInt Int64.maxValue.toInt s = _
    rw [hto]
    refine if_congr ?_ rfl rfl
    show -9223372036854775808 ≤ n ∧ n ≤ 9223372036854775807 ↔ Fits 64 n
    unfold Fits
    omega
  | _ => exact hint (by decide)

end Numerals

/-! ## Both paths -/

section Paths

variable {t : IntType} {data : Option Varlen} {n : Int}

/-- What both paths make of a number: they parse it, cut it, and test the cut one for the lowest number. -/
def cutNumber (t : IntType) (n : Int) : Except Fault Value :=
  if Fits t.parseBits n then
    if wrap t.bits n = t.null then .error outOfRange else .ok (t.value n)
  else .error outOfRange

theorem lt_min_iff (t : IntType) (n : Int) : (t.value n).intValue < t.min ↔ wrap t.bits n = t.null := by
  have hfits := fits_wrap t.bits_pos n
  have hnull := t.two_mul_null
  rw [t.intValue_value]
  unfold IntType.min Fits at *
  omega

/-- `VarlenType::CastAs` to an integer type, on a text that is parsed. -/
theorem castVarchar_parsed (t : IntType) (h : t.parse (varlenText data) = .ok n) :
    Value.castVarchar data t.typeId =
      if (t.value n).intValue < t.min then .error outOfRange else .ok (t.value n) := by
  cases t with
  | tinyint =>
    have hparse : stoi (varlenText data) = .ok n := h
    have hiff : Int8.ofInt n < -127 ↔ (IntType.tinyint.value n).intValue < IntType.tinyint.min := Int8.lt_iff_toInt_lt
    simp only [Value.castVarchar, IntType.typeId, hparse, ok_bind, hiff]
    split_ifs <;> rfl
  | smallint =>
    have hparse : stoi (varlenText data) = .ok n := h
    have hiff : Int16.ofInt n < -32767 ↔ (IntType.smallint.value n).intValue < IntType.smallint.min := Int16.lt_iff_toInt_lt
    simp only [Value.castVarchar, IntType.typeId, hparse, ok_bind, hiff]
    split_ifs <;> rfl
  | integer =>
    have hparse : stoi (varlenText data) = .ok n := h
    have hiff : Int32.ofInt n < -2147483647 ↔ (IntType.integer.value n).intValue < IntType.integer.min := Int32.lt_iff_toInt_lt
    simp only [Value.castVarchar, IntType.typeId, hparse, ok_bind, hiff]
    split_ifs <;> rfl
  | bigint =>
    have hparse : stoll (varlenText data) = .ok n := h
    have hiff : Int64.ofInt n < -9223372036854775807 ↔ (IntType.bigint.value n).intValue < IntType.bigint.min := Int64.lt_iff_toInt_lt
    simp only [Value.castVarchar, IntType.typeId, hparse, ok_bind, hiff]
    split_ifs <;> rfl

/-- A failure of the parser is the failure of the cast. -/
theorem castVarchar_failed (t : IntType) {e : Fault} (h : t.parse (varlenText data) = .error e) :
    Value.castVarchar data t.typeId = .error e := by
  cases t with
  | bigint =>
    have hparse : stoll (varlenText data) = .error e := h
    simp only [Value.castVarchar, IntType.typeId, hparse, error_bind]
  | _ =>
    have hparse : stoi (varlenText data) = .error e := h
    simp only [Value.castVarchar, IntType.typeId, hparse, error_bind]

theorem castVarchar_numeral (t : IntType) (h : Numeral (varlenText data) n) :
    Value.castVarchar data t.typeId = cutNumber t n := by
  have hparse := parse_numeral t h
  unfold cutNumber
  by_cases hfits : Fits t.parseBits n
  · rw [if_pos hfits] at hparse ⊢
    rw [castVarchar_parsed t hparse]
    exact if_congr (lt_min_iff t n) rfl rfl
  · rw [if_neg hfits] at hparse ⊢
    exact castVarchar_failed t hparse

theorem castText_numeral {s : List UInt8} (t : IntType) (h : Numeral s n) : castText t s = cutNumber t n := by
  unfold castText cutNumber
  rw [parse_numeral t h]
  by_cases hfits : Fits t.parseBits n
  · rw [if_pos hfits, if_pos hfits]
    exact if_congr (lt_min_iff t n) rfl rfl
  · rw [if_neg hfits, if_neg hfits]
    rfl

/-- On a string that is not null, `ValueFactory` parses the text. -/
theorem castAsIntType_text (valueToString : Value → String) (t : IntType) (d : Varlen) :
    castAsIntType valueToString t (.varchar (some d)) = castText t (varlenText (some d)) := by
  have hnull : (Value.varchar (some d)).isNull = false := beq_eq_false_iff_ne.mpr (varlenLen_ne_null d)
  unfold castAsIntType
  rw [hnull]
  rfl

/-- `VarlenType` parses the text it prints for NULL, which is no number. -/
theorem castVarchar_null (t : IntType) : ∃ name, Value.castVarchar none t.typeId = .error (.logicError name) := by
  cases t with
  | bigint => exact ⟨"stoll", castVarchar_failed .bigint (by decide)⟩
  | _ => exact ⟨"stoi", castVarchar_failed _ (by decide)⟩

/-- The number is not cut to another one that passes the test. -/
def NotCut (t : IntType) (n : Int) : Prop :=
  t = .integer ∨ t = .bigint ∨ ¬ Fits 32 n ∨ FitsBoth t.bits n ∨ wrap t.bits n = t.null

/-- A number that is cut is exact or refused exactly if it is not cut to another one. -/
theorem cutNumber_iff (t : IntType) (n : Int) : ExactOrRefused t (some n) (cutNumber t n) ↔ NotCut t n := by
  have hcut : ¬ FitsBoth t.bits n → wrap t.bits n ≠ t.null → ¬ ExactOrRefused t (some n) (.ok (t.value n)) := by
    rintro hout - (⟨hfits, -⟩ | ⟨-, msg, hmsg⟩)
    · exact hout hfits
    · cases hmsg
  unfold cutNumber
  by_cases hparse : Fits t.parseBits n
  · rw [if_pos hparse]
    by_cases hnull : wrap t.bits n = t.null
    · rw [if_pos hnull]
      refine iff_of_true ?_ (.inr (.inr (.inr (.inr hnull))))
      refine .inr ⟨fun hfits => ?_, _, rfl⟩
      rw [wrap_eq_self hfits.fits] at hnull
      exact (IntType.fitsBoth_iff.mp hfits).2 hnull
    · rw [if_neg hnull]
      by_cases hfits : FitsBoth t.bits n
      · refine iff_of_true ?_ (.inr (.inr (.inr (.inl hfits))))
        exact (exactOrRefused_value hfits.fits).mpr (IntType.fitsBoth_iff.mp hfits).2
      · refine iff_of_false (hcut hfits hnull) ?_
        -- the parser has let the number through, so the target is narrower than what is parsed
        have hwide : t.parseBits = t.bits → False := by
          intro heq
          rw [heq] at hparse
          rw [wrap_eq_self hparse] at hnull
          exact hfits (IntType.fitsBoth_iff.mpr ⟨hparse, hnull⟩)
        rintro (rfl | rfl | hout | hin | hin)
        · exact hwide rfl
        · exact hwide rfl
        · refine hout ?_
          cases t with
          | bigint => exact absurd rfl hwide
          | _ => exact hparse
        · exact hfits hin
        · exact hnull hin
  · rw [if_neg hparse]
    refine iff_of_true (exactOrRefused_refused fun hfits => hparse (hfits.mono ?_)) ?_
    · cases t <;> decide
    · cases t with
      | bigint => exact .inr (.inl rfl)
      | _ => exact .inr (.inr (.inl hparse))

/-- The string is NULL, or a numeral of any length. -/
inductive Written : Option Varlen → Option Int → Prop
  | null : Written none none
  | text (d : Varlen) (n : Int) (h : Numeral (varlenText (some d)) n) : Written (some d) (some n)

/-- What a cast should answer: the NULL of the target for NULL, and for a number its value, or that it is out of
range. -/
def CastsTo (t : IntType) : Option Int → Except Fault Value → Prop
  | none, answer => ∃ v, answer = .ok v ∧ v.intType = some t ∧ v.isNull = true
  | some n, answer => ExactOrRefused t (some n) answer

/-- **Casts of strings to integers.**  For every string that is NULL or a decimal numeral, and every integer type: both
paths, alike, give the number written there, or refuse it since it is not the number of a value of that type that is
not null, and map NULL to NULL, if and only if the string is not NULL and its number is not cut to another one. -/
theorem string_casts_iff (valueToString : Value → String) (t : IntType) (data : Option Varlen) (w : Option Int)
    (hw : Written data w) :
    (CastsTo t w ((Value.varchar data).castAs t.typeId) ∧
      CastsTo t w (castAsIntType valueToString t (.varchar data)) ∧
      (Value.varchar data).castAs t.typeId = castAsIntType valueToString t (.varchar data)) ↔
    ∃ n, w = some n ∧ NotCut t n := by
  cases hw with
  | null =>
    refine iff_of_false ?_ (by simp)
    rintro ⟨⟨v, hv, -⟩, -⟩
    obtain ⟨name, hname⟩ := castVarchar_null t
    rw [show (Value.varchar none).castAs t.typeId = _ from hname] at hv
    cases hv
  | text d n h =>
    have hpath1 : (Value.varchar (some d)).castAs t.typeId = cutNumber t n := castVarchar_numeral t h
    have hpath2 : castAsIntType valueToString t (.varchar (some d)) = cutNumber t n := by
      rw [castAsIntType_text, castText_numeral t h]
    rw [hpath1, hpath2]
    constructor
    · rintro ⟨hexact, -⟩
      exact ⟨n, rfl, (cutNumber_iff t n).mp hexact⟩
    · rintro ⟨m, hm, hcut⟩
      cases hm
      have hexact := (cutNumber_iff t n).mpr hcut
      exact ⟨hexact, hexact, rfl⟩

/-- `'-00127'` is the lowest `TINYINT` that is not null. -/
theorem string_casts_iff_lowest :
    CastsTo .tinyint (some (-127))
        ((Value.varchar (some ⟨[45, 48, 48, 49, 50, 55, 0], by decide⟩)).castAs .tinyint) ∧
      CastsTo .tinyint (some (-127))
        (castAsIntType (fun _ => "") .tinyint (.varchar (some ⟨[45, 48, 48, 49, 50, 55, 0], by decide⟩))) := by
  have hw : Written (some ⟨[45, 48, 48, 49, 50, 55, 0], by decide⟩) (some (-127)) :=
    .text _ _ (.minus 48 [48, 49, 50, 55] (by simp [isDigit]))
  obtain ⟨h1, h2, -⟩ := (string_casts_iff (fun _ => "") .tinyint _ _ hw).mpr
    ⟨-127, rfl, .inr (.inr (.inr (.inl (by decide))))⟩
  exact ⟨h1, h2⟩

/-- `'300'` as a `TINYINT` is 44, on both paths. -/
theorem three_hundred_is_cut :
    Written (some ⟨[51, 48, 48, 0], by decide⟩) (some 300) ∧
      (Value.varchar (some ⟨[51, 48, 48, 0], by decide⟩)).castAs .tinyint = .ok (.tinyint 44) ∧
      castAsIntType (fun _ => "") .tinyint (.varchar (some ⟨[51, 48, 48, 0], by decide⟩)) = .ok (.tinyint 44) ∧
      ¬ CastsTo .tinyint (some 300) (.ok (.tinyint 44)) := by
  refine ⟨.text _ _ (.plain 51 [48, 48] (by simp [isDigit])), by decide, by decide, ?_⟩
  rintro (⟨hfits, -⟩ | ⟨-, msg, hmsg⟩)
  · revert hfits
    decide
  · cases hmsg

end Paths

end Journey.SqlType
