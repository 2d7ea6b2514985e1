import Journey.Bustub.Type.TextOrder
import Mathlib.Order.Compare

/-!
# Journey.Bustub.Type.Coherence — comparisons from both sides

`a.CompareLessThan(b)` is dispatched on the type of `a`, `b.CompareGreaterThan(a)` on that of `b`.  A string is cast to
the type of a number that stands on the left, and a number on the right of a string is cast to its text.

* `ordering`: the one ordering that the six comparisons of two values test.
* `Coherent`: what the comparisons of two values, from both sides, owe each other.
* `OrderedAlike`: two values, of which one is a string, by its sign and its digits.
* `coherent_iff`: strings among each other, and the other types among each other, are coherent; a string and a value of
  another type, exactly if the sign and the digits of the string put it where its number stands.
-/

namespace Journey.SqlType

/-! ## The ordering behind the comparisons -/

section Ordering

/-- The integer widths, `BOOLEAN` and `VARCHAR`. -/
def isExact : TypeId → Bool
  | .boolean | .tinyint | .smallint | .integer | .bigint | .varchar => true
  | _ => false

/-- The answer of a comparison, from the ordering that it tests; there is none with a NULL. -/
def ComparisonType.answer (op : ComparisonType) : Option Ordering → CmpBool
  | none => .cmpNull
  | some o => getCmpBool (op.holds o)

namespace Value

/-- A number of the given type against the value on its right. -/
def integerOrder (type : TypeId) (n : Int) : Value → Except Fault Ordering
  | tinyint i => .ok (Ord.compare n i.toInt)
  | smallint i => .ok (Ord.compare n i.toInt)
  | integer i => .ok (Ord.compare n i.toInt)
  | bigint i => .ok (Ord.compare n i.toInt)
  | varchar data => do
    let r ← castVarchar data type
    return Ord.compare n r.intValue
  | _ => .error (.exception .invalid "type error")

/-- The left value against the right one, dispatched on the left one. -/
def exactOrder (left right : Value) : Except Fault Ordering :=
  match left with
  | boolean i => do
    match ← right.castAs .boolean with
    | boolean j => return Ord.compare i.toInt j.toInt
    | _ => throw .outOfBounds
  | tinyint i => integerOrder .tinyint i.toInt right
  | smallint i => integerOrder .smallint i.toInt right
  | integer i => integerOrder .integer i.toInt right
  | bigint i => integerOrder .bigint i.toInt right
  | varchar data => do
    match ← right.castAs .varchar with
    | varchar r => compareStrings data r
    | _ => throw .outOfBounds
  | _ => .error .assertion

/-- **The ordering that the comparisons of two values test**; none if one of them is null. -/
def ordering (left right : Value) : Except Fault (Option Ordering) :=
  if !left.checkComparable right then .error .assertion
  else if left.isNull || right.isNull then .ok none
  else (exactOrder left right).map some

end Value

open Value

variable {v w : Value} {op : ComparisonType}

/-- The six comparisons differ in what they ask of the ordering. -/
theorem compare_eq_ordering (hv : isExact v.getTypeId = true) (hw : isExact w.getTypeId = true) :
    v.compare op w = (v.ordering w).map op.answer := by
  have hcomparable : ∀ body, body = (exactOrder v w).map (fun o => getCmpBool (op.holds o)) →
      comparable v w body = (v.ordering w).map op.answer := by
    rintro _ rfl
    unfold comparable ordering
    split_ifs
    · rfl
    · rfl
    · cases exactOrder v w <;> rfl
  have hinteger : ∀ type n, compareInteger op type n w =
      (integerOrder type n w).map (fun o => getCmpBool (op.holds o)) := by
    intro type n
    cases w with
    | varchar data =>
      show (castVarchar data type >>= _) = (castVarchar data type >>= _).map _
      cases castVarchar data type <;> rfl
    | decimal bits => simp [isExact, getTypeId] at hw
    | _ => rfl
  cases v with
  | boolean i =>
    refine hcomparable _ ?_
    unfold compareBoolean exactOrder
    cases w.castAs .boolean with
    | error e => rfl
    | ok r => cases r <;> rfl
  | tinyint i => exact hcomparable _ (hinteger _ _)
  | smallint i => exact hcomparable _ (hinteger _ _)
  | integer i => exact hcomparable _ (hinteger _ _)
  | bigint i => exact hcomparable _ (hinteger _ _)
  | varchar data =>
    refine hcomparable _ ?_
    unfold compareVarlen exactOrder
    cases w.castAs .varchar with
    | error e => rfl
    | ok r =>
      cases r with
      | varchar r =>
        show (compareStrings data r >>= _) = (compareStrings data r).map _
        cases compareStrings data r <;> rfl
      | _ => rfl
  | _ => simp [isExact, getTypeId] at hv

end Ordering

/-! ## Both sides -/

section Coherent

open Value

variable {v w : Value}

/-- The three-valued negation. -/
def CmpBool.not : CmpBool → CmpBool
  | .cmpFalse => .cmpTrue
  | .cmpTrue => .cmpFalse
  | .cmpNull => .cmpNull

/-- **What the comparisons of two values owe each other**: equality is symmetric, less and greater are converse, not
equal is the negation of equal, and exactly one of less, equal and greater is true unless all are null. -/
structure Coherent (a b : Value) : Prop where
  equals : a.compareEquals b = b.compareEquals a
  less : a.compareLessThan b = b.compareGreaterThan a
  lessEquals : a.compareLessThanEquals b = b.compareGreaterThanEquals a
  notEquals : a.compareNotEquals b = (a.compareEquals b).map CmpBool.not
  trichotomy : (a.isNull || b.isNull) = true ∧ (∀ op, a.compare op b = .ok .cmpNull) ∨
    ∃ o : Ordering, a.compareLessThan b = .ok (getCmpBool (o == .lt)) ∧ a.compareEquals b = .ok (getCmpBool (o == .eq)) ∧
      a.compareGreaterThan b = .ok (getCmpBool (o == .gt))

/-- Neither comparison throws. -/
def Returns (a b : Value) : Prop := ∀ op, (∃ c, a.compare op b = .ok c) ∧ ∃ c, b.compare op a = .ok c

theorem returns_ordering (hv : isExact v.getTypeId = true) (hw : isExact w.getTypeId = true) (h : Returns v w) :
    ∃ o o', v.ordering w = .ok o ∧ w.ordering v = .ok o' := by
  obtain ⟨⟨c, hc⟩, ⟨c', hc'⟩⟩ := h .equal
  rw [compare_eq_ordering hv hw] at hc
  rw [compare_eq_ordering hw hv] at hc'
  cases ho : v.ordering w with
  | error e =>
    rw [ho] at hc
    cases hc
  | ok o =>
    cases ho' : w.ordering v with
    | error e =>
      rw [ho'] at hc'
      cases hc'
    | ok o' => exact ⟨o, o', rfl, rfl⟩

/-- Null on one side is null on the other. -/
theorem ordering_eq_none_iff {o : Option Ordering} (h : v.ordering w = .ok o) : o = none ↔ v.isNull || w.isNull := by
  unfold ordering at h
  split_ifs at h with hc hnull
  · cases h
    simp [hnull]
  · cases hx : exactOrder v w with
    | error e =>
      rw [hx] at h
      cases h
    | ok x =>
      rw [hx] at h
      cases h
      simp [hnull]

/-- **Coherence is one equation**: the ordering from the right is the one from the left, turned around. -/
theorem coherent_iff_swap (hv : isExact v.getTypeId = true) (hw : isExact w.getTypeId = true) {o o' : Option Ordering}
    (ho : v.ordering w = .ok o) (ho' : w.ordering v = .ok o') :
    Coherent v w ↔ o' = o.map Ordering.swap := by
  have hleft : ∀ op, v.compare op w = .ok (op.answer o) := by
    intro op
    rw [compare_eq_ordering hv hw, ho]
    rfl
  have hright : ∀ op, w.compare op v = .ok (op.answer o') := by
    intro op
    rw [compare_eq_ordering hw hv, ho']
    rfl
  constructor
  · intro h
    have heq := h.equals
    have hless := h.less
    unfold compareEquals at heq
    unfold compareLessThan compareGreaterThan at hless
    rw [hleft, hright] at heq hless
    revert heq hless
    rcases o with _ | _ | _ | _ <;> rcases o' with _ | _ | _ | _ <;>
      first
      | (intro _ _; rfl)
      | (intro heq hless; simp [ComparisonType.answer, ComparisonType.holds, getCmpBool] at heq hless)
  · rintro rfl
    constructor
    · unfold compareEquals
      rw [hleft, hright]
      rcases o with _ | _ | _ | _ <;> rfl
    · unfold compareLessThan compareGreaterThan
      rw [hleft, hright]
      rcases o with _ | _ | _ | _ <;> rfl
    · unfold compareLessThanEquals compareGreaterThanEquals
      rw [hleft, hright]
      rcases o with _ | _ | _ | _ <;> rfl
    · unfold compareNotEquals compareEquals
      rw [hleft, hleft]
      rcases o with _ | _ | _ | _ <;> rfl
    · cases o with
      | none => exact .inl ⟨(ordering_eq_none_iff ho).mp rfl, hleft⟩
      | some o =>
        refine .inr ⟨o, ?_, ?_, ?_⟩
        · exact hleft .lessThan
        · exact hleft .equal
        · exact hleft .greaterThan

end Coherent

/-! ## Strings and numbers -/

section Mixed

open Value

variable {v w x : Value} {data data' : Option Varlen}

/-- The number of an integer or a boolean. -/
def Value.number : Value → Int
  | boolean i => i.toInt
  | v => v.intValue

/-- A value against a string, cast to the type of the value. -/
def castOrder (x : Value) (data : Option Varlen) : Except Fault Ordering := do
  let r ← castVarchar data x.getTypeId
  return Ord.compare x.number r.number

/-- The text of a value against a string. -/
def textOrder (x : Value) (data : Option Varlen) : Except Fault Ordering := do
  match ← x.castAs .varchar with
  | varchar text => compareStrings text data
  | _ => throw .outOfBounds

/-- A value against a string, told from the value, the number that the string is cast to, and its bytes. -/
def StringAlike (data : Option Varlen) : Value → Prop
  | boolean i => BooleanAlike i (varlenText data)
  | tinyint i => NumberAlike i.toInt (readAs .tinyint (varlenText data)) (varlenText data)
  | smallint i => NumberAlike i.toInt (readAs .smallint (varlenText data)) (varlenText data)
  | integer i => NumberAlike i.toInt (readAs .integer (varlenText data)) (varlenText data)
  | bigint i => NumberAlike i.toInt (readAs .bigint (varlenText data)) (varlenText data)
  | _ => True

/-- **Two values that are ordered alike from both sides**: a string and a value of another type, if the string says so. -/
def OrderedAlike : Value → Value → Prop
  | varchar _, varchar _ => True
  | varchar data, x => StringAlike data x
  | x, varchar data => StringAlike data x
  | _, _ => True

theorem compareStrings_swap (data data' : Option Varlen) :
    compareStrings data' data = (compareStrings data data').map Ordering.swap := by
  cases data with
  | none => cases data' <;> rfl
  | some l =>
    cases data' with
    | none => rfl
    | some r =>
      unfold compareStrings
      dsimp only
      split_ifs with h h' h'
      · refine congrArg Except.ok ?_
        exact Std.OrientedOrd.eq_swap (a := r.1.dropLast) (b := l.1.dropLast)
      · omega
      · omega
      · rfl

/-- Two values, neither of them a string. -/
theorem exactOrder_number (hv : isExact v.getTypeId = true) (hw : isExact w.getTypeId = true)
    (hvs : v.getTypeId ≠ .varchar) (hws : w.getTypeId ≠ .varchar) (hc : v.checkComparable w = true) :
    exactOrder v w = .ok (Ord.compare v.number w.number) := by
  have hinteger : w.getTypeId ≠ .boolean → ∀ type n, integerOrder type n w = .ok (Ord.compare n w.number) := by
    intro hbool type n
    cases w <;> first | rfl | exact absurd rfl hws | exact absurd rfl hbool | cases hw
  have hnumeric : ∀ n : Value, isNumeric n.getTypeId = true → n.checkComparable w = true → w.getTypeId ≠ .boolean := by
    intro n hn hcn hbool
    unfold checkComparable at hcn
    rw [hbool] at hcn
    cases n <;> simp_all [isNumeric, getTypeId]
  cases v with
  | boolean i => cases w <;> first | rfl | exact absurd rfl hws | cases hc
  | tinyint i => exact hinteger (hnumeric (tinyint i) rfl hc) _ _
  | smallint i => exact hinteger (hnumeric (smallint i) rfl hc) _ _
  | integer i => exact hinteger (hnumeric (integer i) rfl hc) _ _
  | bigint i => exact hinteger (hnumeric (bigint i) rfl hc) _ _
  | varchar data => exact absurd rfl hvs
  | _ => cases hv

/-- A string that is cast to a number does not become a boolean. -/
theorem number_castVarchar {type : TypeId} {r : Value} (hint : isNumeric type = true)
    (h : castVarchar data type = .ok r) : r.number = r.intValue := by
  cases type with
  | tinyint | smallint | integer | bigint | decimal =>
    obtain ⟨_, -, h⟩ := bind_eq_ok.mp h
    dsimp only at h
    split_ifs at h <;> cases h
    rfl
  | _ => cases hint

/-- A value against a string on its right. -/
theorem exactOrder_string (hx : isExact x.getTypeId = true) (hxs : x.getTypeId ≠ .varchar) :
    exactOrder x (varchar data) = castOrder x data := by
  have hinteger : ∀ type n, isNumeric type = true → integerOrder type n (varchar data) =
      (castVarchar data type >>= fun r => .ok (Ord.compare n r.number)) := by
    intro type n hint
    show (castVarchar data type >>= _) = _
    cases hcast : castVarchar data type with
    | error e => rfl
    | ok r =>
      rw [ok_bind, ok_bind, number_castVarchar hint hcast]
      rfl
  cases x with
  | boolean i =>
    show (castVarchar data .boolean >>= _) = (castVarchar data .boolean >>= _)
    cases hcast : castVarchar data .boolean with
    | error e => rfl
    | ok r =>
      unfold castVarchar at hcast
      dsimp only at hcast
      split_ifs at hcast <;> cases hcast <;> rfl
  | tinyint i => exact hinteger .tinyint _ rfl
  | smallint i => exact hinteger .smallint _ rfl
  | integer i => exact hinteger .integer _ rfl
  | bigint i => exact hinteger .bigint _ rfl
  | varchar data => exact absurd rfl hxs
  | _ => cases hx

/-- A string against a value on its right. -/
theorem string_exactOrder (data : Option Varlen) (x : Value) :
    exactOrder (varchar data) x = (textOrder x data).map Ordering.swap := by
  unfold exactOrder textOrder
  cases x.castAs .varchar with
  | error e => rfl
  | ok r =>
    cases r with
    | varchar text => exact compareStrings_swap text data
    | _ => rfl

/-- The ordering of two values that are not null. -/
theorem ordering_eq_some {o : Ordering} (h : v.ordering w = .ok (some o)) :
    v.checkComparable w = true ∧ exactOrder v w = .ok o := by
  unfold ordering at h
  split_ifs at h with hc
  · cases h
  · cases hx : exactOrder v w with
    | error e =>
      rw [hx] at h
      cases h
    | ok x =>
      rw [hx] at h
      cases h
      exact ⟨by simpa using hc, rfl⟩

/-- A number against the number that the string reads as. -/
theorem castOrder_integer {t : IntType} {o : Ordering} (hx : x.intType = some t) (h : castOrder x data = .ok o) :
    ∃ r, numeral (varlenText data) = some r ∧ o = compare x.intValue (readAs t (varlenText data)) := by
  have htype : x.getTypeId = t.typeId ∧ x.number = x.intValue := by
    cases x <;> cases hx <;> exact ⟨rfl, rfl⟩
  obtain ⟨v, hv, h⟩ := bind_eq_ok.mp h
  rw [htype.1] at hv
  cases hparse : t.parse (varlenText data) with
  | error e =>
    rw [castVarchar_failed t hparse] at hv
    cases hv
  | ok r =>
    have hnumeral := numeral_of_parse t hparse
    rw [castVarchar_parsed t hparse] at hv
    split_ifs at hv
    have hnumber : (t.value r).number = (t.value r).intValue := by cases t <;> rfl
    refine ⟨r, hnumeral, ?_⟩
    rw [← Except.ok.inj h, ← Except.ok.inj hv, htype.2, hnumber, t.intValue_value, readAs, hnumeral]
    rfl

/-- The text of a number against the string. -/
theorem textOrder_integer {t : IntType} {o : Ordering} (hx : x.intType = some t) (hnull : x.isNull = false)
    (h : textOrder x data = .ok o) : o = List.compareLex compare (intText x.intValue) (varlenText data) := by
  have hfits : Fits 64 x.intValue := (fits_intValue hx).mono (by cases t <;> decide)
  have hlen := length_intText_le hfits
  have hcast : x.castAs .varchar = .ok (stringValue (intText x.intValue)) := by
    have hnarrow : ∀ (name : String) (p : Prop) [Decidable p] (n : Int), (if p then valueNull else 0) ≠ valueNull →
        castInteger name (decide p) n .varchar = .ok (stringValue (intText n)) := by
      intro name p _ n hp
      have hnot : ¬ p := fun hp' => hp (if_pos hp')
      simp [castInteger, hnot]
    have hlenNull : x.len ≠ valueNull := by simpa [isNull] using hnull
    cases x with
    | tinyint i => exact hnarrow "tinyint" _ _ hlenNull
    | smallint i => exact hnarrow "smallint" _ _ hlenNull
    | integer i => exact hnarrow "Integer" _ _ hlenNull
    | bigint i => exact hnarrow "bigint" _ _ hlenNull
    | _ => cases hx
  unfold textOrder at h
  rw [hcast] at h
  exact compareStrings_stringValue (by omega) h

/-- A boolean and a string, from both sides. -/
theorem boolean_orders {i : Int8} {o t : Ordering} (hnull : (boolean i).isNull = false)
    (h : castOrder (boolean i) data = .ok o) (ht : textOrder (boolean i) data = .ok t) :
    o = t ↔ BooleanAlike i (varlenText data) := by
  have hi : i ≠ booleanNull := by
    intro hi
    rw [hi] at hnull
    cases hnull
  have htext : t = List.compareLex compare (booleanText i) (varlenText data) := by
    have hlen : (booleanText i).length < 2 ^ 31 := by
      unfold booleanText
      split_ifs <;> decide
    have hcast : (boolean i).castAs .varchar = .ok (stringValue (booleanText i)) := by
      show castBoolean i .varchar = _
      unfold castBoolean
      rw [if_neg hi]
    unfold textOrder at ht
    rw [hcast] at ht
    exact compareStrings_stringValue hlen ht
  obtain ⟨v, hv, h⟩ := bind_eq_ok.mp h
  have hreads : (ReadsTrue (varlenText data) ∨ ReadsFalse (varlenText data)) ∧
      v = boolean (if ReadsTrue (varlenText data) then 1 else 0) := by
    have htrue : (varlenText data).map toLower = ascii "true" ∨ (varlenText data).map toLower = ascii "1" ∨
        (varlenText data).map toLower = ascii "t" ↔ ReadsTrue (varlenText data) := by
      simp [ReadsTrue]
    have hfalse : (varlenText data).map toLower = ascii "false" ∨ (varlenText data).map toLower = ascii "0" ∨
        (varlenText data).map toLower = ascii "f" ↔ ReadsFalse (varlenText data) := by
      simp [ReadsFalse]
    unfold castVarchar at hv
    dsimp only [getTypeId] at hv
    split_ifs at hv with hone hzero
    · have hr := htrue.mp hone
      exact ⟨.inl hr, by rw [if_pos hr, Except.ok.inj hv]⟩
    · exact ⟨.inr (hfalse.mp hzero), by rw [if_neg fun hr => hone (htrue.mpr hr), Except.ok.inj hv]⟩
  have hnumber : v.number = if ReadsTrue (varlenText data) then 1 else 0 := by
    rw [hreads.2]
    split_ifs <;> rfl
  have ho : o = compare i.toInt v.number := (Except.ok.inj h).symm
  rw [← boolean_alike_iff hreads.1, htext, ho, hnumber]

/-- **A value against a string that is cast to its type, and the text of the value against the string**: the two orders
agree exactly if the string says so. -/
theorem string_alike_iff {o t : Ordering} (hx : isExact x.getTypeId = true) (hxs : x.getTypeId ≠ .varchar)
    (hnull : x.isNull = false) (h : castOrder x data = .ok o) (ht : textOrder x data = .ok t) :
    o = t ↔ StringAlike data x := by
  have hinteger : ∀ t', x.intType = some t' →
      (o = t ↔ NumberAlike x.intValue (readAs t' (varlenText data)) (varlenText data)) := by
    intro t' hint
    obtain ⟨r, hnumeral, ho⟩ := castOrder_integer hint h
    rw [ho, textOrder_integer hint hnull ht]
    exact number_alike_iff hnumeral
  cases x with
  | boolean i => exact boolean_orders hnull h ht
  | tinyint i => exact hinteger .tinyint rfl
  | smallint i => exact hinteger .smallint rfl
  | integer i => exact hinteger .integer rfl
  | bigint i => exact hinteger .bigint rfl
  | varchar data => exact absurd rfl hxs
  | _ => cases hx

/-- A value and a string: the ordering from the right is the one of the texts. -/
theorem swapped_iff_alike {o o' : Ordering} (hx : isExact x.getTypeId = true) (hxs : x.getTypeId ≠ .varchar)
    (hnull : x.isNull = false) (h : exactOrder x (varchar data) = .ok o) (h' : exactOrder (varchar data) x = .ok o') :
    o' = o.swap ↔ StringAlike data x := by
  rw [exactOrder_string hx hxs] at h
  rw [string_exactOrder] at h'
  cases ht : textOrder x data with
  | error e =>
    rw [ht] at h'
    cases h'
  | ok t =>
    rw [ht] at h'
    cases h'
    rw [← string_alike_iff hx hxs hnull h ht, Ordering.swap_inj]
    exact eq_comm

/-- **Comparison coherence.**  For any two values of the integer types, `BOOLEAN` and `VARCHAR` that are compared without
an exception: the comparisons from both sides agree exactly if one value is null, both or neither are strings, or the
sign and the digits of the string, and what is behind them, put it on the side of the other value on which the number
stands that it is cast to. -/
theorem coherent_iff (hv : isExact v.getTypeId = true) (hw : isExact w.getTypeId = true) (h : Returns v w) :
    Coherent v w ↔ (v.isNull || w.isNull) = true ∨ OrderedAlike v w := by
  obtain ⟨o, o', ho, ho'⟩ := returns_ordering hv hw h
  rw [coherent_iff_swap hv hw ho ho']
  have hnone := ordering_eq_none_iff ho
  have hnone' := ordering_eq_none_iff ho'
  rw [Bool.or_comm, ← hnone] at hnone'
  cases o with
  | none => simp [hnone'.mpr rfl, hnone.mp rfl]
  | some o =>
    cases o' with
    | none => exact absurd (hnone'.mp rfl) nofun
    | some o' =>
      have hnull : ¬ (v.isNull || w.isNull) = true := fun hn => absurd (hnone.mpr hn) nofun
      have hnulls : v.isNull = false ∧ w.isNull = false := by simpa using hnull
      obtain ⟨hc, hx⟩ := ordering_eq_some ho
      obtain ⟨hc', hx'⟩ := ordering_eq_some ho'
      rw [Option.map_some, Option.some.injEq, or_iff_right hnull]
      by_cases hvs : v.getTypeId = .varchar
      · by_cases hws : w.getTypeId = .varchar
        · -- two strings
          cases v with
          | varchar data =>
            cases w with
            | varchar data' =>
              have hl : compareStrings data data' = .ok o := hx
              have hr : compareStrings data' data = .ok o' := hx'
              rw [compareStrings_swap data data', hl] at hr
              cases hr
              exact ⟨fun _ => trivial, fun _ => rfl⟩
            | _ => cases hws
          | _ => cases hvs
        · cases v with
          | varchar data =>
            have halike : OrderedAlike (varchar data) w ↔ StringAlike data w := by
              cases w <;> exact Iff.rfl
            rw [halike, ← swapped_iff_alike hw hws hnulls.2 hx' hx]
            cases o <;> cases o' <;> simp
          | _ => cases hvs
      · by_cases hws : w.getTypeId = .varchar
        · cases w with
          | varchar data =>
            have halike : OrderedAlike v (varchar data) ↔ StringAlike data v := by
              cases v <;> exact Iff.rfl
            rw [halike, ← swapped_iff_alike hv hvs hnulls.1 hx hx']
          | _ => cases hws
        · -- two numbers, or two booleans
          have halike : OrderedAlike v w := by
            cases v <;> cases w <;> trivial
          rw [exactOrder_number hv hw hvs hws hc] at hx
          rw [exactOrder_number hw hv hws hvs hc'] at hx'
          cases hx
          cases hx'
          rw [iff_true_right halike]
          exact Std.OrientedOrd.eq_swap

/-- `-12` and `'-7'` are coherent, `9` and `'10'` are not: the digits begin with a 9 and a 1. -/
theorem coherent_iff_digits : Coherent (.smallint (-12)) (stringValue (ascii "-7")) ∧
    ¬ Coherent (.integer 9) (stringValue (ascii "10")) := by
  constructor
  · refine (coherent_iff rfl rfl ?_).mpr (.inr ?_)
    · intro op
      cases op <;> exact ⟨⟨_, rfl⟩, ⟨_, rfl⟩⟩
    · show StringAlike (varlenOf (ascii "-7" ++ [0])) (.smallint (-12))
      show NumberAlike (-12 : Int16).toInt (readAs .smallint (varlenText (varlenOf (ascii "-7" ++ [0])))) _
      decide +kernel
  · rw [coherent_iff rfl rfl (by intro op; cases op <;> exact ⟨⟨_, rfl⟩, ⟨_, rfl⟩⟩)]
    rintro (hnull | halike)
    · cases hnull
    · have h : NumberAlike 9 (readAs .integer (varlenText (varlenOf (ascii "10" ++ [0])))) (ascii "10") := halike
      exact absurd h (by decide +kernel)

/-- `1` equals `'01'`, and `'01'` does not equal `1`. -/
theorem number_equals_text_one_way : ¬ ∀ v w, isExact v.getTypeId = true → isExact w.getTypeId = true →
    Returns v w → Coherent v w := by
  intro hclaim
  have hreturns : Returns (.integer 1) (stringValue (ascii "01")) := by
    intro op
    cases op <;> exact ⟨⟨_, rfl⟩, ⟨_, rfl⟩⟩
  have h := (hclaim _ _ rfl rfl hreturns).equals
  exact absurd h (by decide +kernel)

end Mixed

end Journey.SqlType
