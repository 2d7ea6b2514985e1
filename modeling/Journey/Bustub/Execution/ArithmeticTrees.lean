import Journey.Bustub.Type.Arithmetic
import Journey.Bustub.Execution.JoinRewrite

/-!
# Journey.Bustub.Execution.ArithmeticTrees — `ArithmeticExpression` against the type system

An `ArithmeticExpression` adds and subtracts the `int32_t`s of its operands as the machine does.  The type system has
its own addition and subtraction, which refuse a result that is out of range.

* `IntegerTree`: trees of additions and subtractions over `INTEGER` columns and constants.
* `exactValue`, `InRange`: the exact result of a tree, and that every intermediate result fits.
* `Expr.typed`: the tree evaluated by `Value::Add` and `Value::Subtract`.
* `arithmetic_exact_iff`: `Evaluate` and `EvaluateJoin` do what the type system does exactly on trees in range.
-/

namespace Journey.Execution

open SqlType Catalog Storage Execution.Expr

/-! ## Trees and their exact results -/

section Trees

/-- Additions and subtractions over `INTEGER` columns and constants. -/
def IntegerTree : Expr → Prop
  | columnValue _ _ retType => retType.type = .integer
  | constantValue val => val.getTypeId = .integer
  | arithmetic _ left right => IntegerTree left ∧ IntegerTree right
  | _ => False

/-- The number of a value, if it is not null. -/
def numberOf (v : Value) : Option Int := if v.isNull then none else some v.intValue

/-- An `INTEGER` for a number, or the null one. -/
def integerOf : Option Int → Value
  | none => .integer int32Null
  | some n => .integer (Int32.ofInt n)

/-- The operation on numbers; without one of the operands there is no result. -/
def ArithmeticType.onNumbers : ArithmeticType → Option Int → Option Int → Option Int
  | plus, some x, some y => some (x + y)
  | minus, some x, some y => some (x - y)
  | _, _, _ => none

/-- The exact result of a tree, as a number without bounds; nothing if one of its leaves is null. -/
def exactValue (read : ℕ → ℕ → Except Fault Value) : Expr → Option Int
  | columnValue tupleIdx colIdx _ => (read tupleIdx colIdx).toOption.bind numberOf
  | constantValue val => numberOf val
  | arithmetic computeType left right => computeType.onNumbers (exactValue read left) (exactValue read right)
  | _ => none

/-- Every intermediate result, and the result itself, is the number of an `INTEGER` that is not null. -/
def InRange (read : ℕ → ℕ → Except Fault Value) : Expr → Prop
  | arithmetic computeType left right =>
    InRange read left ∧ InRange read right ∧
      ∀ n, exactValue read (arithmetic computeType left right) = some n → FitsBoth 32 n
  | _ => True

/-- The operation of the type system. -/
def ArithmeticType.ofValues : ArithmeticType → Value → Value → Except Fault Value
  | plus => Value.add
  | minus => Value.subtract

/-- The tree evaluated by the operations of the type system. -/
def typed (read : ℕ → ℕ → Except Fault Value) : Expr → Except Fault Value
  | columnValue tupleIdx colIdx _ => read tupleIdx colIdx
  | constantValue val => .ok val
  | arithmetic computeType left right => do
    let lhs ← typed read left
    let rhs ← typed read right
    computeType.ofValues lhs rhs
  | _ => .error .undefined

/-- What evaluating a tree should end with: the exact result where everything fits, NULL standing for no number, a
refusal where something does not, and what the type system ends with. -/
structure AgreesWithTypes (read : ℕ → ℕ → Except Fault Value) (e : Expr) (outcome : Except Fault Value) : Prop where
  exact : InRange read e → ∃ v, outcome = .ok v ∧ v.getTypeId = .integer ∧ numberOf v = exactValue read e
  refused : ¬ InRange read e → ∃ msg, outcome = .error (.exception .outOfRange msg)
  typed : outcome = typed read e

end Trees

/-! ## One node -/

section Nodes

variable {x y : Option Int} {v : Value}

/-- The number, if there is one, is in range. -/
def NumberFits (x : Option Int) : Prop := ∀ n, x = some n → FitsBoth 32 n

theorem isNull_integerOf {n : Int} (h : FitsBoth 32 n) :
    (integerOf (some n)).isNull = false ∧ (integerOf (some n)).intValue = n := by
  have hint : (integerOf (some n)).intValue = n := (IntType.integer.intValue_value n).trans (wrap_eq_self h.fits)
  refine ⟨?_, hint⟩
  rw [Bool.eq_false_iff, ne_eq, Value.isNull_iff (t := .integer) rfl, hint]
  exact (IntType.fitsBoth_iff (t := .integer).mp h).2

theorem numberOf_integerOf (h : NumberFits x) : numberOf (integerOf x) = x := by
  cases x with
  | none => rfl
  | some n =>
    obtain ⟨hnull, hint⟩ := isNull_integerOf (h n rfl)
    unfold numberOf
    rw [hnull, hint]
    rfl

/-- Every `INTEGER` stands for a number in range or for none. -/
theorem integerOf_numberOf (h : v.getTypeId = .integer) : integerOf (numberOf v) = v ∧ NumberFits (numberOf v) := by
  cases v with
  | integer i =>
    unfold numberOf
    by_cases hnull : (Value.integer i).isNull = true
    · rw [if_pos hnull]
      rw [Value.isNull_iff (t := .integer) rfl] at hnull
      have hi : i = int32Null := Int32.toInt_inj.mp hnull
      exact ⟨by rw [hi]; rfl, by rintro n ⟨⟩⟩
    · rw [if_neg hnull]
      refine ⟨congrArg Value.integer (Int32.ofInt_toInt i), ?_⟩
      rintro n ⟨⟩
      exact Value.fitsBoth_intValue (t := .integer) rfl (Bool.eq_false_iff.mpr hnull)
  | _ => cases h

/-- A node computes modulo `2 ^ 32`, and never fails. -/
theorem performArithmetic_integers (computeType : ArithmeticType) (i j : Int32) :
    ∃ k, performArithmetic computeType (.integer i) (.integer j) = .ok (.integer k) := by
  unfold performArithmetic
  split_ifs
  · exact ⟨_, rfl⟩
  · cases computeType
    · exact ⟨_, rfl⟩
    · exact ⟨_, rfl⟩

/-- A node computes its exact result modulo `2 ^ 32`. -/
theorem performArithmetic_exact (computeType : ArithmeticType) (hx : NumberFits x) (hy : NumberFits y) :
    performArithmetic computeType (integerOf x) (integerOf y) = .ok (integerOf (computeType.onNumbers x y)) := by
  unfold performArithmetic
  cases x with
  | none => cases computeType <;> rfl
  | some a =>
    have ha := (isNull_integerOf (hx a rfl)).1
    cases y with
    | none =>
      rw [ha]
      cases computeType <;> rfl
    | some b =>
      have hb := (isNull_integerOf (hy b rfl)).1
      rw [ha, hb]
      cases computeType with
      | plus =>
        show Except.ok (Value.integer (Int32.ofInt a + Int32.ofInt b)) = .ok (.integer (Int32.ofInt (a + b)))
        rw [Int32.ofInt_add]
      | minus =>
        show Except.ok (Value.integer (Int32.ofInt a - Int32.ofInt b)) = .ok (.integer (Int32.ofInt (a - b)))
        rw [Int32.ofInt_sub]

/-- The operation of the type system on two numbers in range, whose exact result is in range. -/
theorem arithmetic_exact (op : ArithmeticOp) {a b n : Int} (ha : FitsBoth 32 a) (hb : FitsBoth 32 b)
    (hn : FitsBoth 32 n) (hdiv : op.divides = false) (hexact : op.exact a b = some n) :
    Value.arithmetic op (integerOf (some a)) (integerOf (some b)) = .ok (integerOf (some n)) := by
  obtain ⟨hanull, haint⟩ := isNull_integerOf ha
  obtain ⟨hbnull, hbint⟩ := isNull_integerOf hb
  have htype : ∀ m : Int, (integerOf (some m)).intType = some .integer := fun _ => rfl
  rw [arithmetic_eq op (htype a) (htype b) hanull hbnull, haint, hbint, hdiv, if_neg (by simp)]
  have ha' : FitsBoth IntType.integer.bits a := ha
  have hb' : FitsBoth IntType.integer.bits b := hb
  obtain ⟨e, he, happ⟩ := onIntegers_eq op ha' hb' (by simp [hdiv])
  rw [hexact] at he
  cases he
  rw [happ]
  exact if_pos hn.fits

/-- A node in range is computed by the type system, too. -/
theorem ofValues_exact (computeType : ArithmeticType) (hx : NumberFits x) (hy : NumberFits y)
    (hfits : NumberFits (computeType.onNumbers x y)) :
    computeType.ofValues (integerOf x) (integerOf y) = .ok (integerOf (computeType.onNumbers x y)) := by
  cases x with
  | none =>
    have hnull : ∀ op, Value.arithmetic op (integerOf none) (integerOf y) = .ok (integerOf none) := by
      intro op
      cases y <;> rfl
    cases computeType
    · exact hnull .add
    · exact hnull .subtract
  | some a =>
    cases y with
    | none =>
      have hnull : ∀ op, Value.arithmetic op (integerOf (some a)) (integerOf none) = .ok (integerOf none) := by
        intro op
        have ha := (isNull_integerOf (hx a rfl)).1
        show Value.operands op (integerOf (some a)) _ _ _ = _
        unfold Value.operands
        rw [ha]
        rfl
      cases computeType
      · exact hnull .add
      · exact hnull .subtract
    | some b =>
      cases computeType
      · exact arithmetic_exact .add (hx a rfl) (hy b rfl) (hfits _ rfl) rfl rfl
      · exact arithmetic_exact .subtract (hx a rfl) (hy b rfl) (hfits _ rfl) rfl rfl

end Nodes

/-! ## Whole trees -/

section Whole

variable {read : ℕ → ℕ → Except Fault Value} {cols : ℕ → ℕ → Option TypeId}

/-- The `INTEGER` columns can be read. -/
def ReadsIntegers (cols : ℕ → ℕ → Option TypeId) (read : ℕ → ℕ → Except Fault Value) : Prop :=
  ∀ t i, cols t i = some .integer → ∃ v, read t i = .ok v ∧ v.getTypeId = .integer

/-- Evaluating a tree never fails. -/
theorem eval_total (hread : ReadsIntegers cols read) :
    ∀ e : Expr, IntegerTree e → e.Over cols → ∃ i, e.eval read = .ok (.integer i)
  | columnValue tupleIdx colIdx retType, he, hover => by
    obtain ⟨v, hv, htype⟩ := hread tupleIdx colIdx (hover.trans (congrArg some he))
    cases v with
    | integer i => exact ⟨i, hv⟩
    | _ => cases htype
  | constantValue val, he, _ => by
    cases val with
    | integer i => exact ⟨i, rfl⟩
    | _ => cases he
  | arithmetic computeType left right, ⟨hl, hr⟩, ⟨_, _, hlo, hro⟩ => by
    obtain ⟨i, hi⟩ := eval_total hread left hl hlo
    obtain ⟨j, hj⟩ := eval_total hread right hr hro
    obtain ⟨k, hk⟩ := performArithmetic_integers computeType i j
    refine ⟨k, ?_⟩
    rw [eval, hi, ok_bind, hj, ok_bind]
    exact hk
  | comparison _ _ _, he, _ => he.elim
  | logic _ _ _, he, _ => he.elim
  | array _, he, _ => he.elim
  | string _ _, he, _ => he.elim

/-- A tree in range is evaluated to its exact result, as it is and by the type system. -/
theorem eval_exact (hread : ReadsIntegers cols read) :
    ∀ e : Expr, IntegerTree e → e.Over cols → InRange read e → NumberFits (exactValue read e) ∧
      e.eval read = .ok (integerOf (exactValue read e)) ∧ typed read e = .ok (integerOf (exactValue read e))
  | columnValue tupleIdx colIdx retType, he, hover, _ => by
    obtain ⟨v, hv, htype⟩ := hread tupleIdx colIdx (hover.trans (congrArg some he))
    obtain ⟨hback, hfits⟩ := integerOf_numberOf htype
    have hexact : exactValue read (columnValue tupleIdx colIdx retType) = numberOf v := by
      rw [exactValue, hv]
      rfl
    rw [hexact, hback]
    exact ⟨hfits, hv, hv⟩
  | constantValue val, he, _, _ => by
    obtain ⟨hback, hfits⟩ := integerOf_numberOf he
    rw [exactValue, hback]
    exact ⟨hfits, rfl, rfl⟩
  | arithmetic computeType left right, ⟨hl, hr⟩, ⟨_, _, hlo, hro⟩, ⟨hlin, hrin, hfits⟩ => by
    obtain ⟨hlfits, hleval, hltyped⟩ := eval_exact hread left hl hlo hlin
    obtain ⟨hrfits, hreval, hrtyped⟩ := eval_exact hread right hr hro hrin
    refine ⟨hfits, ?_, ?_⟩
    · rw [eval, hleval, ok_bind, hreval, ok_bind]
      exact performArithmetic_exact computeType hlfits hrfits
    · rw [typed, hltyped, ok_bind, hrtyped, ok_bind]
      exact ofValues_exact computeType hlfits hrfits hfits
  | comparison _ _ _, he, _, _ => he.elim
  | logic _ _ _, he, _, _ => he.elim
  | array _, he, _, _ => he.elim
  | string _ _, he, _, _ => he.elim

/-- Evaluating never refuses, so it agrees with the type system exactly if there is nothing to refuse. -/
theorem agrees_iff (hread : ReadsIntegers cols read) {e : Expr} (he : IntegerTree e) (hover : e.Over cols) :
    AgreesWithTypes read e (e.eval read) ↔ InRange read e := by
  constructor
  · intro hagrees
    by_contra hout
    obtain ⟨i, hi⟩ := eval_total hread e he hover
    obtain ⟨msg, hmsg⟩ := hagrees.refused hout
    rw [hi] at hmsg
    cases hmsg
  · intro hin
    obtain ⟨hfits, heval, htyped⟩ := eval_exact hread e he hover hin
    refine ⟨fun _ => ⟨_, heval, ?_, numberOf_integerOf hfits⟩, fun hout => absurd hin hout, heval.trans htyped.symm⟩
    cases exactValue read e <;> rfl

end Whole

/-! ## Both evaluators -/

section Evaluators

/-- Every column of the tuple can be read. -/
def Decodes (tuple : Tuple) (schema : Schema) : Prop :=
  ∀ i < schema.columns.length, ∃ v, tuple.getValue schema i = .ok v

theorem Decodes.reads {tuple : Tuple} {schema : Schema} (h : Decodes tuple schema) {i : ℕ} {type : TypeId}
    (hi : (columnTypes schema)[i]? = some type) : ∃ v, tuple.getValue schema i = .ok v ∧ v.getTypeId = type := by
  unfold columnTypes at hi
  rw [List.getElem?_map, Option.map_eq_some_iff] at hi
  obtain ⟨c, hc, rfl⟩ := hi
  obtain ⟨v, hv⟩ := h i (List.getElem?_eq_some_iff.mp hc).1
  exact ⟨v, hv, getTypeId_getValue hc hv⟩

theorem isArray_integerTree {e : Expr} (he : IntegerTree e) : isArray e = false := by
  cases e with
  | array _ => exact he.elim
  | _ => rfl

/-- **SQL arithmetic agrees with the type system exactly where nothing leaves the range.**  For every tree of additions
and subtractions over `INTEGER` columns and constants, and on every tuple, or pair of tuples, of the schemas it was
built for: `Evaluate` and `EvaluateJoin` give the exact result or NULL where every intermediate result fits, refuse
where one does not, and end as `Value::Add` and `Value::Subtract` do, if and only if every intermediate result is the
number of an `INTEGER` that is not null. -/
theorem arithmetic_exact_iff (e : Expr) (he : IntegerTree e) :
    (∀ tuple schema, Decodes tuple schema → e.Over (single (columnTypes schema)) →
      (AgreesWithTypes (fun _ i => tuple.getValue schema i) e (e.evaluate (some tuple) schema) ↔
        InRange (fun _ i => tuple.getValue schema i) e)) ∧
    ∀ left leftSchema right rightSchema, Decodes left leftSchema → Decodes right rightSchema →
      e.Over (sides (columnTypes leftSchema) (columnTypes rightSchema)) →
      (AgreesWithTypes (readSides left leftSchema right rightSchema) e
          (e.evaluateJoin left leftSchema right rightSchema) ↔
        InRange (readSides left leftSchema right rightSchema) e) := by
  constructor
  · intro tuple schema hdec hover
    rw [evaluate_eq_eval]
    refine agrees_iff ?_ he hover
    intro t i hcol
    match t with
    | 0 => exact hdec.reads hcol
  · intro left leftSchema right rightSchema hleft hright hover
    rw [(evaluateJoin_alike e hover).1 (isArray_integerTree he)]
    refine agrees_iff ?_ he hover
    intro t i hcol
    match t with
    | 0 => exact hleft.reads hcol
    | 1 => exact hright.reads hcol

/-- `amount + 1` on the row of one amount. -/
theorem arithmetic_exact_iff_amount : ∃ tuple, Tuple.ofValues [.integer 7] (.create [amountColumn]) = .ok tuple ∧
    AgreesWithTypes (fun _ i => tuple.getValue (.create [amountColumn]) i)
      (arithmetic .plus (columnValue 0 0 amountColumn) (constantValue (.integer 1)))
      ((arithmetic .plus (columnValue 0 0 amountColumn) (constantValue (.integer 1))).evaluate (some tuple)
        (.create [amountColumn])) := by
  have hwt : WellTyped [amountColumn] [.integer 7] := rfl
  obtain ⟨tuple, hof, -, hstored⟩ := ofValues_stored hwt (by decide)
  have hget : tuple.getValue (.create [amountColumn]) 0 = .ok (.integer 7) :=
    getValue_stored hwt (by decide) hstored rfl
  refine ⟨tuple, hof, ((arithmetic_exact_iff (arithmetic .plus (columnValue 0 0 amountColumn)
    (constantValue (.integer 1))) ⟨rfl, rfl⟩).1 tuple (.create [amountColumn]) ?_ ⟨rfl, rfl, rfl, nofun⟩).mpr
    ⟨trivial, trivial, ?_⟩⟩
  · rintro (_ | i) hi
    · exact ⟨_, hget⟩
    · rw [show (Schema.create [amountColumn]).columns.length = 1 from rfl] at hi
      omega
  · intro n hn
    simp only [exactValue, hget] at hn
    cases hn
    decide

/-- `2147483647 + 2` is evaluated to `-2147483647`. -/
theorem sum_wraps_around :
    (arithmetic .plus (constantValue (.integer 2147483647)) (constantValue (.integer 2))).evaluate
      (some ⟨⟨0, 0⟩, [], by decide⟩) (.create []) = .ok (.integer (-2147483647)) ∧
    ¬ AgreesWithTypes (fun _ i => Tuple.getValue ⟨⟨0, 0⟩, [], by decide⟩ (.create []) i)
      (arithmetic .plus (constantValue (.integer 2147483647)) (constantValue (.integer 2)))
      ((arithmetic .plus (constantValue (.integer 2147483647)) (constantValue (.integer 2))).evaluate
        (some ⟨⟨0, 0⟩, [], by decide⟩) (.create [])) := by
  have heval : (arithmetic .plus (constantValue (.integer 2147483647)) (constantValue (.integer 2))).evaluate
      (some ⟨⟨0, 0⟩, [], by decide⟩) (.create []) = .ok (.integer (-2147483647)) := by decide
  refine ⟨heval, fun hagrees => ?_⟩
  rw [heval] at hagrees
  obtain ⟨msg, hmsg⟩ := hagrees.refused fun hin => absurd (hin.2.2 2147483649 (by decide)) (by decide)
  cases hmsg

end Evaluators

end Journey.Execution
