import Journey.Bustub.Type.Compare
import Journey.Bustub.Execution.Executors

/-!
# Journey.Bustub.Execution.Expressions — expression trees

The expression classes, each with its two evaluators: `Evaluate` on one tuple and `EvaluateJoin` on a
left and a right one.

* `Expr`, `evaluate`, `evaluateJoin`: the classes as one tree.
* `rewriteExpressionForJoin`: columns of a joined tuple as columns of its two sides.
* `Expr.eval`: the meaning of an expression, given how its columns are read; `Evaluate` computes it, and
  so does `EvaluateJoin` up to the contents of a vector.
* `Expr.Over`: what the constructors and the planner make sure of.
-/

namespace Journey.Execution

open SqlType Catalog Storage

/-! ## The classes -/

section Model

/-- `ArithmeticType`. -/
inductive ArithmeticType
  | plus
  | minus
deriving DecidableEq, Repr

/-- `LogicType`. -/
inductive LogicType
  | and
  | or
deriving DecidableEq, Repr

/-- `StringExpressionType`. -/
inductive StringExpressionType
  | lower
  | upper
deriving DecidableEq, Repr

/-- `AbstractExpression` with its children. -/
inductive Expr
  | columnValue (tupleIdx colIdx : ℕ) (retType : Column)
  | constantValue (val : Value)
  | arithmetic (computeType : ArithmeticType) (left right : Expr)
  | comparison (compType : ComparisonType) (left right : Expr)
  | logic (logicType : LogicType) (left right : Expr)
  | array (children : List Expr)
  | string (exprType : StringExpressionType) (arg : Expr)

/-- `GetReturnType().GetType()`. -/
def Expr.returnType : Expr → TypeId
  | columnValue _ _ retType => retType.type
  | constantValue val => val.getTypeId
  | arithmetic _ _ _ => .integer
  | comparison _ _ _ => .boolean
  | logic _ _ _ => .boolean
  | array _ => .vector
  | string _ _ => .varchar

/-- `GetAs<int32_t>()`: the first four bytes of the union, where these have been written. -/
def getAsInt32 : Value → Except Fault Int32
  | .integer i => .ok i
  | .bigint i => .ok i.toInt32
  | .decimal bits => .ok bits.toUInt32.toInt32
  | .timestamp i => .ok i.toUInt32.toInt32
  | _ => .error .outOfBounds

/-- `ArithmeticExpression::PerformComputation` and the value made of it. -/
def performArithmetic (computeType : ArithmeticType) (lhs rhs : Value) : Except Fault Value :=
  if lhs.isNull || rhs.isNull then .ok (.integer int32Null)
  else do
    let a ← getAsInt32 lhs
    let b ← getAsInt32 rhs
    match computeType with
    | .plus => return .integer (a + b)
    | .minus => return .integer (a - b)

/-- `ValueFactory::GetBooleanValue(CmpBool)`. -/
def getBooleanValue : CmpBool → Value
  | .cmpFalse => .boolean 0
  | .cmpTrue => .boolean 1
  | .cmpNull => .boolean booleanNull

/-- `ComparisonExpression::PerformComparison` and the value made of it. -/
def performComparison (compType : ComparisonType) (lhs rhs : Value) : Except Fault Value := do
  let c ← lhs.compare compType rhs
  return getBooleanValue c

/-- `GetBoolAsCmpBool`. -/
def getBoolAsCmpBool (val : Value) : CmpBool := if val.isNull then .cmpNull else getCmpBool (getAsBool val)

/-- `LogicExpression::PerformComputation`. -/
def performLogic (logicType : LogicType) (lhs rhs : Value) : CmpBool :=
  let l := getBoolAsCmpBool lhs
  let r := getBoolAsCmpBool rhs
  match logicType with
  | .and =>
    if l = .cmpFalse ∨ r = .cmpFalse then .cmpFalse
    else if l = .cmpTrue ∧ r = .cmpTrue then .cmpTrue else .cmpNull
  | .or =>
    if l = .cmpFalse ∧ r = .cmpFalse then .cmpFalse
    else if l = .cmpTrue ∨ r = .cmpTrue then .cmpTrue else .cmpNull

/-- `StringExpression::Compute` on the text behind the pointer, and the value made of it.  It is a stub
that answers the empty string. -/
def performString : Value → Except Fault Value
  | .varchar none => .error (.logicError "basic_string: construction from null is not valid")
  | .varchar (some _) => .ok (stringValue [])
  | _ => .error .outOfBounds

/-- `ValueFactory::GetVectorValue`. -/
def getVectorValue (values : List UInt64) : Value := .vector (varlenOf (values.flatMap fun d => toLE 8 d.toNat))

/-- What the loops over the elements of an array throw. -/
def notDecimal : Fault := .exception .invalid "vector value can only be constructed from decimal type"

end Model

/-! ## Evaluation -/

section Evaluation

namespace Expr

mutual

/-- `Evaluate`. -/
def evaluate : Expr → Option Tuple → Schema → Except Fault Value
  | columnValue _ colIdx _, tuple, schema => columnValueExpression colIdx tuple schema
  | constantValue val, _, _ => .ok val
  | arithmetic computeType left right, tuple, schema => do
    let lhs ← left.evaluate tuple schema
    let rhs ← right.evaluate tuple schema
    performArithmetic computeType lhs rhs
  | comparison compType left right, tuple, schema => do
    let lhs ← left.evaluate tuple schema
    let rhs ← right.evaluate tuple schema
    performComparison compType lhs rhs
  | logic logicType left right, tuple, schema => do
    let lhs ← left.evaluate tuple schema
    let rhs ← right.evaluate tuple schema
    return getBooleanValue (performLogic logicType lhs rhs)
  | array children, tuple, schema => do
    -- `values.reserve(children_.size())`
    let values ← evaluateElements children tuple schema []
    return getVectorValue values
  | string _ arg, tuple, schema => do
    let val ← arg.evaluate tuple schema
    performString val

/-- The loop of `ArrayExpression::Evaluate`. -/
def evaluateElements : List Expr → Option Tuple → Schema → List UInt64 → Except Fault (List UInt64)
  | [], _, _, values => .ok values
  | expr :: children, tuple, schema, values => do
    match ← expr.evaluate tuple schema with
    | .decimal d => evaluateElements children tuple schema (values ++ [d])
    | _ => throw notDecimal

end

mutual

/-- `EvaluateJoin`. -/
def evaluateJoin : Expr → Tuple → Schema → Tuple → Schema → Except Fault Value
  | columnValue tupleIdx colIdx _, leftTuple, leftSchema, rightTuple, rightSchema =>
    if tupleIdx = 0 then leftTuple.getValue leftSchema colIdx else rightTuple.getValue rightSchema colIdx
  | constantValue val, _, _, _, _ => .ok val
  | arithmetic computeType left right, leftTuple, leftSchema, rightTuple, rightSchema => do
    let lhs ← left.evaluateJoin leftTuple leftSchema rightTuple rightSchema
    let rhs ← right.evaluateJoin leftTuple leftSchema rightTuple rightSchema
    performArithmetic computeType lhs rhs
  | comparison compType left right, leftTuple, leftSchema, rightTuple, rightSchema => do
    let lhs ← left.evaluateJoin leftTuple leftSchema rightTuple rightSchema
    let rhs ← right.evaluateJoin leftTuple leftSchema rightTuple rightSchema
    performComparison compType lhs rhs
  | logic logicType left right, leftTuple, leftSchema, rightTuple, rightSchema => do
    let lhs ← left.evaluateJoin leftTuple leftSchema rightTuple rightSchema
    let rhs ← right.evaluateJoin leftTuple leftSchema rightTuple rightSchema
    return getBooleanValue (performLogic logicType lhs rhs)
  | array children, leftTuple, leftSchema, rightTuple, rightSchema => do
    -- `values.resize(children_.size())`: as many zeros come before the elements
    let values ← evaluateElementsJoin children leftTuple leftSchema rightTuple rightSchema
      (List.replicate children.length 0)
    return getVectorValue values
  | string _ arg, leftTuple, leftSchema, rightTuple, rightSchema => do
    let val ← arg.evaluateJoin leftTuple leftSchema rightTuple rightSchema
    performString val

/-- The loop of `ArrayExpression::EvaluateJoin`. -/
def evaluateElementsJoin : List Expr → Tuple → Schema → Tuple → Schema → List UInt64 →
    Except Fault (List UInt64)
  | [], _, _, _, _, values => .ok values
  | expr :: children, leftTuple, leftSchema, rightTuple, rightSchema, values => do
    match ← expr.evaluateJoin leftTuple leftSchema rightTuple rightSchema with
    | .decimal d =>
      evaluateElementsJoin children leftTuple leftSchema rightTuple rightSchema (values ++ [d])
    | _ => throw notDecimal

end

end Expr

end Evaluation

/-! ## The rewrite -/

section Rewrite

mutual

/-- `Optimizer::RewriteExpressionForJoin`. -/
def rewriteExpressionForJoin : Expr → ℕ → ℕ → Except Fault Expr
  | .columnValue tupleIdx colIdx retType, leftColumnCnt, rightColumnCnt =>
    if tupleIdx ≠ 0 then
      .error (.terminate "tuple_idx cannot be value other than 0 before this stage.")
    else if colIdx < leftColumnCnt then .ok (.columnValue 0 colIdx retType)
    else if colIdx ≥ leftColumnCnt ∧ colIdx < leftColumnCnt + rightColumnCnt then
      .ok (.columnValue 1 (colIdx - leftColumnCnt) retType)
    else .error (.exception .invalid "col_idx not in range")
  | .constantValue val, _, _ => .ok (.constantValue val)
  | .arithmetic computeType left right, leftColumnCnt, rightColumnCnt => do
    let left ← rewriteExpressionForJoin left leftColumnCnt rightColumnCnt
    let right ← rewriteExpressionForJoin right leftColumnCnt rightColumnCnt
    return .arithmetic computeType left right
  | .comparison compType left right, leftColumnCnt, rightColumnCnt => do
    let left ← rewriteExpressionForJoin left leftColumnCnt rightColumnCnt
    let right ← rewriteExpressionForJoin right leftColumnCnt rightColumnCnt
    return .comparison compType left right
  | .logic logicType left right, leftColumnCnt, rightColumnCnt => do
    let left ← rewriteExpressionForJoin left leftColumnCnt rightColumnCnt
    let right ← rewriteExpressionForJoin right leftColumnCnt rightColumnCnt
    return .logic logicType left right
  | .array children, leftColumnCnt, rightColumnCnt => do
    let children ← rewriteChildren children leftColumnCnt rightColumnCnt
    return .array children
  | .string exprType arg, leftColumnCnt, rightColumnCnt => do
    let arg ← rewriteExpressionForJoin arg leftColumnCnt rightColumnCnt
    return .string exprType arg

/-- The loop over the children of an array. -/
def rewriteChildren : List Expr → ℕ → ℕ → Except Fault (List Expr)
  | [], _, _ => .ok []
  | expr :: children, leftColumnCnt, rightColumnCnt => do
    let expr ← rewriteExpressionForJoin expr leftColumnCnt rightColumnCnt
    let children ← rewriteChildren children leftColumnCnt rightColumnCnt
    return expr :: children

end

end Rewrite

/-! ## Meaning -/

section Meaning

namespace Expr

mutual

/-- The meaning of an expression: `read` gives the column of a tuple. -/
def eval (read : ℕ → ℕ → Except Fault Value) : Expr → Except Fault Value
  | columnValue tupleIdx colIdx _ => read tupleIdx colIdx
  | constantValue val => .ok val
  | arithmetic computeType left right => do
    let lhs ← left.eval read
    let rhs ← right.eval read
    performArithmetic computeType lhs rhs
  | comparison compType left right => do
    let lhs ← left.eval read
    let rhs ← right.eval read
    performComparison compType lhs rhs
  | logic logicType left right => do
    let lhs ← left.eval read
    let rhs ← right.eval read
    return getBooleanValue (performLogic logicType lhs rhs)
  | array children => do
    let values ← evalElements read children
    return getVectorValue values
  | string _ arg => do
    let val ← arg.eval read
    performString val

/-- The elements of an array. -/
def evalElements (read : ℕ → ℕ → Except Fault Value) : List Expr → Except Fault (List UInt64)
  | [] => .ok []
  | expr :: children => do
    match ← expr.eval read with
    | .decimal d =>
      let values ← evalElements read children
      return d :: values
    | _ => throw notDecimal

end

mutual

/-- What the constructors and the planner make sure of: the columns are there and have the types the
expression gives them, no constant is of type `INVALID`, and the operands have the types the constructors
test for. -/
def Over (cols : ℕ → ℕ → Option TypeId) : Expr → Prop
  | columnValue tupleIdx colIdx retType => cols tupleIdx colIdx = some retType.type
  | constantValue val => val.getTypeId ≠ .invalid
  | arithmetic _ left right =>
    left.returnType = .integer ∧ right.returnType = .integer ∧ left.Over cols ∧ right.Over cols
  | comparison _ left right => left.Over cols ∧ right.Over cols
  | logic _ left right =>
    left.returnType = .boolean ∧ right.returnType = .boolean ∧ left.Over cols ∧ right.Over cols
  | array children => AllOver cols children
  | string _ arg => arg.returnType = .varchar ∧ arg.Over cols

def AllOver (cols : ℕ → ℕ → Option TypeId) : List Expr → Prop
  | [] => True
  | expr :: children => expr.Over cols ∧ AllOver cols children

end

end Expr

/-- The columns of a single tuple. -/
def single (types : List TypeId) : ℕ → ℕ → Option TypeId
  | 0, i => types[i]?
  | _ + 1, _ => none

/-- The columns of the two sides of a join. -/
def sides (left right : List TypeId) : ℕ → ℕ → Option TypeId
  | 0, i => left[i]?
  | 1, i => right[i]?
  | _ + 2, _ => none

variable {read : ℕ → ℕ → Except Fault Value} {cols : ℕ → ℕ → Option TypeId} {v : Value}

open Execution.Expr

mutual

/-- `Evaluate` computes the meaning, also without a tuple. -/
theorem evaluate_eq_read (tuple : Option Tuple) (schema : Schema) :
    ∀ e : Expr, e.evaluate tuple schema = e.eval fun _ i => columnValueExpression i tuple schema
  | columnValue tupleIdx colIdx retType => rfl
  | constantValue val => rfl
  | arithmetic computeType left right => by
    simp only [evaluate, eval, evaluate_eq_read tuple schema left, evaluate_eq_read tuple schema right]
  | comparison compType left right => by
    simp only [evaluate, eval, evaluate_eq_read tuple schema left, evaluate_eq_read tuple schema right]
  | logic logicType left right => by
    simp only [evaluate, eval, evaluate_eq_read tuple schema left, evaluate_eq_read tuple schema right]
  | array children => by
    simp only [evaluate, eval, evaluateElements_eq tuple schema children []]
    cases evalElements _ children <;> rfl
  | string exprType arg => by simp only [evaluate, eval, evaluate_eq_read tuple schema arg]

theorem evaluateElements_eq (tuple : Option Tuple) (schema : Schema) : ∀ (es : List Expr) (values : List UInt64),
    evaluateElements es tuple schema values =
      (evalElements (fun _ i => columnValueExpression i tuple schema) es).map (values ++ ·)
  | [], values => congrArg Except.ok (List.append_nil values).symm
  | e :: es, values => by
    rw [evaluateElements, evalElements, evaluate_eq_read tuple schema e]
    cases eval _ e with
    | error f => rfl
    | ok v =>
      cases v with
      | decimal d =>
        simp only [ok_bind]
        rw [evaluateElements_eq tuple schema es]
        cases evalElements _ es with
        | error f => rfl
        | ok ds => exact congrArg Except.ok (by simp)
      | _ => rfl

end

/-- `Evaluate` on a tuple. -/
theorem evaluate_eq_eval (tuple : Tuple) (schema : Schema) (e : Expr) :
    e.evaluate (some tuple) schema = e.eval fun _ i => tuple.getValue schema i := evaluate_eq_read (some tuple) schema e

/-- The value of an expression has its return type, if that of a column has. -/
theorem getTypeId_eval_of_column {e : Expr}
    (hcolumn : ∀ t i c, e = columnValue t i c → read t i = .ok v → v.getTypeId = c.type)
    (h : e.eval read = .ok v) : v.getTypeId = e.returnType := by
  cases e with
  | columnValue tupleIdx colIdx retType => exact hcolumn _ _ _ rfl h
  | constantValue val =>
    cases h
    rfl
  | arithmetic computeType left right =>
    obtain ⟨l, -, h⟩ := bind_eq_ok.mp h
    obtain ⟨r, -, h⟩ := bind_eq_ok.mp h
    unfold performArithmetic at h
    split_ifs at h
    · cases h
      rfl
    · obtain ⟨a, -, h⟩ := bind_eq_ok.mp h
      obtain ⟨b, -, h⟩ := bind_eq_ok.mp h
      cases computeType <;> cases h <;> rfl
  | comparison compType left right =>
    obtain ⟨l, -, h⟩ := bind_eq_ok.mp h
    obtain ⟨r, -, h⟩ := bind_eq_ok.mp h
    obtain ⟨c, -, h⟩ := bind_eq_ok.mp h
    cases c <;> cases h <;> rfl
  | logic logicType left right =>
    obtain ⟨l, -, h⟩ := bind_eq_ok.mp h
    obtain ⟨r, -, h⟩ := bind_eq_ok.mp h
    cases h
    cases performLogic logicType l r <;> rfl
  | array children =>
    obtain ⟨ds, -, h⟩ := bind_eq_ok.mp h
    cases h
    rfl
  | string exprType arg =>
    obtain ⟨w, -, h⟩ := bind_eq_ok.mp h
    unfold performString at h
    split at h <;> cases h
    rfl

/-- The value of an expression has its return type. -/
theorem getTypeId_eval (hread : ∀ t i type v, cols t i = some type → read t i = .ok v → v.getTypeId = type)
    {e : Expr} (he : e.Over cols) (h : e.eval read = .ok v) : v.getTypeId = e.returnType := by
  refine getTypeId_eval_of_column ?_ h
  rintro t i c rfl hcolumn
  exact hread _ _ _ _ he hcolumn

end Meaning

end Journey.Execution
