import Journey.Bustub.Execution.Expressions

/-!
# Journey.Bustub.Execution.JoinRewrite — expressions over the two sides of a join

`RewriteExpressionForJoin` turns an expression over a joined tuple into one over its two sides.  The
rewritten expression means the same; but `ArrayExpression::EvaluateJoin` does not compute what it means,
since it sizes its result before it appends to it.

* `Alike`: two results that differ in the contents of a vector at most.
* `evaluateJoin_alike`: `EvaluateJoin` against the meaning.
* `rewrite_spec`: the rewritten expression means the same.
* `rewrite_evaluates_alike`: exactly when `EvaluateJoin` of it is `Evaluate` of the original.
-/

namespace Journey.Execution

open SqlType Catalog Storage Execution.Expr

/-! ## Results up to the contents of a vector -/

section Alike

variable {a b c d : Except Fault Value} {values : List UInt64}

/-- The same result, or two vectors. -/
def Alike (a b : Except Fault Value) : Prop :=
  a = b ∨ ∃ x y : Varlen, a = .ok (.vector (some x)) ∧ b = .ok (.vector (some y))

theorem length_vectorBytes (values : List UInt64) :
    (values.flatMap fun d => toLE 8 d.toNat).length = 8 * values.length := by
  induction values with
  | nil => rfl
  | cons d values ih =>
    rw [List.flatMap_cons, List.length_append, length_toLE, ih, List.length_cons]
    omega

/-- A vector is never null, and its size is cut to 32 bits. -/
theorem getVectorValue_eq (values : List UInt64) :
    ∃ x : Varlen, getVectorValue values = .vector (some x) ∧ x.1.length = 8 * values.length % 2 ^ 32 := by
  have hlen : ((values.flatMap fun d => toLE 8 d.toNat).take
      ((values.flatMap fun d => toLE 8 d.toNat).length % 2 ^ 32)).length = 8 * values.length % 2 ^ 32 := by
    rw [List.length_take, length_vectorBytes]
    exact Nat.min_eq_left (Nat.mod_le _ _)
  unfold getVectorValue varlenOf
  dsimp only
  rw [dif_pos (by rw [hlen]; omega)]
  exact ⟨_, rfl, hlen⟩

theorem alike_vectors (u w : List UInt64) : Alike (.ok (getVectorValue u)) (.ok (getVectorValue w)) := by
  obtain ⟨x, hx, -⟩ := getVectorValue_eq u
  obtain ⟨y, hy, -⟩ := getVectorValue_eq w
  exact .inr ⟨x, y, by rw [hx], by rw [hy]⟩

/-- A comparison does not see the difference. -/
theorem comparison_alike (op : ComparisonType) (hl : Alike a b) (hr : Alike c d) :
    (do let lhs ← a; let rhs ← c; performComparison op lhs rhs) =
      (do let lhs ← b; let rhs ← d; performComparison op lhs rhs) := by
  rcases hl with rfl | ⟨x, y, rfl, rfl⟩
  · rcases hr with rfl | ⟨x, y, rfl, rfl⟩
    · rfl
    · cases a with
      | error f => rfl
      | ok v =>
        simp only [ok_bind]
        unfold performComparison
        rw [compare_vector]
  · rcases hr with rfl | ⟨z, w, rfl, rfl⟩
    · rfl
    · rfl

end Alike

/-! ## `EvaluateJoin` -/

section EvaluateJoin

/-- Whether the expression is an `ArrayExpression`. -/
def isArray : Expr → Bool
  | array _ => true
  | _ => false

variable {left right tuple : Tuple} {leftSchema rightSchema schema : Schema} {cols : ℕ → ℕ → Option TypeId}

/-- The columns as `EvaluateJoin` reads them. -/
def readSides (left : Tuple) (leftSchema : Schema) (right : Tuple) (rightSchema : Schema) (t i : ℕ) :
    Except Fault Value :=
  if t = 0 then left.getValue leftSchema i else right.getValue rightSchema i

theorem isArray_of_returnType {e : Expr} (h : e.returnType ≠ .vector) : isArray e = false := by
  cases e with
  | array es => exact absurd rfl h
  | _ => rfl

mutual

/-- **`EvaluateJoin` computes the meaning**, up to the contents of a vector, and exactly if the
expression is not an array. -/
theorem evaluateJoin_alike : ∀ e : Expr, e.Over cols →
    (isArray e = false → e.evaluateJoin left leftSchema right rightSchema =
      e.eval (readSides left leftSchema right rightSchema)) ∧
    Alike (e.evaluateJoin left leftSchema right rightSchema)
      (e.eval (readSides left leftSchema right rightSchema))
  | columnValue tupleIdx colIdx retType, _ => ⟨fun _ => rfl, .inl rfl⟩
  | constantValue val, _ => ⟨fun _ => rfl, .inl rfl⟩
  | arithmetic computeType l r, ⟨hltype, hrtype, hl, hr⟩ => by
    have hleft := (evaluateJoin_alike l hl).1 (isArray_of_returnType (by rw [hltype]; decide))
    have hright := (evaluateJoin_alike r hr).1 (isArray_of_returnType (by rw [hrtype]; decide))
    have h : (arithmetic computeType l r).evaluateJoin left leftSchema right rightSchema =
        (arithmetic computeType l r).eval (readSides left leftSchema right rightSchema) := by
      simp only [evaluateJoin, eval, hleft, hright]
    exact ⟨fun _ => h, .inl h⟩
  | comparison compType l r, ⟨hl, hr⟩ => by
    have h : (comparison compType l r).evaluateJoin left leftSchema right rightSchema =
        (comparison compType l r).eval (readSides left leftSchema right rightSchema) := by
      simp only [evaluateJoin, eval]
      exact comparison_alike compType (evaluateJoin_alike l hl).2 (evaluateJoin_alike r hr).2
    exact ⟨fun _ => h, .inl h⟩
  | logic logicType l r, ⟨hltype, hrtype, hl, hr⟩ => by
    have hleft := (evaluateJoin_alike l hl).1 (isArray_of_returnType (by rw [hltype]; decide))
    have hright := (evaluateJoin_alike r hr).1 (isArray_of_returnType (by rw [hrtype]; decide))
    have h : (logic logicType l r).evaluateJoin left leftSchema right rightSchema =
        (logic logicType l r).eval (readSides left leftSchema right rightSchema) := by
      simp only [evaluateJoin, eval, hleft, hright]
    exact ⟨fun _ => h, .inl h⟩
  | array es, h => by
    refine ⟨fun hne => Bool.noConfusion hne, ?_⟩
    simp only [evaluateJoin, eval, evaluateElementsJoin_eq es h]
    cases evalElements _ es with
    | error f => exact .inl rfl
    | ok ds => exact alike_vectors _ _
  | string exprType arg, ⟨htype, h⟩ => by
    have harg := (evaluateJoin_alike arg h).1 (isArray_of_returnType (by rw [htype]; decide))
    have heq : (string exprType arg).evaluateJoin left leftSchema right rightSchema =
        (string exprType arg).eval (readSides left leftSchema right rightSchema) := by
      simp only [evaluateJoin, eval, harg]
    exact ⟨fun _ => heq, .inl heq⟩

theorem evaluateElementsJoin_eq : ∀ es : List Expr, AllOver cols es → ∀ values : List UInt64,
    evaluateElementsJoin es left leftSchema right rightSchema values =
      (evalElements (readSides left leftSchema right rightSchema) es).map (values ++ ·)
  | [], _, values => congrArg Except.ok (List.append_nil values).symm
  | e :: es, ⟨he, hes⟩, values => by
    rw [evaluateElementsJoin, evalElements]
    rcases (evaluateJoin_alike e he).2 with heq | ⟨x, y, hx, hy⟩
    · rw [heq]
      cases eval _ e with
      | error f => rfl
      | ok v =>
        cases v with
        | decimal d =>
          simp only [ok_bind]
          rw [evaluateElementsJoin_eq es hes]
          cases evalElements _ es with
          | error f => rfl
          | ok ds => exact congrArg Except.ok (by simp)
        | _ => rfl
    · -- a vector is refused, whatever it holds
      rw [hx, hy]
      rfl

end

end EvaluateJoin

/-! ## The rewritten expression -/

section Rewritten

variable {lt rt : List TypeId}

/-- The columns of a joined tuple, as `whole` reads them, are those of its two sides. -/
structure Splits (lt rt : List TypeId) (whole parts : ℕ → ℕ → Except Fault Value) : Prop where
  left : ∀ i < lt.length, whole 0 i = parts 0 i
  right : ∀ j < rt.length, whole 0 (lt.length + j) = parts 1 j

theorem rewrite_column {colIdx : ℕ} {retType : Column} {tupleIdx : ℕ}
    (h : single (lt ++ rt) tupleIdx colIdx = some retType.type) :
    ∃ t i, rewriteExpressionForJoin (columnValue tupleIdx colIdx retType) lt.length rt.length =
        .ok (columnValue t i retType) ∧ sides lt rt t i = some retType.type ∧
      ∀ whole parts, Splits lt rt whole parts → parts t i = whole tupleIdx colIdx := by
  cases tupleIdx with
  | succ n => cases h
  | zero =>
    change (lt ++ rt)[colIdx]? = _ at h
    have hlt := (List.getElem?_eq_some_iff.mp h).1
    rw [List.length_append] at hlt
    unfold rewriteExpressionForJoin
    rw [if_neg (by omega)]
    by_cases hleft : colIdx < lt.length
    · rw [if_pos hleft]
      rw [List.getElem?_append_left hleft] at h
      exact ⟨0, colIdx, rfl, h, fun whole parts hs => (hs.left colIdx hleft).symm⟩
    · rw [if_neg hleft, if_pos ⟨by omega, by omega⟩]
      rw [List.getElem?_append_right (by omega)] at h
      refine ⟨1, colIdx - lt.length, rfl, h, ?_⟩
      intro whole parts hs
      have hright := hs.right (colIdx - lt.length) (by omega)
      rw [show lt.length + (colIdx - lt.length) = colIdx by omega] at hright
      exact hright.symm

/-- What the rewrite makes of an expression. -/
structure Rewritten (lt rt : List TypeId) (e e' : Expr) : Prop where
  columns : e'.Over (sides lt rt)
  returnType : e'.returnType = e.returnType
  isArray : isArray e' = isArray e
  eval : ∀ whole parts, Splits lt rt whole parts → e'.eval parts = e.eval whole

mutual

/-- **The rewritten expression** is one over the two sides of the join, and means the same. -/
theorem rewrite_spec : ∀ e : Expr, e.Over (single (lt ++ rt)) →
    ∃ e', rewriteExpressionForJoin e lt.length rt.length = .ok e' ∧ Rewritten lt rt e e'
  | columnValue tupleIdx colIdx retType, h => by
    obtain ⟨t, i, hrw, hover, hread⟩ := rewrite_column h
    exact ⟨_, hrw, hover, rfl, rfl, hread⟩
  | constantValue val, h => ⟨_, rfl, h, rfl, rfl, fun _ _ _ => rfl⟩
  | arithmetic computeType l r, ⟨hltype, hrtype, hl, hr⟩ => by
    obtain ⟨l', hl', hlo, hlt, -, hle⟩ := rewrite_spec l hl
    obtain ⟨r', hr', hro, hrt, -, hre⟩ := rewrite_spec r hr
    refine ⟨arithmetic computeType l' r', ?_, ⟨hlt.trans hltype, hrt.trans hrtype, hlo, hro⟩, rfl, rfl, ?_⟩
    · rw [rewriteExpressionForJoin, hl', ok_bind, hr']
      rfl
    · intro whole parts hs
      simp only [eval, hle whole parts hs, hre whole parts hs]
  | comparison compType l r, ⟨hl, hr⟩ => by
    obtain ⟨l', hl', hlo, -, -, hle⟩ := rewrite_spec l hl
    obtain ⟨r', hr', hro, -, -, hre⟩ := rewrite_spec r hr
    refine ⟨comparison compType l' r', ?_, ⟨hlo, hro⟩, rfl, rfl, ?_⟩
    · rw [rewriteExpressionForJoin, hl', ok_bind, hr']
      rfl
    · intro whole parts hs
      simp only [eval, hle whole parts hs, hre whole parts hs]
  | logic logicType l r, ⟨hltype, hrtype, hl, hr⟩ => by
    obtain ⟨l', hl', hlo, hlt, -, hle⟩ := rewrite_spec l hl
    obtain ⟨r', hr', hro, hrt, -, hre⟩ := rewrite_spec r hr
    refine ⟨logic logicType l' r', ?_, ⟨hlt.trans hltype, hrt.trans hrtype, hlo, hro⟩, rfl, rfl, ?_⟩
    · rw [rewriteExpressionForJoin, hl', ok_bind, hr']
      rfl
    · intro whole parts hs
      simp only [eval, hle whole parts hs, hre whole parts hs]
  | array es, h => by
    obtain ⟨es', hes', hover, -, heval⟩ := rewriteChildren_spec es h
    refine ⟨array es', ?_, hover, rfl, rfl, ?_⟩
    · rw [rewriteExpressionForJoin, hes']
      rfl
    · intro whole parts hs
      simp only [eval, heval whole parts hs]
  | string exprType arg, ⟨htype, h⟩ => by
    obtain ⟨arg', harg', hover, ht, -, heval⟩ := rewrite_spec arg h
    refine ⟨string exprType arg', ?_, ⟨ht.trans htype, hover⟩, rfl, rfl, ?_⟩
    · rw [rewriteExpressionForJoin, harg']
      rfl
    · intro whole parts hs
      simp only [eval, heval whole parts hs]

theorem rewriteChildren_spec : ∀ es : List Expr, AllOver (single (lt ++ rt)) es →
    ∃ es', rewriteChildren es lt.length rt.length = .ok es' ∧ AllOver (sides lt rt) es' ∧
      es'.length = es.length ∧
      ∀ whole parts, Splits lt rt whole parts → evalElements parts es' = evalElements whole es
  | [], _ => ⟨[], rfl, trivial, rfl, fun _ _ _ => rfl⟩
  | e :: es, ⟨he, hes⟩ => by
    obtain ⟨e', he', hover, -, -, heval⟩ := rewrite_spec e he
    obtain ⟨es', hes', hovers, hlen, hevals⟩ := rewriteChildren_spec es hes
    refine ⟨e' :: es', ?_, ⟨hover, hovers⟩, by rw [List.length_cons, List.length_cons, hlen], ?_⟩
    · rw [rewriteChildren, he', ok_bind, hes']
      rfl
    · intro whole parts hs
      simp only [evalElements, heval whole parts hs, hevals whole parts hs]

end

end Rewritten

/-! ## Arrays -/

section Arrays

variable {read : ℕ → ℕ → Except Fault Value} {cols : ℕ → ℕ → Option TypeId}

/-- The columns can be read, and have their types. -/
def Reads (cols : ℕ → ℕ → Option TypeId) (read : ℕ → ℕ → Except Fault Value) : Prop :=
  ∀ t i type, cols t i = some type → ∃ v, read t i = .ok v ∧ v.getTypeId = type

theorem Reads.getTypeId (h : Reads cols read) (t i : ℕ) (type : TypeId) (v : Value)
    (hcol : cols t i = some type) (hv : read t i = .ok v) : v.getTypeId = type := by
  obtain ⟨w, hw, htype⟩ := h t i type hcol
  rw [hv] at hw
  cases hw
  exact htype

/-- An expression of type `DECIMAL` is a column or a constant, so it has a value. -/
theorem eval_decimal (h : Reads cols read) {e : Expr} (he : e.Over cols) (htype : e.returnType = .decimal) :
    ∃ d, e.eval read = .ok (.decimal d) := by
  have hok : ∃ v, e.eval read = .ok v := by
    cases e with
    | columnValue tupleIdx colIdx retType =>
      obtain ⟨v, hv, -⟩ := h tupleIdx colIdx retType.type he
      exact ⟨v, hv⟩
    | constantValue val => exact ⟨val, rfl⟩
    | _ => cases htype
  obtain ⟨v, hv⟩ := hok
  have hdec := (getTypeId_eval h.getTypeId he hv).trans htype
  cases v with
  | decimal d => exact ⟨d, hv⟩
  | _ => cases hdec

/-- The elements have values if all of them are of type `DECIMAL`. -/
theorem evalElements_ok (h : Reads cols read) : ∀ es : List Expr, AllOver cols es →
    (∀ e ∈ es, e.returnType = .decimal) → ∃ ds, evalElements read es = .ok ds
  | [], _, _ => ⟨[], rfl⟩
  | e :: es, ⟨he, hes⟩, htypes => by
    obtain ⟨d, hd⟩ := eval_decimal h he (htypes e (List.mem_cons_self ..))
    obtain ⟨ds, hds⟩ := evalElements_ok h es hes fun e' he' => htypes e' (List.mem_cons_of_mem _ he')
    refine ⟨d :: ds, ?_⟩
    rw [evalElements, hd, ok_bind]
    dsimp only
    rw [hds]
    rfl

/-- Elements that have values are as many, and of type `DECIMAL`. -/
theorem of_evalElements_ok (h : Reads cols read) : ∀ (es : List Expr) {ds : List UInt64}, AllOver cols es →
    evalElements read es = .ok ds → ds.length = es.length ∧ ∀ e ∈ es, e.returnType = .decimal
  | [], ds, _, hds => by
    cases hds
    exact ⟨rfl, nofun⟩
  | e :: es, ds, ⟨he, hes⟩, hds => by
    rw [evalElements] at hds
    obtain ⟨v, hv, hds⟩ := bind_eq_ok.mp hds
    have htype := getTypeId_eval h.getTypeId he hv
    cases v with
    | decimal d =>
      obtain ⟨ds', hds', hcons⟩ := bind_eq_ok.mp hds
      cases hcons
      obtain ⟨hlen, htypes⟩ := of_evalElements_ok h es hes hds'
      refine ⟨by rw [List.length_cons, List.length_cons, hlen], ?_⟩
      intro e' he'
      rcases List.mem_cons.mp he' with rfl | hmem
      · exact htype.symm
      · exact htypes e' hmem
    | _ => cases hds

/-- Zeros in front of the elements show, unless the size of the vector wraps around. -/
theorem getVectorValue_padded (ds : List UInt64) :
    getVectorValue (List.replicate ds.length 0 ++ ds) = getVectorValue ds ↔ ds.length % 2 ^ 29 = 0 := by
  obtain ⟨x, hx, hxlen⟩ := getVectorValue_eq (List.replicate ds.length 0 ++ ds)
  obtain ⟨y, hy, hylen⟩ := getVectorValue_eq ds
  rw [List.length_append, List.length_replicate] at hxlen
  rw [hx, hy]
  constructor
  · intro heq
    cases heq
    omega
  · intro hmod
    have hxnil : x.1 = [] := List.length_eq_zero_iff.mp (by omega)
    have hynil : y.1 = [] := List.length_eq_zero_iff.mp (by omega)
    rw [show x = y from Subtype.ext (hxnil.trans hynil.symm)]

end Arrays

/-! ## The two evaluators -/

section Evaluators

/-- The types of the columns. -/
def columnTypes (schema : Schema) : List TypeId := schema.columns.map Column.type

/-- The tuple has the columns of the left one and behind them those of the right one. -/
structure Concatenates (left : Tuple) (leftSchema : Schema) (right : Tuple) (rightSchema : Schema)
    (tuple : Tuple) (schema : Schema) : Prop where
  types : columnTypes schema = columnTypes leftSchema ++ columnTypes rightSchema
  left : ∀ i < leftSchema.columns.length, ∃ v, left.getValue leftSchema i = .ok v ∧
    tuple.getValue schema i = .ok v
  right : ∀ j < rightSchema.columns.length, ∃ v, right.getValue rightSchema j = .ok v ∧
    tuple.getValue schema (leftSchema.columns.length + j) = .ok v

/-- The expression is an array of `DECIMAL`s whose number is not a multiple of `2^29`. -/
def DecimalArray : Expr → Prop
  | array es => es.length % 2 ^ 29 ≠ 0 ∧ ∀ e ∈ es, e.returnType = .decimal
  | _ => False

variable {left right tuple : Tuple} {leftSchema rightSchema schema : Schema}

theorem Concatenates.splits (h : Concatenates left leftSchema right rightSchema tuple schema) :
    Splits (columnTypes leftSchema) (columnTypes rightSchema) (fun _ i => tuple.getValue schema i)
      (readSides left leftSchema right rightSchema) := by
  refine ⟨?_, ?_⟩
  · intro i hi
    rw [columnTypes, List.length_map] at hi
    obtain ⟨v, hv, hw⟩ := h.left i hi
    exact hw.trans hv.symm
  · intro j hj
    rw [columnTypes, List.length_map] at hj ⊢
    obtain ⟨v, hv, hw⟩ := h.right j hj
    exact hw.trans hv.symm

theorem Concatenates.reads (h : Concatenates left leftSchema right rightSchema tuple schema) :
    Reads (single (columnTypes schema)) fun _ i => tuple.getValue schema i := by
  intro t i type hcol
  cases t with
  | succ t => cases hcol
  | zero =>
    have hlen := congrArg List.length h.types
    change (columnTypes schema)[i]? = some type at hcol
    unfold columnTypes at hcol hlen
    rw [List.getElem?_map] at hcol
    rw [List.length_append, List.length_map, List.length_map, List.length_map] at hlen
    obtain ⟨c, hc, rfl⟩ := Option.map_eq_some_iff.mp hcol
    have hi := (List.getElem?_eq_some_iff.mp hc).1
    have hok : ∃ v, tuple.getValue schema i = .ok v := by
      by_cases hleft : i < leftSchema.columns.length
      · obtain ⟨v, -, hv⟩ := h.left i hleft
        exact ⟨v, hv⟩
      · obtain ⟨v, -, hv⟩ := h.right (i - leftSchema.columns.length) (by omega)
        rw [show leftSchema.columns.length + (i - leftSchema.columns.length) = i by omega] at hv
        exact ⟨v, hv⟩
    obtain ⟨v, hv⟩ := hok
    exact ⟨v, hv, getTypeId_getValue hc hv⟩

/-- Tuples built of the values of the two sides, and of all of them. -/
theorem concatenates_ofValues {leftCols rightCols : List Column} {leftValues rightValues : List Value}
    (hl : WellTyped leftCols leftValues) (hr : WellTyped rightCols rightValues)
    (hsize : encodedSize (leftCols ++ rightCols) (leftValues ++ rightValues) < 2 ^ 31) :
    ∃ left right tuple, Tuple.ofValues leftValues (.create leftCols) = .ok left ∧
      Tuple.ofValues rightValues (.create rightCols) = .ok right ∧
      Tuple.ofValues (leftValues ++ rightValues) (.create (leftCols ++ rightCols)) = .ok tuple ∧
      Concatenates left (.create leftCols) right (.create rightCols) tuple
        (.create (leftCols ++ rightCols)) := by
  have hsum := encodedSize_append (r := rightCols) hl.length_eq rightValues
  have hwt : WellTyped (leftCols ++ rightCols) (leftValues ++ rightValues) := by
    unfold WellTyped at *
    rw [List.map_append, List.map_append, hl, hr]
  obtain ⟨left, hleft, hgetl⟩ := ofValues_getValue hl (by omega)
  obtain ⟨right, hright, hgetr⟩ := ofValues_getValue hr (by omega)
  obtain ⟨tuple, htuple, hget⟩ := ofValues_getValue hwt hsize
  refine ⟨left, right, tuple, hleft, hright, htuple, ?_, ?_, ?_⟩
  · have htypes : ∀ cols, columnTypes (.create cols) = cols.map Column.type := by
      intro cols
      refine List.ext_getElem? ?_
      intro i
      unfold columnTypes
      rw [List.getElem?_map, getElem?_create, List.getElem?_map, Option.map_map]
      rfl
    rw [htypes, htypes, htypes, List.map_append]
  · intro i hi
    rw [length_create, ← hl.length_eq] at hi
    have hv := List.getElem?_eq_getElem hi
    exact ⟨_, hgetl i _ hv, hget i _ (by rw [List.getElem?_append_left hi, hv])⟩
  · intro j hj
    rw [length_create, ← hr.length_eq] at hj
    have hv := List.getElem?_eq_getElem hj
    refine ⟨_, hgetr j _ hv, hget _ _ ?_⟩
    rw [length_create, ← hl.length_eq, List.getElem?_append_right (by omega), Nat.add_sub_cancel_left, hv]

/-- **Rewriting for a join.**  For every expression over the columns of a joined tuple, every split of
these into a left and a right part and every left and right tuple: the expression is rewritten, and
`EvaluateJoin` of the result on the two sides ends exactly as `Evaluate` of the original on the
concatenated tuple does, if and only if it is not an array of `DECIMAL`s. -/
theorem rewrite_evaluates_alike (h : Concatenates left leftSchema right rightSchema tuple schema) (e : Expr)
    (he : e.Over (single (columnTypes schema))) :
    ∃ e', rewriteExpressionForJoin e leftSchema.columns.length rightSchema.columns.length = .ok e' ∧
      (e'.evaluateJoin left leftSchema right rightSchema = e.evaluate (some tuple) schema ↔
        ¬ DecimalArray e) := by
  have hreads := h.reads
  have hover := he
  rw [h.types] at hover
  obtain ⟨e', hrw, hspec⟩ := rewrite_spec e hover
  have hmeans := hspec.eval _ _ h.splits
  refine ⟨e', by simpa only [columnTypes, List.length_map] using hrw, ?_⟩
  rw [evaluate_eq_eval]
  cases e with
  | array es =>
    obtain ⟨es', hes', hover', hlen, heval⟩ := rewriteChildren_spec es hover
    have he' : e' = array es' := by
      rw [rewriteExpressionForJoin, hes'] at hrw
      exact (Except.ok.inj hrw).symm
    subst he'
    simp only [evaluateJoin, eval, evaluateElementsJoin_eq es' hover', heval _ _ h.splits]
    cases hds : evalElements (fun _ i => tuple.getValue schema i) es with
    | error f =>
      -- both evaluators fail at the same element
      refine ⟨fun _ hdec => ?_, fun _ => rfl⟩
      obtain ⟨ds, hds'⟩ := evalElements_ok hreads es he hdec.2
      rw [hds] at hds'
      cases hds'
    | ok ds =>
      obtain ⟨hds_len, htypes⟩ := of_evalElements_ok hreads es he hds
      have hpadded := getVectorValue_padded ds
      rw [hds_len] at hpadded
      show Except.ok (getVectorValue (List.replicate es'.length 0 ++ ds)) = Except.ok (getVectorValue ds) ↔ _
      rw [hlen, Except.ok.injEq, hpadded]
      exact ⟨fun hmod hdec => hdec.1 hmod, fun hnot => not_not.mp fun hmod => hnot ⟨hmod, htypes⟩⟩
  | _ =>
    refine ⟨fun _ => id, fun _ => ?_⟩
    rw [← hmeans]
    exact (evaluateJoin_alike e' hspec.columns).1 hspec.isArray

/-- A table with a `DECIMAL` column. -/
def priceColumn : Column := .fixed "price" .decimal 8 decimal_fixed decimal_size

/-- A table with an `INTEGER` column. -/
def amountColumn : Column := .fixed "amount" .integer 4 integer_fixed integer_size

/-- `1.0` on the left, `7` on the right. -/
theorem concatenates_price_amount : ∃ left right tuple,
    Concatenates left (.create [priceColumn]) right (.create [amountColumn]) tuple
      (.create [priceColumn, amountColumn]) := by
  have hl : WellTyped [priceColumn] [.decimal 0x3FF0000000000000] := rfl
  have hr : WellTyped [amountColumn] [.integer 7] := rfl
  obtain ⟨left, right, tuple, -, -, -, h⟩ := concatenates_ofValues hl hr (by decide)
  exact ⟨left, right, tuple, h⟩

/-- `amount = 7` becomes a comparison with column 0 of the right side. -/
theorem rewrite_evaluates_alike_amount : ∃ left right tuple e',
    rewriteExpressionForJoin (comparison .equal (columnValue 0 1 amountColumn) (constantValue (.integer 7)))
      1 1 = .ok e' ∧
    e'.evaluateJoin left (.create [priceColumn]) right (.create [amountColumn]) =
      (comparison .equal (columnValue 0 1 amountColumn) (constantValue (.integer 7))).evaluate (some tuple)
        (.create [priceColumn, amountColumn]) := by
  obtain ⟨left, right, tuple, h⟩ := concatenates_price_amount
  obtain ⟨e', hrw, heq⟩ := rewrite_evaluates_alike h
    (comparison .equal (columnValue 0 1 amountColumn) (constantValue (.integer 7))) ⟨rfl, nofun⟩
  exact ⟨left, right, tuple, e', hrw, heq.mpr id⟩

/-- `[price]` is evaluated to one element, and by `EvaluateJoin` to two. -/
theorem array_join_padded :
    ¬ ∀ (left : Tuple) (leftSchema : Schema) (right : Tuple) (rightSchema : Schema) (tuple : Tuple)
      (schema : Schema), Concatenates left leftSchema right rightSchema tuple schema →
      ∀ e : Expr, e.Over (single (columnTypes schema)) →
        ∃ e', rewriteExpressionForJoin e leftSchema.columns.length rightSchema.columns.length = .ok e' ∧
          e'.evaluateJoin left leftSchema right rightSchema = e.evaluate (some tuple) schema := by
  intro hclaim
  obtain ⟨left, right, tuple, h⟩ := concatenates_price_amount
  obtain ⟨e', hrw, heq⟩ := hclaim _ _ _ _ _ _ h (array [columnValue 0 0 priceColumn]) ⟨rfl, trivial⟩
  cases Except.ok.inj hrw
  obtain ⟨v, hv, hw⟩ := h.left 0 (by decide)
  have htype : v.getTypeId = .decimal := getTypeId_getValue (i := 0) rfl hw
  cases v with
  | decimal d =>
    have hjoin : (array [columnValue 0 0 priceColumn]).evaluateJoin left (.create [priceColumn]) right
        (.create [amountColumn]) = .ok (getVectorValue [0, d]) := by
      simp only [evaluateJoin, evaluateElementsJoin, if_true, hv, ok_bind]
      rfl
    have hone : (array [columnValue 0 0 priceColumn]).evaluate (some tuple)
        (.create [priceColumn, amountColumn]) = .ok (getVectorValue [d]) := by
      simp only [evaluate, evaluateElements, columnValueExpression, hw, ok_bind]
      rfl
    rw [hjoin, hone] at heq
    have hmod : 1 % 2 ^ 29 = 0 := (getVectorValue_padded [d]).mp (Except.ok.inj heq)
    exact absurd hmod (by decide)
  | _ => cases htype

end Evaluators

end Journey.Execution
