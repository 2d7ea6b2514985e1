import Journey.Bustub.Type.Arithmetic
import Journey.Bustub.Optimizer.MergeFilterNLJ

/-!
# Journey.Bustub.Optimizer.EliminateTrueFilter — filters on constants

`OptimizeEliminateTrueFilter` removes a filter whose predicate is a constant that counts as true: it casts the constant
to `BOOLEAN` and reads the byte.  `FilterExecutor` does not cast; it asks whether the constant is null and reads the
first byte of whatever its payload is.

* `eliminateTrueFilter`, `optimizeEliminateTrueFilter`: the rule and the pass.
* `keeps`, `filterResults`: the test of `FilterExecutor` on a constant of any type, and what a filter yields.
* `DecidesRight`: the rule removes a filter only if it keeps every row, and does not throw.
* `eliminate_true_filter_iff`: for which constants it does so, and that the pass then changes no plan's rows.
-/

namespace Journey.Optimizer

open SqlType Catalog Execution

/-! ## The rule -/

section Model

variable {κ : Type}

/-- What `OptimizeEliminateTrueFilter` does at a node, after its children. -/
def eliminateTrueFilter : PlanNode κ → Except Fault (PlanNode κ)
  | .node (schema, .filter predicate) children => do
    if ← isPredicateTrue predicate then
      match children with
      | [child] => return child
      | _ => throw (.terminate "must have exactly one children")
    else return .node (schema, .filter predicate) children
  | optimizedPlan => .ok optimizedPlan

/-- `Optimizer::OptimizeEliminateTrueFilter`. -/
def optimizeEliminateTrueFilter : PlanNode κ → Except Fault (PlanNode κ) := Tree.bottomUp eliminateTrueFilter

end Model

/-! ## The executor -/

section Executor

/-- `value.GetAs<bool>()` of a value of any type: the first byte of the payload is not zero.  For a string or a vector
that is the first byte of the address of its copy. -/
def readsBool (address : UInt8) : Value → Bool
  | .invalid => false
  | .boolean i => i.toUInt8 != 0
  | .tinyint i => i.toUInt8 != 0
  | .smallint i => i.toUInt16.toUInt8 != 0
  | .integer i => i.toUInt32.toUInt8 != 0
  | .bigint i => i.toUInt64.toUInt8 != 0
  | .decimal bits => bits.toUInt8 != 0
  | .varchar _ => address != 0
  | .timestamp i => i.toUInt8 != 0
  | .vector _ => address != 0

/-- The test of `FilterExecutor::Next`: the value is not null, and read as true. -/
def keeps (address : UInt8) (value : Value) : Bool := !value.isNull && readsBool address value

/-- On a `BOOLEAN` this is the test of a predicate. -/
theorem keeps_boolean (address : UInt8) (i : Int8) :
    keeps address (.boolean i) = (!(Value.boolean i).isNull && getAsBool (.boolean i)) := by
  have hzero : i.toUInt8 = 0 ↔ i = 0 := by
    constructor
    · intro h
      simpa using congrArg UInt8.toInt8 h
    · rintro rfl
      rfl
  have hbyte : (i.toUInt8 != 0) = (i != 0) := by
    rw [Bool.eq_iff_iff, bne_iff_ne, bne_iff_ne, ne_eq, ne_eq, hzero]
  show (!_ && (i.toUInt8 != 0)) = (!_ && (i != 0))
  rw [hbyte]

/-- The rows that pass: every one is tested on a copy of its own, at the next of the addresses. -/
def keptRows (predicate : Expr) : (ℕ → UInt8) → List Record → Result
  | _, [] => some []
  | addresses, row :: rows => do
    let value ← (predicate.eval (readRow row)).toOption
    let kept ← keptRows predicate (fun n => addresses (n + 1)) rows
    return if keeps (addresses 0) value then row :: kept else kept

/-- What an allocator may answer: the first bytes of the addresses that `new` returns. -/
structure Allocator where
  bytes : Set UInt8
  nonempty : bytes.Nonempty

/-- What a filter may yield from what its child may yield. -/
def filterResults (allocator : Allocator) (predicate : Expr) (results : Set Result) : Set Result :=
  { o | ∃ i ∈ results, ∃ addresses : ℕ → UInt8, (∀ n, addresses n ∈ allocator.bytes) ∧
    o = i.bind (keptRows predicate addresses) }

variable {κ : Type}

/-- The meaning of a plan, given what all the other nodes make of what their children mean. -/
def meaningWith (other : Schema × Operator κ → List Meaning → Set Result) (allocator : Allocator) :
    PlanNode κ → Meaning :=
  Tree.fold fun a ms =>
    match a.2, ms with
    | .filter predicate, [m] => ⟨columnTypes a.1, filterResults allocator predicate m.results⟩
    | _, ms => ⟨columnTypes a.1, other a ms⟩

variable {other : Schema × Operator κ → List Meaning → Set Result} {allocator : Allocator}

theorem meaningWith_node (a : Schema × Operator κ) {ts ts' : List (PlanNode κ)}
    (h : ts'.map (meaningWith other allocator) = ts.map (meaningWith other allocator)) :
    meaningWith other allocator (.node a ts') = meaningWith other allocator (.node a ts) := by
  unfold meaningWith at *
  rw [Tree.fold_node, Tree.fold_node, h]

theorem types_meaningWith (plan : PlanNode κ) :
    (meaningWith other allocator plan).types = columnTypes (outputSchema plan) := by
  obtain ⟨a, ts⟩ := plan
  unfold meaningWith
  rw [Tree.fold_node]
  split <;> rfl

theorem meaningWith_filter (schema : Schema) (predicate : Expr) (child : PlanNode κ) :
    meaningWith other allocator (.node (schema, .filter predicate) [child]) =
      ⟨columnTypes schema, filterResults allocator predicate (meaningWith other allocator child).results⟩ := by
  unfold meaningWith
  rw [Tree.fold_node]
  rfl

/-- A constant that every row passes filters nothing. -/
theorem filterResults_constant {value : Value} (h : ∀ address ∈ allocator.bytes, keeps address value = true)
    (results : Set Result) : filterResults allocator (.constantValue value) results = results := by
  have hall : ∀ (rows : List Record) (addresses : ℕ → UInt8), (∀ n, addresses n ∈ allocator.bytes) →
      keptRows (.constantValue value) addresses rows = some rows := by
    intro rows
    induction rows with
    | nil =>
      intro addresses _
      rfl
    | cons row rows ih =>
      intro addresses haddr
      have hrest := ih (fun n => addresses (n + 1)) fun n => haddr (n + 1)
      rw [keptRows, hrest]
      show some (if keeps (addresses 0) value = true then row :: rows else rows) = _
      rw [if_pos (h _ (haddr 0))]
  obtain ⟨address, haddress⟩ := allocator.nonempty
  ext o
  constructor
  · rintro ⟨i, hi, addresses, haddr, rfl⟩
    cases i with
    | none => exact hi
    | some rows =>
      rw [Option.bind_some, hall rows addresses haddr]
      exact hi
  · intro ho
    refine ⟨o, ho, fun _ => address, fun _ => haddress, ?_⟩
    cases o with
    | none => rfl
    | some rows => rw [Option.bind_some, hall rows _ fun _ => haddress]

end Executor

/-! ## Which constants are decided right -/

section Constants

variable {allocator : Allocator} {value : Value}

/-- The rule removes a filter on this constant only if the executor keeps every row, otherwise leaves it, and does not
throw: the executor can run with any constant. -/
def DecidesRight (allocator : Allocator) (value : Value) : Prop :=
  match isPredicateTrue (.constantValue value) with
  | .ok true => ∀ address ∈ allocator.bytes, keeps address value = true
  | .ok false => True
  | .error _ => False

/-- The texts that the cast takes for true. -/
def TrueText (s : List UInt8) : Prop := s = ascii "true" ∨ s = ascii "1" ∨ s = ascii "t"

/-- The texts that the cast takes for false. -/
def FalseText (s : List UInt8) : Prop := s = ascii "false" ∨ s = ascii "0" ∨ s = ascii "f"

/-- A `BOOLEAN` that is not null, a string for false, or a string for true if no copy of it lies at an address whose
first byte is zero. -/
def Recognized (allocator : Allocator) : Value → Prop
  | .boolean i => i ≠ booleanNull
  | .varchar (some d) =>
    FalseText (d.1.dropLast.map toLower) ∨ (TrueText (d.1.dropLast.map toLower) ∧ 0 ∉ allocator.bytes)
  | _ => False

theorem decidesRight_boolean (i : Int8) : DecidesRight allocator (.boolean i) ↔ i ≠ booleanNull := by
  have hnull : (Value.boolean i).isNull = true ↔ i = booleanNull := len_null_iff (i = booleanNull)
  obtain ⟨address, haddress⟩ := allocator.nonempty
  have hpred : isPredicateTrue (.constantValue (.boolean i)) = .ok (i != 0) := rfl
  unfold DecidesRight
  rw [hpred]
  by_cases hzero : i = 0
  · subst hzero
    exact iff_of_true trivial (by decide)
  · rw [bne_iff_ne.mpr hzero]
    have hkeeps : ∀ a, keeps a (.boolean i) = !(Value.boolean i).isNull := by
      intro a
      rw [keeps_boolean]
      show (!_ && (i != 0)) = _
      rw [bne_iff_ne.mpr hzero, Bool.and_true]
    constructor
    · intro h heq
      have hkept := h address haddress
      rw [hkeeps, hnull.mpr heq] at hkept
      cases hkept
    · intro hne a _
      rw [hkeeps, Bool.eq_false_iff.mpr (mt hnull.mp hne)]
      rfl

theorem decidesRight_text (d : Varlen) :
    DecidesRight allocator (.varchar (some d)) ↔ Recognized allocator (.varchar (some d)) := by
  have hnull : (Value.varchar (some d)).isNull = false := beq_eq_false_iff_ne.mpr (varlenLen_ne_null d)
  have hpred : isPredicateTrue (.constantValue (.varchar (some d))) =
      (Value.castVarchar (some d) .boolean >>= fun val => pure (getAsBool val)) := rfl
  unfold DecidesRight Recognized
  rw [hpred]
  unfold Value.castVarchar varlenText
  dsimp only
  generalize d.1.dropLast.map toLower = s
  by_cases htrue : TrueText s
  · have hnot : ¬ FalseText s := by
      rintro (h | h | h) <;> subst h <;> revert htrue <;> unfold TrueText <;> decide
    have hif : s = ascii "true" ∨ s = ascii "1" ∨ s = ascii "t" := htrue
    rw [if_pos hif]
    show (∀ address ∈ allocator.bytes, keeps address (.varchar (some d)) = true) ↔ _
    unfold keeps
    rw [hnull]
    constructor
    · intro h
      refine .inr ⟨htrue, fun hzero => ?_⟩
      have := h 0 hzero
      cases this
    · rintro (h | ⟨-, h⟩)
      · exact absurd h hnot
      · intro address haddress
        have hne : address ≠ 0 := by
          rintro rfl
          exact h haddress
        simpa [readsBool] using hne
  · have hif : ¬ (s = ascii "true" ∨ s = ascii "1" ∨ s = ascii "t") := htrue
    rw [if_neg hif]
    by_cases hfalse : FalseText s
    · have hif' : s = ascii "false" ∨ s = ascii "0" ∨ s = ascii "f" := hfalse
      rw [if_pos hif']
      exact iff_of_true trivial (.inl hfalse)
    · have hif' : ¬ (s = ascii "false" ∨ s = ascii "0" ∨ s = ascii "f") := hfalse
      rw [if_neg hif']
      refine iff_of_false id ?_
      rintro (h | ⟨h, -⟩)
      · exact hfalse h
      · exact htrue h

/-- **Which constants are decided right.** -/
theorem decidesRight_iff (value : Value) : DecidesRight allocator value ↔ Recognized allocator value := by
  cases value with
  | boolean i => exact decidesRight_boolean i
  | varchar data =>
    cases data with
    | some d => exact decidesRight_text d
    | none =>
      have hpred : isPredicateTrue (.constantValue (.varchar none)) =
          .error (.exception .invalid "Boolean value format error.") := by decide
      unfold DecidesRight
      rw [hpred]
      rfl
  | _ => exact Iff.rfl

end Constants

/-! ## The pass -/

section Pass

variable {κ : Type} {allocator : Allocator}

/-- What holds of the constant of a filter, at the filters on constants. -/
def AtConstantFilter (P : Value → Prop) : PlanNode κ → Prop
  | .node (_, .filter (.constantValue value)) _ => P value
  | _ => True

/-- `FilterPlanNode` has one child, and the columns of its child. -/
def FilterShape : PlanNode κ → Prop
  | .node (schema, .filter _) children => ∃ child, children = [child] ∧ columnTypes schema = columnTypes (outputSchema child)
  | _ => True

/-- The two plans mean the same, whatever the other nodes do. -/
def SameMeaning (allocator : Allocator) (plan plan' : PlanNode κ) : Prop :=
  ∀ other, meaningWith other allocator plan' = meaningWith other allocator plan

theorem sameMeaning_node (a : Schema × Operator κ) {ts ts' : List (PlanNode κ)}
    (h : List.Forall₂ (SameMeaning allocator) ts ts') : SameMeaning allocator (.node a ts) (.node a ts') := by
  intro other
  refine meaningWith_node a (map_eq_of_forall₂ h ?_).symm
  intro t t' ht
  exact (ht other).symm

/-- The rule at a filter with one child. -/
theorem eliminateTrueFilter_filter (schema : Schema) (predicate : Expr) (child : PlanNode κ) (b : Bool)
    (h : isPredicateTrue predicate = .ok b) : eliminateTrueFilter (.node (schema, .filter predicate) [child]) =
      .ok (if b then child else .node (schema, .filter predicate) [child]) := by
  show (isPredicateTrue predicate >>= _) = _
  rw [h, ok_bind]
  cases b <;> rfl

/-- One step of the pass: a filter is removed only if it filters nothing. -/
theorem eliminateTrueFilter_same (a : Schema × Operator κ) (ts ts' : List (PlanNode κ))
    (hshape : FilterShape (.node a ts)) (hright : AtConstantFilter (DecidesRight allocator) (.node a ts))
    (hsame : List.Forall₂ (SameMeaning allocator) ts ts') :
    ∃ plan', eliminateTrueFilter (.node a ts') = .ok plan' ∧ SameMeaning allocator (.node a ts) plan' := by
  have hnode := sameMeaning_node a hsame
  obtain ⟨schema, op⟩ := a
  cases op with
  | filter predicate =>
    obtain ⟨child, rfl, htypes⟩ := hshape
    obtain ⟨child', hchild, rfl⟩ : ∃ child', SameMeaning allocator child child' ∧ ts' = [child'] := by
      cases hsame with
      | cons h hnil =>
        cases hnil
        exact ⟨_, h, rfl⟩
    cases predicate with
    | constantValue value =>
      have hdecides : DecidesRight allocator value := hright
      unfold DecidesRight at hdecides
      cases htrue : isPredicateTrue (.constantValue value) with
      | error f =>
        rw [htrue] at hdecides
        exact hdecides.elim
      | ok b =>
        rw [htrue] at hdecides
        refine ⟨_, eliminateTrueFilter_filter schema _ child' b htrue, ?_⟩
        cases b with
        | false => exact hnode
        | true =>
          intro other
          rw [if_pos rfl]
          rw [hchild other, meaningWith_filter, filterResults_constant hdecides, htypes, ← types_meaningWith]
    | _ => exact ⟨_, rfl, hnode⟩
  | _ => exact ⟨_, rfl, hnode⟩

/-- The pass ends, and changes no meaning, if every constant is decided right. -/
theorem optimizeEliminateTrueFilter_same {plan : PlanNode κ} (hshape : Tree.Everywhere FilterShape plan)
    (hright : Tree.Everywhere (AtConstantFilter (DecidesRight allocator)) plan) :
    ∃ plan', optimizeEliminateTrueFilter plan = .ok plan' ∧ SameMeaning allocator plan plan' := by
  refine Tree.bottomUp_rel ?_ (hshape.and hright)
  intro a ts ts' hhere hsame
  obtain ⟨hs, hr⟩ := hhere.at_root
  exact eliminateTrueFilter_same a ts ts' hs hr hsame

theorem everywhere_congr {P Q : Value → Prop} (h : ∀ v, P v ↔ Q v) (plan : PlanNode κ) :
    Tree.Everywhere (AtConstantFilter P) plan ↔ Tree.Everywhere (AtConstantFilter Q) plan := by
  have heq : P = Q := funext fun v => propext (h v)
  rw [heq]

/-- **Eliminating true filters.**  For every plan and every allocator: at every filter on a constant the rule removes
the filter only if `FilterExecutor` keeps every row, otherwise leaves it, and does not throw, and the pass ends with a
plan that yields the same rows whatever its other nodes do, if and only if each of these constants is a `BOOLEAN` that
is not null, a string for false, or a string for true of which no copy lies at an address whose first byte is zero. -/
theorem eliminate_true_filter_iff (allocator : Allocator) (plan : PlanNode κ)
    (hshape : Tree.Everywhere FilterShape plan) :
    (Tree.Everywhere (AtConstantFilter (DecidesRight allocator)) plan ∧
      ∃ plan', optimizeEliminateTrueFilter plan = .ok plan' ∧
        ∀ other, (meaningWith other allocator plan').results = (meaningWith other allocator plan).results) ↔
    Tree.Everywhere (AtConstantFilter (Recognized allocator)) plan := by
  rw [← everywhere_congr decidesRight_iff]
  constructor
  · rintro ⟨hright, -⟩
    exact hright
  · intro hright
    obtain ⟨plan', hopt, hsame⟩ := optimizeEliminateTrueFilter_same hshape hright
    exact ⟨hright, plan', hopt, fun other => congrArg Meaning.results (hsame other)⟩

/-- A filter on a constant over a table with one column. -/
def constantFilter (value : Value) : PlanNode Unit :=
  .node (.create [integerColumn "a"], .filter (.constantValue value)) [.node (.create [integerColumn "a"], .other ()) []]

/-- Addresses may end in any byte. -/
def anyAddress : Allocator := ⟨Set.univ, ⟨0, trivial⟩⟩

theorem constantFilter_shape (value : Value) : Tree.Everywhere FilterShape (constantFilter value) := by
  refine .node ⟨_, rfl, rfl⟩ ?_
  intro t ht
  rw [List.mem_singleton.mp ht]
  exact .node trivial nofun

/-- `WHERE true` is removed, and nothing changes. -/
theorem eliminate_true_filter_iff_true :
    ∃ plan', optimizeEliminateTrueFilter (constantFilter (.boolean 1)) = .ok plan' ∧
      ∀ other, (meaningWith other anyAddress plan').results =
        (meaningWith other anyAddress (constantFilter (.boolean 1))).results := by
  refine ((eliminate_true_filter_iff anyAddress _ (constantFilter_shape _)).mpr ?_).2
  refine .node (show (1 : Int8) ≠ booleanNull by decide) ?_
  intro t ht
  rw [List.mem_singleton.mp ht]
  exact .node trivial nofun

/-- `WHERE NULL` is removed, and the row that it dropped comes back. -/
theorem null_filter_is_removed :
    ∃ plan', optimizeEliminateTrueFilter (constantFilter (.boolean booleanNull)) = .ok plan' ∧
      (meaningWith (fun _ _ => {some [[.integer 1]]}) anyAddress plan').results = {some [[.integer 1]]} ∧
      (meaningWith (fun _ _ => {some [[.integer 1]]}) anyAddress (constantFilter (.boolean booleanNull))).results =
        {some []} ∧
      ¬ DecidesRight anyAddress (.boolean booleanNull) := by
  refine ⟨.node (.create [integerColumn "a"], .other ()) [], rfl, rfl, ?_, ?_⟩
  · unfold constantFilter
    rw [meaningWith_filter]
    refine Set.eq_singleton_iff_unique_mem.mpr ⟨⟨some [[.integer 1]], rfl, fun _ => 0, fun _ => trivial, rfl⟩, ?_⟩
    rintro o ⟨i, hi, addresses, -, rfl⟩
    rw [show i = some [[.integer 1]] from hi]
    rfl
  · intro h
    have hkept : keeps 0 (.boolean booleanNull) = true := h 0 trivial
    cases hkept

end Pass

end Journey.Optimizer
