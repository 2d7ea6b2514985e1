import Journey.Bustub.Optimizer.WellFormed

/-!
# Journey.Bustub.Optimizer.MergeFilterNLJ — filters over cross products

`OptimizeMergeFilterNLJ` replaces a filter over a join whose predicate is true by a join on the filter's
predicate.  For an `INNER` join that is the same.  For a `LEFT` join it is not: a row without a partner is
padded by the join, after the predicate has been tested, and no longer before.  A predicate that is the constant NULL
counts as true, and one that cannot be cast to `BOOLEAN` throws out of the pass.

* `mergeFilterNLJ`, `optimizeMergeFilterNLJ`: the rule and the pass.
* `MergesTo`: when filtering a join on a constant is joining on the filter; `bag_filter_join_iff`: exactly then.
* `foundJoin`, `MergesAt`: the join that the rule finds under a filter, and when what it does there is right.
* `merge_filter_nlj_sound`: the pass on every plan whose filters meet the condition, and the exact condition at
  a filter.
-/

namespace Journey.Optimizer

open SqlType Catalog Execution

/-! ## The rule -/

section Model

variable {κ : Type}

/-- `Optimizer::IsPredicateTrue`. -/
def isPredicateTrue : Expr → Except Fault Bool
  | .constantValue val => do
    let val ← val.castAs .boolean
    return getAsBool val
  | _ => .ok false

/-- What `OptimizeMergeFilterNLJ` does at a node, after its children. -/
def mergeFilterNLJ : PlanNode κ → Except Fault (PlanNode κ)
  | .node (schema, .filter filterPredicate) [childPlan] =>
    match childPlan with
    | .node (_, .nestedLoopJoin predicate joinType) [leftPlan, rightPlan] => do
      if ← isPredicateTrue predicate then
        let rewritten ← rewriteExpressionForJoin filterPredicate (outputSchema leftPlan).getColumnCount.toNat
          (outputSchema rightPlan).getColumnCount.toNat
        return .node (schema, .nestedLoopJoin rewritten joinType) [leftPlan, rightPlan]
      else return .node (schema, .filter filterPredicate) [childPlan]
    | .node (_, .nestedLoopJoin _ _) _ => .error (.terminate "NLJ should have exactly 2 children.")
    | _ => .ok (.node (schema, .filter filterPredicate) [childPlan])
  | .node (_, .filter _) _ => .error (.terminate "Filter with multiple children?? Impossible!")
  | optimizedPlan => .ok optimizedPlan

/-- `Optimizer::OptimizeMergeFilterNLJ`. -/
def optimizeMergeFilterNLJ : PlanNode κ → Except Fault (PlanNode κ) := Tree.bottomUp mergeFilterNLJ

end Model

/-! ## Filtering a join -/

section Joins

variable {test : Record → Option Bool} {pad : Record} {ls rs : List Record} {joinType : JoinType}

/-- The predicate of a filter as the condition of a join. -/
def onPairs (test : Record → Option Bool) (a b : Record) : Option Bool := test (a ++ b)

/-- **When filtering a join on a constant is joining on the filter**, for the rows of the two sides.  `constant`
is the truth of the constant that the rule has taken for true. -/
def MergesTo (joinType : JoinType) (constant : Bool) (test : Record → Option Bool) (pad : Record)
    (ls rs : List Record) : Prop :=
  match joinType, constant with
  | .inner, true => True
  | .left, true =>
    -- without right rows, all the left rows are padded and have to pass; otherwise none is to be padded
    if rs = [] then ∀ a ∈ ls, test (a ++ pad) = some true
    else (∃ a ∈ ls, ∃ b ∈ rs, test (a ++ b) = none) ∨ ∀ a ∈ ls, ∃ b ∈ rs, test (a ++ b) = some true
  | .inner, false => ∀ a ∈ ls, ∀ b ∈ rs, test (a ++ b) = some false
  | .left, false =>
    ((∃ a ∈ ls, test (a ++ pad) = none) ∧ ∃ a ∈ ls, ∃ b ∈ rs, test (a ++ b) = none) ∨
      (∀ a ∈ ls, test (a ++ pad) = some true) ∧ (∀ a ∈ ls, ∀ b ∈ rs, test (a ++ b) ≠ none) ∧
      ∀ a ∈ ls, partners (onPairs test) rs a = [] ∨ partners (onPairs test) rs a = [pad]
  | _, _ => True

/-- The filtered rows for one left row. -/
theorem filter_pairs (a : Record) : (rs.map (a ++ ·)).filter (fun row => test row == some true) =
    (partners (onPairs test) rs a).map (a ++ ·) := by
  unfold partners onPairs
  rw [List.filter_map]
  rfl

theorem partners_true (a : Record) : partners (fun _ _ => some true) rs a = rs := by
  unfold partners
  simp

theorem partners_false (a : Record) : partners (fun _ _ => some false) rs a = [] := by
  unfold partners
  simp

/-- A cross product, filtered. -/
theorem selects_pairs (h : ∀ a ∈ ls, ∀ b ∈ rs, test (a ++ b) ≠ none) :
    selects test (ls.flatMap fun a => rs.map (a ++ ·)) =
      some (ls.flatMap fun a => (partners (onPairs test) rs a).map (a ++ ·)) := by
  rw [selects_of_some, List.filter_flatMap]
  · simp only [filter_pairs]
  · intro row hrow
    obtain ⟨a, ha, hrow⟩ := List.mem_flatMap.mp hrow
    obtain ⟨b, hb, rfl⟩ := List.mem_map.mp hrow
    exact h a ha b hb

theorem selects_pairs_none {a b : Record} (ha : a ∈ ls) (hb : b ∈ rs) (h : test (a ++ b) = none) :
    selects test (ls.flatMap fun a => rs.map (a ++ ·)) = none :=
  selects_eq_none_iff.mpr ⟨a ++ b, List.mem_flatMap.mpr ⟨a, ha, List.mem_map_of_mem hb⟩, h⟩

theorem join_constant (constant : Bool) (hjoin : joinType = .inner ∨ joinType = .left) :
    join joinType (fun _ _ => some constant) pad ls rs =
      some (ls.flatMap (joined joinType (fun _ _ => some constant) pad rs)) :=
  join_of_some hjoin fun _ _ _ _ => nofun

/-- The rows without a partner, padded. -/
theorem flatMap_padded (h : joinType = .left) (on : Record → Record → Option Bool)
    (hnone : ∀ a ∈ ls, partners on rs a = []) :
    ls.flatMap (joined joinType on pad rs) = ls.map (· ++ pad) := by
  subst h
  rw [List.map_eq_flatMap]
  refine List.flatMap_congr ?_
  intro a ha
  rw [joined_left, if_pos (hnone a ha)]

theorem bag_filter_inner_true :
    bag ((join .inner (fun _ _ => some true) pad ls rs).bind (selects test)) =
      bag (join .inner (onPairs test) pad ls rs) := by
  have hrows : ls.flatMap (joined .inner (fun _ _ => some true) pad rs) = ls.flatMap fun a => rs.map (a ++ ·) := by
    refine List.flatMap_congr ?_
    intro a _
    rw [joined_inner, partners_true]
  rw [join_constant true (.inl rfl), hrows, Option.bind_some]
  by_cases h : ∀ a ∈ ls, ∀ b ∈ rs, onPairs test a b ≠ none
  · rw [join_of_some (.inl rfl) h, selects_pairs h]
    rfl
  · push Not at h
    obtain ⟨a, ha, b, hb, hnone⟩ := h
    rw [join_of_none ha hb hnone, selects_pairs_none ha hb hnone]

/-- A left row has a partner. -/
theorem partners_ne_nil_iff {a : Record} :
    partners (onPairs test) rs a ≠ [] ↔ ∃ b ∈ rs, test (a ++ b) = some true := by
  unfold partners onPairs
  rw [Ne, List.filter_eq_nil_iff]
  simp

theorem bag_filter_left_true {n : ℕ} (hlen : ∀ a ∈ ls, a.length = n) :
    bag ((join .left (fun _ _ => some true) pad ls rs).bind (selects test)) =
        bag (join .left (onPairs test) pad ls rs) ↔
      if rs = [] then ∀ a ∈ ls, test (a ++ pad) = some true
      else (∃ a ∈ ls, ∃ b ∈ rs, test (a ++ b) = none) ∨ ∀ a ∈ ls, ∃ b ∈ rs, test (a ++ b) = some true := by
  rw [join_constant true (.inr rfl), Option.bind_some]
  split_ifs with hrs
  · subst hrs
    rw [join_of_some (.inr rfl) (by simp), flatMap_padded rfl _ (fun _ _ => rfl), flatMap_padded rfl _ (fun _ _ => rfl),
      bag_selects_eq_self_iff]
    simp
  · have hrows : ls.flatMap (joined .left (fun _ _ => some true) pad rs) = ls.flatMap fun a => rs.map (a ++ ·) := by
      refine List.flatMap_congr ?_
      intro a _
      rw [joined_left, partners_true, if_neg hrs]
    rw [hrows]
    by_cases h : ∀ a ∈ ls, ∀ b ∈ rs, onPairs test a b ≠ none
    · -- nothing throws: the join has in addition the left rows without a partner
      have hpad : ∀ a : Record, ((partners (onPairs test) rs a).map (a ++ ·)).Perm
          (joined .left (onPairs test) pad rs a) ↔ ∃ b ∈ rs, test (a ++ b) = some true := by
        intro a
        rw [← partners_ne_nil_iff, joined_left]
        split_ifs with hnil
        · simp [hnil]
        · simp [hnil]
      rw [selects_pairs h, join_of_some (.inr rfl) h, bag_some_eq_some,
        flatMap_perm_flatMap_iff (fun row => row.take n) (take_pairs hlen) (take_joined hlen)]
      constructor
      · intro hperm
        exact .inr fun a ha => (hpad a).mp (hperm a ha)
      · rintro (⟨a, ha, b, hb, hnone⟩ | hpart)
        · exact absurd hnone (h a ha b hb)
        · exact fun a ha => (hpad a).mpr (hpart a ha)
    · push Not at h
      obtain ⟨a, ha, b, hb, hnone⟩ := h
      rw [join_of_none ha hb hnone, selects_pairs_none ha hb hnone]
      exact ⟨fun _ => .inl ⟨a, ha, b, hb, hnone⟩, fun _ => rfl⟩

theorem bag_filter_inner_false :
    bag ((join .inner (fun _ _ => some false) pad ls rs).bind (selects test)) =
        bag (join .inner (onPairs test) pad ls rs) ↔
      ∀ a ∈ ls, ∀ b ∈ rs, test (a ++ b) = some false := by
  have hrows : ls.flatMap (joined .inner (fun _ _ => some false) pad rs) = [] := by
    rw [List.flatMap_eq_nil_iff]
    intro a _
    rw [joined_inner, partners_false, List.map_nil]
  rw [join_constant false (.inl rfl), hrows, Option.bind_some]
  by_cases h : ∀ a ∈ ls, ∀ b ∈ rs, onPairs test a b ≠ none
  · have hempty : bag (selects test []) = bag (some (ls.flatMap (joined .inner (onPairs test) pad rs))) ↔
        ∀ a ∈ ls, partners (onPairs test) rs a = [] := by
      show bag (some []) = _ ↔ _
      rw [bag_some_eq_some, List.nil_perm, List.flatMap_eq_nil_iff]
      simp only [joined_inner, List.map_eq_nil_iff]
    rw [join_of_some (.inl rfl) h, hempty]
    refine forall₂_congr fun a ha => ?_
    rw [← not_ne_iff, partners_ne_nil_iff]
    constructor
    · intro hnot b hb
      have hne := h a ha b hb
      unfold onPairs at hne
      cases htest : test (a ++ b) with
      | none => exact absurd htest hne
      | some t =>
        cases t with
        | false => rfl
        | true => exact absurd ⟨b, hb, htest⟩ hnot
    · rintro hall ⟨b, hb, htrue⟩
      rw [hall b hb] at htrue
      cases htrue
  · push Not at h
    obtain ⟨a, ha, b, hb, hnone⟩ := h
    rw [join_of_none ha hb hnone]
    refine ⟨nofun, fun hall => ?_⟩
    have hfalse := hall a ha b hb
    unfold onPairs at hnone
    rw [hnone] at hfalse
    cases hfalse

/-- A padded row that is filtered, against a row of the join. -/
theorem padded_perm_joined_iff (a : Record) :
    ([a ++ pad].filter fun row => test row == some true).Perm (joined .left (onPairs test) pad rs a) ↔
      test (a ++ pad) = some true ∧
        (partners (onPairs test) rs a = [] ∨ partners (onPairs test) rs a = [pad]) := by
  have hjoined : joined .left (onPairs test) pad rs a = [a ++ pad] ↔
      partners (onPairs test) rs a = [] ∨ partners (onPairs test) rs a = [pad] := by
    rw [joined_left]
    split_ifs with hnil
    · simp [hnil]
    · simp [hnil, List.map_eq_singleton_iff]
  by_cases htest : test (a ++ pad) = some true
  · have hkept : ([a ++ pad].filter fun row => test row == some true) = [a ++ pad] := by simp [htest]
    rw [hkept, List.singleton_perm, eq_comm, hjoined]
    simp [htest]
  · have hlost : ([a ++ pad].filter fun row => test row == some true) = [] := by simp [htest]
    rw [hlost, List.nil_perm]
    have hne : joined .left (onPairs test) pad rs a ≠ [] := by
      rw [joined_left]
      split_ifs with hnil <;> simp [hnil]
    simp [htest, hne]

theorem bag_filter_left_false {n : ℕ} (hlen : ∀ a ∈ ls, a.length = n) :
    bag ((join .left (fun _ _ => some false) pad ls rs).bind (selects test)) =
        bag (join .left (onPairs test) pad ls rs) ↔
      ((∃ a ∈ ls, test (a ++ pad) = none) ∧ ∃ a ∈ ls, ∃ b ∈ rs, test (a ++ b) = none) ∨
        (∀ a ∈ ls, test (a ++ pad) = some true) ∧ (∀ a ∈ ls, ∀ b ∈ rs, test (a ++ b) ≠ none) ∧
        ∀ a ∈ ls, partners (onPairs test) rs a = [] ∨ partners (onPairs test) rs a = [pad] := by
  rw [join_constant false (.inr rfl), Option.bind_some, flatMap_padded rfl _ fun a _ => partners_false a]
  have hthrows : selects test (ls.map (· ++ pad)) = none ↔ ∃ a ∈ ls, test (a ++ pad) = none := by
    rw [selects_eq_none_iff]
    simp
  by_cases h : ∀ a ∈ ls, ∀ b ∈ rs, onPairs test a b ≠ none
  · rw [join_of_some (.inr rfl) h]
    by_cases hpads : ∀ a ∈ ls, test (a ++ pad) ≠ none
    · have hselects : selects test (ls.map (· ++ pad)) =
          some (ls.flatMap fun a => [a ++ pad].filter fun row => test row == some true) := by
        rw [selects_of_some, List.map_eq_flatMap, List.filter_flatMap]
        simpa using hpads
      have htake : ∀ a ∈ ls, ∀ row ∈ [a ++ pad].filter fun row => test row == some true, row.take n = a := by
        intro a ha row hrow
        rw [List.mem_singleton.mp (List.mem_of_mem_filter hrow), ← hlen a ha, List.take_left]
      rw [hselects, bag_some_eq_some, flatMap_perm_flatMap_iff (fun row => row.take n) htake (take_joined hlen),
        forall₂_congr fun a _ => padded_perm_joined_iff a]
      constructor
      · intro hall
        exact .inr ⟨fun a ha => (hall a ha).1, h, fun a ha => (hall a ha).2⟩
      · rintro (⟨-, a, ha, b, hb, hnone⟩ | ⟨htrue, -, hpart⟩)
        · exact absurd hnone (h a ha b hb)
        · exact fun a ha => ⟨htrue a ha, hpart a ha⟩
    · push Not at hpads
      obtain ⟨a, ha, hnone⟩ := hpads
      rw [hthrows.mpr ⟨a, ha, hnone⟩]
      refine ⟨nofun, ?_⟩
      rintro (⟨-, a', ha', b, hb, hnone'⟩ | ⟨htrue, -⟩)
      · exact absurd hnone' (h a' ha' b hb)
      · rw [htrue a ha] at hnone
        cases hnone
  · push Not at h
    obtain ⟨a, ha, b, hb, hnone⟩ := h
    rw [join_of_none ha hb hnone, bag_none, bag_eq_none, hthrows]
    constructor
    · intro hpad
      exact .inl ⟨hpad, a, ha, b, hb, hnone⟩
    · rintro (⟨hpad, -⟩ | ⟨-, hsome, -⟩)
      · exact hpad
      · exact absurd hnone (hsome a ha b hb)

/-- **Filtering a join on a constant is joining on the filter, exactly in these cases.** -/
theorem bag_filter_join_iff {n : ℕ} (hlen : ∀ a ∈ ls, a.length = n) (constant : Bool) :
    bag ((join joinType (fun _ _ => some constant) pad ls rs).bind (selects test)) =
        bag (join joinType (onPairs test) pad ls rs) ↔
      MergesTo joinType constant test pad ls rs := by
  by_cases hinner : joinType = .inner
  · subst hinner
    cases constant with
    | true => exact ⟨fun _ => trivial, fun _ => bag_filter_inner_true⟩
    | false => exact bag_filter_inner_false
  · by_cases hleft : joinType = .left
    · subst hleft
      cases constant with
      | true => exact bag_filter_left_true hlen
      | false => exact bag_filter_left_false hlen
    · -- neither executor can be made
      rw [join_other hinner hleft, join_other hinner hleft]
      cases joinType with
      | inner => exact absurd rfl hinner
      | left => exact absurd rfl hleft
      | _ => exact ⟨fun _ => trivial, fun _ => rfl⟩

end Joins

/-! ## Predicates that count as true -/

section FoundJoins

variable {κ : Type} {e e' : Expr} {v : Value}

/-- A join under a filter. -/
structure FoundJoin (κ : Type) where
  predicate : Expr
  joinType : JoinType
  left : PlanNode κ
  right : PlanNode κ

/-- The join that the pass will find at the place of a plan: the plan itself, or one under a filter that is merged into
it first. -/
def foundJoin : PlanNode κ → Option (FoundJoin κ)
  | .node (_, .nestedLoopJoin predicate joinType) [left, right] => some ⟨predicate, joinType, left, right⟩
  | .node (_, .filter predicate) [child] =>
    match foundJoin child with
    | none => none
    | some j =>
      match isPredicateTrue j.predicate with
      | .ok true => some { j with predicate := predicate }
      | _ => none
  | _ => none

/-- Whether pairs pass a constant as the condition of a join. -/
def constantPasses : Expr → Bool
  | .constantValue v => !v.isNull && getAsBool v
  | _ => false

/-- **When the rule is right at a filter** over the join `j`, for the rows of the two sides: the predicate of the join is
tested without an exception, and if it counts as true, filtering the join is joining on the filter. -/
def MergesAt (j : FoundJoin κ) (predicate : Expr) (ls rs : List Record) : Prop :=
  match isPredicateTrue j.predicate with
  | .error _ => False
  | .ok false => True
  | .ok true => MergesTo j.joinType (constantPasses j.predicate) (pass predicate)
      (padding (columnTypes (outputSchema j.right))) ls rs

/-- At a filter over a join the rule does not throw, and it is right for all the rows that the two sides can have. -/
def SafeMerge (d : Database κ) : PlanNode κ → Prop
  | .node (_, .filter predicate) [child] => ∀ j, foundJoin child = some j →
    (∀ f, isPredicateTrue j.predicate ≠ .error f) ∧
    ∀ ls rs, some ls ∈ d.results j.left → some rs ∈ d.results j.right → MergesAt j predicate ls rs
  | _ => True

/-- Only a constant counts as true. -/
theorem constant_of_true (h : isPredicateTrue e = .ok true) : ∃ v, e = .constantValue v := by
  cases e with
  | constantValue v => exact ⟨v, rfl⟩
  | _ => cases h

theorem isPredicateTrue_false (hthrows : ∀ f, isPredicateTrue e ≠ .error f) (htrue : isPredicateTrue e ≠ .ok true) :
    isPredicateTrue e = .ok false := by
  cases htest : isPredicateTrue e with
  | error f => exact absurd htest (hthrows f)
  | ok counts =>
    cases counts with
    | false => rfl
    | true => exact absurd htest htrue

/-- The join of a filter that is merged. -/
theorem foundJoin_filter (schema : Schema) (predicate : Expr) {child : PlanNode κ} {j : FoundJoin κ}
    (hj : foundJoin child = some j) : foundJoin (.node (schema, .filter predicate) [child]) =
      if isPredicateTrue j.predicate = .ok true then some { j with predicate := predicate } else none := by
  unfold foundJoin
  rw [hj]
  dsimp only
  split
  · next htrue => rw [if_pos htrue]
  · next hno => rw [if_neg hno]

/-- What a constant does as the condition of a join. -/
theorem passPair_constant (v : Value) :
    passPair (.constantValue v) = fun _ _ => some (constantPasses (.constantValue v)) := rfl

/-- Rewriting for a join does not make a predicate true. -/
theorem isPredicateTrue_rewrite {m n : ℕ} (h : rewriteExpressionForJoin e m n = .ok e') :
    isPredicateTrue e' = isPredicateTrue e := by
  cases e with
  | columnValue tupleIdx colIdx retType =>
    unfold rewriteExpressionForJoin at h
    split_ifs at h <;> cases h <;> rfl
  | constantValue val =>
    cases h
    rfl
  | arithmetic computeType left right =>
    obtain ⟨l, -, h⟩ := bind_eq_ok.mp h
    obtain ⟨r, -, h⟩ := bind_eq_ok.mp h
    cases h
    rfl
  | comparison compType left right =>
    obtain ⟨l, -, h⟩ := bind_eq_ok.mp h
    obtain ⟨r, -, h⟩ := bind_eq_ok.mp h
    cases h
    rfl
  | logic logicType left right =>
    obtain ⟨l, -, h⟩ := bind_eq_ok.mp h
    obtain ⟨r, -, h⟩ := bind_eq_ok.mp h
    cases h
    rfl
  | array children =>
    obtain ⟨es, -, h⟩ := bind_eq_ok.mp h
    cases h
    rfl
  | string exprType arg =>
    obtain ⟨a, -, h⟩ := bind_eq_ok.mp h
    cases h
    rfl

end FoundJoins

/-! ## A filter over a join -/

section Node

variable {κ : Type} {d : Database κ} {schema joinSchema : Schema} {predicate : Expr} {v : Value} {joinType : JoinType}
  {left right : PlanNode κ} {lt rt : List TypeId}

/-- The columns of a joined row are those of its sides. -/
theorem splits_append {a b : Record} (ha : HasTypes lt a) :
    Splits lt rt (readRow (a ++ b)) (readPair a b) := by
  have hla := ha.length_eq
  refine ⟨?_, ?_⟩
  · intro i hi
    unfold readPair readRow
    rw [if_pos rfl, List.getElem?_append_left (by omega)]
  · intro j hj
    unfold readPair readRow
    rw [if_neg one_ne_zero, List.getElem?_append_right (by omega), hla, Nat.add_sub_cancel_left]

theorem toNat_getColumnCount (h : schema.columns.length < 2 ^ 32) :
    schema.getColumnCount.toNat = (columnTypes schema).length := by
  unfold Schema.getColumnCount columnTypes
  rw [UInt32.toNat_ofNat_of_lt' h, List.length_map]

/-- The results of a filter over a join on a constant. -/
theorem results_filter_join :
    d.results (.node (schema, .filter predicate)
        [.node (joinSchema, .nestedLoopJoin (.constantValue v) joinType) [left, right]]) =
      { o | ∃ i ∈ d.results left, ∃ j ∈ d.results right, o ∈ anyOrder ((i.bind fun ls => j.bind fun rs =>
        join joinType (fun _ _ => some (constantPasses (.constantValue v))) (padding (columnTypes (outputSchema right)))
          ls rs).bind (selects (pass predicate))) } := by
  rw [d.results_node]
  show Set.image _ (d.results _) = _
  rw [d.results_node]
  ext o
  simp only [← image_selects_anyOrder]
  constructor
  · rintro ⟨p, ⟨i, hi, j, hj, hp⟩, rfl⟩
    rw [passPair_constant, d.types_meaning] at hp
    exact ⟨i, hi, j, hj, p, hp, rfl⟩
  · rintro ⟨i, hi, j, hj, p, hp, rfl⟩
    refine ⟨p, ⟨i, hi, j, hj, ?_⟩, rfl⟩
    rw [passPair_constant, d.types_meaning]
    exact hp

/-- The results of the join that the rule makes of it. -/
theorem results_merged {rewritten : Expr} (hl : WellFormed d left)
    (hrw : Rewritten (columnTypes (outputSchema left)) (columnTypes (outputSchema right)) predicate rewritten) :
    d.results (.node (schema, .nestedLoopJoin rewritten joinType) [left, right]) =
      { o | ∃ i ∈ d.results left, ∃ j ∈ d.results right, o ∈ anyOrder (i.bind fun ls => j.bind fun rs =>
        join joinType (onPairs (pass predicate)) (padding (columnTypes (outputSchema right))) ls rs) } := by
  have hjoin : ∀ ls rs, some ls ∈ d.results left →
      join joinType (passPair rewritten) (padding (columnTypes (outputSchema right))) ls rs =
        join joinType (onPairs (pass predicate)) (padding (columnTypes (outputSchema right))) ls rs := by
    intro ls rs hls
    refine join_congr ?_
    intro a ha b _
    have htypes := typed_results hl (some ls) hls ls rfl a ha
    unfold passPair onPairs pass
    rw [hrw.eval _ _ (splits_append htypes)]
  have hbind : ∀ i ∈ d.results left, ∀ j : Result,
      (i.bind fun ls => j.bind fun rs =>
        join joinType (passPair rewritten) (padding (columnTypes (outputSchema right))) ls rs) =
      i.bind fun ls => j.bind fun rs =>
        join joinType (onPairs (pass predicate)) (padding (columnTypes (outputSchema right))) ls rs := by
    intro i hi j
    cases i with
    | none => rfl
    | some ls =>
      cases j with
      | none => rfl
      | some rs => exact hjoin ls rs hi
  rw [d.results_node]
  ext o
  constructor
  · rintro ⟨i, hi, j, hj, ho⟩
    rw [d.types_meaning, hbind i hi j] at ho
    exact ⟨i, hi, j, hj, ho⟩
  · rintro ⟨i, hi, j, hj, ho⟩
    refine ⟨i, hi, j, hj, ?_⟩
    rw [d.types_meaning, hbind i hi j]
    exact ho

/-- One order of the rows of the two sides: the bags agree under the condition of `MergesTo`. -/
theorem bag_merge_iff (hl : WellFormed d left) {ls rs : List Record} (hls : some ls ∈ d.results left) (constant : Bool)
    (pad : Record) :
    bag (((some ls).bind fun ls => (some rs).bind fun rs =>
        join joinType (fun _ _ => some constant) pad ls rs).bind (selects (pass predicate))) =
      bag ((some ls).bind fun ls => (some rs).bind fun rs => join joinType (onPairs (pass predicate)) pad ls rs) ↔
    MergesTo joinType constant (pass predicate) pad ls rs :=
  bag_filter_join_iff (fun a ha => (typed_results hl (some ls) hls ls rfl a ha).length_eq) _

/-- **The rule at a filter over a join on a constant**: sound under the condition of `MergesTo`, and if each side
has one result, under no other. -/
theorem merge_filter_join (schema joinSchema : Schema) (joinType : JoinType) {rewritten : Expr} (hl : WellFormed d left)
    (hrw : Rewritten (columnTypes (outputSchema left)) (columnTypes (outputSchema right)) predicate rewritten) :
    ((∀ ls rs, some ls ∈ d.results left → some rs ∈ d.results right →
      MergesTo joinType (constantPasses (.constantValue v)) (pass predicate)
        (padding (columnTypes (outputSchema right))) ls rs) →
      d.results (.node (schema, .nestedLoopJoin rewritten joinType) [left, right]) =
        d.results (.node (schema, .filter predicate)
          [.node (joinSchema, .nestedLoopJoin (.constantValue v) joinType) [left, right]])) ∧
    ∀ ls rs, d.results left = {some ls} → d.results right = {some rs} →
      d.bags (.node (schema, .nestedLoopJoin rewritten joinType) [left, right]) =
        d.bags (.node (schema, .filter predicate)
          [.node (joinSchema, .nestedLoopJoin (.constantValue v) joinType) [left, right]]) →
      MergesTo joinType (constantPasses (.constantValue v)) (pass predicate)
        (padding (columnTypes (outputSchema right))) ls rs := by
  unfold Database.bags
  rw [results_filter_join, results_merged hl hrw]
  refine ⟨?_, ?_⟩
  · intro hsafe
    ext o
    refine exists_congr fun i => and_congr_right fun hi => exists_congr fun j => and_congr_right fun hj => ?_
    cases i with
    | none => exact Iff.rfl
    | some ls =>
      cases j with
      | none => exact Iff.rfl
      | some rs => rw [mem_anyOrder, mem_anyOrder, (bag_merge_iff hl hi _ _).mpr (hsafe ls rs hi hj)]
  · intro ls rs hls hrs heq
    rw [hls, hrs] at heq
    have hmem : some ls ∈ d.results left := by
      rw [hls]
      rfl
    refine (bag_merge_iff hl hmem _ _).mp (Set.singleton_eq_singleton_iff.mp ?_)
    rw [← image_bag_anyOrder, ← image_bag_anyOrder]
    simpa using heq.symm

end Node

/-! ## The pass -/

section Pass

variable {κ : Type} {d : Database κ} {plan plan' : PlanNode κ}

/-- What the pass makes of a plan, as far as the filter above it can see. -/
structure Merges (d : Database κ) (plan plan' : PlanNode κ) : Prop extends Same d plan plan' where
  found : ∀ j, foundJoin plan = some j → ∃ schema predicate left right,
    plan' = .node (schema, .nestedLoopJoin predicate j.joinType) [left, right] ∧
      isPredicateTrue predicate = isPredicateTrue j.predicate ∧
      (isPredicateTrue j.predicate = .ok true → predicate = j.predicate) ∧
      Same d j.left left ∧ Same d j.right right
  notFound : foundJoin plan = none → ∀ schema predicate joinType left right,
    plan' ≠ .node (schema, .nestedLoopJoin predicate joinType) [left, right]

/-- The rule leaves a filter alone if it does not find a join that counts as true. -/
theorem mergeFilterNLJ_filter {schema : Schema} {predicate : Expr} {child : PlanNode κ} (hwf : WellFormed d child)
    (h : ∀ schema predicate joinType left right,
      child = .node (schema, .nestedLoopJoin predicate joinType) [left, right] → isPredicateTrue predicate = .ok false) :
    mergeFilterNLJ (.node (schema, .filter predicate) [child]) = .ok (.node (schema, .filter predicate) [child]) := by
  cases hwf with
  | node here below =>
    cases here with
    | nestedLoopJoin types countLeft countRight hcols =>
      unfold mergeFilterNLJ
      dsimp only
      rw [h _ _ _ _ _ rfl]
      rfl
    | _ => rfl

/-- The rule at a filter over a join that counts as true. -/
theorem mergeFilterNLJ_join {schema joinSchema : Schema} {predicate rewritten : Expr} {v : Value}
    {joinType : JoinType} {left right : PlanNode κ} (htrue : isPredicateTrue (.constantValue v) = .ok true)
    (hrw : rewriteExpressionForJoin predicate (outputSchema left).getColumnCount.toNat
      (outputSchema right).getColumnCount.toNat = .ok rewritten) :
    mergeFilterNLJ (.node (schema, .filter predicate)
        [.node (joinSchema, .nestedLoopJoin (.constantValue v) joinType) [left, right]]) =
      .ok (.node (schema, .nestedLoopJoin rewritten joinType) [left, right]) := by
  unfold mergeFilterNLJ
  dsimp only
  rw [htrue, ok_bind, if_pos rfl, hrw]
  rfl

/-- The filter's predicate can be rewritten for the join under it. -/
theorem rewrite_filter {schema joinSchema : Schema} {predicate joinPredicate : Expr} {joinType : JoinType}
    {left right : PlanNode κ}
    (h : LocallyWF d (.node (schema, .filter predicate)
      [.node (joinSchema, .nestedLoopJoin joinPredicate joinType) [left, right]]))
    (hjoin : LocallyWF d (.node (joinSchema, .nestedLoopJoin joinPredicate joinType) [left, right])) :
    ∃ rewritten, rewriteExpressionForJoin predicate (outputSchema left).getColumnCount.toNat
        (outputSchema right).getColumnCount.toNat = .ok rewritten ∧
      Rewritten (columnTypes (outputSchema left)) (columnTypes (outputSchema right)) predicate rewritten ∧
      LocallyWF d (.node (schema, .nestedLoopJoin rewritten joinType) [left, right]) := by
  cases h with
  | filter types hcols =>
    cases hjoin with
    | nestedLoopJoin jtypes countLeft countRight jover =>
      rw [outputSchema_node] at types
      rw [types, jtypes] at hcols
      obtain ⟨rewritten, hrw, hspec⟩ := rewrite_spec predicate hcols
      refine ⟨rewritten, ?_, hspec, .nestedLoopJoin (types.trans jtypes) countLeft countRight hspec.columns⟩
      rw [toNat_getColumnCount countLeft, toNat_getColumnCount countRight, hrw]

/-- **The rule at a filter over a join that counts as true**, after its children have been rewritten. -/
theorem merge_at_filter {schema : Schema} {predicate : Expr} {child child' : PlanNode κ} {j : FoundJoin κ}
    (h : LocallyWF d (.node (schema, .filter predicate) [child])) (hj : foundJoin child = some j)
    (htrue : isPredicateTrue j.predicate = .ok true) (hchild : Merges d child child') :
    ∃ rewritten left right,
      mergeFilterNLJ (.node (schema, .filter predicate) [child']) =
        .ok (.node (schema, .nestedLoopJoin rewritten j.joinType) [left, right]) ∧
      (∃ m n, rewriteExpressionForJoin predicate m n = .ok rewritten) ∧
      Same d j.left left ∧ Same d j.right right ∧
      WellFormed d (.node (schema, .nestedLoopJoin rewritten j.joinType) [left, right]) ∧
      ((∀ ls rs, some ls ∈ d.results j.left → some rs ∈ d.results j.right → MergesAt j predicate ls rs) →
        d.results (.node (schema, .nestedLoopJoin rewritten j.joinType) [left, right]) =
          d.results (.node (schema, .filter predicate) [child])) ∧
      ∀ ls rs, d.results j.left = {some ls} → d.results j.right = {some rs} →
        d.bags (.node (schema, .nestedLoopJoin rewritten j.joinType) [left, right]) =
          d.bags (.node (schema, .filter predicate) [child]) →
        MergesAt j predicate ls rs := by
  obtain ⟨joinSchema, joinPredicate, left, right, rfl, -, hsamePredicate, hleft, hright⟩ := hchild.found j hj
  obtain ⟨v, hv⟩ := constant_of_true htrue
  have hconst := hsamePredicate htrue
  rw [hv] at hconst
  subst hconst
  have hnode : Same d _ _ := same_node h (.cons hchild.toSame .nil)
  obtain ⟨rewritten, hrw, hspec, hwf⟩ := rewrite_filter hnode.wellFormed.at_root hchild.wellFormed.at_root
  obtain ⟨hsound, hexact⟩ := merge_filter_join (v := v) schema joinSchema j.joinType hleft.wellFormed hspec
  have hbags : d.bags (.node (schema, .filter predicate) [.node (joinSchema, .nestedLoopJoin
      (.constantValue v) j.joinType) [left, right]]) = d.bags (.node (schema, .filter predicate) [child]) := by
    unfold Database.bags
    rw [hnode.results]
  rw [hleft.results, hright.results, hright.schema, ← hv] at hsound hexact
  rw [hv, hnode.results] at hsound
  rw [hv, hbags] at hexact
  have hat : ∀ ls rs, MergesAt j predicate ls rs ↔ MergesTo j.joinType (constantPasses (.constantValue v)) (pass predicate)
      (padding (columnTypes (outputSchema j.right))) ls rs := by
    intro ls rs
    unfold MergesAt
    rw [htrue, hv]
  simp only [hat]
  rw [hv] at htrue
  refine ⟨rewritten, left, right, mergeFilterNLJ_join htrue hrw, ⟨_, _, hrw⟩, hleft, hright, ?_, hsound, hexact⟩
  refine .node hwf ?_
  intro t ht
  rcases List.mem_pair.mp ht with rfl | rfl
  · exact hleft.wellFormed
  · exact hright.wellFormed

/-- One step of the pass at a filter. -/
theorem merges_filter {schema : Schema} {predicate : Expr} {child child' : PlanNode κ}
    (h : LocallyWF d (.node (schema, .filter predicate) [child]))
    (hsafe : SafeMerge d (.node (schema, .filter predicate) [child])) (hchild : Merges d child child') :
    ∃ plan', mergeFilterNLJ (.node (schema, .filter predicate) [child']) = .ok plan' ∧
      Merges d (.node (schema, .filter predicate) [child]) plan' := by
  have hkept := same_node h (.cons hchild.toSame .nil)
  cases hj : foundJoin child with
  | none =>
    refine ⟨_, mergeFilterNLJ_filter hchild.wellFormed ?_, hkept, ?_, nofun⟩
    · intro _ _ _ _ _ heq
      exact absurd heq (hchild.notFound hj _ _ _ _ _)
    · intro j hfound
      simp [foundJoin, hj] at hfound
  | some j =>
    obtain ⟨hthrows, hmerges⟩ := hsafe j hj
    have hfilter := foundJoin_filter schema predicate hj
    by_cases htrue : isPredicateTrue j.predicate = .ok true
    · obtain ⟨rewritten, left, right, hrule, ⟨m, n, hrw⟩, hleft, hright, hwf, hsound, -⟩ :=
        merge_at_filter h hj htrue hchild
      rw [if_pos htrue] at hfilter
      refine ⟨_, hrule, ⟨rfl, hsound hmerges, hwf⟩, ?_, fun hnone => ?_⟩
      · -- the predicate of the filter is now that of the join
        intro j' hfound
        rw [hfilter] at hfound
        cases hfound
        refine ⟨schema, rewritten, left, right, rfl, isPredicateTrue_rewrite hrw, fun hcounts => ?_, hleft, hright⟩
        obtain ⟨v, rfl⟩ := constant_of_true hcounts
        cases hrw
        rfl
      · rw [hfilter] at hnone
        cases hnone
    · rw [if_neg htrue] at hfilter
      refine ⟨_, mergeFilterNLJ_filter hchild.wellFormed ?_, hkept, ?_, nofun⟩
      · rintro schema' predicate' joinType left right rfl
        obtain ⟨_, _, _, _, heq, hsame, -⟩ := hchild.found j hj
        cases heq
        rw [hsame]
        exact isPredicateTrue_false hthrows htrue
      · intro j' hfound
        rw [hfilter] at hfound
        cases hfound

/-- **One step of the pass.** -/
theorem merges_node {schema : Schema} {op : Operator κ} {children children' : List (PlanNode κ)}
    (h : LocallyWF d (.node (schema, op) children))
    (hsafe : SafeMerge d (.node (schema, op) children)) (hs : List.Forall₂ (Merges d) children children') :
    ∃ plan', mergeFilterNLJ (.node (schema, op) children') = .ok plan' ∧
      Merges d (.node (schema, op) children) plan' := by
  have hsame : Same d (.node (schema, op) children) (.node (schema, op) children') :=
    same_node h (hs.imp fun _ _ hc => hc.toSame)
  cases h with
  | filter types hcols =>
    obtain ⟨child', _, hchild, hnil, rfl⟩ := List.forall₂_cons_left_iff.mp hs
    cases hnil
    exact merges_filter (.filter types hcols) hsafe hchild
  | @nestedLoopJoin _ predicate joinType left right types countLeft countRight hcols =>
    obtain ⟨left', _, hleft, hrest, rfl⟩ := List.forall₂_cons_left_iff.mp hs
    obtain ⟨right', _, hright, hnil, rfl⟩ := List.forall₂_cons_left_iff.mp hrest
    cases hnil
    refine ⟨_, rfl, hsame, ?_, nofun⟩
    intro j hfound
    cases hfound
    exact ⟨schema, predicate, left', right', rfl, rfl, fun _ => rfl, hleft.toSame, hright.toSame⟩
  | _ => exact ⟨_, rfl, hsame, nofun, nofun⟩

/-- The whole pass. -/
theorem optimizeMergeFilterNLJ_merges (hwf : WellFormed d plan) (hsafe : Tree.Everywhere (SafeMerge d) plan) :
    ∃ plan', optimizeMergeFilterNLJ plan = .ok plan' ∧ Merges d plan plan' := by
  refine Tree.bottomUp_rel ?_ (hwf.and hsafe)
  rintro ⟨schema, op⟩ children children' hnode hs
  obtain ⟨hlocal, hm⟩ := hnode.at_root
  exact merges_node hlocal hm hs

/-- A filter over a plan that the pass has been through. -/
theorem optimized_filter {schema : Schema} {predicate : Expr} {child child' : PlanNode κ}
    (hopt : optimizeMergeFilterNLJ child = .ok child') :
    optimizeMergeFilterNLJ (.node (schema, .filter predicate) [child]) =
      mergeFilterNLJ (.node (schema, .filter predicate) [child']) := by
  unfold optimizeMergeFilterNLJ at hopt ⊢
  rw [Tree.bottomUp, Tree.bottomUpAll, hopt, ok_bind, Tree.bottomUpAll, ok_bind]
  rfl

/-- The pass at a filter over a join, if each side of it has one result. -/
theorem bags_optimized_filter_iff {schema : Schema} {predicate : Expr} {child : PlanNode κ} {j : FoundJoin κ}
    {ls rs : List Record} (hwf : WellFormed d (.node (schema, .filter predicate) [child]))
    (hsafe : Tree.Everywhere (SafeMerge d) child) (hj : foundJoin child = some j)
    (hls : d.results j.left = {some ls}) (hrs : d.results j.right = {some rs}) :
    (∃ plan', optimizeMergeFilterNLJ (.node (schema, .filter predicate) [child]) = .ok plan' ∧
        outputSchema plan' = schema ∧ d.bags plan' = d.bags (.node (schema, .filter predicate) [child])) ↔
      MergesAt j predicate ls rs := by
  have hmem := List.mem_singleton_self child
  obtain ⟨child', hopt, hchild⟩ := optimizeMergeFilterNLJ_merges (hwf.at_child child hmem) hsafe
  rw [optimized_filter hopt]
  cases htest : isPredicateTrue j.predicate with
  | error f =>
    -- the test throws, and there is no plan
    obtain ⟨joinSchema, joinPredicate, left, right, rfl, hsame, -⟩ := hchild.found j hj
    refine iff_of_false ?_ (by unfold MergesAt; rw [htest]; exact id)
    rintro ⟨plan', hok, -⟩
    unfold mergeFilterNLJ at hok
    dsimp only at hok
    rw [hsame, htest] at hok
    cases hok
  | ok counts =>
    cases counts with
    | false =>
      have hkept := same_node hwf.at_root (.cons hchild.toSame .nil)
      refine iff_of_true ⟨_, mergeFilterNLJ_filter hchild.wellFormed ?_, rfl, congrArg (Set.image bag) hkept.results⟩
        (by unfold MergesAt; rw [htest]; exact trivial)
      rintro _ _ _ _ _ rfl
      obtain ⟨_, _, _, _, heq, hsame, -⟩ := hchild.found j hj
      cases heq
      exact hsame.trans htest
    | true =>
      obtain ⟨rewritten, left, right, hrule, -, -, -, -, hsound, hexact⟩ :=
        merge_at_filter hwf.at_root hj htest hchild
      rw [hrule]
      constructor
      · rintro ⟨plan', hok, -, hbags⟩
        cases hok
        exact hexact ls rs hls hrs hbags
      · intro hmerges
        refine ⟨_, rfl, rfl, congrArg (Set.image bag) (hsound ?_)⟩
        intro ls' rs' hls' hrs'
        rw [hls] at hls'
        rw [hrs] at hrs'
        cases hls'
        cases hrs'
        exact hmerges

/-- **Merging filters into joins.**  For every database and every well-formed plan: if every filter over a join meets the
condition of `MergesAt`, the pass ends with a plan of the same output schema and the same results.  And at a filter over a
join whose sides have one result each, the pass returns a plan, and this yields the same bag of rows, exactly if the
condition is met there. -/
theorem merge_filter_nlj_sound (d : Database κ) (plan : PlanNode κ) (hwf : WellFormed d plan) :
    (Tree.Everywhere (SafeMerge d) plan →
      ∃ plan', optimizeMergeFilterNLJ plan = .ok plan' ∧ outputSchema plan' = outputSchema plan ∧
        d.results plan' = d.results plan) ∧
    ∀ schema predicate child j ls rs, plan = .node (schema, .filter predicate) [child] →
      Tree.Everywhere (SafeMerge d) child → foundJoin child = some j →
      d.results j.left = {some ls} → d.results j.right = {some rs} →
      ((∃ plan', optimizeMergeFilterNLJ plan = .ok plan' ∧ outputSchema plan' = outputSchema plan ∧
          d.bags plan' = d.bags plan) ↔ MergesAt j predicate ls rs) := by
  refine ⟨?_, ?_⟩
  · intro hsafe
    obtain ⟨plan', hopt, hmerges⟩ := optimizeMergeFilterNLJ_merges hwf hsafe
    exact ⟨plan', hopt, hmerges.schema, hmerges.results⟩
  · rintro schema predicate child j ls rs rfl hsafe hj hls hrs
    exact bags_optimized_filter_iff hwf hsafe hj hls hrs

end Pass

/-! ## Outer joins -/

section Outer

/-- `a JOIN b ON constant`, of that type. -/
def joinOn (constant : Value) (joinType : JoinType) (ls rs : List Record) : PlanNode (List Record) :=
  .node (.create [integerColumn "a", integerColumn "b"], .nestedLoopJoin (.constantValue constant) joinType)
    [leaf (.create [integerColumn "a"]) ls, leaf (.create [integerColumn "b"]) rs]

/-- `a = b`. -/
def equalColumns : Expr :=
  .comparison .equal (.columnValue 0 0 (integerColumn "a")) (.columnValue 0 1 (integerColumn "b"))

/-- `a JOIN b ON constant WHERE a = b`. -/
def filteredJoin (constant : Value) (joinType : JoinType) (ls rs : List Record) : PlanNode (List Record) :=
  .node (.create [integerColumn "a", integerColumn "b"], .filter equalColumns) [joinOn constant joinType ls rs]

variable {constant : Value} {joinType : JoinType} {ls rs : List Record}

theorem joinOn_wellFormed (hc : constant.getTypeId ≠ .invalid) (hl : ∀ a ∈ ls, HasTypes [.integer] a)
    (hr : ∀ b ∈ rs, HasTypes [.integer] b) : WellFormed fixedRows (joinOn constant joinType ls rs) := by
  have hcount : ∀ column, (Schema.create [column]).columns.length < 2 ^ 32 := by
    intro column
    rw [length_create, List.length_singleton]
    decide
  refine .node (.nestedLoopJoin rfl (hcount _) (hcount _) hc) ?_
  intro t ht
  rcases List.mem_pair.mp ht with rfl | rfl
  · exact leaf_wellFormed hl
  · exact leaf_wellFormed hr

theorem filteredJoin_wellFormed (hc : constant.getTypeId ≠ .invalid) (hl : ∀ a ∈ ls, HasTypes [.integer] a)
    (hr : ∀ b ∈ rs, HasTypes [.integer] b) : WellFormed fixedRows (filteredJoin constant joinType ls rs) := by
  refine .node (.filter rfl ⟨rfl, rfl⟩) ?_
  intro t ht
  rw [List.mem_singleton.mp ht]
  exact joinOn_wellFormed hc hl hr

theorem joinOn_safe : Tree.Everywhere (SafeMerge fixedRows) (joinOn constant joinType ls rs) := by
  refine .node trivial fun t ht => ?_
  rcases List.mem_pair.mp ht with rfl | rfl <;> exact .node trivial nofun

theorem foundJoin_joinOn : foundJoin (joinOn constant joinType ls rs) = some ⟨.constantValue constant, joinType,
    leaf (.create [integerColumn "a"]) ls, leaf (.create [integerColumn "b"]) rs⟩ := rfl

/-- With `ON TRUE` and a partner for the row `1` the filter of a `LEFT` join can be merged; with `ON 1` no plan is
returned. -/
theorem merge_filter_nlj_sound_partner :
    (∃ plan', optimizeMergeFilterNLJ (filteredJoin (.boolean 1) .left [[.integer 1]] [[.integer 1]]) = .ok plan' ∧
      outputSchema plan' = .create [integerColumn "a", integerColumn "b"] ∧
      fixedRows.bags plan' = fixedRows.bags (filteredJoin (.boolean 1) .left [[.integer 1]] [[.integer 1]])) ∧
    ¬ ∃ plan', optimizeMergeFilterNLJ (filteredJoin (.integer 1) .inner [[.integer 1]] [[.integer 1]]) = .ok plan' ∧
      outputSchema plan' = .create [integerColumn "a", integerColumn "b"] ∧
      fixedRows.bags plan' = fixedRows.bags (filteredJoin (.integer 1) .inner [[.integer 1]] [[.integer 1]]) := by
  have hrow : ∀ a ∈ [[Value.integer 1]], HasTypes [.integer] a := by simp [HasTypes, Value.getTypeId]
  constructor
  · refine ((merge_filter_nlj_sound fixedRows _ (filteredJoin_wellFormed (by decide) hrow hrow)).2
      _ _ _ _ _ _ rfl joinOn_safe foundJoin_joinOn results_leaf results_leaf).mpr ?_
    refine .inr fun a ha => ⟨[.integer 1], List.mem_singleton_self _, ?_⟩
    rw [List.mem_singleton.mp ha]
    decide +kernel
  · intro hplan
    exact ((merge_filter_nlj_sound fixedRows _ (filteredJoin_wellFormed (by decide) hrow hrow)).2
      _ _ _ _ _ _ rfl joinOn_safe foundJoin_joinOn results_leaf results_leaf).mp hplan

/-- The row `1` has no partner: the filter drops it, the merged join pads it. -/
theorem outer_join_keeps_filtered_row : ¬ ∀ (κ : Type) (d : Database κ) (plan : PlanNode κ), WellFormed d plan →
    ∃ plan', optimizeMergeFilterNLJ plan = .ok plan' ∧
      outputSchema plan' = outputSchema plan ∧ d.bags plan' = d.bags plan := by
  intro hclaim
  have hrow : ∀ n, ∀ a ∈ [[Value.integer n]], HasTypes [.integer] a := by simp [HasTypes, Value.getTypeId]
  have hwf : WellFormed fixedRows (filteredJoin (.boolean 1) .left [[.integer 1]] [[.integer 2]]) :=
    filteredJoin_wellFormed (by decide) (hrow 1) (hrow 2)
  have hsame := hclaim _ fixedRows _ hwf
  have hmerges := (bags_optimized_filter_iff hwf joinOn_safe foundJoin_joinOn results_leaf results_leaf).mp hsame
  rcases hmerges with ⟨a, ha, b, hb, hnone⟩ | hpartner
  · rw [List.mem_singleton.mp ha, List.mem_singleton.mp hb] at hnone
    exact absurd hnone (by decide +kernel)
  · obtain ⟨b, hb, htrue⟩ := hpartner _ (List.mem_singleton_self _)
    rw [List.mem_singleton.mp hb] at htrue
    exact absurd htrue (by decide +kernel)

end Outer

end Journey.Optimizer
