import Journey.Bustub.Optimizer.OrderByIndexScan

/-!
# Journey.Bustub.Optimizer.NLJAsIndexJoin — joins with a table through an index

`OptimizeNLJAsIndexJoin` replaces a join on the equality of two columns, with a scan of a table on its right, by
lookups in an index of the table.  The predicate of the scan is lost.

* `nljAsIndexJoin`, `optimizeNLJAsIndexJoin`: the rule and the pass.
* `FindsPartners`: the lookups find the rows that the join did; `bag_index_join_iff`: exactly then the joins agree.
* `optimizeNLJ_same`, `bags_optimized_nlj_iff`: the pass.
-/

namespace Journey.Optimizer

open SqlType Catalog Execution

/-! ## The rule -/

section Model

variable {κ : Type}

/-- `Optimizer::MatchIndex`. -/
def matchIndex (catalog : Catalog) (tableName : String) (indexKeyIdx : ℕ) :
    Except Fault (Option (UInt32 × String)) := do
  let indexInfo ← findIndex catalog tableName [indexKeyIdx]
  return indexInfo.map fun info => (info.indexOid, info.name)

/-- An equality of a left and a right column, either way round: the left column as a column of a single tuple, and
the position of the right one. -/
def joinKey : Expr → Option (Expr × ℕ)
  | .comparison .equal (.columnValue leftTuple leftCol leftType) (.columnValue rightTuple rightCol rightType) =>
    if leftTuple = 0 ∧ rightTuple = 1 then some (.columnValue 0 leftCol leftType, rightCol)
    else if leftTuple = 1 ∧ rightTuple = 0 then some (.columnValue 0 rightCol rightType, leftCol)
    else none
  | _ => none

/-- What `OptimizeNLJAsIndexJoin` does at a node, after its children. -/
def nljAsIndexJoin (catalog : Catalog) : PlanNode κ → Except Fault (PlanNode κ)
  | .node (schema, .nestedLoopJoin predicate joinType) [leftPlan, rightPlan] =>
    match joinKey predicate, rightPlan with
    | some (keyPredicate, colIdx), .node (rightSchema, .seqScan tableOid tableName filterPredicate) grandchildren => do
      match ← matchIndex catalog tableName colIdx with
      | some (indexOid, indexName) =>
        return .node (schema, .nestedIndexJoin keyPredicate tableOid indexOid indexName tableName rightSchema joinType)
          [leftPlan]
      | none =>
        return .node (schema, .nestedLoopJoin predicate joinType)
          [leftPlan, .node (rightSchema, .seqScan tableOid tableName filterPredicate) grandchildren]
    | _, _ => .ok (.node (schema, .nestedLoopJoin predicate joinType) [leftPlan, rightPlan])
  | .node (_, .nestedLoopJoin _ _) _ => .error (.terminate "NLJ should have exactly 2 children.")
  | optimizedPlan => .ok optimizedPlan

/-- `Optimizer::OptimizeNLJAsIndexJoin`. -/
def optimizeNLJAsIndexJoin (catalog : Catalog) : PlanNode κ → Except Fault (PlanNode κ) :=
  Tree.bottomUp (nljAsIndexJoin catalog)

/-- A join that is replaced. -/
structure ReplacedJoin (κ : Type) where
  predicate : Expr
  joinType : JoinType
  left : PlanNode κ
  rightSchema : Schema
  tableOid : UInt32
  filterPredicate : Option Expr
  keyPredicate : Expr
  colIdx : ℕ

/-- The join that is replaced at a node. -/
def replacedJoin (catalog : Catalog) : PlanNode κ → Option (ReplacedJoin κ)
  | .node (_, .nestedLoopJoin predicate joinType)
      [left, .node (rightSchema, .seqScan tableOid tableName filterPredicate) _] => do
    let (keyPredicate, colIdx) ← joinKey predicate
    match matchIndex catalog tableName colIdx with
    | .ok (some _) =>
      return ⟨predicate, joinType, left, rightSchema, tableOid, filterPredicate, keyPredicate, colIdx⟩
    | _ => none
  | _ => none

end Model

/-! ## Two joins with one table -/

section Joins

variable {on found : Record → Record → Option Bool} {test : Record → Option Bool} {pad : Record}
  {ls rs : List Record} {joinType : JoinType}

/-- The joined rows for a left row with the given partners. -/
theorem joined_eq (a : Record) : joined joinType on pad rs a =
    if joinType = .left ∧ partners on rs a = [] then [a ++ pad] else (partners on rs a).map (a ++ ·) := by
  cases joinType with
  | left => simp [joined_left]
  | _ => simp [joined]

/-- **The lookups find what the join did**: a row of the table is found for a left row exactly if it passes the
predicate of the scan and the join condition; or both joins throw. -/
def FindsPartners (on found : Record → Record → Option Bool) (test : Record → Option Bool) (ls rs : List Record) :
    Prop :=
  ((∃ b ∈ rs, test b = none) ∨ ∃ a ∈ ls, ∃ b ∈ rs, test b = some true ∧ on a b = none) ∧
      (∃ a ∈ ls, ∃ b ∈ rs, found a b = none) ∨
    (∀ b ∈ rs, test b ≠ none) ∧ (∀ a ∈ ls, ∀ b ∈ rs, test b = some true → on a b ≠ none) ∧
      (∀ a ∈ ls, ∀ b ∈ rs, found a b ≠ none) ∧
      ∀ a ∈ ls, ∀ b ∈ rs, found a b = some true ↔ test b = some true ∧ on a b = some true

/-- The partners among the rows that pass. -/
theorem partners_filter (a : Record) : partners on (rs.filter fun b => test b == some true) a =
    rs.filter fun b => on a b == some true && test b == some true := by
  unfold partners
  rw [List.filter_filter]

/-- With partners that are not the padding, the joined rows tell the partners. -/
theorem joined_perm_joined_iff {rs' : List Record} (a : Record) (h : pad ∉ partners on rs a)
    (h' : pad ∉ partners found rs' a) :
    (joined joinType on pad rs a).Perm (joined joinType found pad rs' a) ↔
      (partners on rs a).Perm (partners found rs' a) := by
  have hinj : Function.Injective (a ++ · : Record → Record) := fun x y hxy => List.append_cancel_left hxy
  -- a padded row is not one of the joined rows of the other side
  have hpad : ∀ ps : List Record, pad ∉ ps → ([a ++ pad].Perm (ps.map (a ++ ·)) ↔ False) := by
    intro ps hps
    rw [iff_false]
    intro hperm
    have hmem : a ++ pad ∈ ps.map (a ++ ·) := hperm.mem_iff.mp (List.mem_singleton_self _)
    obtain ⟨p, hp, heq⟩ := List.mem_map.mp hmem
    exact hps (hinj heq ▸ hp)
  rw [joined_eq, joined_eq]
  split_ifs with h₁ h₂ h₂
  · rw [h₁.2, h₂.2]
    exact ⟨fun _ => .refl _, fun _ => .refl _⟩
  · rw [hpad _ h', h₁.2, List.nil_perm, false_iff]
    exact fun hnil => h₂ ⟨h₁.1, hnil⟩
  · rw [List.perm_comm, hpad _ h, h₂.2, List.perm_nil, false_iff]
    exact fun hnil => h₁ ⟨h₂.1, hnil⟩
  · exact List.map_perm_map_iff hinj

/-- A join with the rows that pass: it throws, or nothing is thrown and it has these rows. -/
theorem filtered_join_cases (on : Record → Record → Option Bool) (test : Record → Option Bool) (pad : Record)
    (ls rs : List Record) (hjoin : joinType = .inner ∨ joinType = .left) :
    (((∃ b ∈ rs, test b = none) ∨ ∃ a ∈ ls, ∃ b ∈ rs, test b = some true ∧ on a b = none) ∧
      ((selects test rs).bind fun rs' => join joinType on pad ls rs') = none) ∨
    ((∀ b ∈ rs, test b ≠ none) ∧ (∀ a ∈ ls, ∀ b ∈ rs, test b = some true → on a b ≠ none) ∧
      ((selects test rs).bind fun rs' => join joinType on pad ls rs') =
        some (ls.flatMap (joined joinType on pad (rs.filter fun b => test b == some true)))) := by
  by_cases htest : ∀ b ∈ rs, test b ≠ none
  · rw [selects_of_some htest, Option.bind_some]
    by_cases hon : ∀ a ∈ ls, ∀ b ∈ rs, test b = some true → on a b ≠ none
    · refine .inr ⟨htest, hon, join_of_some hjoin ?_⟩
      intro a ha b hb
      obtain ⟨hmem, hpass⟩ := List.mem_filter.mp hb
      exact hon a ha b hmem (eq_of_beq hpass)
    · push Not at hon
      obtain ⟨a, ha, b, hb, hpass, hnone⟩ := hon
      refine .inl ⟨.inr ⟨a, ha, b, hb, hpass, hnone⟩, join_of_none ha (List.mem_filter.mpr ⟨hb, ?_⟩) hnone⟩
      rw [hpass]
      rfl
  · push Not at htest
    obtain ⟨b, hb, hnone⟩ := htest
    refine .inl ⟨.inl ⟨b, hb, hnone⟩, ?_⟩
    rw [selects_eq_none_iff.mpr ⟨b, hb, hnone⟩]
    rfl

/-- A left row has the same partners on both sides. -/
theorem partners_perm_iff (a : Record) :
    (partners on (rs.filter fun b => test b == some true) a).Perm (partners found rs a) ↔
      ∀ b ∈ rs, found a b = some true ↔ test b = some true ∧ on a b = some true := by
  rw [partners_filter, partners, filter_perm_filter_iff]
  refine forall₂_congr fun b _ => ?_
  rw [Bool.eq_iff_iff, Bool.and_eq_true, beq_iff_eq, beq_iff_eq, beq_iff_eq, and_comm]
  exact ⟨Iff.symm, Iff.symm⟩

/-- **The join with the rows that pass a test and the join by lookups agree, exactly if the lookups find the
partners.** -/
theorem bag_index_join_iff {n : ℕ} (hjoin : joinType = .inner ∨ joinType = .left) (hlen : ∀ a ∈ ls, a.length = n)
    (hon : ∀ a ∈ ls, on a pad ≠ some true) (hfound : ∀ a ∈ ls, found a pad ≠ some true) :
    bag ((selects test rs).bind fun rs' => join joinType on pad ls rs') = bag (join joinType found pad ls rs) ↔
      FindsPartners on found test ls rs := by
  have hnotPad : ∀ (cond : Record → Record → Option Bool) (rows : List Record) (a : Record),
      cond a pad ≠ some true → pad ∉ partners cond rows a := by
    intro cond rows a hne hmem
    exact hne (eq_of_beq (List.mem_filter.mp hmem).2)
  by_cases hnew : ∀ a ∈ ls, ∀ b ∈ rs, found a b ≠ none
  · rw [join_of_some hjoin hnew]
    rcases filtered_join_cases on test pad ls rs hjoin with
      ⟨hthrows, heq⟩ | ⟨htest, hok, heq⟩
    · rw [heq]
      refine ⟨nofun, ?_⟩
      rintro (⟨-, a, ha, b, hb, hnone⟩ | ⟨htest, hok, -, -⟩)
      · exact absurd hnone (hnew a ha b hb)
      · rcases hthrows with ⟨b, hb, hnone⟩ | ⟨a, ha, b, hb, hpass, hnone⟩
        · exact absurd hnone (htest b hb)
        · exact absurd hnone (hok a ha b hb hpass)
    · rw [heq, bag_some_eq_some, flatMap_perm_flatMap_iff (fun row => row.take n) (take_joined hlen) (take_joined hlen)]
      have hrow : ∀ a ∈ ls, (joined joinType on pad (rs.filter fun b => test b == some true) a).Perm
          (joined joinType found pad rs a) ↔
          ∀ b ∈ rs, found a b = some true ↔ test b = some true ∧ on a b = some true := by
        intro a ha
        rw [joined_perm_joined_iff a (hnotPad _ _ a (hon a ha)) (hnotPad _ _ a (hfound a ha)), partners_perm_iff]
      rw [forall₂_congr hrow]
      constructor
      · intro hall
        exact .inr ⟨htest, hok, hnew, hall⟩
      · rintro (⟨-, a, ha, b, hb, hnone⟩ | ⟨-, -, -, hall⟩)
        · exact absurd hnone (hnew a ha b hb)
        · exact hall
  · push Not at hnew
    obtain ⟨a, ha, b, hb, hnone⟩ := hnew
    rw [join_of_none ha hb hnone, bag_none, bag_eq_none]
    rcases filtered_join_cases on test pad ls rs hjoin with
      ⟨hthrows, heq⟩ | ⟨htest, hok, heq⟩
    · exact ⟨fun _ => .inl ⟨hthrows, a, ha, b, hb, hnone⟩, fun _ => heq⟩
    · rw [heq]
      refine ⟨nofun, ?_⟩
      rintro (⟨⟨b', hb', hnone'⟩ | ⟨a', ha', b', hb', hpass, hnone'⟩, -⟩ | ⟨-, -, hsome, -⟩)
      · exact absurd hnone' (htest b' hb')
      · exact absurd hnone' (hok a' ha' b' hb' hpass)
      · exact absurd hnone (hsome a ha b hb)

end Joins

/-! ## A join with a table -/

section Node

variable {κ : Type} {d : Database κ} {predicate keyPredicate : Expr} {colIdx : ℕ} {types : List TypeId}
  {filterPredicate : Option Expr} {rows : List Record}

/-- The predicate of a scan as a test. -/
def scanTest : Option Expr → Record → Option Bool
  | none, _ => some true
  | some predicate, row => pass predicate row

theorem selectsBy_eq_selects : selectsBy filterPredicate rows = selects (scanTest filterPredicate) rows := by
  cases filterPredicate with
  | none => exact (selects_all fun _ _ => rfl).symm
  | some predicate => rfl

theorem isNull_of_readRow_padding {t i : ℕ} {v : Value} (h : readRow (padding types) t i = .ok v) :
    v.isNull = true := by
  unfold readRow padding at h
  rw [List.getElem?_map] at h
  cases htype : types[i]? with
  | none =>
    rw [htype] at h
    cases h
  | some type =>
    rw [htype] at h
    cases h
    exact isNull_nullOf type

theorem not_null_of_truth {v w : Value} (h : truth (performComparison .equal v w) = some true) :
    v.isNull = false ∧ w.isNull = false := by
  unfold performComparison at h
  cases hc : v.compare .equal w with
  | error e =>
    rw [hc] at h
    cases h
  | ok c =>
    rw [hc] at h
    cases c with
    | cmpTrue => exact not_null_of_compare_equal hc
    | _ => cases h

theorem truth_bind_eq_some {x : Except Fault Value} {f : Value → Except Fault Value} {t : Bool}
    (h : truth (x >>= f) = some t) : ∃ v, x = .ok v ∧ truth (f v) = some t := by
  cases x with
  | error e => cases h
  | ok v => exact ⟨v, rfl, h⟩

/-- The condition of a replaced join does not accept the padding. -/
theorem passPair_padding (h : joinKey predicate = some (keyPredicate, colIdx)) (a : Record) :
    passPair predicate a (padding types) ≠ some true := by
  unfold joinKey at h
  split at h
  · rename_i leftTuple leftCol leftType rightTuple rightCol rightType
    intro htrue
    unfold passPair at htrue
    simp only [Expr.eval] at htrue
    obtain ⟨v, hv, htrue⟩ := truth_bind_eq_some htrue
    obtain ⟨w, hw, htrue⟩ := truth_bind_eq_some htrue
    obtain ⟨hnv, hnw⟩ := not_null_of_truth htrue
    split_ifs at h with hforward hbackward
    · obtain ⟨rfl, rfl⟩ := hforward
      have hread : readRow (padding types) 0 rightCol = .ok w := hw
      rw [isNull_of_readRow_padding hread] at hnw
      cases hnw
    · obtain ⟨rfl, rfl⟩ := hbackward
      have hread : readRow (padding types) 0 leftCol = .ok v := hv
      rw [isNull_of_readRow_padding hread] at hnv
      cases hnv
  · cases h

theorem keyMatches_padding (keyPredicate : Expr) (colIdx : ℕ) (a : Record) :
    Database.keyMatches keyPredicate colIdx a (padding types) ≠ some true := by
  intro htrue
  unfold Database.keyMatches at htrue
  obtain ⟨v, hv, htrue⟩ := truth_bind_eq_some htrue
  obtain ⟨w, hw, htrue⟩ := truth_bind_eq_some htrue
  have hnull := (not_null_of_truth htrue).2
  rw [isNull_of_readRow_padding hw] at hnull
  cases hnull

/-- The key is a column of the left side. -/
theorem over_joinKey {lt rt : List TypeId} (h : joinKey predicate = some (keyPredicate, colIdx))
    (hover : predicate.Over (sides lt rt)) : keyPredicate.Over (single lt) := by
  unfold joinKey at h
  split at h
  · split_ifs at h with hforward hbackward
    · obtain ⟨rfl, rfl⟩ := hforward
      cases h
      exact hover.1
    · obtain ⟨rfl, rfl⟩ := hbackward
      cases h
      exact hover.2
  · cases h

variable {schema rightSchema : Schema} {joinType : JoinType} {left : PlanNode κ} {tableOid : UInt32}
  {tableName : String} {index : IndexInfo}

/-- The results of a join with a table. -/
theorem results_join_scan :
    d.results (.node (schema, .nestedLoopJoin predicate joinType)
        [left, .node (rightSchema, .seqScan tableOid tableName filterPredicate) []]) =
      { o | ∃ i ∈ d.results left, o ∈ anyOrder (i.bind fun ls =>
        (selects (scanTest filterPredicate) (d.table tableOid)).bind fun rs =>
          join joinType (passPair predicate) (padding (columnTypes rightSchema)) ls rs) } := by
  have hscan : (d.meaning (.node (rightSchema, .seqScan tableOid tableName filterPredicate) [])).results =
      {selects (scanTest filterPredicate) (d.table tableOid)} := by
    rw [← selectsBy_eq_selects]
    exact d.results_node rightSchema (.seqScan tableOid tableName filterPredicate) []
  rw [d.results_node]
  show { o | ∃ i ∈ d.results left, ∃ j ∈ (d.meaning _).results, _ } = _
  rw [hscan, d.types_meaning]
  simp only [Set.mem_singleton_iff, exists_eq_left, outputSchema_node]

/-- The results of the join by lookups that it is replaced by. -/
theorem results_index_join {indexOid : UInt32} {indexName : String}
    (hfound : d.catalog.getIndexByOid indexOid = some index) (hkeys : getKeyAttrs index = [colIdx]) :
    d.results (.node (schema, .nestedIndexJoin keyPredicate tableOid indexOid indexName tableName rightSchema joinType)
        [left]) =
      { o | ∃ i ∈ d.results left, o ∈ anyOrder (i.bind fun ls =>
        join joinType (Database.keyMatches keyPredicate colIdx) (padding (columnTypes rightSchema)) ls
          (d.table tableOid)) } := by
  have hjoin : d.indexJoin keyPredicate tableOid indexOid (columnTypes rightSchema) joinType = fun ls =>
      join joinType (Database.keyMatches keyPredicate colIdx) (padding (columnTypes rightSchema)) ls
        (d.table tableOid) := by
    funext ls
    unfold Database.indexJoin
    rw [hfound, Option.bind_eq_bind, Option.bind_some, hkeys]
  rw [d.results_node]
  show { o | ∃ i ∈ d.results left, o ∈ anyOrder (i.bind (d.indexJoin _ _ _ _ _)) } = _
  rw [hjoin]

/-- The index that is matched is one of the table, on the one column. -/
theorem matchIndex_spec (d : Database κ) (tableName : String) (colIdx : ℕ) :
    matchIndex d.catalog tableName colIdx = .ok none ∨
      ∃ index, matchIndex d.catalog tableName colIdx = .ok (some (index.indexOid, index.name)) ∧
        d.catalog.getIndexByOid index.indexOid = some index ∧ index.tableName = tableName ∧
        getKeyAttrs index = [colIdx] := by
  obtain ⟨found, hfound, hspec⟩ := findIndex_spec d tableName [colIdx]
  unfold matchIndex
  rw [hfound]
  cases found with
  | none => exact .inl rfl
  | some index =>
    obtain ⟨hoid, htable, hkeys⟩ := hspec index rfl
    exact .inr ⟨index, rfl, hoid, htable, hkeys.symm⟩

/-- The lookups of a replaced join find what the join did, for these rows of the left side. -/
def Lookups (d : Database κ) (j : ReplacedJoin κ) (ls : List Record) : Prop :=
  j.joinType = .inner ∨ j.joinType = .left →
    FindsPartners (passPair j.predicate) (Database.keyMatches j.keyPredicate j.colIdx) (scanTest j.filterPredicate) ls
      (d.table j.tableOid)

/-- One order of the rows of the left side: the bags agree exactly if the lookups find the partners. -/
theorem bag_lookups_iff (j : ReplacedJoin κ) (types : List TypeId) (hl : WellFormed d left)
    (hkey : joinKey j.predicate = some (j.keyPredicate, j.colIdx)) {ls : List Record}
    (hls : some ls ∈ d.results left) :
    bag ((selects (scanTest j.filterPredicate) (d.table j.tableOid)).bind fun rs =>
        join j.joinType (passPair j.predicate) (padding types) ls rs) =
      bag (join j.joinType (Database.keyMatches j.keyPredicate j.colIdx) (padding types) ls (d.table j.tableOid)) ↔
      Lookups d j ls := by
  have hlen : ∀ a ∈ ls, a.length = (columnTypes (outputSchema left)).length :=
    fun a ha => (typed_results hl (some ls) hls ls rfl a ha).length_eq
  unfold Lookups
  by_cases hjoin : j.joinType = .inner ∨ j.joinType = .left
  · rw [bag_index_join_iff hjoin hlen (fun a _ => passPair_padding hkey a) fun a _ => keyMatches_padding _ _ a]
    exact ⟨fun h _ => h, fun h => h hjoin⟩
  · -- neither executor can be made
    have hother := not_or.mp hjoin
    rw [join_other hother.1 hother.2]
    refine ⟨fun _ h => absurd h hjoin, fun _ => ?_⟩
    cases selects (scanTest j.filterPredicate) (d.table j.tableOid) with
    | none => rfl
    | some rs => rw [Option.bind_some, join_other hother.1 hother.2]

variable {plan plan' : PlanNode κ} {j : ReplacedJoin κ}

/-- **The rule where it fires**: the new plan is well-formed, and has the results of the old one if the lookups find
the partners; if the left side has one result, exactly then it has the same rows. -/
theorem nljAsIndexJoin_replaced (h : WellFormed d plan) (hr : replacedJoin d.catalog plan = some j) :
    ∃ plan', nljAsIndexJoin d.catalog plan = .ok plan' ∧ outputSchema plan' = outputSchema plan ∧
      WellFormed d plan' ∧ (∀ schema oid name predicate, plan' ≠ .node (schema, .seqScan oid name predicate) []) ∧
      ((∀ ls, some ls ∈ d.results j.left → Lookups d j ls) → d.results plan' = d.results plan) ∧
      ∀ ls, d.results j.left = {some ls} → (d.bags plan' = d.bags plan ↔ Lookups d j ls) := by
  unfold replacedJoin at hr
  split at hr
  · rename_i schema predicate joinType left rightSchema tableOid tableName filterPredicate grandchildren
    obtain ⟨⟨keyPredicate, colIdx⟩, hkey, hr⟩ := Option.bind_eq_some_iff.mp hr
    dsimp only at hr
    rcases matchIndex_spec d tableName colIdx with hnone | ⟨index, hmatch, hoid, htable, hkeys⟩
    · rw [hnone] at hr
      cases hr
    · rw [hmatch] at hr
      cases hr
      have hleft := h.at_child left (by simp)
      have hiff := fun ls (hls : some ls ∈ d.results left) => bag_lookups_iff
        ⟨predicate, joinType, left, rightSchema, tableOid, filterPredicate, keyPredicate, colIdx⟩
        (columnTypes rightSchema) hleft hkey hls
      have hscan := h.at_child _ (List.mem_cons_of_mem _ (List.mem_singleton_self _))
      cases h.at_root with
      | nestedLoopJoin types countLeft countRight hcols =>
        cases hscan.at_root with
        | seqScan table name stypes sover =>
          refine ⟨.node (schema, .nestedIndexJoin keyPredicate tableOid index.indexOid index.name tableName rightSchema
            joinType) [left], ?_, rfl, ?_, ?_, ?_, ?_⟩
          · simp only [nljAsIndexJoin, hkey, hmatch, ok_bind]
            rfl
          · refine .node (.nestedIndexJoin table hoid (htable.trans name.symm) stypes types (over_joinKey hkey hcols)) ?_
            intro t ht
            rw [List.mem_singleton.mp ht]
            exact hleft
          · intro _ _ _ _ heq
            cases heq
          · intro hsafe
            rw [results_index_join hoid hkeys, results_join_scan]
            ext o
            refine exists_congr fun i => and_congr_right fun hi => ?_
            cases i with
            | none => exact Iff.rfl
            | some ls =>
              rw [Option.bind_some, Option.bind_some, mem_anyOrder, mem_anyOrder,
                (hiff ls hi).mpr (hsafe ls hi)]
          · intro ls hls
            have hmem : some ls ∈ d.results left := by
              rw [hls]
              rfl
            unfold Database.bags
            rw [results_index_join hoid hkeys, results_join_scan, hls]
            simp only [Set.mem_singleton_iff, exists_eq_left, Option.bind_some]
            rw [Set.ofPred_mem_eq, Set.ofPred_mem_eq, image_bag_anyOrder, image_bag_anyOrder,
              Set.singleton_eq_singleton_iff, eq_comm]
            exact hiff ls hmem
  · cases hr

/-- The rule leaves all other plans as they are. -/
theorem nljAsIndexJoin_kept (h : WellFormed d plan) (hr : replacedJoin d.catalog plan = none) :
    nljAsIndexJoin d.catalog plan = .ok plan := by
  cases h with
  | node here below =>
    cases here with
    | @nestedLoopJoin schema predicate joinType left right types countLeft countRight hcols =>
      have hright := below right (by simp)
      cases hkey : joinKey predicate with
      | none => simp [nljAsIndexJoin, hkey]
      | some key =>
        obtain ⟨keyPredicate, colIdx⟩ := key
        cases hright with
        | node hlocal _ =>
          cases hlocal with
          | @seqScan _ tableOid tableName _ info table name stypes sover =>
            rcases matchIndex_spec d tableName colIdx with hnone | ⟨index, hmatch, -⟩
            · simp only [nljAsIndexJoin, hkey, hnone, ok_bind]
              rfl
            · simp [replacedJoin, hkey, hmatch] at hr
          | _ => simp [nljAsIndexJoin, hkey]
    | _ => rfl

end Node

/-! ## The pass -/

section Pass

variable {κ : Type} {d : Database κ} {plan plan' : PlanNode κ} {j : ReplacedJoin κ}

/-- The lookups of a join that is replaced find its partners, for all the rows that its left side can have. -/
def SafeLookup (d : Database κ) (plan : PlanNode κ) : Prop :=
  ∀ j, replacedJoin d.catalog plan = some j → ∀ ls, some ls ∈ d.results j.left → Lookups d j ls

/-- A join with rewritten children is replaced only if it was to be, and its left side means the same. -/
theorem replacedJoin_children {schema : Schema} {op : Operator κ} {children children' : List (PlanNode κ)}
    {j' : ReplacedJoin κ} (hs : List.Forall₂ (KeepsScans d) children children')
    (h : replacedJoin d.catalog (.node (schema, op) children') = some j') :
    ∃ left, Same d left j'.left ∧
      replacedJoin d.catalog (.node (schema, op) children) = some { j' with left := left } := by
  unfold replacedJoin at h
  split at h
  · rename_i predicate joinType left' rightSchema tableOid tableName filterPredicate grandchildren heq
    cases heq
    obtain ⟨left, _, hleft, hrest, rfl⟩ := List.forall₂_cons_right_iff.mp hs
    obtain ⟨right, _, hright, hnil, rfl⟩ := List.forall₂_cons_right_iff.mp hrest
    cases hnil
    obtain ⟨⟨keyPredicate, colIdx⟩, hkey, hj⟩ := Option.bind_eq_some_iff.mp h
    dsimp only at hj
    rcases matchIndex_spec d tableName colIdx with hnone | ⟨index, hmatch, -⟩
    · rw [hnone] at hj
      cases hj
    · rw [hmatch] at hj
      cases hj
      cases hright.wellFormed.at_root with
      | seqScan table name types hcols =>
        rw [hright.scans _ _ _ _ rfl]
        exact ⟨left, hleft.toSame, by simp [replacedJoin, hkey, hmatch]⟩
  · cases h

/-- **The pass keeps the meaning** of a plan if the lookups find the partners at every join that is replaced. -/
theorem optimizeNLJ_same (hwf : WellFormed d plan) (hsafe : Tree.Everywhere (SafeLookup d) plan) :
    ∃ plan', optimizeNLJAsIndexJoin d.catalog plan = .ok plan' ∧ KeepsScans d plan plan' := by
  refine Tree.bottomUp_rel ?_ (hwf.and hsafe)
  rintro ⟨schema, op⟩ children children' hnode hs
  obtain ⟨hlocal, hcond⟩ := hnode.at_root
  have hkeeps := keepsScans_node hlocal hs
  cases hr : replacedJoin d.catalog (.node (schema, op) children') with
  | none => exact ⟨_, nljAsIndexJoin_kept hkeeps.wellFormed hr, hkeeps⟩
  | some j' =>
    obtain ⟨left, hleft, hj⟩ := replacedJoin_children hs hr
    obtain ⟨plan', hrule, hschema, hwf', hscan, hsound, -⟩ := nljAsIndexJoin_replaced hkeeps.wellFormed hr
    have hresults : d.results plan' = d.results (.node (schema, op) children') := by
      refine hsound ?_
      intro ls hls
      rw [hleft.results] at hls
      exact hcond _ hj ls hls
    refine ⟨plan', hrule, hkeeps.toSame.trans ⟨hschema, hresults, hwf'⟩, ?_⟩
    intro _ _ _ _ heq
    exact absurd heq (hscan _ _ _ _)

/-- The pass at a join that it replaces, if the left side has one result. -/
theorem bags_optimized_nlj_iff {ls : List Record} (hwf : WellFormed d plan)
    (hr : replacedJoin d.catalog plan = some j) (hsafe : Tree.Everywhere (SafeLookup d) j.left)
    (hls : d.results j.left = {some ls}) :
    (∃ plan', optimizeNLJAsIndexJoin d.catalog plan = .ok plan' ∧ d.bags plan' = d.bags plan) ↔ Lookups d j ls := by
  unfold replacedJoin at hr
  split at hr
  · rename_i schema predicate joinType left rightSchema tableOid tableName filterPredicate grandchildren
    obtain ⟨⟨keyPredicate, colIdx⟩, hkey, hr⟩ := Option.bind_eq_some_iff.mp hr
    dsimp only at hr
    rcases matchIndex_spec d tableName colIdx with hnone | ⟨index, hmatch, -⟩
    · rw [hnone] at hr
      cases hr
    · rw [hmatch] at hr
      cases hr
      have hscan := hwf.at_child _ (List.mem_cons_of_mem _ (List.mem_singleton_self _))
      obtain ⟨left', hopt, hleft⟩ := optimizeNLJ_same (hwf.at_child left (by simp)) hsafe
      cases hscan.at_root with
      | seqScan table name types hcols =>
        have hnode : Same d _ _ := same_node hwf.at_root (.cons hleft.toSame (.cons ⟨rfl, rfl, hscan⟩ .nil))
        have hr' : replacedJoin d.catalog (.node (schema, .nestedLoopJoin predicate joinType)
            [left', .node (rightSchema, .seqScan tableOid tableName filterPredicate) []]) =
            some ⟨predicate, joinType, left', rightSchema, tableOid, filterPredicate, keyPredicate, colIdx⟩ := by
          simp [replacedJoin, hkey, hmatch]
        obtain ⟨plan', hrule, -, -, -, -, hiff⟩ := nljAsIndexJoin_replaced hnode.wellFormed hr'
        have hrun : optimizeNLJAsIndexJoin d.catalog (.node (schema, .nestedLoopJoin predicate joinType)
            [left, .node (rightSchema, .seqScan tableOid tableName filterPredicate) []]) = .ok plan' := by
          unfold optimizeNLJAsIndexJoin at hopt ⊢
          rw [Tree.bottomUp, Tree.bottomUpAll, hopt, ok_bind]
          exact hrule
        have hbags := hiff ls (hleft.results.trans hls)
        unfold Database.bags at hbags ⊢
        rw [hnode.results] at hbags
        rw [hrun]
        constructor
        · rintro ⟨plan'', hok, heq⟩
          cases hok
          exact hbags.mp heq
        · intro hlookups
          exact ⟨plan', rfl, hbags.mpr hlookups⟩
  · cases hr

end Pass

end Journey.Optimizer
