import Journey.Bustub.Optimizer.IndexRules
import Journey.Bustub.Optimizer.MergeFilterNLJ
import Journey.Bustub.Optimizer.MergeFilterScan
import Journey.Bustub.Type.Coherence

/-!
# Journey.Bustub.Optimizer.Optimizer — the passes in their order

`Optimize` runs the passes one after the other, in one order with the starter rules and in another one by default.
The index rules lose the predicate of a scan, so they have to come before the filters are pushed into the scans; and
merging projections and filters brings sorts over scans, and joins, that were not there.

* `optimizeCustom`, `optimize`: the two orders.
* `Plain`: what an operator has to be like for all of the passes to keep it right.
* `plain_mergeFilterNLJ` and its siblings: the passes leave plans of such operators.
* `optimize_sound`: the whole optimizer.
-/

namespace Journey.Optimizer

open SqlType Catalog Execution

/-! ## The optimizer -/

section Model

variable {κ : Type}

/-- `Optimizer::OptimizeNLJAsHashJoin`, a stub that gives the plan back. -/
def optimizeNLJAsHashJoin (plan : PlanNode κ) : Except Fault (PlanNode κ) := .ok plan

/-- `Optimizer::OptimizeSortLimitAsTopN`, a stub that gives the plan back. -/
def optimizeSortLimitAsTopN (plan : PlanNode κ) : Except Fault (PlanNode κ) := .ok plan

/-- `Optimizer::OptimizeSeqScanAsIndexScan`, a stub that gives the plan back. -/
def optimizeSeqScanAsIndexScan (plan : PlanNode κ) : Except Fault (PlanNode κ) := .ok plan

/-- `Optimizer::OptimizeCustom`. -/
def optimizeCustom (catalog : Catalog) (plan : PlanNode κ) : Except Fault (PlanNode κ) := do
  let p ← optimizeMergeProjection plan
  let p ← optimizeMergeFilterNLJ p
  let p ← optimizeNLJAsHashJoin p
  let p ← optimizeOrderByAsIndexScan catalog p
  let p ← optimizeSortLimitAsTopN p
  let p ← optimizeMergeFilterScan p
  optimizeSeqScanAsIndexScan p

/-- `Optimizer::Optimize`. -/
def optimize (catalog : Catalog) (forceStarterRule : Bool) (plan : PlanNode κ) : Except Fault (PlanNode κ) :=
  if forceStarterRule then do
    let p ← optimizeMergeProjection plan
    let p ← optimizeMergeFilterNLJ p
    let p ← optimizeNLJAsIndexJoin catalog p
    let p ← optimizeOrderByAsIndexScan catalog p
    let p ← optimizeMergeFilterScan p
    optimizeSeqScanAsIndexScan p
  else optimizeCustom catalog plan

end Model

/-! ## Operators that the passes keep right -/

section Plain

variable {κ : Type} {d : Database κ} {plan plan' : PlanNode κ}

/-- The constant, if the predicate is one that counts as true. -/
def trueConstant : Expr → Option Value
  | .constantValue val =>
    match isPredicateTrue (.constantValue val) with
    | .ok true => some val
    | _ => none
  | _ => none

/-- A constant that counts as true is not the NULL. -/
def TrueIsNotNull (predicate : Expr) : Prop := ∀ v, trueConstant predicate = some v → v.isNull = false

/-- An equality of two columns does not depend on which of them is on the left. -/
def EqualityCommutes : Expr → Prop
  | .comparison .equal (.columnValue _ _ left) (.columnValue _ _ right) =>
    ∀ a b : Value, a.getTypeId = left.type → b.getTypeId = right.type →
      truth (performComparison .equal a b) = truth (performComparison .equal b a)
  | _ => True

/-- The predicate of a filter or a join: a `BOOLEAN`, and none of the cases that the rules get wrong. -/
structure PlainPredicate (predicate : Expr) : Prop where
  boolean : predicate.returnType = .boolean
  notNull : TrueIsNotNull predicate
  commutes : EqualityCommutes predicate

/-- Every index of the catalog on the columns of the sort is ordered, and has the nulls where the sort wants them. -/
def SortedByIndexes (d : Database κ) (orderBys : List OrderBy) : Prop :=
  ∀ index, d.catalog.getIndexByOid index.indexOid = some index → orderByColumnIds orderBys = some (getKeyAttrs index) →
    isOrdered index.indexType = true ∧ ∀ o ∈ orderBys, (d.keyOrder o).nullsFirst = d.indexNullsFirst index.indexOid

/-- **What the operators of a plan have to be like**, each by itself: scans have no predicate yet, a join on a constant
that counts as true is an `INNER` one, and indexes agree with the sorts. -/
def Plain (d : Database κ) : Operator κ → Prop
  | .seqScan _ _ filterPredicate => filterPredicate = none
  | .filter predicate => PlainPredicate predicate
  | .nestedLoopJoin predicate joinType =>
    PlainPredicate predicate ∧ ((trueConstant predicate).isSome → joinType = .inner)
  | .sort orderBys => SortedByIndexes d orderBys
  | _ => True

/-- All the operators of a plan are. -/
def PlainPlan (d : Database κ) : PlanNode κ → Prop := Tree.Labels fun a => Plain d a.2

theorem plainPlan_node {schema : Schema} {op : Operator κ} {children : List (PlanNode κ)} :
    PlainPlan d (.node (schema, op) children) ↔ Plain d op ∧ ∀ t ∈ children, PlainPlan d t := Tree.labels_node

end Plain

/-! ## What the passes leave -/

section Kept

variable {κ : Type} {d : Database κ} {plan plan' : PlanNode κ}

theorem plain_mergeProjection (h : PlainPlan d plan) (hrule : mergeProjection plan = .ok plan') : PlainPlan d plan' := by
  unfold mergeProjection at hrule
  split at hrule
  · rename_i schema exprs child
    obtain ⟨⟨childSchema, op⟩, grandchildren⟩ := child
    have hchild := (plainPlan_node.mp h).2 _ (List.mem_singleton_self _)
    split_ifs at hrule
    · cases hrule
      exact plainPlan_node.mpr (plainPlan_node.mp hchild)
    · cases hrule
      exact h
  · cases hrule
  · cases hrule
    exact h

/-- A column that is rewritten keeps its type. -/
theorem rewrite_columnValue {t i m n : ℕ} {retType : Column} {e : Expr}
    (h : rewriteExpressionForJoin (.columnValue t i retType) m n = .ok e) : ∃ t' i', e = .columnValue t' i' retType := by
  unfold rewriteExpressionForJoin at h
  split_ifs at h <;> cases h <;> exact ⟨_, _, rfl⟩

/-- An expression that is rewritten into a column was one. -/
theorem column_of_rewrite {e : Expr} {m n t i : ℕ} {retType : Column}
    (h : rewriteExpressionForJoin e m n = .ok (.columnValue t i retType)) : ∃ t' i', e = .columnValue t' i' retType := by
  cases e with
  | columnValue t' i' c =>
    obtain ⟨_, _, heq⟩ := rewrite_columnValue h
    cases heq
    exact ⟨t', i', rfl⟩
  | constantValue val => cases h
  | arithmetic computeType left right =>
    obtain ⟨l, -, h⟩ := bind_eq_ok.mp h
    obtain ⟨r, -, h⟩ := bind_eq_ok.mp h
    cases h
  | comparison compType left right =>
    obtain ⟨l, -, h⟩ := bind_eq_ok.mp h
    obtain ⟨r, -, h⟩ := bind_eq_ok.mp h
    cases h
  | logic logicType left right =>
    obtain ⟨l, -, h⟩ := bind_eq_ok.mp h
    obtain ⟨r, -, h⟩ := bind_eq_ok.mp h
    cases h
  | array children =>
    obtain ⟨cs, -, h⟩ := bind_eq_ok.mp h
    cases h
  | string exprType arg =>
    obtain ⟨a, -, h⟩ := bind_eq_ok.mp h
    cases h

/-- **Rewriting a predicate for a join** keeps what the passes need of it. -/
theorem plainPredicate_rewrite {e e' : Expr} {m n : ℕ} (h : PlainPredicate e)
    (hrw : rewriteExpressionForJoin e m n = .ok e') : PlainPredicate e' ∧ trueConstant e' = trueConstant e := by
  cases e with
  | columnValue t i retType =>
    obtain ⟨_, _, rfl⟩ := rewrite_columnValue hrw
    exact ⟨⟨h.boolean, h.notNull, trivial⟩, rfl⟩
  | constantValue val =>
    cases hrw
    exact ⟨h, rfl⟩
  | comparison compType left right =>
    obtain ⟨l, hl, hrw⟩ := bind_eq_ok.mp hrw
    obtain ⟨r, hr, hrw⟩ := bind_eq_ok.mp hrw
    cases hrw
    refine ⟨⟨rfl, nofun, ?_⟩, rfl⟩
    unfold EqualityCommutes
    split
    · rename_i heq
      cases heq
      obtain ⟨_, _, rfl⟩ := column_of_rewrite hl
      obtain ⟨_, _, rfl⟩ := column_of_rewrite hr
      exact h.commutes
    · trivial
  | logic logicType left right =>
    obtain ⟨l, -, hrw⟩ := bind_eq_ok.mp hrw
    obtain ⟨r, -, hrw⟩ := bind_eq_ok.mp hrw
    cases hrw
    exact ⟨⟨rfl, nofun, trivial⟩, rfl⟩
  | arithmetic computeType left right => cases h.boolean
  | array children => cases h.boolean
  | string exprType arg => cases h.boolean

theorem trueConstant_of_isPredicateTrue {e : Expr} (h : isPredicateTrue e = .ok true) : (trueConstant e).isSome := by
  cases e with
  | constantValue v =>
    simp only [trueConstant, h, Option.isSome_some]
  | _ => cases h

theorem plain_mergeFilterNLJ (h : PlainPlan d plan) (hrule : mergeFilterNLJ plan = .ok plan') : PlainPlan d plan' := by
  unfold mergeFilterNLJ at hrule
  split at hrule
  · rename_i schema filterPredicate child
    obtain ⟨hfilter, hchildren⟩ := plainPlan_node.mp h
    have hchild := hchildren child (List.mem_singleton_self _)
    split at hrule
    · rename_i joinSchema predicate joinType left right
      obtain ⟨⟨hpredicate, hinner⟩, hsides⟩ := plainPlan_node.mp hchild
      obtain ⟨isTrue, htrue, hrule⟩ := bind_eq_ok.mp hrule
      cases isTrue with
      | true =>
        obtain ⟨rewritten, hrw, hrule⟩ := bind_eq_ok.mp hrule
        cases hrule
        obtain ⟨hplain, hconst⟩ := plainPredicate_rewrite hfilter hrw
        exact plainPlan_node.mpr ⟨⟨hplain, fun _ => hinner (trueConstant_of_isPredicateTrue htrue)⟩, hsides⟩
      | false =>
        cases hrule
        exact h
    · cases hrule
    · cases hrule
      exact h
  · cases hrule
  · cases hrule
    exact h

theorem plain_nljAsIndexJoin (h : PlainPlan d plan) (hrule : nljAsIndexJoin d.catalog plan = .ok plan') :
    PlainPlan d plan' := by
  unfold nljAsIndexJoin at hrule
  split at hrule
  · rename_i schema predicate joinType left right
    split at hrule
    · obtain ⟨found, -, hrule⟩ := bind_eq_ok.mp hrule
      cases found with
      | none =>
        cases hrule
        exact h
      | some index =>
        cases hrule
        refine plainPlan_node.mpr ⟨trivial, ?_⟩
        intro t ht
        rw [List.mem_singleton.mp ht]
        exact (plainPlan_node.mp h).2 left (List.mem_cons_self ..)
    · cases hrule
      exact h
  · cases hrule
  · cases hrule
    exact h

end Kept

/-! ## The conditions of the passes -/

section Conditions

variable {κ : Type} {d : Database κ} {plan plan' : PlanNode κ}

/-- The join under a filter has a plain predicate, and is an `INNER` one if that counts as true. -/
theorem plain_of_foundJoin (h : PlainPlan d plan) {j : FoundJoin κ} (hj : foundJoin plan = some j) :
    PlainPredicate j.predicate ∧ ((trueConstant j.predicate).isSome → j.joinType = .inner) := by
  unfold PlainPlan Tree.Labels at h
  induction h generalizing j with
  | node here below ih =>
    unfold foundJoin at hj
    split at hj
    · rename_i schema predicate joinType left right heq
      cases heq
      cases hj
      exact here
    · rename_i schema predicate child heq
      cases heq
      split at hj
      · cases hj
      · rename_i j' hj'
        split at hj
        · rename_i htrue
          cases hj
          have hinner := (ih child (List.mem_singleton_self _) hj').2 (trueConstant_of_isPredicateTrue htrue)
          exact ⟨here, fun _ => hinner⟩
        · cases hj
    · cases hj

/-- A plain predicate is tested without an exception. -/
theorem isPredicateTrue_of_plain {e : Expr} (h : PlainPredicate e) : ∃ counts, isPredicateTrue e = .ok counts := by
  have hbool := h.boolean
  cases e with
  | constantValue val =>
    cases val with
    | boolean i => exact ⟨i != 0, rfl⟩
    | _ => cases hbool
  | _ => exact ⟨false, rfl⟩

/-- Pairs pass a plain constant that counts as true. -/
theorem constantPasses_of_plain {e : Expr} (h : PlainPredicate e) (htrue : isPredicateTrue e = .ok true) :
    constantPasses e = true := by
  obtain ⟨v, rfl⟩ := constant_of_true htrue
  have hbool := h.boolean
  have hnull := h.notNull v (by simp only [trueConstant, htrue])
  cases v with
  | boolean i =>
    have hi : (i != 0) = true := Except.ok.inj htrue
    show (!(Value.boolean i).isNull && (i != 0)) = true
    rw [hnull, hi]
    rfl
  | _ => cases hbool

theorem safeMerge_of_plain (h : PlainPlan d plan) : Tree.Everywhere (SafeMerge d) plan := by
  refine Tree.Everywhere.imp ?_ (Tree.Everywhere.subtrees h)
  intro t ht
  unfold SafeMerge
  split
  · rename_i schema predicate child
    intro j hj
    obtain ⟨hplain, hinner⟩ := plain_of_foundJoin (ht.at_child child (List.mem_singleton_self _)) hj
    obtain ⟨counts, htest⟩ := isPredicateTrue_of_plain hplain
    refine ⟨fun f herr => ?_, fun ls rs _ _ => ?_⟩
    · rw [htest] at herr
      cases herr
    · unfold MergesAt
      rw [htest]
      cases counts with
      | false => exact trivial
      | true =>
        dsimp only
        rw [hinner (trueConstant_of_isPredicateTrue htest), constantPasses_of_plain hplain htest]
        exact trivial
  · trivial

/-- **The sort keys are those of the index**, so it sorts as the sort does. -/
theorem sortsAlike_of_sortedByIndexes {orderBys : List OrderBy} {index : IndexInfo} (h : SortedByIndexes d orderBys)
    (hfound : d.catalog.getIndexByOid index.indexOid = some index)
    (hids : orderByColumnIds orderBys = some (getKeyAttrs index)) (rows : List Record) :
    SortsAlike d orderBys rows index := by
  obtain ⟨hordered, hnulls⟩ := h index hfound hids
  have hkeys : orderBys.map d.keyOrder = d.indexOrder index := by
    unfold Database.indexOrder
    rw [if_pos hordered]
    refine List.ext_getElem ?_ ?_
    · rw [List.length_map, List.length_map, length_columns hids]
    · intro i hi hi'
      have hasc := ascending_of_columns (d := d) hids _ (List.getElem_mem hi)
      simp only [List.getElem_map] at hasc ⊢
      have hlast := hnulls _ (List.getElem_mem (by simpa using hi))
      rw [← hasc, ← hlast]
  intro a _ b _
  unfold sortBefore indexBefore
  rw [hkeys]

theorem safeOrder_of_plain (h : PlainPlan d plan) : Tree.Everywhere (SafeOrder d) plan := by
  refine Tree.Everywhere.imp ?_ (Tree.Everywhere.subtrees h)
  intro t ht orderBys tableOid filterPredicate index hr
  have hids := columns_of_replacedSort hr
  unfold replacedSort at hr
  split at hr
  · rename_i schema orderBys' scanSchema oid name filterPredicate' grandchildren
    have hscan := ht.at_child _ (List.mem_singleton_self _)
    obtain ⟨columns, -, hr⟩ := Option.bind_eq_some_iff.mp hr
    obtain ⟨info, -, hr⟩ := Option.bind_eq_some_iff.mp hr
    split at hr
    · rename_i found hfound
      cases hr
      obtain ⟨_, hok, hspec⟩ := findIndex_spec d info.name columns
      rw [hok] at hfound
      cases hfound
      have hnone : filterPredicate = none := hscan.at_root
      refine ⟨?_, sortsAlike_of_sortedByIndexes ht.at_root (hspec index rfl).1 hids _⟩
      rw [hnone]
      exact nofun
    · cases hr
  · cases hr

/-- **A join that is replaced by lookups** finds the rows that it found. -/
theorem lookups_of_plain {j : ReplacedJoin κ} (hcommutes : EqualityCommutes j.predicate)
    (hkey : joinKey j.predicate = some (j.keyPredicate, j.colIdx)) (hfilter : j.filterPredicate = none)
    {lt rt : List TypeId} (hcols : j.predicate.Over (sides lt rt)) {ls : List Record}
    (hl : ∀ a ∈ ls, HasTypes lt a) (hr : ∀ b ∈ d.table j.tableOid, HasTypes rt b) : Lookups d j ls := by
  have hpass : ∀ b ∈ d.table j.tableOid, scanTest j.filterPredicate b = some true := by
    intro b _
    rw [hfilter]
    rfl
  intro _
  refine findsPartners_of_pass ?_ hpass
  intro a ha b hb
  unfold joinKey at hkey
  split at hkey
  · rename_i leftTuple leftCol leftType rightTuple rightCol rightType heq
    rw [heq] at hcommutes hcols ⊢
    split_ifs at hkey with hstraight hcrossed
    · obtain ⟨rfl, rfl⟩ := hstraight
      obtain ⟨hk, hc⟩ := Prod.mk.inj (Option.some.inj hkey)
      rw [← hk, ← hc]
      rfl
    · -- the lookup has the operands of the join the other way round
      obtain ⟨rfl, rfl⟩ := hcrossed
      obtain ⟨hk, hc⟩ := Prod.mk.inj (Option.some.inj hkey)
      rw [← hk, ← hc]
      obtain ⟨hright, hleft⟩ := hcols
      obtain ⟨key, hkeyRead, hkeyType⟩ := (hl a ha).reads 0 rightCol _ hleft
      obtain ⟨value, hvalueRead, hvalueType⟩ := (hr b hb).reads 0 leftCol _ hright
      have hfound : Database.keyMatches (.columnValue 0 rightCol rightType) leftCol a b =
          truth (performComparison .equal key value) := by
        simp only [Database.keyMatches, Expr.eval, hkeyRead, hvalueRead, ok_bind]
      have hon : passPair (.comparison .equal (.columnValue 1 leftCol leftType) (.columnValue 0 rightCol rightType)) a b =
          truth (performComparison .equal value key) := by
        simp only [passPair, Expr.eval, readPair, one_ne_zero, if_false, if_true, hkeyRead, hvalueRead, ok_bind]
      rw [hfound, hon]
      exact (hcommutes value key hvalueType hkeyType).symm
  · cases hkey

theorem safeLookup_of_plain (hwf : WellFormed d plan) (h : PlainPlan d plan) :
    Tree.Everywhere (SafeLookup d) plan := by
  refine Tree.Everywhere.imp ?_ (hwf.subtrees.and (Tree.Everywhere.subtrees h))
  rintro t ⟨hwf, ht⟩ j hr ls hls
  unfold replacedJoin at hr
  split at hr
  · rename_i schema predicate joinType left rightSchema tableOid tableName filterPredicate grandchildren
    obtain ⟨⟨keyPredicate, colIdx⟩, hkey, hr⟩ := Option.bind_eq_some_iff.mp hr
    dsimp only at hr
    split at hr
    · cases hr
      obtain ⟨⟨hpredicate, -⟩, hsides⟩ := plainPlan_node.mp ht
      have hnone : filterPredicate = none :=
        (plainPlan_node.mp (hsides _ (List.mem_cons_of_mem _ (List.mem_singleton_self _)))).1
      have hleft := hwf.at_child left (List.mem_cons_self ..)
      have hright := hwf.at_child _ (List.mem_cons_of_mem _ (List.mem_singleton_self _))
      cases hwf.at_root with
      | nestedLoopJoin types countLeft countRight hcols =>
        cases hright.at_root with
        | seqScan table name stypes _ =>
          refine lookups_of_plain hpredicate.commutes hkey hnone hcols ?_ ?_
          · exact typed_some.mp (typed_results hleft _ hls)
          · intro b hb
            rw [outputSchema_node, stypes]
            exact d.typed _ _ table b hb
    · cases hr
  · cases hr

end Conditions

/-! ## The whole optimizer -/

section Optimizer

variable {κ : Type} {d : Database κ} {plan plan' : PlanNode κ}

/-- A plan with the same output schema and the same results, of operators that the passes keep right. -/
structure Optimized (d : Database κ) (plan plan' : PlanNode κ) : Prop extends Same d plan plan' where
  plain : PlainPlan d plan'

theorem optimizeMergeProjection_same (h : WellFormed d plan) :
    ∃ plan', optimizeMergeProjection plan = .ok plan' ∧ Same d plan plan' := by
  refine Tree.bottomUp_rel ?_ h
  rintro ⟨schema, op⟩ children children' hwf hs
  have hnode := same_node hwf.at_root hs
  obtain ⟨plan', hrule, hsame⟩ := mergeProjection_sameOrder hnode.wellFormed
  exact ⟨plan', hrule, hnode.trans hsame.toSame⟩

/-- **The two passes that both orders begin with.** -/
theorem optimized_merges (hwf : WellFormed d plan) (h : PlainPlan d plan) :
    ∃ p p', optimizeMergeProjection plan = .ok p ∧ optimizeMergeFilterNLJ p = .ok p' ∧ Optimized d plan p' := by
  obtain ⟨p, hp, hsame⟩ := optimizeMergeProjection_same hwf
  have hplain := Tree.labels_bottomUp (fun _ _ => plain_mergeProjection) h p hp
  obtain ⟨p', hp', hmerges⟩ :=
    optimizeMergeFilterNLJ_merges hsame.wellFormed (safeMerge_of_plain hplain)
  exact ⟨p, p', hp, hp', hsame.trans hmerges.toSame, Tree.labels_bottomUp (fun _ _ => plain_mergeFilterNLJ) hplain p' hp'⟩

theorem optimized_nlj (h : Optimized d plan plan') :
    ∃ p, optimizeNLJAsIndexJoin d.catalog plan' = .ok p ∧ Optimized d plan p := by
  obtain ⟨p, hp, hkeeps⟩ := optimizeNLJ_same h.wellFormed (safeLookup_of_plain h.wellFormed h.plain)
  exact ⟨p, hp, h.toSame.trans hkeeps.toSame, Tree.labels_bottomUp (fun _ _ => plain_nljAsIndexJoin) h.plain p hp⟩

/-- **The two passes that both orders end with.** -/
theorem optimized_scans (h : Optimized d plan plan') :
    ∃ p p', optimizeOrderByAsIndexScan d.catalog plan' = .ok p ∧ optimizeMergeFilterScan p = .ok p' ∧ Same d plan p' := by
  obtain ⟨p, hp, hkeeps⟩ := optimizeOrderBy_same h.wellFormed (safeOrder_of_plain h.plain)
  obtain ⟨p', hp', hsame, -⟩ := optimizeMergeFilterScan_same hkeeps.wellFormed
  exact ⟨p, p', hp, hp', (h.toSame.trans hkeeps.toSame).trans hsame.toSame⟩

theorem optimize_same (forceStarterRule : Bool) (hwf : WellFormed d plan) (hplain : PlainPlan d plan) :
    ∃ plan', optimize d.catalog forceStarterRule plan = .ok plan' ∧ Same d plan plan' := by
  obtain ⟨p₁, p₂, h₁, h₂, hmerged⟩ := optimized_merges hwf hplain
  unfold optimize
  cases forceStarterRule with
  | true =>
    obtain ⟨p₃, h₃, hjoined⟩ := optimized_nlj hmerged
    obtain ⟨p₄, p₅, h₄, h₅, hsame⟩ := optimized_scans hjoined
    refine ⟨p₅, ?_, hsame⟩
    simp only [if_true, h₁, h₂, h₃, h₄, h₅, ok_bind, optimizeSeqScanAsIndexScan]
  | false =>
    obtain ⟨p₄, p₅, h₄, h₅, hsame⟩ := optimized_scans hmerged
    refine ⟨p₅, ?_, hsame⟩
    simp only [Bool.false_eq_true, if_false, optimizeCustom, h₁, h₂, h₄, h₅, ok_bind, optimizeNLJAsHashJoin,
      optimizeSortLimitAsTopN, optimizeSeqScanAsIndexScan]

/-- **The optimizer keeps the meaning of a plan.**  For every database, both with the starter rules and with the default
ones, and for every well-formed plan of plain operators: all the passes end, and the plan that comes out is well-formed,
with the same output schema and the same results.  Plain means: the scans have no predicate yet, as the planner leaves
them; predicates are `BOOLEAN`, their constants not the NULL; joins on a constant that counts as true are `INNER`; the
indexes on the columns of a sort are ordered and have the nulls where the sort wants them; and the equalities of two
columns are symmetric. -/
theorem optimize_sound (d : Database κ) (forceStarterRule : Bool) (plan : PlanNode κ) (hwf : WellFormed d plan)
    (hplain : PlainPlan d plan) :
    ∃ plan', optimize d.catalog forceStarterRule plan = .ok plan' ∧ outputSchema plan' = outputSchema plan ∧
      d.results plan' = d.results plan ∧ WellFormed d plan' := by
  obtain ⟨plan', hopt, hsame⟩ := optimize_same forceStarterRule hwf hplain
  exact ⟨plan', hopt, hsame.schema, hsame.results, hsame.wellFormed⟩

end Optimizer

/-! ## Equalities of columns of one type -/

section Commutes

variable {v w : Value}

theorem exactOrder_swap (hv : isExact v.getTypeId = true) (htype : w.getTypeId = v.getTypeId) :
    Value.exactOrder w v = (Value.exactOrder v w).map Ordering.swap := by
  have hw : isExact w.getTypeId = true := by rw [htype, hv]
  by_cases hstring : v.getTypeId = .varchar
  · cases v with
    | varchar data =>
      cases w with
      | varchar data' => exact compareStrings_swap data data'
      | _ => cases htype
    | _ => cases hstring
  · have hc : v.checkComparable w = true ∧ w.checkComparable v = true := by
      cases v <;> cases w <;> first | exact ⟨rfl, rfl⟩ | (cases htype; done) | cases hv
    rw [exactOrder_number hv hw hstring (by rwa [htype]) hc.1, exactOrder_number hw hv (by rwa [htype]) hstring hc.2]
    exact congrArg Except.ok Std.OrientedOrd.eq_swap

/-- **Equality within one type is symmetric**, if the type is not one of doubles, timestamps or vectors. -/
theorem compare_equal_comm (hv : isExact v.getTypeId = true) (htype : w.getTypeId = v.getTypeId) :
    v.compare .equal w = w.compare .equal v := by
  have hw : isExact w.getTypeId = true := by rw [htype, hv]
  have hc : v.checkComparable w = w.checkComparable v := by
    cases v <;> cases w <;> first | rfl | cases htype
  rw [compare_eq_ordering hv hw, compare_eq_ordering hw hv]
  unfold Value.ordering
  rw [hc, exactOrder_swap hv htype, Bool.or_comm]
  split_ifs
  · rfl
  · rfl
  · cases Value.exactOrder v w with
    | error e => rfl
    | ok o => cases o <;> rfl

theorem equalityCommutes_of_type {t t' i i' : ℕ} {left right : Column} (hexact : isExact left.type = true)
    (htype : right.type = left.type) :
    EqualityCommutes (.comparison .equal (.columnValue t i left) (.columnValue t' i' right)) := by
  intro a b ha hb
  unfold performComparison
  rw [compare_equal_comm (by rwa [ha]) (by rw [ha, hb, htype])]

end Commutes

/-! ## A query -/

section Query

/-- `SELECT * FROM t, t WHERE #0.x = #0.y`: a filter over a cross product, with a projection in between that does
nothing. -/
def whereX : PlanNode Empty :=
  .node (.create [integerColumn "x", integerColumn "y"], .filter
    (.comparison .equal (.columnValue 0 0 (integerColumn "x")) (.columnValue 0 1 (integerColumn "y"))))
    [.node (.create [integerColumn "x", integerColumn "y"], .projection
      [.columnValue 0 0 (integerColumn "x"), .columnValue 0 1 (integerColumn "x")])
      [.node (.create [integerColumn "x", integerColumn "x"], .nestedLoopJoin (.constantValue (.boolean 1)) .inner)
        [scanX none, scanX none]]]

theorem whereX_wellFormed : WellFormed (indexedTable true rowsX rowsX_typed) whereX := by
  have hcount : (Schema.create [integerColumn "x"]).columns.length < 2 ^ 32 := by
    rw [length_create, List.length_singleton]
    decide
  have hscan : WellFormed (indexedTable true rowsX rowsX_typed) (scanX none) := scanX_wellFormed nofun
  have hjoin : WellFormed (indexedTable true rowsX rowsX_typed)
      (.node (.create [integerColumn "x", integerColumn "x"], .nestedLoopJoin (.constantValue (.boolean 1)) .inner)
        [scanX none, scanX none]) := by
    refine .node (.nestedLoopJoin rfl hcount hcount nofun) ?_
    simp only [List.mem_cons, List.not_mem_nil, or_false, or_self, forall_eq]
    exact hscan
  have hprojection : WellFormed (indexedTable true rowsX rowsX_typed) (.node (.create [integerColumn "x", integerColumn "y"],
      .projection [.columnValue 0 0 (integerColumn "x"), .columnValue 0 1 (integerColumn "x")])
      [.node (.create [integerColumn "x", integerColumn "x"], .nestedLoopJoin (.constantValue (.boolean 1)) .inner)
        [scanX none, scanX none]]) := by
    refine .node (.projection rfl ?_) ?_
    · simp only [List.mem_cons, List.not_mem_nil, or_false, forall_eq_or_imp, forall_eq]
      exact ⟨rfl, rfl⟩
    · intro t ht
      rw [List.mem_singleton.mp ht]
      exact hjoin
  refine .node (.filter rfl ⟨rfl, rfl⟩) ?_
  intro t ht
  rw [List.mem_singleton.mp ht]
  exact hprojection

theorem whereX_plain : PlainPlan (indexedTable true rowsX rowsX_typed) whereX := by
  have hscan : PlainPlan (indexedTable true rowsX rowsX_typed) (scanX none) := plainPlan_node.mpr ⟨rfl, by simp⟩
  unfold whereX
  simp only [plainPlan_node, List.mem_cons, List.not_mem_nil, or_false, or_self, forall_eq]
  refine ⟨⟨rfl, nofun, equalityCommutes_of_type rfl rfl⟩, trivial, ⟨⟨rfl, ?_, trivial⟩, fun _ => rfl⟩, hscan⟩
  rintro v hv
  cases hv
  rfl

/-- With the starter rules the join becomes one by lookups. -/
theorem optimize_sound_whereX : ∃ plan',
    optimize (indexedTable true rowsX rowsX_typed).catalog true whereX = .ok plan' ∧
      outputSchema plan' = outputSchema whereX ∧
      (indexedTable true rowsX rowsX_typed).results plan' = (indexedTable true rowsX rowsX_typed).results whereX ∧
      WellFormed (indexedTable true rowsX rowsX_typed) plan' :=
  optimize_sound _ true whereX whereX_wellFormed whereX_plain

end Query

end Journey.Optimizer
