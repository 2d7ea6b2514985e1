import Journey.Bustub.Optimizer.IndexRules
import Journey.Bustub.Optimizer.MergeProjection

/-!
# Journey.Bustub.Optimizer.MergeFilterScan — filters pushed into scans

`OptimizeMergeFilterScan` makes a filter over a scan into a scan with a predicate.  A scan has room for one
predicate, so a filter over a scan that has one already stays where it is.

* `mergeFilterScan`, `optimizeMergeFilterScan`: the rule and the pass.
* `MergedFilters`, `mergeFilterScan_step`: what a node becomes means the same, and the rule has nothing left to do there.
* `merge_filter_scan_sound`: the pass on every plan.
-/

namespace Journey.Optimizer

open SqlType Catalog Execution

/-! ## The rule -/

section Model

variable {κ : Type}

/-- What `OptimizeMergeFilterScan` does at a node, after its children. -/
def mergeFilterScan : PlanNode κ → Except Fault (PlanNode κ)
  | .node (schema, .filter predicate) [childPlan] =>
    match childPlan.label.2 with
    | .seqScan tableOid tableName none => .ok (.node (schema, .seqScan tableOid tableName (some predicate)) [])
    | _ => .ok (.node (schema, .filter predicate) [childPlan])
  | .node (_, .filter _) _ => .error .assertion
  | optimizedPlan => .ok optimizedPlan

/-- `Optimizer::OptimizeMergeFilterScan`. -/
def optimizeMergeFilterScan : PlanNode κ → Except Fault (PlanNode κ) := Tree.bottomUp mergeFilterScan

end Model

/-! ## A filter over a scan -/

section Node

variable {κ : Type} {d : Database κ} {plan plan' : PlanNode κ} {schema scanSchema : Schema} {tableOid : UInt32}
  {tableName : String} {predicate : Expr}

theorem results_filter_scan :
    d.results (.node (schema, .filter predicate) [.node (scanSchema, .seqScan tableOid tableName none) []]) =
      {selects (pass predicate) (d.table tableOid)} := by
  rw [d.results_node]
  show Set.image _ (d.results _) = _
  rw [d.results_node]
  show Set.image _ {some (d.table tableOid)} = _
  rw [Set.image_singleton, Option.bind_some]

theorem results_scan_predicate :
    d.results (.node (schema, .seqScan tableOid tableName (some predicate)) []) =
      {selects (pass predicate) (d.table tableOid)} := d.results_node ..

/-- Where a plan has one result only, executors have no choice. -/
theorem Executors.result_of_singleton (x : Executors d) {o : Result} (h : WellFormed d plan)
    (hone : d.results plan = {o}) : x.result plan = o := by
  have hmem := x.result_mem h
  rwa [hone, Set.mem_singleton_iff] at hmem

/-- **The scan with the predicate means what the filter did.** -/
theorem sameOrder_filter_scan
    (h : WellFormed d (.node (schema, .filter predicate) [.node (scanSchema, .seqScan tableOid tableName none) []])) :
    SameOrder d (.node (schema, .filter predicate) [.node (scanSchema, .seqScan tableOid tableName none) []])
      (.node (schema, .seqScan tableOid tableName (some predicate)) []) := by
  have hscan := h.at_child _ (List.mem_singleton_self _)
  have hwf : WellFormed d (.node (schema, .seqScan tableOid tableName (some predicate)) []) := by
    cases h.at_root with
    | filter types hcols =>
      cases hscan.at_root with
      | seqScan table name stypes _ =>
        refine .node (.seqScan table name (types.trans stypes) ?_) nofun
        rintro e ⟨⟩
        exact hcols
  refine ⟨⟨rfl, ?_, hwf⟩, ?_⟩
  · rw [results_filter_scan, results_scan_predicate]
  · intro x
    rw [x.result_of_singleton hwf results_scan_predicate, x.result_of_singleton h results_filter_scan]

/-- The rule at a filter. -/
theorem mergeFilterScan_filter (schema : Schema) (predicate : Expr) (child : PlanNode κ) :
    mergeFilterScan (.node (schema, .filter predicate) [child]) = .ok (.node (schema, .filter predicate) [child]) ∨
      ∃ scanSchema tableOid tableName grandchildren,
        child = .node (scanSchema, .seqScan tableOid tableName none) grandchildren ∧
        mergeFilterScan (.node (schema, .filter predicate) [child]) =
          .ok (.node (schema, .seqScan tableOid tableName (some predicate)) []) := by
  obtain ⟨⟨childSchema, op⟩, grandchildren⟩ := child
  cases op with
  | seqScan tableOid tableName filterPredicate =>
    cases filterPredicate with
    | none => exact .inr ⟨_, _, _, _, rfl, rfl⟩
    | some predicate => exact .inl rfl
  | _ => exact .inl rfl

/-- A filter over a scan that has a predicate already. -/
def FilterOverFiltered (plan : PlanNode κ) : Prop :=
  ∃ schema predicate scanSchema tableOid tableName scanned,
    plan = .node (schema, .filter predicate) [.node (scanSchema, .seqScan tableOid tableName (some scanned)) []]

theorem FilterOverFiltered.fixed (h : FilterOverFiltered plan) :
    Tree.Everywhere (fun t => mergeFilterScan t = .ok t) plan := by
  obtain ⟨schema, predicate, scanSchema, tableOid, tableName, scanned, rfl⟩ := h
  refine .node rfl ?_
  intro t ht
  rw [List.mem_singleton.mp ht]
  exact .node rfl nofun

/-- What the pass makes of a plan: it means the same, and the rule would leave it as it is.  A plan that the rule leaves
comes back, and so does every filter over a scan that has a predicate. -/
structure MergedFilters (d : Database κ) (plan plan' : PlanNode κ) : Prop where
  same : SameOrder d plan plan'
  done : Tree.Everywhere (fun t => mergeFilterScan t = .ok t) plan'
  fixed : Tree.Everywhere (fun t => mergeFilterScan t = .ok t) plan → plan' = plan
  kept : ∀ stays, FilterOverFiltered stays → stays.Within plan → stays.Within plan'

/-- **One step of the pass**, at a node whose children are done. -/
theorem mergeFilterScan_step {op : Operator κ} {children : List (PlanNode κ)}
    (h : WellFormed d (.node (schema, op) children))
    (hfixed : ∀ t ∈ children, Tree.Everywhere (fun t => mergeFilterScan t = .ok t) t) :
    ∃ plan', mergeFilterScan (.node (schema, op) children) = .ok plan' ∧
      MergedFilters d (.node (schema, op) children) plan' := by
  have hself : SameOrder d (.node (schema, op) children) (.node (schema, op) children) :=
    ⟨⟨rfl, rfl, h⟩, fun _ => rfl⟩
  have hleft : mergeFilterScan (.node (schema, op) children) = .ok (.node (schema, op) children) →
      MergedFilters d (.node (schema, op) children) (.node (schema, op) children) :=
    fun hkept => ⟨hself, .node hkept hfixed, fun _ => rfl, fun _ _ hwithin => hwithin⟩
  cases h.at_root with
  | @filter _ predicate child types hcols =>
    rcases mergeFilterScan_filter schema predicate child with
      hkept | ⟨scanSchema, tableOid, tableName, grandchildren, rfl, hrule⟩
    · exact ⟨_, hkept, hleft hkept⟩
    · have hscan := h.at_child _ (List.mem_singleton_self _)
      cases hscan.at_root with
      | seqScan table name stypes _ =>
        refine ⟨_, hrule, sameOrder_filter_scan h, .node rfl nofun, ?_, ?_⟩
        · intro hdone
          rw [hdone.at_root] at hrule
          cases hrule
        · -- there is no such filter here: the scan has no predicate
          rintro stays ⟨_, _, _, _, _, _, rfl⟩ hwithin
          cases hwithin with
          | child ht hwithin =>
            rw [List.mem_singleton.mp ht] at hwithin
            cases hwithin with
            | child ht _ => cases ht
  | _ => exact ⟨_, rfl, hleft rfl⟩

end Node

/-! ## The pass -/

section Pass

variable {κ : Type} {d : Database κ}

theorem optimizeMergeFilterScan_same {plan : PlanNode κ} (h : WellFormed d plan) :
    ∃ plan', optimizeMergeFilterScan plan = .ok plan' ∧ MergedFilters d plan plan' := by
  refine Tree.bottomUp_rel (R := MergedFilters d) ?_ h
  rintro ⟨schema, op⟩ children children' hwf hs
  have hnode := sameOrder_node hwf.at_root (hs.imp fun _ _ hc => hc.same)
  have hdone : ∀ t ∈ children', Tree.Everywhere (fun t => mergeFilterScan t = .ok t) t := by
    intro t ht
    obtain ⟨i, hi, rfl⟩ := List.getElem_of_mem ht
    exact (hs.get (by rw [hs.length_eq]; exact hi) hi).done
  obtain ⟨plan', hrule, hstep⟩ := mergeFilterScan_step hnode.wellFormed hdone
  -- children that the rule leaves come back, and with them the node
  have hchildren : (∀ t ∈ children, Tree.Everywhere (fun t => mergeFilterScan t = .ok t) t) → children' = children := by
    intro hfixed
    refine List.ext_getElem hs.length_eq.symm ?_
    intro i hi' hi
    exact (hs.get hi hi').fixed (hfixed _ (List.getElem_mem hi))
  refine ⟨plan', hrule, hnode.trans hstep.same, hstep.done, ?_, ?_⟩
  · intro hfixed
    rw [hchildren hfixed.at_child] at hstep
    exact hstep.fixed hfixed
  · intro stays hstays hwithin
    refine hstep.kept stays hstays ?_
    cases hwithin with
    | self =>
      rw [hchildren hstays.fixed.at_child]
      exact .self
    | child ht hwithin =>
      obtain ⟨i, hi, rfl⟩ := List.getElem_of_mem ht
      have hi' : i < children'.length := by rwa [← hs.length_eq]
      exact .child (List.getElem_mem hi') ((hs.get hi hi').kept stays hstays hwithin)

/-- **Pushing filters into scans keeps the meaning of a plan.**  For every database and every well-formed plan, whatever
the nodes in it, the pass ends; the plan it returns is well-formed, has the same output schema and the same results,
and yields them in the same order however the executors settle what is left to them.  No filter is left over a scan
without a predicate: a second run of the pass gives the plan back.  A filter over a scan that has a predicate stays as it
is, wherever in the plan it stands. -/
theorem merge_filter_scan_sound (d : Database κ) (plan : PlanNode κ) (h : WellFormed d plan) :
    ∃ plan', optimizeMergeFilterScan plan = .ok plan' ∧ SameOrder d plan plan' ∧
      optimizeMergeFilterScan plan' = .ok plan' ∧
      ∀ stays, FilterOverFiltered stays → stays.Within plan → stays.Within plan' := by
  obtain ⟨plan', hopt, hmerged⟩ := optimizeMergeFilterScan_same h
  exact ⟨plan', hopt, hmerged.same, Tree.bottomUp_fixed hmerged.done, hmerged.kept⟩

/-- `SELECT * FROM (SELECT * FROM t WHERE x = 1) WHERE x = 2`: two filters over one scan. -/
def filteredTwice : PlanNode Empty :=
  .node (.create [integerColumn "x"], .filter
    (.comparison .equal (.columnValue 0 0 (integerColumn "x")) (.constantValue (.integer 2))))
    [.node (.create [integerColumn "x"], .filter
      (.comparison .equal (.columnValue 0 0 (integerColumn "x")) (.constantValue (.integer 1)))) [scanX none]]

/-- The inner filter goes into the scan, and the outer one stays. -/
theorem merge_filter_scan_sound_twice : ∃ plan', optimizeMergeFilterScan filteredTwice = .ok plan' ∧
    SameOrder (indexedTable true rowsX rowsX_typed) filteredTwice plan' ∧ optimizeMergeFilterScan plan' = .ok plan' ∧
    FilterOverFiltered plan' := by
  have hwf : WellFormed (indexedTable true rowsX rowsX_typed) filteredTwice := by
    refine .node (.filter rfl ⟨rfl, nofun⟩) ?_
    intro t ht
    rw [List.mem_singleton.mp ht]
    refine .node (.filter rfl ⟨rfl, nofun⟩) ?_
    intro t ht
    rw [List.mem_singleton.mp ht]
    show WellFormed (indexedTable true rowsX rowsX_typed) (scanX none)
    exact scanX_wellFormed nofun
  obtain ⟨plan', hopt, hsame, hfixed, -⟩ := merge_filter_scan_sound _ filteredTwice hwf
  refine ⟨plan', hopt, hsame, hfixed, ?_⟩
  cases hopt
  exact ⟨_, _, _, _, _, _, rfl⟩

end Pass

end Journey.Optimizer
