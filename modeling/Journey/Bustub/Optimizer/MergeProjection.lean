import Journey.Bustub.Optimizer.WellFormed

/-!
# Journey.Bustub.Optimizer.MergeProjection — projections that do nothing

`OptimizeMergeProjection` drops a projection to the columns of its child, in their order, and gives the child
the projection's output schema.

* `mergeProjection`, `optimizeMergeProjection`: the rule and the pass.
* `projectRow_identical`: such a projection gives back every row.
* `merge_projection_preserves`: the pass keeps the output schema, and the rows in their order.
-/

namespace Journey.Optimizer

open SqlType Catalog Execution

/-! ## The rule -/

section Model

variable {κ : Type}

/-- The loop that sets `is_identical`: expression `idx` is column `idx`. -/
def isIdentical (exprs : List Expr) : Bool :=
  exprs.zipIdx.all fun
    | (.columnValue tupleIdx colIdx _, idx) => tupleIdx == 0 && colIdx == idx
    | _ => false

/-- What `OptimizeMergeProjection` does at a node, after its children. -/
def mergeProjection : PlanNode κ → Except Fault (PlanNode κ)
  | .node (schema, .projection exprs) [childPlan] =>
    -- the schema is the same, except for the names of the columns
    if columnTypes (outputSchema childPlan) = columnTypes schema ∧ isIdentical exprs = true then
      .ok (.node (schema, childPlan.label.2) childPlan.children)
    else .ok (.node (schema, .projection exprs) [childPlan])
  | .node (_, .projection _) _ => .error (.terminate "Projection with multiple children?? That's weird!")
  | optimizedPlan => .ok optimizedPlan

/-- `Optimizer::OptimizeMergeProjection`. -/
def optimizeMergeProjection : PlanNode κ → Except Fault (PlanNode κ) := Tree.bottomUp mergeProjection

end Model

/-! ## Identical projections -/

section Identical

variable {κ : Type} {d : Database κ} {types : List TypeId} {exprs : List Expr} {row : Record}

theorem getElem?_of_isIdentical (h : isIdentical exprs = true) {i : ℕ} {e : Expr} (hi : exprs[i]? = some e) :
    ∃ retType, e = .columnValue 0 i retType := by
  unfold isIdentical at h
  rw [List.all_eq_true] at h
  have hmem : (e, i) ∈ exprs.zipIdx := List.mem_zipIdx_iff_getElem?.mpr hi
  have hcol := h _ hmem
  split at hcol
  · rename_i tupleIdx colIdx retType idx heq
    cases heq
    simp only [Bool.and_eq_true, beq_iff_eq] at hcol
    obtain ⟨rfl, rfl⟩ := hcol
    exact ⟨retType, rfl⟩
  · cases hcol

/-- **An identical projection gives back the row.** -/
theorem projectRow_identical (h : isIdentical exprs = true) (hlen : exprs.length = row.length) :
    projectRow exprs row = some row := by
  unfold projectRow
  refine mapM_eq_some_of_map ?_
  refine List.ext_getElem? ?_
  intro i
  rw [List.getElem?_map, List.getElem?_map]
  cases hi : exprs[i]? with
  | none =>
    rw [List.getElem?_eq_none_iff] at hi
    rw [List.getElem?_eq_none_iff.mpr (by omega)]
    rfl
  | some e =>
    obtain ⟨retType, rfl⟩ := getElem?_of_isIdentical h hi
    obtain ⟨hlt, -⟩ := List.getElem?_eq_some_iff.mp hi
    have hrow := List.getElem?_eq_getElem (l := row) (i := i) (by omega)
    simp only [Option.map_some, Expr.eval, readRow, hrow]
    rfl

/-- So it gives back a result as it is. -/
theorem bind_projectRow_identical (h : isIdentical exprs = true) (hlen : exprs.length = types.length) {o : Result}
    (ho : Typed types o) : (o.bind fun rows => rows.mapM (projectRow exprs)) = o := by
  cases o with
  | none => rfl
  | some rows =>
    refine mapM_eq_some_of_map (List.map_congr_left ?_)
    intro row hrow
    exact projectRow_identical h (by rw [hlen, (typed_some.mp ho row hrow).length_eq])

end Identical

/-! ## The pass -/

section Pass

variable {κ : Type} {d : Database κ} {plan plan' : PlanNode κ}

/-- The second plan means the same, and yields its rows in the same order. -/
structure SameOrder (d : Database κ) (plan plan' : PlanNode κ) : Prop extends Same d plan plan' where
  order : ∀ x : Executors d, x.result plan' = x.result plan

theorem SameOrder.trans {plan'' : PlanNode κ} (h : SameOrder d plan plan') (h' : SameOrder d plan' plan'') :
    SameOrder d plan plan'' :=
  ⟨h.toSame.trans h'.toSame, fun x => (h'.order x).trans (h.order x)⟩

theorem sameOrder_node {schema : Schema} {op : Operator κ} {children children' : List (PlanNode κ)}
    (h : LocallyWF d (.node (schema, op) children)) (hs : List.Forall₂ (SameOrder d) children children') :
    SameOrder d (.node (schema, op) children) (.node (schema, op) children') := by
  refine ⟨same_node h (hs.imp fun _ _ hc => hc.toSame), ?_⟩
  intro x
  have hmap : children'.map x.rows = children.map x.rows := by
    clear h
    induction hs with
    | nil => rfl
    | cons hc _ ih => rw [List.map_cons, List.map_cons, x.rows_eq, x.rows_eq, hc.schema, hc.order x, ih]
  rw [x.result_node, x.result_node, hmap]

/-- A node looks at the types of its output columns, not at their names. -/
theorem LocallyWF.of_types {schema schema' : Schema} {op : Operator κ} {children : List (PlanNode κ)}
    (h : LocallyWF d (.node (schema, op) children)) (htypes : columnTypes schema' = columnTypes schema) :
    LocallyWF d (.node (schema', op) children) := by
  cases h with
  | seqScan table name types hcols =>
    rw [← htypes] at types hcols
    exact .seqScan table name types hcols
  | indexScan table found own types hcols =>
    rw [← htypes] at types hcols
    exact .indexScan table found own types hcols
  | filter types hcols =>
    rw [← htypes] at types hcols
    exact .filter types hcols
  | projection types hcols => exact .projection (htypes.trans types) hcols
  | sort types hcols =>
    rw [← htypes] at types hcols
    exact .sort types hcols
  | nestedLoopJoin types countLeft countRight hcols =>
    exact .nestedLoopJoin (htypes.trans types) countLeft countRight hcols
  | nestedIndexJoin table found own inner types hcols =>
    exact .nestedIndexJoin table found own inner (htypes.trans types) hcols
  | other yields => exact .other (by rwa [htypes])

/-- **The rule is sound** at every well-formed node. -/
theorem mergeProjection_sameOrder (h : WellFormed d plan) :
    ∃ plan', mergeProjection plan = .ok plan' ∧ SameOrder d plan plan' := by
  have hself : SameOrder d plan plan := ⟨⟨rfl, rfl, h⟩, fun _ => rfl⟩
  cases h with
  | node here below =>
    cases here with
    | @projection schema exprs child types hcols =>
      have hchild := below child (List.mem_singleton_self child)
      have hrule : mergeProjection (.node (schema, .projection exprs) [child]) =
          if columnTypes (outputSchema child) = columnTypes schema ∧ isIdentical exprs = true then
            .ok (.node (schema, child.label.2) child.children)
          else .ok (.node (schema, .projection exprs) [child]) := rfl
      rw [hrule]
      split_ifs with hmerge
      · obtain ⟨htypes, hident⟩ := hmerge
        obtain ⟨⟨childSchema, op⟩, children⟩ := child
        rw [outputSchema_node] at htypes
        have hlen : exprs.length = (columnTypes childSchema).length := by
          rw [htypes, types, List.length_map]
        refine ⟨_, rfl, ⟨rfl, ?_, ?_⟩, ?_⟩
        · -- every result of the child is given back
          rw [d.results_node, d.results_node]
          show d.step (columnTypes schema) op (children.map d.meaning) = Set.image _ (d.results _)
          rw [← htypes, ← d.results_node]
          refine ((Set.image_congr ?_).trans (Set.image_id _)).symm
          intro o ho
          exact bind_projectRow_identical hident hlen (typed_results hchild o ho)
        · exact .node (hchild.at_root.of_types htypes.symm) hchild.at_child
        · intro x
          have hx := x.allowed (columnTypes schema) (.projection exprs) [x.rows (.node (childSchema, op) children)]
          have hrun : x.result (.node (schema, .projection exprs) [.node (childSchema, op) children]) =
              (x.result (.node (childSchema, op) children)).bind fun rows => rows.mapM (projectRow exprs) := by
            rw [x.result_node]
            obtain ⟨i, hi, heq⟩ := hx
            rw [Set.mem_singleton_iff.mp hi] at heq
            exact heq.symm
          rw [hrun, bind_projectRow_identical hident hlen (typed_results hchild _ (x.result_mem hchild))]
          show x.result (.node (schema, op) children) = _
          rw [x.result_node, x.result_node, htypes]
      · exact ⟨_, rfl, hself⟩
    | _ => exact ⟨_, rfl, hself⟩

/-- **Merging projections keeps the meaning of a plan.**  For every database and every well-formed plan, whatever
the nodes in it, the pass ends, and the plan it returns has the same output schema, names and types, and the same
results; and however the executors order the rows where that is left to them, the same rows come in the same
order. -/
theorem merge_projection_preserves (d : Database κ) (plan : PlanNode κ) (h : WellFormed d plan) :
    ∃ plan', optimizeMergeProjection plan = .ok plan' ∧ outputSchema plan' = outputSchema plan ∧
      d.results plan' = d.results plan ∧ ∀ x : Executors d, x.result plan' = x.result plan := by
  have hpass : ∃ plan', optimizeMergeProjection plan = .ok plan' ∧ SameOrder d plan plan' := by
    refine Tree.bottomUp_rel ?_ h
    rintro ⟨schema, op⟩ children children' hwf hs
    have hnode := sameOrder_node hwf.at_root hs
    obtain ⟨plan', hrule, hsame⟩ := mergeProjection_sameOrder hnode.wellFormed
    exact ⟨plan', hrule, hnode.trans hsame⟩
  obtain ⟨plan', hopt, hsame⟩ := hpass
  exact ⟨plan', hopt, hsame.schema, hsame.results, hsame.order⟩

/-- `SELECT a AS b`: the projection is dropped, and the column is called `b`. -/
def selectAs : PlanNode (List Record) :=
  .node (.create [integerColumn "b"], .projection [.columnValue 0 0 (integerColumn "a")])
    [leaf (.create [integerColumn "a"]) [[.integer 7]]]

theorem merge_projection_preserves_selectAs : ∃ plan', optimizeMergeProjection selectAs = .ok plan' ∧
    outputSchema plan' = .create [integerColumn "b"] ∧ fixedRows.results plan' = fixedRows.results selectAs ∧
    ∀ x : Executors fixedRows, x.result plan' = x.result selectAs := by
  refine merge_projection_preserves fixedRows selectAs (.node (.projection rfl ?_) ?_)
  · intro e he
    rw [List.mem_singleton.mp he]
    rfl
  · intro t ht
    rw [List.mem_singleton.mp ht]
    exact leaf_wellFormed (by simp [HasTypes]; rfl)

end Pass

end Journey.Optimizer
