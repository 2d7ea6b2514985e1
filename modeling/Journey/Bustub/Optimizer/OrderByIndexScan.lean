import Journey.Bustub.Optimizer.WellFormed

/-!
# Journey.Bustub.Optimizer.OrderByIndexScan — sorts as index scans

`OptimizeOrderByAsIndexScan` replaces an ascending sort of a table by a scan of an index on the sort columns.  It
does not look at the predicate of the scan it replaces, at the kind of the index, or at where the sort puts the
nulls.

* `orderByAsIndexScan`, `optimizeOrderByAsIndexScan`: the rule and the pass.
* `SafeOrder`: none of the three matters at a node; `sortsAlike_iff`: what that says of the index and the nulls.
* `optimizeOrderBy_same`: then the pass keeps the results; `optimized_sort_iff`: at a sort, exactly then.
-/

namespace Journey.Optimizer

open SqlType Catalog Execution

/-! ## The rule -/

section Model

variable {κ : Type}

/-- What an assertion of the catalog ends in. -/
def catalogFault : CatalogError → Fault
  | .fault e => e
  | _ => .assertion

/-- The loop over `order_bys`: the columns, if the order of all of them is ascending. -/
def orderByColumnIds : List OrderBy → Option (List ℕ)
  | [] => some []
  | o :: orderBys =>
    if o.orderType ≠ .asc ∧ o.orderType ≠ .default then none
    else
      match o.expr with
      | .columnValue _ colIdx _ => (orderByColumnIds orderBys).map (colIdx :: ·)
      | _ => none

/-- The first index of the table with these key columns. -/
def findIndex (catalog : Catalog) (tableName : String) (columns : List ℕ) : Except Fault (Option IndexInfo) := do
  let indices ← (catalog.getTableIndexes tableName).mapError catalogFault
  return indices.find? fun index => columns == getKeyAttrs index

/-- What `OptimizeOrderByAsIndexScan` does at a node, after its children. -/
def orderByAsIndexScan (catalog : Catalog) : PlanNode κ → Except Fault (PlanNode κ)
  | .node (schema, .sort orderBys) children =>
    match orderByColumnIds orderBys with
    | none => .ok (.node (schema, .sort orderBys) children)
    | some columns =>
      match children with
      | [.node (childSchema, .seqScan tableOid tableName filterPredicate) grandchildren] =>
        match catalog.getTableByOid tableOid with
        -- `table_info->name_` of a null pointer
        | none => .error .undefined
        | some tableInfo => do
          match ← findIndex catalog tableInfo.name columns with
          | some index => return .node (schema, .indexScan tableInfo.oid index.indexOid none []) []
          | none =>
            return .node (schema, .sort orderBys)
              [.node (childSchema, .seqScan tableOid tableName filterPredicate) grandchildren]
      | [childPlan] => .ok (.node (schema, .sort orderBys) [childPlan])
      | _ => .error (.terminate "Sort with multiple children?? Impossible!")
  | optimizedPlan => .ok optimizedPlan

/-- `Optimizer::OptimizeOrderByAsIndexScan`. -/
def optimizeOrderByAsIndexScan (catalog : Catalog) : PlanNode κ → Except Fault (PlanNode κ) :=
  Tree.bottomUp (orderByAsIndexScan catalog)

/-- The table and the index of the scan that a sort is replaced by. -/
def replacedSort (catalog : Catalog) : PlanNode κ → Option (List OrderBy × UInt32 × Option Expr × IndexInfo)
  | .node (_, .sort orderBys) [.node (_, .seqScan tableOid _ filterPredicate) _] => do
    let columns ← orderByColumnIds orderBys
    let tableInfo ← catalog.getTableByOid tableOid
    match findIndex catalog tableInfo.name columns with
    | .ok (some index) => return (orderBys, tableOid, filterPredicate, index)
    | _ => none
  | _ => none

end Model

/-! ## Keys -/

section Keys

variable {κ : Type} {d : Database κ} {types : List TypeId} {orderBys : List OrderBy} {columns : List ℕ} {row : Record}

/-- How a sort on columns compares two rows. -/
def sortBefore (d : Database κ) (orderBys : List OrderBy) (columns : List ℕ) : Record → Record → Bool :=
  comesBefore (orderBys.map d.keyOrder) (Database.keyColumns columns)

/-- How an index compares two rows. -/
def indexBefore (d : Database κ) (index : IndexInfo) : Record → Record → Bool :=
  comesBefore (d.indexOrder index) (Database.keyColumns (getKeyAttrs index))

/-- The index has to put one row before another exactly if the sort has to. -/
def SortsAlike (d : Database κ) (orderBys : List OrderBy) (rows : List Record) (index : IndexInfo) : Prop :=
  ∀ a ∈ rows, ∀ b ∈ rows, sortBefore d orderBys (getKeyAttrs index) a b = indexBefore d index a b

theorem getD_of_readRow {t i : ℕ} {v : Value} (h : readRow row t i = .ok v) : row.getD i .invalid = v := by
  unfold readRow at h
  split at h
  · rename_i w hw
    cases h
    rw [List.getD_eq_getElem?_getD, hw]
    rfl
  · cases h

/-- The sort keys of a row are its columns. -/
theorem sortKey_columns (hids : orderByColumnIds orderBys = some columns)
    (hover : ∀ o ∈ orderBys, o.expr.Over (single types)) (hrow : HasTypes types row) :
    Database.sortKey orderBys row = some (Database.keyColumns columns row) := by
  unfold Database.sortKey projectRow
  induction orderBys generalizing columns with
  | nil =>
    cases hids
    rfl
  | cons o os ih =>
    rw [orderByColumnIds] at hids
    split_ifs at hids
    split at hids
    · rename_i tupleIdx colIdx retType hexpr
      obtain ⟨ids, hids', rfl⟩ := Option.map_eq_some_iff.mp hids
      have hcol := hover o (List.mem_cons_self ..)
      rw [hexpr] at hcol
      obtain ⟨v, hv, -⟩ := hrow.reads tupleIdx colIdx retType.type hcol
      rw [List.map_cons, List.mapM_cons, ih hids' fun o' ho' => hover o' (List.mem_cons_of_mem _ ho'), hexpr]
      simp only [Expr.eval, hv, Database.keyColumns, List.map_cons, getD_of_readRow hv]
      rfl
    · cases hids

/-- Two lists of ascending keys put the nulls of two rows at the same end, up to the first key that tells the rows
apart. -/
def NullsAlike : List KeyOrder → List KeyOrder → Record → Record → Prop
  | o :: os, o' :: os', a :: as, b :: bs =>
    (o.nullsFirst = o'.nullsFirst ∨ a.isNull = b.isNull) ∧
      (o.less a b = false → o.less b a = false → NullsAlike os os' as bs)
  | _, _, _, _ => True

/-- Two ascending keys that put the nulls at the same end, or are given none or two of them. -/
theorem less_congr {o o' : KeyOrder} {a b : Value} (ho : o.descending = false) (ho' : o'.descending = false)
    (h : o.nullsFirst = o'.nullsFirst ∨ a.isNull = b.isNull) : o.less a b = o'.less a b := by
  unfold KeyOrder.less
  rcases h with hnulls | hnull
  · rw [ho, ho', hnulls]
  · rw [ho, ho', hnull]
    cases b.isNull <;> simp

/-- A null and a value: one key has the null first, the other one last. -/
theorem less_eq_not {o o' : KeyOrder} {a b : Value} (hends : o.nullsFirst ≠ o'.nullsFirst)
    (hnull : a.isNull ≠ b.isNull) : o.less a b = o'.less b a ∧ o.less b a = !o.less a b := by
  unfold KeyOrder.less
  have hfirst : o'.nullsFirst = !o.nullsFirst := by
    rw [Bool.eq_not]
    exact hends.symm
  have hb : b.isNull = !a.isNull := by
    rw [Bool.eq_not]
    exact hnull.symm
  rw [hfirst, hb]
  cases a.isNull <;> cases o.nullsFirst <;> exact ⟨rfl, rfl⟩

/-- **Two lists of ascending keys compare two rows alike exactly if they treat their nulls alike.** -/
theorem before_eq_iff {os os' : List KeyOrder} (hlen : os.length = os'.length)
    (hasc : ∀ o ∈ os, o.descending = false) (hasc' : ∀ o ∈ os', o.descending = false) (as bs : Record) :
    before os as bs = before os' as bs ↔ NullsAlike os os' as bs := by
  induction os generalizing os' as bs with
  | nil =>
    rw [List.length_eq_zero_iff.mp hlen.symm]
    exact ⟨fun _ => trivial, fun _ => rfl⟩
  | cons o os ih =>
    obtain ⟨o', os', rfl⟩ := List.exists_cons_of_length_eq_add_one hlen.symm
    cases as with
    | nil => exact ⟨fun _ => trivial, fun _ => rfl⟩
    | cons a as =>
      cases bs with
      | nil => exact ⟨fun _ => trivial, fun _ => rfl⟩
      | cons b bs =>
        have htail := ih (Nat.succ.inj hlen) (fun o ho => hasc o (List.mem_cons_of_mem _ ho))
          (fun o ho => hasc' o (List.mem_cons_of_mem _ ho)) as bs
        have ho := hasc o (List.mem_cons_self ..)
        have ho' := hasc' o' (List.mem_cons_self ..)
        unfold before NullsAlike
        by_cases halike : o.nullsFirst = o'.nullsFirst ∨ a.isNull = b.isNull
        · rw [← less_congr ho ho' halike, ← less_congr ho ho' (halike.imp_right Eq.symm), ← htail]
          cases o.less a b <;> cases o.less b a <;> simp [halike]
        · obtain ⟨hends, hnull⟩ := not_or.mp halike
          obtain ⟨hswap, hnot⟩ := less_eq_not hends hnull
          have hswap' := (less_eq_not hends (Ne.symm hnull)).1
          rw [← hswap, ← hswap', hnot]
          cases o.less a b <;> simp [halike]

theorem length_columns (hids : orderByColumnIds orderBys = some columns) : columns.length = orderBys.length := by
  induction orderBys generalizing columns with
  | nil =>
    cases hids
    rfl
  | cons o os ih =>
    rw [orderByColumnIds] at hids
    split_ifs at hids
    split at hids
    · obtain ⟨ids, hids', rfl⟩ := Option.map_eq_some_iff.mp hids
      rw [List.length_cons, List.length_cons, ih hids']
    · cases hids

/-- The keys of a sort that is replaced are ascending. -/
theorem ascending_of_columns (hids : orderByColumnIds orderBys = some columns) :
    ∀ o ∈ orderBys.map d.keyOrder, o.descending = false := by
  induction orderBys generalizing columns with
  | nil => exact nofun
  | cons o os ih =>
    rw [orderByColumnIds] at hids
    split_ifs at hids with hasc
    split at hids
    · obtain ⟨ids, hids', -⟩ := Option.map_eq_some_iff.mp hids
      rw [List.map_cons, List.forall_mem_cons]
      refine ⟨?_, ih hids'⟩
      unfold Database.keyOrder
      rw [decide_eq_false_iff_not]
      intro hdesc
      exact hasc (by rw [hdesc]; exact ⟨nofun, nofun⟩)
    · cases hids

/-- **When an index sorts as the sort does**: an ordered one, if it treats the nulls of any two rows as the sort does;
one that is not ordered, if the sort leaves the order of the rows open. -/
theorem sortsAlike_iff {index : IndexInfo} {rows : List Record}
    (hids : orderByColumnIds orderBys = some (getKeyAttrs index)) :
    SortsAlike d orderBys rows index ↔ ∀ a ∈ rows, ∀ b ∈ rows,
      if isOrdered index.indexType then
        NullsAlike (orderBys.map d.keyOrder) (d.indexOrder index) (Database.keyColumns (getKeyAttrs index) a)
          (Database.keyColumns (getKeyAttrs index) b)
      else sortBefore d orderBys (getKeyAttrs index) a b = false := by
  refine forall₂_congr fun a _ => forall₂_congr fun b _ => ?_
  by_cases hordered : isOrdered index.indexType = true
  · rw [if_pos hordered]
    refine before_eq_iff ?_ (ascending_of_columns hids) ?_ _ _
    · unfold Database.indexOrder
      rw [if_pos hordered, List.length_map, List.length_map, length_columns hids]
    · intro o ho
      unfold Database.indexOrder at ho
      rw [if_pos hordered] at ho
      obtain ⟨_, -, rfl⟩ := List.mem_map.mp ho
      rfl
  · rw [if_neg hordered]
    unfold indexBefore comesBefore Database.indexOrder
    rw [if_neg hordered]
    rfl

end Keys

/-! ## A sort of a table -/

section Node

variable {κ : Type} {d : Database κ} {types : List TypeId} {orderBys : List OrderBy} {columns : List ℕ}
  {rows : List Record} {schema scanSchema : Schema} {tableOid : UInt32} {tableName : String}
  {filterPredicate : Option Expr} {index : IndexInfo}

/-- Every row passes an optional predicate. -/
def AllPass (filterPredicate : Option Expr) (rows : List Record) : Prop :=
  ∀ predicate ∈ filterPredicate, ∀ row ∈ rows, pass predicate row = some true

theorem selectsBy_of_allPass (h : AllPass filterPredicate rows) : selectsBy filterPredicate rows = some rows := by
  cases filterPredicate with
  | none => rfl
  | some predicate => exact selects_all (h predicate rfl)

theorem bag_selectsBy_iff : bag (selectsBy filterPredicate rows) = bag (some rows) ↔ AllPass filterPredicate rows := by
  cases filterPredicate with
  | none => exact ⟨fun _ => nofun, fun _ => rfl⟩
  | some predicate =>
    unfold selectsBy AllPass
    rw [bag_selects_eq_self_iff]
    simp

theorem mem_of_selectsBy {row : Record} {all : List Record} (h : selectsBy filterPredicate all = some rows)
    (hrow : row ∈ rows) : row ∈ all := by
  cases filterPredicate with
  | none =>
    cases h
    exact hrow
  | some predicate => exact mem_of_selects h hrow

/-- A sort on columns. -/
theorem sortResults_columns (hids : orderByColumnIds orderBys = some columns)
    (hover : ∀ o ∈ orderBys, o.expr.Over (single types)) (hrows : ∀ row ∈ rows, HasTypes types row) :
    d.sortResults orderBys (some rows) =
      sortedBy (orderBys.map d.keyOrder) (Database.keyColumns columns) rows := by
  have hkey : ∀ row ∈ rows, Database.sortKey orderBys row = some (Database.keyColumns columns row) :=
    fun row hrow => sortKey_columns hids hover (hrows row hrow)
  unfold Database.sortResults
  dsimp only
  rw [if_pos]
  · refine sortedBy_congr ?_
    intro a ha b hb
    unfold comesBefore
    dsimp only
    rw [hkey a ha, hkey b hb]
    rfl
  · rw [List.all_eq_true]
    intro row hrow
    rw [hkey row hrow]
    rfl

theorem results_sort_scan :
    d.results (.node (schema, .sort orderBys) [.node (scanSchema, .seqScan tableOid tableName filterPredicate) []]) =
      d.sortResults orderBys (selectsBy filterPredicate (d.table tableOid)) := by
  rw [d.results_node]
  show { o | ∃ i ∈ d.results _, o ∈ d.sortResults orderBys i } = _
  rw [d.results_node]
  ext o
  constructor
  · rintro ⟨i, rfl, ho⟩
    exact ho
  · intro ho
    exact ⟨_, rfl, ho⟩

theorem results_indexScan (hfound : d.catalog.getIndexByOid index.indexOid = some index) :
    d.results (.node (schema, .indexScan tableOid index.indexOid none []) []) = d.indexRows tableOid index := by
  rw [d.results_node]
  show d.indexScanResults tableOid index.indexOid none [] = _
  unfold Database.indexScanResults
  rw [hfound]
  refine (Set.image_congr ?_).trans (Set.image_id _)
  rintro _ ⟨rows', -, rfl⟩
  rfl

/-- **The index scan has the results of the sort** if all rows pass the predicate of the scan, and the index sorts them
as the sort does. -/
theorem results_sort_eq_indexRows (hids : orderByColumnIds orderBys = some (getKeyAttrs index))
    (hover : ∀ o ∈ orderBys, o.expr.Over (single types)) (hrows : ∀ row ∈ d.table tableOid, HasTypes types row)
    (hpass : AllPass filterPredicate (d.table tableOid)) (hsorts : SortsAlike d orderBys (d.table tableOid) index) :
    d.sortResults orderBys (selectsBy filterPredicate (d.table tableOid)) = d.indexRows tableOid index := by
  rw [selectsBy_of_allPass hpass, sortResults_columns hids hover hrows]
  exact sortedBy_congr hsorts

/-- **Under no other condition**, if both can be sorted by. -/
theorem sortsAlike_of_results_eq (hids : orderByColumnIds orderBys = some (getKeyAttrs index))
    (hover : ∀ o ∈ orderBys, o.expr.Over (single types)) (hrows : ∀ row ∈ d.table tableOid, HasTypes types row)
    (hpass : AllPass filterPredicate (d.table tableOid))
    (hsort : Ranks (sortBefore d orderBys (getKeyAttrs index)) (d.table tableOid))
    (hindex : Ranks (indexBefore d index) (d.table tableOid))
    (heq : d.sortResults orderBys (selectsBy filterPredicate (d.table tableOid)) = d.indexRows tableOid index) :
    SortsAlike d orderBys (d.table tableOid) index := by
  rw [selectsBy_of_allPass hpass, sortResults_columns hids hover hrows] at heq
  exact (sortings_eq_iff hsort hindex).mp (Set.image_injective.mpr (Option.some_injective _) heq)

/-- **The rows are the same exactly if all of them pass the predicate of the scan.** -/
theorem bags_sort_eq_indexRows_iff (hids : orderByColumnIds orderBys = some columns)
    (hover : ∀ o ∈ orderBys, o.expr.Over (single types)) (hrows : ∀ row ∈ d.table tableOid, HasTypes types row) :
    Set.image bag (d.indexRows tableOid index) =
        Set.image bag (d.sortResults orderBys (selectsBy filterPredicate (d.table tableOid))) ↔
      AllPass filterPredicate (d.table tableOid) := by
  have hsort : Set.image bag (d.sortResults orderBys (selectsBy filterPredicate (d.table tableOid))) =
      {bag (selectsBy filterPredicate (d.table tableOid))} := by
    cases hsel : selectsBy filterPredicate (d.table tableOid) with
    | none => exact Set.image_singleton
    | some rows =>
      rw [sortResults_columns hids hover fun row hrow => hrows row (mem_of_selectsBy hsel hrow)]
      exact image_bag_sortedBy
  unfold Database.indexRows
  rw [hsort, image_bag_sortedBy, Set.singleton_eq_singleton_iff, eq_comm, bag_selectsBy_iff]

/-- The index that is found is one of the table, on these columns. -/
theorem findIndex_spec (d : Database κ) (tableName : String) (columns : List ℕ) :
    ∃ found, findIndex d.catalog tableName columns = .ok found ∧
      ∀ index, found = some index → d.catalog.getIndexByOid index.indexOid = some index ∧
        index.tableName = tableName ∧ columns = getKeyAttrs index := by
  obtain ⟨infos, hok, hinfos⟩ := getTableIndexes_spec d.consistent tableName
  refine ⟨_, by unfold findIndex; rw [hok]; rfl, ?_⟩
  intro index hindex
  obtain ⟨hfound, htable⟩ := hinfos index (List.mem_of_find?_eq_some hindex)
  have hkeys := List.find?_some hindex
  exact ⟨hfound, htable, eq_of_beq hkeys⟩

variable {plan plan' : PlanNode κ}

/-- The index of a replaced sort is one on the sort columns. -/
theorem columns_of_replacedSort
    (hr : replacedSort d.catalog plan = some (orderBys, tableOid, filterPredicate, index)) :
    orderByColumnIds orderBys = some (getKeyAttrs index) := by
  unfold replacedSort at hr
  split at hr
  · obtain ⟨columns, hids, hr⟩ := Option.bind_eq_some_iff.mp hr
    obtain ⟨info, hinfo, hr⟩ := Option.bind_eq_some_iff.mp hr
    obtain ⟨found, hfound, hspec⟩ := findIndex_spec d info.name columns
    rw [hfound] at hr
    cases found with
    | none => cases hr
    | some ix =>
      cases hr
      rw [hids, (hspec index rfl).2.2]
  · cases hr

/-- **The rule where it fires**: the new plan is well-formed, and has the results of the old one if all rows pass and the
index sorts alike; it has the same rows exactly if all pass, and the same results only if the index sorts alike. -/
theorem orderByAsIndexScan_replaced (h : WellFormed d plan)
    (hr : replacedSort d.catalog plan = some (orderBys, tableOid, filterPredicate, index)) :
    ∃ plan', orderByAsIndexScan d.catalog plan = .ok plan' ∧ outputSchema plan' = outputSchema plan ∧
      WellFormed d plan' ∧ (∀ schema oid name predicate, plan' ≠ .node (schema, .seqScan oid name predicate) []) ∧
      (AllPass filterPredicate (d.table tableOid) ∧ SortsAlike d orderBys (d.table tableOid) index →
        d.results plan' = d.results plan) ∧
      (d.bags plan' = d.bags plan ↔ AllPass filterPredicate (d.table tableOid)) ∧
      (Ranks (sortBefore d orderBys (getKeyAttrs index)) (d.table tableOid) →
        Ranks (indexBefore d index) (d.table tableOid) → AllPass filterPredicate (d.table tableOid) →
        d.results plan' = d.results plan → SortsAlike d orderBys (d.table tableOid) index) := by
  unfold replacedSort at hr
  split at hr
  · rename_i schema obs scanSchema oid name predicate grandchildren
    obtain ⟨columns, hids, hr⟩ := Option.bind_eq_some_iff.mp hr
    obtain ⟨info, hinfo, hr⟩ := Option.bind_eq_some_iff.mp hr
    obtain ⟨found, hfound, hspec⟩ := findIndex_spec d info.name columns
    rw [hfound] at hr
    cases found with
    | none => cases hr
    | some ix =>
      cases hr
      obtain ⟨hoid, htable, hkeys⟩ := hspec index rfl
      subst hkeys
      have hscan := h.at_child _ (List.mem_singleton_self _)
      cases h.at_root with
      | sort types hcols =>
        cases hscan.at_root with
        | @seqScan _ _ _ _ info' table tname stypes sover =>
          rw [hinfo] at table
          cases table
          have hrows := d.typed _ _ hinfo
          rw [outputSchema_node] at types
          rw [types, stypes] at hcols
          refine ⟨.node (schema, .indexScan tableOid index.indexOid none []) [], ?_, rfl,
            .node (.indexScan hinfo hoid htable (types.trans stypes) (by simp)) (by simp), ?_, ?_, ?_, ?_⟩
          · simp only [orderByAsIndexScan, hids, hinfo, hfound, ok_bind, (d.consistent.name_of_table _ _ hinfo).1]
            rfl
          · intro _ _ _ _ heq
            cases heq
          · rintro ⟨hpass, hsorts⟩
            rw [results_indexScan hoid, results_sort_scan, results_sort_eq_indexRows hids hcols hrows hpass hsorts]
          · unfold Database.bags
            rw [results_indexScan hoid, results_sort_scan]
            exact bags_sort_eq_indexRows_iff hids hcols hrows
          · intro hsort hindex hpass heq
            rw [results_indexScan hoid, results_sort_scan] at heq
            exact sortsAlike_of_results_eq hids hcols hrows hpass hsort hindex heq.symm
  · cases hr

/-- The rule leaves all other plans as they are. -/
theorem orderByAsIndexScan_kept (h : WellFormed d plan) (hr : replacedSort d.catalog plan = none) :
    orderByAsIndexScan d.catalog plan = .ok plan := by
  cases h with
  | node here below =>
    cases here with
    | @sort schema orderBys child types hcols =>
      have hchild := below child (List.mem_singleton_self child)
      cases hids : orderByColumnIds orderBys with
      | none => simp [orderByAsIndexScan, hids]
      | some columns =>
        cases hchild with
        | node hlocal _ =>
          cases hlocal with
          | @seqScan _ tableOid tableName _ info table name stypes sover =>
            obtain ⟨found, hfound, -⟩ := findIndex_spec d info.name columns
            cases found with
            | none =>
              simp only [orderByAsIndexScan, hids, table, hfound, ok_bind]
              rfl
            | some index => simp [replacedSort, hids, table, hfound] at hr
          | _ => simp [orderByAsIndexScan, hids]
    | _ => rfl

end Node

/-! ## The pass -/

section Pass

variable {κ : Type} {d : Database κ} {plan plan' : PlanNode κ}

/-- The second plan means the same, and is a scan of a table only if the first one is that scan. -/
structure KeepsScans (d : Database κ) (plan plan' : PlanNode κ) : Prop extends Same d plan plan' where
  scans : ∀ schema oid name predicate, plan' = .node (schema, .seqScan oid name predicate) [] → plan = plan'

theorem keepsScans_node {schema : Schema} {op : Operator κ} {children children' : List (PlanNode κ)}
    (h : LocallyWF d (.node (schema, op) children)) (hs : List.Forall₂ (KeepsScans d) children children') :
    KeepsScans d (.node (schema, op) children) (.node (schema, op) children') := by
  refine ⟨same_node h (hs.imp fun _ _ hc => hc.toSame), ?_⟩
  intro _ _ _ _ heq
  cases heq
  rw [List.forall₂_nil_right_iff.mp hs]

/-- A sort that is replaced meets the two conditions: the rows of the table pass the predicate of the scan, and the
index orders them as the sort does. -/
def SafeOrder (d : Database κ) (plan : PlanNode κ) : Prop :=
  ∀ orderBys tableOid filterPredicate index,
    replacedSort d.catalog plan = some (orderBys, tableOid, filterPredicate, index) →
      AllPass filterPredicate (d.table tableOid) ∧ SortsAlike d orderBys (d.table tableOid) index

/-- A sort with rewritten children is replaced only if it was to be. -/
theorem replacedSort_children {schema : Schema} {op : Operator κ} {children children' : List (PlanNode κ)}
    {x : List OrderBy × UInt32 × Option Expr × IndexInfo} (hs : List.Forall₂ (KeepsScans d) children children')
    (h : replacedSort d.catalog (.node (schema, op) children') = some x) :
    replacedSort d.catalog (.node (schema, op) children) = some x := by
  have hcopy := h
  unfold replacedSort at h
  split at h
  · rename_i heq
    cases heq
    obtain ⟨child, _, hchild, hnil, rfl⟩ := List.forall₂_cons_right_iff.mp hs
    cases hnil
    have hscan := hchild.wellFormed.at_root
    cases hscan with
    | seqScan table name types hcols =>
      rw [hchild.scans _ _ _ _ rfl]
      exact hcopy
  · cases h

/-- **The pass keeps the meaning** of a plan whose replaced sorts meet the two conditions. -/
theorem optimizeOrderBy_same (hwf : WellFormed d plan) (hsafe : Tree.Everywhere (SafeOrder d) plan) :
    ∃ plan', optimizeOrderByAsIndexScan d.catalog plan = .ok plan' ∧ KeepsScans d plan plan' := by
  refine Tree.bottomUp_rel ?_ (hwf.and hsafe)
  rintro ⟨schema, op⟩ children children' hnode hs
  obtain ⟨hlocal, hcond⟩ := hnode.at_root
  have hkeeps := keepsScans_node hlocal hs
  cases hr : replacedSort d.catalog (.node (schema, op) children') with
  | none => exact ⟨_, orderByAsIndexScan_kept hkeeps.wellFormed hr, hkeeps⟩
  | some x =>
    obtain ⟨orderBys, tableOid, filterPredicate, index⟩ := x
    obtain ⟨plan', hrule, hschema, hwf', hscan, hsound, -, -⟩ := orderByAsIndexScan_replaced hkeeps.wellFormed hr
    have hresults := hsound (hcond _ _ _ _ (replacedSort_children hs hr))
    refine ⟨plan', hrule, hkeeps.toSame.trans ⟨hschema, hresults, hwf'⟩, ?_⟩
    intro _ _ _ _ heq
    exact absurd heq (hscan _ _ _ _)

/-- **The pass at a sort of a table that it replaces**: the rows are the same exactly if all of them pass the predicate
of the scan; and the results are the same exactly if, besides, the index sorts as the sort does, provided that both can
be sorted by. -/
theorem optimized_sort_iff {orderBys : List OrderBy} {tableOid : UInt32} {filterPredicate : Option Expr}
    {index : IndexInfo} (hwf : WellFormed d plan)
    (hr : replacedSort d.catalog plan = some (orderBys, tableOid, filterPredicate, index)) :
    ((∃ plan', optimizeOrderByAsIndexScan d.catalog plan = .ok plan' ∧ d.bags plan' = d.bags plan) ↔
      AllPass filterPredicate (d.table tableOid)) ∧
    (Ranks (sortBefore d orderBys (getKeyAttrs index)) (d.table tableOid) →
      Ranks (indexBefore d index) (d.table tableOid) →
      ((∃ plan', optimizeOrderByAsIndexScan d.catalog plan = .ok plan' ∧ d.results plan' = d.results plan) ↔
        AllPass filterPredicate (d.table tableOid) ∧ SortsAlike d orderBys (d.table tableOid) index)) := by
  obtain ⟨plan', hrule, -, -, -, hsound, hbags, hexact⟩ := orderByAsIndexScan_replaced hwf hr
  have hrun : optimizeOrderByAsIndexScan d.catalog plan = .ok plan' := by
    unfold replacedSort at hr
    split at hr
    · cases (hwf.at_child _ (List.mem_singleton_self _)).at_root
      exact hrule
    · cases hr
  rw [hrun]
  refine ⟨⟨?_, ?_⟩, fun hsort hindex => ⟨?_, ?_⟩⟩
  · rintro ⟨plan'', hok, heq⟩
    cases hok
    exact hbags.mp heq
  · intro hpass
    exact ⟨plan', rfl, hbags.mpr hpass⟩
  · rintro ⟨plan'', hok, heq⟩
    cases hok
    have hpass := hbags.mp (congrArg (Set.image bag) heq)
    exact ⟨hpass, hexact hsort hindex hpass heq⟩
  · intro hcond
    exact ⟨plan', rfl, hsound hcond⟩

end Pass

end Journey.Optimizer
