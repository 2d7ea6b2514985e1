import Journey.Bustub.Optimizer.NLJAsIndexJoin

/-!
# Journey.Bustub.Optimizer.IndexRules — when the index rules are sound

The two rules that put an index in the place of a scan.  Both lose the predicate of the scan, and the one for sorts
takes any index on the sort columns, whatever its kind and wherever it keeps the nulls.

* `lookups_iff_of_straight`: a join `#0.x = #1.y` loses nothing exactly if the rows that fail have no partners;
  `lookups_of_allPass`: in particular if all rows pass.
* `index_rules_sound`: the two passes over any plan, and what exactly they need at a node that they replace.
* `indexedTable`: one table with one index.
-/

namespace Journey.Optimizer

open SqlType Catalog Execution Storage

/-! ## The two passes -/

section Rules

variable {κ : Type} {d : Database κ}

section Partners

variable {on found : Record → Record → Option Bool} {test : Record → Option Bool} {ls rs : List Record}

/-- **What the inputs have to be like**, where the lookups test what the join did and nothing throws: no row that fails
the predicate of its scan is a partner. -/
theorem findsPartners_iff_of_same (hsame : ∀ a ∈ ls, ∀ b ∈ rs, found a b = on a b) (htest : ∀ b ∈ rs, test b ≠ none)
    (hon : ∀ a ∈ ls, ∀ b ∈ rs, on a b ≠ none) :
    FindsPartners on found test ls rs ↔ ∀ a ∈ ls, ∀ b ∈ rs, on a b = some true → test b = some true := by
  constructor
  · rintro (⟨-, a, ha, b, hb, hnone⟩ | ⟨-, -, -, hfinds⟩) a' ha' b' hb' hpartner
    · rw [hsame a ha b hb] at hnone
      exact absurd hnone (hon a ha b hb)
    · rw [← hsame a' ha' b' hb'] at hpartner
      exact ((hfinds a' ha' b' hb').mp hpartner).1
  · intro hkept
    refine .inr ⟨htest, fun a ha b hb _ => hon a ha b hb, ?_, ?_⟩
    · intro a ha b hb
      rw [hsame a ha b hb]
      exact hon a ha b hb
    · intro a ha b hb
      rw [hsame a ha b hb]
      exact ⟨fun h => ⟨hkept a ha b hb h, h⟩, And.right⟩

/-- Lookups that test what the join did find its partners, if all rows of the table pass the predicate of the scan. -/
theorem findsPartners_of_pass (hsame : ∀ a ∈ ls, ∀ b ∈ rs, found a b = on a b) (hpass : ∀ b ∈ rs, test b = some true) :
    FindsPartners on found test ls rs := by
  by_cases hthrows : ∃ a ∈ ls, ∃ b ∈ rs, on a b = none
  · obtain ⟨a, ha, b, hb, hnone⟩ := hthrows
    refine .inl ⟨.inr ⟨a, ha, b, hb, hpass b hb, hnone⟩, a, ha, b, hb, ?_⟩
    rw [hsame a ha b hb, hnone]
  · push Not at hthrows
    refine (findsPartners_iff_of_same hsame ?_ hthrows).mpr fun _ _ b hb _ => hpass b hb
    intro b hb
    rw [hpass b hb]
    exact nofun

end Partners

/-- With the key of the left side first, a lookup tests what the join did. -/
theorem keyMatches_of_straight {j : ReplacedJoin κ} {leftCol rightCol : ℕ} {leftType rightType : Column}
    (hpredicate : j.predicate =
      .comparison .equal (.columnValue 0 leftCol leftType) (.columnValue 1 rightCol rightType))
    (hkey : joinKey j.predicate = some (j.keyPredicate, j.colIdx)) (a b : Record) :
    Database.keyMatches j.keyPredicate j.colIdx a b = passPair j.predicate a b := by
  rw [hpredicate] at hkey ⊢
  have hpair : (Expr.columnValue 0 leftCol leftType, rightCol) = (j.keyPredicate, j.colIdx) := Option.some.inj hkey
  obtain ⟨hk, hc⟩ := Prod.mk.inj hpair
  rw [← hk, ← hc]
  rfl

/-- **A join on `#0.x = #1.y` where nothing throws is safe exactly if no row of the table that fails the predicate of
its scan has a partner on the left.** -/
theorem lookups_iff_of_straight {j : ReplacedJoin κ} {leftCol rightCol : ℕ} {leftType rightType : Column}
    (hpredicate : j.predicate =
      .comparison .equal (.columnValue 0 leftCol leftType) (.columnValue 1 rightCol rightType))
    (hkey : joinKey j.predicate = some (j.keyPredicate, j.colIdx)) (hjoin : j.joinType = .inner ∨ j.joinType = .left)
    {ls : List Record} (htest : ∀ b ∈ d.table j.tableOid, scanTest j.filterPredicate b ≠ none)
    (hon : ∀ a ∈ ls, ∀ b ∈ d.table j.tableOid, passPair j.predicate a b ≠ none) :
    Lookups d j ls ↔ ∀ a ∈ ls, ∀ b ∈ d.table j.tableOid, passPair j.predicate a b = some true →
      scanTest j.filterPredicate b = some true := by
  rw [← findsPartners_iff_of_same (fun a _ b _ => keyMatches_of_straight hpredicate hkey a b) htest hon]
  exact ⟨fun h => h hjoin, fun h _ => h⟩

/-- **A join on `#0.x = #1.y` is safe if all rows of the table pass the predicate of its scan.** -/
theorem lookups_of_allPass {j : ReplacedJoin κ} {leftCol rightCol : ℕ} {leftType rightType : Column}
    (hpredicate : j.predicate =
      .comparison .equal (.columnValue 0 leftCol leftType) (.columnValue 1 rightCol rightType))
    (hkey : joinKey j.predicate = some (j.keyPredicate, j.colIdx))
    (hpass : AllPass j.filterPredicate (d.table j.tableOid)) (ls : List Record) : Lookups d j ls := by
  intro _
  refine findsPartners_of_pass (fun a _ b _ => keyMatches_of_straight hpredicate hkey a b) ?_
  intro b hb
  cases hfilter : j.filterPredicate with
  | none => rfl
  | some predicate => exact hpass predicate hfilter b hb

/-- **The index rules.**  For every database and every well-formed plan: if the sorts that are replaced meet the
condition of `SafeOrder`, the first pass ends with a plan of the same output schema and the same results; if the joins
that are replaced meet the condition of `SafeLookup`, so does the second one.

At a sort that is replaced, the rows are the same exactly if all of them pass the predicate of the scan.  Their order is
the same exactly if, besides, the index is ordered and treats the nulls as the sort does, or the sort leaves the order
open; this wants that values can be sorted by, which a `NaN` cannot.  At a join that is replaced, with one result on its
left side, the rows are the same exactly if the lookups find the rows that pass both the predicate of the scan and that
of the join. -/
theorem index_rules_sound (d : Database κ) (plan : PlanNode κ) (hwf : WellFormed d plan) :
    (Tree.Everywhere (SafeOrder d) plan →
      ∃ plan', optimizeOrderByAsIndexScan d.catalog plan = .ok plan' ∧ outputSchema plan' = outputSchema plan ∧
        d.results plan' = d.results plan) ∧
    (∀ orderBys tableOid filterPredicate index,
      replacedSort d.catalog plan = some (orderBys, tableOid, filterPredicate, index) →
      ((∃ plan', optimizeOrderByAsIndexScan d.catalog plan = .ok plan' ∧ d.bags plan' = d.bags plan) ↔
        AllPass filterPredicate (d.table tableOid)) ∧
      (Ranks (sortBefore d orderBys (getKeyAttrs index)) (d.table tableOid) →
        Ranks (indexBefore d index) (d.table tableOid) →
        ((∃ plan', optimizeOrderByAsIndexScan d.catalog plan = .ok plan' ∧ d.results plan' = d.results plan) ↔
          AllPass filterPredicate (d.table tableOid) ∧
          ∀ a ∈ d.table tableOid, ∀ b ∈ d.table tableOid,
            if isOrdered index.indexType then
              NullsAlike (orderBys.map d.keyOrder) (d.indexOrder index) (Database.keyColumns (getKeyAttrs index) a)
                (Database.keyColumns (getKeyAttrs index) b)
            else sortBefore d orderBys (getKeyAttrs index) a b = false))) ∧
    (Tree.Everywhere (SafeLookup d) plan →
      ∃ plan', optimizeNLJAsIndexJoin d.catalog plan = .ok plan' ∧ outputSchema plan' = outputSchema plan ∧
        d.results plan' = d.results plan) ∧
    (∀ j ls, replacedJoin d.catalog plan = some j → Tree.Everywhere (SafeLookup d) j.left →
      d.results j.left = {some ls} →
      ((∃ plan', optimizeNLJAsIndexJoin d.catalog plan = .ok plan' ∧ d.bags plan' = d.bags plan) ↔
        Lookups d j ls)) := by
  refine ⟨?_, ?_, ?_, ?_⟩
  · intro hsafe
    obtain ⟨plan', hopt, hkeeps⟩ := optimizeOrderBy_same hwf hsafe
    exact ⟨plan', hopt, hkeeps.schema, hkeeps.results⟩
  · intro orderBys tableOid filterPredicate index hr
    obtain ⟨hbags, hresults⟩ := optimized_sort_iff hwf hr
    refine ⟨hbags, fun hsort hindex => ?_⟩
    rw [hresults hsort hindex, sortsAlike_iff (columns_of_replacedSort hr)]
  · intro hsafe
    obtain ⟨plan', hopt, hkeeps⟩ := optimizeNLJ_same hwf hsafe
    exact ⟨plan', hopt, hkeeps.schema, hkeeps.results⟩
  · intro j ls hr hsafe hls
    exact bags_optimized_nlj_iff hwf hr hsafe hls

end Rules

/-! ## A table with an index -/

section IndexedTable

/-- The table `t(x INTEGER)`. -/
def tableX : TableInfo := ⟨.create [integerColumn "x"], "t", none, 0⟩

/-- The metadata of an index on `t(x)`. -/
def metadataX : IndexMetadata := ⟨"i", "t", [0], false, .create [integerColumn "x"]⟩

/-- An `STLOrderedIndex` or `STLUnorderedIndex` on `t(x)`. -/
def indexX (ordered : Bool) : IndexInfo where
  keySchema := .create [integerColumn "x"]
  name := "i"
  keyType := 8
  index := if ordered then .stlOrdered ⟨metadataX, []⟩ else .stlUnordered ⟨metadataX, fun _ => 0, []⟩
  indexOid := 0
  tableName := "t"
  keySize := 8
  isPrimaryKey := false
  indexType := if ordered then .stlOrderedIndex else .stlUnorderedIndex

/-- The catalog with the table and the index. -/
def catalogX (ordered : Bool) : Journey.Catalog := (Catalog.new.addTable tableX).addIndex (indexX ordered) ∅

theorem consistent_catalogX (ordered : Bool) : (catalogX ordered).Consistent := by
  have htable : (Catalog.new.addTable tableX).Consistent := consistent_new.addTable (by decide) (by decide)
  refine htable.addIndex rfl ?_ ?_
  · exact AList.notMem_empty _
  · exact AList.notMem_empty _

theorem getTableByOid_catalogX {ordered : Bool} {oid : UInt32} {info : TableInfo}
    (h : (catalogX ordered).getTableByOid oid = some info) : info = tableX := by
  have hlookup : (Catalog.new.tables.emplace 0 tableX).lookup oid = some info := h
  rw [lookup_emplace _ (by decide)] at hlookup
  split_ifs at hlookup
  · exact (Option.some.inj hlookup).symm
  · cases hlookup

variable {ordered : Bool} {rows : List Record} {hrows : ∀ row ∈ rows, HasTypes [.integer] row}

/-- The table `t` with the given rows. -/
def indexedTable (ordered : Bool) (rows : List Record) (hrows : ∀ row ∈ rows, HasTypes [.integer] row) :
    Database Empty where
  catalog := catalogX ordered
  consistent := consistent_catalogX ordered
  table := fun _ => rows
  typed := by
    intro oid info h row hrow
    rw [getTableByOid_catalogX h]
    exact hrows row hrow
  defaultNullsFirst := fun _ => true
  indexNullsFirst := fun _ => true
  finds := fun _ _ _ => some true
  other := nofun
  other_nonempty := nofun

/-- `SELECT * FROM t`, with a predicate in the scan. -/
def scanX (filterPredicate : Option Expr) : PlanNode Empty :=
  .node (.create [integerColumn "x"], .seqScan 0 "t" filterPredicate) []

/-- `SELECT * FROM t ORDER BY x`. -/
def sortX : PlanNode Empty :=
  .node (.create [integerColumn "x"], .sort [⟨.default, .default, .columnValue 0 0 (integerColumn "x")⟩]) [scanX none]

/-- `SELECT * FROM t, t WHERE #0.x = #1.x`, with a predicate in the scan on the right. -/
def selfJoinX (filterPredicate : Option Expr) : PlanNode Empty :=
  .node (.create [integerColumn "x", integerColumn "x"], .nestedLoopJoin
    (.comparison .equal (.columnValue 0 0 (integerColumn "x")) (.columnValue 1 0 (integerColumn "x"))) .inner)
    [scanX none, scanX filterPredicate]

theorem scanX_wellFormed {filterPredicate : Option Expr} (hover : ∀ e ∈ filterPredicate, e.Over (single [.integer])) :
    WellFormed (indexedTable ordered rows hrows) (scanX filterPredicate) := by
  have htable : (indexedTable ordered rows hrows).catalog.getTableByOid 0 = some tableX := rfl
  exact .node (.seqScan htable rfl rfl hover) nofun

theorem sortX_wellFormed : WellFormed (indexedTable ordered rows hrows) sortX := by
  refine .node (.sort rfl ?_) ?_
  · intro o ho
    rw [List.mem_singleton.mp ho]
    rfl
  · intro t ht
    rw [List.mem_singleton.mp ht]
    show WellFormed (indexedTable ordered rows hrows) (scanX none)
    exact scanX_wellFormed nofun

theorem selfJoinX_wellFormed {filterPredicate : Option Expr}
    (hover : ∀ e ∈ filterPredicate, e.Over (single [.integer])) :
    WellFormed (indexedTable ordered rows hrows) (selfJoinX filterPredicate) := by
  have hcount : (Schema.create [integerColumn "x"]).columns.length < 2 ^ 32 := by
    rw [length_create, List.length_singleton]
    decide
  refine .node (.nestedLoopJoin rfl hcount hcount ⟨rfl, rfl⟩) ?_
  intro t ht
  rcases List.mem_pair.mp ht with rfl | rfl
  · show WellFormed (indexedTable ordered rows hrows) (scanX none)
    exact scanX_wellFormed nofun
  · show WellFormed (indexedTable ordered rows hrows) (scanX filterPredicate)
    exact scanX_wellFormed hover

theorem results_scanX : (indexedTable ordered rows hrows).results (scanX none) = {some rows} := Database.results_node ..

theorem scanX_safe : Tree.Everywhere (SafeLookup (indexedTable ordered rows hrows)) (scanX none) :=
  .node nofun nofun

theorem replacedSort_sortX : replacedSort (catalogX ordered) sortX =
    some ([⟨.default, .default, .columnValue 0 0 (integerColumn "x")⟩], 0, none, indexX ordered) := by
  cases ordered <;> rfl

theorem replacedJoin_selfJoinX (filterPredicate : Option Expr) :
    replacedJoin (catalogX ordered) (selfJoinX filterPredicate) =
      some ⟨.comparison .equal (.columnValue 0 0 (integerColumn "x")) (.columnValue 1 0 (integerColumn "x")), .inner,
        scanX none, .create [integerColumn "x"], 0, filterPredicate, .columnValue 0 0 (integerColumn "x"), 0⟩ := by
  cases ordered <;> rfl

/-- The rows `1` and `2`. -/
def rowsX : List Record := [[.integer 1], [.integer 2]]

theorem rowsX_typed : ∀ row ∈ rowsX, HasTypes [.integer] row := by
  simp [rowsX, HasTypes, Value.getTypeId]

theorem ranks_sortX : Ranks (sortBefore (indexedTable ordered rowsX rowsX_typed)
    [⟨.default, .default, .columnValue 0 0 (integerColumn "x")⟩] [0]) rowsX := by
  cases ordered <;> exact ⟨by decide +kernel, by decide +kernel⟩

/-- With an ordered index, and no predicate in the scan, both passes keep the meaning. -/
theorem index_rules_sound_ordered :
    (∃ plan', optimizeOrderByAsIndexScan (catalogX true) sortX = .ok plan' ∧
      (indexedTable true rowsX rowsX_typed).results plan' = (indexedTable true rowsX rowsX_typed).results sortX) ∧
    ∃ plan', optimizeNLJAsIndexJoin (catalogX true) (selfJoinX none) = .ok plan' ∧
      (indexedTable true rowsX rowsX_typed).bags plan' = (indexedTable true rowsX rowsX_typed).bags (selfJoinX none) := by
  constructor
  · have hindex : Ranks (indexBefore (indexedTable true rowsX rowsX_typed) (indexX true)) rowsX :=
      ⟨by decide +kernel, by decide +kernel⟩
    refine (((index_rules_sound _ _ sortX_wellFormed).2.1 _ _ _ _ replacedSort_sortX).2 ranks_sortX hindex).mpr
      ⟨nofun, ?_⟩
    intro a _ b _
    exact ⟨.inl rfl, fun _ _ => trivial⟩
  · have hwf : WellFormed (indexedTable true rowsX rowsX_typed) (selfJoinX none) := selfJoinX_wellFormed nofun
    refine ((index_rules_sound _ _ hwf).2.2.2 _ _ (replacedJoin_selfJoinX none) scanX_safe results_scanX).mpr ?_
    refine lookups_of_allPass rfl rfl ?_ rowsX
    exact nofun

/-- With an index that is not ordered the sort is lost; and the join finds rows that do not pass the predicate of the
scan. -/
theorem index_rules_lose_order_and_predicate :
    (¬ ∀ (κ : Type) (d : Database κ) (plan : PlanNode κ), WellFormed d plan →
      ∃ plan', optimizeOrderByAsIndexScan d.catalog plan = .ok plan' ∧ d.bags plan' = d.bags plan ∧
        ∀ schema orderBys children, plan = .node (schema, .sort orderBys) children →
          d.results plan' = d.results plan) ∧
    ¬ ∀ (κ : Type) (d : Database κ) (plan : PlanNode κ), WellFormed d plan →
      ∃ plan', optimizeNLJAsIndexJoin d.catalog plan = .ok plan' ∧ d.bags plan' = d.bags plan := by
  constructor
  · intro hclaim
    have hindex : Ranks (indexBefore (indexedTable false rowsX rowsX_typed) (indexX false)) rowsX :=
      ⟨by decide +kernel, by decide +kernel⟩
    obtain ⟨plan', hopt, -, horder⟩ := hclaim _ (indexedTable false rowsX rowsX_typed) sortX sortX_wellFormed
    have hiff := (optimized_sort_iff sortX_wellFormed replacedSort_sortX).2 ranks_sortX hindex
    obtain ⟨-, hsorts⟩ := hiff.mp ⟨plan', hopt, horder _ _ _ rfl⟩
    have hlost := hsorts [.integer 1] (by decide) [.integer 2] (by decide)
    exact absurd hlost (by decide +kernel)
  · intro hclaim
    have hwf : WellFormed (indexedTable false rowsX rowsX_typed) (selfJoinX (some (.constantValue (.boolean 0)))) := by
      refine selfJoinX_wellFormed ?_
      rintro _ ⟨⟩
      exact nofun
    have hlookups := (bags_optimized_nlj_iff hwf (replacedJoin_selfJoinX _) scanX_safe results_scanX).mp
      (hclaim _ _ _ hwf)
    rcases hlookups (.inl rfl) with ⟨-, a, ha, b, hb, hnone⟩ | ⟨-, -, -, hfinds⟩
    · have hsome : ∀ a ∈ rowsX, ∀ b ∈ rowsX, Database.keyMatches (.columnValue 0 0 (integerColumn "x")) 0 a b ≠ none := by
        decide +kernel
      exact hsome a ha b hb hnone
    · obtain ⟨hpass, -⟩ := (hfinds [.integer 1] (by decide) [.integer 1] (by decide)).mp (by decide +kernel)
      exact absurd hpass (by decide +kernel)

end IndexedTable

end Journey.Optimizer
