import Journey.Bustub.Binder.Statements

/-!
# Journey.Bustub.Binder.Resolve — the names the binder gives to columns

The binder names every column of a `FROM` clause by the parts of its full name: the name of a table or the
alias of a subquery, and what the column is called in it.  A bound column reference is nothing but these
parts, so it is a list of strings here.

* `bindSubquery`: the end of `BindSubquery`, which names the columns of a subquery after its select list.
* `resolveColumn`: a name of the query, looked up in a table reference.
* `getAllColumns`: the columns that `SELECT *` stands for.
* `tables`: what a table reference joins.
-/

namespace Journey.Binder

open SqlType Catalog

/-! ## Subqueries -/

section Subqueries

/-- The name that an item of a select list gives itself. -/
def itemName : BoundExpression → Option (List String)
  | .columnRef colName _ => some colName
  | .alias_ name _ => some [name]
  | _ => none

/-- The loop of `BindSubquery`: the items without a name get one from the counter. -/
def selectListNames : List (Option (List String)) → ℕ → List (List String) × ℕ
  | [], id => ([], id)
  | some name :: items, id =>
    let (names, id) := selectListNames items id
    (name :: names, id)
  | none :: items, id =>
    let (names, id) := selectListNames items (id + 1)
    (["__item#" ++ toString id] :: names, id)

/-- `BindSubquery`, when the statement is bound: the reference and the counter. -/
def bindSubquery (heap : Heap) (subquery : SelectStatement) (aliasName : String) (id : ℕ) : BoundSubqueryRef × ℕ :=
  let (names, id) := selectListNames ((heap subquery.exprs).selectList.map itemName) id
  (⟨subquery, names, aliasName⟩, id)

/-- The reference is one that `BindSubquery` returns. -/
def BoundSubqueryRef.Named (heap : Heap) (ref : BoundSubqueryRef) : Prop :=
  ∃ id, ref = (bindSubquery heap ref.subquery ref.alias_ id).1

variable {items : List (Option (List String))} {id : ℕ}

theorem length_selectListNames : (selectListNames items id).1.length = items.length := by
  induction items generalizing id with
  | nil => rfl
  | cons item items ih =>
    cases item with
    | none => exact congrArg (· + 1) ih
    | some name => exact congrArg (· + 1) ih

theorem selectListNames_ne_nil (hitems : ∀ name, some name ∈ items → name ≠ []) {name : List String}
    (h : name ∈ (selectListNames items id).1) : name ≠ [] := by
  induction items generalizing id with
  | nil => cases h
  | cons item items ih =>
    have htail : ∀ name, some name ∈ items → name ≠ [] := fun name hname => hitems name (.tail _ hname)
    cases item with
    | none =>
      rcases List.mem_cons.mp h with rfl | h
      · exact List.cons_ne_nil _ _
      · exact ih htail h
    | some given =>
      rcases List.mem_cons.mp h with rfl | h
      · exact hitems name (.head _)
      · exact ih htail h

theorem itemName_ne_nil {expr : BoundExpression} {name : List String} (h : itemName expr = some name) :
    name ≠ [] := by
  rintro rfl
  unfold itemName at h
  split at h
  · rename_i hlen
    cases h
    exact absurd hlen (by decide)
  · cases h
  · cases h

namespace BoundSubqueryRef.Named

variable {heap heap' : Heap} {ref : BoundSubqueryRef}

/-- Only the names in the select list count. -/
theorem congr (h : ref.Named heap)
    (heq : (heap' ref.subquery.exprs).selectList.map itemName = (heap ref.subquery.exprs).selectList.map itemName) :
    ref.Named heap' := by
  obtain ⟨id, href⟩ := h
  refine ⟨id, ?_⟩
  rw [bindSubquery, heq]
  exact href

/-- There is a name for each item. -/
theorem length_eq (h : ref.Named heap) : ref.selectListName.length = (heap ref.subquery.exprs).selectList.length := by
  obtain ⟨id, href⟩ := h
  rw [href]
  exact length_selectListNames.trans (List.length_map _)

theorem ne_nil (h : ref.Named heap) {name : List String} (hname : name ∈ ref.selectListName) : name ≠ [] := by
  obtain ⟨id, href⟩ := h
  rw [href] at hname
  refine selectListNames_ne_nil ?_ hname
  intro name hitem
  obtain ⟨expr, -, hexpr⟩ := List.mem_map.mp hitem
  exact itemName_ne_nil hexpr

end BoundSubqueryRef.Named

end Subqueries

/-! ## Column references -/

section Columns

/-- `StringUtil::Lower`. -/
def lower (str : String) : String := String.ofList (str.toList.map Char.toLower)

/-- The loop that looks for the only match, after it has found `columnRef`. -/
def onlyMatch {α : Type} (isMatch : α → Bool) (refOf : α → List String) (ambiguous : Fault) :
    List α → Option (List String) → Except Fault (Option (List String))
  | [], columnRef => .ok columnRef
  | a :: as, columnRef =>
    if isMatch a then
      match columnRef with
      | some _ => .error ambiguous
      | none => onlyMatch isMatch refOf ambiguous as (some (refOf a))
    else onlyMatch isMatch refOf ambiguous as columnRef

/-- `ResolveColumnRefFromSchema`. -/
def resolveColumnRefFromSchema (schema : Schema) : List String → Except Fault (Option (List String))
  | [name] => onlyMatch (fun column => lower column.name = name) (fun column => [column.name])
      (.exception .invalid (name ++ " is ambiguous in schema")) schema.columns none
  | _ => .ok none

/-- `MatchSuffix`. -/
def matchSuffix (suffix fullName : List String) : Bool := suffix.isSuffixOf (fullName.map lower)

/-- `ResolveColumnRefFromSelectList`. -/
def resolveColumnRefFromSelectList (selectList : List (List String)) (colName : List String) :
    Except Fault (Option (List String)) :=
  onlyMatch (matchSuffix colName) id
    (.exception .invalid (joinName colName ++ " is ambiguous in subquery select list")) selectList none

/-- `BoundColumnRef::Prepend`. -/
def prepend (columnRef : Option (List String)) (name : String) : Option (List String) := columnRef.map (name :: ·)

/-- A name without its first part, if that is the name of the table. -/
def strip (tableName : String) : List String → Option (List String)
  | first :: second :: rest => if first = tableName then some (second :: rest) else none
  | _ => none

/-- A name is looked up as it is and without the name of the table; the column gets `owner` in front. -/
def resolveEither (resolve : List String → Except Fault (Option (List String))) (tableName owner : String)
    (ambiguous : Fault) (colName : List String) : Except Fault (Option (List String)) := do
  let direct ← resolve colName
  let stripped ← (match strip tableName colName with
    | some rest => resolve rest
    | none => .ok none)
  match prepend stripped owner, prepend direct owner with
  | some _, some _ => .error ambiguous
  | some columnRef, none => .ok (some columnRef)
  | none, columnRef => .ok columnRef

/-- `ResolveColumnRefFromBaseTableRef`. -/
def resolveColumnRefFromBaseTableRef (table : String) (alias_ : Option String) (schema : Schema)
    (colName : List String) : Except Fault (Option (List String)) :=
  let boundTableName := getBoundTableName table alias_
  resolveEither (resolveColumnRefFromSchema schema) boundTableName boundTableName
    (.exception .invalid (joinName colName ++ " is ambiguous in table " ++ table)) colName

/-- `ResolveColumnRefFromSubqueryRef`.  The name that is stripped is the given one, the name in front of the
column is that of the subquery. -/
def resolveColumnRefFromSubqueryRef (ref : BoundSubqueryRef) (aliasName : String) (colName : List String) :
    Except Fault (Option (List String)) :=
  resolveEither (resolveColumnRefFromSelectList ref.selectListName) aliasName ref.alias_
    (.exception .invalid (joinName colName ++ " is ambiguous in subquery " ++ ref.alias_)) colName

/-- The two sides of a join. -/
def eitherSide (colName : List String) (left right : Option (List String)) : Except Fault (Option (List String)) :=
  match left, right with
  | some _, some _ => .error (.exception .invalid (joinName colName ++ " is ambiguous"))
  | some columnRef, none => .ok (some columnRef)
  | none, columnRef => .ok columnRef

variable (ctes : CTEScope)

/-- `ResolveColumnInternal`. -/
def resolveColumnInternal : BoundTableRef → List String → Except Fault (Option (List String))
  | .baseTable table _ alias_ schema, colName => resolveColumnRefFromBaseTableRef table alias_ schema colName
  | .crossProduct left right, colName => do
    let left ← resolveColumnInternal left colName
    let right ← resolveColumnInternal right colName
    eitherSide colName left right
  | .join _ left right _, colName => do
    let left ← resolveColumnInternal left colName
    let right ← resolveColumnInternal right colName
    eitherSide colName left right
  | .subquery ref, colName => resolveColumnRefFromSubqueryRef ref ref.alias_ colName
  | .cte cteName alias_, colName => do
    let cte ← findCTE ctes cteName
    resolveColumnRefFromSubqueryRef cte alias_ colName
  | .empty, _ => .error (.exception .invalid "unsupported TableReferenceType")
  | .expressionList _ _, _ => .error (.exception .invalid "unsupported TableReferenceType")

/-- `ResolveColumn`. -/
def resolveColumn (scope : BoundTableRef) (colName : List String) : Except Fault (List String) := do
  match ← resolveColumnInternal ctes scope colName with
  | some columnRef => return columnRef
  | none => throw (.exception .invalid ("column " ++ joinName colName ++ " not found"))

/-- The columns of a subquery. -/
def subqueryColumns (ref : BoundSubqueryRef) : List (List String) := ref.selectListName.map (ref.alias_ :: ·)

/-- `GetAllColumns`.  The columns of a CTE get the alias of the reference in the place of their first part. -/
def getAllColumns : BoundTableRef → Except Fault (List (List String))
  | .baseTable table _ alias_ schema =>
    .ok (schema.columns.map fun column => [getBoundTableName table alias_, column.name])
  | .crossProduct left right => do
    let columns ← getAllColumns left
    let appendColumns ← getAllColumns right
    return columns ++ appendColumns
  | .join _ left right _ => do
    let columns ← getAllColumns left
    let appendColumns ← getAllColumns right
    return columns ++ appendColumns
  | .subquery ref => .ok (subqueryColumns ref)
  | .cte cteName alias_ => do
    let cte ← findCTE ctes cteName
    return (subqueryColumns cte).map fun columnRef => columnRef.set 0 alias_
  | .empty => .error (.exception .invalid "select * cannot be used with this TableReferenceType")
  | .expressionList _ _ => .error (.exception .invalid "select * cannot be used with this TableReferenceType")

end Columns

/-! ## The tables of a reference -/

section Tables

/-- What a table reference joins, from left to right. -/
def tables : BoundTableRef → List BoundTableRef
  | .crossProduct left right => tables left ++ tables right
  | .join _ left right _ => tables left ++ tables right
  | ref => [ref]

/-- A reference to a CTE under an alias that is not its name. -/
def Renamed : BoundTableRef → Prop
  | .cte cteName aliasName => aliasName ≠ cteName
  | _ => False

/-- The subqueries of the reference, and the CTEs that it refers to, are ones that `BindSubquery` returns. -/
def Named (heap : Heap) (ctes : CTEScope) (ref : BoundTableRef) : Prop :=
  ∀ table ∈ tables ref, match table with
    | .subquery subquery => subquery.Named heap
    | .cte cteName _ => ∀ cte, findCTE ctes cteName = .ok cte → cte.Named heap
    | _ => True

/-- The CTEs that the reference refers to are the same in both scopes. -/
def SameCTEs (ctes ctes' : CTEScope) (ref : BoundTableRef) : Prop :=
  ∀ cteName aliasName, .cte cteName aliasName ∈ tables ref → findCTE ctes' cteName = findCTE ctes cteName

/-- The binder returns the column for `*` or for a name of the query, which it has found in a table that is not
renamed. -/
inductive Returns (ctes : CTEScope) (scope : BoundTableRef) (columnRef : List String) : Prop
  | star {columns : List (List String)} (h : getAllColumns ctes scope = .ok columns) (hmem : columnRef ∈ columns)
  | name {colName : List String} {table : BoundTableRef} (h : resolveColumn ctes scope colName = .ok columnRef)
      (htable : table ∈ tables scope) (hfound : resolveColumnInternal ctes table colName = .ok (some columnRef))
      (hkept : ¬ Renamed table)

variable {ctes : CTEScope} {ref table : BoundTableRef} {colName columnRef : List String}

theorem findCTE_alias {cteName : String} {cte : BoundSubqueryRef} (h : findCTE ctes cteName = .ok cte) :
    cte.alias_ = cteName := by
  unfold findCTE at h
  split at h
  · cases h
  · split at h
    · cases h
    · rename_i hfind
      cases h
      have halias := List.find?_some (p := fun cte : BoundSubqueryRef => decide (cte.alias_ = cteName)) hfind
      exact of_decide_eq_true halias

/-- After a match the loop finds no other one. -/
theorem onlyMatch_some {α : Type} {isMatch : α → Bool} {refOf : α → List String} {ambiguous : Fault} {as : List α}
    {first : List String} {found : Option (List String)}
    (h : onlyMatch isMatch refOf ambiguous as (some first) = .ok found) :
    (∀ a ∈ as, isMatch a = false) ∧ found = some first := by
  induction as with
  | nil =>
    cases h
    exact ⟨(fun _ ha => by cases ha), rfl⟩
  | cons a as ih =>
    unfold onlyMatch at h
    split_ifs at h with ha
    obtain ⟨hnone, hfound⟩ := ih h
    refine ⟨?_, hfound⟩
    intro c hc
    rcases List.mem_cons.mp hc with rfl | hc
    · exact Bool.not_eq_true _ ▸ ha
    · exact hnone c hc

/-- **The loop returns the only match.** -/
theorem onlyMatch_unique {α : Type} {isMatch : α → Bool} {refOf : α → List String} {ambiguous : Fault} {as : List α}
    (h : onlyMatch isMatch refOf ambiguous as none = .ok (some columnRef)) :
    ∃ (i : ℕ) (a : α), as[i]? = some a ∧ isMatch a = true ∧ columnRef = refOf a ∧
      ∀ (j : ℕ) b, as[j]? = some b → isMatch b = true → j = i := by
  induction as with
  | nil => cases h
  | cons a as ih =>
    unfold onlyMatch at h
    split_ifs at h with ha
    · obtain ⟨hnone, hfound⟩ := onlyMatch_some h
      cases hfound
      refine ⟨0, a, rfl, ha, rfl, ?_⟩
      rintro (_ | j) b hb hbm
      · rfl
      · rw [hnone b (List.mem_of_getElem? hb)] at hbm
        cases hbm
    · obtain ⟨i, b, hb, hbm, href, huniq⟩ := ih h
      refine ⟨i + 1, b, hb, hbm, href, ?_⟩
      rintro (_ | j) c hc hcm
      · cases hc
        exact absurd hcm ha
      · rw [huniq j c hc hcm]

theorem onlyMatch_eq_ok {α : Type} {isMatch : α → Bool} {refOf : α → List String} {ambiguous : Fault} {as : List α}
    {found : Option (List String)} (h : onlyMatch isMatch refOf ambiguous as found = .ok (some columnRef)) :
    found = some columnRef ∨ ∃ a ∈ as, columnRef = refOf a := by
  cases found with
  | some first => exact .inl (onlyMatch_some h).2.symm
  | none =>
    obtain ⟨i, a, ha, -, href, -⟩ := onlyMatch_unique h
    exact .inr ⟨a, List.mem_of_getElem? ha, href⟩

theorem resolveEither_eq_ok {resolve : List String → Except Fault (Option (List String))} {tableName owner : String}
    {ambiguous : Fault} (h : resolveEither resolve tableName owner ambiguous colName = .ok (some columnRef)) :
    ∃ name rest, resolve name = .ok (some rest) ∧ columnRef = owner :: rest := by
  obtain ⟨direct, hdirect, h⟩ := bind_eq_ok.mp h
  obtain ⟨stripped, hstripped, h⟩ := bind_eq_ok.mp h
  cases stripped with
  | none =>
    cases direct with
    | none => cases h
    | some rest =>
      cases h
      exact ⟨colName, rest, hdirect, rfl⟩
  | some rest =>
    cases direct with
    | some _ => cases h
    | none =>
      cases h
      split at hstripped
      · exact ⟨_, rest, hstripped, rfl⟩
      · cases hstripped

theorem mem_of_resolveColumnRefFromSchema {schema : Schema}
    (h : resolveColumnRefFromSchema schema colName = .ok (some columnRef)) :
    ∃ column ∈ schema.columns, columnRef = [column.name] := by
  unfold resolveColumnRefFromSchema at h
  split at h
  · rcases onlyMatch_eq_ok h with hnone | hmem
    · cases hnone
    · exact hmem
  · cases h

theorem mem_of_resolveColumnRefFromSelectList {selectList : List (List String)}
    (h : resolveColumnRefFromSelectList selectList colName = .ok (some columnRef)) : columnRef ∈ selectList := by
  rcases onlyMatch_eq_ok h with hnone | ⟨name, hname, rfl⟩
  · cases hnone
  · exact hname

theorem mem_of_resolveColumnRefFromSubqueryRef {subquery : BoundSubqueryRef} {aliasName : String}
    (h : resolveColumnRefFromSubqueryRef subquery aliasName colName = .ok (some columnRef)) :
    columnRef ∈ subqueryColumns subquery := by
  obtain ⟨name, rest, hrest, rfl⟩ := resolveEither_eq_ok h
  exact List.mem_map_of_mem (mem_of_resolveColumnRefFromSelectList hrest)

/-- In a table that is not renamed a name is resolved to one of the columns that `*` stands for. -/
theorem resolved_mem : ∀ (ref : BoundTableRef) {columns : List (List String)}, table ∈ tables ref → ¬ Renamed table →
    resolveColumnInternal ctes table colName = .ok (some columnRef) → getAllColumns ctes ref = .ok columns →
    columnRef ∈ columns
  | .crossProduct left right, columns, htable, hkept, h, hall => by
    obtain ⟨cols, hleft, hall⟩ := bind_eq_ok.mp hall
    obtain ⟨cols', hright, hall⟩ := bind_eq_ok.mp hall
    cases hall
    rcases List.mem_append.mp htable with htable | htable
    · exact List.mem_append_left _ (resolved_mem left htable hkept h hleft)
    · exact List.mem_append_right _ (resolved_mem right htable hkept h hright)
  | .join _ left right _, columns, htable, hkept, h, hall => by
    obtain ⟨cols, hleft, hall⟩ := bind_eq_ok.mp hall
    obtain ⟨cols', hright, hall⟩ := bind_eq_ok.mp hall
    cases hall
    rcases List.mem_append.mp htable with htable | htable
    · exact List.mem_append_left _ (resolved_mem left htable hkept h hleft)
    · exact List.mem_append_right _ (resolved_mem right htable hkept h hright)
  | .baseTable name oid aliasName schema, columns, htable, hkept, h, hall => by
    cases List.mem_singleton.mp htable
    cases hall
    obtain ⟨_, rest, hrest, rfl⟩ := resolveEither_eq_ok h
    obtain ⟨column, hcolumn, rfl⟩ := mem_of_resolveColumnRefFromSchema hrest
    exact List.mem_map_of_mem hcolumn
  | .subquery subquery, columns, htable, hkept, h, hall => by
    cases List.mem_singleton.mp htable
    cases hall
    exact mem_of_resolveColumnRefFromSubqueryRef h
  | .cte cteName aliasName, columns, htable, hkept, h, hall => by
    cases List.mem_singleton.mp htable
    obtain ⟨cte, hfind, h⟩ := bind_eq_ok.mp h
    obtain ⟨cte', hfind', hall⟩ := bind_eq_ok.mp hall
    cases hfind.symm.trans hfind'
    cases hall
    -- the part of the name that is replaced is the name of the CTE, which is the alias
    have halias : cte.alias_ = aliasName := (findCTE_alias hfind).trans (not_not.mp hkept).symm
    have hmem := mem_of_resolveColumnRefFromSubqueryRef h
    obtain ⟨name, hname, rfl⟩ := List.mem_map.mp hmem
    refine List.mem_map.mpr ⟨_, hmem, ?_⟩
    rw [← halias]
    rfl
  | .empty, columns, htable, hkept, h, hall => nomatch hall
  | .expressionList _ _, columns, htable, hkept, h, hall => nomatch hall

/-- Where a name can be looked up, `*` can be expanded. -/
theorem getAllColumns_of_resolve : ∀ (ref : BoundTableRef) {found : Option (List String)},
    resolveColumnInternal ctes ref colName = .ok found → ∃ columns, getAllColumns ctes ref = .ok columns
  | .crossProduct left right, found, h => by
    obtain ⟨_, hleft, h⟩ := bind_eq_ok.mp h
    obtain ⟨_, hright, -⟩ := bind_eq_ok.mp h
    obtain ⟨columns, hcolumns⟩ := getAllColumns_of_resolve left hleft
    obtain ⟨columns', hcolumns'⟩ := getAllColumns_of_resolve right hright
    exact ⟨columns ++ columns', by rw [getAllColumns, hcolumns, hcolumns']; rfl⟩
  | .join _ left right _, found, h => by
    obtain ⟨_, hleft, h⟩ := bind_eq_ok.mp h
    obtain ⟨_, hright, -⟩ := bind_eq_ok.mp h
    obtain ⟨columns, hcolumns⟩ := getAllColumns_of_resolve left hleft
    obtain ⟨columns', hcolumns'⟩ := getAllColumns_of_resolve right hright
    exact ⟨columns ++ columns', by rw [getAllColumns, hcolumns, hcolumns']; rfl⟩
  | .baseTable _ _ _ _, found, h => ⟨_, rfl⟩
  | .subquery _, found, h => ⟨_, rfl⟩
  | .cte cteName aliasName, found, h => by
    obtain ⟨cte, hfind, -⟩ := bind_eq_ok.mp h
    exact ⟨_, by rw [getAllColumns, hfind]; rfl⟩
  | .empty, found, h => nomatch h
  | .expressionList _ _, found, h => nomatch h

/-- **What the binder returns is one of the columns that `*` stands for.** -/
theorem Returns.mem (h : Returns ctes ref columnRef) :
    ∃ columns, getAllColumns ctes ref = .ok columns ∧ columnRef ∈ columns := by
  cases h with
  | star h hmem => exact ⟨_, h, hmem⟩
  | name h htable hfound hkept =>
    obtain ⟨found, hresolve, -⟩ := bind_eq_ok.mp h
    obtain ⟨columns, hcolumns⟩ := getAllColumns_of_resolve ref hresolve
    exact ⟨columns, hcolumns, resolved_mem ref htable hkept hfound hcolumns⟩

end Tables

end Journey.Binder
