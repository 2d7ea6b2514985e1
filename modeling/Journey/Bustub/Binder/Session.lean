import Journey.Bustub.Binder.ScopedStatements

/-!
# Journey.Bustub.Binder.Session — one binder for all the statements of a query

A query is a list of statements, and all of them are bound by one binder.  Each statement is executed before the next
one is bound: the catalog may be another one by then, and the planner has written to the select lists.

* `bindInsert`, `bindDelete`, `bindStatement`: the statements around `SELECT`.
* `Session`: the states that the binder is in when the next statement comes.
* `bind_scoped`: **the binder returns scoped statements**, and where it fails it throws, if no `VALUES` list names a
  column.
-/

namespace Journey.Binder

open SqlType Catalog Optimizer Planner

/-! ## Statements -/

section Model

/-- `PGInsertStmt`: whether it names columns, the table, and the statement that gives the rows; this is the null pointer
for `DEFAULT VALUES`. -/
structure PGInsertStmt where
  cols : Bool
  relname : String
  selectStmt : Option PGSelectStmt

/-- `PGDeleteStmt`. -/
structure PGDeleteStmt where
  relname : String
  whereClause : Option PGNode

/-- `PGNode`, where it is a statement; `other` has a tag that `BindStatement` does not know. -/
inductive PGStatement
  | raw (stmt : PGStatement)
  | insert (stmt : PGInsertStmt)
  | select (stmt : PGSelectStmt)
  | explain (options : Option (List String)) (query : PGStatement)
  | delete (stmt : PGDeleteStmt)
  | update (stmt : PGUpdateStmt PGNode)
  | other (tag : String)

/-- `InsertStatement`. -/
structure InsertStatement where
  table : BoundBaseTableRef
  select : SelectStatement

/-- `DeleteStatement`. -/
structure DeleteStatement where
  table : BoundBaseTableRef
  expr : BoundExpression

/-- `BoundStatement` with its classes. -/
inductive BoundStatement
  | insert (stmt : InsertStatement)
  | select (stmt : SelectStatement)
  | explain (options : UInt8) (stmt : BoundStatement)
  | delete (stmt : DeleteStatement)
  | update (stmt : UpdateStatement)

variable (catalog : Catalog)

/-- `BindInsert`. -/
def bindInsert (stmt : PGInsertStmt) (st : BinderState) : Except Fault (InsertStatement × BinderState) :=
  if stmt.cols then throwNotImplemented "insert only supports all columns, don't specify columns"
  else do
    let table ← bindBaseTableRef catalog stmt.relname none
    if startsWith table.table "__" then throwException ("invalid table for insert: " ++ table.table)
    else
      match stmt.selectStmt with
      | none => .error .outOfBounds
      | some selectStmt => do
        let (select, st) ← bindSelect catalog selectStmt st
        return (⟨table, select⟩, st)

/-- `BindDelete`. -/
def bindDelete (stmt : PGDeleteStmt) (st : BinderState) : Except Fault (DeleteStatement × BinderState) := do
  let table ← bindBaseTableRef catalog stmt.relname none
  newContext st fun st => do
    let st := { st with scope := some table.toRef }
    let expr ← (match stmt.whereClause with
      | some whereClause => bindExpression st.scope st.cteScope whereClause
      | none => .ok (.constant (.boolean 1)))
    return (⟨table, expr⟩, st)

/-- `ExplainOptions`. -/
def explainBinder : UInt8 := 1

def explainPlanner : UInt8 := 2

def explainOptimizer : UInt8 := 4

def explainSchema : UInt8 := 8

/-- The option of a name; other names are ignored. -/
def explainOption (defname : String) : UInt8 :=
  if defname = "planner" ∨ defname = "p" then explainPlanner
  else if defname = "binder" ∨ defname = "b" then explainBinder
  else if defname = "optimizer" ∨ defname = "o" then explainOptimizer
  else if defname = "schema" ∨ defname = "s" then explainSchema
  else 0

/-- The options of an `EXPLAIN`. -/
def explainOptions : Option (List String) → UInt8
  | none => explainPlanner ||| explainOptimizer ||| explainBinder ||| explainSchema
  | some options => options.foldl (fun flags defname => flags ||| explainOption defname) 0

/-- `BindStatement`, and with it `BindExplain`. -/
def bindStatement : PGStatement → BinderState → Except Fault (BoundStatement × BinderState)
  | .raw stmt, st => bindStatement stmt st
  | .insert stmt, st => do
    let (insert, st) ← bindInsert catalog stmt st
    return (.insert insert, st)
  | .select stmt, st => do
    let (select, st) ← bindSelect catalog stmt st
    return (.select select, st)
  | .explain options query, st => do
    let (statement, st) ← bindStatement query st
    return (.explain (explainOptions options) statement, st)
  | .delete stmt, st => do
    let (delete, st) ← bindDelete catalog stmt st
    return (.delete delete, st)
  | .update stmt, st => do
    let update ← bindUpdate catalog (fun table node => bindExpression (some table) st.cteScope node) stmt
    return (.update update, st)
  | .other tag, _ => throwNotImplemented tag

end Model

/-! ## Scoped statements -/

section Scoped

variable (catalog : Catalog) (heap : Heap) (bound : ℕ)

/-- The table is one of the catalog. -/
def InCatalog (table : BoundBaseTableRef) : Prop :=
  ∃ info, catalog.getTable table.table = .ok (some info) ∧ table.oid = info.oid ∧ table.schema = info.schema

/-- The tables are those of the catalog, `INSERT` has none whose name is reserved, and all expressions are scoped.  The
column of an assignment is the null pointer or one of the table. -/
def BoundStatement.Scoped : BoundStatement → Prop
  | .insert stmt =>
    InCatalog catalog stmt.table ∧ startsWith stmt.table.table "__" = false ∧
      StatementScoped catalog heap bound none stmt.select
  | .select stmt => StatementScoped catalog heap bound none stmt
  | .explain _ stmt => stmt.Scoped
  | .delete stmt => InCatalog catalog stmt.table ∧ Binder.Scoped (Visible none stmt.table.toRef) stmt.expr
  | .update stmt =>
    InCatalog catalog stmt.table ∧ Binder.Scoped (Visible none stmt.table.toRef) stmt.filterExpr ∧
      ∀ target ∈ stmt.targetExpr, (∀ name ∈ target.1, Visible none stmt.table.toRef name) ∧
        Binder.Scoped (Visible none stmt.table.toRef) target.2

/-- No `VALUES` list names a column, all names have texts, and an `INSERT` has rows. -/
def PGStatement.Plain : PGStatement → Prop
  | .raw stmt => stmt.Plain
  | .insert stmt => ∃ selectStmt, stmt.selectStmt = some selectStmt ∧ selectStmt.Plain
  | .select stmt => stmt.Plain
  | .explain _ query => query.Plain
  | .delete stmt => ∀ c ∈ columnsOfOption stmt.whereClause, Legible c
  | .update stmt =>
    (∀ c ∈ columnsOfOption stmt.whereClause, Legible c) ∧
      ∀ target ∈ stmt.targetList, ∀ c ∈ target.2.columns, Legible c
  | .other _ => True

variable {catalog : Catalog} {st : BinderState}

theorem bindBaseTableRef_meets (relname : String) :
    Meets (bindBaseTableRef catalog relname none) (InCatalog catalog) Thrown := by
  unfold bindBaseTableRef
  cases hget : catalog.getTable relname with
  | error _ => trivial
  | ok info =>
    cases info with
    | none => trivial
    | some info => exact ⟨info, hget, rfl, rfl⟩

theorem InCatalog.scopedTable {table : BoundBaseTableRef} (h : InCatalog catalog table) (heap : Heap) (bound : ℕ)
    (ctes : CTEScope) : RefScoped catalog heap bound ctes table.toRef := by
  obtain ⟨info, hget, hoid, hschema⟩ := h
  unfold BoundBaseTableRef.toRef
  rw [hoid, hschema]
  exact .baseTable hget

/-- An expression over a table of the catalog. -/
theorem bindOver_table {table : BoundBaseTableRef} (h : InCatalog catalog table) (ctes : CTEScope) (node : PGNode) :
    Meets (bindExpression (some table.toRef) ctes node) (Scoped (Visible ctes table.toRef))
      (fun e => (∀ c ∈ node.columns, Legible c) → Thrown e) :=
  bindExpression_meets (fun _ he _ => he) node
    (columns_visible (h.scopedTable (fun _ => ⟨.invalid, []⟩) 0 ctes) id)

theorem bindWhere_meets {table : BoundBaseTableRef} (h : InCatalog catalog table) (ctes : CTEScope)
    {whereClause : Option PGNode} {node : PGNode} (hwhere : whereClause = some node) :
    Meets (bindExpression (some table.toRef) ctes node) (Scoped (Visible ctes table.toRef))
      (fun e => (∀ c ∈ columnsOfOption whereClause, Legible c) → Thrown e) := by
  subst hwhere
  exact bindOver_table h ctes node

theorem bindInsert_meets (hst : Good st) (stmt : PGInsertStmt) :
    Meets (bindInsert catalog stmt st)
      (fun r => Frame st r.2 ∧ InCatalog catalog r.1.table ∧ startsWith r.1.table.table "__" = false ∧
        StatementScoped catalog r.2.heap r.2.next st.cteScope r.1.select)
      (fun e => PGStatement.Plain (.insert stmt) → Thrown e) := by
  refine Meets.ite (fun _ _ => trivial) (fun _ => ?_)
  refine Meets.bind ((bindBaseTableRef_meets stmt.relname).imp (fun _ ht => ht) fun _ he _ => he) ?_
  intro table htable
  refine Meets.ite (fun _ _ => trivial) (fun hname => ?_)
  cases hselect : stmt.selectStmt with
  | none =>
    rintro ⟨selectStmt, hsome, -⟩
    rw [hselect] at hsome
    cases hsome
  | some selectStmt =>
    refine Meets.bind ((bindSelect_meets selectStmt st hst).imp (fun _ hr => hr) fun _ he hp => he ?_) ?_
    · obtain ⟨_, hsome, hplain⟩ := hp
      rw [hselect] at hsome
      cases hsome
      exact hplain
    · rintro ⟨select, st'⟩ ⟨hframe, hstatement⟩
      exact ⟨hframe, htable, eq_false_of_ne_true hname, hstatement⟩

theorem bindDelete_meets (stmt : PGDeleteStmt) :
    Meets (bindDelete catalog stmt st)
      (fun r => Frame st r.2 ∧ InCatalog catalog r.1.table ∧
        Scoped (Visible st.cteScope r.1.table.toRef) r.1.expr)
      (fun e => PGStatement.Plain (.delete stmt) → Thrown e) := by
  refine Meets.bind ((bindBaseTableRef_meets stmt.relname).imp (fun _ ht => ht) fun _ he _ => he) ?_
  intro table htable
  refine newContext_meets (Q := fun (delete : DeleteStatement) _ => InCatalog catalog delete.table ∧
    Scoped (Visible st.cteScope delete.table.toRef) delete.expr) (fun _ _ _ _ hq => hq) ?_
  refine Meets.bind (P := Scoped (Visible st.cteScope table.toRef)) ?_ ?_
  · split
    · rename_i hwhere
      exact bindWhere_meets htable st.cteScope hwhere
    · trivial
  intro expr hexpr
  exact ⟨⟨le_refl _, le_refl _, fun _ _ => rfl⟩, htable, hexpr⟩

/-- The binder finds the column of an assignment in the table, or leaves the null pointer. -/
theorem bindTarget_meets {table : BoundBaseTableRef} (h : InCatalog catalog table) (ctes : CTEScope)
    (target : String × PGNode) :
    Meets (bindTarget (fun table node => bindExpression (some table) ctes node) table target)
      (fun r => (∀ name ∈ r.1, Visible ctes table.toRef name) ∧ Scoped (Visible ctes table.toRef) r.2)
      (fun e => (∀ c ∈ target.2.columns, Legible c) → Thrown e) := by
  have hfound := resolveColumnInternal_meets [target.1] (h.scopedTable (fun _ => ⟨.invalid, []⟩) 0 ctes)
  refine Meets.bind (P := fun found => ∀ name ∈ found, Visible ctes table.toRef name) ?_ ?_
  · show Meets (resolveColumnInternal ctes table.toRef [target.1]) _ _
    cases hresolve : resolveColumnInternal ctes table.toRef [target.1] with
    | error e => exact fun _ => hfound.of_error hresolve
    | ok found =>
      rintro name hname
      have hsome : resolveColumnInternal ctes table.toRef [target.1] = .ok (some name) := by
        rw [hresolve, Option.mem_def.mp hname]
      exact visible_of_resolve _ hsome
  · intro found hvisible
    refine Meets.bind (bindOver_table h ctes target.2) ?_
    intro expr hexpr
    exact ⟨hvisible, hexpr⟩

theorem bindUpdate_meets (ctes : CTEScope) (stmt : PGUpdateStmt PGNode) :
    Meets (bindUpdate catalog (fun table node => bindExpression (some table) ctes node) stmt)
      (fun update => InCatalog catalog update.table ∧ Scoped (Visible ctes update.table.toRef) update.filterExpr ∧
        ∀ target ∈ update.targetExpr, (∀ name ∈ target.1, Visible ctes update.table.toRef name) ∧
          Scoped (Visible ctes update.table.toRef) target.2)
      (fun e => PGStatement.Plain (.update stmt) → Thrown e) := by
  refine Meets.ite (fun _ _ => trivial) (fun _ => ?_)
  refine Meets.ite (fun _ _ => trivial) (fun _ => ?_)
  refine Meets.bind ((bindBaseTableRef_meets stmt.relname).imp (fun _ ht => ht) fun _ he _ => he) ?_
  intro table htable
  refine Meets.bind (P := Scoped (Visible ctes table.toRef)) ?_ ?_
  · split
    · rename_i hwhere
      exact (bindWhere_meets htable ctes hwhere).imp (fun _ hr => hr) fun _ he hp => he hp.1
    · trivial
  intro filterExpr hfilter
  refine Meets.bind (Meets.mapM fun target htarget =>
    (bindTarget_meets htable ctes target).imp (fun _ hr => hr) fun _ he hp => he (hp.2 target htarget)) ?_
  intro targetExpr htargets
  exact ⟨htable, hfilter, htargets⟩

/-- **One statement**, when no CTEs are in scope. -/
theorem bindStatement_meets (hctes : st.cteScope = none) (stmt : PGStatement) :
    Meets (bindStatement catalog stmt st) (fun r => Frame st r.2 ∧ r.1.Scoped catalog r.2.heap r.2.next)
      (fun e => stmt.Plain → Thrown e) := by
  have hst : Good st := by
    intro list hlist
    rw [hctes] at hlist
    cases hlist
  induction stmt with
  | raw stmt ih => exact ih
  | insert stmt =>
    refine Meets.bind (bindInsert_meets hst stmt) ?_
    rintro ⟨insert, st'⟩ ⟨hframe, htable, hname, hstatement⟩
    rw [hctes] at hstatement
    exact ⟨hframe, htable, hname, hstatement⟩
  | select stmt =>
    refine Meets.bind (bindSelect_meets stmt st hst) ?_
    rintro ⟨select, st'⟩ ⟨hframe, hstatement⟩
    rw [hctes] at hstatement
    exact ⟨hframe, hstatement⟩
  | explain options query ih =>
    refine Meets.bind ih ?_
    rintro ⟨statement, st'⟩ ⟨hframe, hstatement⟩
    exact ⟨hframe, hstatement⟩
  | delete stmt =>
    refine Meets.bind (bindDelete_meets stmt) ?_
    rintro ⟨delete, st'⟩ ⟨hframe, hdelete⟩
    rw [hctes] at hdelete
    exact ⟨hframe, hdelete⟩
  | update stmt =>
    refine Meets.bind (bindUpdate_meets st.cteScope stmt) ?_
    intro update hupdate
    rw [hctes] at hupdate
    exact ⟨.refl st, hupdate⟩
  | other tag => exact fun _ => trivial

end Scoped

/-! ## Sessions -/

section Sessions

/-- The states of the binder of `ExecuteSqlTxn` between two statements.  The statements may be bound over any catalogs,
and what they point to may be written to in between. -/
inductive Session : BinderState → Prop
  | new : Session .new
  | bind {st st' : BinderState} (h : Session st) (catalog : Catalog) (stmt : PGStatement) (statement : BoundStatement)
    (hbind : bindStatement catalog stmt st = .ok (statement, st')) : Session st'
  | write {st : BinderState} (h : Session st) (heap : Heap) : Session { st with heap := heap }

variable {st : BinderState}

/-- **Between statements there are no scopes.** -/
theorem Session.scopes (h : Session st) : st.scope = none ∧ st.cteScope = none := by
  induction h with
  | new => exact ⟨rfl, rfl⟩
  | bind _ catalog stmt statement hbind ih =>
    obtain ⟨hframe, -⟩ := (bindStatement_meets ih.2 stmt).of_ok hbind
    exact ⟨hframe.scope.trans ih.1, hframe.cteScope.trans ih.2⟩
  | write _ _ ih => exact ih

/-- **The binder returns scoped statements.**  Whatever statements came before: if it returns one, then its tables are
those of the catalog and of the `WITH` clauses around it, every column in it is one that is visible where it stands, no
expression is `INVALID`, the rows of a `VALUES` list have one length, and the scopes are what they were.  If it fails it
throws an exception or an assertion fails, provided that the names have texts, no `VALUES` list names a column, and an
`INSERT` has rows. -/
theorem bind_scoped (hsession : Session st) (catalog : Catalog) (stmt : PGStatement) :
    (∀ statement st', bindStatement catalog stmt st = .ok (statement, st') →
      statement.Scoped catalog st'.heap st'.next ∧ st'.scope = none ∧ st'.cteScope = none) ∧
      ∀ e, bindStatement catalog stmt st = .error e → stmt.Plain → Thrown e := by
  have hmeets : Meets (bindStatement catalog stmt st)
      (fun r => Frame st r.2 ∧ r.1.Scoped catalog r.2.heap r.2.next) (fun e => stmt.Plain → Thrown e) :=
    bindStatement_meets hsession.scopes.2 stmt
  refine ⟨?_, fun e he => hmeets.of_error he⟩
  intro statement st' hok
  obtain ⟨hframe, hscoped⟩ := hmeets.of_ok hok
  exact ⟨hscoped, hframe.scope.trans hsession.scopes.1, hframe.cteScope.trans hsession.scopes.2⟩

/-- `x`, as a column. -/
def columnOfName (name : String) : PGNode := .columnRef (.string name) []

/-- `SELECT item FROM from` with no other clauses, behind the CTEs. -/
def plainSelect (withClause : List PGCommonTableExpr) (fromClause : List PGTableNode) (item : PGNode) : PGSelectStmt :=
  ⟨[], false, withClause, fromClause, none, [item], none, [], none, none, none, []⟩

/-- `VALUES (item)`. -/
def plainValues (item : PGNode) : PGSelectStmt :=
  ⟨[[item]], false, [], [], none, [], none, [], none, none, none, []⟩

/-- `WITH c AS (SELECT 1 AS x) SELECT item FROM c, (VALUES (2)) AS v`. -/
def treeC (item : PGNode) : PGStatement :=
  .raw (.select (plainSelect [.select "c" false (plainSelect [] [] (.resTarget (some "x") (.aConst (.integer 1))))]
    [.rangeVar "c" none, .rangeSubselect false (plainValues (.aConst (.integer 2))) (some "v")] item))

/-- `x` is the column of the CTE, and there is no `y`. -/
theorem bind_scoped_treeC :
    (∃ statement st', bindStatement Catalog.new (treeC (columnOfName "x")) .new = .ok (statement, st') ∧
      statement.Scoped Catalog.new st'.heap st'.next) ∧
      ∃ e, bindStatement Catalog.new (treeC (columnOfName "y")) .new = .error e ∧ Thrown e := by
  have hx : (bindStatement Catalog.new (treeC (columnOfName "x")) .new).isOk = true := by decide +kernel
  have hy : (bindStatement Catalog.new (treeC (columnOfName "y")) .new).isOk = false := by decide +kernel
  constructor
  · cases hout : bindStatement Catalog.new (treeC (columnOfName "x")) .new with
    | error e =>
      rw [hout] at hx
      cases hx
    | ok out =>
      exact ⟨out.1, out.2, rfl, ((bind_scoped Session.new Catalog.new (treeC (columnOfName "x"))).1 out.1 out.2 hout).1⟩
  · cases he : bindStatement Catalog.new (treeC (columnOfName "y")) .new with
    | ok out =>
      rw [he] at hy
      cases hy
    | error e =>
      refine ⟨e, rfl, ?_⟩
      refine (bind_scoped Session.new Catalog.new (treeC (columnOfName "y"))).2 e he ?_
      simp [treeC, plainSelect, plainValues, columnOfName, PGStatement.Plain, PGSelectStmt.Plain, PlainCTEs, PlainTables,
        PGTableNode.Plain, columnsOfList, columnsOfOption, columnsOfSorts, PGNode.columns, Legible, Nameless]

-- `VALUES (x)` looks for `x` where there is no scope
example : bindStatement Catalog.new (.select (plainValues (columnOfName "x"))) .new = .error .outOfBounds := rfl

end Sessions

end Journey.Binder
