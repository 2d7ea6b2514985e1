import Journey.Bustub.Binder.BindSelect
import Journey.Lib.Outcomes

/-!
# Journey.Bustub.Binder.Scoping — the binder names only what is there

A bound expression is scoped if all the columns in it are visible where it stands, and a bound statement is scoped if
its tables are those of the catalog and of the CTEs around it, and all its expressions are.

* `Scoped`, `RefScoped`, `StatementScoped`: what it means to be scoped.
* `bindExpression_meets`: **bound expressions are scoped** if their columns are.
* `resolveColumnInternal_meets`, `getAllColumns_meets`: the columns of a scoped table.
-/

namespace Journey.Binder

open SqlType Catalog Optimizer Planner

/-! ## Scoped expressions -/

section Expressions

mutual

/-- No part of the expression is `INVALID`, and the columns in it have names of the given kind. -/
def Scoped (P : List String → Prop) : BoundExpression → Prop
  | .invalid => False
  | .constant _ => True
  | .columnRef colName _ => P colName
  | .aggCall _ _ args => ScopedArgs P args
  | .star => True
  | .unaryOp _ arg => Scoped P arg
  | .binaryOp _ larg rarg => Scoped P larg ∧ Scoped P rarg
  | .alias_ _ child => Scoped P child
  | .funcCall _ args => ScopedArgs P args
  | .window _ args partitionBy orderBys startOffset endOffset _ _ => ScopedArgs P args ∧ ScopedArgs P partitionBy ∧
    ScopedOrders P orderBys ∧ ScopedOption P startOffset ∧ ScopedOption P endOffset

def ScopedArgs (P : List String → Prop) : List BoundExpression → Prop
  | [] => True
  | expr :: exprs => Scoped P expr ∧ ScopedArgs P exprs

def ScopedOrders (P : List String → Prop) : List BoundOrderBy → Prop
  | [] => True
  | ⟨_, _, expr⟩ :: orderBys => Scoped P expr ∧ ScopedOrders P orderBys

def ScopedOption (P : List String → Prop) : Option BoundExpression → Prop
  | none => True
  | some expr => Scoped P expr

end

/-- A clause that is missing is `INVALID`. -/
def ScopedClause (P : List String → Prop) (expr : BoundExpression) : Prop := expr = .invalid ∨ Scoped P expr

variable {P : List String → Prop} {exprs : List BoundExpression}

theorem scopedOption_iff {expr : Option BoundExpression} : ScopedOption P expr ↔ ∀ e ∈ expr, Scoped P e := by
  cases expr <;> simp [ScopedOption]

theorem scopedArgs_iff : ScopedArgs P exprs ↔ ∀ expr ∈ exprs, Scoped P expr := by
  induction exprs with
  | nil => simp [ScopedArgs]
  | cons expr exprs ih => simp [ScopedArgs, ih]

/-- The errors that a caller of the binder can expect: a thrown `Exception`, a failed `BUSTUB_ASSERT` or
`BUSTUB_ENSURE`. -/
def Thrown : Fault → Prop
  | .exception _ _ => True
  | .assertion => True
  | .terminate _ => True
  | _ => False

theorem thrown_exception (type : ExceptionType) (msg : String) : Thrown (.exception type msg) := trivial

/-- `HasAggregation` does not reach the default implementation. -/
theorem hasAggregation_meets {expr : BoundExpression} (h : Scoped P expr) :
    Meets expr.hasAggregation (fun _ => True) Thrown := by
  induction expr using BoundExpression.hasAggregation.induct with
  | case1 => exact absurd h id
  | case6 _ arg ih => exact ih h
  | case7 _ larg rarg ihl ihr =>
    refine Meets.bind (ihl h.1) ?_
    intro agg _
    cases agg with
    | true => trivial
    | false => exact ihr h.2
  | case8 _ child ih => exact ih h
  | _ => trivial

end Expressions

/-! ## Binding expressions -/

section Binding

mutual

/-- The column names in a node. -/
def PGNode.columns : PGNode → List (PGField × List PGField)
  | .columnRef head rest => [(head, rest)]
  | .aConst _ => []
  | .resTarget _ val => val.columns
  | .aStar => []
  | .funcCall _ args _ over_ => columnsOfList args ++ columnsOfOver over_
  | .aExpr _ _ lexpr rexpr => columnsOfOption lexpr ++ columnsOfOption rexpr
  | .boolExpr _ args => columnsOfList args
  | .other _ => []

def columnsOfList : List PGNode → List (PGField × List PGField)
  | [] => []
  | node :: nodes => node.columns ++ columnsOfList nodes

def columnsOfOption : Option PGNode → List (PGField × List PGField)
  | some node => node.columns
  | none => []

def columnsOfOver : Option PGWindowDef → List (PGField × List PGField)
  | some window => window.columns
  | none => []

def PGWindowDef.columns : PGWindowDef → List (PGField × List PGField)
  | ⟨partitionClause, orderClause, _, startOffset, endOffset⟩ =>
    columnsOfList partitionClause ++ columnsOfSorts orderClause ++ columnsOfOption startOffset ++
      columnsOfOption endOffset

def columnsOfSorts : List PGSortBy → List (PGField × List PGField)
  | [] => []
  | .sortBy _ _ node :: rest => node.columns ++ columnsOfSorts rest
  | .other :: rest => columnsOfSorts rest

end

variable {scope : Option BoundTableRef} {ctes : CTEScope} {P : List String → Prop} {E : Fault → Prop}
  {exprs : List BoundExpression}

/-- How the columns in a piece of the parse tree are bound. -/
def Columns (scope : Option BoundTableRef) (ctes : CTEScope) (P : List String → Prop) (E : Fault → Prop)
    (columns : List (PGField × List PGField)) : Prop :=
  ∀ c ∈ columns, Meets (bindColumnRef scope ctes c.1 c.2) (Scoped P) E

theorem columns_append {l l' : List (PGField × List PGField)} :
    Columns scope ctes P E (l ++ l') ↔ Columns scope ctes P E l ∧ Columns scope ctes P E l' := by
  simp only [Columns, List.mem_append, or_imp, forall_and]

theorem throwException_meets {α : Type} {Q : α → Prop} (hE : ∀ e, Thrown e → E e) (msg : String) :
    Meets (throwException msg) Q E := hE _ trivial

theorem throwNotImplemented_meets {α : Type} {Q : α → Prop} (hE : ∀ e, Thrown e → E e) (msg : String) :
    Meets (throwNotImplemented msg) Q E := hE _ trivial

theorem bindConstant_meets (hE : ∀ e, Thrown e → E e) (val : PGValue) : Meets (bindConstant val) (Scoped P) E := by
  unfold bindConstant
  split
  · split_ifs
    · trivial
    · exact hE _ trivial
  · trivial
  · trivial
  · trivial
  · exact hE _ trivial

theorem joinArgs_meets (hE : ∀ e, Thrown e → E e) (h : ScopedArgs P exprs) (opName atLeast : String) :
    Meets (joinArgs opName atLeast exprs) (Scoped P) E := by
  unfold joinArgs
  split
  · rename_i first second rest
    obtain ⟨hfirst, hsecond, hrest⟩ := h
    refine List.foldlRecOn (motive := Scoped P) rest _ ⟨hfirst, hsecond⟩ ?_
    intro expr hexpr arg harg
    exact ⟨hexpr, scopedArgs_iff.mp hrest arg harg⟩
  · exact throwException_meets hE _

theorem boolOf_meets (hE : ∀ e, Thrown e → E e) (h : ScopedArgs P exprs) (boolop : PGBoolExprType) :
    Meets (boolOf boolop exprs) (Scoped P) E := by
  cases boolop with
  | andExpr => exact joinArgs_meets hE h _ _
  | orExpr => exact joinArgs_meets hE h _ _
  | notExpr =>
    unfold boolOf
    dsimp only
    split
    · exact h.1
    · exact throwException_meets hE _

theorem operatorOf_meets (hE : ∀ e, Thrown e → E e) (name : String) {left right : Option BoundExpression}
    (hl : ∀ expr ∈ left, Scoped P expr) (hr : ∀ expr ∈ right, Scoped P expr) :
    Meets (operatorOf name left right) (Scoped P) E := by
  unfold operatorOf
  split
  · exact ⟨hl _ rfl, hr _ rfl⟩
  · rename_i right
    have hright : Scoped P right := hr right rfl
    exact hright
  · exact throwException_meets hE _

theorem callOf_meets (hE : ∀ e, Thrown e → E e) (functionName : String) (aggDistinct : Bool) (h : ScopedArgs P exprs)
    {window : Option (Except Fault BoundExpression)} (hwindow : ∀ bound ∈ window, Meets bound (Scoped P) E) :
    Meets (callOf functionName aggDistinct exprs window) (Scoped P) E := by
  unfold callOf
  refine Meets.ite (fun _ => ?_) (fun _ => h)
  cases window with
  | none => exact h
  | some bound => exact Meets.ite (fun _ => throwException_meets hE _) (fun _ => hwindow bound rfl)

theorem bindWindowFrame_meets (hE : ∀ e, Thrown e → E e) (frameOptions : UInt32) :
    Meets (bindWindowFrame frameOptions) (fun _ => True) E := by
  unfold bindWindowFrame
  refine Meets.ite (fun _ => throwException_meets hE _) ?_
  intro _
  trivial

theorem orderByType_meets (hE : ∀ e, Thrown e → E e) (dir : PGSortByDir) :
    Meets (orderByType dir) (fun _ => True) E := by
  cases dir with
  | using_ => exact throwNotImplemented_meets hE _
  | _ => trivial

mutual

/-- **Bound expressions are scoped** if their columns are. -/
theorem bindExpression_meets (hE : ∀ e, Thrown e → E e) : ∀ node : PGNode, Columns scope ctes P E node.columns →
    Meets (bindExpression scope ctes node) (Scoped P) E
  | .columnRef head rest, h => h (head, rest) (List.mem_singleton_self _)
  | .aConst val, _ => bindConstant_meets hE val
  | .resTarget name val, h => by
    refine Meets.bind (bindExpression_meets hE val h) ?_
    intro expr hexpr
    cases name <;> exact hexpr
  | .aStar, _ => trivial
  | .funcCall funcname args aggDistinct over_, h => by
    rw [PGNode.columns, columns_append] at h
    refine Meets.bind (bindChildren_meets hE args h.1) ?_
    intro children hchildren
    exact callOf_meets hE _ _ hchildren (bindOver_meets hE over_ h.2 _ hchildren)
  | .aExpr kind name lexpr rexpr, h => by
    rw [PGNode.columns, columns_append] at h
    cases kind with
    | other => exact throwException_meets hE _
    | op =>
      refine Meets.bind (bindOperand_meets hE lexpr h.1) ?_
      intro left hleft
      refine Meets.bind (bindOperand_meets hE rexpr h.2) ?_
      intro right hright
      exact operatorOf_meets hE name hleft hright
  | .boolExpr boolop args, h => by
    refine Meets.bind (bindExpressionList_meets hE args h) ?_
    intro exprs hexprs
    exact boolOf_meets hE hexprs boolop
  | .other _, _ => throwException_meets hE _

theorem bindChildren_meets (hE : ∀ e, Thrown e → E e) : ∀ nodes : List PGNode,
    Columns scope ctes P E (columnsOfList nodes) → Meets (bindChildren scope ctes nodes) (ScopedArgs P) E
  | [], _ => trivial
  | node :: nodes, h => by
    rw [columnsOfList, columns_append] at h
    refine Meets.bind (bindExpression_meets hE node h.1) ?_
    intro expr hexpr
    refine Meets.bind (bindChildren_meets hE nodes h.2) ?_
    intro exprs hexprs
    exact ⟨hexpr, hexprs⟩

theorem bindExpressionList_meets (hE : ∀ e, Thrown e → E e) : ∀ nodes : List PGNode,
    Columns scope ctes P E (columnsOfList nodes) → Meets (bindExpressionList scope ctes nodes) (ScopedArgs P) E
  | [], _ => trivial
  | node :: nodes, h => by
    rw [columnsOfList, columns_append] at h
    refine Meets.bind (bindExpression_meets hE node h.1) ?_
    intro expr hexpr
    refine Meets.ite (fun _ => throwException_meets hE _) ?_
    intro _
    refine Meets.bind (bindExpressionList_meets hE nodes h.2) ?_
    intro exprs hexprs
    exact ⟨hexpr, hexprs⟩

theorem bindOperand_meets (hE : ∀ e, Thrown e → E e) : ∀ node : Option PGNode,
    Columns scope ctes P E (columnsOfOption node) →
      Meets (bindOperand scope ctes node) (fun expr => ∀ e ∈ expr, Scoped P e) E
  | none, _ => fun _ he => by cases he
  | some node, h => by
    refine Meets.bind (bindExpression_meets hE node h) ?_
    rintro expr hexpr _ ⟨⟩
    exact hexpr

theorem bindOver_meets (hE : ∀ e, Thrown e → E e) : ∀ over_ : Option PGWindowDef,
    Columns scope ctes P E (columnsOfOver over_) → ∀ funcName {children : List BoundExpression}, ScopedArgs P children →
      ∀ bound ∈ bindOver scope ctes over_ funcName children, Meets bound (Scoped P) E
  | none, _, _, _, _ => fun _ hbound => by cases hbound
  | some window, h, funcName, children, hchildren => by
    rintro _ ⟨⟩
    exact bindWindowExpression_meets hE window h funcName hchildren

theorem bindWindowExpression_meets (hE : ∀ e, Thrown e → E e) : ∀ window : PGWindowDef,
    Columns scope ctes P E window.columns → ∀ funcName {children : List BoundExpression}, ScopedArgs P children →
      Meets (bindWindowExpression scope ctes window funcName children) (Scoped P) E
  | ⟨partitionClause, orderClause, frameOptions, startOffset, endOffset⟩, h, funcName, children, hchildren => by
    simp only [PGWindowDef.columns, columns_append] at h
    obtain ⟨⟨⟨hpartition, horder⟩, hstart⟩, hend⟩ := h
    refine Meets.bind (bindExpressionList_meets hE partitionClause hpartition) ?_
    intro partitionBy hpartitionBy
    refine Meets.bind (bindSort_meets hE orderClause horder) ?_
    intro orderBys horderBys
    refine Meets.bind (bindOperand_meets hE startOffset hstart) ?_
    intro startExpr hstartExpr
    refine Meets.bind (bindOperand_meets hE endOffset hend) ?_
    intro endExpr hendExpr
    refine Meets.bind (bindWindowFrame_meets hE frameOptions) ?_
    intro frame _
    exact ⟨hchildren, hpartitionBy, horderBys, scopedOption_iff.mpr hstartExpr, scopedOption_iff.mpr hendExpr⟩

theorem bindSort_meets (hE : ∀ e, Thrown e → E e) : ∀ sorts : List PGSortBy,
    Columns scope ctes P E (columnsOfSorts sorts) → Meets (bindSort scope ctes sorts) (ScopedOrders P) E
  | [], _ => trivial
  | .sortBy dir nulls node :: rest, h => by
    rw [columnsOfSorts, columns_append] at h
    refine Meets.bind (orderByType_meets hE dir) ?_
    intro type _
    refine Meets.bind (bindExpression_meets hE node h.1) ?_
    intro expr hexpr
    refine Meets.bind (bindSort_meets hE rest h.2) ?_
    intro orderBys horderBys
    exact ⟨hexpr, horderBys⟩
  | .other :: _, _ => throwNotImplemented_meets hE _

end

theorem bindClause_meets (hE : ∀ e, Thrown e → E e) {node : Option PGNode}
    (h : Columns scope ctes P E (columnsOfOption node)) : Meets (bindClause scope ctes node) (ScopedClause P) E := by
  cases node with
  | none => exact .inl rfl
  | some node =>
    exact Meets.imp (bindExpression_meets hE node h) (fun _ => .inr) (fun _ he => he)

end Binding

/-! ## Scoped statements -/

section Statements

variable (catalog : Catalog) (heap : Heap) (bound : ℕ)

/-- The names of the columns in a table reference: what the column is called in its table, behind the name of the table
or of the subquery.  A column of a CTE has the name of the CTE in front, or the alias of the reference, which it gets
where `*` stands for it. -/
def Visible (ctes : CTEScope) : BoundTableRef → List String → Prop
  | .baseTable table _ alias_ schema, name =>
    ∃ column ∈ schema.columns, name = [getBoundTableName table alias_, column.name]
  | .crossProduct left right, name => Visible ctes left name ∨ Visible ctes right name
  | .join _ left right _, name => Visible ctes left name ∨ Visible ctes right name
  | .subquery ref, name => ∃ own ∈ ref.selectListName, name = ref.alias_ :: own
  | .cte cteName alias_, name =>
    ∃ cte, findCTE ctes cteName = .ok cte ∧ ∃ own ∈ cte.selectListName, name = cteName :: own ∨ name = alias_ :: own
  | .empty, _ => False
  | .expressionList _ _, _ => False

/-- All the expressions of a statement. -/
structure ClausesScoped (P : List String → Prop) (statement : SelectStatement) (exprs : SelectExprs) : Prop where
  where_ : ScopedClause P statement.where_
  groupBy : ScopedArgs P statement.groupBy
  having : ScopedClause P exprs.having
  selectList : ScopedArgs P exprs.selectList
  limitCount : ScopedClause P statement.limitCount
  limitOffset : ScopedClause P statement.limitOffset
  sort : ScopedOrders P statement.sort

/-- The subquery has the names of its select list, which is one of those made so far. -/
structure NamedIn (ref : BoundSubqueryRef) : Prop where
  named : ref.Named heap
  made : ref.subquery.exprs < bound

mutual

/-- The tables are those of the catalog and of the CTEs in scope, and the conditions of joins see both sides. -/
inductive RefScoped : CTEScope → BoundTableRef → Prop
  | empty {ctes : CTEScope} : RefScoped ctes .empty
  | baseTable {ctes : CTEScope} {table : String} {alias_ : Option String} {info : TableInfo}
    (htable : catalog.getTable table = .ok (some info)) :
    RefScoped ctes (.baseTable table info.oid alias_ info.schema)
  | crossProduct {ctes : CTEScope} {left right : BoundTableRef} (hleft : RefScoped ctes left)
    (hright : RefScoped ctes right) : RefScoped ctes (.crossProduct left right)
  | join {ctes : CTEScope} {joinType : JoinType} {left right : BoundTableRef} {condition : BoundExpression}
    (hleft : RefScoped ctes left) (hright : RefScoped ctes right)
    (hcondition : Scoped (Visible ctes (.join joinType left right condition)) condition) :
    RefScoped ctes (.join joinType left right condition)
  | subquery {ctes : CTEScope} {ref : BoundSubqueryRef} (hnamed : NamedIn heap bound ref)
    (hstatement : StatementScoped ctes ref.subquery) : RefScoped ctes (.subquery ref)
  | cte {ctes : CTEScope} {cteName alias_ : String} {cte : BoundSubqueryRef} (hfind : findCTE ctes cteName = .ok cte)
    (hnamed : NamedIn heap bound cte) : RefScoped ctes (.cte cteName alias_)

/-- The statement, in the scope of the CTEs around it: a `VALUES` list with rows of one length and no columns, or a
statement over scoped tables. -/
inductive StatementScoped : CTEScope → SelectStatement → Prop
  | values {ctes : CTEScope} {exprs n : ℕ} {values : List (List BoundExpression)} {identifier : String}
    (hmade : exprs < bound) (hlist : heap exprs = valuesExprs identifier n) (hne : values ≠ [])
    (hlength : ∀ row ∈ values, row.length = n) (hrows : ∀ row ∈ values, ScopedArgs (fun _ => False) row) :
    StatementScoped ctes (valuesStatement exprs values identifier)
  | select {ctes : CTEScope} {statement : SelectStatement} (hmade : statement.exprs < bound)
    (hnamed : ∀ cte ∈ statement.ctes, NamedIn heap bound cte)
    (hctes : ∀ cte ∈ statement.ctes, StatementScoped ctes cte.subquery)
    (htable : RefScoped (scopeOf ctes statement) statement.table)
    (hclauses : ClausesScoped (Visible (scopeOf ctes statement) statement.table) statement (heap statement.exprs)) :
    StatementScoped ctes statement

end

variable {catalog : Catalog} {heap heap' : Heap} {bound bound' : ℕ} {ctes : CTEScope} {table : BoundTableRef}

theorem NamedIn.mono (hle : bound ≤ bound') (heq : ∀ a < bound, heap' a = heap a) {ref : BoundSubqueryRef}
    (h : NamedIn heap bound ref) : NamedIn heap' bound' ref :=
  ⟨h.named.congr (by rw [heq _ h.made]), h.made.trans_le hle⟩

mutual

/-- Statements that are made later change nothing. -/
theorem RefScoped.mono (hle : bound ≤ bound') (heq : ∀ a < bound, heap' a = heap a) {ctes : CTEScope}
    {table : BoundTableRef} : RefScoped catalog heap bound ctes table → RefScoped catalog heap' bound' ctes table
  | .empty => .empty
  | .baseTable htable => .baseTable htable
  | .crossProduct hleft hright => .crossProduct (hleft.mono hle heq) (hright.mono hle heq)
  | .join hleft hright hcondition => .join (hleft.mono hle heq) (hright.mono hle heq) hcondition
  | .subquery hnamed hstatement => .subquery (hnamed.mono hle heq) (hstatement.mono hle heq)
  | .cte hfind hnamed => .cte hfind (hnamed.mono hle heq)

theorem StatementScoped.mono (hle : bound ≤ bound') (heq : ∀ a < bound, heap' a = heap a) {ctes : CTEScope}
    {statement : SelectStatement} :
    StatementScoped catalog heap bound ctes statement → StatementScoped catalog heap' bound' ctes statement
  | .values hmade hlist hne hlength hrows =>
    .values (hmade.trans_le hle) ((heq _ hmade).trans hlist) hne hlength hrows
  | .select hmade hnamed hctes htable hclauses =>
    .select (hmade.trans_le hle) (fun cte hcte => (hnamed cte hcte).mono hle heq)
      (fun cte hcte => (hctes cte hcte).mono hle heq) (htable.mono hle heq) (heq _ hmade ▸ hclauses)

end

/-- What is known of a name, and that it is what the computation returns. -/
theorem resolveEither_meets {resolve : List String → Except Fault (Option (List String))} {tableName owner : String}
    {ambiguous : Fault} (hambiguous : Thrown ambiguous)
    (h : ∀ name, Meets (resolve name) (fun found => ∀ rest ∈ found, rest ≠ []) Thrown) (colName : List String) :
    Meets (resolveEither resolve tableName owner ambiguous colName)
      (fun found => ∀ name ∈ found, 2 ≤ name.length) Thrown := by
  have hlong : ∀ rest : List String, rest ≠ [] → 2 ≤ (owner :: rest).length := by
    intro rest hrest
    have hpos := List.length_pos_iff.mpr hrest
    simp only [List.length_cons]
    omega
  refine Meets.bind (h colName) ?_
  intro direct hdirect
  refine Meets.bind (P := fun found => ∀ rest ∈ found, rest ≠ []) ?_ ?_
  · cases strip tableName colName with
    | none => exact fun _ hrest => by cases hrest
    | some rest => exact h rest
  · intro stripped hstripped
    cases stripped with
    | some rest =>
      cases direct with
      | some _ => exact hambiguous
      | none =>
        rintro _ ⟨⟩
        exact hlong rest (hstripped rest rfl)
    | none =>
      cases direct with
      | none => exact fun _ hname => by cases hname
      | some rest =>
        rintro _ ⟨⟩
        exact hlong rest (hdirect rest rfl)

theorem onlyMatch_meets {α : Type} {isMatch : α → Bool} {refOf : α → List String} {ambiguous : Fault}
    (hambiguous : Thrown ambiguous) {as : List α} (h : ∀ a ∈ as, refOf a ≠ []) {found : Option (List String)}
    (hfound : ∀ name ∈ found, name ≠ []) :
    Meets (onlyMatch isMatch refOf ambiguous as found) (fun found => ∀ name ∈ found, name ≠ []) Thrown := by
  induction as generalizing found with
  | nil => exact hfound
  | cons a as ih =>
    have hrest : ∀ a ∈ as, refOf a ≠ [] := fun b hb => h b (.tail a hb)
    unfold onlyMatch
    split_ifs
    · cases found with
      | some _ => exact hambiguous
      | none =>
        refine ih hrest ?_
        rintro _ ⟨⟩
        exact h a (.head as)
    · exact ih hrest hfound

theorem resolveSubquery_meets {ref : BoundSubqueryRef} (h : ref.Named heap) (aliasName : String) (colName : List String) :
    Meets (resolveColumnRefFromSubqueryRef ref aliasName colName) (fun found => ∀ name ∈ found, 2 ≤ name.length)
      Thrown := by
  refine resolveEither_meets (thrown_exception _ _) ?_ colName
  intro name
  exact onlyMatch_meets (thrown_exception _ _) (fun _ hmem => h.ne_nil hmem) (fun _ hnone => by cases hnone)

theorem eitherSide_meets {P : List String → Prop} (colName : List String) {left right : Option (List String)}
    (hleft : ∀ name ∈ left, P name) (hright : ∀ name ∈ right, P name) :
    Meets (eitherSide colName left right) (fun found => ∀ name ∈ found, P name) Thrown := by
  cases left with
  | none => exact hright
  | some _ =>
    cases right with
    | none => exact hleft
    | some _ => trivial

/-- **A name is looked up**, and what is found has the name of a table in front; or an `Exception` is thrown. -/
theorem resolveColumnInternal_meets (colName : List String) : ∀ {table : BoundTableRef},
    RefScoped catalog heap bound ctes table →
      Meets (resolveColumnInternal ctes table colName) (fun found => ∀ name ∈ found, 2 ≤ name.length) Thrown
  | .empty, _ => trivial
  | .baseTable table _ alias_ schema, _ => by
    refine resolveEither_meets (thrown_exception _ _) ?_ colName
    intro name
    unfold resolveColumnRefFromSchema
    split
    · exact onlyMatch_meets (thrown_exception _ _) (fun _ _ => List.cons_ne_nil _ _) (fun _ hnone => by cases hnone)
    · exact fun _ hnone => by cases hnone
  | .crossProduct left right, h => by
    cases h with
    | crossProduct hleft hright =>
      refine Meets.bind (resolveColumnInternal_meets colName hleft) ?_
      intro _ hl
      refine Meets.bind (resolveColumnInternal_meets colName hright) ?_
      intro _ hr
      exact eitherSide_meets colName hl hr
  | .join _ left right _, h => by
    cases h with
    | join hleft hright _ =>
      refine Meets.bind (resolveColumnInternal_meets colName hleft) ?_
      intro _ hl
      refine Meets.bind (resolveColumnInternal_meets colName hright) ?_
      intro _ hr
      exact eitherSide_meets colName hl hr
  | .expressionList _ _, _ => trivial
  | .subquery ref, h => by
    cases h with
    | subquery hnamed _ => exact resolveSubquery_meets hnamed.named _ colName
  | .cte cteName alias_, h => by
    cases h with
    | cte hfind hnamed =>
      rw [resolveColumnInternal, hfind]
      exact resolveSubquery_meets hnamed.named alias_ colName

theorem resolveColumn_meets (h : RefScoped catalog heap bound ctes table) (colName : List String) :
    Meets (resolveColumn ctes table colName) (fun name => 2 ≤ name.length) Thrown := by
  refine Meets.bind (resolveColumnInternal_meets colName h) ?_
  intro found hfound
  cases found with
  | none => trivial
  | some name => exact hfound name rfl

theorem subqueryColumns_long {ref : BoundSubqueryRef} (h : ref.Named heap) :
    ∀ name ∈ subqueryColumns ref, 2 ≤ name.length := by
  intro name hname
  obtain ⟨rest, hrest, rfl⟩ := List.mem_map.mp hname
  have hpos := List.length_pos_iff.mpr (h.ne_nil hrest)
  simp only [List.length_cons]
  omega

/-- **`*` is expanded** to names with the name of a table in front; or an `Exception` is thrown. -/
theorem getAllColumns_meets : ∀ {table : BoundTableRef}, RefScoped catalog heap bound ctes table →
    Meets (getAllColumns ctes table) (fun columns => ∀ name ∈ columns, 2 ≤ name.length) Thrown
  | .empty, _ => trivial
  | .baseTable _ _ _ schema, _ => by
    intro name hname
    obtain ⟨column, -, rfl⟩ := List.mem_map.mp hname
    exact le_refl _
  | .crossProduct left right, h => by
    cases h with
    | crossProduct hleft hright =>
      refine Meets.bind (getAllColumns_meets hleft) ?_
      intro _ hl
      refine Meets.bind (getAllColumns_meets hright) ?_
      intro _ hr name hname
      exact (List.mem_append.mp hname).elim (hl name) (hr name)
  | .join _ left right _, h => by
    cases h with
    | join hleft hright _ =>
      refine Meets.bind (getAllColumns_meets hleft) ?_
      intro _ hl
      refine Meets.bind (getAllColumns_meets hright) ?_
      intro _ hr name hname
      exact (List.mem_append.mp hname).elim (hl name) (hr name)
  | .expressionList _ _, _ => trivial
  | .subquery ref, h => by
    cases h with
    | subquery hnamed _ => exact subqueryColumns_long hnamed.named
  | .cte cteName alias_, h => by
    cases h with
    | cte hfind hnamed =>
      rw [getAllColumns, hfind]
      intro name hname
      obtain ⟨rest, hrest, rfl⟩ := List.mem_map.mp hname
      rw [List.length_set]
      exact subqueryColumns_long hnamed.named rest hrest

end Statements

end Journey.Binder
