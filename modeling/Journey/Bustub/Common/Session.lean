import Journey.Lib.Machine
import Journey.Lib.Maps
import Journey.Bustub.Type.Value

/-!
# Journey.Bustub.Common.Session — the transactions of a session

`ExecuteSql` runs a script or a meta-command in the current transaction or, if there is none, in one of its own; `BEGIN`,
`COMMIT`, `ROLLBACK` and `\txn` change which one is current.  `log` is a history variable: the calls of `Commit` and
`Abort` made during the last `ExecuteSql`.

* `executeSql`: the code, down to `begin`, `commit` and `abort` of the transaction manager.
* `Orderly`: the calls that do not end a transaction twice, lose one, or switch to a finished one.
* `session_discipline`: over any run of orderly calls, after each of them the current transaction is unfinished, nothing
  was ended twice, a transaction of the call's own was ended once, and no null pointer was followed.
-/

namespace Journey.Session

open SqlType

/-! ## The code -/

section Model

/-- `TransactionState`. -/
inductive TransactionState
  | running
  | tainted
  | committed
  | aborted
deriving DecidableEq, Repr

/-- `IsolationLevel`. -/
inductive IsolationLevel
  | readUncommitted
  | snapshotIsolation
  | serializable
deriving DecidableEq, Repr

/-- `Transaction`: what `Commit` and `Abort` read of it. -/
structure Transaction where
  isolationLevel : IsolationLevel
  state : TransactionState
deriving DecidableEq, Repr

/-- A call of `Commit` or `Abort`, with the state of the transaction when it was made. -/
structure EndCall where
  commit : Bool
  txn : ℤ
  state : TransactionState
deriving DecidableEq, Repr

/-- `BusTubInstance`, as far as transactions go. -/
structure Instance where
  managedTxnMode : Bool
  currentTxn : Option ℤ
  txnMap : UnorderedMap ℤ Transaction
  nextTxnId : ℤ
  sessionVariables : UnorderedMap String String
  log : List EndCall

/-- `TXN_START_ID`. -/
def txnStartId : ℤ := 2 ^ 62

/-- A statement of a script.  An ordinary one may mark the transaction as tainted, and it says whether the execution
succeeded or throws. -/
inductive Statement
  | begin
  | commit
  | rollback
  | variableSet (name value : String)
  | ordinary (taints : Bool) (result : Except (ExceptionType × String) Bool)

/-- The argument of `ExecuteSql`: `\txn` with the words it is split into, another meta-command, or a script as the parser
leaves it. -/
inductive Sql
  | txnCommand (params : List String)
  | command (result : Except (ExceptionType × String) Unit)
  | script (parsed : Except (ExceptionType × String) (List Statement))

/-- `Exception`, thrown without a type. -/
def exception (msg : String) : Fault := .exception .invalid msg

/-- `TransactionManager::Begin`. -/
def begin (s : Instance) (isolationLevel : IsolationLevel) : ℤ × Instance :=
  (s.nextTxnId,
    { s with
      nextTxnId := s.nextTxnId + 1
      txnMap := s.txnMap.emplace s.nextTxnId ⟨isolationLevel, .running⟩ })

/-- `state_ = state`. -/
def setState (s : Instance) (txn : ℤ) (t : Transaction) (state : TransactionState) : Instance :=
  { s with txnMap := s.txnMap.insert txn { t with state } }

/-- `TransactionManager::Abort`. -/
def abort (s : Instance) (txn : ℤ) : Except Fault Unit × Instance :=
  match s.txnMap.lookup txn with
  | none => (.error .undefined, s)
  | some t =>
    let s := { s with log := s.log ++ [⟨false, txn, t.state⟩] }
    if t.state ≠ .running ∧ t.state ≠ .tainted then (.error (exception "txn not in running / tainted state"), s)
    else (.ok (), setState s txn t .aborted)

/-- `TransactionManager::VerifyTxn`. -/
def verifyTxn (_ : Transaction) : Bool := true

/-- `TransactionManager::Commit`. -/
def commit (s : Instance) (txn : ℤ) : Except Fault Bool × Instance :=
  match s.txnMap.lookup txn with
  | none => (.error .undefined, s)
  | some t =>
    let s := { s with log := s.log ++ [⟨true, txn, t.state⟩] }
    if t.state ≠ .running then (.error (exception "txn not in running state"), s)
    else if t.isolationLevel = .serializable ∧ verifyTxn t = false then
      match abort s txn with
      | (.error e, s) => (.error e, s)
      | (.ok (), s) => (.ok false, s)
    else (.ok true, setState s txn t .committed)

/-- `GetSessionVariable`. -/
def getSessionVariable (sessionVariables : UnorderedMap String String) (key : String) : String :=
  (sessionVariables.lookup key).getD ""

/-- `dump_current_txn`, which reads the current transaction. -/
def dumpCurrentTxn (s : Instance) : Except Fault Unit :=
  match s.currentTxn with
  | none => .error .undefined
  | some _ => .ok ()

/-- The isolation level that `BEGIN` asks for. -/
def globalIsolationLevel (sessionVariables : UnorderedMap String String) : Option IsolationLevel :=
  let isoLvl := (getSessionVariable sessionVariables "global_isolation_level").toLower
  if isoLvl = "serializable" then some .serializable
  else if isoLvl = "snapshot_isolation" ∨ isoLvl = "" then some .snapshotIsolation
  else none

/-- `HandleTxnStatement` for `BEGIN`, after its assertion. -/
def handleBegin (s : Instance) : Except Fault Unit × Instance :=
  if s.managedTxnMode then
    match globalIsolationLevel s.sessionVariables with
    | none => (.error (exception "unsupported global_isolation_level"), s)
    | some isoLvl =>
      let (txn, s) := begin s isoLvl
      let s := { s with currentTxn := some txn }
      (dumpCurrentTxn s, s)
  else (.ok (), s)

/-- The end of `HandleTxnStatement` for `COMMIT` and `ROLLBACK`. -/
def leave {α : Type} : Except Fault α × Instance → Except Fault Unit × Instance
  | (.error e, s) => (.error e, s)
  | (.ok _, s) => (.ok (), { s with currentTxn := none })

/-- The assertion of `HandleTxnStatement`. -/
def matched (s : Instance) (txn : ℤ) : Bool := !s.managedTxnMode || s.currentTxn.all (· = txn)

/-- What is left to do after a command without a result. -/
def succeed : Except Fault Unit × Instance → Except Fault Bool × Instance
  | (.error e, s) => (.error e, s)
  | (.ok (), s) => (.ok true, s)

/-- An ordinary statement may mark its transaction as tainted (`SetTainted`, while it is running). -/
def taint (s : Instance) (txn : ℤ) (taints : Bool) : Instance :=
  match s.txnMap.lookup txn with
  | some t => if taints ∧ t.state = .running then setState s txn t .tainted else s
  | none => s

/-- One statement of a script in the transaction `txn`: whether it succeeded. -/
def executeStatement (s : Instance) (txn : ℤ) : Statement → Except Fault Bool × Instance
  | .begin => if matched s txn then succeed (handleBegin s) else (.error .assertion, s)
  | .commit => if matched s txn then succeed (leave (commit s txn)) else (.error .assertion, s)
  | .rollback => if matched s txn then succeed (leave (abort s txn)) else (.error .assertion, s)
  | .variableSet name value => (.ok true, { s with sessionVariables := s.sessionVariables.insert name value })
  | .ordinary taints (.error (type, msg)) => (.error (.exception type msg), taint s txn taints)
  | .ordinary taints (.ok isSuccessful) => (.ok isSuccessful, taint s txn taints)

/-- The statements of a script one after the other. -/
def executeScript (s : Instance) (txn : ℤ) : List Statement → Bool → Except Fault Bool × Instance
  | [], isSuccessful => (.ok isSuccessful, s)
  | stmt :: stmts, isSuccessful =>
    match executeStatement s txn stmt with
    | (.error e, s) => (.error e, s)
    | (.ok b, s) => executeScript s txn stmts (isSuccessful && b)

/-- `std::stoi`. -/
def stoi (str : String) : Except Fault ℤ :=
  let cs := str.toList.dropWhile fun c => c = ' ' || ('\t' ≤ c && c ≤ '\r')
  let (negative, cs) :=
    match cs with
    | '-' :: cs => (true, cs)
    | '+' :: cs => (false, cs)
    | cs => (false, cs)
  let digits := cs.takeWhile Char.isDigit
  let n : ℤ := digits.foldl (fun n c => 10 * n + (c.toNat - '0'.toNat : ℕ)) 0
  let n := if negative then -n else n
  if digits = [] then .error (.logicError "stoi")
  else if n < -2 ^ 31 ∨ 2 ^ 31 ≤ n then .error (.logicError "stoi")
  else .ok n

/-- The transaction that `\txn` finds for a number. -/
def findTxn (txnMap : UnorderedMap ℤ Transaction) (txnId : ℤ) : Option ℤ :=
  if txnId ∈ txnMap then some txnId
  else if txnId + txnStartId ∈ txnMap then some (txnId + txnStartId)
  else none

/-- `CmdTxn`. -/
def cmdTxn (s : Instance) (params : List String) : Except Fault Unit × Instance :=
  if s.managedTxnMode then
    match params with
    | [_] => (if s.currentTxn.isSome then dumpCurrentTxn s else .ok (), s)
    | [_, param1] =>
      if param1 = "gc" then (.error (.logicError "not implemented"), s)
      else
        match stoi param1 with
        | .error e => (.error e, s)
        | .ok txnId =>
          if txnId = -1 then
            match dumpCurrentTxn s with
            | .error e => (.error e, s)
            | .ok () => (.ok (), { s with currentTxn := none })
          else
            match findTxn s.txnMap txnId with
            | none => (.ok (), s)
            | some txn =>
              let s := { s with currentTxn := some txn }
              (dumpCurrentTxn s, s)
    | _ => (.ok (), s)
  else (.ok (), s)

/-- `ExecuteSqlTxn`. -/
def executeSqlTxn (s : Instance) (txn : ℤ) : Sql → Except Fault Bool × Instance
  | .txnCommand params => succeed (cmdTxn s params)
  | .command (.error (type, msg)) => (.error (.exception type msg), s)
  | .command (.ok ()) => (.ok true, s)
  | .script (.error (type, msg)) => (.error (.exception type msg), s)
  | .script (.ok stmts) => executeScript s txn stmts true

/-- The beginning of `ExecuteSql`: the transaction of the call. -/
def enter (s : Instance) : ℤ × Instance :=
  match s.currentTxn with
  | some txn => (txn, s)
  | none => begin s .snapshotIsolation

/-- The `try` block of `ExecuteSql`. -/
def executeAndCommit (isLocalTxn : Bool) (s : Instance) (txn : ℤ) (sql : Sql) : Except Fault Bool × Instance :=
  match executeSqlTxn s txn sql with
  | (.error e, s) => (.error e, s)
  | (.ok result, s) =>
    if isLocalTxn then (.ok result, s)
    else
      match commit s txn with
      | (.error e, s) => (.error e, s)
      | (.ok res, s) => (if res then .ok result else .error (exception "failed to commit txn"), s)

/-- The `catch` block of `ExecuteSql`, for `bustub::Exception`s only. -/
def rescue (txn : ℤ) : Except Fault Bool × Instance → Except Fault Bool × Instance
  | (.error (.exception type msg), s) =>
    match abort s txn with
    | (.error e, s) => (.error e, s)
    | (.ok (), s) => (.error (.exception type msg), { s with currentTxn := none })
  | (result, s) => (result, s)

/-- `ExecuteSql`. -/
def executeSql (s : Instance) (sql : Sql) : Except Fault Bool × Instance :=
  let isLocalTxn := s.currentTxn.isSome
  let (txn, s) := enter { s with log := [] }
  rescue txn (executeAndCommit isLocalTxn s txn sql)

/-- The state after the calls. -/
def after (s : Instance) (sqls : List Sql) : Instance := sqls.foldl (fun s sql => (executeSql s sql).2) s

end Model

/-! ## Discipline -/

section Discipline

/-- RUNNING or TAINTED. -/
def TransactionState.unfinished : TransactionState → Bool
  | .running => true
  | .tainted => true
  | .committed => false
  | .aborted => false

/-- `txn` is RUNNING or TAINTED. -/
def Instance.unfinished (s : Instance) (txn : ℤ) : Bool := (s.txnMap.lookup txn).any (·.state.unfinished)

/-- The call ended the transaction `txn`. -/
def EndCall.ends (txn : ℤ) (e : EndCall) : Bool :=
  e.txn = txn && if e.commit then e.state = .running else e.state.unfinished

/-- What a call of `ExecuteSql` in the state `s` should leave behind. -/
structure Disciplined (s : Instance) (result : Except Fault Bool × Instance) : Prop where
  /-- The current transaction is null, RUNNING or TAINTED. -/
  current : ∀ txn, result.2.currentTxn = some txn → result.2.unfinished txn = true
  /-- `Commit` and `Abort` were called on RUNNING and TAINTED transactions only. -/
  calls : ∀ e ∈ result.2.log, e.state.unfinished = true
  /-- The transaction that the call started on its own was ended once. -/
  own : s.currentTxn = none → result.2.log.countP (·.ends s.nextTxnId) = 1
  /-- No null pointer was followed. -/
  null : result.1 ≠ .error .undefined
  /-- `txn mismatched??` did not fail. -/
  assertion : result.1 ≠ .error .assertion

/-- The statements of a script end the transaction of the call at most once, and not at all if it is the call's own; no
transaction statement follows a `BEGIN`, and nothing throws after a `COMMIT` or a `ROLLBACK`.  (The `COMMIT` of a tainted
transaction throws.) -/
def orderlyScript (own : Bool) : List Statement → UnorderedMap String String → (tainted ended swapped : Bool) → Bool
  | [], _, _, ended, _ => !(own && ended)
  | .ordinary _ (.error _) :: _, _, _, ended, _ => !ended
  | .ordinary taints (.ok _) :: stmts, vars, tainted, ended, swapped =>
    orderlyScript own stmts vars (tainted || taints) ended swapped
  | .variableSet name value :: stmts, vars, tainted, ended, swapped =>
    orderlyScript own stmts (vars.insert name value) tainted ended swapped
  | .begin :: stmts, vars, tainted, ended, swapped =>
    !swapped && if (globalIsolationLevel vars).isSome then orderlyScript own stmts vars tainted ended true else !ended
  | .commit :: stmts, vars, tainted, ended, swapped =>
    !swapped && !ended && (tainted || orderlyScript own stmts vars tainted true false)
  | .rollback :: stmts, vars, tainted, ended, swapped =>
    !swapped && !ended && orderlyScript own stmts vars tainted true false

/-- The current transaction is tainted. -/
def Instance.tainted (s : Instance) : Bool :=
  s.currentTxn.any fun txn => (s.txnMap.lookup txn).any fun t => t.state = .tainted

/-- `\txn` with this argument is harmless: it names no transaction, or one that was RUNNING or TAINTED before the call;
without a current transaction it is neither `-1`, nor `gc`, nor something that is no number. -/
def orderlyParam (s : Instance) (param1 : String) : Bool :=
  if param1 = "gc" then s.currentTxn.isSome
  else
    match stoi param1 with
    | .error _ => s.currentTxn.isSome
    | .ok txnId =>
      if txnId = -1 then s.currentTxn.isSome else (findTxn (enter s).2.txnMap txnId).all s.unfinished

/-- The calls that keep the discipline. -/
def Orderly (s : Instance) : Sql → Prop
  | .txnCommand [_, param1] => orderlyParam s param1 = true
  | .script (.ok stmts) =>
    orderlyScript s.currentTxn.isNone stmts s.sessionVariables s.tainted false false = true
  | _ => True

/-- Managed transaction mode, with ids that are used once. -/
structure Managed (s : Instance) : Prop where
  mode : s.managedTxnMode = true
  ids : ∀ id ∈ s.txnMap, id < s.nextTxnId

/-- What holds between calls. -/
structure Sound (s : Instance) : Prop extends Managed s where
  current : ∀ txn, s.currentTxn = some txn → s.unfinished txn = true

end Discipline

/-! ## One call -/

section Steps

variable {s : Instance} {txn : ℤ} {t : Transaction}

theorem lookup_setState (s : Instance) (txn : ℤ) (t : Transaction) (state : TransactionState) (id : ℤ) :
    (setState s txn t state).txnMap.lookup id = if id = txn then some { t with state } else s.txnMap.lookup id :=
  lookup_insert_eq _ _ _ _

theorem unfinished_setState {c : ℤ} (hc : c ≠ txn) (state : TransactionState) :
    (setState s txn t state).unfinished c = s.unfinished c := by
  unfold Instance.unfinished
  rw [lookup_setState, if_neg hc]

theorem unfinished_of_lookup (ht : s.txnMap.lookup txn = some t) : s.unfinished txn = t.state.unfinished := by
  simp [Instance.unfinished, ht]

theorem exists_of_unfinished (h : s.unfinished txn = true) :
    ∃ t, s.txnMap.lookup txn = some t ∧ t.state.unfinished = true := by
  unfold Instance.unfinished at h
  simpa [Option.any_eq_true] using h

theorem managed_setState (h : Managed s) (ht : s.txnMap.lookup txn = some t) (state : TransactionState) :
    Managed (setState s txn t state) := by
  refine ⟨h.mode, ?_⟩
  intro id hid
  rcases AList.mem_insert _ |>.mp hid with rfl | hid
  · exact h.ids id (mem_of_lookup ht)
  · exact h.ids id hid

theorem abort_unfinished (ht : s.txnMap.lookup txn = some t) (hstate : t.state.unfinished = true) :
    abort s txn = (.ok (), setState { s with log := s.log ++ [⟨false, txn, t.state⟩] } txn t .aborted) := by
  simp only [abort, ht]
  rw [if_neg]
  rintro ⟨hrunning, htainted⟩
  cases hs : t.state <;> simp_all [TransactionState.unfinished]

theorem commit_running (ht : s.txnMap.lookup txn = some t) (hstate : t.state = .running) :
    commit s txn = (.ok true, setState { s with log := s.log ++ [⟨true, txn, t.state⟩] } txn t .committed) := by
  simp [commit, ht, hstate, verifyTxn]

theorem commit_tainted (ht : s.txnMap.lookup txn = some t) (hstate : t.state = .tainted) :
    commit s txn =
      (.error (exception "txn not in running state"), { s with log := s.log ++ [⟨true, txn, t.state⟩] }) := by
  simp [commit, ht, hstate]

/-- A new transaction is RUNNING, and the others stay as they are. -/
theorem begin_spec (h : Managed s) (isoLvl : IsolationLevel) :
    Managed (begin s isoLvl).2 ∧ (begin s isoLvl).2.txnMap.lookup s.nextTxnId = some ⟨isoLvl, .running⟩ ∧
      ∀ id, id ≠ s.nextTxnId → (begin s isoLvl).2.txnMap.lookup id = s.txnMap.lookup id := by
  have hfresh : s.nextTxnId ∉ s.txnMap := fun hmem => lt_irrefl _ (h.ids _ hmem)
  have hlookup := lookup_emplace (⟨isoLvl, .running⟩ : Transaction) hfresh
  refine ⟨⟨h.mode, ?_⟩, ?_, ?_⟩
  · intro id hid
    show id < s.nextTxnId + 1
    by_cases heq : id = s.nextTxnId
    · omega
    · have hmem : id ∈ s.txnMap := by
        rw [← AList.lookup_isSome] at hid ⊢
        rwa [show (begin s isoLvl).2.txnMap.lookup id = _ from hlookup id, if_neg heq] at hid
      have := h.ids id hmem
      omega
  · exact (hlookup _).trans (if_pos rfl)
  · intro id hid
    exact (hlookup id).trans (if_neg hid)

/-- In the middle of a script: what became of the transaction of the call, and which one is current. -/
structure Mid (own : Bool) (txn : ℤ) (tainted ended swapped : Bool) (s : Instance) : Prop extends Managed s where
  state : ∃ t, s.txnMap.lookup txn = some t ∧ (ended = false → t.state = if tainted then .tainted else .running)
  current : if swapped then ∃ c, s.currentTxn = some c ∧ c ≠ txn ∧ s.unfinished c = true
    else s.currentTxn = if own || ended then none else some txn
  log : if ended then ∃ e, s.log = [e] ∧ e.state.unfinished = true else s.log = []

/-- The script is done. -/
structure Done (own : Bool) (txn : ℤ) (s : Instance) : Prop extends Managed s where
  current : ∀ c, s.currentTxn = some c → s.unfinished c = true ∧ (own = true → c ≠ txn)
  log : ∀ e ∈ s.log, e.state.unfinished = true
  mine : own = true → s.log = [] ∧ s.unfinished txn = true

/-- The script has thrown an `Exception`. -/
structure Threw (txn : ℤ) (s : Instance) : Prop extends Managed s where
  mine : s.unfinished txn = true
  log : ∀ e ∈ s.log, e.state.unfinished = true ∧ e.ends txn = false

variable {own tainted ended swapped : Bool}

theorem Mid.unfinished (h : Mid own txn tainted false swapped s) :
    ∃ t, s.txnMap.lookup txn = some t ∧ t.state.unfinished = true := by
  obtain ⟨t, ht, hstate⟩ := h.state
  refine ⟨t, ht, ?_⟩
  rw [hstate rfl]
  cases tainted <;> rfl

theorem Mid.threw (h : Mid own txn tainted false swapped s) : Threw txn s := by
  obtain ⟨t, ht, hstate⟩ := h.unfinished
  refine ⟨h.toManaged, ?_, ?_⟩
  · rw [unfinished_of_lookup ht, hstate]
  · have hlog : s.log = [] := h.log
    rw [hlog]
    simp

theorem Mid.done (h : Mid own txn tainted ended swapped s) (hown : own = true → ended = false) : Done own txn s := by
  refine ⟨h.toManaged, ?_, ?_, ?_⟩
  · intro c hc
    have hcurrent := h.current
    cases swapped with
    | true =>
      obtain ⟨c', hc', hne, hc2⟩ := hcurrent
      rw [hc] at hc'
      cases hc'
      exact ⟨hc2, fun _ => hne⟩
    | false =>
      simp only [Bool.false_eq_true, if_false] at hcurrent
      rw [hc] at hcurrent
      split_ifs at hcurrent with hcase
      rw [Bool.not_eq_true, Bool.or_eq_false_iff] at hcase
      obtain ⟨rfl, rfl⟩ := hcase
      obtain ⟨t, ht, hstate⟩ := h.unfinished
      rw [Option.some.inj hcurrent, unfinished_of_lookup ht]
      exact ⟨hstate, fun hcon => by cases hcon⟩
  · intro e he
    have hlog := h.log
    cases ended with
    | true =>
      obtain ⟨e', he', hstate⟩ := hlog
      rw [he', List.mem_singleton] at he
      rwa [he]
    | false =>
      simp only [Bool.false_eq_true, if_false] at hlog
      rw [hlog] at he
      cases he
  · intro hmine
    cases hown hmine
    obtain ⟨t, ht, hstate⟩ := h.unfinished
    refine ⟨h.log, ?_⟩
    rw [unfinished_of_lookup ht, hstate]

/-- How a statement or a script of an orderly call goes: on, or with an `Exception`. -/
def Goes (txn : ℤ) (Next : Bool → Instance → Prop) (result : Except Fault Bool × Instance) : Prop :=
  (∃ b s', result = (.ok b, s') ∧ Next b s') ∨
    ∃ type msg s', result = (.error (.exception type msg), s') ∧ Threw txn s'

/-- The assertion holds as long as no other transaction was begun. -/
theorem Mid.matched (h : Mid own txn tainted ended false s) : matched s txn = true := by
  have hcurrent : s.currentTxn = if own || ended then none else some txn := h.current
  unfold Session.matched
  rw [hcurrent]
  split_ifs <;> simp

theorem handleBegin_goes (h : Mid own txn tainted ended false s) {stmts : List Statement}
    (horderly : orderlyScript own (.begin :: stmts) s.sessionVariables tainted ended false = true) :
    Goes txn (fun _ s' => Mid own txn tainted ended true s' ∧
      orderlyScript own stmts s'.sessionVariables tainted ended true = true) (succeed (handleBegin s)) := by
  simp only [orderlyScript, Bool.not_false, Bool.true_and] at horderly
  simp only [handleBegin, h.mode, if_true]
  cases hiso : globalIsolationLevel s.sessionVariables with
  | none =>
    rw [hiso] at horderly
    simp only [Option.isSome_none, Bool.false_eq_true, if_false, Bool.not_eq_true'] at horderly
    subst horderly
    exact .inr ⟨_, _, s, rfl, h.threw⟩
  | some isoLvl =>
    rw [hiso] at horderly
    simp only [Option.isSome_some, if_true] at horderly
    obtain ⟨hmanaged, hnew, hold⟩ := begin_spec h.toManaged isoLvl
    obtain ⟨t, ht, hstate⟩ := h.state
    have hne : s.nextTxnId ≠ txn := by
      rintro rfl
      exact lt_irrefl _ (h.ids _ (mem_of_lookup ht))
    refine .inl ⟨true, { (begin s isoLvl).2 with currentTxn := some s.nextTxnId }, rfl, ?_, horderly⟩
    refine ⟨⟨hmanaged.mode, hmanaged.ids⟩, ⟨t, (hold txn hne.symm).trans ht, hstate⟩, ?_, h.log⟩
    exact ⟨s.nextTxnId, rfl, hne, by simp [Instance.unfinished, hnew, TransactionState.unfinished]⟩

/-- After the transaction of the call was ended by a statement. -/
theorem Mid.finish {e : EndCall} (h : Mid own txn tainted false false s) (ht : s.txnMap.lookup txn = some t)
    (he : e.state.unfinished = true) (state : TransactionState) :
    Mid own txn tainted true false { setState { s with log := s.log ++ [e] } txn t state with currentTxn := none } := by
  have hmanaged := managed_setState h.toManaged ht state
  have hlog : s.log = [] := h.log
  refine ⟨⟨hmanaged.mode, hmanaged.ids⟩, ⟨{ t with state }, ?_, ?_⟩, ?_, ?_⟩
  · exact (lookup_setState s txn t state txn).trans (if_pos rfl)
  · intro hcon
    cases hcon
  · simp
  · exact ⟨e, by simp [setState, hlog], he⟩

theorem commit_goes (h : Mid own txn tainted false false s) {stmts : List Statement}
    (horderly : orderlyScript own (.commit :: stmts) s.sessionVariables tainted false false = true) :
    Goes txn (fun _ s' => Mid own txn tainted true false s' ∧
      orderlyScript own stmts s'.sessionVariables tainted true false = true) (succeed (leave (commit s txn))) := by
  simp only [orderlyScript, Bool.not_false, Bool.true_and, Bool.or_eq_true] at horderly
  obtain ⟨t, ht, hstate⟩ := h.state
  have hlog : s.log = [] := h.log
  cases tainted with
  | true =>
    rw [commit_tainted ht (hstate rfl)]
    refine .inr ⟨_, _, _, rfl, ⟨h.mode, h.ids⟩, ?_, ?_⟩
    · refine (unfinished_of_lookup ht).trans ?_
      rw [hstate rfl]
      rfl
    · intro e he
      rw [hlog, List.nil_append, List.mem_singleton] at he
      rw [he, hstate rfl]
      exact ⟨rfl, by simp [EndCall.ends]⟩
  | false =>
    rw [commit_running ht (hstate rfl)]
    have hrest := horderly.resolve_left (by simp)
    refine .inl ⟨_, _, rfl, h.finish ht ?_ _, hrest⟩
    rw [hstate rfl]
    rfl

theorem abort_goes (h : Mid own txn tainted false false s) {stmts : List Statement}
    (horderly : orderlyScript own (.rollback :: stmts) s.sessionVariables tainted false false = true) :
    Goes txn (fun _ s' => Mid own txn tainted true false s' ∧
      orderlyScript own stmts s'.sessionVariables tainted true false = true) (succeed (leave (abort s txn))) := by
  simp only [orderlyScript, Bool.not_false, Bool.true_and] at horderly
  obtain ⟨t, ht, hstate⟩ := h.unfinished
  rw [abort_unfinished ht hstate]
  exact .inl ⟨_, _, rfl, h.finish ht hstate _, horderly⟩

/-- A statement may taint the transaction of the call. -/
theorem Mid.taint (h : Mid own txn tainted ended swapped s) (taints : Bool) :
    Mid own txn (tainted || taints) ended swapped (taint s txn taints) := by
  obtain ⟨t, ht, hstate⟩ := h.state
  simp only [Session.taint, ht]
  split_ifs with hcase
  · obtain ⟨rfl, -⟩ := hcase
    refine ⟨managed_setState h.toManaged ht _, ⟨{ t with state := .tainted }, ?_, ?_⟩, ?_, h.log⟩
    · rw [lookup_setState, if_pos rfl]
    · intro _
      simp
    · have hcurrent := h.current
      cases swapped with
      | false => exact hcurrent
      | true =>
        obtain ⟨c, hc, hne, hun⟩ := hcurrent
        exact ⟨c, hc, hne, (unfinished_setState hne _).trans hun⟩
  · refine ⟨h.toManaged, ⟨t, ht, ?_⟩, h.current, h.log⟩
    intro hended
    cases taints with
    | false => simpa using hstate hended
    | true =>
      -- it is not running, so it was tainted before
      have htainted : tainted = true := by
        by_contra hno
        rw [Bool.not_eq_true] at hno
        rw [hno] at hstate
        exact hcase ⟨rfl, hstate hended⟩
      subst htainted
      simpa using hstate hended

theorem sessionVariables_taint (s : Instance) (txn : ℤ) (taints : Bool) :
    (taint s txn taints).sessionVariables = s.sessionVariables := by
  unfold taint
  split
  · split_ifs <;> rfl
  · rfl

/-- **Step**: one statement of an orderly script. -/
theorem executeStatement_goes {stmt : Statement} {stmts : List Statement} (h : Mid own txn tainted ended swapped s)
    (horderly : orderlyScript own (stmt :: stmts) s.sessionVariables tainted ended swapped = true) :
    Goes txn (fun _ s' => ∃ tainted' ended' swapped', Mid own txn tainted' ended' swapped' s' ∧
      orderlyScript own stmts s'.sessionVariables tainted' ended' swapped' = true) (executeStatement s txn stmt) := by
  cases stmt with
  | begin =>
    have hswapped : swapped = false := by
      by_contra hcon
      simp [orderlyScript, hcon] at horderly
    subst hswapped
    simp only [executeStatement, h.matched, if_true]
    exact (handleBegin_goes h horderly).imp (fun ⟨b, s', heq, hnext⟩ => ⟨b, s', heq, _, _, _, hnext⟩) id
  | commit =>
    have hswapped : swapped = false ∧ ended = false := by
      simp only [orderlyScript, Bool.and_eq_true, Bool.not_eq_true'] at horderly
      exact horderly.1
    obtain ⟨rfl, rfl⟩ := hswapped
    simp only [executeStatement, h.matched, if_true]
    exact (commit_goes h horderly).imp (fun ⟨b, s', heq, hnext⟩ => ⟨b, s', heq, _, _, _, hnext⟩) id
  | rollback =>
    have hswapped : swapped = false ∧ ended = false := by
      simp only [orderlyScript, Bool.and_eq_true, Bool.not_eq_true'] at horderly
      exact horderly.1
    obtain ⟨rfl, rfl⟩ := hswapped
    simp only [executeStatement, h.matched, if_true]
    exact (abort_goes h horderly).imp (fun ⟨b, s', heq, hnext⟩ => ⟨b, s', heq, _, _, _, hnext⟩) id
  | variableSet name value =>
    exact .inl ⟨_, _, rfl, _, _, _, ⟨⟨h.mode, h.ids⟩, h.state, h.current, h.log⟩, horderly⟩
  | ordinary taints result =>
    have htaint := h.taint taints
    rcases result with ⟨type, msg⟩ | b
    · have hended : ended = false := by simpa [orderlyScript] using horderly
      subst hended
      exact .inr ⟨type, msg, _, rfl, htaint.threw⟩
    · refine .inl ⟨b, _, rfl, _, _, _, htaint, ?_⟩
      rw [sessionVariables_taint]
      exact horderly

/-- **Run**: an orderly script. -/
theorem executeScript_goes (stmts : List Statement) (b : Bool) (h : Mid own txn tainted ended swapped s)
    (horderly : orderlyScript own stmts s.sessionVariables tainted ended swapped = true) :
    Goes txn (fun _ s' => Done own txn s') (executeScript s txn stmts b) := by
  induction stmts generalizing s tainted ended swapped b with
  | nil =>
    refine .inl ⟨b, s, rfl, h.done ?_⟩
    intro hown
    simpa [orderlyScript, hown] using horderly
  | cons stmt stmts ih =>
    unfold executeScript
    rcases executeStatement_goes h horderly with ⟨b', s', heq, _, _, _, hmid, hrest⟩ | ⟨type, msg, s', heq, hthrew⟩
    · rw [heq]
      exact ih _ hmid hrest
    · rw [heq]
      exact .inr ⟨type, msg, s', rfl, hthrew⟩

/-- How a call ends: `Disciplined`, for the transaction `txn` of the call. -/
structure Settled (own : Bool) (txn : ℤ) (result : Except Fault Bool × Instance) : Prop where
  managed : Managed result.2
  current : ∀ c, result.2.currentTxn = some c → result.2.unfinished c = true
  calls : ∀ e ∈ result.2.log, e.state.unfinished = true
  once : own = true → result.2.log.countP (·.ends txn) = 1
  null : result.1 ≠ .error .undefined
  assertion : result.1 ≠ .error .assertion

/-- The `catch` block ends the transaction of the call. -/
theorem rescue_threw (h : Threw txn s) (type : ExceptionType) (msg : String) :
    Settled own txn (rescue txn (.error (.exception type msg), s)) := by
  obtain ⟨t, ht, hstate⟩ := exists_of_unfinished h.mine
  simp only [rescue, abort_unfinished ht hstate]
  have hmanaged := managed_setState h.toManaged ht .aborted
  refine ⟨⟨hmanaged.mode, hmanaged.ids⟩, ?_, ?_, ?_, by simp, by simp⟩
  · intro c hc
    cases hc
  · intro e he
    rcases List.mem_append.mp he with hold | hnew
    · exact (h.log e hold).1
    · rw [List.mem_singleton.mp hnew]
      exact hstate
  · intro _
    have hzero : s.log.countP (·.ends txn) = 0 := List.countP_eq_zero.mpr fun e he => by simp [(h.log e he).2]
    show (s.log ++ [(⟨false, txn, t.state⟩ : EndCall)]).countP (·.ends txn) = 1
    rw [List.countP_append, hzero]
    simp [EndCall.ends, hstate]

/-- The end of the `try` block: a transaction of the call's own is committed. -/
theorem Done.settled {isLocalTxn : Bool} {sql : Sql} {s₁ : Instance} {b : Bool} (h : Done (!isLocalTxn) txn s)
    (heq : executeSqlTxn s₁ txn sql = (.ok b, s)) :
    Settled (!isLocalTxn) txn (rescue txn (executeAndCommit isLocalTxn s₁ txn sql)) := by
  unfold executeAndCommit
  rw [heq]
  cases isLocalTxn with
  | true => exact ⟨h.toManaged, fun c hc => (h.current c hc).1, h.log, by simp, by simp [rescue], by simp [rescue]⟩
  | false =>
    obtain ⟨hlog, hmine⟩ := h.mine rfl
    obtain ⟨t, ht, hstate⟩ := exists_of_unfinished hmine
    simp only [Bool.false_eq_true, if_false]
    by_cases hrunning : t.state = .running
    · rw [commit_running ht hrunning]
      have hmanaged := managed_setState h.toManaged ht .committed
      refine ⟨⟨hmanaged.mode, hmanaged.ids⟩, ?_, ?_, ?_, by simp [rescue], by simp [rescue]⟩
      · intro c hc
        obtain ⟨hc1, hc2⟩ := h.current c hc
        exact (unfinished_setState (hc2 rfl) _).trans hc1
      · intro e he
        have he' : e ∈ s.log ++ [⟨true, txn, t.state⟩] := he
        rw [hlog, List.nil_append, List.mem_singleton] at he'
        rw [he', hstate]
      · intro _
        show (s.log ++ [(⟨true, txn, t.state⟩ : EndCall)]).countP (·.ends txn) = 1
        rw [hlog]
        simp [EndCall.ends, hrunning]
    · have htainted : t.state = .tainted := by
        cases hs : t.state <;> simp_all [TransactionState.unfinished]
      have hthrew : Threw txn { s with log := s.log ++ [⟨true, txn, t.state⟩] } := by
        refine ⟨⟨h.mode, h.ids⟩, (unfinished_of_lookup ht).trans hstate, ?_⟩
        intro e he
        rw [hlog, List.nil_append, List.mem_singleton] at he
        rw [he]
        exact ⟨hstate, by simp [EndCall.ends, htainted]⟩
      rw [commit_tainted ht htainted]
      exact rescue_threw hthrew _ _

/-- A script, or a meta-command, that goes on or throws an `Exception`. -/
theorem Goes.settled {isLocalTxn : Bool} {sql : Sql} {s₁ : Instance}
    (h : Goes txn (fun _ s' => Done (!isLocalTxn) txn s') (executeSqlTxn s₁ txn sql)) :
    Settled (!isLocalTxn) txn (rescue txn (executeAndCommit isLocalTxn s₁ txn sql)) := by
  rcases h with ⟨b, s', heq, hdone⟩ | ⟨type, msg, s', heq, hthrew⟩
  · exact hdone.settled heq
  · unfold executeAndCommit
    rw [heq]
    exact rescue_threw hthrew type msg

/-- The transaction of the call, when it begins. -/
theorem enter_mid (h : Sound s) :
    Mid s.currentTxn.isNone (enter { s with log := [] }).1 s.tainted false false (enter { s with log := [] }).2 := by
  unfold enter Instance.tainted
  cases hcurrent : s.currentTxn with
  | some c =>
    obtain ⟨t, ht, hstate⟩ := exists_of_unfinished (h.current c hcurrent)
    refine ⟨⟨h.mode, h.ids⟩, ⟨t, ht, ?_⟩, rfl, rfl⟩
    intro _
    simp only [Option.any_some, ht]
    cases hs : t.state <;> simp_all [TransactionState.unfinished]
  | none =>
    have hbase : Managed { s with currentTxn := none, log := [] } := ⟨h.mode, h.ids⟩
    obtain ⟨hmanaged, hnew, -⟩ := begin_spec hbase .snapshotIsolation
    exact ⟨hmanaged, ⟨_, hnew, fun _ => rfl⟩, rfl, rfl⟩

/-- A transaction that is unfinished before the call is so after its beginning, and is not the one it started. -/
theorem enter_unfinished (h : Sound s) {c : ℤ} (hc : s.unfinished c = true) :
    (enter { s with log := [] }).2.unfinished c = true ∧
      (s.currentTxn.isNone = true → c ≠ (enter { s with log := [] }).1) := by
  unfold enter
  cases hcurrent : s.currentTxn with
  | some txn => exact ⟨hc, fun hcon => by cases hcon⟩
  | none =>
    obtain ⟨t, ht, hstate⟩ := exists_of_unfinished hc
    have hne : c ≠ s.nextTxnId := by
      rintro rfl
      exact lt_irrefl _ (h.ids _ (mem_of_lookup ht))
    have hbase : Managed { s with currentTxn := none, log := [] } := ⟨h.mode, h.ids⟩
    obtain ⟨-, -, hold⟩ := begin_spec hbase .snapshotIsolation
    have hlookup := (hold c hne).trans ht
    exact ⟨(unfinished_of_lookup hlookup).trans hstate, fun _ => hne⟩

theorem txnMap_enter (s : Instance) : (enter { s with log := [] }).2.txnMap = (enter s).2.txnMap := by
  unfold enter
  cases s.currentTxn <;> rfl

theorem Mid.switch (h : Mid own txn tainted false false s) {current : Option ℤ}
    (hcurrent : ∀ c, current = some c → s.unfinished c = true ∧ (own = true → c ≠ txn)) :
    Done own txn { s with currentTxn := current } := by
  have hlog : s.log = [] := h.log
  refine ⟨⟨h.mode, h.ids⟩, hcurrent, ?_, ?_⟩
  · intro e he
    have he' : e ∈ s.log := he
    rw [hlog] at he'
    cases he'
  · intro _
    obtain ⟨t, ht, hstate⟩ := h.unfinished
    exact ⟨hlog, (unfinished_of_lookup ht).trans hstate⟩

/-- What `std::stoi` throws. -/
theorem stoi_error {str : String} {e : Fault} (h : stoi str = .error e) : ∃ msg, e = .logicError msg := by
  unfold stoi at h
  dsimp only at h
  split_ifs at h <;> exact ⟨_, (Except.error.inj h).symm⟩

/-- **`\txn`** in an orderly call: it returns, or it throws past `ExecuteSql` in a transaction that is not the call's. -/
theorem cmdTxn_cases (h : Sound s) {params : List String} (horderly : Orderly s (.txnCommand params)) :
    (∃ s', cmdTxn (enter { s with log := [] }).2 params = (.ok (), s') ∧
      Done s.currentTxn.isNone (enter { s with log := [] }).1 s') ∨
    ∃ msg, s.currentTxn.isNone = false ∧
      cmdTxn (enter { s with log := [] }).2 params = (.error (.logicError msg), (enter { s with log := [] }).2) := by
  have hmid := enter_mid h
  have hfound := fun c hc => enter_unfinished (c := c) h hc
  have hmap := txnMap_enter s
  generalize hs₁ : (enter { s with log := [] }).2 = s₁ at hmid hfound hmap ⊢
  generalize (enter { s with log := [] }).1 = txn at hmid hfound ⊢
  have hstay : Done s.currentTxn.isNone txn s₁ := hmid.done fun _ => rfl
  have hsome : s.currentTxn.isSome = true → s.currentTxn.isNone = false ∧ s₁.currentTxn = some txn := by
    intro hsome
    have hnone : s.currentTxn.isNone = false := by simpa using hsome
    have hcurrent := hmid.current
    rw [hnone] at hcurrent
    exact ⟨hnone, hcurrent⟩
  unfold cmdTxn
  rw [if_pos hmid.mode]
  match params, horderly with
  | [], _ => exact .inl ⟨s₁, rfl, hstay⟩
  | [_], _ =>
    refine .inl ⟨s₁, ?_, hstay⟩
    cases hc : s₁.currentTxn <;> simp [dumpCurrentTxn, hc]
  | _ :: _ :: _ :: _, _ => exact .inl ⟨s₁, rfl, hstay⟩
  | [_, param1], horderly =>
    simp only [Orderly, orderlyParam] at horderly
    dsimp only
    split_ifs at horderly ⊢ with hgc
    · exact .inr ⟨_, (hsome horderly).1, rfl⟩
    rcases hnum : stoi param1 with e | txnId
    · rw [hnum] at horderly
      obtain ⟨msg, rfl⟩ := stoi_error hnum
      exact .inr ⟨msg, (hsome horderly).1, rfl⟩
    · rw [hnum] at horderly
      dsimp only at horderly ⊢
      split_ifs at horderly ⊢ with hleave
      · simp only [dumpCurrentTxn, (hsome horderly).2]
        exact .inl ⟨_, rfl, hmid.switch fun c hc => by cases hc⟩
      · rw [← hmap] at horderly
        cases hfind : findTxn s₁.txnMap txnId with
        | none => exact .inl ⟨s₁, rfl, hstay⟩
        | some c =>
          rw [hfind] at horderly
          refine .inl ⟨_, rfl, hmid.switch ?_⟩
          intro c' hc'
          cases hc'
          exact hfound c (by simpa using horderly)

theorem executeSql_eq (s : Instance) (sql : Sql) : executeSql s sql =
    rescue (enter { s with log := [] }).1
      (executeAndCommit s.currentTxn.isSome (enter { s with log := [] }).2 (enter { s with log := [] }).1 sql) := rfl

/-- **One call.** -/
theorem executeSql_settled (h : Sound s) {sql : Sql} (horderly : Orderly s sql) :
    Settled s.currentTxn.isNone (enter { s with log := [] }).1 (executeSql s sql) := by
  have hmid := enter_mid h
  have hown : s.currentTxn.isNone = !s.currentTxn.isSome := by cases s.currentTxn <;> rfl
  have hvars : (enter { s with log := [] }).2.sessionVariables = s.sessionVariables := by
    unfold enter
    cases s.currentTxn <;> rfl
  rw [executeSql_eq]
  match sql, horderly with
  | .txnCommand params, horderly =>
    rcases cmdTxn_cases h horderly with ⟨s', heq, hdone⟩ | ⟨msg, hnone, heq⟩
    · rw [hown] at hdone ⊢
      exact hdone.settled (b := true) (by rw [executeSqlTxn, heq]; rfl)
    · unfold executeAndCommit
      rw [executeSqlTxn, heq, hnone]
      have hdone := hmid.done fun _ => rfl
      exact ⟨hdone.toManaged, fun c hc => (hdone.current c hc).1, hdone.log, by simp, by simp [rescue, succeed],
        by simp [rescue, succeed]⟩
  | .command (.error (type, msg)), _ =>
    rw [hown] at hmid ⊢
    exact Goes.settled (.inr ⟨type, msg, _, rfl, hmid.threw⟩)
  | .command (.ok ()), _ =>
    rw [hown] at hmid ⊢
    exact Goes.settled (.inl ⟨true, _, rfl, hmid.done fun _ => rfl⟩)
  | .script (.error (type, msg)), _ =>
    rw [hown] at hmid ⊢
    exact Goes.settled (.inr ⟨type, msg, _, rfl, hmid.threw⟩)
  | .script (.ok stmts), horderly =>
    have hgoes := executeScript_goes stmts true hmid (by rw [hvars]; exact horderly)
    rw [hown] at hgoes ⊢
    exact Goes.settled hgoes

end Steps

/-! ## Runs -/

section Runs

/-- **One call** keeps the discipline, and leads to a state in which the next one can. -/
theorem executeSql_disciplined {s : Instance} (h : Sound s) {sql : Sql} (horderly : Orderly s sql) :
    Disciplined s (executeSql s sql) ∧ Sound (executeSql s sql).2 := by
  have hsettled := executeSql_settled h horderly
  refine ⟨⟨hsettled.current, hsettled.calls, ?_, hsettled.null, hsettled.assertion⟩, hsettled.managed, hsettled.current⟩
  intro hnone
  have hid : (enter { s with log := [] }).1 = s.nextTxnId := by
    unfold enter
    rw [hnone]
    rfl
  rw [← hid]
  exact hsettled.once (by rw [hnone]; rfl)

/-- **Session discipline.**  In managed transaction mode, let every call of a run be orderly in the state in which it is
made.  Then after each call the current transaction is null, RUNNING or TAINTED, no `Commit` or `Abort` of the call was on
a transaction that was COMMITTED or ABORTED, the transaction that the call started on its own was ended exactly once, no
null `current_txn_` was dereferenced and no assertion has failed. -/
theorem session_discipline (s₀ : Instance) (hs : Sound s₀) (sqls : List Sql)
    (horderly : ∀ pre sql post, sqls = pre ++ sql :: post → Orderly (after s₀ pre) sql) :
    ∀ pre sql post, sqls = pre ++ sql :: post → Disciplined (after s₀ pre) (executeSql (after s₀ pre) sql) := by
  intro pre sql post heq
  -- the state before the call is sound, by induction over the calls before it
  have hsound : Sound (after s₀ pre) := by
    refine foldl_along Sound (fun s a h ha => (executeSql_disciplined h ha).2) pre s₀ hs ?_
    intro pre' sql' post' heq'
    exact horderly pre' sql' (post' ++ sql :: post) (by rw [heq, heq', List.append_assoc, List.cons_append])
  exact (executeSql_disciplined hsound (horderly pre sql post heq)).1

/-- A new instance in managed transaction mode. -/
def newInstance : Instance := ⟨true, none, ∅, txnStartId, ∅, []⟩

theorem newInstance_sound : Sound newInstance := by
  refine ⟨⟨rfl, ?_⟩, ?_⟩
  · intro id hid
    exact absurd hid (AList.notMem_empty id)
  · intro txn htxn
    cases htxn

/-- A `BEGIN` and a `COMMIT`, each in a call of its own. -/
theorem session_discipline_begin_commit :
    Disciplined (after newInstance [.script (.ok [.begin])])
      (executeSql (after newInstance [.script (.ok [.begin])]) (.script (.ok [.commit]))) := by
  refine session_discipline newInstance newInstance_sound [.script (.ok [.begin]), .script (.ok [.commit])] ?_
    [.script (.ok [.begin])] _ [] rfl
  intro pre sql post heq
  match pre, heq with
  | [], heq =>
    cases heq
    show orderlyScript _ _ _ _ _ _ = true
    decide +kernel
  | [_], heq =>
    cases heq
    show orderlyScript _ _ _ _ _ _ = true
    decide +kernel
  | _ :: _ :: pre, heq => simp at heq

/-- Calls without a current transaction.  A `COMMIT` ends the transaction of its own call, which is committed and aborted
once more; `\txn -1` follows the null pointer; `\txn abc` throws past `ExecuteSql`, whose own transaction stays
running; and `\txn 0` makes this transaction the current one before it is committed. -/
theorem session_undisciplined :
    ¬ (∀ e ∈ (executeSql newInstance (.script (.ok [.commit]))).2.log, e.state.unfinished = true) ∧
    (executeSql newInstance (.txnCommand ["\\txn", "-1"])).1 = .error .undefined ∧
    (executeSql newInstance (.txnCommand ["\\txn", "abc"])).2.log.countP (·.ends newInstance.nextTxnId) = 0 ∧
    ∃ txn, (executeSql newInstance (.txnCommand ["\\txn", "0"])).2.currentTxn = some txn ∧
      (executeSql newInstance (.txnCommand ["\\txn", "0"])).2.unfinished txn = false := by
  refine ⟨by decide +kernel, by decide +kernel, by decide +kernel, txnStartId, by decide +kernel, by decide +kernel⟩

end Runs

end Journey.Session
