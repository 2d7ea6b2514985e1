import Journey.Lib.Threads
import Journey.Bustub.Common.Session

/-!
# Journey.Bustub.Concurrency.Transactions — the transaction manager under many threads

`Begin`, `Commit` and `Abort` of `TransactionManager` and `Transaction::SetTainted`, called by any number of threads.  A
step takes a lock or reads and writes the shared state once.  `Commit` looks at the state of the transaction with
`commit_mutex_` held; `Abort` and `SetTainted` look at it with no lock at all.

* `act`: the code; `Call`, `Answer`: what a thread may ask for, and what it gets.
* `commit_at_most_once`: whatever the threads do, no transaction is committed twice.
* `ended_at_most_once`: a transaction that only its own thread ends is ended once, and keeps the state it was given.
* `calls_finish`: the two mutexes never block all the threads, and every call comes to its end.
-/

namespace Journey.Transactions

open Threads SqlType
open Session (TransactionState IsolationLevel txnStartId exception)

/-! ## The code -/

section Model

/-- `INVALID_TS`. -/
def invalidTs : Int64 := -1

/-- `Transaction`, without its logs and sets. -/
structure Transaction where
  txnId : Int64
  isolationLevel : IsolationLevel
  state : TransactionState
  readTs : Int64
  commitTs : Int64
deriving DecidableEq, Repr

/-- The constructor of `Transaction`. -/
def Transaction.new (txnId : Int64) (isolationLevel : IsolationLevel) : Transaction :=
  ⟨txnId, isolationLevel, .running, 0, invalidTs⟩

/-- `Watermark`: its `commit_ts_`. -/
structure Watermark where
  commitTs : Int64
deriving DecidableEq, Repr

/-- `Watermark::AddTxn`. -/
def Watermark.addTxn (w : Watermark) (readTs : Int64) : Except Fault Watermark :=
  if readTs < w.commitTs then .error (exception "read ts < commit ts") else .ok w

/-- `Watermark::RemoveTxn`, which is not implemented. -/
def Watermark.removeTxn (w : Watermark) (_readTs : Int64) : Watermark := w

/-- `Watermark::UpdateCommitTs`. -/
def Watermark.updateCommitTs (_w : Watermark) (commitTs : Int64) : Watermark := ⟨commitTs⟩

/-- `TransactionManager`, with the `Transaction`s made so far.  A `Transaction *` is a number below `made`. -/
structure Manager where
  txns : ℕ → Transaction
  made : ℕ
  txnMap : UnorderedMap Int64 ℕ
  runningTxns : Watermark
  nextTxnId : Int64

/-- `TXN_START_ID`, as the code has it. -/
def startId : Int64 := Int64.ofInt txnStartId

/-- A manager as its constructor leaves it. -/
def Manager.new : Manager := ⟨fun _ => .new startId .snapshotIsolation, 0, ∅, ⟨0⟩, startId⟩

def Manager.setState (d : Manager) (p : ℕ) (state : TransactionState) : Manager :=
  { d with txns := Function.update d.txns p { d.txns p with state := state } }

/-- `TransactionManager::VerifyTxn`. -/
def verifyTxn (_txn : Transaction) : Bool := true

inductive Latch
  | commitMutex
  | txnMapMutex
deriving DecidableEq, Repr

inductive Call
  | begin (isolationLevel : IsolationLevel)
  | commit (txn : ℕ)
  | abort (txn : ℕ)
  | setTainted (txn : ℕ)
deriving DecidableEq, Repr

inductive Answer
  | begun (r : Except Fault ℕ)
  | committed (txn : ℕ) (r : Except Fault Bool)
  | aborted (txn : ℕ) (r : Except Fault Unit)
  | tainted (txn : ℕ)
deriving DecidableEq

/-- How the process ends. -/
inductive End
  /-- `std::terminate` -/
  | terminate
  /-- `Begin` uses a transaction that `insert` has not taken and that is destroyed -/
  | dangling
deriving DecidableEq, Repr

/-- Where a thread is.  `called` tells an `Abort` that `Commit` has called. -/
inductive Pc
  | beginLock (isolationLevel : IsolationLevel)
  | beginInsert (isolationLevel : IsolationLevel)
  | beginAdd (txn : ℕ)
  | beginReturn (txn : ℕ)
  | commitLock (txn : ℕ)
  | commitCheck (txn : ℕ)
  | commitVerify (txn : ℕ)
  | commitLockMap (txn : ℕ)
  | commitStore (txn : ℕ)
  | commitUpdate (txn : ℕ)
  | commitReturn (txn : ℕ)
  | abortCheck (called : Bool) (txn : ℕ)
  | abortCheckTainted (called : Bool) (txn : ℕ)
  | abortLockMap (called : Bool) (txn : ℕ)
  | abortStore (called : Bool) (txn : ℕ)
  | abortRemove (called : Bool) (txn : ℕ)
  | abortReturn (called : Bool) (txn : ℕ)
  | taintLoad (txn : ℕ)
  | taintStore (txn : ℕ)
  | taintReturn (txn : ℕ)
deriving DecidableEq, Repr

/-- A call begins.  A pointer is one that `Begin` has made. -/
def enter (k : Call) (d : Manager) : Option Pc :=
  match k with
  | .begin isolationLevel => some (.beginLock isolationLevel)
  | .commit p => if p < d.made then some (.commitLock p) else none
  | .abort p => if p < d.made then some (.abortCheck false p) else none
  | .setTainted p => if p < d.made then some (.taintLoad p) else none

/-- What `Abort` answers, or `Commit` that has called it. -/
def abortAnswer (called : Bool) (p : ℕ) (r : Except Fault Unit) : Answer :=
  if called then .committed p (r.map fun _ => false) else .aborted p r

/-- `next_txn_id_` and `txn_map_` are used under `txn_map_mutex_` only: the beginning of `Begin` is one step. -/
def beginInsert (d : Manager) (isolationLevel : IsolationLevel) : Act Manager Pc Latch Answer End :=
  let txnId := d.nextTxnId
  if txnId ∈ d.txnMap then .halt .dangling
  else
    .go
      { d with
        txns := Function.update d.txns d.made (.new txnId isolationLevel)
        made := d.made + 1
        txnMap := d.txnMap.emplace txnId d.made
        nextTxnId := txnId + 1 }
      (.beginAdd d.made)

/-- The next step of a thread. -/
def act (d : Manager) : Pc → Act Manager Pc Latch Answer End
  -- `TransactionManager::Begin`
  | .beginLock isolationLevel => .take .txnMapMutex .exclusive (.beginInsert isolationLevel)
  | .beginInsert isolationLevel => beginInsert d isolationLevel
  | .beginAdd p =>
    match d.runningTxns.addTxn (d.txns p).readTs with
    | .error e => .return_ (.begun (.error e))
    | .ok w => .go { d with runningTxns := w } (.beginReturn p)
  | .beginReturn p => .return_ (.begun (.ok p))
  -- `TransactionManager::Commit`
  | .commitLock p => .take .commitMutex .exclusive (.commitCheck p)
  | .commitCheck p =>
    if (d.txns p).state ≠ .running then .return_ (.committed p (.error (exception "txn not in running state")))
    else .go d (.commitVerify p)
  | .commitVerify p =>
    if (d.txns p).isolationLevel = .serializable ∧ !verifyTxn (d.txns p) then .go d (.abortCheck true p)
    else .go d (.commitLockMap p)
  | .commitLockMap p => .take .txnMapMutex .exclusive (.commitStore p)
  | .commitStore p => .go (d.setState p .committed) (.commitUpdate p)
  | .commitUpdate p =>
    .go { d with runningTxns := (d.runningTxns.updateCommitTs (d.txns p).commitTs).removeTxn (d.txns p).readTs }
      (.commitReturn p)
  | .commitReturn p => .return_ (.committed p (.ok true))
  -- `TransactionManager::Abort`: the state is loaded twice
  | .abortCheck called p =>
    if (d.txns p).state ≠ .running then .go d (.abortCheckTainted called p) else .go d (.abortLockMap called p)
  | .abortCheckTainted called p =>
    if (d.txns p).state ≠ .tainted then
      .return_ (abortAnswer called p (.error (exception "txn not in running / tainted state")))
    else .go d (.abortLockMap called p)
  | .abortLockMap called p => .take .txnMapMutex .exclusive (.abortStore called p)
  | .abortStore called p => .go (d.setState p .aborted) (.abortRemove called p)
  | .abortRemove called p =>
    .go { d with runningTxns := d.runningTxns.removeTxn (d.txns p).readTs } (.abortReturn called p)
  | .abortReturn called p => .return_ (abortAnswer called p (.ok ()))
  -- `Transaction::SetTainted`
  | .taintLoad p => if (d.txns p).state = .running then .go d (.taintStore p) else .halt .terminate
  | .taintStore p => .go (d.setState p .tainted) (.taintReturn p)
  | .taintReturn p => .return_ (.tainted p)

/-- The mutexes held at a place. -/
def Pc.latches : Pc → List Latch
  | .beginInsert _ | .beginAdd _ | .beginReturn _ => [.txnMapMutex]
  | .commitCheck _ | .commitVerify _ | .commitLockMap _ => [.commitMutex]
  | .commitStore _ | .commitUpdate _ | .commitReturn _ => [.commitMutex, .txnMapMutex]
  | .abortStore _ _ | .abortRemove _ _ | .abortReturn _ _ => [.txnMapMutex]
  | _ => []

def Pc.holds (c : Pc) (l : Latch) : Option Latches.Mode := if l ∈ c.latches then some .exclusive else none

/-- The transaction that a thread has been given. -/
def Pc.txn : Pc → Option ℕ
  | .beginLock _ | .beginInsert _ | .beginAdd _ | .beginReturn _ => none
  | .commitLock p | .commitCheck p | .commitVerify p | .commitLockMap p => some p
  | .commitStore p | .commitUpdate p | .commitReturn p => some p
  | .abortCheck _ p | .abortCheckTainted _ p | .abortLockMap _ p => some p
  | .abortStore _ p | .abortRemove _ p | .abortReturn _ p => some p
  | .taintLoad p | .taintStore p | .taintReturn p => some p

/-- Where a call begins. -/
inductive EnterStep (d : Manager) : Call → Pc → Prop
  | begin (iso : IsolationLevel) : EnterStep d (.begin iso) (.beginLock iso)
  | commit (p : ℕ) (h : p < d.made) : EnterStep d (.commit p) (.commitLock p)
  | abort (p : ℕ) (h : p < d.made) : EnterStep d (.abort p) (.abortCheck false p)
  | setTainted (p : ℕ) (h : p < d.made) : EnterStep d (.setTainted p) (.taintLoad p)

theorem enter_step {k : Call} {d : Manager} {c : Pc} (h : enter k d = some c) : EnterStep d k c := by
  cases k with
  | begin iso =>
    cases h
    exact .begin iso
  | commit p | abort p | setTainted p =>
    rw [enter, Option.ite_none_right_eq_some] at h
    obtain ⟨hlt, h⟩ := h
    cases h
    constructor
    exact hlt

/-- The steps that take no lock and do not end the call. -/
inductive GoStep (d : Manager) : Pc → Manager → Pc → Prop
  | insert (iso : IsolationLevel) (h : d.nextTxnId ∉ d.txnMap) :
    GoStep d (.beginInsert iso)
      { d with
        txns := Function.update d.txns d.made (.new d.nextTxnId iso)
        made := d.made + 1
        txnMap := d.txnMap.emplace d.nextTxnId d.made
        nextTxnId := d.nextTxnId + 1 }
      (.beginAdd d.made)
  | add (p : ℕ) : GoStep d (.beginAdd p) d (.beginReturn p)
  | check (p : ℕ) (h : (d.txns p).state = .running) : GoStep d (.commitCheck p) d (.commitVerify p)
  | verify (p : ℕ) : GoStep d (.commitVerify p) d (.commitLockMap p)
  | commit (p : ℕ) : GoStep d (.commitStore p) (d.setState p .committed) (.commitUpdate p)
  | update (p : ℕ) : GoStep d (.commitUpdate p) { d with runningTxns := ⟨(d.txns p).commitTs⟩ } (.commitReturn p)
  | notRunning (b : Bool) (p : ℕ) : GoStep d (.abortCheck b p) d (.abortCheckTainted b p)
  | running (b : Bool) (p : ℕ) (h : (d.txns p).state = .running) : GoStep d (.abortCheck b p) d (.abortLockMap b p)
  | tainted (b : Bool) (p : ℕ) (h : (d.txns p).state = .tainted) :
    GoStep d (.abortCheckTainted b p) d (.abortLockMap b p)
  | abort (b : Bool) (p : ℕ) : GoStep d (.abortStore b p) (d.setState p .aborted) (.abortRemove b p)
  | remove (b : Bool) (p : ℕ) : GoStep d (.abortRemove b p) d (.abortReturn b p)
  | load (p : ℕ) (h : (d.txns p).state = .running) : GoStep d (.taintLoad p) d (.taintStore p)
  | taint (p : ℕ) : GoStep d (.taintStore p) (d.setState p .tainted) (.taintReturn p)

/-- **What a step can do** that takes no lock and does not end the call. -/
theorem act_go {d d' : Manager} {c c' : Pc} (h : act d c = .go d' c') : GoStep d c d' c' := by
  cases c with
  | beginInsert iso =>
    simp only [act, beginInsert] at h
    split_ifs at h with hin
    cases h
    exact .insert iso hin
  | beginAdd p =>
    simp only [act, Watermark.addTxn] at h
    split_ifs at h
    cases h
    exact .add p
  | commitCheck p =>
    simp only [act] at h
    split_ifs at h with hstate
    cases h
    exact .check p (not_not.mp hstate)
  | commitVerify p =>
    simp only [act, verifyTxn, Bool.not_true, Bool.false_eq_true, and_false, if_false] at h
    cases h
    exact .verify p
  | abortCheck b p =>
    simp only [act] at h
    split_ifs at h with hstate
    · cases h
      exact .notRunning b p
    · cases h
      exact .running b p (not_not.mp hstate)
  | abortCheckTainted b p =>
    simp only [act] at h
    split_ifs at h with hstate
    cases h
    exact .tainted b p (not_not.mp hstate)
  | taintLoad p =>
    simp only [act] at h
    split_ifs at h with hstate
    cases h
    exact .load p hstate
  | commitStore p =>
    cases h
    exact .commit p
  | commitUpdate p =>
    cases h
    exact .update p
  | abortStore b p =>
    cases h
    exact .abort b p
  | abortRemove b p =>
    cases h
    exact .remove b p
  | taintStore p =>
    cases h
    exact .taint p
  | _ => cases h

/-- The steps that end a call. -/
inductive ReturnStep (d : Manager) : Pc → Answer → Prop
  | refused (p : ℕ) (e : Fault) (h : (d.txns p).readTs < d.runningTxns.commitTs) :
    ReturnStep d (.beginAdd p) (.begun (.error e))
  | begun (p : ℕ) : ReturnStep d (.beginReturn p) (.begun (.ok p))
  | throws (p : ℕ) (e : Fault) : ReturnStep d (.commitCheck p) (.committed p (.error e))
  | committed (p : ℕ) : ReturnStep d (.commitReturn p) (.committed p (.ok true))
  | abortThrows (b : Bool) (p : ℕ) (e : Fault) : ReturnStep d (.abortCheckTainted b p) (abortAnswer b p (.error e))
  | aborted (b : Bool) (p : ℕ) : ReturnStep d (.abortReturn b p) (abortAnswer b p (.ok ()))
  | tainted (p : ℕ) : ReturnStep d (.taintReturn p) (.tainted p)

theorem act_return {d : Manager} {c : Pc} {r : Answer} (h : act d c = .return_ r) : ReturnStep d c r := by
  cases c with
  | beginInsert iso =>
    simp only [act, beginInsert] at h
    split_ifs at h
  | beginAdd p =>
    simp only [act, Watermark.addTxn] at h
    split_ifs at h with hlt
    cases h
    exact .refused p _ hlt
  | beginReturn p =>
    cases h
    exact .begun p
  | commitCheck p =>
    simp only [act] at h
    split_ifs at h
    cases h
    exact .throws p _
  | commitVerify p =>
    simp only [act] at h
    split_ifs at h
  | commitReturn p =>
    cases h
    exact .committed p
  | abortCheck b p =>
    simp only [act] at h
    split_ifs at h
  | abortCheckTainted b p =>
    simp only [act] at h
    split_ifs at h
    cases h
    exact .abortThrows b p _
  | abortReturn b p =>
    cases h
    exact .aborted b p
  | taintLoad p =>
    simp only [act] at h
    split_ifs at h
  | taintReturn p =>
    cases h
    exact .tainted p
  | _ => cases h

/-- The steps that take a lock. -/
inductive TakeStep : Pc → Latch → Latches.Mode → Pc → Prop
  | beginLock (iso : IsolationLevel) : TakeStep (.beginLock iso) .txnMapMutex .exclusive (.beginInsert iso)
  | commitLock (p : ℕ) : TakeStep (.commitLock p) .commitMutex .exclusive (.commitCheck p)
  | commitLockMap (p : ℕ) : TakeStep (.commitLockMap p) .txnMapMutex .exclusive (.commitStore p)
  | abortLockMap (b : Bool) (p : ℕ) : TakeStep (.abortLockMap b p) .txnMapMutex .exclusive (.abortStore b p)

theorem act_take {d : Manager} {c c' : Pc} {l : Latch} {m : Latches.Mode} (h : act d c = .take l m c') :
    TakeStep c l m c' := by
  cases c with
  | beginLock iso =>
    cases h
    exact .beginLock iso
  | beginInsert iso =>
    simp only [act, beginInsert] at h
    split_ifs at h
  | beginAdd p =>
    simp only [act, Watermark.addTxn] at h
    split_ifs at h
  | commitLock p =>
    cases h
    exact .commitLock p
  | commitLockMap p =>
    cases h
    exact .commitLockMap p
  | commitCheck p | commitVerify p | abortCheck b p | abortCheckTainted b p | taintLoad p =>
    simp only [act] at h
    split_ifs at h
  | abortLockMap b p =>
    cases h
    exact .abortLockMap b p
  | _ => cases h

/-- The code, as threads run it. -/
def code : Code Call Manager Pc Latch Answer End where
  enter := enter
  act := act
  holds := Pc.holds
  holds_enter h := by
    intro l
    cases enter_step h <;> rfl
  holds_take h := by
    intro l m hl
    cases act_take h <;> cases l <;> simp_all [Pc.holds, Pc.latches]
  holds_go h := by
    intro l m hl
    cases act_go h <;> cases l <;> simp_all [Pc.holds, Pc.latches]

end Model

/-! ## What the manager keeps -/

section Keep

variable {d d' : Manager} {c c' : Pc}

/-- The id of the `p`-th transaction. -/
def idOf (p : ℕ) : Int64 := startId + Int64.ofNat p

theorem idOf_succ (p : ℕ) : idOf (p + 1) = idOf p + 1 := by
  unfold idOf
  rw [Int64.ofNat_add, ← Int64.add_assoc]
  rfl

/-- Ids come again only after `2 ^ 64` transactions. -/
theorem le_of_idOf_eq {p n : ℕ} (h : idOf p = idOf n) (hlt : p < n) : 2 ^ 64 ≤ n := by
  have hof : Int64.ofNat p = Int64.ofNat n := (Int64.add_right_inj startId).mp h
  have hmod : p % 2 ^ 64 = n % 2 ^ 64 := congrArg (fun x : Int64 => x.toUInt64.toNat) hof
  omega

/-- What holds of a manager at all times. -/
structure Manager.Sound (d : Manager) : Prop where
  stamps : ∀ p, (d.txns p).readTs = 0 ∧ (d.txns p).commitTs = invalidTs
  watermark : d.runningTxns.commitTs ≤ 0
  nextTxnId : d.nextTxnId = idOf d.made
  mapped : ∀ id p, d.txnMap.lookup id = some p → p < d.made ∧ id = idOf p
  managed : ∀ p, p < d.made → d.txnMap.lookup (d.txns p).txnId = some p

theorem sound_new : Manager.new.Sound where
  stamps _ := ⟨rfl, rfl⟩
  watermark := by decide
  nextTxnId := by decide
  mapped id p h := by cases h
  managed p h := absurd h (Nat.not_lt_zero p)

theorem Manager.Sound.setState (h : d.Sound) (p : ℕ) (state : TransactionState) : (d.setState p state).Sound := by
  have hkeeps : ∀ q, ((d.setState p state).txns q).readTs = (d.txns q).readTs ∧
      ((d.setState p state).txns q).commitTs = (d.txns q).commitTs ∧
      ((d.setState p state).txns q).txnId = (d.txns q).txnId := by
    intro q
    by_cases hq : q = p <;> simp [Manager.setState, hq]
  refine ⟨?_, h.watermark, h.nextTxnId, h.mapped, ?_⟩
  · intro q
    rw [(hkeeps q).1, (hkeeps q).2.1]
    exact h.stamps q
  · intro q hq
    rw [(hkeeps q).2.2]
    exact h.managed q hq

theorem Manager.Sound.step (h : d.Sound) (hstep : GoStep d c d' c') : d'.Sound := by
  cases hstep with
  | insert iso hfresh =>
    refine ⟨?_, h.watermark, ?_, ?_, ?_⟩
    · intro p
      dsimp only
      rw [Function.update_apply]
      split_ifs
      · exact ⟨rfl, rfl⟩
      · exact h.stamps p
    · dsimp only
      rw [idOf_succ, h.nextTxnId]
    · intro id p hp
      dsimp only at hp ⊢
      rw [lookup_emplace _ hfresh] at hp
      split_ifs at hp with hid
      · cases hp
        exact ⟨Nat.lt_succ_self _, hid.trans h.nextTxnId⟩
      · obtain ⟨hlt, heq⟩ := h.mapped id p hp
        exact ⟨Nat.lt_succ_of_lt hlt, heq⟩
    · intro p hp
      dsimp only at hp ⊢
      rw [lookup_emplace _ hfresh, Function.update_apply]
      by_cases hmade : p = d.made
      · rw [if_pos hmade, hmade]
        exact if_pos rfl
      · have hlook := h.managed p (by omega)
        rw [if_neg hmade, if_neg, hlook]
        intro heq
        rw [heq] at hlook
        exact hfresh (mem_of_lookup hlook)
  | update p =>
    refine ⟨h.stamps, ?_, h.nextTxnId, h.mapped, h.managed⟩
    dsimp only
    rw [(h.stamps p).2]
    decide
  | commit p | abort b p | taint p => exact h.setState p _
  | _ => exact h

theorem GoStep.made_le (hstep : GoStep d c d' c') : d.made ≤ d'.made := by
  cases hstep with
  | insert iso hfresh => exact Nat.le_succ _
  | _ => exact le_rfl

theorem state_setState (d : Manager) (p : ℕ) (state : TransactionState) (q : ℕ) :
    ((d.setState p state).txns q).state = if q = p then state else (d.txns q).state := by
  by_cases hq : q = p <;> simp [Manager.setState, hq]

/-- **No step makes a transaction run again.** -/
theorem GoStep.not_running (hstep : GoStep d c d' c') {q : ℕ} (hq : q < d.made) (h : (d.txns q).state ≠ .running) :
    (d'.txns q).state ≠ .running := by
  cases hstep with
  | insert iso hfresh =>
    dsimp only
    rw [Function.update_of_ne (Nat.ne_of_lt hq)]
    exact h
  | commit p | abort b p | taint p =>
    rw [state_setState]
    split_ifs
    · decide
    · exact h
  | _ => exact h

/-- A call goes to a transaction that has been made, and stays with it. -/
theorem EnterStep.txn_lt {k : Call} (hstep : EnterStep d k c) {p : ℕ} (hp : c.txn = some p) : p < d.made := by
  cases hstep <;> cases hp
  all_goals assumption

theorem GoStep.txn_eq (hstep : GoStep d c d' c') : c'.txn = c.txn := by
  cases hstep <;> rfl

theorem TakeStep.txn_eq {l : Latch} {m : Latches.Mode} (hstep : TakeStep c l m c') : c'.txn = c.txn := by
  cases hstep <;> rfl

end Keep

/-! ## No transaction is committed twice -/

section Once

/-- `Commit` has answered that the transaction is committed. -/
def Answer.commits (p : ℕ) : Answer → Bool
  | .committed q (.ok true) => q = p
  | _ => false

/-- The answers that say so. -/
def commits {ι : Type} (p : ℕ) (returned : List (ι × Answer)) : List (ι × Answer) :=
  returned.filter fun a => a.2.commits p

/-- `Commit` has seen that the transaction is running, and holds `commit_mutex_`. -/
def Pc.committing : Pc → Option ℕ
  | .commitVerify p | .commitLockMap p | .commitStore p | .commitUpdate p | .commitReturn p => some p
  | _ => none

def Pc.committed : Pc → Option ℕ
  | .commitUpdate p | .commitReturn p => some p
  | _ => none

/-- `Abort` has been called by `Commit`. -/
def Pc.called : Pc → Bool
  | .abortCheck b _ | .abortCheckTainted b _ | .abortLockMap b _ | .abortStore b _ => b
  | .abortRemove b _ | .abortReturn b _ => b
  | _ => false

/-- No answer that a caller of `Begin` or `Commit` has to fear. -/
def Answer.fine : Answer → Prop
  | .begun (.error _) => False
  | .committed _ (.ok false) => False
  | _ => True

variable {ι : Type}

/-- The manager and the answers. -/
structure Shared (d : Manager) (returned : List (ι × Answer)) : Prop where
  sound : d.Sound
  fine : ∀ a ∈ returned, a.2.fine
  once : ∀ p, (commits p returned).length ≤ 1
  not_running : ∀ p, commits p returned ≠ [] → p < d.made ∧ (d.txns p).state ≠ .running

/-- One thread. -/
structure Own (c : Option Pc) (d : Manager) (returned : List (ι × Answer)) : Prop where
  made : ∀ p, c.bind Pc.txn = some p → p < d.made
  committing : ∀ p, c.bind Pc.committing = some p → commits p returned = []
  committed : ∀ p, c.bind Pc.committed = some p → (d.txns p).state ≠ .running
  called : ∀ c', c = some c' → c'.called = false

/-- How the process may end: `Begin` goes wrong only when the ids have come round. -/
def fineEnd (e : End) (d : Manager) : Prop := e = .dangling → 2 ^ 64 ≤ d.made

variable {d d' : Manager} {c c' : Pc} {returned : List (ι × Answer)}

theorem commits_append (p : ℕ) (returned : List (ι × Answer)) (t : ι) (r : Answer) :
    commits p (returned ++ [(t, r)]) = commits p returned ++ if r.commits p then [(t, r)] else [] := by
  unfold commits
  rw [List.filter_append]
  cases hr : r.commits p <;> simp [hr]

theorem committing_holds {p : ℕ} (h : c.committing = some p) : c.holds .commitMutex = some .exclusive := by
  cases c <;> first | rfl | cases h

theorem committing_of_committed {p : ℕ} (h : c.committed = some p) : c.committing = some p := by
  cases c <;> first | exact h | cases h

theorem txn_of_committing {p : ℕ} (h : c.committing = some p) : c.txn = some p := by
  cases c <;> first | exact h | cases h

/-- Only one transaction commits at a time. -/
theorem not_both_committing {c₂ : Pc} {p q : ℕ} (hapart : Threads.Apart code c (some c₂)) (hp : c.committing = some p)
    (hq : c₂.committing = some q) : False := by
  have hnone : c₂.holds .commitMutex = none := (hapart .commitMutex).1 (committing_holds hp)
  rw [committing_holds hq] at hnone
  cases hnone

theorem own_idle : Own none d returned where
  made _ h := by cases h
  committing _ h := by cases h
  committed _ h := by cases h
  called _ h := by cases h

theorem EnterStep.own {k : Call} (hstep : EnterStep d k c) : Own (some c) d returned where
  made p hp := hstep.txn_lt hp
  committing p hp := by cases hstep <;> cases hp
  committed p hp := by cases hstep <;> cases hp
  called c' hc := by cases hc; cases hstep <;> rfl

theorem Own.take {l : Latch} {m : Latches.Mode} (h : Own (some c) d returned) (hstep : TakeStep c l m c') :
    Own (some c') d returned := by
  refine ⟨?_, ?_, ?_, ?_⟩
  · intro p hp
    rw [Option.bind_some, hstep.txn_eq] at hp
    exact h.made p hp
  · intro p hp
    cases hstep with
    | commitLockMap q => exact h.committing p hp
    | _ => cases hp
  · intro p hp
    cases hstep <;> cases hp
  · rintro _ ⟨⟩
    have hcalled := h.called c rfl
    cases hstep with
    | abortLockMap b q => exact hcalled
    | _ => rfl

theorem Shared.go (h : Shared d returned) (hstep : GoStep d c d' c') : Shared d' returned where
  sound := h.sound.step hstep
  fine := h.fine
  once := h.once
  not_running p hp := by
    obtain ⟨hlt, hstate⟩ := h.not_running p hp
    exact ⟨hlt.trans_le hstep.made_le, hstep.not_running hlt hstate⟩

theorem Own.go (hG : Shared d returned) (h : Own (some c) d returned) (hstep : GoStep d c d' c') :
    Own (some c') d' returned := by
  refine ⟨?_, ?_, ?_, ?_⟩
  · intro p hp
    rw [Option.bind_some, hstep.txn_eq] at hp
    exact (h.made p hp).trans_le hstep.made_le
  · intro p hp
    cases hstep with
    | check q hrunning =>
      cases hp
      -- had it been committed, it would not be running
      by_contra hcommits
      exact (hG.not_running p hcommits).2 hrunning
    | verify q | commit q | update q => exact h.committing p hp
    | _ => cases hp
  · intro p hp
    cases hstep with
    | commit q =>
      cases hp
      rw [state_setState, if_pos rfl]
      decide
    | update q => exact h.committed p hp
    | _ => cases hp
  · rintro _ ⟨⟩
    have hcalled := h.called c rfl
    cases hstep with
    | notRunning b q | running b q | tainted b q | abort b q | remove b q => exact hcalled
    | _ => rfl

theorem Own.go_other {q : Option Pc} (h : Own q d returned) (hstep : GoStep d c d' c') : Own q d' returned where
  made p hp := (h.made p hp).trans_le hstep.made_le
  committing := h.committing
  committed p hp := by
    obtain ⟨c₂, rfl, hc₂⟩ := Option.bind_eq_some_iff.mp hp
    have htxn := txn_of_committing (committing_of_committed hc₂)
    exact hstep.not_running (h.made p htxn) (h.committed p hp)
  called := h.called

/-- The answer of a call that ends is a commit only of the transaction that the thread is committing. -/
theorem ReturnStep.commits_iff {r : Answer} (hstep : ReturnStep d c r) (p : ℕ) (h : r.commits p = true) :
    c.committed = some p := by
  cases hstep with
  | committed q => exact congrArg some (of_decide_eq_true h)
  | abortThrows b q e => cases b <;> cases h
  | aborted b q => cases b <;> cases h
  | _ => cases h

theorem ReturnStep.fine {r : Answer} (hstep : ReturnStep d c r) (hd : d.Sound) (hcalled : c.called = false) :
    r.fine := by
  cases hstep with
  | refused p e hlt =>
    rw [(hd.stamps p).1] at hlt
    exact absurd hd.watermark (Int64.not_le.mpr hlt)
  | abortThrows b q e | aborted b q =>
    cases hcalled
    trivial
  | _ => trivial

theorem Shared.return_ {t : ι} {r : Answer} (h : Shared d returned) (hown : Own (some c) d returned)
    (hstep : ReturnStep d c r) : Shared d (returned ++ [(t, r)]) := by
  refine ⟨h.sound, ?_, ?_, ?_⟩
  · intro a ha
    rcases List.mem_append.mp ha with ha | ha
    · exact h.fine a ha
    · rw [List.mem_singleton.mp ha]
      exact hstep.fine h.sound (hown.called c rfl)
  · intro p
    rw [commits_append]
    split_ifs with hr
    · rw [hown.committing p (committing_of_committed (hstep.commits_iff p hr))]
      exact le_rfl
    · rw [List.append_nil]
      exact h.once p
  · intro p hp
    rw [commits_append] at hp
    split_ifs at hp with hr
    · have hc := hstep.commits_iff p hr
      exact ⟨hown.made p (txn_of_committing (committing_of_committed hc)), hown.committed p hc⟩
    · rw [List.append_nil] at hp
      exact h.not_running p hp

theorem Own.return_other {q : Option Pc} {t : ι} {r : Answer} (h : Own q d returned) (hapart : Threads.Apart code c q)
    (hstep : ReturnStep d c r) : Own q d (returned ++ [(t, r)]) where
  made := h.made
  committing p hp := by
    rw [commits_append, h.committing p hp, List.nil_append, if_neg]
    intro hr
    obtain ⟨c₂, rfl, hc₂⟩ := Option.bind_eq_some_iff.mp hp
    exact not_both_committing hapart (committing_of_committed (hstep.commits_iff p hr)) hc₂
  committed := h.committed
  called := h.called

theorem act_halt {e : End} (hd : d.Sound) (h : act d c = .halt e) : fineEnd e d := by
  rintro rfl
  cases c with
  | beginInsert iso =>
    simp only [act, beginInsert] at h
    split_ifs at h with hin
    obtain ⟨p, hp⟩ := Option.isSome_iff_exists.mp (AList.lookup_isSome.mpr hin)
    obtain ⟨hlt, hid⟩ := hd.mapped _ p hp
    exact le_of_idOf_eq (hid.symm.trans hd.nextTxnId) hlt
  | beginAdd p =>
    simp only [act, Watermark.addTxn] at h
    split_ifs at h
  | commitCheck p | commitVerify p | abortCheck b p | abortCheckTainted b p =>
    simp only [act] at h
    split_ifs at h
  | taintLoad p =>
    simp only [act] at h
    split_ifs at h
    cases h
  | _ => cases h

/-- What every thread keeps, whatever it calls. -/
theorem keeps_once :
    Keeps code (fun _ (_ : ι) _ => True) Shared (fun _ c d returned => Own c d returned) fineEnd where
  enter _ _ _ h := (enter_step h).own
  take _ hown h := hown.take (act_take h)
  go hG hown h := ⟨hG.go (act_go h), hown.go hG (act_go h), fun _ _ _ _ hq => hq.go_other (act_go h)⟩
  return_ hG hown h :=
    ⟨hG.return_ hown (act_return h), own_idle, fun _ _ _ hapart hq => hq.return_other hapart (act_return h)⟩
  halt hG _ h := act_halt hG.sound h

theorem shared_new : Shared Manager.new ([] : List (ι × Answer)) where
  sound := sound_new
  fine _ h := by cases h
  once _ := Nat.zero_le _
  not_running p h := absurd rfl h

theorem inv_once [DecidableEq ι] [Fintype ι] (ms : List (ι × Move Call)) :
    Inv code Shared (fun (_ : ι) c d returned => Own c d returned) fineEnd (Threads.run code (start .new) ms) :=
  keeps_once.run (inv_start shared_new fun _ => own_idle) (Threads.along_of_forall code (fun _ _ _ => trivial) _)

end Once

/-- **No transaction is committed twice**, and one that is committed runs no more, whatever the threads call and in what
order they go.  `Begin` never throws, and the transactions it makes are all found under their ids. -/
theorem commit_at_most_once {ι : Type} [DecidableEq ι] [Fintype ι] (ms : List (ι × Move Call)) :
    let s := Threads.run code (start .new) ms
    (∀ p, (commits p s.returned).length ≤ 1) ∧
      (∀ p, commits p s.returned ≠ [] → (s.data.txns p).state ≠ .running) ∧
      (∀ a ∈ s.returned, a.2.fine) ∧
      (∀ p, p < s.data.made → s.data.txnMap.lookup (s.data.txns p).txnId = some p) ∧
      (s.halted = some .dangling → 2 ^ 64 ≤ s.data.made) := by
  intro s
  have hinv := inv_once ms
  refine ⟨hinv.shared.once, ?_, hinv.shared.fine, hinv.shared.sound.managed, ?_⟩
  · intro p hp
    exact (hinv.shared.not_running p hp).2
  · intro hhalted
    exact hinv.fine _ hhalted rfl

/-! ## A transaction is ended once -/

section Ended

/-- The transaction that a caller gives. -/
def Call.txn : Call → Option ℕ
  | .begin _ => none
  | .commit p | .abort p | .setTainted p => some p

/-- How the answer says that the transaction has ended. -/
def Answer.ended (p : ℕ) : Answer → Option TransactionState
  | .committed q (.ok true) => if q = p then some .committed else none
  | .committed q (.ok false) => if q = p then some .aborted else none
  | .aborted q (.ok ()) => if q = p then some .aborted else none
  | _ => none

/-- The ends of a transaction, as its callers have been told. -/
def endings {ι : Type} (p : ℕ) (returned : List (ι × Answer)) : List TransactionState :=
  returned.filterMap fun a => a.2.ended p

/-- The thread has seen that the transaction is unfinished, and has yet to store its new state. -/
def Pc.live : Pc → Option ℕ
  | .commitVerify p | .commitLockMap p | .commitStore p => some p
  | .abortLockMap _ p | .abortStore _ p => some p
  | .taintStore p => some p
  | _ => none

/-- The thread has ended the transaction, and its call has yet to return. -/
def Pc.stored : Pc → Option (ℕ × TransactionState)
  | .commitUpdate p | .commitReturn p => some (p, .committed)
  | .abortRemove _ p | .abortReturn _ p => some (p, .aborted)
  | _ => none

variable {ι : Type}

structure SharedEnds (d : Manager) (returned : List (ι × Answer)) : Prop where
  made : ∀ p, endings p returned ≠ [] → p < d.made
  ended : ∀ p, endings p returned = [] ∨ endings p returned = [(d.txns p).state]

/-- The thread `t` and its transactions. -/
structure OwnEnds (owner : ℕ → ι) (t : ι) (c : Option Pc) (d : Manager) (returned : List (ι × Answer)) : Prop where
  txn : ∀ p, c.bind Pc.txn = some p → p < d.made ∧ owner p = t
  live : ∀ p, c.bind Pc.live = some p → endings p returned = []
  stored : ∀ p state, c.bind Pc.stored = some (p, state) → endings p returned = [] ∧ (d.txns p).state = state
  unended : ∀ p, owner p = t → endings p returned = [] → (∀ state, c.bind Pc.stored ≠ some (p, state)) →
    (d.txns p).state.unfinished = true

variable {owner : ℕ → ι} {t u : ι} {d d' : Manager} {c c' : Pc} {returned : List (ι × Answer)}

theorem endings_append (p : ℕ) (returned : List (ι × Answer)) (t : ι) (r : Answer) :
    endings p (returned ++ [(t, r)]) = endings p returned ++ (r.ended p).toList := by
  unfold endings
  rw [List.filterMap_append]
  cases hr : r.ended p <;> simp [hr]

theorem ended_finished {p : ℕ} {r : Answer} {state : TransactionState} (h : r.ended p = some state) :
    state.unfinished = false := by
  unfold Answer.ended at h
  split at h
  all_goals first | cases h | (split_ifs at h; cases h; rfl)

theorem SharedEnds.endings_eq_nil (h : SharedEnds d returned) {p : ℕ} (hp : (d.txns p).state.unfinished = true) :
    endings p returned = [] := by
  rcases h.ended p with hnil | hended
  · exact hnil
  · have hmem : (d.txns p).state ∈ endings p returned := by
      rw [hended]
      exact List.mem_singleton_self _
    obtain ⟨a, -, ha⟩ := List.mem_filterMap.mp hmem
    rw [ended_finished ha] at hp
    cases hp

theorem txn_of_live {p : ℕ} (h : c.live = some p) : c.txn = some p := by
  cases c <;> first | exact h | cases h

theorem txn_of_stored {p : ℕ} {state : TransactionState} (h : c.stored = some (p, state)) : c.txn = some p := by
  cases c <;> cases h <;> rfl

/-- **Only a thread that has seen a transaction unfinished changes its state.** -/
theorem GoStep.state_of_not_live (hstep : GoStep d c d' c') {p : ℕ} (hp : p < d.made) (h : c.live ≠ some p) :
    (d'.txns p).state = (d.txns p).state := by
  cases hstep with
  | insert iso hfresh =>
    dsimp only
    rw [Function.update_of_ne (Nat.ne_of_lt hp)]
  | commit q | abort b q | taint q =>
    rw [state_setState, if_neg]
    rintro rfl
    exact h rfl
  | _ => rfl

theorem GoStep.unfinished_of_not_live (hstep : GoStep d c d' c') {p : ℕ} (h : c.live ≠ some p)
    (hp : (d.txns p).state.unfinished = true) : (d'.txns p).state.unfinished = true := by
  by_cases hlt : p < d.made
  · rw [hstep.state_of_not_live hlt h]
    exact hp
  · cases hstep with
    | insert iso hfresh =>
      dsimp only
      rw [Function.update_apply]
      split_ifs
      · rfl
      · exact hp
    | commit q | abort b q | taint q =>
      rw [state_setState, if_neg]
      · exact hp
      · rintro rfl
        exact h rfl
    | _ => exact hp

theorem ReturnStep.ended_iff {r : Answer} (hstep : ReturnStep d c r) (p : ℕ) (state : TransactionState) :
    r.ended p = some state ↔ c.stored = some (p, state) := by
  have hif : ∀ q s, (if q = p then some s else none) = some state ↔ some (q, s) = some (p, state) := by
    intro q s
    by_cases hq : q = p <;> simp [hq]
  cases hstep with
  | committed q => exact hif q _
  | aborted b q => cases b <;> exact hif q _
  | abortThrows b q e => cases b <;> exact ⟨fun h => (nomatch h), fun h => (nomatch h)⟩
  | _ => exact ⟨fun h => (nomatch h), fun h => (nomatch h)⟩

theorem OwnEnds.enter {k : Call} (h : OwnEnds owner t none d returned) (hk : ∀ p, k.txn = some p → owner p = t)
    (hstep : EnterStep d k c) : OwnEnds owner t (some c) d returned := by
  have hplace : c.live = none ∧ c.stored = none ∧ c.txn = k.txn := by
    cases hstep <;> exact ⟨rfl, rfl, rfl⟩
  obtain ⟨hlive, hstored, htxn⟩ := hplace
  refine ⟨?_, ?_, ?_, ?_⟩
  · intro p hp
    exact ⟨hstep.txn_lt hp, hk p (htxn.symm.trans hp)⟩
  · intro p hp
    rw [Option.bind_some, hlive] at hp
    cases hp
  · intro p state hp
    rw [Option.bind_some, hstored] at hp
    cases hp
  · intro p hown hnil _
    refine h.unended p hown hnil ?_
    rintro state ⟨⟩

theorem OwnEnds.take {l : Latch} {m : Latches.Mode} (h : OwnEnds owner t (some c) d returned)
    (hstep : TakeStep c l m c') : OwnEnds owner t (some c') d returned := by
  refine ⟨?_, ?_, ?_, ?_⟩
  · intro p hp
    rw [Option.bind_some, hstep.txn_eq] at hp
    exact h.txn p hp
  · intro p hp
    cases hstep with
    | commitLockMap q | abortLockMap b q => exact h.live p hp
    | _ => cases hp
  · intro p state hp
    cases hstep <;> cases hp
  · intro p hown hnil _
    refine h.unended p hown hnil ?_
    intro state hp
    cases hstep <;> cases hp

theorem SharedEnds.go (h : SharedEnds d returned) (hown : OwnEnds owner t (some c) d returned)
    (hstep : GoStep d c d' c') : SharedEnds d' returned where
  made p hp := (h.made p hp).trans_le hstep.made_le
  ended p := by
    by_cases hnil : endings p returned = []
    · exact .inl hnil
    · rw [hstep.state_of_not_live (h.made p hnil) fun hlive => hnil (hown.live p hlive)]
      exact h.ended p

theorem OwnEnds.go (hG : SharedEnds d returned) (h : OwnEnds owner t (some c) d returned)
    (hstep : GoStep d c d' c') : OwnEnds owner t (some c') d' returned := by
  refine ⟨?_, ?_, ?_, ?_⟩
  · intro p hp
    rw [Option.bind_some, hstep.txn_eq] at hp
    exact ⟨(h.txn p hp).1.trans_le hstep.made_le, (h.txn p hp).2⟩
  · intro p hp
    cases hstep with
    | check q hstate | running b q hstate | load q hstate | tainted b q hstate =>
      cases hp
      refine hG.endings_eq_nil ?_
      rw [hstate]
      rfl
    | verify q => exact h.live p hp
    | _ => cases hp
  · intro p state hp
    cases hstep with
    | commit q | abort b q =>
      cases hp
      refine ⟨h.live _ rfl, ?_⟩
      rw [state_setState, if_pos rfl]
    | update q | remove b q => exact h.stored p state hp
    | _ => cases hp
  · intro p hp hnil hnot
    have hbefore : (d.txns p).state.unfinished = true := by
      refine h.unended p hp hnil ?_
      intro state hstored
      refine hnot state ?_
      cases hstep with
      | update q | remove b q => exact hstored
      | _ => cases hstored
    by_cases hlive : c.live = some p
    · cases hstep with
      | commit q | abort b q =>
        cases hlive
        exact absurd rfl (hnot _)
      | taint q =>
        cases hlive
        rw [state_setState, if_pos rfl]
        rfl
      | verify q => exact hbefore
      | _ => cases hlive
    · exact hstep.unfinished_of_not_live hlive hbefore

theorem OwnEnds.go_other {q : Option Pc} (h : OwnEnds owner u q d returned)
    (hown : OwnEnds owner t (some c) d returned) (hu : u ≠ t) (hstep : GoStep d c d' c') :
    OwnEnds owner u q d' returned := by
  have hnot : ∀ p, owner p = u → c.live ≠ some p := by
    intro p hp hlive
    exact hu (hp.symm.trans (hown.txn p (txn_of_live hlive)).2)
  refine ⟨?_, h.live, ?_, ?_⟩
  · intro p hp
    exact ⟨(h.txn p hp).1.trans_le hstep.made_le, (h.txn p hp).2⟩
  · intro p state hp
    obtain ⟨hnil, hstate⟩ := h.stored p state hp
    obtain ⟨c₂, rfl, hc₂⟩ := Option.bind_eq_some_iff.mp hp
    obtain ⟨hlt, howner⟩ := h.txn p (txn_of_stored hc₂)
    exact ⟨hnil, (hstep.state_of_not_live hlt (hnot p howner)).trans hstate⟩
  · intro p hp hnil hstored
    exact hstep.unfinished_of_not_live (hnot p hp) (h.unended p hp hnil hstored)

theorem SharedEnds.return_ {r : Answer} (h : SharedEnds d returned) (hown : OwnEnds owner t (some c) d returned)
    (hstep : ReturnStep d c r) : SharedEnds d (returned ++ [(t, r)]) := by
  refine ⟨?_, ?_⟩
  · intro p hp
    rw [endings_append] at hp
    cases hr : r.ended p with
    | none =>
      rw [hr, Option.toList_none, List.append_nil] at hp
      exact h.made p hp
    | some state => exact (hown.txn p (txn_of_stored ((hstep.ended_iff p state).mp hr))).1
  · intro p
    rw [endings_append]
    cases hr : r.ended p with
    | none =>
      rw [Option.toList_none, List.append_nil]
      exact h.ended p
    | some state =>
      obtain ⟨hnil, hstate⟩ := hown.stored p state ((hstep.ended_iff p state).mp hr)
      right
      rw [hnil, hstate]
      rfl

theorem OwnEnds.return_ {r : Answer} (h : OwnEnds owner t (some c) d returned) (hstep : ReturnStep d c r) :
    OwnEnds owner t none d (returned ++ [(t, r)]) := by
  refine ⟨fun _ hp => (nomatch hp), fun _ hp => (nomatch hp), fun _ _ hp => (nomatch hp), ?_⟩
  intro p hp hnil _
  rw [endings_append, List.append_eq_nil_iff, Option.toList_eq_nil_iff] at hnil
  refine h.unended p hp hnil.1 ?_
  intro state hstored
  rw [(hstep.ended_iff p state).mpr hstored] at hnil
  cases hnil.2

theorem OwnEnds.return_other {q : Option Pc} {r : Answer} (h : OwnEnds owner u q d returned)
    (hown : OwnEnds owner t (some c) d returned) (hu : u ≠ t) (hstep : ReturnStep d c r) :
    OwnEnds owner u q d (returned ++ [(t, r)]) := by
  have hsame : ∀ p, owner p = u → endings p (returned ++ [(t, r)]) = endings p returned := by
    intro p hp
    rw [endings_append]
    cases hr : r.ended p with
    | none => exact List.append_nil _
    | some state =>
      have hstored := (hstep.ended_iff p state).mp hr
      exact absurd (hp.symm.trans (hown.txn p (txn_of_stored hstored)).2) hu
  refine ⟨h.txn, ?_, ?_, ?_⟩
  · intro p hp
    obtain ⟨c₂, rfl, hc₂⟩ := Option.bind_eq_some_iff.mp hp
    rw [hsame p (h.txn p (txn_of_live hc₂)).2]
    exact h.live p hp
  · intro p state hp
    obtain ⟨c₂, rfl, hc₂⟩ := Option.bind_eq_some_iff.mp hp
    rw [hsame p (h.txn p (txn_of_stored hc₂)).2]
    exact h.stored p state hp
  · intro p hp
    rw [hsame p hp]
    exact h.unended p hp

/-- What threads keep that share no transaction. -/
theorem keeps_ended (owner : ℕ → ι) :
    Keeps code (fun _ t k => ∀ p, k.txn = some p → owner p = t) SharedEnds (OwnEnds owner) (fun _ _ => True) where
  enter _ hk hidle h := hidle.enter hk (enter_step h)
  take _ hown h := hown.take (act_take h)
  go hG hown h :=
    ⟨hG.go hown (act_go h), hown.go hG (act_go h), fun _ _ hu _ hq => hq.go_other hown hu (act_go h)⟩
  return_ hG hown h :=
    ⟨hG.return_ hown (act_return h), hown.return_ (act_return h),
      fun _ _ hu _ hq => hq.return_other hown hu (act_return h)⟩
  halt _ _ _ := trivial

theorem sharedEnds_new : SharedEnds Manager.new ([] : List (ι × Answer)) where
  made _ h := absurd rfl h
  ended _ := .inl rfl

theorem ownEnds_new (owner : ℕ → ι) (t : ι) : OwnEnds owner t none Manager.new [] where
  txn _ h := nomatch h
  live _ h := nomatch h
  stored _ _ h := nomatch h
  unended _ _ _ _ := rfl

end Ended

/-- **A transaction that only one thread commits, aborts and taints is ended at most once**: the thread is told of no
other end than the state the transaction has from then on.  Between its calls, one it has not ended is unfinished. -/
theorem ended_at_most_once {ι : Type} [DecidableEq ι] [Fintype ι] (owner : ℕ → ι) (ms : List (ι × Move Call))
    (hms : ∀ t k, (t, .call k) ∈ ms → ∀ p, k.txn = some p → owner p = t) :
    let s := Threads.run code (start .new) ms
    ∀ p, (endings p s.returned = [] ∨ endings p s.returned = [(s.data.txns p).state]) ∧
      (endings p s.returned = [] → s.pc (owner p) = none → (s.data.txns p).state.unfinished = true) := by
  intro s p
  have hinv : Inv code SharedEnds (OwnEnds owner) (fun _ _ => True) s :=
    (keeps_ended owner).run (inv_start sharedEnds_new (ownEnds_new owner)) (Threads.along_of_forall code hms _)
  refine ⟨hinv.shared.ended p, ?_⟩
  intro hnil hidle
  refine (hinv.ok (owner p)).unended p rfl hnil ?_
  rw [hidle]
  rintro state ⟨⟩

/-- Two threads, each with a transaction of its own; one commits, the other aborts. -/
def oneEach : List (Bool × Move Call) :=
  (false, .call (.begin .snapshotIsolation)) :: (true, .call (.begin .serializable)) ::
    List.replicate 4 (false, .go) ++ List.replicate 4 (true, .go) ++
    [(true, .call (.abort 1)), (false, .call (.commit 0))] ++
    (List.replicate 8 [(true, .go), (false, .go)]).flatten

theorem ended_at_most_once_oneEach :
    let s := Threads.run code (start .new) oneEach
    (endings 0 s.returned = [.committed] ∧ endings 1 s.returned = [.aborted]) ∧
      ∀ p, (endings p s.returned = [] ∨ endings p s.returned = [(s.data.txns p).state]) ∧
        (endings p s.returned = [] → s.pc (decide (p = 1)) = none → (s.data.txns p).state.unfinished = true) := by
  refine ⟨by decide +kernel, ended_at_most_once (fun p => decide (p = 1)) oneEach ?_⟩
  intro t k hk p hp
  have hgiven : ∀ m ∈ oneEach, ∀ p ∈ (match m.2 with | .call k => k.txn | .go => none), decide (p = 1) = m.1 := by
    decide +kernel
  exact hgiven _ hk p hp

-- two threads end one transaction: the check of `Abort` comes before the store of `Commit`, and both succeed
example :
    endings 0 (Threads.run code (start .new)
      ((false, .call (.begin .serializable)) :: List.replicate 4 (false, .go) ++
        [(true, .call (.abort 0)), (true, .go), (false, .call (.commit 0))] ++ List.replicate 7 (false, .go) ++
        List.replicate 4 (true, .go))).returned = [.committed, .aborted] := by
  decide +kernel

/-! ## Every call comes to its end -/

section Finish

/-- `commit_mutex_` is taken before `txn_map_mutex_`. -/
def Latch.rank : Latch → ℕ
  | .commitMutex => 0
  | .txnMapMutex => 1

/-- The most steps that a call has left. -/
def Pc.effort : Pc → ℕ
  | .beginLock _ => 3
  | .beginInsert _ => 2
  | .beginAdd _ => 1
  | .beginReturn _ => 0
  | .commitLock _ => 6
  | .commitCheck _ => 5
  | .commitVerify _ => 4
  | .commitLockMap _ => 3
  | .commitStore _ => 2
  | .commitUpdate _ => 1
  | .commitReturn _ => 0
  | .abortCheck _ _ => 5
  | .abortCheckTainted _ _ => 4
  | .abortLockMap _ _ => 3
  | .abortStore _ _ => 2
  | .abortRemove _ _ => 1
  | .abortReturn _ _ => 0
  | .taintLoad _ => 2
  | .taintStore _ => 1
  | .taintReturn _ => 0

variable {c c' : Pc} {l : Latch} {m : Latches.Mode}

theorem TakeStep.rank_lt (hstep : TakeStep c l m c') {l' : Latch} (h : c.holds l' ≠ none) : l'.rank < l.rank := by
  cases hstep with
  | commitLockMap p =>
    cases l' with
    | commitMutex => exact Nat.one_pos
    | txnMapMutex => exact absurd rfl h
  | _ => cases l' <;> exact absurd rfl h

theorem ordered_of_rank {l' : Latch} (h : l'.rank < l.rank) : l' = .commitMutex ∧ l = .txnMapMutex := by
  cases l <;> cases l' <;> first | exact ⟨rfl, rfl⟩ | exact absurd h (by decide)

theorem TakeStep.effort_lt (hstep : TakeStep c l m c') : c'.effort < c.effort := by
  cases hstep <;> exact Nat.lt_succ_self _

theorem GoStep.effort_lt {d d' : Manager} (hstep : GoStep d c d' c') : c'.effort < c.effort := by
  cases hstep with
  | running b p h => exact (by decide : 3 < 5)
  | _ => exact Nat.lt_succ_self _

end Finish

/-- **The manager never blocks all the threads**: after any schedule they can be let go on until every call has
returned, unless `SetTainted` ends the process, or the ids come round.  A thread that takes a latch while it holds one
holds `commit_mutex_` and takes `txn_map_mutex_`. -/
theorem calls_finish {ι : Type} [DecidableEq ι] [Fintype ι] (ms : List (ι × Move Call)) :
    (∃ ts : List ι, let s := Threads.run code (start .new) (ms ++ ts.map (·, .go))
      (∀ t, s.pc t = none) ∨ s.halted = some .terminate ∨ 2 ^ 64 ≤ s.data.made) ∧
    ∀ t c l m c', (Threads.run code (start .new) ms).pc t = some c →
      code.act (Threads.run code (start .new) ms).data c = .take l m c' →
        ∀ l', code.holds c l' ≠ none → l' = .commitMutex ∧ l = .txnMapMutex := by
  have hrank : ∀ d c l m c', code.act d c = .take l m c' → ∀ l', code.holds c l' ≠ none → l'.rank < l.rank :=
    fun _ _ _ _ _ h _ hl' => (act_take h).rank_lt hl'
  have htake : ∀ d c l m c', code.act d c = .take l m c' → c'.effort < c.effort :=
    fun _ _ _ _ _ h => (act_take h).effort_lt
  have hgo : ∀ d c d' c', code.act d c = .go d' c' → c'.effort < c.effort :=
    fun _ _ _ _ h => (act_go h).effort_lt
  obtain ⟨ts, hts⟩ := exists_finish Latch.rank hrank htake hgo (Threads.run code (start .new) ms)
  refine ⟨⟨ts, ?_⟩, fun _ c l m c' _ hact l' hl' => ordered_of_rank (hrank _ c l m c' hact l' hl')⟩
  have hrun : Threads.run code (start .new) (ms ++ ts.map (·, .go)) =
      Threads.run code (Threads.run code (start .new) ms) (ts.map (·, .go)) := List.foldl_append
  intro s
  rw [← hrun] at hts
  rcases hts with hhalted | hidle
  · obtain ⟨e, he⟩ := Option.isSome_iff_exists.mp hhalted
    cases e with
    | terminate => exact .inr (.inl he)
    | dangling => exact .inr (.inr ((inv_once _).fine _ he rfl))
  · exact .inl hidle

end Journey.Transactions
