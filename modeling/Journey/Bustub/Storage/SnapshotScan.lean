import Journey.Bustub.Storage.HeapScan

/-!
# Journey.Bustub.Storage.SnapshotScan — iterating while others insert

One client makes an iterator with `MakeIterator` and drains it while other clients insert.  Every
step of the model is one critical section: reading `last_page_id_` under `latch_`, reading the tuple
count of that page, the constructor's read of the first page, each `GetTuple` and each `++`.  An
insertion is two steps, because once it has linked a new page the old one can be read again while
`latch_` and the new page are still held.

* `Sys.step`: the steps, chosen by a schedule; a step that has to wait leaves the state as it is.
* `Snapshot`: the rows in front of a stop position.
* `step_inv`: every step keeps the iterator on the snapshot.
* `snapshot_scan`: what the iterator yields along any schedule.
-/

namespace Journey.Storage

/-! ## The system -/

section System

/-- Where the iterating client is. -/
inductive Client
  | start
  | haveLast (lastPageId : Int32)
  | haveStop (stopAtRid : RID)
  | atRow (it : TableIterator)
  | gotRow (it : TableIterator)
  | finished (it : TableIterator)

/-- The heap, the insertion that holds `latch_` and the last page, the rows inserted since the
start, and the iterating client with the rows it has read. -/
structure Sys where
  heap : TableHeap
  pending : Option (TupleMeta × Tuple)
  inserted : List Row
  client : Client
  yielded : List Row

/-- One step of the schedule. -/
inductive Event
  | beginInsert (tupleMeta : TupleMeta) (tuple : Tuple)
  | finishInsert
  | client

/-- No insertion holds the write latch of page `p`. -/
def Sys.readable (s : Sys) (p : Int32) : Bool := s.pending.isNone || p ≠ s.heap.lastPageId

/-- The iterating client: `MakeIterator`, then `for (; !it.IsEnd(); ++it) it.GetTuple()`. -/
def Sys.clientStep (s : Sys) : Except HeapError Sys :=
  match s.client with
  | .start =>
    if s.pending.isNone then .ok { s with client := .haveLast s.heap.lastPageId } else .ok s
  | .haveLast p =>
    if s.readable p then .ok { s with client := .haveStop ⟨p, getNumTuples (s.heap.page p)⟩ } else .ok s
  | .haveStop stop =>
    if s.readable s.heap.firstPageId then
      .ok { s with client := .atRow (.new s.heap ⟨s.heap.firstPageId, 0⟩ stop) }
    else .ok s
  | .atRow it =>
    if it.isEnd then .ok { s with client := .finished it }
    else if s.readable it.rid.pageId then do
      let row ← s.heap.getTuple it.rid
      return { s with client := .gotRow it, yielded := s.yielded ++ [row] }
    else .ok s
  | .gotRow it =>
    if s.readable it.rid.pageId then do
      let it ← it.next s.heap
      return { s with client := .atRow it }
    else .ok s
  | .finished _ => .ok s

/-- One step.  `InsertTuple` is `findRoom` followed by `insertLast`. -/
def Sys.step (s : Sys) : Event → Except HeapError Sys
  | .beginInsert tupleMeta tuple =>
    if s.pending.isNone then do
      let h ← TableHeap.findRoom tupleMeta tuple (s.heap.fresh.length + 1) s.heap
      return { s with heap := h, pending := some (tupleMeta, tuple) }
    else .ok s
  | .finishInsert =>
    match s.pending with
    | none => .ok s
    | some (tupleMeta, tuple) => do
      let (rid, h) ← s.heap.insertLast tupleMeta tuple
      return { s with
        heap := h
        pending := none
        inserted := s.inserted ++ [(tupleMeta, { tuple with rid := rid })] }
  | .client => s.clientStep

/-- The stop position the client has recorded. -/
def Client.stop : Client → Option RID
  | .haveStop stop => some stop
  | .atRow it | .gotRow it | .finished it => some it.stopAtRid
  | _ => none

/-- Before the step: an inserted tuple is no longer than the last offset of the page it is tried on
(and the pool has a page), and the constructor finds no tuple in the first page if the recorded stop
slot is 0. -/
def StepOk (s : Sys) : Event → Prop
  | .beginInsert _ tuple =>
    s.pending = none → tuple.getLength ≤ slotEndOffset (s.heap.page s.heap.lastPageId) ∧
      s.heap.fresh ≠ []
  | .finishInsert => True
  | .client => ∀ stop, s.client = .haveStop stop → stop.slotNum = 0 →
    s.readable s.heap.firstPageId → getNumTuples (s.heap.page s.heap.firstPageId) = 0

instance (s : Sys) (ev : Event) : Decidable (StepOk s ev) :=
  match ev with
  | .beginInsert _ tuple =>
    inferInstanceAs (Decidable (s.pending = none → tuple.getLength ≤ slotEndOffset (s.heap.page s.heap.lastPageId) ∧
      s.heap.fresh ≠ []))
  | .finishInsert => isTrue trivial
  | .client =>
    match h : s.client with
    | .haveStop stop =>
      decidable_of_iff (stop.slotNum = 0 → s.readable s.heap.firstPageId →
          getNumTuples (s.heap.page s.heap.firstPageId) = 0)
        ⟨fun hok stop' heq => by rw [h] at heq; cases heq; exact hok, fun hok => hok stop h⟩
    | .start | .haveLast _ | .atRow _ | .gotRow _ | .finished _ => isTrue fun stop heq => by rw [h] at heq; cases heq

end System

/-! ## Snapshots -/

section Snapshots

variable {h h' : TableHeap} {pre pre' : List Int32} {rows yields : List Row} {stop : RID}

instance (a b : RID) : Decidable (a.Before b) :=
  inferInstanceAs (Decidable (a.pageId < b.pageId ∨ a.pageId = b.pageId ∧ a.slotNum < b.slotNum))

/-- The rows in front of the stop position: none when it is the start of the first page, else the
rows up to the one right before it. -/
def Snapshot (first : Int32) (rows : List Row) (stop : RID) (yields : List Row) : Prop :=
  (stop = ⟨first, 0⟩ ∧ yields = []) ∨
  ∃ rest, rows = yields ++ rest ∧ ∃ hne : yields ≠ [],
    stop = ⟨(yields.getLast hne).rid.pageId, (yields.getLast hne).rid.slotNum + 1⟩

theorem Snapshot.append {first : Int32} (hs : Snapshot first rows stop yields) (extra : List Row) :
    Snapshot first (rows ++ extra) stop yields := by
  rcases hs with hs | ⟨rest, rfl, hlast⟩
  · exact .inl hs
  · exact .inr ⟨rest ++ extra, by rw [List.append_assoc], hlast⟩

theorem RID.Before.trans {a b c : RID} (hab : a.Before b) (hbc : b.Before c) : a.Before c := by
  rcases hab with hab | ⟨hab, hs⟩
  · rcases hbc with hbc | ⟨hbc, -⟩
    · exact .inl (Int32.lt_trans hab hbc)
    · exact .inl (hbc ▸ hab)
  · rcases hbc with hbc | ⟨hbc, hs'⟩
    · exact .inl (hab ▸ hbc)
    · exact .inr ⟨hab.trans hbc, by omega⟩

theorem RID.before_succ (a : RID) : a.Before ⟨a.pageId, a.slotNum + 1⟩ := .inr ⟨rfl, Nat.lt_succ_self _⟩

/-- Nothing lies between a position and its successor. -/
theorem RID.not_before_succ {a b : RID} (hab : a.Before b) : ¬ b.Before ⟨a.pageId, a.slotNum + 1⟩ := by
  intro hb
  rcases hab with hlt | ⟨heq, hs⟩
  · rcases hb with hlt' | ⟨heq', -⟩
    · exact Int32.lt_irrefl (Int32.lt_trans hlt hlt')
    · exact Int32.lt_irrefl (heq' ▸ hlt)
  · rcases hb with hlt' | ⟨-, hs'⟩
    · exact Int32.lt_irrefl (heq ▸ hlt')
    · dsimp only at hs'
      omega

/-- No page comes before the first one. -/
theorem HeapRep.first_le (hr : HeapRep h pre rows) {p : Int32} (hp : p ∈ pre ++ [h.lastPageId]) :
    ¬ p < h.firstPageId := by
  intro hlt
  obtain ⟨rest, hrest⟩ : ∃ rest, pre ++ [h.lastPageId] = h.firstPageId :: rest :=
    List.head?_eq_some_iff.mp hr.first
  have hsorted := hr.sorted
  rw [← List.singleton_append, ← List.append_assoc, hrest] at hsorted
  rw [hrest] at hp
  rcases List.mem_cons.mp hp with rfl | hmem
  · exact Int32.lt_irrefl hlt
  · have hgt := (List.pairwise_append.mp hsorted).1
    exact Int32.lt_irrefl (Int32.lt_trans ((List.pairwise_cons.mp hgt).1 p hmem) hlt)

/-- **A snapshot is exactly the rows strictly before the stop position.** -/
theorem snapshot_eq_filter (hr : HeapRep h pre rows) (hs : Snapshot h.firstPageId rows stop yields) :
    rows.filter (fun r => r.rid.Before stop) = yields := by
  rcases hs with ⟨rfl, rfl⟩ | ⟨rest, rfl, hne, rfl⟩
  · rw [List.filter_eq_nil_iff]
    intro r hmem hbefore
    have hle := hr.first_le (hr.page_of_row hmem).1
    rcases of_decide_eq_true hbefore with hlt | ⟨-, hlt⟩
    · exact hle hlt
    · exact absurd hlt (Nat.not_lt_zero _)
  · have hsorted := List.pairwise_append.mp hr.sorted_rows
    rw [List.filter_append, List.filter_eq_self.mpr, List.filter_eq_nil_iff.mpr, List.append_nil]
    · intro r hmem hbefore
      refine RID.not_before_succ ?_ (of_decide_eq_true hbefore)
      exact hsorted.2.2 _ (List.getLast_mem hne) r hmem
    · intro r hmem
      refine decide_eq_true ?_
      -- every yielded row is the last one or before it
      obtain ⟨i, hi, rfl⟩ := List.getElem_of_mem hmem
      rw [List.getLast_eq_getElem]
      rcases Nat.lt_or_ge i (yields.length - 1) with hlt | hge
      · exact (List.pairwise_iff_getElem.mp hsorted.1 i _ hi (by omega) hlt).trans (RID.before_succ _)
      · have hi' : i = yields.length - 1 := by omega
        subst hi'
        exact RID.before_succ _

/-- The rows up to the end of a page that has one. -/
theorem HeapRep.snapshot_at (hr : HeapRep h pre rows) {p : Int32} (hp : p ∈ pre ++ [h.lastPageId])
    (hpos : 0 < getNumTuples (h.page p)) :
    ∃ yields, Snapshot h.firstPageId rows ⟨p, getNumTuples (h.page p)⟩ yields := by
  obtain ⟨n, hn⟩ : ∃ n, getNumTuples (h.page p) = n + 1 := ⟨_, (Nat.succ_pred_eq_of_pos hpos).symm⟩
  obtain ⟨before, after, hsplit⟩ := List.append_of_mem hp
  have hpage : pageRows (h.page p) p =
      (List.range n).map (fun i => rowAt (h.page p) ⟨p, i⟩) ++ [rowAt (h.page p) ⟨p, n⟩] := by
    rw [pageRows, hn, List.range_succ, List.map_append, List.map_singleton]
  refine ⟨before.flatMap (fun q => pageRows (h.page q) q) ++ pageRows (h.page p) p, .inr
    ⟨after.flatMap (fun q => pageRows (h.page q) q), ?_, ?_, ?_⟩⟩
  · rw [hr.rows_eq, hsplit, List.flatMap_append, List.flatMap_cons, List.append_assoc]
  · rw [hpage]
    simp
  · simp only [hpage, ← List.append_assoc, List.getLast_concat, rid_rowAt, hn]

/-- A heap with a row has one in its first page. -/
theorem HeapRep.first_full (hr : HeapRep h pre rows) (hne : rows ≠ []) :
    0 < getNumTuples (h.page h.firstPageId) := by
  by_contra h0
  have hfirst : h.firstPageId ∈ pre ++ [h.lastPageId] := List.mem_of_mem_head? hr.first
  cases pre with
  | nil =>
    have hone : h.firstPageId = h.lastPageId := by simpa using hfirst
    refine hne ?_
    rw [hr.rows_eq, List.nil_append, List.flatMap_singleton]
    exact pageRows_of_empty (by rw [← hone]; omega)
  | cons q pre =>
    have hq : q = h.firstPageId := by simpa using hr.first
    have hfull := hr.full q (List.mem_cons_self ..)
    rw [hq] at hfull
    exact h0 hfull

end Snapshots

/-! ## The invariant -/

section Invariant

variable {h h' : TableHeap} {pre pre' : List Int32} {rows rows₀ yielded : List Row} {s : Sys}

/-- The iterator stands on row `i` of the snapshot. -/
def OnRow (first : Int32) (rows : List Row) (it : TableIterator) (yields : List Row) (i : ℕ) : Prop :=
  Snapshot first rows it.stopAtRid yields ∧ i ≤ yields.length ∧ it.rid = cursor yields i

/-- What the client knows about the heap, and what it has read. -/
def ClientInv (h : TableHeap) (pre : List Int32) (rows yielded : List Row) : Client → Prop
  | .start => yielded = []
  | .haveLast p => yielded = [] ∧ p ∈ pre ++ [h.lastPageId] ∧
      (p = h.firstPageId ∨ 0 < getNumTuples (h.page p))
  | .haveStop stop => yielded = [] ∧ ∃ yields, Snapshot h.firstPageId rows stop yields
  | .atRow it => ∃ yields i, OnRow h.firstPageId rows it yields i ∧ yielded = yields.take i
  | .gotRow it => ∃ yields i, OnRow h.firstPageId rows it yields i ∧ i < yields.length ∧
      yielded = yields.take (i + 1)
  | .finished it => Snapshot h.firstPageId rows it.stopAtRid yielded

/-- Between insertions the heap is settled; during one its tuple fits the last page. -/
def PendingInv (h : TableHeap) (pre : List Int32) : Option (TupleMeta × Tuple) → Prop
  | none => Settled h pre
  | some (_, t) => Fits (h.page h.lastPageId) t

/-- The invariant of the system, which started with the rows `rows₀`. -/
def SysInv (rows₀ : List Row) (s : Sys) : Prop :=
  ∃ pre, HeapRep s.heap pre (rows₀ ++ s.inserted) ∧ PendingInv s.heap pre s.pending ∧
    ClientInv s.heap pre (rows₀ ++ s.inserted) s.yielded s.client

/-- Growth of the heap does not touch what the client knows. -/
theorem ClientInv.grow {c : Client} (hc : ClientInv h pre rows yielded c) (hg : Grows h pre h' pre')
    (extra : List Row) : ClientInv h' pre' (rows ++ extra) yielded c := by
  cases c with
  | start => exact hc
  | haveLast p =>
    obtain ⟨hy, hp, hnum⟩ := hc
    refine ⟨hy, hg.pages p hp, ?_⟩
    rcases hnum with hfirst | hpos
    · exact .inl (hfirst.trans hg.first.symm)
    · exact .inr (lt_of_lt_of_le hpos (hg.num p hp))
  | haveStop stop =>
    obtain ⟨hy, yields, hs⟩ := hc
    refine ⟨hy, yields, ?_⟩
    rw [hg.first]
    exact hs.append extra
  | atRow it =>
    obtain ⟨yields, i, ⟨hs, hi, hrid⟩, hy⟩ := hc
    refine ⟨yields, i, ⟨?_, hi, hrid⟩, hy⟩
    rw [hg.first]
    exact hs.append extra
  | gotRow it =>
    obtain ⟨yields, i, ⟨hs, hi, hrid⟩, hlt, hy⟩ := hc
    refine ⟨yields, i, ⟨?_, hi, hrid⟩, hlt, hy⟩
    rw [hg.first]
    exact hs.append extra
  | finished it =>
    have hs : Snapshot h.firstPageId rows it.stopAtRid yielded := hc
    show Snapshot h'.firstPageId (rows ++ extra) it.stopAtRid yielded
    rw [hg.first]
    exact hs.append extra

/-- A cursor inside a snapshot is on a row of the heap. -/
theorem OnRow.row {first : Int32} {it : TableIterator} {yields : List Row} {i : ℕ}
    (ho : OnRow first rows it yields i) (hi : i < yields.length) :
    ∃ rest, rows = yields ++ rest ∧ (∀ hne : yields ≠ [], it.stopAtRid =
      ⟨(yields.getLast hne).rid.pageId, (yields.getLast hne).rid.slotNum + 1⟩) := by
  rcases ho.1 with ⟨-, rfl⟩ | ⟨rest, hrows, hne, hstop⟩
  · simp at hi
  · exact ⟨rest, hrows, fun _ => hstop⟩

theorem OnRow.not_end (hr : HeapRep h pre rows) {it : TableIterator} {yields : List Row} {i : ℕ}
    (ho : OnRow h.firstPageId rows it yields i) : it.isEnd = false ↔ i < yields.length := by
  unfold TableIterator.isEnd
  rw [decide_eq_false_iff_not, ho.2.2]
  constructor
  · intro hvalid
    by_contra hge
    rw [cursor_of_ge (by omega)] at hvalid
    exact hvalid rfl
  · intro hi
    obtain ⟨rest, hrows, -⟩ := ho.row hi
    have hmem : yields[i] ∈ rows := by
      rw [hrows]
      exact List.mem_append_left _ (List.getElem_mem hi)
    rw [cursor_of_lt hi]
    exact hr.valid_page (hr.page_of_row hmem).1

/-- **The constructor** puts the cursor on the snapshot's first row, or ends. -/
theorem onRow_new (hr : HeapRep h pre rows) {stop : RID} {yields : List Row}
    (hs : Snapshot h.firstPageId rows stop yields)
    (hempty : stop.slotNum = 0 → getNumTuples (h.page h.firstPageId) = 0) :
    OnRow h.firstPageId rows (.new h ⟨h.firstPageId, 0⟩ stop) yields 0 := by
  have hvalid := hr.valid_page (List.mem_of_mem_head? hr.first)
  have hstop : (TableIterator.new h ⟨h.firstPageId, 0⟩ stop).stopAtRid = stop := by
    unfold TableIterator.new
    split_ifs
    · rfl
    · rfl
    · rfl
  refine ⟨by rwa [hstop], Nat.zero_le _, ?_⟩
  unfold TableIterator.new
  dsimp only
  rw [if_neg hvalid]
  rcases hs with ⟨rfl, rfl⟩ | ⟨rest, hrows, hne, hstop'⟩
  · rw [if_pos (by rw [hempty rfl])]
    rfl
  · have hpos : 0 < getNumTuples (h.page h.firstPageId) := by
      refine hr.first_full ?_
      rw [hrows]
      exact List.append_ne_nil_of_left_ne_nil hne _
    have hlen : 0 < yields.length := List.length_pos_of_ne_nil hne
    have hcur : cursor yields 0 = cursor rows 0 := by
      rw [cursor_of_lt hlen, cursor_of_lt (by rw [hrows, List.length_append]; omega)]
      simp only [hrows, List.getElem_append_left hlen]
    rw [if_neg (by omega), hcur, hr.first_row hpos]

/-- `GetTuple` on a row of the snapshot. -/
theorem clientStep_atRow (hr : HeapRep s.heap pre rows) {it : TableIterator} {yields : List Row} {i : ℕ}
    (hcl : s.client = .atRow it) (ho : OnRow s.heap.firstPageId rows it yields i)
    (hi : i < yields.length) (hread : s.readable it.rid.pageId = true) :
    s.clientStep =
      .ok { s with client := .gotRow it, yielded := s.yielded ++ [yields.get ⟨i, hi⟩] } := by
  have hend := (ho.not_end hr).mpr hi
  obtain ⟨rest, hrows, -⟩ := ho.row hi
  have hget : s.heap.getTuple it.rid = .ok yields[i] := by
    rw [ho.2.2, cursor_of_lt hi]
    refine hr.getTuple_row ?_
    rw [hrows]
    exact List.mem_append_left _ (List.getElem_mem hi)
  unfold Sys.clientStep
  rw [hcl]
  dsimp only
  rw [hend, if_neg Bool.false_ne_true, if_pos hread, hget, ok_bind]
  rfl

/-- `++` on a row of the snapshot. -/
theorem clientStep_gotRow (hr : HeapRep s.heap pre rows) {it : TableIterator} {yields : List Row}
    {i : ℕ} (hcl : s.client = .gotRow it) (ho : OnRow s.heap.firstPageId rows it yields i)
    (hi : i < yields.length) (hread : s.readable it.rid.pageId = true) :
    s.clientStep = .ok { s with client := .atRow ⟨cursor yields (i + 1), it.stopAtRid⟩ } := by
  obtain ⟨rest, hrows, hstop⟩ := ho.row hi
  have hnext : TableIterator.next s.heap it = .ok ⟨cursor yields (i + 1), it.stopAtRid⟩ := by
    have hit : it = ⟨cursor yields i, it.stopAtRid⟩ := by rw [← ho.2.2]
    rw [hit]
    exact next_cursor (hrows ▸ hr) hstop hi
  unfold Sys.clientStep
  rw [hcl]
  dsimp only
  rw [if_pos hread, hnext, ok_bind]
  rfl

/-- `IsEnd` behind the snapshot. -/
theorem clientStep_end (hr : HeapRep s.heap pre rows) {it : TableIterator} {yields : List Row} {i : ℕ}
    (hcl : s.client = .atRow it) (ho : OnRow s.heap.firstPageId rows it yields i)
    (hi : ¬ i < yields.length) : s.clientStep = .ok { s with client := .finished it } := by
  have hend : it.isEnd = true := by
    rw [← Bool.not_eq_false, ho.not_end hr]
    exact hi
  unfold Sys.clientStep
  rw [hcl]
  dsimp only
  rw [if_pos hend]

/-- **The client's steps** keep the invariant and never fail. -/
theorem clientStep_inv (hI : SysInv rows₀ s) (hok : StepOk s .client) :
    ∃ s', s.clientStep = .ok s' ∧ SysInv rows₀ s' := by
  obtain ⟨pre, hr, hp, hc⟩ := hI
  -- a step that waits changes nothing
  have hwait : SysInv rows₀ s := ⟨pre, hr, hp, hc⟩
  cases hcl : s.client with
  | start =>
    rw [hcl] at hc
    unfold Sys.clientStep
    rw [hcl]
    by_cases hnone : s.pending.isNone
    · dsimp only
      rw [if_pos hnone]
      refine ⟨_, rfl, pre, hr, hp, hc, hr.last_mem, ?_⟩
      rw [Option.isNone_iff_eq_none.mp hnone] at hp
      rcases hp with rfl | hpos
      · left
        simpa using hr.first
      · exact .inr hpos
    · dsimp only
      rw [if_neg hnone]
      exact ⟨s, rfl, hwait⟩
  | haveLast p =>
    rw [hcl] at hc
    obtain ⟨hy, hmem, hnum⟩ := hc
    unfold Sys.clientStep
    rw [hcl]
    by_cases hread : s.readable p
    · dsimp only
      rw [if_pos hread]
      refine ⟨_, rfl, pre, hr, hp, hy, ?_⟩
      rcases Nat.eq_zero_or_pos (getNumTuples (s.heap.page p)) with h0 | hpos
      · refine ⟨[], .inl ⟨?_, rfl⟩⟩
        rcases hnum with rfl | hpos
        · rw [h0]
        · omega
      · exact hr.snapshot_at hmem hpos
    · dsimp only
      rw [if_neg hread]
      exact ⟨s, rfl, hwait⟩
  | haveStop stop =>
    rw [hcl] at hc
    obtain ⟨hy, yields, hs⟩ := hc
    unfold Sys.clientStep
    rw [hcl]
    by_cases hread : s.readable s.heap.firstPageId
    · dsimp only
      rw [if_pos hread]
      refine ⟨_, rfl, pre, hr, hp, yields, 0, ?_, hy⟩
      exact onRow_new hr hs fun h0 => hok stop hcl h0 hread
    · dsimp only
      rw [if_neg hread]
      exact ⟨s, rfl, hwait⟩
  | atRow it =>
    rw [hcl] at hc
    obtain ⟨yields, i, ho, hy⟩ := hc
    by_cases hi : i < yields.length
    · by_cases hread : s.readable it.rid.pageId
      · refine ⟨_, clientStep_atRow hr hcl ho hi hread, pre, hr, hp, yields, i, ho, hi, ?_⟩
        rw [hy, List.take_succ_eq_append_getElem hi]
        rfl
      · have hend := (ho.not_end hr).mpr hi
        refine ⟨s, ?_, hwait⟩
        unfold Sys.clientStep
        rw [hcl]
        dsimp only
        rw [hend, if_neg Bool.false_ne_true, if_neg hread]
    · refine ⟨_, clientStep_end hr hcl ho hi, pre, hr, hp, ?_⟩
      have hall : s.yielded = yields := by
        rw [hy]
        exact List.take_of_length_le (by omega)
      show Snapshot s.heap.firstPageId _ it.stopAtRid s.yielded
      rw [hall]
      exact ho.1
  | gotRow it =>
    rw [hcl] at hc
    obtain ⟨yields, i, ho, hi, hy⟩ := hc
    by_cases hread : s.readable it.rid.pageId
    · exact ⟨_, clientStep_gotRow hr hcl ho hi hread, pre, hr, hp, yields, i + 1, ⟨ho.1, hi, rfl⟩, hy⟩
    · refine ⟨s, ?_, hwait⟩
      unfold Sys.clientStep
      rw [hcl]
      dsimp only
      rw [if_neg hread]
  | finished it =>
    refine ⟨s, ?_, hwait⟩
    unfold Sys.clientStep
    rw [hcl]

/-- **Every step** keeps the invariant; the only failure is a tuple too large for any page, which
ends the process. -/
theorem step_inv (ev : Event) (hI : SysInv rows₀ s) (hok : StepOk s ev) :
    (∃ s', s.step ev = .ok s' ∧ SysInv rows₀ s') ∨
      ∃ e, s.step ev = .error e ∧ e = .terminate "tuple is too large, cannot insert" := by
  cases ev with
  | client => exact .inl (clientStep_inv hI hok)
  | beginInsert tupleMeta t =>
    obtain ⟨pre, hr, hp, hc⟩ := hI
    by_cases hnone : s.pending.isNone
    · obtain ⟨hle, hfresh⟩ := hok (Option.isNone_iff_eq_none.mp hnone)
      rcases findRoom_rep tupleMeta hr hle hfresh with ⟨hterm, -⟩ | ⟨h', pre', hroom, hr', hfit, hg⟩
      · refine .inr ⟨_, ?_, rfl⟩
        simp only [Sys.step, hnone, if_true, hterm, error_bind]
      · refine .inl ⟨{ s with heap := h', pending := some (tupleMeta, t) }, ?_, pre', hr', hfit, ?_⟩
        · simp only [Sys.step, hnone, if_true, hroom, ok_bind]
          rfl
        have hgrow := hc.grow hg []
        rwa [List.append_nil] at hgrow
    · refine .inl ⟨s, if_neg hnone, pre, hr, hp, hc⟩
  | finishInsert =>
    obtain ⟨pre, hr, hp, hc⟩ := hI
    left
    cases hpend : s.pending with
    | none => exact ⟨s, by simp only [Sys.step, hpend], pre, hr, hp, hc⟩
    | some entry =>
      obtain ⟨tupleMeta, t⟩ := entry
      rw [hpend] at hp
      obtain ⟨rid, h', hins, hr', hset, hg⟩ := insertLast_grows tupleMeta hr hp
      refine ⟨{ s with
        heap := h'
        pending := none
        inserted := s.inserted ++ [(tupleMeta, { t with rid := rid })] }, ?_, pre, ?_, hset, ?_⟩
      · simp only [Sys.step, hpend, hins, ok_bind]
        rfl
      · show HeapRep h' pre (rows₀ ++ (s.inserted ++ _))
        rw [← List.append_assoc]
        exact hr'
      · show ClientInv h' pre (rows₀ ++ (s.inserted ++ _)) s.yielded s.client
        rw [← List.append_assoc]
        exact hc.grow hg _

end Invariant

/-! ## Schedules -/

section Schedules

variable {pre : List Int32} {rows rows₀ : List Row} {s : Sys}

/-- The system when the client is about to call `MakeIterator`. -/
def Sys.start (h : TableHeap) : Sys := ⟨h, none, [], .start, []⟩

theorem finished_stays {it : TableIterator} (hcl : s.client = .finished it) (n : ℕ) :
    (List.replicate n Event.client).foldlM Sys.step s = .ok s := by
  have hstep : s.step .client = .ok s := by
    unfold Sys.step Sys.clientStep
    rw [hcl]
  induction n with
  | zero => rfl
  | succ n ih => rw [List.replicate_succ, List.foldlM_cons, hstep, ok_bind, ih]

/-- **Draining**: left alone, the client reads the rest of its snapshot, two steps a row. -/
theorem drain_atRow {yields : List Row} (n : ℕ) : ∀ (s : Sys) (it : TableIterator) (i : ℕ),
    HeapRep s.heap pre rows → s.pending = none → s.client = .atRow it →
    OnRow s.heap.firstPageId rows it yields i → s.yielded = yields.take i → yields.length - i ≤ n →
    ∃ s' it', (List.replicate (2 * n + 1) Event.client).foldlM Sys.step s = .ok s' ∧
      s'.client = .finished it' ∧ s'.yielded = yields := by
  induction n with
  | zero =>
    intro s it i hr _ hcl ho hy hn
    have hstep : s.step .client = .ok { s with client := .finished it } :=
      clientStep_end hr hcl ho (by omega)
    refine ⟨{ s with client := .finished it }, it, ?_, rfl, ?_⟩
    · rw [Nat.mul_zero, Nat.zero_add, List.replicate_one, List.foldlM_cons, hstep, ok_bind]
      rfl
    · show s.yielded = yields
      rw [hy]
      exact List.take_of_length_le (by omega)
  | succ n ih =>
    intro s it i hr hp hcl ho hy hn
    have hread : ∀ p, s.readable p = true := by
      intro p
      unfold Sys.readable
      rw [hp]
      rfl
    by_cases hi : i < yields.length
    · -- `GetTuple`, `++`, and the rest
      obtain ⟨s', it', hrun, hfin, hall⟩ := ih
        { s with
          client := .atRow ⟨cursor yields (i + 1), it.stopAtRid⟩
          yielded := s.yielded ++ [yields.get ⟨i, hi⟩] }
        ⟨cursor yields (i + 1), it.stopAtRid⟩ (i + 1) hr hp rfl ⟨ho.1, hi, rfl⟩
        (by rw [List.take_succ_eq_append_getElem hi, ← hy]; rfl) (by omega)
      refine ⟨s', it', ?_, hfin, hall⟩
      have hget : s.step .client =
          .ok { s with client := .gotRow it, yielded := s.yielded ++ [yields.get ⟨i, hi⟩] } :=
        clientStep_atRow hr hcl ho hi (hread _)
      have hnext : Sys.step
          { s with client := .gotRow it, yielded := s.yielded ++ [yields.get ⟨i, hi⟩] } .client =
          .ok { s with
            client := .atRow ⟨cursor yields (i + 1), it.stopAtRid⟩
            yielded := s.yielded ++ [yields.get ⟨i, hi⟩] } :=
        clientStep_gotRow
          (s := { s with client := .gotRow it, yielded := s.yielded ++ [yields.get ⟨i, hi⟩] })
          hr rfl ho hi (hread _)
      have hlen : 2 * (n + 1) + 1 = 2 * n + 1 + 1 + 1 := by omega
      rw [hlen, List.replicate_succ, List.replicate_succ, List.foldlM_cons, hget, ok_bind,
        List.foldlM_cons, hnext, ok_bind]
      exact hrun
    · have hstep : s.step .client = .ok { s with client := .finished it } :=
        clientStep_end hr hcl ho hi
      refine ⟨{ s with client := .finished it }, it, ?_, rfl, ?_⟩
      · rw [List.replicate_succ, List.foldlM_cons, hstep, ok_bind]
        exact finished_stays rfl _
      · show s.yielded = yields
        rw [hy]
        exact List.take_of_length_le (by omega)

/-- What the client has read, against the rows before its stop position. -/
def ReadsSnapshot (rows : List Row) (s : Sys) : Prop :=
  (s.client.stop = none → s.yielded = []) ∧
  ∀ stop, s.client.stop = some stop →
    s.yielded <+: rows.filter (fun r => r.rid.Before stop) ∧
    ((rows.filter (fun r => r.rid.Before stop)).map Row.rid).Nodup ∧
    (∀ it, s.client = .finished it → s.yielded = rows.filter fun r => r.rid.Before stop) ∧
    (∀ it, s.client = .atRow it → s.pending = none → ∃ s' it',
      (List.replicate (2 * (rows.filter fun r => r.rid.Before stop).length + 1) Event.client).foldlM
        Sys.step s = .ok s' ∧ s'.client = .finished it' ∧
      s'.yielded = rows.filter fun r => r.rid.Before stop)

/-- What the client has read is the front of a snapshot of its stop position. -/
theorem ClientInv.snapshot {h : TableHeap} {yielded : List Row} {c : Client} {stop : RID}
    (hc : ClientInv h pre rows yielded c) (hstop : c.stop = some stop) :
    ∃ yields, Snapshot h.firstPageId rows stop yields ∧ yielded <+: yields ∧
      ∀ it, c = .finished it → yielded = yields := by
  cases c with
  | start => cases hstop
  | haveLast p => cases hstop
  | haveStop stop' =>
    cases hstop
    obtain ⟨rfl, yields, hs⟩ := hc
    exact ⟨yields, hs, List.nil_prefix, nofun⟩
  | atRow it =>
    cases hstop
    obtain ⟨yields, i, ho, rfl⟩ := hc
    exact ⟨yields, ho.1, List.take_prefix _ _, nofun⟩
  | gotRow it =>
    cases hstop
    obtain ⟨yields, i, ho, -, rfl⟩ := hc
    exact ⟨yields, ho.1, List.take_prefix _ _, nofun⟩
  | finished it =>
    cases hstop
    exact ⟨yielded, hc, List.prefix_rfl, fun _ _ => rfl⟩

theorem ClientInv.nothing_read {h : TableHeap} {yielded : List Row} {c : Client}
    (hc : ClientInv h pre rows yielded c) (hstop : c.stop = none) : yielded = [] := by
  cases c with
  | start => exact hc
  | haveLast p => exact hc.1
  | haveStop stop => cases hstop
  | atRow it => cases hstop
  | gotRow it => cases hstop
  | finished it => cases hstop

theorem SysInv.readsSnapshot (hI : SysInv rows₀ s) : ReadsSnapshot (rows₀ ++ s.inserted) s := by
  obtain ⟨pre, hr, -, hc⟩ := hI
  refine ⟨hc.nothing_read, ?_⟩
  intro stop hstop
  obtain ⟨yields, hs, hpref, hfin⟩ := hc.snapshot hstop
  have hnodup : (((rows₀ ++ s.inserted).filter fun r => r.rid.Before stop).map Row.rid).Nodup :=
    hr.nodup_rids.sublist (List.filter_sublist.map _)
  rw [snapshot_eq_filter hr hs] at hnodup ⊢
  refine ⟨hpref, hnodup, hfin, ?_⟩
  intro it hcl hp
  rw [hcl] at hc hstop
  cases hstop
  obtain ⟨yields', i, ho, hy⟩ := hc
  have hsame : yields' = yields := by
    rw [← snapshot_eq_filter hr hs, ← snapshot_eq_filter hr ho.1]
  subst hsame
  exact drain_atRow yields'.length s it i hr hp hcl ho hy (by omega)

/-- **Snapshot iteration.**  Take any heap reached by a run of calls, and any schedule of a client
that makes and drains an iterator among other clients' insertions, such that the fit test of every
insertion is exact and the constructor does not find a tuple in the first page after the stop slot
was recorded as 0.  No assertion trips: the schedule runs through, unless a tuple too large for an
empty page ends the process.  At every moment the client has read a prefix of the rows strictly
before its stop position, each once; when it is done it has read all of them, and left alone it gets
done. -/
theorem snapshot_scan (page : Int32 → Mem) (first : Int32) (fresh : List Int32)
    (hsorted : (first :: fresh).Pairwise (· < ·)) (hvalid : invalidPageId ∉ first :: fresh)
    (h₀ : TableHeap) (hcreate : TableHeap.create page (first :: fresh) = .ok h₀)
    (ops : List HeapOp) (hops : Along applyHeapOp InsertOk h₀ ops)
    (outs : List (Option RID)) (h : TableHeap) (hrun : run applyHeapOp h₀ ops = .ok (outs, h))
    (sched : List Event) (hsched : AlongM Sys.step StepOk (Sys.start h) sched) :
    (∃ s, sched.foldlM Sys.step (Sys.start h) = .ok s ∧
      ReadsSnapshot (track applyRows [] ops outs ++ s.inserted) s) ∨
    sched.foldlM Sys.step (Sys.start h) =
      .error (.terminate "tuple is too large, cannot insert") := by
  obtain ⟨pre, hr, hset⟩ := reachable_rep page hsorted hvalid hcreate hops hrun
  have hI : SysInv (track applyRows [] ops outs) (Sys.start h) := by
    refine ⟨pre, ?_, hset, rfl⟩
    show HeapRep h pre (track applyRows [] ops outs ++ [])
    rw [List.append_nil]
    exact hr
  rcases foldlM_along _ _ (fun s ev hI hok => step_inv ev hI hok) sched _ hI hsched with
    ⟨s, hs, hIs⟩ | ⟨e, he, rfl⟩
  · exact .inl ⟨s, hs, hIs.readsSnapshot⟩
  · exact .inr he

/-- What a run of the system shows: the stop position and the RIDs read, or the failure. -/
def observe (r : Except HeapError Sys) : Except HeapError (Option RID × List RID) :=
  r.map fun s => (s.client.stop, s.yielded.map Row.rid)

/-- A new heap of one page of zeros, with one more page in the pool. -/
def emptyHeap : TableHeap where
  page := Function.update (fun _ _ => 0) 0 (init fun _ => 0)
  fresh := [1]
  firstPageId := 0
  lastPageId := 0

/-- On an empty heap the stop position is the start of the first page.  A tuple that lands there
before the constructor reads the page is yielded, and the next `++` trips the assertion. -/
theorem iterator_out_of_bound :
    TableHeap.create (fun _ _ => 0) [0, 1] = .ok emptyHeap ∧
    observe ([Event.client, .client, .beginInsert ⟨0, false⟩ threeBytes, .finishInsert, .client,
      .client].foldlM Sys.step (Sys.start emptyHeap)) = .ok (some ⟨0, 0⟩, [⟨0, 0⟩]) ∧
    observe ([Event.client, .client, .beginInsert ⟨0, false⟩ threeBytes, .finishInsert, .client,
      .client, .client].foldlM Sys.step (Sys.start emptyHeap)) =
        .error (.assertion "iterate out of bound") := by
  refine ⟨rfl, ?_, ?_⟩
  · decide +kernel
  · decide +kernel

/-- The iterator of a client that is done. -/
def Client.done : Client → Option TableIterator
  | .finished it => some it
  | _ => none

theorem Client.done_eq_some {c : Client} {it : TableIterator} (h : c.done = some it) : c = .finished it := by
  cases c <;> cases h
  rfl

/-- Two more tuples are inserted: one before the client reads the tuple count, one while it iterates. -/
def inserting : List Event :=
  [.client, .beginInsert ⟨5, false⟩ threeBytes, .finishInsert, .client, .client, .client, .client,
    .beginInsert ⟨6, false⟩ threeBytes, .client, .client, .finishInsert] ++ List.replicate 7 .client

/-- On the heap of two pages that `overflowing` leaves, the client reads the five rows that were there when it read the
tuple count, and not the one that was inserted later. -/
theorem snapshot_scan_inserting : ∃ h₀ outs h s it, TableHeap.create (fun _ _ => 0) [0, 2, 5] = .ok h₀ ∧
    run applyHeapOp h₀ overflowing = .ok (outs, h) ∧ inserting.foldlM Sys.step (Sys.start h) = .ok s ∧
    s.client = .finished it ∧ s.inserted.map Row.rid = [⟨2, 2⟩, ⟨2, 3⟩] ∧
    s.yielded.map Row.rid = [⟨0, 0⟩, ⟨0, 1⟩, ⟨2, 0⟩, ⟨2, 1⟩, ⟨2, 2⟩] ∧
    s.yielded = (track applyRows [] overflowing outs ++ s.inserted).filter fun r => r.rid.Before it.stopAtRid := by
  have hrun : (do
      let h₀ ← (TableHeap.create (fun _ _ => 0) [0, 2, 5]).toOption
      let (outs, h) ← (run applyHeapOp h₀ overflowing).toOption
      let s ← (inserting.foldlM Sys.step (Sys.start h)).toOption
      let it ← s.client.done
      return (decide (Along applyHeapOp InsertOk h₀ overflowing), decide (AlongM Sys.step StepOk (Sys.start h) inserting),
        it.stopAtRid, s.inserted.map Row.rid, s.yielded.map Row.rid)) =
        some (true, true, ⟨2, 3⟩, [⟨2, 2⟩, ⟨2, 3⟩], [⟨0, 0⟩, ⟨0, 1⟩, ⟨2, 0⟩, ⟨2, 1⟩, ⟨2, 2⟩]) := by
    decide +kernel
  simp only [Option.bind_eq_bind, Option.bind_eq_some_iff, toOption_eq_some, Option.pure_def, Option.some.injEq,
    Prod.mk.injEq, decide_eq_true_eq] at hrun
  obtain ⟨h₀, hcreate, ⟨outs, h⟩, hrun, s, hs, it, hdone, hops, hsched, hstop, hinserted, hyielded⟩ := hrun
  have hcl : s.client = .finished it := Client.done_eq_some hdone
  refine ⟨h₀, outs, h, s, it, hcreate, hrun, hs, hcl, hinserted, hyielded, ?_⟩
  rcases snapshot_scan (fun _ _ => 0) 0 [2, 5] (by decide) (by decide) h₀ hcreate overflowing hops outs h hrun inserting
    hsched with ⟨s', hs', -, hreads⟩ | hterm
  · cases hs.symm.trans hs'
    have hclstop : s.client.stop = some it.stopAtRid := by rw [hcl]; rfl
    exact (hreads _ hclstop).2.2.1 it hcl
  · cases hs.symm.trans hterm

end Schedules

end Journey.Storage
