import Journey.Bustub.Storage.HeapRep
import Mathlib.Data.List.Range

/-!
# Journey.Bustub.Storage.HeapScan — iterating over a heap

* `HeapRep.sorted_rows`, `HeapRep.chain_rows`: the RIDs of a heap are increasing, and each one's
  successor is found through its page.
* `next_cursor`, `next_cursor_eager`: one `++` of an iterator moves to the next row, or ends.
* `scan_cursor`: an iterator that moves like that is drained after visiting every row once.
* `heap_runs_hold_their_rows`: any run of insertions and updates, read back by RID, by page chain
  and by both iterators.
-/

namespace Journey.Storage

variable {h : TableHeap} {pre : List Int32} {rows : List Row}

/-! ## RIDs in order -/

section Order

/-- `a` lies in an earlier page than `b`, or in an earlier slot of the same page. -/
def RID.Before (a b : RID) : Prop :=
  a.pageId < b.pageId ∨ a.pageId = b.pageId ∧ a.slotNum < b.slotNum

theorem RID.Before.ne {a b : RID} (hab : a.Before b) : a ≠ b := by
  rintro rfl
  rcases hab with hlt | ⟨-, hlt⟩
  · exact Int32.lt_irrefl hlt
  · exact lt_irrefl _ hlt

/-- The position after `rid` when nothing stops the scan. -/
def succIn (h : TableHeap) (rid : RID) : RID :=
  if rid.slotNum + 1 < getNumTuples (h.page rid.pageId) then ⟨rid.pageId, rid.slotNum + 1⟩
  else ⟨getNextPageId (h.page rid.pageId), 0⟩

/-- **The rows come in the order of their RIDs.** -/
theorem HeapRep.sorted_rows (hr : HeapRep h pre rows) : rows.Pairwise fun a b => a.rid.Before b.rid := by
  rw [hr.rows_eq, List.pairwise_flatMap]
  constructor
  · intro p _
    unfold pageRows
    rw [List.pairwise_map]
    refine List.pairwise_lt_range.imp ?_
    intro i j hij
    rw [rid_rowAt, rid_rowAt]
    exact Or.inr ⟨rfl, hij⟩
  · have hsorted : (pre ++ [h.lastPageId]).Pairwise (· < ·) := by
      refine hr.sorted.sublist ?_
      exact List.Sublist.append_left (List.singleton_sublist.mpr (List.mem_cons_self ..)) pre
    refine hsorted.imp ?_
    intro p q hpq a ha b hb
    obtain ⟨i, -, rfl⟩ := mem_pageRows ha
    obtain ⟨j, -, rfl⟩ := mem_pageRows hb
    rw [rid_rowAt, rid_rowAt]
    exact Or.inl hpq

theorem HeapRep.nodup_rids (hr : HeapRep h pre rows) : (rows.map Row.rid).Nodup := by
  refine List.pairwise_map.mpr (hr.sorted_rows.imp ?_)
  intro a b hab
  exact hab.ne

/-- Non-empty pages in a chain: each row is followed by its successor. -/
theorem chain_pages (L : List Int32) (hchain : L.IsChain fun a b => getNextPageId (h.page a) = b)
    (hfull : ∀ p ∈ L, 0 < getNumTuples (h.page p)) :
    (L.flatMap fun p => pageRows (h.page p) p).IsChain fun a b => succIn h a.rid = b.rid := by
  have hne : [] ∉ L.map fun p => pageRows (h.page p) p := by
    intro hmem
    obtain ⟨p, hp, hnil⟩ := List.mem_map.mp hmem
    have hlen := congrArg List.length hnil
    unfold pageRows at hlen
    simp only [List.length_map, List.length_range, List.length_nil] at hlen
    have := hfull p hp
    omega
  rw [List.flatMap_def, List.isChain_flatten hne]
  constructor
  · intro l hl
    obtain ⟨p, hp, rfl⟩ := List.mem_map.mp hl
    unfold pageRows
    rw [List.isChain_map, List.isChain_range]
    intro i hi
    rw [rid_rowAt, rid_rowAt]
    exact if_pos (show i + 1 < getNumTuples (h.page p) by omega)
  · rw [List.isChain_map]
    refine hchain.imp_of_mem_imp ?_
    intro p q hp hq hpq a ha b hb
    have hp' := hfull p hp
    have hq' := hfull q hq
    obtain ⟨n, hn⟩ : ∃ n, getNumTuples (h.page p) = n + 1 := ⟨_, (Nat.succ_pred_eq_of_pos hp').symm⟩
    obtain ⟨k, hk⟩ : ∃ k, getNumTuples (h.page q) = k + 1 := ⟨_, (Nat.succ_pred_eq_of_pos hq').symm⟩
    unfold pageRows at ha hb
    rw [hn, List.range_succ, List.map_append] at ha
    rw [hk, List.range_succ_eq_map] at hb
    rw [List.map_singleton, List.getLast?_concat, Option.mem_some_iff] at ha
    rw [List.map_cons, List.head?_cons, Option.mem_some_iff] at hb
    subst ha hb
    rw [rid_rowAt, rid_rowAt, ← hpq]
    exact if_neg (show ¬ n + 1 < getNumTuples (h.page p) by omega)

/-- **Each row is followed by its successor**; the last page may be empty. -/
theorem HeapRep.chain_rows (hr : HeapRep h pre rows) :
    rows.IsChain fun a b => succIn h a.rid = b.rid := by
  rw [hr.rows_eq]
  rcases Nat.eq_zero_or_pos (getNumTuples (h.page h.lastPageId)) with h0 | hpos
  · rw [List.flatMap_append, List.flatMap_singleton, pageRows_of_empty h0, List.append_nil]
    exact chain_pages pre (List.isChain_append.mp hr.chain).1 hr.full
  · refine chain_pages _ hr.chain ?_
    intro p hp
    rcases List.mem_append.mp hp with hp | hp
    · exact hr.full p hp
    · rw [List.mem_singleton.mp hp]
      exact hpos

/-- Where a scan of `rows` stands after `i` rows. -/
def cursor (rows : List Row) (i : ℕ) : RID :=
  match rows[i]? with
  | some r => r.rid
  | none => ⟨invalidPageId, 0⟩

theorem cursor_of_lt {i : ℕ} (hi : i < rows.length) : cursor rows i = rows[i].rid := by
  unfold cursor
  rw [List.getElem?_eq_getElem hi]

theorem cursor_of_ge {i : ℕ} (hi : rows.length ≤ i) : cursor rows i = ⟨invalidPageId, 0⟩ := by
  unfold cursor
  rw [List.getElem?_eq_none hi]

theorem HeapRep.succIn_row (hr : HeapRep h pre rows) {i : ℕ} (hi : i + 1 < rows.length) :
    succIn h (cursor rows i) = cursor rows (i + 1) := by
  rw [cursor_of_lt hi, cursor_of_lt (by omega : i < rows.length)]
  exact List.isChain_iff_getElem.mp hr.chain_rows i hi

theorem HeapRep.valid_cursor (hr : HeapRep h pre rows) {i : ℕ} (hi : i < rows.length) :
    (cursor rows i).pageId ≠ invalidPageId := by
  rw [cursor_of_lt hi]
  exact hr.valid_page (hr.page_of_row (List.getElem_mem hi)).1

theorem HeapRep.before_cursor (hr : HeapRep h pre rows) {i j : ℕ} (hij : i < j) (hj : j < rows.length) :
    (cursor rows i).Before (cursor rows j) := by
  rw [cursor_of_lt hj, cursor_of_lt (by omega : i < rows.length)]
  exact List.pairwise_iff_getElem.mp hr.sorted_rows i j (by omega) hj hij

/-- The last row of a non-empty last page. -/
theorem HeapRep.rows_concat (hr : HeapRep h pre rows) (hpos : 0 < getNumTuples (h.page h.lastPageId)) :
    ∃ init r, rows = init ++ [r] ∧
      r.rid = ⟨h.lastPageId, getNumTuples (h.page h.lastPageId) - 1⟩ := by
  obtain ⟨n, hn⟩ : ∃ n, getNumTuples (h.page h.lastPageId) = n + 1 :=
    ⟨_, (Nat.succ_pred_eq_of_pos hpos).symm⟩
  refine ⟨pre.flatMap (fun p => pageRows (h.page p) p) ++
    (List.range n).map fun i => rowAt (h.page h.lastPageId) ⟨h.lastPageId, i⟩,
    rowAt (h.page h.lastPageId) ⟨h.lastPageId, n⟩, ?_, ?_⟩
  · rw [hr.rows_eq, List.flatMap_append, List.flatMap_singleton]
    conv_lhs => rw [pageRows, hn, List.range_succ, List.map_append, List.map_singleton]
    rw [List.append_assoc]
  · rw [rid_rowAt, hn]
    rfl

/-- The first row of a heap whose first page has one. -/
theorem HeapRep.first_row (hr : HeapRep h pre rows) (hpos : 0 < getNumTuples (h.page h.firstPageId)) :
    cursor rows 0 = ⟨h.firstPageId, 0⟩ := by
  obtain ⟨n, hn⟩ : ∃ n, getNumTuples (h.page h.firstPageId) = n + 1 :=
    ⟨_, (Nat.succ_pred_eq_of_pos hpos).symm⟩
  obtain ⟨rest, hrest⟩ : ∃ rest, pre ++ [h.lastPageId] = h.firstPageId :: rest :=
    List.head?_eq_some_iff.mp hr.first
  have hrows : rows = rowAt (h.page h.firstPageId) ⟨h.firstPageId, 0⟩ ::
      ((List.range n).map (fun i => rowAt (h.page h.firstPageId) ⟨h.firstPageId, i + 1⟩) ++
        rest.flatMap fun p => pageRows (h.page p) p) := by
    rw [hr.rows_eq, hrest, List.flatMap_cons]
    conv_lhs => rw [pageRows, hn, List.range_succ_eq_map, List.map_cons, List.map_map]
    rfl
  have hlen : 0 < rows.length := by
    rw [hrows, List.length_cons]
    omega
  rw [cursor_of_lt hlen]
  simp only [hrows, List.getElem_cons_zero, rid_rowAt]

end Order

/-! ## One step of an iterator -/

section Step

/-- A scan that stops behind the last of `yields` moves from each of them to the next, and from the
last one to the end, however many rows follow. -/
theorem next_cursor {yields rest : List Row} (hr : HeapRep h pre (yields ++ rest)) {stop : RID}
    (hstop : ∀ hne : yields ≠ [], stop = ⟨(yields.getLast hne).rid.pageId,
      (yields.getLast hne).rid.slotNum + 1⟩) {i : ℕ} (hi : i < yields.length) :
    TableIterator.next h ⟨cursor yields i, stop⟩ = .ok ⟨cursor yields (i + 1), stop⟩ := by
  have hlen : (yields ++ rest).length = yields.length + rest.length := List.length_append
  have hcur : ∀ k, k < yields.length → cursor yields k = cursor (yields ++ rest) k := by
    intro k hk
    rw [cursor_of_lt hk, cursor_of_lt (by omega), List.getElem_append_left hk]
  have hne : yields ≠ [] := by
    rintro rfl
    simp at hi
  -- the last row that is yielded
  have hlast : stop = ⟨(cursor (yields ++ rest) (yields.length - 1)).pageId,
      (cursor (yields ++ rest) (yields.length - 1)).slotNum + 1⟩ := by
    rw [hstop hne, List.getLast_eq_getElem, ← hcur _ (by omega), cursor_of_lt (by omega)]
  set a := cursor (yields ++ rest) i with ha
  set z := cursor (yields ++ rest) (yields.length - 1) with hz
  have hvalid : z.pageId ≠ invalidPageId := hr.valid_cursor (by omega)
  unfold TableIterator.next
  rw [hcur i hi, ← ha, hlast]
  dsimp only
  rcases Nat.lt_or_ge (i + 1) yields.length with hlt | hge
  · have hbefore : a.Before z := hr.before_cursor (by omega) (by omega)
    have hsucc : succIn h a = cursor yields (i + 1) := by
      rw [hcur _ hlt]
      exact hr.succIn_row (by omega)
    have hbound : a.pageId < z.pageId ∨ a.pageId = z.pageId ∧ a.slotNum + 1 ≤ z.slotNum + 1 := by
      rcases hbefore with hb | ⟨hb, hs⟩
      · exact .inl hb
      · exact .inr ⟨hb, by omega⟩
    have hnotstop : (⟨a.pageId, a.slotNum + 1⟩ : RID) ≠ ⟨z.pageId, z.slotNum + 1⟩ := by
      intro heq
      simp only [RID.mk.injEq, Nat.add_right_cancel_iff] at heq
      rcases hbefore with hb | ⟨-, hs⟩
      · rw [heq.1] at hb
        exact Int32.lt_irrefl hb
      · omega
    rw [if_neg (fun hcon => hcon.2 hbound), if_neg hnotstop, ← hsucc]
    unfold succIn
    split_ifs
    · rfl
    · rfl
  · have hi' : i = yields.length - 1 := by omega
    have haz : a = z := by rw [ha, hz, hi']
    rw [haz, if_neg (fun hcon => hcon.2 (.inr ⟨rfl, le_refl _⟩)), if_pos rfl, cursor_of_ge hge]

/-- A scan without a stop position moves to the next row, or from the last one to the end. -/
theorem next_cursor_eager (hr : HeapRep h pre rows) (hpos : 0 < getNumTuples (h.page h.lastPageId))
    {i : ℕ} (hi : i < rows.length) :
    TableIterator.next h ⟨cursor rows i, ⟨invalidPageId, 0⟩⟩ =
      .ok ⟨cursor rows (i + 1), ⟨invalidPageId, 0⟩⟩ := by
  have hvalid := hr.valid_cursor hi
  have hsucc : succIn h (cursor rows i) = cursor rows (i + 1) := by
    rcases Nat.lt_or_ge (i + 1) rows.length with hlt | hge
    · exact hr.succIn_row hlt
    · obtain ⟨init, r, hrows, hrid⟩ := hr.rows_concat hpos
      have hcur : cursor rows i = ⟨h.lastPageId, getNumTuples (h.page h.lastPageId) - 1⟩ := by
        have hi' : i = init.length := by
          rw [hrows, List.length_append, List.length_singleton] at hi hge
          omega
        rw [cursor_of_lt hi]
        simp only [hrows, hi', List.getElem_concat_length]
        exact hrid
      rw [hcur, cursor_of_ge hge]
      unfold succIn
      dsimp only
      rw [if_neg (by omega), hr.lastNext]
  have hnotstop : (⟨(cursor rows i).pageId, (cursor rows i).slotNum + 1⟩ : RID) ≠ ⟨invalidPageId, 0⟩ := by
    intro heq
    exact hvalid (congrArg RID.pageId heq)
  unfold TableIterator.next
  dsimp only
  rw [if_neg (fun hcon => hcon.1 rfl), if_neg hnotstop, ← hsucc]
  unfold succIn
  split_ifs
  · rfl
  · rfl

end Step

/-! ## Draining an iterator -/

section Scan

/-- Up to `k` rounds of `for (; !it.IsEnd(); ++it) it.GetTuple()`: the rows read, and the iterator. -/
def scan (h : TableHeap) : ℕ → TableIterator → Except HeapError (List Row × TableIterator)
  | 0, it => .ok ([], it)
  | k + 1, it =>
    if it.isEnd then .ok ([], it)
    else do
      let row ← h.getTuple it.rid
      let it ← it.next h
      let (rows, it) ← scan h k it
      return (row :: rows, it)

/-- **An iterator that moves from row to row reads each of them once**, in order, and ends. -/
theorem scan_cursor (hr : HeapRep h pre rows) {stop : RID}
    (hstep : ∀ i < rows.length, TableIterator.next h ⟨cursor rows i, stop⟩ =
      .ok ⟨cursor rows (i + 1), stop⟩) :
    ∀ (k i : ℕ), i ≤ rows.length → rows.length - i ≤ k →
      scan h k ⟨cursor rows i, stop⟩ = .ok (rows.drop i, ⟨⟨invalidPageId, 0⟩, stop⟩)
  | 0, i, hle, hk => by
    have hi : i = rows.length := by omega
    rw [cursor_of_ge (by omega), hi, List.drop_length]
    rfl
  | k + 1, i, hle, hk => by
    rcases Nat.lt_or_ge i rows.length with hlt | hge
    · have hvalid := hr.valid_cursor hlt
      have hend : (⟨cursor rows i, stop⟩ : TableIterator).isEnd = false := decide_eq_false hvalid
      have hget : h.getTuple (cursor rows i) = .ok rows[i] := by
        rw [cursor_of_lt hlt]
        exact hr.getTuple_row (List.getElem_mem hlt)
      have hrec := scan_cursor hr hstep k (i + 1) hlt (by omega)
      rw [scan, hend, if_neg Bool.false_ne_true, hget, ok_bind, hstep i hlt, ok_bind, hrec, ok_bind,
        List.drop_eq_getElem_cons hlt]
      rfl
    · rw [cursor_of_ge hge, List.drop_eq_nil_of_le hge]
      rfl

/-- The constructor puts the cursor on the first row, if there is one. -/
theorem new_eq_cursor (hr : HeapRep h pre rows) (hset : Settled h pre) (stop : RID) :
    TableIterator.new h ⟨h.firstPageId, 0⟩ stop = ⟨cursor rows 0, stop⟩ := by
  have hfirst : h.firstPageId ∈ pre ++ [h.lastPageId] := List.mem_of_mem_head? hr.first
  unfold TableIterator.new
  dsimp only
  rw [if_neg (hr.valid_page hfirst)]
  rcases Nat.eq_zero_or_pos (getNumTuples (h.page h.firstPageId)) with h0 | hpos
  · -- only an empty heap has an empty first page
    have hrows : rows = [] := by
      rcases hset with rfl | hlast
      · have hone : h.firstPageId = h.lastPageId := by simpa using hfirst
        rw [hr.rows_eq, List.nil_append, List.flatMap_singleton]
        exact pageRows_of_empty (by rw [← hone]; exact h0)
      · rcases List.mem_append.mp hfirst with hmem | hmem
        · have := hr.full _ hmem
          omega
        · rw [← List.mem_singleton.mp hmem] at hlast
          omega
    rw [if_pos (by omega), hrows]
    rfl
  · rw [if_neg (by omega), hr.first_row hpos]

/-- A heap with a row has one in its last page. -/
theorem HeapRep.last_pos (hr : HeapRep h pre rows) (hset : Settled h pre) (hne : rows ≠ []) :
    0 < getNumTuples (h.page h.lastPageId) := by
  rcases hset with rfl | hpos
  · by_contra h0
    refine hne ?_
    rw [hr.rows_eq, List.nil_append, List.flatMap_singleton]
    exact pageRows_of_empty (by omega)
  · exact hpos

/-- `MakeIterator` moves from row to row. -/
theorem makeIterator_cursor (hr : HeapRep h pre rows) (hset : Settled h pre) :
    ∃ stop, h.makeIterator = ⟨cursor rows 0, stop⟩ ∧
      ∀ i < rows.length, TableIterator.next h ⟨cursor rows i, stop⟩ = .ok ⟨cursor rows (i + 1), stop⟩ := by
  refine ⟨_, new_eq_cursor hr hset _, ?_⟩
  intro i hi
  have hr' : HeapRep h pre (rows ++ []) := by rwa [List.append_nil]
  refine next_cursor hr' ?_ hi
  intro hrne
  have hp := hr.last_pos hset hrne
  obtain ⟨init, r, hrows, hrid⟩ := hr.rows_concat hp
  have hlast : rows.getLast hrne = r := by
    simp only [hrows, List.getLast_concat]
  rw [hlast, hrid]
  simp only [RID.mk.injEq, true_and]
  omega

/-- So does `MakeEagerIterator`. -/
theorem makeEagerIterator_cursor (hr : HeapRep h pre rows) (hset : Settled h pre) :
    ∃ stop, h.makeEagerIterator = ⟨cursor rows 0, stop⟩ ∧
      ∀ i < rows.length, TableIterator.next h ⟨cursor rows i, stop⟩ = .ok ⟨cursor rows (i + 1), stop⟩ := by
  refine ⟨_, new_eq_cursor hr hset _, ?_⟩
  intro i hi
  refine next_cursor_eager hr (hr.last_pos hset ?_) hi
  rintro rfl
  simp at hi

/-- **Both iterators visit the rows once each, in order, and end.** -/
theorem scan_iterators (hr : HeapRep h pre rows) (hset : Settled h pre) {k : ℕ}
    (hk : rows.length ≤ k) :
    (∃ it, scan h k h.makeIterator = .ok (rows, it) ∧ it.isEnd = true) ∧
    ∃ it, scan h k h.makeEagerIterator = .ok (rows, it) ∧ it.isEnd = true := by
  obtain ⟨stop, hmake, hstep⟩ := makeIterator_cursor hr hset
  obtain ⟨stop', hmake', hstep'⟩ := makeEagerIterator_cursor hr hset
  rw [hmake, hmake']
  exact ⟨⟨_, scan_cursor hr hstep k 0 (by omega) (by omega), rfl⟩,
    _, scan_cursor hr hstep' k 0 (by omega) (by omega), rfl⟩

end Scan

/-! ## Runs -/

section Runs

/-- One call on the heap. -/
inductive HeapOp
  | insertTuple (tupleMeta : TupleMeta) (tuple : Tuple)
  | updateTupleMeta (tupleMeta : TupleMeta) (rid : RID)
  | updateTupleInPlace (tupleMeta : TupleMeta) (tuple : Tuple) (rid : RID) (check : TableHeap.Check)

/-- The call writes the row at `rid`. -/
def HeapOp.Updates (rid : RID) : HeapOp → Prop
  | .insertTuple _ _ => False
  | .updateTupleMeta _ r => r = rid
  | .updateTupleInPlace _ _ r _ => r = rid

/-- Run a call: an insertion answers its RID, a thrown exception is caught by the caller and leaves
the heap as it was. -/
def applyHeapOp (h : TableHeap) : HeapOp → Except HeapError (Option RID × TableHeap)
  | .insertTuple tupleMeta tuple => do
    let (rid, h) ← h.insertTuple tupleMeta tuple
    return (some rid, h)
  | .updateTupleMeta tupleMeta rid =>
    match h.updateTupleMeta tupleMeta rid with
    | .ok h => .ok (none, h)
    | .error (.thrown _) => .ok (none, h)
    | .error e => .error e
  | .updateTupleInPlace tupleMeta tuple rid check =>
    match h.updateTupleInPlace tupleMeta tuple rid check with
    | .ok (_, h) => .ok (none, h)
    | .error (.thrown _) => .ok (none, h)
    | .error e => .error e

/-- The rows a table holds, by its calls and the RIDs they answered. -/
def applyRows (rows : List Row) : HeapOp → Option RID → List Row
  | .insertTuple tupleMeta tuple, some rid => rows ++ [(tupleMeta, { tuple with rid := rid })]
  | .insertTuple _ _, none => rows
  | .updateTupleMeta tupleMeta rid, _ => updateRow rows rid (setMeta tupleMeta)
  | .updateTupleInPlace tupleMeta tuple rid check, _ =>
    updateRow rows rid (setRow tupleMeta tuple rid check)

/-- An inserted tuple fits an empty page and is no longer than the offset of the last tuple of the
page it is tried on, and the pool has a page left. -/
def InsertOk (h : TableHeap) : HeapOp → Prop
  | .insertTuple _ tuple =>
    tuple.getLength ≤ pageSize - tablePageHeaderSize - tupleInfoSize ∧
      tuple.getLength ≤ slotEndOffset (h.page h.lastPageId) ∧ h.fresh ≠ []
  | _ => True

instance (h : TableHeap) (op : HeapOp) : Decidable (InsertOk h op) :=
  match op with
  | .insertTuple _ tuple =>
    inferInstanceAs (Decidable (tuple.getLength ≤ pageSize - tablePageHeaderSize - tupleInfoSize ∧
      tuple.getLength ≤ slotEndOffset (h.page h.lastPageId) ∧ h.fresh ≠ []))
  | .updateTupleMeta _ _ => isTrue trivial
  | .updateTupleInPlace _ _ _ _ => isTrue trivial

/-- The heap holds `rows` in pages taken from `supply`. -/
def Holds (supply : List Int32) (first : Int32) (h : TableHeap) (rows : List Row) : Prop :=
  ∃ pre, HeapRep h pre rows ∧ Settled h pre ∧ pre ++ h.lastPageId :: h.fresh = supply ∧
    h.firstPageId = first

theorem UpdateRep.holds {h' : TableHeap} {supply : List Int32} {first : Int32} {rows' : List Row}
    (hupd : UpdateRep h h' pre rows') (hset : Settled h pre)
    (hsupply : pre ++ h.lastPageId :: h.fresh = supply) (hfirst : h.firstPageId = first) :
    Holds supply first h' rows' := by
  refine ⟨pre, hupd.rep, ?_, ?_, hupd.first.trans hfirst⟩
  · unfold Settled
    rw [hupd.last, hupd.num]
    exact hset
  · rw [hupd.last, hupd.fresh]
    exact hsupply

/-- **Step**: every call succeeds and does to the rows what it should. -/
theorem applyHeapOp_holds {supply : List Int32} {first : Int32} (op : HeapOp)
    (hh : Holds supply first h rows) (hop : InsertOk h op) :
    ∃ o h', applyHeapOp h op = .ok (o, h') ∧ Holds supply first h' (applyRows rows op o) := by
  obtain ⟨pre, hr, hset, hsupply, hfirst⟩ := hh
  cases op with
  | insertTuple tupleMeta t =>
    obtain ⟨hlen, hle, hfresh⟩ := hop
    obtain ⟨rid, h', pre', heq, hr', hset', hgrows⟩ := insertTuple_rep tupleMeta hr hlen hle hfresh
    refine ⟨some rid, h', ?_, pre', hr', hset', hgrows.supply.trans hsupply, hgrows.first.trans hfirst⟩
    simp only [applyHeapOp, heq]
    rfl
  | updateTupleMeta tupleMeta rid =>
    rcases updateTupleMeta_rep tupleMeta rid hr with ⟨e, heq, hrows⟩ | ⟨h', heq, hupd⟩
    · refine ⟨none, h, by simp only [applyHeapOp, heq], ?_⟩
      simp only [applyRows, hrows]
      exact ⟨pre, hr, hset, hsupply, hfirst⟩
    · exact ⟨none, h', by simp only [applyHeapOp, heq], hupd.holds hset hsupply hfirst⟩
  | updateTupleInPlace tupleMeta t rid check =>
    rcases updateTupleInPlace_rep tupleMeta t rid check hr with ⟨e, heq, hrows⟩ | ⟨b, h', heq, hupd⟩
    · refine ⟨none, h, by simp only [applyHeapOp, heq], ?_⟩
      simp only [applyRows, hrows]
      exact ⟨pre, hr, hset, hsupply, hfirst⟩
    · exact ⟨none, h', by simp only [applyHeapOp, heq], hupd.holds hset hsupply hfirst⟩

/-- A row stays until its RID is updated. -/
theorem mem_applyRows {r : Row} {op : HeapOp} (o : Option RID) (hmem : r ∈ rows)
    (hop : ¬ op.Updates r.rid) : r ∈ applyRows rows op o := by
  have hupd : ∀ (rid : RID) (f : Row → Row), rid ≠ r.rid → r ∈ updateRow rows rid f := by
    intro rid f hne
    refine List.mem_map.mpr ⟨r, hmem, ?_⟩
    exact if_neg (Ne.symm hne)
  cases op with
  | insertTuple tupleMeta t =>
    cases o with
    | none => exact hmem
    | some rid => exact List.mem_append_left _ hmem
  | updateTupleMeta tupleMeta rid => exact hupd rid _ hop
  | updateTupleInPlace tupleMeta t rid check => exact hupd rid _ hop

theorem mem_track : ∀ (ops : List HeapOp) (outs : List (Option RID)) {r : Row} {rows : List Row},
    r ∈ rows → (∀ op ∈ ops, ¬ op.Updates r.rid) → r ∈ track applyRows rows ops outs
  | [], _, _, _, hmem, _ => hmem
  | _ :: _, [], _, _, hmem, _ => hmem
  | op :: ops, o :: outs, _, _, hmem, hno =>
    mem_track ops outs (mem_applyRows o hmem (hno op (List.mem_cons_self ..)))
      fun op' h' => hno op' (List.mem_cons_of_mem _ h')

/-- An inserted row that is not updated later is among the rows. -/
theorem inserted_mem_track : ∀ (ops : List HeapOp) (outs : List (Option RID)) (rows : List Row) {i : ℕ}
    {tupleMeta : TupleMeta} {t : Tuple} {rid : RID}, ops[i]? = some (.insertTuple tupleMeta t) →
    outs[i]? = some (some rid) → (∀ j op, i < j → ops[j]? = some op → ¬ op.Updates rid) →
    (tupleMeta, { t with rid := rid }) ∈ track applyRows rows ops outs
  | [], _, _, _, _, _, _, hop, _, _ => by simp at hop
  | _ :: _, [], _, _, _, _, _, _, hout, _ => by simp at hout
  | op :: ops, o :: outs, rows, 0, tupleMeta, t, rid, hop, hout, hno => by
    simp only [List.getElem?_cons_zero, Option.some.injEq] at hop hout
    subst hop hout
    refine mem_track ops outs (List.mem_append_right _ (List.mem_singleton_self _)) ?_
    intro op' hop'
    obtain ⟨j, hj, rfl⟩ := List.getElem_of_mem hop'
    exact hno (j + 1) _ (by omega) (by simp [hj])
  | op :: ops, o :: outs, rows, i + 1, tupleMeta, t, rid, hop, hout, hno => by
    refine inserted_mem_track ops outs _ (by simpa using hop) (by simpa using hout) ?_
    intro j op' hj hop'
    exact hno (j + 1) op' (by omega) (by simpa using hop')

theorem map_rid_updateRow {rid : RID} {f : Row → Row} (hf : ∀ r : Row, r.rid = rid → (f r).rid = rid) :
    (updateRow rows rid f).map Row.rid = rows.map Row.rid := by
  unfold updateRow
  rw [List.map_map]
  refine List.map_congr_left ?_
  intro r _
  by_cases hrid : r.rid = rid
  · rw [Function.comp_apply, if_pos hrid, hf r hrid, hrid]
  · rw [Function.comp_apply, if_neg hrid]

/-- A call adds the RID it answers, and no other. -/
theorem rids_applyRows {h' : TableHeap} {op : HeapOp} {o : Option RID} (rows : List Row)
    (hstep : applyHeapOp h op = .ok (o, h')) :
    (applyRows rows op o).map Row.rid = rows.map Row.rid ++ o.toList := by
  cases op with
  | insertTuple tupleMeta t =>
    obtain ⟨⟨rid, h1⟩, -, hret⟩ := bind_eq_ok.mp hstep
    cases hret
    simp [applyRows, Row.rid]
  | updateTupleMeta tupleMeta rid =>
    have ho : o = none := by
      simp only [applyHeapOp] at hstep
      split at hstep
      · cases hstep
        rfl
      · cases hstep
        rfl
      · cases hstep
    subst ho
    simp only [applyRows, Option.toList_none, List.append_nil]
    exact map_rid_updateRow fun r hr => hr
  | updateTupleInPlace tupleMeta t rid check =>
    have ho : o = none := by
      simp only [applyHeapOp] at hstep
      split at hstep
      · cases hstep
        rfl
      · cases hstep
        rfl
      · cases hstep
    subst ho
    simp only [applyRows, Option.toList_none, List.append_nil]
    refine map_rid_updateRow fun r hr => ?_
    unfold setRow
    split_ifs
    · rfl
    · exact hr

/-- The RIDs of the rows are the answers of the insertions, in order. -/
theorem rids_track : ∀ (ops : List HeapOp) (outs : List (Option RID)) (rows : List Row)
    {h h' : TableHeap}, run applyHeapOp h ops = .ok (outs, h') →
    (track applyRows rows ops outs).map Row.rid = rows.map Row.rid ++ outs.filterMap id
  | [], _, rows, _, _, hrun => by
    simp only [run_nil, Except.ok.injEq, Prod.mk.injEq] at hrun
    obtain ⟨rfl, -⟩ := hrun
    simp [track]
  | op :: ops, outs, rows, h, h', hrun => by
    obtain ⟨o, h1, outs', hstep, hrest, rfl⟩ := run_cons_eq_ok.mp hrun
    rw [track, rids_track ops outs' _ hrest, rids_applyRows rows hstep, List.append_assoc]
    cases o with
    | none => rfl
    | some rid => rfl

/-- An insertion of a run has answered a RID. -/
theorem run_insert_answers : ∀ (ops : List HeapOp) {outs : List (Option RID)} {h h' : TableHeap},
    run applyHeapOp h ops = .ok (outs, h') → ∀ {i : ℕ} {tupleMeta : TupleMeta} {t : Tuple},
      ops[i]? = some (.insertTuple tupleMeta t) → ∃ rid, outs[i]? = some (some rid)
  | [], _, _, _, _, _, _, _, hop => by simp at hop
  | op :: ops, outs, h, h', hrun, i, tupleMeta, t, hop => by
    obtain ⟨o, h1, outs', hstep, hrest, rfl⟩ := run_cons_eq_ok.mp hrun
    cases i with
    | zero =>
      simp only [List.getElem?_cons_zero, Option.some.injEq] at hop
      subst hop
      obtain ⟨⟨rid, h2⟩, -, hret⟩ := bind_eq_ok.mp hstep
      cases hret
      exact ⟨rid, rfl⟩
    | succ i => exact run_insert_answers ops hrest (by simpa using hop)

/-- A heap reached by a run holds the rows of the run. -/
theorem reachable_holds (page : Int32 → Mem) {first : Int32} {fresh : List Int32}
    (hsorted : (first :: fresh).Pairwise (· < ·)) (hvalid : invalidPageId ∉ first :: fresh)
    {h₀ : TableHeap} (hcreate : TableHeap.create page (first :: fresh) = .ok h₀)
    {ops : List HeapOp} (hops : Along applyHeapOp InsertOk h₀ ops) :
    ∃ outs h, run applyHeapOp h₀ ops = .ok (outs, h) ∧
      Holds (first :: fresh) h₀.firstPageId h (track applyRows [] ops outs) := by
  obtain ⟨h₁, hcreate', hlast, hfresh, hrep⟩ := create_rep page hsorted hvalid
  rw [hcreate] at hcreate'
  cases hcreate'
  have hstart : Holds (first :: fresh) h₀.firstPageId h₀ [] :=
    ⟨[], hrep, .inl rfl, by rw [hlast, hfresh]; rfl, rfl⟩
  exact run_track applyRows (Holds (first :: fresh) h₀.firstPageId)
    (fun h rows op hh hop => applyHeapOp_holds op hh hop) ops h₀ [] hstart hops

theorem reachable_rep (page : Int32 → Mem) {first : Int32} {fresh : List Int32}
    (hsorted : (first :: fresh).Pairwise (· < ·)) (hvalid : invalidPageId ∉ first :: fresh)
    {h₀ : TableHeap} (hcreate : TableHeap.create page (first :: fresh) = .ok h₀)
    {ops : List HeapOp} (hops : Along applyHeapOp InsertOk h₀ ops)
    {outs : List (Option RID)} (hrun : run applyHeapOp h₀ ops = .ok (outs, h)) :
    ∃ pre, HeapRep h pre (track applyRows [] ops outs) ∧ Settled h pre := by
  obtain ⟨outs', h', hrun', pre, hr, hset, -, -⟩ := reachable_holds page hsorted hvalid hcreate hops
  rw [hrun] at hrun'
  cases hrun'
  exact ⟨pre, hr, hset⟩

/-- **Runs of a table heap.**  On a page store that hands out increasing page ids, every run of
insertions (of tuples that fit an empty page and are no longer than the last offset of the page they
are tried on) and updates answers, with: the RIDs of the insertions all distinct; `GetTuple` reading
at each of them the tuple and meta inserted there, until it is updated, and the updated row then;
the chain of pages from the first one being the pages taken from the store, ending at
`last_page_id_`; and both iterators visiting exactly those RIDs in insertion order, then ending. -/
theorem heap_runs_hold_their_rows (page : Int32 → Mem) (first : Int32) (fresh : List Int32)
    (hsorted : (first :: fresh).Pairwise (· < ·)) (hvalid : invalidPageId ∉ first :: fresh)
    (h₀ : TableHeap) (hcreate : TableHeap.create page (first :: fresh) = .ok h₀)
    (ops : List HeapOp) (hops : Along applyHeapOp InsertOk h₀ ops) :
    ∃ outs h, run applyHeapOp h₀ ops = .ok (outs, h) ∧
      (outs.filterMap id).Nodup ∧
      (track applyRows [] ops outs).map Row.rid = outs.filterMap id ∧
      (∀ r ∈ track applyRows [] ops outs, h.getTuple r.rid = .ok r) ∧
      (∀ (i : ℕ) (tupleMeta : TupleMeta) (t : Tuple), ops[i]? = some (.insertTuple tupleMeta t) →
        ∃ rid, outs[i]? = some (some rid) ∧
          ((∀ j op, i < j → ops[j]? = some op → ¬ op.Updates rid) →
            h.getTuple rid = .ok (tupleMeta, { t with rid := rid }))) ∧
      (∃ pages, first :: fresh = pages ++ h.fresh ∧ pages.head? = some h.firstPageId ∧
        pages.IsChain (fun a b => getNextPageId (h.page a) = b) ∧
        pages.getLast? = some h.lastPageId ∧ getNextPageId (h.page h.lastPageId) = invalidPageId) ∧
      ∀ k, (outs.filterMap id).length ≤ k →
        (∃ rows it, scan h k h.makeIterator = .ok (rows, it) ∧
          rows.map Row.rid = outs.filterMap id ∧ it.isEnd = true) ∧
        ∃ rows it, scan h k h.makeEagerIterator = .ok (rows, it) ∧
          rows.map Row.rid = outs.filterMap id ∧ it.isEnd = true := by
  obtain ⟨outs, h, hrun, pre, hr, hset, hsupply, -⟩ :=
    reachable_holds page hsorted hvalid hcreate hops
  have hrids : (track applyRows [] ops outs).map Row.rid = outs.filterMap id := rids_track ops outs [] hrun
  refine ⟨outs, h, hrun, ?_, hrids, fun r hmem => hr.getTuple_row hmem, ?_, ?_, ?_⟩
  · rw [← hrids]
    exact hr.nodup_rids
  · intro i tupleMeta t hop
    obtain ⟨rid, hout⟩ := run_insert_answers ops hrun hop
    refine ⟨rid, hout, ?_⟩
    intro hno
    exact hr.getTuple_row (inserted_mem_track ops outs [] hop hout hno)
  · refine ⟨pre ++ [h.lastPageId], ?_, hr.first, hr.chain, by simp, hr.lastNext⟩
    rw [← hsupply, List.append_assoc, List.singleton_append]
  · intro k hk
    have hlen : (track applyRows [] ops outs).length ≤ k := by
      rw [← hrids, List.length_map] at hk
      exact hk
    obtain ⟨⟨it, hscan, hend⟩, it', hscan', hend'⟩ := scan_iterators hr hset hlen
    exact ⟨⟨_, it, hscan, hrids, hend⟩, _, it', hscan', hrids, hend'⟩

theorem three_bytes_lt : ([1, 2, 3] : List UInt8).length < 2 ^ 32 := by decide

/-- A tuple of three bytes. -/
def threeBytes : Tuple where
  rid := ⟨invalidPageId, 0⟩
  data := [1, 2, 3]
  length_lt := three_bytes_lt

/-- Two tuples that leave no room for the third, which goes to another page.  One is marked deleted, one is overwritten,
and one more inserted. -/
def overflowing : List HeapOp :=
  [.insertTuple ⟨0, false⟩ (uniformTuple 1 4000 (by decide)), .insertTuple ⟨0, false⟩ (uniformTuple 2 4000 (by decide)),
    .insertTuple ⟨1, false⟩ (uniformTuple 3 150 (by decide)), .updateTupleMeta ⟨2, true⟩ ⟨0, 1⟩,
    .updateTupleInPlace ⟨3, false⟩ (uniformTuple 4 150 (by decide)) ⟨2, 0⟩ none, .insertTuple ⟨4, false⟩ threeBytes]

/-- The heap that `overflowing` leaves has two pages, holds the updated rows, and both iterators visit the four rows. -/
theorem heap_run_overflowing : ∃ h₀ h, TableHeap.create (fun _ _ => 0) [0, 2, 5] = .ok h₀ ∧
    run applyHeapOp h₀ overflowing = .ok ([some ⟨0, 0⟩, some ⟨0, 1⟩, some ⟨2, 0⟩, none, none, some ⟨2, 1⟩], h) ∧
    h.getTuple ⟨0, 1⟩ = .ok (⟨2, true⟩, { uniformTuple 2 4000 (by decide) with rid := ⟨0, 1⟩ }) ∧
    h.getTuple ⟨2, 0⟩ = .ok (⟨3, false⟩, { uniformTuple 4 150 (by decide) with rid := ⟨2, 0⟩ }) ∧
    h.getTuple ⟨2, 1⟩ = .ok (⟨4, false⟩, { threeBytes with rid := ⟨2, 1⟩ }) ∧
    (∃ rows it, scan h 4 h.makeIterator = .ok (rows, it) ∧ rows.map Row.rid = [⟨0, 0⟩, ⟨0, 1⟩, ⟨2, 0⟩, ⟨2, 1⟩] ∧
      it.isEnd = true) ∧
    ∃ rows it, scan h 4 h.makeEagerIterator = .ok (rows, it) ∧ rows.map Row.rid = [⟨0, 0⟩, ⟨0, 1⟩, ⟨2, 0⟩, ⟨2, 1⟩] ∧
      it.isEnd = true := by
  have hrun : (do
      let h₀ ← (TableHeap.create (fun _ _ => 0) [0, 2, 5]).toOption
      let (outs, _) ← (run applyHeapOp h₀ overflowing).toOption
      return (outs, decide (Along applyHeapOp InsertOk h₀ overflowing))) =
        some ([some ⟨0, 0⟩, some ⟨0, 1⟩, some ⟨2, 0⟩, none, none, some ⟨2, 1⟩], true) := by
    decide +kernel
  simp only [Option.bind_eq_bind, Option.bind_eq_some_iff, toOption_eq_some, Option.pure_def, Option.some.injEq,
    Prod.mk.injEq, decide_eq_true_eq] at hrun
  obtain ⟨h₀, hcreate, ⟨outs, h⟩, hrun, rfl, hops⟩ := hrun
  obtain ⟨_, h', hrun', -, -, hrows, hinserted, -, hscan⟩ := heap_runs_hold_their_rows (fun _ _ => 0) 0 [2, 5]
    (by decide) (by decide) h₀ hcreate overflowing hops
  cases hrun.symm.trans hrun'
  obtain ⟨hlazy, heager⟩ := hscan 4 (le_refl _)
  refine ⟨h₀, h, hcreate, hrun, ?_, ?_, ?_, hlazy, heager⟩
  · exact hrows (⟨2, true⟩, { uniformTuple 2 4000 (by decide) with rid := ⟨0, 1⟩ }) (by decide +kernel)
  · exact hrows (⟨3, false⟩, { uniformTuple 4 150 (by decide) with rid := ⟨2, 0⟩ }) (by decide +kernel)
  · obtain ⟨rid, hrid, hread⟩ := hinserted 5 _ _ rfl
    cases hrid
    refine hread ?_
    intro j op hj hop
    have hlen := (List.getElem?_eq_some_iff.mp hop).1
    exact absurd hlen (by show ¬ j < 6; omega)

end Runs

end Journey.Storage
