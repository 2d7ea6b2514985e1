import Journey.Lib.Machine
import Journey.Bustub.Storage.TablePage
import Mathlib.Data.List.Chain
import Mathlib.Data.List.Nodup
import Mathlib.Logic.Function.Basic

/-!
# Journey.Bustub.Storage.TableHeap — a table as a chain of slotted pages

`TableHeap` and `TableIterator` over a page store.  The buffer pool is seen through what the heap
uses of it: `page` gives the bytes behind each page id, `fresh` the ids `NewPage` will hand out.

* `TableHeap.create`, `insertTuple`, `updateTupleMeta`, `getTuple`, `updateTupleInPlace`.
* `TableIterator`: its constructor, `isEnd` and `next` (`operator++`), with the assertion.
* `pageRows`: the rows of a page in slot order, and what inserting and updating do to them.
-/

namespace Journey.Storage

/-! ## The heap -/

section Heap

/-- How a call on the heap can end without a result. -/
inductive HeapError
  | terminate (msg : String)
  | assertion (msg : String)
  | thrown (e : Exception)
  | badOptionalAccess
  | outOfPages
deriving DecidableEq, Repr

/-- The heap, with the part of the buffer pool it works on. -/
structure TableHeap where
  page : Int32 → Mem
  fresh : List Int32
  firstPageId : Int32
  lastPageId : Int32

namespace TableHeap

/-- `TableHeap(BufferPoolManager *)`: one page, with an initialised header. -/
def create (page : Int32 → Mem) : List Int32 → Except HeapError TableHeap
  | [] => .error .outOfPages
  | first :: fresh =>
    .ok { page := Function.update page first (init (page first))
          fresh := fresh
          firstPageId := first
          lastPageId := first }

/-- The end of the loop's body in `InsertTuple`: a new page is linked behind the last one. -/
def chainPage (h : TableHeap) : Except HeapError TableHeap :=
  match h.fresh with
  | [] => .error .outOfPages
  | next :: fresh =>
    let page := Function.update h.page h.lastPageId (setNextPageId (h.page h.lastPageId) next)
    .ok { page := Function.update page next (init (page next))
          fresh := fresh
          firstPageId := h.firstPageId
          lastPageId := next }

/-- The `while (true)` loop of `InsertTuple`: find, or make, a page with room.  Every round but the
last takes a page from the pool, which bounds the number of rounds. -/
def findRoom (tupleMeta : TupleMeta) (tuple : Tuple) : ℕ → TableHeap → Except HeapError TableHeap
  | 0, _ => .error .outOfPages
  | rounds + 1, h =>
    if getNextTupleOffset (h.page h.lastPageId) tupleMeta tuple ≠ none then .ok h
    else if getNumTuples (h.page h.lastPageId) = 0 then
      .error (.terminate "tuple is too large, cannot insert")
    else do
      let h ← h.chainPage
      findRoom tupleMeta tuple rounds h

/-- The rest of `InsertTuple`: the tuple goes into the last page. -/
def insertLast (h : TableHeap) (tupleMeta : TupleMeta) (tuple : Tuple) :
    Except HeapError (RID × TableHeap) :=
  match Storage.insertTuple (h.page h.lastPageId) tupleMeta tuple with
  | (none, _) => .error .badOptionalAccess
  | (some slotId, m) =>
    .ok (⟨h.lastPageId, slotId.toNat⟩, { h with page := Function.update h.page h.lastPageId m })

/-- `InsertTuple`. -/
def insertTuple (h : TableHeap) (tupleMeta : TupleMeta) (tuple : Tuple) :
    Except HeapError (RID × TableHeap) := do
  let h ← findRoom tupleMeta tuple (h.fresh.length + 1) h
  h.insertLast tupleMeta tuple

/-- `UpdateTupleMeta`. -/
def updateTupleMeta (h : TableHeap) (tupleMeta : TupleMeta) (rid : RID) : Except HeapError TableHeap :=
  match Storage.updateTupleMeta (h.page rid.pageId) tupleMeta rid with
  | .error e => .error (.thrown e)
  | .ok m => .ok { h with page := Function.update h.page rid.pageId m }

/-- `GetTuple`. -/
def getTuple (h : TableHeap) (rid : RID) : Except HeapError (TupleMeta × Tuple) :=
  match Storage.getTuple (h.page rid.pageId) rid with
  | .error e => .error (.thrown e)
  | .ok (tupleMeta, tuple) => .ok (tupleMeta, { tuple with rid := rid })

/-- `GetTupleMeta`. -/
def getTupleMeta (h : TableHeap) (rid : RID) : Except HeapError TupleMeta :=
  match Storage.getTupleMeta (h.page rid.pageId) rid with
  | .error e => .error (.thrown e)
  | .ok tupleMeta => .ok tupleMeta

/-- The optional callback of `UpdateTupleInPlace`, run on the old tuple. -/
abbrev Check := Option (TupleMeta → Tuple → RID → Bool)

def Check.passes (check : Check) (old : TupleMeta × Tuple) (rid : RID) : Bool :=
  match check with
  | none => true
  | some f => f old.1 old.2 rid

/-- `UpdateTupleInPlace`: whether the tuple was overwritten. -/
def updateTupleInPlace (h : TableHeap) (tupleMeta : TupleMeta) (tuple : Tuple) (rid : RID)
    (check : Check) : Except HeapError (Bool × TableHeap) :=
  match Storage.getTuple (h.page rid.pageId) rid with
  | .error e => .error (.thrown e)
  | .ok old =>
    if check.passes old rid then
      match updateTupleInPlaceUnsafe (h.page rid.pageId) tupleMeta tuple rid with
      | .error e => .error (.thrown e)
      | .ok m => .ok (true, { h with page := Function.update h.page rid.pageId m })
    else .ok (false, h)

end TableHeap

end Heap

/-! ## The iterator -/

section Iterator

/-- `TableIterator`: the cursor and where to stop. -/
structure TableIterator where
  rid : RID
  stopAtRid : RID
deriving DecidableEq, Repr

namespace TableIterator

/-- The constructor: a cursor that is not on a tuple becomes invalid. -/
def new (h : TableHeap) (rid stopAtRid : RID) : TableIterator :=
  if rid.pageId = invalidPageId then ⟨⟨invalidPageId, 0⟩, stopAtRid⟩
  else if getNumTuples (h.page rid.pageId) ≤ rid.slotNum then ⟨⟨invalidPageId, 0⟩, stopAtRid⟩
  else ⟨rid, stopAtRid⟩

/-- `IsEnd`. -/
def isEnd (it : TableIterator) : Bool := it.rid.pageId = invalidPageId

/-- `operator++`. -/
def next (h : TableHeap) (it : TableIterator) : Except HeapError TableIterator :=
  let page := h.page it.rid.pageId
  let nextTupleId := it.rid.slotNum + 1
  if it.stopAtRid.pageId ≠ invalidPageId ∧
      ¬ (it.rid.pageId < it.stopAtRid.pageId ∨
        it.rid.pageId = it.stopAtRid.pageId ∧ nextTupleId ≤ it.stopAtRid.slotNum) then
    .error (.assertion "iterate out of bound")
  else
    let rid : RID := ⟨it.rid.pageId, nextTupleId⟩
    if rid = it.stopAtRid then .ok { it with rid := ⟨invalidPageId, 0⟩ }
    else if nextTupleId < getNumTuples page then .ok { it with rid := rid }
    else .ok { it with rid := ⟨getNextPageId page, 0⟩ }

end TableIterator

/-- `MakeIterator`: the stop position is the end of the last page as it is now. -/
def TableHeap.makeIterator (h : TableHeap) : TableIterator :=
  .new h ⟨h.firstPageId, 0⟩ ⟨h.lastPageId, getNumTuples (h.page h.lastPageId)⟩

/-- `MakeEagerIterator`. -/
def TableHeap.makeEagerIterator (h : TableHeap) : TableIterator :=
  .new h ⟨h.firstPageId, 0⟩ ⟨invalidPageId, 0⟩

end Iterator

/-! ## Rows of a page -/

section Rows

/-- A row: what `GetTuple` answers. -/
abbrev Row := TupleMeta × Tuple

/-- The RID a row carries. -/
def Row.rid (r : Row) : RID := r.2.rid

theorem length_entry_lt (m : Mem) (i : ℕ) : (entry m i).2.length < 2 ^ 32 := by
  have h := (tupleInfo m i).size.toNat_lt
  unfold entry sizeAt
  rw [length_load]
  omega

/-- The row at `rid` in page `m`. -/
def rowAt (m : Mem) (rid : RID) : Row :=
  ((entry m rid.slotNum).1,
    { rid := rid
      data := (entry m rid.slotNum).2
      length_lt := length_entry_lt m rid.slotNum })

/-- The rows of page `p`, in slot order. -/
def pageRows (m : Mem) (p : Int32) : List Row :=
  (List.range (getNumTuples m)).map fun i => rowAt m ⟨p, i⟩

variable {m m' : Mem} {p : Int32} {rid : RID} {tupleMeta : TupleMeta} {t : Tuple}

@[simp] theorem rid_rowAt (m : Mem) (rid : RID) : (rowAt m rid).rid = rid := rfl

theorem getTuple_eq_rowAt (h : rid.slotNum < getNumTuples m) : getTuple m rid = .ok (rowAt m rid) :=
  if_neg (by omega)

theorem rowAt_eq_of_entry (rid : RID) {e : TupleMeta × List UInt8} (h : entry m rid.slotNum = e)
    (t : Tuple) (ht : t.data = e.2) : rowAt m rid = (e.1, { t with rid := rid }) := by
  obtain ⟨trid, data, hlen⟩ := t
  subst h
  subst ht
  rfl

theorem rowAt_congr (rid : RID) (h : entry m' rid.slotNum = entry m rid.slotNum) : rowAt m' rid = rowAt m rid :=
  rowAt_eq_of_entry rid h (rowAt m rid).2 rfl

theorem mem_pageRows {r : Row} (h : r ∈ pageRows m p) :
    ∃ i < getNumTuples m, r = rowAt m ⟨p, i⟩ := by
  obtain ⟨i, hi, rfl⟩ := List.mem_map.mp h
  exact ⟨i, List.mem_range.mp hi, rfl⟩

theorem pageRows_congr (hn : getNumTuples m' = getNumTuples m)
    (he : ∀ i < getNumTuples m, entry m' i = entry m i) : pageRows m' p = pageRows m p := by
  unfold pageRows
  rw [hn]
  refine List.map_congr_left ?_
  intro i hi
  exact rowAt_congr ⟨p, i⟩ (he i (List.mem_range.mp hi))

theorem pageRows_of_empty (h : getNumTuples m = 0) : pageRows m p = [] := by
  unfold pageRows
  rw [h]
  rfl

theorem pageRows_inserted (h : Inserted m m' tupleMeta t.data) :
    pageRows m' p = pageRows m p ++ [(tupleMeta, { t with rid := ⟨p, getNumTuples m⟩ })] := by
  have hold : (List.range (getNumTuples m)).map (fun i => rowAt m' ⟨p, i⟩) = pageRows m p := by
    refine List.map_congr_left ?_
    intro i hi
    exact rowAt_congr ⟨p, i⟩ (h.old i (List.mem_range.mp hi))
  have hnew : rowAt m' ⟨p, getNumTuples m⟩ = (tupleMeta, { t with rid := ⟨p, getNumTuples m⟩ }) :=
    rowAt_eq_of_entry ⟨p, getNumTuples m⟩ h.new t rfl
  unfold pageRows
  rw [h.numTuples, List.range_succ, List.map_append, hold, List.map_singleton, hnew]
  rfl

/-- Replace the row at `rid` by what `f` makes of it. -/
def updateRow (rows : List Row) (rid : RID) (f : Row → Row) : List Row :=
  rows.map fun r => if r.rid = rid then f r else r

theorem pageRows_updated {e : TupleMeta × List UInt8} {f : Row → Row}
    (h : Updated m m' rid.slotNum e) (hf : rowAt m' rid = f (rowAt m rid)) :
    pageRows m' rid.pageId = updateRow (pageRows m rid.pageId) rid f := by
  unfold pageRows updateRow
  rw [h.numTuples, List.map_map]
  refine List.map_congr_left ?_
  intro i hi
  by_cases hir : i = rid.slotNum
  · subst hir
    rw [Function.comp_apply, rid_rowAt, if_pos rfl]
    exact hf
  · have hne : (⟨rid.pageId, i⟩ : RID) ≠ rid := fun heq => hir (congrArg RID.slotNum heq)
    rw [Function.comp_apply, rid_rowAt, if_neg hne]
    exact rowAt_congr ⟨rid.pageId, i⟩ (h.other i (List.mem_range.mp hi) hir)

theorem updateRow_eq_self {rows : List Row} {f : Row → Row} (h : ∀ r ∈ rows, r.rid ≠ rid) :
    updateRow rows rid f = rows := by
  unfold updateRow
  conv_rhs => rw [← List.map_id rows]
  refine List.map_congr_left ?_
  intro r hr
  rw [if_neg (h r hr), id]

end Rows

end Journey.Storage
