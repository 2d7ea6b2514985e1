import Journey.Bustub.Storage.TableHeap

/-!
# Journey.Bustub.Storage.HeapOversize — tuples no page has room for

`TableHeap::InsertTuple` once more, on a mutable heap and with the `std::optional` it returns, so that
the heap it leaves behind can be looked at however it ends.

* `TableHeap.insertTupleCall`: the call; it refines to `TableHeap.insertTuple` (`insertTupleCall_eq`).
* `RefusedCleanly`: what the documentation says of a tuple that is too large.
* `oversize_never_refused`: what becomes of such a tuple.
-/

namespace Journey.Storage

/-! ## The call on a mutable heap -/

section Call

/-- A call on the heap: the pages it has linked stay linked, however it ends. -/
abbrev HeapM := EStateM HeapError TableHeap

namespace TableHeap

/-- The loop of `InsertTuple`, on a mutable heap. -/
def findRoomCall (tupleMeta : TupleMeta) (tuple : Tuple) : ℕ → HeapM Unit
  | 0 => throw .outOfPages
  | rounds + 1 => do
    let h ← get
    if getNextTupleOffset (h.page h.lastPageId) tupleMeta tuple ≠ none then return ()
    else if getNumTuples (h.page h.lastPageId) = 0 then
      throw (.terminate "tuple is too large, cannot insert")
    else
      match h.chainPage with
      | .error e => throw e
      | .ok h' => do
        set h'
        findRoomCall tupleMeta tuple rounds

/-- `InsertTuple`, on a mutable heap, with the `std::optional` it returns. -/
def insertTupleCall (tupleMeta : TupleMeta) (tuple : Tuple) : HeapM (Option RID) := do
  findRoomCall tupleMeta tuple ((← get).fresh.length + 1)
  let h ← get
  match Storage.insertTuple (h.page h.lastPageId) tupleMeta tuple with
  | (none, _) => throw .badOptionalAccess
  | (some slotId, m) =>
    set { h with page := Function.update h.page h.lastPageId m }
    return some ⟨h.lastPageId, slotId.toNat⟩

end TableHeap

end Call

/-! ## How it ends -/

section Oversize

/-- What the documentation says of a tuple that is too large: `nullopt`, and the pages of the heap,
its chain and `last_page_id_` are as they were. -/
def RefusedCleanly (h : TableHeap) (tupleMeta : TupleMeta) (t : Tuple) : Prop :=
  ∃ h', TableHeap.insertTupleCall tupleMeta t h = .ok none h' ∧
    h'.firstPageId = h.firstPageId ∧ h'.lastPageId = h.lastPageId ∧
    ∀ rid : RID, getNextPageId (h'.page rid.pageId) = getNextPageId (h.page rid.pageId) ∧
      h'.getTuple rid = h.getTuple rid

variable {h : TableHeap} {tupleMeta : TupleMeta} {t : Tuple}

theorem findRoomCall_eq (tupleMeta : TupleMeta) (t : Tuple) : ∀ (rounds : ℕ) (h : TableHeap),
    (∃ h', TableHeap.findRoomCall tupleMeta t rounds h = .ok () h' ∧
      TableHeap.findRoom tupleMeta t rounds h = .ok h') ∨
    (∃ e h', TableHeap.findRoomCall tupleMeta t rounds h = .error e h' ∧
      TableHeap.findRoom tupleMeta t rounds h = .error e)
  | 0, h => .inr ⟨_, h, rfl, rfl⟩
  | rounds + 1, h => by
    simp only [TableHeap.findRoomCall, TableHeap.findRoom, bind, EStateM.bind, get, getThe,
      MonadStateOf.get, stateM_get]
    split_ifs with hroom hempty
    · exact .inl ⟨h, rfl, rfl⟩
    · exact .inr ⟨_, h, rfl, rfl⟩
    · cases hchain : h.chainPage with
      | error e => exact .inr ⟨e, h, rfl, rfl⟩
      | ok h' =>
        rcases findRoomCall_eq tupleMeta t rounds h' with ⟨h'', hcall, hpure⟩ | ⟨e, h'', hcall, hpure⟩
        · exact .inl ⟨h'', hcall, hpure⟩
        · exact .inr ⟨e, h'', hcall, hpure⟩

/-- **The call never answers `nullopt`**: it ends as the function `insertTuple` does, with a RID or
without an answer. -/
theorem insertTupleCall_eq (h : TableHeap) (tupleMeta : TupleMeta) (t : Tuple) :
    (∃ rid h', TableHeap.insertTupleCall tupleMeta t h = .ok (some rid) h' ∧
      h.insertTuple tupleMeta t = .ok (rid, h')) ∨
    (∃ e h', TableHeap.insertTupleCall tupleMeta t h = .error e h' ∧ h.insertTuple tupleMeta t = .error e) := by
  simp only [TableHeap.insertTupleCall, TableHeap.insertTuple, bind, EStateM.bind, get, getThe,
    MonadStateOf.get, stateM_get]
  rcases findRoomCall_eq tupleMeta t (h.fresh.length + 1) h with ⟨h', hcall, hpure⟩ | ⟨e, h', hcall, hpure⟩
  · rw [hcall, hpure]
    simp only [Except.bind, TableHeap.insertLast]
    rcases hins : Storage.insertTuple (h'.page h'.lastPageId) tupleMeta t with ⟨_ | slotId, m⟩
    · exact .inr ⟨_, h', rfl, rfl⟩
    · exact .inl ⟨_, _, rfl, rfl⟩
  · rw [hcall, hpure]
    exact .inr ⟨e, h', rfl, rfl⟩

theorem not_refusedCleanly (h : TableHeap) (tupleMeta : TupleMeta) (t : Tuple) :
    ¬ RefusedCleanly h tupleMeta t := by
  rintro ⟨h', hnone, -⟩
  rcases insertTupleCall_eq h tupleMeta t with ⟨rid, h'', hcall, -⟩ | ⟨e, h'', hcall, -⟩
  · rw [hnone] at hcall
    cases hcall
  · rw [hnone] at hcall
    cases hcall

/-- The loop stops in its first round when the last page takes the tuple, or is empty. -/
theorem findRoomCall_of_room (rounds : ℕ)
    (hroom : getNextTupleOffset (h.page h.lastPageId) tupleMeta t ≠ none) :
    TableHeap.findRoomCall tupleMeta t (rounds + 1) h = .ok () h := by
  simp only [TableHeap.findRoomCall, bind, EStateM.bind, get, getThe, MonadStateOf.get, stateM_get]
  rw [if_pos hroom]
  rfl

theorem findRoomCall_of_empty (rounds : ℕ)
    (hnone : getNextTupleOffset (h.page h.lastPageId) tupleMeta t = none)
    (hempty : getNumTuples (h.page h.lastPageId) = 0) :
    TableHeap.findRoomCall tupleMeta t (rounds + 1) h =
      .error (.terminate "tuple is too large, cannot insert") h := by
  simp only [TableHeap.findRoomCall, bind, EStateM.bind, get, getThe, MonadStateOf.get, stateM_get]
  rw [if_neg (fun hne => hne hnone), if_pos hempty]
  rfl

/-- Otherwise it links a page and goes on there. -/
theorem findRoomCall_of_full (rounds : ℕ) {h' : TableHeap}
    (hnone : getNextTupleOffset (h.page h.lastPageId) tupleMeta t = none)
    (hfull : getNumTuples (h.page h.lastPageId) ≠ 0) (hchain : h.chainPage = .ok h') :
    TableHeap.findRoomCall tupleMeta t (rounds + 1) h = TableHeap.findRoomCall tupleMeta t rounds h' := by
  simp only [TableHeap.findRoomCall, bind, EStateM.bind, get, getThe, MonadStateOf.get, stateM_get]
  rw [if_neg (fun hne => hne hnone), if_neg hfull, hchain]
  rfl

theorem insertTupleCall_of_error {e : HeapError} {h' : TableHeap}
    (hloop : TableHeap.findRoomCall tupleMeta t (h.fresh.length + 1) h = .error e h') :
    TableHeap.insertTupleCall tupleMeta t h = .error e h' := by
  simp only [TableHeap.insertTupleCall, bind, EStateM.bind, get, getThe, MonadStateOf.get, stateM_get]
  rw [hloop]

/-- A tuple longer than the space under the last one goes into the last page. -/
theorem insertTupleCall_of_wrap (hlong : slotEndOffset (h.page h.lastPageId) < t.getLength) :
    ∃ h', TableHeap.insertTupleCall tupleMeta t h =
      .ok (some ⟨h.lastPageId, getNumTuples (h.page h.lastPageId)⟩) h' := by
  have hoff : getNextTupleOffset (h.page h.lastPageId) tupleMeta t =
      some (UInt16.ofNat (slotEndOffset (h.page h.lastPageId) + 2 ^ 64 - t.getLength)) :=
    getNextTupleOffset_of_lt hlong
  have hid : (UInt16.ofNat (getNumTuples (h.page h.lastPageId))).toNat = getNumTuples (h.page h.lastPageId) := by
    rw [UInt16.toNat_ofNat']
    exact Nat.mod_eq_of_lt (getNumTuples_lt _)
  simp only [TableHeap.insertTupleCall, bind, EStateM.bind, get, getThe, MonadStateOf.get, stateM_get]
  rw [findRoomCall_of_room _ (by rw [hoff]; simp)]
  dsimp only
  rw [insertTuple_of_some hoff]
  refine ⟨_, Eq.trans rfl (congrArg (fun n => EStateM.Result.ok (some (RID.mk h.lastPageId n)) _) hid)⟩

/-- **Oversize tuples.**  A tuple too long for an empty page is never refused with `nullopt`.  One
longer than the space under the last tuple is taken into the last page; a shorter one ends the
process, and does so after a new page was linked when the last page has a tuple. -/
theorem oversize_never_refused (h : TableHeap) (tupleMeta : TupleMeta) (t : Tuple)
    (hlen : pageSize - tablePageHeaderSize - tupleInfoSize < t.getLength) :
    ¬ RefusedCleanly h tupleMeta t ∧
    (slotEndOffset (h.page h.lastPageId) < t.getLength →
      ∃ h', TableHeap.insertTupleCall tupleMeta t h =
        .ok (some ⟨h.lastPageId, getNumTuples (h.page h.lastPageId)⟩) h') ∧
    (Stacked (h.page h.lastPageId) → t.getLength ≤ slotEndOffset (h.page h.lastPageId) →
      getNumTuples (h.page h.lastPageId) = 0 →
      TableHeap.insertTupleCall tupleMeta t h =
        .error (.terminate "tuple is too large, cannot insert") h) ∧
    (Stacked (h.page h.lastPageId) → t.getLength ≤ slotEndOffset (h.page h.lastPageId) →
      getNumTuples (h.page h.lastPageId) ≠ 0 → ∀ next rest, h.fresh = next :: rest →
      ∃ h', TableHeap.insertTupleCall tupleMeta t h =
        .error (.terminate "tuple is too large, cannot insert") h' ∧ h'.lastPageId = next) := by
  have hlen' : 8160 < t.getLength := hlen
  have hrefused : ∀ m, slotEndOffset m ≤ 8192 → t.getLength ≤ slotEndOffset m →
      getNextTupleOffset m tupleMeta t = none := by
    intro m hpage hle
    refine (getNextTupleOffset_eq_none_iff ?_).mpr hle
    intro hfit
    have hfit' := fits_iff.mp hfit
    omega
  refine ⟨not_refusedCleanly h tupleMeta t, insertTupleCall_of_wrap, ?_, ?_⟩
  · intro hstacked hle hempty
    have hnone := hrefused _ hstacked.slotEnd_le_pageSize hle
    exact insertTupleCall_of_error (findRoomCall_of_empty _ hnone hempty)
  · intro hstacked hle hfull next rest hfresh
    have hpage := hstacked.slotEnd_le_pageSize
    have hnone := hrefused _ hpage hle
    -- the page that is linked is empty, so the next round gives up
    obtain ⟨h', hchain, hlast, hpage'⟩ : ∃ h', h.chainPage = .ok h' ∧ h'.lastPageId = next ∧
        ∃ m, h'.page next = init m := by
      unfold TableHeap.chainPage
      rw [hfresh]
      exact ⟨_, rfl, rfl, _, Function.update_self ..⟩
    obtain ⟨m, hm⟩ := hpage'
    have hzero : getNumTuples (h'.page h'.lastPageId) = 0 := by
      rw [hlast, hm, getNumTuples_init]
    have hnone' : getNextTupleOffset (h'.page h'.lastPageId) tupleMeta t = none := by
      have hend := slotEndOffset_eq_pageSize hzero
      exact hrefused _ (by omega) (by omega)
    refine ⟨h', insertTupleCall_of_error ?_, hlast⟩
    rw [findRoomCall_of_full _ hnone hfull hchain, hfresh, List.length_cons]
    exact findRoomCall_of_empty _ hnone' hzero

/-- A heap of one fresh page, as `TableHeap::TableHeap` leaves it. -/
def freshHeap : TableHeap := ⟨Function.update (fun _ _ => 0) 0 (init fun _ => 0), [1], 0, 0⟩

theorem lastPage_freshHeap : freshHeap.page freshHeap.lastPageId = init fun _ => 0 := by
  unfold freshHeap
  simp only [Function.update_self]

/-- It takes a tuple of 8193 bytes into its first slot. -/
theorem oversize_taken : ∃ slotId h', TableHeap.insertTupleCall ⟨0, false⟩ oversizeTuple freshHeap =
    .ok (some ⟨0, slotId⟩) h' := by
  have hlen := getLength_oversizeTuple
  have hlong : slotEndOffset (freshHeap.page freshHeap.lastPageId) < oversizeTuple.getLength := by
    rw [lastPage_freshHeap, slotEndOffset_eq_pageSize (getNumTuples_init _), hlen]
    decide
  exact ⟨_, (oversize_never_refused freshHeap ⟨0, false⟩ oversizeTuple (by rw [hlen]; decide)).2.1 hlong⟩

theorem oversize_not_refused :
    TableHeap.create (fun _ _ => 0) [0, 1] = .ok freshHeap ∧ oversizeTuple.getLength = 8193 ∧
    ¬ RefusedCleanly freshHeap ⟨0, false⟩ oversizeTuple :=
  ⟨rfl, getLength_oversizeTuple, not_refusedCleanly _ _ _⟩

end Oversize

end Journey.Storage
