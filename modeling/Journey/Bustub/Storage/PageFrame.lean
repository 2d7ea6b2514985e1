import Journey.Bustub.Storage.TableHeap

/-!
# Journey.Bustub.Storage.PageFrame — what a call on a slotted page leaves alone

The member functions of `TablePage` once more, statement by statement on a mutable page, so that the
page a call leaves behind when it throws can be looked at.

* `PageM`, `TablePage.insertTuple`, `updateTupleMeta`, `getTuple`, `updateTupleInPlaceUnsafe`: the
  calls as programs; each one refines to the function of the page in `TablePage` (`.._eq`).
* `Framed m`: from page `m`, a tuple that fits is read back as it was inserted, and each call changes
  its own slot only, and nothing at all when it throws.
* `framed_of_fit_tested`: every page of a run that inserts no tuple longer than the space under the
  last one is framed.
-/

namespace Journey.Storage

/-! ## The calls on a mutable page -/

section Calls

/-- A call on the page: it reads and writes the page's bytes, and may throw between two writes. -/
abbrev PageM := EStateM Exception Mem

namespace TablePage

/-- `InsertTuple`. -/
def insertTuple (tupleMeta : TupleMeta) (tuple : Tuple) : PageM (Option UInt16) := do
  let tupleOffset := getNextTupleOffset (← get) tupleMeta tuple
  match tupleOffset with
  | none => return none
  | some tupleOffset =>
    let tupleId := getNumTuples (← get)
    modify fun m => setTupleInfo m tupleId ⟨tupleOffset, UInt16.ofNat tuple.getLength, tupleMeta⟩
    modify fun m => writeU m 4 2 (tupleId + 1)
    modify fun m => store m tupleOffset.toNat tuple.data
    return some (UInt16.ofNat tupleId)

/-- The guard on the slot number, the first statement of every other call. -/
def checkSlot (tupleId : ℕ) : PageM Unit := do
  if getNumTuples (← get) ≤ tupleId then throw ⟨"Tuple ID out of range"⟩ else return ()

/-- `UpdateTupleMeta`. -/
def updateTupleMeta (tupleMeta : TupleMeta) (rid : RID) : PageM Unit := do
  checkSlot rid.slotNum
  let info := tupleInfo (← get) rid.slotNum
  modify fun m => countDeleted m info.tupleMeta tupleMeta
  modify fun m => setTupleInfo m rid.slotNum { info with tupleMeta := tupleMeta }

/-- `GetTuple`. -/
def getTuple (rid : RID) : PageM (TupleMeta × Tuple) := do
  checkSlot rid.slotNum
  let m ← get
  let info := tupleInfo m rid.slotNum
  return (info.tupleMeta,
    { rid := rid
      data := load m info.offset.toNat info.size.toNat
      length_lt := by
        have h := info.size.toNat_lt
        rw [length_load]
        omega })

/-- `GetTupleMeta`. -/
def getTupleMeta (rid : RID) : PageM TupleMeta := do
  checkSlot rid.slotNum
  return (tupleInfo (← get) rid.slotNum).tupleMeta

/-- `UpdateTupleInPlaceUnsafe`. -/
def updateTupleInPlaceUnsafe (tupleMeta : TupleMeta) (tuple : Tuple) (rid : RID) : PageM Unit := do
  checkSlot rid.slotNum
  let info := tupleInfo (← get) rid.slotNum
  if info.size.toNat ≠ tuple.getLength then throw ⟨"Tuple size mismatch"⟩
  else
    modify fun m => countDeleted m info.tupleMeta tupleMeta
    modify fun m => setTupleInfo m rid.slotNum { info with tupleMeta := tupleMeta }
    modify fun m => store m info.offset.toNat tuple.data

end TablePage

/-- A call that writes, as a program. -/
def call : PageOp → PageM Unit
  | .insertTuple tupleMeta tuple => do
    let _ ← TablePage.insertTuple tupleMeta tuple
  | .updateTupleMeta tupleMeta rid => TablePage.updateTupleMeta tupleMeta rid
  | .updateTupleInPlaceUnsafe tupleMeta tuple rid =>
    TablePage.updateTupleInPlaceUnsafe tupleMeta tuple rid
  | .setNextPageId nextPageId => modify fun m => setNextPageId m nextPageId

end Calls

/-! ## Programs and functions -/

section Refinement

variable {m : Mem} {tupleMeta : TupleMeta} {t : Tuple} {rid : RID}

/-- How a function of the page that may throw reads as a program: a page that is thrown out of is
left as it was. -/
def asCall {α : Type} (m : Mem) (x : Except Exception (α × Mem)) : EStateM.Result Exception Mem α :=
  match x with
  | .ok (a, m') => .ok a m'
  | .error e => .error e m

theorem TablePage.checkSlot_eq (m : Mem) (tupleId : ℕ) :
    TablePage.checkSlot tupleId m =
      if getNumTuples m ≤ tupleId then .error ⟨"Tuple ID out of range"⟩ m else .ok () m := by
  show (if getNumTuples m ≤ tupleId then _ else _ : PageM Unit) m = _
  split_ifs
  · rfl
  · rfl

theorem TablePage.insertTuple_eq (m : Mem) (tupleMeta : TupleMeta) (t : Tuple) :
    TablePage.insertTuple tupleMeta t m =
      .ok (Storage.insertTuple m tupleMeta t).1 (Storage.insertTuple m tupleMeta t).2 := by
  cases hoff : getNextTupleOffset m tupleMeta t with
  | none =>
    rw [insertTuple_of_none hoff]
    show (match getNextTupleOffset m tupleMeta t with | none => _ | some _ => _ : PageM _) m = _
    rw [hoff]
    rfl
  | some off =>
    rw [insertTuple_of_some hoff]
    show (match getNextTupleOffset m tupleMeta t with | none => _ | some _ => _ : PageM _) m = _
    rw [hoff]
    rfl

theorem TablePage.updateTupleMeta_eq (m : Mem) (tupleMeta : TupleMeta) (rid : RID) :
    TablePage.updateTupleMeta tupleMeta rid m =
      asCall m ((Storage.updateTupleMeta m tupleMeta rid).map fun m' => ((), m')) := by
  unfold TablePage.updateTupleMeta Storage.updateTupleMeta
  simp only [bind, EStateM.bind, TablePage.checkSlot_eq]
  split_ifs
  · rfl
  · rfl

theorem TablePage.getTuple_eq (m : Mem) (rid : RID) :
    TablePage.getTuple rid m = asCall m ((Storage.getTuple m rid).map fun r => (r, m)) := by
  unfold TablePage.getTuple Storage.getTuple
  simp only [bind, EStateM.bind, TablePage.checkSlot_eq]
  split_ifs
  · rfl
  · rfl

theorem TablePage.getTupleMeta_eq (m : Mem) (rid : RID) :
    TablePage.getTupleMeta rid m = asCall m ((Storage.getTupleMeta m rid).map fun r => (r, m)) := by
  unfold TablePage.getTupleMeta Storage.getTupleMeta
  simp only [bind, EStateM.bind, TablePage.checkSlot_eq]
  split_ifs
  · rfl
  · rfl

theorem TablePage.updateTupleInPlaceUnsafe_eq (m : Mem) (tupleMeta : TupleMeta) (t : Tuple) (rid : RID) :
    TablePage.updateTupleInPlaceUnsafe tupleMeta t rid m =
      asCall m ((Storage.updateTupleInPlaceUnsafe m tupleMeta t rid).map fun m' => ((), m')) := by
  unfold TablePage.updateTupleInPlaceUnsafe Storage.updateTupleInPlaceUnsafe
  simp only [bind, EStateM.bind, TablePage.checkSlot_eq]
  by_cases hn : getNumTuples m ≤ rid.slotNum
  · rw [if_pos hn, if_pos hn]
    rfl
  · rw [if_neg hn, if_neg hn]
    show (if _ then _ else _ : PageM Unit) m = _
    split_ifs
    · rfl
    · rfl

/-- **Steps and programs**: a call, run on a page, leaves what `applyOp` says. -/
theorem call_state (m : Mem) (op : PageOp) :
    (∃ e, call op m = .error e m ∧ applyOp m op = m) ∨ call op m = .ok () (applyOp m op) := by
  cases op with
  | insertTuple tupleMeta t =>
    right
    simp only [call, bind, EStateM.bind, TablePage.insertTuple_eq]
    rfl
  | updateTupleMeta tupleMeta rid =>
    have heq := TablePage.updateTupleMeta_eq m tupleMeta rid
    simp only [call, applyOp]
    cases hupd : updateTupleMeta m tupleMeta rid with
    | ok m' =>
      right
      rw [heq, hupd]
      rfl
    | error e =>
      left
      rw [heq, hupd]
      exact ⟨e, rfl, rfl⟩
  | updateTupleInPlaceUnsafe tupleMeta t rid =>
    have heq := TablePage.updateTupleInPlaceUnsafe_eq m tupleMeta t rid
    simp only [call, applyOp]
    cases hupd : updateTupleInPlaceUnsafe m tupleMeta t rid with
    | ok m' =>
      right
      rw [heq, hupd]
      rfl
    | error e =>
      left
      rw [heq, hupd]
      exact ⟨e, rfl, rfl⟩
  | setNextPageId nextPageId => exact .inr rfl

end Refinement

/-! ## Frames -/

section Frames

/-- All that is read at other slots than `i`, and the link to the next page, is as it was. -/
def KeepsOthers (m m' : Mem) (i : ℕ) : Prop :=
  getNextPageId m' = getNextPageId m ∧ ∀ rid : RID, rid.slotNum ≠ i → getTuple m' rid = getTuple m rid

/-- What page `m` promises about the next call. -/
structure Framed (m : Mem) : Prop where
  /-- a tuple that fits is inserted, and read back as it was given -/
  insert : ∀ (tupleMeta : TupleMeta) (t : Tuple), Fits m t → ∃ slotId m',
    TablePage.insertTuple tupleMeta t m = .ok (some slotId) m' ∧
    (∀ pageId, getTuple m' ⟨pageId, slotId.toNat⟩ =
      .ok (tupleMeta, { t with rid := ⟨pageId, slotId.toNat⟩ })) ∧
    KeepsOthers m m' slotId.toNat
  /-- `UpdateTupleMeta` changes the meta of its slot -/
  updateMeta : ∀ tupleMeta rid m', TablePage.updateTupleMeta tupleMeta rid m = .ok () m' →
    (∃ old, getTuple m rid = .ok old ∧ getTuple m' rid = .ok (tupleMeta, old.2)) ∧
    KeepsOthers m m' rid.slotNum
  /-- `UpdateTupleInPlaceUnsafe` changes the meta and the bytes of its slot -/
  updateInPlace : ∀ tupleMeta t rid m',
    TablePage.updateTupleInPlaceUnsafe tupleMeta t rid m = .ok () m' →
    getTuple m' rid = .ok (tupleMeta, { t with rid := rid }) ∧ KeepsOthers m m' rid.slotNum
  /-- a call that throws has written nothing -/
  throws : ∀ op e m', call op m = .error e m' → m' = m
  getTuple_throws : ∀ rid e m', TablePage.getTuple rid m = .error e m' → m' = m
  getTupleMeta_throws : ∀ rid e m', TablePage.getTupleMeta rid m = .error e m' → m' = m

variable {m m' : Mem} {tupleMeta : TupleMeta} {t : Tuple} {rid : RID}

theorem getTuple_congr (hn : rid.slotNum < getNumTuples m' ↔ rid.slotNum < getNumTuples m)
    (he : rid.slotNum < getNumTuples m → entry m' rid.slotNum = entry m rid.slotNum) :
    getTuple m' rid = getTuple m rid := by
  by_cases hlt : rid.slotNum < getNumTuples m
  · rw [getTuple_eq_rowAt hlt, getTuple_eq_rowAt (hn.mpr hlt), rowAt_congr rid (he hlt)]
  · have hlt' : ¬ rid.slotNum < getNumTuples m' := fun h => hlt (hn.mp h)
    unfold getTuple
    dsimp only
    rw [if_pos (by omega), if_pos (by omega)]

theorem Inserted.keepsOthers {data : List UInt8} (h : Inserted m m' tupleMeta data) :
    KeepsOthers m m' (getNumTuples m) := by
  have hnum := h.numTuples
  refine ⟨h.nextPageId, ?_⟩
  intro rid hne
  exact getTuple_congr (by omega) (h.old rid.slotNum)

theorem Updated.keepsOthers {i : ℕ} {e : TupleMeta × List UInt8} (h : Updated m m' i e) :
    KeepsOthers m m' i := by
  have hnum := h.numTuples
  refine ⟨h.nextPageId, ?_⟩
  intro rid hne
  exact getTuple_congr (by rw [hnum]) (fun hlt => h.other rid.slotNum hlt hne)

theorem asCall_error {α : Type} {x : Except Exception (α × Mem)} {e : Exception}
    (h : asCall m x = .error e m') : m' = m := by
  cases x with
  | ok r => cases h
  | error e => cases h; rfl

theorem asCall_unit_ok {x : Except Exception Mem} (h : asCall m (x.map fun m' => ((), m')) = .ok () m') :
    x = .ok m' := by
  cases x with
  | ok m'' => cases h; rfl
  | error e => cases h

/-- **Stacked tuples are framed**: every call writes inside its own slot and its own tuple. -/
theorem Stacked.framed (h : Stacked m) : Framed m := by
  refine ⟨?_, ?_, ?_, ?_, ?_, ?_⟩
  · intro tupleMeta t hfit
    obtain ⟨m', heq, hins⟩ := insertTuple_spec tupleMeta h hfit
    have hid : (UInt16.ofNat (getNumTuples m)).toNat = getNumTuples m := by
      rw [UInt16.toNat_ofNat']
      exact Nat.mod_eq_of_lt (getNumTuples_lt m)
    refine ⟨UInt16.ofNat (getNumTuples m), m', by rw [TablePage.insertTuple_eq, heq], ?_⟩
    rw [hid]
    refine ⟨?_, hins.keepsOthers⟩
    intro pageId
    have hnum := hins.numTuples
    have hlt : getNumTuples m < getNumTuples m' := by omega
    rw [getTuple_eq_rowAt hlt, rowAt_eq_of_entry ⟨pageId, getNumTuples m⟩ hins.new t rfl]
  · intro tupleMeta rid m' hok
    rw [TablePage.updateTupleMeta_eq] at hok
    have hupd := asCall_unit_ok hok
    have hi := updateTupleMeta_ok hupd
    obtain ⟨m'', hok', hspec⟩ := updateTupleMeta_spec tupleMeta h hi
    rw [hupd] at hok'
    cases hok'
    have hnum := hspec.numTuples
    refine ⟨⟨rowAt m rid, getTuple_eq_rowAt hi, ?_⟩, hspec.keepsOthers⟩
    rw [getTuple_eq_rowAt (by omega), rowAt_eq_of_entry rid hspec.same (rowAt m rid).2 rfl]
    rfl
  · intro tupleMeta t rid m' hok
    rw [TablePage.updateTupleInPlaceUnsafe_eq] at hok
    have hupd := asCall_unit_ok hok
    obtain ⟨hi, hsize⟩ := updateTupleInPlaceUnsafe_ok hupd
    obtain ⟨m'', hok', hspec⟩ := updateTupleInPlaceUnsafe_spec tupleMeta h hi hsize
    rw [hupd] at hok'
    cases hok'
    have hnum := hspec.numTuples
    refine ⟨?_, hspec.keepsOthers⟩
    rw [getTuple_eq_rowAt (by omega), rowAt_eq_of_entry rid hspec.same t rfl]
  · intro op e m' herr
    rcases call_state m op with ⟨e', heq, -⟩ | heq
    · rw [heq] at herr
      cases herr
      rfl
    · rw [heq] at herr
      cases herr
  · intro rid e m' herr
    rw [TablePage.getTuple_eq] at herr
    exact asCall_error herr
  · intro rid e m' herr
    rw [TablePage.getTupleMeta_eq] at herr
    exact asCall_error herr

/-- **Frames of slotted pages.**  In every run whose insertions each give a tuple no longer than the
space under the last one, every page reached is framed. -/
theorem framed_of_fit_tested (m : Mem) (ops : List PageOp)
    (hall : ∀ pre op post, ops = pre ++ op :: post → FitTested (runOps (init m) pre) op) :
    ∀ pre post, ops = pre ++ post → Framed (runOps (init m) pre) := by
  intro pre post heq
  refine (stacked_runOps pre (stacked_init m) ?_).framed
  intro pre' op post' hpre
  exact hall pre' op (post' ++ post) (by rw [heq, hpre, List.append_assoc, List.cons_append])

/-- One insertion of ten bytes into a fresh page. -/
theorem framed_one_insertion :
    Framed (runOps (init fun _ => 0) [.insertTuple ⟨0, false⟩ (uniformTuple 7 10 (by decide))]) := by
  refine framed_of_fit_tested (fun _ => 0) _ ?_ _ [] rfl
  intro pre op post heq
  obtain ⟨rfl, rfl⟩ : pre = [] ∧ op = .insertTuple ⟨0, false⟩ (uniformTuple 7 10 (by decide)) := by
    cases pre with
    | nil =>
      cases heq
      exact ⟨rfl, rfl⟩
    | cons _ pre =>
      have hlen := congrArg List.length heq
      simp at hlen
  show (uniformTuple 7 10 _).getLength ≤ slotEndOffset (init fun _ => 0)
  rw [getLength_uniformTuple, slotEndOffset_eq_pageSize (getNumTuples_init _)]
  decide

/-- What an insertion does to the slot array, whether the tuple fits or wraps around. -/
theorem insertTuple_slots {off : UInt16}
    (hoff : getNextTupleOffset m tupleMeta t = some off) (hlow : 8 + 24 * (getNumTuples m + 1) ≤ off.toNat) :
    getNumTuples (insertTuple m tupleMeta t).2 = getNumTuples m + 1 ∧
    tupleInfo (insertTuple m tupleMeta t).2 (getNumTuples m) = ⟨off, UInt16.ofNat t.getLength, tupleMeta⟩ ∧
    ∀ i < getNumTuples m, tupleInfo (insertTuple m tupleMeta t).2 i = tupleInfo m i := by
  have hlt := off.toNat_lt
  rw [insertTuple_of_some hoff]
  obtain ⟨hnum, hnew⟩ := inserted_slot m ⟨off, UInt16.ofNat t.getLength, tupleMeta⟩ t.data hlow (by omega)
  exact ⟨hnum, hnew, fun i hi => inserted_old_slot _ _ _ hlow hi⟩

/-- The bytes right of the slot array and left of the new tuple are left alone. -/
theorem insertTuple_byte {off : UInt16} {a : ℕ}
    (hoff : getNextTupleOffset m tupleMeta t = some off) (hlow : 8 + 24 * (getNumTuples m + 1) ≤ a)
    (ha : a < off.toNat) : (insertTuple m tupleMeta t).2 a = m a := by
  rw [insertTuple_of_some hoff]
  dsimp only
  rw [store_apart (by omega), writeU_apart (by omega), setTupleInfo_apart (by rw [slotAddr_eq]; omega)]

/-- From a framed page, the bytes of an inserted tuple do not land on a byte of an older one, unless
they agree with it. -/
theorem Framed.byte_eq (h : Framed m) (hfit : Fits m t) {i a k : ℕ} (hi : i < getNumTuples m)
    (hlow : offsetAt m i ≤ a) (hhigh : a < offsetAt m i + sizeAt m i)
    (hk : k < t.data.length) (ha : a = slotEndOffset m - t.getLength + k) : t.data[k] = m a := by
  obtain ⟨slotId, m', heq, -, -, hkeep⟩ := h.insert ⟨0, false⟩ t hfit
  rw [TablePage.insertTuple_eq, insertTuple_of_fits hfit] at heq
  cases heq
  have hfit' := fits_iff.mp hfit
  have hend := slotEndOffset_lt m
  have hid : (UInt16.ofNat (getNumTuples m)).toNat = getNumTuples m := by
    rw [UInt16.toNat_ofNat']
    exact Nat.mod_eq_of_lt (getNumTuples_lt m)
  set info : TupleInfo :=
    ⟨UInt16.ofNat (slotEndOffset m - t.getLength), UInt16.ofNat t.getLength, ⟨0, false⟩⟩
  set m' := store (writeU (setTupleInfo m (getNumTuples m) info) 4 2 (getNumTuples m + 1))
    (slotEndOffset m - t.getLength) t.data with hm'
  have hnum : getNumTuples m' = getNumTuples m + 1 := (inserted_slot _ _ _ (by omega) (by omega)).1
  have hslot : tupleInfo m' i = tupleInfo m i := inserted_old_slot _ _ _ (by omega) hi
  -- the old slot is read back with the same offset and size, so with the same bytes
  have hread : getTuple m' ⟨0, i⟩ = getTuple m ⟨0, i⟩ :=
    hkeep ⟨0, i⟩ (by rw [hid]; exact Nat.ne_of_lt hi)
  have hnew : getTuple m' ⟨0, i⟩ = .ok (rowAt m' ⟨0, i⟩) := getTuple_eq_rowAt (by show i < _; omega)
  have hold : getTuple m ⟨0, i⟩ = .ok (rowAt m ⟨0, i⟩) := getTuple_eq_rowAt hi
  have hrow : rowAt m' ⟨0, i⟩ = rowAt m ⟨0, i⟩ :=
    Except.ok.inj (hnew.symm.trans (hread.trans hold))
  have hdata : load m' (offsetAt m' i) (sizeAt m' i) = load m (offsetAt m i) (sizeAt m i) :=
    congrArg (fun r : Row => r.2.data) hrow
  rw [offsetAt_congr (congrArg TupleInfo.offset hslot), sizeAt_congr (congrArg TupleInfo.size hslot)] at hdata
  have hbyte : m' a = m a := by
    obtain ⟨j, rfl⟩ : ∃ j, a = offsetAt m i + j := ⟨a - offsetAt m i, by omega⟩
    have hj : j < (load m' (offsetAt m i) (sizeAt m i)).length := by
      rw [length_load]
      omega
    have hj' : j < (load m (offsetAt m i) (sizeAt m i)).length := by
      rw [length_load]
      omega
    rw [← getElem_load _ _ j hj, ← getElem_load _ _ j hj']
    exact List.getElem_of_eq hdata hj
  rw [← hbyte, ha, hm', store_inside hk]

/-- The page after two insertions: 4192 bytes, then a tuple that wraps to offset 8000. -/
def wrappedPage : Mem :=
  runOps (init fun _ => 0)
    [.insertTuple ⟨0, false⟩ (uniformTuple 0 4192 (by decide)),
      .insertTuple ⟨0, false⟩ (uniformTuple 0 61536 (by decide))]

theorem wrapped_page_spec : getNumTuples wrappedPage = 2 ∧ slotEndOffset wrappedPage = 8000 ∧
    offsetAt wrappedPage 0 = 4000 ∧ sizeAt wrappedPage 0 = 4192 ∧ wrappedPage 5000 = 0 := by
  have hn0 : getNumTuples (init fun _ => 0) = 0 := getNumTuples_init _
  have hend0 : slotEndOffset (init fun _ => 0) = 8192 := slotEndOffset_eq_pageSize hn0
  -- of the two tuples only the lengths and a byte matter
  obtain ⟨t1, ht1⟩ : ∃ t, t = uniformTuple 0 4192 (by decide) := ⟨_, rfl⟩
  obtain ⟨t2, ht2⟩ : ∃ t, t = uniformTuple 0 61536 (by decide) := ⟨_, rfl⟩
  have hlen1 : t1.getLength = 4192 := by
    rw [ht1]
    exact getLength_uniformTuple ..
  have hlen2 : t2.getLength = 61536 := by
    rw [ht2]
    exact getLength_uniformTuple ..
  have hk : 1000 < t1.data.length := by
    show 1000 < t1.getLength
    omega
  have hzero : t1.data[1000] = 0 := by
    subst ht1
    exact getElem_uniformTuple ..
  -- the first tuple fits
  have hoff1 : getNextTupleOffset (init fun _ => 0) ⟨0, false⟩ t1 = some 4000 := by
    rw [getNextTupleOffset_of_le (by omega), if_pos (by rw [fits_iff]; omega), hend0, hlen1]
    rfl
  obtain ⟨hnum1, hnew1, -⟩ := insertTuple_slots hoff1 (by rw [hn0]; decide)
  rw [hn0, hlen1] at hnew1
  have hbyte1 : (insertTuple (init fun _ => 0) ⟨0, false⟩ t1).2 5000 = 0 := by
    rw [insertTuple_of_some hoff1]
    dsimp only
    exact (store_inside (a := (4000 : UInt16).toNat) hk).trans hzero
  set m1 := (insertTuple (init fun _ => 0) ⟨0, false⟩ t1).2 with hm1
  have hnum1' : getNumTuples m1 = 1 := by omega
  have hend1 : slotEndOffset m1 = 4000 := by
    rw [slotEndOffset_eq_last (by omega), hnum1']
    unfold offsetAt
    rw [hnew1]
    rfl
  -- the second one is longer than the space under it
  have hoff2 : getNextTupleOffset m1 ⟨0, false⟩ t2 = some 8000 := by
    rw [getNextTupleOffset_of_lt (by omega), hend1, hlen2]
    rfl
  obtain ⟨hnum2, hnew2, hold2⟩ := insertTuple_slots hoff2 (by rw [hnum1']; decide)
  have hbyte2 := insertTuple_byte (a := 5000) hoff2 (by omega) (by decide)
  have hpage : wrappedPage = (insertTuple m1 ⟨0, false⟩ t2).2 := by
    simp only [wrappedPage, runOps, List.foldl_cons, List.foldl_nil, applyOp, hm1, ← ht1, ← ht2]
  rw [hpage]
  rw [hnum1'] at hnum2 hnew2
  have hslot0 := (hold2 0 (by omega)).trans hnew1
  refine ⟨by omega, ?_, ?_, ?_, hbyte2.trans hbyte1⟩
  · rw [slotEndOffset_eq_last (by omega), hnum2]
    unfold offsetAt
    rw [hnew2]
    rfl
  · unfold offsetAt
    rw [hslot0]
    rfl
  · unfold sizeAt
    rw [hslot0]
    rfl

/-- On that page 3000 bytes fit, and go over the bytes of the first tuple. -/
theorem wrapped_page_not_framed : ¬ Framed wrappedPage := by
  obtain ⟨hnum, hend, hoff, hsize, hbyte⟩ := wrapped_page_spec
  intro h
  set t := uniformTuple 1 3000 (by decide)
  have hlen : t.getLength = 3000 := getLength_uniformTuple ..
  have hk : 0 < t.data.length := by
    show 0 < t.getLength
    omega
  have hone : t.data[0] = 1 := getElem_uniformTuple ..
  have hzero : t.data[0] = wrappedPage 5000 :=
    h.byte_eq (by rw [fits_iff]; omega) (i := 0) (by omega) (by omega) (by omega) hk (by omega)
  rw [hone, hbyte] at hzero
  exact absurd hzero (by decide)

end Frames

end Journey.Storage
