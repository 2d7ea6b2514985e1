import Journey.Lib.Bytes
import Journey.Lib.Machine

/-!
# Journey.Bustub.Storage.TablePage — the slotted page

`TablePage` as the code lays it out: a page is a block of memory read through casts, so the model of
a page is the memory from `page_start_` on (`Mem`), and every field is a word of it.

* `init`, `getNextTupleOffset`, `insertTuple`, `updateTupleMeta`, `updateTupleInPlaceUnsafe`,
  `getTuple`, `getTupleMeta`: the member functions, with their exceptions.
* `Stacked`: the invariant the tuples keep as long as no tuple is longer than the space under the
  last one: each tuple lies right of the next, the last one right of the slot array.
* `insertTuple_spec`, `updateTupleMeta_spec`, `updateTupleInPlaceUnsafe_spec`: what each operation
  does to the header, the slots and the stored tuples.
-/

namespace Journey.Storage

/-! ## Records -/

section Records

/-- `INVALID_PAGE_ID`. -/
def invalidPageId : Int32 := -1

/-- `RID`: a page id (`page_id_t`, 32 bit signed) and a slot number. -/
structure RID where
  pageId : Int32
  slotNum : ℕ
deriving DecidableEq, Repr

/-- `TupleMeta`: the timestamp or transaction id, and the delete mark. -/
structure TupleMeta where
  ts : Int64
  isDeleted : Bool
deriving DecidableEq, Repr

/-- `Tuple`: its RID and its bytes.  Every constructor takes the size as a `uint32_t`. -/
structure Tuple where
  rid : RID
  data : List UInt8
  length_lt : data.length < 2 ^ 32
deriving DecidableEq

/-- `GetLength`. -/
def Tuple.getLength (t : Tuple) : ℕ := t.data.length

/-- `bustub::Exception`, thrown with a message. -/
structure Exception where
  msg : String
deriving DecidableEq, Repr

/-- `TupleInfo`: `std::tuple<uint16_t, uint16_t, TupleMeta>`, a slot of the page. -/
structure TupleInfo where
  offset : UInt16
  size : UInt16
  tupleMeta : TupleMeta
deriving DecidableEq, Repr

end Records

/-! ## Fields of the page -/

section Fields

/-- `BUSTUB_PAGE_SIZE`. -/
def pageSize : ℕ := 8192

/-- `TABLE_PAGE_HEADER_SIZE`. -/
def tablePageHeaderSize : ℕ := 8

/-- `TUPLE_INFO_SIZE`. -/
def tupleInfoSize : ℕ := 24

def getNextPageId (m : Mem) : Int32 := readI32 m 0

def setNextPageId (m : Mem) (nextPageId : Int32) : Mem := writeI32 m 0 nextPageId

def getNumTuples (m : Mem) : ℕ := readU m 4 2

def numDeletedTuples (m : Mem) : ℕ := readU m 6 2

/-- The address of `tuple_info_[i]`. -/
def slotAddr (i : ℕ) : ℕ := tablePageHeaderSize + tupleInfoSize * i

/-- `tuple_info_[i]`; `std::tuple` lays its components out from the last to the first. -/
def tupleInfo (m : Mem) (i : ℕ) : TupleInfo where
  offset := readU16 m (slotAddr i + 18)
  size := readU16 m (slotAddr i + 16)
  tupleMeta :=
    { ts := readI64 m (slotAddr i)
      isDeleted := m (slotAddr i + 8) != 0 }

/-- `tuple_info_[i] = info`. -/
def setTupleInfo (m : Mem) (i : ℕ) (info : TupleInfo) : Mem :=
  let m := writeI64 m (slotAddr i) info.tupleMeta.ts
  let m := store m (slotAddr i + 8) [if info.tupleMeta.isDeleted then 1 else 0]
  let m := writeU16 m (slotAddr i + 16) info.size
  writeU16 m (slotAddr i + 18) info.offset

end Fields

/-! ## Operations -/

section Operations

/-- `Init`: only the header is written, the rest of the page keeps its bytes. -/
def init (m : Mem) : Mem :=
  writeU (writeU (setNextPageId m invalidPageId) 4 2 0) 6 2 0

/-- Where the free space ends: at the last tuple, or at the end of the page. -/
def slotEndOffset (m : Mem) : ℕ :=
  if 0 < getNumTuples m then (tupleInfo m (getNumTuples m - 1)).offset.toNat else pageSize

/-- Subtraction on `size_t`: a difference below zero wraps around. -/
def sizeTSub (a b : ℕ) : ℕ := if b ≤ a then a - b else a + 2 ^ 64 - b

/-- `GetNextTupleOffset`.  The subtraction is on `size_t`, the answer is cut to `uint16_t`. -/
def getNextTupleOffset (m : Mem) (_meta : TupleMeta) (tuple : Tuple) : Option UInt16 :=
  let tupleOffset := sizeTSub (slotEndOffset m) tuple.getLength
  let offsetSize := tablePageHeaderSize + tupleInfoSize * (getNumTuples m + 1)
  if tupleOffset < offsetSize then none else some (UInt16.ofNat tupleOffset)

/-- `InsertTuple`. -/
def insertTuple (m : Mem) (tupleMeta : TupleMeta) (tuple : Tuple) : Option UInt16 × Mem :=
  match getNextTupleOffset m tupleMeta tuple with
  | none => (none, m)
  | some tupleOffset =>
    let tupleId := getNumTuples m
    let m := setTupleInfo m tupleId ⟨tupleOffset, UInt16.ofNat tuple.getLength, tupleMeta⟩
    let m := writeU m 4 2 (tupleId + 1)
    (some (UInt16.ofNat tupleId), store m tupleOffset.toNat tuple.data)

/-- The delete counter goes up when a live tuple is marked deleted. -/
def countDeleted (m : Mem) (oldMeta tupleMeta : TupleMeta) : Mem :=
  if !oldMeta.isDeleted && tupleMeta.isDeleted then writeU m 6 2 (numDeletedTuples m + 1) else m

/-- `UpdateTupleMeta`. -/
def updateTupleMeta (m : Mem) (tupleMeta : TupleMeta) (rid : RID) : Except Exception Mem :=
  let tupleId := rid.slotNum
  if getNumTuples m ≤ tupleId then .error ⟨"Tuple ID out of range"⟩
  else
    let info := tupleInfo m tupleId
    let m := countDeleted m info.tupleMeta tupleMeta
    .ok (setTupleInfo m tupleId { info with tupleMeta := tupleMeta })

/-- `GetTuple`. -/
def getTuple (m : Mem) (rid : RID) : Except Exception (TupleMeta × Tuple) :=
  let tupleId := rid.slotNum
  if getNumTuples m ≤ tupleId then .error ⟨"Tuple ID out of range"⟩
  else
    let info := tupleInfo m tupleId
    .ok (info.tupleMeta,
      { rid := rid
        data := load m info.offset.toNat info.size.toNat
        length_lt := by
          have h := info.size.toNat_lt
          rw [length_load]
          omega })

/-- `GetTupleMeta`. -/
def getTupleMeta (m : Mem) (rid : RID) : Except Exception TupleMeta :=
  let tupleId := rid.slotNum
  if getNumTuples m ≤ tupleId then .error ⟨"Tuple ID out of range"⟩
  else .ok (tupleInfo m tupleId).tupleMeta

/-- `UpdateTupleInPlaceUnsafe`. -/
def updateTupleInPlaceUnsafe (m : Mem) (tupleMeta : TupleMeta) (tuple : Tuple) (rid : RID) :
    Except Exception Mem :=
  let tupleId := rid.slotNum
  if getNumTuples m ≤ tupleId then .error ⟨"Tuple ID out of range"⟩
  else
    let info := tupleInfo m tupleId
    if info.size.toNat ≠ tuple.getLength then .error ⟨"Tuple size mismatch"⟩
    else
      let m := countDeleted m info.tupleMeta tupleMeta
      let m := setTupleInfo m tupleId { info with tupleMeta := tupleMeta }
      .ok (store m info.offset.toNat tuple.data)

end Operations

/-! ## Fields after a write -/

section FieldLemmas

variable {m m' : Mem} {i j : ℕ} {info : TupleInfo}

theorem slotAddr_eq (i : ℕ) : slotAddr i = 8 + 24 * i := rfl

theorem getNumTuples_lt (m : Mem) : getNumTuples m < 2 ^ 16 := readU_lt m 4 2

theorem getNumTuples_congr (h : ∀ a, 4 ≤ a → a < 6 → m a = m' a) :
    getNumTuples m = getNumTuples m' := readU_congr h

theorem getNextPageId_congr (h : ∀ a, a < 4 → m a = m' a) : getNextPageId m = getNextPageId m' := by
  have h4 : readU m 0 4 = readU m' 0 4 := readU_congr (fun a _ ha => h a (by omega))
  unfold getNextPageId readI32
  rw [h4]

@[simp] theorem getNextPageId_setNextPageId (m : Mem) (id : Int32) :
    getNextPageId (setNextPageId m id) = id := readI32_writeI32 m 0 id

theorem setNextPageId_apart {a : ℕ} {id : Int32} (h : 4 ≤ a) : setNextPageId m id a = m a := by
  unfold setNextPageId writeI32
  exact writeU_apart (by omega)

/-- A slot depends on its own 24 bytes only. -/
theorem tupleInfo_congr (h : ∀ a, slotAddr i ≤ a → a < slotAddr i + 24 → m a = m' a) :
    tupleInfo m i = tupleInfo m' i := by
  have hts : readU m (slotAddr i) 8 = readU m' (slotAddr i) 8 :=
    readU_congr (fun a h1 h2 => h a h1 (by omega))
  have hdel : m (slotAddr i + 8) = m' (slotAddr i + 8) := h _ (by omega) (by omega)
  have hsize : readU m (slotAddr i + 16) 2 = readU m' (slotAddr i + 16) 2 :=
    readU_congr (fun a h1 h2 => h a (by omega) (by omega))
  have hoff : readU m (slotAddr i + 18) 2 = readU m' (slotAddr i + 18) 2 :=
    readU_congr (fun a h1 h2 => h a (by omega) (by omega))
  unfold tupleInfo readU16 readI64
  rw [hts, hdel, hsize, hoff]

/-- Writing a slot leaves every byte outside the slot. -/
theorem setTupleInfo_apart {a : ℕ} (h : a < slotAddr i ∨ slotAddr i + 24 ≤ a) :
    setTupleInfo m i info a = m a := by
  have h8 : [if info.tupleMeta.isDeleted then (1 : UInt8) else 0].length = 1 := rfl
  unfold setTupleInfo writeI64 writeU16
  rw [writeU_apart (by omega), writeU_apart (by omega), store_apart (by omega),
    writeU_apart (by omega)]

@[simp] theorem tupleInfo_setTupleInfo_self (m : Mem) (i : ℕ) (info : TupleInfo) :
    tupleInfo (setTupleInfo m i info) i = info := by
  obtain ⟨off, size, ts, del⟩ := info
  unfold setTupleInfo
  set m1 := writeI64 m (slotAddr i) ts with hm1
  set m2 := store m1 (slotAddr i + 8) [if del then 1 else 0] with hm2
  set m3 := writeU16 m2 (slotAddr i + 16) size with hm3
  have hlen : [if del then (1 : UInt8) else 0].length = 1 := rfl
  -- each field is read below the later writes
  have hoff : readU16 (writeU16 m3 (slotAddr i + 18) off) (slotAddr i + 18) = off :=
    readU16_writeU16 _ _ _
  have hsize : readU16 (writeU16 m3 (slotAddr i + 18) off) (slotAddr i + 16) = size := by
    have h := readU16_writeU16 m2 (slotAddr i + 16) size
    unfold readU16 writeU16 at *
    rw [readU_writeU_apart (by unfold Apart; omega)]
    exact h
  have hdel : writeU16 m3 (slotAddr i + 18) off (slotAddr i + 8) = if del then 1 else 0 := by
    have h1 : m3 (slotAddr i + 8) = m2 (slotAddr i + 8) := writeU_apart (by omega)
    have h2 : m2 (slotAddr i + 8 + 0) = if del then 1 else 0 := by
      rw [hm2, store_inside (by omega)]
      rfl
    have h3 : writeU16 m3 (slotAddr i + 18) off (slotAddr i + 8) = m3 (slotAddr i + 8) :=
      writeU_apart (by omega)
    rw [h3, h1]
    exact h2
  have hts : readI64 (writeU16 m3 (slotAddr i + 18) off) (slotAddr i) = ts := by
    have h := readI64_writeI64 m (slotAddr i) ts
    unfold readI64 at *
    unfold writeU16 at *
    rw [readU_writeU_apart (by unfold Apart; omega), hm3, readU_writeU_apart (by unfold Apart; omega),
      hm2, readU_store_apart (by unfold Apart; omega)]
    exact h
  unfold tupleInfo
  rw [hoff, hsize, hdel, hts]
  cases del with
  | false => rfl
  | true => rfl

theorem countDeleted_apart {old new : TupleMeta} {a : ℕ} (h : a < 6 ∨ 8 ≤ a) :
    countDeleted m old new a = m a := by
  unfold countDeleted
  split_ifs
  · exact writeU_apart (by omega)
  · rfl

@[simp] theorem getNumTuples_init (m : Mem) : getNumTuples (init m) = 0 := by
  unfold getNumTuples init
  rw [readU_writeU_apart (by unfold Apart; omega), readU_writeU]
  rfl

@[simp] theorem getNextPageId_init (m : Mem) : getNextPageId (init m) = invalidPageId := by
  have h : getNextPageId (init m) = getNextPageId (setNextPageId m invalidPageId) := by
    refine getNextPageId_congr ?_
    intro a ha
    unfold init
    rw [writeU_apart (by omega), writeU_apart (by omega)]
  rw [h, getNextPageId_setNextPageId]

end FieldLemmas

/-! ## The fit test -/

section FitTest

variable {m : Mem} {tupleMeta : TupleMeta} {t : Tuple}

/-- The tuple and its slot fit between the slot array and the lowest tuple. -/
def Fits (m : Mem) (t : Tuple) : Prop :=
  tablePageHeaderSize + tupleInfoSize * (getNumTuples m + 1) + t.getLength ≤ slotEndOffset m

instance (m : Mem) (t : Tuple) : Decidable (Fits m t) := Nat.decLe _ _

theorem fits_iff : Fits m t ↔ 8 + 24 * (getNumTuples m + 1) + t.getLength ≤ slotEndOffset m := Iff.rfl

theorem slotEndOffset_lt (m : Mem) : slotEndOffset m < 2 ^ 16 := by
  unfold slotEndOffset
  split_ifs
  · exact UInt16.toNat_lt _
  · decide

theorem Fits.length_le (h : Fits m t) : t.getLength ≤ slotEndOffset m := by
  rw [fits_iff] at h
  omega

/-- A tuple no longer than the space under the last one is tested exactly. -/
theorem getNextTupleOffset_of_le (h : t.getLength ≤ slotEndOffset m) :
    getNextTupleOffset m tupleMeta t =
      if Fits m t then some (UInt16.ofNat (slotEndOffset m - t.getLength)) else none := by
  have hsub : sizeTSub (slotEndOffset m) t.getLength = slotEndOffset m - t.getLength := if_pos h
  unfold getNextTupleOffset
  dsimp only
  rw [hsub]
  by_cases hfit : Fits m t
  · rw [if_pos hfit, if_neg]
    rw [fits_iff] at hfit
    unfold tablePageHeaderSize tupleInfoSize
    omega
  · rw [if_neg hfit, if_pos]
    rw [fits_iff] at hfit
    unfold tablePageHeaderSize tupleInfoSize
    omega

/-- A longer tuple wraps around `size_t` and always passes the test. -/
theorem getNextTupleOffset_of_lt (h : slotEndOffset m < t.getLength) :
    getNextTupleOffset m tupleMeta t =
      some (UInt16.ofNat (slotEndOffset m + 2 ^ 64 - t.getLength)) := by
  have hlt := slotEndOffset_lt m
  have hn := getNumTuples_lt m
  have hlen : t.getLength < 2 ^ 32 := t.length_lt
  have hsub : sizeTSub (slotEndOffset m) t.getLength = slotEndOffset m + 2 ^ 64 - t.getLength :=
    if_neg (by omega)
  unfold getNextTupleOffset
  dsimp only
  rw [hsub, if_neg]
  unfold tablePageHeaderSize tupleInfoSize
  omega

/-- **The fit test refuses a tuple that does not fit exactly when it does not wrap.** -/
theorem getNextTupleOffset_eq_none_iff (h : ¬ Fits m t) :
    getNextTupleOffset m tupleMeta t = none ↔ t.getLength ≤ slotEndOffset m := by
  rcases Nat.lt_or_ge (slotEndOffset m) t.getLength with hlt | hle
  · rw [getNextTupleOffset_of_lt hlt]
    simp only [reduceCtorEq, false_iff]
    omega
  · rw [getNextTupleOffset_of_le hle, if_neg h]
    simp [hle]

end FitTest

/-! ## The invariant -/

section Invariant

/-- Where slot `i`'s tuple starts and how long it is. -/
def offsetAt (m : Mem) (i : ℕ) : ℕ := (tupleInfo m i).offset.toNat

def sizeAt (m : Mem) (i : ℕ) : ℕ := (tupleInfo m i).size.toNat

/-- The tuples are stacked downwards from the end of the page: slot `j > i` lies below slot `i`,
and the last one leaves room for the slot array. -/
structure Stacked (m : Mem) : Prop where
  top : ∀ i < getNumTuples m, offsetAt m i + sizeAt m i ≤ 8192
  stack : ∀ i j, i < j → j < getNumTuples m → offsetAt m j + sizeAt m j ≤ offsetAt m i
  base : 8 + 24 * getNumTuples m ≤ slotEndOffset m

/-- The regions of the tuples: pairwise apart, inside the page, right of header and slot array. -/
structure SlotsOk (m : Mem) : Prop where
  disjoint : ∀ i j, i < getNumTuples m → j < getNumTuples m → i ≠ j →
    Apart (offsetAt m i) (sizeAt m i) (offsetAt m j) (sizeAt m j)
  inside : ∀ i < getNumTuples m, offsetAt m i + sizeAt m i ≤ pageSize
  afterSlots : ∀ i < getNumTuples m,
    tablePageHeaderSize + tupleInfoSize * getNumTuples m ≤ offsetAt m i

variable {m m' : Mem}

theorem slotEndOffset_eq_last (h : 0 < getNumTuples m) :
    slotEndOffset m = offsetAt m (getNumTuples m - 1) := if_pos h

theorem slotEndOffset_eq_pageSize (h : getNumTuples m = 0) : slotEndOffset m = 8192 := by
  unfold slotEndOffset
  rw [if_neg (by omega)]
  rfl

theorem Stacked.slotEnd_le (h : Stacked m) {i : ℕ} (hi : i < getNumTuples m) :
    slotEndOffset m ≤ offsetAt m i := by
  rw [slotEndOffset_eq_last (by omega)]
  rcases Nat.lt_or_ge i (getNumTuples m - 1) with hlt | hge
  · have := h.stack i (getNumTuples m - 1) hlt (by omega)
    omega
  · have hi' : getNumTuples m - 1 = i := by omega
    rw [hi']

theorem Stacked.slotEnd_le_pageSize (h : Stacked m) : slotEndOffset m ≤ 8192 := by
  rcases Nat.eq_zero_or_pos (getNumTuples m) with h0 | hpos
  · rw [slotEndOffset_eq_pageSize h0]
  · have h1 := h.slotEnd_le (i := 0) hpos
    have h2 := h.top 0 hpos
    omega

theorem Stacked.numTuples_le (h : Stacked m) : getNumTuples m ≤ 341 := by
  have h1 := h.base
  have h2 := h.slotEnd_le_pageSize
  omega

theorem Stacked.slotsOk (h : Stacked m) : SlotsOk m := by
  refine ⟨?_, h.top, ?_⟩
  · intro i j hi hj hne
    unfold Apart
    rcases Nat.lt_or_ge i j with hlt | hge
    · have := h.stack i j hlt hj
      omega
    · have := h.stack j i (by omega) hi
      omega
  · intro i hi
    exact h.base.trans (h.slotEnd_le hi)

theorem stacked_init (m : Mem) : Stacked (init m) := by
  have h0 := getNumTuples_init m
  refine ⟨?_, ?_, ?_⟩
  · intro i hi
    omega
  · intro i j _ hj
    omega
  · rw [slotEndOffset_eq_pageSize h0, h0]
    decide

/-- The invariant speaks about offsets and sizes only. -/
theorem Stacked.congr (h : Stacked m) (hn : getNumTuples m' = getNumTuples m)
    (hoff : ∀ i < getNumTuples m, offsetAt m' i = offsetAt m i)
    (hsize : ∀ i < getNumTuples m, sizeAt m' i = sizeAt m i) :
    Stacked m' ∧ slotEndOffset m' = slotEndOffset m := by
  have hend : slotEndOffset m' = slotEndOffset m := by
    rcases Nat.eq_zero_or_pos (getNumTuples m) with h0 | hpos
    · rw [slotEndOffset_eq_pageSize h0, slotEndOffset_eq_pageSize (by omega)]
    · rw [slotEndOffset_eq_last hpos, slotEndOffset_eq_last (by omega), hn, hoff _ (by omega)]
  refine ⟨⟨?_, ?_, ?_⟩, hend⟩
  · intro i hi
    rw [hn] at hi
    rw [hoff i hi, hsize i hi]
    exact h.top i hi
  · intro i j hij hj
    rw [hn] at hj
    rw [hoff i (by omega), hoff j hj, hsize j hj]
    exact h.stack i j hij hj
  · rw [hn, hend]
    exact h.base

end Invariant

/-! ## What each operation does -/

section Specs

/-- What slot `i` holds: the meta and the bytes of the tuple. -/
def entry (m : Mem) (i : ℕ) : TupleMeta × List UInt8 :=
  ((tupleInfo m i).tupleMeta, load m (offsetAt m i) (sizeAt m i))

/-- A slot was added, nothing else changed. -/
structure Inserted (m m' : Mem) (tupleMeta : TupleMeta) (data : List UInt8) : Prop where
  numTuples : getNumTuples m' = getNumTuples m + 1
  nextPageId : getNextPageId m' = getNextPageId m
  old : ∀ i < getNumTuples m, entry m' i = entry m i
  new : entry m' (getNumTuples m) = (tupleMeta, data)
  stacked : Stacked m'

/-- Slot `i` was overwritten, nothing else changed. -/
structure Updated (m m' : Mem) (i : ℕ) (e : TupleMeta × List UInt8) : Prop where
  numTuples : getNumTuples m' = getNumTuples m
  nextPageId : getNextPageId m' = getNextPageId m
  slotEnd : slotEndOffset m' = slotEndOffset m
  same : entry m' i = e
  other : ∀ j < getNumTuples m, j ≠ i → entry m' j = entry m j
  stacked : Stacked m'

variable {m : Mem} {tupleMeta : TupleMeta} {t : Tuple} {rid : RID}

theorem offsetAt_congr {m' : Mem} {i : ℕ} (h : (tupleInfo m' i).offset = (tupleInfo m i).offset) :
    offsetAt m' i = offsetAt m i := congrArg UInt16.toNat h

theorem sizeAt_congr {m' : Mem} {i : ℕ} (h : (tupleInfo m' i).size = (tupleInfo m i).size) :
    sizeAt m' i = sizeAt m i := congrArg UInt16.toNat h

theorem entry_congr {m' : Mem} {i : ℕ} (hinfo : tupleInfo m' i = tupleInfo m i)
    (hdata : ∀ a, offsetAt m i ≤ a → a < offsetAt m i + sizeAt m i → m' a = m a) :
    entry m' i = entry m i := by
  have hoff : offsetAt m' i = offsetAt m i := offsetAt_congr (by rw [hinfo])
  have hsize : sizeAt m' i = sizeAt m i := sizeAt_congr (by rw [hinfo])
  unfold entry
  rw [hinfo, hoff, hsize, load_congr hdata]

theorem insertTuple_of_none (h : getNextTupleOffset m tupleMeta t = none) :
    insertTuple m tupleMeta t = (none, m) := by
  unfold insertTuple
  rw [h]

/-- The page after an insertion at offset `off`. -/
theorem insertTuple_of_some {off : UInt16} (h : getNextTupleOffset m tupleMeta t = some off) :
    insertTuple m tupleMeta t = (some (UInt16.ofNat (getNumTuples m)),
      store (writeU (setTupleInfo m (getNumTuples m) ⟨off, UInt16.ofNat t.getLength, tupleMeta⟩)
        4 2 (getNumTuples m + 1)) off.toNat t.data) := by
  unfold insertTuple
  rw [h]

/-- The count and the new slot, read from memory written like that: the tuple's bytes lie right of
both. -/
theorem inserted_slot (m : Mem) (info : TupleInfo) (data : List UInt8) {off n : ℕ}
    (hoff : 8 + 24 * (n + 1) ≤ off) (hn : n + 1 < 2 ^ 16) :
    getNumTuples (store (writeU (setTupleInfo m n info) 4 2 (n + 1)) off data) = n + 1 ∧
      tupleInfo (store (writeU (setTupleInfo m n info) 4 2 (n + 1)) off data) n = info := by
  constructor
  · unfold getNumTuples
    rw [readU_store_apart (by unfold Apart; omega), readU_writeU]
    exact Nat.mod_eq_of_lt hn
  · have h1 : tupleInfo (store (writeU (setTupleInfo m n info) 4 2 (n + 1)) off data) n =
        tupleInfo (setTupleInfo m n info) n := by
      refine tupleInfo_congr ?_
      intro a h1 h2
      rw [slotAddr_eq] at h1 h2
      rw [store_apart (by omega), writeU_apart (by omega)]
    rw [h1, tupleInfo_setTupleInfo_self]

/-- The slots before it are left as they were. -/
theorem inserted_old_slot (m : Mem) (info : TupleInfo) (data : List UInt8) {off n i : ℕ}
    (hoff : 8 + 24 * (n + 1) ≤ off) (hi : i < n) :
    tupleInfo (store (writeU (setTupleInfo m n info) 4 2 (n + 1)) off data) i = tupleInfo m i := by
  refine tupleInfo_congr ?_
  intro a h1 h2
  rw [slotAddr_eq] at h1 h2
  rw [store_apart (by omega), writeU_apart (by omega), setTupleInfo_apart (by rw [slotAddr_eq]; omega)]

theorem insertTuple_of_fits (hfit : Fits m t) :
    insertTuple m tupleMeta t = (some (UInt16.ofNat (getNumTuples m)),
      store (writeU (setTupleInfo m (getNumTuples m)
          ⟨UInt16.ofNat (slotEndOffset m - t.getLength), UInt16.ofNat t.getLength, tupleMeta⟩)
        4 2 (getNumTuples m + 1)) (slotEndOffset m - t.getLength) t.data) := by
  have hlt := slotEndOffset_lt m
  have hoff : (UInt16.ofNat (slotEndOffset m - t.getLength)).toNat = slotEndOffset m - t.getLength := by
    rw [UInt16.toNat_ofNat']
    exact Nat.mod_eq_of_lt (by omega)
  have hnext : getNextTupleOffset m tupleMeta t =
      some (UInt16.ofNat (slotEndOffset m - t.getLength)) := by
    rw [getNextTupleOffset_of_le hfit.length_le, if_pos hfit]
  rw [insertTuple_of_some hnext, hoff]

/-- **A tuple that fits is inserted** in a new slot below the others. -/
theorem insertTuple_spec (tupleMeta : TupleMeta) (h : Stacked m) (hfit : Fits m t) :
    ∃ m', insertTuple m tupleMeta t = (some (UInt16.ofNat (getNumTuples m)), m') ∧
      Inserted m m' tupleMeta t.data := by
  refine ⟨_, insertTuple_of_fits hfit, ?_⟩
  set n := getNumTuples m with hn
  set off := slotEndOffset m - t.getLength with hoffdef
  set info : TupleInfo := ⟨UInt16.ofNat off, UInt16.ofNat t.getLength, tupleMeta⟩ with hinfo
  set m1 := setTupleInfo m n info with hm1
  set m2 := writeU m1 4 2 (n + 1) with hm2
  have hfit' := fits_iff.mp hfit
  have hlen : t.getLength = t.data.length := rfl
  have hpage := h.slotEnd_le_pageSize
  have hslot : slotAddr n = 8 + 24 * n := slotAddr_eq n
  have hoff : info.offset.toNat = off := by
    rw [hinfo, UInt16.toNat_ofNat']
    exact Nat.mod_eq_of_lt (by omega)
  have hsize : info.size.toNat = t.getLength := by
    rw [hinfo, UInt16.toNat_ofNat']
    exact Nat.mod_eq_of_lt (by omega)
  -- the bytes that are left alone
  have hbyte : ∀ a, (a < 4 ∨ 6 ≤ a) → (a < slotAddr n ∨ slotAddr n + 24 ≤ a) →
      (a < off ∨ off + t.getLength ≤ a) → store m2 off t.data a = m a := by
    intro a h4 hs ho
    rw [store_apart (by omega), hm2, writeU_apart (by omega), hm1, setTupleInfo_apart hs]
  obtain ⟨hnum, hnew⟩ : getNumTuples (store m2 off t.data) = n + 1 ∧
      tupleInfo (store m2 off t.data) n = info := inserted_slot _ _ _ (by omega) (by omega)
  have hold : ∀ i < n, tupleInfo (store m2 off t.data) i = tupleInfo m i :=
    fun i hi => inserted_old_slot _ _ _ (by omega) hi
  have hold_off : ∀ i < n, offsetAt (store m2 off t.data) i = offsetAt m i :=
    fun i hi => offsetAt_congr (by rw [hold i hi])
  have hold_size : ∀ i < n, sizeAt (store m2 off t.data) i = sizeAt m i :=
    fun i hi => sizeAt_congr (by rw [hold i hi])
  have hnew_off : offsetAt (store m2 off t.data) n = off := by
    unfold offsetAt
    rw [hnew, hoff]
  have hnew_size : sizeAt (store m2 off t.data) n = t.getLength := by
    unfold sizeAt
    rw [hnew, hsize]
  refine ⟨hnum, ?_, ?_, ?_, ?_, ?_, ?_⟩
  · refine getNextPageId_congr ?_
    intro a ha
    exact hbyte a (by omega) (by omega) (by omega)
  · intro i hi
    refine entry_congr (hold i hi) ?_
    intro a h1 h2
    have h3 := h.slotEnd_le hi
    exact hbyte a (by omega) (by omega) (by omega)
  · unfold entry
    rw [hnew_off, hnew_size, hnew, hlen, load_store]
  · intro i hi
    rw [hnum] at hi
    rcases Nat.lt_or_ge i n with hlt | hge
    · rw [hold_off i hlt, hold_size i hlt]
      exact h.top i hlt
    · have : i = n := by omega
      subst this
      rw [hnew_off, hnew_size]
      omega
  · intro i j hij hj
    rw [hnum] at hj
    rcases Nat.lt_or_ge j n with hlt | hge
    · rw [hold_off i (by omega), hold_off j hlt, hold_size j hlt]
      exact h.stack i j hij hlt
    · have : j = n := by omega
      subst this
      rw [hnew_off, hnew_size, hold_off i hij]
      have := h.slotEnd_le hij
      omega
  · have hlast : n + 1 - 1 = n := by omega
    rw [slotEndOffset_eq_last (by omega), hnum, hlast, hnew_off]
    omega

/-- A slot rewritten with its own offset and size, then new bytes in its own region. -/
theorem rewrite_spec (h : Stacked m) {old : TupleMeta} {i : ℕ} (hi : i < getNumTuples m)
    {data : List UInt8} (hdata : data.length = sizeAt m i) :
    Updated m (store (setTupleInfo (countDeleted m old tupleMeta) i
        { tupleInfo m i with tupleMeta := tupleMeta }) (tupleInfo m i).offset.toNat data) i
      (tupleMeta, data) := by
  set info : TupleInfo := { tupleInfo m i with tupleMeta := tupleMeta } with hinfo
  set m1 := setTupleInfo (countDeleted m old tupleMeta) i info with hm1
  have hoff : (tupleInfo m i).offset.toNat = offsetAt m i := rfl
  rw [hoff]
  have hbase := h.base
  have hend := h.slotEnd_le hi
  have hbyte : ∀ a, (a < 6 ∨ 8 ≤ a) → (a < slotAddr i ∨ slotAddr i + 24 ≤ a) →
      (a < offsetAt m i ∨ offsetAt m i + sizeAt m i ≤ a) → store m1 (offsetAt m i) data a = m a := by
    intro a h6 hs ho
    rw [store_apart (by omega), hm1, setTupleInfo_apart hs, countDeleted_apart h6]
  have hnum : getNumTuples (store m1 (offsetAt m i) data) = getNumTuples m := by
    refine getNumTuples_congr ?_
    intro a h4 h6
    exact hbyte a (by omega) (by rw [slotAddr_eq]; omega) (by omega)
  have hself : tupleInfo (store m1 (offsetAt m i) data) i = info := by
    have h1 : tupleInfo (store m1 (offsetAt m i) data) i = tupleInfo m1 i := by
      refine tupleInfo_congr ?_
      intro a h1 h2
      rw [slotAddr_eq] at h1 h2
      exact store_apart (by omega)
    rw [h1, hm1, tupleInfo_setTupleInfo_self]
  have hne : ∀ j < getNumTuples m, j ≠ i →
      tupleInfo (store m1 (offsetAt m i) data) j = tupleInfo m j := by
    intro j hj hji
    refine tupleInfo_congr ?_
    intro a h1 h2
    rw [slotAddr_eq] at h1 h2
    exact hbyte a (by omega) (by rw [slotAddr_eq]; omega) (by omega)
  have hoffs : ∀ j < getNumTuples m, offsetAt (store m1 (offsetAt m i) data) j = offsetAt m j := by
    intro j hj
    refine offsetAt_congr ?_
    by_cases hji : j = i
    · subst hji
      rw [hself]
    · rw [hne j hj hji]
  have hsizes : ∀ j < getNumTuples m, sizeAt (store m1 (offsetAt m i) data) j = sizeAt m j := by
    intro j hj
    refine sizeAt_congr ?_
    by_cases hji : j = i
    · subst hji
      rw [hself]
    · rw [hne j hj hji]
  obtain ⟨hstacked, hslotEnd⟩ := h.congr hnum hoffs hsizes
  refine ⟨hnum, ?_, hslotEnd, ?_, ?_, hstacked⟩
  · refine getNextPageId_congr ?_
    intro a ha
    exact hbyte a (by omega) (by rw [slotAddr_eq]; omega) (by omega)
  · have hmeta : (tupleInfo (store m1 (offsetAt m i) data) i).tupleMeta = tupleMeta := by
      rw [hself]
    unfold entry
    rw [hmeta, hoffs i hi, hsizes i hi, ← hdata, load_store]
  · intro j hj hji
    refine entry_congr (hne j hj hji) ?_
    intro a h1 h2
    have h3 := h.slotEnd_le hj
    have h4 : Apart (offsetAt m j) (sizeAt m j) (offsetAt m i) (sizeAt m i) :=
      h.slotsOk.disjoint j i hj hi hji
    unfold Apart at h4
    exact hbyte a (by omega) (by rw [slotAddr_eq]; omega) (by omega)

theorem store_load_self (m : Mem) (a n : ℕ) : store m a (load m a n) = m := by
  funext i
  by_cases hi : a ≤ i ∧ i < a + n
  · obtain ⟨k, rfl⟩ : ∃ k, i = a + k := ⟨i - a, by omega⟩
    have hk : k < (load m a n).length := by
      rw [length_load]
      omega
    rw [store_inside hk, getElem_load]
  · exact store_apart (by rw [length_load]; omega)

/-- **`UpdateTupleMeta`** changes the meta of the slot and keeps its bytes. -/
theorem updateTupleMeta_spec (tupleMeta : TupleMeta) (h : Stacked m) (hi : rid.slotNum < getNumTuples m) :
    ∃ m', updateTupleMeta m tupleMeta rid = .ok m' ∧
      Updated m m' rid.slotNum (tupleMeta, (entry m rid.slotNum).2) := by
  refine ⟨_, by unfold updateTupleMeta; exact if_neg (by omega), ?_⟩
  set m1 := setTupleInfo (countDeleted m (tupleInfo m rid.slotNum).tupleMeta tupleMeta) rid.slotNum
    { tupleInfo m rid.slotNum with tupleMeta := tupleMeta } with hm1
  -- the bytes of the tuple are written back unchanged
  have hkeep : load m1 (offsetAt m rid.slotNum) (sizeAt m rid.slotNum) = (entry m rid.slotNum).2 := by
    refine load_congr ?_
    intro a h1 h2
    have h3 := h.slotEnd_le hi
    have h4 := h.base
    rw [hm1, setTupleInfo_apart (by rw [slotAddr_eq]; omega), countDeleted_apart (by omega)]
  have hself : store m1 (tupleInfo m rid.slotNum).offset.toNat (entry m rid.slotNum).2 = m1 := by
    rw [← hkeep]
    exact store_load_self _ _ _
  rw [← hself]
  refine rewrite_spec h hi ?_
  unfold entry
  rw [length_load]

/-- **`UpdateTupleInPlaceUnsafe`** with a tuple of the slot's size overwrites the slot. -/
theorem updateTupleInPlaceUnsafe_spec (tupleMeta : TupleMeta) (h : Stacked m) (hi : rid.slotNum < getNumTuples m)
    (hsize : sizeAt m rid.slotNum = t.getLength) :
    ∃ m', updateTupleInPlaceUnsafe m tupleMeta t rid = .ok m' ∧
      Updated m m' rid.slotNum (tupleMeta, t.data) := by
  have heq : updateTupleInPlaceUnsafe m tupleMeta t rid =
      .ok (store (setTupleInfo (countDeleted m (tupleInfo m rid.slotNum).tupleMeta tupleMeta) rid.slotNum
        { tupleInfo m rid.slotNum with tupleMeta := tupleMeta })
          (tupleInfo m rid.slotNum).offset.toNat t.data) := by
    unfold updateTupleInPlaceUnsafe
    dsimp only
    rw [if_neg (by omega), if_neg]
    exact fun hne => hne hsize
  exact ⟨_, heq, rewrite_spec h hi hsize.symm⟩

/-- What a successful `UpdateTupleMeta` needed. -/
theorem updateTupleMeta_ok {m' : Mem} (hok : updateTupleMeta m tupleMeta rid = .ok m') :
    rid.slotNum < getNumTuples m := by
  by_contra hge
  unfold updateTupleMeta at hok
  dsimp only at hok
  rw [if_pos (by omega)] at hok
  cases hok

theorem updateTupleInPlaceUnsafe_ok {m' : Mem}
    (hok : updateTupleInPlaceUnsafe m tupleMeta t rid = .ok m') :
    rid.slotNum < getNumTuples m ∧ sizeAt m rid.slotNum = t.getLength := by
  unfold updateTupleInPlaceUnsafe at hok
  dsimp only at hok
  split_ifs at hok with hn hs
  refine ⟨by omega, ?_⟩
  by_contra hne
  exact hs hne

end Specs

/-! ## Runs -/

section Runs

/-- One call on a page, with its arguments. -/
inductive PageOp
  | insertTuple (tupleMeta : TupleMeta) (tuple : Tuple)
  | updateTupleMeta (tupleMeta : TupleMeta) (rid : RID)
  | updateTupleInPlaceUnsafe (tupleMeta : TupleMeta) (tuple : Tuple) (rid : RID)
  | setNextPageId (nextPageId : Int32)

/-- The page after a call; every exception is thrown before the first write. -/
def applyOp (m : Mem) : PageOp → Mem
  | .insertTuple tupleMeta tuple => (insertTuple m tupleMeta tuple).2
  | .updateTupleMeta tupleMeta rid =>
    match updateTupleMeta m tupleMeta rid with
    | .ok m' => m'
    | .error _ => m
  | .updateTupleInPlaceUnsafe tupleMeta tuple rid =>
    match updateTupleInPlaceUnsafe m tupleMeta tuple rid with
    | .ok m' => m'
    | .error _ => m
  | .setNextPageId nextPageId => setNextPageId m nextPageId

/-- The page after a list of calls. -/
def runOps (m : Mem) (ops : List PageOp) : Mem := ops.foldl applyOp m

/-- An inserted tuple is no longer than the space under the last one (up to the page's end when
there is none). -/
def FitTested (m : Mem) : PageOp → Prop
  | .insertTuple _ tuple => tuple.getLength ≤ slotEndOffset m
  | _ => True

/-- A tuple that does not fit is answered with `nullopt`. -/
def RefusesUnfit (m : Mem) : PageOp → Prop
  | .insertTuple tupleMeta tuple => ¬ Fits m tuple → getNextTupleOffset m tupleMeta tuple = none
  | _ => True

variable {m : Mem} {op : PageOp}

theorem refusesUnfit_iff_fitTested : RefusesUnfit m op ↔ FitTested m op := by
  cases op with
  | insertTuple tupleMeta tuple =>
    show (¬ Fits m tuple → getNextTupleOffset m tupleMeta tuple = none) ↔
      tuple.getLength ≤ slotEndOffset m
    by_cases hfit : Fits m tuple
    · have hle := hfit.length_le
      simp [hfit, hle]
    · have hiff : getNextTupleOffset m tupleMeta tuple = none ↔ tuple.getLength ≤ slotEndOffset m :=
        getNextTupleOffset_eq_none_iff hfit
      simp [hfit, hiff]
  | updateTupleMeta tupleMeta rid => exact Iff.rfl
  | updateTupleInPlaceUnsafe tupleMeta tuple rid => exact Iff.rfl
  | setNextPageId id => exact Iff.rfl

theorem stacked_setNextPageId {id : Int32} (h : Stacked m) : Stacked (setNextPageId m id) := by
  have hslot : ∀ i, tupleInfo (setNextPageId m id) i = tupleInfo m i := by
    intro i
    refine tupleInfo_congr ?_
    intro a h1 _
    rw [slotAddr_eq] at h1
    exact setNextPageId_apart (by omega)
  refine (h.congr ?_ ?_ ?_).1
  · exact getNumTuples_congr (fun a h4 _ => setNextPageId_apart h4)
  · intro i _
    exact offsetAt_congr (by rw [hslot i])
  · intro i _
    exact sizeAt_congr (by rw [hslot i])

/-- **Step**: a call that meets the fit test's condition keeps the tuples stacked. -/
theorem stacked_applyOp (h : Stacked m) (hop : FitTested m op) : Stacked (applyOp m op) := by
  cases op with
  | insertTuple tupleMeta tuple =>
    show Stacked (insertTuple m tupleMeta tuple).2
    by_cases hfit : Fits m tuple
    · obtain ⟨m', heq, hins⟩ := insertTuple_spec tupleMeta h hfit
      rw [heq]
      exact hins.stacked
    · have hnone : getNextTupleOffset m tupleMeta tuple = none :=
        (getNextTupleOffset_eq_none_iff hfit).mpr hop
      rw [insertTuple_of_none hnone]
      exact h
  | updateTupleMeta tupleMeta rid =>
    simp only [applyOp]
    split
    · rename_i m' hok
      obtain ⟨m'', hok', hupd⟩ := updateTupleMeta_spec tupleMeta h (updateTupleMeta_ok hok)
      rw [hok] at hok'
      cases hok'
      exact hupd.stacked
    · exact h
  | updateTupleInPlaceUnsafe tupleMeta tuple rid =>
    simp only [applyOp]
    split
    · rename_i m' hok
      obtain ⟨hi, hsize⟩ := updateTupleInPlaceUnsafe_ok hok
      obtain ⟨m'', hok', hupd⟩ := updateTupleInPlaceUnsafe_spec tupleMeta h hi hsize
      rw [hok] at hok'
      cases hok'
      exact hupd.stacked
    · exact h
  | setNextPageId id => exact stacked_setNextPageId h

/-- **Run**: the tuples stay stacked along a run whose insertions all meet the condition. -/
theorem stacked_runOps (ops : List PageOp) (h : Stacked m)
    (hall : ∀ pre op post, ops = pre ++ op :: post → FitTested (runOps m pre) op) :
    Stacked (runOps m ops) :=
  foldl_along Stacked (fun _ _ h hop => stacked_applyOp h hop) ops m h hall

/-- **Slotted pages.**  A run keeps the regions of the tuples apart, inside the page and clear of
the slot array, and answers `nullopt` to every tuple it is given that does not fit, exactly when
every tuple it inserts is no longer than the offset of the last one.  In every state, a tuple that
does not fit is refused exactly when it is no longer than that. -/
theorem page_runs_iff_fit_tested (m : Mem) (ops : List PageOp) :
    (((∀ pre post, ops = pre ++ post → SlotsOk (runOps (init m) pre)) ∧
        (∀ pre op post, ops = pre ++ op :: post → RefusesUnfit (runOps (init m) pre) op)) ↔
      ∀ pre op post, ops = pre ++ op :: post → FitTested (runOps (init m) pre) op) ∧
    ∀ pre post, ops = pre ++ post → ∀ (tupleMeta : TupleMeta) (t : Tuple),
      ¬ Fits (runOps (init m) pre) t →
        (getNextTupleOffset (runOps (init m) pre) tupleMeta t = none ↔
          t.getLength ≤ slotEndOffset (runOps (init m) pre)) := by
  refine ⟨⟨?_, ?_⟩, ?_⟩
  · rintro ⟨_, hrefuse⟩ pre op post heq
    exact refusesUnfit_iff_fitTested.mp (hrefuse pre op post heq)
  · intro hall
    refine ⟨?_, ?_⟩
    · intro pre post heq
      refine (stacked_runOps pre (stacked_init m) ?_).slotsOk
      intro pre' op post' hpre
      exact hall pre' op (post' ++ post) (by rw [heq, hpre, List.append_assoc, List.cons_append])
    · intro pre op post heq
      exact refusesUnfit_iff_fitTested.mpr (hall pre op post heq)
  · intro pre post _ tupleMeta t hfit
    exact getNextTupleOffset_eq_none_iff hfit

/-- A tuple of `n` times the byte `b`. -/
def uniformTuple (b : UInt8) (n : ℕ) (h : n < 2 ^ 32) : Tuple where
  rid := ⟨invalidPageId, 0⟩
  data := List.replicate n b
  length_lt := by
    rw [List.length_replicate]
    exact h

theorem getLength_uniformTuple (b : UInt8) (n : ℕ) (h : n < 2 ^ 32) :
    (uniformTuple b n h).getLength = n := List.length_replicate ..

theorem getElem_uniformTuple (b : UInt8) (n : ℕ) (h : n < 2 ^ 32) (k : ℕ)
    (hk : k < (uniformTuple b n h).data.length) : (uniformTuple b n h).data[k] = b :=
  List.getElem_replicate ..

/-- A tuple one byte longer than a page. -/
def oversizeTuple : Tuple where
  rid := ⟨invalidPageId, 0⟩
  data := List.replicate 8193 0
  length_lt := by
    rw [List.length_replicate]
    decide

theorem getLength_oversizeTuple : oversizeTuple.getLength = 8193 := List.length_replicate ..

/-- A fresh page takes a tuple of 8193 bytes, at offset 65535. -/
theorem oversize_tuple_accepted :
    ¬ Fits (init fun _ => 0) oversizeTuple ∧
    getNextTupleOffset (init fun _ => 0) ⟨0, false⟩ oversizeTuple = some 65535 ∧
    ¬ SlotsOk (runOps (init fun _ => 0) [.insertTuple ⟨0, false⟩ oversizeTuple]) := by
  have hn : getNumTuples (init fun _ => 0) = 0 := getNumTuples_init _
  have hend : slotEndOffset (init fun _ => 0) = 8192 := slotEndOffset_eq_pageSize hn
  have hlen := getLength_oversizeTuple
  have hoff : getNextTupleOffset (init fun _ => 0) ⟨0, false⟩ oversizeTuple = some 65535 := by
    rw [getNextTupleOffset_of_lt (by omega), hend, hlen]
    rfl
  refine ⟨?_, hoff, ?_⟩
  · rw [fits_iff]
    omega
  · intro h
    have hrun : runOps (init fun _ => 0) [.insertTuple ⟨0, false⟩ oversizeTuple] =
        (insertTuple (init fun _ => 0) ⟨0, false⟩ oversizeTuple).2 := rfl
    rw [hrun, insertTuple_of_some hoff, hn, hlen] at h
    obtain ⟨hnum, hslot⟩ := inserted_slot (init fun _ => 0)
      ⟨65535, UInt16.ofNat 8193, ⟨0, false⟩⟩ oversizeTuple.data
      (show 8 + 24 * (0 + 1) ≤ (65535 : UInt16).toNat by decide) (by decide)
    have hinside := h.inside 0 (by dsimp only; rw [hnum]; decide)
    unfold offsetAt sizeAt at hinside
    dsimp only at hinside
    rw [hslot] at hinside
    exact absurd hinside (by decide)

end Runs

end Journey.Storage
