import Journey.Bustub.Storage.PageFrame
import Mathlib.Algebra.BigOperators.Intervals
import Mathlib.Algebra.BigOperators.Group.Finset.Piecewise

/-!
# Journey.Bustub.Storage.DeleteCount — the delete counter of a slotted page

`num_deleted_tuples_` goes up when a live tuple is marked deleted, and never down.

* `deletedSlots`, `CountExact`: the delete marks, and that the counter is their number.
* `OnlyMarks`: calls that bring no deleted tuple into the page and take no mark back.
* `countExact_applyOp_iff`, `count_exact_iff`: those are the calls, and the runs, that keep the counter
  exact.
-/

namespace Journey.Storage

/-! ## The counter -/

section Counter

/-- The slots whose meta has `is_deleted_` set. -/
def deletedSlots (m : Mem) : Finset ℕ :=
  (Finset.range (getNumTuples m)).filter fun i => (tupleInfo m i).tupleMeta.isDeleted = true

/-- `num_deleted_tuples_` is the number of deleted slots. -/
def CountExact (m : Mem) : Prop := numDeletedTuples m = (deletedSlots m).card

/-- The call neither brings a deleted tuple into the page nor takes a delete mark back.  Calls that
are refused or throw do neither. -/
def OnlyMarks (m : Mem) : PageOp → Prop
  | .insertTuple tupleMeta tuple => Fits m tuple → tupleMeta.isDeleted = false
  | .updateTupleMeta tupleMeta rid =>
    rid.slotNum < getNumTuples m → (tupleInfo m rid.slotNum).tupleMeta.isDeleted = true →
      tupleMeta.isDeleted = true
  | .updateTupleInPlaceUnsafe tupleMeta tuple rid =>
    rid.slotNum < getNumTuples m → sizeAt m rid.slotNum = tuple.getLength →
      (tupleInfo m rid.slotNum).tupleMeta.isDeleted = true → tupleMeta.isDeleted = true
  | .setNextPageId _ => True

variable {m m' : Mem} {tupleMeta : TupleMeta} {t : Tuple} {rid : RID}

theorem numDeletedTuples_congr (h : ∀ a, 6 ≤ a → a < 8 → m a = m' a) :
    numDeletedTuples m = numDeletedTuples m' := readU_congr h

/-- The counter goes up by one exactly when a live tuple is marked deleted. -/
theorem numDeletedTuples_countDeleted (m : Mem) (old new : TupleMeta) :
    numDeletedTuples (countDeleted m old new) =
      if !old.isDeleted && new.isDeleted then (numDeletedTuples m + 1) % 65536 else numDeletedTuples m := by
  unfold countDeleted
  split_ifs
  · unfold numDeletedTuples
    rw [readU_writeU]
    rfl
  · rfl

theorem card_deletedSlots (m : Mem) :
    (deletedSlots m).card = ∑ i ∈ Finset.range (getNumTuples m), (entry m i).1.isDeleted.toNat := by
  unfold deletedSlots
  rw [Finset.card_filter]
  refine Finset.sum_congr rfl ?_
  intro i _
  show (if (entry m i).1.isDeleted = true then 1 else 0) = _
  cases (entry m i).1.isDeleted with
  | false => rfl
  | true => rfl

theorem card_deletedSlots_le (m : Mem) : (deletedSlots m).card ≤ getNumTuples m := by
  have h := Finset.card_filter_le (Finset.range (getNumTuples m))
    fun i => (tupleInfo m i).tupleMeta.isDeleted = true
  rwa [Finset.card_range] at h

theorem Inserted.card_deletedSlots {data : List UInt8} (h : Inserted m m' tupleMeta data) :
    (deletedSlots m').card = (deletedSlots m).card + tupleMeta.isDeleted.toNat := by
  rw [Storage.card_deletedSlots, Storage.card_deletedSlots, h.numTuples, Finset.sum_range_succ, h.new]
  congr 1
  refine Finset.sum_congr rfl ?_
  intro i hi
  rw [h.old i (Finset.mem_range.mp hi)]

theorem Updated.card_deletedSlots {i : ℕ} {e : TupleMeta × List UInt8} (h : Updated m m' i e)
    (hi : i < getNumTuples m) :
    (deletedSlots m').card + (entry m i).1.isDeleted.toNat = (deletedSlots m).card + e.1.isDeleted.toNat := by
  have hmem : i ∈ Finset.range (getNumTuples m) := Finset.mem_range.mpr hi
  have hrest : ∑ j ∈ (Finset.range (getNumTuples m)).erase i, (entry m' j).1.isDeleted.toNat =
      ∑ j ∈ (Finset.range (getNumTuples m)).erase i, (entry m j).1.isDeleted.toNat := by
    refine Finset.sum_congr rfl ?_
    intro j hj
    obtain ⟨hne, hj⟩ := Finset.mem_erase.mp hj
    rw [h.other j (Finset.mem_range.mp hj) hne]
  rw [Storage.card_deletedSlots, Storage.card_deletedSlots, h.numTuples,
    ← Finset.add_sum_erase _ (fun j => (entry m' j).1.isDeleted.toNat) hmem,
    ← Finset.add_sum_erase _ (fun j => (entry m j).1.isDeleted.toNat) hmem, hrest, h.same]
  omega

/-- A page whose slot `i` was overwritten, with the counter moved by `countDeleted`: it is exact
after, as before, exactly when the mark was not taken back. -/
theorem Updated.countExact_iff {i : ℕ} {e : TupleMeta × List UInt8} (h : Updated m m' i e)
    (hm : Stacked m) (hi : i < getNumTuples m) (hexact : CountExact m)
    (hcount : numDeletedTuples m' = numDeletedTuples (countDeleted m (tupleInfo m i).tupleMeta e.1)) :
    CountExact m' ↔ ((tupleInfo m i).tupleMeta.isDeleted = true → e.1.isDeleted = true) := by
  have hcard := h.card_deletedSlots hi
  have hle := card_deletedSlots_le m
  have hmax := hm.numTuples_le
  have hold : (entry m i).1.isDeleted = (tupleInfo m i).tupleMeta.isDeleted := rfl
  rw [numDeletedTuples_countDeleted] at hcount
  rw [hold] at hcard
  unfold CountExact at *
  rw [hcount, hexact]
  generalize (tupleInfo m i).tupleMeta.isDeleted = old at *
  generalize e.1.isDeleted = new at *
  cases old <;> cases new <;> simp at * <;> omega

theorem countExact_insertTuple_iff (hm : Stacked m) (hle : t.getLength ≤ slotEndOffset m) (hexact : CountExact m) :
    CountExact (insertTuple m tupleMeta t).2 ↔ (Fits m t → tupleMeta.isDeleted = false) := by
  by_cases hfit : Fits m t
  · obtain ⟨m', heq, hins⟩ := insertTuple_spec tupleMeta hm hfit
    have hcard := hins.card_deletedSlots
    have hcount : numDeletedTuples m' = numDeletedTuples m := by
      have hfit' := fits_iff.mp hfit
      have hm' : m' = (insertTuple m tupleMeta t).2 := by rw [heq]
      rw [hm', insertTuple_of_fits hfit]
      refine numDeletedTuples_congr ?_
      intro a h6 h8
      dsimp only
      rw [store_apart (by omega), writeU_apart (by omega), setTupleInfo_apart (by rw [slotAddr_eq]; omega)]
    rw [heq]
    unfold CountExact at *
    dsimp only
    rw [hcount, hexact, hcard]
    cases tupleMeta.isDeleted with
    | false => simp [hfit]
    | true => simp [hfit]
  · rw [insertTuple_of_none ((getNextTupleOffset_eq_none_iff hfit).mpr hle)]
    exact ⟨fun _ hfit' => absurd hfit' hfit, fun _ => hexact⟩

/-- The counter lies left of the slots. -/
theorem numDeletedTuples_setTupleInfo (m : Mem) (i : ℕ) (info : TupleInfo) :
    numDeletedTuples (setTupleInfo m i info) = numDeletedTuples m := by
  refine numDeletedTuples_congr ?_
  intro a h6 h8
  exact setTupleInfo_apart (by rw [slotAddr_eq]; omega)

theorem countExact_updateTupleMeta_iff (hm : Stacked m) (hexact : CountExact m)
    (hi : rid.slotNum < getNumTuples m) (hok : updateTupleMeta m tupleMeta rid = .ok m') :
    CountExact m' ↔ ((tupleInfo m rid.slotNum).tupleMeta.isDeleted = true → tupleMeta.isDeleted = true) := by
  obtain ⟨m'', hok', hupd⟩ := updateTupleMeta_spec tupleMeta hm hi
  rw [hok] at hok'
  cases hok'
  refine hupd.countExact_iff hm hi hexact ?_
  unfold updateTupleMeta at hok
  dsimp only at hok
  rw [if_neg (by omega)] at hok
  rw [← Except.ok.inj hok, numDeletedTuples_setTupleInfo]

theorem countExact_updateTupleInPlaceUnsafe_iff (hm : Stacked m) (hexact : CountExact m)
    (hok : updateTupleInPlaceUnsafe m tupleMeta t rid = .ok m') :
    CountExact m' ↔ ((tupleInfo m rid.slotNum).tupleMeta.isDeleted = true → tupleMeta.isDeleted = true) := by
  obtain ⟨hi, hsize⟩ := updateTupleInPlaceUnsafe_ok hok
  obtain ⟨m'', hok', hupd⟩ := updateTupleInPlaceUnsafe_spec tupleMeta hm hi hsize
  rw [hok] at hok'
  cases hok'
  refine hupd.countExact_iff hm hi hexact ?_
  have hbase := hm.base
  have hend := hm.slotEnd_le hi
  have hoff : (tupleInfo m rid.slotNum).offset.toNat = offsetAt m rid.slotNum := rfl
  unfold updateTupleInPlaceUnsafe at hok
  dsimp only at hok
  rw [if_neg (by omega), if_neg (fun hne => hne hsize)] at hok
  rw [← Except.ok.inj hok]
  set info : TupleInfo := { tupleInfo m rid.slotNum with tupleMeta := tupleMeta }
  refine Eq.trans (numDeletedTuples_congr ?_) (numDeletedTuples_setTupleInfo _ rid.slotNum info)
  intro a h6 h8
  exact store_apart (by omega)

theorem countExact_setNextPageId (id : Int32) (hexact : CountExact m) : CountExact (setNextPageId m id) := by
  have hnum : getNumTuples (setNextPageId m id) = getNumTuples m :=
    getNumTuples_congr (fun a h4 _ => setNextPageId_apart h4)
  have hslots : deletedSlots (setNextPageId m id) = deletedSlots m := by
    unfold deletedSlots
    rw [hnum]
    refine Finset.filter_congr ?_
    intro i _
    have hslot : tupleInfo (setNextPageId m id) i = tupleInfo m i := by
      refine tupleInfo_congr ?_
      intro a h1 _
      rw [slotAddr_eq] at h1
      exact setNextPageId_apart (by omega)
    rw [hslot]
  have hcount : numDeletedTuples (setNextPageId m id) = numDeletedTuples m :=
    numDeletedTuples_congr (fun a h6 _ => setNextPageId_apart (by omega))
  unfold CountExact at *
  rw [hcount, hslots, hexact]

/-- **Step**: from an exact page, a call ends on an exact page exactly when it only marks. -/
theorem countExact_applyOp_iff (op : PageOp) (hm : Stacked m) (hop : FitTested m op) (hexact : CountExact m) :
    CountExact (applyOp m op) ↔ OnlyMarks m op := by
  cases op with
  | insertTuple tupleMeta t => exact countExact_insertTuple_iff hm hop hexact
  | updateTupleMeta tupleMeta rid =>
    simp only [applyOp, OnlyMarks]
    cases hres : updateTupleMeta m tupleMeta rid with
    | ok m' =>
      have hi := updateTupleMeta_ok hres
      rw [countExact_updateTupleMeta_iff hm hexact hi hres]
      exact ⟨fun h _ => h, fun h => h hi⟩
    | error e =>
      refine ⟨fun _ hi => ?_, fun _ => hexact⟩
      obtain ⟨m', hok, -⟩ := updateTupleMeta_spec tupleMeta hm hi
      rw [hres] at hok
      cases hok
  | updateTupleInPlaceUnsafe tupleMeta t rid =>
    simp only [applyOp, OnlyMarks]
    cases hres : updateTupleInPlaceUnsafe m tupleMeta t rid with
    | ok m' =>
      obtain ⟨hi, hsize⟩ := updateTupleInPlaceUnsafe_ok hres
      rw [countExact_updateTupleInPlaceUnsafe_iff hm hexact hres]
      exact ⟨fun h _ _ => h, fun h => h hi hsize⟩
    | error e =>
      refine ⟨fun _ hi hsize => ?_, fun _ => hexact⟩
      obtain ⟨m', hok, -⟩ := updateTupleInPlaceUnsafe_spec tupleMeta hm hi hsize
      rw [hres] at hok
      cases hok
  | setNextPageId id => exact ⟨fun _ => trivial, fun _ => countExact_setNextPageId id hexact⟩

theorem countExact_init (m : Mem) : CountExact (init m) := by
  have hzero : numDeletedTuples (init m) = 0 := by
    unfold numDeletedTuples init
    rw [readU_writeU]
    rfl
  have hnone : (deletedSlots (init m)).card = 0 := by
    have h := card_deletedSlots_le (init m)
    rw [getNumTuples_init] at h
    omega
  unfold CountExact
  rw [hzero, hnone]

/-- **The delete counter.**  In a run that inserts no tuple longer than the space under the last one,
`num_deleted_tuples_` is the number of deleted slots in every state reached exactly when no call
inserts an already deleted tuple or takes a delete mark back. -/
theorem count_exact_iff (m : Mem) (ops : List PageOp)
    (hfit : ∀ pre op post, ops = pre ++ op :: post → FitTested (runOps (init m) pre) op) :
    (∀ pre post, ops = pre ++ post → CountExact (runOps (init m) pre)) ↔
      ∀ pre op post, ops = pre ++ op :: post → OnlyMarks (runOps (init m) pre) op := by
  have hstacked : ∀ pre post, ops = pre ++ post → Stacked (runOps (init m) pre) := by
    intro pre post heq
    refine stacked_runOps pre (stacked_init m) ?_
    intro pre' op post' hpre
    exact hfit pre' op (post' ++ post) (by rw [heq, hpre, List.append_assoc, List.cons_append])
  have hstep : ∀ pre op, runOps (init m) (pre ++ [op]) = applyOp (runOps (init m) pre) op := by
    intro pre op
    unfold runOps
    rw [List.foldl_append]
    rfl
  constructor
  · intro hall pre op post heq
    have hnow := hall pre (op :: post) heq
    have hnext := hall (pre ++ [op]) post (by rw [heq, List.append_assoc]; rfl)
    rw [hstep] at hnext
    exact (countExact_applyOp_iff op (hstacked pre _ heq) (hfit pre op post heq) hnow).mp hnext
  · intro hmarks pre
    -- along the calls, from the first one on
    induction pre using List.reverseRecOn with
    | nil =>
      intro post _
      exact countExact_init m
    | append_singleton pre op ih =>
      intro post heq
      have heq' : ops = pre ++ op :: post := by
        rw [heq, List.append_assoc]
        rfl
      rw [hstep]
      exact (countExact_applyOp_iff op (hstacked pre _ heq') (hfit pre op post heq') (ih _ heq')).mpr
        (hmarks pre op post heq')

/-- A live tuple of ten bytes, then its delete mark. -/
theorem count_exact_marked :
    CountExact (runOps (init fun _ => 0)
      [.insertTuple ⟨0, false⟩ (uniformTuple 7 10 (by decide)), .updateTupleMeta ⟨0, true⟩ ⟨0, 0⟩]) := by
  have hfits : FitTested (init fun _ => 0) (.insertTuple ⟨0, false⟩ (uniformTuple 7 10 (by decide))) := by
    show (uniformTuple 7 10 _).getLength ≤ slotEndOffset (init fun _ => 0)
    rw [getLength_uniformTuple, slotEndOffset_eq_pageSize (getNumTuples_init _)]
    decide
  refine (count_exact_iff (fun _ => 0) _ ?_).mpr ?_ _ [] rfl
  · rintro pre op post heq
    rcases pre with - | ⟨op1, - | ⟨op2, pre⟩⟩
    · cases heq
      exact hfits
    · cases heq
      trivial
    · have hlen := congrArg List.length heq
      simp at hlen
  · rintro pre op post heq
    rcases pre with - | ⟨op1, - | ⟨op2, pre⟩⟩
    · cases heq
      exact fun _ => rfl
    · cases heq
      exact fun _ _ => rfl
    · have hlen := congrArg List.length heq
      simp at hlen

/-- A tuple that is marked deleted and restored stays counted. -/
theorem restored_stays_counted (hm : Stacked m) (hexact : CountExact m) (hi : rid.slotNum < getNumTuples m)
    (ts ts' : Int64) :
    ¬ CountExact (applyOp (applyOp m (.updateTupleMeta ⟨ts, true⟩ rid))
      (.updateTupleMeta ⟨ts', false⟩ rid)) := by
  obtain ⟨m1, hok, hupd⟩ := updateTupleMeta_spec ⟨ts, true⟩ hm hi
  have heq : applyOp m (.updateTupleMeta ⟨ts, true⟩ rid) = m1 := by
    simp only [applyOp, hok]
  have hmark : OnlyMarks m (.updateTupleMeta ⟨ts, true⟩ rid) := fun _ _ => rfl
  have hexact1 := (countExact_applyOp_iff (.updateTupleMeta ⟨ts, true⟩ rid) hm trivial hexact).mpr hmark
  rw [heq] at hexact1 ⊢
  intro h
  have hback : OnlyMarks m1 (.updateTupleMeta ⟨ts', false⟩ rid) :=
    (countExact_applyOp_iff (.updateTupleMeta ⟨ts', false⟩ rid) hupd.stacked trivial hexact1).mp h
  have hnum := hupd.numTuples
  have hdeleted : (tupleInfo m1 rid.slotNum).tupleMeta = ⟨ts, true⟩ := (Prod.mk.inj hupd.same).1
  have hfalse := hback (by omega) (by rw [hdeleted])
  exact absurd hfalse (by simp)

/-- Inserted deleted, or inserted live, marked and restored: the counter is off. -/
theorem insert_not_counted (hm : Stacked m) (hexact : CountExact m) (hfit : Fits m t) (ts : Int64) :
    ¬ CountExact (runOps m [.insertTuple ⟨ts, true⟩ t]) ∧
    ¬ CountExact (runOps m [.insertTuple ⟨ts, false⟩ t, .updateTupleMeta ⟨ts, true⟩ ⟨0, getNumTuples m⟩,
      .updateTupleMeta ⟨ts, false⟩ ⟨0, getNumTuples m⟩]) := by
  have hstep : ∀ del, CountExact (applyOp m (.insertTuple ⟨ts, del⟩ t)) ↔
      OnlyMarks m (.insertTuple ⟨ts, del⟩ t) :=
    fun del => countExact_applyOp_iff (.insertTuple ⟨ts, del⟩ t) hm hfit.length_le hexact
  constructor
  · intro h
    have hmarks := (hstep true).mp h
    exact absurd (hmarks hfit) (by simp)
  · obtain ⟨m1, heq1, hins⟩ := insertTuple_spec ⟨ts, false⟩ hm hfit
    have hnum := hins.numTuples
    have h1 : applyOp m (.insertTuple ⟨ts, false⟩ t) = m1 := congrArg Prod.snd heq1
    have hexact1 := (hstep false).mpr (fun _ => rfl)
    have hrun : runOps m [.insertTuple ⟨ts, false⟩ t, .updateTupleMeta ⟨ts, true⟩ ⟨0, getNumTuples m⟩,
        .updateTupleMeta ⟨ts, false⟩ ⟨0, getNumTuples m⟩] =
        applyOp (applyOp (applyOp m (.insertTuple ⟨ts, false⟩ t))
          (.updateTupleMeta ⟨ts, true⟩ ⟨0, getNumTuples m⟩))
          (.updateTupleMeta ⟨ts, false⟩ ⟨0, getNumTuples m⟩) := by
      simp only [runOps, List.foldl_cons, List.foldl_nil]
    rw [h1] at hexact1 hrun
    rw [hrun]
    exact restored_stays_counted hins.stacked hexact1 (by show getNumTuples m < _; omega) ts ts

/-- On a fresh page, with ten bytes. -/
theorem count_misses_restored :
    ¬ CountExact (runOps (init fun _ => 0) [.insertTuple ⟨0, true⟩ (uniformTuple 7 10 (by decide))]) ∧
    ¬ CountExact (runOps (init fun _ => 0)
      [.insertTuple ⟨0, false⟩ (uniformTuple 7 10 (by decide)), .updateTupleMeta ⟨0, true⟩ ⟨0, 0⟩,
        .updateTupleMeta ⟨0, false⟩ ⟨0, 0⟩]) := by
  have hn : getNumTuples (init fun _ => 0) = 0 := getNumTuples_init _
  have hfit : Fits (init fun _ => 0) (uniformTuple 7 10 (by decide)) := by
    rw [fits_iff, slotEndOffset_eq_pageSize hn, getLength_uniformTuple, hn]
    decide
  have h := insert_not_counted (stacked_init _) (countExact_init _) hfit 0
  rw [hn] at h
  exact h

end Counter

end Journey.Storage
