import Journey.Lib.Maps
import Journey.Bustub.Storage.TableHeap

/-!
# Journey.Bustub.Concurrency.UndoLinks — tuples and the links to their undo logs

The undo link of a tuple lives beside its page, in `version_info_`: a map from pages to maps from slots to links,
whose entries are made when they are needed.

* `updateUndoLink`, `getUndoLink`, `updateTupleAndUndoLink`, `getTupleAndUndoLink`.
* `updateUndoLink_spec`, `updateTupleAndUndoLink_spec`: what the two updates do.
* `undo_links_are_one_map`: over any run, the nested maps are one map from RIDs to links, and an update changes
  the tuple and the link together or not at all; which of the two, the stored tuple, the check and the sizes say.
-/

namespace Journey.Concurrency

open Storage

/-! ## The code -/

section Model

/-- `UndoLink`. -/
structure UndoLink where
  prevTxn : Int64
  prevLogIdx : Int32
deriving DecidableEq, Repr

/-- `PageVersionInfo`: its `prev_link_`. -/
abbrev PageVersionInfo := UnorderedMap ℕ UndoLink

/-- The type of `version_info_`. -/
abbrev VersionInfo := UnorderedMap Int32 PageVersionInfo

/-- The table pages, and `version_info_`. -/
structure Versions where
  page : Int32 → Mem
  versionInfo : VersionInfo

/-- An optional callback on arguments `α`: whether it lets the update pass; it may throw. -/
abbrev Check (α : Type) := Option (α → Except Exception Bool)

def Check.ask {α : Type} (check : Check α) (a : α) : Except Exception Bool :=
  match check with
  | none => .ok true
  | some f => f a

/-- The beginning of `UpdateUndoLink`: the entry of the page, made if it is missing. -/
def pageVersionInfo (v : VersionInfo) (pageId : Int32) : PageVersionInfo × VersionInfo :=
  match v.lookup pageId with
  | none => (∅, v.insert pageId ∅)
  | some pgVerInfo => (pgVerInfo, v)

/-- The end of `UpdateUndoLink`: the link is set, or erased. -/
def setPrevLink (pgVerInfo : PageVersionInfo) (slotNum : ℕ) : Option UndoLink → PageVersionInfo
  | some link => pgVerInfo.insert slotNum link
  | none => pgVerInfo.erase slotNum

/-- `TransactionManager::UpdateUndoLink`. -/
def updateUndoLink (v : VersionInfo) (rid : RID) (prevLink : Option UndoLink) (check : Check (Option UndoLink)) :
    Except Exception Bool × VersionInfo :=
  let (pgVerInfo, v) := pageVersionInfo v rid.pageId
  match check.ask (pgVerInfo.lookup rid.slotNum) with
  | .error e => (.error e, v)
  | .ok false => (.ok false, v)
  | .ok true => (.ok true, v.insert rid.pageId (setPrevLink pgVerInfo rid.slotNum prevLink))

/-- `TransactionManager::GetUndoLink`. -/
def getUndoLink (v : VersionInfo) (rid : RID) : Option UndoLink :=
  match v.lookup rid.pageId with
  | none => none
  | some pgVerInfo => pgVerInfo.lookup rid.slotNum

/-- `IsTupleContentEqual`. -/
def isTupleContentEqual (a b : Tuple) : Bool := a.data = b.data

/-- What the check of `UpdateTupleAndUndoLink` is given. -/
abbrev Seen := TupleMeta × Tuple × RID × Option UndoLink

/-- `UpdateTupleAndUndoLink`. -/
def updateTupleAndUndoLink (s : Versions) (rid : RID) (undoLink : Option UndoLink) (tupleMeta : TupleMeta)
    (tuple : Tuple) (check : Check Seen) : Except Exception Bool × Versions :=
  let page := s.page rid.pageId
  match getTuple page rid with
  | .error e => (.error e, s)
  | .ok (baseMeta, baseTuple) =>
    match check.ask (baseMeta, baseTuple, rid, undoLink) with
    | .error e => (.error e, s)
    | .ok false => (.ok false, s)
    | .ok true =>
      let written :=
        if tupleMeta ≠ baseMeta ∨ !isTupleContentEqual tuple baseTuple then
          updateTupleInPlaceUnsafe page tupleMeta tuple rid
        else .ok page
      match written with
      | .error e => (.error e, s)
      | .ok page =>
        (.ok true,
          { page := Function.update s.page rid.pageId page
            versionInfo := (updateUndoLink s.versionInfo rid undoLink none).2 })

/-- `GetTupleAndUndoLink`. -/
def getTupleAndUndoLink (s : Versions) (rid : RID) : Except Exception (TupleMeta × Tuple × Option UndoLink) := do
  let (tupleMeta, tuple) ← getTuple (s.page rid.pageId) rid
  return (tupleMeta, tuple, getUndoLink s.versionInfo rid)

end Model

/-! ## What is stored -/

section Stored

namespace Versions

/-- The link stored for `rid`. -/
def link (s : Versions) (rid : RID) : Option UndoLink := getUndoLink s.versionInfo rid

/-- The meta and the bytes of the tuple at `rid`, if there is one. -/
def row (s : Versions) (rid : RID) : Option (TupleMeta × List UInt8) :=
  if rid.slotNum < getNumTuples (s.page rid.pageId) then some (entry (s.page rid.pageId) rid.slotNum) else none

/-- Every page is one that `TablePage` made. -/
def Stacked (s : Versions) : Prop := ∀ p, Storage.Stacked (s.page p)

/-- From `s` to `s'` the tuple at `rid`, its meta and its link were set, and nothing of another RID. -/
structure Sets (s : Versions) (rid : RID) (row : TupleMeta × List UInt8) (undoLink : Option UndoLink) (s' : Versions) :
    Prop where
  rows : ∀ rid', s'.row rid' = if rid' = rid then some row else s.row rid'
  links : ∀ rid', s'.link rid' = if rid' = rid then undoLink else s.link rid'

/-- What `UpdateTupleAndUndoLink` owes to what is stored.  Without a tuple at `rid` it throws; otherwise the check is asked
about this tuple, its meta and the link that is passed.  If it says yes and the sizes agree, both are set; if not, nothing
is. -/
def Replaces (s : Versions) (rid : RID) (undoLink : Option UndoLink) (tupleMeta : TupleMeta) (tuple : Tuple)
    (check : Check Seen) (a : Except Exception Bool) (s' : Versions) : Prop :=
  match s.row rid with
  | none => a = .error ⟨"Tuple ID out of range"⟩ ∧ s' = s
  | some (baseMeta, data) => ∃ base : Tuple, base.rid = rid ∧ base.data = data ∧
    match check.ask (baseMeta, base, rid, undoLink) with
    | .ok true =>
      if tuple.data.length = data.length then a = .ok true ∧ s.Sets rid (tupleMeta, tuple.data) undoLink s'
      else a = .error ⟨"Tuple size mismatch"⟩ ∧ s' = s
    | answer => a = answer ∧ s' = s

end Versions

variable {s : Versions} {v : VersionInfo} {rid : RID} {undoLink : Option UndoLink} {tupleMeta : TupleMeta}
  {tuple : Tuple}

theorem getUndoLink_insert (v : VersionInfo) (p : Int32) (pg : PageVersionInfo) (rid : RID) :
    getUndoLink (v.insert p pg) rid = if rid.pageId = p then pg.lookup rid.slotNum else getUndoLink v rid := by
  unfold getUndoLink
  rw [lookup_insert_eq]
  split_ifs <;> rfl

theorem lookup_setPrevLink (pg : PageVersionInfo) (i : ℕ) (link : Option UndoLink) (j : ℕ) :
    (setPrevLink pg i link).lookup j = if j = i then link else pg.lookup j := by
  cases link with
  | none => exact lookup_erase_eq pg i j
  | some link => exact lookup_insert_eq pg i link j

/-- The entry of a page holds its links, whether it was there or not. -/
theorem lookup_pageVersionInfo (v : VersionInfo) (p : Int32) (i : ℕ) :
    (pageVersionInfo v p).1.lookup i = getUndoLink v ⟨p, i⟩ := by
  unfold pageVersionInfo getUndoLink
  cases v.lookup p <;> rfl

theorem getUndoLink_pageVersionInfo (v : VersionInfo) (p : Int32) (rid : RID) :
    getUndoLink (pageVersionInfo v p).2 rid = getUndoLink v rid := by
  unfold pageVersionInfo
  cases hv : v.lookup p with
  | none =>
    rw [getUndoLink_insert]
    split_ifs with hp
    · unfold getUndoLink
      rw [hp, hv]
      rfl
    · rfl
  | some pg => rfl

/-- A link set in the entry of its page. -/
theorem getUndoLink_insert_set {v : VersionInfo} {rid : RID} {pg : PageVersionInfo}
    (hpg : ∀ i, pg.lookup i = getUndoLink v ⟨rid.pageId, i⟩) (link : Option UndoLink) (rid' : RID) :
    getUndoLink (v.insert rid.pageId (setPrevLink pg rid.slotNum link)) rid' =
      if rid' = rid then link else getUndoLink v rid' := by
  obtain ⟨p, i⟩ := rid
  obtain ⟨p', i'⟩ := rid'
  rw [getUndoLink_insert, lookup_setPrevLink, hpg]
  simp only [RID.mk.injEq]
  by_cases hp : p' = p
  · subst hp
    simp
  · simp [hp]

/-- **`UpdateUndoLink`** answers what the check says of the stored link; it sets this link if the answer is yes, and
no other. -/
theorem updateUndoLink_spec (v : VersionInfo) (rid : RID) (prevLink : Option UndoLink)
    (check : Check (Option UndoLink)) :
    (updateUndoLink v rid prevLink check).1 = check.ask (getUndoLink v rid) ∧
    ∀ rid', getUndoLink (updateUndoLink v rid prevLink check).2 rid' =
      if check.ask (getUndoLink v rid) = .ok true ∧ rid' = rid then prevLink else getUndoLink v rid' := by
  have hpg : ∀ i, (pageVersionInfo v rid.pageId).1.lookup i =
      getUndoLink (pageVersionInfo v rid.pageId).2 ⟨rid.pageId, i⟩ := by
    intro i
    rw [lookup_pageVersionInfo, getUndoLink_pageVersionInfo]
  have hset := getUndoLink_insert_set hpg prevLink
  unfold updateUndoLink
  dsimp only
  rw [lookup_pageVersionInfo]
  rcases check.ask (getUndoLink v rid) with e | (- | -)
  · simp [getUndoLink_pageVersionInfo]
  · simp [getUndoLink_pageVersionInfo]
  · simp [hset, getUndoLink_pageVersionInfo]

theorem getUndoLink_set (v : VersionInfo) (rid : RID) (undoLink : Option UndoLink) (rid' : RID) :
    getUndoLink (updateUndoLink v rid undoLink none).2 rid' = if rid' = rid then undoLink else getUndoLink v rid' := by
  rw [(updateUndoLink_spec v rid undoLink none).2]
  simp [Check.ask]

theorem getTuple_row {m : TupleMeta} {t : Tuple} (h : getTuple (s.page rid.pageId) rid = .ok (m, t)) :
    s.row rid = some (m, t.data) ∧ rid.slotNum < getNumTuples (s.page rid.pageId) ∧ t.rid = rid := by
  by_cases hlt : rid.slotNum < getNumTuples (s.page rid.pageId)
  · rw [getTuple_eq_rowAt hlt] at h
    have hrow := Except.ok.inj h
    have hmeta : (entry (s.page rid.pageId) rid.slotNum).1 = m := congrArg Prod.fst hrow
    have hdata : (entry (s.page rid.pageId) rid.slotNum).2 = t.data := congrArg (fun r => r.2.data) hrow
    refine ⟨?_, hlt, (congrArg (fun r => r.2.rid) hrow).symm⟩
    unfold Versions.row
    rw [if_pos hlt, ← hmeta, ← hdata]
  · unfold getTuple at h
    dsimp only at h
    rw [if_pos (by omega)] at h
    exact absurd h (by simp)

theorem getTuple_none {e : Exception} (h : getTuple (s.page rid.pageId) rid = .error e) :
    s.row rid = none ∧ e = ⟨"Tuple ID out of range"⟩ := by
  by_cases hlt : rid.slotNum < getNumTuples (s.page rid.pageId)
  · rw [getTuple_eq_rowAt hlt] at h
    cases h
  · unfold getTuple at h
    dsimp only at h
    rw [if_pos (by omega)] at h
    exact ⟨if_neg hlt, (Except.error.inj h).symm⟩

/-- The rows after a slot of one page was overwritten. -/
theorem row_updated (s : Versions) {m' : Mem} {e : TupleMeta × List UInt8} (v : VersionInfo)
    (hslot : rid.slotNum < getNumTuples (s.page rid.pageId))
    (hupd : Updated (s.page rid.pageId) m' rid.slotNum e) (rid' : RID) :
    (⟨Function.update s.page rid.pageId m', v⟩ : Versions).row rid' = if rid' = rid then some e else s.row rid' := by
  obtain ⟨p, i⟩ := rid
  obtain ⟨p', i'⟩ := rid'
  unfold Versions.row
  simp only [RID.mk.injEq]
  by_cases hp : p' = p
  · subst hp
    rw [Function.update_self, hupd.numTuples]
    by_cases hi : i' = i
    · subst hi
      rw [if_pos hslot, hupd.same]
      simp
    · split_ifs with hlt hcon
      · exact absurd hcon.2 hi
      · rw [hupd.other i' hlt hi]
      · rename_i hcon
        exact absurd hcon.2 hi
      · rfl
  · rw [Function.update_of_ne hp]
    simp [hp]

/-- The page after the update, or as it was if the tuple is the one that is there. -/
theorem written_spec (tupleMeta : TupleMeta) (tuple : Tuple) (hs : s.Stacked)
    (hslot : rid.slotNum < getNumTuples (s.page rid.pageId)) {baseMeta : TupleMeta}
    {base : Tuple} (hrow : s.row rid = some (baseMeta, base.data)) :
    if tuple.data.length = base.data.length then
      ∃ m', (if tupleMeta ≠ baseMeta ∨ !isTupleContentEqual tuple base then
          updateTupleInPlaceUnsafe (s.page rid.pageId) tupleMeta tuple rid else .ok (s.page rid.pageId)) = .ok m' ∧
        Updated (s.page rid.pageId) m' rid.slotNum (tupleMeta, tuple.data)
    else
      (if tupleMeta ≠ baseMeta ∨ !isTupleContentEqual tuple base then
        updateTupleInPlaceUnsafe (s.page rid.pageId) tupleMeta tuple rid else .ok (s.page rid.pageId)) =
          .error ⟨"Tuple size mismatch"⟩ := by
  unfold Versions.row at hrow
  rw [if_pos hslot] at hrow
  have hentry := Option.some.inj hrow
  have hlen : sizeAt (s.page rid.pageId) rid.slotNum = base.data.length := by
    rw [← congrArg (fun e => e.2.length) hentry]
    exact (length_load ..).symm
  split_ifs with hsize hdiff hdiff
  · exact updateTupleInPlaceUnsafe_spec tupleMeta (hs rid.pageId) hslot (hlen.trans hsize.symm)
  · refine ⟨s.page rid.pageId, rfl, rfl, rfl, rfl, ?_, fun _ _ _ => rfl, hs rid.pageId⟩
    simp only [isTupleContentEqual, Bool.not_eq_true', decide_eq_false_iff_not, not_or, not_not] at hdiff
    rw [hentry, hdiff.1, hdiff.2]
  · unfold updateTupleInPlaceUnsafe
    dsimp only
    rw [if_neg (by omega), if_pos]
    exact fun heq => hsize (heq.symm.trans hlen)
  · -- equal bytes are equally many
    simp only [isTupleContentEqual, Bool.not_eq_true', decide_eq_false_iff_not, not_or, not_not] at hdiff
    exact absurd (congrArg List.length hdiff.2) hsize

/-- **`UpdateTupleAndUndoLink`** sets the tuple, its meta and its link, or nothing. -/
theorem updateTupleAndUndoLink_spec (hs : s.Stacked) (rid : RID) (undoLink : Option UndoLink)
    (tupleMeta : TupleMeta) (tuple : Tuple) (check : Check Seen) :
    s.Replaces rid undoLink tupleMeta tuple check (updateTupleAndUndoLink s rid undoLink tupleMeta tuple check).1
        (updateTupleAndUndoLink s rid undoLink tupleMeta tuple check).2 ∧
      (updateTupleAndUndoLink s rid undoLink tupleMeta tuple check).2.Stacked := by
  unfold updateTupleAndUndoLink Versions.Replaces
  dsimp only
  rcases hget : getTuple (s.page rid.pageId) rid with e | ⟨baseMeta, base⟩
  · obtain ⟨hrow, rfl⟩ := getTuple_none hget
    rw [hrow]
    exact ⟨⟨rfl, rfl⟩, hs⟩
  obtain ⟨hrow, hslot, hrid⟩ := getTuple_row hget
  rw [hrow]
  dsimp only
  suffices hcases : _ ∧ _ from ⟨⟨base, hrid, rfl, hcases.1⟩, hcases.2⟩
  rcases check.ask (baseMeta, base, rid, undoLink) with e | (- | -)
  · exact ⟨⟨rfl, rfl⟩, hs⟩
  · exact ⟨⟨rfl, rfl⟩, hs⟩
  have hwritten := written_spec tupleMeta tuple hs hslot hrow
  dsimp only
  by_cases hsize : tuple.data.length = base.data.length
  · rw [if_pos hsize] at hwritten
    obtain ⟨m', heq, hupd⟩ := hwritten
    rw [if_pos hsize, heq]
    refine ⟨⟨rfl, row_updated s _ hslot hupd, getUndoLink_set s.versionInfo rid undoLink⟩, ?_⟩
    intro p
    by_cases hp : p = rid.pageId
    · subst hp
      simp only [Function.update_self]
      exact hupd.stacked
    · simp only [Function.update_of_ne hp]
      exact hs p
  · rw [if_neg hsize] at hwritten
    rw [if_neg hsize, hwritten]
    exact ⟨⟨rfl, rfl⟩, hs⟩

theorem Versions.Replaces.of_row {check : Check Seen} {a : Except Exception Bool} {s' : Versions} {baseMeta : TupleMeta}
    {data : List UInt8} (h : s.Replaces rid undoLink tupleMeta tuple check a s')
    (hrow : s.row rid = some (baseMeta, data)) :
    ∃ base : Tuple, base.rid = rid ∧ base.data = data ∧
      match check.ask (baseMeta, base, rid, undoLink) with
      | .ok true =>
        if tuple.data.length = data.length then a = .ok true ∧ s.Sets rid (tupleMeta, tuple.data) undoLink s'
        else a = .error ⟨"Tuple size mismatch"⟩ ∧ s' = s
      | answer => a = answer ∧ s' = s := by
  unfold Versions.Replaces at h
  rw [hrow] at h
  exact h

/-- It is made, or nothing changes. -/
theorem Versions.Replaces.cases {check : Check Seen} {a : Except Exception Bool} {s' : Versions}
    (h : s.Replaces rid undoLink tupleMeta tuple check a s') :
    (a ≠ .ok true ∧ s' = s) ∨ (a = .ok true ∧ s.Sets rid (tupleMeta, tuple.data) undoLink s') := by
  unfold Versions.Replaces at h
  split at h
  · rw [h.1]
    exact .inl ⟨by simp, h.2⟩
  · obtain ⟨base, -, -, h⟩ := h
    split at h
    · split_ifs at h
      · exact .inr h
      · rw [h.1]
        exact .inl ⟨by simp, h.2⟩
    · next hno =>
      rw [h.1]
      exact .inl ⟨fun heq => hno heq, h.2⟩

end Stored

/-! ## Runs -/

section Runs

inductive Op
  | updateUndoLink (rid : RID) (prevLink : Option UndoLink) (check : Check (Option UndoLink))
  | updateTupleAndUndoLink (rid : RID) (undoLink : Option UndoLink) (tupleMeta : TupleMeta) (tuple : Tuple)
      (check : Check Seen)
  | getUndoLink (rid : RID)
  | getTupleAndUndoLink (rid : RID)

inductive Answer
  | updated (result : Except Exception Bool)
  | link (link : Option UndoLink)
  | version (result : Except Exception (TupleMeta × Tuple × Option UndoLink))

/-- The update was made. -/
def Answer.isTrue : Answer → Bool
  | .updated (.ok true) => true
  | _ => false

theorem isTrue_updated {result : Except Exception Bool} (hno : result ≠ .ok true) :
    (Answer.updated result).isTrue = false := by
  rcases result with e | (- | -)
  · rfl
  · rfl
  · exact absurd rfl hno

theorem isTrue_ok : (Answer.updated (.ok true)).isTrue = true := rfl

/-- The link that the call stores for `rid` if it is made. -/
def Op.stores (rid : RID) : Op → Option (Option UndoLink)
  | .updateUndoLink r prevLink _ => if r = rid then some prevLink else none
  | .updateTupleAndUndoLink r undoLink _ _ _ => if r = rid then some undoLink else none
  | _ => none

namespace Versions

/-- Make a call. -/
def step (s : Versions) : Op → Answer × Versions
  | .updateUndoLink rid prevLink check =>
    let (a, v) := Concurrency.updateUndoLink s.versionInfo rid prevLink check
    (.updated a, { s with versionInfo := v })
  | .updateTupleAndUndoLink rid undoLink tupleMeta tuple check =>
    let (a, s) := Concurrency.updateTupleAndUndoLink s rid undoLink tupleMeta tuple check
    (.updated a, s)
  | .getUndoLink rid => (.link (Concurrency.getUndoLink s.versionInfo rid), s)
  | .getTupleAndUndoLink rid => (.version (Concurrency.getTupleAndUndoLink s rid), s)

/-- The state after the calls. -/
def after (s : Versions) (ops : List Op) : Versions := ops.foldl (fun s op => (s.step op).2) s

/-- The link stored last for `rid` in a run that began with the link `l`. -/
def lastLink (rid : RID) : Versions → List Op → Option UndoLink → Option UndoLink
  | _, [], l => l
  | s, op :: ops, l =>
    match op.stores rid with
    | some link => lastLink rid (s.step op).2 ops (if (s.step op).1.isTrue then link else l)
    | none => lastLink rid (s.step op).2 ops l

/-- What a call does to what is stored. -/
def Effect (s : Versions) : Op → Answer → Versions → Prop
  | .updateUndoLink rid prevLink check, a, s' =>
    a = .updated (check.ask (s.link rid)) ∧ s'.page = s.page ∧
      ∀ rid', s'.link rid' = if a.isTrue ∧ rid' = rid then prevLink else s.link rid'
  | .updateTupleAndUndoLink rid undoLink tupleMeta tuple check, a, s' =>
    ∃ result, a = .updated result ∧ s.Replaces rid undoLink tupleMeta tuple check result s'
  | .getUndoLink rid, a, s' => a = .link (s.link rid) ∧ s' = s
  | .getTupleAndUndoLink rid, a, s' =>
    s' = s ∧ match s.row rid with
      | none => a = .version (.error ⟨"Tuple ID out of range"⟩)
      | some (tupleMeta, data) => ∃ tuple : Tuple, tuple.rid = rid ∧ tuple.data = data ∧
        a = .version (.ok (tupleMeta, tuple, s.link rid))

variable {s : Versions}

/-- **Step.** -/
theorem step_effect (hs : s.Stacked) (op : Op) :
    s.Effect op (s.step op).1 (s.step op).2 ∧ (s.step op).2.Stacked := by
  cases op with
  | updateUndoLink rid prevLink check =>
    obtain ⟨hanswer, hlinks⟩ := updateUndoLink_spec s.versionInfo rid prevLink check
    refine ⟨⟨congrArg Answer.updated hanswer, rfl, ?_⟩, hs⟩
    intro rid'
    have htrue : (s.step (.updateUndoLink rid prevLink check)).1.isTrue = true ↔
        check.ask (Concurrency.getUndoLink s.versionInfo rid) = .ok true := by
      rw [← hanswer]
      simp only [step]
      rcases (Concurrency.updateUndoLink s.versionInfo rid prevLink check).1 with e | (- | -) <;>
        simp [Answer.isTrue]
    simp only [htrue]
    exact hlinks rid'
  | updateTupleAndUndoLink rid undoLink tupleMeta tuple check =>
    obtain ⟨hreplaces, hs'⟩ := updateTupleAndUndoLink_spec hs rid undoLink tupleMeta tuple check
    exact ⟨⟨_, rfl, hreplaces⟩, hs'⟩
  | getUndoLink rid => exact ⟨⟨rfl, rfl⟩, hs⟩
  | getTupleAndUndoLink rid =>
    refine ⟨⟨rfl, ?_⟩, hs⟩
    simp only [step, Concurrency.getTupleAndUndoLink]
    rcases hget : getTuple (s.page rid.pageId) rid with e | ⟨tupleMeta, tuple⟩
    · obtain ⟨hrow, rfl⟩ := getTuple_none hget
      rw [hrow]
      rfl
    · rw [(getTuple_row hget).1]
      exact ⟨tuple, (getTuple_row hget).2.2, rfl, rfl⟩

/-- A call sets the link of `rid` if it stores one and is made, and keeps it otherwise. -/
theorem link_step (hs : s.Stacked) (op : Op) (rid : RID) : (s.step op).2.link rid =
    match op.stores rid with
    | some link => if (s.step op).1.isTrue then link else s.link rid
    | none => s.link rid := by
  have heffect := (step_effect hs op).1
  cases op with
  | updateUndoLink r prevLink check =>
    obtain ⟨-, -, hlinks⟩ := heffect
    rw [hlinks rid]
    by_cases hr : r = rid
    · simp [Op.stores, hr]
    · simp [Op.stores, hr, Ne.symm hr]
  | updateTupleAndUndoLink r undoLink tupleMeta tuple check =>
    obtain ⟨result, hanswer, hreplaces⟩ := heffect
    rw [hanswer]
    rcases hreplaces.cases with ⟨hno, hsame⟩ | ⟨rfl, hsets⟩
    · rw [hsame, isTrue_updated hno]
      by_cases hr : r = rid <;> simp [Op.stores, hr]
    · rw [hsets.links rid, isTrue_ok]
      by_cases hr : r = rid
      · simp [Op.stores, hr]
      · simp [Op.stores, hr, Ne.symm hr]
  | getUndoLink r => rfl
  | getTupleAndUndoLink r => rfl

theorem after_stacked (ops : List Op) (hs : s.Stacked) : (s.after ops).Stacked := by
  induction ops generalizing s with
  | nil => exact hs
  | cons op ops ih => exact ih (step_effect hs op).2

/-- **Run**: the link after a run is the one stored last. -/
theorem link_after (rid : RID) (ops : List Op) (hs : s.Stacked) :
    (s.after ops).link rid = lastLink rid s ops (s.link rid) := by
  induction ops generalizing s with
  | nil => rfl
  | cons op ops ih =>
    have hstep := link_step hs op rid
    have hrec := ih (step_effect hs op).2
    show ((s.step op).2.after ops).link rid = _
    rw [hrec, lastLink, hstep]
    cases op.stores rid <;> rfl

end Versions

/-- **The undo links are one map.**  Over any run of calls on pages that `TablePage` made, with any RIDs, links and
checks: a link read is the one stored last for its RID, and the next call, whichever it is, has the effect it should:
`UpdateUndoLink` answers its check on the stored link and sets this link alone, if the answer is yes;
`UpdateTupleAndUndoLink` asks its check about the stored tuple and the link that is passed, and sets the tuple, its meta
and its link, and nothing of another RID, if the answer is yes and the new tuple has the size of the old one; otherwise it
answers no or throws, and the state is as it was; the reads change nothing. -/
theorem undo_links_are_one_map (s₀ : Versions) (hs : s₀.Stacked) (ops : List Op) :
    (∀ rid, getUndoLink (s₀.after ops).versionInfo rid =
      Versions.lastLink rid s₀ ops (getUndoLink s₀.versionInfo rid)) ∧
    ∀ op, (s₀.after ops).Effect op ((s₀.after ops).step op).1 ((s₀.after ops).step op).2 := by
  constructor
  · intro rid
    exact Versions.link_after rid ops hs
  · intro op
    exact (Versions.step_effect (Versions.after_stacked ops hs) op).1

/-- One table page with the tuple `(1 2 3)` in slot 0, and no links. -/
def onePage : Versions where
  page _ := (insertTuple (init fun _ => 0) ⟨0, false⟩ ⟨⟨0, 0⟩, [1, 2, 3], by decide⟩).2
  versionInfo := ∅

theorem onePage_stacked : onePage.Stacked := by
  intro p
  have hempty : getNumTuples (init fun _ => 0) = 0 := by decide
  have hfit : Fits (init fun _ => 0) ⟨⟨0, 0⟩, [1, 2, 3], by decide⟩ := by
    rw [fits_iff, slotEndOffset_eq_pageSize hempty, hempty]
    decide
  obtain ⟨m', hm', hins⟩ := insertTuple_spec ⟨0, false⟩ (stacked_init _) hfit
  show Stacked (insertTuple _ _ _).2
  rw [hm']
  exact hins.stacked

/-- An update of the tuple in `onePage` that its check allows at timestamp 0 only. -/
def updateAtZero (undoLink : Option UndoLink) (tuple : Tuple) : Op :=
  .updateTupleAndUndoLink ⟨0, 0⟩ undoLink ⟨5, false⟩ tuple (some fun seen => .ok (decide (seen.1.ts = 0)))

/-- Set a link, then tuple and link. -/
def linkThenTuple : List Op :=
  [.updateUndoLink ⟨0, 0⟩ (some ⟨7, 1⟩) none, updateAtZero (some ⟨8, 0⟩) ⟨⟨0, 0⟩, [7, 8, 9], by decide⟩]

/-- The check refuses a second update, and a longer tuple is refused too. -/
theorem undo_links_are_one_map_update :
    getUndoLink (onePage.after linkThenTuple).versionInfo ⟨0, 0⟩ = some ⟨8, 0⟩ ∧
      (onePage.after linkThenTuple).row ⟨0, 0⟩ = some (⟨5, false⟩, [7, 8, 9]) ∧
      (onePage.after linkThenTuple).step (updateAtZero none ⟨⟨0, 0⟩, [1, 2, 3], by decide⟩) =
        (.updated (.ok false), onePage.after linkThenTuple) ∧
      (onePage.after linkThenTuple).step
          (.updateTupleAndUndoLink ⟨0, 0⟩ none ⟨6, false⟩ ⟨⟨0, 0⟩, [1, 2, 3, 4], by decide⟩ none) =
        (.updated (.error ⟨"Tuple size mismatch"⟩), onePage.after linkThenTuple) := by
  obtain ⟨hlinks, heffects⟩ := undo_links_are_one_map onePage onePage_stacked linkThenTuple
  have hrow : (onePage.after linkThenTuple).row ⟨0, 0⟩ = some (⟨5, false⟩, [7, 8, 9]) := by decide +kernel
  refine ⟨?_, hrow, ?_, ?_⟩
  · rw [hlinks]
    decide +kernel
  · obtain ⟨result, hanswer, hreplaces⟩ := heffects (updateAtZero none ⟨⟨0, 0⟩, [1, 2, 3], by decide⟩)
    obtain ⟨base, -, -, rfl, hsame⟩ := hreplaces.of_row hrow
    exact Prod.ext hanswer hsame
  · obtain ⟨result, hanswer, hreplaces⟩ :=
      heffects (.updateTupleAndUndoLink ⟨0, 0⟩ none ⟨6, false⟩ ⟨⟨0, 0⟩, [1, 2, 3, 4], by decide⟩ none)
    obtain ⟨base, -, -, rfl, hsame⟩ := hreplaces.of_row hrow
    exact Prod.ext hanswer hsame

end Runs

/-! ## What the check sees -/

section Checks

/-- The meta, the bytes and the link of a tuple. -/
abbrev Version := TupleMeta × List UInt8 × Option UndoLink

namespace Versions

variable {s : Versions} {rid : RID}

/-- The version stored at `rid`. -/
def version (s : Versions) (rid : RID) : Option Version := (s.row rid).map fun r => (r.1, r.2, s.link rid)

/-- An update of `rid` that passes `undoLink` is decided by its check on the stored meta, tuple and link. -/
def ChecksStored (s : Versions) (rid : RID) (undoLink : Option UndoLink) : Prop :=
  ∀ base, getTuple (s.page rid.pageId) rid = .ok base → ∀ tupleMeta tuple check,
    updateTupleAndUndoLink s rid undoLink tupleMeta tuple (some check) =
      match check (base.1, base.2, rid, s.link rid) with
      | .error e => (.error e, s)
      | .ok false => (.ok false, s)
      | .ok true => updateTupleAndUndoLink s rid undoLink tupleMeta tuple none

/-- The check that the version is still the one that was read. -/
def unchanged (version : Version) : Check Seen :=
  some fun seen => .ok (decide ((seen.1, seen.2.1.data, seen.2.2.2) = version))

/-- No call of the run stores `version` at `rid`. -/
def NeverStores (rid : RID) (version : Version) : Versions → List Op → Prop
  | _, [] => True
  | s, op :: ops => ((op.stores rid).isSome = true → (s.step op).1.isTrue = true →
      (s.step op).2.version rid ≠ some version) ∧ NeverStores rid version (s.step op).2 ops

/-- **The check is given the link that is passed**, so it sees what is stored exactly if this is the stored one. -/
theorem checksStored_iff (hrow : (s.row rid).isSome = true) (undoLink : Option UndoLink) :
    s.ChecksStored rid undoLink ↔ undoLink = s.link rid := by
  constructor
  · intro hsees
    rcases hget : getTuple (s.page rid.pageId) rid with e | base
    · rw [(getTuple_none hget).1] at hrow
      cases hrow
    by_contra hne
    -- a check of the link alone, with the tuple that is there
    have heq := hsees base hget base.1 base.2 fun seen => .ok (decide (seen.2.2.2 = s.link rid))
    have hleft : (updateTupleAndUndoLink s rid undoLink base.1 base.2
        (some fun seen => .ok (decide (seen.2.2.2 = s.link rid)))).1 = .ok false := by
      simp [updateTupleAndUndoLink, hget, Check.ask, hne]
    have hright : (updateTupleAndUndoLink s rid undoLink base.1 base.2 none).1 = .ok true := by
      simp [updateTupleAndUndoLink, hget, Check.ask, isTupleContentEqual]
    rw [heq] at hleft
    simp only [decide_true, hright] at hleft
    cases hleft
  · rintro rfl base hget tupleMeta tuple check
    simp only [updateTupleAndUndoLink, hget, Check.ask]

/-- A call that stores nothing at `rid` keeps its version. -/
theorem version_step (hs : s.Stacked) {op : Op} (hno : (op.stores rid).isSome = true → (s.step op).1.isTrue = false) :
    (s.step op).2.version rid = s.version rid := by
  have heffect := (step_effect hs op).1
  cases op with
  | updateUndoLink r prevLink check =>
    obtain ⟨-, hpage, hlinks⟩ := heffect
    have hrow : (s.step (.updateUndoLink r prevLink check)).2.row rid = s.row rid := by
      unfold row
      rw [hpage]
    unfold version
    rw [hrow, hlinks rid]
    by_cases hr : r = rid
    · rw [if_neg]
      rintro ⟨htrue, -⟩
      rw [hno (by simp [Op.stores, hr])] at htrue
      cases htrue
    · simp [Ne.symm hr]
  | updateTupleAndUndoLink r undoLink tupleMeta tuple check =>
    obtain ⟨result, hanswer, hreplaces⟩ := heffect
    rcases hreplaces.cases with ⟨-, hsame⟩ | ⟨rfl, hsets⟩
    · rw [hsame]
    · have hr : rid ≠ r := by
        rintro rfl
        have hfalse := hno (by simp [Op.stores])
        rw [hanswer, isTrue_ok] at hfalse
        cases hfalse
      unfold version
      rw [hsets.rows rid, hsets.links rid, if_neg hr, if_neg hr]
  | getUndoLink r => rfl
  | getTupleAndUndoLink r => rfl

/-- A version that is not there and is never stored does not come back. -/
theorem version_after_ne {version : Version} (ops : List Op) (hs : s.Stacked) (hne : s.version rid ≠ some version)
    (hnever : NeverStores rid version s ops) : (s.after ops).version rid ≠ some version := by
  induction ops generalizing s with
  | nil => exact hne
  | cons op ops ih =>
    obtain ⟨hop, hrest⟩ := hnever
    refine ih (step_effect hs op).2 ?_ hrest
    by_cases hmade : (op.stores rid).isSome = true ∧ (s.step op).1.isTrue = true
    · exact hop hmade.1 hmade.2
    · rw [version_step hs fun hstores => by simpa using fun h => hmade ⟨hstores, h⟩]
      exact hne

/-- An update that passes the stored link and checks for `version` is only made on it. -/
theorem version_of_isTrue {version : Version} {undoLink : Option UndoLink} {tupleMeta : TupleMeta} {tuple : Tuple}
    (hpass : undoLink = s.link rid)
    (htrue : (s.step (.updateTupleAndUndoLink rid undoLink tupleMeta tuple (unchanged version))).1.isTrue = true) :
    s.version rid = some version := by
  simp only [step, updateTupleAndUndoLink] at htrue
  rcases hget : getTuple (s.page rid.pageId) rid with e | ⟨baseMeta, baseTuple⟩
  · rw [hget] at htrue
    cases htrue
  rw [hget] at htrue
  dsimp only [Check.ask, unchanged] at htrue
  by_cases heq : (baseMeta, baseTuple.data, undoLink) = version
  · unfold Versions.version
    rw [(getTuple_row hget).1, ← hpass, ← heq, Option.map_some]
  · simp [heq, Answer.isTrue] at htrue

end Versions

/-- **When the optimistic check protects.**  In every state reached by calls on pages that `TablePage` made: at every RID
with a tuple, the check of an update is decided on the stored meta, tuple and link if and only if the link that is passed
is the stored one; and then no update is lost: of two updates that both check for the version they started from, where no
call from the first to the second stores this version again and the second passes the stored link, at most one is
made. -/
theorem check_sees_stored_version_iff (s₀ : Versions) (hs : s₀.Stacked) (ops : List Op) (rid : RID)
    (hrow : ((s₀.after ops).row rid).isSome = true) :
    (∀ undoLink, (s₀.after ops).ChecksStored rid undoLink ↔ undoLink = (s₀.after ops).link rid) ∧
    ∀ (version : Version) (between : List Op) (link₁ link₂ : Option UndoLink) (meta₁ meta₂ : TupleMeta)
      (tuple₁ tuple₂ : Tuple),
      Versions.NeverStores rid version (s₀.after ops)
        (.updateTupleAndUndoLink rid link₁ meta₁ tuple₁ (Versions.unchanged version) :: between) →
      link₂ = ((s₀.after ops).after
        (.updateTupleAndUndoLink rid link₁ meta₁ tuple₁ (Versions.unchanged version) :: between)).link rid →
      ¬ (((s₀.after ops).step
          (.updateTupleAndUndoLink rid link₁ meta₁ tuple₁ (Versions.unchanged version))).1.isTrue = true ∧
        (((s₀.after ops).after
          (.updateTupleAndUndoLink rid link₁ meta₁ tuple₁ (Versions.unchanged version) :: between)).step
          (.updateTupleAndUndoLink rid link₂ meta₂ tuple₂ (Versions.unchanged version))).1.isTrue = true) := by
  refine ⟨Versions.checksStored_iff hrow, ?_⟩
  rintro version between link₁ link₂ meta₁ meta₂ tuple₁ tuple₂ ⟨hfirst, hrest⟩ hpass ⟨htrue₁, htrue₂⟩
  have hsops := Versions.after_stacked ops hs
  have hgone := hfirst (by simp [Op.stores]) htrue₁
  have hne := Versions.version_after_ne between (Versions.step_effect hsops _).2 hgone hrest
  exact hne (Versions.version_of_isTrue hpass htrue₂)

/-- The version of the tuple in `onePage`. -/
def firstVersion : Version := (⟨0, false⟩, [1, 2, 3], none)

/-- An update of the tuple in `onePage` that keeps its bytes. -/
def touch (undoLink : Option UndoLink) (ts : Int64) (check : Check Seen) : Op :=
  .updateTupleAndUndoLink ⟨0, 0⟩ undoLink ⟨ts, false⟩ ⟨⟨0, 0⟩, [1, 2, 3], by decide⟩ check

/-- Two updates from `firstVersion` are both made: between them another client has put the tuple and its meta back with
a new link, and the check of the second sees the link that is passed, not this one. -/
theorem stored_link_is_not_checked :
    onePage.version ⟨0, 0⟩ = some firstVersion ∧
    Versions.NeverStores ⟨0, 0⟩ firstVersion onePage
      [touch none 1 (Versions.unchanged firstVersion), touch (some ⟨7, 0⟩) 0 none] ∧
    (onePage.step (touch none 1 (Versions.unchanged firstVersion))).1.isTrue = true ∧
    (onePage.after [touch none 1 (Versions.unchanged firstVersion), touch (some ⟨7, 0⟩) 0 none]).version ⟨0, 0⟩ =
      some (⟨0, false⟩, [1, 2, 3], some ⟨7, 0⟩) ∧
    ((onePage.after [touch none 1 (Versions.unchanged firstVersion), touch (some ⟨7, 0⟩) 0 none]).step
      (touch none 2 (Versions.unchanged firstVersion))).1.isTrue = true := by
  refine ⟨by decide +kernel, ⟨fun _ _ => by decide +kernel, fun _ _ => by decide +kernel, trivial⟩, by decide +kernel,
    by decide +kernel, by decide +kernel⟩

/-- `onePage` with a link. -/
def linkedPage : Versions := onePage.after [.updateUndoLink ⟨0, 0⟩ (some ⟨7, 1⟩) none]

/-- Its version. -/
def linkedVersion : Version := (⟨0, false⟩, [1, 2, 3], some ⟨7, 1⟩)

/-- An update from `linkedVersion`, and another client's new link. -/
def touchThenLink : List Op :=
  [touch (some ⟨7, 1⟩) 1 (Versions.unchanged linkedVersion), .updateUndoLink ⟨0, 0⟩ (some ⟨8, 0⟩) none]

/-- In `linkedPage`, an update that passes the stored link is checked on what is stored; once an update from
`linkedVersion` is made, a second one that passes the link stored by then is not. -/
theorem check_sees_stored_version_iff_touch :
    linkedPage.ChecksStored ⟨0, 0⟩ (some ⟨7, 1⟩) ∧
      (linkedPage.step (touch (some ⟨7, 1⟩) 1 (Versions.unchanged linkedVersion))).1.isTrue = true ∧
      ((linkedPage.after touchThenLink).step
        (touch (some ⟨8, 0⟩) 2 (Versions.unchanged linkedVersion))).1.isTrue = false := by
  obtain ⟨hsees, hlost⟩ := check_sees_stored_version_iff onePage onePage_stacked
    [.updateUndoLink ⟨0, 0⟩ (some ⟨7, 1⟩) none] ⟨0, 0⟩ (by decide +kernel)
  have hlink : linkedPage.link ⟨0, 0⟩ = some ⟨7, 1⟩ := by decide +kernel
  have hfirst : (linkedPage.step (touch (some ⟨7, 1⟩) 1 (Versions.unchanged linkedVersion))).1.isTrue = true := by
    decide +kernel
  have hnever : Versions.NeverStores ⟨0, 0⟩ linkedVersion linkedPage touchThenLink :=
    ⟨fun _ _ => by decide +kernel, fun _ _ => by decide +kernel, trivial⟩
  have hpass : some ⟨8, 0⟩ = (linkedPage.after touchThenLink).link ⟨0, 0⟩ := by decide +kernel
  refine ⟨(hsees _).mpr hlink.symm, hfirst, Bool.eq_false_iff.mpr fun hsecond => ?_⟩
  exact hlost linkedVersion [.updateUndoLink ⟨0, 0⟩ (some ⟨8, 0⟩) none] (some ⟨7, 1⟩) (some ⟨8, 0⟩) ⟨1, false⟩ ⟨2, false⟩
    ⟨⟨0, 0⟩, [1, 2, 3], by decide⟩ ⟨⟨0, 0⟩, [1, 2, 3], by decide⟩ hnever hpass ⟨hfirst, hsecond⟩

end Checks

end Journey.Concurrency
