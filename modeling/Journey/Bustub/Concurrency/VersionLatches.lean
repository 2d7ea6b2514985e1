import Journey.Lib.Latches
import Journey.Bustub.Concurrency.UndoLinks

/-!
# Journey.Bustub.Concurrency.VersionLatches — versions read and written by many clients

The clients run `UpdateTupleAndUndoLink` and `GetTupleAndUndoLink` on shared pages and a shared `version_info_`.  A step
is one client taking or releasing one latch, or one access to what is shared: the slot or the bytes of a tuple, the map
`version_info_`, or the links of one page.  A client that waits for a latch stays where it is.  `version_info_` holds
pointers: a client keeps the `PageVersionInfo` it found after it has let go of the map.

* `next`, `interleave`: a step, and a schedule.
* `Inv`: while nobody is writing a page, each version on it is whole; `next_inv`, `interleave_inv`.
* `no_torn_version`: every version returned is the first one of its RID or one stored by one successful update.
-/

namespace Journey.Concurrency.Clients

open Storage Latches

/-! ## The system -/

section Model

/-- A call of `UpdateTupleAndUndoLink`. -/
structure Update where
  rid : RID
  undoLink : Option UndoLink
  tupleMeta : TupleMeta
  tuple : Tuple
  check : Check Seen

inductive Call
  | updateTupleAndUndoLink (u : Update)
  | getTupleAndUndoLink (rid : RID)

/-- The latches of the pages, `version_info_mutex_`, and the `mutex_` of each `PageVersionInfo`. -/
inductive Latch
  | page (pageId : Int32)
  | versionInfo
  | pageVersionInfo (pgVerInfo : ℕ)
deriving DecidableEq

/-- Where a client is in `UpdateTupleAndUndoLink`: what it does next. -/
inductive UpdatePc
  | acquire
  | getTuple
  | setInfo
  | copyData (offset : ℕ)
  | lock
  | find
  | create
  | lockPage (pgVerInfo : ℕ)
  | unlock (pgVerInfo : ℕ)
  | setLink (pgVerInfo : ℕ)
  | unlockPage (pgVerInfo : ℕ)
  | release (answer : Except Exception Bool)

/-- Where a client is in `GetTupleAndUndoLink`: what it does next. -/
inductive GetPc
  | acquire
  | getInfo
  | copyData (info : TupleInfo)
  | lock (row : TupleMeta × Tuple)
  | find (row : TupleMeta × Tuple)
  | lockPage (row : TupleMeta × Tuple) (pgVerInfo : ℕ)
  | unlock (row : TupleMeta × Tuple) (pgVerInfo : Option ℕ)
  | getLink (row : TupleMeta × Tuple) (pgVerInfo : ℕ)
  | unlockPage (row : TupleMeta × Tuple) (undoLink : Option UndoLink) (pgVerInfo : ℕ)
  | release (answer : Except Exception (TupleMeta × Tuple × Option UndoLink))

inductive Pc
  | idle
  | update (u : Update) (pc : UpdatePc)
  | get (rid : RID) (pc : GetPc)

/-- The latches held in `UpdateTupleAndUndoLink`: the write guard of the page throughout. -/
def UpdatePc.holds (pageId : Int32) : UpdatePc → Latch → Option Mode
  | .acquire, _ => none
  | _, .page p => if p = pageId then some .exclusive else none
  | .find, .versionInfo => some .exclusive
  | .create, .versionInfo => some .exclusive
  | .lockPage _, .versionInfo => some .exclusive
  | .unlock _, .versionInfo => some .exclusive
  | .unlock a, .pageVersionInfo b => if b = a then some .exclusive else none
  | .setLink a, .pageVersionInfo b => if b = a then some .exclusive else none
  | .unlockPage a, .pageVersionInfo b => if b = a then some .exclusive else none
  | _, _ => none

/-- The latches held in `GetTupleAndUndoLink`: the read guard of the page throughout. -/
def GetPc.holds (pageId : Int32) : GetPc → Latch → Option Mode
  | .acquire, _ => none
  | _, .page p => if p = pageId then some .shared else none
  | .find _, .versionInfo => some .shared
  | .lockPage _ _, .versionInfo => some .shared
  | .unlock _ _, .versionInfo => some .shared
  | .unlock _ (some a), .pageVersionInfo b => if b = a then some .exclusive else none
  | .getLink _ a, .pageVersionInfo b => if b = a then some .exclusive else none
  | .unlockPage _ _ a, .pageVersionInfo b => if b = a then some .exclusive else none
  | _, _ => none

def Pc.holds : Pc → Latch → Option Mode
  | .idle, _ => none
  | .update u pc, l => pc.holds u.rid.pageId l
  | .get rid pc, l => pc.holds rid.pageId l

/-- The pages, `version_info_` and the `PageVersionInfo`s it points to. -/
structure Shared where
  page : Int32 → Mem
  infos : List PageVersionInfo
  versionInfo : UnorderedMap Int32 ℕ

structure Client where
  calls : List Call
  pc : Pc

/-- The calls that have returned are recorded with their answers, the last one first. -/
structure Sys (ι : Type) where
  shared : Shared
  clients : ι → Client
  returns : List (ι × Call × Answer)

variable {ι : Type}

def Sys.start (w : Shared) (prog : ι → List Call) : Sys ι := ⟨w, fun t => ⟨prog t, .idle⟩, []⟩

def Sys.holds (s : Sys ι) (t : ι) : Latch → Option Mode := (s.clients t).pc.holds

/-- The tuple that `GetTuple` copies out of the page, given its slot. -/
def copied (m : Mem) (rid : RID) (info : TupleInfo) : Tuple where
  rid := rid
  data := load m info.offset.toNat info.size.toNat
  length_lt := by
    have h := info.size.toNat_lt
    rw [length_load]
    omega

variable [DecidableEq ι]

def Sys.set (s : Sys ι) (t : ι) (calls : List Call) (pc : Pc) : Sys ι :=
  { s with clients := Function.update s.clients t ⟨calls, pc⟩ }

/-- The client `t` goes on to `pc`; the state shared becomes `w`. -/
def Sys.moveTo (s : Sys ι) (t : ι) (w : Shared) (pc : Pc) : Sys ι :=
  { s.set t (s.clients t).calls pc with shared := w }

/-- The call of the client `t` returns. -/
def Sys.return (s : Sys ι) (t : ι) (call : Call) (answer : Answer) : Sys ι :=
  { s.set t (s.clients t).calls .idle with returns := (t, call, answer) :: s.returns }

variable [Fintype ι]

/-- The client `t` takes the latch `l` and goes on to `pc`, or waits. -/
def Sys.take (s : Sys ι) (t : ι) (l : Latch) (m : Mode) (pc : Pc) : Sys ι :=
  if Free s.holds t l m then s.moveTo t s.shared pc else s

/-- A step of `UpdateTupleAndUndoLink`. -/
def nextUpdate (s : Sys ι) (t : ι) (u : Update) (pc : UpdatePc) : Sys ι :=
  let w := s.shared
  let m := w.page u.rid.pageId
  match pc with
  | .acquire => s.take t (.page u.rid.pageId) .exclusive (.update u .getTuple)
  | .getTuple =>
    match getTuple m u.rid with
    | .error e => s.moveTo t w (.update u (.release (.error e)))
    | .ok (baseMeta, baseTuple) =>
      match u.check.ask (baseMeta, baseTuple, u.rid, u.undoLink) with
      | .error e => s.moveTo t w (.update u (.release (.error e)))
      | .ok false => s.moveTo t w (.update u (.release (.ok false)))
      | .ok true =>
        if u.tupleMeta ≠ baseMeta ∨ !isTupleContentEqual u.tuple baseTuple then s.moveTo t w (.update u .setInfo)
        else s.moveTo t w (.update u .lock)
  | .setInfo =>
    -- `UpdateTupleInPlaceUnsafe` up to the assignment of the slot
    let info := tupleInfo m u.rid.slotNum
    if getNumTuples m ≤ u.rid.slotNum then
      s.moveTo t w (.update u (.release (.error ⟨"Tuple ID out of range"⟩)))
    else if info.size.toNat ≠ u.tuple.getLength then
      s.moveTo t w (.update u (.release (.error ⟨"Tuple size mismatch"⟩)))
    else
      let m := countDeleted m info.tupleMeta u.tupleMeta
      let m := setTupleInfo m u.rid.slotNum { info with tupleMeta := u.tupleMeta }
      s.moveTo t { w with page := Function.update w.page u.rid.pageId m } (.update u (.copyData info.offset.toNat))
  | .copyData offset =>
    s.moveTo t { w with page := Function.update w.page u.rid.pageId (store m offset u.tuple.data) } (.update u .lock)
  | .lock => s.take t .versionInfo .exclusive (.update u .find)
  | .find =>
    match w.versionInfo.lookup u.rid.pageId with
    | none => s.moveTo t w (.update u .create)
    | some a => s.moveTo t w (.update u (.lockPage a))
  | .create =>
    let a := w.infos.length
    s.moveTo t { w with infos := w.infos ++ [∅], versionInfo := w.versionInfo.insert u.rid.pageId a }
      (.update u (.lockPage a))
  | .lockPage a => s.take t (.pageVersionInfo a) .exclusive (.update u (.unlock a))
  | .unlock a => s.moveTo t w (.update u (.setLink a))
  | .setLink a =>
    s.moveTo t { w with infos := w.infos.modify a (setPrevLink · u.rid.slotNum u.undoLink) }
      (.update u (.unlockPage a))
  | .unlockPage _ => s.moveTo t w (.update u (.release (.ok true)))
  | .release answer => s.return t (.updateTupleAndUndoLink u) (.updated answer)

/-- A step of `GetTupleAndUndoLink`. -/
def nextGet (s : Sys ι) (t : ι) (rid : RID) (pc : GetPc) : Sys ι :=
  let w := s.shared
  let m := w.page rid.pageId
  match pc with
  | .acquire => s.take t (.page rid.pageId) .shared (.get rid .getInfo)
  | .getInfo =>
    if getNumTuples m ≤ rid.slotNum then s.moveTo t w (.get rid (.release (.error ⟨"Tuple ID out of range"⟩)))
    else s.moveTo t w (.get rid (.copyData (tupleInfo m rid.slotNum)))
  | .copyData info => s.moveTo t w (.get rid (.lock (info.tupleMeta, copied m rid info)))
  | .lock row => s.take t .versionInfo .shared (.get rid (.find row))
  | .find row =>
    match w.versionInfo.lookup rid.pageId with
    | none => s.moveTo t w (.get rid (.unlock row none))
    | some a => s.moveTo t w (.get rid (.lockPage row a))
  | .lockPage row a => s.take t (.pageVersionInfo a) .exclusive (.get rid (.unlock row (some a)))
  | .unlock row none => s.moveTo t w (.get rid (.release (.ok (row.1, row.2, none))))
  | .unlock row (some a) => s.moveTo t w (.get rid (.getLink row a))
  | .getLink row a => s.moveTo t w (.get rid (.unlockPage row ((w.infos.getD a ∅).lookup rid.slotNum) a))
  | .unlockPage row undoLink _ => s.moveTo t w (.get rid (.release (.ok (row.1, row.2, undoLink))))
  | .release answer => s.return t (.getTupleAndUndoLink rid) (.version answer)

/-- One step of the client `t`. -/
def next (s : Sys ι) (t : ι) : Sys ι :=
  match s.clients t with
  | ⟨calls, .idle⟩ =>
    match calls with
    | [] => s
    | .updateTupleAndUndoLink u :: calls => s.set t calls (.update u .acquire)
    | .getTupleAndUndoLink rid :: calls => s.set t calls (.get rid .acquire)
  | ⟨_, .update u pc⟩ => nextUpdate s t u pc
  | ⟨_, .get rid pc⟩ => nextGet s t rid pc

/-- Run a schedule. -/
def interleave (s : Sys ι) (sched : List ι) : Sys ι := sched.foldl next s

end Model

/-! ## What the clients know -/

section Inv

/-- What there is of one page: its bytes, and its `PageVersionInfo` with the pointer to it. -/
structure View where
  page : Mem
  entry : Option (ℕ × PageVersionInfo)

def Shared.view (w : Shared) (p : Int32) : View :=
  ⟨w.page p, (w.versionInfo.lookup p).map fun a => (a, w.infos.getD a ∅)⟩

namespace View

def row (V : View) (i : ℕ) : Option (TupleMeta × List UInt8) :=
  if i < getNumTuples V.page then some (Storage.entry V.page i) else none

def link (V : View) (i : ℕ) : Option UndoLink := V.entry.bind fun e => e.2.lookup i

def version (V : View) (i : ℕ) : Option Version := (V.row i).map fun r => (r.1, r.2, V.link i)

end View

/-- The version stored at `rid`. -/
def Shared.version (w : Shared) (rid : RID) : Option Version := (w.view rid.pageId).version rid.slotNum

/-- The pointers of `version_info_` point to different `PageVersionInfo`s. -/
structure Shared.Pointers (w : Shared) : Prop where
  bound : ∀ p a, w.versionInfo.lookup p = some a → a < w.infos.length
  inj : ∀ p q a, w.versionInfo.lookup p = some a → w.versionInfo.lookup q = some a → p = q

/-- Every page of `w` is one that `TablePage` made, and the pointers are sound. -/
structure Shared.Sound (w : Shared) : Prop where
  stacked : ∀ p, Stacked (w.page p)
  pointers : w.Pointers

/-- The version that a call has stored, if it is a successful update. -/
def stored {ι : Type} : ι × Call × Answer → Option (RID × Version)
  | (_, .updateTupleAndUndoLink u, .updated (.ok true)) => some (u.rid, u.tupleMeta, u.tuple.data, u.undoLink)
  | _ => none

/-- The version that a call has returned, if it is a read that did not throw. -/
def returned {ι : Type} : ι × Call × Answer → Option (RID × Version)
  | (_, .getTupleAndUndoLink rid, .version (.ok (tupleMeta, tuple, undoLink))) =>
    some (rid, tupleMeta, tuple.data, undoLink)
  | _ => none

/-- `v` is the first version of `rid`, or one that a successful update has stored there. -/
def Known {ι : Type} (w₀ : Shared) (returns : List (ι × Call × Answer)) (rid : RID) (v : Version) : Prop :=
  w₀.version rid = some v ∨ (rid, v) ∈ returns.filterMap stored

variable {K K' : RID → Version → Prop}

/-- Each version of the page `p` is known. -/
structure Clean (K : RID → Version → Prop) (p : Int32) (V : View) : Prop where
  stacked : Stacked V.page
  known : ∀ i v, V.version i = some v → K ⟨p, i⟩ v

/-- The tuple of the update is stored; each version in another slot is known. -/
structure Written (K : RID → Version → Prop) (u : Update) (V : View) : Prop where
  stacked : Stacked V.page
  row : V.row u.rid.slotNum = some (u.tupleMeta, u.tuple.data)
  known : ∀ i, i ≠ u.rid.slotNum → ∀ v, V.version i = some v → K ⟨u.rid.pageId, i⟩ v

/-- The page when the slot of the tuple is set and its bytes are not yet. -/
def slotSet (base : Mem) (u : Update) : Mem :=
  setTupleInfo (countDeleted base (tupleInfo base u.rid.slotNum).tupleMeta u.tupleMeta) u.rid.slotNum
    { tupleInfo base u.rid.slotNum with tupleMeta := u.tupleMeta }

/-- What an update knows of its page. -/
def UpdatePc.Ok (K : RID → Version → Prop) (u : Update) (V : View) : UpdatePc → Prop
  | .copyData offset => ∃ base, Clean K u.rid.pageId ⟨base, V.entry⟩ ∧ u.rid.slotNum < getNumTuples base ∧
      sizeAt base u.rid.slotNum = u.tuple.getLength ∧ V.page = slotSet base u ∧
      offset = (tupleInfo base u.rid.slotNum).offset.toNat
  | .lock => Written K u V
  | .find => Written K u V
  | .create => Written K u V ∧ V.entry = none
  | .lockPage a => Written K u V ∧ ∃ info, V.entry = some (a, info)
  | .unlock a => Written K u V ∧ ∃ info, V.entry = some (a, info)
  | .setLink a => Written K u V ∧ ∃ info, V.entry = some (a, info)
  | .unlockPage _ => Written K u V ∧ V.link u.rid.slotNum = u.undoLink
  | .release (.ok true) => Written K u V ∧ V.link u.rid.slotNum = u.undoLink
  | _ => True

/-- The update has begun to write. -/
def UpdatePc.dirty : UpdatePc → Bool
  | .acquire => false
  | .getTuple => false
  | .setInfo => false
  | .release (.ok true) => true
  | .release _ => false
  | _ => true

/-- What a read knows of its page. -/
def GetPc.Ok (i : ℕ) (V : View) : GetPc → Prop
  | .copyData info => i < getNumTuples V.page ∧ info = tupleInfo V.page i
  | .lock row => V.row i = some (row.1, row.2.data)
  | .find row => V.row i = some (row.1, row.2.data)
  | .lockPage row a => V.row i = some (row.1, row.2.data) ∧ ∃ info, V.entry = some (a, info)
  | .unlock row none => V.row i = some (row.1, row.2.data) ∧ V.entry = none
  | .unlock row (some a) => V.row i = some (row.1, row.2.data) ∧ ∃ info, V.entry = some (a, info)
  | .getLink row a => V.row i = some (row.1, row.2.data) ∧ ∃ info, V.entry = some (a, info)
  | .unlockPage row undoLink _ => V.row i = some (row.1, row.2.data) ∧ V.link i = undoLink
  | .release (.ok (tupleMeta, tuple, undoLink)) => V.version i = some (tupleMeta, tuple.data, undoLink)
  | _ => True

def Pc.Ok (K : RID → Version → Prop) (w : Shared) : Pc → Prop
  | .idle => True
  | .update u pc => pc.Ok K u (w.view u.rid.pageId)
  | .get rid pc => pc.Ok rid.slotNum (w.view rid.pageId)

/-- The client is writing the page `p`. -/
def Pc.Dirty (p : Int32) : Pc → Prop
  | .update u pc => u.rid.pageId = p ∧ pc.dirty = true
  | _ => False

/-- Latches exclude, every client knows what it should, and a page that nobody is writing is clean. -/
structure Inv {ι : Type} (w₀ : Shared) (s : Sys ι) : Prop where
  exclusion : Exclusion s.holds
  pointers : s.shared.Pointers
  clients : ∀ t, (s.clients t).pc.Ok (Known w₀ s.returns) s.shared
  clean : ∀ p, (∀ t, ¬ (s.clients t).pc.Dirty p) → Clean (Known w₀ s.returns) p (s.shared.view p)
  returns : ∀ r ∈ s.returns, ∀ rid v, returned r = some (rid, v) → Known w₀ s.returns rid v

theorem Known.mono {ι : Type} {w₀ : Shared} {returns returns' : List (ι × Call × Answer)} (hsub : returns ⊆ returns')
    {rid : RID} {v : Version} (h : Known w₀ returns rid v) : Known w₀ returns' rid v := by
  rcases h with hfirst | hmem
  · exact .inl hfirst
  · exact .inr (List.filterMap_subset stored hsub hmem)

theorem Clean.mono (hK : ∀ rid v, K rid v → K' rid v) {p : Int32} {V : View} (h : Clean K p V) : Clean K' p V :=
  ⟨h.stacked, fun i v hv => hK _ _ (h.known i v hv)⟩

theorem Written.mono (hK : ∀ rid v, K rid v → K' rid v) {u : Update} {V : View} (h : Written K u V) : Written K' u V :=
  ⟨h.stacked, h.row, fun i hi v hv => hK _ _ (h.known i hi v hv)⟩

theorem UpdatePc.Ok.mono (hK : ∀ rid v, K rid v → K' rid v) {u : Update} {V : View} {pc : UpdatePc}
    (h : pc.Ok K u V) : pc.Ok K' u V := by
  match pc, h with
  | .copyData offset, ⟨base, hclean, hrest⟩ => exact ⟨base, hclean.mono hK, hrest⟩
  | .lock, h => exact Written.mono hK h
  | .find, h => exact Written.mono hK h
  | .create, ⟨h, hentry⟩ => exact ⟨h.mono hK, hentry⟩
  | .lockPage a, ⟨h, hentry⟩ => exact ⟨h.mono hK, hentry⟩
  | .unlock a, ⟨h, hentry⟩ => exact ⟨h.mono hK, hentry⟩
  | .setLink a, ⟨h, hentry⟩ => exact ⟨h.mono hK, hentry⟩
  | .unlockPage a, ⟨h, hlink⟩ => exact ⟨h.mono hK, hlink⟩
  | .release (.ok true), ⟨h, hlink⟩ => exact ⟨h.mono hK, hlink⟩
  | .release (.ok false), _ => trivial
  | .release (.error _), _ => trivial
  | .acquire, _ => trivial
  | .getTuple, _ => trivial
  | .setInfo, _ => trivial

theorem UpdatePc.holds_page {pc : UpdatePc} (hpc : pc ≠ .acquire) (p : Int32) :
    pc.holds p (.page p) = some .exclusive := by
  cases pc with
  | acquire => exact absurd rfl hpc
  | _ => exact if_pos rfl

theorem GetPc.holds_page {pc : GetPc} (hpc : pc ≠ .acquire) (p : Int32) : pc.holds p (.page p) = some .shared := by
  cases pc with
  | acquire => exact absurd rfl hpc
  | _ => exact if_pos rfl

/-- A client that has begun to write holds the page exclusively. -/
theorem Pc.Dirty.holds {pc : Pc} {p : Int32} (h : pc.Dirty p) : pc.holds (.page p) = some .exclusive := by
  match pc, h with
  | .update u pc, ⟨hp, hdirty⟩ =>
    subst hp
    refine UpdatePc.holds_page ?_ u.rid.pageId
    rintro rfl
    cases hdirty

/-- What a client knows is about the page it has latched. -/
theorem Pc.Ok.frame {w w' : Shared} {pc : Pc} (h : pc.Ok K w) (hK : ∀ rid v, K rid v → K' rid v)
    (hview : ∀ p, pc.holds (.page p) ≠ none → w'.view p = w.view p) : pc.Ok K' w' := by
  match pc with
  | .idle => trivial
  | .update u pc =>
    by_cases hacq : pc = .acquire
    · rw [hacq]
      trivial
    · have hheld := UpdatePc.holds_page hacq u.rid.pageId
      show pc.Ok K' u (w'.view u.rid.pageId)
      rw [hview u.rid.pageId (by simp [Pc.holds, hheld])]
      exact UpdatePc.Ok.mono hK h
  | .get rid pc =>
    by_cases hacq : pc = .acquire
    · rw [hacq]
      trivial
    · have hheld := GetPc.holds_page hacq rid.pageId
      show pc.Ok rid.slotNum (w'.view rid.pageId)
      rw [hview rid.pageId (by simp [Pc.holds, hheld])]
      exact h

variable {ι : Type} {w₀ : Shared} {s : Sys ι} {t : ι} {calls : List Call} {pc : Pc}

/-- The page that a client has latched and is not writing itself is clean. -/
theorem Inv.clean_of_holds (h : Inv w₀ s) {p : Int32} (hheld : s.holds t (.page p) ≠ none)
    (hclean : ¬ (s.clients t).pc.Dirty p) : Clean (Known w₀ s.returns) p (s.shared.view p) := by
  refine h.clean p ?_
  intro u hu
  by_cases hut : u = t
  · rw [hut] at hu
    exact hclean hu
  · exact hheld (h.exclusion u t _ hut hu.holds)

theorem Inv.clean_update (h : Inv w₀ s) {u : Update} {pc : UpdatePc} (hc : s.clients t = ⟨calls, .update u pc⟩)
    (hpc : pc ≠ .acquire) (hclean : pc.dirty = false) :
    Clean (Known w₀ s.returns) u.rid.pageId (s.shared.view u.rid.pageId) := by
  refine h.clean_of_holds (t := t) ?_ ?_
  · unfold Sys.holds
    rw [hc]
    simp [Pc.holds, UpdatePc.holds_page hpc]
  · rw [hc]
    rintro ⟨-, hdirty⟩
    rw [hclean] at hdirty
    cases hdirty

/-- What an update knows of its page at `pc`. -/
theorem Inv.ok_update (h : Inv w₀ s) {u : Update} {pc : UpdatePc} (hc : s.clients t = ⟨calls, .update u pc⟩) :
    pc.Ok (Known w₀ s.returns) u (s.shared.view u.rid.pageId) := by
  have hok := h.clients t
  rwa [hc] at hok

/-- What a read knows of its page at `pc`. -/
theorem Inv.ok_get (h : Inv w₀ s) {rid : RID} {pc : GetPc} (hc : s.clients t = ⟨calls, .get rid pc⟩) :
    pc.Ok rid.slotNum (s.shared.view rid.pageId) := by
  have hok := h.clients t
  rwa [hc] at hok

variable [DecidableEq ι]

/-- **One client moves.**  It changes only what it holds exclusively, takes only what is free, knows then what it should,
and leaves clean what it does not go on writing. -/
theorem Inv.move (h : Inv w₀ s) (hc : s.clients t = ⟨calls, pc⟩) {calls' : List Call} {pc' : Pc} {w' : Shared}
    {returns' : List (ι × Call × Answer)} (hsub : s.returns ⊆ returns')
    (hknown : ∀ r ∈ returns', r ∈ s.returns ∨ ∀ rid v, returned r = some (rid, v) → Known w₀ returns' rid v)
    (hview : ∀ q, w'.view q ≠ s.shared.view q → pc.holds (.page q) = some .exclusive) (hptr : w'.Pointers)
    (hlatch : ∀ l m, pc'.holds l = some m → pc.holds l = some m ∨ Free s.holds t l m)
    (hok : pc'.Ok (Known w₀ returns') w')
    (hclean : ∀ q, ¬ pc'.Dirty q → pc.Dirty q ∨ w'.view q ≠ s.shared.view q →
      Clean (Known w₀ returns') q (w'.view q)) :
    Inv w₀ ⟨w', Function.update s.clients t ⟨calls', pc'⟩, returns'⟩ := by
  have hmono : ∀ rid v, Known w₀ s.returns rid v → Known w₀ returns' rid v := fun _ _ hv => hv.mono hsub
  have hmine : s.holds t = pc.holds := by
    unfold Sys.holds
    rw [hc]
  have hholds : (⟨w', Function.update s.clients t ⟨calls', pc'⟩, returns'⟩ : Sys ι).holds =
      Function.update s.holds t pc'.holds := by
    funext u
    show (Function.update s.clients t ⟨calls', pc'⟩ u).pc.holds = _
    by_cases hu : u = t
    · rw [hu, Function.update_self, Function.update_self]
    · rw [Function.update_of_ne hu, Function.update_of_ne hu]
      rfl
  refine ⟨?_, hptr, ?_, ?_, ?_⟩
  · rw [hholds]
    refine h.exclusion.step ?_
    rw [hmine]
    exact hlatch
  · intro u
    show (Function.update s.clients t ⟨calls', pc'⟩ u).pc.Ok (Known w₀ returns') w'
    by_cases hu : u = t
    · rw [hu, Function.update_self]
      exact hok
    · rw [Function.update_of_ne hu]
      refine (h.clients u).frame hmono ?_
      intro p hp
      by_contra hne
      refine hp (h.exclusion t u _ (Ne.symm hu) ?_)
      rw [hmine]
      exact hview p hne
  · intro p hp
    dsimp only at hp
    have hpc : ¬ pc'.Dirty p := by
      have := hp t
      rwa [Function.update_self] at this
    by_cases hold : pc.Dirty p ∨ w'.view p ≠ s.shared.view p
    · exact hclean p hpc hold
    · rw [not_or, not_not] at hold
      show Clean _ p (w'.view p)
      rw [hold.2]
      refine (h.clean p ?_).mono hmono
      intro u
      by_cases hu : u = t
      · rw [hu, hc]
        exact hold.1
      · have := hp u
        rwa [Function.update_of_ne hu] at this
  · intro r hr rid v hv
    rcases hknown r hr with hmem | hnew
    · exact hmono _ _ (h.returns r hmem rid v hv)
    · exact hnew rid v hv

/-- A step that changes nothing that is shared. -/
theorem Inv.stay (h : Inv w₀ s) (hc : s.clients t = ⟨calls, pc⟩) {calls' : List Call} {pc' : Pc}
    (hlatch : ∀ l m, pc'.holds l = some m → pc.holds l = some m ∨ Free s.holds t l m)
    (hok : pc.Ok (Known w₀ s.returns) s.shared → pc'.Ok (Known w₀ s.returns) s.shared)
    (hdirty : ∀ q, pc.Dirty q → pc'.Dirty q) : Inv w₀ (s.set t calls' pc') := by
  have hmine := h.clients t
  rw [hc] at hmine
  refine h.move hc (List.Subset.refl _) (fun r hr => .inl hr) ?_ h.pointers hlatch (hok hmine) ?_
  · intro q hne
    exact absurd rfl hne
  · rintro q hclean (hold | hne)
    · exact absurd (hdirty q hold) hclean
    · exact absurd rfl hne

/-- A step that writes to the page of an update. -/
theorem Inv.write (h : Inv w₀ s) {u : Update} {pc pc' : UpdatePc} (hc : s.clients t = ⟨calls, .update u pc⟩)
    {w' : Shared} (hpc : pc ≠ .acquire) (hview : ∀ q, q ≠ u.rid.pageId → w'.view q = s.shared.view q)
    (hptr : w'.Pointers) (hlatch : ∀ l m, pc'.holds u.rid.pageId l = some m → pc.holds u.rid.pageId l = some m)
    (hok : pc'.Ok (Known w₀ s.returns) u (w'.view u.rid.pageId)) (hdirty : pc'.dirty = true) :
    Inv w₀ (s.moveTo t w' (.update u pc')) := by
  have hpage : ∀ q, w'.view q ≠ s.shared.view q → q = u.rid.pageId := by
    intro q hne
    by_contra hq
    exact hne (hview q hq)
  refine h.move hc (List.Subset.refl _) (fun r hr => .inl hr) ?_ hptr (fun l m hm => .inl (hlatch l m hm)) hok ?_
  · intro q hne
    rw [hpage q hne]
    exact UpdatePc.holds_page hpc u.rid.pageId
  · rintro q hclean hold
    refine absurd ⟨?_, hdirty⟩ hclean
    rcases hold with hold | hne
    · exact hold.1
    · exact (hpage q hne).symm

/-! ### Writes to what is shared -/

theorem view_setPage (w : Shared) (p : Int32) (m : Mem) (q : Int32) :
    ({ w with page := Function.update w.page p m } : Shared).view q =
      if q = p then ⟨m, (w.view p).entry⟩ else w.view q := by
  split_ifs with hq
  · subst hq
    simp [Shared.view]
  · simp [Shared.view, hq]

/-- The view of each page after a `PageVersionInfo` was made for `p`. -/
theorem view_create {w : Shared} (hptr : w.Pointers) (p : Int32) (q : Int32) :
    ({ w with infos := w.infos ++ [∅], versionInfo := w.versionInfo.insert p w.infos.length } : Shared).view q =
      if q = p then ⟨w.page p, some (w.infos.length, ∅)⟩ else w.view q := by
  unfold Shared.view
  simp only [lookup_insert_eq]
  split_ifs with hq
  · simp [hq]
  · cases ha : w.versionInfo.lookup q with
    | none => rfl
    | some a => simp [List.getD_eq_getElem?_getD, List.getElem?_append_left (hptr.bound q a ha)]

theorem pointers_create {w : Shared} (hptr : w.Pointers) (p : Int32) :
    ({ w with infos := w.infos ++ [∅], versionInfo := w.versionInfo.insert p w.infos.length } : Shared).Pointers := by
  constructor
  · intro q a ha
    simp only [lookup_insert_eq, List.length_append, List.length_singleton] at ha ⊢
    split_ifs at ha with hq
    · cases ha
      omega
    · have := hptr.bound q a ha
      omega
  · intro q r a hq hr
    simp only [lookup_insert_eq] at hq hr
    split_ifs at hq hr with hqp hrp hrp
    · rw [hqp, hrp]
    · cases hq
      exact absurd (hptr.bound r _ hr) (lt_irrefl _)
    · cases hr
      exact absurd (hptr.bound q _ hq) (lt_irrefl _)
    · exact hptr.inj q r a hq hr

/-- The view of each page after the `PageVersionInfo` of `p` was changed. -/
theorem view_modify {w : Shared} (hptr : w.Pointers) {p : Int32} {a : ℕ} {info : PageVersionInfo}
    (hentry : (w.view p).entry = some (a, info)) (f : PageVersionInfo → PageVersionInfo) (q : Int32) :
    ({ w with infos := w.infos.modify a f } : Shared).view q =
      if q = p then ⟨w.page p, some (a, f info)⟩ else w.view q := by
  simp only [Shared.view, Option.map_eq_some_iff, Prod.mk.injEq] at hentry
  obtain ⟨b, hb, rfl, hinfo⟩ := hentry
  have hlt := hptr.bound p b hb
  unfold Shared.view
  split_ifs with hq
  · subst hq
    simp only [hb, Option.map_some, View.mk.injEq, Option.some.injEq, Prod.mk.injEq, true_and]
    rw [← hinfo]
    simp [hlt]
  · cases ha : w.versionInfo.lookup q with
    | none => rfl
    | some a =>
      have hne : b ≠ a := by
        rintro rfl
        exact hq (hptr.inj q p b ha hb)
      simp [List.getD_eq_getElem?_getD, List.getElem?_modify, hne]

/-! ### What the steps of an update store -/

theorem Clean.written {V : View} {u : Update} (h : Clean K u.rid.pageId V)
    (hrow : V.row u.rid.slotNum = some (u.tupleMeta, u.tuple.data)) : Written K u V :=
  ⟨h.stacked, hrow, fun i _ v hv => h.known i v hv⟩

theorem written_copyData {u : Update} {base : Mem} {e : Option (ℕ × PageVersionInfo)}
    (h : Clean K u.rid.pageId ⟨base, e⟩) (hslot : u.rid.slotNum < getNumTuples base)
    (hsize : sizeAt base u.rid.slotNum = u.tuple.getLength) :
    Written K u ⟨store (slotSet base u) (tupleInfo base u.rid.slotNum).offset.toNat u.tuple.data, e⟩ := by
  set m' := store (slotSet base u) (tupleInfo base u.rid.slotNum).offset.toNat u.tuple.data
  have hupd : Updated base m' u.rid.slotNum (u.tupleMeta, u.tuple.data) := rewrite_spec h.stacked hslot hsize.symm
  refine ⟨hupd.stacked, ?_, ?_⟩
  · unfold View.row
    rw [← hupd.same]
    exact if_pos (hupd.numTuples ▸ hslot)
  · intro i hi v hv
    refine h.known i v ?_
    rw [← hv]
    unfold View.version View.row
    congr 1
    dsimp only
    rw [hupd.numTuples]
    split_ifs with hlt
    · rw [hupd.other i hlt hi]
    · rfl

theorem Written.create {u : Update} {m : Mem} {a : ℕ} (h : Written K u ⟨m, none⟩) : Written K u ⟨m, some (a, ∅)⟩ :=
  ⟨h.stacked, h.row, h.known⟩

theorem Written.setLink {u : Update} {m : Mem} {a : ℕ} {info : PageVersionInfo} (h : Written K u ⟨m, some (a, info)⟩) :
    Written K u ⟨m, some (a, setPrevLink info u.rid.slotNum u.undoLink)⟩ ∧
      (⟨m, some (a, setPrevLink info u.rid.slotNum u.undoLink)⟩ : View).link u.rid.slotNum = u.undoLink := by
  refine ⟨⟨h.stacked, h.row, ?_⟩, ?_⟩
  · intro i hi v hv
    refine h.known i hi v ?_
    rw [← hv]
    simp only [View.version, View.row, View.link, Option.bind_some, lookup_setPrevLink, if_neg hi]
  · simp [View.link, lookup_setPrevLink]

/-- An update that is done leaves its page clean, once its version is known. -/
theorem Written.clean {u : Update} {V : View} (h : Written K u V) (hlink : V.link u.rid.slotNum = u.undoLink)
    (hK : ∀ rid v, K rid v → K' rid v) (hnew : K' u.rid (u.tupleMeta, u.tuple.data, u.undoLink)) :
    Clean K' u.rid.pageId V := by
  refine ⟨h.stacked, ?_⟩
  intro i v hv
  by_cases hi : i = u.rid.slotNum
  · subst hi
    unfold View.version at hv
    rw [h.row, hlink, Option.map_some] at hv
    cases hv
    exact hnew
  · exact hK _ _ (h.known i hi v hv)

/-! ### Steps -/

/-- A step of an update that changes nothing that is shared and takes no latch. -/
theorem Inv.stayUpdate (h : Inv w₀ s) {u : Update} {pc pc' : UpdatePc} (hc : s.clients t = ⟨calls, .update u pc⟩)
    (hlatch : ∀ l m, pc'.holds u.rid.pageId l = some m → pc.holds u.rid.pageId l = some m)
    (hok : pc.Ok (Known w₀ s.returns) u (s.shared.view u.rid.pageId) →
      pc'.Ok (Known w₀ s.returns) u (s.shared.view u.rid.pageId))
    (hdirty : pc.dirty = true → pc'.dirty = true) : Inv w₀ (s.moveTo t s.shared (.update u pc')) :=
  h.stay hc (fun l m hm => .inl (hlatch l m hm)) hok fun _ hold => ⟨hold.1, hdirty hold.2⟩

/-- A step of a read that takes no latch. -/
theorem Inv.stayGet (h : Inv w₀ s) {rid : RID} {pc pc' : GetPc} (hc : s.clients t = ⟨calls, .get rid pc⟩)
    (hlatch : ∀ l m, pc'.holds rid.pageId l = some m → pc.holds rid.pageId l = some m)
    (hok : pc.Ok rid.slotNum (s.shared.view rid.pageId) → pc'.Ok rid.slotNum (s.shared.view rid.pageId)) :
    Inv w₀ (s.moveTo t s.shared (.get rid pc')) :=
  h.stay hc (fun l m hm => .inl (hlatch l m hm)) hok fun _ hold => hold

theorem row_of_getTuple {w : Shared} {rid : RID} {m : TupleMeta} {tuple : Tuple}
    (h : getTuple (w.page rid.pageId) rid = .ok (m, tuple)) :
    (w.view rid.pageId).row rid.slotNum = some (m, tuple.data) :=
  (getTuple_row (s := ⟨w.page, ∅⟩) h).1

variable [Fintype ι]

theorem eq_of_held {α : Type} [DecidableEq α] {a b : α} {m m' : Mode} (h : (if a = b then some m else none) = some m') :
    a = b ∧ m' = m := by
  rw [Option.ite_none_right_eq_some] at h
  exact ⟨h.1, (Option.some.inj h.2).symm⟩

theorem Inv.take (h : Inv w₀ s) (hc : s.clients t = ⟨calls, pc⟩) {l : Latch} {m : Mode} {pc' : Pc}
    (hlatch : ∀ l' m', pc'.holds l' = some m' → pc.holds l' = some m' ∨ l' = l ∧ m' = m)
    (hok : pc.Ok (Known w₀ s.returns) s.shared → pc'.Ok (Known w₀ s.returns) s.shared)
    (hdirty : ∀ q, pc.Dirty q → pc'.Dirty q) : Inv w₀ (s.take t l m pc') := by
  unfold Sys.take
  split_ifs with hfree
  · refine h.stay hc ?_ hok hdirty
    intro l' m' hm
    rcases hlatch l' m' hm with hold | ⟨rfl, rfl⟩
    · exact .inl hold
    · exact .inr hfree
  · exact h

theorem nextUpdate_getTuple (h : Inv w₀ s) {u : Update} (hc : s.clients t = ⟨calls, .update u .getTuple⟩) :
    Inv w₀ (nextUpdate s t u .getTuple) := by
  have hthrow : ∀ answer, answer ≠ .ok true → Inv w₀ (s.moveTo t s.shared (.update u (.release answer))) := by
    intro answer hne
    refine h.stayUpdate hc (fun l m hm => ?_) (fun _ => ?_) (fun hold => by cases hold)
    · cases l <;> exact hm
    · rcases answer with e | (- | -)
      · trivial
      · trivial
      · exact absurd rfl hne
  unfold nextUpdate
  dsimp only
  rcases hget : getTuple (s.shared.page u.rid.pageId) u.rid with e | ⟨baseMeta, baseTuple⟩
  · exact hthrow _ (by simp)
  dsimp only
  rcases u.check.ask (baseMeta, baseTuple, u.rid, u.undoLink) with e | (- | -)
  · exact hthrow _ (by simp)
  · exact hthrow _ (by simp)
  dsimp only
  split_ifs with hdiff
  · refine h.stayUpdate hc (fun l m hm => ?_) (fun _ => trivial) (fun hold => by cases hold)
    cases l <;> exact hm
  · -- the tuple is there already, on a page that nobody writes
    refine h.stayUpdate hc (fun l m hm => ?_) (fun _ => ?_) (fun hold => by cases hold)
    · cases l <;> exact hm
    · have hclean := h.clean_update hc (by simp) rfl
      simp only [isTupleContentEqual, Bool.not_eq_true', decide_eq_false_iff_not, not_or, not_not] at hdiff
      refine hclean.written ?_
      rw [row_of_getTuple hget, hdiff.1, hdiff.2]

theorem nextUpdate_setInfo (h : Inv w₀ s) {u : Update} (hc : s.clients t = ⟨calls, .update u .setInfo⟩) :
    Inv w₀ (nextUpdate s t u .setInfo) := by
  unfold nextUpdate
  dsimp only
  split_ifs with hrange hsize
  · refine h.stayUpdate hc (fun l m hm => ?_) (fun _ => trivial) (fun hold => by cases hold)
    cases l <;> exact hm
  · refine h.stayUpdate hc (fun l m hm => ?_) (fun _ => trivial) (fun hold => by cases hold)
    cases l <;> exact hm
  · refine h.write hc (by simp) (fun q hq => ?_) ⟨h.pointers.bound, h.pointers.inj⟩ (fun l m hm => ?_) ?_ rfl
    · rw [view_setPage, if_neg hq]
    · cases l <;> exact hm
    · have hclean : Clean (Known w₀ s.returns) u.rid.pageId (s.shared.view u.rid.pageId) :=
        h.clean_update hc (by simp) rfl
      rw [view_setPage, if_pos rfl]
      rw [not_not] at hsize
      exact ⟨s.shared.page u.rid.pageId, hclean, not_le.mp hrange, hsize, rfl, rfl⟩

theorem Shared.entry_view_none {w : Shared} {p : Int32} (h : w.versionInfo.lookup p = none) :
    (w.view p).entry = none := by
  simp [Shared.view, h]

theorem Shared.entry_view_some {w : Shared} {p : Int32} {a : ℕ} (h : w.versionInfo.lookup p = some a) :
    ∃ info, (w.view p).entry = some (a, info) := by
  simp [Shared.view, h]

theorem nextUpdate_copyData (h : Inv w₀ s) {u : Update} {offset : ℕ}
    (hc : s.clients t = ⟨calls, .update u (.copyData offset)⟩) : Inv w₀ (nextUpdate s t u (.copyData offset)) := by
  obtain ⟨base, hclean, hslot, hsize, hpage, rfl⟩ := h.ok_update hc
  refine h.write hc (by simp) (fun q hq => ?_) ⟨h.pointers.bound, h.pointers.inj⟩ (fun l m hm => ?_) ?_ rfl
  · rw [view_setPage, if_neg hq]
  · cases l <;> exact hm
  · rw [view_setPage, if_pos rfl]
    have hpage' : s.shared.page u.rid.pageId = slotSet base u := hpage
    rw [hpage']
    exact written_copyData hclean hslot hsize

theorem nextUpdate_find (h : Inv w₀ s) {u : Update} (hc : s.clients t = ⟨calls, .update u .find⟩) :
    Inv w₀ (nextUpdate s t u .find) := by
  unfold nextUpdate
  dsimp only
  cases ha : s.shared.versionInfo.lookup u.rid.pageId with
  | none =>
    refine h.stayUpdate hc (fun l m hm => ?_) (fun hok => ⟨hok, Shared.entry_view_none ha⟩) (fun _ => rfl)
    cases l <;> exact hm
  | some a =>
    refine h.stayUpdate hc (fun l m hm => ?_) (fun hok => ⟨hok, Shared.entry_view_some ha⟩) (fun _ => rfl)
    cases l <;> exact hm

theorem nextUpdate_create (h : Inv w₀ s) {u : Update} (hc : s.clients t = ⟨calls, .update u .create⟩) :
    Inv w₀ (nextUpdate s t u .create) := by
  obtain ⟨hwritten, hentry⟩ := h.ok_update hc
  refine h.write hc (by simp) (fun q hq => ?_) (pointers_create h.pointers _) (fun l m hm => ?_) ?_ rfl
  · rw [view_create h.pointers, if_neg hq]
  · cases l <;> exact hm
  · rw [view_create h.pointers, if_pos rfl]
    refine ⟨Written.create ?_, _, rfl⟩
    rw [← hentry]
    exact hwritten

theorem nextUpdate_setLink (h : Inv w₀ s) {u : Update} {a : ℕ} (hc : s.clients t = ⟨calls, .update u (.setLink a)⟩) :
    Inv w₀ (nextUpdate s t u (.setLink a)) := by
  obtain ⟨hwritten, info, hentry⟩ := h.ok_update hc
  refine h.write hc (by simp) (fun q hq => ?_) ?_ (fun l m hm => ?_) ?_ rfl
  · rw [view_modify h.pointers hentry, if_neg hq]
  · refine ⟨fun p b hb => ?_, h.pointers.inj⟩
    rw [List.length_modify]
    exact h.pointers.bound p b hb
  · cases l <;> exact hm
  · rw [view_modify h.pointers hentry, if_pos rfl]
    refine Written.setLink ?_
    rw [← hentry]
    exact hwritten

theorem nextUpdate_release (h : Inv w₀ s) {u : Update} {answer : Except Exception Bool}
    (hc : s.clients t = ⟨calls, .update u (.release answer)⟩) : Inv w₀ (nextUpdate s t u (.release answer)) := by
  have hmine := h.ok_update hc
  have hsub : s.returns ⊆ (t, .updateTupleAndUndoLink u, .updated answer) :: s.returns := List.subset_cons_self _ _
  refine h.move hc hsub (fun r hr => ?_) (fun q hne => absurd rfl hne) h.pointers (fun l m hm => by cases hm) trivial ?_
  · rcases List.mem_cons.mp hr with rfl | hmem
    · right
      intro rid v hv
      cases hv
    · exact .inl hmem
  · rintro q - (hold | hne)
    · -- only an update that answers `true` was writing
      obtain ⟨rfl, hdirty⟩ := hold
      rcases answer with e | (- | -)
      · cases hdirty
      · cases hdirty
      · exact hmine.1.clean hmine.2 (fun _ _ hv => hv.mono hsub) (.inr List.mem_cons_self)
    · exact absurd rfl hne

/-- A step of an update. -/
theorem nextUpdate_inv (h : Inv w₀ s) {u : Update} {pc : UpdatePc} (hc : s.clients t = ⟨calls, .update u pc⟩) :
    Inv w₀ (nextUpdate s t u pc) := by
  cases pc with
  | acquire =>
    refine h.take hc (fun l m hm => ?_) (fun _ => trivial) (fun q hold => by cases hold.2)
    rcases l with p | _ | b
    · change (if p = u.rid.pageId then some Mode.exclusive else none) = some m at hm
      obtain ⟨rfl, rfl⟩ := eq_of_held hm
      exact .inr ⟨rfl, rfl⟩
    · cases hm
    · cases hm
  | getTuple => exact nextUpdate_getTuple h hc
  | setInfo => exact nextUpdate_setInfo h hc
  | copyData offset => exact nextUpdate_copyData h hc
  | lock =>
    refine h.take hc (fun l m hm => ?_) (fun hok => hok) (fun q hold => ⟨hold.1, rfl⟩)
    rcases l with p | _ | b
    · exact .inl hm
    · cases hm
      exact .inr ⟨rfl, rfl⟩
    · cases hm
  | find => exact nextUpdate_find h hc
  | create => exact nextUpdate_create h hc
  | lockPage a =>
    refine h.take hc (fun l m hm => ?_) (fun hok => hok) (fun q hold => ⟨hold.1, rfl⟩)
    rcases l with p | _ | b
    · exact .inl hm
    · exact .inl hm
    · change (if b = a then some Mode.exclusive else none) = some m at hm
      obtain ⟨rfl, rfl⟩ := eq_of_held hm
      exact .inr ⟨rfl, rfl⟩
  | unlock a =>
    refine h.stayUpdate hc (fun l m hm => ?_) (fun hok => hok) (fun _ => rfl)
    rcases l with p | _ | b
    · exact hm
    · cases hm
    · exact hm
  | setLink a => exact nextUpdate_setLink h hc
  | unlockPage a =>
    refine h.stayUpdate hc (fun l m hm => ?_) (fun hok => hok) (fun _ => rfl)
    rcases l with p | _ | b
    · exact hm
    · cases hm
    · cases hm
  | release answer => exact nextUpdate_release h hc

theorem row_of_info {V : View} {i : ℕ} (hi : i < getNumTuples V.page) (rid : RID) :
    V.row i = some ((tupleInfo V.page i).tupleMeta, (copied V.page rid (tupleInfo V.page i)).data) := if_pos hi

theorem nextGet_getInfo (h : Inv w₀ s) {rid : RID} (hc : s.clients t = ⟨calls, .get rid .getInfo⟩) :
    Inv w₀ (nextGet s t rid .getInfo) := by
  unfold nextGet
  dsimp only
  split_ifs with hrange
  · refine h.stayGet hc (fun l m hm => ?_) (fun _ => trivial)
    cases l <;> exact hm
  · refine h.stayGet hc (fun l m hm => ?_) (fun _ => ⟨not_le.mp hrange, rfl⟩)
    cases l <;> exact hm

theorem nextGet_find (h : Inv w₀ s) {rid : RID} {row : TupleMeta × Tuple}
    (hc : s.clients t = ⟨calls, .get rid (.find row)⟩) : Inv w₀ (nextGet s t rid (.find row)) := by
  unfold nextGet
  dsimp only
  cases ha : s.shared.versionInfo.lookup rid.pageId with
  | none =>
    refine h.stayGet hc (fun l m hm => ?_) (fun hok => ⟨hok, Shared.entry_view_none ha⟩)
    cases l <;> exact hm
  | some a =>
    refine h.stayGet hc (fun l m hm => ?_) (fun hok => ⟨hok, Shared.entry_view_some ha⟩)
    cases l <;> exact hm

theorem nextGet_unlock (h : Inv w₀ s) {rid : RID} {row : TupleMeta × Tuple} {pgVerInfo : Option ℕ}
    (hc : s.clients t = ⟨calls, .get rid (.unlock row pgVerInfo)⟩) :
    Inv w₀ (nextGet s t rid (.unlock row pgVerInfo)) := by
  cases pgVerInfo with
  | none =>
    refine h.stayGet hc (fun l m hm => ?_) ?_
    · rcases l with p | _ | b
      · exact hm
      · cases hm
      · cases hm
    · rintro ⟨hrow, hentry⟩
      show View.version _ _ = _
      unfold View.version
      rw [hrow, View.link, hentry]
      rfl
  | some a =>
    refine h.stayGet hc (fun l m hm => ?_) (fun hok => hok)
    rcases l with p | _ | b
    · exact hm
    · cases hm
    · exact hm

theorem nextGet_getLink (h : Inv w₀ s) {rid : RID} {row : TupleMeta × Tuple} {a : ℕ}
    (hc : s.clients t = ⟨calls, .get rid (.getLink row a)⟩) : Inv w₀ (nextGet s t rid (.getLink row a)) := by
  refine h.stayGet hc (fun l m hm => ?_) ?_
  · cases l <;> exact hm
  · rintro ⟨hrow, info, hentry⟩
    refine ⟨hrow, ?_⟩
    rw [View.link, hentry]
    simp only [Shared.view, Option.map_eq_some_iff, Prod.mk.injEq] at hentry
    obtain ⟨b, -, rfl, hinfo⟩ := hentry
    rw [hinfo]
    rfl

theorem nextGet_unlockPage (h : Inv w₀ s) {rid : RID} {row : TupleMeta × Tuple} {undoLink : Option UndoLink} {a : ℕ}
    (hc : s.clients t = ⟨calls, .get rid (.unlockPage row undoLink a)⟩) :
    Inv w₀ (nextGet s t rid (.unlockPage row undoLink a)) := by
  refine h.stayGet hc (fun l m hm => ?_) ?_
  · rcases l with p | _ | b
    · exact hm
    · cases hm
    · cases hm
  · rintro ⟨hrow, hlink⟩
    show View.version _ _ = _
    unfold View.version
    rw [hrow, hlink]
    rfl

theorem nextGet_release (h : Inv w₀ s) {rid : RID} {answer : Except Exception (TupleMeta × Tuple × Option UndoLink)}
    (hc : s.clients t = ⟨calls, .get rid (.release answer)⟩) : Inv w₀ (nextGet s t rid (.release answer)) := by
  have hmine := h.ok_get hc
  have hsub : s.returns ⊆ (t, .getTupleAndUndoLink rid, .version answer) :: s.returns := List.subset_cons_self _ _
  refine h.move hc hsub (fun r hr => ?_) (fun q hne => absurd rfl hne) h.pointers (fun l m hm => by cases hm) trivial ?_
  · rcases List.mem_cons.mp hr with rfl | hmem
    · right
      intro rid' v hv
      -- the page is still latched, so it is clean
      have hheld : s.holds t (.page rid.pageId) = some .shared := by
        unfold Sys.holds
        rw [hc]
        exact if_pos rfl
      have hclean := h.clean_of_holds (by rw [hheld]; exact nofun) (by rw [hc]; exact id)
      rcases answer with e | ⟨tupleMeta, tuple, undoLink⟩
      · cases hv
      · cases hv
        exact (hclean.known rid.slotNum _ hmine).mono hsub
    · exact .inl hmem
  · rintro q - (hold | hne)
    · cases hold
    · exact absurd rfl hne

/-- A step of a read. -/
theorem nextGet_inv (h : Inv w₀ s) {rid : RID} {pc : GetPc} (hc : s.clients t = ⟨calls, .get rid pc⟩) :
    Inv w₀ (nextGet s t rid pc) := by
  cases pc with
  | acquire =>
    refine h.take hc (fun l m hm => ?_) (fun _ => trivial) (fun q hold => hold)
    rcases l with p | _ | b
    · change (if p = rid.pageId then some Mode.shared else none) = some m at hm
      obtain ⟨rfl, rfl⟩ := eq_of_held hm
      exact .inr ⟨rfl, rfl⟩
    · cases hm
    · cases hm
  | getInfo => exact nextGet_getInfo h hc
  | copyData info =>
    refine h.stayGet hc (fun l m hm => ?_) ?_
    · cases l <;> exact hm
    · rintro ⟨hslot, rfl⟩
      exact row_of_info hslot rid
  | lock row =>
    refine h.take hc (fun l m hm => ?_) (fun hok => hok) (fun q hold => hold)
    rcases l with p | _ | b
    · exact .inl hm
    · cases hm
      exact .inr ⟨rfl, rfl⟩
    · cases hm
  | find row => exact nextGet_find h hc
  | lockPage row a =>
    refine h.take hc (fun l m hm => ?_) (fun hok => hok) (fun q hold => hold)
    rcases l with p | _ | b
    · exact .inl hm
    · exact .inl hm
    · change (if b = a then some Mode.exclusive else none) = some m at hm
      obtain ⟨rfl, rfl⟩ := eq_of_held hm
      exact .inr ⟨rfl, rfl⟩
  | unlock row pgVerInfo => exact nextGet_unlock h hc
  | getLink row a => exact nextGet_getLink h hc
  | unlockPage row undoLink a => exact nextGet_unlockPage h hc
  | release answer => exact nextGet_release h hc

/-- **Step**: every step of every client keeps the invariant. -/
theorem next_inv (h : Inv w₀ s) (t : ι) : Inv w₀ (next s t) := by
  unfold next
  rcases hc : s.clients t with ⟨calls, pc⟩
  cases pc with
  | idle =>
    rcases calls with - | ⟨u | rid, calls⟩
    · exact h
    · exact h.stay hc (fun l m hm => by cases hm) (fun _ => trivial) (fun q hold => by cases hold)
    · exact h.stay hc (fun l m hm => by cases hm) (fun _ => trivial) (fun q hold => hold)
  | update u pc => exact nextUpdate_inv h hc
  | get rid pc => exact nextGet_inv h hc

/-- **Run**. -/
theorem interleave_inv (sched : List ι) (h : Inv w₀ s) : Inv w₀ (interleave s sched) := by
  induction sched generalizing s with
  | nil => exact h
  | cons t sched ih => exact ih (next_inv h t)

end Inv

/-! ## Whole runs -/

section Runs

variable {ι : Type} {w₀ : Shared}

theorem start_inv (hw : w₀.Sound) (prog : ι → List Call) : Inv w₀ (Sys.start w₀ prog) := by
  refine ⟨?_, hw.pointers, fun _ => trivial, ?_, ?_⟩
  · intro t u l _ hheld
    cases hheld
  · intro p _
    exact ⟨hw.stacked p, fun i v hv => .inl hv⟩
  · intro r hr
    cases hr

/-- **No torn version.**  Any number of clients run any calls on pages that `TablePage` made, in any order of their
steps.  Every meta, tuple and link that `GetTupleAndUndoLink` has returned for a RID are those that were stored there at
first, or those that one successful `UpdateTupleAndUndoLink` has stored there. -/
theorem no_torn_version [Fintype ι] [DecidableEq ι] (w₀ : Shared) (hw : w₀.Sound) (prog : ι → List Call)
    (sched : List ι) (rid : RID) (v : Version)
    (hv : (rid, v) ∈ (interleave (Sys.start w₀ prog) sched).returns.filterMap returned) :
    w₀.version rid = some v ∨ (rid, v) ∈ (interleave (Sys.start w₀ prog) sched).returns.filterMap stored := by
  obtain ⟨r, hr, hread⟩ := List.mem_filterMap.mp hv
  exact (interleave_inv sched (start_inv hw prog)).returns r hr rid v hread

/-- The page of `onePage`, and no `PageVersionInfo`. -/
def sharedPage : Shared := ⟨onePage.page, [], ∅⟩

theorem sharedPage_sound : sharedPage.Sound := by
  refine ⟨onePage_stacked, ?_, ?_⟩
  · intro p a ha
    cases ha
  · intro p q a ha
    cases ha

/-- One client changes the tuple and its link while another waits to read them. -/
def twoClients (t : Fin 2) : List Call :=
  if t = 0 then [.updateTupleAndUndoLink ⟨⟨0, 0⟩, some ⟨7, 0⟩, ⟨5, false⟩, ⟨⟨0, 0⟩, [4, 5, 6], by decide⟩, none⟩]
  else [.getTupleAndUndoLink ⟨0, 0⟩]

/-- The clients in turn, and then the second one alone. -/
def inTurn : List (Fin 2) := (List.replicate 14 [(0 : Fin 2), 1]).flatten ++ List.replicate 10 1

theorem no_torn_version_two_clients :
    ((⟨0, 0⟩, ⟨5, false⟩, [4, 5, 6], some ⟨7, 0⟩) : RID × Version) ∈
      (interleave (Sys.start sharedPage twoClients) inTurn).returns.filterMap stored := by
  have hread := no_torn_version sharedPage sharedPage_sound twoClients inTurn ⟨0, 0⟩
    (⟨5, false⟩, [4, 5, 6], some ⟨7, 0⟩) (by decide +kernel)
  exact hread.resolve_left (by decide +kernel)

end Runs

end Journey.Concurrency.Clients
