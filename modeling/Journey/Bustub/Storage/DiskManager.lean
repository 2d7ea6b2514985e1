import Journey.Lib.Bytes
import Journey.Lib.Machine
import Mathlib.Data.List.AList
import Mathlib.Data.List.Perm.Basic

/-!
# Journey.Bustub.Storage.DiskManager — slots of the database file

`DiskManager` keeps each page in a slot of the file: `pages_` maps page ids to offsets, `free_slots_`
holds the offsets of deleted pages.  Every file operation of a call may fail (`Io`).

* `allocatePage`, `writePage`, `readPage`, `deletePage`: the member functions, early returns included.
* `DiskInv`: every slot handed out so far is in `pages_` or in `free_slots_`, and they are exactly the
  first slots of the file.
* `slots_never_shared`: the invariant over runs in which no slot taken from `free_slots_` is lost to an
  early return.
-/

namespace Journey.Disk

/-! ## The disk manager -/

section Model

/-- `BUSTUB_PAGE_SIZE`. -/
def pageSize : ℕ := 8192

/-- `DEFAULT_DB_IO_SIZE`. -/
def defaultDbIoSize : ℕ := 16

/-- The bytes of one page. -/
abbrev Page := { bytes : List UInt8 // bytes.length = pageSize }

/-- A page of zeros. -/
def zeroPage : Page := ⟨List.replicate pageSize 0, List.length_replicate ..⟩

/-- How the file operations of one call turn out: `resize_file` (it throws when it fails), `stat`, and
the transfer of the page (`bad()` when it fails). -/
structure Io where
  resizeOk : Bool
  statOk : Bool
  transferOk : Bool

/-- `pages_`, an `unordered_map` from page ids to offsets. -/
abbrev PageMap := AList fun _ : Int32 => ℕ

/-- The manager and its file.  `freeSlots` lists the vector `free_slots_` from its back; `bad` is the
stream's error state, which nothing resets once it is set. -/
structure DiskManager where
  numWrites : ℕ
  numDeletes : ℕ
  pageCapacity : ℕ
  pages : PageMap
  freeSlots : List ℕ
  file : Mem
  fileSize : ℕ
  bad : Bool

namespace DiskManager

/-- `resize_file`: the file is cut, or filled up with zeros. -/
def resizeFile (d : DiskManager) (size : ℕ) : DiskManager :=
  { d with file := fun i => if i < d.fileSize then d.file i else 0, fileSize := size }

/-- The constructor, on a file with the given contents. -/
def create (file : Mem) (fileSize : ℕ) : DiskManager :=
  resizeFile ⟨0, 0, defaultDbIoSize, ∅, [], file, fileSize, false⟩ ((defaultDbIoSize + 1) * pageSize)

/-- `pages_.size()`. -/
def numPages (d : DiskManager) : ℕ := d.pages.entries.length

/-- `AllocatePage`: no answer when `resize_file` throws, with `page_capacity_` doubled already. -/
def allocatePage (d : DiskManager) (io : Io) : Option ℕ × DiskManager :=
  match d.freeSlots with
  | offset :: freeSlots => (some offset, { d with freeSlots := freeSlots })
  | [] =>
    if d.pageCapacity ≤ d.numPages + 1 then
      let d := { d with pageCapacity := d.pageCapacity * 2 }
      if io.resizeOk then
        (some (d.numPages * pageSize), d.resizeFile ((d.pageCapacity + 1) * pageSize))
      else (none, d)
    else (some (d.numPages * pageSize), d)

/-- The slot of a page: its own, or a new one. -/
def locate (d : DiskManager) (io : Io) (pageId : Int32) : Option ℕ × DiskManager :=
  match d.pages.lookup pageId with
  | some offset => (some offset, d)
  | none => d.allocatePage io

/-- A transfer through the stream `db_io_`. -/
def transfer (d : DiskManager) (io : Io) : DiskManager := { d with bad := d.bad || !io.transferOk }

/-- `WritePage`. -/
def writePage (d : DiskManager) (io : Io) (pageId : Int32) (data : Page) : DiskManager :=
  match d.locate io pageId with
  | (none, d) => d
  | (some offset, d) =>
    let d := d.transfer io
    if d.bad then d
    else
      { d with
        file := store d.file offset data.1
        fileSize := max d.fileSize (offset + pageSize)
        numWrites := d.numWrites + 1
        pages := d.pages.insert pageId offset }

/-- `GetFileSize`: the size as an `int`, or -1. -/
def getFileSize (d : DiskManager) (io : Io) : Int32 := if io.statOk then Int32.ofNat d.fileSize else -1

/-- What `read` at `offset` leaves in the buffer: what the file has, then zeros. -/
def readBytes (d : DiskManager) (offset : ℕ) : List UInt8 :=
  let readCount := min pageSize (d.fileSize - offset)
  load d.file offset readCount ++ List.replicate (pageSize - readCount) 0

/-- `ReadPage`: the filled buffer, or nothing when the call returns early. -/
def readPage (d : DiskManager) (io : Io) (pageId : Int32) : Option (List UInt8) × DiskManager :=
  match d.locate io pageId with
  | (none, d) => (none, d)
  | (some offset, d) =>
    let fileSize := d.getFileSize io
    if fileSize < 0 then (none, d)
    else if fileSize.toNatClampNeg < offset then (none, d)
    else
      let d := { d with pages := d.pages.insert pageId offset }
      let d := d.transfer io
      if d.bad then (none, d) else (some (d.readBytes offset), d)

/-- `DeletePage`. -/
def deletePage (d : DiskManager) (pageId : Int32) : DiskManager :=
  match d.pages.lookup pageId with
  | none => d
  | some offset =>
    { d with
      freeSlots := offset :: d.freeSlots
      pages := d.pages.erase pageId
      numDeletes := d.numDeletes + 1 }

end DiskManager

/-- One call. -/
inductive DiskOp
  | writePage (pageId : Int32) (data : Page)
  | readPage (pageId : Int32)
  | deletePage (pageId : Int32)

/-- Run a call: the buffer a read has filled, and the manager. -/
def applyDiskOp (d : DiskManager) (io : Io) : DiskOp → Option (List UInt8) × DiskManager
  | .writePage pageId data => (none, d.writePage io pageId data)
  | .readPage pageId => d.readPage io pageId
  | .deletePage pageId => (none, d.deletePage pageId)

/-- The manager after a list of calls, each with the outcomes of its file operations. -/
def runDisk (d : DiskManager) (calls : List (Io × DiskOp)) : DiskManager :=
  calls.foldl (fun d call => (applyDiskOp d call.1 call.2).2) d

end Model

/-! ## The invariant -/

section Invariant

variable {d : DiskManager} {p : Int32} {offset : ℕ} {io : Io}

/-- The offsets recorded in `pages_`. -/
def offsets (pages : PageMap) : List ℕ := pages.entries.map Sigma.snd

/-- Every slot handed out: used by a page, or free. -/
def slots (d : DiskManager) : List ℕ := offsets d.pages ++ d.freeSlots

/-- The slots handed out are the first ones of the file, each once, and there is room for one more. -/
structure DiskInv (d : DiskManager) : Prop where
  perm : (slots d).Perm ((List.range (slots d).length).map (· * pageSize))
  room : (slots d).length < d.pageCapacity

/-- Two pages never share a slot, no used slot is free, no slot is free twice, and every slot lies
within the capacity of the file. -/
structure SlotsApart (d : DiskManager) : Prop where
  distinct : ∀ p q a b, d.pages.lookup p = some a → d.pages.lookup q = some b → p ≠ q → a ≠ b
  notFree : ∀ p a, d.pages.lookup p = some a → a ∉ d.freeSlots
  freeNodup : d.freeSlots.Nodup
  inFile : ∀ a ∈ slots d, a + pageSize ≤ d.pageCapacity * pageSize

theorem mem_offsets (h : d.pages.lookup p = some offset) : offset ∈ offsets d.pages :=
  List.mem_map.mpr ⟨⟨p, offset⟩, AList.mem_lookup_iff.mp h, rfl⟩

theorem DiskInv.nodup (h : DiskInv d) : (slots d).Nodup := by
  refine h.perm.nodup_iff.mpr ?_
  refine List.nodup_range.map ?_
  intro i j hij
  unfold pageSize at hij
  dsimp only at hij
  omega

theorem DiskInv.slot_lt (h : DiskInv d) {a : ℕ} (ha : a ∈ slots d) :
    ∃ i < (slots d).length, a = i * pageSize := by
  obtain ⟨i, hi, rfl⟩ := List.mem_map.mp (h.perm.mem_iff.mp ha)
  exact ⟨i, List.mem_range.mp hi, rfl⟩

/-- The entry of a page, in front of the others. -/
theorem entries_perm (h : d.pages.lookup p = some offset) :
    (d.pages.entries).Perm (⟨p, offset⟩ :: (d.pages.erase p).entries) := by
  obtain ⟨b, l₁, l₂, hnot, hl, herase⟩ := List.exists_of_kerase
    (AList.mem_keys.mp (AList.lookup_isSome.mp (by rw [h]; rfl)))
  have hb : b = offset := by
    have hmem : (⟨p, b⟩ : Sigma fun _ : Int32 => ℕ) ∈ d.pages.entries := by
      rw [hl]
      exact List.mem_append_right _ (List.mem_cons_self ..)
    have hlook := AList.mem_lookup_iff.mpr hmem
    rw [h] at hlook
    exact (Option.some.inj hlook).symm
  subst hb
  show List.Perm _ (_ :: List.kerase p d.pages.entries)
  rw [herase, hl]
  exact List.perm_middle

theorem DiskInv.slotsApart (h : DiskInv d) : SlotsApart d := by
  have hnodup := List.nodup_append.mp h.nodup
  refine ⟨?_, ?_, hnodup.2.1, ?_⟩
  · intro p q a b hp hq hpq
    -- take `p`'s entry out; `q`'s is among the others
    have hperm := (entries_perm hp).map Sigma.snd
    have hcons : (a :: offsets (d.pages.erase p)).Nodup := hperm.nodup_iff.mp hnodup.1
    have hqmem : b ∈ offsets (d.pages.erase p) := by
      refine List.mem_map.mpr ⟨⟨q, b⟩, AList.mem_lookup_iff.mp ?_, rfl⟩
      rw [Option.mem_def, AList.lookup_erase_ne (Ne.symm hpq)]
      exact hq
    rintro rfl
    exact (List.nodup_cons.mp hcons).1 hqmem
  · intro p a hp hfree
    exact hnodup.2.2 a (mem_offsets hp) a hfree rfl
  · intro a ha
    obtain ⟨i, hi, rfl⟩ := h.slot_lt ha
    have hroom := h.room
    unfold pageSize
    omega

theorem diskInv_create (file : Mem) (fileSize : ℕ) : DiskInv (.create file fileSize) := by
  refine ⟨List.Perm.refl _, ?_⟩
  show 0 < 16
  omega

/-- Slots that are only moved between `pages_` and `free_slots_`. -/
theorem DiskInv.of_perm {d' : DiskManager} (h : DiskInv d) (hperm : (slots d').Perm (slots d))
    (hcap : d.pageCapacity ≤ d'.pageCapacity) : DiskInv d' := by
  have hlen := hperm.length_eq
  refine ⟨?_, ?_⟩
  · rw [hlen]
    exact hperm.trans h.perm
  · have := h.room
    omega

end Invariant

/-! ## One call -/

section Calls

variable {d d' : DiskManager} {p : Int32} {offset : ℕ} {io : Io}

/-- What `AllocatePage` does when no slot is free. -/
theorem allocatePage_append (io : Io) (hfree : d.freeSlots = []) (h : DiskInv d) :
    ∃ o d', d.allocatePage io = (o, d') ∧ d'.pages = d.pages ∧ d'.freeSlots = [] ∧
      d.pageCapacity ≤ d'.pageCapacity ∧ d'.bad = d.bad ∧
      ∀ offset, o = some offset → offset = d.numPages * pageSize ∧ d.numPages + 1 < d'.pageCapacity := by
  have hslots : (slots d).length = d.numPages := by
    unfold slots offsets DiskManager.numPages
    rw [hfree, List.append_nil, List.length_map]
  have hroom := h.room
  unfold DiskManager.allocatePage
  rw [hfree]
  dsimp only
  by_cases hgrow : d.pageCapacity ≤ d.numPages + 1
  · rw [if_pos hgrow]
    cases hresize : io.resizeOk with
    | true =>
      rw [if_pos rfl]
      refine ⟨_, _, rfl, rfl, rfl, ?_, rfl, ?_⟩
      · show d.pageCapacity ≤ d.pageCapacity * 2
        omega
      · rintro offset heq
        refine ⟨(Option.some.inj heq).symm, ?_⟩
        show d.numPages + 1 < d.pageCapacity * 2
        omega
    | false =>
      rw [if_neg Bool.false_ne_true]
      refine ⟨_, _, rfl, rfl, rfl, ?_, rfl, nofun⟩
      show d.pageCapacity ≤ d.pageCapacity * 2
      omega
  · rw [if_neg hgrow]
    refine ⟨_, _, rfl, rfl, hfree, le_refl _, rfl, ?_⟩
    rintro offset heq
    refine ⟨(Option.some.inj heq).symm, ?_⟩
    omega

/-- **What `locate` can do**: answer the page's own slot, take one that was free, or append one (which may
throw). -/
theorem locate_cases {o : Option ℕ} (h : DiskInv d) (hloc : d.locate io p = (o, d')) :
    (∃ a, d.pages.lookup p = some a ∧ o = some a ∧ d' = d) ∨
    (p ∉ d.pages ∧ ∃ a rest, d.freeSlots = a :: rest ∧ o = some a ∧ d' = { d with freeSlots := rest }) ∨
    (p ∉ d.pages ∧ d.freeSlots = [] ∧ d'.pages = d.pages ∧ d'.freeSlots = [] ∧
      d.pageCapacity ≤ d'.pageCapacity ∧ d'.bad = d.bad ∧
      ∀ offset, o = some offset → offset = d.numPages * pageSize ∧ d.numPages + 1 < d'.pageCapacity) := by
  unfold DiskManager.locate at hloc
  cases hlook : d.pages.lookup p with
  | some a =>
    rw [hlook] at hloc
    cases hloc
    exact .inl ⟨a, rfl, rfl, rfl⟩
  | none =>
    rw [hlook] at hloc
    dsimp only at hloc
    have hnot : p ∉ d.pages := AList.lookup_eq_none.mp hlook
    cases hfree : d.freeSlots with
    | cons a rest =>
      unfold DiskManager.allocatePage at hloc
      rw [hfree] at hloc
      cases hloc
      exact .inr (.inl ⟨hnot, a, rest, rfl, rfl, rfl⟩)
    | nil =>
      obtain ⟨o', d'', heq, hspec⟩ := allocatePage_append io hfree h
      rw [heq] at hloc
      cases hloc
      exact .inr (.inr ⟨hnot, rfl, hspec⟩)

/-- **A located slot is recorded**: the page's own, one that was free, or the next one of the file. -/
theorem recorded_inv (h : DiskInv d) (hloc : d.locate io p = (some offset, d')) :
    DiskInv { d' with pages := d'.pages.insert p offset } := by
  rcases locate_cases h hloc with ⟨a, hlook, ho, rfl⟩ | ⟨hnot, a, rest, hfree, ho, rfl⟩ |
    ⟨hnot, hfree, hpages, hnil, -, -, hsome⟩
  · cases ho
    refine h.of_perm ?_ (le_refl _)
    show ((offset :: (d'.pages.erase p).entries.map Sigma.snd) ++ d'.freeSlots).Perm (slots d')
    exact ((entries_perm hlook).map Sigma.snd).symm.append_right _
  · cases ho
    refine h.of_perm ?_ (le_refl _)
    unfold slots offsets
    dsimp only
    rw [AList.entries_insert_of_notMem hnot, hfree]
    exact List.perm_middle.symm
  · obtain ⟨rfl, hcap⟩ := hsome offset rfl
    -- the new slot is the next one of the file
    have hlen : (slots d).length = d.numPages := by
      unfold slots offsets DiskManager.numPages
      rw [hfree, List.append_nil, List.length_map]
    have hslots : slots { d' with pages := d'.pages.insert p (d.numPages * pageSize) } =
        d.numPages * pageSize :: slots d := by
      unfold slots offsets
      dsimp only
      rw [hpages, AList.entries_insert_of_notMem hnot, hnil, hfree, List.map_cons, List.cons_append]
    refine ⟨?_, ?_⟩
    · rw [hslots, List.length_cons, List.range_succ, List.map_append, List.map_singleton, hlen]
      refine (List.Perm.cons _ (hlen ▸ h.perm)).trans ?_
      exact (List.perm_append_singleton _ _).symm
    · rw [hslots, List.length_cons, hlen]
      exact hcap

/-- **A located slot is not recorded**: nothing is lost unless it was taken from `free_slots_`. -/
theorem unrecorded_inv {o : Option ℕ} (h : DiskInv d) (hloc : d.locate io p = (o, d'))
    (hkeep : p ∉ d.pages → ∀ a rest, d.freeSlots = a :: rest → o = some a →
      d' ≠ { d with freeSlots := rest }) : DiskInv d' := by
  rcases locate_cases h hloc with ⟨a, hlook, ho, rfl⟩ | ⟨hnot, a, rest, hfree, ho, rfl⟩ |
    ⟨hnot, hfree, hpages, hnil, hcap, -, -⟩
  · exact h
  · exact absurd rfl (hkeep hnot a rest hfree ho)
  · refine h.of_perm ?_ hcap
    unfold slots
    rw [hpages, hnil, hfree]

theorem locate_bad {o : Option ℕ} (h : DiskInv d) (hloc : d.locate io p = (o, d')) : d'.bad = d.bad := by
  rcases locate_cases h hloc with ⟨a, -, -, rfl⟩ | ⟨-, a, rest, -, -, rfl⟩ | ⟨-, -, -, -, -, hbad, -⟩
  · rfl
  · rfl
  · exact hbad

/-- A call that takes its slot from `free_slots_` does not return early: its write goes through, or
for a read the file size is known, not negative as an `int`, and not below the slot. -/
def KeepsSlot (d : DiskManager) (io : Io) : DiskOp → Prop
  | .writePage p _ => p ∉ d.pages → d.freeSlots ≠ [] → d.bad = false ∧ io.transferOk = true
  | .readPage p => p ∉ d.pages → ∀ a ∈ d.freeSlots.head?,
      0 ≤ d.getFileSize io ∧ a ≤ (d.getFileSize io).toNatClampNeg
  | .deletePage _ => True

theorem writePage_inv (data : Page) (h : DiskInv d) (hk : KeepsSlot d io (.writePage p data)) :
    DiskInv (d.writePage io p data) := by
  unfold DiskManager.writePage
  cases hloc : d.locate io p with
  | mk o d' =>
    cases o with
    | none => exact unrecorded_inv h hloc nofun
    | some offset =>
      dsimp only
      by_cases hbad : (d'.transfer io).bad
      · rw [if_pos hbad]
        have hinv : DiskInv d' := by
          refine unrecorded_inv h hloc ?_
          intro hnot a rest hfree _ _
          obtain ⟨hb, ht⟩ := hk hnot (by rw [hfree]; exact List.cons_ne_nil _ _)
          unfold DiskManager.transfer at hbad
          rw [locate_bad h hloc, hb, ht] at hbad
          cases hbad
        exact hinv.of_perm (List.Perm.refl _) (le_refl _)
      · rw [if_neg hbad]
        exact (recorded_inv h hloc).of_perm (List.Perm.refl _) (le_refl _)

theorem readPage_inv (h : DiskInv d) (hk : KeepsSlot d io (.readPage p)) :
    DiskInv (d.readPage io p).2 := by
  unfold DiskManager.readPage
  cases hloc : d.locate io p with
  | mk o d' =>
    cases o with
    | none => exact unrecorded_inv h hloc nofun
    | some offset =>
      dsimp only
      -- an early return before the slot is recorded
      have hearly : (d'.getFileSize io < 0 ∨ (d'.getFileSize io).toNatClampNeg < offset) → DiskInv d' := by
        intro hret
        refine unrecorded_inv h hloc ?_
        rintro hnot a rest hfree ⟨⟩ rfl
        obtain ⟨hsize, hle⟩ := hk hnot offset (by rw [hfree]; rfl)
        rcases hret with hneg | hpast
        · exact absurd hneg (Int32.not_lt.mpr hsize)
        · exact absurd hpast (Nat.not_lt.mpr hle)
      split_ifs with hneg hpast hbad
      · exact hearly (.inl hneg)
      · exact hearly (.inr hpast)
      · exact (recorded_inv h hloc).of_perm (List.Perm.refl _) (le_refl _)
      · exact (recorded_inv h hloc).of_perm (List.Perm.refl _) (le_refl _)

theorem deletePage_inv (h : DiskInv d) : DiskInv (d.deletePage p) := by
  unfold DiskManager.deletePage
  cases hlook : d.pages.lookup p with
  | none => exact h
  | some a =>
    refine h.of_perm ?_ (le_refl _)
    show ((d.pages.erase p).entries.map Sigma.snd ++ a :: d.freeSlots).Perm (slots d)
    refine List.perm_middle.trans ?_
    exact ((entries_perm hlook).map Sigma.snd).symm.append_right _

/-- **Step**: a call that loses no free slot keeps the invariant. -/
theorem applyDiskOp_inv (op : DiskOp) (h : DiskInv d) (hk : KeepsSlot d io op) :
    DiskInv (applyDiskOp d io op).2 := by
  cases op with
  | writePage p data => exact writePage_inv data h hk
  | readPage p => exact readPage_inv h hk
  | deletePage p => exact deletePage_inv h

end Calls

/-! ## Runs -/

section Runs

/-- **Slots of the database file.**  In every run whose calls do not return early with a slot taken
from `free_slots_`, whatever else fails, every state reached keeps the pages' slots apart from each
other and from the free ones, and inside the file. -/
theorem slots_never_shared (file : Mem) (fileSize : ℕ) (calls : List (Io × DiskOp))
    (hkeep : ∀ pre call post, calls = pre ++ call :: post →
      KeepsSlot (runDisk (.create file fileSize) pre) call.1 call.2) :
    ∀ pre post, calls = pre ++ post → SlotsApart (runDisk (.create file fileSize) pre) := by
  intro pre post heq
  refine DiskInv.slotsApart ?_
  refine foldl_along (P := fun d call => KeepsSlot d call.1 call.2) DiskInv
    (fun d call h hk => applyDiskOp_inv call.2 h hk) pre _ (diskInv_create file fileSize) ?_
  intro pre' call post' hpre
  exact hkeep pre' call (post' ++ post) (by rw [heq, hpre, List.append_assoc, List.cons_append])

/-- Nothing fails. -/
def allOk : Io := ⟨true, true, true⟩

/-- Pages 0, 1 and 2 are written and page 0 is deleted.  Reading page 3 takes the free slot, and the
call returns early because `stat` fails: the slot is lost, and page 4 gets the slot of page 2. -/
theorem lost_slot_shares :
    (runDisk (.create (fun _ => 0) 0) [(allOk, .writePage 0 zeroPage), (allOk, .writePage 1 zeroPage),
      (allOk, .writePage 2 zeroPage), (allOk, .deletePage 0), (⟨true, false, true⟩, .readPage 3),
      (allOk, .writePage 4 zeroPage)]).pages.lookup 2 = some 16384 ∧
    (runDisk (.create (fun _ => 0) 0) [(allOk, .writePage 0 zeroPage), (allOk, .writePage 1 zeroPage),
      (allOk, .writePage 2 zeroPage), (allOk, .deletePage 0), (⟨true, false, true⟩, .readPage 3),
      (allOk, .writePage 4 zeroPage)]).pages.lookup 4 = some 16384 := by
  constructor
  · decide +kernel
  · decide +kernel

/-- Page 0 is written and deleted, and its slot is used again. -/
theorem slots_never_shared_reuse :
    SlotsApart (runDisk (.create (fun _ => 0) 0) [(allOk, .writePage 0 zeroPage),
      (allOk, .deletePage 0), (allOk, .writePage 1 zeroPage)]) := by
  refine slots_never_shared (fun _ => 0) 0 _ ?_ _ [] (List.append_nil _).symm
  intro pre call post heq
  rcases pre with _ | ⟨a, _ | ⟨b, _ | ⟨c, pre⟩⟩⟩
  · cases heq
    exact fun _ hfree => absurd rfl hfree
  · cases heq
    trivial
  · cases heq
    intro _ _
    exact ⟨by decide +kernel, rfl⟩
  · simp at heq

end Runs

end Journey.Disk
