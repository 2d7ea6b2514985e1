import Journey.Bustub.Storage.DiskManager

/-!
# Journey.Bustub.Storage.DiskManagerMemory — the file and the memory disk agree

`DiskManagerUnlimitedMemory` keeps the pages in a vector indexed by page id and ignores deletions.

* `lastWrite p hist`: what a disk should hold for page `p`, given the calls so far.
* `FileRep`, `MemRep`: each manager holds the last write of every live page.
* `fileStep_rep`, `memStep_rep`: one call keeps that and answers the last write.
* `disks_agree`: both managers fill every read buffer with the bytes of the last write.
-/

namespace Journey.Disk

/-! ## The memory disk -/

section Model

/-- How a call on the memory disk can end the process. -/
inductive MemFault
  | terminate
  | signedOverflow
deriving DecidableEq, Repr

/-- `DiskManagerUnlimitedMemory`: `data_`, with a null pointer where no page was touched. -/
structure DiskManagerUnlimitedMemory where
  numWrites : ℕ
  data : List (Option Page)

namespace DiskManagerUnlimitedMemory

/-- The constructor. -/
def create : DiskManagerUnlimitedMemory := ⟨0, List.replicate (defaultDbIoSize + 1) (some zeroPage)⟩

/-- Make `data_[page_id]` a page: the vector is grown and a null pointer replaced. -/
def touch (data : List (Option Page)) (pageId : Int32) : Except MemFault (Page × List (Option Page)) :=
  let i := pageId.toNatClampNeg
  if pageId < 0 then .error .terminate
  else if data.length ≤ i ∧ pageId = Int32.maxValue then .error .signedOverflow
  else
    let data := data ++ List.replicate (i + 1 - data.length) none
    match data[i]? with
    | some (some page) => .ok (page, data)
    | _ => .ok (zeroPage, data.set i (some zeroPage))

/-- `WritePage`. -/
def writePage (m : DiskManagerUnlimitedMemory) (pageId : Int32) (page : Page) :
    Except MemFault DiskManagerUnlimitedMemory := do
  let (_, data) ← touch m.data pageId
  return ⟨m.numWrites + 1, data.set pageId.toNatClampNeg (some page)⟩

/-- `ReadPage`. -/
def readPage (m : DiskManagerUnlimitedMemory) (pageId : Int32) :
    Except MemFault (Page × DiskManagerUnlimitedMemory) := do
  let (page, data) ← touch m.data pageId
  return (page, { m with data := data })

/-- `DeletePage`. -/
def deletePage (m : DiskManagerUnlimitedMemory) (_pageId : Int32) : DiskManagerUnlimitedMemory := m

end DiskManagerUnlimitedMemory

/-- One call on the memory disk: the buffer a read has filled. -/
def memStep (m : DiskManagerUnlimitedMemory) :
    DiskOp → Except MemFault (Option (List UInt8) × DiskManagerUnlimitedMemory)
  | .writePage pageId page => do
    let m ← m.writePage pageId page
    return (none, m)
  | .readPage pageId => do
    let (page, m) ← m.readPage pageId
    return (some page.1, m)
  | .deletePage pageId => .ok (none, m.deletePage pageId)

/-- One call on the file disk, with nothing failing. -/
def fileStep (d : DiskManager) (op : DiskOp) : Except MemFault (Option (List UInt8) × DiskManager) :=
  .ok (applyDiskOp d ⟨true, true, true⟩ op)

end Model

/-! ## What a disk should hold -/

section LastWrite

/-- The page id of a call. -/
def DiskOp.pageId : DiskOp → Int32
  | .writePage p _ => p
  | .readPage p => p
  | .deletePage p => p

/-- The call writes or deletes page `p`. -/
def DiskOp.Changes (p : Int32) : DiskOp → Prop
  | .writePage q _ => q = p
  | .readPage _ => False
  | .deletePage q => q = p

/-- The last write of page `p` that was not deleted, in a history listed from its end. -/
def lastWrite (p : Int32) : List DiskOp → Option Page
  | [] => none
  | .writePage q page :: hist => if q = p then some page else lastWrite p hist
  | .deletePage q :: hist => if q = p then none else lastWrite p hist
  | .readPage _ :: hist => lastWrite p hist

/-- The buffers that the reads of `ops` should fill after the history `hist`. -/
def expected : List DiskOp → List DiskOp → List (Option (List UInt8))
  | _, [] => []
  | hist, .readPage p :: ops => (lastWrite p hist).map Subtype.val :: expected (.readPage p :: hist) ops
  | hist, op :: ops => none :: expected (op :: hist) ops

variable {p : Int32} {hist ops : List DiskOp}

theorem lastWrite_of_unchanged {op : DiskOp} (h : ¬ op.Changes p) :
    lastWrite p (op :: hist) = lastWrite p hist := by
  cases op with
  | writePage q page => exact if_neg h
  | readPage q => rfl
  | deletePage q => exact if_neg h

theorem lastWrite_append {b : List DiskOp} (h : ∀ op ∈ b, ¬ op.Changes p) :
    lastWrite p (b ++ hist) = lastWrite p hist := by
  induction b with
  | nil => rfl
  | cons op b ih =>
    rw [List.cons_append, lastWrite_of_unchanged (h op (List.mem_cons_self ..))]
    exact ih fun op' hop => h op' (List.mem_cons_of_mem _ hop)

/-- A page that was written and not deleted since has a last write. -/
theorem lastWrite_isSome {b : List DiskOp} (hb : ∀ q, .deletePage q ∈ b → q ≠ p)
    (h : (lastWrite p hist).isSome = true) : (lastWrite p (b ++ hist)).isSome = true := by
  induction b with
  | nil => exact h
  | cons op b ih =>
    have ih' := ih fun q hq => hb q (List.mem_cons_of_mem _ hq)
    rw [List.cons_append]
    by_cases hop : op.Changes p
    · cases op with
      | writePage q page =>
        have hq : q = p := hop
        rw [lastWrite, if_pos hq]
        rfl
      | readPage q => exact ih'
      | deletePage q => exact absurd hop (hb q (List.mem_cons_self ..))
    · rw [lastWrite_of_unchanged hop]
      exact ih'

theorem expected_cons (hist ops : List DiskOp) (op : DiskOp) :
    ∃ o, expected hist (op :: ops) = o :: expected (op :: hist) ops := by
  cases op with
  | writePage q page => exact ⟨_, rfl⟩
  | readPage q => exact ⟨_, rfl⟩
  | deletePage q => exact ⟨_, rfl⟩

/-- The buffer of a read in the middle of a run. -/
theorem getElem?_expected {post : List DiskOp} : ∀ (pre : List DiskOp) {hist : List DiskOp},
    (expected hist (pre ++ .readPage p :: post))[pre.length]? =
      some ((lastWrite p (pre.reverse ++ hist)).map Subtype.val)
  | [], _ => rfl
  | op :: pre, hist => by
    obtain ⟨o, ho⟩ := expected_cons hist (pre ++ .readPage p :: post) op
    rw [List.cons_append, ho, List.length_cons, List.getElem?_cons_succ, getElem?_expected pre,
      List.reverse_cons, List.append_assoc]
    rfl

end LastWrite

/-! ## The file disk -/

section File

variable {d : DiskManager} {p : Int32} {hist : List DiskOp}

/-- The file disk holds the last write of every live page, and its file has the size it was given. -/
structure FileRep (d : DiskManager) (hist : List DiskOp) : Prop where
  inv : DiskInv d
  bad : d.bad = false
  size : d.fileSize = (d.pageCapacity + 1) * pageSize
  live : ∀ p page, lastWrite p hist = some page →
    ∃ offset, d.pages.lookup p = some offset ∧ load d.file offset pageSize = page.1

/-- Slots of the file are a page long and a page apart. -/
theorem slots_apart (h : DiskInv d) {a b : ℕ} (ha : a ∈ slots d) (hb : b ∈ slots d) (hab : a ≠ b) :
    Apart a pageSize b pageSize := by
  obtain ⟨i, -, rfl⟩ := h.slot_lt ha
  obtain ⟨j, -, rfl⟩ := h.slot_lt hb
  unfold Apart pageSize
  unfold pageSize at hab
  omega

/-- With nothing failing a slot is found, and the file keeps what it has. -/
theorem locate_ok (h : FileRep d hist) (p : Int32) :
    ∃ offset d', d.locate ⟨true, true, true⟩ p = (some offset, d') ∧ d'.pages = d.pages ∧
      d'.bad = false ∧ d'.fileSize = (d'.pageCapacity + 1) * pageSize ∧
      ∀ i < d.fileSize, d'.file i = d.file i := by
  unfold DiskManager.locate
  cases hlook : d.pages.lookup p with
  | some offset => exact ⟨offset, d, rfl, rfl, h.bad, h.size, fun _ _ => rfl⟩
  | none =>
    unfold DiskManager.allocatePage
    cases hfree : d.freeSlots with
    | cons offset rest => exact ⟨offset, _, rfl, rfl, h.bad, h.size, fun _ _ => rfl⟩
    | nil =>
      dsimp only
      by_cases hgrow : d.pageCapacity ≤ d.numPages + 1
      · rw [if_pos hgrow, if_pos rfl]
        refine ⟨_, _, rfl, rfl, h.bad, rfl, ?_⟩
        intro i hi
        exact if_pos hi
      · rw [if_neg hgrow]
        exact ⟨_, _, rfl, rfl, h.bad, h.size, fun _ _ => rfl⟩

theorem writePage_eq {d' : DiskManager} {offset : ℕ} (page : Page)
    (hloc : d.locate ⟨true, true, true⟩ p = (some offset, d')) (hbad : d'.bad = false) :
    d.writePage ⟨true, true, true⟩ p page =
      { d' with
        file := store d'.file offset page.1
        fileSize := max d'.fileSize (offset + pageSize)
        numWrites := d'.numWrites + 1
        pages := d'.pages.insert p offset
        bad := false } := by
  unfold DiskManager.writePage DiskManager.transfer
  rw [hloc]
  dsimp only
  rw [hbad]
  rfl

/-- **`WritePage`** stores the page in a slot of its own. -/
theorem writePage_rep (h : FileRep d hist) (p : Int32) (page : Page) :
    FileRep (d.writePage ⟨true, true, true⟩ p page) (.writePage p page :: hist) := by
  obtain ⟨offset, d', hloc, hpages, hbad, hsize, hfile⟩ := locate_ok h p
  have hrec := recorded_inv h.inv hloc
  have hapart := hrec.slotsApart
  have hself : (d'.pages.insert p offset).lookup p = some offset := AList.lookup_insert _
  have hmem : offset ∈ slots { d' with pages := d'.pages.insert p offset } :=
    List.mem_append_left _ (mem_offsets hself)
  have hin := hapart.inFile offset hmem
  dsimp only at hin
  rw [writePage_eq page hloc hbad]
  refine ⟨hrec.of_perm (List.Perm.refl _) (le_refl _), rfl, ?_, ?_⟩
  · show max d'.fileSize (offset + pageSize) = (d'.pageCapacity + 1) * pageSize
    rw [hsize, Nat.add_mul, Nat.one_mul]
    refine Nat.max_eq_left ?_
    omega
  · intro q old hq
    show ∃ a, (d'.pages.insert p offset).lookup q = some a ∧
      load (store d'.file offset page.1) a pageSize = old.1
    by_cases hqp : p = q
    · subst hqp
      rw [lastWrite, if_pos rfl] at hq
      cases hq
      have hload : load (store d'.file offset page.1) offset page.1.length = page.1 := load_store
      rw [page.2] at hload
      exact ⟨offset, hself, hload⟩
    · rw [lastWrite, if_neg hqp] at hq
      obtain ⟨a, ha, hload⟩ := h.live q old hq
      have hlook : (d'.pages.insert p offset).lookup q = some a := by
        rw [AList.lookup_insert_ne (Ne.symm hqp), hpages]
        exact ha
      refine ⟨a, hlook, ?_⟩
      have hne : offset ≠ a := hapart.distinct p q offset a hself hlook hqp
      have hap := slots_apart hrec hmem (List.mem_append_left _ (mem_offsets hlook)) hne
      rw [load_store_apart (by rw [page.2]; exact hap), ← hload]
      -- the old page lies within the old file
      refine load_congr ?_
      intro i _ hi
      refine hfile i ?_
      have hold := h.inv.slotsApart.inFile a (List.mem_append_left _ (mem_offsets ha))
      rw [h.size, Nat.add_mul, Nat.one_mul]
      omega

/-- **`ReadPage`** of a live page answers its last write. -/
theorem readPage_rep (h : FileRep d hist) {page : Page} (hlive : lastWrite p hist = some page)
    (hsmall : d.fileSize < 2 ^ 31) :
    ∃ d', d.readPage ⟨true, true, true⟩ p = (some page.1, d') ∧ FileRep d' (.readPage p :: hist) := by
  obtain ⟨offset, hlook, hload⟩ := h.live p page hlive
  have hloc : d.locate ⟨true, true, true⟩ p = (some offset, d) := by
    unfold DiskManager.locate
    rw [hlook]
  have hin := h.inv.slotsApart.inFile offset (List.mem_append_left _ (mem_offsets hlook))
  have hroom : offset + pageSize ≤ d.fileSize := by
    rw [h.size, Nat.add_mul, Nat.one_mul]
    omega
  have hnat : (Int32.ofNat d.fileSize).toNatClampNeg = d.fileSize := Int32.toNatClampNeg_ofNat_of_lt hsmall
  have hneg : ¬ Int32.ofNat d.fileSize < 0 := int32_ofNat_not_neg hsmall
  have hbytes : d.readBytes offset = page.1 := by
    unfold DiskManager.readBytes
    dsimp only
    rw [Nat.min_eq_left (by omega), Nat.sub_self, List.replicate_zero, List.append_nil, hload]
  have heq : d.readPage ⟨true, true, true⟩ p =
      (some page.1, { d with pages := d.pages.insert p offset }) := by
    unfold DiskManager.readPage DiskManager.getFileSize DiskManager.transfer
    rw [hloc]
    dsimp only
    rw [if_pos rfl, if_neg hneg, hnat, if_neg (by omega), h.bad, ← hbytes]
    rfl
  refine ⟨_, heq, recorded_inv h.inv hloc, h.bad, h.size, ?_⟩
  intro q old hq
  obtain ⟨a, ha, hold⟩ := h.live q old hq
  refine ⟨a, ?_, hold⟩
  show (d.pages.insert p offset).lookup q = some a
  by_cases hqp : q = p
  · subst hqp
    rw [hlook] at ha
    rw [AList.lookup_insert, ha]
  · rw [AList.lookup_insert_ne hqp]
    exact ha

/-- **`DeletePage`** frees the slot and leaves the other pages. -/
theorem deletePage_rep (h : FileRep d hist) (p : Int32) :
    FileRep (d.deletePage p) (.deletePage p :: hist) := by
  have hinv := deletePage_inv h.inv (p := p)
  unfold DiskManager.deletePage at *
  cases hlook : d.pages.lookup p with
  | none =>
    refine ⟨h.inv, h.bad, h.size, ?_⟩
    intro q old hq
    by_cases hpq : p = q
    · rw [lastWrite, if_pos hpq] at hq
      cases hq
    · rw [lastWrite, if_neg hpq] at hq
      exact h.live q old hq
  | some offset =>
    rw [hlook] at hinv
    refine ⟨hinv, h.bad, h.size, ?_⟩
    intro q old hq
    by_cases hpq : p = q
    · rw [lastWrite, if_pos hpq] at hq
      cases hq
    · rw [lastWrite, if_neg hpq] at hq
      obtain ⟨a, ha, hold⟩ := h.live q old hq
      refine ⟨a, ?_, hold⟩
      show (d.pages.erase p).lookup q = some a
      rw [AList.lookup_erase_ne (Ne.symm hpq)]
      exact ha

theorem fileRep_create (file : Mem) (fileSize : ℕ) : FileRep (.create file fileSize) [] :=
  ⟨diskInv_create file fileSize, rfl, rfl, nofun⟩

end File

/-! ## The memory disk -/

section Memory

variable {m : DiskManagerUnlimitedMemory} {p : Int32} {hist : List DiskOp}

/-- A page id from 0 to `2^31 - 2`. -/
def ValidId (p : Int32) : Prop := 0 ≤ p ∧ p ≠ Int32.maxValue

instance (p : Int32) : Decidable (ValidId p) := inferInstanceAs (Decidable (0 ≤ p ∧ p ≠ Int32.maxValue))

/-- The memory disk holds the last write of every page. -/
def MemRep (m : DiskManagerUnlimitedMemory) (hist : List DiskOp) : Prop :=
  ∀ p page, 0 ≤ p → lastWrite p hist = some page → m.data[p.toNatClampNeg]? = some (some page)

theorem toNatClampNeg_inj {p q : Int32} (hp : 0 ≤ p) (hq : 0 ≤ q)
    (h : p.toNatClampNeg = q.toNatClampNeg) : p = q := by
  rw [← Int32.ofNat_toNatClampNeg p hp, h, Int32.ofNat_toNatClampNeg q hq]

/-- The entry of the page is there, and every page that was there still is. -/
theorem touch_spec (data : List (Option Page)) (hp : ValidId p) :
    ∃ page data', DiskManagerUnlimitedMemory.touch data p = .ok (page, data') ∧
      data'[p.toNatClampNeg]? = some (some page) ∧
      ∀ (i : ℕ) (old : Page), data[i]? = some (some old) → data'[i]? = some (some old) := by
  have hpos : ¬ p < 0 := Int32.not_lt.mpr hp.1
  unfold DiskManagerUnlimitedMemory.touch
  dsimp only
  rw [if_neg hpos, if_neg fun hcon => hp.2 hcon.2]
  set i := p.toNatClampNeg
  set grown := data ++ List.replicate (i + 1 - data.length) none with hgrown
  have hlen : i < grown.length := by
    rw [hgrown, List.length_append, List.length_replicate]
    omega
  have hkeep : ∀ (j : ℕ) (old : Page), data[j]? = some (some old) → grown[j]? = some (some old) := by
    intro j old hj
    have hjlt : j < data.length := (List.getElem?_eq_some_iff.mp hj).1
    rw [hgrown, List.getElem?_append_left hjlt]
    exact hj
  cases hi : grown[i]? with
  | none =>
    rw [List.getElem?_eq_getElem hlen] at hi
    cases hi
  | some entry =>
    cases entry with
    | some page => exact ⟨page, grown, rfl, hi, hkeep⟩
    | none =>
      refine ⟨zeroPage, grown.set i (some zeroPage), rfl, List.getElem?_set_self hlen, ?_⟩
      intro j old hj
      have hji : i ≠ j := by
        rintro rfl
        rw [hkeep _ old hj] at hi
        cases hi
      rw [List.getElem?_set_ne hji]
      exact hkeep j old hj

/-- **One call on the memory disk** answers as it should and holds the last writes. -/
theorem memStep_rep (h : MemRep m hist) (op : DiskOp) (hid : ValidId op.pageId)
    (hlive : ∀ p, op = .readPage p → (lastWrite p hist).isSome = true) :
    ∃ o m', memStep m op = .ok (o, m') ∧ expected hist [op] = [o] ∧ MemRep m' (op :: hist) := by
  cases op with
  | writePage p page =>
    obtain ⟨old, data, htouch, hself, hkeep⟩ := touch_spec m.data hid
    refine ⟨none, ⟨m.numWrites + 1, data.set p.toNatClampNeg (some page)⟩, ?_, rfl, ?_⟩
    · simp only [memStep, DiskManagerUnlimitedMemory.writePage, DiskOp.pageId] at htouch ⊢
      rw [htouch]
      rfl
    · intro q old' hq hlast
      show (data.set p.toNatClampNeg (some page))[q.toNatClampNeg]? = some (some old')
      have hlen := (List.getElem?_eq_some_iff.mp hself).1
      by_cases hpq : p = q
      · subst hpq
        rw [lastWrite, if_pos rfl] at hlast
        cases hlast
        exact List.getElem?_set_self hlen
      · rw [lastWrite, if_neg hpq] at hlast
        rw [List.getElem?_set_ne fun heq => hpq (toNatClampNeg_inj hid.1 hq heq)]
        exact hkeep _ old' (h q old' hq hlast)
  | readPage p =>
    obtain ⟨page, data, htouch, hself, hkeep⟩ := touch_spec m.data hid
    obtain ⟨last, hlast⟩ := Option.isSome_iff_exists.mp (hlive p rfl)
    have hpage : page = last := by
      have hold := hkeep _ last (h p last hid.1 hlast)
      rw [show (DiskOp.readPage p).pageId = p from rfl, hold] at hself
      cases hself
      rfl
    refine ⟨some page.1, ⟨m.numWrites, data⟩, ?_, ?_, ?_⟩
    · simp only [memStep, DiskManagerUnlimitedMemory.readPage, DiskOp.pageId] at htouch ⊢
      rw [htouch]
      rfl
    · simp only [expected, hlast, hpage, Option.map_some]
    · intro q old hq hold
      exact hkeep _ old (h q old hq hold)
  | deletePage p =>
    refine ⟨none, m, rfl, rfl, ?_⟩
    intro q old hq hlast
    by_cases hpq : p = q
    · rw [lastWrite, if_pos hpq] at hlast
      cases hlast
    · rw [lastWrite, if_neg hpq] at hlast
      exact h q old hq hlast

end Memory

/-! ## Runs -/

section Runs

/-- **One call on the file disk** answers as it should and holds the last writes. -/
theorem fileStep_rep {d : DiskManager} {hist : List DiskOp} (h : FileRep d hist) (op : DiskOp)
    (hsmall : d.fileSize < 2 ^ 31) (hlive : ∀ p, op = .readPage p → (lastWrite p hist).isSome = true) :
    ∃ o d', fileStep d op = .ok (o, d') ∧ expected hist [op] = [o] ∧ FileRep d' (op :: hist) := by
  cases op with
  | writePage p page => exact ⟨none, _, rfl, rfl, writePage_rep h p page⟩
  | readPage p =>
    obtain ⟨page, hlast⟩ := Option.isSome_iff_exists.mp (hlive p rfl)
    obtain ⟨d', hread, hrep⟩ := readPage_rep h hlast hsmall
    refine ⟨some page.1, d', ?_, ?_, hrep⟩
    · show Except.ok (d.readPage ⟨true, true, true⟩ p) = _
      rw [hread]
    · simp only [expected, hlast, Option.map_some]
  | deletePage p => exact ⟨none, _, rfl, rfl, deletePage_rep h p⟩

theorem expected_of_step {hist ops : List DiskOp} {op : DiskOp} {o : Option (List UInt8)}
    (h : expected hist [op] = [o]) : expected hist (op :: ops) = o :: expected (op :: hist) ops := by
  cases op with
  | writePage p page =>
    cases h
    rfl
  | readPage p =>
    simp only [expected, List.cons.injEq, and_true] at h
    rw [expected, h]
  | deletePage p =>
    cases h
    rfl

/-- Every read of `ops` is of a page that has a last write then. -/
def ReadsLive (hist ops : List DiskOp) : Prop :=
  ∀ pre p post, ops = pre ++ .readPage p :: post → (lastWrite p (pre.reverse ++ hist)).isSome = true

theorem ReadsLive.head {hist ops : List DiskOp} {op : DiskOp} (h : ReadsLive hist (op :: ops)) :
    ∀ p, op = .readPage p → (lastWrite p hist).isSome = true := by
  rintro p rfl
  exact h [] p ops rfl

theorem ReadsLive.tail {hist ops : List DiskOp} {op : DiskOp} (h : ReadsLive hist (op :: ops)) :
    ReadsLive (op :: hist) ops := by
  intro pre p post heq
  have hrec := h (op :: pre) p post (by rw [heq]; rfl)
  rwa [List.reverse_cons, List.append_assoc] at hrec

/-- **Run** of a disk that holds the last writes: the reads fill their buffers with them. -/
theorem run_rep {σ : Type} {step : σ → DiskOp → Except MemFault (Option (List UInt8) × σ)}
    {P : σ → DiskOp → Prop} (Rep : σ → List DiskOp → Prop)
    (hstep : ∀ s hist op, Rep s hist → P s op →
      (∀ p, op = .readPage p → (lastWrite p hist).isSome = true) →
      ∃ o s', step s op = .ok (o, s') ∧ expected hist [op] = [o] ∧ Rep s' (op :: hist)) :
    ∀ (ops : List DiskOp) (s : σ) (hist : List DiskOp), Rep s hist → Along step P s ops →
      ReadsLive hist ops → ∃ s', run step s ops = .ok (expected hist ops, s')
  | [], s, hist, _, _, _ => ⟨s, rfl⟩
  | op :: ops, s, hist, hrep, hP, hlive => by
    obtain ⟨o, s1, h1, ho, hrep1⟩ := hstep s hist op hrep hP.1 hlive.head
    obtain ⟨s2, h2⟩ := run_rep Rep hstep ops s1 _ hrep1 (hP.2 o s1 h1) hlive.tail
    rw [expected_of_step ho]
    exact ⟨s2, run_cons_eq_ok.mpr ⟨o, s1, _, h1, h2, rfl⟩⟩

/-- **The file disk and the memory disk agree.**  On page ids from 0 to `2^31 - 2`, when every read of
a page comes after a write of it with no deletion in between, on a file that never fails and stays
below `2^31` bytes, both disks fill every read buffer with the same bytes, those of the most recent
write. -/
theorem disks_agree (file : Mem) (fileSize : ℕ) (ops : List DiskOp)
    (hids : ∀ op ∈ ops, ValidId op.pageId)
    (hlive : ∀ pre p post, ops = pre ++ .readPage p :: post →
      ∃ a page b, pre = a ++ .writePage p page :: b ∧ ∀ q, .deletePage q ∈ b → q ≠ p)
    (hsize : Along fileStep (fun d _ => d.fileSize < 2 ^ 31) (.create file fileSize) ops) :
    ∃ outs d m, run fileStep (.create file fileSize) ops = .ok (outs, d) ∧
      run memStep .create ops = .ok (outs, m) ∧
      ∀ a p page b post, ops = a ++ .writePage p page :: b ++ .readPage p :: post →
        (∀ op ∈ b, ¬ op.Changes p) →
        outs[(a ++ .writePage p page :: b).length]? = some (some page.1) := by
  have hreads : ReadsLive [] ops := by
    intro pre p post heq
    obtain ⟨a, page, b, rfl, hdel⟩ := hlive pre p post heq
    rw [List.append_nil, List.reverse_append, List.reverse_cons, List.append_assoc]
    refine lastWrite_isSome (fun q hq => hdel q (List.mem_reverse.mp hq)) ?_
    rw [List.singleton_append, lastWrite, if_pos rfl]
    rfl
  obtain ⟨d, hfile⟩ := run_rep FileRep (fun d hist op h hs hl => fileStep_rep h op hs hl) ops _ []
    (fileRep_create file fileSize) hsize hreads
  obtain ⟨m, hmem⟩ := run_rep MemRep (fun m hist op h hid hl => memStep_rep h op hid hl) ops .create []
    nofun (along_of_forall hids _) hreads
  refine ⟨expected [] ops, d, m, hfile, hmem, ?_⟩
  intro a p page b post heq hb
  rw [heq, getElem?_expected, List.append_nil, List.reverse_append, List.reverse_cons,
    List.append_assoc, lastWrite_append fun op hop => hb op (List.mem_reverse.mp hop),
    List.singleton_append, lastWrite, if_pos rfl]
  rfl

/-- Page 1 takes over the slot of page 0 and is read back. -/
theorem disks_agree_reused_slot :
    ∃ outs d m, run fileStep (.create (fun _ => 7) 0)
        [.writePage 0 zeroPage, .deletePage 0, .writePage 1 zeroPage, .readPage 1] = .ok (outs, d) ∧
      run memStep .create
        [.writePage 0 zeroPage, .deletePage 0, .writePage 1 zeroPage, .readPage 1] = .ok (outs, m) ∧
      outs[3]? = some (some zeroPage.1) := by
  have hids : ∀ op ∈ [DiskOp.writePage 0 zeroPage, .deletePage 0, .writePage 1 zeroPage, .readPage 1],
      ValidId op.pageId := by
    intro op hop
    simp only [List.mem_cons, List.not_mem_nil, or_false] at hop
    rcases hop with rfl | rfl | rfl | rfl
    · exact (by decide : ValidId 0)
    · exact (by decide : ValidId 0)
    · exact (by decide : ValidId 1)
    · exact (by decide : ValidId 1)
  have hsize : Along fileStep (fun d _ => d.fileSize < 2 ^ 31) (.create (fun _ => 7) 0)
      [.writePage 0 zeroPage, .deletePage 0, .writePage 1 zeroPage, .readPage 1] := by
    refine ⟨by decide +kernel, ?_⟩
    intro _ _ h1
    cases h1
    refine ⟨by decide +kernel, ?_⟩
    intro _ _ h2
    cases h2
    refine ⟨by decide +kernel, ?_⟩
    intro _ _ h3
    cases h3
    exact ⟨by decide +kernel, fun _ _ _ => trivial⟩
  obtain ⟨outs, d, m, hfile, hmem, hread⟩ := disks_agree (fun _ => 7) 0 _ hids (by
    intro pre p post heq
    rcases pre with _ | ⟨a, _ | ⟨b, _ | ⟨c, _ | ⟨e, pre⟩⟩⟩⟩
    · cases heq
    · cases heq
    · cases heq
    · cases heq
      exact ⟨[.writePage 0 zeroPage, .deletePage 0], zeroPage, [], rfl, nofun⟩
    · simp at heq) hsize
  refine ⟨outs, d, m, hfile, hmem, ?_⟩
  exact hread [.writePage 0 zeroPage, .deletePage 0] 1 zeroPage [] [] rfl nofun

end Runs

end Journey.Disk
