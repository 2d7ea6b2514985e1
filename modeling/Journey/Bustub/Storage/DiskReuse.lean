import Journey.Bustub.Storage.DiskGrowth

/-!
# Journey.Bustub.Storage.DiskReuse — what a page that was never written reads as

`ReadPage` of a page without a slot takes one as `WritePage` does, from `free_slots_` when it can, and
reads what is there.  Here two runs are compared that make the same calls and write different bytes.

* `nextSlot d p`: the slot a call on page `p` works on.
* `visible d`: the bytes of the file, zeros behind its end; `slotBytes_after`: calls that write other
  slots leave a slot as it is.
* `Alike`, `SameCall`: two managers that differ in their bytes only, two calls that differ in the page
  they write; `alike_after`: runs of same calls stay alike.
* `independent_iff`: what a read answers depends on no page written in the run exactly if its slot was
  written by no call.
-/

namespace Journey.Disk

/-! ## Slots -/

section Slots

/-- The slot a call on page `p` works on: its own, the last one that was freed, or the next one of the
file. -/
def nextSlot (d : DiskManager) (p : Int32) : ℕ :=
  match d.pages.lookup p with
  | some offset => offset
  | none =>
    match d.freeSlots with
    | offset :: _ => offset
    | [] => d.numPages * pageSize

/-- A slot has to be appended and the capacity is reached. -/
def Grows (d : DiskManager) (p : Int32) : Prop :=
  d.pages.lookup p = none ∧ d.freeSlots = [] ∧ d.pageCapacity ≤ d.numPages + 1

instance (d : DiskManager) (p : Int32) : Decidable (Grows d p) :=
  inferInstanceAs (Decidable (_ ∧ _ ∧ _))

/-- The size of the file once the slot was taken. -/
def sizeFor (d : DiskManager) (p : Int32) : ℕ :=
  if Grows d p then (d.pageCapacity * 2 + 1) * pageSize else d.fileSize

/-- The end-of-file guard of `ReadPage` lets the read of page `p` through. -/
def GuardPasses (d : DiskManager) (p : Int32) : Prop :=
  ¬ Int32.ofNat (sizeFor d p) < 0 ∧ nextSlot d p ≤ (Int32.ofNat (sizeFor d p)).toNatClampNeg

instance (d : DiskManager) (p : Int32) : Decidable (GuardPasses d p) :=
  inferInstanceAs (Decidable (_ ∧ _))

/-- The byte at address `i` of the file; there are zeros behind its end. -/
def visible (d : DiskManager) (i : ℕ) : UInt8 := if i < d.fileSize then d.file i else 0

/-- Slots are whole pages within the capacity, and there are fewer than the capacity.  This holds on
when a slot is lost to an early return. -/
structure Sized (d : DiskManager) : Prop where
  bad : d.bad = false
  size : d.fileSize = (d.pageCapacity + 1) * pageSize
  count : d.numPages + d.freeSlots.length < d.pageCapacity
  used : ∀ p a, d.pages.lookup p = some a → ∃ i < d.pageCapacity, a = i * pageSize
  free : ∀ a ∈ d.freeSlots, ∃ i < d.pageCapacity, a = i * pageSize

variable {d d' : DiskManager} {p : Int32}

theorem sized_create (file : Mem) (fileSize : ℕ) : Sized (.create file fileSize) := by
  refine ⟨rfl, rfl, Nat.lt_add_left 15 Nat.one_pos, ?_, ?_⟩
  · intro p a hlook
    cases hlook
  · intro a ha
    cases ha

/-- Growing the file shows zeros where nothing was. -/
theorem visible_resizeFile {size : ℕ} (h : d.fileSize ≤ size) (i : ℕ) :
    visible (d.resizeFile size) i = visible d i := by
  show (if i < size then (if i < d.fileSize then d.file i else 0) else 0) = _
  unfold visible
  split_ifs
  · rfl
  · rfl
  · omega
  · rfl

/-- **What taking a slot does**, with nothing failing. -/
theorem locate_next_cases (d : DiskManager) (p : Int32) : ∃ d', d.locate allOk p = (some (nextSlot d p), d') ∧
    ((d.pages.lookup p = some (nextSlot d p) ∧ d' = d ∧ sizeFor d p = d.fileSize) ∨
    (p ∉ d.pages ∧ d.freeSlots = nextSlot d p :: d'.freeSlots ∧ d' = { d with freeSlots := d'.freeSlots } ∧
      sizeFor d p = d.fileSize) ∨
    (p ∉ d.pages ∧ d.freeSlots = [] ∧ nextSlot d p = d.numPages * pageSize ∧
      d.numPages + 1 < d.pageCapacity ∧ d' = d ∧ sizeFor d p = d.fileSize) ∨
    (p ∉ d.pages ∧ d.freeSlots = [] ∧ nextSlot d p = d.numPages * pageSize ∧
      d' = { d with pageCapacity := d.pageCapacity * 2 }.resizeFile (sizeFor d p) ∧
      sizeFor d p = (d.pageCapacity * 2 + 1) * pageSize)) := by
  cases hlook : d.pages.lookup p with
  | some offset =>
    have hslot : nextSlot d p = offset := by
      unfold nextSlot
      rw [hlook]
    have hsize : sizeFor d p = d.fileSize := if_neg fun hg => by rw [hg.1] at hlook; cases hlook
    refine ⟨d, ?_, .inl ⟨by rw [hslot], rfl, hsize⟩⟩
    unfold DiskManager.locate
    rw [hlook, hslot]
  | none =>
    have hnot : p ∉ d.pages := AList.lookup_eq_none.mp hlook
    have hloc : d.locate allOk p = d.allocatePage allOk := by
      unfold DiskManager.locate
      rw [hlook]
    cases hfree : d.freeSlots with
    | cons offset rest =>
      have hslot : nextSlot d p = offset := by
        unfold nextSlot
        rw [hlook, hfree]
      have hsize : sizeFor d p = d.fileSize := if_neg fun hg => by rw [hg.2.1] at hfree; cases hfree
      refine ⟨{ d with freeSlots := rest }, ?_, .inr (.inl ⟨hnot, by rw [hslot], rfl, hsize⟩)⟩
      rw [hloc, hslot]
      unfold DiskManager.allocatePage
      rw [hfree]
    | nil =>
      have hslot : nextSlot d p = d.numPages * pageSize := by
        unfold nextSlot
        rw [hlook, hfree]
      by_cases hgrow : d.pageCapacity ≤ d.numPages + 1
      · have hsize : sizeFor d p = (d.pageCapacity * 2 + 1) * pageSize := if_pos ⟨hlook, hfree, hgrow⟩
        refine ⟨_, ?_, .inr (.inr (.inr ⟨hnot, rfl, hslot, rfl, hsize⟩))⟩
        rw [hloc, hslot, hsize]
        unfold DiskManager.allocatePage
        rw [hfree]
        dsimp only
        rw [if_pos hgrow]
        rfl
      · have hsize : sizeFor d p = d.fileSize := if_neg fun hg => hgrow hg.2.2
        refine ⟨d, ?_, .inr (.inr (.inl ⟨hnot, rfl, hslot, by omega, rfl, hsize⟩))⟩
        rw [hloc, hslot]
        unfold DiskManager.allocatePage
        rw [hfree]
        dsimp only
        rw [if_neg hgrow]

/-- A slot is recorded for a page that has it already, or for one more page. -/
theorem Sized.insert (h : Sized d) {a : ℕ} (ha : ∃ i < d.pageCapacity, a = i * pageSize)
    (hroom : d.pages.lookup p = some a ∨
      p ∉ d.pages ∧ d.numPages + 1 + d.freeSlots.length < d.pageCapacity) :
    Sized { d with pages := d.pages.insert p a } := by
  refine ⟨h.bad, h.size, ?_, ?_, h.free⟩
  · show (d.pages.insert p a).entries.length + _ < _
    rcases hroom with hlook | ⟨hnot, hroom⟩
    · have hcount := h.count
      have hlen := (entries_perm hlook).length_eq
      rw [AList.entries_insert, List.length_cons]
      rw [List.length_cons] at hlen
      unfold DiskManager.numPages at hcount
      rw [hlen] at hcount
      exact hcount
    · rw [AList.entries_insert_of_notMem hnot, List.length_cons]
      exact hroom
  · intro q b hq
    by_cases hqp : q = p
    · subst hqp
      rw [AList.lookup_insert] at hq
      cases hq
      exact ha
    · rw [AList.lookup_insert_ne hqp] at hq
      exact h.used q b hq

/-- **Taking a slot** of a sized file leaves it sized, also once the slot is recorded, and changes no
byte of it. -/
theorem locate_next (h : Sized d) (p : Int32) : ∃ d', d.locate allOk p = (some (nextSlot d p), d') ∧
    Sized d' ∧ Sized { d' with pages := d'.pages.insert p (nextSlot d p) } ∧ d'.fileSize = sizeFor d p ∧
    (∃ i < d'.pageCapacity, nextSlot d p = i * pageSize) ∧ ∀ i, visible d' i = visible d i := by
  have hcount := h.count
  obtain ⟨d', hloc, hcases⟩ := locate_next_cases d p
  refine ⟨d', hloc, ?_⟩
  rcases hcases with ⟨hlook, rfl, hsize⟩ | ⟨hnot, hfree, hd', hsize⟩ | ⟨hnot, hfree, hslot, hroom, rfl, hsize⟩ |
    ⟨hnot, hfree, hslot, rfl, hsize⟩
  · have hin := h.used p _ hlook
    exact ⟨h, h.insert hin (.inl hlook), hsize.symm, hin, fun _ => rfl⟩
  · generalize d'.freeSlots = rest at hfree hd'
    subst hd'
    rw [hfree, List.length_cons] at hcount
    have hin := h.free (nextSlot d p) (by rw [hfree]; exact List.mem_cons_self ..)
    have hsized : Sized { d with freeSlots := rest } := by
      refine ⟨h.bad, h.size, ?_, h.used, ?_⟩
      · show d.numPages + rest.length < d.pageCapacity
        omega
      · intro a ha
        exact h.free a (by rw [hfree]; exact List.mem_cons_of_mem _ ha)
    refine ⟨hsized, hsized.insert hin (.inr ⟨hnot, ?_⟩), hsize.symm, hin, fun _ => rfl⟩
    show d.numPages + 1 + rest.length < d.pageCapacity
    omega
  · have hin : ∃ i < d'.pageCapacity, nextSlot d' p = i * pageSize := ⟨d'.numPages, by omega, hslot⟩
    refine ⟨h, h.insert hin (.inr ⟨hnot, ?_⟩), hsize.symm, hin, fun _ => rfl⟩
    rw [hfree, List.length_nil]
    exact hroom
  · set d' := { d with pageCapacity := d.pageCapacity * 2 }.resizeFile (sizeFor d p) with hd'
    have hcap : d'.pageCapacity = d.pageCapacity * 2 := rfl
    have hfree' : d'.freeSlots = [] := hfree
    have hin : ∃ i < d'.pageCapacity, nextSlot d p = i * pageSize := ⟨d.numPages, by omega, hslot⟩
    have hsized : Sized d' := by
      refine ⟨h.bad, hsize, ?_, ?_, ?_⟩
      · show d.numPages + d.freeSlots.length < d.pageCapacity * 2
        omega
      · intro q a hq
        obtain ⟨i, hi, rfl⟩ := h.used q a hq
        exact ⟨i, by omega, rfl⟩
      · intro a ha
        rw [hfree'] at ha
        cases ha
    refine ⟨hsized, hsized.insert hin (.inr ⟨hnot, ?_⟩), rfl, hin, ?_⟩
    · rw [hfree', List.length_nil]
      show d.numPages + 1 + 0 < d.pageCapacity * 2
      omega
    · intro i
      refine (visible_resizeFile ?_ i).trans rfl
      show d.fileSize ≤ _
      rw [h.size, hsize]
      exact Nat.mul_le_mul_right _ (by omega)

end Slots

/-! ## One call -/

section Calls

variable {d : DiskManager} {p : Int32}

/-- The bytes of slot `a`. -/
def slotBytes (d : DiskManager) (a : ℕ) : List UInt8 := (List.range pageSize).map fun k => visible d (a + k)

theorem slotBytes_congr {d' : DiskManager} {a : ℕ} (h : ∀ k < pageSize, visible d' (a + k) = visible d (a + k)) :
    slotBytes d' a = slotBytes d a :=
  List.map_congr_left fun k hk => h k (List.mem_range.mp hk)

theorem readBytes_eq_slotBytes (d : DiskManager) (a : ℕ) : d.readBytes a = slotBytes d a := by
  unfold DiskManager.readBytes slotBytes
  dsimp only
  set n := min pageSize (d.fileSize - a) with hn
  have hlen : (load d.file a n ++ List.replicate (pageSize - n) 0).length = pageSize := by
    rw [List.length_append, length_load, List.length_replicate]
    omega
  refine List.ext_getElem (by rw [hlen, List.length_map, List.length_range]) ?_
  intro k hk _
  rw [List.getElem_map, List.getElem_range, List.getElem_append]
  unfold visible
  have hload : (load d.file a n).length = n := length_load ..
  split_ifs with hlt hsize hsize
  · exact getElem_load ..
  · omega
  · omega
  · exact List.getElem_replicate ..

/-- **`WritePage`** puts the page in the next slot and leaves the others. -/
theorem writePage_sized (h : Sized d) (p : Int32) (page : Page) :
    Sized (d.writePage allOk p page) ∧ slotBytes (d.writePage allOk p page) (nextSlot d p) = page.1 ∧
    ∀ i, i * pageSize ≠ nextSlot d p →
      slotBytes (d.writePage allOk p page) (i * pageSize) = slotBytes d (i * pageSize) := by
  obtain ⟨d', hloc, hsized', hrec, hsize, ⟨j, hj, hslot⟩, hvis⟩ := locate_next h p
  have heq := writePage_eq page hloc hsized'.bad
  have hfit : nextSlot d p + pageSize ≤ d'.fileSize := by
    rw [hsized'.size, hslot]
    unfold pageSize
    omega
  have hmax : max d'.fileSize (nextSlot d p + pageSize) = d'.fileSize := Nat.max_eq_left hfit
  rw [hmax] at heq
  have hbytes : ∀ i, visible (d.writePage allOk p page) i =
      if i < d'.fileSize then store d'.file (nextSlot d p) page.1 i else 0 := by
    intro i
    show visible (d.writePage ⟨true, true, true⟩ p page) i = _
    rw [heq]
    rfl
  refine ⟨?_, ?_, ?_⟩
  · show Sized (d.writePage ⟨true, true, true⟩ p page)
    rw [heq]
    exact ⟨rfl, hrec.size, hrec.count, hrec.used, hrec.free⟩
  · unfold slotBytes
    refine List.ext_getElem (by rw [List.length_map, List.length_range, page.2]) ?_
    intro k _ hk
    have hk' : k < pageSize := page.2 ▸ hk
    rw [List.getElem_map, List.getElem_range, hbytes, if_pos (by omega), store_inside hk]
  · intro i hne
    refine slotBytes_congr ?_
    intro k hk
    rw [hbytes, ← hvis]
    unfold visible
    split_ifs
    · refine store_apart ?_
      rw [page.2, hslot]
      rw [hslot] at hne
      unfold pageSize at *
      omega
    · rfl

/-- **`ReadPage`** answers the bytes of the next slot when its guard lets it through. -/
theorem readPage_sized (h : Sized d) (p : Int32) :
    Sized (d.readPage allOk p).2 ∧ (∀ a, slotBytes (d.readPage allOk p).2 a = slotBytes d a) ∧
    (d.readPage allOk p).1 = if GuardPasses d p then some (slotBytes d (nextSlot d p)) else none := by
  obtain ⟨d', hloc, hsized', hrec, hsize, -, hvis⟩ := locate_next h p
  have hslots : ∀ a, slotBytes d' a = slotBytes d a := fun a => slotBytes_congr fun k _ => hvis (a + k)
  have hguard : d'.getFileSize allOk = Int32.ofNat (sizeFor d p) := by
    rw [← hsize]
    rfl
  by_cases hpass : GuardPasses d p
  · have heq : d.readPage allOk p = (some (d'.readBytes (nextSlot d p)),
        { d' with pages := d'.pages.insert p (nextSlot d p) }) := by
      unfold DiskManager.readPage DiskManager.transfer
      rw [hloc]
      dsimp only
      rw [hguard, if_neg hpass.1, if_neg (Nat.not_lt.mpr hpass.2), hsized'.bad]
      rfl
    rw [heq, if_pos hpass, readBytes_eq_slotBytes, hslots]
    exact ⟨hrec, hslots, rfl⟩
  · have heq : d.readPage allOk p = (none, d') := by
      unfold DiskManager.readPage
      rw [hloc]
      dsimp only
      rw [hguard]
      by_cases hneg : Int32.ofNat (sizeFor d p) < 0
      · rw [if_pos hneg]
      · rw [if_neg hneg, if_pos (Nat.lt_of_not_le fun hle => hpass ⟨hneg, hle⟩)]
    rw [heq, if_neg hpass]
    exact ⟨hsized', hslots, rfl⟩

/-- **`DeletePage`** changes no byte. -/
theorem deletePage_sized (h : Sized d) (p : Int32) :
    Sized (d.deletePage p) ∧ ∀ a, slotBytes (d.deletePage p) a = slotBytes d a := by
  have hcount := h.count
  unfold DiskManager.deletePage
  cases hlook : d.pages.lookup p with
  | none => exact ⟨h, fun _ => rfl⟩
  | some offset =>
    refine ⟨⟨h.bad, h.size, ?_, ?_, ?_⟩, fun _ => rfl⟩
    · have hlen := (entries_perm hlook).length_eq
      show (d.pages.erase p).entries.length + (offset :: d.freeSlots).length < d.pageCapacity
      unfold DiskManager.numPages at hcount
      rw [List.length_cons] at hlen ⊢
      omega
    · intro q a hq
      by_cases hqp : q = p
      · subst hqp
        rw [AList.lookup_erase] at hq
        cases hq
      · rw [AList.lookup_erase_ne hqp] at hq
        exact h.used q a hq
    · intro a ha
      rcases List.mem_cons.mp ha with rfl | ha
      · exact h.used p a hlook
      · exact h.free a ha

end Calls

/-! ## Runs -/

section Runs

variable {d d' : DiskManager} {ops ops' : List DiskOp} {a : ℕ}

/-- The manager after calls with nothing failing. -/
def after (d : DiskManager) (ops : List DiskOp) : DiskManager := runDisk d (ops.map fun op => (allOk, op))

@[simp] theorem after_nil (d : DiskManager) : after d [] = d := rfl

@[simp] theorem after_cons (d : DiskManager) (op : DiskOp) (ops : List DiskOp) :
    after d (op :: ops) = after (applyDiskOp d allOk op).2 ops := rfl

theorem after_append (d : DiskManager) (pre post : List DiskOp) :
    after d (pre ++ post) = after (after d pre) post := by
  unfold after runDisk
  rw [List.map_append, List.foldl_append]

theorem fileAfter_eq (file : Mem) (fileSize : ℕ) (ops : List DiskOp) :
    fileAfter file fileSize ops = after (.create file fileSize) ops := rfl

/-- No `WritePage` among the calls puts its page into slot `a`. -/
def Unwritten (d : DiskManager) (ops : List DiskOp) (a : ℕ) : Prop :=
  ∀ pre q page post, ops = pre ++ .writePage q page :: post → nextSlot (after d pre) q ≠ a

theorem Unwritten.head {q : Int32} {page : Page} (h : Unwritten d (.writePage q page :: ops) a) :
    nextSlot d q ≠ a := h [] q page ops rfl

theorem Unwritten.tail {op : DiskOp} (h : Unwritten d (op :: ops) a) :
    Unwritten (applyDiskOp d allOk op).2 ops a := by
  intro pre q page post heq
  exact h (op :: pre) q page post (by rw [heq]; rfl)

/-- **Step**: a call leaves the file sized. -/
theorem sized_step (h : Sized d) (op : DiskOp) : Sized (applyDiskOp d allOk op).2 := by
  cases op with
  | writePage q page => exact (writePage_sized h q page).1
  | readPage q => exact (readPage_sized h q).1
  | deletePage q => exact (deletePage_sized h q).1

/-- **Run**: so do all of them. -/
theorem sized_after (ops : List DiskOp) (h : Sized d) : Sized (after d ops) := by
  induction ops generalizing d with
  | nil => exact h
  | cons op ops ih => exact ih (sized_step h op)

/-- **A slot that no call writes keeps its bytes.** -/
theorem slotBytes_after {i : ℕ} (h : Sized d) (hun : Unwritten d ops (i * pageSize)) :
    slotBytes (after d ops) (i * pageSize) = slotBytes d (i * pageSize) := by
  induction ops generalizing d with
  | nil => rfl
  | cons op ops ih =>
    rw [after_cons, ih (sized_step h op) hun.tail]
    cases op with
    | writePage q page => exact (writePage_sized h q page).2.2 i hun.head.symm
    | readPage q => exact (readPage_sized h q).2.1 _
    | deletePage q => exact (deletePage_sized h q).2 _

/-- A slot that some call writes has a last write. -/
theorem exists_last_write (h : ¬ Unwritten d ops a) :
    ∃ pre q page post, ops = pre ++ .writePage q page :: post ∧ nextSlot (after d pre) q = a ∧
      Unwritten (after d (pre ++ [.writePage q page])) post a := by
  induction ops generalizing d with
  | nil => exact absurd (fun pre q page post heq => by simp at heq) h
  | cons op ops ih =>
    by_cases hrest : Unwritten (applyDiskOp d allOk op).2 ops a
    · -- the first call writes it
      unfold Unwritten at h
      push Not at h
      obtain ⟨pre, q, page, post, heq, hslot⟩ := h
      cases pre with
      | nil =>
        cases heq
        exact ⟨[], q, page, ops, rfl, hslot, hrest⟩
      | cons op' pre =>
        cases heq
        exact absurd hslot (hrest pre q page _ rfl)
    · obtain ⟨pre, q, page, post, rfl, hslot, hun⟩ := ih hrest
      exact ⟨op :: pre, q, page, post, rfl, hslot, hun⟩

end Runs

/-! ## Two runs -/

section TwoRuns

/-- Two calls that differ in the bytes written at most. -/
inductive SameCall : DiskOp → DiskOp → Prop
  | writePage (p : Int32) (page page' : Page) : SameCall (.writePage p page) (.writePage p page')
  | readPage (p : Int32) : SameCall (.readPage p) (.readPage p)
  | deletePage (p : Int32) : SameCall (.deletePage p) (.deletePage p)

/-- Two managers that differ in the bytes of the file at most. -/
def Alike (d d' : DiskManager) : Prop := ∃ file, d' = { d with file := file }

variable {d d' : DiskManager} {op op' : DiskOp} {ops ops' : List DiskOp} {p : Int32} {a : ℕ}

theorem SameCall.refl (op : DiskOp) : SameCall op op := by
  cases op with
  | writePage p page => exact .writePage p page page
  | readPage p => exact .readPage p
  | deletePage p => exact .deletePage p

theorem Alike.refl (d : DiskManager) : Alike d d := ⟨d.file, rfl⟩

theorem Alike.nextSlot_eq (h : Alike d d') (p : Int32) : nextSlot d' p = nextSlot d p := by
  obtain ⟨file, rfl⟩ := h
  rfl

theorem Alike.guardPasses_iff (h : Alike d d') (p : Int32) : GuardPasses d' p ↔ GuardPasses d p := by
  obtain ⟨file, rfl⟩ := h
  exact Iff.rfl

/-- Slots are taken without a look at the bytes. -/
theorem locate_alike (d : DiskManager) (file : Mem) (p : Int32) :
    ∃ file', { d with file := file }.locate allOk p =
      ((d.locate allOk p).1, { (d.locate allOk p).2 with file := file' }) := by
  unfold DiskManager.locate
  dsimp only
  cases d.pages.lookup p with
  | some offset => exact ⟨file, rfl⟩
  | none =>
    unfold DiskManager.allocatePage DiskManager.numPages
    dsimp only
    cases hfree : d.freeSlots with
    | cons offset rest => exact ⟨file, rfl⟩
    | nil =>
      dsimp only
      by_cases hgrow : d.pageCapacity ≤ d.pages.entries.length + 1
      · rw [if_pos hgrow, if_pos hgrow]
        exact ⟨_, rfl⟩
      · rw [if_neg hgrow, if_neg hgrow]
        exact ⟨file, by rw [hfree]⟩

/-- **Step**: same calls on alike managers. -/
theorem alike_step (h : Alike d d') (hop : SameCall op op') :
    Alike (applyDiskOp d allOk op).2 (applyDiskOp d' allOk op').2 := by
  obtain ⟨file, rfl⟩ := h
  cases hop with
  | writePage p page page' =>
    obtain ⟨file', hloc⟩ := locate_alike d file p
    show Alike (d.writePage allOk p page) ({ d with file := file }.writePage allOk p page')
    unfold DiskManager.writePage
    rw [hloc]
    rcases d.locate allOk p with ⟨_ | offset, d1⟩
    · exact ⟨_, rfl⟩
    · dsimp only [DiskManager.transfer]
      split_ifs
      · exact ⟨_, rfl⟩
      · exact ⟨_, rfl⟩
  | readPage p =>
    obtain ⟨file', hloc⟩ := locate_alike d file p
    show Alike (d.readPage allOk p).2 ({ d with file := file }.readPage allOk p).2
    unfold DiskManager.readPage
    rw [hloc]
    rcases d.locate allOk p with ⟨_ | offset, d1⟩
    · exact ⟨_, rfl⟩
    · have hsize : ({ d1 with file := file' } : DiskManager).getFileSize allOk = d1.getFileSize allOk := rfl
      dsimp only [DiskManager.transfer]
      rw [hsize]
      split_ifs
      · exact ⟨_, rfl⟩
      · exact ⟨_, rfl⟩
      · exact ⟨_, rfl⟩
      · exact ⟨_, rfl⟩
  | deletePage p =>
    show Alike (d.deletePage p) ({ d with file := file }.deletePage p)
    unfold DiskManager.deletePage
    dsimp only
    split
    · exact ⟨_, rfl⟩
    · exact ⟨_, rfl⟩

/-- **Run**: same calls, one after the other. -/
theorem alike_after (h : Alike d d') (hops : List.Forall₂ SameCall ops ops') :
    Alike (after d ops) (after d' ops') := by
  induction hops generalizing d d' with
  | nil => exact h
  | cons hop _ ih => exact ih (alike_step h hop)

/-- Alike runs write the same slots. -/
theorem Unwritten.alike (hun : Unwritten d ops a) (h : Alike d d') (hops : List.Forall₂ SameCall ops ops') :
    Unwritten d' ops' a := by
  induction hops generalizing d d' with
  | nil =>
    intro pre q page post heq
    simp at heq
  | @cons op op' ops ops' hop hrest ih =>
    have htail := ih hun.tail (alike_step h hop)
    rintro (_ | ⟨op1, pre⟩) q page post heq
    · cases heq
      cases hop
      rw [after_nil, h.nextSlot_eq]
      exact hun.head
    · cases heq
      exact htail pre q page post rfl

/-- The buffer that a read of page `p` fills after the calls is the same whatever bytes they wrote. -/
def Independent (file : Mem) (fileSize : ℕ) (pre : List DiskOp) (p : Int32) : Prop :=
  ∀ pre', List.Forall₂ SameCall pre pre' →
    ((fileAfter file fileSize pre').readPage allOk p).1 = ((fileAfter file fileSize pre).readPage allOk p).1

/-- The read of page `p` after the calls works on a slot that none of them wrote. -/
def ReadsFresh (file : Mem) (fileSize : ℕ) (pre : List DiskOp) (p : Int32) : Prop :=
  GuardPasses (fileAfter file fileSize pre) p →
    Unwritten (.create file fileSize) pre (nextSlot (fileAfter file fileSize pre) p)

/-- A page of one byte, all over. -/
def fillPage (b : UInt8) : Page := ⟨List.replicate pageSize b, List.length_replicate ..⟩

theorem fillPage_injective : Function.Injective fillPage := by
  intro b c heq
  have hlist : List.replicate pageSize b = List.replicate pageSize c := congrArg Subtype.val heq
  exact (List.replicate_right_inj (by decide)).mp hlist

theorem exists_ne_page (page : Page) : ∃ page' : Page, page' ≠ page := by
  by_cases hzero : fillPage 0 = page
  · refine ⟨fillPage 1, ?_⟩
    rw [← hzero]
    exact fun heq => absurd (fillPage_injective heq) (by decide)
  · exact ⟨fillPage 0, hzero⟩

/-- **What was written last to the slot is read**, whichever page it was written for. -/
theorem readPage_last_write {file : Mem} {fileSize : ℕ} (pre post : List DiskOp) {q p : Int32} {page : Page}
    (hguard : GuardPasses (fileAfter file fileSize (pre ++ .writePage q page :: post)) p)
    (hslot : nextSlot (after (.create file fileSize) pre) q =
      nextSlot (fileAfter file fileSize (pre ++ .writePage q page :: post)) p)
    (hun : Unwritten (after (.create file fileSize) (pre ++ [.writePage q page])) post
      (nextSlot (fileAfter file fileSize (pre ++ .writePage q page :: post)) p)) :
    ((fileAfter file fileSize (pre ++ .writePage q page :: post)).readPage allOk p).1 = some page.1 := by
  have hsized := sized_after pre (sized_create file fileSize)
  have hsized' := sized_after (pre ++ .writePage q page :: post) (sized_create file fileSize)
  obtain ⟨-, -, -, -, -, ⟨i, -, hi⟩, -⟩ := locate_next hsized' p
  obtain ⟨hnext, hwritten, -⟩ := writePage_sized hsized q page
  rw [fileAfter_eq] at *
  rw [(readPage_sized hsized' p).2.2, if_pos hguard]
  rw [hi] at hun hslot ⊢
  rw [after_append, after_cons, after_nil] at hun
  rw [hslot] at hwritten
  rw [after_append, after_cons]
  exact congrArg some ((slotBytes_after hnext hun).trans hwritten)

/-- **Reads of pages that are not there.**  For a page that has not been written since it was last deleted, the buffer a
read fills depends on no bytes written in the run exactly if the slot it works on, the last one that was freed or
the next one of the file, has been written by no call of the run. -/
theorem independent_iff (file : Mem) (fileSize : ℕ) (pre : List DiskOp) (p : Int32) :
    (lastWrite p pre.reverse = none → Independent file fileSize pre p) ↔
      (lastWrite p pre.reverse = none → ReadsFresh file fileSize pre p) := by
  refine imp_congr_right fun _ => ?_
  constructor
  · intro hind hguard
    by_contra hwritten
    obtain ⟨a, q, page, b, rfl, hslot, hun⟩ := exists_last_write hwritten
    obtain ⟨page', hne⟩ := exists_ne_page page
    -- the same run with other bytes in the last write of the slot
    have hcalls : List.Forall₂ SameCall (a ++ .writePage q page :: b) (a ++ .writePage q page' :: b) := by
      refine List.rel_append (List.forall₂_same.mpr fun op _ => .refl op) (.cons (.writePage q page page') ?_)
      exact List.forall₂_same.mpr fun op _ => .refl op
    have halike := alike_after (Alike.refl (.create file fileSize)) hcalls
    have hread := readPage_last_write a b hguard hslot hun
    have hread' : ((fileAfter file fileSize (a ++ .writePage q page' :: b)).readPage allOk p).1 = some page'.1 := by
      refine readPage_last_write a b ((halike.guardPasses_iff p).mpr hguard) ?_ ?_
      · exact hslot.trans (halike.nextSlot_eq p).symm
      · rw [fileAfter_eq, halike.nextSlot_eq p]
        refine hun.alike (alike_after (Alike.refl _) ?_) (List.forall₂_same.mpr fun op _ => .refl op)
        exact List.rel_append (List.forall₂_same.mpr fun op _ => .refl op) (.cons (.writePage q page page') .nil)
    have heq := hind _ hcalls
    rw [hread, hread'] at heq
    exact hne (Subtype.ext (Option.some.inj heq))
  · intro hfresh pre' hcalls
    have halike := alike_after (Alike.refl (.create file fileSize)) hcalls
    have hsized := sized_after pre (sized_create file fileSize)
    have hsized' := sized_after pre' (sized_create file fileSize)
    obtain ⟨-, -, -, -, -, ⟨i, -, hi⟩, -⟩ := locate_next hsized p
    rw [fileAfter_eq, fileAfter_eq, (readPage_sized hsized p).2.2, (readPage_sized hsized' p).2.2,
      halike.nextSlot_eq p]
    by_cases hguard : GuardPasses (after (.create file fileSize) pre) p
    · have hun := hfresh hguard
      rw [fileAfter_eq, hi] at hun
      rw [if_pos hguard, if_pos ((halike.guardPasses_iff p).mpr hguard), hi,
        slotBytes_after (sized_create file fileSize) hun,
        slotBytes_after (sized_create file fileSize) (hun.alike (Alike.refl _) hcalls)]
    · rw [if_neg hguard, if_neg (fun h => hguard ((halike.guardPasses_iff p).mp h))]

/-- Page 0 is written with ones and deleted; page 1, which was never written, reads as ones, and as zeros had page 0
been written with zeros. -/
theorem deleted_page_read_back :
    lastWrite 1 [DiskOp.writePage 0 (fillPage 1), .deletePage 0].reverse = none ∧
    ((fileAfter (fun _ => 0) 0 [.writePage 0 (fillPage 1), .deletePage 0]).readPage allOk 1).1 =
      some (fillPage 1).1 ∧
    ¬ Independent (fun _ => 0) 0 [.writePage 0 (fillPage 1), .deletePage 0] 1 := by
  have hread : ∀ page : Page,
      ((fileAfter (fun _ => 0) 0 [.writePage 0 page, .deletePage 0]).readPage allOk 1).1 = some page.1 := by
    intro page
    have halike : Alike (fileAfter (fun _ => 0) 0 [.writePage 0 zeroPage, .deletePage 0])
        (fileAfter (fun _ => 0) 0 [.writePage 0 page, .deletePage 0]) :=
      alike_after (Alike.refl _) (.cons (.writePage 0 zeroPage page) (.cons (.deletePage 0) .nil))
    have hslot : nextSlot (fileAfter (fun _ => 0) 0 [.writePage 0 zeroPage, .deletePage 0]) 1 = 0 := by
      decide +kernel
    have hguard : GuardPasses (fileAfter (fun _ => 0) 0 [.writePage 0 zeroPage, .deletePage 0]) 1 := by
      decide +kernel
    refine readPage_last_write [] [.deletePage 0] ((halike.guardPasses_iff 1).mpr hguard) ?_ ?_
    · exact (Eq.trans rfl hslot.symm).trans (halike.nextSlot_eq 1).symm
    · rintro (_ | ⟨op, _ | ⟨op', pre⟩⟩) q page' post heq
      · cases heq
      · cases heq
      · simp at heq
  refine ⟨by decide, hread _, ?_⟩
  intro hind
  have heq := hind [.writePage 0 (fillPage 0), .deletePage 0]
    (.cons (.writePage 0 (fillPage 1) (fillPage 0)) (.cons (.deletePage 0) .nil))
  rw [hread, hread] at heq
  exact absurd (fillPage_injective (Subtype.ext (Option.some.inj heq))) (by decide)

end TwoRuns

end Journey.Disk
