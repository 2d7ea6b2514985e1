import Journey.Bustub.Storage.DiskManagerMemory
import Mathlib.Data.Finset.Card

/-!
# Journey.Bustub.Storage.DiskGrowth — the size of the database file

`AllocatePage` doubles `page_capacity_` and makes the file one page larger than that.  `GetFileSize` cuts the
size to an `int`, which `ReadPage` compares offsets with.

* `livePages`: the pages that were written and not deleted since.
* `Grown`: the capacity is the first power of two, from sixteen on, above the largest number of pages that
  were live at once.
* `file_size_iff`: the size is exact, and written pages are read back, as long as at most `2^17 - 1` pages
  are live.
-/

namespace Journey.Disk

/-! ## Live pages -/

section Live

/-- The pages that were written and not deleted since, in a history listed from its end. -/
def livePages : List DiskOp → Finset Int32
  | [] => ∅
  | .writePage p _ :: hist => insert p (livePages hist)
  | .deletePage p :: hist => (livePages hist).erase p
  | .readPage _ :: hist => livePages hist

/-- The largest number of pages that were live at once. -/
def peak : List DiskOp → ℕ
  | [] => 0
  | op :: hist => max (livePages (op :: hist)).card (peak hist)

variable {hist : List DiskOp}

theorem card_livePages_le_peak : ∀ hist : List DiskOp, (livePages hist).card ≤ peak hist
  | [] => le_refl 0
  | _ :: _ => le_max_left _ _

theorem peak_le_iff {n : ℕ} : ∀ {hist : List DiskOp},
    peak hist ≤ n ↔ ∀ pre post, hist = pre ++ post → (livePages post).card ≤ n
  | [] => by
    constructor
    · intro _ pre post heq
      obtain ⟨-, rfl⟩ := List.append_eq_nil_iff.mp heq.symm
      exact Nat.zero_le n
    · intro _
      exact Nat.zero_le n
  | op :: hist => by
    rw [peak, max_le_iff, peak_le_iff]
    constructor
    · rintro ⟨hlive, hpeak⟩ pre post heq
      cases pre with
      | nil =>
        cases heq
        exact hlive
      | cons op' pre =>
        cases heq
        exact hpeak pre post rfl
    · intro h
      refine ⟨h [] _ rfl, ?_⟩
      intro pre post heq
      exact h (op :: pre) post (by rw [heq]; rfl)

end Live

/-! ## Growth -/

section Growth

/-- The capacity, and what it has grown for. -/
structure Grown (d : DiskManager) (hist : List DiskOp) : Prop where
  rep : FileRep d hist
  mem_pages : ∀ p, p ∈ d.pages ↔ p ∈ livePages hist
  slots_eq : (slots d).length = peak hist
  doubled : ∃ k, d.pageCapacity = defaultDbIoSize * 2 ^ k
  needed : d.pageCapacity ≤ max defaultDbIoSize (2 * peak hist)

variable {d : DiskManager} {hist : List DiskOp}

theorem numPages_eq_card (h : ∀ p, p ∈ d.pages ↔ p ∈ livePages hist) : d.numPages = (livePages hist).card := by
  have hkeys : d.pages.keys.toFinset = livePages hist := by
    ext p
    rw [List.mem_toFinset, ← AList.mem_keys, h p]
  rw [← hkeys, List.toFinset_card_of_nodup d.pages.keys_nodup]
  exact (List.length_map _).symm

theorem grown_create (file : Mem) (fileSize : ℕ) : Grown (.create file fileSize) [] := by
  refine ⟨fileRep_create file fileSize, ?_, rfl, ⟨0, rfl⟩, le_max_left _ _⟩
  intro p
  exact ⟨fun hp => absurd hp (AList.notMem_empty p), fun hp => absurd hp (Finset.notMem_empty p)⟩

theorem length_slots (d : DiskManager) : (slots d).length = d.numPages + d.freeSlots.length := by
  unfold slots offsets DiskManager.numPages
  rw [List.length_append, List.length_map]

/-- The capacity is doubled when it is reached, and a slot must be appended. -/
theorem locate_capacity {p : Int32} {o : Option ℕ} {d' : DiskManager} (hloc : d.locate allOk p = (o, d')) :
    d'.pageCapacity = d.pageCapacity ∨
    (p ∉ d.pages ∧ d.freeSlots = [] ∧ d.pageCapacity ≤ d.numPages + 1 ∧ d'.pageCapacity = d.pageCapacity * 2) := by
  unfold DiskManager.locate at hloc
  cases hlook : d.pages.lookup p with
  | some offset =>
    rw [hlook] at hloc
    cases hloc
    exact .inl rfl
  | none =>
    rw [hlook] at hloc
    unfold DiskManager.allocatePage at hloc
    cases hfree : d.freeSlots with
    | cons offset rest =>
      rw [hfree] at hloc
      cases hloc
      exact .inl rfl
    | nil =>
      rw [hfree] at hloc
      dsimp only at hloc
      by_cases hgrow : d.pageCapacity ≤ d.numPages + 1
      · rw [if_pos hgrow] at hloc
        cases hloc
        exact .inr ⟨AList.lookup_eq_none.mp hlook, rfl, hgrow, rfl⟩
      · rw [if_neg hgrow] at hloc
        cases hloc
        exact .inl rfl

/-- **`WritePage`** takes a new slot only when all the slots there were are in use. -/
theorem writePage_grown (h : Grown d hist) (p : Int32) (page : Page) :
    Grown (d.writePage allOk p page) (.writePage p page :: hist) := by
  obtain ⟨offset, d', hloc, hpages, hbad, -, -⟩ := locate_ok h.rep p
  have hrep := writePage_rep h.rep p page
  have heq := writePage_eq page hloc hbad
  have hmem : ∀ q, q ∈ (d.writePage allOk p page).pages ↔ q ∈ livePages (.writePage p page :: hist) := by
    intro q
    show q ∈ (d.writePage ⟨true, true, true⟩ p page).pages ↔ q ∈ insert p (livePages hist)
    rw [heq, AList.mem_insert, hpages, h.mem_pages q, Finset.mem_insert]
  have hnum := numPages_eq_card hmem
  have hold := numPages_eq_card h.mem_pages
  have hslots := h.slots_eq
  have hpeak : peak (.writePage p page :: hist) = max (insert p (livePages hist)).card (peak hist) := rfl
  rw [length_slots] at hslots
  have hcap : (d.writePage allOk p page).pageCapacity = d'.pageCapacity := by
    show (d.writePage ⟨true, true, true⟩ p page).pageCapacity = _
    rw [heq]
  have hfree' : (d.writePage allOk p page).freeSlots = d'.freeSlots := by
    show (d.writePage ⟨true, true, true⟩ p page).freeSlots = _
    rw [heq]
  have hcard : p ∉ d.pages → (insert p (livePages hist)).card = (livePages hist).card + 1 := by
    intro hnot
    exact Finset.card_insert_of_notMem fun hp => hnot ((h.mem_pages p).mpr hp)
  have hnum' : (d.writePage allOk p page).numPages = (insert p (livePages hist)).card := hnum
  refine ⟨hrep, hmem, ?_, ?_, ?_⟩
  · rw [length_slots, hnum', hfree', hpeak]
    rcases locate_cases h.rep.inv hloc with ⟨a, hlook, -, rfl⟩ | ⟨hnot, a, rest, hfree, -, rfl⟩ |
      ⟨hnot, hfree, -, hnil, -, -, -⟩
    · have hp : p ∈ livePages hist := (h.mem_pages p).mp (AList.lookup_isSome.mp (by rw [hlook]; rfl))
      rw [Finset.insert_eq_of_mem hp]
      omega
    · rw [hfree, List.length_cons] at hslots
      rw [hcard hnot]
      dsimp only
      omega
    · rw [hfree, List.length_nil] at hslots
      rw [hcard hnot, hnil, List.length_nil]
      omega
  · obtain ⟨k, hk⟩ := h.doubled
    rcases locate_capacity hloc with hsame | ⟨-, -, -, htwice⟩
    · exact ⟨k, by rw [hcap, hsame, hk]⟩
    · exact ⟨k + 1, by rw [hcap, htwice, hk, Nat.pow_succ, Nat.mul_assoc]⟩
  · have hneeded := h.needed
    rw [hcap, hpeak]
    rcases locate_capacity hloc with hsame | ⟨hnot, -, hgrow, htwice⟩
    · omega
    · have hmore := hcard hnot
      omega

/-- **`DeletePage`** moves a slot to the free ones. -/
theorem deletePage_grown (h : Grown d hist) (p : Int32) : Grown (d.deletePage p) (.deletePage p :: hist) := by
  have hrep := deletePage_rep h.rep p
  have hpeak : peak (.deletePage p :: hist) = peak hist := by
    refine max_eq_right ?_
    exact (Finset.card_le_card (Finset.erase_subset _ _)).trans (card_livePages_le_peak hist)
  have hcap : (d.deletePage p).pageCapacity = d.pageCapacity := by
    unfold DiskManager.deletePage
    split <;> rfl
  have hmem : ∀ q, q ∈ (d.deletePage p).pages ↔ q ∈ (livePages hist).erase p := by
    intro q
    rw [Finset.mem_erase, ← h.mem_pages q]
    unfold DiskManager.deletePage
    split
    · rename_i hlook
      refine ⟨?_, And.right⟩
      rintro hq
      refine ⟨?_, hq⟩
      rintro rfl
      exact AList.lookup_eq_none.mp hlook hq
    · exact AList.mem_erase
  refine ⟨hrep, hmem, ?_, ?_, ?_⟩
  · rw [hpeak, ← h.slots_eq]
    unfold DiskManager.deletePage
    split
    · rfl
    · rename_i offset hlook
      have hlen := (entries_perm hlook).length_eq
      rw [List.length_cons] at hlen
      rw [length_slots, length_slots]
      show (d.pages.erase p).entries.length + (offset :: d.freeSlots).length =
        d.pages.entries.length + d.freeSlots.length
      rw [List.length_cons]
      omega
  · rw [hcap]
    exact h.doubled
  · rw [hcap, hpeak]
    exact h.needed

end Growth

/-! ## The size as an `int` -/

section Size

/-- The size that `ReadPage` compares with is that of the file, and every live page is copied to the buffer. -/
structure SizeExact (d : DiskManager) (hist : List DiskOp) : Prop where
  size : (d.getFileSize allOk).toInt = d.fileSize
  reads : ∀ p page, lastWrite p hist = some page → (d.readPage allOk p).1 = some page.1

variable {d : DiskManager} {hist : List DiskOp}

/-- With `2^17` pages the file has grown to `2^18 + 1` of them. -/
theorem Grown.capacity_ge (h : Grown d hist) (hpeak : 2 ^ 17 ≤ peak hist) : 2 ^ 18 ≤ d.pageCapacity := by
  obtain ⟨k, hk⟩ := h.doubled
  have hroom := h.rep.inv.room
  rw [h.slots_eq, hk] at hroom
  have hlt : 2 ^ 13 < 2 ^ k := by
    unfold defaultDbIoSize at hroom
    omega
  have hpow : 2 ^ 14 ≤ 2 ^ k := Nat.pow_le_pow_right Nat.two_pos ((Nat.pow_lt_pow_iff_right Nat.one_lt_two).mp hlt)
  rw [hk]
  unfold defaultDbIoSize
  omega

theorem Grown.fileSize_lt (h : Grown d hist) (hpeak : peak hist < 2 ^ 17) : d.fileSize < 2 ^ 31 := by
  have hneeded := h.needed
  rw [h.rep.size]
  unfold defaultDbIoSize at hneeded
  unfold pageSize
  omega

/-- **The size is exact as long as at most `2^17 - 1` pages were live at once.** -/
theorem Grown.sizeExact_iff (h : Grown d hist) : SizeExact d hist ↔ peak hist < 2 ^ 17 := by
  constructor
  · rintro ⟨hsize, -⟩
    by_contra hpeak
    have hcap := h.capacity_ge (Nat.le_of_not_lt hpeak)
    have hlt := (d.getFileSize allOk).toInt_lt
    rw [hsize, h.rep.size] at hlt
    unfold pageSize at hlt
    omega
  · intro hpeak
    have hsmall := h.fileSize_lt hpeak
    refine ⟨?_, ?_⟩
    · exact Int32.toInt_ofNat_of_lt hsmall
    · intro p page hlast
      obtain ⟨d', hread, -⟩ := readPage_rep h.rep hlast hsmall
      exact congrArg Prod.fst hread

/-- The manager after calls with nothing failing. -/
def fileAfter (file : Mem) (fileSize : ℕ) (ops : List DiskOp) : DiskManager :=
  runDisk (.create file fileSize) (ops.map fun op => (allOk, op))

theorem fileAfter_concat (file : Mem) (fileSize : ℕ) (ops : List DiskOp) (op : DiskOp) :
    fileAfter file fileSize (ops ++ [op]) = (applyDiskOp (fileAfter file fileSize ops) allOk op).2 := by
  unfold fileAfter runDisk
  rw [List.map_append, List.foldl_append]
  rfl

/-- A call of `WritePage` or `DeletePage`. -/
def DiskOp.Stores : DiskOp → Prop
  | .readPage _ => False
  | _ => True

theorem grown_fileAfter (file : Mem) (fileSize : ℕ) (ops : List DiskOp) (hops : ∀ op ∈ ops, op.Stores) :
    Grown (fileAfter file fileSize ops) ops.reverse := by
  induction ops using List.reverseRecOn with
  | nil => exact grown_create file fileSize
  | append_singleton ops op ih =>
    have hgrown := ih fun op' hop => hops op' (List.mem_append_left _ hop)
    rw [fileAfter_concat, List.reverse_append]
    cases op with
    | writePage p page => exact writePage_grown hgrown p page
    | readPage p => exact (hops _ (List.mem_append_right _ (.head _))).elim
    | deletePage p => exact deletePage_grown hgrown p

/-- **File growth.**  Along a run of `WritePage` and `DeletePage` the size that `ReadPage` compares with is that of
the file, and `ReadPage` copies every written page, in all states, exactly if at most `2^17 - 1` pages are live in
each of them. -/
theorem file_size_iff (file : Mem) (fileSize : ℕ) (ops : List DiskOp) (hops : ∀ op ∈ ops, op.Stores) :
    (∀ pre post, ops = pre ++ post → SizeExact (fileAfter file fileSize pre) pre.reverse) ↔
      ∀ pre post, ops = pre ++ post → (livePages pre.reverse).card ≤ 131071 := by
  have hgrown : ∀ pre post, ops = pre ++ post → Grown (fileAfter file fileSize pre) pre.reverse := by
    intro pre post heq
    refine grown_fileAfter file fileSize pre fun op hop => hops op ?_
    rw [heq]
    exact List.mem_append_left _ hop
  constructor
  · intro h pre post heq
    have hpeak := (hgrown pre post heq).sizeExact_iff.mp (h pre post heq)
    have hcard := card_livePages_le_peak pre.reverse
    omega
  · intro h pre post heq
    refine (hgrown pre post heq).sizeExact_iff.mpr (Nat.lt_succ_of_le (peak_le_iff.mpr ?_))
    intro later earlier hrev
    -- an earlier state of the run
    have hpre : pre = earlier.reverse ++ later.reverse := by
      rw [← List.reverse_append, ← hrev, List.reverse_reverse]
    have hcard := h earlier.reverse (later.reverse ++ post) (by rw [heq, hpre, List.append_assoc])
    rwa [List.reverse_reverse] at hcard

theorem card_livePages_le_length : ∀ hist : List DiskOp, (livePages hist).card ≤ hist.length
  | [] => le_refl 0
  | .writePage p _ :: hist => (Finset.card_insert_le p _).trans (Nat.succ_le_succ (card_livePages_le_length hist))
  | .deletePage _ :: hist =>
    (Finset.card_le_card (Finset.erase_subset _ _)).trans ((card_livePages_le_length hist).trans (Nat.le_succ _))
  | .readPage _ :: hist => (card_livePages_le_length hist).trans (Nat.le_succ _)

/-- Page 7 is written and deleted. -/
theorem file_size_two_calls :
    SizeExact (fileAfter (fun _ => 0) 0 [.writePage 7 zeroPage, .deletePage 7]) [.deletePage 7, .writePage 7 zeroPage] := by
  have hops : ∀ op ∈ [DiskOp.writePage 7 zeroPage, .deletePage 7], op.Stores := by
    intro op hop
    rcases List.mem_pair.mp hop with rfl | rfl
    · trivial
    · trivial
  refine (file_size_iff (fun _ => 0) 0 _ hops).mpr ?_ _ [] (List.append_nil _).symm
  intro pre post heq
  have hcard := card_livePages_le_length pre.reverse
  have hlen := congrArg List.length heq
  rw [List.length_append, List.length_cons, List.length_singleton] at hlen
  rw [List.length_reverse] at hcard
  omega

/-- Pages are written, each with zeros. -/
def writes (ids : List Int32) : List DiskOp := ids.map fun p => .writePage p zeroPage

theorem reverse_writes (ids : List Int32) : (writes ids).reverse = writes ids.reverse := (List.map_reverse ..).symm

theorem livePages_writes (ids : List Int32) : livePages (writes ids) = ids.toFinset := by
  induction ids with
  | nil => rfl
  | cons p ids ih =>
    rw [List.toFinset_cons, ← ih]
    rfl

theorem lastWrite_writes {p : Int32} {ids : List Int32} (h : p ∈ ids) : lastWrite p (writes ids) = some zeroPage := by
  induction ids with
  | nil => cases h
  | cons q ids ih =>
    show (if q = p then some zeroPage else lastWrite p (writes ids)) = some zeroPage
    by_cases hq : q = p
    · rw [if_pos hq]
    · rw [if_neg hq]
      exact ih ((List.mem_cons.mp h).resolve_left (Ne.symm hq))

/-- The page ids below `2^17`. -/
def manyPages : List Int32 := (List.range 131072).map Int32.ofNat

theorem nodup_manyPages : manyPages.Nodup := by
  refine List.nodup_range.map_on ?_
  intro i hi j hj heq
  rw [List.mem_range] at hi hj
  have hnat := congrArg Int32.toNatClampNeg heq
  rwa [Int32.toNatClampNeg_ofNat_of_lt (by omega), Int32.toNatClampNeg_ofNat_of_lt (by omega)] at hnat

/-- When `2^17` pages were live at once, the size is negative as an `int`, and `ReadPage` leaves the buffer as it
is. -/
theorem Grown.read_full (h : Grown d hist) (hpeak : peak hist = 2 ^ 17) {p : Int32} {page : Page}
    (hlast : lastWrite p hist = some page) :
    d.fileSize = 2147491840 ∧ d.getFileSize allOk = -2147475456 ∧ (d.readPage allOk p).1 = none := by
  have hcap := h.capacity_ge hpeak.ge
  have hneeded := h.needed
  have hsize : d.fileSize = 2147491840 := by
    rw [h.rep.size]
    unfold defaultDbIoSize at hneeded
    unfold pageSize
    omega
  have hint : d.getFileSize allOk = -2147475456 := by
    unfold DiskManager.getFileSize
    rw [hsize]
    decide
  refine ⟨hsize, hint, ?_⟩
  obtain ⟨offset, hlook, -⟩ := h.rep.live p page hlast
  unfold DiskManager.readPage DiskManager.locate
  rw [hlook]
  dsimp only
  rw [hint, if_pos (by decide)]

theorem peak_writes : peak (writes manyPages).reverse = 2 ^ 17 := by
  have hlength : manyPages.length = 2 ^ 17 := by
    unfold manyPages
    rw [List.length_map, List.length_range]
    rfl
  have hcard : (livePages (writes manyPages).reverse).card = 2 ^ 17 := by
    rw [reverse_writes, livePages_writes, List.toFinset_card_of_nodup (List.nodup_reverse.mpr nodup_manyPages),
      List.length_reverse, hlength]
  refine le_antisymm (peak_le_iff.mpr ?_) (hcard ▸ card_livePages_le_peak _)
  intro pre post heq
  have hlen := congrArg List.length heq
  have hpost := card_livePages_le_length post
  rw [List.length_reverse, writes, List.length_map, hlength, List.length_append] at hlen
  omega

/-- With `2^17` pages written, page 0 is not read. -/
theorem many_pages_not_read :
    (fileAfter (fun _ => 0) 0 (writes manyPages)).fileSize = 2147491840 ∧
    (fileAfter (fun _ => 0) 0 (writes manyPages)).getFileSize allOk = -2147475456 ∧
    lastWrite 0 (writes manyPages).reverse = some zeroPage ∧
    ((fileAfter (fun _ => 0) 0 (writes manyPages)).readPage allOk 0).1 = none ∧
    ¬ SizeExact (fileAfter (fun _ => 0) 0 (writes manyPages)) (writes manyPages).reverse := by
  have hops : ∀ op ∈ writes manyPages, op.Stores := by
    intro op hop
    obtain ⟨p, -, rfl⟩ := List.mem_map.mp hop
    trivial
  have hgrown := grown_fileAfter (fun _ => 0) 0 (writes manyPages) hops
  have hlast : lastWrite 0 (writes manyPages).reverse = some zeroPage := by
    have hmem : (0 : Int32) ∈ manyPages := List.mem_map.mpr ⟨0, List.mem_range.mpr (by decide), rfl⟩
    rw [reverse_writes]
    exact lastWrite_writes (List.mem_reverse.mpr hmem)
  obtain ⟨hsize, hint, hread⟩ := hgrown.read_full peak_writes hlast
  refine ⟨hsize, hint, hlast, hread, ?_⟩
  intro hexact
  have hlt := hgrown.sizeExact_iff.mp hexact
  rw [peak_writes] at hlt
  exact lt_irrefl _ hlt

end Size

end Journey.Disk
