import Journey.Bustub.Storage.TableHeap

/-!
# Journey.Bustub.Storage.HeapRep — the rows a heap holds

* `HeapRep h pre rows`: the heap `h` holds the rows `rows`, in this order, in the pages
  `pre ++ [lastPageId]`, which are chained by their next-page ids.
* `create_rep`, `chainPage_rep`, `insertLast_rep`, `insertTuple_rep`: building and growing a heap.
* `updateTupleMeta_rep`, `updateTupleInPlace_rep`: updates replace one row.
-/

namespace Journey.Storage

/-- The heap's pages, `pre` before the last one, hold `rows`; every page but the last has a tuple. -/
structure HeapRep (h : TableHeap) (pre : List Int32) (rows : List Row) : Prop where
  first : (pre ++ [h.lastPageId]).head? = some h.firstPageId
  sorted : (pre ++ h.lastPageId :: h.fresh).Pairwise (· < ·)
  valid : invalidPageId ∉ pre ++ h.lastPageId :: h.fresh
  chain : (pre ++ [h.lastPageId]).IsChain fun a b => getNextPageId (h.page a) = b
  lastNext : getNextPageId (h.page h.lastPageId) = invalidPageId
  stacked : ∀ p ∈ pre ++ [h.lastPageId], Stacked (h.page p)
  full : ∀ p ∈ pre, 0 < getNumTuples (h.page p)
  rows_eq : rows = (pre ++ [h.lastPageId]).flatMap fun p => pageRows (h.page p) p

/-- Between calls the last page is empty only when it is the only one. -/
def Settled (h : TableHeap) (pre : List Int32) : Prop :=
  pre = [] ∨ 0 < getNumTuples (h.page h.lastPageId)

variable {h : TableHeap} {pre : List Int32} {rows : List Row} {tupleMeta : TupleMeta} {t : Tuple}

/-! ## Order of the pages -/

section Order

theorem HeapRep.lt_last (hr : HeapRep h pre rows) {p : Int32} (hp : p ∈ pre) : p < h.lastPageId :=
  (List.pairwise_append.mp hr.sorted).2.2 p hp _ (List.mem_cons_self ..)

theorem HeapRep.ne_last (hr : HeapRep h pre rows) {p : Int32} (hp : p ∈ pre) : p ≠ h.lastPageId := by
  rintro rfl
  exact absurd (hr.lt_last hp) Int32.lt_irrefl

theorem HeapRep.ne_fresh (hr : HeapRep h pre rows) {p q : Int32} (hp : p ∈ pre ++ [h.lastPageId])
    (hq : q ∈ h.fresh) : p ≠ q := by
  rintro rfl
  have hs := hr.sorted
  rw [← List.singleton_append, ← List.append_assoc] at hs
  exact absurd ((List.pairwise_append.mp hs).2.2 p hp p hq) Int32.lt_irrefl

theorem HeapRep.valid_page (hr : HeapRep h pre rows) {p : Int32} (hp : p ∈ pre ++ [h.lastPageId]) :
    p ≠ invalidPageId := by
  rintro rfl
  refine hr.valid ?_
  rw [← List.singleton_append, ← List.append_assoc]
  exact List.mem_append_left _ hp

theorem HeapRep.last_mem (_ : HeapRep h pre rows) : h.lastPageId ∈ pre ++ [h.lastPageId] :=
  List.mem_append_right _ (List.mem_singleton_self _)

end Order

/-! ## Rewriting pages -/

section Rewriting

/-- The pages may change as long as they keep their links, the invariant, and a tuple each. -/
theorem HeapRep.rewrite (hr : HeapRep h pre rows) {page : Int32 → Mem} {rows' : List Row}
    (hnext : ∀ p ∈ pre ++ [h.lastPageId], getNextPageId (page p) = getNextPageId (h.page p))
    (hstacked : ∀ p ∈ pre ++ [h.lastPageId], Stacked (page p))
    (hfull : ∀ p ∈ pre, 0 < getNumTuples (page p))
    (hrows : rows' = (pre ++ [h.lastPageId]).flatMap fun p => pageRows (page p) p) :
    HeapRep { h with page := page } pre rows' := by
  refine ⟨hr.first, hr.sorted, hr.valid, ?_, ?_, hstacked, hfull, hrows⟩
  · refine hr.chain.imp_of_mem_imp ?_
    intro a b ha _ hab
    rw [hnext a ha]
    exact hab
  · show getNextPageId (page h.lastPageId) = invalidPageId
    rw [hnext _ hr.last_mem]
    exact hr.lastNext

/-- A page outside the heap may change freely. -/
theorem HeapRep.rewrite_foreign (hr : HeapRep h pre rows) {q : Int32} {m : Mem}
    (hq : q ∉ pre ++ [h.lastPageId]) : HeapRep { h with page := Function.update h.page q m } pre rows := by
  have hpage : ∀ p ∈ pre ++ [h.lastPageId], Function.update h.page q m p = h.page p := by
    intro p hp
    refine Function.update_of_ne ?_ ..
    rintro rfl
    exact hq hp
  refine hr.rewrite ?_ ?_ ?_ ?_
  · intro p hp
    rw [hpage p hp]
  · intro p hp
    rw [hpage p hp]
    exact hr.stacked p hp
  · intro p hp
    rw [hpage p (List.mem_append_left _ hp)]
    exact hr.full p hp
  · rw [hr.rows_eq]
    refine List.flatMap_congr ?_
    intro p hp
    rw [hpage p hp]

/-- One slot of one page of the heap is overwritten. -/
theorem HeapRep.rewrite_slot (hr : HeapRep h pre rows) {rid : RID} {m : Mem}
    {e : TupleMeta × List UInt8} {f : Row → Row}
    (hupd : Updated (h.page rid.pageId) m rid.slotNum e)
    (hf : rowAt m rid = f (rowAt (h.page rid.pageId) rid)) :
    HeapRep { h with page := Function.update h.page rid.pageId m } pre (updateRow rows rid f) := by
  have hself : Function.update h.page rid.pageId m rid.pageId = m := Function.update_self ..
  have hother : ∀ p, p ≠ rid.pageId → Function.update h.page rid.pageId m p = h.page p :=
    fun p hp => Function.update_of_ne hp ..
  have hnum : ∀ p, getNumTuples (Function.update h.page rid.pageId m p) = getNumTuples (h.page p) := by
    intro p
    by_cases hp : p = rid.pageId
    · subst hp
      rw [hself, hupd.numTuples]
    · rw [hother p hp]
  refine hr.rewrite ?_ ?_ ?_ ?_
  · intro p _
    by_cases hp : p = rid.pageId
    · subst hp
      rw [hself, hupd.nextPageId]
    · rw [hother p hp]
  · intro p hmem
    by_cases hp : p = rid.pageId
    · subst hp
      rw [hself]
      exact hupd.stacked
    · rw [hother p hp]
      exact hr.stacked p hmem
  · intro p hp
    rw [hnum p]
    exact hr.full p hp
  · have hmap : updateRow rows rid f =
        (pre ++ [h.lastPageId]).flatMap fun p => updateRow (pageRows (h.page p) p) rid f := by
      rw [hr.rows_eq]
      exact List.map_flatMap ..
    rw [hmap]
    refine List.flatMap_congr ?_
    intro p _
    by_cases hp : p = rid.pageId
    · subst hp
      rw [hself, pageRows_updated hupd hf]
    · rw [hother p hp]
      refine updateRow_eq_self ?_
      intro r hr' heq
      obtain ⟨i, -, rfl⟩ := mem_pageRows hr'
      rw [rid_rowAt] at heq
      exact hp (congrArg RID.pageId heq)

/-- Rows carry the ids of their pages. -/
theorem HeapRep.page_of_row (hr : HeapRep h pre rows) {r : Row} (hmem : r ∈ rows) :
    r.rid.pageId ∈ pre ++ [h.lastPageId] ∧ r.rid.slotNum < getNumTuples (h.page r.rid.pageId) ∧
      r = rowAt (h.page r.rid.pageId) r.rid := by
  rw [hr.rows_eq] at hmem
  obtain ⟨p, hp, hrow⟩ := List.mem_flatMap.mp hmem
  obtain ⟨i, hi, rfl⟩ := mem_pageRows hrow
  exact ⟨hp, hi, rfl⟩

/-- **Every row is read back by its RID.** -/
theorem HeapRep.getTuple_row (hr : HeapRep h pre rows) {r : Row} (hmem : r ∈ rows) :
    h.getTuple r.rid = .ok r := by
  obtain ⟨-, hi, heq⟩ := hr.page_of_row hmem
  unfold TableHeap.getTuple
  rw [getTuple_eq_rowAt hi, ← heq]
  rfl

end Rewriting

/-! ## Building and growing -/

section Growing

theorem getNumTuples_setNextPageId (m : Mem) (id : Int32) :
    getNumTuples (setNextPageId m id) = getNumTuples m :=
  getNumTuples_congr fun _ h4 _ => setNextPageId_apart h4

theorem pageRows_setNextPageId (m : Mem) (id p : Int32) (h : Stacked m) :
    pageRows (setNextPageId m id) p = pageRows m p := by
  refine pageRows_congr (getNumTuples_setNextPageId m id) ?_
  intro i hi
  have hbase := h.base
  have hend := h.slotEnd_le hi
  refine entry_congr ?_ ?_
  · refine tupleInfo_congr ?_
    intro a ha _
    rw [slotAddr_eq] at ha
    exact setNextPageId_apart (by omega)
  · intro a ha _
    exact setNextPageId_apart (by omega)

theorem create_rep (page : Int32 → Mem) {first : Int32} {fresh : List Int32}
    (hsorted : (first :: fresh).Pairwise (· < ·)) (hvalid : invalidPageId ∉ first :: fresh) :
    ∃ h, TableHeap.create page (first :: fresh) = .ok h ∧ h.lastPageId = first ∧ h.fresh = fresh ∧
      HeapRep h [] [] := by
  refine ⟨_, rfl, rfl, rfl, ?_⟩
  refine ⟨rfl, hsorted, hvalid, List.isChain_singleton _, ?_, ?_, ?_, ?_⟩
  · simp
  · intro p hp
    simp only [List.nil_append, List.mem_singleton] at hp
    subst hp
    simpa using stacked_init (page p)
  · intro p hp
    cases hp
  · simp [pageRows_of_empty]

/-- **A page is linked behind the last one.** -/
theorem chainPage_rep (hr : HeapRep h pre rows) {next : Int32} {fresh : List Int32}
    (hfresh : h.fresh = next :: fresh) (hpos : 0 < getNumTuples (h.page h.lastPageId)) :
    ∃ h', h.chainPage = .ok h' ∧ h'.fresh = fresh ∧ h'.lastPageId = next ∧
      h'.firstPageId = h.firstPageId ∧ getNumTuples (h'.page next) = 0 ∧
      (∀ p ∈ pre ++ [h.lastPageId], getNumTuples (h'.page p) = getNumTuples (h.page p)) ∧
      HeapRep h' (pre ++ [h.lastPageId]) rows := by
  have hne : ∀ p ∈ pre ++ [h.lastPageId], p ≠ next := fun p hp =>
    hr.ne_fresh hp (by rw [hfresh]; exact List.mem_cons_self ..)
  set page := Function.update h.page h.lastPageId (setNextPageId (h.page h.lastPageId) next) with hpage
  set page' := Function.update page next (init (page next)) with hpage'
  have hnew : page' next = init (page next) := Function.update_self ..
  have hlast : page' h.lastPageId = setNextPageId (h.page h.lastPageId) next := by
    rw [hpage', Function.update_of_ne (hne _ hr.last_mem), hpage, Function.update_self]
  have hpre : ∀ p ∈ pre, page' p = h.page p := by
    intro p hp
    rw [hpage', Function.update_of_ne (hne p (List.mem_append_left _ hp)), hpage,
      Function.update_of_ne (hr.ne_last hp)]
  have hchain : h.chainPage = .ok ⟨page', fresh, h.firstPageId, next⟩ := by
    unfold TableHeap.chainPage
    rw [hfresh]
  refine ⟨_, hchain, rfl, rfl, rfl, ?_, ?_, ?_⟩
  · show getNumTuples (page' next) = 0
    rw [hnew, getNumTuples_init]
  · intro p hp
    show getNumTuples (page' p) = getNumTuples (h.page p)
    rcases List.mem_append.mp hp with hp | hp
    · rw [hpre p hp]
    · obtain rfl := List.mem_singleton.mp hp
      rw [hlast, getNumTuples_setNextPageId]
  have hsorted := hr.sorted
  have hvalid := hr.valid
  rw [hfresh] at hsorted hvalid
  refine ⟨?_, ?_, ?_, ?_, ?_, ?_, ?_, ?_⟩
  · show ((pre ++ [h.lastPageId]) ++ [next]).head? = some h.firstPageId
    rw [List.head?_append_of_ne_nil _ (by simp)]
    exact hr.first
  · simpa using hsorted
  · simpa using hvalid
  · -- the old links are those of pages before the last one
    show ((pre ++ [h.lastPageId]) ++ [next]).IsChain fun a b => getNextPageId (page' a) = b
    refine List.isChain_append.mpr ⟨?_, List.isChain_singleton _, ?_⟩
    · refine List.isChain_append.mpr ⟨?_, List.isChain_singleton _, ?_⟩
      · refine (List.isChain_append.mp hr.chain).1.imp_of_mem_imp ?_
        intro a b ha _ hab
        rw [hpre a ha]
        exact hab
      · intro a ha b hb
        rw [hpre a (List.mem_of_mem_getLast? ha)]
        exact (List.isChain_append.mp hr.chain).2.2 a ha b hb
    · intro a ha b hb
      simp only [List.getLast?_append, List.getLast?_singleton, Option.some_or, Option.mem_def,
        Option.some.injEq, List.head?_cons] at ha hb
      subst ha hb
      rw [hlast, getNextPageId_setNextPageId]
  · show getNextPageId (page' next) = invalidPageId
    rw [hnew, getNextPageId_init]
  · intro p hp
    show Stacked (page' p)
    rcases List.mem_append.mp hp with hp | hp
    · rcases List.mem_append.mp hp with hp | hp
      · rw [hpre p hp]
        exact hr.stacked p (List.mem_append_left _ hp)
      · obtain rfl := List.mem_singleton.mp hp
        rw [hlast]
        exact stacked_setNextPageId (hr.stacked _ hr.last_mem)
    · rw [List.mem_singleton.mp hp]
      show Stacked (page' next)
      rw [hnew]
      exact stacked_init _
  · intro p hp
    show 0 < getNumTuples (page' p)
    rcases List.mem_append.mp hp with hp | hp
    · rw [hpre p hp]
      exact hr.full p hp
    · obtain rfl := List.mem_singleton.mp hp
      rw [hlast, getNumTuples_setNextPageId]
      exact hpos
  · show rows = ((pre ++ [h.lastPageId]) ++ [next]).flatMap fun p => pageRows (page' p) p
    have hprerows : pre.flatMap (fun p => pageRows (page' p) p) =
        pre.flatMap fun p => pageRows (h.page p) p := by
      refine List.flatMap_congr ?_
      intro p hp
      rw [hpre p hp]
    rw [hr.rows_eq]
    simp only [List.flatMap_append, List.flatMap_singleton, hprerows, hlast, hnew,
      pageRows_setNextPageId _ _ _ (hr.stacked _ hr.last_mem),
      pageRows_of_empty (getNumTuples_init _), List.append_nil]

/-- **The tuple goes into the last page**, behind all other rows. -/
theorem insertLast_rep (tupleMeta : TupleMeta) (hr : HeapRep h pre rows) (hfit : Fits (h.page h.lastPageId) t) :
    ∃ h', h.insertLast tupleMeta t =
        .ok (⟨h.lastPageId, getNumTuples (h.page h.lastPageId)⟩, h') ∧
      h'.fresh = h.fresh ∧ h'.lastPageId = h.lastPageId ∧ h'.firstPageId = h.firstPageId ∧
      getNumTuples (h'.page h.lastPageId) = getNumTuples (h.page h.lastPageId) + 1 ∧
      (∀ p ∈ pre, h'.page p = h.page p) ∧
      HeapRep h' pre (rows ++
        [(tupleMeta, { t with rid := ⟨h.lastPageId, getNumTuples (h.page h.lastPageId)⟩ })]) := by
  have hstacked := hr.stacked _ hr.last_mem
  obtain ⟨m', hins, hm'⟩ := insertTuple_spec tupleMeta hstacked hfit
  have hslot : (UInt16.ofNat (getNumTuples (h.page h.lastPageId))).toNat =
      getNumTuples (h.page h.lastPageId) := by
    have hle := hstacked.numTuples_le
    rw [UInt16.toNat_ofNat']
    exact Nat.mod_eq_of_lt (by omega)
  have hlast : Function.update h.page h.lastPageId m' h.lastPageId = m' := Function.update_self ..
  have hpre : ∀ p ∈ pre, Function.update h.page h.lastPageId m' p = h.page p :=
    fun p hp => Function.update_of_ne (hr.ne_last hp) ..
  have heq : h.insertLast tupleMeta t = .ok (⟨h.lastPageId, getNumTuples (h.page h.lastPageId)⟩,
      { h with page := Function.update h.page h.lastPageId m' }) := by
    unfold TableHeap.insertLast
    rw [hins]
    simp only [hslot]
  refine ⟨_, heq, rfl, rfl, rfl, ?_, hpre, ?_⟩
  · show getNumTuples (Function.update h.page h.lastPageId m' h.lastPageId) = _
    rw [hlast]
    exact hm'.numTuples
  refine hr.rewrite ?_ ?_ ?_ ?_
  · intro p hp
    rcases List.mem_append.mp hp with hp | hp
    · rw [hpre p hp]
    · rw [List.mem_singleton.mp hp, hlast, hm'.nextPageId]
  · intro p hp
    rcases List.mem_append.mp hp with hp | hp
    · rw [hpre p hp]
      exact hr.stacked p (List.mem_append_left _ hp)
    · rw [List.mem_singleton.mp hp, hlast]
      exact hm'.stacked
  · intro p hp
    rw [hpre p hp]
    exact hr.full p hp
  · have hprerows : pre.flatMap (fun p => pageRows (Function.update h.page h.lastPageId m' p) p) =
        pre.flatMap fun p => pageRows (h.page p) p := by
      refine List.flatMap_congr ?_
      intro p hp
      rw [hpre p hp]
    rw [hr.rows_eq]
    simp only [List.flatMap_append, List.flatMap_singleton, hprerows, hlast, pageRows_inserted hm',
      List.append_assoc]

theorem getNextTupleOffset_ne_none (hfit : Fits (h.page h.lastPageId) t) :
    getNextTupleOffset (h.page h.lastPageId) tupleMeta t ≠ none := by
  rw [getNextTupleOffset_of_le hfit.length_le, if_pos hfit]
  exact Option.some_ne_none _

theorem findRoom_of_fits (hfit : Fits (h.page h.lastPageId) t) (k : ℕ) :
    TableHeap.findRoom tupleMeta t (k + 1) h = .ok h := if_pos (getNextTupleOffset_ne_none hfit)

/-- A tuple of at most `8192 - 8 - 24` bytes fits an empty page. -/
theorem fits_of_empty {m : Mem} (h0 : getNumTuples m = 0) (hlen : t.getLength ≤ 8192 - 8 - 24) :
    Fits m t := by
  rw [fits_iff, h0, slotEndOffset_eq_pageSize h0]
  omega

/-- What stays of a heap that only grows: its first page, its pages, and their tuples. -/
structure Grows (h : TableHeap) (pre : List Int32) (h' : TableHeap) (pre' : List Int32) : Prop where
  first : h'.firstPageId = h.firstPageId
  pages : ∀ p ∈ pre ++ [h.lastPageId], p ∈ pre' ++ [h'.lastPageId]
  num : ∀ p ∈ pre ++ [h.lastPageId], getNumTuples (h.page p) ≤ getNumTuples (h'.page p)
  supply : pre' ++ h'.lastPageId :: h'.fresh = pre ++ h.lastPageId :: h.fresh

theorem Grows.refl (h : TableHeap) (pre : List Int32) : Grows h pre h pre :=
  ⟨rfl, fun _ hp => hp, fun _ _ => le_refl _, rfl⟩

/-- **The loop of `InsertTuple`** finds room in the last page, links one page and finds it there, or
ends the process because the tuple does not fit an empty page. -/
theorem findRoom_rep (tupleMeta : TupleMeta) (hr : HeapRep h pre rows)
    (hle : t.getLength ≤ slotEndOffset (h.page h.lastPageId)) (hfresh : h.fresh ≠ []) :
    (TableHeap.findRoom tupleMeta t (h.fresh.length + 1) h =
        .error (.terminate "tuple is too large, cannot insert") ∧ 8192 - 8 - 24 < t.getLength) ∨
    ∃ h' pre', TableHeap.findRoom tupleMeta t (h.fresh.length + 1) h = .ok h' ∧
      HeapRep h' pre' rows ∧ Fits (h'.page h'.lastPageId) t ∧ Grows h pre h' pre' := by
  by_cases hfit : Fits (h.page h.lastPageId) t
  · exact .inr ⟨h, pre, findRoom_of_fits hfit _, hr, hfit, Grows.refl h pre⟩
  have hnone : getNextTupleOffset (h.page h.lastPageId) tupleMeta t = none :=
    (getNextTupleOffset_eq_none_iff hfit).mpr hle
  rw [TableHeap.findRoom, if_neg (not_not.mpr hnone)]
  rcases Nat.eq_zero_or_pos (getNumTuples (h.page h.lastPageId)) with h0 | hpos
  · refine .inl ⟨if_pos h0, ?_⟩
    by_contra hlen
    exact hfit (fits_of_empty h0 (by omega))
  obtain ⟨next, fresh, hcons⟩ : ∃ next fresh, h.fresh = next :: fresh :=
    List.exists_cons_of_ne_nil hfresh
  obtain ⟨h', hchain, hf, hl, hfirst, h0, hnum, hr'⟩ := chainPage_rep hr hcons hpos
  rw [if_neg (by omega), hchain, ok_bind, hcons, List.length_cons]
  by_cases hfit' : Fits (h'.page h'.lastPageId) t
  · refine .inr ⟨h', _, findRoom_of_fits hfit' _, hr', hfit', hfirst, ?_, ?_, ?_⟩
    · intro p hp
      exact List.mem_append_left _ hp
    · intro p hp
      exact (hnum p hp).ge
    · rw [hl, hf, hcons, List.append_assoc, List.singleton_append]
  · -- the new page is empty, so the second round ends the process
    have hpage := (hr.stacked _ hr.last_mem).slotEnd_le_pageSize
    rw [← hl] at h0
    have hend := slotEndOffset_eq_pageSize h0
    have hnone' : getNextTupleOffset (h'.page h'.lastPageId) tupleMeta t = none :=
      (getNextTupleOffset_eq_none_iff hfit').mpr (by omega)
    refine .inl ⟨?_, ?_⟩
    · rw [TableHeap.findRoom, if_neg (not_not.mpr hnone'), if_pos h0]
    · by_contra hlen
      exact hfit' (fits_of_empty h0 (by omega))

/-- The rest of `InsertTuple`, as a step of growth. -/
theorem insertLast_grows (tupleMeta : TupleMeta) (hr : HeapRep h pre rows)
    (hfit : Fits (h.page h.lastPageId) t) :
    ∃ rid h', h.insertLast tupleMeta t = .ok (rid, h') ∧
      HeapRep h' pre (rows ++ [(tupleMeta, { t with rid := rid })]) ∧ Settled h' pre ∧
      Grows h pre h' pre := by
  obtain ⟨h', heq, hf, hl, hfirst, hn, hpre, hr'⟩ := insertLast_rep tupleMeta hr hfit
  refine ⟨_, h', heq, hr', ?_, hfirst, ?_, ?_, by rw [hl, hf]⟩
  · right
    rw [hl, hn]
    omega
  · intro p hp
    rwa [hl]
  · intro p hp
    rcases List.mem_append.mp hp with hp | hp
    · rw [hpre p hp]
    · rw [List.mem_singleton.mp hp, hn]
      omega

theorem Grows.trans {h₁ h₂ : TableHeap} {pre₁ pre₂ : List Int32} (h01 : Grows h pre h₁ pre₁)
    (h12 : Grows h₁ pre₁ h₂ pre₂) : Grows h pre h₂ pre₂ := by
  refine ⟨h12.first.trans h01.first, ?_, ?_, h12.supply.trans h01.supply⟩
  · intro p hp
    exact h12.pages p (h01.pages p hp)
  · intro p hp
    exact (h01.num p hp).trans (h12.num p (h01.pages p hp))

/-- **`InsertTuple`** returns a RID and appends the row. -/
theorem insertTuple_rep (tupleMeta : TupleMeta) (hr : HeapRep h pre rows)
    (hlen : t.getLength ≤ 8192 - 8 - 24) (hle : t.getLength ≤ slotEndOffset (h.page h.lastPageId))
    (hfresh : h.fresh ≠ []) :
    ∃ rid h' pre', h.insertTuple tupleMeta t = .ok (rid, h') ∧
      HeapRep h' pre' (rows ++ [(tupleMeta, { t with rid := rid })]) ∧ Settled h' pre' ∧
      Grows h pre h' pre' := by
  rcases findRoom_rep tupleMeta hr hle hfresh with ⟨-, hbig⟩ | ⟨h1, pre1, hroom, hr1, hfit, hg1⟩
  · omega
  · obtain ⟨rid, h', heq, hr', hset, hg2⟩ := insertLast_grows tupleMeta hr1 hfit
    refine ⟨rid, h', pre1, ?_, hr', hset, hg1.trans hg2⟩
    unfold TableHeap.insertTuple
    rw [hroom, ok_bind, heq]

end Growing

/-! ## Updates -/

section Updates

variable {rid : RID}

/-- The row at `rid`, if there is one, gets a new meta. -/
def setMeta (tupleMeta : TupleMeta) (r : Row) : Row := (tupleMeta, r.2)

/-- The row at `rid` is overwritten when the check passes and the size is the same. -/
def setRow (tupleMeta : TupleMeta) (t : Tuple) (rid : RID) (check : TableHeap.Check) (r : Row) : Row :=
  if check.passes r rid ∧ r.2.getLength = t.getLength then (tupleMeta, { t with rid := rid }) else r

/-- No row has a RID outside the heap's pages or slots. -/
theorem updateRow_absent (hr : HeapRep h pre rows) (f : Row → Row)
    (habsent : ¬ (rid.pageId ∈ pre ++ [h.lastPageId] ∧ rid.slotNum < getNumTuples (h.page rid.pageId))) :
    updateRow rows rid f = rows := by
  refine updateRow_eq_self ?_
  rintro r hmem rfl
  obtain ⟨hp, hi, -⟩ := hr.page_of_row hmem
  exact habsent ⟨hp, hi⟩

/-- The heap after an update: the same pages in the same order, one row replaced. -/
structure UpdateRep (h h' : TableHeap) (pre : List Int32) (rows : List Row) : Prop where
  first : h'.firstPageId = h.firstPageId
  last : h'.lastPageId = h.lastPageId
  fresh : h'.fresh = h.fresh
  num : getNumTuples (h'.page h.lastPageId) = getNumTuples (h.page h.lastPageId)
  rep : HeapRep h' pre rows

theorem UpdateRep.refl (hr : HeapRep h pre rows) : UpdateRep h h pre rows := ⟨rfl, rfl, rfl, rfl, hr⟩

theorem UpdateRep.foreign (hr : HeapRep h pre rows) {q : Int32} {m : Mem}
    (hq : q ∉ pre ++ [h.lastPageId]) :
    UpdateRep h { h with page := Function.update h.page q m } pre rows := by
  refine ⟨rfl, rfl, rfl, ?_, hr.rewrite_foreign hq⟩
  show getNumTuples (Function.update h.page q m h.lastPageId) = _
  rw [Function.update_of_ne]
  rintro rfl
  exact hq hr.last_mem

theorem UpdateRep.slot (hr : HeapRep h pre rows) {m : Mem} {e : TupleMeta × List UInt8}
    {f : Row → Row} (hupd : Updated (h.page rid.pageId) m rid.slotNum e)
    (hf : rowAt m rid = f (rowAt (h.page rid.pageId) rid)) :
    UpdateRep h { h with page := Function.update h.page rid.pageId m } pre (updateRow rows rid f) := by
  refine ⟨rfl, rfl, rfl, ?_, hr.rewrite_slot hupd hf⟩
  show getNumTuples (Function.update h.page rid.pageId m h.lastPageId) = _
  by_cases hp : h.lastPageId = rid.pageId
  · rw [hp, Function.update_self]
    exact hupd.numTuples
  · rw [Function.update_of_ne hp]

/-- **`UpdateTupleMeta`** on any RID at all: it throws and changes nothing, or sets the meta of the
row, if there is one, and nothing else of the heap. -/
theorem updateTupleMeta_rep (tupleMeta : TupleMeta) (rid : RID) (hr : HeapRep h pre rows) :
    (∃ e, h.updateTupleMeta tupleMeta rid = .error (.thrown e) ∧
      updateRow rows rid (setMeta tupleMeta) = rows) ∨
    ∃ h', h.updateTupleMeta tupleMeta rid = .ok h' ∧
      UpdateRep h h' pre (updateRow rows rid (setMeta tupleMeta)) := by
  unfold TableHeap.updateTupleMeta
  cases hupd : Storage.updateTupleMeta (h.page rid.pageId) tupleMeta rid with
  | error e =>
    refine .inl ⟨e, rfl, updateRow_absent hr _ ?_⟩
    rintro ⟨hp, hi⟩
    obtain ⟨m', hok, -⟩ := updateTupleMeta_spec tupleMeta (hr.stacked _ hp) hi
    rw [hok] at hupd
    cases hupd
  | ok m =>
    refine .inr ⟨_, rfl, ?_⟩
    by_cases hp : rid.pageId ∈ pre ++ [h.lastPageId]
    · obtain ⟨m', hok, hm'⟩ := updateTupleMeta_spec tupleMeta (hr.stacked _ hp) (updateTupleMeta_ok hupd)
      rw [hok] at hupd
      cases hupd
      exact UpdateRep.slot hr hm'
        (rowAt_eq_of_entry rid hm'.same (rowAt (h.page rid.pageId) rid).2 rfl)
    · rw [updateRow_absent hr _ fun hcon => hp hcon.1]
      exact UpdateRep.foreign hr hp

theorem getTuple_ok {m : Mem} {old : Row} (hok : getTuple m rid = .ok old) :
    rid.slotNum < getNumTuples m ∧ old = rowAt m rid := by
  by_cases hi : rid.slotNum < getNumTuples m
  · rw [getTuple_eq_rowAt hi] at hok
    exact ⟨hi, (Except.ok.inj hok).symm⟩
  · have herr : getTuple m rid = .error ⟨"Tuple ID out of range"⟩ := if_pos (by omega)
    rw [herr] at hok
    cases hok

/-- The row `setRow` leaves alone. -/
theorem updateRow_setRow_refused {check : TableHeap.Check} (hr : HeapRep h pre rows)
    (hno : ¬ (check.passes (rowAt (h.page rid.pageId) rid) rid ∧
      (rowAt (h.page rid.pageId) rid).2.getLength = t.getLength)) :
    updateRow rows rid (setRow tupleMeta t rid check) = rows := by
  unfold updateRow
  conv_rhs => rw [← List.map_id rows]
  refine List.map_congr_left ?_
  intro r hmem
  by_cases hrid : r.rid = rid
  · have hrow : r = rowAt (h.page rid.pageId) rid := by
      rw [← hrid]
      exact (hr.page_of_row hmem).2.2
    rw [if_pos hrid, setRow, hrow, if_neg hno, id]
  · rw [if_neg hrid, id]

/-- **`UpdateTupleInPlace`** on any RID at all. -/
theorem updateTupleInPlace_rep (tupleMeta : TupleMeta) (t : Tuple) (rid : RID)
    (check : TableHeap.Check) (hr : HeapRep h pre rows) :
    (∃ e, h.updateTupleInPlace tupleMeta t rid check = .error (.thrown e) ∧
      updateRow rows rid (setRow tupleMeta t rid check) = rows) ∨
    ∃ b h', h.updateTupleInPlace tupleMeta t rid check = .ok (b, h') ∧
      UpdateRep h h' pre (updateRow rows rid (setRow tupleMeta t rid check)) := by
  unfold TableHeap.updateTupleInPlace
  cases hget : Storage.getTuple (h.page rid.pageId) rid with
  | error e =>
    refine .inl ⟨e, rfl, updateRow_absent hr _ ?_⟩
    rintro ⟨-, hi⟩
    rw [getTuple_eq_rowAt hi] at hget
    cases hget
  | ok old =>
    obtain ⟨hi, rfl⟩ := getTuple_ok hget
    dsimp only
    by_cases hcheck : check.passes (rowAt (h.page rid.pageId) rid) rid
    · rw [if_pos hcheck]
      have hsizeAt : (rowAt (h.page rid.pageId) rid).2.getLength = sizeAt (h.page rid.pageId) rid.slotNum :=
        length_load ..
      cases hupd : updateTupleInPlaceUnsafe (h.page rid.pageId) tupleMeta t rid with
      | error e =>
        refine .inl ⟨e, rfl, ?_⟩
        by_cases hp : rid.pageId ∈ pre ++ [h.lastPageId]
        · refine updateRow_setRow_refused hr ?_
          rintro ⟨-, hsize⟩
          obtain ⟨m', hok, -⟩ := updateTupleInPlaceUnsafe_spec tupleMeta (hr.stacked _ hp) hi
            (hsizeAt.symm.trans hsize)
          rw [hok] at hupd
          cases hupd
        · exact updateRow_absent hr _ fun hcon => hp hcon.1
      | ok m =>
        refine .inr ⟨true, _, rfl, ?_⟩
        by_cases hp : rid.pageId ∈ pre ++ [h.lastPageId]
        · obtain ⟨-, hsize⟩ := updateTupleInPlaceUnsafe_ok hupd
          obtain ⟨m', hok, hm'⟩ := updateTupleInPlaceUnsafe_spec tupleMeta (hr.stacked _ hp) hi hsize
          rw [hok] at hupd
          cases hupd
          refine UpdateRep.slot hr hm' ?_
          rw [setRow, if_pos ⟨hcheck, hsizeAt.trans hsize⟩]
          exact rowAt_eq_of_entry rid hm'.same t rfl
        · rw [updateRow_absent hr _ fun hcon => hp hcon.1]
          exact UpdateRep.foreign hr hp
    · rw [if_neg hcheck, updateRow_setRow_refused hr fun hcon => hcheck hcon.1]
      exact .inr ⟨false, h, rfl, UpdateRep.refl hr⟩

end Updates

end Journey.Storage
