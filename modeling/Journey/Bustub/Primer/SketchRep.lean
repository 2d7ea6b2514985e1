import Journey.Bustub.Primer.CountMinSketch
import Mathlib.Algebra.Group.Nat.Defs

/-!
# Journey.Bustub.Primer.SketchRep — the sketches represent their multisets

`LiveAt hash w a p width depth s`: the sketch at `a` owns the block `p`, whose row `i` counts the items
of `s i` modulo `2 ^ 32`.  Each row keeps its own multiset because `Insert` works row by row; between
calls all rows agree, and `Rep` says so for every object of the world.

* one lemma per operation of the code (`insertRow_ok`, `forCells_ok`, `count_ok`, ...);
* `step_rep`: the simulation step;
* `sketches_track_multisets`: every run of the code answers as the abstract machine does, without a
  fault, and ends representing its multisets.
-/

namespace Journey.Sketch

variable {K : Type}

/-! ## Frames and representation -/

section Rep

@[simp] theorem setObj_objs (w : World) (a : ℕ) (o : Option CountMinSketch) :
    (w.setObj a o).objs = Function.update w.objs a o := rfl

@[simp] theorem setObj_heap (w : World) (a : ℕ) (o : Option CountMinSketch) :
    (w.setObj a o).heap = w.heap := rfl

@[simp] theorem setObj_brk (w : World) (a : ℕ) (o : Option CountMinSketch) :
    (w.setObj a o).brk = w.brk := rfl

@[simp] theorem setBlock_objs (w : World) (p : ℕ) (m : Option Matrix) :
    (w.setBlock p m).objs = w.objs := rfl

@[simp] theorem setBlock_heap (w : World) (p : ℕ) (m : Option Matrix) :
    (w.setBlock p m).heap = Function.update w.heap p m := rfl

@[simp] theorem setBlock_brk (w : World) (p : ℕ) (m : Option Matrix) :
    (w.setBlock p m).brk = w.brk := rfl

@[simp] theorem setBlock_setBlock (w : World) (p : ℕ) (m m' : Option Matrix) :
    (w.setBlock p m).setBlock p m' = w.setBlock p m' := by
  simp [World.setBlock]

theorem setBlock_heap_self (w : World) (p : ℕ) (m : Option Matrix) : (w.setBlock p m).heap p = m :=
  Function.update_self ..

theorem setBlock_self {w : World} {p : ℕ} {m : Option Matrix} (h : w.heap p = m) :
    w.setBlock p m = w := by
  subst h
  simp [World.setBlock]

/-- The object at `a` is a sketch of `width × depth` owning the block `p`. -/
structure Owner (w : World) (a p width depth : ℕ) : Prop where
  obj : w.objs a = some ⟨width, depth, hashFunctions a depth, some p⟩
  width_pos : 0 < width
  depth_pos : 0 < depth

/-- The counters of a block count, modulo `2 ^ 32`, the items applied to each row. -/
def Counts (hash : ℕ → K → ℕ) (width depth : ℕ) (s : ℕ → Multiset K) (cell : ℕ → ℕ → UInt32) : Prop :=
  ∀ b < width, ∀ i < depth, cell b i = UInt32.ofNat (collisions hash width i b (s i))

/-- The sketch at `a` is live, owns `p`, and row `i` of its matrix counts the items of `s i`. -/
def LiveAt (hash : ℕ → K → ℕ) (w : World) (a p width depth : ℕ) (s : ℕ → Multiset K) : Prop :=
  Owner w a p width depth ∧
    ∃ cell, w.heap p = some ⟨width, depth, cell⟩ ∧ Counts hash width depth s cell

theorem LiveAt.congr {hash : ℕ → K → ℕ} {w : World} {a p width depth : ℕ} {s s' : ℕ → Multiset K}
    (h : LiveAt hash w a p width depth s) (hs : ∀ i < depth, s i = s' i) :
    LiveAt hash w a p width depth s' := by
  obtain ⟨ho, cell, hp, hc⟩ := h
  exact ⟨ho, cell, hp, fun b hb i hi => by rw [← hs i hi]; exact hc b hb i hi⟩

/-- What the abstract object `o` at `a` says of the world. -/
def RepObj (hash : ℕ → K → ℕ) (w : World) (a : ℕ) : Option (AbsObj K) → Prop
  | none => w.objs a = none
  | some .movedFrom => w.objs a = some .movedFrom
  | some (.live sp) => ∃ p < w.brk, LiveAt hash w a p sp.width sp.depth fun _ => sp.items

/-- `p` is the block of the object at `a`. -/
def Holds (w : World) (a p : ℕ) : Prop := ∃ o, w.objs a = some o ∧ o.matrix = some p

/-- The world represents the abstract one, and no block has two owners. -/
structure Rep (hash : ℕ → K → ℕ) (w : World) (aw : AbsWorld K) : Prop where
  objs : ∀ a, RepObj hash w a (aw a)
  inj : ∀ a b p, Holds w a p → Holds w b p → a = b

end Rep

/-! ## Rows: `Insert` and `Count` -/

section Rows

variable {hash : ℕ → K → ℕ} {w : World} {a p width depth : ℕ} {s : ℕ → Multiset K}
  {cell : ℕ → ℕ → UInt32}

theorem Owner.obj_ok (h : Owner w a p width depth) :
    w.obj a = .ok ⟨width, depth, hashFunctions a depth, some p⟩ := by
  unfold World.obj
  rw [h.obj]

theorem Owner.setBlock (h : Owner w a p width depth) (q : ℕ) (m : Option Matrix) :
    Owner (w.setBlock q m) a p width depth := ⟨h.obj, h.width_pos, h.depth_pos⟩

theorem matrixOf_ok {hf : List HashClosure} {m : Matrix} (hm : w.heap p = some m) :
    w.matrixOf ⟨width, depth, hf, some p⟩ = .ok (p, m) := by
  simp only [World.matrixOf, hm]

theorem Owner.hashValue_ok (h : Owner w a p width depth) {i : ℕ} (hi : i < depth) (x : K) :
    CountMinSketch.hashValue hash w ⟨width, depth, hashFunctions a depth, some p⟩ i x =
      .ok (hash i x % width) := by
  have hf : (hashFunctions a depth)[i]? = some ⟨i, a⟩ := by simp [hashFunctions, hi]
  simp only [CountMinSketch.hashValue, hf, HashClosure.call, h.obj_ok, ok_bind,
    if_neg h.width_pos.ne']

theorem load_ok {b i : ℕ} (hb : b < width) (hi : i < depth) :
    Matrix.load ⟨width, depth, cell⟩ b i = .ok (cell b i) := if_pos ⟨hb, hi⟩

theorem store_ok {b i : ℕ} (hb : b < width) (hi : i < depth) (v : UInt32) :
    Matrix.store ⟨width, depth, cell⟩ b i v =
      .ok ⟨width, depth, Function.update cell b (Function.update (cell b) i v)⟩ := if_pos ⟨hb, hi⟩

theorem update_cell (cell : ℕ → ℕ → UInt32) (b i : ℕ) (v : UInt32) (b' i' : ℕ) :
    Function.update cell b (Function.update (cell b) i v) b' i' =
      if b' = b ∧ i' = i then v else cell b' i' := by
  by_cases hb : b' = b
  · subst hb
    by_cases hi : i' = i
    · subst hi; simp
    · simp [hi]
  · simp [hb]

/-- The counters after an item is applied to one row. -/
theorem Counts.bump (h : Counts hash width depth s cell) (i : ℕ) (x : K) :
    Counts hash width depth (Function.update s i (x ::ₘ s i))
      (Function.update cell (hash i x % width) (Function.update (cell (hash i x % width)) i
        (cell (hash i x % width) i + 1))) := by
  intro b hb j hj
  rw [update_cell]
  by_cases hji : j = i
  · subst hji
    have hc := h b hb j hj
    by_cases hbx : b = hash j x % width
    · subst hbx
      simp only [and_self, if_true, Function.update_self, collisions, Multiset.countP_cons]
      rw [UInt32.ofNat_add, hc]
      rfl
    · have hne : ¬ hash j x % width = b := fun h' => hbx h'.symm
      simp only [hbx, false_and, if_false, Function.update_self, collisions, Multiset.countP_cons, hne,
        Nat.add_zero]
      exact hc
  · simp only [hji, and_false, if_false, Function.update_of_ne (Ne.intro hji)]
    exact h b hb j hj

theorem insertRow_ok (h : LiveAt hash w a p width depth s) {i : ℕ} (hi : i < depth) (x : K) :
    ∃ m, insertRow hash a x i w = .ok (w.setBlock p m) ∧
      LiveAt hash (w.setBlock p m) a p width depth (Function.update s i (x ::ₘ s i)) := by
  obtain ⟨ho, cell, hp, hc⟩ := h
  have hb : hash i x % width < width := Nat.mod_lt _ ho.width_pos
  refine ⟨some ⟨width, depth, _⟩, ?_, ho.setBlock _ _, _, setBlock_heap_self .., hc.bump i x⟩
  · simp only [insertRow, ho.obj_ok, ok_bind, ho.hashValue_ok hi, matrixOf_ok hp, load_ok hb hi,
      store_ok hb hi]
    rfl

/-- **`Insert`** applies the item to every row. -/
theorem insert_ok (h : LiveAt hash w a p width depth s) (x : K) :
    ∃ m, insert hash a x w = .ok (w.setBlock p m) ∧
      LiveAt hash (w.setBlock p m) a p width depth (fun i => x ::ₘ s i) := by
  -- after `k` rows the first `k` multisets have the item
  have hloop := forRange_ok (insertRow hash a x)
    (fun k w' => ∃ m, w' = w.setBlock p m ∧
      LiveAt hash w' a p width depth (fun i => if i < k then x ::ₘ s i else s i)) depth w
    ⟨w.heap p, (setBlock_self rfl).symm, by simpa using h⟩ ?_
  · obtain ⟨w', hw', m, rfl, hl⟩ := hloop
    exact ⟨m, by simp only [insert, h.1.obj_ok, ok_bind, hw'], hl.congr fun i hi => if_pos hi⟩
  · rintro k hk _ ⟨m, rfl, hl⟩
    obtain ⟨m', h1, h2⟩ := insertRow_ok hl hk x
    rw [setBlock_setBlock] at h1 h2
    refine ⟨_, h1, m', rfl, ?_⟩
    convert h2 using 1
    funext i
    by_cases hik : i = k
    · subst hik; simp
    · simp only [Function.update_of_ne hik]
      by_cases hlt : i < k
      · simp [hlt, Nat.lt_succ_of_lt hlt]
      · simp [hlt, show ¬ i < k + 1 by omega]

theorem countCell_ok (h : LiveAt hash w a p width depth s) {i : ℕ} (hi : i < depth) (x : K) :
    countCell hash a x i w = .ok (UInt32.ofNat (collisions hash width i (hash i x % width) (s i))) := by
  obtain ⟨ho, cell, hp, hc⟩ := h
  have hb : hash i x % width < width := Nat.mod_lt _ ho.width_pos
  simp only [countCell, ho.obj_ok, ok_bind, ho.hashValue_ok hi, matrixOf_ok hp, load_ok hb hi]
  rw [hc _ hb _ hi]

/-- **`Count`** is the minimum over the rows. -/
theorem count_ok (h : LiveAt hash w a p width depth s) (x : K) :
    count hash a x w = .ok (minRows (fun i =>
      UInt32.ofNat (collisions hash width i (hash i x % width) (s i))) depth) := by
  obtain ⟨c, hc, rfl⟩ := forRange_ok (countRow hash a x w)
    (fun k c => c = minRows (fun i =>
      UInt32.ofNat (collisions hash width i (hash i x % width) (s i))) k) depth uint32Max rfl
    (by
      rintro k hk _ rfl
      refine ⟨_, ?_, rfl⟩
      simp only [countRow, countCell_ok h hk, ok_bind]
      split_ifs with hlt
      · simp [minRows, hlt]
      · simp only [minRows, hlt, if_false]; rfl)
  simp only [count, h.1.obj_ok, ok_bind, hc]

theorem minRows_le {f : ℕ → UInt32} : ∀ {n i : ℕ}, i < n → (minRows f n).toNat ≤ (f i).toNat
  | n + 1, i, h => by
    unfold minRows
    rcases Nat.lt_succ_iff_lt_or_eq.mp h with hlt | rfl
    · have ih := minRows_le (f := f) hlt
      split_ifs with hc
      · rw [UInt32.lt_iff_toNat_lt] at hc; omega
      · exact ih
    · split_ifs with hc
      · exact le_rfl
      · rw [UInt32.lt_iff_toNat_lt] at hc; omega

theorem minRows_mem {f : ℕ → UInt32} : ∀ {n : ℕ}, 0 < n → ∃ i < n, minRows f n = f i
  | 1, _ => by
    refine ⟨0, Nat.one_pos, ?_⟩
    show (if f 0 < uint32Max then f 0 else uint32Max) = f 0
    by_cases hc : f 0 < uint32Max
    · rw [if_pos hc]
    · -- nothing is above `UINT32_MAX`
      rw [if_neg hc]
      rw [UInt32.lt_iff_toNat_lt] at hc
      apply UInt32.toNat_inj.mp
      have h1 : uint32Max.toNat = 2 ^ 32 - 1 := rfl
      have h2 := (f 0).toNat_lt
      omega
  | n + 2, _ => by
    obtain ⟨i, hi, he⟩ := minRows_mem (f := f) (Nat.succ_pos n)
    rw [minRows]
    split_ifs with hc
    · exact ⟨n + 1, by omega, rfl⟩
    · exact ⟨i, by omega, he⟩

end Rows

/-! ## Cells: `Clear`, `Merge` and the zeroing loop of the constructor -/

section Cells

variable {hash : ℕ → K → ℕ} {w : World} {a p width depth : ℕ} {cell : ℕ → ℕ → UInt32}

/-- The cells visited before `(k, l)` in row-major order hold `g`, the others are untouched. -/
def sweep (g cell : ℕ → ℕ → UInt32) (depth k l : ℕ) : ℕ → ℕ → UInt32 := fun b i =>
  if (b < k ∧ i < depth) ∨ (b = k ∧ i < l) then g b i else cell b i

theorem sweep_next (g cell : ℕ → ℕ → UInt32) (k l : ℕ) :
    Function.update (sweep g cell depth k l) k
      (Function.update (sweep g cell depth k l k) l (g k l)) = sweep g cell depth k (l + 1) := by
  funext b i
  rw [update_cell]
  unfold sweep
  by_cases hbi : b = k ∧ i = l
  · obtain ⟨rfl, rfl⟩ := hbi
    simp
  · rw [if_neg hbi]
    by_cases h1 : (b < k ∧ i < depth) ∨ (b = k ∧ i < l)
    · rw [if_pos h1, if_pos (by omega)]
    · rw [if_neg h1, if_neg (by omega)]

theorem sweep_row (g cell : ℕ → ℕ → UInt32) (k : ℕ) :
    sweep g cell depth k depth = sweep g cell depth (k + 1) 0 := by
  funext b i
  unfold sweep
  by_cases h1 : (b < k ∧ i < depth) ∨ (b = k ∧ i < depth)
  · rw [if_pos h1, if_pos (by omega)]
  · rw [if_neg h1, if_neg (by omega)]

/-- **Cell loop**: a body that, at an untouched cell `(i, j)` of the block `p`, stores `g i j` there,
stores `g` in every cell. -/
theorem forCells_ok (body : ℕ → ℕ → World → Except Fault World) (g : ℕ → ℕ → UInt32)
    (hp : w.heap p = some ⟨width, depth, cell⟩)
    (hbody : ∀ i < width, ∀ j < depth, ∀ c : ℕ → ℕ → UInt32, c i j = cell i j →
      body i j (w.setBlock p (some ⟨width, depth, c⟩)) = .ok (w.setBlock p (some ⟨width, depth,
        Function.update c i (Function.update (c i) j (g i j))⟩))) :
    forCells body width depth w =
      .ok (w.setBlock p (some ⟨width, depth, sweep g cell depth width 0⟩)) := by
  have h0 : w = w.setBlock p (some ⟨width, depth, sweep g cell depth 0 0⟩) := by
    refine (setBlock_self (hp.trans ?_)).symm
    congr 2
    funext b i
    simp [sweep]
  obtain ⟨_, hw, rfl⟩ := forRange_ok (fun i => forRange (body i) depth)
    (fun k w' => w' = w.setBlock p (some ⟨width, depth, sweep g cell depth k 0⟩)) width w h0
    (by
      rintro k hk _ rfl
      obtain ⟨_, hrow, rfl⟩ := forRange_ok (body k)
        (fun l w' => w' = w.setBlock p (some ⟨width, depth, sweep g cell depth k l⟩)) depth _ rfl
        (by
          rintro l hl _ rfl
          refine ⟨_, ?_, rfl⟩
          rw [hbody k hk l hl _ (by simp [sweep]), sweep_next])
      exact ⟨_, hrow, by rw [sweep_row]⟩)
  exact hw

theorem sweep_done {g cell : ℕ → ℕ → UInt32} {b i : ℕ} (hb : b < width) (hi : i < depth) :
    sweep g cell depth width 0 b i = g b i := by simp [sweep, hb, hi]

/-- Zeroing every cell of the block of the object at `a`, whatever closures it has. -/
theorem clearCells_ok {hf : List HashClosure} (ho : w.objs a = some ⟨width, depth, hf, some p⟩)
    (hp : w.heap p = some ⟨width, depth, cell⟩) :
    ∃ c, forCells (clearCell a) width depth w = .ok (w.setBlock p (some ⟨width, depth, c⟩)) ∧
      Counts hash width depth (fun _ => 0) c := by
  refine ⟨_, forCells_ok _ (fun _ _ => 0) hp fun i hi j hj c _ => ?_, fun b hb i hi => ?_⟩
  · have h1 : (w.setBlock p (some ⟨width, depth, c⟩)).obj a = .ok ⟨width, depth, hf, some p⟩ := by
      simp only [World.obj, setBlock_objs, ho]
    simp only [clearCell, h1, ok_bind, matrixOf_ok (setBlock_heap_self ..), store_ok hi hj]
    exact congrArg Except.ok (setBlock_setBlock ..)
  · rw [sweep_done hb hi]
    simp [collisions]

/-- **`Clear`** empties every row. -/
theorem clear_ok {s : ℕ → Multiset K} (h : LiveAt hash w a p width depth s) :
    ∃ m, clear a w = .ok (w.setBlock p m) ∧
      LiveAt hash (w.setBlock p m) a p width depth (fun _ => 0) := by
  obtain ⟨ho, cell, hp, -⟩ := h
  obtain ⟨c, h1, h2⟩ : ∃ c, forCells (clearCell a) width depth w =
      .ok (w.setBlock p (some ⟨width, depth, c⟩)) ∧ Counts hash width depth (fun _ => 0) c :=
    clearCells_ok ho.obj hp
  exact ⟨_, by simp only [clear, ho.obj_ok, ok_bind, h1], ho.setBlock _ _, c,
    setBlock_heap_self .., h2⟩

/-- **`Merge`** adds the other sketch's multisets; the other may be the sketch itself. -/
theorem merge_ok {other q : ℕ} {s t : ℕ → Multiset K} (h : LiveAt hash w a p width depth s)
    (h' : LiveAt hash w other q width depth t) :
    ∃ m, merge a other w = .ok (.unit, w.setBlock p m) ∧
      LiveAt hash (w.setBlock p m) a p width depth (fun i => s i + t i) := by
  obtain ⟨ho, c, hp, hc⟩ := h
  obtain ⟨ho', d, hq, hd⟩ := h'
  have hcells := forCells_ok (mergeCell a other) (fun b i => c b i + d b i) hp
    fun i hi j hj e he => by
      have hw := ho.setBlock p (some ⟨width, depth, e⟩)
      have hw' := ho'.setBlock p (some ⟨width, depth, e⟩)
      -- the argument's cell is still the original one, also when both blocks are the same
      obtain ⟨d', hd', hdd⟩ : ∃ d', (w.setBlock p (some ⟨width, depth, e⟩)).heap q =
          some ⟨width, depth, d'⟩ ∧ d' i j = d i j := by
        by_cases hqp : q = p
        · subst hqp
          have hcd : c = d := by simpa using hp.symm.trans hq
          exact ⟨e, setBlock_heap_self .., by rw [he, hcd]⟩
        · exact ⟨d, by rw [setBlock_heap, Function.update_of_ne hqp, hq], rfl⟩
      simp only [mergeCell, hw.obj_ok, hw'.obj_ok, ok_bind, matrixOf_ok (setBlock_heap_self ..),
        matrixOf_ok hd', load_ok hi hj, store_ok hi hj, he, hdd]
      exact congrArg Except.ok (setBlock_setBlock ..)
  have hmerge : merge a other w = .ok (.unit, w.setBlock p (some ⟨width, depth,
      sweep (fun b i => c b i + d b i) c depth width 0⟩)) := by
    simp only [merge, ho.obj_ok, ho'.obj_ok, ok_bind, ne_eq, not_true_eq_false, or_self, if_false,
      hcells]
    rfl
  refine ⟨_, hmerge, ho.setBlock _ _, _, setBlock_heap_self .., fun b hb i hi => ?_⟩
  rw [sweep_done hb hi, hc b hb i hi, hd b hb i hi]
  simp [collisions]

end Cells

/-! ## The simulation step -/

section Step

variable {hash : ℕ → K → ℕ} {w w' : World} {aw : AbsWorld K} {a b p : ℕ} {o : AbsObj K}

/-- An object is untouched when its fields and its block are. -/
theorem RepObj.frame {x : Option (AbsObj K)} (h : RepObj hash w b x) (hobj : w'.objs b = w.objs b)
    (hbrk : w.brk ≤ w'.brk) (hheap : ∀ q, Holds w b q → w'.heap q = w.heap q) : RepObj hash w' b x := by
  match x, h with
  | none, h => exact hobj.trans h
  | some .movedFrom, h => exact hobj.trans h
  | some (.live sp), ⟨q, hq, ho, cell, hcell, hc⟩ =>
    exact ⟨q, by omega, ⟨hobj.trans ho.obj, ho.width_pos, ho.depth_pos⟩, cell,
      (hheap q ⟨_, ho.obj, rfl⟩).trans hcell, hc⟩

theorem RepObj.dims (h : RepObj hash w a (some o)) :
    ∃ c, w.objs a = some c ∧ c.width = o.dims.1 ∧ c.depth = o.dims.2 := by
  match o, h with
  | .movedFrom, h => exact ⟨_, h, rfl, rfl⟩
  | .live sp, ⟨_, _, ho, _⟩ => exact ⟨_, ho.obj, rfl, rfl⟩

theorem RepObj.holds_lt {x : Option (AbsObj K)} (h : RepObj hash w a x) (hp : Holds w a p) :
    p < w.brk ∧ ∃ sp, x = some (.live sp) ∧ LiveAt hash w a p sp.width sp.depth fun _ => sp.items := by
  obtain ⟨c, hc, hcp⟩ := hp
  match x, h with
  | none, h => rw [show w.objs a = none from h] at hc; cases hc
  | some .movedFrom, h =>
    rw [show w.objs a = some .movedFrom from h] at hc
    cases hc
    cases hcp
  | some (.live sp), ⟨q, hq, hl⟩ =>
    rw [hl.1.obj] at hc
    cases hc
    cases hcp
    exact ⟨hq, sp, rfl, hl⟩

/-- An operation that rewrites the block of one sketch. -/
theorem Rep.setBlock (h : Rep hash w aw) {sp : Spec K} {t : Multiset K} {m : Option Matrix}
    (hp : p < w.brk) (ho : Owner w a p sp.width sp.depth)
    (hl : LiveAt hash (w.setBlock p m) a p sp.width sp.depth fun _ => t) :
    Rep hash (w.setBlock p m) (Function.update aw a (some (.live { sp with items := t }))) := by
  refine ⟨fun b => ?_, h.inj⟩
  by_cases hb : b = a
  · subst hb
    rw [Function.update_self]
    exact ⟨p, hp, hl⟩
  · rw [Function.update_of_ne hb]
    refine (h.objs b).frame rfl le_rfl fun q hq => ?_
    have hqp : q ≠ p := by
      rintro rfl
      exact hb (h.inj _ _ _ hq ⟨_, ho.obj, rfl⟩)
    rw [setBlock_heap, Function.update_of_ne hqp]

/-- `delete[]` frees a block that is still allocated and that no other object owns. -/
theorem release_ok (h : Rep hash w aw) {c : CountMinSketch} (hc : w.objs a = some c) :
    ∃ w1, release c w = .ok w1 ∧ w1.objs = w.objs ∧ w1.brk = w.brk ∧
      ∀ b ≠ a, ∀ q, Holds w b q → w1.heap q = w.heap q := by
  unfold release
  cases hm : c.matrix with
  | none => exact ⟨w, rfl, rfl, rfl, fun _ _ _ _ => rfl⟩
  | some p =>
    obtain ⟨-, sp, -, ho, cell, hp, -⟩ := (h.objs a).holds_lt ⟨c, hc, hm⟩
    have hw : c.width = sp.width := by
      have := hc.symm.trans ho.obj
      simp only [Option.some.injEq] at this
      rw [this]
    refine ⟨w.setBlock p none, ?_, rfl, rfl, fun b hb q hq => ?_⟩
    · simp only [hp, hw, if_true]
    · have hqp : q ≠ p := by
        rintro rfl
        exact hb (h.inj _ _ _ hq ⟨c, hc, hm⟩)
      rw [setBlock_heap, Function.update_of_ne hqp]

/-- Both moves: `a` takes the fields of `other` over, in a world `w1` where the old block of `a` may be
gone. -/
theorem takeOver_rep (h : Rep hash w aw) {other : ℕ} {c : CountMinSketch} {w1 : World}
    (hne : a ≠ other) (ho : aw other = some o) (hc : w.objs other = some c) (hobjs : w1.objs = w.objs)
    (hbrk : w1.brk = w.brk) (hheap : ∀ b ≠ a, ∀ q, Holds w b q → w1.heap q = w.heap q) :
    Rep hash (takeOver a other c w1)
      (Function.update (Function.update aw a (some o)) other (some .movedFrom)) := by
  have hobj : ∀ b, (takeOver a other c w1).objs b = if b = other then some .movedFrom else
      if b = a then some ⟨c.width, c.depth, hashFunctions a c.depth, c.matrix⟩ else w.objs b := by
    intro b
    simp only [takeOver, setObj_objs, Function.update_apply, hobjs]
  -- who holds a block now held it before, `a` through `other`
  have hold : ∀ b q, Holds (takeOver a other c w1) b q → Holds w (if b = a then other else b) q := by
    rintro b q ⟨d, hd, hdq⟩
    rw [hobj] at hd
    split_ifs at hd with h1 h2
    · cases hd; cases hdq
    · cases hd
      rw [if_pos h2]
      exact ⟨c, hc, hdq⟩
    · rw [if_neg h2]
      exact ⟨d, hd, hdq⟩
  have hoff : ∀ b q, Holds (takeOver a other c w1) b q → b ≠ other := by
    rintro b q ⟨d, hd, hdq⟩ rfl
    rw [hobj, if_pos rfl] at hd
    cases hd
    cases hdq
  refine ⟨fun b => ?_, fun b b' q hb hb' => ?_⟩
  · by_cases hbo : b = other
    · subst hbo
      rw [Function.update_self]
      show (takeOver a b c w1).objs b = _
      rw [hobj, if_pos rfl]
    · rw [Function.update_of_ne hbo]
      by_cases hba : b = a
      · subst hba
        rw [Function.update_self]
        have hr := h.objs other
        rw [ho] at hr
        match o, hr with
        | .movedFrom, hr =>
          show (takeOver b other c w1).objs b = _
          rw [hobj, if_neg hbo, if_pos rfl]
          rw [show w.objs other = some .movedFrom from hr] at hc
          cases hc
          rfl
        | .live sp, ⟨q, hq, how, cell, hcell, hcount⟩ =>
          rw [how.obj] at hc
          cases hc
          refine ⟨q, by simpa [takeOver, hbrk] using hq, ⟨?_, how.width_pos, how.depth_pos⟩, cell, ?_, hcount⟩
          · rw [hobj, if_neg hbo, if_pos rfl]
          · exact (hheap other (Ne.symm hne) q ⟨_, how.obj, rfl⟩).trans hcell
      · rw [Function.update_of_ne hba]
        refine (h.objs b).frame ?_ (by simp [takeOver, hbrk]) fun q hq => hheap b hba q hq
        rw [hobj, if_neg hbo, if_neg hba]
  · have h1 := h.inj _ _ _ (hold b q hb) (hold b' q hb')
    have h2 := hoff b q hb
    have h3 := hoff b' q hb'
    split_ifs at h1 with e1 e2 e2
    · exact e1.trans e2.symm
    · exact absurd h1.symm h3
    · exact absurd h1 h2
    · exact h1

theorem construct_rep (h : Rep hash w aw) {width depth : ℕ} (ha : aw a = none) (hw : width ≠ 0)
    (hd : depth ≠ 0) : ∃ w', construct a width depth w = .ok (.unit, w') ∧
      Rep hash w' (Function.update aw a (some (.live ⟨width, depth, 0⟩))) := by
  have hobj : w.objs a = none := by simpa only [ha, RepObj] using h.objs a
  set w1 := ({ w with brk := w.brk + 1 }.setBlock w.brk (some ⟨width, depth, w.junk w.brk⟩)).setObj a
    (some ⟨width, depth, [], some w.brk⟩) with hw1
  obtain ⟨c, h1, h2⟩ : ∃ c, forCells (clearCell a) width depth w1 =
      .ok (w1.setBlock w.brk (some ⟨width, depth, c⟩)) ∧ Counts hash width depth (fun _ => 0) c :=
    clearCells_ok (show w1.objs a = _ from Function.update_self ..) (show w1.heap w.brk = _ from Function.update_self ..)
  set w2 := (w1.setBlock w.brk (some ⟨width, depth, c⟩)).setObj a
    (some ⟨width, depth, hashFunctions a depth, some w.brk⟩) with hw2
  have hoff : ∀ b ≠ a, w2.objs b = w.objs b := by
    intro b hb
    simp [hw2, hw1, Function.update_of_ne hb]
  refine ⟨w2, ?_, fun b => ?_, ?_⟩
  · simp only [construct, hobj, Option.isSome_none, Bool.false_eq_true, if_false, hw, hd, or_self, ← hw1, h1,
      ok_bind]
    rfl
  · by_cases hb : b = a
    · subst hb
      rw [Function.update_self]
      exact ⟨w.brk, Nat.lt_succ_self _, ⟨Function.update_self .., Nat.pos_of_ne_zero hw,
        Nat.pos_of_ne_zero hd⟩, c, Function.update_self .., h2⟩
    · rw [Function.update_of_ne hb]
      refine (h.objs b).frame (hoff b hb) (Nat.le_succ _) fun q hq => ?_
      have hne : q ≠ w.brk := (((h.objs b).holds_lt hq).1).ne
      simp [hw2, hw1, Function.update_of_ne hne]
  · -- the new block is above every block in use
    have hnew : ∀ b q, b ≠ a → Holds w2 b q → Holds w b q ∧ q ≠ w.brk := by
      rintro b q hb ⟨d, hd, hdq⟩
      rw [hoff b hb] at hd
      exact ⟨⟨d, hd, hdq⟩, (((h.objs b).holds_lt ⟨d, hd, hdq⟩).1).ne⟩
    have hself : ∀ q, Holds w2 a q → q = w.brk := by
      rintro q ⟨d, hd, hdq⟩
      rw [show w2.objs a = some ⟨width, depth, hashFunctions a depth, some w.brk⟩ from
        Function.update_self ..] at hd
      cases hd
      cases hdq
      rfl
    intro b b' q hb hb'
    by_cases e1 : b = a <;> by_cases e2 : b' = a
    · exact e1.trans e2.symm
    · subst e1
      exact absurd (hself q hb) (hnew b' q e2 hb').2
    · subst e2
      exact absurd (hself q hb') (hnew b q e1 hb).2
    · exact h.inj _ _ _ (hnew b q e1 hb).1 (hnew b' q e2 hb').1

theorem destroy_rep (h : Rep hash w aw) (ha : aw a = some o) :
    ∃ w', destroy a w = .ok w' ∧ Rep hash w' (Function.update aw a none) := by
  obtain ⟨c, hc, -⟩ := (ha ▸ h.objs a : RepObj hash w a (some o)).dims
  obtain ⟨w1, h1, hobjs, hbrk, hheap⟩ := release_ok h hc
  have hobj : ∀ b ≠ a, (w1.setObj a none).objs b = w.objs b := by
    intro b hb
    rw [setObj_objs, Function.update_of_ne hb, hobjs]
  have hold : ∀ b q, Holds (w1.setObj a none) b q → b ≠ a ∧ Holds w b q := by
    rintro b q ⟨d, hd, hdq⟩
    have hb : b ≠ a := by
      rintro rfl
      rw [setObj_objs, Function.update_self] at hd
      cases hd
    exact ⟨hb, d, by rw [← hobj b hb]; exact hd, hdq⟩
  refine ⟨_, ?_, fun b => ?_, fun b b' q hb hb' => h.inj _ _ _ (hold b q hb).2 (hold b' q hb').2⟩
  · simp only [destroy, World.obj, hc, ok_bind, h1]
    rfl
  · by_cases hb : b = a
    · subst hb
      rw [Function.update_self]
      exact Function.update_self ..
    · rw [Function.update_of_ne hb]
      exact (h.objs b).frame (hobj b hb) hbrk.ge fun q hq => hheap b hb q hq

theorem insert_rep (h : Rep hash w aw) (ha : aw a = some o) (x : K) :
    ∃ w', insert hash a x w = .ok w' ∧
      Rep hash w' (Function.update aw a (some (o.mapItems (x ::ₘ ·)))) := by
  have hr : RepObj hash w a (some o) := ha ▸ h.objs a
  match o, hr with
  | .movedFrom, hr =>
    refine ⟨w, ?_, ?_⟩
    · simp only [insert, World.obj, show w.objs a = some .movedFrom from hr, ok_bind]
      rfl
    · rwa [AbsObj.mapItems, ← ha, Function.update_eq_self]
  | .live sp, ⟨p, hp, hl⟩ =>
    obtain ⟨m, h1, h2⟩ := insert_ok hl x
    exact ⟨_, h1, h.setBlock hp hl.1 h2⟩

theorem clear_rep (h : Rep hash w aw) (ha : aw a = some o) :
    ∃ w', clear a w = .ok w' ∧ Rep hash w' (Function.update aw a (some (o.mapItems fun _ => 0))) := by
  have hr : RepObj hash w a (some o) := ha ▸ h.objs a
  match o, hr with
  | .movedFrom, hr =>
    refine ⟨w, ?_, ?_⟩
    · simp only [clear, World.obj, show w.objs a = some .movedFrom from hr, ok_bind]
      rfl
    · rwa [AbsObj.mapItems, ← ha, Function.update_eq_self]
  | .live sp, ⟨p, hp, hl⟩ =>
    obtain ⟨m, h1, h2⟩ := clear_ok hl
    exact ⟨_, h1, h.setBlock hp hl.1 h2⟩

theorem merge_rep (h : Rep hash w aw) {other : ℕ} {oo : AbsObj K} (ha : aw a = some o)
    (ho : aw other = some oo) (hdims : o.dims = oo.dims) :
    ∃ w', merge a other w = .ok (.unit, w') ∧
      Rep hash w' (Function.update aw a (some (o.mapItems (· + oo.items)))) := by
  have hr : RepObj hash w a (some o) := ha ▸ h.objs a
  have hr' : RepObj hash w other (some oo) := ho ▸ h.objs other
  match o, oo, hr, hr' with
  | .movedFrom, .movedFrom, hr, hr' =>
    refine ⟨w, ?_, ?_⟩
    · simp only [merge, World.obj, show w.objs a = some .movedFrom from hr,
        show w.objs other = some .movedFrom from hr', ok_bind]
      rfl
    · rwa [AbsObj.mapItems, ← ha, Function.update_eq_self]
  | .movedFrom, .live sp', _, ⟨_, _, hl, _⟩ =>
    have := hl.width_pos
    simp only [AbsObj.dims, Prod.mk.injEq] at hdims
    omega
  | .live sp, .movedFrom, ⟨_, _, hl, _⟩, _ =>
    have := hl.width_pos
    simp only [AbsObj.dims, Prod.mk.injEq] at hdims
    omega
  | .live sp, .live sp', ⟨p, hp, hl⟩, ⟨q, _, hl'⟩ =>
    simp only [AbsObj.dims, Prod.mk.injEq] at hdims
    obtain ⟨h1, h2⟩ := hdims
    rw [← h1, ← h2] at hl'
    obtain ⟨m, hm1, hm2⟩ := merge_ok hl hl'
    exact ⟨_, hm1, h.setBlock hp hl.1 hm2⟩

theorem merge_throws (h : Rep hash w aw) {other : ℕ} {oo : AbsObj K} (ha : aw a = some o)
    (ho : aw other = some oo) (hdims : o.dims ≠ oo.dims) :
    merge a other w = .ok (.invalidArgument, w) := by
  obtain ⟨c, hc, hc1, hc2⟩ := (ha ▸ h.objs a : RepObj hash w a (some o)).dims
  obtain ⟨d, hd, hd1, hd2⟩ := (ho ▸ h.objs other : RepObj hash w other (some oo)).dims
  have hne : c.width ≠ d.width ∨ c.depth ≠ d.depth := by
    rw [hc1, hc2, hd1, hd2]
    by_contra hcon
    simp only [not_or, not_not] at hcon
    exact hdims (Prod.ext hcon.1 hcon.2)
  simp only [merge, World.obj, hc, hd, ok_bind, hne, if_true]
  rfl

theorem count_rep (h : Rep hash w aw) (ha : aw a = some o) (x : K) :
    count hash a x w = .ok (o.count hash x) := by
  have hr : RepObj hash w a (some o) := ha ▸ h.objs a
  match o, hr with
  | .movedFrom, hr =>
    simp only [count, World.obj, show w.objs a = some .movedFrom from hr, ok_bind]
    rfl
  | .live sp, ⟨p, hp, hl⟩ => exact count_ok hl x

theorem moveConstruct_rep (h : Rep hash w aw) {other : ℕ} (ha : aw a = none) (ho : aw other = some o) :
    ∃ w', moveConstruct a other w = .ok w' ∧
      Rep hash w' (Function.update (Function.update aw a (some o)) other (some .movedFrom)) := by
  obtain ⟨c, hc, -⟩ := (ho ▸ h.objs other : RepObj hash w other (some o)).dims
  have hobj : w.objs a = none := by simpa only [ha, RepObj] using h.objs a
  have hne : a ≠ other := by
    rintro rfl
    rw [ha] at ho
    cases ho
  refine ⟨_, ?_, takeOver_rep h hne ho hc rfl rfl fun _ _ _ _ => rfl⟩
  simp only [moveConstruct, World.obj, hc, ok_bind, hobj, Option.isSome_none, Bool.false_eq_true, if_false]
  rfl

theorem moveAssign_rep (h : Rep hash w aw) {other : ℕ} {oa : AbsObj K} (ha : aw a = some oa)
    (ho : aw other = some o) (hne : a ≠ other) :
    ∃ w', moveAssign a other w = .ok w' ∧
      Rep hash w' (Function.update (Function.update aw a (some o)) other (some .movedFrom)) := by
  obtain ⟨c, hc, -⟩ := (ho ▸ h.objs other : RepObj hash w other (some o)).dims
  obtain ⟨d, hd, -⟩ := (ha ▸ h.objs a : RepObj hash w a (some oa)).dims
  obtain ⟨w1, h1, hobjs, hbrk, hheap⟩ := release_ok h hd
  refine ⟨_, ?_, takeOver_rep h hne ho hc hobjs hbrk hheap⟩
  simp only [moveAssign, World.obj, hc, hd, ok_bind, hne, if_false, h1]
  rfl

theorem moveAssign_self (h : Rep hash w aw) (ha : aw a = some o) : moveAssign a a w = .ok w := by
  obtain ⟨c, hc, -⟩ := (ha ▸ h.objs a : RepObj hash w a (some o)).dims
  simp only [moveAssign, World.obj, hc, ok_bind, if_true]
  rfl

/-- **Simulation step**: whatever the abstract machine does, the code does, with the same output. -/
theorem step_rep (h : Rep hash w aw) (op : Op K) {out : Out} {aw' : AbsWorld K}
    (hstep : astep hash aw op = .ok (out, aw')) :
    ∃ w', step hash w op = .ok (out, w') ∧ Rep hash w' aw' := by
  have lift : ∀ {f : Except Fault World} {aw'' : AbsWorld K}, (∃ w', f = .ok w' ∧ Rep hash w' aw'') →
      ∃ w', (do return (Out.unit, ← f)) = Except.ok (Out.unit, w') ∧ Rep hash w' aw'' := by
    rintro f aw'' ⟨w', rfl, hw'⟩
    exact ⟨w', rfl, hw'⟩
  cases op with
  | construct a width depth =>
    simp only [astep] at hstep
    cases ha : aw a with
    | some o => rw [ha] at hstep; cases hstep
    | none =>
      rw [ha] at hstep
      by_cases hz : width = 0 ∨ depth = 0
      · simp only [hz, if_true, Except.ok.injEq, Prod.mk.injEq] at hstep
        obtain ⟨rfl, rfl⟩ := hstep
        have hobj : w.objs a = none := by simpa only [ha, RepObj] using h.objs a
        refine ⟨w, ?_, h⟩
        simp only [step, construct, hobj, Option.isSome_none, Bool.false_eq_true, if_false, hz, if_true]
        rfl
      · simp only [hz, if_false, Except.ok.injEq, Prod.mk.injEq] at hstep
        obtain ⟨rfl, rfl⟩ := hstep
        rw [not_or] at hz
        exact construct_rep h ha hz.1 hz.2
  | destroy a =>
    simp only [astep] at hstep
    cases ha : aw a with
    | none => rw [ha] at hstep; cases hstep
    | some o =>
      rw [ha] at hstep
      cases hstep
      exact lift (destroy_rep h ha)
  | insert a x =>
    simp only [astep] at hstep
    cases ha : aw a with
    | none => rw [ha] at hstep; cases hstep
    | some o =>
      rw [ha] at hstep
      cases hstep
      exact lift (insert_rep h ha x)
  | clear a =>
    simp only [astep] at hstep
    cases ha : aw a with
    | none => rw [ha] at hstep; cases hstep
    | some o =>
      rw [ha] at hstep
      cases hstep
      exact lift (clear_rep h ha)
  | merge a other =>
    simp only [astep] at hstep
    cases ha : aw a with
    | none => rw [ha] at hstep; cases hstep
    | some o =>
      cases ho : aw other with
      | none => rw [ha, ho] at hstep; cases hstep
      | some oo =>
        rw [ha, ho] at hstep
        by_cases hd : o.dims = oo.dims
        · simp only [hd, if_true, Except.ok.injEq, Prod.mk.injEq] at hstep
          obtain ⟨rfl, rfl⟩ := hstep
          exact merge_rep h ha ho hd
        · simp only [hd, if_false, Except.ok.injEq, Prod.mk.injEq] at hstep
          obtain ⟨rfl, rfl⟩ := hstep
          exact ⟨w, merge_throws h ha ho hd, h⟩
  | moveConstruct a other =>
    simp only [astep] at hstep
    cases ha : aw a with
    | some o => rw [ha] at hstep; cases hstep
    | none =>
      cases ho : aw other with
      | none => rw [ha, ho] at hstep; cases hstep
      | some oo =>
        rw [ha, ho] at hstep
        cases hstep
        exact lift (moveConstruct_rep h ha ho)
  | moveAssign a other =>
    simp only [astep] at hstep
    cases ha : aw a with
    | none => rw [ha] at hstep; cases hstep
    | some o =>
      cases ho : aw other with
      | none => rw [ha, ho] at hstep; cases hstep
      | some oo =>
        rw [ha, ho] at hstep
        by_cases he : a = other
        · subst he
          simp only [if_true, Except.ok.injEq, Prod.mk.injEq] at hstep
          obtain ⟨rfl, rfl⟩ := hstep
          exact lift ⟨w, moveAssign_self h ha, h⟩
        · simp only [he, if_false, Except.ok.injEq, Prod.mk.injEq] at hstep
          obtain ⟨rfl, rfl⟩ := hstep
          exact lift (moveAssign_rep h ha ho he)
  | count a x =>
    simp only [astep] at hstep
    cases ha : aw a with
    | none => rw [ha] at hstep; cases hstep
    | some o =>
      rw [ha] at hstep
      cases hstep
      refine ⟨w, ?_, h⟩
      simp only [step, count_rep h ha x, ok_bind]
      rfl

end Step

/-! ## Whole runs -/

section Runs

variable {hash : ℕ → K → ℕ} {w : World} {a p width depth : ℕ} {s : ℕ → Multiset K}

theorem rep_empty (hash : ℕ → K → ℕ) (junk : ℕ → ℕ → ℕ → UInt32) :
    Rep hash (World.empty junk) (fun _ => none : AbsWorld K) :=
  ⟨fun _ => rfl, fun _ _ _ ⟨_, h, _⟩ => by cases h⟩

theorem LiveAt.cellAt_ok (h : LiveAt hash w a p width depth s) {b i : ℕ} (hb : b < width) (hi : i < depth) :
    cellAt w a b i = .ok (UInt32.ofNat (collisions hash width i b (s i))) := by
  obtain ⟨ho, cell, hp, hc⟩ := h
  simp only [cellAt, ho.obj_ok, ok_bind, matrixOf_ok hp, load_ok hb hi, hc b hb i hi]

theorem collisions_le_card (hash : ℕ → K → ℕ) (width i b : ℕ) (t : Multiset K) :
    collisions hash width i b t ≤ t.card := Multiset.countP_le_card _ _

theorem count_le_collisions [DecidableEq K] (hash : ℕ → K → ℕ) (width i : ℕ) (x : K) (t : Multiset K) :
    t.count x ≤ collisions hash width i (hash i x % width) t := by
  unfold Multiset.count collisions
  rw [Multiset.countP_eq_card_filter, Multiset.countP_eq_card_filter]
  refine Multiset.card_le_card (Multiset.monotone_filter_right t ?_)
  rintro y rfl
  rfl

/-- Below `2 ^ 32` items the counters do not wrap, so the minimum is the least collision count. -/
theorem minRows_isLeast (hash : ℕ → K → ℕ) (width : ℕ) {t : Multiset K} (ht : t.card < 2 ^ 32) (hd : 0 < depth) (x : K) :
    IsLeast {n | ∃ i < depth, n = collisions hash width i (hash i x % width) t}
      (minRows (fun i => UInt32.ofNat (collisions hash width i (hash i x % width) t)) depth).toNat := by
  have hval : ∀ i, (UInt32.ofNat (collisions hash width i (hash i x % width) t)).toNat =
      collisions hash width i (hash i x % width) t := by
    intro i
    have := collisions_le_card hash width i (hash i x % width) t
    rw [UInt32.toNat_ofNat', Nat.mod_eq_of_lt (by omega)]
  constructor
  · obtain ⟨i, hi, he⟩ := minRows_mem
      (f := fun i => UInt32.ofNat (collisions hash width i (hash i x % width) t)) hd
    exact ⟨i, hi, by rw [he, hval]⟩
  · rintro _ ⟨i, hi, rfl⟩
    rw [← hval i]
    exact minRows_le (f := fun i => UInt32.ofNat (collisions hash width i (hash i x % width) t)) hi

/-- **The sketches track their multisets.**  Every sequence of calls on existing objects runs without a
fault and answers as the abstract machine does; at the end each cell of a sketch that is not moved-from
is its collision count modulo `2 ^ 32`, and below `2 ^ 32` items `Count` is the least collision count,
between the multiplicity of the item and the number of items. -/
theorem sketches_track_multisets [DecidableEq K] (hash : ℕ → K → ℕ) (junk : ℕ → ℕ → ℕ → UInt32)
    (ops : List (Op K)) (outs : List Out) (aw : AbsWorld K)
    (hops : run (astep hash) (fun _ => none) ops = .ok (outs, aw)) :
    ∃ w, run (step hash) (World.empty junk) ops = .ok (outs, w) ∧
      ∀ a sp, aw a = some (.live sp) →
        (∀ i < sp.depth, ∀ b < sp.width, ∃ c, cellAt w a b i = .ok c ∧
          c.toNat = collisions hash sp.width i b sp.items % 2 ^ 32) ∧
        (sp.items.card < 2 ^ 32 → ∀ x, ∃ c, count hash a x w = .ok c ∧
          IsLeast {n | ∃ i < sp.depth, n = collisions hash sp.width i (hash i x % sp.width) sp.items}
            c.toNat ∧
          sp.items.count x ≤ c.toNat ∧ c.toNat ≤ sp.items.card) := by
  obtain ⟨w, hw, hR⟩ := run_sim (Rep hash)
    (fun w aw op out aw' h hs => step_rep h op hs) ops _ _ outs aw (rep_empty hash junk) hops
  refine ⟨w, hw, fun a sp ha => ?_⟩
  obtain ⟨p, -, hl⟩ : RepObj hash w a (some (.live sp)) := ha ▸ hR.objs a
  refine ⟨fun i hi b hb => ⟨_, hl.cellAt_ok hb hi, UInt32.toNat_ofNat'⟩, fun hcard x => ?_⟩
  have hleast := minRows_isLeast hash sp.width hcard hl.1.depth_pos x
  refine ⟨_, count_ok hl x, hleast, ?_, ?_⟩
  · obtain ⟨i, -, he⟩ := hleast.1
    rw [he]
    exact count_le_collisions hash sp.width i x sp.items
  · obtain ⟨i, -, he⟩ := hleast.1
    rw [he]
    exact collisions_le_card hash sp.width i _ sp.items

/-- A sketch of width 3 and depth 2 is filled, moved, used after the move, and merged with itself. -/
theorem sketches_track_multisets_moved :
    ∃ outs aw, run (astep fun i y => 7 * i + y) (fun _ => none)
        [.construct 0 3 2, .insert 0 5, .moveConstruct 1 0, .insert 0 9, .count 0 5, .merge 1 1, .merge 1 0,
          .count 1 5] = .ok (outs, aw) ∧
      outs = [.unit, .unit, .unit, .unit, .count uint32Max, .unit, .invalidArgument, .count 2] ∧
      ∃ w, run (step fun i y => 7 * i + y) (World.empty fun _ _ _ => 77)
        [.construct 0 3 2, .insert 0 5, .moveConstruct 1 0, .insert 0 9, .count 0 5, .merge 1 1, .merge 1 0,
          .count 1 5] = .ok (outs, w) := by
  refine ⟨_, _, rfl, by decide, ?_⟩
  obtain ⟨w, hw, -⟩ := sketches_track_multisets (fun i y => 7 * i + y) (fun _ _ _ => 77)
    [.construct 0 3 2, .insert 0 5, .moveConstruct 1 0, .insert 0 9, .count 0 5, .merge 1 1, .merge 1 0,
      .count 1 5] _ _ rfl
  exact ⟨w, hw⟩

end Runs

end Journey.Sketch
