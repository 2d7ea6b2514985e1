import Journey.Lib.Blocks
import Mathlib.Algebra.Group.Int.Defs
import Mathlib.Algebra.Group.Nat.Defs
import Mathlib.Data.Int.Basic

/-!
# Journey.Containers.Vector — a growing array over raw storage

`Vector<T>` with `CustomAllocator<T>`: the elements lie in the first `sz` slots of a block of `cap` slots,
or nowhere when `cap` is 0.  Any number of vectors live in one heap of blocks.

* `allocate`, and the member functions as programs on the heap and the vector (`VecM`): constructors,
  assignments, `pushBack`, `reserve`, `index` (`operator[]`), the destructor.  A call that throws leaves
  the heap and the vector as they are at that point.
* `Op`, `step`: one call in a program with many vectors, `stateAfter` a run.
* `Sound h vec`: the sizes of a vector and its block agree.  `content h vec`: its slots.
* one lemma for each member function: what it answers, what it leaves in the slots of its vector, and
  that no other block of the heap changes (`Moves`).
-/

namespace Journey.Containers

variable {α : Type}

/-! ## The vector -/

section Model

variable [Inhabited α] [ImplicitLifetime α]

/-- What a call can throw. -/
inductive VecError
  | badAlloc
  | lengthError
  | outOfRange
deriving DecidableEq, Repr

/-- `Vector<T>`: `elem` (the null pointer is `none`), `sz` and `cap`. -/
structure Vec where
  elem : Option ℕ
  sz : Int32
  cap : Int32
deriving DecidableEq

/-- A vector without storage. -/
def Vec.empty : Vec := ⟨none, 0, 0⟩

/-- `sizeof(T)`, and whether `::operator new` succeeds in this call. -/
structure Memory where
  sizeOf : ℕ
  newOk : Bool

/-- A call on a vector. -/
abbrev VecM (α : Type) := EStateM VecError (BlockHeap α × Vec)

/-- An `int` converted to `size_t`. -/
def toSize (n : Int32) : ℕ := (n.toInt % 2 ^ 64).toNat

/-- How often `for (int i = 0; i < n; i++)` runs. -/
def rounds (n : Int32) : ℕ := n.toInt.toNat

/-- `CustomAllocator::max_size`. -/
def maxSize (mem : Memory) : ℕ := (2 ^ 64 - 1) / mem.sizeOf

/-- `CustomAllocator::allocate`. -/
def allocate (mem : Memory) (n : ℕ) : VecM α (Option ℕ) := do
  if n = 0 then return none
  else if maxSize mem < n then throw .badAlloc
  else if mem.newOk then
    let (h, vec) ← get
    let (b, h) := h.alloc n
    set (h, vec)
    return some b
  else throw .badAlloc

/-- Work on the heap. -/
def modifyHeap (f : BlockHeap α → BlockHeap α) : VecM α Unit := modify fun (h, vec) => (f h, vec)

/-- Set the fields. -/
def setVec (vec : Vec) : VecM α Unit := modify fun (h, _) => (h, vec)

/-- `if (elem) alloc.deallocate(elem, cap)`. -/
def freeBlock (h : BlockHeap α) (vec : Vec) : BlockHeap α :=
  match vec.elem with
  | none => h
  | some b => h.free b (toSize vec.cap)

/-- Destroy the elements and give the block back, as the destructor and both assignments do. -/
def releaseHeap (h : BlockHeap α) (vec : Vec) : BlockHeap α :=
  freeBlock (times (rounds vec.sz) (fun i h => h.destroy vec.elem i) h) vec

def release : VecM α Unit := modify fun (h, vec) => (releaseHeap h vec, vec)

namespace Vector

/-- `Vector()`. -/
def default (mem : Memory) : VecM α Unit := do
  let elem ← allocate mem 0
  setVec ⟨elem, 0, 0⟩

/-- `Vector(int)`. -/
def sized (mem : Memory) (sz : Int32) : VecM α Unit := do
  if sz < 0 then throw .lengthError
  else
    let elem ← allocate mem (toSize sz)
    modifyHeap (times (rounds sz) fun i h => h.construct elem i (some Inhabited.default))
    setVec ⟨elem, sz, sz⟩

/-- `Vector(std::initializer_list<T>)`. -/
def ofList (mem : Memory) (lst : List α) : VecM α Unit := do
  let cap := Int32.ofNat lst.length
  let elem ← allocate mem (toSize cap)
  modifyHeap (times lst.length fun i h => h.construct elem i lst[i]?)
  setVec ⟨elem, cap, cap⟩

/-- `Vector(const Vector &)`. -/
def copy (mem : Memory) (other : Vec) : VecM α Unit := do
  let elem ← allocate mem (toSize other.sz)
  modifyHeap (times (rounds other.sz) fun i h => h.copySlot elem other.elem i)
  setVec ⟨elem, other.sz, other.sz⟩

/-- `Vector(Vector &&)`, without what it does to `other`. -/
def move (other : Vec) : VecM α Unit := setVec other

/-- `operator=(const Vector &)`, for another vector. -/
def copyAssign (mem : Memory) (other : Vec) : VecM α Unit := do
  release
  let (_, vec) ← get
  setVec { vec with sz := other.sz, cap := other.cap }
  let elem ← allocate mem (toSize other.cap)
  setVec ⟨elem, other.sz, other.cap⟩
  modifyHeap (times (rounds other.sz) fun i h => h.copySlot elem other.elem i)

/-- `operator=(Vector &&)`, for another vector and without what it does to it. -/
def moveAssign (other : Vec) : VecM α Unit := do
  release
  setVec other

/-- `reserve`. -/
def reserve (mem : Memory) (newCap : Int32) : VecM α Unit := do
  let (_, vec) ← get
  if newCap ≤ vec.cap then return ()
  else
    let p ← allocate mem (toSize newCap)
    modifyHeap (times (rounds vec.sz) fun i h => (h.copySlot p vec.elem i).destroy vec.elem i)
    modifyHeap fun h => freeBlock h vec
    setVec { vec with elem := p, cap := newCap }

/-- `push_back`, of a value or of a reference to a slot. -/
def pushBack (mem : Memory) (value : BlockHeap α → Option α × BlockHeap α) : VecM α Unit := do
  let (_, vec) ← get
  if vec.sz = vec.cap then reserve mem (if vec.cap = 0 then 1 else vec.cap * 2) else pure ()
  let (h, vec) ← get
  let (x, h) := value h
  set (h.assign vec.elem (rounds vec.sz) x, { vec with sz := vec.sz + 1 })

/-- `operator[]`, and a read through the reference it returns. -/
def index (i : Int32) : VecM α (Option α) := do
  let (h, vec) ← get
  if i < 0 ∨ vec.sz ≤ i then throw .outOfRange
  else
    let (x, h) := h.read vec.elem (rounds i)
    set (h, vec)
    return x

/-- `~Vector()`. -/
def destroy : VecM α Unit := release

end Vector

end Model

/-! ## Programs with many vectors -/

section Programs

variable [Inhabited α] [ImplicitLifetime α]

/-- One call in a program; vectors are known by a number. -/
inductive Op (α : Type)
  | default (v : ℕ)
  | sized (v : ℕ) (sz : Int32)
  | ofList (v : ℕ) (lst : List α)
  | copy (v other : ℕ)
  | move (v other : ℕ)
  | copyAssign (v other : ℕ)
  | moveAssign (v other : ℕ)
  | pushBack (v : ℕ) (value : α)
  | pushBackOwn (v : ℕ) (i : ℕ)
  | reserve (v : ℕ) (newCap : Int32)
  | index (v : ℕ) (i : Int32)
  | destroy (v : ℕ)

/-- The heap and the vectors that are alive. -/
structure State (α : Type) where
  heap : BlockHeap α
  vecs : ℕ → Option Vec

/-- Nothing allocated, no vector alive. -/
def State.init : State α := ⟨⟨fun _ => none, 0, []⟩, fun _ => none⟩

/-- A constructor call: the vector is alive if it returns.  Names of vectors that are alive are not used
again. -/
def create (s : State α) (v : ℕ) (call : VecM α Unit) : Except VecError (Option α) × State α :=
  match s.vecs v with
  | some _ => (.ok none, s)
  | none =>
    match call (s.heap, .empty) with
    | .ok _ (h, vec) => (.ok none, ⟨h, Function.update s.vecs v (some vec)⟩)
    | .error e (h, _) => (.error e, { s with heap := h })

/-- A call on a vector that is alive. -/
def callOn (s : State α) (v : ℕ) (call : VecM α (Option α)) : Except VecError (Option α) × State α :=
  match s.vecs v with
  | none => (.ok none, s)
  | some vec =>
    match call (s.heap, vec) with
    | .ok x (h, vec) => (.ok x, ⟨h, Function.update s.vecs v (some vec)⟩)
    | .error e (h, vec) => (.error e, ⟨h, Function.update s.vecs v (some vec)⟩)

/-- A call without an answer. -/
def noAnswer (call : VecM α Unit) : VecM α (Option α) := do
  call
  return none

/-- One call: what it answers or throws, and the state it leaves. -/
def step (mem : Memory) (s : State α) : Op α → Except VecError (Option α) × State α
  | .default v => create s v (Vector.default mem)
  | .sized v sz => create s v (Vector.sized mem sz)
  | .ofList v lst => create s v (Vector.ofList mem lst)
  | .copy v other =>
    match s.vecs other with
    | none => (.ok none, s)
    | some o => create s v (Vector.copy mem o)
  | .move v other =>
    match s.vecs other, s.vecs v with
    | some o, none =>
      let (x, s) := create s v (Vector.move o)
      (x, { s with vecs := Function.update s.vecs other (some .empty) })
    | _, _ => (.ok none, s)
  | .copyAssign v other =>
    match s.vecs other with
    | none => (.ok none, s)
    | some o => if v = other then (.ok none, s) else callOn s v (noAnswer (Vector.copyAssign mem o))
  | .moveAssign v other =>
    match s.vecs other, s.vecs v with
    | some o, some _ =>
      if v = other then (.ok none, s)
      else
        let (x, s) := callOn s v (noAnswer (Vector.moveAssign o))
        (x, { s with vecs := Function.update s.vecs other (some .empty) })
    | _, _ => (.ok none, s)
  | .pushBack v value => callOn s v (noAnswer (Vector.pushBack mem fun h => (some value, h)))
  | .pushBackOwn v i =>
    match s.vecs v with
    | none => (.ok none, s)
    | some vec =>
      if i < rounds vec.sz then callOn s v (noAnswer (Vector.pushBack mem fun h => h.read vec.elem i))
      else (.ok none, s)
  | .reserve v newCap => callOn s v (noAnswer (Vector.reserve mem newCap))
  | .index v i => callOn s v (Vector.index i)
  | .destroy v =>
    let (x, s) := callOn s v (noAnswer Vector.destroy)
    (x, { s with vecs := Function.update s.vecs v none })

/-- A call, and whether `::operator new` succeeds in it. -/
abbrev Call (α : Type) := Op α × Bool

/-- The state after calls on elements of `sizeOf` bytes. -/
def stateAfter (sizeOf : ℕ) (calls : List (Call α)) : State α :=
  calls.foldl (fun s call => (step ⟨sizeOf, call.2⟩ s call.1).2) .init

end Programs

/-! ## Allocation -/

section Allocation

variable {h h' h'' : BlockHeap α} {vec : Vec} {mem : Memory} {n k : ℕ}

/-- Blocks from the next one on are not allocated yet. -/
def Fresh (h : BlockHeap α) : Prop := ∀ b, h.next ≤ b → h.block b = none

/-- `allocate(n)` returns. -/
def Grants (mem : Memory) (n : ℕ) : Prop := n = 0 ∨ n ≤ maxSize mem ∧ mem.newOk = true

/-- The pointer it returns, and the heap. -/
def pointer (h : BlockHeap α) (n : ℕ) : Option ℕ := if n = 0 then none else some h.next

def allocated (h : BlockHeap α) (n : ℕ) : BlockHeap α := if n = 0 then h else (h.alloc n).2

theorem allocate_of_grants (hg : Grants mem n) :
    allocate mem n (h, vec) = .ok (pointer h n) (allocated h n, vec) := by
  unfold allocate pointer allocated
  by_cases h0 : n = 0
  · rw [if_pos h0, if_pos h0, if_pos h0]
    rfl
  · obtain ⟨hmax, hnew⟩ := hg.resolve_left h0
    rw [if_neg h0, if_neg h0, if_neg h0, if_neg (by omega), if_pos hnew]
    rfl

theorem allocate_of_not_grants (hg : ¬ Grants mem n) : allocate mem n (h, vec) = .error .badAlloc (h, vec) := by
  unfold allocate
  have h0 : n ≠ 0 := fun h0 => hg (.inl h0)
  rw [if_neg h0]
  by_cases hmax : maxSize mem < n
  · rw [if_pos hmax]
    rfl
  · have hnew : ¬ mem.newOk = true := fun hnew => hg (.inr ⟨by omega, hnew⟩)
    rw [if_neg hmax, if_neg hnew]
    rfl

/-- From `h` to `h'`: a block of `n` slots holding `slots` was added, or none if `n` is 0. -/
structure Built (h h' : BlockHeap α) (n : ℕ) (slots : ℕ → Slot α) (clean : Prop) : Prop where
  fresh : Fresh h'
  next_le : h.next ≤ h'.next
  other : ∀ b < h.next, h'.block b = h.block b
  new : n ≠ 0 → h'.block h.next = some ⟨n, slots⟩ ∧ ∀ b, h.next < b → h'.block b = none
  zero : n = 0 → h'.block = h.block ∧ slots = fun _ => .raw
  stray : h'.strays = h.strays
  faults : clean → h'.faults = h.faults

/-- An allocation, and a loop that turns the raw block into `slots`. -/
theorem built_of_becomes (body : BlockHeap α → BlockHeap α) {f : ℕ → Slot α} {clean : Prop} (hf : Fresh h)
    (hn : k ≤ n) (hzero : n = 0 → body h = h)
    (hloop : n ≠ 0 → Becomes (h.alloc n).2 (body (h.alloc n).2)
      (Function.update (h.alloc n).2.block h.next (some ((BlockHeap.rawBlock n).upTo k f))) clean) :
    Built h (body (allocated h n)) n (fun i => if i < k then f i else .raw) clean := by
  unfold allocated
  by_cases h0 : n = 0
  · have hk : k = 0 := by omega
    rw [if_pos h0, hzero h0]
    refine ⟨hf, le_refl _, fun _ _ => rfl, fun hne => absurd h0 hne, fun _ => ⟨rfl, ?_⟩, rfl, fun _ => rfl⟩
    funext i
    rw [if_neg (by omega)]
  · have hb := hloop h0
    have hblock : (body (h.alloc n).2).block =
        Function.update h.block h.next (some ((BlockHeap.rawBlock n).upTo k f)) := by
      rw [hb.block]
      exact Function.update_idem ..
    have hnext : (body (h.alloc n).2).next = h.next + 1 := hb.next
    rw [if_neg h0]
    refine ⟨?_, by omega, ?_, fun _ => ⟨?_, ?_⟩, fun hz => absurd hz h0, hb.stray, hb.faults⟩
    · intro b hle
      rw [hblock, Function.update_of_ne (by omega)]
      exact hf b (by omega)
    · intro b hlt
      rw [hblock, Function.update_of_ne (by omega)]
    · rw [hblock, Function.update_self]
      rfl
    · intro b hlt
      rw [hblock, Function.update_of_ne (by omega)]
      exact hf b (by omega)

theorem block_alloc (h : BlockHeap α) (n : ℕ) : (h.alloc n).2.block h.next = some (BlockHeap.rawBlock n) :=
  Function.update_self ..

/-- **Allocate and construct**: a new block with the first `k` slots filled. -/
theorem built_fill (hf : Fresh h) (hn : k ≤ n) (f : ℕ → Option α) :
    Built h (times k (fun i h' => h'.construct (pointer h n) i (f i)) (allocated h n)) n
      (fun i => if i < k then ⟨true, f i⟩ else .raw) True := by
  refine built_of_becomes (fun h1 => times k (fun i h' => h'.construct (pointer h n) i (f i)) h1) hf hn ?_ ?_
  · intro h0
    obtain rfl : k = 0 := by omega
    rfl
  · intro h0
    have hp : pointer h n = some h.next := if_neg h0
    rw [hp]
    exact (becomes_fill f (block_alloc h n) hn).weaken rfl fun _ i _ => rfl

end Allocation

/-! ## A vector and its block -/

section Blocks

variable {h h' h'' : BlockHeap α} {vec vec' other : Vec} {mem : Memory} {n k : ℕ} {slots : ℕ → Slot α} {clean : Prop}

/-- The slots of a vector's block. -/
def content (h : BlockHeap α) (vec : Vec) : ℕ → Slot α :=
  match vec.elem with
  | none => fun _ => .raw
  | some b =>
    match h.block b with
    | none => fun _ => .raw
    | some blk => blk.slot

/-- The sizes of a vector and of its block. -/
structure Sound (h : BlockHeap α) (vec : Vec) : Prop where
  nonneg : 0 ≤ vec.sz.toInt
  le : vec.sz.toInt ≤ vec.cap.toInt
  null : vec.elem = none → vec.cap.toInt = 0
  block : ∀ b, vec.elem = some b → ∃ blk, h.block b = some blk ∧ blk.size = rounds vec.cap ∧ 0 < vec.cap.toInt

/-- Exactly the elements are objects. -/
def Neat (h : BlockHeap α) (vec : Vec) : Prop :=
  ∀ i, (content h vec i).constructed = decide (i < rounds vec.sz)

/-- The blocks without the vector's own. -/
def dropBlock (h : BlockHeap α) (vec : Vec) : ℕ → Option (Block α) :=
  match vec.elem with
  | none => h.block
  | some b => Function.update h.block b none

/-- From `h` to `h'` one vector changed from `vec` to `vec'`; the blocks of the others did not, and no block
without an owner is left. -/
structure Moves (h : BlockHeap α) (vec : Vec) (h' : BlockHeap α) (vec' : Vec) : Prop where
  fresh : Fresh h'
  next_le : h.next ≤ h'.next
  other : ∀ b < h.next, vec.elem ≠ some b → h'.block b = h.block b
  own : ∀ b, vec'.elem = some b → vec.elem = some b ∨ h.next ≤ b
  kept : ∀ b, h'.block b ≠ none → vec'.elem = some b ∨ b < h.next ∧ vec.elem ≠ some b ∧ h.block b ≠ none
  stray : h'.strays = h.strays

theorem rounds_eq_toSize {n : Int32} (hn : 0 ≤ n.toInt) : toSize n = rounds n := by
  have hlt := n.toInt_lt
  unfold toSize rounds
  rw [Int.emod_eq_of_lt hn (by omega)]

theorem content_of_block {b : ℕ} {blk : Block α} (he : vec.elem = some b) (hb : h.block b = some blk) :
    content h vec = blk.slot := by
  unfold content
  rw [he]
  dsimp only
  rw [hb]

theorem content_of_null (he : vec.elem = none) : content h vec = fun _ => .raw := by
  unfold content
  rw [he]

theorem content_congr (hb : ∀ b, vec.elem = some b → h'.block b = h.block b) : content h' vec = content h vec := by
  unfold content
  cases he : vec.elem with
  | none => rfl
  | some b =>
    dsimp only
    rw [hb b he]

theorem Sound.congr (hs : Sound h vec) (hb : ∀ b, vec.elem = some b → h'.block b = h.block b) : Sound h' vec := by
  refine ⟨hs.nonneg, hs.le, hs.null, ?_⟩
  intro b he
  obtain ⟨blk, hblk, hsize⟩ := hs.block b he
  exact ⟨blk, by rw [hb b he, hblk], hsize⟩

theorem Sound.rounds_le (hs : Sound h vec) : rounds vec.sz ≤ rounds vec.cap := by
  have hle := hs.le
  unfold rounds
  omega

/-- The block of a vector is one that was allocated. -/
theorem Sound.lt_next {b : ℕ} (hs : Sound h vec) (hf : Fresh h) (he : vec.elem = some b) : b < h.next := by
  obtain ⟨blk, hb, -⟩ := hs.block b he
  by_contra hge
  rw [hf b (by omega)] at hb
  cases hb

/-- A vector without storage has no elements. -/
theorem Sound.rounds_null (hs : Sound h vec) (he : vec.elem = none) : rounds vec.sz = 0 ∧ rounds vec.cap = 0 := by
  have hle := hs.le
  have hnull := hs.null he
  unfold rounds
  omega

theorem sound_empty (h : BlockHeap α) : Sound h .empty :=
  ⟨by decide, by decide, fun _ => rfl, fun b he => by cases he⟩

/-- **Allocate and copy** the first `k` elements of another vector. -/
theorem built_copy (hf : Fresh h) (ho : Sound h other) (hk : k ≤ rounds other.sz) (hn : k ≤ n) :
    Built h (times k (fun i h' => h'.copySlot (pointer h n) other.elem i) (allocated h n)) n
      (fun i => if i < k then ⟨true, (content h other i).value⟩ else .raw) (Neat h other) := by
  refine built_of_becomes
    (fun h1 => times k (fun i h' => h'.copySlot (pointer h n) other.elem i) h1) hf hn ?_ ?_
  · intro h0
    obtain rfl : k = 0 := by omega
    rfl
  · intro h0
    have hp : pointer h n = some h.next := if_neg h0
    rw [hp]
    cases he : other.elem with
    | none =>
      have hnull := (ho.rounds_null he).1
      obtain rfl : k = 0 := by omega
      rw [Block.upTo_zero, ← block_alloc, Function.update_eq_self]
      exact (Becomes.refl _).weaken rfl fun _ => trivial
    | some b =>
      obtain ⟨blk, hb, hsize, -⟩ := ho.block b he
      have hlt := ho.lt_next hf he
      have hb' : (h.alloc n).2.block b = some blk := (Function.update_of_ne (by omega) ..).trans hb
      have hcontent := content_of_block he hb
      have hle := ho.rounds_le
      refine (becomes_copyAll (by omega) (block_alloc h n) hb' hn (by omega)).weaken ?_ ?_
      · rw [hcontent]
      · intro hneat i hi
        have hcon := hneat i
        rw [hcontent, decide_eq_true (show i < rounds other.sz by omega)] at hcon
        exact ⟨hcon, rfl⟩

/-- **A vector over a block that was built**, for one that had none. -/
theorem Built.vector {cap : Int32} (hb : Built h h' (rounds cap) slots clean) (vec : Vec) (sz : Int32)
    (hf : Fresh h) (h0 : 0 ≤ sz.toInt) (hle : sz.toInt ≤ cap.toInt) (hvec : vec.elem = none) :
    Sound h' ⟨pointer h (rounds cap), sz, cap⟩ ∧ content h' ⟨pointer h (rounds cap), sz, cap⟩ = slots ∧
      Moves h vec h' ⟨pointer h (rounds cap), sz, cap⟩ := by
  have hother : ∀ b < h.next, vec.elem ≠ some b → h'.block b = h.block b := fun b hlt _ => hb.other b hlt
  by_cases hcap : rounds cap = 0
  · have hp : pointer h (rounds cap) = none := if_pos hcap
    obtain ⟨hblock, hslots⟩ := hb.zero hcap
    rw [hp]
    refine ⟨⟨h0, hle, ?_, fun b he => by cases he⟩, ?_,
      ⟨hb.fresh, hb.next_le, hother, (fun b he => by cases he), ?_, hb.stray⟩⟩
    · intro _
      unfold rounds at hcap
      show cap.toInt = 0
      omega
    · rw [hslots]
      exact content_of_null rfl
    · intro b hne
      rw [hblock] at hne
      have hlt : b < h.next := by
        by_contra hge
        exact hne (hf b (by omega))
      exact .inr ⟨hlt, by rw [hvec]; simp, hne⟩
  · have hp : pointer h (rounds cap) = some h.next := if_neg hcap
    obtain ⟨hnew, hrest⟩ := hb.new hcap
    rw [hp]
    refine ⟨⟨h0, hle, (fun he => by cases he), ?_⟩, content_of_block rfl hnew,
      ⟨hb.fresh, hb.next_le, hother, ?_, ?_, hb.stray⟩⟩
    · intro b he
      cases he
      refine ⟨_, hnew, rfl, ?_⟩
      unfold rounds at hcap
      show 0 < cap.toInt
      omega
    · intro b he
      cases he
      exact .inr (le_refl _)
    · intro b hne
      rcases Nat.lt_trichotomy b h.next with hlt | rfl | hgt
      · exact .inr ⟨hlt, by rw [hvec]; simp, by rw [← hb.other b hlt]; exact hne⟩
      · exact .inl rfl
      · exact absurd (hrest b hgt) hne

theorem block_freeBlock_null (he : vec.elem = none) : freeBlock h vec = h := by
  unfold freeBlock
  rw [he]

/-- **Destroy and deallocate**: the vector's block is gone. -/
theorem becomes_release (hs : Sound h vec) :
    Becomes h (releaseHeap h vec) (dropBlock h vec) (Neat h vec) := by
  unfold releaseHeap freeBlock dropBlock
  cases he : vec.elem with
  | none =>
    rw [(hs.rounds_null he).1]
    exact (Becomes.refl h).weaken rfl fun _ => trivial
  | some b =>
    obtain ⟨blk, hb, hsize, hpos⟩ := hs.block b he
    have hle := hs.rounds_le
    have hdestroy := becomes_destroyAll hb (n := rounds vec.sz) (by omega)
    have hfree := BlockHeap.becomes_free (n := toSize vec.cap)
      (show (times (rounds vec.sz) (fun i h => h.destroy (some b) i) h).block b = _ by
        rw [hdestroy.block, Function.update_self])
    have hcontent := content_of_block he hb
    refine (hdestroy.trans hfree).weaken ?_ ?_
    · rw [hdestroy.block, Function.update_idem]
    · intro hneat
      have hcon : ∀ i, (blk.slot i).constructed = decide (i < rounds vec.sz) := by
        intro i
        rw [← hcontent]
        exact hneat i
      refine ⟨fun i hi => by rw [hcon i, decide_eq_true hi], ?_, ?_⟩
      · rw [Block.size_upTo, hsize, rounds_eq_toSize (by omega)]
      · intro i _
        rw [Block.slot_upTo]
        split_ifs with hi
        · rfl
        · rw [hcon i, decide_eq_false hi]

/-- The other vectors do not see it. -/
theorem dropBlock_of_ne {b : ℕ} (hne : vec.elem ≠ some b) : dropBlock h vec b = h.block b := by
  unfold dropBlock
  cases he : vec.elem with
  | none => rfl
  | some b' =>
    refine Function.update_of_ne ?_ ..
    rintro rfl
    exact hne he

theorem dropBlock_own {b : ℕ} (he : vec.elem = some b) : dropBlock h vec b = none := by
  unfold dropBlock
  rw [he]
  exact Function.update_self ..

/-- **Release, then build**: the vector has a new block instead of its old one. -/
theorem Moves.of_release (hr : Becomes h h' (dropBlock h vec) clean)
    (hm : Moves h' .empty h'' vec') : Moves h vec h'' vec' := by
  refine ⟨hm.fresh, by rw [← hr.next]; exact hm.next_le, ?_, ?_, ?_, hm.stray.trans hr.stray⟩
  · intro b hlt hne
    rw [hm.other b (by rw [hr.next]; exact hlt) (by simp [Vec.empty]), hr.block, dropBlock_of_ne hne]
  · intro b he
    rcases hm.own b he with hcon | hge
    · cases hcon
    · exact .inr (by rw [← hr.next]; exact hge)
  · intro b hne
    rcases hm.kept b hne with hown | ⟨hlt, -, hlive⟩
    · exact .inl hown
    · right
      rw [hr.block] at hlive
      have hown : vec.elem ≠ some b := fun he => hlive (dropBlock_own he)
      refine ⟨by rw [← hr.next]; exact hlt, hown, ?_⟩
      rwa [dropBlock_of_ne hown] at hlive

/-- A vector that gave its block back. -/
theorem Moves.release (hf : Fresh h) (hr : Becomes h h' (dropBlock h vec) clean) : Moves h vec h' .empty := by
  have hf' : Fresh h' := by
    intro b hge
    rw [hr.next] at hge
    rw [hr.block]
    by_cases he : vec.elem = some b
    · exact dropBlock_own he
    · rw [dropBlock_of_ne he]
      exact hf b hge
  refine Moves.of_release hr ⟨hf', le_refl _, fun _ _ _ => rfl, (fun b he => by cases he), ?_, rfl⟩
  intro b hne
  refine .inr ⟨?_, by simp [Vec.empty], hne⟩
  by_contra hge
  exact hne (hf' b (by omega))

end Blocks

end Journey.Containers
