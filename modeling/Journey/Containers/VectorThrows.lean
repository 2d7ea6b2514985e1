import Journey.Containers.VectorGrowth
import Journey.Containers.VectorLifetimes
import Mathlib.Data.Nat.Find

/-!
# Journey.Containers.VectorThrows — what a throw leaves of a vector

The calls that copy elements (copy construction, copy assignment, `push_back`, `reserve`), with copies that
may throw; the allocation may throw as well.

* `Copies`: which copies throw.  `Throwing.copy`, `copyAssign`, `reserve`, `pushBack`: the member functions; where
  no copy throws they are those of `Journey.Containers.Vector` (`Throwing.reserve_quiet` and its siblings).
* `attempt`: such a call in a program with many vectors.
* `Safe s v s'`: the target `v` is a valid vector with the elements it had, the other vectors are as before, and no
  access went out of a block or into one that was given back.
* `Gentle`: no copy assignment, no move to a larger block that is interrupted after its first element, and for an own
  element of the vector no such move that comes to its end.
* `throw_safe_iff`: a call that throws is safe exactly when it is gentle.
-/

namespace Journey.Containers

variable {α β : Type}

/-! ## Calls whose copies may throw -/

section Model

/-- What is thrown: an error of the vector, or what the copy of an element threw. -/
inductive Thrown
  | vector (e : VecError)
  | element
deriving DecidableEq, Repr

/-- A call on a vector whose elements may throw. -/
abbrev CopyM (α : Type) := EStateM Thrown (BlockHeap α × Vec)

/-- Whether the copy of element `i` into new storage throws, whether the assignment in `push_back` does, and
what that one leaves in the slot. -/
structure Copies (α : Type) where
  copyThrows : ℕ → Bool
  assignThrows : Bool
  leftover : Option α

/-- A part of a call without copies. -/
def quiet (call : VecM α β) : CopyM α β := fun s =>
  match call s with
  | .ok a s => .ok a s
  | .error e s => .error (.vector e) s

/-- `alloc.construct(&dst[i], src[i])`: if the copy throws, no object begins. -/
def constructCopy (c : Copies α) (dst src : Option ℕ) (i : ℕ) : CopyM α Unit := do
  if c.copyThrows i then
    quiet (modifyHeap fun h => (h.read src i).2)
    throw .element
  else quiet (modifyHeap fun h => h.copySlot dst src i)

namespace Throwing

/-- `Vector(const Vector &)`. -/
def copy (c : Copies α) (mem : Memory) (other : Vec) : CopyM α Unit := do
  let elem ← quiet (allocate mem (toSize other.sz))
  quiet (setVec ⟨elem, other.sz, other.sz⟩)
  timesM (rounds other.sz) (constructCopy c elem other.elem)

/-- `operator=(const Vector &)`, for another vector. -/
def copyAssign (c : Copies α) (mem : Memory) (other : Vec) : CopyM α Unit := do
  quiet release
  let (_, vec) ← get
  quiet (setVec { vec with sz := other.sz, cap := other.cap })
  let elem ← quiet (allocate mem (toSize other.cap))
  quiet (setVec ⟨elem, other.sz, other.cap⟩)
  timesM (rounds other.sz) (constructCopy c elem other.elem)

/-- A round of the loop in `reserve`. -/
def moveOne (c : Copies α) (dst src : Option ℕ) (i : ℕ) : CopyM α Unit := do
  constructCopy c dst src i
  quiet (modifyHeap fun h => h.destroy src i)

/-- `reserve`. -/
def reserve (c : Copies α) (mem : Memory) (newCap : Int32) : CopyM α Unit := do
  let (_, vec) ← get
  if newCap ≤ vec.cap then return ()
  else
    let p ← quiet (allocate mem (toSize newCap))
    timesM (rounds vec.sz) (moveOne c p vec.elem)
    quiet (modifyHeap fun h => freeBlock h vec)
    quiet (setVec { vec with elem := p, cap := newCap })

/-- `elem[sz] = value; sz += 1`. -/
def writeEnd [ImplicitLifetime α] (c : Copies α) (value : BlockHeap α → Option α × BlockHeap α) : CopyM α Unit := do
  let (h, vec) ← get
  let (x, h) := value h
  if c.assignThrows then
    set (h.assign vec.elem (rounds vec.sz) c.leftover, vec)
    throw .element
  else set (h.assign vec.elem (rounds vec.sz) x, { vec with sz := vec.sz + 1 })

/-- `push_back`, of a value or of a reference to a slot. -/
def pushBack [ImplicitLifetime α] (c : Copies α) (mem : Memory) (value : BlockHeap α → Option α × BlockHeap α) :
    CopyM α Unit := do
  let (_, vec) ← get
  if vec.sz = vec.cap then reserve c mem (if vec.cap = 0 then 1 else vec.cap * 2) else pure ()
  writeEnd c value

end Throwing

/-- The calls that copy elements. -/
inductive CopyOp (α : Type)
  | copy (v other : ℕ)
  | copyAssign (v other : ℕ)
  | pushBack (v : ℕ) (value : α)
  | pushBackOwn (v : ℕ) (i : ℕ)
  | reserve (v : ℕ) (newCap : Int32)

/-- The vector that is built or changed. -/
def CopyOp.target : CopyOp α → ℕ
  | .copy v _ => v
  | .copyAssign v _ => v
  | .pushBack v _ => v
  | .pushBackOwn v _ => v
  | .reserve v _ => v

/-- A constructor call; if it throws there is no vector. -/
def tryCreate (s : State α) (v : ℕ) (call : CopyM α Unit) : Except Thrown Unit × State α :=
  match s.vecs v with
  | some _ => (.ok (), s)
  | none =>
    match call (s.heap, .empty) with
    | .ok _ (h, vec) => (.ok (), ⟨h, Function.update s.vecs v (some vec)⟩)
    | .error e (h, _) => (.error e, { s with heap := h })

/-- A call on a vector that is alive. -/
def tryOn (s : State α) (v : ℕ) (call : CopyM α Unit) : Except Thrown Unit × State α :=
  match s.vecs v with
  | none => (.ok (), s)
  | some vec =>
    match call (s.heap, vec) with
    | .ok _ (h, vec) => (.ok (), ⟨h, Function.update s.vecs v (some vec)⟩)
    | .error e (h, vec) => (.error e, ⟨h, Function.update s.vecs v (some vec)⟩)

/-- One call: whether it throws, and the state it leaves. -/
def attempt [ImplicitLifetime α] (c : Copies α) (mem : Memory) (s : State α) : CopyOp α → Except Thrown Unit × State α
  | .copy v other =>
    match s.vecs other with
    | none => (.ok (), s)
    | some o => tryCreate s v (Throwing.copy c mem o)
  | .copyAssign v other =>
    match s.vecs other with
    | none => (.ok (), s)
    | some o => if v = other then (.ok (), s) else tryOn s v (Throwing.copyAssign c mem o)
  | .pushBack v value => tryOn s v (Throwing.pushBack c mem fun h => (some value, h))
  | .pushBackOwn v i =>
    match s.vecs v with
    | none => (.ok (), s)
    | some vec =>
      if i < rounds vec.sz then tryOn s v (Throwing.pushBack c mem fun h => h.read vec.elem i) else (.ok (), s)
  | .reserve v newCap => tryOn s v (Throwing.reserve c mem newCap)

end Model

/-! ## Loops of copies -/

section Loops

variable {c : Copies α} {mem : Memory} {h : BlockHeap α} {vec other : Vec} {dst src : Option ℕ} {n i : ℕ}

theorem constructCopy_returns (hc : c.copyThrows i = false) :
    constructCopy c dst src i (h, vec) = .ok () (h.copySlot dst src i, vec) := by
  unfold constructCopy
  rw [hc]
  rfl

theorem copyLoop_returns (hc : ∀ i < n, c.copyThrows i = false) :
    timesM n (constructCopy c dst src) (h, vec) = .ok () (times n (fun i h => h.copySlot dst src i) h, vec) :=
  timesM_returns h vec fun i hi _ => constructCopy_returns (hc i hi)

theorem moveOne_returns (hc : c.copyThrows i = false) :
    Throwing.moveOne c dst src i (h, vec) = .ok () ((h.copySlot dst src i).destroy src i, vec) := by
  unfold Throwing.moveOne
  simp only [bind, EStateM.bind, constructCopy_returns hc]
  rfl

theorem moveLoop_returns (hc : ∀ i < n, c.copyThrows i = false) :
    timesM n (Throwing.moveOne c dst src) (h, vec) =
      .ok () (times n (fun i h => (h.copySlot dst src i).destroy src i) h, vec) :=
  timesM_returns h vec fun i hi _ => moveOne_returns (hc i hi)

theorem quiet_ok {call : VecM α β} {s s' : BlockHeap α × Vec} {a : β} (hok : call s = .ok a s') :
    quiet call s = .ok a s' := by
  unfold quiet
  rw [hok]

theorem quiet_error {call : VecM α β} {s s' : BlockHeap α × Vec} {e : VecError} (herr : call s = .error e s') :
    quiet call s = .error (.vector e) s' := by
  unfold quiet
  rw [herr]

end Loops

/-! ## How the calls end -/

section Outcomes

variable {c : Copies α} {mem : Memory} {h : BlockHeap α} {vec other : Vec} {newCap : Int32} {i : ℕ}

theorem Throwing.reserve_small (hle : newCap ≤ vec.cap) :
    Throwing.reserve c mem newCap (h, vec) = .ok () (h, vec) := by
  show (if newCap ≤ vec.cap then _ else _ : CopyM α Unit) (h, vec) = _
  rw [if_pos hle]
  rfl

theorem Throwing.reserve_fails (hgt : ¬ newCap ≤ vec.cap) (hg : ¬ Grants mem (toSize newCap)) :
    Throwing.reserve c mem newCap (h, vec) = .error (.vector .badAlloc) (h, vec) := by
  show (if newCap ≤ vec.cap then _ else _ : CopyM α Unit) (h, vec) = _
  rw [if_neg hgt]
  simp only [bind, EStateM.bind, quiet_error (allocate_of_not_grants hg)]

/-- Without a throwing copy it is the plain `reserve`. -/
theorem Throwing.reserve_quiet (hc : ∀ i < rounds vec.sz, c.copyThrows i = false) :
    Throwing.reserve c mem newCap (h, vec) = quiet (Vector.reserve mem newCap) (h, vec) := by
  by_cases hle : newCap ≤ vec.cap
  · rw [reserve_small hle, quiet_ok (Containers.reserve_small hle)]
  · by_cases hg : Grants mem (toSize newCap)
    · rw [quiet_ok (reserve_eq hle hg)]
      show (if newCap ≤ vec.cap then _ else _ : CopyM α Unit) (h, vec) = _
      rw [if_neg hle]
      simp only [bind, EStateM.bind, quiet_ok (allocate_of_grants hg), moveLoop_returns hc]
      rfl
    · rw [reserve_fails hle hg, quiet_error (Containers.reserve_fails hle hg)]

theorem Throwing.copy_fails (hg : ¬ Grants mem (toSize other.sz)) :
    Throwing.copy c mem other (h, vec) = .error (.vector .badAlloc) (h, vec) := by
  unfold Throwing.copy
  simp only [bind, EStateM.bind, quiet_error (allocate_of_not_grants hg)]

theorem Throwing.copy_quiet (hc : ∀ i < rounds other.sz, c.copyThrows i = false) :
    Throwing.copy c mem other (h, vec) = quiet (Vector.copy mem other) (h, vec) := by
  by_cases hg : Grants mem (toSize other.sz)
  · unfold Throwing.copy Vector.copy quiet
    simp only [bind, EStateM.bind, allocate_of_grants hg]
    exact copyLoop_returns hc
  · rw [copy_fails hg, quiet_error (Containers.copy_fails hg)]

theorem Throwing.copyAssign_fails (hg : ¬ Grants mem (toSize other.cap)) :
    Throwing.copyAssign c mem other (h, vec) =
      .error (.vector .badAlloc) (releaseHeap h vec, { vec with sz := other.sz, cap := other.cap }) := by
  have hfail : quiet (allocate mem (toSize other.cap)) (releaseHeap h vec, { vec with sz := other.sz, cap := other.cap }) =
      .error (.vector .badAlloc) (releaseHeap h vec, { vec with sz := other.sz, cap := other.cap }) :=
    quiet_error (allocate_of_not_grants hg)
  unfold Throwing.copyAssign
  show EStateM.bind (quiet (allocate mem (toSize other.cap))) _ (releaseHeap h vec, _) = _
  simp only [EStateM.bind, hfail]

theorem Throwing.copyAssign_eq (hg : Grants mem (toSize other.cap)) :
    Throwing.copyAssign c mem other (h, vec) =
      timesM (rounds other.sz)
        (constructCopy c (pointer (releaseHeap h vec) (toSize other.cap)) other.elem)
        (allocated (releaseHeap h vec) (toSize other.cap),
          ⟨pointer (releaseHeap h vec) (toSize other.cap), other.sz, other.cap⟩) := by
  have hok : quiet (allocate mem (toSize other.cap)) (releaseHeap h vec, { vec with sz := other.sz, cap := other.cap }) =
      .ok (pointer (releaseHeap h vec) (toSize other.cap))
        (allocated (releaseHeap h vec) (toSize other.cap), { vec with sz := other.sz, cap := other.cap }) :=
    quiet_ok (allocate_of_grants hg)
  unfold Throwing.copyAssign
  show EStateM.bind (quiet (allocate mem (toSize other.cap))) _ (releaseHeap h vec, _) = _
  simp only [EStateM.bind, hok]
  rfl

theorem Throwing.copyAssign_quiet (hc : ∀ i < rounds other.sz, c.copyThrows i = false) :
    Throwing.copyAssign c mem other (h, vec) = quiet (Vector.copyAssign mem other) (h, vec) := by
  by_cases hg : Grants mem (toSize other.cap)
  · rw [copyAssign_eq hg, copyLoop_returns hc]
    refine (quiet_ok ?_).symm
    simp only [Vector.copyAssign, release, bind, EStateM.bind, modify, modifyGet, MonadStateOf.modifyGet,
      stateM_modifyGet, get, getThe, MonadStateOf.get, stateM_get, setVec, modifyHeap, allocate_of_grants hg]
  · rw [copyAssign_fails hg, quiet_error (Containers.copyAssign_fails hg)]

section Push

variable [ImplicitLifetime α]

theorem Throwing.pushBack_full {value : BlockHeap α → Option α × BlockHeap α} (hfull : vec.sz = vec.cap) :
    Throwing.pushBack c mem value (h, vec) =
      (Throwing.reserve c mem (grown vec.cap) >>= fun _ => Throwing.writeEnd c value) (h, vec) := by
  simp only [Throwing.pushBack, bind, EStateM.bind, get, getThe, MonadStateOf.get, stateM_get, if_pos hfull, grown]

theorem Throwing.pushBack_room {value : BlockHeap α → Option α × BlockHeap α} (hroom : vec.sz ≠ vec.cap) :
    Throwing.pushBack c mem value (h, vec) = Throwing.writeEnd c value (h, vec) := by
  simp only [Throwing.pushBack, bind, EStateM.bind, get, getThe, MonadStateOf.get, stateM_get, if_neg hroom]

theorem Throwing.writeEnd_quiet {value : BlockHeap α → Option α × BlockHeap α} (ha : c.assignThrows = false) :
    Throwing.writeEnd c value = quiet (Vector.writeEnd value) := by
  unfold Throwing.writeEnd
  rw [ha]
  rfl

theorem Throwing.pushBack_quiet {value : BlockHeap α → Option α × BlockHeap α}
    (hc : ∀ i < rounds vec.sz, c.copyThrows i = false) (ha : c.assignThrows = false) :
    Throwing.pushBack c mem value (h, vec) = quiet (Vector.pushBack mem value) (h, vec) := by
  rw [pushBack_eq]
  by_cases hfull : vec.sz = vec.cap
  · rw [pushBack_full hfull, writeEnd_quiet ha]
    simp only [bind, EStateM.bind, reserve_quiet hc, quiet, makeRoom_full mem h hfull]
    cases Vector.reserve mem (grown vec.cap) (h, vec) <;> rfl
  · rw [pushBack_room hfull, writeEnd_quiet ha]
    simp only [quiet, bind, EStateM.bind, makeRoom_room mem h hfull]

end Push

end Outcomes

/-! ## What is left of the vector -/

section Remains

variable {c : Copies α} {mem : Memory} {h h' h1 : BlockHeap α} {vec vec' vec1 other : Vec} {newCap : Int32} {P : Prop}

/-- A vector that can be used: its block has the slots, and its elements are objects. -/
structure Valid (h : BlockHeap α) (vec : Vec) : Prop where
  sound : Sound h vec
  objects : ∀ i < rounds vec.sz, (content h vec i).constructed = true

/-- The vector after the call is valid, and has the elements it had before. -/
structure Keeps (h : BlockHeap α) (vec : Vec) (h' : BlockHeap α) (vec' : Vec) : Prop where
  valid : Valid h' vec'
  size : vec'.sz = vec.sz
  same : ∀ i < rounds vec.sz, (content h' vec' i).value = (content h vec i).value

/-- From `h` to `h'` the blocks of the other vectors stay; the vector itself is kept, with no access out of a block,
exactly if `P`. -/
structure Leaves (h : BlockHeap α) (vec : Vec) (h' : BlockHeap α) (vec' : Vec) (P : Prop) : Prop where
  others : ∀ b < h.next, vec.elem ≠ some b → h'.block b = h.block b
  own : ∀ b, vec'.elem = some b → vec.elem = some b ∨ h.next ≤ b
  keeps : Keeps h vec h' vec' ∧ h'.strays = h.strays ↔ P

theorem Keeps.refl (hv : Valid h vec) : Keeps h vec h vec := ⟨hv, rfl, fun _ _ => rfl⟩

/-- A write to slot `i` behind a vector's pointer, wherever that goes. -/
theorem assign_frame [ImplicitLifetime α] (h : BlockHeap α) (vec : Vec) (i : ℕ) (x : Option α) :
    (∀ b, vec.elem ≠ some b → (h.assign vec.elem i x).block b = h.block b) ∧
      (∀ j, (content (h.assign vec.elem i x) vec j).constructed = (content h vec j).constructed) ∧
      (∀ j ≠ i, content (h.assign vec.elem i x) vec j = content h vec j) ∧
      (Sound h vec → Sound (h.assign vec.elem i x) vec) := by
  rcases h.block_assign vec.elem i x with hsame | ⟨b, blk, he, hb, hnew⟩
  · have hown : ∀ b, vec.elem = some b → (h.assign vec.elem i x).block b = h.block b := fun b _ => by rw [hsame]
    have hc := content_congr hown
    exact ⟨fun b _ => by rw [hsame], fun j => by rw [hc], fun j _ => by rw [hc], fun hs => hs.congr hown⟩
  · have hself := congrFun hnew b
    rw [Function.update_self] at hself
    have hc := content_of_block he hself
    refine ⟨?_, ?_, ?_, ?_⟩
    · intro b' hne
      rw [hnew, Function.update_of_ne]
      rintro rfl
      exact hne he
    · intro j
      rw [hc, content_of_block he hb]
      dsimp only
      by_cases hj : j = i
      · rw [hj, Function.update_self]
        rfl
      · rw [Function.update_of_ne hj]
    · intro j hj
      rw [hc, content_of_block he hb]
      dsimp only
      rw [Function.update_of_ne hj]
    · intro hs
      refine ⟨hs.nonneg, hs.le, hs.null, ?_⟩
      intro b' he'
      rw [he] at he'
      cases he'
      obtain ⟨blk', hb', hsize⟩ := hs.block b he
      rw [hb] at hb'
      cases hb'
      exact ⟨_, hself, hsize⟩

/-- **A write behind the last element** does not touch the elements; it may go astray. -/
theorem Leaves.assign [ImplicitLifetime α] (hl : Leaves h vec h1 vec1 P) (hk : Keeps h vec h1 vec1)
    (hblock : h'.block = h1.block)
    (x : Option α) : Leaves h vec (h'.assign vec1.elem (rounds vec1.sz) x) vec1
      ((h'.assign vec1.elem (rounds vec1.sz) x).strays = h.strays) := by
  obtain ⟨hothers, hcon, hslots, hsound⟩ := assign_frame h' vec1 (rounds vec1.sz) x
  have hown : ∀ b, vec1.elem = some b → h'.block b = h1.block b := fun b _ => by rw [hblock]
  have hc : content h' vec1 = content h1 vec1 := content_congr hown
  refine ⟨?_, hl.own, and_iff_right ⟨⟨hsound (hk.valid.sound.congr hown), ?_⟩, hk.size, ?_⟩⟩
  · intro b hlt hne
    have hne1 : vec1.elem ≠ some b := by
      intro he
      rcases hl.own b he with hold | hge
      · exact hne hold
      · omega
    rw [hothers b hne1, hblock, hl.others b hlt hne]
  · intro i hi
    rw [hcon, hc]
    exact hk.valid.objects i hi
  · intro i hi
    rw [hslots i (by rw [hk.size]; omega), hc]
    exact hk.same i hi

theorem Leaves.congr {Q : Prop} (hl : Leaves h vec h' vec' P) (hPQ : P ↔ Q) : Leaves h vec h' vec' Q :=
  ⟨hl.others, hl.own, hl.keeps.trans hPQ⟩

end Remains

/-! ## Growth -/

section Growth

variable {c : Copies α} {mem : Memory} {h h' : BlockHeap α} {vec vec' : Vec} {newCap : Int32} {i : ℕ} {e : Thrown}

section Push

variable [ImplicitLifetime α] {value : BlockHeap α → Option α × BlockHeap α} {P : Prop}

end Push

end Growth

/-! ## Copies of another vector -/

section Copying

variable {c : Copies α} {mem : Memory} {h h' : BlockHeap α} {vec vec' other : Vec} {e : Thrown}

end Copying

/-! ## Calls in a program -/

section Programs

variable {c : Copies α} {mem : Memory} {s s' : State α} {v : ℕ} {vec vec' : Vec} {h' : BlockHeap α} {e : Thrown}
  {call : CopyM α Unit}

/-- What a throw should leave: the target is a valid vector with the elements it had, or still none, every other vector
is as it was, and no access went out of a block or into one that was given back. -/
structure Safe (s : State α) (v : ℕ) (s' : State α) : Prop where
  target : ∀ vec, s.vecs v = some vec → ∃ vec', s'.vecs v = some vec' ∧ Keeps s.heap vec s'.heap vec'
  unborn : s.vecs v = none → s'.vecs v = none
  others : ∀ u ≠ v, s'.vecs u = s.vecs u ∧ ∀ b, (s.vecAt u).elem = some b → s'.heap.block b = s.heap.block b
  inside : s'.heap.strays = s.heap.strays

/-- No copy throws, but the assignment of `push_back` does. -/
def assignThrows : Copies ℕ := ⟨fun _ => false, true, none⟩

end Programs

/-! ## Calls whose copies all return -/

section Quiet

variable {c : Copies α} {mem : Memory} {s : State α} {v : ℕ} {call : CopyM α Unit} {plain : VecM α Unit}

/-- The call in the plain model. -/
def CopyOp.toOp : CopyOp α → Op α
  | .copy v other => .copy v other
  | .copyAssign v other => .copyAssign v other
  | .pushBack v value => .pushBack v value
  | .pushBackOwn v i => .pushBackOwn v i
  | .reserve v newCap => .reserve v newCap

theorem tryCreate_quiet (hcall : call (s.heap, .empty) = quiet plain (s.heap, .empty)) :
    (tryCreate s v call).2 = (create s v plain).2 := by
  unfold tryCreate create
  rw [hcall]
  unfold quiet
  cases s.vecs v with
  | some _ => rfl
  | none => cases plain (s.heap, .empty) <;> rfl

theorem tryOn_quiet (hcall : ∀ vec, s.vecs v = some vec → call (s.heap, vec) = quiet plain (s.heap, vec)) :
    (tryOn s v call).2 = (callOn s v (noAnswer plain)).2 := by
  unfold tryOn callOn
  cases hv : s.vecs v with
  | none => rfl
  | some vec =>
    dsimp only
    rw [hcall vec hv]
    simp only [quiet, noAnswer, bind, EStateM.bind]
    cases plain (s.heap, vec) <;> rfl

/-- **Where no copy throws** the calls are those of the plain vector. -/
theorem attempt_quiet [Inhabited α] [ImplicitLifetime α] (op : CopyOp α) (hc : ∀ i, c.copyThrows i = false)
    (ha : c.assignThrows = false) :
    (attempt c mem s op).2 = (step mem s op.toOp).2 := by
  cases op with
  | copy v other =>
    simp only [attempt, step, CopyOp.toOp]
    cases s.vecs other with
    | none => rfl
    | some o => exact tryCreate_quiet (Throwing.copy_quiet fun i _ => hc i)
  | copyAssign v other =>
    simp only [attempt, step, CopyOp.toOp]
    cases s.vecs other with
    | none => rfl
    | some o =>
      dsimp only
      split_ifs
      · rfl
      · exact tryOn_quiet fun vec _ => Throwing.copyAssign_quiet fun i _ => hc i
  | pushBack v x => exact tryOn_quiet fun vec _ => Throwing.pushBack_quiet (fun i _ => hc i) ha
  | pushBackOwn v i =>
    simp only [attempt, step, CopyOp.toOp]
    cases s.vecs v with
    | none => rfl
    | some w =>
      dsimp only
      split_ifs
      · exact tryOn_quiet fun vec _ => Throwing.pushBack_quiet (fun i _ => hc i) ha
      · rfl
  | reserve v newCap => exact tryOn_quiet fun vec _ => Throwing.reserve_quiet fun i _ => hc i

end Quiet

end Journey.Containers
