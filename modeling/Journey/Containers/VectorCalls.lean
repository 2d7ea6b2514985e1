import Journey.Containers.Vector
import Journey.Lib.Machine

/-!
# Journey.Containers.VectorCalls — what the member functions of a vector do

One lemma for each member function and each way it can end: the answer, the slots of the vector, and
`Moves`, which says that the blocks of the other vectors are as before.  Then the same for a program with
many vectors (`Owned`): no two of them share a block.
-/

namespace Journey.Containers

variable {α : Type} {h : BlockHeap α} {vec other : Vec} {mem : Memory}

/-! ## Growth -/

section Growth

variable {newCap : Int32}

theorem reserve_small (hle : newCap ≤ vec.cap) : Vector.reserve mem newCap (h, vec) = .ok () (h, vec) := by
  show (if newCap ≤ vec.cap then _ else _ : VecM α Unit) (h, vec) = _
  rw [if_pos hle]
  rfl

theorem reserve_fails (hgt : ¬ newCap ≤ vec.cap) (hg : ¬ Grants mem (toSize newCap)) :
    Vector.reserve mem newCap (h, vec) = .error .badAlloc (h, vec) := by
  show (if newCap ≤ vec.cap then _ else _ : VecM α Unit) (h, vec) = _
  rw [if_neg hgt]
  simp only [bind, EStateM.bind, allocate_of_not_grants hg]

theorem reserve_eq (hgt : ¬ newCap ≤ vec.cap) (hg : Grants mem (toSize newCap)) :
    Vector.reserve mem newCap (h, vec) =
      .ok () (freeBlock (times (rounds vec.sz)
          (fun i h' => (h'.copySlot (pointer h (toSize newCap)) vec.elem i).destroy vec.elem i)
          (allocated h (toSize newCap))) vec,
        { vec with elem := pointer h (toSize newCap), cap := newCap }) := by
  show (if newCap ≤ vec.cap then _ else _ : VecM α Unit) (h, vec) = _
  rw [if_neg hgt]
  simp only [bind, EStateM.bind, allocate_of_grants hg]
  rfl

/-- The heap after the elements of block `b` were moved to a new block. -/
theorem becomes_regrow {b n : ℕ} {blk : Block α} (hf : Fresh h) (hs : Sound h vec) (he : vec.elem = some b)
    (hb : h.block b = some blk) (hn : rounds vec.sz ≤ n) :
    Becomes (h.alloc n).2
      (freeBlock (times (rounds vec.sz)
        (fun i h' => (h'.copySlot (some h.next) vec.elem i).destroy vec.elem i) (h.alloc n).2) vec)
      (Function.update (Function.update h.block h.next (some ((BlockHeap.rawBlock n).upTo (rounds vec.sz)
        fun i => ⟨true, (content h vec i).value⟩))) b none)
      (Neat h vec) := by
  obtain ⟨blk', hb', hsize, hpos⟩ := hs.block b he
  rw [hb] at hb'
  cases hb'
  have hle := hs.rounds_le
  have hcontent := content_of_block he hb
  have hlt := hs.lt_next hf he
  have hb1 : (h.alloc n).2.block b = some blk := (Function.update_of_ne (by omega) ..).trans hb
  unfold freeBlock
  rw [he]
  have hmove := becomes_moveAll (by omega) (block_alloc h n) hb1 hn (show rounds vec.sz ≤ blk.size by omega)
  have hfree := BlockHeap.becomes_free (n := toSize vec.cap)
    (show (times (rounds vec.sz) (fun i h' => (h'.copySlot (some h.next) (some b) i).destroy (some b) i)
        (h.alloc n).2).block b = _ by rw [hmove.block, Function.update_self])
  refine (hmove.trans hfree).weaken ?_ ?_
  · rw [hmove.block, Function.update_idem, hcontent]
    congr 1
    exact Function.update_idem ..
  · intro hneat
    have hcon : ∀ i, (blk.slot i).constructed = decide (i < rounds vec.sz) := by
      intro i
      rw [← hcontent]
      exact hneat i
    refine ⟨fun i hi => ⟨by rw [hcon i, decide_eq_true hi], rfl⟩, ?_, ?_⟩
    · rw [Block.size_upTo, hsize, rounds_eq_toSize (by omega)]
    · intro i _
      rw [Block.slot_upTo]
      split_ifs with hi
      · rfl
      · rw [hcon i, decide_eq_false hi]

/-- **`reserve`** beyond the capacity moves the elements into a larger block. -/
theorem reserve_grows (hf : Fresh h) (hs : Sound h vec) (hgt : ¬ newCap ≤ vec.cap)
    (hg : Grants mem (toSize newCap)) :
    ∃ h', Vector.reserve mem newCap (h, vec) = .ok () (h', { vec with elem := some h.next, cap := newCap }) ∧
      Sound h' { vec with elem := some h.next, cap := newCap } ∧
      content h' { vec with elem := some h.next, cap := newCap } =
        (fun i => if i < rounds vec.sz then ⟨true, (content h vec i).value⟩ else .raw) ∧
      Moves h vec h' { vec with elem := some h.next, cap := newCap } ∧ (Neat h vec → h'.faults = h.faults) := by
  have h0 := hs.nonneg
  have hle := hs.le
  have hgt' : vec.cap.toInt < newCap.toInt := by
    rw [Int32.not_le, Int32.lt_iff_toInt_lt] at hgt
    exact hgt
  have hsize : toSize newCap = rounds newCap := rounds_eq_toSize (by omega)
  have hpos : rounds newCap ≠ 0 := by
    unfold rounds
    omega
  have hp : pointer h (rounds newCap) = some h.next := if_neg hpos
  have ha : allocated h (rounds newCap) = (h.alloc (rounds newCap)).2 := if_neg hpos
  have heq := reserve_eq (h := h) hgt hg
  rw [hsize, hp, ha] at heq
  refine ⟨_, heq, ?_⟩
  cases he : vec.elem with
  | none =>
    have hnull := hs.rounds_null he
    have hbuilt := built_fill hf (Nat.zero_le (rounds newCap)) (fun _ => (none : Option α))
    rw [hnull.1, block_freeBlock_null he]
    rw [ha] at hbuilt
    obtain ⟨hsound, hcontent, hmoves⟩ := hbuilt.vector vec vec.sz hf h0 (by omega) he
    rw [hp] at hsound hcontent hmoves
    exact ⟨hsound, hcontent, hmoves, fun _ => hbuilt.faults trivial⟩
  | some b =>
    obtain ⟨blk, hb, -, -⟩ := hs.block b he
    have hlt := hs.lt_next hf he
    have hreg := becomes_regrow hf hs he hb (n := rounds newCap) (by unfold rounds; omega)
    rw [he] at hreg
    set nb := (BlockHeap.rawBlock (rounds newCap)).upTo (rounds vec.sz)
      fun i => (⟨true, (content h vec i).value⟩ : Slot α) with hnb
    set h' := freeBlock (times (rounds vec.sz)
      (fun i h' => (h'.copySlot (some h.next) (some b) i).destroy (some b) i) (h.alloc (rounds newCap)).2) vec
    have hnext : h'.next = h.next + 1 := hreg.next
    have hnew : h'.block h.next = some nb := by
      rw [hreg.block, Function.update_of_ne (by omega), Function.update_self]
    have hold : h'.block b = none := by
      rw [hreg.block, Function.update_self]
    have hrest : ∀ b', b' ≠ b → b' ≠ h.next → h'.block b' = h.block b' := by
      intro b' hne hne'
      rw [hreg.block, Function.update_of_ne hne, Function.update_of_ne hne']
    refine ⟨⟨h0, by show vec.sz.toInt ≤ newCap.toInt; omega, (fun hn => by cases hn), ?_⟩, content_of_block rfl hnew,
      ⟨?_, by omega, ?_, ?_, ?_, hreg.stray⟩, hreg.faults⟩
    · intro b' hb'
      cases hb'
      exact ⟨nb, hnew, rfl, by show 0 < newCap.toInt; omega⟩
    · intro b' hge
      rw [hrest b' (by omega) (by omega)]
      exact hf b' (by omega)
    · intro b' hlt' hne
      refine hrest b' ?_ (by omega)
      rintro rfl
      exact hne he
    · intro b' hb'
      cases hb'
      exact .inr (le_refl _)
    · intro b' hlive
      by_cases hn : b' = h.next
      · exact .inl (by rw [hn])
      · have hne : b' ≠ b := by
          rintro rfl
          exact hlive hold
        rw [hrest b' hne hn] at hlive
        refine .inr ⟨?_, ?_, hlive⟩
        · by_contra hge
          exact hlive (hf b' (by omega))
        · rw [he]
          exact fun heq => hne (Option.some.inj heq).symm

end Growth

/-! ## Constructors and assignments -/

section Constructors

variable {n : ℕ}

theorem default_eq (mem : Memory) : Vector.default mem (h, vec) = .ok () (h, .empty) := by
  simp only [Vector.default, bind, EStateM.bind, allocate_of_grants (h := h) (n := 0) (.inl rfl)]
  rfl

/-- The slots of a vector that was filled with `f`. -/
def filled (n : ℕ) (f : ℕ → Option α) : ℕ → Slot α := fun i => if i < n then ⟨true, f i⟩ else .raw

/-- A constructor with a block of `cap` slots, all filled by its loop, has built a vector. -/
theorem built_vector {h' : BlockHeap α} {cap : Int32} {f : ℕ → Option α} {clean : Prop} (hf : Fresh h)
    (h0 : 0 ≤ cap.toInt) (hb : Built h h' (rounds cap) (filled (rounds cap) f) clean) :
    Sound h' ⟨pointer h (rounds cap), cap, cap⟩ ∧
      content h' ⟨pointer h (rounds cap), cap, cap⟩ = filled (rounds cap) f ∧
      Moves h .empty h' ⟨pointer h (rounds cap), cap, cap⟩ ∧ (clean → h'.faults = h.faults) := by
  obtain ⟨hsound, hcontent, hmoves⟩ := hb.vector .empty cap hf h0 (Int.le_refl _) rfl
  exact ⟨hsound, hcontent, hmoves, hb.faults⟩

theorem sized_negative [Inhabited α] {sz : Int32} (hneg : sz < 0) :
    Vector.sized mem sz (h, vec) = .error .lengthError (h, vec) := by
  unfold Vector.sized
  rw [if_pos hneg]
  rfl

theorem sized_fails [Inhabited α] {sz : Int32} (h0 : ¬ sz < 0) (hg : ¬ Grants mem (toSize sz)) :
    Vector.sized mem sz (h, vec) = .error .badAlloc (h, vec) := by
  unfold Vector.sized
  rw [if_neg h0]
  simp only [bind, EStateM.bind, allocate_of_not_grants hg]

/-- **`Vector(int)`** builds a vector of default values. -/
theorem sized_builds [Inhabited α] {sz : Int32} (vec : Vec) (hf : Fresh h) (h0 : ¬ sz < 0) (hg : Grants mem (toSize sz)) :
    ∃ h' vec', Vector.sized mem sz (h, vec) = .ok () (h', vec') ∧ vec'.sz = sz ∧ vec'.cap = sz ∧ Sound h' vec' ∧
      content h' vec' = filled (rounds sz) (fun _ => some (default : α)) ∧ Moves h .empty h' vec' ∧
      h'.faults = h.faults := by
  have h0' : 0 ≤ sz.toInt := by
    rw [Int32.not_lt, Int32.le_iff_toInt_le] at h0
    exact h0
  have hbuilt := built_fill hf (le_refl (rounds sz)) (fun _ => some (default : α))
  obtain ⟨hsound, hcontent, hmoves, hfaults⟩ := built_vector hf h0' hbuilt
  refine ⟨_, _, ?_, rfl, rfl, hsound, hcontent, hmoves, hfaults trivial⟩
  rw [rounds_eq_toSize h0'] at hg
  unfold Vector.sized
  rw [if_neg h0]
  simp only [bind, EStateM.bind, rounds_eq_toSize h0', allocate_of_grants hg]
  rfl

theorem ofList_fails {lst : List α} (hg : ¬ Grants mem (toSize (Int32.ofNat lst.length))) :
    Vector.ofList mem lst (h, vec) = .error .badAlloc (h, vec) := by
  unfold Vector.ofList
  simp only [bind, EStateM.bind, allocate_of_not_grants hg]

/-- **`Vector(std::initializer_list)`** builds a vector of the list, if its length is an `int`. -/
theorem ofList_builds {lst : List α} (vec : Vec) (hf : Fresh h) (hlen : lst.length < 2 ^ 31)
    (hg : Grants mem (toSize (Int32.ofNat lst.length))) :
    ∃ h' vec', Vector.ofList mem lst (h, vec) = .ok () (h', vec') ∧ vec'.sz.toInt = lst.length ∧
      vec'.cap = vec'.sz ∧ Sound h' vec' ∧ content h' vec' = filled lst.length (fun i => lst[i]?) ∧
      Moves h .empty h' vec' ∧ h'.faults = h.faults := by
  have hint : (Int32.ofNat lst.length).toInt = lst.length := Int32.toInt_ofNat_of_lt hlen
  have h0 : 0 ≤ (Int32.ofNat lst.length).toInt := by omega
  have hrounds : rounds (Int32.ofNat lst.length) = lst.length := by
    unfold rounds
    omega
  have hbuilt := built_fill hf (le_refl lst.length) (fun i => lst[i]?)
  have hbuilt' := hbuilt
  rw [← hrounds] at hbuilt'
  obtain ⟨hsound, hcontent, hmoves, hfaults⟩ := built_vector hf h0 hbuilt'
  rw [hrounds] at hsound hcontent hmoves hfaults
  refine ⟨_, _, ?_, ?_, ?_, hsound, hcontent, hmoves, hfaults trivial⟩
  · rw [rounds_eq_toSize h0, hrounds] at hg
    unfold Vector.ofList
    simp only [bind, EStateM.bind, rounds_eq_toSize h0, hrounds, allocate_of_grants hg]
    rfl
  · exact hint
  · rfl

theorem copy_fails (hg : ¬ Grants mem (toSize other.sz)) :
    Vector.copy mem other (h, vec) = .error .badAlloc (h, vec) := by
  unfold Vector.copy
  simp only [bind, EStateM.bind, allocate_of_not_grants hg]

/-- **`Vector(const Vector &)`** builds a vector of copies. -/
theorem copy_builds (vec : Vec) (hf : Fresh h) (ho : Sound h other) (hg : Grants mem (toSize other.sz)) :
    ∃ h' vec', Vector.copy mem other (h, vec) = .ok () (h', vec') ∧ vec'.sz = other.sz ∧ vec'.cap = other.sz ∧
      Sound h' vec' ∧ content h' vec' = filled (rounds other.sz) (fun i => (content h other i).value) ∧
      Moves h .empty h' vec' ∧ (Neat h other → h'.faults = h.faults) := by
  have hbuilt := built_copy hf ho (le_refl (rounds other.sz)) (le_refl _)
  obtain ⟨hsound, hcontent, hmoves, hfaults⟩ := built_vector hf ho.nonneg hbuilt
  refine ⟨_, ⟨pointer h (rounds other.sz), other.sz, other.sz⟩, ?_, rfl, rfl, hsound, hcontent, hmoves, hfaults⟩
  rw [rounds_eq_toSize ho.nonneg] at hg
  unfold Vector.copy
  simp only [bind, EStateM.bind, rounds_eq_toSize ho.nonneg, allocate_of_grants hg]
  rfl

theorem copyAssign_fails (hg : ¬ Grants mem (toSize other.cap)) :
    Vector.copyAssign mem other (h, vec) =
      .error .badAlloc (releaseHeap h vec, { vec with sz := other.sz, cap := other.cap }) := by
  have hfail : allocate mem (toSize other.cap) (releaseHeap h vec, { vec with sz := other.sz, cap := other.cap }) =
      .error .badAlloc (releaseHeap h vec, { vec with sz := other.sz, cap := other.cap }) :=
    allocate_of_not_grants hg
  unfold Vector.copyAssign
  simp only [bind, EStateM.bind, release, modify, modifyGet, MonadStateOf.modifyGet, stateM_modifyGet, get, getThe,
    MonadStateOf.get, stateM_get, setVec, hfail]

/-- Another vector after the elements and the block of `vec` were given back. -/
theorem release_other (hs : Sound h vec) (ho : Sound h other) (hne : ∀ b, vec.elem = some b → other.elem ≠ some b) :
    Sound (releaseHeap h vec) other ∧ content (releaseHeap h vec) other = content h other := by
  have hkeep : ∀ b, other.elem = some b → (releaseHeap h vec).block b = h.block b := by
    intro b he
    rw [(becomes_release hs).block]
    exact dropBlock_of_ne fun hv => hne b hv he
  exact ⟨ho.congr hkeep, content_congr hkeep⟩

/-- **`operator=(const Vector &)`** gives the old block back and builds a vector of copies. -/
theorem copyAssign_builds (hf : Fresh h) (hs : Sound h vec) (ho : Sound h other)
    (hne : ∀ b, vec.elem = some b → other.elem ≠ some b) (hg : Grants mem (toSize other.cap)) :
    ∃ h' vec', Vector.copyAssign mem other (h, vec) = .ok () (h', vec') ∧ vec'.sz = other.sz ∧
      vec'.cap = other.cap ∧ Sound h' vec' ∧
      content h' vec' = filled (rounds other.sz) (fun i => (content h other i).value) ∧ Moves h vec h' vec' ∧
      (Neat h vec → Neat h other → h'.faults = h.faults) := by
  have hrel := becomes_release hs
  -- the other vector's block is still there
  obtain ⟨ho1, hc1⟩ := release_other hs ho hne
  set h1 := releaseHeap h vec with hh1
  have hf1 : Fresh h1 := (Moves.release hf hrel).fresh
  have hcap : 0 ≤ other.cap.toInt := by
    have h0 := ho.nonneg
    have hle := ho.le
    omega
  have hbuilt := built_copy hf1 ho1 (le_refl _) ho1.rounds_le
  rw [hc1] at hbuilt
  obtain ⟨hsound, hcontent, hmoves⟩ := hbuilt.vector .empty other.sz hf1 ho.nonneg ho.le rfl
  refine ⟨_, ⟨pointer h1 (rounds other.cap), other.sz, other.cap⟩, ?_, rfl, rfl, hsound, hcontent,
    Moves.of_release hrel hmoves, ?_⟩
  · rw [rounds_eq_toSize hcap] at hg
    have hok : ∀ v : Vec, allocate mem (rounds other.cap) (h1, v) =
        .ok (pointer h1 (rounds other.cap)) (allocated h1 (rounds other.cap), v) := fun v => allocate_of_grants hg
    unfold Vector.copyAssign
    simp only [bind, EStateM.bind, release, modify, modifyGet, MonadStateOf.modifyGet, stateM_modifyGet, get, getThe,
      MonadStateOf.get, stateM_get, setVec, modifyHeap, ← hh1, rounds_eq_toSize hcap, hok]
  · intro hneat hneat'
    have hneat1 : Neat h1 other := by
      unfold Neat
      rw [hc1]
      exact hneat'
    rw [hbuilt.faults hneat1, hrel.faults hneat]

end Constructors

/-! ## `push_back`, `operator[]` -/

section Elements

variable {i : Int32}

/-- The capacity `push_back` asks for when the vector is full. -/
def grown (cap : Int32) : Int32 := if cap = 0 then 1 else cap * 2

/-- **Doubling a capacity** modulo `2 ^ 32` makes it larger exactly in two ranges. -/
theorem lt_grown_iff (cap : Int32) :
    cap.toInt < (grown cap).toInt ↔ 0 ≤ cap.toInt ∧ cap.toInt < 2 ^ 30 ∨ cap.toInt < -2 ^ 30 := by
  have hlo := cap.le_toInt
  have hhi := cap.toInt_lt
  unfold grown
  by_cases hz : cap = 0
  · rw [if_pos hz, hz]
    decide
  · have hne : cap.toInt ≠ 0 := fun h => hz (Int32.toInt_inj.mp h)
    rw [if_neg hz, Int32.toInt_mul, show (2 : Int32).toInt = 2 from rfl, Int.bmod_def]
    split_ifs <;> omega

/-- `push_back` on a full vector that gets no larger block changes nothing. -/
theorem pushBack_fails [ImplicitLifetime α] {value : BlockHeap α → Option α × BlockHeap α} (hfull : vec.sz = vec.cap)
    (hgt : ¬ grown vec.cap ≤ vec.cap) (hg : ¬ Grants mem (toSize (grown vec.cap))) :
    Vector.pushBack mem value (h, vec) = .error .badAlloc (h, vec) := by
  have hres : Vector.reserve mem (if vec.cap = 0 then 1 else vec.cap * 2) (h, vec) = .error .badAlloc (h, vec) :=
    reserve_fails hgt hg
  simp only [Vector.pushBack, bind, EStateM.bind, get, getThe, MonadStateOf.get, stateM_get, if_pos hfull, hres]

theorem pushBack_room [ImplicitLifetime α] {x : α} (hroom : vec.sz ≠ vec.cap) :
    Vector.pushBack mem (fun h => (some x, h)) (h, vec) =
      .ok () (h.assign vec.elem (rounds vec.sz) (some x), { vec with sz := vec.sz + 1 }) := by
  simp only [Vector.pushBack, bind, EStateM.bind, get, getThe, MonadStateOf.get, stateM_get, if_neg hroom]
  rfl

theorem pushBack_full [ImplicitLifetime α] {x : α} {h' : BlockHeap α} {vec' : Vec} (hfull : vec.sz = vec.cap)
    (hres : Vector.reserve mem (grown vec.cap) (h, vec) = .ok () (h', vec')) :
    Vector.pushBack mem (fun h => (some x, h)) (h, vec) =
      .ok () (h'.assign vec'.elem (rounds vec'.sz) (some x), { vec' with sz := vec'.sz + 1 }) := by
  have hres' : Vector.reserve mem (if vec.cap = 0 then 1 else vec.cap * 2) (h, vec) = .ok () (h', vec') := hres
  simp only [Vector.pushBack, bind, EStateM.bind, get, getThe, MonadStateOf.get, stateM_get, if_pos hfull, hres']
  rfl

/-- A size below a capacity can be counted up. -/
theorem toInt_succ {sz cap : Int32} (hroom : sz.toInt < cap.toInt) : (sz + 1).toInt = sz.toInt + 1 := by
  have hlo := sz.le_toInt
  have hhi := cap.toInt_lt
  rw [Int32.toInt_add, Int32.toInt_one, Int.bmod_eq_of_le (by omega) (by omega)]

/-- The assignment behind the last element. -/
theorem assign_end [ImplicitLifetime α] (x : Option α) (hf : Fresh h) (hs : Sound h vec)
    (hroom : vec.sz.toInt < vec.cap.toInt) :
    Sound (h.assign vec.elem (rounds vec.sz) x) { vec with sz := vec.sz + 1 } ∧
      (∀ i, content (h.assign vec.elem (rounds vec.sz) x) { vec with sz := vec.sz + 1 } i =
        if i = rounds vec.sz then (content h vec i).assigned x else content h vec i) ∧
      Moves h vec (h.assign vec.elem (rounds vec.sz) x) { vec with sz := vec.sz + 1 } := by
  have h0 := hs.nonneg
  have hsucc := toInt_succ hroom
  cases he : vec.elem with
  | none =>
    have hnull := hs.null he
    omega
  | some b =>
    obtain ⟨blk, hb, hsize, hpos⟩ := hs.block b he
    have hlt := hs.lt_next hf he
    have hin : rounds vec.sz < blk.size := by
      rw [hsize]
      unfold rounds
      omega
    have hassign := BlockHeap.becomes_assign x hb hin
    set h' := h.assign (some b) (rounds vec.sz) x
    have hother : ∀ b', b' ≠ b → h'.block b' = h.block b' := by
      intro b' hne
      rw [hassign.block, Function.update_of_ne hne]
    have hnew := congrFun hassign.block b
    rw [Function.update_self] at hnew
    refine ⟨⟨?_, ?_, (fun hn => by cases hn), ?_⟩, ?_, ⟨?_, by rw [hassign.next], ?_, ?_, ?_, hassign.stray⟩⟩
    · show 0 ≤ (vec.sz + 1).toInt
      omega
    · show (vec.sz + 1).toInt ≤ vec.cap.toInt
      omega
    · intro b' hb'
      cases hb'
      exact ⟨_, hnew, hsize, hpos⟩
    · intro i
      rw [content_of_block rfl hnew, content_of_block he hb]
      dsimp only
      by_cases hi : i = rounds vec.sz
      · rw [if_pos hi, hi, Function.update_self]
      · rw [if_neg hi, Function.update_of_ne hi]
    · intro b' hge
      rw [hassign.next] at hge
      rw [hother b' (by omega)]
      exact hf b' hge
    · intro b' _ hne
      refine hother b' ?_
      rintro rfl
      exact hne he
    · intro b' hb'
      cases hb'
      exact .inl he
    · intro b' hlive
      by_cases hbb : b' = b
      · exact .inl (by rw [hbb])
      · rw [hother b' hbb] at hlive
        refine .inr ⟨?_, ?_, hlive⟩
        · by_contra hge
          exact hlive (hf b' (by omega))
        · rw [he]
          exact fun heq => hbb (Option.some.inj heq).symm

theorem index_throws (hout : i < 0 ∨ vec.sz ≤ i) :
    Vector.index i (h, vec) = .error .outOfRange (h, vec) := by
  show (if i < 0 ∨ vec.sz ≤ i then _ else _ : VecM α (Option α)) (h, vec) = _
  rw [if_pos hout]
  rfl

/-- Reading an element. -/
theorem read_element {i : ℕ} (hs : Sound h vec) (hi : i < rounds vec.sz) :
    (h.read vec.elem i).1 = (content h vec i).value ∧
      Becomes h (h.read vec.elem i).2 h.block ((content h vec i).constructed = true) := by
  cases he : vec.elem with
  | none =>
    have hnull := (hs.rounds_null he).1
    omega
  | some b =>
    obtain ⟨blk, hb, hsize, -⟩ := hs.block b he
    have hle := hs.rounds_le
    rw [content_of_block he hb]
    exact BlockHeap.read_eq hb (by omega)

/-- **`operator[]`** inside the vector is the element. -/
theorem index_reads (hs : Sound h vec) (hin : ¬ (i < 0 ∨ vec.sz ≤ i)) :
    ∃ h', Vector.index i (h, vec) = .ok (content h vec (rounds i)).value (h', vec) ∧
      Becomes h h' h.block (Neat h vec) := by
  obtain ⟨hneg, hge⟩ := not_or.mp hin
  rw [Int32.not_lt, Int32.le_iff_toInt_le, Int32.toInt_zero] at hneg
  rw [Int32.not_le, Int32.lt_iff_toInt_lt] at hge
  have hlt : rounds i < rounds vec.sz := by
    unfold rounds
    omega
  have heq : Vector.index i (h, vec) =
      .ok (h.read vec.elem (rounds i)).1 ((h.read vec.elem (rounds i)).2, vec) := by
    show (if i < 0 ∨ vec.sz ≤ i then _ else _ : VecM α (Option α)) (h, vec) = _
    rw [if_neg hin]
    rfl
  obtain ⟨hval, hread⟩ := read_element hs hlt
  rw [hval] at heq
  refine ⟨_, heq, hread.weaken rfl fun hneat => ?_⟩
  rw [hneat (rounds i), decide_eq_true hlt]

/-- One change of a vector after another. -/
theorem Moves.trans {h' h'' : BlockHeap α} {vec' vec'' : Vec} (hm : Moves h vec h' vec')
    (hm' : Moves h' vec' h'' vec'') : Moves h vec h'' vec'' := by
  have hle := hm.next_le
  have hle' := hm'.next_le
  refine ⟨hm'.fresh, by omega, ?_, ?_, ?_, hm'.stray.trans hm.stray⟩
  · intro b hlt hne
    have hown : vec'.elem ≠ some b := by
      intro he
      rcases hm.own b he with hold | hge
      · exact hne hold
      · omega
    rw [hm'.other b (by omega) hown, hm.other b hlt hne]
  · intro b he
    rcases hm'.own b he with hmid | hge
    · exact hm.own b hmid
    · exact .inr (by omega)
  · intro b hlive
    rcases hm'.kept b hlive with hown | ⟨-, hne, hmid⟩
    · exact .inl hown
    · rcases hm.kept b hmid with hown | hold
      · exact absurd hown hne
      · exact .inr hold

/-- Calls that only read. -/
theorem Moves.of_read {h' : BlockHeap α} {clean : Prop} (hf : Fresh h) (hb : Becomes h h' h.block clean) (vec : Vec) :
    Moves h vec h' vec := by
  refine ⟨?_, by rw [hb.next], fun b _ _ => by rw [hb.block], fun b he => .inl he, ?_, hb.stray⟩
  · intro b hge
    rw [hb.next] at hge
    rw [hb.block]
    exact hf b hge
  · intro b hlive
    rw [hb.block] at hlive
    by_cases he : vec.elem = some b
    · exact .inl he
    · refine .inr ⟨?_, he, hlive⟩
      by_contra hge
      exact hlive (hf b (by omega))

end Elements

/-! ## Many vectors -/

section Programs

variable {s : State α} {v v' : ℕ} {h' : BlockHeap α} {vec' w : Vec} {o : Option Vec}

/-- The vector of that number, without storage if it is not alive. -/
def State.vecAt (s : State α) (v : ℕ) : Vec := (s.vecs v).getD .empty

/-- Every vector fits its block, and no two of them share one. -/
structure Owned (s : State α) : Prop where
  fresh : Fresh s.heap
  sound : ∀ v, Sound s.heap (s.vecAt v)
  apart : ∀ v v' b, (s.vecAt v).elem = some b → (s.vecAt v').elem = some b → v = v'

theorem State.vecAt_of_alive (hv : s.vecs v = some vec) : s.vecAt v = vec := by
  unfold State.vecAt
  rw [hv]
  rfl

theorem State.vecAt_of_none (hv : s.vecs v = none) : s.vecAt v = .empty := by
  unfold State.vecAt
  rw [hv]
  rfl

theorem State.vecAt_update (s : State α) (v : ℕ) (h' : BlockHeap α) (o : Option Vec) :
    (⟨h', Function.update s.vecs v o⟩ : State α).vecAt = Function.update s.vecAt v (o.getD .empty) := by
  funext u
  by_cases hu : u = v
  · rw [hu, Function.update_self]
    unfold State.vecAt
    dsimp only
    rw [Function.update_self]
  · rw [Function.update_of_ne hu]
    unfold State.vecAt
    dsimp only
    rw [Function.update_of_ne hu]

theorem owned_init : Owned (State.init : State α) :=
  ⟨fun _ _ => rfl, fun _ => sound_empty _, fun _ _ _ he => by cases he⟩

/-- The block of a vector is one that was allocated. -/
theorem Owned.lt_next (ho : Owned s) {b : ℕ} (he : (s.vecAt v).elem = some b) : b < s.heap.next :=
  (ho.sound v).lt_next ho.fresh he

/-- **The other vectors do not see a call**: their blocks stay. -/
theorem Owned.others (ho : Owned s)
    (hother : ∀ b < s.heap.next, (s.vecAt v).elem ≠ some b → h'.block b = s.heap.block b) (hne : v' ≠ v) :
    ∀ b, (s.vecAt v').elem = some b → h'.block b = s.heap.block b := by
  intro b he
  exact hother b (ho.lt_next he) fun hv => hne (ho.apart v' v b he hv)

theorem Owned.apart_alive (ho : Owned s) (hv : s.vecs v = some vec) (hv' : s.vecs v' = some vec') (hne : v ≠ v') :
    ∀ b, vec.elem = some b → vec'.elem ≠ some b := by
  intro b hb hb'
  refine hne (ho.apart v v' b ?_ ?_)
  · rw [State.vecAt_of_alive hv, hb]
  · rw [State.vecAt_of_alive hv', hb']

theorem Owned.content_other (ho : Owned s)
    (hother : ∀ b < s.heap.next, (s.vecAt v).elem ≠ some b → h'.block b = s.heap.block b) (hne : v' ≠ v) :
    content h' (s.vecAt v') = content s.heap (s.vecAt v') :=
  content_congr (ho.others hother hne)

/-- **A call keeps the vectors apart.** -/
theorem Owned.update (ho : Owned s) (hm : Moves s.heap (s.vecAt v) h' (o.getD .empty))
    (hs : Sound h' (o.getD .empty)) : Owned ⟨h', Function.update s.vecs v o⟩ := by
  -- the new block of `v` belongs to no other vector
  have hnew : ∀ u b, u ≠ v → (o.getD .empty).elem = some b → (s.vecAt u).elem ≠ some b := by
    intro u b hu hb heu
    rcases hm.own b hb with hold | hge
    · exact hu (ho.apart u v b heu hold)
    · have hlt := ho.lt_next heu
      omega
  refine ⟨hm.fresh, ?_, ?_⟩
  · intro u
    rw [State.vecAt_update]
    by_cases hu : u = v
    · rw [hu, Function.update_self]
      exact hs
    · rw [Function.update_of_ne hu]
      exact (ho.sound u).congr (ho.others hm.other hu)
  · intro u u' b hb hb'
    rw [State.vecAt_update] at hb hb'
    by_cases hu : u = v
    · by_cases hu' : u' = v
      · rw [hu, hu']
      · rw [hu, Function.update_self] at hb
        rw [Function.update_of_ne hu'] at hb'
        exact absurd hb' (hnew u' b hu' hb)
    · rw [Function.update_of_ne hu] at hb
      by_cases hu' : u' = v
      · rw [hu', Function.update_self] at hb'
        exact absurd hb (hnew u b hu hb')
      · rw [Function.update_of_ne hu'] at hb'
        exact ho.apart u u' b hb hb'

/-- Handing the block of `v'` over to `v`, which has none. -/
theorem Owned.pass (ho : Owned s) (hne : v ≠ v') (hv : (s.vecAt v).elem = none) :
    Owned ⟨s.heap, Function.update (Function.update s.vecs v (some (s.vecAt v'))) v' (some .empty)⟩ := by
  have hvec : (⟨s.heap, Function.update (Function.update s.vecs v (some (s.vecAt v'))) v' (some .empty)⟩ : State α).vecAt =
      Function.update (Function.update s.vecAt v (s.vecAt v')) v' .empty := by
    rw [State.vecAt_update ⟨s.heap, Function.update s.vecs v (some (s.vecAt v'))⟩ v', State.vecAt_update]
    rfl
  -- the vector that a block belongs to afterwards
  have howner : ∀ u b, (Function.update (Function.update s.vecAt v (s.vecAt v')) v' .empty u).elem = some b →
      (u = v ∧ (s.vecAt v').elem = some b) ∨ (u ≠ v ∧ u ≠ v' ∧ (s.vecAt u).elem = some b) := by
    intro u b hb
    by_cases hu' : u = v'
    · rw [hu', Function.update_self] at hb
      cases hb
    · rw [Function.update_of_ne hu'] at hb
      by_cases hu : u = v
      · rw [hu, Function.update_self] at hb
        exact .inl ⟨hu, hb⟩
      · rw [Function.update_of_ne hu] at hb
        exact .inr ⟨hu, hu', hb⟩
  refine ⟨ho.fresh, ?_, ?_⟩
  · intro u
    rw [hvec]
    by_cases hu' : u = v'
    · rw [hu', Function.update_self]
      exact sound_empty _
    · rw [Function.update_of_ne hu']
      by_cases hu : u = v
      · rw [hu, Function.update_self]
        exact ho.sound v'
      · rw [Function.update_of_ne hu]
        exact ho.sound u
  · intro u u' b hb hb'
    rw [hvec] at hb hb'
    rcases howner u b hb with ⟨rfl, h1⟩ | ⟨hu, hu', h1⟩
    · rcases howner u' b hb' with ⟨rfl, h2⟩ | ⟨-, hv', h2⟩
      · rfl
      · exact absurd (ho.apart u' v' b h2 h1) hv'
    · rcases howner u' b hb' with ⟨rfl, h2⟩ | ⟨-, -, h2⟩
      · exact absurd (ho.apart u v' b h1 h2) hu'
      · exact ho.apart u u' b h1 h2

end Programs

/-! ## Calls in a program -/

section Calls

variable {s : State α} {v : ℕ} {h' : BlockHeap α} {vec' w : Vec} {e : VecError} {x : Option α}
  {call : VecM α Unit} {ask : VecM α (Option α)}

theorem create_taken (hv : s.vecs v = some vec) : create s v call = (.ok none, s) := by
  unfold create
  rw [hv]

theorem create_ok (hv : s.vecs v = none) (hc : call (s.heap, .empty) = .ok () (h', vec')) :
    create s v call = (.ok none, ⟨h', Function.update s.vecs v (some vec')⟩) := by
  unfold create
  rw [hv, hc]

theorem create_error (hv : s.vecs v = none) (hc : call (s.heap, .empty) = .error e (s.heap, w)) :
    create s v call = (.error e, s) := by
  unfold create
  rw [hv, hc]

theorem callOn_none (hv : s.vecs v = none) : callOn s v ask = (.ok none, s) := by
  unfold callOn
  rw [hv]

theorem callOn_ok (hv : s.vecs v = some vec) (hc : ask (s.heap, vec) = .ok x (h', vec')) :
    callOn s v ask = (.ok x, ⟨h', Function.update s.vecs v (some vec')⟩) := by
  unfold callOn
  rw [hv]
  dsimp only
  rw [hc]

/-- A call that throws before it has changed anything. -/
theorem callOn_error (hv : s.vecs v = some vec) (hc : ask (s.heap, vec) = .error e (s.heap, vec)) :
    callOn s v ask = (.error e, s) := by
  unfold callOn
  rw [hv]
  dsimp only
  rw [hc]
  dsimp only
  rw [← hv, Function.update_eq_self]

theorem noAnswer_ok (hc : call (h, vec) = .ok () (h', vec')) : noAnswer call (h, vec) = .ok none (h', vec') := by
  simp only [noAnswer, bind, EStateM.bind, hc]
  rfl

theorem noAnswer_error (hc : call (h, vec) = .error e (h', vec')) : noAnswer call (h, vec) = .error e (h', vec') := by
  simp only [noAnswer, bind, EStateM.bind, hc]

theorem callOn_moveAssign {other : Vec} (hv : s.vecs v = some vec) :
    callOn s v (noAnswer (Vector.moveAssign other)) =
      (.ok none, ⟨releaseHeap s.heap vec, Function.update s.vecs v (some other)⟩) :=
  callOn_ok hv (noAnswer_ok rfl)

theorem callOn_destroy (hv : s.vecs v = some vec) :
    callOn s v (noAnswer Vector.destroy) =
      (.ok none, ⟨releaseHeap s.heap vec, Function.update s.vecs v (some vec)⟩) :=
  callOn_ok hv (noAnswer_ok rfl)

end Calls

end Journey.Containers
