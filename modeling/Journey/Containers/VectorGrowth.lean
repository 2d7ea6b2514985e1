import Journey.Containers.VectorList
import Journey.Lib.Machine

/-!
# Journey.Containers.VectorGrowth — whether a full vector grows before it is written to

`push_back` doubles the capacity of a full vector as an `int`, and trusts `reserve`, which returns at once
when the doubled capacity is not larger.

* `Vector.makeRoom`, `Vector.writeEnd`: the two halves of `push_back` (`pushBack_eq`).
* `GrowsFirst`: the call throws and changes nothing, or the capacity is above the size when it writes.
* `CanDouble vec`: the vector is not full, or its capacity doubles to a larger `int`.
* `Ordered s`: no vector is larger than its capacity; `ordered_step` for each call.
* `growth_iff`: in a run every `push_back` grows first exactly when each is made on a vector that can double.
-/

namespace Journey.Containers

variable {α β : Type}

/-! ## The two halves of `push_back` -/

section Halves

/-- `if (sz == cap) reserve(cap == 0 ? 1 : cap * 2)`. -/
def Vector.makeRoom (mem : Memory) : VecM α Unit := do
  let (_, vec) ← get
  if vec.sz = vec.cap then Vector.reserve mem (grown vec.cap) else pure ()

/-- `elem[sz] = value; sz += 1`. -/
def Vector.writeEnd [ImplicitLifetime α] (value : BlockHeap α → Option α × BlockHeap α) : VecM α Unit := do
  let (h, vec) ← get
  let (x, h) := value h
  set (h.assign vec.elem (rounds vec.sz) x, { vec with sz := vec.sz + 1 })

variable {mem : Memory} {value : BlockHeap α → Option α × BlockHeap α} {h h' : BlockHeap α} {vec vec' : Vec}

theorem pushBack_eq [ImplicitLifetime α] (mem : Memory) (value : BlockHeap α → Option α × BlockHeap α) :
    Vector.pushBack mem value = (do Vector.makeRoom mem; Vector.writeEnd value) := by
  funext ⟨h, vec⟩
  by_cases hfull : vec.sz = vec.cap
  · simp only [Vector.pushBack, Vector.makeRoom, Vector.writeEnd, bind, EStateM.bind, get, getThe, MonadStateOf.get,
      stateM_get, if_pos hfull, grown]
  · simp only [Vector.pushBack, Vector.makeRoom, Vector.writeEnd, bind, EStateM.bind, get, getThe, MonadStateOf.get,
      stateM_get, if_neg hfull]
    rfl

theorem pushBack_of_makeRoom [ImplicitLifetime α] (value : BlockHeap α → Option α × BlockHeap α)
    (hroom : Vector.makeRoom mem (h, vec) = .ok () (h', vec')) :
    Vector.pushBack mem value (h, vec) = Vector.writeEnd value (h', vec') := by
  rw [pushBack_eq]
  simp only [bind, EStateM.bind, hroom]

theorem makeRoom_full (mem : Memory) (h : BlockHeap α) (hfull : vec.sz = vec.cap) :
    Vector.makeRoom mem (h, vec) = Vector.reserve mem (grown vec.cap) (h, vec) := by
  simp only [Vector.makeRoom, bind, EStateM.bind, get, getThe, MonadStateOf.get, stateM_get, if_pos hfull]

theorem makeRoom_room (mem : Memory) (h : BlockHeap α) (hroom : vec.sz ≠ vec.cap) :
    Vector.makeRoom mem (h, vec) = .ok () (h, vec) := by
  simp only [Vector.makeRoom, bind, EStateM.bind, get, getThe, MonadStateOf.get, stateM_get, if_neg hroom]
  rfl

end Halves

/-! ## Growth before the write -/

section Growth

variable [ImplicitLifetime α] {mem : Memory} {value : BlockHeap α → Option α × BlockHeap α} {h : BlockHeap α}
    {vec : Vec}

/-- A `push_back` throws and leaves everything as it was, or the capacity is above the size when it writes its
element to `elem[sz]`. -/
def GrowsFirst (mem : Memory) (value : BlockHeap α → Option α × BlockHeap α) (h : BlockHeap α) (vec : Vec) : Prop :=
  (∃ e, Vector.pushBack mem value (h, vec) = .error e (h, vec)) ∨
    ∃ h' vec', Vector.makeRoom mem (h, vec) = .ok () (h', vec') ∧
      Vector.pushBack mem value (h, vec) = Vector.writeEnd value (h', vec') ∧
      vec'.sz = vec.sz ∧ vec'.sz.toInt < vec'.cap.toInt

/-- The vector is not full, or twice its capacity is a larger `int`: capacities from `2 ^ 30` on double to
nothing or to a negative number, and a negative capacity (of a list too long for an `int`) doubles to a larger
one only below `-2 ^ 30`. -/
def CanDouble (vec : Vec) : Prop :=
  vec.sz = vec.cap → 0 ≤ vec.cap.toInt ∧ vec.cap.toInt < 2 ^ 30 ∨ vec.cap.toInt < -2 ^ 30

/-- **When `push_back` grows first**, for a vector that is not larger than its capacity. -/
theorem growsFirst_iff (hle : vec.sz.toInt ≤ vec.cap.toInt) : GrowsFirst mem value h vec ↔ CanDouble vec := by
  by_cases hfull : vec.sz = vec.cap
  · have hroom := makeRoom_full mem h hfull
    by_cases hgt : grown vec.cap ≤ vec.cap
    · -- `reserve` returns at once, and the write goes to `elem[cap]`
      rw [reserve_small hgt] at hroom
      have hpush := pushBack_of_makeRoom value hroom
      have hcan : ¬ CanDouble vec := by
        intro hcan
        have hlt := (lt_grown_iff vec.cap).mpr (hcan hfull)
        rw [Int32.le_iff_toInt_le] at hgt
        omega
      refine iff_of_false ?_ hcan
      rintro (⟨e, herr⟩ | ⟨h', vec', hok, -, -, hlt⟩)
      · rw [hpush] at herr
        cases herr
      · rw [hroom] at hok
        cases hok
        rw [hfull] at hlt
        omega
    · have hlt : vec.cap.toInt < (grown vec.cap).toInt := by
        rwa [Int32.not_le, Int32.lt_iff_toInt_lt] at hgt
      refine iff_of_true ?_ (fun _ => (lt_grown_iff vec.cap).mp hlt)
      by_cases hgr : Grants mem (toSize (grown vec.cap))
      · rw [reserve_eq hgt hgr] at hroom
        exact .inr ⟨_, _, hroom, pushBack_of_makeRoom _ hroom, rfl, by rw [hfull]; exact hlt⟩
      · exact .inl ⟨_, pushBack_fails hfull hgt hgr⟩
  · have hroom := makeRoom_room mem h hfull
    have hne : vec.sz.toInt ≠ vec.cap.toInt := fun heq => hfull (Int32.toInt_inj.mp heq)
    refine iff_of_true ?_ (fun h => absurd h hfull)
    exact .inr ⟨h, vec, hroom, pushBack_of_makeRoom _ hroom, rfl, by omega⟩

/-- **Past the block**: a full vector whose capacity does not double is written to behind its last slot. -/
theorem pushBack_strays (mem : Memory) (x : α) (hs : Sound h vec) (hfull : vec.sz = vec.cap)
    (hsmall : grown vec.cap ≤ vec.cap) :
    Vector.pushBack mem (fun h => (some x, h)) (h, vec) =
      .ok () (h.noteIf true .outOfBlock, { vec with sz := vec.sz + 1 }) := by
  have hat : h.blockAt vec.elem (rounds vec.sz) = none := by
    unfold BlockHeap.blockAt
    cases he : vec.elem with
    | none => rfl
    | some b =>
      obtain ⟨blk, hb, hsize, -⟩ := hs.block b he
      dsimp only
      rw [hb]
      exact if_neg (by rw [hsize, hfull]; exact Nat.lt_irrefl _)
  rw [pushBack_full hfull (reserve_small hsmall), BlockHeap.assign, BlockHeap.access, hat]

end Growth

/-! ## Sizes and capacities in a program -/

section Fields

variable {mem : Memory} {h h' : BlockHeap α} {vec vec' other : Vec}

/-- A program that returns went through its first part. -/
theorem bind_returns {γ : Type} {x : VecM α β} {f : β → VecM α γ} {s s'' : BlockHeap α × Vec} {r : γ}
    (hok : (x >>= f) s = .ok r s'') : ∃ a s', x s = .ok a s' ∧ f a s' = .ok r s'' := by
  simp only [bind, EStateM.bind] at hok
  split at hok
  · next a s' hx => exact ⟨a, s', hx, hok⟩
  · cases hok

/-- The heap and the vector a call leaves, whether it returns or throws. -/
def left {ε : Type} : EStateM.Result ε (BlockHeap α × Vec) β → BlockHeap α × Vec
  | .ok _ s => s
  | .error _ s => s

theorem left_noAnswer (call : VecM α Unit) (s : BlockHeap α × Vec) : left (noAnswer call s) = left (call s) := by
  simp only [noAnswer, bind, EStateM.bind]
  split <;> next hc => rw [hc]; rfl

theorem sized_fields [Inhabited α] {sz : Int32} (hok : Vector.sized mem sz (h, vec) = .ok () (h', vec')) :
    vec'.sz = vec'.cap := by
  unfold Vector.sized at hok
  split_ifs at hok
  · cases hok
  · obtain ⟨elem, s1, -, hok⟩ := bind_returns hok
    obtain ⟨-, s2, -, hok⟩ := bind_returns hok
    cases hok
    rfl

theorem ofList_fields {lst : List α} (hok : Vector.ofList mem lst (h, vec) = .ok () (h', vec')) :
    vec'.sz = vec'.cap := by
  obtain ⟨elem, s1, -, hok⟩ := bind_returns hok
  obtain ⟨-, s2, -, hok⟩ := bind_returns hok
  cases hok
  rfl

theorem copy_fields (hok : Vector.copy mem other (h, vec) = .ok () (h', vec')) : vec'.sz = vec'.cap := by
  obtain ⟨elem, s1, -, hok⟩ := bind_returns hok
  obtain ⟨-, s2, -, hok⟩ := bind_returns hok
  cases hok
  rfl

/-- A copy assignment takes both numbers over, also when the allocation fails. -/
theorem copyAssign_fields : (left (Vector.copyAssign mem other (h, vec))).2.sz = other.sz ∧
    (left (Vector.copyAssign mem other (h, vec))).2.cap = other.cap := by
  by_cases hg : Grants mem (toSize other.cap)
  · simp only [Vector.copyAssign, release, bind, EStateM.bind, modify, modifyGet, MonadStateOf.modifyGet,
      stateM_modifyGet, get, getThe, MonadStateOf.get, stateM_get, setVec, modifyHeap, allocate_of_grants hg]
    exact ⟨rfl, rfl⟩
  · rw [copyAssign_fails hg]
    exact ⟨rfl, rfl⟩

theorem reserve_fields (mem : Memory) (newCap : Int32) (h : BlockHeap α) (vec : Vec) :
    (left (Vector.reserve mem newCap (h, vec))).2.sz = vec.sz ∧
    vec.cap.toInt ≤ (left (Vector.reserve mem newCap (h, vec))).2.cap.toInt := by
  by_cases hle : newCap ≤ vec.cap
  · rw [reserve_small hle]
    exact ⟨rfl, Int.le_refl _⟩
  · by_cases hg : Grants mem (toSize newCap)
    · rw [reserve_eq hle hg]
      rw [Int32.not_le, Int32.lt_iff_toInt_lt] at hle
      exact ⟨rfl, Int.le_of_lt hle⟩
    · rw [reserve_fails hle hg]
      exact ⟨rfl, Int.le_refl _⟩

theorem index_fields {i : Int32} : (left (Vector.index i (h, vec))).2 = vec := by
  by_cases hout : i < 0 ∨ vec.sz ≤ i
  · rw [index_throws hout]
    rfl
  · show (left ((if i < 0 ∨ vec.sz ≤ i then _ else _ : VecM α (Option α)) (h, vec))).2 = _
    rw [if_neg hout]
    rfl

theorem pushBack_fields [ImplicitLifetime α] {value : BlockHeap α → Option α × BlockHeap α}
    (hg : GrowsFirst mem value h vec)
    (hle : vec.sz.toInt ≤ vec.cap.toInt) :
    (left (Vector.pushBack mem value (h, vec))).2.sz.toInt ≤
      (left (Vector.pushBack mem value (h, vec))).2.cap.toInt := by
  rcases hg with ⟨e, herr⟩ | ⟨h', vec', -, heq, -, hlt⟩
  · rw [herr]
    exact hle
  · rw [heq]
    show (vec'.sz + 1).toInt ≤ vec'.cap.toInt
    rw [toInt_succ hlt]
    omega

end Fields

/-! ## Runs -/

section Runs

variable {mem : Memory} {s : State α} {v other : ℕ} {h' : BlockHeap α} {o : Option Vec}

/-- No vector is larger than its capacity. -/
def Ordered (s : State α) : Prop := ∀ v vec, s.vecs v = some vec → vec.sz.toInt ≤ vec.cap.toInt

theorem ordered_init : Ordered (State.init : State α) := fun _ _ hv => by cases hv

theorem Ordered.update (hs : Ordered s) (ho : ∀ vec, o = some vec → vec.sz.toInt ≤ vec.cap.toInt) :
    Ordered ⟨h', Function.update s.vecs v o⟩ := by
  intro u vec hu
  dsimp only at hu
  by_cases huv : u = v
  · rw [huv, Function.update_self] at hu
    exact ho vec hu
  · rw [Function.update_of_ne huv] at hu
    exact hs u vec hu

theorem Ordered.empty (hs : Ordered s) : Ordered ⟨h', Function.update s.vecs v (some .empty)⟩ := by
  refine hs.update ?_
  rintro _ ⟨⟩
  exact Int.le_refl _

theorem ordered_create {call : VecM α Unit} (hs : Ordered s)
    (hcall : ∀ h' vec', call (s.heap, .empty) = .ok () (h', vec') → vec'.sz.toInt ≤ vec'.cap.toInt) :
    Ordered (create s v call).2 := by
  unfold create
  split
  · exact hs
  · split
    · next h' vec' hc =>
      refine hs.update ?_
      rintro _ ⟨⟩
      exact hcall h' vec' hc
    · exact hs

theorem ordered_callOn {ask : VecM α (Option α)} (hs : Ordered s)
    (hcall : ∀ vec, s.vecs v = some vec →
      (left (ask (s.heap, vec))).2.sz.toInt ≤ (left (ask (s.heap, vec))).2.cap.toInt) :
    Ordered (callOn s v ask).2 := by
  unfold callOn
  split
  · exact hs
  · next vec hv =>
    have hleft := hcall vec hv
    split <;> next hc =>
      rw [hc] at hleft
      refine hs.update ?_
      rintro _ ⟨⟩
      exact hleft

/-- A `push_back` on a vector that is alive. -/
def Pushes (P : Vec → (BlockHeap α → Option α × BlockHeap α) → Prop) (s : State α) : Op α → Prop
  | .pushBack v value => ∀ vec, s.vecs v = some vec → P vec fun h => (some value, h)
  | .pushBackOwn v i => ∀ vec, s.vecs v = some vec → i < rounds vec.sz → P vec fun h => h.read vec.elem i
  | _ => True

/-- The call, if it is a `push_back`, grows first. -/
def PushGrows [ImplicitLifetime α] (mem : Memory) (s : State α) : Op α → Prop :=
  Pushes (fun vec value => GrowsFirst mem value s.heap vec) s

/-- The call, if it is a `push_back`, is made on a vector that can double. -/
def PushDoubles (s : State α) : Op α → Prop := Pushes (fun vec _ => CanDouble vec) s

theorem pushGrows_iff [ImplicitLifetime α] {op : Op α} (hs : Ordered s) : PushGrows mem s op ↔ PushDoubles s op := by
  cases op with
  | pushBack v x =>
    refine forall_congr' fun vec => forall_congr' fun hv => ?_
    exact growsFirst_iff (hs v vec hv)
  | pushBackOwn v i =>
    refine forall_congr' fun vec => forall_congr' fun hv => forall_congr' fun hi => ?_
    exact growsFirst_iff (hs v vec hv)
  | _ => exact Iff.rfl

variable [Inhabited α] [ImplicitLifetime α]

/-- **A call keeps the sizes below the capacities**, if a `push_back` grows first. -/
theorem ordered_step {op : Op α} (hs : Ordered s) (hop : PushGrows mem s op) : Ordered (step mem s op).2 := by
  cases op with
  | default v =>
    refine ordered_create hs fun h' vec' hok => ?_
    rw [default_eq] at hok
    cases hok
    exact Int.le_refl _
  | sized v sz => exact ordered_create hs fun h' vec' hok => Int.le_of_eq (congrArg Int32.toInt (sized_fields hok))
  | ofList v lst => exact ordered_create hs fun h' vec' hok => Int.le_of_eq (congrArg Int32.toInt (ofList_fields hok))
  | copy v other =>
    simp only [step]
    split
    · exact hs
    · exact ordered_create hs fun h' vec' hok => Int.le_of_eq (congrArg Int32.toInt (copy_fields hok))
  | move v other =>
    simp only [step]
    split
    · next o ho hv =>
      refine Ordered.empty (ordered_create hs fun h' vec' hok => ?_)
      cases hok
      exact hs other _ ho
    · exact hs
  | copyAssign v other =>
    simp only [step]
    split
    · exact hs
    · next o ho =>
      split_ifs
      · exact hs
      · refine ordered_callOn hs fun vec hv => ?_
        rw [left_noAnswer, copyAssign_fields.1, copyAssign_fields.2]
        exact hs other o ho
  | moveAssign v other =>
    simp only [step]
    split
    · next o w ho hv =>
      split_ifs
      · exact hs
      · refine Ordered.empty (ordered_callOn hs fun vec hv => ?_)
        rw [left_noAnswer]
        exact hs other o ho
    · exact hs
  | pushBack v x =>
    refine ordered_callOn hs fun vec hv => ?_
    rw [left_noAnswer]
    exact pushBack_fields (hop vec hv) (hs v vec hv)
  | pushBackOwn v i =>
    simp only [step]
    split
    · exact hs
    · next w hw =>
      split_ifs with hi
      · refine ordered_callOn hs fun vec hv => ?_
        rw [hw] at hv
        cases hv
        rw [left_noAnswer]
        exact pushBack_fields (hop w hw hi) (hs v w hw)
      · exact hs
  | reserve v newCap =>
    refine ordered_callOn hs fun vec hv => ?_
    obtain ⟨hsz, hcap⟩ := reserve_fields mem newCap s.heap vec
    have hle := hs v vec hv
    rw [left_noAnswer, hsz]
    omega
  | index v i =>
    refine ordered_callOn hs fun vec hv => ?_
    rw [index_fields]
    exact hs v vec hv
  | destroy v =>
    have hcall : Ordered (callOn s v (noAnswer Vector.destroy)).2 := by
      refine ordered_callOn hs fun vec hv => ?_
      rw [left_noAnswer]
      exact hs v vec hv
    exact hcall.update fun _ hn => by cases hn

/-- **Sizes stay below capacities** in a run whose calls meet `P`, if `P` makes every `push_back` grow first. -/
theorem ordered_run (sizeOf : ℕ) {calls : List (Call α)} (P : State α → Call α → Prop)
    (hP : ∀ s call, Ordered s → P s call → PushGrows ⟨sizeOf, call.2⟩ s call.1)
    (hall : ∀ pre call post, calls = pre ++ call :: post → P (stateAfter sizeOf pre) call) :
    ∀ pre post, calls = pre ++ post → Ordered (stateAfter sizeOf pre) := by
  intro pre post heq
  refine foldl_along Ordered (fun s call hs hop => ordered_step hs (hP s call hs hop)) pre .init ordered_init ?_
  intro pre' call post' hpre
  exact hall pre' call (post' ++ post) (by rw [heq, hpre, List.append_assoc, List.cons_append])

/-- **Growth.**  In a run of calls over any number of vectors, every `push_back` throws without a change or has
the capacity above the size when it writes, exactly when each of them is made on a vector that is not full or
whose capacity doubles to a larger `int`. -/
theorem growth_iff (sizeOf : ℕ) (calls : List (Call α)) :
    (∀ pre call post, calls = pre ++ call :: post →
      PushGrows ⟨sizeOf, call.2⟩ (stateAfter sizeOf pre) call.1) ↔
    ∀ pre call post, calls = pre ++ call :: post → PushDoubles (stateAfter sizeOf pre) call.1 := by
  constructor
  · intro hall pre call post heq
    have hs := ordered_run sizeOf (fun s call => PushGrows ⟨sizeOf, call.2⟩ s call.1) (fun _ _ _ => id) hall pre _ heq
    exact (pushGrows_iff hs).mp (hall pre call post heq)
  · intro hall pre call post heq
    have hs := ordered_run sizeOf (fun s call => PushDoubles s call.1)
      (fun s call hs => (pushGrows_iff hs).mpr) hall pre _ heq
    exact (pushGrows_iff hs).mpr (hall pre call post heq)

/-- A vector of `2 ^ 30` bytes: the constructor returns, and the capacity doubles to a negative number. -/
theorem push_onto_a_gibibyte :
    ¬ PushGrows ⟨1, true⟩ (stateAfter 1 [((.sized 0 (2 ^ 30) : Op UInt8), true)]) (.pushBack 0 7) ∧
      HeapFault.outOfBlock ∈
        (stateAfter 1 [((.sized 0 (2 ^ 30) : Op UInt8), true), (.pushBack 0 7, true)]).heap.faults := by
  have hgr : Grants ⟨1, true⟩ (toSize (2 ^ 30)) := .inr ⟨by decide, rfl⟩
  obtain ⟨h1, vec, hok, hsz, hcap, hs, -⟩ :=
    sized_builds (h := (State.init : State UInt8).heap) .empty (fun _ _ => rfl) (by decide) hgr
  have hsmall : grown vec.cap ≤ vec.cap := by
    rw [hcap]
    decide
  have hstate : stateAfter 1 [((.sized 0 (2 ^ 30) : Op UInt8), true)] =
      ⟨h1, Function.update (fun _ => none) 0 (some vec)⟩ := congrArg Prod.snd (create_ok rfl hok)
  have halive : (stateAfter 1 [((.sized 0 (2 ^ 30) : Op UInt8), true)]).vecs 0 = some vec := by
    rw [hstate]
    rfl
  refine ⟨?_, ?_⟩
  · intro hgrows
    have hcan := (growsFirst_iff (Int.le_of_eq (by rw [hsz, hcap]))).mp (hgrows vec halive) (hsz.trans hcap.symm)
    rw [hcap] at hcan
    revert hcan
    decide
  · have hpush := callOn_ok (s := stateAfter 1 [((.sized 0 (2 ^ 30) : Op UInt8), true)]) halive
      (noAnswer_ok (pushBack_strays ⟨1, true⟩ 7 (by rw [hstate]; exact hs) (hsz.trans hcap.symm) hsmall))
    rw [show [((.sized 0 (2 ^ 30) : Op UInt8), true), (.pushBack 0 7, true)] =
      [((.sized 0 (2 ^ 30) : Op UInt8), true)] ++ [(.pushBack 0 7, true)] from rfl, stateAfter_concat]
    simp only [step, hpush]
    exact List.mem_cons_self

end Runs

end Journey.Containers
