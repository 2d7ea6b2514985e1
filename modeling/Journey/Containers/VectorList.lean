import Journey.Containers.VectorLifetimes
import Mathlib.Data.List.Induction

/-!
# Journey.Containers.VectorList — a vector is a list

* `ListSpec.step`: what the calls mean for lists of elements, one for each vector that is alive.
* `Holds s ls`: the vectors of `s` hold the lists `ls`, and no access went out of a block.
* `holds_step`: a call keeps that and answers what the list answers, except for `push_back` of a class type.
* `vector_refines_list_iff`: while no allocation fails and the doubled capacities are `int`s, a run does what the lists do
  exactly if it never calls `push_back`, or the elements are of a type that an assignment makes in raw storage.
-/

namespace Journey.Containers

variable {α : Type}

/-! ## Lists -/

section Lists

variable [Inhabited α]

/-- The lists of the vectors that are alive. -/
abbrev Lists (α : Type) := ℕ → Option (List α)

namespace ListSpec

/-- A new list. -/
def create (ls : Lists α) (v : ℕ) (xs : List α) : Except VecError (Option α) × Lists α :=
  match ls v with
  | some _ => (.ok none, ls)
  | none => (.ok none, Function.update ls v (some xs))

/-- The list of `v` goes, and `xs` comes in its place. -/
def assign (ls : Lists α) (v : ℕ) (xs : List α) : Except VecError (Option α) × Lists α :=
  match ls v with
  | none => (.ok none, ls)
  | some _ => (.ok none, Function.update ls v (some xs))

/-- What a call means for the lists. -/
def step (ls : Lists α) : Op α → Except VecError (Option α) × Lists α
  | .default v => create ls v []
  | .sized v sz =>
    match ls v with
    | some _ => (.ok none, ls)
    | none => if sz.toInt < 0 then (.error .lengthError, ls) else create ls v (List.replicate sz.toInt.toNat default)
  | .ofList v lst => create ls v lst
  | .copy v other =>
    match ls other with
    | none => (.ok none, ls)
    | some xs => create ls v xs
  | .move v other =>
    match ls other, ls v with
    | some xs, none => (.ok none, Function.update (Function.update ls v (some xs)) other (some []))
    | _, _ => (.ok none, ls)
  | .copyAssign v other =>
    match ls other with
    | none => (.ok none, ls)
    | some xs => assign ls v xs
  | .moveAssign v other =>
    match ls other, ls v with
    | some xs, some _ =>
      if v = other then (.ok none, ls)
      else (.ok none, Function.update (Function.update ls v (some xs)) other (some []))
    | _, _ => (.ok none, ls)
  | .pushBack v value =>
    match ls v with
    | none => (.ok none, ls)
    | some xs => assign ls v (xs ++ [value])
  | .pushBackOwn v i =>
    match ls v with
    | none => (.ok none, ls)
    | some xs => assign ls v (xs ++ (xs[i]?).toList)
  | .reserve _ _ => (.ok none, ls)
  | .index v i =>
    match ls v with
    | none => (.ok none, ls)
    | some xs =>
      if 0 ≤ i.toInt ∧ i.toInt < xs.length then (.ok xs[i.toInt.toNat]?, ls) else (.error .outOfRange, ls)
  | .destroy v => (.ok none, Function.update ls v none)

/-- The lists after calls. -/
def after (ops : List (Op α)) : Lists α := ops.foldl (fun ls op => (step ls op).2) fun _ => none

end ListSpec

end Lists

/-! ## Vectors that hold lists -/

section Holding

variable {s : State α} {ls : Lists α} {h h' : BlockHeap α} {vec vec' : Vec} {xs : List α} {v v' : ℕ} {o : Option Vec}
  {l : Option (List α)}

/-- The elements of the vector are those of the list. -/
structure Elements (h : BlockHeap α) (vec : Vec) (xs : List α) : Prop where
  length : vec.sz.toInt = xs.length
  value : ∀ i < xs.length, (content h vec i).value = xs[i]?

/-- The list of that number. -/
def listAt (ls : Lists α) (v : ℕ) : List α := (ls v).getD []

/-- The vectors hold the lists. -/
structure Holds (s : State α) (ls : Lists α) : Prop where
  owned : Owned s
  alive : ∀ v, (s.vecs v).isSome = (ls v).isSome
  elements : ∀ v, Elements s.heap (s.vecAt v) (listAt ls v)
  inside : s.heap.strays = 0

theorem elements_empty (h : BlockHeap α) : Elements h .empty [] := ⟨rfl, fun i hi => by cases hi⟩

theorem Elements.rounds_eq (he : Elements h vec xs) : rounds vec.sz = xs.length := by
  have hlen := he.length
  unfold rounds
  omega

/-- Slots filled with the elements of a list. -/
theorem elements_of_filled {f : ℕ → Option α} {n : ℕ} (hlen : vec.sz.toInt = xs.length)
    (hc : content h vec = filled n f) (hn : xs.length ≤ n) (hf : ∀ i < xs.length, f i = xs[i]?) :
    Elements h vec xs := by
  refine ⟨hlen, ?_⟩
  intro i hi
  rw [hc]
  unfold filled
  rw [if_pos (by omega)]
  exact hf i hi

theorem Elements.congr (he : Elements h vec xs) (hc : content h' vec' = content h vec) (hsz : vec'.sz = vec.sz) :
    Elements h' vec' xs := by
  refine ⟨by rw [hsz]; exact he.length, ?_⟩
  intro i hi
  rw [hc]
  exact he.value i hi

theorem listAt_update (ls : Lists α) (v : ℕ) (l : Option (List α)) :
    listAt (Function.update ls v l) = Function.update (listAt ls) v (l.getD []) := by
  funext u
  unfold listAt
  by_cases hu : u = v
  · rw [hu, Function.update_self, Function.update_self]
  · rw [Function.update_of_ne hu, Function.update_of_ne hu]

theorem listAt_of_alive (hv : ls v = some xs) : listAt ls v = xs := by
  unfold listAt
  rw [hv]
  rfl

theorem holds_init : Holds (State.init : State α) (fun _ => none) :=
  ⟨owned_init, fun _ => rfl, fun _ => elements_empty _, rfl⟩

/-- A vector that is alive and its list. -/
theorem Holds.of_some (hh : Holds s ls) (hv : s.vecs v = some vec) :
    ∃ xs, ls v = some xs ∧ Sound s.heap vec ∧ Elements s.heap vec xs := by
  have halive := hh.alive v
  rw [hv] at halive
  obtain ⟨xs, hxs⟩ := Option.isSome_iff_exists.mp halive.symm
  have hs := hh.owned.sound v
  have he := hh.elements v
  rw [State.vecAt_of_alive hv] at hs he
  rw [listAt_of_alive hxs] at he
  exact ⟨xs, hxs, hs, he⟩

theorem Holds.of_none (hh : Holds s ls) (hv : s.vecs v = none) : ls v = none := by
  have halive := hh.alive v
  rw [hv] at halive
  exact Option.not_isSome_iff_eq_none.mp (by rw [← halive]; decide)

/-- **A call on one vector** that leaves `l` in it. -/
theorem Holds.update (hh : Holds s ls) (hm : Moves s.heap (s.vecAt v) h' (o.getD .empty))
    (hs : Sound h' (o.getD .empty)) (he : Elements h' (o.getD .empty) (l.getD [])) (hal : o.isSome = l.isSome) :
    Holds ⟨h', Function.update s.vecs v o⟩ (Function.update ls v l) := by
  refine ⟨hh.owned.update hm hs, ?_, ?_, hm.stray.trans hh.inside⟩
  · intro u
    dsimp only
    by_cases hu : u = v
    · rw [hu, Function.update_self, Function.update_self]
      exact hal
    · rw [Function.update_of_ne hu, Function.update_of_ne hu]
      exact hh.alive u
  · intro u
    rw [State.vecAt_update, listAt_update]
    by_cases hu : u = v
    · rw [hu, Function.update_self, Function.update_self]
      exact he
    · rw [Function.update_of_ne hu, Function.update_of_ne hu]
      exact (hh.elements u).congr (hh.owned.content_other hm.other hu) rfl

/-- Handing the elements of `v'` over to `v`, which has none. -/
theorem Holds.pass (hh : Holds s ls) (hne : v ≠ v') (hv : (s.vecAt v).elem = none) :
    Holds ⟨s.heap, Function.update (Function.update s.vecs v (some (s.vecAt v'))) v' (some .empty)⟩
      (Function.update (Function.update ls v (some (listAt ls v'))) v' (some [])) := by
  refine ⟨hh.owned.pass hne hv, ?_, ?_, hh.inside⟩
  · intro u
    dsimp only
    by_cases hu' : u = v'
    · rw [hu', Function.update_self, Function.update_self]
      rfl
    · rw [Function.update_of_ne hu', Function.update_of_ne hu']
      by_cases hu : u = v
      · rw [hu, Function.update_self, Function.update_self]
        rfl
      · rw [Function.update_of_ne hu, Function.update_of_ne hu]
        exact hh.alive u
  · intro u
    rw [State.vecAt_update ⟨s.heap, Function.update s.vecs v (some (s.vecAt v'))⟩ v', State.vecAt_update s v s.heap,
      listAt_update, listAt_update]
    by_cases hu' : u = v'
    · rw [hu', Function.update_self, Function.update_self]
      exact elements_empty _
    · rw [Function.update_of_ne hu', Function.update_of_ne hu']
      by_cases hu : u = v
      · rw [hu, Function.update_self, Function.update_self]
        exact hh.elements v'
      · rw [Function.update_of_ne hu, Function.update_of_ne hu]
        exact hh.elements u

/-- The vector without its elements and its block. -/
theorem Holds.released (hh : Holds s ls) (v : ℕ) (o : Option Vec) (l : Option (List α)) (ho : o.getD .empty = .empty)
    (hl : l.getD [] = []) (hal : o.isSome = l.isSome) :
    Holds ⟨releaseHeap s.heap (s.vecAt v), Function.update s.vecs v o⟩ (Function.update ls v l) := by
  have hrel := becomes_release (hh.owned.sound v)
  refine hh.update ?_ ?_ ?_ hal
  · rw [ho]
    exact Moves.release hh.owned.fresh hrel
  · rw [ho]
    exact sound_empty _
  · rw [ho, hl]
    exact elements_empty _

end Holding

/-! ## Calls -/

section Calls

variable {s : State α} {ls : Lists α} {h h' : BlockHeap α} {vec vec' : Vec} {xs xs' : List α} {v other : ℕ}
  {mem : Memory}

/-- A call and its meaning: the same answer, and vectors that hold the lists. -/
def Agrees (out : Except VecError (Option α) × State α) (spec : Except VecError (Option α) × Lists α) : Prop :=
  out.1 = spec.1 ∧ Holds out.2 spec.2

theorem Holds.same (hh : Holds s ls) (x : Except VecError (Option α)) : Agrees (x, s) (x, ls) := ⟨rfl, hh⟩

/-- A constructor. -/
theorem agrees_create {call : VecM α Unit} (hh : Holds s ls)
    (hcall : s.vecs v = none → ∃ h' vec', call (s.heap, .empty) = .ok () (h', vec') ∧ Sound h' vec' ∧
      Elements h' vec' xs ∧ Moves s.heap .empty h' vec') :
    Agrees (create s v call) (ListSpec.create ls v xs) := by
  unfold ListSpec.create
  cases hv : s.vecs v with
  | some vec =>
    obtain ⟨xs', hxs, -, -⟩ := hh.of_some hv
    rw [create_taken hv, hxs]
    exact hh.same _
  | none =>
    obtain ⟨h', vec', hok, hs, he, hm⟩ := hcall hv
    rw [create_ok hv hok, hh.of_none hv]
    refine ⟨rfl, hh.update ?_ hs he rfl⟩
    rw [State.vecAt_of_none hv]
    exact hm

/-- A call that leaves `xs` in the vector. -/
theorem agrees_callOn {ask : VecM α (Option α)} {x : Option α} (hh : Holds s ls) (hv : s.vecs v = some vec)
    (hok : ask (s.heap, vec) = .ok x (h', vec')) (hs : Sound h' vec') (he : Elements h' vec' xs)
    (hm : Moves s.heap vec h' vec') :
    Agrees (callOn s v ask) (.ok x, Function.update ls v (some xs)) := by
  rw [callOn_ok hv hok]
  refine ⟨rfl, hh.update ?_ hs he rfl⟩
  rw [State.vecAt_of_alive hv]
  exact hm

/-- A call that leaves the list as it is. -/
theorem agrees_unchanged {ask : VecM α (Option α)} {x : Option α} (hh : Holds s ls) (hv : s.vecs v = some vec)
    (hls : ls v = some xs) (hok : ask (s.heap, vec) = .ok x (h', vec')) (hs : Sound h' vec')
    (he : Elements h' vec' xs) (hm : Moves s.heap vec h' vec') : Agrees (callOn s v ask) (.ok x, ls) := by
  have hag := agrees_callOn hh hv hok hs he hm
  rwa [← hls, Function.update_eq_self] at hag

theorem assign_alive (hls : ls v = some xs) (xs' : List α) :
    ListSpec.assign ls v xs' = (.ok none, Function.update ls v (some xs')) := by
  unfold ListSpec.assign
  rw [hls]

/-- What the call asks the allocator for, it is granted. -/
def Granted (mem : Memory) (s : State α) : Op α → Prop
  | .sized v sz => s.vecs v = none → ¬ sz < 0 → Grants mem (toSize sz)
  | .ofList v lst => s.vecs v = none → Grants mem (toSize (Int32.ofNat lst.length))
  | .copy v other => ∀ o, s.vecs v = none → s.vecs other = some o → Grants mem (toSize o.sz)
  | .copyAssign v other => ∀ vec o, s.vecs v = some vec → s.vecs other = some o → v ≠ other → Grants mem (toSize o.cap)
  | .pushBack v _ => ∀ vec, s.vecs v = some vec → vec.sz = vec.cap → vec.cap < grown vec.cap →
      Grants mem (toSize (grown vec.cap))
  | .pushBackOwn v _ => ∀ vec, s.vecs v = some vec → vec.sz = vec.cap → vec.cap < grown vec.cap →
      Grants mem (toSize (grown vec.cap))
  | .reserve v newCap => ∀ vec, s.vecs v = some vec → vec.cap < newCap → Grants mem (toSize newCap)
  | _ => True

variable [Inhabited α] [ImplicitLifetime α]

theorem agrees_default (hh : Holds s ls) : Agrees (step mem s (.default v)) (ListSpec.step ls (.default v)) := by
  refine agrees_create hh fun _ => ⟨s.heap, .empty, default_eq mem, sound_empty _, elements_empty _, ?_⟩
  exact Moves.of_read hh.owned.fresh (Becomes.refl _) _

theorem agrees_sized {sz : Int32} (hh : Holds s ls) (hg : Granted mem s (.sized v sz)) :
    Agrees (step mem s (.sized v sz)) (ListSpec.step ls (.sized v sz)) := by
  cases hv : s.vecs v with
  | some vec =>
    obtain ⟨xs, hxs, -, -⟩ := hh.of_some hv
    simp only [step, ListSpec.step, create_taken hv, hxs]
    exact hh.same _
  | none =>
    simp only [step, ListSpec.step, hh.of_none hv]
    by_cases hneg : sz < 0
    · have hneg' : sz.toInt < 0 := Int32.lt_iff_toInt_lt.mp hneg
      rw [if_pos hneg', create_error hv (sized_negative hneg)]
      exact hh.same _
    · have hneg' : ¬ sz.toInt < 0 := fun hlt => hneg (Int32.lt_iff_toInt_lt.mpr hlt)
      rw [if_neg hneg']
      refine agrees_create hh fun _ => ?_
      obtain ⟨h', vec', hok, hsz, -, hs, hc, hm, -⟩ := sized_builds .empty hh.owned.fresh hneg (hg hv hneg)
      refine ⟨h', vec', hok, hs, elements_of_filled ?_ hc ?_ ?_, hm⟩
      · rw [hsz, List.length_replicate]
        omega
      · rw [List.length_replicate]
        rfl
      · intro i hi
        rw [List.length_replicate] at hi
        rw [List.getElem?_replicate_of_lt hi]

theorem agrees_ofList {lst : List α} (hh : Holds s ls) (hlen : lst.length ≤ 2 ^ 30 - 1)
    (hg : Granted mem s (.ofList v lst)) :
    Agrees (step mem s (.ofList v lst)) (ListSpec.step ls (.ofList v lst)) := by
  refine agrees_create hh fun hv => ?_
  obtain ⟨h', vec', hok, hsz, -, hs, hc, hm, -⟩ :=
    ofList_builds .empty hh.owned.fresh (show lst.length < 2 ^ 31 by omega) (hg hv)
  exact ⟨h', vec', hok, hs, elements_of_filled hsz hc (le_refl _) fun _ _ => rfl, hm⟩

theorem agrees_copy (hh : Holds s ls) (hg : Granted mem s (.copy v other)) :
    Agrees (step mem s (.copy v other)) (ListSpec.step ls (.copy v other)) := by
  cases ho : s.vecs other with
  | none =>
    simp only [step, ListSpec.step, ho, hh.of_none ho]
    exact hh.same _
  | some vec =>
    obtain ⟨xs, hxs, hso, heo⟩ := hh.of_some ho
    simp only [step, ListSpec.step, ho, hxs]
    refine agrees_create hh fun hv => ?_
    obtain ⟨h', vec', hok, hsz, -, hs, hc, hm, -⟩ := copy_builds .empty hh.owned.fresh hso (hg vec hv ho)
    refine ⟨h', vec', hok, hs, elements_of_filled ?_ hc ?_ heo.value, hm⟩
    · rw [hsz]
      exact heo.length
    · rw [heo.rounds_eq]

theorem agrees_move (hh : Holds s ls) :
    Agrees (step mem s (.move v other)) (ListSpec.step ls (.move v other)) := by
  cases ho : s.vecs other with
  | none =>
    simp only [step, ListSpec.step, ho, hh.of_none ho]
    exact hh.same _
  | some vec =>
    obtain ⟨xs, hxs, -, -⟩ := hh.of_some ho
    cases hv : s.vecs v with
    | some vec' =>
      obtain ⟨xs', hxs', -, -⟩ := hh.of_some hv
      simp only [step, ListSpec.step, ho, hv, hxs, hxs']
      exact hh.same _
    | none =>
      have hne : v ≠ other := by
        rintro rfl
        rw [hv] at ho
        cases ho
      have hpass := hh.pass hne (by rw [State.vecAt_of_none hv]; rfl)
      rw [State.vecAt_of_alive ho, listAt_of_alive hxs] at hpass
      have hcreate : create s v (Vector.move vec) = (.ok none, ⟨s.heap, Function.update s.vecs v (some vec)⟩) :=
        create_ok hv rfl
      simp only [step, ListSpec.step, ho, hv, hxs, hh.of_none hv, hcreate]
      exact ⟨rfl, hpass⟩

theorem agrees_copyAssign (hh : Holds s ls) (hg : Granted mem s (.copyAssign v other)) :
    Agrees (step mem s (.copyAssign v other)) (ListSpec.step ls (.copyAssign v other)) := by
  cases ho : s.vecs other with
  | none =>
    simp only [step, ListSpec.step, ho, hh.of_none ho]
    exact hh.same _
  | some o =>
    obtain ⟨xs, hxs, hso, heo⟩ := hh.of_some ho
    simp only [step, ListSpec.step, ho, hxs]
    by_cases heq : v = other
    · subst heq
      rw [if_pos rfl, assign_alive hxs, ← hxs, Function.update_eq_self]
      exact hh.same _
    · rw [if_neg heq]
      cases hv : s.vecs v with
      | none =>
        rw [callOn_none hv]
        unfold ListSpec.assign
        rw [hh.of_none hv]
        exact hh.same _
      | some vec =>
        obtain ⟨xs', hxs', hs, -⟩ := hh.of_some hv
        rw [assign_alive hxs']
        have hapart := hh.owned.apart_alive hv ho heq
        obtain ⟨h', vec', hok, hsz, -, hs', hc, hm, -⟩ :=
          copyAssign_builds hh.owned.fresh hs hso hapart (hg vec o hv ho heq)
        refine agrees_callOn hh hv (noAnswer_ok hok) hs' (elements_of_filled ?_ hc ?_ heo.value) hm
        · rw [hsz]
          exact heo.length
        · rw [heo.rounds_eq]

theorem agrees_moveAssign (hh : Holds s ls) :
    Agrees (step mem s (.moveAssign v other)) (ListSpec.step ls (.moveAssign v other)) := by
  cases ho : s.vecs other with
  | none =>
    simp only [step, ListSpec.step, ho, hh.of_none ho]
    exact hh.same _
  | some o =>
    obtain ⟨xs, hxs, -, -⟩ := hh.of_some ho
    cases hv : s.vecs v with
    | none =>
      simp only [step, ListSpec.step, ho, hxs, hv, hh.of_none hv]
      exact hh.same _
    | some vec =>
      obtain ⟨xs', hxs', -, -⟩ := hh.of_some hv
      simp only [step, ListSpec.step, ho, hxs, hv, hxs']
      by_cases heq : v = other
      · rw [if_pos heq, if_pos heq]
        exact hh.same _
      · rw [if_neg heq, if_neg heq]
        -- give the block of `v` back, then hand over that of `other`
        have hrel := hh.released v (some .empty) (some []) rfl rfl rfl
        have hpass := hrel.pass heq (by rw [State.vecAt_update, Function.update_self]; rfl)
        rw [State.vecAt_update, Function.update_of_ne (Ne.symm heq), State.vecAt_of_alive ho, listAt_update,
          Function.update_of_ne (Ne.symm heq), listAt_of_alive hxs, Function.update_idem, Function.update_idem,
          State.vecAt_of_alive hv] at hpass
        rw [callOn_moveAssign hv]
        exact ⟨rfl, hpass⟩

theorem agrees_destroy (hh : Holds s ls) :
    Agrees (step mem s (.destroy v)) (ListSpec.step ls (.destroy v)) := by
  simp only [step, ListSpec.step]
  cases hv : s.vecs v with
  | none =>
    rw [callOn_none hv]
    dsimp only
    rw [← hv, ← hh.of_none hv, Function.update_eq_self, Function.update_eq_self]
    exact hh.same _
  | some vec =>
    have hrel := hh.released v none none rfl rfl rfl
    rw [State.vecAt_of_alive hv] at hrel
    rw [callOn_destroy hv]
    dsimp only
    rw [Function.update_idem]
    exact ⟨rfl, hrel⟩

theorem agrees_reserve {newCap : Int32} (hh : Holds s ls) (hg : Granted mem s (.reserve v newCap)) :
    Agrees (step mem s (.reserve v newCap)) (ListSpec.step ls (.reserve v newCap)) := by
  simp only [step, ListSpec.step]
  cases hv : s.vecs v with
  | none =>
    rw [callOn_none hv]
    exact hh.same _
  | some vec =>
    obtain ⟨xs, hxs, hs, he⟩ := hh.of_some hv
    by_cases hle : newCap ≤ vec.cap
    · exact agrees_unchanged hh hv hxs (noAnswer_ok (reserve_small hle)) hs he
        (Moves.of_read hh.owned.fresh (Becomes.refl _) _)
    · obtain ⟨h', hok, hs', hc, hm, -⟩ :=
        reserve_grows hh.owned.fresh hs hle (hg vec hv (Int32.not_le.mp hle))
      refine agrees_unchanged hh hv hxs (noAnswer_ok hok) hs' (elements_of_filled he.length hc ?_ he.value) hm
      rw [he.rounds_eq]

/-- Doubling is growth while the result is an `int`. -/
theorem grown_gt {cap : Int32} (h0 : 0 ≤ cap.toInt) (hcap : cap.toInt ≤ 2 ^ 30 - 1) :
    cap.toInt < (grown cap).toInt ∧ ¬ grown cap ≤ cap := by
  have hlt := (lt_grown_iff cap).mpr (.inl ⟨h0, by omega⟩)
  refine ⟨hlt, ?_⟩
  rw [Int32.le_iff_toInt_le]
  omega

omit [Inhabited α] in
/-- **`push_back`**, as far as the assignment: the list and one slot more. -/
theorem pushBack_assigns {x : α} (hh : Holds s ls) (hv : s.vecs v = some vec) (hls : ls v = some xs)
    (hcap : vec.cap.toInt ≤ 2 ^ 30 - 1) (hg : Granted mem s (.pushBack v x)) :
    ∃ h' vec', Vector.pushBack mem (fun h => (some x, h)) (s.heap, vec) = .ok () (h', vec') ∧ Sound h' vec' ∧
      vec'.sz.toInt = xs.length + 1 ∧ Moves s.heap vec h' vec' ∧
      ∃ slots : ℕ → Slot α, (∀ i < xs.length, (slots i).value = xs[i]?) ∧
        (Neat s.heap vec → (slots xs.length).constructed = false) ∧
        ∀ i, content h' vec' i = if i = xs.length then (slots i).assigned (some x) else slots i := by
  obtain ⟨xs', hxs', hs, he⟩ := hh.of_some hv
  rw [hls] at hxs'
  cases hxs'
  have h0 := hs.nonneg
  have hle := hs.le
  have hlen := he.length
  by_cases hfull : vec.sz = vec.cap
  · obtain ⟨hlt, hgt⟩ := grown_gt (by omega) hcap
    obtain ⟨h1, hres, hs1, hc1, hm1, -⟩ :=
      reserve_grows hh.owned.fresh hs hgt (hg vec hv hfull (Int32.not_le.mp hgt))
    set vec1 : Vec := { vec with elem := some s.heap.next, cap := grown vec.cap } with hvec1
    have hroom : vec1.sz.toInt < vec1.cap.toInt := by
      show vec.sz.toInt < (grown vec.cap).toInt
      omega
    obtain ⟨hs2, hslots, hm2⟩ := assign_end (some x) hm1.fresh hs1 hroom
    have hsize : rounds vec1.sz = xs.length := he.rounds_eq
    refine ⟨_, _, pushBack_full hfull hres, hs2, (toInt_succ hroom).trans (by rw [hlen]), hm1.trans hm2, content h1 vec1,
      ?_, ?_, ?_⟩
    · intro i hi
      rw [hc1]
      dsimp only
      rw [if_pos (by rw [he.rounds_eq]; exact hi)]
      exact he.value i hi
    · intro _
      rw [hc1]
      dsimp only
      rw [if_neg (by rw [he.rounds_eq]; exact Nat.lt_irrefl _)]
      rfl
    · intro i
      rw [hslots i, hsize]
  · have hroom : vec.sz.toInt < vec.cap.toInt := by
      have hne : vec.sz.toInt ≠ vec.cap.toInt := fun h => hfull (Int32.toInt_inj.mp h)
      omega
    obtain ⟨hs', hslots, hm⟩ := assign_end (some x) hh.owned.fresh hs hroom
    refine ⟨_, _, pushBack_room hfull, hs', (toInt_succ hroom).trans (by rw [hlen]), hm, content s.heap vec, he.value, ?_,
      ?_⟩
    · intro hneat
      rw [hneat, he.rounds_eq]
      exact decide_eq_false (Nat.lt_irrefl _)
    · intro i
      rw [hslots i, he.rounds_eq]

/-- `push_back` of a type whose objects an assignment makes. -/
theorem agrees_pushBack {x : α} (himplicit : ImplicitLifetime.implicit α = true) (hh : Holds s ls)
    (hcap : ∀ vec, s.vecs v = some vec → vec.cap.toInt ≤ 2 ^ 30 - 1) (hg : Granted mem s (.pushBack v x)) :
    Agrees (step mem s (.pushBack v x)) (ListSpec.step ls (.pushBack v x)) := by
  cases hv : s.vecs v with
  | none =>
    simp only [step, ListSpec.step, hh.of_none hv, callOn_none hv]
    exact hh.same _
  | some vec =>
    obtain ⟨xs, hxs, -, -⟩ := hh.of_some hv
    simp only [step, ListSpec.step, hxs, assign_alive hxs]
    obtain ⟨h', vec', hok, hs, hsz, hm, slots, hold, -, hslots⟩ := pushBack_assigns hh hv hxs (hcap vec hv) hg
    refine agrees_callOn hh hv (noAnswer_ok hok) hs ⟨?_, ?_⟩ hm
    · rw [hsz, List.length_append, List.length_singleton]
      rfl
    · intro i hi
      rw [List.length_append, List.length_singleton] at hi
      rw [hslots i]
      by_cases hlast : i = xs.length
      · rw [if_pos hlast, hlast, List.getElem?_concat_length]
        unfold Slot.assigned
        rw [himplicit, Bool.or_true, if_pos rfl]
      · rw [if_neg hlast, hold i (by omega), List.getElem?_append_left (by omega)]

theorem agrees_index {i : Int32} (hh : Holds s ls) :
    Agrees (step mem s (.index v i)) (ListSpec.step ls (.index v i)) := by
  cases hv : s.vecs v with
  | none =>
    simp only [step, ListSpec.step, hh.of_none hv, callOn_none hv]
    exact hh.same _
  | some vec =>
    obtain ⟨xs, hxs, hs, he⟩ := hh.of_some hv
    have hlen := he.length
    simp only [step, ListSpec.step, hxs]
    by_cases hout : i < 0 ∨ vec.sz ≤ i
    · have hspec : ¬ (0 ≤ i.toInt ∧ i.toInt < xs.length) := by
        rw [Int32.lt_iff_toInt_lt, Int32.le_iff_toInt_le, Int32.toInt_zero] at hout
        omega
      rw [callOn_error hv (index_throws hout), if_neg hspec]
      exact hh.same _
    · obtain ⟨h', hok, hread⟩ := index_reads hs hout
      rw [Int32.lt_iff_toInt_lt, Int32.le_iff_toInt_le, Int32.toInt_zero] at hout
      have hspec : 0 ≤ i.toInt ∧ i.toInt < xs.length := by omega
      have hm := Moves.of_read hh.owned.fresh hread vec
      have hsame : ∀ b, vec.elem = some b → h'.block b = s.heap.block b := fun b _ => by rw [hread.block]
      rw [he.value (rounds i) (by unfold rounds; omega)] at hok
      rw [if_pos hspec]
      exact agrees_unchanged hh hv hxs hok (hs.congr hsame) (he.congr (content_congr hsame) rfl) hm

end Calls

/-! ## Runs -/

section Runs

variable [Inhabited α] [ImplicitLifetime α] {s : State α} {ls : Lists α} {sizeOf : ℕ}

/-- A call that the refinement covers: no allocation fails in it, the capacities it starts with and that of a
list it is given can be doubled, and a value it appends is not an element of the vector. -/
structure Within (sizeOf : ℕ) (s : State α) (call : Call α) : Prop where
  granted : Granted ⟨sizeOf, call.2⟩ s call.1
  cap : ∀ v vec, s.vecs v = some vec → vec.cap.toInt ≤ 2 ^ 30 - 1
  list : ∀ v lst, call.1 = .ofList v lst → lst.length ≤ 2 ^ 30 - 1
  outside : ∀ v i, call.1 ≠ .pushBackOwn v i

/-- The call is no `push_back`. -/
def NoPush (s : State α) (op : Op α) : Prop := ∀ v x, op = .pushBack v x → s.vecs v = none

/-- **A call answers what the list answers**, and its vectors hold the lists. -/
theorem holds_step {call : Call α} (hh : Holds s ls) (hw : Within sizeOf s call)
    (hpush : ImplicitLifetime.implicit α = true ∨ NoPush s call.1) :
    Agrees (step ⟨sizeOf, call.2⟩ s call.1) (ListSpec.step ls call.1) := by
  obtain ⟨op, newOk⟩ := call
  cases op with
  | default v => exact agrees_default hh
  | sized v sz => exact agrees_sized hh hw.granted
  | ofList v lst => exact agrees_ofList hh (hw.list v lst rfl) hw.granted
  | copy v other => exact agrees_copy hh hw.granted
  | move v other => exact agrees_move hh
  | copyAssign v other => exact agrees_copyAssign hh hw.granted
  | moveAssign v other => exact agrees_moveAssign hh
  | pushBack v x =>
    rcases hpush with himplicit | hdead
    · exact agrees_pushBack himplicit hh (hw.cap v) hw.granted
    · have hv : s.vecs v = none := hdead v x rfl
      simp only [step, ListSpec.step, hh.of_none hv, callOn_none hv]
      exact hh.same _
  | pushBackOwn v i => exact absurd rfl (hw.outside v i)
  | reserve v newCap => exact agrees_reserve hh hw.granted
  | index v i => exact agrees_index hh
  | destroy v => exact agrees_destroy hh

omit [Inhabited α] [ImplicitLifetime α] in
/-- The calls of the domain keep the lifetimes in order, `push_back` apart. -/
theorem Within.harmless {call : Call α} (hw : Within sizeOf s call) (hpush : NoPush s call.1) :
    Harmless ⟨sizeOf, call.2⟩ s call.1 := by
  obtain ⟨op, newOk⟩ := call
  cases op with
  | pushBack v x =>
    intro vec hv
    rw [hpush v x rfl] at hv
    cases hv
  | pushBackOwn v i => exact absurd rfl (hw.outside v i)
  | copyAssign v other => exact hw.granted
  | ofList v lst =>
    intro _
    have hlen := hw.list v lst rfl
    exact .inl (by omega)
  | _ => trivial

theorem stateAfter_concat (sizeOf : ℕ) (pre : List (Call α)) (call : Call α) :
    stateAfter sizeOf (pre ++ [call]) = (step ⟨sizeOf, call.2⟩ (stateAfter sizeOf pre) call.1).2 := by
  unfold stateAfter
  rw [List.foldl_append]
  rfl

omit [ImplicitLifetime α] in
theorem ListSpec.after_concat (pre : List (Op α)) (op : Op α) :
    ListSpec.after (pre ++ [op]) = (ListSpec.step (ListSpec.after pre) op).2 := by
  unfold ListSpec.after
  rw [List.foldl_append]
  rfl

theorem holds_run {calls : List (Call α)}
    (hall : ∀ pre call post, calls = pre ++ call :: post → Within sizeOf (stateAfter sizeOf pre) call)
    (hpush : ImplicitLifetime.implicit α = true ∨
      ∀ pre call post, calls = pre ++ call :: post → NoPush (stateAfter sizeOf pre) call.1) :
    ∀ pre post, calls = pre ++ post → Holds (stateAfter sizeOf pre) (ListSpec.after (pre.map Prod.fst)) := by
  intro pre
  induction pre using List.reverseRecOn with
  | nil => exact fun _ _ => holds_init
  | append_singleton pre call ih =>
    intro post heq
    rw [List.append_assoc, List.singleton_append] at heq
    have hstep := holds_step (ih (call :: post) heq) (hall pre call post heq)
      (hpush.imp_right fun h => h pre call post heq)
    rw [stateAfter_concat, List.map_append, List.map_singleton, ListSpec.after_concat]
    exact hstep.2

/-- What a state of a run owes to the lists: the same vectors are alive, the elements `[0, sz)` of each are those of
its list, the size lies between 0 and the capacity, no access went out of a block, and `operator[]` throws
exactly outside `[0, sz)`. -/
structure Refines (sizeOf : ℕ) (s : State α) (ls : Lists α) : Prop where
  alive : ∀ v, (s.vecs v).isSome = (ls v).isSome
  elements : ∀ v vec xs, s.vecs v = some vec → ls v = some xs →
    vec.sz.toInt = xs.length ∧ ∀ i < xs.length, (content s.heap vec i).value = xs[i]?
  size : ∀ v vec, s.vecs v = some vec → 0 ≤ vec.sz.toInt ∧ vec.sz.toInt ≤ vec.cap.toInt
  inside : s.heap.strays = 0
  index : ∀ v vec, s.vecs v = some vec → ∀ (i : Int32) (newOk : Bool),
    (step ⟨sizeOf, newOk⟩ s (.index v i)).1 = .error .outOfRange ↔ ¬ (0 ≤ i.toInt ∧ i.toInt < vec.sz.toInt)

theorem Holds.refines (hh : Holds s ls) : Refines sizeOf s ls := by
  refine ⟨hh.alive, ?_, ?_, hh.inside, ?_⟩
  · intro v vec xs hv hxs
    obtain ⟨xs', hxs', -, he⟩ := hh.of_some hv
    rw [hxs] at hxs'
    cases hxs'
    exact ⟨he.length, he.value⟩
  · intro v vec hv
    obtain ⟨-, -, hs, -⟩ := hh.of_some hv
    exact ⟨hs.nonneg, hs.le⟩
  · intro v vec hv i newOk
    obtain ⟨xs, hxs, -, he⟩ := hh.of_some hv
    rw [(agrees_index hh).1, he.length]
    simp only [ListSpec.step, hxs]
    split_ifs with hin
    · simp [hin]
    · simp [hin]

/-- **After a `push_back` of a class type** the new element is no object, and nothing is known of its value. -/
theorem not_refines_push {v : ℕ} {x : α} {newOk : Bool} (hclass : ImplicitLifetime.implicit α = false) (ht : Tidy s)
    (hh : Holds s ls) (hw : Within sizeOf s (.pushBack v x, newOk)) (hv : s.vecs v ≠ none) :
    ¬ Refines sizeOf (step ⟨sizeOf, newOk⟩ s (.pushBack v x)).2 (ListSpec.step ls (.pushBack v x)).2 := by
  obtain ⟨vec, hvec⟩ := Option.ne_none_iff_exists'.mp hv
  obtain ⟨xs, hxs, -, -⟩ := hh.of_some hvec
  obtain ⟨h', vec', hok, -, -, -, slots, -, hraw, hslots⟩ :=
    pushBack_assigns hh hvec hxs (hw.cap v vec hvec) hw.granted
  simp only [step, ListSpec.step, hxs, assign_alive hxs, callOn_ok hvec (noAnswer_ok hok)]
  intro href
  obtain ⟨-, hvalue⟩ :=
    href.elements v vec' (xs ++ [x]) (Function.update_self ..) (Function.update_self ..)
  have hlast := hvalue xs.length (by rw [List.length_append, List.length_singleton]; omega)
  rw [hslots, if_pos rfl, List.getElem?_concat_length] at hlast
  unfold Slot.assigned at hlast
  rw [hraw (ht.of_some hvec).2, hclass] at hlast
  cases hlast

/-- In a run that does what the lists do, no element of a class type is pushed. -/
theorem noPush_of_refines {calls : List (Call α)} (hclass : ImplicitLifetime.implicit α = false)
    (hall : ∀ pre call post, calls = pre ++ call :: post → Within sizeOf (stateAfter sizeOf pre) call)
    (href : ∀ pre post, calls = pre ++ post →
      Refines sizeOf (stateAfter sizeOf pre) (ListSpec.after (pre.map Prod.fst))) :
    ∀ pre call post, calls = pre ++ call :: post → NoPush (stateAfter sizeOf pre) call.1 := by
  -- a first `push_back` would come in a state where the lifetimes are in order
  have hrun : ∀ pre post, calls = pre ++ post → Tidy (stateAfter sizeOf pre) ∧
      Holds (stateAfter sizeOf pre) (ListSpec.after (pre.map Prod.fst)) ∧
      ∀ call rest, post = call :: rest → NoPush (stateAfter sizeOf pre) call.1 := by
    intro pre
    induction pre using List.reverseRecOn with
    | nil =>
      intro post _
      refine ⟨tidy_init, holds_init, ?_⟩
      intro call rest _ v x _
      rfl
    | append_singleton pre call ih =>
      intro post heq
      have heq' := heq
      rw [List.append_assoc, List.singleton_append] at heq'
      obtain ⟨ht, hh, hpush⟩ := ih (call :: post) heq'
      have hw := hall pre call post heq'
      have hnow := hpush call post rfl
      have ht' := tidy_step ht (hw.harmless hnow)
      have hh' := (holds_step hh hw (.inr hnow)).2
      rw [← stateAfter_concat] at ht' hh'
      rw [← ListSpec.after_concat, ← List.map_singleton, ← List.map_append] at hh'
      refine ⟨ht', hh', ?_⟩
      rintro next rest rfl v x hop
      by_contra hv
      have hw' := hall (pre ++ [call]) next rest heq
      have hnext := href (pre ++ [call] ++ [next]) rest (by rw [heq]; simp)
      rw [stateAfter_concat, List.map_append, List.map_singleton, ListSpec.after_concat] at hnext
      obtain ⟨op, newOk⟩ := next
      cases hop
      exact not_refines_push hclass ht' hh' hw' hv hnext
  intro pre call post heq
  exact (hrun pre (call :: post) heq).2.2 call post rfl

/-- **A vector is a list.**  Take a run of calls on any number of vectors in which no allocation fails and no capacity
exceeds `2^30 - 1`.  Every call answers what the lists answer, and every state holds the lists, if and only if no
element of a class type is pushed: the slot behind the last element is raw, and `push_back` assigns to it. -/
theorem vector_refines_list_iff (sizeOf : ℕ) (calls : List (Call α))
    (hall : ∀ pre call post, calls = pre ++ call :: post → Within sizeOf (stateAfter sizeOf pre) call) :
    ((∀ pre post, calls = pre ++ post → Refines sizeOf (stateAfter sizeOf pre) (ListSpec.after (pre.map Prod.fst))) ∧
      ∀ pre call post, calls = pre ++ call :: post →
        (step ⟨sizeOf, call.2⟩ (stateAfter sizeOf pre) call.1).1 =
          (ListSpec.step (ListSpec.after (pre.map Prod.fst)) call.1).1) ↔
    (ImplicitLifetime.implicit α = true ∨
      ∀ pre call post, calls = pre ++ call :: post → NoPush (stateAfter sizeOf pre) call.1) := by
  constructor
  · rintro ⟨href, -⟩
    cases hkind : ImplicitLifetime.implicit α with
    | true => exact .inl rfl
    | false => exact .inr (noPush_of_refines hkind hall href)
  · intro hpush
    refine ⟨fun pre post heq => (holds_run hall hpush pre post heq).refines, ?_⟩
    intro pre call post heq
    exact (holds_step (holds_run hall hpush pre (call :: post) heq) (hall pre call post heq)
      (hpush.imp_right fun h => h pre call post heq)).1

end Runs

section Examples

/-- A vector of one element grows by a second one, and is copied. -/
def growAndCopy : List (Call ℕ) := [(.ofList 0 [7], true), (.pushBack 0 8, true), (.copy 1 0, true)]

theorem within_growAndCopy : ∀ pre call post, growAndCopy = pre ++ call :: post →
    Within 8 (stateAfter 8 pre) call := by
  intro pre call post heq
  rcases pre with _ | ⟨c1, pre⟩
  · cases heq
    refine ⟨fun _ => .inr ⟨by decide, rfl⟩, (fun v vec hv => by cases hv), ?_, fun v i h => by cases h⟩
    rintro v lst ⟨⟩
    decide
  · rcases pre with _ | ⟨c2, pre⟩
    · cases heq
      refine ⟨?_, ?_, (fun v lst h => by cases h), fun v i h => by cases h⟩
      · rintro vec ⟨⟩ - -
        exact .inr ⟨by decide, rfl⟩
      · intro v vec hv
        rcases v with _ | v
        · cases hv
          decide
        · cases hv
    · rcases pre with _ | ⟨c3, pre⟩
      · cases heq
        refine ⟨?_, ?_, (fun v lst h => by cases h), fun v i h => by cases h⟩
        · rintro vec - ⟨⟩
          exact .inr ⟨by decide, rfl⟩
        · intro v vec hv
          rcases v with _ | v
          · cases hv
            decide
          · cases hv
      · cases pre <;> cases heq

theorem growAndCopy_refines :
    Refines 8 (stateAfter 8 growAndCopy) (ListSpec.after (growAndCopy.map Prod.fst)) ∧
      listAt (ListSpec.after (growAndCopy.map Prod.fst)) 1 = [7, 8] :=
  ⟨((vector_refines_list_iff 8 growAndCopy within_growAndCopy).mpr (.inl rfl)).1 growAndCopy [] (List.append_nil _).symm,
    by decide⟩

/-- A `std::string` is pushed on an empty vector. -/
def pushString : List (Call String) := [(.default 0, true), (.pushBack 0 "x", true)]

/-- The allocator refuses nothing, and yet the vector does not hold the string. -/
theorem pushString_lost : (∀ pre call post, pushString = pre ++ call :: post → Within 32 (stateAfter 32 pre) call) ∧
    ¬ Refines 32 (stateAfter 32 pushString) (ListSpec.after (pushString.map Prod.fst)) := by
  constructor
  · intro pre call post heq
    rcases pre with _ | ⟨c1, pre⟩
    · cases heq
      exact ⟨trivial, (fun v vec hv => by cases hv), (fun v lst h => by cases h), fun v i h => by cases h⟩
    · rcases pre with _ | ⟨c2, pre⟩
      · cases heq
        refine ⟨?_, ?_, (fun v lst h => by cases h), fun v i h => by cases h⟩
        · rintro vec ⟨⟩ - -
          exact .inr ⟨by decide, rfl⟩
        · intro v vec hv
          rcases v with _ | v
          · cases hv
            decide
          · cases hv
      · cases pre <;> cases heq
  · intro href
    obtain ⟨-, hvalue⟩ := href.elements 0 _ _ rfl rfl
    have hlast := hvalue 0 (by decide)
    revert hlast
    decide

end Examples

end Journey.Containers
