import Journey.Containers.VectorCalls
import Journey.Lib.Machine

/-!
# Journey.Containers.VectorLifetimes — which slots of a vector's block are objects

* `Tidy s`: in every vector exactly the elements are objects, every block that was not given back belongs to a
  vector, and no rule of lifetimes or of the heap was broken on the way.
* `Harmless`: the calls that keep a program tidy.  `push_back` is not one of them: it assigns to a slot behind
  the last element, where no object is, unless its `reserve` throws first.  A copy assignment whose allocation
  throws leaves a vector that has given its block back.
* `tidy_of_harmless`: every state of a run of harmless calls is tidy.
-/

namespace Journey.Containers

variable {α : Type}

/-! ## Tidy programs -/

section Tidiness

variable {s : State α} {h h' : BlockHeap α} {vec vec' : Vec} {v v' : ℕ} {o : Option Vec}

/-- Exactly the elements of each vector are objects, every block has an owner, and no rule was broken. -/
structure Tidy (s : State α) : Prop where
  owned : Owned s
  neat : ∀ v, Neat s.heap (s.vecAt v)
  owner : ∀ b, s.heap.block b ≠ none → ∃ v, (s.vecAt v).elem = some b
  faults : s.heap.faults = []

theorem neat_empty (h : BlockHeap α) : Neat h .empty := fun _ => rfl

theorem neat_of_filled {f : ℕ → Option α} (hc : content h vec = filled (rounds vec.sz) f) : Neat h vec := by
  intro i
  rw [hc]
  unfold filled
  by_cases hi : i < rounds vec.sz
  · rw [if_pos hi, decide_eq_true hi]
  · rw [if_neg hi, decide_eq_false hi]
    rfl

theorem Neat.congr (hn : Neat h vec) (hc : content h' vec = content h vec) : Neat h' vec := by
  intro i
  rw [hc]
  exact hn i

theorem tidy_init : Tidy (State.init : State α) :=
  ⟨owned_init, fun _ => neat_empty _, (fun _ hlive => absurd rfl hlive), rfl⟩

/-- A vector that is alive. -/
theorem Tidy.of_some (ht : Tidy s) (hv : s.vecs v = some vec) : Sound s.heap vec ∧ Neat s.heap vec := by
  have hs := ht.owned.sound v
  have hn := ht.neat v
  rw [State.vecAt_of_alive hv] at hs hn
  exact ⟨hs, hn⟩

/-- **A call on one vector** that leaves it neat and breaks no rule. -/
theorem Tidy.update (ht : Tidy s) (hm : Moves s.heap (s.vecAt v) h' (o.getD .empty))
    (hs : Sound h' (o.getD .empty)) (hn : Neat h' (o.getD .empty)) (hf : h'.faults = s.heap.faults) :
    Tidy ⟨h', Function.update s.vecs v o⟩ := by
  refine ⟨ht.owned.update hm hs, ?_, ?_, hf.trans ht.faults⟩
  · intro u
    rw [State.vecAt_update]
    by_cases hu : u = v
    · rw [hu, Function.update_self]
      exact hn
    · rw [Function.update_of_ne hu]
      exact (ht.neat u).congr (ht.owned.content_other hm.other hu)
  · intro b hlive
    rw [State.vecAt_update]
    rcases hm.kept b hlive with hown | ⟨-, hne, hold⟩
    · exact ⟨v, by rw [Function.update_self]; exact hown⟩
    · obtain ⟨u, hu⟩ := ht.owner b hold
      have huv : u ≠ v := by
        rintro rfl
        exact hne hu
      exact ⟨u, by rw [Function.update_of_ne huv]; exact hu⟩

/-- Handing the block of `v'` over to `v`, which has none. -/
theorem Tidy.pass (ht : Tidy s) (hne : v ≠ v') (hv : (s.vecAt v).elem = none) :
    Tidy ⟨s.heap, Function.update (Function.update s.vecs v (some (s.vecAt v'))) v' (some .empty)⟩ := by
  refine ⟨ht.owned.pass hne hv, ?_, ?_, ht.faults⟩
  · intro u
    rw [State.vecAt_update ⟨s.heap, Function.update s.vecs v (some (s.vecAt v'))⟩ v', State.vecAt_update s v s.heap]
    by_cases hu' : u = v'
    · rw [hu', Function.update_self]
      exact neat_empty _
    · rw [Function.update_of_ne hu']
      by_cases hu : u = v
      · rw [hu, Function.update_self]
        exact ht.neat v'
      · rw [Function.update_of_ne hu]
        exact ht.neat u
  · intro b hlive
    rw [State.vecAt_update ⟨s.heap, Function.update s.vecs v (some (s.vecAt v'))⟩ v', State.vecAt_update s v s.heap]
    obtain ⟨u, hu⟩ := ht.owner b hlive
    by_cases hu' : u = v'
    · refine ⟨v, ?_⟩
      rw [Function.update_of_ne hne, Function.update_self, ← hu']
      exact hu
    · have huv : u ≠ v := by
        rintro rfl
        rw [hv] at hu
        cases hu
      exact ⟨u, by rw [Function.update_of_ne hu', Function.update_of_ne huv]; exact hu⟩

/-- The vector without its elements and its block. -/
theorem Tidy.released (ht : Tidy s) (v : ℕ) (ho : o.getD .empty = .empty) :
    Tidy ⟨releaseHeap s.heap (s.vecAt v), Function.update s.vecs v o⟩ := by
  have hrel := becomes_release (ht.owned.sound v)
  refine ht.update ?_ ?_ ?_ (hrel.faults (ht.neat v))
  · rw [ho]
    exact Moves.release ht.owned.fresh hrel
  · rw [ho]
    exact sound_empty _
  · rw [ho]
    exact neat_empty _

/-- A constructor that throws at once, or builds a vector. -/
theorem tidy_create {call : VecM α Unit} (ht : Tidy s)
    (hcall : s.vecs v = none → (∃ e w, call (s.heap, .empty) = .error e (s.heap, w)) ∨
      ∃ h' vec', call (s.heap, .empty) = .ok () (h', vec') ∧ Sound h' vec' ∧ Neat h' vec' ∧
        Moves s.heap .empty h' vec' ∧ h'.faults = s.heap.faults) :
    Tidy (create s v call).2 := by
  cases hv : s.vecs v with
  | some vec =>
    rw [create_taken hv]
    exact ht
  | none =>
    rcases hcall hv with ⟨e, w, herr⟩ | ⟨h', vec', hok, hs, hn, hm, hf⟩
    · rw [create_error hv herr]
      exact ht
    · rw [create_ok hv hok]
      refine ht.update ?_ hs hn hf
      rw [State.vecAt_of_none hv]
      exact hm

/-- A call that leaves its vector neat. -/
theorem tidy_callOn {ask : VecM α (Option α)} {x : Option α} (ht : Tidy s) (hv : s.vecs v = some vec)
    (hok : ask (s.heap, vec) = .ok x (h', vec')) (hs : Sound h' vec') (hn : Neat h' vec')
    (hm : Moves s.heap vec h' vec') (hf : h'.faults = s.heap.faults) : Tidy (callOn s v ask).2 := by
  rw [callOn_ok hv hok]
  refine ht.update ?_ hs hn hf
  rw [State.vecAt_of_alive hv]
  exact hm

end Tidiness

/-! ## Harmless calls -/

section Harmlessness

variable {s : State α} {mem : Memory} {v other : ℕ}

/-- `push_back` throws before it assigns: the vector is full, and gets no larger block. -/
def PushThrows (mem : Memory) (vec : Vec) : Prop :=
  vec.sz = vec.cap ∧ vec.cap < grown vec.cap ∧ ¬ Grants mem (toSize (grown vec.cap))

/-- The calls that keep a program tidy. -/
def Harmless (mem : Memory) (s : State α) : Op α → Prop
  | .pushBack v _ => ∀ vec, s.vecs v = some vec → PushThrows mem vec
  | .pushBackOwn v i => ∀ vec, s.vecs v = some vec → i < rounds vec.sz → PushThrows mem vec
  | .copyAssign v other => ∀ vec o, s.vecs v = some vec → s.vecs other = some o → v ≠ other →
      Grants mem (toSize o.cap)
  | .ofList v lst => s.vecs v = none → lst.length < 2 ^ 31 ∨ ¬ Grants mem (toSize (Int32.ofNat lst.length))
  | _ => True

theorem tidy_pushBack [ImplicitLifetime α] (ht : Tidy s) {value : BlockHeap α → Option α × BlockHeap α}
    (hh : ∀ vec, s.vecs v = some vec → PushThrows mem vec) :
    Tidy (callOn s v (noAnswer (Vector.pushBack mem value))).2 := by
  cases hv : s.vecs v with
  | none =>
    rw [callOn_none hv]
    exact ht
  | some vec =>
    obtain ⟨hfull, hgt, hgr⟩ := hh vec hv
    rw [callOn_error hv (noAnswer_error (pushBack_fails hfull (Int32.not_le.mpr hgt) hgr))]
    exact ht

variable [Inhabited α] [ImplicitLifetime α]

theorem tidy_default (ht : Tidy s) : Tidy (step mem s (.default v)).2 := by
  refine tidy_create ht fun _ => .inr ⟨s.heap, .empty, default_eq mem, sound_empty _, neat_empty _, ?_, rfl⟩
  exact Moves.of_read ht.owned.fresh (Becomes.refl _) _

theorem tidy_sized (ht : Tidy s) (sz : Int32) : Tidy (step mem s (.sized v sz)).2 := by
  refine tidy_create ht fun _ => ?_
  by_cases hneg : sz < 0
  · exact .inl ⟨_, _, sized_negative hneg⟩
  · by_cases hgr : Grants mem (toSize sz)
    · right
      obtain ⟨h', vec', hok, hsz, -, hs, hc, hm, hf⟩ := sized_builds .empty ht.owned.fresh hneg hgr
      rw [← hsz] at hc
      exact ⟨h', vec', hok, hs, neat_of_filled hc, hm, hf⟩
    · exact .inl ⟨_, _, sized_fails hneg hgr⟩

theorem tidy_ofList {lst : List α} (ht : Tidy s) (hh : Harmless mem s (.ofList v lst)) :
    Tidy (step mem s (.ofList v lst)).2 := by
  refine tidy_create ht fun hv => ?_
  by_cases hgr : Grants mem (toSize (Int32.ofNat lst.length))
  · right
    have hlen := (hh hv).resolve_right (not_not_intro hgr)
    obtain ⟨h', vec', hok, hsz, -, hs, hc, hm, hf⟩ := ofList_builds .empty ht.owned.fresh hlen hgr
    have hrounds : rounds vec'.sz = lst.length := by
      unfold rounds
      omega
    rw [← hrounds] at hc
    exact ⟨h', vec', hok, hs, neat_of_filled hc, hm, hf⟩
  · exact .inl ⟨_, _, ofList_fails hgr⟩

theorem tidy_copy (ht : Tidy s) : Tidy (step mem s (.copy v other)).2 := by
  cases ho : s.vecs other with
  | none =>
    simp only [step, ho]
    exact ht
  | some o =>
    obtain ⟨hso, hno⟩ := ht.of_some ho
    simp only [step, ho]
    refine tidy_create ht fun _ => ?_
    by_cases hgr : Grants mem (toSize o.sz)
    · right
      obtain ⟨h', vec', hok, hsz, -, hs, hc, hm, hf⟩ := copy_builds .empty ht.owned.fresh hso hgr
      rw [← hsz] at hc
      exact ⟨h', vec', hok, hs, neat_of_filled hc, hm, hf hno⟩
    · exact .inl ⟨_, _, copy_fails hgr⟩

theorem tidy_move (ht : Tidy s) : Tidy (step mem s (.move v other)).2 := by
  cases ho : s.vecs other with
  | none =>
    simp only [step, ho]
    exact ht
  | some o =>
    cases hv : s.vecs v with
    | some vec =>
      simp only [step, ho, hv]
      exact ht
    | none =>
      have hne : v ≠ other := by
        rintro rfl
        rw [hv] at ho
        cases ho
      have hpass := ht.pass hne (by rw [State.vecAt_of_none hv]; rfl)
      rw [State.vecAt_of_alive ho] at hpass
      have hcreate : create s v (Vector.move o) = (.ok none, ⟨s.heap, Function.update s.vecs v (some o)⟩) :=
        create_ok hv rfl
      simp only [step, ho, hv, hcreate]
      exact hpass

theorem tidy_copyAssign (ht : Tidy s) (hh : Harmless mem s (.copyAssign v other)) :
    Tidy (step mem s (.copyAssign v other)).2 := by
  cases ho : s.vecs other with
  | none =>
    simp only [step, ho]
    exact ht
  | some o =>
    obtain ⟨hso, hno⟩ := ht.of_some ho
    simp only [step, ho]
    by_cases heq : v = other
    · rw [if_pos heq]
      exact ht
    · rw [if_neg heq]
      cases hv : s.vecs v with
      | none =>
        rw [callOn_none hv]
        exact ht
      | some vec =>
        obtain ⟨hs, hn⟩ := ht.of_some hv
        have hapart := ht.owned.apart_alive hv ho heq
        obtain ⟨h', vec', hok, hsz, -, hs', hc, hm, hf⟩ :=
          copyAssign_builds ht.owned.fresh hs hso hapart (hh vec o hv ho heq)
        rw [← hsz] at hc
        exact tidy_callOn ht hv (noAnswer_ok hok) hs' (neat_of_filled hc) hm (hf hn hno)

theorem tidy_moveAssign (ht : Tidy s) : Tidy (step mem s (.moveAssign v other)).2 := by
  cases ho : s.vecs other with
  | none =>
    simp only [step, ho]
    exact ht
  | some o =>
    cases hv : s.vecs v with
    | none =>
      simp only [step, ho, hv]
      exact ht
    | some vec =>
      simp only [step, ho, hv]
      by_cases heq : v = other
      · rw [if_pos heq]
        exact ht
      · rw [if_neg heq]
        -- give the block of `v` back, then hand over that of `other`
        have hpass := (ht.released v (o := some .empty) rfl).pass heq
          (by rw [State.vecAt_update, Function.update_self]; rfl)
        rw [State.vecAt_update, Function.update_of_ne (Ne.symm heq), State.vecAt_of_alive ho, Function.update_idem,
          State.vecAt_of_alive hv] at hpass
        rw [callOn_moveAssign hv]
        exact hpass

theorem tidy_pushBackOwn {i : ℕ} (ht : Tidy s) (hh : Harmless mem s (.pushBackOwn v i)) :
    Tidy (step mem s (.pushBackOwn v i)).2 := by
  cases hv : s.vecs v with
  | none =>
    simp only [step, hv]
    exact ht
  | some vec =>
    simp only [step, hv]
    split_ifs with hi
    · refine tidy_pushBack ht ?_
      intro vec' hv'
      rw [hv] at hv'
      cases hv'
      exact hh vec hv hi
    · exact ht

theorem tidy_reserve (ht : Tidy s) (newCap : Int32) : Tidy (step mem s (.reserve v newCap)).2 := by
  simp only [step]
  cases hv : s.vecs v with
  | none =>
    rw [callOn_none hv]
    exact ht
  | some vec =>
    obtain ⟨hs, hn⟩ := ht.of_some hv
    by_cases hle : newCap ≤ vec.cap
    · exact tidy_callOn ht hv (noAnswer_ok (reserve_small hle)) hs hn
        (Moves.of_read ht.owned.fresh (Becomes.refl _) _) rfl
    · by_cases hgr : Grants mem (toSize newCap)
      · obtain ⟨h', hok, hs', hc, hm, hf⟩ := reserve_grows ht.owned.fresh hs hle hgr
        exact tidy_callOn ht hv (noAnswer_ok hok) hs' (neat_of_filled hc) hm (hf hn)
      · rw [callOn_error hv (noAnswer_error (reserve_fails hle hgr))]
        exact ht

theorem tidy_index (ht : Tidy s) (i : Int32) : Tidy (step mem s (.index v i)).2 := by
  simp only [step]
  cases hv : s.vecs v with
  | none =>
    rw [callOn_none hv]
    exact ht
  | some vec =>
    obtain ⟨hs, hn⟩ := ht.of_some hv
    by_cases hout : i < 0 ∨ vec.sz ≤ i
    · rw [callOn_error hv (index_throws hout)]
      exact ht
    · obtain ⟨h', hok, hread⟩ := index_reads hs hout
      have hsame : ∀ b, vec.elem = some b → h'.block b = s.heap.block b := fun b _ => by rw [hread.block]
      exact tidy_callOn ht hv hok (hs.congr hsame) (hn.congr (content_congr hsame))
        (Moves.of_read ht.owned.fresh hread vec) (hread.faults hn)

theorem tidy_destroy (ht : Tidy s) : Tidy (step mem s (.destroy v)).2 := by
  simp only [step]
  cases hv : s.vecs v with
  | none =>
    rw [callOn_none hv]
    dsimp only
    rw [← hv, Function.update_eq_self]
    exact ht
  | some vec =>
    have hrel := ht.released v (o := none) rfl
    rw [State.vecAt_of_alive hv] at hrel
    rw [callOn_destroy hv]
    dsimp only
    rw [Function.update_idem]
    exact hrel

/-- **A harmless call keeps a program tidy.** -/
theorem tidy_step {op : Op α} (ht : Tidy s) (hh : Harmless mem s op) : Tidy (step mem s op).2 := by
  cases op with
  | default v => exact tidy_default ht
  | sized v sz => exact tidy_sized ht sz
  | ofList v lst => exact tidy_ofList ht hh
  | copy v other => exact tidy_copy ht
  | move v other => exact tidy_move ht
  | copyAssign v other => exact tidy_copyAssign ht hh
  | moveAssign v other => exact tidy_moveAssign ht
  | pushBack v x => exact tidy_pushBack ht hh
  | pushBackOwn v i => exact tidy_pushBackOwn ht hh
  | reserve v newCap => exact tidy_reserve ht newCap
  | index v i => exact tidy_index ht i
  | destroy v => exact tidy_destroy ht

end Harmlessness

/-! ## Runs -/

section Runs

/-- **Slot lifetimes.**  In a run of harmless calls every state is tidy: exactly the elements of each vector are
objects, objects begin and end once, and every block is given back once, with its size, by the vector that
owns it. -/
theorem tidy_of_harmless [Inhabited α] [ImplicitLifetime α] (sizeOf : ℕ) (calls : List (Call α))
    (hall : ∀ pre call post, calls = pre ++ call :: post →
      Harmless ⟨sizeOf, call.2⟩ (stateAfter sizeOf pre) call.1) :
    ∀ pre post, calls = pre ++ post → Tidy (stateAfter sizeOf pre) := by
  intro pre post heq
  refine foldl_along (P := fun s (call : Call α) => Harmless ⟨sizeOf, call.2⟩ s call.1) Tidy
    (fun s call ht hh => tidy_step ht hh) pre .init tidy_init ?_
  intro pre' call post' hpre
  exact hall pre' call (post' ++ post) (by rw [heq, hpre, List.append_assoc, List.cons_append])

/-- A vector is assigned a copy of another one, and cannot grow. -/
def assignAndFail : List (Call ℕ) :=
  [(.ofList 0 [7], true), (.default 1, true), (.copyAssign 1 0, true), (.pushBack 1 8, false)]

theorem tidy_assignAndFail : Tidy (stateAfter 8 assignAndFail) := by
  refine tidy_of_harmless 8 assignAndFail ?_ assignAndFail [] (List.append_nil _).symm
  intro pre call post heq
  rcases pre with _ | ⟨c1, pre⟩
  · cases heq
    exact fun _ => .inl (by decide)
  rcases pre with _ | ⟨c2, pre⟩
  · cases heq
    trivial
  rcases pre with _ | ⟨c3, pre⟩
  · cases heq
    rintro vec o - ho -
    cases ho
    exact .inr ⟨by decide, rfl⟩
  rcases pre with _ | ⟨c4, pre⟩
  · cases heq
    intro vec hv
    cases hv
    refine ⟨rfl, by decide, ?_⟩
    rintro (h0 | ⟨-, hnew⟩)
    · cases h0
    · cases hnew
  · cases pre <;> cases heq

/-- The first `push_back` assigns to a slot where no object is, and leaves it so. -/
theorem pushBack_into_raw :
    ¬ Tidy (stateAfter 8 [((.default 0 : Op ℕ), true), (.pushBack 0 5, true)]) ∧
      (stateAfter 8 [((.default 0 : Op ℕ), true), (.pushBack 0 5, true)]).heap.faults = [.assignRaw] ∧
      (stateAfter 8 [((.default 0 : Op ℕ), true), (.pushBack 0 5, true)]).vecs 0 = some ⟨some 0, 1, 1⟩ ∧
      ∃ blk, (stateAfter 8 [((.default 0 : Op ℕ), true), (.pushBack 0 5, true)]).heap.block 0 = some blk ∧
        (blk.slot 0).constructed = false := by
  refine ⟨fun ht => ?_, rfl, rfl, _, rfl, rfl⟩
  cases ht.faults

end Runs

end Journey.Containers
