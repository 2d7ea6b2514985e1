import Mathlib.Data.Multiset.Basic
import Mathlib.Data.List.Count
import Mathlib.Data.Set.Insert

/-!
# Journey.Lib.Bags — lists up to the order of their elements

Nothing here knows a program.  A computation yields a list or fails (`none`).

* `bag`, `anyOrder`: what is left of a list when its order does not matter.
* `selects`: the elements that pass a test which may fail.
* `filter_perm_filter_iff`, `flatMap_perm_flatMap_iff`: when two ways to pick elements give the same bag.
-/

namespace Journey

variable {α β : Type}

/-! ## Order -/

section Order

/-- The elements, without their order. -/
def bag (o : Option (List α)) : Option (Multiset α) := o.map Multiset.ofList

/-- The same elements, in any order. -/
def anyOrder (o : Option (List α)) : Set (Option (List α)) := { o' | bag o' = bag o }

variable {o o' : Option (List α)} {xs ys : List α}

@[simp] theorem bag_none : bag (none : Option (List α)) = none := rfl

@[simp] theorem bag_some_eq_some : bag (some xs) = bag (some ys) ↔ xs.Perm ys := by
  simp [bag]

theorem bag_eq_some {xs : List α} : bag o = bag (some xs) ↔ ∃ ys, o = some ys ∧ ys.Perm xs := by
  cases o <;> simp [bag]

@[simp] theorem bag_eq_none : bag o = none ↔ o = none := by
  unfold bag
  exact Option.map_eq_none_iff

theorem mem_anyOrder : o' ∈ anyOrder o ↔ bag o' = bag o := Iff.rfl

/-- Mapping a list in another order gives the same bag. -/
theorem bag_mapM_perm {f : α → Option β} {xs ys : List α} (h : xs.Perm ys) : bag (xs.mapM f) = bag (ys.mapM f) := by
  induction h with
  | nil => rfl
  | @cons x xs ys _ ih =>
    rw [List.mapM_cons, List.mapM_cons]
    cases f x with
    | none => rfl
    | some y =>
      cases hxs : xs.mapM f with
      | none =>
        rw [hxs, bag_none, eq_comm, bag_eq_none] at ih
        rw [ih]
      | some zs =>
        rw [hxs, eq_comm, bag_eq_some] at ih
        obtain ⟨ws, hws, hperm⟩ := ih
        rw [hws]
        exact bag_some_eq_some.mpr (hperm.symm.cons y)
  | swap x y xs =>
    simp only [List.mapM_cons]
    cases f x with
    | none => cases f y <;> rfl
    | some a =>
      cases f y with
      | none => rfl
      | some b =>
        cases xs.mapM f with
        | none => rfl
        | some zs => exact bag_some_eq_some.mpr (List.Perm.swap ..)
  | trans _ _ ih ih' => exact ih.trans ih'

theorem image_bag_anyOrder (o : Option (List α)) : Set.image bag (anyOrder o) = {bag o} := by
  ext p
  rw [Set.mem_image, Set.mem_singleton_iff]
  constructor
  · rintro ⟨o', ho', rfl⟩
    exact ho'
  · rintro rfl
    exact ⟨o, rfl, rfl⟩

end Order

/-! ## Tests that may fail -/

section Tests

variable {pass pass' : α → Option Bool} {xs ys : List α}

/-- The elements that pass, unless the test fails on one of them. -/
def selects (pass : α → Option Bool) (xs : List α) : Option (List α) :=
  if xs.all fun x => (pass x).isSome then some (xs.filter fun x => pass x == some true) else none

theorem selects_of_some (h : ∀ x ∈ xs, pass x ≠ none) :
    selects pass xs = some (xs.filter fun x => pass x == some true) := by
  unfold selects
  rw [if_pos]
  rw [List.all_eq_true]
  intro x hx
  exact Option.isSome_iff_ne_none.mpr (h x hx)

theorem selects_eq_none_iff : selects pass xs = none ↔ ∃ x ∈ xs, pass x = none := by
  unfold selects
  split_ifs with h
  · simp only [List.all_eq_true, Option.isSome_iff_ne_none] at h
    refine ⟨nofun, ?_⟩
    rintro ⟨x, hx, hnone⟩
    exact absurd hnone (h x hx)
  · refine ⟨fun _ => ?_, fun _ => rfl⟩
    simpa only [List.all_eq_true, not_forall, Option.isSome_iff_ne_none, not_not, exists_prop] using h

theorem selects_cons (x : α) (xs : List α) :
    selects pass (x :: xs) =
      (pass x).bind fun keep => (selects pass xs).map fun ys => if keep then x :: ys else ys := by
  unfold selects
  cases hx : pass x with
  | none => simp [hx]
  | some keep =>
    cases keep <;> by_cases hall : (xs.all fun x => (pass x).isSome) = true <;> simp [hx, hall]

/-- What passes was there. -/
theorem mem_of_selects {x : α} (h : selects pass xs = some ys) (hx : x ∈ ys) : x ∈ xs := by
  unfold selects at h
  split_ifs at h
  rw [← Option.some.inj h] at hx
  exact List.mem_of_mem_filter hx

/-- All the elements pass. -/
theorem selects_all (h : ∀ x ∈ xs, pass x = some true) : selects pass xs = some xs := by
  have hsome : ∀ x ∈ xs, pass x ≠ none := by
    intro x hx
    rw [h x hx]
    nofun
  rw [selects_of_some hsome, List.filter_eq_self.mpr]
  intro x hx
  rw [h x hx]
  rfl

/-- No element is lost exactly if all of them pass. -/
theorem bag_selects_eq_self_iff : bag (selects pass xs) = bag (some xs) ↔ ∀ x ∈ xs, pass x = some true := by
  constructor
  · intro h
    obtain ⟨ys, hys, hperm⟩ := bag_eq_some.mp h
    unfold selects at hys
    split_ifs at hys
    have hlen := hperm.length_eq
    rw [← Option.some.inj hys, List.length_filter_eq_length_iff] at hlen
    intro x hx
    exact eq_of_beq (hlen x hx)
  · intro h
    rw [selects_all h]

theorem bag_selects_perm (h : xs.Perm ys) : bag (selects pass xs) = bag (selects pass ys) := by
  have hall : (xs.all fun x => (pass x).isSome) = ys.all fun x => (pass x).isSome := by
    rw [Bool.eq_iff_iff, List.all_eq_true, List.all_eq_true]
    exact forall_congr' fun x => by rw [h.mem_iff]
  unfold selects
  rw [hall]
  split_ifs
  · exact bag_some_eq_some.mpr (h.filter _)
  · rfl

/-- Any order of what passes comes from some order of the whole. -/
theorem exists_perm_filter_eq {p : α → Bool} (h : ys.Perm (xs.filter p)) :
    ∃ zs : List α, zs.Perm xs ∧ zs.filter p = ys := by
  have hall : ∀ y ∈ ys, p y = true := fun y hy => List.of_mem_filter (h.mem_iff.mp hy)
  refine ⟨ys ++ xs.filter (fun x => !p x), ?_, ?_⟩
  · exact (h.append_right _).trans (List.filter_append_perm p xs)
  · rw [List.filter_append, List.filter_eq_self.mpr hall, List.filter_filter]
    have hnil : (xs.filter fun x => p x && !p x) = [] := by
      rw [List.filter_eq_nil_iff]
      intro x _
      simp
    rw [hnil, List.append_nil]

/-- Selecting after any reordering is any reordering of the selection. -/
theorem image_selects_anyOrder (o : Option (List α)) :
    Set.image (fun i => i.bind (selects pass)) (anyOrder o) = anyOrder (o.bind (selects pass)) := by
  ext p
  rw [Set.mem_image, mem_anyOrder]
  cases o with
  | none =>
    constructor
    · rintro ⟨i, hi, rfl⟩
      rw [mem_anyOrder, bag_none, bag_eq_none] at hi
      rw [hi]
    · intro hp
      exact ⟨none, rfl, (bag_eq_none.mp hp).symm⟩
  | some xs =>
    constructor
    · rintro ⟨i, hi, rfl⟩
      obtain ⟨ys, rfl, hperm⟩ := bag_eq_some.mp hi
      exact bag_selects_perm hperm
    · intro hp
      change bag p = bag (selects pass xs) at hp
      by_cases hnone : selects pass xs = none
      · rw [hnone, bag_none, bag_eq_none] at hp
        exact ⟨some xs, rfl, hnone.trans hp.symm⟩
      · have hsome : ∀ x ∈ xs, pass x ≠ none := fun x hx h => hnone (selects_eq_none_iff.mpr ⟨x, hx, h⟩)
        rw [selects_of_some hsome] at hp
        obtain ⟨ys, rfl, hperm⟩ := bag_eq_some.mp hp
        obtain ⟨zs, hzs, hfilter⟩ := exists_perm_filter_eq hperm
        refine ⟨some zs, bag_some_eq_some.mpr hzs, ?_⟩
        show selects pass zs = some ys
        rw [selects_of_some fun x hx => hsome x (hzs.mem_iff.mp hx), hfilter]

end Tests

/-! ## The same bag -/

section SameBag

/-- Two tests pick the same elements exactly if they agree on each of them. -/
theorem filter_perm_filter_iff {p q : α → Bool} {xs : List α} :
    (xs.filter p).Perm (xs.filter q) ↔ ∀ x ∈ xs, p x = q x := by
  constructor
  · intro h x hx
    have hmem := h.mem_iff (a := x)
    rw [List.mem_filter, List.mem_filter] at hmem
    simp only [hx, true_and] at hmem
    exact Bool.eq_iff_iff.mpr hmem
  · intro h
    rw [List.filter_congr h]

/-- If each row tells which element it was made for, then the rows of all the elements are the same exactly if
they are the same for each. -/
theorem flatMap_perm_flatMap_iff [DecidableEq α] [DecidableEq β] {f g : α → List β} (source : β → α) {xs : List α}
    (hf : ∀ x ∈ xs, ∀ y ∈ f x, source y = x) (hg : ∀ x ∈ xs, ∀ y ∈ g x, source y = x) :
    (xs.flatMap f).Perm (xs.flatMap g) ↔ ∀ x ∈ xs, (f x).Perm (g x) := by
  -- the rows made for `x` are `count x xs` copies of those that `f` makes
  have hcount : ∀ h : α → List β, (∀ x ∈ xs, ∀ y ∈ h x, source y = x) → ∀ y,
      (xs.flatMap h).count y = xs.count (source y) * (h (source y)).count y := by
    intro h hh y
    clear hf hg
    induction xs with
    | nil => simp
    | cons x xs ih =>
      rw [List.flatMap_cons, List.count_append, ih fun z hz => hh z (List.mem_cons_of_mem _ hz),
        List.count_cons, Nat.add_mul, Nat.add_comm]
      congr 1
      by_cases hx : x = source y
      · subst hx
        simp
      · have hzero : (h x).count y = 0 := by
          rw [List.count_eq_zero]
          intro hy
          exact hx (hh x (List.mem_cons_self ..) y hy).symm
        rw [hzero, if_neg (by simpa using hx), Nat.zero_mul]
  constructor
  · intro hperm x hx
    rw [List.perm_iff_count] at hperm ⊢
    intro y
    by_cases hy : source y = x
    · have heq := hperm y
      rw [hcount f hf, hcount g hg, hy] at heq
      exact Nat.eq_of_mul_eq_mul_left (List.count_pos_iff.mpr hx) heq
    · rw [List.count_eq_zero.mpr fun hmem => hy (hf x hx y hmem),
        List.count_eq_zero.mpr fun hmem => hy (hg x hx y hmem)]
  · intro h
    exact List.Perm.flatMap_left xs h

end SameBag

end Journey
