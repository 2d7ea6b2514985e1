import Mathlib.Data.List.Sort
import Mathlib.Data.Set.Insert

/-!
# Journey.Lib.Sorting — the ways to sort a list

Nothing here knows a program.  A relation says which elements have to come before which; elements that it does not
tell apart may come in any order.

* `InOrder`, `sortings`: the lists that are in order, and all the ways to sort a list.
* `Ranks`: the relation is an order, up to ties, on the elements of the list; then there is a way to sort it.
* `sortings_eq_iff`: two such relations that allow the same ways to sort a list are the same on its elements.
-/

namespace Journey

variable {α : Type} {lt lt' : α → α → Bool} {xs ys : List α}

/-- No element comes behind one that it has to come before. -/
def InOrder (lt : α → α → Bool) (xs : List α) : Prop := xs.Pairwise fun a b => lt b a = false

/-- The ways to sort a list.  If the relation leaves none, any order will do. -/
def sortings (lt : α → α → Bool) (xs : List α) : Set (List α) :=
  { ys | ys.Perm xs ∧ ((∃ zs : List α, zs.Perm xs ∧ InOrder lt zs) → InOrder lt ys) }

theorem sortings_nonempty : (sortings lt xs).Nonempty := by
  by_cases h : ∃ zs : List α, zs.Perm xs ∧ InOrder lt zs
  · obtain ⟨zs, hperm, hzs⟩ := h
    exact ⟨zs, hperm, fun _ => hzs⟩
  · exact ⟨xs, .refl _, fun hzs => absurd hzs h⟩

/-- Which ways there are depends on how the elements compare, and on nothing else. -/
theorem sortings_congr (h : ∀ a ∈ xs, ∀ b ∈ xs, lt a b = lt' a b) : sortings lt xs = sortings lt' xs := by
  have hiff : ∀ zs : List α, zs.Perm xs → (InOrder lt zs ↔ InOrder lt' zs) := by
    intro zs hperm
    refine List.Pairwise.iff_of_mem ?_
    intro a b ha hb
    rw [h b (hperm.mem_iff.mp hb) a (hperm.mem_iff.mp ha)]
  have hex : (∃ zs : List α, zs.Perm xs ∧ InOrder lt zs) ↔ ∃ zs : List α, zs.Perm xs ∧ InOrder lt' zs :=
    exists_congr fun zs => and_congr_right (hiff zs)
  ext ys
  refine and_congr_right fun hperm => ?_
  rw [hex, hiff ys hperm]

/-! ## Orders up to ties -/

section Ranks

/-- On these elements the relation is an order, up to ties. -/
structure Ranks (lt : α → α → Bool) (xs : List α) : Prop where
  asymm : ∀ a ∈ xs, ∀ b ∈ xs, lt a b = true → lt b a = false
  trans : ∀ a ∈ xs, ∀ b ∈ xs, ∀ c ∈ xs, lt a b = false → lt b c = false → lt a c = false

/-- An order can be sorted by. -/
theorem Ranks.exists_inOrder (h : Ranks lt xs) : ∃ zs : List α, zs.Perm xs ∧ InOrder lt zs := by
  let le : { a // a ∈ xs } → { a // a ∈ xs } → Bool := fun a b => !lt b.1 a.1
  have htrans : ∀ a b c, le a b = true → le b c = true → le a c = true := by
    intro a b c hab hbc
    simp only [le, Bool.not_eq_true'] at hab hbc ⊢
    exact h.trans c.1 c.2 b.1 b.2 a.1 a.2 hbc hab
  have htotal : ∀ a b, (le a b || le b a) = true := by
    intro a b
    simp only [le, Bool.or_eq_true, Bool.not_eq_true']
    cases hba : lt b.1 a.1 with
    | false => exact .inl rfl
    | true => exact .inr (h.asymm b.1 b.2 a.1 a.2 hba)
  refine ⟨(xs.attach.mergeSort le).map Subtype.val, ?_, ?_⟩
  · have hperm := (List.mergeSort_perm xs.attach le).map Subtype.val
    rwa [List.attach_map_subtype_val] at hperm
  · unfold InOrder
    rw [List.pairwise_map]
    refine (List.pairwise_mergeSort htrans htotal xs.attach).imp ?_
    intro a b hab
    simpa [le] using hab

/-- Of two elements that are not told apart, either may come first. -/
theorem Ranks.exists_inOrder_reversed (h : Ranks lt xs) {a b : α} (ha : a ∈ xs) (hb : b ∈ xs) (hne : a ≠ b)
    (hab : lt a b = false) :
    ∃ zs : List α, zs.Perm xs ∧ InOrder lt zs ∧ ∃ l m r, zs = l ++ b :: (m ++ a :: r) := by
  obtain ⟨zs, hperm, hzs⟩ := h.exists_inOrder
  have hmem : ∀ x ∈ zs, x ∈ xs := fun x hx => hperm.mem_iff.mp hx
  obtain ⟨l, t, rfl⟩ := List.append_of_mem (hperm.mem_iff.mpr ha)
  have hcases : b ∈ l ∨ b ∈ t := by
    have hb' := hperm.mem_iff.mpr hb
    rw [List.mem_append, List.mem_cons] at hb'
    rcases hb' with hl | rfl | ht
    · exact .inl hl
    · exact absurd rfl hne
    · exact .inr ht
  rcases hcases with hl | ht
  · obtain ⟨l, m, rfl⟩ := List.append_of_mem hl
    exact ⟨_, hperm, hzs, l, m, t, by simp⟩
  · -- `a` stands before `b`: put `b` right before `a`
    obtain ⟨m, r, rfl⟩ := List.append_of_mem ht
    refine ⟨l ++ b :: ([] ++ a :: (m ++ r)), ?_, ?_, l, [], m ++ r, rfl⟩
    · refine List.Perm.trans (List.Perm.append_left l ?_) hperm
      have hswap : (b :: a :: (m ++ r)).Perm (a :: b :: (m ++ r)) := .swap ..
      exact hswap.trans (List.Perm.cons a List.perm_middle.symm)
    · show (l ++ b :: a :: (m ++ r)).Pairwise _
      unfold InOrder at hzs
      simp only [List.pairwise_append, List.pairwise_cons, List.mem_append, List.mem_cons] at hzs hmem ⊢
      obtain ⟨hl, ⟨ha_after, hm, ⟨hb_after, hr⟩, hmr⟩, hcross⟩ := hzs
      refine ⟨hl, ⟨?_, ⟨fun x hx => ha_after x (by tauto), hm, hr, fun x hx y hy => hmr x hx y (.inr hy)⟩⟩,
        fun x hx y hy => hcross x hx y (by tauto)⟩
      rintro x (rfl | hx | hx)
      · exact hab
      · -- `x` does not have to come before `a`, nor `a` before `b`
        exact h.trans x (hmem x (by tauto)) a ha b hb (ha_after x (.inl hx)) hab
      · exact hb_after x hx

/-- The ways to sort tell what has to come first. -/
theorem Ranks.lt_of_sortings_eq (h : Ranks lt xs) (h' : Ranks lt' xs) (heq : sortings lt xs = sortings lt' xs)
    {a b : α} (ha : a ∈ xs) (hb : b ∈ xs) (hab : lt a b = true) : lt' a b = true := by
  by_contra hnot
  have hne : a ≠ b := by
    rintro rfl
    rw [h.asymm a ha a ha hab] at hab
    cases hab
  obtain ⟨zs, hperm, hzs, l, m, r, rfl⟩ :=
    h'.exists_inOrder_reversed ha hb hne (Bool.eq_false_iff.mpr hnot)
  have hsorting : l ++ b :: (m ++ a :: r) ∈ sortings lt xs := by
    rw [heq]
    exact ⟨hperm, fun _ => hzs⟩
  have horder := hsorting.2 h.exists_inOrder
  unfold InOrder at horder
  rw [List.pairwise_append, List.pairwise_cons] at horder
  have hfalse := horder.2.1.1 a (by simp)
  rw [hab] at hfalse
  cases hfalse

/-- **Two orders allow the same ways to sort a list exactly if they are the same on its elements.** -/
theorem sortings_eq_iff (h : Ranks lt xs) (h' : Ranks lt' xs) :
    sortings lt xs = sortings lt' xs ↔ ∀ a ∈ xs, ∀ b ∈ xs, lt a b = lt' a b := by
  constructor
  · intro heq a ha b hb
    rw [Bool.eq_iff_iff]
    exact ⟨h.lt_of_sortings_eq h' heq ha hb, h'.lt_of_sortings_eq h heq.symm ha hb⟩
  · exact sortings_congr

end Ranks

end Journey
