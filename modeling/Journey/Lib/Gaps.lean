import Mathlib.Data.Set.Basic
import Mathlib.Order.Compare
import Mathlib.Tactic.Tauto

/-!
# Journey.Lib.Gaps — comparing lists with gaps, entry by entry

Nothing here knows a program.  Entries are compared in an order; an entry that is missing counts as equal to every
other.  Lists are compared by the first entries that differ.

* `lexGaps`: the comparison; `lexGaps_swap`: from the other side it is turned around.
* `WeakOn`: a comparison can be sorted by, on the elements of a set.
* `GapTold`: where a list has a gap between two entries that differ, its later entries tell it apart.
* `weakOn_lexGaps_iff`: lists with gaps can be sorted by exactly if all gaps are told.
-/

namespace Journey

/-! ## Weak orders -/

section Weak

variable {α : Type}

/-- A comparison that can be sorted by: less is transitive, and so is neither less nor greater. -/
structure WeakOn (cmp : α → α → Ordering) (s : Set α) : Prop where
  trans : ∀ a ∈ s, ∀ b ∈ s, ∀ c ∈ s, cmp a b = .lt → cmp b c = .lt → cmp a c = .lt
  ties : ∀ a ∈ s, ∀ b ∈ s, ∀ c ∈ s, cmp a b = .eq → cmp b c = .eq → cmp a c = .eq

/-- The third element stands with one of two that are told apart. -/
def Splits3 (cmp : α → α → Ordering) (a b c : α) : Prop := cmp a c = .lt → cmp a b = .lt ∨ cmp b c = .lt

theorem eq_of_not_lt {o : Ordering} (h : o = .lt → False) (h' : o.swap = .lt → False) : o = .eq := by
  cases o with
  | lt => exact (h rfl).elim
  | eq => rfl
  | gt => exact (h' rfl).elim

theorem weakOn_iff_splits {cmp : α → α → Ordering} {s : Set α} (hswap : ∀ a b, cmp b a = (cmp a b).swap) :
    WeakOn cmp s ↔ ∀ a ∈ s, ∀ b ∈ s, ∀ c ∈ s, Splits3 cmp a b c := by
  constructor
  · intro h a ha b hb c hc hac
    by_contra hneither
    obtain ⟨hab, hbc⟩ := not_or.mp hneither
    -- otherwise `b` comes before `a`, or behind `c`, or ties with both
    have hba : cmp b a = .lt → False := by
      intro hba
      exact hbc (h.trans b hb a ha c hc hba hac)
    have hcb : cmp c b = .lt → False := by
      intro hcb
      exact hab (h.trans a ha c hc b hb hac hcb)
    rw [hswap a b] at hba
    rw [hswap b c] at hcb
    rw [h.ties a ha b hb c hc (eq_of_not_lt hab hba) (eq_of_not_lt hbc hcb)] at hac
    cases hac
  · intro h
    constructor
    · intro a ha b hb c hc hab hbc
      rcases h a ha c hc b hb hab with hac | hcb
      · exact hac
      · rw [hswap b c, hbc] at hcb
        cases hcb
    · intro a ha b hb c hc hab hbc
      have hlt := h a ha b hb c hc
      have hgt := h c hc b hb a ha
      unfold Splits3 at hlt hgt
      rw [hswap a c, hswap b c, hswap a b] at hgt
      rw [hab, hbc] at hlt hgt
      refine eq_of_not_lt ?_ ?_
      · intro hac
        rcases hlt hac with h | h <;> cases h
      · intro hca
        rcases hgt hca with h | h <;> cases h

end Weak

/-! ## Lists with gaps -/

section Gaps

variable {R : Type} [Ord R]

/-- Two entries; a missing one is equal to every other. -/
def gapCompare : Option R → Option R → Ordering
  | some a, some b => compare a b
  | _, _ => .eq

/-- **Two lists, by the first entries that differ.** -/
def lexGaps : List (Option R) → List (Option R) → Ordering
  | x :: xs, y :: ys => (gapCompare x y).then (lexGaps xs ys)
  | _, _ => .eq

/-- A gap between two entries that differ is told: by its later entries the middle list stands behind the first or
before the last one. -/
def GapTold : List (Option R) → List (Option R) → List (Option R) → Prop
  | x :: xs, y :: ys, z :: zs =>
    (gapCompare x y = .eq → gapCompare y z = .eq → gapCompare x z = .eq → GapTold xs ys zs) ∧
      (y = none → gapCompare x z = .lt → lexGaps xs ys = .lt ∨ lexGaps ys zs = .lt)
  | _, _, _ => True

theorem gapTold_of_some : ∀ {xs ys zs : List (Option R)}, (∀ y ∈ ys, y ≠ none) → GapTold xs ys zs
  | [], _, _, _ => trivial
  | _ :: _, [], _, _ => trivial
  | _ :: _, _ :: _, [], _ => trivial
  | x :: xs, y :: ys, z :: zs, h => by
    refine ⟨fun _ _ _ => gapTold_of_some fun y' hy' => h y' (List.mem_cons_of_mem _ hy'), ?_⟩
    intro hy
    exact absurd hy (h y (List.mem_cons_self ..))

theorem gapTold_of_entries {a b c : R} {xs ys zs : List (Option R)}
    (hne : ¬(compare a b = .eq ∧ compare b c = .eq ∧ compare a c = .eq)) :
    GapTold (some a :: xs) (some b :: ys) (some c :: zs) := by
  refine ⟨?_, nofun⟩
  intro hab hbc hac
  exact absurd ⟨hab, hbc, hac⟩ hne

section Ties

variable {x y z : Option R} {xs ys zs : List (Option R)}

theorem lexGaps_of_tie (hxy : gapCompare x y = .eq) : lexGaps (x :: xs) (y :: ys) = lexGaps xs ys := by
  rw [lexGaps, hxy]
  rfl

theorem splits3_of_ties (hxy : gapCompare x y = .eq) (hyz : gapCompare y z = .eq) (hxz : gapCompare x z = .eq) :
    Splits3 lexGaps (x :: xs) (y :: ys) (z :: zs) ↔ Splits3 lexGaps xs ys zs := by
  unfold Splits3
  rw [lexGaps_of_tie hxy, lexGaps_of_tie hyz, lexGaps_of_tie hxz]

theorem gapTold_of_ties (hxy : gapCompare x y = .eq) (hyz : gapCompare y z = .eq) (hxz : gapCompare x z = .eq) :
    GapTold (x :: xs) (y :: ys) (z :: zs) ↔ GapTold xs ys zs := by
  constructor
  · rintro ⟨htail, -⟩
    exact htail hxy hyz hxz
  · intro htail
    refine ⟨fun _ _ _ => htail, fun _ hlt => ?_⟩
    rw [hxz] at hlt
    cases hlt

end Ties

variable [Std.TransOrd R]

theorem gapCompare_swap (x y : Option R) : gapCompare y x = (gapCompare x y).swap := by
  cases x with
  | none => cases y <;> rfl
  | some a =>
    cases y with
    | none => rfl
    | some b => exact Std.OrientedOrd.eq_swap

theorem lexGaps_swap : ∀ xs ys : List (Option R), lexGaps ys xs = (lexGaps xs ys).swap
  | [], [] => rfl
  | [], _ :: _ => rfl
  | _ :: _, [] => rfl
  | x :: xs, y :: ys => by
    unfold lexGaps
    rw [gapCompare_swap x y, lexGaps_swap xs ys, Ordering.swap_then]

theorem lexGaps_self (xs : List (Option R)) : lexGaps xs xs = .eq := by
  have hswap := lexGaps_swap xs xs
  cases h : lexGaps xs xs <;> rw [h] at hswap <;> first | rfl | cases hswap

/-- A property of three elements, in any order. -/
def AnyWay {α : Type} (P : α → α → α → Prop) (a b c : α) : Prop :=
  P a b c ∧ P a c b ∧ P b a c ∧ P b c a ∧ P c a b ∧ P c b a

theorem AnyWay.congr {α β : Type} {P : α → α → α → Prop} {Q : β → β → β → Prop} {a b c : α} {a' b' c' : β}
    (habc : P a b c ↔ Q a' b' c') (hacb : P a c b ↔ Q a' c' b') (hbac : P b a c ↔ Q b' a' c')
    (hbca : P b c a ↔ Q b' c' a') (hcab : P c a b ↔ Q c' a' b') (hcba : P c b a ↔ Q c' b' a') :
    AnyWay P a b c ↔ AnyWay Q a' b' c' := by
  unfold AnyWay
  rw [habc, hacb, hbac, hbca, hcab, hcba]

/-- Lists whose first entries are equal, any two of them. -/
theorem told_iff_of_ties {x y z : Option R} {xs ys zs : List (Option R)} (hxy : gapCompare x y = .eq)
    (hyz : gapCompare y z = .eq) (hxz : gapCompare x z = .eq)
    (ih : AnyWay (Splits3 lexGaps) xs ys zs ↔ AnyWay GapTold xs ys zs) :
    AnyWay (Splits3 lexGaps) (x :: xs) (y :: ys) (z :: zs) ↔ AnyWay GapTold (x :: xs) (y :: ys) (z :: zs) := by
  have hyx : gapCompare y x = .eq := by rw [gapCompare_swap x y, hxy]; rfl
  have hzy : gapCompare z y = .eq := by rw [gapCompare_swap y z, hyz]; rfl
  have hzx : gapCompare z x = .eq := by rw [gapCompare_swap x z, hxz]; rfl
  have hsplits : AnyWay (Splits3 lexGaps) (x :: xs) (y :: ys) (z :: zs) ↔ AnyWay (Splits3 lexGaps) xs ys zs :=
    AnyWay.congr (splits3_of_ties hxy hyz hxz) (splits3_of_ties hxz hzy hxy) (splits3_of_ties hyx hxz hyz)
      (splits3_of_ties hyz hzx hyx) (splits3_of_ties hzx hxy hzy) (splits3_of_ties hzy hyx hzx)
  have htold : AnyWay GapTold (x :: xs) (y :: ys) (z :: zs) ↔ AnyWay GapTold xs ys zs :=
    AnyWay.congr (gapTold_of_ties hxy hyz hxz) (gapTold_of_ties hxz hzy hxy) (gapTold_of_ties hyx hxz hyz)
      (gapTold_of_ties hyz hzx hyx) (gapTold_of_ties hzx hxy hzy) (gapTold_of_ties hzy hyx hzx)
  rw [hsplits, htold]
  exact ih

/-- A gap between two entries that differ. -/
theorem told_iff_of_gap {a c : R} {xs ys zs : List (Option R)} (hne : compare a c ≠ .eq) :
    AnyWay (Splits3 lexGaps) (some a :: xs) (none :: ys) (some c :: zs) ↔
      AnyWay GapTold (some a :: xs) (none :: ys) (some c :: zs) := by
  have hca : compare c a = (compare a c).swap := Std.OrientedOrd.eq_swap
  have hyx := lexGaps_swap xs ys
  have hzy := lexGaps_swap ys zs
  simp only [AnyWay, Splits3, GapTold, lexGaps, gapCompare, hca, hyx, hzy]
  cases hac : compare a c with
  | eq => exact absurd hac hne
  | lt => cases lexGaps xs ys <;> cases lexGaps ys zs <;> simp
  | gt => cases lexGaps xs ys <;> cases lexGaps ys zs <;> simp

/-- Of three entries without a gap, not all equal, the one in the middle stands with one of two that differ. -/
theorem splits3_of_entries {a b c : R} {xs ys zs : List (Option R)}
    (hne : ¬(compare a b = .eq ∧ compare b c = .eq ∧ compare a c = .eq)) :
    Splits3 lexGaps (some a :: xs) (some b :: ys) (some c :: zs) := by
  intro hac
  have hhead : compare a c ≠ .gt := by
    intro hgt
    simp [lexGaps, gapCompare, hgt] at hac
  have hsplit : compare a b = .lt ∨ compare b c = .lt := by
    by_contra hneither
    obtain ⟨hab, hbc⟩ := not_or.mp hneither
    -- then `c ≤ b ≤ a`, so all three are equal
    have hab' : (compare a b).isGE := Ordering.isGE_iff_ne_lt.mpr hab
    have hbc' : (compare b c).isGE := Ordering.isGE_iff_ne_lt.mpr hbc
    have hab_gt : compare a b ≠ .gt := fun hgt => hhead (Std.TransCmp.gt_of_gt_of_isGE hgt hbc')
    have hbc_gt : compare b c ≠ .gt := fun hgt => hhead (Std.TransCmp.gt_of_isGE_of_gt hab' hgt)
    have hac' := Std.TransOrd.isGE_trans hab' hbc'
    refine hne ⟨?_, ?_, ?_⟩
    · exact Ordering.eq_eq_of_isLE_of_isGE (Ordering.isLE_iff_ne_gt.mpr hab_gt) hab'
    · exact Ordering.eq_eq_of_isLE_of_isGE (Ordering.isLE_iff_ne_gt.mpr hbc_gt) hbc'
    · exact Ordering.eq_eq_of_isLE_of_isGE (Ordering.isLE_iff_ne_gt.mpr hhead) hac'
  rcases hsplit with h | h
  · exact .inl (by simp [lexGaps, gapCompare, h])
  · exact .inr (by simp [lexGaps, gapCompare, h])

/-- A property of three lists with entries that are not all equal, in any order. -/
theorem anyWay_of_entries {P : List (Option R) → List (Option R) → List (Option R) → Prop}
    (h : ∀ {a b c : R} {xs ys zs : List (Option R)},
      ¬(compare a b = .eq ∧ compare b c = .eq ∧ compare a c = .eq) → P (some a :: xs) (some b :: ys) (some c :: zs))
    {a b c : R} {xs ys zs : List (Option R)}
    (hne : ¬(compare a b = .eq ∧ compare b c = .eq ∧ compare a c = .eq)) :
    AnyWay P (some a :: xs) (some b :: ys) (some c :: zs) := by
  have hcomm : ∀ {u v : R}, compare u v = .eq → compare v u = .eq := fun huv => Std.OrientedCmp.eq_comm.mp huv
  refine ⟨h hne, h ?_, h ?_, h ?_, h ?_, h ?_⟩
  · rintro ⟨hac, hcb, hab⟩
    exact hne ⟨hab, hcomm hcb, hac⟩
  · rintro ⟨hba, hac, hbc⟩
    exact hne ⟨hcomm hba, hbc, hac⟩
  · rintro ⟨hbc, hca, hba⟩
    exact hne ⟨hcomm hba, hbc, hcomm hca⟩
  · rintro ⟨hca, hab, hcb⟩
    exact hne ⟨hab, hcomm hcb, hcomm hca⟩
  · rintro ⟨hcb, hba, hca⟩
    exact hne ⟨hcomm hba, hcomm hcb, hcomm hca⟩

theorem anyWay_swap {α : Type} {P : α → α → α → Prop} {a b c : α} : AnyWay P a b c ↔ AnyWay P b a c := by
  unfold AnyWay
  tauto

theorem anyWay_rotate {α : Type} {P : α → α → α → Prop} {a b c : α} : AnyWay P a b c ↔ AnyWay P a c b := by
  unfold AnyWay
  tauto

/-- One position: the entries are equal, or one of them is a gap, or all three are there. -/
theorem told_iff_cons (x y z : Option R) {xs ys zs : List (Option R)}
    (ih : AnyWay (Splits3 lexGaps) xs ys zs ↔ AnyWay GapTold xs ys zs) :
    AnyWay (Splits3 lexGaps) (x :: xs) (y :: ys) (z :: zs) ↔ AnyWay GapTold (x :: xs) (y :: ys) (z :: zs) := by
  by_cases hties : gapCompare x y = .eq ∧ gapCompare y z = .eq ∧ gapCompare x z = .eq
  · exact told_iff_of_ties hties.1 hties.2.1 hties.2.2 ih
  cases x with
  | none =>
    cases y with
    | none => exact absurd ⟨rfl, rfl, rfl⟩ hties
    | some b =>
      cases z with
      | none => exact absurd ⟨rfl, rfl, rfl⟩ hties
      | some c =>
        rw [anyWay_swap, anyWay_swap (P := GapTold)]
        refine told_iff_of_gap fun heq => hties ⟨rfl, heq, rfl⟩
  | some a =>
    cases y with
    | none =>
      cases z with
      | none => exact absurd ⟨rfl, rfl, rfl⟩ hties
      | some c => exact told_iff_of_gap fun heq => hties ⟨rfl, rfl, heq⟩
    | some b =>
      cases z with
      | none =>
        rw [anyWay_rotate, anyWay_rotate (P := GapTold)]
        refine told_iff_of_gap fun heq => hties ⟨heq, rfl, rfl⟩
      | some c =>
        refine ⟨fun _ => ?_, fun _ => ?_⟩
        · exact anyWay_of_entries gapTold_of_entries hties
        · exact anyWay_of_entries splits3_of_entries hties

theorem told_iff_splits : ∀ {xs ys zs : List (Option R)}, xs.length = ys.length → ys.length = zs.length →
    (AnyWay (Splits3 lexGaps) xs ys zs ↔ AnyWay GapTold xs ys zs)
  | [], [], [], _, _ => by simp [AnyWay, Splits3, GapTold, lexGaps]
  | x :: xs, y :: ys, z :: zs, hxy, hyz =>
    told_iff_cons x y z (told_iff_splits (Nat.succ.inj hxy) (Nat.succ.inj hyz))

/-- **Lists with gaps, of one length, can be sorted by exactly if every gap is told.** -/
theorem weakOn_lexGaps_iff {s : Set (List (Option R))} {n : Nat} (hlen : ∀ xs ∈ s, xs.length = n) :
    WeakOn lexGaps s ↔ ∀ xs ∈ s, ∀ ys ∈ s, ∀ zs ∈ s, GapTold xs ys zs := by
  rw [weakOn_iff_splits lexGaps_swap]
  have hall : ∀ P : List (Option R) → List (Option R) → List (Option R) → Prop,
      (∀ xs ∈ s, ∀ ys ∈ s, ∀ zs ∈ s, P xs ys zs) ↔ ∀ xs ∈ s, ∀ ys ∈ s, ∀ zs ∈ s, AnyWay P xs ys zs := by
    intro P
    constructor
    · intro h xs hx ys hy zs hz
      exact ⟨h xs hx ys hy zs hz, h xs hx zs hz ys hy, h ys hy xs hx zs hz, h ys hy zs hz xs hx, h zs hz xs hx ys hy,
        h zs hz ys hy xs hx⟩
    · intro h xs hx ys hy zs hz
      exact (h xs hx ys hy zs hz).1
  rw [hall (Splits3 lexGaps), hall GapTold]
  constructor
  · intro h xs hx ys hy zs hz
    refine (told_iff_splits ?_ ?_).mp (h xs hx ys hy zs hz)
    · rw [hlen xs hx, hlen ys hy]
    · rw [hlen ys hy, hlen zs hz]
  · intro h xs hx ys hy zs hz
    refine (told_iff_splits ?_ ?_).mpr (h xs hx ys hy zs hz)
    · rw [hlen xs hx, hlen ys hy]
    · rw [hlen ys hy, hlen zs hz]

end Gaps

end Journey
