import Mathlib.Data.List.Basic
import Mathlib.Tactic.Common

/-!
# Journey.Lib.Slices — consecutive pieces of a list

Nothing here knows a program.  A list is cut at increasing positions `bound 0 ≤ bound 1 ≤ …`, and each piece is reduced
on its own.

* `extract_succ`, `extract_append`: a piece grows by an element, two pieces that meet are one.
* `foldl_append_op`: a reduction with an associative operator goes through piece by piece.
* `tiles bound k`: the first `k` pieces as pairs of positions; `indices_tiles` says that they leave out nothing and
  overlap nowhere.
-/

namespace Journey

variable {α : Type}

/-! ## Pieces -/

section Pieces

variable {l : List α} {a m e : ℕ}

theorem extract_self (l : List α) (a : ℕ) : l.extract a a = [] := by
  rw [List.extract_eq_take_drop, Nat.sub_self, List.take_zero]

theorem extract_all (l : List α) : l.extract 0 l.length = l := by
  rw [List.extract_eq_take_drop, List.drop_zero, Nat.sub_zero, List.take_length]

/-- A piece and the element behind it. -/
theorem extract_succ (ha : a ≤ e) (he : e < l.length) : l.extract a (e + 1) = l.extract a e ++ [l[e]] := by
  rw [List.extract_eq_take_drop, List.extract_eq_take_drop, show e + 1 - a = (e - a) + 1 by omega, List.take_add_one,
    List.getElem?_drop, show a + (e - a) = e by omega, List.getElem?_eq_getElem he]
  rfl

/-- Two pieces that meet. -/
theorem extract_append (ham : a ≤ m) (hme : m ≤ e) : l.extract a m ++ l.extract m e = l.extract a e := by
  simp only [List.extract_eq_take_drop]
  rw [show e - a = (m - a) + (e - m) by omega, List.take_add, List.drop_drop, show a + (m - a) = m by omega]

end Pieces

/-! ## Reductions -/

section Reductions

/-- **A reduction of two pieces** is the two reductions combined. -/
theorem foldl_append_op {op : α → α → α} [Std.Associative op] {u : α} (hu : ∀ x, op x u = x) (l l' : List α) :
    (l ++ l').foldl op u = op (l.foldl op u) (l'.foldl op u) :=
  calc (l ++ l').foldl op u = l'.foldl op (l.foldl op u) := List.foldl_append
    _ = l'.foldl op (op (l.foldl op u) u) := by rw [hu]
    _ = op (l.foldl op u) (l'.foldl op u) := List.foldl_assoc

end Reductions

/-! ## Tilings -/

section Tilings

/-- The first `k` pieces. -/
def tiles (bound : ℕ → ℕ) (k : ℕ) : List (ℕ × ℕ) := (List.range k).map fun i => (bound i, bound (i + 1))

variable {bound : ℕ → ℕ}

theorem tiles_succ (bound : ℕ → ℕ) (k : ℕ) : tiles bound (k + 1) = tiles bound k ++ [(bound k, bound (k + 1))] := by
  unfold tiles
  rw [List.range_succ, List.map_append, List.map_singleton]

/-- **The pieces leave out nothing and overlap nowhere**: one after another they name every position once. -/
theorem indices_tiles (k : ℕ) (hmono : ∀ i < k, bound i ≤ bound (i + 1)) :
    (tiles bound k).flatMap (fun r => List.range' r.1 (r.2 - r.1)) = List.range' (bound 0) (bound k - bound 0) := by
  have hle : ∀ j ≤ k, bound 0 ≤ bound j := by
    intro j hj
    induction j with
    | zero => exact Nat.le_refl _
    | succ j ih => exact Nat.le_trans (ih (by omega)) (hmono j (by omega))
  induction k with
  | zero => simp [tiles]
  | succ k ih =>
    have hk := hle k (by omega)
    have hlast := hmono k (by omega)
    rw [tiles_succ, List.flatMap_append, ih (fun i hi => hmono i (by omega)) (fun j hj => hle j (by omega)),
      List.flatMap_singleton]
    show List.range' (bound 0) (bound k - bound 0) ++ List.range' (bound k) (bound (k + 1) - bound k) = _
    rw [show bound (k + 1) - bound 0 = (bound k - bound 0) + (bound (k + 1) - bound k) by omega,
      ← List.range'_append_1, show bound 0 + (bound k - bound 0) = bound k by omega]

end Tilings

end Journey
