import Mathlib.Data.Fintype.Basic
import Mathlib.Logic.Function.Basic

/-!
# Journey.Lib.Latches — shared and exclusive latches

Nothing here knows a program.  `holds t l` is the mode in which the client `t` holds the latch `l`, if it does.

* `Free`: a client may take a latch, given what the others hold.
* `Exclusion`: what is held exclusively is held by nobody else; `Exclusion.step` carries it along the steps of a
  system in which a client takes only latches that are free.
-/

namespace Journey.Latches

inductive Mode
  | shared
  | exclusive
deriving DecidableEq, Repr

/-- A latch held in one mode can be taken in the other by another client. -/
def Mode.compatible : Mode → Mode → Bool
  | .shared, .shared => true
  | _, _ => false

variable {ι L : Type} {holds : ι → L → Option Mode}

/-- The client `t` can take the latch `l` in the mode `m`. -/
def Free (holds : ι → L → Option Mode) (t : ι) (l : L) (m : Mode) : Prop :=
  ∀ u, u ≠ t → ((holds u l).all m.compatible) = true

instance [Fintype ι] [DecidableEq ι] (holds : ι → L → Option Mode) (t : ι) (l : L) (m : Mode) :
    Decidable (Free holds t l m) :=
  inferInstanceAs (Decidable (∀ u, u ≠ t → ((holds u l).all m.compatible) = true))

/-- What one client holds exclusively no other client holds. -/
def Exclusion (holds : ι → L → Option Mode) : Prop :=
  ∀ t u l, t ≠ u → holds t l = some .exclusive → holds u l = none

theorem Free.none_of_exclusive {t u : ι} {l : L} (h : Free holds t l .exclusive) (hu : u ≠ t) : holds u l = none := by
  have hall := h u hu
  cases hm : holds u l with
  | none => rfl
  | some m =>
    rw [hm] at hall
    cases m <;> cases hall

theorem Free.not_exclusive {t u : ι} {l : L} {m : Mode} (h : Free holds t l m) (hu : u ≠ t) :
    holds u l ≠ some .exclusive := by
  intro hex
  have hall := h u hu
  rw [hex] at hall
  cases m <;> cases hall

/-- **Step**: one client moves, and what it holds then it has held before or was free to take. -/
theorem Exclusion.step [DecidableEq ι] (h : Exclusion holds) {t : ι} {mine : L → Option Mode}
    (hmine : ∀ l m, mine l = some m → holds t l = some m ∨ Free holds t l m) :
    Exclusion (Function.update holds t mine) := by
  intro u v l huv hu
  by_cases hut : u = t
  · subst hut
    rw [Function.update_self] at hu
    rw [Function.update_of_ne huv.symm]
    rcases hmine l .exclusive hu with hold | hfree
    · exact h u v l huv hold
    · exact hfree.none_of_exclusive huv.symm
  · rw [Function.update_of_ne hut] at hu
    by_cases hvt : v = t
    · subst hvt
      rw [Function.update_self]
      cases hm : mine l with
      | none => rfl
      | some m =>
        rcases hmine l m hm with hold | hfree
        · rw [h u v l huv hu] at hold
          cases hold
        · exact absurd hu (hfree.not_exclusive hut)
    · rw [Function.update_of_ne hvt]
      exact h u v l huv hu

end Journey.Latches
