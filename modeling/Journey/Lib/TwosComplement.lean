import Mathlib.Tactic.Ring
import Mathlib.Tactic.Positivity
import Mathlib.Algebra.Order.Ring.Int

/-!
# Journey.Lib.TwosComplement — arithmetic that wraps around

Nothing here knows a program.  A machine integer of `w` bits is an `Int` in the range of `w` bits; what an operation
leaves of its exact result is `wrap w` of it.

* `wrap`, `Fits`: two's complement and its range; a result is exact exactly if it fits.
* `add_overflow_iff`, `sub_overflow_iff`, `mul_overflow_iff`: the tests on signs, and by dividing back, that programs
  make after the fact tell exactly whether a sum, a difference or a product was exact.
-/

namespace Journey

/-- What `w` bits keep of a number. -/
def wrap (w : ℕ) (n : Int) : Int := n.bmod (2 ^ w)

/-- The number has a representation in `w` bits. -/
def Fits (w : ℕ) (n : Int) : Prop := -(2 ^ w : Int) ≤ 2 * n ∧ 2 * n < 2 ^ w

/-- The number has a representation in `w` bits, and so does its negation. -/
def FitsBoth (w : ℕ) (n : Int) : Prop := -(2 ^ w : Int) < 2 * n ∧ 2 * n < 2 ^ w

instance (w : ℕ) (n : Int) : Decidable (Fits w n) := inferInstanceAs (Decidable (_ ∧ _))

instance (w : ℕ) (n : Int) : Decidable (FitsBoth w n) := inferInstanceAs (Decidable (_ ∧ _))

section Wrap

variable {v w : ℕ} {n x y : Int}

theorem FitsBoth.fits (h : FitsBoth w n) : Fits w n := ⟨h.1.le, h.2⟩

theorem two_pow_le (h : v ≤ w) : (2 ^ v : Int) ≤ 2 ^ w := pow_le_pow_right₀ (by decide) h

theorem Fits.mono (h : Fits v n) (hvw : v ≤ w) : Fits w n := by
  have hpow := two_pow_le hvw
  have hlo := h.1
  have hhi := h.2
  constructor <;> omega

theorem FitsBoth.mono (h : FitsBoth v n) (hvw : v ≤ w) : FitsBoth w n := by
  have hpow := two_pow_le hvw
  have hlo := h.1
  have hhi := h.2
  constructor <;> omega

theorem two_pow_even (hw : 0 < w) : ∃ m : Int, 0 < m ∧ (2 ^ w : Int) = 2 * m := by
  obtain ⟨w, rfl⟩ := Nat.exists_eq_add_one.mpr hw
  exact ⟨2 ^ w, by positivity, by ring⟩

theorem wrap_eq_self (h : Fits w n) : wrap w n = n := by
  have hlo := h.1
  have hhi := h.2
  refine Int.bmod_eq_of_le_mul_two ?_ ?_
  · push_cast
    omega
  · push_cast
    omega

theorem fits_wrap (hw : 0 < w) (n : Int) : Fits w (wrap w n) := by
  obtain ⟨m, hm, hpow⟩ := two_pow_even hw
  have hpos : 0 < 2 ^ w := Nat.two_pow_pos w
  have hlo := Int.le_bmod (x := n) hpos
  have hhi := Int.bmod_lt (x := n) hpos
  push_cast at hlo hhi
  unfold Fits wrap
  omega

theorem wrap_eq_self_iff (hw : 0 < w) : wrap w n = n ↔ Fits w n := by
  refine ⟨fun h => ?_, wrap_eq_self⟩
  rw [← h]
  exact fits_wrap hw n

/-- What wrapping adds or takes away is a multiple of `2 ^ w`. -/
theorem dvd_wrap_sub (w : ℕ) (n : Int) : (2 ^ w : Int) ∣ wrap w n - n := by
  refine ⟨-Int.bdiv n (2 ^ w), ?_⟩
  have h := Int.bmod_add_bdiv n (2 ^ w)
  push_cast at h
  show n.bmod (2 ^ w) - n = _
  rw [mul_neg]
  omega

/-- A number that is out of range by less than `2 ^ w` comes back by `2 ^ w`. -/
theorem wrap_cases (hw : 0 < w) (hlo : -(2 * 2 ^ w : Int) < 2 * n) (hhi : 2 * n < 2 * 2 ^ w) :
    (Fits w n ∧ wrap w n = n) ∨ ((2 ^ w : Int) ≤ 2 * n ∧ wrap w n = n - 2 ^ w) ∨
      (2 * n < -(2 ^ w : Int) ∧ wrap w n = n + 2 ^ w) := by
  obtain ⟨m, hm, hpow⟩ := two_pow_even hw
  have hfits := fits_wrap hw n
  obtain ⟨k, hk⟩ := dvd_wrap_sub w n
  unfold Fits at hfits ⊢
  rw [hpow] at hlo hhi hk hfits ⊢
  -- the multiple is one of `-1`, `0` and `1`
  have hk1 : k ≤ 1 := by
    by_contra hcon
    have := mul_le_mul_of_nonneg_left (show 2 ≤ k by omega) (show 0 ≤ 2 * m by omega)
    omega
  have hk2 : -1 ≤ k := by
    by_contra hcon
    have := mul_le_mul_of_nonneg_left (show k ≤ -2 by omega) (show 0 ≤ 2 * m by omega)
    omega
  obtain rfl | rfl | rfl : k = -1 ∨ k = 0 ∨ k = 1 := by omega
  all_goals omega

end Wrap

/-! ## Tests for overflow -/

section Overflow

variable {w : ℕ} {x y : Int}

/-- **The test on signs of a sum**: it was not exact exactly if its sign is not the one of both summands. -/
theorem add_overflow_iff (hw : 0 < w) (hx : FitsBoth w x) (hy : FitsBoth w y) :
    (x > 0 ∧ y > 0 ∧ wrap w (x + y) < 0) ∨ (x < 0 ∧ y < 0 ∧ wrap w (x + y) > 0) ↔ ¬ Fits w (x + y) := by
  obtain ⟨hx1, hx2⟩ := hx
  obtain ⟨hy1, hy2⟩ := hy
  unfold Fits
  rcases wrap_cases hw (n := x + y) (by omega) (by omega) with ⟨⟨hlo, hhi⟩, he⟩ | ⟨hhi, he⟩ | ⟨hlo, he⟩
  · rw [he]
    omega
  · rw [he]
    omega
  · rw [he]
    omega

/-- **The test on signs of a difference.** -/
theorem sub_overflow_iff (hw : 0 < w) (hx : FitsBoth w x) (hy : FitsBoth w y) :
    (x > 0 ∧ y < 0 ∧ wrap w (x - y) < 0) ∨ (x < 0 ∧ y > 0 ∧ wrap w (x - y) > 0) ↔ ¬ Fits w (x - y) := by
  have hneg : FitsBoth w (-y) := ⟨by have := hy.2; omega, by have := hy.1; omega⟩
  have h := add_overflow_iff hw hx hneg
  rw [← sub_eq_add_neg] at h
  rw [← h]
  omega

/-- What the quotient gives back differs from the dividend by less than the divisor, so by no multiple of `2 ^ w`. -/
theorem eq_of_tdiv_eq {p : Int} (hy : FitsBoth w y) (hy0 : y ≠ 0) (hdvd : (2 ^ w : Int) ∣ p - x * y)
    (hdiv : p.tdiv y = x) : p = x * y := by
  have hsplit := Int.mul_tdiv_add_tmod p y
  rw [hdiv, mul_comm] at hsplit
  have hrem : p - x * y = p.tmod y := by omega
  have hlt : |p.tmod y| < |y| := by
    rw [← Int.natCast_natAbs y, ← Int.natCast_natAbs, Int.natAbs_tmod]
    exact_mod_cast Nat.mod_lt _ (Int.natAbs_pos.mpr hy0)
  have habs : 2 * |y| < 2 ^ w := by
    rcases abs_cases y with ⟨he, -⟩ | ⟨he, -⟩
    · rw [he]
      exact hy.2
    · rw [he]
      have := hy.1
      omega
  have hzero := Int.eq_zero_of_abs_lt_dvd (hrem ▸ hdvd) (by have := abs_nonneg y; omega)
  omega

/-- A quotient is not larger than the dividend. -/
theorem abs_tdiv_le (p y : Int) : |p.tdiv y| ≤ |p| := by
  rw [← Int.natCast_natAbs, ← Int.natCast_natAbs, Int.natAbs_tdiv]
  exact_mod_cast Nat.div_le_self _ _

/-- A remainder is not larger than the dividend. -/
theorem abs_tmod_le (p y : Int) : |p.tmod y| ≤ |p| := by
  rw [← Int.natCast_natAbs, ← Int.natCast_natAbs, Int.natAbs_tmod]
  exact_mod_cast Nat.mod_le _ _

theorem FitsBoth.of_abs_le {n p : Int} (h : FitsBoth w p) (hle : |n| ≤ |p|) : FitsBoth w n := by
  obtain ⟨hlo, hhi⟩ := h
  unfold FitsBoth
  rcases abs_cases p with ⟨hp, _⟩ | ⟨hp, _⟩ <;> rcases abs_cases n with ⟨hn, _⟩ | ⟨hn, _⟩ <;> omega

/-- **The test by division of a product**: it was exact exactly if dividing gives the factor back. -/
theorem mul_overflow_iff (hw : 0 < w) (hx : FitsBoth w x) (hy : FitsBoth w y) :
    (y ≠ 0 ∧ wrap w ((wrap w (x * y)).tdiv y) ≠ x) ↔ ¬ Fits w (x * y) := by
  rw [← wrap_eq_self_iff hw]
  by_cases hy0 : y = 0
  · subst hy0
    simp [wrap]
  constructor
  · rintro ⟨-, hne⟩ hexact
    refine hne ?_
    rw [hexact, Int.mul_tdiv_cancel _ hy0]
    exact wrap_eq_self hx.fits
  · intro hne
    refine ⟨hy0, fun hdiv => hne ?_⟩
    have hp := fits_wrap hw (x * y)
    have hdvd := dvd_wrap_sub w (x * y)
    generalize wrap w (x * y) = p at *
    by_cases hq : Fits w (p.tdiv y)
    · rw [wrap_eq_self hq] at hdiv
      exact eq_of_tdiv_eq hy hy0 hdvd hdiv
    · -- only the lowest number by `-1` has a quotient out of range, and `x` is not the lowest number
      exfalso
      have hle := abs_tdiv_le p y
      generalize p.tdiv y = q at *
      obtain ⟨hp1, hp2⟩ := hp
      obtain ⟨hx1, hx2⟩ := hx
      unfold Fits at hq
      have hq2 : 2 * |p| ≤ 2 ^ w := by
        rcases abs_cases p with ⟨he, -⟩ | ⟨he, -⟩ <;> omega
      have hq3 : 2 * q = 2 ^ w := by
        rcases abs_cases q with ⟨he, hsign⟩ | ⟨he, hsign⟩ <;> omega
      rcases wrap_cases hw (n := q) (by omega) (by omega) with ⟨hfits, -⟩ | ⟨-, he⟩ | ⟨hlt, -⟩
      · exact hq hfits
      · omega
      · omega

end Overflow

end Journey
