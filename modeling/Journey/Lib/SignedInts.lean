import Journey.Lib.TwosComplement
import Mathlib.Tactic.Common

/-!
# Journey.Lib.SignedInts — signed integers of a machine, and the storage they share

Nothing here knows a program.  A signed integer of `w` bits is a `BitVec w`, its number is `BitVec.toInt`.

* `staticCast`: the conversion to another width; it wraps around, and keeps the number if the target is as wide.
* `commonBits`: the width in which an operator sees operands of two widths.
* `storeLow`: a member of a union written over what the union held; it is read back, whatever that was.
-/

namespace Journey

variable {u v w : ℕ}

/-! ## Conversions -/

section Conversions

/-- The conversion to `w` bits. -/
def staticCast (w : ℕ) (x : BitVec v) : BitVec w := x.signExtend w

theorem staticCast_self (x : BitVec w) : staticCast w x = x := BitVec.signExtend_eq x

theorem fits_toInt (x : BitVec w) : Fits w x.toInt := by
  have hlo := x.le_two_mul_toInt
  have hhi := x.two_mul_toInt_lt
  exact ⟨hlo, hhi⟩

theorem toInt_staticCast_of_le (x : BitVec v) (h : v ≤ w) : (staticCast w x).toInt = x.toInt :=
  BitVec.toInt_signExtend_of_le h

/-- **A conversion** keeps what `w` bits keep of the number. -/
theorem toInt_staticCast (x : BitVec v) : (staticCast w x).toInt = wrap w x.toInt := by
  by_cases h : v ≤ w
  · rw [toInt_staticCast_of_le x h, wrap_eq_self ((fits_toInt x).mono h)]
  · exact BitVec.toInt_signExtend_eq_toInt_bmod_of_le x (by omega)

/-- The width of the common type of two operands: nothing is compared in less than an `int`. -/
def commonBits (v w : ℕ) : ℕ := max 32 (max v w)

theorem le_commonBits_left (v w : ℕ) : v ≤ commonBits v w := by
  unfold commonBits
  omega

theorem le_commonBits_right (v w : ℕ) : w ≤ commonBits v w := by
  unfold commonBits
  omega

end Conversions

/-! ## Unions -/

section Unions

/-- Write a member over what was there: the members begin at the same byte, and the first byte is the low one. -/
def storeLow (old : BitVec u) (x : BitVec w) : BitVec u := (old >>> w <<< w) ||| x.setWidth u

/-- The member is read back, whatever was there before. -/
theorem setWidth_storeLow (old : BitVec u) (x : BitVec w) (h : w ≤ u) : (storeLow old x).setWidth w = x := by
  unfold storeLow
  apply BitVec.eq_of_getLsbD_eq
  intro i hi
  have hu : i < u := by omega
  simp [hi, hu]

end Unions

end Journey
