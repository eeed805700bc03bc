import Mathlib.Algebra.Group.Int.Defs
import Mathlib.Data.Int.Notation

/-! # The type `int`

Its values are integers of 32 bits. An operation whose result does not fit is undefined in
C; a machine keeps the low 32 bits. -/
namespace VariousStuff.IntArithmetic

def INT_MAX : ℤ := 2147483647
def INT_MIN : ℤ := -2147483648

/-- `n` is a value of type `int`. -/
def Fits (n : ℤ) : Prop := INT_MIN ≤ n ∧ n ≤ INT_MAX

instance (n : ℤ) : Decidable (Fits n) := inferInstanceAs (Decidable (_ ∧ _))

/-- The `int` with the same low 32 bits. -/
def narrow (n : ℤ) : ℤ := (n + 2147483648) % 4294967296 - 2147483648

theorem fits_iff {n : ℤ} : Fits n ↔ -2147483648 ≤ n ∧ n ≤ 2147483647 := Iff.rfl

theorem fits_narrow (n : ℤ) : Fits (narrow n) := by
  rw [fits_iff, narrow]
  omega

theorem narrow_of_fits {n : ℤ} (h : Fits n) : narrow n = n := by
  rw [fits_iff] at h
  rw [narrow]
  omega

end VariousStuff.IntArithmetic
