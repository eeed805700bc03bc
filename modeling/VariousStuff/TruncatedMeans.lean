import Mathlib.Algebra.BigOperators.Group.List.Basic
import Mathlib.Tactic.Linarith
import Mathlib.Tactic.Ring

/-! # Means with two truncations

Each of some numbers is divided by a batch size, and the sum of the quotients by the
count of the numbers. Both divisions round down, and what they lose adds up. -/
namespace VariousStuff.TruncatedMeans

/-- The sum of the quotients, each rounded down. -/
def quotientSum (batch : ℕ) (xs : List ℕ) : ℕ := (xs.map (· / batch)).sum

/-- The mean over `count` numbers, rounded down twice. -/
def truncatedMean (count batch : ℕ) (xs : List ℕ) : ℕ := quotientSum batch xs / count

section Bounds
variable {batch : ℕ}

theorem quotientSum_cons (x : ℕ) (xs : List ℕ) :
    quotientSum batch (x :: xs) = x / batch + quotientSum batch xs := List.sum_cons

theorem mul_quotientSum_le (batch : ℕ) (xs : List ℕ) : batch * quotientSum batch xs ≤ xs.sum := by
  induction xs with
  | nil => exact Nat.le_refl 0
  | cons x xs ih =>
    have hx : batch * (x / batch) ≤ x := Nat.mul_div_le x batch
    rw [quotientSum_cons, Nat.mul_add, List.sum_cons]
    omega

theorem sum_le_mul_quotientSum (hbatch : 0 < batch) (xs : List ℕ) :
    xs.sum ≤ batch * quotientSum batch xs + xs.length * (batch - 1) := by
  induction xs with
  | nil => exact Nat.zero_le _
  | cons x xs ih =>
    have hx : batch * (x / batch) + x % batch = x := Nat.div_add_mod x batch
    have hrest : x % batch < batch := Nat.mod_lt x hbatch
    rw [quotientSum_cons, Nat.mul_add, List.sum_cons, List.length_cons, Nat.succ_mul]
    omega

theorem quotientSum_le_sum (batch : ℕ) (xs : List ℕ) : quotientSum batch xs ≤ xs.sum := by
  induction xs with
  | nil => exact Nat.le_refl 0
  | cons x xs ih =>
    have hx : x / batch ≤ x := Nat.div_le_self x batch
    rw [quotientSum_cons, List.sum_cons]
    omega

theorem mul_truncatedMean_le (count batch : ℕ) (xs : List ℕ) :
    count * batch * truncatedMean count batch xs ≤ xs.sum := by
  have hmean : count * truncatedMean count batch xs ≤ quotientSum batch xs := Nat.mul_div_le _ count
  calc count * batch * truncatedMean count batch xs
      = batch * (count * truncatedMean count batch xs) := by ring
    _ ≤ batch * quotientSum batch xs := Nat.mul_le_mul_left batch hmean
    _ ≤ xs.sum := mul_quotientSum_le batch xs

/-- The loss of both truncations. -/
theorem sum_le_mul_truncatedMean (hbatch : 0 < batch) {count : ℕ} (hcount : 0 < count)
    {xs : List ℕ} (hlength : xs.length = count) :
    xs.sum ≤ count * batch * truncatedMean count batch xs +
      (batch * (count - 1) + count * (batch - 1)) := by
  have hmean : quotientSum batch xs ≤ count * truncatedMean count batch xs + (count - 1) := by
    have hdiv := Nat.div_add_mod (quotientSum batch xs) count
    have hrest := Nat.mod_lt (quotientSum batch xs) hcount
    rw [truncatedMean]
    omega
  calc xs.sum
      ≤ batch * quotientSum batch xs + count * (batch - 1) := by
        rw [← hlength]
        exact sum_le_mul_quotientSum hbatch xs
    _ ≤ batch * (count * truncatedMean count batch xs + (count - 1)) + count * (batch - 1) :=
        Nat.add_le_add_right (Nat.mul_le_mul_left batch hmean) _
    _ = count * batch * truncatedMean count batch xs +
          (batch * (count - 1) + count * (batch - 1)) := by ring

/-- The whole loss is less than two units of the mean. -/
theorem loss_lt (hbatch : 0 < batch) {count : ℕ} (hcount : 0 < count) :
    batch * (count - 1) + count * (batch - 1) < 2 * (count * batch) := by
  have hleft : batch * (count - 1) < count * batch := by
    rw [Nat.mul_comm count]
    exact Nat.mul_lt_mul_of_pos_left (by omega) hbatch
  have hright : count * (batch - 1) < count * batch :=
    Nat.mul_lt_mul_of_pos_left (by omega) hcount
  omega

end Bounds

end VariousStuff.TruncatedMeans
