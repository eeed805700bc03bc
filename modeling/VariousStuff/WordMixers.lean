import Mathlib.Data.BitVec
import Mathlib.Logic.Function.Iterate
import Mathlib.Tactic.Ring

/-! # Steps that mix a word and lose nothing

Hash functions mix their words with shifts, rotations, exclusive or and multiplication. A
word with some of its rotations or shifts on top is found again by doing the same sufficiently
often: every repetition doubles the distances, until they are gone. -/
namespace VariousStuff.WordMixers

variable {w : ℕ}

/-! ## Iterates -/

section Iterates
variable {α : Type}

/-- A function some iterate of which does nothing. -/
theorem injective_of_iterate_eq_id {f : α → α} {n : ℕ} (hn : 1 ≤ n) (h : f^[n] = id) :
    Function.Injective f := by
  obtain ⟨m, rfl⟩ : ∃ m, n = m + 1 := ⟨n - 1, by omega⟩
  have hcomp : Function.Injective (f^[m] ∘ f) := by
    rw [← Function.iterate_succ, h]
    exact Function.injective_id
  exact hcomp.of_comp

/-- A family in which repeating a member doubles its parameter. -/
theorem iterate_two_pow {F : ℕ → α → α} (hdouble : ∀ n x, F n (F n x) = F (2 * n) x) (n k : ℕ) :
    (F n)^[2 ^ k] = F (2 ^ k * n) := by
  induction k with
  | zero =>
    funext x
    simp
  | succ k ih =>
    funext x
    rw [Nat.pow_succ, Function.iterate_mul, ih, Nat.mul_right_comm, Nat.mul_comm _ 2]
    exact hdouble _ x

end Iterates

/-! ## Shifts -/

/-- A word and its own shift. -/
def xorShift (n : ℕ) (x : BitVec w) : BitVec w := x ^^^ x >>> n

theorem xorShift_xorShift (n : ℕ) (x : BitVec w) :
    xorShift n (xorShift n x) = xorShift (2 * n) x := by
  rw [xorShift, xorShift, xorShift, BitVec.ushiftRight_xor_distrib, ← BitVec.shiftRight_add,
    ← Nat.two_mul, BitVec.xor_assoc, ← BitVec.xor_assoc (x >>> n), BitVec.xor_self, BitVec.zero_xor]

theorem xorShift_of_le {n : ℕ} (h : w ≤ n) (x : BitVec w) : xorShift n x = x := by
  rw [xorShift, BitVec.ushiftRight_eq_zero h, BitVec.xor_zero]

theorem xorShift_injective {n : ℕ} (hn : 1 ≤ n) : Function.Injective (xorShift n : BitVec w → _) := by
  have hpow : w < 2 ^ w := Nat.lt_two_pow_self
  apply injective_of_iterate_eq_id (Nat.one_le_two_pow (n := w))
  rw [iterate_two_pow xorShift_xorShift]
  funext x
  apply xorShift_of_le
  exact Nat.le_trans (Nat.le_of_lt hpow) (Nat.le_mul_of_pos_right _ hn)

/-! ## Rotations -/

section Rotations
variable [NeZero w]

theorem getLsbD_rotateLeft_fin (x : BitVec w) (n : ℕ) (i : Fin w) :
    (x.rotateLeft n).getLsbD i = x.getLsbD (i - Fin.ofNat w n : Fin w) := by
  have hw : 0 < w := Nat.pos_of_neZero w
  have hi := i.isLt
  rw [BitVec.getLsbD_rotateLeft, Fin.sub_def]
  simp only [Fin.val_ofNat]
  obtain ⟨r, hr⟩ : ∃ r, r = n % w := ⟨_, rfl⟩
  have hlt : r < w := hr ▸ Nat.mod_lt n hw
  rw [← hr]
  by_cases hlow : (i : ℕ) < r
  · rw [Nat.mod_eq_of_lt (by omega)]
    simp [hlow]
  · have hwrap : w - r + i = i - r + w := by omega
    rw [hwrap, Nat.add_mod_right, Nat.mod_eq_of_lt (by omega)]
    simp [hlow, hi]

omit [NeZero w] in
theorem eq_of_getLsbD_fin {x y : BitVec w} (h : ∀ i : Fin w, x.getLsbD i = y.getLsbD i) : x = y :=
  BitVec.eq_of_getLsbD_eq fun i hi => h ⟨i, hi⟩

theorem rotateLeft_of_dvd {n : ℕ} (h : w ∣ n) (x : BitVec w) : x.rotateLeft n = x := by
  apply eq_of_getLsbD_fin
  intro i
  have hzero : Fin.ofNat w n = 0 := Fin.ext (Nat.mod_eq_zero_of_dvd h)
  rw [getLsbD_rotateLeft_fin, hzero, sub_zero]

/-- A word and two of its rotations. -/
def mixRotations (a b : ℕ) (x : BitVec w) : BitVec w := x ^^^ (x.rotateLeft a ^^^ x.rotateLeft b)

/-- What a word is rotated by in both ways cancels. -/
theorem mixRotations_mixRotations (a b : ℕ) (x : BitVec w) :
    mixRotations a b (mixRotations a b x) = mixRotations (2 * a) (2 * b) x := by
  have hdouble : ∀ n : ℕ, Fin.ofNat w (2 * n) = Fin.ofNat w n + Fin.ofNat w n := by
    intro n
    apply Fin.ext
    rw [Fin.val_add, Fin.val_ofNat, Fin.val_ofNat, Nat.two_mul, Nat.add_mod]
  have hcancel : ∀ p q r s t u : Bool,
      (p ^^ (q ^^ r) ^^ ((q ^^ (s ^^ t)) ^^ (r ^^ (t ^^ u)))) = (p ^^ (s ^^ u)) := by decide
  apply eq_of_getLsbD_fin
  intro i
  simp only [mixRotations, BitVec.getLsbD_xor, getLsbD_rotateLeft_fin, hdouble, ← sub_sub]
  rw [sub_right_comm i (Fin.ofNat w b) (Fin.ofNat w a)]
  exact hcancel _ _ _ _ _ _

/-- In a word whose width is a power of two, the rotations come back to where they started. -/
theorem mixRotations_injective {k : ℕ} (hw : w = 2 ^ k) (a b : ℕ) :
    Function.Injective (mixRotations a b : BitVec w → _) := by
  have hiterate : ∀ n : ℕ, (mixRotations a b : BitVec w → _)^[2 ^ n] =
      mixRotations (2 ^ n * a) (2 ^ n * b) := by
    intro n
    have hpow := iterate_two_pow
      (F := fun m => mixRotations (w := w) (m * a) (m * b)) ?_ 1 n
    · simpa using hpow
    · intro m x
      rw [mixRotations_mixRotations, Nat.mul_assoc, Nat.mul_assoc]
  apply injective_of_iterate_eq_id (Nat.one_le_two_pow (n := k))
  rw [hiterate, ← hw]
  funext x
  rw [mixRotations, rotateLeft_of_dvd (Nat.dvd_mul_right w a), rotateLeft_of_dvd (Nat.dvd_mul_right w b),
    BitVec.xor_self, BitVec.xor_zero]
  rfl

end Rotations

/-! ## Arithmetic -/

theorem mul_right_injective_of_inverse {a b : BitVec w} (h : a * b = 1) :
    Function.Injective (· * a) := by
  intro x y hxy
  have hback := congrArg (· * b) hxy
  dsimp only at hback
  rw [BitVec.mul_assoc, BitVec.mul_assoc, h] at hback
  simpa using hback

end VariousStuff.WordMixers
