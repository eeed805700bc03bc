import Mathlib.Data.Nat.Init
import Mathlib.Algebra.Group.Nat.Defs

/-! # Numerals of a fixed width, padded with zeros -/
namespace VariousStuff.FixedWidthNumerals

/-- The last `len` digits of `n`, the most significant first. -/
def fixedWidth (b n len : ℕ) : List Char := (Nat.toDigits b (n % b ^ len)).leftpad len '0'

variable {b : ℕ}

theorem fixedWidth_one (hb : 1 < b) (n : ℕ) : fixedWidth b n 1 = [(n % b).digitChar] := by
  rw [fixedWidth, Nat.pow_one, Nat.toDigits_of_lt_base (Nat.mod_lt n (by omega))]
  rfl

theorem fixedWidth_succ (hb : 1 < b) (n : ℕ) {len : ℕ} (hlen : 1 ≤ len) :
    fixedWidth b n (len + 1) = fixedWidth b (n / b) len ++ [(n % b).digitChar] := by
  have hdigit : n % b < b := Nat.mod_lt n (by omega)
  have hsplit : n % b ^ (len + 1) = b * (n / b % b ^ len) + n % b := by
    rw [Nat.pow_succ', Nat.mod_mul, Nat.add_comm]
  rw [fixedWidth, hsplit, fixedWidth]
  by_cases hq : n / b % b ^ len = 0
  · obtain ⟨k, rfl⟩ : ∃ k, len = k + 1 := ⟨len - 1, by omega⟩
    rw [hq, Nat.mul_zero, Nat.zero_add, Nat.toDigits_of_lt_base hdigit, Nat.toDigits_zero]
    simp [List.leftpad, List.replicate_succ']
  · rw [← Nat.toDigits_append_toDigits hb (Nat.pos_of_ne_zero hq) hdigit,
      Nat.toDigits_of_lt_base hdigit]
    simp [List.leftpad]

theorem length_fixedWidth (hb : 1 < b) (n : ℕ) {len : ℕ} (hlen : 1 ≤ len) :
    (fixedWidth b n len).length = len := by
  have hlt : n % b ^ len < b ^ len := Nat.mod_lt n (Nat.pow_pos (by omega))
  rw [fixedWidth, List.length_leftpad,
    Nat.max_eq_left ((Nat.length_toDigits_le_iff hb (by omega)).mpr hlt)]

theorem ofDigitChars_fixedWidth (hb : 1 < b) (hb' : b ≤ 10) (n len : ℕ) :
    Nat.ofDigitChars b (fixedWidth b n len) 0 = n % b ^ len := by
  rw [fixedWidth, List.leftpad, Nat.ofDigitChars_append, Nat.ofDigitChars_replicate_zero,
    Nat.mul_zero, Nat.ofDigitChars_toDigits hb hb']

theorem isDigit_of_mem_fixedWidth (hb : 1 < b) (hb' : b ≤ 10) {n len : ℕ} {c : Char}
    (hc : c ∈ fixedWidth b n len) : c.isDigit = true := by
  rw [fixedWidth, List.leftpad] at hc
  rcases List.mem_append.mp hc with hc | hc
  · rw [List.eq_of_mem_replicate hc]
    rfl
  · exact Nat.isDigit_of_mem_toDigits (by omega) hb' hc

end VariousStuff.FixedWidthNumerals
