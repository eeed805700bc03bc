import VariousStuff.CStrings
import Mathlib.Tactic.IntervalCases

/-! # Numbers as the kernel prints and parses them

`%#lx` writes lowercase digits without leading zeros behind `0x`, also for zero.
`kstrtoul` accepts one number, optionally followed by a newline, and nothing else. -/
namespace VariousStuff.KernelNumerals
open CStrings

/-- `%#lx`. -/
def hex (n : ℕ) : Text := '0' :: 'x' :: Nat.toDigits 16 n

def ERANGE : ℤ := 34
def EINVAL : ℤ := 22

/-- The value of a digit in bases up to sixteen. -/
def digitValue (c : Char) : Option ℕ :=
  if '0' ≤ c ∧ c ≤ '9' then some (c.toNat - '0'.toNat)
  else if 'a' ≤ c ∧ c ≤ 'f' then some (c.toNat - 'a'.toNat + 10)
  else if 'A' ≤ c ∧ c ≤ 'F' then some (c.toNat - 'A'.toNat + 10)
  else none

/-- `_parse_integer`, started in the middle of a number: the value read and the
number of digits used. A value of 2^64 or more is what it reports as overflow. -/
def parseInteger (base value used : ℕ) : Text → ℕ × ℕ
  | [] => (value, used)
  | c :: s => match digitValue c with
    | some d => if d < base then parseInteger base (value * base + d) (used + 1) s else (value, used)
    | none => (value, used)

def startsWith0x : Text → Bool
  | '0' :: c :: _ => c == 'x' || c == 'X'
  | _ => false

/-- `_parse_integer_fixup_radix`: the base and the text behind a base prefix. -/
def fixupRadix (s : Text) (base : ℕ) : ℕ × Text :=
  let base := if base ≠ 0 then base
    else if s.head? ≠ some '0' then 10
    else if startsWith0x s && (s[2]?.bind digitValue).isSome then 16
    else 8
  if base = 16 ∧ startsWith0x s = true then (base, s.drop 2) else (base, s)

/-- `kstrtoul` on a 64-bit kernel: the number, or the negated error. -/
def kstrtoul (s : Text) (base : ℕ) : Except ℤ (BitVec 64) :=
  let s := match s with
    | '+' :: s => s
    | s => s
  let (base, s) := fixupRadix s base
  let (value, used) := parseInteger base 0 0 s
  if 2 ^ 64 ≤ value then .error (-ERANGE)
  else if used = 0 then .error (-EINVAL)
  else match s.drop used with
    | [] | ['\n'] => .ok (BitVec.ofNat 64 value)
    | _ => .error (-EINVAL)

@[simp] theorem digitValue_digitChar {d : ℕ} (h : d < 16) : digitValue d.digitChar = some d := by
  interval_cases d <;> rfl

/-- Parsing consumes the digits `%#lx` printed, whatever stands behind them. -/
theorem parseInteger_toDigits_append (n used : ℕ) (rest : Text) :
    parseInteger 16 0 used (Nat.toDigits 16 n ++ rest) =
      parseInteger 16 n (used + (Nat.toDigits 16 n).length) rest := by
  induction n using Nat.strongRecOn generalizing rest with
  | ind n ih =>
    rw [Nat.toDigits_eq_if (by omega)]
    split
    · rename_i hn
      simp [parseInteger, digitValue_digitChar hn, hn]
    · rename_i hn
      have hd : n % 16 < 16 := Nat.mod_lt _ (by omega)
      have hvalue : n / 16 * 16 + n % 16 = n := Nat.div_add_mod' n 16
      rw [List.append_assoc, ih (n / 16) (by omega)]
      simp [parseInteger, digitValue_digitChar hd, hd, hvalue, Nat.add_assoc]

theorem head_toDigits_isHexDigit (n : ℕ) :
    ∃ c s, Nat.toDigits 16 n = c :: s ∧ (digitValue c).isSome := by
  induction n using Nat.strongRecOn with
  | ind n ih =>
    rw [Nat.toDigits_eq_if (by omega)]
    split
    · rename_i hn
      exact ⟨n.digitChar, [], rfl, by simp [digitValue_digitChar hn]⟩
    · rename_i hn
      obtain ⟨c, s, hs, hc⟩ := ih (n / 16) (by omega)
      exact ⟨c, s ++ [(n % 16).digitChar], by simp [hs], hc⟩

/-- The digits of `%#lx` are parsed as a whole, and what stands behind them decides. -/
theorem kstrtoul_hex_append_eq {n : ℕ} (h : n < 2 ^ 64) {rest : Text}
    (hrest : ∀ c ∈ rest.head?, digitValue c = none) : kstrtoul (hex n ++ rest) 0 =
      if rest = [] ∨ rest = ['\n'] then .ok (BitVec.ofNat 64 n) else .error (-EINVAL) := by
  obtain ⟨d, s, hs, hd⟩ := head_toDigits_isHexDigit n
  have hparse : parseInteger 16 0 0 (d :: s ++ rest) = (n, (d :: s).length) := by
    rw [← hs, parseInteger_toDigits_append, Nat.zero_add]
    cases rest with
    | nil => rfl
    | cons c rest => rw [parseInteger, hrest c rfl]
  have htext : hex n ++ rest = '0' :: 'x' :: (d :: s ++ rest) := by
    rw [hex, hs]
    rfl
  have hfixup : fixupRadix ('0' :: 'x' :: (d :: s ++ rest)) 0 = (16, d :: s ++ rest) := by
    simp [fixupRadix, startsWith0x, hd]
  have hdrop : (d :: s ++ rest).drop (s.length + 1) = rest := List.drop_left
  have hlt : ¬ 2 ^ 64 ≤ n := Nat.not_le.mpr h
  rw [htext, kstrtoul]
  · simp only [hfixup, hparse, if_neg hlt, List.length_cons, Nat.succ_ne_zero, if_false, hdrop]
    split
    · rw [if_pos (Or.inl rfl)]
    · rw [if_pos (Or.inr rfl)]
    · next hnil hnewline => rw [if_neg (not_or_intro hnil hnewline)]
  · intro s' hs'
    cases hs'

/-- `kstrtoul` undoes `%#lx` on every `unsigned long`. -/
theorem kstrtoul_hex {n : ℕ} (h : n < 2 ^ 64) : kstrtoul (hex n) 0 = .ok (BitVec.ofNat 64 n) := by
  have hwhole := kstrtoul_hex_append_eq h (fun c (hc : c ∈ ([] : Text).head?) => nomatch hc)
  rwa [List.append_nil, if_pos (Or.inl rfl)] at hwhole

theorem kstrtoul_hex_append {n : ℕ} (h : n < 2 ^ 64) {c : Char} (hc : digitValue c = none)
    (hnewline : c ≠ '\n') (rest : Text) : kstrtoul (hex n ++ c :: rest) 0 = .error (-EINVAL) := by
  have hstops : ∀ c' ∈ (c :: rest).head?, digitValue c' = none := by
    intro c' hc'
    obtain rfl : c = c' := Option.some.inj hc'
    exact hc
  rw [kstrtoul_hex_append_eq h hstops, if_neg]
  rintro (hnil | hnl)
  · cases hnil
  · exact hnewline (List.cons.inj hnl).1

theorem mem_hex {n : ℕ} {c : Char} (h : c ∈ hex n) : c = 'x' ∨ (digitValue c).isSome := by
  suffices hdigits : ∀ c ∈ Nat.toDigits 16 n, (digitValue c).isSome by
    rcases List.mem_cons.mp h with rfl | h
    · exact Or.inr rfl
    · rcases List.mem_cons.mp h with rfl | h
      · exact Or.inl rfl
      · exact Or.inr (hdigits c h)
  clear h c
  induction n using Nat.strongRecOn with
  | ind n ih =>
    intro c hc
    rw [Nat.toDigits_eq_if (by omega)] at hc
    split at hc
    · rename_i hn
      obtain rfl := List.mem_singleton.mp hc
      simp [digitValue_digitChar hn]
    · rename_i hn
      rcases List.mem_append.mp hc with hc | hc
      · exact ih (n / 16) (by omega) c hc
      · obtain rfl := List.mem_singleton.mp hc
        simp [digitValue_digitChar (Nat.mod_lt n (by omega : 0 < 16))]

end VariousStuff.KernelNumerals
