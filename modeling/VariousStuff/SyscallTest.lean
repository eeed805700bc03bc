import VariousStuff.CStrings
import VariousStuff.IntArithmetic
import VariousStuff.InteractivePrograms
import Mathlib.Data.List.TakeWhile

/-! # Probing a system call by number

The number comes from a parser that uses `INT_MAX` both as a value and as its error. -/
namespace VariousStuff.SyscallTest
open Interactive CStrings IntArithmetic

/-- A parsed value as a machine computes it, and whether an `int` operation overflowed
on the way. -/
structure Parse where
  value : ℤ
  overflowed : Bool
  deriving DecidableEq

/-- Label `start`: one character, with the locals of `dumb_atoi`. -/
def dumbAtoiStart (res : ℤ) (overflowed : Bool) : Text → Parse
  | [] => ⟨INT_MAX, overflowed⟩
  | c :: str =>
    if c.isDigit = false then ⟨INT_MAX, overflowed⟩
    else
      let product := res * 10
      let sum := narrow product + ((c.toNat : ℤ) - 48)
      let res := narrow sum
      let overflowed := overflowed || decide (¬ Fits product) || decide (¬ Fits sum)
      if str = [] then ⟨res, overflowed⟩ else dumbAtoiStart res overflowed str

def dumbAtoi (str : Text) : Parse := dumbAtoiStart 0 false str

inductive TestCall where
  | probe (sc : ℤ)
  | write (fd : ℕ) (bytes : Text)
  deriving DecidableEq

/-- Every call returns a `long`. -/
abbrev TestCall.Answer : TestCall → Type := fun _ => ℤ

abbrev TestProg := Prog TestCall.Answer

abbrev TestTranscript := Transcript TestCall.Answer

def ENOSYS : ℤ := 38

def str1 : Text := "syscall exists!\n".toList
def str2 : Text := "syscall does NOT exist!\n".toList
def str3 : Text := "erronous input!\ntry ./sctest 123\n".toList

/-- Label `print_out`; `sizeof` counts the terminator. -/
def printOut (str : Text) : TestProg ℤ := do
  let _ ← Prog.ask (TestCall.write 1 (str ++ ['\x00']))
  return 0

/-- `argv[1]` is a string or null. -/
def cMain (argv1 : Option Text) : TestProg ℤ :=
  match argv1 with
  | none => printOut str3
  | some arg =>
    let sc := (dumbAtoi arg).value
    if sc = INT_MAX then printOut str3
    else do
      let ret ← Prog.ask (TestCall.probe sc)
      if narrow ret = -ENOSYS then printOut str2 else printOut str1

/-- The numbers probed. -/
def probes (t : TestTranscript) : List ℤ :=
  t.filterMap fun
    | ⟨.probe sc, _⟩ => some sc
    | _ => none

/-- The texts written to the standard output. -/
def outputs (t : TestTranscript) : List Text :=
  t.filterMap fun
    | ⟨.write 1 bytes, _⟩ => some bytes
    | _ => none

/-! ## What is asked for -/

/-- The number that a string denotes, if it is one below `INT_MAX`. -/
def denoted (s : Text) : Option ℤ :=
  if s ≠ [] ∧ s.all Char.isDigit ∧ (Nat.ofDigitChars 10 s 0 : ℤ) < INT_MAX then
    some (Nat.ofDigitChars 10 s 0)
  else none

/-- The parser yields the number denoted or `INT_MAX` without an overflow, and the
program probes exactly that number or complains about its input. -/
structure ProbesDenoted (s : Text) : Prop where
  value : (dumbAtoi s).value = (denoted s).getD INT_MAX
  defined : (dumbAtoi s).overflowed = false
  probes : ∀ env, probes ((cMain (some s)).run env).2 = (denoted s).toList
  complains : denoted s = none → ∀ env, outputs ((cMain (some s)).run env).2 = [str3 ++ ['\x00']]

/-- The value of the digits at the start of a string. -/
def leadingValue (s : Text) : ℕ := Nat.ofDigitChars 10 (s.takeWhile Char.isDigit) 0

section Parser
variable {c : Char} {str s : Text} {res : ℕ} {overflowed : Bool}

theorem le_ofDigitChars (l : Text) (res : ℕ) : res ≤ Nat.ofDigitChars 10 l res := by
  induction l generalizing res with
  | nil => exact Nat.le_refl res
  | cons c l ih =>
    rw [Nat.ofDigitChars_cons]
    have hle := ih (10 * res + (c.toNat - '0'.toNat))
    omega

theorem digit_step (h : c.isDigit = true) (res : ℕ) :
    (res : ℤ) * 10 + ((c.toNat : ℤ) - 48) = ((10 * res + (c.toNat - '0'.toNat) : ℕ) : ℤ) := by
  have hdigit : '0'.toNat ≤ c.toNat := (Char.isDigit_iff_toNat.mp h).1
  have hzero : '0'.toNat = 48 := rfl
  omega

theorem dumbAtoiStart_cons_other (h : c.isDigit = false) (res : ℤ) :
    dumbAtoiStart res overflowed (c :: str) = ⟨INT_MAX, overflowed⟩ := by
  rw [dumbAtoiStart, if_pos h]

theorem dumbAtoiStart_cons_digit (h : c.isDigit = true)
    (hfits : ((10 * res + (c.toNat - '0'.toNat) : ℕ) : ℤ) ≤ INT_MAX) :
    dumbAtoiStart res overflowed (c :: str) =
      if str = [] then ⟨((10 * res + (c.toNat - '0'.toNat) : ℕ) : ℤ), overflowed⟩
      else dumbAtoiStart ((10 * res + (c.toNat - '0'.toNat) : ℕ) : ℤ) overflowed str := by
  have hproduct : Fits ((res : ℤ) * 10) := by
    rw [fits_iff]
    rw [INT_MAX] at hfits
    omega
  have hsumFits : Fits ((10 * res + (c.toNat - '0'.toNat) : ℕ) : ℤ) := ⟨by rw [INT_MIN]; omega, hfits⟩
  rw [dumbAtoiStart, if_neg (by rw [h]; exact Bool.noConfusion)]
  simp only [narrow_of_fits hproduct, digit_step h, narrow_of_fits hsumFits, hproduct, hsumFits,
    not_true_eq_false, decide_false, Bool.or_false]

/-- An overflow is not forgotten. -/
theorem overflowed_dumbAtoiStart (s : Text) (res : ℤ) : (dumbAtoiStart res true s).overflowed = true := by
  induction s generalizing res with
  | nil => rfl
  | cons c str ih =>
    rw [dumbAtoiStart]
    split
    · rfl
    · simp only [Bool.true_or]
      split
      · rfl
      · exact ih _

/-- While the digits fit, the parser computes their value. -/
theorem dumbAtoiStart_of_le (h : (Nat.ofDigitChars 10 (s.takeWhile Char.isDigit) res : ℤ) ≤ INT_MAX) :
    dumbAtoiStart res overflowed s =
      ⟨if s ≠ [] ∧ s.all Char.isDigit then (Nat.ofDigitChars 10 s res : ℤ) else INT_MAX,
        overflowed⟩ := by
  induction s generalizing res with
  | nil => rw [dumbAtoiStart, if_neg (by simp)]
  | cons c str ih =>
    cases hc : c.isDigit with
    | false =>
      have hall : (c :: str).all Char.isDigit = false := by rw [List.all_cons, hc, Bool.false_and]
      rw [dumbAtoiStart_cons_other hc, hall, if_neg (fun h => Bool.false_ne_true h.2)]
    | true =>
      rw [List.takeWhile_cons_of_pos hc, Nat.ofDigitChars_cons] at h
      have hle := le_ofDigitChars (str.takeWhile Char.isDigit) (10 * res + (c.toNat - '0'.toNat))
      rw [dumbAtoiStart_cons_digit hc (by omega), Nat.ofDigitChars_cons]
      by_cases hstr : str = []
      · subst hstr
        simp [hc]
      · rw [if_neg hstr, ih h]
        simp [hc, hstr]

theorem overflowed_cons_digit (h : c.isDigit = true)
    (hfits : INT_MAX < ((10 * res + (c.toNat - '0'.toNat) : ℕ) : ℤ)) :
    (dumbAtoiStart res overflowed (c :: str)).overflowed = true := by
  have hflag : (overflowed || decide (¬ Fits ((res : ℤ) * 10)) ||
      decide (¬ Fits (narrow ((res : ℤ) * 10) + ((c.toNat : ℤ) - 48)))) = true := by
    by_cases hproduct : Fits ((res : ℤ) * 10)
    · have hsum : ¬ Fits (narrow ((res : ℤ) * 10) + ((c.toNat : ℤ) - 48)) := by
        rw [narrow_of_fits hproduct, digit_step h]
        exact fun hboth => absurd hboth.2 (Int.not_le.mpr hfits)
      rw [decide_eq_true hsum, Bool.or_true]
    · rw [decide_eq_true hproduct, Bool.or_true, Bool.true_or]
  rw [dumbAtoiStart, if_neg (by rw [h]; exact Bool.noConfusion)]
  simp only [hflag]
  split
  · rfl
  · exact overflowed_dumbAtoiStart str _

/-- Otherwise some operation overflows. -/
theorem dumbAtoiStart_of_lt (hres : (res : ℤ) ≤ INT_MAX)
    (h : INT_MAX < (Nat.ofDigitChars 10 (s.takeWhile Char.isDigit) res : ℤ)) :
    (dumbAtoiStart res overflowed s).overflowed = true := by
  induction s generalizing res with
  | nil => exact absurd h (Int.not_lt.mpr hres)
  | cons c str ih =>
    cases hc : c.isDigit with
    | false =>
      rw [List.takeWhile_cons_of_neg (by rw [hc]; exact Bool.noConfusion)] at h
      exact absurd h (Int.not_lt.mpr hres)
    | true =>
      rw [List.takeWhile_cons_of_pos hc, Nat.ofDigitChars_cons] at h
      by_cases hfits : ((10 * res + (c.toNat - '0'.toNat) : ℕ) : ℤ) ≤ INT_MAX
      · rw [dumbAtoiStart_cons_digit hc hfits]
        split
        · rename_i hstr
          rw [hstr] at h
          exact absurd h (Int.not_lt.mpr hfits)
        · exact ih hfits h
      · exact overflowed_cons_digit hc (Int.not_le.mp hfits)

theorem leadingValue_of_digits (h : s.all Char.isDigit = true) :
    leadingValue s = Nat.ofDigitChars 10 s 0 := by
  rw [leadingValue, List.takeWhile_eq_self_iff.mpr (List.all_eq_true.mp h)]

theorem denoted_getD (h : (leadingValue s : ℤ) ≤ INT_MAX) : (denoted s).getD INT_MAX =
    if s ≠ [] ∧ s.all Char.isDigit then (Nat.ofDigitChars 10 s 0 : ℤ) else INT_MAX := by
  by_cases hdigits : s ≠ [] ∧ s.all Char.isDigit
  · rw [leadingValue_of_digits hdigits.2] at h
    rw [if_pos hdigits, denoted]
    by_cases hlt : (Nat.ofDigitChars 10 s 0 : ℤ) < INT_MAX
    · rw [if_pos ⟨hdigits.1, hdigits.2, hlt⟩, Option.getD_some]
    · rw [if_neg (fun hall => hlt hall.2.2), Option.getD_none]
      exact Int.le_antisymm (Int.not_lt.mp hlt) h
  · rw [if_neg hdigits, denoted, if_neg (fun hall => hdigits ⟨hall.1, hall.2.1⟩), Option.getD_none]

theorem dumbAtoi_of_le (h : (leadingValue s : ℤ) ≤ INT_MAX) :
    dumbAtoi s = ⟨(denoted s).getD INT_MAX, false⟩ := by
  have hparse : dumbAtoiStart ((0 : ℕ) : ℤ) false s = _ := dumbAtoiStart_of_le h
  rw [denoted_getD h]
  exact hparse

theorem ne_of_mem_denoted {n : ℤ} (h : denoted s = some n) : n ≠ INT_MAX := by
  obtain ⟨hall, hn⟩ := Option.ite_none_right_eq_some.mp h
  obtain rfl := Option.some.inj hn
  exact Int.ne_of_lt hall.2.2

end Parser

section Program
variable (env : ∀ op : TestCall, op.Answer) {s : Text}

theorem printOut_run (str : Text) : (printOut str).run env =
    (some 0, [⟨.write 1 (str ++ ['\x00']), env (.write 1 (str ++ ['\x00']))⟩]) := rfl

theorem cMain_run_error (h : (dumbAtoi s).value = INT_MAX) :
    (cMain (some s)).run env =
      (some 0, [⟨.write 1 (str3 ++ ['\x00']), env (.write 1 (str3 ++ ['\x00']))⟩]) := by
  rw [cMain]
  simp only [h, if_true]
  exact printOut_run env str3

/-- Any other value is probed, and what came of it is printed. -/
theorem probes_cMain (h : (dumbAtoi s).value ≠ INT_MAX) :
    probes ((cMain (some s)).run env).2 = [(dumbAtoi s).value] := by
  rw [cMain]
  simp only [h, if_false, Prog.bind_eq, Prog.ask_bind, Prog.run_call]
  split <;> rw [printOut_run] <;> rfl

theorem probes_cMain_of_le (h : (leadingValue s : ℤ) ≤ INT_MAX) :
    probes ((cMain (some s)).run env).2 = (denoted s).toList := by
  have hvalue : (dumbAtoi s).value = (denoted s).getD INT_MAX := by rw [dumbAtoi_of_le h]
  cases hdenoted : denoted s with
  | none =>
    rw [hdenoted] at hvalue
    rw [cMain_run_error env hvalue]
    rfl
  | some n =>
    rw [hdenoted] at hvalue
    have hne : (dumbAtoi s).value ≠ INT_MAX := by
      rw [hvalue]
      exact ne_of_mem_denoted hdenoted
    rw [probes_cMain env hne, hvalue]
    rfl

theorem outputs_cMain_of_le (h : (leadingValue s : ℤ) ≤ INT_MAX) (hnone : denoted s = none) :
    outputs ((cMain (some s)).run env).2 = [str3 ++ ['\x00']] := by
  have hvalue : (dumbAtoi s).value = INT_MAX := by
    rw [dumbAtoi_of_le h, hnone]
    rfl
  rw [cMain_run_error env hvalue]
  rfl

end Program

/-- The program probes what it was asked to, and nothing else, exactly for the strings
whose leading digits have a value that fits. -/
theorem probesDenoted_iff (s : Text) : ProbesDenoted s ↔ (leadingValue s : ℤ) ≤ INT_MAX := by
  constructor
  · intro h
    by_contra hlt
    have hoverflow : (dumbAtoiStart ((0 : ℕ) : ℤ) false s).overflowed = true :=
      dumbAtoiStart_of_lt (by decide) (Int.not_le.mp hlt)
    exact Bool.noConfusion (h.defined.symm.trans hoverflow)
  · intro h
    have hparse := dumbAtoi_of_le h
    exact {
      value := by rw [hparse]
      defined := by rw [hparse]
      probes := fun env => probes_cMain_of_le env h
      complains := fun hnone env => outputs_cMain_of_le env h hnone }

/-- The number 39 is probed for a string that denotes a much larger one. -/
theorem not_probesDenoted_wrapped : ¬ ProbesDenoted "4294967335".toList ∧
    ∀ env, probes ((cMain (some "4294967335".toList)).run env).2 = [39] := by
  constructor
  · intro h
    exact absurd h.defined (by decide)
  · intro env
    have hvalue : (dumbAtoi "4294967335".toList).value = 39 := by decide
    have hprobes := probes_cMain (s := "4294967335".toList) env (by rw [hvalue]; decide)
    rwa [hvalue] at hprobes

end VariousStuff.SyscallTest
