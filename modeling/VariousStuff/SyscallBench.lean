import VariousStuff.CStrings
import VariousStuff.FixedWidthNumerals
import VariousStuff.TotalPreconditions
import Mathlib.Tactic.IntervalCases

/-! # A benchmark that prints its results through one buffer

The digits of a result are written into the buffer of the result before, behind its
opening parenthesis. -/
namespace VariousStuff.SyscallBench
open Interactive CStrings FixedWidthNumerals

def nIterations : ℕ := 1000000

/-- The bytes of an array, a terminator included. -/
abbrev Buffer := Text

/-! ## `long_to_str` -/

/-- Label `start`, at which `len` is also the position behind the next digit. A byte
outside of the buffer is not written, and there is no result then. -/
def longToStr (number : ℕ) : ℕ → Buffer → Option Buffer
  | 0, _ => none
  | len + 1, buf =>
    if len < buf.length then
      let buf := buf.set len (Char.ofNat (48 + number % 10))
      let number := number / 10
      if len > 0 then longToStr number len buf else some buf
    else none

theorem ofNat_digit {d : ℕ} (hd : d < 10) : Char.ofNat (48 + d) = d.digitChar := by
  interval_cases d <;> rfl

theorem drop_set (buf : Buffer) {len : ℕ} (h : len < buf.length) (c : Char) :
    (buf.set len c).drop len = c :: buf.drop (len + 1) := by
  rw [List.drop_set, if_neg (Nat.lt_irrefl len), Nat.sub_self, List.drop_eq_getElem_cons h]
  rfl

theorem longToStr_eq (number : ℕ) {len : ℕ} {buf : Buffer} (hlen : 1 ≤ len)
    (hbuf : len ≤ buf.length) :
    longToStr number len buf = some (fixedWidth 10 number len ++ buf.drop len) := by
  induction len, hlen using Nat.le_induction generalizing number buf with
  | base =>
    have hpos : 0 < buf.length := hbuf
    have hdrop := drop_set buf hpos (number % 10).digitChar
    rw [List.drop_zero] at hdrop
    rw [longToStr, if_pos hpos, ofNat_digit (Nat.mod_lt number (by omega)), hdrop,
      fixedWidth_one (by omega)]
    rfl
  | succ len hlen ih =>
    have hlt : len < buf.length := hbuf
    rw [longToStr, if_pos hlt, ofNat_digit (Nat.mod_lt number (by omega))]
    simp only [gt_iff_lt, Nat.lt_of_succ_le hlen, if_true]
    rw [ih (number / 10) (by rw [List.length_set]; omega), drop_set buf hlt,
      fixedWidth_succ (by omega) number hlen, List.append_assoc]
    rfl

/-- The loop ends with the numeral of fixed width in front of the bytes that were there,
and a number of that many digits is read back. -/
theorem longToStr_writes_numeral (number : ℕ) {len : ℕ} {buf : Buffer} (hlen : 1 ≤ len)
    (hbuf : len ≤ buf.length) :
    ∃ buf', longToStr number len buf = some buf' ∧
      buf'.take len = (Nat.toDigits 10 (number % 10 ^ len)).leftpad len '0' ∧
      buf'.drop len = buf.drop len ∧ buf'.length = buf.length ∧
      (number < 10 ^ len → Nat.ofDigitChars 10 (buf'.take len) 0 = number) := by
  have hwidth := length_fixedWidth (by omega : 1 < 10) number hlen
  have htake : (fixedWidth 10 number len ++ buf.drop len).take len = fixedWidth 10 number len := by
    rw [List.take_append_of_le_length (Nat.le_of_eq hwidth.symm),
      List.take_of_length_le (Nat.le_of_eq hwidth)]
  refine ⟨_, longToStr_eq number hlen hbuf, htake, ?_, ?_, ?_⟩
  · rw [List.drop_append_of_le_length (Nat.le_of_eq hwidth.symm),
      List.drop_of_length_le (Nat.le_of_eq hwidth), List.nil_append]
  · rw [List.length_append, hwidth, List.length_drop]
    omega
  · intro hlt
    rw [htake, ofDigitChars_fixedWidth (by omega) (by omega), Nat.mod_eq_of_lt hlt]

/-- Five digits of a number of seven, in a buffer of six bytes. -/
theorem longToStr_writes_numeral_10123 :
    longToStr 9910123 5 "......".toList = some "10123.".toList ∧
      Nat.ofDigitChars 10 ("00042".toList) 0 = 42 := by
  obtain ⟨buf, hrun, htake, hdrop, -, -⟩ :=
    longToStr_writes_numeral 9910123 (by decide : 1 ≤ 5) (by decide : 5 ≤ "......".toList.length)
  obtain ⟨buf', hrun', htake', -, -, hread⟩ :=
    longToStr_writes_numeral 42 (by decide : 1 ≤ 5) (by decide : 5 ≤ "......".toList.length)
  refine ⟨?_, ?_⟩
  · rw [hrun, ← List.take_append_drop 5 buf, htake, hdrop]
    rfl
  · have hvalue := hread (by decide)
    rw [htake'] at hvalue
    exact hvalue

/-! ## `run_bench` -/

structure Timespec where
  tvSec : BitVec 64
  tvNsec : BitVec 64
  deriving DecidableEq

def Timespec.ns (ts : Timespec) : BitVec 64 := ts.tvSec * 1000000000 + ts.tvNsec

inductive BenchCall where
  | clockGettime
  | syscall (sc : ℤ) (args : List ℤ)
  | write (fd : ℕ) (bytes : Text)
  deriving DecidableEq

/-- What a call to the clock leaves in `ts`; the other results are not used. -/
abbrev BenchCall.Answer : BenchCall → Type
  | .clockGettime => Timespec
  | .syscall _ _ => ℤ
  | .write _ _ => ℤ

abbrev BenchProg := Prog BenchCall.Answer

abbrev BenchTranscript := Transcript BenchCall.Answer

/-- A string without NUL bytes, in a buffer of its own. -/
structure Template where
  text : Text
  noNul : '\x00' ∉ text

def Template.buffer (template : Template) : Buffer := template.text ++ ['\x00']

/-- Nothing for a buffer without a terminator. -/
def strlen (buf : Buffer) : Option ℕ := strchr buf '\x00'

def printOut (buf : Buffer) (len : ℕ) : BenchProg Unit := do
  let _ ← Prog.ask (BenchCall.write 1 (buf.take len))

def timeNowNs : BenchProg (BitVec 64) := do
  let ts ← Prog.ask BenchCall.clockGettime
  return ts.ns

/-- Label `bench_start`: one iteration. -/
def benchStart (sc : ℤ) (args : List ℤ) (i : ℕ) : BenchProg (ℕ ⊕ Unit) := do
  let _ ← Prog.ask (BenchCall.syscall sc args)
  let i := i + 1
  if i < nIterations then return .inl i else return .inr ()

/-- The contents of `result` afterwards, or nothing if an access left a buffer. An
`unsigned long`, in which the average is handed over, has `longBits` bits. -/
def runBench (longBits fuel : ℕ) (sc : ℤ) (args : List ℤ) (template : Template) (result : Buffer) :
    BenchProg (Option Buffer) := do
  let t0 ← timeNowNs
  Prog.loop (benchStart sc args) fuel 0
  let t1 ← timeNowNs
  match strlen template.buffer with
  | none => return none
  | some len =>
    printOut template.buffer len
    let average := ((t1 - t0) / BitVec.ofNat 64 nIterations).toNat % 2 ^ longBits
    match longToStr average 7 (result.drop 1) with
    | none => return none
    | some digits =>
      let result := result.take 1 ++ digits
      match strlen result with
      | none => return none
      | some len =>
        printOut result len
        return some result

def resultTemplate : Buffer := "(0000000 ns avg)\n\x00".toList

/-- The arguments of one call of `run_bench`, its result buffer apart. -/
structure BenchArgs where
  sc : ℤ
  args : List ℤ
  template : Template

/-- Calls one after the other on the same result buffer. -/
def runBenchesOn (longBits fuel : ℕ) : List BenchArgs → Buffer → BenchProg (Option Buffer)
  | [], result => return some result
  | c :: cs, result => do
    let result ← runBench longBits fuel c.sc c.args c.template result
    match result with
    | none => return none
    | some result => runBenchesOn longBits fuel cs result

def runBenches (fuel : ℕ) (cs : List BenchArgs) (result : Buffer) : BenchProg (Option Buffer) :=
  runBenchesOn 64 fuel cs result

/-- The readings of the clock. -/
def readings (t : BenchTranscript) : List (BitVec 64) :=
  t.filterMap fun
    | ⟨.clockGettime, ts⟩ => some ts.ns
    | _ => none

/-- The texts written to the standard output. -/
def outputs (t : BenchTranscript) : List Text :=
  t.filterMap fun
    | ⟨.write 1 bytes, _⟩ => some bytes
    | _ => none

theorem exists_returns_readings {α : Type} {p : BenchProg α} {Q : α → BenchTranscript → Prop}
    (h : p.twp Q []) (clock : ℕ → BitVec 64) :
    ∃ r t n, p.Returns t r ∧ readings t = (List.range n).map clock := by
  refine Prog.exists_returns_seen h (fun op ns => ?_) clock
  cases op with
  | clockGettime => exact ⟨⟨0, ns⟩, Or.inr (by simp [Timespec.ns])⟩
  | syscall sc args => exact ⟨(0 : ℤ), Or.inl rfl⟩
  | write fd bytes => exact ⟨(0 : ℤ), Or.inl rfl⟩

/-! ### The result buffer -/

/-- A result buffer that shows `digits`. -/
def resultBuffer (digits : Text) : Buffer := '(' :: digits ++ " ns avg)\n\x00".toList

def resultLine (digits : Text) : Text := '(' :: digits ++ " ns avg)\n".toList

/-- The digits of the average between two readings. -/
def averageDigits (longBits : ℕ) (t0 t1 : BitVec 64) : Text :=
  fixedWidth 10 ((t1 - t0).toNat / nIterations % 2 ^ longBits) 7

theorem longToStr_resultBuffer (number : ℕ) {digits : Text} (hdigits : digits.length = 7) :
    longToStr number 7 ((resultBuffer digits).drop 1) =
      some (fixedWidth 10 number 7 ++ " ns avg)\n\x00".toList) := by
  have hdrop : (resultBuffer digits).drop 1 = digits ++ " ns avg)\n\x00".toList := rfl
  rw [hdrop, longToStr_eq number (by omega) (by rw [List.length_append]; omega),
    List.drop_append_of_le_length (Nat.le_of_eq hdigits.symm),
    List.drop_of_length_le (Nat.le_of_eq hdigits), List.nil_append]

theorem strlen_resultBuffer {digits : Text} (h : ∀ c ∈ digits, c.isDigit = true) :
    strlen (resultBuffer digits) = some (resultLine digits).length := by
  have hnul : '\x00' ∉ resultLine digits := by
    intro hmem
    have hsplit : '\x00' ∈ digits := by simpa [resultLine] using hmem
    exact absurd (h _ hsplit) (by decide)
  have hbuffer : resultBuffer digits = resultLine digits ++ '\x00' :: [] := by
    simp [resultBuffer, resultLine]
  rw [strlen, hbuffer, strchr_append hnul]

theorem take_resultBuffer (digits : Text) :
    (resultBuffer digits).take (resultLine digits).length = resultLine digits := by
  have hbuffer : resultBuffer digits = resultLine digits ++ ['\x00'] := by
    simp [resultBuffer, resultLine]
  rw [hbuffer, List.take_left]

theorem strlen_buffer (template : Template) : strlen template.buffer = some template.text.length :=
  strchr_append template.noNul []

theorem take_buffer (template : Template) :
    template.buffer.take template.text.length = template.text := List.take_left

section Digits
variable (longBits : ℕ) (t0 t1 : BitVec 64)

theorem length_averageDigits : (averageDigits longBits t0 t1).length = 7 :=
  length_fixedWidth (by omega) _ (by omega)

theorem isDigit_averageDigits : ∀ c ∈ averageDigits longBits t0 t1, c.isDigit = true :=
  fun _ hc => isDigit_of_mem_fixedWidth (by omega) (by omega) hc

theorem averageDigits_long :
    averageDigits 64 t0 t1 = fixedWidth 10 ((t1 - t0).toNat / nIterations) 7 := by
  have hfits : (t1 - t0).toNat / nIterations < 2 ^ 64 :=
    Nat.lt_of_le_of_lt (Nat.div_le_self _ _) (t1 - t0).isLt
  rw [averageDigits, Nat.mod_eq_of_lt hfits]

end Digits

/-! ### Runs -/

section Rules
variable {longBits : ℕ} {t : BenchTranscript}

theorem timeNowNs_twp {Q : BitVec 64 → BenchTranscript → Prop}
    (h : ∀ ns u, readings u = readings t ++ [ns] → outputs u = outputs t → Q ns u) :
    timeNowNs.twp Q t := by
  intro ts
  apply h
  · exact Prog.filterMap_concat_of_some rfl
  · exact Prog.filterMap_concat_of_none rfl

theorem printOut_twp {buf : Buffer} {len : ℕ} {Q : Unit → BenchTranscript → Prop}
    (h : ∀ u, readings u = readings t → outputs u = outputs t ++ [buf.take len] → Q () u) :
    (printOut buf len).twp Q t := by
  intro x
  apply h
  · exact Prog.filterMap_concat_of_none rfl
  · exact Prog.filterMap_concat_of_some rfl

theorem benchStart_twp {sc : ℤ} {args : List ℤ} {i : ℕ} {Q : ℕ ⊕ Unit → BenchTranscript → Prop}
    (h : ∀ u, readings u = readings t → outputs u = outputs t →
      Q (if i + 1 < nIterations then .inl (i + 1) else .inr ()) u) :
    (benchStart sc args i).twp Q t := by
  intro x
  have hQ : Q (if i + 1 < nIterations then .inl (i + 1) else .inr ())
      (t ++ [⟨.syscall sc args, x⟩]) := by
    apply h
    · exact Prog.filterMap_concat_of_none rfl
    · exact Prog.filterMap_concat_of_none rfl
  by_cases hlast : i + 1 < nIterations
  · rw [if_pos hlast] at hQ ⊢
    exact hQ
  · rw [if_neg hlast] at hQ ⊢
    exact hQ

theorem benchStart_loop_twp {fuel : ℕ} (hfuel : nIterations ≤ fuel) (sc : ℤ) (args : List ℤ)
    (t : BenchTranscript) :
    (Prog.loop (benchStart sc args) fuel 0).twp
      (fun _ u => readings u = readings t ∧ outputs u = outputs t) t := by
  have hpos : 0 < nIterations := by decide
  refine Prog.twp_loop
    (fun i u => i < nIterations ∧ readings u = readings t ∧ outputs u = outputs t)
    (fun i => nIterations - 1 - i) ?_ ⟨hpos, rfl, rfl⟩ (by omega)
  intro i u hinv
  obtain ⟨hi, hreadings, houtputs⟩ := hinv
  apply benchStart_twp
  intro v hreadings' houtputs'
  by_cases hlast : i + 1 < nIterations
  · rw [if_pos hlast]
    exact ⟨⟨hlast, hreadings'.trans hreadings, houtputs'.trans houtputs⟩, by omega⟩
  · rw [if_neg hlast]
    exact ⟨hreadings'.trans hreadings, houtputs'.trans houtputs⟩

/-- One call prints its template and its own average, through a buffer of the same shape. -/
theorem runBench_twp {fuel : ℕ} (hfuel : nIterations ≤ fuel) (sc : ℤ) (args : List ℤ)
    (template : Template) {digits : Text} (hdigits : digits.length = 7) (t : BenchTranscript) :
    (runBench longBits fuel sc args template (resultBuffer digits)).twp (fun r u => ∃ t0 t1,
      r = some (resultBuffer (averageDigits longBits t0 t1)) ∧
        readings u = readings t ++ [t0, t1] ∧
        outputs u = outputs t ++ [template.text, resultLine (averageDigits longBits t0 t1)]) t := by
  have hcount : (BitVec.ofNat 64 nIterations).toNat = nIterations := by decide
  rw [runBench, Prog.bind_eq, Prog.twp_bind]
  apply timeNowNs_twp
  intro t0 u₁ hreadings₁ houtputs₁
  rw [Prog.bind_eq, Prog.twp_bind]
  refine Prog.twp_mono (benchStart_loop_twp hfuel sc args u₁) ?_
  intro _ u₂ hu₂
  obtain ⟨hreadings₂, houtputs₂⟩ := hu₂
  rw [Prog.bind_eq, Prog.twp_bind]
  apply timeNowNs_twp
  intro t1 u₃ hreadings₃ houtputs₃
  have hbuffer : (resultBuffer digits).take 1 ++
      (fixedWidth 10 ((t1 - t0).toNat / nIterations % 2 ^ longBits) 7 ++ " ns avg)\n\x00".toList) =
        resultBuffer (averageDigits longBits t0 t1) := rfl
  simp only [strlen_buffer, BitVec.toNat_udiv, hcount, longToStr_resultBuffer _ hdigits, hbuffer,
    strlen_resultBuffer (isDigit_averageDigits _ _ _), Prog.bind_eq, Prog.twp_bind]
  apply printOut_twp
  intro u₄ hreadings₄ houtputs₄
  apply printOut_twp
  intro u₅ hreadings₅ houtputs₅
  refine ⟨t0, t1, rfl, ?_, ?_⟩
  · rw [hreadings₅, hreadings₄, hreadings₃, hreadings₂, hreadings₁, List.append_assoc]
    rfl
  · rw [houtputs₅, houtputs₄, houtputs₃, houtputs₂, houtputs₁, take_buffer, take_resultBuffer,
      List.append_assoc]
    rfl

/-- What the calls `cs` print, given the readings of the clock before and after each. -/
def printed (longBits : ℕ) (cs : List BenchArgs) (times : List (BitVec 64 × BitVec 64)) :
    List Text :=
  (cs.zip times).flatMap fun p =>
    [p.1.template.text, resultLine (averageDigits longBits p.2.1 p.2.2)]

theorem runBenchesOn_twp {fuel : ℕ} (hfuel : nIterations ≤ fuel) (cs : List BenchArgs)
    {digits : Text} (hdigits : digits.length = 7) (hdigit : ∀ c ∈ digits, c.isDigit = true)
    (t : BenchTranscript) :
    (runBenchesOn longBits fuel cs (resultBuffer digits)).twp (fun r u => ∃ times digits',
      times.length = cs.length ∧ digits'.length = 7 ∧ (∀ c ∈ digits', c.isDigit = true) ∧
        r = some (resultBuffer digits') ∧
        readings u = readings t ++ times.flatMap (fun p => [p.1, p.2]) ∧
        outputs u = outputs t ++ printed longBits cs times) t := by
  induction cs generalizing digits t with
  | nil => exact ⟨[], digits, rfl, hdigits, hdigit, rfl, (List.append_nil _).symm,
      (List.append_nil _).symm⟩
  | cons c cs ih =>
    rw [runBenchesOn, Prog.bind_eq, Prog.twp_bind]
    refine Prog.twp_mono (runBench_twp hfuel c.sc c.args c.template hdigits t) ?_
    intro r u hu
    obtain ⟨t0, t1, rfl, hreadings, houtputs⟩ := hu
    refine Prog.twp_mono (ih (length_averageDigits _ t0 t1) (isDigit_averageDigits _ t0 t1) u) ?_
    intro r v hv
    obtain ⟨times, digits', htimes, hdigits', hdigit', hr, hreadings', houtputs'⟩ := hv
    refine ⟨(t0, t1) :: times, digits', by simp [htimes], hdigits', hdigit', hr, ?_, ?_⟩
    · rw [hreadings', hreadings, List.append_assoc]
      rfl
    · rw [houtputs', houtputs, List.append_assoc]
      rfl

end Rules

theorem resultTemplate_eq : resultTemplate = resultBuffer "0000000".toList := by decide

theorem isDigit_of_mem_zeros : ∀ c ∈ "0000000".toList, c.isDigit = true := by
  intro c hc
  have hzeros : "0000000".toList = List.replicate 7 '0' := by decide
  rw [hzeros] at hc
  rw [List.eq_of_mem_replicate hc]
  rfl

theorem runBenches_twp {longBits fuel : ℕ} (hfuel : nIterations ≤ fuel) (cs : List BenchArgs) :
    (runBenchesOn longBits fuel cs resultTemplate).twp (fun r u => ∃ times digits,
      times.length = cs.length ∧ digits.length = 7 ∧ (∀ c ∈ digits, c.isDigit = true) ∧
        r = some (resultBuffer digits) ∧ readings u = times.flatMap (fun p => [p.1, p.2]) ∧
        outputs u = printed longBits cs times) [] := by
  have htwp := @runBenchesOn_twp longBits fuel hfuel cs "0000000".toList rfl isDigit_of_mem_zeros []
  rwa [← resultTemplate_eq] at htwp

theorem length_resultBuffer {digits : Text} (hdigits : digits.length = 7) :
    (resultBuffer digits).length = resultTemplate.length := by
  rw [resultBuffer, List.length_append, List.length_cons, hdigits]
  rfl

/-- Every sequence of calls on one result buffer comes to an end. Each call prints its
template and the seven digits of its own average, and leaves the text around the digits
and the length of the buffer as they were. -/
theorem runBenches_print_own_average {fuel : ℕ} (hfuel : nIterations ≤ fuel) (cs : List BenchArgs)
    {t : BenchTranscript} {q : BenchProg (Option Buffer)}
    (h : (runBenches fuel cs resultTemplate).Runs t q) :
    q ≠ .outOfFuel ∧ ∀ r, q = .ret r →
      ∃ (times : List (BitVec 64 × BitVec 64)) (digits : Text),
        times.length = cs.length ∧ readings t = times.flatMap (fun p => [p.1, p.2]) ∧
        outputs t = (cs.zip times).flatMap (fun p => [p.1.template.text,
          '(' :: (Nat.toDigits 10 ((p.2.2 - p.2.1).toNat / 1000000 % 10 ^ 7)).leftpad 7 '0' ++
            " ns avg)\n".toList]) ∧
        r = some ('(' :: digits ++ " ns avg)\n\x00".toList) ∧ digits.length = 7 ∧
        (∀ c ∈ digits, c.isDigit = true) ∧
        ('(' :: digits ++ " ns avg)\n\x00".toList).length = resultTemplate.length := by
  have htwp := @runBenches_twp 64 fuel hfuel cs
  obtain ⟨hends, hpost⟩ := Prog.twp_ends htwp h
  refine ⟨hends, ?_⟩
  intro r hret
  obtain ⟨times, digits, htimes, hdigits, hdigit, hr, hreadings, houtputs⟩ := hpost r hret
  refine ⟨times, digits, htimes, hreadings, ?_, hr, hdigits, hdigit, length_resultBuffer hdigits⟩
  rw [houtputs]
  simp only [printed, averageDigits_long]
  rfl

def setresuidBench : BenchArgs where
  sc := 147
  args := [10000, 10000, 10000]
  template := ⟨"[ ] setresuid:\t ".toList, by decide⟩

def execveBench : BenchArgs where
  sc := 221
  args := [0, 0, 0]
  template := ⟨"[1] execve:\t ".toList, by decide⟩

/-- The first batch takes 5 ms, the second one 2 s. -/
def movingClock (i : ℕ) : BitVec 64 := [0, 5000000, 6000000, 2006000000].getD i 0

/-- Two calls, of which the second one shows no digit of the first. -/
theorem runBenches_print_own_average_movingClock :
    ∃ fuel t r, (runBenches fuel [setresuidBench, execveBench] resultTemplate).Returns t r ∧
      outputs t = ["[ ] setresuid:\t ".toList, "(0000005 ns avg)\n".toList,
        "[1] execve:\t ".toList, "(0002000 ns avg)\n".toList] := by
  obtain ⟨fuel, hfuel⟩ : ∃ fuel, nIterations ≤ fuel := ⟨nIterations, Nat.le_refl _⟩
  obtain ⟨r, t, n, hreturns, hclock⟩ := exists_returns_readings
    (@runBenches_twp 64 fuel hfuel [setresuidBench, execveBench]) movingClock
  obtain ⟨-, hprints⟩ := runBenches_print_own_average hfuel [setresuidBench, execveBench] hreturns
  obtain ⟨times, -, htimes, hreadings, houtputs, -⟩ := hprints r rfl
  obtain ⟨⟨t0, t1⟩, ⟨t2, t3⟩, rfl⟩ := List.length_eq_two.mp htimes
  have hfour : (List.range n).map movingClock = [t0, t1, t2, t3] := hclock.symm.trans hreadings
  obtain rfl : n = 4 := by simpa using congrArg List.length hfour
  have hvalues : [(0 : BitVec 64), 5000000, 6000000, 2006000000] = [t0, t1, t2, t3] := hfour
  simp only [List.cons.injEq, and_true] at hvalues
  obtain ⟨rfl, rfl, rfl, rfl⟩ := hvalues
  refine ⟨fuel, t, r, hreturns, houtputs.trans ?_⟩
  decide

end VariousStuff.SyscallBench
