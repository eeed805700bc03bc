import VariousStuff.SyscallBench
import VariousStuff.EmbeddedPrograms
import VariousStuff.InterruptedRuns

/-! # The whole benchmark

In front of the timed calls, a child process tries a call that seccomp filters forbid. The
parent tells from its status whether there is such a filter, and prints everything else.
A signal may kill a process in any of its calls, and one that succeeds in executing a file
goes on as another program. -/
namespace VariousStuff.SyscallBench
open Interactive CStrings FixedWidthNumerals

/-! ## The program -/

inductive ProcessCall where
  | clone (flags : ℤ)
  | wait4 (pid : ℤ)
  | exit (code : ℤ)

/-- `wait4` yields what it stored in `status`, if it stored anything. -/
abbrev ProcessCall.Answer : ProcessCall → Type
  | .clone _ => ℤ
  | .wait4 _ => Option (BitVec 32)
  | .exit _ => Unit

abbrev MainProg := Prog (BothAns BenchCall.Answer ProcessCall.Answer)

abbrev MainTranscript := Transcript (BothAns BenchCall.Answer ProcessCall.Answer)

/-- How the program itself ends. -/
inductive Stop where
  | exited (code : ℤ)
  /-- An access left a buffer. -/
  | undefined

/-- The machines the benchmark is built for. -/
inductive Target where
  | arm64
  | arm

abbrev numTests : ℕ := 4

theorem numTests_pos : 0 < numTests := by decide

/-- The addresses of what the calls are handed, and the bytes of an array without an
initialiser. -/
structure Layout where
  cpuset : ℤ
  su : ℤ
  st : ℤ
  devnull : ℤ
  notsu : ℤ
  iterBuf : Buffer
  length_iterBuf : iterBuf.length = 7

def syscall (sc : ℤ) (args : List ℤ) : MainProg ℤ :=
  (Prog.ask (BenchCall.syscall sc args)).embed ProcessCall.Answer

def clone (flags : ℤ) : MainProg ℤ := Prog.askRight BenchCall.Answer (ProcessCall.clone flags)

def wait4 (pid : ℤ) : MainProg (Option (BitVec 32)) :=
  Prog.askRight BenchCall.Answer (ProcessCall.wait4 pid)

def exit (code : ℤ) : MainProg Unit := Prog.askRight BenchCall.Answer (ProcessCall.exit code)

/-- `print_out` of an array without its terminator. -/
def printText (text : Text) : MainProg Unit := (printOut text text.length).embed ProcessCall.Answer

namespace Target

/-- The bits of an `unsigned long`. -/
def longBits : Target → ℕ
  | arm64 => 64
  | arm => 32

def sysFaccessat : Target → ℤ
  | arm64 => 48
  | arm => 334

/-- On arm it is a name for `SYS_fstatat64`. -/
def sysNewfstatat : Target → ℤ
  | arm64 => 79
  | arm => 327

def sysSchedSetaffinity : Target → ℤ
  | arm64 => 122
  | arm => 241

def sysSetpriority : Target → ℤ
  | arm64 => 140
  | arm => 97

def sysSetresuid : Target → ℤ
  | arm64 => 147
  | arm => 164

def sysExecve : Target → ℤ
  | arm64 => 221
  | arm => 11

def sysSwapoff : Target → ℤ
  | arm64 => 225
  | arm => 115

end Target

def sysSetresuid16 : ℤ := 164

def atFdcwd : ℤ := -100
def sigchld : ℤ := 17

/-- `WIFSIGNALED` of glibc. Of the status of a process that has ended, musl's says the same. -/
def wifsignaled (status : BitVec 32) : Bool := status.toNat % 128 ≠ 0 ∧ status.toNat % 128 ≠ 127

section Program
variable (target : Target)

def checkSeccomp : MainProg (Except Stop Bool) := do
  let pid ← clone sigchld
  if pid = -1 then
    return .ok false
  if pid = 0 then
    let _ ← syscall target.sysSwapoff [0]
    exit 0
    return .error (.exited 0)
  let status ← wait4 pid
  return .ok (wifsignaled (status.getD 0))

/-- A template whose second byte is the number of a test, counted from 1. -/
def Template.number (template : Template) (j : Fin numTests) : Template where
  text := template.text.set 1 (Char.ofNat (49 + j))
  noNul := by
    intro hmem
    rcases List.mem_or_eq_of_mem_set hmem with hmem | heq
    · exact template.noNul hmem
    · clear hmem
      revert j
      decide

def newfstatatTemplate : Template := ⟨"[1] newfstatat:\t ".toList, by decide⟩
def faccessatTemplate : Template := ⟨"[1] faccessat:\t ".toList, by decide⟩
def execveTemplate : Template := ⟨"[1] execve:\t ".toList, execveBench.template.noNul⟩

def setresuid16Template : Template := ⟨"[ ] setresuid16: ".toList, by decide⟩
def setresuidTemplate : Template := ⟨"[ ] setresuid:\t ".toList, setresuidBench.template.noNul⟩

/-- The calls of `run_bench` in front of the tests, the first one if `__arm__` is defined. -/
def Target.credentials (target : Target) : List BenchArgs :=
  let setresuid : BenchArgs := ⟨target.sysSetresuid, [10000, 10000, 10000], setresuidTemplate⟩
  match target with
  | .arm64 => [setresuid]
  | .arm => [⟨sysSetresuid16, [10000, 10000, 10000], setresuid16Template⟩, setresuid]

/-- `tests`. -/
def Layout.test (layout : Layout) : Fin numTests → ℤ
  | 0 => 0
  | 1 => layout.devnull
  | 2 => layout.notsu
  | 3 => layout.notsu + 3

/-- The three calls of `run_bench` for a test. -/
def Layout.benches (target : Target) (layout : Layout) (j : Fin numTests) : List BenchArgs :=
  [⟨target.sysNewfstatat, [atFdcwd, layout.test j, layout.st], newfstatatTemplate.number j⟩,
    ⟨target.sysFaccessat, [atFdcwd, layout.test j, 0], faccessatTemplate.number j⟩,
    ⟨target.sysExecve, [layout.test j, 0, 0], execveTemplate.number j⟩]

/-- Label `start_loop`. Each round overwrites the digits that the round before wrote into
the templates. -/
def startLoop (layout : Layout) (fuel : ℕ) (s : Fin numTests × Buffer) :
    MainProg ((Fin numTests × Buffer) ⊕ Except Stop ℤ) := do
  let result ← (runBenchesOn target.longBits fuel (layout.benches target s.1) s.2).embed
    ProcessCall.Answer
  match result with
  | none => return .inr (.error .undefined)
  | some result =>
    printText "\n".toList
    if h : s.1 + 1 < numTests then
      return .inl (⟨s.1 + 1, h⟩, result)
    else
      return .inr (.ok 0)

def suFound : Text := "[+] /system/bin/su found! sucompat is active.\n".toList
def suNotFound : Text := "[-] /system/bin/su not found! sucompat is disabled.\n".toList
def seccompEnabled : Text := "[+] seccomp enabled\n".toList
def seccompDisabled : Text := "[-] seccomp disabled\n".toList

def extraLines : Text :=
  "[!] note:\n[1] NULL\n[2] /dev/null\n[3] /system/bin/su_\n[4] *unaligned*\n[*] Lower is better\n".toList

/-- `c_main` behind `check_seccomp`. -/
def benchmark (layout : Layout) (fuel : ℕ) (isSeccompEnabled : Bool) : MainProg (Except Stop ℤ) := do
  let _ ← syscall target.sysSchedSetaffinity [0, 128, layout.cpuset]
  let _ ← syscall target.sysSetpriority [0, 0, -20]
  printText "[+] run ".toList
  match longToStr nIterations 7 layout.iterBuf with
  | none => return .error .undefined
  | some iterBuf =>
    printText iterBuf
    printText " iterations per syscall...\n".toList
    let access ← syscall target.sysFaccessat [atFdcwd, layout.su, 0]
    printText (if access = 0 then suFound else suNotFound)
    printText (if isSeccompEnabled then seccompEnabled else seccompDisabled)
    printText extraLines
    printText "\n".toList
    let result ← (runBenchesOn target.longBits fuel target.credentials resultTemplate).embed
      ProcessCall.Answer
    match result with
    | none => return .error .undefined
    | some result =>
      printText "\n".toList
      Prog.loop (startLoop target layout fuel) fuel (⟨0, numTests_pos⟩, result)

def cMain (layout : Layout) (fuel : ℕ) : MainProg (Except Stop ℤ) := do
  match ← checkSeccomp target with
  | .error stop => return .error stop
  | .ok isSeccompEnabled => benchmark target layout fuel isSeccompEnabled

def prepMain (layout : Layout) (fuel : ℕ) : MainProg Stop := do
  match ← cMain target layout fuel with
  | .error stop => return stop
  | .ok exitCode =>
    exit exitCode
    return .exited exitCode

end Program

/-! ## Processes -/

/-- Signals are numbered from 1. -/
structure Signal where
  number : ℕ
  pos : 1 ≤ number
  le : number ≤ 64

/-- Why a call does not come back: its process is killed, or goes on as another program. -/
inductive Death where
  | killed (signal : Signal) (dumped : Bool)
  | replaced

abbrev ProcessTranscript := Transcript (Fate Death (BothAns BenchCall.Answer ProcessCall.Answer))

/-- A process that runs the benchmark. -/
def process (target : Target) (layout : Layout) (fuel : ℕ) :
    Prog (Fate Death (BothAns BenchCall.Answer ProcessCall.Answer)) (Except Death Stop) :=
  (prepMain target layout fuel).interruptible Death

/-- The results of all calls of `faccessat`. -/
def accesses (target : Target) (t : BenchTranscript) : List ℤ :=
  t.filterMap fun
    | ⟨.syscall sc _, result⟩ => if sc = target.sysFaccessat then some result else none
    | _ => none

/-- What is printed in front of the results. -/
def header (access : ℤ) (isSeccompEnabled : Bool) : List Text :=
  ["[+] run ".toList, "1000000".toList, " iterations per syscall...\n".toList,
    if access = 0 then suFound else suNotFound,
    if isSeccompEnabled then seccompEnabled else seccompDisabled, extraLines, "\n".toList]

/-- A name in brackets and a tab, then the average between two readings. -/
def resultLines (target : Target) (number : Char) (name : String)
    (time : BitVec 64 × BitVec 64) : List Text :=
  ['[' :: number :: "] ".toList ++ name.toList ++ ":\t ".toList,
    resultLine (averageDigits target.longBits time.1 time.2)]

/-- The results of one test, with an empty line. -/
def testLines (target : Target) (j : ℕ) (times : List (BitVec 64 × BitVec 64)) : List Text :=
  (["newfstatat", "faccessat", "execve"].zip times).flatMap
    (fun p => resultLines target (j + 1).digitChar p.1 p.2) ++ ["\n".toList]

/-- The results of the tests from `j` on. -/
def testsLines (target : Target) (j : ℕ) (rounds : List (List (BitVec 64 × BitVec 64))) :
    List Text :=
  (rounds.zipIdx j).flatMap fun p => testLines target p.2 p.1

/-- The process that the seccomp filter may kill: it tries the forbidden call and prints
nothing. -/
structure ChildRun (target : Target) (t : MainTranscript) : Prop where
  process : rightPart t = [⟨.clone sigchld, (0 : ℤ)⟩, ⟨.exit 0, ()⟩]
  calls : (leftPart t).map Sigma.fst = [.syscall target.sysSwapoff [0]]

/-- The process that prints: it waits for its child if there can be one, reads the clock
before and after each result, and exits with 0. -/
def ParentRun (target : Target) (t : MainTranscript) : Prop :=
  ∃ (pid : ℤ) (status : Option (BitVec 32)) (access : ℤ) (times : List (BitVec 64 × BitVec 64))
    (rounds : List (List (BitVec 64 × BitVec 64))),
    pid ≠ 0 ∧
    rightPart t = ⟨.clone sigchld, pid⟩ ::
      ((if pid = -1 then [] else [⟨.wait4 pid, status⟩]) ++ [⟨.exit 0, ()⟩]) ∧
    (accesses target (leftPart t)).head? = some access ∧
    times.length = target.credentials.length ∧
    rounds.length = numTests ∧ (∀ ts ∈ rounds, ts.length = 3) ∧
    readings (leftPart t) = (times ++ rounds.flatten).flatMap (fun p => [p.1, p.2]) ∧
    outputs (leftPart t) =
      header access (decide (pid ≠ -1) && wifsignaled (status.getD 0)) ++
        printed target.longBits target.credentials times ++ ["\n".toList] ++
        testsLines target 0 rounds

section Lines
variable {target : Target}

theorem text_number (j : Fin numTests) :
    (newfstatatTemplate.number j).text =
      '[' :: ((j : ℕ) + 1).digitChar :: "] ".toList ++ "newfstatat".toList ++ ":\t ".toList ∧
    (faccessatTemplate.number j).text =
      '[' :: ((j : ℕ) + 1).digitChar :: "] ".toList ++ "faccessat".toList ++ ":\t ".toList ∧
    (execveTemplate.number j).text =
      '[' :: ((j : ℕ) + 1).digitChar :: "] ".toList ++ "execve".toList ++ ":\t ".toList := by
  revert j
  decide

theorem printed_benches (layout : Layout) (j : Fin numTests)
    {times : List (BitVec 64 × BitVec 64)} (htimes : times.length = 3) :
    printed target.longBits (layout.benches target j) times ++ ["\n".toList] =
      testLines target j times := by
  obtain ⟨a, b, c, rfl⟩ := List.length_eq_three.mp htimes
  obtain ⟨hnewfstatat, hfaccessat, hexecve⟩ := text_number j
  simp [printed, Layout.benches, testLines, resultLines, hnewfstatat, hfaccessat, hexecve]

theorem testsLines_concat (j : ℕ) (rounds : List (List (BitVec 64 × BitVec 64)))
    (times : List (BitVec 64 × BitVec 64)) :
    testsLines target j (rounds ++ [times]) =
      testsLines target j rounds ++ testLines target (j + rounds.length) times := by
  simp [testsLines, List.zipIdx_append]

theorem iterBuf_eq (layout : Layout) :
    longToStr nIterations 7 layout.iterBuf = some "1000000".toList := by
  have hlength := layout.length_iterBuf
  rw [longToStr_eq _ (by omega) (by omega), List.drop_of_length_le (by omega), List.append_nil]
  decide

end Lines

/-! ## Runs -/

section Runs
variable {target : Target} {fuel : ℕ}

theorem readings_append (t u : BenchTranscript) : readings (t ++ u) = readings t ++ readings u :=
  List.filterMap_append

theorem outputs_append (t u : BenchTranscript) : outputs (t ++ u) = outputs t ++ outputs u :=
  List.filterMap_append

/-- Behind the rounds of `start_loop` for the first `j` tests, started behind `t`. -/
def Tested (target : Target) (t : MainTranscript) (j : ℕ) (u : MainTranscript) : Prop :=
  ∃ (v : BenchTranscript) (rounds : List (List (BitVec 64 × BitVec 64))),
    u = t ++ v.map (embedEvent ProcessCall.Answer) ∧ rounds.length = j ∧
    (∀ times ∈ rounds, times.length = 3) ∧
    readings v = rounds.flatten.flatMap (fun p => [p.1, p.2]) ∧
    outputs v = testsLines target 0 rounds

theorem tested_zero (t : MainTranscript) : Tested target t 0 t :=
  ⟨[], [], by simp, rfl, by simp, rfl, rfl⟩

theorem Tested.succ {t u : MainTranscript} {j : Fin numTests} {layout : Layout}
    {times : List (BitVec 64 × BitVec 64)} {v : BenchTranscript} {x : ℤ} (h : Tested target t j u)
    (htimes : times.length = 3) (hreadings : readings v = times.flatMap (fun p => [p.1, p.2]))
    (houtputs : outputs v = printed target.longBits (layout.benches target j) times) :
    Tested target t (j + 1) (u ++ v.map (embedEvent ProcessCall.Answer) ++
      [⟨.inl (.write 1 "\n".toList), x⟩]) := by
  obtain ⟨w, rounds, rfl, hlength, hrounds, hw, hw'⟩ := h
  obtain ⟨line, hline⟩ : ∃ line : BenchTranscript, line = [⟨.write 1 "\n".toList, x⟩] := ⟨_, rfl⟩
  have hsilent : readings line = [] := by
    rw [hline]
    rfl
  have hprints : outputs line = ["\n".toList] := by
    rw [hline]
    rfl
  refine ⟨w ++ v ++ line, rounds ++ [times], ?_, ?_, ?_, ?_, ?_⟩
  · rw [hline]
    simp [embedEvent]
  · rw [List.length_append, hlength]
    rfl
  · intro ts hts
    rcases List.mem_append.mp hts with hts | hts
    · exact hrounds ts hts
    · rw [List.mem_singleton.mp hts, htimes]
  · rw [readings_append, readings_append, hw, hreadings, hsilent]
    simp
  · rw [outputs_append, outputs_append, hw', houtputs, hprints, testsLines_concat, hlength,
      Nat.zero_add, ← printed_benches layout j htimes, List.append_assoc]

/-- A result buffer, with whichever digits. -/
def ShowsDigits (result : Buffer) : Prop :=
  ∃ digits : Text, digits.length = 7 ∧ (∀ c ∈ digits, c.isDigit = true) ∧
    result = resultBuffer digits

theorem startLoop_twp (hfuel : nIterations ≤ fuel) (layout : Layout) {s : Fin numTests × Buffer}
    {t u : MainTranscript} (hresult : ShowsDigits s.2) (hu : Tested target t s.1 u) :
    (startLoop target layout fuel s).twp (fun r v => match r with
      | .inl s' => (ShowsDigits s'.2 ∧ Tested target t s'.1 v) ∧ numTests - 1 - s'.1 < numTests - 1 - s.1
      | .inr a => a = .ok 0 ∧ Tested target t numTests v) u := by
  obtain ⟨j, result⟩ := s
  obtain ⟨digits, hlength, hdigits, rfl⟩ := hresult
  rw [startLoop, Prog.bind_eq, Prog.twp_bind]
  refine Prog.twp_mono (Prog.twp_embed
    (runBenchesOn_twp hfuel (layout.benches target j) hlength hdigits []) u) ?_
  intro r v hv
  obtain ⟨w, ⟨times, digits', htimes, hlength', hdigits', rfl, hreadings, houtputs⟩, rfl⟩ := hv
  have hbenches : (layout.benches target j).length = 3 := rfl
  intro x
  have hnext := hu.succ (x := x) (htimes.trans hbenches) hreadings houtputs
  by_cases hlast : (j : ℕ) + 1 < numTests
  · rw [dif_pos hlast]
    exact ⟨⟨⟨digits', hlength', hdigits', rfl⟩, hnext⟩, by dsimp only; omega⟩
  · rw [dif_neg hlast]
    have hj : (j : ℕ) + 1 = numTests := by omega
    rw [hj] at hnext
    exact ⟨rfl, hnext⟩

theorem startLoop_loop_twp (hfuel : nIterations ≤ fuel) (layout : Layout) {result : Buffer}
    (hresult : ShowsDigits result) (t : MainTranscript) :
    (Prog.loop (startLoop target layout fuel) fuel (0, result)).twp
      (fun r u => r = .ok 0 ∧ Tested target t numTests u) t := by
  have hiterations : numTests ≤ nIterations := by decide
  refine Prog.twp_loop (fun s u => ShowsDigits s.2 ∧ Tested target t s.1 u)
    (fun s => numTests - 1 - s.1) ?_
    ⟨hresult, tested_zero t⟩ (by omega)
  intro s u h
  refine Prog.twp_mono (startLoop_twp hfuel layout h.1 h.2) ?_
  intro r v hv
  cases r with
  | inl s' => exact hv
  | inr a => exact hv

/-- What `benchmark` adds to the transcript: it asks for the `su` binary once before the tests,
and prints the whole report. -/
def Benchmarked (target : Target) (isSeccompEnabled : Bool) (t u : MainTranscript) : Prop :=
  ∃ (v : BenchTranscript) (access : ℤ) (times : List (BitVec 64 × BitVec 64))
    (rounds : List (List (BitVec 64 × BitVec 64))),
    u = t ++ v.map (embedEvent ProcessCall.Answer) ∧
    (accesses target v).head? = some access ∧ times.length = target.credentials.length ∧
    rounds.length = numTests ∧ (∀ ts ∈ rounds, ts.length = 3) ∧
    readings v = (times ++ rounds.flatten).flatMap (fun p => [p.1, p.2]) ∧
    outputs v = header access isSeccompEnabled ++
      printed target.longBits target.credentials times ++ ["\n".toList] ++
      testsLines target 0 rounds

/-- One call with its result. -/
abbrev made (call : BenchCall) (x : call.Answer) : BenchTranscript := [⟨call, x⟩]

section Opening
variable {t : MainTranscript} {v : BenchTranscript} {α : Type} {Q : α → MainTranscript → Prop}

theorem syscall_bind_twp {sc : ℤ} {args : List ℤ} {f : ℤ → MainProg α}
    (h : ∀ x, (f x).twp Q
      (t ++ (v ++ made (.syscall sc args) x).map (embedEvent ProcessCall.Answer))) :
    (syscall sc args >>= f).twp Q (t ++ v.map (embedEvent ProcessCall.Answer)) := by
  intro x
  have hx := h x
  rwa [List.map_append, ← List.append_assoc] at hx

theorem printText_bind_twp {text : Text} {f : Unit → MainProg α}
    (h : ∀ x : ℤ, (f ()).twp Q
      (t ++ (v ++ made (.write 1 text) x).map (embedEvent ProcessCall.Answer))) :
    (printText text >>= f).twp Q (t ++ v.map (embedEvent ProcessCall.Answer)) := by
  intro x
  have hx := h x
  rw [List.map_append, ← List.append_assoc] at hx
  rw [List.take_length]
  exact hx

end Opening

theorem benchmark_twp (hfuel : nIterations ≤ fuel) (layout : Layout) (isSeccompEnabled : Bool)
    (t : MainTranscript) :
    (benchmark target layout fuel isSeccompEnabled).twp
      (fun r u => r = .ok 0 ∧ Benchmarked target isSeccompEnabled t u) t := by
  suffices hsuff : (benchmark target layout fuel isSeccompEnabled).twp
      (fun r u => r = .ok 0 ∧ Benchmarked target isSeccompEnabled t u)
      (t ++ ([] : BenchTranscript).map (embedEvent ProcessCall.Answer)) by
    rwa [List.map_nil, List.append_nil] at hsuff
  rw [benchmark]
  apply syscall_bind_twp
  intro x₁
  apply syscall_bind_twp
  intro x₂
  apply printText_bind_twp
  intro x₃
  simp only [iterBuf_eq]
  apply printText_bind_twp
  intro x₄
  apply printText_bind_twp
  intro x₅
  apply syscall_bind_twp
  intro access
  apply printText_bind_twp
  intro x₆
  apply printText_bind_twp
  intro x₇
  apply printText_bind_twp
  intro x₈
  apply printText_bind_twp
  intro x₉
  obtain ⟨opening, hopening⟩ : ∃ opening : BenchTranscript, opening = [] ++
      made (.syscall target.sysSchedSetaffinity [0, 128, layout.cpuset]) x₁ ++
      made (.syscall target.sysSetpriority [0, 0, -20]) x₂ ++ made (.write 1 "[+] run ".toList) x₃ ++
      made (.write 1 "1000000".toList) x₄ ++
      made (.write 1 " iterations per syscall...\n".toList) x₅ ++
      made (.syscall target.sysFaccessat [atFdcwd, layout.su, 0]) access ++
      made (.write 1 (if access = 0 then suFound else suNotFound)) x₆ ++
      made (.write 1 (if isSeccompEnabled then seccompEnabled else seccompDisabled)) x₇ ++
      made (.write 1 extraLines) x₈ ++ made (.write 1 "\n".toList) x₉ := ⟨_, rfl⟩
  have haccesses : ∀ v, (accesses target (opening ++ v)).head? = some access := by
    intro v
    rw [hopening]
    cases target <;> rfl
  have hreadings : readings opening = [] := by
    rw [hopening]
    rfl
  have houtputs : outputs opening = header access isSeccompEnabled := by
    rw [hopening]
    rfl
  rw [← hopening, Prog.bind_eq, Prog.twp_bind]
  refine Prog.twp_mono (Prog.twp_embed (runBenches_twp hfuel target.credentials) _) ?_
  intro r u hu
  obtain ⟨w, ⟨times, digits, htimes, hdigits, hdigit, rfl, hreadings', houtputs'⟩, rfl⟩ := hu
  rw [List.append_assoc, ← List.map_append]
  dsimp only
  apply printText_bind_twp
  intro x
  refine Prog.twp_mono (startLoop_loop_twp hfuel layout ⟨digits, hdigits, hdigit, rfl⟩ _) ?_
  intro r u hu
  obtain ⟨rfl, v, rounds, rfl, hlength, hrounds, hreadings'', houtputs''⟩ := hu
  refine ⟨rfl, opening ++ w ++ made (.write 1 "\n".toList) x ++ v, access, times, rounds, ?_, ?_,
    htimes, hlength, hrounds, ?_, ?_⟩
  · simp only [List.map_append, List.append_assoc]
  · rw [List.append_assoc, List.append_assoc]
    exact haccesses _
  · have hnewline : readings (made (.write 1 "\n".toList) x) = [] := rfl
    have hw : readings w = times.flatMap fun p => [p.1, p.2] := hreadings'
    simp only [readings_append, hreadings, hw, hreadings'', hnewline, List.flatMap_append,
      List.append_nil, List.nil_append]
  · have hnewline : outputs (made (.write 1 "\n".toList) x) = ["\n".toList] := rfl
    have hw : outputs w = printed target.longBits target.credentials times := houtputs'
    simp only [outputs_append, houtputs, hw, houtputs'', hnewline]

/-- What is known when the check is over: a child has exited by then, and the parent has
waited for its child if there can be one. -/
def Checked (target : Target) (r : Except Stop Bool) (t : MainTranscript) : Prop :=
  match r with
  | .error stop => stop = .exited 0 ∧ ChildRun target t
  | .ok isSeccompEnabled => ∃ (pid : ℤ) (status : Option (BitVec 32)), pid ≠ 0 ∧
      isSeccompEnabled = (decide (pid ≠ -1) && wifsignaled (status.getD 0)) ∧
      leftPart t = [] ∧
      rightPart t = ⟨.clone sigchld, pid⟩ :: if pid = -1 then [] else [⟨.wait4 pid, status⟩]

theorem checkSeccomp_twp : (checkSeccomp target).twp (Checked target) [] := by
  rw [checkSeccomp]
  intro pid
  by_cases hfailed : pid = -1
  · subst hfailed
    exact ⟨-1, none, by decide, by simp, rfl, rfl⟩
  · by_cases hchild : pid = 0
    · subst hchild
      intro x y
      exact ⟨rfl, rfl, rfl⟩
    · change Prog.twp _ (if pid = -1 then _ else _) _
      rw [if_neg hfailed]
      change Prog.twp _ (if pid = 0 then _ else _) _
      rw [if_neg hchild]
      intro status
      refine ⟨pid, status, hchild, by simp [hfailed], rfl, ?_⟩
      rw [if_neg hfailed]
      rfl

theorem parentRun_of_benchmarked {pid : ℤ} {status : Option (BitVec 32)} {t u : MainTranscript}
    (hpid : pid ≠ 0) (hleft : leftPart t = [])
    (hright : rightPart t = ⟨.clone sigchld, pid⟩ :: if pid = -1 then [] else [⟨.wait4 pid, status⟩])
    (h : Benchmarked target (decide (pid ≠ -1) && wifsignaled (status.getD 0)) t u) :
    ParentRun target (u ++ [⟨.inr (.exit 0), ()⟩]) := by
  obtain ⟨v, access, times, rounds, rfl, haccess, htimes, hlength, hrounds, hreadings, houtputs⟩ := h
  have hv : leftPart (t ++ v.map (embedEvent ProcessCall.Answer) ++ [⟨.inr (.exit 0), ()⟩]) = v := by
    rw [leftPart_append, leftPart_append, leftPart_embed, hleft]
    exact List.append_nil v
  have hprocess : rightPart (t ++ v.map (embedEvent ProcessCall.Answer) ++
      [⟨.inr (.exit 0), ()⟩]) = rightPart t ++ [⟨.exit 0, ()⟩] := by
    rw [rightPart_append, rightPart_append, rightPart_embed, List.append_nil]
    rfl
  refine ⟨pid, status, access, times, rounds, hpid, ?_, ?_, htimes, hlength, hrounds, ?_, ?_⟩
  · rw [hprocess, hright]
    rfl
  · rwa [hv]
  · rwa [hv]
  · rwa [hv]

theorem prepMain_twp (hfuel : nIterations ≤ fuel) (layout : Layout) :
    (prepMain target layout fuel).twp
      (fun r t => r = .exited 0 ∧ (ChildRun target t ∨ ParentRun target t)) [] := by
  rw [prepMain, cMain, Prog.bind_eq, Prog.twp_bind, Prog.bind_eq, Prog.twp_bind]
  refine Prog.twp_mono checkSeccomp_twp ?_
  intro r t ht
  cases r with
  | error stop => exact ⟨ht.1, .inl ht.2⟩
  | ok isSeccompEnabled =>
    obtain ⟨pid, status, hpid, rfl, hleft, hright⟩ := ht
    refine Prog.twp_mono (benchmark_twp hfuel layout _ t) ?_
    intro r u hu
    obtain ⟨rfl, hbenchmarked⟩ := hu
    intro x
    exact ⟨rfl, .inr (parentRun_of_benchmarked hpid hleft hright hbenchmarked)⟩

end Runs

/-- A kernel that refuses everything, with a clock that stands still. -/
def refusingKernel : ∀ op : BenchCall ⊕ ProcessCall, BothAns BenchCall.Answer ProcessCall.Answer op
  | .inl .clockGettime => ⟨0, 0⟩
  | .inl (.syscall _ _) => (-1 : ℤ)
  | .inl (.write _ _) => (-1 : ℤ)
  | .inr (.clone _) => (-1 : ℤ)
  | .inr (.wait4 _) => none
  | .inr (.exit _) => ()

/-- Whatever the kernel answers, whatever the clock shows and wherever the process is stopped:
it comes to its end. If nothing stops it, it exits with 0, after the forbidden call and nothing
printed in the child, and in the parent after the whole report, with the answer to each of its
two questions and with the averages of its own 13 measurements, or 14 on arm. What a stopped
process has done up to its last call is the beginning of such a run. -/
theorem prepMain_reports (target : Target) {fuel : ℕ} (hfuel : nIterations ≤ fuel)
    (layout : Layout) {t : ProcessTranscript}
    {q : Prog (Fate Death (BothAns BenchCall.Answer ProcessCall.Answer)) (Except Death Stop)}
    (h : (process target layout fuel).Runs t q) :
    q ≠ .outOfFuel ∧
      (∀ stop, q = .ret (.ok stop) →
        stop = .exited 0 ∧ (ChildRun target (answered t) ∨ ParentRun target (answered t))) ∧
      ∀ death, q = .ret (.error death) → ∃ u op x v, t = u ++ [⟨op, .error death⟩] ∧
        (ChildRun target (answered u ++ ⟨op, x⟩ :: v) ∨
          ParentRun target (answered u ++ ⟨op, x⟩ :: v)) := by
  have htwp := @prepMain_twp target fuel hfuel layout
  refine ⟨Prog.interruptible_ne_outOfFuel htwp h, ?_, ?_⟩
  · intro stop hq
    subst hq
    exact Prog.twp_post htwp (Prog.returns_of_interruptible_ok h)
  · intro death hq
    subst hq
    obtain ⟨u, op, ht, r, x, v, -, -, hruns⟩ :=
      Prog.prefix_of_interruptible_error htwp refusingKernel h
    exact ⟨u, op, x, v, ht, hruns⟩

def plainLayout : Layout where
  cpuset := 0x7ff000
  su := 0x400000
  st := 0x7ff100
  devnull := 0x400010
  notsu := 0x400020
  iterBuf := List.replicate 7 '?'
  length_iterBuf := rfl

/-- `SIGSYS`. -/
def sigsys : Signal := ⟨31, by decide, by decide⟩

/-- The child is killed in the forbidden call. -/
def killedChild : ProcessTranscript :=
  [⟨.inr (.clone sigchld), .ok (0 : ℤ)⟩,
    ⟨.inl (.syscall (Target.sysSwapoff .arm64) [0]), .error (.killed sigsys false)⟩]

theorem returns_killedChild (fuel : ℕ) :
    (process .arm64 plainLayout fuel).Returns killedChild (.error (.killed sigsys false)) := by
  obtain ⟨next, hnext⟩ : ∃ next, prepMain .arm64 plainLayout fuel =
      .call (.inr (.clone sigchld)) next := ⟨_, rfl⟩
  obtain ⟨next', hnext'⟩ : ∃ next', next (0 : ℤ) =
      .call (.inl (.syscall (Target.sysSwapoff .arm64) [0])) next' := by
    cases hnext
    exact ⟨_, rfl⟩
  have hruns : (prepMain .arm64 plainLayout fuel).Runs [⟨.inr (.clone sigchld), (0 : ℤ)⟩]
      (.call (.inl (.syscall (Target.sysSwapoff .arm64) [0])) next') := by
    rw [hnext, ← hnext']
    exact @Prog.Runs.call _ (BothAns BenchCall.Answer ProcessCall.Answer) Stop
      (.inr (.clone sigchld)) next (0 : ℤ) [] _ (.refl _)
  exact Prog.returns_interruptible_error hruns _

theorem prepMain_reports_killedChild : ∃ u op x v,
    killedChild = u ++ [⟨op, .error (.killed sigsys false)⟩] ∧
      (ChildRun .arm64 (answered u ++ ⟨op, x⟩ :: v) ∨
        ParentRun .arm64 (answered u ++ ⟨op, x⟩ :: v)) :=
  (prepMain_reports .arm64 (Nat.le_refl nIterations) plainLayout
    (returns_killedChild nIterations)).2.2 _ rfl

/-! ## The parent and its child -/

section Family
variable {target : Target} {t : MainTranscript}

end Family

end VariousStuff.SyscallBench
