import VariousStuff.SyscallBench
import VariousStuff.TruncatedMeans
import Mathlib.Data.List.Sort

/-! # Two benchmarks that report averages

Both tools time batches of one system call against batches of another. Each batch adds its
time per call to a total, and the total is divided once at the end. The loop counters are `int`,
which holds every size up to 2^31 - 1. The ratios in floating point, and the verdict taken from
them, are left out. -/
namespace VariousStuff.AverageBench
open Interactive CStrings TruncatedMeans
open SyscallBench (Timespec)

/-- The system calls that are timed, and the one before all of them. -/
inductive Syscall where
  | schedSetaffinity
  | prctl (option : BitVec 64)
  | newfstatat
  | fstat
  deriving DecidableEq

inductive AverageCall where
  | clockGettime
  | syscall (call : Syscall)
  | printf (format : String) (args : List PrintArg)

abbrev AverageCall.Answer : AverageCall → Type
  | .clockGettime => Timespec
  | .syscall _ => ℤ
  | .printf _ _ => Unit

abbrev AverageProg := Prog AverageCall.Answer

abbrev AverageTranscript := Transcript AverageCall.Answer

def timeNowNs : AverageProg (BitVec 64) := do
  let ts ← Prog.ask AverageCall.clockGettime
  return ts.ns

def syscall (call : Syscall) : AverageProg Unit := do
  let _ ← Prog.ask (AverageCall.syscall call)

def printf (format : String) (args : List PrintArg) : AverageProg Unit :=
  Prog.ask (AverageCall.printf format args)

/-- `n / d` of an unsigned number and a positive one that fits. -/
def quotient (n : BitVec 64) (d : ℕ) : BitVec 64 := BitVec.ofNat 64 (n.toNat / d)

/-- The samples of one system call and their total. -/
structure Samples where
  samples : List (BitVec 64)
  total : BitVec 64

section Program
variable (nIterations nBatch fuel : ℕ)

/-- A batch of calls. -/
def batch (call : Syscall) : AverageProg Unit :=
  Prog.doWhile nBatch (fun _ => syscall call) fuel ()

/-- The warm-up, with two calls a round. -/
def waza (call call' : Syscall) : AverageProg Unit :=
  Prog.doWhile 250 (fun _ =>
    Prog.doWhile nBatch (fun _ => do
      syscall call
      syscall call') fuel ()) fuel ()

/-- One timed batch. -/
def sampleBatch (call : Syscall) (s : Samples) : AverageProg Samples := do
  let t0 ← timeNowNs
  batch nBatch fuel call
  let t1 ← timeNowNs
  let sample := quotient (t1 - t0) nBatch
  return { samples := s.samples ++ [sample], total := s.total + sample }

def measure (call : Syscall) : AverageProg Samples :=
  Prog.doWhile nIterations (sampleBatch nBatch fuel call) fuel ⟨[], 0⟩

/-- `long long avg = total / N_ITERATIONS`. -/
def average (total : BitVec 64) : ℤ := (quotient total nIterations).toInt

/-- The middle of the sorted samples. -/
def median (s : Samples) : BitVec 64 :=
  (s.samples.mergeSort fun a b => decide (a.toNat ≤ b.toNat)).getD (nIterations / 2) 0

/-- `main` of `prctl_abuse.c`. -/
def prctlAbuseMain : AverageProg ℤ := do
  syscall .schedSetaffinity
  waza nBatch fuel (.prctl 0xFFFFFFFF) (.prctl 0xFFFFFFFF)
  let ffffffff ← measure nIterations nBatch fuel (.prctl 0xFFFFFFFF)
  waza nBatch fuel (.prctl 0xDEADBEED) (.prctl 0xDEADBEEE)
  let deadbeef ← measure nIterations nBatch fuel (.prctl 0xDEADBEEF)
  let avgRealNs := average nIterations deadbeef.total
  let avgNopPrctlNs := average nIterations ffffffff.total
  printf "iterations: %d\n" [.num nIterations]
  printf "average 0xFFFFFFFF: %lld ns\n" [.num avgNopPrctlNs]
  printf "average 0xDEADBEEF: %lld ns\n" [.num avgRealNs]
  printf "median 0xFFFFFFFF: %llu ns\n" [.num (median nIterations ffffffff).toNat]
  printf "median 0xDEADBEEF: %llu ns\n" [.num (median nIterations deadbeef).toNat]
  return 0

/-- `main` of `stat_bench.c`. -/
def statBenchMain : AverageProg ℤ := do
  syscall .schedSetaffinity
  waza nBatch fuel .newfstatat .newfstatat
  let newfstatat ← measure nIterations nBatch fuel .newfstatat
  waza nBatch fuel .fstat .fstat
  let newfstat ← measure nIterations nBatch fuel .fstat
  let avgNewfstatNs := average nIterations newfstat.total
  let avgNewfstatatNs := average nIterations newfstatat.total
  printf "iterations: %d\n" [.num nIterations]
  printf "average newfstat: %lld ns\n" [.num avgNewfstatNs]
  printf "average newfstatat: %lld ns\n" [.num avgNewfstatatNs]
  printf "median newfstat: %llu ns\n" [.num (median nIterations newfstat).toNat]
  printf "median newfstatat: %llu ns\n" [.num (median nIterations newfstatat).toNat]
  return 0

end Program

/-- The readings of the clock. -/
def readings (t : AverageTranscript) : List (BitVec 64) :=
  t.filterMap fun
    | ⟨.clockGettime, ts⟩ => some ts.ns
    | _ => none

/-- The lines printed. -/
def lines (t : AverageTranscript) : List Line :=
  t.filterMap fun
    | ⟨.printf format args, _⟩ => some (format, args)
    | _ => none

end VariousStuff.AverageBench
