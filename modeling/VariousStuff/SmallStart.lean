import VariousStuff.IntArithmetic
import VariousStuff.InteractivePrograms
import VariousStuff.UserMemory

/-! # The start-up demo

The vectors on the initial stack are walked by loops that print an entry before they look
whether there is one. A run in which a null entry is dereferenced, or an `int` counter
overflows, ends with that fault. -/
namespace VariousStuff.SmallStart
open Interactive UserMemory IntArithmetic

inductive StartCall where
  | write (fd : ℕ) (bytes : List Byte)
  deriving DecidableEq

/-- A write returns a count that nobody looks at. -/
abbrev StartCall.Answer : StartCall → Type := fun _ => Word

abbrev StartProg := Prog StartCall.Answer

abbrev StartTranscript := Transcript StartCall.Answer

inductive Fault where
  | nullDereference
  | intOverflow
  deriving DecidableEq

/-- `vec[i]`. -/
def entry (m : Memory) (vec : Word) (i : ℕ) : Word := m.load (vec + BitVec.ofNat 64 (8 * i))

/-- `while (arg[len]) len++`. -/
def lenRound (m : Memory) (arg : Word) (len : ℕ) : StartProg (ℕ ⊕ Except Fault ℕ) :=
  if m.bytesAt arg len = 0 then .ret (.inr (.ok len))
  else if ¬ Fits (len + 1) then .ret (.inr (.error .intOverflow))
  else .ret (.inl (len + 1))

def lenLoop (m : Memory) (fuel : ℕ) (arg : Word) : StartProg (Except Fault ℕ) :=
  if arg = 0 then .ret (.error .nullDereference)
  else Prog.loop (lenRound m arg) fuel 0

def newline : List Byte := [10]

/-- One entry of either vector. -/
def vectorRound (m : Memory) (fuel : ℕ) (vec : Word) (i : ℕ) :
    StartProg (ℕ ⊕ Except Fault Unit) := do
  let arg := entry m vec i
  match ← lenLoop m fuel arg with
  | .error fault => return .inr (.error fault)
  | .ok len =>
    let _ ← Prog.ask (StartCall.write 1 ((List.range len).map (m.bytesAt arg)))
    let _ ← Prog.ask (StartCall.write 1 newline)
    if ¬ Fits (i + 1) then return .inr (.error .intOverflow)
    if entry m vec (i + 1) ≠ 0 then return .inl (i + 1)
    return .inr (.ok ())

def vectorLoop (m : Memory) (fuel : ℕ) (vec : Word) : StartProg (Except Fault Unit) :=
  Prog.loop (vectorRound m fuel vec) fuel 0

/-- Label `argv_loop_start`. -/
def argvLoop (m : Memory) (fuel : ℕ) (argv : Word) : StartProg (Except Fault Unit) :=
  vectorLoop m fuel argv

/-- Label `envp_loop_start`. -/
def envpLoop (m : Memory) (fuel : ℕ) (envp : Word) : StartProg (Except Fault Unit) :=
  vectorLoop m fuel envp

def cMain (m : Memory) (fuel : ℕ) (argv envp : Word) : StartProg (Except Fault ℤ) := do
  match ← argvLoop m fuel argv with
  | .error fault => return .error fault
  | .ok () =>
    match ← envpLoop m fuel envp with
    | .error fault => return .error fault
    | .ok () => return .ok 0

/-- `(char **)(sp + 1)`. -/
def argvOf (sp : Word) : Word := sp + 8

/-- `argv + argc + 1`. -/
def envpOf (m : Memory) (sp : Word) : Word := argvOf sp + 8 * (m.load sp + 1)

/-- What `prep_main` hands to the exit call. A system call is taken to preserve the registers
that the compiler keeps in use, of which the wrapper for x86_64 declares only some. -/
def prepMain (m : Memory) (fuel : ℕ) (sp : Word) : StartProg (Except Fault ℤ) :=
  cMain m fuel (argvOf sp) (envpOf m sp)

end VariousStuff.SmallStart
