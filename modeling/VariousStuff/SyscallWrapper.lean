import VariousStuff.SequentialMoves
import Mathlib.Tactic.Common

/-! # The x86_64 system call wrapper

The inline assembly of `__syscall` binds the number and the first three arguments to
registers by its constraints, and moves the last three from registers the compiler
chooses. The clobber list reserves `rcx` and `r11` only. -/
namespace VariousStuff.SyscallWrapper
open SequentialMoves

abbrev Word := BitVec 64

inductive Reg where
  | rax | rbx | rcx | rdx | rsi | rdi | rbp | rsp
  | r8 | r9 | r10 | r11 | r12 | r13 | r14 | r15
  deriving DecidableEq

/-- The registers bound by the constraints `"a"`, `"D"`, `"S"` and `"d"`. -/
def boundRegs : List Reg := [.rax, .rdi, .rsi, .rdx]

def clobbers : List Reg := [.rcx, .r11]

/-- What the constraint `"r"` leaves to the compiler. -/
def Free (r : Reg) : Prop := r ≠ .rsp ∧ r ∉ boundRegs ∧ r ∉ clobbers

instance (r : Reg) : Decidable (Free r) :=
  inferInstanceAs (Decidable (r ≠ .rsp ∧ r ∉ boundRegs ∧ r ∉ clobbers))

/-- The registers as the compiler sets them up. Two operands share a register only if
that register holds both their values. -/
structure Allocation (n a b c d e f : Word) where
  regs : Reg → Word
  rax_eq : regs .rax = n
  rdi_eq : regs .rdi = a
  rsi_eq : regs .rsi = b
  rdx_eq : regs .rdx = c
  opD : Reg
  opE : Reg
  opF : Reg
  free_opD : Free opD
  free_opE : Free opE
  free_opF : Free opF
  opD_eq : regs opD = d
  opE_eq : regs opE = e
  opF_eq : regs opF = f

namespace Allocation
variable {n a b c d e f : Word} (A : Allocation n a b c d e f)

/-- `mov %5, %r10; mov %6, %r8; mov %7, %r9`. -/
def moves : List (Move Reg) := [⟨.r10, A.opD⟩, ⟨.r8, A.opE⟩, ⟨.r9, A.opF⟩]

/-- The registers just before `syscall`. -/
def atSyscall : Reg → Word := run A.moves A.regs

/-- The kernel finds the number and all six arguments where it looks for them. -/
structure Delivers : Prop where
  rax : A.atSyscall .rax = n
  rdi : A.atSyscall .rdi = a
  rsi : A.atSyscall .rsi = b
  rdx : A.atSyscall .rdx = c
  r10 : A.atSyscall .r10 = d
  r8 : A.atSyscall .r8 = e
  r9 : A.atSyscall .r9 = f

theorem atSyscall_of_mem_boundRegs {r : Reg} (h : r ∈ boundRegs) : A.atSyscall r = A.regs r := by
  apply run_of_notMem
  cases r <;> simp [boundRegs, moves] at h ⊢

theorem delivers_iff_delivered : A.Delivers ↔ Delivered A.moves A.regs := by
  have hmoves : Delivered A.moves A.regs ↔
      A.atSyscall .r10 = d ∧ A.atSyscall .r8 = e ∧ A.atSyscall .r9 = f := by
    simp [Delivered, moves, atSyscall, A.opD_eq, A.opE_eq, A.opF_eq]
  rw [hmoves]
  constructor
  · intro h
    exact ⟨h.r10, h.r8, h.r9⟩
  · rintro ⟨hd, he, hf⟩
    refine ⟨?_, ?_, ?_, ?_, hd, he, hf⟩
    · exact (A.atSyscall_of_mem_boundRegs (by decide)).trans A.rax_eq
    · exact (A.atSyscall_of_mem_boundRegs (by decide)).trans A.rdi_eq
    · exact (A.atSyscall_of_mem_boundRegs (by decide)).trans A.rsi_eq
    · exact (A.atSyscall_of_mem_boundRegs (by decide)).trans A.rdx_eq

/-- All arguments are delivered exactly when no operand sits in a register that an
earlier move overwrites with another value. -/
theorem delivers_iff :
    A.Delivers ↔ (A.opE = .r10 → d = e) ∧ (A.opF = .r10 → d = f) ∧ (A.opF = .r8 → e = f) := by
  have hdst : (A.moves.map Move.dst).Nodup := by simp [moves]
  rw [delivers_iff_delivered, delivered_iff_unclobbered hdst]
  simp [Unclobbered, moves, A.opD_eq, A.opE_eq, A.opF_eq, and_assoc]

/-- Allocations out of the registers the wrapper does not write always deliver. -/
theorem delivers_of_preserved (he : A.opE ≠ .r10) (hf : A.opF ≠ .r10) (hf' : A.opF ≠ .r8) :
    A.Delivers :=
  A.delivers_iff.mpr ⟨fun h => absurd h he, fun h => absurd h hf, fun h => absurd h hf'⟩

end Allocation

/-- The fifth argument in `r10`, where the fourth is moved first. -/
def r10Allocation : Allocation 0 0 0 0 1 2 3 where
  regs := fun
    | .rbx => 1
    | .r10 => 2
    | .r12 => 3
    | _ => 0
  rax_eq := rfl
  rdi_eq := rfl
  rsi_eq := rfl
  rdx_eq := rfl
  opD := .rbx
  opE := .r10
  opF := .r12
  free_opD := by decide
  free_opE := by decide
  free_opF := by decide
  opD_eq := rfl
  opE_eq := rfl
  opF_eq := rfl

/-- There the fifth argument is lost. -/
theorem syscall_loses_argument :
    ¬ ∀ (n a b c d e f : Word) (A : Allocation n a b c d e f), A.Delivers := by
  intro h
  have hr8 : r10Allocation.atSyscall .r8 = 2 := (h 0 0 0 0 1 2 3 r10Allocation).r8
  exact absurd hr8 (by decide)

end VariousStuff.SyscallWrapper
