import VariousStuff.InteractivePrograms
import VariousStuff.KernelNumerals

/-! # What the kernel module asks of the running kernel

Everything outside `lkm_template/main.c` is a call to the environment: fault-tolerant
reads, symbol texts, kprobes, and every call made through one of the module's own
function pointers, which carries the value of that pointer. -/
namespace VariousStuff.KernelInterface
open Interactive CStrings KernelNumerals

abbrev Addr := BitVec 64

def ENOENT : ℤ := 2
def EAGAIN : ℤ := 11

/-- The fields of `struct kprobe` that the module sets or reads. -/
structure Kprobe where
  symbolName : Text
  addr : Addr
  deriving DecidableEq

inductive KernelCall where
  | copyFromKernelNofault (src : Addr) (size : ℕ)
  | sprintSymbol (addr : Addr)
  | prInfo (format : String) (args : List PrintArg)
  | addressOfSprintSymbol
  | symbolGet (name : Text)
  | aarch64InsnIsAdrp (insn : BitVec 32)
  /-- A name of `none` is a buffer that was never initialised. -/
  | viaKallsymsLookupName (fn : Addr) (name : Option Text)
  | viaRegisterKprobe (fn : Addr) (p : Kprobe)
  | viaUnregisterKprobe (fn : Addr) (p : Kprobe)
  | viaAarch64InsnAdrpGetOffset (fn : Addr) (insn : BitVec 32)

namespace KernelCall

/-- A nofault copy yields the bytes read, or nothing for `-EFAULT`; `sprint_symbol`
yields the text, whose length it returns; a registration yields the returned value
and `kp.addr`. -/
abbrev Answer : KernelCall → Type
  | .copyFromKernelNofault _ size => Option (BitVec (8 * size))
  | .sprintSymbol _ => Text
  | .prInfo _ _ => Unit
  | .addressOfSprintSymbol => Addr
  | .symbolGet _ => Addr
  | .aarch64InsnIsAdrp _ => Bool
  | .viaKallsymsLookupName _ _ => Addr
  | .viaRegisterKprobe _ _ => ℤ × Addr
  | .viaUnregisterKprobe _ _ => Unit
  | .viaAarch64InsnAdrpGetOffset _ _ => BitVec 32

/-- The function pointer a call goes through. -/
def pointer : KernelCall → Option Addr
  | .viaKallsymsLookupName fn _ => some fn
  | .viaRegisterKprobe fn _ => some fn
  | .viaUnregisterKprobe fn _ => some fn
  | .viaAarch64InsnAdrpGetOffset fn _ => some fn
  | _ => none

end KernelCall

abbrev KernelProg := Prog KernelCall.Answer

abbrev KernelTranscript := Transcript KernelCall.Answer

def copyFromKernelNofault (src : Addr) (size : ℕ) : KernelProg (Option (BitVec (8 * size))) :=
  Prog.ask (KernelCall.copyFromKernelNofault src size)

def sprintSymbol (addr : Addr) : KernelProg Text := Prog.ask (KernelCall.sprintSymbol addr)

def prInfo (format : String) (args : List PrintArg) : KernelProg Unit :=
  Prog.ask (KernelCall.prInfo format args)

section Bind
variable {α : Type}

@[simp] theorem copyFromKernelNofault_bind (src : Addr) (size : ℕ)
    (f : Option (BitVec (8 * size)) → KernelProg α) :
    (copyFromKernelNofault src size).bind f = .call (.copyFromKernelNofault src size) f := rfl

@[simp] theorem sprintSymbol_bind (addr : Addr) (f : Text → KernelProg α) :
    (sprintSymbol addr).bind f = .call (.sprintSymbol addr) f := rfl

@[simp] theorem prInfo_bind (format : String) (args : List PrintArg) (f : Unit → KernelProg α) :
    (prInfo format args).bind f = .call (.prInfo format args) f := rfl

end Bind

/-- `%lx` of an address. -/
def lx (a : Addr) : PrintArg := .num a.toNat

theorem lx_injective {a b : Addr} (h : lx a = lx b) : a = b := by
  have hnum : (a.toNat : ℤ) = b.toNat := PrintArg.num.inj h
  exact BitVec.eq_of_toNat_eq (Int.ofNat.inj hnum)

/-- The module's static function pointers. -/
structure Globals where
  kallsymsLookupNameFn : Addr
  registerKprobeFn : Addr
  unregisterKprobeFn : Addr
  aarch64InsnAdrpGetOffsetFn : Addr

/-- All four variables as the loader leaves them. -/
def Globals.zero : Globals := ⟨0, 0, 0, 0⟩

/-- A kernel whose answers do not change during a run. -/
structure Kernel where
  nofault : Addr → (size : ℕ) → Option (BitVec (8 * size))
  symbolText : Addr → Text
  sprintSymbolAddr : Addr
  exported : Text → Addr
  registration : Kprobe → ℤ × Addr
  kallsyms : Option Text → Addr
  isAdrp : BitVec 32 → Bool
  adrpOffset : BitVec 32 → BitVec 32

def Kernel.answer (K : Kernel) : ∀ op : KernelCall, op.Answer
  | .copyFromKernelNofault src size => K.nofault src size
  | .sprintSymbol addr => K.symbolText addr
  | .prInfo _ _ => ()
  | .addressOfSprintSymbol => K.sprintSymbolAddr
  | .symbolGet name => K.exported name
  | .aarch64InsnIsAdrp insn => K.isAdrp insn
  | .viaKallsymsLookupName _ name => K.kallsyms name
  | .viaRegisterKprobe _ p => K.registration p
  | .viaUnregisterKprobe _ _ => ()
  | .viaAarch64InsnAdrpGetOffset _ insn => K.adrpOffset insn

/-- The program's execution against `K` ends with `a` after the calls `t`. -/
def Kernel.Yields (K : Kernel) {α : Type} (p : KernelProg α) (a : α) (t : KernelTranscript) : Prop :=
  p.run K.answer = (some a, t)

namespace Kernel.Yields
variable {K : Kernel} {α β : Type}

theorem ret (a : α) : K.Yields (Prog.ret a) a [] := rfl

theorem ask (op : KernelCall) : K.Yields (Prog.ask op) (K.answer op) [⟨op, K.answer op⟩] := rfl

theorem prInfo (format : String) (args : List PrintArg) :
    K.Yields (prInfo format args) () [⟨.prInfo format args, ()⟩] := rfl

theorem bind {p : KernelProg α} {f : α → KernelProg β} {a : α} {b : β} {t u : KernelTranscript}
    (h : K.Yields p a t) (hf : K.Yields (f a) b u) : K.Yields (p.bind f) b (t ++ u) := by
  rw [Kernel.Yields, Prog.run_bind K.answer h, hf]

end Kernel.Yields

section Run
variable {α : Type} (K : Kernel)

theorem run_copyFromKernelNofault (src : Addr) (size : ℕ)
    (f : Option (BitVec (8 * size)) → KernelProg α) :
    ((copyFromKernelNofault src size).bind f).run K.answer =
      (((f (K.nofault src size)).run K.answer).1,
        ⟨.copyFromKernelNofault src size, K.nofault src size⟩ ::
          ((f (K.nofault src size)).run K.answer).2) := rfl

theorem run_sprintSymbol (addr : Addr) (f : Text → KernelProg α) :
    ((sprintSymbol addr).bind f).run K.answer =
      (((f (K.symbolText addr)).run K.answer).1,
        ⟨.sprintSymbol addr, K.symbolText addr⟩ :: ((f (K.symbolText addr)).run K.answer).2) := rfl

theorem run_prInfo (format : String) (args : List PrintArg) (f : Unit → KernelProg α) :
    ((prInfo format args).bind f).run K.answer =
      (((f ()).run K.answer).1, ⟨.prInfo format args, ()⟩ :: ((f ()).run K.answer).2) := rfl

end Run

/-- Everything is readable as zero, and there is nothing but symbol texts. -/
def readableKernel (symbolText : Addr → Text) : Kernel where
  nofault _ _ := some 0
  symbolText := symbolText
  sprintSymbolAddr := 0
  exported _ := 0
  registration _ := (-ENOENT, 0)
  kallsyms _ := 0
  isAdrp _ := false
  adrpOffset _ := 0

end VariousStuff.KernelInterface
