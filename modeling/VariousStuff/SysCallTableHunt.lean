import VariousStuff.KernelInterface

/-! # The hunt for `sys_call_table` behind the ADRP instructions of a handler -/
namespace VariousStuff.SysCallTableHunt
open Interactive CStrings KernelNumerals KernelInterface

def maxTries : ℕ := 4096 / 8

/-- The label about to run, with the locals that are live there. -/
inductive Pc where
  | scan (insnP : Addr)
  | scanPg (insnP curr : Addr) (tries : ℕ)
  deriving DecidableEq

/-- Label `increment_adrp`. -/
def incrementAdrp (insnP : Addr) : Pc := .scan (insnP + 4)

/-- Label `increment_pg_p`. -/
def incrementPgP (insnP curr : Addr) (tries : ℕ) : Pc := .scanPg insnP (curr + 8) (tries + 1)

/-- Label `scan`: one instruction word. The decoder is called through its pointer. -/
def scan (g : Globals) (insnEnd insnP : Addr) : KernelProg (Pc ⊕ ℤ) := do
  if insnEnd ≤ insnP then return .inr (-ERANGE)
  match ← copyFromKernelNofault insnP 4 with
  | none => return .inl (incrementAdrp insnP)
  | some rawInsn =>
    let adrp ← Prog.ask (KernelCall.aarch64InsnIsAdrp rawInsn)
    if adrp = false then return .inl (incrementAdrp insnP)
    prInfo "0x%lx insn is adrp! .inst 0x%lx \n" [lx insnP, .num rawInsn.toNat]
    let pcPg := insnP &&& ~~~0xFFF
    let offset ← Prog.ask (KernelCall.viaAarch64InsnAdrpGetOffset g.aarch64InsnAdrpGetOffsetFn rawInsn)
    let tgt := pcPg + offset.signExtend 64
    prInfo "tgt: 0x%lx \n" [lx tgt]
    return .inl (.scanPg insnP tgt 0)

/-- Label `scan_pg`: one slot of the page, and what it points to. -/
def scanPg (insnP curr : Addr) (tries : ℕ) : KernelProg (Pc ⊕ ℤ) := do
  if tries > maxTries then return .inl (incrementAdrp insnP)
  match ← copyFromKernelNofault curr 8 with
  | none => return .inl (incrementPgP insnP curr tries)
  | some pbuf =>
    let dummy ← copyFromKernelNofault pbuf 8
    if dummy.isNone then return .inl (incrementPgP insnP curr tries)
    let buf ← sprintSymbol pbuf
    if ¬ 0 < buf.length then return .inl (incrementPgP insnP curr tries)
    if ¬ strstr buf "sys_io_setup".toList then return .inl (incrementPgP insnP curr tries)
    prInfo "symbol: %s @ 0x%lx &sys_call_table[0]: 0x%lx\n" [.str buf, lx pbuf, lx curr]
    return .inr 0

def step (g : Globals) (insnEnd : Addr) : Pc → KernelProg (Pc ⊕ ℤ)
  | .scan insnP => scan g insnEnd insnP
  | .scanPg insnP curr tries => scanPg insnP curr tries

def huntSctAdrp (fuel : ℕ) (g : Globals) (insnAddrStart scanDepth : Addr) : KernelProg ℤ :=
  Prog.loop (step g (insnAddrStart + scanDepth)) fuel (.scan insnAddrStart)

end VariousStuff.SysCallTableHunt
