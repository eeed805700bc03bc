import VariousStuff.KallsymsBootstrap
import VariousStuff.SymbolSizeOffset
import VariousStuff.SysCallTableHunt

/-! # The module's initialisation: bootstrap, verification and the handler lookups -/
namespace VariousStuff.LkmTemplate
open Interactive CStrings KernelNumerals KernelInterface
open KallsymsBootstrap SymbolSizeOffset SysCallTableHunt

def kallsymsLookupName (g : Globals) (name : Option Text) : KernelProg Addr :=
  Prog.ask (KernelCall.viaKallsymsLookupName g.kallsymsLookupNameFn name)

/-- The returned value, the probe as the kernel left it and the static variables. -/
def registerKprobe (g : Globals) (p : Kprobe) : KernelProg (ℤ × Kprobe × Globals) := do
  let g ← if g.registerKprobeFn = 0 then do
      let fn ← kallsymsLookupName g (some "register_kprobe".toList)
      pure { g with registerKprobeFn := fn }
    else pure g
  if g.registerKprobeFn = 0 then return (-ENOENT, p, g)
  let (ret, addr) ← Prog.ask (KernelCall.viaRegisterKprobe g.registerKprobeFn p)
  return (ret, { p with addr := addr }, g)

def unregisterKprobe (g : Globals) (p : Kprobe) : KernelProg Globals := do
  let g ← if g.unregisterKprobeFn = 0 then do
      let fn ← kallsymsLookupName g (some "unregister_kprobe".toList)
      pure { g with unregisterKprobeFn := fn }
    else pure g
  if g.unregisterKprobeFn = 0 then return g
  Prog.ask (KernelCall.viaUnregisterKprobe g.unregisterKprobeFn p)
  return g

def kpKallsymsLookupName (g : Globals) (name : Text) : KernelProg (Addr × Globals) := do
  let (ret, kp, g) ← registerKprobe g ⟨name, 0⟩
  if ret ≠ 0 then return (0, g)
  let addr := kp.addr
  let g ← unregisterKprobe g kp
  prInfo "%s: success! %s at 0x%lx\n" [.str "kp_kallsyms_lookup_name".toList, .str name, lx addr]
  return (addr, g)

/-- Label `found`: the verification. The array `sym` is `none` where control has jumped
over its initialised declaration. -/
def found (g : Globals) (sym : Option Text) : KernelProg (ℤ × Globals) := do
  let verify ← kallsymsLookupName g sym
  prInfo "verify result: 0x%lx \n" [lx verify]
  let (ret, sz, off) ← compatKallsymsLookupSizeOffset verify (some 0) (some 0)
  prInfo "compat_kallsyms_lookup_size_offset: ret: %d size: %lu offset: %lu \n"
    [.num ret, lx (sz.getD 0), lx (off.getD 0)]
  return (0, g)

/-- Label `scan`, where `sym` is declared and initialised. -/
def scanLabel (fuel : ℕ) (g : Globals) : KernelProg (ℤ × Globals) := do
  let sym := "sprint_symbol".toList
  let addr ← Prog.ask KernelCall.addressOfSprintSymbol
  prInfo "%s: %s @ 0x%lx \n" [.str "lkm_boostrap".toList, .str sym, lx addr]
  let (ret, g) ← bootstrapKallsymsLookupName fuel g addr
  if ret ≠ 0 then return (ret, g)
  found g (some sym)

def lkmBoostrap (fuel : ℕ) (g : Globals) : KernelProg (ℤ × Globals) := do
  let rk ← Prog.ask (KernelCall.symbolGet "register_kprobe".toList)
  let uk ← Prog.ask (KernelCall.symbolGet "unregister_kprobe".toList)
  let g := { g with registerKprobeFn := rk, unregisterKprobeFn := uk }
  if g.registerKprobeFn = 0 ∨ g.unregisterKprobeFn = 0 then
    prInfo "kprobe symbols missing or not exported! \n" []
    scanLabel fuel g
  else
    let (fn, g) ← kpKallsymsLookupName g "kallsyms_lookup_name".toList
    let g := { g with kallsymsLookupNameFn := fn }
    if g.kallsymsLookupNameFn ≠ 0 then found g none
    else scanLabel fuel g

def resolveSvcHandler (fuel : ℕ) (g : Globals) (nativeSym _compatSym : Text) (scanDepth : Addr) :
    KernelProg ℤ := do
  let target ← kallsymsLookupName g (some nativeSym)
  if target = 0 then return -ENOENT
  let newScanDepth ← getKsymSize target scanDepth
  prInfo "target: %s @ 0x%lx sz: %zu\n" [.str nativeSym, lx target, lx newScanDepth]
  let ret ← huntSctAdrp fuel g target newScanDepth
  if ret ≠ 0 then return ret
  return 0

/-- `recent` is `LINUX_VERSION_CODE >= KERNEL_VERSION(4, 19, 0)`. -/
def huntSysCallTable (fuel : ℕ) (recent : Bool) (g : Globals) : KernelProg Globals := do
  let fn ← kallsymsLookupName g (some "aarch64_insn_adrp_get_offset".toList)
  let g := { g with aarch64InsnAdrpGetOffsetFn := fn }
  if g.aarch64InsnAdrpGetOffsetFn = 0 then return g
  if recent then
    let ret ← resolveSvcHandler fuel g "do_el0_svc".toList "do_el0_svc_compat".toList (64 * 4)
    if ret = 0 then return g
    let ret ← resolveSvcHandler fuel g "el0_svc_handler".toList "el0_svc_compat_handler".toList (64 * 4)
    if ret = 0 then return g
    let _ ← resolveSvcHandler fuel g "el0_svc".toList "el0_svc_compat".toList (256 * 4)
    return g
  else
    let _ ← resolveSvcHandler fuel g "el0_svc".toList "el0_svc_compat".toList (16 * 4)
    return g

/-- The value returned to the loader, and the static variables it leaves. -/
def lkmTemplateInit (fuel : ℕ) (recent : Bool) (g : Globals) : KernelProg (ℤ × Globals) := do
  prInfo "LKM: Hello World!\n" []
  let (ret, g) ← lkmBoostrap fuel g
  if ret = 0 then
    let g ← huntSysCallTable fuel recent g
    return (-EAGAIN, g)
  return (-EAGAIN, g)

end VariousStuff.LkmTemplate
