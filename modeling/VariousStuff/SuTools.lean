import VariousStuff.SmallStart

/-! # Tools that ask the driver for root rights

Each tool overwrites its own name in the argument vector and has the kernel run another
program with that vector. The driver hands out its descriptor through a call of `reboot`. -/
namespace VariousStuff.SuTools
open Interactive UserMemory
open SmallStart (entry argvOf envpOf)

inductive SuCall where
  | reboot (magic1 magic2 cmd : Word)
  | ioctl (fd request arg : Word)
  | openat (dir : Word) (path : String) (flags : Word)
  | write (fd : Word) (text : String)
  | close (fd : Word)
  /-- The kernel reads the vectors in the memory of the caller. -/
  | execve (path : String) (argv envp : Word) (m : Memory)
  | exit (code : Word)

/-- `reboot` yields the descriptor it stored, if it stored one, and `execve` yields nothing if
the process runs the other program now. -/
abbrev SuCall.Answer : SuCall → Type
  | .reboot _ _ _ => Option (BitVec 32)
  | .ioctl _ _ _ => Word
  | .openat _ _ _ => Word
  | .write _ _ => Word
  | .close _ => Word
  | .execve _ _ _ _ => Option Word
  | .exit _ => Unit

abbrev SuProg := Prog SuCall.Answer

abbrev SuTranscript := Transcript SuCall.Answer

/-- What becomes of the process. -/
inductive Outcome where
  | runs (path : String)
  | trapped
  | exited
  /-- A null pointer was dereferenced. -/
  | fault
  deriving DecidableEq

def ksuInstallMagic1 : Word := 0xDEADBEEF
def ksuInstallMagic2 : Word := 0xCAFEBABE

/-- `_IOC(_IOC_NONE, 'K', 1, 0)`. -/
def grantRoot : Word := 0x4B01

def ksud : String := "/data/adb/ksud"
def reboot : SuProg (Option (BitVec 32)) :=
  Prog.ask (SuCall.reboot ksuInstallMagic1 ksuInstallMagic2 0)

def ioctl (fd : BitVec 32) (request arg : Word) : SuProg Word :=
  Prog.ask (SuCall.ioctl (fd.signExtend 64) request arg)

def execve (path : String) (argv envp : Word) (m : Memory) : SuProg (Option Word) :=
  Prog.ask (SuCall.execve path argv envp m)

/-- `argv[0] = "su"`, where `su` is the address of the literal. -/
def setArgv0 (m : Memory) (argv su : Word) : Memory := m.store argv 8 (byteOf su)

/-- `int ret`. -/
def toInt (result : Word) : ℤ := (result.setWidth 32).toInt

/-- The bytes of `"/data"`. -/
def dataPrefix : List Byte := [0x2f, 0x64, 0x61, 0x74, 0x61]

/-- `!memcmp(argv[0], "/data", strlen("/data"))`. -/
def isData (m : Memory) (arg0 : Word) : Bool := (List.range 5).map (m.bytesAt arg0) = dataPrefix

def openat (path : String) (flags : Word) : SuProg Word := Prog.ask (SuCall.openat (-100) path flags)

def write (fd : Word) (text : String) : SuProg Unit := do
  let _ ← Prog.ask (SuCall.write fd text)

def close (fd : Word) : SuProg Unit := do
  let _ ← Prog.ask (SuCall.close fd)

def oWronly : Word := 1

def debugMsg : String := "KernelSU: kernelnosu su->ksud\n"

def devKmsg : String := "/dev/kmsg"

/-- Label `denied`. -/
def denied : SuProg (Except Outcome Word) := do
  write 2 "Denied\n"
  return .ok 1

/-- The line in the kernel log, if that can be opened. -/
def logDebugMsg : SuProg Unit := do
  let fd := (← openat devKmsg oWronly).setWidth 32
  if 0 ≤ fd.toInt then
    write (fd.signExtend 64) debugMsg
    close (fd.signExtend 64)

/-- `c_main` of `small_su.c`: the exit code, unless the process does not get there. -/
def smallSuCMain (m : Memory) (argv envp su : Word) : SuProg (Except Outcome Word) := do
  let arg0 := entry m argv 0
  if arg0 = 0 then
    return .error .fault
  if isData m arg0 then
    return ← denied
  let stored ← reboot
  let fd := stored.getD 0
  if fd = 0 then
    return ← denied
  let ret ← ioctl fd grantRoot 0
  if toInt ret < 0 then
    return ← denied
  let m := setArgv0 m argv su
  logDebugMsg
  match ← execve ksud argv envp m with
  | none => return .error (.runs ksud)
  | some _ => denied

/-- `prep_main` of `small_su.c`. -/
def smallSuPrepMain (m : Memory) (sp su : Word) : SuProg Outcome := do
  match ← smallSuCMain m (argvOf sp) (envpOf m sp) su with
  | .error outcome => return outcome
  | .ok exitCode =>
    Prog.ask (SuCall.exit exitCode)
    return .exited

end VariousStuff.SuTools
