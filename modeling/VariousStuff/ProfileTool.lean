import VariousStuff.AppProfile
import VariousStuff.InteractivePrograms

/-! # The profile tool

The tool is a program over the system calls it makes and the lines it prints. The
variable `cmd` has an initialiser that the jumps to three of the four commands skip,
so it holds no value there until the driver fills it. -/
namespace VariousStuff.Profile
open Interactive CStrings

/-- The arguments of a raw system call, with what a pointer points to where it matters. -/
inductive Operand where
  | num (n : BitVec 64)
  | addrOfBuf
  | addrOfCmd
  | addrOfProfile (profile : AppProfile)
  /-- An argument the caller did not pass. -/
  | missing

inductive ToolCall where
  | getuid
  | reboot (magic1 magic2 cmd : BitVec 64)
  | ioctl (fd request arg : Operand)
  | setuid (uid : BitVec 32)
  | printf (format : String) (args : List PrintArg)

/-- The result of an `ioctl`, and what the driver wrote to the record it was handed. -/
structure IoctlAnswer where
  result : Int32
  uid : Option (BitVec 32)
  profile : Option AppProfile

/-- The `reboot` call yields the descriptor it stored, if it stored one. -/
abbrev ToolCall.Answer : ToolCall → Type
  | .getuid => BitVec 32
  | .reboot _ _ _ => Option (BitVec 32)
  | .ioctl _ _ _ => IoctlAnswer
  | .setuid _ => Int32
  | .printf _ _ => Unit

abbrev ToolProg := Prog ToolCall.Answer

abbrev ToolTranscript := Transcript ToolCall.Answer

/-! ## Requests -/

/-- `_IOC(dir, 'K', nr, size)`. -/
def ioc (dir nr size : ℕ) : Operand :=
  .num (BitVec.ofNat 64 (dir <<< 30 ||| size <<< 16 ||| 'K'.toNat <<< 8 ||| nr))

def iocWrite : ℕ := 1
def iocRead : ℕ := 2

def getInfoLegacy : Operand := ioc iocRead 2 0
/-- The record has four 32-bit fields. -/
def getInfo : Operand := ioc iocRead 2 16
def getManagerUid : Operand := ioc iocRead 10 0
def getAppProfile : Operand := ioc (iocRead ||| iocWrite) 11 0
def setAppProfile : Operand := ioc iocWrite 12 0

def ksuInstallMagic1 : BitVec 64 := 0xDEADBEEF
def ksuInstallMagic2 : BitVec 64 := 0xCAFEBABE
def ksuAppProfileVer : BitVec 32 := 4

/-- The descriptor as it is passed to `ioctl`. -/
def onFd (fd : BitVec 32) : Operand := .num (fd.signExtend 64)

def ioctl (fd request arg : Operand) : ToolProg IoctlAnswer :=
  Prog.ask (ToolCall.ioctl fd request arg)

def printf (format : String) (args : List PrintArg) : ToolProg Unit :=
  Prog.ask (ToolCall.printf format args)

section Bind
variable {α : Type}

@[simp] theorem ioctl_bind (fd request arg : Operand) (f : IoctlAnswer → ToolProg α) :
    (ioctl fd request arg).bind f = .call (.ioctl fd request arg) f := rfl

@[simp] theorem printf_bind (format : String) (args : List PrintArg) (f : Unit → ToolProg α) :
    (printf format args).bind f = .call (.printf format args) f := rfl

end Bind

/-! ## The command line -/

/-- The labels of `main`, with the arguments each of them reads. -/
inductive Command where
  | getuidinfo (arg2 : Text)
  | setumount (arg2 arg3 : Text)
  | createProfile (arg2 arg3 : Text)
  | setRoot (arg2 arg3 : Text)
  | help

def command (argv : ℕ → Option Text) : Command :=
  match argv 1, argv 2, argv 3 with
  | some arg1, some arg2, arg3 =>
    if arg1 = "--getuidinfo".toList then .getuidinfo arg2
    else match arg3 with
      | some arg3 =>
        if arg1 = "--setumount".toList then .setumount arg2 arg3
        else if arg1 = "--create".toList then .createProfile arg2 arg3
        else if arg1 = "--setroot".toList then .setRoot arg2 arg3
        else .help
      | none => .help
  | _, _, _ => .help

/-- `argv[3][0] == 49`. -/
def flag (arg3 : Text) : Bool := arg3.head? = some '1'

/-! ## The commands -/

inductive Outcome where
  | exit (code : ℕ)
  /-- An object without a value was read. -/
  | undefined
  deriving DecidableEq

def refuse (message : String) : ToolProg Outcome := do
  printf message []
  return .exit 1

/-- What the commands have in common up to `setuid`: the manager, and the uid asked for. -/
def asManager (fd : BitVec 32) (cmd : Option (BitVec 32)) (arg2 : Text) (badUid : String) :
    ToolProg (Except Outcome Int32) := do
  let answer ← ioctl (onFd fd) getManagerUid .addrOfCmd
  if answer.result ≠ 0 then
    return .error (← refuse "Error: Manager not installed!\n")
  match answer.uid <|> cmd with
  | none => return .error .undefined
  | some uid =>
    if uid = 0 then
      return .error (← refuse "Error: Manager not installed!\n")
    let reqUid := atoi arg2
    if reqUid < 10000 then
      return .error (← refuse badUid)
    let ret ← Prog.ask (ToolCall.setuid uid)
    if ret ≠ 0 then
      return .error (← refuse "Error: setuid fail!\n")
    return .ok reqUid

/-- What three of the commands do next: the stored profile of that uid. -/
def fetchProfile (fd : BitVec 32) (profile : AppProfile) (reqUid : Int32) :
    ToolProg (Except Outcome AppProfile) := do
  let profile := { profile with version := ksuAppProfileVer, currUid := reqUid }
  let answer ← ioctl (onFd fd) getAppProfile (.addrOfProfile profile)
  if answer.result ≠ 0 then
    return .error (← refuse "Error: no profile!\n")
  let profile := answer.profile.getD profile
  if profile.key 0 = '\x00' then
    return .error (← refuse "Error: no profile!\n")
  return .ok profile

/-- What three of the commands end with. -/
def storeProfile (fd : BitVec 32) (profile : AppProfile) (failure success : String)
    (args : List PrintArg) : ToolProg Outcome := do
  let answer ← ioctl (onFd fd) setAppProfile (.addrOfProfile profile)
  if answer.result ≠ 0 then
    return ← refuse failure
  printf success args
  return .exit 0

def yesNo (b : Prop) [Decidable b] (yes no : String) : PrintArg :=
  .str (if b then yes.toList else no.toList)

def getuidinfo (fd : BitVec 32) (arg2 : Text) : ToolProg Outcome := do
  match ← asManager fd (some 0) arg2 "Error: bad uid!\n" with
  | .error outcome => return outcome
  | .ok reqUid =>
    match ← fetchProfile fd .zero reqUid with
    | .error outcome => return outcome
    | .ok profile =>
      printf "profile info\n" []
      printf "pkg_name: \t%s\n" [.str profile.keyText]
      printf "uid: \t\t%d\n" [.num profile.currUid.toInt]
      if profile.allowSu then
        printf "su: \t\tyes\n" []
        printf "use_default: \t%s\n" [yesNo (profile.rpUseDefault ≠ 0) "yes" "no"]
        printf "root uid/gid: \t%d/%d\n" [.num profile.rpUid.toInt, .num profile.rpGid.toInt]
      else
        printf "su: \t\tno\n" []
        printf "use_default: \t%s\n" [yesNo (profile.nrpUseDefault ≠ 0) "yes" "no"]
        printf "umount: \t%s\n" [yesNo (profile.nrpUmountModules ≠ 0) "true" "false"]
      return .exit 0

def setumount (fd : BitVec 32) (arg2 arg3 : Text) : ToolProg Outcome := do
  match ← asManager fd none arg2 "Error: bad uid!\n" with
  | .error outcome => return outcome
  | .ok reqUid =>
    match ← fetchProfile fd .zero reqUid with
    | .error outcome => return outcome
    | .ok profile =>
      if profile.allowSu then
        return ← refuse "Error: umount for SU app is nono!\n"
      storeProfile fd (profile.setNrp false (flag arg3)) "Error: set umount fail!\n"
        "Success: umount set to %d app with uid: %d \n"
        [.num (if atoi arg3 ≠ 0 then 1 else 0), .num reqUid.toInt]

/-- The usage message also stands for a missing `argv[3]`, which the jump excludes. -/
def createProfile (fd : BitVec 32) (arg2 arg3 : Text) : ToolProg Outcome := do
  match ← asManager fd none arg2 "Error: Usage --create <uid> <package_name>\n" with
  | .error outcome => return outcome
  | .ok reqUid =>
    let profile := { AppProfile.zero with version := ksuAppProfileVer, currUid := reqUid }
    let profile := { profile.strncpyKey arg3 with allowSu := false }
    let profile := profile.setNrp true false
    storeProfile fd profile "Error: Failed to create app profile!\n"
      "Success: created new profile for %s (UID: %d)\n" [.str profile.keyText, .num reqUid.toInt]

def setRoot (fd : BitVec 32) (arg2 arg3 : Text) : ToolProg Outcome := do
  match ← asManager fd none arg2 "Error: bad uid!\n" with
  | .error outcome => return outcome
  | .ok reqUid =>
    match ← fetchProfile fd .zero reqUid with
    | .error outcome => return outcome
    | .ok profile =>
      let profile := profile.setRoot (flag arg3)
      storeProfile fd profile "Error: set root fail!\n"
        "Success: root set to %d for %s with uid: %d \n"
        [.num (if flag arg3 then 1 else 0), .str profile.keyText, .num reqUid.toInt]

def help (arg0 : Text) : ToolProg Outcome := do
  printf "%s --getuidinfo 12345\t to print info on app with uid\n" [.str arg0]
  printf "%s --setumount 12345 1/0\t to toggle umount for app with uid\n" [.str arg0]
  printf "%s --create 12345 com.google.chrome\t to create a new profile\n" [.str arg0]
  printf "%s --setroot 12345 0/1\t to set root rights to uid\n" [.str arg0]
  return .exit 0

def runCommand (fd : BitVec 32) (argv : ℕ → Option Text) : ToolProg Outcome :=
  match command argv with
  | .getuidinfo arg2 => getuidinfo fd arg2
  | .setumount arg2 arg3 => setumount fd arg2 arg3
  | .createProfile arg2 arg3 => createProfile fd arg2 arg3
  | .setRoot arg2 arg3 => setRoot fd arg2 arg3
  | .help => help ((argv 0).getD "(null)".toList)

/-- `main`. -/
def main (argv : ℕ → Option Text) : ToolProg Outcome := do
  let uid ← Prog.ask ToolCall.getuid
  if uid ≠ 0 then
    return ← refuse "Error: need root!\n"
  let stored ← Prog.ask (ToolCall.reboot ksuInstallMagic1 ksuInstallMagic2 0)
  let fd := stored.getD 0
  if fd = 0 then
    return .exit 1
  let answer ← ioctl (onFd fd) getInfo .addrOfBuf
  if answer.result ≠ 0 then
    -- the second attempt passes no descriptor, so every argument is one place too early
    let answer ← ioctl getInfoLegacy .addrOfBuf .missing
    if answer.result ≠ 0 then
      return ← refuse "Error: KernelSU not installed?\n"
    return ← refuse "Error: KernelSU too old!\n"
  runCommand fd argv

end VariousStuff.Profile
