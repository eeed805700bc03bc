import VariousStuff.ProfileToolRules

/-! # The fallback to the legacy request

Both tools ask a driver for its version and try the legacy request if that fails. The
second attempt leaves out the descriptor, so the kernel takes the request for a
descriptor and an address for the request. -/
namespace VariousStuff.Profile
open Interactive CStrings

/-! ## `uapi.c` -/

/-- The result of an `ioctl`, and what the driver wrote to `buf.uapi_version`. -/
structure InfoAnswer where
  result : Int32
  uapiVersion : Option (BitVec 32)

inductive UapiCall where
  | reboot (magic1 magic2 cmd : BitVec 64)
  | ioctl (fd request arg : Operand)

abbrev UapiCall.Answer : UapiCall → Type
  | .reboot _ _ _ => Option (BitVec 32)
  | .ioctl _ _ _ => InfoAnswer

inductive UapiOutcome where
  | exit (code : BitVec 32)
  | trap
  deriving DecidableEq

/-- `main` of `uapi.c`. -/
def uapiMain : Prog UapiCall.Answer UapiOutcome := do
  let stored ← Prog.ask (UapiCall.reboot ksuInstallMagic1 ksuInstallMagic2 0)
  let fd := stored.getD 0
  if fd = 0 then return .trap
  let answer ← Prog.ask (UapiCall.ioctl (onFd fd) getInfo .addrOfBuf)
  let uapiVersion := answer.uapiVersion.getD 0
  if answer.result ≠ 0 then
    -- no descriptor here either
    let answer ← Prog.ask (UapiCall.ioctl getInfoLegacy .addrOfBuf .missing)
    let uapiVersion := answer.uapiVersion.getD uapiVersion
    if answer.result ≠ 0 then return .trap
    return .exit uapiVersion
  return .exit uapiVersion

/-! ## Requests that reach the driver -/

/-- An `ioctl` whose first argument is the driver's descriptor and whose second one is a
request. -/
def Addressed (driver : BitVec 32) (fd request : Operand) : Prop :=
  fd = onFd driver ∧
    request ∈ [getInfo, getInfoLegacy, getManagerUid, getAppProfile, setAppProfile]

theorem not_addressed_addrOfBuf (driver : BitVec 32) (fd : Operand) :
    ¬ Addressed driver fd .addrOfBuf := by
  intro h
  simpa [getInfo, getInfoLegacy, getManagerUid, getAppProfile, setAppProfile, ioc] using h.2

section Profile
variable (argv : ℕ → Option Text) (env : ∀ op : ToolCall, op.Answer)

def AddressesDriver (driver : BitVec 32) : ToolCall → Prop
  | .ioctl fd request _ => Addressed driver fd request
  | _ => True

/-- The descriptor obtained from the `reboot` call. -/
def driverFd : BitVec 32 := Option.getD (env (.reboot ksuInstallMagic1 ksuInstallMagic2 0)) 0

/-- The tool is root and has a driver, which rejects the new request. -/
def GetInfoFails : Prop :=
  env .getuid = (0 : BitVec 32) ∧ driverFd env ≠ 0 ∧
    (env (.ioctl (onFd (driverFd env)) getInfo .addrOfBuf)).result ≠ 0

/-- The result of the legacy request on the driver. -/
def legacyResult : Int32 := (env (.ioctl (onFd (driverFd env)) getInfoLegacy .addrOfBuf)).result

/-- The calls and lines of one execution. -/
abbrev calls : ToolTranscript := ((main argv).run env).2

structure TalksToDriver : Prop where
  addressed : ∀ e ∈ calls argv env, AddressesDriver (driverFd env) e.1
  tooOld : GetInfoFails env →
    (⟨.printf "Error: KernelSU too old!\n" [], ()⟩ ∈ calls argv env ↔ legacyResult env = 0)
  notInstalled : GetInfoFails env →
    (⟨.printf "Error: KernelSU not installed?\n" [], ()⟩ ∈ calls argv env ↔ legacyResult env ≠ 0)

end Profile

section Uapi
variable (env : ∀ op : UapiCall, op.Answer)

def UapiCall.AddressesDriver (driver : BitVec 32) : UapiCall → Prop
  | .ioctl fd request _ => Addressed driver fd request
  | _ => True

def uapiDriverFd : BitVec 32 := Option.getD (env (.reboot ksuInstallMagic1 ksuInstallMagic2 0)) 0

def UapiGetInfoFails : Prop :=
  uapiDriverFd env ≠ 0 ∧
    (env (.ioctl (onFd (uapiDriverFd env)) getInfo .addrOfBuf)).result ≠ 0

structure UapiTalksToDriver : Prop where
  addressed : ∀ e ∈ (uapiMain.run env).2, e.1.AddressesDriver (uapiDriverFd env)
  traps : UapiGetInfoFails env → ((uapiMain.run env).1 = some .trap ↔
    (env (.ioctl (onFd (uapiDriverFd env)) getInfoLegacy .addrOfBuf)).result ≠ 0)

end Uapi

/-! ## The commands of `profile.c` -/

section Commands
variable (fd : BitVec 32)

theorem addressesDriver_ioctl {request : Operand} (arg : Operand)
    (h : request ∈ [getInfo, getInfoLegacy, getManagerUid, getAppProfile, setAppProfile]) :
    AddressesDriver fd (.ioctl (onFd fd) request arg) := ⟨rfl, h⟩

theorem refuse_onlyCalls (message : String) :
    (refuse message).OnlyCalls (AddressesDriver fd) := ⟨trivial, fun _ => trivial⟩

theorem guard_onlyCalls {α : Type} {b : Prop} [Decidable b] {message : String}
    {f : Outcome → ToolProg α} {p : ToolProg α}
    (hf : ∀ outcome, (f outcome).OnlyCalls (AddressesDriver fd))
    (hp : p.OnlyCalls (AddressesDriver fd)) :
    (if b then refuse message >>= f else p).OnlyCalls (AddressesDriver fd) := by
  split
  · exact (refuse_onlyCalls fd message).bind hf
  · exact hp

theorem asManager_onlyCalls (cmd : Option (BitVec 32)) (arg2 : Text) (badUid : String) :
    (asManager fd cmd arg2 badUid).OnlyCalls (AddressesDriver fd) := by
  refine ⟨addressesDriver_ioctl fd _ (by simp), fun answer => ?_⟩
  apply guard_onlyCalls
  · intro _
    trivial
  · split
    · trivial
    · apply guard_onlyCalls
      · intro _
        trivial
      · apply guard_onlyCalls
        · intro _
          trivial
        · refine ⟨trivial, fun ret => guard_onlyCalls fd ?_ ?_⟩
          · intro _
            trivial
          · trivial

theorem fetchProfile_onlyCalls (profile : AppProfile) (reqUid : Int32) :
    (fetchProfile fd profile reqUid).OnlyCalls (AddressesDriver fd) := by
  refine ⟨addressesDriver_ioctl fd _ (by simp), fun answer => ?_⟩
  apply guard_onlyCalls
  · intro _
    trivial
  · apply guard_onlyCalls
    · intro _
      trivial
    · trivial

theorem storeProfile_onlyCalls (profile : AppProfile) (failure success : String)
    (args : List PrintArg) :
    (storeProfile fd profile failure success args).OnlyCalls (AddressesDriver fd) := by
  refine ⟨addressesDriver_ioctl fd _ (by simp), fun answer => ?_⟩
  apply guard_onlyCalls
  · intro _
    trivial
  · exact ⟨trivial, fun _ => trivial⟩

theorem fetching_onlyCalls (cmd : Option (BitVec 32)) (arg2 : Text)
    {f : Int32 → AppProfile → ToolProg Outcome}
    (hf : ∀ reqUid profile, (f reqUid profile).OnlyCalls (AddressesDriver fd)) :
    (fetching fd cmd arg2 f).OnlyCalls (AddressesDriver fd) := by
  refine (asManager_onlyCalls fd cmd arg2 _).bind fun manager => ?_
  cases manager with
  | error outcome => trivial
  | ok reqUid =>
    refine (fetchProfile_onlyCalls fd .zero reqUid).bind fun fetched => ?_
    cases fetched with
    | error outcome => trivial
    | ok profile => exact hf reqUid profile

theorem printf_onlyCalls {format : String} {args : List PrintArg} {f : Unit → ToolProg Outcome}
    (hf : (f ()).OnlyCalls (AddressesDriver fd)) :
    (printf format args >>= f).OnlyCalls (AddressesDriver fd) :=
  ⟨trivial, fun _ => hf⟩

theorem getuidinfo_onlyCalls (arg2 : Text) :
    (getuidinfo fd arg2).OnlyCalls (AddressesDriver fd) := by
  refine fetching_onlyCalls fd _ arg2 fun reqUid profile => ?_
  refine printf_onlyCalls fd (printf_onlyCalls fd (printf_onlyCalls fd ?_))
  split
  · exact printf_onlyCalls fd (printf_onlyCalls fd (printf_onlyCalls fd trivial))
  · exact printf_onlyCalls fd (printf_onlyCalls fd (printf_onlyCalls fd trivial))

theorem setumount_onlyCalls (arg2 arg3 : Text) :
    (setumount fd arg2 arg3).OnlyCalls (AddressesDriver fd) := by
  refine fetching_onlyCalls fd _ arg2 fun reqUid profile => ?_
  apply guard_onlyCalls
  · intro _
    trivial
  · exact storeProfile_onlyCalls fd _ _ _ _

theorem createProfile_onlyCalls (arg2 arg3 : Text) :
    (createProfile fd arg2 arg3).OnlyCalls (AddressesDriver fd) := by
  refine (asManager_onlyCalls fd none arg2 _).bind fun manager => ?_
  cases manager with
  | error outcome => trivial
  | ok reqUid => exact storeProfile_onlyCalls fd _ _ _ _

theorem setRoot_onlyCalls (arg2 arg3 : Text) :
    (setRoot fd arg2 arg3).OnlyCalls (AddressesDriver fd) :=
  fetching_onlyCalls fd _ arg2 fun _ _ => storeProfile_onlyCalls fd _ _ _ _

theorem help_onlyCalls (arg0 : Text) : (help arg0).OnlyCalls (AddressesDriver fd) :=
  printf_onlyCalls fd (printf_onlyCalls fd (printf_onlyCalls fd (printf_onlyCalls fd trivial)))

theorem runCommand_onlyCalls (argv : ℕ → Option Text) :
    (runCommand fd argv).OnlyCalls (AddressesDriver fd) := by
  rw [runCommand]
  cases command argv with
  | getuidinfo arg2 => exact getuidinfo_onlyCalls fd arg2
  | setumount arg2 arg3 => exact setumount_onlyCalls fd arg2 arg3
  | createProfile arg2 arg3 => exact createProfile_onlyCalls fd arg2 arg3
  | setRoot arg2 arg3 => exact setRoot_onlyCalls fd arg2 arg3
  | help => exact help_onlyCalls fd _

end Commands

/-! ## Both tools -/

section Profile
variable {argv : ℕ → Option Text} {env : ∀ op : ToolCall, op.Answer}

/-- The calls of a run that reaches the fallback. -/
theorem calls_of_getInfoFails (h : GetInfoFails env) :
    ⟨.ioctl getInfoLegacy .addrOfBuf .missing, env (.ioctl getInfoLegacy .addrOfBuf .missing)⟩ ∈
      calls argv env := by
  obtain ⟨hroot, hfd, hresult⟩ := h
  rw [driverFd] at hfd hresult
  simp only [calls, main, Prog.bind_eq, Prog.ask_bind, ioctl_bind, Prog.run_call, hroot, ne_eq,
    not_true_eq_false, if_false, hfd, hresult, not_false_eq_true, if_true]
  simp

/-- Without it every `ioctl` of the run is addressed to the driver. -/
theorem addressed_of_not_getInfoFails (h : ¬ GetInfoFails env) :
    ∀ e ∈ calls argv env, AddressesDriver (driverFd env) e.1 := by
  by_cases hroot : env .getuid = (0 : BitVec 32)
  · by_cases hfd : driverFd env = 0
    · rw [driverFd] at hfd
      simp only [calls, main, Prog.bind_eq, Prog.ask_bind, Prog.run_call, hroot, ne_eq,
        not_true_eq_false, if_false, hfd, if_true, List.forall_mem_cons]
      exact ⟨trivial, trivial, fun _ he => absurd he List.not_mem_nil⟩
    · have hresult : (env (.ioctl (onFd (driverFd env)) getInfo .addrOfBuf)).result = 0 := by
        by_contra hresult
        exact h ⟨hroot, hfd, hresult⟩
      have hcommand : ∀ e ∈ ((runCommand (driverFd env) argv).run env).2,
          AddressesDriver (driverFd env) e.1 :=
        fun e he => (runCommand_onlyCalls (driverFd env) argv).of_mem_run env he
      rw [driverFd] at hfd hresult hcommand ⊢
      simp only [calls, main, Prog.bind_eq, Prog.ask_bind, ioctl_bind, Prog.run_call, hroot, ne_eq,
        not_true_eq_false, if_false, hfd, hresult, List.forall_mem_cons]
      exact ⟨trivial, trivial, addressesDriver_ioctl _ _ (by simp), hcommand⟩
  · simp only [calls, main, Prog.bind_eq, Prog.ask_bind, Prog.run_call, hroot, ne_eq,
      not_false_eq_true, if_true, List.forall_mem_cons]
    exact ⟨trivial, fun e he => (refuse_onlyCalls _ _).of_mem_run env he⟩

theorem talksToDriver_iff : TalksToDriver argv env ↔ ¬ GetInfoFails env := by
  constructor
  · intro htalks hfails
    exact not_addressed_addrOfBuf _ _ (htalks.addressed _ (calls_of_getInfoFails hfails))
  · intro h
    exact ⟨addressed_of_not_getInfoFails h, fun hfails => absurd hfails h,
      fun hfails => absurd hfails h⟩

end Profile

section Uapi
variable {env : ∀ op : UapiCall, op.Answer}

theorem uapiCalls_of_getInfoFails (h : UapiGetInfoFails env) :
    ⟨.ioctl getInfoLegacy .addrOfBuf .missing, env (.ioctl getInfoLegacy .addrOfBuf .missing)⟩ ∈
      (uapiMain.run env).2 := by
  obtain ⟨hfd, hresult⟩ := h
  rw [uapiDriverFd] at hfd hresult
  simp only [uapiMain, Prog.bind_eq, Prog.ask_bind, Prog.run_call, hfd, if_false, ne_eq, hresult,
    not_false_eq_true, if_true]
  simp

theorem uapiAddressed_of_not_getInfoFails (h : ¬ UapiGetInfoFails env) :
    ∀ e ∈ (uapiMain.run env).2, e.1.AddressesDriver (uapiDriverFd env) := by
  by_cases hfd : uapiDriverFd env = 0
  · rw [uapiDriverFd] at hfd
    simp only [uapiMain, Prog.bind_eq, Prog.ask_bind, Prog.run_call, hfd, if_true,
      List.forall_mem_cons]
    exact ⟨trivial, fun _ he => absurd he List.not_mem_nil⟩
  · have hresult : (env (.ioctl (onFd (uapiDriverFd env)) getInfo .addrOfBuf)).result = 0 := by
      by_contra hresult
      exact h ⟨hfd, hresult⟩
    rw [uapiDriverFd] at hfd hresult ⊢
    simp only [uapiMain, Prog.bind_eq, Prog.ask_bind, Prog.run_call, hfd, if_false, ne_eq, hresult,
      not_true_eq_false, List.forall_mem_cons]
    exact ⟨trivial, ⟨rfl, by simp⟩, fun _ he => absurd he List.not_mem_nil⟩

theorem uapiTalksToDriver_iff : UapiTalksToDriver env ↔ ¬ UapiGetInfoFails env := by
  constructor
  · intro htalks hfails
    exact not_addressed_addrOfBuf _ _ (htalks.addressed _ (uapiCalls_of_getInfoFails hfails))
  · intro h
    exact ⟨uapiAddressed_of_not_getInfoFails h, fun hfails => absurd hfails h⟩

end Uapi

/-- Against every kernel both tools talk to the driver alone, and tell by the legacy request
whether it is too old, if and only if they do not come to the fallback. -/
theorem talkToDriver_iff_no_fallback (argv : ℕ → Option Text) (env : ∀ op : ToolCall, op.Answer)
    (uapiEnv : ∀ op : UapiCall, op.Answer) :
    (TalksToDriver argv env ↔ ¬ GetInfoFails env) ∧
      (UapiTalksToDriver uapiEnv ↔ ¬ UapiGetInfoFails uapiEnv) :=
  ⟨talksToDriver_iff, uapiTalksToDriver_iff⟩

/-- An old driver behind descriptor 3 answers the legacy request alone. -/
def oldDriverResult : Operand → Operand → Int32
  | .num 3, .num 0x80004B02 => 0
  | _, _ => -1

def oldDriver : ∀ op : ToolCall, op.Answer
  | .getuid => (0 : BitVec 32)
  | .reboot _ _ _ => some (3 : BitVec 32)
  | .ioctl fd request _ => IoctlAnswer.mk (oldDriverResult fd request) none none
  | .setuid _ => (0 : Int32)
  | .printf _ _ => ()

def uapiOldDriver : ∀ op : UapiCall, op.Answer
  | .reboot _ _ _ => some (3 : BitVec 32)
  | .ioctl fd request _ => InfoAnswer.mk (oldDriverResult fd request) none

/-- The driver would answer the legacy request, and is reported as missing. -/
theorem oldDriver_reported_as_missing :
    legacyResult oldDriver = 0 ∧
      ⟨.printf "Error: KernelSU not installed?\n" [], ()⟩ ∈ calls (fun _ => none) oldDriver ∧
      (uapiOldDriver (.ioctl (onFd (uapiDriverFd uapiOldDriver)) getInfoLegacy .addrOfBuf)).result = 0 ∧
      (uapiMain.run uapiOldDriver).1 = some .trap := by
  refine ⟨by decide, ?_, by decide, by decide⟩
  have hcalls : calls (fun _ => none) oldDriver =
      [⟨.getuid, (0 : BitVec 32)⟩, ⟨.reboot ksuInstallMagic1 ksuInstallMagic2 0, some (3 : BitVec 32)⟩,
        ⟨.ioctl (onFd 3) getInfo .addrOfBuf, ⟨-1, none, none⟩⟩,
        ⟨.ioctl getInfoLegacy .addrOfBuf .missing, ⟨-1, none, none⟩⟩,
        ⟨.printf "Error: KernelSU not installed?\n" [], ()⟩] := rfl
  rw [hcalls]
  simp

end VariousStuff.Profile
