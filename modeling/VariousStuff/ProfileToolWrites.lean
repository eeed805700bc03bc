import VariousStuff.ProfileToolRules

/-! # When the profile tool writes, and what

Whatever the kernel answers, a run writes at most one profile, after all its guards, and
the record written differs from the one read only where the command says so. -/
namespace VariousStuff.Profile
open Interactive CStrings

/-! ## What must have happened before a write -/

/-- The tool runs as root and talks to a driver that answers. -/
structure Opened (t : ToolTranscript) (fd : BitVec 32) : Prop where
  root : ⟨.getuid, (0 : BitVec 32)⟩ ∈ t
  driver : ⟨.reboot ksuInstallMagic1 ksuInstallMagic2 0, some fd⟩ ∈ t
  fd_ne_zero : fd ≠ 0
  info : ∃ answer, ⟨.ioctl (onFd fd) getInfo .addrOfBuf, answer⟩ ∈ t ∧ answer.result = 0

/-- It fetched a nonzero manager uid and took it, for an uid of an app. -/
structure ActsAsManager (t : ToolTranscript) (fd : BitVec 32) (uid : Int32) : Prop where
  opened : Opened t fd
  manager : ∃ answer manager, ⟨.ioctl (onFd fd) getManagerUid .addrOfCmd, answer⟩ ∈ t ∧
    answer.result = 0 ∧ answer.uid = some manager ∧ manager ≠ 0 ∧ ⟨.setuid manager, (0 : Int32)⟩ ∈ t
  uid_ge : 10000 ≤ uid

/-- The driver returned the profile of `uid`, and it names an app. -/
def Fetched (t : ToolTranscript) (fd : BitVec 32) (uid : Int32) (stored : AppProfile) : Prop :=
  ∃ answer, ⟨profileRequest fd uid, answer⟩ ∈ t ∧ answer.result = 0 ∧
    answer.profile = some stored ∧ stored.key 0 ≠ '\x00'

/-- The records agree but for the first two bytes of the union, which are
`nrp_config.use_default` and `nrp_config.profile.umount_modules`. -/
def AgreeOutsideNrp (p q : AppProfile) : Prop :=
  ∃ config, p = { q with config := config } ∧ ∀ i : Fin configSize, 2 ≤ i.val → config i = q.config i

def AgreeOutsideAllowSu (p q : AppProfile) : Prop := ∃ su, p = { q with allowSu := su }

def AgreeOutsideRoot (p q : AppProfile) : Prop :=
  ∃ su config, p = { q with allowSu := su, config := config }

/-- The guards each command has passed when it writes `profile`. -/
def Guards (argv : ℕ → Option Text) (t : ToolTranscript) (fd : BitVec 32) (profile : AppProfile) :
    Prop :=
  match command argv with
  | .setumount arg2 _ => ActsAsManager t fd (atoi arg2) ∧
      ∃ stored, Fetched t fd (atoi arg2) stored ∧ stored.allowSu = false ∧
        AgreeOutsideNrp profile stored
  | .createProfile arg2 _ => ActsAsManager t fd (atoi arg2)
  | .setRoot arg2 arg3 => ActsAsManager t fd (atoi arg2) ∧
      ∃ stored, Fetched t fd (atoi arg2) stored ∧
        (flag arg3 = false → AgreeOutsideAllowSu profile stored) ∧
        (flag arg3 = true → AgreeOutsideRoot profile stored)
  | .getuidinfo _ => False
  | .help => False

/-- The driver fills the record it is asked for when it reports success. -/
def Fills : ∀ op : ToolCall, op.Answer → Prop
  | .ioctl _ request _, answer => answer.result = 0 →
      (request = getManagerUid → answer.uid ≠ none) ∧
        (request = getAppProfile → answer.profile ≠ none)
  | _, _ => True

/-- The first write of a run, behind its guards. -/
def GuardedWrite (argv : ℕ → Option Text) (t : ToolTranscript) (op : ToolCall) : Prop :=
  NoWrites t ∧ ∃ fd profile, op = writeRequest fd profile ∧ Guards argv t fd profile

def guarded (argv : ℕ → Option Text) : Prog.Contract ToolCall.Answer where
  allowed t op := IsWrite op → GuardedWrite argv t op
  honest := Fills

theorem restrictsWrites_guarded (argv : ℕ → Option Text) : RestrictsWrites (guarded argv) :=
  fun _ _ hop hwrite => absurd hwrite hop

/-- The tool exits, and with 0 after a write exactly if that write returned 0. -/
def Finished (outcome : Outcome) (t : ToolTranscript) : Prop :=
  ∃ code, outcome = .exit code ∧
    ∀ fd arg answer, ⟨.ioctl fd setAppProfile arg, answer⟩ ∈ t → (code = 0 ↔ answer.result = 0)

theorem finished_of_noWrites {t : ToolTranscript} (h : NoWrites t) (code : ℕ) :
    Finished (.exit code) t :=
  ⟨code, rfl, fun _ _ _ hmem => absurd rfl (h _ hmem)⟩

theorem finished_of_write {t u : ToolTranscript} {fd : BitVec 32} {profile : AppProfile}
    {answer : IoctlAnswer} {code : ℕ} (ht : NoWrites t) (hu : NoWrites u)
    (hcode : code = 0 ↔ answer.result = 0) :
    Finished (.exit code) (t ++ ⟨writeRequest fd profile, answer⟩ :: u) := by
  refine ⟨code, rfl, fun fd' arg answer' hmem => ?_⟩
  obtain ⟨-, -, rfl⟩ := write_eq_of_mem ht hu hmem
  exact hcode

theorem agreeOutsideNrp_setNrp (p : AppProfile) (useDefault umountModules : Bool) :
    AgreeOutsideNrp (p.setNrp useDefault umountModules) p := by
  refine ⟨_, rfl, fun i hi => ?_⟩
  have h1 : i ≠ 1 := by rintro rfl; simp at hi
  have h0 : i ≠ 0 := by rintro rfl; simp at hi
  have hconfig := p.setNrp_config_apply useDefault umountModules i
  rwa [if_neg h1, if_neg h0] at hconfig

section Commands
variable {argv : ℕ → Option Text} {t : ToolTranscript} {fd : BitVec 32}

theorem opened_openingCalls {opening : IoctlAnswer} (hfd : fd ≠ 0) (hresult : opening.result = 0) :
    Opened (openingCalls fd opening) fd :=
  ⟨by simp [openingCalls], by simp [openingCalls], hfd, opening, by simp [openingCalls], hresult⟩

theorem Opened.append (h : Opened t fd) (u : ToolTranscript) : Opened (t ++ u) fd where
  root := List.mem_append_left u h.root
  driver := List.mem_append_left u h.driver
  fd_ne_zero := h.fd_ne_zero
  info := by
    obtain ⟨answer, hmem, hresult⟩ := h.info
    exact ⟨answer, List.mem_append_left u hmem, hresult⟩

theorem actsAsManager_of_calls {answer : IoctlAnswer} {manager : BitVec 32} {uid : Int32}
    (h : Opened t fd) (hresult : answer.result = 0) (huid : answer.uid = some manager)
    (hzero : manager ≠ 0) (hge : 10000 ≤ uid) (u : ToolTranscript) :
    ActsAsManager (t ++ (managerCalls fd answer manager ++ u)) fd uid where
  opened := h.append _
  manager := ⟨answer, manager, by simp [managerCalls, managerRequest], hresult, huid, hzero,
    by simp [managerCalls]⟩
  uid_ge := hge

/-- A driver that fills its records provides the uid of the manager itself. -/
theorem uid_eq_of_fills (fd : BitVec 32) (cmd : Option (BitVec 32)) {answer : IoctlAnswer}
    (hfills : Fills (managerRequest fd) answer) (hresult : answer.result = 0) :
    ∃ manager, answer.uid = some manager ∧ (answer.uid <|> cmd) = some manager := by
  obtain ⟨manager, hmanager⟩ := Option.ne_none_iff_exists'.mp ((hfills hresult).1 rfl)
  refine ⟨manager, hmanager, ?_⟩
  rw [hmanager]
  rfl

theorem fetching_guarded {arg2 : Text} {cmd : Option (BitVec 32)}
    {f : Int32 → AppProfile → ToolProg Outcome} (ht : NoWrites t) (hopened : Opened t fd)
    (h : ∀ u stored, NoWrites u → ActsAsManager u fd (atoi arg2) → Fetched u fd (atoi arg2) stored →
      (f (atoi arg2) stored).wp (guarded argv) Finished u) :
    (fetching fd cmd arg2 f).wp (guarded argv) Finished t := by
  apply fetching_wp (restrictsWrites_guarded argv)
  · intro answer manager answer' stored hfills hresult huid hzero hge _ hresult' hstored hkey
    obtain ⟨manager', hmanager, heq⟩ := uid_eq_of_fills fd cmd hfills hresult
    obtain rfl : manager = manager' := Option.some.inj (huid.symm.trans heq)
    refine h _ stored (noWrites_append ht (noWrites_fetchCalls _ answer manager answer'))
      (actsAsManager_of_calls hopened hresult hmanager hzero hge _) ?_
    exact ⟨answer', by simp [fetchCalls], hresult', hstored, hkey⟩
  · intro answer hfills hresult hnone
    obtain ⟨manager, -, heq⟩ := uid_eq_of_fills fd cmd hfills hresult
    rw [hnone] at heq
    cases heq
  · intro u hu
    exact finished_of_noWrites (noWrites_append ht hu) 1

theorem storeProfile_finished {profile : AppProfile} {failure success : String}
    {args : List PrintArg} (ht : NoWrites t) (hguards : Guards argv t fd profile) :
    (storeProfile fd profile failure success args).wp (guarded argv) Finished t := by
  apply storeProfile_wp (restrictsWrites_guarded argv)
  · exact fun _ => ⟨ht, fd, profile, rfl, hguards⟩
  · intro answer code format args hcode
    exact finished_of_write ht (noWrites_line format args) hcode

theorem printf_finished {format : String} {args : List PrintArg} {f : Unit → ToolProg Outcome}
    (ht : NoWrites t) (h : ∀ u, NoWrites u → (f ()).wp (guarded argv) Finished u) :
    (printf format args >>= f).wp (guarded argv) Finished t :=
  wp_printf (restrictsWrites_guarded argv) (h _ (noWrites_append ht (noWrites_line format args)))

theorem getuidinfo_finished {arg2 : Text} (ht : NoWrites t) (hopened : Opened t fd) :
    (getuidinfo fd arg2).wp (guarded argv) Finished t := by
  refine fetching_guarded ht hopened fun u stored hu _ _ => ?_
  refine printf_finished hu fun u hu => printf_finished hu fun u hu =>
    printf_finished hu fun u hu => ?_
  split
  · exact printf_finished hu fun u hu => printf_finished hu fun u hu =>
      printf_finished hu fun u hu => finished_of_noWrites hu 0
  · exact printf_finished hu fun u hu => printf_finished hu fun u hu =>
      printf_finished hu fun u hu => finished_of_noWrites hu 0

theorem setumount_finished {arg2 arg3 : Text} (hcommand : command argv = .setumount arg2 arg3)
    (ht : NoWrites t) (hopened : Opened t fd) :
    (setumount fd arg2 arg3).wp (guarded argv) Finished t := by
  refine fetching_guarded ht hopened fun u stored hu hmanager hfetched => ?_
  apply wp_guard (restrictsWrites_guarded argv)
  · intro _
    exact finished_of_noWrites (noWrites_append hu (noWrites_line _ [])) 1
  · intro hsu
    apply storeProfile_finished hu
    rw [Guards, hcommand]
    exact ⟨hmanager, stored, hfetched, by simpa using hsu, agreeOutsideNrp_setNrp stored _ _⟩

theorem createProfile_finished {arg2 arg3 : Text}
    (hcommand : command argv = .createProfile arg2 arg3) (ht : NoWrites t)
    (hopened : Opened t fd) : (createProfile fd arg2 arg3).wp (guarded argv) Finished t := by
  rw [createProfile, Prog.bind_eq, Prog.wp_bind]
  apply asManager_wp (restrictsWrites_guarded argv)
  · intro answer manager hfills hresult huid hzero hge
    obtain ⟨manager', hmanager, heq⟩ := uid_eq_of_fills fd none hfills hresult
    obtain rfl : manager = manager' := Option.some.inj (huid.symm.trans heq)
    apply storeProfile_finished (noWrites_append ht (noWrites_managerCalls answer manager))
    rw [Guards, hcommand]
    simpa using actsAsManager_of_calls hopened hresult hmanager hzero hge []
  · intro answer hfills hresult hnone
    obtain ⟨manager, -, heq⟩ := uid_eq_of_fills fd none hfills hresult
    rw [hnone] at heq
    cases heq
  · intro u hu
    exact finished_of_noWrites (noWrites_append ht hu) 1

theorem setRoot_finished {arg2 arg3 : Text} (hcommand : command argv = .setRoot arg2 arg3)
    (ht : NoWrites t) (hopened : Opened t fd) :
    (setRoot fd arg2 arg3).wp (guarded argv) Finished t := by
  refine fetching_guarded ht hopened fun u stored hu hmanager hfetched => ?_
  apply storeProfile_finished hu
  rw [Guards, hcommand]
  refine ⟨hmanager, stored, hfetched, fun hflag => ⟨false, ?_⟩,
    fun hflag => ⟨true, AppProfile.rootConfig, ?_⟩⟩
  · simp [AppProfile.setRoot, hflag]
  · simp [AppProfile.setRoot, hflag]

theorem help_finished (arg0 : Text) (ht : NoWrites t) :
    (help arg0).wp (guarded argv) Finished t :=
  printf_finished ht fun _ hu => printf_finished hu fun _ hu => printf_finished hu fun _ hu =>
    printf_finished hu fun _ hu => finished_of_noWrites hu 0

theorem main_finished (argv : ℕ → Option Text) : (main argv).wp (guarded argv) Finished [] := by
  apply main_wp (restrictsWrites_guarded argv)
  · intro fd opening hfd hresult
    have ht := noWrites_openingCalls fd opening
    have hopened := opened_openingCalls hfd hresult
    rw [runCommand]
    cases hcommand : command argv with
    | getuidinfo arg2 => exact getuidinfo_finished ht hopened
    | setumount arg2 arg3 => exact setumount_finished hcommand ht hopened
    | createProfile arg2 arg3 => exact createProfile_finished hcommand ht hopened
    | setRoot arg2 arg3 => exact setRoot_finished hcommand ht hopened
    | help => exact help_finished _ ht
  · intro u hu
    exact finished_of_noWrites hu 1

end Commands

/-- In every run of the tool, whatever the kernel answers, there is at most one write,
and when it is made all guards of the command have been passed and the record differs
from the one read only where it should. The tool never reads an object without a value,
and exits with 0 after a write exactly if the write returned 0. -/
theorem main_writes_guarded {argv : ℕ → Option Text} {t : ToolTranscript} {p : ToolProg Outcome}
    (hrun : (main argv).Runs t p) (hfills : ∀ e ∈ t, Fills e.1 e.2) :
    (∀ u e v, t = u ++ e :: v → IsWrite e.1 → NoWrites u ∧ NoWrites v ∧
      ∃ fd profile, e.1 = writeRequest fd profile ∧ Guards argv u fd profile) ∧
    ∀ outcome, p = .ret outcome → Finished outcome t := by
  have hfirst : ∀ u e v, t = u ++ e :: v → IsWrite e.1 → GuardedWrite argv u e.1 := by
    rintro u e v rfl hwrite
    exact Prog.allowed_of_runs (main_finished argv) hrun hfills hwrite
  refine ⟨fun u e v ht hwrite => ?_, ?_⟩
  · obtain ⟨hbefore, hguarded⟩ := hfirst u e v ht hwrite
    refine ⟨hbefore, fun e' he' hwrite' => ?_, hguarded⟩
    obtain ⟨v₁, v₂, rfl⟩ := List.append_of_mem he'
    have hlater := (hfirst (u ++ e :: v₁) e' v₂ (by simp [ht]) hwrite').1
    exact hlater e (by simp) hwrite
  · rintro outcome rfl
    exact Prog.post_of_returns (main_finished argv) hrun hfills

/-- A kernel that agrees to everything and has one profile. -/
def obligingKernel (stored : AppProfile) : ∀ op : ToolCall, op.Answer
  | .getuid => (0 : BitVec 32)
  | .reboot _ _ _ => some (3 : BitVec 32)
  | .ioctl _ _ _ => IoctlAnswer.mk 0 (some 10100) (some stored)
  | .setuid _ => (0 : Int32)
  | .printf _ _ => ()

theorem fills_obligingKernel (stored : AppProfile) (op : ToolCall) :
    Fills op (obligingKernel stored op) := by
  cases op <;> simp [Fills, obligingKernel]

/-- An app without root rights, with an empty configuration. -/
def plainProfile : AppProfile :=
  { AppProfile.zero with key := fun i => if i.val < 3 then 'a' else '\x00', currUid := 10123 }

def umountArgv : ℕ → Option Text
  | 1 => some "--setumount".toList
  | 2 => some "10123".toList
  | 3 => some "1".toList
  | _ => none

/-- With that kernel the tool writes once, what it was asked to write, and exits with 0. -/
theorem main_writes_guarded_umount : ∃ u v answer fd profile,
    (main umountArgv).Returns
        (u ++ ⟨writeRequest 3 (plainProfile.setNrp false true), answer⟩ :: v) (.exit 0) ∧
      NoWrites u ∧ NoWrites v ∧
      writeRequest 3 (plainProfile.setNrp false true) = writeRequest fd profile ∧
      Guards umountArgv u fd profile := by
  obtain ⟨t, hrun⟩ : ∃ t, (main umountArgv).run (obligingKernel plainProfile) =
      (some (.exit 0), t) := ⟨_, Prod.ext (by decide) rfl⟩
  have hfills : ∀ e ∈ t, Fills e.1 e.2 := by
    intro e he
    have hanswer : e.2 = obligingKernel plainProfile e.1 :=
      Prog.answer_of_run (p := main umountArgv) _ (by rwa [hrun])
    rw [hanswer]
    exact fills_obligingKernel plainProfile e.1
  have hreturns := Prog.returns_of_run _ hrun
  obtain ⟨answer, hwrite⟩ : ∃ answer,
      t[6]? = some ⟨writeRequest 3 (plainProfile.setNrp false true), answer⟩ := by
    have ht : t = ((main umountArgv).run (obligingKernel plainProfile)).2 :=
      (congrArg Prod.snd hrun).symm
    rw [ht]
    exact ⟨_, rfl⟩
  obtain ⟨u, v, rfl⟩ := List.append_of_mem (List.mem_of_getElem? hwrite)
  obtain ⟨hbefore, hafter, fd, profile, hrequest, hguards⟩ :=
    (main_writes_guarded hreturns hfills).1 u _ v rfl rfl
  exact ⟨u, v, answer, fd, profile, hreturns, hbefore, hafter, hrequest, hguards⟩

end VariousStuff.Profile
