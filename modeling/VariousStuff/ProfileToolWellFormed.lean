import VariousStuff.ProfileToolWrites

/-! # Which written profiles are well-formed

The arms of the union share their bytes. A withdrawal of root rights selects the other arm
and leaves the bytes, so the first byte of the template name becomes a flag. -/
namespace VariousStuff.Profile
open Interactive CStrings

namespace AppProfile

/-- `rp_config.template_name`, right behind the flag. -/
def rpTemplateName (p : AppProfile) (i : Fin maxPackageName) : Byte :=
  p.config ⟨i.val + 1, Nat.lt_of_lt_of_le (Nat.succ_lt_succ i.isLt) (by decide)⟩

/-- The byte is a value of type `bool`. -/
def IsBool (b : Byte) : Prop := b = 0 ∨ b = 1

/-- The `bool` fields of the arm that `allow_su` selects. -/
def boolFields (p : AppProfile) : List Byte :=
  if p.allowSu then [p.rpUseDefault] else [p.nrpUseDefault, p.nrpUmountModules]

structure WellFormed (p : AppProfile) : Prop where
  terminated : ∃ i, p.key i = '\x00'
  bools : ∀ b ∈ p.boolFields, IsBool b

theorem isBool_boolByte (b : Bool) : IsBool (boolByte b) := by
  cases b
  · exact Or.inl rfl
  · exact Or.inr rfl

section Changes
variable {p : AppProfile}

/-- Both arms start with their default flag. -/
theorem WellFormed.isBool_useDefault (h : p.WellFormed) : IsBool (p.config 0) := by
  apply h.bools
  rw [boolFields]
  split
  · exact List.mem_singleton_self _
  · exact List.mem_cons_self

theorem boolFields_of_allowSu (h : p.allowSu = true) : p.boolFields = [p.config 0] :=
  if_pos h

theorem boolFields_of_not_allowSu (h : p.allowSu = false) : p.boolFields = [p.config 0, p.config 1] :=
  if_neg (by rw [h]; exact Bool.false_ne_true)

theorem wellFormed_setNrp (hkey : ∃ i, p.key i = '\x00') (hsu : p.allowSu = false)
    (useDefault umountModules : Bool) : (p.setNrp useDefault umountModules).WellFormed where
  terminated := hkey
  bools := by
    intro b hb
    have hsu' : (p.setNrp useDefault umountModules).allowSu = false := hsu
    rw [boolFields_of_not_allowSu hsu', setNrp_config_apply, setNrp_config_apply] at hb
    rcases List.mem_pair.mp hb with rfl | rfl
    · exact isBool_boolByte useDefault
    · exact isBool_boolByte umountModules

theorem strncpyKey_key_last (p : AppProfile) (s : Text) :
    (p.strncpyKey s).key (Fin.last 255) = p.key (Fin.last 255) := by
  simp [strncpyKey]

/-- Of an app with root rights only the default flag matters. -/
theorem wellFormed_of_isRoot (hkey : ∃ i, p.key i = '\x00')
    (hsu : p.allowSu = true) (hdefault : p.config 0 = 1) : p.WellFormed where
  terminated := hkey
  bools := by
    intro b hb
    rw [boolFields_of_allowSu hsu, hdefault] at hb
    obtain rfl := List.mem_singleton.mp hb
    exact Or.inr rfl

theorem WellFormed.setRoot_true (h : p.WellFormed) : (p.setRoot true).WellFormed :=
  wellFormed_of_isRoot h.terminated rfl rfl

/-- A withdrawal from an app that has root rights reads the template name as a flag. -/
theorem WellFormed.setRoot_false_iff (h : p.WellFormed) :
    (p.setRoot false).WellFormed ↔ (p.allowSu = true → IsBool (p.rpTemplateName 0)) := by
  constructor
  · intro hwf _
    apply hwf.bools
    rw [boolFields_of_not_allowSu rfl]
    exact List.mem_cons_of_mem _ (List.mem_singleton_self _)
  · intro htemplate
    by_cases hsu : p.allowSu = true
    · refine ⟨h.terminated, fun b hb => ?_⟩
      rw [boolFields_of_not_allowSu rfl] at hb
      rcases List.mem_pair.mp hb with rfl | rfl
      · exact h.isBool_useDefault
      · exact htemplate hsu
    · rw [setRoot_false_eq_self (by simpa using hsu)]
      exact h

end Changes
end AppProfile

open AppProfile

/-! ## Runs in which the kernel returns one profile -/

/-- The driver returns `stored` for the uid it is asked about, if anything. -/
def Returns (stored : AppProfile) : ∀ op : ToolCall, op.Answer → Prop
  | .ioctl _ request _, answer => request = getAppProfile → ∀ p ∈ answer.profile, p = stored
  | _, _ => True

/-- If the call is a write, it writes a well-formed profile. -/
def WellFormedWrite (op : ToolCall) : Prop :=
  IsWrite op → ∃ fd profile, op = writeRequest fd profile ∧ profile.WellFormed

/-- Every profile written in a run in which the kernel returns `stored` is well-formed. -/
def WritesWellFormed (argv : ℕ → Option Text) (stored : AppProfile) : Prop :=
  ∀ (t : ToolTranscript) (p : ToolProg Outcome), (main argv).Runs t p →
    (∀ e ∈ t, Returns stored e.1 e.2) → ∀ e ∈ t, WellFormedWrite e.1

/-- Root rights are withdrawn from an app whose template name starts with a byte that is no
`bool`. -/
def WithdrawsFromTemplate (argv : ℕ → Option Text) (stored : AppProfile) : Prop :=
  ∃ arg2 arg3, command argv = .setRoot arg2 arg3 ∧ 10000 ≤ atoi arg2 ∧ flag arg3 = false ∧
    stored.key 0 ≠ '\x00' ∧ stored.allowSu = true ∧ ¬ IsBool (stored.rpTemplateName 0)

def wellFormedWrites (stored : AppProfile) : Prog.Contract ToolCall.Answer where
  allowed _ op := WellFormedWrite op
  honest := Returns stored

theorem restrictsWrites_wellFormedWrites (stored : AppProfile) :
    RestrictsWrites (wellFormedWrites stored) :=
  fun _ _ hop hwrite => absurd hwrite hop

section Commands
variable {argv : ℕ → Option Text} {stored : AppProfile} {fd : BitVec 32} {t : ToolTranscript}

/-- Nothing is asked of the end of a run. -/
abbrev Anyhow : Outcome → ToolTranscript → Prop := fun _ _ => True

theorem storeProfile_wellFormed {profile : AppProfile} (h : profile.WellFormed)
    (failure success : String) (args : List PrintArg) :
    (storeProfile fd profile failure success args).wp (wellFormedWrites stored) Anyhow t := by
  apply storeProfile_wp (restrictsWrites_wellFormedWrites stored)
  · exact fun _ => ⟨fd, profile, rfl, h⟩
  · intros
    trivial

theorem fetching_wellFormed {arg2 : Text} {cmd : Option (BitVec 32)}
    {f : Int32 → AppProfile → ToolProg Outcome}
    (h : ∀ u, 10000 ≤ atoi arg2 → stored.key 0 ≠ '\x00' →
      (f (atoi arg2) stored).wp (wellFormedWrites stored) Anyhow u) :
    (fetching fd cmd arg2 f).wp (wellFormedWrites stored) Anyhow t := by
  apply fetching_wp (restrictsWrites_wellFormedWrites stored)
  · intro answer manager answer' profile _ _ _ _ hge hreturns _ hprofile hkey
    obtain rfl : profile = stored := hreturns rfl profile hprofile
    exact h _ hge hkey
  · intros
    trivial
  · intros
    trivial

theorem printf_wellFormed {format : String} {args : List PrintArg} {f : Unit → ToolProg Outcome}
    (h : ∀ u, (f ()).wp (wellFormedWrites stored) Anyhow u) :
    (printf format args >>= f).wp (wellFormedWrites stored) Anyhow t :=
  wp_printf (restrictsWrites_wellFormedWrites stored) (h _)

theorem getuidinfo_wellFormed (arg2 : Text) :
    (getuidinfo fd arg2).wp (wellFormedWrites stored) Anyhow t := by
  refine fetching_wellFormed fun u _ _ => ?_
  refine printf_wellFormed fun _ => printf_wellFormed fun _ => printf_wellFormed fun _ => ?_
  split
  · exact printf_wellFormed fun _ => printf_wellFormed fun _ => printf_wellFormed fun _ => trivial
  · exact printf_wellFormed fun _ => printf_wellFormed fun _ => printf_wellFormed fun _ => trivial

theorem setumount_wellFormed (h : stored.WellFormed) (arg2 arg3 : Text) :
    (setumount fd arg2 arg3).wp (wellFormedWrites stored) Anyhow t := by
  refine fetching_wellFormed fun u _ _ => ?_
  apply wp_guard (restrictsWrites_wellFormedWrites stored)
  · intro _
    trivial
  · intro hsu
    exact storeProfile_wellFormed (wellFormed_setNrp h.terminated (by simpa using hsu) _ _) _ _ _

/-- The record has been cleared, so the key that is copied into it ends. -/
theorem createProfile_wellFormed (arg2 arg3 : Text) :
    (createProfile fd arg2 arg3).wp (wellFormedWrites stored) Anyhow t := by
  rw [createProfile, Prog.bind_eq, Prog.wp_bind]
  apply asManager_wp (restrictsWrites_wellFormedWrites stored)
  · intro answer manager _ _ _ _ _
    apply storeProfile_wellFormed
    apply wellFormed_setNrp
    · exact ⟨Fin.last 255, strncpyKey_key_last _ arg3⟩
    · rfl
  · intros
    trivial
  · intros
    trivial

theorem setRoot_wellFormed (h : stored.WellFormed) {arg2 arg3 : Text}
    (hcommand : command argv = .setRoot arg2 arg3) (hkept : ¬ WithdrawsFromTemplate argv stored) :
    (setRoot fd arg2 arg3).wp (wellFormedWrites stored) Anyhow t := by
  refine fetching_wellFormed fun u hge hkey => ?_
  apply storeProfile_wellFormed
  cases hflag : flag arg3 with
  | true => exact h.setRoot_true
  | false =>
    refine h.setRoot_false_iff.mpr fun hsu => ?_
    by_contra htemplate
    exact hkept ⟨arg2, arg3, hcommand, hge, hflag, hkey, hsu, htemplate⟩

theorem main_wellFormed (h : stored.WellFormed) (hkept : ¬ WithdrawsFromTemplate argv stored) :
    (main argv).wp (wellFormedWrites stored) Anyhow [] := by
  apply main_wp (restrictsWrites_wellFormedWrites stored)
  · intro fd opening _ _
    rw [runCommand]
    cases hcommand : command argv with
    | getuidinfo arg2 => exact getuidinfo_wellFormed arg2
    | setumount arg2 arg3 => exact setumount_wellFormed h arg2 arg3
    | createProfile arg2 arg3 => exact createProfile_wellFormed arg2 arg3
    | setRoot arg2 arg3 => exact setRoot_wellFormed h hcommand hkept
    | help => exact printf_wellFormed fun _ => printf_wellFormed fun _ => printf_wellFormed fun _ =>
        printf_wellFormed fun _ => trivial
  · intros
    trivial

theorem writesWellFormed_of_kept (h : stored.WellFormed)
    (hkept : ¬ WithdrawsFromTemplate argv stored) : WritesWellFormed argv stored := by
  intro t p hrun hreturns e he
  obtain ⟨u, v, rfl⟩ := List.append_of_mem he
  exact Prog.allowed_of_runs (main_wellFormed h hkept) hrun hreturns

end Commands

/-! ## A run that reaches the write -/

section Withdrawal
variable {argv : ℕ → Option Text} {stored : AppProfile}

/-- The answer of the obliging kernel to each request. -/
abbrev obligingAnswer (stored : AppProfile) : IoctlAnswer := ⟨0, some 10100, some stored⟩

theorem run_asManager (fd : BitVec 32) (cmd : Option (BitVec 32)) {arg2 : Text} (badUid : String)
    (h : 10000 ≤ atoi arg2) :
    (asManager fd cmd arg2 badUid).run (obligingKernel stored) =
      (some (.ok (atoi arg2)), managerCalls fd (obligingAnswer stored) 10100) := by
  have hlow : ¬ atoi arg2 < 10000 := Int32.not_lt.mpr h
  simp [asManager, obligingKernel, managerCalls, managerRequest, hlow]

theorem run_fetchProfile (fd : BitVec 32) (uid : Int32) (h : stored.key 0 ≠ '\x00') :
    (fetchProfile fd .zero uid).run (obligingKernel stored) =
      (some (.ok stored), [⟨profileRequest fd uid, obligingAnswer stored⟩]) := by
  simp [fetchProfile, obligingKernel, profileRequest, h]

theorem run_fetching (fd : BitVec 32) (cmd : Option (BitVec 32)) {arg2 : Text}
    {f : Int32 → AppProfile → ToolProg Outcome} {outcome : Outcome} {u : ToolTranscript}
    (hge : 10000 ≤ atoi arg2) (hkey : stored.key 0 ≠ '\x00')
    (hf : (f (atoi arg2) stored).run (obligingKernel stored) = (some outcome, u)) :
    ∃ t, (fetching fd cmd arg2 f).run (obligingKernel stored) = (some outcome, t ++ u) := by
  refine ⟨fetchCalls fd (atoi arg2) (obligingAnswer stored) 10100 (obligingAnswer stored), ?_⟩
  rw [fetching, Prog.bind_eq, Prog.run_bind _ (run_asManager fd cmd _ hge)]
  dsimp only
  rw [Prog.bind_eq, Prog.run_bind _ (run_fetchProfile fd _ hkey), hf, fetchCalls, List.append_assoc]

theorem run_storeProfile (fd : BitVec 32) (profile : AppProfile) (failure success : String)
    (args : List PrintArg) :
    (storeProfile fd profile failure success args).run (obligingKernel stored) =
      (some (.exit 0), [⟨writeRequest fd profile, obligingAnswer stored⟩,
        ⟨.printf success args, ()⟩]) := by
  simp [storeProfile, obligingKernel, writeRequest]

theorem run_main {outcome : Outcome} {u : ToolTranscript}
    (h : (runCommand 3#32 argv).run (obligingKernel stored) = (some outcome, u)) :
    (main argv).run (obligingKernel stored) =
      (some outcome, openingCalls 3#32 (obligingAnswer stored) ++ u) := by
  simp [main, obligingKernel, openingCalls, h]

theorem returns_obligingKernel (stored : AppProfile) (op : ToolCall) :
    Returns stored op (obligingKernel stored op) := by
  cases op with
  | ioctl fd request arg =>
    intro _ p hp
    exact (Option.some.inj hp).symm
  | _ => trivial

theorem returns_of_mem {p : ToolProg Outcome} {e : Σ op : ToolCall, op.Answer}
    (h : e ∈ (p.run (obligingKernel stored)).2) : Returns stored e.1 e.2 := by
  rw [Prog.answer_of_run _ h]
  exact returns_obligingKernel stored e.1

theorem run_setRoot (fd : BitVec 32) {arg2 : Text} (arg3 : Text) (hge : 10000 ≤ atoi arg2)
    (hkey : stored.key 0 ≠ '\x00') :
    ∃ t, (setRoot fd arg2 arg3).run (obligingKernel stored) = (some (.exit 0), t) ∧
      ⟨writeRequest fd (stored.setRoot (flag arg3)), obligingAnswer stored⟩ ∈ t := by
  have hstore := @run_storeProfile stored fd (stored.setRoot (flag arg3))
    "Error: set root fail!\n" "Success: root set to %d for %s with uid: %d \n"
    [.num (if flag arg3 then 1 else 0), .str (stored.setRoot (flag arg3)).keyText,
      .num (atoi arg2).toInt]
  have hfetching : ∃ t, (setRoot fd arg2 arg3).run (obligingKernel stored) =
      (some (.exit 0), t ++ _) := run_fetching fd none hge hkey hstore
  obtain ⟨t, hrun⟩ := hfetching
  exact ⟨_, hrun, List.mem_append_right t List.mem_cons_self⟩

theorem not_withdraws_of_writesWellFormed (h : stored.WellFormed)
    (hwrites : WritesWellFormed argv stored) : ¬ WithdrawsFromTemplate argv stored := by
  intro ⟨arg2, arg3, hcommand, hge, hflag, hkey, hsu, htemplate⟩
  obtain ⟨t, hrun, hmem⟩ := run_setRoot 3#32 arg3 hge hkey
  have hcommandRun : (runCommand 3#32 argv).run (obligingKernel stored) = (some (.exit 0), t) := by
    rwa [runCommand, hcommand]
  have hmain := run_main hcommandRun
  have hreturns : ∀ e ∈ openingCalls 3#32 (obligingAnswer stored) ++ t, Returns stored e.1 e.2 := by
    intro e he
    apply returns_of_mem (p := main argv)
    rwa [hmain]
  obtain ⟨fd, profile, hrequest, hprofile⟩ := hwrites _ _ (Prog.returns_of_run _ hmain) hreturns _
    (List.mem_append_right _ hmem) rfl
  obtain rfl : stored.setRoot (flag arg3) = profile := by
    injection hrequest with _ _ harg
    injection harg
  rw [hflag] at hprofile
  exact htemplate (h.setRoot_false_iff.mp hprofile hsu)

end Withdrawal

/-- From a well-formed profile the tool writes well-formed profiles only, in every run,
exactly if the command does not withdraw root rights where the template name starts with a
byte that is no `bool`. -/
theorem writesWellFormed_iff {argv : ℕ → Option Text} {stored : AppProfile}
    (h : stored.WellFormed) :
    WritesWellFormed argv stored ↔ ¬ WithdrawsFromTemplate argv stored :=
  ⟨not_withdraws_of_writesWellFormed h, writesWellFormed_of_kept h⟩

/-- An app with root rights, as `--setroot` grants them. -/
def rootProfile : AppProfile :=
  { AppProfile.zero with
    key := fun i => if i = 0 then 'a' else '\x00', allowSu := true, config := rootConfig }

/-- The same app with a template whose name starts with `d`. -/
def templatedProfile : AppProfile :=
  { rootProfile with config := Function.update rootConfig 1 0x64 }

def revokeArgv : ℕ → Option Text
  | 1 => some "--setroot".toList
  | 2 => some "10123".toList
  | 3 => some "0".toList
  | _ => none

/-- The app would be written with a flag of 100. -/
theorem not_writesWellFormed_templatedProfile :
    templatedProfile.WellFormed ∧ ¬ WritesWellFormed revokeArgv templatedProfile := by
  have hwf : templatedProfile.WellFormed := wellFormed_of_isRoot ⟨1, rfl⟩ rfl rfl
  refine ⟨hwf, fun hwrites => not_withdraws_of_writesWellFormed hwf hwrites ?_⟩
  have htemplate : ¬ IsBool (templatedProfile.rpTemplateName 0) := by
    intro h
    cases h with
    | inl h => exact absurd h (by decide)
    | inr h => exact absurd h (by decide)
  exact ⟨_, _, rfl, by decide, rfl, by decide, rfl, htemplate⟩

/-- Without a template root rights can be withdrawn. -/
theorem writesWellFormed_rootProfile :
    rootProfile.WellFormed ∧ WritesWellFormed revokeArgv rootProfile := by
  have hwf : rootProfile.WellFormed := wellFormed_of_isRoot ⟨1, rfl⟩ rfl rfl
  refine ⟨hwf, (writesWellFormed_iff hwf).mpr ?_⟩
  intro ⟨_, _, _, _, _, _, _, htemplate⟩
  exact htemplate (Or.inl rfl)

end VariousStuff.Profile
