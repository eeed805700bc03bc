import VariousStuff.ProfilePolicies
import VariousStuff.ProfileToolConcurrency

/-!
# One command after the other

A session is any sequence of runs of the tool against the driver's store. Its effect on
the records is a sequence of changes of the policies: those that the successful commands
asked for, each of them allowed when it was made.
-/
namespace VariousStuff.Profile
open Interactive CStrings

/-- The records as decisions. -/
def ProfileStore.policies (s : ProfileStore) : Policies := fun uid => (s uid).map AppProfile.policy

/-- Every profile is stored under the uid it names. -/
def ProfileStore.WellNamed (s : ProfileStore) : Prop := ∀ uid p, s uid = some p → p.currUid = uid

/-- Every stored key ends within its array. -/
def ProfileStore.Terminated (s : ProfileStore) : Prop :=
  ∀ uid p, s uid = some p → ∃ i, p.key i = '\x00'

/-- The part of a package name that a record holds. -/
def packageOf (arg3 : Text) : Text := (arg3.take 255).takeWhile (· ≠ '\x00')

/-- The change that the command line asks for, and for which app. -/
def asked (argv : ℕ → Option Text) : Option (Int32 × PolicyChange) :=
  match command argv with
  | .setumount arg2 arg3 => some (atoi arg2, .umount (flag arg3))
  | .createProfile arg2 arg3 => some (atoi arg2, .create (packageOf arg3))
  | .setRoot arg2 arg3 => some (atoi arg2, .root (flag arg3))
  | .getuidinfo _ => none
  | .help => none

/-- The record that `--create` stores. -/
def freshProfile (uid : Int32) (arg3 : Text) : AppProfile :=
  let profile := { AppProfile.zero with version := ksuAppProfileVer, currUid := uid }
  let profile := { profile.strncpyKey arg3 with allowSu := false }
  profile.setNrp true false

/-! ## The accesses of one run -/

def OnlyFetches (l : List Access) : Prop := ∀ a ∈ l, ∃ uid p, a = .fetched uid p

/-- What a run did to the store, by the outcome it reports. -/
inductive Accounts (argv : ℕ → Option Text) : Outcome → List Access → Prop where
  | refused {outcome l} (houtcome : outcome ≠ .exit 0) (hl : OnlyFetches l) : Accounts argv outcome l
  | looked {outcome l} (h : asked argv = none) (hl : OnlyFetches l) : Accounts argv outcome l
  | updated {uid u p} (h : Asks argv uid u) (haccepts : u.Accepts p) :
      Accounts argv (.exit 0) [.fetched uid (some p), .stored (u.write p)]
  | created {arg2 arg3} (h : command argv = .createProfile arg2 arg3) :
      Accounts argv (.exit 0) [.stored (freshProfile (atoi arg2) arg3)]

section Accounts
variable {argv : ℕ → Option Text} {fd : BitVec 32} {t : ToolTranscript}

theorem isWrite_of_stored {e : ToolEvent} {p : AppProfile} (h : access e = some (.stored p)) :
    IsWrite e.1 := by
  unfold access at h
  split at h
  · rename_i request profile answer
    split_ifs at h with hresult hget hset
    · cases h
    · cases request with
      | num n => exact congrArg Operand.num (Option.some.inj hset)
      | _ => cases hset
  · cases h

theorem onlyFetches_of_noWrites (h : NoWrites t) : OnlyFetches (t.filterMap access) := by
  intro a ha
  obtain ⟨e, he, haccess⟩ := List.mem_filterMap.mp ha
  cases a with
  | fetched uid p => exact ⟨uid, p, rfl⟩
  | stored p => exact absurd (isWrite_of_stored haccess) (h e he)

theorem accounts_of_refused {code : ℕ} (hcode : code ≠ 0) (h : NoWrites t) :
    Accounts argv (.exit code) (t.filterMap access) :=
  .refused (fun houtcome => hcode (Outcome.exit.inj houtcome)) (onlyFetches_of_noWrites h)

theorem accounts_of_undefined (h : NoWrites t) : Accounts argv .undefined (t.filterMap access) := by
  refine .refused ?_ (onlyFetches_of_noWrites h)
  intro houtcome
  cases houtcome

theorem access_openingCalls (answer : IoctlAnswer) :
    (openingCalls fd answer).filterMap access = [] := rfl

theorem access_fetchCalls (uid : Int32) (answer : IoctlAnswer) (manager : BitVec 32)
    {answer' : IoctlAnswer} (h : answer'.result = 0) :
    (fetchCalls fd uid answer manager answer').filterMap access = [.fetched uid answer'.profile] := by
  rw [fetchCalls, List.filterMap_append,
    List.filterMap_cons_some (access_profileRequest fd uid answer' h)]
  rfl

theorem access_failed {profile : AppProfile} {answer : IoctlAnswer} (h : answer.result ≠ 0) :
    access ⟨writeRequest fd profile, answer⟩ = none := by
  simp [access, writeRequest, h]

theorem storeProfile_accounts {profile : AppProfile} {failure success : String}
    {args : List PrintArg} (ht : OnlyFetches (t.filterMap access))
    (h : Accounts argv (.exit 0) (t.filterMap access ++ [.stored profile])) :
    (storeProfile fd profile failure success args).wp unrestricted
      (fun o u => Accounts argv o (u.filterMap access)) t := by
  apply storeProfile_wp restrictsWrites_unrestricted
  · trivial
  · intro answer code format args hcode
    rw [List.filterMap_append]
    by_cases hresult : answer.result = 0
    · obtain rfl := hcode.mpr hresult
      rw [List.filterMap_cons_some (access_writeRequest fd profile answer hresult)]
      exact h
    · rw [List.filterMap_cons_none (access_failed hresult)]
      refine .refused (fun houtcome => hresult (hcode.mp (Outcome.exit.inj houtcome))) ?_
      rw [List.filterMap_cons_none (by rfl), List.filterMap_nil, List.append_nil]
      exact ht

theorem fetching_accounts {arg2 : Text} {cmd : Option (BitVec 32)}
    {f : Int32 → AppProfile → ToolProg Outcome} (ht : NoWrites t) (hempty : t.filterMap access = [])
    (h : ∀ u p, p.key 0 ≠ '\x00' → NoWrites u → u.filterMap access = [.fetched (atoi arg2) (some p)] →
      (f (atoi arg2) p).wp unrestricted (fun o v => Accounts argv o (v.filterMap access)) u) :
    (fetching fd cmd arg2 f).wp unrestricted
      (fun o u => Accounts argv o (u.filterMap access)) t := by
  apply fetching_wp restrictsWrites_unrestricted
  · intro answer manager answer' stored _ _ _ _ _ _ hresult hstored hkey
    refine h _ stored hkey (noWrites_append ht (noWrites_fetchCalls _ answer manager answer')) ?_
    rw [List.filterMap_append, hempty, access_fetchCalls _ answer manager hresult, hstored]
    rfl
  · intro answer _ _ _
    apply accounts_of_undefined
    exact noWrites_append ht (noWrites_cons getManagerUid_ne_setAppProfile noWrites_nil)
  · intro u hu
    exact accounts_of_refused Nat.one_ne_zero (noWrites_append ht hu)

theorem printf_accounts {format : String} {args : List PrintArg} {f : Unit → ToolProg Outcome}
    (h : ∀ u, NoWrites u → (f ()).wp unrestricted (fun o v => Accounts argv o (v.filterMap access)) u)
    (ht : NoWrites t) :
    (printf format args >>= f).wp unrestricted
      (fun o v => Accounts argv o (v.filterMap access)) t :=
  wp_printf restrictsWrites_unrestricted (h _ (noWrites_append ht (noWrites_line format args)))

theorem getuidinfo_accounts {arg2 : Text} (hcommand : command argv = .getuidinfo arg2)
    (ht : NoWrites t) (hempty : t.filterMap access = []) :
    (getuidinfo fd arg2).wp unrestricted (fun o u => Accounts argv o (u.filterMap access)) t := by
  have hasked : asked argv = none := by
    rw [asked, hcommand]
  refine fetching_accounts ht hempty fun u p _ hu _ => ?_
  refine printf_accounts (fun v hv => ?_) hu
  refine printf_accounts (fun v hv => ?_) hv
  refine printf_accounts (fun v hv => ?_) hv
  have hend : ∀ v, NoWrites v → Accounts argv (.exit 0) (v.filterMap access) := fun v hv =>
    .looked hasked (onlyFetches_of_noWrites hv)
  split
  · refine printf_accounts (fun v hv => ?_) hv
    refine printf_accounts (fun v hv => ?_) hv
    exact printf_accounts (fun v hv => hend v hv) hv
  · refine printf_accounts (fun v hv => ?_) hv
    refine printf_accounts (fun v hv => ?_) hv
    exact printf_accounts (fun v hv => hend v hv) hv

theorem setumount_accounts {arg2 arg3 : Text} (hcommand : command argv = .setumount arg2 arg3)
    (ht : NoWrites t) (hempty : t.filterMap access = []) :
    (setumount fd arg2 arg3).wp unrestricted (fun o u => Accounts argv o (u.filterMap access)) t := by
  refine fetching_accounts ht hempty fun u p hkey hu haccess => ?_
  apply wp_guard restrictsWrites_unrestricted
  · intro _
    exact accounts_of_refused Nat.one_ne_zero (noWrites_append hu (noWrites_line _ []))
  · intro hsu
    refine storeProfile_accounts (onlyFetches_of_noWrites hu) ?_
    rw [haccess]
    exact .updated (.setumount hcommand) ⟨hkey, by simpa using hsu⟩

theorem createProfile_accounts {arg2 arg3 : Text}
    (hcommand : command argv = .createProfile arg2 arg3) (ht : NoWrites t)
    (hempty : t.filterMap access = []) :
    (createProfile fd arg2 arg3).wp unrestricted
      (fun o u => Accounts argv o (u.filterMap access)) t := by
  rw [createProfile, Prog.bind_eq, Prog.wp_bind]
  apply asManager_wp restrictsWrites_unrestricted
  · intro answer manager _ _ _ _ _
    have hquiet := @noWrites_managerCalls fd answer manager
    refine storeProfile_accounts (onlyFetches_of_noWrites (noWrites_append ht hquiet)) ?_
    rw [List.filterMap_append, hempty]
    exact .created hcommand
  · intro answer _ _ _
    apply accounts_of_undefined
    exact noWrites_append ht (noWrites_cons getManagerUid_ne_setAppProfile noWrites_nil)
  · intro u hu
    exact accounts_of_refused Nat.one_ne_zero (noWrites_append ht hu)

theorem setRoot_accounts {arg2 arg3 : Text} (hcommand : command argv = .setRoot arg2 arg3)
    (ht : NoWrites t) (hempty : t.filterMap access = []) :
    (setRoot fd arg2 arg3).wp unrestricted (fun o u => Accounts argv o (u.filterMap access)) t := by
  refine fetching_accounts ht hempty fun u p hkey hu haccess => ?_
  refine storeProfile_accounts (onlyFetches_of_noWrites hu) ?_
  rw [haccess]
  exact .updated (.setRoot hcommand) hkey

theorem main_accounts (argv : ℕ → Option Text) :
    (main argv).wp unrestricted (fun o u => Accounts argv o (u.filterMap access)) [] := by
  apply main_wp restrictsWrites_unrestricted
  · intro fd answer _ _
    have hquiet := noWrites_openingCalls fd answer
    have hempty := @access_openingCalls fd answer
    rw [runCommand]
    cases hcommand : command argv with
    | getuidinfo arg2 => exact getuidinfo_accounts hcommand hquiet hempty
    | setumount arg2 arg3 => exact setumount_accounts hcommand hquiet hempty
    | createProfile arg2 arg3 => exact createProfile_accounts hcommand hquiet hempty
    | setRoot arg2 arg3 => exact setRoot_accounts hcommand hquiet hempty
    | help =>
      have hasked : asked argv = none := by
        rw [asked, hcommand]
      refine printf_accounts (fun u hu => ?_) hquiet
      refine printf_accounts (fun u hu => ?_) hu
      refine printf_accounts (fun u hu => ?_) hu
      refine printf_accounts (fun u hu => ?_) hu
      exact .looked hasked (onlyFetches_of_noWrites hu)
  · intro u hu
    exact accounts_of_refused Nat.one_ne_zero hu

end Accounts

/-! ## The effect of one run -/

/-- What an access means for the store. -/
def AccessStep (s : ProfileStore) : Access → ProfileStore → Prop
  | .fetched uid profile, s' => s' = s ∧ profile = s uid
  | .stored profile, s' => s' = s.set profile

/-- The change that a run has made: the one it was asked for, if it reports success. -/
def performed (run : (ℕ → Option Text) × Outcome) : Option (Int32 × PolicyChange) :=
  if run.2 = .exit 0 then asked run.1 else none

/-- One change of a record: a change of its policy that leaves all other records alone. -/
structure RecordStep (s : ProfileStore) (e : Int32 × PolicyChange) (s' : ProfileStore) : Prop where
  policies : PolicyStep s.policies e s'.policies
  frame : ∀ uid, uid ≠ e.1 → s' uid = s uid

section Effect
variable {s s' : ProfileStore} {argv : ℕ → Option Text} {outcome : Outcome}

theorem accessSteps_of_steps {t : List ToolEvent} (h : Steps Driver s t s') :
    Steps AccessStep s (t.filterMap access) s' := by
  refine h.filterMap (fun s => s) (fun s e s' a hstep haccess => ?_) fun s e s' hstep haccess => ?_
  · rw [Driver, haccess] at hstep
    cases a with
    | fetched uid profile => exact ⟨hstep.1, hstep.2.1⟩
    | stored profile => exact hstep
  · rwa [Driver, haccess] at hstep

theorem eq_of_onlyFetches {l : List Access} (hl : OnlyFetches l) (h : Steps AccessStep s l s') :
    s' = s := by
  induction h with
  | nil s => rfl
  | @cons s s₁ s' a l hstep _ ih =>
    obtain ⟨uid, p, rfl⟩ := hl a List.mem_cons_self
    rw [ih fun b hb => hl b (List.mem_cons_of_mem _ hb), hstep.1]

theorem ProfileStore.forall_set {R : Int32 → AppProfile → Prop}
    (h : ∀ uid p, s uid = some p → R uid p) {p : AppProfile} (hp : R p.currUid p) :
    ∀ uid q, s.set p uid = some q → R uid q := by
  intro uid q hq
  by_cases huid : p.currUid = uid
  · subst huid
    rw [s.set_self] at hq
    obtain rfl := Option.some.inj hq
    exact hp
  · rw [s.set_of_ne huid] at hq
    exact h uid q hq

theorem ProfileStore.WellNamed.set (h : s.WellNamed) (p : AppProfile) : (s.set p).WellNamed :=
  ProfileStore.forall_set h rfl

theorem ProfileStore.Terminated.set (h : s.Terminated) {p : AppProfile}
    (hp : ∃ i, p.key i = '\x00') : (s.set p).Terminated :=
  ProfileStore.forall_set h hp

theorem ProfileStore.policies_set (s : ProfileStore) (p : AppProfile) :
    (s.set p).policies = Function.update s.policies p.currUid (some p.policy) := by
  funext uid
  by_cases huid : p.currUid = uid
  · subst huid
    rw [policies, s.set_self, Function.update_self, Option.map_some]
  · rw [policies, s.set_of_ne huid, Function.update_of_ne (Ne.symm huid), policies]

/-- The change of policy that an update of a record is. -/
def ProfileUpdate.change : ProfileUpdate → PolicyChange
  | .umount b => .umount b
  | .root grant => .root grant

theorem ProfileUpdate.policy_write (u : ProfileUpdate) (p : AppProfile) :
    u.change.result (some p.policy) = some (u.write p).policy := by
  cases u with
  | umount b => exact congrArg some (p.policy_setNrp false b).symm
  | root grant =>
    cases grant with
    | true => exact congrArg some p.policy_setRoot_true.symm
    | false => exact congrArg some p.policy_setRoot_false.symm

theorem ProfileUpdate.Accepts.allowed {u : ProfileUpdate} {p : AppProfile} (h : u.Accepts p) :
    u.change.Allowed (some p.policy) := by
  cases u with
  | umount b => exact ⟨p.policy, rfl, fun hnil => h.1 (p.package_eq_nil_iff.mp hnil), h.2⟩
  | root grant => exact ⟨p.policy, rfl, fun hnil => h (p.package_eq_nil_iff.mp hnil)⟩

theorem Asks.asked_eq {uid : Int32} {u : ProfileUpdate} (h : Asks argv uid u) :
    asked argv = some (uid, u.change) := by
  cases h with
  | setumount hcommand =>
    rw [asked, hcommand]
    rfl
  | setRoot hcommand =>
    rw [asked, hcommand]
    rfl

theorem policy_freshProfile (uid : Int32) (arg3 : Text) :
    (freshProfile uid arg3).policy = ⟨packageOf arg3, false, true, false, 0, 0⟩ := by
  obtain ⟨named, hnamed⟩ : ∃ named, named = AppProfile.strncpyKey
    { AppProfile.zero with version := ksuAppProfileVer, currUid := uid } arg3 := ⟨_, rfl⟩
  have hfresh : freshProfile uid arg3 = { named with allowSu := false }.setNrp true false := by
    rw [hnamed]
    rfl
  have hkey : named.package = packageOf arg3 := by
    rw [hnamed]
    exact AppProfile.package_strncpyKey _ arg3 rfl
  have hkey' : { named with allowSu := false }.package = named.package := rfl
  have hcleared : { named with allowSu := false }.config = fun _ => 0 := by
    rw [hnamed]
    rfl
  have huid : { named with allowSu := false }.rpUid = 0 := AppProfile.s32At_cleared hcleared _
  have hgid : { named with allowSu := false }.rpGid = 0 := AppProfile.s32At_cleared hcleared _
  rw [hfresh, AppProfile.policy_setNrp]
  simp only [AppProfile.policy, hkey', hkey, huid, hgid]

theorem recordStep_of_accounts {l : List Access} (h : Accounts argv outcome l)
    (hs : s.WellNamed) (hsteps : Steps AccessStep s l s') :
    s'.WellNamed ∧ match performed (argv, outcome) with
      | some e => RecordStep s e s'
      | none => s' = s := by
  cases h with
  | refused houtcome hl =>
    obtain rfl := eq_of_onlyFetches hl hsteps
    rw [performed, if_neg houtcome]
    exact ⟨hs, rfl⟩
  | looked hasked hl =>
    obtain rfl := eq_of_onlyFetches hl hsteps
    have hnone : performed (argv, outcome) = none := by
      rw [performed, hasked, ite_self]
    rw [hnone]
    exact ⟨hs, rfl⟩
  | @updated uid u p hasks haccepts =>
    obtain ⟨s₁, ⟨rfl, hfetched⟩, hrest⟩ := steps_cons.mp hsteps
    obtain ⟨s₂, rfl, hlast⟩ := steps_cons.mp hrest
    obtain rfl := steps_nil.mp hlast
    obtain rfl := hs uid p hfetched.symm
    have hpolicy : s₁.policies p.currUid = some p.policy := by
      rw [ProfileStore.policies, ← hfetched, Option.map_some]
    rw [performed, if_pos rfl, hasks.asked_eq]
    refine ⟨hs.set _, ⟨?_, ?_⟩, fun uid huid => ?_⟩
    · rw [hpolicy]
      exact haccepts.allowed
    · rw [ProfileStore.policies_set, u.write_currUid, hpolicy, u.policy_write]
    · rw [s₁.set_of_ne]
      rw [u.write_currUid]
      exact Ne.symm huid
  | @created arg2 arg3 hcommand =>
    obtain ⟨s₁, rfl, hlast⟩ := steps_cons.mp hsteps
    obtain rfl := steps_nil.mp hlast
    have hasked : asked argv = some (atoi arg2, .create (packageOf arg3)) := by
      rw [asked, hcommand]
    rw [performed, if_pos rfl, hasked]
    refine ⟨hs.set _, ⟨trivial, ?_⟩, fun uid huid => s.set_of_ne (Ne.symm huid)⟩
    rw [ProfileStore.policies_set, policy_freshProfile]
    rfl

end Effect

/-! ## Sessions -/

/-- Runs of the tool one after the other, with the outcomes they report. -/
inductive Session : ProfileStore → List ((ℕ → Option Text) × Outcome) → ProfileStore → Prop where
  | nil (s) : Session s [] s
  | cons {s s₁ s' argv outcome t runs} (run : (main argv).Returns t outcome)
      (steps : Steps Driver s t s₁) (rest : Session s₁ runs s') :
      Session s ((argv, outcome) :: runs) s'

section Session
variable {s s' : ProfileStore} {runs : List ((ℕ → Option Text) × Outcome)}

theorem Accounts.of_returns {argv : ℕ → Option Text} {outcome : Outcome} {t : ToolTranscript}
    (h : (main argv).Returns t outcome) : Accounts argv outcome (t.filterMap access) :=
  Prog.post_of_returns (main_accounts argv) h fun _ _ => trivial

theorem recordSteps_of_session (h : Session s runs s') (hs : s.WellNamed) :
    s'.WellNamed ∧ Steps RecordStep s (runs.filterMap performed) s' := by
  induction h with
  | nil s => exact ⟨hs, .nil _⟩
  | @cons s s₁ s' argv outcome t runs run steps rest ih =>
    obtain ⟨hs₁, heffect⟩ := recordStep_of_accounts (.of_returns run) hs (accessSteps_of_steps steps)
    obtain ⟨hs', hsteps⟩ := ih hs₁
    refine ⟨hs', ?_⟩
    cases hperformed : performed (argv, outcome) with
    | none =>
      rw [hperformed] at heffect
      rw [List.filterMap_cons_none hperformed, ← heffect]
      exact hsteps
    | some e =>
      rw [hperformed] at heffect
      rw [List.filterMap_cons_some hperformed]
      exact .cons heffect hsteps

theorem policySteps_of_recordSteps {l : List (Int32 × PolicyChange)} (h : Steps RecordStep s l s') :
    Steps PolicyStep s.policies l s'.policies := by
  induction h with
  | nil s => exact .nil _
  | cons step rest ih => exact .cons step.policies ih

theorem eq_of_recordSteps {l : List (Int32 × PolicyChange)} {uid : Int32}
    (h : Steps RecordStep s l s') (huid : ∀ e ∈ l, e.1 ≠ uid) : s' uid = s uid := by
  induction h with
  | nil s => rfl
  | cons step rest ih =>
    rw [ih fun e he => huid e (List.mem_cons_of_mem _ he)]
    exact step.frame uid (Ne.symm (huid _ List.mem_cons_self))

end Session

/-- Whatever the kernel answers in each run of a session, as long as its requests read and
write the driver's store: the policies change by the changes
that the successful commands asked for, each of which was allowed when it was made, and by
nothing else; an app that none of them is about keeps its record, byte for byte; and every
profile stays stored under the uid it names. -/
theorem session_refines_policies {s s' : ProfileStore} {runs : List ((ℕ → Option Text) × Outcome)}
    (h : Session s runs s') (hs : s.WellNamed) :
    Steps PolicyStep s.policies (runs.filterMap performed) s'.policies ∧
      (∀ uid, (∀ e ∈ runs.filterMap performed, e.1 ≠ uid) → s' uid = s uid) ∧ s'.WellNamed := by
  obtain ⟨hnamed, hsteps⟩ := recordSteps_of_session h hs
  exact ⟨policySteps_of_recordSteps hsteps, fun uid huid => eq_of_recordSteps hsteps huid, hnamed⟩

theorem wellNamed_plainStore : plainStore.WellNamed := by
  refine ProfileStore.WellNamed.set ?_ plainProfile
  intro uid p hp
  cases hp

/-- A session that sets `umount` and then grants root rights. -/
def grantSession : List ((ℕ → Option Text) × Outcome) :=
  [(umountArgv, .exit 0), (rootArgv, .exit 0)]

/-- The store after it. -/
def grantedStore : ProfileStore :=
  ((main rootArgv).runState permissiveKernel
    ((main umountArgv).runState permissiveKernel plainStore).2).2

theorem session_grantSession : Session plainStore grantSession grantedStore := by
  have humount : (main umountArgv).runState permissiveKernel plainStore =
      (some (.exit 0), ((main umountArgv).runState permissiveKernel plainStore).2) := rfl
  have hroot : (main rootArgv).runState permissiveKernel
      ((main umountArgv).runState permissiveKernel plainStore).2 =
        (some (.exit 0), grantedStore) := rfl
  obtain ⟨t, hreturns, hsteps⟩ := returns_of_runState driver_permissiveKernel humount
  obtain ⟨u, hreturns', hsteps'⟩ := returns_of_runState driver_permissiveKernel hroot
  exact .cons hreturns hsteps (.cons hreturns' hsteps' (.nil _))

theorem performed_grantSession : grantSession.filterMap performed =
    [(10123, .umount true), (10123, .root true)] := by
  rfl

theorem session_refines_policies_umountSession :
    Session plainStore grantSession grantedStore ∧
      Steps PolicyStep plainStore.policies [(10123, .umount true), (10123, .root true)]
        grantedStore.policies := by
  have hrefines := (session_refines_policies session_grantSession wellNamed_plainStore).1
  rw [performed_grantSession] at hrefines
  exact ⟨session_grantSession, hrefines⟩

/-! ## Reading back -/

section Reading
variable {s s' : ProfileStore} {argv : ℕ → Option Text} {fd : BitVec 32} {t : ToolTranscript}
  {arg2 : Text}

end Reading

end VariousStuff.Profile
