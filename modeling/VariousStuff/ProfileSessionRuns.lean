import VariousStuff.ProfileSessions

/-!
# Sessions with a kernel that refuses nothing

There a command takes effect exactly if it is about an app and the change it asks for is
allowed, so that a session does what the sequence of its commands says.
-/
namespace VariousStuff.Profile
open Interactive CStrings

/-- The change is about an app, and it is allowed. -/
def Granted (π : Policies) (e : Int32 × PolicyChange) : Prop :=
  10000 ≤ e.1 ∧ e.2.Allowed (π e.1)

open Classical in
/-- What a command makes of the policies. -/
noncomputable def carryOut (π : Policies) (argv : ℕ → Option Text) : Policies :=
  match asked argv with
  | some e => if Granted π e then Function.update π e.1 (e.2.result (π e.1)) else π
  | none => π

section Outcomes
variable {fd : BitVec 32} {s : ProfileStore} {arg2 : Text}

theorem runState_asManager_refuses (cmd : Option (BitVec 32)) (badUid : String)
    (h : ¬ 10000 ≤ atoi arg2) :
    (asManager fd cmd arg2 badUid).runState permissiveKernel s = (some (.error (.exit 1)), s) := by
  have hlow : atoi arg2 < 10000 := Int32.not_le.mp h
  simp [asManager, permissiveKernel, hlow, refuse]

/-- A command that looks at the record of an app ends at once where there is none with a name. -/
theorem runState_fetching_eq (cmd : Option (BitVec 32))
    (f : Int32 → AppProfile → ToolProg Outcome) :
    (fetching fd cmd arg2 f).runState permissiveKernel s =
      if 10000 ≤ atoi arg2 then
        match s (atoi arg2) with
        | some p => if p.key 0 = '\x00' then (some (.exit 1), s)
          else (f (atoi arg2) p).runState permissiveKernel s
        | none => (some (.exit 1), s)
      else (some (.exit 1), s) := by
  rw [fetching, Prog.bind_eq]
  by_cases hge : 10000 ≤ atoi arg2
  · rw [if_pos hge, Prog.runState_bind _ (runState_asManager cmd _ hge)]
    dsimp only
    rw [Prog.bind_eq, Prog.runState_bind _ (runState_fetchProfile _)]
    cases s (atoi arg2) with
    | none => rfl
    | some p => by_cases hkey : p.key 0 = '\x00' <;> simp [hkey]
  · rw [if_neg hge, Prog.runState_bind _ (runState_asManager_refuses cmd _ hge)]
    rfl

/-- The command comes to an end, and with success exactly in the given case. -/
def Ends (s : ProfileStore) (p : ToolProg Outcome) (succeeds : Prop) : Prop :=
  ∃ outcome s', p.runState permissiveKernel s = (some outcome, s') ∧ (outcome = .exit 0 ↔ succeeds)

theorem ends_of_refused {p : ToolProg Outcome} {succeeds : Prop}
    (h : p.runState permissiveKernel s = (some (.exit 1), s)) (hnot : ¬ succeeds) :
    Ends s p succeeds :=
  ⟨_, _, h, iff_of_false (fun houtcome => Nat.one_ne_zero (Outcome.exit.inj houtcome)) hnot⟩

theorem fetching_ends {cmd : Option (BitVec 32)} {f : Int32 → AppProfile → ToolProg Outcome}
    {u : ProfileUpdate} (hkey : ∀ p, u.Accepts p → p.key 0 ≠ '\x00')
    (hf : ∀ p, p.key 0 ≠ '\x00' → Ends s (f (atoi arg2) p) (u.Accepts p)) :
    Ends s (fetching fd cmd arg2 f) (10000 ≤ atoi arg2 ∧ ∃ p ∈ s (atoi arg2), u.Accepts p) := by
  have hrun := @runState_fetching_eq fd s arg2 cmd f
  by_cases hge : 10000 ≤ atoi arg2
  · rw [if_pos hge] at hrun
    cases hstored : s (atoi arg2) with
    | none =>
      rw [hstored] at hrun
      exact ends_of_refused hrun fun h => by simpa using h.2
    | some p =>
      rw [hstored] at hrun
      dsimp only at hrun
      by_cases hp : p.key 0 = '\x00'
      · rw [if_pos hp] at hrun
        refine ends_of_refused hrun fun h => ?_
        obtain ⟨-, q, hq, haccepts⟩ := h
        obtain rfl := Option.some.inj hq
        exact hkey p haccepts hp
      · rw [if_neg hp] at hrun
        obtain ⟨outcome, s', hends, houtcome⟩ := hf p hp
        refine ⟨outcome, s', hrun.trans hends, houtcome.trans ?_⟩
        simp [hge]
  · rw [if_neg hge] at hrun
    exact ends_of_refused hrun fun h => hge h.1

/-- The records that accept an update are those whose policy may be changed so. -/
theorem allowed_iff_accepts (u : ProfileUpdate) (uid : Int32) :
    u.change.Allowed (s.policies uid) ↔ ∃ p ∈ s uid, u.Accepts p := by
  rw [ProfileStore.policies]
  constructor
  · intro h
    cases hstored : s uid with
    | none =>
      rw [hstored] at h
      cases u <;> obtain ⟨a, ha, -⟩ := h <;> cases ha
    | some p =>
      rw [hstored] at h
      refine ⟨p, rfl, ?_⟩
      cases u with
      | umount b =>
        obtain ⟨a, ha, hname, hroot⟩ := h
        obtain rfl := Option.some.inj ha
        exact ⟨fun hkey => hname (p.package_eq_nil_iff.mpr hkey), hroot⟩
      | root grant =>
        obtain ⟨a, ha, hname⟩ := h
        obtain rfl := Option.some.inj ha
        exact fun hkey => hname (p.package_eq_nil_iff.mpr hkey)
  · intro h
    obtain ⟨p, hp, haccepts⟩ := h
    have hstored : s uid = some p := hp
    rw [hstored]
    exact haccepts.allowed

theorem storeProfile_ends {succeeds : Prop} (h : succeeds) (profile : AppProfile)
    (failure success : String) (args : List PrintArg) :
    Ends s (storeProfile fd profile failure success args) succeeds :=
  ⟨_, _, runState_storeProfile profile failure success args, iff_of_true rfl h⟩

theorem setumount_ends (arg3 : Text) : Ends s (setumount fd arg2 arg3)
    (10000 ≤ atoi arg2 ∧ ∃ p ∈ s (atoi arg2), (ProfileUpdate.umount (flag arg3)).Accepts p) := by
  refine fetching_ends (fun p h => h.1) fun p hkey => ?_
  by_cases hsu : p.allowSu = true
  · refine ends_of_refused ?_ fun h => Bool.false_ne_true (h.2.symm.trans hsu)
    rw [if_pos hsu]
    rfl
  · rw [if_neg hsu]
    exact storeProfile_ends ⟨hkey, by simpa using hsu⟩ _ _ _ _

theorem setRoot_ends (arg3 : Text) : Ends s (setRoot fd arg2 arg3)
    (10000 ≤ atoi arg2 ∧ ∃ p ∈ s (atoi arg2), (ProfileUpdate.root (flag arg3)).Accepts p) := by
  refine fetching_ends (u := .root (flag arg3)) (fun p h => h) fun p hkey => ?_
  exact storeProfile_ends hkey _ _ _ _

theorem createProfile_ends (arg3 : Text) :
    Ends s (createProfile fd arg2 arg3) (10000 ≤ atoi arg2) := by
  by_cases hge : 10000 ≤ atoi arg2
  · obtain ⟨outcome, s', hrun, houtcome⟩ := @storeProfile_ends fd s _ hge
      (freshProfile (atoi arg2) arg3) "Error: Failed to create app profile!\n"
      "Success: created new profile for %s (UID: %d)\n"
      [.str (freshProfile (atoi arg2) arg3).keyText, .num (atoi arg2).toInt]
    refine ⟨outcome, s', ?_, houtcome⟩
    rw [createProfile, Prog.bind_eq, Prog.runState_bind _ (runState_asManager none _ hge)]
    exact hrun
  · refine ends_of_refused ?_ hge
    rw [createProfile, Prog.bind_eq, Prog.runState_bind _ (runState_asManager_refuses none _ hge)]
    rfl

theorem getuidinfo_ends :
    ∃ outcome s', (getuidinfo fd arg2).runState permissiveKernel s = (some outcome, s') := by
  have hrun := @runState_fetching_eq fd s arg2 (some 0) fun _ profile => do
    printf "profile info\n" []
    printf "pkg_name: \t%s\n" [.str profile.keyText]
    printf "uid: \t\t%d\n" [.num profile.currUid.toInt]
    if profile.allowSu then
      printf "su: \t\tyes\n" []
      printf "use_default: \t%s\n" [yesNo (profile.rpUseDefault ≠ 0) "yes" "no"]
      printf "root uid/gid: \t%d/%d\n" [.num profile.rpUid.toInt, .num profile.rpGid.toInt]
    else
      printf "su: \t\tno\n" []
      printf "use_default: \t%s\n" [yesNo (profile.nrpUseDefault ≠ 0) "yes" "no"]
      printf "umount: \t%s\n" [yesNo (profile.nrpUmountModules ≠ 0) "true" "false"]
    return .exit 0
  change ∃ outcome s', (fetching fd (some 0) arg2 _).runState permissiveKernel s = _
  rw [hrun]
  split
  · split
    · split
      · exact ⟨_, _, rfl⟩
      · rename_i p _ _
        cases hsu : p.allowSu with
        | true =>
          simp only [if_true]
          exact ⟨_, _, rfl⟩
        | false =>
          simp only [Bool.false_eq_true, if_false]
          exact ⟨_, _, rfl⟩
    · exact ⟨_, _, rfl⟩
  · exact ⟨_, _, rfl⟩

/-- Every command comes to an end, and one that asks for a change succeeds exactly if the
change is granted. -/
theorem main_ends (argv : ℕ → Option Text) (s : ProfileStore) :
    ∃ outcome s', (main argv).runState permissiveKernel s = (some outcome, s') ∧
      ∀ e ∈ asked argv, (outcome = .exit 0 ↔ Granted s.policies e) := by
  have hcommand : (main argv).runState permissiveKernel s =
      (runCommand 3 argv).runState permissiveKernel s := by
    simp [main, permissiveKernel]
  rw [hcommand, runCommand]
  cases hargv : command argv with
  | getuidinfo arg2 =>
    have hasked : asked argv = none := by
      rw [asked, hargv]
    obtain ⟨outcome, s', hrun⟩ := @getuidinfo_ends 3 s arg2
    refine ⟨outcome, s', hrun, fun e he => ?_⟩
    rw [hasked] at he
    cases he
  | help =>
    have hasked : asked argv = none := by
      rw [asked, hargv]
    refine ⟨.exit 0, s, rfl, fun e he => ?_⟩
    rw [hasked] at he
    cases he
  | setumount arg2 arg3 =>
    have hasked : asked argv = some (atoi arg2, .umount (flag arg3)) := by
      rw [asked, hargv]
    obtain ⟨outcome, s', hrun, houtcome⟩ := @setumount_ends 3 s arg2 arg3
    refine ⟨outcome, s', hrun, fun e he => ?_⟩
    rw [hasked] at he
    obtain rfl := Option.some.inj he
    rw [houtcome, ← allowed_iff_accepts]
    rfl
  | setRoot arg2 arg3 =>
    have hasked : asked argv = some (atoi arg2, .root (flag arg3)) := by
      rw [asked, hargv]
    obtain ⟨outcome, s', hrun, houtcome⟩ := @setRoot_ends 3 s arg2 arg3
    refine ⟨outcome, s', hrun, fun e he => ?_⟩
    rw [hasked] at he
    obtain rfl := Option.some.inj he
    rw [houtcome, ← allowed_iff_accepts]
    rfl
  | createProfile arg2 arg3 =>
    have hasked : asked argv = some (atoi arg2, .create (packageOf arg3)) := by
      rw [asked, hargv]
    obtain ⟨outcome, s', hrun, houtcome⟩ :=
      @createProfile_ends 3 s arg2 arg3
    refine ⟨outcome, s', hrun, fun e he => ?_⟩
    rw [hasked] at he
    obtain rfl := Option.some.inj he
    rw [houtcome]
    exact (and_iff_left trivial).symm

end Outcomes

/-! ## Whole sessions -/

/-- The records after a run. -/
def serve (s : ProfileStore) (argv : ℕ → Option Text) : ProfileStore :=
  ((main argv).runState permissiveKernel s).2

theorem serve_carriesOut (argv : ℕ → Option Text) {s : ProfileStore} (hs : s.WellNamed) :
    (serve s argv).WellNamed ∧ (serve s argv).policies = carryOut s.policies argv := by
  obtain ⟨outcome, s₁, hrun, houtcome⟩ := main_ends argv s
  have hserve : serve s argv = s₁ := congrArg Prod.snd hrun
  obtain ⟨t, hreturns, hsteps⟩ := returns_of_runState driver_permissiveKernel hrun
  obtain ⟨hs₁, heffect⟩ :=
    recordStep_of_accounts (.of_returns hreturns) hs (accessSteps_of_steps hsteps)
  rw [hserve]
  refine ⟨hs₁, ?_⟩
  rw [carryOut]
  cases hasked : asked argv with
  | none =>
    have hperformed : performed (argv, outcome) = none := by
      rw [performed, hasked, ite_self]
    rw [hperformed] at heffect
    rw [heffect]
  | some e =>
    have hgranted := houtcome e hasked
    dsimp only
    by_cases hsuccess : outcome = .exit 0
    · have hperformed : performed (argv, outcome) = some e := by
        rw [performed, if_pos hsuccess, hasked]
      rw [hperformed] at heffect
      rw [if_pos (hgranted.mp hsuccess)]
      exact heffect.policies.2
    · have hperformed : performed (argv, outcome) = none := by
        rw [performed, if_neg hsuccess]
      rw [hperformed] at heffect
      rw [if_neg (hgranted.not.mp hsuccess), heffect]

theorem serve_foldl_carriesOut (argvs : List (ℕ → Option Text)) {s : ProfileStore}
    (hs : s.WellNamed) :
    (argvs.foldl serve s).policies = argvs.foldl carryOut s.policies := by
  induction argvs generalizing s with
  | nil => rfl
  | cons argv argvs ih =>
    obtain ⟨hs₁, hpolicies⟩ := serve_carriesOut argv hs
    rw [List.foldl_cons, List.foldl_cons, ih hs₁, hpolicies]

/-- Where the kernel refuses nothing, any list of commands carries out exactly those of them
that are granted in their turn; and whichever command comes next comes to an end too, with
success exactly if it is granted after all of these. -/
theorem session_carriesOut (argvs : List (ℕ → Option Text)) (s : ProfileStore)
    (hs : s.WellNamed) :
    (argvs.foldl serve s).policies = argvs.foldl carryOut s.policies ∧
      ∀ argv, ∃ outcome,
        ((main argv).runState permissiveKernel (argvs.foldl serve s)).1 = some outcome ∧
        ∀ e ∈ asked argv,
          (outcome = .exit 0 ↔ Granted (argvs.foldl carryOut s.policies) e) := by
  have hpolicies := serve_foldl_carriesOut argvs hs
  refine ⟨hpolicies, fun argv => ?_⟩
  obtain ⟨outcome, s', hrun, houtcome⟩ := main_ends argv (argvs.foldl serve s)
  rw [hpolicies] at houtcome
  exact ⟨outcome, congrArg Prod.fst hrun, houtcome⟩

theorem session_carriesOut_plainStore :
    ([umountArgv, rootArgv].foldl serve plainStore).policies =
      [umountArgv, rootArgv].foldl carryOut plainStore.policies :=
  (session_carriesOut [umountArgv, rootArgv] plainStore wellNamed_plainStore).1

end VariousStuff.Profile
