import VariousStuff.ProfileStore
import VariousStuff.ProfileToolWrites
import VariousStuff.ProfileUpdates

/-!
# Two runs of the profile tool at once

A successful `--setumount` or `--setroot` is one guarded update of the cell of its uid, and
two of them at once are two such updates of one cell.
-/
namespace VariousStuff.Profile
open Interactive CStrings

/-! ## What a successful run does to the store -/

/-- The accesses to the cell of `uid` after `p` was fetched from it and accepted. -/
def updateCalls (uid : Int32) (u : ProfileUpdate) (p : AppProfile) :
    List (CellCall (Option AppProfile)) :=
  .read (some p) :: if p.currUid = uid then [.write (some (u.write p))] else []

/-- The cell is touched by one guarded update. -/
def Updates (uid : Int32) (u : ProfileUpdate) (t : ToolTranscript) : Prop :=
  10000 ≤ uid ∧ ∃ p, u.Accepts p ∧ t.filterMap (cellCall uid) = updateCalls uid u p

/-- A run that reports success has made its update. -/
def Succeeds (uid : Int32) (u : ProfileUpdate) (outcome : Outcome) (t : ToolTranscript) : Prop :=
  outcome = .exit 0 → Updates uid u t

theorem succeeds_exit {uid : Int32} {u : ProfileUpdate} {t : ToolTranscript} {code : ℕ}
    (h : code ≠ 0) : Succeeds uid u (.exit code) t :=
  fun hcode => absurd (Outcome.exit.inj hcode) h

section Calls
variable (fd : BitVec 32) (uid : Int32)

theorem access_profileRequest (answer : IoctlAnswer) (h : answer.result = 0) :
    access ⟨profileRequest fd uid, answer⟩ = some (.fetched uid answer.profile) := by
  simp [access, profileRequest, h]

theorem access_writeRequest (profile : AppProfile) (answer : IoctlAnswer) (h : answer.result = 0) :
    access ⟨writeRequest fd profile, answer⟩ = some (.stored profile) := by
  simp [access, writeRequest, h, code_setAppProfile_ne]

theorem cellCalls_openingCalls (answer : IoctlAnswer) :
    (openingCalls fd answer).filterMap (cellCall uid) = [] := rfl

theorem cellCalls_fetchCalls (answer : IoctlAnswer) (manager : BitVec 32) {answer' : IoctlAnswer}
    (h : answer'.result = 0) :
    (fetchCalls fd uid answer manager answer').filterMap (cellCall uid) = [.read answer'.profile] := by
  have hread : cellCall uid ⟨profileRequest fd uid, answer'⟩ = some (.read answer'.profile) := by
    rw [cellCall, access_profileRequest fd uid answer' h]
    exact if_pos rfl
  rw [fetchCalls, List.filterMap_append, List.filterMap_cons_some hread]
  rfl

theorem cellCalls_writeRequest (u : ProfileUpdate) (p : AppProfile) {answer : IoctlAnswer}
    (h : answer.result = 0) (format : String) (args : List PrintArg) :
    List.filterMap (cellCall uid)
        [⟨writeRequest fd (u.write p), answer⟩, ⟨.printf format args, ()⟩] =
      if p.currUid = uid then [.write (some (u.write p))] else [] := by
  have hcall : cellCall uid ⟨writeRequest fd (u.write p), answer⟩ =
      if p.currUid = uid then some (.write (some (u.write p))) else none := by
    rw [cellCall, access_writeRequest fd _ answer h, ← u.write_currUid p]
  by_cases hnamed : p.currUid = uid
  · rw [if_pos hnamed] at hcall ⊢
    rw [List.filterMap_cons_some hcall]
    rfl
  · rw [if_neg hnamed] at hcall ⊢
    rw [List.filterMap_cons_none hcall]
    rfl

end Calls

section Success
variable {fd : BitVec 32} {uid : Int32} {u : ProfileUpdate} {t : ToolTranscript}

theorem fetching_succeeds {arg2 : Text} {cmd : Option (BitVec 32)}
    {f : Int32 → AppProfile → ToolProg Outcome} (ht : t.filterMap (cellCall (atoi arg2)) = [])
    (h : ∀ w p, 10000 ≤ atoi arg2 → p.key 0 ≠ '\x00' →
      w.filterMap (cellCall (atoi arg2)) = [.read (some p)] →
      (f (atoi arg2) p).wp unrestricted (Succeeds (atoi arg2) u) w) :
    (fetching fd cmd arg2 f).wp unrestricted (Succeeds (atoi arg2) u) t := by
  apply fetching_wp restrictsWrites_unrestricted
  · intro answer manager answer' stored _ _ _ _ hge _ hresult hstored hkey
    apply h _ stored hge hkey
    rw [List.filterMap_append, ht, cellCalls_fetchCalls fd _ answer manager hresult, hstored]
    rfl
  · intro answer _ _ _ hcode
    cases hcode
  · intro w _
    exact succeeds_exit (by omega)

theorem storeProfile_succeeds {p : AppProfile} {failure success : String} {args : List PrintArg}
    (hge : 10000 ≤ uid) (haccepts : u.Accepts p)
    (ht : t.filterMap (cellCall uid) = [.read (some p)]) :
    (storeProfile fd (u.write p) failure success args).wp unrestricted (Succeeds uid u) t := by
  apply storeProfile_wp restrictsWrites_unrestricted
  · trivial
  · intro answer code format args hcode houtcome
    have hresult : answer.result = 0 := hcode.mp (Outcome.exit.inj houtcome)
    refine ⟨hge, p, haccepts, ?_⟩
    rw [List.filterMap_append, ht, cellCalls_writeRequest fd uid u p hresult]
    rfl

theorem setumount_succeeds {arg2 : Text} (arg3 : Text)
    (ht : t.filterMap (cellCall (atoi arg2)) = []) :
    (setumount fd arg2 arg3).wp unrestricted (Succeeds (atoi arg2) (.umount (flag arg3))) t := by
  refine fetching_succeeds ht fun w p hge hkey hw => ?_
  apply wp_guard restrictsWrites_unrestricted
  · intro _
    exact succeeds_exit (by omega)
  · intro hsu
    exact storeProfile_succeeds hge ⟨hkey, by simpa using hsu⟩ hw

theorem setRoot_succeeds {arg2 : Text} (arg3 : Text)
    (ht : t.filterMap (cellCall (atoi arg2)) = []) :
    (setRoot fd arg2 arg3).wp unrestricted (Succeeds (atoi arg2) (.root (flag arg3))) t := by
  refine fetching_succeeds ht fun w p hge hkey hw => ?_
  exact storeProfile_succeeds (u := .root (flag arg3)) hge hkey hw

theorem main_succeeds {argv : ℕ → Option Text} (h : Asks argv uid u) :
    (main argv).wp unrestricted (Succeeds uid u) [] := by
  apply main_wp restrictsWrites_unrestricted
  · intro fd answer _ _
    rw [runCommand]
    cases h with
    | @setumount arg2 arg3 hcommand =>
      rw [hcommand]
      exact setumount_succeeds arg3 (cellCalls_openingCalls fd _ answer)
    | @setRoot arg2 arg3 hcommand =>
      rw [hcommand]
      exact setRoot_succeeds arg3 (cellCalls_openingCalls fd _ answer)
  · intro w _
    exact succeeds_exit (by omega)

end Success

/-! ## One command after the other -/

section Serial
variable {fd : BitVec 32} {s : ProfileStore}

theorem runState_asManager {arg2 : Text} (cmd : Option (BitVec 32)) (badUid : String)
    (h : 10000 ≤ atoi arg2) :
    (asManager fd cmd arg2 badUid).runState permissiveKernel s = (some (.ok (atoi arg2)), s) := by
  have hlow : ¬ atoi arg2 < 10000 := Int32.not_lt.mpr h
  simp [asManager, permissiveKernel, hlow]

theorem runState_fetchProfile (uid : Int32) :
    (fetchProfile fd .zero uid).runState permissiveKernel s =
      (some (match s uid with
        | some p => if p.key 0 = '\x00' then .error (.exit 1) else .ok p
        | none => .error (.exit 1)), s) := by
  cases hstored : s uid with
  | none => simp [fetchProfile, permissiveKernel, refuse, hstored]
  | some p =>
    by_cases hkey : p.key 0 = '\x00'
    · simp [fetchProfile, permissiveKernel, refuse, hstored, hkey]
    · simp [fetchProfile, permissiveKernel, hstored, hkey]

theorem runState_storeProfile (profile : AppProfile) (failure success : String)
    (args : List PrintArg) :
    (storeProfile fd profile failure success args).runState permissiveKernel s =
      (some (.exit 0), s.set profile) := by
  simp [storeProfile, permissiveKernel, code_setAppProfile_ne]

theorem set_write_eq_apply {uid : Int32} {u : ProfileUpdate} {p : AppProfile}
    (h : s uid = some p) (haccepts : u.Accepts p) :
    s.set (u.write p) uid = (u.onCell uid).apply (some p) := by
  by_cases hnamed : p.currUid = uid
  · have hset := s.set_self (u.write p)
    rw [u.write_currUid, hnamed] at hset
    rw [hset, ProfileUpdate.apply_some_of_accepts hnamed haccepts]
  · have helse : (u.write p).currUid ≠ uid := by rwa [u.write_currUid]
    rw [s.set_of_ne helse, h, u.apply_of_not_named (named_some.not.mpr hnamed)]

/-- A command on its own is the update it asks for. -/
theorem runState_fetching {arg2 : Text} {cmd : Option (BitVec 32)} {u : ProfileUpdate}
    {f : Int32 → AppProfile → ToolProg Outcome} (hge : 10000 ≤ atoi arg2)
    (hf : ∀ p, p.key 0 ≠ '\x00' → ((f (atoi arg2) p).runState permissiveKernel s).2 =
      if u.Accepts p then s.set (u.write p) else s)
    (hkey : ∀ p, u.Accepts p → p.key 0 ≠ '\x00') :
    ((fetching fd cmd arg2 f).runState permissiveKernel s).2 (atoi arg2) =
      (u.onCell (atoi arg2)).apply (s (atoi arg2)) := by
  rw [fetching, Prog.bind_eq, Prog.runState_bind _ (runState_asManager cmd _ hge)]
  dsimp only
  rw [Prog.bind_eq, Prog.runState_bind _ (runState_fetchProfile _)]
  cases hstored : s (atoi arg2) with
  | none =>
    rw [u.apply_of_not_named not_named_none]
    exact hstored
  | some p =>
    by_cases hp : p.key 0 = '\x00'
    · have hrefuses : ¬ u.Accepts p := fun h => hkey p h hp
      simp [hp, hstored, ProfileUpdate.apply_some_of_not_accepts hrefuses]
    · simp only [if_neg hp, hf p hp]
      by_cases haccepts : u.Accepts p
      · rw [if_pos haccepts, set_write_eq_apply hstored haccepts]
      · rw [if_neg haccepts, ProfileUpdate.apply_some_of_not_accepts haccepts, hstored]

theorem runState_main {argv : ℕ → Option Text} {uid : Int32} {u : ProfileUpdate}
    (h : Asks argv uid u) (hge : 10000 ≤ uid) (s : ProfileStore) :
    ((main argv).runState permissiveKernel s).2 uid = (u.onCell uid).apply (s uid) := by
  have hcommand : (main argv).runState permissiveKernel s =
      (runCommand 3 argv).runState permissiveKernel s := by
    simp [main, permissiveKernel]
  rw [hcommand, runCommand]
  cases h with
  | @setumount arg2 arg3 hcommand =>
    rw [hcommand]
    apply runState_fetching hge
    · intro p hkey
      by_cases hsu : p.allowSu = true
      · rw [if_pos hsu]
        simp [ProfileUpdate.Accepts, hsu, refuse, permissiveKernel]
      · have haccepts : (ProfileUpdate.umount (flag arg3)).Accepts p := ⟨hkey, by simpa using hsu⟩
        rw [if_neg hsu, if_pos haccepts]
        exact congrArg Prod.snd (runState_storeProfile _ _ _ _)
    · exact fun p h => h.1
  | @setRoot arg2 arg3 hcommand =>
    rw [hcommand]
    apply runState_fetching (u := .root (flag arg3)) hge
    · intro p hkey
      have haccepts : (ProfileUpdate.root (flag arg3)).Accepts p := hkey
      rw [if_pos haccepts]
      exact congrArg Prod.snd (runState_storeProfile _ _ _ _)
    · exact fun p h => h

end Serial

/-! ## Two runs at once -/

/-- The store after one command and then the other. -/
def inTurn (argv argv' : ℕ → Option Text) (s : ProfileStore) : ProfileStore :=
  ((main argv').runState permissiveKernel ((main argv).runState permissiveKernel s).2).2

theorem inTurn_eq {argv argv' : ℕ → Option Text} {uid : Int32} {a b : ProfileUpdate}
    (ha : Asks argv uid a) (hb : Asks argv' uid b) (hge : 10000 ≤ uid) (s : ProfileStore) :
    inTurn argv argv' s uid = (b.onCell uid).apply ((a.onCell uid).apply (s uid)) := by
  rw [inTurn, runState_main hb hge, runState_main ha hge]

/-- The accesses to the profile of `uid`, marked with the run that makes them. -/
def accesses (uid : Int32) (trace : List (ToolEvent ⊕ ToolEvent)) :
    List (CellCall (Option AppProfile) ⊕ CellCall (Option AppProfile)) :=
  trace.filterMap (keepMark (cellCall uid))

/-- Both runs fetch the profile before one of them stores it, and the one that stores last
overwrites what the other one did. -/
def LostUpdate (uid : Int32) (a b : ProfileUpdate) (trace : List (ToolEvent ⊕ ToolEvent))
    (s : ProfileStore) : Prop :=
  ∃ p, s uid = some p ∧ p.currUid = uid ∧ GuardedUpdate.ReadsFirst (accesses uid trace) ∧
    (GuardedUpdate.LeftLast (accesses uid trace) ∧ a.Overwrites b p ∨
      GuardedUpdate.RightLast (accesses uid trace) ∧ b.Overwrites a p)

section Together
variable {uid : Int32} {a b : ProfileUpdate} {s s' : ProfileStore} {p q : AppProfile}
  {trace : List (ToolEvent ⊕ ToolEvent)}

theorem updateCalls_of_named (u : ProfileUpdate) (h : p.currUid = uid) :
    updateCalls uid u p = (u.onCell uid).calls (some p) := by
  rw [updateCalls, if_pos h]
  rfl

theorem cellSteps_of_trace (uid : Int32) (h : Steps Driver s (trace.map unmark) s') :
    Steps CellStep (s uid) ((accesses uid trace).map unmark) (s' uid) := by
  rw [accesses, map_unmark_filterMap]
  exact cellSteps_of_steps h uid

theorem named_of_mem_accesses {w : Option AppProfile}
    (h : CellCall.write w ∈ (accesses uid trace).map unmark) : Named uid w := by
  rw [accesses, map_unmark_filterMap] at h
  obtain ⟨e, -, he⟩ := List.mem_filterMap.mp h
  exact named_of_write he

/-- Where both runs see a profile of the uid, the cell loses an update as the store does. -/
theorem lost_iff (hp : (a.onCell uid).accepts (some p)) (hq : (b.onCell uid).accepts (some q))
    (hcells : Shuffle ((a.onCell uid).calls (some p)) ((b.onCell uid).calls (some q))
      (accesses uid trace))
    (hsteps : Steps CellStep (s uid) ((accesses uid trace).map unmark) (s' uid)) :
    GuardedUpdate.Lost (a.onCell uid) (b.onCell uid) (accesses uid trace) (s uid) ↔
      LostUpdate uid a b trace s := by
  by_cases hreads : GuardedUpdate.ReadsFirst (accesses uid trace)
  · obtain ⟨⟨r, hr, hnamed, har⟩, ⟨r', hr', -, hbr⟩⟩ :=
      GuardedUpdate.accepts_of_readsFirst hp hq hcells hsteps hreads
    obtain rfl : r = r' := Option.some.inj (hr.symm.trans hr')
    have hstored : s uid = some r := hr
    simp [GuardedUpdate.Lost, LostUpdate, hstored, hnamed, hreads,
      ProfileUpdate.undoes_iff hnamed har hbr, ProfileUpdate.undoes_iff hnamed hbr har]
  · simp [GuardedUpdate.Lost, LostUpdate, hreads]

/-- A profile of another uid stays: both runs write what they fetched to the cell of its uid. -/
theorem store_eq_of_not_named (hnamed : ¬ Named uid (s uid))
    (hcells : Shuffle (updateCalls uid a p) (updateCalls uid b q) (accesses uid trace))
    (hsteps : Steps CellStep (s uid) ((accesses uid trace).map unmark) (s' uid)) :
    s' uid = s uid := by
  refine eq_of_reads (fun hfetched => ?_) (fun hfetched => ?_) hcells hsteps
  · rw [← hfetched, named_some] at hnamed
    exact if_neg hnamed
  · rw [← hfetched, named_some] at hnamed
    exact if_neg hnamed

end Together

/-- Two runs that both report success leave the profile as one of the two orders would,
unless an update is lost. -/
theorem runs_serial_iff {argv argv' : ℕ → Option Text} {uid : Int32} {a b : ProfileUpdate}
    (ha : Asks argv uid a) (hb : Asks argv' uid b) {trace : List (ToolEvent ⊕ ToolEvent)}
    {s s' : ProfileStore}
    (hrun : RunTogether Driver (main argv) (main argv') (.exit 0) (.exit 0) trace s s') :
    (s' uid = inTurn argv argv' s uid ∨ s' uid = inTurn argv' argv s uid) ↔
      ¬ LostUpdate uid a b trace s := by
  obtain ⟨⟨t, u, ht, hu, hshuffle⟩, hsteps⟩ := hrun
  obtain ⟨hge, p, hp, hcalls⟩ : Updates uid a t :=
    Prog.post_of_returns (main_succeeds ha) ht (fun _ _ => trivial) rfl
  obtain ⟨-, q, hq, hcalls'⟩ : Updates uid b u :=
    Prog.post_of_returns (main_succeeds hb) hu (fun _ _ => trivial) rfl
  have hcells : Shuffle (updateCalls uid a p) (updateCalls uid b q) (accesses uid trace) := by
    rw [← hcalls, ← hcalls']
    exact hshuffle.filterMap (cellCall uid)
  have hcellSteps := cellSteps_of_trace uid hsteps
  rw [inTurn_eq ha hb hge, inTurn_eq hb ha hge]
  by_cases hnamed : Named uid (s uid)
  · have hread := read_of_steps hcellSteps hnamed fun _ => named_of_mem_accesses
    have hp' : p.currUid = uid := named_some.mp (hread _ (hcells.mem_left List.mem_cons_self))
    have hq' : q.currUid = uid := named_some.mp (hread _ (hcells.mem_right List.mem_cons_self))
    rw [updateCalls_of_named a hp', updateCalls_of_named b hq'] at hcells
    have haccepts : (a.onCell uid).accepts (some p) := ⟨p, rfl, hp', hp⟩
    have haccepts' : (b.onCell uid).accepts (some q) := ⟨q, rfl, hq', hq⟩
    rw [← lost_iff haccepts haccepts' hcells hcellSteps]
    exact GuardedUpdate.serial_iff haccepts haccepts' hcells hcellSteps
  · have hsame := store_eq_of_not_named hnamed hcells hcellSteps
    rw [hsame, a.apply_of_not_named hnamed, b.apply_of_not_named hnamed, a.apply_of_not_named hnamed]
    refine iff_of_true (.inl rfl) ?_
    rintro ⟨r, hr, hr', -⟩
    exact hnamed ⟨r, hr, hr'⟩

def rootArgv : ℕ → Option Text
  | 1 => some "--setroot".toList
  | 2 => some "10123".toList
  | 3 => some "1".toList
  | _ => none

theorem asks_umountArgv : Asks umountArgv 10123 (.umount true) :=
  @Asks.setumount umountArgv "10123".toList "1".toList rfl

theorem asks_rootArgv : Asks rootArgv 10123 (.root true) :=
  @Asks.setRoot rootArgv "10123".toList "1".toList rfl

/-- A store with one profile. -/
def plainStore : ProfileStore := ProfileStore.set (fun _ => none) plainProfile

/-- The run of `--setumount` fetches the profile, then that of `--setroot` begins and ends. -/
def staleSchedule : List Bool := List.replicate 6 true ++ List.replicate 8 false ++ [true, true]

/-- Both report success, and the app has no root rights at the end. -/
theorem exists_staleRun : ∃ trace s', RunTogether Driver (main umountArgv) (main rootArgv) (.exit 0)
    (.exit 0) trace plainStore s' ∧ (s' 10123).map AppProfile.allowSu = some false := by
  have hresult : (runScheduled permissiveKernel staleSchedule (main umountArgv) (main rootArgv)
      plainStore).map (fun r => (r.1, r.2.1, (r.2.2.2 10123).map AppProfile.allowSu)) =
        some (.exit 0, .exit 0, some false) := by
    decide
  obtain ⟨⟨a, b, trace, s'⟩, hrun, heq⟩ := Option.map_eq_some_iff.mp hresult
  obtain ⟨rfl, rfl, hsu⟩ : a = .exit 0 ∧ b = .exit 0 ∧
      (s' 10123).map AppProfile.allowSu = some false := by simpa using heq
  exact ⟨trace, s', runTogether_of_runScheduled driver_permissiveKernel hrun, hsu⟩

/-- In both orders the app has root rights at the end. -/
theorem ne_inTurn_of_allowSu {s' : ProfileStore}
    (h : (s' 10123).map AppProfile.allowSu = some false) :
    ¬ (s' 10123 = inTurn umountArgv rootArgv plainStore 10123 ∨
      s' 10123 = inTurn rootArgv umountArgv plainStore 10123) := by
  rintro (heq | heq)
  · rw [heq] at h
    exact absurd h (by decide)
  · rw [heq] at h
    exact absurd h (by decide)

/-- The stale run loses an update. -/
theorem runs_serial_iff_staleRun : ∃ trace s', RunTogether Driver (main umountArgv) (main rootArgv)
    (.exit 0) (.exit 0) trace plainStore s' ∧
      LostUpdate 10123 (.umount true) (.root true) trace plainStore := by
  obtain ⟨trace, s', hrun, hsu⟩ := exists_staleRun
  refine ⟨trace, s', hrun, ?_⟩
  by_contra hlost
  exact ne_inTurn_of_allowSu hsu ((runs_serial_iff asks_umountArgv asks_rootArgv hrun).mpr hlost)

/-- A root grant that reported success is undone by a run that had checked before it. -/
theorem grant_undone_by_staleRun :
    ¬ ∀ argv argv' uid a b trace s s', Asks argv uid a → Asks argv' uid b →
      RunTogether Driver (main argv) (main argv') (.exit 0) (.exit 0) trace s s' →
      s' uid = inTurn argv argv' s uid ∨ s' uid = inTurn argv' argv s uid := by
  intro h
  obtain ⟨trace, s', hrun, hsu⟩ := exists_staleRun
  exact ne_inTurn_of_allowSu hsu (h _ _ _ _ _ _ _ _ asks_umountArgv asks_rootArgv hrun)

end VariousStuff.Profile
