import VariousStuff.ProfileToolWellFormed

/-! # What `--setumount` says it has done

The flag that is written comes from the first character of the argument, the one that is
printed from the number the argument starts with. -/
namespace VariousStuff.Profile
open Interactive CStrings

/-- The number a string starts with, behind blanks, as `strtol` reads it without a bound. -/
def leadingNumber (s : Text) : ℤ := signedDigits (s.dropWhile isSpace)

theorem int32_ofInt_eq_zero_iff (n : ℤ) : Int32.ofInt n = 0 ↔ n % 4294967296 = 0 := by
  rw [← Int32.toInt_inj, Int32.toInt_ofInt, Int32.toInt_zero]
  simp only [Int32.size, Int.bmod]
  split <;> omega

/-- `atoi` yields 0 for the multiples of 2^32 that fit into a `long`, and for the numbers
below them, which `strtol` raises to -2^63. -/
theorem atoi_eq_zero_iff (s : Text) :
    atoi s = 0 ↔ leadingNumber s ≤ -2 ^ 63 ∨ (2 ^ 32 ∣ leadingNumber s ∧ leadingNumber s < 2 ^ 63) := by
  rw [atoi, int32_ofInt_eq_zero_iff, strtol, ← leadingNumber]
  omega

theorem leadingNumber_nonneg {s : Text} (h : s.head? = some '1') : 0 ≤ leadingNumber s := by
  cases s with
  | nil => cases h
  | cons c s =>
    obtain rfl : c = '1' := Option.some.inj h
    have hblank : ('1' :: s).dropWhile isSpace = '1' :: s := List.dropWhile_cons_of_neg (by decide)
    rw [leadingNumber, hblank, signedDigits]
    · exact Int.natCast_nonneg _
    · intro s' hs
      cases hs
    · intro s' hs
      cases hs

/-- The two readings of an argument agree: it starts with the digit 1, and not with a
multiple of 2^32 below 2^63, or it starts neither with the digit 1 nor with a number that
`atoi` could take for anything but 0. -/
def ReadsAlike (arg3 : Text) : Prop :=
  if arg3.head? = some '1' then ¬ (2 ^ 32 ∣ leadingNumber arg3 ∧ leadingNumber arg3 < 2 ^ 63)
  else leadingNumber arg3 ≤ -2 ^ 63 ∨ (2 ^ 32 ∣ leadingNumber arg3 ∧ leadingNumber arg3 < 2 ^ 63)

theorem readsAlike_iff (arg3 : Text) : ReadsAlike arg3 ↔ (atoi arg3 ≠ 0 ↔ flag arg3 = true) := by
  rw [ReadsAlike, Ne, atoi_eq_zero_iff, flag, decide_eq_true_eq]
  by_cases h : arg3.head? = some '1'
  · have hnonneg := leadingNumber_nonneg h
    rw [if_pos h]
    simp only [h, iff_true]
    omega
  · rw [if_neg h]
    simp only [h, iff_false, not_not]

/-! ## Runs -/

/-- The line behind a successful write. -/
def umountLine (n uid : ℤ) : ToolCall :=
  .printf "Success: umount set to %d app with uid: %d \n" [.num n, .num uid]

/-- Every successful write of a run is the last but one of its calls, and the line behind it
prints a number that equals the written flag exactly if `alike` holds. -/
def ReportsWhen (alike : Prop) (t : ToolTranscript) : Prop :=
  ∀ fd profile answer, ⟨.ioctl fd setAppProfile (.addrOfProfile profile), answer⟩ ∈ t →
    answer.result = 0 → ∃ (u : ToolTranscript) (n uid : ℤ),
      t = u ++ [⟨.ioctl fd setAppProfile (.addrOfProfile profile), answer⟩, ⟨umountLine n uid, ()⟩] ∧
      (n = profile.nrpUmountModules.toNat ↔ alike)

section Runs
variable {argv : ℕ → Option Text} {arg2 arg3 : Text} {fd : BitVec 32} {t : ToolTranscript}

theorem reportsWhen_of_noWrites {alike : Prop} (h : NoWrites t) : ReportsWhen alike t :=
  fun _ _ _ hmem => absurd rfl (h _ hmem)

theorem reportsWhen_of_failed {alike : Prop} (ht : NoWrites t) {profile : AppProfile}
    {answer : IoctlAnswer} (hresult : answer.result ≠ 0) (message : String) :
    ReportsWhen alike (t ++ [⟨writeRequest fd profile, answer⟩, ⟨.printf message [], ()⟩]) := by
  intro fd' profile' answer' hmem hresult'
  obtain ⟨-, -, rfl⟩ := write_eq_of_mem ht (noWrites_line message []) hmem
  exact absurd hresult' hresult

theorem reportsWhen_of_success {alike : Prop} (ht : NoWrites t) {profile : AppProfile}
    {answer : IoctlAnswer} {n uid : ℤ} (h : n = profile.nrpUmountModules.toNat ↔ alike) :
    ReportsWhen alike (t ++ [⟨writeRequest fd profile, answer⟩, ⟨umountLine n uid, ()⟩]) := by
  intro fd' profile' answer' hmem _
  obtain ⟨rfl, harg, rfl⟩ := write_eq_of_mem ht (noWrites_line _ _) hmem
  obtain rfl : profile' = profile := Operand.addrOfProfile.inj harg
  exact ⟨t, n, uid, rfl, h⟩

theorem printed_eq_written_iff (profile : AppProfile) (arg3 : Text) :
    ((if atoi arg3 ≠ 0 then 1 else 0 : ℤ) =
        ((profile.setNrp false (flag arg3)).nrpUmountModules.toNat : ℤ)) ↔ ReadsAlike arg3 := by
  have hwritten : (profile.setNrp false (flag arg3)).nrpUmountModules =
      AppProfile.boolByte (flag arg3) := by
    rw [AppProfile.nrpUmountModules, AppProfile.setNrp_config_apply, if_pos rfl]
  rw [readsAlike_iff, hwritten]
  by_cases h : atoi arg3 = 0 <;> cases flag arg3 <;> simp [h, AppProfile.boolByte]

theorem setumount_reports (ht : NoWrites t) :
    (setumount fd arg2 arg3).wp unrestricted (fun _ u => ReportsWhen (ReadsAlike arg3) u) t := by
  have hC := restrictsWrites_unrestricted
  apply fetching_wp hC
  · intro answer manager answer' stored _ _ _ _ _ _ _ _ _
    have hfetched : NoWrites (t ++ fetchCalls fd (atoi arg2) answer manager answer') :=
      noWrites_append ht (noWrites_fetchCalls _ answer manager answer')
    apply wp_guard hC
    · intro _
      exact reportsWhen_of_noWrites (noWrites_append hfetched (noWrites_line _ []))
    · intro _
      refine ⟨trivial, fun stored' _ => wp_guard hC (fun hresult => ?_) fun hresult => ?_⟩
      · rw [List.append_assoc]
        exact reportsWhen_of_failed hfetched hresult _
      · refine wp_printf hC ?_
        rw [List.append_assoc]
        exact reportsWhen_of_success hfetched (printed_eq_written_iff stored arg3)
  · intro answer _ _ _
    exact reportsWhen_of_noWrites
      (noWrites_append ht (noWrites_cons getManagerUid_ne_setAppProfile noWrites_nil))
  · intro u hu
    exact reportsWhen_of_noWrites (noWrites_append ht hu)

theorem main_reports (hcommand : command argv = .setumount arg2 arg3) :
    (main argv).wp unrestricted (fun _ u => ReportsWhen (ReadsAlike arg3) u) [] := by
  apply main_wp restrictsWrites_unrestricted
  · intro fd opening _ _
    rw [runCommand, hcommand]
    exact setumount_reports (noWrites_openingCalls fd opening)
  · intro u hu
    exact reportsWhen_of_noWrites hu

/-- In every run of `--setumount` in which the write succeeds, the line behind it prints the
flag that was written if and only if the two readings of the argument agree. -/
theorem setumount_prints_written_iff (hcommand : command argv = .setumount arg2 arg3)
    {outcome : Outcome} (hrun : (main argv).Returns t outcome) {fd : Operand} {profile : AppProfile}
    {answer : IoctlAnswer}
    (hwrite : ⟨.ioctl fd setAppProfile (.addrOfProfile profile), answer⟩ ∈ t)
    (hresult : answer.result = 0) :
    ∃ (u : ToolTranscript) (n uid : ℤ),
      t = u ++ [⟨.ioctl fd setAppProfile (.addrOfProfile profile), answer⟩, ⟨umountLine n uid, ()⟩] ∧
      (n = profile.nrpUmountModules.toNat ↔ ReadsAlike arg3) :=
  Prog.post_of_returns (main_reports hcommand) hrun (fun _ _ => trivial) fd profile answer hwrite
    hresult

end Runs

/-! ## Runs that reach the write -/

/-- The write and the line behind it, with the obliging kernel. -/
def umountCalls (stored : AppProfile) (arg2 arg3 : Text) : ToolTranscript :=
  [⟨writeRequest 3#32 (stored.setNrp false (flag arg3)), obligingAnswer stored⟩,
    ⟨umountLine (if atoi arg3 ≠ 0 then 1 else 0) (atoi arg2).toInt, ()⟩]

theorem run_setumount {argv : ℕ → Option Text} {arg2 arg3 : Text} {stored : AppProfile}
    (hcommand : command argv = .setumount arg2 arg3) (hge : 10000 ≤ atoi arg2)
    (hkey : stored.key 0 ≠ '\x00') (hsu : stored.allowSu = false) :
    ∃ t, (main argv).run (obligingKernel stored) =
      (some (.exit 0), t ++ umountCalls stored arg2 arg3) := by
  have hstore := @run_storeProfile stored 3#32 (stored.setNrp false (flag arg3))
    "Error: set umount fail!\n" "Success: umount set to %d app with uid: %d \n"
    [.num (if atoi arg3 ≠ 0 then 1 else 0), .num (atoi arg2).toInt]
  have hfetching : ∃ t, (setumount 3#32 arg2 arg3).run (obligingKernel stored) =
      (some (.exit 0), t ++ umountCalls stored arg2 arg3) := by
    refine run_fetching 3#32 none hge hkey ?_
    rw [if_neg (by rw [hsu]; exact Bool.false_ne_true)]
    exact hstore
  obtain ⟨t, hrun⟩ := hfetching
  have hcommandRun : (runCommand 3#32 argv).run (obligingKernel stored) =
      (some (.exit 0), t ++ umountCalls stored arg2 arg3) := by
    rwa [runCommand, hcommand]
  refine ⟨openingCalls 3#32 (obligingAnswer stored) ++ t, ?_⟩
  rw [run_main hcommandRun, List.append_assoc]

/-- `--setumount 10123 2`. -/
def umountTwoArgv : ℕ → Option Text
  | 1 => some "--setumount".toList
  | 2 => some "10123".toList
  | 3 => some "2".toList
  | _ => none

/-- The argument 2 is written as 0 and printed as 1. -/
theorem setumount_prints_other_flag :
    ∃ u profile answer uid, (main umountTwoArgv).Returns
        (u ++ [⟨writeRequest 3#32 profile, answer⟩, ⟨umountLine 1 uid, ()⟩]) (.exit 0) ∧
      answer.result = 0 ∧ profile.nrpUmountModules.toNat = 0 := by
  have hcommand : command umountTwoArgv = .setumount "10123".toList "2".toList := rfl
  have hkey : plainProfile.key 0 ≠ '\x00' := by decide
  obtain ⟨u, hrun⟩ := run_setumount hcommand (by decide) hkey rfl
  refine ⟨u, _, _, _, Prog.returns_of_run _ hrun, rfl, by decide⟩

/-- The argument 1 is written and printed as 1. -/
theorem setumount_prints_written_iff_one :
    ∃ (t u : ToolTranscript) (profile : AppProfile) (answer : IoctlAnswer) (n uid : ℤ),
      (main umountArgv).Returns t (.exit 0) ∧
      t = u ++ [⟨writeRequest 3#32 profile, answer⟩, ⟨umountLine n uid, ()⟩] ∧
      n = profile.nrpUmountModules.toNat := by
  have hcommand : command umountArgv = .setumount "10123".toList "1".toList := rfl
  have hkey : plainProfile.key 0 ≠ '\x00' := by decide
  obtain ⟨u, hrun⟩ := run_setumount hcommand (by decide) hkey rfl
  have hreturns := Prog.returns_of_run _ hrun
  obtain ⟨u', n, uid, ht, hiff⟩ := setumount_prints_written_iff hcommand hreturns
    (List.mem_append_right u List.mem_cons_self) rfl
  exact ⟨_, u', _, _, n, uid, hreturns, ht, hiff.mpr ((readsAlike_iff _).mpr (by decide))⟩

end VariousStuff.Profile
