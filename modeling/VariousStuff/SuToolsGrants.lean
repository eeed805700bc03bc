import VariousStuff.SuTools
import VariousStuff.SmallStartPrints
import VariousStuff.TotalPreconditions

/-! # Nothing runs without a grant

Whatever the kernel answers, the tools run another program only after the driver has granted
root rights, and hand it their arguments under the name `su` and their whole environment. -/
namespace VariousStuff.SuTools
open Interactive UserMemory
open SmallStart (entry argvOf envpOf HoldsString HoldsVector InitialStack)

/-! ## The vectors that are handed on -/

/-- The bytes of `"su"`. -/
def suText : List Byte := [0x73, 0x75]

/-- The string at `arg` and its NUL are not where the first argument pointer is. -/
def Apart (argv arg : Word) (s : List Byte) : Prop :=
  ∀ i ≤ s.length, 8 ≤ (arg + BitVec.ofNat 64 i - argv).toNat

/-- An initial stack whose strings are not inside of its argument vector, and the literal. -/
structure SuStack (m : Memory) (sp su : Word) (args envs : List (List Byte)) : Prop extends
    InitialStack m sp args envs where
  literal : HoldsString m su suText
  suApart : Apart (argvOf sp) su suText
  argsApart : ∀ i s, args[i]? = some s → Apart (argvOf sp) (entry m (argvOf sp) i) s
  envsApart : ∀ i s, envs[i]? = some s → Apart (argvOf sp) (entry m (envpOf m sp) i) s
  fits : 8 * (args.length + envs.length + 2) < 2 ^ 64

/-- The arguments that are handed on: an empty vector has its null entry overwritten, and runs
on into the environment. -/
def handedOn (args envs : List (List Byte)) : List (List Byte) :=
  match args with
  | [] => suText :: envs
  | _ :: rest => suText :: rest

section Vectors
variable {m : Memory} {sp su argv arg : Word} {args envs : List (List Byte)} {s : List Byte}

theorem Apart.holdsString (h : Apart argv arg s) (hs : HoldsString m arg s) :
    HoldsString (setArgv0 m argv su) arg s where
  nonnull := hs.nonnull
  nulFree := hs.nulFree
  bytes := by
    intro i b hget
    have hi : i ≤ s.length := by
      have hlt := (List.getElem?_eq_some_iff.mp hget).1
      rw [List.length_append, List.length_singleton] at hlt
      omega
    have hapart := h i hi
    rw [← hs.bytes i b hget]
    exact if_neg (by omega)

theorem entry_setArgv0_zero : entry (setArgv0 m argv su) argv 0 = su := by
  have hbytes : ∀ i < 8, (setArgv0 m argv su).bytesAt argv i = byteOf su i := by
    intro i hi
    rw [setArgv0, Memory.bytesAt_store _ _ _ _ (by omega), if_pos hi]
  have hentry : argv + BitVec.ofNat 64 (8 * 0) = argv := BitVec.add_zero argv
  rw [entry, hentry, Memory.load, wordOf_congr hbytes, wordOf_byteOf]

theorem entry_setArgv0_of_pos {i : ℕ} (hpos : 1 ≤ i) (hfits : 8 * i + 8 < 2 ^ 64) :
    entry (setArgv0 m argv su) argv i = entry m argv i := by
  apply wordOf_congr
  intro k hk
  have hoffset : (argv + BitVec.ofNat 64 (8 * i) + BitVec.ofNat 64 k - argv).toNat = 8 * i + k := by
    bv_omega
  rw [setArgv0, Memory.bytesAt, Memory.store, hoffset, if_neg (by omega)]
  rfl

/-- The environment vector, as part of the memory from the argument vector on. -/
theorem SuStack.entry_envp (h : SuStack m sp su args envs) (m' : Memory) (j : ℕ) :
    entry m' (envpOf m sp) j = entry m' (argvOf sp) (args.length + 1 + j) := by
  rw [entry, entry, h.toInitialStack.envpOf_eq, argvOf]
  congr 1
  bv_omega

theorem SuStack.entry_envp_setArgv0 (h : SuStack m sp su args envs) {j : ℕ} (hj : j ≤ envs.length) :
    entry (setArgv0 m (argvOf sp) su) (envpOf m sp) j = entry m (envpOf m sp) j := by
  have hfits := h.fits
  rw [h.entry_envp, h.entry_envp, entry_setArgv0_of_pos (by omega) (by omega)]

theorem SuStack.holdsVector_envp (h : SuStack m sp su args envs) :
    HoldsVector (setArgv0 m (argvOf sp) su) (envpOf m sp) envs := by
  have henvp := h.toInitialStack.holdsVector_envpOf
  constructor
  · intro i s hget
    have hi := (List.getElem?_eq_some_iff.mp hget).1
    rw [h.entry_envp_setArgv0 (Nat.le_of_lt hi)]
    exact (h.envsApart i s hget).holdsString (henvp.entries i s hget)
  · rw [h.entry_envp_setArgv0 (Nat.le_refl _)]
    exact henvp.null

theorem SuStack.holdsString_su (h : SuStack m sp su args envs) :
    HoldsString (setArgv0 m (argvOf sp) su) (entry (setArgv0 m (argvOf sp) su) (argvOf sp) 0)
      suText := by
  rw [entry_setArgv0_zero]
  exact h.suApart.holdsString h.literal

/-- The arguments are handed on under the new name. -/
theorem SuStack.holdsVector_argv (h : SuStack m sp su args envs) :
    HoldsVector (setArgv0 m (argvOf sp) su) (argvOf sp) (handedOn args envs) := by
  have hfits := h.fits
  cases args with
  | nil =>
    have henvp := h.holdsVector_envp
    have hentry : ∀ j, entry (setArgv0 m (argvOf sp) su) (argvOf sp) (j + 1) =
        entry (setArgv0 m (argvOf sp) su) (envpOf m sp) j := by
      intro j
      rw [h.entry_envp, List.length_nil, Nat.zero_add, Nat.add_comm]
    constructor
    · intro i s hget
      cases i with
      | zero =>
        obtain rfl := Option.some.inj hget
        exact h.holdsString_su
      | succ j =>
        rw [hentry]
        exact henvp.entries j s hget
    · rw [handedOn, List.length_cons, hentry]
      exact henvp.null
  | cons name rest =>
    have hargv := h.argv
    have hsame : ∀ j, j < rest.length + 1 →
        entry (setArgv0 m (argvOf sp) su) (argvOf sp) (j + 1) = entry m (argvOf sp) (j + 1) := by
      intro j hj
      rw [List.length_cons] at hfits
      exact entry_setArgv0_of_pos (by omega) (by omega)
    constructor
    · intro i s hget
      cases i with
      | zero =>
        obtain rfl := Option.some.inj hget
        exact h.holdsString_su
      | succ j =>
        have hrest : rest[j]? = some s := hget
        have hj := (List.getElem?_eq_some_iff.mp hrest).1
        rw [hsame j (by omega)]
        exact (h.argsApart (j + 1) s hget).holdsString (hargv.entries (j + 1) s hget)
    · rw [handedOn, List.length_cons, hsame rest.length (by omega)]
      exact hargv.null

end Vectors

/-! ## What the tools owe -/

/-- The driver has stored a descriptor, and granted root rights on it. -/
def Granted (t : SuTranscript) : Prop :=
  ∃ (fd : BitVec 32) (r : Word), fd ≠ 0 ∧ 0 ≤ toInt r ∧
    ⟨.reboot ksuInstallMagic1 ksuInstallMagic2 0, some fd⟩ ∈ t ∧
    ⟨.ioctl (fd.signExtend 64) grantRoot 0, r⟩ ∈ t

/-- Another program could not be run. -/
def Failed (path : String) (t : SuTranscript) : Prop :=
  ∃ (argv envp : Word) (m : Memory) (r : Word), ⟨.execve path argv envp m, some r⟩ ∈ t

/-- Each file that was opened has been closed. -/
def AllClosed (t : SuTranscript) : Prop :=
  ∀ (dir : Word) (path : String) (flags r : Word), ⟨.openat dir path flags, r⟩ ∈ t → 0 ≤ toInt r →
    ∃ x : Word, ⟨.close ((r.setWidth 32).signExtend 64), x⟩ ∈ t

/-- The descriptor is one that was opened. -/
def Opened (t : SuTranscript) (fd : Word) : Prop :=
  ∃ (dir : Word) (path : String) (flags r : Word), ⟨.openat dir path flags, r⟩ ∈ t ∧
    0 ≤ toInt r ∧ fd = (r.setWidth 32).signExtend 64

/-- The arguments and the environment are found in memory. -/
structure HandsOn (args envs : List (List Byte)) (argv envp : Word) (m : Memory) : Prop where
  argv : HoldsVector m argv (handedOn args envs)
  envp : HoldsVector m envp envs

/-- The driver is asked for nothing but root rights, on the descriptor it has stored. -/
def AsksForRoot (t : SuTranscript) (fd request arg : Word) : Prop :=
  request = grantRoot ∧ arg = 0 ∧ ∃ stored : BitVec 32, stored ≠ 0 ∧ fd = stored.signExtend 64 ∧
    ⟨.reboot ksuInstallMagic1 ksuInstallMagic2 0, some stored⟩ ∈ t

/-- Called from `/data`. -/
def FromData (args : List (List Byte)) : Prop := ∃ name ∈ args.head?, dataPrefix <+: name

/-- The tool for the test directory does not even ask the driver when it is called from `/data`.
It runs nothing but `ksud`, with a grant and when the log is closed again; it writes a line to the
log it has opened, and its denial; and it leaves with 1 behind a denial. -/
def smallSuContract (args envs : List (List Byte)) : Prog.Contract SuCall.Answer where
  allowed t call := match call with
    | .reboot magic1 magic2 cmd =>
        ¬ FromData args ∧ magic1 = ksuInstallMagic1 ∧ magic2 = ksuInstallMagic2 ∧ cmd = 0
    | .ioctl fd request arg => AsksForRoot t fd request arg
    | .execve path argv envp m =>
        path = ksud ∧ Granted t ∧ AllClosed t ∧ HandsOn args envs argv envp m
    | .openat _ path flags => Granted t ∧ path = devKmsg ∧ flags = oWronly
    | .write fd text => (fd = 2 ∧ text = "Denied\n") ∨ (text = debugMsg ∧ Opened t fd)
    | .close fd => Opened t fd
    | .exit code => code = 1 ∧ ∃ x : Word, ⟨.write 2 "Denied\n", x⟩ ∈ t
  honest _ _ := True

/-- It ends in `ksud`; or, if it has a name, with its denial and the exit code 1, when `ksud` has
been tried if there was a grant. -/
def SmallSuEnds (args : List (List Byte)) (o : Outcome) (t : SuTranscript) : Prop :=
  AllClosed t ∧ match o with
    | .runs path => path = ksud ∧ ∃ (u : SuTranscript) (argv envp : Word) (m : Memory),
        t = u ++ [⟨.execve ksud argv envp m, none⟩]
    | .exited => args ≠ [] ∧ (Granted t → Failed ksud t) ∧ ∃ (u : SuTranscript) (x : Word),
        t = u ++ [⟨.write 2 "Denied\n", x⟩, ⟨.exit 1, ()⟩]
    | .fault => args = [] ∧ t = []
    | .trapped => False

section TinyFs
variable {m : Memory} {sp su : Word} {args envs : List (List Byte)}

/-- The calls that the driver answers. -/
def OnDriver : SuCall → Prop
  | .reboot _ _ _ => True
  | .ioctl _ _ _ => True
  | _ => False

theorem not_granted_of_noDriver {stored : Option (BitVec 32)} {rest : SuTranscript}
    (h : stored.getD 0 = 0) (hrest : ∀ e ∈ rest, ¬ OnDriver e.1) :
    ¬ Granted (⟨.reboot ksuInstallMagic1 ksuInstallMagic2 0, stored⟩ :: rest) := by
  intro hgranted
  obtain ⟨fd, r, hfd, -, hmem, -⟩ := hgranted
  cases hmem with
  | head => exact hfd h
  | tail _ hmem => exact hrest _ hmem trivial

theorem not_granted_of_refused {fd : BitVec 32} {r : Word} {rest : SuTranscript}
    (h : toInt r < 0) (hrest : ∀ e ∈ rest, ¬ OnDriver e.1) :
    ¬ Granted (⟨.reboot ksuInstallMagic1 ksuInstallMagic2 0, some fd⟩ ::
      ⟨.ioctl (fd.signExtend 64) grantRoot 0, r⟩ :: rest) := by
  intro hgranted
  obtain ⟨fd', r', -, hr', -, hmem⟩ := hgranted
  rcases List.mem_cons.mp hmem with heq | hmem
  · cases heq
  · rcases List.mem_cons.mp hmem with heq | hmem
    · injection heq with _ hanswer
      have hsame : r' = r := hanswer
      rw [hsame] at hr'
      omega
    · exact hrest _ hmem trivial

theorem granted_of_answers {fd : BitVec 32} {r : Word} (rest : SuTranscript) (hfd : fd ≠ 0)
    (hr : ¬ toInt r < 0) :
    Granted (⟨.reboot ksuInstallMagic1 ksuInstallMagic2 0, some fd⟩ ::
      ⟨.ioctl (fd.signExtend 64) grantRoot 0, r⟩ :: rest) :=
  ⟨fd, r, hfd, by omega, List.mem_cons_self, List.mem_cons_of_mem _ List.mem_cons_self⟩

theorem allClosed_of_forall {t : SuTranscript}
    (h : ∀ e ∈ t, ∀ dir path flags, e.1 ≠ .openat dir path flags) : AllClosed t := by
  intro dir path flags r hmem
  exact absurd rfl (h _ hmem dir path flags)

theorem stored_eq_some {stored : Option (BitVec 32)} (h : stored.getD 0 ≠ 0) :
    stored = some (stored.getD 0) := by
  cases stored with
  | none => exact absurd rfl h
  | some fd => rfl

theorem Failed.append {path : String} {t : SuTranscript} (h : Failed path t) (rest : SuTranscript) :
    Failed path (t ++ rest) := by
  obtain ⟨argv, envp, m, r, hmem⟩ := h
  exact ⟨argv, envp, m, r, List.mem_append_left _ hmem⟩

end TinyFs

section Small
variable {m : Memory} {sp su arg : Word} {args envs : List (List Byte)} {s : List Byte}

/-- `memcmp` looks at the string and no further, unless the string begins with the prefix. -/
theorem isData_iff (h : HoldsString m arg s) : isData m arg = true ↔ dataPrefix <+: s := by
  have hprefix : ∀ b ∈ dataPrefix, b ≠ 0 := by decide
  have hlength : dataPrefix.length = 5 := rfl
  rw [isData, decide_eq_true_eq]
  constructor
  · intro hbytes
    have hat : ∀ i (hi : i < dataPrefix.length), m.bytesAt arg i = dataPrefix[i] := by
      intro i hi
      have hrange : i < ((List.range 5).map (m.bytesAt arg)).length := by
        rw [List.length_map, List.length_range]
        exact hi
      have hget := List.getElem_of_eq hbytes hrange
      rwa [List.getElem_map, List.getElem_range] at hget
    have hlong : 5 ≤ s.length := by
      by_contra hshort
      have hnul := h.terminator
      rw [hat s.length (by omega)] at hnul
      exact hprefix _ (List.getElem_mem _) hnul
    rw [List.prefix_iff_eq_take, hlength]
    apply List.ext_getElem
    · rw [List.length_take]
      omega
    · intro i hi hi'
      rw [← hat i hi, List.getElem_take]
      apply h.bytes
      rw [List.getElem?_append_left (by omega), List.getElem?_eq_getElem (by omega)]
  · rintro ⟨rest, rfl⟩
    apply List.ext_getElem
    · simp [hlength]
    · intro i hi hi'
      rw [List.getElem_map, List.getElem_range]
      apply h.bytes
      rw [List.append_assoc, List.getElem?_append_left hi', List.getElem?_eq_getElem hi']

theorem Granted.of_append {t rest : SuTranscript} (h : Granted (t ++ rest))
    (hrest : ∀ e ∈ rest, ¬ OnDriver e.1) : Granted t := by
  obtain ⟨fd, r, hfd, hr, hreboot, hioctl⟩ := h
  refine ⟨fd, r, hfd, hr, ?_, ?_⟩
  · rcases List.mem_append.mp hreboot with hmem | hmem
    · exact hmem
    · exact absurd trivial (hrest _ hmem)
  · rcases List.mem_append.mp hioctl with hmem | hmem
    · exact hmem
    · exact absurd trivial (hrest _ hmem)

theorem AllClosed.append {t rest : SuTranscript} (h : AllClosed t)
    (hrest : ∀ e ∈ rest, ∀ dir path flags, e.1 ≠ .openat dir path flags) :
    AllClosed (t ++ rest) := by
  intro dir path flags r hmem hr
  rcases List.mem_append.mp hmem with hmem | hmem
  · obtain ⟨x, hx⟩ := h dir path flags r hmem hr
    exact ⟨x, List.mem_append_left _ hx⟩
  · exact absurd rfl (hrest _ hmem dir path flags)

/-- `prep_main` behind `c_main`. -/
def leave : Except Outcome Word → SuProg Outcome
  | .error outcome => .ret outcome
  | .ok exitCode => .call (.exit exitCode) fun _ => .ret .exited

theorem denied_wp {t : SuTranscript} (hargs : args ≠ []) (hclosed : AllClosed t)
    (htried : Granted t → Failed ksud t) :
    (denied.bind leave).wpTotal (smallSuContract args envs) (SmallSuEnds args) t := by
  refine ⟨.inl ⟨rfl, rfl⟩, fun x _ => ?_⟩
  refine ⟨⟨rfl, x, List.mem_append_right _ (List.mem_singleton_self _)⟩, fun y _ => ?_⟩
  have hquiet : ∀ e ∈ ([⟨.write 2 "Denied\n", x⟩, ⟨.exit 1, y⟩] : SuTranscript), ¬ OnDriver e.1 := by
    simp [OnDriver]
  have hnone : ∀ e ∈ ([⟨.write 2 "Denied\n", x⟩, ⟨.exit 1, y⟩] : SuTranscript),
      ∀ dir path flags, e.1 ≠ .openat dir path flags := by
    simp
  rw [List.append_assoc]
  refine ⟨hclosed.append hnone, hargs, fun hgranted => ?_, t, x, rfl⟩
  exact (htried (hgranted.of_append hquiet)).append _

theorem Granted.append {t : SuTranscript} (h : Granted t) (rest : SuTranscript) :
    Granted (t ++ rest) := by
  obtain ⟨fd, r, hfd, hr, hreboot, hioctl⟩ := h
  exact ⟨fd, r, hfd, hr, List.mem_append_left _ hreboot, List.mem_append_left _ hioctl⟩

/-- What is opened for the log is closed again. -/
theorem logDebugMsg_wp {t : SuTranscript} (hgranted : Granted t) (hclosed : AllClosed t) :
    logDebugMsg.wpTotal (smallSuContract args envs) (fun _ u => Granted u ∧ AllClosed u) t := by
  refine ⟨⟨hgranted, rfl, rfl⟩, fun r _ => ?_⟩
  have hopened : (⟨.openat (-100) devKmsg oWronly, r⟩ : Σ call : SuCall, call.Answer) ∈
      t ++ [⟨.openat (-100) devKmsg oWronly, r⟩] := List.mem_append_right _ (List.mem_singleton_self _)
  change Prog.wpTotal _ _ (if 0 ≤ toInt r then _ else _) _
  by_cases hr : 0 ≤ toInt r
  · rw [if_pos hr]
    refine ⟨.inr ⟨rfl, -100, devKmsg, oWronly, r, hopened, hr, rfl⟩, fun x _ => ?_⟩
    refine ⟨⟨-100, devKmsg, oWronly, r, List.mem_append_left _ hopened, hr, rfl⟩, fun y _ => ?_⟩
    refine ⟨((hgranted.append _).append _).append _, ?_⟩
    intro dir path flags r' hmem hr'
    rw [List.append_assoc, List.append_assoc] at hmem ⊢
    rcases List.mem_append.mp hmem with hmem | hmem
    · obtain ⟨z, hz⟩ := hclosed dir path flags r' hmem hr'
      exact ⟨z, List.mem_append_left _ hz⟩
    · rcases List.mem_cons.mp hmem with heq | hmem
      · injection heq with _ hanswer
        have hsame : r' = r := hanswer
        rw [hsame]
        refine ⟨y, List.mem_append_right _ ?_⟩
        exact List.mem_cons_of_mem _ (List.mem_cons_of_mem _ List.mem_cons_self)
      · simp at hmem
  · rw [if_neg hr]
    refine ⟨hgranted.append _, ?_⟩
    intro dir path flags r' hmem hr'
    rcases List.mem_append.mp hmem with hmem | hmem
    · obtain ⟨z, hz⟩ := hclosed dir path flags r' hmem hr'
      exact ⟨z, List.mem_append_left _ hz⟩
    · injection List.mem_singleton.mp hmem with _ hanswer
      have hsame : r' = r := hanswer
      rw [hsame] at hr'
      exact absurd hr' hr

theorem smallSuPrepMain_wp (h : SuStack m sp su args envs) :
    (smallSuPrepMain m sp su).wpTotal (smallSuContract args envs) (SmallSuEnds args) [] := by
  have hands : HandsOn args envs (argvOf sp) (envpOf m sp) (setArgv0 m (argvOf sp) su) :=
    ⟨h.holdsVector_argv, h.holdsVector_envp⟩
  have hleave : smallSuPrepMain m sp su =
      (smallSuCMain m (argvOf sp) (envpOf m sp) su).bind leave := rfl
  rw [hleave, smallSuCMain]
  cases args with
  | nil =>
    have hnull : entry m (argvOf sp) 0 = 0 := h.argv.null
    rw [if_pos hnull]
    exact ⟨allClosed_of_forall (by simp), rfl, rfl⟩
  | cons name rest =>
    have hname : HoldsString m (entry m (argvOf sp) 0) name := h.argv.entries 0 name rfl
    have hdata := isData_iff hname
    rw [if_neg hname.nonnull]
    by_cases hfrom : isData m (entry m (argvOf sp) 0) = true
    · rw [if_pos hfrom]
      apply denied_wp (List.cons_ne_nil _ _)
      · exact allClosed_of_forall (by simp)
      · intro hgranted
        obtain ⟨fd, r, -, -, hmem, -⟩ := hgranted
        cases hmem
    · have hmay : ¬ FromData (name :: rest) := by
        intro hfromData
        obtain ⟨name', hname', hprefix⟩ := hfromData
        obtain rfl := Option.some.inj hname'
        exact hfrom (hdata.mpr hprefix)
      rw [if_neg hfrom]
      refine ⟨⟨hmay, rfl, rfl, rfl⟩, fun stored _ => ?_⟩
      change Prog.wpTotal _ _ (Prog.bind (if stored.getD 0 = 0 then _ else _) leave) _
      by_cases hfd : stored.getD 0 = 0
      · rw [if_pos hfd]
        apply denied_wp (List.cons_ne_nil _ _)
        · exact allClosed_of_forall (by simp)
        · intro hgranted
          exact absurd hgranted (not_granted_of_noDriver hfd (by simp))
      · rw [if_neg hfd]
        have hstored := stored_eq_some hfd
        generalize stored.getD 0 = fd at hfd hstored ⊢
        subst hstored
        refine ⟨⟨rfl, rfl, fd, hfd, rfl, List.mem_singleton_self _⟩, fun r _ => ?_⟩
        change Prog.wpTotal _ _ (Prog.bind (if toInt r < 0 then _ else _) leave) _
        by_cases hr : toInt r < 0
        · rw [if_pos hr]
          apply denied_wp (List.cons_ne_nil _ _)
          · exact allClosed_of_forall (by simp)
          · intro hgranted
            exact absurd hgranted (not_granted_of_refused hr (by simp))
        · rw [if_neg hr, Prog.bind_eq, Prog.wpTotal_bind, Prog.wpTotal_bind]
          refine Prog.wpTotal_mono (logDebugMsg_wp (granted_of_answers _ hfd hr)
            (allClosed_of_forall (by simp))) ?_
          intro _ u hu
          obtain ⟨hgranted, hclosed⟩ := hu
          refine ⟨⟨rfl, hgranted, hclosed, hands⟩, fun x _ => ?_⟩
          have hclosed' : AllClosed (u ++
              [⟨.execve ksud (argvOf sp) (envpOf m sp) (setArgv0 m (argvOf sp) su), x⟩]) :=
            hclosed.append (by simp)
          cases x with
          | none => exact ⟨hclosed', rfl, u, _, _, _, rfl⟩
          | some x =>
            rw [← Prog.wpTotal_bind]
            refine denied_wp (List.cons_ne_nil _ _) hclosed' fun _ => ?_
            exact ⟨_, _, _, x, List.mem_append_right _ (List.mem_singleton_self _)⟩

end Small

/-! ## The tools -/

/-- Every call of every run is one that the tool may make when it makes it, and every run that
is over has ended as it should. -/
structure Correct (C : Prog.Contract SuCall.Answer) (Q : Outcome → SuTranscript → Prop)
    (p : SuProg Outcome) : Prop where
  calls : ∀ (u : SuTranscript) (e : Σ call : SuCall, call.Answer) (v : SuTranscript)
    (q : SuProg Outcome), p.Runs (u ++ e :: v) q → C.allowed u e.1
  fuel : ∀ (t : SuTranscript) (q : SuProg Outcome), p.Runs t q → q ≠ .outOfFuel
  ends : ∀ (t : SuTranscript) (o : Outcome), p.Returns t o → Q o t

theorem correct_of_wp {C : Prog.Contract SuCall.Answer} {Q : Outcome → SuTranscript → Prop}
    {p : SuProg Outcome} (hhonest : ∀ op x, C.honest op x) (h : p.wpTotal C Q []) :
    Correct C Q p where
  calls := fun _ _ _ _ hruns =>
    Prog.allowed_of_runs (Prog.wp_of_wpTotal h) hruns fun _ _ => hhonest _ _
  fuel := fun _ _ hruns => Prog.ne_outOfFuel_of_wpTotal h hruns fun _ _ => hhonest _ _
  ends := fun _ _ hreturns =>
    Prog.post_of_returns (Prog.wp_of_wpTotal h) hreturns fun _ _ => hhonest _ _

/-- The tool of the test directory, started on any initial stack with any kernel: under `/data`
it does not even ask the driver; elsewhere it runs `ksud`, and nothing else, only behind a grant,
when the kernel log is closed again; every other run with an argument writes its denial and exits
with 1. -/
theorem smallSu_only_with_grant {m : Memory} {sp su : Word} {args envs : List (List Byte)}
    (h : SuStack m sp su args envs) :
    Correct (smallSuContract args envs) (SmallSuEnds args) (smallSuPrepMain m sp su) :=
  correct_of_wp (fun _ _ => trivial) (smallSuPrepMain_wp h)

/-- The stack of the start-up demo, and the literal behind it. -/
def suMemory : Memory := fun x =>
  if x = 0x4000 then 0x73 else if x = 0x4001 then 0x75 else SmallStart.demoMemory 0x30 x

theorem suMemory_suStack : SuStack suMemory 0x1000 0x4000 [[0x61]] [[0x62]] where
  argc := rfl
  argv := SmallStart.holdsVector_singleton
    (SmallStart.holdsString_singleton (by decide) (by decide) rfl rfl) rfl
  envp := SmallStart.holdsVector_singleton
    (SmallStart.holdsString_singleton (by decide) (by decide) rfl rfl) rfl
  literal := {
    nonnull := by decide
    nulFree := by decide
    bytes := by
      intro i b hget
      match i with
      | 0 => exact Option.some.inj hget
      | 1 => exact Option.some.inj hget
      | 2 => exact Option.some.inj hget
      | _ + 3 => cases hget }
  suApart := by
    unfold Apart
    decide
  argsApart := by
    intro i s hget
    match i with
    | 0 =>
      obtain rfl := Option.some.inj hget
      unfold Apart
      decide
    | _ + 1 => cases hget
  envsApart := by
    intro i s hget
    match i with
    | 0 =>
      obtain rfl := Option.some.inj hget
      unfold Apart
      decide
    | _ + 1 => cases hget
  fits := by decide

/-- A driver that grants root rights, where the shell can be run but not `ksud`. -/
def grantingKernel : ∀ call : SuCall, call.Answer
  | .reboot _ _ _ => some 3
  | .ioctl _ _ _ => (0 : Word)
  | .openat _ _ _ => (4 : Word)
  | .write _ _ => (0 : Word)
  | .close _ => (0 : Word)
  | .execve path _ _ _ => if path = ksud then some (-2 : Word) else none
  | .exit _ => ()

/-- The same driver, where `ksud` can be run. -/
def ksudKernel : ∀ call : SuCall, call.Answer
  | .execve _ _ _ _ => none
  | call => grantingKernel call

theorem smallSu_only_with_grant_suMemory : ∃ (u : SuTranscript) (argv envp : Word) (m : Memory),
    (smallSuPrepMain suMemory 0x1000 0x4000).Returns (u ++ [⟨.execve ksud argv envp m, none⟩])
        (.runs ksud) ∧
      Granted u ∧ AllClosed u ∧ HoldsVector m argv [suText] ∧ HoldsVector m envp [[0x62]] := by
  obtain ⟨t, hrun⟩ : ∃ t, (smallSuPrepMain suMemory 0x1000 0x4000).run ksudKernel =
      (some (.runs ksud), t) := ⟨_, rfl⟩
  have hreturns := Prog.returns_of_run ksudKernel hrun
  have hcorrect := smallSu_only_with_grant suMemory_suStack
  obtain ⟨-, -, u, argv, envp, m, rfl⟩ := hcorrect.ends t _ hreturns
  obtain ⟨-, hgranted, hclosed, hands⟩ := hcorrect.calls u _ [] _ hreturns
  exact ⟨u, argv, envp, m, hreturns, hgranted, hclosed, hands.argv, hands.envp⟩

end VariousStuff.SuTools
