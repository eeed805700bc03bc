import VariousStuff.LkmTemplate

/-! # No run of the module's initialisation calls through a null pointer -/
namespace VariousStuff.LkmTemplate
open Interactive CStrings KernelNumerals KernelInterface
open KallsymsBootstrap SymbolSizeOffset SysCallTableHunt

/-- The kprobes successfully registered so far, as the kernel left them. -/
def registered (t : KernelTranscript) : List Kprobe :=
  t.filterMap fun
    | ⟨.viaRegisterKprobe _ p, (ret, addr)⟩ => if ret = 0 then some { p with addr := addr } else none
    | _ => none

/-- The kprobes unregistered so far. -/
def unregistered (t : KernelTranscript) : List Kprobe :=
  t.filterMap fun
    | ⟨.viaUnregisterKprobe _ p, _⟩ => some p
    | _ => none

/-- `u` has registered and unregistered the same kprobes as `t`. -/
def SameProbes (t u : KernelTranscript) : Prop :=
  registered u = registered t ∧ unregistered u = unregistered t

theorem SameProbes.refl (t : KernelTranscript) : SameProbes t t := ⟨rfl, rfl⟩

/-- The calls that leave the kprobes alone. -/
def Quiet : KernelCall → Prop
  | .viaRegisterKprobe _ _ | .viaUnregisterKprobe _ _ => False
  | _ => True

theorem registered_append (t u : KernelTranscript) :
    registered (t ++ u) = registered t ++ registered u := List.filterMap_append

theorem unregistered_append (t u : KernelTranscript) :
    unregistered (t ++ u) = unregistered t ++ unregistered u := List.filterMap_append

@[simp] theorem registered_of_registerKprobe (fn : Addr) (p : Kprobe) (ret : ℤ) (addr : Addr) :
    registered [⟨.viaRegisterKprobe fn p, (ret, addr)⟩] =
      if ret = 0 then [{ p with addr := addr }] else [] := by
  by_cases h : ret = 0 <;> simp [registered, h]

@[simp] theorem unregistered_of_registerKprobe (fn : Addr) (p : Kprobe) (r : ℤ × Addr) :
    unregistered [⟨.viaRegisterKprobe fn p, r⟩] = [] := rfl

@[simp] theorem registered_of_unregisterKprobe (fn : Addr) (p : Kprobe) (x : Unit) :
    registered [⟨.viaUnregisterKprobe fn p, x⟩] = [] := rfl

@[simp] theorem unregistered_of_unregisterKprobe (fn : Addr) (p : Kprobe) (x : Unit) :
    unregistered [⟨.viaUnregisterKprobe fn p, x⟩] = [p] := rfl

theorem probes_of_quiet {op : KernelCall} (hop : Quiet op) (x : op.Answer) :
    registered [⟨op, x⟩] = [] ∧ unregistered [⟨op, x⟩] = [] := by
  cases op <;> first | exact ⟨rfl, rfl⟩ | exact hop.elim

theorem SameProbes.snoc (t u : KernelTranscript) (op : KernelCall) (x : op.Answer) (hop : Quiet op)
    (h : SameProbes t u) : SameProbes t (u ++ [⟨op, x⟩]) := by
  have hone := probes_of_quiet hop x
  exact ⟨by rw [registered_append, hone.1, List.append_nil, h.1],
    by rw [unregistered_append, hone.2, List.append_nil, h.2]⟩

/-- No call goes through a null pointer, provided that the text of address zero never
shows offset `0x0`. -/
def nonNull : Prog.Contract KernelCall.Answer where
  allowed _ op := op.pointer ≠ some 0
  honest
    | .sprintSymbol a, text => a = 0 → ¬ "+0x0".toList <:+: text
    | _, _ => True

abbrev quietNonNull : Prog.Contract KernelCall.Answer := nonNull.restrict Quiet

theorem wp_quiet {α : Type} {p : KernelProg α} {Q : α → KernelTranscript → Prop}
    {t : KernelTranscript} (h : p.wp quietNonNull Q t) :
    p.wp nonNull (fun a u => Q a u ∧ SameProbes t u) t :=
  Prog.wp_of_restrict SameProbes.refl SameProbes.snoc h

/-! One rule for each call that touches no kprobe. -/

section Rules
variable {α : Type} {Q : α → KernelTranscript → Prop} {t : KernelTranscript}

theorem wp_copyFromKernelNofault {src : Addr} {size : ℕ}
    {f : Option (BitVec (8 * size)) → KernelProg α}
    (h : ∀ x, (f x).wp quietNonNull Q (t ++ [⟨.copyFromKernelNofault src size, x⟩])) :
    (copyFromKernelNofault src size >>= f).wp quietNonNull Q t :=
  ⟨⟨nofun, trivial⟩, fun x _ => h x⟩

theorem wp_sprintSymbol {addr : Addr} {f : Text → KernelProg α}
    (h : ∀ text, (addr = 0 → ¬ "+0x0".toList <:+: text) →
      (f text).wp quietNonNull Q (t ++ [⟨.sprintSymbol addr, text⟩])) :
    (sprintSymbol addr >>= f).wp quietNonNull Q t :=
  ⟨⟨nofun, trivial⟩, h⟩

theorem wp_prInfo {format : String} {args : List PrintArg} {f : Unit → KernelProg α}
    (h : (f ()).wp quietNonNull Q (t ++ [⟨.prInfo format args, ()⟩])) :
    (prInfo format args >>= f).wp quietNonNull Q t :=
  ⟨⟨nofun, trivial⟩, fun _ _ => h⟩

theorem wp_aarch64InsnIsAdrp {insn : BitVec 32} {f : Bool → KernelProg α}
    (h : ∀ x, (f x).wp quietNonNull Q (t ++ [⟨.aarch64InsnIsAdrp insn, x⟩])) :
    (Prog.ask (KernelCall.aarch64InsnIsAdrp insn) >>= f).wp quietNonNull Q t :=
  ⟨⟨nofun, trivial⟩, fun x _ => h x⟩

theorem wp_adrpGetOffset {fn : Addr} {insn : BitVec 32} {f : BitVec 32 → KernelProg α}
    (hfn : fn ≠ 0)
    (h : ∀ x, (f x).wp quietNonNull Q (t ++ [⟨.viaAarch64InsnAdrpGetOffset fn insn, x⟩])) :
    (Prog.ask (KernelCall.viaAarch64InsnAdrpGetOffset fn insn) >>= f).wp quietNonNull Q t :=
  ⟨⟨fun hnull => hfn (Option.some.inj hnull), trivial⟩, fun x _ => h x⟩

theorem wp_kallsymsLookupName {g : Globals} {name : Option Text} {f : Addr → KernelProg α}
    (hfn : g.kallsymsLookupNameFn ≠ 0)
    (h : ∀ x, (f x).wp quietNonNull Q
      (t ++ [⟨.viaKallsymsLookupName g.kallsymsLookupNameFn name, x⟩])) :
    (kallsymsLookupName g name >>= f).wp quietNonNull Q t :=
  ⟨⟨fun hnull => hfn (Option.some.inj hnull), trivial⟩, fun x _ => h x⟩

end Rules

theorem compat_wp (addr : Addr) (symbolsize offset : Option (BitVec 64)) (t : KernelTranscript) :
    (compatKallsymsLookupSizeOffset addr symbolsize offset).wp quietNonNull
      (fun _ _ => True) t := by
  unfold compatKallsymsLookupSizeOffset
  split
  · trivial
  · exact wp_sprintSymbol fun _ _ => trivial

theorem getKsymSize_wp (symbolAddr retfail : Addr) (t : KernelTranscript) :
    (getKsymSize symbolAddr retfail).wp quietNonNull (fun _ _ => True) t := by
  unfold getKsymSize
  rw [Prog.bind_eq, Prog.wp_bind]
  refine Prog.wp_mono (compat_wp _ _ _ t) ?_
  rintro ⟨ret, symbolsize, offset⟩ u -
  dsimp only
  split
  · trivial
  · split <;> trivial

/-- A scan that ends with zero has stored something. -/
def StoresOnSuccess : Scan ⊕ (ℤ × Globals) → Prop
  | .inl _ => True
  | .inr (ret, g) => ret = 0 → g.kallsymsLookupNameFn ≠ 0

/-- A candidate at address zero is not accepted, as its text does not show offset `0x0`. -/
theorem foundCandidate_wp (anchor : Addr) (g : Globals) (s : Scan) (buf : Text)
    (t : KernelTranscript) :
    (foundCandidate anchor g s buf).wp quietNonNull (fun r _ => StoresOnSuccess r) t := by
  unfold foundCandidate
  cases strchr buf '/' with
  | none => trivial
  | some sl =>
    dsimp only
    cases strchr (buf.take sl) '+' with
    | none => trivial
    | some pl =>
      refine wp_prInfo ?_
      cases kstrtoul ((buf.take sl).drop (pl + 1)) 0 with
      | error e => trivial
      | ok offset =>
        refine wp_sprintSymbol fun text htext => ?_
        split
        · trivial
        · split
          · trivial
          · rename_i _ hzero
            refine wp_prInfo ?_
            intro _ hnull
            exact htext hnull ((strstr_iff _ _).mp (not_not.mp hzero))

theorem startR_wp (anchor : Addr) (g : Globals) (s : Scan) (t : KernelTranscript) :
    (startR anchor g s).wp quietNonNull (fun r _ => StoresOnSuccess r) t := by
  unfold startR
  split
  · refine wp_prInfo ?_
    intro hret
    exact absurd hret (by decide)
  · refine wp_copyFromKernelNofault fun ibuf => ?_
    split
    · trivial
    · refine wp_sprintSymbol fun buf _ => ?_
      split
      · trivial
      · split
        · exact foundCandidate_wp anchor g s buf _
        · trivial

theorem bootstrap_wp (fuel : ℕ) (g : Globals) (ptr : Addr) (t : KernelTranscript) :
    (bootstrapKallsymsLookupName fuel g ptr).wp quietNonNull
      (fun r _ => r.1 = 0 → r.2.kallsymsLookupNameFn ≠ 0) t := by
  refine Prog.wp_loop (fun _ _ => True) ?_ fuel trivial
  intro s u _
  refine Prog.wp_mono (startR_wp ptr g s u) ?_
  rintro (s' | ⟨ret, g'⟩) v h
  · trivial
  · exact h

theorem scan_wp {g : Globals} (hg : g.aarch64InsnAdrpGetOffsetFn ≠ 0) (insnEnd insnP : Addr)
    (t : KernelTranscript) : (scan g insnEnd insnP).wp quietNonNull (fun _ _ => True) t := by
  unfold scan
  split
  · trivial
  · refine wp_copyFromKernelNofault fun word => ?_
    cases word with
    | none => trivial
    | some rawInsn =>
      refine wp_aarch64InsnIsAdrp fun adrp => ?_
      split
      · trivial
      · exact wp_prInfo (wp_adrpGetOffset hg fun _ => wp_prInfo trivial)

theorem scanPg_wp (insnP curr : Addr) (tries : ℕ) (t : KernelTranscript) :
    (scanPg insnP curr tries).wp quietNonNull (fun _ _ => True) t := by
  unfold scanPg
  split
  · trivial
  · refine wp_copyFromKernelNofault fun slot => ?_
    cases slot with
    | none => trivial
    | some pbuf =>
      refine wp_copyFromKernelNofault fun dummy => ?_
      split
      · trivial
      · refine wp_sprintSymbol fun buf _ => ?_
        split
        · trivial
        · split
          · trivial
          · exact wp_prInfo trivial

theorem hunt_wp (fuel : ℕ) {g : Globals} (hg : g.aarch64InsnAdrpGetOffsetFn ≠ 0)
    (start depth : Addr) (t : KernelTranscript) :
    (huntSctAdrp fuel g start depth).wp quietNonNull (fun _ _ => True) t := by
  refine Prog.wp_loop (fun _ _ => True) ?_ fuel trivial
  intro pc u _
  have hstep : (step g (start + depth) pc).wp quietNonNull (fun _ _ => True) u := by
    cases pc with
    | scan insnP => exact scan_wp hg _ insnP u
    | scanPg insnP curr tries => exact scanPg_wp insnP curr tries u
  refine Prog.wp_mono hstep ?_
  rintro (pc' | ret) v - <;> trivial

/-! ## The functions of the module, from the bottom up -/

/-- Every kprobe registered so far has been unregistered, and there was at most one. -/
def Released (t : KernelTranscript) : Prop :=
  registered t = unregistered t ∧ (registered t).length ≤ 1

theorem Released.of_sameProbes {t u : KernelTranscript} (h : Released t) (hs : SameProbes t u) :
    Released u := by
  rw [Released, hs.1, hs.2]
  exact h

/-- With both pointers present the kprobe is registered and, if that succeeded, removed. -/
theorem kpKallsymsLookupName_wp {g : Globals} (hr : g.registerKprobeFn ≠ 0)
    (hu : g.unregisterKprobeFn ≠ 0) (name : Text) {t : KernelTranscript} (hreg : registered t = [])
    (hunreg : unregistered t = []) :
    (kpKallsymsLookupName g name).wp nonNull (fun r u => r.2 = g ∧ Released u) t := by
  simp only [kpKallsymsLookupName, registerKprobe, unregisterKprobe, hr, hu, if_false,
    Prog.bind_eq, Prog.pure_eq, Prog.ret_bind, Prog.ask_bind, Prog.call_bind, Prog.wp_call]
  refine ⟨fun hnull => hr (Option.some.inj hnull), ?_⟩
  rintro ⟨ret, addr⟩ -
  dsimp only
  split
  · rename_i hret
    refine ⟨rfl, ?_⟩
    simp [Released, registered_append, unregistered_append, hreg, hunreg, hret]
  · rename_i hret
    obtain rfl := not_not.mp hret
    refine ⟨fun hnull => hu (Option.some.inj hnull), fun _ _ => ⟨?_, fun _ _ => ⟨rfl, ?_⟩⟩⟩
    · intro hnull
      cases hnull
    refine Released.of_sameProbes ?_ (SameProbes.snoc _ _ _ _ trivial (SameProbes.refl _))
    simp only [Released, registered_append, unregistered_append, hreg, hunreg,
      registered_of_registerKprobe, registered_of_unregisterKprobe,
      unregistered_of_registerKprobe, unregistered_of_unregisterKprobe, if_true]
    exact ⟨rfl, Nat.le_refl 1⟩

theorem found_wp {g : Globals} (hg : g.kallsymsLookupNameFn ≠ 0) (sym : Option Text)
    (t : KernelTranscript) : (found g sym).wp quietNonNull (fun r _ => r.2 = g) t := by
  refine wp_kallsymsLookupName hg fun verify => wp_prInfo ?_
  rw [Prog.bind_eq, Prog.wp_bind]
  refine Prog.wp_mono (compat_wp _ _ _ _) ?_
  rintro ⟨ret, sz, off⟩ u -
  exact wp_prInfo rfl

theorem scanLabel_wp (fuel : ℕ) (g : Globals) (t : KernelTranscript) :
    (scanLabel fuel g).wp quietNonNull (fun r _ => r.1 = 0 → r.2.kallsymsLookupNameFn ≠ 0) t := by
  refine ⟨⟨nofun, trivial⟩, fun addr _ => wp_prInfo ?_⟩
  rw [Prog.bind_eq, Prog.wp_bind]
  refine Prog.wp_mono (bootstrap_wp fuel g addr _) ?_
  rintro ⟨ret, g'⟩ u hstored
  dsimp only
  split
  · rename_i hret
    exact fun h => absurd h hret
  · rename_i hret
    have hg' := hstored (not_not.mp hret)
    refine Prog.wp_mono (found_wp hg' _ u) ?_
    rintro ⟨ret', g''⟩ v rfl _
    exact hg'

theorem lkmBoostrap_wp (fuel : ℕ) (g : Globals) {t : KernelTranscript} (hreg : registered t = [])
    (hunreg : unregistered t = []) :
    (lkmBoostrap fuel g).wp nonNull
      (fun r u => (r.1 = 0 → r.2.kallsymsLookupNameFn ≠ 0) ∧ Released u) t := by
  refine ⟨nofun, fun rk _ => ⟨nofun, fun uk _ => ?_⟩⟩
  have hquiet := SameProbes.snoc t _ (.symbolGet "unregister_kprobe".toList) uk trivial
    (SameProbes.snoc t t (.symbolGet "register_kprobe".toList) rk trivial (SameProbes.refl t))
  generalize t ++ [_] ++ [_] = u at hquiet
  have hregu : registered u = [] := hquiet.1.trans hreg
  have hunregu : unregistered u = [] := hquiet.2.trans hunreg
  have hscan : ∀ g' v, Released v → (scanLabel fuel g').wp nonNull
      (fun r w => (r.1 = 0 → r.2.kallsymsLookupNameFn ≠ 0) ∧ Released w) v := by
    intro g' v hv
    refine Prog.wp_mono (wp_quiet (scanLabel_wp fuel g' v)) ?_
    rintro r w ⟨hr, hw⟩
    exact ⟨hr, hv.of_sameProbes hw⟩
  simp only [Prog.ret_bind]
  split
  · refine ⟨nofun, fun _ _ => hscan _ _ ?_⟩
    refine Released.of_sameProbes ?_ (SameProbes.snoc u u _ _ trivial (SameProbes.refl u))
    simp [Released, hregu, hunregu]
  · rename_i hpointers
    obtain ⟨hrk, huk⟩ := not_or.mp hpointers
    rw [Prog.bind_eq, Prog.wp_bind]
    refine Prog.wp_mono (kpKallsymsLookupName_wp hrk huk _ hregu hunregu) ?_
    rintro ⟨fn, g'⟩ v ⟨-, hv⟩
    dsimp only
    split
    · rename_i hfn
      refine Prog.wp_mono (wp_quiet (found_wp hfn none v)) ?_
      rintro ⟨ret, g''⟩ w ⟨rfl, hw⟩
      exact ⟨fun _ => hfn, hv.of_sameProbes hw⟩
    · exact hscan _ v hv

theorem resolveSvcHandler_wp (fuel : ℕ) {g : Globals} (hg : g.kallsymsLookupNameFn ≠ 0)
    (ha : g.aarch64InsnAdrpGetOffsetFn ≠ 0) (nativeSym compatSym : Text) (scanDepth : Addr)
    (t : KernelTranscript) :
    (resolveSvcHandler fuel g nativeSym compatSym scanDepth).wp quietNonNull (fun _ _ => True) t := by
  refine wp_kallsymsLookupName hg fun target => ?_
  split
  · trivial
  · rw [Prog.bind_eq, Prog.wp_bind]
    refine Prog.wp_mono (getKsymSize_wp _ _ _) fun newScanDepth u _ => wp_prInfo ?_
    rw [Prog.bind_eq, Prog.wp_bind]
    refine Prog.wp_mono (hunt_wp fuel ha _ _ _) fun ret v _ => ?_
    split <;> trivial

theorem huntSysCallTable_wp (fuel : ℕ) (recent : Bool) {g : Globals}
    (hg : g.kallsymsLookupNameFn ≠ 0) (t : KernelTranscript) :
    (huntSysCallTable fuel recent g).wp quietNonNull (fun _ _ => True) t := by
  refine wp_kallsymsLookupName hg fun fn => ?_
  dsimp only
  split
  · trivial
  · rename_i hfn
    have hresolve := fun (native compat : Text) (depth : Addr) (u : KernelTranscript) =>
      resolveSvcHandler_wp fuel (g := { g with aarch64InsnAdrpGetOffsetFn := fn }) hg hfn native
        compat depth u
    split
    · rw [Prog.bind_eq, Prog.wp_bind]
      refine Prog.wp_mono (hresolve _ _ _ _) fun ret u _ => ?_
      split
      · trivial
      · rw [Prog.bind_eq, Prog.wp_bind]
        refine Prog.wp_mono (hresolve _ _ _ _) fun ret v _ => ?_
        split
        · trivial
        · rw [Prog.bind_eq, Prog.wp_bind]
          exact Prog.wp_mono (hresolve _ _ _ _) fun _ _ _ => trivial
    · rw [Prog.bind_eq, Prog.wp_bind]
      exact Prog.wp_mono (hresolve _ _ _ _) fun _ _ _ => trivial

theorem lkmTemplateInit_wp (fuel : ℕ) (recent : Bool) (g : Globals) :
    (lkmTemplateInit fuel recent g).wp nonNull (fun _ u => Released u) [] := by
  refine ⟨nofun, fun _ _ => ?_⟩
  simp only [Prog.ret_bind]
  rw [Prog.bind_eq, Prog.wp_bind]
  refine Prog.wp_mono (lkmBoostrap_wp fuel g rfl rfl) ?_
  rintro ⟨ret, g'⟩ u ⟨hg', hu⟩
  dsimp only
  split
  · rename_i hret
    rw [Prog.bind_eq, Prog.wp_bind]
    refine Prog.wp_mono (wp_quiet (huntSysCallTable_wp fuel recent (hg' hret) u)) ?_
    rintro g'' v ⟨-, hv⟩
    exact hu.of_sameProbes hv
  · exact hu

/-- Whatever the kernel answers, no call of the initialisation goes through a null
pointer, and when it returns the one kprobe that may have been registered has been
unregistered exactly once. -/
theorem lkmTemplateInit_nonNull (fuel : ℕ) (recent : Bool) {t : KernelTranscript}
    {q : KernelProg (ℤ × Globals)} (hr : (lkmTemplateInit fuel recent Globals.zero).Runs t q)
    (ht : ∀ text, ⟨.sprintSymbol 0, text⟩ ∈ t → ¬ "+0x0".toList <:+: text) :
    (∀ e ∈ t, e.1.pointer ≠ some 0) ∧
      ∀ r, q = .ret r → registered t = unregistered t ∧ (registered t).length ≤ 1 := by
  have hwp := lkmTemplateInit_wp fuel recent Globals.zero
  have honest : ∀ e ∈ t, nonNull.honest e.1 e.2 := by
    rintro ⟨op, x⟩ he
    cases op with
    | sprintSymbol a =>
      rintro rfl
      exact ht x he
    | _ => trivial
  constructor
  · intro e he
    obtain ⟨u, v, rfl⟩ := List.append_of_mem he
    exact Prog.allowed_of_runs hwp hr honest
  · rintro r rfl
    exact Prog.post_of_returns hwp hr honest

/-- A kernel with exported kprobe functions whose symbol table has no entries. -/
def kprobeKernel : Kernel :=
  { readableKernel fun _ => [] with
    exported := fun _ => 0x1000
    registration := fun _ => (0, 0x2000) }

theorem lkmTemplateInit_nonNull_kprobeKernel :
    let t := ((lkmTemplateInit 0 true Globals.zero).run kprobeKernel.answer).2
    (∀ e ∈ t, e.1.pointer ≠ some 0) ∧ registered t = [⟨"kallsyms_lookup_name".toList, 0x2000⟩] ∧
      registered t = unregistered t := by
  intro t
  have hrun : (lkmTemplateInit 0 true Globals.zero).run kprobeKernel.answer =
      (some (-EAGAIN, ⟨0x2000, 0x1000, 0x1000, 0⟩), t) := rfl
  have htext : ∀ text, ⟨.sprintSymbol 0, text⟩ ∈ t → ¬ "+0x0".toList <:+: text := by
    intro text hmem
    have hempty := Prog.answer_of_run kprobeKernel.answer hmem
    change text = [] at hempty
    simp [hempty]
  obtain ⟨hcalls, hprobes⟩ := lkmTemplateInit_nonNull 0 true
    (Prog.returns_of_run kprobeKernel.answer hrun) htext
  exact ⟨hcalls, rfl, (hprobes _ rfl).1⟩

end VariousStuff.LkmTemplate
