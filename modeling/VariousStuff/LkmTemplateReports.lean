import VariousStuff.KallsymsBootstrapScan
import VariousStuff.LkmTemplateVerification
import VariousStuff.SymbolSizeOffsetParsing
import VariousStuff.SysCallTableFirstHit

/-! # What one load of the module reports

The handlers are searched one after the other. The module reports the first hit of the
first handler that has one, provided that it got hold of `kallsyms_lookup_name`. -/
namespace VariousStuff.LkmTemplate
open Interactive CStrings KernelNumerals KernelInterface SymbolTexts
open KallsymsBootstrap SymbolSizeOffset SysCallTableHunt LexicographicSearch

/-- The handlers in the order they are tried, with the depth searched where the symbol
of the handler is not known. -/
def handlerTable (recent : Bool) : List (Text × Addr) :=
  if recent then
    [("do_el0_svc".toList, 64 * 4), ("el0_svc_handler".toList, 64 * 4), ("el0_svc".toList, 256 * 4)]
  else [("el0_svc".toList, 16 * 4)]

section Windows
variable (K : Kernel) (m : SymbolMap)

/-- How deep the code at `target` is searched. -/
def windowDepth (target retfail : Addr) : Addr :=
  match m.symbolAt target with
  | some s => BitVec.ofNat 64 s.size
  | none => retfail

/-- Where the search of a handler starts and how deep it goes, if the kernel has it. -/
def window (h : Text × Addr) : Option (Addr × Addr) :=
  if K.kallsyms (some h.1) = 0 then none
  else some (K.kallsyms (some h.1), windowDepth m (K.kallsyms (some h.1)) h.2)

/-- The first match in a window. -/
def windowHit (w : Addr × Addr) : Option (Addr × Addr) :=
  (plan K w.1 ((w.2.toNat + 3) / 4)).findSome? (siteHit K)

/-- The first match in the code of a handler. -/
def handlerHit (h : Text × Addr) : Option (Addr × Addr) := (window K m h).bind (windowHit K)

/-- No window of the handlers in use wraps around, and the fuel lasts for each. -/
def WindowsFit (recent : Bool) (fuel : ℕ) : Prop :=
  ∀ h ∈ handlerTable recent, ∀ start depth, window K m h = some (start, depth) →
    start.toNat + depth.toNat < 2 ^ 64 - 4 ∧ wordRounds * ((depth.toNat + 3) / 4) + 1 ≤ fuel

/-- The handler is missing or nothing in its window matches. -/
def Barren (h : Text × Addr) : Prop :=
  ∀ start depth, window K m h = some (start, depth) →
    ∀ i k slot p, ¬ Hit K start depth.toNat i k slot p

/-- The reports are the first hit of the first handler that has one. -/
def ReportsFirst (recent : Bool) (t : KernelTranscript) : Prop :=
  (∃ before h after start depth i k slot p, handlerTable recent = before ++ h :: after ∧
    (∀ h' ∈ before, Barren K m h') ∧ window K m h = some (start, depth) ∧
    FirstHit K start depth.toNat i k slot p ∧ reports t = [reportArgs K slot p]) ∨
  ((∀ h ∈ handlerTable recent, Barren K m h) ∧ reports t = [])

end Windows

/-- The execution against `K` ends with `a` and reports `r`. -/
def Shows (K : Kernel) {α : Type} (p : KernelProg α) (a : α) (r : List (List PrintArg)) : Prop :=
  ∃ t, K.Yields p a t ∧ reports t = r

section Shows
variable {K : Kernel} {α β : Type}

theorem Shows.ret (a : α) : Shows K (Prog.ret a) a [] := ⟨[], rfl, rfl⟩

theorem Shows.ask {op : KernelCall} (h : ∀ x, reports [⟨op, x⟩] = []) :
    Shows K (Prog.ask op) (K.answer op) [] :=
  ⟨_, .ask op, h _⟩

theorem Shows.bind {p : KernelProg α} {f : α → KernelProg β} {a : α} {b : β}
    {r r' : List (List PrintArg)} (h : Shows K p a r) (hf : Shows K (f a) b r') :
    Shows K (p.bind f) b (r ++ r') := by
  obtain ⟨t, ht, hr⟩ := h
  obtain ⟨u, hu, hr'⟩ := hf
  exact ⟨t ++ u, ht.bind hu, by rw [reports_append, hr, hr']⟩

theorem Shows.quietly {p : KernelProg α} {f : α → KernelProg β} {a : α} {b : β}
    {r : List (List PrintArg)} (h : Shows K p a []) (hf : Shows K (f a) b r) :
    Shows K (p.bind f) b r :=
  h.bind hf

theorem Shows.lookup (g : Globals) (name : Option Text) :
    Shows K (LkmTemplate.kallsymsLookupName g name) (K.kallsyms name) [] :=
  .ask fun _ => rfl

theorem Shows.symbolGet (name : Text) :
    Shows K (Prog.ask (KernelCall.symbolGet name)) (K.exported name) [] :=
  .ask fun _ => rfl

end Shows

/-! ## The search of one handler -/

section Search
variable {K : Kernel} {m : SymbolMap} {g : Globals} {fuel : ℕ}

/-- The report of a match, or none. -/
def reportOf (K : Kernel) (hit : Option (Addr × Addr)) : List (List PrintArg) :=
  (hit.map fun h => reportArgs K h.1 h.2).toList

theorem hunt_shows (g : Globals) {start depth : Addr}
    (hend : start.toNat + depth.toNat < 2 ^ 64 - 4)
    (hfuel : wordRounds * ((depth.toNat + 3) / 4) + 1 ≤ fuel) :
    Shows K (huntSctAdrp fuel g start depth) (returnCode (windowHit K (start, depth)))
      (reportOf K (windowHit K (start, depth))) := by
  have hinsnEnd : (start + depth).toNat = start.toNat + depth.toNat := by bv_omega
  have hhunts : Hunts K g (start + depth) (wordRounds * ((depth.toNat + 3) / 4) + 1) (.scan start)
      (plan K start ((depth.toNat + 3) / 4)) :=
    hunts_words g ((depth.toNat + 3) / 4) (by omega) (by omega) (by omega)
  obtain ⟨t, hrun, -, hreports⟩ := hhunts fuel hfuel
  exact ⟨t, hrun, hreports⟩

/-- Read back from the text of an address: the size of the symbol that covers it. -/
theorem getKsymSize_shows (hK : K.symbolText = m.text)
    (hsize : ∀ a s, m.symbolAt a = some s → s.size < 2 ^ 64) {target : Addr} (htarget : target ≠ 0)
    (retfail : Addr) : Shows K (getKsymSize target retfail) (windowDepth m target retfail) [] := by
  have hguard : ¬ (target = 0 ∨ (some (0 : BitVec 64)).isNone ∨ (some (0 : BitVec 64)).isNone) := by
    simpa using htarget
  have hcompat := compatKallsymsLookupSizeOffset_asks K target (some 0) (some 0) hguard
  rw [hK] at hcompat
  refine ⟨_, hcompat.bind (u := []) ?_, rfl⟩
  rw [windowDepth, SymbolMap.text]
  cases hsymbol : m.symbolAt target with
  | none =>
    -- a bare number has no slash
    rcases parseSizeOffset_cases (some 0) (some 0) (hex target.toNat) with
      ⟨uSz, uOff, hparsed, -⟩ | hfailed
    · obtain ⟨head, off, sz, htext, -⟩ := hparsed.cut
      exact absurd (htext ▸ List.mem_append_right _ List.mem_cons_self)
        (slash_notMem_hex target.toNat)
    · simp only [hfailed]
      rfl
  | some s =>
    obtain ⟨hlow, hhigh⟩ := m.inside hsymbol
    obtain ⟨hplus, hslash⟩ := m.clean hsymbol
    have hlt := hsize target s hsymbol
    have hne : BitVec.ofNat 64 s.size ≠ 0 := by bv_omega
    simp only [(parsed_symbolText hplus hslash (by omega : target.toNat - s.start < 2 ^ 64)
      hlt).result, one_ne_zero, if_false, Option.some.injEq, hne, false_and, Option.getD_some]
    rfl

/-- The search of one handler ends with zero exactly if it found something. -/
theorem resolveSvcHandler_shows (hK : K.symbolText = m.text)
    (hsize : ∀ a s, m.symbolAt a = some s → s.size < 2 ^ 64) (g : Globals) (h : Text × Addr)
    (compatSym : Text)
    (hfit : ∀ start depth, window K m h = some (start, depth) →
      start.toNat + depth.toNat < 2 ^ 64 - 4 ∧ wordRounds * ((depth.toNat + 3) / 4) + 1 ≤ fuel) :
    ∃ ret, Shows K (resolveSvcHandler fuel g h.1 compatSym h.2) ret (reportOf K (handlerHit K m h)) ∧
      (ret = 0 ↔ handlerHit K m h ≠ none) := by
  by_cases htarget : K.kallsyms (some h.1) = 0
  · have hmissing : handlerHit K m h = none := by simp [handlerHit, window, htarget]
    refine ⟨-ENOENT, (Shows.lookup g (some h.1)).quietly ?_, by simp [hmissing, ENOENT]⟩
    rw [if_pos htarget, hmissing]
    exact .ret _
  · have hwindow : window K m h = some (K.kallsyms (some h.1),
        windowDepth m (K.kallsyms (some h.1)) h.2) := if_neg htarget
    obtain ⟨hend, hfuel⟩ := hfit _ _ hwindow
    have hhunt := hunt_shows (K := K) g hend hfuel
    rw [handlerHit, hwindow, Option.bind_some]
    generalize windowHit K (K.kallsyms (some h.1), windowDepth m (K.kallsyms (some h.1)) h.2) = hit
      at hhunt
    have hlast : Shows K (if returnCode hit ≠ 0 then return returnCode hit else return 0 : KernelProg ℤ)
        (returnCode hit) [] := by
      cases hit <;> exact .ret _
    refine ⟨returnCode hit, (Shows.lookup g (some h.1)).quietly ?_, ?_⟩
    · rw [if_neg htarget]
      refine (getKsymSize_shows hK hsize htarget h.2).quietly ?_
      refine (Shows.ask fun _ => rfl).quietly ?_
      rw [← List.append_nil (reportOf K hit)]
      exact hhunt.bind hlast
    · cases hit <;> simp [returnCode, ERANGE]

theorem Shows.orElse {p : KernelProg ℤ} {rest : KernelProg Globals} {ret : ℤ}
    {hit hit' : Option (Addr × Addr)} (h : Shows K p ret (reportOf K hit)) (hret : ret = 0 ↔ hit ≠ none)
    (hrest : Shows K rest g (reportOf K hit')) :
    Shows K (p.bind fun ret => if ret = 0 then Prog.ret g else rest) g
      (reportOf K (hit.or hit')) := by
  cases hit with
  | none =>
    have hne : ret ≠ 0 := by simpa using hret
    have hboth : reportOf K hit' = reportOf K none ++ reportOf K hit' := rfl
    rw [Option.none_or, hboth]
    refine h.bind ?_
    rw [if_neg hne]
    exact hrest
  | some found =>
    have hzero : ret = 0 := by simpa using hret
    rw [Option.some_or, ← List.append_nil (reportOf K (some found))]
    refine h.bind ?_
    rw [if_pos hzero]
    exact .ret g

/-- The static variables with the decoder that the symbol table has. -/
def withDecoder (K : Kernel) (g : Globals) : Globals :=
  { g with aarch64InsnAdrpGetOffsetFn := K.kallsyms (some "aarch64_insn_adrp_get_offset".toList) }

/-- The handlers are searched in order, up to the first one with a match. -/
theorem huntSysCallTable_shows (hK : K.symbolText = m.text)
    (hsize : ∀ a s, m.symbolAt a = some s → s.size < 2 ^ 64) (g : Globals) {recent : Bool}
    (hfit : WindowsFit K m recent fuel)
    (hdecoder : K.kallsyms (some "aarch64_insn_adrp_get_offset".toList) ≠ 0) :
    Shows K (huntSysCallTable fuel recent g) (withDecoder K g)
      (reportOf K ((handlerTable recent).findSome? (handlerHit K m))) := by
  have hresolve := fun h (hmem : h ∈ handlerTable recent) compatSym =>
    resolveSvcHandler_shows hK hsize (withDecoder K g) h compatSym (hfit h hmem)
  -- behind the last search nothing depends on its result
  have hlast : ∀ h ∈ handlerTable recent, ∀ compatSym, Shows K
      (do let _ ← resolveSvcHandler fuel (withDecoder K g) h.1 compatSym h.2; return withDecoder K g)
      (withDecoder K g) (reportOf K (handlerHit K m h)) := by
    intro h hmem compatSym
    obtain ⟨ret, hshows, -⟩ := hresolve h hmem compatSym
    rw [← List.append_nil (reportOf K (handlerHit K m h))]
    exact hshows.bind (.ret _)
  refine (Shows.lookup g (some "aarch64_insn_adrp_get_offset".toList)).quietly ?_
  rw [if_neg hdecoder]
  cases recent with
  | false =>
    have hfirst : (handlerTable false).findSome? (handlerHit K m) =
        handlerHit K m ("el0_svc".toList, 16 * 4) := by
      rw [handlerTable, if_neg Bool.false_ne_true, List.findSome?_singleton]
    rw [hfirst]
    exact hlast ("el0_svc".toList, 16 * 4) (by simp [handlerTable]) _
  | true =>
    have hfirst : (handlerTable true).findSome? (handlerHit K m) =
        (handlerHit K m ("do_el0_svc".toList, 64 * 4)).or
          ((handlerHit K m ("el0_svc_handler".toList, 64 * 4)).or
            (handlerHit K m ("el0_svc".toList, 256 * 4))) := by
      rw [handlerTable, if_pos rfl, findSome?_cons_eq_or, findSome?_cons_eq_or,
        List.findSome?_singleton]
    obtain ⟨ret, hshows, hret⟩ := hresolve ("do_el0_svc".toList, 64 * 4) (by simp [handlerTable])
      "do_el0_svc_compat".toList
    obtain ⟨ret', hshows', hret'⟩ := hresolve ("el0_svc_handler".toList, 64 * 4)
      (by simp [handlerTable]) "el0_svc_compat_handler".toList
    rw [hfirst]
    exact hshows.orElse hret (hshows'.orElse hret'
      (hlast ("el0_svc".toList, 256 * 4) (by simp [handlerTable]) "el0_svc_compat".toList))

end Search

/-! ## The bootstrap reports nothing -/

section Bootstrap
variable {K : Kernel} {m : SymbolMap} {S : Addr} {sz fuel : ℕ}

def Unreported (op : KernelCall) : Prop := ∀ x, reports [⟨op, x⟩] = []

theorem reports_eq_nil {t : KernelTranscript} (h : ∀ e ∈ t, Unreported e.1) : reports t = [] := by
  induction t with
  | nil => rfl
  | cons e t ih =>
    have hsplit : reports (e :: t) = reports [e] ++ reports t := reports_append [e] t
    rw [hsplit, h e List.mem_cons_self e.2, ih fun e he => h e (List.mem_cons_of_mem _ he),
      List.append_nil]

theorem foundCandidate_unreported (anchor : Addr) (g : Globals) (s : Scan) (buf : Text) :
    (foundCandidate anchor g s buf).OnlyCalls Unreported := by
  unfold foundCandidate
  cases strchr buf '/' with
  | none => trivial
  | some sl =>
    dsimp only
    cases strchr (buf.take sl) '+' with
    | none => trivial
    | some pl =>
      refine ⟨fun _ => rfl, fun _ => ?_⟩
      simp only [Prog.ret_bind]
      cases kstrtoul ((buf.take sl).drop (pl + 1)) 0 with
      | error e => trivial
      | ok offset =>
        refine ⟨fun _ => rfl, fun text => ?_⟩
        simp only [Prog.ret_bind]
        split
        · trivial
        · split
          · trivial
          · exact ⟨fun _ => rfl, fun _ => trivial⟩

theorem startR_unreported (anchor : Addr) (g : Globals) (s : Scan) :
    (startR anchor g s).OnlyCalls Unreported := by
  unfold startR
  split
  · exact ⟨fun _ => rfl, fun _ => trivial⟩
  · refine ⟨fun _ => rfl, fun ibuf => ?_⟩
    simp only [Prog.ret_bind]
    split
    · trivial
    · refine ⟨fun _ => rfl, fun buf => ?_⟩
      simp only [Prog.ret_bind]
      split
      · trivial
      · split
        · exact foundCandidate_unreported anchor g s buf
        · trivial

theorem bootstrap_shows {anchor : Addr} {g : Globals} {r : ℤ × Globals}
    (h : ((bootstrapKallsymsLookupName fuel g anchor).run K.answer).1 = some r) :
    Shows K (bootstrapKallsymsLookupName fuel g anchor) r [] := by
  have hcalls := Prog.OnlyCalls.loop (startR_unreported anchor g) fuel (Scan.start anchor)
  exact ⟨_, Prod.ext h rfl, reports_eq_nil fun e he => hcalls.of_mem_run K.answer he⟩

theorem found_shows (g : Globals) (name : Option Text) : Shows K (found g name) (0, g) [] := by
  refine (Shows.lookup g name).quietly ((Shows.ask fun _ => rfl).quietly ?_)
  rw [compatKallsymsLookupSizeOffset]
  split
  · exact (Shows.ask fun _ => rfl).quietly (.ret _)
  · exact (Shows.ask fun _ => rfl).quietly ((Shows.ask fun _ => rfl).quietly (.ret _))

/-- One of the two paths to `kallsyms_lookup_name` is open. -/
def Bootstraps (K : Kernel) (S : Addr) (sz : ℕ) : Prop :=
  KprobePath K ∨ ScanReaches K S sz K.sprintSymbolAddr

/-- How the bootstrap ends, and that it reports nothing. -/
def EndsBootstrap (K : Kernel) (succeeds : Prop) (p : KernelProg (ℤ × Globals)) : Prop :=
  ∃ r, Shows K p r [] ∧ (r.1 = 0 ↔ succeeds)

theorem EndsBootstrap.quietly {succeeds : Prop} {α : Type} {p : KernelProg α}
    {f : α → KernelProg (ℤ × Globals)} {a : α} (h : Shows K p a [])
    (hf : EndsBootstrap K succeeds (f a)) : EndsBootstrap K succeeds (p.bind f) := by
  obtain ⟨r, hshows, hr⟩ := hf
  exact ⟨r, h.quietly hshows, hr⟩

theorem scanLabel_ends (hK : K.symbolText = m.text)
    (hS : m.Locates "kallsyms_lookup_name".toList S sz)
    (hlow : 64 * 400000 ≤ K.sprintSymbolAddr.toNat)
    (hhigh : K.sprintSymbolAddr.toNat + 64 * 400000 < 2 ^ 64) (hfuel : 800000 ≤ fuel) (g : Globals) :
    EndsBootstrap K (ScanReaches K S sz K.sprintSymbolAddr) (scanLabel fuel g) := by
  have hcount : probeCount < fuel := by
    simp only [probeCount, maxIter]
    omega
  rw [scanReaches_iff hlow hhigh]
  by_cases h : SomeProbeHits K S sz K.sprintSymbolAddr
  · refine ⟨(0, { g with kallsymsLookupNameFn := S }), ?_, by simp [h]⟩
    refine (Shows.ask fun _ => rfl).quietly ((Shows.ask fun _ => rfl).quietly ?_)
    refine (bootstrap_shows (bootstrap_of_hit hK hS g h hcount)).quietly ?_
    exact found_shows _ _
  · refine ⟨(-ERANGE, g), ?_, by simp [h, ERANGE]⟩
    refine (Shows.ask fun _ => rfl).quietly ((Shows.ask fun _ => rfl).quietly ?_)
    refine (bootstrap_shows (bootstrap_of_no_hit hK hS g h hcount)).quietly ?_
    exact .ret _

/-- What the kprobe yields: the address that a successful registration fills in, or null. -/
def probedAddr (K : Kernel) (name : Text) : Addr :=
  if (K.registration ⟨name, 0⟩).1 = 0 then (K.registration ⟨name, 0⟩).2 else 0

theorem probedAddr_ne_zero_iff (name : Text) : probedAddr K name ≠ 0 ↔
    (K.registration ⟨name, 0⟩).1 = 0 ∧ (K.registration ⟨name, 0⟩).2 ≠ 0 := by
  rw [probedAddr]
  by_cases hret : (K.registration ⟨name, 0⟩).1 = 0
  · simp only [hret, if_true, true_and]
  · simp only [hret, if_false, false_and, ne_eq, not_true_eq_false]

theorem kpKallsymsLookupName_shows {g : Globals} (hr : g.registerKprobeFn ≠ 0)
    (hu : g.unregisterKprobeFn ≠ 0) (name : Text) :
    Shows K (kpKallsymsLookupName g name) (probedAddr K name, g) [] := by
  obtain ⟨t, hrun, -⟩ := run_kpKallsymsLookupName K hr hu name
  refine ⟨t, hrun, reports_eq_nil fun e he => ?_⟩
  have hcalls : (kpKallsymsLookupName g name).OnlyCalls Unreported := by
    simp only [kpKallsymsLookupName, registerKprobe, unregisterKprobe, hr, hu, if_false,
      Prog.bind_eq, Prog.pure_eq, Prog.ret_bind, Prog.ask_bind, Prog.call_bind]
    refine ⟨fun _ => rfl, fun r => ?_⟩
    obtain ⟨ret, addr⟩ := r
    dsimp only
    split
    · trivial
    · exact ⟨fun _ => rfl, fun _ => ⟨fun _ => rfl, fun _ => trivial⟩⟩
  have hmem : e ∈ ((kpKallsymsLookupName g name).run K.answer).2 := by
    rw [hrun]
    exact he
  exact hcalls.of_mem_run K.answer hmem

theorem lkmBoostrap_ends (hK : K.symbolText = m.text)
    (hS : m.Locates "kallsyms_lookup_name".toList S sz)
    (hlow : 64 * 400000 ≤ K.sprintSymbolAddr.toNat)
    (hhigh : K.sprintSymbolAddr.toNat + 64 * 400000 < 2 ^ 64) (hfuel : 800000 ≤ fuel) (g : Globals) :
    EndsBootstrap K (Bootstraps K S sz) (lkmBoostrap fuel g) := by
  have hscan : ∀ g, ¬ KprobePath K → EndsBootstrap K (Bootstraps K S sz) (scanLabel fuel g) := by
    intro g hpath
    rw [Bootstraps, or_iff_right hpath]
    exact scanLabel_ends hK hS hlow hhigh hfuel g
  refine EndsBootstrap.quietly (.symbolGet _) (.quietly (.symbolGet _) ?_)
  dsimp only
  split
  · rename_i hmissing
    refine .quietly (.ask fun _ => rfl) (hscan _ fun hpath => ?_)
    rcases hmissing with hrk | huk
    · exact hpath.1 hrk
    · exact hpath.2.1 huk
  · rename_i hpointers
    obtain ⟨hrk, huk⟩ := not_or.mp hpointers
    refine .quietly (kpKallsymsLookupName_shows hrk huk _) ?_
    dsimp only
    split
    · rename_i hfn
      refine ⟨_, found_shows _ none, ?_⟩
      exact iff_of_true rfl (Or.inl ⟨hrk, huk, (probedAddr_ne_zero_iff _).mp hfn⟩)
    · rename_i hfn
      exact hscan _ fun hpath => hfn ((probedAddr_ne_zero_iff _).mpr hpath.2.2)

end Bootstrap

/-! ## The whole load -/

section Load
variable {K : Kernel} {m : SymbolMap} {S : Addr} {sz fuel : ℕ} {recent : Bool}

theorem barren_of_handlerHit {h : Text × Addr} (hnone : handlerHit K m h = none) :
    Barren K m h := by
  intro start depth hwindow i k slot p
  rw [handlerHit, hwindow, Option.bind_some] at hnone
  exact not_hit_of_findSome?_plan hnone i k slot p

theorem exists_firstHit_of_handlerHit {h : Text × Addr} {slot p : Addr}
    (hsome : handlerHit K m h = some (slot, p)) : ∃ start depth i k,
      window K m h = some (start, depth) ∧ FirstHit K start depth.toNat i k slot p := by
  obtain ⟨⟨start, depth⟩, hwindow, hhit⟩ := Option.bind_eq_some_iff.mp hsome
  obtain ⟨i, k, hfirst⟩ := (findSome?_plan_eq_some_iff depth.toNat slot p).mp hhit
  exact ⟨start, depth, i, k, hwindow, hfirst⟩

theorem reportsFirst_of_reports {t : KernelTranscript}
    (h : reports t = reportOf K ((handlerTable recent).findSome? (handlerHit K m))) :
    ReportsFirst K m recent t := by
  cases hfound : (handlerTable recent).findSome? (handlerHit K m) with
  | none =>
    rw [hfound] at h
    refine Or.inr ⟨fun h' hmem => barren_of_handlerHit ?_, h⟩
    exact List.findSome?_eq_none_iff.mp hfound h' hmem
  | some hit =>
    obtain ⟨slot, p⟩ := hit
    rw [hfound] at h
    obtain ⟨before, h', after, htable, hhit, hbefore⟩ := List.findSome?_eq_some_iff.mp hfound
    obtain ⟨start, depth, i, k, hwindow, hfirst⟩ := exists_firstHit_of_handlerHit hhit
    exact Or.inl ⟨before, h', after, start, depth, i, k, slot, p, htable,
      fun h'' hmem => barren_of_handlerHit (hbefore h'' hmem), hwindow, hfirst, h⟩

end Load

/-- One load of the module always ends with `-EAGAIN`. If one of the two paths to
`kallsyms_lookup_name` is open and the kernel has the decoder, it reports the first hit of
the first handler that has one, and nothing if none has; otherwise it reports nothing. -/
theorem lkmTemplateInit_reports_first {K : Kernel} {m : SymbolMap} {S : Addr} {sz fuel : ℕ}
    {recent : Bool} (hK : K.symbolText = m.text)
    (hS : m.Locates "kallsyms_lookup_name".toList S sz)
    (hsize : ∀ a s, m.symbolAt a = some s → s.size < 2 ^ 64)
    (hlow : 64 * 400000 ≤ K.sprintSymbolAddr.toNat)
    (hhigh : K.sprintSymbolAddr.toNat + 64 * 400000 < 2 ^ 64) (hfuel : 800000 ≤ fuel)
    (hfit : WindowsFit K m recent fuel) :
    ∃ g t, K.Yields (lkmTemplateInit fuel recent Globals.zero) (-EAGAIN, g) t ∧
      (Bootstraps K S sz ∧ K.kallsyms (some "aarch64_insn_adrp_get_offset".toList) ≠ 0 →
        ReportsFirst K m recent t) ∧
      (¬ (Bootstraps K S sz ∧ K.kallsyms (some "aarch64_insn_adrp_get_offset".toList) ≠ 0) →
        reports t = []) := by
  obtain ⟨⟨ret, g⟩, hboot, hret⟩ := lkmBoostrap_ends hK hS hlow hhigh hfuel Globals.zero
  by_cases hopen : Bootstraps K S sz
  · obtain rfl : ret = 0 := hret.mpr hopen
    by_cases hdecoder : K.kallsyms (some "aarch64_insn_adrp_get_offset".toList) = 0
    · have hhunt : Shows K (huntSysCallTable fuel recent g) (withDecoder K g) [] := by
        refine (Shows.lookup g _).quietly ?_
        rw [if_pos hdecoder]
        exact .ret _
      have hload : Shows K (lkmTemplateInit fuel recent Globals.zero) (-EAGAIN, withDecoder K g) [] :=
        (Shows.ask fun _ => rfl).quietly (hboot.quietly (hhunt.quietly (.ret _)))
      obtain ⟨t, hrun, hreports⟩ := hload
      exact ⟨_, t, hrun, fun h => absurd hdecoder h.2, fun _ => hreports⟩
    · have hhunt := huntSysCallTable_shows hK hsize g hfit hdecoder
      have hload : Shows K (lkmTemplateInit fuel recent Globals.zero) (-EAGAIN, withDecoder K g)
          (reportOf K ((handlerTable recent).findSome? (handlerHit K m)) ++ []) :=
        (Shows.ask fun _ => rfl).quietly (hboot.quietly (hhunt.bind (.ret _)))
      obtain ⟨t, hrun, hreports⟩ := hload
      rw [List.append_nil] at hreports
      exact ⟨_, t, hrun, fun _ => reportsFirst_of_reports hreports,
        fun h => absurd ⟨hopen, hdecoder⟩ h⟩
  · have hne : ret ≠ 0 := fun hzero => hopen (hret.mp hzero)
    have hload : Shows K (lkmTemplateInit fuel recent Globals.zero) (-EAGAIN, g) [] := by
      refine (Shows.ask fun _ => rfl).quietly (hboot.quietly ?_)
      dsimp only
      rw [if_neg hne]
      exact .ret _
    obtain ⟨t, hrun, hreports⟩ := hload
    exact ⟨g, t, hrun, fun h => absurd h.1 hopen, fun _ => hreports⟩

/-- `kallsyms_lookup_name`, a handler of one instruction, and the native `io_setup`. -/
def loadSymbols : SymbolMap where
  symbolAt a :=
    if 0x100000000 ≤ a.toNat ∧ a.toNat < 0x100000000 + 64 then
      some ⟨"kallsyms_lookup_name".toList, 0x100000000, 64⟩
    else if 0x1000 ≤ a.toNat ∧ a.toNat < 0x1000 + 4 then some ⟨"el0_svc".toList, 0x1000, 4⟩
    else if 0x7000 ≤ a.toNat ∧ a.toNat < 0x7000 + 64 then
      some ⟨"__arm64_sys_io_setup".toList, 0x7000, 64⟩
    else none
  inside := by
    intro a s h
    split_ifs at h with h₁ h₂ h₃
    · obtain rfl := Option.some.inj h
      exact h₁
    · obtain rfl := Option.some.inj h
      exact h₂
    · obtain rfl := Option.some.inj h
      exact h₃
  clean := by
    intro a s h
    split_ifs at h <;> obtain rfl := Option.some.inj h <;> decide

/-- Kprobes work, and the handler's instruction points to the page whose first slot holds
the native `io_setup`. -/
def loadKernel : Kernel where
  nofault src size :=
    if src = 0x1000 then some 0
    else if src = 0x9000 then some (0x7000 : BitVec (8 * size))
    else if src = 0x7000 then some 0
    else none
  symbolText := loadSymbols.text
  sprintSymbolAddr := 0x100000000
  exported _ := 0x3000
  registration _ := (0, 0x100000000)
  kallsyms name := if name = some "el0_svc".toList then 0x1000
    else if name = some "aarch64_insn_adrp_get_offset".toList then 0x2000 else 0
  isAdrp _ := true
  adrpOffset _ := 0x8000

theorem loadKernel_firstHit : FirstHit loadKernel 0x1000 4 0 0 0x9000 0x7000 :=
  ⟨⟨by decide, by decide, ⟨0, by decide, rfl, by decide⟩, by decide, by decide, by decide, by decide⟩,
    by omega⟩

theorem loadSymbols_cases {a : Addr} {s : Symbol} (h : loadSymbols.symbolAt a = some s) :
    s.size ≤ 64 ∧ (s.name = "kallsyms_lookup_name".toList →
      0x100000000 ≤ a.toNat ∧ a.toNat < 0x100000000 + 64) := by
  simp only [loadSymbols] at h
  split_ifs at h with h₁
  · obtain rfl := Option.some.inj h
    exact ⟨Nat.le_refl 64, fun _ => h₁⟩
  · obtain rfl := Option.some.inj h
    exact ⟨by decide, fun hname => absurd hname (by decide)⟩
  · obtain rfl := Option.some.inj h
    exact ⟨by decide, fun hname => absurd hname (by decide)⟩

theorem lkmTemplateInit_reports_first_loadKernel : ∃ fuel g t,
    loadKernel.Yields (lkmTemplateInit fuel false Globals.zero) (-EAGAIN, g) t ∧
      reports t = [reportArgs loadKernel 0x9000 0x7000] := by
  have hS : loadSymbols.Locates "kallsyms_lookup_name".toList 0x100000000 64 := by
    constructor
    · intro a hlow hhigh
      exact if_pos ⟨hlow, hhigh⟩
    · intro a s h hname
      exact (loadSymbols_cases h).2 hname
  have hsize : ∀ a s, loadSymbols.symbolAt a = some s → s.size < 2 ^ 64 := by
    intro a s h
    have hle := (loadSymbols_cases h).1
    omega
  obtain ⟨fuel, hfuel⟩ : ∃ fuel, 800000 ≤ fuel := ⟨800000, Nat.le_refl _⟩
  have hwindow : window loadKernel loadSymbols ("el0_svc".toList, 16 * 4) = some (0x1000, 4) := by
    decide
  have hfit : WindowsFit loadKernel loadSymbols false fuel := by
    intro h hmem start depth hw
    obtain rfl : h = ("el0_svc".toList, 16 * 4) := List.mem_singleton.mp hmem
    obtain ⟨rfl, rfl⟩ := Prod.mk.inj (Option.some.inj (hw.symm.trans hwindow))
    have hrounds : wordRounds * (((4 : Addr).toNat + 3) / 4) + 1 ≤ 800000 := by decide
    exact ⟨by decide, hrounds.trans hfuel⟩
  obtain ⟨g, t, hrun, hreports, -⟩ := @lkmTemplateInit_reports_first loadKernel loadSymbols
    0x100000000 64 fuel false rfl hS hsize (by decide) (by decide) hfuel hfit
  refine ⟨fuel, g, t, hrun, ?_⟩
  rcases hreports ⟨Or.inl ⟨by decide, by decide, by decide, by decide⟩, by decide⟩ with h | h
  · obtain ⟨before, h', after, start, depth, i, k, slot, p, htable, -, hw, hfirst, hreport⟩ := h
    have hmem : h' ∈ handlerTable false := by
      rw [htable]
      exact List.mem_append_right _ List.mem_cons_self
    obtain rfl : h' = ("el0_svc".toList, 16 * 4) := List.mem_singleton.mp hmem
    obtain ⟨rfl, rfl⟩ := Prod.mk.inj (Option.some.inj (hw.symm.trans hwindow))
    obtain ⟨-, -, rfl, rfl⟩ := hfirst.unique loadKernel_firstHit
    exact hreport
  · exact (h.1 _ List.mem_cons_self _ _ hwindow _ _ _ _ loadKernel_firstHit.1).elim

end VariousStuff.LkmTemplate
