import VariousStuff.KallsymsBootstrapRuns
import VariousStuff.LkmTemplate
import VariousStuff.SymbolSizeOffsetParsing
import VariousStuff.SysCallTableFirstHit

/-! # Where the module's calls and reads go

The answers are those of one kernel image, whose functions start where its symbols say.
Then every call through one of the module's pointers goes to the function that pointer is
named after, and every instruction word is read where the scan or the hunt has to look. -/
namespace VariousStuff.LkmTemplate
open Interactive CStrings KernelNumerals KernelInterface SymbolTexts
open KallsymsBootstrap SymbolSizeOffset SysCallTableHunt

/-- The handlers whose code the hunt reads. -/
def svcHandlers : List Text := ["do_el0_svc".toList, "el0_svc_handler".toList, "el0_svc".toList]

/-- The symbols of a kernel and where its functions start. A handler it does not have
starts at null. -/
structure KernelImage where
  symbols : SymbolMap
  entry : Text → Addr
  size : Text → ℕ
  bootstrap : symbols.Locates "kallsyms_lookup_name".toList (entry "kallsyms_lookup_name".toList)
    (size "kallsyms_lookup_name".toList)
  handler : ∀ name ∈ svcHandlers, entry name ≠ 0 →
    symbols.symbolAt (entry name) = some ⟨name, (entry name).toNat, size name⟩
  handler_end : ∀ name ∈ svcHandlers, (entry name).toNat + size name < 2 ^ 64 - 4

namespace KernelImage
variable (I : KernelImage)

/-- The answers of this kernel. Every lookup may fail, and nothing is said of the memory. -/
def Answers : ∀ op : KernelCall, op.Answer → Prop
  | .sprintSymbol addr, text => text = I.symbols.text addr
  | .addressOfSprintSymbol, addr => addr = I.entry "sprint_symbol".toList
  | .symbolGet name, addr => addr = 0 ∨ addr = I.entry name
  | .viaKallsymsLookupName _ (some name), addr => addr = 0 ∨ addr = I.entry name
  | .viaRegisterKprobe _ p, r => r.1 = 0 → r.2 = 0 ∨ r.2 = I.entry p.symbolName
  | _, _ => True

/-- `a` is one of the addresses around `sprint_symbol` at which the scan may look. -/
def Probed (a : Addr) : Prop :=
  ∃ k : ℤ, |k| ≤ 399999 ∧ a = probeAddr (I.entry "sprint_symbol".toList) k

/-- `a` lies in the code of a handler. -/
def InHandler (a : Addr) : Prop :=
  ∃ name ∈ svcHandlers, (I.entry name).toNat ≤ a.toNat ∧
    a.toNat < (I.entry name).toNat + I.size name

/-- Calls through a pointer go to the function it is named after, and instruction words
are read where the scan or the hunt looks. -/
def Targets : KernelCall → Prop
  | .viaKallsymsLookupName fn _ => fn = I.entry "kallsyms_lookup_name".toList
  | .viaRegisterKprobe fn _ => fn = I.entry "register_kprobe".toList
  | .viaUnregisterKprobe fn _ => fn = I.entry "unregister_kprobe".toList
  | .viaAarch64InsnAdrpGetOffset fn _ => fn = I.entry "aarch64_insn_adrp_get_offset".toList
  | .copyFromKernelNofault src size => size = 4 → I.Probed src ∨ I.InHandler src
  | _ => True

def contract : Prog.Contract KernelCall.Answer where
  allowed _ := I.Targets
  honest := I.Answers

/-- The fuel lasts for the scan and for the hunt through each handler. -/
def FuelLasts (fuel : ℕ) : Prop :=
  probeCount < fuel ∧ ∀ name ∈ svcHandlers, wordRounds * ((I.size name + 3) / 4) < fuel

/-- A stored pointer is null or goes to its function. -/
structure Stores (g : Globals) : Prop where
  kallsyms : g.kallsymsLookupNameFn = 0 ∨
    g.kallsymsLookupNameFn = I.entry "kallsyms_lookup_name".toList
  register : g.registerKprobeFn = 0 ∨ g.registerKprobeFn = I.entry "register_kprobe".toList
  unregister : g.unregisterKprobeFn = 0 ∨
    g.unregisterKprobeFn = I.entry "unregister_kprobe".toList
  adrp : g.aarch64InsnAdrpGetOffsetFn = 0 ∨
    g.aarch64InsnAdrpGetOffsetFn = I.entry "aarch64_insn_adrp_get_offset".toList

end KernelImage

section Rules
variable {α : Type} {I : KernelImage} {Q : α → KernelTranscript → Prop} {t : KernelTranscript}

/-- A call that goes through no pointer and reads no instruction word. -/
theorem targets_ask {op : KernelCall} {f : op.Answer → KernelProg α} (hop : I.Targets op)
    (h : ∀ x, I.Answers op x → (f x).wpTotal I.contract Q (t ++ [⟨op, x⟩])) :
    (Prog.ask op >>= f).wpTotal I.contract Q t :=
  ⟨hop, h⟩

theorem targets_prInfo {format : String} {args : List PrintArg} {f : Unit → KernelProg α}
    (h : ∀ u, (f ()).wpTotal I.contract Q u) : (prInfo format args >>= f).wpTotal I.contract Q t :=
  ⟨trivial, fun _ _ => h _⟩

theorem targets_sprintSymbol {addr : Addr} {f : Text → KernelProg α}
    (h : ∀ u, (f (I.symbols.text addr)).wpTotal I.contract Q u) :
    (sprintSymbol addr >>= f).wpTotal I.contract Q t := by
  refine ⟨trivial, fun text htext => ?_⟩
  obtain rfl : text = I.symbols.text addr := htext
  exact h _

theorem targets_kallsymsLookupName {g : Globals} {name : Text} {f : Addr → KernelProg α}
    (hg : g.kallsymsLookupNameFn = I.entry "kallsyms_lookup_name".toList)
    (h : ∀ x u, x = 0 ∨ x = I.entry name → (f x).wpTotal I.contract Q u) :
    (kallsymsLookupName g (some name) >>= f).wpTotal I.contract Q t :=
  ⟨hg, fun x hx => h x _ hx⟩

end Rules

/-! ## The scan -/

section Scan
variable {I : KernelImage} {anchor : Addr} {g : Globals}

/-- How a round of the scan ends: at the next probe, with a failure, or with the start of
`kallsyms_lookup_name`. -/
def ScanRound (I : KernelImage) (anchor : Addr) (g : Globals) (s : Scan) :
    Scan ⊕ (ℤ × Globals) → Prop
  | .inl s' => s' = s.inc anchor
  | .inr r => r = (-ERANGE, g) ∨
      r = (0, { g with kallsymsLookupNameFn := I.entry "kallsyms_lookup_name".toList })

/-- An address whose text starts with the wanted name is traced back to the symbol's start. -/
theorem foundCandidate_targets {s : Scan} (hstart : strstarts (I.symbols.text s.curr) sym = true)
    (t : KernelTranscript) :
    (foundCandidate anchor g s (I.symbols.text s.curr)).wpTotal I.contract
      (fun r _ => ScanRound I anchor g s r) t := by
  have hhex : ∀ n, ¬ "kallsyms_lookup_name".toList ++ ['+'] <+: hex n := by
    intro n hprefix
    have hhead : 'k' = '0' := hprefix.head (List.cons_ne_nil _ _)
    exact absurd hhead (by decide)
  obtain ⟨hplus, hslash⟩ : '+' ∉ "kallsyms_lookup_name".toList ∧
      '/' ∉ "kallsyms_lookup_name".toList := separators_notMem_kallsymsLookupName
  have hsym : sym = "kallsyms_lookup_name".toList ++ ['+'] := sym_eq
  have hin : (I.entry "kallsyms_lookup_name".toList).toNat ≤ s.curr.toNat ∧
      s.curr.toNat < (I.entry "kallsyms_lookup_name".toList).toNat +
        I.size "kallsyms_lookup_name".toList := by
    by_contra hout
    rw [hsym, I.bootstrap.not_strstarts hplus hhex hout] at hstart
    cases hstart
  have hback : s.curr - BitVec.ofNat 64
      (s.curr.toNat - (I.entry "kallsyms_lookup_name".toList).toNat) =
        I.entry "kallsyms_lookup_name".toList := by
    bv_omega
  rw [I.bootstrap.text_eq hin.1 hin.2, foundCandidate, strchr_slash_symbolText _ _ hslash]
  dsimp only
  rw [take_symbolText, strchr_plus_cut _ hplus]
  refine targets_prInfo fun u => ?_
  rw [drop_cut, kstrtoul_hex (by omega)]
  refine targets_sprintSymbol fun v => ?_
  split
  · rfl
  · split
    · rfl
    · refine targets_prInfo fun w => ?_
      rw [hback]
      exact Or.inr rfl

theorem startR_targets {n : ℕ} (hanchor : anchor = I.entry "sprint_symbol".toList)
    (t : KernelTranscript) :
    (startR anchor g ((Scan.inc anchor)^[n] (Scan.start anchor))).wpTotal I.contract
      (fun r _ => ScanRound I anchor g ((Scan.inc anchor)^[n] (Scan.start anchor)) r) t := by
  have hcurr := (iterate_inc anchor n).2.2
  have hcount := iter_lt_iff anchor n
  generalize (Scan.inc anchor)^[n] (Scan.start anchor) = s at hcurr hcount
  rw [startR]
  split
  · exact targets_prInfo fun _ => Or.inl rfl
  · rename_i hiter
    have hprobe : I.Probed s.curr := by
      rw [hcurr, hanchor]
      exact ⟨_, abs_probeIndex_le (hcount.not_left.mp hiter), rfl⟩
    refine targets_ask (fun _ => Or.inl hprobe) fun ibuf _ => ?_
    split
    · rfl
    · refine targets_sprintSymbol fun u => ?_
      split
      · rfl
      · split
        · rename_i hstart
          exact foundCandidate_targets hstart u
        · rfl

/-- The probes that are left. -/
def probesLeft (s : Scan) : ℕ := probeCount - (2 * s.iter - if s.up then 0 else 1)

theorem probesLeft_iterate (anchor : Addr) (n : ℕ) :
    probesLeft ((Scan.inc anchor)^[n] (Scan.start anchor)) = probeCount - n := by
  obtain ⟨hiter, hup, -⟩ := iterate_inc anchor n
  rw [probesLeft, hiter, hup]
  by_cases hn : n % 2 = 0
  · rw [if_pos (decide_eq_true hn)]
    omega
  · rw [if_neg (by simpa using hn)]
    omega

/-- The scan looks at its addresses only, and stores the start of the symbol or nothing. -/
theorem bootstrap_targets (hanchor : anchor = I.entry "sprint_symbol".toList) {fuel : ℕ}
    (hfuel : probeCount < fuel) (t : KernelTranscript) :
    (bootstrapKallsymsLookupName fuel g anchor).wpTotal I.contract (fun r _ => r = (-ERANGE, g) ∨
      r = (0, { g with kallsymsLookupNameFn := I.entry "kallsyms_lookup_name".toList })) t := by
  have hstart := probesLeft_iterate anchor 0
  refine Prog.wpTotal_loop (fun s _ => ∃ n, s = (Scan.inc anchor)^[n] (Scan.start anchor)) probesLeft
    ?_ ⟨0, rfl⟩ (Nat.lt_of_le_of_lt (Nat.le_of_eq hstart) hfuel)
  intro s u hs
  obtain ⟨n, rfl⟩ := hs
  by_cases hn : n < probeCount
  · refine Prog.wpTotal_mono (startR_targets hanchor u) ?_
    intro r v hr
    cases r with
    | inl s' =>
      obtain rfl : s' = _ := hr
      rw [← Function.iterate_succ_apply' (Scan.inc anchor) n, probesLeft_iterate]
      refine ⟨⟨n + 1, rfl⟩, ?_⟩
      rw [probesLeft_iterate]
      omega
    | inr r => exact hr
  · rw [startR, if_pos ((iter_lt_iff anchor n).mpr hn)]
    exact targets_prInfo fun _ => Or.inl rfl

end Scan

/-! ## The hunt -/

section Hunt
variable {I : KernelImage} {g : Globals} {name : Text}

/-- The instruction pointer of the hunt stands at or behind the handler's start; while a
page is examined it still stands inside. -/
def KernelImage.Hunting (I : KernelImage) (name : Text) : Pc → Prop
  | .scan insnP => (I.entry name).toNat ≤ insnP.toNat
  | .scanPg insnP _ tries => (I.entry name).toNat ≤ insnP.toNat ∧
      insnP.toNat < (I.entry name).toNat + I.size name ∧ tries ≤ maxTries + 1

/-- The rounds that are left of a hunt up to `insnEnd`. -/
def roundsLeft (insnEnd : ℕ) : Pc → ℕ
  | .scan insnP => wordRounds * ((insnEnd - insnP.toNat + 3) / 4)
  | .scanPg insnP _ tries =>
      wordRounds * ((insnEnd - (insnP.toNat + 4) + 3) / 4) + (maxTries + 2 - tries)

/-- How a round of the hunt ends: where it goes on, closer to the end, or with a returned value. -/
def HuntRound (I : KernelImage) (name : Text) (pc : Pc) : Pc ⊕ ℤ → Prop
  | .inl pc' => I.Hunting name pc' ∧
      roundsLeft ((I.entry name).toNat + I.size name) pc' <
        roundsLeft ((I.entry name).toNat + I.size name) pc
  | .inr _ => True

theorem roundsLeft_scan {insnEnd : ℕ} {insnP : Addr} (h : insnP.toNat < insnEnd) :
    roundsLeft insnEnd (.scan insnP) =
      wordRounds * ((insnEnd - (insnP.toNat + 4) + 3) / 4) + wordRounds := by
  have hwords : (insnEnd - insnP.toNat + 3) / 4 = (insnEnd - (insnP.toNat + 4) + 3) / 4 + 1 := by
    omega
  rw [roundsLeft, hwords, Nat.mul_succ]

theorem hunting_next (hname : name ∈ svcHandlers) {insnP : Addr}
    (hlow : (I.entry name).toNat ≤ insnP.toNat)
    (hhigh : insnP.toNat < (I.entry name).toNat + I.size name) :
    I.Hunting name (incrementAdrp insnP) ∧
      roundsLeft ((I.entry name).toNat + I.size name) (incrementAdrp insnP) =
        wordRounds * (((I.entry name).toNat + I.size name - (insnP.toNat + 4) + 3) / 4) := by
  have hend := I.handler_end name hname
  have hnext : (insnP + 4).toNat = insnP.toNat + 4 := by bv_omega
  constructor
  · change (I.entry name).toNat ≤ (insnP + 4).toNat
    omega
  · rw [incrementAdrp, roundsLeft, hnext]

theorem scan_targets (hname : name ∈ svcHandlers)
    (hg : g.aarch64InsnAdrpGetOffsetFn = I.entry "aarch64_insn_adrp_get_offset".toList)
    {insnEnd insnP : Addr} (hend : insnEnd.toNat = (I.entry name).toNat + I.size name)
    (hlow : (I.entry name).toNat ≤ insnP.toNat) (t : KernelTranscript) :
    (scan g insnEnd insnP).wpTotal I.contract (fun r _ => HuntRound I name (.scan insnP) r) t := by
  rw [scan]
  split
  · trivial
  · rename_i hinside
    have hhigh : insnP.toNat < (I.entry name).toNat + I.size name := by
      rw [← hend]
      exact Nat.lt_of_not_le hinside
    have hnext : HuntRound I name (.scan insnP) (.inl (incrementAdrp insnP)) := by
      obtain ⟨hhunting, hrounds⟩ := hunting_next hname hlow hhigh
      refine ⟨hhunting, ?_⟩
      rw [hrounds, roundsLeft_scan hhigh, wordRounds]
      omega
    refine targets_ask (fun _ => Or.inr ⟨name, hname, hlow, hhigh⟩) fun word _ => ?_
    cases word with
    | none => exact hnext
    | some rawInsn =>
      refine targets_ask trivial fun adrp _ => ?_
      split
      · exact hnext
      · refine targets_prInfo fun u => ?_
        refine targets_ask hg fun offset _ => ?_
        refine targets_prInfo fun v => ⟨⟨hlow, hhigh, Nat.zero_le _⟩, ?_⟩
        rw [roundsLeft_scan hhigh, roundsLeft, wordRounds]
        omega

theorem scanPg_targets (hname : name ∈ svcHandlers) {insnP : Addr} (curr : Addr) {tries : ℕ}
    (hlow : (I.entry name).toNat ≤ insnP.toNat)
    (hhigh : insnP.toNat < (I.entry name).toNat + I.size name) (htries : tries ≤ maxTries + 1)
    (t : KernelTranscript) : (scanPg insnP curr tries).wpTotal I.contract
      (fun r _ => HuntRound I name (.scanPg insnP curr tries) r) t := by
  have hslot : ∀ a, I.Targets (.copyFromKernelNofault a 8) := fun a h8 => absurd h8 (by decide)
  rw [scanPg]
  split
  · obtain ⟨hhunting, hrounds⟩ := hunting_next hname hlow hhigh
    refine ⟨hhunting, ?_⟩
    rw [hrounds, roundsLeft]
    omega
  · rename_i hmore
    have hnext : HuntRound I name (.scanPg insnP curr tries) (.inl (incrementPgP insnP curr tries)) := by
      refine ⟨⟨hlow, hhigh, by omega⟩, ?_⟩
      rw [incrementPgP, roundsLeft, roundsLeft]
      omega
    refine targets_ask (hslot curr) fun slot _ => ?_
    cases slot with
    | none => exact hnext
    | some pbuf =>
      refine targets_ask (hslot pbuf) fun dummy _ => ?_
      split
      · exact hnext
      · refine targets_sprintSymbol fun u => ?_
        split
        · exact hnext
        · split
          · exact hnext
          · exact targets_prInfo fun _ => trivial

theorem hunt_targets (hname : name ∈ svcHandlers)
    (hg : g.aarch64InsnAdrpGetOffsetFn = I.entry "aarch64_insn_adrp_get_offset".toList)
    {fuel : ℕ} (hfuel : wordRounds * ((I.size name + 3) / 4) < fuel) (t : KernelTranscript) :
    (huntSctAdrp fuel g (I.entry name) (BitVec.ofNat 64 (I.size name))).wpTotal I.contract
      (fun _ _ => True) t := by
  have hnowrap := I.handler_end name hname
  have hend : (I.entry name + BitVec.ofNat 64 (I.size name)).toNat =
      (I.entry name).toNat + I.size name := by
    bv_omega
  have hstart : roundsLeft ((I.entry name).toNat + I.size name) (.scan (I.entry name)) < fuel := by
    rwa [roundsLeft, Nat.add_sub_cancel_left]
  refine Prog.wpTotal_loop (fun pc _ => I.Hunting name pc)
    (roundsLeft ((I.entry name).toNat + I.size name)) ?_ (Nat.le_refl _) hstart
  intro pc u hpc
  have hstep : (step g (I.entry name + BitVec.ofNat 64 (I.size name)) pc).wpTotal I.contract
      (fun r _ => HuntRound I name pc r) u := by
    cases pc with
    | scan insnP => exact scan_targets hname hg hend hpc u
    | scanPg insnP curr tries => exact scanPg_targets hname curr hpc.1 hpc.2.1 hpc.2.2 u
  refine Prog.wpTotal_mono hstep ?_
  intro r v hr
  cases r with
  | inl pc' => exact hr
  | inr ret => trivial

theorem getKsymSize_targets (hname : name ∈ svcHandlers) (hentry : I.entry name ≠ 0)
    (retfail : Addr) (t : KernelTranscript) :
    (getKsymSize (I.entry name) retfail).wpTotal I.contract
      (fun size _ => size = BitVec.ofNat 64 (I.size name)) t := by
  have hsymbol := I.handler name hname hentry
  have hinside := I.symbols.inside hsymbol
  have hend := I.handler_end name hname
  obtain ⟨hplus, hslash⟩ := I.symbols.clean hsymbol
  have htext : I.symbols.text (I.entry name) = symbolText name 0 (I.size name) := by
    simp [SymbolMap.text, hsymbol]
  have hguard : ¬ (I.entry name = 0 ∨ (some (0 : BitVec 64)).isNone ∨
      (some (0 : BitVec 64)).isNone) := by
    simpa using hentry
  have hsize : BitVec.ofNat 64 (I.size name) ≠ 0 := by bv_omega
  rw [getKsymSize, compatKallsymsLookupSizeOffset, if_neg hguard]
  rw [Prog.bind_eq, Prog.wpTotal_bind]
  refine targets_sprintSymbol fun u => ?_
  rw [htext, (parsed_symbolText hplus hslash (by omega) (by omega)).result]
  simp only [Prog.pure_eq, Prog.wpTotal_ret, one_ne_zero, if_false, Option.some.injEq, hsize,
    false_and, Option.getD_some]

end Hunt

/-! ## The functions of the module -/

section Module
variable {I : KernelImage} {g : Globals} {t : KernelTranscript}

/-- What the bootstrap leaves: pointers to their functions, and after a success the
pointer to `kallsyms_lookup_name`. -/
def Bootstrapped (I : KernelImage) (r : ℤ × Globals) : Prop :=
  I.Stores r.2 ∧ (r.1 = 0 → r.2.kallsymsLookupNameFn = I.entry "kallsyms_lookup_name".toList)

/-- The kprobe yields the start of the function it was set on, or null. -/
theorem kpKallsymsLookupName_targets (hr : g.registerKprobeFn = I.entry "register_kprobe".toList)
    (hu : g.unregisterKprobeFn = I.entry "unregister_kprobe".toList)
    (hr0 : g.registerKprobeFn ≠ 0) (hu0 : g.unregisterKprobeFn ≠ 0) (name : Text) :
    (kpKallsymsLookupName g name).wpTotal I.contract
      (fun r _ => r.2 = g ∧ (r.1 = 0 ∨ r.1 = I.entry name)) t := by
  simp only [kpKallsymsLookupName, registerKprobe, unregisterKprobe, hr0, hu0, if_false,
    Prog.bind_eq, Prog.pure_eq, Prog.ret_bind, Prog.ask_bind, Prog.call_bind, Prog.wpTotal_call]
  refine ⟨hr, fun r hanswer => ?_⟩
  obtain ⟨ret, addr⟩ := r
  dsimp only
  split
  · exact ⟨rfl, Or.inl rfl⟩
  · rename_i hret
    have haddr := hanswer (not_not.mp hret)
    exact ⟨hu, fun _ _ => ⟨trivial, fun _ _ => ⟨rfl, haddr⟩⟩⟩

theorem found_targets (hg : g.kallsymsLookupNameFn = I.entry "kallsyms_lookup_name".toList)
    (name : Option Text) :
    (found g name).wpTotal I.contract (fun r _ => r = (0, g)) t := by
  refine ⟨hg, fun verify _ => targets_prInfo fun u => ?_⟩
  rw [compatKallsymsLookupSizeOffset]
  split
  · exact targets_prInfo fun _ => rfl
  · exact targets_sprintSymbol fun v => targets_prInfo fun _ => rfl

theorem scanLabel_targets (hg : I.Stores g) {fuel : ℕ} (hfuel : I.FuelLasts fuel) :
    (scanLabel fuel g).wpTotal I.contract (fun r _ => Bootstrapped I r) t := by
  refine targets_ask trivial fun anchor hanchor => targets_prInfo fun u => ?_
  rw [Prog.bind_eq, Prog.wpTotal_bind]
  refine Prog.wpTotal_mono (bootstrap_targets hanchor hfuel.1 u) ?_
  intro r v hr
  rcases hr with rfl | rfl
  · have herange : (-ERANGE : ℤ) ≠ 0 := by decide
    exact ⟨hg, fun hret => absurd hret herange⟩
  · refine Prog.wpTotal_mono (found_targets rfl (some "sprint_symbol".toList)) ?_
    intro r w hr
    obtain rfl := hr
    exact ⟨⟨Or.inr rfl, hg.register, hg.unregister, hg.adrp⟩, fun _ => rfl⟩

theorem lkmBoostrap_targets (hg : I.Stores g) {fuel : ℕ} (hfuel : I.FuelLasts fuel) :
    (lkmBoostrap fuel g).wpTotal I.contract (fun r _ => Bootstrapped I r) t := by
  refine targets_ask trivial fun rk hrk => targets_ask trivial fun uk huk => ?_
  have hstores : I.Stores { g with registerKprobeFn := rk, unregisterKprobeFn := uk } :=
    ⟨hg.kallsyms, hrk, huk, hg.adrp⟩
  dsimp only
  split
  · exact targets_prInfo fun u => scanLabel_targets hstores hfuel
  · rename_i hpointers
    obtain ⟨hrk0, huk0⟩ := not_or.mp hpointers
    rw [Prog.bind_eq, Prog.wpTotal_bind]
    refine Prog.wpTotal_mono (kpKallsymsLookupName_targets (hrk.resolve_left hrk0)
      (huk.resolve_left huk0) hrk0 huk0 _) ?_
    intro r u hr
    obtain ⟨fn, g'⟩ := r
    obtain ⟨rfl, hfn⟩ := hr
    have hstores' : I.Stores ⟨fn, rk, uk, g.aarch64InsnAdrpGetOffsetFn⟩ :=
      ⟨hfn, hrk, huk, hg.adrp⟩
    dsimp only
    split
    · rename_i hfn0
      refine Prog.wpTotal_mono (found_targets (hfn.resolve_left hfn0) none) ?_
      intro r v hr
      obtain rfl := hr
      exact ⟨hstores', fun _ => hfn.resolve_left hfn0⟩
    · exact scanLabel_targets hstores' hfuel

/-- A handler is looked up, and searched if the kernel has it. -/
theorem resolveSvcHandler_targets
    (hg : g.kallsymsLookupNameFn = I.entry "kallsyms_lookup_name".toList)
    (ha : g.aarch64InsnAdrpGetOffsetFn = I.entry "aarch64_insn_adrp_get_offset".toList)
    {name : Text} (hname : name ∈ svcHandlers) {fuel : ℕ} (hfuel : I.FuelLasts fuel)
    (compatSym : Text) (scanDepth : Addr) :
    (resolveSvcHandler fuel g name compatSym scanDepth).wpTotal I.contract (fun _ _ => True) t := by
  refine targets_kallsymsLookupName hg fun target u htarget => ?_
  split
  · trivial
  · rename_i hnull
    obtain rfl := htarget.resolve_left hnull
    rw [Prog.bind_eq, Prog.wpTotal_bind]
    refine Prog.wpTotal_mono (getKsymSize_targets hname hnull _ _) ?_
    intro size v hsize
    obtain rfl := hsize
    refine targets_prInfo fun w => ?_
    rw [Prog.bind_eq, Prog.wpTotal_bind]
    refine Prog.wpTotal_mono (hunt_targets hname ha (hfuel.2 name hname) w) ?_
    intro ret _ _
    split <;> trivial

theorem huntSysCallTable_targets (hg : I.Stores g)
    (hfn : g.kallsymsLookupNameFn = I.entry "kallsyms_lookup_name".toList) {fuel : ℕ}
    (hfuel : I.FuelLasts fuel) (recent : Bool) :
    (huntSysCallTable fuel recent g).wpTotal I.contract (fun g' _ => I.Stores g') t := by
  refine targets_kallsymsLookupName hfn fun fn u hadrp => ?_
  have hstores : I.Stores { g with aarch64InsnAdrpGetOffsetFn := fn } :=
    ⟨hg.kallsyms, hg.register, hg.unregister, hadrp⟩
  dsimp only
  split
  · exact hstores
  · rename_i hfn0
    have hresolve := fun (name compat : Text) (hname : name ∈ svcHandlers) (depth : Addr)
        (v : KernelTranscript) =>
      @resolveSvcHandler_targets I { g with aarch64InsnAdrpGetOffsetFn := fn } v hfn
        (hadrp.resolve_left hfn0) name hname fuel hfuel compat depth
    split
    · rw [Prog.bind_eq, Prog.wpTotal_bind]
      refine Prog.wpTotal_mono (hresolve _ _ (by simp [svcHandlers]) _ _) fun ret v _ => ?_
      split
      · exact hstores
      · rw [Prog.bind_eq, Prog.wpTotal_bind]
        refine Prog.wpTotal_mono (hresolve _ _ (by simp [svcHandlers]) _ _) fun ret w _ => ?_
        split
        · exact hstores
        · rw [Prog.bind_eq, Prog.wpTotal_bind]
          exact Prog.wpTotal_mono (hresolve _ _ (by simp [svcHandlers]) _ _) fun _ _ _ => hstores
    · rw [Prog.bind_eq, Prog.wpTotal_bind]
      exact Prog.wpTotal_mono (hresolve _ _ (by simp [svcHandlers]) _ _) fun _ _ _ => hstores

theorem lkmTemplateInit_wp_targets (hg : I.Stores g) {fuel : ℕ} (hfuel : I.FuelLasts fuel)
    (recent : Bool) :
    (lkmTemplateInit fuel recent g).wpTotal I.contract
      (fun r _ => r.1 = -EAGAIN ∧ I.Stores r.2) t := by
  refine targets_prInfo fun u => ?_
  rw [Prog.bind_eq, Prog.wpTotal_bind]
  refine Prog.wpTotal_mono (lkmBoostrap_targets hg hfuel) ?_
  intro r v hr
  obtain ⟨ret, g'⟩ := r
  dsimp only
  split
  · rename_i hret
    rw [Prog.bind_eq, Prog.wpTotal_bind]
    refine Prog.wpTotal_mono (huntSysCallTable_targets hr.1 (hr.2 hret) hfuel recent) ?_
    intro g'' w hg''
    exact ⟨rfl, hg''⟩
  · exact ⟨rfl, hr.1⟩

end Module

/-- On a kernel whose answers are those of one image, however its lookups and reads fail: loading
the module comes to its end, with `-EAGAIN`. Every call through a pointer goes to the start of the
function the pointer is named after, every instruction word is read at a probe of the scan or
inside one of the handlers, and the pointers left behind are null or genuine. -/
theorem lkmTemplateInit_targets (I : KernelImage) {fuel : ℕ} (hfuel : I.FuelLasts fuel)
    (recent : Bool) {t : KernelTranscript} {q : KernelProg (ℤ × Globals)}
    (hr : (lkmTemplateInit fuel recent Globals.zero).Runs t q)
    (ht : ∀ e ∈ t, I.Answers e.1 e.2) :
    (∀ e ∈ t, I.Targets e.1) ∧ q ≠ .outOfFuel ∧ ∀ r, q = .ret r → r.1 = -EAGAIN ∧ I.Stores r.2 := by
  have hzero : I.Stores Globals.zero := ⟨Or.inl rfl, Or.inl rfl, Or.inl rfl, Or.inl rfl⟩
  have htotal := @lkmTemplateInit_wp_targets I Globals.zero [] hzero fuel hfuel recent
  have hwp := Prog.wp_of_wpTotal htotal
  refine ⟨?_, Prog.ne_outOfFuel_of_wpTotal htotal hr ht, ?_⟩
  · intro e he
    obtain ⟨u, v, rfl⟩ := List.append_of_mem he
    exact Prog.allowed_of_runs hwp hr ht
  · intro r hq
    obtain rfl := hq
    exact Prog.post_of_returns hwp hr ht

/-- The kernel of an image in which everything can be looked up and read. -/
def KernelImage.kernel (I : KernelImage) : Kernel where
  nofault _ _ := some 0
  symbolText := I.symbols.text
  sprintSymbolAddr := I.entry "sprint_symbol".toList
  exported := I.entry
  registration p := (0, I.entry p.symbolName)
  kallsyms name := name.elim 0 I.entry
  isAdrp _ := false
  adrpOffset _ := 0

theorem KernelImage.answers_kernel (I : KernelImage) (op : KernelCall) :
    I.Answers op (I.kernel.answer op) := by
  cases op with
  | sprintSymbol addr => rfl
  | addressOfSprintSymbol => rfl
  | symbolGet name => exact Or.inr rfl
  | viaRegisterKprobe fn p => exact fun _ => Or.inr rfl
  | viaKallsymsLookupName fn name =>
    cases name with
    | none => trivial
    | some name => exact Or.inr rfl
  | _ => trivial

theorem separators_notMem_el0Svc : '+' ∉ "el0_svc".toList ∧ '/' ∉ "el0_svc".toList := by
  decide

/-- `kallsyms_lookup_name` and a handler of two instruction words. -/
def twoSymbolMap : SymbolMap where
  symbolAt a :=
    if 0x100000000 ≤ a.toNat ∧ a.toNat < 0x100000000 + 64 then
      some ⟨"kallsyms_lookup_name".toList, 0x100000000, 64⟩
    else if 0x2000 ≤ a.toNat ∧ a.toNat < 0x2000 + 8 then some ⟨"el0_svc".toList, 0x2000, 8⟩
    else none
  inside := by
    intro a s h
    split at h
    · cases h
      assumption
    · split at h
      · cases h
        assumption
      · cases h
  clean := by
    intro a s h
    split at h
    · cases h
      exact separators_notMem_kallsymsLookupName
    · split at h
      · cases h
        exact separators_notMem_el0Svc
      · cases h

/-- An image with the kprobe functions, the decoder and one handler. -/
def kprobeImage : KernelImage where
  symbols := twoSymbolMap
  entry name :=
    if name = "kallsyms_lookup_name".toList then 0x100000000
    else if name = "register_kprobe".toList then 0x1000
    else if name = "unregister_kprobe".toList then 0x1100
    else if name = "aarch64_insn_adrp_get_offset".toList then 0x1200
    else if name = "el0_svc".toList then 0x2000
    else 0
  size name :=
    if name = "kallsyms_lookup_name".toList then 64 else if name = "el0_svc".toList then 8 else 0
  bootstrap := by
    constructor
    · intro a hlow hhigh
      exact if_pos ⟨hlow, hhigh⟩
    · intro a s h hname
      change (if _ then _ else if _ then _ else _) = _ at h
      split at h
      · assumption
      · split at h
        · cases h
          exact absurd hname (by decide)
        · cases h
  handler := by
    intro name hname hentry
    simp only [svcHandlers, List.mem_cons, List.not_mem_nil, or_false] at hname
    rcases hname with rfl | rfl | rfl
    · exact absurd rfl hentry
    · exact absurd rfl hentry
    · rfl
  handler_end := by
    intro name hname
    simp only [svcHandlers, List.mem_cons, List.not_mem_nil, or_false] at hname
    rcases hname with rfl | rfl | rfl <;> decide

/-- The kprobe finds `kallsyms_lookup_name`, and both words of the handler are read. -/
theorem lkmTemplateInit_targets_kprobeImage :
    ∃ t, (lkmTemplateInit 800008 false Globals.zero).Returns t
        (-EAGAIN, ⟨0x100000000, 0x1000, 0x1100, 0x1200⟩) ∧
      (∀ e ∈ t, kprobeImage.Targets e.1) ∧
      ∃ e ∈ t, e.1 = .copyFromKernelNofault 0x2004 4 := by
  obtain ⟨t, ht⟩ : ∃ t, t = ((lkmTemplateInit 800008 false Globals.zero).run
    kprobeImage.kernel.answer).2 := ⟨_, rfl⟩
  have hreturns : (lkmTemplateInit 800008 false Globals.zero).Returns t
      (-EAGAIN, ⟨0x100000000, 0x1000, 0x1100, 0x1200⟩) := by
    rw [ht]
    exact Prog.returns_of_run kprobeImage.kernel.answer rfl
  have hanswers : ∀ e ∈ t, kprobeImage.Answers e.1 e.2 := by
    intro e he
    rw [ht] at he
    rw [Prog.answer_of_run kprobeImage.kernel.answer he]
    exact kprobeImage.answers_kernel e.1
  have hfuel : kprobeImage.FuelLasts 800008 := by
    constructor
    · decide
    · intro name hname
      simp only [svcHandlers, List.mem_cons, List.not_mem_nil, or_false] at hname
      rcases hname with rfl | rfl | rfl <;> decide
  refine ⟨t, hreturns, (lkmTemplateInit_targets kprobeImage hfuel false hreturns hanswers).1, ?_⟩
  have hread : t[15]? = some ⟨KernelCall.copyFromKernelNofault 0x2004 4, some 0⟩ := by
    rw [ht]
    rfl
  exact ⟨_, List.mem_of_getElem? hread, rfl⟩

end VariousStuff.LkmTemplate
