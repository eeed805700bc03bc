import VariousStuff.LkmTemplateSafety
import VariousStuff.SymbolTexts

/-! # The verification at `found` and the two paths that lead to it

The array `sym` is initialised on the scan path only. The kprobe path jumps over its
declaration, so there the verification looks up a buffer without a determinate value. -/
namespace VariousStuff.LkmTemplate
open Interactive CStrings KernelNumerals KernelInterface
open KallsymsBootstrap SymbolSizeOffset

/-- The names looked up in the symbol table, with the addresses found. -/
def lookups (t : KernelTranscript) : List (Option Text × Addr) :=
  t.filterMap fun
    | ⟨.viaKallsymsLookupName _ name, addr⟩ => some (name, addr)
    | _ => none

/-- The calls made against `K` by `lkm_boostrap`. -/
def boostrapTranscript (K : Kernel) (fuel : ℕ) (g : Globals) : KernelTranscript :=
  ((lkmBoostrap fuel g).run K.answer).2

/-- Control reaches `found`: the only lookup of `lkm_boostrap` is the verification. -/
def ReachesFound (K : Kernel) (fuel : ℕ) (g : Globals) : Prop :=
  lookups (boostrapTranscript K fuel g) ≠ []

instance (K : Kernel) (fuel : ℕ) (g : Globals) : Decidable (ReachesFound K fuel g) :=
  inferInstanceAs (Decidable (lookups (boostrapTranscript K fuel g) ≠ []))

/-- Size and offset of an address, as computed from its symbol text. -/
def sizeOffset (K : Kernel) (addr : Addr) : ℤ × Option (BitVec 64) × Option (BitVec 64) :=
  if addr = 0 then (0, some 0, some 0) else parseSizeOffset (K.symbolText addr) (some 0) (some 0)

/-- The lines printed by a verification that found `verify`. -/
def verifyLine (verify : Addr) : KernelCall := .prInfo "verify result: 0x%lx \n" [lx verify]

def sizeOffsetLine (r : ℤ × Option (BitVec 64) × Option (BitVec 64)) : KernelCall :=
  .prInfo "compat_kallsyms_lookup_size_offset: ret: %d size: %lu offset: %lu \n"
    [.num r.1, lx (r.2.1.getD 0), lx (r.2.2.getD 0)]

/-- The verification looks up `sprint_symbol`, finds what the symbol table has for it,
and reports that address with its size and offset. -/
def VerifiesSprintSymbol (K : Kernel) (fuel : ℕ) (g : Globals) : Prop :=
  let verify := K.kallsyms (some "sprint_symbol".toList)
  (∀ p ∈ lookups (boostrapTranscript K fuel g), p = (some "sprint_symbol".toList, verify)) ∧
    ⟨verifyLine verify, ()⟩ ∈ boostrapTranscript K fuel g ∧
    ⟨sizeOffsetLine (sizeOffset K verify), ()⟩ ∈ boostrapTranscript K fuel g

/-- Both kprobe functions are exported, the kprobe on `kallsyms_lookup_name` can be
registered, and the kernel fills in its address. -/
def KprobePath (K : Kernel) : Prop :=
  K.exported "register_kprobe".toList ≠ 0 ∧ K.exported "unregister_kprobe".toList ≠ 0 ∧
    (K.registration ⟨"kallsyms_lookup_name".toList, 0⟩).1 = 0 ∧
    (K.registration ⟨"kallsyms_lookup_name".toList, 0⟩).2 ≠ 0

theorem lookups_append (t u : KernelTranscript) : lookups (t ++ u) = lookups t ++ lookups u :=
  List.filterMap_append

theorem lookups_eq_nil {t : KernelTranscript} (h : ∀ e ∈ t, e.1.pointer = none) :
    lookups t = [] := by
  refine List.filterMap_eq_nil_iff.mpr ?_
  rintro ⟨op, x⟩ he
  have hop := h _ he
  cases op <;> first | rfl | exact absurd hop nofun

/-! ## The scan makes no call through a pointer -/

section Pointerless

def Pointerless (op : KernelCall) : Prop := op.pointer = none

theorem foundCandidate_pointerless (anchor : Addr) (g : Globals) (s : Scan) (buf : Text) :
    (foundCandidate anchor g s buf).OnlyCalls Pointerless := by
  unfold foundCandidate
  cases strchr buf '/' with
  | none => trivial
  | some sl =>
    dsimp only
    cases strchr (buf.take sl) '+' with
    | none => trivial
    | some pl =>
      refine ⟨rfl, fun _ => ?_⟩
      simp only [Prog.ret_bind]
      cases kstrtoul ((buf.take sl).drop (pl + 1)) 0 with
      | error e => trivial
      | ok offset =>
        refine ⟨rfl, fun text => ?_⟩
        simp only [Prog.ret_bind]
        split
        · trivial
        · split
          · trivial
          · exact ⟨rfl, fun _ => trivial⟩

theorem startR_pointerless (anchor : Addr) (g : Globals) (s : Scan) :
    (startR anchor g s).OnlyCalls Pointerless := by
  unfold startR
  split
  · exact ⟨rfl, fun _ => trivial⟩
  · refine ⟨rfl, fun ibuf => ?_⟩
    simp only [Prog.ret_bind]
    split
    · trivial
    · refine ⟨rfl, fun buf => ?_⟩
      simp only [Prog.ret_bind]
      split
      · trivial
      · split
        · exact foundCandidate_pointerless anchor g s buf
        · trivial

theorem bootstrap_pointerless (fuel : ℕ) (g : Globals) (ptr : Addr) :
    (bootstrapKallsymsLookupName fuel g ptr).OnlyCalls Pointerless :=
  Prog.OnlyCalls.loop (startR_pointerless ptr g) fuel _

end Pointerless

/-! ## The two paths -/

theorem run_compat (K : Kernel) (addr : Addr) :
    ∃ t, (compatKallsymsLookupSizeOffset addr (some 0) (some 0)).run K.answer =
      (some (sizeOffset K addr), t) ∧ lookups t = [] := by
  by_cases h : addr = 0
  · exact ⟨[], by simp [compatKallsymsLookupSizeOffset, sizeOffset, h], rfl⟩
  · refine ⟨[⟨.sprintSymbol addr, K.symbolText addr⟩], ?_, rfl⟩
    have hguard : ¬ (addr = 0 ∨ (some (0 : BitVec 64)).isNone ∨ (some (0 : BitVec 64)).isNone) := by
      simpa using h
    rw [compatKallsymsLookupSizeOffset, if_neg hguard, sizeOffset, if_neg h]
    rfl

theorem run_found (K : Kernel) (g : Globals) (sym : Option Text) :
    ∃ t, (found g sym).run K.answer = (some (0, g), t) ∧ lookups t = [(sym, K.kallsyms sym)] ∧
      ⟨verifyLine (K.kallsyms sym), ()⟩ ∈ t ∧
      ⟨sizeOffsetLine (sizeOffset K (K.kallsyms sym)), ()⟩ ∈ t := by
  obtain ⟨t, hrun, ht⟩ := run_compat K (K.kallsyms sym)
  refine ⟨⟨.viaKallsymsLookupName g.kallsymsLookupNameFn sym, K.kallsyms sym⟩ ::
    ⟨verifyLine (K.kallsyms sym), ()⟩ ::
    (t ++ [⟨sizeOffsetLine (sizeOffset K (K.kallsyms sym)), ()⟩]), ?_, ?_, by simp, by simp⟩
  · simp only [found, kallsymsLookupName, Prog.bind_eq, Prog.ask_bind, prInfo_bind, Prog.run_call,
      Kernel.answer]
    rw [Prog.run_bind K.answer hrun]
    rfl
  · change (sym, K.kallsyms sym) :: lookups (t ++ _) = _
    rw [lookups_append, ht]
    rfl

/-- The scan path verifies `sprint_symbol`, or does not get as far as the verification. -/
theorem run_scanLabel (K : Kernel) (fuel : ℕ) (g : Globals) :
    lookups ((scanLabel fuel g).run K.answer).2 = [] ∨
      ∃ g' t u, ((scanLabel fuel g).run K.answer).2 = t ++ u ∧ lookups t = [] ∧
        (found g' (some "sprint_symbol".toList)).run K.answer = (some (0, g'), u) := by
  have hlookups : lookups ((bootstrapKallsymsLookupName fuel g K.sprintSymbolAddr).run
      K.answer).2 = [] :=
    lookups_eq_nil fun e he => (bootstrap_pointerless fuel g _).of_mem_run K.answer he
  cases hrun : (bootstrapKallsymsLookupName fuel g K.sprintSymbolAddr).run K.answer with
  | mk r t =>
    rw [hrun] at hlookups
    simp only [scanLabel, Prog.bind_eq, Prog.ask_bind, prInfo_bind, Prog.run_call, Kernel.answer]
    cases r with
    | none =>
      left
      rw [Prog.run_bind_of_none K.answer hrun]
      exact hlookups
    | some r =>
      obtain ⟨ret, g'⟩ := r
      rw [Prog.run_bind K.answer hrun]
      by_cases hret : ret = 0
      · right
        obtain ⟨u, hu, -⟩ := run_found K g' (some "sprint_symbol".toList)
        simp only [hret, ne_eq, not_true_eq_false, if_false, hu]
        exact ⟨g', _ :: _ :: t, u, rfl, hlookups, hu⟩
      · left
        simp only [hret, ne_eq, not_false_eq_true, if_true, Prog.pure_eq, Prog.run_ret,
          List.append_nil]
        exact hlookups

theorem run_kpKallsymsLookupName (K : Kernel) {g : Globals} (hr : g.registerKprobeFn ≠ 0)
    (hu : g.unregisterKprobeFn ≠ 0) (name : Text) :
    ∃ t, (kpKallsymsLookupName g name).run K.answer =
      (some (if (K.registration ⟨name, 0⟩).1 = 0 then (K.registration ⟨name, 0⟩).2 else 0, g), t) ∧
      lookups t = [] := by
  simp only [kpKallsymsLookupName, registerKprobe, unregisterKprobe, hr, hu, if_false,
    Prog.bind_eq, Prog.pure_eq, Prog.ret_bind, Prog.ask_bind, Prog.call_bind, Prog.run_call,
    Kernel.answer]
  by_cases hret : (K.registration ⟨name, 0⟩).1 = 0
  · simp only [hret, ne_eq, not_true_eq_false, if_false, if_true]
    exact ⟨_, rfl, rfl⟩
  · simp only [hret, ne_eq, not_false_eq_true, if_false, if_true]
    exact ⟨_, rfl, rfl⟩

/-- The kprobe path verifies with the array it has jumped over. -/
theorem run_lkmBoostrap_of_kprobePath {K : Kernel} (h : KprobePath K) (fuel : ℕ) (g : Globals) :
    ∃ g' t u, boostrapTranscript K fuel g = t ++ u ∧ lookups t = [] ∧
      (found g' none).run K.answer = (some (0, g'), u) := by
  obtain ⟨hrk, huk, hret, haddr⟩ := h
  obtain ⟨t, hkp, ht⟩ := run_kpKallsymsLookupName K (g := { g with
    registerKprobeFn := K.exported "register_kprobe".toList
    unregisterKprobeFn := K.exported "unregister_kprobe".toList }) hrk huk
    "kallsyms_lookup_name".toList
  obtain ⟨u, hu, -⟩ := run_found K ⟨(K.registration ⟨"kallsyms_lookup_name".toList, 0⟩).2,
    K.exported "register_kprobe".toList, K.exported "unregister_kprobe".toList,
    g.aarch64InsnAdrpGetOffsetFn⟩ none
  refine ⟨_, ⟨.symbolGet "register_kprobe".toList, K.exported "register_kprobe".toList⟩ ::
    ⟨.symbolGet "unregister_kprobe".toList, K.exported "unregister_kprobe".toList⟩ :: t,
    u, ?_, ht, hu⟩
  simp only [boostrapTranscript, lkmBoostrap, Prog.bind_eq, Prog.ask_bind, Prog.run_call,
    Kernel.answer, hrk, huk, or_self, if_false]
  rw [Prog.run_bind K.answer hkp]
  simp only [hret, if_true, ne_eq, haddr, not_false_eq_true, hu]
  rfl

theorem run_lkmBoostrap_of_not_kprobePath {K : Kernel} (h : ¬ KprobePath K) (fuel : ℕ) (g : Globals) :
    ∃ g' t, boostrapTranscript K fuel g = t ++ ((scanLabel fuel g').run K.answer).2 ∧
      lookups t = [] := by
  simp only [boostrapTranscript, lkmBoostrap, Prog.bind_eq, Prog.ask_bind, Prog.run_call,
    Kernel.answer]
  by_cases hmissing : K.exported "register_kprobe".toList = 0 ∨
      K.exported "unregister_kprobe".toList = 0
  · simp only [hmissing, if_true, prInfo_bind, Prog.run_call]
    exact ⟨_, [_, _, _], rfl, rfl⟩
  · obtain ⟨hrk, huk⟩ := not_or.mp hmissing
    obtain ⟨t, hkp, ht⟩ := run_kpKallsymsLookupName K (g := { g with
      registerKprobeFn := K.exported "register_kprobe".toList
      unregisterKprobeFn := K.exported "unregister_kprobe".toList }) hrk huk
      "kallsyms_lookup_name".toList
    have hzero : (if (K.registration ⟨"kallsyms_lookup_name".toList, 0⟩).1 = 0 then
        (K.registration ⟨"kallsyms_lookup_name".toList, 0⟩).2 else 0) = 0 := by
      split
      · rename_i hret
        by_contra haddr
        exact h ⟨hrk, huk, hret, haddr⟩
      · rfl
    simp only [hmissing, if_false]
    rw [Prog.run_bind K.answer hkp]
    simp only [hzero, ne_eq, not_true_eq_false, if_false]
    exact ⟨_, _ :: _ :: t, rfl, ht⟩

/-- Whenever `found` is reached, the verification is that of `sprint_symbol` exactly if
the kprobe path was not the one that led there. -/
theorem lkmBoostrap_verifies_iff (K : Kernel) (fuel : ℕ) (g : Globals)
    (hfound : ReachesFound K fuel g) : VerifiesSprintSymbol K fuel g ↔ ¬ KprobePath K := by
  constructor
  · rintro ⟨hname, -, -⟩ hpath
    obtain ⟨g', t, u, htrans, ht, hu⟩ := run_lkmBoostrap_of_kprobePath hpath fuel g
    obtain ⟨u', hu', hlookups, -⟩ := run_found K g' none
    obtain rfl : u = u' := congrArg Prod.snd (hu.symm.trans hu')
    have hnone := hname (none, K.kallsyms none) (by simp [htrans, lookups_append, ht, hlookups])
    exact absurd (congrArg Prod.fst hnone) nofun
  · intro hpath
    obtain ⟨g', t, htrans, ht⟩ := run_lkmBoostrap_of_not_kprobePath hpath fuel g
    rcases run_scanLabel K fuel g' with hnone | ⟨g'', v, u, hscan, hv, hu⟩
    · exact absurd (by rw [htrans, lookups_append, ht, hnone, List.append_nil]) hfound
    · obtain ⟨u', hu', hlookups, hverify, hsize⟩ := run_found K g'' (some "sprint_symbol".toList)
      obtain rfl : u = u' := congrArg Prod.snd (hu.symm.trans hu')
      rw [hscan] at htrans
      refine ⟨?_, ?_, ?_⟩
      · intro p hp
        rw [htrans, lookups_append, lookups_append, ht, hv, hlookups] at hp
        exact List.mem_singleton.mp hp
      · rw [htrans]
        exact List.mem_append_right _ (List.mem_append_right _ hverify)
      · rw [htrans]
        exact List.mem_append_right _ (List.mem_append_right _ hsize)

/-- A kernel without exported kprobe functions, where the first probe already succeeds. -/
def firstProbeKernel : Kernel :=
  readableKernel fun _ => SymbolTexts.symbolText "kallsyms_lookup_name".toList 0 64

theorem lkmBoostrap_verifies_firstProbeKernel : VerifiesSprintSymbol firstProbeKernel 1 Globals.zero :=
  (lkmBoostrap_verifies_iff firstProbeKernel 1 Globals.zero (by decide)).mpr fun h => h.1 rfl

/-- On a kernel with working kprobes the verification does not look up `sprint_symbol`. -/
theorem lkmBoostrap_verifies_wrong_name :
    ReachesFound kprobeKernel 0 Globals.zero ∧ ¬ VerifiesSprintSymbol kprobeKernel 0 Globals.zero := by
  refine ⟨by decide, ?_⟩
  rintro ⟨hname, -, -⟩
  have hnone := hname (none, 0) (by decide)
  exact absurd (congrArg Prod.fst hnone) nofun

end VariousStuff.LkmTemplate
