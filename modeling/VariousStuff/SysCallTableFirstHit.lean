import VariousStuff.LexicographicSearch
import VariousStuff.SysCallTableHunt

/-! # The hunt reports the first hit, and only that

The hunt is compared with a plan of the words and slots it would examine if nothing
matched. Which sites are in the plan depends on the instruction words alone, and the
hunt works through it up to the first hit. -/
namespace VariousStuff.SysCallTableHunt
open Interactive CStrings KernelNumerals KernelInterface LexicographicSearch

/-! ## Hits -/

/-- The address of the `i`-th instruction word. -/
def wordAddr (start : Addr) (i : ℕ) : Addr := start + BitVec.ofNat 64 (4 * i)

/-- The address of the `k`-th slot behind an ADRP target. -/
def slotAddr (tgt : Addr) (k : ℕ) : Addr := tgt + BitVec.ofNat 64 (8 * k)

theorem wordAddr_zero (start : Addr) : wordAddr start 0 = start := by simp [wordAddr]

theorem slotAddr_zero (tgt : Addr) : slotAddr tgt 0 = tgt := by simp [slotAddr]

theorem wordAddr_succ (start : Addr) (i : ℕ) : wordAddr start i + 4 = wordAddr start (i + 1) := by
  simp only [wordAddr]
  bv_omega

theorem slotAddr_succ (tgt : Addr) (k : ℕ) : slotAddr tgt k + 8 = slotAddr tgt (k + 1) := by
  simp only [slotAddr]
  bv_omega

theorem wordAddr_add_four (start : Addr) (i : ℕ) : wordAddr (start + 4) i = wordAddr start (i + 1) := by
  rw [← wordAddr_succ, wordAddr, wordAddr, BitVec.add_assoc, BitVec.add_comm 4, ← BitVec.add_assoc]

theorem slotAddr_add_eight (tgt : Addr) (k : ℕ) : slotAddr (tgt + 8) k = slotAddr tgt (k + 1) := by
  rw [← slotAddr_succ, slotAddr, slotAddr, BitVec.add_assoc, BitVec.add_comm 8, ← BitVec.add_assoc]

/-- Word `i` is an ADRP, and slot `k` behind its target holds the readable pointer `p`,
whose symbol text names `sys_io_setup`. -/
structure Hit (K : Kernel) (start : Addr) (depth i k : ℕ) (slot p : Addr) : Prop where
  word_lt : 4 * i < depth
  slot_le : k ≤ 512
  adrp : ∃ rawInsn, K.nofault (wordAddr start i) 4 = some rawInsn ∧ K.isAdrp rawInsn = true ∧
    slot = slotAddr ((wordAddr start i &&& ~~~0xFFF) + (K.adrpOffset rawInsn).signExtend 64) k
  slot_holds : K.nofault slot 8 = some p
  readable : K.nofault p 8 ≠ none
  nonempty : 0 < (K.symbolText p).length
  named : "sys_io_setup".toList <:+: K.symbolText p

/-- The lexicographically first hit. -/
def FirstHit (K : Kernel) (start : Addr) (depth i k : ℕ) (slot p : Addr) : Prop :=
  Hit K start depth i k slot p ∧
    ∀ i' k' slot' p', Hit K start depth i' k' slot' p' → i < i' ∨ i = i' ∧ k ≤ k'

/-! ## The plan -/

/-- What the hunt examines: an instruction word, or a slot behind an ADRP target. -/
inductive Site where
  | word (insnP : Addr)
  | slot (curr : Addr)
  deriving DecidableEq

/-- Where the word at `insnP` points to, if it is a readable ADRP. -/
def adrpTarget (K : Kernel) (insnP : Addr) : Option Addr :=
  (K.nofault insnP 4).bind fun rawInsn =>
    if K.isAdrp rawInsn = true then
      some ((insnP &&& ~~~0xFFF) + (K.adrpOffset rawInsn).signExtend 64)
    else none

/-- The pointer in the slot at `curr`, if it is readable and its text has the wanted name. -/
def slotPointer (K : Kernel) (curr : Addr) : Option Addr :=
  (K.nofault curr 8).bind fun pbuf =>
    if (K.nofault pbuf 8).isSome ∧ 0 < (K.symbolText pbuf).length ∧
      strstr (K.symbolText pbuf) "sys_io_setup".toList then some pbuf else none

/-- A word matches nothing by itself; a slot may hold the wanted pointer. -/
def siteHit (K : Kernel) : Site → Option (Addr × Addr)
  | .word _ => none
  | .slot curr => (slotPointer K curr).map fun p => (curr, p)

def slots (tgt : Addr) (n : ℕ) : List Site := (List.range n).map fun k => .slot (slotAddr tgt k)

/-- A word, and the slots behind it if it is an ADRP. -/
def block (K : Kernel) (insnP : Addr) : List Site :=
  .word insnP :: match adrpTarget K insnP with
    | some tgt => slots tgt (maxTries + 1)
    | none => []

/-- The sites behind the first `n` words. -/
def plan (K : Kernel) (start : Addr) (n : ℕ) : List Site :=
  (List.range n).flatMap fun i => block K (wordAddr start i)

/-! ## What a run shows -/

/-- The reads of a site: the pointee is read if the slot is readable. -/
def siteReads (K : Kernel) : Site → List (Addr × ℕ)
  | .word insnP => [(insnP, 4)]
  | .slot curr => (curr, 8) :: ((K.nofault curr 8).map fun pbuf : Addr => (pbuf, 8)).toList

/-- The reads of a transcript, with their sizes. -/
def reads (t : KernelTranscript) : List (Addr × ℕ) :=
  t.filterMap fun
    | ⟨.copyFromKernelNofault src size, _⟩ => some (src, size)
    | _ => none

def reportFormat : String := "symbol: %s @ 0x%lx &sys_call_table[0]: 0x%lx\n"

/-- The arguments of the reports of a transcript. -/
def reports (t : KernelTranscript) : List (List PrintArg) :=
  t.filterMap fun
    | ⟨.prInfo format args, _⟩ => if format = reportFormat then some args else none
    | _ => none

/-- The arguments that report the slot `curr` holding `p`. -/
def reportArgs (K : Kernel) (curr p : Addr) : List PrintArg := [.str (K.symbolText p), lx p, lx curr]

theorem reads_append (t u : KernelTranscript) : reads (t ++ u) = reads t ++ reads u :=
  List.filterMap_append

theorem reports_append (t u : KernelTranscript) : reports (t ++ u) = reports t ++ reports u :=
  List.filterMap_append

/-- The returned value after a search that found `r`. -/
def returnCode : Option (Addr × Addr) → ℤ
  | some _ => 0
  | none => -ERANGE

/-- From the label `pc` on, a run with at least `bound` rounds works through `sites`
up to the first hit, and reports that hit alone. -/
def Hunts (K : Kernel) (g : Globals) (insnEnd : Addr) (bound : ℕ) (pc : Pc) (sites : List Site) :
    Prop :=
  ∀ fuel ≥ bound, ∃ t, K.Yields (Prog.loop (step g insnEnd) fuel pc)
      (returnCode (sites.findSome? (siteHit K))) t ∧
    reads t = (throughFirst (siteHit K) sites).flatMap (siteReads K) ∧
    reports t = ((sites.findSome? (siteHit K)).map fun h => reportArgs K h.1 h.2).toList

section Rounds
variable {K : Kernel} {g : Globals} {insnEnd insnP curr : Addr} {tries : ℕ}

theorem scan_round (h : insnP < insnEnd) :
    ∃ t, K.Yields (scan g insnEnd insnP) (.inl (match adrpTarget K insnP with
        | some tgt => .scanPg insnP tgt 0
        | none => .scan (insnP + 4))) t ∧
      reads t = [(insnP, 4)] ∧ reports t = [] := by
  have hguard : ¬ insnEnd ≤ insnP := BitVec.not_le.mpr h
  rw [scan, if_neg hguard, adrpTarget]
  cases hread : K.nofault insnP 4 with
  | none =>
    refine ⟨[⟨.copyFromKernelNofault insnP 4, none⟩], ?_, rfl, rfl⟩
    rw [Kernel.Yields, Prog.bind_eq, run_copyFromKernelNofault, hread]
    rfl
  | some rawInsn =>
    cases hadrp : K.isAdrp rawInsn with
    | false =>
      refine ⟨[⟨.copyFromKernelNofault insnP 4, some rawInsn⟩, ⟨.aarch64InsnIsAdrp rawInsn, false⟩],
        ?_, rfl, rfl⟩
      rw [Kernel.Yields, Prog.bind_eq, run_copyFromKernelNofault, hread]
      simp [Prog.run_call, Kernel.answer, hadrp, incrementAdrp]
    | true =>
      refine ⟨[⟨.copyFromKernelNofault insnP 4, some rawInsn⟩, ⟨.aarch64InsnIsAdrp rawInsn, true⟩,
        ⟨.prInfo "0x%lx insn is adrp! .inst 0x%lx \n" [lx insnP, .num rawInsn.toNat], ()⟩,
        ⟨.viaAarch64InsnAdrpGetOffset g.aarch64InsnAdrpGetOffsetFn rawInsn, K.adrpOffset rawInsn⟩,
        ⟨.prInfo "tgt: 0x%lx \n"
          [lx ((insnP &&& ~~~0xFFF) + (K.adrpOffset rawInsn).signExtend 64)], ()⟩], ?_, rfl, rfl⟩
      rw [Kernel.Yields, Prog.bind_eq, run_copyFromKernelNofault, hread]
      simp [Prog.run_call, Kernel.answer, hadrp]

theorem siteReads_of_none (h : K.nofault curr 8 = none) : siteReads K (.slot curr) = [(curr, 8)] := by
  rw [siteReads, h]
  rfl

theorem siteReads_of_some {pbuf : Addr} (h : K.nofault curr 8 = some pbuf) :
    siteReads K (.slot curr) = [(curr, 8), (pbuf, 8)] := by
  rw [siteReads, h]
  rfl

theorem scanPg_round_hit (insnP : Addr) {p : Addr} (htries : tries ≤ maxTries)
    (h : slotPointer K curr = some p) :
    ∃ t, K.Yields (scanPg insnP curr tries) (.inr 0) t ∧
      reads t = siteReads K (.slot curr) ∧ reports t = [reportArgs K curr p] := by
  have hguard : ¬ tries > maxTries := Nat.not_lt.mpr htries
  obtain ⟨pbuf, hslot, hmatch⟩ := Option.bind_eq_some_iff.mp h
  obtain ⟨⟨hpointee, hlen, hnamed⟩, hp⟩ := Option.ite_none_right_eq_some.mp hmatch
  obtain rfl : pbuf = p := Option.some.inj hp
  obtain ⟨dummy, hdummy⟩ := Option.isSome_iff_exists.mp hpointee
  refine ⟨[⟨.copyFromKernelNofault curr 8, some pbuf⟩, ⟨.copyFromKernelNofault pbuf 8, some dummy⟩,
    ⟨.sprintSymbol pbuf, K.symbolText pbuf⟩, ⟨.prInfo reportFormat (reportArgs K curr pbuf), ()⟩],
    ?_, (siteReads_of_some hslot).symm, rfl⟩
  rw [Kernel.Yields, scanPg, if_neg hguard, Prog.bind_eq, run_copyFromKernelNofault, hslot]
  simp only [Prog.bind_eq, run_copyFromKernelNofault, hdummy, run_sprintSymbol, run_prInfo,
    Option.isNone_some, Bool.false_eq_true, hlen, hnamed, not_true_eq_false, if_false]
  rfl

/-- A slot whose pointee is readable is passed over for its text. -/
theorem not_named_of_slotPointer {pbuf : Addr} {dummy : BitVec (8 * 8)}
    (hslot : K.nofault curr 8 = some pbuf) (hpointee : K.nofault pbuf 8 = some dummy)
    (h : slotPointer K curr = none) : ¬ (0 < (K.symbolText pbuf).length ∧
      strstr (K.symbolText pbuf) "sys_io_setup".toList = true) := by
  intro hboth
  have hsome : slotPointer K curr = some pbuf := by
    rw [slotPointer, hslot, Option.bind_some, if_pos ⟨by rw [hpointee]; rfl, hboth⟩]
  rw [h] at hsome
  cases hsome

theorem scanPg_round_miss (insnP : Addr) (htries : tries ≤ maxTries) (h : slotPointer K curr = none) :
    ∃ t, K.Yields (scanPg insnP curr tries) (.inl (incrementPgP insnP curr tries)) t ∧
      reads t = siteReads K (.slot curr) ∧ reports t = [] := by
  have hguard : ¬ tries > maxTries := Nat.not_lt.mpr htries
  rw [scanPg, if_neg hguard]
  cases hslot : K.nofault curr 8 with
  | none =>
    refine ⟨[⟨.copyFromKernelNofault curr 8, none⟩], ?_, (siteReads_of_none hslot).symm, rfl⟩
    rw [Kernel.Yields, Prog.bind_eq, run_copyFromKernelNofault, hslot]
    rfl
  | some pbuf =>
    cases hpointee : K.nofault pbuf 8 with
    | none =>
      refine ⟨[⟨.copyFromKernelNofault curr 8, some pbuf⟩, ⟨.copyFromKernelNofault pbuf 8, none⟩],
        ?_, (siteReads_of_some hslot).symm, rfl⟩
      rw [Kernel.Yields, Prog.bind_eq, run_copyFromKernelNofault, hslot]
      simp only [Prog.bind_eq, run_copyFromKernelNofault, hpointee, Option.isNone_none, if_true]
      rfl
    | some dummy =>
      have htext := not_named_of_slotPointer hslot hpointee h
      refine ⟨[⟨.copyFromKernelNofault curr 8, some pbuf⟩,
        ⟨.copyFromKernelNofault pbuf 8, some dummy⟩, ⟨.sprintSymbol pbuf, K.symbolText pbuf⟩],
        ?_, (siteReads_of_some hslot).symm, rfl⟩
      rw [Kernel.Yields, Prog.bind_eq, run_copyFromKernelNofault, hslot]
      simp only [Prog.bind_eq, run_copyFromKernelNofault, hpointee, run_sprintSymbol,
        Option.isNone_some, Bool.false_eq_true, if_false]
      by_cases hlen : 0 < (K.symbolText pbuf).length
      · have hnamed : ¬ strstr (K.symbolText pbuf) "sys_io_setup".toList = true := fun hnamed =>
          htext ⟨hlen, hnamed⟩
        rw [if_neg (not_not_intro hlen), if_pos hnamed]
        rfl
      · rw [if_pos hlen]
        rfl

end Rounds

/-! ## The rules of the hunt -/

section Rules
variable {K : Kernel} {g : Globals} {insnEnd insnP curr : Addr} {tries bound : ℕ}
  {sites : List Site}

theorem hunts_end (h : insnEnd ≤ insnP) : Hunts K g insnEnd 1 (.scan insnP) [] := by
  intro fuel hfuel
  obtain ⟨rest, rfl⟩ : ∃ rest, fuel = rest + 1 := ⟨fuel - 1, by omega⟩
  refine ⟨[], Prog.run_loop_inr K.answer ?_ rest, rfl, rfl⟩
  rw [step, scan, if_pos h]
  rfl

/-- A round that goes on to `pc'` leaves the remaining sites to it. -/
theorem hunts_round {pc pc' : Pc} {site : Site} {t : KernelTranscript}
    (hround : K.Yields (step g insnEnd pc) (.inl pc') t) (hreads : reads t = siteReads K site)
    (hreports : reports t = []) (hmiss : siteHit K site = none)
    (h : Hunts K g insnEnd bound pc' sites) : Hunts K g insnEnd (bound + 1) pc (site :: sites) := by
  intro fuel hfuel
  obtain ⟨rest, rfl⟩ : ∃ rest, fuel = rest + 1 := ⟨fuel - 1, by omega⟩
  obtain ⟨u, hrun, hureads, hureports⟩ := h rest (by omega)
  refine ⟨t ++ u, ?_, ?_, ?_⟩
  · rw [Kernel.Yields, Prog.run_loop_inl K.answer hround rest, hrun, List.findSome?_cons, hmiss]
  · rw [reads_append, hreads, hureads, throughFirst_of_none hmiss, List.flatMap_cons]
  · rw [reports_append, hreports, hureports, List.findSome?_cons, hmiss, List.nil_append]

theorem hunts_word_adrp {tgt : Addr} (hlt : insnP < insnEnd) (htgt : adrpTarget K insnP = some tgt)
    (h : Hunts K g insnEnd bound (.scanPg insnP tgt 0) sites) :
    Hunts K g insnEnd (bound + 1) (.scan insnP) (.word insnP :: sites) := by
  obtain ⟨t, hrun, hreads, hreports⟩ := scan_round (K := K) (g := g) hlt
  rw [htgt] at hrun
  exact hunts_round hrun hreads hreports rfl h

theorem hunts_word_other (hlt : insnP < insnEnd) (htgt : adrpTarget K insnP = none)
    (h : Hunts K g insnEnd bound (.scan (insnP + 4)) sites) :
    Hunts K g insnEnd (bound + 1) (.scan insnP) (.word insnP :: sites) := by
  obtain ⟨t, hrun, hreads, hreports⟩ := scan_round (K := K) (g := g) hlt
  rw [htgt] at hrun
  exact hunts_round hrun hreads hreports rfl h

theorem hunts_slot_hit {p : Addr} (htries : tries ≤ maxTries) (hp : slotPointer K curr = some p) :
    Hunts K g insnEnd 1 (.scanPg insnP curr tries) (.slot curr :: sites) := by
  have hhit : siteHit K (.slot curr) = some (curr, p) := by rw [siteHit, hp, Option.map_some]
  intro fuel hfuel
  obtain ⟨rest, rfl⟩ : ∃ rest, fuel = rest + 1 := ⟨fuel - 1, by omega⟩
  obtain ⟨t, hrun, hreads, hreports⟩ := scanPg_round_hit insnP htries hp
  have hround : K.Yields (step g insnEnd (.scanPg insnP curr tries)) (.inr 0) t := hrun
  refine ⟨t, ?_, ?_, ?_⟩
  · rw [List.findSome?_cons, hhit]
    exact Prog.run_loop_inr K.answer hround rest
  · rw [hreads, throughFirst_of_some hhit, List.flatMap_singleton]
  · rw [hreports, List.findSome?_cons, hhit]
    rfl

theorem hunts_slot_miss (htries : tries ≤ maxTries) (hp : slotPointer K curr = none)
    (h : Hunts K g insnEnd bound (.scanPg insnP (curr + 8) (tries + 1)) sites) :
    Hunts K g insnEnd (bound + 1) (.scanPg insnP curr tries) (.slot curr :: sites) := by
  obtain ⟨t, hrun, hreads, hreports⟩ := scanPg_round_miss insnP htries hp
  refine hunts_round hrun hreads hreports ?_ h
  rw [siteHit, hp, Option.map_none]

/-- Behind the last slot the hunt resumes at the next word. -/
theorem hunts_page_end (htries : maxTries < tries)
    (h : Hunts K g insnEnd bound (.scan (insnP + 4)) sites) :
    Hunts K g insnEnd (bound + 1) (.scanPg insnP curr tries) sites := by
  have hround : K.Yields (step g insnEnd (.scanPg insnP curr tries)) (.inl (.scan (insnP + 4))) [] := by
    rw [step, scanPg, if_pos htries]
    rfl
  intro fuel hfuel
  obtain ⟨rest, rfl⟩ : ∃ rest, fuel = rest + 1 := ⟨fuel - 1, by omega⟩
  obtain ⟨u, hrun, hu⟩ := h rest (by omega)
  refine ⟨u, ?_, hu⟩
  rw [Kernel.Yields, Prog.run_loop_inl K.answer hround rest, hrun, List.nil_append]

theorem slots_succ (tgt : Addr) (n : ℕ) : slots tgt (n + 1) = .slot tgt :: slots (tgt + 8) n := by
  rw [slots, List.range_succ_eq_map, List.map_cons, List.map_map, slots, slotAddr_zero]
  simp only [Function.comp_def, slotAddr_add_eight]

theorem hunts_slots {n : ℕ} (htries : tries + n = maxTries + 1)
    (h : Hunts K g insnEnd bound (.scan (insnP + 4)) sites) :
    Hunts K g insnEnd (bound + 1 + n) (.scanPg insnP curr tries) (slots curr n ++ sites) := by
  induction n generalizing curr tries with
  | zero => exact hunts_page_end (by omega) h
  | succ n ih =>
    rw [slots_succ, List.cons_append]
    cases hp : slotPointer K curr with
    | some p =>
      intro fuel hfuel
      exact hunts_slot_hit (by omega) hp fuel (by omega)
    | none => exact hunts_slot_miss (by omega) hp (ih (by omega))

theorem plan_succ (K : Kernel) (start : Addr) (n : ℕ) :
    plan K start (n + 1) = block K start ++ plan K (start + 4) n := by
  rw [plan, List.range_succ_eq_map, List.flatMap_cons, List.flatMap_map, plan, wordAddr_zero]
  simp only [wordAddr_add_four]

/-- The rounds that one word can take: itself, its slots, and the way back. -/
def wordRounds : ℕ := maxTries + 3

theorem hunts_words (g : Globals) (n : ℕ) {insnEnd insnP : Addr}
    (hn : insnEnd.toNat ≤ insnP.toNat + 4 * n)
    (hlast : insnP.toNat + 4 * n < insnEnd.toNat + 4) (hend : insnEnd.toNat < 2 ^ 64 - 4) :
    Hunts K g insnEnd (wordRounds * n + 1) (.scan insnP) (plan K insnP n) := by
  induction n generalizing insnP with
  | zero => exact hunts_end (by bv_omega)
  | succ n ih =>
    have hlt : insnP < insnEnd := by bv_omega
    have hnext : (insnP + 4).toNat = insnP.toNat + 4 := by bv_omega
    have hrest := @ih (insnP + 4) (by omega) (by omega)
    have hbound : wordRounds * (n + 1) + 1 = wordRounds * n + 1 + 1 + (maxTries + 1) + 1 := by
      rw [Nat.mul_succ, wordRounds]
      omega
    rw [plan_succ, block]
    cases htgt : adrpTarget K insnP with
    | none =>
      intro fuel hfuel
      exact hunts_word_other hlt htgt hrest fuel (by omega)
    | some tgt =>
      rw [hbound]
      exact hunts_word_adrp hlt htgt (hunts_slots (Nat.zero_add _) hrest)

end Rules

/-! ## The first hit of the plan -/

section Plan
variable {K : Kernel} {start : Addr}

/-- What the slot `k` behind word `i` holds. -/
def hitAt (K : Kernel) (start : Addr) (i k : ℕ) : Option (Addr × Addr) :=
  (adrpTarget K (wordAddr start i)).bind fun tgt => siteHit K (.slot (slotAddr tgt k))

theorem slotPointer_eq_some_iff {curr p : Addr} :
    slotPointer K curr = some p ↔ K.nofault curr 8 = some p ∧ K.nofault p 8 ≠ none ∧
      0 < (K.symbolText p).length ∧ "sys_io_setup".toList <:+: K.symbolText p := by
  rw [slotPointer, Option.bind_eq_some_iff]
  constructor
  · rintro ⟨pbuf, hslot, hmatch⟩
    obtain ⟨⟨hpointee, hlen, hnamed⟩, hp⟩ := Option.ite_none_right_eq_some.mp hmatch
    obtain rfl : pbuf = p := Option.some.inj hp
    exact ⟨hslot, Option.isSome_iff_ne_none.mp hpointee, hlen, (strstr_iff _ _).mp hnamed⟩
  · rintro ⟨hslot, hpointee, hlen, hnamed⟩
    exact ⟨p, hslot, if_pos ⟨Option.isSome_iff_ne_none.mpr hpointee, hlen,
      (strstr_iff _ _).mpr hnamed⟩⟩

theorem adrpTarget_eq_some_iff {insnP tgt : Addr} :
    adrpTarget K insnP = some tgt ↔ ∃ rawInsn, K.nofault insnP 4 = some rawInsn ∧
      K.isAdrp rawInsn = true ∧
      (insnP &&& ~~~0xFFF) + (K.adrpOffset rawInsn).signExtend 64 = tgt := by
  rw [adrpTarget, Option.bind_eq_some_iff]
  refine exists_congr fun rawInsn => and_congr_right fun _ => ?_
  rw [Option.ite_none_right_eq_some, Option.some.injEq]

theorem hitAt_eq_some_iff {depth i k : ℕ} {slot p : Addr} (hi : 4 * i < depth) (hk : k ≤ 512) :
    hitAt K start i k = some (slot, p) ↔ Hit K start depth i k slot p := by
  rw [hitAt, Option.bind_eq_some_iff]
  constructor
  · rintro ⟨tgt, htgt, hslot⟩
    obtain ⟨rawInsn, hread, hadrp, rfl⟩ := adrpTarget_eq_some_iff.mp htgt
    obtain ⟨p', hp', hpair⟩ := Option.map_eq_some_iff.mp hslot
    obtain ⟨rfl, rfl⟩ := Prod.mk.inj hpair
    obtain ⟨hholds, hpointee, hlen, hnamed⟩ := slotPointer_eq_some_iff.mp hp'
    exact ⟨hi, hk, ⟨rawInsn, hread, hadrp, rfl⟩, hholds, hpointee, hlen, hnamed⟩
  · rintro ⟨-, -, ⟨rawInsn, hread, hadrp, rfl⟩, hholds, hpointee, hlen, hnamed⟩
    refine ⟨_, adrpTarget_eq_some_iff.mpr ⟨rawInsn, hread, hadrp, rfl⟩, ?_⟩
    rw [siteHit, slotPointer_eq_some_iff.mpr ⟨hholds, hpointee, hlen, hnamed⟩, Option.map_some]

theorem findSome?_block (insnP : Addr) : (block K insnP).findSome? (siteHit K) =
    (List.range (maxTries + 1)).findSome? fun k =>
      (adrpTarget K insnP).bind fun tgt => siteHit K (.slot (slotAddr tgt k)) := by
  rw [block, List.findSome?_cons]
  cases adrpTarget K insnP with
  | none => exact (List.findSome?_eq_none_iff.mpr fun _ _ => rfl).symm
  | some tgt =>
    simp only [slots, List.findSome?_map, siteHit]
    rfl

theorem findSome?_plan (n : ℕ) : (plan K start n).findSome? (siteHit K) =
    (List.range n).findSome? fun i => (List.range (maxTries + 1)).findSome? (hitAt K start i) := by
  rw [plan, findSome?_flatMap]
  simp only [findSome?_block]
  rfl

theorem word_lt_iff (depth i : ℕ) : i < (depth + 3) / 4 ↔ 4 * i < depth := by omega

theorem slot_lt_iff (k : ℕ) : k < maxTries + 1 ↔ k ≤ 512 := by
  rw [maxTries]
  omega

theorem findSome?_plan_eq_some_iff (depth : ℕ) (slot p : Addr) :
    (plan K start ((depth + 3) / 4)).findSome? (siteHit K) = some (slot, p) ↔
      ∃ i k, FirstHit K start depth i k slot p := by
  simp only [findSome?_plan, findSome?_rows_eq_some_iff, word_lt_iff, slot_lt_iff]
  constructor
  · rintro ⟨i, hi, k, hk, hhit, hfirst⟩
    refine ⟨i, k, (hitAt_eq_some_iff hi hk).mp hhit, fun i' k' slot' p' hhit' => ?_⟩
    have hat := (hitAt_eq_some_iff hhit'.word_lt hhit'.slot_le).mpr hhit'
    apply hfirst i' hhit'.word_lt k' hhit'.slot_le
    rw [hat]
    exact Option.some_ne_none _
  · rintro ⟨i, k, hhit, hfirst⟩
    refine ⟨i, hhit.word_lt, k, hhit.slot_le,
      (hitAt_eq_some_iff hhit.word_lt hhit.slot_le).mpr hhit, fun i' hi' k' hk' hne => ?_⟩
    obtain ⟨⟨slot', p'⟩, hat⟩ := Option.ne_none_iff_exists'.mp hne
    exact hfirst i' k' slot' p' ((hitAt_eq_some_iff hi' hk').mp hat)

theorem not_hit_of_findSome?_plan {depth : ℕ}
    (h : (plan K start ((depth + 3) / 4)).findSome? (siteHit K) = none) (i k : ℕ) (slot p : Addr) :
    ¬ Hit K start depth i k slot p := by
  intro hhit
  rw [findSome?_plan, findSome?_range_eq_none_iff] at h
  have hrow := h i ((word_lt_iff depth i).mpr hhit.word_lt)
  have hnone := (findSome?_range_eq_none_iff _ _).mp hrow k ((slot_lt_iff k).mpr hhit.slot_le)
  rw [(hitAt_eq_some_iff hhit.word_lt hhit.slot_le).mpr hhit] at hnone
  cases hnone

theorem FirstHit.unique {depth i k i' k' : ℕ} {slot p slot' p' : Addr}
    (h : FirstHit K start depth i k slot p) (h' : FirstHit K start depth i' k' slot' p') :
    i = i' ∧ k = k' ∧ slot = slot' ∧ p = p' := by
  have hle := h.2 i' k' slot' p' h'.1
  have hge := h'.2 i k slot p h.1
  obtain ⟨rfl, rfl⟩ : i = i' ∧ k = k' := by omega
  have hat := (hitAt_eq_some_iff h.1.word_lt h.1.slot_le).mpr h.1
  have hat' := (hitAt_eq_some_iff h'.1.word_lt h'.1.slot_le).mpr h'.1
  rw [hat] at hat'
  obtain ⟨rfl, rfl⟩ := Prod.mk.inj (Option.some.inj hat')
  exact ⟨rfl, rfl, rfl, rfl⟩

end Plan

/-- With enough fuel the hunt returns zero and reports the lexicographically first hit
and no other; without a hit it returns `-ERANGE` and reports nothing. Its reads are
those of the planned sites up to that hit: no fault cuts the plan short. -/
theorem huntSctAdrp_firstHit {K : Kernel} {start depth : Addr}
    (hend : start.toNat + depth.toNat < 2 ^ 64 - 4) (g : Globals) {fuel : ℕ}
    (hfuel : wordRounds * ((depth.toNat + 3) / 4) + 1 ≤ fuel) :
    ∃ ret t, K.Yields (huntSctAdrp fuel g start depth) ret t ∧
      ((∃ i k slot p, FirstHit K start depth.toNat i k slot p ∧
          ret = 0 ∧ reports t = [reportArgs K slot p]) ∨
        ((∀ i k slot p, ¬ Hit K start depth.toNat i k slot p) ∧ ret = -ERANGE ∧ reports t = [])) ∧
      reads t = (throughFirst (siteHit K) (plan K start ((depth.toNat + 3) / 4))).flatMap
        (siteReads K) := by
  have hinsnEnd : (start + depth).toNat = start.toNat + depth.toNat := by bv_omega
  have hhunts : Hunts K g (start + depth) (wordRounds * ((depth.toNat + 3) / 4) + 1) (.scan start)
      (plan K start ((depth.toNat + 3) / 4)) :=
    hunts_words g ((depth.toNat + 3) / 4) (by omega) (by omega) (by omega)
  obtain ⟨t, hrun, hreads, hreports⟩ := hhunts fuel hfuel
  refine ⟨_, t, hrun, ?_, hreads⟩
  rw [hreports]
  cases hfound : (plan K start ((depth.toNat + 3) / 4)).findSome? (siteHit K) with
  | some hit =>
    obtain ⟨i, k, hfirst⟩ := (findSome?_plan_eq_some_iff depth.toNat hit.1 hit.2).mp hfound
    exact Or.inl ⟨i, k, hit.1, hit.2, hfirst, rfl, rfl⟩
  | none => exact Or.inr ⟨not_hit_of_findSome?_plan hfound, rfl, rfl⟩

/-- The first instruction is an ADRP whose page holds the table in its slot 1; slot 0
points to unreadable memory. -/
def tableKernel : Kernel where
  nofault src size :=
    if src = 0x1000 then some 0
    else if src = 0x9000 then some (0x10 : BitVec (8 * size))
    else if src = 0x9008 then some (0x7000 : BitVec (8 * size))
    else if src = 0x7000 then some 0
    else none
  symbolText addr := if addr = 0x7000 then "sys_io_setup+0x0/0x40".toList else []
  sprintSymbolAddr := 0
  exported _ := 0
  registration _ := (-ENOENT, 0)
  kallsyms _ := 0
  isAdrp _ := true
  adrpOffset _ := 0x8000

theorem huntSctAdrp_firstHit_tableKernel :
    ∃ t, tableKernel.Yields (huntSctAdrp 10000 Globals.zero 0x1000 16) 0 t ∧
      reports t = [reportArgs tableKernel 0x9008 0x7000] := by
  obtain ⟨ret, t, hrun, hresult, -⟩ := @huntSctAdrp_firstHit tableKernel 0x1000 16
    (by decide) Globals.zero 10000 (by decide)
  have hhit : Hit tableKernel 0x1000 16 0 1 0x9008 0x7000 :=
    ⟨by decide, by decide, ⟨0, by decide, rfl, by decide⟩, by decide, by decide, by decide, by decide⟩
  have hfirst : FirstHit tableKernel 0x1000 16 0 1 0x9008 0x7000 := by
    refine ⟨hhit, fun i' k' slot' p' hhit' => ?_⟩
    by_contra hbefore
    obtain ⟨rfl, rfl⟩ : i' = 0 ∧ k' = 0 := by omega
    obtain ⟨rawInsn, -, -, hslot⟩ := hhit'.adrp
    obtain rfl : slot' = 0x9000 := hslot
    obtain rfl : 0x10 = p' := Option.some.inj hhit'.slot_holds
    exact hhit'.readable (by decide)
  rcases hresult with ⟨i, k, slot, p, h, rfl, hreport⟩ | ⟨hnone, -⟩
  · obtain ⟨-, -, rfl, rfl⟩ := h.unique hfirst
    exact ⟨t, hrun, hreport⟩
  · exact (hnone 0 1 _ _ hhit).elim

end VariousStuff.SysCallTableHunt
