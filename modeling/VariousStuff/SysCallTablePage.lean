import VariousStuff.SysCallTableRounds

/-! # How far behind an ADRP target the hunt reads

A page has 512 slots. The counter of the inner loop lets it look at one more, which
belongs to the next page, whenever none of the 512 matches. -/
namespace VariousStuff.SysCallTableHunt
open Interactive CStrings KernelNumerals KernelInterface

def PageAligned (a : Addr) : Prop := a.toNat % 4096 = 0

def InPage (tgt a : Addr) : Prop := tgt.toNat ≤ a.toNat ∧ a.toNat < tgt.toNat + 4096

section Page
variable {K : Kernel} {g : Globals} {start depth insnP curr tgt : Addr} {tries k : ℕ}
  {t : KernelTranscript}

/-- While the hunt examines what the word at `insnP` points to, one of its rounds makes
the calls of `t`. -/
def PageRound (K : Kernel) (g : Globals) (start depth insnP : Addr) (t : KernelTranscript) : Prop :=
  ∃ u curr tries, Reaches K g start depth u (.scanPg insnP curr tries) ∧
    ((step g (start + depth) (.scanPg insnP curr tries)).run K.answer).2 = t

def SlotRead (K : Kernel) (g : Globals) (start depth insnP a : Addr) : Prop :=
  ∃ x rest, PageRound K g start depth insnP (⟨.copyFromKernelNofault a 8, x⟩ :: rest)

/-- A round prints `a` as `&sys_call_table[0]`. -/
def Reported (K : Kernel) (g : Globals) (start depth insnP a : Addr) : Prop :=
  ∃ t text p, PageRound K g start depth insnP t ∧ reports t = [[text, p, lx a]]

def StaysInPage (K : Kernel) (g : Globals) (start depth : Addr) : Prop :=
  ∀ insnP tgt, adrpTarget K insnP = some tgt → PageAligned tgt →
    (∀ a, SlotRead K g start depth insnP a → InPage tgt a) ∧
      ∀ a, Reported K g start depth insnP a → InPage tgt a

/-- Every ADRP that the hunt comes to and that points to a page finds a match in it. -/
def PagesMatch (K : Kernel) (start depth : Addr) : Prop :=
  ∀ i tgt, ComesTo K start depth i → adrpTarget K (wordAddr start i) = some tgt → PageAligned tgt →
    ∃ k < 4096 / 8, slotPointer K (slotAddr tgt k) ≠ none

theorem inPage_slotAddr (h : PageAligned tgt) (hk : k < 4096 / 8) : InPage tgt (slotAddr tgt k) := by
  have haligned : tgt.toNat % 4096 = 0 := h
  have htop : tgt.toNat < 2 ^ 64 := tgt.isLt
  have hslot : (slotAddr tgt k).toNat = tgt.toNat + 8 * k := by
    simp only [slotAddr, BitVec.toNat_add, BitVec.toNat_ofNat]
    omega
  constructor <;> omega

/-- The extra slot is the first one of the next page, or of the whole memory. -/
theorem not_inPage_slotAddr_maxTries : ¬ InPage tgt (slotAddr tgt maxTries) := by
  intro h
  have hlow : tgt.toNat ≤ (slotAddr tgt maxTries).toNat := h.1
  have hhigh : (slotAddr tgt maxTries).toNat < tgt.toNat + 4096 := h.2
  simp only [slotAddr, maxTries, BitVec.toNat_add, BitVec.toNat_ofNat] at hlow hhigh
  omega

theorem scanPg_run_cons (K : Kernel) (insnP curr : Addr) (htries : tries ≤ maxTries) :
    ∃ rest, ((scanPg insnP curr tries).run K.answer).2 =
      ⟨.copyFromKernelNofault curr 8, K.nofault curr 8⟩ :: rest := by
  rw [scanPg, if_neg (Nat.not_lt.mpr htries), Prog.bind_eq, run_copyFromKernelNofault]
  exact ⟨_, rfl⟩

theorem exists_slot_of_pageRound (hpages : PagesMatch K start depth)
    (htgt : adrpTarget K insnP = some tgt) (haligned : PageAligned tgt)
    (h : PageRound K g start depth insnP t) :
    ∃ k < 4096 / 8, ((scanPg insnP (slotAddr tgt k) k).run K.answer).2 = t := by
  obtain ⟨u, curr, tries, hreaches, hround⟩ := h
  cases hreaches.place.1 with
  | slot i _ tgt' comes htgt' _ hmiss =>
    obtain rfl : tgt' = tgt := Option.some.inj (htgt'.symm.trans htgt)
    obtain ⟨k, hk, hhit⟩ := hpages i tgt' comes htgt haligned
    have hle : tries ≤ k := Nat.le_of_not_lt fun hlt => hhit (hmiss k hlt)
    exact ⟨tries, Nat.lt_of_le_of_lt hle hk, hround⟩

theorem staysInPage_of_pagesMatch (hpages : PagesMatch K start depth) :
    StaysInPage K g start depth := by
  intro insnP tgt htgt haligned
  constructor
  · intro a hread
    obtain ⟨x, rest, hround⟩ := hread
    obtain ⟨k, hk, hrun⟩ := exists_slot_of_pageRound hpages htgt haligned hround
    obtain ⟨rest', hcons⟩ := scanPg_run_cons K insnP (slotAddr tgt k) (Nat.le_of_lt hk)
    rw [hcons] at hrun
    have hcall := congrArg Sigma.fst (List.cons.inj hrun).1
    obtain rfl : slotAddr tgt k = a := (KernelCall.copyFromKernelNofault.inj hcall).1
    exact inPage_slotAddr haligned hk
  · intro a hreported
    obtain ⟨t, text, p, hround, hreports⟩ := hreported
    obtain ⟨k, hk, rfl⟩ := exists_slot_of_pageRound hpages htgt haligned hround
    cases hp : slotPointer K (slotAddr tgt k) with
    | none =>
      obtain ⟨u, hrun, -, hquiet⟩ := scanPg_round_miss insnP (Nat.le_of_lt hk) hp
      rw [congrArg Prod.snd hrun, hquiet] at hreports
      cases hreports
    | some p' =>
      obtain ⟨u, hrun, -, hreport⟩ := scanPg_round_hit insnP (Nat.le_of_lt hk) hp
      rw [congrArg Prod.snd hrun, hreport] at hreports
      have hargs := (List.cons.inj hreports).1
      obtain rfl : slotAddr tgt k = a :=
        lx_injective (List.cons.inj (List.cons.inj (List.cons.inj hargs).2).2).1
      exact inPage_slotAddr haligned hk

theorem slotRead_of_no_match {i : ℕ} (g : Globals) (comes : ComesTo K start depth i)
    (htgt : adrpTarget K (wordAddr start i) = some tgt)
    (hmiss : ∀ k < maxTries, slotPointer K (slotAddr tgt k) = none) :
    SlotRead K g start depth (wordAddr start i) (slotAddr tgt maxTries) := by
  obtain ⟨u, hreaches⟩ := (exists_reaches_iff (g := g) _).mpr
    (Place.slot i maxTries tgt comes htgt (Nat.le_succ _) hmiss)
  obtain ⟨rest, hrun⟩ :=
    scanPg_run_cons K (wordAddr start i) (slotAddr tgt maxTries) (Nat.le_refl maxTries)
  exact ⟨_, rest, u, _, _, hreaches, hrun⟩

end Page

/-- The hunt stays in the pages its ADRPs point to exactly if each of them that it comes
to has a match there: any other makes it read, and possibly report, a slot of the next page. -/
theorem staysInPage_iff_pagesMatch (K : Kernel) (g : Globals) (start depth : Addr) :
    StaysInPage K g start depth ↔ PagesMatch K start depth := by
  constructor
  · intro hstays i tgt comes htgt haligned
    by_contra hnone
    have hmiss : ∀ k < maxTries, slotPointer K (slotAddr tgt k) = none := by
      intro k hk
      by_contra hhit
      exact hnone ⟨k, hk, hhit⟩
    have hread := slotRead_of_no_match g comes htgt hmiss
    exact not_inPage_slotAddr_maxTries ((hstays _ tgt htgt haligned).1 _ hread)
  · exact staysInPage_of_pagesMatch

/-- The first instruction is an ADRP to an unreadable page; the page behind it starts
with a pointer to `sys_io_setup`. -/
def nextPageKernel : Kernel := { tableKernel with
  nofault src size :=
    if src = 0x1000 then some 0
    else if src = 0xA000 then some (0x7000 : BitVec (8 * size))
    else if src = 0x7000 then some 0
    else none }

theorem nextPageKernel_stopsAt : StopsAt nextPageKernel 0x1000 4 0 maxTries 0x9000 0x7000 where
  comes := ⟨by decide, by omega⟩
  target := by decide
  slot_le := Nat.le_refl maxTries
  miss := by
    intro k hk
    have hlt : k < 512 := hk
    have hunmapped : nextPageKernel.nofault (slotAddr 0x9000 k) 8 = none := by
      have hfirst : slotAddr 0x9000 k ≠ 0x1000 := by
        rw [slotAddr]
        bv_omega
      have hnext : slotAddr 0x9000 k ≠ 0xA000 := by
        rw [slotAddr]
        bv_omega
      have hentry : slotAddr 0x9000 k ≠ 0x7000 := by
        rw [slotAddr]
        bv_omega
      exact (if_neg hfirst).trans ((if_neg hnext).trans (if_neg hentry))
    rw [slotPointer, hunmapped, Option.bind_none]
  hit := by decide

theorem nextPageKernel_leaves_page :
    ¬ StaysInPage nextPageKernel Globals.zero 0x1000 4 ∧
      ∃ fuel t, nextPageKernel.Yields (huntSctAdrp fuel Globals.zero 0x1000 4) 0 t ∧
        reports t = [reportArgs nextPageKernel 0xA000 0x7000] := by
  have hstop := nextPageKernel_stopsAt
  constructor
  · intro hstays
    have hread := slotRead_of_no_match Globals.zero hstop.comes hstop.target hstop.miss
    exact not_inPage_slotAddr_maxTries ((hstays _ _ hstop.target rfl).1 _ hread)
  · exact hstop.yields

end VariousStuff.SysCallTableHunt
