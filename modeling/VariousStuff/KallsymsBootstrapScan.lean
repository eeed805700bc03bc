import VariousStuff.KallsymsBootstrap
import VariousStuff.SymbolTexts
import Mathlib.Order.Nat
import Mathlib.Data.Nat.Find
import Mathlib.Tactic.Ring

/-! # The radiating scan is sound and complete

The probes alternate around the anchor in steps of 64 bytes. Every rejected probe
moves on to the next one, so the scan ends at the first probe that lies inside
`kallsyms_lookup_name`, or after all of them. -/
namespace VariousStuff.KallsymsBootstrap
open Interactive CStrings KernelNumerals KernelInterface SymbolTexts

def kallsymsLookupName : Text := "kallsyms_lookup_name".toList

theorem sym_eq : sym = kallsymsLookupName ++ ['+'] := by decide

theorem separators_notMem_kallsymsLookupName :
    '+' ∉ kallsymsLookupName ∧ '/' ∉ kallsymsLookupName := by decide

/-- Distance of the `n`th probe from the anchor, in strides: 0, 1, -1, 2, -2, … -/
def probeIndex (n : ℕ) : ℤ := if n % 2 = 1 then ((n + 1) / 2 : ℕ) else -((n / 2 : ℕ) : ℤ)

def probeAddr (anchor : Addr) (k : ℤ) : Addr := anchor + BitVec.ofInt 64 (64 * k)

/-- The number of probes before the iteration counter stops the scan. -/
def probeCount : ℕ := 2 * maxIter - 1

theorem probeAddr_toNat {anchor : Addr} {k : ℤ} {i : ℕ} (hk : |k| ≤ i)
    (hlow : 64 * i ≤ anchor.toNat) (hhigh : anchor.toNat + 64 * i < 2 ^ 64) :
    ((probeAddr anchor k).toNat : ℤ) = anchor.toNat + 64 * k := by
  obtain ⟨hk₁, hk₂⟩ := abs_le.mp hk
  simp only [probeAddr, BitVec.toNat_add, BitVec.toNat_ofInt]
  omega

theorem Scan.inc_of_up (anchor : Addr) {s : Scan} (h : s.up = true) :
    s.inc anchor = ⟨s.iter + 1, anchor + BitVec.ofNat 64 (stride * (s.iter + 1)), false,
      s.curr, s.rLow⟩ := by
  simp [Scan.inc, h]

theorem Scan.inc_of_down (anchor : Addr) {s : Scan} (h : s.up = false) :
    s.inc anchor = ⟨s.iter, anchor - BitVec.ofNat 64 (stride * s.iter), true,
      s.rHigh, s.curr⟩ := by
  simp [Scan.inc, h]

theorem iterate_inc (anchor : Addr) (n : ℕ) :
    let s := (Scan.inc anchor)^[n] (Scan.start anchor)
    s.iter = (n + 1) / 2 ∧ s.up = decide (n % 2 = 0) ∧
      s.curr = probeAddr anchor (probeIndex n) := by
  induction n with
  | zero => simp [Scan.start, probeAddr, probeIndex]
  | succ n ih =>
    obtain ⟨hiter, hup, -⟩ := ih
    rw [Function.iterate_succ_apply']
    rcases Nat.mod_two_eq_zero_or_one n with hn | hn
    · have hodd : (n + 1) % 2 = 1 := by omega
      have hhalf : (n + 1 + 1) / 2 = (n + 1) / 2 + 1 := by omega
      rw [Scan.inc_of_up anchor (by simp [hup, hn])]
      refine ⟨by simp [hiter, hhalf], by simp [hodd], ?_⟩
      simp only [hiter, probeAddr, probeIndex, hodd, hhalf, stride, if_true]
      norm_cast
    · have heven : (n + 1) % 2 = 0 := by omega
      have hhalf : (n + 1 + 1) / 2 = (n + 1) / 2 := by omega
      rw [Scan.inc_of_down anchor (by simp [hup, hn])]
      refine ⟨by simp [hiter, hhalf], by simp [heven], ?_⟩
      have hneg : (64 : ℤ) * -(((n + 1) / 2 : ℕ) : ℤ) = -((4 * 16 * ((n + 1) / 2) : ℕ) : ℤ) := by
        rw [Nat.cast_mul]
        ring
      simp only [hiter, probeAddr, probeIndex, heven, stride, zero_ne_one, if_false, hneg,
        BitVec.ofInt_neg, BitVec.ofInt_natCast, BitVec.sub_eq_add_neg]

theorem probeIndex_above (k : ℕ) : probeIndex (2 * k - 1) = k := by
  simp only [probeIndex]
  split <;> omega

theorem probeIndex_below (k : ℕ) : probeIndex (2 * k) = -(k : ℤ) := by
  simp only [probeIndex]
  split <;> omega

theorem probeIndex_bounds {i n : ℕ} (hi : i < n) :
    -(((n - 1) / 2 : ℕ) : ℤ) ≤ probeIndex i ∧ probeIndex i ≤ ((n / 2 : ℕ) : ℤ) := by
  simp only [probeIndex]
  split <;> omega

/-- Every index within the radius is probed, and nothing else is. -/
theorem exists_probeIndex_iff (k : ℤ) :
    (∃ n < probeCount, probeIndex n = k) ↔ |k| ≤ 399999 := by
  rw [abs_le]
  constructor
  · rintro ⟨n, hn, rfl⟩
    have hbounds := probeIndex_bounds hn
    simp only [probeCount, maxIter] at hbounds
    omega
  · rintro ⟨hlow, hhigh⟩
    by_cases hk : 0 < k
    · refine ⟨2 * k.toNat - 1, by simp only [probeCount, maxIter]; omega, ?_⟩
      rw [probeIndex_above, Int.toNat_of_nonneg (by omega)]
    · refine ⟨2 * (-k).toNat, by simp only [probeCount, maxIter]; omega, ?_⟩
      rw [probeIndex_below, Int.toNat_of_nonneg (by omega), Int.neg_neg]

theorem iter_lt_iff (anchor : Addr) (n : ℕ) :
    ((Scan.inc anchor)^[n] (Scan.start anchor)).iter ≥ maxIter ↔ ¬ n < probeCount := by
  rw [(iterate_inc anchor n).1, probeCount, maxIter]
  omega

/-! ## One probe -/

section Probe
variable {K : Kernel} {anchor : Addr} {g : Globals} {s : Scan}

theorem startR_exhausted (h : s.iter ≥ maxIter) :
    ((startR anchor g s).run K.answer).1 = some (.inr (-ERANGE, g)) := by
  simp [startR, h, prInfo, Prog.ask]

theorem startR_unreadable (hiter : ¬ s.iter ≥ maxIter) (hread : K.nofault s.curr 4 = none) :
    ((startR anchor g s).run K.answer).1 = some (.inl (s.inc anchor)) := by
  rw [startR, if_neg hiter, Prog.bind_eq, run_copyFromKernelNofault, hread]
  rfl

theorem startR_readable (hiter : ¬ s.iter ≥ maxIter) {ibuf : BitVec (8 * 4)}
    (hread : K.nofault s.curr 4 = some ibuf) :
    ((startR anchor g s).run K.answer).1 =
      (Prog.run K.answer (if (K.symbolText s.curr).length < sym.length + 1 then
          return .inl (s.inc anchor)
        else if strstarts (K.symbolText s.curr) sym then
          foundCandidate anchor g s (K.symbolText s.curr)
        else return .inl (s.inc anchor))).1 := by
  rw [startR, if_neg hiter, Prog.bind_eq, run_copyFromKernelNofault, hread]
  rfl

theorem startR_rejected (hiter : ¬ s.iter ≥ maxIter)
    (h : K.nofault s.curr 4 = none ∨ strstarts (K.symbolText s.curr) sym = false) :
    ((startR anchor g s).run K.answer).1 = some (.inl (s.inc anchor)) := by
  cases hread : K.nofault s.curr 4 with
  | none => exact startR_unreadable hiter hread
  | some ibuf =>
    have hstart : ¬ strstarts (K.symbolText s.curr) sym = true := by simpa [hread] using h
    rw [startR_readable hiter hread, if_neg hstart, ite_self]
    rfl

/-- From a text in the symbol format the candidate's offset is read back, and the scan
ends at the symbol's start if the text of that address shows offset zero. -/
theorem foundCandidate_symbolText {name : Text} {offset size : ℕ} (hplus : '+' ∉ name)
    (hslash : '/' ∉ name) (hoffset : offset < 2 ^ 64)
    (hstart : K.symbolText (s.curr - BitVec.ofNat 64 offset) = symbolText name 0 size) :
    ((foundCandidate anchor g s (symbolText name offset size)).run K.answer).1 =
      some (.inr (0, { g with kallsymsLookupNameFn := s.curr - BitVec.ofNat 64 offset })) := by
  have hlen : 0 < (symbolText name 0 size).length := by simp [symbolText]
  have htext : K.answer (.sprintSymbol (s.curr - BitVec.ofNat 64 offset)) =
      symbolText name 0 size := hstart
  have hzero : strstr (symbolText name 0 size) "+0x0".toList = true :=
    (strstr_iff _ _).mpr (plus_zero_infix_symbolText name size)
  simp only [foundCandidate, strchr_slash_symbolText offset size hslash, take_symbolText,
    strchr_plus_cut offset hplus, drop_cut, kstrtoul_hex hoffset]
  simp only [Prog.bind_eq, prInfo_bind, sprintSymbol_bind, Prog.run_call, htext, hlen, hzero,
    not_true_eq_false, if_false, Prog.pure_eq, Prog.run_ret]

theorem startR_candidate (hiter : ¬ s.iter ≥ maxIter) (hread : K.nofault s.curr 4 ≠ none)
    (hlen : sym.length + 1 ≤ (K.symbolText s.curr).length)
    (hstart : strstarts (K.symbolText s.curr) sym = true) :
    ((startR anchor g s).run K.answer).1 =
      ((foundCandidate anchor g s (K.symbolText s.curr)).run K.answer).1 := by
  obtain ⟨ibuf, hsome⟩ := Option.ne_none_iff_exists'.mp hread
  rw [startR_readable hiter hsome, if_neg (Nat.not_lt.mpr hlen), if_pos hstart]

end Probe

/-! ## The whole scan -/

/-- A first probe that succeeds after rejected ones decides the scan. -/
theorem bootstrap_of_first {K : Kernel} {anchor : Addr} {g : Globals} {n : ℕ} {r : ℤ × Globals}
    (hstarts : ∀ i < n, ((startR anchor g ((Scan.inc anchor)^[i] (Scan.start anchor))).run
      K.answer).1 = some (.inl ((Scan.inc anchor)^[i + 1] (Scan.start anchor))))
    (hlast : ((startR anchor g ((Scan.inc anchor)^[n] (Scan.start anchor))).run
      K.answer).1 = some (.inr r)) {fuel : ℕ} (hfuel : n < fuel) :
    ((bootstrapKallsymsLookupName fuel g anchor).run K.answer).1 = some r := by
  obtain ⟨rest, rfl⟩ : ∃ rest, fuel = n + (rest + 1) := ⟨fuel - n - 1, by omega⟩
  rw [bootstrapKallsymsLookupName, Prog.run_loop_iterate K.answer hstarts]
  exact congrArg Prod.fst (Prog.run_loop_inr K.answer (Prod.ext hlast rfl) rest)

section Layout
variable {m : SymbolMap} {K : Kernel} {S : Addr} {sz : ℕ} {anchor : Addr}

/-- The probe at `k` strides reads successfully inside `kallsyms_lookup_name`. -/
def ProbeHits (K : Kernel) (S : Addr) (sz : ℕ) (anchor : Addr) (k : ℤ) : Prop :=
  K.nofault (probeAddr anchor k) 4 ≠ none ∧
    S.toNat ≤ (probeAddr anchor k).toNat ∧ (probeAddr anchor k).toNat < S.toNat + sz

theorem startR_of_hit (hK : K.symbolText = m.text)
    (hS : m.Locates kallsymsLookupName S sz) (g : Globals) {n : ℕ} (hn : n < probeCount)
    (h : ProbeHits K S sz anchor (probeIndex n)) :
    ((startR anchor g ((Scan.inc anchor)^[n] (Scan.start anchor))).run K.answer).1 =
      some (.inr (0, { g with kallsymsLookupNameFn := S })) := by
  obtain ⟨hread, hlow, hhigh⟩ := h
  have hcurr := (iterate_inc anchor n).2.2
  have hiter := (iter_lt_iff anchor n).not_left.mpr hn
  generalize (Scan.inc anchor)^[n] (Scan.start anchor) = s at hcurr hiter
  rw [← hcurr] at hread hlow hhigh
  have htext : K.symbolText s.curr =
      symbolText kallsymsLookupName (s.curr.toNat - S.toNat) sz := by
    rw [hK, hS.text_eq hlow hhigh]
  have hback : s.curr - BitVec.ofNat 64 (s.curr.toNat - S.toNat) = S := by bv_omega
  have hstart : K.symbolText (s.curr - BitVec.ofNat 64 (s.curr.toNat - S.toNat)) =
      symbolText kallsymsLookupName 0 sz := by
    rw [hback, hK, hS.text_eq (Nat.le_refl _) (by omega), Nat.sub_self]
  have hstarts : sym <+: K.symbolText s.curr := by
    rw [htext, sym_eq]
    exact ⟨hex (s.curr.toNat - S.toNat) ++ '/' :: hex sz, by simp [symbolText]⟩
  have hlen : sym.length + 1 ≤ (K.symbolText s.curr).length := by
    rw [htext, sym_eq]
    simp only [symbolText, List.length_append, List.length_cons, List.length_nil]
    omega
  obtain ⟨hplus, hslash⟩ := separators_notMem_kallsymsLookupName
  rw [startR_candidate hiter hread hlen ((strstarts_iff _ _).mpr hstarts), htext,
    foundCandidate_symbolText hplus hslash (by omega) hstart, hback]

theorem startR_of_not_hit (hK : K.symbolText = m.text)
    (hS : m.Locates kallsymsLookupName S sz) (g : Globals) {n : ℕ} (hn : n < probeCount)
    (h : ¬ ProbeHits K S sz anchor (probeIndex n)) :
    ((startR anchor g ((Scan.inc anchor)^[n] (Scan.start anchor))).run K.answer).1 =
      some (.inl ((Scan.inc anchor)^[n + 1] (Scan.start anchor))) := by
  have hcurr := (iterate_inc anchor n).2.2
  have hiter := (iter_lt_iff anchor n).not_left.mpr hn
  rw [Function.iterate_succ_apply']
  refine startR_rejected hiter ?_
  rw [hcurr, hK]
  by_cases hread : K.nofault (probeAddr anchor (probeIndex n)) 4 = none
  · exact Or.inl hread
  · have hhex : ∀ n, ¬ kallsymsLookupName ++ ['+'] <+: hex n := by
      intro n hstarts
      have hhead : 'k' = '0' := hstarts.head (List.cons_ne_nil _ _)
      exact absurd hhead (by decide)
    rw [sym_eq]
    exact Or.inr (hS.not_strstarts separators_notMem_kallsymsLookupName.1 hhex
      fun hin => h ⟨hread, hin⟩)

/-- Some probe within the radius hits. -/
def SomeProbeHits (K : Kernel) (S : Addr) (sz : ℕ) (anchor : Addr) : Prop :=
  ∃ k : ℤ, |k| ≤ 399999 ∧ ProbeHits K S sz anchor k

theorem bootstrap_of_hit (hK : K.symbolText = m.text) (hS : m.Locates kallsymsLookupName S sz)
    (g : Globals) (h : SomeProbeHits K S sz anchor) {fuel : ℕ} (hfuel : probeCount < fuel) :
    ((bootstrapKallsymsLookupName fuel g anchor).run K.answer).1 =
      some (0, { g with kallsymsLookupNameFn := S }) := by
  classical
  obtain ⟨k, hk, hhit⟩ := h
  obtain ⟨n₀, hn₀, rfl⟩ := (exists_probeIndex_iff k).mpr hk
  have hex : ∃ n, n < probeCount ∧ ProbeHits K S sz anchor (probeIndex n) := ⟨n₀, hn₀, hhit⟩
  obtain ⟨hn, hfirst⟩ := Nat.find_spec hex
  refine bootstrap_of_first (fun i hi => ?_) (startR_of_hit hK hS g hn hfirst) (hn.trans hfuel)
  have hlt : i < probeCount := hi.trans hn
  exact startR_of_not_hit hK hS g hlt fun hhit => Nat.find_min hex hi ⟨hlt, hhit⟩

theorem bootstrap_of_no_hit (hK : K.symbolText = m.text) (hS : m.Locates kallsymsLookupName S sz)
    (g : Globals) (h : ¬ SomeProbeHits K S sz anchor) {fuel : ℕ} (hfuel : probeCount < fuel) :
    ((bootstrapKallsymsLookupName fuel g anchor).run K.answer).1 = some (-ERANGE, g) := by
  refine bootstrap_of_first (fun i hi => ?_) ?_ hfuel
  · refine startR_of_not_hit hK hS g hi fun hhit => h ⟨probeIndex i, ?_, hhit⟩
    exact (exists_probeIndex_iff _).mp ⟨i, hi, rfl⟩
  · exact startR_exhausted ((iter_lt_iff anchor probeCount).mpr (Nat.lt_irrefl _))

/-- Every stretch of at least one stride within the radius contains a probed address. -/
theorem someProbeHits_of_large (hlow : 64 * 400000 ≤ anchor.toNat)
    (hhigh : anchor.toNat + 64 * 400000 < 2 ^ 64) (hsz : 64 ≤ sz)
    (hread : ∀ a : Addr, S.toNat ≤ a.toNat → a.toNat < S.toNat + sz → K.nofault a 4 ≠ none)
    (hfirst : anchor.toNat - 64 * 399999 ≤ S.toNat)
    (hlast : S.toNat + sz - 1 ≤ anchor.toNat + 64 * 399999) : SomeProbeHits K S sz anchor := by
  -- the first multiple of the stride at or behind the start of the symbol
  obtain ⟨k, hk⟩ : ∃ k : ℤ, k = ((S.toNat : ℤ) - anchor.toNat + 63) / 64 := ⟨_, rfl⟩
  have hradius : |k| ≤ 399999 := abs_le.mpr (by omega)
  have haddr := probeAddr_toNat (hradius.trans (by omega)) hlow hhigh
  have hin : S.toNat ≤ (probeAddr anchor k).toNat ∧ (probeAddr anchor k).toNat < S.toNat + sz := by
    omega
  exact ⟨k, hradius, hread _ hin.1 hin.2, hin⟩

/-- Some multiple of the stride within the radius is readable and inside `[S, S + sz)`. -/
def ScanReaches (K : Kernel) (S : Addr) (sz : ℕ) (anchor : Addr) : Prop :=
  ∃ k : ℤ, |k| ≤ 399999 ∧ ∃ a : Addr, (a.toNat : ℤ) = anchor.toNat + 64 * k ∧
    K.nofault a 4 ≠ none ∧ S.toNat ≤ a.toNat ∧ a.toNat < S.toNat + sz

theorem scanReaches_iff (hlow : 64 * 400000 ≤ anchor.toNat)
    (hhigh : anchor.toNat + 64 * 400000 < 2 ^ 64) :
    ScanReaches K S sz anchor ↔ SomeProbeHits K S sz anchor := by
  refine exists_congr fun k => and_congr_right fun hk => ?_
  have haddr := probeAddr_toNat (hk.trans (by omega)) hlow hhigh
  constructor
  · rintro ⟨a, ha, hhit⟩
    obtain rfl : a = probeAddr anchor k := by
      apply BitVec.eq_of_toNat_eq
      omega
    exact hhit
  · intro hhit
    exact ⟨probeAddr anchor k, haddr, hhit⟩

/-- The scan returns zero and stores the exact start of the symbol if and only if one
of its probes reads inside the symbol; otherwise it reports `-ERANGE` and stores
nothing. A readable symbol of at least one stride within the radius is always found. -/
theorem bootstrapKallsymsLookupName_finds_iff (hK : K.symbolText = m.text)
    (hS : m.Locates "kallsyms_lookup_name".toList S sz) (hlow : 64 * 400000 ≤ anchor.toNat)
    (hhigh : anchor.toNat + 64 * 400000 < 2 ^ 64) (g : Globals) {fuel : ℕ} (hfuel : 800000 ≤ fuel) :
    ∃ ret g' t, K.Yields (bootstrapKallsymsLookupName fuel g anchor) (ret, g') t ∧
      ((ret = 0 ∧ g' = { g with kallsymsLookupNameFn := S }) ↔ ScanReaches K S sz anchor) ∧
      (¬ ScanReaches K S sz anchor → ret = -ERANGE ∧ g' = g) ∧
      (64 ≤ sz →
        (∀ a : Addr, S.toNat ≤ a.toNat → a.toNat < S.toNat + sz → K.nofault a 4 ≠ none) →
        anchor.toNat - 64 * 399999 ≤ S.toNat → S.toNat + sz - 1 ≤ anchor.toNat + 64 * 399999 →
        ret = 0 ∧ g' = { g with kallsymsLookupNameFn := S }) := by
  have hcount : probeCount < fuel := by simp only [probeCount, maxIter]; omega
  rw [scanReaches_iff hlow hhigh]
  by_cases h : SomeProbeHits K S sz anchor
  · exact ⟨0, _, _, Prod.ext (bootstrap_of_hit hK hS g h hcount) rfl, by simp [h], by simp [h],
      by simp⟩
  · refine ⟨-ERANGE, g, _, Prod.ext (bootstrap_of_no_hit hK hS g h hcount) rfl, ?_, by simp, ?_⟩
    · simp [h, ERANGE]
    · intro hsz hread hfirst hlast
      exact (h (someProbeHits_of_large hlow hhigh hsz hread hfirst hlast)).elim

end Layout

/-- One symbol of 64 bytes. -/
def oneSymbolMap : SymbolMap where
  symbolAt a := if 0x100000000 ≤ a.toNat ∧ a.toNat < 0x100000000 + 64 then
    some ⟨kallsymsLookupName, 0x100000000, 64⟩ else none
  inside := by
    intro a s h
    obtain ⟨ha, rfl⟩ := by simpa using h
    exact ha
  clean := by
    intro a s h
    obtain ⟨-, rfl⟩ := by simpa using h
    exact separators_notMem_kallsymsLookupName

/-- The scan that starts 6400 bytes above the symbol finds it. -/
theorem bootstrapKallsymsLookupName_finds_oneSymbol :
    ∃ g' t, (readableKernel oneSymbolMap.text).Yields
      (bootstrapKallsymsLookupName 800000 Globals.zero 0x100001900) (0, g') t ∧
      g'.kallsymsLookupNameFn = 0x100000000 := by
  have hS : oneSymbolMap.Locates "kallsyms_lookup_name".toList 0x100000000 64 := by
    constructor
    · intro a hlow hhigh
      exact if_pos ⟨hlow, hhigh⟩
    · intro a s h _
      obtain ⟨ha, -⟩ := by simpa [oneSymbolMap] using h
      simpa using ha
  have hread : ∀ a : Addr, (0x100000000 : Addr).toNat ≤ a.toNat →
      a.toNat < (0x100000000 : Addr).toNat + 64 →
      (readableKernel oneSymbolMap.text).nofault a 4 ≠ none := fun a _ _ => by simp [readableKernel]
  obtain ⟨ret, g', t, hrun, -, -, hfinds⟩ := bootstrapKallsymsLookupName_finds_iff
    (rfl : (readableKernel oneSymbolMap.text).symbolText = _) hS
    (by decide : 64 * 400000 ≤ (0x100001900 : Addr).toNat) (by decide) Globals.zero
    (Nat.le_refl 800000)
  obtain ⟨rfl, rfl⟩ := hfinds (Nat.le_refl 64) hread (by decide) (by decide)
  exact ⟨_, t, hrun, rfl⟩

end VariousStuff.KallsymsBootstrap
