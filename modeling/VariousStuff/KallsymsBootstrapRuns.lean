import VariousStuff.KallsymsBootstrapScan
import VariousStuff.TotalPreconditions
import Mathlib.Data.List.Nodup

/-! # Every run of the radiating scan, whatever the kernel answers

A round probes one address, the current one. It ends the scan with success or moves on
as if the answers did not matter, so the states of the scan are those of one fixed
sequence. -/
namespace VariousStuff.KallsymsBootstrap
open Interactive CStrings KernelNumerals KernelInterface

/-- The addresses probed, oldest first. -/
def probed (t : KernelTranscript) : List Addr :=
  t.filterMap fun
    | ⟨.copyFromKernelNofault src _, _⟩ => some src
    | _ => none

/-- The first `n` addresses of the scan. -/
def scanned (anchor : Addr) (n : ℕ) : List Addr :=
  (List.range n).map fun i => probeAddr anchor (probeIndex i)

theorem probed_append (t u : KernelTranscript) : probed (t ++ u) = probed t ++ probed u :=
  List.filterMap_append

theorem scanned_succ (anchor : Addr) (n : ℕ) :
    scanned anchor (n + 1) = scanned anchor n ++ [probeAddr anchor (probeIndex n)] := by
  rw [scanned, List.range_succ, List.map_append]
  rfl

theorem scanned_isPrefix (anchor : Addr) {n k : ℕ} (h : n ≤ k) :
    scanned anchor n <+: scanned anchor k := by
  obtain ⟨d, rfl⟩ := Nat.exists_eq_add_of_le h
  rw [scanned, scanned, List.range_add, List.map_append]
  exact List.prefix_append _ _

/-! ## One round -/

section Round
variable {anchor : Addr} {g : Globals} {s : Scan} {t : KernelTranscript}

/-- What a round behind the probe can do: nothing more is probed, and it succeeds or
goes on with the next address. -/
def GoesOnOrSucceeds (anchor : Addr) (s : Scan) (probes : List Addr)
    (r : Scan ⊕ (ℤ × Globals)) (u : KernelTranscript) : Prop :=
  probed u = probes ∧ (r = .inl (s.inc anchor) ∨ ∃ g', r = .inr (0, g'))

theorem prInfo_twp {Q : Unit → KernelTranscript → Prop} {format : String} {args : List PrintArg}
    (h : ∀ u, probed u = probed t → Q () u) : (prInfo format args).twp Q t := by
  intro x
  apply h
  exact Prog.filterMap_concat_of_none rfl

theorem sprintSymbol_twp {Q : Text → KernelTranscript → Prop} {addr : Addr}
    (h : ∀ text u, probed u = probed t → Q text u) : (sprintSymbol addr).twp Q t := by
  intro text
  apply h
  exact Prog.filterMap_concat_of_none rfl

theorem copyFromKernelNofault_twp {Q : Option (BitVec (8 * 4)) → KernelTranscript → Prop}
    {src : Addr} (h : ∀ ibuf u, probed u = probed t ++ [src] → Q ibuf u) :
    (copyFromKernelNofault src 4).twp Q t := by
  intro ibuf
  apply h
  exact Prog.filterMap_concat_of_some rfl

theorem inc_twp : (return .inl (s.inc anchor) : KernelProg (Scan ⊕ (ℤ × Globals))).twp
    (GoesOnOrSucceeds anchor s (probed t)) t := ⟨rfl, Or.inl rfl⟩

theorem foundCandidate_twp (buf : Text) :
    (foundCandidate anchor g s buf).twp (GoesOnOrSucceeds anchor s (probed t)) t := by
  rw [foundCandidate]
  cases strchr buf '/' with
  | none => exact inc_twp
  | some sl =>
    dsimp only
    cases strchr (buf.take sl) '+' with
    | none => exact inc_twp
    | some pl =>
      dsimp only
      rw [Prog.bind_eq, Prog.twp_bind]
      apply prInfo_twp
      intro u hu
      rw [← hu]
      cases kstrtoul ((buf.take sl).drop (pl + 1)) 0 with
      | error _ => exact inc_twp
      | ok offset =>
        dsimp only
        rw [Prog.bind_eq, Prog.twp_bind]
        apply sprintSymbol_twp
        intro text v hv
        rw [← hv]
        split
        · exact inc_twp
        · split
          · exact inc_twp
          · rw [Prog.bind_eq, Prog.twp_bind]
            apply prInfo_twp
            intro w hw
            exact ⟨hw, Or.inr ⟨_, rfl⟩⟩

theorem startR_twp (hiter : ¬ s.iter ≥ maxIter) :
    (startR anchor g s).twp (GoesOnOrSucceeds anchor s (probed t ++ [s.curr])) t := by
  rw [startR, if_neg hiter, Prog.bind_eq, Prog.twp_bind]
  apply copyFromKernelNofault_twp
  intro ibuf u hu
  rw [← hu]
  split
  · exact inc_twp
  · rw [Prog.bind_eq, Prog.twp_bind]
    apply sprintSymbol_twp
    intro text v hv
    rw [← hv]
    split
    · exact inc_twp
    · split
      · exact foundCandidate_twp text
      · exact inc_twp

/-- At the limit the scan fails without another probe. -/
theorem startR_limit_twp (hiter : s.iter ≥ maxIter) :
    (startR anchor g s).twp (fun r u => r = .inr (-ERANGE, g) ∧ probed u = probed t) t := by
  rw [startR, if_pos hiter, Prog.bind_eq, Prog.twp_bind]
  apply prInfo_twp
  intro u hu
  exact ⟨rfl, hu⟩

end Round

/-! ## The states of the scan -/

/-- After `n` rejected probes. -/
structure HasRejected (anchor : Addr) (n : ℕ) (s : Scan) (t : KernelTranscript) : Prop where
  state : s = (Scan.inc anchor)^[n] (Scan.start anchor)
  probes : probed t = scanned anchor n
  bound : n ≤ probeCount

/-- How a scan may end: with success, or with a failure after all of its addresses. -/
def EndsScan (anchor : Addr) (r : ℤ × Globals) (t : KernelTranscript) : Prop :=
  ∃ n ≤ probeCount, probed t = scanned anchor n ∧ (r.1 = 0 ∨ r.1 = -ERANGE ∧ n = probeCount)

/-- The number of rejected probes, as the counter and the direction show it. -/
def Scan.rejected (s : Scan) : ℕ := 2 * s.iter - if s.up then 0 else 1

section States
variable {anchor : Addr} {g : Globals} {s : Scan} {t : KernelTranscript} {n : ℕ}

theorem HasRejected.start (anchor : Addr) : HasRejected anchor 0 (Scan.start anchor) [] where
  state := rfl
  probes := rfl
  bound := Nat.zero_le _

theorem HasRejected.rejected_eq (h : HasRejected anchor n s t) : s.rejected = n := by
  obtain ⟨hiter, hup, -⟩ := iterate_inc anchor n
  rw [h.state, Scan.rejected, hiter, hup]
  rcases Nat.mod_two_eq_zero_or_one n with hn | hn
  · simp [hn]
    omega
  · simp [hn]
    omega

theorem HasRejected.iter_le (h : HasRejected anchor n s t) : s.iter ≤ maxIter := by
  have hbound := h.bound
  rw [h.state, (iterate_inc anchor n).1]
  simp only [probeCount, maxIter] at hbound ⊢
  omega

theorem HasRejected.startR_twp (h : HasRejected anchor n s t) :
    (startR anchor g s).twp (fun r u => match r with
      | .inl s' => HasRejected anchor (n + 1) s' u
      | .inr r => EndsScan anchor r u) t := by
  have hcount := iter_lt_iff anchor n
  have hcurr := (iterate_inc anchor n).2.2
  rw [← h.state] at hcount hcurr
  by_cases hn : n < probeCount
  · refine Prog.twp_mono (KallsymsBootstrap.startR_twp (hcount.not_left.mpr hn)) ?_
    intro r u hr
    obtain ⟨hprobed, hr⟩ := hr
    rw [h.probes, hcurr, ← scanned_succ] at hprobed
    rcases hr with rfl | ⟨g', rfl⟩
    · refine ⟨?_, hprobed, hn⟩
      rw [Function.iterate_succ_apply', ← h.state]
    · exact ⟨n + 1, hn, hprobed, Or.inl rfl⟩
  · refine Prog.twp_mono (startR_limit_twp (hcount.mpr hn)) ?_
    intro r u hr
    obtain ⟨rfl, hprobed⟩ := hr
    have hlast : n = probeCount := Nat.le_antisymm h.bound (Nat.not_lt.mp hn)
    exact ⟨n, h.bound, hprobed.trans h.probes, Or.inr ⟨rfl, hlast⟩⟩

theorem bootstrapKallsymsLookupName_twp (anchor : Addr) (g : Globals) {fuel : ℕ}
    (hfuel : 800000 ≤ fuel) :
    (bootstrapKallsymsLookupName fuel g anchor).twp (EndsScan anchor) [] := by
  refine Prog.twp_loop (fun s t => ∃ n, HasRejected anchor n s t)
    (fun s => probeCount - s.rejected) ?_ ⟨0, .start anchor⟩ ?_
  · intro s t hinv
    obtain ⟨n, h⟩ := hinv
    refine Prog.twp_mono h.startR_twp ?_
    intro r u hr
    cases r with
    | inl s' =>
      have hnext := hr.bound
      refine ⟨⟨n + 1, hr⟩, ?_⟩
      rw [hr.rejected_eq, h.rejected_eq]
      omega
    | inr r => exact hr
  · simp only [probeCount, maxIter]
    omega

/-- Whatever the kernel answers, the scan stands in one of the states of its sequence. -/
theorem hasRejected_of_reaches
    (h : Prog.Reaches (startR anchor g) (Scan.start anchor) t s) : ∃ n, HasRejected anchor n s t := by
  refine h.invariant (fun s t => ∃ n, HasRejected anchor n s t) ⟨0, .start anchor⟩ ?_
  intro s t hinv
  obtain ⟨n, h⟩ := hinv
  refine Prog.twp_mono h.startR_twp ?_
  intro r u hr
  cases r with
  | inl s' => exact ⟨n + 1, hr⟩
  | inr r => trivial

end States

/-! ## The addresses -/

theorem probeIndex_injective : Function.Injective probeIndex := by
  intro i j h
  simp only [probeIndex] at h
  split at h <;> split at h <;> omega

theorem abs_probeIndex_le {n : ℕ} (h : n < probeCount) : |probeIndex n| ≤ 399999 :=
  (exists_probeIndex_iff _).mp ⟨n, h, rfl⟩

theorem probeAddr_inj {anchor : Addr} {k k' : ℤ} (hk : |k| ≤ 399999) (hk' : |k'| ≤ 399999)
    (h : probeAddr anchor k = probeAddr anchor k') : k = k' := by
  obtain ⟨hlow, hhigh⟩ := abs_le.mp hk
  obtain ⟨hlow', hhigh'⟩ := abs_le.mp hk'
  have hoffset : BitVec.ofInt 64 (64 * k) = BitVec.ofInt 64 (64 * k') :=
    (BitVec.add_right_inj anchor).mp h
  have hnat := congrArg BitVec.toNat hoffset
  simp only [BitVec.toNat_ofInt] at hnat
  omega

theorem nodup_scanned (anchor : Addr) : (scanned anchor probeCount).Nodup := by
  refine List.Nodup.map_on ?_ List.nodup_range
  intro i hi j hj h
  have hki := abs_probeIndex_le (List.mem_range.mp hi)
  have hkj := abs_probeIndex_le (List.mem_range.mp hj)
  exact probeIndex_injective (probeAddr_inj hki hkj h)

theorem mem_scanned_iff (anchor a : Addr) :
    a ∈ scanned anchor probeCount ↔ ∃ k : ℤ, |k| ≤ 399999 ∧ a = probeAddr anchor k := by
  constructor
  · intro ha
    obtain ⟨n, hn, rfl⟩ := List.mem_map.mp ha
    exact ⟨probeIndex n, abs_probeIndex_le (List.mem_range.mp hn), rfl⟩
  · rintro ⟨k, hk, rfl⟩
    obtain ⟨n, hn, rfl⟩ := (exists_probeIndex_iff k).mpr hk
    exact List.mem_map.mpr ⟨n, List.mem_range.mpr hn, rfl⟩

/-- The scan probes the addresses around the anchor in their order, each at most once,
and always ends: with success, or after all of them. -/
theorem bootstrapKallsymsLookupName_probes_nearest_first (anchor : Addr) (g : Globals) {fuel : ℕ}
    (hfuel : 800000 ≤ fuel) {t : KernelTranscript} {q : KernelProg (ℤ × Globals)}
    (h : (bootstrapKallsymsLookupName fuel g anchor).Runs t q) :
    q ≠ .outOfFuel ∧ probed t <+: scanned anchor 799999 ∧ (probed t).Nodup ∧
      (∀ r, q = .ret r → r.1 = 0 ∨ (r.1 = -ERANGE ∧ probed t = scanned anchor 799999)) ∧
      (∀ a, a ∈ scanned anchor 799999 ↔ ∃ k : ℤ, |k| ≤ 399999 ∧ a = probeAddr anchor k) ∧
      (∀ k : ℤ, |k| ≤ 399999 → 64 * 399999 ≤ anchor.toNat →
        anchor.toNat + 64 * 399999 < 2 ^ 64 →
          ((probeAddr anchor k).toNat : ℤ) = anchor.toNat + 64 * k) ∧
      (∀ u s, Prog.Reaches (startR anchor g) (Scan.start anchor) u s → s.iter ≤ maxIter) := by
  have hcount : probeCount = 799999 := rfl
  have htwp := bootstrapKallsymsLookupName_twp anchor g hfuel
  -- an unfinished run goes on to one of the ends
  obtain ⟨-, u, -, n, hn, hprobed, -⟩ :=
    Prog.exists_run (Prog.twp_of_runs htwp h) (readableKernel fun _ => []).answer
  have hprefix : probed t <+: scanned anchor probeCount := by
    rw [List.nil_append, probed_append] at hprobed
    exact (hprobed ▸ List.prefix_append _ _).trans (scanned_isPrefix anchor hn)
  obtain ⟨hends, hpost⟩ := Prog.twp_ends htwp h
  rw [← hcount]
  refine ⟨hends, hprefix, hprefix.sublist.nodup (nodup_scanned anchor), ?_, mem_scanned_iff anchor,
    ?_, ?_⟩
  · intro r hr
    obtain ⟨n, -, hprobed, hret⟩ := hpost r hr
    rcases hret with hret | ⟨hret, rfl⟩
    · exact Or.inl hret
    · exact Or.inr ⟨hret, hprobed⟩
  · intro k hk hlow hhigh
    exact probeAddr_toNat (by exact_mod_cast hk) hlow hhigh
  · intro u s hreaches
    obtain ⟨n, hn⟩ := hasRejected_of_reaches hreaches
    exact hn.iter_le

/-- On a kernel without symbols all addresses are probed in vain. -/
theorem bootstrapKallsymsLookupName_probes_nearest_first_noSymbols :
    ∃ t, (bootstrapKallsymsLookupName 800000 Globals.zero 0x100000000).Returns t
        (-ERANGE, Globals.zero) ∧
      probed t = scanned 0x100000000 799999 ∧ (probed t).Nodup := by
  have hrejected : ∀ i < probeCount,
      ((startR 0x100000000 Globals.zero
        ((Scan.inc 0x100000000)^[i] (Scan.start 0x100000000))).run
          (readableKernel fun _ => []).answer).1 =
        some (.inl ((Scan.inc 0x100000000)^[i + 1] (Scan.start 0x100000000))) := by
    intro i hi
    rw [Function.iterate_succ_apply']
    exact startR_rejected ((iter_lt_iff _ i).not_left.mpr hi) (Or.inr rfl)
  have hlimit := @startR_exhausted (readableKernel fun _ => []) 0x100000000 Globals.zero _
    ((iter_lt_iff 0x100000000 probeCount).mpr (Nat.lt_irrefl _))
  have hfuel : probeCount < 800000 := by decide
  have hret := bootstrap_of_first hrejected hlimit hfuel
  have hreturns := Prog.returns_of_run_fst _ hret
  obtain ⟨-, -, hnodup, hends, -⟩ :=
    bootstrapKallsymsLookupName_probes_nearest_first 0x100000000 Globals.zero (Nat.le_refl 800000)
      hreturns
  have hfailed : (-ERANGE : ℤ) ≠ 0 := by decide
  obtain ⟨-, hall⟩ := (hends _ rfl).resolve_left hfailed
  exact ⟨_, hreturns, hall, hnodup⟩

/-! ## The recorded range -/

/-- `low` is the smallest and `high` the largest of the rejected addresses. -/
structure IsRange (low high : Addr) (rejected : List Addr) : Prop where
  low_mem : low ∈ rejected
  low_le : ∀ a ∈ rejected, low.toNat ≤ a.toNat
  high_mem : high ∈ rejected
  le_high : ∀ a ∈ rejected, a.toNat ≤ high.toNat

/-- `r_high` receives the addresses below the anchor, because the flag still says `up`
when they are rejected. -/
theorem iterate_inc_range (anchor : Addr) {n : ℕ} (hn : 2 ≤ n) :
    ((Scan.inc anchor)^[n] (Scan.start anchor)).rHigh =
        probeAddr anchor (-(((n - 1) / 2 : ℕ) : ℤ)) ∧
      ((Scan.inc anchor)^[n] (Scan.start anchor)).rLow = probeAddr anchor ((n / 2 : ℕ) : ℤ) := by
  induction n, hn using Nat.le_induction with
  | base => simp [Scan.start, Scan.inc, probeAddr, stride]
  | succ n hn ih =>
    obtain ⟨-, hup, hcurr⟩ := iterate_inc anchor n
    rw [Function.iterate_succ_apply']
    rcases Nat.mod_two_eq_zero_or_one n with heven | hodd
    · have hhalf : (n + 1) / 2 = n / 2 := by omega
      have hindex : probeIndex n = -((n / 2 : ℕ) : ℤ) := if_neg (by omega)
      rw [Scan.inc_of_up anchor (by simp [hup, heven]), Nat.add_sub_cancel, hhalf, ← hindex]
      exact ⟨hcurr, ih.2⟩
    · have hhalf : (n + 1 - 1) / 2 = (n - 1) / 2 := by omega
      have hindex : probeIndex n = ((n + 1) / 2 : ℕ) := if_pos hodd
      rw [Scan.inc_of_down anchor (by simp [hup, hodd]), hhalf, ← hindex]
      exact ⟨ih.1, hcurr⟩

theorem mem_scanned {anchor a : Addr} {n : ℕ} (ha : a ∈ scanned anchor n) :
    ∃ k : ℤ, a = probeAddr anchor k ∧ -(((n - 1) / 2 : ℕ) : ℤ) ≤ k ∧ k ≤ ((n / 2 : ℕ) : ℤ) := by
  obtain ⟨i, hi, rfl⟩ := List.mem_map.mp ha
  have hi' := List.mem_range.mp hi
  exact ⟨probeIndex i, rfl, probeIndex_bounds hi'⟩

theorem probeAddr_mem_scanned {anchor : Addr} {n i : ℕ} (hi : i < n) {k : ℤ}
    (hk : probeIndex i = k) : probeAddr anchor k ∈ scanned anchor n :=
  List.mem_map.mpr ⟨i, List.mem_range.mpr hi, by rw [hk]⟩

/-- Without a wrap-around the addresses are ordered as their indices, the ends of which are
among the first `n`. -/
theorem isRange_scanned {anchor : Addr} {n : ℕ} (hn : 1 ≤ n)
    (haddr : ∀ k : ℤ, -(((n - 1) / 2 : ℕ) : ℤ) ≤ k → k ≤ ((n / 2 : ℕ) : ℤ) →
      ((probeAddr anchor k).toNat : ℤ) = anchor.toNat + 64 * k) :
    IsRange (probeAddr anchor (-(((n - 1) / 2 : ℕ) : ℤ))) (probeAddr anchor ((n / 2 : ℕ) : ℤ))
      (scanned anchor n) where
  low_mem := probeAddr_mem_scanned (by omega) (probeIndex_below ((n - 1) / 2))
  low_le := by
    intro a ha
    obtain ⟨k, rfl, hk, hk'⟩ := mem_scanned ha
    have hak := haddr k hk hk'
    have hsmallest := haddr (-(((n - 1) / 2 : ℕ) : ℤ)) (by omega) (by omega)
    omega
  high_mem := probeAddr_mem_scanned (by omega) (probeIndex_above (n / 2))
  le_high := by
    intro a ha
    obtain ⟨k, rfl, hk, hk'⟩ := mem_scanned ha
    have hak := haddr k hk hk'
    have hlargest := haddr ((n / 2 : ℕ) : ℤ) (by omega) (by omega)
    omega

/-- The two variables hold the ends of the scanned range, exchanged. -/
theorem HasRejected.isRange_exchanged {anchor : Addr} {n : ℕ} {s : Scan} {t : KernelTranscript}
    (h : HasRejected anchor n s t) (hn : 3 ≤ n) (hlow : 64 * s.iter ≤ anchor.toNat)
    (hhigh : anchor.toNat + 64 * s.iter < 2 ^ 64) :
    IsRange s.rHigh s.rLow (probed t) ∧ s.rHigh.toNat < anchor.toNat ∧
      anchor.toNat < s.rLow.toNat := by
  obtain ⟨hrHigh, hrLow⟩ := iterate_inc_range anchor (by omega : 2 ≤ n)
  have hiter := (iterate_inc anchor n).1
  rw [← h.state] at hrHigh hrLow hiter
  have haddr : ∀ k : ℤ, -(((n - 1) / 2 : ℕ) : ℤ) ≤ k → k ≤ ((n / 2 : ℕ) : ℤ) →
      ((probeAddr anchor k).toNat : ℤ) = anchor.toNat + 64 * k := by
    intro k hk hk'
    exact probeAddr_toNat (abs_le.mpr (by omega)) hlow hhigh
  have hsmallest := haddr (-(((n - 1) / 2 : ℕ) : ℤ)) (by omega) (by omega)
  have hlargest := haddr ((n / 2 : ℕ) : ℤ) (by omega) (by omega)
  rw [h.probes, hrHigh, hrLow]
  exact ⟨isRange_scanned (by omega) haddr, by omega, by omega⟩

theorem IsRange.not_exchanged {low high : Addr} {rejected : List Addr}
    (h : IsRange low high rejected) (hlt : low.toNat < high.toNat) : ¬ IsRange high low rejected :=
  fun h' => Nat.not_le.mpr hlt (h'.low_le low h.low_mem)

/-- In every run that has rejected at least three probes, `r_high` is the smallest and
`r_low` the largest address rejected so far, never the other way round. -/
theorem recorded_range_exchanged {anchor : Addr} {g : Globals} {s : Scan} {t : KernelTranscript}
    (h : Prog.Reaches (startR anchor g) (Scan.start anchor) t s) (hrejected : 3 ≤ (probed t).length)
    (hlow : 64 * s.iter ≤ anchor.toNat) (hhigh : anchor.toNat + 64 * s.iter < 2 ^ 64) :
    ¬ IsRange s.rLow s.rHigh (probed t) ∧
      ¬ (s.rLow.toNat ≤ anchor.toNat ∧ anchor.toNat ≤ s.rHigh.toNat) ∧
      IsRange s.rHigh s.rLow (probed t) ∧ s.rHigh.toNat < anchor.toNat ∧
      anchor.toNat < s.rLow.toNat := by
  obtain ⟨n, hn⟩ := hasRejected_of_reaches h
  have hlength : (probed t).length = n := by
    rw [hn.probes, scanned, List.length_map, List.length_range]
  obtain ⟨hrange, hbelow, habove⟩ := hn.isRange_exchanged (by omega) hlow hhigh
  exact ⟨hrange.not_exchanged (by omega), by omega, hrange, hbelow, habove⟩

/-! ### Probes that fault -/

theorem startR_fault {anchor : Addr} {g : Globals} {s : Scan} (hiter : ¬ s.iter ≥ maxIter) :
    (startR anchor g s).Returns [⟨.copyFromKernelNofault s.curr 4, none⟩] (.inl (s.inc anchor)) := by
  rw [startR, if_neg hiter, Prog.bind_eq, copyFromKernelNofault_bind]
  apply Prog.Runs.call
  exact .refl _

theorem reaches_of_faults (anchor : Addr) (g : Globals) {n : ℕ} (hn : n ≤ probeCount) :
    ∃ t s, Prog.Reaches (startR anchor g) (Scan.start anchor) t s ∧ HasRejected anchor n s t := by
  induction n with
  | zero => exact ⟨[], _, .refl, .start anchor⟩
  | succ n ih =>
    obtain ⟨t, s, hreaches, h⟩ := ih (by omega)
    have hcount := iter_lt_iff anchor n
    rw [← h.state] at hcount
    have hround := @startR_fault anchor g s (hcount.not_left.mpr hn)
    exact ⟨_, _, hreaches.tail hround, Prog.twp_of_runs h.startR_twp hround⟩

/-- Three faults around an anchor are recorded the other way round. -/
theorem not_isRange_of_three_faults :
    ∃ t s, (∃ n, ∀ fuel, (bootstrapKallsymsLookupName (n + fuel) Globals.zero 0x100000000).Runs t
        (Prog.loop (startR 0x100000000 Globals.zero) fuel s)) ∧
      (probed t).length = 3 ∧ ¬ IsRange s.rLow s.rHigh (probed t) := by
  obtain ⟨t, s, hreaches, h⟩ := reaches_of_faults 0x100000000 Globals.zero
    (by decide : 3 ≤ probeCount)
  have hiter := (iterate_inc 0x100000000 3).1
  rw [← h.state] at hiter
  obtain ⟨hrange, hbelow, habove⟩ :=
    h.isRange_exchanged (Nat.le_refl 3) (by rw [hiter]; decide) (by rw [hiter]; decide)
  refine ⟨t, s, hreaches.runs_loop, ?_, hrange.not_exchanged (by omega)⟩
  rw [h.probes]
  rfl

theorem recorded_range_exchanged_three_faults :
    ∃ t s, Prog.Reaches (startR 0x100000000 Globals.zero) (Scan.start 0x100000000) t s ∧
      IsRange s.rHigh s.rLow (probed t) := by
  obtain ⟨t, s, hreaches, h⟩ := reaches_of_faults 0x100000000 Globals.zero
    (by decide : 3 ≤ probeCount)
  have hiter := (iterate_inc 0x100000000 3).1
  rw [← h.state] at hiter
  have hlength : 3 ≤ (probed t).length := by
    rw [h.probes]
    exact Nat.le_refl 3
  obtain ⟨-, -, hrange, -⟩ := recorded_range_exchanged hreaches hlength (by rw [hiter]; decide)
    (by rw [hiter]; decide)
  exact ⟨t, s, hreaches, hrange⟩

end VariousStuff.KallsymsBootstrap
