import VariousStuff.AverageBenchTruncation
import VariousStuff.OrderStatistics
import Mathlib.Data.List.GetD

/-! # What the reported medians stand for

The samples are sorted with a comparison function of their own. The median that both tools
print for a system call is the sample of middle rank, whichever way `qsort` goes about it;
no minority of disturbed batches can move it away from the others. -/
namespace VariousStuff.AverageBench
open Interactive CStrings OrderStatistics

/-! ## Sorting -/

/-- `(ull_a > ull_b) - (ull_a < ull_b)`. -/
def compareUll (a b : BitVec 64) : ℤ :=
  (if a.toNat > b.toNat then 1 else 0) - if a.toNat < b.toNat then 1 else 0

@[simp] theorem compareUll_nonpos_iff (a b : BitVec 64) : compareUll a b ≤ 0 ↔ a.toNat ≤ b.toNat := by
  rw [compareUll]
  split_ifs <;> omega

/-- A result that `qsort` may have with this comparison. -/
structure Qsorted (samples sorted : List (BitVec 64)) : Prop where
  perm : sorted.Perm samples
  ascending : sorted.Pairwise fun a b => compareUll a b ≤ 0

/-- `sample` is the middle one, as a rank, as a position and as a bound of every majority. -/
structure IsMedian (samples : List (BitVec 64)) (sample : BitVec 64) : Prop where
  rank : HasRank (samples.map BitVec.toNat) (samples.length / 2) sample.toNat
  position : ∀ sorted, Qsorted samples sorted → sorted[samples.length / 2]? = some sample
  majority : ∀ lo hi : ℕ,
    samples.length / 2 < samples.countP (fun x => lo ≤ x.toNat ∧ x.toNat ≤ hi) →
      lo ≤ sample.toNat ∧ sample.toNat ≤ hi

section Sorting
variable {samples sorted : List (BitVec 64)}

theorem Qsorted.length_eq (h : Qsorted samples sorted) : sorted.length = samples.length :=
  h.perm.length_eq

theorem qsorted_mergeSort (samples : List (BitVec 64)) :
    Qsorted samples (samples.mergeSort fun a b => decide (a.toNat ≤ b.toNat)) where
  perm := List.mergeSort_perm _ _
  ascending := by
    have hsorted : (samples.mergeSort fun a b => decide (a.toNat ≤ b.toNat)).Pairwise
        fun a b => decide (a.toNat ≤ b.toNat) = true := by
      apply List.pairwise_mergeSort
      · intro a b c hab hbc
        simp only [decide_eq_true_eq] at hab hbc ⊢
        omega
      · intro a b
        simp only [Bool.or_eq_true, decide_eq_true_eq]
        omega
    refine hsorted.imp ?_
    intro a b hab
    rw [compareUll_nonpos_iff]
    simpa using hab

theorem Qsorted.hasRank (h : Qsorted samples sorted) {k : ℕ} (hk : k < sorted.length) :
    HasRank (samples.map BitVec.toNat) k sorted[k].toNat := by
  have hsorted : (sorted.map BitVec.toNat).Pairwise (· ≤ ·) := by
    rw [List.pairwise_map]
    exact h.ascending.imp fun hab => (compareUll_nonpos_iff _ _).mp hab
  have hk' : k < (sorted.map BitVec.toNat).length := by rwa [List.length_map]
  have hrank := hasRank_getElem hsorted hk'
  rw [List.getElem_map] at hrank
  exact hrank.perm (h.perm.map _)

theorem isMedian_of_qsorted (h : Qsorted samples sorted) (hk : samples.length / 2 < sorted.length) :
    IsMedian samples sorted[samples.length / 2] := by
  have hrank := h.hasRank hk
  refine ⟨hrank, ?_, ?_⟩
  · intro sorted' h'
    have hlength : sorted'.length = sorted.length := h'.length_eq.trans h.length_eq.symm
    have hk' : samples.length / 2 < sorted'.length := hlength ▸ hk
    rw [List.getElem?_eq_getElem hk']
    exact congrArg some (BitVec.eq_of_toNat_eq ((h'.hasRank hk').unique hrank))
  · intro lo hi hmost
    apply hrank.mem_interval
    · rw [List.length_map]
      omega
    · rw [List.countP_map]
      exact hmost

theorem isMedian_median {s : Samples} {n : ℕ} (hlength : s.samples.length = n) (hn : 1 ≤ n) :
    IsMedian s.samples (median n s) := by
  have hsorted := qsorted_mergeSort s.samples
  obtain ⟨sorted, heq⟩ : ∃ sorted,
    sorted = s.samples.mergeSort fun a b => decide (a.toNat ≤ b.toNat) := ⟨_, rfl⟩
  rw [← heq] at hsorted
  have hk : s.samples.length / 2 < sorted.length := by
    rw [hsorted.length_eq]
    omega
  have hmedian : median n s = sorted[s.samples.length / 2] := by
    rw [median, ← heq, ← hlength]
    exact List.getD_eq_getElem _ _ hk
  rw [hmedian]
  exact isMedian_of_qsorted hsorted hk

end Sorting

/-! ## The samples of a run -/

/-- The times per call of timed batches. -/
def samplesOf (nBatch : ℕ) (times : List (BitVec 64 × BitVec 64)) : List (BitVec 64) :=
  times.map fun p => quotient (p.2 - p.1) nBatch

@[simp] theorem length_samplesOf (nBatch : ℕ) (times : List (BitVec 64 × BitVec 64)) :
    (samplesOf nBatch times).length = times.length := List.length_map _

/-- Behind `n` timed batches, whose samples are stored in turn. -/
def Sampled (nBatch n : ℕ) (t : AverageTranscript) (s : Samples) (u : AverageTranscript) : Prop :=
  ∃ times : List (BitVec 64 × BitVec 64), times.length = n ∧
    readings u = readings t ++ readingsOf times ∧ lines u = lines t ∧
    s.samples = samplesOf nBatch times

section Parts
variable {nIterations nBatch fuel : ℕ}

theorem sampleBatch_samples_twp (hbatch : 1 ≤ nBatch) (hfuel : nBatch ≤ fuel) (call : Syscall)
    (s : Samples) (t : AverageTranscript) :
    (sampleBatch nBatch fuel call s).twp (fun s' u => ∃ t0 t1,
      s'.samples = s.samples ++ [quotient (t1 - t0) nBatch] ∧
        readings u = readings t ++ [t0, t1] ∧ lines u = lines t) t := by
  rw [sampleBatch, Prog.bind_eq, Prog.twp_bind]
  apply timeNowNs_twp
  intro t0 u hreadings hlines
  rw [Prog.bind_eq, Prog.twp_bind]
  refine Prog.twp_mono (batch_twp hbatch hfuel call u) ?_
  intro _ v hv
  rw [Prog.bind_eq, Prog.twp_bind]
  apply timeNowNs_twp
  intro t1 w hreadings' hlines'
  refine ⟨t0, t1, rfl, ?_, ?_⟩
  · rw [hreadings', hv.1, hreadings, List.append_assoc]
    rfl
  · rw [hlines', hv.2, hlines]

theorem measure_samples_twp (hiterations : 1 ≤ nIterations) (hfuel : nIterations ≤ fuel)
    (hbatch : 1 ≤ nBatch) (hfuel' : nBatch ≤ fuel) (call : Syscall) (t : AverageTranscript) :
    (measure nIterations nBatch fuel call).twp (Sampled nBatch nIterations t) t := by
  refine Prog.twp_doWhile (fun i => Sampled nBatch i t) ?_ (fun _ _ h => h) hiterations hfuel
    ⟨[], rfl, (List.append_nil _).symm, rfl, rfl⟩
  intro i s u _ hu
  obtain ⟨times, hlength, hreadings, hlines, hsamples⟩ := hu
  refine Prog.twp_mono (sampleBatch_samples_twp hbatch hfuel' call s u) ?_
  intro s' v hv
  obtain ⟨t0, t1, hsamples', hreadings', hlines'⟩ := hv
  refine ⟨times ++ [(t0, t1)], by simp [hlength], ?_, hlines'.trans hlines, ?_⟩
  · rw [hreadings', hreadings, List.append_assoc]
    simp [readingsOf]
  · rw [hsamples', hsamples, samplesOf, samplesOf, List.map_append]
    rfl

theorem sampleBoth_twp (hiterations : 1 ≤ nIterations) (hbatch : 1 ≤ nBatch)
    (hfuel : EnoughFuel nIterations nBatch fuel) {a a' b b' call call' : Syscall}
    {rest : Samples → Samples → AverageProg ℤ} {Q : ℤ → AverageTranscript → Prop}
    (h : ∀ (times times' : List (BitVec 64 × BitVec 64)) first second t,
      times.length = nIterations → times'.length = nIterations →
      readings t = readingsOf times ++ readingsOf times' → lines t = [] →
      first.samples = samplesOf nBatch times → second.samples = samplesOf nBatch times' →
      (rest first second).twp Q t) :
    (do syscall .schedSetaffinity
        waza nBatch fuel a a'
        let first ← measure nIterations nBatch fuel call
        waza nBatch fuel b b'
        let second ← measure nIterations nBatch fuel call'
        rest first second).twp Q [] := by
  rw [Prog.bind_eq, Prog.twp_bind]
  apply syscall_twp
  intro t₁ h₁
  rw [Prog.bind_eq, Prog.twp_bind]
  refine Prog.twp_mono (waza_twp hbatch hfuel.batch hfuel.waza a a' t₁) ?_
  intro _ t₂ h₂
  rw [Prog.bind_eq, Prog.twp_bind]
  refine Prog.twp_mono
    (measure_samples_twp hiterations hfuel.iterations hbatch hfuel.batch call t₂) ?_
  intro first t₃ h₃
  obtain ⟨times, hlength, hreadings₃, hlines₃, hsamples⟩ := h₃
  rw [Prog.bind_eq, Prog.twp_bind]
  refine Prog.twp_mono (waza_twp hbatch hfuel.batch hfuel.waza b b' t₃) ?_
  intro _ t₄ h₄
  rw [Prog.bind_eq, Prog.twp_bind]
  refine Prog.twp_mono
    (measure_samples_twp hiterations hfuel.iterations hbatch hfuel.batch call' t₄) ?_
  intro second t₅ h₅
  obtain ⟨times', hlength', hreadings₅, hlines₅, hsamples'⟩ := h₅
  obtain ⟨hreadings₂, hlines₂⟩ := h₁.trans h₂
  refine h times times' first second t₅ hlength hlength' ?_ ?_ hsamples hsamples'
  · rw [hreadings₅, h₄.1, hreadings₃, hreadings₂]
    rfl
  · rw [hlines₅, h₄.2, hlines₃, hlines₂]
    rfl

end Parts

/-! ## The medians of a run -/

/-- A line shows the median of timed batches. -/
def ShowsMedian (nBatch : ℕ) (line : String) (times : List (BitVec 64 × BitVec 64))
    (t : AverageTranscript) : Prop :=
  ∃ sample : BitVec 64, (line, [.num sample.toNat]) ∈ lines t ∧
    IsMedian (samplesOf nBatch times) sample

/-- A run comes to an end, and two lines show the medians of all that it has timed. -/
def ReportsMedians (count batch : ℕ) (line line' : String) (t : AverageTranscript)
    (q : AverageProg ℤ) : Prop :=
  q ≠ .outOfFuel ∧ ∀ r, q = .ret r → ∃ times times' : List (BitVec 64 × BitVec 64),
    times.length = count ∧ times'.length = count ∧
      readings t = readingsOf times ++ readingsOf times' ∧
      ShowsMedian batch line times t ∧ ShowsMedian batch line' times' t

section Main
variable {nIterations nBatch fuel : ℕ}

theorem showsMedian_of_mem {line : String} {times : List (BitVec 64 × BitVec 64)} {s : Samples}
    {t : AverageTranscript} (hiterations : 1 ≤ nIterations) (hlength : times.length = nIterations)
    (hsamples : s.samples = samplesOf nBatch times)
    (hline : (line, [.num (median nIterations s).toNat]) ∈ lines t) :
    ShowsMedian nBatch line times t := by
  have hmedian : IsMedian s.samples (median nIterations s) :=
    isMedian_median (by rw [hsamples, length_samplesOf, hlength]) hiterations
  rw [hsamples] at hmedian
  exact ⟨_, hline, hmedian⟩

theorem prctlAbuseMain_medians_twp (hiterations : 1 ≤ nIterations) (hbatch : 1 ≤ nBatch)
    (hfuel : EnoughFuel nIterations nBatch fuel) :
    (prctlAbuseMain nIterations nBatch fuel).twp (fun r t =>
      ReportsMedians nIterations nBatch "median 0xFFFFFFFF: %llu ns\n"
        "median 0xDEADBEEF: %llu ns\n" t (.ret r)) [] := by
  apply sampleBoth_twp hiterations hbatch hfuel
  intro times times' ffffffff deadbeef t hlength hlength' hreadings hlines hsamples hsamples'
  refine Prog.twp_mono (printLines_twp (_, _) (_, _) (_, _) (_, _) (_, _) t) ?_
  intro r u hu
  obtain ⟨hreadings', hlines'⟩ := hu
  refine ⟨nofun, fun _ _ => ⟨times, times', hlength, hlength', hreadings'.trans hreadings, ?_, ?_⟩⟩
  · exact showsMedian_of_mem hiterations hlength hsamples (by simp [hlines'])
  · exact showsMedian_of_mem hiterations hlength' hsamples' (by simp [hlines'])

theorem statBenchMain_medians_twp (hiterations : 1 ≤ nIterations) (hbatch : 1 ≤ nBatch)
    (hfuel : EnoughFuel nIterations nBatch fuel) :
    (statBenchMain nIterations nBatch fuel).twp (fun r t =>
      ReportsMedians nIterations nBatch "median newfstatat: %llu ns\n"
        "median newfstat: %llu ns\n" t (.ret r)) [] := by
  apply sampleBoth_twp hiterations hbatch hfuel
  intro times times' newfstatat newfstat t hlength hlength' hreadings hlines hsamples hsamples'
  refine Prog.twp_mono (printLines_twp (_, _) (_, _) (_, _) (_, _) (_, _) t) ?_
  intro r u hu
  obtain ⟨hreadings', hlines'⟩ := hu
  refine ⟨nofun, fun _ _ => ⟨times, times', hlength, hlength', hreadings'.trans hreadings, ?_, ?_⟩⟩
  · exact showsMedian_of_mem hiterations hlength hsamples (by simp [hlines'])
  · exact showsMedian_of_mem hiterations hlength' hsamples' (by simp [hlines'])

theorem reportsMedians_of_twp {line line' : String} {p q : AverageProg ℤ} {t : AverageTranscript}
    (hp : p.twp (fun r t => ReportsMedians nIterations nBatch line line' t (.ret r)) [])
    (h : p.Runs t q) : ReportsMedians nIterations nBatch line line' t q := by
  obtain ⟨hends, hpost⟩ := Prog.twp_ends hp h
  refine ⟨hends, ?_⟩
  rintro r rfl
  exact (hpost r rfl).2 r rfl

end Main

/-- Every run of both tools ends, whatever the clock shows and the calls return. For each of
the two system calls it prints the sample of middle rank: the one in the middle of every
result that `qsort` can have, within any bounds that a majority of the samples keeps. -/
theorem medians_in_the_middle {nIterations nBatch fuel : ℕ} (hiterations : 1 ≤ nIterations)
    (hbatch : 1 ≤ nBatch) (hfuel : EnoughFuel nIterations nBatch fuel) :
    (∀ t q, (prctlAbuseMain nIterations nBatch fuel).Runs t q →
      ReportsMedians nIterations nBatch "median 0xFFFFFFFF: %llu ns\n"
        "median 0xDEADBEEF: %llu ns\n" t q) ∧
    ∀ t q, (statBenchMain nIterations nBatch fuel).Runs t q →
      ReportsMedians nIterations nBatch "median newfstatat: %llu ns\n"
        "median newfstat: %llu ns\n" t q := by
  refine ⟨?_, ?_⟩
  · intro t q h
    exact reportsMedians_of_twp (prctlAbuseMain_medians_twp hiterations hbatch hfuel) h
  · intro t q h
    exact reportsMedians_of_twp (statBenchMain_medians_twp hiterations hbatch hfuel) h

/-- Each batch takes eight nanoseconds more than the one before. -/
def slowingClock (i : ℕ) : BitVec 64 := BitVec.ofNat 64 (2 * i * i)

theorem quotient_slowingClock {k : ℕ} (hk : k < 2000) :
    quotient (slowingClock (2 * k + 1) - slowingClock (2 * k)) 8 = BitVec.ofNat 64 k := by
  have hsquare : 2 * (2 * k + 1) * (2 * k + 1) = 2 * (2 * k) * (2 * k) + (8 * k + 2) := by
    ring
  have helapsed : slowingClock (2 * k + 1) - slowingClock (2 * k) = BitVec.ofNat 64 (8 * k + 2) := by
    rw [slowingClock, slowingClock, hsquare, BitVec.ofNat_add, BitVec.add_comm, BitVec.add_sub_cancel]
  have hquotient : (8 * k + 2) / 8 = k := by omega
  rw [helapsed, quotient, BitVec.toNat_ofNat, Nat.mod_eq_of_lt (by omega), hquotient]

/-- Of a thousand samples that ascend one by one, the one in the middle is shown. -/
theorem mem_lines_of_ascending {line : String} {times : List (BitVec 64 × BitVec 64)}
    {t : AverageTranscript} {first : ℕ} (hfirst : first ≤ 1000)
    (hsamples : samplesOf 8 times = (List.range 1000).map fun k => BitVec.ofNat 64 (first + k))
    (h : ShowsMedian 8 line times t) : (line, [.num (first + 500 : ℕ)]) ∈ lines t := by
  obtain ⟨sample, hline, hmedian⟩ := h
  have hascending : (samplesOf 8 times).Pairwise fun a b => compareUll a b ≤ 0 := by
    rw [hsamples, List.pairwise_map]
    refine List.pairwise_lt_range.imp_of_mem fun {a b} ha hb hab => ?_
    have ha' := List.mem_range.mp ha
    have hb' := List.mem_range.mp hb
    rw [compareUll_nonpos_iff, BitVec.toNat_ofNat, BitVec.toNat_ofNat, Nat.mod_eq_of_lt (by omega),
      Nat.mod_eq_of_lt (by omega)]
    omega
  have hmiddle := hmedian.position _ ⟨.refl _, hascending⟩
  rw [hsamples, List.length_map, List.length_range, List.getElem?_map,
    List.getElem?_range (by omega)] at hmiddle
  obtain rfl := Option.some.inj hmiddle
  rwa [BitVec.toNat_ofNat, Nat.mod_eq_of_lt (by omega)] at hline

/-- The sizes in the source, with samples from 0 to 999 and from 1000 to 1999. -/
theorem medians_in_the_middle_slowingClock : ∃ fuel t r, (statBenchMain 1000 8 fuel).Returns t r ∧
    ("median newfstatat: %llu ns\n", [.num 500]) ∈ lines t ∧
    ("median newfstat: %llu ns\n", [.num 1500]) ∈ lines t := by
  obtain ⟨fuel, hfuel⟩ : ∃ fuel, EnoughFuel 1000 8 fuel := ⟨1000, by omega, by omega, by omega⟩
  have hiterations : 1 ≤ 1000 := by omega
  have hbatch : 1 ≤ 8 := by omega
  obtain ⟨r, t, n, hreturns, hclock⟩ :=
    exists_returns_readings (statBenchMain_medians_twp hiterations hbatch hfuel) slowingClock
  obtain ⟨times, times', hlength, hlength', hreadings, hshows, hshows'⟩ :=
    ((medians_in_the_middle hiterations hbatch hfuel).2 t _ hreturns).2 r rfl
  have hpairs := times_of_readings hlength hlength' (hreadings.symm.trans hclock)
  have hsamples : samplesOf 8 times ++ samplesOf 8 times' =
      (List.range (1000 + 1000)).map fun k => BitVec.ofNat 64 k := by
    rw [samplesOf, samplesOf, ← List.map_append, hpairs, List.map_map]
    apply List.map_congr_left
    intro k hk
    exact quotient_slowingClock (List.mem_range.mp hk)
  rw [List.range_add, List.map_append, List.map_map] at hsamples
  obtain ⟨hfirst, hsecond⟩ := List.append_inj hsamples
    (by rw [length_samplesOf, List.length_map, List.length_range, hlength])
  refine ⟨fuel, t, r, hreturns, ?_, ?_⟩
  · refine mem_lines_of_ascending (Nat.zero_le _) (hfirst.trans ?_) hshows
    simp only [Nat.zero_add]
  · exact mem_lines_of_ascending (Nat.le_refl _) hsecond hshows'

end VariousStuff.AverageBench
