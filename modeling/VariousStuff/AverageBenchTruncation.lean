import VariousStuff.AverageBench

/-! # What the reported averages lose by truncation -/
namespace VariousStuff.AverageBench
open Interactive CStrings TruncatedMeans

/-! ## The readings of a run -/

/-- The readings before and after each batch, in the order of the clock. -/
def readingsOf (times : List (BitVec 64 × BitVec 64)) : List (BitVec 64) :=
  times.flatMap fun p => [p.1, p.2]

/-- The total over timed batches. -/
def totalOf (nBatch : ℕ) (times : List (BitVec 64 × BitVec 64)) : BitVec 64 :=
  times.foldl (fun total p => total + quotient (p.2 - p.1) nBatch) 0

/-- No clock was read, and nothing was printed. -/
def Quiet (t u : AverageTranscript) : Prop := readings u = readings t ∧ lines u = lines t

theorem Quiet.refl (t : AverageTranscript) : Quiet t t := ⟨rfl, rfl⟩

theorem Quiet.trans {t u v : AverageTranscript} (h : Quiet t u) (h' : Quiet u v) : Quiet t v :=
  ⟨h'.1.trans h.1, h'.2.trans h.2⟩

section Rules
variable {t : AverageTranscript}

theorem timeNowNs_twp {Q : BitVec 64 → AverageTranscript → Prop}
    (h : ∀ ns u, readings u = readings t ++ [ns] → lines u = lines t → Q ns u) :
    timeNowNs.twp Q t := by
  intro ts
  apply h
  · exact Prog.filterMap_concat_of_some rfl
  · exact Prog.filterMap_concat_of_none rfl

theorem syscall_twp {call : Syscall} {Q : Unit → AverageTranscript → Prop}
    (h : ∀ u, Quiet t u → Q () u) : (syscall call).twp Q t := by
  intro x
  apply h
  refine ⟨?_, ?_⟩
  · exact Prog.filterMap_concat_of_none rfl
  · exact Prog.filterMap_concat_of_none rfl

theorem printf_twp {format : String} {args : List PrintArg} {Q : Unit → AverageTranscript → Prop}
    (h : ∀ u, readings u = readings t → lines u = lines t ++ [(format, args)] → Q () u) :
    (printf format args).twp Q t := by
  intro x
  apply h
  · exact Prog.filterMap_concat_of_none rfl
  · exact Prog.filterMap_concat_of_some rfl

theorem printLines_twp (l₁ l₂ l₃ l₄ l₅ : Line) (t : AverageTranscript) :
    (do printf l₁.1 l₁.2
        printf l₂.1 l₂.2
        printf l₃.1 l₃.2
        printf l₄.1 l₄.2
        printf l₅.1 l₅.2
        return 0 : AverageProg ℤ).twp
      (fun _ u => readings u = readings t ∧ lines u = lines t ++ [l₁, l₂, l₃, l₄, l₅]) t := by
  simp only [Prog.bind_eq, Prog.twp_bind]
  apply printf_twp
  intro u₁ hreadings₁ hlines₁
  apply printf_twp
  intro u₂ hreadings₂ hlines₂
  apply printf_twp
  intro u₃ hreadings₃ hlines₃
  apply printf_twp
  intro u₄ hreadings₄ hlines₄
  apply printf_twp
  intro u₅ hreadings₅ hlines₅
  refine ⟨?_, ?_⟩
  · rw [hreadings₅, hreadings₄, hreadings₃, hreadings₂, hreadings₁]
  · rw [hlines₅, hlines₄, hlines₃, hlines₂, hlines₁]
    simp

end Rules

/-- Behind `n` timed batches. -/
def Measured (nBatch n : ℕ) (t : AverageTranscript) (s : Samples) (u : AverageTranscript) : Prop :=
  ∃ times : List (BitVec 64 × BitVec 64), times.length = n ∧
    readings u = readings t ++ readingsOf times ∧ lines u = lines t ∧ s.total = totalOf nBatch times

section Parts
variable {nIterations nBatch fuel : ℕ}

theorem batch_twp (hbatch : 1 ≤ nBatch) (hfuel : nBatch ≤ fuel) (call : Syscall)
    (t : AverageTranscript) : (batch nBatch fuel call).twp (fun _ u => Quiet t u) t := by
  refine Prog.twp_doWhile (fun _ _ u => Quiet t u) ?_ (fun _ _ h => h) hbatch hfuel (.refl t)
  intro i s u _ hu
  apply syscall_twp
  intro v hv
  exact hu.trans hv

theorem waza_twp (hbatch : 1 ≤ nBatch) (hfuel : nBatch ≤ fuel) (hwaza : 250 ≤ fuel)
    (call call' : Syscall) (t : AverageTranscript) :
    (waza nBatch fuel call call').twp (fun _ u => Quiet t u) t := by
  refine Prog.twp_doWhile (fun _ _ u => Quiet t u) ?_ (fun _ _ h => h) (by omega) hwaza (.refl t)
  intro i s u _ hu
  refine Prog.twp_doWhile (fun _ _ v => Quiet t v) ?_ (fun _ _ h => h) hbatch hfuel hu
  intro j s v _ hv
  rw [Prog.bind_eq, Prog.twp_bind]
  apply syscall_twp
  intro w hw
  apply syscall_twp
  intro w' hw'
  exact (hv.trans hw).trans hw'

theorem sampleBatch_twp (hbatch : 1 ≤ nBatch) (hfuel : nBatch ≤ fuel) (call : Syscall)
    (s : Samples) (t : AverageTranscript) :
    (sampleBatch nBatch fuel call s).twp (fun s' u => ∃ t0 t1,
      s'.total = s.total + quotient (t1 - t0) nBatch ∧ readings u = readings t ++ [t0, t1] ∧
        lines u = lines t) t := by
  rw [sampleBatch, Prog.bind_eq, Prog.twp_bind]
  apply timeNowNs_twp
  intro t0 u hreadings hlines
  rw [Prog.bind_eq, Prog.twp_bind]
  refine Prog.twp_mono (batch_twp hbatch hfuel call u) ?_
  intro _ v hv
  rw [Prog.bind_eq, Prog.twp_bind]
  apply timeNowNs_twp
  intro t1 w hreadings' hlines'
  refine ⟨t0, t1, rfl, ?_, ?_⟩
  · rw [hreadings', hv.1, hreadings, List.append_assoc]
    rfl
  · rw [hlines', hv.2, hlines]

theorem measure_twp (hiterations : 1 ≤ nIterations) (hfuel : nIterations ≤ fuel)
    (hbatch : 1 ≤ nBatch) (hfuel' : nBatch ≤ fuel) (call : Syscall) (t : AverageTranscript) :
    (measure nIterations nBatch fuel call).twp (Measured nBatch nIterations t) t := by
  refine Prog.twp_doWhile (fun i => Measured nBatch i t) ?_ (fun _ _ h => h) hiterations hfuel
    ⟨[], rfl, (List.append_nil _).symm, rfl, rfl⟩
  intro i s u _ hu
  obtain ⟨times, hlength, hreadings, hlines, htotal⟩ := hu
  refine Prog.twp_mono (sampleBatch_twp hbatch hfuel' call s u) ?_
  intro s' v hv
  obtain ⟨t0, t1, htotal', hreadings', hlines'⟩ := hv
  refine ⟨times ++ [(t0, t1)], by simp [hlength], ?_, hlines'.trans hlines, ?_⟩
  · rw [hreadings', hreadings, List.append_assoc]
    simp [readingsOf]
  · rw [htotal', htotal, totalOf, totalOf, List.foldl_append]
    rfl

end Parts

/-- Enough fuel for each of the loops. -/
structure EnoughFuel (nIterations nBatch fuel : ℕ) : Prop where
  iterations : nIterations ≤ fuel
  batch : nBatch ≤ fuel
  waza : 250 ≤ fuel

/-- The timed batches of both system calls of a run. -/
structure MeasuredBoth (nIterations nBatch : ℕ) (times times' : List (BitVec 64 × BitVec 64))
    (first second : Samples) (t : AverageTranscript) : Prop where
  length : times.length = nIterations
  length' : times'.length = nIterations
  readings : readings t = readingsOf times ++ readingsOf times'
  total : first.total = totalOf nBatch times
  total' : second.total = totalOf nBatch times'
  lines : lines t = []

/-- A run, the timed batches of both system calls, and the averages printed in two lines. -/
structure Reported (nIterations nBatch : ℕ) (line line' : String)
    (times times' : List (BitVec 64 × BitVec 64)) (t : AverageTranscript) : Prop where
  length : times.length = nIterations
  length' : times'.length = nIterations
  readings : readings t = readingsOf times ++ readingsOf times'
  mem : (line, [.num (average nIterations (totalOf nBatch times))]) ∈ lines t
  mem' : (line', [.num (average nIterations (totalOf nBatch times'))]) ∈ lines t

section Main
variable {nIterations nBatch fuel : ℕ}

theorem MeasuredBoth.reported {line line' : String} {times times' : List (BitVec 64 × BitVec 64)}
    {first second : Samples} {t u : AverageTranscript}
    (h : MeasuredBoth nIterations nBatch times times' first second t)
    (hreadings : AverageBench.readings u = AverageBench.readings t)
    (hline : (line, [.num (average nIterations first.total)]) ∈ AverageBench.lines u)
    (hline' : (line', [.num (average nIterations second.total)]) ∈ AverageBench.lines u) :
    Reported nIterations nBatch line line' times times' u where
  length := h.length
  length' := h.length'
  readings := hreadings.trans h.readings
  mem := h.total ▸ hline
  mem' := h.total' ▸ hline'

theorem measureBoth_twp (hiterations : 1 ≤ nIterations) (hbatch : 1 ≤ nBatch)
    (hfuel : EnoughFuel nIterations nBatch fuel) {a a' b b' call call' : Syscall}
    {rest : Samples → Samples → AverageProg ℤ} {Q : ℤ → AverageTranscript → Prop}
    (h : ∀ times times' first second t,
      MeasuredBoth nIterations nBatch times times' first second t → (rest first second).twp Q t) :
    (do syscall .schedSetaffinity
        waza nBatch fuel a a'
        let first ← measure nIterations nBatch fuel call
        waza nBatch fuel b b'
        let second ← measure nIterations nBatch fuel call'
        rest first second).twp Q [] := by
  rw [Prog.bind_eq, Prog.twp_bind]
  apply syscall_twp
  intro t₁ h₁
  rw [Prog.bind_eq, Prog.twp_bind]
  refine Prog.twp_mono (waza_twp hbatch hfuel.batch hfuel.waza a a' t₁) ?_
  intro _ t₂ h₂
  rw [Prog.bind_eq, Prog.twp_bind]
  refine Prog.twp_mono (measure_twp hiterations hfuel.iterations hbatch hfuel.batch call t₂) ?_
  intro first t₃ h₃
  obtain ⟨times, hlength, hreadings₃, hlines₃, htotal⟩ := h₃
  rw [Prog.bind_eq, Prog.twp_bind]
  refine Prog.twp_mono (waza_twp hbatch hfuel.batch hfuel.waza b b' t₃) ?_
  intro _ t₄ h₄
  rw [Prog.bind_eq, Prog.twp_bind]
  refine Prog.twp_mono (measure_twp hiterations hfuel.iterations hbatch hfuel.batch call' t₄) ?_
  intro second t₅ h₅
  obtain ⟨times', hlength', hreadings₅, hlines₅, htotal'⟩ := h₅
  obtain ⟨hreadings₂, hlines₂⟩ := h₁.trans h₂
  refine h times times' first second t₅ ⟨hlength, hlength', ?_, htotal, htotal', ?_⟩
  · rw [hreadings₅, h₄.1, hreadings₃, hreadings₂]
    rfl
  · rw [hlines₅, h₄.2, hlines₃, hlines₂]
    rfl

theorem prctlAbuseMain_twp (hiterations : 1 ≤ nIterations) (hbatch : 1 ≤ nBatch)
    (hfuel : EnoughFuel nIterations nBatch fuel) :
    (prctlAbuseMain nIterations nBatch fuel).twp (fun _ t => ∃ times times',
      Reported nIterations nBatch "average 0xFFFFFFFF: %lld ns\n" "average 0xDEADBEEF: %lld ns\n"
        times times' t) [] := by
  apply measureBoth_twp hiterations hbatch hfuel
  intro times times' ffffffff deadbeef t h
  refine Prog.twp_mono (printLines_twp (_, _) (_, _) (_, _) (_, _) (_, _) t) ?_
  intro r u hu
  obtain ⟨hreadings, hlines⟩ := hu
  refine ⟨times, times', h.reported hreadings ?_ ?_⟩
  · simp [hlines]
  · simp [hlines]

theorem statBenchMain_twp (hiterations : 1 ≤ nIterations) (hbatch : 1 ≤ nBatch)
    (hfuel : EnoughFuel nIterations nBatch fuel) :
    (statBenchMain nIterations nBatch fuel).twp (fun _ t => ∃ times times',
      Reported nIterations nBatch "average newfstatat: %lld ns\n" "average newfstat: %lld ns\n"
        times times' t) [] := by
  apply measureBoth_twp hiterations hbatch hfuel
  intro times times' newfstatat newfstat t h
  refine Prog.twp_mono (printLines_twp (_, _) (_, _) (_, _) (_, _) (_, _) t) ?_
  intro r u hu
  obtain ⟨hreadings, hlines⟩ := hu
  refine ⟨times, times', h.reported hreadings ?_ ?_⟩
  · simp [hlines]
  · simp [hlines]

end Main

/-! ## Arithmetic -/

/-- The times of the batches. -/
def elapsed (times : List (BitVec 64 × BitVec 64)) : List ℕ :=
  times.map fun p => p.2.toNat - p.1.toNat

/-- `avg` is at most the mean time of a call and falls short of it by less than 2, with the
exact bound on what `count` batches of `batch` calls can lose. -/
structure BoundedTruncation (count batch : ℕ) (times : List (BitVec 64 × BitVec 64)) (avg : ℤ) :
    Prop where
  nonneg : 0 ≤ ((elapsed times).sum : ℤ) - count * batch * avg
  le : ((elapsed times).sum : ℤ) - count * batch * avg ≤ batch * (count - 1) + count * (batch - 1)
  lt_two : ((elapsed times).sum : ℤ) < count * batch * (avg + 2)

section Arithmetic
variable {count batch : ℕ} {times : List (BitVec 64 × BitVec 64)}

/-- The total, whatever overflows. -/
theorem totalOf_eq (batch : ℕ) (times : List (BitVec 64 × BitVec 64)) :
    totalOf batch times =
      BitVec.ofNat 64 (times.map fun p => (p.2 - p.1).toNat / batch).sum := by
  induction times using List.reverseRecOn with
  | nil => rfl
  | append_singleton times p ih =>
    rw [totalOf, List.foldl_append, ← totalOf, ih, List.map_append, List.sum_append,
      BitVec.ofNat_add]
    rfl

/-- Nothing overflows as long as the whole time fits. -/
theorem totalOf_toNat (hordered : ∀ p ∈ times, p.1 ≤ p.2) (hfits : (elapsed times).sum < 2 ^ 64) :
    (totalOf batch times).toNat = quotientSum batch (elapsed times) := by
  have hquotients : (times.map fun p => (p.2 - p.1).toNat / batch) =
      (elapsed times).map (· / batch) := by
    rw [elapsed, List.map_map]
    apply List.map_congr_left
    intro p hp
    rw [BitVec.toNat_sub_of_le (hordered p hp)]
    rfl
  have hsum := quotientSum_le_sum batch (elapsed times)
  rw [totalOf_eq, hquotients, ← quotientSum, BitVec.toNat_ofNat, Nat.mod_eq_of_lt (by omega)]

theorem quotient_toNat (n : BitVec 64) (d : ℕ) : (quotient n d).toNat = n.toNat / d := by
  have hle := Nat.div_le_self n.toNat d
  rw [quotient, BitVec.toNat_ofNat, Nat.mod_eq_of_lt (by omega)]

theorem boundedTruncation_truncatedMean (hcount : 1 ≤ count) (hbatch : 1 ≤ batch)
    (hlength : times.length = count) :
    BoundedTruncation count batch times (truncatedMean count batch (elapsed times) : ℕ) := by
  have hlength' : (elapsed times).length = count := by rw [elapsed, List.length_map, hlength]
  have hlow := mul_truncatedMean_le count batch (elapsed times)
  have hhigh := sum_le_mul_truncatedMean hbatch hcount hlength'
  have hloss := loss_lt hbatch hcount
  have hbound : ((batch * (count - 1) + count * (batch - 1) : ℕ) : ℤ) =
      batch * (count - 1) + count * (batch - 1) := by
    rw [Nat.cast_add, Nat.cast_mul, Nat.cast_mul, Nat.cast_sub hcount, Nat.cast_sub hbatch,
      Nat.cast_one]
  refine ⟨?_, ?_, ?_⟩
  · rw [sub_nonneg]
    exact_mod_cast hlow
  · rw [← hbound, sub_le_iff_le_add']
    exact_mod_cast hhigh
  · have hlt : (elapsed times).sum <
        count * batch * (truncatedMean count batch (elapsed times) + 2) := by
      rw [Nat.mul_add]
      omega
    exact_mod_cast hlt

/-- A quotient of two calls or more, or of less than 2^63, is not negative as a
`long long`. -/
theorem average_eq (hcount : 1 ≤ count) (hbatch : 1 ≤ batch)
    (hordered : ∀ p ∈ times, p.1 ≤ p.2) (hfits : (elapsed times).sum < 2 ^ 64)
    (hlarge : 2 ≤ count * batch ∨ (elapsed times).sum < 2 ^ 63) :
    average count (totalOf batch times) = (truncatedMean count batch (elapsed times) : ℕ) := by
  have hquotient : (quotient (totalOf batch times) count).toNat =
      truncatedMean count batch (elapsed times) := by
    rw [quotient_toNat, totalOf_toNat hordered hfits, truncatedMean]
  have hlow := mul_truncatedMean_le count batch (elapsed times)
  have hpos : 1 ≤ count * batch := Nat.mul_le_mul hcount hbatch
  have hsmall : truncatedMean count batch (elapsed times) < 2 ^ 63 := by
    obtain hmany | hsum := hlarge
    · have htwice := Nat.mul_le_mul_right (truncatedMean count batch (elapsed times)) hmany
      omega
    · have honce := Nat.mul_le_mul_right (truncatedMean count batch (elapsed times)) hpos
      omega
  rw [average, BitVec.toInt_eq_toNat_of_lt (by omega), hquotient]

theorem totalOf_perm {times' : List (BitVec 64 × BitVec 64)} (h : times'.Perm times) :
    totalOf batch times' = totalOf batch times := by
  rw [totalOf_eq, totalOf_eq, (h.map _).sum_eq]

end Arithmetic

/-- The total of timed batches is exact, and dividing it loses little: in the unsigned
quotient always, in the `long long` that is printed if it is not too large for one. The order
of the samples does not matter. -/
structure Truncates (count batch : ℕ) (times : List (BitVec 64 × BitVec 64)) : Prop where
  exact : (totalOf batch times).toNat = (times.map fun p => (p.2.toNat - p.1.toNat) / batch).sum
  quotient : BoundedTruncation count batch times (quotient (totalOf batch times) count).toNat
  average : 2 ≤ count * batch ∨ (elapsed times).sum < 2 ^ 63 →
    BoundedTruncation count batch times (average count (totalOf batch times))
  order : ∀ times' : List (BitVec 64 × BitVec 64), times'.Perm times →
    AverageBench.average count (totalOf batch times') =
      AverageBench.average count (totalOf batch times)

theorem truncates {count batch : ℕ} {times : List (BitVec 64 × BitVec 64)} (hcount : 1 ≤ count)
    (hbatch : 1 ≤ batch) (hlength : times.length = count) (hordered : ∀ p ∈ times, p.1 ≤ p.2)
    (hfits : (elapsed times).sum < 2 ^ 64) : Truncates count batch times where
  exact := by
    rw [totalOf_toNat hordered hfits, quotientSum, elapsed, List.map_map]
    rfl
  quotient := by
    rw [quotient_toNat, totalOf_toNat hordered hfits]
    exact boundedTruncation_truncatedMean hcount hbatch hlength
  average := by
    intro hlarge
    rw [average_eq hcount hbatch hordered hfits hlarge]
    exact boundedTruncation_truncatedMean hcount hbatch hlength
  order := by
    intro times' hperm
    rw [totalOf_perm hperm]

/-- A run comes to an end, and both averages it printed are within the bounds of truncation
if the clock ran forward and the whole time fits. -/
def ReportsWithinBounds (count batch : ℕ) (line line' : String) (t : AverageTranscript)
    (q : AverageProg ℤ) : Prop :=
  q ≠ .outOfFuel ∧ ∀ r, q = .ret r → ∃ times times', Reported count batch line line' times times' t ∧
    ∀ ts ∈ [times, times'], (∀ p ∈ ts, p.1 ≤ p.2) → (elapsed ts).sum < 2 ^ 64 →
      Truncates count batch ts

theorem reportsWithinBounds {count batch : ℕ} {line line' : String} (hcount : 1 ≤ count)
    (hbatch : 1 ≤ batch) {p q : AverageProg ℤ} {t : AverageTranscript}
    (hp : p.twp (fun _ t => ∃ times times', Reported count batch line line' times times' t) [])
    (h : p.Runs t q) : ReportsWithinBounds count batch line line' t q := by
  obtain ⟨hends, hpost⟩ := Prog.twp_ends hp h
  refine ⟨hends, ?_⟩
  intro r hret
  obtain ⟨times, times', hreported⟩ := hpost r hret
  refine ⟨times, times', hreported, ?_⟩
  intro ts hts hordered hfits
  have hlength : ts.length = count := by
    rcases List.mem_pair.mp hts with rfl | rfl
    · exact hreported.length
    · exact hreported.length'
  exact truncates hcount hbatch hlength hordered hfits

/-- Every run of both tools, for all numbers of samples and batch sizes. -/
theorem averages_within_bounds {nIterations nBatch fuel : ℕ} (hiterations : 1 ≤ nIterations)
    (hbatch : 1 ≤ nBatch) (hfuel : EnoughFuel nIterations nBatch fuel) :
    (∀ t q, (prctlAbuseMain nIterations nBatch fuel).Runs t q →
      ReportsWithinBounds nIterations nBatch "average 0xFFFFFFFF: %lld ns\n"
        "average 0xDEADBEEF: %lld ns\n" t q) ∧
    ∀ t q, (statBenchMain nIterations nBatch fuel).Runs t q →
      ReportsWithinBounds nIterations nBatch "average newfstatat: %lld ns\n"
        "average newfstat: %lld ns\n" t q := by
  refine ⟨?_, ?_⟩
  · intro t q h
    exact reportsWithinBounds hiterations hbatch (prctlAbuseMain_twp hiterations hbatch hfuel) h
  · intro t q h
    exact reportsWithinBounds hiterations hbatch (statBenchMain_twp hiterations hbatch hfuel) h

/-- One call that takes 2^63 nanoseconds is reported with a negative time. -/
theorem not_boundedTruncation_of_one_long_call :
    let times : List (BitVec 64 × BitVec 64) := [(0, 0x8000000000000000)]
    (∀ p ∈ times, p.1 ≤ p.2) ∧ (elapsed times).sum < 2 ^ 64 ∧
      ¬ BoundedTruncation 1 1 times (average 1 (totalOf 1 times)) := by
  refine ⟨by simp, by decide, ?_⟩
  intro h
  have hlt := h.le
  revert hlt
  decide

/-! ### Clocks -/

theorem exists_returns_readings {p : AverageProg ℤ} {Q : ℤ → AverageTranscript → Prop}
    (h : p.twp Q []) (clock : ℕ → BitVec 64) :
    ∃ r t n, p.Returns t r ∧ readings t = (List.range n).map clock := by
  refine Prog.exists_returns_seen h (fun op ns => ?_) clock
  cases op with
  | clockGettime => exact ⟨⟨0, ns⟩, Or.inr (by simp [SyscallBench.Timespec.ns])⟩
  | syscall call => exact ⟨(0 : ℤ), Or.inl rfl⟩
  | printf format args => exact ⟨(), Or.inl rfl⟩

/-- The times of the batches are those of the clock, two by two. -/
theorem times_of_readingsOf {times : List (BitVec 64 × BitVec 64)} {clock : ℕ → BitVec 64} {n : ℕ}
    (h : readingsOf times = (List.range n).map clock) :
    times = (List.range times.length).map fun k => (clock (2 * k), clock (2 * k + 1)) := by
  induction times generalizing clock n with
  | nil => rfl
  | cons p times ih =>
    have hreadings : p.1 :: p.2 :: readingsOf times = (List.range n).map clock := h
    match n with
    | 0 => exact absurd hreadings (List.cons_ne_nil _ _)
    | 1 => exact absurd (List.cons.inj hreadings).2 (List.cons_ne_nil _ _)
    | n + 2 =>
      rw [List.range_succ_eq_map, List.range_succ_eq_map] at hreadings
      simp only [List.map_cons, List.map_map, List.cons.injEq] at hreadings
      obtain ⟨hfirst, hsecond, hrest⟩ := hreadings
      rw [List.length_cons, List.range_succ_eq_map, List.map_cons, List.map_map]
      refine congrArg₂ List.cons (Prod.ext hfirst hsecond) ?_
      exact @ih (fun k => clock (k + 2)) _ hrest

theorem times_of_readings {times times' : List (BitVec 64 × BitVec 64)} {clock : ℕ → BitVec 64}
    {n count : ℕ} (hlength : times.length = count) (hlength' : times'.length = count)
    (h : readingsOf times ++ readingsOf times' = (List.range n).map clock) :
    times ++ times' =
      (List.range (count + count)).map fun k => (clock (2 * k), clock (2 * k + 1)) := by
  have hboth : readingsOf (times ++ times') = (List.range n).map clock := by
    rw [← h, readingsOf, List.flatMap_append]
    rfl
  have htimes := times_of_readingsOf hboth
  rwa [List.length_append, hlength, hlength'] at htimes

/-- Every batch takes 15 nanoseconds. -/
def steadyClock (i : ℕ) : BitVec 64 := BitVec.ofNat 64 (15 * i)

theorem elapsed_steadyClock {k : ℕ} (hk : k < 2000) : steadyClock (2 * k) ≤ steadyClock (2 * k + 1) ∧
    (steadyClock (2 * k + 1)).toNat - (steadyClock (2 * k)).toNat = 15 := by
  rw [BitVec.le_def, steadyClock, steadyClock, BitVec.toNat_ofNat, BitVec.toNat_ofNat,
    Nat.mod_eq_of_lt (by omega), Nat.mod_eq_of_lt (by omega)]
  omega

/-- The sizes in the source. 15 nanoseconds for 8 calls are reported as 1 for each. -/
theorem averages_within_bounds_steadyClock : ∃ fuel t r times times',
    (prctlAbuseMain 1000 8 fuel).Returns t r ∧
      Reported 1000 8 "average 0xFFFFFFFF: %lld ns\n" "average 0xDEADBEEF: %lld ns\n" times times' t ∧
      (elapsed times).sum = 15000 ∧ average 1000 (totalOf 8 times) = 1 ∧
      BoundedTruncation 1000 8 times (average 1000 (totalOf 8 times)) := by
  obtain ⟨fuel, hfuel⟩ : ∃ fuel, EnoughFuel 1000 8 fuel := ⟨1000, by omega, by omega, by omega⟩
  have hiterations : 1 ≤ 1000 := by omega
  have hbatch : 1 ≤ 8 := by omega
  have hmany : 2 ≤ 1000 * 8 := by omega
  obtain ⟨r, t, n, hreturns, hclock⟩ :=
    exists_returns_readings (prctlAbuseMain_twp hiterations hbatch hfuel) steadyClock
  obtain ⟨times, times', hreported, htruncates⟩ :=
    ((averages_within_bounds hiterations hbatch hfuel).1 t _ hreturns).2 r rfl
  have hpairs := times_of_readings hreported.length hreported.length'
    (hreported.readings.symm.trans hclock)
  have hsteady : ∀ p ∈ times, p.1 ≤ p.2 ∧ p.2.toNat - p.1.toNat = 15 := by
    intro p hp
    have hmem := List.mem_append_left times' hp
    rw [hpairs] at hmem
    obtain ⟨k, hk, rfl⟩ := List.mem_map.mp hmem
    exact elapsed_steadyClock (List.mem_range.mp hk)
  have helapsed : elapsed times = List.replicate 1000 15 := by
    refine List.eq_replicate_iff.mpr ⟨?_, ?_⟩
    · rw [elapsed, List.length_map, hreported.length]
    · intro x hx
      obtain ⟨p, hp, rfl⟩ := List.mem_map.mp hx
      exact (hsteady p hp).2
  have hsum : (elapsed times).sum = 15000 := by
    rw [helapsed, List.sum_replicate]
    rfl
  have hordered : ∀ p ∈ times, p.1 ≤ p.2 := fun p hp => (hsteady p hp).1
  have htimes := htruncates times List.mem_cons_self hordered (by omega)
  refine ⟨fuel, t, r, times, times', hreturns, hreported, hsum, ?_, htimes.average (Or.inl hmany)⟩
  rw [average_eq hiterations hbatch hordered (by omega) (Or.inl hmany), truncatedMean, quotientSum,
    helapsed, List.map_replicate, List.sum_replicate]
  rfl

end VariousStuff.AverageBench
