import VariousStuff.SysCallTableFirstHit

/-! # Where the hunt gets

Its rounds come to the words and slots in front of the first hit, and to no others.
Nothing is assumed of the window: where its end wraps around, the hunt need not end. -/
namespace VariousStuff.SysCallTableHunt
open Interactive CStrings KernelNumerals KernelInterface LexicographicSearch

section Places
variable {K : Kernel} {g : Globals} {start depth tgt : Addr}

/-- Word `j` lies in the window, in the arithmetic of addresses, and nothing in the slots
behind it matches. -/
structure Passes (K : Kernel) (start depth : Addr) (j : ℕ) : Prop where
  word_lt : wordAddr start j < start + depth
  barren : ∀ k ≤ maxTries, hitAt K start j k = none

/-- The hunt comes to word `i`, which lies in the window. -/
structure ComesTo (K : Kernel) (start depth : Addr) (i : ℕ) : Prop where
  word_lt : wordAddr start i < start + depth
  before : ∀ j < i, Passes K start depth j

/-- The labels in front of the first hit, with their locals. -/
inductive Place (K : Kernel) (start depth : Addr) : Pc → Prop where
  | word (i : ℕ) (before : ∀ j < i, Passes K start depth j) :
      Place K start depth (.scan (wordAddr start i))
  | slot (i k : ℕ) (tgt : Addr) (comes : ComesTo K start depth i)
      (htgt : adrpTarget K (wordAddr start i) = some tgt) (hk : k ≤ maxTries + 1)
      (hmiss : ∀ k' < k, slotPointer K (slotAddr tgt k') = none) :
      Place K start depth (.scanPg (wordAddr start i) (slotAddr tgt k) k)

theorem hitAt_of_target {i : ℕ} (htgt : adrpTarget K (wordAddr start i) = some tgt) (k : ℕ) :
    hitAt K start i k = (slotPointer K (slotAddr tgt k)).map fun p => (slotAddr tgt k, p) := by
  rw [hitAt, htgt, Option.bind_some, siteHit]

theorem Place.next {i : ℕ} (comes : ComesTo K start depth i)
    (hbarren : ∀ k ≤ maxTries, hitAt K start i k = none) :
    Place K start depth (.scan (wordAddr start i + 4)) := by
  rw [wordAddr_succ]
  refine .word (i + 1) fun j hj => ?_
  rcases Nat.lt_succ_iff_lt_or_eq.mp hj with hlt | rfl
  · exact comes.before j hlt
  · exact ⟨comes.word_lt, hbarren⟩

theorem Place.scan_step {i : ℕ} {pc : Pc} {t : KernelTranscript}
    (before : ∀ j < i, Passes K start depth j)
    (hround : K.Yields (scan g (start + depth) (wordAddr start i)) (.inl pc) t) :
    Place K start depth pc ∧ reports t = [] := by
  by_cases hend : start + depth ≤ wordAddr start i
  · rw [scan, if_pos hend] at hround
    cases hround
  · have hlt : wordAddr start i < start + depth := BitVec.not_le.mp hend
    obtain ⟨u, hrun, -, hreports⟩ := scan_round (K := K) (g := g) hlt
    obtain ⟨hpc, rfl⟩ := Prod.mk.inj (hround.symm.trans hrun)
    obtain rfl := Sum.inl.inj (Option.some.inj hpc)
    refine ⟨?_, hreports⟩
    cases htgt : adrpTarget K (wordAddr start i) with
    | none =>
      refine Place.next ⟨hlt, before⟩ fun k _ => ?_
      rw [hitAt, htgt, Option.bind_none]
    | some tgt =>
      have hslot := Place.slot i 0 tgt ⟨hlt, before⟩ htgt (Nat.zero_le _) (by omega)
      rwa [slotAddr_zero] at hslot

theorem Place.scanPg_step {i k : ℕ} {pc : Pc} {t : KernelTranscript}
    (comes : ComesTo K start depth i) (htgt : adrpTarget K (wordAddr start i) = some tgt)
    (hk : k ≤ maxTries + 1) (hmiss : ∀ k' < k, slotPointer K (slotAddr tgt k') = none)
    (hround : K.Yields (scanPg (wordAddr start i) (slotAddr tgt k) k) (.inl pc) t) :
    Place K start depth pc ∧ reports t = [] := by
  by_cases hlast : k > maxTries
  · rw [scanPg, if_pos hlast] at hround
    obtain ⟨hpc, rfl⟩ := Prod.mk.inj hround
    obtain rfl := Sum.inl.inj (Option.some.inj hpc)
    refine ⟨Place.next comes fun k' hk' => ?_, rfl⟩
    rw [hitAt_of_target htgt, hmiss k' (by omega), Option.map_none]
  · have htries : k ≤ maxTries := Nat.not_lt.mp hlast
    cases hp : slotPointer K (slotAddr tgt k) with
    | some p =>
      obtain ⟨u, hrun, -⟩ := scanPg_round_hit (wordAddr start i) htries hp
      cases hround.symm.trans hrun
    | none =>
      obtain ⟨u, hrun, -, hreports⟩ := scanPg_round_miss (wordAddr start i) htries hp
      obtain ⟨hpc, rfl⟩ := Prod.mk.inj (hround.symm.trans hrun)
      obtain rfl := Sum.inl.inj (Option.some.inj hpc)
      refine ⟨?_, hreports⟩
      rw [incrementPgP, slotAddr_succ]
      refine .slot i (k + 1) tgt comes htgt (by omega) fun k' hk' => ?_
      rcases Nat.lt_succ_iff_lt_or_eq.mp hk' with hlt | rfl
      · exact hmiss k' hlt
      · exact hp

/-- A round that goes on leads from place to place and reports nothing. -/
theorem Place.step {pc pc' : Pc} {t : KernelTranscript} (h : Place K start depth pc)
    (hround : K.Yields (SysCallTableHunt.step g (start + depth) pc) (.inl pc') t) :
    Place K start depth pc' ∧ reports t = [] := by
  cases h with
  | word i before => exact Place.scan_step before hround
  | slot i k tgt comes htgt hk hmiss => exact Place.scanPg_step comes htgt hk hmiss hround

/-- The hunt comes to `pc` after the calls of `t`. -/
def Reaches (K : Kernel) (g : Globals) (start depth : Addr) (t : KernelTranscript) (pc : Pc) : Prop :=
  Prog.Rounds K.answer (step g (start + depth)) (.scan start) t pc

theorem Reaches.place {pc : Pc} {t : KernelTranscript} (h : Reaches K g start depth t pc) :
    Place K start depth pc ∧ reports t = [] := by
  induction h with
  | refl =>
    have hfirst : Place K start depth (.scan (wordAddr start 0)) := .word 0 (by omega)
    rw [wordAddr_zero] at hfirst
    exact ⟨hfirst, rfl⟩
  | tail _ hround ih =>
    obtain ⟨hplace, hreports⟩ := Place.step ih.1 hround
    exact ⟨hplace, by rw [reports_append, ih.2, hreports, List.nil_append]⟩

/-! ## Every place is reached -/

/-- From a word that the hunt comes to, through the slots behind it that do not match. -/
theorem exists_reaches_slot {i : ℕ} {t : KernelTranscript} (comes : ComesTo K start depth i)
    (hword : Reaches K g start depth t (.scan (wordAddr start i)))
    (htgt : adrpTarget K (wordAddr start i) = some tgt) {k : ℕ} (hk : k ≤ maxTries + 1)
    (hmiss : ∀ k' < k, slotPointer K (slotAddr tgt k') = none) :
    ∃ u, Reaches K g start depth u (.scanPg (wordAddr start i) (slotAddr tgt k) k) := by
  induction k with
  | zero =>
    obtain ⟨u, hrun, -⟩ := scan_round (K := K) (g := g) comes.word_lt
    rw [htgt] at hrun
    rw [slotAddr_zero]
    exact ⟨_, Prog.Rounds.tail hword hrun⟩
  | succ k ih =>
    obtain ⟨u, hu⟩ := ih (by omega) fun k' hk' => hmiss k' (by omega)
    obtain ⟨v, hrun, -⟩ :=
      scanPg_round_miss (wordAddr start i) (by omega : k ≤ maxTries) (hmiss k (by omega))
    rw [← slotAddr_succ]
    exact ⟨_, Prog.Rounds.tail hu hrun⟩

theorem exists_reaches_word {i : ℕ} (before : ∀ j < i, Passes K start depth j) :
    ∃ t, Reaches K g start depth t (.scan (wordAddr start i)) := by
  induction i with
  | zero =>
    rw [wordAddr_zero]
    exact ⟨[], .refl⟩
  | succ i ih =>
    obtain ⟨t, ht⟩ := ih fun j hj => before j (by omega)
    have hpasses := before i (by omega)
    have comes : ComesTo K start depth i := ⟨hpasses.word_lt, fun j hj => before j (by omega)⟩
    rw [← wordAddr_succ]
    cases htgt : adrpTarget K (wordAddr start i) with
    | none =>
      obtain ⟨u, hrun, -⟩ := scan_round (K := K) (g := g) comes.word_lt
      rw [htgt] at hrun
      exact ⟨_, Prog.Rounds.tail ht hrun⟩
    | some tgt =>
      have hmiss : ∀ k' < maxTries + 1, slotPointer K (slotAddr tgt k') = none := by
        intro k' hk'
        have hnone := hpasses.barren k' (by omega)
        rwa [hitAt_of_target htgt, Option.map_eq_none_iff] at hnone
      obtain ⟨u, hu⟩ := exists_reaches_slot comes ht htgt (Nat.le_refl _) hmiss
      have hround : K.Yields (step g (start + depth)
          (.scanPg (wordAddr start i) (slotAddr tgt (maxTries + 1)) (maxTries + 1)))
          (.inl (.scan (wordAddr start i + 4))) [] := by
        rw [step, scanPg, if_pos (Nat.lt_succ_self maxTries)]
        rfl
      exact ⟨_, Prog.Rounds.tail hu hround⟩

theorem exists_reaches_iff (pc : Pc) :
    (∃ t, Reaches K g start depth t pc) ↔ Place K start depth pc := by
  constructor
  · intro h
    obtain ⟨t, ht⟩ := h
    exact ht.place.1
  · intro h
    cases h with
    | word i before => exact exists_reaches_word before
    | slot i k tgt comes htgt hk hmiss =>
      obtain ⟨t, ht⟩ := exists_reaches_word (g := g) comes.before
      exact exists_reaches_slot comes ht htgt hk hmiss

end Places

/-! ## Where the hunt stops -/

section Stops
variable {K : Kernel} {g : Globals} {start depth tgt p : Addr} {i k : ℕ}

/-- The hunt comes to word `i`, and slot `k` behind it is the first match. -/
structure StopsAt (K : Kernel) (start depth : Addr) (i k : ℕ) (tgt p : Addr) : Prop where
  comes : ComesTo K start depth i
  target : adrpTarget K (wordAddr start i) = some tgt
  slot_le : k ≤ maxTries
  miss : ∀ k' < k, slotPointer K (slotAddr tgt k') = none
  hit : slotPointer K (slotAddr tgt k) = some p

theorem StopsAt.yields (h : StopsAt K start depth i k tgt p) :
    ∃ fuel t, K.Yields (huntSctAdrp fuel g start depth) 0 t ∧
      reports t = [reportArgs K (slotAddr tgt k) p] := by
  obtain ⟨t, ht⟩ := (exists_reaches_iff (g := g) _).mpr
    (Place.slot i k tgt h.comes h.target (Nat.le_succ_of_le h.slot_le) h.miss)
  obtain ⟨n, hn⟩ := ht.run_loop
  obtain ⟨u, hrun, -, hreports⟩ := scanPg_round_hit (wordAddr start i) h.slot_le h.hit
  have hround : K.Yields (step g (start + depth) (.scanPg (wordAddr start i) (slotAddr tgt k) k))
      (.inr 0) u := hrun
  refine ⟨n + 1, t ++ u, ?_, ?_⟩
  · rw [Kernel.Yields, huntSctAdrp, hn, Prog.run_loop_inr K.answer hround]
  · rw [reports_append, ht.place.2, hreports, List.nil_append]

theorem exists_stopsAt {fuel : ℕ} {t : KernelTranscript}
    (h : K.Yields (huntSctAdrp fuel g start depth) 0 t) :
    ∃ i k tgt p, StopsAt K start depth i k tgt p ∧
      reports t = [reportArgs K (slotAddr tgt k) p] := by
  obtain ⟨pc, u, v, hrounds, hround, rfl⟩ := Prog.exists_rounds_of_run_loop h
  have hreaches : Reaches K g start depth u pc := hrounds
  obtain ⟨hplace, hquiet⟩ := hreaches.place
  cases hplace with
  | word i before =>
    by_cases hend : start + depth ≤ wordAddr start i
    · rw [step, scan, if_pos hend] at hround
      cases hround
    · obtain ⟨w, hrun, -⟩ := scan_round (K := K) (g := g) (BitVec.not_le.mp hend)
      cases hround.symm.trans hrun
  | slot i k tgt comes htgt hk hmiss =>
    rw [step] at hround
    by_cases hlast : k > maxTries
    · rw [scanPg, if_pos hlast] at hround
      cases hround
    · have htries : k ≤ maxTries := Nat.not_lt.mp hlast
      cases hp : slotPointer K (slotAddr tgt k) with
      | none =>
        obtain ⟨w, hrun, -⟩ := scanPg_round_miss (wordAddr start i) htries hp
        cases hround.symm.trans hrun
      | some p =>
        obtain ⟨w, hrun, -, hreports⟩ := scanPg_round_hit (wordAddr start i) htries hp
        obtain ⟨-, rfl⟩ := Prod.mk.inj (hround.symm.trans hrun)
        refine ⟨i, k, tgt, p, ⟨comes, htgt, htries, hmiss, hp⟩, ?_⟩
        rw [reports_append, hquiet, hreports, List.nil_append]

end Stops

end VariousStuff.SysCallTableHunt
