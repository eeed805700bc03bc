import VariousStuff.HashTableSet

/-! # Failing allocations of the table of hashes

A `realloc` that fails overwrites the only pointer to the array with null and keeps the
count. That is harmless only while the table is empty. -/
namespace VariousStuff.HashTable
open CStrings ChibiHash64 FirstOccurrences

/-- A call of `table_insert`, and whether its `realloc` would succeed. -/
abbrev Call := Option Text × Bool

/-- The call gets as far as `realloc`, and that fails. -/
def ReallocFails (wrapper : Text → Word) (T : Table) (call : Call) : Prop :=
  call.2 = false ∧ ∃ str, call.1 = some str ∧ wrapper str ≠ 0 ∧
    (T.hashArray = none ∨ T.find (wrapper str) = .ok none)

/-- Failed allocations leave the table intact throughout a history of calls. -/
structure Intact (wrapper : Text → Word) (H : List Call) : Prop where
  /-- The stored hashes and their count stay as they were. -/
  unchanged : ∀ H₁ call T lines, H₁ ++ [call] <+: H →
    inserts wrapper H₁ Table.empty = .ok (T, lines) → ReallocFails wrapper T call →
    ∃ T', tableInsert wrapper call.2 call.1 T = .ok (T', []) ∧
      T'.hashArray.getD [] = T.hashArray.getD [] ∧ T'.hashArrayEntryCount = T.hashArrayEntryCount
  /-- Later calls end as if the failed one had not been made. -/
  forgotten : ∀ H₁ call H₂ T lines, H₁ ++ call :: H₂ <+: H →
    inserts wrapper H₁ Table.empty = .ok (T, lines) → ReallocFails wrapper T call →
    inserts wrapper (call :: H₂) T = inserts wrapper H₂ T
  /-- No insertion and no lookup reads where nothing was written. -/
  safe : ∀ H₁, H₁ <+: H → ∃ T lines, inserts wrapper H₁ Table.empty = .ok (T, lines) ∧
    ∀ arg, ∃ result, lookup wrapper arg T = .ok result

/-- No fresh hash meets a failing `realloc` once a hash has been stored. -/
def FailsOnlyWhileEmpty (wrapper : Text → Word) (H : List Call) : Prop :=
  ∀ H₁ str, H₁ ++ [(some str, false)] <+: H → wrapper str ≠ 0 →
    (∃ str', (some str', true) ∈ H₁ ∧ wrapper str' ≠ 0) →
      ∃ str', (some str', true) ∈ H₁ ∧ wrapper str' = wrapper str

section History
variable {wrapper : Text → Word}

/-- The set of the calls whose `realloc` would succeed. -/
def storedBy (wrapper : Text → Word) (H : List Call) : HashSet :=
  ((H.filter Prod.snd).map Prod.fst).foldl (HashSet.insertString wrapper) HashSet.empty

theorem mem_storedBy (H : List Call) (hash : Word) : hash ∈ (storedBy wrapper H).hashes ↔
    hash ≠ 0 ∧ ∃ str, (some str, true) ∈ H ∧ wrapper str = hash := by
  rw [storedBy, hashes_foldl, mem_storedHashes]
  simp

theorem storedBy_concat_true (H : List Call) (str : Option Text) :
    storedBy wrapper (H ++ [(str, true)]) = (storedBy wrapper H).insertString wrapper str := by
  simp [storedBy]

theorem storedBy_concat_false (H : List Call) (str : Option Text) :
    storedBy wrapper (H ++ [(str, false)]) = storedBy wrapper H := by
  simp [storedBy]

theorem inserts_append {H₁ : List Call} {T T' : Table} {lines : List Line}
    (h : inserts wrapper H₁ T = .ok (T', lines)) (H₂ : List Call) :
    inserts wrapper (H₁ ++ H₂) T = (inserts wrapper H₂ T').map fun r => (r.1, lines ++ r.2) := by
  induction H₁ generalizing T lines with
  | nil =>
    obtain ⟨rfl, rfl⟩ := Prod.mk.inj (Except.ok.inj h)
    rw [List.nil_append]
    cases inserts wrapper H₂ T <;> rfl
  | cons call H₁ ih =>
    obtain ⟨str, succeeds⟩ := call
    cases hcall : tableInsert wrapper succeeds str T with
    | error fault =>
      rw [inserts, hcall] at h
      cases h
    | ok r =>
      obtain ⟨T₁, first⟩ := r
      rw [inserts_cons hcall] at h
      cases hrest : inserts wrapper H₁ T₁ with
      | error fault =>
        rw [hrest] at h
        cases h
      | ok r =>
        rw [hrest] at h
        obtain ⟨rfl, rfl⟩ := Prod.mk.inj (Except.ok.inj h)
        rw [List.cons_append, inserts_cons hcall, ih hrest]
        cases inserts wrapper H₂ r.1 <;> simp [Except.map]

theorem reallocFails_toTable_iff {S : HashSet} {str : Text} :
    ReallocFails wrapper S.toTable (some str, false) ↔
      wrapper str ≠ 0 ∧ wrapper str ∉ S.hashes := by
  constructor
  · rintro ⟨-, str', hstr, hzero, hfresh⟩
    obtain rfl : str = str' := Option.some.inj hstr
    refine ⟨hzero, ?_⟩
    rcases hfresh with harray | hfind
    · by_cases hnil : S.hashes = []
      · rw [hnil]
        exact List.not_mem_nil
      · rw [HashSet.toTable_of_ne_nil hnil] at harray
        cases harray
    · rw [find_toTable] at hfind
      exact List.idxOf?_eq_none_iff.mp (Except.ok.inj hfind)
  · rintro ⟨hzero, hnew⟩
    refine ⟨rfl, str, rfl, hzero, Or.inr ?_⟩
    rw [find_toTable, List.idxOf?_eq_none_iff.mpr hnew]

/-- A `realloc` that fails in the empty table changes nothing. -/
theorem tableInsert_empty_false {S : HashSet} (h : S.hashes = []) {str : Text}
    (hzero : wrapper str ≠ 0) :
    tableInsert wrapper false (some str) S.toTable = .ok (S.toTable, []) := by
  have hnew : wrapper str ∉ S.hashes := by
    rw [h]
    exact List.not_mem_nil
  have hempty : S.toTable = Table.empty := by
    simp [HashSet.toTable, Table.empty, h]
  rw [tableInsert_fresh hzero hnew, hempty]
  rfl

/-- In any other table it loses the array and keeps the count. -/
theorem tableInsert_fresh_false {S : HashSet} {str : Text} (hzero : wrapper str ≠ 0)
    (hnew : wrapper str ∉ S.hashes) : tableInsert wrapper false (some str) S.toTable =
      .ok (⟨none, S.hashes.length⟩, []) :=
  tableInsert_fresh hzero hnew false

/-- From then on every lookup of a nonzero hash indexes a null array. -/
theorem lookup_nullArray {arg : Text} (h : wrapper arg ≠ 0) {n : ℕ} (hn : 0 < n) :
    lookup wrapper arg ⟨none, n⟩ = .error .nullArray := by
  obtain ⟨k, rfl⟩ : ∃ k, n = k + 1 := ⟨n - 1, by omega⟩
  rw [lookup, if_neg h]
  rfl

theorem FailsOnlyWhileEmpty.known_or_empty {H H₁ : List Call} {str : Text}
    (h : FailsOnlyWhileEmpty wrapper H) (hcall : H₁ ++ [(some str, false)] <+: H)
    (hzero : wrapper str ≠ 0) :
    wrapper str ∈ (storedBy wrapper H₁).hashes ∨ (storedBy wrapper H₁).hashes = [] := by
  by_cases hstored : ∃ str', (some str', true) ∈ H₁ ∧ wrapper str' ≠ 0
  · exact Or.inl ((mem_storedBy H₁ _).mpr ⟨hzero, h H₁ str hcall hzero hstored⟩)
  · refine Or.inr (List.eq_nil_iff_forall_not_mem.mpr fun hash hmem => hstored ?_)
    obtain ⟨hne, str', hmem', rfl⟩ := (mem_storedBy H₁ hash).mp hmem
    exact ⟨str', hmem', hne⟩

theorem FailsOnlyWhileEmpty.of_prefix {H H₁ : List Call} (h : FailsOnlyWhileEmpty wrapper H)
    (hle : H₁ <+: H) : FailsOnlyWhileEmpty wrapper H₁ :=
  fun H₂ str hcall => h H₂ str (hcall.trans hle)

theorem inserts_storedBy {H : List Call} (h : FailsOnlyWhileEmpty wrapper H) :
    ∃ lines, inserts wrapper H Table.empty = .ok ((storedBy wrapper H).toTable, lines) := by
  induction H using List.reverseRecOn with
  | nil => exact ⟨[], rfl⟩
  | append_singleton H call ih =>
    obtain ⟨lines, hrun⟩ := ih (h.of_prefix (List.prefix_append H [call]))
    obtain ⟨str, succeeds⟩ := call
    have hcall : ∃ lines', tableInsert wrapper succeeds str (storedBy wrapper H).toTable =
        .ok ((storedBy wrapper (H ++ [(str, succeeds)])).toTable, lines') := by
      cases succeeds with
      | true => exact ⟨_, storedBy_concat_true H str ▸ tableInsert_toTable wrapper _ str⟩
      | false =>
        rw [storedBy_concat_false]
        cases str with
        | none => exact ⟨[], rfl⟩
        | some str =>
          by_cases hzero : wrapper str = 0
          · exact ⟨_, tableInsert_known (Or.inl hzero) false⟩
          · rcases h.known_or_empty List.prefix_rfl hzero with hmem | hnil
            · exact ⟨_, tableInsert_known (Or.inr hmem) false⟩
            · exact ⟨_, tableInsert_empty_false hnil hzero⟩
    obtain ⟨lines', hcall⟩ := hcall
    refine ⟨lines ++ (lines' ++ []), ?_⟩
    rw [inserts_append hrun, inserts_cons hcall]
    rfl

theorem intact_of_failsOnlyWhileEmpty {H : List Call} (h : FailsOnlyWhileEmpty wrapper H) :
    Intact wrapper H := by
  have hfails : ∀ H₁ call T lines, H₁ ++ [call] <+: H →
      inserts wrapper H₁ Table.empty = .ok (T, lines) → ReallocFails wrapper T call →
      tableInsert wrapper call.2 call.1 T = .ok (T, []) := by
    rintro H₁ ⟨str?, succeeds⟩ T lines hcall hrun hfail
    obtain ⟨lines', hrun'⟩ := inserts_storedBy (h.of_prefix ((List.prefix_append H₁ _).trans hcall))
    rw [hrun] at hrun'
    obtain ⟨rfl, -⟩ := Prod.mk.inj (Except.ok.inj hrun')
    have hcases := hfail
    obtain ⟨rfl, str, rfl, -⟩ := hcases
    obtain ⟨hzero, hnew⟩ := reallocFails_toTable_iff.mp hfail
    have hnil := (h.known_or_empty hcall hzero).resolve_left hnew
    exact tableInsert_empty_false hnil hzero
  refine ⟨?_, ?_, ?_⟩
  · intro H₁ call T lines hcall hrun hfail
    exact ⟨T, hfails H₁ call T lines hcall hrun hfail, rfl, rfl⟩
  · rintro H₁ call H₂ T lines hle hrun hfail
    have hcall : H₁ ++ [call] <+: H := List.IsPrefix.trans ⟨H₂, by simp⟩ hle
    rw [inserts_cons (hfails H₁ call T lines hcall hrun hfail)]
    cases inserts wrapper H₂ T <;> rfl
  · intro H₁ hle
    obtain ⟨lines, hrun⟩ := inserts_storedBy (h.of_prefix hle)
    refine ⟨_, lines, hrun, fun arg => ?_⟩
    by_cases hzero : wrapper arg = 0
    · exact ⟨(1, []), by rw [lookup, if_pos hzero]; rfl⟩
    · exact ⟨_, lookup_toTable wrapper _ hzero⟩

theorem Intact.of_prefix {H H₁ : List Call} (h : Intact wrapper H) (hle : H₁ <+: H) :
    Intact wrapper H₁ where
  unchanged H₂ call T lines hcall := h.unchanged H₂ call T lines (hcall.trans hle)
  forgotten H₂ call H₃ T lines hcall := h.forgotten H₂ call H₃ T lines (hcall.trans hle)
  safe H₂ hcall := h.safe H₂ (hcall.trans hle)

theorem failsOnlyWhileEmpty_of_intact {H : List Call} (h : Intact wrapper H) :
    FailsOnlyWhileEmpty wrapper H := by
  induction H using List.reverseRecOn with
  | nil =>
    intro H₁ str hcall
    have hnil := List.prefix_nil.mp hcall
    simp at hnil
  | append_singleton H call ih =>
    have hbefore := ih (h.of_prefix (List.prefix_append H [call]))
    intro H₁ str hcall hzero hstored
    rcases List.prefix_concat_iff.mp hcall with heq | hle
    · obtain ⟨rfl, -⟩ := List.append_inj' heq rfl
      obtain ⟨lines, hrun⟩ := inserts_storedBy hbefore
      by_contra hnone
      have hnew : wrapper str ∉ (storedBy wrapper H₁).hashes := fun hmem =>
        hnone ((mem_storedBy H₁ _).mp hmem).2
      -- the failing call replaces the array, and the array held something
      obtain ⟨T', hT', hblock, -⟩ := h.unchanged H₁ (some str, false) _ lines hcall hrun
        (reallocFails_toTable_iff.mpr ⟨hzero, hnew⟩)
      rw [tableInsert_fresh_false hzero hnew] at hT'
      obtain ⟨rfl, -⟩ := Prod.mk.inj (Except.ok.inj hT')
      rw [block_toTable] at hblock
      have hnil : (storedBy wrapper H₁).hashes = [] := List.map_eq_nil_iff.mp hblock.symm
      obtain ⟨str', hmem, hne⟩ := hstored
      have hstored' := (mem_storedBy H₁ _).mpr ⟨hne, str', hmem, rfl⟩
      rw [hnil] at hstored'
      exact List.not_mem_nil hstored'
    · exact hbefore H₁ str hle hzero hstored

/-- Failed allocations leave the table intact exactly if none of them happens to a fresh
hash when a hash has been stored already. -/
theorem intact_iff_failsOnlyWhileEmpty (wrapper : Text → Word) (H : List Call) :
    Intact wrapper H ↔ FailsOnlyWhileEmpty wrapper H :=
  ⟨failsOnlyWhileEmpty_of_intact, intact_of_failsOnlyWhileEmpty⟩

/-- Two of the literals of `main`, the second without memory for it: the first is lost. -/
theorem second_insert_not_intact :
    ¬ Intact chibihash64Wrapper [(some "abcd".toList, true), (some "efgh".toList, false)] := by
  intro h
  have hfirst : chibihash64Wrapper "abcd".toList ≠ 0 := by decide
  have hsecond : chibihash64Wrapper "efgh".toList ≠ 0 := by decide
  have hdiff : chibihash64Wrapper "abcd".toList ≠ chibihash64Wrapper "efgh".toList := by decide
  obtain ⟨str, hmem, hsame⟩ := failsOnlyWhileEmpty_of_intact h [(some "abcd".toList, true)]
    "efgh".toList List.prefix_rfl hsecond ⟨_, List.mem_singleton.mpr rfl, hfirst⟩
  obtain ⟨hstr, -⟩ := Prod.mk.inj (List.mem_singleton.mp hmem)
  rw [Option.some.inj hstr] at hsame
  exact hdiff hsame

end History

end VariousStuff.HashTable
