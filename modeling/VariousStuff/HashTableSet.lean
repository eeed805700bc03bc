import VariousStuff.FirstOccurrences
import VariousStuff.HashTable
import Mathlib.Data.List.Nodup
import Mathlib.Data.List.Perm.Basic

/-! # The table of hashes refines a set -/
namespace VariousStuff.HashTable
open CStrings ChibiHash64 FirstOccurrences

/-- What the table is for: a set of nonzero hashes, in the order of their insertion. -/
structure HashSet where
  hashes : List Word
  nodup : hashes.Nodup
  nonzero : (0 : Word) ∉ hashes

namespace HashSet

def empty : HashSet := ⟨[], List.nodup_nil, List.not_mem_nil⟩

/-- A hash of zero stands for no string. -/
def insert (S : HashSet) (hash : Word) : HashSet :=
  if h : hash = 0 ∨ hash ∈ S.hashes then S
  else
    { hashes := S.hashes ++ [hash]
      nodup := by
        rw [not_or] at h
        exact S.nodup.append (List.nodup_singleton hash) (List.disjoint_singleton.mpr h.2)
      nonzero := by
        rw [not_or] at h
        rw [List.mem_append, List.mem_singleton, not_or]
        exact ⟨S.nonzero, Ne.symm h.1⟩ }

def insertString (wrapper : Text → Word) (S : HashSet) : Option Text → HashSet
  | none => S
  | some str => S.insert (wrapper str)

/-- The table that holds exactly these hashes. -/
def toTable (S : HashSet) : Table :=
  ⟨if S.hashes = [] then none else some (S.hashes.map some), S.hashes.length⟩

theorem insert_of_known {S : HashSet} {hash : Word} (h : hash = 0 ∨ hash ∈ S.hashes) :
    S.insert hash = S := dif_pos h

theorem hashes_insert {S : HashSet} {hash : Word} (h : hash ≠ 0) :
    (S.insert hash).hashes = insertNew S.hashes hash := by
  by_cases hmem : hash ∈ S.hashes
  · rw [insert_of_known (Or.inr hmem), insertNew_of_mem hmem]
  · rw [insert, dif_neg (not_or.mpr ⟨h, hmem⟩), insertNew_of_notMem hmem]

theorem toTable_empty : empty.toTable = Table.empty := rfl

theorem hashArrayEntryCount_toTable (S : HashSet) :
    S.toTable.hashArrayEntryCount = S.hashes.length := rfl

theorem toTable_of_ne_nil {S : HashSet} (h : S.hashes ≠ []) :
    S.toTable = ⟨some (S.hashes.map some), S.hashes.length⟩ := by
  rw [toTable, if_neg h]

end HashSet

/-! ## The loop over the entries -/

theorem scan_eq_idxOf? {T : Table} (hash : Word) {l : List Word} {i : ℕ}
    (h : ∀ j (hj : j < l.length), T.entry (i + j) = .ok l[j]) :
    scan T hash l.length i = .ok ((l.idxOf? hash).map (· + i)) := by
  induction l generalizing i with
  | nil => rfl
  | cons x l ih =>
    have hx : T.entry i = .ok x := h 0 (Nat.zero_lt_succ _)
    have hrest : ∀ j (hj : j < l.length), T.entry (i + 1 + j) = .ok l[j] := by
      intro j hj
      have hnext := h (j + 1) (Nat.succ_lt_succ hj)
      rwa [← Nat.add_assoc, Nat.add_right_comm] at hnext
    have hstep : scan T hash (l.length + 1) i =
        if x = hash then .ok (some i) else scan T hash l.length (i + 1) := by
      rw [scan, hx]
      rfl
    rw [List.length_cons, hstep, List.idxOf?_cons]
    by_cases heq : x = hash
    · simp [heq]
    · rw [if_neg heq, ih hrest]
      cases l.idxOf? hash <;> simp [heq, Nat.add_comm, Nat.add_left_comm]

section Refinement
variable {S : HashSet}

theorem entry_toTable {i : ℕ} (hi : i < S.hashes.length) : S.toTable.entry i = .ok S.hashes[i] := by
  have hne : S.hashes ≠ [] := by
    intro hnil
    simp [hnil] at hi
  rw [HashSet.toTable_of_ne_nil hne]
  simp [Table.entry, hi]

theorem find_toTable (hash : Word) : S.toTable.find hash = .ok (S.hashes.idxOf? hash) := by
  have hscan := scan_eq_idxOf? (T := S.toTable) hash (l := S.hashes) (i := 0) fun j hj => by
    rw [Nat.zero_add, entry_toTable hj]
  rw [Table.find, HashSet.hashArrayEntryCount_toTable, hscan]
  simp

theorem block_toTable (S : HashSet) : S.toTable.hashArray.getD [] = S.hashes.map some := by
  rw [HashSet.toTable]
  by_cases hnil : S.hashes = []
  · simp [hnil]
  · simp [hnil]

theorem realloc_toTable (S : HashSet) : realloc S.toTable.hashArray (S.hashes.length + 1) true =
    some (S.hashes.map some ++ [none]) := by
  rw [realloc, if_pos rfl, block_toTable]
  simp

theorem skipAntiDup_toTable {hash : Word} (h : hash ≠ 0) (hnew : hash ∉ S.hashes) :
    skipAntiDup hash true S.toTable = (S.insert hash).toTable := by
  have hhashes : (S.insert hash).hashes = S.hashes ++ [hash] := by
    rw [HashSet.hashes_insert h, insertNew_of_notMem hnew]
  rw [skipAntiDup, HashSet.hashArrayEntryCount_toTable, realloc_toTable, HashSet.toTable, hhashes]
  simp

/-- The messages of an insertion. -/
def duplicates (wrapper : Text → Word) (S : HashSet) : Option Text → List Line
  | none => []
  | some str => if wrapper str ∈ S.hashes then [duplicateLine (wrapper str)] else []

/-- A hash of zero or one that is stored already changes nothing. -/
theorem tableInsert_known {wrapper : Text → Word} {str : Text}
    (h : wrapper str = 0 ∨ wrapper str ∈ S.hashes) (succeeds : Bool) :
    tableInsert wrapper succeeds (some str) S.toTable =
      .ok (S.toTable, duplicates wrapper S (some str)) := by
  rw [tableInsert, duplicates]
  by_cases hzero : wrapper str = 0
  · rw [if_pos hzero, hzero, if_neg S.nonzero]
  · have hmem : wrapper str ∈ S.hashes := h.resolve_left hzero
    have hne : S.hashes ≠ [] := List.ne_nil_of_mem hmem
    have harray : S.toTable.hashArray ≠ none := by
      rw [HashSet.toTable_of_ne_nil hne]
      exact Option.some_ne_none _
    obtain ⟨i, hi⟩ : ∃ i, S.hashes.idxOf? (wrapper str) = some i :=
      Option.isSome_iff_exists.mp (List.isSome_idxOf?.mpr hmem)
    rw [if_neg hzero, if_neg harray, if_pos hmem, find_toTable, hi]
    rfl

theorem tableInsert_fresh {wrapper : Text → Word} {str : Text} (h : wrapper str ≠ 0)
    (hnew : wrapper str ∉ S.hashes) (succeeds : Bool) :
    tableInsert wrapper succeeds (some str) S.toTable =
      .ok (skipAntiDup (wrapper str) succeeds S.toTable, []) := by
  rw [tableInsert, if_neg h]
  by_cases harray : S.toTable.hashArray = none
  · rw [if_pos harray]
  · rw [if_neg harray, find_toTable, List.idxOf?_eq_none_iff.mpr hnew]
    rfl

/-- One call, when its `realloc` succeeds, is one insertion into the set. -/
theorem tableInsert_toTable (wrapper : Text → Word) (S : HashSet) (str : Option Text) :
    tableInsert wrapper true str S.toTable =
      .ok ((S.insertString wrapper str).toTable, duplicates wrapper S str) := by
  cases str with
  | none => rfl
  | some str =>
    by_cases hknown : wrapper str = 0 ∨ wrapper str ∈ S.hashes
    · rw [tableInsert_known hknown, HashSet.insertString, HashSet.insert_of_known hknown]
    · obtain ⟨hzero, hnew⟩ := not_or.mp hknown
      rw [tableInsert_fresh hzero hnew, skipAntiDup_toTable hzero hnew, HashSet.insertString,
        duplicates, if_neg hnew]

theorem inserts_cons {wrapper : Text → Word} {succeeds : Bool} {str : Option Text} {T T' : Table}
    {lines : List Line} (h : tableInsert wrapper succeeds str T = .ok (T', lines))
    (rest : List (Option Text × Bool)) :
    inserts wrapper ((str, succeeds) :: rest) T =
      (inserts wrapper rest T').map fun r => (r.1, lines ++ r.2) := by
  rw [inserts, h]
  cases hrest : inserts wrapper rest T' <;> simp [bind, Except.bind, hrest, Except.map, pure, Except.pure]

theorem inserts_toTable (wrapper : Text → Word) (strs : List (Option Text)) (S : HashSet) :
    ∃ lines, inserts wrapper (strs.map fun str => (str, true)) S.toTable =
      .ok ((strs.foldl (HashSet.insertString wrapper) S).toTable, lines) := by
  induction strs generalizing S with
  | nil => exact ⟨[], rfl⟩
  | cons str strs ih =>
    obtain ⟨lines, hrest⟩ := ih (S.insertString wrapper str)
    refine ⟨duplicates wrapper S str ++ lines, ?_⟩
    rw [List.map_cons, inserts_cons (tableInsert_toTable wrapper S str), hrest, List.foldl_cons]
    rfl

end Refinement

/-! ## What a sequence of insertions stores -/

/-- The nonzero hashes of the strings, each once, in the order of first insertion. -/
def storedHashes (wrapper : Text → Word) (strs : List (Option Text)) : List Word :=
  ((strs.filterMap (Option.map wrapper)).filter (· ≠ 0)).eraseDups

theorem storedHashes_concat (wrapper : Text → Word) (strs : List (Option Text)) (str : Option Text)
    {S : HashSet} (h : S.hashes = storedHashes wrapper strs) :
    (S.insertString wrapper str).hashes = storedHashes wrapper (strs ++ [str]) := by
  cases str with
  | none =>
    rw [HashSet.insertString, h, storedHashes, storedHashes, List.filterMap_append]
    simp
  | some str =>
    have hlast : [some str].filterMap (Option.map wrapper) = [wrapper str] := rfl
    rw [HashSet.insertString, storedHashes, List.filterMap_append, hlast, List.filter_append]
    by_cases hzero : wrapper str = 0
    · rw [HashSet.insert_of_known (Or.inl hzero), List.filter_cons_of_neg (by simp [hzero]), h,
        storedHashes, List.filter_nil, List.append_nil]
    · have hkept : [wrapper str].filter (fun hash => decide (hash ≠ 0)) = [wrapper str] :=
        List.filter_cons_of_pos (decide_eq_true hzero)
      rw [HashSet.hashes_insert hzero, hkept, eraseDups_concat, h, storedHashes]

theorem hashes_foldl (wrapper : Text → Word) (strs : List (Option Text)) :
    (strs.foldl (HashSet.insertString wrapper) HashSet.empty).hashes = storedHashes wrapper strs := by
  induction strs using List.reverseRecOn with
  | nil => rfl
  | append_singleton strs str ih =>
    rw [List.foldl_concat]
    exact storedHashes_concat wrapper strs str ih

theorem mem_storedHashes (wrapper : Text → Word) (strs : List (Option Text)) (hash : Word) :
    hash ∈ storedHashes wrapper strs ↔ hash ≠ 0 ∧ ∃ str, some str ∈ strs ∧ wrapper str = hash := by
  have hmap : hash ∈ strs.filterMap (Option.map wrapper) ↔
      ∃ str, some str ∈ strs ∧ wrapper str = hash := by
    simp [List.mem_filterMap]
  rw [storedHashes, List.mem_eraseDups, List.mem_filter, hmap, decide_eq_true_iff]
  exact and_comm

theorem foundLine_ne_notFoundLine (arg : Text) {hash entry : Word} :
    notFoundLine arg hash ≠ foundLine arg hash entry := by
  have hformat : "not found: %s hash: 0x%llx\n" ≠ "found: %s hash: 0x%llx == 0x%llx\n" := by decide
  exact fun h => hformat (congrArg Prod.fst h)

theorem lookup_toTable (wrapper : Text → Word) (S : HashSet) {arg : Text} (h : wrapper arg ≠ 0) :
    lookup wrapper arg S.toTable = .ok (0, [if wrapper arg ∈ S.hashes then
      foundLine arg (wrapper arg) (wrapper arg) else notFoundLine arg (wrapper arg)]) := by
  rw [lookup, if_neg h, find_toTable]
  by_cases hmem : wrapper arg ∈ S.hashes
  · obtain ⟨i, hi⟩ : ∃ i, S.hashes.idxOf? (wrapper arg) = some i :=
      Option.isSome_iff_exists.mp (List.isSome_idxOf?.mpr hmem)
    obtain ⟨hlt, hat, -⟩ := List.idxOf?_eq_some_iff.mp hi
    have hentry : S.toTable.entry i = .ok (wrapper arg) := by
      rw [entry_toTable hlt, hat]
    rw [hi, if_pos hmem]
    simp [bind, Except.bind, hentry, pure, Except.pure]
  · rw [List.idxOf?_eq_none_iff.mpr hmem, if_neg hmem]
    rfl

theorem lookup_toTable_iff (wrapper : Text → Word) (S : HashSet) {arg : Text}
    (h : wrapper arg ≠ 0) : ∃ line, lookup wrapper arg S.toTable = .ok (0, [line]) ∧
      (line = foundLine arg (wrapper arg) (wrapper arg) ↔ wrapper arg ∈ S.hashes) := by
  refine ⟨_, lookup_toTable wrapper S h, ?_⟩
  by_cases hfound : wrapper arg ∈ S.hashes
  · rw [if_pos hfound]
    exact iff_of_true rfl hfound
  · rw [if_neg hfound]
    exact iff_of_false (foundLine_ne_notFoundLine arg) hfound

theorem mem_hashArray_of_inserts {wrapper : Text → Word} {strs : List (Option Text)} {T : Table}
    {lines : List Line}
    (h : inserts wrapper (strs.map fun str => (str, true)) Table.empty = .ok (T, lines)) (hash : Word) :
    some hash ∈ T.hashArray.getD [] ↔ hash ≠ 0 ∧ ∃ str, some str ∈ strs ∧ wrapper str = hash := by
  obtain ⟨lines', hfold⟩ := inserts_toTable wrapper strs HashSet.empty
  rw [HashSet.toTable_empty, h] at hfold
  obtain ⟨rfl, -⟩ := Prod.mk.inj (Except.ok.inj hfold)
  simp only [block_toTable, hashes_foldl, List.mem_map, Option.some.injEq, exists_eq_right,
    mem_storedHashes]

/-- The array holds exactly the nonzero hashes of the inserted strings, each once and in
the order of first insertion, and the count is their number. A lookup finds a string
exactly if one with its hash was inserted, another insertion of a stored hash changes
nothing, and the order of the insertions does not matter for what is stored. -/
theorem inserts_refine_set (wrapper : Text → Word) (strs : List (Option Text)) :
    ∃ T lines, inserts wrapper (strs.map fun str => (str, true)) Table.empty = .ok (T, lines) ∧
      (T.hashArray.getD [] = (storedHashes wrapper strs).map some ∧
        (storedHashes wrapper strs).Nodup ∧
        T.hashArrayEntryCount = (storedHashes wrapper strs).length) ∧
      (∀ arg, wrapper arg ≠ 0 → ∃ line, lookup wrapper arg T = .ok (0, [line]) ∧
        (line = foundLine arg (wrapper arg) (wrapper arg) ↔
          ∃ str, some str ∈ strs ∧ wrapper str = wrapper arg)) ∧
      (∀ str succeeds, (∃ str', some str' ∈ strs ∧ wrapper str' = wrapper str) →
        ∃ lines', tableInsert wrapper succeeds (some str) T = .ok (T, lines')) ∧
      (∀ (strs' : List (Option Text)) T' lines', strs'.Perm strs →
        inserts wrapper (strs'.map fun str => (str, true)) Table.empty = .ok (T', lines') →
        ∀ hash, some hash ∈ T'.hashArray.getD [] ↔ some hash ∈ T.hashArray.getD []) := by
  obtain ⟨lines, hrun⟩ := inserts_toTable wrapper strs HashSet.empty
  obtain ⟨S, hS⟩ : ∃ S, S = strs.foldl (HashSet.insertString wrapper) HashSet.empty := ⟨_, rfl⟩
  rw [← hS] at hrun
  have hhashes : S.hashes = storedHashes wrapper strs := hS ▸ hashes_foldl wrapper strs
  have hmem : ∀ {str}, wrapper str ≠ 0 → (wrapper str ∈ S.hashes ↔
      ∃ str', some str' ∈ strs ∧ wrapper str' = wrapper str) := by
    intro str hzero
    rw [hhashes, mem_storedHashes]
    exact and_iff_right hzero
  refine ⟨S.toTable, lines, hrun, ⟨?_, ?_, ?_⟩, ?_, ?_, ?_⟩
  · rw [block_toTable, hhashes]
  · exact hhashes ▸ S.nodup
  · rw [HashSet.hashArrayEntryCount_toTable, hhashes]
  · intro arg hzero
    obtain ⟨line, hlookup, hline⟩ := lookup_toTable_iff wrapper S hzero
    exact ⟨line, hlookup, hline.trans (hmem hzero)⟩
  · rintro str succeeds hstr
    by_cases hzero : wrapper str = 0
    · exact ⟨_, tableInsert_known (Or.inl hzero) succeeds⟩
    · exact ⟨_, tableInsert_known (Or.inr ((hmem hzero).mpr hstr)) succeeds⟩
  · intro strs' T' lines' hperm hrun' hash
    rw [mem_hashArray_of_inserts hrun', mem_hashArray_of_inserts hrun]
    simp only [hperm.mem_iff]

end VariousStuff.HashTable
