import VariousStuff.CStrings
import VariousStuff.IntArithmetic
import VariousStuff.InteractivePrograms
import VariousStuff.UserMemory
import Mathlib.Data.List.Nodup
import Mathlib.Data.List.Perm.Basic

/-! # Printing the ring of log entries

A 64-bit index becomes an `int`, from which a slot and then a byte offset are computed.
Reading an entry is a call with its offset: nothing keeps it inside the buffer. -/
namespace VariousStuff.SulogTest
open Interactive CStrings UserMemory IntArithmetic

def sulogEntryMax : ℤ := 100

/-- `sizeof(struct sulog_entry)`, which is packed. -/
def sulogEntrySize : ℕ := 5

def sulogBufsiz : ℕ := 100 * sulogEntrySize

/-- `struct sulog_entry`. -/
structure SulogEntry where
  symbol : Byte
  uid : BitVec 32

inductive SulogCall where
  | reboot (magic1 magic2 cmd : ℕ)
  | readEntry (offset : Word)
  | printf (format : String) (args : List PrintArg)
  deriving DecidableEq

/-- The reboot call leaves the index in `latest_index`. -/
abbrev SulogCall.Answer : SulogCall → Type
  | .reboot _ _ _ => Word
  | .readEntry _ => SulogEntry
  | .printf _ _ => Unit

abbrev SulogProg := Prog SulogCall.Answer

abbrev SulogTranscript := Transcript SulogCall.Answer

def lineFormat : String := "index (reordered): %d sym: %c uid: %u\n"

def lineArgs (i : ℤ) (entry : SulogEntry) : List PrintArg :=
  [.num i, .num entry.symbol.toNat, .num entry.uid.toNat]

/-- The slot as a C remainder, which has the sign of the sum. -/
def slotIdx (start i : ℤ) : ℤ := (start + i).tmod sulogEntryMax

/-- The product is taken in `size_t`. -/
def entryOffset (idx : ℤ) : Word := BitVec.ofInt 64 idx * BitVec.ofNat 64 sulogEntrySize

/-- One round of the loop; nothing is known of a run in which an `int` overflows. -/
def printRound (start i : ℤ) : SulogProg (ℤ ⊕ Option ℤ) := do
  if ¬ i < sulogEntryMax then return .inr (some 0)
  if ¬ Fits (start + i) then return .inr none
  let entry ← Prog.ask (SulogCall.readEntry (entryOffset (slotIdx start i)))
  let _ ← Prog.ask (SulogCall.printf lineFormat (lineArgs i entry))
  return .inl (i + 1)

def main (fuel : ℕ) : SulogProg (Option ℤ) := do
  let latestIndex ← Prog.ask (SulogCall.reboot 0xDEADBEEF 99999 0)
  let _ ← Prog.ask (SulogCall.printf "next index: %lu\n" [.num latestIndex.toNat])
  let _ ← Prog.ask (SulogCall.printf "latest entry: %lu\n" [.num (latestIndex - 1).toNat])
  Prog.loop (printRound (narrow latestIndex.toNat)) fuel 0

/-! ## What a run shows -/

/-- The offsets of the entries read. -/
def entryOffsets (t : SulogTranscript) : List Word :=
  t.filterMap fun
    | ⟨.readEntry offset, _⟩ => some offset
    | _ => none

/-- The arguments of the lines printed for entries. -/
def entryLines (t : SulogTranscript) : List (List PrintArg) :=
  t.filterMap fun
    | ⟨.printf format args, _⟩ => if format = lineFormat then some args else none
    | _ => none

/-- The entry at age `i`, counted from the oldest. -/
def agedSlot (latestIndex : Word) (i : ℕ) : ℕ := (latestIndex.toNat + i) % 100

def slotOffset (slot : ℕ) : Word := BitVec.ofNat 64 (sulogEntrySize * slot)

/-- Every slot is read once, from inside the buffer and in age order, and printed. -/
structure AgeOrder (env : ∀ op : SulogCall, op.Answer) (latestIndex : Word)
    (t : SulogTranscript) : Prop where
  inside : ∀ offset ∈ entryOffsets t, offset.toNat + sulogEntrySize ≤ sulogBufsiz
  once : (entryOffsets t).Perm ((List.range 100).map slotOffset)
  order : entryOffsets t = (List.range 100).map fun i => slotOffset (agedSlot latestIndex i)
  lines : entryLines t = (List.range 100).map fun i =>
    lineArgs (i : ℕ) (env (.readEntry (slotOffset (agedSlot latestIndex i))))
  newest : (entryOffsets t).getLast? = some (slotOffset (((latestIndex.toNat : ℤ) - 1) % 100).toNat)

/-- Whatever the buffer holds, the program ends and has printed the whole ring. -/
def PrintsRing (latestIndex : Word) : Prop :=
  ∀ env : (∀ op : SulogCall, op.Answer), env (.reboot 0xDEADBEEF 99999 0) = latestIndex →
    ∀ fuel > 100, ∃ t, (main fuel).run env = (some (some 0), t) ∧ AgeOrder env latestIndex t

/-- The index as an `int` is not negative and stays so in all sums, and what the
conversion drops is a multiple of the ring's size. -/
def IndexFits (latestIndex : Word) : Prop :=
  latestIndex.toNat % 2 ^ 32 ≤ 2 ^ 31 - 100 ∧ 25 ∣ latestIndex.toNat / 2 ^ 32

theorem entryOffsets_append (t u : SulogTranscript) :
    entryOffsets (t ++ u) = entryOffsets t ++ entryOffsets u :=
  List.filterMap_append

theorem entryLines_append (t u : SulogTranscript) :
    entryLines (t ++ u) = entryLines t ++ entryLines u :=
  List.filterMap_append

section Rounds
variable (env : ∀ op : SulogCall, op.Answer) {start i : ℤ}

/-- The calls of a round. -/
def roundCalls (start i : ℤ) : SulogTranscript :=
  [⟨.readEntry (entryOffset (slotIdx start i)), env (.readEntry (entryOffset (slotIdx start i)))⟩,
    ⟨.printf lineFormat (lineArgs i (env (.readEntry (entryOffset (slotIdx start i))))), env _⟩]

theorem printRound_more (hi : i < sulogEntryMax) (hfits : Fits (start + i)) :
    (printRound start i).run env = (some (.inl (i + 1)), roundCalls env start i) := by
  rw [printRound, if_neg (not_not_intro hi), if_neg (not_not_intro hfits)]
  rfl

theorem printRound_end (hi : ¬ i < sulogEntryMax) :
    (printRound start i).run env = (some (.inr (some 0)), []) := by
  rw [printRound, if_pos hi]
  rfl

theorem printRound_undefined (hi : i < sulogEntryMax) (hfits : ¬ Fits (start + i)) :
    (printRound start i).run env = (some (.inr none), []) := by
  rw [printRound, if_neg (not_not_intro hi), if_pos hfits]
  rfl

theorem iterate_add_one (n : ℕ) : (fun i : ℤ => i + 1)^[n] 0 = n := by
  induction n with
  | zero => rfl
  | succ n ih =>
    rw [Function.iterate_succ_apply', ih]
    rfl

theorem loop_rounds {n : ℕ} (hn : n ≤ 100) (hfits : ∀ j < n, Fits (start + (j : ℕ))) (fuel : ℕ) :
    (Prog.loop (printRound start) (n + fuel) 0).run env =
      (((Prog.loop (printRound start) fuel n).run env).1,
        (List.range n).flatMap (fun i : ℕ => roundCalls env start i) ++
          ((Prog.loop (printRound start) fuel n).run env).2) := by
  have hround : ∀ j < n, (printRound start ((fun i : ℤ => i + 1)^[j] 0)).run env =
      (some (.inl ((fun i : ℤ => i + 1)^[j + 1] 0)), roundCalls env start j) := by
    intro j hj
    rw [iterate_add_one, iterate_add_one]
    refine printRound_more env ?_ (hfits j hj)
    rw [sulogEntryMax]
    omega
  have hcalls : (List.range n).flatMap (fun j =>
        ((printRound start ((fun i : ℤ => i + 1)^[j] 0)).run env).2) =
      (List.range n).flatMap fun j : ℕ => roundCalls env start j :=
    List.flatMap_congr fun j hj => congrArg Prod.snd (hround j (List.mem_range.mp hj))
  rw [Prog.run_loop_iterate env (fun j hj => congrArg Prod.fst (hround j hj)) fuel, iterate_add_one,
    hcalls]

theorem entryOffsets_rounds (start : ℤ) (l : List ℕ) :
    entryOffsets (l.flatMap fun i : ℕ => roundCalls env start i) =
      l.map fun i : ℕ => entryOffset (slotIdx start i) := by
  induction l with
  | nil => rfl
  | cons i l ih =>
    rw [List.flatMap_cons, entryOffsets_append, ih]
    rfl

theorem entryLines_rounds (start : ℤ) (l : List ℕ) :
    entryLines (l.flatMap fun i : ℕ => roundCalls env start i) =
      l.map fun i : ℕ => lineArgs i (env (.readEntry (entryOffset (slotIdx start i)))) := by
  induction l with
  | nil => rfl
  | cons i l ih =>
    rw [List.flatMap_cons, entryLines_append, ih]
    rfl

end Rounds

/-! ## Slots and offsets -/

section Slots
variable {latestIndex : Word} {i slot : ℕ}

theorem slotOffset_toNat (h : slot < 100) : (slotOffset slot).toNat = 5 * slot := by
  rw [slotOffset, BitVec.toNat_ofNat, sulogEntrySize]
  omega

theorem agedSlot_lt (latestIndex : Word) (i : ℕ) : agedSlot latestIndex i < 100 :=
  Nat.mod_lt _ (by omega)

theorem entryOffset_slotIdx {start : ℤ} {n : ℕ} (h : start + i = n) :
    entryOffset (slotIdx start i) = slotOffset (n % 100) := by
  have hslot : slotIdx start i = ((n % 100 : ℕ) : ℤ) := by
    rw [slotIdx, h]
    rfl
  rw [hslot, entryOffset, slotOffset, BitVec.ofInt_natCast, Nat.mul_comm, BitVec.ofNat_mul]

/-- A negative sum names no slot, unless its remainder is zero. -/
theorem not_inside_of_neg {start : ℤ} (hneg : start + i < 0) (hmod : (start + i) % 100 ≠ 0) :
    ¬ (entryOffset (slotIdx start i)).toNat + sulogEntrySize ≤ sulogBufsiz := by
  obtain ⟨n, hn⟩ : ∃ n : ℕ, start + i = -(n : ℤ) := ⟨(-(start + i)).toNat, by omega⟩
  have hslot : slotIdx start i = -((n % 100 : ℕ) : ℤ) := by
    rw [slotIdx, hn, Int.neg_tmod]
    rfl
  obtain ⟨k, hk⟩ : ∃ k, k = n % 100 := ⟨_, rfl⟩
  have hwrap : (-((k : ℕ) : ℤ) % 18446744073709551616).toNat = 18446744073709551616 - k := by omega
  have hoffset : (entryOffset (slotIdx start i)).toNat = 18446744073709551616 - 5 * k := by
    have hmul : (entryOffset (slotIdx start i)).toNat =
        (-((k : ℕ) : ℤ) % 18446744073709551616).toNat * 5 % 18446744073709551616 := by
      rw [hslot, ← hk, entryOffset, BitVec.toNat_mul, BitVec.toNat_ofInt]
      rfl
    rw [hmul, hwrap]
    omega
  rw [hoffset, sulogBufsiz, sulogEntrySize]
  omega

theorem agedSlot_perm (latestIndex : Word) :
    ((List.range 100).map (agedSlot latestIndex)).Perm (List.range 100) := by
  have hinj : ∀ i ∈ List.range 100, ∀ j ∈ List.range 100,
      agedSlot latestIndex i = agedSlot latestIndex j → i = j := by
    intro i hi j hj h
    rw [List.mem_range] at hi hj
    simp only [agedSlot] at h
    omega
  refine (List.perm_ext_iff_of_nodup (List.Nodup.map_on hinj List.nodup_range) List.nodup_range).mpr ?_
  intro slot
  rw [List.mem_map, List.mem_range]
  constructor
  · intro h
    obtain ⟨i, -, rfl⟩ := h
    exact agedSlot_lt latestIndex i
  · intro h
    refine ⟨(slot + 100 - latestIndex.toNat % 100) % 100, List.mem_range.mpr (by omega), ?_⟩
    rw [agedSlot]
    omega

/-- 2^32 is 96 modulo the ring's size. -/
theorem dvd_of_mod_eq {n : ℕ} (h : n % 100 = n % 4294967296 % 100) : 25 ∣ n / 4294967296 := by
  have hsplit : n - n % 4294967296 = 4294967296 * (n / 4294967296) :=
    Nat.sub_eq_of_eq_add (Nat.div_add_mod n 4294967296).symm
  have hdvd : 100 ∣ n - n % 4294967296 :=
    Nat.dvd_of_mod_eq_zero (Nat.sub_mod_eq_zero_of_mod_eq h)
  rw [hsplit] at hdvd
  exact Nat.Coprime.dvd_of_dvd_mul_left (by decide) (Nat.dvd_trans (by decide : 25 ∣ 100) hdvd)

theorem narrow_eq (h : latestIndex.toNat % 4294967296 ≤ 2147483647) :
    narrow latestIndex.toNat = ((latestIndex.toNat % 4294967296 : ℕ) : ℤ) := by
  rw [narrow]
  omega

end Slots

/-! ## The whole program -/

section Main
variable {latestIndex : Word}

theorem main_run (env : ∀ op : SulogCall, op.Answer)
    (h : env (.reboot 0xDEADBEEF 99999 0) = latestIndex) (fuel : ℕ) :
    ∃ t, entryOffsets t = [] ∧ entryLines t = [] ∧ (main fuel).run env =
      (((Prog.loop (printRound (narrow latestIndex.toNat)) fuel 0).run env).1,
        t ++ ((Prog.loop (printRound (narrow latestIndex.toNat)) fuel 0).run env).2) := by
  have hnext : ¬ "next index: %lu\n" = lineFormat := by decide
  have hlatest : ¬ "latest entry: %lu\n" = lineFormat := by decide
  refine ⟨[⟨.reboot 0xDEADBEEF 99999 0, latestIndex⟩,
    ⟨.printf "next index: %lu\n" [.num latestIndex.toNat], ()⟩,
    ⟨.printf "latest entry: %lu\n" [.num (latestIndex - 1).toNat], ()⟩], rfl, ?_, ?_⟩
  · simp [entryLines, hnext, hlatest]
  · rw [main, Prog.bind_eq, Prog.ask_bind, Prog.run_call, h]
    rfl

theorem entryOffset_of_indexFits (h : IndexFits latestIndex) (i : ℕ) :
    entryOffset (slotIdx (narrow latestIndex.toNat) i) = slotOffset (agedSlot latestIndex i) := by
  obtain ⟨hlow, hhigh⟩ := h
  have hsum : narrow latestIndex.toNat + (i : ℤ) =
      ((latestIndex.toNat % 4294967296 + i : ℕ) : ℤ) := by
    rw [narrow_eq (by omega)]
    omega
  have hslot : (latestIndex.toNat % 4294967296 + i) % 100 = agedSlot latestIndex i := by
    rw [agedSlot]
    omega
  rw [entryOffset_slotIdx hsum, hslot]

theorem ageOrder_of_entryOffsets {env : ∀ op : SulogCall, op.Answer} {t : SulogTranscript}
    (order : entryOffsets t = (List.range 100).map fun i => slotOffset (agedSlot latestIndex i))
    (lines : entryLines t = (List.range 100).map fun i =>
      lineArgs (i : ℕ) (env (.readEntry (slotOffset (agedSlot latestIndex i))))) :
    AgeOrder env latestIndex t where
  inside := by
    intro offset hoffset
    rw [order] at hoffset
    obtain ⟨i, -, rfl⟩ := List.mem_map.mp hoffset
    have hlt := agedSlot_lt latestIndex i
    rw [slotOffset_toNat hlt, sulogBufsiz, sulogEntrySize]
    omega
  once := by
    have hperm := (agedSlot_perm latestIndex).map slotOffset
    rw [List.map_map] at hperm
    rw [order]
    exact hperm
  order := order
  lines := lines
  newest := by
    have hlast : agedSlot latestIndex 99 = (((latestIndex.toNat : ℤ) - 1) % 100).toNat := by
      rw [agedSlot]
      omega
    rw [order, List.getLast?_map, List.getLast?_range, ← hlast]
    rfl

theorem printsRing_of_indexFits (h : IndexFits latestIndex) : PrintsRing latestIndex := by
  intro env hindex fuel hfuel
  obtain ⟨t, hoffsets, hlines, hrun⟩ := main_run env hindex fuel
  obtain ⟨rest, rfl⟩ : ∃ rest, fuel = 100 + (rest + 1) := ⟨fuel - 101, by omega⟩
  have hfits : ∀ j < 100, Fits (narrow latestIndex.toNat + (j : ℕ)) := by
    intro j hj
    have hlow := h.1
    rw [narrow_eq (by omega), fits_iff]
    omega
  have hend := Prog.run_loop_inr env
    (@printRound_end env (narrow latestIndex.toNat) (100 : ℕ) (by decide)) rest
  rw [loop_rounds env (Nat.le_refl 100) hfits, hend, List.append_nil] at hrun
  refine ⟨_, hrun, ageOrder_of_entryOffsets ?_ ?_⟩
  · rw [entryOffsets_append, hoffsets, entryOffsets_rounds, List.nil_append]
    exact List.map_congr_left fun i _ => entryOffset_of_indexFits h i
  · rw [entryLines_append, hlines, entryLines_rounds, List.nil_append]
    exact List.map_congr_left fun i _ => by rw [entryOffset_of_indexFits h i]

theorem getElem?_entryOffsets {env : ∀ op : SulogCall, op.Answer} {fuel i n : ℕ}
    {r : Option (Option ℤ)} {t : SulogTranscript}
    (hindex : env (.reboot 0xDEADBEEF 99999 0) = latestIndex) (hrun : (main fuel).run env = (r, t))
    (hi : i < n) (hn : n ≤ 100) (hfuel : n ≤ fuel)
    (hfits : ∀ j < n, Fits (narrow latestIndex.toNat + (j : ℕ))) :
    (entryOffsets t)[i]? = some (entryOffset (slotIdx (narrow latestIndex.toNat) i)) := by
  obtain ⟨u, hoffsets, -, hmain⟩ := main_run env hindex fuel
  obtain ⟨rest, rfl⟩ : ∃ rest, fuel = n + rest := ⟨fuel - n, by omega⟩
  rw [hrun, loop_rounds env hn hfits] at hmain
  obtain ⟨-, rfl⟩ := Prod.mk.inj hmain
  rw [entryOffsets_append, hoffsets, List.nil_append, entryOffsets_append, entryOffsets_rounds,
    List.getElem?_append_left (by simpa using hi), List.getElem?_map, List.getElem?_range hi]
  rfl

/-- An index that is negative as an `int` leads outside the buffer at once. -/
theorem nonneg_of_inside {env : ∀ op : SulogCall, op.Answer} {fuel : ℕ}
    {r : Option (Option ℤ)} {t : SulogTranscript}
    (hindex : env (.reboot 0xDEADBEEF 99999 0) = latestIndex) (hrun : (main fuel).run env = (r, t))
    (hfuel : 2 ≤ fuel)
    (hinside : ∀ offset ∈ entryOffsets t, offset.toNat + sulogEntrySize ≤ sulogBufsiz) :
    0 ≤ narrow latestIndex.toNat := by
  by_contra hneg
  have hlow : -2147483648 ≤ narrow latestIndex.toNat := (fits_narrow _).1
  have hfits : ∀ j < 2, Fits (narrow latestIndex.toNat + (j : ℕ)) := by
    intro j hj
    rw [fits_iff]
    omega
  by_cases hmod : narrow latestIndex.toNat % 100 = 0
  · have hread := getElem?_entryOffsets hindex hrun (by omega : 1 < 2) (by omega) hfuel hfits
    exact not_inside_of_neg (by omega) (by omega) (hinside _ (List.mem_of_getElem? hread))
  · have hread := getElem?_entryOffsets hindex hrun (by omega : 0 < 2) (by omega) hfuel hfits
    exact not_inside_of_neg (by omega) (by omega) (hinside _ (List.mem_of_getElem? hread))

/-- Too large an index makes a sum overflow before the ring is printed. -/
theorem main_undefined {env : ∀ op : SulogCall, op.Answer} {fuel : ℕ}
    (hindex : env (.reboot 0xDEADBEEF 99999 0) = latestIndex) (hfuel : 100 < fuel)
    (hlow : 2147483548 < narrow latestIndex.toNat) : ((main fuel).run env).1 = some none := by
  have hhigh : narrow latestIndex.toNat ≤ 2147483647 := (fits_narrow _).2
  obtain ⟨n, hn⟩ : ∃ n : ℕ, narrow latestIndex.toNat + (n : ℤ) = 2147483648 :=
    ⟨(2147483648 - narrow latestIndex.toNat).toNat, by omega⟩
  obtain ⟨rest, rfl⟩ : ∃ rest, fuel = n + (rest + 1) := ⟨fuel - n - 1, by omega⟩
  have hfits : ∀ j < n, Fits (narrow latestIndex.toNat + (j : ℕ)) := by
    intro j hj
    rw [fits_iff]
    omega
  have hoverflow : ¬ Fits (narrow latestIndex.toNat + (n : ℤ)) := by
    rw [hn]
    decide
  have hround := printRound_undefined env (by rw [sulogEntryMax]; omega) hoverflow
  obtain ⟨t, -, -, hmain⟩ := main_run env hindex (n + (rest + 1))
  rw [hmain, loop_rounds env (by omega) hfits, Prog.run_loop_inr env hround]

/-- The first slot read is that of the narrowed index, and should be that of the whole one. -/
theorem slot_eq_of_ageOrder {env : ∀ op : SulogCall, op.Answer} {fuel : ℕ}
    {r : Option (Option ℤ)} {t : SulogTranscript}
    (hindex : env (.reboot 0xDEADBEEF 99999 0) = latestIndex) (hrun : (main fuel).run env = (r, t))
    (hfuel : 1 ≤ fuel) (hlow : latestIndex.toNat % 4294967296 ≤ 2147483548)
    (hage : AgeOrder env latestIndex t) :
    latestIndex.toNat % 100 = latestIndex.toNat % 4294967296 % 100 := by
  have hnarrow := @narrow_eq latestIndex (by omega)
  have hfits : ∀ j < 1, Fits (narrow latestIndex.toNat + (j : ℕ)) := by
    intro j hj
    rw [hnarrow, fits_iff]
    omega
  have hread := getElem?_entryOffsets hindex hrun (by omega : 0 < 1) (by omega) hfuel hfits
  have hfirst : narrow latestIndex.toNat + ((0 : ℕ) : ℤ) =
      ((latestIndex.toNat % 4294967296 : ℕ) : ℤ) := by
    rw [hnarrow]
    rfl
  rw [hage.order, List.getElem?_map, List.getElem?_range (by omega), Option.map_some,
    entryOffset_slotIdx hfirst] at hread
  have hslots := congrArg BitVec.toNat (Option.some.inj hread)
  rw [slotOffset_toNat (agedSlot_lt _ _), slotOffset_toNat (Nat.mod_lt _ (by omega)), agedSlot,
    Nat.add_zero] at hslots
  exact Nat.eq_of_mul_eq_mul_left (by omega) hslots

/-- Any answers to the other calls. -/
def answers (latestIndex : Word) : ∀ op : SulogCall, op.Answer
  | .reboot _ _ _ => latestIndex
  | .readEntry _ => ⟨0, 0⟩
  | .printf _ _ => ()

theorem indexFits_of_printsRing (h : PrintsRing latestIndex) : IndexFits latestIndex := by
  have hanswer : answers latestIndex (.reboot 0xDEADBEEF 99999 0) = latestIndex := rfl
  obtain ⟨t, hrun, hage⟩ := h (answers latestIndex) hanswer 101 (by omega)
  have hnonneg := nonneg_of_inside hanswer hrun (by omega) hage.inside
  have hle : narrow latestIndex.toNat ≤ 2147483548 := by
    by_contra hlt
    have hundefined := main_undefined hanswer (by omega : 100 < 101) (Int.not_le.mp hlt)
    rw [hrun] at hundefined
    cases hundefined
  have hlow : latestIndex.toNat % 4294967296 ≤ 2147483548 := by
    rw [narrow] at hnonneg hle
    omega
  exact ⟨hlow, dvd_of_mod_eq (slot_eq_of_ageOrder hanswer hrun (by omega) hlow hage)⟩

end Main

/-- The ring is printed completely and in age order exactly for the fitting indices. -/
theorem printsRing_iff_indexFits (latestIndex : Word) :
    PrintsRing latestIndex ↔ IndexFits latestIndex :=
  ⟨indexFits_of_printsRing, printsRing_of_indexFits⟩

/-- From index 2^31 on the `int` is negative. -/
theorem not_printsRing_of_sign : ¬ PrintsRing 0x80000000 := by
  intro h
  exact absurd (indexFits_of_printsRing h).1 (by decide)

end VariousStuff.SulogTest
