import VariousStuff.ChibiHash64
import Mathlib.Data.List.GetD

/-! # The hash reads every byte of its key and no other

The loops as they move the pointer over the key, with each byte that is read observable. -/
namespace VariousStuff.ChibiHash64
open CStrings Interactive UserMemory

/-! ## Reads inside the key -/

/-- The `n` bytes from `p` on. -/
def keyAt (m : Memory) (p : Word) (n : ℕ) : Text :=
  (List.range n).map fun i => Char.ofNat (m.bytesAt p i).toNat

theorem length_keyAt (m : Memory) (p : Word) (n : ℕ) : (keyAt m p n).length = n := by
  simp [keyAt]

theorem byte_keyAt (m : Memory) (p : Word) {n i : ℕ} (hi : i < n) :
    byte (keyAt m p n) i = (m.bytesAt p i).setWidth 64 := by
  have hlt := (m.bytesAt p i).isLt
  have hvalid : (m.bytesAt p i).toNat.isValidChar := Or.inl (by omega)
  have hchar : (Char.ofNat (m.bytesAt p i).toNat).toNat = (m.bytesAt p i).toNat := by
    rw [Char.ofNat, dif_pos hvalid]
    rfl
  have hget : (keyAt m p n).getD i '\x00' = Char.ofNat (m.bytesAt p i).toNat := by
    simp [keyAt, hi]
  rw [byte, hget, hchar, Nat.mod_eq_of_lt hlt, BitVec.ofNat_toNat]

theorem span_append_span (a : Word) (i k : ℕ) :
    span a i ++ span (a + BitVec.ofNat 64 i) k = span a (i + k) := by
  induction k generalizing i with
  | zero => simp [span]
  | succ k ih =>
    have hnext : a + BitVec.ofNat 64 i + 1 = a + BitVec.ofNat 64 (i + 1) := by bv_omega
    have hlast : span a (i + 1) = span a i ++ [a + BitVec.ofNat 64 i] := by
      simp [span, List.range_succ]
    rw [span_succ, hnext, ← List.singleton_append, ← List.append_assoc, ← hlast, ih (i + 1),
      Nat.add_assoc, Nat.add_comm 1 k]

section Key
variable (m : Memory) (keyIn : Word) (n : ℕ)

theorem runState_byteAt {p : Word} {i : ℕ} (hp : p = keyIn + BitVec.ofNat 64 i) (hi : i < n)
    (r : List Word) :
    (byteAt p).runState access ⟨m, r⟩ = (some (byte (keyAt m keyIn n) i), ⟨m, r ++ [p]⟩) := by
  rw [byte_keyAt m keyIn hi, Memory.bytesAt, ← hp]
  rfl

theorem runState_load32leAt {p : Word} {i : ℕ} (hp : p = keyIn + BitVec.ofNat 64 i)
    (hi : i + 4 ≤ n) (r : List Word) :
    (load32leAt p).runState access ⟨m, r⟩ =
      (some (load32le (keyAt m keyIn n) i), ⟨m, r ++ span p 4⟩) := by
  have hspan : span p 4 = [p, p + 1, p + 2, p + 3] := by
    simp [span, List.range_succ]
  have hp1 : p + 1 = keyIn + BitVec.ofNat 64 (i + 1) := by bv_omega
  have hp2 : p + 2 = keyIn + BitVec.ofNat 64 (i + 2) := by bv_omega
  have hp3 : p + 3 = keyIn + BitVec.ofNat 64 (i + 3) := by bv_omega
  rw [load32leAt, Prog.bind_eq, Prog.runState_bind _ (runState_byteAt m keyIn n hp (by omega) r),
    Prog.bind_eq, Prog.runState_bind _ (runState_byteAt m keyIn n hp1 (by omega) _),
    Prog.bind_eq, Prog.runState_bind _ (runState_byteAt m keyIn n hp2 (by omega) _),
    Prog.bind_eq, Prog.runState_bind _ (runState_byteAt m keyIn n hp3 (by omega) _),
    hspan]
  simp [load32le]

theorem runState_load64leAt {p : Word} {i : ℕ} (hp : p = keyIn + BitVec.ofNat 64 i)
    (hi : i + 8 ≤ n) (r : List Word) :
    (load64leAt p).runState access ⟨m, r⟩ =
      (some (load64le (keyAt m keyIn n) i), ⟨m, r ++ span p 8⟩) := by
  have hhigh : p + 4 = keyIn + BitVec.ofNat 64 (i + 4) := by bv_omega
  rw [load64leAt, Prog.bind_eq, Prog.runState_bind _ (runState_load32leAt m keyIn n hp (by omega) r),
    Prog.bind_eq, Prog.runState_bind _ (runState_load32leAt m keyIn n hhigh (by omega) _), List.append_assoc,
    ← span_append_span p 4 4]
  rfl

/-! ## The loops -/

theorem runState_stripeWordAt {p : Word} {j : ℕ} {i : Fin 4}
    (hp : p = keyIn + BitVec.ofNat 64 (32 * j + 8 * i)) (hi : 32 * j + 8 * i + 8 ≤ n) (h : Lanes)
    (r : List Word) :
    (stripeWordAt (p, h) i).runState access ⟨m, r⟩ =
      (some (p + 8, stripeWord (keyAt m keyIn n) (32 * j) h i), ⟨m, r ++ span p 8⟩) := by
  rw [stripeWordAt, Prog.bind_eq, Prog.runState_bind _ (runState_load64leAt m keyIn n hp hi r)]
  rfl

theorem runState_stripeWords {p : Word} {j : ℕ} (hp : p = keyIn + BitVec.ofNat 64 (32 * j))
    (hj : 32 * j + 32 ≤ n) (h : Lanes) (r : List Word) :
    (([0, 1, 2, 3] : List (Fin 4)).foldlM stripeWordAt (p, h)).runState access ⟨m, r⟩ =
      (some (p + 32, stripeWords (keyAt m keyIn n) h j), ⟨m, r ++ span p 32⟩) := by
  have hp0 : p = keyIn + BitVec.ofNat 64 (32 * j + 8 * (0 : Fin 4)) := hp
  have hp1 : p + 8 = keyIn + BitVec.ofNat 64 (32 * j + 8 * (1 : Fin 4)) := by
    change p + 8 = keyIn + BitVec.ofNat 64 (32 * j + 8)
    bv_omega
  have hp2 : p + 16 = keyIn + BitVec.ofNat 64 (32 * j + 8 * (2 : Fin 4)) := by
    change p + 16 = keyIn + BitVec.ofNat 64 (32 * j + 16)
    bv_omega
  have hp3 : p + 24 = keyIn + BitVec.ofNat 64 (32 * j + 8 * (3 : Fin 4)) := by
    change p + 24 = keyIn + BitVec.ofNat 64 (32 * j + 24)
    bv_omega
  have h16 : p + 8 + 8 = p + 16 := by bv_omega
  have h24 : p + 16 + 8 = p + 24 := by bv_omega
  have h32 : p + 24 + 8 = p + 32 := by bv_omega
  have hspan : span p 32 = span p 8 ++ span (p + 8) 8 ++ span (p + 16) 8 ++ span (p + 24) 8 := by
    rw [← span_append_span p 24 8, ← span_append_span p 16 8, ← span_append_span p 8 8]
    rfl
  have hfit : ∀ i : Fin 4, 32 * j + 8 * (i : ℕ) + 8 ≤ n := fun i => by
    have hi := i.isLt
    omega
  simp only [List.foldlM_cons, List.foldlM_nil, Prog.bind_eq]
  rw [Prog.runState_bind _ (runState_stripeWordAt m keyIn n hp0 (hfit _) h r),
    Prog.runState_bind _ (runState_stripeWordAt m keyIn n hp1 (hfit _) _ _), h16,
    Prog.runState_bind _ (runState_stripeWordAt m keyIn n hp2 (hfit _) _ _), h24,
    Prog.runState_bind _ (runState_stripeWordAt m keyIn n hp3 (hfit _) _ _), h32, hspan]
  simp only [List.append_assoc]
  rfl

/-- Where the first loop is after `j` rounds. -/
def stripeCursor (h : Lanes) (j : ℕ) : Cursor where
  l := n - 32 * j
  p := keyIn + BitVec.ofNat 64 (32 * j)
  h := stripesUpTo (keyAt m keyIn n) h j

theorem stripeCursor_l (h : Lanes) (j : ℕ) : (stripeCursor m keyIn n h j).l = n - 32 * j := rfl

theorem runState_stripeRound {j : ℕ} (hj : 32 * j + 32 ≤ n) (h : Lanes) :
    (stripeRound (stripeCursor m keyIn n h j)).runState access ⟨m, span keyIn (32 * j)⟩ =
      (some (.inl (stripeCursor m keyIn n h (j + 1))), ⟨m, span keyIn (32 * (j + 1))⟩) := by
  have hl : (32 : ℤ) ≤ (stripeCursor m keyIn n h j).l := by
    rw [stripeCursor_l]
    omega
  have hl' : (stripeCursor m keyIn n h j).l - 32 = n - 32 * (j + 1 : ℕ) := by
    rw [stripeCursor_l]
    omega
  have hp : (stripeCursor m keyIn n h j).p = keyIn + BitVec.ofNat 64 (32 * j) := rfl
  have hp' : keyIn + BitVec.ofNat 64 (32 * j) + 32 = keyIn + BitVec.ofNat 64 (32 * (j + 1)) := by
    bv_omega
  rw [stripeRound, if_pos hl, hl', Prog.bind_eq,
    Prog.runState_bind _ (runState_stripeWords m keyIn n hp hj _ _), hp, span_append_span, hp']
  change (some (Sum.inl (Cursor.mk _ _ (stripeWords _ (stripesUpTo _ h j) j))), _) = _
  rw [← stripesUpTo_succ]
  rfl

theorem runState_stripeLoop (h : Lanes) {fuel : ℕ} (hfuel : n / 32 < fuel) :
    (Prog.loop stripeRound fuel ⟨n, keyIn, h⟩).runState access ⟨m, []⟩ =
      (some (stripeCursor m keyIn n h (n / 32)), ⟨m, span keyIn (32 * (n / 32))⟩) := by
  have hstart : (⟨n, keyIn, h⟩ : Cursor) = stripeCursor m keyIn n h 0 := by
    simp [stripeCursor, stripesUpTo_zero]
  have hlast : ¬(32 : ℤ) ≤ (stripeCursor m keyIn n h (n / 32)).l := by
    rw [stripeCursor_l]
    omega
  rw [hstart]
  refine Prog.runState_loop access (stripeCursor m keyIn n h) (fun j => ⟨m, span keyIn (32 * j)⟩)
    ?_ ?_ hfuel
  · intro j hj
    exact runState_stripeRound m keyIn n (by omega) h
  · rw [stripeRound, if_neg hlast]
    rfl

/-- Where the second loop is after `j` rounds. -/
def wordsCursor (h : Lanes) (j : ℕ) : Cursor where
  l := n - (32 * (n / 32) + 8 * j : ℕ)
  p := keyIn + BitVec.ofNat 64 (32 * (n / 32) + 8 * j)
  h := wordsUpTo (keyAt m keyIn n) (32 * (n / 32)) h j

theorem wordsCursor_l (h : Lanes) (j : ℕ) :
    (wordsCursor m keyIn n h j).l = n - (32 * (n / 32) + 8 * j : ℕ) := rfl

theorem runState_eightBytesRound {j : ℕ} (hj : 32 * (n / 32) + 8 * j + 8 ≤ n) (h : Lanes) :
    (eightBytesRound (wordsCursor m keyIn n h j)).runState access
        ⟨m, span keyIn (32 * (n / 32) + 8 * j)⟩ =
      (some (.inl (wordsCursor m keyIn n h (j + 1))),
        ⟨m, span keyIn (32 * (n / 32) + 8 * (j + 1))⟩) := by
  have hl : (8 : ℤ) ≤ (wordsCursor m keyIn n h j).l := by
    rw [wordsCursor_l]
    omega
  have hl' : (wordsCursor m keyIn n h j).l - 8 = n - (32 * (n / 32) + 8 * (j + 1) : ℕ) := by
    rw [wordsCursor_l]
    omega
  obtain ⟨q, hq⟩ : ∃ q, q = 32 * (n / 32) + 8 * j := ⟨_, rfl⟩
  have hnext : 32 * (n / 32) + 8 * (j + 1) = q + 4 + 4 := by omega
  have hp : (wordsCursor m keyIn n h j).p = keyIn + BitVec.ofNat 64 q := by rw [wordsCursor, hq]
  have hp4 : (wordsCursor m keyIn n h j).p + 4 = keyIn + BitVec.ofNat 64 (q + 4) := by
    rw [hp]
    bv_omega
  have hp8 : (wordsCursor m keyIn n h j).p + 8 = keyIn + BitVec.ofNat 64 (q + 4 + 4) := by
    rw [hp]
    bv_omega
  have hcursor : wordsCursor m keyIn n h (j + 1) = ⟨n - (q + 4 + 4 : ℕ),
      keyIn + BitVec.ofNat 64 (q + 4 + 4),
      eightBytes (keyAt m keyIn n) (wordsUpTo (keyAt m keyIn n) (32 * (n / 32)) h j) q⟩ := by
    rw [wordsCursor, wordsUpTo_succ, hnext, hq]
  rw [eightBytesRound, if_pos hl, hl', Prog.bind_eq,
    Prog.runState_bind _ (runState_load32leAt m keyIn n hp (by omega) _), Prog.bind_eq,
    Prog.runState_bind _ (runState_load32leAt m keyIn n hp4 (by omega) _), hp4, hp8, hp, ← hq,
    span_append_span, span_append_span, hnext, hcursor]
  rfl

theorem runState_eightBytesLoop (h : Lanes) {fuel : ℕ} (hfuel : n % 32 / 8 < fuel) :
    (Prog.loop eightBytesRound fuel (wordsCursor m keyIn n h 0)).runState access
        ⟨m, span keyIn (32 * (n / 32))⟩ =
      (some (wordsCursor m keyIn n h (n % 32 / 8)),
        ⟨m, span keyIn (32 * (n / 32) + 8 * (n % 32 / 8))⟩) := by
  have hlast : ¬(8 : ℤ) ≤ (wordsCursor m keyIn n h (n % 32 / 8)).l := by
    rw [wordsCursor_l]
    omega
  refine Prog.runState_loop access (wordsCursor m keyIn n h)
    (fun j => ⟨m, span keyIn (32 * (n / 32) + 8 * j)⟩) ?_ ?_ hfuel
  · intro j hj
    exact runState_eightBytesRound m keyIn n (by omega) h
  · rw [eightBytesRound, if_neg hlast]
    rfl

/-! ## The last bytes -/

/-- The two loads of the last bytes overlap, and leave nothing out. -/
theorem mem_tail_loads {p x : Word} {l : ℕ} (hl : 4 ≤ l) (hl' : l < 8) :
    x ∈ span p 4 ++ span (p + BitVec.ofNat 64 l - 4) 4 ↔ x ∈ span p l := by
  rw [List.mem_append, mem_span, mem_span, mem_span]
  constructor
  · rintro (⟨i, hi, rfl⟩ | ⟨i, hi, rfl⟩)
    · exact ⟨i, by omega, rfl⟩
    · exact ⟨i + (l - 4), by omega, by bv_omega⟩
  · rintro ⟨i, hi, rfl⟩
    by_cases hfirst : i < 4
    · exact Or.inl ⟨i, hfirst, rfl⟩
    · exact Or.inr ⟨i - (l - 4), by omega, by bv_omega⟩

/-- One, two or three bytes are the first, the middle and the last. -/
theorem mem_tail_bytes {p x : Word} {l : ℕ} (hl : 0 < l) (hl' : l < 4) :
    x ∈ [p, p + BitVec.ofNat 64 (l / 2), p + BitVec.ofNat 64 (l - 1)] ↔ x ∈ span p l := by
  have hspan : ∀ k, span p k = (List.range k).map fun i => p + BitVec.ofNat 64 i := fun _ => rfl
  obtain rfl | rfl | rfl : l = 1 ∨ l = 2 ∨ l = 3 := by omega
  · simp [hspan]
  · simp [hspan, List.range_succ]
  · simp [hspan, List.range_succ]

theorem runState_tailAt {s : Cursor} {l : ℕ} (hn : n % 8 = l) (hl : s.l = l)
    (hp : s.p = keyIn + BitVec.ofNat 64 (n - l)) (r : List Word) :
    ∃ u, (tailAt s).runState access ⟨m, r⟩ = (some (tail (keyAt m keyIn n) s.h), ⟨m, r ++ u⟩) ∧
      ∀ x, x ∈ u ↔ x ∈ span s.p l := by
  have hlen : (keyAt m keyIn n).length % 8 = l := by rw [length_keyAt, hn]
  rw [tailAt, tail, hlen, length_keyAt, hl, BitVec.ofInt_natCast]
  by_cases hfour : 4 ≤ l
  · have hfour' : (4 : ℤ) ≤ (l : ℕ) := by omega
    have hlast : s.p + BitVec.ofNat 64 l - 4 = keyIn + BitVec.ofNat 64 (n - l + l - 4) := by
      rw [hp]
      bv_omega
    refine ⟨span s.p 4 ++ span (s.p + BitVec.ofNat 64 l - 4) 4, ?_, fun x =>
      mem_tail_loads hfour (by omega)⟩
    rw [if_pos hfour', if_pos hfour, Prog.bind_eq,
      Prog.runState_bind _ (runState_load32leAt m keyIn n hp (by omega) r), Prog.bind_eq,
      Prog.runState_bind _ (runState_load32leAt m keyIn n hlast (by omega) _), List.append_assoc]
    rfl
  · have hfour' : ¬(4 : ℤ) ≤ (l : ℕ) := by omega
    rw [if_neg hfour', if_neg hfour]
    by_cases hpos : 0 < l
    · have hpos' : (0 : ℤ) < (l : ℕ) := by omega
      have hhalf : ((l : ℕ) : ℤ) / 2 = (l / 2 : ℕ) := by omega
      have hpred : ((l : ℕ) : ℤ) - 1 = (l - 1 : ℕ) := by omega
      have hmiddle : s.p + BitVec.ofNat 64 (l / 2) = keyIn + BitVec.ofNat 64 (n - l + l / 2) := by
        rw [hp, BitVec.add_assoc, ← BitVec.ofNat_add]
      have hlast : s.p + BitVec.ofNat 64 (l - 1) = keyIn + BitVec.ofNat 64 (n - l + l - 1) := by
        rw [hp, BitVec.add_assoc, ← BitVec.ofNat_add, Nat.add_sub_assoc hpos]
      refine ⟨[s.p, s.p + BitVec.ofNat 64 (l / 2), s.p + BitVec.ofNat 64 (l - 1)], ?_, fun x =>
        mem_tail_bytes hpos (by omega)⟩
      rw [if_pos hpos', if_pos hpos, hhalf, hpred, BitVec.ofInt_natCast, BitVec.ofInt_natCast,
        Prog.bind_eq, Prog.runState_bind _ (runState_byteAt m keyIn n hp (by omega) r),
        Prog.bind_eq, Prog.runState_bind _ (runState_byteAt m keyIn n hmiddle (by omega) _),
        Prog.bind_eq, Prog.runState_bind _ (runState_byteAt m keyIn n hlast (by omega) _),
        List.append_assoc, List.append_assoc]
      simp only [Prog.pure_eq, Prog.runState_ret, List.cons_append, List.nil_append]
    · have hpos' : ¬(0 : ℤ) < (l : ℕ) := by omega
      have hzero : l = 0 := by omega
      refine ⟨[], ?_, ?_⟩
      · rw [if_neg hpos', if_neg hpos, List.append_nil]
        rfl
      · rw [hzero]
        exact fun x => Iff.rfl

/-- Hashing a key that is somewhere in the memory gives the hash of its bytes, leaves the memory
as it is, and reads exactly the addresses of the key. -/
theorem chibihash64At_reads_key (seed : Word) {fuel : ℕ} (hn : n < 2 ^ 63) (hfuel : n / 32 + 4 ≤ fuel) :
    ∃ reads, (chibihash64At keyIn n seed fuel).runState access ⟨m, []⟩ =
        (some (chibihash64 (keyAt m keyIn n) seed), ⟨m, reads⟩) ∧
      ∀ x, x ∈ reads ↔ x ∈ span keyIn n := by
  have hbase : n - n % 8 = 32 * (n / 32) + 8 * (n % 32 / 8) := by omega
  have hlen : (BitVec.ofInt 64 (n : ℤ)).toNat = n := by
    rw [BitVec.ofInt_natCast, BitVec.toNat_ofNat, Nat.mod_eq_of_lt (by omega)]
  obtain ⟨c, hc⟩ : ∃ c, c = wordsCursor m keyIn n (stripes (keyAt m keyIn n) (start seed))
    (n % 32 / 8) := ⟨_, rfl⟩
  have hl : c.l = (n % 8 : ℕ) := by
    rw [hc, wordsCursor_l]
    omega
  have hp : c.p = keyIn + BitVec.ofNat 64 (n - n % 8) := by rw [hc, hbase, wordsCursor]
  have hh : c.h = words (keyAt m keyIn n) (stripes (keyAt m keyIn n) (start seed)) := by
    rw [hc, words_eq_wordsUpTo, length_keyAt, wordsCursor]
  obtain ⟨u, htail, hu⟩ := runState_tailAt m keyIn n rfl hl hp (span keyIn (n - n % 8))
  refine ⟨span keyIn (n - n % 8) ++ u, ?_, ?_⟩
  · have hwords : stripeCursor m keyIn n (start seed) (n / 32) =
        wordsCursor m keyIn n (stripes (keyAt m keyIn n) (start seed)) 0 := by
      rw [stripeCursor, wordsCursor, wordsUpTo_zero, stripes_eq_stripesUpTo, length_keyAt,
        Nat.mul_zero, Nat.add_zero]
      push_cast
      rfl
    rw [chibihash64At, Prog.bind_eq,
      Prog.runState_bind _ (runState_stripeLoop m keyIn n (start seed) (by omega)), Prog.bind_eq, hwords,
      Prog.runState_bind _ (runState_eightBytesLoop m keyIn n _ (by omega)), Prog.bind_eq, ← hc,
      ← hbase, Prog.runState_bind _ htail, hlen, hh]
    rw [chibihash64, length_keyAt]
    rfl
  · intro x
    have hsplit : span keyIn (n - n % 8) ++ span c.p (n % 8) = span keyIn n := by
      rw [hp, span_append_span, Nat.sub_add_cancel (Nat.mod_le n 8)]
    rw [← hsplit, List.mem_append, List.mem_append, hu]

end Key

theorem chibihash64At_reads_key_fiveBytes : ∃ reads,
    (chibihash64At 0x1000 (5 : ℕ) 1 8).runState access ⟨fun _ => 0x61, []⟩ =
        (some (chibihash64 (keyAt (fun _ => 0x61) 0x1000 5) 1), ⟨fun _ => 0x61, reads⟩) ∧
      ∀ x, x ∈ reads ↔ x ∈ span 0x1000 5 :=
  chibihash64At_reads_key (fun _ => 0x61) 0x1000 5 1 (by omega) (by omega)

end VariousStuff.ChibiHash64
