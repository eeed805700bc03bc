import VariousStuff.MemoryAccesses

/-! # `memccpy` copies like the byte-by-byte loop

The search comes first and the block copy after it, so every byte copied is read twice
and nothing behind the match is read at all. -/
namespace VariousStuff.Memccpy
open Interactive UserMemory

/-- A null pointer is `none`. -/
def memccpy (dest src : Word) (c : ℤ) (n : Word) : MemProg (Option Word) := do
  if n = 0 then return none
  let s := src
  let target := BitVec.ofInt 8 c
  let p ← memchr s target n.toNat
  match p with
  | some p =>
    let len := p - s + 1
    memcpy dest src len.toNat
    return some (dest + len)
  | none =>
    memcpy dest src n.toNat
    return none

/-- What the function is for: one byte after the other, until `target` has been copied
or `n` bytes have been. -/
def copyUntil (target : Byte) (dest src : Word) : ℕ → MemProg (Option Word)
  | 0 => return none
  | n + 1 => do
    let b ← read src
    write dest b
    if b = target then return some (dest + 1) else copyUntil target (dest + 1) (src + 1) n

/-- The position behind the copied match, if there is one. -/
def pastMatch (dest : Word) (k : Option ℕ) : Option Word :=
  k.map fun k => dest + BitVec.ofNat 64 (k + 1)

theorem pastMatch_succ (dest : Word) (k : Option ℕ) :
    pastMatch dest (k.map (· + 1)) = pastMatch (dest + 1) k := by
  cases k with
  | none => rfl
  | some k => exact congrArg some (add_ofNat_succ dest (k + 1))

section Runs
variable {dest src : Word}

theorem runState_copyUntil {target : Byte} {n : ℕ} (hn : n ≤ 2 ^ 64) (m : Memory)
    (h : NonOverlapping dest src (copyLength (m.bytesAt src) target n)) (r : List Word) :
    (copyUntil target dest src n).runState access ⟨m, r⟩ =
      (some (pastMatch dest (firstMatch (m.bytesAt src) target n)),
        ⟨m.store dest (copyLength (m.bytesAt src) target n) (m.bytesAt src),
          r ++ span src (copyLength (m.bytesAt src) target n)⟩) := by
  induction n generalizing dest src m r with
  | zero => simp [copyUntil, firstMatch_zero, pastMatch, copyLength, Memory.store_zero, span]
  | succ n ih =>
    rw [copyUntil, Prog.bind_eq, runState_read_bind, Prog.bind_eq, runState_write_bind,
      ← bytesAt_zero m src]
    by_cases hb : m.bytesAt src 0 = target
    · have hone : m.store dest 1 (m.bytesAt src) = Function.update m dest (m.bytesAt src 0) := by
        rw [← Memory.store_update m dest (by omega), Memory.store_zero]
      rw [if_pos hb, firstMatch_succ_of_eq hb, copyLength_succ_of_eq hb, hone]
      simp [pastMatch, span]
    · rw [copyLength_succ_of_ne hb, bytesAt_succ] at h
      -- the bytes to come, up to the match, are those of the memory at the start
      have hrest : ∀ i < copyLength (m.bytesAt (src + 1)) target n,
          Memory.bytesAt (Function.update m dest (m src)) (src + 1) i = m.bytesAt (src + 1) i := by
        intro i hi
        rw [bytesAt_update h m (m src) hi, ← bytesAt_succ]
      have hfirst := firstMatch_congr hrest
      have hlength := copyLength_congr hrest
      have hcount : copyLength (m.bytesAt (src + 1)) target n < 2 ^ 64 :=
        Nat.lt_of_le_of_lt copyLength_le (by omega)
      rw [if_neg hb, bytesAt_zero, ih (by omega) _ (by rw [hlength]; exact h.tail), hlength, hfirst,
        store_copied hcount h, firstMatch_succ_of_ne hb, copyLength_succ_of_ne hb, bytesAt_succ,
        span_succ, pastMatch_succ]
      simp

theorem runState_memccpy {c : ℤ} {n : Word} (m : Memory)
    (h : NonOverlapping dest src (copyLength (m.bytesAt src) (BitVec.ofInt 8 c) n.toNat)) :
    (memccpy dest src c n).runState access ⟨m, []⟩ =
      (some (pastMatch dest (firstMatch (m.bytesAt src) (BitVec.ofInt 8 c) n.toNat)),
        ⟨m.store dest (copyLength (m.bytesAt src) (BitVec.ofInt 8 c) n.toNat) (m.bytesAt src),
          if n = 0 then [] else
            span src (copyLength (m.bytesAt src) (BitVec.ofInt 8 c) n.toNat) ++
              span src (copyLength (m.bytesAt src) (BitVec.ofInt 8 c) n.toNat)⟩) := by
  have hn := n.isLt
  by_cases hzero : n = 0
  · subst hzero
    simp [memccpy, firstMatch_zero, pastMatch, copyLength, Memory.store_zero]
  · have hsearch := runState_memchr src (BitVec.ofInt 8 c) n.toNat m []
    have hcopy := runState_memcpy (Nat.le_of_lt (Nat.lt_of_le_of_lt copyLength_le hn)) h m
      (span src (copyLength (m.bytesAt src) (BitVec.ofInt 8 c) n.toNat))
    rw [memccpy, if_neg hzero, if_neg hzero, Prog.bind_eq, Prog.runState_bind access hsearch]
    cases hfirst : firstMatch (m.bytesAt src) (BitVec.ofInt 8 c) n.toNat with
    | none =>
      rw [copyLength_of_none hfirst] at hcopy ⊢
      exact Prog.runState_bind access hcopy
    | some k =>
      have hk := (firstMatch_eq_some_iff.mp hfirst).1
      have hlen : src + BitVec.ofNat 64 k - src + 1 = BitVec.ofNat 64 (k + 1) := by bv_omega
      have hcount : (BitVec.ofNat 64 (k + 1)).toNat = k + 1 := by
        rw [BitVec.toNat_ofNat, Nat.mod_eq_of_lt (by omega)]
      rw [copyLength_of_some hfirst] at hcopy ⊢
      simp only [Option.map_some, hlen, hcount]
      exact Prog.runState_bind access hcopy

/-- `memccpy` leaves in memory and returns what the byte-by-byte loop does, changes no
byte behind the last one copied and reads none behind the first match. -/
theorem memccpy_refines_copyUntil {c : ℤ} {n : Word} (m : Memory)
    (h : NonOverlapping dest src (copyLength (m.bytesAt src) (BitVec.ofInt 8 c) n.toNat)) :
    ∃ r s s', (memccpy dest src c n).runState access ⟨m, []⟩ = (some r, s) ∧
      (copyUntil (BitVec.ofInt 8 c) dest src n.toNat).runState access ⟨m, []⟩ = (some r, s') ∧
      s.memory = s'.memory ∧
      (∀ a ∉ span dest (copyLength (m.bytesAt src) (BitVec.ofInt 8 c) n.toNat),
        s.memory a = m a) ∧
      (∀ a ∈ s.reads, ∃ i < n.toNat, src + BitVec.ofNat 64 i = a ∧
        ∀ j < i, m.bytesAt src j ≠ BitVec.ofInt 8 c) ∧
      (∀ k < n.toNat, m.bytesAt src k = BitVec.ofInt 8 c →
        (∀ j < k, m.bytesAt src j ≠ BitVec.ofInt 8 c) →
          r = some (dest + BitVec.ofNat 64 (k + 1))) ∧
      ((∀ k < n.toNat, m.bytesAt src k ≠ BitVec.ofInt 8 c) → r = none) := by
  refine ⟨_, _, _, runState_memccpy m h, runState_copyUntil (Nat.le_of_lt n.isLt) m h [], rfl, ?_, ?_, ?_, ?_⟩
  · intro a ha
    exact Memory.store_of_notMem m _ ha
  · intro a ha
    obtain ⟨-, hspan⟩ : ¬ n = 0 ∧
        a ∈ span src (copyLength (m.bytesAt src) (BitVec.ofInt 8 c) n.toNat) := by simpa using ha
    obtain ⟨i, hi, rfl⟩ := mem_span.mp hspan
    exact ⟨i, Nat.lt_of_lt_of_le hi copyLength_le, rfl, fun j hj => ne_of_lt_copyLength hi hj⟩
  · intro k hk hmatch hbefore
    rw [firstMatch_eq_some_iff.mpr ⟨hk, hmatch, hbefore⟩]
    rfl
  · intro hnone
    rw [firstMatch_eq_none_iff.mpr hnone]
    rfl

end Runs

/-- Two letters, then the byte 255. -/
def lettersThen255 : Memory := fun a => if a = 0x1002 then 255 else 97

/-- The negative `c` is the byte 255, found third. -/
theorem memccpy_refines_copyUntil_lettersThen255 :
    ((memccpy 0x2000 0x1000 (-1) 10).runState access ⟨lettersThen255, []⟩).1 =
      some (some 0x2003) := by
  have hlength : copyLength (lettersThen255.bytesAt 0x1000) (BitVec.ofInt 8 (-1)) (10 : Word).toNat =
      3 := by decide
  have hapart : NonOverlapping 0x2000 0x1000
      (copyLength (lettersThen255.bytesAt 0x1000) (BitVec.ofInt 8 (-1)) (10 : Word).toNat) := by
    rw [hlength]
    exact nonOverlapping_of_le (by decide) (by decide)
  obtain ⟨r, s, s', hrun, -, -, -, -, hmatch, -⟩ :=
    memccpy_refines_copyUntil (c := -1) (n := 10) lettersThen255 hapart
  rw [hrun, hmatch 2 (by decide) (by decide) (by decide)]
  rfl

end VariousStuff.Memccpy
