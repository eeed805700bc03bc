import VariousStuff.InteractivePrograms
import VariousStuff.UserMemory
import Mathlib.Data.List.Nodup

/-! # Programs that read and write memory byte by byte

The calls are the accesses to memory, so the bytes read are observable, not only what
is left in memory. -/
namespace VariousStuff.UserMemory
open Interactive

/-! ## The first byte of a given value -/

def firstMatch (bytes : ℕ → Byte) (target : Byte) (n : ℕ) : Option ℕ :=
  (List.range n).find? fun i => bytes i == target

/-- The bytes up to and including the first match, or all `n` of them. -/
def copyLength (bytes : ℕ → Byte) (target : Byte) (n : ℕ) : ℕ :=
  match firstMatch bytes target n with
  | some k => k + 1
  | none => n

section FirstMatch
variable {bytes bytes' : ℕ → Byte} {target : Byte} {n : ℕ}

theorem firstMatch_eq_some_iff {k : ℕ} :
    firstMatch bytes target n = some k ↔ k < n ∧ bytes k = target ∧ ∀ j < k, bytes j ≠ target := by
  simp only [firstMatch, List.find?_range_eq_some, List.mem_range, beq_iff_eq, Bool.not_eq_true',
    beq_eq_false_iff_ne]
  tauto

theorem firstMatch_eq_none_iff : firstMatch bytes target n = none ↔ ∀ k < n, bytes k ≠ target := by
  simp [firstMatch]

theorem firstMatch_zero : firstMatch bytes target 0 = none := rfl

theorem firstMatch_succ_of_eq (h : bytes 0 = target) : firstMatch bytes target (n + 1) = some 0 :=
  firstMatch_eq_some_iff.mpr ⟨Nat.succ_pos n, h, fun j hj => absurd hj (Nat.not_lt_zero j)⟩

theorem firstMatch_succ_of_ne (h : bytes 0 ≠ target) :
    firstMatch bytes target (n + 1) = (firstMatch (fun i => bytes (i + 1)) target n).map (· + 1) := by
  rw [firstMatch, List.range_succ_eq_map, List.find?_cons_of_neg (by simpa using h), List.find?_map]
  rfl

theorem copyLength_of_some {k : ℕ} (h : firstMatch bytes target n = some k) :
    copyLength bytes target n = k + 1 := by
  rw [copyLength, h]

theorem copyLength_of_none (h : firstMatch bytes target n = none) :
    copyLength bytes target n = n := by
  rw [copyLength, h]

theorem copyLength_succ_of_eq (h : bytes 0 = target) : copyLength bytes target (n + 1) = 1 :=
  copyLength_of_some (firstMatch_succ_of_eq h)

theorem copyLength_succ_of_ne (h : bytes 0 ≠ target) :
    copyLength bytes target (n + 1) = copyLength (fun i => bytes (i + 1)) target n + 1 := by
  rw [copyLength, firstMatch_succ_of_ne h, copyLength]
  cases firstMatch (fun i => bytes (i + 1)) target n with
  | none => rfl
  | some k => rfl

theorem copyLength_le : copyLength bytes target n ≤ n := by
  cases hfirst : firstMatch bytes target n with
  | none => exact Nat.le_of_eq (copyLength_of_none hfirst)
  | some k =>
    rw [copyLength_of_some hfirst]
    exact (firstMatch_eq_some_iff.mp hfirst).1

theorem ne_of_lt_copyLength {i j : ℕ} (hi : i < copyLength bytes target n) (hj : j < i) :
    bytes j ≠ target := by
  cases hfirst : firstMatch bytes target n with
  | none =>
    rw [copyLength_of_none hfirst] at hi
    exact firstMatch_eq_none_iff.mp hfirst j (by omega)
  | some k =>
    rw [copyLength_of_some hfirst] at hi
    exact (firstMatch_eq_some_iff.mp hfirst).2.2 j (by omega)

/-- The search depends on the bytes up to the first match alone. -/
theorem firstMatch_congr (h : ∀ i < copyLength bytes target n, bytes' i = bytes i) :
    firstMatch bytes' target n = firstMatch bytes target n := by
  cases hfirst : firstMatch bytes target n with
  | none =>
    rw [copyLength_of_none hfirst] at h
    rw [firstMatch_eq_none_iff] at hfirst ⊢
    intro k hk
    rw [h k hk]
    exact hfirst k hk
  | some k =>
    rw [copyLength_of_some hfirst] at h
    rw [firstMatch_eq_some_iff] at hfirst ⊢
    obtain ⟨hk, hmatch, hbefore⟩ := hfirst
    refine ⟨hk, (h k (Nat.lt_succ_self k)).trans hmatch, ?_⟩
    intro j hj
    rw [h j (Nat.lt_succ_of_lt hj)]
    exact hbefore j hj

theorem copyLength_congr (h : ∀ i < copyLength bytes target n, bytes' i = bytes i) :
    copyLength bytes' target n = copyLength bytes target n := by
  rw [copyLength, firstMatch_congr h, copyLength]

end FirstMatch

/-! ## Accesses -/

inductive MemCall where
  | read (a : Word)
  | write (a : Word) (b : Byte)

abbrev MemCall.Answer : MemCall → Type
  | .read _ => Byte
  | .write _ _ => Unit

abbrev MemProg := Prog MemCall.Answer

def read (a : Word) : MemProg Byte := Prog.ask (MemCall.read a)

def write (a : Word) (b : Byte) : MemProg Unit := Prog.ask (MemCall.write a b)

/-- Memory, and the addresses read so far, oldest first. -/
structure Traced where
  memory : Memory
  reads : List Word

def access (s : Traced) : ∀ op : MemCall, op.Answer × Traced
  | .read a => (s.memory a, { s with reads := s.reads ++ [a] })
  | .write a b => ((), { s with memory := Function.update s.memory a b })

@[simp] theorem runState_read_bind {α : Type} (a : Word) (f : Byte → MemProg α) (m : Memory)
    (r : List Word) :
    ((read a).bind f).runState access ⟨m, r⟩ = (f (m a)).runState access ⟨m, r ++ [a]⟩ := rfl

@[simp] theorem runState_write_bind {α : Type} (a : Word) (b : Byte) (f : Unit → MemProg α)
    (m : Memory) (r : List Word) :
    ((write a b).bind f).runState access ⟨m, r⟩ =
      (f ()).runState access ⟨Function.update m a b, r⟩ := rfl

/-- The `n` addresses from `a` on. -/
def span (a : Word) (n : ℕ) : List Word := (List.range n).map fun i => a + BitVec.ofNat 64 i

theorem add_ofNat_succ (a : Word) (i : ℕ) :
    a + BitVec.ofNat 64 (i + 1) = a + 1 + BitVec.ofNat 64 i := by bv_omega

theorem span_succ (a : Word) (n : ℕ) : span a (n + 1) = a :: span (a + 1) n := by
  rw [span, List.range_succ_eq_map, List.map_cons, List.map_map, BitVec.add_zero]
  exact congrArg (a :: ·) (List.map_congr_left fun i _ => add_ofNat_succ a i)

theorem mem_span {a x : Word} {n : ℕ} : x ∈ span a n ↔ ∃ i < n, a + BitVec.ofNat 64 i = x := by
  simp [span]

theorem bytesAt_zero (m : Memory) (a : Word) : m.bytesAt a 0 = m a := by
  simp [Memory.bytesAt]

theorem bytesAt_succ (m : Memory) (a : Word) :
    (fun i => m.bytesAt a (i + 1)) = m.bytesAt (a + 1) := by
  funext i
  rw [Memory.bytesAt, Memory.bytesAt, add_ofNat_succ]

/-! ## Copies -/

/-- The first `n` bytes from `a` and from `b` on share no address. -/
def NonOverlapping (a b : Word) (n : ℕ) : Prop :=
  ∀ i < n, ∀ j < n, a + BitVec.ofNat 64 i ≠ b + BitVec.ofNat 64 j

theorem NonOverlapping.tail {a b : Word} {n : ℕ} (h : NonOverlapping a b (n + 1)) :
    NonOverlapping (a + 1) (b + 1) n := by
  intro i hi j hj
  rw [← add_ofNat_succ, ← add_ofNat_succ]
  exact h (i + 1) (Nat.succ_lt_succ hi) (j + 1) (Nat.succ_lt_succ hj)

theorem nonOverlapping_of_le {a b : Word} {n : ℕ} (h : b.toNat + n ≤ a.toNat)
    (ha : a.toNat + n ≤ 2 ^ 64) : NonOverlapping a b n := by
  intro i hi j hj
  bv_omega

theorem Memory.store_congr (m : Memory) (a : Word) {n : ℕ} {bytes bytes' : ℕ → Byte}
    (h : ∀ i < n, bytes i = bytes' i) : m.store a n bytes = m.store a n bytes' := by
  funext x
  rw [Memory.store, Memory.store]
  split
  · next hx => exact h _ hx
  · rfl

theorem Memory.store_of_notMem (m : Memory) {a x : Word} {n : ℕ} (bytes : ℕ → Byte)
    (h : x ∉ span a n) : m.store a n bytes x = m x := by
  apply if_neg
  intro hx
  refine h (mem_span.mpr ⟨(x - a).toNat, hx, ?_⟩)
  bv_omega

theorem Memory.store_update (m : Memory) (a : Word) {n : ℕ} (hn : n < 2 ^ 64) (bytes : ℕ → Byte) :
    Memory.store (Function.update m a (bytes 0)) (a + 1) n (fun i => bytes (i + 1)) =
      m.store a (n + 1) bytes := by
  funext x
  by_cases hx : x = a
  · subst hx
    have hlast : ¬ (x - (x + 1)).toNat < n := by bv_omega
    have hfirst : (x - x).toNat < n + 1 := by bv_omega
    rw [Memory.store, Memory.store, if_neg hlast, if_pos hfirst, Function.update_self,
      BitVec.sub_self]
    rfl
  · have hoffset : (x - a).toNat = (x - (a + 1)).toNat + 1 := by bv_omega
    simp [Memory.store, hx, hoffset]

theorem bytesAt_update {dest src : Word} {n : ℕ} (h : NonOverlapping dest src (n + 1)) (m : Memory)
    (b : Byte) {i : ℕ} (hi : i < n) :
    Memory.bytesAt (Function.update m dest b) (src + 1) i = m.bytesAt src (i + 1) := by
  have hne := h 0 (Nat.succ_pos n) (i + 1) (Nat.succ_lt_succ hi)
  rw [BitVec.add_zero] at hne
  rw [← bytesAt_succ]
  exact Function.update_of_ne hne.symm b m

theorem store_copied {dest src : Word} {n : ℕ} (hn : n < 2 ^ 64)
    (h : NonOverlapping dest src (n + 1)) (m : Memory) :
    Memory.store (Function.update m dest (m src)) (dest + 1) n
        (Memory.bytesAt (Function.update m dest (m src)) (src + 1)) =
      m.store dest (n + 1) (m.bytesAt src) := by
  rw [Memory.store_congr _ _ (fun i hi => bytesAt_update h m (m src) hi), ← bytesAt_zero m src,
    Memory.store_update m dest hn]

/-- `memchr` reads one byte after the other and stops at the first match. -/
def memchr (s : Word) (c : Byte) : ℕ → MemProg (Option Word)
  | 0 => return none
  | n + 1 => do
    let b ← read s
    if b = c then return some s else memchr (s + 1) c n

def memcpy (dest src : Word) : ℕ → MemProg Unit
  | 0 => return ()
  | n + 1 => do
    let b ← read src
    write dest b
    memcpy (dest + 1) (src + 1) n

theorem runState_memchr (s : Word) (c : Byte) (n : ℕ) (m : Memory) (r : List Word) :
    (memchr s c n).runState access ⟨m, r⟩ =
      (some ((firstMatch (m.bytesAt s) c n).map fun k => s + BitVec.ofNat 64 k),
        ⟨m, r ++ span s (copyLength (m.bytesAt s) c n)⟩) := by
  induction n generalizing s r with
  | zero => simp [memchr, firstMatch_zero, copyLength, span]
  | succ n ih =>
    rw [memchr, Prog.bind_eq, runState_read_bind, ← bytesAt_zero m s]
    by_cases hb : m.bytesAt s 0 = c
    · rw [if_pos hb, firstMatch_succ_of_eq hb, copyLength_succ_of_eq hb]
      simp [span]
    · rw [if_neg hb, ih, firstMatch_succ_of_ne hb, copyLength_succ_of_ne hb, span_succ,
        bytesAt_succ, Option.map_map, List.append_assoc]
      simp only [Function.comp_def, add_ofNat_succ, List.cons_append, List.nil_append]

theorem runState_memcpy {dest src : Word} {n : ℕ} (hn : n ≤ 2 ^ 64)
    (h : NonOverlapping dest src n) (m : Memory) (r : List Word) :
    (memcpy dest src n).runState access ⟨m, r⟩ =
      (some (), ⟨m.store dest n (m.bytesAt src), r ++ span src n⟩) := by
  induction n generalizing dest src m r with
  | zero => simp [memcpy, Memory.store_zero, span]
  | succ n ih =>
    rw [memcpy, Prog.bind_eq, runState_read_bind, Prog.bind_eq, runState_write_bind,
      ih (by omega) h.tail, store_copied (by omega) h, span_succ]
    simp

end VariousStuff.UserMemory
