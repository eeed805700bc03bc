import Mathlib.Algebra.Group.Nat.Defs
import Mathlib.Data.List.Basic

/-! # Byte memory, little-endian words and copies that may stop early -/
namespace VariousStuff.UserMemory

abbrev Byte := BitVec 8
abbrev Word := BitVec 64

/-! ## Words as bytes -/

def byteOf (x : Word) (i : ℕ) : Byte := x.extractLsb' (8 * i) 8

/-- The little-endian word of eight bytes. -/
def wordOf (b : ℕ → Byte) : Word := b 7 ++ b 6 ++ b 5 ++ b 4 ++ b 3 ++ b 2 ++ b 1 ++ b 0

theorem getLsbD_append_low {w : ℕ} (x : BitVec w) (y : Byte) {r : ℕ} (hr : r < 8) :
    (x ++ y).getLsbD (8 * 0 + r) = y.getLsbD r := by
  rw [Nat.zero_add, BitVec.getLsbD_append, if_pos hr]

theorem getLsbD_append_high {w : ℕ} (x : BitVec w) (y : Byte) (k r : ℕ) :
    (x ++ y).getLsbD (8 * (k + 1) + r) = x.getLsbD (8 * k + r) := by
  have hk : 8 * (k + 1) + r = 8 * k + r + 8 := by omega
  rw [hk, BitVec.getLsbD_append, if_neg (by omega), Nat.add_sub_cancel]

theorem getLsbD_wordOf (b : ℕ → Byte) {k r : ℕ} (hk : k < 8) (hr : r < 8) :
    (wordOf b).getLsbD (8 * k + r) = (b k).getLsbD r := by
  rw [wordOf]
  match k, hk with
  | 0, _ => exact getLsbD_append_low _ _ hr
  | 1, _ | 2, _ | 3, _ | 4, _ | 5, _ | 6, _ =>
    simp only [getLsbD_append_high]
    exact getLsbD_append_low _ _ hr
  | 7, _ =>
    -- nothing stands in front of the last byte
    simp only [getLsbD_append_high]
    rw [Nat.zero_add]

theorem byteOf_wordOf (b : ℕ → Byte) {i : ℕ} (hi : i < 8) : byteOf (wordOf b) i = b i := by
  apply BitVec.eq_of_getLsbD_eq
  intro j hj
  rw [byteOf, BitVec.getLsbD_extractLsb', getLsbD_wordOf b hi hj]
  simp [hj]

theorem wordOf_byteOf (x : Word) : wordOf (byteOf x) = x := by
  apply BitVec.eq_of_getLsbD_eq
  intro j hj
  have hr : j % 8 < 8 := Nat.mod_lt j (by omega)
  obtain ⟨k, hk⟩ : ∃ k, k = j / 8 := ⟨_, rfl⟩
  rw [← Nat.div_add_mod j 8, ← hk, getLsbD_wordOf _ (by omega) hr, byteOf,
    BitVec.getLsbD_extractLsb']
  simp [hr]

theorem wordOf_congr {b b' : ℕ → Byte} (h : ∀ i < 8, b i = b' i) : wordOf b = wordOf b' := by
  simp only [wordOf, h 0 (by omega), h 1 (by omega), h 2 (by omega), h 3 (by omega),
    h 4 (by omega), h 5 (by omega), h 6 (by omega), h 7 (by omega)]

theorem wordOf_eq_iff (b : ℕ → Byte) (x : Word) : wordOf b = x ↔ ∀ i < 8, b i = byteOf x i := by
  constructor
  · rintro rfl i hi
    exact (byteOf_wordOf b hi).symm
  · intro h
    rw [wordOf_congr h, wordOf_byteOf]

/-! ## Memory -/

abbrev Memory := Word → Byte

namespace Memory

/-- The bytes from `a` on. -/
def bytesAt (m : Memory) (a : Word) (i : ℕ) : Byte := m (a + BitVec.ofNat 64 i)

def load (m : Memory) (a : Word) : Word := wordOf (m.bytesAt a)

/-- The first `n` of `bytes` stored from `a` on. -/
def store (m : Memory) (a : Word) (n : ℕ) (bytes : ℕ → Byte) : Memory := fun x =>
  if (x - a).toNat < n then bytes (x - a).toNat else m x

theorem bytesAt_store (m : Memory) (a : Word) (n : ℕ) (bytes : ℕ → Byte) {i : ℕ} (hi : i < 2 ^ 64) :
    (m.store a n bytes).bytesAt a i = if i < n then bytes i else m.bytesAt a i := by
  have hoffset : (a + BitVec.ofNat 64 i - a).toNat = i := by bv_omega
  simp only [bytesAt, store, hoffset]

theorem store_zero (m : Memory) (a : Word) (bytes : ℕ → Byte) : m.store a 0 bytes = m := by
  funext x
  exact if_neg (Nat.not_lt_zero _)

end Memory

/-! ## Copies between kernel and user space

A copy of `n` bytes faults after `stop` of them, and returns how many were not copied. -/

def copyFromUser (m : Memory) (dst : ℕ → Byte) (src : Word) (n stop : ℕ) : ℕ × (ℕ → Byte) :=
  (n - stop, fun i => if i < min n stop then m.bytesAt src i else dst i)

def copyToUser (m : Memory) (dst : Word) (src : ℕ → Byte) (n stop : ℕ) : ℕ × Memory :=
  (n - stop, m.store dst (min n stop) src)

theorem copyFromUser_complete {m : Memory} {dst : ℕ → Byte} {src : Word} {n stop : ℕ}
    (h : (copyFromUser m dst src n stop).1 = 0) {i : ℕ} (hi : i < n) :
    (copyFromUser m dst src n stop).2 i = m.bytesAt src i := by
  apply if_pos
  have hstop : n - stop = 0 := h
  omega

end VariousStuff.UserMemory
