import VariousStuff.ChibiHash64
import VariousStuff.WordMixers
import Mathlib.Data.List.GetD

/-! # Differences that the hash always notices

The first two running words take up the keys four bytes at a time, and each step on the way to
the result can be undone as long as only one of them differs. -/
namespace VariousStuff.ChibiHash64
open CStrings WordMixers

/-! ## The end of the hash -/

/-- `K` is odd. -/
def kInverse : Word := 0x1515B8835A2DB517

theorem K_mul_kInverse : K * kInverse = 1 := by decide

theorem rotl_eq_rotateLeft (x : Word) {n : ℕ} (hn : 1 ≤ n) (hn' : n < 64) :
    rotl x n = x.rotateLeft n := by
  rw [rotl, BitVec.rotateLeft_def, Nat.mod_eq_of_lt hn', Nat.mod_eq_of_lt (by omega)]

/-- What `finish` does to a single word in its last three lines. -/
def mixOut (x : Word) : Word :=
  let x := x ^^^ (rotl x 15 ^^^ rotl x 42)
  let x := x * K
  x ^^^ (rotl x 13 ^^^ rotl x 31)

theorem mixOut_eq (x : Word) : mixOut x = mixRotations 13 31 (mixRotations 15 42 x * K) := by
  simp only [mixOut, mixRotations]
  rw [rotl_eq_rotateLeft x (by omega) (by omega), rotl_eq_rotateLeft x (by omega) (by omega),
    rotl_eq_rotateLeft _ (by omega) (by omega), rotl_eq_rotateLeft _ (by omega) (by omega)]

theorem mixOut_injective : Function.Injective mixOut := by
  have hwidth : 64 = 2 ^ 6 := rfl
  have hfirst := mixRotations_injective hwidth 15 42
  have hlast := mixRotations_injective hwidth 13 31
  have hmul := mul_right_injective_of_inverse K_mul_kInverse
  intro x y hxy
  rw [mixOut_eq, mixOut_eq] at hxy
  exact hfirst (hmul (hlast hxy))

/-- What `finish` does to the first word. -/
def mixFirst (x : Word) : Word := xorShift 31 (x * K)

theorem mixFirst_injective : Function.Injective mixFirst := by
  have hshift : Function.Injective (xorShift 31 : Word → Word) := xorShift_injective (by omega)
  intro x y hxy
  exact mul_right_injective_of_inverse K_mul_kInverse (hshift hxy)

/-- The last two words and the length decide what is put on top of the first two. -/
theorem finish_eq (len : ℕ) (seed : Word) (h : Lanes) : finish len seed h =
    mixOut ((BitVec.ofNat 64 len * K ^^^ rotl (BitVec.ofNat 64 len * K) 29) + seed ^^^
      (h 1 + (rotl (h 3 * K) 31 ^^^ h 3 >>> 31) +
        mixFirst (h 0 + (rotl (h 2 * K) 31 ^^^ h 2 >>> 31)))) := rfl

/-- Running words that differ in the given one, and only there. -/
structure DifferAt (i : Fin 4) (h h' : Lanes) : Prop where
  ne : h i ≠ h' i
  eq : ∀ j, j ≠ i → h j = h' j

/-- A difference in one of the first two words reaches the result. -/
theorem finish_ne {i : Fin 4} {h h' : Lanes} (hi : i = 0 ∨ i = 1) (hdiffer : DifferAt i h h')
    (len : ℕ) (seed : Word) : finish len seed h ≠ finish len seed h' := by
  intro hfinish
  have hsecond := hdiffer.eq 2 (by rcases hi with rfl | rfl <;> decide)
  have hthird := hdiffer.eq 3 (by rcases hi with rfl | rfl <;> decide)
  rw [finish_eq, finish_eq, hsecond, hthird] at hfinish
  have hsum := (BitVec.xor_right_inj _).mp (mixOut_injective hfinish)
  rcases hi with rfl | rfl
  · rw [hdiffer.eq 1 (by decide)] at hsum
    exact hdiffer.ne (add_right_cancel (mixFirst_injective (add_left_cancel hsum)))
  · rw [hdiffer.eq 0 (by decide)] at hsum
    exact hdiffer.ne (add_right_cancel (add_right_cancel hsum))

/-! ## Loads -/

theorem byte_lt (key : Text) (p : ℕ) : (byte key p).toNat < 256 := by
  have hlt : (key.getD p '\x00').toNat % 256 < 256 := Nat.mod_lt _ (by omega)
  rw [byte, BitVec.toNat_ofNat]
  omega

theorem getLsbD_byte_of_le (key : Text) (p : ℕ) {i : ℕ} (hi : 8 ≤ i) :
    (byte key p).getLsbD i = false := by
  apply Nat.testBit_lt_two_pow
  calc (byte key p).toNat < 2 ^ 8 := byte_lt key p
    _ ≤ 2 ^ i := Nat.pow_le_pow_right (by omega) hi

theorem getLsbD_byte_shiftLeft (key : Text) (p : ℕ) {k r : ℕ} (hr : 8 * k + r < 64) :
    (byte key p <<< (8 * k)).getLsbD (8 * k + r) = (byte key p).getLsbD r := by
  have hplace : ¬8 * k + r < 8 * k := by omega
  rw [BitVec.getLsbD_shiftLeft, Nat.add_sub_cancel_left]
  simp [hr, hplace]

theorem getLsbD_byte_shiftLeft_of_ne (key : Text) (p : ℕ) {j k r : ℕ} (hj : j ≠ k) (hr : r < 8) :
    (byte key p <<< (8 * j)).getLsbD (8 * k + r) = false := by
  rw [BitVec.getLsbD_shiftLeft]
  by_cases hlow : 8 * k + r < 8 * j
  · simp [hlow]
  · rw [getLsbD_byte_of_le key p (by omega), Bool.and_false]

/-- The byte `k` of four is found again in the word. -/
theorem getLsbD_load32le (key : Text) (p : ℕ) {k r : ℕ} (hk : k < 4) (hr : r < 8) :
    (load32le key p).getLsbD (8 * k + r) = (byte key (p + k)).getLsbD r := by
  change (byte key p <<< (8 * 0) ||| byte key (p + 1) <<< (8 * 1) ||| byte key (p + 2) <<< (8 * 2)
    ||| byte key (p + 3) <<< (8 * 3)).getLsbD (8 * k + r) = _
  have hself := getLsbD_byte_shiftLeft key (p + k) (k := k) (r := r) (by omega)
  have hother : ∀ q j, j ≠ k → (byte key q <<< (8 * j)).getLsbD (8 * k + r) = false := fun q j hj =>
    getLsbD_byte_shiftLeft_of_ne key q hj hr
  simp only [BitVec.getLsbD_or]
  obtain rfl | rfl | rfl | rfl : k = 0 ∨ k = 1 ∨ k = 2 ∨ k = 3 := by omega
  · rw [hother _ 1 (by omega), hother _ 2 (by omega), hother _ 3 (by omega)]
    simp
  · rw [hother _ 0 (by omega), hother _ 2 (by omega), hother _ 3 (by omega), hself]
    simp
  · rw [hother _ 0 (by omega), hother _ 1 (by omega), hother _ 3 (by omega), hself]
    simp
  · rw [hother _ 0 (by omega), hother _ 1 (by omega), hother _ 2 (by omega), hself]
    simp

theorem load32le_congr {key key' : Text} {p : ℕ}
    (h : ∀ k, k < 4 → byte key (p + k) = byte key' (p + k)) :
    load32le key p = load32le key' p := by
  have hfirst := h 0 (by omega)
  rw [Nat.add_zero] at hfirst
  rw [load32le, load32le, hfirst, h 1 (by omega), h 2 (by omega), h 3 (by omega)]

theorem load64le_congr {key key' : Text} {p : ℕ}
    (h : ∀ k, k < 8 → byte key (p + k) = byte key' (p + k)) :
    load64le key p = load64le key' p := by
  have hlow : load32le key p = load32le key' p := load32le_congr fun k hk => h k (by omega)
  have hhigh : load32le key (p + 4) = load32le key' (p + 4) := by
    apply load32le_congr
    intro k hk
    rw [Nat.add_assoc]
    exact h (4 + k) (by omega)
  rw [load64le, load64le, hlow, hhigh]

theorem load32le_ne {key key' : Text} {p k : ℕ} (hk : k < 4)
    (h : byte key (p + k) ≠ byte key' (p + k)) : load32le key p ≠ load32le key' p := by
  intro hload
  apply h
  apply BitVec.eq_of_getLsbD_eq
  intro r _
  by_cases hr : r < 8
  · rw [← getLsbD_load32le key p hk hr, ← getLsbD_load32le key' p hk hr, hload]
  · rw [getLsbD_byte_of_le key _ (by omega), getLsbD_byte_of_le key' _ (by omega)]

/-! ## Eight bytes at a time -/

/-- One of the two lines of `eightBytes`. -/
def takeUp (x load : Word) : Word := (x ^^^ load) * K

theorem takeUp_left_injective (load : Word) : Function.Injective (takeUp · load) := by
  intro x y hxy
  exact (BitVec.xor_left_inj _).mp (mul_right_injective_of_inverse K_mul_kInverse hxy)

theorem takeUp_right_injective (x : Word) : Function.Injective (takeUp x) := by
  intro load load' hload
  exact (BitVec.xor_right_inj _).mp (mul_right_injective_of_inverse K_mul_kInverse hload)

theorem eightBytes_zero (key : Text) (h : Lanes) (p : ℕ) :
    eightBytes key h p 0 = takeUp (h 0) (load32le key p) := rfl

theorem eightBytes_one (key : Text) (h : Lanes) (p : ℕ) :
    eightBytes key h p 1 = takeUp (h 1) (load32le key (p + 4)) := rfl

theorem eightBytes_last (key : Text) (h : Lanes) (p : ℕ) {j : Fin 4} (hzero : j ≠ 0) (hone : j ≠ 1) :
    eightBytes key h p j = h j := by
  rw [eightBytes, Function.update_of_ne hone, Function.update_of_ne hzero]

theorem eightBytes_congr {key key' : Text} {p : ℕ} (hlow : load32le key p = load32le key' p)
    (hhigh : load32le key (p + 4) = load32le key' (p + 4)) (h : Lanes) :
    eightBytes key h p = eightBytes key' h p := by
  rw [eightBytes, eightBytes, hlow, hhigh]

theorem DifferAt.eightBytes {i : Fin 4} {h h' : Lanes} (hi : i = 0 ∨ i = 1)
    (hdiffer : DifferAt i h h') {key key' : Text} {p : ℕ}
    (hlow : load32le key p = load32le key' p)
    (hhigh : load32le key (p + 4) = load32le key' (p + 4)) :
    DifferAt i (eightBytes key h p) (eightBytes key' h' p) := by
  rw [← eightBytes_congr hlow hhigh h']
  constructor
  · rcases hi with rfl | rfl
    · exact (takeUp_left_injective _).ne hdiffer.ne
    · exact (takeUp_left_injective _).ne hdiffer.ne
  · intro j hj
    have hsame := hdiffer.eq j hj
    by_cases hzero : j = 0
    · rw [hzero] at hsame ⊢
      rw [eightBytes_zero, eightBytes_zero, hsame]
    · by_cases hone : j = 1
      · rw [hone] at hsame ⊢
        rw [eightBytes_one, eightBytes_one, hsame]
      · rw [eightBytes_last key h p hzero hone, eightBytes_last key h' p hzero hone, hsame]

/-- A different first half makes the first word different. -/
theorem differAt_zero_eightBytes {key key' : Text} {p : ℕ}
    (hlow : load32le key p ≠ load32le key' p)
    (hhigh : load32le key (p + 4) = load32le key' (p + 4)) (h : Lanes) :
    DifferAt 0 (eightBytes key h p) (eightBytes key' h p) := by
  constructor
  · rw [eightBytes_zero, eightBytes_zero]
    exact (takeUp_right_injective _).ne hlow
  · intro j hj
    by_cases hone : j = 1
    · rw [hone, eightBytes_one, eightBytes_one, hhigh]
    · rw [eightBytes_last key h p hj hone, eightBytes_last key' h p hj hone]

/-- A different second half makes the second word different. -/
theorem differAt_one_eightBytes {key key' : Text} {p : ℕ}
    (hlow : load32le key p = load32le key' p)
    (hhigh : load32le key (p + 4) ≠ load32le key' (p + 4)) (h : Lanes) :
    DifferAt 1 (eightBytes key h p) (eightBytes key' h p) := by
  constructor
  · rw [eightBytes_one, eightBytes_one]
    exact (takeUp_right_injective _).ne hhigh
  · intro j hj
    by_cases hzero : j = 0
    · rw [hzero, eightBytes_zero, eightBytes_zero, hlow]
    · rw [eightBytes_last key h p hzero hj, eightBytes_last key' h p hzero hj]

/-! ## Keys that differ in one group -/

/-- Keys that differ in the four bytes from `g` on, and only there. -/
structure GroupDiffers (g : ℕ) (key key' : Text) : Prop where
  ne : ∃ k, k < 4 ∧ byte key (g + k) ≠ byte key' (g + k)
  eq : ∀ p, p < g ∨ g + 4 ≤ p → byte key p = byte key' p

section Groups
variable {g : ℕ} {key key' : Text}

theorem GroupDiffers.load_ne (h : GroupDiffers g key key') : load32le key g ≠ load32le key' g := by
  obtain ⟨k, hk, hne⟩ := h.ne
  exact load32le_ne hk hne

theorem GroupDiffers.load_eq (h : GroupDiffers g key key') {p : ℕ} (hp : p + 4 ≤ g ∨ g + 4 ≤ p) :
    load32le key p = load32le key' p :=
  load32le_congr fun k hk => h.eq (p + k) (by omega)

/-- Eight bytes that hold the group. -/
theorem GroupDiffers.differAt_eightBytes (hdiffer : GroupDiffers g key key') {p : ℕ} {i : Fin 4}
    (hi : i = 0 ∨ i = 1) (hg : g = p + 4 * i) (h : Lanes) :
    DifferAt i (eightBytes key h p) (eightBytes key' h p) := by
  rcases hi with rfl | rfl
  · obtain rfl : g = p := hg
    exact differAt_zero_eightBytes hdiffer.load_ne (hdiffer.load_eq (Or.inr (Nat.le_refl _))) h
  · obtain rfl : g = p + 4 := hg
    exact differAt_one_eightBytes (hdiffer.load_eq (Or.inl (Nat.le_refl _))) hdiffer.load_ne h

theorem GroupDiffers.wordsUpTo_eq (hdiffer : GroupDiffers g key key') {base : ℕ} {m : ℕ}
    (hm : base + 8 * m ≤ g) (h : Lanes) : wordsUpTo key base h m = wordsUpTo key' base h m := by
  induction m with
  | zero => rw [wordsUpTo_zero, wordsUpTo_zero]
  | succ m ih =>
    have hlow : load32le key (base + 8 * m) = load32le key' (base + 8 * m) :=
      hdiffer.load_eq (Or.inl (by omega))
    have hhigh : load32le key (base + 8 * m + 4) = load32le key' (base + 8 * m + 4) :=
      hdiffer.load_eq (Or.inl (by omega))
    rw [wordsUpTo_succ, wordsUpTo_succ, ih (by omega)]
    exact eightBytes_congr hlow hhigh _

/-- From the group on one word differs. -/
theorem GroupDiffers.differAt_wordsUpTo (hdiffer : GroupDiffers g key key') {base j : ℕ} {i : Fin 4}
    (hi : i = 0 ∨ i = 1) (hg : g = base + 8 * j + 4 * i) (h : Lanes) (n : ℕ) :
    DifferAt i (wordsUpTo key base h (j + 1 + n)) (wordsUpTo key' base h (j + 1 + n)) := by
  have hcases : (i : ℕ) = 0 ∨ (i : ℕ) = 1 := by rcases hi with rfl | rfl <;> simp
  induction n with
  | zero =>
    rw [Nat.add_zero, wordsUpTo_succ, wordsUpTo_succ, ← hdiffer.wordsUpTo_eq (by omega)]
    exact hdiffer.differAt_eightBytes hi hg _
  | succ n ih =>
    obtain ⟨q, hq⟩ : ∃ q, q = base + 8 * (j + 1 + n) := ⟨_, rfl⟩
    have hlow : load32le key q = load32le key' q := hdiffer.load_eq (Or.inr (by omega))
    have hhigh : load32le key (q + 4) = load32le key' (q + 4) :=
      hdiffer.load_eq (Or.inr (by omega))
    rw [← Nat.add_assoc, wordsUpTo_succ, wordsUpTo_succ, ← hq]
    exact ih.eightBytes hi hlow hhigh

theorem GroupDiffers.stripes_eq (hdiffer : GroupDiffers g key key')
    (hlen : key.length = key'.length) (hg : 32 * (key.length / 32) ≤ g) (h : Lanes) :
    stripes key h = stripes key' h := by
  have hword : ∀ j, j < key.length / 32 → ∀ h i,
      stripeWord key (32 * j) h i = stripeWord key' (32 * j) h i := by
    intro j hj h i
    have hi := i.isLt
    have hload : load64le key (32 * j + 8 * i) = load64le key' (32 * j + 8 * i) :=
      load64le_congr fun k hk => hdiffer.eq _ (Or.inl (by omega))
    rw [stripeWord, stripeWord, hload]
  rw [stripes, stripes, ← hlen]
  apply List.foldl_ext
  intro h j hj
  have hfun : stripeWord key (32 * j) = stripeWord key' (32 * j) := by
    funext h i
    exact hword j (List.mem_range.mp hj) h i
  rw [hfun]

end Groups

/-! ## The last bytes -/

/-- What the last bytes put on top of the last two words. -/
def tailWords (key : Text) : Word × Word :=
  let l := key.length % 8
  let p := key.length - l
  if 4 ≤ l then (load32le key p, load32le key (p + l - 4))
  else if 0 < l then (byte key p, byte key (p + l / 2) ||| byte key (p + l - 1) <<< 8)
  else (0, 0)

theorem tail_eq (key : Text) (h : Lanes) : tail key h =
    Function.update (Function.update h 2 (h 2 ^^^ (tailWords key).1)) 3
      (h 3 ^^^ (tailWords key).2) := by
  have hne : (3 : Fin 4) ≠ 2 := by decide
  rw [tail, tailWords]
  dsimp only
  split_ifs
  · rw [Function.update_of_ne hne]
  · rw [Function.update_of_ne hne]
  · have hzero : ∀ x : Word, x ^^^ 0 = x := fun _ => BitVec.xor_zero
    rw [hzero, hzero, Function.update_eq_self, Function.update_eq_self]

theorem DifferAt.tail {i : Fin 4} {h h' : Lanes} (hi : i = 0 ∨ i = 1) (hdiffer : DifferAt i h h')
    {key key' : Text} (hwords : tailWords key = tailWords key') :
    DifferAt i (tail key h) (tail key' h') := by
  have htwo : i ≠ 2 := by rcases hi with rfl | rfl <;> decide
  have hthree : i ≠ 3 := by rcases hi with rfl | rfl <;> decide
  rw [tail_eq, tail_eq, hwords]
  constructor
  · rw [Function.update_of_ne hthree, Function.update_of_ne htwo, Function.update_of_ne hthree,
      Function.update_of_ne htwo]
    exact hdiffer.ne
  · intro j hj
    rw [hdiffer.eq 2 htwo.symm, hdiffer.eq 3 hthree.symm]
    by_cases hjthree : j = 3
    · rw [hjthree, Function.update_self, Function.update_self]
    · rw [Function.update_of_ne hjthree, Function.update_of_ne hjthree]
      by_cases hjtwo : j = 2
      · rw [hjtwo, Function.update_self, Function.update_self]
      · rw [Function.update_of_ne hjtwo, Function.update_of_ne hjtwo]
        exact hdiffer.eq j hj

theorem GroupDiffers.tailWords_eq {g : ℕ} {key key' : Text} (hdiffer : GroupDiffers g key key')
    (hlen : key.length = key'.length) (hg : g + 4 ≤ 8 * (key.length / 8)) :
    tailWords key = tailWords key' := by
  have hload : ∀ p, 8 * (key.length / 8) ≤ p → load32le key p = load32le key' p := fun p hp =>
    hdiffer.load_eq (Or.inr (by omega))
  have hbyte : ∀ p, 8 * (key.length / 8) ≤ p → byte key p = byte key' p := fun p hp =>
    hdiffer.eq p (Or.inr (by omega))
  rw [tailWords, tailWords, ← hlen]
  split_ifs
  · rw [hload _ (by omega), hload _ (by omega)]
  · rw [hbyte _ (by omega), hbyte _ (by omega), hbyte _ (by omega)]
  · rfl

/-! ## The whole hash -/

/-- Keys of one length that differ only inside four bytes at a multiple of four, past the stripes
and before the last bytes, never collide, whatever the seed is. -/
theorem chibihash64_ne_of_groupDiffers {key key' : Text} {g : ℕ} (seed : Word)
    (hlen : key.length = key'.length) (halign : 4 ∣ g) (hlow : 32 * (key.length / 32) ≤ g)
    (hhigh : g + 4 ≤ 8 * (key.length / 8)) (hdiffer : GroupDiffers g key key') :
    chibihash64 key seed ≠ chibihash64 key' seed := by
  obtain ⟨i, j, n, hi, hg, hn⟩ : ∃ (i : Fin 4) (j n : ℕ), (i = 0 ∨ i = 1) ∧
      g = 32 * (key.length / 32) + 8 * j + 4 * i ∧ key.length % 32 / 8 = j + 1 + n := by
    obtain ⟨q, rfl⟩ := halign
    obtain hparity | hparity := Nat.mod_two_eq_zero_or_one q
    · exact ⟨0, q / 2 - 4 * (key.length / 32), key.length / 8 - (q / 2 + 1), Or.inl rfl,
        by simp; omega, by omega⟩
    · exact ⟨1, q / 2 - 4 * (key.length / 32), key.length / 8 - (q / 2 + 1), Or.inr rfl,
        by simp; omega, by omega⟩
  have hstripes : stripes key (start seed) = stripes key' (start seed) :=
    hdiffer.stripes_eq hlen hlow _
  have hwords : DifferAt i (words key (stripes key (start seed)))
      (words key' (stripes key' (start seed))) := by
    rw [words_eq_wordsUpTo, words_eq_wordsUpTo, ← hlen, ← hstripes, hn]
    exact hdiffer.differAt_wordsUpTo hi hg _ n
  rw [chibihash64, chibihash64, ← hlen]
  exact finish_ne hi (hwords.tail hi (hdiffer.tailWords_eq hlen hhigh)) _ seed

theorem chibihash64_ne_of_fifth_byte :
    chibihash64 ['/', 's', 'y', 's', '/', 'a', 'b', 'c'] 1 ≠
      chibihash64 ['/', 's', 'y', 's', '!', 'a', 'b', 'c'] 1 := by
  have hdiffer : GroupDiffers 4 ['/', 's', 'y', 's', '/', 'a', 'b', 'c']
      ['/', 's', 'y', 's', '!', 'a', 'b', 'c'] := by
    constructor
    · exact ⟨0, by omega, by decide⟩
    · intro p hp
      by_cases hsmall : p < 4
      · obtain rfl | rfl | rfl | rfl : p = 0 ∨ p = 1 ∨ p = 2 ∨ p = 3 := by omega
        · rfl
        · rfl
        · rfl
        · rfl
      · have hend : 8 ≤ p := by omega
        rw [byte, byte, List.getD_eq_default _ _ hend, List.getD_eq_default _ _ hend]
  exact chibihash64_ne_of_groupDiffers 1 rfl (by decide) (by decide) (by decide) hdiffer

end VariousStuff.ChibiHash64
