import VariousStuff.CStrings
import VariousStuff.MemoryAccesses
import Mathlib.Logic.Function.Basic

/-! # The 64-bit string hash -/
namespace VariousStuff.ChibiHash64
open CStrings

abbrev Word := BitVec 64

/-- The byte at `p`. -/
def byte (key : Text) (p : ℕ) : Word := BitVec.ofNat 64 ((key.getD p '\x00').toNat % 256)

def load32le (key : Text) (p : ℕ) : Word :=
  byte key p <<< 0 ||| byte key (p + 1) <<< 8 ||| byte key (p + 2) <<< 16 ||| byte key (p + 3) <<< 24

def load64le (key : Text) (p : ℕ) : Word := load32le key p ||| load32le key (p + 4) <<< 32

def rotl (x : Word) (n : ℕ) : Word := x <<< n ||| x >>> ((64 - n) % 64)

def K : Word := 0x2B7E151628AED2A7

/-- The four running words. -/
abbrev Lanes := Fin 4 → Word

def start (seed : Word) : Lanes :=
  let seed2 := rotl (seed - K) 15 + rotl (seed - K) 47
  fun
    | 0 => seed
    | 1 => seed + K
    | 2 => seed2
    | 3 => seed2 + (K * K ^^^ K)

/-- One of the four words of a stripe that begins at `p`. -/
def stripeWord (key : Text) (p : ℕ) (h : Lanes) (i : Fin 4) : Lanes :=
  let stripe := load64le key (p + 8 * i)
  let h := Function.update h i ((stripe + h i) * K)
  Function.update h (i + 1) (h (i + 1) + rotl stripe 27)

def stripes (key : Text) (h : Lanes) : Lanes :=
  (List.range (key.length / 32)).foldl
    (fun h j => ([0, 1, 2, 3] : List (Fin 4)).foldl (stripeWord key (32 * j)) h) h

/-- The eight bytes at `p`. -/
def eightBytes (key : Text) (h : Lanes) (p : ℕ) : Lanes :=
  let h := Function.update h 0 ((h 0 ^^^ load32le key p) * K)
  Function.update h 1 ((h 1 ^^^ load32le key (p + 4)) * K)

def words (key : Text) (h : Lanes) : Lanes :=
  (List.range (key.length % 32 / 8)).foldl
    (fun h j => eightBytes key h (32 * (key.length / 32) + 8 * j)) h

/-- The last bytes, fewer than eight. -/
def tail (key : Text) (h : Lanes) : Lanes :=
  let l := key.length % 8
  let p := key.length - l
  if 4 ≤ l then
    let h := Function.update h 2 (h 2 ^^^ load32le key p)
    Function.update h 3 (h 3 ^^^ load32le key (p + l - 4))
  else if 0 < l then
    let h := Function.update h 2 (h 2 ^^^ byte key p)
    Function.update h 3 (h 3 ^^^ (byte key (p + l / 2) ||| byte key (p + l - 1) <<< 8))
  else h

def finish (len : ℕ) (seed : Word) (h : Lanes) : Word :=
  let h0 := h 0 + (rotl (h 2 * K) 31 ^^^ h 2 >>> 31)
  let h1 := h 1 + (rotl (h 3 * K) 31 ^^^ h 3 >>> 31)
  let h0 := h0 * K
  let h0 := h0 ^^^ h0 >>> 31
  let h1 := h1 + h0
  let x := BitVec.ofNat 64 len * K
  let x := x ^^^ rotl x 29
  let x := x + seed
  let x := x ^^^ h1
  let x := x ^^^ (rotl x 15 ^^^ rotl x 42)
  let x := x * K
  x ^^^ (rotl x 13 ^^^ rotl x 31)

def chibihash64 (key : Text) (seed : Word) : Word :=
  finish key.length seed (tail key (words key (stripes key (start seed))))

def chibihash64Wrapper (input : Text) : Word := chibihash64 input 0xFFFFFFFFFFFFFFFF

/-! ## The loops after some of their rounds -/

/-- One stripe. -/
def stripeWords (key : Text) (h : Lanes) (j : ℕ) : Lanes :=
  ([0, 1, 2, 3] : List (Fin 4)).foldl (stripeWord key (32 * j)) h

def stripesUpTo (key : Text) (h : Lanes) (m : ℕ) : Lanes :=
  (List.range m).foldl (stripeWords key) h

theorem stripesUpTo_zero (key : Text) (h : Lanes) : stripesUpTo key h 0 = h := rfl

theorem stripesUpTo_succ (key : Text) (h : Lanes) (m : ℕ) :
    stripesUpTo key h (m + 1) = stripeWords key (stripesUpTo key h m) m := by
  rw [stripesUpTo, List.range_succ, List.foldl_append]
  rfl

theorem stripes_eq_stripesUpTo (key : Text) (h : Lanes) :
    stripes key h = stripesUpTo key h (key.length / 32) := rfl

def wordsUpTo (key : Text) (base : ℕ) (h : Lanes) (m : ℕ) : Lanes :=
  (List.range m).foldl (fun h j => eightBytes key h (base + 8 * j)) h

theorem wordsUpTo_zero (key : Text) (base : ℕ) (h : Lanes) : wordsUpTo key base h 0 = h := rfl

theorem wordsUpTo_succ (key : Text) (base : ℕ) (h : Lanes) (m : ℕ) :
    wordsUpTo key base h (m + 1) = eightBytes key (wordsUpTo key base h m) (base + 8 * m) := by
  rw [wordsUpTo, List.range_succ, List.foldl_append]
  rfl

theorem words_eq_wordsUpTo (key : Text) (h : Lanes) :
    words key h = wordsUpTo key (32 * (key.length / 32)) h (key.length % 32 / 8) := rfl

/-! ## The loops over the memory

The same with the pointer that moves over the key, so that each byte read is observable. -/

section Reads
open Interactive UserMemory

def byteAt (p : Word) : MemProg Word := do
  let b ← read p
  return b.setWidth 64

def load32leAt (p : Word) : MemProg Word := do
  let a ← byteAt p
  let b ← byteAt (p + 1)
  let c ← byteAt (p + 2)
  let d ← byteAt (p + 3)
  return a <<< 0 ||| b <<< 8 ||| c <<< 16 ||| d <<< 24

def load64leAt (p : Word) : MemProg Word := do
  let low ← load32leAt p
  let high ← load32leAt (p + 4)
  return low ||| high <<< 32

/-- How many bytes are left, where they begin, and the running words. -/
structure Cursor where
  l : ℤ
  p : Word
  h : Lanes

/-- One round of the loop over the words of a stripe. -/
def stripeWordAt (s : Word × Lanes) (i : Fin 4) : MemProg (Word × Lanes) := do
  let stripe ← load64leAt s.1
  let h := Function.update s.2 i ((stripe + s.2 i) * K)
  return (s.1 + 8, Function.update h (i + 1) (h (i + 1) + rotl stripe 27))

def stripeRound (s : Cursor) : MemProg (Cursor ⊕ Cursor) :=
  if 32 ≤ s.l then do
    let (p, h) ← ([0, 1, 2, 3] : List (Fin 4)).foldlM stripeWordAt (s.p, s.h)
    return .inl ⟨s.l - 32, p, h⟩
  else return .inr s

def eightBytesRound (s : Cursor) : MemProg (Cursor ⊕ Cursor) :=
  if 8 ≤ s.l then do
    let low ← load32leAt s.p
    let h := Function.update s.h 0 ((s.h 0 ^^^ low) * K)
    let high ← load32leAt (s.p + 4)
    return .inl ⟨s.l - 8, s.p + 8, Function.update h 1 ((h 1 ^^^ high) * K)⟩
  else return .inr s

/-- What is left after the loops. -/
def tailAt (s : Cursor) : MemProg Lanes :=
  if 4 ≤ s.l then do
    let first ← load32leAt s.p
    let h := Function.update s.h 2 (s.h 2 ^^^ first)
    let last ← load32leAt (s.p + BitVec.ofInt 64 s.l - 4)
    return Function.update h 3 (h 3 ^^^ last)
  else if 0 < s.l then do
    let first ← byteAt s.p
    let h := Function.update s.h 2 (s.h 2 ^^^ first)
    let middle ← byteAt (s.p + BitVec.ofInt 64 (s.l / 2))
    let last ← byteAt (s.p + BitVec.ofInt 64 (s.l - 1))
    return Function.update h 3 (h 3 ^^^ (middle ||| last <<< 8))
  else return s.h

/-- The lengths are those of `ptrdiff_t`, taken as a word at the end. -/
def chibihash64At (keyIn : Word) (len : ℤ) (seed : Word) (fuel : ℕ) : MemProg Word := do
  let s ← Prog.loop stripeRound fuel ⟨len, keyIn, start seed⟩
  let s ← Prog.loop eightBytesRound fuel s
  let h ← tailAt s
  return finish (BitVec.ofInt 64 len).toNat seed h

end Reads

end VariousStuff.ChibiHash64
