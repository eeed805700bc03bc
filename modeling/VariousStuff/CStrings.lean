import Mathlib.Algebra.Group.Int.Defs
import Mathlib.Data.List.Basic
import Mathlib.Data.List.Infix
import Mathlib.Data.Nat.Notation

/-! # C strings as lists of characters, and the library functions used on them

A text is what stands in a buffer before the terminating NUL, so writing a NUL at
position `i` of a buffer leaves `text.take i`. -/
namespace VariousStuff.CStrings

abbrev Text := List Char

/-- The arguments of a printed line; its format is kept as a literal. -/
inductive PrintArg where
  | str (s : Text)
  | num (n : ℤ)
  deriving DecidableEq

/-- A printed line: its format and the arguments. -/
abbrev Line := String × List PrintArg

/-- Position of the first occurrence of `c`. -/
def strchr (s : Text) (c : Char) : Option ℕ := s.idxOf? c

def strstarts (s start : Text) : Bool := start.isPrefixOf s

def strstr (s part : Text) : Bool := decide (part <:+: s)

theorem strchr_append {s : Text} {c : Char} (h : c ∉ s) (rest : Text) :
    strchr (s ++ c :: rest) c = some s.length := by
  induction s with
  | nil => simp [strchr, List.idxOf?_cons]
  | cons d s ih =>
    have hd : ¬ d = c := fun hdc => h (by simp [hdc])
    have hs : c ∉ s := fun hc => h (List.mem_cons_of_mem _ hc)
    have hrest : (s ++ c :: rest).idxOf? c = some s.length := ih hs
    simp [strchr, List.idxOf?_cons, hd, hrest]

theorem exists_of_strchr {s : Text} {c : Char} {i : ℕ} (h : strchr s c = some i) :
    ∃ head rest, s = head ++ c :: rest ∧ c ∉ head ∧ head.length = i := by
  induction s generalizing i with
  | nil => cases h
  | cons d s ih =>
    by_cases hd : d = c
    · subst hd
      have hi : 0 = i := by simpa [strchr, List.idxOf?_cons] using h
      exact ⟨[], s, rfl, List.not_mem_nil, hi⟩
    · obtain ⟨j, hj, rfl⟩ : ∃ j, strchr s c = some j ∧ j + 1 = i := by
        simpa [strchr, List.idxOf?_cons, hd] using h
      obtain ⟨head, rest, rfl, hhead, rfl⟩ := ih hj
      exact ⟨d :: head, rest, rfl, by simp [hhead, Ne.symm hd], rfl⟩

theorem drop_separator (head rest : Text) (c : Char) :
    (head ++ c :: rest).drop (head.length + 1) = rest := by
  rw [← List.drop_drop, List.drop_left, List.drop_one, List.tail_cons]

theorem strstarts_iff (s start : Text) : strstarts s start = true ↔ start <+: s := by
  simp [strstarts]

theorem strstr_iff (s part : Text) : strstr s part = true ↔ part <:+: s := by
  simp [strstr]

/-- A prefix that ends in the only separator of a text ends where its head ends. -/
theorem head_eq_of_prefix {head start rest : Text} {c : Char} (hhead : c ∉ head) (hstart : c ∉ start)
    (h : start ++ [c] <+: head ++ c :: rest) : head = start := by
  obtain ⟨tail, htail⟩ := h
  have hs : strchr (start ++ c :: tail) c = some start.length := strchr_append hstart tail
  have hh : strchr (head ++ c :: rest) c = some head.length := strchr_append hhead rest
  have heq : start ++ c :: tail = head ++ c :: rest := by simpa using htail
  rw [heq, hh] at hs
  exact (List.append_inj heq (Option.some.inj hs).symm).1.symm

/-! ## `atoi` -/

/-- The bytes `isspace` accepts in the C locale. -/
def isSpace (c : Char) : Bool := c = ' ' || ('\t'.toNat ≤ c.toNat && c.toNat ≤ '\r'.toNat)

/-- The sign and the digits that `strtol` reads in base ten, as a number. -/
def signedDigits : Text → ℤ
  | '-' :: s => -(Nat.ofDigitChars 10 (s.takeWhile Char.isDigit) 0 : ℕ)
  | '+' :: s => (Nat.ofDigitChars 10 (s.takeWhile Char.isDigit) 0 : ℕ)
  | s => (Nat.ofDigitChars 10 (s.takeWhile Char.isDigit) 0 : ℕ)

/-- `strtol` in base ten, which saturates at the bounds of a 64-bit `long`. -/
def strtol (s : Text) : ℤ :=
  max (-2 ^ 63) (min (2 ^ 63 - 1) (signedDigits (s.dropWhile isSpace)))

/-- `atoi` as glibc has it: `strtol` narrowed to an `int`. Of a number that is no `int` the
language says nothing; musl, for one, lets its digits wrap around. -/
def atoi (s : Text) : Int32 := Int32.ofInt (strtol s)

example : atoi " 10123x".toList = 10123 := by decide

end VariousStuff.CStrings
