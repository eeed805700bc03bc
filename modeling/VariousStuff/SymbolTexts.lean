import VariousStuff.KernelInterface

/-! # Symbol maps and the texts `sprint_symbol` writes for them

An address inside a symbol is written as its name, its offset and the size, both in
hexadecimal; any other address as a bare number. -/
namespace VariousStuff.SymbolTexts
open CStrings KernelNumerals KernelInterface

structure Symbol where
  name : Text
  start : ℕ
  size : ℕ

/-- Which symbol covers an address. Symbols cover only addresses they contain, and
their names contain neither separator of the text format. -/
structure SymbolMap where
  symbolAt : Addr → Option Symbol
  inside : ∀ {a s}, symbolAt a = some s → s.start ≤ a.toNat ∧ a.toNat < s.start + s.size
  clean : ∀ {a s}, symbolAt a = some s → '+' ∉ s.name ∧ '/' ∉ s.name

def symbolText (name : Text) (offset size : ℕ) : Text := name ++ '+' :: (hex offset ++ '/' :: hex size)

def SymbolMap.text (m : SymbolMap) (a : Addr) : Text :=
  match m.symbolAt a with
  | some s => symbolText s.name (a.toNat - s.start) s.size
  | none => hex a.toNat

/-- `name` is the name of exactly one symbol, and that symbol occupies `[S, S + sz)`. -/
structure SymbolMap.Locates (m : SymbolMap) (name : Text) (S : Addr) (sz : ℕ) : Prop where
  here : ∀ a : Addr, S.toNat ≤ a.toNat → a.toNat < S.toNat + sz →
    m.symbolAt a = some ⟨name, S.toNat, sz⟩
  only : ∀ a s, m.symbolAt a = some s → s.name = name →
    S.toNat ≤ a.toNat ∧ a.toNat < S.toNat + sz

theorem slash_notMem_hex (n : ℕ) : '/' ∉ hex n := by
  intro h
  rcases mem_hex h with h | h <;> simp [digitValue] at h

section SymbolText
variable {name : Text} (offset size : ℕ)

theorem strchr_slash_symbolText (h : '/' ∉ name) :
    strchr (symbolText name offset size) '/' = some (name ++ '+' :: hex offset).length := by
  have hhead : '/' ∉ name ++ '+' :: hex offset := by simp [h, slash_notMem_hex]
  have htext : symbolText name offset size = (name ++ '+' :: hex offset) ++ '/' :: hex size := by
    simp [symbolText]
  rw [htext, strchr_append hhead]

theorem take_symbolText :
    (symbolText name offset size).take (name ++ '+' :: hex offset).length =
      name ++ '+' :: hex offset := by
  have htext : symbolText name offset size = (name ++ '+' :: hex offset) ++ '/' :: hex size := by
    simp [symbolText]
  rw [htext, List.take_left]

theorem strchr_plus_cut (h : '+' ∉ name) :
    strchr (name ++ '+' :: hex offset) '+' = some name.length := strchr_append h _

theorem drop_cut : (name ++ '+' :: hex offset).drop (name.length + 1) = hex offset := by
  simp [← List.drop_drop]

/-- Only the first byte of a symbol is printed with offset `0x0`. -/
theorem plus_zero_infix_symbolText (name : Text) (size : ℕ) :
    "+0x0".toList <:+: symbolText name 0 size :=
  ⟨name, '/' :: hex size, by simp [symbolText, hex]⟩

/-- A text that starts with a symbol's name and the plus sign is that symbol's. -/
theorem name_eq_of_strstarts {start : Text} (hname : '+' ∉ name) (hstart : '+' ∉ start)
    (h : strstarts (symbolText name offset size) (start ++ ['+']) = true) : name = start :=
  head_eq_of_prefix hname hstart ((strstarts_iff _ _).mp h)

end SymbolText

theorem SymbolMap.Locates.text_eq {m : SymbolMap} {name : Text} {S : Addr} {sz : ℕ}
    (h : m.Locates name S sz) {a : Addr} (hlow : S.toNat ≤ a.toNat) (hhigh : a.toNat < S.toNat + sz) :
    m.text a = symbolText name (a.toNat - S.toNat) sz := by
  simp [text, h.here a hlow hhigh]

/-- Outside the named symbol no text starts with its name and the plus sign. -/
theorem SymbolMap.Locates.not_strstarts {m : SymbolMap} {name : Text} {S : Addr} {sz : ℕ}
    (h : m.Locates name S sz) (hname : '+' ∉ name) (hhex : ∀ n, ¬ name ++ ['+'] <+: hex n) {a : Addr}
    (ha : ¬ (S.toNat ≤ a.toNat ∧ a.toNat < S.toNat + sz)) :
    strstarts (m.text a) (name ++ ['+']) = false := by
  apply Bool.eq_false_iff.mpr
  intro hstart
  cases hs : m.symbolAt a with
  | none =>
    rw [text, hs] at hstart
    exact hhex _ ((strstarts_iff _ _).mp hstart)
  | some s =>
    rw [text, hs] at hstart
    exact ha (h.only a s hs (name_eq_of_strstarts _ _ (m.clean hs).1 hname hstart))

end VariousStuff.SymbolTexts
