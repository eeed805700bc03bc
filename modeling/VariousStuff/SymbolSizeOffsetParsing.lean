import VariousStuff.SymbolSizeOffset
import VariousStuff.SymbolTexts

/-! # What the rebuilt lookup makes of a symbol text

It inverts the format of kernel symbols and changes nothing otherwise. The bracketed
module name behind a module symbol is already "otherwise". -/
namespace VariousStuff.SymbolSizeOffset
open Interactive CStrings KernelNumerals KernelInterface SymbolTexts

/-- The text is cut at its first slash and, in front of that, at its first plus sign;
what follows each of them is a number. -/
structure Parsed (buf : Text) (uSz uOff : BitVec 64) : Prop where
  cut : ∃ head off sz, buf = (head ++ '+' :: off) ++ '/' :: sz ∧
    '/' ∉ head ++ '+' :: off ∧ '+' ∉ head ∧
    kstrtoul sz 0 = .ok uSz ∧ kstrtoul off 0 = .ok uOff

section Parsing
variable {buf : Text} {uSz uOff : BitVec 64} (symbolsize offset : Option (BitVec 64))

theorem Parsed.result (h : Parsed buf uSz uOff) :
    parseSizeOffset buf symbolsize offset = (1, some uSz, some uOff) := by
  obtain ⟨head, off, sz, rfl, hslash, hplus, hsz, hoff⟩ := h.cut
  have hlen : 0 < ((head ++ '+' :: off) ++ '/' :: sz).length := by simp
  rw [parseSizeOffset, if_neg (not_not_intro hlen), strchr_append hslash]
  simp only [drop_separator, hsz, List.take_left, strchr_append hplus, hoff]

theorem parseSizeOffset_cases (buf : Text) :
    (∃ uSz uOff, Parsed buf uSz uOff ∧
        parseSizeOffset buf symbolsize offset = (1, some uSz, some uOff)) ∨
      parseSizeOffset buf symbolsize offset = (0, symbolsize, offset) := by
  rw [parseSizeOffset]
  split
  · exact Or.inr rfl
  · cases hslash : strchr buf '/' with
    | none => exact Or.inr rfl
    | some cSz =>
      obtain ⟨front, sz, rfl, hfront, rfl⟩ := exists_of_strchr hslash
      simp only [drop_separator, List.take_left]
      cases hsz : kstrtoul sz 0 with
      | error e => exact Or.inr rfl
      | ok uSz =>
        cases hplus : strchr front '+' with
        | none => exact Or.inr rfl
        | some cOff =>
          obtain ⟨head, off, rfl, hhead, rfl⟩ := exists_of_strchr hplus
          simp only [drop_separator]
          cases hoff : kstrtoul off 0 with
          | error e => exact Or.inr rfl
          | ok uOff =>
            exact Or.inl ⟨uSz, uOff, ⟨head, off, sz, rfl, hfront, hhead, hsz, hoff⟩, rfl⟩

theorem parsed_symbolText {name : Text} {off size : ℕ} (hplus : '+' ∉ name) (hslash : '/' ∉ name)
    (hoff : off < 2 ^ 64) (hsize : size < 2 ^ 64) :
    Parsed (symbolText name off size) (BitVec.ofNat 64 size) (BitVec.ofNat 64 off) := by
  have hfront : '/' ∉ name ++ '+' :: hex off := by simp [hslash, slash_notMem_hex]
  have htext : symbolText name off size = (name ++ '+' :: hex off) ++ '/' :: hex size := by
    simp [symbolText]
  exact ⟨name, hex off, hex size, htext, hfront, hplus, kstrtoul_hex hsize, kstrtoul_hex hoff⟩

end Parsing

/-! ## The lookup -/

section Lookup
variable (K : Kernel) (addr : Addr) (symbolsize offset : Option (BitVec 64))

/-- Without an address, or with a null pointer, nothing is asked and nothing is changed. -/
theorem compatKallsymsLookupSizeOffset_null
    (h : addr = 0 ∨ symbolsize.isNone ∨ offset.isNone) :
    K.Yields (compatKallsymsLookupSizeOffset addr symbolsize offset) (0, symbolsize, offset) [] := by
  rw [compatKallsymsLookupSizeOffset, if_pos h]
  rfl

theorem compatKallsymsLookupSizeOffset_asks
    (h : ¬ (addr = 0 ∨ symbolsize.isNone ∨ offset.isNone)) :
    K.Yields (compatKallsymsLookupSizeOffset addr symbolsize offset)
      (parseSizeOffset (K.symbolText addr) symbolsize offset)
      [⟨.sprintSymbol addr, K.symbolText addr⟩] := by
  rw [compatKallsymsLookupSizeOffset, if_neg h]
  rfl

/-- Kernel symbols come back as they were printed. Whatever else the text is, the lookup
returns one with both numbers parsed from it, or zero with both outputs as they were. -/
theorem compatKallsymsLookupSizeOffset_inverts_symbolText :
    (∀ name off size, addr ≠ 0 → symbolsize.isSome → offset.isSome → '+' ∉ name → '/' ∉ name →
      off < 2 ^ 64 → size < 2 ^ 64 → K.symbolText addr = symbolText name off size →
      K.Yields (compatKallsymsLookupSizeOffset addr symbolsize offset)
        (1, some (BitVec.ofNat 64 size), some (BitVec.ofNat 64 off))
        [⟨.sprintSymbol addr, K.symbolText addr⟩]) ∧
    ∃ t, (∃ uSz uOff, Parsed (K.symbolText addr) uSz uOff ∧
        K.Yields (compatKallsymsLookupSizeOffset addr symbolsize offset) (1, some uSz, some uOff) t) ∨
      K.Yields (compatKallsymsLookupSizeOffset addr symbolsize offset) (0, symbolsize, offset) t := by
  constructor
  · intro name off size haddr hsymbolsize hoffset hplus hslash hoff hsize htext
    have hasks : ¬ (addr = 0 ∨ symbolsize.isNone ∨ offset.isNone) := by
      rw [Option.isNone_eq_false_iff.mpr hsymbolsize, Option.isNone_eq_false_iff.mpr hoffset]
      simpa only [Bool.false_eq_true, or_false] using haddr
    have hparsed : Parsed (K.symbolText addr) (BitVec.ofNat 64 size) (BitVec.ofNat 64 off) := by
      rw [htext]
      exact parsed_symbolText hplus hslash hoff hsize
    have hrun := compatKallsymsLookupSizeOffset_asks K addr symbolsize offset hasks
    rwa [hparsed.result] at hrun
  · by_cases hnull : addr = 0 ∨ symbolsize.isNone ∨ offset.isNone
    · exact ⟨[], Or.inr (compatKallsymsLookupSizeOffset_null K addr symbolsize offset hnull)⟩
    · have hrun := compatKallsymsLookupSizeOffset_asks K addr symbolsize offset hnull
      rcases parseSizeOffset_cases symbolsize offset (K.symbolText addr) with
        ⟨uSz, uOff, hparsed, hresult⟩ | hresult
      · rw [hresult] at hrun
        exact ⟨_, Or.inl ⟨uSz, uOff, hparsed, hrun⟩⟩
      · rw [hresult] at hrun
        exact ⟨_, Or.inr hrun⟩

end Lookup

theorem compatKallsymsLookupSizeOffset_inverts_vectors :
    (readableKernel fun _ => symbolText "vectors".toList 0x10 0x800).Yields
      (compatKallsymsLookupSizeOffset 0x1010 (some 0) (some 0)) (1, some 0x800, some 0x10)
      [⟨.sprintSymbol 0x1010, symbolText "vectors".toList 0x10 0x800⟩] :=
  (compatKallsymsLookupSizeOffset_inverts_symbolText
    (readableKernel fun _ => symbolText "vectors".toList 0x10 0x800) 0x1010 (some 0) (some 0)).1
    "vectors".toList 0x10 0x800 (by decide) rfl rfl (by decide) (by decide) (by decide) (by decide) rfl

/-! ## Module symbols -/

/-- The text of an address inside a module. -/
def moduleText (name : Text) (offset size : ℕ) (modname : Text) : Text :=
  symbolText name offset size ++ ' ' :: '[' :: (modname ++ [']'])

section Modules
variable {K : Kernel} {addr : Addr} {name modname : Text} {off size : ℕ}

/-- The lookup and the size taken from it are those that were printed. -/
def AgreesOnModuleSymbol (K : Kernel) (addr : Addr) (symbolsize offset retfail : BitVec 64)
    (off size : ℕ) : Prop :=
  (∃ t, K.Yields (compatKallsymsLookupSizeOffset addr (some symbolsize) (some offset))
    (1, some (BitVec.ofNat 64 size), some (BitVec.ofNat 64 off)) t) ∧
  ∃ t, K.Yields (getKsymSize addr retfail) (BitVec.ofNat 64 size) t

/-- What follows the size makes the whole text unparsable. -/
theorem parseSizeOffset_moduleText (hslash : '/' ∉ name) (hsize : size < 2 ^ 64)
    (symbolsize offset : Option (BitVec 64)) :
    parseSizeOffset (moduleText name off size modname) symbolsize offset = (0, symbolsize, offset) := by
  have hfront : '/' ∉ name ++ '+' :: hex off := by simp [hslash, slash_notMem_hex]
  have htext : moduleText name off size modname =
      (name ++ '+' :: hex off) ++ '/' :: (hex size ++ ' ' :: '[' :: (modname ++ [']'])) := by
    simp [moduleText, symbolText]
  have hsz : kstrtoul (hex size ++ ' ' :: '[' :: (modname ++ [']'])) 0 = .error (-EINVAL) :=
    kstrtoul_hex_append hsize (by decide) (by decide) _
  rw [htext, parseSizeOffset, strchr_append hfront]
  simp only [drop_separator, hsz, ite_self]

theorem compatKallsymsLookupSizeOffset_moduleText (hslash : '/' ∉ name) (hsize : size < 2 ^ 64)
    (htext : K.symbolText addr = moduleText name off size modname)
    (symbolsize offset : Option (BitVec 64)) :
    ∃ t, K.Yields (compatKallsymsLookupSizeOffset addr symbolsize offset) (0, symbolsize, offset) t := by
  by_cases hnull : addr = 0 ∨ symbolsize.isNone ∨ offset.isNone
  · exact ⟨[], compatKallsymsLookupSizeOffset_null K addr symbolsize offset hnull⟩
  · have hrun := compatKallsymsLookupSizeOffset_asks K addr symbolsize offset hnull
    rw [htext, parseSizeOffset_moduleText hslash hsize] at hrun
    exact ⟨_, hrun⟩

theorem getKsymSize_of_failed {t : KernelTranscript}
    (h : K.Yields (compatKallsymsLookupSizeOffset addr (some 0) (some 0)) (0, some 0, some 0) t)
    (retfail : BitVec 64) : K.Yields (getKsymSize addr retfail) retfail t := by
  rw [Kernel.Yields, getKsymSize, Prog.bind_eq, Prog.run_bind K.answer h]
  simp

theorem not_agreesOnModuleSymbol_of_text (hslash : '/' ∉ name) (hsize : size < 2 ^ 64)
    (htext : K.symbolText addr = moduleText name off size modname)
    (symbolsize offset retfail : BitVec 64) :
    ¬ AgreesOnModuleSymbol K addr symbolsize offset retfail off size := by
  intro hagrees
  obtain ⟨t, hrun⟩ := hagrees.1
  obtain ⟨u, hfailed⟩ :=
    compatKallsymsLookupSizeOffset_moduleText hslash hsize htext (some symbolsize) (some offset)
  cases hrun.symm.trans hfailed

end Modules

/-- On no module symbol does the lookup agree: it fails, leaves both outputs as they were,
and `get_ksym_size` falls back on its default. -/
theorem not_agreesOnModuleSymbol (K : Kernel) (addr : Addr) (name modname : Text) (off size : ℕ)
    (hslash : '/' ∉ name) (hsize : size < 2 ^ 64)
    (htext : K.symbolText addr = moduleText name off size modname)
    (symbolsize offset retfail : BitVec 64) :
    ¬ AgreesOnModuleSymbol K addr symbolsize offset retfail off size ∧
      (∃ t, K.Yields (compatKallsymsLookupSizeOffset addr (some symbolsize) (some offset))
        (0, some symbolsize, some offset) t) ∧
      ∃ t, K.Yields (getKsymSize addr retfail) retfail t := by
  have hfails := compatKallsymsLookupSizeOffset_moduleText hslash hsize htext
  refine ⟨not_agreesOnModuleSymbol_of_text hslash hsize htext symbolsize offset retfail,
    hfails (some symbolsize) (some offset), ?_⟩
  obtain ⟨t, ht⟩ := hfails (some 0) (some 0)
  exact ⟨t, getKsymSize_of_failed ht retfail⟩

/-- `nf_hook+0x10/0x80 [nf_tables]`, wherever one asks. -/
def nfTablesKernel : Kernel :=
  readableKernel fun _ => moduleText "nf_hook".toList 0x10 0x80 "nf_tables".toList

theorem getKsymSize_nfTablesKernel :
    ∃ t, nfTablesKernel.Yields (getKsymSize 0x1010 0x400) 0x400 t :=
  (not_agreesOnModuleSymbol nfTablesKernel 0x1010 "nf_hook".toList "nf_tables".toList 0x10 0x80
    (by decide) (by decide) rfl 0 0 0x400).2.2

theorem nfTablesKernel_disagrees :
    ¬ AgreesOnModuleSymbol nfTablesKernel 0x1010 0 0 0x400 0x10 0x80 :=
  not_agreesOnModuleSymbol_of_text (by decide) (by decide) rfl 0 0 0x400

end VariousStuff.SymbolSizeOffset
