import VariousStuff.SysCallTableRounds
import VariousStuff.SymbolTexts

/-! # What the reported slot holds

The hunt accepts any pointer whose symbol text contains `sys_io_setup`: also one into
the middle of a function, to a function with a longer name, or to the compat handler. -/
namespace VariousStuff.SysCallTableHunt
open Interactive CStrings KernelNumerals KernelInterface LexicographicSearch SymbolTexts

/-- The symbol that covers an address, and the offset of the address into it. -/
structure SymbolEntry where
  name : Text
  offset : ℕ
  size : ℕ

/-- The kernel in which `sprint_symbol` writes `name+0x<offset>/0x<size>`. -/
def withSymbols (K : Kernel) (oracle : Addr → SymbolEntry) : Kernel := { K with
  symbolText a := symbolText (oracle a).name (oracle a).offset (oracle a).size }

structure NativeEntry (s : SymbolEntry) : Prop where
  start : s.offset = 0
  name : "sys_io_setup".toList <:+ s.name
  native : ¬ "compat".toList <:+: s.name

section Entry
variable {K : Kernel} {oracle : Addr → SymbolEntry} {start depth tgt p : Addr} {i k : ℕ}

def ReportsNativeEntry (K : Kernel) (oracle : Addr → SymbolEntry) (g : Globals)
    (start depth : Addr) : Prop :=
  ∀ fuel t, (withSymbols K oracle).Yields (huntSctAdrp fuel g start depth) 0 t →
    ∃ slot p, reports t = [reportArgs (withSymbols K oracle) slot p] ∧ K.nofault slot 8 = some p ∧
      NativeEntry (oracle p)

structure Match (K : Kernel) (start depth : Addr) (i k : ℕ) (p : Addr) : Prop where
  window : ∀ j ≤ i, wordAddr start j < start + depth
  slot_le : k ≤ maxTries
  hit : ∃ tgt, adrpTarget K (wordAddr start i) = some tgt ∧ slotPointer K (slotAddr tgt k) = some p

/-- In scan order every match that is no native entry point stands behind one that is. -/
def DecoysComeLater (K : Kernel) (oracle : Addr → SymbolEntry) (start depth : Addr) : Prop :=
  ∀ i k p, Match (withSymbols K oracle) start depth i k p → ¬ NativeEntry (oracle p) →
    ∃ i' k' p', Match (withSymbols K oracle) start depth i' k' p' ∧ NativeEntry (oracle p') ∧
      (i' < i ∨ i' = i ∧ k' < k)

theorem StopsAt.toMatch (h : StopsAt K start depth i k tgt p) : Match K start depth i k p where
  window := by
    intro j hj
    rcases Nat.lt_or_eq_of_le hj with hlt | rfl
    · exact (h.comes.before j hlt).word_lt
    · exact h.comes.word_lt
  slot_le := h.slot_le
  hit := ⟨tgt, h.target, h.hit⟩

theorem StopsAt.not_before {i' k' : ℕ} {p' : Addr} (h : StopsAt K start depth i k tgt p)
    (hmatch : Match K start depth i' k' p') : ¬ (i' < i ∨ i' = i ∧ k' < k) := by
  obtain ⟨tgt', htgt', hhit⟩ := hmatch.hit
  intro hbefore
  rcases hbefore with hword | ⟨rfl, hslot⟩
  · have hnone := (h.comes.before i' hword).barren k' hmatch.slot_le
    rw [hitAt_of_target htgt', hhit] at hnone
    cases hnone
  · obtain rfl : tgt = tgt' := Option.some.inj (h.target.symm.trans htgt')
    rw [h.miss k' hslot] at hhit
    cases hhit

theorem Match.exists_stopsAt (h : Match K start depth i k p) :
    ∃ i' k' tgt' p', StopsAt K start depth i' k' tgt' p' ∧ (i' < i ∨ i' = i ∧ k' ≤ k) := by
  obtain ⟨i', k', ⟨p', hmatch⟩, hfirst⟩ :=
    exists_first_pair (P := fun i k => ∃ p, Match K start depth i k p) ⟨i, k, p, h⟩
  obtain ⟨tgt', htgt', hhit⟩ := hmatch.hit
  refine ⟨i', k', tgt', p', ⟨⟨hmatch.window i' (Nat.le_refl _), ?_⟩, htgt', hmatch.slot_le, ?_, hhit⟩,
    ?_⟩
  · intro j hj
    refine ⟨hmatch.window j (Nat.le_of_lt hj), fun k'' hk'' => ?_⟩
    by_contra hne
    obtain ⟨⟨slot, q⟩, hat⟩ := Option.ne_none_iff_exists'.mp hne
    obtain ⟨tgt, htgt, hslot⟩ := Option.bind_eq_some_iff.mp hat
    obtain ⟨q', hq', -⟩ := Option.map_eq_some_iff.mp hslot
    have hlater := hfirst j k'' ⟨q', fun j' hj' => hmatch.window j' (by omega), hk'', tgt, htgt, hq'⟩
    omega
  · intro k'' hk''
    by_contra hne
    obtain ⟨q, hq⟩ := Option.ne_none_iff_exists'.mp hne
    have hlater := hfirst i' k'' ⟨q, hmatch.window, by have := hmatch.slot_le; omega, tgt', htgt', hq⟩
    omega
  · have hlater := hfirst i k ⟨p, h⟩
    omega

theorem reportArgs_injective {slot slot' p p' : Addr} (h : reportArgs K slot p = reportArgs K slot' p') :
    slot = slot' ∧ p = p' := by
  have hargs := (List.cons.inj h).2
  exact ⟨lx_injective (List.cons.inj (List.cons.inj hargs).2).1, lx_injective (List.cons.inj hargs).1⟩

theorem StopsAt.holds (h : StopsAt K start depth i k tgt p) : K.nofault (slotAddr tgt k) 8 = some p :=
  (slotPointer_eq_some_iff.mp h.hit).1

end Entry

/-- What the hunt reports is a native entry point exactly if in scan order no match that
is none comes first. -/
theorem reportsNativeEntry_iff_decoysComeLater (K : Kernel) (oracle : Addr → SymbolEntry)
    (g : Globals) (start depth : Addr) :
    ReportsNativeEntry K oracle g start depth ↔ DecoysComeLater K oracle start depth := by
  constructor
  · intro hreports i k p hmatch hdecoy
    obtain ⟨i', k', tgt', p', hstop, hle⟩ := hmatch.exists_stopsAt
    obtain ⟨fuel, t, hrun, hreport⟩ := hstop.yields (g := g)
    obtain ⟨slot, q, hreport', -, hnative⟩ := hreports fuel t hrun
    obtain ⟨-, rfl⟩ := reportArgs_injective (List.cons.inj (hreport'.symm.trans hreport)).1
    refine ⟨i', k', q, hstop.toMatch, hnative, ?_⟩
    rcases hle with hlt | ⟨rfl, hk⟩
    · exact Or.inl hlt
    · refine Or.inr ⟨rfl, Nat.lt_of_le_of_ne hk ?_⟩
      rintro rfl
      obtain ⟨tgt, htgt, hhit⟩ := hmatch.hit
      obtain rfl : tgt = tgt' := Option.some.inj (htgt.symm.trans hstop.target)
      obtain rfl : p = q := Option.some.inj (hhit.symm.trans hstop.hit)
      exact hdecoy hnative
  · intro hlater fuel t hrun
    obtain ⟨i, k, tgt, p, hstop, hreport⟩ := exists_stopsAt hrun
    refine ⟨slotAddr tgt k, p, hreport, hstop.holds, ?_⟩
    by_contra hdecoy
    obtain ⟨i', k', p', hmatch, -, hbefore⟩ := hlater i k p hstop.toMatch hdecoy
    exact hstop.not_before hmatch hbefore

/-- Behind the target of the first instruction stand pointers to the compat handler and
to the native one, in this order. -/
def compatFirstKernel : Kernel := { tableKernel with
  nofault src size :=
    if src = 0x1000 then some 0
    else if src = 0x9000 then some (0x7000 : BitVec (8 * size))
    else if src = 0x9008 then some (0x7040 : BitVec (8 * size))
    else if src = 0x7000 ∨ src = 0x7040 then some 0
    else none }

def compatFirstSymbols (a : Addr) : SymbolEntry :=
  if a = 0x7000 then ⟨"__arm64_compat_sys_io_setup".toList, 0, 0x40⟩
  else if a = 0x7040 then ⟨"__arm64_sys_io_setup".toList, 0, 0x40⟩
  else ⟨"vectors".toList, 0, 0x800⟩

theorem compatFirstKernel_reports_compat :
    ¬ ReportsNativeEntry compatFirstKernel compatFirstSymbols Globals.zero 0x1000 4 := by
  intro hreports
  have hstop : StopsAt (withSymbols compatFirstKernel compatFirstSymbols) 0x1000 4 0 0 0x9000 0x7000 :=
    ⟨⟨by decide, by omega⟩, by decide, by decide, by omega, by decide⟩
  obtain ⟨fuel, t, hrun, hreport⟩ := hstop.yields (g := Globals.zero)
  obtain ⟨slot, p, hreport', -, hnative⟩ := hreports fuel t hrun
  obtain ⟨-, rfl⟩ := reportArgs_injective (List.cons.inj (hreport'.symm.trans hreport)).1
  exact hnative.native (by decide)

end VariousStuff.SysCallTableHunt
