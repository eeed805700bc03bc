import VariousStuff.KernelNumerals
import VariousStuff.LastWrites

/-! # The faked country code in the configuration of hostapd

The patch lets three keywords write to the same three bytes: the country code as a
default, the faked one, and the third byte on its own. What it does not show is taken as
given: the check of a country code, and every other keyword. -/
namespace VariousStuff.HostapdFakeCountry
open CStrings KernelNumerals LastWrites

/-- `strtol` in base sixteen, with an optional sign and prefix. -/
def strtolHex (s : Text) : ℤ :=
  let s := s.dropWhile isSpace
  let negative := s.head? = some '-'
  let s := if s.head? = some '-' ∨ s.head? = some '+' then s.drop 1 else s
  let s := if startsWith0x s && (s[2]?.bind digitValue).isSome then s.drop 2 else s
  let n : ℤ := (parseInteger 16 0 0 s).1
  max (-2 ^ 63) (min (2 ^ 63 - 1) (if negative then -n else n))

/-- The fields of `struct hostapd_config` that the patch touches, and the others. -/
structure HostapdConfig (Other : Type) where
  country : Fin 3 → Char
  fakecc : Fin 3 → Char
  fakepwr : Int32
  other : Other

/-- `os_memcpy(dst, pos, 2)` from a string. -/
def copyLetters (dst : Fin 3 → Char) (pos : Text) : Fin 3 → Char := fun i =>
  if i.val < 2 then pos.getD i.val '\x00' else dst i

/-- `dst[2] = n`, which keeps the low byte. -/
def setThird (dst : Fin 3 → Char) (n : ℤ) : Fin 3 → Char := fun i =>
  if i.val < 2 then dst i else Char.ofNat (n % 256).toNat

/-- A keyword and what stands behind the equals sign. -/
abbrev ConfigLine := Text × Text

section Config
variable {Other : Type}

/-- What the patch adds to `hostapd_config_defaults`. -/
def hostapdConfigDefaults (conf : HostapdConfig Other) : HostapdConfig Other :=
  { conf with
    fakepwr := 0
    country := setThird conf.country 32
    fakecc := setThird conf.fakecc 32 }

variable (countryOk : Text → Bool)
  (fillOther : HostapdConfig Other → Text → Text → ℤ × HostapdConfig Other)

/-- `hostapd_config_fill`: the value returned, and the configuration afterwards. -/
def hostapdConfigFill (conf : HostapdConfig Other) (buf pos : Text) : ℤ × HostapdConfig Other :=
  if buf = "country_code".toList then
    if ¬ countryOk pos then (1, conf)
    else
      (0, { conf with
        country := copyLetters conf.country pos
        fakecc := copyLetters conf.fakecc pos })
  else if buf = "fakepwr".toList then (0, { conf with fakepwr := atoi pos })
  else if buf = "fakecc".toList then
    if pos.length = 2 then (0, { conf with fakecc := copyLetters conf.fakecc pos })
    else (0, conf)
  else if buf = "country3".toList then
    (0, { conf with
      country := setThird conf.country (strtolHex pos)
      fakecc := setThird conf.fakecc (strtolHex pos) })
  else fillOther conf buf pos

/-- The lines of a file, one after the other. -/
def fillLines (lines : List ConfigLine) (conf : HostapdConfig Other) : HostapdConfig Other :=
  lines.foldl (fun conf line => (hostapdConfigFill countryOk fillOther conf line.1 line.2).2) conf

/-- `hostapd_eid_country`: the element with the country in its third and fourth byte. The
bytes behind the country are those of the channels. -/
def hostapdEidCountry (eid length : Char) (conf : HostapdConfig Other) (channels : Text) : Text :=
  eid :: length :: conf.fakecc 0 :: conf.fakecc 1 :: conf.fakecc 2 :: channels

/-! ## What the lines write to the first two bytes -/

/-- The first two bytes of a string. -/
def letters (pos : Text) : Char × Char := (pos.getD 0 '\x00', pos.getD 1 '\x00')

def fakeLetters (conf : HostapdConfig Other) : Char × Char := (conf.fakecc 0, conf.fakecc 1)

/-- A `fakecc` line with two letters. -/
def IsFakecc (line : ConfigLine) : Prop := line.1 = "fakecc".toList ∧ line.2.length = 2

/-- A `country_code` line that passes the check. -/
def IsCountryCode (line : ConfigLine) : Prop :=
  line.1 = "country_code".toList ∧ countryOk line.2 = true

instance (line : ConfigLine) : Decidable (IsFakecc line) := inferInstanceAs (Decidable (_ ∧ _))

instance (line : ConfigLine) : Decidable (IsCountryCode countryOk line) :=
  inferInstanceAs (Decidable (_ ∧ _))

def written (line : ConfigLine) : Option (Char × Char) :=
  if IsCountryCode countryOk line ∨ IsFakecc line then some (letters line.2) else none

/-- Every other keyword leaves `fakecc` alone. -/
def KeepsFakecc : Prop :=
  ∀ conf buf pos, (fillOther conf buf pos).2.fakecc = conf.fakecc

end Config

section Lines
variable {Other : Type} {countryOk : Text → Bool}
  {fillOther : HostapdConfig Other → Text → Text → ℤ × HostapdConfig Other}

theorem written_of_isCountryCode {line : ConfigLine} (h : IsCountryCode countryOk line) :
    written countryOk line = some (letters line.2) := if_pos (Or.inl h)

theorem written_of_isFakecc {line : ConfigLine} (h : IsFakecc line) :
    written countryOk line = some (letters line.2) := if_pos (Or.inr h)

theorem written_eq_some_iff {line : ConfigLine} {cc : Char × Char} :
    written countryOk line = some cc ↔
      (IsCountryCode countryOk line ∨ IsFakecc line) ∧ letters line.2 = cc := by
  rw [written]
  by_cases h : IsCountryCode countryOk line ∨ IsFakecc line
  · rw [if_pos h, Option.some_inj]
    exact ⟨fun hcc => ⟨h, hcc⟩, fun hcc => hcc.2⟩
  · rw [if_neg h]
    exact ⟨fun hcc => absurd hcc (Option.some_ne_none cc).symm, fun hcc => absurd hcc.1 h⟩

theorem fill_of_isCountryCode (conf : HostapdConfig Other) {line : ConfigLine}
    (h : IsCountryCode countryOk line) :
    fakeLetters (hostapdConfigFill countryOk fillOther conf line.1 line.2).2 = letters line.2 := by
  rw [hostapdConfigFill, if_pos h.1, if_neg (not_not_intro h.2)]
  rfl

theorem fill_of_isFakecc (conf : HostapdConfig Other) {line : ConfigLine} (h : IsFakecc line) :
    fakeLetters (hostapdConfigFill countryOk fillOther conf line.1 line.2).2 = letters line.2 := by
  have hcode : ¬ "fakecc".toList = "country_code".toList := by decide
  have hpwr : ¬ "fakecc".toList = "fakepwr".toList := by decide
  rw [hostapdConfigFill, h.1, if_neg hcode, if_neg hpwr, if_pos rfl, if_pos h.2]
  rfl

theorem fill_of_other (hkeeps : KeepsFakecc fillOther) (conf : HostapdConfig Other)
    {line : ConfigLine} (hcode : ¬ IsCountryCode countryOk line) (hfake : ¬ IsFakecc line) :
    fakeLetters (hostapdConfigFill countryOk fillOther conf line.1 line.2).2 =
      fakeLetters conf := by
  rw [hostapdConfigFill]
  split
  · next hkey => rw [if_pos fun hok => hcode ⟨hkey, hok⟩]
  · split
    · rfl
    · split
      · next hkey => rw [if_neg fun hlength => hfake ⟨hkey, hlength⟩]
      · split
        · rfl
        · rw [fakeLetters, hkeeps]
          rfl

/-- A line writes the first two bytes of `fakecc` as a whole, or leaves them. -/
theorem overwrites_hostapdConfigFill (hkeeps : KeepsFakecc fillOther) :
    Overwrites (fun conf line => (hostapdConfigFill countryOk fillOther conf line.1 line.2).2)
      fakeLetters (written countryOk) := by
  intro conf line
  by_cases hcode : IsCountryCode countryOk line
  · rw [written_of_isCountryCode hcode]
    exact fill_of_isCountryCode conf hcode
  · by_cases hfake : IsFakecc line
    · rw [written_of_isFakecc hfake]
      exact fill_of_isFakecc conf hfake
    · rw [written, if_neg (not_or_intro hcode hfake)]
      exact fill_of_other hkeeps conf hcode hfake

/-- The last accepted country code behind the faked one, if there is any. -/
def lastCountryCode (countryOk : Text → Bool) (lines : List ConfigLine) : Option ConfigLine :=
  (lines.filter fun line => decide (IsCountryCode countryOk line)).getLast?

theorem filterMap_written {lines : List ConfigLine} (h : ∀ line ∈ lines, ¬ IsFakecc line) :
    lines.filterMap (written countryOk) =
      (lines.filter fun line => decide (IsCountryCode countryOk line)).map fun line =>
        letters line.2 := by
  induction lines with
  | nil => rfl
  | cons line lines ih =>
    have hrest := ih fun line hline => h line (List.mem_cons_of_mem _ hline)
    have hfake := h line List.mem_cons_self
    by_cases hcode : IsCountryCode countryOk line
    · rw [List.filterMap_cons_some (written_of_isCountryCode hcode), hrest,
        List.filter_cons_of_pos (by simpa using hcode), List.map_cons]
    · have hnone : written countryOk line = none := if_neg (not_or_intro hcode hfake)
      rw [List.filterMap_cons_none hnone, hrest, List.filter_cons_of_neg (by simpa using hcode)]

theorem getLast?_filterMap_written {lines : List ConfigLine} (h : ∀ line ∈ lines, ¬ IsFakecc line) :
    (lines.filterMap (written countryOk)).getLast? =
      (lastCountryCode countryOk lines).map fun line => letters line.2 := by
  rw [filterMap_written h, List.getLast?_map]
  rfl

/-- The country bytes of the element. -/
def advertised (eid length : Char) (channels : Text) (conf : HostapdConfig Other) : Text :=
  ((hostapdEidCountry eid length conf channels).drop 2).take 2

theorem advertised_eq_iff (eid length : Char) (channels : Text) (conf : HostapdConfig Other)
    {cc : Text} (hcc : cc.length = 2) :
    advertised eid length channels conf = cc ↔ fakeLetters conf = letters cc := by
  obtain ⟨a, b, rfl⟩ := List.length_eq_two.mp hcc
  simp [advertised, hostapdEidCountry, fakeLetters, letters]

theorem advertised_congr_iff (eid length : Char) (channels : Text)
    (conf conf' : HostapdConfig Other) :
    advertised eid length channels conf = advertised eid length channels conf' ↔
      fakeLetters conf = fakeLetters conf' := by
  simp [advertised, hostapdEidCountry, fakeLetters]

/-- Behind the last `fakecc` line the last country code decides. -/
theorem fakeLetters_fillLines (hkeeps : KeepsFakecc fillOther) (before : List ConfigLine) {cc : Text}
    (hcc : cc.length = 2) {after : List ConfigLine} (hafter : ∀ line ∈ after, ¬ IsFakecc line)
    (conf : HostapdConfig Other) :
    fakeLetters (fillLines countryOk fillOther (before ++ ("fakecc".toList, cc) :: after) conf) =
      ((lastCountryCode countryOk after).map fun line => letters line.2).getD (letters cc) := by
  rw [fillLines, view_foldl_append_cons (overwrites_hostapdConfigFill hkeeps) before after
    (written_of_isFakecc ⟨rfl, hcc⟩), getLast?_filterMap_written hafter]

/-- All orders of a file with one `fakecc` line show the same letters exactly if its country
codes are the faked one. -/
theorem forall_perm_fakeLetters_iff (hkeeps : KeepsFakecc fillOther) {lines : List ConfigLine}
    {cc : Text} (hfake : (lines.filter fun line => decide (IsFakecc line)) = [("fakecc".toList, cc)])
    (conf : HostapdConfig Other) :
    (∀ lines' : List ConfigLine, lines'.Perm lines →
        fakeLetters (fillLines countryOk fillOther lines' conf) =
          fakeLetters (fillLines countryOk fillOther lines conf)) ↔
      ∀ line ∈ lines, IsCountryCode countryOk line → letters line.2 = letters cc := by
  have hmem : ∀ line, line ∈ lines ∧ IsFakecc line ↔ line = ("fakecc".toList, cc) := by
    intro line
    rw [← List.mem_singleton, ← hfake, List.mem_filter, decide_eq_true_eq]
  obtain ⟨hcc, hcc'⟩ := (hmem _).mpr rfl
  refine (forall_perm_view_iff (overwrites_hostapdConfigFill hkeeps) lines conf).trans ?_
  constructor
  · intro hsame line hline hcode
    exact hsame _ (List.mem_filterMap.mpr ⟨line, hline, written_of_isCountryCode hcode⟩) _
      (List.mem_filterMap.mpr ⟨_, hcc, written_of_isFakecc hcc'⟩)
  · intro hcodes
    -- everything written is the faked code
    have hall : ∀ b ∈ lines.filterMap (written countryOk), b = letters cc := by
      intro b hb
      obtain ⟨line, hline, hwritten⟩ := List.mem_filterMap.mp hb
      obtain ⟨hcode | hfakecc, rfl⟩ := written_eq_some_iff.mp hwritten
      · exact hcodes line hline hcode
      · rw [(hmem line).mp ⟨hline, hfakecc⟩]
    intro b hb b' hb'
    rw [hall b hb, hall b' hb']

/-- The beacon shows the last faked code if and only if the last country code behind it, if
there is one, is the same. The order of a file with one faked code does not matter if and only
if each of its country codes is that one. -/
theorem advertises_fakecc_iff (hkeeps : KeepsFakecc fillOther) (eid length : Char) (channels : Text)
    (conf : HostapdConfig Other) :
    (∀ (before : List ConfigLine) (cc : Text) (after : List ConfigLine), cc.length = 2 →
      (∀ line ∈ after, ¬ IsFakecc line) →
        (advertised eid length channels
            (fillLines countryOk fillOther (before ++ ("fakecc".toList, cc) :: after) conf) = cc ↔
          ∀ line, lastCountryCode countryOk after = some line → letters line.2 = letters cc)) ∧
    ∀ (lines : List ConfigLine) (cc : Text),
      (lines.filter fun line => decide (IsFakecc line)) = [("fakecc".toList, cc)] →
        ((∀ lines' : List ConfigLine, lines'.Perm lines →
            advertised eid length channels (fillLines countryOk fillOther lines' conf) =
              advertised eid length channels (fillLines countryOk fillOther lines conf)) ↔
          ∀ line ∈ lines, IsCountryCode countryOk line → letters line.2 = letters cc) := by
  refine ⟨?_, ?_⟩
  · intro before cc after hcc hafter
    rw [advertised_eq_iff _ _ _ _ hcc, fakeLetters_fillLines hkeeps before hcc hafter]
    cases lastCountryCode countryOk after with
    | none => simp
    | some line => simp
  · intro lines cc hfake
    simp only [advertised_congr_iff]
    exact forall_perm_fakeLetters_iff hkeeps hfake conf

end Lines

/-! ## The two orders of one file -/

/-- Nothing but the three bytes. -/
def emptyConfig : HostapdConfig Unit :=
  hostapdConfigDefaults ⟨fun _ => '\x00', fun _ => '\x00', 0, ()⟩

/-- No other keyword is known. -/
def unknownKeyword (conf : HostapdConfig Unit) (_buf _pos : Text) : ℤ × HostapdConfig Unit :=
  (1, conf)

theorem keepsFakecc_unknownKeyword : KeepsFakecc unknownKeyword := fun _ _ _ => rfl

/-- Two upper-case letters. -/
def twoLetters (pos : Text) : Bool := pos.length == 2 && pos.all Char.isUpper

def countryLine : ConfigLine := ("country_code".toList, "PA".toList)

def fakeccLine : ConfigLine := ("fakecc".toList, "XX".toList)

/-- A country code behind the faked one is advertised instead of it. -/
theorem countryLine_overwrites_fakeccLine :
    advertised '\x07' '\x06' [] (fillLines twoLetters unknownKeyword [fakeccLine, countryLine]
        emptyConfig) = "PA".toList ∧
      advertised '\x07' '\x06' [] (fillLines twoLetters unknownKeyword [countryLine, fakeccLine]
        emptyConfig) = "XX".toList := by
  decide

/-- In front of the faked code it is not. -/
theorem advertises_fakecc_iff_countryLine_first :
    advertised '\x07' '\x06' [] (fillLines twoLetters unknownKeyword [countryLine, fakeccLine]
      emptyConfig) = "XX".toList := by
  have hlast := (@advertises_fakecc_iff Unit twoLetters _ keepsFakecc_unknownKeyword '\x07'
    '\x06' [] emptyConfig).1 [countryLine] "XX".toList [] rfl (fun _ h => absurd h List.not_mem_nil)
  apply hlast.mpr
  intro line hline
  cases hline

end VariousStuff.HostapdFakeCountry
