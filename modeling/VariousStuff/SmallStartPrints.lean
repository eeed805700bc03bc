import VariousStuff.SmallStart

/-! # What the start-up demo prints

The two vectors of the initial stack are walked alike. Each is printed as it should be
exactly if it has an entry and the counters stay within an `int`. -/
namespace VariousStuff.SmallStart
open Interactive UserMemory IntArithmetic

/-- A string of bytes other than NUL, and the NUL behind it. -/
structure HoldsString (m : Memory) (arg : Word) (s : List Byte) : Prop where
  nonnull : arg ≠ 0
  nulFree : 0 ∉ s
  bytes : ∀ i b, (s ++ [0])[i]? = some b → m.bytesAt arg i = b

/-- Pointers to the strings, and the null entry behind them. -/
structure HoldsVector (m : Memory) (vec : Word) (strings : List (List Byte)) : Prop where
  entries : ∀ i s, strings[i]? = some s → HoldsString m (entry m vec i) s
  null : entry m vec strings.length = 0

/-- The initial process stack: the argument count, the argument vector behind it, and
behind the null entry of that the environment vector. -/
structure InitialStack (m : Memory) (sp : Word) (args envs : List (List Byte)) : Prop where
  argc : m.load sp = BitVec.ofNat 64 args.length
  argv : HoldsVector m (sp + 8) args
  envp : HoldsVector m (sp + BitVec.ofNat 64 (8 * (args.length + 2))) envs

/-- Every string, followed by one newline. -/
def lines (strings : List (List Byte)) : List Byte := strings.flatMap fun s => s ++ newline

/-- The bytes written to the standard output. -/
def written (t : StartTranscript) : List Byte :=
  t.flatMap fun
    | ⟨.write 1 bytes, _⟩ => bytes
    | _ => []

/-- The vector has an entry, and all counts in it are values of type `int`. -/
structure Countable (strings : List (List Byte)) : Prop where
  nonempty : strings ≠ []
  length_le : (strings.length : ℤ) ≤ INT_MAX
  string_le : ∀ s ∈ strings, (s.length : ℤ) ≤ INT_MAX

theorem written_append (t u : StartTranscript) : written (t ++ u) = written t ++ written u :=
  List.flatMap_append

theorem lines_cons (s : List Byte) (strings : List (List Byte)) :
    lines (s :: strings) = s ++ newline ++ lines strings := by
  simp [lines]

theorem lines_append (ss ts : List (List Byte)) : lines (ss ++ ts) = lines ss ++ lines ts :=
  List.flatMap_append

theorem fits_succ_iff (n : ℕ) : Fits (n + 1) ↔ ((n + 1 : ℕ) : ℤ) ≤ INT_MAX := by
  rw [fits_iff, INT_MAX]
  omega

/-! ## Strings -/

section Strings
variable {m : Memory} {arg : Word} {s : List Byte}

theorem HoldsString.byte_ne_zero (h : HoldsString m arg s) {len : ℕ} (hlen : len < s.length) :
    ¬ m.bytesAt arg len = 0 := by
  have hget : (s ++ [0])[len]? = some s[len] := by
    rw [List.getElem?_append_left hlen, List.getElem?_eq_getElem hlen]
  rw [h.bytes len _ hget]
  intro hzero
  exact h.nulFree (hzero ▸ List.getElem_mem hlen)

theorem HoldsString.terminator (h : HoldsString m arg s) : m.bytesAt arg s.length = 0 := by
  apply h.bytes
  rw [List.getElem?_append_right (Nat.le_refl _), Nat.sub_self]
  rfl

theorem HoldsString.map_bytesAt (h : HoldsString m arg s) :
    (List.range s.length).map (m.bytesAt arg) = s := by
  apply List.ext_getElem?
  intro i
  by_cases hi : i < s.length
  · have hget : (s ++ [0])[i]? = some s[i] := by
      rw [List.getElem?_append_left hi, List.getElem?_eq_getElem hi]
    rw [List.getElem?_map, List.getElem?_range hi, Option.map_some, h.bytes i _ hget,
      List.getElem?_eq_getElem hi]
  · rw [List.getElem?_eq_none (by simpa using hi), List.getElem?_eq_none (by omega)]

/-- In front of a byte of the string the loop goes on, unless its counter overflows. -/
theorem HoldsString.lenRound_of_lt (h : HoldsString m arg s) {len : ℕ} (hlen : len < s.length) :
    lenRound m arg len =
      if ¬ Fits (len + 1) then .ret (.inr (.error .intOverflow)) else .ret (.inl (len + 1)) := by
  rw [lenRound, if_neg (h.byte_ne_zero hlen)]

theorem HoldsString.lenRound_end (h : HoldsString m arg s) :
    lenRound m arg s.length = .ret (.inr (.ok s.length)) := by
  rw [lenRound, if_pos h.terminator]

/-- From any position in the string the loop ends at the terminator, or where the counter
overflows, or for want of fuel. -/
theorem HoldsString.loop_cases (h : HoldsString m arg s) (fuel : ℕ) {len : ℕ}
    (hlen : len ≤ s.length) (hcount : (len : ℤ) ≤ INT_MAX) :
    Prog.loop (lenRound m arg) fuel len = .outOfFuel ∨
      Prog.loop (lenRound m arg) fuel len = .ret (.error .intOverflow) ∨
      (s.length : ℤ) ≤ INT_MAX ∧ Prog.loop (lenRound m arg) fuel len = .ret (.ok s.length) := by
  induction fuel generalizing len with
  | zero => exact Or.inl rfl
  | succ fuel ih =>
    rcases Nat.lt_or_eq_of_le hlen with hlt | rfl
    · have hround := h.lenRound_of_lt hlt
      by_cases hfits : Fits (len + 1)
      · rw [if_neg (not_not_intro hfits)] at hround
        rw [Prog.loop_of_inl hround]
        exact ih hlt ((fits_succ_iff len).mp hfits)
      · rw [if_pos hfits] at hround
        exact Or.inr (Or.inl (Prog.loop_of_inr hround fuel))
    · exact Or.inr (Or.inr ⟨hcount, Prog.loop_of_inr h.lenRound_end fuel⟩)

theorem HoldsString.loop_eq (h : HoldsString m arg s) (hfits : (s.length : ℤ) ≤ INT_MAX)
    {fuel len : ℕ} (hlen : len ≤ s.length) (hfuel : s.length < len + fuel) :
    Prog.loop (lenRound m arg) fuel len = .ret (.ok s.length) := by
  induction fuel generalizing len with
  | zero => omega
  | succ fuel ih =>
    rcases Nat.lt_or_eq_of_le hlen with hlt | rfl
    · have hnext : Fits (len + 1) := (fits_succ_iff len).mpr (by omega)
      have hround := h.lenRound_of_lt hlt
      rw [if_neg (not_not_intro hnext)] at hround
      rw [Prog.loop_of_inl hround]
      exact ih hlt (by omega)
    · exact Prog.loop_of_inr h.lenRound_end fuel

theorem HoldsString.lenLoop_eq (h : HoldsString m arg s) (hfits : (s.length : ℤ) ≤ INT_MAX)
    {fuel : ℕ} (hfuel : s.length < fuel) : lenLoop m fuel arg = .ret (.ok s.length) := by
  rw [lenLoop, if_neg h.nonnull]
  exact h.loop_eq hfits (Nat.zero_le _) (by omega)

theorem HoldsString.lenLoop_cases (h : HoldsString m arg s) (fuel : ℕ) :
    lenLoop m fuel arg = .outOfFuel ∨ lenLoop m fuel arg = .ret (.error .intOverflow) ∨
      (s.length : ℤ) ≤ INT_MAX ∧ lenLoop m fuel arg = .ret (.ok s.length) := by
  rw [lenLoop, if_neg h.nonnull]
  exact h.loop_cases fuel (Nat.zero_le _) (by rw [INT_MAX]; omega)

end Strings

/-! ## Vectors -/

section Vectors
variable {m : Memory} {vec : Word} {strings : List (List Byte)} {fuel i : ℕ}
variable (env : ∀ op : StartCall, op.Answer)

/-- The calls that print one entry. -/
def lineCalls (s : List Byte) : StartTranscript :=
  [⟨.write 1 s, env (.write 1 s)⟩, ⟨.write 1 newline, env (.write 1 newline)⟩]

theorem written_lineCalls (s : List Byte) : written (lineCalls env s) = s ++ newline := by
  have hwritten : written (lineCalls env s) = s ++ (newline ++ []) := rfl
  rw [hwritten, List.append_nil]

theorem HoldsVector.next_ne_zero (h : HoldsVector m vec strings) (hi : i < strings.length) :
    entry m vec i ≠ 0 :=
  (h.entries i strings[i] (List.getElem?_eq_getElem hi)).nonnull

/-- What follows an entry once it is printed. -/
def afterEntry (m : Memory) (vec : Word) (i : ℕ) : ℕ ⊕ Except Fault Unit :=
  if ¬ Fits (i + 1) then .inr (.error .intOverflow)
  else if entry m vec (i + 1) ≠ 0 then .inl (i + 1)
  else .inr (.ok ())

theorem afterEntry_overflow (hfits : ¬ Fits (i + 1)) :
    afterEntry m vec i = .inr (.error .intOverflow) := if_pos hfits

theorem HoldsVector.afterEntry_next (h : HoldsVector m vec strings) (hfits : Fits (i + 1))
    (hnext : i + 1 < strings.length) : afterEntry m vec i = .inl (i + 1) := by
  rw [afterEntry, if_neg (not_not_intro hfits), if_pos (h.next_ne_zero hnext)]

theorem HoldsVector.afterEntry_last (h : HoldsVector m vec strings) (hfits : Fits (i + 1))
    (hlast : i + 1 = strings.length) : afterEntry m vec i = .inr (.ok ()) := by
  have hnull : ¬ entry m vec (i + 1) ≠ 0 := not_not_intro (by rw [hlast]; exact h.null)
  rw [afterEntry, if_neg (not_not_intro hfits), if_neg hnull]

theorem vectorRound_of_len {s : List Byte} (h : HoldsString m (entry m vec i) s)
    (hlen : lenLoop m fuel (entry m vec i) = .ret (.ok s.length)) :
    vectorRound m fuel vec i = .call (.write 1 s) fun _ => .call (.write 1 newline) fun _ =>
      .ret (afterEntry m vec i) := by
  rw [vectorRound, hlen, Prog.bind_eq, Prog.ret_bind, afterEntry]
  dsimp only
  rw [h.map_bytesAt, apply_ite Prog.ret, apply_ite Prog.ret]
  simp only [Prog.bind_eq, Prog.ask_bind, Prog.pure_eq]

theorem run_vectorRound {s : List Byte} (h : HoldsString m (entry m vec i) s)
    (hlen : lenLoop m fuel (entry m vec i) = .ret (.ok s.length)) :
    (vectorRound m fuel vec i).run env = (some (afterEntry m vec i), lineCalls env s) := by
  rw [vectorRound_of_len h hlen, Prog.run_call, Prog.run_call, Prog.run_ret, lineCalls]

theorem HoldsVector.loop_prints (h : HoldsVector m vec strings) (hcount : Countable strings)
    (hfuel : ∀ s ∈ strings, s.length < fuel) {n : ℕ} (hi : i < strings.length)
    (hn : strings.length ≤ i + n) :
    ∃ t, (Prog.loop (vectorRound m fuel vec) n i).run env = (some (.ok ()), t) ∧
      written t = lines (strings.drop i) := by
  induction n generalizing i with
  | zero => omega
  | succ n ih =>
    have hmem : strings[i] ∈ strings := List.getElem_mem hi
    have hstring := h.entries i strings[i] (List.getElem?_eq_getElem hi)
    have hround := run_vectorRound env hstring
      (hstring.lenLoop_eq (hcount.string_le _ hmem) (hfuel _ hmem))
    have hlength := hcount.length_le
    have hfits : Fits (i + 1) := (fits_succ_iff i).mpr (by omega)
    rw [List.drop_eq_getElem_cons hi, lines_cons]
    by_cases hnext : i + 1 < strings.length
    · rw [h.afterEntry_next hfits hnext] at hround
      obtain ⟨t, hrun, hwritten⟩ := ih hnext (by omega)
      refine ⟨lineCalls env strings[i] ++ t, ?_, ?_⟩
      · rw [Prog.run_loop_inl env hround, hrun]
      · rw [written_append, written_lineCalls, hwritten]
    · have hlast : i + 1 = strings.length := by omega
      rw [h.afterEntry_last hfits hlast] at hround
      refine ⟨lineCalls env strings[i], Prog.run_loop_inr env hround n, ?_⟩
      rw [written_lineCalls, hlast, List.drop_length]
      exact (List.append_nil _).symm

theorem HoldsVector.vectorLoop_prints (h : HoldsVector m vec strings) (hcount : Countable strings)
    (hfuel : ∀ s ∈ strings, s.length < fuel) (hlength : strings.length ≤ fuel) :
    ∃ t, (vectorLoop m fuel vec).run env = (some (.ok ()), t) ∧ written t = lines strings :=
  h.loop_prints env hcount hfuel (List.length_pos_iff.mpr hcount.nonempty) (by omega)

/-- A round that ends without a fault has printed an entry whose counts fit. -/
theorem HoldsVector.round_cases (h : HoldsVector m vec strings) (hi : i ≤ strings.length)
    {r : ℕ ⊕ Except Fault Unit} {t : StartTranscript}
    (hrun : (vectorRound m fuel vec i).run env = (some r, t)) :
    (∃ fault, r = .inr (.error fault)) ∨
      ∃ s, strings[i]? = some s ∧ (s.length : ℤ) ≤ INT_MAX ∧ ((i + 1 : ℕ) : ℤ) ≤ INT_MAX ∧
        (r = .inl (i + 1) ∧ i + 1 ≤ strings.length ∨ r = .inr (.ok ()) ∧ i + 1 = strings.length) := by
  rcases Nat.lt_or_eq_of_le hi with hlt | rfl
  · have hget := List.getElem?_eq_getElem hlt
    have hstring := h.entries i strings[i] hget
    rcases hstring.lenLoop_cases fuel with hlen | hlen | ⟨hle, hlen⟩
    · rw [vectorRound, hlen] at hrun
      cases hrun
    · rw [vectorRound, hlen] at hrun
      obtain ⟨hr, -⟩ := Prod.mk.inj hrun
      exact Or.inl ⟨.intOverflow, (Option.some.inj hr).symm⟩
    · rw [run_vectorRound env hstring hlen] at hrun
      obtain ⟨hr, -⟩ := Prod.mk.inj hrun
      obtain rfl := Option.some.inj hr
      by_cases hfits : Fits (i + 1)
      · refine Or.inr ⟨strings[i], hget, hle, (fits_succ_iff i).mp hfits, ?_⟩
        rcases Nat.lt_or_eq_of_le (Nat.succ_le_of_lt hlt) with hnext | hlast
        · exact Or.inl ⟨h.afterEntry_next hfits hnext, hlt⟩
        · exact Or.inr ⟨h.afterEntry_last hfits hlast, hlast⟩
      · exact Or.inl ⟨.intOverflow, afterEntry_overflow hfits⟩
  · have hnull : lenLoop m fuel (entry m vec strings.length) = .ret (.error .nullDereference) := by
      rw [lenLoop, if_pos h.null]
    rw [vectorRound, hnull] at hrun
    obtain ⟨hr, -⟩ := Prod.mk.inj hrun
    exact Or.inl ⟨.nullDereference, (Option.some.inj hr).symm⟩

theorem forall_mem_drop {P : List Byte → Prop} {s : List Byte} (hget : strings[i]? = some s)
    (hs : P s) (hrest : ∀ s' ∈ strings.drop (i + 1), P s') : ∀ s' ∈ strings.drop i, P s' := by
  intro s' hs'
  rw [List.drop_eq_getElem?_toList_append, hget] at hs'
  rcases List.mem_append.mp hs' with hs' | hs'
  · obtain rfl := List.mem_singleton.mp hs'
    exact hs
  · exact hrest s' hs'

/-- A loop that ends without a fault has found an entry, and counts that fit. -/
theorem HoldsVector.counts_of_loop (h : HoldsVector m vec strings) {n : ℕ} {t : StartTranscript}
    (hi : i ≤ strings.length)
    (hrun : (Prog.loop (vectorRound m fuel vec) n i).run env = (some (.ok ()), t)) :
    i < strings.length ∧ (strings.length : ℤ) ≤ INT_MAX ∧
      ∀ s ∈ strings.drop i, (s.length : ℤ) ≤ INT_MAX := by
  induction n generalizing i t with
  | zero => cases hrun
  | succ n ih =>
    rcases Prog.run_loop_eq_some hrun with ⟨i', u, v, hround, hrest, -⟩ | hround
    · rcases h.round_cases env hi hround with ⟨fault, hr⟩ | ⟨s, hget, hle, -, hnext⟩
      · cases hr
      · rcases hnext with ⟨hr, hsucc⟩ | ⟨hr, -⟩
        · obtain rfl := Sum.inl.inj hr
          obtain ⟨hlt, hlength, hstrings⟩ := ih hsucc hrest
          exact ⟨by omega, hlength, forall_mem_drop hget hle hstrings⟩
        · cases hr
    · rcases h.round_cases env hi hround with ⟨fault, hr⟩ | ⟨s, hget, hle, hsucc, hnext⟩
      · cases hr
      · rcases hnext with ⟨hr, -⟩ | ⟨-, hlast⟩
        · cases hr
        · refine ⟨by omega, by omega, forall_mem_drop hget hle fun s' hs' => ?_⟩
          rw [hlast, List.drop_length] at hs'
          cases hs'

theorem HoldsVector.countable_of_vectorLoop (h : HoldsVector m vec strings) {t : StartTranscript}
    (hrun : (vectorLoop m fuel vec).run env = (some (.ok ()), t)) : Countable strings := by
  obtain ⟨hlt, hlength, hstrings⟩ := h.counts_of_loop env (Nat.zero_le _) hrun
  exact ⟨List.ne_nil_of_length_pos hlt, hlength, hstrings⟩

end Vectors

/-! ## The whole program -/

section Program
variable {m : Memory} {sp : Word} {args envs : List (List Byte)}

/-- The environment vector is found, no run faults, and what is printed are the arguments
and then the environment. -/
structure PrintsAll (m : Memory) (sp : Word) (args envs : List (List Byte)) : Prop where
  envp : HoldsVector m (envpOf m sp) envs
  prints : ∀ env : (∀ op : StartCall, op.Answer), ∃ bound, ∀ fuel ≥ bound,
    ∃ t, (prepMain m fuel sp).run env = (some (.ok 0), t) ∧ written t = lines (args ++ envs)

/-- Pointer arithmetic over the argument vector leads to the environment. -/
theorem InitialStack.envpOf_eq (h : InitialStack m sp args envs) :
    envpOf m sp = sp + BitVec.ofNat 64 (8 * (args.length + 2)) := by
  rw [envpOf, argvOf, h.argc]
  have hone : (8 : Word).toNat = 8 ∧ (1 : Word).toNat = 1 := ⟨rfl, rfl⟩
  apply BitVec.eq_of_toNat_eq
  simp only [BitVec.toNat_add, BitVec.toNat_mul, BitVec.toNat_ofNat, hone]
  omega

theorem InitialStack.holdsVector_envpOf (h : InitialStack m sp args envs) :
    HoldsVector m (envpOf m sp) envs := by
  rw [h.envpOf_eq]
  exact h.envp

/-- The length of the longest string. -/
def longest (strings : List (List Byte)) : ℕ := (strings.map List.length).foldr max 0

theorem length_le_longest {strings : List (List Byte)} {s : List Byte} (h : s ∈ strings) :
    s.length ≤ longest strings := by
  induction strings with
  | nil => cases h
  | cons s' strings ih =>
    have hmax : longest (s' :: strings) = max s'.length (longest strings) := rfl
    rw [hmax]
    rcases List.mem_cons.mp h with rfl | h
    · exact Nat.le_max_left _ _
    · exact Nat.le_trans (ih h) (Nat.le_max_right _ _)

theorem cMain_of_loops (env : ∀ op : StartCall, op.Answer) {fuel : ℕ} {argv envp : Word}
    {t u : StartTranscript} (hargv : (argvLoop m fuel argv).run env = (some (.ok ()), t))
    (henvp : (envpLoop m fuel envp).run env = (some (.ok ()), u)) :
    (cMain m fuel argv envp).run env = (some (.ok 0), t ++ u) := by
  rw [cMain, Prog.bind_eq, Prog.run_bind env hargv]
  simp only [Prog.bind_eq, Prog.run_bind env henvp, Prog.pure_eq, Prog.run_ret, List.append_nil]

theorem loops_of_cMain (env : ∀ op : StartCall, op.Answer) {fuel : ℕ} {argv envp : Word}
    {t : StartTranscript} (h : (cMain m fuel argv envp).run env = (some (.ok 0), t)) :
    ∃ u v, (argvLoop m fuel argv).run env = (some (.ok ()), u) ∧
      (envpLoop m fuel envp).run env = (some (.ok ()), v) := by
  obtain ⟨r, u, v, hargv, hrest, -⟩ := Prog.run_bind_eq_some env h
  cases r with
  | error fault => cases hrest
  | ok _ =>
    obtain ⟨r', w, x, henvp, hlast, -⟩ := Prog.run_bind_eq_some env hrest
    cases r' with
    | error fault => cases hlast
    | ok _ => exact ⟨u, w, hargv, henvp⟩

theorem printsAll_of_countable (h : InitialStack m sp args envs) (hargs : Countable args)
    (henvs : Countable envs) : PrintsAll m sp args envs where
  envp := h.holdsVector_envpOf
  prints := by
    intro env
    refine ⟨longest (args ++ envs) + args.length + envs.length + 1, fun fuel hfuel => ?_⟩
    have hshort : ∀ s ∈ args ++ envs, s.length < fuel := by
      intro s hs
      have hle := length_le_longest hs
      omega
    obtain ⟨t, hargv, hargvOut⟩ := h.argv.vectorLoop_prints env hargs
      (fun s hs => hshort s (List.mem_append_left _ hs)) (by omega : args.length ≤ fuel)
    obtain ⟨u, henvp, henvpOut⟩ := h.holdsVector_envpOf.vectorLoop_prints env henvs
      (fun s hs => hshort s (List.mem_append_right _ hs)) (by omega : envs.length ≤ fuel)
    refine ⟨t ++ u, cMain_of_loops env hargv henvp, ?_⟩
    rw [written_append, hargvOut, henvpOut, lines_append]

theorem countable_of_printsAll (h : InitialStack m sp args envs) (hprints : PrintsAll m sp args envs) :
    Countable args ∧ Countable envs := by
  obtain ⟨bound, hbound⟩ := hprints.prints fun _ => (0 : Word)
  obtain ⟨t, hrun, -⟩ := hbound bound (Nat.le_refl bound)
  obtain ⟨u, v, hargv, henvp⟩ := loops_of_cMain _ hrun
  exact ⟨h.argv.countable_of_vectorLoop _ hargv, h.holdsVector_envpOf.countable_of_vectorLoop _ henvp⟩

end Program

/-- The demo prints its arguments and its environment exactly if neither is empty and all
their counts are values of type `int`. -/
theorem printsAll_iff_countable {m : Memory} {sp : Word} {args envs : List (List Byte)}
    (h : InitialStack m sp args envs) :
    PrintsAll m sp args envs ↔ Countable args ∧ Countable envs :=
  ⟨countable_of_printsAll h, fun hcount => printsAll_of_countable h hcount.1 hcount.2⟩

/-- A stack with the argument `a`, and `b` as the environment unless the pointer to it,
of which only the second byte may differ from zero, is null. -/
def demoMemory (pointer : Byte) : Memory := fun x =>
  if x = 0x1000 then 1
  else if x = 0x1009 then 0x20
  else if x = 0x1019 then pointer
  else if x = 0x2000 then 0x61
  else if x = 0x3000 then 0x62
  else 0

theorem holdsString_singleton {m : Memory} {arg : Word} {b : Byte} (hnonnull : arg ≠ 0) (hb : b ≠ 0)
    (hbyte : m.bytesAt arg 0 = b) (hnul : m.bytesAt arg 1 = 0) : HoldsString m arg [b] where
  nonnull := hnonnull
  nulFree := fun hmem => hb (List.mem_singleton.mp hmem).symm
  bytes := by
    intro i b' hget
    match i with
    | 0 => exact hbyte.trans (Option.some.inj hget)
    | 1 => exact hnul.trans (Option.some.inj hget)
    | _ + 2 => cases hget

theorem holdsVector_nil {m : Memory} {vec : Word} (hnull : entry m vec 0 = 0) :
    HoldsVector m vec [] where
  entries := by
    intro i s hget
    cases hget
  null := hnull

theorem holdsVector_singleton {m : Memory} {vec : Word} {s : List Byte}
    (hstring : HoldsString m (entry m vec 0) s) (hnull : entry m vec 1 = 0) :
    HoldsVector m vec [s] where
  entries := by
    intro i s' hget
    match i with
    | 0 =>
      obtain rfl := Option.some.inj hget
      exact hstring
    | _ + 1 => cases hget
  null := hnull

theorem demoMemory_load (pointer : Byte) {a : Word} (h : ∀ i < 8, a + BitVec.ofNat 64 i ≠ 0x1019) :
    (demoMemory pointer).load a = (demoMemory 0).load a := by
  apply wordOf_congr
  intro i hi
  simp only [Memory.bytesAt, demoMemory, if_neg (h i hi)]

theorem demoMemory_argc (pointer : Byte) : (demoMemory pointer).load 0x1000 = 1 := by
  rw [demoMemory_load pointer (by decide)]
  rfl

theorem demoMemory_argv (pointer : Byte) :
    HoldsVector (demoMemory pointer) (0x1000 + 8) [[0x61]] := by
  have hentry : entry (demoMemory pointer) (0x1000 + 8) 0 = 0x2000 := by
    rw [entry, demoMemory_load pointer (by decide)]
    rfl
  have hnull : entry (demoMemory pointer) (0x1000 + 8) 1 = 0 := by
    rw [entry, demoMemory_load pointer (by decide)]
    rfl
  refine holdsVector_singleton ?_ hnull
  rw [hentry]
  exact holdsString_singleton (by decide) (by decide) rfl rfl

theorem demoMemory_initialStack {pointer : Byte} {envs : List (List Byte)}
    (henvs : HoldsVector (demoMemory pointer) 0x1018 envs) :
    InitialStack (demoMemory pointer) 0x1000 [[0x61]] envs where
  argc := demoMemory_argc pointer
  argv := demoMemory_argv pointer
  envp := henvs

/-- An empty environment: its null entry is dereferenced. -/
theorem demoMemory_faults : InitialStack (demoMemory 0) 0x1000 [[0x61]] [] ∧
    ¬ PrintsAll (demoMemory 0) 0x1000 [[0x61]] [] := by
  have hstack : InitialStack (demoMemory 0) 0x1000 [[0x61]] [] :=
    demoMemory_initialStack (holdsVector_nil rfl)
  refine ⟨hstack, fun hprints => ?_⟩
  exact (countable_of_printsAll hstack hprints).2.nonempty rfl

theorem countable_singleton (b : Byte) : Countable [[b]] where
  nonempty := List.cons_ne_nil _ _
  length_le := by simp [INT_MAX]
  string_le := by
    intro s hs
    obtain rfl := List.mem_singleton.mp hs
    simp [INT_MAX]

/-- With an environment, both strings are printed. -/
theorem demoMemory_prints : InitialStack (demoMemory 0x30) 0x1000 [[0x61]] [[0x62]] ∧
    PrintsAll (demoMemory 0x30) 0x1000 [[0x61]] [[0x62]] := by
  have hentry : entry (demoMemory 0x30) 0x1018 0 = 0x3000 := rfl
  have hstring : HoldsString (demoMemory 0x30) (entry (demoMemory 0x30) 0x1018 0) [0x62] := by
    rw [hentry]
    exact holdsString_singleton (by decide) (by decide) rfl rfl
  have hstack : InitialStack (demoMemory 0x30) 0x1000 [[0x61]] [[0x62]] :=
    demoMemory_initialStack (holdsVector_singleton hstring rfl)
  exact ⟨hstack, (printsAll_iff_countable hstack).mpr
    ⟨countable_singleton 0x61, countable_singleton 0x62⟩⟩

end VariousStuff.SmallStart
