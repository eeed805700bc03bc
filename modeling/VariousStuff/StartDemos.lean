import VariousStuff.SmallStartPrints
import VariousStuff.TotalPreconditions

/-! # Two more demos on the initial stack

One writes its arguments and its environment to the kernel log, entry by entry as long as
there is one. The other prints ten arguments at most, and goes by the count of them. -/
namespace VariousStuff.StartDemos
open Interactive UserMemory IntArithmetic
open SmallStart (Fault StartCall StartProg StartTranscript entry argvOf envpOf newline lenLoop lines
  written fits_succ_iff HoldsString HoldsVector InitialStack)

/-! ## The kernel log -/

inductive LogCall where
  | openat (dir : Word) (path : String) (flags mode : Word)
  | write (fd : Word) (bytes : List Byte)
  | exit (code : Word)

abbrev LogCall.Answer : LogCall → Type
  | .openat _ _ _ _ => Word
  | .write _ _ => Word
  | .exit _ => Unit

abbrev LogProg := Prog LogCall.Answer

abbrev LogTranscript := Transcript LogCall.Answer

/-- An array that is initialised with a literal, its NUL included. -/
def literal (text : String) : List Byte := text.toList.map (fun c => BitVec.ofNat 8 c.toNat) ++ [0]

def msg : List Byte := literal "ksu_preinit_demo: Hello world!\n"

def msg2 : List Byte := literal "ksu_preinit_demo: print shit on dmesg!\n"

/-- `openat(AT_FDCWD, "/dev/kmsg", O_WRONLY, 0)`. -/
def openKmsg : LogCall := .openat (-100) "/dev/kmsg" 1 0

def write (fd : BitVec 32) (bytes : List Byte) : LogProg Unit := do
  let _ ← Prog.ask (LogCall.write (fd.signExtend 64) bytes)

def strlen (m : Memory) (arg : Word) (fuel : ℕ) : Option ℕ :=
  (List.range fuel).find? fun len => m.bytesAt arg len = 0

/-- One round of `while (argv[i])`, or of the loop over the environment. -/
def writeRound (m : Memory) (fuel : ℕ) (fd : BitVec 32) (vec : Word) (i : ℕ) :
    LogProg (ℕ ⊕ Except Fault Unit) := do
  let arg := entry m vec i
  if arg = 0 then
    return .inr (.ok ())
  match strlen m arg fuel with
  | none => .outOfFuel
  | some len =>
    write fd ((List.range len).map (m.bytesAt arg))
    if ¬ Fits (i + 1) then
      return .inr (.error .intOverflow)
    return .inl (i + 1)

def writeVector (m : Memory) (fuel : ℕ) (fd : BitVec 32) (vec : Word) : LogProg (Except Fault Unit) :=
  Prog.loop (writeRound m fuel fd vec) fuel 0

/-- `main` of `hello3.c`. -/
def logMain (m : Memory) (fuel : ℕ) (argv envp : Word) : LogProg (Except Fault Word) := do
  let fd := (← Prog.ask openKmsg).setWidth 32
  if ¬ 0 ≤ fd.toInt then
    return .ok 0
  write fd msg
  match ← writeVector m fuel fd argv with
  | .error fault => return .error fault
  | .ok () =>
    match ← writeVector m fuel fd envp with
    | .error fault => return .error fault
    | .ok () =>
      write fd msg2
      return .ok 0

/-- `prep_main` of `hello3.c`. -/
def logPrepMain (m : Memory) (fuel : ℕ) (sp : Word) : LogProg (Except Fault Unit) := do
  match ← logMain m fuel (argvOf sp) (envpOf m sp) with
  | .error fault => return .error fault
  | .ok exitCode =>
    Prog.ask (LogCall.exit exitCode)
    return .ok ()

/-! ## At most ten arguments -/

/-- The line of one argument. -/
def printArg (m : Memory) (fuel : ℕ) (arg : Word) : StartProg (Except Fault Unit) := do
  match ← lenLoop m fuel arg with
  | .error fault => return .error fault
  | .ok len =>
    let _ ← Prog.ask (StartCall.write 1 ((List.range len).map (m.bytesAt arg)))
    let _ ← Prog.ask (StartCall.write 1 newline)
    return .ok ()

/-- Label `loop_start`. -/
def argRound (m : Memory) (fuel : ℕ) (argc : ℤ) (argv : Word) (i : ℕ) :
    StartProg (ℕ ⊕ Except Fault Unit) := do
  let printed ← if argc > i then printArg m fuel (entry m argv i) else pure (.ok ())
  match printed with
  | .error fault => return .inr (.error fault)
  | .ok () => return if i + 1 < 10 then .inl (i + 1) else .inr (.ok ())

/-- `c_main` of `small_start.c` among the tests. -/
def testCMain (m : Memory) (fuel : ℕ) (argc : ℤ) (argv : Word) : StartProg (Except Fault ℤ) := do
  match ← Prog.loop (argRound m fuel argc argv) fuel 0 with
  | .error fault => return .error fault
  | .ok () => return .ok 1

/-- What `prep_main` there hands to the exit call. The count is narrowed to an `int`. -/
def testPrepMain (m : Memory) (fuel : ℕ) (sp : Word) : StartProg (Except Fault ℤ) :=
  testCMain m fuel (narrow (m.load sp).toInt) (argvOf sp)

/-! ## What is written to the log -/

def calls (t : LogTranscript) : List LogCall := t.map Sigma.fst

def writeCall (fd : BitVec 32) (bytes : List Byte) : LogCall := .write (fd.signExtend 64) bytes

@[simp] theorem calls_nil : calls [] = [] := rfl

@[simp] theorem calls_cons (e : Σ op, LogCall.Answer op) (t : LogTranscript) :
    calls (e :: t) = e.1 :: calls t := rfl

@[simp] theorem calls_append (t u : LogTranscript) : calls (t ++ u) = calls t ++ calls u :=
  List.map_append

section Log
variable {m : Memory} {vec arg sp : Word} {fd : BitVec 32} {s : List Byte}
  {strings args envs : List (List Byte)} {fuel i : ℕ}

theorem strlen_eq (h : HoldsString m arg s) (hfuel : s.length < fuel) :
    strlen m arg fuel = some s.length := by
  rw [strlen, List.find?_range_eq_some]
  refine ⟨decide_eq_true h.terminator, List.mem_range.mpr hfuel, fun j hj => ?_⟩
  simpa using h.byte_ne_zero hj

/-- What follows an entry once it is written. -/
def afterWrite (i : ℕ) : ℕ ⊕ Except Fault Unit :=
  if ¬ Fits (i + 1) then .inr (.error .intOverflow) else .inl (i + 1)

theorem afterWrite_cases (i : ℕ) :
    ((i + 1 : ℕ) : ℤ) ≤ INT_MAX ∧ afterWrite i = .inl (i + 1) ∨
      INT_MAX < (i + 1 : ℕ) ∧ afterWrite i = .inr (.error .intOverflow) := by
  by_cases hfits : Fits (i + 1)
  · exact Or.inl ⟨(fits_succ_iff i).mp hfits, if_neg (not_not_intro hfits)⟩
  · exact Or.inr ⟨Int.not_le.mp (mt (fits_succ_iff i).mpr hfits), if_pos hfits⟩

theorem writeRound_of_lt (h : HoldsVector m vec strings) (hfuel : ∀ s ∈ strings, s.length < fuel)
    (hi : i < strings.length) :
    writeRound m fuel fd vec i = .call (writeCall fd strings[i]) fun _ => .ret (afterWrite i) := by
  have hstring := h.entries i strings[i] (List.getElem?_eq_getElem hi)
  have hlen := strlen_eq hstring (hfuel _ (List.getElem_mem hi))
  rw [writeRound, if_neg hstring.nonnull, hlen]
  dsimp only
  rw [hstring.map_bytesAt, afterWrite, apply_ite Prog.ret]
  simp only [write, writeCall, Prog.bind_eq, Prog.ask_bind, Prog.call_bind, Prog.ret_bind,
    Prog.pure_eq]

theorem writeRound_end (h : HoldsVector m vec strings) :
    writeRound m fuel fd vec strings.length = .ret (.inr (.ok ())) := if_pos h.null

/-- The entries in order, unless their count is no value of type `int`. -/
def WritesAll (fd : BitVec 32) (strings : List (List Byte)) (r : Except Fault Unit)
    (t : LogTranscript) : Prop :=
  r = .ok () ∧ (strings.length : ℤ) ≤ INT_MAX ∧ calls t = strings.map (writeCall fd) ∨
    r = .error .intOverflow ∧ INT_MAX < strings.length

theorem writeVector_twp (h : HoldsVector m vec strings) (hfuel : ∀ s ∈ strings, s.length < fuel)
    (hlength : strings.length < fuel) (t : LogTranscript) :
    (writeVector m fuel fd vec).twp (fun r u => ∃ v, u = t ++ v ∧ WritesAll fd strings r v) t := by
  refine Prog.twp_loop (fun i u => i ≤ strings.length ∧ (i : ℤ) ≤ INT_MAX ∧
    ∃ v, u = t ++ v ∧ calls v = (strings.take i).map (writeCall fd)) (fun i => strings.length - i)
    ?_ ⟨Nat.zero_le _, by decide, [], (List.append_nil t).symm, rfl⟩ (by omega)
  intro i u hinv
  obtain ⟨hi, hint, v, rfl, hcalls⟩ := hinv
  rcases Nat.lt_or_eq_of_le hi with hlt | rfl
  · rcases afterWrite_cases i with ⟨hnext, hafter⟩ | ⟨hnext, hafter⟩
    · rw [writeRound_of_lt h hfuel hlt, hafter]
      intro x
      refine ⟨⟨hlt, hnext, v ++ [⟨writeCall fd strings[i], x⟩], List.append_assoc _ _ _, ?_⟩,
        by omega⟩
      rw [calls_append, hcalls, List.take_succ_eq_append_getElem hlt, List.map_append]
      rfl
    · rw [writeRound_of_lt h hfuel hlt, hafter]
      intro x
      refine ⟨v ++ [⟨writeCall fd strings[i], x⟩], List.append_assoc _ _ _, Or.inr ⟨rfl, ?_⟩⟩
      omega
  · rw [writeRound_end h, Prog.twp_ret]
    rw [List.take_length] at hcalls
    exact ⟨v, rfl, Or.inl ⟨rfl, hint, hcalls⟩⟩

theorem twp_write (Q : Unit → LogTranscript → Prop) (bytes : List Byte) (t : LogTranscript) :
    (write fd bytes).twp Q t ↔ ∀ x : Word, Q () (t ++ [⟨writeCall fd bytes, x⟩]) := Iff.rfl

/-- The calls between opening the log and the exit. -/
def demoCalls (fd : BitVec 32) (args envs : List (List Byte)) : List LogCall :=
  if 0 ≤ fd.toInt then (msg :: args ++ (envs ++ [msg2])).map (writeCall fd) else []

/-- Both loops end with a value of type `int`. -/
def Counted (args envs : List (List Byte)) : Prop :=
  (args.length : ℤ) ≤ INT_MAX ∧ (envs.length : ℤ) ≤ INT_MAX

/-- What `main` comes to with the descriptor it got. -/
def LogMainEnds (fd : BitVec 32) (args envs : List (List Byte)) (r : Except Fault Word)
    (t : LogTranscript) : Prop :=
  r = .ok 0 ∧ (0 ≤ fd.toInt → Counted args envs) ∧ calls t = demoCalls fd args envs ∨
    r = .error .intOverflow ∧ 0 ≤ fd.toInt ∧ ¬ Counted args envs

theorem logMain_twp {argv envp : Word} (hargv : HoldsVector m argv args)
    (henvp : HoldsVector m envp envs) (hargs : args.length < fuel) (henvs : envs.length < fuel)
    (hshort : ∀ s ∈ args ++ envs, s.length < fuel) :
    (logMain m fuel argv envp).twp (fun r t => ∃ answer v, t = ⟨openKmsg, answer⟩ :: v ∧
      LogMainEnds (BitVec.setWidth 32 answer) args envs r v) [] := by
  have hshortArgs : ∀ s ∈ args, s.length < fuel := fun s hs =>
    hshort s (List.mem_append_left _ hs)
  have hshortEnvs : ∀ s ∈ envs, s.length < fuel := fun s hs =>
    hshort s (List.mem_append_right _ hs)
  intro (answer : Word)
  change Prog.twp _ (if ¬ 0 ≤ (BitVec.setWidth 32 answer).toInt then _ else _) _
  by_cases hfd : 0 ≤ (BitVec.setWidth 32 answer).toInt
  · rw [if_neg (not_not_intro hfd), Prog.bind_eq, Prog.twp_bind, twp_write]
    intro x
    rw [Prog.bind_eq, Prog.twp_bind]
    refine Prog.twp_mono (writeVector_twp hargv hshortArgs hargs _) ?_
    rintro r u ⟨v, rfl, hv⟩
    rcases hv with ⟨rfl, hcount, hcalls⟩ | ⟨rfl, hcount⟩
    · rw [Prog.bind_eq, Prog.twp_bind]
      refine Prog.twp_mono (writeVector_twp henvp hshortEnvs henvs _) ?_
      rintro r' u' ⟨w, rfl, hw⟩
      rcases hw with ⟨rfl, hcount', hcalls'⟩ | ⟨rfl, hcount'⟩
      · rw [Prog.bind_eq, Prog.twp_bind, twp_write]
        intro y
        refine ⟨answer, ⟨writeCall (BitVec.setWidth 32 answer) msg, x⟩ :: v ++
          (w ++ [⟨writeCall (BitVec.setWidth 32 answer) msg2, y⟩]), ?_, Or.inl ⟨rfl, ?_, ?_⟩⟩
        · simp only [List.nil_append, List.cons_append, List.append_assoc]
        · exact fun _ => ⟨hcount, hcount'⟩
        · rw [demoCalls, if_pos hfd]
          simp [hcalls, hcalls']
      · refine ⟨answer, ⟨writeCall (BitVec.setWidth 32 answer) msg, x⟩ :: v ++ w, ?_,
          Or.inr ⟨rfl, hfd, fun h => ?_⟩⟩
        · simp only [List.nil_append, List.cons_append]
        · exact absurd h.2 (Int.not_le.mpr hcount')
    · refine ⟨answer, ⟨writeCall (BitVec.setWidth 32 answer) msg, x⟩ :: v, ?_,
        Or.inr ⟨rfl, hfd, fun h => ?_⟩⟩
      · simp only [List.nil_append, List.cons_append]
      · exact absurd h.1 (Int.not_le.mpr hcount)
  · rw [if_pos hfd]
    refine ⟨answer, [], rfl, Or.inl ⟨rfl, fun h => absurd h hfd, ?_⟩⟩
    rw [demoCalls, if_neg hfd]
    rfl

/-- Every run of the demo ends, whatever the kernel answers. It faults only where the log can be
opened and a count is no value of type `int`. Otherwise the calls are these: nothing without the
log, and with it the message, every argument and every variable in order, the other message, all
to the descriptor it got, and the exit with 0. -/
theorem logPrepMain_calls (h : InitialStack m sp args envs) (hargs : args.length < fuel)
    (henvs : envs.length < fuel) (hshort : ∀ s ∈ args ++ envs, s.length < fuel) :
    (logPrepMain m fuel sp).twp (fun r t => ∃ answer v, t = ⟨openKmsg, answer⟩ :: v ∧
      (r = .ok () ∧ (0 ≤ (BitVec.setWidth 32 answer).toInt → Counted args envs) ∧
          calls v = demoCalls (BitVec.setWidth 32 answer) args envs ++ [.exit 0] ∨
        r = .error .intOverflow ∧ 0 ≤ (BitVec.setWidth 32 answer).toInt ∧ ¬ Counted args envs)) [] := by
  rw [logPrepMain, Prog.bind_eq, Prog.twp_bind]
  refine Prog.twp_mono (logMain_twp h.argv h.holdsVector_envpOf hargs henvs hshort) ?_
  rintro r t ⟨answer, v, rfl, hends⟩
  rcases hends with ⟨rfl, hcounted, hcalls⟩ | ⟨rfl, hfd, hcounted⟩
  · intro x
    refine ⟨answer, v ++ [⟨.exit 0, x⟩], rfl, Or.inl ⟨rfl, hcounted, ?_⟩⟩
    rw [calls_append, hcalls]
    rfl
  · exact ⟨answer, v, rfl, Or.inr ⟨rfl, hfd, hcounted⟩⟩

end Log

/-- A kernel whose log has the descriptor 3. -/
def loggingKernel : ∀ op : LogCall, op.Answer
  | .openat _ _ _ _ => (3 : Word)
  | .write _ _ => (0 : Word)
  | .exit _ => ()

/-- One argument and no environment. -/
theorem logPrepMain_calls_noEnvironment : ∃ t,
    (logPrepMain (SmallStart.demoMemory 0) 2 0x1000).run loggingKernel = (some (.ok ()), t) ∧
      calls t = openKmsg :: (demoCalls 3 [[0x61]] [] ++ [.exit 0]) := by
  have hstack : InitialStack (SmallStart.demoMemory 0) 0x1000 [[0x61]] [] :=
    SmallStart.demoMemory_initialStack (SmallStart.holdsVector_nil rfl)
  have hshort : ∀ s ∈ [[0x61]] ++ ([] : List (List Byte)), s.length < 2 := by decide
  obtain ⟨r, t, hrun, answer, v, ht, hends⟩ :=
    Prog.exists_run (logPrepMain_calls hstack (by decide) (by decide) hshort) loggingKernel
  rw [List.nil_append] at ht
  have hanswer : answer = (3 : Word) := by
    apply Prog.answer_of_run loggingKernel (p := logPrepMain (SmallStart.demoMemory 0) 2 0x1000)
      (e := ⟨openKmsg, answer⟩)
    rw [hrun, ht]
    exact List.mem_cons_self
  subst hanswer
  rcases hends with ⟨rfl, -, hcalls⟩ | ⟨-, -, hcounted⟩
  · refine ⟨t, hrun, ?_⟩
    rw [ht, calls_cons, hcalls]
    rfl
  · exact absurd ⟨by decide, by decide⟩ hcounted

/-! ## What the other demo prints -/

section TenArguments
variable {m : Memory} {vec arg sp : Word} {s : List Byte} {strings args envs : List (List Byte)}
  {fuel i : ℕ} {argc : ℤ}

theorem length_lt_of_holdsVector (h : HoldsVector m vec strings) : strings.length < 2 ^ 61 := by
  by_contra hlt
  obtain ⟨k, hk⟩ : ∃ k, strings.length = k + 2 ^ 61 := ⟨strings.length - 2 ^ 61, by omega⟩
  have hoffset : BitVec.ofNat 64 (8 * (k + 2 ^ 61)) = BitVec.ofNat 64 (8 * k) := by
    have hmul : 8 * (k + 2 ^ 61) = 8 * k + 2 ^ 64 := by omega
    apply BitVec.eq_of_toNat_eq
    rw [hmul, BitVec.toNat_ofNat, BitVec.toNat_ofNat, Nat.add_mod_right]
  have hsame : entry m vec k = 0 := by
    rw [← h.null, hk, entry, entry, hoffset]
  exact h.next_ne_zero (by omega) hsame

theorem argc_eq (h : InitialStack m sp args envs) : (m.load sp).toInt = args.length := by
  have hlt := length_lt_of_holdsVector h.argv
  rw [h.argc, BitVec.toInt_eq_toNat_of_lt (by rw [BitVec.toNat_ofNat]; omega), BitVec.toNat_ofNat,
    Nat.mod_eq_of_lt (by omega)]

/-- Where the counter overflows, unless the terminator comes first. -/
theorem loop_overflow (h : HoldsString m arg s) (hlong : INT_MAX < s.length) {len : ℕ}
    (hlen : (len : ℤ) ≤ INT_MAX) (hfuel : s.length < len + fuel) :
    Prog.loop (SmallStart.lenRound m arg) fuel len = .ret (.error .intOverflow) := by
  induction fuel generalizing len with
  | zero => omega
  | succ fuel ih =>
    have hround := h.lenRound_of_lt (show len < s.length by omega)
    by_cases hfits : Fits (len + 1)
    · rw [if_neg (not_not_intro hfits)] at hround
      rw [Prog.loop_of_inl hround]
      exact ih ((fits_succ_iff len).mp hfits) (by omega)
    · rw [if_pos hfits] at hround
      exact Prog.loop_of_inr hround fuel

theorem lenLoop_overflow (h : HoldsString m arg s) (hlong : INT_MAX < s.length)
    (hfuel : s.length < fuel) : lenLoop m fuel arg = .ret (.error .intOverflow) := by
  rw [lenLoop, if_neg h.nonnull]
  exact loop_overflow h hlong (by decide) (by omega)

theorem twp_printArg (h : HoldsString m arg s) (hfuel : s.length < fuel) (t : StartTranscript) :
    (printArg m fuel arg).twp (fun r u =>
      r = .ok () ∧ (s.length : ℤ) ≤ INT_MAX ∧ written u = written t ++ (s ++ newline) ∨
        r = .error .intOverflow ∧ INT_MAX < s.length ∧ u = t) t := by
  by_cases hle : (s.length : ℤ) ≤ INT_MAX
  · rw [printArg, h.lenLoop_eq hle hfuel, Prog.bind_eq, Prog.ret_bind]
    dsimp only
    rw [h.map_bytesAt]
    intro x y
    refine Or.inl ⟨rfl, hle, ?_⟩
    rw [List.append_assoc, SmallStart.written_append]
    rfl
  · rw [printArg, lenLoop_overflow h (Int.not_le.mp hle) hfuel]
    exact Or.inr ⟨rfl, Int.not_le.mp hle, rfl⟩

/-- The arguments that are looked at. -/
def shownArgs (argc : ℤ) (args : List (List Byte)) : List (List Byte) :=
  args.take (min 10 argc.toNat)

theorem narrow_le (n : ℕ) : narrow n ≤ n := by
  rw [narrow]
  omega

theorem length_shownArgs_le (argc : ℤ) (args : List (List Byte)) :
    (shownArgs argc args).length ≤ 10 := by
  rw [shownArgs, List.length_take]
  omega

theorem shownArgs_take_of_lt (hle : argc ≤ args.length) (hargc : argc > i) (hi : i < 10) :
    ∃ s, args[i]? = some s ∧
      (shownArgs argc args).take (i + 1) = (shownArgs argc args).take i ++ [s] := by
  have hlt : i < args.length := by omega
  obtain ⟨s, hs⟩ : ∃ s, args[i]? = some s := ⟨_, List.getElem?_eq_getElem hlt⟩
  have hshown : (shownArgs argc args)[i]? = some s := by
    rw [shownArgs, List.getElem?_take_of_lt (by omega), hs]
  refine ⟨s, hs, ?_⟩
  rw [List.take_add_one, hshown]
  rfl

theorem shownArgs_take_of_le {j : ℕ} (hargc : ¬ argc > i) (hij : i ≤ j) :
    (shownArgs argc args).take j = shownArgs argc args := by
  apply List.take_of_length_le
  rw [shownArgs, List.length_take]
  omega

/-- The arguments one after the other, up to one whose length is no value of type `int`. -/
def PrintsArgs (shown : List (List Byte)) (r : Except Fault ℤ) (t : StartTranscript) : Prop :=
  r = .ok 1 ∧ (∀ s ∈ shown, (s.length : ℤ) ≤ INT_MAX) ∧ written t = lines shown ∨
    r = .error .intOverflow ∧ ∃ before s after, shown = before ++ s :: after ∧
      (∀ s ∈ before, (s.length : ℤ) ≤ INT_MAX) ∧ INT_MAX < s.length ∧ written t = lines before

/-- The first `i` arguments are printed. -/
structure Printed (shown : List (List Byte)) (i : ℕ) (t : StartTranscript) : Prop where
  lt : i < 10
  short : ∀ s ∈ shown.take i, (s.length : ℤ) ≤ INT_MAX
  out : written t = lines (shown.take i)

/-- What a round leaves behind. -/
def RoundEnds (shown : List (List Byte)) (i : ℕ) (r : ℕ ⊕ Except Fault Unit)
    (t : StartTranscript) : Prop := match r with
  | .inl j => Printed shown j t ∧ 9 - j < 9 - i
  | .inr r => PrintsArgs shown (r.map fun _ => 1) t

theorem roundEnds_succ {t : StartTranscript} (hi : i < 10)
    (hshort : ∀ s ∈ (shownArgs argc args).take (i + 1), (s.length : ℤ) ≤ INT_MAX)
    (hout : written t = lines ((shownArgs argc args).take (i + 1))) :
    RoundEnds (shownArgs argc args) i (if i + 1 < 10 then .inl (i + 1) else .inr (.ok ())) t := by
  by_cases hnext : i + 1 < 10
  · rw [if_pos hnext]
    exact ⟨⟨hnext, hshort, hout⟩, by omega⟩
  · rw [if_neg hnext]
    have hlength := length_shownArgs_le argc args
    rw [List.take_of_length_le (by omega)] at hshort hout
    exact Or.inl ⟨rfl, hshort, hout⟩

theorem twp_argRound {argv : Word} (h : HoldsVector m argv args)
    (hfuel : ∀ s ∈ args, s.length < fuel) (hle : argc ≤ args.length) {t : StartTranscript}
    (hprinted : Printed (shownArgs argc args) i t) :
    (argRound m fuel argc argv i).twp (RoundEnds (shownArgs argc args) i) t := by
  obtain ⟨hi, hbefore, hout⟩ := hprinted
  by_cases hargc : argc > i
  · obtain ⟨s, hget, htake⟩ := shownArgs_take_of_lt hle hargc hi
    have hshort := hfuel s (List.mem_of_getElem? hget)
    rw [argRound, if_pos hargc, Prog.bind_eq, Prog.twp_bind]
    refine Prog.twp_mono (twp_printArg (h.entries i s hget) hshort t) ?_
    rintro r u (⟨rfl, hlen, hu⟩ | ⟨rfl, hlong, rfl⟩)
    · refine roundEnds_succ hi ?_ ?_
      · intro s' hs'
        rw [htake] at hs'
        rcases List.mem_append.mp hs' with hs' | hs'
        · exact hbefore s' hs'
        · obtain rfl := List.mem_singleton.mp hs'
          exact hlen
      · rw [hu, htake, SmallStart.lines_append, hout]
        simp [lines]
    · refine Or.inr ⟨rfl, (shownArgs argc args).take i, s, (shownArgs argc args).drop (i + 1), ?_,
        hbefore, hlong, hout⟩
      rw [← List.singleton_append, ← List.append_assoc, ← htake, List.take_append_drop]
  · have hsucc : (shownArgs argc args).take (i + 1) = (shownArgs argc args).take i := by
      rw [shownArgs_take_of_le hargc (Nat.le_succ i), shownArgs_take_of_le hargc (Nat.le_refl i)]
    rw [argRound, if_neg hargc]
    rw [← hsucc] at hbefore hout
    exact roundEnds_succ hi hbefore hout

/-- Every run of the demo among the tests ends, whatever the kernel answers and however many
arguments there are: with the exit code 1 and the first ten of them printed, or behind the last one
in front of an argument whose length is no value of type `int`. No null entry is looked at. -/
theorem testPrepMain_prints (h : InitialStack m sp args envs) (hfuel : 10 ≤ fuel)
    (hshort : ∀ s ∈ args, s.length < fuel) :
    (testPrepMain m fuel sp).twp (PrintsArgs (shownArgs (narrow args.length) args)) [] := by
  have hle := narrow_le args.length
  rw [testPrepMain, argc_eq h]
  generalize narrow args.length = argc at *
  rw [testCMain, Prog.bind_eq, Prog.twp_bind]
  refine Prog.twp_mono (Q := fun r => PrintsArgs (shownArgs argc args) (r.map fun _ => 1)) ?_ ?_
  · refine Prog.twp_loop (Printed (shownArgs argc args)) (fun i => 9 - i) ?_ ⟨by omega, ?_, rfl⟩
      (by omega)
    · intro i t hprinted
      refine Prog.twp_mono (twp_argRound h.argv hshort hle hprinted) ?_
      rintro (j | r) u hu
      · exact hu
      · exact hu
    · intro s hs
      cases hs
  · rintro (fault | ⟨⟩) u hu
    · exact hu
    · exact hu

end TenArguments

/-- One argument and no environment. -/
theorem testPrepMain_prints_noEnvironment : ∃ t,
    (testPrepMain (SmallStart.demoMemory 0) 10 0x1000).run (fun _ => (0 : Word)) =
        (some (.ok 1), t) ∧ written t = lines [[0x61]] := by
  have hstack : InitialStack (SmallStart.demoMemory 0) 0x1000 [[0x61]] [] :=
    SmallStart.demoMemory_initialStack (SmallStart.holdsVector_nil rfl)
  obtain ⟨r, t, hrun, hprints⟩ :=
    Prog.exists_run (testPrepMain_prints hstack (Nat.le_refl 10) (by decide)) fun _ => (0 : Word)
  rcases hprints with ⟨rfl, -, hout⟩ | ⟨-, before, s, after, hshown, -, hlong, -⟩
  · exact ⟨t, hrun, hout⟩
  · have hmem : s ∈ shownArgs (narrow 1) [[0x61]] := by
      rw [show shownArgs (narrow 1) [[0x61]] = before ++ s :: after from hshown]
      exact List.mem_append_right before List.mem_cons_self
    obtain rfl := List.mem_singleton.mp (List.mem_of_mem_take hmem)
    exact absurd hlong (by decide)

end VariousStuff.StartDemos
