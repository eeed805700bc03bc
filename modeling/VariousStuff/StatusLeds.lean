import VariousStuff.CStrings
import VariousStuff.InteractivePrograms
import Mathlib.Data.Int.Basic
import Mathlib.Tactic.IntervalCases

/-! # Scripts for the three status LEDs

A script writes brightnesses to the files of the LEDs and sleeps in between, without end. What
can be seen is what the files were last told. -/
namespace VariousStuff.StatusLeds
open Interactive CStrings

inductive Led where
  | red
  | green
  | blue
  deriving DecidableEq

/-- The brightness files of one driver. -/
abbrev Paths := Led → Text

inductive LedCall where
  /-- `echo $value > $path`. -/
  | echo (value : ℤ) (path : Text)
  | sleep (tenths : ℤ)
  /-- `read -r` from a file that holds a number of bytes. -/
  | readBytes (path : Text)

/-- What becomes of `read -r`. -/
inductive Reading where
  /-- The file cannot be opened, and `read` does not run. -/
  | notOpened
  /-- Nothing can be read from the open file. -/
  | nothing
  | bytes (n : BitVec 64)

abbrev LedCall.Answer : LedCall → Type
  | .readBytes _ => Reading
  | .echo _ _ | .sleep _ => Unit

abbrev LedProg := Prog LedCall.Answer
abbrev LedTranscript := Transcript LedCall.Answer

def echo (value : ℤ) (path : Text) : LedProg Unit := Prog.ask (LedCall.echo value path)

def sleep (tenths : ℤ) : LedProg Unit := Prog.ask (LedCall.sleep tenths)

def readBytes (path : Text) : LedProg Reading := Prog.ask (LedCall.readBytes path)

/-- `pca963x:red` and so on. -/
def pca963x : Paths
  | .red => "/sys/class/leds/pca963x:red/brightness".toList
  | .green => "/sys/class/leds/pca963x:green/brightness".toList
  | .blue => "/sys/class/leds/pca963x:blue/brightness".toList

/-- The names of the updated driver. -/
def status : Paths
  | .red => "/sys/class/leds/red:status/brightness".toList
  | .green => "/sys/class/leds/green:status/brightness".toList
  | .blue => "/sys/class/leds/blue:status/brightness".toList

/-! ## What the files were told -/

def tell (brightness : Text → ℤ) : (Σ op, LedCall.Answer op) → Text → ℤ
  | ⟨.echo value path, _⟩ => Function.update brightness path value
  | _ => brightness

/-- The last brightness written to each file. -/
def shown (t : LedTranscript) : Text → ℤ := t.foldl tell fun _ => 0

theorem shown_echo (t : LedTranscript) (value : ℤ) (path : Text) (x : Unit) :
    shown (t ++ [⟨.echo value path, x⟩]) = Function.update (shown t) path value := by
  rw [shown, List.foldl_append]
  rfl

theorem shown_sleep (t : LedTranscript) (tenths : ℤ) (x : Unit) :
    shown (t ++ [⟨.sleep tenths, x⟩]) = shown t := by
  rw [shown, List.foldl_append]
  rfl

theorem shown_readBytes (t : LedTranscript) (path : Text) (x : Reading) :
    shown (t ++ [⟨.readBytes path, x⟩]) = shown t := by
  rw [shown, List.foldl_append]
  rfl

theorem shown_all {paths : Paths} (hpaths : Function.Injective paths) (t : LedTranscript)
    (value : Led → ℤ) (x y z : Unit) (led : Led) :
    shown (t ++ [⟨.echo (value .red) (paths .red), x⟩] ++ [⟨.echo (value .green) (paths .green), y⟩] ++
      [⟨.echo (value .blue) (paths .blue), z⟩]) (paths led) = value led := by
  have hred : paths .red ≠ paths .green := hpaths.ne (by decide)
  have hred' : paths .red ≠ paths .blue := hpaths.ne (by decide)
  have hgreen : paths .green ≠ paths .blue := hpaths.ne (by decide)
  rw [shown_echo, shown_echo, shown_echo]
  cases led with
  | red => simp [hred, hred']
  | green => simp [hgreen]
  | blue => simp

/-- Only `led` is lit, with the given brightness. -/
def Lit (paths : Paths) (led : Led) (value : ℤ) (t : LedTranscript) : Prop :=
  ∀ led', shown t (paths led') = if led' = led then value else 0

section Lit
variable {paths : Paths} {led : Led} {value : ℤ} {t : LedTranscript}

theorem Lit.echo (hpaths : Function.Injective paths) (h : Lit paths led value t) (value' : ℤ)
    (x : Unit) : Lit paths led value' (t ++ [⟨.echo value' (paths led), x⟩]) := by
  intro led'
  rw [shown_echo]
  by_cases hled : led' = led
  · rw [hled, if_pos rfl, Function.update_self]
  · have hother := h led'
    rw [if_neg hled] at hother ⊢
    rw [Function.update_of_ne (hpaths.ne hled), hother]

theorem Lit.sleep (h : Lit paths led value t) (tenths : ℤ) (x : Unit) :
    Lit paths led value (t ++ [⟨.sleep tenths, x⟩]) := by
  intro led'
  rw [shown_sleep]
  exact h led'

end Lit

/-! ## Fading one LED after the other -/

def reset (paths : Paths) : LedProg Unit := do
  echo 0 (paths .red)
  echo 0 (paths .green)
  echo 0 (paths .blue)

/-- `while [ $a -lt 255 ]`. -/
def brighten (path : Text) (a : ℤ) : LedProg (ℤ ⊕ ℤ) :=
  if a < 255 then do
    let a := a <<< (1 : ℕ)
    let x := a - 1
    echo x path
    sleep 1
    return .inl a
  else return .inr a

/-- `while [ $a -gt 2 ]`. -/
def dim (path : Text) (a : ℤ) : LedProg (ℤ ⊕ ℤ) :=
  if 2 < a then do
    let a := a >>> (1 : ℕ)
    let x := a - 1
    echo x path
    sleep 1
    return .inl a
  else return .inr a

/-- One round of `while true`, with the variables `i` and `led`. -/
def fadeRound (paths : Paths) (fuel : ℕ) (s : ℤ × Text) : LedProg ((ℤ × Text) ⊕ Empty) := do
  let (i, led) := s
  reset paths
  let led := if i = 1 then paths .red else led
  let led := if i = 2 then paths .green else led
  let led := if i = 3 then paths .blue else led
  let _ ← Prog.loop (brighten led) fuel 1
  let _ ← Prog.loop (dim led) fuel 256
  let i := i + 1
  let i := if i = 4 then 1 else i
  return .inl (i, led)

/-- The whole script; `glow-fade.sh` and `led.sh` differ in the paths. -/
def fade (paths : Paths) (fuel : ℕ) : LedProg Empty := do
  echo 255 (paths .red)
  echo 255 (paths .green)
  echo 255 (paths .blue)
  sleep 10
  Prog.loop (fadeRound paths fuel) fuel (1, paths .red)

def glowFade : ℕ → LedProg Empty := fade pca963x

def led : ℕ → LedProg Empty := fade status

/-! ## Where a fade is -/

/-- How often the script has slept for a tenth of a second. -/
def ticks (t : LedTranscript) : ℕ :=
  t.countP fun
    | ⟨.sleep tenths, _⟩ => tenths = 1
    | _ => false

theorem ticks_echo (t : LedTranscript) (value : ℤ) (path : Text) (x : Unit) :
    ticks (t ++ [⟨.echo value path, x⟩]) = ticks t := by
  rw [ticks, List.countP_append]
  rfl

theorem ticks_tick (t : LedTranscript) (x : Unit) :
    ticks (t ++ [⟨.sleep 1, x⟩]) = ticks t + 1 := by
  rw [ticks, List.countP_append]
  rfl

/-- The LED of the `n`th fade. -/
def colour (n : ℕ) : Led :=
  if n % 3 = 0 then .red else if n % 3 = 1 then .green else .blue

/-- The brightness at the `k`th of the fifteen ticks of a fade. -/
def wave (k : ℕ) : ℤ := if k < 8 then 2 ^ (k + 1) - 1 else 2 ^ (15 - k) - 1

theorem wave_of_lt {k : ℕ} (hk : k < 8) : wave k = 2 ^ (k + 1) - 1 := if_pos hk

theorem wave_of_ge {k : ℕ} (hk : 8 ≤ k) : wave k = 2 ^ (15 - k) - 1 := if_neg (by omega)

/-- The LEDs have all been lit for a second. -/
def WarmedUp (t : LedTranscript) : Prop := ⟨.sleep 10, ()⟩ ∈ t

/-- A tick shows one LED, at the point of its fade that the number of ticks tells. Once the LEDs
have been lit together, one of them is lit only when the others are dark. -/
def fadeContract (paths : Paths) : Prog.Contract LedCall.Answer where
  allowed t op := match op with
    | .sleep tenths =>
      tenths = 10 ∨ tenths = 1 ∧ Lit paths (colour (ticks t / 15)) (wave (ticks t % 15)) t
    | .echo value path => 0 ≤ value ∧ value ≤ 255 ∧
      (WarmedUp t → value = 0 ∨ ∀ led, paths led ≠ path → shown t (paths led) = 0)
    | .readBytes _ => False
  honest _ _ := True

section Fade
variable {paths : Paths} {n : ℕ} {t : LedTranscript}

theorem echo_allowed {led : Led} {value value' : ℤ} (h : Lit paths led value t) (hzero : 0 ≤ value')
    (hmax : value' ≤ 255) : (fadeContract paths).allowed t (.echo value' (paths led)) := by
  refine ⟨hzero, hmax, fun _ => .inr ?_⟩
  intro led' hne
  have hother := h led'
  rwa [if_neg fun hled => hne (congrArg paths hled)] at hother

theorem tick_allowed {k : ℕ} (hk : k < 15) (hticks : ticks t = 15 * n + k)
    (h : Lit paths (colour n) (wave k) t) : (fadeContract paths).allowed t (.sleep 1) := by
  have hturn : ticks t / 15 = n := by omega
  have hpoint : ticks t % 15 = k := by omega
  refine .inr ⟨rfl, ?_⟩
  rw [hturn, hpoint]
  exact h

/-- After `k` of its eight rounds the rise shows `2 ^ k - 1`. -/
structure Rising (paths : Paths) (n k : ℕ) (a : ℤ) (t : LedTranscript) : Prop where
  le : k ≤ 8
  a_eq : a = 2 ^ k
  lit : Lit paths (colour n) (2 ^ k - 1) t
  ticks_eq : ticks t = 15 * n + k

theorem two_pow_bounds {k : ℕ} (hk : k ≤ 8) : (1 : ℤ) ≤ 2 ^ k ∧ (2 : ℤ) ^ k ≤ 256 := by
  interval_cases k <;> decide

theorem two_pow_lt_255_iff {k : ℕ} (hk : k ≤ 8) : (2 : ℤ) ^ k < 255 ↔ k < 8 := by
  interval_cases k <;> decide

theorem two_lt_two_pow_iff {k : ℕ} (hk : k ≤ 8) : (2 : ℤ) < 2 ^ k ↔ 1 < k := by
  interval_cases k <;> decide

theorem brighten_wp (hpaths : Function.Injective paths) {a : ℤ} {k : ℕ}
    (h : Rising paths n k a t) :
    (brighten (paths (colour n)) a).wp (fadeContract paths) (fun r u => match r with
      | .inl a' => ∃ k, Rising paths n k a' u
      | .inr a' => Rising paths n 8 a' u) t := by
  obtain ⟨hle, ha, hlit, hticks⟩ := h
  have hguard : a < 255 ↔ k < 8 := by rw [ha, two_pow_lt_255_iff hle]
  rw [brighten]
  by_cases hk : k < 8
  · have hbounds := two_pow_bounds (k := k + 1) (by omega)
    have hdouble : a <<< (1 : ℕ) = 2 ^ (k + 1) := by
      rw [ha, Int.shiftLeft_eq, pow_add]
    rw [if_pos (hguard.mpr hk), hdouble]
    refine ⟨echo_allowed hlit (by omega) (by omega), fun x _ => ?_⟩
    have hnext := hlit.echo hpaths (2 ^ (k + 1) - 1) x
    refine ⟨tick_allowed (n := n) (k := k) (by omega) (by rw [ticks_echo, hticks]) ?_, fun y _ => ?_⟩
    · rw [wave_of_lt hk]
      exact hnext
    · exact ⟨k + 1, hk, rfl, hnext.sleep 1 y, by rw [ticks_tick, ticks_echo, hticks, Nat.add_assoc]⟩
  · obtain rfl : k = 8 := by omega
    rw [if_neg (hguard.not.mpr hk)]
    exact ⟨hle, ha, hlit, hticks⟩

/-- After `k` of its seven rounds the fall shows `2 ^ (8 - k) - 1`. -/
structure Falling (paths : Paths) (n k : ℕ) (a : ℤ) (t : LedTranscript) : Prop where
  le : k ≤ 7
  a_eq : a = 2 ^ (8 - k)
  lit : Lit paths (colour n) (2 ^ (8 - k) - 1) t
  ticks_eq : ticks t = 15 * n + 8 + k

theorem dim_wp (hpaths : Function.Injective paths) {a : ℤ} {k : ℕ} (h : Falling paths n k a t) :
    (dim (paths (colour n)) a).wp (fadeContract paths) (fun r u => match r with
      | .inl a' => ∃ k, Falling paths n k a' u
      | .inr a' => Falling paths n 7 a' u) t := by
  obtain ⟨hle, rfl, hlit, hticks⟩ := h
  have height : 8 - k ≤ 8 := Nat.sub_le 8 k
  rw [dim]
  by_cases hk : k < 7
  · have hbounds := two_pow_bounds (k := 8 - (k + 1)) (by omega)
    have hhalf : ((2 : ℤ) ^ (8 - k)) >>> (1 : ℕ) = 2 ^ (8 - (k + 1)) := by
      have hsucc : 8 - k = 8 - (k + 1) + 1 := by omega
      rw [hsucc, pow_succ, Int.shiftRight_eq_div_pow]
      exact Int.mul_ediv_cancel _ (by decide)
    rw [if_pos ((two_lt_two_pow_iff height).mpr (by omega)), hhalf]
    refine ⟨echo_allowed hlit (by omega) (by omega), fun x _ => ?_⟩
    have hnext := hlit.echo hpaths (2 ^ (8 - (k + 1)) - 1) x
    refine ⟨tick_allowed (n := n) (k := 8 + k) (by omega)
      (by rw [ticks_echo, hticks, Nat.add_assoc]) ?_, fun y _ => ?_⟩
    · have hpoint : 15 - (8 + k) = 8 - (k + 1) := by omega
      rw [wave_of_ge (by omega), hpoint]
      exact hnext
    · exact ⟨k + 1, hk, rfl, hnext.sleep 1 y, by rw [ticks_tick, ticks_echo, hticks, Nat.add_assoc]⟩
  · obtain rfl : k = 7 := by omega
    rw [if_neg (by decide)]
    exact ⟨hle, rfl, hlit, hticks⟩

theorem zero_allowed (path : Text) : (fadeContract paths).allowed t (.echo 0 path) :=
  ⟨by omega, by omega, fun _ => .inl rfl⟩

/-- All LEDs are dark behind `n` fades. -/
theorem reset_wp (hpaths : Function.Injective paths) (h : ticks t = 15 * n) :
    (reset paths).wp (fadeContract paths) (fun _ u => Rising paths n 0 1 u) t := by
  refine ⟨zero_allowed _, fun _ _ => ⟨zero_allowed _, fun _ _ => ⟨zero_allowed _, fun _ _ => ?_⟩⟩⟩
  refine ⟨Nat.zero_le 8, rfl, ?_, by rw [ticks_echo, ticks_echo, ticks_echo, h, Nat.add_zero]⟩
  intro led
  rw [shown_all hpaths t fun _ => 0]
  simp

theorem turn_wp (hpaths : Function.Injective paths) (fuel : ℕ) (h : Rising paths n 0 1 t) :
    (Prog.loop (brighten (paths (colour n))) fuel 1).wp (fadeContract paths) (fun _ u =>
      (Prog.loop (dim (paths (colour n))) fuel 256).wp (fadeContract paths)
        (fun _ v => ticks v = 15 * (n + 1)) u) t := by
  refine Prog.wp_loop (fun a u => ∃ k, Rising paths n k a u) ?_ fuel ⟨0, h⟩
  rintro a u ⟨k, hrising⟩
  refine Prog.wp_mono (brighten_wp hpaths hrising) ?_
  rintro (a' | a') v hv
  · exact hv
  · have hfalling : Falling paths n 0 256 v := ⟨Nat.zero_le 7, rfl, hv.lit, hv.ticks_eq⟩
    refine Prog.wp_loop (fun a u => ∃ k, Falling paths n k a u) ?_ fuel ⟨0, hfalling⟩
    rintro b w ⟨k', hfalls⟩
    refine Prog.wp_mono (dim_wp hpaths hfalls) ?_
    rintro (b' | b') x hx
    · exact hx
    · rw [hx.ticks_eq, Nat.mul_add]

theorem led_eq_colour {led : Text} {i : ℤ} (hi : i = (n % 3 : ℕ) + 1) :
    (if i = 3 then paths .blue else if i = 2 then paths .green else if i = 1 then paths .red
      else led) = paths (colour n) := by
  have hlt := Nat.mod_lt n (show 0 < 3 by omega)
  obtain hn | hn | hn : n % 3 = 0 ∨ n % 3 = 1 ∨ n % 3 = 2 := by omega
  · rw [hi, colour, hn]
    rfl
  · rw [hi, colour, hn]
    rfl
  · rw [hi, colour, hn]
    rfl

/-- The variable `i` behind the `n`th fade. -/
theorem next_turn {i : ℤ} (hi : i = (n % 3 : ℕ) + 1) :
    (if i + 1 = 4 then 1 else i + 1) = ((n + 1) % 3 : ℕ) + 1 := by
  split_ifs
  · omega
  · omega

theorem fadeRound_wp (hpaths : Function.Injective paths) (fuel : ℕ) {i : ℤ} (led : Text)
    (hi : i = (n % 3 : ℕ) + 1) (h : ticks t = 15 * n) :
    (fadeRound paths fuel (i, led)).wp (fadeContract paths) (fun r u => match r with
      | .inl s' => ∃ n : ℕ, s'.1 = (n % 3 : ℕ) + 1 ∧ ticks u = 15 * n
      | .inr _ => True) t := by
  rw [fadeRound]
  change Prog.wp _ _ ((reset paths).bind _) _
  rw [Prog.wp_bind]
  refine Prog.wp_mono (reset_wp hpaths h) ?_
  intro _ u hu
  dsimp only
  rw [led_eq_colour hi, Prog.bind_eq, Prog.wp_bind]
  refine Prog.wp_mono (turn_wp hpaths fuel hu) ?_
  intro _ v hv
  rw [Prog.bind_eq, Prog.wp_bind]
  refine Prog.wp_mono hv ?_
  intro _ w hw
  exact ⟨n + 1, next_turn hi, hw⟩

theorem fade_wp (hpaths : Function.Injective paths) (fuel : ℕ) :
    (fade paths fuel).wp (fadeContract paths) (fun _ _ => True) [] := by
  have hbright : ∀ (t : LedTranscript) path, ¬WarmedUp t →
      (fadeContract paths).allowed t (.echo 255 path) := fun t path ht =>
    ⟨by omega, by omega, fun hwarm => absurd hwarm ht⟩
  rw [fade]
  refine ⟨hbright _ _ (by simp [WarmedUp]), fun _ _ => ⟨hbright _ _ (by simp [WarmedUp]), fun _ _ =>
    ⟨hbright _ _ (by simp [WarmedUp]), fun _ _ => ⟨.inl rfl, fun _ _ => ?_⟩⟩⟩⟩
  refine Prog.wp_loop (fun (s : ℤ × Text) u => ∃ n : ℕ, s.1 = (n % 3 : ℕ) + 1 ∧ ticks u = 15 * n) ?_ fuel
    ⟨0, rfl, rfl⟩
  rintro ⟨i, led⟩ u ⟨n, hi, hticks⟩
  refine Prog.wp_mono (fadeRound_wp hpaths fuel led hi hticks) ?_
  rintro (s' | a) v hv
  · exact hv
  · trivial

end Fade

theorem pca963x_injective : Function.Injective pca963x := by
  intro led led' h
  cases led <;> cases led' <;> first | rfl | exact absurd h (by decide)

theorem status_injective : Function.Injective status := by
  intro led led' h
  cases led <;> cases led' <;> first | rfl | exact absurd h (by decide)

/-- Both fading scripts, at every point of every run: a tick shows the LED and the brightness that
its number tells and nothing else, every brightness is from 0 to 255, and once the LEDs have been
lit together, one of them is lit only when the others are dark. -/
theorem fades_light_one {script : ℕ → LedProg Empty} {paths : Paths}
    (hscript : script = glowFade ∧ paths = pca963x ∨ script = led ∧ paths = status) {fuel : ℕ}
    {t u : LedTranscript} {op : LedCall} {x : op.Answer} {p : LedProg Empty}
    (h : (script fuel).Runs (t ++ ⟨op, x⟩ :: u) p) :
    (op = .sleep 1 → ∀ led, shown t (paths led) =
        if led = colour (ticks t / 15) then wave (ticks t % 15) else 0) ∧
      ∀ value path, op = .echo value path → 0 ≤ value ∧ value ≤ 255 ∧
        (WarmedUp t → value = 0 ∨ ∀ led, paths led ≠ path → shown t (paths led) = 0) := by
  have hallowed : (fadeContract paths).allowed t op := by
    obtain ⟨rfl, rfl⟩ | ⟨rfl, rfl⟩ := hscript
    · exact Prog.allowed_of_runs (fade_wp pca963x_injective fuel) h fun _ _ => trivial
    · exact Prog.allowed_of_runs (fade_wp status_injective fuel) h fun _ _ => trivial
  constructor
  · rintro rfl
    obtain hlong | ⟨_, hlit⟩ := hallowed
    · exact absurd hlong (by decide)
    · exact hlit
  · rintro value path rfl
    exact hallowed

theorem exists_runs_fade (paths : Paths) : ∃ p, (fade paths 1).Runs ([⟨.echo 255 (paths .red), ()⟩,
    ⟨.echo 255 (paths .green), ()⟩, ⟨.echo 255 (paths .blue), ()⟩, ⟨.sleep 10, ()⟩,
    ⟨.echo 0 (paths .red), ()⟩, ⟨.echo 0 (paths .green), ()⟩, ⟨.echo 0 (paths .blue), ()⟩,
    ⟨.echo 1 (paths .red), ()⟩] ++ [⟨.sleep 1, ()⟩]) p := by
  constructor
  iterate 9 apply Prog.Runs.call
  exact .refl _

theorem fades_light_one_glowFade : ∃ t p,
    (glowFade 1).Runs (t ++ [⟨.sleep 1, ()⟩]) p ∧ ∀ led, shown t (pca963x led) =
      if led = colour (ticks t / 15) then wave (ticks t % 15) else 0 := by
  obtain ⟨p, h⟩ := exists_runs_fade pca963x
  exact ⟨_, p, h, (fades_light_one (.inl ⟨rfl, rfl⟩) h).1 rfl⟩

/-! ## Cycling through the colours -/

/-- The variables of the script behind the paths. -/
structure Cycle where
  a : ℤ
  b : ℤ
  c : ℤ
  x : ℤ
  y : ℤ
  z : ℤ
  deriving DecidableEq

/-- `brightness=$((v-1))`, and not below zero. -/
def brightness (v : ℤ) : ℤ := if v - 1 < 0 then 0 else v - 1

/-- `v` doubled or halved, as `direction` says. -/
def moved (v direction : ℤ) : ℤ :=
  let v := if direction = 1 then v * 2 else v
  if direction = 0 then v.tdiv 2 else v

def Cycle.start : Cycle := ⟨1, 0, 0, 1, 1, 1⟩

/-- One round of `while true`: each colour starts the next one when it turns. -/
def cycleRound (paths : Paths) (s : Cycle) : LedProg (Cycle ⊕ Empty) := do
  sleep 1
  let a := if s.a < 0 then 1 else s.a
  let b := if s.b < 0 then 1 else s.b
  let c := if s.c < 0 then 1 else s.c
  echo (brightness a) (paths .red)
  let a := moved a s.x
  let x := if 256 ≤ a then 0 else s.x
  let b := if 256 ≤ a then 1 else b
  let y := if 256 ≤ a then 1 else s.y
  echo (brightness b) (paths .green)
  let b := moved b y
  let y := if 256 ≤ b then 0 else y
  let c := if 256 ≤ b then 1 else c
  let z := if 256 ≤ b then 1 else s.z
  echo (brightness c) (paths .blue)
  let c := moved c z
  let z := if 256 ≤ c then 0 else z
  let a := if 256 ≤ c then 1 else a
  let x := if 256 ≤ c then 1 else x
  return .inl ⟨a, b, c, x, y, z⟩

def cycle (paths : Paths) (fuel : ℕ) : LedProg Empty := do
  echo 255 (paths .red)
  echo 255 (paths .green)
  echo 255 (paths .blue)
  sleep 10
  reset paths
  Prog.loop (cycleRound paths) fuel .start

/-! ## Where the cycle is -/

/-- What one round writes, and the variables behind it. -/
def Cycle.round (s : Cycle) : (Led → ℤ) × Cycle :=
  let a := if s.a < 0 then 1 else s.a
  let b := if s.b < 0 then 1 else s.b
  let c := if s.c < 0 then 1 else s.c
  let red := brightness a
  let a := moved a s.x
  let b := if 256 ≤ a then 1 else b
  let y := if 256 ≤ a then 1 else s.y
  let green := brightness b
  let b := moved b y
  let c := if 256 ≤ b then 1 else c
  let z := if 256 ≤ b then 1 else s.z
  let blue := brightness c
  let c := moved c z
  (fun
    | .red => red
    | .green => green
    | .blue => blue,
    { a := if 256 ≤ c then 1 else a
      b := b
      c := c
      x := if 256 ≤ c then 1 else if 256 ≤ a then 0 else s.x
      y := if 256 ≤ b then 0 else y
      z := if 256 ≤ c then 0 else z })

theorem cycleRound_eq (paths : Paths) (s : Cycle) : cycleRound paths s = (do
    sleep 1
    echo (s.round.1 .red) (paths .red)
    echo (s.round.1 .green) (paths .green)
    echo (s.round.1 .blue) (paths .blue)
    return .inl s.round.2) := rfl

/-- The variables after `n` rounds. -/
def Cycle.after (n : ℕ) : Cycle := (fun s => s.round.2)^[n] .start

theorem Cycle.after_succ (n : ℕ) : Cycle.after (n + 1) = (Cycle.after n).round.2 :=
  Function.iterate_succ_apply' _ n _

/-- From the fifteenth round on everything comes back after twenty-two rounds. -/
theorem Cycle.after_add_period (n : ℕ) : Cycle.after (15 + n + 22) = Cycle.after (15 + n) := by
  induction n with
  | zero => decide +kernel
  | succ n ih =>
    have hround : 15 + (n + 1) + 22 = 15 + n + 22 + 1 := by omega
    rw [hround, Cycle.after_succ, ih, ← Cycle.after_succ, Nat.add_assoc]

/-- A fade, and seven dark rounds. -/
def pulse (k : ℕ) : ℤ := if k < 15 then wave k else 0

/-- The tick at which a colour is lit for the first time. -/
def begins : Led → ℕ
  | .red => 2
  | .green => 9
  | .blue => 16

/-- What is shown at the tick `n`. -/
def cycleShows (n : ℕ) (led : Led) : ℤ :=
  if n < begins led then 0 else pulse ((n - begins led) % 22)

theorem round_after_of_lt {n : ℕ} (hn : n < 37) (led : Led) :
    (Cycle.after n).round.1 led = cycleShows (n + 1) led := by
  have hall : ∀ n < 37, ∀ led ∈ [Led.red, .green, .blue],
      (Cycle.after n).round.1 led = cycleShows (n + 1) led := by
    decide +kernel
  refine hall n hn led ?_
  cases led <;> simp

theorem round_after (n : ℕ) (led : Led) :
    (Cycle.after n).round.1 led = cycleShows (n + 1) led := by
  induction n using Nat.strong_induction_on with
  | h n ih =>
    by_cases hn : n < 37
    · exact round_after_of_lt hn led
    · obtain ⟨m, rfl⟩ : ∃ m, n = 15 + m + 22 := ⟨n - 37, by omega⟩
      have hbegins : begins led ≤ 16 := by cases led <;> decide
      have hperiod : (15 + m + 22 + 1 - begins led) % 22 = (15 + m + 1 - begins led) % 22 := by omega
      rw [Cycle.after_add_period, ih (15 + m) (by omega), cycleShows, cycleShows,
        if_neg (by omega), if_neg (by omega), hperiod]

theorem cycleShows_bounds (n : ℕ) (led : Led) : 0 ≤ cycleShows n led ∧ cycleShows n led ≤ 255 := by
  have hpulse : ∀ k < 22, 0 ≤ pulse k ∧ pulse k ≤ 255 := by decide
  rw [cycleShows]
  split_ifs
  · exact ⟨by omega, by omega⟩
  · exact hpulse _ (Nat.mod_lt _ (by omega))

/-- Every tick shows what its number tells, and every brightness is from 0 to 255. -/
def cycleContract (paths : Paths) : Prog.Contract LedCall.Answer where
  allowed t op := match op with
    | .sleep tenths => tenths = 10 ∨ tenths = 1 ∧ ∀ led, shown t (paths led) = cycleShows (ticks t) led
    | .echo value _ => 0 ≤ value ∧ value ≤ 255
    | .readBytes _ => False
  honest _ _ := True

/-- The loop is at the tick `n`. -/
structure Cycling (paths : Paths) (n : ℕ) (s : Cycle) (t : LedTranscript) : Prop where
  vars : s = .after n
  ticks_eq : ticks t = n
  shown_eq : ∀ led, shown t (paths led) = cycleShows n led

theorem cycleRound_wp {paths : Paths} (hpaths : Function.Injective paths) {n : ℕ} {s : Cycle}
    {t : LedTranscript} (h : Cycling paths n s t) :
    (cycleRound paths s).wp (cycleContract paths) (fun r u => match r with
      | .inl s' => ∃ n, Cycling paths n s' u
      | .inr _ => True) t := by
  obtain ⟨rfl, hticks, hshown⟩ := h
  have hbounds : ∀ led, 0 ≤ (Cycle.after n).round.1 led ∧ (Cycle.after n).round.1 led ≤ 255 := by
    intro led
    rw [round_after]
    exact cycleShows_bounds (n + 1) led
  rw [cycleRound_eq]
  refine ⟨.inr ⟨rfl, fun led => ?_⟩, fun _ _ => ⟨hbounds .red, fun _ _ => ⟨hbounds .green, fun _ _ =>
    ⟨hbounds .blue, fun _ _ => ⟨n + 1, ?_, ?_, ?_⟩⟩⟩⟩⟩
  · rw [hticks]
    exact hshown led
  · exact (Cycle.after_succ n).symm
  · rw [ticks_echo, ticks_echo, ticks_echo, ticks_tick, hticks]
  · intro led
    rw [shown_all hpaths, round_after]

theorem cycle_wp {paths : Paths} (hpaths : Function.Injective paths) (fuel : ℕ) :
    (cycle paths fuel).wp (cycleContract paths) (fun _ _ => True) [] := by
  have hbright : (0 : ℤ) ≤ 255 ∧ (255 : ℤ) ≤ 255 := ⟨by omega, by omega⟩
  have hdark : (0 : ℤ) ≤ 0 ∧ (0 : ℤ) ≤ 255 := ⟨by omega, by omega⟩
  rw [cycle]
  refine ⟨hbright, fun _ _ => ⟨hbright, fun _ _ => ⟨hbright, fun _ _ => ⟨.inl rfl, fun _ _ => ?_⟩⟩⟩⟩
  refine ⟨hdark, fun _ _ => ⟨hdark, fun _ _ => ⟨hdark, fun _ _ => ?_⟩⟩⟩
  refine Prog.wp_loop (fun s u => ∃ n, Cycling paths n s u) ?_ fuel ⟨0, rfl, rfl, fun led => ?_⟩
  · rintro s u ⟨n, h⟩
    refine Prog.wp_mono (cycleRound_wp hpaths h) ?_
    rintro (s' | a) v hv
    · exact hv
    · trivial
  · rw [shown_all hpaths _ fun _ => 0]
    cases led <;> rfl

/-- `cycle.sh`, at every point of every run: the three colours show the same pulse, a fade and seven
dark rounds, again and again; green follows red by seven ticks and blue follows green by seven.
Every brightness is from 0 to 255. -/
theorem cycle_shows_pulses {fuel : ℕ} {t u : LedTranscript} {op : LedCall} {x : op.Answer}
    {p : LedProg Empty} (h : (cycle pca963x fuel).Runs (t ++ ⟨op, x⟩ :: u) p) :
    (op = .sleep 1 → ∀ led, shown t (pca963x led) = cycleShows (ticks t) led) ∧
      ∀ value path, op = .echo value path → 0 ≤ value ∧ value ≤ 255 := by
  have hallowed := Prog.allowed_of_runs (cycle_wp pca963x_injective fuel) h fun _ _ => trivial
  constructor
  · rintro rfl
    obtain hlong | ⟨_, hshows⟩ := hallowed
    · exact absurd hlong (by decide)
    · exact hshows
  · rintro value path rfl
    exact hallowed

theorem exists_runs_cycle (paths : Paths) : ∃ p, (cycle paths 3).Runs ([⟨.echo 255 (paths .red), ()⟩,
    ⟨.echo 255 (paths .green), ()⟩, ⟨.echo 255 (paths .blue), ()⟩, ⟨.sleep 10, ()⟩,
    ⟨.echo 0 (paths .red), ()⟩, ⟨.echo 0 (paths .green), ()⟩, ⟨.echo 0 (paths .blue), ()⟩,
    ⟨.sleep 1, ()⟩, ⟨.echo 0 (paths .red), ()⟩, ⟨.echo 0 (paths .green), ()⟩,
    ⟨.echo 0 (paths .blue), ()⟩, ⟨.sleep 1, ()⟩, ⟨.echo 1 (paths .red), ()⟩,
    ⟨.echo 0 (paths .green), ()⟩, ⟨.echo 0 (paths .blue), ()⟩] ++ [⟨.sleep 1, ()⟩]) p := by
  constructor
  iterate 16 apply Prog.Runs.call
  exact .refl _

/-- The first tick with a light. -/
theorem cycle_shows_pulses_firstTick : ∃ t p, (cycle pca963x 3).Runs (t ++ [⟨.sleep 1, ()⟩]) p ∧
    shown t (pca963x .red) = 1 ∧ shown t (pca963x .green) = 0 ∧ shown t (pca963x .blue) = 0 := by
  obtain ⟨p, h⟩ := exists_runs_cycle pca963x
  have hshows := (cycle_shows_pulses h).1 rfl
  refine ⟨_, p, h, ?_, ?_, ?_⟩
  · rw [hshows]
    rfl
  · rw [hshows]
    rfl
  · rw [hshows]
    rfl

end VariousStuff.StatusLeds
