import VariousStuff.StatusLeds

/-! # The LEDs as an indicator of traffic

Red gets brighter with what the variable for the bytes received has grown by since the last
round, and green gets darker. The arithmetic of the shell has 64 bits, as the counter of the
interface has. -/
namespace VariousStuff.TrafficIndicator
open Interactive CStrings StatusLeds

/-- An arithmetic expansion keeps 64 bits. -/
def expand (n : ℤ) : ℤ := n.bmod (2 ^ 64)

/-- What is set at the top of the script. -/
structure Config where
  leds : Paths
  interface : Text
  bandwidth : ℕ
  naptime : ℕ

/-- The variables. One that is unset or empty counts as zero. -/
structure Counters where
  bytesNow : BitVec 64
  bytesPrev : BitVec 64

def Config.ceiling (cfg : Config) : ℤ := expand (cfg.naptime * cfg.bandwidth)

def Config.rxBytes (cfg : Config) : Text :=
  "/sys/class/net/".toList ++ cfg.interface ++ "/statistics/rx_bytes".toList

/-- The lines from `bytes_delta` to the second comparison. -/
def Config.level (cfg : Config) (s : Counters) : ℤ :=
  let bytesDelta := expand
    ((expand (s.bytesNow.toInt - s.bytesPrev.toInt)).tdiv (expand (1000 * cfg.ceiling)))
  let level := expand (bytesDelta * 2)
  let level := if level > 255 then 255 else level
  if level < 0 then 0 else level

/-- What the variable of a `read` counts as afterwards: it keeps its value if the file cannot be
opened, and is emptied if nothing can be read. -/
def assigned (old : BitVec 64) : Reading → BitVec 64
  | .notOpened => old
  | .nothing => 0
  | .bytes n => n

/-- One round of `while true`. -/
def trafficRound (cfg : Config) (s : Counters) : LedProg (Counters ⊕ Empty) := do
  let reading ← readBytes cfg.rxBytes
  let bytesNow := assigned s.bytesNow reading
  let level := cfg.level { s with bytesNow := bytesNow }
  echo level (cfg.leds .red)
  let antilevel := expand (255 - level)
  echo antilevel (cfg.leds .green)
  sleep (10 * cfg.naptime)
  return .inl { bytesNow := bytesNow, bytesPrev := bytesNow }

/-- The whole script; the files are first told in the order red, blue, green. -/
def trafficIndicator (cfg : Config) (fuel : ℕ) : LedProg Empty := do
  echo 0 (cfg.leds .red)
  echo 0 (cfg.leds .blue)
  echo 0 (cfg.leds .green)
  Prog.loop (trafficRound cfg) fuel ⟨0, 0⟩

/-! ## What the counter showed -/

/-- What `bytes_now` counts as behind the last reading, and behind the one before that. -/
def note (s : BitVec 64 × BitVec 64) : (Σ op, LedCall.Answer op) → BitVec 64 × BitVec 64
  | ⟨.readBytes _, reading⟩ => (assigned s.1 reading, s.1)
  | _ => s

/-- Before the first reading the variable is unset. -/
def readings (t : LedTranscript) : BitVec 64 × BitVec 64 := t.foldl note (0, 0)

/-- By how much `bytes_now` has grown in the last reading, negative if it has become less. -/
def received (t : LedTranscript) : ℤ := ((readings t).1 - (readings t).2).toInt

theorem readings_readBytes (t : LedTranscript) (path : Text) (reading : Reading) :
    readings (t ++ [⟨.readBytes path, reading⟩]) =
      (assigned (readings t).1 reading, (readings t).1) := by
  rw [readings, List.foldl_append]
  rfl

theorem readings_echo (t : LedTranscript) (value : ℤ) (path : Text) (x : Unit) :
    readings (t ++ [⟨.echo value path, x⟩]) = readings t := by
  rw [readings, List.foldl_append]
  rfl

theorem readings_sleep (t : LedTranscript) (tenths : ℤ) (x : Unit) :
    readings (t ++ [⟨.sleep tenths, x⟩]) = readings t := by
  rw [readings, List.foldl_append]
  rfl

theorem received_echo (t : LedTranscript) (value : ℤ) (path : Text) (x : Unit) :
    received (t ++ [⟨.echo value path, x⟩]) = received t := by
  rw [received, readings_echo, received]

/-! ## The level -/

theorem expand_of_bounds {n : ℤ} (hlow : -2 ^ 63 ≤ n) (hhigh : n < 2 ^ 63) : expand n = n :=
  Int.bmod_eq_of_le (by omega) (by omega)

/-- Twice the bytes received in units of a thousandth of the ceiling, from 0 to 255. -/
def levelOf (n ceiling : ℤ) : ℤ := max 0 (min 255 (2 * n.tdiv (1000 * ceiling)))

section Level
variable {n ceiling : ℤ}

theorem levelOf_bounds (n ceiling : ℤ) : 0 ≤ levelOf n ceiling ∧ levelOf n ceiling ≤ 255 := by
  rw [levelOf]
  omega

/-- Comparing a quotient that is rounded towards zero. -/
theorem le_tdiv_iff {d : ℤ} (hd : 0 < d) {k : ℤ} (hk : 0 < k) : k ≤ n.tdiv d ↔ k * d ≤ n := by
  by_cases hn : 0 ≤ n
  · rw [Int.tdiv_eq_ediv_of_nonneg hn, Int.le_ediv_iff_mul_le hd]
  · have hneg : n.tdiv d = -(-n).tdiv d := by rw [Int.neg_tdiv, Int.neg_neg]
    have hquot : 0 ≤ (-n).tdiv d := Int.tdiv_nonneg (by omega) (by omega)
    have hpos := Int.mul_pos hk hd
    constructor
    · intro h
      omega
    · intro h
      omega

/-- 250 counts as full. -/
theorem full_iff (hc : 0 < ceiling) : 250 ≤ levelOf n ceiling ↔ 125 * (1000 * ceiling) ≤ n := by
  have hd : 0 < 1000 * ceiling := by omega
  rw [← le_tdiv_iff hd (by omega), levelOf]
  omega

theorem dark_iff (hc : 0 < ceiling) : levelOf n ceiling = 0 ↔ n < 1000 * ceiling := by
  have hd : 0 < 1000 * ceiling := by omega
  have hone := le_tdiv_iff (n := n) hd (k := 1) (by omega)
  rw [levelOf]
  omega

theorem expand_level (hc : 0 < ceiling) (hfits : 1000 * ceiling < 2 ^ 63) (hlow : -2 ^ 63 ≤ n)
    (hhigh : n < 2 ^ 63) :
    expand (expand (n.tdiv (expand (1000 * expand ceiling))) * 2) = 2 * n.tdiv (1000 * ceiling) := by
  have hquot : (n.tdiv (1000 * ceiling)).natAbs ≤ n.natAbs / 1000 := by
    rw [Int.natAbs_tdiv]
    exact Nat.div_le_div_left (by omega) (by omega)
  rw [expand_of_bounds (n := ceiling) (by omega) (by omega),
    expand_of_bounds (n := 1000 * ceiling) (by omega) hfits,
    expand_of_bounds (n := n.tdiv (1000 * ceiling)) (by omega) (by omega),
    expand_of_bounds (by omega) (by omega), Int.mul_comm]

theorem clamp_eq (k : ℤ) :
    (if (if k > 255 then 255 else k) < 0 then 0 else if k > 255 then 255 else k) =
      max 0 (min 255 k) := by
  split_ifs <;> omega

end Level

/-! ## The rounds -/

section Rounds
variable {cfg : Config}

/-- The bytes are measured against this many, in thousands. -/
def Config.full (cfg : Config) : ℤ := cfg.naptime * cfg.bandwidth

/-- While the script sleeps, red shows the level of the growth, and green the rest. -/
def trafficContract (cfg : Config) : Prog.Contract LedCall.Answer where
  allowed t op := match op with
    | .sleep tenths => tenths = 10 * cfg.naptime ∧ shown t (cfg.leds .blue) = 0 ∧
      shown t (cfg.leds .red) = levelOf (received t) cfg.full ∧
      shown t (cfg.leds .green) = 255 - levelOf (received t) cfg.full
    | .echo value _ => 0 ≤ value ∧ value ≤ 255
    | .readBytes path => path = cfg.rxBytes
  honest _ _ := True

/-- Between two rounds. -/
structure Waiting (cfg : Config) (s : Counters) (t : LedTranscript) : Prop where
  now_eq : s.bytesNow = (readings t).1
  prev_eq : s.bytesPrev = (readings t).1
  blue : shown t (cfg.leds .blue) = 0

theorem level_eq (hpos : 0 < cfg.full) (hfits : 1000 * cfg.full < 2 ^ 63) (s : Counters) :
    cfg.level s = levelOf (s.bytesNow - s.bytesPrev).toInt cfg.full := by
  have hdelta : expand (s.bytesNow.toInt - s.bytesPrev.toInt) = (s.bytesNow - s.bytesPrev).toInt :=
    BitVec.toInt_sub.symm
  have hlow := BitVec.le_toInt (s.bytesNow - s.bytesPrev)
  have hhigh := BitVec.toInt_lt (x := s.bytesNow - s.bytesPrev)
  rw [Config.level, Config.ceiling, hdelta, clamp_eq, levelOf, ← expand_level hpos hfits hlow hhigh]
  rfl

theorem trafficRound_wp (hleds : Function.Injective cfg.leds) (hpos : 0 < cfg.full)
    (hfits : 1000 * cfg.full < 2 ^ 63) {s : Counters} {t : LedTranscript} (h : Waiting cfg s t) :
    (trafficRound cfg s).wp (trafficContract cfg) (fun r u => match r with
      | .inl s' => Waiting cfg s' u
      | .inr _ => True) t := by
  obtain ⟨hnow, hprev, hblue⟩ := h
  have hred : cfg.leds .red ≠ cfg.leds .green := hleds.ne (by decide)
  have hred' : cfg.leds .blue ≠ cfg.leds .red := hleds.ne (by decide)
  have hgreen : cfg.leds .blue ≠ cfg.leds .green := hleds.ne (by decide)
  refine ⟨rfl, fun reading _ => ?_⟩
  obtain ⟨u, hu⟩ : ∃ u : LedTranscript, u = t ++ [⟨.readBytes cfg.rxBytes, reading⟩] := ⟨_, rfl⟩
  have hreadings : readings u = (assigned s.bytesNow reading, s.bytesPrev) := by
    rw [hu, readings_readBytes, hnow, hprev]
  have hlevel : cfg.level { s with bytesNow := assigned s.bytesNow reading } =
      levelOf (received u) cfg.full := by
    rw [level_eq hpos hfits, received, hreadings]
  have hbounds := levelOf_bounds (received u) cfg.full
  have hexpand : expand (255 - levelOf (received u) cfg.full) =
      255 - levelOf (received u) cfg.full := expand_of_bounds (by omega) (by omega)
  change Prog.wp _ _ (echo (cfg.level { s with bytesNow := assigned s.bytesNow reading }) _ >>= fun _ =>
    echo (expand (255 - cfg.level { s with bytesNow := assigned s.bytesNow reading })) _ >>= fun _ =>
      sleep _ >>= fun _ => _) _
  rw [hlevel, hexpand, ← hu]
  refine ⟨hbounds, fun _ _ => ⟨⟨by omega, by omega⟩, fun _ _ => ⟨⟨rfl, ?_, ?_, ?_⟩, fun _ _ => ?_⟩⟩⟩
  · rw [shown_echo, shown_echo, Function.update_of_ne hgreen, Function.update_of_ne hred', hu,
      shown_readBytes, hblue]
  · rw [shown_echo, shown_echo, Function.update_of_ne hred, Function.update_self, received_echo,
      received_echo]
  · rw [shown_echo, Function.update_self, received_echo, received_echo]
  · have hlast : ∀ x y z, readings (u ++ [⟨.echo (levelOf (received u) cfg.full) (cfg.leds .red), x⟩] ++
        [⟨.echo (255 - levelOf (received u) cfg.full) (cfg.leds .green), y⟩] ++
          [⟨.sleep (10 * cfg.naptime), z⟩]) = (assigned s.bytesNow reading, s.bytesPrev) := by
      intro x y z
      rw [readings_sleep, readings_echo, readings_echo, hreadings]
    refine ⟨(congrArg Prod.fst (hlast _ _ _)).symm, (congrArg Prod.fst (hlast _ _ _)).symm, ?_⟩
    rw [shown_sleep, shown_echo, shown_echo, Function.update_of_ne hgreen,
      Function.update_of_ne hred', hu, shown_readBytes, hblue]

theorem trafficIndicator_wp (hleds : Function.Injective cfg.leds) (hpos : 0 < cfg.full)
    (hfits : 1000 * cfg.full < 2 ^ 63) (fuel : ℕ) :
    (trafficIndicator cfg fuel).wp (trafficContract cfg) (fun _ _ => True) [] := by
  have hdark : (0 : ℤ) ≤ 0 ∧ (0 : ℤ) ≤ 255 := ⟨by omega, by omega⟩
  have hgreen : cfg.leds .blue ≠ cfg.leds .green := hleds.ne (by decide)
  refine ⟨hdark, fun _ _ => ⟨hdark, fun _ _ => ⟨hdark, fun _ _ => ?_⟩⟩⟩
  refine Prog.wp_loop (Waiting cfg) ?_ fuel ⟨rfl, rfl, ?_⟩
  · intro s u h
    refine Prog.wp_mono (trafficRound_wp hleds hpos hfits h) ?_
    rintro (s' | a) v hv
    · exact hv
    · trivial
  · rw [shown_echo, shown_echo, Function.update_of_ne hgreen, Function.update_self]

/-- At every point of every run, whatever becomes of the readings: while the script sleeps, red and
green add up to 255 and blue is dark. Red is the level of what `bytes_now` has grown by in the last
reading, which in the first round is all that the counter shows. It is full if and only if that is
at least the bandwidth, and dark if and only if it is less than a hundred and twenty-fifth of it, as
it is where the counter went back. -/
theorem traffic_shown (hleds : Function.Injective cfg.leds) (hpos : 0 < cfg.full)
    (hfits : 1000 * cfg.full < 2 ^ 63) {fuel : ℕ} {t u : LedTranscript} {op : LedCall}
    {x : op.Answer} {p : LedProg Empty}
    (h : (trafficIndicator cfg fuel).Runs (t ++ ⟨op, x⟩ :: u) p) :
    (∀ tenths, op = .sleep tenths →
      tenths = 10 * cfg.naptime ∧ shown t (cfg.leds .blue) = 0 ∧
        shown t (cfg.leds .red) + shown t (cfg.leds .green) = 255 ∧
        shown t (cfg.leds .red) = levelOf (received t) cfg.full ∧
        (250 ≤ shown t (cfg.leds .red) ↔ cfg.full * 125000 ≤ received t) ∧
        (shown t (cfg.leds .red) = 0 ↔ received t < cfg.full * 1000)) ∧
      ∀ value path, op = .echo value path → 0 ≤ value ∧ value ≤ 255 := by
  have hallowed := Prog.allowed_of_runs (trafficIndicator_wp hleds hpos hfits fuel) h fun _ _ => trivial
  constructor
  · rintro tenths rfl
    obtain ⟨htenths, hblue, hred, hgreen⟩ := hallowed
    have hfull := full_iff (n := received t) hpos
    have hdark := dark_iff (n := received t) hpos
    refine ⟨htenths, hblue, ?_, hred, ?_, ?_⟩
    · rw [hred, hgreen]
      omega
    · rw [hred, hfull]
      omega
    · rw [hred, hdark]
      omega
  · rintro value path rfl
    exact hallowed

end Rounds

/-- What the script is set to, for any LEDs. -/
def fastEthernet (paths : Paths) : Config where
  leds := paths
  interface := "br-lan".toList
  bandwidth := 100
  naptime := 1

theorem exists_runs_trafficIndicator {cfg : Config} {level : ℤ} {bytes : BitVec 64}
    (hlevel : cfg.level ⟨bytes, 0⟩ = level) : ∃ p, (trafficIndicator cfg 1).Runs
      ([⟨.echo 0 (cfg.leds .red), ()⟩, ⟨.echo 0 (cfg.leds .blue), ()⟩,
        ⟨.echo 0 (cfg.leds .green), ()⟩, ⟨.readBytes cfg.rxBytes, .bytes bytes⟩,
        ⟨.echo level (cfg.leds .red), ()⟩, ⟨.echo (expand (255 - level)) (cfg.leds .green), ()⟩] ++
        [⟨.sleep (10 * cfg.naptime), ()⟩]) p := by
  subst hlevel
  constructor
  iterate 7 apply Prog.Runs.call
  exact .refl _

/-- The bandwidth is reached in the first second. -/
theorem traffic_shown_fastEthernet : ∃ t p,
    (trafficIndicator (fastEthernet pca963x) 1).Runs (t ++ [⟨.sleep 10, ()⟩]) p ∧
      250 ≤ shown t (pca963x .red) := by
  have hlevel : (fastEthernet pca963x).level ⟨12500000, 0⟩ = 250 := by decide
  obtain ⟨p, h⟩ := exists_runs_trafficIndicator hlevel
  refine ⟨_, p, h, ?_⟩
  have hpos : 0 < (fastEthernet pca963x).full := by decide
  have hfits : 1000 * (fastEthernet pca963x).full < 2 ^ 63 := by decide
  apply ((traffic_shown pca963x_injective hpos hfits h).1 10 rfl).2.2.2.2.1.mpr
  decide

end VariousStuff.TrafficIndicator
