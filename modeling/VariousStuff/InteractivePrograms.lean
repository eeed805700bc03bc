import Mathlib.Data.List.Basic
import Mathlib.Data.Nat.Notation
import Mathlib.Logic.Function.Iterate

/-!
# Interactive programs, their transcripts and a calculus of preconditions

A program returns, or makes one call and continues with whatever its environment
answers. Nothing is assumed of the answers: a transcript records one possible
sequence of calls with their answers, and a statement about all transcripts is a
statement about every environment. Loops carry fuel; a program that used it up is
`outOfFuel`, which is never a result.
-/
namespace VariousStuff.Interactive

/-- Programs over the calls `Op`, where a call `op` is answered by an `Ans op`. -/
inductive Prog {Op : Type} (Ans : Op → Type) (α : Type) where
  | ret (a : α)
  | call (op : Op) (next : Ans op → Prog Ans α)
  | outOfFuel

/-- Calls with their answers, oldest first. -/
abbrev Transcript {Op : Type} (Ans : Op → Type) := List (Σ op, Ans op)

variable {Op : Type} {Ans : Op → Type} {α β σ : Type}

namespace Prog

def bind : Prog Ans α → (α → Prog Ans β) → Prog Ans β
  | .ret a, f => f a
  | .call op next, f => .call op fun x => (next x).bind f
  | .outOfFuel, _ => .outOfFuel

instance : Monad (Prog Ans) where
  pure := .ret
  bind := bind

/-- Make one call and return its answer. -/
def ask (op : Op) : Prog Ans (Ans op) := .call op .ret

/-- Repeat `step` from `s` until it returns a result, at most `fuel` times. -/
def loop (step : σ → Prog Ans (σ ⊕ α)) : ℕ → σ → Prog Ans α
  | 0, _ => .outOfFuel
  | fuel + 1, s => (step s).bind fun
    | .inl s' => loop step fuel s'
    | .inr a => .ret a

@[simp] theorem pure_eq (a : α) : (pure a : Prog Ans α) = .ret a := rfl

@[simp] theorem bind_eq (p : Prog Ans α) (f : α → Prog Ans β) : p >>= f = p.bind f := rfl

@[simp] theorem ret_bind (a : α) (f : α → Prog Ans β) : (ret a).bind f = f a := rfl

@[simp] theorem call_bind (op : Op) (next : Ans op → Prog Ans α) (f : α → Prog Ans β) :
    (call op next).bind f = .call op fun x => (next x).bind f := rfl

@[simp] theorem outOfFuel_bind (f : α → Prog Ans β) :
    (outOfFuel : Prog Ans α).bind f = .outOfFuel := rfl

@[simp] theorem ask_bind (op : Op) (f : Ans op → Prog Ans β) :
    (ask op).bind f = .call op f := rfl

theorem loop_of_inl {step : σ → Prog Ans (σ ⊕ α)} {s s' : σ} (h : step s = .ret (.inl s'))
    (fuel : ℕ) : loop step (fuel + 1) s = loop step fuel s' := by
  rw [loop, h, ret_bind]

theorem loop_of_inr {step : σ → Prog Ans (σ ⊕ α)} {s : σ} {a : α} (h : step s = .ret (.inr a))
    (fuel : ℕ) : loop step (fuel + 1) s = .ret a := by
  rw [loop, h, ret_bind]

/-! ## Transcripts -/

/-- `p.Runs t q`: answering the first calls of `p` as recorded in `t` leaves `q`. -/
inductive Runs : Prog Ans α → Transcript Ans → Prog Ans α → Prop where
  | refl (p) : Runs p [] p
  | call {op} {next : Ans op → Prog Ans α} (x : Ans op) {t q} (rest : Runs (next x) t q) :
      Runs (.call op next) (⟨op, x⟩ :: t) q

/-- `p` returns `a` after exactly the calls and answers of `t`. -/
abbrev Returns (p : Prog Ans α) (t : Transcript Ans) (a : α) : Prop := p.Runs t (.ret a)

/-! ## Executions against an environment that answers each call the same way -/

/-- The result, if the fuel lasted, and the transcript of one execution. -/
def run (env : ∀ op, Ans op) : Prog Ans α → Option α × Transcript Ans
  | .ret a => (some a, [])
  | .call op next => (((next (env op)).run env).1, ⟨op, env op⟩ :: ((next (env op)).run env).2)
  | .outOfFuel => (none, [])

section Run
variable (env : ∀ op, Ans op)

@[simp] theorem run_ret (a : α) : (ret a : Prog Ans α).run env = (some a, []) := rfl

@[simp] theorem run_call (op : Op) (next : Ans op → Prog Ans α) :
    (call op next).run env =
      (((next (env op)).run env).1, ⟨op, env op⟩ :: ((next (env op)).run env).2) := rfl

@[simp] theorem run_outOfFuel : (outOfFuel : Prog Ans α).run env = (none, []) := rfl

theorem run_call_eq_iff (op : Op) (next : Ans op → Prog Ans α) (a : α) (t : Transcript Ans) :
    (call op next).run env = (some a, t) ↔
      ∃ u, t = ⟨op, env op⟩ :: u ∧ (next (env op)).run env = (some a, u) := by
  simp only [run_call, Prod.ext_iff]
  constructor
  · rintro ⟨ha, rfl⟩
    exact ⟨_, rfl, ha, rfl⟩
  · rintro ⟨u, rfl, ha, rfl⟩
    exact ⟨ha, rfl⟩

theorem run_bind {p : Prog Ans α} {f : α → Prog Ans β} {a : α} {t : Transcript Ans}
    (h : p.run env = (some a, t)) :
    (p.bind f).run env = (((f a).run env).1, t ++ ((f a).run env).2) := by
  induction p generalizing t with
  | ret b =>
    obtain ⟨rfl, rfl⟩ : b = a ∧ t = [] := by simpa [eq_comm] using h
    rfl
  | call op next ih =>
    obtain ⟨u, rfl, hnext⟩ := (run_call_eq_iff env op next a t).mp h
    simp [ih (env op) hnext]
  | outOfFuel => simp at h

theorem run_bind_of_none {p : Prog Ans α} {f : α → Prog Ans β} {t : Transcript Ans}
    (h : p.run env = (none, t)) : (p.bind f).run env = (none, t) := by
  induction p generalizing t with
  | ret b => simp at h
  | call op next ih =>
    obtain rfl : ⟨op, env op⟩ :: ((next (env op)).run env).2 = t := congrArg Prod.snd h
    have hnone : ((next (env op)).run env).1 = none := congrArg Prod.fst h
    simp [ih (env op) (Prod.ext hnone rfl)]
  | outOfFuel => simpa using h

theorem run_bind_eq_some {p : Prog Ans α} {f : α → Prog Ans β} {b : β} {t : Transcript Ans}
    (h : (p.bind f).run env = (some b, t)) :
    ∃ a u v, p.run env = (some a, u) ∧ (f a).run env = (some b, v) ∧ t = u ++ v := by
  cases hp : p.run env with
  | mk r u =>
    cases r with
    | none =>
      rw [run_bind_of_none env hp] at h
      cases h
    | some a =>
      rw [run_bind env hp] at h
      obtain ⟨hb, rfl⟩ := Prod.mk.inj h
      exact ⟨a, u, _, rfl, Prod.ext hb rfl, rfl⟩

theorem returns_of_run {p : Prog Ans α} {a : α} {t : Transcript Ans}
    (h : p.run env = (some a, t)) : p.Returns t a := by
  induction p generalizing t with
  | ret b =>
    obtain ⟨rfl, rfl⟩ : b = a ∧ t = [] := by simpa [eq_comm] using h
    exact .refl _
  | call op next ih =>
    obtain ⟨u, rfl, hnext⟩ := (run_call_eq_iff env op next a t).mp h
    exact .call _ (ih (env op) hnext)
  | outOfFuel => simp at h

theorem returns_of_run_fst {p : Prog Ans α} {a : α} (h : (p.run env).1 = some a) :
    p.Returns (p.run env).2 a := returns_of_run env (Prod.ext h rfl)

theorem answer_of_run {p : Prog Ans α} {e : Σ op, Ans op} (h : e ∈ (p.run env).2) :
    e.2 = env e.1 := by
  induction p with
  | ret b => simp at h
  | call op next ih =>
    rcases List.mem_cons.mp h with rfl | h
    · rfl
    · exact ih (env op) h
  | outOfFuel => simp at h

theorem run_loop_inl {step : σ → Prog Ans (σ ⊕ α)} {s s' : σ} {t : Transcript Ans}
    (h : (step s).run env = (some (.inl s'), t)) (fuel : ℕ) :
    (loop step (fuel + 1) s).run env =
      (((loop step fuel s').run env).1, t ++ ((loop step fuel s').run env).2) :=
  run_bind env h

theorem run_loop_inr {step : σ → Prog Ans (σ ⊕ α)} {s : σ} {a : α} {t : Transcript Ans}
    (h : (step s).run env = (some (.inr a), t)) (fuel : ℕ) :
    (loop step (fuel + 1) s).run env = (some a, t) := by
  simpa [loop] using run_bind env h (f := fun
    | .inl s' => loop step fuel s'
    | .inr a => .ret a)

theorem run_loop_iterate {step : σ → Prog Ans (σ ⊕ α)} {next : σ → σ} {s : σ} {n : ℕ}
    (h : ∀ i < n, ((step (next^[i] s)).run env).1 = some (.inl (next^[i + 1] s))) (fuel : ℕ) :
    (loop step (n + fuel) s).run env =
      (((loop step fuel (next^[n] s)).run env).1,
        (List.range n).flatMap (fun i => ((step (next^[i] s)).run env).2) ++
          ((loop step fuel (next^[n] s)).run env).2) := by
  induction n generalizing fuel with
  | zero => simp
  | succ n ih =>
    have hfuel : n + 1 + fuel = n + (fuel + 1) := by omega
    have hround : (step (next^[n] s)).run env =
        (some (.inl (next^[n + 1] s)), ((step (next^[n] s)).run env).2) :=
      Prod.ext (h n (Nat.lt_succ_self n)) rfl
    rw [hfuel, ih (fun i hi => h i (Nat.lt_succ_of_lt hi)), run_loop_inl env hround]
    simp [List.range_succ, List.append_assoc]

/-! ### The rounds of a loop -/

/-- Rounds that go on lead the loop from `s` to `s'` and together make the calls `t`. -/
inductive Rounds (step : σ → Prog Ans (σ ⊕ α)) (s : σ) : Transcript Ans → σ → Prop where
  | refl : Rounds step s [] s
  | tail {s' s'' t u} (h : Rounds step s t s') (hround : (step s').run env = (some (.inl s''), u)) :
      Rounds step s (t ++ u) s''

variable {env} {step : σ → Prog Ans (σ ⊕ α)}

/-- Whatever the rounds made, the loop goes on from the state they lead to. -/
theorem Rounds.run_loop {s s' : σ} {t : Transcript Ans} (h : Rounds env step s t s') :
    ∃ n, ∀ fuel, (loop step (n + fuel) s).run env =
      (((loop step fuel s').run env).1, t ++ ((loop step fuel s').run env).2) := by
  induction h with
  | refl => exact ⟨0, fun fuel => by rw [Nat.zero_add, List.nil_append]⟩
  | @tail s' s'' t u _ hround ih =>
    obtain ⟨n, hn⟩ := ih
    refine ⟨n + 1, fun fuel => ?_⟩
    rw [Nat.add_right_comm, Nat.add_assoc, hn, run_loop_inl env hround, List.append_assoc]

theorem run_loop_eq_some {fuel : ℕ} {s : σ} {a : α} {t : Transcript Ans}
    (h : (loop step (fuel + 1) s).run env = (some a, t)) :
    (∃ s' u v, (step s).run env = (some (.inl s'), u) ∧ (loop step fuel s').run env = (some a, v) ∧
        t = u ++ v) ∨
      (step s).run env = (some (.inr a), t) := by
  obtain ⟨r, u, v, hround, hrest, rfl⟩ := run_bind_eq_some env h
  cases r with
  | inl s' => exact Or.inl ⟨s', u, v, hround, hrest, rfl⟩
  | inr b =>
    obtain ⟨rfl, rfl⟩ : b = a ∧ v = [] := by simpa [eq_comm] using hrest
    rw [List.append_nil]
    exact Or.inr hround

theorem exists_rounds_of_run_loop {fuel : ℕ} {s : σ} {a : α} {t : Transcript Ans}
    (h : (loop step fuel s).run env = (some a, t)) :
    ∃ s' u v, Rounds env step s u s' ∧ (step s').run env = (some (.inr a), v) ∧ t = u ++ v := by
  suffices hsuff : ∀ s₀ u, Rounds env step s₀ u s → ∃ s' u' v, Rounds env step s₀ u' s' ∧
      (step s').run env = (some (.inr a), v) ∧ u ++ t = u' ++ v from hsuff s [] .refl
  induction fuel generalizing s t with
  | zero => cases h
  | succ fuel ih =>
    intro s₀ u hrounds
    rcases run_loop_eq_some h with ⟨s', v, w, hround, hrest, rfl⟩ | hround
    · rw [← List.append_assoc]
      exact ih hrest s₀ (u ++ v) (hrounds.tail hround)
    · exact ⟨s, u, t, hrounds, hround, rfl⟩

end Run

/-! ## Executions against an environment with a state -/

/-- The result, if the fuel lasted, and the state of the environment at the end. -/
def runState {S : Type} (env : S → ∀ op, Ans op × S) : Prog Ans α → S → Option α × S
  | .ret a, s => (some a, s)
  | .call op next, s => (next (env s op).1).runState env (env s op).2
  | .outOfFuel, s => (none, s)

section RunState
variable {S : Type} (env : S → ∀ op, Ans op × S)

@[simp] theorem runState_ret (a : α) (s : S) : (ret a : Prog Ans α).runState env s = (some a, s) :=
  rfl

@[simp] theorem runState_call (op : Op) (next : Ans op → Prog Ans α) (s : S) :
    (call op next).runState env s = (next (env s op).1).runState env (env s op).2 := rfl

theorem runState_bind {p : Prog Ans α} {f : α → Prog Ans β} {a : α} {s s' : S}
    (h : p.runState env s = (some a, s')) : (p.bind f).runState env s = (f a).runState env s' := by
  induction p generalizing s with
  | ret b =>
    obtain ⟨rfl, rfl⟩ : b = a ∧ s = s' := by simpa using h
    rfl
  | call op next ih => exact ih _ h
  | outOfFuel => simp [runState] at h

/-- A loop whose first `n` rounds go through given states, and whose next one returns. -/
theorem runState_loop {step : σ → Prog Ans (σ ⊕ α)} (f : ℕ → σ) (g : ℕ → S) {n : ℕ} {a : α} {s : S}
    (hround : ∀ j < n, (step (f j)).runState env (g j) = (some (.inl (f (j + 1))), g (j + 1)))
    (hlast : (step (f n)).runState env (g n) = (some (.inr a), s)) {fuel : ℕ} (hfuel : n < fuel) :
    (loop step fuel (f 0)).runState env (g 0) = (some a, s) := by
  induction n generalizing f g fuel with
  | zero =>
    obtain ⟨fuel, rfl⟩ : ∃ m, fuel = m + 1 := ⟨fuel - 1, by omega⟩
    rw [loop, runState_bind env hlast]
    rfl
  | succ n ih =>
    obtain ⟨fuel, rfl⟩ : ∃ m, fuel = m + 1 := ⟨fuel - 1, by omega⟩
    rw [loop, runState_bind env (hround 0 (Nat.succ_pos n))]
    exact ih (fun j => f (j + 1)) (fun j => g (j + 1))
      (fun j hj => hround (j + 1) (Nat.succ_lt_succ hj)) hlast (Nat.lt_of_succ_lt_succ hfuel)

end RunState

/-! ## The kinds of calls a program can make -/

/-- Whatever the answers, `p` makes only calls that satisfy `P`. -/
def OnlyCalls (P : Op → Prop) : Prog Ans α → Prop
  | .ret _ => True
  | .call op next => P op ∧ ∀ x, (next x).OnlyCalls P
  | .outOfFuel => True

section OnlyCalls
variable {P : Op → Prop}

theorem OnlyCalls.bind {p : Prog Ans α} {f : α → Prog Ans β} (h : p.OnlyCalls P)
    (hf : ∀ a, (f a).OnlyCalls P) : (p.bind f).OnlyCalls P := by
  induction p with
  | ret a => exact hf a
  | call op next ih => exact ⟨h.1, fun x => ih x (h.2 x)⟩
  | outOfFuel => trivial

theorem OnlyCalls.loop {step : σ → Prog Ans (σ ⊕ α)} (h : ∀ s, (step s).OnlyCalls P) (fuel : ℕ)
    (s : σ) : (loop step fuel s).OnlyCalls P := by
  induction fuel generalizing s with
  | zero => trivial
  | succ fuel ih =>
    refine (h s).bind ?_
    rintro (s' | a)
    · exact ih s'
    · trivial

theorem OnlyCalls.of_mem_run {p : Prog Ans α} (h : p.OnlyCalls P) (env : ∀ op, Ans op)
    {e : Σ op, Ans op} (he : e ∈ (p.run env).2) : P e.1 := by
  induction p with
  | ret a => simp at he
  | call op next ih =>
    rcases List.mem_cons.mp he with rfl | he
    · exact h.1
    · exact ih (env op) (h.2 _) he
  | outOfFuel => simp at he

end OnlyCalls

/-! ## Preconditions -/

/-- What a program owes its environment, given the calls made so far, and what it
may rely on in the answers. -/
structure Contract {Op : Type} (Ans : Op → Type) where
  allowed : Transcript Ans → Op → Prop
  honest : ∀ op, Ans op → Prop

/-- From the history `t`, every call of `p` is allowed as long as the answers are
honest, and every result satisfies `Q` together with the whole history. -/
def wp (C : Contract Ans) (Q : α → Transcript Ans → Prop) : Prog Ans α → Transcript Ans → Prop
  | .ret a, t => Q a t
  | .call op next, t =>
      C.allowed t op ∧ ∀ x, C.honest op x → (next x).wp C Q (t ++ [⟨op, x⟩])
  | .outOfFuel, _ => True

section Preconditions
variable {C : Contract Ans} {Q R : α → Transcript Ans → Prop}

@[simp] theorem wp_ret (a : α) (t : Transcript Ans) : (ret a).wp C Q t ↔ Q a t := Iff.rfl

@[simp] theorem wp_call (op : Op) (next : Ans op → Prog Ans α) (t : Transcript Ans) :
    (call op next).wp C Q t ↔
      C.allowed t op ∧ ∀ x, C.honest op x → (next x).wp C Q (t ++ [⟨op, x⟩]) := Iff.rfl

@[simp] theorem wp_outOfFuel (t : Transcript Ans) :
    (outOfFuel : Prog Ans α).wp C Q t ↔ True := Iff.rfl

@[simp] theorem wp_bind (p : Prog Ans α) (f : α → Prog Ans β) (Q : β → Transcript Ans → Prop)
    (t : Transcript Ans) : (p.bind f).wp C Q t ↔ p.wp C (fun a u => (f a).wp C Q u) t := by
  induction p generalizing t with
  | ret a => rfl
  | call op next ih => simp [ih]
  | outOfFuel => simp

theorem wp_mono {p : Prog Ans α} {t : Transcript Ans} (h : p.wp C Q t)
    (hQ : ∀ a u, Q a u → R a u) : p.wp C R t := by
  induction p generalizing t with
  | ret a => exact hQ a t h
  | call op next ih => exact ⟨h.1, fun x hx => ih x (h.2 x hx)⟩
  | outOfFuel => trivial

/-- The same contract for programs that make only calls of one kind. -/
def Contract.restrict (C : Contract Ans) (P : Op → Prop) : Contract Ans where
  allowed t op := C.allowed t op ∧ P op
  honest := C.honest

/-- A relation to the history at the start that calls of one kind keep holds at the end
of every program that makes only such calls. -/
theorem wp_of_restrict {P : Op → Prop} {R : Transcript Ans → Transcript Ans → Prop}
    (hrefl : ∀ t, R t t) (hstep : ∀ t u op x, P op → R t u → R t (u ++ [⟨op, x⟩]))
    {p : Prog Ans α} {t : Transcript Ans} (h : p.wp (C.restrict P) Q t) :
    p.wp C (fun a u => Q a u ∧ R t u) t := by
  suffices hsuff : ∀ u, R t u → p.wp (C.restrict P) Q u → p.wp C (fun a v => Q a v ∧ R t v) u from
    hsuff t (hrefl t) h
  clear h
  induction p with
  | ret a =>
    intro u hu h
    exact ⟨h, hu⟩
  | call op next ih =>
    intro u hu h
    exact ⟨h.1.1, fun x hx => ih x _ (hstep t u op x h.1.2 hu) (h.2 x hx)⟩
  | outOfFuel =>
    intro u _ _
    trivial

theorem wp_loop {step : σ → Prog Ans (σ ⊕ α)} (I : σ → Transcript Ans → Prop)
    (hstep : ∀ s t, I s t → (step s).wp C (fun r u => match r with
      | .inl s' => I s' u
      | .inr a => Q a u) t)
    (fuel : ℕ) {s : σ} {t : Transcript Ans} (h : I s t) : (loop step fuel s).wp C Q t := by
  induction fuel generalizing s t with
  | zero => trivial
  | succ fuel ih =>
    rw [loop, wp_bind]
    refine wp_mono (hstep s t h) ?_
    rintro (s' | a) u hu
    · exact ih hu
    · exact hu

theorem wp_of_runs {p q : Prog Ans α} {t u : Transcript Ans} (h : p.wp C Q t)
    (hr : p.Runs u q) (hu : ∀ e ∈ u, C.honest e.1 e.2) : q.wp C Q (t ++ u) := by
  induction hr generalizing t with
  | refl p => simpa using h
  | call x rest ih =>
    have hx := hu _ List.mem_cons_self
    simpa using ih (h.2 x hx) fun e he => hu e (List.mem_cons_of_mem _ he)

theorem post_of_returns {p : Prog Ans α} {u : Transcript Ans} {a : α} (h : p.wp C Q [])
    (hr : p.Returns u a) (hu : ∀ e ∈ u, C.honest e.1 e.2) : Q a u := by
  simpa using wp_of_runs h hr hu

/-- Every call of every run, finished or not, is allowed when it is made. -/
theorem allowed_of_runs {p q : Prog Ans α} {u v : Transcript Ans} {e : Σ op, Ans op}
    (h : p.wp C Q []) (hr : p.Runs (u ++ e :: v) q)
    (hu : ∀ e' ∈ u ++ e :: v, C.honest e'.1 e'.2) : C.allowed u e.1 := by
  suffices hsuff : ∀ (t : Transcript Ans) {p : Prog Ans α}, p.wp C Q t →
      p.Runs (u ++ e :: v) q → C.allowed (t ++ u) e.1 by
    simpa using hsuff [] h hr
  clear h hr
  induction u with
  | nil =>
    intro t p h hr
    cases hr
    simpa using h.1
  | cons e' u ih =>
    intro t p h hr
    cases hr with
    | call x rest =>
      have hx := hu _ List.mem_cons_self
      have hrest := ih (fun e he => hu e (List.mem_cons_of_mem _ he)) (t ++ [⟨_, x⟩]) (h.2 x hx) rest
      rwa [List.append_assoc] at hrest

end Preconditions
end Prog
end VariousStuff.Interactive
