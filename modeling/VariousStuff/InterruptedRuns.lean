import VariousStuff.TotalPreconditions

/-!
# Programs that may be stopped in a call

Any call may be the last one: instead of an answer there is a reason why the program does
not go on. What it has done by then is the beginning of one of its whole runs.
-/
namespace VariousStuff.Interactive

variable {Op : Type} {Ans : Op → Type} {α ρ : Type}

/-- An answer, or the reason why there is none. -/
abbrev Fate (ρ : Type) (Ans : Op → Type) : Op → Type := fun op => Except ρ (Ans op)

/-- The calls that came back. -/
def answered (t : Transcript (Fate ρ Ans)) : Transcript Ans :=
  t.filterMap fun
    | ⟨op, .ok x⟩ => some ⟨op, x⟩
    | ⟨_, .error _⟩ => none

@[simp] theorem answered_ok (op : Op) (x : Ans op) (t : Transcript (Fate ρ Ans)) :
    answered (⟨op, .ok x⟩ :: t) = ⟨op, x⟩ :: answered t := rfl

namespace Prog

/-- Go on with an answer. -/
def resume {op : Op} (next : Ans op → Prog (Fate ρ Ans) (Except ρ α)) :
    Fate ρ Ans op → Prog (Fate ρ Ans) (Except ρ α)
  | .ok x => next x
  | .error why => .ret (.error why)

/-- The same program where every call may be its last one. -/
def interruptible (ρ : Type) : Prog Ans α → Prog (Fate ρ Ans) (Except ρ α)
  | .ret a => .ret (.ok a)
  | .call op next => .call op (resume fun x => (next x).interruptible ρ)
  | .outOfFuel => .outOfFuel

theorem runs_of_interruptible {p : Prog Ans α} {q : Prog (Fate ρ Ans) (Except ρ α)}
    {t : Transcript (Fate ρ Ans)} (h : (p.interruptible ρ).Runs t q) :
    (∃ p', p.Runs (answered t) p' ∧ q = p'.interruptible ρ) ∨
      ∃ u op next why, t = u ++ [⟨op, .error why⟩] ∧ p.Runs (answered u) (.call op next) ∧
        q = .ret (.error why) := by
  induction p generalizing t with
  | ret a =>
    cases h
    exact Or.inl ⟨.ret a, .refl _, rfl⟩
  | call op next ih =>
    cases h with
    | refl => exact Or.inl ⟨.call op next, .refl _, rfl⟩
    | call x rest =>
      cases x with
      | ok x =>
        rcases ih x rest with ⟨p', hruns, hq⟩ | ⟨u, op', next', why, rfl, hruns, hq⟩
        · exact Or.inl ⟨p', .call x hruns, hq⟩
        · exact Or.inr ⟨⟨op, .ok x⟩ :: u, op', next', why, rfl, .call x hruns, hq⟩
      | error why =>
        cases rest
        exact Or.inr ⟨[], op, next, why, rfl, .refl _, rfl⟩
  | outOfFuel =>
    cases h
    exact Or.inl ⟨.outOfFuel, .refl _, rfl⟩

theorem runs_interruptible_ok {op : Op} {next : Ans op → Prog Ans α} (x : Ans op)
    {t : Transcript (Fate ρ Ans)} {q : Prog (Fate ρ Ans) (Except ρ α)}
    (h : ((next x).interruptible ρ).Runs t q) :
    ((call op next).interruptible ρ).Runs (⟨op, .ok x⟩ :: t) q :=
  @Runs.call _ _ _ op (resume fun x => (next x).interruptible ρ) (.ok x) _ _ h

/-- Calls that come back. -/
def undisturbed (ρ : Type) (t : Transcript Ans) : Transcript (Fate ρ Ans) :=
  t.map fun e => ⟨e.1, .ok e.2⟩

theorem Runs.interruptible {p q : Prog Ans α} {t : Transcript Ans} (h : p.Runs t q) :
    (p.interruptible ρ).Runs (undisturbed ρ t) (q.interruptible ρ) := by
  induction h with
  | refl p => exact .refl _
  | call x rest ih => exact runs_interruptible_ok x ih

theorem returns_interruptible_error {p : Prog Ans α} {op : Op} {next : Ans op → Prog Ans α}
    {t : Transcript Ans} (h : p.Runs t (.call op next)) (why : ρ) :
    (p.interruptible ρ).Returns (undisturbed ρ t ++ [⟨op, .error why⟩]) (.error why) :=
  h.interruptible.trans
    (@Runs.call _ _ _ op (resume fun x => (next x).interruptible ρ) (.error why) _ _ (.refl _))

section Ends
variable {Q : α → Transcript Ans → Prop} {p : Prog Ans α} {t : Transcript (Fate ρ Ans)}

/-- From wherever a run has got, it can go on to a result. -/
theorem exists_completion {p' : Prog Ans α} {u : Transcript Ans} (h : p.twp Q [])
    (hr : p.Runs u p') (env : ∀ op, Ans op) : ∃ a v, p'.Returns v a ∧ Q a (u ++ v) := by
  obtain ⟨a, v, hrun, hQ⟩ := exists_run (twp_of_runs h hr) env
  exact ⟨a, v, returns_of_run env hrun, hQ⟩

theorem interruptible_ne_outOfFuel (h : p.twp Q []) {q : Prog (Fate ρ Ans) (Except ρ α)}
    (hr : (p.interruptible ρ).Runs t q) : q ≠ .outOfFuel := by
  rcases runs_of_interruptible hr with ⟨p', hruns, rfl⟩ | ⟨_, _, _, _, _, _, rfl⟩
  · intro hfuel
    cases p' with
    | ret a => cases hfuel
    | call op next => cases hfuel
    | outOfFuel => exact not_runs_outOfFuel h hruns
  · intro hfuel
    cases hfuel

theorem returns_of_interruptible_ok {a : α} (hr : (p.interruptible ρ).Returns t (.ok a)) :
    p.Returns (answered t) a := by
  rcases runs_of_interruptible hr with ⟨p', hruns, hq⟩ | ⟨_, _, _, _, _, _, hq⟩
  · cases p' with
    | ret b =>
      cases hq
      exact hruns
    | call op next => cases hq
    | outOfFuel => cases hq
  · cases hq

/-- A run that was stopped is the beginning of a whole one, which goes on with the call it
was stopped in. -/
theorem prefix_of_interruptible_error (h : p.twp Q []) (env : ∀ op, Ans op) {why : ρ}
    (hr : (p.interruptible ρ).Returns t (.error why)) :
    ∃ u op, t = u ++ [⟨op, .error why⟩] ∧
      ∃ a x v, p.Returns (answered u ++ ⟨op, x⟩ :: v) a ∧ Q a (answered u ++ ⟨op, x⟩ :: v) := by
  rcases runs_of_interruptible hr with ⟨p', _, hq⟩ | ⟨u, op, next, why', rfl, hruns, hq⟩
  · cases p' with
    | ret b => cases hq
    | call op next => cases hq
    | outOfFuel => cases hq
  · cases hq
    obtain ⟨a, v, hreturns, hQ⟩ := exists_completion h hruns env
    refine ⟨u, op, rfl, ?_⟩
    cases hreturns with
    | call x rest => exact ⟨a, x, _, hruns.trans (.call x rest), hQ⟩

end Ends
end Prog
end VariousStuff.Interactive
