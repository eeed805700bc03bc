import VariousStuff.InteractivePrograms

/-!
# Programs that always return, and the rounds of a loop against any environment

A total precondition says that every run comes to an end, with a result and a history
that satisfy the postcondition, whatever the environment answers.
-/
namespace VariousStuff.Interactive
namespace Prog

variable {Op : Type} {Ans : Op → Type} {α β σ : Type}

/-- From the history `t`, every run of `p` returns, and every result satisfies `Q`
together with the whole history. -/
def twp (Q : α → Transcript Ans → Prop) : Prog Ans α → Transcript Ans → Prop
  | .ret a, t => Q a t
  | .call op next, t => ∀ x, (next x).twp Q (t ++ [⟨op, x⟩])
  | .outOfFuel, _ => False

section Total
variable {Q R : α → Transcript Ans → Prop}

@[simp] theorem twp_ret (a : α) (t : Transcript Ans) : (ret a).twp Q t ↔ Q a t := Iff.rfl

@[simp] theorem twp_call (op : Op) (next : Ans op → Prog Ans α) (t : Transcript Ans) :
    (call op next).twp Q t ↔ ∀ x, (next x).twp Q (t ++ [⟨op, x⟩]) := Iff.rfl

@[simp] theorem twp_bind (p : Prog Ans α) (f : α → Prog Ans β) (Q : β → Transcript Ans → Prop)
    (t : Transcript Ans) : (p.bind f).twp Q t ↔ p.twp (fun a u => (f a).twp Q u) t := by
  induction p generalizing t with
  | ret a => rfl
  | call op next ih => simp [ih]
  | outOfFuel => rfl

theorem twp_mono {p : Prog Ans α} {t : Transcript Ans} (h : p.twp Q t)
    (hQ : ∀ a u, Q a u → R a u) : p.twp R t := by
  induction p generalizing t with
  | ret a => exact hQ a t h
  | call op next ih => exact fun x => ih x (h x)
  | outOfFuel => exact h.elim

/-- A loop returns if each of its rounds keeps an invariant and lowers a measure. -/
theorem twp_loop {step : σ → Prog Ans (σ ⊕ α)} (I : σ → Transcript Ans → Prop) (μ : σ → ℕ)
    (hstep : ∀ s t, I s t → (step s).twp (fun r u => match r with
      | .inl s' => I s' u ∧ μ s' < μ s
      | .inr a => Q a u) t)
    {fuel : ℕ} {s : σ} {t : Transcript Ans} (h : I s t) (hfuel : μ s < fuel) :
    (loop step fuel s).twp Q t := by
  induction fuel generalizing s t with
  | zero => exact absurd hfuel (Nat.not_lt_zero _)
  | succ fuel ih =>
    rw [loop, twp_bind]
    refine twp_mono (hstep s t h) ?_
    intro r u hu
    cases r with
    | inl s' => exact ih hu.1 (by have := hu.2; omega)
    | inr a => exact hu

/-- One round of `do { … } while (i < n)`, where the body ends with an increment of `i`. -/
def doWhileStep (n : ℕ) (body : σ → Prog Ans σ) (s : ℕ × σ) : Prog Ans ((ℕ × σ) ⊕ σ) :=
  (body s.2).bind fun s' => .ret (if s.1 + 1 < n then .inl (s.1 + 1, s') else .inr s')

/-- A counted loop, which runs its body at least once. -/
def doWhile (n : ℕ) (body : σ → Prog Ans σ) (fuel : ℕ) (s : σ) : Prog Ans σ :=
  loop (doWhileStep n body) fuel (0, s)

/-- A counted loop runs its body `n` times. -/
theorem twp_doWhile {Q : σ → Transcript Ans → Prop} {n : ℕ} {body : σ → Prog Ans σ}
    (I : ℕ → σ → Transcript Ans → Prop)
    (hbody : ∀ i s t, i < n → I i s t → (body s).twp (I (i + 1)) t)
    (hlast : ∀ s t, I n s t → Q s t) (hn : 1 ≤ n) {fuel : ℕ} (hfuel : n ≤ fuel) {s : σ}
    {t : Transcript Ans} (h : I 0 s t) : (doWhile n body fuel s).twp Q t := by
  refine twp_loop (fun s t => s.1 < n ∧ I s.1 s.2 t) (fun s => n - 1 - s.1) ?_ ⟨hn, h⟩ (by omega)
  intro s t hinv
  obtain ⟨hi, hI⟩ := hinv
  rw [doWhileStep, twp_bind]
  refine twp_mono (hbody s.1 s.2 t hi hI) ?_
  intro s' u hu
  by_cases hnext : s.1 + 1 < n
  · rw [if_pos hnext]
    exact ⟨⟨hnext, hu⟩, by omega⟩
  · obtain rfl : n = s.1 + 1 := by omega
    rw [if_neg hnext]
    exact hlast s' u hu

theorem twp_of_runs {p q : Prog Ans α} {t u : Transcript Ans} (h : p.twp Q t) (hr : p.Runs u q) :
    q.twp Q (t ++ u) := by
  induction hr generalizing t with
  | refl p => rwa [List.append_nil]
  | call x rest ih =>
    have hrest := ih (h x)
    rwa [List.append_assoc] at hrest

theorem not_runs_outOfFuel {p : Prog Ans α} {u : Transcript Ans} (h : p.twp Q []) :
    ¬ p.Runs u .outOfFuel := fun hr => twp_of_runs h hr

theorem twp_post {p : Prog Ans α} {u : Transcript Ans} {a : α} (h : p.twp Q [])
    (hr : p.Returns u a) : Q a u := twp_of_runs h hr

theorem twp_ends {p q : Prog Ans α} {u : Transcript Ans} (h : p.twp Q []) (hr : p.Runs u q) :
    q ≠ .outOfFuel ∧ ∀ a, q = .ret a → Q a u := by
  refine ⟨?_, ?_⟩
  · rintro rfl
    exact not_runs_outOfFuel h hr
  · rintro a rfl
    exact twp_post h hr

theorem exists_run {p : Prog Ans α} {t : Transcript Ans} (h : p.twp Q t) (env : ∀ op, Ans op) :
    ∃ a u, p.run env = (some a, u) ∧ Q a (t ++ u) := by
  induction p generalizing t with
  | ret a =>
    refine ⟨a, [], rfl, ?_⟩
    rwa [List.append_nil]
  | call op next ih =>
    obtain ⟨a, u, hrun, hQ⟩ := ih (env op) (h (env op))
    refine ⟨a, ⟨op, env op⟩ :: u, ?_, ?_⟩
    · rw [run_call, hrun]
    · rwa [List.append_assoc] at hQ
  | outOfFuel => exact h.elim

end Total

/-! ## Total preconditions under a contract -/

/-- From the history `t`, every call of `p` is allowed and every run comes to its end, as long as
the answers are honest, and every result satisfies `Q` together with the whole history. -/
def wpTotal (C : Contract Ans) (Q : α → Transcript Ans → Prop) : Prog Ans α → Transcript Ans → Prop
  | .ret a, t => Q a t
  | .call op next, t =>
      C.allowed t op ∧ ∀ x, C.honest op x → (next x).wpTotal C Q (t ++ [⟨op, x⟩])
  | .outOfFuel, _ => False

section Contracts
variable {C : Contract Ans} {Q R : α → Transcript Ans → Prop}

@[simp] theorem wpTotal_ret (a : α) (t : Transcript Ans) : (ret a).wpTotal C Q t ↔ Q a t := Iff.rfl

@[simp] theorem wpTotal_call (op : Op) (next : Ans op → Prog Ans α) (t : Transcript Ans) :
    (call op next).wpTotal C Q t ↔
      C.allowed t op ∧ ∀ x, C.honest op x → (next x).wpTotal C Q (t ++ [⟨op, x⟩]) := Iff.rfl

@[simp] theorem wpTotal_bind (p : Prog Ans α) (f : α → Prog Ans β)
    (Q : β → Transcript Ans → Prop) (t : Transcript Ans) :
    (p.bind f).wpTotal C Q t ↔ p.wpTotal C (fun a u => (f a).wpTotal C Q u) t := by
  induction p generalizing t with
  | ret a => rfl
  | call op next ih => simp [ih]
  | outOfFuel => rfl

theorem wpTotal_mono {p : Prog Ans α} {t : Transcript Ans} (h : p.wpTotal C Q t)
    (hQ : ∀ a u, Q a u → R a u) : p.wpTotal C R t := by
  induction p generalizing t with
  | ret a => exact hQ a t h
  | call op next ih => exact ⟨h.1, fun x hx => ih x (h.2 x hx)⟩
  | outOfFuel => exact h.elim

theorem wpTotal_loop {step : σ → Prog Ans (σ ⊕ α)} (I : σ → Transcript Ans → Prop) (μ : σ → ℕ)
    (hstep : ∀ s t, I s t → (step s).wpTotal C (fun r u => match r with
      | .inl s' => I s' u ∧ μ s' < μ s
      | .inr a => Q a u) t)
    {fuel : ℕ} {s : σ} {t : Transcript Ans} (h : I s t) (hfuel : μ s < fuel) :
    (loop step fuel s).wpTotal C Q t := by
  induction fuel generalizing s t with
  | zero => exact absurd hfuel (Nat.not_lt_zero _)
  | succ fuel ih =>
    rw [loop, wpTotal_bind]
    refine wpTotal_mono (hstep s t h) ?_
    intro r u hu
    cases r with
    | inl s' => exact ih hu.1 (Nat.lt_of_lt_of_le hu.2 (Nat.le_of_lt_succ hfuel))
    | inr a => exact hu

theorem wp_of_wpTotal {p : Prog Ans α} {t : Transcript Ans} (h : p.wpTotal C Q t) : p.wp C Q t := by
  induction p generalizing t with
  | ret a => exact h
  | call op next ih => exact ⟨h.1, fun x hx => ih x (h.2 x hx)⟩
  | outOfFuel => trivial

theorem ne_outOfFuel_of_wpTotal {p q : Prog Ans α} {t u : Transcript Ans} (h : p.wpTotal C Q t)
    (hr : p.Runs u q) (hu : ∀ e ∈ u, C.honest e.1 e.2) : q ≠ .outOfFuel := by
  induction hr generalizing t with
  | refl p =>
    rintro rfl
    exact h
  | call x rest ih =>
    exact ih (h.2 x (hu _ List.mem_cons_self)) fun e he => hu e (List.mem_cons_of_mem _ he)

end Contracts

/-! ## What is seen of a history -/

section Seen
variable {see : (Σ op, Ans op) → Option β} {t : Transcript Ans} {e : Σ op, Ans op}

theorem filterMap_concat_of_none (h : see e = none) :
    (t ++ [e]).filterMap see = t.filterMap see := by
  rw [List.filterMap_append, List.filterMap_cons_none h]
  exact List.append_nil _

theorem filterMap_concat_of_some {b : β} (h : see e = some b) :
    (t ++ [e]).filterMap see = t.filterMap see ++ [b] := by
  rw [List.filterMap_append, List.filterMap_cons_some h]
  rfl

/-- What is seen of a history may be any sequence, if each call can show each of its values
or nothing at all. -/
theorem exists_returns_seen {Q : α → Transcript Ans → Prop} {p : Prog Ans α} (h : p.twp Q t)
    (hsee : ∀ op b, ∃ x : Ans op, see ⟨op, x⟩ = none ∨ see ⟨op, x⟩ = some b) (b : ℕ → β) :
    ∃ a u n, p.Returns u a ∧ u.filterMap see = (List.range n).map b := by
  induction p generalizing t b with
  | ret a => exact ⟨a, [], 0, .refl _, rfl⟩
  | call op next ih =>
    obtain ⟨x, hx⟩ := hsee op (b 0)
    rcases hx with hx | hx
    · obtain ⟨a, u, n, hreturns, hu⟩ := ih x (h x) b
      refine ⟨a, ⟨op, x⟩ :: u, n, .call x hreturns, ?_⟩
      rw [List.filterMap_cons_none hx, hu]
    · obtain ⟨a, u, n, hreturns, hu⟩ := ih x (h x) fun i => b (i + 1)
      refine ⟨a, ⟨op, x⟩ :: u, n + 1, .call x hreturns, ?_⟩
      rw [List.filterMap_cons_some hx, hu, List.range_succ_eq_map, List.map_cons, List.map_map]
      rfl
  | outOfFuel => exact h.elim

end Seen

/-! ## Rounds -/

/-- Rounds that go on lead the loop from `s` to `s'`, with the calls and answers of `t`. -/
inductive Reaches (step : σ → Prog Ans (σ ⊕ α)) (s : σ) : Transcript Ans → σ → Prop where
  | refl : Reaches step s [] s
  | tail {s' s'' t u} (h : Reaches step s t s') (hround : (step s').Returns u (.inl s'')) :
      Reaches step s (t ++ u) s''

section Reaches
variable {step : σ → Prog Ans (σ ⊕ α)}

theorem Runs.bind {p q : Prog Ans α} {t : Transcript Ans} (h : p.Runs t q)
    (f : α → Prog Ans β) : (p.bind f).Runs t (q.bind f) := by
  induction h with
  | refl p => exact .refl _
  | call x rest ih => exact .call x ih

theorem Runs.trans {p q r : Prog Ans α} {t u : Transcript Ans} (h : p.Runs t q)
    (h' : q.Runs u r) : p.Runs (t ++ u) r := by
  induction h with
  | refl p => exact h'
  | call x rest ih => exact .call x (ih h')

/-- The loop itself goes through every state that rounds reach. -/
theorem Reaches.runs_loop {s s' : σ} {t : Transcript Ans} (h : Reaches step s t s') :
    ∃ n, ∀ fuel, (loop step (n + fuel) s).Runs t (loop step fuel s') := by
  induction h with
  | refl =>
    refine ⟨0, fun fuel => ?_⟩
    rw [Nat.zero_add]
    exact .refl _
  | @tail s' s'' t u _ hround ih =>
    obtain ⟨n, hn⟩ := ih
    refine ⟨n + 1, fun fuel => ?_⟩
    rw [Nat.add_right_comm, Nat.add_assoc]
    exact (hn (fuel + 1)).trans (hround.bind _)

/-- What holds at the start and is kept by every round holds wherever rounds lead. -/
theorem Reaches.invariant (I : σ → Transcript Ans → Prop) {s s' : σ} {t : Transcript Ans}
    (hstart : I s [])
    (hstep : ∀ s t, I s t → (step s).twp (fun r u => match r with
      | .inl s' => I s' u
      | .inr _ => True) t)
    (h : Reaches step s t s') : I s' t := by
  induction h with
  | refl => exact hstart
  | tail _ hround ih => exact twp_of_runs (hstep _ _ ih) hround

end Reaches
end Prog
end VariousStuff.Interactive
