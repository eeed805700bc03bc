import VariousStuff.InteractivePrograms

/-!
# Two programs on a shared store

The calls of two programs are shuffled into one trace, in which each call is marked with
the program that makes it. A device relates the store before a call to the store after
it; most calls do not concern it.
-/
namespace VariousStuff.Interactive

/-! ## Shuffles -/

section Shuffles
variable {α β : Type}

/-- `t` contains the elements of `l` and `r`, each in their order. -/
inductive Shuffle : List α → List α → List (α ⊕ α) → Prop where
  | nil : Shuffle [] [] []
  | left (a : α) {l r t} (h : Shuffle l r t) : Shuffle (a :: l) r (.inl a :: t)
  | right (a : α) {l r t} (h : Shuffle l r t) : Shuffle l (a :: r) (.inr a :: t)

/-- The element without its mark. -/
def unmark : α ⊕ α → α
  | .inl a => a
  | .inr a => a

@[simp] theorem unmark_inl (a : α) : unmark (.inl a : α ⊕ α) = a := rfl

@[simp] theorem unmark_inr (a : α) : unmark (.inr a : α ⊕ α) = a := rfl

/-- The image under `f`, if there is one, with the same mark. -/
def keepMark (f : α → Option β) : α ⊕ α → Option (β ⊕ β)
  | .inl a => (f a).map .inl
  | .inr a => (f a).map .inr

theorem Shuffle.filterMap {l r : List α} {t : List (α ⊕ α)} (h : Shuffle l r t)
    (f : α → Option β) :
    Shuffle (l.filterMap f) (r.filterMap f) (t.filterMap (keepMark f)) := by
  induction h with
  | nil => exact .nil
  | left a h ih =>
    cases ha : f a with
    | none => simpa [keepMark, ha] using ih
    | some b => simpa [keepMark, ha] using ih.left b
  | right a h ih =>
    cases ha : f a with
    | none => simpa [keepMark, ha] using ih
    | some b => simpa [keepMark, ha] using ih.right b

theorem map_unmark_filterMap (f : α → Option β) (t : List (α ⊕ α)) :
    (t.filterMap (keepMark f)).map unmark = (t.map unmark).filterMap f := by
  induction t with
  | nil => rfl
  | cons x t ih =>
    cases x with
    | inl a => cases ha : f a <;> simp [keepMark, ha, ih]
    | inr a => cases ha : f a <;> simp [keepMark, ha, ih]

theorem Shuffle.perm {l r : List α} {t : List (α ⊕ α)} (h : Shuffle l r t) :
    (t.map unmark).Perm (l ++ r) := by
  induction h with
  | nil => exact .refl _
  | left a h ih => exact ih.cons a
  | right a h ih => exact (ih.cons a).trans List.perm_middle.symm

theorem Shuffle.mem_left {l r : List α} {t : List (α ⊕ α)} (h : Shuffle l r t) {a : α}
    (ha : a ∈ l) : a ∈ t.map unmark := h.perm.mem_iff.mpr (List.mem_append_left r ha)

theorem Shuffle.mem_right {l r : List α} {t : List (α ⊕ α)} (h : Shuffle l r t) {a : α}
    (ha : a ∈ r) : a ∈ t.map unmark := h.perm.mem_iff.mpr (List.mem_append_right l ha)

/-- The elements marked with the first program, in their order. -/
def lefts (t : List (α ⊕ α)) : List α := t.filterMap Sum.getLeft?

theorem Shuffle.lefts_eq {l r : List α} {t : List (α ⊕ α)} (h : Shuffle l r t) : lefts t = l := by
  induction h with
  | nil => rfl
  | left a h ih => exact congrArg (a :: ·) ih
  | right a h ih => exact ih

theorem Shuffle.left_eq {l r : List α} {t u : List (α ⊕ α)} {a : α}
    (h : Shuffle l r (t ++ .inl a :: u)) : l = lefts t ++ a :: lefts u := by
  rw [← h.lefts_eq, lefts, List.filterMap_append]
  rfl

theorem Shuffle.exists_of_left {l₁ l₂ r : List α} {t : List (α ⊕ α)} {a : α}
    (h : Shuffle (l₁ ++ a :: l₂) r t) :
    ∃ t₁ t₂, t = t₁ ++ .inl a :: t₂ ∧ lefts t₁ = l₁ ∧ lefts t₂ = l₂ := by
  obtain ⟨t₁, t', rfl, h₁, h'⟩ := List.filterMap_eq_append_iff.mp h.lefts_eq
  obtain ⟨skipped, x, t₂, rfl, hskipped, hx, h₂⟩ := List.filterMap_eq_cons_iff.mp h'
  obtain rfl : x = .inl a := Sum.getLeft?_eq_some_iff.mp hx
  refine ⟨t₁ ++ skipped, t₂, (List.append_assoc _ _ _).symm, ?_, h₂⟩
  rw [lefts, List.filterMap_append, h₁, List.filterMap_eq_nil_iff.mpr hskipped, List.append_nil]

theorem Shuffle.inr_mem_iff {l r : List α} {t : List (α ⊕ α)} (h : Shuffle l r t) {a : α} :
    .inr a ∈ t ↔ a ∈ r := by
  induction h with
  | nil => simp
  | left b h ih => simp [ih]
  | right b h ih => simp [ih]

theorem Shuffle.eq_of_nil_left {r : List α} {t : List (α ⊕ α)} (h : Shuffle [] r t) :
    t = r.map .inr := by
  induction r generalizing t with
  | nil =>
    cases h
    rfl
  | cons a r ih =>
    cases h with
    | right _ h => rw [ih h, List.map_cons]

theorem Shuffle.eq_of_nil_right {l : List α} {t : List (α ⊕ α)} (h : Shuffle l [] t) :
    t = l.map .inl := by
  induction l generalizing t with
  | nil =>
    cases h
    rfl
  | cons a l ih =>
    cases h with
    | left _ h => rw [ih h, List.map_cons]

/-- The three places of a single element among two. -/
theorem Shuffle.one_two {a b₁ b₂ : α} {t : List (α ⊕ α)} (h : Shuffle [a] [b₁, b₂] t) :
    t = [.inl a, .inr b₁, .inr b₂] ∨ t = [.inr b₁, .inl a, .inr b₂] ∨
      t = [.inr b₁, .inr b₂, .inl a] := by
  cases h with
  | left _ h => exact .inl (congrArg _ h.eq_of_nil_left)
  | right _ h =>
    cases h with
    | left _ h => exact .inr (.inl (congrArg _ (congrArg _ h.eq_of_nil_left)))
    | right _ h => exact .inr (.inr (congrArg _ (congrArg _ h.eq_of_nil_right)))

theorem Shuffle.two_one {a₁ a₂ b : α} {t : List (α ⊕ α)} (h : Shuffle [a₁, a₂] [b] t) :
    t = [.inr b, .inl a₁, .inl a₂] ∨ t = [.inl a₁, .inr b, .inl a₂] ∨
      t = [.inl a₁, .inl a₂, .inr b] := by
  cases h with
  | right _ h => exact .inl (congrArg _ h.eq_of_nil_right)
  | left _ h =>
    cases h with
    | right _ h => exact .inr (.inl (congrArg _ (congrArg _ h.eq_of_nil_right)))
    | left _ h => exact .inr (.inr (congrArg _ (congrArg _ h.eq_of_nil_left)))

end Shuffles

/-! ## Stores -/

section Stores
variable {S E : Type} {D : S → E → S → Prop}

/-- The calls take the store from `s` to `s'`. -/
inductive Steps (D : S → E → S → Prop) : S → List E → S → Prop where
  | nil (s) : Steps D s [] s
  | cons {s s₁ s' e t} (step : D s e s₁) (rest : Steps D s₁ t s') : Steps D s (e :: t) s'

@[simp] theorem steps_nil {s s' : S} : Steps D s [] s' ↔ s' = s := by
  constructor
  · intro h
    cases h
    rfl
  · rintro rfl
    exact .nil s'

@[simp] theorem steps_cons {s s' : S} {e : E} {t : List E} :
    Steps D s (e :: t) s' ↔ ∃ s₁, D s e s₁ ∧ Steps D s₁ t s' := by
  constructor
  · intro h
    cases h with
    | cons step rest => exact ⟨_, step, rest⟩
  · rintro ⟨s₁, step, rest⟩
    exact .cons step rest

theorem steps_append_cons {s s' : S} {t u : List E} {e : E} :
    Steps D s (t ++ e :: u) s' ↔ ∃ s₁ s₂, Steps D s t s₁ ∧ D s₁ e s₂ ∧ Steps D s₂ u s' := by
  induction t generalizing s with
  | nil => simp
  | cons a t ih =>
    rw [List.cons_append, steps_cons]
    constructor
    · rintro ⟨s₀, ha, hrest⟩
      obtain ⟨s₁, s₂, ht, he, hu⟩ := ih.mp hrest
      exact ⟨s₁, s₂, .cons ha ht, he, hu⟩
    · rintro ⟨s₁, s₂, ht, he, hu⟩
      obtain ⟨s₀, ha, hrest⟩ := steps_cons.mp ht
      exact ⟨s₀, ha, ih.mpr ⟨s₁, s₂, hrest, he, hu⟩⟩

theorem Steps.exists_step {s s' : S} {t : List E} (h : Steps D s t s') {e : E} (he : e ∈ t) :
    ∃ s₁ s₂, D s₁ e s₂ := by
  obtain ⟨u, v, rfl⟩ := List.append_of_mem he
  obtain ⟨s₁, s₂, _, hstep, _⟩ := steps_append_cons.mp h
  exact ⟨s₁, s₂, hstep⟩

/-- A store whose steps are steps of a smaller store, or do not concern it. -/
theorem Steps.filterMap {S' E' : Type} {D' : S' → E' → S' → Prop} (abs : S → S')
    {f : E → Option E'} {s s' : S} {t : List E} (h : Steps D s t s')
    (hcall : ∀ s e s' c, D s e s' → f e = some c → D' (abs s) c (abs s'))
    (hskip : ∀ s e s', D s e s' → f e = none → abs s' = abs s) :
    Steps D' (abs s) (t.filterMap f) (abs s') := by
  induction h with
  | nil s => exact .nil _
  | @cons s s₁ s' e t step rest ih =>
    cases he : f e with
    | none =>
      rw [List.filterMap_cons_none he, ← hskip s e s₁ step he]
      exact ih
    | some c =>
      rw [List.filterMap_cons_some he]
      exact .cons (hcall s e s₁ c step he) ih

end Stores

/-! ## Runs -/

/-- An execution against an environment whose answers are steps of a store is a run. -/
theorem returns_of_runState {Op S α : Type} {Ans : Op → Type} {D : S → (Σ op, Ans op) → S → Prop}
    {env : S → ∀ op, Ans op × S} (henv : ∀ s op, D s ⟨op, (env s op).1⟩ (env s op).2)
    {p : Prog Ans α} {a : α} {s s' : S} (h : p.runState env s = (some a, s')) :
    ∃ t, p.Returns t a ∧ Steps D s t s' := by
  induction p generalizing s with
  | ret b =>
    obtain ⟨rfl, rfl⟩ : b = a ∧ s = s' := by simpa using h
    exact ⟨[], .refl _, .nil _⟩
  | call op next ih =>
    obtain ⟨t, hreturns, hsteps⟩ := ih (env s op).1 h
    exact ⟨_, .call _ hreturns, .cons (henv s op) hsteps⟩
  | outOfFuel => simp [Prog.runState] at h

section Runs
variable {Op S α : Type} {Ans : Op → Type}

/-- Two programs return `a` and `b` after the calls of `trace`, which take the store from
`s` to `s'`. -/
structure RunTogether (D : S → (Σ op, Ans op) → S → Prop) (p q : Prog Ans α) (a b : α)
    (trace : List ((Σ op, Ans op) ⊕ (Σ op, Ans op))) (s s' : S) : Prop where
  shuffled : ∃ t u, p.Returns t a ∧ q.Returns u b ∧ Shuffle t u trace
  steps : Steps D s (trace.map unmark) s'

/-- Run two programs against one environment, the first one where the schedule says `true`. -/
def runScheduled (env : S → ∀ op, Ans op × S) : List Bool → Prog Ans α → Prog Ans α → S →
    Option (α × α × List ((Σ op, Ans op) ⊕ (Σ op, Ans op)) × S)
  | [], .ret a, .ret b, s => some (a, b, [], s)
  | true :: bs, .call op next, q, s =>
    (runScheduled env bs (next (env s op).1) q (env s op).2).map fun (a, b, t, s') =>
      (a, b, .inl ⟨op, (env s op).1⟩ :: t, s')
  | false :: bs, p, .call op next, s =>
    (runScheduled env bs p (next (env s op).1) (env s op).2).map fun (a, b, t, s') =>
      (a, b, .inr ⟨op, (env s op).1⟩ :: t, s')
  | _, _, _, _ => none

/-- A scheduled execution is a run of both programs on every device the environment is
one of. -/
theorem runTogether_of_runScheduled {D : S → (Σ op, Ans op) → S → Prop}
    {env : S → ∀ op, Ans op × S} (henv : ∀ s op, D s ⟨op, (env s op).1⟩ (env s op).2)
    {bs : List Bool} {p q : Prog Ans α} {a b : α}
    {trace : List ((Σ op, Ans op) ⊕ (Σ op, Ans op))} {s s' : S}
    (h : runScheduled env bs p q s = some (a, b, trace, s')) : RunTogether D p q a b trace s s' := by
  induction bs, p, q, s using runScheduled.induct env generalizing trace with
  | case1 a₁ b₁ s₁ =>
    rw [runScheduled] at h
    cases h
    exact ⟨⟨[], [], .refl _, .refl _, .nil⟩, .nil _⟩
  | case2 bs op next q s ih =>
    rw [runScheduled] at h
    obtain ⟨⟨a₁, b₁, t, s₁⟩, hrest, heq⟩ := Option.map_eq_some_iff.mp h
    cases heq
    obtain ⟨⟨u, v, hu, hv, hshuffle⟩, hsteps⟩ := ih hrest
    exact ⟨⟨_, v, .call _ hu, hv, hshuffle.left _⟩, .cons (henv s op) hsteps⟩
  | case3 bs p op next s ih =>
    rw [runScheduled] at h
    obtain ⟨⟨a₁, b₁, t, s₁⟩, hrest, heq⟩ := Option.map_eq_some_iff.mp h
    cases heq
    obtain ⟨⟨u, v, hu, hv, hshuffle⟩, hsteps⟩ := ih hrest
    exact ⟨⟨u, _, hu, .call _ hv, hshuffle.right _⟩, .cons (henv s op) hsteps⟩
  | case4 bs p q s h₁ h₂ h₃ =>
    rw [runScheduled] at h
    · cases h
    all_goals assumption

end Runs

end VariousStuff.Interactive
