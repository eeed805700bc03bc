import VariousStuff.InterleavedRuns

/-!
# Two guarded updates of one cell

An update reads a cell, gives up unless the value is acceptable, and writes a value that
depends on the one it read. Two updates whose reads both come before their writes leave
what the last one wrote, and that need not be the outcome of either order.
-/
namespace VariousStuff.Interactive

structure GuardedUpdate (V : Type) where
  accepts : V → Prop
  decidableAccepts : DecidablePred accepts
  write : V → V

inductive CellCall (V : Type) where
  | read (v : V)
  | write (v : V)

def CellCall.isWrite {V : Type} : CellCall V → Bool
  | .read _ => false
  | .write _ => true

@[simp] theorem CellCall.isWrite_read {V : Type} (v : V) : (CellCall.read v).isWrite = false := rfl

@[simp] theorem CellCall.isWrite_write {V : Type} (v : V) : (CellCall.write v).isWrite = true := rfl

/-- A cell answers with its value and keeps the last one written. -/
def CellStep {V : Type} (v : V) : CellCall V → V → Prop
  | .read w, v' => w = v ∧ v' = v
  | .write w, v' => v' = w

theorem read_of_steps {V : Type} {P : V → Prop} {v v' : V} {t : List (CellCall V)}
    (h : Steps CellStep v t v') (hv : P v) (hwrite : ∀ w, .write w ∈ t → P w) :
    ∀ w, .read w ∈ t → P w := by
  induction h with
  | nil v => exact fun _ hw => nomatch hw
  | @cons v v₁ v' c t step rest ih =>
    have htail : ∀ w, .write w ∈ t → P w := fun w hw => hwrite w (List.mem_cons_of_mem _ hw)
    intro w hw
    cases c with
    | read u =>
      obtain ⟨rfl, rfl⟩ := step
      rcases List.mem_cons.mp hw with hw | hw
      · cases hw
        exact hv
      · exact ih hv htail w hw
    | write u =>
      obtain rfl := step
      rcases List.mem_cons.mp hw with hw | hw
      · cases hw
      · exact ih (hwrite _ List.mem_cons_self) htail w hw

/-- Two programs that only go on to write if they read something else than `v` leave `v`. -/
theorem eq_of_reads {V : Type} {v v' v₁ v₂ : V} {l r : List (CellCall V)}
    {t : List (CellCall V ⊕ CellCall V)} (hl : v₁ = v → l = []) (hr : v₂ = v → r = [])
    (hshuffle : Shuffle (.read v₁ :: l) (.read v₂ :: r) t)
    (hsteps : Steps CellStep v (t.map unmark) v') : v' = v := by
  cases hshuffle with
  | left _ h =>
    obtain ⟨v₀, ⟨hfirst, rfl⟩, hrest⟩ := steps_cons.mp hsteps
    rw [hl hfirst] at h
    rw [h.eq_of_nil_left] at hrest
    obtain ⟨v₃, ⟨hsecond, rfl⟩, hlast⟩ := steps_cons.mp hrest
    rw [hr hsecond] at hlast
    exact steps_nil.mp hlast
  | right _ h =>
    obtain ⟨v₀, ⟨hfirst, rfl⟩, hrest⟩ := steps_cons.mp hsteps
    rw [hr hfirst] at h
    rw [h.eq_of_nil_right] at hrest
    obtain ⟨v₃, ⟨hsecond, rfl⟩, hlast⟩ := steps_cons.mp hrest
    rw [hl hsecond] at hlast
    exact steps_nil.mp hlast

namespace GuardedUpdate
variable {V : Type}

/-- The update on its own. -/
def apply (u : GuardedUpdate V) (v : V) : V :=
  have := u.decidableAccepts v
  if u.accepts v then u.write v else v

theorem apply_of_accepts {u : GuardedUpdate V} {v : V} (h : u.accepts v) :
    u.apply v = u.write v :=
  if_pos h

theorem apply_of_not_accepts {u : GuardedUpdate V} {v : V} (h : ¬ u.accepts v) :
    u.apply v = v :=
  if_neg h

/-- What an update that read `v` and accepted it does to the cell. -/
def calls (u : GuardedUpdate V) (v : V) : List (CellCall V) := [.read v, .write (u.write v)]

/-- Nothing is read any more once something has been written. -/
def ReadsFirst (t : List (CellCall V ⊕ CellCall V)) : Prop :=
  t.Pairwise fun c d => (unmark c).isWrite → (unmark d).isWrite

def LeftLast {α : Type} (t : List (α ⊕ α)) : Prop := ∃ a, t.getLast? = some (.inl a)

def RightLast {α : Type} (t : List (α ⊕ α)) : Prop := ∃ a, t.getLast? = some (.inr a)

/-- Writing over `other` from `v` is neither of the two orders. -/
def Undoes (last other : GuardedUpdate V) (v : V) : Prop :=
  last.write v ≠ last.apply (other.apply v) ∧ last.write v ≠ other.apply (last.apply v)

theorem not_undoes_iff {last other : GuardedUpdate V} {v : V} : ¬ Undoes last other v ↔
    last.write v = last.apply (other.apply v) ∨ last.write v = other.apply (last.apply v) := by
  rw [Undoes, not_and_or, not_not, not_not]

/-- Both updates have read when one of them writes, and the last one undoes the other. -/
def Lost (a b : GuardedUpdate V) (t : List (CellCall V ⊕ CellCall V)) (v : V) : Prop :=
  ReadsFirst t ∧ (LeftLast t ∧ Undoes a b v ∨ RightLast t ∧ Undoes b a v)

section Two
variable {a b : GuardedUpdate V} {v v' v₁ v₂ : V} {t : List (CellCall V ⊕ CellCall V)}

theorem eq_apply_apply (ha : a.accepts v₁) (hb : b.accepts v₂)
    (hsteps : Steps CellStep v (a.calls v₁ ++ b.calls v₂) v') : v' = b.apply (a.apply v) := by
  obtain ⟨rfl, rfl, rfl⟩ : v₁ = v ∧ v₂ = a.write v₁ ∧ v' = b.write v₂ := by
    simpa [calls, CellStep] using hsteps
  rw [apply_of_accepts ha, apply_of_accepts hb]

/-- The six orders of two updates: one after the other, or both reads before both writes. -/
theorem outcome (ha : a.accepts v₁) (hb : b.accepts v₂)
    (hshuffle : Shuffle (a.calls v₁) (b.calls v₂) t)
    (hsteps : Steps CellStep v (t.map unmark) v') :
    ¬ ReadsFirst t ∧ (v' = b.apply (a.apply v) ∨ v' = a.apply (b.apply v)) ∨
      ReadsFirst t ∧ a.accepts v ∧ b.accepts v ∧
        (LeftLast t ∧ ¬ RightLast t ∧ v' = a.write v ∨
          RightLast t ∧ ¬ LeftLast t ∧ v' = b.write v) := by
  cases hshuffle with
  | left _ h =>
    rcases h.one_two with rfl | rfl | rfl
    · exact .inl ⟨by simp [ReadsFirst], .inl (eq_apply_apply ha hb hsteps)⟩
    · obtain ⟨rfl, rfl, rfl⟩ : v₁ = v ∧ v₂ = v ∧ v' = b.write v₂ := by
        simpa [CellStep] using hsteps
      exact .inr ⟨by simp [ReadsFirst], ha, hb, .inr ⟨by simp [RightLast], by simp [LeftLast], rfl⟩⟩
    · obtain ⟨rfl, rfl, rfl⟩ : v₁ = v ∧ v₂ = v ∧ v' = a.write v₁ := by
        simpa [CellStep] using hsteps
      exact .inr ⟨by simp [ReadsFirst], ha, hb, .inl ⟨by simp [LeftLast], by simp [RightLast], rfl⟩⟩
  | right _ h =>
    rcases h.two_one with rfl | rfl | rfl
    · exact .inl ⟨by simp [ReadsFirst], .inr (eq_apply_apply hb ha hsteps)⟩
    · obtain ⟨rfl, rfl, rfl⟩ : v₂ = v ∧ v₁ = v ∧ v' = a.write v₁ := by
        simpa [CellStep] using hsteps
      exact .inr ⟨by simp [ReadsFirst], ha, hb, .inl ⟨by simp [LeftLast], by simp [RightLast], rfl⟩⟩
    · obtain ⟨rfl, rfl, rfl⟩ : v₂ = v ∧ v₁ = v ∧ v' = b.write v₂ := by
        simpa [CellStep] using hsteps
      exact .inr ⟨by simp [ReadsFirst], ha, hb, .inr ⟨by simp [RightLast], by simp [LeftLast], rfl⟩⟩

theorem accepts_of_readsFirst (ha : a.accepts v₁) (hb : b.accepts v₂)
    (hshuffle : Shuffle (a.calls v₁) (b.calls v₂) t)
    (hsteps : Steps CellStep v (t.map unmark) v') (h : ReadsFirst t) :
    a.accepts v ∧ b.accepts v := by
  rcases outcome ha hb hshuffle hsteps with ⟨hnot, -⟩ | ⟨-, hav, hbv, -⟩
  · exact absurd h hnot
  · exact ⟨hav, hbv⟩

/-- Two updates leave what one of the two orders leaves, unless one of them is lost. -/
theorem serial_iff (ha : a.accepts v₁) (hb : b.accepts v₂)
    (hshuffle : Shuffle (a.calls v₁) (b.calls v₂) t)
    (hsteps : Steps CellStep v (t.map unmark) v') :
    (v' = b.apply (a.apply v) ∨ v' = a.apply (b.apply v)) ↔ ¬ Lost a b t v := by
  rcases outcome ha hb hshuffle hsteps with ⟨hnot, hserial⟩ | ⟨hreads, -, -, hlast⟩
  · exact iff_of_true hserial fun hlost => hnot hlost.1
  · rcases hlast with ⟨hleft, hright, rfl⟩ | ⟨hright, hleft, rfl⟩
    · have hlost : Lost a b t v ↔ Undoes a b v := by simp [Lost, hreads, hleft, hright]
      rw [hlost, not_undoes_iff]
      exact or_comm
    · have hlost : Lost a b t v ↔ Undoes b a v := by simp [Lost, hreads, hleft, hright]
      rw [hlost, not_undoes_iff]

end Two
end GuardedUpdate
end VariousStuff.Interactive
