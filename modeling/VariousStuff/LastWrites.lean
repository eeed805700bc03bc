import Mathlib.Data.List.Basic
import Mathlib.Data.List.Perm.Basic

/-! # A view of the state that some steps overwrite and the others leave alone

After a list of steps the view shows the last value written to it. -/
namespace VariousStuff.LastWrites

variable {σ ι β : Type} {step : σ → ι → σ} {view : σ → β} {written : ι → Option β}

/-- Each step writes its value to the view, if it has one. -/
def Overwrites (step : σ → ι → σ) (view : σ → β) (written : ι → Option β) : Prop :=
  ∀ s i, view (step s i) = (written i).getD (view s)

theorem view_foldl (h : Overwrites step view written) (steps : List ι) (s : σ) :
    view (steps.foldl step s) = ((steps.filterMap written).getLast?).getD (view s) := by
  induction steps generalizing s with
  | nil => rfl
  | cons i steps ih =>
    rw [List.foldl_cons, ih, h]
    cases hi : written i with
    | none => rw [List.filterMap_cons_none hi, Option.getD_none]
    | some b =>
      rw [List.filterMap_cons_some hi, List.getLast?_cons]
      rfl

theorem view_foldl_append_cons (h : Overwrites step view written) (before after : List ι) {i : ι}
    {b : β} (hi : written i = some b) (s : σ) :
    view ((before ++ i :: after).foldl step s) =
      ((after.filterMap written).getLast?).getD b := by
  rw [List.foldl_append, List.foldl_cons, view_foldl h, h, hi]
  rfl

theorem eq_of_perm_of_forall_eq {l l' : List β} (hperm : l'.Perm l)
    (hsame : ∀ b ∈ l, ∀ b' ∈ l, b = b') : l' = l := by
  cases l with
  | nil => exact hperm.eq_nil
  | cons b l =>
    have hl : b :: l = List.replicate (l.length + 1) b :=
      List.eq_replicate_of_mem fun b' hb' => hsame b' hb' b List.mem_cons_self
    rw [hl] at hperm ⊢
    exact List.perm_replicate.mp hperm

/-- The order of the steps does not matter exactly if all of them write the same. -/
theorem forall_perm_view_iff (h : Overwrites step view written) (steps : List ι) (s : σ) :
    (∀ steps' : List ι, steps'.Perm steps →
        view (steps'.foldl step s) = view (steps.foldl step s)) ↔
      ∀ b ∈ steps.filterMap written, ∀ b' ∈ steps.filterMap written, b = b' := by
  constructor
  · intro horder
    -- any value written can be the last one
    have hlast : ∀ b ∈ steps.filterMap written, b = view (steps.foldl step s) := by
      intro b hb
      obtain ⟨i, hi, hwritten⟩ := List.mem_filterMap.mp hb
      obtain ⟨before, after, rfl⟩ := List.append_of_mem hi
      have hperm : (before ++ after ++ i :: []).Perm (before ++ i :: after) := by
        rw [List.append_assoc]
        exact (List.perm_append_singleton i after).append_left before
      rw [← horder _ hperm, view_foldl_append_cons h (before ++ after) [] hwritten]
      rfl
    intro b hb b' hb'
    rw [hlast b hb, ← hlast b' hb']
  · intro hsame steps' hperm
    rw [view_foldl h, view_foldl h, eq_of_perm_of_forall_eq (hperm.filterMap written) hsame]

end VariousStuff.LastWrites
