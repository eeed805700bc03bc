import Mathlib.Data.List.Basic
import Mathlib.Data.Nat.Find
import Mathlib.Data.Nat.Notation

/-! # Searches in lexicographic order that stop at the first find -/
namespace VariousStuff.LexicographicSearch

variable {α β γ : Type}

/-- The elements up to and including the first one at which `f` finds something. -/
def throughFirst (f : α → Option β) : List α → List α
  | [] => []
  | x :: xs => if (f x).isSome then [x] else x :: throughFirst f xs

theorem throughFirst_of_some {f : α → Option β} {x : α} {b : β} (h : f x = some b)
    (xs : List α) : throughFirst f (x :: xs) = [x] := by
  simp [throughFirst, h]

theorem throughFirst_of_none {f : α → Option β} {x : α} (h : f x = none) (xs : List α) :
    throughFirst f (x :: xs) = x :: throughFirst f xs := by
  simp [throughFirst, h]

theorem findSome?_cons_eq_or (f : α → Option β) (x : α) (xs : List α) :
    (x :: xs).findSome? f = (f x).or (xs.findSome? f) := by
  rw [List.findSome?_cons]
  cases f x <;> rfl

theorem findSome?_flatMap (f : β → Option γ) (g : α → List β) (xs : List α) :
    (xs.flatMap g).findSome? f = xs.findSome? fun x => (g x).findSome? f := by
  induction xs with
  | nil => rfl
  | cons x xs ih =>
    rw [List.flatMap_cons, List.findSome?_append, ih, List.findSome?_cons]
    cases (g x).findSome? f <;> rfl

theorem findSome?_range_eq_some_iff (f : ℕ → Option β) (n : ℕ) (b : β) :
    (List.range n).findSome? f = some b ↔ ∃ i < n, f i = some b ∧ ∀ j < i, f j = none := by
  rw [List.findSome?_eq_some_iff, List.range_eq_range']
  constructor
  · rintro ⟨before, i, after, hsplit, hb, hbefore⟩
    obtain ⟨k, -, rfl, hcons⟩ := List.range'_eq_append_iff.mp hsplit
    obtain ⟨rfl, hpos, -⟩ := List.range'_eq_cons_iff.mp hcons.symm
    refine ⟨0 + k * 1, by omega, hb, ?_⟩
    intro j hj
    exact hbefore j (List.mem_range'_1.mpr (by omega))
  · rintro ⟨i, hi, hb, hbefore⟩
    have hsplit : List.range' 0 n = List.range' 0 i ++ i :: List.range' (i + 1) (n - i - 1) :=
      List.range'_eq_append_iff.mpr ⟨i, by omega, rfl,
        (List.range'_eq_cons_iff.mpr ⟨by omega, by omega, rfl⟩).symm⟩
    refine ⟨_, i, _, hsplit, hb, ?_⟩
    intro j hj
    have hlt := List.mem_range'_1.mp hj
    exact hbefore j (by omega)

theorem findSome?_range_eq_none_iff (f : ℕ → Option β) (n : ℕ) :
    (List.range n).findSome? f = none ↔ ∀ i < n, f i = none := by
  simp [List.findSome?_eq_none_iff]

theorem findSome?_rows_eq_some_iff (f : ℕ → ℕ → Option β) (n m : ℕ) (b : β) :
    ((List.range n).findSome? fun i => (List.range m).findSome? (f i)) = some b ↔
      ∃ i < n, ∃ k < m, f i k = some b ∧
        ∀ i' < n, ∀ k' < m, f i' k' ≠ none → i < i' ∨ i = i' ∧ k ≤ k' := by
  rw [findSome?_range_eq_some_iff]
  constructor
  · rintro ⟨i, hi, hfound, hrows⟩
    obtain ⟨k, hk, hb, hslots⟩ := (findSome?_range_eq_some_iff _ _ _).mp hfound
    refine ⟨i, hi, k, hk, hb, fun i' _ k' hk' hne => ?_⟩
    rcases Nat.lt_trichotomy i i' with hlt | rfl | hgt
    · exact Or.inl hlt
    · exact Or.inr ⟨rfl, Nat.le_of_not_lt fun hlt => hne (hslots k' hlt)⟩
    · exact absurd ((findSome?_range_eq_none_iff _ _).mp (hrows i' hgt) k' hk') hne
  · rintro ⟨i, hi, k, hk, hb, hfirst⟩
    refine ⟨i, hi, (findSome?_range_eq_some_iff _ _ _).mpr ⟨k, hk, hb, fun k' hk' => ?_⟩,
      fun i' hi' => (findSome?_range_eq_none_iff _ _).mpr fun k' hk' => ?_⟩
    · by_contra hne
      have := hfirst i hi k' (Nat.lt_trans hk' hk) hne
      omega
    · by_contra hne
      have := hfirst i' (Nat.lt_trans hi' hi) k' hk' hne
      omega

/-- Among the pairs with a property one comes first. -/
theorem exists_first_pair {P : ℕ → ℕ → Prop} (h : ∃ i k, P i k) :
    ∃ i k, P i k ∧ ∀ i' k', P i' k' → i < i' ∨ i = i' ∧ k ≤ k' := by
  classical
  have hrow : ∃ k, P (Nat.find h) k := Nat.find_spec h
  refine ⟨Nat.find h, Nat.find hrow, Nat.find_spec hrow, fun i' k' hpair => ?_⟩
  have hle : Nat.find h ≤ i' := Nat.find_min' h ⟨k', hpair⟩
  rcases Nat.lt_or_eq_of_le hle with hlt | rfl
  · exact Or.inl hlt
  · exact Or.inr ⟨rfl, Nat.find_min' hrow hpair⟩

end VariousStuff.LexicographicSearch
