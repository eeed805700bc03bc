import Mathlib.Data.List.Sort
import Mathlib.Order.Basic

/-! # Order statistics

The element of rank `k` leaves at most `k` elements below it, and has more than `k` up to
it. Any sorted list has it at position `k`, and a majority of the elements confines it. -/
namespace VariousStuff.OrderStatistics

variable {α : Type} [LinearOrder α] {l l' : List α} {k : ℕ} {m m' : α}

/-- `m` is the element at position `k`, counted from the smallest one. -/
structure HasRank (l : List α) (k : ℕ) (m : α) : Prop where
  below : l.countP (· < m) ≤ k
  upTo : k < l.countP (· ≤ m)

theorem countP_lt_mono {x y : α} (h : x ≤ y) : l.countP (· < x) ≤ l.countP (· < y) := by
  apply List.countP_mono_left
  intro z _ hz
  simp only [decide_eq_true_eq] at hz ⊢
  exact lt_of_lt_of_le hz h

theorem countP_le_of_lt {x y : α} (h : x < y) : l.countP (· ≤ x) ≤ l.countP (· < y) := by
  apply List.countP_mono_left
  intro z _ hz
  simp only [decide_eq_true_eq] at hz ⊢
  exact lt_of_le_of_lt hz h

theorem countP_le_mono {x y : α} (h : x ≤ y) : l.countP (· ≤ x) ≤ l.countP (· ≤ y) := by
  apply List.countP_mono_left
  intro z _ hz
  simp only [decide_eq_true_eq] at hz ⊢
  exact le_trans hz h

namespace HasRank

/-- The bounds from below are the elements with few elements under them. -/
theorem le_iff (h : HasRank l k m) {x : α} : x ≤ m ↔ l.countP (· < x) ≤ k := by
  constructor
  · intro hx
    exact Nat.le_trans (countP_lt_mono hx) h.below
  · intro hx
    by_contra hlt
    have hcount := countP_le_of_lt (l := l) (lt_of_not_ge hlt)
    have hupTo := h.upTo
    omega

theorem ge_iff (h : HasRank l k m) {x : α} : m ≤ x ↔ k < l.countP (· ≤ x) := by
  constructor
  · intro hx
    exact Nat.lt_of_lt_of_le h.upTo (countP_le_mono hx)
  · intro hx
    by_contra hlt
    have hcount := countP_le_of_lt (l := l) (lt_of_not_ge hlt)
    have hbelow := h.below
    omega

theorem unique (h : HasRank l k m) (h' : HasRank l k m') : m = m' :=
  le_antisymm (h'.le_iff.mpr h.below) (h.le_iff.mpr h'.below)

theorem perm (h : HasRank l k m) (hperm : l.Perm l') : HasRank l' k m where
  below := by
    rw [← hperm.countP_eq]
    exact h.below
  upTo := by
    rw [← hperm.countP_eq]
    exact h.upTo

theorem mem_interval (h : HasRank l k m) {lo hi : α} (hlength : l.length ≤ 2 * k + 1)
    (hmost : k < l.countP fun x => lo ≤ x ∧ x ≤ hi) : lo ≤ m ∧ m ≤ hi := by
  refine ⟨?_, ?_⟩
  · rw [h.le_iff]
    have hinside : (l.countP fun x => lo ≤ x ∧ x ≤ hi) ≤
        l.countP fun x => ¬ decide (x < lo) = true := by
      apply List.countP_mono_left
      intro x _ hx
      simp only [decide_eq_true_eq] at hx
      simp [hx.1]
    have hsplit := List.length_eq_countP_add_countP (fun x => decide (x < lo)) (l := l)
    omega
  · rw [h.ge_iff]
    refine Nat.lt_of_lt_of_le hmost (List.countP_mono_left ?_)
    intro x _ hx
    simp only [decide_eq_true_eq] at hx ⊢
    exact hx.2

end HasRank

theorem hasRank_getElem (hsorted : l.Pairwise (· ≤ ·)) (hk : k < l.length) : HasRank l k l[k] := by
  have hsplit : l = l.take k ++ l[k] :: l.drop (k + 1) := by
    rw [List.getElem_cons_drop, List.take_append_drop]
  have hlength : (l.take k).length = k := List.length_take_of_le (Nat.le_of_lt hk)
  obtain ⟨m, hm⟩ : ∃ m, m = l[k] := ⟨_, rfl⟩
  rw [← hm] at hsplit ⊢
  rw [hsplit, List.pairwise_append, List.pairwise_cons] at hsorted
  obtain ⟨-, ⟨hafter, -⟩, hbefore⟩ := hsorted
  constructor
  · have hrest : (m :: l.drop (k + 1)).countP (· < m) = 0 := by
      rw [List.countP_eq_zero]
      intro x hx
      rcases List.mem_cons.mp hx with rfl | hx
      · simp
      · simpa using hafter x hx
    have htake := List.countP_le_length (p := fun x => decide (x < m)) (l := l.take k)
    rw [hsplit, List.countP_append, hrest]
    omega
  · have htake : (l.take k).countP (· ≤ m) = (l.take k).length := by
      rw [List.countP_eq_length]
      intro x hx
      simpa using hbefore x hx m List.mem_cons_self
    rw [hsplit, List.countP_append, htake, hlength, List.countP_cons_of_pos (by simp)]
    omega

end VariousStuff.OrderStatistics
