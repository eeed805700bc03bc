import Mathlib.Data.List.Nodup
import Mathlib.Logic.Function.Basic

/-! # Parallel moves carried out one after another

A list of register moves is meant to deliver all its sources at once. Executed in
order, a move may read what an earlier one has already overwritten. -/
namespace VariousStuff.SequentialMoves

variable {R V : Type} [DecidableEq R]

/-- `dst` receives the contents of `src`. -/
structure Move (R : Type) where
  dst : R
  src : R
  deriving DecidableEq

def Move.apply (m : Move R) (s : R → V) : R → V := Function.update s m.dst (s m.src)

/-- The moves in order. -/
def run : List (Move R) → (R → V) → R → V
  | [], s => s
  | m :: ms, s => run ms (m.apply s)

/-- Every destination ends with what its source held at the start. -/
def Delivered (ms : List (Move R)) (s : R → V) : Prop := ∀ m ∈ ms, run ms s m.dst = s m.src

/-- No move reads a destination of an earlier move, unless both sources agree. -/
def Unclobbered (ms : List (Move R)) (s : R → V) : Prop :=
  ms.Pairwise fun m m' => m'.src = m.dst → s m.src = s m'.src

theorem Move.apply_dst (m : Move R) (s : R → V) : m.apply s m.dst = s m.src :=
  Function.update_self _ _ _

theorem Move.apply_of_ne {m : Move R} {r : R} (h : r ≠ m.dst) (s : R → V) : m.apply s r = s r :=
  Function.update_of_ne h _ _

theorem run_of_notMem {ms : List (Move R)} {r : R} (h : r ∉ ms.map Move.dst) (s : R → V) :
    run ms s r = s r := by
  induction ms generalizing s with
  | nil => rfl
  | cons m ms ih =>
    rw [List.map_cons, List.mem_cons, not_or] at h
    rw [run, ih h.2, Move.apply_of_ne h.1]

theorem run_dst_of_src_notMem {ms : List (Move R)} (hdst : (ms.map Move.dst).Nodup) {m : Move R}
    (hm : m ∈ ms) (hsrc : m.src ∉ ms.map Move.dst) (s : R → V) : run ms s m.dst = s m.src := by
  induction ms generalizing s with
  | nil => cases hm
  | cons m' ms ih =>
    rw [List.map_cons, List.nodup_cons] at hdst
    rw [List.map_cons, List.mem_cons, not_or] at hsrc
    rcases List.mem_cons.mp hm with rfl | hm
    · rw [run, run_of_notMem hdst.1, Move.apply_dst]
    · rw [run, ih hdst.2 hm hsrc.2, Move.apply_of_ne hsrc.1]

/-- A first move that changes no later source can be put aside. -/
theorem delivered_cons_of_agree {m : Move R} {ms : List (Move R)}
    (hdst : m.dst ∉ ms.map Move.dst) {s : R → V}
    (h : ∀ m' ∈ ms, m.apply s m'.src = s m'.src) :
    Delivered (m :: ms) s ↔ Delivered ms (m.apply s) := by
  have hhead : run (m :: ms) s m.dst = s m.src := by
    rw [run, run_of_notMem hdst, Move.apply_dst]
  constructor
  · intro hall m' hm'
    rw [h m' hm']
    exact hall m' (List.mem_cons_of_mem m hm')
  · intro hall m' hm'
    rcases List.mem_cons.mp hm' with rfl | hm'
    · exact hhead
    · rw [← h m' hm']
      exact hall m' hm'

omit [DecidableEq R] in
theorem unclobbered_congr {ms : List (Move R)} {s s' : R → V} (h : ∀ m ∈ ms, s' m.src = s m.src) :
    Unclobbered ms s' ↔ Unclobbered ms s := by
  apply List.Pairwise.iff_of_mem
  intro m m' hm hm'
  rw [h m hm, h m' hm']

/-- The moves deliver all sources exactly when none of them is clobbered. -/
theorem delivered_iff_unclobbered {ms : List (Move R)} (hdst : (ms.map Move.dst).Nodup)
    (s : R → V) : Delivered ms s ↔ Unclobbered ms s := by
  induction ms generalizing s with
  | nil => exact ⟨fun _ => List.Pairwise.nil, fun _ m hm => nomatch hm⟩
  | cons m ms ih =>
    rw [List.map_cons, List.nodup_cons] at hdst
    have hagree : (∀ m' ∈ ms, m'.src = m.dst → s m.src = s m'.src) →
        ∀ m' ∈ ms, m.apply s m'.src = s m'.src := by
      intro h m' hm'
      by_cases hsrc : m'.src = m.dst
      · rw [hsrc, Move.apply_dst, h m' hm' hsrc, hsrc]
      · exact Move.apply_of_ne hsrc s
    rw [Unclobbered, List.pairwise_cons]
    constructor
    · intro hall
      have hhead : ∀ m' ∈ ms, m'.src = m.dst → s m.src = s m'.src := by
        intro m' hm' hsrc
        have hread := run_dst_of_src_notMem hdst.2 hm' (hsrc ▸ hdst.1) (m.apply s)
        rw [hsrc, Move.apply_dst] at hread
        exact hread.symm.trans (hall m' (List.mem_cons_of_mem m hm'))
      refine ⟨hhead, (unclobbered_congr (hagree hhead)).mp ((ih hdst.2 _).mp ?_)⟩
      exact (delivered_cons_of_agree hdst.1 (hagree hhead)).mp hall
    · rintro ⟨hhead, htail⟩
      apply (delivered_cons_of_agree hdst.1 (hagree hhead)).mpr
      exact (ih hdst.2 _).mpr ((unclobbered_congr (hagree hhead)).mpr htail)

end VariousStuff.SequentialMoves
