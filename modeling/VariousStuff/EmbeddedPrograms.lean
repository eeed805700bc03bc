import VariousStuff.TotalPreconditions

/-!
# Programs as parts of programs with more kinds of calls

A program over one kind of calls runs unchanged where a second kind exists, and what is
known of its own transcripts is known of its part of the whole transcript.
-/
namespace VariousStuff.Interactive

variable {Op Op' : Type} {Ans : Op → Type} {Ans' : Op' → Type} {α β : Type}

/-- The answers to calls of two kinds. -/
abbrev BothAns (Ans : Op → Type) (Ans' : Op' → Type) : Op ⊕ Op' → Type
  | .inl op => Ans op
  | .inr op => Ans' op

/-- A call of the first kind among both. -/
def embedEvent (Ans' : Op' → Type) (e : Σ op, Ans op) : Σ op, BothAns Ans Ans' op := ⟨.inl e.1, e.2⟩

/-- The calls of the first kind. -/
def leftPart (t : Transcript (BothAns Ans Ans')) : Transcript Ans :=
  t.filterMap fun
    | ⟨.inl op, x⟩ => some ⟨op, x⟩
    | ⟨.inr _, _⟩ => none

/-- The calls of the second kind. -/
def rightPart (t : Transcript (BothAns Ans Ans')) : Transcript Ans' :=
  t.filterMap fun
    | ⟨.inl _, _⟩ => none
    | ⟨.inr op, x⟩ => some ⟨op, x⟩

section Parts
variable {t u : Transcript (BothAns Ans Ans')}

theorem leftPart_append : leftPart (t ++ u) = leftPart t ++ leftPart u := List.filterMap_append

theorem rightPart_append : rightPart (t ++ u) = rightPart t ++ rightPart u := List.filterMap_append

theorem leftPart_embed (v : Transcript Ans) : leftPart (v.map (embedEvent Ans')) = v := by
  induction v with
  | nil => rfl
  | cons e v ih => exact congrArg (e :: ·) ih

theorem rightPart_embed (v : Transcript Ans) : rightPart (v.map (embedEvent Ans')) = [] := by
  induction v with
  | nil => rfl
  | cons e v ih => exact ih

end Parts

namespace Prog

/-- The same program where calls of a second kind exist. -/
def embed (Ans' : Op' → Type) : Prog Ans α → Prog (BothAns Ans Ans') α
  | .ret a => .ret a
  | .call op next => .call (.inl op) fun x => (next x).embed Ans'
  | .outOfFuel => .outOfFuel

/-- Make one call of the second kind. -/
def askRight (Ans : Op → Type) (op : Op') : Prog (BothAns Ans Ans') (Ans' op) :=
  .call (.inr op) .ret

@[simp] theorem embed_ret (a : α) : (ret a : Prog Ans α).embed Ans' = .ret a := rfl

/-- The part of the transcript that an embedded program adds is one of its own. -/
theorem twp_embed {Q : α → Transcript Ans → Prop} {p : Prog Ans α} {u : Transcript Ans}
    (h : p.twp Q u) (t : Transcript (BothAns Ans Ans')) :
    (p.embed Ans').twp (fun a v => ∃ w, Q a (u ++ w) ∧ v = t ++ w.map (embedEvent Ans')) t := by
  induction p generalizing u t with
  | ret a =>
    refine ⟨[], ?_, ?_⟩
    · rwa [List.append_nil]
    · simp
  | call op next ih =>
    intro x
    refine twp_mono (ih x (h x) (t ++ [⟨.inl op, x⟩])) ?_
    intro a v hv
    obtain ⟨w, hQ, rfl⟩ := hv
    refine ⟨⟨op, x⟩ :: w, ?_, ?_⟩
    · rwa [List.append_assoc] at hQ
    · rw [List.append_assoc]
      rfl
  | outOfFuel => exact h.elim

end Prog
end VariousStuff.Interactive
