import Mathlib.Data.List.Basic

/-! # Lists of distinct elements in the order of their first occurrence -/
namespace VariousStuff.FirstOccurrences

variable {α : Type} [DecidableEq α]

/-- A new element goes to the end; a known one changes nothing. -/
def insertNew (l : List α) (x : α) : List α := if x ∈ l then l else l ++ [x]

theorem insertNew_of_mem {l : List α} {x : α} (h : x ∈ l) : insertNew l x = l := if_pos h

theorem insertNew_of_notMem {l : List α} {x : α} (h : x ∉ l) : insertNew l x = l ++ [x] := if_neg h

theorem eraseDups_concat (l : List α) (x : α) :
    (l ++ [x]).eraseDups = insertNew l.eraseDups x := by
  rw [List.eraseDups_append]
  by_cases h : x ∈ l
  · rw [insertNew_of_mem (List.mem_eraseDups.mpr h)]
    simp [List.removeAll, h]
  · rw [insertNew_of_notMem fun hx => h (List.mem_eraseDups.mp hx)]
    simp [List.removeAll, h, List.eraseDups_cons]

end VariousStuff.FirstOccurrences
