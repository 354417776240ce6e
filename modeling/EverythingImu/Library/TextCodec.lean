import Mathlib.Logic.Encodable.Basic
import Mathlib.Logic.Equiv.List

/-!
# Texts for the values of a type

A pair of functions between the values of an encodable type and texts, with given texts for the values of a table.  A
value that is not in the table gets one stroke more than its number, so that the empty text stands for none.  Every
value is read back from its text (`parse_print`), as long as no two values of the table have one text and none has a
text of strokes only.
-/

namespace TextCodec

variable {α : Type*} [DecidableEq α] [Encodable α]

def print (table : List (α × String)) (a : α) : String :=
  match table.find? fun p => decide (p.1 = a) with
  | some p => p.2
  | none => .ofList (.replicate (Encodable.encode a + 1) '|')

def parse (table : List (α × String)) (text : String) : Option α :=
  match table.find? fun p => decide (p.2 = text) with
  | some p => some p.1
  | none =>
    match text.toList.length with
    | 0 => none
    | n + 1 => Encodable.decode n

/-- The texts of the table differ, and none of them is strokes only. -/
structure Table (table : List (α × String)) : Prop where
  distinct : table.Pairwise fun p q => p.2 ≠ q.2
  notStrokes : ∀ p ∈ table, p.2.toList.any fun c => decide (c ≠ '|')

omit [DecidableEq α] [Encodable α] in
/-- The first entry with the text of an entry is that entry. -/
private theorem find_text {table : List (α × String)} (h : table.Pairwise fun p q => p.2 ≠ q.2) {p : α × String}
    (hp : p ∈ table) : table.find? (fun q => decide (q.2 = p.2)) = some p := by
  induction table with
  | nil => cases hp
  | cons q table ih =>
    rw [List.pairwise_cons] at h
    rcases List.mem_cons.1 hp with rfl | hp
    · simp
    · rw [List.find?_cons_of_neg (by simpa using h.1 p hp)]
      exact ih h.2 hp

theorem parse_print {table : List (α × String)} (h : Table table) (a : α) : parse table (print table a) = some a := by
  unfold print
  split
  · rename_i p hp
    have ha : p.1 = a := by simpa using List.find?_some hp
    unfold parse
    rw [find_text h.distinct (List.mem_of_find?_eq_some hp)]
    simp only [ha]
  · have hnone : table.find? (fun q => decide (q.2 = .ofList (.replicate (Encodable.encode a + 1) '|'))) = none := by
      rw [List.find?_eq_none]
      intro q hq heq
      have hstrokes := h.notStrokes q hq
      rw [of_decide_eq_true heq, String.toList_ofList] at hstrokes
      simp at hstrokes
    unfold parse
    rw [hnone]
    simp only [String.toList_ofList, List.length_replicate, Encodable.encodek]

omit [DecidableEq α] in
/-- The empty text stands for no value, unless the table has it. -/
theorem parse_empty {table : List (α × String)} (h : ∀ p ∈ table, p.2 ≠ "") : parse table "" = none := by
  have hnone : table.find? (fun q => decide (q.2 = "")) = none := by
    rw [List.find?_eq_none]
    intro q hq heq
    exact h q hq (of_decide_eq_true heq)
  unfold parse
  rw [hnone]
  rfl

end TextCodec
