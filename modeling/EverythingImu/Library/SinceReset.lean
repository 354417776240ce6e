import Mathlib.Algebra.BigOperators.Group.List.Basic
import Mathlib.Data.List.DropRight

/-!
# Sums since the last reset

A quantity that is summed up over a log of entries and starts again at the entries that reset it.  A resetting entry may
itself leave something (`kept`); every later one adds its `amount`.
-/

namespace SinceReset

variable {α K : Type*} [AddMonoid K]

/-- What the last resetting entry keeps and the amounts of the entries after it. -/
def sumSince (resets : α → Bool) (kept amount : α → K) (log : List α) : K :=
  (log.rdropWhile fun e => !resets e).getLast?.elim 0 kept + ((log.rtakeWhile fun e => !resets e).map amount).sum

variable {resets : α → Bool} {kept amount : α → K}

@[simp] theorem sumSince_nil : sumSince resets kept amount [] = 0 := by simp [sumSince]

theorem sumSince_concat_of_reset (log : List α) {e : α} (h : resets e = true) :
    sumSince resets kept amount (log ++ [e]) = kept e := by
  rw [sumSince, List.rdropWhile_concat_neg _ _ _ (by simp [h]), List.rtakeWhile_concat_neg _ _ _ (by simp [h])]
  simp

theorem sumSince_concat (log : List α) {e : α} (h : resets e = false) :
    sumSince resets kept amount (log ++ [e]) = sumSince resets kept amount log + amount e := by
  rw [sumSince, sumSince, List.rdropWhile_concat_pos _ _ _ (by simp [h]),
    List.rtakeWhile_concat_pos _ _ _ (by simp [h])]
  simp [add_assoc]

end SinceReset
