import Mathlib.Data.List.Basic

/-!
# Lists without duplicates

Erasing the duplicates of a list keeps the first of equal elements: what was distinct stays as it is and in front
(`eraseDups_append_of_nodup`).  A list that is split at a separator has pieces without it (`not_mem_of_mem_splitOn`).
-/

namespace DistinctList

variable {α : Type} [BEq α] [LawfulBEq α]

theorem nodup_eraseDups (l : List α) : l.eraseDups.Nodup := by
  induction hn : l.length using Nat.strongRecOn generalizing l with
  | ind n ih =>
    subst hn
    cases l with
    | nil => exact List.nodup_nil
    | cons a l =>
      rw [List.eraseDups_cons, List.nodup_cons, List.mem_eraseDups]
      refine ⟨?_, ih _ (Nat.lt_succ_of_le (List.length_filter_le _ _)) _ rfl⟩
      simp

theorem eraseDups_eq_self {l : List α} (h : l.Nodup) : l.eraseDups = l := by
  induction l with
  | nil => rfl
  | cons a l ih =>
    obtain ⟨hnot, hl⟩ := List.nodup_cons.1 h
    have hfilter : l.filter (fun b => !b == a) = l := by
      refine List.filter_eq_self.2 fun b hb => ?_
      have hne : b ≠ a := fun heq => hnot (heq ▸ hb)
      simpa using hne
    rw [List.eraseDups_cons, hfilter, ih hl]

/-- What has been erased does not matter for what follows. -/
theorem eraseDups_eraseDups_append (a b : List α) : (a.eraseDups ++ b).eraseDups = (a ++ b).eraseDups := by
  have hsame : b.removeAll a.eraseDups = b.removeAll a := by
    refine List.filter_congr fun x _ => ?_
    rw [Bool.not_inj_iff, Bool.eq_iff_iff, List.elem_iff, List.elem_iff, List.mem_eraseDups]
  rw [List.eraseDups_append, List.eraseDups_append, eraseDups_eq_self (nodup_eraseDups a), hsame]

/-- The distinct elements stay in front, in their order. -/
theorem prefix_eraseDups_append (a b : List α) : a.eraseDups <+: (a ++ b).eraseDups := by
  rw [List.eraseDups_append]
  exact List.prefix_append _ _

/-- Nothing is added to a list of distinct elements that has everything already. -/
theorem eraseDups_append_of_nodup {a b : List α} (ha : a.Nodup) (hb : ∀ x ∈ b, x ∈ a) : (a ++ b).eraseDups = a := by
  have hnone : b.removeAll a = [] := by
    refine List.filter_eq_nil_iff.2 fun x hx => ?_
    simp [hb x hx]
  rw [List.eraseDups_append, eraseDups_eq_self ha, hnone, List.eraseDups_nil, List.append_nil]

/-- The pieces between the separators do not have the separator. -/
theorem not_mem_of_mem_splitOn {a : α} {l piece : List α} (h : piece ∈ l.splitOn a) : a ∉ piece := by
  induction l generalizing piece with
  | nil =>
    rw [List.splitOn_nil, List.mem_singleton] at h
    rw [h]
    exact List.not_mem_nil
  | cons b l ih =>
    rw [List.splitOn_cons_eq_if_modifyHead] at h
    split at h
    · rcases List.mem_cons.1 h with rfl | h
      · exact List.not_mem_nil
      · exact ih h
    · rename_i hne
      cases hsplit : l.splitOn a with
      | nil => exact absurd hsplit (List.splitOn_ne_nil a l)
      | cons first rest =>
        rw [hsplit, List.modifyHead_cons] at h
        rcases List.mem_cons.1 h with rfl | h
        · have hfirst := ih (hsplit ▸ List.mem_cons_self)
          rw [List.mem_cons, not_or]
          exact ⟨fun heq => hne (beq_iff_eq.2 heq.symm), hfirst⟩
        · exact ih (hsplit ▸ List.mem_cons_of_mem _ h)

end DistinctList
