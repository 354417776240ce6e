import Mathlib.Data.Fintype.EquivFin

/-!
# What has held since

The past operator `since` over a log that is read in order: `Since P Q log` says that some entry satisfies `P`, given
the entries before it, and that no later entry satisfies `Q`.  A state that `P` sets and `Q` clears holds in this sense
(`since_concat`).
-/

namespace PastTime

variable {α : Type*} {P : List α → α → Prop} {Q : α → Prop}

/-- An entry has `P`, and none after it has `Q`. -/
def Since (P : List α → α → Prop) (Q : α → Prop) (log : List α) : Prop :=
  ∃ before e after, log = before ++ e :: after ∧ P before e ∧ ∀ e' ∈ after, ¬ Q e'

@[simp] theorem not_since_nil : ¬ Since P Q [] := by
  rintro ⟨before, e, after, h, -⟩
  exact absurd h (by simp)

/-- The last entry sets it, or leaves it as it was. -/
theorem since_concat (log : List α) (e : α) : Since P Q (log ++ [e]) ↔ P log e ∨ (¬ Q e ∧ Since P Q log) := by
  constructor
  · rintro ⟨before, e', after, h, hp, hq⟩
    rcases List.eq_nil_or_concat' after with rfl | ⟨after, last, rfl⟩
    · obtain ⟨rfl, hlast⟩ := List.append_inj' h rfl
      obtain rfl := List.singleton_inj.1 hlast
      exact Or.inl hp
    · rw [← List.cons_append, ← List.append_assoc] at h
      obtain ⟨rfl, hlast⟩ := List.append_inj' h rfl
      obtain rfl := List.singleton_inj.1 hlast
      exact Or.inr ⟨hq _ (by simp), before, e', after, rfl, hp, fun e₁ he => hq e₁ (by simp [he])⟩
  · rintro (hp | ⟨hq, before, e', after, rfl, hp, hafter⟩)
    · exact ⟨log, e, [], rfl, hp, by simp⟩
    · refine ⟨before, e', after ++ [e], by simp, hp, fun e₁ he => ?_⟩
      rcases List.mem_append.1 he with he | he
      · exact hafter e₁ he
      · rw [List.mem_singleton.1 he]
        exact hq

theorem Since.exists_mem {log : List α} (h : Since P Q log) : ∃ before, ∃ e ∈ log, P before e := by
  obtain ⟨before, e, after, rfl, hp, -⟩ := h
  exact ⟨before, e, by simp, hp⟩

/-- The entry at `i` is such an entry. -/
def SinceAt (P : List α → α → Prop) (Q : α → Prop) (log : List α) (i : Fin log.length) : Prop :=
  P (log.take i) (log.get i) ∧ ∀ e ∈ log.drop (i + 1), ¬ Q e

theorem exists_sinceAt_iff {log : List α} : (∃ i, SinceAt P Q log i) ↔ Since P Q log := by
  constructor
  · rintro ⟨i, hp, hq⟩
    refine ⟨log.take i, log.get i, log.drop (i + 1), ?_, hp, hq⟩
    rw [List.get_eq_getElem, List.getElem_cons_drop, List.take_append_drop]
  · rintro ⟨before, e, after, rfl, hp, hq⟩
    refine ⟨⟨before.length, by simp⟩, ?_, ?_⟩
    · simpa using hp
    · simpa using hq

instance [∀ before e, Decidable (P before e)] [DecidablePred Q] (log : List α) (i : Fin log.length) :
    Decidable (SinceAt P Q log i) :=
  inferInstanceAs (Decidable (_ ∧ _))

instance [∀ before e, Decidable (P before e)] [DecidablePred Q] (log : List α) : Decidable (Since P Q log) :=
  decidable_of_iff _ exists_sinceAt_iff

end PastTime
