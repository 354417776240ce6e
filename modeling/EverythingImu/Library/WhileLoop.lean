import Mathlib.Algebra.Order.Floor.Semiring
import Mathlib.Data.Rat.Floor
import Mathlib.Tactic.Linarith

/-!
# While loops

A loop with a bound on its turns: `none` means that the bound was reached, so a loop that ends is one that gives a
result for some bound.  The rules are those of a program logic: an invariant of the body holds at the end
(`whileLoop_invariant`), a rank that every turn lowers ends the loop (`whileLoop_terminates`), and a state that a turn
leaves as it is keeps the loop going forever (`whileLoop_diverges`).
-/

variable {σ : Type*} {guard : σ → Prop} [DecidablePred guard] {body : σ → σ} {s s' : σ}

def whileLoop (guard : σ → Prop) [DecidablePred guard] (body : σ → σ) : Nat → σ → Option σ
  | 0, _ => none
  | turns + 1, s => if guard s then whileLoop guard body turns (body s) else some s

theorem whileLoop_of_not (turns : Nat) (h : ¬guard s) : whileLoop guard body (turns + 1) s = some s := if_neg h

theorem whileLoop_of_guard (turns : Nat) (h : guard s) :
    whileLoop guard body (turns + 1) s = whileLoop guard body turns (body s) := if_pos h

/-- A result stays when there are more turns. -/
theorem whileLoop_mono {turns turns' : Nat} (hle : turns ≤ turns') (h : whileLoop guard body turns s = some s') :
    whileLoop guard body turns' s = some s' := by
  induction turns generalizing s turns' with
  | zero => cases h
  | succ turns ih =>
    obtain ⟨more, rfl⟩ : ∃ more, turns' = more + 1 := ⟨turns' - 1, by omega⟩
    by_cases hg : guard s
    · rw [whileLoop_of_guard _ hg] at h ⊢
      exact ih (by omega) h
    · rw [whileLoop_of_not _ hg] at h ⊢
      exact h

/-- What the body keeps holds at the end, where the guard does not. -/
theorem whileLoop_invariant {I : σ → Prop} (hbody : ∀ s, I s → guard s → I (body s)) {turns : Nat} (hs : I s)
    (h : whileLoop guard body turns s = some s') : I s' ∧ ¬guard s' := by
  induction turns generalizing s with
  | zero => cases h
  | succ turns ih =>
    by_cases hg : guard s
    · rw [whileLoop_of_guard _ hg] at h
      exact ih (hbody s hs hg) h
    · rw [whileLoop_of_not _ hg] at h
      obtain rfl := Option.some.inj h
      exact ⟨hs, hg⟩

/-- A rank that every turn lowers ends the loop. -/
theorem whileLoop_terminates {I : σ → Prop} (rank : σ → Nat)
    (hbody : ∀ s, I s → guard s → I (body s) ∧ rank (body s) < rank s) (hs : I s) :
    ∃ s', whileLoop guard body (rank s + 1) s = some s' ∧ I s' ∧ ¬guard s' := by
  obtain ⟨turns, hturns⟩ : ∃ turns, rank s ≤ turns := ⟨rank s, le_rfl⟩
  have hresult : ∃ s', whileLoop guard body (rank s + 1) s = some s' := by
    induction turns generalizing s with
    | zero =>
      by_cases hg : guard s
      · have := (hbody s hs hg).2
        omega
      · exact ⟨s, whileLoop_of_not _ hg⟩
    | succ turns ih =>
      by_cases hg : guard s
      · obtain ⟨hs', hlt⟩ := hbody s hs hg
        obtain ⟨s', hs''⟩ := ih hs' (by omega)
        refine ⟨s', ?_⟩
        rw [whileLoop_of_guard _ hg]
        exact whileLoop_mono (by omega) hs''
      · exact ⟨s, whileLoop_of_not _ hg⟩
  obtain ⟨s', hs'⟩ := hresult
  exact ⟨s', hs', whileLoop_invariant (fun s hs hg => (hbody s hs hg).1) hs hs'⟩

private theorem ceil_lt_ceil {x y : ℚ} (h : 0 < y) (hxy : x ≤ y - 1) : ⌈x⌉₊ < ⌈y⌉₊ := by
  have hpos : 1 ≤ ⌈y⌉₊ := Nat.ceil_pos.2 h
  have hle : ⌈x⌉₊ ≤ ⌈y⌉₊ - 1 := by
    refine Nat.ceil_le.2 ?_
    have := Nat.le_ceil y
    rw [Nat.cast_sub hpos, Nat.cast_one]
    linarith
  omega

/-- A rational rank that is positive while the loop goes on, and falls by one with every turn. -/
theorem whileLoop_terminates_of_drop {I : σ → Prop} (rank : σ → ℚ)
    (hbody : ∀ s, I s → guard s → I (body s) ∧ 0 < rank s ∧ rank (body s) ≤ rank s - 1) (hs : I s) :
    ∃ s', whileLoop guard body (⌈rank s⌉₊ + 1) s = some s' ∧ I s' ∧ ¬guard s' := by
  refine whileLoop_terminates (fun s => ⌈rank s⌉₊) ?_ hs
  intro s hs hg
  obtain ⟨hs', hpos, hdrop⟩ := hbody s hs hg
  exact ⟨hs', ceil_lt_ceil hpos hdrop⟩

/-- A state that a turn leaves as it is. -/
theorem whileLoop_diverges (hg : guard s) (hbody : body s = s) (turns : Nat) : whileLoop guard body turns s = none := by
  induction turns with
  | zero => rfl
  | succ turns ih => rw [whileLoop_of_guard _ hg, hbody, ih]
