import Mathlib.Logic.Relation

/-!
# Runs of a partial step function

A system is a step function `step : σ → α → Option σ`, where `none` means that the action is not possible in the
state.  `exec` runs a list of actions; `Reaches step ok s₀ s` says that `s` is reached from `s₀` by steps that all
meet the condition `ok` on the state before the step and the action.  An invariant is proved once per action and
holds of every reached state (`Reaches.invariant`); a rank that every step lowers bounds the length of the runs.
-/

namespace StepRun

variable {σ α : Type*}

/-- One step whose action meets `ok` in the state before it. -/
def Steps (step : σ → α → Option σ) (ok : σ → α → Prop) (s s' : σ) : Prop :=
  ∃ a, ok s a ∧ step s a = some s'

/-- `s` is reached from `s₀` by steps that all meet `ok`. -/
def Reaches (step : σ → α → Option σ) (ok : σ → α → Prop) (s₀ s : σ) : Prop :=
  Relation.ReflTransGen (Steps step ok) s₀ s

/-- The condition that every step meets. -/
def Always (_ : σ) (_ : α) : Prop := True

instance (s : σ) (a : α) : Decidable (Always s a) := inferInstanceAs (Decidable True)

/-- Run a list of actions; `none` if one of them is not possible when its turn comes. -/
def exec (step : σ → α → Option σ) : σ → List α → Option σ
  | s, [] => some s
  | s, a :: as => (step s a).bind fun s' => exec step s' as

/-- The step function restricted to the actions that meet `ok`. -/
def guardStep (step : σ → α → Option σ) (ok : σ → α → Prop) [∀ s a, Decidable (ok s a)] (s : σ) (a : α) :
    Option σ :=
  if ok s a then step s a else none

theorem Reaches.refl (step : σ → α → Option σ) (ok : σ → α → Prop) (s : σ) : Reaches step ok s s :=
  Relation.ReflTransGen.refl

theorem Reaches.tail {step : σ → α → Option σ} {ok : σ → α → Prop} {s₀ s s' : σ} {a : α}
    (h : Reaches step ok s₀ s) (hok : ok s a) (hs : step s a = some s') : Reaches step ok s₀ s' :=
  Relation.ReflTransGen.tail h ⟨a, hok, hs⟩

/-- What holds initially and is preserved by every step that meets `ok` holds of every reached state. -/
theorem Reaches.invariant {step : σ → α → Option σ} {ok : σ → α → Prop} {s₀ s : σ} (h : Reaches step ok s₀ s)
    {I : σ → Prop} (h₀ : I s₀) (hstep : ∀ s a s', I s → ok s a → step s a = some s' → I s') : I s := by
  induction h with
  | refl => exact h₀
  | tail _ hs ih =>
    obtain ⟨a, hok, hs⟩ := hs
    exact hstep _ a _ ih hok hs

/-- A weaker condition on the steps reaches at least the same states. -/
theorem Reaches.mono {step : σ → α → Option σ} {ok ok' : σ → α → Prop} {s₀ s : σ} (h : Reaches step ok s₀ s)
    (hok : ∀ s a, ok s a → ok' s a) : Reaches step ok' s₀ s := by
  refine Relation.ReflTransGen.mono ?_ _ _ h
  rintro s s' ⟨a, ha, hs⟩
  exact ⟨a, hok s a ha, hs⟩

theorem exec_append (step : σ → α → Option σ) (s : σ) (as bs : List α) :
    exec step s (as ++ bs) = (exec step s as).bind (exec step · bs) := by
  induction as generalizing s with
  | nil => rfl
  | cons a as ih =>
    rw [List.cons_append, exec, exec, Option.bind_assoc]
    exact congrArg (Option.bind (step s a)) (funext fun s' => ih s')

private theorem reaches_of_exec_guard {step : σ → α → Option σ} {ok : σ → α → Prop} [∀ s a, Decidable (ok s a)]
    {s₀ s₁ s : σ} {as : List α} (h₁ : Reaches step ok s₀ s₁) (h : exec (guardStep step ok) s₁ as = some s) :
    Reaches step ok s₀ s := by
  induction as generalizing s₁ with
  | nil =>
    obtain rfl : s₁ = s := by simpa [exec] using h
    exact h₁
  | cons a as ih =>
    obtain ⟨s₂, hs, has⟩ := Option.bind_eq_some_iff.1 h
    unfold guardStep at hs
    split at hs
    · rename_i hok
      exact ih (h₁.tail hok hs) has
    · cases hs

/-- The end of a run of `guardStep` is reached by steps that meet `ok`. -/
theorem Reaches.of_exec {step : σ → α → Option σ} {ok : σ → α → Prop} [∀ s a, Decidable (ok s a)] {s₀ s : σ}
    (as : List α) (h : exec (guardStep step ok) s₀ as = some s) : Reaches step ok s₀ s :=
  reaches_of_exec_guard (Reaches.refl step ok s₀) h

/-- A run of `guardStep` is a run of `step`. -/
theorem exec_of_guard {step : σ → α → Option σ} {ok : σ → α → Prop} [∀ s a, Decidable (ok s a)] {s₀ s : σ}
    {as : List α} (h : exec (guardStep step ok) s₀ as = some s) : exec step s₀ as = some s := by
  induction as generalizing s₀ with
  | nil => exact h
  | cons a as ih =>
    obtain ⟨s₁, hs, has⟩ := Option.bind_eq_some_iff.1 h
    unfold guardStep at hs
    split at hs
    · rw [exec, hs]
      exact ih has
    · cases hs

/-- The end of a run of `step` is reached, whatever its steps were. -/
theorem Reaches.of_run {step : σ → α → Option σ} {s₀ s : σ} (as : List α) (h : exec step s₀ as = some s) :
    Reaches step Always s₀ s := by
  have hg : guardStep step Always = step := by
    funext s a
    simp [guardStep, Always]
  exact Reaches.of_exec as (by rw [hg]; exact h)

/-- If every step lowers a rank, a run is at most as long as the rank it starts from. -/
theorem length_add_rank_le_of_exec {step : σ → α → Option σ} {rank : σ → Nat}
    (hstep : ∀ s a s', step s a = some s' → rank s' < rank s) {s s' : σ} {as : List α}
    (h : exec step s as = some s') : as.length + rank s' ≤ rank s := by
  induction as generalizing s with
  | nil =>
    obtain rfl : s = s' := by simpa [exec] using h
    simp
  | cons a as ih =>
    obtain ⟨s₁, hs, has⟩ := Option.bind_eq_some_iff.1 h
    have hlt : rank s₁ < rank s := hstep s a s₁ hs
    have hle : as.length + rank s' ≤ rank s₁ := ih has
    rw [List.length_cons]
    omega

/-! ### Total steps -/

/-- Each action of the list meets `ok` in the state it is performed in. -/
def Along (f : σ → α → σ) (ok : σ → α → Prop) : σ → List α → Prop
  | _, [] => True
  | s, a :: as => ok s a ∧ Along f ok (f s a) as

instance decidableAlong (f : σ → α → σ) (ok : σ → α → Prop) [∀ s a, Decidable (ok s a)] :
    (s : σ) → (as : List α) → Decidable (Along f ok s as)
  | _, [] => inferInstanceAs (Decidable True)
  | s, a :: as =>
    have := decidableAlong f ok (f s a) as
    inferInstanceAs (Decidable (ok s a ∧ Along f ok (f s a) as))

theorem foldl_invariant {f : σ → α → σ} {J : σ → Prop} (hJ : ∀ s a, J s → J (f s a)) {s : σ} (hj : J s)
    (as : List α) : J (as.foldl f s) := by
  induction as generalizing s with
  | nil => exact hj
  | cons a as ih => exact ih (hJ s a hj)

/-- Conditions that agree where an invariant holds agree along the run. -/
theorem along_congr {f : σ → α → σ} {ok ok' : σ → α → Prop} {J : σ → Prop} (hJ : ∀ s a, J s → J (f s a))
    (h : ∀ s a, J s → (ok s a ↔ ok' s a)) {s : σ} (hj : J s) (as : List α) : Along f ok s as ↔ Along f ok' s as := by
  induction as generalizing s with
  | nil => exact Iff.rfl
  | cons a as ih => rw [Along, Along, h s a hj, ih (hJ s a hj)]

/-- If an action keeps `I` exactly when it meets `ok`, and no action restores `I`, then a list of actions keeps `I`
exactly when all of them meet `ok`. -/
theorem foldl_iff_along {f : σ → α → σ} {ok : σ → α → Prop} {I J : σ → Prop} (hJ : ∀ s a, J s → J (f s a))
    (hstep : ∀ s a, J s → I s → (I (f s a) ↔ ok s a)) (hback : ∀ s a, I (f s a) → I s) {s : σ} (hj : J s)
    (hi : I s) (as : List α) : I (as.foldl f s) ↔ Along f ok s as := by
  have hlost : ∀ (as : List α) (s : σ), I (as.foldl f s) → I s := by
    intro as
    induction as with
    | nil => exact fun _ h => h
    | cons a as ih => exact fun s h => hback s a (ih (f s a) h)
  induction as generalizing s with
  | nil => exact iff_of_true hi trivial
  | cons a as ih =>
    rw [List.foldl_cons, Along]
    constructor
    · intro h
      have ha : I (f s a) := hlost as (f s a) h
      exact ⟨(hstep s a hj hi).1 ha, (ih (hJ s a hj) ha).1 h⟩
    · rintro ⟨hok, has⟩
      exact (ih (hJ s a hj) ((hstep s a hj hi).2 hok)).2 has

end StepRun
