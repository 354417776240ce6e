import Mathlib.Logic.Basic

/-!
# Programs that ask their environment

A `Dialogue` asks one question after the other and goes on as the answers say; which answer comes is up to the
environment.  A `Protocol` keeps a ledger of the answers and says what may be asked at which state of it.  `wp` is the
weakest precondition of a dialogue: from this state of the ledger every question is allowed, whatever the answers are,
and the result and the ledger meet the postcondition.  The rules go along the way a dialogue is put together.

`Follows d log d'` is a run, as far as it has come: after the questions and answers in `log`, `d'` is what is left of
`d`.  A precondition holds of the runs (`wp.allowed`, `wp.result`).
-/

inductive Dialogue (Op : Type) (Reply : Op → Type) (α : Type) where
  | done (a : α)
  | ask (op : Op) (next : Reply op → Dialogue Op Reply α)

namespace Dialogue

variable {Op : Type} {Reply : Op → Type} {α β σ : Type}

/-- One dialogue after another. -/
def andThen : Dialogue Op Reply α → (α → Dialogue Op Reply β) → Dialogue Op Reply β
  | done a, f => f a
  | ask op next, f => ask op fun r => (next r).andThen f

instance : Monad (Dialogue Op Reply) where
  pure := done
  bind := andThen

/-- A question whose answer is the result. -/
def question (op : Op) : Dialogue Op Reply (Reply op) := ask op done

/-- What may be asked, and what the answers do to the ledger. -/
structure Protocol (Op : Type) (Reply : Op → Type) (σ : Type) where
  Allowed : σ → Op → Prop
  after : σ → (op : Op) → Reply op → σ

/-! ### Weakest preconditions -/

/-- Every question is allowed and the postcondition is met, whatever the answers are. -/
def wp (P : Protocol Op Reply σ) : Dialogue Op Reply α → (α → σ → Prop) → σ → Prop
  | done a, Q, s => Q a s
  | ask op next, Q, s => P.Allowed s op ∧ ∀ r, wp P (next r) Q (P.after s op r)

variable {P : Protocol Op Reply σ}

@[simp]
theorem wp_pure (a : α) (Q : α → σ → Prop) (s : σ) : wp P (pure a) Q s ↔ Q a s := Iff.rfl

@[simp]
theorem wp_question (op : Op) (Q : Reply op → σ → Prop) (s : σ) :
    wp P (question op) Q s ↔ P.Allowed s op ∧ ∀ r, Q r (P.after s op r) := Iff.rfl

@[simp]
theorem wp_bind (d : Dialogue Op Reply α) (f : α → Dialogue Op Reply β) (Q : β → σ → Prop) (s : σ) :
    wp P (d >>= f) Q s ↔ wp P d (fun a => wp P (f a) Q) s := by
  induction d generalizing s with
  | done a => exact Iff.rfl
  | ask op next ih => exact and_congr_right' (forall_congr' fun r => ih r (P.after s op r))

/-- The rule of consequence. -/
theorem wp.mono {d : Dialogue Op Reply α} {Q Q' : α → σ → Prop} {s : σ} (h : wp P d Q s)
    (hq : ∀ a s, Q a s → Q' a s) : wp P d Q' s := by
  induction d generalizing s with
  | done a => exact hq a s h
  | ask op next ih => exact ⟨h.1, fun r => ih r (h.2 r)⟩

/-- A dialogue that meets a postcondition, before one that starts from it. -/
theorem wp.bind {d : Dialogue Op Reply α} {f : α → Dialogue Op Reply β} {R : α → σ → Prop} {Q : β → σ → Prop} {s : σ}
    (h : wp P d R s) (hf : ∀ a s, R a s → wp P (f a) Q s) : wp P (d >>= f) Q s :=
  (wp_bind d f Q s).2 (h.mono hf)

/-! ### Runs -/

/-- A question and its answer. -/
abbrev Exchange (Reply : Op → Type) := (op : Op) × Reply op

/-- After the exchanges of the log, `d'` is what is left of `d`. -/
inductive Follows : Dialogue Op Reply α → List (Exchange Reply) → Dialogue Op Reply α → Prop where
  | nil (d : Dialogue Op Reply α) : Follows d [] d
  | cons {op : Op} {next : Reply op → Dialogue Op Reply α} {r : Reply op} {log : List (Exchange Reply)}
      {d' : Dialogue Op Reply α} (h : Follows (next r) log d') : Follows (ask op next) (⟨op, r⟩ :: log) d'

/-- The run that gives the answers; `none` if an answer does not fit its question. -/
def replay [DecidableEq Op] : Dialogue Op Reply α → List (Exchange Reply) → Option (Dialogue Op Reply α)
  | d, [] => some d
  | done _, _ :: _ => none
  | ask op next, ⟨op', r⟩ :: log => if h : op' = op then (next (h ▸ r)).replay log else none

theorem Follows.of_replay [DecidableEq Op] {d d' : Dialogue Op Reply α} {log : List (Exchange Reply)}
    (h : d.replay log = some d') : Follows d log d' := by
  induction log generalizing d with
  | nil =>
    obtain rfl : d = d' := by cases d <;> exact Option.some.inj h
    exact .nil d
  | cons x log ih =>
    cases d with
    | done a => cases h
    | ask op next =>
      obtain ⟨op', r⟩ := x
      rw [replay] at h
      split at h
      · rename_i heq
        subst heq
        exact .cons (ih h)
      · cases h

/-- The ledger after the exchanges. -/
def Protocol.ledger (P : Protocol Op Reply σ) (s : σ) (log : List (Exchange Reply)) : σ :=
  log.foldl (fun s x => P.after s x.1 x.2) s

/-- What is left of a dialogue keeps its precondition, in the ledger of the moment. -/
theorem wp.follows {d d' : Dialogue Op Reply α} {log : List (Exchange Reply)} {Q : α → σ → Prop} {s : σ}
    (h : wp P d Q s) (hrun : Follows d log d') : wp P d' Q (P.ledger s log) := by
  induction hrun generalizing s with
  | nil => exact h
  | cons _ ih => exact ih (h.2 _)

/-- Every question of a run was allowed when it was asked. -/
theorem wp.allowed {d d' : Dialogue Op Reply α} {Q : α → σ → Prop} {s : σ} (h : wp P d Q s)
    {pre post : List (Exchange Reply)} {x : Exchange Reply} (hrun : Follows d (pre ++ x :: post) d') :
    P.Allowed (P.ledger s pre) x.1 := by
  induction pre generalizing d s with
  | nil =>
    cases hrun with
    | cons hrun => exact h.1
  | cons y pre ih =>
    cases hrun with
    | cons hrun => exact ih (h.2 _) hrun

/-- A run that has come to its end meets the postcondition. -/
theorem wp.result {d : Dialogue Op Reply α} {a : α} {log : List (Exchange Reply)} {Q : α → σ → Prop} {s : σ}
    (h : wp P d Q s) (hrun : Follows d log (done a)) : Q a (P.ledger s log) := h.follows hrun

end Dialogue
