import Mathlib.Data.List.Forall2
import Mathlib.Data.List.Induction

/-!
# Runs of a transducer

A transducer reads a list of inputs and gives one output for each.  A relation between the inputs so far and the state
that every input keeps holds after every run (`run_induction`).  When a relation of the states of two transducers
survives every pair of related inputs, the outputs of their runs are related one by one (`outputs_forall₂`).  When it
survives only up to a break, the outputs are still related if behind a break only outputs come that are related anyway
(`outputs_forall₂_of_quiet`).
-/

namespace Transducer

variable {σ τ α α' β β' : Type}

/-- The outputs of the run on the inputs from a state. -/
def outputs (step : σ → α → σ × β) : σ → List α → List β
  | _, [] => []
  | s, a :: as => (step s a).2 :: outputs step (step s a).1 as

/-- The state after the run on the inputs. -/
def run (step : σ → α → σ × β) (s : σ) (as : List α) : σ := as.foldl (fun s a => (step s a).1) s

/-- The output on the input that follows the inputs `pre`. -/
def outputAfter (step : σ → α → σ × β) (s : σ) (pre : List α) (a : α) : β := (step (run step s pre) a).2

@[simp]
theorem run_append_singleton (step : σ → α → σ × β) (s : σ) (pre : List α) (a : α) :
    run step s (pre ++ [a]) = (step (run step s pre) a).1 := List.foldl_concat ..

/-- What holds of no inputs and the first state, and is kept by every input, holds after every run. -/
theorem run_induction {step : σ → α → σ × β} {s : σ} {I : List α → σ → Prop} (h₀ : I [] s)
    (hstep : ∀ pre a t, I pre t → I (pre ++ [a]) (step t a).1) (as : List α) : I as (run step s as) := by
  induction as using List.reverseRecOn with
  | nil => exact h₀
  | append_singleton pre a ih =>
    rw [run_append_singleton]
    exact hstep pre a _ ih

/-- `R` survives every pair of inputs that are related by `L`, and the outputs are related by `O`. -/
def Unwinds (f : σ → α → σ × β) (g : τ → α' → τ × β') (L : α → α' → Prop) (R : σ → τ → Prop) (O : β → β' → Prop) :
    Prop :=
  ∀ s t a b, R s t → L a b → O (f s a).2 (g t b).2 ∧ R (f s a).1 (g t b).1

section Runs

variable {f : σ → α → σ × β} {g : τ → α' → τ × β'} {L : α → α' → Prop} {R : σ → τ → Prop} {O P : β → β' → Prop}
  {as : List α} {bs : List α'} {s : σ} {t : τ}

theorem outputs_forall₂ (h : Unwinds f g L R O) (hst : R s t) (hab : List.Forall₂ L as bs) :
    List.Forall₂ O (outputs f s as) (outputs g t bs) := by
  induction hab generalizing s t with
  | nil => exact .nil
  | cons hl _ ih =>
    have hstep := h s t _ _ hst hl
    exact .cons hstep.1 (ih hstep.2)

/-- If all outputs of one of two lists are quiet, and related pairs of which one is quiet are in `O`, all pairs are. -/
theorem forall₂_of_quiet {xs : List β} {ys : List β'} {Quiet : β → Prop} (h : List.Forall₂ P xs ys)
    (hquiet : ∀ x y, P x y → Quiet x → O x y) (hxs : ∀ x ∈ xs, Quiet x) : List.Forall₂ O xs ys := by
  induction h with
  | nil => exact .nil
  | cons hp _ ih =>
    rw [List.forall_mem_cons] at hxs
    exact .cons (hquiet _ _ hp hxs.1) (ih hxs.2)

/-- The runs of two transducers that agree until an output of one of them breaks the agreement of the states: the
outputs are related when none behind a break of its own run is loud. -/
theorem outputs_forall₂_of_quiet {S : σ → τ → Prop} {Breaks Quiet : β → Prop} {Breaks' Quiet' : β' → Prop}
    (hS : Unwinds f g L S P)
    (hstep : ∀ s t a b, R s t → S s t → L a b → O (f s a).2 (g t b).2 ∧
      (Breaks (f s a).2 ∨ Breaks' (g t b).2 ∨ R (f s a).1 (g t b).1))
    (hquiet : ∀ x y, P x y → Quiet x → O x y) (hquiet' : ∀ x y, P x y → Quiet' y → O x y)
    (hs : S s t) (hr : R s t) (hab : List.Forall₂ L as bs)
    (hf : (outputs f s as).Pairwise fun x y => Breaks x → Quiet y)
    (hg : (outputs g t bs).Pairwise fun x y => Breaks' x → Quiet' y) :
    List.Forall₂ O (outputs f s as) (outputs g t bs) := by
  induction hab generalizing s t with
  | nil => exact .nil
  | @cons a b as bs hl hab ih =>
    obtain ⟨hf, hfs⟩ := List.pairwise_cons.1 hf
    obtain ⟨hg, hgs⟩ := List.pairwise_cons.1 hg
    have hnext := (hS s t a b hs hl).2
    have hrest := outputs_forall₂ hS hnext hab
    obtain ⟨ho, hbreak | hbreak | hr⟩ := hstep s t a b hr hs hl
    · exact .cons ho (forall₂_of_quiet hrest hquiet fun y hy => hf y hy hbreak)
    · have hflip := forall₂_of_quiet hrest.flip (O := fun y x => O x y) (fun y x => hquiet' x y)
        fun y hy => hg y hy hbreak
      exact .cons ho hflip.flip
    · exact .cons ho (ih hnext hr hfs hgs)

theorem map_eq_of_forall₂ {γ : Type} {xs : List β} {ys : List β'} (h : List.Forall₂ P xs ys) {m : β → γ} {m' : β' → γ}
    (hm : ∀ x y, P x y → m x = m' y) : xs.map m = ys.map m' := by
  rw [← List.forall₂_eq_eq_eq, List.forall₂_map_left_iff, List.forall₂_map_right_iff]
  exact h.imp hm

end Runs

end Transducer
