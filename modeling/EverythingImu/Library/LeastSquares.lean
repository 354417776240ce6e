import Mathlib.LinearAlgebra.Matrix.NonsingularInverse
import Mathlib.LinearAlgebra.Matrix.ToLinearEquiv
import Mathlib.Algebra.BigOperators.Group.List.Basic

/-!
# Normal equations

A list of linear equations, each a row of coefficients with the value that it should give, and the normal equations of
its least-squares solution.  A vector that solves every equation solves the normal equations, and is the only one that
does if their matrix is invertible (`normalMatrix_mulVec_eq_iff`).  The order of the equations does not matter.
-/

namespace LeastSquares

open Matrix

variable {ι K : Type} [Fintype ι] [CommRing K]

/-- An equation with coefficients and a value. -/
abbrev Equation (ι K : Type) := (ι → K) × K

def normalMatrix (eqs : List (Equation ι K)) : Matrix ι ι K := (eqs.map fun e => vecMulVec e.1 e.1).sum

def normalRhs (eqs : List (Equation ι K)) : ι → K := (eqs.map fun e => e.2 • e.1).sum

/-- Every equation holds for `v`. -/
def Solves (v : ι → K) (eqs : List (Equation ι K)) : Prop := ∀ e ∈ eqs, e.1 ⬝ᵥ v = e.2

omit [Fintype ι] in
theorem normalMatrix_cons (e : Equation ι K) (eqs : List (Equation ι K)) :
    normalMatrix (e :: eqs) = vecMulVec e.1 e.1 + normalMatrix eqs := by
  simp [normalMatrix]

omit [Fintype ι] in
theorem normalRhs_cons (e : Equation ι K) (eqs : List (Equation ι K)) :
    normalRhs (e :: eqs) = e.2 • e.1 + normalRhs eqs := by
  simp [normalRhs]

omit [Fintype ι] in
theorem normalMatrix_perm {eqs eqs' : List (Equation ι K)} (h : eqs.Perm eqs') :
    normalMatrix eqs = normalMatrix eqs' :=
  (h.map _).sum_eq

omit [Fintype ι] in
theorem normalRhs_perm {eqs eqs' : List (Equation ι K)} (h : eqs.Perm eqs') : normalRhs eqs = normalRhs eqs' :=
  (h.map _).sum_eq

theorem normalMatrix_mulVec {v : ι → K} {eqs : List (Equation ι K)} (h : Solves v eqs) :
    normalMatrix eqs *ᵥ v = normalRhs eqs := by
  induction eqs with
  | nil => simp [normalMatrix, normalRhs]
  | cons e eqs ih =>
    obtain ⟨he, heqs⟩ := List.forall_mem_cons.1 h
    rw [normalMatrix_cons, normalRhs_cons, add_mulVec, ih heqs, vecMulVec_mulVec, he]
    simp

/-- What solves all equations is the only solution of the normal equations. -/
theorem normalMatrix_mulVec_eq_iff [DecidableEq ι] {v₀ : ι → K} {eqs : List (Equation ι K)}
    (hdet : IsUnit (normalMatrix eqs).det) (h : Solves v₀ eqs) (v : ι → K) :
    normalMatrix eqs *ᵥ v = normalRhs eqs ↔ v = v₀ := by
  have h₀ := normalMatrix_mulVec h
  constructor
  · intro hv
    have hinv := congrArg ((normalMatrix eqs)⁻¹ *ᵥ ·) (hv.trans h₀.symm)
    simpa [mulVec_mulVec, nonsing_inv_mul _ hdet] using hinv
  · rintro rfl
    exact h₀

/-- A direction that no equation sees makes the matrix singular. -/
theorem det_normalMatrix_eq_zero [DecidableEq ι] [IsDomain K] {w : ι → K} (hw : w ≠ 0) {eqs : List (Equation ι K)}
    (h : ∀ e ∈ eqs, e.1 ⬝ᵥ w = 0) : (normalMatrix eqs).det = 0 := by
  refine exists_mulVec_eq_zero_iff.1 ⟨w, hw, ?_⟩
  have hsolves : Solves w (eqs.map fun e => (e.1, (0 : K))) := by
    intro e he
    obtain ⟨e', he', rfl⟩ := List.mem_map.1 he
    exact h e' he'
  have hmul := normalMatrix_mulVec hsolves
  have hmatrix : normalMatrix (eqs.map fun e => (e.1, (0 : K))) = normalMatrix eqs := by
    simp [normalMatrix, Function.comp_def]
  have hrhs : normalRhs (eqs.map fun e => (e.1, (0 : K))) = 0 := by
    simp [normalRhs, Function.comp_def]
  rw [← hmatrix, hmul, hrhs]

end LeastSquares
