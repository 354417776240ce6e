import Mathlib.Algebra.Order.Star.Real
import Mathlib.LinearAlgebra.Matrix.PosDef

/-!
# The covariance of a Kalman filter

A measurement with the matrix `R` and the noise covariance `W` takes `P Rᵀ S⁻¹ R P` off the covariance `P`, where
`S = W + R P Rᵀ`.  With the gain `K = P Rᵀ S⁻¹` what is left is `(1 - K R) P (1 - K R)ᵀ + K W Kᵀ`, and what is taken off
is `K S Kᵀ`, so that both are positive semidefinite.
-/

namespace KalmanGain

open Matrix

variable {n m : Type*} [Fintype n] [Fintype m]

/-- The covariance of the measurement. -/
def innovation (P : Matrix n n ℝ) (W : Matrix m m ℝ) (R : Matrix m n ℝ) : Matrix m m ℝ := W + R * P * Rᵀ

noncomputable def gain [DecidableEq m] (P : Matrix n n ℝ) (W : Matrix m m ℝ) (R : Matrix m n ℝ) : Matrix n m ℝ :=
  P * Rᵀ * (innovation P W R)⁻¹

variable {P : Matrix n n ℝ} {W : Matrix m m ℝ} {R : Matrix m n ℝ}

theorem posDef_innovation (hP : P.PosSemidef) (hW : W.PosDef) : (innovation P W R).PosDef := by
  have h := hP.mul_mul_conjTranspose_same R
  rw [conjTranspose_eq_transpose_of_trivial] at h
  exact hW.add_posSemidef h

variable [DecidableEq m]

theorem gain_mul_innovation (hP : P.PosSemidef) (hW : W.PosDef) : gain P W R * innovation P W R = P * Rᵀ := by
  have hunit : IsUnit (innovation P W R).det := (isUnit_iff_isUnit_det _).1 (posDef_innovation hP hW).isUnit
  rw [gain, Matrix.mul_assoc, nonsing_inv_mul _ hunit, Matrix.mul_one]

/-- What a measurement takes off. -/
theorem gain_mul_eq (hP : P.PosSemidef) (hW : W.PosDef) :
    gain P W R * R * P = gain P W R * innovation P W R * (gain P W R)ᵀ := by
  have hsymm : Pᵀ = P := hP.isHermitian
  have hS : (innovation P W R)ᵀ = innovation P W R := (posDef_innovation hP hW).isHermitian
  have hgain : (gain P W R)ᵀ = (innovation P W R)⁻¹ * R * P := by
    rw [gain, transpose_mul, transpose_mul, transpose_transpose, transpose_nonsing_inv, hS, hsymm, Matrix.mul_assoc]
  rw [gain_mul_innovation hP hW, hgain, gain]
  simp only [Matrix.mul_assoc]

theorem posSemidef_gain_mul (hP : P.PosSemidef) (hW : W.PosDef) : (gain P W R * R * P).PosSemidef := by
  have h := (posDef_innovation (R := R) hP hW).posSemidef.mul_mul_conjTranspose_same (gain P W R)
  rw [conjTranspose_eq_transpose_of_trivial] at h
  rw [gain_mul_eq hP hW]
  exact h

variable [DecidableEq n]

/-- What a measurement leaves. -/
theorem sub_gain_mul_eq (hP : P.PosSemidef) (hW : W.PosDef) :
    P - gain P W R * R * P
      = (1 - gain P W R * R) * P * (1 - gain P W R * R)ᵀ + gain P W R * W * (gain P W R)ᵀ := by
  have hgain := gain_mul_innovation (R := R) hP hW
  obtain ⟨K, hK⟩ : ∃ K, K = gain P W R := ⟨_, rfl⟩
  rw [← hK] at hgain ⊢
  have hsum : K * W * Kᵀ + K * R * P * Rᵀ * Kᵀ = P * Rᵀ * Kᵀ := by
    rw [← hgain, innovation]
    simp only [Matrix.mul_add, Matrix.add_mul, ← Matrix.mul_assoc]
  calc P - K * R * P = P - K * R * P + (K * W * Kᵀ + K * R * P * Rᵀ * Kᵀ - P * Rᵀ * Kᵀ) := by
        rw [hsum, sub_self, add_zero]
    _ = (1 - K * R) * P * (1 - K * R)ᵀ + K * W * Kᵀ := by
        rw [transpose_sub, transpose_one, transpose_mul]
        simp only [Matrix.sub_mul, Matrix.mul_sub, Matrix.one_mul, Matrix.mul_one, ← Matrix.mul_assoc]
        abel

theorem posSemidef_sub_gain_mul (hP : P.PosSemidef) (hW : W.PosDef) : (P - gain P W R * R * P).PosSemidef := by
  have hleft := hP.mul_mul_conjTranspose_same (1 - gain P W R * R)
  have hnoise := hW.posSemidef.mul_mul_conjTranspose_same (gain P W R)
  rw [conjTranspose_eq_transpose_of_trivial] at hleft hnoise
  rw [sub_gain_mul_eq hP hW]
  exact hleft.add hnoise

end KalmanGain
