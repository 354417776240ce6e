import EverythingImu.Library.FloatArith
import Mathlib

/-!
# Floats by their values

A finite `Float32` other than zero is determined by the rational number that it stands for (`eq_of_toRat_eq`).
-/

namespace FloatRound

open Float.Model Float.Model.UnpackedFloat

theorem eq_of_unpack_eq {x y : Float32} (h : x.toModel.unpack = y.toModel.unpack) : x = y := by
  have hbits := (unpack_inj_of_valid x.toModel.valid y.toModel.valid).1 h
  exact Float32.toBits_inj.1 (UInt32.toBitVec_inj.1 hbits)

/-- A float other than zero is the only one of its value. -/
theorem eq_of_toRat_eq {x y : Float32} (hx : x.isFinite) (hy : y.isFinite) (h : toRat x = toRat y) (hne : toRat x ≠ 0) :
    x = y :=
  eq_of_unpack_eq (eq_of_value_eq hx hy (canonical_toModel x) (canonical_toModel y) h hne)

/-- A correction by nothing leaves an integer as it is. -/
theorem ofInt_sub_zero_mul_one {n : ℤ} (hn : |n| < 2 ^ 23) : (Float32.ofInt n - 0.0) * 1.0 = Float32.ofInt n := by
  by_cases hzero : n = 0
  · subst hzero
    decide +kernel
  obtain ⟨hfin, hvalue⟩ := float32_ofInt hn
  have hsmall : |(n : ℚ)| < 2 ^ (127 : ℤ) := by
    calc |(n : ℚ)| < 2 ^ 23 := by exact_mod_cast hn
      _ < 2 ^ (127 : ℤ) := by norm_num
  have h₀ : toRat 0.0 = 0 := rfl
  have hsub := float32_sub_roundsTo hfin (y := 0.0) rfl (by rwa [hvalue, h₀, sub_zero])
  rw [hvalue, h₀, sub_zero] at hsub
  have hdiff : toRat (Float32.ofInt n - 0.0) = n := value_eq_intCast hsub (by omega)
  have hmul := float32_mul_roundsTo hsub.isFinite (y := 1.0) rfl (by rwa [hdiff, toRat_one, mul_one])
  rw [hdiff, toRat_one, mul_one] at hmul
  have hproduct : toRat ((Float32.ofInt n - 0.0) * 1.0) = n := value_eq_intCast hmul (by omega)
  refine eq_of_toRat_eq hmul.isFinite hfin (hproduct.trans hvalue.symm) ?_
  rw [hproduct]
  exact_mod_cast hzero

end FloatRound
