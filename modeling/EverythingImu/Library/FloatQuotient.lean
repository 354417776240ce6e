import EverythingImu.Library.FloatArith
import Mathlib

/-!
# Quotients of floats

A quotient that is not below the smallest exponent is the rounded quotient of the values (`div_rounds`).  So quotients
of one number by integers with 16 digits differ if the integers do (`quotient_injective`).
-/

namespace FloatRound

open Float.Model Float.Model.UnpackedFloat

variable {spec : Format}

theorem targetExponent_mono {te te' : ℤ} (h : te ≤ te') : spec.targetExponent te ≤ spec.targetExponent te' :=
  max_le_max_right _ (Int.sub_le_sub_right h _)

/-- The quotient of two magnitudes, between the powers of two that their top digits give. -/
theorem lt_magnitude_div {m₁ m₂ : Nat} (hm₁ : 0 < m₁) (hm₂ : 0 < m₂) (e₁ e₂ : ℤ) :
    (2 : ℚ) ^ (totalExponent m₁ e₁ - totalExponent m₂ e₂ - 1) < m₁ * 2 ^ e₁ / (m₂ * 2 ^ e₂) := by
  have hden : (0 : ℚ) < m₂ * 2 ^ e₂ := by positivity
  have hlow := (totalExponent_bounds hm₁ e₁).1
  have hhigh := (totalExponent_bounds hm₂ e₂).2
  rw [lt_div_iff₀ hden]
  calc (2 : ℚ) ^ (totalExponent m₁ e₁ - totalExponent m₂ e₂ - 1) * (m₂ * 2 ^ e₂) <
        2 ^ (totalExponent m₁ e₁ - totalExponent m₂ e₂ - 1) * 2 ^ totalExponent m₂ e₂ := by gcongr
    _ = 2 ^ (totalExponent m₁ e₁ - 1) := by
        rw [← zpow_add₀ (by norm_num)]
        congr 1
        ring
    _ ≤ m₁ * 2 ^ e₁ := hlow

theorem apply_eq_mul (s : Sign) (n : Nat) : ((s.apply n : ℤ) : ℚ) = (s.apply 1 : ℤ) * n := by
  cases s with
  | positive => exact (one_mul _).symm
  | negative =>
    show ((-(n : ℤ) : ℤ) : ℚ) = ((-1 : ℤ) : ℚ) * n
    push_cast
    ring

theorem value_div_value {s₁ s₂ : Sign} {m₁ m₂ : Nat} {e₁ e₂ : ℤ} (hm₁ : 0 < m₁) (hm₂ : 0 < m₂) :
    value (.finite s₁ m₁ e₁ hm₁) / value (.finite s₂ m₂ e₂ hm₂) =
      ((s₁ / s₂).apply 1 : ℤ) * (m₁ * 2 ^ e₁ / (m₂ * 2 ^ e₂)) := by
  have hplus : ((1 : ℤ) : ℚ) * (m₁ * 2 ^ e₁ / (m₂ * 2 ^ e₂)) = m₁ * 2 ^ e₁ / (m₂ * 2 ^ e₂) := by
    rw [Int.cast_one, one_mul]
  have hminus : ((-1 : ℤ) : ℚ) * (m₁ * 2 ^ e₁ / (m₂ * 2 ^ e₂)) = -(m₁ * 2 ^ e₁ / (m₂ * 2 ^ e₂)) := by
    rw [Int.cast_neg, Int.cast_one, neg_one_mul]
  cases s₁ <;> cases s₂
  · rw [value_negative, value_negative, neg_div_neg_eq]
    exact hplus.symm
  · rw [value_negative, value_positive, neg_div]
    exact hminus.symm
  · rw [value_positive, value_negative, div_neg]
    exact hminus.symm
  · rw [value_positive, value_positive]
    exact hplus.symm

/-- The shift of the first significand keeps the quotient. -/
theorem magnitude_shiftLeft {m₁ m₂ k : Nat} {e₁ e₂ t : ℤ} (hm₂ : 0 < m₂) (hk : (k : ℤ) = e₁ - e₂ - t) :
    (m₁ : ℚ) * 2 ^ e₁ / (m₂ * 2 ^ e₂) = (m₁ <<< k : ℕ) / m₂ * 2 ^ t := by
  have hpow : (2 : ℚ) ^ e₁ = 2 ^ k * 2 ^ t * 2 ^ e₂ := by
    rw [← zpow_natCast, ← zpow_add₀ (by norm_num), ← zpow_add₀ (by norm_num), hk]
    congr 1
    ring
  have hne : (m₂ : ℚ) ≠ 0 := Nat.cast_ne_zero.2 hm₂.ne'
  rw [hpow, Nat.shiftLeft_eq]
  push_cast
  field_simp

/-- A quotient of at least one unit has a whole part. -/
theorem quotient_pos {n d : Nat} {t : ℤ} (hd : 0 < d) (h : (2 : ℚ) ^ t ≤ n / d * 2 ^ t) : 0 < n / d := by
  have hpos : (0 : ℚ) < 2 ^ t := zpow_pos (by norm_num) t
  have hone : (1 : ℚ) ≤ n / d := le_of_mul_le_mul_right (by rwa [one_mul]) hpos
  rw [one_le_div (Nat.cast_pos.2 hd)] at hone
  exact Nat.div_pos (Nat.cast_le.1 hone) hd

theorem div_rounds {f g : UnpackedFloat} (hf : f.isFinite = true) (hg : g.isFinite = true)
    (hlow : 2 ^ spec.minExponent ≤ |value f / value g|) :
    Rounds spec (value f / value g) (UnpackedFloat.div spec f g) := by
  have hne : value f / value g ≠ 0 := by
    rw [← abs_pos]
    exact (zpow_pos (by norm_num) _).trans_le hlow
  cases f with
  | notANumber => cases hf
  | infinity s => cases hf
  | zero s => exact absurd (zero_div _) hne
  | finite s₁ m₁ e₁ hm₁ =>
    cases g with
    | notANumber => cases hg
    | infinity t => cases hg
    | zero t => exact absurd (div_zero _) hne
    | finite s₂ m₂ e₂ hm₂ =>
      obtain ⟨t, ht⟩ : ∃ t, t = min (e₁ - e₂) (spec.targetExponent (totalExponent m₁ e₁ - totalExponent m₂ e₂)) :=
        ⟨_, rfl⟩
      obtain ⟨k, hk⟩ : ∃ k : Nat, k = (e₁ - e₂ - t).toNat := ⟨_, rfl⟩
      have hshift : (k : ℤ) = e₁ - e₂ - t := by omega
      have hdiv : UnpackedFloat.div spec (.finite s₁ m₁ e₁ hm₁) (.finite s₂ m₂ e₂ hm₂) =
          roundWithAccuracy spec (s₁ / s₂) (m₁ <<< k / m₂) t (accuracyOfFraction (m₁ <<< k % m₂) m₂) := by
        rw [hk, ht]
        rfl
      have hmagnitude : (m₁ : ℚ) * 2 ^ e₁ / (m₂ * 2 ^ e₂) = (m₁ <<< k : ℕ) / m₂ * 2 ^ t :=
        magnitude_shiftLeft hm₂ hshift
      have hvalue : value (.finite s₁ m₁ e₁ hm₁) / value (.finite s₂ m₂ e₂ hm₂) =
          (s₁ / s₂).apply (m₁ <<< k : ℕ) / m₂ * 2 ^ t := by
        rw [value_div_value, hmagnitude, apply_eq_mul (s₁ / s₂) (m₁ <<< k)]
        ring
      have habs : |value (.finite s₁ m₁ e₁ hm₁) / value (.finite s₂ m₂ e₂ hm₂)| = (m₁ <<< k : ℕ) / m₂ * 2 ^ t := by
        rw [abs_div, abs_value_finite, abs_value_finite, hmagnitude]
      rw [habs] at hlow
      have htop := lt_magnitude_div hm₁ hm₂ e₁ e₂
      rw [hmagnitude] at htop
      have hunit : (2 : ℚ) ^ t ≤ (m₁ <<< k : ℕ) / m₂ * 2 ^ t := by
        rcases le_or_gt t spec.minExponent with hmin | hmin
        · exact (zpow_le_zpow_right₀ (by norm_num) hmin).trans hlow
        · have hle : t ≤ totalExponent m₁ e₁ - totalExponent m₂ e₂ - 1 := by
            rw [Format.targetExponent] at ht
            have := mantissaBits_eq spec
            omega
          exact (zpow_le_zpow_right₀ (by norm_num) hle).trans htop.le
      have hq : 0 < m₁ <<< k / m₂ := quotient_pos hm₂ hunit
      have hexponent : t ≤ spec.targetExponent (totalExponent (m₁ <<< k / m₂) t) := by
        have hdigits := htop.trans (totalExponent_ratio_bounds hm₂ hq t).2
        have hlt := (zpow_lt_zpow_iff_right₀ (by norm_num : (1 : ℚ) < 2)).1 hdigits
        refine (ht ▸ min_le_right _ _).trans (targetExponent_mono ?_)
        omega
      rw [hdiv, hvalue]
      exact roundWithAccuracy_ratio_rounds spec (s₁ / s₂) hm₂ hq hexponent

section Binary32

variable {x y : Float32}

theorem float32_div_rounds (hx : x.isFinite) (hy : y.isFinite) (hlow : 2 ^ (-149 : ℤ) ≤ |toRat x / toRat y|)
    (hlt : |toRat x / toRat y| < 2 ^ (127 : ℤ)) : Rounds .binary32 (toRat x / toRat y) (x / y).toModel.unpack := by
  have h : Rounds .binary32 _ _ := div_rounds hx hy hlow
  have hne : value x.toModel.unpack / value y.toModel.unpack ≠ 0 := by
    rw [← abs_pos]
    exact (zpow_pos (by norm_num) _).trans_le hlow
  exact (unpack_pack_roundsTo (h.roundsTo hne) hlt).symm ▸ h

theorem value_abs (f : UnpackedFloat) : value f.abs = |value f| := by
  cases f with
  | finite s m e hm => exact (value_positive m e hm).trans (abs_value_finite s m e hm).symm
  | _ => exact abs_zero.symm

theorem float32_abs (hx : x.isFinite) (hlt : |toRat x| < 2 ^ (127 : ℤ)) :
    x.abs.isFinite = true ∧ toRat x.abs = |toRat x| := by
  have hfinite : x.toModel.unpack.abs.isFinite = true := by
    have hfinite : x.toModel.unpack.isFinite = true := hx
    cases h : x.toModel.unpack <;> rw [h] at hfinite <;> exact hfinite
  have hcanonical : Canonical .binary32 x.toModel.unpack.abs := by
    have hcanonical := canonical_toModel x
    cases h : x.toModel.unpack <;> rw [h] at hcanonical <;> exact hcanonical
  have hvalue : value x.toModel.unpack.abs = |toRat x| := value_abs _
  have hpack := unpack_pack_roundsTo (roundsTo_self hfinite hcanonical) (by rwa [hvalue, abs_abs])
  constructor
  · show (Float32.Model.pack x.toModel.unpack.abs).unpack.isFinite = true
    rwa [hpack]
  · show value (Float32.Model.pack x.toModel.unpack.abs).unpack = _
    rw [hpack, hvalue]

end Binary32

/-- Quotients of one number that are rounded to one float have one denominator: the gap between two quotients is
larger than both errors. -/
theorem quotient_injective {n : ℚ} {f : UnpackedFloat} {a b : ℕ} (ha : Rounds .binary32 (n / a) f)
    (hb : Rounds .binary32 (n / b) f) (hn : 1 ≤ n) (ha₀ : 0 < a) (hb₀ : 0 < b) (ha' : a < 2 ^ 22) (hb' : b < 2 ^ 22) :
    a = b := by
  have hsame {a b : ℕ} (ha : Rounds .binary32 (n / a) f) (hb : Rounds .binary32 (n / b) f) (ha₀ : 0 < a)
      (hb' : b < 2 ^ 22) : ¬ a < b := by
    intro hab
    have ha₁ : (0 : ℚ) < a := Nat.cast_pos.2 ha₀
    have hb₁ : (0 : ℚ) < b := Nat.cast_pos.2 (ha₀.trans hab)
    have hsmall : (b : ℚ) < 2 ^ 22 := by exact_mod_cast hb'
    have hstep : (a : ℚ) + 1 ≤ b := by exact_mod_cast hab
    have hnormal {c : ℚ} (hc : 0 < c) (hcb : c ≤ b) : (2 : ℚ) ^ (-126 : ℤ) ≤ |n / c| := by
      rw [abs_of_nonneg (by positivity), le_div_iff₀ hc]
      calc (2 : ℚ) ^ (-126 : ℤ) * c ≤ 2 ^ (-126 : ℤ) * 2 ^ 22 := by
            gcongr
            exact hcb.trans hsmall.le
        _ ≤ 1 := by norm_num
        _ ≤ n := hn
    have herr := ha.relative_error_le (hnormal ha₁ (by linarith))
    have herr' := hb.relative_error_le (hnormal hb₁ le_rfl)
    have hpos : 0 < n / a := by positivity
    have hle : n / b ≤ n / a := by gcongr
    have hgap : n / a / b ≤ n / a - n / b := by
      rw [div_div, div_sub_div _ _ ha₁.ne' hb₁.ne']
      gcongr
      nlinarith
    have hdistance : n / a - n / b ≤ (n / a + n / a) / 2 ^ 24 := by
      rw [abs_of_pos hpos] at herr
      rw [abs_of_nonneg (by positivity : 0 ≤ n / b)] at herr'
      have hlow := (abs_le.1 herr).1
      have hhigh := (abs_le.1 herr').2
      have hbits : (2 : ℚ) ^ Format.binary32.mantissaBits = 2 ^ 24 := rfl
      rw [hbits] at hlow hhigh
      have hmono : n / b / 2 ^ 24 ≤ n / a / 2 ^ 24 := by gcongr
      rw [add_div]
      linarith
    have hlarge : (2 : ℚ) ^ 23 ≤ b := by
      have hboth := hgap.trans hdistance
      rw [div_le_div_iff₀ hb₁ (by norm_num)] at hboth
      nlinarith
    linarith
  have hleft := hsame ha hb ha₀ hb'
  have hright := hsame hb ha hb₀ ha'
  omega

end FloatRound
