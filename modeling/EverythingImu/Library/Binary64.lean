import EverythingImu.Library.FloatQuotient

/-!
# Intervals of binary64 numbers

A computation in binary64 is followed in intervals of positive rational numbers (`Between`): a sum, a product or a
quotient lies in the interval of the exact result, up to the relative error of one rounding, as long as the interval
keeps clear of the smallest and the largest numbers.
-/

namespace FloatRound

open Float.Model Float.Model.UnpackedFloat

/-- A finite number between two rational numbers. -/
structure Between (a b : ℚ) (x : Float) : Prop where
  isFinite : x.isFinite = true
  low : a ≤ value x.toModel.unpack
  high : value x.toModel.unpack ≤ b

/-- A bound on the relative error of one rounding. -/
def roundingError : ℚ := 1 / 10 ^ 15

variable {a b c d : ℚ} {x y : Float}

theorem canonical_float (x : Float) : Canonical .binary64 x.toModel.unpack := canonical_unpack _

private theorem zpow_le_of_le {k : ℤ} (hk : k ≤ -200) : (2 : ℚ) ^ k ≤ 1 / 10 ^ 50 :=
  (zpow_le_zpow_right₀ (by norm_num) hk).trans (by norm_num)

namespace Between

theorem widen (h : Between a b x) (hc : c ≤ a) (hd : b ≤ d) : Between c d x :=
  ⟨h.isFinite, hc.trans h.low, h.high.trans hd⟩

theorem lt_iff_value (hx : Between a b x) (hy : Between c d y) :
    x < y ↔ value x.toModel.unpack < value y.toModel.unpack := by
  have hlt : x < y ↔ x.toModel.unpack.lt y.toModel.unpack = true := decide_eq_true_iff
  rw [hlt, UnpackedFloat.lt, compare_eq hx.isFinite hy.isFinite (canonical_float x) (canonical_float y), beq_iff_eq,
    Option.some_inj, compare_lt_iff_lt]

/-- Numbers of separate intervals are in the order of the intervals. -/
theorem lt (hx : Between a b x) (hy : Between c d y) (hbc : b < c) : x < y :=
  (hx.lt_iff_value hy).2 ((hx.high.trans_lt hbc).trans_le hy.low)

theorem not_le (hx : Between a b x) (hy : Between c d y) (hbc : b < c) : ¬ y ≤ x :=
  (FloatOrder.not_le_iff_lt (FloatOrder.isNaN_of_isFinite hy.isFinite) (FloatOrder.isNaN_of_isFinite hx.isFinite)).2
    (hx.lt hy hbc)

/-- A number below one of another interval keeps its own lower bound. -/
theorem of_lt (hx : Between a b x) (h : x < y) (hy : Between c d y) : Between a d x :=
  ⟨hx.isFinite, hx.low, ((hx.lt_iff_value hy).1 h).le.trans hy.high⟩

/-- The rounding of a number of normal size stays in its interval up to one rounding error. -/
theorem of_roundsTo {q : ℚ} {f : UnpackedFloat} (h : RoundsTo .binary64 q f)
    (hx : x.toModel.unpack = (Float.Model.pack f).unpack) (hlow : 1 / 10 ^ 50 ≤ a) (haq : a ≤ q) (hqb : q ≤ b)
    (hhigh : b ≤ 10 ^ 50) : Between (a * (1 - roundingError)) (b * (1 + roundingError)) x := by
  have hq : 1 / 10 ^ 50 ≤ q := hlow.trans haq
  have hpos : 0 < q := lt_of_lt_of_le (by norm_num) hq
  have habs : |q| = q := abs_of_pos hpos
  have hpack : (Float.Model.pack f).unpack = f := by
    refine h.unpack_pack (k := 200) (by decide) (by decide) (by decide) ?_
    rw [habs]
    exact (hqb.trans hhigh).trans_lt (by norm_num)
  have herr : |value f - q| ≤ q * roundingError := by
    have hnormal : (2 : ℚ) ^ (Format.binary64.minExponent + Format.binary64.mantissaBits - 1) ≤ |q| := by
      rw [habs]
      exact (zpow_le_of_le (by decide)).trans hq
    have hrel := h.relative_error_le (.inr hnormal)
    rw [habs] at hrel
    refine hrel.trans ?_
    show q / 2 ^ 53 ≤ q * roundingError
    rw [div_eq_mul_one_div]
    refine mul_le_mul_of_nonneg_left ?_ hpos.le
    norm_num [roundingError]
  obtain ⟨hlo, hhi⟩ := abs_le.1 herr
  have he : (0 : ℚ) ≤ 1 - roundingError ∧ (0 : ℚ) ≤ 1 + roundingError := by norm_num [roundingError]
  have hla := mul_le_mul_of_nonneg_right haq he.1
  have hlb := mul_le_mul_of_nonneg_right hqb he.2
  refine ⟨?_, ?_, ?_⟩
  · show x.toModel.unpack.isFinite = true
    rw [hx, hpack]
    exact h.isFinite
  · rw [hx, hpack]
    linarith
  · rw [hx, hpack]
    linarith

theorem add (hx : Between a b x) (hy : Between c d y) (hlow : 1 / 10 ^ 50 ≤ a + c) (hhigh : b + d ≤ 10 ^ 50) :
    Between ((a + c) * (1 - roundingError)) ((b + d) * (1 + roundingError)) (x + y) :=
  of_roundsTo (add_roundsTo hx.isFinite hy.isFinite (canonical_float x) (canonical_float y)) rfl hlow
    (add_le_add hx.low hy.low) (add_le_add hx.high hy.high) hhigh

theorem mul (hx : Between a b x) (hy : Between c d y) (ha : 0 ≤ a) (hc : 0 ≤ c) (hlow : 1 / 10 ^ 50 ≤ a * c)
    (hhigh : b * d ≤ 10 ^ 50) : Between (a * c * (1 - roundingError)) (b * d * (1 + roundingError)) (x * y) :=
  of_roundsTo (mul_roundsTo hx.isFinite hy.isFinite (canonical_float x) (canonical_float y)) rfl hlow
    (mul_le_mul hx.low hy.low hc (ha.trans hx.low))
    (mul_le_mul hx.high hy.high (hc.trans hy.low) (ha.trans (hx.low.trans hx.high))) hhigh

theorem div (hx : Between a b x) (hy : Between c d y) (ha : 0 ≤ a) (hc : 0 < c) (hlow : 1 / 10 ^ 50 ≤ a / d)
    (hhigh : b / c ≤ 10 ^ 50) : Between (a / d * (1 - roundingError)) (b / c * (1 + roundingError)) (x / y) := by
  have hlo : a / d ≤ value x.toModel.unpack / value y.toModel.unpack :=
    div_le_div₀ (ha.trans hx.low) hx.low (hc.trans_le hy.low) hy.high
  have hhi : value x.toModel.unpack / value y.toModel.unpack ≤ b / c :=
    div_le_div₀ (ha.trans (hx.low.trans hx.high)) hx.high hc hy.low
  have hq := hlow.trans hlo
  have hpos : 0 < value x.toModel.unpack / value y.toModel.unpack := lt_of_lt_of_le (by norm_num) hq
  have hround : Rounds .binary64 _ _ := div_rounds hx.isFinite hy.isFinite (by
    rw [abs_of_pos hpos]
    exact (zpow_le_of_le (by decide)).trans hq)
  exact of_roundsTo (hround.roundsTo hpos.ne') rfl hlow hlo hhi hhigh

end Between

theorem between_zero : Between 0 0 0.0 := ⟨rfl, le_rfl, le_rfl⟩

theorem between_of_unpack (m : Nat) (e : ℤ) (hm : 0 < m) (h : x.toModel.unpack = .finite .positive m e hm)
    (ha : a ≤ m * 2 ^ e) (hb : m * 2 ^ e ≤ b) : Between a b x := by
  refine ⟨congrArg UnpackedFloat.isFinite h, ?_, ?_⟩ <;> rwa [h, value_positive]

/-! ### Small integers -/

theorem between_uint64 {n : UInt64} (hlow : 1 / 10 ^ 50 ≤ a) (ha : a ≤ n.toNat) (hb : n.toNat ≤ b)
    (hhigh : b ≤ 10 ^ 50) : Between (a * (1 - roundingError)) (b * (1 + roundingError)) n.toFloat := by
  have hround : RoundsTo .binary64 ((n.toNat : ℤ) : ℚ)
      (UnpackedFloat.normalize Format.binary64 (n.toNat : ℤ) 0 .positive) := normalize_intCast_roundsTo _ _
  rw [Int.cast_natCast] at hround
  exact Between.of_roundsTo hround rfl hlow ha hb hhigh

/-- A natural number is converted by a rounding and a product with 1. -/
theorem between_ofNat {n : Nat} (hn : n < 2 ^ 53) (hlow : 1 ≤ a) (ha : a ≤ n) (hb : n ≤ b) (hhigh : b ≤ 10 ^ 40) :
    Between (a * (1 - 3 * roundingError)) (b * (1 + 3 * roundingError)) (Float.ofNat n) := by
  obtain ⟨one, hone⟩ : ∃ one, one = Float.exactlyRepresentablePowersOfTen[0] := ⟨_, rfl⟩
  have hproduct : Float.ofNat n = n.toUInt64.toFloat * one := by
    rw [hone]
    exact dif_pos ⟨hn, by decide⟩
  have hbetween : Between 1 1 one := by
    refine between_of_unpack 4503599627370496 (-52) (by decide) ?_ (by norm_num) (by norm_num)
    rw [hone]
    rfl
  have htoNat : n.toUInt64.toNat = n := by
    rw [Nat.toUInt64_eq, UInt64.toNat_ofNat']
    omega
  have hconvert : Between (a * (1 - roundingError)) (b * (1 + roundingError)) n.toUInt64.toFloat := by
    refine between_uint64 (le_trans (by norm_num) hlow) ?_ ?_ (hhigh.trans (by norm_num)) <;> rwa [htoNat]
  rw [hproduct]
  have hb₀ : 0 ≤ b := by linarith
  have he : (0 : ℚ) ≤ 1 - roundingError := by norm_num [roundingError]
  refine (hconvert.mul hbetween (by positivity) zero_le_one ?_ ?_).widen ?_ ?_
  · calc (1 : ℚ) / 10 ^ 50 ≤ 1 * (1 - roundingError) * 1 := by norm_num [roundingError]
      _ ≤ a * (1 - roundingError) * 1 := by gcongr
  · calc b * (1 + roundingError) * 1 ≤ 10 ^ 40 * (1 + roundingError) * 1 := by
          norm_num [roundingError]
          linarith
      _ ≤ 10 ^ 50 := by norm_num [roundingError]
  · calc a * (1 - 3 * roundingError) ≤ a * ((1 - roundingError) * 1 * (1 - roundingError)) := by
          gcongr
          norm_num [roundingError]
      _ = a * (1 - roundingError) * 1 * (1 - roundingError) := by ring
  · calc b * (1 + roundingError) * 1 * (1 + roundingError) = b * ((1 + roundingError) * 1 * (1 + roundingError)) := by
          ring
      _ ≤ b * (1 + 3 * roundingError) := by
          gcongr
          norm_num [roundingError]

end FloatRound
