import EverythingImu.Library.FloatOrder
import EverythingImu.Library.FloatRound

/-!
# Arithmetic of binary32 numbers

Sums, differences, products and comparisons of finite `Float32` in terms of the rational numbers that they stand for:
the comparisons are exact (`lt_iff`), and the results of the operations are roundings of the exact ones as long as
these do not overflow (`add_roundsTo`, `sub_roundsTo`, `mul_roundsTo`).
-/

namespace FloatRound

open Float.Model Float.Model.UnpackedFloat

variable {spec : Format}

/-! ### The order of canonical numbers -/

private theorem lt_of_exponent_lt {m₁ m₂ : Nat} {e₁ e₂ : ℤ} (h₁ : m₁ < 2 ^ spec.mantissaBits)
    (h₂ : 2 ^ spec.mantissaBitsWithoutImplicit ≤ m₂) (he : e₁ < e₂) : (m₁ : ℚ) * 2 ^ e₁ < m₂ * 2 ^ e₂ := by
  have hm₁ : (m₁ : ℚ) < 2 ^ spec.mantissaBits := by exact_mod_cast h₁
  have hm₂ : (2 : ℚ) ^ spec.mantissaBitsWithoutImplicit ≤ m₂ := by exact_mod_cast h₂
  have hpow : (2 : ℚ) * 2 ^ e₁ ≤ 2 ^ e₂ := by
    rw [mul_comm, ← zpow_add_one₀ (by norm_num)]
    exact zpow_le_zpow_right₀ (by norm_num) (by omega)
  calc (m₁ : ℚ) * 2 ^ e₁ < 2 ^ spec.mantissaBits * 2 ^ e₁ := by gcongr
    _ = 2 ^ spec.mantissaBitsWithoutImplicit * (2 * 2 ^ e₁) := by rw [mantissaBits_eq, pow_succ]; ring
    _ ≤ m₂ * 2 ^ e₂ := by gcongr

/-- Canonical magnitudes compare by their exponents, then by their mantissas. -/
theorem compare_magnitude {s t : Sign} {m₁ m₂ : Nat} {e₁ e₂ : ℤ} {hm₁ : 0 < m₁} {hm₂ : 0 < m₂}
    (h₁ : Canonical spec (.finite s m₁ e₁ hm₁)) (h₂ : Canonical spec (.finite t m₂ e₂ hm₂)) :
    (compare e₁ e₂).then (compare m₁ m₂) = compare ((m₁ : ℚ) * 2 ^ e₁) (m₂ * 2 ^ e₂) := by
  obtain ⟨hfit₁, hmin₁, hfull₁⟩ := h₁
  obtain ⟨hfit₂, hmin₂, hfull₂⟩ := h₂
  rcases lt_trichotomy e₁ e₂ with hlt | rfl | hgt
  · have hnormal : 2 ^ spec.mantissaBitsWithoutImplicit ≤ m₂ := by
      rcases hfull₂ with h | h
      · exact h
      · omega
    rw [compare_lt_iff_lt.2 hlt, compare_lt_iff_lt.2 (lt_of_exponent_lt hfit₁ hnormal hlt)]
    rfl
  · have hpos : (0 : ℚ) < 2 ^ e₁ := zpow_pos (by norm_num) e₁
    rw [compare_eq_iff_eq.2 rfl, Ordering.eq_then]
    rcases lt_trichotomy m₁ m₂ with hlt | rfl | hgt
    · have hlt' : (m₁ : ℚ) * 2 ^ e₁ < m₂ * 2 ^ e₁ := by gcongr
      rw [compare_lt_iff_lt.2 hlt, compare_lt_iff_lt.2 hlt']
    · rw [compare_eq_iff_eq.2 rfl, compare_eq_iff_eq.2 rfl]
    · have hgt' : (m₂ : ℚ) * 2 ^ e₁ < m₁ * 2 ^ e₁ := by gcongr
      rw [compare_gt_iff_gt.2 hgt, compare_gt_iff_gt.2 hgt']
  · have hnormal : 2 ^ spec.mantissaBitsWithoutImplicit ≤ m₁ := by
      rcases hfull₁ with h | h
      · exact h
      · omega
    rw [compare_gt_iff_gt.2 hgt, compare_gt_iff_gt.2 (lt_of_exponent_lt hfit₂ hnormal hgt)]
    rfl

private theorem magnitude_pos {m : Nat} (hm : 0 < m) (e : ℤ) : (0 : ℚ) < m * 2 ^ e := by positivity

theorem value_positive (m : Nat) (e : ℤ) (hm : 0 < m) : value (.finite .positive m e hm) = m * 2 ^ e := by
  simp [value, Sign.apply]

theorem value_negative (m : Nat) (e : ℤ) (hm : 0 < m) : value (.finite .negative m e hm) = -(m * 2 ^ e) := by
  simp [value, Sign.apply]

@[simp] theorem value_zero (s : Sign) : value (.zero s) = 0 := rfl

private theorem compare_neg (a b : ℚ) : compare (-a) (-b) = (compare a b).swap := by
  rcases lt_trichotomy a b with hlt | rfl | hgt
  · rw [compare_lt_iff_lt.2 hlt, compare_gt_iff_gt.2 (neg_lt_neg hlt)]
    rfl
  · rw [compare_eq_iff_eq.2 rfl, compare_eq_iff_eq.2 rfl]
    rfl
  · rw [compare_gt_iff_gt.2 hgt, compare_lt_iff_lt.2 (neg_lt_neg hgt)]
    rfl

/-- Canonical numbers compare as the rational numbers that they stand for. -/
theorem compare_eq {f g : UnpackedFloat} (hf : f.isFinite = true) (hg : g.isFinite = true) (hcf : Canonical spec f)
    (hcg : Canonical spec g) : f.compare g = some (compare (value f) (value g)) := by
  cases f with
  | notANumber => cases hf
  | infinity s => cases hf
  | zero s =>
    cases g with
    | notANumber => cases hg
    | infinity t => cases hg
    | zero t => rfl
    | finite t n e' hn =>
      have hpos := magnitude_pos hn e'
      cases t with
      | positive =>
        rw [value_positive, value_zero, compare_lt_iff_lt.2 hpos]
        rfl
      | negative =>
        rw [value_negative, value_zero, compare_gt_iff_gt.2 (neg_lt_zero.2 hpos)]
        rfl
  | finite s m e hm =>
    have hpos := magnitude_pos hm e
    cases g with
    | notANumber => cases hg
    | infinity t => cases hg
    | zero t =>
      cases s with
      | positive =>
        rw [value_positive, value_zero, compare_gt_iff_gt.2 hpos]
        rfl
      | negative =>
        rw [value_negative, value_zero, compare_lt_iff_lt.2 (neg_lt_zero.2 hpos)]
        rfl
    | finite t n e' hn =>
      have hpos' := magnitude_pos hn e'
      have hmag := compare_magnitude hcf hcg
      cases s <;> cases t
      · rw [value_negative, value_negative, compare_neg, ← hmag]
        rfl
      · rw [value_negative, value_positive, compare_lt_iff_lt.2 (by linarith)]
        rfl
      · rw [value_positive, value_negative, compare_gt_iff_gt.2 (by linarith)]
        rfl
      · rw [value_positive, value_positive, ← hmag]
        rfl

/-- A canonical number other than zero is the only one of its value. -/
theorem eq_of_value_eq {f g : UnpackedFloat} (hf : f.isFinite = true) (hg : g.isFinite = true)
    (hcf : Canonical spec f) (hcg : Canonical spec g) (h : value f = value g) (hne : value f ≠ 0) : f = g := by
  have hcompare : f.compare g = some .eq := by rw [compare_eq hf hg hcf hcg, compare_eq_iff_eq.2 h]
  cases f with
  | finite s m e hm =>
    cases g with
    | finite t n e' hn =>
      have hpos := magnitude_pos hm e
      have hpos' := magnitude_pos hn e'
      have hthen : (compare e e').then (compare m n) = .eq := by
        cases s <;> cases t <;> simp_all [UnpackedFloat.compare]
      obtain ⟨hexp, hmant⟩ := Ordering.then_eq_eq.1 hthen
      obtain rfl := compare_eq_iff_eq.1 hexp
      obtain rfl := compare_eq_iff_eq.1 hmant
      have hsign : s = t := by
        cases s <;> cases t
        · rfl
        · rw [value_negative, value_positive] at h
          linarith
        · rw [value_positive, value_negative] at h
          linarith
        · rfl
      rw [hsign]
    | _ => exact absurd h hne
  | _ => exact absurd rfl hne

/-! ### Packing -/

theorem exponentBias_eq (spec : Format) : (spec.exponentBias : ℤ) = 2 ^ (spec.exponentBits - 1) - 1 := by
  rw [Format.exponentBias, Nat.cast_sub (Nat.one_le_two_pow)]
  push_cast
  rfl

theorem toNat_implicitBit {n : Nat} (v : BitVec n) : (1#1 ++ v).toNat = 2 ^ n + v.toNat := by
  rw [BitVec.toNat_append, ← Nat.shiftLeft_add_eq_or_of_lt v.isLt, Nat.shiftLeft_eq]
  simp

theorem canonical_unpack (b : BitVec spec.numBits) : Canonical spec (unpack spec b) := by
  have hbits := mantissaBits_eq spec
  have hbias := exponentBias_eq spec
  have hmin : spec.minExponent = 3 - 2 ^ (spec.exponentBits - 1) - spec.mantissaBits := rfl
  fun_cases UnpackedFloat.unpack with
  | case1 => trivial
  | case2 => trivial
  | case3 => trivial
  | case4 mantissa exponentVec exponent signVec sign hinf hzero hmant =>
    have hexp : exponent + 1 = spec.minExponent := by
      have hvec : exponentVec.toNat = 0 := by rw [hzero, BitVec.toNat_zero]
      show (exponentVec.toNat : ℤ) - (spec.exponentBias + spec.mantissaBitsWithoutImplicit) + 1 = _
      rw [hvec, hbias, hmin, hbits]
      push_cast
      ring
    have hfit := mantissa.isLt
    refine ⟨?_, hexp.ge, .inr hexp⟩
    rw [hbits, Nat.pow_succ]
    omega
  | case5 mantissa exponentVec exponent signVec sign hinf hzero =>
    have hvec : exponentVec.toNat ≠ 0 := fun h => hzero (BitVec.eq_of_toNat_eq (by rw [h, BitVec.toNat_zero]))
    have hexp : spec.minExponent ≤ exponent := by
      show _ ≤ (exponentVec.toNat : ℤ) - (spec.exponentBias + spec.mantissaBitsWithoutImplicit)
      rw [hbias, hmin, hbits]
      push_cast
      generalize (2 : ℤ) ^ (spec.exponentBits - 1) = u
      omega
    have hfit := mantissa.isLt
    rw [Canonical, toNat_implicitBit, hbits, Nat.pow_succ]
    exact ⟨by omega, hexp, .inl (Nat.le_add_right _ _)⟩

private theorem unpack_normal (s : Sign) {E : BitVec spec.exponentBits} {M : BitVec spec.mantissaBitsWithoutImplicit}
    {m : Nat} {e : ℤ} (hm : 0 < m) (hinf : E ≠ -1#_) (hzero : E ≠ 0#_)
    (hmant : 2 ^ spec.mantissaBitsWithoutImplicit + M.toNat = m)
    (hexp : (E.toNat : ℤ) - (spec.exponentBias + spec.mantissaBitsWithoutImplicit) = e) :
    unpack spec (packComponents spec s E M) = .finite s m e hm := by
  subst hexp hmant
  simp only [UnpackedFloat.unpack, unpackExponent_packComponents, unpackMantissa_packComponents,
    unpackSign_packComponents, Sign.ofBitVec_toBitVec, if_neg hinf, if_neg hzero, toNat_implicitBit]

private theorem unpack_subnormal (s : Sign) {M : BitVec spec.mantissaBitsWithoutImplicit} {m : Nat} {e : ℤ}
    (hm : 0 < m) (hmant : M.toNat = m)
    (hexp : -((spec.exponentBias : ℤ) + spec.mantissaBitsWithoutImplicit) + 1 = e) :
    unpack spec (packComponents spec s 0#_ M) = .finite s m e hm := by
  have hinf : (0#(spec.exponentBits)) ≠ -1#_ := by simp [Nat.pos_iff_ne_zero.1 spec.he]
  have hM : M ≠ 0#_ := by
    rintro rfl
    simp at hmant
    omega
  subst hexp hmant
  simp only [UnpackedFloat.unpack, unpackExponent_packComponents, unpackMantissa_packComponents,
    unpackSign_packComponents, Sign.ofBitVec_toBitVec, if_neg hinf, if_true, dif_neg hM]
  simp

/-- The exponent of a canonical number that does not overflow. -/
theorem exponent_lt {s : Sign} {m : Nat} {e : ℤ} {hm : 0 < m} (hspec : 2 ≤ spec.exponentBits)
    (hc : Canonical spec (.finite s m e hm)) (hrange : (m : ℚ) * 2 ^ e < 2 ^ (2 ^ (spec.exponentBits - 1))) :
    e + spec.mantissaBits < 2 ^ (spec.exponentBits - 1) + 1 := by
  obtain ⟨-, -, hfull⟩ := hc
  by_contra hge
  have hpow : (2 : ℤ) ≤ 2 ^ (spec.exponentBits - 1) := le_self_pow₀ (by norm_num) (by omega)
  have hnormal : 2 ^ spec.mantissaBitsWithoutImplicit ≤ m := by
    rcases hfull with h | h
    · exact h
    · rw [Format.minExponent] at h
      generalize (2 : ℤ) ^ (spec.exponentBits - 1) = u at *
      omega
  have hm' : (2 : ℚ) ^ spec.mantissaBitsWithoutImplicit ≤ m := by exact_mod_cast hnormal
  have hbits := mantissaBits_eq spec
  have hlarge : (2 : ℚ) ^ (2 ^ (spec.exponentBits - 1)) ≤ m * 2 ^ e := by
    calc (2 : ℚ) ^ (2 ^ (spec.exponentBits - 1)) = 2 ^ ((2 ^ (spec.exponentBits - 1) : ℕ) : ℤ) :=
          (zpow_natCast _ _).symm
      _ ≤ 2 ^ ((spec.mantissaBitsWithoutImplicit : ℤ) + e) := by
          refine zpow_le_zpow_right₀ (by norm_num) ?_
          push_cast
          generalize (2 : ℤ) ^ (spec.exponentBits - 1) = u at *
          omega
      _ = 2 ^ spec.mantissaBitsWithoutImplicit * 2 ^ e := by rw [zpow_add₀ (by norm_num), zpow_natCast]
      _ ≤ m * 2 ^ e := by gcongr
  exact absurd hrange (not_lt.2 hlarge)

theorem abs_value_finite (s : Sign) (m : Nat) (e : ℤ) (hm : 0 < m) : |value (.finite s m e hm)| = m * 2 ^ e :=
  abs_apply_mul s m (zpow_pos (by norm_num) e)

/-- Packing loses nothing of a canonical number that does not overflow. -/
theorem unpack_pack {f : UnpackedFloat} (hspec : 2 ≤ spec.exponentBits) (hf : f.isFinite = true)
    (hc : Canonical spec f) (hrange : |value f| < 2 ^ (2 ^ (spec.exponentBits - 1))) :
    unpack spec (pack spec f) = f := by
  cases f with
  | notANumber => cases hf
  | infinity s => cases hf
  | zero s => exact unpack_packedZero
  | finite s m e hm =>
    rw [abs_value_finite] at hrange
    have hhigh := exponent_lt hspec hc hrange
    obtain ⟨hfit, hmin, hfull⟩ := hc
    have hbits := mantissaBits_eq spec
    have hbias := exponentBias_eq spec
    have hpow : 2 ^ spec.exponentBits = 2 * 2 ^ (spec.exponentBits - 1) := by
      rw [← Nat.pow_succ', Nat.succ_eq_add_one, Nat.sub_add_cancel (by omega)]
    have hpow' : ((2 ^ (spec.exponentBits - 1) : ℕ) : ℤ) = 2 ^ (spec.exponentBits - 1) := by push_cast; rfl
    have hmin' := hmin
    rw [Format.minExponent] at hmin'
    obtain ⟨biased, hbiased⟩ : ∃ biased : ℕ,
        (biased : ℤ) = e + spec.exponentBias + spec.mantissaBitsWithoutImplicit :=
      ⟨(e + spec.exponentBias + spec.mantissaBitsWithoutImplicit).toNat, Int.toNat_of_nonneg (by omega)⟩
    have hfits : biased + 1 < 2 ^ spec.exponentBits := by omega
    have hpos : 0 < biased := by omega
    have hover : ¬2 ^ spec.exponentBits ≤ biased + 1 := by omega
    simp only [UnpackedFloat.pack, ← hbiased, Int.toNat_natCast, if_neg hover]
    have hlog := Nat.log2_eq_iff (Nat.pos_iff_ne_zero.1 hm) (k := spec.mantissaBitsWithoutImplicit)
    split
    · rename_i hnormal
      have hnormal : m.log2 = spec.mantissaBitsWithoutImplicit := by omega
      obtain ⟨hlow, hhigh'⟩ := hlog.1 hnormal
      have htoNat : (BitVec.ofNat spec.exponentBits biased).toNat = biased := by
        rw [BitVec.toNat_ofNat, Nat.mod_eq_of_lt (by omega)]
      refine unpack_normal s hm ?_ ?_ ?_ ?_
      · intro h
        have := congrArg BitVec.toNat h
        rw [htoNat, BitVec.neg_one_eq_allOnes, BitVec.toNat_allOnes] at this
        omega
      · intro h
        have := congrArg BitVec.toNat h
        rw [htoNat, BitVec.toNat_zero] at this
        omega
      · rw [Nat.pow_succ] at hhigh'
        rw [BitVec.toNat_ofNat, Nat.mod_eq_sub_mod hlow, Nat.mod_eq_of_lt (by omega)]
        omega
      · rw [htoNat]
        omega
    · rename_i hsub
      have hlow : ¬2 ^ spec.mantissaBitsWithoutImplicit ≤ m := by
        intro h
        rw [hbits] at hfit
        exact hsub (by rw [hlog.2 ⟨h, hfit⟩, hbits])
      have hexp : e = spec.minExponent := hfull.resolve_left hlow
      refine unpack_subnormal s hm ?_ ?_
      · rw [BitVec.toNat_ofNat, Nat.mod_eq_of_lt (by omega)]
      · rw [hexp, Format.minExponent]
        omega

/-! ### Sums, differences and products -/

/-- `f` is what an operation whose exact result is `x` gives. -/
structure RoundsTo (spec : Format) (x : ℚ) (f : UnpackedFloat) : Prop where
  isFinite : f.isFinite = true
  canonical : Canonical spec f
  zero : x = 0 → value f = 0
  rounds : x ≠ 0 → Rounds spec x f

theorem Rounds.roundsTo {x : ℚ} {f : UnpackedFloat} (h : Rounds spec x f) (hx : x ≠ 0) : RoundsTo spec x f :=
  ⟨h.isFinite, h.canonical, fun h₀ => absurd h₀ hx, fun _ => h⟩

theorem roundsTo_zero (s : Sign) : RoundsTo spec 0 (.zero s) := ⟨rfl, trivial, fun _ => rfl, fun h => absurd rfl h⟩

/-- A canonical number is its own rounding. -/
theorem roundsTo_self {f : UnpackedFloat} (hf : f.isFinite = true) (hc : Canonical spec f) :
    RoundsTo spec (value f) f := by
  cases f with
  | notANumber => cases hf
  | infinity s => cases hf
  | zero s => exact roundsTo_zero s
  | finite s m e hm =>
    have hpos : (0 : ℚ) < 2 ^ e := zpow_pos (by norm_num) e
    have hne : value (.finite s m e hm) ≠ 0 := by
      rw [← abs_pos, abs_value_finite]
      exact magnitude_pos hm e
    refine Rounds.roundsTo ⟨rfl, hc, totalExponent m e, s.apply m, ?_, ?_, ?_, ?_⟩ hne
    · rw [abs_value_finite]
      exact (totalExponent_bounds hm e).1
    · rw [abs_value_finite]
      exact (totalExponent_bounds hm e).2
    · rw [← canonical_iff.1 hc]
      rfl
    · rw [sub_self, abs_zero]
      positivity

theorem value_neg (f : UnpackedFloat) : value f.neg = -value f := by
  cases f with
  | finite s m e hm =>
    cases s
    · rw [value_negative, neg_neg]
      exact value_positive m e hm
    · rw [value_positive]
      exact value_negative m e hm
  | _ => exact (neg_zero (G := ℚ)).symm

theorem canonical_neg {f : UnpackedFloat} (h : Canonical spec f) : Canonical spec f.neg := by
  cases f <;> exact h

theorem isFinite_neg {f : UnpackedFloat} (h : f.isFinite = true) : f.neg.isFinite = true := by
  cases f <;> exact h

private theorem decreaseExponent_value (s : Sign) (m : Nat) {e e' : ℤ} (h : e' ≤ e) :
    ((s.apply ((decreaseExponent m e e').1 : ℕ) : ℤ) : ℚ) * 2 ^ e' = s.apply m * 2 ^ e := by
  rw [decreaseExponent, Nat.shiftLeft_eq, two_zpow_toNat h]
  cases s <;> simp only [Sign.apply] <;> push_cast <;> ring

theorem add_roundsTo {f g : UnpackedFloat} (hf : f.isFinite = true) (hg : g.isFinite = true)
    (hcf : Canonical spec f) (hcg : Canonical spec g) :
    RoundsTo spec (value f + value g) (UnpackedFloat.add spec f g) := by
  cases f with
  | notANumber => cases hf
  | infinity s => cases hf
  | zero s =>
    cases g with
    | notANumber => cases hg
    | infinity t => cases hg
    | zero t =>
      rw [value_zero, value_zero, add_zero, UnpackedFloat.add]
      split <;> exact roundsTo_zero _
    | finite t n e' hn =>
      rw [value_zero, zero_add]
      exact roundsTo_self rfl hcg
  | finite s m e hm =>
    cases g with
    | notANumber => cases hg
    | infinity t => cases hg
    | zero t =>
      rw [value_zero, add_zero]
      exact roundsTo_self rfl hcf
    | finite t n e' hn =>
      obtain ⟨sum, hsum⟩ : ∃ sum : ℤ, sum = s.apply ((decreaseExponent m e (min e e')).1 : ℕ) +
          t.apply ((decreaseExponent n e' (min e e')).1 : ℕ) := ⟨_, rfl⟩
      have hvalue : value (.finite s m e hm) + value (.finite t n e' hn) = sum * 2 ^ min e e' := by
        rw [hsum, Int.cast_add, add_mul, decreaseExponent_value s m (min_le_left e e'),
          decreaseExponent_value t n (min_le_right e e')]
        rfl
      have hadd : UnpackedFloat.add spec (.finite s m e hm) (.finite t n e' hn) =
          UnpackedFloat.normalize spec sum (min e e') .positive := by
        rw [hsum]
        rfl
      rw [hvalue, hadd]
      rcases normalize_rounds spec sum (min e e') .positive with ⟨hzero, hres⟩ | ⟨hne, hrounds⟩
      · rw [hres, hzero, Int.cast_zero, zero_mul]
        exact roundsTo_zero _
      · exact hrounds.roundsTo (by positivity)

/-- A difference is a sum with the negative. -/
theorem sub_eq_add_neg_unpacked (f g : UnpackedFloat) :
    UnpackedFloat.sub spec f g = UnpackedFloat.add spec f g.neg := by
  cases f with
  | notANumber => cases g <;> rfl
  | infinity s =>
    cases g with
    | infinity t => cases s <;> cases t <;> rfl
    | _ => rfl
  | zero s =>
    cases g with
    | zero t => cases s <;> cases t <;> rfl
    | _ => rfl
  | finite s m e hm =>
    cases g with
    | finite t n e' hn =>
      have hneg (a : ℤ) : (-t).apply a = -t.apply a := by cases t <;> simp [Sign.apply]
      simp only [UnpackedFloat.sub, UnpackedFloat.neg, UnpackedFloat.add, hneg, ← Int.sub_eq_add_neg]
    | _ => rfl

theorem sub_roundsTo {f g : UnpackedFloat} (hf : f.isFinite = true) (hg : g.isFinite = true)
    (hcf : Canonical spec f) (hcg : Canonical spec g) :
    RoundsTo spec (value f - value g) (UnpackedFloat.sub spec f g) := by
  have h := add_roundsTo hf (isFinite_neg hg) hcf (canonical_neg hcg)
  rwa [value_neg, ← sub_eq_add_neg_unpacked, ← sub_eq_add_neg] at h

/-- The exponent of a product of canonical mantissas is not above the one of the format. -/
theorem mul_exponent_le {s t : Sign} {m n : Nat} {e e' : ℤ} {hm : 0 < m} {hn : 0 < n}
    (hcm : Canonical spec (.finite s m e hm)) (hcn : Canonical spec (.finite t n e' hn)) :
    e + e' ≤ spec.targetExponent (totalExponent (m * n) (e + e')) := by
  obtain ⟨-, hmin, hfull⟩ := hcm
  obtain ⟨-, hmin', hfull'⟩ := hcn
  have hbits := mantissaBits_eq spec
  have hnonpos := minExponent_nonpos spec
  have hlog := Nat.le_log2 (Nat.mul_pos hm hn).ne' (k := spec.mantissaBitsWithoutImplicit)
  rw [Format.targetExponent, totalExponent]
  -- a mantissa that fills the format makes the product fill it
  have hlarge (h : 2 ^ spec.mantissaBitsWithoutImplicit ≤ m * n) :
      e + e' ≤ max (((m * n).log2 : ℤ) + 1 + (e + e') - spec.mantissaBits) spec.minExponent := by
    have := hlog.2 h
    omega
  rcases hfull with hm' | hmin
  · exact hlarge (hm'.trans (Nat.le_mul_of_pos_right m hn))
  · rcases hfull' with hn' | hmin'
    · exact hlarge (hn'.trans (Nat.le_mul_of_pos_left n hm))
    · omega

theorem mul_roundsTo {f g : UnpackedFloat} (hf : f.isFinite = true) (hg : g.isFinite = true)
    (hcf : Canonical spec f) (hcg : Canonical spec g) :
    RoundsTo spec (value f * value g) (UnpackedFloat.mul spec f g) := by
  cases f with
  | notANumber => cases hf
  | infinity s => cases hf
  | zero s =>
    rw [value_zero, zero_mul]
    cases g with
    | notANumber => cases hg
    | infinity t => cases hg
    | zero t => exact roundsTo_zero _
    | finite t n e' hn => exact roundsTo_zero _
  | finite s m e hm =>
    cases g with
    | notANumber => cases hg
    | infinity t => cases hg
    | zero t =>
      rw [value_zero, mul_zero]
      exact roundsTo_zero _
    | finite t n e' hn =>
      have hvalue :
          value (.finite s m e hm) * value (.finite t n e' hn) = (s * t).apply (m * n : ℕ) * 2 ^ (e + e') := by
        rw [value, value, zpow_add₀ (by norm_num)]
        cases s <;> cases t <;> simp only [Sign.apply] <;> push_cast <;> ring
      have hne : value (.finite s m e hm) * value (.finite t n e' hn) ≠ 0 := by
        rw [← abs_pos, abs_mul, abs_value_finite, abs_value_finite]
        exact mul_pos (magnitude_pos hm e) (magnitude_pos hn e')
      have hrounds := roundWithAccuracy_rounds spec (s * t) (Nat.mul_pos hm hn) (mul_exponent_le hcf hcg)
      rw [← hvalue] at hrounds
      exact hrounds.roundsTo hne

/-- The conversion of an integer. -/
theorem normalize_intCast_roundsTo (n : ℤ) (s : Sign) :
    RoundsTo spec (n : ℚ) (UnpackedFloat.normalize spec n 0 s) := by
  rcases normalize_rounds spec n 0 s with ⟨hzero, hres⟩ | ⟨hne, hrounds⟩
  · rw [hres, hzero, Int.cast_zero]
    exact roundsTo_zero _
  · rw [zpow_zero, mul_one] at hrounds
    exact hrounds.roundsTo (Int.cast_ne_zero.2 hne)

namespace RoundsTo

variable {x : ℚ} {f : UnpackedFloat}

theorem error_le (h : RoundsTo spec x f) {k : ℤ} (hk : spec.minExponent + spec.mantissaBits ≤ k) (hx : |x| < 2 ^ k) :
    |value f - x| ≤ 2 ^ (k - spec.mantissaBits) / 2 := by
  by_cases hzero : x = 0
  · rw [h.zero hzero, hzero, sub_zero, abs_zero]
    positivity
  · exact (h.rounds hzero).error_le hk hx

theorem relative_error_le (h : RoundsTo spec x f)
    (hx : x = 0 ∨ 2 ^ (spec.minExponent + spec.mantissaBits - 1) ≤ |x|) :
    |value f - x| ≤ |x| / 2 ^ spec.mantissaBits := by
  by_cases hzero : x = 0
  · rw [h.zero hzero, hzero, sub_zero, abs_zero, zero_div]
  · exact (h.rounds hzero).relative_error_le (hx.resolve_left hzero)

theorem value_eq_self (h : RoundsTo spec x f) {k : ℤ} (hk : spec.minExponent + spec.mantissaBits ≤ k)
    (hx : |x| < 2 ^ k) {j : ℤ} (hj : x = j * 2 ^ (k - spec.mantissaBits)) : value f = x := by
  by_cases hzero : x = 0
  · rw [h.zero hzero, hzero]
  · exact (h.rounds hzero).value_eq_self hk hx hj

/-- A rounding that does not overflow is kept by packing. -/
theorem unpack_pack (h : RoundsTo spec x f) (hspec : 2 ≤ spec.exponentBits) {k : ℕ}
    (hk : spec.minExponent + spec.mantissaBits ≤ k) (htop : k + 1 ≤ 2 ^ (spec.exponentBits - 1))
    (hx : |x| < 2 ^ (k : ℤ)) : unpack spec (pack spec f) = f := by
  have herr := h.error_le hk hx
  have habs : |value f| ≤ |value f - x| + |x| := by
    have := abs_add_le (value f - x) x
    rwa [sub_add_cancel] at this
  have hhalf : (2 : ℚ) ^ ((k : ℤ) - spec.mantissaBits) / 2 ≤ 2 ^ (k : ℤ) := by
    have hle : (2 : ℚ) ^ ((k : ℤ) - spec.mantissaBits) ≤ 2 ^ (k : ℤ) :=
      zpow_le_zpow_right₀ (by norm_num) (by omega)
    have : (0 : ℚ) ≤ 2 ^ ((k : ℤ) - spec.mantissaBits) := by positivity
    linarith
  have hsum : (2 : ℚ) ^ (k : ℤ) + 2 ^ (k : ℤ) = 2 ^ (k + 1) := by
    rw [zpow_natCast, pow_succ]
    ring
  have hpow : (2 : ℚ) ^ (k + 1) ≤ 2 ^ (2 ^ (spec.exponentBits - 1)) := pow_le_pow_right₀ (by norm_num) htop
  exact FloatRound.unpack_pack hspec h.isFinite h.canonical (by linarith)

end RoundsTo

/-! ### Binary32 -/

section Binary32

variable {x y : Float32}

/-- The rational number that a float stands for; zero if it is not finite. -/
def toRat (x : Float32) : ℚ := value x.toModel.unpack

theorem canonical_toModel (x : Float32) : Canonical .binary32 x.toModel.unpack := canonical_unpack _

theorem lt_iff (hx : x.isFinite) (hy : y.isFinite) : x < y ↔ toRat x < toRat y := by
  have hlt : x < y ↔ x.toModel.unpack.lt y.toModel.unpack = true := decide_eq_true_iff
  rw [hlt, UnpackedFloat.lt, compare_eq hx hy (canonical_toModel x) (canonical_toModel y), beq_iff_eq,
    Option.some_inj, compare_lt_iff_lt]
  rfl

theorem le_iff (hx : x.isFinite) (hy : y.isFinite) : x ≤ y ↔ toRat x ≤ toRat y := by
  have h := FloatOrder.not_le_iff_lt_f32 (FloatOrder.isNaN_float32_of_isFinite hx)
    (FloatOrder.isNaN_float32_of_isFinite hy)
  rw [lt_iff hy hx] at h
  rw [← not_iff_not, h, not_le]

/-- An operation that does not overflow gives a float that rounds its exact result. -/
theorem unpack_pack_roundsTo {q : ℚ} {f : UnpackedFloat} (h : RoundsTo .binary32 q f) (hq : |q| < 2 ^ (127 : ℤ)) :
    (Float32.Model.pack f).unpack = f :=
  h.unpack_pack (by decide) (by decide) (by decide) hq

theorem float32_add_roundsTo (hx : x.isFinite) (hy : y.isFinite) (hq : |toRat x + toRat y| < 2 ^ (127 : ℤ)) :
    RoundsTo .binary32 (toRat x + toRat y) (x + y).toModel.unpack := by
  have h := add_roundsTo hx hy (canonical_toModel x) (canonical_toModel y)
  exact (unpack_pack_roundsTo h hq).symm ▸ h

theorem float32_sub_roundsTo (hx : x.isFinite) (hy : y.isFinite) (hq : |toRat x - toRat y| < 2 ^ (127 : ℤ)) :
    RoundsTo .binary32 (toRat x - toRat y) (x - y).toModel.unpack := by
  have h := sub_roundsTo hx hy (canonical_toModel x) (canonical_toModel y)
  exact (unpack_pack_roundsTo h hq).symm ▸ h

theorem float32_mul_roundsTo (hx : x.isFinite) (hy : y.isFinite) (hq : |toRat x * toRat y| < 2 ^ (127 : ℤ)) :
    RoundsTo .binary32 (toRat x * toRat y) (x * y).toModel.unpack := by
  have h := mul_roundsTo hx hy (canonical_toModel x) (canonical_toModel y)
  exact (unpack_pack_roundsTo h hq).symm ▸ h

theorem float32_neg (hx : x.isFinite) (hlt : |toRat x| < 2 ^ (127 : ℤ)) :
    (-x).isFinite = true ∧ toRat (-x) = -toRat x := by
  have hself := roundsTo_self (isFinite_neg hx) (canonical_neg (canonical_toModel x))
  have hvalue : value x.toModel.unpack.neg = -toRat x := value_neg _
  have hpack := unpack_pack_roundsTo hself (by rwa [hvalue, abs_neg])
  constructor
  · show (Float32.Model.pack x.toModel.unpack.neg).unpack.isFinite = true
    rw [hpack]
    exact isFinite_neg hx
  · show value (Float32.Model.pack x.toModel.unpack.neg).unpack = _
    rw [hpack, hvalue]

/-! ### Small integers -/

/-- A rounding of an integer below `2 ^ 24` is that integer. -/
theorem value_eq_intCast {n : ℤ} {f : UnpackedFloat} (h : RoundsTo .binary32 n f) (hn : |n| < 2 ^ 24) :
    value f = n := by
  have hlt : |(n : ℚ)| < 2 ^ (24 : ℤ) := by exact_mod_cast hn
  refine h.value_eq_self (by decide) hlt (j := n) ?_
  show (n : ℚ) = n * 2 ^ (0 : ℤ)
  rw [zpow_zero, mul_one]

theorem uint64_toFloat32 (n : UInt64) (hn : n.toNat < 2 ^ 23) :
    n.toFloat32.isFinite = true ∧ toRat n.toFloat32 = n.toNat := by
  have hround : RoundsTo .binary32 ((n.toNat : ℤ) : ℚ)
      (UnpackedFloat.normalize Format.binary32 (n.toNat : ℤ) 0 .positive) := normalize_intCast_roundsTo _ _
  have habs : |(n.toNat : ℤ)| < 2 ^ 24 := by
    rw [abs_of_nonneg (Int.natCast_nonneg _)]
    omega
  have hpack := unpack_pack_roundsTo hround
    (lt_trans (by exact_mod_cast habs) (show (2 : ℚ) ^ (24 : ℤ) < _ by norm_num))
  constructor
  · show (Float32.Model.pack (UnpackedFloat.normalize Format.binary32 (n.toNat : ℤ) 0 .positive)).unpack.isFinite = true
    rw [hpack]
    exact hround.isFinite
  · show value (Float32.Model.pack (UnpackedFloat.normalize Format.binary32 (n.toNat : ℤ) 0 .positive)).unpack = _
    rw [hpack, value_eq_intCast hround habs, Int.cast_natCast]

theorem float32_ofNat {n : Nat} (hn : n < 2 ^ 23) :
    (Float32.ofNat n).isFinite = true ∧ toRat (Float32.ofNat n) = n := by
  obtain ⟨one, hone⟩ : ∃ one, one = Float32.exactlyRepresentablePowersOfTen[0] := ⟨_, rfl⟩
  have hproduct : Float32.ofNat n = n.toUInt64.toFloat32 * one := by
    rw [hone]
    exact dif_pos ⟨hn, by decide⟩
  have hunpack : one.toModel.unpack = .finite .positive 8388608 (-23) (by decide) := by
    rw [hone]
    rfl
  have honeFin : one.isFinite = true := congrArg UnpackedFloat.isFinite hunpack
  have honeRat : toRat one = 1 := by
    rw [toRat, hunpack, value_positive]
    norm_num
  have htoNat : n.toUInt64.toNat = n := by
    rw [Nat.toUInt64_eq, UInt64.toNat_ofNat']
    omega
  obtain ⟨hfin, hrat⟩ := uint64_toFloat32 n.toUInt64 (by omega)
  rw [htoNat] at hrat
  have hlt : |(n : ℤ)| < 2 ^ 24 := by
    rw [abs_of_nonneg (Int.natCast_nonneg _)]
    omega
  have hround := float32_mul_roundsTo hfin honeFin (by
    rw [hrat, honeRat, mul_one]
    exact lt_trans (by exact_mod_cast hlt) (show (2 : ℚ) ^ (24 : ℤ) < _ by norm_num))
  rw [hrat, honeRat, mul_one] at hround
  rw [hproduct]
  refine ⟨hround.isFinite, ?_⟩
  have hvalue := value_eq_intCast (n := n) (by exact_mod_cast hround) hlt
  exact_mod_cast hvalue

/-- An integer below `2 ^ 23` is a float. -/
theorem float32_ofInt {n : ℤ} (hn : |n| < 2 ^ 23) :
    (Float32.ofInt n).isFinite = true ∧ toRat (Float32.ofInt n) = n := by
  cases n with
  | ofNat n =>
    have hlt : n < 2 ^ 23 := by
      rw [Int.ofNat_eq_natCast, abs_of_nonneg (Int.natCast_nonneg _)] at hn
      omega
    obtain ⟨hfin, hrat⟩ := float32_ofNat hlt
    exact ⟨hfin, by rw [Int.ofNat_eq_natCast, Int.cast_natCast]; exact hrat⟩
  | negSucc n =>
    have hlt : n.succ < 2 ^ 23 := by
      rw [Int.negSucc_eq, abs_neg, abs_of_nonneg (by omega)] at hn
      omega
    obtain ⟨hfin, hrat⟩ := float32_ofNat hlt
    have hsmall : |toRat (Float32.ofNat n.succ)| < 2 ^ (127 : ℤ) := by
      rw [hrat, abs_of_nonneg (Nat.cast_nonneg _)]
      exact lt_trans (by exact_mod_cast hlt) (show (2 : ℚ) ^ (23 : ℤ) < _ by norm_num)
    obtain ⟨hfin', hrat'⟩ := float32_neg hfin hsmall
    refine ⟨hfin', ?_⟩
    show toRat (-Float32.ofNat n.succ) = _
    rw [hrat', hrat, Int.cast_negSucc]

theorem toRat_one : toRat 1.0 = 1 := by
  show value (.finite .positive 8388608 (-23) (by decide)) = 1
  rw [value_positive]
  norm_num

end Binary32

end FloatRound
