import Mathlib

/-!
# Rounding of binary floating point numbers

What the operations of the unpacked floats compute, in terms of rational values.  A shift to the right keeps the
mantissa with a round bit and a sticky bit for what it drops (`Keeps`), so that the rounded mantissa is at most half a
unit away.  Every operation rounds its exact result this way (`Rounds`): a result is canonical, at most half a unit
away from the exact value, and the exact value itself when that is less than half a unit away from a multiple of the
unit.
-/

namespace FloatRound

open Float.Model Float.Model.UnpackedFloat

/-! ### Shifts to the right -/

/-- The extended mantissa stands for `n / d`: the mantissa with the round bit is `2 * n / d`, and the sticky bit says
whether something is left. -/
structure KeepsRatio (em : ExtendedMantissa) (n d : Nat) : Prop where
  bits : 2 * em.mantissa + em.roundBit.toNat = 2 * n / d
  sticky : em.stickyBit = true ↔ 2 * n % d ≠ 0

/-- The quotient of a division with the accuracy of its remainder. -/
theorem keepsRatio_fraction (n : Nat) {d : Nat} (hd : 0 < d) :
    KeepsRatio (ExtendedMantissa.ofMantissaAndAccuracy (n / d) (accuracyOfFraction (n % d) d)) n d := by
  obtain ⟨q, hq⟩ : ∃ q, q = n / d := ⟨_, rfl⟩
  obtain ⟨r, hr⟩ : ∃ r, r = n % d := ⟨_, rfl⟩
  have hlt : r < d := hr ▸ Nat.mod_lt n hd
  have hn : 2 * n = d * (2 * q) + 2 * r := by
    rw [← Nat.div_add_mod n d, ← hq, ← hr]
    ring
  have hsucc : d * (2 * q + 1) = d * (2 * q) + d := by ring
  have hbelow (h : 2 * r < d) : 2 * n / d = 2 * q ∧ 2 * n % d = 2 * r := by
    rw [hn, Nat.mul_add_div hd, Nat.div_eq_of_lt h, Nat.mul_add_mod, Nat.mod_eq_of_lt h]
    exact ⟨rfl, rfl⟩
  have habove (h : d ≤ 2 * r) : 2 * n / d = 2 * q + 1 ∧ 2 * n % d = 2 * r - d := by
    have hn : 2 * n = d * (2 * q + 1) + (2 * r - d) := by omega
    have hrest : 2 * r - d < d := by omega
    rw [hn, Nat.mul_add_div hd, Nat.div_eq_of_lt hrest, Nat.mul_add_mod, Nat.mod_eq_of_lt hrest]
    exact ⟨rfl, rfl⟩
  rw [← hq, ← hr, accuracyOfFraction]
  split
  · obtain ⟨hdiv, hmod⟩ := hbelow (by omega)
    refine ⟨hdiv.symm, iff_of_false Bool.false_ne_true ?_⟩
    omega
  · cases hcompare : compare (2 * r) d with
    | lt =>
      obtain ⟨hdiv, hmod⟩ := hbelow (compare_lt_iff_lt.1 hcompare)
      refine ⟨hdiv.symm, iff_of_true rfl ?_⟩
      omega
    | eq =>
      have heq : 2 * r = d := compare_eq_iff_eq.1 hcompare
      obtain ⟨hdiv, hmod⟩ := habove heq.ge
      refine ⟨hdiv.symm, iff_of_false Bool.false_ne_true ?_⟩
      omega
    | gt =>
      have hgt : d < 2 * r := compare_gt_iff_gt.1 hcompare
      obtain ⟨hdiv, hmod⟩ := habove hgt.le
      refine ⟨hdiv.symm, iff_of_true rfl ?_⟩
      omega

theorem KeepsRatio.shiftRightOne {em : ExtendedMantissa} {n d : Nat} (h : KeepsRatio em n d) :
    KeepsRatio em.shiftRightOne n (d * 2) := by
  obtain ⟨m, r, s⟩ := em
  obtain ⟨hbits, hsticky⟩ := h
  dsimp only at hbits hsticky
  have hround : (m % 2 != 0).toNat = m % 2 := by
    rcases Nat.mod_two_eq_zero_or_one m with h | h <;> simp [h]
  constructor
  · show 2 * (m / 2) + (m % 2 != 0).toNat = 2 * n / (d * 2)
    rw [hround, ← Nat.div_div_eq_div_mul, ← hbits]
    have := r.toNat_lt
    omega
  · show (r || s) = true ↔ 2 * n % (d * 2) ≠ 0
    rw [Nat.mod_mul, ← hbits, Bool.or_eq_true, hsticky]
    cases r with
    | false => simp
    | true =>
      have hodd : (2 * m + true.toNat) % 2 = 1 := by
        rw [Bool.toNat_true]
        omega
      have hpos : 0 < d := by
        rcases Nat.eq_zero_or_pos d with rfl | hpos
        · rw [Nat.div_zero] at hbits
          exact absurd hbits (Nat.succ_ne_zero _)
        · exact hpos
      rw [hodd, Nat.mul_one]
      exact iff_of_true (.inl rfl) (Nat.add_pos_right _ hpos).ne'

theorem KeepsRatio.shiftRight {em : ExtendedMantissa} {n d : Nat} (h : KeepsRatio em n d) (j : Nat) :
    KeepsRatio (em >>> j) n (d * 2 ^ j) := by
  induction j with
  | zero => rwa [Nat.pow_zero, Nat.mul_one]
  | succ j ih =>
    rw [Nat.pow_succ, ← Nat.mul_assoc]
    exact ih.shiftRightOne

/-- The rounded mantissa is at most half a unit away, and one of the two integers around. -/
theorem KeepsRatio.roundedMantissa {em : ExtendedMantissa} {n u : Nat} (h : KeepsRatio em n u) (hu : 0 < u) :
    2 * n ≤ u * (2 * em.roundedMantissa + 1) ∧ u * (2 * em.roundedMantissa) ≤ 2 * n + u ∧
      em.mantissa ≤ em.roundedMantissa ∧ em.roundedMantissa ≤ em.mantissa + 1 := by
  obtain ⟨hbits, hsticky⟩ := h
  have hdiv := Nat.div_add_mod (2 * n) u
  have hlt := Nat.mod_lt (2 * n) hu
  rw [← hbits] at hdiv
  obtain ⟨m, r, s⟩ := em
  have hparity := Nat.mod_two_eq_zero_or_one m
  simp only [ExtendedMantissa.roundedMantissa] at *
  have hup (j : Nat) : u * (2 * j) = 2 * (u * j) := by ring
  have hhalf (j : Nat) : u * (2 * j + 1) = 2 * (u * j) + u := by ring
  have hnext : u * (m + 1) = u * m + u := by ring
  cases r with
  | false =>
    -- the value is less than half a unit above the mantissa
    have hrounded : (ExtendedMantissa.accuracy ⟨m, false, s⟩).roundToNearestEven m = m := by cases s <;> rfl
    simp only [Bool.toNat_false, Nat.add_zero, hup] at hdiv
    rw [hrounded, hhalf, hup]
    omega
  | true =>
    simp only [Bool.toNat_true, hhalf] at hdiv
    cases s with
    | false =>
      -- a tie goes to one of the two neighbours
      have hzero : 2 * n % u = 0 := by simpa using hsticky
      have hrounded : (ExtendedMantissa.accuracy ⟨m, true, false⟩).roundToNearestEven m = m + m % 2 := rfl
      rcases hparity with heven | hodd
      · rw [heven, Nat.add_zero] at hrounded
        rw [hrounded, hhalf, hup]
        omega
      · rw [hrounded, hodd, hhalf, hup, hnext]
        omega
    | true =>
      have hrounded : (ExtendedMantissa.accuracy ⟨m, true, true⟩).roundToNearestEven m = m + 1 := rfl
      rw [hrounded, hhalf, hup, hnext]
      omega

theorem KeepsRatio.mantissa_eq {em : ExtendedMantissa} {n d : Nat} (h : KeepsRatio em n d) : em.mantissa = n / d := by
  have hhalf : 2 * n / d / 2 = n / d := by
    rw [Nat.div_div_eq_div_mul, Nat.mul_comm d 2, Nat.mul_div_mul_left _ _ (by norm_num)]
  have hbits := h.bits
  have := em.roundBit.toNat_lt
  omega

/-! ### Values -/

/-- The rational number that an unpacked float stands for. -/
def value : UnpackedFloat → ℚ
  | .finite s m e _ => s.apply m * 2 ^ e
  | _ => 0

/-- The mantissa fills the format, or the exponent is the smallest one. -/
def Canonical (spec : Format) : UnpackedFloat → Prop
  | .finite _ m e _ =>
    m < 2 ^ spec.mantissaBits ∧ spec.minExponent ≤ e ∧
      (2 ^ spec.mantissaBitsWithoutImplicit ≤ m ∨ e = spec.minExponent)
  | _ => True

/-- `f` is `x` rounded to the unit `2 ^ t` that the format has for numbers with the top digit `te`. -/
structure Rounds (spec : Format) (x : ℚ) (f : UnpackedFloat) : Prop where
  isFinite : f.isFinite = true
  canonical : Canonical spec f
  near : ∃ (te : ℤ) (r : ℤ), 2 ^ (te - 1) ≤ |x| ∧ |x| < 2 ^ te ∧
    value f = r * 2 ^ spec.targetExponent te ∧ |value f - x| ≤ 2 ^ spec.targetExponent te / 2

theorem mantissaBits_eq (spec : Format) : spec.mantissaBits = spec.mantissaBitsWithoutImplicit + 1 :=
  Nat.add_comm _ _

theorem minExponent_nonpos (spec : Format) : spec.minExponent ≤ 0 := by
  have hm := spec.hm
  have hpow : (1 : ℤ) ≤ 2 ^ (spec.exponentBits - 1) := one_le_pow₀ (by norm_num)
  rw [Format.minExponent, mantissaBits_eq]
  push_cast
  omega

/-- The top digit of a positive mantissa with its exponent. -/
theorem totalExponent_bounds {m : Nat} (hm : 0 < m) (e : ℤ) :
    (2 : ℚ) ^ (totalExponent m e - 1) ≤ m * 2 ^ e ∧ (m : ℚ) * 2 ^ e < 2 ^ totalExponent m e := by
  have hne : m ≠ 0 := Nat.pos_iff_ne_zero.1 hm
  have hlow : ((2 ^ m.log2 : ℕ) : ℚ) ≤ m := Nat.cast_le.2 (Nat.log2_self_le hne)
  have hhigh : (m : ℚ) < ((2 ^ (m.log2 + 1) : ℕ) : ℚ) := Nat.cast_lt.2 Nat.lt_log2_self
  have hpos : (0 : ℚ) < 2 ^ e := zpow_pos (by norm_num) e
  constructor
  · calc (2 : ℚ) ^ (totalExponent m e - 1) = ((2 ^ m.log2 : ℕ) : ℚ) * 2 ^ e := by
          rw [totalExponent, Nat.cast_pow, Nat.cast_ofNat, ← zpow_natCast, ← zpow_add₀ (by norm_num)]
          congr 1
          ring
      _ ≤ m * 2 ^ e := by gcongr
  · calc (m : ℚ) * 2 ^ e < ((2 ^ (m.log2 + 1) : ℕ) : ℚ) * 2 ^ e := by gcongr
      _ = 2 ^ totalExponent m e := by
          rw [totalExponent, Nat.cast_pow, Nat.cast_ofNat, ← zpow_natCast, ← zpow_add₀ (by norm_num)]
          push_cast
          rfl

/-- Canonical means that the exponent is the one that the format has for the top digit. -/
theorem canonical_iff {spec : Format} {s : Sign} {m : Nat} {e : ℤ} {hm : 0 < m} :
    Canonical spec (.finite s m e hm) ↔ e = spec.targetExponent (totalExponent m e) := by
  have hne : m ≠ 0 := Nat.pos_iff_ne_zero.1 hm
  have hlow := Nat.le_log2 hne (k := spec.mantissaBitsWithoutImplicit)
  have hhigh := Nat.log2_lt hne (k := spec.mantissaBits)
  rw [Canonical, ← hhigh, ← hlow, Format.targetExponent, totalExponent, mantissaBits_eq]
  omega

/-! ### Rounding -/

theorem two_zpow_toNat {a b : ℤ} (h : a ≤ b) : (2 : ℚ) ^ b = 2 ^ (b - a).toNat * 2 ^ a := by
  rw [← zpow_natCast, ← zpow_add₀ (by norm_num), Int.toNat_of_nonneg (by omega)]
  congr 1
  omega

theorem shiftToExponent_of_le {m : Nat} {e t : ℤ} (acc : Accuracy) (h : t ≤ e) :
    shiftToExponent m e acc t = (ExtendedMantissa.ofMantissaAndAccuracy m acc, e) := by
  have hshift : (t - e).toNat = 0 := by omega
  rw [shiftToExponent, hshift]
  simp
  rfl

/-- The second half of a rounding: the rounded mantissa is brought back into the format. -/
def settle (spec : Format) (s : Sign) (r : Nat) (t : ℤ) : UnpackedFloat :=
  let (em, e) := shiftToTargetExponent spec r t .exact
  if h : em.mantissa = 0 then .zero s else .finite s em.mantissa e (Nat.pos_of_ne_zero h)

theorem roundWithAccuracy_eq (spec : Format) (s : Sign) (m : Nat) (e : ℤ) (acc : Accuracy) :
    roundWithAccuracy spec s m e acc =
      settle spec s (shiftToTargetExponent spec m e acc).1.roundedMantissa (shiftToTargetExponent spec m e acc).2 :=
  rfl

theorem settle_of_lt {spec : Format} (s : Sign) {r : Nat} {t : ℤ} (hr : r < 2 ^ spec.mantissaBits)
    (ht : spec.minExponent ≤ t) :
    settle spec s r t = if h : r = 0 then .zero s else .finite s r t (Nat.pos_of_ne_zero h) := by
  have hlog : r.log2 < spec.mantissaBits := by
    rcases Nat.eq_zero_or_pos r with rfl | hpos
    · rw [mantissaBits_eq]
      exact Nat.succ_pos _
    · exact (Nat.log2_lt (Nat.pos_iff_ne_zero.1 hpos)).2 hr
  have htarget : spec.targetExponent (totalExponent r t) ≤ t := by
    rw [Format.targetExponent, totalExponent]
    omega
  rw [settle, shiftToTargetExponent, shiftToExponent_of_le _ htarget]
  rfl

/-- Only a mantissa that outgrew the format moves, by one. -/
theorem settle_of_eq {spec : Format} (s : Sign) {t : ℤ} (ht : spec.minExponent ≤ t) :
    settle spec s (2 ^ spec.mantissaBits) t =
      .finite s (2 ^ spec.mantissaBitsWithoutImplicit) (t + 1) (Nat.two_pow_pos _) := by
  have htarget : spec.targetExponent (totalExponent (2 ^ spec.mantissaBits) t) = t + 1 := by
    rw [Format.targetExponent, totalExponent, Nat.log2_two_pow]
    omega
  have hshift : (t + 1 - t).toNat = 1 := by omega
  have hhalf : (ExtendedMantissa.ofMantissaAndAccuracy (2 ^ spec.mantissaBits) .exact >>> 1).mantissa =
      2 ^ spec.mantissaBitsWithoutImplicit := by
    show 2 ^ spec.mantissaBits / 2 = _
    rw [mantissaBits_eq, Nat.pow_succ]
    omega
  have hne : 2 ^ spec.mantissaBitsWithoutImplicit ≠ 0 := (Nat.two_pow_pos _).ne'
  rw [settle, shiftToTargetExponent, htarget, shiftToExponent, hshift]
  simp only [hhalf, hne, dite_false]
  rfl

theorem settle_spec {spec : Format} (s : Sign) {r : Nat} {t : ℤ} (hr : r ≤ 2 ^ spec.mantissaBits)
    (ht : spec.minExponent ≤ t) (hfull : t = spec.minExponent ∨ 2 ^ spec.mantissaBitsWithoutImplicit ≤ r) :
    (settle spec s r t).isFinite = true ∧ Canonical spec (settle spec s r t) ∧
      value (settle spec s r t) = s.apply r * 2 ^ t := by
  rcases Nat.lt_or_eq_of_le hr with hlt | rfl
  · rw [settle_of_lt s hlt ht]
    split
    · rename_i hzero
      subst hzero
      refine ⟨rfl, trivial, ?_⟩
      cases s <;> simp [value, Sign.apply]
    · exact ⟨rfl, ⟨hlt, ht, hfull.symm⟩, rfl⟩
  · rw [settle_of_eq s ht]
    refine ⟨rfl, ⟨?_, ?_, .inl le_rfl⟩, ?_⟩
    · exact Nat.pow_lt_pow_right (by norm_num) (by rw [mantissaBits_eq]; omega)
    · omega
    · have hpow : (2 : ℚ) ^ (t + 1) = 2 * 2 ^ t := by rw [zpow_add_one₀ (by norm_num), mul_comm]
      rw [value, hpow, mantissaBits_eq]
      cases s <;> simp only [Sign.apply] <;> push_cast <;> ring

theorem abs_apply_sub (s : Sign) (a b : Nat) (x y : ℚ) :
    |((s.apply a : ℤ) : ℚ) * x - (s.apply b : ℤ) * y| = |a * x - b * y| := by
  cases s with
  | positive => simp [Sign.apply]
  | negative =>
    have hneg : ((Sign.negative.apply a : ℤ) : ℚ) * x - (Sign.negative.apply b : ℤ) * y = -(a * x - b * y) := by
      simp only [Sign.apply]
      push_cast
      ring
    rw [hneg, abs_neg]

theorem abs_apply_mul (s : Sign) (a : Nat) {x : ℚ} (hx : 0 < x) : |((s.apply a : ℤ) : ℚ) * x| = a * x := by
  have h := abs_apply_sub s a 0 x 0
  rw [mul_zero, mul_zero, sub_zero, sub_zero] at h
  rw [h, abs_of_nonneg (by positivity)]

/-- The mantissa of a rounding fits into the format, and fills it above the smallest exponent. -/
theorem shifted_bounds {spec : Format} {m k : Nat} (hm : 0 < m) {e : ℤ}
    (hk : e + k = spec.targetExponent (totalExponent m e)) :
    m / 2 ^ k < 2 ^ spec.mantissaBits ∧
      (e + k = spec.minExponent ∨ 2 ^ spec.mantissaBitsWithoutImplicit ≤ m / 2 ^ k) := by
  have hne : m ≠ 0 := Nat.pos_iff_ne_zero.1 hm
  have hbits := mantissaBits_eq spec
  rw [Format.targetExponent, totalExponent] at hk
  constructor
  · have hlog : m.log2 < spec.mantissaBits + k := by omega
    refine Nat.div_lt_of_lt_mul ?_
    rw [← Nat.pow_add, Nat.add_comm]
    exact (Nat.log2_lt hne).1 hlog
  · by_cases hmin : e + k = spec.minExponent
    · exact .inl hmin
    · have hlog : spec.mantissaBitsWithoutImplicit + k ≤ m.log2 := by omega
      refine .inr ((Nat.le_div_iff_mul_le (Nat.two_pow_pos k)).2 ?_)
      rw [← Nat.pow_add]
      exact (Nat.le_log2 hne).1 hlog

/-- A quotient has the top digit of its integral part. -/
theorem totalExponent_ratio_bounds {n d : Nat} (hd : 0 < d) (hq : 0 < n / d) (e : ℤ) :
    (2 : ℚ) ^ (totalExponent (n / d) e - 1) ≤ n / d * 2 ^ e ∧ (n : ℚ) / d * 2 ^ e < 2 ^ totalExponent (n / d) e := by
  have hden : (0 : ℚ) < d := Nat.cast_pos.2 hd
  have hpos : (0 : ℚ) < 2 ^ e := zpow_pos (by norm_num) e
  have hfloor : ((n / d : ℕ) : ℚ) ≤ n / d := Nat.cast_div_le
  have hceil : (n : ℚ) / d < ((n / d : ℕ) : ℚ) + 1 := by
    rw [div_lt_iff₀' hden]
    exact_mod_cast Nat.lt_mul_div_succ n hd
  have hdigits : ((n / d : ℕ) : ℚ) + 1 ≤ 2 ^ ((n / d).log2 + 1) := by
    have hlt : n / d + 1 ≤ 2 ^ ((n / d).log2 + 1) := Nat.lt_log2_self
    exact_mod_cast hlt
  constructor
  · calc (2 : ℚ) ^ (totalExponent (n / d) e - 1) ≤ ((n / d : ℕ) : ℚ) * 2 ^ e := (totalExponent_bounds hq e).1
      _ ≤ n / d * 2 ^ e := by gcongr
  · calc (n : ℚ) / d * 2 ^ e < 2 ^ ((n / d).log2 + 1) * 2 ^ e := by
          gcongr
          exact hceil.trans_le hdigits
      _ = 2 ^ totalExponent (n / d) e := by
          rw [totalExponent, ← zpow_natCast, ← zpow_add₀ (by norm_num)]
          push_cast
          rfl

/-- A quotient whose exponent is not above the one of the format rounds. -/
theorem roundWithAccuracy_ratio_rounds (spec : Format) (s : Sign) {n d : Nat} (hd : 0 < d) (hq : 0 < n / d) {e : ℤ}
    (he : e ≤ spec.targetExponent (totalExponent (n / d) e)) :
    Rounds spec (s.apply n / d * 2 ^ e) (roundWithAccuracy spec s (n / d) e (accuracyOfFraction (n % d) d)) := by
  obtain ⟨k, hk⟩ : ∃ k : Nat, e + k = spec.targetExponent (totalExponent (n / d) e) :=
    ⟨(spec.targetExponent (totalExponent (n / d) e) - e).toNat, by omega⟩
  have hamount : (spec.targetExponent (totalExponent (n / d) e) - e).toNat = k := by omega
  obtain ⟨em, hem⟩ : ∃ em, em =
      ExtendedMantissa.ofMantissaAndAccuracy (n / d) (accuracyOfFraction (n % d) d) >>> k := ⟨_, rfl⟩
  have hkeeps : KeepsRatio em n (d * 2 ^ k) := hem ▸ (keepsRatio_fraction n hd).shiftRight k
  obtain ⟨r, hr⟩ : ∃ r, r = em.roundedMantissa := ⟨_, rfl⟩
  have hresult : roundWithAccuracy spec s (n / d) e (accuracyOfFraction (n % d) d) = settle spec s r (e + k) := by
    rw [roundWithAccuracy_eq, shiftToTargetExponent, shiftToExponent, hamount, hr, hem]
  obtain ⟨hlow, hhigh, hfloor, hceil⟩ := hkeeps.roundedMantissa (Nat.mul_pos hd (Nat.two_pow_pos k))
  obtain ⟨hfit, hfull⟩ := shifted_bounds hq hk
  rw [hkeeps.mantissa_eq, ← Nat.div_div_eq_div_mul, ← hr] at hfloor hceil
  rw [← hr] at hlow hhigh
  have hmin : spec.minExponent ≤ e + k := hk ▸ le_max_right _ _
  obtain ⟨hfinite, hcanonical, hvalue⟩ := settle_spec s (hceil.trans hfit) hmin (hfull.imp_right hfloor.trans')
  rw [hresult]
  have hpos : (0 : ℚ) < 2 ^ e := zpow_pos (by norm_num) e
  have hden : (0 : ℚ) < d := Nat.cast_pos.2 hd
  have hexact : (s.apply n / d * 2 ^ e : ℚ) = s.apply n * (2 ^ e / d) := by ring
  have hmagnitude : |(s.apply n / d * 2 ^ e : ℚ)| = n / d * 2 ^ e := by
    rw [hexact, abs_apply_mul s n (by positivity)]
    ring
  refine ⟨hfinite, hcanonical, totalExponent (n / d) e, s.apply r, ?_, ?_, ?_, ?_⟩
  · rw [hmagnitude]
    exact (totalExponent_ratio_bounds hd hq e).1
  · rw [hmagnitude]
    exact (totalExponent_ratio_bounds hd hq e).2
  · rw [hvalue, hk]
  · have hunit : (2 : ℚ) ^ (e + k) = 2 ^ k * 2 ^ e := by
      rw [zpow_add₀ (by norm_num), zpow_natCast, mul_comm]
    have hlow' : (2 * n : ℚ) ≤ d * 2 ^ k * (2 * r + 1) := by exact_mod_cast hlow
    have hhigh' : (d * 2 ^ k * (2 * r) : ℚ) ≤ 2 * n + d * 2 ^ k := by exact_mod_cast hhigh
    have hscale : (0 : ℚ) < 2 ^ e / d := by positivity
    rw [hvalue, hexact, abs_apply_sub, ← hk, hunit, abs_le]
    have hquotient : (r : ℚ) * (2 ^ k * 2 ^ e) = d * 2 ^ k * r * (2 ^ e / d) := by field_simp
    have hhalf : (2 : ℚ) ^ k * 2 ^ e = d * 2 ^ k * (2 ^ e / d) := by field_simp
    rw [hquotient, hhalf]
    constructor <;> nlinarith

/-- A mantissa whose exponent is not above the one of the format rounds. -/
theorem roundWithAccuracy_rounds (spec : Format) (s : Sign) {m : Nat} (hm : 0 < m) {e : ℤ}
    (he : e ≤ spec.targetExponent (totalExponent m e)) :
    Rounds spec (s.apply m * 2 ^ e) (roundWithAccuracy spec s m e .exact) := by
  have h := roundWithAccuracy_ratio_rounds spec s (n := m) (d := 1) one_pos (by rwa [Nat.div_one])
    (by rwa [Nat.div_one])
  rwa [Nat.div_one, Nat.mod_one, Nat.cast_one, div_one] at h

theorem log2_shiftLeft {m : Nat} (hm : 0 < m) (k : Nat) : (m <<< k).log2 = m.log2 + k := by
  have hne : m ≠ 0 := Nat.pos_iff_ne_zero.1 hm
  have hpos : 0 < 2 ^ k := Nat.two_pow_pos k
  rw [Nat.shiftLeft_eq, Nat.log2_eq_iff (Nat.mul_pos hm hpos).ne']
  constructor
  · rw [Nat.pow_add]
    exact Nat.mul_le_mul_right _ (Nat.log2_self_le hne)
  · rw [Nat.add_right_comm, Nat.pow_add]
    exact Nat.mul_lt_mul_of_pos_right Nat.lt_log2_self hpos

theorem round_rounds (spec : Format) (s : Sign) {m : Nat} (hm : 0 < m) (e : ℤ) :
    Rounds spec (s.apply m * 2 ^ e) (UnpackedFloat.round spec s m e) := by
  obtain ⟨k, hk⟩ : ∃ k, k = (e - spec.targetExponent (totalExponent m e)).toNat := ⟨_, rfl⟩
  have htotal : totalExponent (m <<< k) (e - k) = totalExponent m e := by
    rw [totalExponent, totalExponent, log2_shiftLeft hm]
    push_cast
    ring
  have hpos : 0 < m <<< k := by
    rw [Nat.shiftLeft_eq]
    exact Nat.mul_pos hm (Nat.two_pow_pos k)
  have hle : e - k ≤ spec.targetExponent (totalExponent (m <<< k) (e - k)) := by
    rw [htotal]
    omega
  have hvalue : (s.apply m * 2 ^ e : ℚ) = s.apply (m <<< k : ℕ) * 2 ^ (e - k) := by
    rw [Nat.shiftLeft_eq, zpow_sub₀ (by norm_num), zpow_natCast]
    have hpow : (2 : ℚ) ^ k ≠ 0 := by positivity
    cases s <;> simp only [Sign.apply] <;> push_cast <;> field_simp
  have hround : UnpackedFloat.round spec s m e = roundWithAccuracy spec s (m <<< k) (e - k) .exact := by
    rw [UnpackedFloat.round, decreaseExponent, ← hk]
  rw [hvalue, hround]
  exact roundWithAccuracy_rounds spec s hpos hle

/-- A mantissa with a sign rounds unless it is zero, which gives zero. -/
theorem normalize_rounds (spec : Format) (m e : ℤ) (s : Sign) :
    (m = 0 ∧ UnpackedFloat.normalize spec m e s = .zero s) ∨
      m ≠ 0 ∧ Rounds spec (m * 2 ^ e) (UnpackedFloat.normalize spec m e s) := by
  rcases lt_trichotomy m 0 with hneg | rfl | hpos
  · have hround := round_rounds spec .negative (m := (-m).toNat) (by omega) e
    have hm : Sign.negative.apply ((-m).toNat : ℤ) = m := by
      rw [Sign.apply, Int.toNat_of_nonneg (by omega), neg_neg]
    rw [hm] at hround
    refine .inr ⟨hneg.ne, ?_⟩
    rwa [UnpackedFloat.normalize, compare_lt_iff_lt.2 hneg]
  · exact .inl ⟨rfl, rfl⟩
  · have hround := round_rounds spec .positive (m := m.toNat) (by omega) e
    have hm : Sign.positive.apply (m.toNat : ℤ) = m := by
      rw [Sign.apply, Int.toNat_of_nonneg (by omega)]
    rw [hm] at hround
    refine .inr ⟨hpos.ne', ?_⟩
    rwa [UnpackedFloat.normalize, compare_gt_iff_gt.2 hpos]

/-! ### What a rounding is -/

namespace Rounds

variable {spec : Format} {x : ℚ} {f : UnpackedFloat}

theorem targetExponent_le {te k : ℤ} (hk : spec.minExponent + spec.mantissaBits ≤ k) (hlow : 2 ^ (te - 1) ≤ |x|)
    (hx : |x| < 2 ^ k) : spec.targetExponent te ≤ k - spec.mantissaBits := by
  have hlt : te - 1 < k := (zpow_lt_zpow_iff_right₀ (by norm_num : (1 : ℚ) < 2)).1 (hlow.trans_lt hx)
  rw [Format.targetExponent]
  omega

/-- Half a unit of the numbers below `2 ^ k`. -/
theorem error_le (h : Rounds spec x f) {k : ℤ} (hk : spec.minExponent + spec.mantissaBits ≤ k) (hx : |x| < 2 ^ k) :
    |value f - x| ≤ 2 ^ (k - spec.mantissaBits) / 2 := by
  obtain ⟨te, r, hlow, -, -, herr⟩ := h.near
  have hle := targetExponent_le hk hlow hx
  have hpow : (2 : ℚ) ^ spec.targetExponent te ≤ 2 ^ (k - spec.mantissaBits) :=
    zpow_le_zpow_right₀ (by norm_num) hle
  linarith

/-- Half a unit as a part of the number, above the subnormal numbers. -/
theorem relative_error_le (h : Rounds spec x f) (hx : 2 ^ (spec.minExponent + spec.mantissaBits - 1) ≤ |x|) :
    |value f - x| ≤ |x| / 2 ^ spec.mantissaBits := by
  obtain ⟨te, r, hlow, hhigh, -, herr⟩ := h.near
  have hlt : spec.minExponent + spec.mantissaBits - 1 < te :=
    (zpow_lt_zpow_iff_right₀ (by norm_num : (1 : ℚ) < 2)).1 (hx.trans_lt hhigh)
  have htarget : spec.targetExponent te = te - 1 + 1 - spec.mantissaBits := by
    rw [Format.targetExponent]
    omega
  have hunit : (2 : ℚ) ^ spec.targetExponent te / 2 = 2 ^ (te - 1) / 2 ^ spec.mantissaBits := by
    rw [htarget, zpow_sub₀ (by norm_num), zpow_add_one₀ (by norm_num), zpow_natCast]
    ring
  rw [hunit] at herr
  exact herr.trans (by gcongr)

/-- A multiple of the unit that is less than half a unit away is the result. -/
theorem value_eq (h : Rounds spec x f) {y : ℚ}
    (hy : ∀ te, 2 ^ (te - 1) ≤ |x| → |x| < 2 ^ te →
      (∃ j : ℤ, y = j * 2 ^ spec.targetExponent te) ∧ |y - x| < 2 ^ spec.targetExponent te / 2) :
    value f = y := by
  obtain ⟨te, r, hlow, hhigh, hvalue, herr⟩ := h.near
  obtain ⟨⟨j, hj⟩, hnear⟩ := hy te hlow hhigh
  have hunit : (0 : ℚ) < 2 ^ spec.targetExponent te := zpow_pos (by norm_num) _
  have hdiff : |((r - j : ℤ) : ℚ)| * 2 ^ spec.targetExponent te < 1 * 2 ^ spec.targetExponent te := by
    calc |((r - j : ℤ) : ℚ)| * 2 ^ spec.targetExponent te = |value f - y| := by
          rw [hvalue, hj, ← sub_mul, abs_mul, abs_of_pos hunit]
          push_cast
          rfl
      _ ≤ |value f - x| + |x - y| := abs_sub_le _ _ _
      _ < 1 * 2 ^ spec.targetExponent te := by
          rw [abs_sub_comm x y]
          linarith
  have hlt : |r - j| < 1 := by exact_mod_cast lt_of_mul_lt_mul_right hdiff hunit.le
  have hrj : r = j := by
    have := Int.abs_lt_one_iff.1 hlt
    omega
  rw [hvalue, hj, hrj]

/-- A number below `2 ^ k` that is a multiple of the unit there is its own rounding. -/
theorem value_eq_self (h : Rounds spec x f) {k : ℤ} (hk : spec.minExponent + spec.mantissaBits ≤ k)
    (hx : |x| < 2 ^ k) {j : ℤ} (hj : x = j * 2 ^ (k - spec.mantissaBits)) : value f = x := by
  refine h.value_eq ?_
  intro te hlow hhigh
  have hle := targetExponent_le hk hlow hx
  constructor
  · refine ⟨j * 2 ^ (k - spec.mantissaBits - spec.targetExponent te).toNat, ?_⟩
    rw [hj, two_zpow_toNat hle]
    push_cast
    ring
  · rw [sub_self, abs_zero]
    positivity

end Rounds

end FloatRound
