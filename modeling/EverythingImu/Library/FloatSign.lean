import EverythingImu.Library.FloatArith

/-!
# Numbers that are not negative

`NonNeg` numbers are those that are zero or have a positive sign; none of them is NaN.  Squares, sums, quotients and
roots of such numbers are such numbers, overflow included.  A sum or a square that is finite has finite operands
(`isFinite_of_add`, `isFinite_of_mul_self`), and the root of a finite number is finite (`isFinite_float_sqrt`).
-/

namespace FloatSign

open Float.Model Float.Model.UnpackedFloat FloatRound

variable {spec : Format} {f g : UnpackedFloat}

/-- Zero, or with a positive sign. -/
def NonNeg : UnpackedFloat → Prop
  | .notANumber => False
  | .infinity s => s = .positive
  | .zero _ => True
  | .finite s _ _ _ => s = .positive

theorem NonNeg.isNaN (h : NonNeg f) : f.isNaN = false := by
  cases f with
  | notANumber => cases h
  | _ => rfl

/-! ### Packing -/

theorem isFinite_unpack {b : BitVec spec.numBits} (h : unpackExponent b ≠ -1#_) : (unpack spec b).isFinite = true := by
  fun_cases UnpackedFloat.unpack with
  | case1 mantissa exponent signVec sign hexp hmant => exact absurd hexp h
  | case2 mantissa exponent hexp hmant => exact absurd hexp h
  | case3 => rfl
  | case4 => rfl
  | case5 => rfl

theorem not_isFinite_unpack {b : BitVec spec.numBits} (h : unpackExponent b = -1#_) :
    (unpack spec b).isFinite = false := by
  fun_cases UnpackedFloat.unpack with
  | case1 => rfl
  | case2 => rfl
  | case3 _ _ _ _ hinf => exact absurd h hinf
  | case4 _ _ _ _ _ hinf => exact absurd h hinf
  | case5 _ _ _ _ _ hinf => exact absurd h hinf

theorem nonNeg_unpack {b : BitVec spec.numBits} (hnan : (unpack spec b).isNaN = false)
    (hsign : unpackSign b = Sign.positive.toBitVec) : NonNeg (unpack spec b) := by
  have hpos : Sign.ofBitVec (unpackSign b) = .positive := by rw [hsign]; rfl
  revert hnan
  fun_cases UnpackedFloat.unpack with
  | case1 => exact fun _ => hpos
  | case2 => exact nofun
  | case3 => exact fun _ => trivial
  | case4 => exact fun _ => hpos
  | case5 => exact fun _ => hpos

/-- Only finite numbers are packed as finite ones. -/
theorem isFinite_of_unpack_pack (h : (unpack spec (pack spec f)).isFinite = true) : f.isFinite = true := by
  cases f with
  | notANumber =>
    have hexp : unpackExponent (pack spec .notANumber) = -1#_ := unpackExponent_packComponents
    rw [not_isFinite_unpack hexp] at h
    cases h
  | infinity s =>
    have hexp : unpackExponent (pack spec (.infinity s)) = -1#_ := unpackExponent_packComponents
    rw [not_isFinite_unpack hexp] at h
    cases h
  | zero s => rfl
  | finite s m e hm => rfl

theorem nonNeg_unpack_pack (h : NonNeg f) : NonNeg (unpack spec (pack spec f)) := by
  cases f with
  | notANumber => cases h
  | infinity s =>
    obtain rfl : s = .positive := h
    exact nonNeg_unpack (FloatOrder.isNaN_unpack_pack rfl) (unpackSign_packComponents ..)
  | zero s =>
    rw [UnpackedFloat.pack, unpack_packedZero]
    trivial
  | finite s m e hm =>
    obtain rfl : s = .positive := h
    refine nonNeg_unpack (FloatOrder.isNaN_unpack_pack rfl) ?_
    rw [UnpackedFloat.pack]
    split
    · exact unpackSign_packComponents ..
    · split <;> exact unpackSign_packComponents ..

/-! ### Operations -/

theorem nonNeg_of_lt {s : Sign} (h : (UnpackedFloat.zero s).lt f = true) : NonNeg f := by
  cases f with
  | notANumber => cases h
  | infinity t =>
    cases t with
    | positive => rfl
    | negative => cases h
  | zero t => trivial
  | finite t m e hm =>
    cases t with
    | positive => rfl
    | negative => cases h

theorem nonNeg_roundWithAccuracy (m : Nat) (e : ℤ) (acc : Accuracy) :
    NonNeg (roundWithAccuracy spec .positive m e acc) := by
  rw [roundWithAccuracy_eq, settle]
  dsimp only
  split
  · trivial
  · rfl

theorem nonNeg_mul_self (h : f.isNaN = false) : NonNeg (UnpackedFloat.mul spec f f) := by
  cases f with
  | notANumber => cases h
  | infinity s => cases s <;> rfl
  | zero s => trivial
  | finite s m e hm => cases s <;> exact nonNeg_roundWithAccuracy ..

theorem nonNeg_normalize {m : ℤ} (h : 0 ≤ m) (e : ℤ) (s : Sign) : NonNeg (normalize spec m e s) := by
  rcases h.lt_or_eq with hpos | rfl
  · rw [UnpackedFloat.normalize, compare_gt_iff_gt.2 hpos]
    exact nonNeg_roundWithAccuracy ..
  · exact (trivial : NonNeg (.zero s))

theorem nonNeg_add (hf : NonNeg f) (hg : NonNeg g) : NonNeg (UnpackedFloat.add spec f g) := by
  cases f with
  | notANumber => cases hf
  | infinity s =>
    obtain rfl : s = .positive := hf
    cases g with
    | notANumber => cases hg
    | infinity t =>
      obtain rfl : t = .positive := hg
      rfl
    | zero t => rfl
    | finite t n d hn => rfl
  | zero s =>
    cases g with
    | notANumber => cases hg
    | infinity t => exact hg
    | zero t => cases s <;> cases t <;> trivial
    | finite t n d hn => exact hg
  | finite s m e hm =>
    obtain rfl : s = .positive := hf
    cases g with
    | notANumber => cases hg
    | infinity t => exact hg
    | zero t => rfl
    | finite t n d hn =>
      obtain rfl : t = .positive := hg
      refine nonNeg_normalize ?_ _ _
      simp only [Sign.apply]
      positivity

theorem nonNeg_sqrt (h : NonNeg f) : NonNeg (UnpackedFloat.sqrt spec f) := by
  cases f with
  | notANumber => cases h
  | infinity s =>
    obtain rfl : s = .positive := h
    rfl
  | zero s => trivial
  | finite s m e hm =>
    obtain rfl : s = .positive := h
    exact nonNeg_roundWithAccuracy ..

theorem nonNeg_div_finite (hf : NonNeg f) {m : Nat} {e : ℤ} {hm : 0 < m} :
    NonNeg (UnpackedFloat.div spec f (.finite .positive m e hm)) := by
  cases f with
  | notANumber => cases hf
  | infinity s =>
    obtain rfl : s = .positive := hf
    rfl
  | zero s => trivial
  | finite s n d hn =>
    obtain rfl : s = .positive := hf
    exact nonNeg_roundWithAccuracy ..

theorem isNaN_normalize (m e : ℤ) (s : Sign) : (normalize spec m e s).isNaN = false := by
  rcases normalize_rounds spec m e s with ⟨-, h⟩ | ⟨-, h⟩
  · rw [h]
    rfl
  · exact FloatOrder.isNaN_of_isFinite h.isFinite

theorem isNaN_sub (hf : f.isNaN = false) (hg : g.isFinite = true) : (UnpackedFloat.sub spec f g).isNaN = false := by
  cases f with
  | notANumber => cases hf
  | infinity s => cases g <;> first | rfl | cases hg
  | zero s =>
    cases g with
    | notANumber => cases hg
    | infinity t => cases hg
    | zero t => cases s <;> cases t <;> rfl
    | finite t n d hn => rfl
  | finite s m e hm =>
    cases g with
    | notANumber => cases hg
    | infinity t => cases hg
    | zero t => rfl
    | finite t n d hn => exact isNaN_normalize ..

theorem isFinite_of_add (h : (UnpackedFloat.add spec f g).isFinite = true) : f.isFinite = true ∧ g.isFinite = true := by
  cases f with
  | notANumber => cases h
  | infinity s => cases g <;> first | cases h | (rename_i t; cases s <;> cases t <;> cases h)
  | zero s =>
    cases g with
    | notANumber => cases h
    | infinity t => cases h
    | zero t => exact ⟨rfl, rfl⟩
    | finite t n d hn => exact ⟨rfl, rfl⟩
  | finite s m e hm =>
    cases g with
    | notANumber => cases h
    | infinity t => cases h
    | zero t => exact ⟨rfl, rfl⟩
    | finite t n d hn => exact ⟨rfl, rfl⟩

theorem isFinite_of_mul_self (h : (UnpackedFloat.mul spec f f).isFinite = true) : f.isFinite = true := by
  cases f with
  | notANumber => cases h
  | infinity s => cases h
  | zero s => rfl
  | finite s m e hm => rfl

/-! ### The root of a finite number -/

theorem log2_sqrt (M : Nat) : (Nat.sqrt M).log2 = M.log2 / 2 := by
  rcases Nat.eq_zero_or_pos M with rfl | hpos
  · rfl
  · have hne : Nat.sqrt M ≠ 0 := (Nat.sqrt_pos.2 hpos).ne'
    rw [Nat.log2_eq_iff hne]
    constructor
    · rw [Nat.le_sqrt, ← Nat.pow_add]
      exact (Nat.pow_le_pow_right (by norm_num) (by omega)).trans (Nat.log2_self_le hpos.ne')
    · rw [Nat.sqrt_lt, ← Nat.pow_add]
      exact Nat.lt_log2_self.trans_le (Nat.pow_le_pow_right (by norm_num) (by omega))

/-- The top digit of the root that is rounded. -/
theorem totalExponent_sqrtCore (spec : Format) {m : Nat} (hm : 0 < m) (e : ℤ) :
    totalExponent (sqrtCore spec m e).1 (sqrtCore spec m e).2.1 = (totalExponent m e + 1) / 2 ∧
      (sqrtCore spec m e).2.1 ≤ spec.targetExponent ((totalExponent m e + 1) / 2) ∧ 0 < (sqrtCore spec m e).1 := by
  obtain ⟨t, ht⟩ : ∃ t, t = min (e.ediv 2) (spec.targetExponent ((totalExponent m e + 1).ediv 2)) := ⟨_, rfl⟩
  have hle : 2 * t ≤ e := by
    have : t ≤ e / 2 := ht ▸ min_le_left _ _
    omega
  obtain ⟨k, hk⟩ : ∃ k : Nat, e - 2 * t = k := ⟨(e - 2 * t).toNat, by omega⟩
  have hcore : sqrtCore spec m e = (Nat.sqrt (m <<< k), t, (sqrtCore spec m e).2.2) := by
    rw [sqrtCore, ← ht, hk, Int.toNat_natCast]
  have hpos : 0 < m <<< k := by
    rw [Nat.shiftLeft_eq]
    exact Nat.mul_pos hm (Nat.two_pow_pos k)
  rw [hcore]
  refine ⟨?_, ht ▸ min_le_right _ _, Nat.sqrt_pos.2 hpos⟩
  rw [totalExponent, totalExponent, log2_sqrt, log2_shiftLeft hm]
  push_cast
  omega

theorem mantissa_shiftRight (em : ExtendedMantissa) (k : Nat) : (em >>> k).mantissa = em.mantissa / 2 ^ k := by
  induction k with
  | zero => exact (Nat.div_one _).symm
  | succ k ih =>
    show (em >>> k).mantissa / 2 = _
    rw [ih, Nat.div_div_eq_div_mul, Nat.pow_succ]

theorem roundedMantissa_le (em : ExtendedMantissa) : em.roundedMantissa ≤ em.mantissa + 1 := by
  obtain ⟨m, r, s⟩ := em
  have hparity := Nat.mod_two_eq_zero_or_one m
  cases r <;> cases s <;>
    simp only [ExtendedMantissa.roundedMantissa, ExtendedMantissa.accuracy, Accuracy.roundToNearestEven] <;> omega

/-- A rounding stays in the binade of its exact result, or goes to the bottom of the next one. -/
theorem roundWithAccuracy_exponent (s : Sign) {m : Nat} (hm : 0 < m) {e : ℤ} (acc : Accuracy)
    (he : e ≤ spec.targetExponent (totalExponent m e)) :
    roundWithAccuracy spec s m e acc = .zero s ∨
      ∃ m' e' hm', roundWithAccuracy spec s m e acc = .finite s m' e' hm' ∧
        e' ≤ spec.targetExponent (totalExponent m e) + 1 := by
  obtain ⟨k, hk⟩ : ∃ k : Nat, e + k = spec.targetExponent (totalExponent m e) :=
    ⟨(spec.targetExponent (totalExponent m e) - e).toNat, by omega⟩
  have hamount : (spec.targetExponent (totalExponent m e) - e).toNat = k := by omega
  obtain ⟨r, hr⟩ : ∃ r, r = (ExtendedMantissa.ofMantissaAndAccuracy m acc >>> k).roundedMantissa := ⟨_, rfl⟩
  have hresult : roundWithAccuracy spec s m e acc = settle spec s r (e + k) := by
    rw [roundWithAccuracy_eq, shiftToTargetExponent, shiftToExponent, hamount, hr]
  have hmantissa : (ExtendedMantissa.ofMantissaAndAccuracy m acc).mantissa = m := by
    cases acc with
    | exact => rfl
    | inexact o => cases o <;> rfl
  have hle : r ≤ 2 ^ spec.mantissaBits := by
    have hround := roundedMantissa_le (ExtendedMantissa.ofMantissaAndAccuracy m acc >>> k)
    rw [mantissa_shiftRight, hmantissa, ← hr] at hround
    exact hround.trans (shifted_bounds hm hk).1
  have hmin : spec.minExponent ≤ e + k := hk ▸ le_max_right _ _
  rw [hresult, ← hk]
  rcases Nat.lt_or_eq_of_le hle with hlt | rfl
  · rw [settle_of_lt s hlt hmin]
    split
    · exact .inl rfl
    · rename_i hne
      exact .inr ⟨r, e + k, Nat.pos_of_ne_zero hne, rfl, by omega⟩
  · rw [settle_of_eq s hmin]
    exact .inr ⟨_, e + k + 1, _, rfl, le_rfl⟩

/-- The exponent of an unpacked number. -/
theorem exponent_unpack (hspec : 2 ≤ spec.exponentBits) {b : BitVec spec.numBits} {s : Sign} {m : Nat} {e : ℤ}
    {hm : 0 < m} (h : unpack spec b = .finite s m e hm) :
    e + spec.exponentBias + spec.mantissaBits < 2 ^ spec.exponentBits := by
  have hbits := mantissaBits_eq spec
  have hpow : (4 : ℤ) ≤ 2 ^ spec.exponentBits := by
    calc (4 : ℤ) = 2 ^ 2 := by norm_num
      _ ≤ 2 ^ spec.exponentBits := pow_le_pow_right₀ (by norm_num) hspec
  revert h
  fun_cases UnpackedFloat.unpack with
  | case1 => exact nofun
  | case2 => exact nofun
  | case3 => exact nofun
  | case4 mantissa exponentVec exponent signVec sign hinf hzero hmant =>
    intro h
    injection h with _ _ he
    have hexp : exponent = (exponentVec.toNat : ℤ) - (spec.exponentBias + spec.mantissaBitsWithoutImplicit) := rfl
    rw [hzero, BitVec.toNat_zero] at hexp
    omega
  | case5 mantissa exponentVec exponent signVec sign hinf hzero =>
    intro h
    injection h with _ _ he
    have hexp : exponent = (exponentVec.toNat : ℤ) - (spec.exponentBias + spec.mantissaBitsWithoutImplicit) := rfl
    have hne : exponentVec.toNat ≠ 2 ^ spec.exponentBits - 1 := by
      rw [← BitVec.toNat_allOnes, ← BitVec.neg_one_eq_allOnes]
      exact fun heq => hinf (BitVec.eq_of_toNat_eq heq)
    have hlt := exponentVec.isLt
    have hcast : ((2 ^ spec.exponentBits : ℕ) : ℤ) = 2 ^ spec.exponentBits := by push_cast; rfl
    omega

/-- A number that is far enough from the largest exponent stays finite when it is packed. -/
theorem isFinite_unpack_pack {s : Sign} {m : Nat} {e : ℤ} {hm : 0 < m}
    (h : e + spec.exponentBias + spec.mantissaBits < 2 ^ spec.exponentBits) :
    (unpack spec (UnpackedFloat.pack spec (.finite s m e hm))).isFinite = true := by
  have hbits := mantissaBits_eq spec
  have hcast : ((2 ^ spec.exponentBits : ℕ) : ℤ) = 2 ^ spec.exponentBits := by push_cast; rfl
  have hpos := Nat.one_lt_two_pow (Nat.pos_iff_ne_zero.1 spec.he)
  obtain ⟨biased, hbiased⟩ : ∃ biased, biased = (e + spec.exponentBias + spec.mantissaBitsWithoutImplicit).toNat :=
    ⟨_, rfl⟩
  have hfits : ¬ 2 ^ spec.exponentBits ≤ biased + 1 := by omega
  refine isFinite_unpack ?_
  simp only [UnpackedFloat.pack, ← hbiased, if_neg hfits]
  split
  · rw [unpackExponent_packComponents]
    intro hexp
    have := congrArg BitVec.toNat hexp
    rw [BitVec.toNat_ofNat, BitVec.neg_one_eq_allOnes, BitVec.toNat_allOnes, Nat.mod_eq_of_lt (by omega)] at this
    omega
  · rw [unpackExponent_packComponents]
    intro hexp
    have := congrArg BitVec.toNat hexp
    rw [BitVec.toNat_zero, BitVec.neg_one_eq_allOnes, BitVec.toNat_allOnes] at this
    omega

theorem isFinite_unpack_pack_sqrt (hspec : 2 ≤ spec.exponentBits) {b : BitVec spec.numBits}
    (hfin : (unpack spec b).isFinite = true) (hpos : NonNeg (unpack spec b)) :
    (unpack spec (UnpackedFloat.pack spec (UnpackedFloat.sqrt spec (unpack spec b)))).isFinite = true := by
  cases hb : unpack spec b with
  | notANumber =>
    rw [hb] at hfin
    cases hfin
  | infinity s =>
    rw [hb] at hfin
    cases hfin
  | zero s =>
    rw [UnpackedFloat.sqrt, UnpackedFloat.pack, unpack_packedZero]
    rfl
  | finite s m e hm =>
    rw [hb] at hpos
    obtain rfl : s = .positive := hpos
    have hbits := mantissaBits_eq spec
    have hbias := exponentBias_eq spec
    have hmin : spec.minExponent = 3 - 2 ^ (spec.exponentBits - 1) - spec.mantissaBits := rfl
    have hpow : (2 : ℤ) ^ spec.exponentBits = 2 * 2 ^ (spec.exponentBits - 1) := by
      rw [← pow_succ', Nat.sub_add_cancel (by omega)]
    have hu : (2 : ℤ) ≤ 2 ^ (spec.exponentBits - 1) := le_self_pow₀ (by norm_num) (by omega)
    have hexp := exponent_unpack hspec hb
    have hfit : m.log2 < spec.mantissaBits := by
      have hc := canonical_unpack b
      rw [hb] at hc
      exact (Nat.log2_lt hm.ne').2 hc.1
    -- half of the digits above the point are left
    have htotal : totalExponent m e ≤ 2 ^ (spec.exponentBits - 1) := by
      rw [totalExponent]
      omega
    obtain ⟨hroot, hle, hrootPos⟩ := totalExponent_sqrtCore spec hm e
    have hsqrt : UnpackedFloat.sqrt spec (.finite .positive m e hm) =
        roundWithAccuracy spec .positive (sqrtCore spec m e).1 (sqrtCore spec m e).2.1 (sqrtCore spec m e).2.2 := rfl
    rw [hsqrt]
    rcases roundWithAccuracy_exponent .positive hrootPos (sqrtCore spec m e).2.2 (by rw [hroot]; exact hle)
      with hzero | ⟨m', e', hm', hfinite, he'⟩
    · rw [hzero, UnpackedFloat.pack, unpack_packedZero]
      rfl
    · rw [hfinite]
      refine isFinite_unpack_pack ?_
      rw [hroot, Format.targetExponent] at he'
      omega

/-! ### Binary64 -/

variable {x y : Float}

theorem nonNeg_of_float_pos (h : 0.0 < x) : NonNeg x.toModel.unpack := by
  have hlt : (0.0 : Float) < x ↔ (UnpackedFloat.zero .positive).lt x.toModel.unpack = true := decide_eq_true_iff
  exact nonNeg_of_lt (hlt.1 h)

theorem nonNeg_float_mul_self (h : x.isNaN = false) : NonNeg (x * x).toModel.unpack :=
  nonNeg_unpack_pack (nonNeg_mul_self h)

theorem nonNeg_float_add (hx : NonNeg x.toModel.unpack) (hy : NonNeg y.toModel.unpack) :
    NonNeg (x + y).toModel.unpack :=
  nonNeg_unpack_pack (nonNeg_add hx hy)

theorem nonNeg_float_sqrt (hx : NonNeg x.toModel.unpack) : NonNeg x.sqrt.toModel.unpack :=
  nonNeg_unpack_pack (nonNeg_sqrt hx)

theorem isNaN_float_sub (hx : x.isNaN = false) (hy : y.isFinite = true) : (x - y).isNaN = false :=
  FloatOrder.isNaN_unpack_pack (isNaN_sub hx hy)

theorem isFinite_of_float_add (h : (x + y).isFinite = true) : x.isFinite = true ∧ y.isFinite = true :=
  isFinite_of_add (isFinite_of_unpack_pack h)

theorem isFinite_of_float_mul_self (h : (x * x).isFinite = true) : x.isFinite = true :=
  isFinite_of_mul_self (isFinite_of_unpack_pack h)

theorem isFinite_float_sqrt (hfin : x.isFinite = true) (hpos : NonNeg x.toModel.unpack) : x.sqrt.isFinite = true :=
  isFinite_unpack_pack_sqrt (by decide) hfin hpos

end FloatSign
