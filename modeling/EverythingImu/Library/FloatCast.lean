import EverythingImu.Library.FloatSign

/-!
# Conversions between number types

The `as` casts between binary32, binary64 and lengths.  A cast rounds to the nearest number of the other format; it
gives NaN only for NaN (`isNaN_asF32`, `isNaN_asF64`).  A positive length becomes a finite positive number, so that a
quotient by it stays what it is (`nonNeg_div_lenAsF64`).
-/

namespace FloatCast

open Float.Model Float.Model.UnpackedFloat FloatRound FloatSign

/-- The nearest number of the format; infinities and NaN stay what they are. -/
def convert (spec : Format) : UnpackedFloat → UnpackedFloat
  | .finite s m e _ => UnpackedFloat.round spec s m e
  | f => f

/-- `x as f64`. -/
def asF64 (x : Float32) : Float := .ofModel (Float.Model.pack (convert .binary64 x.toModel.unpack))

/-- `x as f32`. -/
def asF32 (x : Float) : Float32 := .ofModel (Float32.Model.pack (convert .binary32 x.toModel.unpack))

/-- `n as f64` for a length. -/
def lenAsF64 (n : Nat) : Float := (UInt64.ofNat n).toFloat

/-- `n as f32` for a length. -/
def lenAsF32 (n : Nat) : Float32 := (UInt64.ofNat n).toFloat32

/-- `x.round() as usize`: halves are rounded away from zero, and what is no `usize` becomes the nearest one. -/
def roundAsUsize (x : Float32) : Nat :=
  match x.toModel.unpack with
  | .notANumber | .infinity .negative => 0
  | .infinity .positive => 2 ^ 64 - 1
  | f => min ⌊value f + 1 / 2⌋.toNat (2 ^ 64 - 1)

theorem isNaN_convert {spec : Format} {f : UnpackedFloat} (h : f.isNaN = false) : (convert spec f).isNaN = false := by
  cases f with
  | notANumber => cases h
  | infinity s => rfl
  | zero s => rfl
  | finite s m e hm => exact FloatOrder.isNaN_of_isFinite (round_rounds spec s hm e).isFinite

theorem isNaN_asF64 {x : Float32} (h : x.isNaN = false) : (asF64 x).isNaN = false :=
  FloatOrder.isNaN_unpack_pack (isNaN_convert h)

theorem isNaN_asF32 {x : Float} (h : x.isNaN = false) : (asF32 x).isNaN = false :=
  FloatOrder.isNaN_unpack_pack (isNaN_convert h)

theorem unpack_toFloat {n : UInt64} (hpos : 0 < n.toNat) :
    ∃ m e hm, n.toFloat.toModel.unpack = .finite .positive m e hm := by
  have hround : Rounds .binary64 n.toNat (UnpackedFloat.normalize .binary64 (n.toNat : ℤ) 0 .positive) := by
    rcases normalize_rounds .binary64 (n.toNat : ℤ) 0 .positive with ⟨hzero, -⟩ | ⟨-, h⟩
    · omega
    · simpa using h
  have hsign : NonNeg (UnpackedFloat.normalize .binary64 (n.toNat : ℤ) 0 .positive) :=
    nonNeg_normalize (Int.natCast_nonneg _) 0 .positive
  have hn : (1 : ℚ) ≤ n.toNat := by exact_mod_cast hpos
  have hlt : (n.toNat : ℚ) < 2 ^ 64 := by exact_mod_cast n.toNat_lt
  have herr := hround.relative_error_le (by
    rw [abs_of_nonneg (by positivity)]
    refine le_trans ?_ hn
    exact zpow_le_one_of_nonpos₀ (by norm_num) (by decide))
  obtain ⟨f, hf⟩ : ∃ f, f = UnpackedFloat.normalize .binary64 (n.toNat : ℤ) 0 .positive := ⟨_, rfl⟩
  rw [← hf] at hround hsign herr
  have hbits : (2 : ℚ) ^ Format.binary64.mantissaBits = 2 ^ 53 := rfl
  rw [abs_of_nonneg (show (0 : ℚ) ≤ n.toNat by positivity), hbits, abs_le] at herr
  obtain ⟨hlow, hhigh⟩ := herr
  have hvalue : 0 < value f := by linarith
  have hrange : |value f| < 2 ^ (2 ^ (Format.binary64.exponentBits - 1)) := by
    have hlarge : (2 : ℚ) ^ 65 ≤ 2 ^ (2 ^ (Format.binary64.exponentBits - 1)) :=
      pow_le_pow_right₀ (by norm_num) (by decide)
    rw [abs_of_pos hvalue]
    refine lt_of_lt_of_le ?_ hlarge
    linarith
  have hunpack : n.toFloat.toModel.unpack = f := by
    rw [hf] at hround hrange ⊢
    exact unpack_pack (by decide) hround.isFinite hround.canonical hrange
  rw [hunpack]
  cases f with
  | notANumber => cases hsign
  | infinity s => exact absurd hvalue (lt_irrefl 0)
  | zero s => exact absurd hvalue (lt_irrefl 0)
  | finite s m e hm =>
    obtain rfl : s = .positive := hsign
    exact ⟨m, e, hm, rfl⟩

theorem nonNeg_div_lenAsF64 {x : Float} (hx : NonNeg x.toModel.unpack) {n : Nat} (hpos : 0 < n) (hn : n < 2 ^ 64) :
    NonNeg (x / lenAsF64 n).toModel.unpack := by
  have htoNat : (UInt64.ofNat n).toNat = n := by
    rw [UInt64.toNat_ofNat']
    omega
  obtain ⟨m, e, hm, hunpack⟩ := unpack_toFloat (n := UInt64.ofNat n) (by omega)
  have hdiv : (x / lenAsF64 n).toModel
      = Float.Model.pack (UnpackedFloat.div .binary64 x.toModel.unpack (lenAsF64 n).toModel.unpack) := rfl
  rw [hdiv, lenAsF64, hunpack]
  exact nonNeg_unpack_pack (nonNeg_div_finite hx)

end FloatCast
