import EverythingImu.Joycon.Samples
import EverythingImu.Joycon.SpiCal
import EverythingImu.Library.FloatArith

/-!
# The offset correction of the Joy-Cons

`accel_sample_m_s2` and `gyro_sample_rad_s` (`calibration.rs`) under every calibration that `parse_factory_block`
returns.  The calibrated value is strictly monotone in the corrected count, for every coefficient that the parser lets
through (`calibrated_lt_iff`).  The corrected count is the raw count less the offset as long as this fits into 16 bits,
so it wraps for the raw counts within an offset of one end of the scale, unless the offset is zero
(`offsetCorrection_iff`).
-/

namespace EverythingImu.Joycon

open Float.Model Float.Model.UnpackedFloat FloatRound

inductive Sensor where
  | accel
  | gyro
deriving DecidableEq

namespace ImuCalibration

variable (cal : ImuCalibration)

def offset : Sensor → Fin 3 → Int16
  | .accel, i => cal.accelOffset.get i
  | .gyro, i => cal.gyroOffset.get i

def coeff : Sensor → Fin 3 → Float32
  | .accel, i => cal.accelCoeffG.get i
  | .gyro, i => cal.gyroCoeffDps.get i

end ImuCalibration

/-- What a count is multiplied by behind its coefficient. -/
def Sensor.unit : Sensor → Float32
  | .accel => GRAVITY_M_PER_S2
  | .gyro => DEG_TO_RAD

/-- The largest offset that the parser finds plausible. -/
def Sensor.plausibleAbs : Sensor → Nat
  | .accel => ACCEL_OFFSET_PLAUSIBLE_ABS
  | .gyro => GYRO_OFFSET_PLAUSIBLE_ABS

/-- The sample of one axis. -/
def ImuCalibration.calibrated (cal : ImuCalibration) (s : Sensor) (i : Fin 3) (raw : Int16) : Float32 :=
  axisSample s.unit raw (cal.offset s i) (cal.coeff s i)

theorem accelSampleMS2_get (cal : ImuCalibration) (raw : Vector Int16 3) (i : Fin 3) :
    (accelSampleMS2 raw cal.accelOffset cal.accelCoeffG).get i = cal.calibrated .accel i (raw.get i) := by
  simp only [accelSampleMS2, Vector.get_ofFn]
  rfl

theorem gyroSampleRadS_get (cal : ImuCalibration) (raw : Vector Int16 3) (i : Fin 3) :
    (gyroSampleRadS raw cal.gyroOffset cal.gyroCoeffDps).get i = cal.calibrated .gyro i (raw.get i) := by
  simp only [gyroSampleRadS, Vector.get_ofFn]
  rfl

/-! ### Scaling a count -/

/-- A positive factor of a size with which a count neither overflows nor gets subnormal. -/
structure Moderate (x : Float32) : Prop where
  isFinite : x.isFinite = true
  low : 1 / 2 ^ 14 ≤ toRat x
  high : toRat x ≤ 2 ^ 4

/-- A product with a moderate factor is exact up to one part in `2 ^ 24`. -/
private theorem mul_error {x c : Float32} (hx : x.isFinite = true) (hc : Moderate c)
    (hlow : toRat x = 0 ∨ 1 / 2 ^ 20 ≤ |toRat x|) (hhigh : |toRat x| ≤ 2 ^ 20) :
    (x * c).isFinite = true ∧ |toRat (x * c) - toRat x * toRat c| ≤ |toRat x| * toRat c / 2 ^ 24 := by
  have hpos : 0 < toRat c := lt_of_lt_of_le (by norm_num) hc.low
  have habs : |toRat x * toRat c| = |toRat x| * toRat c := by rw [abs_mul, abs_of_pos hpos]
  have hlt : |toRat x * toRat c| < 2 ^ (127 : ℤ) := by
    rw [habs]
    calc |toRat x| * toRat c ≤ 2 ^ 20 * 2 ^ 4 := by
          have := hc.high
          gcongr
      _ < 2 ^ (127 : ℤ) := by norm_num
  have hround := float32_mul_roundsTo hx hc.isFinite hlt
  refine ⟨hround.isFinite, ?_⟩
  rw [← habs]
  refine hround.relative_error_le ?_
  rcases hlow with hzero | hlow
  · exact .inl (by rw [hzero, zero_mul])
  · right
    show (2 : ℚ) ^ (-126 : ℤ) ≤ _
    rw [habs]
    calc (2 : ℚ) ^ (-126 : ℤ) ≤ 1 / 2 ^ 20 * (1 / 2 ^ 14) := by norm_num
      _ ≤ |toRat x| * toRat c := by
          have := hc.low
          gcongr

/-- The product of a count with its coefficient. -/
private theorem coeff_error {n : ℤ} {c : Float32} (hn : |n| ≤ 2 ^ 15) (hc : Moderate c) :
    (Float32.ofInt n * c).isFinite = true ∧
      |toRat (Float32.ofInt n * c) - n * toRat c| ≤ |(n : ℚ)| * toRat c / 2 ^ 24 := by
  obtain ⟨hfin, hrat⟩ := float32_ofInt (lt_of_le_of_lt hn (by norm_num))
  have hcount : |(n : ℚ)| ≤ 2 ^ 15 := by exact_mod_cast hn
  have hlow : toRat (Float32.ofInt n) = 0 ∨ 1 / 2 ^ 20 ≤ |toRat (Float32.ofInt n)| := by
    rw [hrat]
    rcases eq_or_ne n 0 with rfl | h
    · exact .inl Int.cast_zero
    · have hone : 1 ≤ |(n : ℚ)| := by exact_mod_cast Int.one_le_abs h
      exact .inr (le_trans (by norm_num) hone)
  have herr := mul_error hfin hc hlow (by rw [hrat]; linarith)
  rwa [hrat] at herr

/-- It is about as large as the exact product, and neither overflows nor gets subnormal behind the unit. -/
private theorem coeff_size {n : ℤ} {c : Float32} {p : ℚ} (hn : |n| ≤ 2 ^ 15) (hc : Moderate c)
    (herr : |p - n * toRat c| ≤ |(n : ℚ)| * toRat c / 2 ^ 24) :
    |p| ≤ |(n : ℚ)| * toRat c * 2 ∧ (p = 0 ∨ 1 / 2 ^ 20 ≤ |p|) ∧ |p| ≤ 2 ^ 20 := by
  have hcpos : 0 < toRat c := lt_of_lt_of_le (by norm_num) hc.low
  have hcount : |(n : ℚ)| ≤ 2 ^ 15 := by exact_mod_cast hn
  have hscaled : |(n : ℚ) * toRat c| = |(n : ℚ)| * toRat c := by rw [abs_mul, abs_of_pos hcpos]
  have hnonneg : 0 ≤ |(n : ℚ)| * toRat c := by positivity
  have habove : |p| ≤ |(n : ℚ)| * toRat c * 2 := by
    have := abs_sub_abs_le_abs_sub p (n * toRat c)
    linarith
  have hbelow : |(n : ℚ)| * toRat c / 2 ≤ |p| := by
    have := abs_sub_abs_le_abs_sub (n * toRat c) p
    rw [abs_sub_comm] at this
    linarith
  refine ⟨habove, ?_, ?_⟩
  · rcases eq_or_ne n 0 with rfl | h
    · left
      rw [Int.cast_zero, abs_zero, zero_mul, zero_mul] at habove
      exact abs_nonpos_iff.1 habove
    · right
      have hone : 1 ≤ |(n : ℚ)| := by exact_mod_cast Int.one_le_abs h
      have := hc.low
      nlinarith
  · have := hc.high
    nlinarith

/-- A scaled count is off by less than a hundredth of what one count is worth. -/
private theorem scaled_error {n : ℤ} {c u : Float32} (hn : |n| ≤ 2 ^ 15) (hc : Moderate c) (hu : Moderate u) :
    (Float32.ofInt n * c * u).isFinite = true ∧
      |toRat (Float32.ofInt n * c * u) - n * (toRat c * toRat u)| ≤ toRat c * toRat u / 100 := by
  have hcount : |(n : ℚ)| ≤ 2 ^ 15 := by exact_mod_cast hn
  have hcpos : 0 < toRat c := lt_of_lt_of_le (by norm_num) hc.low
  have hupos : 0 < toRat u := lt_of_lt_of_le (by norm_num) hu.low
  obtain ⟨hfin₁, herr₁⟩ := coeff_error hn hc
  obtain ⟨habove, hlow, hhigh⟩ := coeff_size hn hc herr₁
  obtain ⟨hfin₂, herr₂⟩ := mul_error hfin₁ hu hlow hhigh
  refine ⟨hfin₂, ?_⟩
  obtain ⟨p, hp⟩ : ∃ p, p = toRat (Float32.ofInt n * c) := ⟨_, rfl⟩
  rw [← hp] at herr₁ herr₂ habove
  have hfirst : |p * toRat u - n * (toRat c * toRat u)| ≤ |(n : ℚ)| * toRat c / 2 ^ 24 * toRat u := by
    rw [← mul_assoc, ← sub_mul, abs_mul, abs_of_pos hupos]
    gcongr
  have hunit : 0 < toRat c * toRat u := mul_pos hcpos hupos
  have hcounts : |(n : ℚ)| * (toRat c * toRat u) ≤ 2 ^ 15 * (toRat c * toRat u) := by gcongr
  have htotal := abs_sub_le (toRat (Float32.ofInt n * c * u)) (p * toRat u) (n * (toRat c * toRat u))
  have hsecond : |p| * toRat u / 2 ^ 24 ≤ |(n : ℚ)| * toRat c * 2 * toRat u / 2 ^ 24 := by gcongr
  have hexpand : |(n : ℚ)| * toRat c * 2 * toRat u / 2 ^ 24 + |(n : ℚ)| * toRat c / 2 ^ 24 * toRat u =
      |(n : ℚ)| * (toRat c * toRat u) * (3 / 2 ^ 24) := by ring
  norm_num at hexpand hcounts hsecond herr₂ hfirst ⊢
  linarith

/-- Counts and what they are scaled to are in the same order. -/
theorem scaled_lt_iff {m n : ℤ} {c u : Float32} (hm : |m| ≤ 2 ^ 15) (hn : |n| ≤ 2 ^ 15) (hc : Moderate c)
    (hu : Moderate u) : Float32.ofInt m * c * u < Float32.ofInt n * c * u ↔ m < n := by
  obtain ⟨hfinm, herrm⟩ := scaled_error hm hc hu
  obtain ⟨hfinn, herrn⟩ := scaled_error hn hc hu
  have hcpos : 0 < toRat c := lt_of_lt_of_le (by norm_num) hc.low
  have hupos : 0 < toRat u := lt_of_lt_of_le (by norm_num) hu.low
  have hunit : 0 < toRat c * toRat u := mul_pos hcpos hupos
  rw [lt_iff hfinm hfinn]
  rw [abs_le] at herrm herrn
  -- one count is worth more than the two errors
  have hstep {j k : ℤ} (h : j < k) : (j : ℚ) * (toRat c * toRat u) + toRat c * toRat u ≤ k * (toRat c * toRat u) := by
    have hone : (j : ℚ) + 1 ≤ k := by exact_mod_cast h
    have := mul_le_mul_of_nonneg_right hone hunit.le
    linarith
  rcases lt_trichotomy m n with hlt | rfl | hgt
  · have := hstep hlt
    exact iff_of_true (by linarith) hlt
  · exact iff_of_false (lt_irrefl _) (lt_irrefl _)
  · have := hstep hgt
    exact iff_of_false (by linarith) (by omega)

/-! ### The coefficients of the parser -/

private theorem moderate_of_unpack {x : Float32} {m : Nat} {e : ℤ} {hm : 0 < m}
    (h : x.toModel.unpack = .finite .positive m e hm) (hlow : 1 / 2 ^ 14 ≤ (m : ℚ) * 2 ^ e)
    (hhigh : (m : ℚ) * 2 ^ e ≤ 2 ^ 4) : Moderate x := by
  have hrat : toRat x = m * 2 ^ e := by rw [toRat, h, value_positive]
  exact ⟨congrArg UnpackedFloat.isFinite h, by rwa [hrat], by rwa [hrat]⟩

theorem moderate_unit (s : Sensor) : Moderate s.unit := by
  cases s with
  | accel =>
    have h : Sensor.accel.unit.toModel.unpack = .finite .positive 10283018 (-20) (by decide) := rfl
    exact moderate_of_unpack h (by norm_num) (by norm_num)
  | gyro =>
    have h : Sensor.gyro.unit.toModel.unpack = .finite .positive 9370165 (-29) (by decide) := rfl
    exact moderate_of_unpack h (by norm_num) (by norm_num)

/-- A nominal coefficient, and the ends of the band around it. -/
structure ModerateBand (x : Float32) : Prop where
  nominal : Moderate x
  half : Moderate (x * 0.5)
  double : Moderate (x * 2.0)

private theorem moderateBand_of_unpack {x : Float32} {m : Nat} {e : ℤ} {hm : 0 < m}
    (h : x.toModel.unpack = .finite .positive m e hm)
    (hhalf : (x * 0.5).toModel.unpack = .finite .positive m (e - 1) hm)
    (hdouble : (x * 2.0).toModel.unpack = .finite .positive m (e + 1) hm)
    (hlow : 1 / 2 ^ 13 ≤ (m : ℚ) * 2 ^ e) (hhigh : (m : ℚ) * 2 ^ e ≤ 2 ^ 3) : ModerateBand x where
  nominal := moderate_of_unpack h (by linarith) (by linarith)
  half := by
    have hpow : (m : ℚ) * 2 ^ (e - 1) = m * 2 ^ e / 2 := by
      rw [zpow_sub_one₀ two_ne_zero, mul_div_assoc, div_eq_mul_inv]
    exact moderate_of_unpack hhalf (by linarith) (by linarith)
  double := by
    have hpow : (m : ℚ) * 2 ^ (e + 1) = m * 2 ^ e * 2 := by rw [zpow_add_one₀ two_ne_zero, mul_assoc]
    exact moderate_of_unpack hdouble (by linarith) (by linarith)

private theorem moderateBand_accel : ModerateBand NOMINAL_ACCEL_COEFF_G := by
  have h : NOMINAL_ACCEL_COEFF_G.toModel.unpack = .finite .positive 8388608 (-35) (by decide) := rfl
  exact moderateBand_of_unpack h rfl rfl (by norm_num) (by norm_num)

private theorem moderateBand_gyro : ModerateBand NOMINAL_GYRO_COEFF_DPS := by
  have h : NOMINAL_GYRO_COEFF_DPS.toModel.unpack = .finite .positive 9395542 (-27) (by decide) := rfl
  exact moderateBand_of_unpack h rfl rfl (by norm_num) (by norm_num)

/-- A coefficient in the band around a nominal one, or the nominal one. -/
private theorem moderate_axisCoeff {sens offset : Int16} {numerator nominal : Float32} (hband : ModerateBand nominal) :
    Moderate (axisCoeff sens offset numerator nominal) := by
  simp only [axisCoeff]
  split
  · exact hband.nominal
  · split
    · rename_i hinside
      simp only [Bool.and_eq_true, decide_eq_true_eq] at hinside
      obtain ⟨⟨hfin, hlow⟩, hhigh⟩ := hinside
      have hlow := (lt_iff hband.half.isFinite hfin).1 hlow
      have hhigh := (lt_iff hfin hband.double.isFinite).1 hhigh
      exact ⟨hfin, hband.half.low.trans hlow.le, hhigh.le.trans hband.double.high⟩
    · exact hband.nominal

private theorem moderate_axisCoeffs (sensitivity : Option (Vector Int16 3)) (offset : Vector Int16 3)
    {numerator nominal : Float32} (hband : ModerateBand nominal) (i : Fin 3) :
    Moderate ((axisCoeffs sensitivity offset numerator nominal).get i) := by
  cases sensitivity with
  | none =>
    have h : (axisCoeffs none offset numerator nominal).get i = nominal := by simp [axisCoeffs, Vector.get_eq_getElem]
    rw [h]
    exact hband.nominal
  | some sens =>
    have h : (axisCoeffs (some sens) offset numerator nominal).get i =
        axisCoeff (sens.get i) (offset.get i) numerator nominal := by simp [axisCoeffs, Vector.get_eq_getElem]
    rw [h]
    exact moderate_axisCoeff hband

/-- Every coefficient that the parser returns. -/
theorem moderate_coeff {block : List UInt8} {cal : ImuCalibration} (h : parseFactoryBlock block = .ok cal)
    (s : Sensor) (i : Fin 3) : Moderate (cal.coeff s i) := by
  unfold parseFactoryBlock at h
  split at h
  · cases h
  · obtain rfl := Except.ok.inj h
    cases s with
    | accel =>
      simp only [ImuCalibration.coeff]
      split
      · simpa [Vector.get_eq_getElem] using moderateBand_accel.nominal
      · exact moderate_axisCoeffs _ _ moderateBand_accel i
    | gyro =>
      simp only [ImuCalibration.coeff]
      split
      · simpa [Vector.get_eq_getElem] using moderateBand_gyro.nominal
      · exact moderate_axisCoeffs _ _ moderateBand_gyro i

private theorem natAbs_get_le {values : Vector Int16 3} {absMax : Nat} (h : plausibleOffset values absMax = true)
    (i : Fin 3) : (values.get i).toInt.natAbs ≤ absMax := by
  have hall := Vector.all_eq_true.1 h i i.isLt
  simpa [Vector.get_eq_getElem] using hall

private theorem zero_get_le (absMax : Nat) (i : Fin 3) :
    ((#v[0, 0, 0] : Vector Int16 3).get i).toInt.natAbs ≤ absMax := by
  have hzero : ∀ i : Fin 3, ((#v[0, 0, 0] : Vector Int16 3).get i).toInt.natAbs = 0 := by decide
  rw [hzero i]
  exact Nat.zero_le absMax

/-- Every offset that the parser returns is plausible. -/
theorem natAbs_offset_le {block : List UInt8} {cal : ImuCalibration} (h : parseFactoryBlock block = .ok cal)
    (s : Sensor) (i : Fin 3) : (cal.offset s i).toInt.natAbs ≤ s.plausibleAbs := by
  unfold parseFactoryBlock at h
  split at h
  · cases h
  · obtain rfl := Except.ok.inj h
    cases s with
    | accel =>
      simp only [ImuCalibration.offset]
      split
      · exact zero_get_le _ i
      · rename_i hplausible
        simp only [Bool.not_eq_true, Bool.or_eq_false_iff, Bool.not_eq_false'] at hplausible
        exact natAbs_get_le hplausible.1 i
    | gyro =>
      simp only [ImuCalibration.offset]
      split
      · exact zero_get_le _ i
      · rename_i hplausible
        simp only [Bool.not_eq_true, Bool.or_eq_false_iff, Bool.not_eq_false'] at hplausible
        exact natAbs_get_le hplausible.2 i

/-! ### The corrected count -/

/-- The difference fits into 16 bits. -/
def Fits (raw offset : Int16) : Prop := -32768 ≤ raw.toInt - offset.toInt ∧ raw.toInt - offset.toInt ≤ 32767

instance (raw offset : Int16) : Decidable (Fits raw offset) := inferInstanceAs (Decidable (_ ∧ _))

theorem toInt_sub_eq_iff (raw offset : Int16) : (raw - offset).toInt = raw.toInt - offset.toInt ↔ Fits raw offset := by
  have hlow := (raw - offset).le_toInt
  have hhigh := (raw - offset).toInt_lt
  rw [Fits]
  constructor
  · omega
  · intro ⟨h₁, h₂⟩
    rw [Int16.toInt_sub, Int.bmod_eq_of_le (by omega) (by omega)]

/-- What the correction of one axis is for: it is exact for every raw count, the calibrated value goes up with the raw
count, and it is above the value at rest exactly for raw counts above the offset. -/
structure CorrectsExactly (cal : ImuCalibration) (s : Sensor) (i : Fin 3) : Prop where
  exact : ∀ raw, (raw - cal.offset s i).toInt = raw.toInt - (cal.offset s i).toInt
  strictMono : ∀ raw raw', raw.toInt < raw'.toInt → cal.calibrated s i raw < cal.calibrated s i raw'
  sign : ∀ raw, cal.calibrated s i (cal.offset s i) < cal.calibrated s i raw ↔ (cal.offset s i).toInt < raw.toInt

/-- The calibrated value goes up with the corrected count. -/
theorem calibrated_lt_iff {block : List UInt8} {cal : ImuCalibration} (h : parseFactoryBlock block = .ok cal)
    (s : Sensor) (i : Fin 3) (raw raw' : Int16) :
    cal.calibrated s i raw < cal.calibrated s i raw' ↔
      (raw - cal.offset s i).toInt < (raw' - cal.offset s i).toInt := by
  have hbound (x : Int16) : |x.toInt| ≤ 2 ^ 15 := by
    have hlow := x.le_toInt
    have hhigh := x.toInt_lt
    rw [abs_le]
    constructor <;> omega
  exact scaled_lt_iff (hbound _) (hbound _) (moderate_coeff h s i) (moderate_unit s)

/-- An offset other than zero takes one end of the scale out of 16 bits. -/
theorem exists_not_fits {offset : Int16} (h : offset ≠ 0) : ∃ raw, ¬Fits raw offset := by
  have hne : offset.toInt ≠ 0 := fun h' => h (Int16.toInt_inj.1 h')
  rcases lt_or_gt_of_ne hne with hneg | hpos
  · refine ⟨Int16.maxValue, fun hfits => ?_⟩
    have := hfits.2
    rw [show Int16.maxValue.toInt = 32767 from rfl] at this
    omega
  · refine ⟨Int16.minValue, fun hfits => ?_⟩
    have := hfits.1
    rw [show Int16.minValue.toInt = -32768 from rfl] at this
    omega

/-- For every block that the parser accepts, every axis and every raw count: the corrected count is the difference
exactly if this fits into 16 bits, as it does for raw counts further from the ends of the scale than the offsets that
the parser finds plausible.  Where it fits, the calibrated value goes up with the raw count.  The correction of an axis
does what it is for on the whole scale exactly if its offset is zero. -/
theorem offsetCorrection_iff {block : List UInt8} {cal : ImuCalibration} (h : parseFactoryBlock block = .ok cal)
    (s : Sensor) (i : Fin 3) :
    (∀ raw, (raw - cal.offset s i).toInt = raw.toInt - (cal.offset s i).toInt ↔ Fits raw (cal.offset s i)) ∧
      (∀ raw : Int16, raw.toInt.natAbs + s.plausibleAbs ≤ 32767 → Fits raw (cal.offset s i)) ∧
      (∀ raw raw' : Int16, Fits raw (cal.offset s i) → Fits raw' (cal.offset s i) →
        (cal.calibrated s i raw < cal.calibrated s i raw' ↔ raw.toInt < raw'.toInt)) ∧
      (CorrectsExactly cal s i ↔ cal.offset s i = 0) := by
  have hlt := calibrated_lt_iff h s i
  refine ⟨fun raw => toInt_sub_eq_iff raw _, ?_, ?_, ?_, ?_⟩
  · intro raw hraw
    have := natAbs_offset_le h s i
    constructor <;> omega
  · intro raw raw' hfits hfits'
    rw [hlt, (toInt_sub_eq_iff _ _).2 hfits, (toInt_sub_eq_iff _ _).2 hfits']
    omega
  · intro hexact
    by_contra hne
    obtain ⟨raw, hraw⟩ := exists_not_fits hne
    exact hraw ((toInt_sub_eq_iff _ _).1 (hexact.exact raw))
  · intro hzero
    have hsub (raw : Int16) : (raw - cal.offset s i).toInt = raw.toInt := by rw [hzero, Int16.sub_zero]
    have hoffset : (cal.offset s i).toInt = 0 := by rw [hzero]; rfl
    constructor
    · intro raw
      rw [hsub, hoffset, Int.sub_zero]
    · intro raw raw' hraw
      rw [hlt, hsub, hsub]
      exact hraw
    · intro raw
      rw [hlt, hsub, hsub]

/-- A block whose first accelerometer axis is off by ten counts. -/
def tenBlock : List UInt8 := 10 :: List.replicate 23 0

theorem parse_tenBlock : ∃ cal, parseFactoryBlock tenBlock = .ok cal ∧ cal.offset .accel 0 = 10 := by
  have haccel : plausibleOffset (LittleEndian.readI16x3 tenBlock 0) ACCEL_OFFSET_PLAUSIBLE_ABS = true :=
    Vector.all_eq_true.2 (by decide)
  have hgyro : plausibleOffset (LittleEndian.readI16x3 tenBlock 12) GYRO_OFFSET_PLAUSIBLE_ABS = true :=
    Vector.all_eq_true.2 (by decide)
  refine ⟨_, rfl, ?_⟩
  simp only [ImuCalibration.offset, haccel, hgyro]
  decide

/-- Its full scale: everything up to ten counts from the lower end comes out positive. -/
theorem offsetCorrection_tenBlock : ∃ cal, parseFactoryBlock tenBlock = .ok cal ∧
    (CorrectsExactly cal .accel 0 ↔ cal.offset .accel 0 = 0) := by
  obtain ⟨cal, hcal, -⟩ := parse_tenBlock
  exact ⟨cal, hcal, (offsetCorrection_iff hcal .accel 0).2.2.2⟩

/-- With an offset of ten the lowest raw count is corrected to one near the upper end. -/
theorem not_correctsExactly_of_offset :
    ¬∀ block cal s i, parseFactoryBlock block = .ok cal → CorrectsExactly cal s i := by
  intro hall
  obtain ⟨cal, hcal, hoffset⟩ := parse_tenBlock
  have hexact := (hall tenBlock cal .accel 0 hcal).exact (-32768)
  rw [hoffset] at hexact
  exact absurd hexact (by decide)

end EverythingImu.Joycon
