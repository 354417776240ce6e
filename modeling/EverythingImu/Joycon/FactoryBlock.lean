import EverythingImu.Joycon.Samples
import EverythingImu.Library.CheckedScalar
import Mathlib

/-!
# The factory calibration of the Joy-Cons

`parse_factory_block` and the conversion of the samples over a checked scalar.  In exact arithmetic no division by zero
occurs, offsets and coefficients stay in their bounds, and on an axis that keeps its own coefficient the sensitivity
becomes what it stands for (`parseFactoryBlock_exact`).  On `f32` these are the definitions that the reader uses
(`parseFactoryBlock_float32`, `calibratedSample_ofImu`).
-/

namespace EverythingImu.Joycon.Factory

open Buffer CheckedScalar LittleEndian

section Code

variable {K : Type} [CheckedScalar K]

def accelCoeffNumerator : K := 4.0
def gyroCoeffNumerator : K := 936.0
def nominalAccelCoeffG : K := accelCoeffNumerator / 16384.0
def nominalGyroCoeffDps : K := gyroCoeffNumerator / 13371.0
def gravityMPerS2 : K := 9.80665
def degToRad : K := 3.14159265358979323846 / 180.0

/-- `ImuCalibration` over a scalar. -/
structure Calibration (K : Type) where
  accelOffset : Vector Int16 3
  accelSensitivity : Option (Vector Int16 3)
  gyroOffset : Vector Int16 3
  gyroSensitivity : Option (Vector Int16 3)
  accelCoeffG : Vector K 3
  gyroCoeffDps : Vector K 3
  plausibilityWarning : Bool
deriving DecidableEq

/-- One axis of `axis_coeffs`. -/
def axisCoeff (sens offset : Int16) (numerator nominal : K) : Outcome SpiError K :=
  let denom : K := ofInt sens.toInt - ofInt offset.toInt
  if magnitude denom ≤ 1.0 then .ok nominal
  else do
    let coeff ← dividedBy numerator denom
    return if isFinite coeff ∧ nominal * 0.5 < coeff ∧ coeff < nominal * 2.0 then coeff else nominal

def axisCoeffs (sensitivity : Option (Vector Int16 3)) (offset : Vector Int16 3) (numerator nominal : K) :
    Outcome SpiError (Vector K 3) :=
  match sensitivity with
  | none => .ok (.replicate 3 nominal)
  | some sens => Outcome.axes fun i => axisCoeff (sens.get i) (offset.get i) numerator nominal

def parseFactoryBlock (block : List UInt8) : Outcome SpiError (Calibration K) :=
  if block.length < 24 then .fail (.wrongLength block.length)
  else do
    let accelOffset := readI16x3 block 0
    let accelSensRaw := readI16x3 block 6
    let gyroOffset := readI16x3 block 12
    let gyroSensRaw := readI16x3 block 18
    let accelSensitivity := if isZerosOrFf ((block.drop 6).take 6) then none else some accelSensRaw
    let gyroSensitivity := if isZerosOrFf ((block.drop 18).take 6) then none else some gyroSensRaw
    let plausibilityWarning := !plausibleOffset accelOffset ACCEL_OFFSET_PLAUSIBLE_ABS ||
      !plausibleOffset gyroOffset GYRO_OFFSET_PLAUSIBLE_ABS
    if plausibilityWarning then
      return ⟨.replicate 3 0, accelSensitivity, .replicate 3 0, gyroSensitivity, .replicate 3 nominalAccelCoeffG,
        .replicate 3 nominalGyroCoeffDps, plausibilityWarning⟩
    else
      let accelCoeffG ← axisCoeffs accelSensitivity accelOffset accelCoeffNumerator nominalAccelCoeffG
      let gyroCoeffDps ← axisCoeffs gyroSensitivity gyroOffset gyroCoeffNumerator nominalGyroCoeffDps
      return ⟨accelOffset, accelSensitivity, gyroOffset, gyroSensitivity, accelCoeffG, gyroCoeffDps,
        plausibilityWarning⟩

/-- One axis of the conversion: the difference from the offset wraps. -/
def axisSample (unit : K) (raw offset : Int16) (coeff : K) : K := ofInt (raw - offset).toInt * coeff * unit

def accelSampleMS2 (raw offset : Vector Int16 3) (coeffG : Vector K 3) : Vector K 3 :=
  .ofFn fun i => axisSample gravityMPerS2 (raw.get i) (offset.get i) (coeffG.get i)

def gyroSampleRadS (raw offset : Vector Int16 3) (coeffDps : Vector K 3) : Vector K 3 :=
  .ofFn fun i => axisSample degToRad (raw.get i) (offset.get i) (coeffDps.get i)

end Code

/-! ### Exact arithmetic -/

/-- Strictly between half of the nominal coefficient and twice the nominal one. -/
def InBand (nominal coeff : ℚ) : Prop := nominal / 2 < coeff ∧ coeff < 2 * nominal

instance (nominal coeff : ℚ) : Decidable (InBand nominal coeff) := inferInstanceAs (Decidable (_ ∧ _))

/-- An axis with this sensitivity and this offset keeps its own coefficient. -/
def Kept (numerator nominal : ℚ) (sens offset : Int16) : Prop :=
  1 < |(sens.toInt : ℚ) - offset.toInt| ∧ InBand nominal (numerator / (sens.toInt - offset.toInt))

instance (numerator nominal : ℚ) (sens offset : Int16) : Decidable (Kept numerator nominal sens offset) :=
  inferInstanceAs (Decidable (_ ∧ _))

/-- The difference fits 16 bits. -/
def Fits (raw offset : Int16) : Prop := -2 ^ 15 ≤ raw.toInt - offset.toInt ∧ raw.toInt - offset.toInt < 2 ^ 15

instance (raw offset : Int16) : Decidable (Fits raw offset) := inferInstanceAs (Decidable (_ ∧ _))

theorem inBand_self {nominal : ℚ} (h : 0 < nominal) : InBand nominal nominal := by
  constructor
  · linarith
  · linarith

theorem axisCoeff_rat (sens offset : Int16) (numerator : ℚ) {nominal : ℚ} (hpos : 0 < nominal) :
    ∃ coeff, axisCoeff sens offset numerator nominal = .ok coeff ∧ InBand nominal coeff ∧
      (Kept numerator nominal sens offset → coeff = numerator / (sens.toInt - offset.toInt)) := by
  obtain ⟨denom, hdenom⟩ : ∃ denom : ℚ, denom = sens.toInt - offset.toInt := ⟨_, rfl⟩
  have hunfold : axisCoeff sens offset numerator nominal =
      if |denom| ≤ (1.0 : ℚ) then .ok nominal
      else dividedBy numerator denom >>= fun coeff =>
        pure (if true ∧ nominal * (0.5 : ℚ) < coeff ∧ coeff < nominal * (2.0 : ℚ) then coeff else nominal) := by
    rw [hdenom]
    rfl
  have hone : (1.0 : ℚ) = 1 := by norm_num
  have hband (coeff : ℚ) :
      (true ∧ nominal * (0.5 : ℚ) < coeff ∧ coeff < nominal * (2.0 : ℚ)) ↔ InBand nominal coeff := by
    have hhalf : nominal * (0.5 : ℚ) = nominal / 2 := by
      norm_num
      ring
    have htwo : nominal * (2.0 : ℚ) = 2 * nominal := by
      norm_num
      ring
    rw [hhalf, htwo]
    exact and_iff_right rfl
  rw [hunfold, hone, Kept, ← hdenom]
  split
  · rename_i hle
    exact ⟨nominal, rfl, inBand_self hpos, fun h => absurd h.1 (not_lt.2 hle)⟩
  · rename_i hlt
    have hne : denom ≠ 0 := by
      rintro rfl
      rw [abs_zero] at hlt
      exact hlt zero_le_one
    rw [dividedBy_rat _ hne, Outcome.ok_bind]
    by_cases hin : InBand nominal (numerator / denom)
    · rw [if_pos ((hband _).2 hin)]
      exact ⟨_, rfl, hin, fun _ => rfl⟩
    · rw [if_neg (mt (hband _).1 hin)]
      exact ⟨_, rfl, inBand_self hpos, fun h => absurd h.2 hin⟩

theorem axisCoeffs_rat (sensitivity : Option (Vector Int16 3)) (offset : Vector Int16 3) (numerator : ℚ) {nominal : ℚ}
    (hpos : 0 < nominal) :
    ∃ coeffs, axisCoeffs sensitivity offset numerator nominal = .ok coeffs ∧ ∀ i : Fin 3,
      InBand nominal (coeffs.get i) ∧
      ∀ sens, sensitivity = some sens → Kept numerator nominal (sens.get i) (offset.get i) →
        coeffs.get i = numerator / ((sens.get i).toInt - (offset.get i).toInt) := by
  cases sensitivity with
  | none =>
    refine ⟨_, rfl, fun i => ⟨?_, nofun⟩⟩
    rw [Vector.get_replicate]
    exact inBand_self hpos
  | some sens =>
    obtain ⟨coeffs, hcoeffs, hspec⟩ := Outcome.exists_axes fun i =>
      axisCoeff_rat (sens.get i) (offset.get i) numerator hpos
    refine ⟨coeffs, hcoeffs, fun i => ⟨(hspec i).1, fun sens' h => ?_⟩⟩
    cases h
    exact (hspec i).2

/-- A difference that fits 16 bits does not wrap. -/
theorem toInt_sub_of_fits {raw offset : Int16} (h : Fits raw offset) :
    (raw - offset).toInt = raw.toInt - offset.toInt := by
  have hlow := h.1
  have hhigh := h.2
  rw [Int16.toInt_sub]
  exact Int.bmod_eq_of_le (by omega) (by omega)

theorem axisSample_rat (unit coeff : ℚ) {raw offset : Int16} (h : Fits raw offset) :
    axisSample unit raw offset coeff = (raw.toInt - offset.toInt) * coeff * unit := by
  show (((raw - offset).toInt : ℤ) : ℚ) * coeff * unit = _
  rw [toInt_sub_of_fits h]
  push_cast
  rfl

/-- An axis that keeps its own coefficient turns its sensitivity into the numerator and its offset into 0. -/
theorem axisSample_kept {numerator nominal unit coeff : ℚ} {sens offset raw : Int16}
    (hkept : Kept numerator nominal sens offset) (hcoeff : coeff = numerator / (sens.toInt - offset.toInt))
    (hfits : Fits raw offset) :
    (raw = sens → axisSample unit raw offset coeff = numerator * unit) ∧
      (raw = offset → axisSample unit raw offset coeff = 0) := by
  have hne : (sens.toInt : ℚ) - offset.toInt ≠ 0 := by
    intro hzero
    have hlt := hkept.1
    rw [hzero, abs_zero] at hlt
    exact absurd hlt (not_lt.2 zero_le_one)
  rw [axisSample_rat unit coeff hfits, hcoeff]
  constructor
  · rintro rfl
    rw [mul_div_cancel₀ _ hne]
  · rintro rfl
    rw [sub_self, zero_mul, zero_mul]

theorem plausibleOffset_get {v : Vector Int16 3} {bound : Nat} (h : plausibleOffset v bound = true) (i : Fin 3) :
    |(v.get i).toInt| ≤ bound := by
  have hget := Vector.all_eq_true.1 h i i.isLt
  have hget := of_decide_eq_true hget
  rw [Int.abs_eq_natAbs]
  exact_mod_cast hget

theorem plausibleOffset_zero (bound : Nat) : plausibleOffset (.replicate 3 0) bound = true := by
  simp [plausibleOffset]

theorem nominal_pos : (0 : ℚ) < nominalAccelCoeffG ∧ (0 : ℚ) < nominalGyroCoeffDps := by
  constructor
  · show (0 : ℚ) < 4.0 / 16384.0
    norm_num
  · show (0 : ℚ) < 936.0 / 13371.0
    norm_num

theorem numerators : (accelCoeffNumerator : ℚ) = 4 ∧ (gyroCoeffNumerator : ℚ) = 936 := by
  constructor
  · show (4.0 : ℚ) = 4
    norm_num
  · show (936.0 : ℚ) = 936
    norm_num

/-- The offsets of the block lie within the bounds of `parse_factory_block`. -/
def PlausibleBlock (block : List UInt8) : Prop :=
  ∀ i : Fin 3, |((readI16x3 block 0).get i).toInt| ≤ 2000 ∧ |((readI16x3 block 12).get i).toInt| ≤ 1000

/-- The six bytes at `start` are neither erased flash nor zeros. -/
def Written (block : List UInt8) (start : Nat) : Prop :=
  ¬ (∀ b ∈ (block.drop start).take 6, b = 0x00) ∧ ¬ (∀ b ∈ (block.drop start).take 6, b = 0xFF)

/-- What the calibration of a block has on an axis.  The block holds the accelerometer's offsets and sensitivities at
bytes 0 and 6, the gyroscope's at 12 and 18. -/
structure AxisOk (block : List UInt8) (cal : Calibration ℚ) (i : Fin 3) : Prop where
  accelOffset : |(cal.accelOffset.get i).toInt| ≤ 2000
  gyroOffset : |(cal.gyroOffset.get i).toInt| ≤ 1000
  accelCoeff : InBand nominalAccelCoeffG (cal.accelCoeffG.get i)
  gyroCoeff : InBand nominalGyroCoeffDps (cal.gyroCoeffDps.get i)
  /-- On an axis of a plausible block that keeps its own coefficient, the sensitivity stands for 4 g. -/
  accelExact : PlausibleBlock block → Written block 6 →
    Kept accelCoeffNumerator nominalAccelCoeffG ((readI16x3 block 6).get i) ((readI16x3 block 0).get i) →
    ∀ raw : Vector Int16 3, Fits (raw.get i) ((readI16x3 block 0).get i) →
      (raw.get i = (readI16x3 block 6).get i →
        (accelSampleMS2 raw cal.accelOffset cal.accelCoeffG).get i = 4 * gravityMPerS2) ∧
      (raw.get i = (readI16x3 block 0).get i →
        (accelSampleMS2 raw cal.accelOffset cal.accelCoeffG).get i = 0)
  /-- And 936 degrees per second. -/
  gyroExact : PlausibleBlock block → Written block 18 →
    Kept gyroCoeffNumerator nominalGyroCoeffDps ((readI16x3 block 18).get i) ((readI16x3 block 12).get i) →
    ∀ raw : Vector Int16 3, Fits (raw.get i) ((readI16x3 block 12).get i) →
      (raw.get i = (readI16x3 block 18).get i →
        (gyroSampleRadS raw cal.gyroOffset cal.gyroCoeffDps).get i = 936 * degToRad) ∧
      (raw.get i = (readI16x3 block 12).get i →
        (gyroSampleRadS raw cal.gyroOffset cal.gyroCoeffDps).get i = 0)

instance (block : List UInt8) : Decidable (PlausibleBlock block) :=
  inferInstanceAs (Decidable (∀ _ : Fin 3, _ ∧ _))

instance (block : List UInt8) (start : Nat) : Decidable (Written block start) := inferInstanceAs (Decidable (_ ∧ _))

theorem plausibleOffset_of_get {v : Vector Int16 3} (bound : Nat) (h : ∀ i : Fin 3, |(v.get i).toInt| ≤ bound) :
    plausibleOffset v bound = true := by
  refine Vector.all_eq_true.2 fun i hi => decide_eq_true ?_
  have hget := h ⟨i, hi⟩
  rw [Int.abs_eq_natAbs] at hget
  exact_mod_cast hget

theorem isZerosOrFf_of_written {block : List UInt8} {start : Nat} (h : Written block start) :
    isZerosOrFf ((block.drop start).take 6) = false := by
  rw [isZerosOrFf, Bool.or_eq_false_iff, ← Bool.not_eq_true, ← Bool.not_eq_true, List.all_eq_true, List.all_eq_true]
  simp only [beq_iff_eq]
  exact h

theorem parseFactoryBlock_exact {block : List UInt8} (h : 24 ≤ block.length) :
    ∃ cal : Calibration ℚ, parseFactoryBlock block = .ok cal ∧ ∀ i, AxisOk block cal i := by
  rw [parseFactoryBlock, if_neg (not_lt.2 h)]
  dsimp only
  split
  · rename_i hwarning
    have himplausible : ¬ PlausibleBlock block := by
      intro hp
      rw [plausibleOffset_of_get ACCEL_OFFSET_PLAUSIBLE_ABS fun i => (hp i).1,
        plausibleOffset_of_get GYRO_OFFSET_PLAUSIBLE_ABS fun i => (hp i).2] at hwarning
      exact absurd hwarning (by decide)
    refine ⟨_, rfl, fun i => ⟨?_, ?_, ?_, ?_, fun hp => absurd hp himplausible, fun hp => absurd hp himplausible⟩⟩
    · exact plausibleOffset_get (plausibleOffset_zero 2000) i
    · exact plausibleOffset_get (plausibleOffset_zero 1000) i
    · rw [Vector.get_replicate]
      exact inBand_self nominal_pos.1
    · rw [Vector.get_replicate]
      exact inBand_self nominal_pos.2
  · rename_i hwarning
    rw [Bool.not_eq_true, Bool.or_eq_false_iff, Bool.not_eq_false', Bool.not_eq_false'] at hwarning
    obtain ⟨accelCoeffs, haccel, haccelSpec⟩ := axisCoeffs_rat
      (if isZerosOrFf ((block.drop 6).take 6) then none else some (readI16x3 block 6)) (readI16x3 block 0)
      accelCoeffNumerator nominal_pos.1
    obtain ⟨gyroCoeffs, hgyro, hgyroSpec⟩ := axisCoeffs_rat
      (if isZerosOrFf ((block.drop 18).take 6) then none else some (readI16x3 block 18)) (readI16x3 block 12)
      gyroCoeffNumerator nominal_pos.2
    rw [haccel, Outcome.ok_bind, hgyro, Outcome.ok_bind]
    refine ⟨_, rfl, fun i => ⟨plausibleOffset_get hwarning.1 i, plausibleOffset_get hwarning.2 i,
      (haccelSpec i).1, (hgyroSpec i).1, fun _ hwritten hkept raw hfits => ?_,
      fun _ hwritten hkept raw hfits => ?_⟩⟩
    · have hsens := (haccelSpec i).2 (readI16x3 block 6) (by rw [isZerosOrFf_of_written hwritten]; rfl) hkept
      rw [accelSampleMS2, Vector.get_ofFn, ← numerators.1]
      exact axisSample_kept hkept hsens hfits
    · have hsens := (hgyroSpec i).2 (readI16x3 block 18) (by rw [isZerosOrFf_of_written hwritten]; rfl) hkept
      rw [gyroSampleRadS, Vector.get_ofFn, ← numerators.2]
      exact axisSample_kept hkept hsens hfits

/-- A block whose axes are off the nominal coefficients. -/
def sampleBlock : List UInt8 :=
  [100, -200, 50, 16484, 16184, 16000, 10, -20, 0, 13371, 13300, 13400].flatMap putI16

theorem parseFactoryBlock_exact_sampleBlock :
    ∃ cal : Calibration ℚ, parseFactoryBlock sampleBlock = .ok cal ∧
      (accelSampleMS2 #v[0, 16184, 0] cal.accelOffset cal.accelCoeffG).get 1 = 4 * gravityMPerS2 ∧
      (gyroSampleRadS #v[0, 0, 13400] cal.gyroOffset cal.gyroCoeffDps).get 2 = 936 * degToRad := by
  have hlen : 24 ≤ sampleBlock.length := by decide
  obtain ⟨cal, hcal, hok⟩ := parseFactoryBlock_exact hlen
  have hvalue : parseFactoryBlock sampleBlock = .ok (⟨#v[100, -200, 50], some #v[16484, 16184, 16000], #v[10, -20, 0],
      some #v[13371, 13300, 13400], #v[4 / 16384, 4 / 16384, 4 / 15950], #v[936 / 13361, 936 / 13320, 936 / 13400],
      false⟩ : Calibration ℚ) := by
    decide +kernel
  obtain rfl := Outcome.ok.inj (hcal.symm.trans hvalue)
  refine ⟨_, hcal, ?_, ?_⟩
  · exact ((hok 1).accelExact (by decide +kernel) (by decide +kernel) (by decide +kernel) _ (by decide +kernel)).1 rfl
  · exact ((hok 2).gyroExact (by decide +kernel) (by decide +kernel) (by decide +kernel) _ (by decide +kernel)).1 rfl

/-! ### Binary32 -/

def Calibration.ofImu (cal : ImuCalibration) : Calibration Float32 where
  accelOffset := cal.accelOffset
  accelSensitivity := cal.accelSensitivity
  gyroOffset := cal.gyroOffset
  gyroSensitivity := cal.gyroSensitivity
  accelCoeffG := cal.accelCoeffG
  gyroCoeffDps := cal.gyroCoeffDps
  plausibilityWarning := cal.plausibilityWarning

theorem axisCoeff_float32 (sens offset : Int16) (numerator nominal : Float32) :
    axisCoeff sens offset numerator nominal = .ok (Joycon.axisCoeff sens offset numerator nominal) := by
  have hunfold : axisCoeff sens offset numerator nominal =
      if (Float32.ofInt sens.toInt - Float32.ofInt offset.toInt).abs ≤ 1.0 then .ok nominal
      else
        let coeff := numerator / (Float32.ofInt sens.toInt - Float32.ofInt offset.toInt)
        .ok (if coeff.isFinite ∧ nominal * 0.5 < coeff ∧ coeff < nominal * 2.0 then coeff else nominal) := rfl
  rw [hunfold, Joycon.axisCoeff]
  dsimp only
  split
  · rfl
  · refine congrArg Outcome.ok (if_congr ?_ rfl rfl)
    rw [Bool.and_eq_true, Bool.and_eq_true, decide_eq_true_eq, decide_eq_true_eq, and_assoc]

theorem axisCoeffs_float32 (sensitivity : Option (Vector Int16 3)) (offset : Vector Int16 3)
    (numerator nominal : Float32) :
    axisCoeffs sensitivity offset numerator nominal =
      .ok (Joycon.axisCoeffs sensitivity offset numerator nominal) := by
  cases sensitivity with
  | none => rfl
  | some sens =>
    simp only [axisCoeffs, axisCoeff_float32, Outcome.axes, Outcome.ok_bind, Outcome.pure_eq, Joycon.axisCoeffs]
    refine congrArg Outcome.ok (Vector.ext fun i hi => ?_)
    rw [Vector.getElem_zipWith]
    match i with
    | 0 => rfl
    | 1 => rfl
    | 2 => rfl

/-- On `f32` the parser is the one that the reader uses. -/
theorem parseFactoryBlock_float32 (block : List UInt8) :
    parseFactoryBlock block =
      match Joycon.parseFactoryBlock block with
      | .ok cal => .ok (Calibration.ofImu cal)
      | .error e => .fail e := by
  rw [parseFactoryBlock, Joycon.parseFactoryBlock]
  split
  · rfl
  · dsimp only
    split
    · rfl
    · rw [axisCoeffs_float32, Outcome.ok_bind, axisCoeffs_float32, Outcome.ok_bind]
      rfl

theorem calibratedSample_ofImu (kind : ControllerKind) (cal : ImuCalibration) (raw : ImuRawSample) :
    (calibratedSample kind cal raw).accel = kind.remap (accelSampleMS2 raw.accel (Calibration.ofImu cal).accelOffset
        (Calibration.ofImu cal).accelCoeffG) ∧
      (calibratedSample kind cal raw).gyro = kind.remap (gyroSampleRadS raw.gyro (Calibration.ofImu cal).gyroOffset
        (Calibration.ofImu cal).gyroCoeffDps) :=
  ⟨rfl, rfl⟩

end EverythingImu.Joycon.Factory
