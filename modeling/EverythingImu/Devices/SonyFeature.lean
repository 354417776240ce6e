import EverythingImu.Devices.Sony
import EverythingImu.Library.CheckedScalar
import Mathlib

/-!
# The factory calibration of the Sony controllers

The calibration report of DualSense and DualShock 4 (`parse_feature_calibration`), over a checked scalar.  In exact
arithmetic no division by zero occurs, the scales are those of a clamp, and on an axis that is not clamped the
references of the report become what they stand for (`parseFeatureCalibration_exact`).  The correction is the one that
`parse_report` applies (`parseReport_calibrated`).
-/

namespace EverythingImu.Sony.DualSense

open Buffer CheckedScalar LittleEndian

section Code

variable {K : Type} [CheckedScalar K]

/-- `SonyCalibration` over a scalar. -/
structure Calibration (K : Type) where
  gyroBiasDps : Vector K 3
  gyroScale : Vector K 3
  accelBiasG : Vector K 3
  accelScale : Vector K 3
deriving DecidableEq

def degPerLsb : K := 2000.0 / 32767.0
def accelScaleG : K := 4.0 / 32767.0

/-- The signed word at `off`, as a number. -/
def s16 (buf : List UInt8) (off : Nat) : Outcome Unit K :=
  match readI16Le buf off with
  | some v => .ok (ofInt v.toInt)
  | none => .fail ()

/-- The scale of a gyroscope axis, 1 if its references are degenerate. -/
def gyroScaleOf (speed2x plus minus bias : K) : Outcome Unit K := do
  let denom := magnitude (plus - bias) + magnitude (minus - bias)
  if 0.0 < speed2x ∧ 0.0 < denom then
    let quotient ← dividedBy speed2x denom
    let scale ← dividedBy quotient degPerLsb
    return Scalar.clamp scale 0.9 1.1
  else return 1.0

def accelBiasOf (plus range : K) : Outcome Unit K := do
  let half ← dividedBy range 2.0
  return (plus - half) * accelScaleG

def accelScaleOf (range : K) : Outcome Unit K := do
  let scale ← dividedBy (2.0 * 8192.0) range
  return Scalar.clamp scale 0.9 1.1

/-- The words of a calibration report. -/
structure FeatureWords (K : Type) where
  bias : Vector K 3
  gyroPlus : Vector K 3
  gyroMinus : Vector K 3
  speedPlus : K
  speedMinus : K
  accPlus : Vector K 3
  accMinus : Vector K 3

/-- A DualShock 4 interleaves the references of the gyroscope in report 0x05. -/
def interleaved (kind : ControllerKind) (reportId : UInt8) : Bool := kind = .dualShock4 ∧ reportId = 0x05

def sequential (kind : ControllerKind) (reportId : UInt8) : Bool :=
  kind = .dualSense ∨ kind = .dualSenseEdge ∨ kind = .dualShock4 ∧ reportId = 0x02

/-- `None` of the source is a failure. -/
def readFeatureWords (kind : ControllerKind) (reportId : UInt8) (buf : List UInt8) : Outcome Unit (FeatureWords K) := do
  ensure () (interleaved kind reportId ∨ sequential kind reportId)
  ensure () (35 ≤ buf.length)
  let bias : Vector K 3 := triple (← s16 buf 1) (← s16 buf 3) (← s16 buf 5)
  ensure () (¬ bias.any fun v => decide ((4096.0 : K) < magnitude v))
  let (pitchMinus, yawPlus, yawMinus, rollPlus) :=
    if interleaved kind reportId then (13, 9, 15, 11) else (9, 11, 13, 15)
  return {
    bias
    gyroPlus := triple (← s16 buf 7) (← s16 buf yawPlus) (← s16 buf rollPlus)
    gyroMinus := triple (← s16 buf pitchMinus) (← s16 buf yawMinus) (← s16 buf 17)
    speedPlus := ← s16 buf 19
    speedMinus := ← s16 buf 21
    accPlus := triple (← s16 buf 23) (← s16 buf 27) (← s16 buf 31)
    accMinus := triple (← s16 buf 25) (← s16 buf 29) (← s16 buf 33) }

def calibrationOf (w : FeatureWords K) : Outcome Unit (Calibration K) := do
  let speed2x := w.speedPlus + w.speedMinus
  let gyroBiasDps := w.bias.map (· * degPerLsb)
  let gyroScale ← Outcome.axes fun i => gyroScaleOf speed2x (w.gyroPlus.get i) (w.gyroMinus.get i) (w.bias.get i)
  let range := Vector.zipWith (· - ·) w.accPlus w.accMinus
  if range.any fun v => decide (v ≤ (0.0 : K)) then
    return ⟨gyroBiasDps, gyroScale, .replicate 3 0.0, .replicate 3 1.0⟩
  else
    let accelBiasG ← Outcome.axes fun i => accelBiasOf (w.accPlus.get i) (range.get i)
    let accelScale ← Outcome.axes fun i => accelScaleOf (range.get i)
    return ⟨gyroBiasDps, gyroScale, accelBiasG, accelScale⟩

def parseFeatureCalibration (kind : ControllerKind) (reportId : UInt8) (buf : List UInt8) :
    Outcome Unit (Calibration K) := do
  calibrationOf (← readFeatureWords kind reportId buf)

/-- A raw reading in the unit of the scale, corrected as `parse_report` does. -/
def calibrated (raw : Int16) (unit bias scale : K) : K := (ofInt raw.toInt * unit - bias) * scale

end Code

/-! ### What is read -/

section Reading

variable {K : Type} [CheckedScalar K] {kind : ControllerKind} {reportId : UInt8} {buf : List UInt8}

/-- The signed word at `off`. -/
def word (buf : List UInt8) (off : Nat) : K := ofInt (readI16 buf off).toInt

/-- The place of the positive gyroscope reference of an axis. -/
def gyroPlusAt (kind : ControllerKind) (reportId : UInt8) (axis : Nat) : Nat :=
  if interleaved kind reportId then 7 + 2 * axis else 7 + 4 * axis

def gyroMinusAt (kind : ControllerKind) (reportId : UInt8) (axis : Nat) : Nat :=
  if interleaved kind reportId then 13 + 2 * axis else 9 + 4 * axis

theorem s16_eq {off : Nat} (h : off + 2 ≤ buf.length) : (s16 buf off : Outcome Unit K) = .ok (word buf off) := by
  rw [s16, readI16Le, if_pos h]
  rfl

/-- The words of a report that is long enough. -/
def featureWords (kind : ControllerKind) (reportId : UInt8) (buf : List UInt8) : FeatureWords K where
  bias := .ofFn fun i => word buf (1 + 2 * i)
  gyroPlus := .ofFn fun i => word buf (gyroPlusAt kind reportId i)
  gyroMinus := .ofFn fun i => word buf (gyroMinusAt kind reportId i)
  speedPlus := word buf 19
  speedMinus := word buf 21
  accPlus := .ofFn fun i => word buf (23 + 4 * i)
  accMinus := .ofFn fun i => word buf (25 + 4 * i)

/-- After the checks of the source, every word lies in the report. -/
theorem readFeatureWords_eq :
    (readFeatureWords kind reportId buf : Outcome Unit (FeatureWords K)) =
      (ensure () (interleaved kind reportId ∨ sequential kind reportId) >>= fun _ =>
        ensure () (35 ≤ buf.length) >>= fun _ =>
          ensure () (¬ (featureWords (K := K) kind reportId buf).bias.any fun v =>
            decide ((4096.0 : K) < magnitude v)) >>= fun _ => .ok (featureWords kind reportId buf)) := by
  unfold readFeatureWords featureWords gyroPlusAt gyroMinusAt
  by_cases hlen : 35 ≤ buf.length
  · cases hinter : interleaved kind reportId with
    | true =>
      simp (disch := omega) only [if_true, s16_eq, Outcome.ok_bind]
      rfl
    | false =>
      simp (disch := omega) only [Bool.false_eq_true, if_false, s16_eq, Outcome.ok_bind]
      rfl
  · simp only [ensure, if_neg hlen, Outcome.fail_bind]

theorem readFeatureWords_ok {w : FeatureWords K} (h : readFeatureWords kind reportId buf = .ok w) :
    w = featureWords kind reportId buf := by
  rw [readFeatureWords_eq] at h
  obtain ⟨-, h⟩ := ensure_bind_eq_ok.1 h
  obtain ⟨-, h⟩ := ensure_bind_eq_ok.1 h
  obtain ⟨-, h⟩ := ensure_bind_eq_ok.1 h
  cases h
  rfl

theorem readFeatureWords_ne_panic : (readFeatureWords kind reportId buf : Outcome Unit (FeatureWords K)) ≠ .panic := by
  rw [readFeatureWords_eq]
  exact ensure_bind_ne_panic fun _ => ensure_bind_ne_panic fun _ => ensure_bind_ne_panic fun _ => nofun

end Reading

/-! ### The computation -/

section Computation

variable {K : Type} [CheckedScalar K] {w : FeatureWords K} {cal : Calibration K}

/-- What a calibration has on each axis. -/
theorem calibrationOf_ok (h : calibrationOf w = .ok cal) (i : Fin 3) :
    cal.gyroBiasDps.get i = w.bias.get i * degPerLsb ∧
    gyroScaleOf (w.speedPlus + w.speedMinus) (w.gyroPlus.get i) (w.gyroMinus.get i) (w.bias.get i) =
      .ok (cal.gyroScale.get i) ∧
    ((∃ j : Fin 3, w.accPlus.get j - w.accMinus.get j ≤ (0.0 : K)) ∧ cal.accelBiasG.get i = 0.0 ∧
        cal.accelScale.get i = 1.0 ∨
      (∀ j : Fin 3, ¬ w.accPlus.get j - w.accMinus.get j ≤ (0.0 : K)) ∧
        accelBiasOf (w.accPlus.get i) (w.accPlus.get i - w.accMinus.get i) = .ok (cal.accelBiasG.get i) ∧
        accelScaleOf (w.accPlus.get i - w.accMinus.get i) = .ok (cal.accelScale.get i)) := by
  have hrange (j : Fin 3) :
      (Vector.zipWith (· - ·) w.accPlus w.accMinus).get j = w.accPlus.get j - w.accMinus.get j :=
    Vector.getElem_zipWith j.isLt
  have hbias : (w.bias.map (· * (degPerLsb : K))).get i = w.bias.get i * degPerLsb := Vector.getElem_map _ i.isLt
  have hdegenerate : (Vector.zipWith (· - ·) w.accPlus w.accMinus).any (fun v => decide (v ≤ (0.0 : K))) = true ↔
      ∃ j : Fin 3, w.accPlus.get j - w.accMinus.get j ≤ (0.0 : K) := by
    simp only [Vector.any_eq_true, decide_eq_true_eq, Vector.getElem_zipWith]
    constructor
    · rintro ⟨j, hj, hle⟩
      exact ⟨⟨j, hj⟩, hle⟩
    · rintro ⟨j, hle⟩
      exact ⟨j, j.isLt, hle⟩
  obtain ⟨gyroScale, hgyro, h⟩ := Outcome.bind_eq_ok.1 h
  have hgyro := Outcome.axes_ok hgyro i
  dsimp only at h
  split at h
  · rename_i hany
    cases h
    exact ⟨hbias, hgyro, Or.inl ⟨hdegenerate.1 hany, Vector.getElem_replicate i.isLt, Vector.getElem_replicate i.isLt⟩⟩
  · rename_i hany
    obtain ⟨accelBias, hbias', h⟩ := Outcome.bind_eq_ok.1 h
    obtain ⟨accelScale, hscale, h⟩ := Outcome.bind_eq_ok.1 h
    cases h
    have hbias' := Outcome.axes_ok hbias' i
    have hscale := Outcome.axes_ok hscale i
    rw [hrange] at hbias' hscale
    exact ⟨hbias, hgyro, Or.inr ⟨fun j hle => hany (hdegenerate.2 ⟨j, hle⟩), hbias', hscale⟩⟩

end Computation

/-! ### Exact arithmetic -/

section Exact

variable {kind : ControllerKind} {reportId : UInt8} {buf : List UInt8}

/-- The bounds of the clamp of a scale. -/
def InBand (scale : ℚ) : Prop := 9 / 10 ≤ scale ∧ scale ≤ 11 / 10

instance (scale : ℚ) : Decidable (InBand scale) := inferInstanceAs (Decidable (_ ∧ _))

theorem degPerLsb_pos : (0 : ℚ) < degPerLsb := by
  show (0 : ℚ) < 2000.0 / 32767.0
  norm_num

private theorem band : (0.9 : ℚ) = 9 / 10 ∧ (1.1 : ℚ) = 11 / 10 := by norm_num

theorem clamp_inBand (x : ℚ) : InBand (Scalar.clamp x 0.9 1.1) := by
  rw [band.1, band.2]
  exact Scalar.clamp_mem (by norm_num)

theorem clamp_of_inBand {x : ℚ} (h : InBand x) : Scalar.clamp x 0.9 1.1 = x := by
  rw [band.1, band.2]
  exact Scalar.clamp_of_mem h.1 h.2

theorem gyroScaleOf_rat (speed2x plus minus bias : ℚ) :
    ∃ scale, gyroScaleOf speed2x plus minus bias = .ok scale ∧ InBand scale ∧
      (0 < speed2x → 0 < |plus - bias| + |minus - bias| →
        InBand (speed2x / (|plus - bias| + |minus - bias|) / degPerLsb) →
        scale = speed2x / (|plus - bias| + |minus - bias|) / degPerLsb) := by
  obtain ⟨denom, hdenom⟩ : ∃ denom, denom = |plus - bias| + |minus - bias| := ⟨_, rfl⟩
  have hunfold : gyroScaleOf speed2x plus minus bias =
      if (0.0 : ℚ) < speed2x ∧ (0.0 : ℚ) < denom then
        dividedBy speed2x denom >>= fun quotient => dividedBy quotient degPerLsb >>= fun scale =>
          pure (Scalar.clamp scale 0.9 1.1)
      else pure 1.0 := by
    rw [hdenom]
    rfl
  rw [hunfold, ← hdenom]
  have hzero : (0.0 : ℚ) = 0 := by norm_num
  rw [hzero]
  split
  · rename_i hpos
    rw [dividedBy_rat _ hpos.2.ne', Outcome.ok_bind, dividedBy_rat _ degPerLsb_pos.ne', Outcome.ok_bind]
    exact ⟨_, rfl, clamp_inBand _, fun _ _ => clamp_of_inBand⟩
  · rename_i hneg
    refine ⟨_, rfl, ?_, fun hspeed hspan => absurd ⟨hspeed, hspan⟩ hneg⟩
    show (9 / 10 : ℚ) ≤ 1.0 ∧ (1.0 : ℚ) ≤ 11 / 10
    norm_num

theorem accelBiasOf_rat (plus range : ℚ) : accelBiasOf plus range = .ok ((plus - range / 2) * accelScaleG) := by
  have htwo : (2.0 : ℚ) = 2 := by norm_num
  have hdiv : (dividedBy range 2.0 : Outcome Unit ℚ) = .ok (range / 2) := by
    show dividedBy range (2.0 : ℚ) = _
    rw [htwo, dividedBy_rat _ two_ne_zero]
  rw [accelBiasOf, hdiv]
  rfl

theorem accelScaleOf_rat {range : ℚ} (h : 0 < range) :
    accelScaleOf range = .ok (Scalar.clamp (16384 / range) 0.9 1.1) := by
  have hproduct : (2.0 * 8192.0 : ℚ) = 16384 := by norm_num
  have hdiv : (dividedBy (2.0 * 8192.0) range : Outcome Unit ℚ) = .ok (16384 / range) := by
    show dividedBy (2.0 * 8192.0 : ℚ) range = _
    rw [hproduct, dividedBy_rat _ h.ne']
  rw [accelScaleOf, hdiv]
  rfl

/-- A gyroscope axis turns its references into speeds that add up to those of the report. -/
theorem gyro_references {plus minus bias speed scale : ℚ} (hspan : 0 < |plus - bias| + |minus - bias|)
    (hscale : scale = speed / (|plus - bias| + |minus - bias|) / degPerLsb) (hspeed : 0 < speed) :
    |(plus * degPerLsb - bias * degPerLsb) * scale| + |(minus * degPerLsb - bias * degPerLsb) * scale| = speed := by
  have hdeg := degPerLsb_pos
  have hpos : 0 < scale := by
    rw [hscale]
    positivity
  have hone (v : ℚ) : |(v * degPerLsb - bias * degPerLsb) * scale| = |v - bias| * (degPerLsb * scale) := by
    rw [← sub_mul, mul_assoc, abs_mul, abs_of_pos (mul_pos hdeg hpos)]
  rw [hone, hone, ← add_mul, hscale]
  field_simp

/-- An accelerometer axis turns its references into 8192 counts of either sign. -/
theorem accel_references {plus minus scale : ℚ} (unit : ℚ) (hrange : 0 < plus - minus)
    (hscale : scale = 16384 / (plus - minus)) :
    (plus * unit - (plus - (plus - minus) / 2) * unit) * scale = 8192 * unit ∧
      (minus * unit - (plus - (plus - minus) / 2) * unit) * scale = -(8192 * unit) := by
  rw [hscale]
  constructor
  · field_simp
    ring
  · field_simp
    ring

theorem calibrationOf_ne_panic (w : FeatureWords ℚ) : calibrationOf w ≠ .panic := by
  have hgyro (i : Fin 3) :
      gyroScaleOf (w.speedPlus + w.speedMinus) (w.gyroPlus.get i) (w.gyroMinus.get i) (w.bias.get i) ≠ .panic := by
    obtain ⟨scale, hscale, -⟩ := gyroScaleOf_rat (w.speedPlus + w.speedMinus) (w.gyroPlus.get i) (w.gyroMinus.get i)
      (w.bias.get i)
    rw [hscale]
    nofun
  refine Outcome.bind_ne_panic (Outcome.axes_ne_panic hgyro) fun gyroScale _ => ?_
  dsimp only
  split
  · nofun
  · rename_i hany
    refine Outcome.bind_ne_panic (Outcome.axes_ne_panic fun i => ?_) fun accelBias _ =>
      Outcome.bind_ne_panic (Outcome.axes_ne_panic fun i => ?_) fun accelScale _ => nofun
    · rw [accelBiasOf_rat]
      nofun
    · rw [accelScaleOf_rat]
      · nofun
      · by_contra hle
        refine hany (Vector.any_eq_true.2 ⟨i, i.isLt, decide_eq_true ?_⟩)
        have hzero : (0.0 : ℚ) = 0 := by norm_num
        show (Vector.zipWith (· - ·) w.accPlus w.accMinus).get i ≤ (0.0 : ℚ)
        rw [hzero]
        exact not_lt.1 hle

/-- No division by zero occurs, the scales are within the band of their clamps, and an axis that is not clamped turns
its references into what they stand for: 8192 counts of either sign, and speeds that add up to those of the report. -/
theorem parseFeatureCalibration_exact (kind : ControllerKind) (reportId : UInt8) (buf : List UInt8) :
    (parseFeatureCalibration kind reportId buf : Outcome Unit (Calibration ℚ)) ≠ .panic ∧
    ∀ cal : Calibration ℚ, parseFeatureCalibration kind reportId buf = .ok cal → ∀ i : Fin 3,
      let accRange (j : Fin 3) : ℚ := word buf (23 + 4 * j) - word buf (25 + 4 * j)
      let bias : ℚ := word buf (1 + 2 * i)
      let speed : ℚ := word buf 19 + word buf 21
      let span : ℚ := |word buf (gyroPlusAt kind reportId i) - bias| + |word buf (gyroMinusAt kind reportId i) - bias|
      let accel (raw : Int16) : ℚ := calibrated raw accelScaleG (cal.accelBiasG.get i) (cal.accelScale.get i)
      let gyro (raw : Int16) : ℚ := calibrated raw degPerLsb (cal.gyroBiasDps.get i) (cal.gyroScale.get i)
      InBand (cal.gyroScale.get i) ∧ InBand (cal.accelScale.get i) ∧
      ((∀ j, 0 < accRange j) → InBand (16384 / accRange i) →
        accel (readI16 buf (23 + 4 * i)) = 8192 * accelScaleG ∧
          accel (readI16 buf (25 + 4 * i)) = -(8192 * accelScaleG)) ∧
      (0 < speed → 0 < span → InBand (speed / span / degPerLsb) →
        |gyro (readI16 buf (gyroPlusAt kind reportId i))| + |gyro (readI16 buf (gyroMinusAt kind reportId i))| =
          speed) := by
  refine ⟨Outcome.bind_ne_panic readFeatureWords_ne_panic fun w _ => calibrationOf_ne_panic w, ?_⟩
  intro cal h i
  obtain ⟨w, hw, hcal⟩ := Outcome.bind_eq_ok.1 h
  obtain rfl := readFeatureWords_ok hw
  obtain ⟨hbias, hgyro, haccel⟩ := calibrationOf_ok hcal i
  simp only [featureWords, Vector.get_ofFn] at hbias hgyro haccel
  obtain ⟨scale, hscale, hband, hexact⟩ := gyroScaleOf_rat (word buf 19 + word buf 21)
    (word buf (gyroPlusAt kind reportId i)) (word buf (gyroMinusAt kind reportId i)) (word buf (1 + 2 * i))
  obtain rfl : scale = cal.gyroScale.get i := Outcome.ok.inj (hscale.symm.trans hgyro)
  have hzero : (0.0 : ℚ) = 0 := by norm_num
  refine ⟨hband, ?_, ?_, ?_⟩
  · rcases haccel with ⟨-, -, hone⟩ | ⟨hpos, -, hscale⟩
    · rw [hone]
      show (9 / 10 : ℚ) ≤ 1.0 ∧ (1.0 : ℚ) ≤ 11 / 10
      norm_num
    · have hpos := hpos i
      rw [hzero, not_le] at hpos
      rw [accelScaleOf_rat hpos] at hscale
      rw [← Outcome.ok.inj hscale]
      exact clamp_inBand _
  · intro hranges hin
    rcases haccel with ⟨⟨j, hj⟩, -⟩ | ⟨-, hbias', hscale⟩
    · rw [hzero] at hj
      exact absurd hj (not_le.2 (hranges j))
    · rw [accelScaleOf_rat (hranges i)] at hscale
      rw [accelBiasOf_rat] at hbias'
      have hscale := (Outcome.ok.inj hscale).symm.trans (clamp_of_inBand hin)
      have h := accel_references (accelScaleG : ℚ) (hranges i) hscale
      rw [Outcome.ok.inj hbias'] at h
      exact h
  · intro hspeed hspan hin
    show |(word buf (gyroPlusAt kind reportId i) * degPerLsb - cal.gyroBiasDps.get i) * cal.gyroScale.get i| +
      |(word buf (gyroMinusAt kind reportId i) * degPerLsb - cal.gyroBiasDps.get i) * cal.gyroScale.get i| = _
    rw [hbias]
    exact gyro_references hspan (hexact hspeed hspan hin) hspeed

/-- A report of a DualSense whose references are 8000 and 8192 counts of either sign. -/
def referenceReport : List UInt8 :=
  [0x05, 0, 0, 0, 0, 0, 0] ++ [0x40, 0x1F, 0xC0, 0xE0, 0x40, 0x1F, 0xC0, 0xE0, 0x40, 0x1F, 0xC0, 0xE0] ++
    [0xE8, 0x01, 0xE8, 0x01] ++ [0x00, 0x20, 0x00, 0xE0, 0x00, 0x20, 0x00, 0xE0, 0x00, 0x20, 0x00, 0xE0]

theorem parseFeatureCalibration_exact_reference :
    ∃ cal : Calibration ℚ, parseFeatureCalibration .dualSense 0x05 referenceReport = .ok cal ∧
      calibrated 8192 accelScaleG (cal.accelBiasG.get 0) (cal.accelScale.get 0) = 8192 * accelScaleG ∧
      |calibrated 8000 degPerLsb (cal.gyroBiasDps.get 0) (cal.gyroScale.get 0)| +
        |calibrated (-8000) degPerLsb (cal.gyroBiasDps.get 0) (cal.gyroScale.get 0)| = 976 := by
  obtain ⟨hpanic, hexact⟩ := parseFeatureCalibration_exact .dualSense 0x05 referenceReport
  cases hcal : (parseFeatureCalibration .dualSense 0x05 referenceReport : Outcome Unit (Calibration ℚ)) with
  | panic => exact absurd hcal hpanic
  | fail e =>
    have hok : (parseFeatureCalibration .dualSense 0x05 referenceReport : Outcome Unit (Calibration ℚ)) ≠ .fail () := by
      decide +kernel
    exact absurd hcal hok
  | ok cal =>
    obtain ⟨-, -, haccel, hgyro⟩ := hexact cal hcal 0
    refine ⟨cal, rfl, (haccel (by decide +kernel) (by decide +kernel)).1, ?_⟩
    exact (hgyro (by decide +kernel) (by decide +kernel) (by decide +kernel)).trans (by decide +kernel)

end Exact

/-! ### Binary32 -/

def Calibration.toSony (cal : Calibration Float32) : SonyCalibration :=
  ⟨cal.gyroBiasDps, cal.gyroScale, cal.accelBiasG, cal.accelScale⟩

theorem readI16Le_eq_some {buf : List UInt8} {o : Nat} {v : Int16} (h : readI16Le buf o = some v) :
    v = readI16 buf o := by
  unfold readI16Le at h
  split at h
  · exact (Option.some.inj h).symm
  · cases h

theorem readTriple_eq_some {buf : List UInt8} {o : Nat} {v : Vector Float32 3} (h : readTriple buf o = some v) :
    v = .ofFn fun i => ofInt (readI16 buf (o + 2 * i)).toInt := by
  obtain ⟨x, hx, h⟩ := Option.bind_eq_some_iff.1 h
  obtain ⟨y, hy, h⟩ := Option.bind_eq_some_iff.1 h
  obtain ⟨z, hz, h⟩ := Option.bind_eq_some_iff.1 h
  cases h
  rw [readI16Le_eq_some hx, readI16Le_eq_some hy, readI16Le_eq_some hz]
  rfl

/-- The samples of a calibrated controller are those of `calibrated`. -/
theorem parseReport_calibrated {kind : ControllerKind} {buf : List UInt8} {cal : Calibration Float32}
    {sample : ImuSample} {battery : Option BatteryState}
    (h : parseReport kind buf (some cal.toSony) = some (sample, battery)) :
    ∃ offsets, ImuOffsets.forReport kind buf.length = some offsets ∧
      sample.gyro = kind.remap (.ofFn fun i => calibrated (readI16 buf (offsets.gyro + 2 * i)) degPerLsb
        (cal.gyroBiasDps.get i) (cal.gyroScale.get i) * RAD_PER_DEG) ∧
      sample.accel = kind.remap (.ofFn fun i => calibrated (readI16 buf (offsets.accel + 2 * i)) accelScaleG
        (cal.accelBiasG.get i) (cal.accelScale.get i) * 9.80665) := by
  obtain ⟨offsets, hoffsets, h⟩ := Option.bind_eq_some_iff.1 h
  obtain ⟨gyro, hgyro, h⟩ := Option.bind_eq_some_iff.1 h
  obtain ⟨accel, haccel, h⟩ := Option.bind_eq_some_iff.1 h
  cases h
  refine ⟨offsets, hoffsets, ?_, ?_⟩
  · rw [readTriple_eq_some hgyro]
    refine congrArg kind.remap (Vector.ext fun i hi => ?_)
    simp only [correct, Vector.getElem_map, Vector.getElem_ofFn, Vector.get_eq_getElem]
    rfl
  · rw [readTriple_eq_some haccel]
    refine congrArg kind.remap (Vector.ext fun i hi => ?_)
    simp only [correct, Vector.getElem_map, Vector.getElem_ofFn, Vector.get_eq_getElem]
    rfl

end EverythingImu.Sony.DualSense
