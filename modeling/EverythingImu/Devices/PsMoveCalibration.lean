import EverythingImu.Devices.Sony
import EverythingImu.Library.CheckedScalar
import Mathlib

/-!
# The factory calibration of PS Move

`parse_factory_blob` and the corrections over a checked scalar.  In exact arithmetic no division by zero occurs, an
accelerometer axis maps the smallest of its samples to -16384 and the largest to 16384, and a gyroscope axis maps its
reference to the counts of 90 revolutions per minute (`parseFactoryBlob_fit`).  The corrections are those that
`parse_report` applies (`parseFrame_toImu`).
-/

namespace EverythingImu.Sony.PsMove

open Buffer CheckedScalar LittleEndian

section Code

variable {K : Type} [CheckedScalar K]

def CAL_BLOCK_LEN : Nat := 49
def OFS_ACCEL_SAMPLES : Nat := 2
def OFS_GYRO_BIAS : Nat := 0x26
def OFS_GYRO_90RPM : Nat := 0x30

/-- `ImuCalibration` over a scalar. -/
structure Calibration (K : Type) where
  accelBias : Vector K 3
  accelGain : Vector K 3
  gyroBias : Vector K 3
  gyroGain : Vector K 3
deriving DecidableEq

def Calibration.identity : Calibration K := ⟨.replicate 3 0.0, .replicate 3 1.0, .replicate 3 0.0, .replicate 3 1.0⟩

def Calibration.applyAccel (cal : Calibration K) (raw : Vector K 3) : Vector K 3 :=
  .ofFn fun i => (raw.get i - cal.accelBias.get i) * cal.accelGain.get i

def Calibration.applyGyro (cal : Calibration K) (raw : Vector K 3) : Vector K 3 :=
  .ofFn fun i => (raw.get i - cal.gyroBias.get i) * cal.gyroGain.get i

def nominalAccelHalfSpan : K := 16384.0
def nominalGyro90rpmLsb : K := 540.0 * 16.4

/-- The values of an axis in the six orientations. -/
def accelSamples (blob : List UInt8) (axis : Nat) : List Int :=
  (List.range 6).filterMap fun s => (readI16Le blob (OFS_ACCEL_SAMPLES + s * 6 + axis * 2)).map Int16.toInt

/-- The smallest and the largest value, from `i32::MAX` and `i32::MIN` on. -/
def extremes (values : List Int) : Int × Int :=
  values.foldl (fun (lo, hi) v => (min lo v, max hi v)) (2 ^ 31 - 1, -2 ^ 31)

/-- Bias and gain of an accelerometer axis. -/
def accelFit (lo hi : Int) : Outcome Empty (K × K) :=
  if lo < hi then do
    let mid ← dividedBy (ofInt (hi + lo)) 2.0
    let halfSpan ← dividedBy (ofInt (hi - lo)) 2.0
    let gain ← dividedBy nominalAccelHalfSpan halfSpan
    return (mid, gain)
  else return (0.0, 1.0)

/-- The gain of a gyroscope axis, from its reading at 90 revolutions per minute. -/
def gyroGainOf (reference : Option Int16) (bias : K) : Outcome Empty K :=
  match reference with
  | some v =>
    let delta := magnitude (ofInt v.toInt - bias)
    if 1.0 < delta then dividedBy nominalGyro90rpmLsb delta else return 1.0
  | none => return 1.0

/-- Both kinds have the same layout. -/
def parseFactoryBlob (_ : ControllerKind) (blob : List UInt8) : Outcome Empty (Calibration K) :=
  if blob.length < OFS_GYRO_90RPM + 18 then return .identity
  else do
    let accel ← Outcome.axes fun i =>
      let (lo, hi) := extremes (accelSamples blob i)
      accelFit lo hi
    let gyroBias := .ofFn fun i : Fin 3 => ofInt ((readI16Le blob (OFS_GYRO_BIAS + i * 2)).getD 0).toInt
    let gyroGain ← Outcome.axes fun i => gyroGainOf (readI16Le blob (OFS_GYRO_90RPM + i * 6 + i * 2)) (gyroBias.get i)
    return ⟨accel.map (·.1), accel.map (·.2), gyroBias, gyroGain⟩

end Code

/-! ### Extremes -/

theorem foldl_extremes (values : List Int) (lo hi : Int) :
    let r := values.foldl (fun (lo, hi) v => (min lo v, max hi v)) (lo, hi)
    (∀ v ∈ values, r.1 ≤ v ∧ v ≤ r.2) ∧ r.1 ≤ lo ∧ hi ≤ r.2 ∧ (r.1 = lo ∨ r.1 ∈ values) ∧
      (r.2 = hi ∨ r.2 ∈ values) := by
  induction values generalizing lo hi with
  | nil => exact ⟨nofun, le_rfl, le_rfl, .inl rfl, .inl rfl⟩
  | cons value values ih =>
    obtain ⟨hmem, hlo, hhi, hloMem, hhiMem⟩ := ih (min lo value) (max hi value)
    refine ⟨fun v hv => ?_, hlo.trans (min_le_left _ _), (le_max_left _ _).trans hhi, ?_, ?_⟩
    · rcases List.mem_cons.1 hv with rfl | hv
      · exact ⟨hlo.trans (min_le_right _ _), (le_max_right _ _).trans hhi⟩
      · exact hmem v hv
    · rcases hloMem with hloMem | hloMem
      · rcases min_choice lo value with hmin | hmin
        · exact .inl (hloMem.trans hmin)
        · exact .inr (List.mem_cons.2 (.inl (hloMem.trans hmin)))
      · exact .inr (List.mem_cons_of_mem _ hloMem)
    · rcases hhiMem with hhiMem | hhiMem
      · rcases max_choice hi value with hmax | hmax
        · exact .inl (hhiMem.trans hmax)
        · exact .inr (List.mem_cons.2 (.inl (hhiMem.trans hmax)))
      · exact .inr (List.mem_cons_of_mem _ hhiMem)

/-- The extremes of a nonempty list of 16-bit values bound it and belong to it. -/
theorem extremes_spec {values : List Int} (hne : values ≠ [])
    (hbound : ∀ v ∈ values, -2 ^ 31 < v ∧ v < 2 ^ 31 - 1) :
    (∀ v ∈ values, (extremes values).1 ≤ v ∧ v ≤ (extremes values).2) ∧ (extremes values).1 ∈ values ∧
      (extremes values).2 ∈ values := by
  obtain ⟨hmem, -, -, hlo, hhi⟩ := foldl_extremes values (2 ^ 31 - 1) (-2 ^ 31)
  obtain ⟨v, hv⟩ := List.exists_mem_of_ne_nil values hne
  refine ⟨hmem, hlo.resolve_left fun h => ?_, hhi.resolve_left fun h => ?_⟩
  · have hle := (hmem v hv).1
    have hlt := (hbound v hv).2
    rw [h] at hle
    omega
  · have hle := (hmem v hv).2
    have hlt := (hbound v hv).1
    rw [h] at hle
    omega

/-! ### What is read -/

/-- The sample of an axis in an orientation. -/
def accelWord (blob : List UInt8) (axis s : Nat) : Int := (readI16 blob (OFS_ACCEL_SAMPLES + s * 6 + axis * 2)).toInt

def gyroBiasWord (blob : List UInt8) (axis : Nat) : Int := (readI16 blob (OFS_GYRO_BIAS + axis * 2)).toInt

/-- The reading of an axis that turns with 90 revolutions per minute. -/
def referenceWord (blob : List UInt8) (axis : Nat) : Int := (readI16 blob (OFS_GYRO_90RPM + axis * 6 + axis * 2)).toInt

theorem accelSamples_eq {blob : List UInt8} (hlen : ¬ blob.length < OFS_GYRO_90RPM + 18) (axis : Fin 3) :
    accelSamples blob axis = (List.range 6).map (accelWord blob axis) := by
  have hlen : 66 ≤ blob.length := not_lt.1 hlen
  rw [← List.filterMap_eq_map]
  refine List.filterMap_congr fun s hs => ?_
  have hs := List.mem_range.1 hs
  have haxis := axis.isLt
  have hfits : OFS_ACCEL_SAMPLES + s * 6 + axis * 2 + 2 ≤ blob.length := by
    rw [OFS_ACCEL_SAMPLES]
    omega
  rw [readI16Le, if_pos hfits]
  rfl

theorem readI16Le_gyroBias {blob : List UInt8} (hlen : ¬ blob.length < OFS_GYRO_90RPM + 18) (i : Fin 3) :
    ((readI16Le blob (OFS_GYRO_BIAS + i * 2)).getD 0).toInt = gyroBiasWord blob i := by
  have hlen : 66 ≤ blob.length := not_lt.1 hlen
  have hi := i.isLt
  have hfits : OFS_GYRO_BIAS + i * 2 + 2 ≤ blob.length := by
    rw [OFS_GYRO_BIAS]
    omega
  rw [readI16Le, if_pos hfits]
  rfl

theorem readI16Le_reference {blob : List UInt8} (hlen : ¬ blob.length < OFS_GYRO_90RPM + 18) (i : Fin 3) :
    readI16Le blob (OFS_GYRO_90RPM + i * 6 + i * 2) = some (readI16 blob (OFS_GYRO_90RPM + i * 6 + i * 2)) := by
  have hlen : 66 ≤ blob.length := not_lt.1 hlen
  have hi := i.isLt
  have hfits : OFS_GYRO_90RPM + i * 6 + i * 2 + 2 ≤ blob.length := by
    rw [OFS_GYRO_90RPM]
    omega
  rw [readI16Le, if_pos hfits]

theorem toInt_bounds (w : Int16) : -2 ^ 31 < w.toInt ∧ w.toInt < 2 ^ 31 - 1 := by
  have hlow := w.le_toInt
  have hhigh := w.toInt_lt
  omega

/-- The extremes of an axis are the smallest and the largest of its six samples. -/
theorem extremes_accelSamples {blob : List UInt8} (hlen : ¬ blob.length < OFS_GYRO_90RPM + 18) (axis : Fin 3) :
    (∀ s < 6, (extremes (accelSamples blob axis)).1 ≤ accelWord blob axis s ∧
      accelWord blob axis s ≤ (extremes (accelSamples blob axis)).2) ∧
    (∃ s < 6, accelWord blob axis s = (extremes (accelSamples blob axis)).1) ∧
    ∃ s < 6, accelWord blob axis s = (extremes (accelSamples blob axis)).2 := by
  have hmem (v : Int) : v ∈ accelSamples blob axis ↔ ∃ s < 6, accelWord blob axis s = v := by
    rw [accelSamples_eq hlen, List.mem_map]
    simp only [List.mem_range]
  have hne : accelSamples blob axis ≠ [] := by
    rw [accelSamples_eq hlen]
    nofun
  have hbound : ∀ v ∈ accelSamples blob axis, -2 ^ 31 < v ∧ v < 2 ^ 31 - 1 := by
    intro v hv
    obtain ⟨s, -, rfl⟩ := (hmem v).1 hv
    exact toInt_bounds _
  obtain ⟨hall, hlo, hhi⟩ := extremes_spec hne hbound
  exact ⟨fun s hs => hall _ ((hmem _).2 ⟨s, hs, rfl⟩), (hmem _).1 hlo, (hmem _).1 hhi⟩

/-! ### Exact arithmetic -/

/-- A linear map of positive gain that is -16384 at `lo` and 16384 at `hi`. -/
theorem fit_references {lo hi : ℚ} (h : lo < hi) :
    0 < 16384 / ((hi - lo) / 2) ∧ (lo - (hi + lo) / 2) * (16384 / ((hi - lo) / 2)) = -16384 ∧
      (hi - (hi + lo) / 2) * (16384 / ((hi - lo) / 2)) = 16384 := by
  have hspan : 0 < hi - lo := sub_pos.2 h
  refine ⟨by positivity, ?_, ?_⟩
  · field_simp
    ring
  · field_simp
    ring

theorem accelFit_rat {lo hi : Int} (h : lo < hi) :
    accelFit lo hi = .ok (((hi : ℚ) + lo) / 2, 16384 / (((hi : ℚ) - lo) / 2)) := by
  have htwo : (2.0 : ℚ) = 2 := by norm_num
  have hnominal : (16384.0 : ℚ) = 16384 := by norm_num
  have hspan : (hi : ℚ) - lo ≠ 0 := sub_ne_zero.2 (Int.cast_injective.ne h.ne')
  have hunfold : (accelFit lo hi : Outcome Empty (ℚ × ℚ)) =
      dividedBy (((hi + lo : ℤ) : ℚ)) (2.0 : ℚ) >>= fun mid =>
        dividedBy (((hi - lo : ℤ) : ℚ)) (2.0 : ℚ) >>= fun halfSpan =>
          dividedBy (16384.0 : ℚ) halfSpan >>= fun gain => pure (mid, gain) := if_pos h
  rw [hunfold, htwo, hnominal, dividedBy_rat _ two_ne_zero, Outcome.ok_bind, dividedBy_rat _ two_ne_zero,
    Outcome.ok_bind, Int.cast_add, Int.cast_sub, dividedBy_rat _ (div_ne_zero hspan two_ne_zero), Outcome.ok_bind]
  rfl

theorem decimals : (0.0 : ℚ) = 0 ∧ (1.0 : ℚ) = 1 := by norm_num

theorem accelFit_degenerate {lo hi : Int} (h : ¬ lo < hi) : accelFit lo hi = .ok ((0 : ℚ), (1 : ℚ)) := by
  have hunfold : accelFit lo hi = .ok ((0.0 : ℚ), (1.0 : ℚ)) := if_neg h
  rw [hunfold, decimals.1, decimals.2]

theorem nominalGyro90rpmLsb_pos : (0 : ℚ) < nominalGyro90rpmLsb := by
  show (0 : ℚ) < 540.0 * 16.4
  norm_num

/-- A usable reference differs from the bias by more than one count. -/
theorem gyroGainOf_rat (reference : Int16) (bias : ℚ) :
    ∃ gain, gyroGainOf (some reference) bias = .ok gain ∧
      (1 < |(reference.toInt : ℚ) - bias| → |(reference.toInt - bias) * gain| = nominalGyro90rpmLsb) ∧
      (¬ 1 < |(reference.toInt : ℚ) - bias| → gain = 1) := by
  obtain ⟨delta, hdelta⟩ : ∃ delta : ℚ, delta = reference.toInt - bias := ⟨_, rfl⟩
  have hunfold : gyroGainOf (some reference) bias =
      if (1.0 : ℚ) < |delta| then dividedBy nominalGyro90rpmLsb |delta| else .ok 1.0 := by
    rw [hdelta]
    rfl
  have hone : (1.0 : ℚ) = 1 := by norm_num
  rw [hunfold, hone, ← hdelta]
  split
  · rename_i hlt
    have hpos : 0 < |delta| := zero_lt_one.trans hlt
    rw [dividedBy_rat _ hpos.ne']
    refine ⟨_, rfl, fun _ => ?_, fun h => absurd hlt h⟩
    rw [abs_mul, abs_div, abs_abs, abs_of_pos nominalGyro90rpmLsb_pos, mul_div_cancel₀ _ hpos.ne']
  · rename_i hle
    exact ⟨1, rfl, fun h => absurd h hle, fun _ => rfl⟩

/-- The samples of the accelerometer in an orientation. -/
def orientation (blob : List UInt8) (s : Nat) : Vector ℚ 3 := .ofFn fun axis => accelWord blob axis s

/-- Not all samples of the axis are equal. -/
def Varied (blob : List UInt8) (axis : Nat) : Prop := ∃ s < 6, ∃ t < 6, accelWord blob axis s ≠ accelWord blob axis t

/-- What `apply_accel` does with the samples of an axis. -/
structure AccelFitted (blob : List UInt8) (cal : Calibration ℚ) (i : Fin 3) : Prop where
  smallest : ∀ s < 6, (∀ t < 6, accelWord blob i s ≤ accelWord blob i t) →
    (cal.applyAccel (orientation blob s)).get i = -16384
  largest : ∀ s < 6, (∀ t < 6, accelWord blob i t ≤ accelWord blob i s) →
    (cal.applyAccel (orientation blob s)).get i = 16384
  between : ∀ s < 6, -16384 ≤ (cal.applyAccel (orientation blob s)).get i ∧
    (cal.applyAccel (orientation blob s)).get i ≤ 16384
  order : ∀ s t, (cal.applyAccel (orientation blob s)).get i ≤ (cal.applyAccel (orientation blob t)).get i ↔
    accelWord blob i s ≤ accelWord blob i t

theorem applyAccel_orientation (cal : Calibration ℚ) (blob : List UInt8) (s : Nat) (i : Fin 3) :
    (cal.applyAccel (orientation blob s)).get i =
      ((accelWord blob i s : ℚ) - cal.accelBias.get i) * cal.accelGain.get i := by
  rw [Calibration.applyAccel, Vector.get_ofFn, orientation, Vector.get_ofFn]

theorem accelFitted_of_fit {blob : List UInt8} {cal : Calibration ℚ} {i : Fin 3} {lo hi : Int} (hlt : lo < hi)
    (hall : ∀ s < 6, lo ≤ accelWord blob i s ∧ accelWord blob i s ≤ hi) (hlo : ∃ s < 6, accelWord blob i s = lo)
    (hhi : ∃ s < 6, accelWord blob i s = hi) (hbias : cal.accelBias.get i = ((hi : ℚ) + lo) / 2)
    (hgain : cal.accelGain.get i = 16384 / (((hi : ℚ) - lo) / 2)) : AccelFitted blob cal i := by
  obtain ⟨hpos, hfitLo, hfitHi⟩ := fit_references (Int.cast_lt.2 hlt : (lo : ℚ) < hi)
  rw [← hbias, ← hgain] at hfitLo hfitHi
  rw [← hgain] at hpos
  have horder (v w : ℚ) : (v - cal.accelBias.get i) * cal.accelGain.get i ≤
      (w - cal.accelBias.get i) * cal.accelGain.get i ↔ v ≤ w := by
    rw [mul_le_mul_iff_of_pos_right hpos, sub_le_sub_iff_right]
  constructor
  · intro s hs hleast
    obtain ⟨t, ht, rfl⟩ := hlo
    rw [applyAccel_orientation, le_antisymm (hleast t ht) (hall s hs).1, hfitLo]
  · intro s hs hgreatest
    obtain ⟨t, ht, rfl⟩ := hhi
    rw [applyAccel_orientation, le_antisymm (hall s hs).2 (hgreatest t ht), hfitHi]
  · intro s hs
    rw [applyAccel_orientation, ← hfitLo, ← hfitHi, horder, horder]
    exact ⟨Int.cast_le.2 (hall s hs).1, Int.cast_le.2 (hall s hs).2⟩
  · intro s t
    rw [applyAccel_orientation, applyAccel_orientation, horder, Int.cast_le]

/-- What the calibration has on an axis of a blob that is long enough. -/
structure AxisFit (blob : List UInt8) (cal : Calibration ℚ) (i : Fin 3) : Prop where
  accel : Varied blob i → AccelFitted blob cal i
  degenerate : ¬ Varied blob i → ∀ raw, (cal.applyAccel raw).get i = raw.get i
  gyro : 1 < |referenceWord blob i - gyroBiasWord blob i| → ∀ raw : Vector ℚ 3, raw.get i = referenceWord blob i →
    |(cal.applyGyro raw).get i| = 540 * 16.4
  unusable : ¬ 1 < |referenceWord blob i - gyroBiasWord blob i| → cal.gyroGain.get i = 1

/-- The fit of an axis: the extremes of varied samples, else no correction. -/
theorem accelFit_axis {blob : List UInt8} (hlen : ¬ blob.length < OFS_GYRO_90RPM + 18) (i : Fin 3) :
    ∃ fit : ℚ × ℚ, accelFit (extremes (accelSamples blob i)).1 (extremes (accelSamples blob i)).2 = .ok fit ∧
      0 < fit.2 ∧
      (Varied blob i → ∀ cal : Calibration ℚ, cal.accelBias.get i = fit.1 → cal.accelGain.get i = fit.2 →
        AccelFitted blob cal i) ∧
      (¬ Varied blob i → fit.1 = 0 ∧ fit.2 = 1) := by
  obtain ⟨hall, hlo, hhi⟩ := extremes_accelSamples hlen i
  by_cases hlt : (extremes (accelSamples blob i)).1 < (extremes (accelSamples blob i)).2
  · have hvaried : Varied blob i := by
      obtain ⟨s, hs, hloEq⟩ := hlo
      obtain ⟨t, ht, hhiEq⟩ := hhi
      refine ⟨s, hs, t, ht, ?_⟩
      rw [hloEq, hhiEq]
      exact hlt.ne
    exact ⟨_, accelFit_rat hlt, (fit_references (Int.cast_lt.2 hlt)).1,
      fun _ cal hbias hgain => accelFitted_of_fit hlt hall hlo hhi hbias hgain, fun h => absurd hvaried h⟩
  · have hequal : ¬ Varied blob i := by
      rintro ⟨s, hs, t, ht, hne⟩
      have hs := hall s hs
      have ht := hall t ht
      omega
    exact ⟨_, accelFit_degenerate hlt, zero_lt_one, fun h => absurd h hequal, fun _ => ⟨rfl, rfl⟩⟩

theorem parseFactoryBlob_fit (kind : ControllerKind) (blob : List UInt8) :
    ∃ cal : Calibration ℚ, parseFactoryBlob kind blob = .ok cal ∧ (∀ i, 0 < cal.accelGain.get i) ∧
      (blob.length < 66 → ∀ raw, cal.applyAccel raw = raw ∧ cal.applyGyro raw = raw) ∧
      (66 ≤ blob.length → ∀ i, AxisFit blob cal i) := by
  unfold parseFactoryBlob
  split
  · rename_i hshort
    have hget (i : Fin 3) : (Vector.replicate 3 (0.0 : ℚ)).get i = 0 ∧ (Vector.replicate 3 (1.0 : ℚ)).get i = 1 := by
      rw [Vector.get_replicate, Vector.get_replicate]
      exact decimals
    have hsame (raw : Vector ℚ 3) : (Vector.ofFn fun i : Fin 3 =>
        (raw.get i - (Vector.replicate 3 (0.0 : ℚ)).get i) * (Vector.replicate 3 (1.0 : ℚ)).get i) = raw := by
      refine Vector.ext fun i hi => ?_
      rw [Vector.getElem_ofFn, (hget _).1, (hget _).2, sub_zero, mul_one]
      rfl
    refine ⟨.identity, rfl, fun i => ?_, fun _ raw => ⟨hsame raw, hsame raw⟩, fun hlen => absurd hshort (not_lt.2 hlen)⟩
    exact (hget i).2.symm ▸ zero_lt_one
  · rename_i hlen
    obtain ⟨accel, haccel, haccelSpec⟩ := Outcome.exists_axes (accelFit_axis hlen)
    have hbias (i : Fin 3) : (accel.map (·.1)).get i = (accel.get i).1 := Vector.getElem_map _ i.isLt
    have hgain (i : Fin 3) : (accel.map (·.2)).get i = (accel.get i).2 := Vector.getElem_map _ i.isLt
    have hnominal : (nominalGyro90rpmLsb : ℚ) = 540 * 16.4 := by
      show (540.0 * 16.4 : ℚ) = 540 * 16.4
      norm_num
    obtain ⟨gyroGain, hgyro, hgyroSpec⟩ := Outcome.exists_axes fun i : Fin 3 =>
      gyroGainOf_rat (readI16 blob (OFS_GYRO_90RPM + i * 6 + i * 2)) (ofInt (gyroBiasWord blob i))
    simp only [haccel, Outcome.ok_bind, readI16Le_gyroBias hlen, readI16Le_reference hlen, Vector.get_ofFn]
    rw [hgyro, Outcome.ok_bind]
    refine ⟨_, rfl, fun i => ?_, fun hshort => absurd hshort hlen, fun _ i => ⟨fun hvaried => ?_, ?_, ?_, ?_⟩⟩
    · rw [hgain i]
      exact (haccelSpec i).1
    · exact (haccelSpec i).2.1 hvaried _ (hbias i) (hgain i)
    · intro hequal raw
      have hnone := (haccelSpec i).2.2 hequal
      rw [Calibration.applyAccel, Vector.get_ofFn, hbias, hgain, hnone.1, hnone.2, sub_zero, mul_one]
    · intro husable raw href
      have husable : (1 : ℚ) < |(referenceWord blob i : ℚ) - gyroBiasWord blob i| := by exact_mod_cast husable
      rw [Calibration.applyGyro, Vector.get_ofFn, Vector.get_ofFn, href]
      exact ((hgyroSpec i).1 husable).trans hnominal
    · intro hunusable
      refine (hgyroSpec i).2 fun husable => hunusable ?_
      have husable : (1 : ℚ) < |(referenceWord blob i : ℚ) - gyroBiasWord blob i| := husable
      exact_mod_cast husable

/-! ### Binary32 -/

def Calibration.toImu (cal : Calibration Float32) : ImuCalibration :=
  ⟨cal.accelBias, cal.accelGain, cal.gyroBias, cal.gyroGain⟩

/-- The reader of the reports corrects the counts of a frame with `applyAccel` and `applyGyro`. -/
theorem parseFrame_toImu (kind : ControllerKind) (buf : List UInt8) (accelOfs gyroOfs : Nat) (timestampUs : UInt64)
    (cal : Calibration Float32) :
    parseFrame kind buf accelOfs gyroOfs timestampUs cal.toImu = do
      let accel ← rawTriple kind buf accelOfs
      let gyro ← rawTriple kind buf gyroOfs
      return ⟨(cal.applyGyro gyro).map (· * GYRO_SCALE_RAD_S), (cal.applyAccel accel).map (· * ACCEL_SCALE_M_S2),
        none, timestampUs⟩ :=
  rfl

end EverythingImu.Sony.PsMove
