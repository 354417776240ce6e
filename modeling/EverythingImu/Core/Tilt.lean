import EverythingImu.Core.Pipeline
import EverythingImu.Library.Rotation
import Mathlib.Analysis.SpecialFunctions.Trigonometric.Basic

/-!
# The tilt of what the pipeline publishes

The rotation and the acceleration that leave the pipeline in one packet (`pipeline.rs`), over the exact reals.  The
world of the filter has Z up: its inclination correction (`vqf.rs`) turns the measured gravity to that axis.  A yaw
offset keeps the tilt of an estimate when the direction up has the same coordinates in the body before and after it,
and a mounting preset keeps gravity when the published pair gives the acceleration the height it had.
-/

namespace EverythingImu.Core

open Quaternion

/-! ### The published pair -/

section Published

variable {K : Type} [TrigScalar K]

/-- `QuatXyzw::from_vqf_wijk` without the conversion. -/
def ofWijk (q : Vector K 4) : Vector K 4 := #v[q.q1, q.q2, q.q3, q.q0]

/-- `jsl_to_vqf_body` without the conversion. -/
def jslToVqf (v : Vector K 3) : Vector K 3 := #v[v.x, -v.z, v.y]

/-- The rotation and the acceleration that a batch publishes. -/
def publishedPair (mounting : MountingOrientation) (rotationOffsetDeg : K) (estimate : Vector K 4)
    (lastAccel : Vector K 3) : Vector K 4 × Vector K 3 :=
  (outgoingQuat mounting rotationOffsetDeg (ofWijk estimate), jslToVqf lastAccel)

def EPS : K := 0.000001

/-- The inclination correction of `update_acc`, in the order w, i, j, k, for the direction of gravity in the world. -/
def accCorr (accE6 : Vector K 3) : Vector K 4 :=
  let qW := TrigScalar.sqrt ((accE6.z + 1.0) / 2.0)
  if EPS < qW then #v[qW, (0.5 : K) * accE6.y / qW, -(0.5 : K) * accE6.x / qW, 0.0] else #v[0.0, 1.0, 0.0, 0.0]

end Published

theorem fromVqfWijk_eq (q : Vector Float 4) : fromVqfWijk q = (ofWijk q).map Float.toFloat32 := by
  simp [fromVqfWijk, ofWijk]

theorem jslToVqfBody_eq (v : Vector Float32 3) : jslToVqfBody v = (jslToVqf v).map Float32.toFloat := by
  simp [jslToVqfBody, jslToVqf]

/-- The packet of a batch carries the pair, with the estimate and the acceleration rounded on the way. -/
theorem Pipeline.sendBatch_published {F : Type} [OrientationFilter F] (p : Pipeline F) (env : EventEnv)
    (lastRaw : ImuSample) (packet : SlimeSend) (h : packet ∈ (p.sendBatch env lastRaw).2) :
    (∃ mag, packet = .magnetometer p.sensorId mag) ∨
    packet = .rotationAndAccel p.sensorId
      (outgoingQuat env.config.mounting env.config.rotationOffsetDeg
        ((ofWijk (OrientationFilter.quatWijk p.fusion env.config.magnetometerEnabled)).map Float.toFloat32))
      (((jslToVqf lastRaw.accel).map Float32.toFloat).map Float.toFloat32) := by
  rw [← fromVqfWijk_eq, ← jslToVqfBody_eq]
  unfold Pipeline.sendBatch at h
  split at h
  · simp at h
  · split at h
    · simp at h
    · split at h
      · dsimp only at h
        split at h
        · simp only [List.mem_singleton] at h
          exact .inr h
        · simp only [List.mem_cons, List.not_mem_nil, or_false] at h
          exact h.symm.imp_left fun h => ⟨_, h⟩
      · simp only [List.mem_singleton] at h
        exact .inr h

/-! ### Exact numbers -/

/-- Angles over the reals, with a sine and a cosine that are a unit pair at each of them. -/
class ExactAngles where
  pi : ℝ
  sin : ℝ → ℝ
  cos : ℝ → ℝ
  unit : ∀ x, sin x * sin x + cos x * cos x = 1

noncomputable instance : Scalar ℝ where
  toAdd := inferInstance
  toSub := inferInstance
  toMul := inferInstance
  toDiv := inferInstance
  toNeg := inferInstance
  toLT := inferInstance
  toLE := inferInstance
  toNatCast := inferInstance
  toOfScientific := inferInstance
  decLt := inferInstance
  decLe := inferInstance

noncomputable instance [ExactAngles] : TrigScalar ℝ where
  pi := ExactAngles.pi
  sin := ExactAngles.sin
  cos := ExactAngles.cos
  sqrt := Real.sqrt

/-- The angles in radians. -/
@[reducible]
noncomputable def ExactAngles.radians : ExactAngles where
  pi := Real.pi
  sin := Real.sin
  cos := Real.cos
  unit x := by rw [← sq, ← sq, Real.sin_sq_add_cos_sq]

/-- A literal of the model is the real number it writes. -/
theorem literal_eq (m : ℕ) (sign : Bool) (e : ℕ) :
    @OfScientific.ofScientific ℝ Scalar.instOfScientific m sign e = OfScientific.ofScientific m sign e := rfl

theorem scalarAbs_eq (x : ℝ) : Scalar.abs x = |x| := by
  have hz : (0.0 : ℝ) = 0 := by norm_num
  simp only [Scalar.abs, hz]
  split
  · next h => rw [abs_of_neg h]
  · next h => rw [abs_of_nonneg (not_lt.1 h)]

/-- The quaternion of a vector in the order x, y, z, w. -/
def toQuat (q : Vector ℝ 4) : ℍ[ℝ] := ofParts q.q3 q.q0 q.q1 q.q2

/-- The quaternion of a vector of space. -/
def toVec (v : Vector ℝ 3) : ℍ[ℝ] := ofParts 0 v.x v.y v.z

/-- A unit estimate of the filter, in the order w, i, j, k. -/
structure UnitEstimate where
  wijk : Vector ℝ 4
  unit : normSq (toQuat (ofWijk wijk)) = 1

/-! ### The composed quaternion -/

section Exact

variable [ExactAngles]

theorem toQuat_quatMulXyzw (a b : Vector ℝ 4) : toQuat (quatMulXyzw a b) = toQuat a * toQuat b := by
  ext <;> simp [toQuat, quatMulXyzw]

/-- A unit quaternion is left alone by the normalization. -/
theorem normalizeQuat_unit {q : Vector ℝ 4} (h : normSq (toQuat q) = 1) : normalizeQuat q = q := by
  have hn : q[0] * q[0] + q[1] * q[1] + q[2] * q[2] + q[3] * q[3] = 1 := by
    rw [toQuat, normSq_ofParts] at h
    linear_combination h
  have hs : TrigScalar.sqrt (1 : ℝ) = 1 := Real.sqrt_one
  simp only [normalizeQuat, hn, hs, literal_eq]
  norm_num

/-- Half of the yaw offset, as an angle. -/
noncomputable def yawHalf (deg : ℝ) : ℝ := deg * ExactAngles.pi / 180.0 * 0.5

theorem toQuat_yawOffsetQuat (deg : ℝ) :
    toQuat (yawOffsetQuat deg) = horizontal 0 1 (ExactAngles.sin (yawHalf deg)) (ExactAngles.cos (yawHalf deg)) := by
  have hz : (0.0 : ℝ) = 0 := by norm_num
  simp only [toQuat, yawOffsetQuat, horizontal, literal_eq, hz, mul_zero, mul_one]
  rfl

theorem normSq_yawOffsetQuat (deg : ℝ) : normSq (toQuat (yawOffsetQuat deg)) = 1 := by
  rw [toQuat_yawOffsetQuat]
  exact normSq_horizontal (by ring) (ExactAngles.unit _)

/-- A preset turns about a horizontal axis. -/
theorem MountingOrientation.axis_horizontal {m : MountingOrientation} {axis : Vector ℝ 3} {angle : ℝ}
    (h : m.axisAngle = some (axis, angle)) : axis.x * axis.x + axis.y * axis.y = 1 ∧ axis.z = 0 := by
  have hz : (0.0 : ℝ) = 0 := by norm_num
  have ho : (1.0 : ℝ) = 1 := by norm_num
  cases m <;> simp only [MountingOrientation.axisAngle, Option.some.injEq, Prod.mk.injEq, reduceCtorEq] at h <;>
    obtain ⟨rfl, -⟩ := h <;> simp [hz, ho]

theorem toQuat_quatXyzw {m : MountingOrientation} {axis : Vector ℝ 3} {angle : ℝ}
    (h : m.axisAngle = some (axis, angle)) :
    toQuat m.quatXyzw =
      horizontal axis.x axis.y (ExactAngles.sin (angle * 0.5)) (ExactAngles.cos (angle * 0.5)) := by
  have ha := (MountingOrientation.axis_horizontal h).2
  have hs : ∀ x : ℝ, TrigScalar.sin x = ExactAngles.sin x := fun _ => rfl
  have hc : ∀ x : ℝ, TrigScalar.cos x = ExactAngles.cos x := fun _ => rfl
  simp only [MountingOrientation.quatXyzw, h, toQuat, horizontal]
  simp [ha, hs, hc, literal_eq, mul_comm]

theorem toQuat_quatXyzw_identity : toQuat (MountingOrientation.quatXyzw .identity) = 1 := by
  ext <;> simp [toQuat, MountingOrientation.quatXyzw, MountingOrientation.axisAngle, literal_eq] <;> norm_num

theorem normSq_quatXyzw (m : MountingOrientation) : normSq (toQuat m.quatXyzw) = 1 := by
  rcases h : (m.axisAngle : Option (Vector ℝ 3 × ℝ)) with _ | ⟨axis, angle⟩
  · cases m with
    | identity => rw [toQuat_quatXyzw_identity, map_one]
    | _ => simp [MountingOrientation.axisAngle] at h
  · rw [toQuat_quatXyzw h]
    exact normSq_horizontal (MountingOrientation.axis_horizontal h).1 (ExactAngles.unit _)

/-- What the pipeline composes in front of a unit estimate: the yaw offset, beyond its threshold, and the preset. -/
theorem toQuat_outgoingQuat (m : MountingOrientation) (deg : ℝ) {q : Vector ℝ 4} (hq : normSq (toQuat q) = 1) :
    toQuat (outgoingQuat m deg q) =
      (if 0.0001 < |deg| then toQuat (yawOffsetQuat deg) else 1) * (toQuat m.quatXyzw * toQuat q) := by
  have hm : normSq (toQuat (quatMulXyzw m.quatXyzw q)) = 1 := by
    rw [toQuat_quatMulXyzw, map_mul, normSq_quatXyzw, hq, mul_one]
  have hy : ∀ r : Vector ℝ 4, normSq (toQuat r) = 1 →
      normSq (toQuat (quatMulXyzw (yawOffsetQuat deg) r)) = 1 := by
    intro r hr
    rw [toQuat_quatMulXyzw, map_mul, normSq_yawOffsetQuat, hr, mul_one]
  simp only [outgoingQuat, scalarAbs_eq, literal_eq]
  by_cases hi : m = .identity
  · subst hi
    simp only [if_true, toQuat_quatXyzw_identity, one_mul]
    split
    · rw [normalizeQuat_unit (hy q hq), toQuat_quatMulXyzw]
    · rw [one_mul]
  · simp only [hi, if_false]
    split
    · rw [normalizeQuat_unit (hy _ hm), toQuat_quatMulXyzw, toQuat_quatMulXyzw]
    · rw [normalizeQuat_unit hm, toQuat_quatMulXyzw, one_mul]

/-! ### The yaw offset -/

/-- An offset beyond the threshold moves the direction up in the body, unless it is a number of whole turns. -/
theorem up_outgoingQuat_iff {deg : ℝ} (hdeg : 0.0001 < |deg|) (e : UnitEstimate) :
    rotate (star (toQuat (outgoingQuat .identity deg (ofWijk e.wijk)))) up = rotate (star (toQuat (ofWijk e.wijk))) up ↔
      ExactAngles.sin (yawHalf deg) = 0 := by
  rw [toQuat_outgoingQuat .identity deg e.unit, if_pos hdeg, toQuat_quatXyzw_identity, one_mul,
    rotate_star_mul_eq_iff (normSq_yawOffsetQuat deg) e.unit, toQuat_yawOffsetQuat]
  exact rotate_horizontal_up (by ring) (ExactAngles.unit _)

/-- The published orientation sees the world's up where the estimate sees it exactly for the offsets that the pipeline
ignores and for whole turns. -/
theorem yawOffset_keeps_up_iff (deg : ℝ) (e : UnitEstimate) (lastAccel : Vector ℝ 3) :
    rotate (star (toQuat (publishedPair .identity deg e.wijk lastAccel).1)) up =
        rotate (star (toQuat (ofWijk e.wijk))) up ↔
      |deg| ≤ 0.0001 ∨ ExactAngles.sin (yawHalf deg) = 0 := by
  by_cases hdeg : 0.0001 < |deg|
  · have h := up_outgoingQuat_iff hdeg e
    have hle : ¬|deg| ≤ 0.0001 := not_le.2 hdeg
    simpa [publishedPair, hle] using h
  · have hle : |deg| ≤ 0.0001 := not_lt.1 hdeg
    have h := toQuat_outgoingQuat .identity deg e.unit
    rw [if_neg hdeg, toQuat_quatXyzw_identity, one_mul, one_mul] at h
    simp [publishedPair, h, hle]

/-! ### The mounting preset -/

/-- The preset does not turn, or its rotation of the acceleration `w` in the world is a number of whole turns or
carries `w` to its mirror image in the vertical plane through the axis. -/
def MountingOrientation.KeepsHeight (m : MountingOrientation) (w : ℍ[ℝ]) : Prop :=
  match (m.axisAngle : Option (Vector ℝ 3 × ℝ)) with
  | none => True
  | some (axis, angle) =>
    let s := ExactAngles.sin (angle * 0.5)
    let c := ExactAngles.cos (angle * 0.5)
    s * (s * w.imK + c * (axis.y * w.imI - axis.x * w.imJ)) = 0

/-- Without a yaw offset the published rotation is the preset behind the estimate. -/
theorem rotate_published (m : MountingOrientation) (e : UnitEstimate) (v : ℍ[ℝ]) (lastAccel : Vector ℝ 3) :
    rotate (toQuat (publishedPair m 0 e.wijk lastAccel).1) v =
      rotate (toQuat m.quatXyzw) (rotate (toQuat (ofWijk e.wijk)) v) := by
  have h := toQuat_outgoingQuat m 0 e.unit
  have h0 : ¬(0.0001 : ℝ) < |0| := by norm_num
  rw [if_neg h0, one_mul] at h
  rw [publishedPair, h, rotate_mul]

theorem height_mounted_iff (m : MountingOrientation) (w : ℍ[ℝ]) :
    (rotate (toQuat m.quatXyzw) w).imK = w.imK ↔ m.KeepsHeight w := by
  rcases h : (m.axisAngle : Option (Vector ℝ 3 × ℝ)) with _ | ⟨axis, angle⟩
  · cases m with
    | identity => simp [MountingOrientation.KeepsHeight, h, toQuat_quatXyzw_identity, rotate]
    | _ => simp [MountingOrientation.axisAngle] at h
  · simp only [MountingOrientation.KeepsHeight, h]
    rw [toQuat_quatXyzw h]
    exact height_rotate_horizontal_iff (MountingOrientation.axis_horizontal h).1 (ExactAngles.unit _) _

/-- The published acceleration, turned by the published rotation, has the height of the sample turned by the estimate
exactly when the preset keeps it. -/
theorem published_height_iff (m : MountingOrientation) (e : UnitEstimate) (lastAccel : Vector ℝ 3) :
    (rotate (toQuat (publishedPair m 0 e.wijk lastAccel).1) (toVec (publishedPair m 0 e.wijk lastAccel).2)).imK =
        (rotate (toQuat (ofWijk e.wijk)) (toVec (jslToVqf lastAccel))).imK ↔
      m.KeepsHeight (rotate (toQuat (ofWijk e.wijk)) (toVec (jslToVqf lastAccel))) := by
  have ha : (publishedPair m 0 e.wijk lastAccel).2 = jslToVqf lastAccel := rfl
  rw [rotate_published, ha]
  exact height_mounted_iff m _

/-! ### The world of the filter -/

/-- The inclination correction turns the direction of gravity that the filter measures to the world's up. -/
theorem rotate_accCorr {g : Vector ℝ 3} (hg : normSq (toVec g) = 1) (h : EPS < Real.sqrt ((g.z + 1) / 2)) :
    rotate (ofParts (accCorr g).q0 (accCorr g).q1 (accCorr g).q2 (accCorr g).q3) (toVec g) = up := by
  have hlit : (1.0 : ℝ) = 1 ∧ (2.0 : ℝ) = 2 ∧ (0.0 : ℝ) = 0 := by norm_num
  have heps : (0 : ℝ) < EPS := by
    show (0 : ℝ) < 0.000001
    norm_num
  have hsqrt : ∀ x : ℝ, TrigScalar.sqrt x = Real.sqrt x := fun _ => rfl
  rw [toVec, normSq_ofParts] at hg
  -- the direction is not straight down, so the half-angle cosine `w` is positive
  obtain ⟨w, hw⟩ : ∃ w, w = Real.sqrt ((g.z + 1) / 2) := ⟨_, rfl⟩
  rw [← hw] at h
  have hpos : 0 < w := heps.trans h
  have hsq : (2 : ℝ) * (w * w) = g.z + 1 := by
    have h0 : (0 : ℝ) < (g.z + 1) / 2 := Real.sqrt_pos.1 (hw ▸ hpos)
    rw [hw, Real.mul_self_sqrt h0.le]
    ring
  have hu : (2 : ℝ) * w * (0.5 / w) = 1 := by
    field_simp
    norm_num
  have hunit : g.x * g.x + g.y * g.y + g.z * g.z = 1 := by linear_combination hg
  have key := rotate_to_up hunit hsq hu
  have hcorr : accCorr g = #v[w, (0.5 : ℝ) * g.y / w, -(0.5 : ℝ) * g.x / w, 0] := by
    simp only [accCorr, literal_eq, hlit, hsqrt, ← hw, h, if_true]
  have hx : -(0.5 : ℝ) * g.x / w = -(g.x * (0.5 / w)) := by ring
  have hy : (0.5 : ℝ) * g.y / w = g.y * (0.5 / w) := by ring
  rw [hcorr, hx, hy]
  exact key

end Exact

/-! ### In radians -/

/-- In radians the offsets that the direction up survives are the whole turns. -/
theorem sin_yawHalf_radians (deg : ℝ) :
    letI := ExactAngles.radians
    ExactAngles.sin (yawHalf deg) = 0 ↔ ∃ n : ℤ, deg = 360 * n := by
  let := ExactAngles.radians
  have hhalf : yawHalf deg = deg / 360 * Real.pi := by
    show deg * Real.pi / 180.0 * 0.5 = deg / 360 * Real.pi
    norm_num
    ring
  show Real.sin (yawHalf deg) = 0 ↔ _
  rw [hhalf, Real.sin_eq_zero_iff]
  constructor
  · intro ⟨n, hn⟩
    have := mul_right_cancel₀ Real.pi_ne_zero hn
    exact ⟨n, by rw [this]; ring⟩
  · intro ⟨n, hn⟩
    exact ⟨n, by rw [hn]; ring⟩

/-- The estimate of a device that lies as the world does. -/
def UnitEstimate.level : UnitEstimate where
  wijk := #v[1, 0, 0, 0]
  unit := by simp [ofWijk, toQuat, normSq_ofParts]

/-- An offset of half a turn puts a level tracker upside down. -/
theorem half_turn_moves_up :
    letI := ExactAngles.radians
    rotate (star (toQuat (publishedPair .identity 180 UnitEstimate.level.wijk #v[0, 0, 1]).1)) up ≠
      rotate (star (toQuat (ofWijk UnitEstimate.level.wijk))) up := by
  let := ExactAngles.radians
  intro h
  have hdeg : (0.0001 : ℝ) < |180| := by norm_num
  obtain ⟨n, hn⟩ := (sin_yawHalf_radians 180).1 ((up_outgoingQuat_iff hdeg .level).1 h)
  have hn : (180 : ℤ) = 360 * n := by exact_mod_cast hn
  omega

/-- A level tracker at rest that is mounted upside down reports gravity downwards. -/
theorem upsideDown_moves_gravity :
    letI := ExactAngles.radians
    (rotate (toQuat (publishedPair .upsideDown 0 UnitEstimate.level.wijk #v[0, 1, 0]).1)
        (toVec (publishedPair .upsideDown 0 UnitEstimate.level.wijk #v[0, 1, 0]).2)).imK ≠
      (rotate (toQuat (ofWijk UnitEstimate.level.wijk)) (toVec (jslToVqf #v[0, 1, 0]))).imK := by
  let := ExactAngles.radians
  intro h
  have hlevel : rotate (toQuat (ofWijk UnitEstimate.level.wijk)) (toVec (jslToVqf #v[0, 1, 0])) = up := by
    ext <;> simp [UnitEstimate.level, ofWijk, toQuat, toVec, jslToVqf, rotate, up]
  have ha : (publishedPair .upsideDown 0 UnitEstimate.level.wijk #v[0, 1, 0]).2 = jslToVqf #v[0, 1, 0] := rfl
  rw [rotate_published, ha, hlevel, height_mounted_iff] at h
  have hhalf : (Real.pi * 0.5 : ℝ) = Real.pi / 2 := by ring
  have hs : ExactAngles.sin (TrigScalar.pi * 0.5) = 1 := by
    show Real.sin (Real.pi * 0.5) = 1
    rw [hhalf, Real.sin_pi_div_two]
  simp [MountingOrientation.KeepsHeight, MountingOrientation.axisAngle, up, hs] at h

end EverythingImu.Core
