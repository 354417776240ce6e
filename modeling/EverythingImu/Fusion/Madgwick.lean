import EverythingImu.Core.FilterImpl
import EverythingImu.Fusion.Inclination
import Mathlib.Analysis.Quaternion
import Mathlib.Analysis.SpecialFunctions.Trigonometric.Deriv

/-!
# The Madgwick filter

The gradient filter (`madgwick.rs`) over a scalar with roots.  The quaternion is in the order w, x, y, z.  Over the
exact reals the gradient of the acceleration vanishes where gravity is what the quaternion predicts, and never turns
about the vertical.  The horizontal component of the field in the gradient of the magnetometer is half of the one in
the gradient's formulas, so that at a consistent pose that gradient points along the quaternion; the normalization then
takes it out as long as the step does not go through zero (`consistent_pose_stays`).
-/

namespace EverythingImu.Fusion

open Quaternion

/-- What the filter uses besides the arithmetic. -/
class RootScalar (K : Type) extends Scalar K where
  sqrt : K → K
  isFinite : K → Bool

instance : RootScalar Float32 where
  sqrt := Float32.sqrt
  isFinite := Float32.isFinite

structure Madgwick (K : Type) where
  samplePeriod : K
  beta : K
  quat : Vector K 4

namespace Madgwick

section Code

variable {K : Type} [RootScalar K]

def withBeta (samplePeriod beta : K) : Madgwick K := ⟨samplePeriod, beta, #v[1.0, 0.0, 0.0, 0.0]⟩

def new (samplePeriod : K) : Madgwick K := withBeta samplePeriod 0.1

def reset (f : Madgwick K) : Madgwick K := { f with quat := #v[1.0, 0.0, 0.0, 0.0] }

def setSamplePeriod (f : Madgwick K) (samplePeriod : K) : Madgwick K := { f with samplePeriod }

def isZero (x : K) : Bool := x ≤ 0.0 ∧ 0.0 ≤ x

/-- A reading made a unit vector, unless it is zero or not finite. -/
def unitReading (v : Vector K 3) : Option (Vector K 3) :=
  let norm := RootScalar.sqrt (v.x * v.x + v.y * v.y + v.z * v.z)
  if ¬ RootScalar.isFinite norm ∨ isZero norm then none else some (v.map (· * (1.0 / norm)))

/-- The correction of `update_imu`. -/
def imuGradient (q : Vector K 4) (a : Vector K 3) : Vector K 4 :=
  let q1 := q.q0
  let q2 := q.q1
  let q3 := q.q2
  let q4 := q.q3
  #v[4.0 * q1 * (q3 * q3) + 2.0 * q3 * a.x + 4.0 * q1 * (q2 * q2) - 2.0 * q2 * a.y,
    4.0 * q2 * (q4 * q4) - 2.0 * q4 * a.x + 4.0 * (q1 * q1) * q2 - 2.0 * q1 * a.y - 4.0 * q2 + 8.0 * q2 * (q2 * q2)
      + 8.0 * q2 * (q3 * q3) + 4.0 * q2 * a.z,
    4.0 * (q1 * q1) * q3 + 2.0 * q1 * a.x + 4.0 * q3 * (q4 * q4) - 2.0 * q4 * a.y - 4.0 * q3 + 8.0 * q3 * (q2 * q2)
      + 8.0 * q3 * (q3 * q3) + 4.0 * q3 * a.z,
    4.0 * (q2 * q2) * q4 - 2.0 * q2 * a.x + 4.0 * (q3 * q3) * q4 - 2.0 * q3 * a.y]

/-- The field in the earth, `[hx, hy, _2bz]`. -/
def toEarth (q : Vector K 4) (m : Vector K 3) : Vector K 3 :=
  let q1 := q.q0
  let q2 := q.q1
  let q3 := q.q2
  let q4 := q.q3
  #v[m.x * (q1 * q1) - 2.0 * q1 * m.y * q4 + 2.0 * q1 * m.z * q3 + m.x * (q2 * q2) + 2.0 * q2 * m.y * q3
      + 2.0 * q2 * m.z * q4 - m.x * (q3 * q3) - m.x * (q4 * q4),
    2.0 * q1 * m.x * q4 + m.y * (q1 * q1) - 2.0 * q1 * m.z * q2 + 2.0 * q2 * m.x * q3 - m.y * (q2 * q2)
      + m.y * (q3 * q3) + 2.0 * q3 * m.z * q4 - m.y * (q4 * q4),
    -(2.0 * q1 * m.x) * q3 + 2.0 * q1 * m.y * q2 + m.z * (q1 * q1) + 2.0 * q2 * m.x * q4 - m.z * (q2 * q2)
      + 2.0 * q3 * m.y * q4 - m.z * (q3 * q3) + m.z * (q4 * q4)]

/-- The correction for a field in the earth with the components `_2bx` and `_2bz`. -/
def fieldGradient (q : Vector K 4) (a m : Vector K 3) (bx2 bz2 : K) : Vector K 4 :=
  let q1 := q.q0
  let q2 := q.q1
  let q3 := q.q2
  let q4 := q.q3
  let bx4 := 2.0 * bx2
  let bz4 := 2.0 * bz2
  let f1 := 2.0 * (q2 * q4) - 2.0 * q1 * q3 - a.x
  let f2 := 2.0 * (q1 * q2) + 2.0 * q3 * q4 - a.y
  let f3 := 1.0 - 2.0 * (q2 * q2) - 2.0 * (q3 * q3) - a.z
  let g1 := bx2 * (0.5 - q3 * q3 - q4 * q4) + bz2 * (q2 * q4 - q1 * q3) - m.x
  let g2 := bx2 * (q2 * q3 - q1 * q4) + bz2 * (q1 * q2 + q3 * q4) - m.y
  let g3 := bx2 * (q1 * q3 + q2 * q4) + bz2 * (0.5 - q2 * q2 - q3 * q3) - m.z
  #v[-(2.0 * q3) * f1 + 2.0 * q2 * f2 - bz2 * q3 * g1 + (-bx2 * q4 + bz2 * q2) * g2 + bx2 * q3 * g3,
    2.0 * q4 * f1 + 2.0 * q1 * f2 - 4.0 * q2 * f3 + bz2 * q4 * g1 + (bx2 * q3 + bz2 * q1) * g2
      + (bx2 * q4 - bz4 * q2) * g3,
    -(2.0 * q1) * f1 + 2.0 * q4 * f2 - 4.0 * q3 * f3 + (-bx4 * q3 - bz2 * q1) * g1 + (bx2 * q2 + bz2 * q4) * g2
      + (bx2 * q1 - bz4 * q3) * g3,
    2.0 * q2 * f1 + 2.0 * q3 * f2 + (-bx4 * q4 + bz2 * q2) * g1 + (-bx2 * q1 + bz2 * q3) * g2 + bx2 * q2 * g3]

/-- The correction of `update_marg`. -/
def margGradient (q : Vector K 4) (a m : Vector K 3) : Vector K 4 :=
  let h := toEarth q m
  fieldGradient q a m (RootScalar.sqrt (h.x * h.x + h.y * h.y)) h.z

/-- The derivative of the quaternion. -/
def quatDot (f : Madgwick K) (gyro : Vector K 3) (s : Vector K 4) : Vector K 4 :=
  let q1 := f.quat.q0
  let q2 := f.quat.q1
  let q3 := f.quat.q2
  let q4 := f.quat.q3
  #v[0.5 * (-q2 * gyro.x - q3 * gyro.y - q4 * gyro.z) - f.beta * s.q0,
    0.5 * (q1 * gyro.x + q3 * gyro.z - q4 * gyro.y) - f.beta * s.q1,
    0.5 * (q1 * gyro.y - q2 * gyro.z + q4 * gyro.x) - f.beta * s.q2,
    0.5 * (q1 * gyro.z + q2 * gyro.y - q3 * gyro.x) - f.beta * s.q3]

def quatNorm (q : Vector K 4) : K :=
  RootScalar.sqrt (q.q0 * q.q0 + q.q1 * q.q1 + q.q2 * q.q2 + q.q3 * q.q3)

/-- The end of both updates: a step along the normalized correction and the rotation. -/
def integrate (f : Madgwick K) (gyro : Vector K 3) (s : Vector K 4) : Madgwick K :=
  let inv := if isZero (quatNorm s) then 0.0 else 1.0 / quatNorm s
  let q := Vector.zipWith (fun q qDot => q + qDot * f.samplePeriod) f.quat (f.quatDot gyro (s.map (· * inv)))
  let qn := quatNorm q
  if isZero qn then f else { f with quat := q.map (· * (1.0 / qn)) }

def updateImu (f : Madgwick K) (gyro acc : Vector K 3) : Madgwick K :=
  (unitReading acc).elim f fun a => f.integrate gyro (imuGradient f.quat a)

def updateMarg (f : Madgwick K) (gyro acc mag : Vector K 3) : Madgwick K :=
  (unitReading acc).elim f fun a =>
    (unitReading mag).elim f fun m => f.integrate gyro (margGradient f.quat a m)

end Code

/-! ### Exact numbers -/

noncomputable instance rootScalarReal : RootScalar ℝ where
  sqrt := Real.sqrt
  isFinite _ := true

section Exact

theorem imuGradient_exact (q : Vector ℝ 4) (a : Vector ℝ 3) :
    imuGradient q a =
      #v[4 * q.q0 * (q.q2 * q.q2) + 2 * q.q2 * a.x + 4 * q.q0 * (q.q1 * q.q1) - 2 * q.q1 * a.y,
        4 * q.q1 * (q.q3 * q.q3) - 2 * q.q3 * a.x + 4 * (q.q0 * q.q0) * q.q1 - 2 * q.q0 * a.y - 4 * q.q1
          + 8 * q.q1 * (q.q1 * q.q1) + 8 * q.q1 * (q.q2 * q.q2) + 4 * q.q1 * a.z,
        4 * (q.q0 * q.q0) * q.q2 + 2 * q.q0 * a.x + 4 * q.q2 * (q.q3 * q.q3) - 2 * q.q3 * a.y - 4 * q.q2
          + 8 * q.q2 * (q.q1 * q.q1) + 8 * q.q2 * (q.q2 * q.q2) + 4 * q.q2 * a.z,
        4 * (q.q1 * q.q1) * q.q3 - 2 * q.q1 * a.x + 4 * (q.q2 * q.q2) * q.q3 - 2 * q.q2 * a.y] := by
  have htwo : (2.0 : ℝ) = 2 := by norm_num
  have hfour : (4.0 : ℝ) = 4 := by norm_num
  have height : (8.0 : ℝ) = 8 := by norm_num
  unfold imuGradient
  rw [htwo, hfour, height]

/-- The product of two quaternions as vectors of four numbers. -/
def dot (s t : Vector ℝ 4) : ℝ := s.q0 * t.q0 + s.q1 * t.q1 + s.q2 * t.q2 + s.q3 * t.q3

/-- The direction in which a rotation about the vertical of the earth moves the quaternion. -/
def verticalTurn (q : Vector ℝ 4) : Vector ℝ 4 := #v[-q.q3, -q.q2, q.q1, q.q0]

theorem quatOf_verticalTurn (q : Vector ℝ 4) : quatOf (verticalTurn q) = up * quatOf q := by
  ext <;> simp [quatOf, verticalTurn, up]

/-- It is twice the derivative of the quaternion by the angle that it is turned by. -/
theorem hasDerivAt_turn (q : Vector ℝ 4) :
    HasDerivAt (fun angle : ℝ => ofParts (Real.cos (angle / 2)) 0 0 (Real.sin (angle / 2)) * quatOf q)
      ((1 / 2 : ℝ) • quatOf (verticalTurn q)) 0 := by
  have hturn : (fun angle : ℝ => ofParts (Real.cos (angle / 2)) 0 0 (Real.sin (angle / 2)) * quatOf q)
      = fun angle => Real.cos (angle / 2) • quatOf q + Real.sin (angle / 2) • quatOf (verticalTurn q) := by
    funext angle
    rw [quatOf_verticalTurn, ← smul_mul_assoc, Algebra.smul_def, ← add_mul]
    congr 1
    ext <;> simp [up]
  have hhalf : HasDerivAt (fun angle : ℝ => angle / 2) (1 / 2) 0 := (hasDerivAt_id 0).div_const 2
  have hcos := hhalf.cos.smul_const (quatOf q)
  have hsin := hhalf.sin.smul_const (quatOf (verticalTurn q))
  have hvalue : (-Real.sin (0 / 2) * (1 / 2)) • quatOf q + (Real.cos (0 / 2) * (1 / 2)) • quatOf (verticalTurn q)
      = (1 / 2 : ℝ) • quatOf (verticalTurn q) := by simp
  rw [hturn, ← hvalue]
  exact hcos.add hsin

/-- The correction does not turn about the vertical. -/
theorem dot_imuGradient_verticalTurn (q : Vector ℝ 4) (a : Vector ℝ 3) :
    dot (imuGradient q a) (verticalTurn q) = 0 := by
  rw [imuGradient_exact]
  simp only [dot, verticalTurn, Vector.q0, Vector.q1, Vector.q2, Vector.q3, Vector.getElem_mk, List.getElem_toArray,
    List.getElem_cons_zero, List.getElem_cons_succ]
  ring

/-- What a device with the orientation `q` measures of a vector of the earth. -/
def predicted (q : Vector ℝ 4) (v : Vector ℝ 3) : Vector ℝ 3 :=
  let r := rotate (star (quatOf q)) (Core.toVec v)
  #v[r.imI, r.imJ, r.imK]

theorem predicted_eq (q : Vector ℝ 4) (bx bz : ℝ) :
    predicted q #v[bx, 0, bz] =
      #v[bx * (q.q0 * q.q0 + q.q1 * q.q1 - q.q2 * q.q2 - q.q3 * q.q3) + 2 * bz * (q.q1 * q.q3 - q.q0 * q.q2),
        2 * bx * (q.q1 * q.q2 - q.q0 * q.q3) + 2 * bz * (q.q0 * q.q1 + q.q2 * q.q3),
        2 * bx * (q.q0 * q.q2 + q.q1 * q.q3) + bz * (q.q0 * q.q0 - q.q1 * q.q1 - q.q2 * q.q2 + q.q3 * q.q3)] := by
  ext i hi
  rcases i with _ | _ | _ | i
  · simp [predicted, rotate, quatOf, Core.toVec]
    ring
  · simp [predicted, rotate, quatOf, Core.toVec]
    ring
  · simp [predicted, rotate, quatOf, Core.toVec]
    ring
  · omega

variable {q : Vector ℝ 4}

theorem toVec_predicted (q : Vector ℝ 4) (v : Vector ℝ 3) :
    Core.toVec (predicted q v) = rotate (star (quatOf q)) (Core.toVec v) := by
  ext
  · simp [Core.toVec, rotate, quatOf]
    ring
  · rfl
  · rfl
  · rfl

theorem toVec_toEarth (q : Vector ℝ 4) (m : Vector ℝ 3) :
    Core.toVec (toEarth q m) = rotate (quatOf q) (Core.toVec m) := by
  have htwo : (2.0 : ℝ) = 2 := by norm_num
  unfold toEarth
  rw [htwo]
  ext <;> simp [Core.toVec, rotate, quatOf] <;> ring

theorem toEarth_predicted (hq : normSq (quatOf q) = 1) (v : Vector ℝ 3) : toEarth q (predicted q v) = v := by
  apply toVec_injective
  rw [toVec_toEarth, toVec_predicted, rotate_rotate_star hq]

theorem normSq_predicted (hq : normSq (quatOf q) = 1) (v : Vector ℝ 3) :
    normSq (Core.toVec (predicted q v)) = normSq (Core.toVec v) := by
  rw [toVec_predicted, normSq_rotate (by rw [normSq_star, hq])]

theorem predicted_map (q : Vector ℝ 4) (k : ℝ) (v : Vector ℝ 3) :
    predicted q (v.map (k * ·)) = (predicted q v).map (k * ·) := by
  have hscale : ∀ w : Vector ℝ 3, Core.toVec (w.map (k * ·)) = k • Core.toVec w := by
    intro w
    ext <;> simp [Core.toVec]
  apply toVec_injective
  rw [toVec_predicted, hscale, hscale, rotate_smul, toVec_predicted]

/-- With the acceleration that `q` predicts there is nothing to correct. -/
theorem imuGradient_predicted (hq : normSq (quatOf q) = 1) :
    imuGradient q (predicted q #v[0, 0, 1]) = .replicate 4 0 := by
  rw [normSq_quatOf] at hq
  rw [imuGradient_exact, predicted_eq]
  ext i hi
  rcases i with _ | _ | _ | _ | i
  · simp only [Vector.getElem_replicate, Vector.x, Vector.y, Vector.z, Vector.getElem_mk, List.getElem_toArray,
      List.getElem_cons_zero, List.getElem_cons_succ]
    ring
  · simp only [Vector.getElem_replicate, Vector.x, Vector.y, Vector.z, Vector.getElem_mk, List.getElem_toArray,
      List.getElem_cons_zero, List.getElem_cons_succ]
    linear_combination (4 * q.q1) * hq
  · simp only [Vector.getElem_replicate, Vector.x, Vector.y, Vector.z, Vector.getElem_mk, List.getElem_toArray,
      List.getElem_cons_zero, List.getElem_cons_succ]
    linear_combination (4 * q.q2) * hq
  · simp only [Vector.getElem_replicate, Vector.x, Vector.y, Vector.z, Vector.getElem_mk, List.getElem_toArray,
      List.getElem_cons_zero, List.getElem_cons_succ]
    ring
  · omega

/-- How far a field with the components `bx` and `bz` is from where `q` would leave it. -/
def spread (q : Vector ℝ 4) (bx bz : ℝ) : ℝ :=
  (bx * q.q3 - bz * q.q1) * (bx * q.q3 - bz * q.q1) + (bx * bx + bz * bz) * (q.q2 * q.q2)

theorem spread_nonneg (q : Vector ℝ 4) (bx bz : ℝ) : 0 ≤ spread q bx bz :=
  add_nonneg (mul_self_nonneg _)
    (mul_nonneg (add_nonneg (mul_self_nonneg _) (mul_self_nonneg _)) (mul_self_nonneg _))

/-- With the readings that `q` predicts the correction points along `q`. -/
theorem fieldGradient_predicted (hq : normSq (quatOf q) = 1) (bx bz : ℝ) :
    fieldGradient q (predicted q #v[0, 0, 1]) (predicted q #v[bx, 0, bz]) bx bz
      = q.map (-spread q bx bz * ·) := by
  have hhalf : (0.5 : ℝ) = 1 / 2 := by norm_num
  have hone : (1.0 : ℝ) = 1 := by norm_num
  have htwo : (2.0 : ℝ) = 2 := by norm_num
  have hfour : (4.0 : ℝ) = 4 := by norm_num
  rw [normSq_quatOf] at hq
  unfold fieldGradient
  rw [predicted_eq, predicted_eq, hhalf, hone, htwo, hfour]
  ext i hi
  rcases i with _ | _ | _ | _ | i
  · simp only [spread, Vector.getElem_map, Vector.x, Vector.y, Vector.z, Vector.getElem_mk, List.getElem_toArray,
      List.getElem_cons_zero, List.getElem_cons_succ]
    ring
  · simp only [spread, Vector.getElem_map, Vector.x, Vector.y, Vector.z, Vector.getElem_mk, List.getElem_toArray,
      List.getElem_cons_zero, List.getElem_cons_succ]
    linear_combination (4 * q.q1 + bz * bz * q.q1 - bx * bz * q.q3) * hq
  · simp only [spread, Vector.getElem_map, Vector.x, Vector.y, Vector.z, Vector.getElem_mk, List.getElem_toArray,
      List.getElem_cons_zero, List.getElem_cons_succ]
    linear_combination (q.q2 * (4 + bx * bx + bz * bz)) * hq
  · simp only [spread, Vector.getElem_map, Vector.x, Vector.y, Vector.z, Vector.getElem_mk, List.getElem_toArray,
      List.getElem_cons_zero, List.getElem_cons_succ]
    linear_combination (bx * bx * q.q3 - bx * bz * q.q1) * hq
  · omega

theorem margGradient_predicted (hq : normSq (quatOf q) = 1) {bx : ℝ} (hbx : 0 ≤ bx) (bz : ℝ) :
    margGradient q (predicted q #v[0, 0, 1]) (predicted q #v[bx, 0, bz]) = q.map (-spread q bx bz * ·) := by
  have hroot : RootScalar.sqrt ((#v[bx, 0, bz] : Vector ℝ 3).x * (#v[bx, 0, bz] : Vector ℝ 3).x
      + (#v[bx, 0, bz] : Vector ℝ 3).y * (#v[bx, 0, bz] : Vector ℝ 3).y) = bx := by
    show Real.sqrt (bx * bx + 0 * 0) = bx
    rw [mul_zero, add_zero, Real.sqrt_mul_self hbx]
  rw [margGradient, toEarth_predicted hq, hroot]
  exact fieldGradient_predicted hq bx bz

/-! ### Readings -/

theorem isZero_iff (x : ℝ) : isZero x = true ↔ x = 0 := by
  have hzero : (0.0 : ℝ) = 0 := by norm_num
  rw [isZero, decide_eq_true_iff, hzero, le_antisymm_iff]

/-- The length of a reading does not matter. -/
theorem unitReading_map {v : Vector ℝ 3} (hv : normSq (Core.toVec v) = 1) {c : ℝ} (hc : 0 < c) :
    unitReading (v.map (c * ·)) = some v := by
  have hone : (1.0 : ℝ) = 1 := by norm_num
  rw [Core.toVec, normSq_ofParts] at hv
  have hnorm : RootScalar.sqrt ((v.map (c * ·)).x * (v.map (c * ·)).x + (v.map (c * ·)).y * (v.map (c * ·)).y
      + (v.map (c * ·)).z * (v.map (c * ·)).z) = c := by
    have hsq : (v.map (c * ·)).x * (v.map (c * ·)).x + (v.map (c * ·)).y * (v.map (c * ·)).y
        + (v.map (c * ·)).z * (v.map (c * ·)).z = c * c := by
      simp only [Vector.x, Vector.y, Vector.z, Vector.getElem_map] at hv ⊢
      linear_combination c * c * hv
    rw [hsq]
    exact Real.sqrt_mul_self hc.le
  unfold unitReading
  rw [hnorm, hone, if_neg]
  · congr 1
    ext i hi
    rw [Vector.getElem_map, Vector.getElem_map]
    field_simp
  · rintro (hinf | hzero)
    · exact hinf rfl
    · exact hc.ne' ((isZero_iff c).1 hzero)

theorem unitReading_zero : unitReading (.replicate 3 (0 : ℝ)) = none := by
  unfold unitReading
  refine if_pos (.inr ((isZero_iff _).2 ?_))
  show Real.sqrt (0 * 0 + 0 * 0 + 0 * 0) = 0
  norm_num

/-! ### The step -/

theorem quatNorm_map (hq : normSq (quatOf q) = 1) (k : ℝ) : quatNorm (q.map (k * ·)) = |k| := by
  have hsq : (q.map (k * ·)).q0 * (q.map (k * ·)).q0 + (q.map (k * ·)).q1 * (q.map (k * ·)).q1
      + (q.map (k * ·)).q2 * (q.map (k * ·)).q2 + (q.map (k * ·)).q3 * (q.map (k * ·)).q3 = k * k := by
    rw [normSq_quatOf] at hq
    simp only [Vector.q0, Vector.q1, Vector.q2, Vector.q3, Vector.getElem_map] at hq ⊢
    linear_combination k * k * hq
  unfold quatNorm
  rw [hsq]
  exact Real.sqrt_mul_self_eq_abs k

/-- Without a rotation, a normalized correction along the quaternion only scales it. -/
theorem quatDot_radial (f : Madgwick ℝ) (e : ℝ) :
    Vector.zipWith (fun q qDot => q + qDot * f.samplePeriod) f.quat
        (f.quatDot (.replicate 3 0) (f.quat.map (e * ·)))
      = f.quat.map ((1 - e * (f.beta * f.samplePeriod)) * ·) := by
  have hhalf : (0.5 : ℝ) = 1 / 2 := by norm_num
  unfold quatDot
  rw [hhalf]
  ext i hi
  rcases i with _ | _ | _ | _ | i
  · simp
    ring
  · simp
    ring
  · simp
    ring
  · simp
    ring
  · omega

/-- The correction along the quaternion is normalized to its direction. -/
theorem normalized_radial (hq : normSq (quatOf q) = 1) (k : ℝ) :
    (q.map (k * ·)).map (· * (if isZero (quatNorm (q.map (k * ·))) then 0.0 else 1.0 / quatNorm (q.map (k * ·))))
      = q.map ((k / |k|) * ·) := by
  have hzero : (0.0 : ℝ) = 0 := by norm_num
  have hone : (1.0 : ℝ) = 1 := by norm_num
  rw [quatNorm_map hq, hzero, hone]
  ext i hi
  rw [Vector.getElem_map, Vector.getElem_map, Vector.getElem_map]
  split
  · rename_i hk
    rw [abs_eq_zero.1 ((isZero_iff _).1 hk)]
    simp
  · ring

theorem integrate_radial (f : Madgwick ℝ) (hq : normSq (quatOf f.quat) = 1) (k : ℝ) :
    let r := 1 - k / |k| * (f.beta * f.samplePeriod)
    f.integrate (.replicate 3 0) (f.quat.map (k * ·)) =
      if r = 0 then f else { f with quat := f.quat.map ((r / |r|) * ·) } := by
  intro r
  have hone : (1.0 : ℝ) = 1 := by norm_num
  unfold integrate
  dsimp only
  rw [normalized_radial hq, quatDot_radial, quatNorm_map hq, hone]
  by_cases hr : r = 0
  · rw [if_pos hr, if_pos ((isZero_iff _).2 (abs_eq_zero.2 hr))]
  · rw [if_neg hr, if_neg (mt (isZero_iff _).1 (mt abs_eq_zero.1 hr))]
    congr 1
    ext i hi
    rw [Vector.getElem_map, Vector.getElem_map, Vector.getElem_map]
    ring

/-- A correction against the quaternion scales it, and the normalization takes that out. -/
theorem integrate_radial_eq (f : Madgwick ℝ) (hq : normSq (quatOf f.quat) = 1) {k : ℝ} (hk : k ≤ 0)
    (hstep : k = 0 ∨ -1 ≤ f.beta * f.samplePeriod) :
    f.integrate (.replicate 3 0) (f.quat.map (k * ·)) = f := by
  obtain ⟨r, hr⟩ : ∃ r, r = 1 - k / |k| * (f.beta * f.samplePeriod) := ⟨_, rfl⟩
  have hnonneg : 0 ≤ r := by
    rcases hk.lt_or_eq with hneg | rfl
    · have hsign : k / |k| = -1 := by
        rw [abs_of_neg hneg, div_neg, div_self hneg.ne]
      have hbound := hstep.resolve_left hneg.ne
      rw [hr, hsign]
      linarith
    · rw [hr]
      simp
  have hintegrate := integrate_radial f hq k
  dsimp only at hintegrate
  rw [hintegrate, ← hr]
  split
  · rfl
  · rename_i hne
    have hone : r / |r| = 1 := by rw [abs_of_nonneg hnonneg, div_self hne]
    rw [hone]
    congr 1
    ext i hi
    simp

/-! ### A consistent pose -/

/-- The update with the readings that the quaternion predicts, whatever their lengths are. -/
theorem updateMarg_predicted (f : Madgwick ℝ) (hq : normSq (quatOf f.quat) = 1) {bx : ℝ} (hbx : 0 ≤ bx) (bz : ℝ)
    (hb : bx * bx + bz * bz = 1) {c d : ℝ} (hc : 0 < c) (hd : 0 < d) :
    f.updateMarg (.replicate 3 0) ((predicted f.quat #v[0, 0, 1]).map (c * ·))
        ((predicted f.quat #v[bx, 0, bz]).map (d * ·))
      = f.integrate (.replicate 3 0) (f.quat.map (-spread f.quat bx bz * ·)) := by
  have hgravity : normSq (Core.toVec (predicted f.quat #v[0, 0, 1])) = 1 := by
    rw [normSq_predicted hq, Core.toVec, normSq_ofParts]
    simp
  have hfield : normSq (Core.toVec (predicted f.quat #v[bx, 0, bz])) = 1 := by
    rw [normSq_predicted hq, Core.toVec, normSq_ofParts]
    simpa using hb
  rw [updateMarg, unitReading_map hgravity hc, Option.elim_some, unitReading_map hfield hd, Option.elim_some,
    margGradient_predicted hq hbx]

/-- A field is a multiple of the one in its direction. -/
theorem predicted_map_div {n : ℝ} (hpos : 0 < n) (q : Vector ℝ 4) (d bx bz : ℝ) :
    (predicted q #v[bx, 0, bz]).map (d * ·) = (predicted q #v[bx / n, 0, bz / n]).map (d * n * ·) := by
  have hvector : (#v[bx, 0, bz] : Vector ℝ 3) = #v[bx / n, 0, bz / n].map (n * ·) := by
    have hx : n * (bx / n) = bx := mul_div_cancel₀ _ hpos.ne'
    have hz : n * (bz / n) = bz := mul_div_cancel₀ _ hpos.ne'
    simp [hx, hz]
  rw [hvector, predicted_map]
  ext i hi
  rw [Vector.getElem_map, Vector.getElem_map, Vector.getElem_map, mul_assoc]

theorem predicted_zero_map (q : Vector ℝ 4) (d : ℝ) : (predicted q #v[0, 0, 0]).map (d * ·) = .replicate 3 0 := by
  rw [predicted_eq]
  ext i hi
  rcases i with _ | _ | _ | i
  · simp
  · simp
  · simp
  · omega

theorem normSq_predicted_gravity {q : Vector ℝ 4} (hq : normSq (quatOf q) = 1) :
    normSq (Core.toVec (predicted q #v[0, 0, 1])) = 1 := by
  rw [normSq_predicted hq, Core.toVec, normSq_ofParts]
  simp

theorem updateImu_consistent (f : Madgwick ℝ) (hq : normSq (quatOf f.quat) = 1) {c : ℝ} (hc : 0 < c) :
    f.updateImu (.replicate 3 0) ((predicted f.quat #v[0, 0, 1]).map (c * ·)) = f := by
  have hnone : Vector.replicate 4 (0 : ℝ) = f.quat.map (0 * ·) := by
    ext i hi
    simp
  rw [updateImu, unitReading_map (normSq_predicted_gravity hq) hc, Option.elim_some, imuGradient_predicted hq, hnone]
  exact integrate_radial_eq f hq le_rfl (.inl rfl)

theorem updateMarg_consistent (f : Madgwick ℝ) (hq : normSq (quatOf f.quat) = 1)
    (hstep : -1 ≤ f.beta * f.samplePeriod) {c d bx : ℝ} (bz : ℝ) (hc : 0 < c) (hd : 0 < d) (hbx : 0 ≤ bx) :
    f.updateMarg (.replicate 3 0) ((predicted f.quat #v[0, 0, 1]).map (c * ·))
      ((predicted f.quat #v[bx, 0, bz]).map (d * ·)) = f := by
  obtain ⟨n, hn⟩ : ∃ n, n = Real.sqrt (bx * bx + bz * bz) := ⟨_, rfl⟩
  have hsum : 0 ≤ bx * bx + bz * bz := add_nonneg (mul_self_nonneg _) (mul_self_nonneg _)
  have hsq : n * n = bx * bx + bz * bz := by rw [hn, Real.mul_self_sqrt hsum]
  rcases (hn ▸ Real.sqrt_nonneg _ : 0 ≤ n).lt_or_eq with hpos | hzero
  · have hunit : bx / n * (bx / n) + bz / n * (bz / n) = 1 := by
      field_simp
      linear_combination -hsq
    rw [predicted_map_div hpos f.quat d bx bz,
      updateMarg_predicted f hq (div_nonneg hbx hpos.le) _ hunit hc (mul_pos hd hpos)]
    exact integrate_radial_eq f hq (neg_nonpos.2 (spread_nonneg _ _ _)) (.inr hstep)
  · -- there is no field, and the update stops at the reading
    rw [← hzero, mul_zero] at hsq
    obtain ⟨rfl, rfl⟩ := mul_self_add_mul_self_eq_zero.1 hsq.symm
    rw [updateMarg, unitReading_map (normSq_predicted_gravity hq) hc, Option.elim_some, predicted_zero_map,
      unitReading_zero, Option.elim_none]

/-- At a pose that agrees with its readings the filter stays: with the acceleration in any case, with the magnetometer
when the step is not further back than through zero.  For no acceleration the correction turns about the vertical. -/
theorem consistent_pose_stays (f : Madgwick ℝ) (hq : normSq (quatOf f.quat) = 1) :
    (∀ c, 0 < c → f.updateImu (.replicate 3 0) ((predicted f.quat #v[0, 0, 1]).map (c * ·)) = f) ∧
      (-1 ≤ f.beta * f.samplePeriod → ∀ c d bx bz, 0 < c → 0 < d → 0 ≤ bx →
        f.updateMarg (.replicate 3 0) ((predicted f.quat #v[0, 0, 1]).map (c * ·))
          ((predicted f.quat #v[bx, 0, bz]).map (d * ·)) = f) ∧
      ∀ a, dot (imuGradient f.quat a) (verticalTurn f.quat) = 0 := by
  refine ⟨?_, ?_, dot_imuGradient_verticalTurn f.quat⟩
  · intro c hc
    exact updateImu_consistent f hq hc
  · intro hstep c d bx bz hc hd hbx
    exact updateMarg_consistent f hq hstep bz hc hd hbx

/-- A filter that lies upside down. -/
noncomputable def overturned (beta : ℝ) : Madgwick ℝ := ⟨1, beta, #v[0, 1, 0, 0]⟩

theorem normSq_overturned (beta : ℝ) : normSq (quatOf (overturned beta).quat) = 1 := by
  rw [normSq_quatOf]
  simp [overturned]

/-- It stays upside down in a field that points up. -/
theorem overturned_stays :
    (overturned 0.5).updateMarg (.replicate 3 0) ((predicted #v[0, 1, 0, 0] #v[0, 0, 1]).map ((9.81 : ℝ) * ·))
      ((predicted #v[0, 1, 0, 0] #v[0, 0, 1]).map ((50 : ℝ) * ·)) = overturned 0.5 := by
  refine (consistent_pose_stays (overturned 0.5) (normSq_overturned _)).2.1 ?_ 9.81 50 0 1 ?_ ?_ le_rfl
  · show (-1 : ℝ) ≤ 0.5 * 1
    norm_num
  · norm_num
  · norm_num

/-- With a gain of -2 the update turns the sign of the quaternion. -/
theorem negative_gain_flips :
    normSq (quatOf (overturned (-2)).quat) = 1 ∧ (overturned (-2)).beta * (overturned (-2)).samplePeriod < 1 ∧
      (overturned (-2)).updateMarg (.replicate 3 0) ((predicted (overturned (-2)).quat #v[0, 0, 1]).map (1 * ·))
        ((predicted (overturned (-2)).quat #v[0, 0, 1]).map (1 * ·)) ≠ overturned (-2) := by
  have hunit := normSq_overturned (-2)
  refine ⟨hunit, ?_, ?_⟩
  · show (-2 : ℝ) * 1 < 1
    norm_num
  · have hspread : spread (overturned (-2)).quat 0 1 = 1 := by simp [spread, overturned]
    have hupdate := updateMarg_predicted (overturned (-2)) hunit (le_refl 0) 1 (by norm_num) one_pos one_pos
    have hintegrate := integrate_radial (overturned (-2)) hunit (-1)
    have hr : 1 - (-1 : ℝ) / |(-1 : ℝ)| * ((overturned (-2)).beta * (overturned (-2)).samplePeriod) = -1 := by
      show 1 - (-1 : ℝ) / |(-1 : ℝ)| * (-2 * 1) = -1
      norm_num
    dsimp only at hintegrate
    rw [hr, if_neg (by norm_num)] at hintegrate
    rw [hupdate, hspread, hintegrate]
    intro heq
    have hx : ((overturned (-2)).quat.map (-1 / |(-1 : ℝ)| * ·))[1] = (overturned (-2)).quat[1] :=
      congrArg (fun f : Madgwick ℝ => f.quat.q1) heq
    rw [Vector.getElem_map] at hx
    norm_num [overturned] at hx

end Exact

instance madgwickFilter : Core.MadgwickFilter (Madgwick Float32) where
  new := Madgwick.new
  updateImu := Madgwick.updateImu
  updateMarg := Madgwick.updateMarg
  quaternion := Madgwick.quat
  setSamplePeriod := Madgwick.setSamplePeriod

end Madgwick

end EverythingImu.Fusion
