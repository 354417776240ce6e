import EverythingImu.Core.Orientation
import EverythingImu.Library.FloatCast
import EverythingImu.Library.LeastSquares

/-!
# The sphere fit

The algebraic sphere fit of the magnetometer calibration (`imu-math/src/mag_cal.rs`).  A sphere
`x² + y² + z² = 2a·x + 2b·y + 2c·z + d` is linear in `a`, `b`, `c` and `d`, so each point is a linear equation and the
fit solves the normal equations.  The solver `lu().solve` is a parameter.  Points and results have the short number
type `K`, the sums the long one `L`.

Over exact numbers the normal equations of points on a sphere have its centre as their only solution, as long as their
matrix is invertible, in any order of the points (`fitSphere_exact`).
-/

namespace EverythingImu.ImuMath

/-- The operations of a computation in two precisions. -/
structure TwoPrecisions (K L : Type) where
  widen : K → L
  narrow : L → K
  ofLen : Nat → L
  sqrt : L → L
  sqrtShort : K → K
  isFinite : L → Bool

open FloatCast in
/-- `f32` and `f64`. -/
def ieee : TwoPrecisions Float32 Float := ⟨asF64, asF32, lenAsF64, Float.sqrt, Float32.sqrt, Float.isFinite⟩

/-- Exact numbers, with the roots that `root` gives. -/
def exact (root : ℚ → ℚ) : TwoPrecisions ℚ ℚ := ⟨id, id, Nat.cast, root, root, fun _ => true⟩

structure SphereFit (K : Type) where
  center : Vector K 3
  radius : K
  residual : K

/-- A calibration as the fit gives it. -/
structure FittedCalibration (K : Type) where
  offset : Vector K 3
  fieldStrengthUt : K
  residual : K
  coverage : K

def COVERAGE_BINS : Nat := 26
def MIN_FIT_SAMPLES : Nat := 12

section Fit

variable {K L : Type} [Scalar K] [Scalar L] (num : TwoPrecisions K L)

/-- The sums `AᵀA` and `Aᵀf`. -/
structure NormalEquations (L : Type) where
  ata : Vector (Vector L 4) 4
  atf : Vector L 4

def NormalEquations.zero : NormalEquations L := ⟨.replicate 4 (.replicate 4 0.0), .replicate 4 0.0⟩

/-- The row `[2x, 2y, 2z, 1]` of a point. -/
def rowOf (p : Vector K 3) : Vector L 4 :=
  #v[(2.0 : L) * num.widen p.x, (2.0 : L) * num.widen p.y, (2.0 : L) * num.widen p.z, 1.0]

/-- The value `x² + y² + z²` of a point. -/
def valueOf (p : Vector K 3) : L :=
  num.widen p.x * num.widen p.x + num.widen p.y * num.widen p.y + num.widen p.z * num.widen p.z

def NormalEquations.add (sums : NormalEquations L) (p : Vector K 3) : NormalEquations L :=
  let row := rowOf num p
  let f := valueOf num p
  { ata := .ofFn fun i => .ofFn fun j => (sums.ata.get i).get j + row.get i * row.get j
    atf := .ofFn fun i => sums.atf.get i + row.get i * f }

def normalEquations (points : List (Vector K 3)) : NormalEquations L := points.foldl (NormalEquations.add num) .zero

/-- The square of the deviation of a point from the sphere. -/
def deviationSq (a b c radius : L) (p : Vector K 3) : L :=
  let dx := num.widen p.x - a
  let dy := num.widen p.y - b
  let dz := num.widen p.z - c
  let dist := num.sqrt (dx * dx + dy * dy + dz * dz)
  (dist - radius) * (dist - radius)

/-- The root of the mean of these squares. -/
def rmsDeviation (points : List (Vector K 3)) (a b c radius : L) : L :=
  num.sqrt (points.foldl (fun sum p => sum + deviationSq num a b c radius p) (0.0 : L) / num.ofLen points.length)

/-- `lu().solve`, which gives nothing for a singular matrix. -/
abbrev LuSolve (L : Type) := Vector (Vector L 4) 4 → Vector L 4 → Option (Vector L 4)

variable (luSolve : LuSolve L)

/-- The sphere of a solution, if its squared radius is a positive number. -/
def sphereOf (points : List (Vector K 3)) (params : Vector L 4) : Option (SphereFit K) :=
  let a := params.q0
  let b := params.q1
  let c := params.q2
  let rSq := params.q3 + a * a + b * b + c * c
  if num.isFinite rSq ∧ (0.0 : L) < rSq then
    let radius := num.sqrt rSq
    some ⟨#v[num.narrow a, num.narrow b, num.narrow c], num.narrow radius,
      num.narrow (rmsDeviation num points a b c radius)⟩
  else none

def fitSphere (points : List (Vector K 3)) : Option (SphereFit K) :=
  if points.length < MIN_FIT_SAMPLES then none
  else
    let sums := normalEquations num points
    (luSolve sums.ata sums.atf).bind (sphereOf num points)

def axisBin (v : K) : Nat := if v < -(1.0 : K) / 3.0 then 0 else if v < (1.0 : K) / 3.0 then 1 else 2

/-- `f32::EPSILON`. -/
def F32_EPSILON : K := 0.00000011920928955078125

/-- The direction bin of a point, unless it is the centre. -/
def cellOf (center p : Vector K 3) : Option Nat :=
  let dx := p.x - center.x
  let dy := p.y - center.y
  let dz := p.z - center.z
  let norm := num.sqrtShort (dx * dx + dy * dy + dz * dz)
  if norm < F32_EPSILON then none
  else some (axisBin (dx / norm) * 9 + axisBin (dy / norm) * 3 + axisBin (dz / norm))

/-- The bins that the points touch; the bin of the centre is never counted. -/
def touchedBins (points : List (Vector K 3)) (center : Vector K 3) : Nat :=
  let seen := points.filterMap (cellOf num center)
  ((List.range 27).filter fun i => i ≠ 13 && seen.contains i).length

def coverage (points : List (Vector K 3)) (center : Vector K 3) : K :=
  (touchedBins num points center : K) / (COVERAGE_BINS : K)

def calibrate (points : List (Vector K 3)) : Option (FittedCalibration K) :=
  (fitSphere num luSolve points).map fun fit =>
    { offset := fit.center
      fieldStrengthUt := fit.radius
      residual := fit.residual
      coverage := coverage num points fit.center }

end Fit

/-! ### Exact points on a sphere -/

section Exact

open LeastSquares Matrix

variable (root : ℚ → ℚ)

def toMatrix (m : Vector (Vector ℚ 4) 4) : Matrix (Fin 4) (Fin 4) ℚ := of fun i j => (m.get i).get j

theorem get_injective {α : Type} {n : Nat} : Function.Injective (Vector.get : Vector α n → Fin n → α) := by
  intro v w h
  ext i hi
  exact congrFun h ⟨i, hi⟩

theorem toMatrix_injective : Function.Injective toMatrix := by
  intro m m' h
  refine get_injective (funext fun i => get_injective (funext fun j => ?_))
  exact congrFun (congrFun h i) j

/-- The linear equation of a point. -/
def equationOf (p : Vector ℚ 3) : Equation (Fin 4) ℚ := ((rowOf (exact root) p).get, valueOf (exact root) p)

theorem normalEquations_eq (points : List (Vector ℚ 3)) :
    toMatrix (normalEquations (exact root) points).ata = normalMatrix (points.map (equationOf root)) ∧
      (normalEquations (exact root) points).atf.get = normalRhs (points.map (equationOf root)) := by
  have hfold : ∀ sums : NormalEquations ℚ,
      toMatrix (points.foldl (NormalEquations.add (exact root)) sums).ata
        = toMatrix sums.ata + normalMatrix (points.map (equationOf root)) ∧
      (points.foldl (NormalEquations.add (exact root)) sums).atf.get
        = sums.atf.get + normalRhs (points.map (equationOf root)) := by
    induction points with
    | nil => intro sums; simp [normalMatrix, normalRhs]
    | cons p points ih =>
      intro sums
      obtain ⟨hata, hatf⟩ := ih (sums.add (exact root) p)
      rw [List.foldl_cons, hata, hatf, List.map_cons, normalMatrix_cons, normalRhs_cons, ← add_assoc, ← add_assoc]
      constructor
      · congr 1
        ext i j
        simp [NormalEquations.add, toMatrix, equationOf, vecMulVec]
      · congr 1
        ext i
        simp [NormalEquations.add, equationOf, mul_comm]
  obtain ⟨hata, hatf⟩ := hfold .zero
  have hzero : (0.0 : ℚ) = 0 := by norm_num
  constructor
  · rw [normalEquations, hata]
    ext i j
    simp [NormalEquations.zero, toMatrix, hzero]
  · rw [normalEquations, hatf]
    ext i
    simp [NormalEquations.zero, hzero]

/-- The order of the points does not matter for the sums. -/
theorem normalEquations_perm {points points' : List (Vector ℚ 3)} (h : points.Perm points') :
    normalEquations (exact root) points = normalEquations (exact root) points' := by
  obtain ⟨hata, hatf⟩ := normalEquations_eq root points
  obtain ⟨hata', hatf'⟩ := normalEquations_eq root points'
  have heqs := h.map (equationOf root)
  have hA := toMatrix_injective (hata.trans ((normalMatrix_perm heqs).trans hata'.symm))
  have hb := get_injective (hatf.trans ((normalRhs_perm heqs).trans hatf'.symm))
  calc normalEquations (exact root) points
      = ⟨(normalEquations (exact root) points).ata, (normalEquations (exact root) points).atf⟩ := rfl
    _ = normalEquations (exact root) points' := by rw [hA, hb]

/-- A solver that solves what has a unique solution. -/
def ExactSolve (luSolve : LuSolve ℚ) : Prop :=
  ∀ ata atf, IsUnit (toMatrix ata).det → ∃ v, luSolve ata atf = some v ∧ toMatrix ata *ᵥ v.get = atf.get

/-- The squared distance of two points. -/
def distSq (p center : Vector ℚ 3) : ℚ :=
  (p.x - center.x) * (p.x - center.x) + (p.y - center.y) * (p.y - center.y) + (p.z - center.z) * (p.z - center.z)

/-- The parameters of a sphere: its centre and `r² - |c|²`. -/
def paramsOf (center : Vector ℚ 3) (rSq : ℚ) : Vector ℚ 4 :=
  #v[center.x, center.y, center.z, rSq - (center.x * center.x + center.y * center.y + center.z * center.z)]

theorem dot_rowOf (p : Vector ℚ 3) (v : Vector ℚ 4) :
    (rowOf (exact root) p).get ⬝ᵥ v.get = 2 * p.x * v.q0 + 2 * p.y * v.q1 + 2 * p.z * v.q2 + v.q3 := by
  have htwo : (2.0 : ℚ) = 2 := by norm_num
  have hone : (1.0 : ℚ) = 1 := by norm_num
  rw [dotProduct, Fin.sum_univ_four]
  show (2.0 : ℚ) * p.x * v.q0 + 2.0 * p.y * v.q1 + 2.0 * p.z * v.q2 + 1.0 * v.q3 = _
  rw [htwo, hone, one_mul]

theorem solves_paramsOf {center : Vector ℚ 3} {rSq : ℚ} {points : List (Vector ℚ 3)}
    (h : ∀ p ∈ points, distSq p center = rSq) :
    Solves (paramsOf center rSq).get (points.map (equationOf root)) := by
  intro e he
  obtain ⟨p, hp, rfl⟩ := List.mem_map.1 he
  have hdist := h p hp
  rw [distSq] at hdist
  rw [equationOf, dot_rowOf]
  show 2 * p.x * center.x + 2 * p.y * center.y + 2 * p.z * center.z
    + (rSq - (center.x * center.x + center.y * center.y + center.z * center.z)) = p.x * p.x + p.y * p.y + p.z * p.z
  linear_combination -hdist

/-- Points of which all are the centre do not determine a sphere. -/
theorem rSq_pos {center : Vector ℚ 3} {rSq : ℚ} {points : List (Vector ℚ 3)} (hne : points ≠ [])
    (h : ∀ p ∈ points, distSq p center = rSq)
    (hdet : IsUnit (toMatrix (normalEquations (exact root) points).ata).det) : 0 < rSq := by
  obtain ⟨p, hp⟩ := List.exists_mem_of_ne_nil _ hne
  have hnonneg : 0 ≤ rSq := by
    rw [← h p hp, distSq]
    exact add_nonneg (add_nonneg (mul_self_nonneg _) (mul_self_nonneg _)) (mul_self_nonneg _)
  refine lt_of_le_of_ne hnonneg ?_
  rintro rfl
  have hw : (#v[(1 : ℚ), 0, 0, -(2 * center.x)] : Vector ℚ 4).get ≠ 0 := by
    intro h0
    exact one_ne_zero (congrFun h0 0)
  have hzero : (normalMatrix (points.map (equationOf root))).det = 0 := by
    refine det_normalMatrix_eq_zero hw ?_
    intro e he
    obtain ⟨q, hq, rfl⟩ := List.mem_map.1 he
    have hdist := h q hq
    rw [distSq] at hdist
    have hx : q.x - center.x = 0 := by
      have hy := mul_self_nonneg (q.y - center.y)
      have hz := mul_self_nonneg (q.z - center.z)
      exact mul_self_eq_zero.1 (le_antisymm (by linarith) (mul_self_nonneg _))
    rw [equationOf, dot_rowOf]
    show 2 * q.x * 1 + 2 * q.y * 0 + 2 * q.z * 0 + -(2 * center.x) = 0
    linear_combination 2 * hx
  rw [(normalEquations_eq root points).1, hzero] at hdet
  exact not_isUnit_zero hdet

theorem sphereOf_paramsOf {center : Vector ℚ 3} {rSq : ℚ} (h : 0 < rSq) (points : List (Vector ℚ 3)) :
    ∃ residual, sphereOf (exact root) points (paramsOf center rSq) = some ⟨center, root rSq, residual⟩ := by
  have hrSq : (paramsOf center rSq).q3 + center.x * center.x + center.y * center.y + center.z * center.z = rSq := by
    show rSq - (center.x * center.x + center.y * center.y + center.z * center.z) + center.x * center.x
      + center.y * center.y + center.z * center.z = rSq
    ring
  have hpos :
      (0.0 : ℚ) < (paramsOf center rSq).q3 + center.x * center.x + center.y * center.y + center.z * center.z := by
    rw [hrSq]
    norm_num
    exact h
  refine ⟨rmsDeviation (exact root) points center.x center.y center.z (root rSq), (if_pos ⟨rfl, hpos⟩).trans ?_⟩
  show some (SphereFit.mk #v[center.x, center.y, center.z] (root _)
    (rmsDeviation (exact root) points center.x center.y center.z (root _))) = _
  rw [← Vector.eq_coordinates]
  exact congrArg (fun r => some (SphereFit.mk center (root r)
    (rmsDeviation (exact root) points center.x center.y center.z (root r)))) hrSq

/-- The order of the points changes neither the solution nor the offset. -/
theorem calibrate_offset_perm (luSolve : LuSolve ℚ) {points points' : List (Vector ℚ 3)} (h : points.Perm points') :
    (calibrate (exact root) luSolve points).map FittedCalibration.offset
      = (calibrate (exact root) luSolve points').map FittedCalibration.offset := by
  have hcenter : ∀ params, (sphereOf (exact root) points params).map SphereFit.center
      = (sphereOf (exact root) points' params).map SphereFit.center := by
    intro params
    unfold sphereOf
    dsimp only
    split <;> rfl
  have hoffset : ∀ ps, (calibrate (exact root) luSolve ps).map FittedCalibration.offset
      = (fitSphere (exact root) luSolve ps).map SphereFit.center := by
    intro ps
    rw [calibrate, Option.map_map]
    rfl
  rw [hoffset, hoffset, fitSphere, fitSphere, h.length_eq, normalEquations_perm root h]
  split
  · rfl
  · dsimp only
    rw [Option.map_bind, Option.map_bind]
    exact congrArg _ (funext hcenter)

/-- For points on a sphere the centre and the squared radius are the only solution of the normal equations, so the fit
gives exactly these, and the offset is the centre in every order of the points. -/
theorem fitSphere_exact (luSolve : LuSolve ℚ) (hlu : ExactSolve luSolve) (center : Vector ℚ 3) (rSq : ℚ)
    (points : List (Vector ℚ 3)) (hlen : MIN_FIT_SAMPLES ≤ points.length) (h : ∀ p ∈ points, distSq p center = rSq)
    (hdet : IsUnit (toMatrix (normalEquations (exact root) points).ata).det) :
    (∀ v : Vector ℚ 4, toMatrix (normalEquations (exact root) points).ata *ᵥ v.get
        = (normalEquations (exact root) points).atf.get ↔ v = paramsOf center rSq) ∧
      (∃ residual, fitSphere (exact root) luSolve points = some ⟨center, root rSq, residual⟩) ∧
      ∀ points', points'.Perm points →
        (calibrate (exact root) luSolve points').map FittedCalibration.offset = some center := by
  obtain ⟨hata, hatf⟩ := normalEquations_eq root points
  have hunique : ∀ v : Vector ℚ 4, toMatrix (normalEquations (exact root) points).ata *ᵥ v.get
      = (normalEquations (exact root) points).atf.get ↔ v = paramsOf center rSq := by
    intro v
    rw [hata] at hdet
    rw [hata, hatf, normalMatrix_mulVec_eq_iff hdet (solves_paramsOf root h), get_injective.eq_iff]
  have hne : points ≠ [] := by
    rintro rfl
    cases hlen
  have hfit : ∃ residual, fitSphere (exact root) luSolve points = some ⟨center, root rSq, residual⟩ := by
    obtain ⟨v, hv, hsolves⟩ := hlu _ _ hdet
    obtain rfl := (hunique v).1 hsolves
    obtain ⟨residual, hsphere⟩ := sphereOf_paramsOf root (rSq_pos root hne h hdet) points
    refine ⟨residual, ?_⟩
    rw [fitSphere, if_neg (not_lt.2 hlen)]
    dsimp only
    rw [hv, Option.bind_some, hsphere]
  refine ⟨hunique, hfit, fun points' hperm => ?_⟩
  obtain ⟨residual, hfit⟩ := hfit
  rw [calibrate_offset_perm root luSolve hperm, calibrate, hfit]
  rfl

/-- A solver by the inverse matrix. -/
noncomputable def solveByInverse : LuSolve ℚ := fun ata atf =>
  if (toMatrix ata).det = 0 then none else some (.ofFn ((toMatrix ata)⁻¹ *ᵥ atf.get))

theorem exactSolve_solveByInverse : ExactSolve solveByInverse := by
  intro ata atf hdet
  refine ⟨_, if_neg hdet.ne_zero, ?_⟩
  have hget : (Vector.ofFn ((toMatrix ata)⁻¹ *ᵥ atf.get)).get = (toMatrix ata)⁻¹ *ᵥ atf.get := by
    funext i
    simp
  rw [hget, mulVec_mulVec, mul_nonsing_inv _ hdet, one_mulVec]

/-- The corners of an octahedron, each twice. -/
def octahedron : List (Vector ℚ 3) :=
  let corners := [#v[1, 0, 0], #v[-1, 0, 0], #v[0, 1, 0], #v[0, -1, 0], #v[0, 0, 1], #v[0, 0, -1]]
  corners ++ corners

theorem isUnit_det_octahedron : IsUnit (toMatrix (normalEquations (exact id) octahedron).ata).det := by
  have hata : (normalEquations (exact id) octahedron).ata
      = #v[#v[16, 0, 0, 0], #v[0, 16, 0, 0], #v[0, 0, 16, 0], #v[0, 0, 0, 12]] := by
    decide +kernel
  have hdiag : toMatrix (normalEquations (exact id) octahedron).ata = diagonal ![16, 16, 16, 12] := by
    rw [hata]
    ext i j
    fin_cases i <;> fin_cases j <;> rfl
  rw [hdiag, det_diagonal, Fin.prod_univ_four]
  exact isUnit_iff_ne_zero.2 (by decide +kernel)

theorem fitSphere_exact_octahedron :
    ∃ residual, fitSphere (exact id) solveByInverse octahedron = some ⟨#v[0, 0, 0], 1, residual⟩ :=
  (fitSphere_exact id solveByInverse exactSolve_solveByInverse #v[0, 0, 0] 1 octahedron (by decide)
    (by decide +kernel)
    isUnit_det_octahedron).2.1

end Exact

end EverythingImu.ImuMath
