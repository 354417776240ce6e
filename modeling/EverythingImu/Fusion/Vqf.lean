import EverythingImu.Core.Tilt
import EverythingImu.Library.Biquad

/-!
# The VQF

The orientation filter (`vqf.rs` of `imu-fusion`) over a scalar: the low-pass filters, the integration of the gyroscope,
the inclination correction, the estimation of the gyroscope bias and the heading from the magnetometer.  Quaternions
are in the order w, i, j, k.  The pseudo-inverse of a matrix is a parameter, as are the functions of the scalar.
-/

namespace EverythingImu.Fusion

open EverythingImu.Core (EPS)

/-- A matrix by its rows. -/
abbrev Mat3 (K : Type) : Type := Vector (Vector K 3) 3

def Mat3.at {K : Type} (m : Mat3 K) (i j : Fin 3) : K := m[i][j]

def Mat3.ofFn {K : Type} (f : Fin 3 → Fin 3 → K) : Mat3 K := Vector.ofFn fun i => Vector.ofFn (f i)

@[simp] theorem Mat3.at_ofFn {K : Type} (f : Fin 3 → Fin 3 → K) (i j : Fin 3) : (ofFn f).at i j = f i j := by
  simp [Mat3.at, ofFn]

/-- What the filter uses besides the roots and the angles of a `TrigScalar`. -/
class VqfScalar (K : Type) extends TrigScalar K where
  tan : K → K
  exp : K → K
  asin : K → K
  atan2 : K → K → K
  isFinite : K → Bool
  /-- The pseudo-inverse of a matrix up to singular values of the given size. -/
  pseudoInverse : Mat3 K → K → Option (Mat3 K)

/-! ### Parameters and state -/

/-- Angles are in degrees. -/
structure VqfParams (K : Type) where
  tauAcc : K
  tauMag : K
  motionBiasEstEnabled : Bool
  restBiasEstEnabled : Bool
  magDistRejectionEnabled : Bool
  biasSigmaInit : K
  biasForgettingTime : K
  biasClip : K
  biasSigmaMotion : K
  biasVerticalForgettingFactor : K
  biasSigmaRest : K
  restMinT : K
  restFilterTau : K
  restThGyr : K
  restThAcc : K
  magCurrentTau : K
  magRefTau : K
  magNormTh : K
  magDipTh : K
  magNewTime : K
  magNewFirstTime : K
  magNewMinGyr : K
  magMinUndisturbedTime : K
  magMaxRejectionTime : K
  magRejectionFactor : K

/-- The state of a low-pass filter.  A component that has not been fed yet is NaN in the source. -/
abbrev LpState (K : Type) (n : Nat) : Type := Vector (Option (K × K)) n

structure VqfState (K : Type) where
  gyrQuat : Vector K 4
  accQuat : Vector K 4
  delta : K
  restDetected : Bool
  magDistDetected : Bool
  lastAccLp : Vector K 3
  accLpState : LpState K 3
  kMagInit : K
  lastMagDisAngle : K
  lastMagCorrAngularRate : K
  bias : Vector K 3
  biasP : Mat3 K
  motionBiasEstRLpState : LpState K 9
  motionBiasEstBiasLpState : LpState K 2
  restLastSquaredDeviations : Vector K 2
  restT : K
  restLastGyrLp : Vector K 3
  restGyrLpState : LpState K 3
  restLastAccLp : Vector K 3
  restAccLpState : LpState K 3
  magRefNorm : K
  magRefDip : K
  magUndisturbedT : K
  magRejectT : K
  magCandidateNorm : K
  magCandidateDip : K
  magCandidateT : K
  magNormDip : Vector K 2
  magNormDipLpState : LpState K 2
  magSeen : Bool

/-- The coefficients `_b` and `_a` of each filter are in one record. -/
structure VqfCoeffs (K : Type) where
  gyrTs : K
  accTs : K
  magTs : K
  accLp : Biquad K
  kMag : K
  biasP0 : K
  biasV : K
  biasMotionW : K
  biasVerticalW : K
  biasRestW : K
  restGyrLp : Biquad K
  restAccLp : Biquad K
  kMagRef : K
  magNormDipLp : Biquad K

structure Vqf (K : Type) where
  params : VqfParams K
  state : VqfState K
  coeffs : VqfCoeffs K

variable {K : Type} [VqfScalar K]

def VqfParams.default : VqfParams K where
  tauAcc := 3.0
  tauMag := 9.0
  motionBiasEstEnabled := true
  restBiasEstEnabled := true
  magDistRejectionEnabled := true
  biasSigmaInit := 0.5
  biasForgettingTime := 100.0
  biasClip := 2.0
  biasSigmaMotion := 0.1
  biasVerticalForgettingFactor := 1e-4
  biasSigmaRest := 0.03
  restMinT := 1.5
  restFilterTau := 0.5
  restThGyr := 2.0
  restThAcc := 0.5
  magCurrentTau := 0.05
  magRefTau := 20.0
  magNormTh := 0.1
  magDipTh := 10.0
  magNewTime := 20.0
  magNewFirstTime := 5.0
  magNewMinGyr := 20.0
  magMinUndisturbedTime := 0.5
  magMaxRejectionTime := 60.0
  magRejectionFactor := 2.0

/-- `Matrix3::from_diagonal`. -/
def diagonal (d : Vector K 3) : Mat3 K := .ofFn fun i j => if i = j then d[i] else 0.0

def VqfState.default : VqfState K where
  gyrQuat := #v[1.0, 0.0, 0.0, 0.0]
  accQuat := #v[1.0, 0.0, 0.0, 0.0]
  delta := 0.0
  restDetected := false
  magDistDetected := true
  lastAccLp := .replicate 3 0.0
  accLpState := .replicate 3 none
  kMagInit := 1.0
  lastMagDisAngle := 0.0
  lastMagCorrAngularRate := 0.0
  bias := .replicate 3 0.0
  -- NaN in the source: `setup` fills it in before anything reads it
  biasP := diagonal (.replicate 3 0.0)
  motionBiasEstRLpState := .replicate 9 none
  motionBiasEstBiasLpState := .replicate 2 none
  restLastSquaredDeviations := .replicate 2 0.0
  restT := 0.0
  restLastGyrLp := .replicate 3 0.0
  restGyrLpState := .replicate 3 none
  restLastAccLp := .replicate 3 0.0
  restAccLpState := .replicate 3 none
  magRefNorm := 0.0
  magRefDip := 0.0
  magUndisturbedT := 0.0
  magRejectT := -1.0
  magCandidateNorm := -1.0
  magCandidateDip := 0.0
  magCandidateT := 0.0
  magNormDip := .replicate 2 0.0
  magNormDipLpState := .replicate 2 none
  magSeen := false

/-! ### Low-pass filters -/

/-- The tangent that the coefficients are made of. -/
def warpedCorner (tau ts : K) : K :=
  let fc := TrigScalar.sqrt 2.0 / (2.0 * TrigScalar.pi) / tau
  VqfScalar.tan (TrigScalar.pi * fc * ts)

def filterCoeffs (tau ts : K) : Biquad K :=
  if tau ≤ 0.0 then ⟨1.0, 0.0, 0.0, 0.0, 0.0⟩
  else
    let c := warpedCorner tau ts
    let d := c * c + TrigScalar.sqrt 2.0 * c + 1.0
    let b0 := c * c / d
    { b0
      b1 := 2.0 * b0
      b2 := b0
      a1 := 2.0 * (c * c - 1.0) / d
      a2 := (c * c - TrigScalar.sqrt 2.0 * c + 1.0) / d }

def filterInitialState (x0 : K) (f : Biquad K) : K × K := (x0 * (1.0 - f.b0), x0 * (f.b2 - f.a2))

/-- The output and the next state. -/
def filterStep (x : K) (f : Biquad K) (state : K × K) : K × K × K :=
  let y := f.b0 * x + state.1
  (y, f.b1 * x - f.a1 * y + state.2, f.b2 * x - f.a2 * y)

def filterAdaptStateForCoeffChange (lastY : K) (fNew : Biquad K) (state : Option (K × K)) : Option (K × K) :=
  state.map fun _ => filterInitialState lastY fNew

/-- One component of `filter_vec_n`: the first input becomes the initial state. -/
def filterComponent (f : Biquad K) (x : K) : Option (K × K) → K × K × K
  | none => (x, filterInitialState x f)
  | some state => filterStep x f state

def filterVecN {n : Nat} (x : Vector K n) (f : Biquad K) (state : LpState K n) : Vector K n × LpState K n :=
  let outs := Vector.zipWith (filterComponent f) x state
  (outs.map Prod.fst, outs.map fun o => some o.2)

/-! ### Quaternions -/

def quatMultiply (q1 q2 : Vector K 4) : Vector K 4 :=
  #v[q1.q0 * q2.q0 - q1.q1 * q2.q1 - q1.q2 * q2.q2 - q1.q3 * q2.q3,
    q1.q0 * q2.q1 + q1.q1 * q2.q0 + q1.q2 * q2.q3 - q1.q3 * q2.q2,
    q1.q0 * q2.q2 - q1.q1 * q2.q3 + q1.q2 * q2.q0 + q1.q3 * q2.q1,
    q1.q0 * q2.q3 + q1.q1 * q2.q2 - q1.q2 * q2.q1 + q1.q3 * q2.q0]

def quatConj (q : Vector K 4) : Vector K 4 := #v[q.q0, -q.q1, -q.q2, -q.q3]

def quatRotate (q : Vector K 4) (v : Vector K 3) : Vector K 3 :=
  let r := quatMultiply (quatMultiply q #v[0.0, v.x, v.y, v.z]) (quatConj q)
  #v[r.q1, r.q2, r.q3]

def quatNormalize (q : Vector K 4) : Vector K 4 :=
  let n := TrigScalar.sqrt (q.q0 * q.q0 + q.q1 * q.q1 + q.q2 * q.q2 + q.q3 * q.q3)
  if ¬VqfScalar.isFinite n ∨ n < EPS then #v[1.0, 0.0, 0.0, 0.0] else q.map (· / n)

def quatToRotationMatrix (q : Vector K 4) : Mat3 K :=
  let w := q.q0
  let x := q.q1
  let y := q.q2
  let z := q.q3
  #v[#v[1.0 - 2.0 * (y * y + z * z), 2.0 * (x * y - z * w), 2.0 * (x * z + y * w)],
    #v[2.0 * (x * y + z * w), 1.0 - 2.0 * (x * x + z * z), 2.0 * (y * z - x * w)],
    #v[2.0 * (x * z - y * w), 2.0 * (y * z + x * w), 1.0 - 2.0 * (x * x + y * y)]]

def VqfState.quat6d (s : VqfState K) : Vector K 4 := quatNormalize (quatMultiply s.accQuat s.gyrQuat)

/-! ### Set-up -/

/-- The smaller and the larger of two numbers. -/
def smaller (x y : K) : K := if y < x then y else x

def larger (x y : K) : K := if x < y then y else x

def toRad (deg : K) : K := deg * TrigScalar.pi / 180.0

/-- The gain of a first-order filter. -/
def gain (tau ts : K) : K := if tau ≤ 0.0 then 0.0 else 1.0 - VqfScalar.exp (-ts / tau)

def VqfCoeffs.setup (p : VqfParams K) (gyrTs accTs magTs : K) : VqfCoeffs K :=
  let biasSigmaInitRad := toRad p.biasSigmaInit
  let biasP0 := biasSigmaInitRad * biasSigmaInitRad
  let biasSigmaMotionRad := toRad p.biasSigmaMotion
  let biasMotionW := biasSigmaMotionRad * biasSigmaMotionRad / gyrTs
  let biasSigmaRestRad := toRad p.biasSigmaRest
  { gyrTs
    accTs
    magTs
    accLp := filterCoeffs p.tauAcc accTs
    kMag := gain p.tauMag magTs
    biasP0
    biasV := biasP0 * gyrTs / p.biasForgettingTime
    biasMotionW
    biasVerticalW := biasMotionW / larger p.biasVerticalForgettingFactor 1e-12
    biasRestW := biasSigmaRestRad * biasSigmaRestRad / gyrTs
    restGyrLp := filterCoeffs p.restFilterTau gyrTs
    restAccLp := filterCoeffs p.restFilterTau accTs
    kMagRef := gain p.magRefTau magTs
    magNormDipLp := filterCoeffs p.magCurrentTau magTs }

namespace Vqf

/-- `setup` after the timesteps have been set. -/
def setup (v : Vqf K) (gyrTs accTs magTs : K) : Vqf K :=
  let coeffs := VqfCoeffs.setup v.params gyrTs accTs magTs
  { v with
    coeffs
    state := { v.state with biasP := diagonal (.replicate 3 coeffs.biasP0) } }

def withParamsAndTimesteps (params : VqfParams K) (gyrTs accTs magTs : K) : Vqf K :=
  setup ⟨params, .default, .setup params gyrTs accTs magTs⟩ gyrTs accTs magTs

def new (gyrTs : K) : Vqf K := withParamsAndTimesteps .default gyrTs gyrTs gyrTs

def resetState (v : Vqf K) : Vqf K :=
  setup { v with state := .default } v.coeffs.gyrTs v.coeffs.accTs v.coeffs.magTs

def setTimestep (v : Vqf K) (gyrTs : K) : Vqf K := v.setup gyrTs gyrTs gyrTs

def setTauAcc (v : Vqf K) (tau : K) : Vqf K :=
  let fNew := filterCoeffs tau v.coeffs.accTs
  { params := { v.params with tauAcc := tau }
    state := { v.state with
      accLpState := Vector.zipWith (fun y s => filterAdaptStateForCoeffChange y fNew s) v.state.lastAccLp
        v.state.accLpState }
    coeffs := { v.coeffs with accLp := fNew } }

def setTauMag (v : Vqf K) (tau : K) : Vqf K :=
  { v with
    params := { v.params with tauMag := tau }
    coeffs := { v.coeffs with kMag := gain tau v.coeffs.magTs } }

def biasClip (v : Vqf K) : K := toRad v.params.biasClip

def setBiasEstimate (v : Vqf K) (bias : Vector K 3) (sigma : Option K) : Vqf K :=
  { v with
    state := { v.state with
      bias := bias.map fun x => Scalar.clamp x (-v.biasClip) v.biasClip
      biasP := match sigma with
        | some sigma => diagonal (.replicate 3 (sigma * sigma))
        | none => v.state.biasP } }

/-! ### Gyroscope -/

def normSq (v : Vector K 3) : K := v.x * v.x + v.y * v.y + v.z * v.z

/-- The rest detection of `update_gyr`. -/
def watchGyr (v : Vqf K) (gyr : Vector K 3) : Vqf K :=
  if v.params.restBiasEstEnabled ∨ v.params.magDistRejectionEnabled then
    let (gyrLp, lpState) := filterVecN gyr v.coeffs.restGyrLp v.state.restGyrLpState
    let sqDev := normSq (Vector.zipWith (· - ·) gyr gyrLp)
    let maxAbs := gyrLp.toList.foldl (fun m x => larger m (Scalar.abs x)) 0.0
    let restThGyrRad := toRad v.params.restThGyr
    let moved : Bool := restThGyrRad * restThGyrRad ≤ sqDev ∨ v.biasClip < maxAbs
    { v with
      state := { v.state with
        restT := if moved then 0.0 else v.state.restT
        restDetected := if moved then false else v.state.restDetected
        restGyrLpState := lpState
        restLastGyrLp := gyrLp
        restLastSquaredDeviations := v.state.restLastSquaredDeviations.set 0 sqDev } }
  else v

/-- The integration of `update_gyr`. -/
def integrateGyr (v : Vqf K) (gyr : Vector K 3) : Vqf K :=
  let g := Vector.zipWith (· - ·) gyr v.state.bias
  let gNorm := TrigScalar.sqrt (normSq g)
  let angle := gNorm * v.coeffs.gyrTs
  if EPS < gNorm then
    let c := TrigScalar.cos (angle * 0.5)
    let s := TrigScalar.sin (angle * 0.5) / gNorm
    let stepQ := #v[c, s * g.x, s * g.y, s * g.z]
    { v with state := { v.state with gyrQuat := quatNormalize (quatMultiply v.state.gyrQuat stepQ) } }
  else v

def updateGyr (v : Vqf K) (gyr : Vector K 3) : Vqf K := (v.watchGyr gyr).integrateGyr gyr

/-! ### Accelerometer -/

def isZero (x : K) : Bool := x ≤ 0.0 ∧ 0.0 ≤ x

/-- The rest detection of `update_acc`. -/
def watchAcc (v : Vqf K) (acc : Vector K 3) : Vqf K :=
  if v.params.restBiasEstEnabled then
    let (accLp, lpState) := filterVecN acc v.coeffs.restAccLp v.state.restAccLpState
    let sqDev := normSq (Vector.zipWith (· - ·) acc accLp)
    let moved : Bool := v.params.restThAcc * v.params.restThAcc ≤ sqDev
    let restT := if moved then 0.0 else v.state.restT + v.coeffs.accTs
    { v with
      state := { v.state with
        restT
        restDetected :=
          if moved then false else if v.params.restMinT ≤ restT then true else v.state.restDetected
        restAccLpState := lpState
        restLastAccLp := accLp
        restLastSquaredDeviations := v.state.restLastSquaredDeviations.set 1 sqDev } }
  else v

/-- The filtering of the acceleration in the frame of the integrated gyroscope. -/
def filterAcc (v : Vqf K) (acc : Vector K 3) : Vqf K :=
  let (lastAccLp, accLpState) := filterVecN (quatRotate v.state.gyrQuat acc) v.coeffs.accLp v.state.accLpState
  { v with state := { v.state with lastAccLp, accLpState } }

/-- The measured direction of gravity in the world. -/
def accE6 (v : Vqf K) : Vector K 3 :=
  let e := quatRotate v.state.accQuat v.state.lastAccLp
  let n := TrigScalar.sqrt (normSq e)
  if EPS < n then e.map (· / n) else #v[0.0, 0.0, 1.0]

def correctInclination (v : Vqf K) : Vqf K :=
  { v with
    state := { v.state with accQuat := quatNormalize (quatMultiply (Core.accCorr v.accE6) v.state.accQuat) } }

/-! ### Gyroscope bias -/

def matMul (a b : Mat3 K) : Mat3 K := .ofFn fun i j => a[i].x * b.x[j] + a[i].y * b.y[j] + a[i].z * b.z[j]

def mulVec (a : Mat3 K) (x : Vector K 3) : Vector K 3 := a.map fun row => row.x * x.x + row.y * x.y + row.z * x.z

/-- What the Kalman filter is corrected by: the error of the bias, the variances and the measurement matrix. -/
def biasMeasurement (v : Vqf K) (accE6Norm : Vector K 3) (biasLp : Vector K 2) (r : Mat3 K) :
    Option (Vector K 3 × Vector K 3 × Mat3 K) :=
  let bias := v.state.bias
  if v.state.restDetected ∧ v.params.restBiasEstEnabled then
    some (Vector.zipWith (· - ·) v.state.restLastGyrLp bias, .replicate 3 v.coeffs.biasRestW,
      diagonal (.replicate 3 1.0))
  else if v.params.motionBiasEstEnabled then
    let accTs := v.coeffs.accTs
    some (#v[-accE6Norm.y / accTs + biasLp[0] - r.x.x * bias.x - r.x.y * bias.y - r.x.z * bias.z,
        accE6Norm.x / accTs + biasLp[1] - r.y.x * bias.x - r.y.y * bias.y - r.y.z * bias.z,
        -r.z.x * bias.x - r.z.y * bias.y - r.z.z * bias.z],
      #v[v.coeffs.biasMotionW, v.coeffs.biasMotionW, v.coeffs.biasVerticalW], r)
  else none

/-- The diagonal of the covariance grows up to its initial value. -/
def inflateBiasP (v : Vqf K) : Vqf K :=
  { v with
    state := { v.state with
      biasP := .ofFn fun i j =>
        if i = j ∧ v.state.biasP.at i i < v.coeffs.biasP0 then
          smaller (v.state.biasP.at i i + v.coeffs.biasV) v.coeffs.biasP0
        else v.state.biasP.at i j } }

def correctBias (v : Vqf K) (e w : Vector K 3) (r : Mat3 K) : Vqf K :=
  let p := v.state.biasP
  let eClip := e.map fun x => Scalar.clamp x (-v.biasClip) v.biasClip
  let rT : Mat3 K := .ofFn fun i j => r.at j i
  let s : Mat3 K := Vector.zipWith (Vector.zipWith (· + ·)) (diagonal w) (matMul (matMul r p) rT)
  match VqfScalar.pseudoInverse s EPS with
  | none => v
  | some sInv =>
    let kGain := matMul (matMul p rT) sInv
    { v with
      state := { v.state with
        bias := (Vector.zipWith (· + ·) v.state.bias (mulVec kGain eClip)).map
          fun x => Scalar.clamp x (-v.biasClip) v.biasClip
        biasP := Vector.zipWith (Vector.zipWith (· - ·)) p (matMul (matMul kGain r) p) } }

/-- The low-pass filters of the motion bias, with their outputs. -/
def filterMotionBias (v : Vqf K) : Vqf K × Vector K 2 × Mat3 K :=
  let r := quatToRotationMatrix v.state.quat6d
  let rBias := mulVec r v.state.bias
  let (biasLp, biasLpState) := filterVecN #v[rBias.x, rBias.y] v.coeffs.accLp v.state.motionBiasEstBiasLpState
  let rFlat : Vector K 9 := r.flatten
  let (rFilt, rLpState) := filterVecN rFlat v.coeffs.accLp v.state.motionBiasEstRLpState
  ({ v with
      state := { v.state with
        motionBiasEstBiasLpState := biasLpState
        motionBiasEstRLpState := rLpState } },
    biasLp, .ofFn fun i j => rFilt[3 * i.val + j.val])

def updateBiasKalman (v : Vqf K) (accE6Norm : Vector K 3) : Vqf K :=
  if ¬v.params.motionBiasEstEnabled ∧ ¬v.params.restBiasEstEnabled then v
  else
    let (v, biasLp, r) := v.filterMotionBias
    match v.biasMeasurement accE6Norm biasLp r with
    | some (e, w, rMeas) => v.inflateBiasP.correctBias e w rMeas
    | none => v.inflateBiasP

def updateAcc (v : Vqf K) (acc : Vector K 3) : Vqf K :=
  if acc.all isZero then v
  else
    let v := (v.watchAcc acc).filterAcc acc
    v.correctInclination.updateBiasKalman v.accE6

/-! ### Magnetometer -/

/-- An angle that is at most a half turn out of range. -/
def wrapPi (x : K) : K :=
  if TrigScalar.pi < x then x - 2.0 * TrigScalar.pi
  else if x < -TrigScalar.pi then x + 2.0 * TrigScalar.pi
  else x

/-- The norm and the dip angle of a field in the world. -/
def normAndDip (magEarth : Vector K 3) : Vector K 2 :=
  let magNorm := TrigScalar.sqrt (normSq magEarth)
  #v[magNorm, -VqfScalar.asin (magEarth.z / larger magNorm EPS)]

def filterNormDip (v : Vqf K) (ndIn : Vector K 2) : Vqf K :=
  if 0.0 < v.params.magCurrentTau then
    let (magNormDip, magNormDipLpState) := filterVecN ndIn v.coeffs.magNormDipLp v.state.magNormDipLpState
    { v with state := { v.state with magNormDip, magNormDipLpState } }
  else { v with state := { v.state with magNormDip := ndIn } }

/-- The field has about the given norm and dip. -/
def nearField (v : Vqf K) (norm dip : K) : Bool :=
  Scalar.abs (v.state.magNormDip[0] - norm) < v.params.magNormTh * norm ∧
    Scalar.abs (v.state.magNormDip[1] - dip) < toRad v.params.magDipTh

/-- The field against the reference. -/
def watchReference (v : Vqf K) : Vqf K :=
  let s := v.state
  if v.nearField s.magRefNorm s.magRefDip then
    let magUndisturbedT := s.magUndisturbedT + v.coeffs.magTs
    if v.params.magMinUndisturbedTime ≤ magUndisturbedT then
      { v with
        state := { s with
          magUndisturbedT
          magDistDetected := false
          magRefNorm := s.magRefNorm + v.coeffs.kMagRef * (s.magNormDip[0] - s.magRefNorm)
          magRefDip := s.magRefDip + v.coeffs.kMagRef * (s.magNormDip[1] - s.magRefDip) } }
    else { v with state := { s with magUndisturbedT } }
  else { v with state := { s with magUndisturbedT := 0.0, magDistDetected := true } }

/-- The candidate moves towards the field. -/
def followCandidate (v : Vqf K) : VqfState K :=
  let s := v.state
  let gyrNorm := TrigScalar.sqrt (normSq s.restLastGyrLp)
  { s with
    magCandidateT :=
      if toRad v.params.magNewMinGyr ≤ gyrNorm then s.magCandidateT + v.coeffs.magTs else s.magCandidateT
    magCandidateNorm := s.magCandidateNorm + v.coeffs.kMagRef * (s.magNormDip[0] - s.magCandidateNorm)
    magCandidateDip := s.magCandidateDip + v.coeffs.kMagRef * (s.magNormDip[1] - s.magCandidateDip) }

/-- The field against the candidate for a new reference. -/
def watchCandidate (v : Vqf K) : Vqf K :=
  if v.nearField v.state.magCandidateNorm v.state.magCandidateDip then
    let s := v.followCandidate
    if s.magDistDetected ∧ (v.params.magNewTime ≤ s.magCandidateT ∨
        isZero s.magRefNorm ∧ v.params.magNewFirstTime ≤ s.magCandidateT) then
      { v with
        state := { s with
          magRefNorm := s.magCandidateNorm
          magRefDip := s.magCandidateDip
          magDistDetected := false
          magUndisturbedT := v.params.magMinUndisturbedTime } }
    else { v with state := s }
  else
    { v with
      state := { v.state with
        magCandidateT := 0.0
        magCandidateNorm := v.state.magNormDip[0]
        magCandidateDip := v.state.magNormDip[1] } }

/-- The gain of the heading correction while disturbed fields are rejected. -/
def rejectionGain (v : Vqf K) : Vqf K × K :=
  let s := v.state
  if v.params.magDistRejectionEnabled then
    if s.magDistDetected then
      if s.magRejectT ≤ v.params.magMaxRejectionTime then
        ({ v with state := { s with magRejectT := s.magRejectT + v.coeffs.magTs } }, 0.0)
      else (v, v.coeffs.kMag / v.params.magRejectionFactor)
    else
      ({ v with
          state := { s with magRejectT := larger (s.magRejectT - v.params.magRejectionFactor * v.coeffs.magTs) 0.0 } },
        v.coeffs.kMag)
  else (v, v.coeffs.kMag)

/-- The gain is at least the decaying initial one. -/
def initialGain (v : Vqf K) (k : K) : Vqf K × K :=
  let kInit := v.state.kMagInit
  if isZero kInit then (v, k)
  else
    let next := kInit / (kInit + 1.0)
    let kMagInit := if next * v.params.tauMag < v.coeffs.magTs then 0.0 else next
    ({ v with state := { v.state with kMagInit } }, if k < kInit then kInit else k)

def correctHeading (v : Vqf K) (magEarth : Vector K 3) : Vqf K :=
  let dis := wrapPi (VqfScalar.atan2 magEarth.x magEarth.y - v.state.delta)
  let (v, k) := v.rejectionGain
  let (v, k) := v.initialGain k
  { v with
    state := { v.state with
      lastMagDisAngle := dis
      lastMagCorrAngularRate := k * dis / v.coeffs.magTs
      delta := wrapPi (v.state.delta + k * dis) } }

def seeMag (v : Vqf K) : Vqf K := { v with state := { v.state with magSeen := true } }

def updateMag (v : Vqf K) (mag : Vector K 3) : Vqf K :=
  if mag.all isZero then v
  else
    let v := v.seeMag
    let magEarth := quatRotate v.state.quat6d mag
    let v :=
      if v.params.magDistRejectionEnabled then (v.filterNormDip (normAndDip magEarth)).watchReference.watchCandidate
      else v
    v.correctHeading magEarth

def update (v : Vqf K) (gyro accel : Vector K 3) (mag : Option (Vector K 3)) : Vqf K :=
  let v := (v.updateGyr gyro).updateAcc accel
  mag.elim v v.updateMag

end Vqf

/-! ### Runs -/

/-- What the filter can be told to do. -/
inductive VqfOp (K : Type) where
  | update (gyro accel : Vector K 3) (mag : Option (Vector K 3))
  | setTimestep (gyrTs : K)
  | setTauAcc (tau : K)
  | setTauMag (tau : K)
  | setBiasEstimate (bias : Vector K 3) (sigma : Option K)
  | resetState

def Vqf.apply (v : Vqf K) : VqfOp K → Vqf K
  | .update gyro accel mag => v.update gyro accel mag
  | .setTimestep gyrTs => v.setTimestep gyrTs
  | .setTauAcc tau => v.setTauAcc tau
  | .setTauMag tau => v.setTauMag tau
  | .setBiasEstimate bias sigma => v.setBiasEstimate bias sigma
  | .resetState => v.resetState

def Vqf.run (v : Vqf K) (ops : List (VqfOp K)) : Vqf K := ops.foldl Vqf.apply v

end EverythingImu.Fusion
