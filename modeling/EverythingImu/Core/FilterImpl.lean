import EverythingImu.Core.Pipeline

/-!
# The filters of a pipeline

`FilterImpl` (`pipeline.rs`): the three orientation filters behind one interface.  The VQF filter and the Madgwick
filter are parameters; the basic VQF (`basic_vqf.rs`) is the VQF without bias estimation and without magnetometer.
Only the VQF estimates a gyro bias.
-/

namespace EverythingImu.Core

/-- `VqfParams` (`vqf.rs`). -/
structure VqfParams where
  tauAcc : Float
  tauMag : Float
  motionBiasEstEnabled : Bool
  restBiasEstEnabled : Bool
  magDistRejectionEnabled : Bool
  biasSigmaInit : Float
  biasForgettingTime : Float
  biasClip : Float
  biasSigmaMotion : Float
  biasVerticalForgettingFactor : Float
  biasSigmaRest : Float
  restMinT : Float
  restFilterTau : Float
  restThGyr : Float
  restThAcc : Float
  magCurrentTau : Float
  magRefTau : Float
  magNormTh : Float
  magDipTh : Float
  magNewTime : Float
  magNewFirstTime : Float
  magNewMinGyr : Float
  magMinUndisturbedTime : Float
  magMaxRejectionTime : Float
  magRejectionFactor : Float

def VqfParams.default : VqfParams where
  tauAcc := 3.0
  tauMag := 9.0
  motionBiasEstEnabled := true
  restBiasEstEnabled := true
  magDistRejectionEnabled := true
  biasSigmaInit := 0.5
  biasForgettingTime := 100.0
  biasClip := 2.0
  biasSigmaMotion := 0.1
  biasVerticalForgettingFactor := 1e-4
  biasSigmaRest := 0.03
  restMinT := 1.5
  restFilterTau := 0.5
  restThGyr := 2.0
  restThAcc := 0.5
  magCurrentTau := 0.05
  magRefTau := 20.0
  magNormTh := 0.1
  magDipTh := 10.0
  magNewTime := 20.0
  magNewFirstTime := 5.0
  magNewMinGyr := 20.0
  magMinUndisturbedTime := 0.5
  magMaxRejectionTime := 60.0
  magRejectionFactor := 2.0

/-- The operations of the VQF filter (`vqf.rs`). -/
class VqfFilter (V : Type) where
  withParams : Float → VqfParams → V
  /-- Gyroscope, accelerometer and magnetometer. -/
  update : V → Vector Float 3 → Vector Float 3 → Option (Vector Float 3) → V
  quat6d : V → Vector Float 4
  quat9d : V → Vector Float 4
  magSeen : V → Bool
  /-- The estimate in rad/s and its deviation. -/
  biasEstimate : V → Vector Float 3 × Float
  setBiasEstimate : V → Vector Float 3 → Option Float → V
  setTimestep : V → Float → V

/-- The operations of the Madgwick filter (`madgwick.rs`). -/
class MadgwickFilter (M : Type) where
  new : Float32 → M
  /-- Gyroscope and accelerometer. -/
  updateImu : M → Vector Float32 3 → Vector Float32 3 → M
  /-- Gyroscope, accelerometer and magnetometer. -/
  updateMarg : M → Vector Float32 3 → Vector Float32 3 → Vector Float32 3 → M
  quaternion : M → Vector Float32 4
  setSamplePeriod : M → Float32 → M

/-! ### The basic VQF -/

structure BasicVqf (V : Type) where
  inner : V

namespace BasicVqf

variable {V : Type} [VqfFilter V]

def new (gyrTs : Float) : BasicVqf V :=
  ⟨VqfFilter.withParams gyrTs
    { VqfParams.default with
      motionBiasEstEnabled := false
      restBiasEstEnabled := false
      magDistRejectionEnabled := false }⟩

def update (f : BasicVqf V) (gyro accel : Vector Float 3) : BasicVqf V :=
  ⟨VqfFilter.update f.inner gyro accel none⟩

def quat6d (f : BasicVqf V) : Vector Float 4 := VqfFilter.quat6d f.inner

def setTimestep (f : BasicVqf V) (gyrTs : Float) : BasicVqf V := ⟨VqfFilter.setTimestep f.inner gyrTs⟩

end BasicVqf

/-! ### The filter of a pipeline -/

inductive FilterImpl (V M : Type) where
  | vqf (f : V)
  | madgwick (f : M)
  | basicVqf (f : BasicVqf V)

namespace FilterImpl

variable {V M : Type} [VqfFilter V] [MadgwickFilter M]

/-- The motion part of the bias estimation needs a magnetometer. -/
def new (algo : FusionAlgo) (gyrTsS : Float) (hasMag : Bool) : FilterImpl V M :=
  match algo with
  | .vqf =>
    .vqf (VqfFilter.withParams gyrTsS
      { VqfParams.default with motionBiasEstEnabled := hasMag, restBiasEstEnabled := true })
  | .madgwick => .madgwick (MadgwickFilter.new gyrTsS.toFloat32)
  | .basicVqf => .basicVqf (BasicVqf.new gyrTsS)

def setBiasEstimate (f : FilterImpl V M) (bias : Vector Float 3) (sigma : Option Float) : FilterImpl V M :=
  match f with
  | .vqf f => .vqf (VqfFilter.setBiasEstimate f bias sigma)
  | .madgwick f => .madgwick f
  | .basicVqf f => .basicVqf f

def update (f : FilterImpl V M) (gyr acc : Vector Float 3) (mag : Option (Vector Float 3)) : FilterImpl V M :=
  match f with
  | .vqf f => .vqf (VqfFilter.update f gyr acc mag)
  | .madgwick f =>
    match mag with
    | some m =>
      .madgwick (MadgwickFilter.updateMarg f (gyr.map Float.toFloat32) (acc.map Float.toFloat32)
        (m.map Float.toFloat32))
    | none => .madgwick (MadgwickFilter.updateImu f (gyr.map Float.toFloat32) (acc.map Float.toFloat32))
  | .basicVqf f => .basicVqf (f.update gyr acc)

def quatWijk (f : FilterImpl V M) (useMag : Bool) : Vector Float 4 :=
  match f with
  | .vqf f => if useMag && VqfFilter.magSeen f then VqfFilter.quat9d f else VqfFilter.quat6d f
  | .madgwick f => (MadgwickFilter.quaternion f).map Float32.toFloat
  | .basicVqf f => f.quat6d

/-- The filters other than the VQF have no estimate; theirs reads as zero. -/
def biasEstimate (f : FilterImpl V M) : Vector Float 3 :=
  match f with
  | .vqf f => (VqfFilter.biasEstimate f).1
  | _ => .replicate 3 0.0

def setTimestep (f : FilterImpl V M) (gyrTs : Float) : FilterImpl V M :=
  match f with
  | .vqf f => .vqf (VqfFilter.setTimestep f gyrTs)
  | .madgwick f => .madgwick (MadgwickFilter.setSamplePeriod f gyrTs.toFloat32)
  | .basicVqf f => .basicVqf (f.setTimestep gyrTs)

instance : OrientationFilter (FilterImpl V M) where
  create := new
  -- `Pipeline::new` seeds with a deviation of 0.01
  setBiasEstimate f bias := f.setBiasEstimate bias (some 0.01)
  setTimestep := setTimestep
  update := update
  quatWijk := quatWijk
  biasEstimate := biasEstimate

/-! ### A filter keeps its algorithm -/

/-- The algorithm that the filter runs. -/
def algo : FilterImpl V M → FusionAlgo
  | .vqf _ => .vqf
  | .madgwick _ => .madgwick
  | .basicVqf _ => .basicVqf

@[simp]
theorem algo_create (a : FusionAlgo) (gyrTs : Float) (hasMag : Bool) :
    (OrientationFilter.create a gyrTs hasMag : FilterImpl V M).algo = a := by
  cases a <;> rfl

@[simp]
theorem algo_setBiasEstimate (f : FilterImpl V M) (bias : Vector Float 3) :
    (OrientationFilter.setBiasEstimate f bias).algo = f.algo := by
  cases f <;> rfl

@[simp]
theorem algo_setTimestep (f : FilterImpl V M) (ts : Float) : (OrientationFilter.setTimestep f ts).algo = f.algo := by
  cases f <;> rfl

@[simp]
theorem algo_update (f : FilterImpl V M) (gyr acc : Vector Float 3) (mag : Option (Vector Float 3)) :
    (OrientationFilter.update f gyr acc mag).algo = f.algo := by
  cases f with
  | vqf f => rfl
  | madgwick f => cases mag <;> rfl
  | basicVqf f => rfl

/-- Without bias estimation the estimate is zero. -/
theorem biasEstimate_of_algo_ne {f : FilterImpl V M} (h : f.algo ≠ .vqf) :
    OrientationFilter.biasEstimate f = .replicate 3 0.0 := by
  cases f with
  | vqf f => exact absurd rfl h
  | madgwick f => rfl
  | basicVqf f => rfl

end FilterImpl

end EverythingImu.Core
