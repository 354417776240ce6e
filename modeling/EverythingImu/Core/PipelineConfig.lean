import EverythingImu.DeviceTraits

/-!
# The configuration of a pipeline

`PipelineConfig` (`pipeline.rs`) with the hard-iron calibration it carries (`mag_cal.rs`).
-/

namespace EverythingImu.Core

inductive FusionAlgo where
  | vqf
  | madgwick
  | basicVqf
deriving DecidableEq

inductive MountingOrientation where
  | identity
  | leftSide
  | rightSide
  | upsideDown
  | facingForward
  | facingBack
deriving DecidableEq

/-- Hard-iron calibration for one device. -/
structure MagCalibration where
  /-- Subtracted from raw magnetometer samples before fusion, in µT. -/
  offset : Vector Float32 3
  fieldStrengthUt : Float32
  residual : Float32
  coverage : Float32
deriving DecidableEq

@[ext]
structure PipelineConfig where
  fusion : FusionAlgo
  mounting : MountingOrientation
  magnetometerEnabled : Bool
  rotationOffsetDeg : Float32
  gyroScale : Float32
  magCalibration : Option MagCalibration
deriving DecidableEq

def PipelineConfig.default : PipelineConfig where
  fusion := .vqf
  mounting := .identity
  magnetometerEnabled := false
  rotationOffsetDeg := 0.0
  gyroScale := 1.0
  magCalibration := none

end EverythingImu.Core
