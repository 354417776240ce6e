import EverythingImu.DeviceTraits
import EverythingImu.Library.Scalar

/-!
# Samples of the forwarded consoles

The consoles whose motion comes over the network: the packets of the PS Vita (`device-vita/src/device.rs`) and of the
3DS (`device-3ds/src/device.rs`).  They are stamped with the time since the reader was started.
-/

namespace EverythingImu.Forwarded

/-! ### PS Vita -/

namespace Vita

structure VitaPacket where
  /-- In g. -/
  accelG : Vector Float32 3
  /-- In rad/s. -/
  gyroRad : Vector Float32 3
deriving DecidableEq

def G : Float32 := 9.80665

def imuFromPacket (pkt : VitaPacket) (start now : Instant) : ImuSample where
  gyro := pkt.gyroRad
  accel := pkt.accelG.map (· * G)
  mag := none
  timestampUs := microsSince start now

end Vita

/-! ### 3DS -/

namespace ThreeDs

structure ThreeDsPacket where
  accel : Vector Int16 3
  gyro : Vector Int16 3
deriving DecidableEq

def G : Float32 := 9.80665
def GRAVITY_SAMPLES : Nat := 100
def GYRO_RAD_PER_LSB : Float32 := 0.00125

def imuFromRaw (pkt : ThreeDsPacket) (division : Float32) (start now : Instant) : ImuSample where
  gyro := pkt.gyro.map fun g => -Float32.ofInt g.toInt * GYRO_RAD_PER_LSB
  accel :=
    let scaled (a : Int16) := Float32.ofInt a.toInt * division
    #v[scaled pkt.accel.x, scaled pkt.accel.z, scaled pkt.accel.y]
  mag := none
  timestampUs := microsSince start now

/-- What the reader task keeps: the sum and the number of the resting magnitudes, and the scale from their mean. -/
structure Gravity where
  accum : Float
  count : Nat
  division : Float32
deriving DecidableEq

def Gravity.new : Gravity := ⟨0.0, 0, 0.0⟩

/-- The magnitude of the raw acceleration. -/
def magnitude (accel : Vector Int16 3) : Float :=
  let sq (a : Int16) := Float.ofInt a.toInt * Float.ofInt a.toInt
  (sq accel.x + sq accel.y + sq accel.z).sqrt

/-- One packet: the first ones settle the scale and give no sample. -/
def readPacket (g : Gravity) (pkt : ThreeDsPacket) (start now : Instant) : Gravity × Option ImuSample :=
  if g.count < GRAVITY_SAMPLES then
    let accum := g.accum + magnitude pkt.accel
    let count := g.count + 1
    let mean := accum.toFloat32 / Float32.ofNat count
    (⟨accum, count, G / (if 1.0 < mean then mean else 1.0)⟩, none)
  else (g, some (imuFromRaw pkt g.division start now))

end ThreeDs

end EverythingImu.Forwarded
