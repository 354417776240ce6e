/-!
# Devices and their events

The identity and the events of a device (`device-traits`).  Single-precision values are `Float32`, double-precision
values are `Float`, and an `Instant` is a number of nanoseconds since some epoch.
-/

namespace EverythingImu

/-- `[u8; 6]`. -/
abbrev Mac := Vector UInt8 6

/-- A monotonic clock reading, in nanoseconds. -/
abbrev Instant := Nat

/-- `now.duration_since(start).as_micros() as u64`. -/
def microsSince (start now : Instant) : UInt64 := UInt64.ofNat ((now - start) / 1000)

inductive DeviceKind where
  | joyConL
  | joyConR
  | proController
  | chargingGripL
  | chargingGripR
  | joyCon2L
  | joyCon2R
  | proController2
  | dualSense
  | dualSenseEdge
  | dualShock4
  | psMoveZcm1
  | psMoveZcm2
  | wii
  | tesla
  | steamDeck
  | steamController
  | hopx
  | threeDs
  | vita
  | dualShock3
  | phone
  | watch
  | gamepad
deriving DecidableEq

/-- Stable device identity. -/
structure DeviceId where
  mac : Mac
  serial : String
deriving DecidableEq

structure DeviceCapabilities where
  hasMagnetometer : Bool
  hasBattery : Bool
  hasRumble : Bool
  nativeImuRateHz : UInt16
deriving DecidableEq

structure DeviceMetadata where
  id : DeviceId
  kind : DeviceKind
  firmware : Option String
  capabilities : DeviceCapabilities
deriving DecidableEq

structure ImuSample where
  /-- Gyroscope in rad/s, body frame. -/
  gyro : Vector Float32 3
  /-- Accelerometer in m/s², body frame. -/
  accel : Vector Float32 3
  /-- Optional magnetometer in µT. -/
  mag : Option (Vector Float32 3)
  timestampUs : UInt64
deriving DecidableEq

structure BatteryState where
  fraction : Float32
  charging : Bool
deriving DecidableEq

inductive ResetKind where
  | yaw
  | full
  | mounting
deriving DecidableEq

inductive ChannelInfo where
  | connected (id : DeviceId)
  | imuSamples (samples : List ImuSample)
  | battery (state : BatteryState)
  | resetRequested (kind : ResetKind)
  | disconnected
deriving DecidableEq

end EverythingImu
