import EverythingImu.DeviceTraits
import EverythingImu.Joycon.Jc1
import EverythingImu.Library.Scalar

/-!
# Samples of the Joy-Cons

The input reports of both generations as samples: report 0x30 with three samples (`report.rs`, `calibration.rs`,
`axis_remap.rs` and the reader callback of `jc1.rs`), and report 0x05 with one (`jc2.rs`).  Neither stamps a sample.
-/

namespace EverythingImu.Joycon

open LittleEndian

/-! ### Report 0x30 -/

inductive ControllerKind where
  | joyConL
  | joyConR
  | proController
  | chargingGripL
  | chargingGripR
deriving DecidableEq

/-- `axis_remap::apply`: the chip of the right Joy-Con is mounted mirrored. -/
def ControllerKind.remap (kind : ControllerKind) (v : Vector Float32 3) : Vector Float32 3 :=
  match kind with
  | .joyConR | .chargingGripR => #v[v.x, -v.y, -v.z]
  | .joyConL | .proController | .chargingGripL => v

structure ImuRawSample where
  accel : Vector Int16 3
  gyro : Vector Int16 3
deriving DecidableEq

structure ButtonsRaw where
  low : UInt8
  high : UInt8
  shared : UInt8
deriving DecidableEq

structure InputReport0x30 where
  timer : UInt8
  battery : BatteryState
  buttons : ButtonsRaw
  imuSamples : Vector ImuRawSample 3
deriving DecidableEq

inductive ReportError where
  | wrongLength (got : Nat)
  | wrongId (got : UInt8)
deriving DecidableEq

def decodeBattery (byte : UInt8) : BatteryState where
  fraction :=
    match (byte >>> 5) &&& 0x07 with
    | 4 => 1.0
    | 3 => 0.75
    | 2 => 0.50
    | 1 => 0.25
    | _ => 0.05
  charging := byte &&& 0x10 != 0

/-- The raw sample at offset `o`. -/
def parseImuSample (buf : List UInt8) (o : Nat) : ImuRawSample := ⟨readI16x3 buf o, readI16x3 buf (o + 6)⟩

def parse0x30 (buf : List UInt8) : Except ReportError InputReport0x30 :=
  if buf.length < 49 then .error (.wrongLength buf.length)
  else if buf.getD 0 0 ≠ 0x30 then .error (.wrongId (buf.getD 0 0))
  else
    .ok
      { timer := buf.getD 1 0
        battery := decodeBattery (buf.getD 2 0)
        buttons := ⟨buf.getD 3 0, buf.getD 4 0, buf.getD 5 0⟩
        imuSamples := #v[parseImuSample buf 13, parseImuSample buf 25, parseImuSample buf 37] }

def GRAVITY_M_PER_S2 : Float32 := 9.80665
def DEG_TO_RAD : Float32 := 3.14159265358979323846 / 180.0

/-- One axis of `accel_sample_m_s2` and `gyro_sample_rad_s`: the difference from the offset wraps. -/
def axisSample (unit : Float32) (raw offset : Int16) (coeff : Float32) : Float32 :=
  Float32.ofInt (raw - offset).toInt * coeff * unit

def accelSampleMS2 (raw offset : Vector Int16 3) (coeffG : Vector Float32 3) : Vector Float32 3 :=
  .ofFn fun i => axisSample GRAVITY_M_PER_S2 (raw.get i) (offset.get i) (coeffG.get i)

def gyroSampleRadS (raw offset : Vector Int16 3) (coeffDps : Vector Float32 3) : Vector Float32 3 :=
  .ofFn fun i => axisSample DEG_TO_RAD (raw.get i) (offset.get i) (coeffDps.get i)

/-- The sample of a raw one, under the calibration of the moment. -/
def calibratedSample (kind : ControllerKind) (cal : ImuCalibration) (raw : ImuRawSample) : ImuSample where
  gyro := kind.remap (gyroSampleRadS raw.gyro cal.gyroOffset cal.gyroCoeffDps)
  accel := kind.remap (accelSampleMS2 raw.accel cal.accelOffset cal.accelCoeffG)
  mag := none
  timestampUs := 0

/-- The samples that the reader callback makes of a report, if it is a 0x30 report. -/
def jc1Samples (kind : ControllerKind) (cal : ImuCalibration) (buf : List UInt8) : Option (List ImuSample) :=
  -- the callback returns after a 0x21 report
  if buf.head? = some 0x21 then none
  else
    match parse0x30 buf with
    | .ok report => some (report.imuSamples.toList.map (calibratedSample kind cal))
    | .error _ => none

/-! ### Report 0x05 -/

inductive JoyCon2Kind where
  | left
  | right
  /-- The Switch 2 Pro Controller. -/
  | pro
deriving DecidableEq

def REPORT_0X05_LEN : Nat := 0x3C
def BATTERY_MV_MIN : Float32 := 3000.0
def BATTERY_MV_MAX : Float32 := 4200.0
def MAG_MIN_MAGNITUDE_UT : Float32 := 10.0
def MAG_MAX_MAGNITUDE_UT : Float32 := 120.0
def ACCEL_M_S2_PER_LSB : Float32 := 9.80665 / 4096.0
def GYRO_RAD_S_PER_LSB : Float32 := 34.8 / 32767.0
def MAG_UT_PER_LSB : Float32 := 4900.0 / 32767.0

structure ParsedJc2Report where
  sample : ImuSample
  battery : BatteryState
  homePressed : Bool
  capturePressed : Bool
deriving DecidableEq

def remapAxes (kind : JoyCon2Kind) (raw : Vector Float32 3) : Vector Float32 3 :=
  let base := #v[raw.x, raw.z, -raw.y]
  match kind with
  | .left => #v[base.z, base.y, -base.x]
  | .right => #v[-base.z, base.y, base.x]
  | .pro => base

/-- The three words from offset `o` on, in the unit of `scale`. -/
def scaledTriple (kind : JoyCon2Kind) (buf : List UInt8) (o : Nat) (scale : Float32) : Vector Float32 3 :=
  remapAxes kind ((readI16x3 buf o).map fun raw => Float32.ofInt raw.toInt * scale)

/-- The magnetometer reading, when its magnitude is one that the earth's field has. -/
def plausibleMag (mag : Vector Float32 3) : Option (Vector Float32 3) :=
  let norm := (mag.x * mag.x + mag.y * mag.y + mag.z * mag.z).sqrt
  if MAG_MIN_MAGNITUDE_UT ≤ norm ∧ norm < MAG_MAX_MAGNITUDE_UT then some mag else none

def parseInputReport0x05 (kind : JoyCon2Kind) (buf : List UInt8) (magBiasUt : Option (Vector Float32 3)) :
    Option ParsedJc2Report :=
  if buf.length < REPORT_0X05_LEN then none
  else
    let mag := scaledTriple kind buf 0x19 MAG_UT_PER_LSB
    let batteryMv := Float32.ofNat (u16FromLe (buf.getD 0x1F 0) (buf.getD 0x20 0)).toNat
    let fraction := (batteryMv - BATTERY_MV_MIN) / (BATTERY_MV_MAX - BATTERY_MV_MIN)
    some
      { sample :=
          { gyro := scaledTriple kind buf 0x36 GYRO_RAD_S_PER_LSB
            accel := scaledTriple kind buf 0x30 ACCEL_M_S2_PER_LSB
            mag :=
              match magBiasUt with
              | some bias => plausibleMag (.zipWith (· - ·) mag bias)
              | none => plausibleMag mag
            timestampUs := 0 }
        battery := ⟨Scalar.clamp fraction 0.0 1.0, buf.getD 0x21 0 ≥ 0x30⟩
        homePressed := buf.getD 0x05 0 &&& 0x10 != 0
        capturePressed := buf.getD 0x05 0 &&& 0x20 != 0 }

end EverythingImu.Joycon
