import EverythingImu.DeviceTraits
import EverythingImu.Library.LittleEndian
import EverythingImu.Library.Scalar

/-!
# Samples of the Sony controllers

The input reports of DualSense and DualShock 4 (`device-dualsense/src/report.rs`), of DualShock 3
(`device-dualshock3/src/report.rs`) and of PS Move (`device-psmove/src/report.rs`) as samples.  A DualSense stamps its
samples with the counter of its chip.  A DualShock 3 and a PS Move stamp them with the time at which the report was
read; a PS Move smooths the intervals first (`ReportClock`).
-/

namespace EverythingImu.Sony

open LittleEndian

/-- `buf.get(offset..offset + 2)` as a signed word. -/
def readI16Le (buf : List UInt8) (offset : Nat) : Option Int16 :=
  if offset + 2 ≤ buf.length then some (readI16 buf offset) else none

def readU16Le (buf : List UInt8) (offset : Nat) : Option UInt16 :=
  if offset + 2 ≤ buf.length then some (u16FromLe (buf.getD offset 0) (buf.getD (offset + 1) 0)) else none

def readU32Le (buf : List UInt8) (offset : Nat) : Option UInt32 :=
  if offset + 4 ≤ buf.length then
    some (u32FromLe (buf.getD offset 0) (buf.getD (offset + 1) 0) (buf.getD (offset + 2) 0) (buf.getD (offset + 3) 0))
  else none

/-! ### DualSense and DualShock 4 -/

namespace DualSense

inductive ControllerKind where
  | dualSense
  | dualSenseEdge
  | dualShock4
deriving DecidableEq

structure SonyCalibration where
  gyroBiasDps : Vector Float32 3
  gyroScale : Vector Float32 3
  accelBiasG : Vector Float32 3
  accelScale : Vector Float32 3
deriving DecidableEq

structure ImuOffsets where
  gyro : Nat
  accel : Nat
  battery : Option Nat
  buttons2 : Option Nat
deriving DecidableEq

/-- A Bluetooth report has 78 bytes or more, an USB report 64. -/
def ImuOffsets.forReport (kind : ControllerKind) (len : Nat) : Option ImuOffsets :=
  match kind with
  | .dualSense | .dualSenseEdge =>
    if len = 64 then some ⟨16, 22, some 53, some 10⟩ else if 78 ≤ len then some ⟨17, 23, some 54, some 11⟩ else none
  | .dualShock4 =>
    if len = 64 then some ⟨13, 19, some 30, some 7⟩ else if 78 ≤ len then some ⟨15, 21, some 32, some 9⟩ else none

def DEG_PER_LSB : Float32 := 2000.0 / 32767.0
def RAD_PER_DEG : Float32 := 3.14159265358979323846 / 180.0
def ACCEL_SCALE_G : Float32 := 4.0 / 32767.0

/-- The counter of the chip behind the accelerometer words, in thirds of a microsecond; a DualShock 4 has none. -/
def sensorTimestampUs (kind : ControllerKind) (buf : List UInt8) (offsets : ImuOffsets) : UInt64 :=
  match kind with
  | .dualSense | .dualSenseEdge =>
    match readU32Le buf (offsets.accel + 6) with
    | some ticks => (ticks.toUInt64 + 1) / 3
    | none => 0
  | .dualShock4 => 0

/-- `axis_remap::apply`: the chips are mounted in the frame of the pipeline. -/
def ControllerKind.remap (kind : ControllerKind) (v : Vector Float32 3) : Vector Float32 3 :=
  match kind with
  | .dualSense | .dualSenseEdge => v
  | .dualShock4 => v

/-- The triple of signed words at `offset`. -/
def readTriple (buf : List UInt8) (offset : Nat) : Option (Vector Float32 3) := do
  let x ← readI16Le buf offset
  let y ← readI16Le buf (offset + 2)
  let z ← readI16Le buf (offset + 4)
  return #v[Float32.ofInt x.toInt, Float32.ofInt y.toInt, Float32.ofInt z.toInt]

/-- `(v - bias) * scale` on every axis. -/
def correct (v bias scale : Vector Float32 3) : Vector Float32 3 := .ofFn fun i => (v.get i - bias.get i) * scale.get i

def batteryOf (byte : UInt8) : BatteryState where
  fraction := Scalar.clamp (Float32.ofNat (byte &&& 0x0F).toNat / 10.0) 0.0 1.0
  charging := byte &&& 0x10 != 0

/-- The sample and the battery state that `parse_report` sends, if the report has a known length. -/
def parseReport (kind : ControllerKind) (buf : List UInt8) (calibration : Option SonyCalibration) :
    Option (ImuSample × Option BatteryState) := do
  let offsets ← ImuOffsets.forReport kind buf.length
  let gyroDps := (← readTriple buf offsets.gyro).map (· * DEG_PER_LSB)
  let accelG := (← readTriple buf offsets.accel).map (· * ACCEL_SCALE_G)
  let (gyroDps, accelG) :=
    match calibration with
    | some cal => (correct gyroDps cal.gyroBiasDps cal.gyroScale, correct accelG cal.accelBiasG cal.accelScale)
    | none => (gyroDps, accelG)
  let sample : ImuSample :=
    { gyro := kind.remap (gyroDps.map (· * RAD_PER_DEG))
      accel := kind.remap (accelG.map (· * 9.80665))
      mag := none
      timestampUs := sensorTimestampUs kind buf offsets }
  return (sample, (offsets.battery.bind (buf[·]?)).map batteryOf)

end DualSense

/-! ### DualShock 3 -/

namespace DualShock3

def ACCEL_X : Nat := 41
def ACCEL_Y : Nat := 43
def ACCEL_Z : Nat := 45
def GYRO_Z : Nat := 47
def MIN_LEN : Nat := 49

def G : Float32 := 9.80665
def ZERO : Float32 := 512.0
def ACCEL_LSB_PER_G : Float32 := 113.0
def GYRO_LSB_PER_RAD : Float32 := 123.0

structure Ds3Motion where
  accel : Vector UInt16 3
  gyroZ : UInt16
deriving DecidableEq

def parseInputReport (buf : List UInt8) : Option Ds3Motion :=
  if buf.length < MIN_LEN ∨ buf.getD 0 0 ≠ 0x01 then none
  else
    -- the words are big-endian
    let be (o : Nat) := u16FromLe (buf.getD (o + 1) 0) (buf.getD o 0)
    some ⟨#v[be ACCEL_X, be ACCEL_Y, be ACCEL_Z], be GYRO_Z⟩

def accelMs2 (raw : UInt16) : Float32 := (Float32.ofNat raw.toNat - ZERO) / ACCEL_LSB_PER_G * G

def imuFromMotion (m : Ds3Motion) (start now : Instant) : ImuSample where
  gyro := #v[0.0, 0.0, (Float32.ofNat m.gyroZ.toNat - ZERO) / GYRO_LSB_PER_RAD]
  accel := m.accel.map accelMs2
  mag := none
  timestampUs := microsSince start now

end DualShock3

/-! ### PS Move -/

namespace PsMove

inductive ControllerKind where
  | zcm1
  | zcm2
deriving DecidableEq

def ControllerKind.hasMagnetometer (kind : ControllerKind) : Bool := kind = .zcm1

def OFS_BATTERY : Nat := 12
def OFS_FRAME_A_ACCEL : Nat := 13
def OFS_FRAME_B_ACCEL : Nat := 19
def OFS_FRAME_A_GYRO : Nat := 25
def OFS_FRAME_B_GYRO : Nat := 31
def OFS_MAG : Nat := 38
def REPORT_MIN_LEN : Nat := 49

def G_TO_M_S2 : Float32 := 9.80665
def ACCEL_SCALE_M_S2 : Float32 := G_TO_M_S2 / 16384.0
def DEG_TO_RAD : Float32 := 3.14159265358979323846 / 180.0
def GYRO_SCALE_RAD_S : Float32 := DEG_TO_RAD / 16.4

def NOMINAL_REPORT_DT_US : Float32 := 1_000_000.0 / 175.0

/-- The source of the timestamps: the smoothed interval between the reports, added up. -/
structure ReportClock where
  last : Option Instant
  accumUs : UInt64
  emaDtUs : Float32
deriving DecidableEq

namespace ReportClock

def new : ReportClock := ⟨none, 0, NOMINAL_REPORT_DT_US⟩

/-- The clock after a report that is read at `now`, and the timestamps of its two frames. -/
def tick (c : ReportClock) (now : Instant) : ReportClock × UInt64 × UInt64 :=
  let dtUs :=
    match c.last with
    | some prev => Float32.ofNat ((now - prev) / 1000)
    | none => NOMINAL_REPORT_DT_US
  let ema := c.emaDtUs * 0.9 + dtUs * 0.1
  let dt := (if 1.0 < ema then ema else 1.0).toUInt64
  let frameA := c.accumUs + dt / 2
  let frameB := c.accumUs + dt
  (⟨some now, frameB, ema⟩, frameA, frameB)

end ReportClock

/-- Linear correction, `(raw - bias) * gain`. -/
structure ImuCalibration where
  accelBias : Vector Float32 3
  accelGain : Vector Float32 3
  gyroBias : Vector Float32 3
  gyroGain : Vector Float32 3
deriving DecidableEq

def ImuCalibration.identity : ImuCalibration := ⟨.replicate 3 0.0, .replicate 3 1.0, .replicate 3 0.0, .replicate 3 1.0⟩

def centered (kind : ControllerKind) (raw : UInt16) : Int :=
  match kind with
  | .zcm1 => raw.toNat - 0x8000
  | .zcm2 => raw.toInt16.toInt

def signExtend12 (v : UInt16) : Int :=
  let v := v &&& 0x0FFF
  if v &&& 0x0800 ≠ 0 then v.toNat - 0x1000 else v.toNat

/-- The wire order is X-Z-Y, for both kinds. -/
def deswizzle (_ : ControllerKind) (v : Vector Float32 3) : Vector Float32 3 := #v[v.x, v.z, v.y]

def rawTriple (kind : ControllerKind) (buf : List UInt8) (ofs : Nat) : Option (Vector Float32 3) := do
  let a := centered kind (← readU16Le buf ofs)
  let b := centered kind (← readU16Le buf (ofs + 2))
  let c := centered kind (← readU16Le buf (ofs + 4))
  return deswizzle kind #v[Float32.ofInt a, Float32.ofInt b, Float32.ofInt c]

def parseFrame (kind : ControllerKind) (buf : List UInt8) (accelOfs gyroOfs : Nat) (timestampUs : UInt64)
    (cal : ImuCalibration) : Option ImuSample := do
  let accel := DualSense.correct (← rawTriple kind buf accelOfs) cal.accelBias cal.accelGain
  let gyro := DualSense.correct (← rawTriple kind buf gyroOfs) cal.gyroBias cal.gyroGain
  return ⟨gyro.map (· * GYRO_SCALE_RAD_S), accel.map (· * ACCEL_SCALE_M_S2), none, timestampUs⟩

/-- The packed 12-bit words of the magnetometer. -/
def parseMag (kind : ControllerKind) (buf : List UInt8) : Option (Vector Float32 3) :=
  if OFS_MAG + 5 ≤ buf.length then
    let b (i : Nat) := (buf.getD (OFS_MAG + i) 0).toUInt16
    let x := signExtend12 (((b 0 &&& 0x0F) <<< 8) ||| b 1)
    let z := signExtend12 ((b 2 <<< 4) ||| (b 3 >>> 4))
    let y := signExtend12 (((b 3 &&& 0x0F) <<< 8) ||| b 4)
    some (deswizzle kind #v[Float32.ofInt x, Float32.ofInt z, Float32.ofInt y])
  else none

def parseBattery : UInt8 → Option BatteryState
  | 0x00 => some ⟨0.0, false⟩
  | 0x01 => some ⟨0.2, false⟩
  | 0x02 => some ⟨0.4, false⟩
  | 0x03 => some ⟨0.6, false⟩
  | 0x04 => some ⟨0.8, false⟩
  | 0x05 => some ⟨1.0, false⟩
  | 0xEE => some ⟨0.5, true⟩
  | 0xEF => some ⟨1.0, true⟩
  | _ => none

/-- The clock after the report, and the samples and the battery state that `parse_report` sends. -/
def parseReport (kind : ControllerKind) (buf : List UInt8) (clock : ReportClock) (cal : ImuCalibration)
    (now : Instant) : ReportClock × Option (List ImuSample × Option BatteryState) :=
  if buf.length < REPORT_MIN_LEN then (clock, none)
  else
    let (clock, tsA, tsB) := clock.tick now
    let mag := if kind.hasMagnetometer then parseMag kind buf else none
    let frameA := parseFrame kind buf OFS_FRAME_A_ACCEL OFS_FRAME_A_GYRO tsA cal
    let frameB := parseFrame kind buf OFS_FRAME_B_ACCEL OFS_FRAME_B_GYRO tsB cal
    let samples := (frameA.toList ++ frameB.toList).map fun s => { s with mag }
    if samples.isEmpty then (clock, none)
    else (clock, some (samples, buf[OFS_BATTERY]?.bind parseBattery))

end PsMove

end EverythingImu.Sony
