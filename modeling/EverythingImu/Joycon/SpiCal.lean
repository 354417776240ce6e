import EverythingImu.Library.LittleEndian

/-!
# SPI flash calibration blocks

The parser of the 24-byte calibration block (`spi_cal.rs`) and of the 0x21 subcommand reply that carries it
(`report.rs`).  Byte `i` of a buffer is `buf.getD i 0`; every read lies behind a length check, so the default is
never taken.
-/

namespace EverythingImu.Joycon

open LittleEndian

def ACCEL_OFFSET_PLAUSIBLE_ABS : Nat := 2000
def GYRO_OFFSET_PLAUSIBLE_ABS : Nat := 1000
def USER_OVERRIDE_MAGIC : UInt16 := 0xA1B2
def ACCEL_COEFF_NUMERATOR : Float32 := 4.0
def GYRO_COEFF_NUMERATOR : Float32 := 936.0
def NOMINAL_ACCEL_COEFF_G : Float32 := ACCEL_COEFF_NUMERATOR / 16384.0
def NOMINAL_GYRO_COEFF_DPS : Float32 := GYRO_COEFF_NUMERATOR / 13371.0

structure ImuCalibration where
  accelOffset : Vector Int16 3
  accelSensitivity : Option (Vector Int16 3)
  gyroOffset : Vector Int16 3
  gyroSensitivity : Option (Vector Int16 3)
  /-- Per-axis accel scale, g per LSB. -/
  accelCoeffG : Vector Float32 3
  /-- Per-axis gyro scale, dps per LSB. -/
  gyroCoeffDps : Vector Float32 3
  plausibilityWarning : Bool
deriving DecidableEq

def ImuCalibration.zero : ImuCalibration where
  accelOffset := #v[0, 0, 0]
  accelSensitivity := none
  gyroOffset := #v[0, 0, 0]
  gyroSensitivity := none
  accelCoeffG := Vector.replicate 3 NOMINAL_ACCEL_COEFF_G
  gyroCoeffDps := Vector.replicate 3 NOMINAL_GYRO_COEFF_DPS
  plausibilityWarning := false

/-- One axis of `axis_coeffs`: `numerator / (sensitivity - offset)`, or `nominal` when the denominator is degenerate
or the quotient leaves the 0.5×–2.0× band around `nominal`. -/
def axisCoeff (sens offset : Int16) (numerator nominal : Float32) : Float32 :=
  let denom := Float32.ofInt sens.toInt - Float32.ofInt offset.toInt
  if denom.abs ≤ 1.0 then nominal
  else
    let coeff := numerator / denom
    if coeff.isFinite && coeff > nominal * 0.5 && coeff < nominal * 2.0 then coeff else nominal

def axisCoeffs (sensitivity : Option (Vector Int16 3)) (offset : Vector Int16 3) (numerator nominal : Float32) :
    Vector Float32 3 :=
  match sensitivity with
  | none => Vector.replicate 3 nominal
  | some sens => Vector.zipWith (fun s o => axisCoeff s o numerator nominal) sens offset

inductive SpiError where
  | wrongLength (got : Nat)
deriving DecidableEq

def isZerosOrFf (bytes : List UInt8) : Bool := bytes.all (· == 0x00) || bytes.all (· == 0xFF)

def plausibleOffset (values : Vector Int16 3) (absMax : Nat) : Bool :=
  values.all fun v => v.toInt.natAbs ≤ absMax

def parseFactoryBlock (block : List UInt8) : Except SpiError ImuCalibration :=
  if block.length < 24 then .error (.wrongLength block.length)
  else
    let accelOffset := readI16x3 block 0
    let accelSensRaw := readI16x3 block 6
    let gyroOffset := readI16x3 block 12
    let gyroSensRaw := readI16x3 block 18
    let accelSensitivity := if isZerosOrFf ((block.drop 6).take 6) then none else some accelSensRaw
    let gyroSensitivity := if isZerosOrFf ((block.drop 18).take 6) then none else some gyroSensRaw
    let plausibilityWarning := !plausibleOffset accelOffset ACCEL_OFFSET_PLAUSIBLE_ABS ||
      !plausibleOffset gyroOffset GYRO_OFFSET_PLAUSIBLE_ABS
    let accelOffset := if plausibilityWarning then #v[0, 0, 0] else accelOffset
    let gyroOffset := if plausibilityWarning then #v[0, 0, 0] else gyroOffset
    .ok
      { accelOffset
        accelSensitivity
        gyroOffset
        gyroSensitivity
        -- an implausible block is not trusted for its sensitivity either
        accelCoeffG :=
          if plausibilityWarning then Vector.replicate 3 NOMINAL_ACCEL_COEFF_G
          else axisCoeffs accelSensitivity accelOffset ACCEL_COEFF_NUMERATOR NOMINAL_ACCEL_COEFF_G
        gyroCoeffDps :=
          if plausibilityWarning then Vector.replicate 3 NOMINAL_GYRO_COEFF_DPS
          else axisCoeffs gyroSensitivity gyroOffset GYRO_COEFF_NUMERATOR NOMINAL_GYRO_COEFF_DPS
        plausibilityWarning }

def userOverrideMagicPresent (magicBytes : List UInt8) : Bool :=
  if magicBytes.length < 2 then false
  else u16FromLe (magicBytes.getD 0 0) (magicBytes.getD 1 0) == USER_OVERRIDE_MAGIC

structure SpiReadReply where
  addr : UInt32
  data : List UInt8
deriving DecidableEq

/-- `parse_0x21_spi_reply`. -/
def parse0x21SpiReply (buf : List UInt8) : Option SpiReadReply :=
  if buf.length < 20 then none
  else if buf.getD 0 0 ≠ 0x21 then none
  -- a failed reply carries no valid payload
  else if buf.getD 13 0 ≠ 0x90 then none
  else if buf.getD 14 0 ≠ 0x10 then none
  else
    let addr := u32FromLe (buf.getD 15 0) (buf.getD 16 0) (buf.getD 17 0) (buf.getD 18 0)
    let len := (buf.getD 19 0).toNat
    if buf.length < 20 + len then none else some ⟨addr, (buf.drop 20).take len⟩

end EverythingImu.Joycon
