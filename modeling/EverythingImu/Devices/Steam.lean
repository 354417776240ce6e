import EverythingImu.DeviceTraits
import EverythingImu.Library.LittleEndian

/-!
# Samples of the Steam Deck and the Steam Controller

The state reports of both as samples (`report.rs`, `scale.rs` and `reader_loop` of `device-steam-deck` and
`device-steam-controller`).  The readers stamp a sample with the time since the device was opened; the counter in the
report of the Deck is parsed and not used.
-/

namespace EverythingImu.Steam

open LittleEndian

def STANDARD_GRAVITY : Float32 := 9.80665
def GYRO_FULL_SCALE_DPS : Float32 := 2000.0
def ACCEL_FULL_SCALE_G : Float32 := 2.0
def PI : Float32 := 3.14159265358979323846

def gyroRadS (raw : Int16) : Float32 := Float32.ofInt raw.toInt / 32768.0 * GYRO_FULL_SCALE_DPS * (PI / 180.0)

def accelMS2 (raw : Int16) : Float32 := Float32.ofInt raw.toInt / 32768.0 * ACCEL_FULL_SCALE_G * STANDARD_GRAVITY

/-- The sample of both reader loops. -/
def sampleOf (accelRaw gyroRaw : Vector Int16 3) (epoch now : Instant) : ImuSample where
  gyro := gyroRaw.map gyroRadS
  accel := accelRaw.map accelMS2
  mag := none
  timestampUs := microsSince epoch now

/-! ### Steam Deck -/

namespace Deck

def REPORT_ID_STATE : UInt8 := 0x01
def MIN_REPORT_LEN : Nat := 60

structure DeckInputReport where
  seq : UInt32
  accelRaw : Vector Int16 3
  gyroRaw : Vector Int16 3
deriving DecidableEq

inductive ReportError where
  | tooShort (got : Nat)
  | badReportId (got : UInt8)
deriving DecidableEq

def parse (buf : List UInt8) : Except ReportError DeckInputReport :=
  if buf.length < MIN_REPORT_LEN then .error (.tooShort buf.length)
  else if buf.getD 0 0 ≠ REPORT_ID_STATE then .error (.badReportId (buf.getD 0 0))
  else
    .ok
      { seq := u32FromLe (buf.getD 4 0) (buf.getD 5 0) (buf.getD 6 0) (buf.getD 7 0)
        accelRaw := readI16x3 buf 28
        gyroRaw := readI16x3 buf 34 }

/-- One turn of `reader_loop` with the `buf.length` bytes of a report. -/
def readReport (buf : List UInt8) (epoch now : Instant) : Option ImuSample :=
  if buf.length < MIN_REPORT_LEN then none
  else
    match parse buf with
    | .ok report => some (sampleOf report.accelRaw report.gyroRaw epoch now)
    | .error _ => none

end Deck

/-! ### Steam Controller -/

namespace Controller

def STATE_BODY_LEN : Nat := 64
def IMU_OFFSET_ACCEL : Nat := 20
def IMU_OFFSET_GYRO : Nat := 26
def IMU_OFFSET_QUAT : Nat := 32

structure SteamControllerState where
  accelRaw : Vector Int16 3
  gyroRaw : Vector Int16 3
  quatRaw : Vector Int16 4
deriving DecidableEq

inductive ReportError where
  | tooShort (got : Nat)
deriving DecidableEq

def parseState (body : List UInt8) : Except ReportError SteamControllerState :=
  if body.length < STATE_BODY_LEN then .error (.tooShort body.length)
  else
    .ok
      { accelRaw := readI16x3 body IMU_OFFSET_ACCEL
        gyroRaw := readI16x3 body IMU_OFFSET_GYRO
        quatRaw := .ofFn fun i => readI16 body (IMU_OFFSET_QUAT + 2 * i) }

/-- One turn of `reader_loop` with the `buf.length` bytes of a report. -/
def readReport (buf : List UInt8) (epoch now : Instant) : Option ImuSample :=
  if buf.length < STATE_BODY_LEN then none
  else
    match parseState buf with
    | .ok state => some (sampleOf state.accelRaw state.gyroRaw epoch now)
    | .error _ => none

end Controller

end EverythingImu.Steam
