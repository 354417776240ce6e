import EverythingImu.DeviceTraits
import EverythingImu.Library.Buffer

/-!
# The remote protocol

`parse` (`device-remote/src/protocol.rs`): one datagram is a magic number, a version, a message type and a payload that
is indexed by hand, least significant byte first.  A `None` of the source is a failure.  Every `f32` is kept by its bit
pattern, and `ImuSampleBits` and `BatteryBits` stand for a sample and a battery state whose numbers are not read yet.
-/

namespace EverythingImu.Remote

open Buffer Words

def MAGIC : List UInt8 := [0x45, 0x49, 0x4D, 0x55]
def VERSION : UInt8 := 1

@[match_pattern] def MSG_HELLO : UInt8 := 0x01
@[match_pattern] def MSG_HELLO_ACK : UInt8 := 0x02
@[match_pattern] def MSG_ANNOUNCE : UInt8 := 0x03
@[match_pattern] def MSG_REMOVE : UInt8 := 0x04
@[match_pattern] def MSG_IMU : UInt8 := 0x05
@[match_pattern] def MSG_BATTERY : UInt8 := 0x06
@[match_pattern] def MSG_BUTTON : UInt8 := 0x07
@[match_pattern] def MSG_RUMBLE : UInt8 := 0x08
@[match_pattern] def MSG_IMU2 : UInt8 := 0x09

@[match_pattern] def KIND_PHONE : UInt8 := 1
@[match_pattern] def KIND_WATCH : UInt8 := 2
@[match_pattern] def KIND_JOYCON2_L : UInt8 := 3
@[match_pattern] def KIND_JOYCON2_R : UInt8 := 4
@[match_pattern] def KIND_PRO_CONTROLLER_2 : UInt8 := 5
@[match_pattern] def KIND_HOPX : UInt8 := 6
@[match_pattern] def KIND_DUALSENSE : UInt8 := 7
@[match_pattern] def KIND_DUALSHOCK4 : UInt8 := 8
@[match_pattern] def KIND_JOYCON_L : UInt8 := 9
@[match_pattern] def KIND_JOYCON_R : UInt8 := 10
@[match_pattern] def KIND_PRO_CONTROLLER : UInt8 := 11
@[match_pattern] def KIND_GAMEPAD : UInt8 := 12

def HEADER_LEN : Nat := 6
def SAMPLE_LEN : Nat := 8 + 12 + 12 + 1 + 12

/-- `[f32; 3]`. -/
abbrev F32x3 := F32 × F32 × F32

structure ImuSampleBits where
  gyro : F32x3
  accel : F32x3
  mag : Option F32x3
  timestampUs : UInt64
deriving DecidableEq

structure BatteryBits where
  fraction : F32
  charging : Bool
deriving DecidableEq

structure Announce where
  handle : UInt16
  kind : DeviceKind
  mac : Mac
  hasMag : Bool
  hasBattery : Bool
  hasRumble : Bool
  rateHz : UInt16
  name : String
deriving DecidableEq

inductive RemoteMsg where
  /-- `ts` is the sender's clock, from newer phones only. -/
  | hello (uuid : Vector UInt8 16) (name : String) (ts : Option UInt64)
  | announce (a : Announce)
  | remove (handle : UInt16)
  /-- `seq` is the send counter of the second form of the message. -/
  | imu (handle : UInt16) (seq : Option UInt16) (samples : List ImuSampleBits)
  | battery (handle : UInt16) (battery : BatteryBits)
  | button (handle : UInt16) (reset : ResetKind)
deriving DecidableEq

def kindFromWire : UInt8 → Option DeviceKind
  | KIND_PHONE => some .phone
  | KIND_WATCH => some .watch
  | KIND_JOYCON2_L => some .joyCon2L
  | KIND_JOYCON2_R => some .joyCon2R
  | KIND_PRO_CONTROLLER_2 => some .proController2
  | KIND_HOPX => some .hopx
  | KIND_DUALSENSE => some .dualSense
  | KIND_DUALSHOCK4 => some .dualShock4
  | KIND_JOYCON_L => some .joyConL
  | KIND_JOYCON_R => some .joyConR
  | KIND_PRO_CONTROLLER => some .proController
  | KIND_GAMEPAD => some .gamepad
  | _ => none

/-- A value, or the rejection of the datagram. -/
def orReject {α : Type} : Option α → Outcome Unit α
  | some a => .ok a
  | none => .fail ()

/-! ### Samples -/

def f32x3 (p : List UInt8) (o : Nat) : Outcome Unit F32x3 := do
  let x ← leWord F32 p o
  let y ← leWord F32 p (o + 4)
  let z ← leWord F32 p (o + 8)
  return (x, y, z)

def parseMag (p : List UInt8) (off : Nat) (hasMag : Bool) : Outcome Unit (Option F32x3) :=
  if hasMag then do
    let mag ← f32x3 p (off + 33)
    return some mag
  else .ok none

/-- The sample at offset `off`. -/
def parseSample (p : List UInt8) (off : Nat) : Outcome Unit ImuSampleBits := do
  let ts := ofLe (← slice p off (off + 8))
  let hasMag := (← byteAt p (off + 32)) != 0
  let gyro ← f32x3 p (off + 8)
  let accel ← f32x3 p (off + 20)
  let mag ← parseMag p off hasMag
  return ⟨gyro, accel, mag, ts⟩

def parseSamples (p : List UInt8) (off : Nat) : Nat → Outcome Unit (List ImuSampleBits)
  | 0 => .ok []
  | n + 1 => do
    let sample ← parseSample p off
    let samples ← parseSamples p (off + SAMPLE_LEN) n
    return sample :: samples

/-- The sample burst of both IMU messages; `extra` is the number of bytes between the handle and the count. -/
def parseImuSamples (p : List UInt8) (extra : Nat) : Outcome Unit (UInt16 × List ImuSampleBits) := do
  ensure () (3 + extra ≤ p.length)
  let handle ← leWord UInt16 p 0
  let count := (← byteAt p (2 + extra)).toNat
  let base := 3 + extra
  ensure () (base + count * SAMPLE_LEN ≤ p.length)
  let samples ← parseSamples p base count
  return (handle, samples)

/-! ### Messages -/

/-- The clock that stands behind the name of a hello. -/
def parseClock (tail : List UInt8) : Outcome Unit (Option UInt64) :=
  if 8 ≤ tail.length then do
    let ts ← slice tail 0 8
    return some (ofLe ts)
  else .ok none

def parseHello (p : List UInt8) : Outcome Unit RemoteMsg := do
  ensure () (17 ≤ p.length)
  let uuid ← copyFromSlice 16 (← slice p 0 16)
  let n := (← byteAt p 16).toNat
  ensure () (17 + n ≤ p.length)
  let name ← orReject (ofUtf8? (← slice p 17 (17 + n)))
  let tail ← slice p (17 + n) p.length
  let ts ← parseClock tail
  return .hello uuid name ts

def parseAnnounce (p : List UInt8) : Outcome Unit RemoteMsg := do
  ensure () (15 ≤ p.length)
  let handle ← leWord UInt16 p 0
  let kind ← orReject (kindFromWire (← byteAt p 2))
  let mac ← copyFromSlice 6 (← slice p 3 9)
  let n := (← byteAt p 14).toNat
  ensure () (15 + n ≤ p.length)
  let name ← orReject (ofUtf8? (← slice p 15 (15 + n)))
  let hasMag := (← byteAt p 9) != 0
  let hasBattery := (← byteAt p 10) != 0
  let hasRumble := (← byteAt p 11) != 0
  let rateHz ← leWord UInt16 p 12
  return .announce { handle, kind, mac, hasMag, hasBattery, hasRumble, rateHz, name }

def parseRemove (p : List UInt8) : Outcome Unit RemoteMsg := do
  ensure () (2 ≤ p.length)
  let handle ← leWord UInt16 p 0
  return .remove handle

def parseImu (p : List UInt8) : Outcome Unit RemoteMsg := do
  let (handle, samples) ← parseImuSamples p 0
  return .imu handle none samples

def parseImu2 (p : List UInt8) : Outcome Unit RemoteMsg := do
  ensure () (5 ≤ p.length)
  let seq ← leWord UInt16 p 2
  let (handle, samples) ← parseImuSamples p 2
  return .imu handle (some seq) samples

def parseBattery (p : List UInt8) : Outcome Unit RemoteMsg := do
  ensure () (7 ≤ p.length)
  let handle ← leWord UInt16 p 0
  let fraction ← leWord F32 p 2
  let charging := (← byteAt p 6) != 0
  return .battery handle ⟨fraction, charging⟩

def parseButton (p : List UInt8) : Outcome Unit RemoteMsg := do
  ensure () (3 ≤ p.length)
  let reset := if (← byteAt p 2) = 0 then ResetKind.yaw else .full
  let handle ← leWord UInt16 p 0
  return .button handle reset

/-- The arms of `parse`, one for each message type. -/
def parsePayload (msg : UInt8) (p : List UInt8) : Outcome Unit RemoteMsg :=
  match msg with
  | MSG_HELLO => parseHello p
  | MSG_ANNOUNCE => parseAnnounce p
  | MSG_REMOVE => parseRemove p
  | MSG_IMU => parseImu p
  | MSG_IMU2 => parseImu2 p
  | MSG_BATTERY => parseBattery p
  | MSG_BUTTON => parseButton p
  | _ => .fail ()

def parse (buf : List UInt8) : Outcome Unit RemoteMsg := do
  ensure () (HEADER_LEN ≤ buf.length)
  ensure () ((← slice buf 0 4) = MAGIC)
  ensure () ((← byteAt buf 4) = VERSION)
  let msg ← byteAt buf 5
  let p ← slice buf HEADER_LEN buf.length
  parsePayload msg p

/-! ### Answers -/

def encodeHelloAck : List UInt8 := MAGIC ++ [VERSION, MSG_HELLO_ACK, VERSION]

/-- The clock of the hello goes back, if it carried one. -/
def encodeHelloAckEcho : Option UInt64 → List UInt8
  | some ts => encodeHelloAck ++ toLe ts
  | none => encodeHelloAck

def encodeRumble (handle : UInt16) (intensity : F32) : List UInt8 :=
  MAGIC ++ [VERSION, MSG_RUMBLE] ++ toLe handle ++ toLe intensity

/-- A removal of handle 9. -/
example : parse [0x45, 0x49, 0x4D, 0x55, 1, 4, 9, 0] = .ok (.remove 9) := by decide

end EverythingImu.Remote
