import EverythingImu.Library.Reader
import EverythingImu.SlimeTracker.Bundle
import EverythingImu.SlimeTracker.ServerBound

/-!
# Reading packets

The derived decoders of the serverbound and clientbound packets (`serverbound.rs`, `clientbound.rs`), and
`deserialize_from` (`lib.rs`), which rejects a datagram with bytes left over.  A decoder reads the fields of the packet
that the tag names, in order, and keeps the id of a variant that it does not know.
-/

namespace EverythingImu.SlimeTracker

open Words

/-! ### Enumerations -/

instance : VariantType BoardType where
  Id := UInt32
  word := inferInstance
  decEq := inferInstance
  id := BoardType.id
  known := [.unknown, .slimeVRLegacy, .slimeVRDev, .nodeMCU, .custom, .wRoom32, .wemosD1Mini, .ttgoTBase, .esp01,
    .slimeVR, .lolinC3Mini, .beetle32C3, .esp32C3DevKitM1, .thirdPartyAndroid, .wrangler, .mocopi, .wemosWroom02,
    .xiaoEsp32C3, .haritora, .devReserved]
  unknownVariant := some .unknownVariant
  id_injective := by decide
  id_unknown u hu i := by
    obtain rfl := Option.some.inj hu
    rfl

instance : VariantType ImuType where
  Id := UInt8
  word := inferInstance
  decEq := inferInstance
  id := ImuType.id
  known := [.unknown, .mpu9250, .mpu6500, .bno080, .bno085, .bno055, .mpu6050, .bno086, .bmi160, .icm20948, .icm42688,
    .bmi270, .lsm6ds3trc, .lsm6dsv, .lsm6dso, .lsm6dsr, .icm45686, .icm45605, .adcResistance, .devReserved]
  unknownVariant := some .unknownVariant
  id_injective := by decide
  id_unknown u hu i := by
    obtain rfl := Option.some.inj hu
    rfl

instance : VariantType McuType where
  Id := UInt32
  word := inferInstance
  decEq := inferInstance
  id := McuType.id
  known := [.unknown, .esp8266, .esp32, .thirdPartyAndroid, .wrangler, .thirdPartyIos, .esp32C3, .mocopi, .haritora,
    .devReserved]
  unknownVariant := some .unknownVariant
  id_injective := by decide
  id_unknown u hu i := by
    obtain rfl := Option.some.inj hu
    rfl

instance : VariantType SensorStatus where
  Id := UInt8
  word := inferInstance
  decEq := inferInstance
  id := SensorStatus.id
  known := [.offline, .ok]
  unknownVariant := none
  id_injective := by decide
  id_unknown := nofun

instance : VariantType SensorDataType where
  Id := UInt8
  word := inferInstance
  decEq := inferInstance
  id := SensorDataType.id
  known := [.normal, .correction]
  unknownVariant := none
  id_injective := by decide
  id_unknown := nofun

instance : VariantType ActionType where
  Id := UInt8
  word := inferInstance
  decEq := inferInstance
  id := ActionType.id
  known := [.resetFull, .resetYaw, .resetMounting, .pauseTracking]
  unknownVariant := some .unknownVariant
  id_injective := by decide
  id_unknown u hu i := by
    obtain rfl := Option.some.inj hu
    rfl

instance : VariantType TrackerPosition where
  Id := UInt8
  word := inferInstance
  decEq := inferInstance
  id := TrackerPosition.id
  known := [.none, .head, .neck, .upperChest, .chest, .waist, .hip, .leftUpperLeg, .rightUpperLeg, .leftLowerLeg,
    .rightLowerLeg, .leftFoot, .rightFoot]
  unknownVariant := some .unknownVariant
  id_injective := by decide
  id_unknown u hu i := by
    obtain rfl := Option.some.inj hu
    rfl

instance : VariantType TrackerDataType where
  Id := UInt8
  word := inferInstance
  decEq := inferInstance
  id := TrackerDataType.id
  known := [.rotation, .flexResistance, .flexAngle]
  unknownVariant := none
  id_injective := by decide
  id_unknown := nofun

/-! ### Fields -/

def readWord (W : Type) [Word W] : Reader DekuError W := takeWord .incomplete W

def readInt32 : Reader DekuError Int32 := UInt32.toInt32 <$> readWord UInt32

def readVariant (α : Type) [VariantType α] : Reader DekuError α := VariantType.read .incomplete .parse

def readVector3 : Reader DekuError (F32 × F32 × F32) := do
  let x ← readWord F32
  let y ← readWord F32
  let z ← readWord F32
  return (x, y, z)

def readSlimeQuaternion : Reader DekuError SlimeQuaternion := do
  let i ← readWord F32
  let j ← readWord F32
  let k ← readWord F32
  let w ← readWord F32
  return ⟨i, j, k, w⟩

def readSlimeString : Reader DekuError SlimeString := do
  let count ← readWord UInt8
  let data ← takeBytes .incomplete count.toNat
  return ⟨count, data⟩

/-! ### Packets to the server -/

/-- The fields of the packet that the tag names. -/
def SbPacket.read (tag : UInt32) : Reader DekuError SbPacket :=
  match tag with
  | 0 => do return .heartbeat (← readWord UInt8)
  | 3 => do
    let board ← readVariant BoardType
    let _pad ← takeVector .incomplete 3
    let imu ← readVariant ImuType
    let mcu ← readVariant McuType
    let info0 ← readInt32
    let info1 ← readInt32
    let info2 ← readInt32
    let protocolVersion ← readInt32
    let firmware ← readSlimeString
    let macAddress ← takeVector .incomplete 6
    return .handshake board imu mcu (info0, info1, info2) protocolVersion firmware macAddress
  | 4 => do
    let vector ← readVector3
    let sensorId ← readWord UInt8
    return .acceleration vector sensorId
  | 5 => do
    let sensorId ← readWord UInt8
    let dataType ← readVariant SensorDataType
    let vector ← readVector3
    let calibrationInfo ← readWord UInt8
    return .magnetometer sensorId dataType vector calibrationInfo
  | 10 => do return .ping (← takeVector .incomplete 4)
  | 12 => do
    let voltageVolts ← readWord F32
    let level ← readWord F32
    return .batteryLevel voltageVolts level
  | 15 => do
    let sensorId ← readWord UInt8
    let sensorStatus ← readVariant SensorStatus
    let sensorType ← readVariant ImuType
    let sensorConfig ← readWord UInt16
    let hasCompletedRestCalibration ← readWord UInt8
    let trackerPosition ← readVariant TrackerPosition
    let trackerDataType ← readVariant TrackerDataType
    return .sensorInfo sensorId sensorStatus sensorType sensorConfig hasCompletedRestCalibration trackerPosition
      trackerDataType
  | 17 => do
    let sensorId ← readWord UInt8
    let dataType ← readVariant SensorDataType
    let quat ← readSlimeQuaternion
    let calibrationInfo ← readWord UInt8
    return .rotationData sensorId dataType quat calibrationInfo
  | 21 => do return .userAction (← readVariant ActionType)
  | 22 => .featureFlags <$> takeRest
  | 24 => do
    let sensorId ← readWord UInt8
    let configType ← readWord UInt16
    return .ackConfigChange sensorId configType
  | 100 => .bundle <$> takeRest
  | _ => throw .parse

/-! ### Packets from the server -/

inductive CbPacket where
  | discovery
  | heartbeat
  | ping (challenge : Vector UInt8 4)
  | featureFlags (flagBytes : List UInt8)
  | setConfigFlag (sensorId : UInt8) (configType : UInt16) (state : UInt8)
  | handshakeResponse (payload : List UInt8)
deriving DecidableEq

namespace CbPacket

def dekuId : CbPacket → UInt32
  | discovery => 0
  | heartbeat => 1
  | ping .. => 10
  | featureFlags .. => 22
  | setConfigFlag .. => 25
  | handshakeResponse .. => 55076217

def body : CbPacket → List UInt8
  | discovery => []
  | heartbeat => []
  | ping challenge => challenge.toList
  | featureFlags flagBytes => flagBytes
  | setConfigFlag sensorId configType state => sensorId :: toBe configType ++ [state]
  | handshakeResponse payload => payload

def read (tag : UInt32) : Reader DekuError CbPacket :=
  match tag with
  | 0 => return .discovery
  | 1 => return .heartbeat
  | 10 => do return .ping (← takeVector .incomplete 4)
  | 22 => .featureFlags <$> takeRest
  | 25 => do
    let sensorId ← readWord UInt8
    let configType ← readWord UInt16
    let state ← readWord UInt8
    return .setConfigFlag sensorId configType state
  | 55076217 => .handshakeResponse <$> takeRest
  | _ => throw .parse

end CbPacket

/-! ### Whole datagrams -/

/-- The wrapper of a packet: a tag, a sequence number and the fields. -/
def readPacket {D : Type} (read : UInt32 → Reader DekuError D) : Reader DekuError (UInt32 × UInt64 × D) := do
  let tag ← readWord UInt32
  let seq ← readWord UInt64
  let data ← read tag
  return (tag, seq, data)

/-- `deserialize_from`: bytes left over are an error. -/
def deserializeFrom {P : Type} (read : Reader DekuError P) (buf : List UInt8) : Except DeserializeError P :=
  match read.run buf with
  | .ok (packet, []) => .ok packet
  | .ok (_, _ :: _) => .error .bytesRemaining
  | .error e => .error (.deku e)

def Packet.deserializeFrom (buf : List UInt8) : Except DeserializeError Packet :=
  SlimeTracker.deserializeFrom ((fun (tag, seq, data) => ⟨tag, seq, data⟩) <$> readPacket SbPacket.read) buf

/-- `Packet` around a clientbound packet. -/
structure CbDatagram where
  tag : UInt32
  seq : UInt64
  data : CbPacket
deriving DecidableEq

namespace CbDatagram

def new (seq : UInt64) (data : CbPacket) : CbDatagram := ⟨data.dekuId, seq, data⟩

def toBytes (p : CbDatagram) : List UInt8 := toBe p.tag ++ toBe p.seq ++ p.data.body

def deserializeFrom (buf : List UInt8) : Except DeserializeError CbDatagram :=
  SlimeTracker.deserializeFrom ((fun (tag, seq, data) => ⟨tag, seq, data⟩) <$> readPacket CbPacket.read) buf

end CbDatagram

end EverythingImu.SlimeTracker
