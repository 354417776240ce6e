import EverythingImu.DeviceTraits
import EverythingImu.Library.Buffer

/-!
# Packets to the server

`SbPacket` (`serverbound.rs`) and the `Packet` wrapper (`lib.rs`): a datagram is the tag of its packet, the sequence
number and the fields of the packet in order, all most significant byte first.  Every enumeration is written as its id.
-/

namespace EverythingImu.SlimeTracker

open Words

/-- Four `f32` in the order X, Y, Z, W. -/
structure SlimeQuaternion where
  i : F32
  j : F32
  k : F32
  w : F32
deriving DecidableEq

/-- A string with a length byte in front. -/
structure SlimeString where
  count : UInt8
  data : List UInt8
deriving DecidableEq

def SLIME_STRING_MAX : Nat := 255

/-- A text that does not fit the length byte is cut off. -/
def SlimeString.ofString (s : String) : SlimeString :=
  let bytes := Buffer.utf8 s
  let data := if bytes.length > SLIME_STRING_MAX then bytes.take SLIME_STRING_MAX else bytes
  ⟨UInt8.ofNat data.length, data⟩

/-- `to_string`: the text that the bytes are, if they are UTF-8. -/
def SlimeString.toString? (s : SlimeString) : Option String := Buffer.ofUtf8? s.data

/-! ### Enumerations -/

inductive BoardType where
  | unknown
  | slimeVRLegacy
  | slimeVRDev
  | nodeMCU
  | custom
  | wRoom32
  | wemosD1Mini
  | ttgoTBase
  | esp01
  | slimeVR
  | lolinC3Mini
  | beetle32C3
  | esp32C3DevKitM1
  | thirdPartyAndroid
  | wrangler
  | mocopi
  | wemosWroom02
  | xiaoEsp32C3
  | haritora
  | devReserved
  | unknownVariant (id : UInt32)
deriving DecidableEq

def BoardType.id : BoardType → UInt32
  | .unknown => 0
  | .slimeVRLegacy => 1
  | .slimeVRDev => 2
  | .nodeMCU => 3
  | .custom => 4
  | .wRoom32 => 5
  | .wemosD1Mini => 6
  | .ttgoTBase => 7
  | .esp01 => 8
  | .slimeVR => 9
  | .lolinC3Mini => 10
  | .beetle32C3 => 11
  | .esp32C3DevKitM1 => 12
  | .thirdPartyAndroid => 13
  | .wrangler => 14
  | .mocopi => 15
  | .wemosWroom02 => 16
  | .xiaoEsp32C3 => 17
  | .haritora => 18
  | .devReserved => 250
  | .unknownVariant id => id

inductive ImuType where
  | unknown
  | mpu9250
  | mpu6500
  | bno080
  | bno085
  | bno055
  | mpu6050
  | bno086
  | bmi160
  | icm20948
  | icm42688
  | bmi270
  | lsm6ds3trc
  | lsm6dsv
  | lsm6dso
  | lsm6dsr
  | icm45686
  | icm45605
  | adcResistance
  | devReserved
  | unknownVariant (id : UInt8)
deriving DecidableEq

def ImuType.id : ImuType → UInt8
  | .unknown => 0
  | .mpu9250 => 1
  | .mpu6500 => 2
  | .bno080 => 3
  | .bno085 => 4
  | .bno055 => 5
  | .mpu6050 => 6
  | .bno086 => 7
  | .bmi160 => 8
  | .icm20948 => 9
  | .icm42688 => 10
  | .bmi270 => 11
  | .lsm6ds3trc => 12
  | .lsm6dsv => 13
  | .lsm6dso => 14
  | .lsm6dsr => 15
  | .icm45686 => 16
  | .icm45605 => 17
  | .adcResistance => 18
  | .devReserved => 250
  | .unknownVariant id => id

inductive McuType where
  | unknown
  | esp8266
  | esp32
  | thirdPartyAndroid
  | wrangler
  | thirdPartyIos
  | esp32C3
  | mocopi
  | haritora
  | devReserved
  | unknownVariant (id : UInt32)
deriving DecidableEq

def McuType.id : McuType → UInt32
  | .unknown => 0
  | .esp8266 => 1
  | .esp32 => 2
  | .thirdPartyAndroid => 3
  | .wrangler => 4
  | .thirdPartyIos => 5
  | .esp32C3 => 6
  | .mocopi => 7
  | .haritora => 8
  | .devReserved => 250
  | .unknownVariant id => id

inductive SensorStatus where
  | offline
  | ok
deriving DecidableEq

def SensorStatus.id : SensorStatus → UInt8
  | .offline => 0
  | .ok => 1

inductive SensorDataType where
  | normal
  | correction
deriving DecidableEq

def SensorDataType.id : SensorDataType → UInt8
  | .normal => 1
  | .correction => 2

inductive ActionType where
  | resetFull
  | resetYaw
  | resetMounting
  | pauseTracking
  | unknownVariant (id : UInt8)
deriving DecidableEq

def ActionType.id : ActionType → UInt8
  | .resetFull => 2
  | .resetYaw => 3
  | .resetMounting => 4
  | .pauseTracking => 5
  | .unknownVariant id => id

inductive TrackerPosition where
  | none
  | head
  | neck
  | upperChest
  | chest
  | waist
  | hip
  | leftUpperLeg
  | rightUpperLeg
  | leftLowerLeg
  | rightLowerLeg
  | leftFoot
  | rightFoot
  | unknownVariant (id : UInt8)
deriving DecidableEq

def TrackerPosition.id : TrackerPosition → UInt8
  | .none => 0
  | .head => 1
  | .neck => 2
  | .upperChest => 3
  | .chest => 4
  | .waist => 5
  | .hip => 6
  | .leftUpperLeg => 7
  | .rightUpperLeg => 8
  | .leftLowerLeg => 9
  | .rightLowerLeg => 10
  | .leftFoot => 11
  | .rightFoot => 12
  | .unknownVariant id => id

inductive TrackerDataType where
  | rotation
  | flexResistance
  | flexAngle
deriving DecidableEq

def TrackerDataType.id : TrackerDataType → UInt8
  | .rotation => 0
  | .flexResistance => 1
  | .flexAngle => 2

/-! ### Packets -/

inductive SbPacket where
  | heartbeat (trackerId : UInt8)
  | handshake (board : BoardType) (imu : ImuType) (mcu : McuType) (imuInfo : Int32 × Int32 × Int32)
      (protocolVersion : Int32) (firmware : SlimeString) (macAddress : Mac)
  | acceleration (vector : F32 × F32 × F32) (sensorId : UInt8)
  | magnetometer (sensorId : UInt8) (dataType : SensorDataType) (vector : F32 × F32 × F32) (calibrationInfo : UInt8)
  | ping (challenge : Vector UInt8 4)
  | batteryLevel (voltageVolts level : F32)
  | sensorInfo (sensorId : UInt8) (sensorStatus : SensorStatus) (sensorType : ImuType) (sensorConfig : UInt16)
      (hasCompletedRestCalibration : UInt8) (trackerPosition : TrackerPosition) (trackerDataType : TrackerDataType)
  | rotationData (sensorId : UInt8) (dataType : SensorDataType) (quat : SlimeQuaternion) (calibrationInfo : UInt8)
  | userAction (action : ActionType)
  | featureFlags (flagBytes : List UInt8)
  | ackConfigChange (sensorId : UInt8) (configType : UInt16)
  | bundle (inner : List UInt8)
deriving DecidableEq

namespace SbPacket

/-- The tag of the packet. -/
def dekuId : SbPacket → UInt32
  | heartbeat .. => 0
  | handshake .. => 3
  | acceleration .. => 4
  | magnetometer .. => 5
  | ping .. => 10
  | batteryLevel .. => 12
  | sensorInfo .. => 15
  | rotationData .. => 17
  | userAction .. => 21
  | featureFlags .. => 22
  | ackConfigChange .. => 24
  | bundle .. => 100

def vector3 (v : F32 × F32 × F32) : List UInt8 := toBe v.1 ++ toBe v.2.1 ++ toBe v.2.2

/-- The fields of the packet, in order. -/
def body : SbPacket → List UInt8
  | heartbeat trackerId => [trackerId]
  | handshake board imu mcu imuInfo protocolVersion firmware macAddress =>
    -- the IMU type is padded to four bytes here, and a single byte in the sensor info
    toBe board.id ++ [0, 0, 0, imu.id] ++ toBe mcu.id ++ toBe imuInfo.1.toUInt32 ++ toBe imuInfo.2.1.toUInt32 ++
      toBe imuInfo.2.2.toUInt32 ++ toBe protocolVersion.toUInt32 ++ firmware.count :: firmware.data ++
      macAddress.toList
  | acceleration vector sensorId => vector3 vector ++ [sensorId]
  | magnetometer sensorId dataType vector calibrationInfo =>
    [sensorId, dataType.id] ++ vector3 vector ++ [calibrationInfo]
  | ping challenge => challenge.toList
  | batteryLevel voltageVolts level => toBe voltageVolts ++ toBe level
  | sensorInfo sensorId sensorStatus sensorType sensorConfig hasCompletedRestCalibration trackerPosition
      trackerDataType =>
    [sensorId, sensorStatus.id, sensorType.id] ++ toBe sensorConfig ++
      [hasCompletedRestCalibration, trackerPosition.id, trackerDataType.id]
  | rotationData sensorId dataType quat calibrationInfo =>
    [sensorId, dataType.id] ++ toBe quat.i ++ toBe quat.j ++ toBe quat.k ++ toBe quat.w ++ [calibrationInfo]
  | userAction action => [action.id]
  | featureFlags flagBytes => flagBytes
  | ackConfigChange sensorId configType => sensorId :: toBe configType
  | bundle inner => inner

end SbPacket

structure Packet where
  tag : UInt32
  seq : UInt64
  data : SbPacket
deriving DecidableEq

namespace Packet

def new (seq : UInt64) (data : SbPacket) : Packet := ⟨data.dekuId, seq, data⟩

def toBytes (p : Packet) : List UInt8 := toBe p.tag ++ toBe p.seq ++ p.data.body

theorem length_header (p : Packet) : (toBe p.tag ++ toBe p.seq).length = 12 := by
  rw [List.length_append, length_toBe, length_toBe]
  rfl

/-- Behind the twelve bytes of the header stands the body. -/
theorem drop_toBytes (p : Packet) : p.toBytes.drop 12 = p.data.body := by
  rw [toBytes, ← length_header p, List.drop_left]

theorem length_toBytes (p : Packet) : p.toBytes.length = 12 + p.data.body.length := by
  rw [toBytes, List.length_append, length_header]

end Packet

/-- The rotation packet with sequence number 1 of sensor 64 in its rest orientation. -/
example : (Packet.new 1 (.rotationData 64 .normal ⟨⟨0⟩, ⟨0⟩, ⟨0⟩, ⟨0x3F800000⟩⟩ 0)).toBytes =
    [0, 0, 0, 17, 0, 0, 0, 0, 0, 0, 0, 1, 64, 1, 0, 0, 0, 0, 0, 0, 0, 0, 0, 0, 0, 0, 63, 128, 0, 0, 0] := by
  decide

end EverythingImu.SlimeTracker
