import EverythingImu.DeviceTraits

/-!
# From an OSC value to a rumble command

The haptic configuration (`config.rs`) and the rule lookup (`mapping.rs`): every rule whose address matches gives one
command, in the order of the rules.
-/

namespace EverythingImu.OscHaptics

def DEFAULT_OSC_PORT : UInt16 := 9001

inductive HapticMode where
  | proximity (gain minThreshold : Float32)
  | pulse (pulseMs : UInt32)
deriving DecidableEq

structure HapticRule where
  oscAddress : String
  deviceMac : Mac
  mode : HapticMode
deriving DecidableEq

structure HapticConfig where
  enabled : Bool
  listenPort : UInt16
  rules : List HapticRule
deriving DecidableEq

/-- An OSC argument; `other` stands for the types that carry no number the bridge reads. -/
inductive OscType where
  | bool (b : Bool)
  | int (i : Int32)
  | float (f : Float32)
  | double (d : Float)
  | other
deriving DecidableEq

structure OscMessage where
  addr : String
  args : List OscType
deriving DecidableEq

inductive OscPacket where
  | message (msg : OscMessage)
  | bundle (content : List OscPacket)

structure HapticAction where
  deviceMac : Mac
  intensity : Float32
  /-- Hold the intensity for this long, then force it to 0. -/
  pulseMs : Option UInt32
deriving DecidableEq

/-- `f32::clamp(0.0, 1.0)`, with NaN sent to 0. -/
def clamp01 (v : Float32) : Float32 :=
  if v.isNaN then 0.0 else if v < 0.0 then 0.0 else if v > 1.0 then 1.0 else v

def oscValueToF32 : OscType → Option Float32
  | .bool b => some (if b then 1.0 else 0.0)
  | .int i => some (Float32.ofInt i.toInt)
  | .float f => some f
  | .double d => some d.toFloat32
  | .other => none

def applyMode (deviceMac : Mac) (mode : HapticMode) (value : Float32) : HapticAction :=
  match mode with
  | .proximity gain minThreshold =>
    ⟨deviceMac, if value < minThreshold then 0.0 else clamp01 (value * gain), none⟩
  | .pulse pulseMs =>
    if value > 0.5 then ⟨deviceMac, 1.0, some pulseMs⟩ else ⟨deviceMac, 0.0, none⟩

/-- Every rule that matches `address`, as a rumble command. -/
def resolve (rules : List HapticRule) (address : String) (value : Float32) : List HapticAction :=
  (rules.filter fun r => r.oscAddress = address).map fun r => applyMode r.deviceMac r.mode value

end EverythingImu.OscHaptics
