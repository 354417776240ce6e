import EverythingImu.Core.PipelineConfig

/-!
# Per-device settings

The settings of a device as texts under keys that end in its MAC (`persistence/src/settings.rs`), and the configuration
that a pipeline gets from them (`pipeline_config_from_settings` in `app_state.rs`).  A missing text, or one that cannot
be read, stands for the default.
-/

namespace EverythingImu.Core

/-! ### Texts -/

/-- `str::parse` and `serde_json::from_str`, which give nothing for a text they cannot read. -/
structure SettingParsers where
  parseF32 : String → Option Float32
  parseI32 : String → Option Int32
  magCalibrationFromJson : String → Option MagCalibration

def FusionAlgo.fromSetting (s : String) : FusionAlgo :=
  match s with
  | "madgwick" => .madgwick
  | "basic_vqf" => .basicVqf
  | _ => .vqf

def FusionAlgo.toSetting : FusionAlgo → String
  | .vqf => "vqf"
  | .madgwick => "madgwick"
  | .basicVqf => "basic_vqf"

def MountingOrientation.fromSetting (s : String) : MountingOrientation :=
  match s with
  | "left_side" => .leftSide
  | "right_side" => .rightSide
  | "upside_down" => .upsideDown
  | "facing_forward" => .facingForward
  | "facing_back" => .facingBack
  | _ => .identity

def MountingOrientation.toSetting : MountingOrientation → String
  | .identity => "identity"
  | .leftSide => "left_side"
  | .rightSide => "right_side"
  | .upsideDown => "upside_down"
  | .facingForward => "facing_forward"
  | .facingBack => "facing_back"

theorem FusionAlgo.fromSetting_toSetting (algo : FusionAlgo) : fromSetting algo.toSetting = algo := by
  cases algo <;> rfl

theorem MountingOrientation.fromSetting_toSetting (mounting : MountingOrientation) :
    fromSetting mounting.toSetting = mounting := by
  cases mounting <;> rfl

def eqIgnoreAsciiCase (s t : String) : Bool := s.toList.map Char.toLower == t.toList.map Char.toLower

/-- How a flag is read. -/
def flagFromSetting (s : String) : Bool := s == "1" || eqIgnoreAsciiCase s "true"

/-! ### Keys -/

/-- `{b:02x}`. -/
def hexByte (b : UInt8) : String := .ofList [Nat.digitChar (b.toNat / 16), Nat.digitChar (b.toNat % 16)]

def macKey (mac : Mac) : String := .join (mac.toList.map hexByte)

/-- The settings of a device that the pipeline reads. -/
inductive SettingKey where
  | fusionAlgo
  | mountingOrientation
  | magCal
  | magnetometerEnabled
  | rotationOffsetDeg
  | gyroScale
deriving DecidableEq

def SettingKey.name : SettingKey → String
  | fusionAlgo => "fusion_algo:"
  | mountingOrientation => "mounting_orientation:"
  | magCal => "mag_cal:"
  | magnetometerEnabled => "magnetometer_enabled:"
  | rotationOffsetDeg => "rotation_offset_deg:"
  | gyroScale => "gyro_scale:"

/-- The key of a setting in the store. -/
def SettingKey.of (key : SettingKey) (mac : Mac) : String := key.name ++ macKey mac

theorem SettingKey.name_injective {key key' : SettingKey} (h : key.name = key'.name) : key = key' := by
  cases key <;> cases key' <;> first | rfl | exact absurd h (by decide)

/-- The settings of a device are under different keys. -/
theorem SettingKey.of_inj {key key' : SettingKey} {mac : Mac} : key.of mac = key'.of mac ↔ key = key' := by
  constructor
  · intro h
    exact name_injective ((String.append_left_inj (macKey mac)).1 h)
  · rintro rfl
    rfl

/-! ### The store -/

/-- The rows of the settings table. -/
abbrev SettingsTable := String → Option String

/-- `set_setting`. -/
def SettingsTable.set (table : SettingsTable) (key value : String) : SettingsTable :=
  fun k => if k = key then some value else table k

@[simp]
theorem SettingsTable.set_same (table : SettingsTable) (key value : String) : table.set key value key = some value :=
  if_pos rfl

theorem SettingsTable.set_other (table : SettingsTable) {key key' : String} (value : String) (h : key' ≠ key) :
    table.set key value key' = table key' :=
  if_neg h

/-- `get_setting` of the database; a query can fail. -/
structure PersistenceDb (ε : Type) where
  getSetting : String → Except ε (Option String)

/-- `SettingsStore`. -/
structure SettingsStore where
  get : String → Option String
  getRotationOffsetDeg : DeviceId → Float32

variable {ε : Type}

/-- A rotation offset that is no number is none. -/
def rotationOffsetFromSetting (parsers : SettingParsers) (raw : Option String) : Float32 :=
  ((raw.bind parsers.parseF32).filter (·.isFinite)).getD 0.0

/-- A scale that is no positive number is none. -/
def gyroScaleFromSetting (parsers : SettingParsers) (raw : Option String) : Float32 :=
  ((raw.bind parsers.parseF32).filter fun v => v.isFinite && v > 0.0).getD 1.0

/-- A failed query is a missing row. -/
def PersistenceDb.get (db : PersistenceDb ε) (key : String) : Option String :=
  match db.getSetting key with
  | .ok v => v
  | .error _ => none

/-- `SqliteSettingsStore`. -/
def PersistenceDb.settingsStore (db : PersistenceDb ε) (parsers : SettingParsers) : SettingsStore where
  get := db.get
  getRotationOffsetDeg id := rotationOffsetFromSetting parsers (db.get (SettingKey.rotationOffsetDeg.of id.mac))

def pipelineConfigFromSettings (parsers : SettingParsers) (settings : SettingsStore) (id : DeviceId) :
    PipelineConfig :=
  let fusion := ((settings.get (SettingKey.fusionAlgo.of id.mac)).map FusionAlgo.fromSetting).getD .vqf
  let mounting :=
    ((settings.get (SettingKey.mountingOrientation.of id.mac)).map MountingOrientation.fromSetting).getD .identity
  let magCalibration := (settings.get (SettingKey.magCal.of id.mac)).bind parsers.magCalibrationFromJson
  -- an explicit setting overrides the calibration
  let magnetometerEnabled :=
    ((settings.get (SettingKey.magnetometerEnabled.of id.mac)).map flagFromSetting).getD magCalibration.isSome
  { fusion
    mounting
    magnetometerEnabled
    rotationOffsetDeg := settings.getRotationOffsetDeg id
    gyroScale := gyroScaleFromSetting parsers (settings.get (SettingKey.gyroScale.of id.mac))
    magCalibration }

end EverythingImu.Core
