import EverythingImu.Core.Settings

/-!
# The settings page

`get_per_device_settings` (`commands.rs`) reads the settings of a device on its own, with the same fallbacks as the
pipeline but for one: without an explicit setting the magnetometer is shown as on when there is any calibration text,
while the pipeline turns it on when the text can be read.  So the page shows what the pipeline uses unless there is a
text that cannot be read, and no explicit setting (`settings_agree_iff`).
-/

namespace EverythingImu.App

open EverythingImu.Core

inductive FusionAlgoDto where
  | vqf
  | madgwick
  | basicVqf
deriving DecidableEq

/-- The algorithm as the frontend names it. -/
def FusionAlgoDto.ofAlgo : FusionAlgo → FusionAlgoDto
  | .vqf => vqf
  | .madgwick => madgwick
  | .basicVqf => basicVqf

def FusionAlgoDto.fromSetting (s : String) : FusionAlgoDto := ofAlgo (FusionAlgo.fromSetting s)

inductive MountingOrientationDto where
  | identity
  | leftSide
  | rightSide
  | upsideDown
  | facingForward
  | facingBack
deriving DecidableEq

/-- The orientation as the frontend names it. -/
def MountingOrientationDto.ofMounting : MountingOrientation → MountingOrientationDto
  | .identity => identity
  | .leftSide => leftSide
  | .rightSide => rightSide
  | .upsideDown => upsideDown
  | .facingForward => facingForward
  | .facingBack => facingBack

def MountingOrientationDto.fromSetting (s : String) : MountingOrientationDto :=
  ofMounting (MountingOrientation.fromSetting s)

structure PerDeviceSettingsDto where
  fusion : FusionAlgoDto
  mounting : MountingOrientationDto
  magnetometerEnabled : Bool
  rotationOffsetDeg : Float32
  gyroScale : Float32
  label : String
  hidden : Bool
  displayOrder : Int32
  group : String

variable {ε : Type}

/-- A query that fails is the error of the command. -/
def getPerDeviceSettings (parsers : SettingParsers) (db : PersistenceDb ε) (mac : Mac) :
    Except ε PerDeviceSettingsDto := do
  let fusion := ((← db.getSetting (SettingKey.fusionAlgo.of mac)).map FusionAlgoDto.fromSetting).getD .vqf
  let mounting :=
    ((← db.getSetting (SettingKey.mountingOrientation.of mac)).map MountingOrientationDto.fromSetting).getD .identity
  let hasMagCal := ((← db.getSetting (SettingKey.magCal.of mac)).map fun s => !s.isEmpty).getD false
  let magnetometerEnabled :=
    ((← db.getSetting (SettingKey.magnetometerEnabled.of mac)).map flagFromSetting).getD hasMagCal
  let rotationOffsetDeg :=
    rotationOffsetFromSetting parsers (← db.getSetting (SettingKey.rotationOffsetDeg.of mac))
  let gyroScale := gyroScaleFromSetting parsers (← db.getSetting (SettingKey.gyroScale.of mac))
  let label := (← db.getSetting ("tracker_label:" ++ macKey mac)).getD ""
  let hidden := ((← db.getSetting ("tracker_hidden:" ++ macKey mac)).map (· == "1")).getD false
  let displayOrder := ((← db.getSetting ("tracker_order:" ++ macKey mac)).bind parsers.parseI32).getD 0
  let group := (← db.getSetting ("tracker_group:" ++ macKey mac)).getD ""
  return { fusion, mounting, magnetometerEnabled, rotationOffsetDeg, gyroScale, label, hidden, displayOrder, group }

/-- The page shows what the pipeline uses. -/
structure Agree (dto : PerDeviceSettingsDto) (config : PipelineConfig) : Prop where
  fusion : dto.fusion = .ofAlgo config.fusion
  mounting : dto.mounting = .ofMounting config.mounting
  magnetometerEnabled : dto.magnetometerEnabled = config.magnetometerEnabled
  rotationOffsetDeg : dto.rotationOffsetDeg = config.rotationOffsetDeg
  gyroScale : dto.gyroScale = config.gyroScale

/-- There is an explicit magnetometer setting, or no calibration text but one that can be read. -/
def CalibrationReadable (parsers : SettingParsers) (db : PersistenceDb ε) (mac : Mac) : Prop :=
  (db.get (SettingKey.magnetometerEnabled.of mac)).isSome = true ∨
    ∀ json, db.get (SettingKey.magCal.of mac) = some json →
      (json ≠ "" ↔ (parsers.magCalibrationFromJson json).isSome = true)

private theorem except_bind_eq_ok {α β : Type} {x : Except ε α} {f : α → Except ε β} {b : β}
    (h : (x >>= f) = .ok b) : ∃ a, x = .ok a ∧ f a = .ok b := by
  cases x with
  | error e => cases h
  | ok a => exact ⟨a, rfl, h⟩

theorem get_of_ok {db : PersistenceDb ε} {key : String} {v : Option String} (h : db.getSetting key = .ok v) :
    db.get key = v := by
  rw [PersistenceDb.get, h]

/-- What the command returned, by the texts it read. -/
theorem getPerDeviceSettings_ok {parsers : SettingParsers} {db : PersistenceDb ε} {mac : Mac}
    {dto : PerDeviceSettingsDto} (h : getPerDeviceSettings parsers db mac = .ok dto) :
    dto.fusion = ((db.get (SettingKey.fusionAlgo.of mac)).map FusionAlgoDto.fromSetting).getD .vqf ∧
      dto.mounting =
        ((db.get (SettingKey.mountingOrientation.of mac)).map MountingOrientationDto.fromSetting).getD .identity ∧
      dto.magnetometerEnabled =
        ((db.get (SettingKey.magnetometerEnabled.of mac)).map flagFromSetting).getD
          (((db.get (SettingKey.magCal.of mac)).map fun s => !s.isEmpty).getD false) ∧
      dto.rotationOffsetDeg = rotationOffsetFromSetting parsers (db.get (SettingKey.rotationOffsetDeg.of mac)) ∧
      dto.gyroScale = gyroScaleFromSetting parsers (db.get (SettingKey.gyroScale.of mac)) := by
  unfold getPerDeviceSettings at h
  obtain ⟨fusion, hfusion, h⟩ := except_bind_eq_ok h
  obtain ⟨mounting, hmounting, h⟩ := except_bind_eq_ok h
  obtain ⟨magCal, hmagCal, h⟩ := except_bind_eq_ok h
  obtain ⟨enabled, henabled, h⟩ := except_bind_eq_ok h
  obtain ⟨offset, hoffset, h⟩ := except_bind_eq_ok h
  obtain ⟨scale, hscale, h⟩ := except_bind_eq_ok h
  obtain ⟨label, -, h⟩ := except_bind_eq_ok h
  obtain ⟨hidden, -, h⟩ := except_bind_eq_ok h
  obtain ⟨order, -, h⟩ := except_bind_eq_ok h
  obtain ⟨group, -, h⟩ := except_bind_eq_ok h
  obtain rfl := Except.ok.inj h
  rw [get_of_ok hfusion, get_of_ok hmounting, get_of_ok hmagCal, get_of_ok henabled, get_of_ok hoffset,
    get_of_ok hscale]
  exact ⟨rfl, rfl, rfl, rfl, rfl⟩

section Fallbacks

variable {parsers : SettingParsers} (raw : Option String)

theorem fusion_agree : (raw.map FusionAlgoDto.fromSetting).getD .vqf =
    .ofAlgo ((raw.map FusionAlgo.fromSetting).getD .vqf) := by
  cases raw <;> rfl

theorem mounting_agree : (raw.map MountingOrientationDto.fromSetting).getD .identity =
    .ofMounting ((raw.map MountingOrientation.fromSetting).getD .identity) := by
  cases raw <;> rfl

/-- The two rules for the magnetometer, on the texts. -/
theorem magnetometer_agree_iff (explicit json : Option String) :
    ((explicit.map flagFromSetting).getD ((json.map fun s => !s.isEmpty).getD false) =
        (explicit.map flagFromSetting).getD (json.bind parsers.magCalibrationFromJson).isSome) ↔
      explicit.isSome = true ∨
        ∀ s, json = some s → (s ≠ "" ↔ (parsers.magCalibrationFromJson s).isSome = true) := by
  cases explicit with
  | some s => exact iff_of_true rfl (.inl rfl)
  | none =>
    cases json with
    | none => exact iff_of_true rfl (.inr fun s h => nomatch h)
    | some s =>
      have hempty : (!s.isEmpty) = true ↔ s ≠ "" := by simp
      simp only [Option.map_none, Option.getD_none, Option.map_some, Option.getD_some, Option.bind_some,
        Option.isSome_none, Bool.false_eq_true, false_or, Option.some.injEq, forall_eq']
      rw [Bool.eq_iff_iff, hempty]

end Fallbacks

/-- Whatever the store holds: the page shows what the pipeline uses, if and only if no unreadable calibration text
decides about the magnetometer. -/
theorem settings_agree_iff (parsers : SettingParsers) (db : PersistenceDb ε) (id : DeviceId)
    (dto : PerDeviceSettingsDto) (h : getPerDeviceSettings parsers db id.mac = .ok dto) :
    Agree dto (pipelineConfigFromSettings parsers (db.settingsStore parsers) id) ↔
      CalibrationReadable parsers db id.mac := by
  obtain ⟨hfusion, hmounting, henabled, hoffset, hscale⟩ := getPerDeviceSettings_ok h
  rw [CalibrationReadable, ← magnetometer_agree_iff, ← henabled]
  constructor
  · exact fun hagree => hagree.magnetometerEnabled
  · intro hmag
    exact ⟨hfusion.trans (fusion_agree _), hmounting.trans (mounting_agree _), hmag, hoffset, hscale⟩

/-- A row under each of the keys that the page reads. -/
def settingRows : List (String × String) :=
  [("fusion_algo:010101010101", "madgwick"), ("mounting_orientation:010101010101", "left_side"),
    ("mag_cal:010101010101", "level"), ("magnetometer_enabled:010101010101", "0"),
    ("rotation_offset_deg:010101010101", "90"), ("gyro_scale:010101010101", "1.5"),
    ("tracker_label:010101010101", "hip"), ("tracker_hidden:010101010101", "1"), ("tracker_order:010101010101", "3"),
    ("tracker_group:010101010101", "legs")]

/-- What the texts of the rows are read as. -/
def rowParsers : SettingParsers where
  parseF32 s := [("90", (90.0 : Float32)), ("1.5", 1.5)].lookup s
  parseI32 s := [("3", (3 : Int32))].lookup s
  magCalibrationFromJson s := if s = "level" then some ⟨.replicate 3 1.0, 48.0, 0.5, 0.9⟩ else none

/-- With all rows there the page shows none of the defaults, and the pipeline uses what it shows. -/
theorem settings_agree_rows :
    let db : PersistenceDb String := ⟨fun key => .ok (settingRows.lookup key)⟩
    let id : DeviceId := ⟨.replicate 6 1, "a"⟩
    let dto : PerDeviceSettingsDto := ⟨.madgwick, .leftSide, false, 90.0, 1.5, "hip", true, 3, "legs"⟩
    getPerDeviceSettings rowParsers db id.mac = .ok dto ∧
      Agree dto (pipelineConfigFromSettings rowParsers (db.settingsStore rowParsers) id) := by
  intro db id dto
  have h : getPerDeviceSettings rowParsers db id.mac = .ok dto := rfl
  exact ⟨h, (settings_agree_iff rowParsers db id dto h).2 (.inl rfl)⟩

/-- A calibration text that cannot be read, and no explicit setting: the page shows the magnetometer as on, and the
pipeline has it off. -/
theorem unreadable_calibration_shown_on :
    let parsers : SettingParsers := ⟨fun _ => none, fun _ => none, fun _ => none⟩
    let id : DeviceId := ⟨.replicate 6 1, "a"⟩
    let db : PersistenceDb String :=
      ⟨fun key => .ok (if key = "mag_cal:010101010101" then some "not json" else none)⟩
    ∃ dto, getPerDeviceSettings parsers db id.mac = .ok dto ∧ dto.magnetometerEnabled = true ∧
      (pipelineConfigFromSettings parsers (db.settingsStore parsers) id).magnetometerEnabled = false := by
  intro parsers id db
  exact ⟨⟨.vqf, .identity, true, 0.0, 1.0, "", false, 0, ""⟩, rfl, rfl, rfl⟩

end EverythingImu.App
