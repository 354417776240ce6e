import EverythingImu.App.PerDeviceSettings
import EverythingImu.Core.LiveConfig
import EverythingImu.Library.FloatOrder
import EverythingImu.Library.Scalar
import EverythingImu.Library.TextCodec

/-!
# A settings change while a device registers

`register_device` (`app_state.rs`) reads the settings of the device one after another, builds its pipeline from them
and only then inserts the entry in which the live setters find it.  A per-device command (`commands.rs`) writes its
settings first and then applies the values to the entry, if there is one.  A value that is applied after the register
call has read an older text, and before it inserts the entry, reaches the store but not the pipeline
(`change_while_registering_is_lost`).

Along the runs in which this does not happen (`Reaches` with `UpToDate`) the pipeline has the configuration of the
store once both have finished (`config_current_of_reaches`).
-/

namespace EverythingImu.App

open EverythingImu.Core StepRun

/-! ### The commands -/

inductive IpcError where
  | notFound
  | invalid (msg : String)
  | internal (msg : String)
deriving DecidableEq

/-- `to_string` and `serde_json::to_string`. -/
structure SettingPrinters where
  f32ToString : Float32 → String
  magCalibrationToJson : MagCalibration → Except String String

def MountingOrientationDto.toSetting : MountingOrientationDto → String
  | .identity => "identity"
  | .leftSide => "left_side"
  | .rightSide => "right_side"
  | .upsideDown => "upside_down"
  | .facingForward => "facing_forward"
  | .facingBack => "facing_back"

/-- A per-device command that writes settings and applies them to the live entry. -/
inductive SettingsCommand where
  | setGyroScale (scale : Float32)
  | setMountingOrientation (orientation : MountingOrientationDto)
  | setMagnetometerEnabled (enabled : Bool)
  | setDeviceRotationOffset (deg : Float32)
  | applyCalibrationWizard (mounting : MountingOrientationDto) (rotationOffsetDeg : Float32)
      (magnetometerEnabled : Bool)
  /-- With the result of the fit. -/
  | finishMagCalibration (fit : Option MagCalibration)
  | clearMagCalibration

/-- What a command writes to the store, and what it applies to the live entry after that. -/
structure Effects where
  writes : List (SettingKey × String)
  applies : List Setter

variable (parsers : SettingParsers) (printers : SettingPrinters)

def flagToSetting (enabled : Bool) : String := if enabled then "1" else "0"

def SettingsCommand.run : SettingsCommand → Except IpcError Effects
  | .setGyroScale scale =>
    if !scale.isFinite || scale ≤ 0.0 then .error (.invalid "gyro_scale must be finite and > 0")
    else .ok ⟨[(.gyroScale, printers.f32ToString scale)], [.setGyroScale scale]⟩
  | .setMountingOrientation orientation =>
    .ok ⟨[(.mountingOrientation, orientation.toSetting)],
      [.setMountingOrientation (MountingOrientation.fromSetting orientation.toSetting)]⟩
  | .setMagnetometerEnabled enabled =>
    .ok ⟨[(.magnetometerEnabled, flagToSetting enabled)], [.setMagnetometerEnabled enabled]⟩
  | .setDeviceRotationOffset deg =>
    if !deg.isFinite then .error (.invalid "non-finite degrees")
    else .ok ⟨[(.rotationOffsetDeg, printers.f32ToString deg)], [.setRotationOffsetDeg deg]⟩
  | .applyCalibrationWizard mounting rotationOffsetDeg magnetometerEnabled =>
    if !rotationOffsetDeg.isFinite then .error (.invalid "non-finite degrees")
    else
      .ok ⟨[(.mountingOrientation, mounting.toSetting), (.rotationOffsetDeg, printers.f32ToString rotationOffsetDeg),
          (.magnetometerEnabled, flagToSetting magnetometerEnabled)],
        [.setMountingOrientation (MountingOrientation.fromSetting mounting.toSetting),
          .setRotationOffsetDeg rotationOffsetDeg, .setMagnetometerEnabled magnetometerEnabled]⟩
  | .finishMagCalibration fit =>
    match fit with
    | none =>
      .error (.internal ("magnetometer calibration fit failed — rotate the device through more " ++
        "orientations and try again"))
    | some cal =>
      match printers.magCalibrationToJson cal with
      | .error e => .error (.internal e)
      | .ok json =>
        .ok ⟨[(.magCal, json), (.magnetometerEnabled, "1")],
          [.setMagCalibration (some cal), .setMagnetometerEnabled true]⟩
  | .clearMagCalibration => .ok ⟨[(.magCal, "")], [.setMagCalibration none]⟩

/-- A command that fails writes nothing and applies nothing. -/
def SettingsCommand.effects (cmd : SettingsCommand) : Effects :=
  match cmd.run printers with
  | .ok effects => effects
  | .error _ => ⟨[], []⟩

/-! ### The configuration as a function of the texts -/

/-- The texts of the settings of a device. -/
abbrev Texts := SettingKey → Option String

def tableTexts (table : SettingsTable) (mac : Mac) : Texts := fun key => table (key.of mac)

/-- The configuration that the texts stand for. -/
def configOfTexts (texts : Texts) : PipelineConfig where
  fusion := ((texts .fusionAlgo).map FusionAlgo.fromSetting).getD .vqf
  mounting := ((texts .mountingOrientation).map MountingOrientation.fromSetting).getD .identity
  magnetometerEnabled :=
    ((texts .magnetometerEnabled).map flagFromSetting).getD
      ((texts .magCal).bind parsers.magCalibrationFromJson).isSome
  rotationOffsetDeg := rotationOffsetFromSetting parsers (texts .rotationOffsetDeg)
  gyroScale := gyroScaleFromSetting parsers (texts .gyroScale)
  magCalibration := (texts .magCal).bind parsers.magCalibrationFromJson

/-- A table whose queries succeed. -/
def tableDb (table : SettingsTable) : PersistenceDb Empty := ⟨fun key => .ok (table key)⟩

/-- `pipeline_config_from_settings` of the table. -/
def configFromTable (table : SettingsTable) (id : DeviceId) : PipelineConfig :=
  pipelineConfigFromSettings parsers ((tableDb table).settingsStore parsers) id

theorem configFromTable_eq (table : SettingsTable) (id : DeviceId) :
    configFromTable parsers table id = configOfTexts parsers (tableTexts table id.mac) :=
  rfl

/-! ### A register call and a command -/

/-- The order in which the settings are read. -/
def readOrder : List SettingKey :=
  [.fusionAlgo, .mountingOrientation, .magCal, .magnetometerEnabled, .rotationOffsetDeg, .gyroScale]

/-- How far the register call has come. -/
inductive RegisterStage where
  | called
  | reading (todo : List SettingKey)
  /-- The pipeline exists, with the receiver of its configuration. -/
  | built (config : PipelineConfig)
  | returned

structure State where
  table : SettingsTable
  /-- The configuration of the entry in which the setters find the device. -/
  entry : Option PipelineConfig
  register : RegisterStage
  /-- The texts that the register call has read so far. -/
  read : SettingKey → Option (Option String)
  /-- The writes and the setters of the command that are still to come. -/
  writes : List (SettingKey × String)
  applies : List Setter

inductive Action where
  | purge
  | read
  | build
  | insert
  | write
  | apply

/-- The start: some entry for the MAC may be left from an earlier registration. -/
def State.start (table : SettingsTable) (entry : Option PipelineConfig) (cmd : SettingsCommand) : State where
  table
  entry
  register := .called
  read := fun _ => none
  writes := (cmd.effects printers).writes
  applies := (cmd.effects printers).applies

/-- The texts as the register call has read them. -/
def State.texts (s : State) : Texts := fun key => (s.read key).join

/-- The registered device has the id; `stale` says that the earlier entry is one of another serial. -/
def step (id : DeviceId) (stale : Bool) (s : State) : Action → Option State
  | .purge =>
    match s.register with
    | .called => some { s with register := .reading readOrder, entry := if stale then none else s.entry }
    | _ => none
  | .read =>
    match s.register with
    | .reading (key :: todo) =>
      some { s with
        register := .reading todo
        read := fun k => if k = key then some (s.table (key.of id.mac)) else s.read k }
    | _ => none
  | .build =>
    match s.register with
    | .reading [] => some { s with register := .built (configOfTexts parsers s.texts) }
    | _ => none
  | .insert =>
    match s.register with
    | .built config => some { s with register := .returned, entry := some config }
    | _ => none
  | .write =>
    match s.writes with
    | (key, text) :: writes => some { s with writes, table := s.table.set (key.of id.mac) text }
    | [] => none
  | .apply =>
    match s.writes, s.applies with
    | [], set :: applies => some { s with applies, entry := if set.accepts then s.entry.map set.apply else s.entry }
    | _, _ => none

/-- Both calls have finished. -/
structure State.Finished (s : State) : Prop where
  register : s.register = .returned
  writes : s.writes = []
  applies : s.applies = []

/-! ### Fields and texts -/

/-- The setting behind a setter. -/
def settingKey : Setter → SettingKey
  | .setMountingOrientation _ => .mountingOrientation
  | .setMagnetometerEnabled _ => .magnetometerEnabled
  | .setGyroScale _ => .gyroScale
  | .setRotationOffsetDeg _ => .rotationOffsetDeg
  | .setMagCalibration _ => .magCal

/-- The field of a setting has the value that the texts stand for. -/
def Shows (texts : Texts) (cfg : PipelineConfig) : SettingKey → Prop
  | .fusionAlgo => cfg.fusion = (configOfTexts parsers texts).fusion
  | .mountingOrientation => cfg.mounting = (configOfTexts parsers texts).mounting
  | .magCal => cfg.magCalibration = (configOfTexts parsers texts).magCalibration
  | .magnetometerEnabled => cfg.magnetometerEnabled = (configOfTexts parsers texts).magnetometerEnabled
  | .rotationOffsetDeg => cfg.rotationOffsetDeg = (configOfTexts parsers texts).rotationOffsetDeg
  | .gyroScale => cfg.gyroScale = (configOfTexts parsers texts).gyroScale

/-- No component of the calibration is infinite or not a number. -/
def finiteCalibration (cal : MagCalibration) : Bool :=
  cal.offset.all Float32.isFinite && cal.fieldStrengthUt.isFinite && cal.residual.isFinite && cal.coverage.isFinite

/-- The text stands for the value of the setter. -/
def Stands (text : Option String) : Setter → Prop
  | .setMountingOrientation mounting => (text.map MountingOrientation.fromSetting).getD .identity = mounting
  | .setMagnetometerEnabled enabled => text.map flagFromSetting = some enabled
  | .setGyroScale scale => gyroScaleFromSetting parsers text = scale
  | .setRotationOffsetDeg deg => rotationOffsetFromSetting parsers text = deg
  | .setMagCalibration none => text.bind parsers.magCalibrationFromJson = none
  | .setMagCalibration (some cal) =>
    finiteCalibration cal = true → text.bind parsers.magCalibrationFromJson = some cal

/-- A setter of a calibration sets a finite one. -/
def FiniteSetter : Setter → Prop
  | .setMagCalibration (some cal) => finiteCalibration cal = true
  | _ => True

variable {parsers} {texts texts' : Texts} {cfg : PipelineConfig} {key : SettingKey} {set : Setter}

theorem eq_configOfTexts (h : ∀ key, Shows parsers texts cfg key) : cfg = configOfTexts parsers texts :=
  PipelineConfig.ext (h .fusionAlgo) (h .mountingOrientation) (h .magnetometerEnabled) (h .rotationOffsetDeg)
    (h .gyroScale) (h .magCal)

/-- A field depends on its own text; whether the magnetometer is enabled depends on the calibration as well. -/
theorem shows_congr (hkey : texts key = texts' key)
    (hcal : key = .magnetometerEnabled → texts .magCal = texts' .magCal) :
    Shows parsers texts cfg key ↔ Shows parsers texts' cfg key := by
  cases key with
  | magnetometerEnabled => simp only [Shows, configOfTexts, hkey, hcal rfl]
  | _ => simp only [Shows, configOfTexts, hkey]

/-- A setter leaves the fields of other settings. -/
theorem shows_apply_of_ne (h : key ≠ settingKey set) :
    Shows parsers texts (set.apply cfg) key ↔ Shows parsers texts cfg key := by
  cases set <;> cases key <;> first | exact Iff.rfl | exact absurd rfl h

/-- A setter whose value the text stands for makes its field show the text. -/
theorem shows_apply (h : Stands parsers (texts (settingKey set)) set) (hfin : FiniteSetter set) :
    Shows parsers texts (set.apply cfg) (settingKey set) := by
  cases set with
  | setMountingOrientation mounting => exact h.symm
  | setMagnetometerEnabled enabled =>
    have htext : (texts .magnetometerEnabled).map flagFromSetting = some enabled := h
    simp only [settingKey, Shows, Setter.apply, configOfTexts, htext, Option.getD_some]
  | setGyroScale scale => exact h.symm
  | setRotationOffsetDeg deg => exact h.symm
  | setMagCalibration cal =>
    cases cal with
    | none => exact Eq.symm h
    | some cal => exact (h hfin).symm

/-! ### What a command applies -/

/-- The texts of numbers and calibrations are read back; the empty text is no calibration. -/
structure TextsReadBack (parsers : SettingParsers) (printers : SettingPrinters) : Prop where
  f32 : ∀ x : Float32, x.isFinite = true → parsers.parseF32 (printers.f32ToString x) = some x
  magCalibration : ∀ cal json, finiteCalibration cal = true → printers.magCalibrationToJson cal = .ok json →
    parsers.magCalibrationFromJson json = some cal
  empty : parsers.magCalibrationFromJson "" = none

/-- A write of the text for the value of a setter that is not refused. -/
structure Paired (parsers : SettingParsers) (w : SettingKey × String) (set : Setter) : Prop where
  key : w.1 = settingKey set
  stands : Stands parsers (some w.2) set
  accepted : set.accepts = true

/-- The effects of a command: a write for each setter, of different settings; a calibration comes before the other
settings, and enables the magnetometer. -/
structure EffectsOk (parsers : SettingParsers) (effects : Effects) : Prop where
  paired : List.Forall₂ (Paired parsers) effects.writes effects.applies
  distinct : (effects.writes.map Prod.fst).Nodup
  calibrationFirst : ∀ set ∈ effects.applies.tail, settingKey set ≠ .magCal
  calibrationEnables : ∀ cal, .setMagCalibration (some cal) ∈ effects.applies →
    ∃ set ∈ effects.applies, settingKey set = .magnetometerEnabled

theorem paired_mountingOrientation (orientation : MountingOrientationDto) :
    Paired parsers (.mountingOrientation, orientation.toSetting)
      (.setMountingOrientation (MountingOrientation.fromSetting orientation.toSetting)) :=
  ⟨rfl, rfl, rfl⟩

theorem paired_magnetometerEnabled (enabled : Bool) :
    Paired parsers (.magnetometerEnabled, flagToSetting enabled) (.setMagnetometerEnabled enabled) := by
  refine ⟨rfl, ?_, rfl⟩
  cases enabled <;> exact congrArg some (by decide)

variable {printers}

theorem paired_rotationOffset (hback : TextsReadBack parsers printers) {deg : Float32} (hfin : deg.isFinite = true) :
    Paired parsers (.rotationOffsetDeg, printers.f32ToString deg) (.setRotationOffsetDeg deg) := by
  refine ⟨rfl, ?_, hfin⟩
  have hparse : (some (printers.f32ToString deg)).bind parsers.parseF32 = some deg := hback.f32 deg hfin
  simp only [Stands, rotationOffsetFromSetting, hparse, Option.filter_some, hfin, if_true, Option.getD_some]

theorem paired_gyroScale (hback : TextsReadBack parsers printers) {scale : Float32}
    (h : ¬ (!scale.isFinite || decide (scale ≤ 0.0)) = true) :
    Paired parsers (.gyroScale, printers.f32ToString scale) (.setGyroScale scale) := by
  rw [Bool.or_eq_true, not_or, Bool.not_eq_true', Bool.not_eq_false, decide_eq_true_eq] at h
  obtain ⟨hfin, hpos⟩ := h
  have hnan := FloatOrder.isNaN_float32_of_isFinite hfin
  have hzero : (0.0 : Float32).isNaN = false := by decide +kernel
  -- on numbers, not at most zero is positive
  have hkept : (scale.isFinite && decide (scale > 0.0)) = true := by
    rw [hfin, Bool.true_and, decide_eq_true_eq]
    exact (FloatOrder.not_le_iff_lt_f32 hnan hzero).1 hpos
  refine ⟨rfl, ?_, hkept⟩
  have hparse : (some (printers.f32ToString scale)).bind parsers.parseF32 = some scale := hback.f32 scale hfin
  simp only [Stands, gyroScaleFromSetting, hparse, Option.filter_some, hkept, if_true, Option.getD_some]

/-- Every command has effects of this form. -/
theorem effectsOk (hback : TextsReadBack parsers printers) (cmd : SettingsCommand) :
    EffectsOk parsers (cmd.effects printers) := by
  have hnone : EffectsOk parsers ⟨[], []⟩ := ⟨.nil, List.nodup_nil, by simp, by simp⟩
  have hone : ∀ {w set}, Paired parsers w set → (∀ cal, set ≠ .setMagCalibration (some cal)) →
      EffectsOk parsers ⟨[w], [set]⟩ := fun h hcal =>
    ⟨.cons h .nil, List.nodup_singleton _, by simp, fun cal hmem => absurd (List.mem_singleton.1 hmem).symm (hcal cal)⟩
  cases cmd with
  | setGyroScale scale =>
    simp only [SettingsCommand.effects, SettingsCommand.run]
    by_cases h : (!scale.isFinite || decide (scale ≤ 0.0)) = true
    · simp only [h, if_true]
      exact hnone
    · simp only [h, Bool.false_eq_true, if_false]
      exact hone (paired_gyroScale hback h) (by simp)
  | setMountingOrientation orientation => exact hone (paired_mountingOrientation orientation) (by simp)
  | setMagnetometerEnabled enabled => exact hone (paired_magnetometerEnabled enabled) (by simp)
  | setDeviceRotationOffset deg =>
    simp only [SettingsCommand.effects, SettingsCommand.run]
    cases hfin : deg.isFinite with
    | false => exact hnone
    | true => exact hone (paired_rotationOffset hback hfin) (by simp)
  | applyCalibrationWizard mounting deg enabled =>
    simp only [SettingsCommand.effects, SettingsCommand.run]
    cases hfin : deg.isFinite with
    | false => exact hnone
    | true =>
      refine ⟨.cons (paired_mountingOrientation mounting) (.cons (paired_rotationOffset hback hfin)
        (.cons (paired_magnetometerEnabled enabled) .nil)), ?_, ?_, ?_⟩
      · simp
      · simp [settingKey]
      · simp
  | finishMagCalibration fit =>
    cases fit with
    | none => exact hnone
    | some cal =>
      simp only [SettingsCommand.effects, SettingsCommand.run]
      cases hjson : printers.magCalibrationToJson cal with
      | error e => exact hnone
      | ok json =>
        have hcal : Paired parsers (.magCal, json) (.setMagCalibration (some cal)) :=
          ⟨rfl, fun hfin => hback.magCalibration cal json hfin hjson, rfl⟩
        refine ⟨.cons hcal (.cons (paired_magnetometerEnabled true) .nil), ?_, ?_, ?_⟩
        · simp
        · simp [settingKey]
        · simp [settingKey]
  | clearMagCalibration => exact hone ⟨rfl, hback.empty, rfl⟩ (by simp)

/-! ### The command over a run -/

/-- A setter of the setting is still to come. -/
def State.Pending (s : State) (key : SettingKey) : Prop := ∃ set ∈ s.applies, settingKey set = key

/-- What holds of the writes and the setters that are still to come. -/
structure CommandInv (parsers : SettingParsers) (mac : Mac) (s : State) : Prop where
  accepted : ∀ set ∈ s.applies, set.accepts = true
  pending : ∀ w ∈ s.writes, s.Pending w.1
  toStand : ∀ set ∈ s.applies, ∀ text, (settingKey set, text) ∈ s.writes → Stands parsers (some text) set
  stands : ∀ set ∈ s.applies, (∃ text, (settingKey set, text) ∈ s.writes) ∨
    Stands parsers (s.table ((settingKey set).of mac)) set
  calibrationFirst : ∀ set ∈ s.applies.tail, settingKey set ≠ .magCal
  calibrationEnables : ∀ cal, .setMagCalibration (some cal) ∈ s.applies → s.Pending .magnetometerEnabled

private theorem exists_paired {α β : Type} {R : α → β → Prop} {as : List α} {bs : List β} (h : List.Forall₂ R as bs)
    {b : β} (hb : b ∈ bs) : ∃ a ∈ as, R a b := by
  induction h with
  | nil => cases hb
  | cons hp _ ih =>
    rcases List.mem_cons.1 hb with rfl | hb
    · exact ⟨_, List.mem_cons_self, hp⟩
    · obtain ⟨a, ha, hp⟩ := ih hb
      exact ⟨a, List.mem_cons_of_mem _ ha, hp⟩

theorem commandInv_start {mac : Mac} {cmd : SettingsCommand} (h : EffectsOk parsers (cmd.effects printers))
    (table : SettingsTable) (entry : Option PipelineConfig) :
    CommandInv parsers mac (.start printers table entry cmd) where
  accepted set hset := by
    obtain ⟨w, -, hp⟩ := exists_paired h.paired hset
    exact hp.accepted
  pending w hw := by
    have hflip : List.Forall₂ (fun set w => Paired parsers w set) _ _ := h.paired.flip
    obtain ⟨set, hset, hp⟩ := exists_paired hflip hw
    exact ⟨set, hset, hp.key.symm⟩
  toStand set hset text htext := by
    obtain ⟨w, hw, hp⟩ := exists_paired h.paired hset
    -- one write for each setting
    obtain rfl : w = (settingKey set, text) := List.inj_on_of_nodup_map h.distinct hw htext hp.key
    exact hp.stands
  stands set hset := by
    obtain ⟨⟨key, text⟩, hw, hp⟩ := exists_paired h.paired hset
    obtain rfl : key = settingKey set := hp.key
    exact Or.inl ⟨text, hw⟩
  calibrationFirst := h.calibrationFirst
  calibrationEnables := h.calibrationEnables

variable {mac : Mac} {s : State}

/-- A write to another setting leaves the text. -/
private theorem table_set_of_ne {k : SettingKey} (table : SettingsTable) (text : String) (h : k ≠ key) :
    table.set (key.of mac) text (k.of mac) = table (k.of mac) :=
  SettingsTable.set_other _ _ fun heq => h (SettingKey.of_inj.1 heq)

theorem commandInv_write {text : String} {writes : List (SettingKey × String)} (h : CommandInv parsers mac s)
    (hw : s.writes = (key, text) :: writes) :
    CommandInv parsers mac { s with writes, table := s.table.set (key.of mac) text } where
  accepted := h.accepted
  pending w hmem := h.pending w (hw ▸ List.mem_cons_of_mem _ hmem)
  toStand set hset text' hmem := h.toStand set hset text' (hw ▸ List.mem_cons_of_mem _ hmem)
  stands set hset := by
    by_cases hkey : settingKey set = key
    · have hstands := h.toStand set hset text (by rw [hw, hkey]; exact List.mem_cons_self)
      refine Or.inr ?_
      simp only [hkey, SettingsTable.set_same]
      exact hstands
    · rcases h.stands set hset with ⟨text', hmem⟩ | hstands
      · rw [hw, List.mem_cons] at hmem
        rcases hmem with heq | hmem
        · exact absurd (congrArg Prod.fst heq) hkey
        · exact Or.inl ⟨text', hmem⟩
      · refine Or.inr ?_
        simp only
        rw [table_set_of_ne _ _ hkey]
        exact hstands
  calibrationFirst := h.calibrationFirst
  calibrationEnables := h.calibrationEnables

theorem commandInv_apply {applies : List Setter} (h : CommandInv parsers mac s) (hw : s.writes = [])
    (ha : s.applies = set :: applies) (entry : Option PipelineConfig) :
    CommandInv parsers mac { s with applies, entry } where
  accepted set' hset := h.accepted set' (ha ▸ List.mem_cons_of_mem _ hset)
  pending w hmem := by
    simp only [hw] at hmem
    cases hmem
  toStand set' _ text hmem := by
    simp only [hw] at hmem
    cases hmem
  stands set' hset := by
    rcases h.stands set' (ha ▸ List.mem_cons_of_mem _ hset) with ⟨text, hmem⟩ | hstands
    · rw [hw] at hmem
      cases hmem
    · exact Or.inr hstands
  calibrationFirst set' hset := h.calibrationFirst set' (by rw [ha]; exact List.mem_of_mem_tail hset)
  calibrationEnables cal hmem := by
    -- a calibration is only ever the first setter
    have hfirst := h.calibrationFirst (.setMagCalibration (some cal)) (by rw [ha]; exact hmem)
    exact absurd rfl hfirst

/-! ### The register call over a run -/

/-- What a setter that finds the entry needs: a calibration is finite; one that is cleared has not enabled the
magnetometer by itself. -/
def appliesExactly (parsers : SettingParsers) (mac : Mac) (s : State) : Setter → Bool
  | .setMagCalibration (some cal) => finiteCalibration cal
  | .setMagCalibration none =>
    (s.table (SettingKey.magnetometerEnabled.of mac)).isSome ||
      ((s.texts .magCal).bind parsers.magCalibrationFromJson).isNone
  | _ => true

/-- A setter is applied before the register call reads the setting, or after it has read the current text, or when the
entry is there. -/
def upToDate (parsers : SettingParsers) (mac : Mac) (s : State) : Action → Bool
  | .apply =>
    match s.applies, s.register with
    | set :: _, .returned => appliesExactly parsers mac s set
    | set :: _, _ => (s.read (settingKey set)).all fun text => text == s.table ((settingKey set).of mac)
    | [], _ => true
  | _ => true

def UpToDate (parsers : SettingParsers) (mac : Mac) (s : State) (a : Action) : Prop := upToDate parsers mac s a = true

instance (s : State) (a : Action) : Decidable (UpToDate parsers mac s a) := inferInstanceAs (Decidable (_ = true))

/-- What the register call has read is current, unless a setter is still to come. -/
def State.Fresh (s : State) (mac : Mac) (key : SettingKey) : Prop :=
  (∀ text, s.read key = some text → text = s.table (key.of mac)) ∨ s.Pending key

/-- The configuration of the entry is that of the store, up to the setters that are still to come. -/
structure LiveInv (parsers : SettingParsers) (mac : Mac) (s : State) (cfg : PipelineConfig) : Prop where
  shown : ∀ key, Shows parsers (tableTexts s.table mac) cfg key ∨ s.Pending key ∨
    (key = .magnetometerEnabled ∧ s.Pending .magCal)
  enabled : s.Pending .magCal → s.Pending .magnetometerEnabled ∨
    (s.texts .magnetometerEnabled = s.table (SettingKey.magnetometerEnabled.of mac) ∧
      Shows parsers s.texts cfg .magnetometerEnabled)

/-- What holds at each stage of the register call. -/
def RegisterInv (parsers : SettingParsers) (mac : Mac) (s : State) : RegisterStage → Prop
  | .called => ∀ key, s.read key = none
  | .reading todo => (∀ key, s.Fresh mac key) ∧ ∀ key, s.read key = none → key ∈ todo
  | .built config => (∀ key, s.Fresh mac key) ∧ (∀ key, s.read key ≠ none) ∧ config = configOfTexts parsers s.texts
  | .returned => ∃ cfg, s.entry = some cfg ∧ LiveInv parsers mac s cfg

theorem mem_readOrder (key : SettingKey) : key ∈ readOrder := by cases key <;> decide

theorem shows_configOfTexts (texts : Texts) (key : SettingKey) :
    Shows parsers texts (configOfTexts parsers texts) key := by
  cases key <;> rfl

/-- The texts that were read are those of the store, when they are current and all have been read. -/
private theorem texts_eq_table (hcur : ∀ text, s.read key = some text → text = s.table (key.of mac))
    (hall : s.read key ≠ none) : s.texts key = s.table (key.of mac) := by
  obtain ⟨text, htext⟩ := Option.ne_none_iff_exists'.1 hall
  rw [← hcur text htext]
  simp [State.texts, htext]

theorem registerInv_purge (h : RegisterInv parsers mac s .called) (entry : Option PipelineConfig) :
    RegisterInv parsers mac { s with register := .reading readOrder, entry } (.reading readOrder) := by
  refine ⟨fun key => Or.inl fun text htext => ?_, fun key _ => mem_readOrder key⟩
  have hread : s.read key = some text := htext
  rw [h key] at hread
  cases hread

theorem registerInv_read {todo : List SettingKey} (h : RegisterInv parsers mac s (.reading (key :: todo))) :
    RegisterInv parsers mac
      { s with
        register := .reading todo
        read := fun k => if k = key then some (s.table (key.of mac)) else s.read k } (.reading todo) := by
  obtain ⟨hfresh, htodo⟩ := h
  constructor
  · intro k
    by_cases hk : k = key
    · subst hk
      refine Or.inl fun text htext => ?_
      simp only [if_true, Option.some.injEq] at htext
      exact htext.symm
    · rcases hfresh k with hcur | hpend
      · refine Or.inl fun text htext => hcur text ?_
        simpa only [if_neg hk] using htext
      · exact Or.inr hpend
  · intro k hnone
    by_cases hk : k = key
    · simp only [hk, if_true, reduceCtorEq] at hnone
    · simp only [if_neg hk] at hnone
      exact (List.mem_cons.1 (htodo k hnone)).resolve_left hk

theorem registerInv_build (h : RegisterInv parsers mac s (.reading [])) :
    RegisterInv parsers mac { s with register := .built (configOfTexts parsers s.texts) }
      (.built (configOfTexts parsers s.texts)) :=
  ⟨h.1, fun key hnone => absurd (h.2 key hnone) List.not_mem_nil, rfl⟩

theorem registerInv_insert {config : PipelineConfig} (h : RegisterInv parsers mac s (.built config)) :
    RegisterInv parsers mac { s with register := .returned, entry := some config } .returned := by
  obtain ⟨hfresh, hall, rfl⟩ := h
  refine ⟨_, rfl, fun key => ?_, fun _ => ?_⟩
  · rcases hfresh key with hcur | hpend
    · rcases hfresh .magCal with hcal | hpend
      · have hkey := texts_eq_table hcur (hall key)
        have hcal' := texts_eq_table hcal (hall .magCal)
        exact Or.inl ((shows_congr hkey fun _ => hcal').1 (shows_configOfTexts _ key))
      · by_cases hme : key = .magnetometerEnabled
        · exact Or.inr (Or.inr ⟨hme, hpend⟩)
        · have hkey := texts_eq_table hcur (hall key)
          exact Or.inl ((shows_congr hkey fun h => absurd h hme).1 (shows_configOfTexts _ key))
    · exact Or.inr (Or.inl hpend)
  · rcases hfresh .magnetometerEnabled with hcur | hpend
    · exact Or.inr ⟨texts_eq_table hcur (hall _), shows_configOfTexts _ _⟩
    · exact Or.inl hpend

/-- A write leaves the entry behind, until the setter that comes after it. -/
theorem liveInv_write {text : String} {writes : List (SettingKey × String)} (hpend : s.Pending key)
    (h : LiveInv parsers mac s cfg) :
    LiveInv parsers mac { s with writes, table := s.table.set (key.of mac) text } cfg where
  shown k := by
    by_cases hkey : k = key
    · exact Or.inr (Or.inl (hkey ▸ hpend))
    · rcases h.shown k with hshow | hk
      · by_cases hcal : k = .magnetometerEnabled ∧ key = .magCal
        · exact Or.inr (Or.inr ⟨hcal.1, hcal.2 ▸ hpend⟩)
        · refine Or.inl ((shows_congr ?_ fun hme => ?_).1 hshow)
          · exact (table_set_of_ne _ _ hkey).symm
          · exact (table_set_of_ne _ _ fun heq => hcal ⟨hme, heq.symm⟩).symm
      · exact Or.inr hk
  enabled hcal := by
    by_cases hkey : .magnetometerEnabled = key
    · exact Or.inl (hkey ▸ hpend)
    · rcases h.enabled hcal with hme | ⟨hread, hshow⟩
      · exact Or.inl hme
      · refine Or.inr ⟨?_, hshow⟩
        simp only [table_set_of_ne _ _ hkey]
        exact hread

theorem registerInv_write {text : String} {writes : List (SettingKey × String)} {stage : RegisterStage}
    (hcmd : CommandInv parsers mac s) (hw : s.writes = (key, text) :: writes) (h : RegisterInv parsers mac s stage) :
    RegisterInv parsers mac { s with writes, table := s.table.set (key.of mac) text } stage := by
  have hpend : s.Pending key := hcmd.pending (key, text) (hw ▸ List.mem_cons_self)
  have hfresh : ∀ k, s.Fresh mac k →
      State.Fresh { s with writes, table := s.table.set (key.of mac) text } mac k := by
    rintro k (hcur | hk)
    · by_cases hkey : k = key
      · exact Or.inr (hkey ▸ hpend)
      · refine Or.inl fun text' hread => ?_
        simp only [table_set_of_ne _ _ hkey]
        exact hcur text' hread
    · exact Or.inr hk
  cases stage with
  | called => exact h
  | reading todo => exact ⟨fun k => hfresh k (h.1 k), h.2⟩
  | built config => exact ⟨fun k => hfresh k (h.1 k), h.2⟩
  | returned =>
    obtain ⟨cfg, hentry, hlive⟩ := h
    exact ⟨cfg, hentry, liveInv_write hpend hlive⟩

/-- The setters that are still to come after one of them are the others. -/
private theorem pending_of_ne {applies : List Setter} {k : SettingKey} {entry : Option PipelineConfig}
    (ha : s.applies = set :: applies) (h : s.Pending k) (hne : k ≠ settingKey set) :
    State.Pending { s with applies, entry } k := by
  obtain ⟨set', hmem, rfl⟩ := h
  rw [ha, List.mem_cons] at hmem
  rcases hmem with rfl | hmem
  · exact absurd rfl hne
  · exact ⟨set', hmem, rfl⟩

/-- A calibration that is cleared leaves the magnetometer as it would be without it. -/
private theorem shows_enabled_of_clear {texts' : Texts} (hme : texts .magnetometerEnabled = texts' .magnetometerEnabled)
    (hshow : Shows parsers texts cfg .magnetometerEnabled)
    (hclear : (texts' .magCal).bind parsers.magCalibrationFromJson = none)
    (hexact : texts' .magnetometerEnabled ≠ none ∨ (texts .magCal).bind parsers.magCalibrationFromJson = none) :
    Shows parsers texts' cfg .magnetometerEnabled := by
  simp only [Shows, configOfTexts, hme] at hshow ⊢
  rw [hshow, hclear]
  rcases hexact with hset | hcal
  · obtain ⟨text, htext⟩ := Option.ne_none_iff_exists'.1 hset
    rw [htext]
    rfl
  · rw [hcal]

/-- A setter that finds the entry brings its setting up to the store. -/
theorem liveInv_apply {applies : List Setter} (hcmd : CommandInv parsers mac s) (hw : s.writes = [])
    (ha : s.applies = set :: applies) (hexact : appliesExactly parsers mac s set = true)
    (entry : Option PipelineConfig) (h : LiveInv parsers mac s cfg) :
    LiveInv parsers mac { s with applies, entry } (set.apply cfg) := by
  have hmem : set ∈ s.applies := ha ▸ List.mem_cons_self
  have hrest : ∀ k, s.Pending k → k ≠ settingKey set → State.Pending { s with applies, entry } k :=
    fun k hk hne => pending_of_ne ha hk hne
  have hstands : Stands parsers (s.table ((settingKey set).of mac)) set := by
    rcases hcmd.stands set hmem with ⟨text, hin⟩ | hstands
    · rw [hw] at hin
      cases hin
    · exact hstands
  have hfin : FiniteSetter set := by
    cases set with
    | setMagCalibration cal =>
      cases cal with
      | none => trivial
      | some cal => exact hexact
    | _ => trivial
  refine ⟨fun k => ?_, ?_⟩
  · by_cases hkey : k = settingKey set
    · subst hkey
      exact Or.inl (shows_apply hstands hfin)
    · rcases h.shown k with hshow | hk | ⟨rfl, hcal⟩
      · exact Or.inl ((shows_apply_of_ne hkey).2 hshow)
      · exact Or.inr (Or.inl (hrest k hk hkey))
      · by_cases hfirst : .magCal = settingKey set
        · -- the calibration is the setter that is applied
          rcases h.enabled hcal with hme | ⟨hread, hshow⟩
          · exact Or.inr (Or.inl (hrest _ hme hkey))
          · cases set with
            | setMagCalibration cal =>
              cases cal with
              | some cal => exact Or.inr (Or.inl (hrest _ (hcmd.calibrationEnables cal hmem) hkey))
              | none =>
                rw [appliesExactly, Bool.or_eq_true, Option.isSome_iff_ne_none, Option.isNone_iff_eq_none] at hexact
                refine Or.inl ((shows_apply_of_ne hkey).2 ?_)
                exact shows_enabled_of_clear hread hshow hstands hexact
            | _ => cases hfirst
        · exact Or.inr (Or.inr ⟨rfl, hrest _ hcal hfirst⟩)
  · rintro ⟨set', hset', hkey⟩
    exact absurd hkey (hcmd.calibrationFirst set' (by rw [ha]; exact hset'))

theorem registerInv_apply {applies : List Setter} {stage : RegisterStage} (hcmd : CommandInv parsers mac s)
    (hw : s.writes = []) (ha : s.applies = set :: applies) (hok : UpToDate parsers mac s .apply)
    (hstage : s.register = stage) (h : RegisterInv parsers mac s stage) :
    RegisterInv parsers mac { s with applies, entry := if set.accepts then s.entry.map set.apply else s.entry }
      stage := by
  have hfresh : (∀ text, s.read (settingKey set) = some text → text = s.table ((settingKey set).of mac)) →
      ∀ k, s.Fresh mac k →
        State.Fresh { s with applies, entry := if set.accepts then s.entry.map set.apply else s.entry } mac k := by
    intro hcur k hk
    by_cases hkey : k = settingKey set
    · exact Or.inl (hkey ▸ hcur)
    · rcases hk with hk | hk
      · exact Or.inl hk
      · exact Or.inr (pending_of_ne ha hk hkey)
  cases stage with
  | called => exact h
  | reading todo =>
    simp only [UpToDate, upToDate, ha, hstage, Option.all_eq_true, beq_iff_eq] at hok
    exact ⟨fun k => hfresh hok k (h.1 k), h.2⟩
  | built config =>
    simp only [UpToDate, upToDate, ha, hstage, Option.all_eq_true, beq_iff_eq] at hok
    exact ⟨fun k => hfresh hok k (h.1 k), h.2⟩
  | returned =>
    simp only [UpToDate, upToDate, ha, hstage] at hok
    obtain ⟨cfg, hentry, hlive⟩ := h
    have haccepted := hcmd.accepted set (ha ▸ List.mem_cons_self)
    refine ⟨set.apply cfg, ?_, liveInv_apply hcmd hw ha hok _ hlive⟩
    simp only [haccepted, if_true, hentry, Option.map_some]

/-! ### Runs -/

structure Inv (parsers : SettingParsers) (mac : Mac) (s : State) : Prop where
  command : CommandInv parsers mac s
  register : RegisterInv parsers mac s s.register

/-- The register call leaves the command alone. -/
private theorem commandInv_register (h : CommandInv parsers mac s) (register : RegisterStage)
    (read : SettingKey → Option (Option String)) (entry : Option PipelineConfig) :
    CommandInv parsers mac { s with register, read, entry } :=
  ⟨h.accepted, h.pending, h.toStand, h.stands, h.calibrationFirst, h.calibrationEnables⟩

theorem inv_step {id : DeviceId} {stale : Bool} {s' : State} {a : Action} (h : Inv parsers id.mac s)
    (hok : UpToDate parsers id.mac s a) (hs : step parsers id stale s a = some s') : Inv parsers id.mac s' := by
  obtain ⟨hcmd, hreg⟩ := h
  cases a with
  | purge =>
    simp only [step] at hs
    split at hs
    · rename_i hstage
      cases hs
      rw [hstage] at hreg
      exact ⟨commandInv_register hcmd _ _ _, registerInv_purge hreg _⟩
    · cases hs
  | read =>
    simp only [step] at hs
    split at hs
    · rename_i key todo hstage
      cases hs
      rw [hstage] at hreg
      exact ⟨commandInv_register hcmd _ _ _, registerInv_read hreg⟩
    · cases hs
  | build =>
    simp only [step] at hs
    split at hs
    · rename_i hstage
      cases hs
      rw [hstage] at hreg
      exact ⟨commandInv_register hcmd _ _ _, registerInv_build hreg⟩
    · cases hs
  | insert =>
    simp only [step] at hs
    split at hs
    · rename_i config hstage
      cases hs
      rw [hstage] at hreg
      exact ⟨commandInv_register hcmd _ _ _, registerInv_insert hreg⟩
    · cases hs
  | write =>
    simp only [step] at hs
    split at hs
    · rename_i key text writes hw
      cases hs
      exact ⟨commandInv_write hcmd hw, registerInv_write hcmd hw hreg⟩
    · cases hs
  | apply =>
    simp only [step] at hs
    split at hs
    · rename_i set applies hw ha
      cases hs
      exact ⟨commandInv_apply hcmd hw ha _, registerInv_apply hcmd hw ha hok rfl hreg⟩
    · cases hs

/-- Along up-to-date steps, once both calls have finished the pipeline has the configuration of the store. -/
theorem config_current_of_reaches (hback : TextsReadBack parsers printers) {id : DeviceId} {stale : Bool}
    {table : SettingsTable} {entry : Option PipelineConfig} {cmd : SettingsCommand}
    (h : Reaches (step parsers id stale) (UpToDate parsers id.mac) (.start printers table entry cmd) s)
    (hdone : s.Finished) : s.entry = some (configFromTable parsers s.table id) := by
  have hstart : Inv parsers id.mac (.start printers table entry cmd) :=
    ⟨commandInv_start (effectsOk hback cmd) table entry, fun _ => rfl⟩
  have hinv : Inv parsers id.mac s := h.invariant hstart fun _ _ _ hi hok hs => inv_step hi hok hs
  have hreg := hinv.register
  rw [hdone.register] at hreg
  obtain ⟨cfg, hentry, hlive⟩ := hreg
  have hpend : ∀ key, ¬ s.Pending key := by
    rintro key ⟨set, hset, -⟩
    rw [hdone.applies] at hset
    cases hset
  have hshows : ∀ key, Shows parsers (tableTexts s.table id.mac) cfg key := by
    intro key
    rcases hlive.shown key with hshow | hk | ⟨-, hk⟩
    · exact hshow
    · exact absurd hk (hpend _)
    · exact absurd hk (hpend _)
  rw [hentry, configFromTable_eq, eq_configOfTexts hshows]

/-! ### A change after the snapshot -/

/-- A number is its bits. -/
instance encodableFloat32 : Encodable Float32 :=
  .ofLeftInverse (fun x => x.toBits.toNat) (fun n => .ofBits (.ofNat n)) fun x => by
    rw [UInt32.ofNat_toNat, Float32.ofBits_toBits]

instance encodableMagCalibration : Encodable MagCalibration :=
  .ofLeftInverse
    (fun cal => (cal.offset.x, cal.offset.y, cal.offset.z, cal.fieldStrengthUt, cal.residual, cal.coverage))
    (fun n => ⟨#v[n.1, n.2.1, n.2.2.1], n.2.2.2.1, n.2.2.2.2.1, n.2.2.2.2.2⟩)
    fun cal => by rw [← Vector.eq_coordinates]

def sampleCalibration : MagCalibration := ⟨#v[1.5, -2.5, 3.5], 47.0, 0.8, 0.92⟩

def sampleNumbers : List (Float32 × String) := [(2.0, "2")]

def sampleCalibrations : List (MagCalibration × String) :=
  [(sampleCalibration,
    "\x7b\"offset\":[1.5,-2.5,3.5],\"field_strength_ut\":47.0,\"residual\":0.8,\"coverage\":0.92\x7d")]

def sampleParsers : SettingParsers where
  parseF32 := TextCodec.parse sampleNumbers
  parseI32 _ := none
  magCalibrationFromJson := TextCodec.parse sampleCalibrations

def samplePrinters : SettingPrinters where
  f32ToString := TextCodec.print sampleNumbers
  magCalibrationToJson cal := .ok (TextCodec.print sampleCalibrations cal)

theorem sample_textsReadBack : TextsReadBack sampleParsers samplePrinters where
  f32 x _ := TextCodec.parse_print ⟨by simp [sampleNumbers], by decide +kernel⟩ x
  magCalibration cal json _ h := by
    have htable : TextCodec.Table sampleCalibrations := ⟨by simp [sampleCalibrations], by decide +kernel⟩
    have hjson : TextCodec.print sampleCalibrations cal = json := Except.ok.inj h
    rw [← hjson]
    simp only [sampleParsers]
    exact TextCodec.parse_print htable cal
  empty := by
    have hempty : TextCodec.parse sampleCalibrations "" = none := TextCodec.parse_empty (by decide +kernel)
    simp only [sampleParsers]
    exact hempty

def sampleId : DeviceId := ⟨.replicate 6 7, "a"⟩

def noSettings : SettingsTable := fun _ => none

/-- The scale is written after the register call has read the settings, and applied once the entry is there. -/
theorem change_while_registering_is_kept :
    ∃ s, Reaches (step sampleParsers sampleId false) (UpToDate sampleParsers sampleId.mac)
        (.start samplePrinters noSettings none (.setGyroScale 2.0)) s ∧ s.Finished ∧
      s.entry = some (configFromTable sampleParsers s.table sampleId) := by
  have hrun : ∃ s, exec (guardStep (step sampleParsers sampleId false) (UpToDate sampleParsers sampleId.mac))
      (.start samplePrinters noSettings none (.setGyroScale 2.0))
      ([Action.purge] ++ List.replicate 6 Action.read ++ [Action.write, .build, .insert, .apply]) = some s ∧
        s.Finished := by
    refine ⟨_, rfl, rfl, rfl, rfl⟩
  obtain ⟨s, hs, hdone⟩ := hrun
  exact ⟨s, Reaches.of_exec _ hs, hdone, config_current_of_reaches sample_textsReadBack (Reaches.of_exec _ hs) hdone⟩

/-- The mounting is written and applied after the register call has read the settings, and before it inserts the entry:
the store has it, and the pipeline does not. -/
theorem change_while_registering_is_lost :
    ∃ s, exec (step sampleParsers sampleId false)
        (.start samplePrinters noSettings none (.setMountingOrientation .upsideDown))
        ([Action.purge] ++ List.replicate 6 Action.read ++ [Action.write, .apply, .build, .insert]) = some s ∧
      s.Finished ∧
      s.entry.map (·.mounting) = some .identity ∧
      (configFromTable sampleParsers s.table sampleId).mounting = .upsideDown ∧
      s.entry ≠ some (configFromTable sampleParsers s.table sampleId) := by
  refine ⟨_, rfl, ⟨rfl, rfl, rfl⟩, rfl, by decide +kernel, by decide +kernel⟩

/-- A calibration that has enabled the magnetometer is cleared after the register call has returned: the magnetometer
stays enabled in the pipeline. -/
example :
    ∃ s, exec (step sampleParsers sampleId false)
        (.start samplePrinters (noSettings.set (SettingKey.magCal.of sampleId.mac)
          (TextCodec.print sampleCalibrations sampleCalibration)) none .clearMagCalibration)
        ([Action.purge] ++ List.replicate 6 Action.read ++ [Action.build, .insert, .write, .apply]) = some s ∧
      s.entry.map (·.magnetometerEnabled) = some true ∧
      (configFromTable sampleParsers s.table sampleId).magnetometerEnabled = false := by
  refine ⟨_, rfl, by decide +kernel, by decide +kernel⟩

end EverythingImu.App
