import EverythingImu.Core.PipelineConfig
import EverythingImu.Library.Channel
import EverythingImu.Library.CopyModifyReplace

/-!
# Live configuration updates

The per-device setters of `AppState` (`app_state.rs`).  Each one copies the configuration out of the device's config
watch, modifies one field and replaces the whole configuration, while it holds the registry lock for reading only; so
the steps of concurrent setters interleave.

A setter that copies while a setter of another field is in flight can undo the other's update
(`setters_overlap_lose_update`).  Along runs in which no setter does so, no update is lost (`setter_update_kept`).
-/

namespace EverythingImu.Core

open Channel StepRun CopyModifyReplace

/-- A call of a per-device setter. -/
inductive Setter where
  | setMountingOrientation (mounting : MountingOrientation)
  | setMagnetometerEnabled (enabled : Bool)
  | setGyroScale (scale : Float32)
  | setRotationOffsetDeg (deg : Float32)
  | setMagCalibration (cal : Option MagCalibration)

inductive ConfigField where
  | mounting
  | magnetometerEnabled
  | gyroScale
  | rotationOffsetDeg
  | magCalibration
deriving DecidableEq

namespace Setter

def field : Setter → ConfigField
  | setMountingOrientation _ => .mounting
  | setMagnetometerEnabled _ => .magnetometerEnabled
  | setGyroScale _ => .gyroScale
  | setRotationOffsetDeg _ => .rotationOffsetDeg
  | setMagCalibration _ => .magCalibration

/-- The modification of the copy. -/
def apply (set : Setter) (cfg : PipelineConfig) : PipelineConfig :=
  match set with
  | setMountingOrientation mounting => { cfg with mounting }
  | setMagnetometerEnabled enabled => { cfg with magnetometerEnabled := enabled }
  | setGyroScale scale => { cfg with gyroScale := scale }
  | setRotationOffsetDeg deg => { cfg with rotationOffsetDeg := deg }
  | setMagCalibration cal => { cfg with magCalibration := cal }

/-- The check that comes before the lock; a call that fails it returns at once. -/
def accepts : Setter → Bool
  | setGyroScale scale => scale.isFinite && scale > 0.0
  | setRotationOffsetDeg deg => deg.isFinite
  | _ => true

/-- The configuration holds the value of the call. -/
def Holds (set : Setter) (cfg : PipelineConfig) : Prop :=
  match set with
  | setMountingOrientation mounting => cfg.mounting = mounting
  | setMagnetometerEnabled enabled => cfg.magnetometerEnabled = enabled
  | setGyroScale scale => cfg.gyroScale = scale
  | setRotationOffsetDeg deg => cfg.rotationOffsetDeg = deg
  | setMagCalibration cal => cfg.magCalibration = cal

end Setter

/-- The setters as writes of single fields. -/
def setterWrites : Writes Setter ConfigField PipelineConfig where
  field := Setter.field
  apply := Setter.apply
  overwrite := by
    intro w w' c h
    cases w <;> cases w' <;> first | rfl | cases h
  commute := by
    intro w w' c h
    cases w <;> cases w' <;> first | rfl | exact absurd rfl h

/-- The config watch as a place that holds the configuration; `send_replace` always stores. -/
def configCell : Cell (Watch PipelineConfig) PipelineConfig where
  read := Watch.value
  write := Watch.send
  read_write := fun _ _ => rfl

theorem setter_holds_iff_written (set : Setter) (cfg : PipelineConfig) :
    set.Holds cfg ↔ setterWrites.Written set cfg := by
  cases set <;> simp [Setter.Holds, Writes.Written, setterWrites, Setter.apply, PipelineConfig.ext_iff, eq_comm]

/-- The config watch of one registered device and the setter calls on it that passed their check. -/
abbrev ConfigState := CopyModifyReplace.State (Watch PipelineConfig) Setter PipelineConfig

def ConfigState.start (cfg : PipelineConfig) : ConfigState := ⟨Watch.channel cfg, []⟩

/-- One step of one of the setter calls. -/
def configStep (s : ConfigState) : Action Setter → Option ConfigState
  | .invoke set => if set.accepts then step configCell setterWrites s (.invoke set) else some s
  | a => step configCell setterWrites s a

/-- A setter copies only while every setter in flight sets the same field. -/
def SettersSeparate (s : ConfigState) (a : Action Setter) : Prop := Separate setterWrites s a = true

instance (s : ConfigState) (a : Action Setter) : Decidable (SettersSeparate s a) :=
  inferInstanceAs (Decidable (_ = true))

private theorem reaches_of_configStep {cfg : PipelineConfig} {s : ConfigState}
    (h : Reaches configStep SettersSeparate (ConfigState.start cfg) s) :
    Reaches (step configCell setterWrites) (fun s a => Separate setterWrites s a = true) (ConfigState.start cfg) s := by
  refine h.invariant (Reaches.refl _ _ _) ?_
  intro s a s' hs hok hstep
  have hrun : step configCell setterWrites s a = some s' ∨ s = s' := by
    cases a with
    | invoke set =>
      simp only [configStep] at hstep
      split at hstep
      · exact Or.inl hstep
      · exact Or.inr (by simpa using hstep)
    | copy k => exact Or.inl hstep
    | modify k => exact Or.inl hstep
    | replace k => exact Or.inl hstep
  rcases hrun with hrun | rfl
  · exact hs.tail hok hrun
  · exact hs

/-- Along runs with separate setters, the field of every finished call holds the value of a finished call that set
this field. -/
theorem setter_update_kept {cfg : PipelineConfig} {s : ConfigState}
    (h : Reaches configStep SettersSeparate (ConfigState.start cfg) s)
    {call : Call Setter PipelineConfig} (hmem : call ∈ s.calls) (hdone : call.stage = .done) :
    ∃ call' ∈ s.calls, call'.stage = .done ∧ call'.write.field = call.write.field ∧
      call'.write.Holds s.cell.value := by
  obtain ⟨call', hmem', hdone', hfield, hwr⟩ := written_of_reaches (reaches_of_configStep h) hmem hdone
  exact ⟨call', hmem', hdone', hfield, (setter_holds_iff_written _ _).2 hwr⟩

/-- The three steps of one call. -/
def setterSteps (k : Nat) : List (Action Setter) := [.copy k, .modify k, .replace k]

/-- Two setters one after the other: both updates are kept. -/
theorem setters_in_turn_keep_update :
    ∃ s, Reaches configStep SettersSeparate (ConfigState.start .default) s ∧
      ∃ call ∈ s.calls, call.write = .setMountingOrientation .upsideDown ∧
        ∃ call' ∈ s.calls, call'.stage = .done ∧ call'.write.field = call.write.field ∧
          call'.write.Holds s.cell.value := by
  have hrun : exec (guardStep configStep SettersSeparate) (ConfigState.start .default)
      ([.invoke (.setMountingOrientation .upsideDown), .invoke (.setMagnetometerEnabled true)] ++ setterSteps 0 ++
        setterSteps 1) =
      some ⟨⟨{ PipelineConfig.default with mounting := .upsideDown, magnetometerEnabled := true }, 2, false⟩,
        [⟨.setMountingOrientation .upsideDown, .done⟩, ⟨.setMagnetometerEnabled true, .done⟩]⟩ := rfl
  exact ⟨_, Reaches.of_exec _ hrun, _, List.mem_cons_self, rfl,
    setter_update_kept (Reaches.of_exec _ hrun) List.mem_cons_self rfl⟩

/-- Two setters that overlap: both have finished, and the mounting that one of them set is lost. -/
theorem setters_overlap_lose_update :
    ∃ s, Reaches configStep Always (ConfigState.start .default) s ∧ (∀ call ∈ s.calls, call.stage = .done) ∧
      ∃ call ∈ s.calls, call.write = .setMountingOrientation .upsideDown ∧
        ¬ ∃ call' ∈ s.calls, call'.write.field = call.write.field ∧ call'.write.Holds s.cell.value := by
  have hrun : exec configStep (ConfigState.start .default)
      [.invoke (.setMountingOrientation .upsideDown), .invoke (.setMagnetometerEnabled true), .copy 0, .copy 1,
        .modify 0, .modify 1, .replace 0, .replace 1] =
      some ⟨⟨{ PipelineConfig.default with magnetometerEnabled := true }, 2, false⟩,
        [⟨.setMountingOrientation .upsideDown, .done⟩, ⟨.setMagnetometerEnabled true, .done⟩]⟩ := rfl
  refine ⟨_, Reaches.of_run _ hrun, by simp, _, List.mem_cons_self, rfl, ?_⟩
  rintro ⟨call', hmem, hfield, hholds⟩
  rcases List.mem_cons.1 hmem with rfl | hmem
  · cases hholds
  · obtain rfl := List.mem_singleton.1 hmem
    cases hfield

end EverythingImu.Core
