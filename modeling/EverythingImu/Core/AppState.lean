import EverythingImu.Core.PipelineRun
import EverythingImu.Library.Channel
import EverythingImu.Library.SlotTable
import EverythingImu.Library.StepRun

/-!
# The device registry

`AppState` (`app_state.rs`) with every registration there was: the sections of `register_device` under the write lock,
the task that it spawns, and `shutdown`.  The task runs the pipeline, one turn of its select at a time, and reaps the
registry entry of its device when the run ended with `DeviceDisconnected`.

A registration keeps its slot in the table, and the entry of a device is the slot that is current for its id.  The
handle stored in the entry owns the senders of the stop and command channels, so they close when it is dropped.  The
settings are read for `spawn`; the clones of the command sender that waiting finish calls hold, the observer channels
and the broadcast of new devices are left out.
-/

namespace EverythingImu.Core

open Channel StepRun

/-- The task that `register_device` spawns. -/
inductive Task (F : Type) where
  | notSpawned
  | running (pipeline : Pipeline F)
  /-- `run` has returned, with the pipeline as it was last; the rest of the task is still to come. -/
  | returned (last : Pipeline F) (result : Except AppError Unit)
  | finished (result : Except AppError Unit)
  /-- The task was aborted and is gone. -/
  | cancelled

structure Registration (F : Type) where
  metadata : DeviceMetadata
  events : Mpsc ChannelInfo
  stop : Watch Bool
  magCalCmd : Watch MagCalCommand
  /-- The version of the command watch that the pipeline has seen. -/
  magCalCmdSeen : Nat
  task : Task F
  /-- `register_device` has inserted the handle. -/
  inserted : Bool
  aborted : Bool

variable {F : Type}

namespace Registration

def new (metadata : DeviceMetadata) : Registration F where
  metadata
  events := ⟨[], false⟩
  stop := Watch.channel false
  magCalCmd := Watch.channel .idle
  magCalCmdSeen := 0
  task := .notSpawned
  inserted := false
  aborted := false

/-- The handle of the registration is dropped. -/
def dropHandle (r : Registration F) : Registration F :=
  { r with stop := r.stop.dropSenders, magCalCmd := r.magCalCmd.dropSenders }

/-- The entry was found stale: its pipeline is stopped and aborted. -/
def replaceStale (r : Registration F) : Registration F :=
  { r with stop := (r.stop.send true).dropSenders, magCalCmd := r.magCalCmd.dropSenders, aborted := true }

def setInserted (r : Registration F) : Registration F := { r with inserted := true }

def setTask (task : Task F) (r : Registration F) : Registration F := { r with task }

end Registration

/-! ### A turn of the select -/

/-- The branch that the select of `run` takes. -/
inductive Branch where
  | stop
  | magCalCmd
  | event (env : EventEnv)
  | allDisabled

namespace Registration

/-- What a branch hands over, if it is ready.  The stop receiver has seen nothing yet. -/
def select (r : Registration F) : Branch → Option RunTurn
  | .stop =>
    match r.stop.changed 0 with
    | .ready _ => some .stop
    | .pending => none
  | .magCalCmd =>
    match r.magCalCmd.changed r.magCalCmdSeen with
    | .ready _ => some (.magCalCmd r.magCalCmd.value)
    | .pending => none
  | .event env =>
    match r.events.recv with
    | .ready (some evt) => some (.event evt env)
    | _ => none
  | .allDisabled =>
    if disabled (fun _ => true) (r.stop.changed 0) && disabled (fun _ => true) (r.magCalCmd.changed r.magCalCmdSeen) &&
        disabled Option.isSome r.events.recv then
      some .allDisabled
    else none

/-- The channels after a branch was taken. -/
def consume (r : Registration F) : Branch → Registration F
  | .magCalCmd => { r with magCalCmdSeen := r.magCalCmd.version }
  | .event _ => { r with events := r.events.pop }
  | _ => r

variable [OrientationFilter F] (calibrate : List Mag → Option MagCalibration)

/-- One turn of the loop, if the branch is ready. -/
def turn (r : Registration F) (store : BiasStore) (branch : Branch) : Option (Registration F × BiasStore) :=
  match r.task with
  | .running p =>
    (r.select branch).map fun t =>
      let o := p.runTurn calibrate store t
      let task :=
        match o.returned with
        | some result => Task.returned o.pipeline result
        | none => .running o.pipeline
      ((r.consume branch).setTask task, o.store)
  | _ => none

end Registration

/-! ### The registry -/

abbrev Devices (F : Type) := SlotTable DeviceId (Registration F)

namespace Devices

variable (d : Devices F)

/-- The other ids with an entry of the same MAC. -/
def staleIds (id : DeviceId) : List DeviceId :=
  d.index.keys.filter fun did =>
    did ≠ id ∧ (((d.current did).bind d.slot).any fun r => r.metadata.id.mac = id.mac) = true

/-- Remove an entry and drop its handle. -/
def remove (id : DeviceId) : Devices F :=
  match d.current id with
  | some n => (d.forget id).modify n Registration.dropHandle
  | none => d

def removeStale (id : DeviceId) : Devices F :=
  match d.current id with
  | some n => (d.forget id).modify n Registration.replaceStale
  | none => d

/-- The first section of `register_device`. -/
def purge (id : DeviceId) : Devices F := (d.staleIds id).foldl removeStale d

/-- The last section of `register_device`; an entry of the same id is replaced and its handle dropped. -/
def insert (id : DeviceId) (n : Nat) : Devices F :=
  (SlotTable.modify (d.remove id) n Registration.setInserted).point id n

end Devices

structure AppState (F : Type) where
  biasStore : BiasStore
  devices : Devices F
  /-- The registrations whose handles a `shutdown` has taken and not dropped yet. -/
  draining : List Nat

def AppState.start (biasStore : BiasStore) : AppState F := ⟨biasStore, .empty, []⟩

/-- The steps of the registrations, of their tasks and of what surrounds them; a number is that of a registration. -/
inductive AppAction where
  /-- `register_device` is called: the purge. -/
  | registerDevice (metadata : DeviceMetadata)
  /-- `Pipeline::new` and the spawn of the task. -/
  | spawn (n : Nat) (config : PipelineConfig) (now : Instant)
  | insert (n : Nat)
  /-- A turn of the pipeline. -/
  | turn (n : Nat) (branch : Branch)
  /-- The rest of the task after `run` has returned. -/
  | reap (n : Nat)
  /-- An aborted task goes away. -/
  | cancel (n : Nat)
  /-- The device sends an event. -/
  | emit (n : Nat) (evt : ChannelInfo)
  /-- The last sender of the events is dropped. -/
  | closeEvents (n : Nat)
  /-- A calibration call sends a command through the entry. -/
  | magCal (n : Nat) (cmd : MagCalCommand)
  /-- `shutdown` takes all handles out of the registry. -/
  | shutdown
  /-- `shutdown` stops a pipeline whose handle it has taken. -/
  | stopDrained (n : Nat)
  /-- `shutdown` drops a handle: the task has ended, or the wait for it timed out. -/
  | dropDrained (n : Nat)

variable [OrientationFilter F] (calibrate : List Mag → Option MagCalibration)

def appStep (s : AppState F) : AppAction → Option (AppState F)
  | .registerDevice metadata => some { s with devices := (s.devices.purge metadata.id).push (.new metadata) }
  | .spawn n config now => do
    let r ← s.devices.slot n
    match r.task with
    | .notSpawned =>
      -- every device is its own tracker connection, with sensor 0
      let pipeline := Pipeline.new r.metadata s.biasStore 0 config now
      some { s with devices := s.devices.modify n (Registration.setTask (.running pipeline)) }
    | _ => none
  | .insert n => do
    let r ← s.devices.slot n
    match r.task, r.inserted with
    | .notSpawned, _ => none
    | _, true => none
    | _, false => some { s with devices := s.devices.insert r.metadata.id n }
  | .turn n branch => do
    let r ← s.devices.slot n
    let (r', biasStore) ← r.turn calibrate s.biasStore branch
    some { s with devices := s.devices.modify n fun _ => r', biasStore }
  | .reap n => do
    let r ← s.devices.slot n
    match r.task with
    | .returned _ result =>
      let devices :=
        match result with
        | .error .deviceDisconnected => s.devices.remove r.metadata.id
        | _ => s.devices
      some { s with devices := devices.modify n (Registration.setTask (.finished result)) }
    | _ => none
  | .cancel n => do
    let r ← s.devices.slot n
    match r.task, r.aborted with
    | .running _, true => some { s with devices := s.devices.modify n (Registration.setTask .cancelled) }
    | .returned _ _, true => some { s with devices := s.devices.modify n (Registration.setTask .cancelled) }
    | _, _ => none
  | .emit n evt => do
    let r ← s.devices.slot n
    if r.events.closed then none
    else some { s with devices := s.devices.modify n fun r => { r with events := r.events.send evt } }
  | .closeEvents n =>
    some { s with devices := s.devices.modify n fun r => { r with events := r.events.dropSenders } }
  | .magCal n cmd => do
    let r ← s.devices.slot n
    if s.devices.current r.metadata.id = some n then
      some { s with devices := s.devices.modify n fun r => { r with magCalCmd := r.magCalCmd.send cmd } }
    else none
  | .shutdown =>
    some { s with devices := s.devices.forgetAll, draining := s.draining ++ s.devices.index.entries.map (·.2) }
  | .stopDrained n =>
    if n ∈ s.draining then
      some { s with devices := s.devices.modify n fun r => { r with stop := r.stop.send true } }
    else none
  | .dropDrained n =>
    if n ∈ s.draining then
      some { s with devices := s.devices.modify n Registration.dropHandle, draining := s.draining.erase n }
    else none

end EverythingImu.Core
