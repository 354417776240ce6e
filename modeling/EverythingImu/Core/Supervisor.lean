import EverythingImu.Core.EventStream

/-!
# The supervisor and the control tasks

`Supervisor::run` (`supervisor.rs`) with the registry of `EverythingImu.Core.AppState`: it starts the devices that the
factories discover, one after another, spawns a control task for each that has started, and registers it.  The control
task makes the calls on the driver that `set_led_mask` and `set_rumble` (`app_state.rs`) ask for, and stops the device
when its channel has no sender left.

The control task of a registration has the registration's number.  Its senders are the one that the supervisor and then
the handle hold, and the clones of the calls that wait for a place in the channel.  A device is its metadata; what its
driver does in a call is left out, the calls that are made on it are logged.
-/

namespace EverythingImu.Core

open Channel StepRun

/-- The capacity of the channel of discovered devices and of the control channels. -/
def CHANNEL_CAPACITY : Nat := 16

inductive DeviceControl where
  | setLedMask (mask : UInt8)
  /-- Rumble intensity in `0.0..=1.0`. -/
  | setRumble (intensity : Float32)
deriving DecidableEq

/-- A call on the driver of a device. -/
inductive DriverCall where
  | start
  | command (cmd : DeviceControl)
  | stop
deriving DecidableEq

inductive ControlTask where
  | receiving
  /-- A command is with the driver. -/
  | executing
  /-- The channel has ended, and `stop` is with the driver. -/
  | stopping
  /-- The task is over and its receiver dropped. -/
  | ended
deriving DecidableEq

/-- The channel and the task that control one device. -/
structure Control where
  queue : List DeviceControl
  task : ControlTask
  /-- The calls made on the driver, in order. -/
  calls : List DriverCall
  /-- The commands that the channel took, in order. -/
  accepted : List DeviceControl

namespace Control

/-- The control of a device that has just started. -/
def spawned : Control := ⟨[], .receiving, [.start], []⟩

def accept (cmd : DeviceControl) (c : Control) : Control :=
  { c with queue := c.queue ++ [cmd], accepted := c.accepted ++ [cmd] }

def execute (cmd : DeviceControl) (rest : List DeviceControl) (c : Control) : Control :=
  { c with queue := rest, task := .executing, calls := c.calls ++ [.command cmd] }

def stopDevice (c : Control) : Control := { c with task := .stopping, calls := c.calls ++ [.stop] }

def setTask (task : ControlTask) (c : Control) : Control := { c with task }

end Control

/-- A call of `set_led_mask` or `set_rumble` that has cloned the sender of a registration and waits in `send`. -/
structure PendingSend where
  registration : Nat
  cmd : DeviceControl
deriving DecidableEq

inductive SupervisorState where
  /-- In `rx.recv`. -/
  | waiting
  | starting (metadata : DeviceMetadata)
  /-- The device has started and its control task is spawned; `register_device` is called with the metadata as they
  are now. -/
  | started (metadata : DeviceMetadata)
  /-- Between the sections of `register_device`. -/
  | registering (n : Nat)
  | finished
deriving DecidableEq

/-- A start that the supervisor has tried: the metadata from the factory, and those after the start if it succeeded. -/
structure StartAttempt where
  discovered : DeviceMetadata
  started : Option DeviceMetadata
deriving DecidableEq

structure System (F : Type) where
  app : AppState F
  /-- The channel from the factories. -/
  discovered : Mpsc DeviceMetadata
  supervisor : SupervisorState
  controls : List Control
  sends : List PendingSend
  /-- What the factories have sent, in order. -/
  announced : List DeviceMetadata
  attempts : List StartAttempt

variable {F : Type}

namespace System

def start (store : BiasStore) : System F := ⟨.start store, ⟨[], false⟩, .waiting, [], [], [], []⟩

def modifyControl (s : System F) (n : Nat) (f : Control → Control) : System F :=
  { s with controls := s.controls.modify n f }

/-- Every sender of the control channel is gone: the handle was dropped and no call holds a clone. -/
def sendersGone (s : System F) (n : Nat) : Bool :=
  (s.app.devices.slot n).any (·.stop.closed) && s.sends.all (·.registration != n)

end System

/-- What the control tasks and the waiting calls do. -/
inductive ControlAction where
  /-- The `i`-th waiting call finds a place in its channel. -/
  | deliver (i : Nat)
  /-- The `i`-th waiting call finds that the receiver is gone. -/
  | refuse (i : Nat)
  /-- The control task receives a command and hands it to the driver. -/
  | receive (n : Nat)
  /-- The driver is through with a command; an error is only logged. -/
  | returned (n : Nat)
  /-- The channel has ended, and the device is stopped. -/
  | stopDevice (n : Nat)
  /-- The driver is through with `stop`. -/
  | taskEnds (n : Nat)

def controlStep (s : System F) : ControlAction → Option (System F)
  | .deliver i => do
    let p ← s.sends[i]?
    let c ← s.controls[p.registration]?
    if c.task ≠ .ended ∧ c.queue.length < CHANNEL_CAPACITY then
      some { s.modifyControl p.registration (Control.accept p.cmd) with sends := s.sends.eraseIdx i }
    else none
  | .refuse i => do
    let p ← s.sends[i]?
    let c ← s.controls[p.registration]?
    if c.task = .ended then some { s with sends := s.sends.eraseIdx i } else none
  | .receive n => do
    let c ← s.controls[n]?
    match c.task, c.queue with
    | .receiving, cmd :: rest => some (s.modifyControl n (Control.execute cmd rest))
    | _, _ => none
  | .returned n => do
    let c ← s.controls[n]?
    if c.task = .executing then some (s.modifyControl n (Control.setTask .receiving)) else none
  | .stopDevice n => do
    let c ← s.controls[n]?
    if c.task = .receiving ∧ c.queue = [] ∧ s.sendersGone n then some (s.modifyControl n Control.stopDevice) else none
  | .taskEnds n => do
    let c ← s.controls[n]?
    if c.task = .stopping then some (s.modifyControl n (Control.setTask .ended)) else none

inductive SystemAction where
  /-- A factory sends a device. -/
  | discover (metadata : DeviceMetadata)
  /-- The last factory has returned. -/
  | factoriesExited
  /-- The supervisor is woken from `recv`. -/
  | next
  | startFailed
  /-- `start` has returned a stream of events; the metadata are read again. -/
  | started (metadata : DeviceMetadata)
  /-- A step of the registry. -/
  | app (a : AppAction)
  /-- `set_led_mask` or `set_rumble` finds a device of the MAC, the one of registration `n`. -/
  | call (mac : Mac) (n : Nat) (cmd : DeviceControl)
  /-- The future of a waiting call is dropped. -/
  | abandon (i : Nat)
  | control (a : ControlAction)

variable [OrientationFilter F] (calibrate : List Mag → Option MagCalibration)

/-- The supervisor after a step of the registry, if it lets the step happen: only the supervisor registers devices, and
a registration is through once its handle is inserted. -/
def SupervisorState.registers (sup : SupervisorState) (slots : Nat) : AppAction → Option SupervisorState
  | .registerDevice metadata => if sup = .started metadata then some (.registering slots) else none
  | .insert n => if sup = .registering n then some .waiting else none
  | _ => some sup

def systemStep (s : System F) : SystemAction → Option (System F)
  | .discover metadata =>
    if s.discovered.closed = false ∧ s.discovered.queue.length < CHANNEL_CAPACITY then
      some { s with discovered := s.discovered.send metadata, announced := s.announced ++ [metadata] }
    else none
  | .factoriesExited => some { s with discovered := s.discovered.dropSenders }
  | .next =>
    match s.supervisor, s.discovered.recv with
    | .waiting, .ready (some metadata) =>
      some { s with discovered := s.discovered.pop, supervisor := .starting metadata }
    | .waiting, .ready none => some { s with supervisor := .finished }
    | _, _ => none
  | .startFailed =>
    match s.supervisor with
    | .starting metadata => some { s with supervisor := .waiting, attempts := s.attempts ++ [⟨metadata, none⟩] }
    | _ => none
  | .started metadata =>
    match s.supervisor with
    | .starting before =>
      some { s with
        supervisor := .started metadata
        controls := s.controls ++ [.spawned]
        attempts := s.attempts ++ [⟨before, some metadata⟩] }
    | _ => none
  | .app a => do
    let supervisor ← s.supervisor.registers s.app.devices.slots.length a
    let app ← appStep calibrate s.app a
    some { s with app, supervisor }
  | .call mac n cmd => do
    let r ← s.app.devices.slot n
    if s.app.devices.current r.metadata.id = some n ∧ r.metadata.id.mac = mac then
      some { s with sends := s.sends ++ [⟨n, cmd⟩] }
    else none
  | .abandon i => if i < s.sends.length then some { s with sends := s.sends.eraseIdx i } else none
  | .control a => controlStep s a

end EverythingImu.Core
