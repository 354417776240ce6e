import EverythingImu.Remote.Protocol
import EverythingImu.Library.Channel
import EverythingImu.Library.SlotTable

/-!
# Remote devices

`RemoteDevice` (`device-remote/src/device.rs`): one device behind a handle of a hub.  The hub holds the sender of its
event channel, the route; the device holds the receiver, and once it is started its reader task turns every event into
an event of the pipeline.

Both ends of the channel are kept in one record (`RoutedDevice`).  The peer address of a device is a cell that it
shares with other devices of its hub, so the device has the number of the cell.
-/

namespace EverythingImu.Remote

open Channel Words

inductive IpAddr where
  | v4 (octets : Vector UInt8 4)
  | v6 (octets : Vector UInt8 16)
deriving DecidableEq

inductive SocketAddr where
  | v4 (octets : Vector UInt8 4) (port : UInt16)
  | v6 (octets : Vector UInt8 16) (port : UInt16) (flowinfo scopeId : UInt32)
deriving DecidableEq

def SocketAddr.ip : SocketAddr → IpAddr
  | .v4 octets _ => .v4 octets
  | .v6 octets _ _ _ => .v6 octets

/-- The peer addresses, each in a cell of its own, and the cell of every hub. -/
abbrev HubPeers := SlotTable IpAddr SocketAddr

inductive RemoteEvent where
  | imu (samples : List ImuSampleBits)
  | battery (state : BatteryBits)
  | reset (kind : ResetKind)
deriving DecidableEq

/-- `ChannelInfo`, with the numbers by their bit patterns. -/
inductive ChannelInfoBits where
  | connected (id : DeviceId)
  | imuSamples (samples : List ImuSampleBits)
  | battery (state : BatteryBits)
  | resetRequested (kind : ResetKind)
  | disconnected
deriving DecidableEq

def RemoteEvent.toChannelInfo : RemoteEvent → ChannelInfoBits
  | .imu samples => .imuSamples samples
  | .battery state => .battery state
  | .reset kind => .resetRequested kind

structure RemoteDevice where
  metadata : DeviceMetadata
  /-- The cell of the peer address. -/
  peer : Nat
  handle : UInt16
  hapticsOnly : Bool
deriving DecidableEq

namespace RemoteDevice

/-- A device at the address in a cell; `ipText` is the text of an address. -/
def new (ipText : IpAddr → String) (announce : Announce) (hubPeers : HubPeers) (peer : Nat) : RemoteDevice where
  metadata :=
    let peerIp := ((hubPeers.slot peer).map fun p => ipText p.ip).getD ""
    { id := { mac := announce.mac, serial := "remote-" ++ peerIp ++ "-" ++ toString announce.handle }
      kind := announce.kind
      firmware := some ("remote:" ++ announce.name)
      capabilities :=
        { hasMagnetometer := announce.hasMag
          hasBattery := announce.hasBattery
          hasRumble := announce.hasRumble
          nativeImuRateHz := max announce.rateHz 1 } }
  peer
  handle := announce.handle
  hapticsOnly := announce.rateHz = 0

/-- `intensity.clamp(0.0, 1.0)`, which leaves a NaN alone. -/
def clampUnit (x : F32) : F32 :=
  if x.toFloat32 < 0 then ⟨0⟩ else if 1 < x.toFloat32 then ⟨0x3F800000⟩ else x

/-- The datagram of a rumble command and where it goes. -/
def setRumble (d : RemoteDevice) (hubPeers : HubPeers) (intensity : F32) : Option (SocketAddr × List UInt8) :=
  (hubPeers.slot d.peer).map fun p => (p, encodeRumble d.handle (clampUnit intensity))

end RemoteDevice

/-! ### Both ends of the event channel -/

/-- Where the receiver of the event channel is. -/
inductive Reader where
  /-- Still in the device. -/
  | waiting
  /-- In the reader task. -/
  | running
  /-- Dropped. -/
  | done
deriving DecidableEq

/-- Packet loss by the sequence numbers of the second form of the sample message. -/
structure LossStats where
  lastSeq : Option UInt16
  received : Nat
  lost : Nat
  windowStart : Option Instant
deriving DecidableEq

namespace LossStats

def default : LossStats := ⟨none, 0, 0, none⟩

/-- The packets that are missing between two sequence numbers; a duplicate, a reordering or a restart counts nothing. -/
def missing (prev : Option UInt16) (seq : UInt16) : Nat :=
  match prev with
  | some prev => if 1 < seq - prev ∧ seq - prev < 1000 then (seq - prev).toNat - 1 else 0
  | none => 0

def record (l : LossStats) (seq : UInt16) (now : Instant) : LossStats :=
  let start := l.windowStart.getD now
  -- a window of ten seconds is reported and starts anew
  if 10_000_000_000 ≤ now - start then ⟨some seq, 0, 0, some now⟩
  else ⟨some seq, l.received + 1, l.lost + missing l.lastSeq seq, some start⟩

end LossStats

/-- The route of a handle and its device. -/
structure RoutedDevice where
  lastSeen : Instant
  loss : LossStats
  device : RemoteDevice
  events : Mpsc RemoteEvent
  reader : Reader
  /-- Everything that was sent to the pipeline, in order. -/
  sent : List ChannelInfoBits
deriving DecidableEq

/-- The capacity of the event channel. -/
def EVENT_CAPACITY : Nat := 256

inductive TrySend where
  | ok
  | full
  | closed
deriving DecidableEq

namespace RoutedDevice

def new (device : RemoteDevice) (now : Instant) : RoutedDevice where
  lastSeen := now
  loss := .default
  device
  events := ⟨[], false⟩
  reader := .waiting
  sent := []

/-- What `try_send` answers. -/
def trySend (d : RoutedDevice) : TrySend :=
  if d.reader = .done then .closed else if EVENT_CAPACITY ≤ d.events.queue.length then .full else .ok

/-- `touch`, and the event is sent if there is room for it. -/
def offer (event : RemoteEvent) (now : Instant) (d : RoutedDevice) : RoutedDevice :=
  { d with lastSeen := now, events := if d.trySend = .ok then d.events.send event else d.events }

def touch (now : Instant) (d : RoutedDevice) : RoutedDevice := { d with lastSeen := now }

def recordLoss (seq : UInt16) (now : Instant) (d : RoutedDevice) : RoutedDevice :=
  { d with loss := d.loss.record seq now }

/-- The route is dropped, and the sender with it. -/
def dropSender (d : RoutedDevice) : RoutedDevice := { d with events := d.events.dropSenders }

/-- `start`: the reader task reports the connection first; a second start fails and changes nothing. -/
def start (d : RoutedDevice) : RoutedDevice :=
  match d.reader with
  | .waiting =>
    { d with
      reader := .running
      sent := if d.device.hapticsOnly then d.sent else d.sent ++ [.connected d.device.metadata.id] }
  | .running | .done => d

/-- The next turn of the reader task; `delivered` says that the pipeline still receives. -/
def forward (delivered : Bool) (d : RoutedDevice) : Option RoutedDevice :=
  match d.reader, d.events.recv with
  | .running, .ready (some event) =>
    -- a device that is only there for haptics swallows its events
    if d.device.hapticsOnly then some { d with events := d.events.pop }
    else if delivered then some { d with events := d.events.pop, sent := d.sent ++ [event.toChannelInfo] }
    else some { d with events := d.events.pop, reader := .done }
  | .running, .ready none =>
    if d.device.hapticsOnly || !delivered then some { d with reader := .done }
    else some { d with reader := .done, sent := d.sent ++ [.disconnected] }
  | _, _ => none

/-- `stop` aborts the reader task. -/
def stop (d : RoutedDevice) : RoutedDevice :=
  match d.reader with
  | .running => { d with reader := .done }
  | .waiting | .done => d

/-- The device is dropped; a reader task that runs goes on. -/
def drop (d : RoutedDevice) : RoutedDevice :=
  match d.reader with
  | .waiting => { d with reader := .done }
  | .running | .done => d

end RoutedDevice

end EverythingImu.Remote
