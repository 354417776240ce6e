import EverythingImu.SlimeTracker.Client
import EverythingImu.SlimeTracker.Sends

/-!
# Concurrent senders on one client

The sending functions of a `SlimeClient` (`client.rs`) as programs of atomic steps, any number of them in flight, next
to the two tasks of the client.  A call takes the next sequence number, builds its datagram and hands it to the
socket; `send_rotation_and_accel` first chooses its path.  The trace lists what the laws are about, in the order in
which it happened: the datagrams that the receive loop handled, the clearing steps of the watchdog, the choices, and
the datagrams handed to the socket.
-/

namespace EverythingImu.SlimeTracker

open Buffer StepRun Words

/-- Identification metadata sent in every handshake. -/
structure HandshakeInfo where
  board : BoardType
  imu : ImuType
  mcu : McuType
  magStatus : Int32
  firmware : String
  macAddress : Mac

structure SensorDescriptor where
  sensorId : UInt8
  imuType : ImuType
  magConfig : UInt16
  position : TrackerPosition
  dataType : TrackerDataType

def HandshakeInfo.packet (info : HandshakeInfo) : SbPacket :=
  .handshake info.board info.imu info.mcu (info.magStatus, 0, 0) 19 (.ofString info.firmware) info.macAddress

/-- A board that tells nothing about itself. -/
def HandshakeInfo.blank : HandshakeInfo where
  board := .custom
  imu := .unknown
  mcu := .unknown
  magStatus := 0
  firmware := ""
  macAddress := Vector.replicate 6 0

/-- One datagram that a call has to send. -/
inductive Job where
  | handshake (info : HandshakeInfo)
  | packet (data : SbPacket)
  | bundle (sensorId : UInt8) (rotation : SlimeQuaternion) (accel : F32 × F32 × F32)

/-- The datagram of a job under a sequence number. -/
def Job.build (seq : UInt64) : Job → Outcome ClientError (List UInt8)
  | .handshake info => .ok (Packet.new seq info.packet).toBytes
  | .packet data => .ok (Packet.new seq data).toBytes
  | .bundle sensorId rotation accel => do
    let datagrams ← sendBundleRotAccel (fun _ => seq) sensorId rotation accel
    return datagrams.flatten

/-- The next step of a call, with the jobs that it has left. -/
inductive CallPc where
  | choosing (sensorId : UInt8) (rotation : SlimeQuaternion) (accel : F32 × F32 × F32)
  | numbering (job : Job) (rest : List Job)
  | building (seq : Nat) (job : Job) (rest : List Job)
  | handing (seq : Nat) (job : Job) (datagram : List UInt8) (rest : List Job)
  | stampingHandshake (rest : List Job)
  | countingSent (rest : List Job)
  | stampingSent (rest : List Job)
  | returned

/-- The next job of a call, or its end. -/
def CallPc.next : List Job → CallPc
  | [] => .returned
  | job :: rest => .numbering job rest

/-- Where a call goes on behind its send: a handshake that is refused counts as sent, any other datagram that is refused
is not counted. -/
def CallPc.handedOver (rest : List Job) : Job → SendOutcome → CallPc
  | .handshake _, .failed => .returned
  | .handshake _, _ => .stampingHandshake rest
  | _, .sent => .countingSent rest
  | _, .refused => .next rest
  | _, .failed => .returned

/-- The number that a call has taken and not handed over. -/
def CallPc.ticket : CallPc → Option Nat
  | .building seq _ _ | .handing seq _ _ _ => some seq
  | _ => none

/-- The sending functions. -/
inductive Send where
  | handshake (info : HandshakeInfo)
  | sensorInfo (desc : SensorDescriptor)
  | featureFlags (flagBytes : List UInt8)
  | rotationAndAccel (sensorId : UInt8) (rotation : SlimeQuaternion) (accel : F32 × F32 × F32)
  | rotation (sensorId : UInt8) (quat : SlimeQuaternion)
  | acceleration (sensorId : UInt8) (vector : F32 × F32 × F32)
  | magnetometer (sensorId : UInt8) (vector : F32 × F32 × F32)
  | userAction (action : ActionType)
  | battery (voltageVolts level : F32)

/-- Where a call of a sending function starts. -/
def Send.start : Send → CallPc
  | .handshake info => .numbering (.handshake info) []
  | .sensorInfo desc =>
    .numbering (.packet (.sensorInfo desc.sensorId .ok desc.imuType desc.magConfig 1 desc.position desc.dataType)) []
  | .featureFlags flagBytes => .numbering (.packet (.featureFlags flagBytes)) []
  | .rotationAndAccel sensorId quat accel => .choosing sensorId quat accel
  | .rotation sensorId quat => .numbering (.packet (.rotationData sensorId .normal quat 0)) []
  | .acceleration sensorId vector => .numbering (.packet (.acceleration vector sensorId)) []
  | .magnetometer sensorId vector => .numbering (.packet (.magnetometer sensorId .normal vector 0)) []
  | .userAction action => .numbering (.packet (.userAction action)) []
  | .battery voltageVolts level => .numbering (.packet (.batteryLevel voltageVolts level)) []

/-- What happened on a client. -/
inductive Event where
  | handled (payload : List UInt8)
  /-- The watchdog cleared the bundle flag. -/
  | cleared
  /-- A call chose its path. -/
  | chose (call : Nat) (bundle : Bool)
  | handed (seq : Nat) (datagram : List UInt8)

structure Senders where
  client : SlimeClient
  calls : List CallPc
  /-- What happened so far, oldest first. -/
  trace : List Event

inductive SenderAction where
  /-- A step of the receive loop or the watchdog. -/
  | client (a : ClientAction)
  | call (send : Send)
  /-- The next step of a call, with the clock and the outcome of a send. -/
  | advance (i : Nat) (now : Nat) (outcome : SendOutcome)

/-- The receive loop reads into a buffer of this size. -/
def RECV_BUFFER : Nat := 1500

/-- The action on the client, with a datagram cut off at the end of the buffer. -/
def ClientAction.received : ClientAction → ClientAction
  | .datagram payload now => .datagram (payload.take RECV_BUFFER) now
  | a => a

namespace Senders

/-- A client on its way back from `connect`. -/
def connect (info : HandshakeInfo) (handshakeAt sentAt : Nat) : Senders where
  client := .connect handshakeAt sentAt
  calls := []
  trace := [.handed 0 (Packet.new 0 info.packet).toBytes]

/-- What a step of one of the client's tasks puts into the trace. -/
def clientEvents (info : HandshakeInfo) (c : SlimeClient) : ClientAction → List Event
  | .datagram _ _ => []
  | .receiveLoop =>
    match c.receivePc with
    | .handling payload => [.handled payload]
    | _ => []
  | .watchdog _ _ =>
    match c.watchdogPc with
    | .disablingBundle => [.cleared]
    | .sending seq => [.handed seq (Packet.new (UInt64.ofNat seq) info.packet).toBytes]
    | _ => []

/-- A step of call `i`, which is at `pc`. -/
def advance (s : Senders) (i : Nat) (now : Nat) (outcome : SendOutcome) : CallPc → Option Senders
  | .choosing sensorId rotation accel =>
    let bundle := s.client.serverSupportsBundle
    let pc :=
      if bundle then CallPc.numbering (.bundle sensorId rotation accel) []
      -- rotation first
      else .numbering (.packet (.rotationData sensorId .normal rotation 0)) [.packet (.acceleration accel sensorId)]
    some { s with calls := s.calls.set i pc, trace := s.trace ++ [.chose i bundle] }
  | .numbering job rest =>
    some { s with
      client := { s.client with seq := s.client.seq + 1 }
      calls := s.calls.set i (.building s.client.seq job rest) }
  | .building seq job rest =>
    match job.build (UInt64.ofNat seq) with
    | .ok datagram => some { s with calls := s.calls.set i (.handing seq job datagram rest) }
    | _ => some { s with calls := s.calls.set i .returned }
  | .handing seq job datagram rest =>
    some { s with
      calls := s.calls.set i (.handedOver rest job outcome)
      trace := s.trace ++ [.handed seq datagram] }
  | .stampingHandshake rest =>
    some { s with
      client := { s.client with lastHandshakeMsUnix := now }
      calls := s.calls.set i (.countingSent rest) }
  | .countingSent rest =>
    some { s with
      client := { s.client with packetsSent := s.client.packetsSent + 1 }
      calls := s.calls.set i (.stampingSent rest) }
  | .stampingSent rest =>
    some { s with
      client := { s.client with lastSendMsUnix := now }
      calls := s.calls.set i (.next rest) }
  | .returned => none

def step (info : HandshakeInfo) (s : Senders) : SenderAction → Option Senders
  | .client a => do
    let client ← s.client.step a.received
    return { s with client, trace := s.trace ++ clientEvents info s.client a }
  | .call send => some { s with calls := s.calls ++ [send.start] }
  | .advance i now outcome => s.calls[i]?.bind (s.advance i now outcome)

/-- The sequence numbers and datagrams that were handed to the socket, oldest first. -/
def handed (s : Senders) : List (Nat × List UInt8) :=
  s.trace.filterMap fun e =>
    match e with
    | .handed seq datagram => some (seq, datagram)
    | _ => none

end Senders

end EverythingImu.SlimeTracker
