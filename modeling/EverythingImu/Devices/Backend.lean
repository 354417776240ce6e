import EverythingImu.Devices.Forwarded
import EverythingImu.Devices.Sony
import EverythingImu.Devices.Steam
import EverythingImu.Devices.TeslaStream
import EverythingImu.Hopx.RecordParser
import EverythingImu.Joycon.Samples
import EverythingImu.Remote.Hub
import EverythingImu.Wii.Device

/-!
# The backends

The readers of all devices under one interface: what a reader keeps between the reports of its device, and the batch
of samples that it makes of a report.  A backend is host-stamped when its reader takes the timestamps of the samples
from the clock of the host; the reader of any other backend pays no attention to the time of a report
(`timeBlind_of_not_hostStamped`).
-/

namespace EverythingImu.Devices

/-- The reader of a device, from its start at an instant on. -/
structure Reader where
  Report : Type
  State : Type
  init : Instant → State
  /-- A report that is read at an instant, and the batch of samples made of it. -/
  read : State → Report → Instant → State × Option (List ImuSample)

/-- A reader that keeps the instant of its start. -/
def Reader.stamping {Report : Type} (sample : Report → Instant → Instant → Option ImuSample) : Reader where
  Report := Report
  State := Instant
  init := id
  read start report now := (start, (sample report start now).map ([·]))

inductive Backend where
  | joyCon1 (kind : Joycon.ControllerKind)
  | joyCon2 (kind : Joycon.JoyCon2Kind) (magBiasUt : Option (Vector Float32 3))
  | dualSense (kind : Sony.DualSense.ControllerKind) (calibration : Option Sony.DualSense.SonyCalibration)
  | dualShock3
  | psMove (kind : Sony.PsMove.ControllerKind) (calibration : Sony.PsMove.ImuCalibration)
  | wii
  | steamDeck
  | steamController
  | hopx
  | threeDs
  | vita
  | tesla
  | remote

namespace Backend

/-- The sample of a datagram, its numbers given by their bit patterns. -/
def sampleOfBits (s : Remote.ImuSampleBits) : ImuSample where
  gyro := #v[s.gyro.1.toFloat32, s.gyro.2.1.toFloat32, s.gyro.2.2.toFloat32]
  accel := #v[s.accel.1.toFloat32, s.accel.2.1.toFloat32, s.accel.2.2.toFloat32]
  mag := s.mag.map fun m => #v[m.1.toFloat32, m.2.1.toFloat32, m.2.2.toFloat32]
  timestampUs := s.timestampUs

/-- The batch of a datagram for the device. -/
def remoteBatch (datagram : List UInt8) : Option (List ImuSample) :=
  match Remote.parse datagram with
  | .ok msg =>
    match msg.event with
    | some (_, .imu samples) => some (samples.map sampleOfBits)
    | _ => none
  | _ => none

/-- A record of the BLE tracker carries no timestamp. -/
def hopxSample (r : Hopx.ParsedRecord) : ImuSample := ⟨r.gyro, r.accel, none, 0⟩

def reader : Backend → Reader
  | .joyCon1 kind =>
    { Report := List UInt8
      State := Joycon.CalState
      init := fun _ => .start
      read := fun st buf _ => (Joycon.onReport st buf, Joycon.jc1Samples kind st.cal buf) }
  | .joyCon2 kind magBiasUt =>
    { Report := List UInt8
      State := Unit
      init := fun _ => ()
      read := fun _ buf _ => ((), (Joycon.parseInputReport0x05 kind buf magBiasUt).map ([·.sample])) }
  | .dualSense kind calibration =>
    { Report := List UInt8
      State := Unit
      init := fun _ => ()
      read := fun _ buf _ => ((), (Sony.DualSense.parseReport kind buf calibration).map ([·.1])) }
  | .dualShock3 =>
    .stamping fun buf start now =>
      (Sony.DualShock3.parseInputReport buf).map (Sony.DualShock3.imuFromMotion · start now)
  | .psMove kind calibration =>
    { Report := List UInt8
      State := Sony.PsMove.ReportClock
      init := fun _ => .new
      read := fun clock buf now =>
        let parsed := Sony.PsMove.parseReport kind buf clock calibration now
        (parsed.1, parsed.2.map (·.1)) }
  | .wii => .stamping fun pkt start now => some (Wii.imuOfPacket pkt start now)
  | .steamDeck => .stamping Steam.Deck.readReport
  | .steamController => .stamping Steam.Controller.readReport
  | .hopx =>
    { Report := List UInt8
      State := Hopx.RecordParser
      init := fun _ => .new
      read := fun parser data _ =>
        let (records, parser) := parser.feed data
        (parser, if records.isEmpty then none else some (records.map hopxSample)) }
  | .threeDs =>
    { Report := Forwarded.ThreeDs.ThreeDsPacket
      State := Instant × Forwarded.ThreeDs.Gravity
      init := fun start => (start, .new)
      read := fun (start, gravity) pkt now =>
        let (gravity, sample) := Forwarded.ThreeDs.readPacket gravity pkt start now
        ((start, gravity), sample.map ([·])) }
  | .vita => .stamping fun pkt start now => some (Forwarded.Vita.imuFromPacket pkt start now)
  | .tesla =>
    { Report := Tesla.StreamMessage
      -- none once a message has kept the reader in a loop forever
      State := Option (Tesla.ImuSynth Float32)
      init := fun _ => some .new
      read := fun synth msg _ =>
        let result := synth.bind (·.readMessage msg)
        (result.map (·.1), (result.bind (·.2)).map ([·])) }
  | .remote =>
    { Report := List UInt8
      State := Unit
      init := fun _ => ()
      read := fun _ datagram _ => ((), remoteBatch datagram) }

/-- The timestamps of the samples are times of the host. -/
def HostStamped : Backend → Prop
  | .dualShock3 | .psMove _ _ | .wii | .steamDeck | .steamController | .threeDs | .vita => True
  | .joyCon1 _ | .joyCon2 _ _ | .dualSense _ _ | .hopx | .tesla | .remote => False

end Backend

/-- The reader pays no attention to the time. -/
structure Reader.TimeBlind (R : Reader) : Prop where
  init : ∀ start start', R.init start = R.init start'
  read : ∀ s report now now', R.read s report now = R.read s report now'

theorem timeBlind_of_not_hostStamped {b : Backend} (h : ¬b.HostStamped) : b.reader.TimeBlind := by
  cases b with
  | dualShock3 | psMove | wii | steamDeck | steamController | threeDs | vita => exact absurd trivial h
  | joyCon1 | joyCon2 | dualSense | hopx | tesla | remote => exact ⟨fun _ _ => rfl, fun _ _ _ _ => rfl⟩

end EverythingImu.Devices
