import EverythingImu.DeviceTraits
import EverythingImu.Devices.TeslaHeading

/-!
# The stream of a Tesla

The messages of the stream as they decode, and what the reader makes of them (`device.rs` and `imu.rs` of
`device-tesla`) on `f32`.  The loops of `unwrapped_delta_deg` may go on forever.  Those that end do so within `TURNS`
turns (`ImuSynth.handleTextFrame_eq_none_iff`), so a reader that reaches this bound never comes back from the message.
-/

namespace EverythingImu.Tesla

/-- The columns of a streaming frame that make a sample. -/
structure StreamFrame where
  timestampMs : UInt64
  speedMph : Option Float32
  headingDeg : Option Float32
deriving DecidableEq

/-- A text frame of the stream, as it decodes. -/
inductive StreamMessage where
  | update (frame : StreamFrame)
  | error
  /-- Another type, or no frame in it. -/
  | other
deriving DecidableEq

/-- `saturating_mul`. -/
def saturatingMul (a b : UInt64) : UInt64 := UInt64.ofNat (min (UInt64.size - 1) (a.toNat * b.toNat))

def SynthSample.toImu (sample : SynthSample Float32) : ImuSample where
  gyro := #v[0.0, 0.0, sample.yawRateRadS]
  accel := #v[sample.longitudinalAccel, sample.lateralAccel, sample.verticalAccel]
  mag := none
  timestampUs := sample.timestampUs

/-- More turns than a loop of `unwrapped_delta_deg` takes that comes to an end. -/
def TURNS : Nat := 0x100000000

/-- `handle_text_frame` on what the text decodes to; `none` if a loop reaches its bound. -/
def ImuSynth.handleTextFrame (turns : Nat) (s : ImuSynth Float32) :
    StreamMessage → Option (ImuSynth Float32 × Option (SynthSample Float32))
  | .update frame => s.ingest turns (saturatingMul frame.timestampMs 1000) frame.headingDeg frame.speedMph
  | .error => some (.new, none)
  | .other => some (s, none)

/-- What the reader makes of a message; `none` if it never comes back from it. -/
def ImuSynth.readMessage (s : ImuSynth Float32) (msg : StreamMessage) : Option (ImuSynth Float32 × Option ImuSample) :=
  (s.handleTextFrame TURNS msg).map fun (s, sample) => (s, sample.map SynthSample.toImu)

end EverythingImu.Tesla
