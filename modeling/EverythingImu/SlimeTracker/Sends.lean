import EverythingImu.SlimeTracker.Bundle
import EverythingImu.SlimeTracker.ServerBound

/-!
# Sending a rotation and an acceleration

`send_rotation_and_accel` (`client.rs`) and its two paths, as the datagrams they hand to the socket one after the
other; a send that fails ends the list early.  Other senders share the sequence counter, so the numbers that one call
takes are arguments: `seqs n` is the one that it takes after `n` others.

Both paths carry the same bytes (`bundle_carries_fallback`).
-/

namespace EverythingImu.SlimeTracker

open Buffer Words

inductive ClientError where
  | encode
deriving DecidableEq

section Sends

variable (seqs : Nat → UInt64) (sensorId : UInt8) (rotation : SlimeQuaternion) (accel : F32 × F32 × F32)

/-- `send_bundle_rot_accel`. -/
def sendBundleRotAccel : Outcome ClientError (List (List UInt8)) := do
  let rotBytes := (Packet.new 0 (.rotationData sensorId .normal rotation 0)).toBytes
  let accelBytes := (Packet.new 0 (.acceleration accel sensorId)).toBytes
  let inners := [(17, ← slice rotBytes 12 rotBytes.length), (4, ← slice accelBytes 12 accelBytes.length)]
  let bundle ← (encodeBundle (seqs 0) inners).mapErr fun _ => .encode
  return [bundle]

def sendRotation (seq : UInt64) : List UInt8 := (Packet.new seq (.rotationData sensorId .normal rotation 0)).toBytes

def sendAcceleration (seq : UInt64) : List UInt8 := (Packet.new seq (.acceleration accel sensorId)).toBytes

/-- The hot path: a bundle if the server supports it, else two datagrams with the rotation first. -/
def sendRotationAndAccel (serverSupportsBundle : Bool) : Outcome ClientError (List (List UInt8)) :=
  if serverSupportsBundle then sendBundleRotAccel seqs sensorId rotation accel
  else .ok [sendRotation sensorId rotation (seqs 0), sendAcceleration sensorId accel (seqs 1)]

variable {sensorId rotation accel}

/-- The part of a packet behind its header, as the bundle path cuts it off. -/
private theorem slice_body (p : Packet) :
    (slice p.toBytes 12 p.toBytes.length : Outcome ClientError (List UInt8)) = .ok p.data.body := by
  have hlen := p.length_toBytes
  have hrest : portion p.toBytes 12 p.data.body.length = p.toBytes.drop 12 :=
    List.take_of_length_le (by rw [List.length_drop]; omega)
  rw [hlen, slice_eq (by omega), hrest, Packet.drop_toBytes]

theorem length_rotation_body (dataType : SensorDataType) (calibrationInfo : UInt8) :
    (SbPacket.rotationData sensorId dataType rotation calibrationInfo).body.length = 19 := by
  simp only [SbPacket.body, List.length_append, length_toBe]
  rfl

theorem length_acceleration_body : (SbPacket.acceleration accel sensorId).body.length = 13 := by
  simp only [SbPacket.body, SbPacket.vector3, List.length_append, length_toBe]
  rfl

variable (sensorId rotation accel)

/-- Whatever the sequence numbers, the bundle decodes to two inner packets with the ids 17 and 4 whose payloads are
the bodies of the two datagrams of the fallback path. -/
theorem bundle_carries_fallback (seqs' : Nat → UInt64) :
    ∃ bundle rotationDatagram accelDatagram,
      sendRotationAndAccel seqs sensorId rotation accel true = .ok [bundle] ∧
        sendRotationAndAccel seqs' sensorId rotation accel false = .ok [rotationDatagram, accelDatagram] ∧
        decodeBundle bundle = .ok (seqs 0, [(17, rotationDatagram.drop 12), (4, accelDatagram.drop 12)]) := by
  have hrot : (SbPacket.rotationData sensorId .normal rotation 0).body.length = 19 := length_rotation_body _ _
  have hacc : (SbPacket.acceleration accel sensorId).body.length = 13 := length_acceleration_body
  let inners : List BundleInner :=
    [(17, (SbPacket.rotationData sensorId .normal rotation 0).body), (4, (SbPacket.acceleration accel sensorId).body)]
  have hfit : ∀ inner ∈ inners, 4 + inner.2.length ≤ 0xFFFF := by
    intro inner hmem
    rcases List.mem_cons.1 hmem with rfl | hmem
    · show 4 + (SbPacket.rotationData sensorId .normal rotation 0).body.length ≤ 0xFFFF
      omega
    · obtain rfl := List.mem_singleton.1 hmem
      show 4 + (SbPacket.acceleration accel sensorId).body.length ≤ 0xFFFF
      omega
  obtain ⟨bundle, hbundle⟩ : ∃ buf, encodeBundle (seqs 0) inners = .ok buf := encodeBundle_isOk_iff.2 hfit
  refine ⟨bundle, sendRotation sensorId rotation (seqs' 0), sendAcceleration sensorId accel (seqs' 1), ?_, rfl, ?_⟩
  · rw [sendRotationAndAccel, if_pos rfl, sendBundleRotAccel]
    rw [slice_body, Outcome.ok_bind, slice_body, Outcome.ok_bind]
    show (encodeBundle (seqs 0) inners).mapErr _ >>= _ = _
    rw [hbundle, Outcome.mapErr_ok, Outcome.ok_bind, Outcome.pure_eq]
  · rw [sendRotation, sendAcceleration, Packet.drop_toBytes, Packet.drop_toBytes]
    exact decodeBundle_eq_ok_iff.2 hbundle

end Sends

end EverythingImu.SlimeTracker
