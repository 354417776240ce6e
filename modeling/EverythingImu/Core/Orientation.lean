import EverythingImu.Core.PipelineConfig
import EverythingImu.Library.Scalar

/-!
# The outgoing orientation

The mounting preset and the yaw offset that the pipeline composes with its estimate (`pipeline.rs`), over a scalar
with angles; and the frame remap of body vectors (`coord.rs`).  Quaternions are in the order x, y, z, w.
-/

namespace Vector

variable {α : Type}

/-- The parts of a quaternion by position; the modules differ in the order. -/
@[simp] abbrev q0 (q : Vector α 4) : α := q[0]

@[simp] abbrev q1 (q : Vector α 4) : α := q[1]

@[simp] abbrev q2 (q : Vector α 4) : α := q[2]

@[simp] abbrev q3 (q : Vector α 4) : α := q[3]

end Vector

namespace EverythingImu.Core

variable {K : Type} [TrigScalar K]

def quatMulXyzw (a b : Vector K 4) : Vector K 4 :=
  #v[a[3] * b[0] + a[0] * b[3] + a[1] * b[2] - a[2] * b[1],
    a[3] * b[1] - a[0] * b[2] + a[1] * b[3] + a[2] * b[0],
    a[3] * b[2] + a[0] * b[1] - a[1] * b[0] + a[2] * b[3],
    a[3] * b[3] - a[0] * b[0] - a[1] * b[1] - a[2] * b[2]]

/-- The axis and the angle of a mounting preset. -/
def MountingOrientation.axisAngle : MountingOrientation → Option (Vector K 3 × K)
  | .identity => none
  | .leftSide => some (#v[0.0, 1.0, 0.0], TrigScalar.pi / 2.0)
  | .rightSide => some (#v[0.0, 1.0, 0.0], -(TrigScalar.pi / 2.0))
  | .upsideDown => some (#v[0.0, 1.0, 0.0], TrigScalar.pi)
  | .facingForward => some (#v[1.0, 0.0, 0.0], TrigScalar.pi / 2.0)
  | .facingBack => some (#v[1.0, 0.0, 0.0], -(TrigScalar.pi / 2.0))

def MountingOrientation.quatXyzw (mounting : MountingOrientation) : Vector K 4 :=
  match (mounting.axisAngle : Option (Vector K 3 × K)) with
  | none => #v[0.0, 0.0, 0.0, 1.0]
  | some (axis, angle) =>
    let s := TrigScalar.sin (angle * 0.5)
    let c := TrigScalar.cos (angle * 0.5)
    #v[axis.x * s, axis.y * s, axis.z * s, c]

/-- A rotation around the Y axis by `deg` degrees. -/
def yawOffsetQuat (deg : K) : Vector K 4 :=
  let half := deg * TrigScalar.pi / 180.0 * 0.5
  #v[0.0, TrigScalar.sin half, 0.0, TrigScalar.cos half]

def normalizeQuat (q : Vector K 4) : Vector K 4 :=
  let n2 := q[0] * q[0] + q[1] * q[1] + q[2] * q[2] + q[3] * q[3]
  if 0.0 < n2 then
    let inv := 1.0 / TrigScalar.sqrt n2
    q.map (· * inv)
  else q

/-- The estimate with the mounting preset and the yaw offset in front; it is normalized only when one of them
applies. -/
def outgoingQuat (mounting : MountingOrientation) (rotationOffsetDeg : K) (estimate : Vector K 4) : Vector K 4 :=
  let mounted := if mounting = .identity then estimate else quatMulXyzw mounting.quatXyzw estimate
  if (0.0001 : K) < Scalar.abs rotationOffsetDeg then
    normalizeQuat (quatMulXyzw (yawOffsetQuat rotationOffsetDeg) mounted)
  else if mounting = .identity then mounted
  else normalizeQuat mounted

/-- `QuatXyzw::from_vqf_wijk`. -/
def fromVqfWijk (q : Vector Float 4) : Vector Float32 4 :=
  #v[q[1].toFloat32, q[2].toFloat32, q[3].toFloat32, q[0].toFloat32]

/-- `jsl_to_vqf_body`: the device body frame has Y up, the filter's has Z up. -/
def jslToVqfBody (v : Vector Float32 3) : Vector Float 3 := #v[v.x.toFloat, (-v.z).toFloat, v.y.toFloat]

end EverythingImu.Core
