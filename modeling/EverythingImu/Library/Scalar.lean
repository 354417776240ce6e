import Mathlib.Data.Rat.Defs

/-!
# Scalars

The operations on numbers that a numeric program uses.  A definition over a `Scalar` runs on doubles, where it
computes what the program computes, and on exact rationals.  A `TrigScalar` also has the roots and the angles.
A vector of three numbers has its coordinates by name.
-/

class Scalar (K : Type) where
  toAdd : Add K
  toSub : Sub K
  toMul : Mul K
  toDiv : Div K
  toNeg : Neg K
  toLT : LT K
  toLE : LE K
  toNatCast : NatCast K
  toOfScientific : OfScientific K
  decLt : DecidableLT K
  decLe : DecidableLE K

namespace Scalar

variable {K : Type} [Scalar K]

-- of low priority: a concrete type of numbers keeps its own operations
instance (priority := 50) : Add K := toAdd

instance (priority := 50) : Sub K := toSub

instance (priority := 50) : Mul K := toMul

instance (priority := 50) : Div K := toDiv

instance (priority := 50) : Neg K := toNeg

instance (priority := 50) : LT K := toLT

instance (priority := 50) : LE K := toLE

instance (priority := 50) : NatCast K := toNatCast

instance (priority := 50) : OfScientific K := toOfScientific

instance (priority := 50) : DecidableLT K := decLt

instance (priority := 50) : DecidableLE K := decLe

/-- The absolute value. -/
def abs (x : K) : K := if x < 0.0 then -x else x

/-- The value of `x` in the interval from `lo` to `hi`. -/
def clamp (x lo hi : K) : K := if x < lo then lo else if hi < x then hi else x

end Scalar

instance : Scalar Float where
  toAdd := inferInstance
  toSub := inferInstance
  toMul := inferInstance
  toDiv := inferInstance
  toNeg := inferInstance
  toLT := inferInstance
  toLE := inferInstance
  toNatCast := ⟨Float.ofNat⟩
  toOfScientific := inferInstance
  decLt := inferInstance
  decLe := inferInstance

instance : Scalar Float32 where
  toAdd := inferInstance
  toSub := inferInstance
  toMul := inferInstance
  toDiv := inferInstance
  toNeg := inferInstance
  toLT := inferInstance
  toLE := inferInstance
  toNatCast := ⟨Float32.ofNat⟩
  toOfScientific := inferInstance
  decLt := inferInstance
  decLe := inferInstance

instance : Scalar ℚ where
  toAdd := inferInstance
  toSub := inferInstance
  toMul := inferInstance
  toDiv := inferInstance
  toNeg := inferInstance
  toLT := inferInstance
  toLE := inferInstance
  toNatCast := inferInstance
  toOfScientific := inferInstance
  decLt := inferInstance
  decLe := inferInstance

class TrigScalar (K : Type) extends Scalar K where
  pi : K
  sin : K → K
  cos : K → K
  sqrt : K → K

instance : TrigScalar Float32 where
  pi := 3.14159265358979323846264338327950288
  sin := Float32.sin
  cos := Float32.cos
  sqrt := Float32.sqrt

namespace Vector

variable {α : Type}

@[simp] abbrev x (v : Vector α 3) : α := v[0]

@[simp] abbrev y (v : Vector α 3) : α := v[1]

@[simp] abbrev z (v : Vector α 3) : α := v[2]

theorem eq_coordinates (v : Vector α 3) : v = #v[v.x, v.y, v.z] := by
  ext i hi
  rcases i with _ | _ | _ | i
  · rfl
  · rfl
  · rfl
  · omega

end Vector
