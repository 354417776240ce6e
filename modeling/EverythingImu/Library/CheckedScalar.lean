import EverythingImu.Library.Buffer
import EverythingImu.Library.Scalar
import Mathlib

/-!
# Scalars with a checked division

Numbers that a program converts from integers and divides.  Floats can be divided by anything; a rational number has no
quotient by zero, and a run that asks for one panics (`dividedBy`).  So a run over the rationals that does not panic
divides by zero nowhere.
-/

open Buffer

class CheckedScalar (K : Type) extends Scalar K where
  ofInt : ℤ → K
  magnitude : K → K
  isFinite : K → Bool
  quotient : K → K → Option K

instance : CheckedScalar Float32 where
  ofInt := Float32.ofInt
  magnitude := Float32.abs
  isFinite := Float32.isFinite
  quotient a b := some (a / b)

instance : CheckedScalar ℚ where
  ofInt n := n
  magnitude x := |x|
  isFinite _ := true
  quotient a b := if b = 0 then none else some (a / b)

namespace CheckedScalar

variable {ε K : Type} [CheckedScalar K]

/-- The quotient of two numbers. -/
def dividedBy (a b : K) : Outcome ε K :=
  match quotient a b with
  | some q => .ok q
  | none => .panic

@[simp] theorem dividedBy_float32 (a b : Float32) : (dividedBy a b : Outcome ε Float32) = .ok (a / b) := rfl

theorem dividedBy_rat {b : ℚ} (a : ℚ) (hb : b ≠ 0) : (dividedBy a b : Outcome ε ℚ) = .ok (a / b) := by
  have hquotient : quotient a b = some (a / b) := if_neg hb
  rw [dividedBy, hquotient]

end CheckedScalar

namespace Buffer

variable {ε α : Type}

theorem size_triple (x y z : α) : #[x, y, z].size = 3 := rfl

def triple (x y z : α) : Vector α 3 := ⟨#[x, y, z], size_triple x y z⟩

theorem zero_lt_three : 0 < 3 := by decide
theorem one_lt_three : 1 < 3 := by decide
theorem two_lt_three : 2 < 3 := by decide

namespace Outcome

/-- Three axes, one behind the other. -/
def axes (f : Fin 3 → Outcome ε α) : Outcome ε (Vector α 3) := do
  return triple (← f ⟨0, zero_lt_three⟩) (← f ⟨1, one_lt_three⟩) (← f ⟨2, two_lt_three⟩)

theorem axes_ok {f : Fin 3 → Outcome ε α} {v : Vector α 3} (h : axes f = .ok v) (i : Fin 3) : f i = .ok (v.get i) := by
  obtain ⟨x, hx, h⟩ := bind_eq_ok.1 h
  obtain ⟨y, hy, h⟩ := bind_eq_ok.1 h
  obtain ⟨z, hz, h⟩ := bind_eq_ok.1 h
  cases h
  match i with
  | 0 => exact hx
  | 1 => exact hy
  | 2 => exact hz

/-- If every axis succeeds, all of them do. -/
theorem exists_axes {f : Fin 3 → Outcome ε α} {P : Fin 3 → α → Prop} (h : ∀ i, ∃ a, f i = .ok a ∧ P i a) :
    ∃ v, axes f = .ok v ∧ ∀ i, P i (v.get i) := by
  obtain ⟨x, hx, hPx⟩ := h ⟨0, zero_lt_three⟩
  obtain ⟨y, hy, hPy⟩ := h ⟨1, one_lt_three⟩
  obtain ⟨z, hz, hPz⟩ := h ⟨2, two_lt_three⟩
  refine ⟨triple x y z, ?_, fun i => ?_⟩
  · rw [axes, hx, ok_bind, hy, ok_bind, hz, ok_bind, pure_eq]
  · match i with
    | 0 => exact hPx
    | 1 => exact hPy
    | 2 => exact hPz

theorem axes_ne_panic {f : Fin 3 → Outcome ε α} (h : ∀ i, f i ≠ .panic) : axes f ≠ .panic :=
  bind_ne_panic (h 0) fun _ _ => bind_ne_panic (h 1) fun _ _ => bind_ne_panic (h 2) fun _ _ hpanic => by cases hpanic

end Outcome

end Buffer

namespace Scalar

/-- Over the rationals the bounds of a clamp hold. -/
theorem clamp_mem {x lo hi : ℚ} (h : lo ≤ hi) : lo ≤ clamp x lo hi ∧ clamp x lo hi ≤ hi := by
  unfold clamp
  split
  · exact ⟨le_rfl, h⟩
  · rename_i hlo
    split
    · exact ⟨h, le_rfl⟩
    · rename_i hhi
      exact ⟨not_lt.1 hlo, not_lt.1 hhi⟩

theorem clamp_of_mem {x lo hi : ℚ} (hlo : lo ≤ x) (hhi : x ≤ hi) : clamp x lo hi = x := by
  rw [clamp, if_neg (not_lt.2 hlo), if_neg (not_lt.2 hhi)]

end Scalar
