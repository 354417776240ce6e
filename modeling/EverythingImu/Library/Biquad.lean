import Mathlib.Algebra.Order.Field.Basic
import Mathlib.Tactic.FieldSimp
import Mathlib.Tactic.Linarith
import Mathlib.Tactic.LinearCombination
import Mathlib.Tactic.Positivity
import Mathlib.Tactic.Ring

/-!
# Second-order filter sections

A filter section in the transposed direct form.  With unit gain at frequency zero there is one state for every constant
input from which all the outputs are that input (`outputs_const_iff`).  Another section with unit gain passes the same
input on from the same state exactly if the two agree on that state; two Butterworth sections do so only for the input
zero or when they have the same corner (`butterworth_settled_eq_iff`).
-/

/-- The coefficients of a section. -/
structure Biquad (K : Type*) where
  b0 : K
  b1 : K
  b2 : K
  a1 : K
  a2 : K

namespace Biquad

section Ring

variable {K : Type*} [CommRing K]

/-- The output for one input, and the next state. -/
def step (f : Biquad K) (x : K) (s : K × K) : K × K × K :=
  let y := f.b0 * x + s.1
  (y, f.b1 * x - f.a1 * y + s.2, f.b2 * x - f.a2 * y)

/-- The state for a constant input that has been there forever. -/
def settled (f : Biquad K) (x : K) : K × K := (x * (1 - f.b0), x * (f.b2 - f.a2))

/-- The output after `n` earlier samples of the same input. -/
def output (f : Biquad K) (x : K) : K × K → ℕ → K
  | s, 0 => (f.step x s).1
  | s, n + 1 => output f x (f.step x s).2 n

/-- The gain of a constant. -/
def UnitGain (f : Biquad K) : Prop := f.b0 + f.b1 + f.b2 = 1 + f.a1 + f.a2

theorem step_settled {f : Biquad K} (hf : f.UnitGain) (x : K) : f.step x (f.settled x) = (x, f.settled x) := by
  have hgain : f.b0 + f.b1 + f.b2 = 1 + f.a1 + f.a2 := hf
  have hy : f.b0 * x + x * (1 - f.b0) = x := by ring
  simp only [step, settled, hy, Prod.mk.injEq, true_and]
  constructor
  · linear_combination x * hgain
  · ring

theorem output_settled {f : Biquad K} (hf : f.UnitGain) (x : K) (n : ℕ) : f.output x (f.settled x) n = x := by
  induction n with
  | zero => rw [output, step_settled hf]
  | succ n ih => rw [output, step_settled hf, ih]

/-- The first two outputs give the state away. -/
theorem outputs_const_iff {f : Biquad K} (hf : f.UnitGain) (x : K) (s : K × K) :
    (∀ n, f.output x s n = x) ↔ s = f.settled x := by
  constructor
  · intro h
    have h0 : f.b0 * x + s.1 = x := h 0
    have h1 : f.b0 * x + (f.b1 * x - f.a1 * (f.b0 * x + s.1) + s.2) = x := h 1
    have hgain : f.b0 + f.b1 + f.b2 = 1 + f.a1 + f.a2 := hf
    rw [h0] at h1
    refine Prod.ext ?_ ?_
    · show s.1 = x * (1 - f.b0)
      linear_combination h0
    · show s.2 = x * (f.b2 - f.a2)
      linear_combination h1 - x * hgain
  · rintro rfl n
    exact output_settled hf x n

end Ring

section Field

variable {K : Type*} [Field K]

/-- A section that does not accumulate has no other state to come to rest in. -/
theorem step_fixed_iff {f : Biquad K} (hf : f.UnitGain) (hpole : 1 + f.a1 + f.a2 ≠ 0) (x : K) (s : K × K) :
    (f.step x s).2 = s ↔ s = f.settled x := by
  constructor
  · intro h
    have h1 : f.b1 * x - f.a1 * (f.b0 * x + s.1) + s.2 = s.1 := congrArg Prod.fst h
    have h2 : f.b2 * x - f.a2 * (f.b0 * x + s.1) = s.2 := congrArg Prod.snd h
    have hgain : f.b0 + f.b1 + f.b2 = 1 + f.a1 + f.a2 := hf
    have hy : f.b0 * x + s.1 = x := by
      refine mul_left_cancel₀ hpole ?_
      linear_combination x * hgain - h1 - h2
    rw [hy] at h2
    refine Prod.ext ?_ ?_
    · show s.1 = x * (1 - f.b0)
      linear_combination hy
    · show s.2 = x * (f.b2 - f.a2)
      linear_combination -h2
  · rintro rfl
    rw [step_settled hf]

/-- The low-pass section of order two for a warped corner `c`, where `r` is the square root of 2. -/
def butterworth (r c : K) : Biquad K :=
  let d := c * c + r * c + 1
  { b0 := c * c / d
    b1 := 2 * (c * c / d)
    b2 := c * c / d
    a1 := 2 * (c * c - 1) / d
    a2 := (c * c - r * c + 1) / d }

end Field

section Ordered

variable {K : Type*} [Field K] [LinearOrder K] [IsStrictOrderedRing K] {r c c' : K}

theorem butterworth_denominator_pos (hr : 0 < r) (hc : 0 < c) : 0 < c * c + r * c + 1 := by positivity

theorem butterworth_unitGain (hr : 0 < r) (hc : 0 < c) : (butterworth r c).UnitGain := by
  have hd := (butterworth_denominator_pos hr hc).ne'
  simp only [UnitGain, butterworth]
  field_simp
  ring

theorem butterworth_pole_pos (hr : 0 < r) (hc : 0 < c) : 0 < 1 + (butterworth r c).a1 + (butterworth r c).a2 := by
  have hd := butterworth_denominator_pos hr hc
  have h : 1 + (butterworth r c).a1 + (butterworth r c).a2 = 4 * (c * c) / (c * c + r * c + 1) := by
    have hd' := hd.ne'
    simp only [butterworth]
    field_simp
    ring
  rw [h]
  positivity

/-- The direct share of the input in the output tells the corner. -/
theorem butterworth_b0_inj (hr : 0 < r) (hc : 0 < c) (hc' : 0 < c') :
    (butterworth r c).b0 = (butterworth r c').b0 ↔ c = c' := by
  have hd := (butterworth_denominator_pos hr hc).ne'
  have hd' := (butterworth_denominator_pos hr hc').ne'
  constructor
  · intro h
    have hcross : c * c * (c' * c' + r * c' + 1) = c' * c' * (c * c + r * c + 1) := (div_eq_div_iff hd hd').1 h
    have hfactor : (r * c * c' + c + c') * (c - c') = 0 := by linear_combination hcross
    have hpos : r * c * c' + c + c' ≠ 0 := by positivity
    exact sub_eq_zero.1 ((mul_eq_zero.1 hfactor).resolve_left hpos)
  · rintro rfl
    rfl

theorem butterworth_settled_eq_iff (hr : 0 < r) (hc : 0 < c) (hc' : 0 < c') (x : K) :
    (butterworth r c).settled x = (butterworth r c').settled x ↔ x = 0 ∨ c = c' := by
  constructor
  · intro h
    have h0 : x * (1 - (butterworth r c).b0) = x * (1 - (butterworth r c').b0) := congrArg Prod.fst h
    rcases mul_eq_mul_left_iff.1 h0 with hb | hx
    · exact .inr ((butterworth_b0_inj hr hc hc').1 (by linear_combination -hb))
    · exact .inl hx
  · rintro (rfl | rfl)
    · simp [settled]
    · rfl

end Ordered

end Biquad
