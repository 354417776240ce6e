import Mathlib.Algebra.Polynomial.Div
import Mathlib.Data.BitVec
import Mathlib.Data.ZMod.Defs
import Mathlib.Algebra.Field.ZMod
import Mathlib.Algebra.CharP.Two
import Mathlib.Tactic.LinearCombination

/-!
# Reflected cyclic redundancy checks

A register of `w` bits that takes in a message bit by bit, lowest bit first, and shifts towards its lowest bit.  The
bit `i` of a register stands for the coefficient of `X ^ (w - 1 - i)`, so that one shift is one multiplication by `X`
modulo the generator, and the register after a message is a remainder of polynomials over GF(2) (`toPoly_run`).  One
shift is linear, which gives the residue that the register is left with when the message is followed by its own
checksum (`crc_append_crc`).
-/

namespace Crc

open Polynomial

variable {w : Nat}

/-! ### The register -/

/-- A shift towards the lowest bit; `poly` is added if a one falls out. -/
def shift (poly r : BitVec w) : BitVec w := if r.getLsbD 0 then (r >>> 1) ^^^ poly else r >>> 1

/-- The register after the next bit of the message. -/
def feed (poly r : BitVec w) (b : Bool) : BitVec w := shift poly (if b then r ^^^ 1#w else r)

def run (poly r : BitVec w) (bits : List Bool) : BitVec w := bits.foldl (feed poly) r

/-- The checksum: the register starts with ones and is complemented at the end. -/
def crc (poly : BitVec w) (bits : List Bool) : BitVec w := ~~~ run poly (BitVec.allOnes w) bits

def shifts (poly : BitVec w) : Nat → BitVec w → BitVec w
  | 0, r => r
  | n + 1, r => shifts poly n (shift poly r)

/-- The bits of a word, lowest first. -/
def bitsOf {n : Nat} (v : BitVec n) : List Bool := (List.range n).map v.getLsbD

@[simp] theorem length_bitsOf {n : Nat} (v : BitVec n) : (bitsOf v).length = n := by simp [bitsOf]

theorem run_append (poly r : BitVec w) (bits bits' : List Bool) :
    run poly r (bits ++ bits') = run poly (run poly r bits) bits' :=
  List.foldl_append ..

private theorem xor_cancel (a b p : BitVec w) : a ^^^ p ^^^ (b ^^^ p) = a ^^^ b := by
  rw [BitVec.xor_assoc, ← BitVec.xor_assoc p b p, BitVec.xor_comm p b, BitVec.xor_assoc b p p, BitVec.xor_self,
    BitVec.xor_zero]

theorem shift_xor (poly a b : BitVec w) : shift poly (a ^^^ b) = shift poly a ^^^ shift poly b := by
  unfold shift
  rw [BitVec.getLsbD_xor, BitVec.ushiftRight_xor_distrib]
  cases a.getLsbD 0 <;> cases b.getLsbD 0
  · rfl
  · exact BitVec.xor_assoc ..
  · simp only [Bool.xor_false, if_true, Bool.false_eq_true, if_false]
    rw [BitVec.xor_assoc, BitVec.xor_assoc, BitVec.xor_comm poly]
  · simpa using (xor_cancel (a >>> 1) (b >>> 1) poly).symm

/-- A message of at most `w` bits as a word. -/
def word : List Bool → BitVec w
  | [] => 0#w
  | b :: bits => (if b then 1#w else 0#w) ^^^ (word bits <<< 1)

theorem getLsbD_word (bits : List Bool) (i : Nat) (hi : i < w) :
    (word bits : BitVec w).getLsbD i = bits.getD i false := by
  induction bits generalizing i with
  | nil => simp [word]
  | cons b bits ih =>
    rw [word, BitVec.getLsbD_xor, BitVec.getLsbD_shiftLeft]
    cases i with
    | zero => cases b <;> simp [hi]
    | succ i =>
      rw [Nat.add_sub_cancel, ih i (by omega)]
      cases b <;> simp [hi]

theorem word_bitsOf (v : BitVec w) : word (bitsOf v) = v := by
  apply BitVec.eq_of_getLsbD_eq
  intro i hi
  rw [getLsbD_word _ i hi]
  simp [bitsOf, List.getD_eq_getElem?_getD, hi]

/-- No bit of a word that moves one place up falls out, and none comes back but itself. -/
theorem shift_word_shiftLeft (poly : BitVec w) (bits : List Bool) (h : bits.length < w) :
    shift poly ((word bits : BitVec w) <<< 1) = word bits := by
  have h0 : ((word bits : BitVec w) <<< 1).getLsbD 0 = false := by simp
  rw [shift, h0, if_neg Bool.false_ne_true]
  apply BitVec.eq_of_getLsbD_eq
  intro i hi
  rw [BitVec.getLsbD_ushiftRight, BitVec.getLsbD_shiftLeft, getLsbD_word bits i hi]
  by_cases hi1 : 1 + i < w
  · rw [show 1 + i - 1 = i by omega, getLsbD_word bits i hi]
    simp [hi1]
  · have hlen : bits.length ≤ i := by omega
    simp [hi1, List.getD_eq_getElem?_getD, hlen]

/-- Bits that are all added at once come down one by one. -/
theorem shifts_xor_word (poly r : BitVec w) (bits : List Bool) (h : bits.length ≤ w) :
    shifts poly bits.length (r ^^^ word bits) = run poly r bits := by
  induction bits generalizing r with
  | nil => simp [shifts, run, word]
  | cons b bits ih =>
    have hb : bits.length < w := h
    have hfeed : shift poly (r ^^^ word (b :: bits)) = feed poly r b ^^^ word bits := by
      rw [word, ← BitVec.xor_assoc, shift_xor, shift_word_shiftLeft poly bits hb]
      cases b <;> simp [feed]
    rw [List.length_cons, shifts, hfeed, ih _ hb.le]
    rfl

/-- The register after as many bits as it has places. -/
theorem run_bitsOf (poly r v : BitVec w) : run poly r (bitsOf v) = shifts poly w (r ^^^ v) := by
  rw [← shifts_xor_word poly r (bitsOf v) (by simp), word_bitsOf, length_bitsOf]

/-- What a message with its own checksum behind it always leaves. -/
def residue (poly : BitVec w) : BitVec w := ~~~ shifts poly w (BitVec.allOnes w)

/-- The checksum cancels the register that it was made from, and only the ones of the complement go on. -/
theorem crc_append_crc (poly : BitVec w) (bits : List Bool) :
    crc poly (bits ++ bitsOf (crc poly bits)) = residue poly := by
  have hones : ∀ r : BitVec w, r ^^^ ~~~ r = BitVec.allOnes w := by
    intro r
    rw [← BitVec.xor_allOnes, ← BitVec.xor_assoc, BitVec.xor_self, BitVec.zero_xor]
  rw [crc, run_append, run_bitsOf, crc, hones, residue]

/-! ### The register as a polynomial -/

/-- The polynomial of a register, the lowest bit its highest coefficient. -/
noncomputable def toPoly (r : BitVec w) : (ZMod 2)[X] :=
  ∑ i ∈ Finset.range w, if r.getLsbD i then X ^ (w - 1 - i) else 0

/-- The generator: the leading power and the coefficients of `poly`. -/
noncomputable def generator (poly : BitVec w) : (ZMod 2)[X] := X ^ w + toPoly poly

/-- The polynomial of a message, the first bit its highest coefficient. -/
noncomputable def message : List Bool → (ZMod 2)[X]
  | [] => 0
  | b :: bits => (if b then X ^ bits.length else 0) + message bits

theorem coeff_toPoly (r : BitVec w) (k : Nat) :
    (toPoly r).coeff k = if r.getLsbD (w - 1 - k) ∧ k < w then 1 else 0 := by
  unfold toPoly
  rw [finsetSum_coeff]
  by_cases hk : k < w
  · rw [Finset.sum_eq_single (w - 1 - k)]
    · rw [show w - 1 - (w - 1 - k) = k by omega]
      split <;> simp_all
    · intro i hi hne
      have hi : i < w := by simpa using hi
      split
      · rw [coeff_X_pow, if_neg (by omega)]
      · rfl
    · intro h
      simp at h
      omega
  · rw [Finset.sum_eq_zero]
    · simp [hk]
    · intro i hi
      have hi : i < w := by simpa using hi
      split
      · rw [coeff_X_pow, if_neg (by omega)]
      · rfl

theorem degree_toPoly_lt (r : BitVec w) : (toPoly r).degree < w := by
  rw [degree_lt_iff_coeff_zero]
  intro k hk
  rw [coeff_toPoly, if_neg (by omega)]

theorem toPoly_xor (r r' : BitVec w) : toPoly (r ^^^ r') = toPoly r + toPoly r' := by
  ext k
  rw [coeff_add, coeff_toPoly, coeff_toPoly, coeff_toPoly, BitVec.getLsbD_xor]
  by_cases hk : k < w
  · cases r.getLsbD (w - 1 - k) <;> cases r'.getLsbD (w - 1 - k) <;> simp [hk, CharTwo.add_self_eq_zero]
  · simp [hk]

theorem monic_generator (poly : BitVec w) : (generator poly).Monic :=
  monic_X_pow_add (degree_toPoly_lt poly)

theorem degree_generator (poly : BitVec w) : (generator poly).degree = w := by
  rw [generator, degree_add_eq_left_of_degree_lt] <;> rw [degree_X_pow]
  exact degree_toPoly_lt poly

private theorem toPoly_one (hw : 0 < w) : toPoly (1#w) = X ^ (w - 1) := by
  ext k
  rw [coeff_toPoly, coeff_X_pow, BitVec.getLsbD_one]
  by_cases hk : k = w - 1
  · simp [hk, hw]
  · rw [if_neg (by simp; omega), if_neg hk]

/-- One place down is one power up; a one that falls out is the power `w`. -/
private theorem X_mul_toPoly (hw : 0 < w) (r : BitVec w) :
    X * toPoly r = toPoly (r >>> 1) + if r.getLsbD 0 then X ^ w else 0 := by
  ext k
  rw [coeff_add, coeff_toPoly, BitVec.getLsbD_ushiftRight]
  have hpow : (if r.getLsbD 0 then (X : (ZMod 2)[X]) ^ w else 0).coeff k = if r.getLsbD 0 ∧ k = w then 1 else 0 := by
    cases r.getLsbD 0 <;> simp [coeff_X_pow]
  rw [hpow]
  cases k with
  | zero =>
    have htop : r.getLsbD (1 + (w - 1 - 0)) = false := BitVec.getLsbD_of_ge _ _ (by omega)
    rw [coeff_X_mul_zero, htop]
    simp [hw.ne]
  | succ k =>
    rw [coeff_X_mul, coeff_toPoly]
    by_cases hk : k + 1 = w
    · subst hk
      simp
    · by_cases hkw : k + 1 < w
      · rw [show 1 + (w - 1 - (k + 1)) = w - 1 - k by omega]
        simp [hk, hkw, show k < w by omega]
      · simp [hk, hkw, show ¬ k < w by omega]

/-- A shift is a multiplication by `X` modulo the generator. -/
theorem X_mul_toPoly_shift (hw : 0 < w) (poly r : BitVec w) :
    X * toPoly r = toPoly (shift poly r) + (if r.getLsbD 0 then 1 else 0) * generator poly := by
  rw [X_mul_toPoly hw, shift]
  cases r.getLsbD 0
  · simp
  · have hpp : toPoly poly + toPoly poly = 0 := CharTwo.add_self_eq_zero _
    simp only [if_true, toPoly_xor, generator]
    linear_combination -hpp

theorem X_mul_toPoly_feed (hw : 0 < w) (poly r : BitVec w) (b : Bool) :
    ∃ q, X * toPoly r + (if b then X ^ w else 0) = toPoly (feed poly r b) + q * generator poly := by
  refine ⟨_, Eq.trans ?_ (X_mul_toPoly_shift hw poly (if b then r ^^^ 1#w else r))⟩
  cases b with
  | false => simp
  | true =>
    have hpow : (X : (ZMod 2)[X]) * X ^ (w - 1) = X ^ w := by
      rw [← pow_succ', Nat.sub_add_cancel hw]
    rw [if_pos rfl, if_pos rfl, toPoly_xor, toPoly_one hw, mul_add, hpow]

theorem toPoly_run_add (hw : 0 < w) (poly r : BitVec w) (bits : List Bool) :
    ∃ q, X ^ bits.length * toPoly r + X ^ w * message bits = toPoly (run poly r bits) + q * generator poly := by
  induction bits generalizing r with
  | nil => exact ⟨0, by simp [message, run]⟩
  | cons b bits ih =>
    obtain ⟨c, hc⟩ := X_mul_toPoly_feed hw poly r b
    obtain ⟨q, hq⟩ := ih (feed poly r b)
    have hb : (if b then X ^ bits.length else 0 : (ZMod 2)[X]) * X ^ w
        = X ^ bits.length * if b then X ^ w else 0 := by
      cases b <;> simp
    refine ⟨q + X ^ bits.length * c, ?_⟩
    calc X ^ (bits.length + 1) * toPoly r + X ^ w * message (b :: bits)
        = X ^ bits.length * (X * toPoly r + if b then X ^ w else 0) + X ^ w * message bits := by
          rw [message, mul_add, mul_comm (X ^ w), hb, pow_succ]
          ring
      _ = (X ^ bits.length * toPoly (feed poly r b) + X ^ w * message bits)
          + X ^ bits.length * c * generator poly := by
          rw [hc]
          ring
      _ = toPoly (run poly (feed poly r b) bits) + (q + X ^ bits.length * c) * generator poly := by
          rw [hq]
          ring

/-- The register after a message is a remainder modulo the generator. -/
theorem toPoly_run (hw : 0 < w) (poly r : BitVec w) (bits : List Bool) :
    toPoly (run poly r bits) = (X ^ bits.length * toPoly r + X ^ w * message bits) %ₘ generator poly := by
  obtain ⟨q, hq⟩ := toPoly_run_add hw poly r bits
  refine ((div_modByMonic_unique q _ (monic_generator poly) ⟨?_, ?_⟩).2).symm
  · rw [hq]
    ring
  · rw [degree_generator]
    exact degree_toPoly_lt _

/-- The register of a polynomial of degree less than `w`. -/
noncomputable def ofPoly (p : (ZMod 2)[X]) : BitVec w :=
  word ((List.range w).map fun i => decide (p.coeff (w - 1 - i) = 1))

theorem ofPoly_toPoly (r : BitVec w) : ofPoly (toPoly r) = r := by
  apply BitVec.eq_of_getLsbD_eq
  intro i hi
  rw [ofPoly, getLsbD_word _ i hi]
  simp only [List.getD_eq_getElem?_getD, List.getElem?_map, List.getElem?_range hi, Option.map_some,
    Option.getD_some, coeff_toPoly, show w - 1 - (w - 1 - i) = i by omega, show w - 1 - i < w by omega, and_true]
  cases r.getLsbD i <;> simp

/-- The checksum by its definition: the remainder of the message times `X ^ w`, the first `w` bits of it
complemented, complemented in turn. -/
noncomputable def checksum (poly : BitVec w) (bits : List Bool) : BitVec w :=
  ~~~ ofPoly ((X ^ bits.length * toPoly (BitVec.allOnes w) + X ^ w * message bits) %ₘ generator poly)

theorem crc_eq_checksum (hw : 0 < w) (poly : BitVec w) (bits : List Bool) : crc poly bits = checksum poly bits := by
  rw [crc, checksum, ← toPoly_run hw, ofPoly_toPoly]

end Crc
