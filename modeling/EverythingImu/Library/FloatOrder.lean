import Mathlib

/-!
# The order of binary64 and binary32 numbers

`≤` and `<` on `Float` and `Float32` are those of IEEE: both fail as soon as one side is not a number.  On numbers they
are total (`not_le_iff_lt`, `not_le_iff_lt_f32`).  Products of finite numbers and absolute values of numbers are
numbers, so a guard of the form `¬ c ≤ |x * k|` bounds `|x * k|` strictly.
-/

namespace FloatOrder

open Float.Model Float.Model.UnpackedFloat

/-! ### Comparing unpacked numbers -/

/-- Two numbers are comparable, and the comparison the other way is the opposite one. -/
theorem compare_swap_of_isNaN {a b : UnpackedFloat} (ha : a.isNaN = false) (hb : b.isNaN = false) :
    ∃ o, a.compare b = some o ∧ b.compare a = some o.swap := by
  cases a with
  | notANumber => cases ha
  | infinity s =>
    cases b with
    | notANumber => cases hb
    | infinity t => cases s <;> cases t <;> exact ⟨_, rfl, rfl⟩
    | zero t => cases s <;> exact ⟨_, rfl, rfl⟩
    | finite t n f hn => cases s <;> exact ⟨_, rfl, rfl⟩
  | zero s =>
    cases b with
    | notANumber => cases hb
    | infinity t => cases t <;> exact ⟨_, rfl, rfl⟩
    | zero t => exact ⟨_, rfl, rfl⟩
    | finite t n f hn => cases t <;> exact ⟨_, rfl, rfl⟩
  | finite s m e hm =>
    cases b with
    | notANumber => cases hb
    | infinity t => cases s <;> cases t <;> exact ⟨_, rfl, rfl⟩
    | zero t => cases s <;> exact ⟨_, rfl, rfl⟩
    | finite t n f hn =>
      have hswap : ((compare e f).then (compare m n)).swap = (compare f e).then (compare n m) := by
        rw [Ordering.swap_then, Int.compare_swap, Nat.compare_swap]
      cases s <;> cases t
      · refine ⟨_, rfl, ?_⟩
        simp only [UnpackedFloat.compare, ← hswap]
      · exact ⟨_, rfl, rfl⟩
      · exact ⟨_, rfl, rfl⟩
      · exact ⟨_, rfl, by rw [hswap]; rfl⟩

/-- On numbers the order is total. -/
theorem not_le_iff_lt_unpacked {a b : UnpackedFloat} (ha : a.isNaN = false) (hb : b.isNaN = false) :
    ¬ a.le b = true ↔ b.lt a = true := by
  obtain ⟨o, hab, hba⟩ := compare_swap_of_isNaN ha hb
  rw [UnpackedFloat.le, UnpackedFloat.lt, hab, hba]
  cases o <;> decide

/-! ### Packing -/

/-- Not a number is what has the largest exponent and a mantissa. -/
theorem isNaN_unpack {spec : Format} (b : BitVec spec.numBits)
    (h : unpackExponent b = (-1#_) → unpackMantissa b = 0#_) : (unpack spec b).isNaN = false := by
  fun_cases UnpackedFloat.unpack with
  | case1 => rfl
  | case2 mantissa exponent hexp hmant => exact absurd (h hexp) hmant
  | case3 => rfl
  | case4 => rfl
  | case5 => rfl

/-- A number that is packed stays a number. -/
theorem isNaN_unpack_pack {spec : Format} {f : UnpackedFloat} (hf : f.isNaN = false) :
    (unpack spec (pack spec f)).isNaN = false := by
  refine isNaN_unpack _ ?_
  fun_cases UnpackedFloat.pack with
  | case1 => cases hf
  | case2 s => exact fun _ => unpackMantissa_packComponents
  | case3 s => exact fun _ => unpackMantissa_packComponents
  | case4 s m e hm biased hover => exact fun _ => unpackMantissa_packComponents
  | case5 s m e hm bits biased hover hnormal =>
    intro hexp
    have hlt : biased < 2 ^ spec.exponentBits - 1 := by omega
    rw [unpackExponent_packComponents, ← BitVec.toNat_inj, BitVec.toNat_ofNat, BitVec.neg_one_eq_allOnes,
      BitVec.toNat_allOnes, Nat.mod_eq_of_lt (by omega)] at hexp
    omega
  | case6 s m e hm bits biased hover hsub =>
    intro hexp
    rw [unpackExponent_packComponents, ← BitVec.toNat_inj, BitVec.neg_one_eq_allOnes, BitVec.toNat_allOnes] at hexp
    have hpos := Nat.one_lt_two_pow (Nat.pos_iff_ne_zero.1 spec.he)
    simp at hexp
    omega

/-- A product of finite numbers is a number. -/
theorem isNaN_mul {spec : Format} {a b : UnpackedFloat} (ha : a.isFinite) (hb : b.isFinite) :
    (UnpackedFloat.mul spec a b).isNaN = false := by
  cases a with
  | notANumber => cases ha
  | infinity s => cases ha
  | zero s =>
    cases b with
    | notANumber => cases hb
    | infinity t => cases hb
    | zero t => rfl
    | finite t n f hn => rfl
  | finite s m e hm =>
    cases b with
    | notANumber => cases hb
    | infinity t => cases hb
    | zero t => rfl
    | finite t n f hn =>
      simp only [UnpackedFloat.mul, roundWithAccuracy]
      split <;> rfl

theorem isNaN_abs {a : UnpackedFloat} (ha : a.isNaN = false) : a.abs.isNaN = false := by
  cases a with
  | notANumber => cases ha
  | infinity s => rfl
  | zero s => rfl
  | finite s m e hm => rfl

theorem isNaN_of_isFinite {a : UnpackedFloat} (ha : a.isFinite) : a.isNaN = false := by
  cases a with
  | notANumber => cases ha
  | infinity s => rfl
  | zero s => rfl
  | finite s m e hm => rfl

/-! ### Binary64 -/

variable {x y : Float}

theorem isNaN_float_mul (hx : x.isFinite) (hy : y.isFinite) : (x * y).isNaN = false :=
  isNaN_unpack_pack (isNaN_mul hx hy)

theorem isNaN_float_abs (hx : x.isNaN = false) : x.abs.isNaN = false := isNaN_unpack_pack (isNaN_abs hx)

theorem not_le_iff_lt (hx : x.isNaN = false) (hy : y.isNaN = false) : ¬ x ≤ y ↔ y < x := by
  have hle : x ≤ y ↔ x.toModel.unpack.le y.toModel.unpack = true := decide_eq_true_iff
  have hlt : y < x ↔ y.toModel.unpack.lt x.toModel.unpack = true := decide_eq_true_iff
  rw [hle, hlt]
  exact not_le_iff_lt_unpacked hx hy

/-! ### Binary32 -/

variable {u v : Float32}

theorem isNaN_float32_of_isFinite (hu : u.isFinite) : u.isNaN = false := isNaN_of_isFinite hu

theorem not_le_iff_lt_f32 (hu : u.isNaN = false) (hv : v.isNaN = false) : ¬ u ≤ v ↔ v < u := by
  have hle : u ≤ v ↔ u.toModel.unpack.le v.toModel.unpack = true := decide_eq_true_iff
  have hlt : v < u ↔ v.toModel.unpack.lt u.toModel.unpack = true := decide_eq_true_iff
  rw [hle, hlt]
  exact not_le_iff_lt_unpacked hu hv

/-- Of two numbers one is smaller, or they are equal. -/
theorem lt_or_beq_or_gt_f32 (hu : u.isNaN = false) (hv : v.isNaN = false) : u < v ∨ (u == v) = true ∨ v < u := by
  have hlt : u < v ↔ u.toModel.unpack.lt v.toModel.unpack = true := decide_eq_true_iff
  have hgt : v < u ↔ v.toModel.unpack.lt u.toModel.unpack = true := decide_eq_true_iff
  have hbeq : (u == v) = u.toModel.unpack.beq v.toModel.unpack := rfl
  obtain ⟨o, huv, hvu⟩ := compare_swap_of_isNaN (a := u.toModel.unpack) (b := v.toModel.unpack) hu hv
  rw [hlt, hgt, hbeq, UnpackedFloat.lt, UnpackedFloat.lt, UnpackedFloat.beq, huv, hvu]
  cases o <;> decide

end FloatOrder
