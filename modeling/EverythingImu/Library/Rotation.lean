import Mathlib.Algebra.Quaternion
import Mathlib.Tactic.LinearCombination

/-!
# Rotations by quaternions

A unit quaternion `q` turns a vector `v`, which is a quaternion without a real part, into `q * v * star q`.  The
height of a vector is its `k` component.  A rotation about a horizontal axis is `⟨c, s * x, s * y, 0⟩` with a
half-angle pair `(s, c)` and a unit axis `(x, y)`.
-/

namespace EverythingImu

open Quaternion

variable {R : Type*} [CommRing R]

/-- The quaternion with the given components. -/
def ofParts (w x y z : R) : ℍ[R] := ⟨w, x, y, z⟩

@[simp]
theorem re_ofParts (w x y z : R) : (ofParts w x y z).re = w := rfl

@[simp]
theorem imI_ofParts (w x y z : R) : (ofParts w x y z).imI = x := rfl

@[simp]
theorem imJ_ofParts (w x y z : R) : (ofParts w x y z).imJ = y := rfl

@[simp]
theorem imK_ofParts (w x y z : R) : (ofParts w x y z).imK = z := rfl

theorem normSq_ofParts (w x y z : R) : normSq (ofParts w x y z) = w * w + x * x + y * y + z * z := by
  simp only [normSq_def, re_mul, re_star, imI_star, imJ_star, imK_star, re_ofParts, imI_ofParts, imJ_ofParts,
    imK_ofParts]
  ring

/-- The vector `v` turned by `q`. -/
def rotate (q v : ℍ[R]) : ℍ[R] := q * v * star q

theorem rotate_mul (p q v : ℍ[R]) : rotate (p * q) v = rotate p (rotate q v) := by
  simp only [rotate, star_mul, mul_assoc]

theorem rotate_smul (q v : ℍ[R]) (c : R) : rotate q (c • v) = c • rotate q v := by
  rw [rotate, rotate, mul_smul_comm, smul_mul_assoc]

theorem normSq_rotate {q : ℍ[R]} (h : normSq q = 1) (v : ℍ[R]) : normSq (rotate q v) = normSq v := by
  rw [rotate, map_mul, map_mul, normSq_star, h, one_mul, mul_one]

theorem rotate_star_rotate {q : ℍ[R]} (h : normSq q = 1) (v : ℍ[R]) : rotate (star q) (rotate q v) = v := by
  have hq : star q * q = 1 := by rw [star_mul_self, h, coe_one]
  calc rotate (star q) (rotate q v) = star q * q * v * (star q * q) := by
        simp only [rotate, star_star, mul_assoc]
    _ = v := by rw [hq, one_mul, mul_one]

theorem rotate_rotate_star {q : ℍ[R]} (h : normSq q = 1) (v : ℍ[R]) : rotate q (rotate (star q) v) = v := by
  have hs : normSq (star q) = 1 := by rw [normSq_star, h]
  simpa using rotate_star_rotate hs v

theorem rotate_injective {q : ℍ[R]} (h : normSq q = 1) : Function.Injective (rotate q) :=
  Function.LeftInverse.injective (rotate_star_rotate h)

/-- Turning by a product leaves a direction of the body where the second factor has it exactly when the first factor
fixes its image. -/
theorem rotate_star_mul_eq_iff {p q : ℍ[R]} (hp : normSq p = 1) (hq : normSq q = 1) (v : ℍ[R]) :
    rotate (star (p * q)) v = rotate (star q) v ↔ rotate p v = v := by
  have hs : normSq (star q) = 1 := by rw [normSq_star, hq]
  rw [star_mul, rotate_mul, (rotate_injective hs).eq_iff]
  constructor
  · intro h
    rw [← h, rotate_rotate_star hp, h]
  · intro h
    have := rotate_star_rotate hp v
    rwa [h] at this

/-! ### Rotations about a horizontal axis -/

/-- The direction up. -/
def up : ℍ[R] := ofParts 0 0 0 1

/-- The rotation about the horizontal axis `(x, y)` with half-angle sine `s` and cosine `c`. -/
def horizontal (x y s c : R) : ℍ[R] := ofParts c (s * x) (s * y) 0

theorem normSq_horizontal {x y s c : R} (ha : x * x + y * y = 1) (hu : s * s + c * c = 1) :
    normSq (horizontal x y s c) = 1 := by
  rw [horizontal, normSq_ofParts]
  linear_combination s * s * ha + hu

/-- The height of a vector after a rotation about a horizontal axis. -/
theorem imK_rotate_horizontal {x y s c : R} (ha : x * x + y * y = 1) (hu : s * s + c * c = 1) (v : ℍ[R]) :
    (rotate (horizontal x y s c) v).imK =
      v.imK - 2 * (s * (s * v.imK + c * (y * v.imI - x * v.imJ))) := by
  simp only [rotate, horizontal, re_mul, imI_mul, imJ_mul, imK_mul, re_star, imI_star, imJ_star, imK_star, re_ofParts,
    imI_ofParts, imJ_ofParts, imK_ofParts]
  linear_combination v.imK * hu - s * s * v.imK * ha

/-- Such a rotation keeps the direction up exactly when it is a number of whole turns. -/
theorem rotate_horizontal_up [IsDomain R] [CharZero R] {x y s c : R} (ha : x * x + y * y = 1)
    (hu : s * s + c * c = 1) : rotate (horizontal x y s c) up = up ↔ s = 0 := by
  constructor
  · intro h
    have hk := imK_rotate_horizontal ha hu up
    rw [h] at hk
    simp only [up, imI_ofParts, imJ_ofParts, imK_ofParts] at hk
    have h2 : 2 * (s * s) = 0 := by linear_combination hk
    simpa using h2
  · intro h
    have hc : c * c = 1 := by simpa [h] using hu
    ext <;> simp [rotate, horizontal, up, h, hc]

/-- It keeps the height of `v` exactly when it is a number of whole turns or carries `v` to its mirror image in the
vertical plane through the axis. -/
theorem height_rotate_horizontal_iff [IsDomain R] [CharZero R] {x y s c : R} (ha : x * x + y * y = 1)
    (hu : s * s + c * c = 1) (v : ℍ[R]) :
    (rotate (horizontal x y s c) v).imK = v.imK ↔ s * (s * v.imK + c * (y * v.imI - x * v.imJ)) = 0 := by
  rw [imK_rotate_horizontal ha hu]
  simp

/-- The half-angle rotation that carries a unit vector other than straight down to the direction up. -/
theorem rotate_to_up [IsDomain R] {x y z w u : R} (hg : x * x + y * y + z * z = 1) (hw : 2 * (w * w) = z + 1)
    (hu : 2 * w * u = 1) : rotate (ofParts w (y * u) (-(x * u)) 0) (ofParts 0 x y z) = up := by
  ext
  · simp [rotate, up]
    ring
  · simp [rotate, up]
    grind
  · simp [rotate, up]
    grind
  · simp [rotate, up]
    grind

end EverythingImu
