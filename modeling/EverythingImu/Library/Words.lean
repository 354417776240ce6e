import Mathlib.Algebra.Group.Nat.Defs

/-!
# Words as bytes

The bytes of a number, least or most significant first, and words of a fixed width written and read in either order.
A type of words says how many bytes it has (`Word`).  Reading what was written gives the word back (`ofLe_toLe`,
`ofBe_toBe`), and writing what was read gives the bytes back (`toLe_ofLe`, `toBe_ofBe`).

`F32` is a single-precision number by its bit pattern, so that reading and writing keep the payload of a NaN.
-/

namespace Words

/-- The `k` low bytes of a number, least significant first. -/
def leBytes : Nat → Nat → List UInt8
  | 0, _ => []
  | k + 1, n => UInt8.ofNat n :: leBytes k (n / 256)

def ofLeBytes : List UInt8 → Nat
  | [] => 0
  | b :: bs => b.toNat + 256 * ofLeBytes bs

@[simp] theorem length_leBytes (k n : Nat) : (leBytes k n).length = k := by
  induction k generalizing n with
  | zero => rfl
  | succ k ih => rw [leBytes, List.length_cons, ih]

theorem ofLeBytes_lt (bs : List UInt8) : ofLeBytes bs < 256 ^ bs.length := by
  induction bs with
  | nil => simp [ofLeBytes]
  | cons b bs ih =>
    have hb : b.toNat < 256 := b.toNat_lt
    rw [ofLeBytes, List.length_cons, Nat.pow_succ]
    omega

/-- Reading the bytes of a number that fits gives the number back. -/
theorem ofLeBytes_leBytes {k n : Nat} (h : n < 256 ^ k) : ofLeBytes (leBytes k n) = n := by
  induction k generalizing n with
  | zero =>
    rw [Nat.pow_zero] at h
    simp only [leBytes, ofLeBytes]
    omega
  | succ k ih =>
    have hdiv : n / 256 < 256 ^ k := by
      rw [Nat.pow_succ] at h
      omega
    have hlow : (UInt8.ofNat n).toNat = n % 256 := UInt8.toNat_ofNat'
    rw [leBytes, ofLeBytes, ih hdiv, hlow]
    omega

/-- The bytes of the number that was read are the bytes it was read from. -/
theorem leBytes_ofLeBytes (bs : List UInt8) : leBytes bs.length (ofLeBytes bs) = bs := by
  induction bs with
  | nil => rfl
  | cons b bs ih =>
    have hb : b.toNat < 256 := b.toNat_lt
    have hdiv : (b.toNat + 256 * ofLeBytes bs) / 256 = ofLeBytes bs := by omega
    have hlow : UInt8.ofNat (b.toNat + 256 * ofLeBytes bs) = b := by
      apply UInt8.toNat_inj.1
      rw [UInt8.toNat_ofNat']
      omega
    rw [ofLeBytes, List.length_cons, leBytes, hdiv, hlow, ih]

/-! ### Words of a fixed width -/

/-- A type of words of `width` bytes. -/
class Word (W : Type) where
  width : Nat
  toNat : W → Nat
  ofNat : Nat → W
  toNat_lt : ∀ w, toNat w < 256 ^ width
  ofNat_toNat : ∀ w, ofNat (toNat w) = w
  toNat_ofNat : ∀ n, n < 256 ^ width → toNat (ofNat n) = n

instance : Word UInt8 where
  width := 1
  toNat := UInt8.toNat
  ofNat := UInt8.ofNat
  toNat_lt := UInt8.toNat_lt
  ofNat_toNat _ := UInt8.ofNat_toNat
  toNat_ofNat _ h := UInt8.toNat_ofNat_of_lt' h

instance : Word UInt16 where
  width := 2
  toNat := UInt16.toNat
  ofNat := UInt16.ofNat
  toNat_lt := UInt16.toNat_lt
  ofNat_toNat _ := UInt16.ofNat_toNat
  toNat_ofNat _ h := UInt16.toNat_ofNat_of_lt' h

instance : Word UInt32 where
  width := 4
  toNat := UInt32.toNat
  ofNat := UInt32.ofNat
  toNat_lt := UInt32.toNat_lt
  ofNat_toNat _ := UInt32.ofNat_toNat
  toNat_ofNat _ h := UInt32.toNat_ofNat_of_lt' h

instance : Word UInt64 where
  width := 8
  toNat := UInt64.toNat
  ofNat := UInt64.ofNat
  toNat_lt := UInt64.toNat_lt
  ofNat_toNat _ := UInt64.ofNat_toNat
  toNat_ofNat _ h := UInt64.toNat_ofNat_of_lt' h

@[simp] theorem width_uInt8 : Word.width UInt8 = 1 := rfl

@[simp] theorem width_uInt16 : Word.width UInt16 = 2 := rfl

@[simp] theorem width_uInt32 : Word.width UInt32 = 4 := rfl

@[simp] theorem width_uInt64 : Word.width UInt64 = 8 := rfl

section Word

variable {W : Type} [Word W]

def toLe (w : W) : List UInt8 := leBytes (Word.width W) (Word.toNat w)

def ofLe (bs : List UInt8) : W := Word.ofNat (ofLeBytes bs)

def toBe (w : W) : List UInt8 := (toLe w).reverse

def ofBe (bs : List UInt8) : W := ofLe bs.reverse

@[simp] theorem length_toLe (w : W) : (toLe w).length = Word.width W := length_leBytes _ _

@[simp] theorem length_toBe (w : W) : (toBe w).length = Word.width W := by
  rw [toBe, List.length_reverse, length_toLe]

@[simp] theorem ofLe_toLe (w : W) : (ofLe (toLe w) : W) = w := by
  rw [ofLe, toLe, ofLeBytes_leBytes (Word.toNat_lt w), Word.ofNat_toNat]

theorem toLe_ofLe {bs : List UInt8} (h : bs.length = Word.width W) : toLe (ofLe bs : W) = bs := by
  have hlt : ofLeBytes bs < 256 ^ Word.width W := h ▸ ofLeBytes_lt bs
  rw [toLe, ofLe, Word.toNat_ofNat _ hlt, ← h, leBytes_ofLeBytes]

@[simp] theorem ofBe_toBe (w : W) : (ofBe (toBe w) : W) = w := by
  rw [ofBe, toBe, List.reverse_reverse, ofLe_toLe]

theorem toBe_ofBe {bs : List UInt8} (h : bs.length = Word.width W) : toBe (ofBe bs : W) = bs := by
  have hr : bs.reverse.length = Word.width W := by rw [List.length_reverse, h]
  rw [toBe, ofBe, toLe_ofLe hr, List.reverse_reverse]

/-- A byte is written as itself. -/
@[simp] theorem toLe_uInt8 (b : UInt8) : toLe b = [b] := by
  show [UInt8.ofNat b.toNat] = [b]
  rw [UInt8.ofNat_toNat]

@[simp] theorem toBe_uInt8 (b : UInt8) : toBe b = [b] := by
  rw [toBe, toLe_uInt8]
  rfl

@[simp] theorem ofLe_singleton (b : UInt8) : (ofLe [b] : UInt8) = b := by
  rw [← toLe_uInt8, ofLe_toLe]

end Word

/-! ### Single-precision numbers -/

/-- A single-precision number by its bit pattern. -/
structure F32 where
  bits : UInt32
deriving DecidableEq

namespace F32

instance : Word F32 where
  width := 4
  toNat x := x.bits.toNat
  ofNat n := ⟨UInt32.ofNat n⟩
  toNat_lt x := x.bits.toNat_lt
  ofNat_toNat x := by rw [UInt32.ofNat_toNat]
  toNat_ofNat _ h := UInt32.toNat_ofNat_of_lt' h

@[simp] theorem width_f32 : Word.width F32 = 4 := rfl

/-- The exponent field, which has all bits set for the infinities and the NaNs. -/
def exponent (x : F32) : UInt32 := (x.bits >>> 23) &&& 0xFF

def isFinite (x : F32) : Bool := x.exponent != 0xFF

/-- The number itself. -/
def toFloat32 (x : F32) : Float32 := Float32.ofBits x.bits

end F32

end Words
