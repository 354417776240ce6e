/-!
# Little-endian words

Reading and writing of 16-bit and 32-bit words, least significant byte first.  Reading the two bytes that
`putI16` writes gives the word back (`i16FromLe_putI16`).
-/

namespace LittleEndian

/-- The signed 16-bit word with low byte `lo` and high byte `hi`. -/
def i16FromLe (lo hi : UInt8) : Int16 := Int16.ofBitVec (hi.toBitVec ++ lo.toBitVec)

/-- The signed word at offset `o` of a buffer. -/
def readI16 (buf : List UInt8) (o : Nat) : Int16 := i16FromLe (buf.getD o 0) (buf.getD (o + 1) 0)

/-- The three signed words from offset `o` on. -/
def readI16x3 (buf : List UInt8) (o : Nat) : Vector Int16 3 :=
  #v[readI16 buf o, readI16 buf (o + 2), readI16 buf (o + 4)]

/-- The unsigned 16-bit word with low byte `lo` and high byte `hi`. -/
def u16FromLe (lo hi : UInt8) : UInt16 := UInt16.ofBitVec (hi.toBitVec ++ lo.toBitVec)

/-- The unsigned 32-bit word with the bytes `b₀, …, b₃`, `b₀` the lowest. -/
def u32FromLe (b₀ b₁ b₂ b₃ : UInt8) : UInt32 :=
  UInt32.ofBitVec (b₃.toBitVec ++ b₂.toBitVec ++ b₁.toBitVec ++ b₀.toBitVec)

/-- The two bytes of a signed 16-bit word: `value & 0xFF` and `(value >> 8) & 0xFF`. -/
def putI16 (value : Int16) : List UInt8 :=
  [(value &&& 0xFF).toUInt16.toUInt8, ((value >>> 8) &&& 0xFF).toUInt16.toUInt8]

private theorem setWidth_and_255 (x : BitVec 16) : (x &&& 255#16).setWidth 8 = x.setWidth 8 := by
  have h255 : ∀ i (h : i < 8), (255#8)[i] = true := by decide
  ext i hi
  simp [h255 i hi]

/-- The arithmetic shift of the high byte keeps no bit of the sign in the byte that is written. -/
private theorem append_bytes (x : BitVec 16) :
    ((x.sshiftRight 8).setWidth 8 ++ x.setWidth 8 : BitVec 16) = x := by
  apply BitVec.eq_of_getLsbD_eq
  intro i hi
  rw [BitVec.getLsbD_append]
  by_cases h : i < 8
  · simp [h]
  · have h' : i - 8 < 8 := by omega
    have hs : 8 + (i - 8) = i := by omega
    have hi' : i - 8 < 16 := by omega
    simp [h, h', hs, BitVec.getLsbD_sshiftRight, show i < 16 from hi]
    omega

theorem i16FromLe_putI16 (value : Int16) :
    i16FromLe ((putI16 value).getD 0 0) ((putI16 value).getD 1 0) = value := by
  apply Int16.toBitVec_inj.1
  show ((value.toBitVec.sshiftRight 8 &&& 255#16).setWidth 8 ++ (value.toBitVec &&& 255#16).setWidth 8 :
    BitVec 16) = value.toBitVec
  rw [setWidth_and_255, setWidth_and_255, append_bytes]

private theorem setWidth_append_low (hi lo : BitVec 8) : (hi ++ lo).setWidth 8 = lo := by
  ext i hi'
  rw [BitVec.getElem_setWidth, BitVec.getLsbD_append, if_pos hi', BitVec.getLsbD_eq_getElem hi']

private theorem setWidth_append_high (hi lo : BitVec 8) : ((hi ++ lo).sshiftRight 8).setWidth 8 = hi := by
  ext i hi'
  have hlow : ¬ 8 + i < 8 := by omega
  have hlt : 8 + i < 8 + 8 := by omega
  have hle : decide (8 + 8 ≤ i) = false := decide_eq_false (by omega)
  rw [BitVec.getElem_setWidth, BitVec.getLsbD_sshiftRight, BitVec.getLsbD_append, if_neg hlow, if_pos hlt,
    Nat.add_sub_cancel_left, BitVec.getLsbD_eq_getElem hi', hle]
  rfl

/-- Any two bytes are those of the word they make. -/
theorem putI16_i16FromLe (lo hi : UInt8) : putI16 (i16FromLe lo hi) = [lo, hi] := by
  have hlo : (i16FromLe lo hi &&& 0xFF).toUInt16.toUInt8 = lo := by
    apply UInt8.toBitVec_inj.1
    show ((hi.toBitVec ++ lo.toBitVec) &&& 255#16).setWidth 8 = lo.toBitVec
    rw [setWidth_and_255, setWidth_append_low]
  have hhi : ((i16FromLe lo hi >>> 8) &&& 0xFF).toUInt16.toUInt8 = hi := by
    apply UInt8.toBitVec_inj.1
    show ((hi.toBitVec ++ lo.toBitVec).sshiftRight 8 &&& 255#16).setWidth 8 = hi.toBitVec
    rw [setWidth_and_255, setWidth_append_high]
  rw [putI16, hlo, hhi]

theorem length_flatMap_putI16 (xs : List Int16) : (xs.flatMap putI16).length = 2 * xs.length := by
  induction xs with
  | nil => rfl
  | cons x xs ih =>
    rw [List.flatMap_cons, List.length_append, ih, List.length_cons]
    show 2 + 2 * xs.length = 2 * (xs.length + 1)
    omega

/-- The words of a list, one behind the other, read back. -/
theorem readI16_flatMap (xs : List Int16) (i : Nat) : readI16 (xs.flatMap putI16) (2 * i) = xs.getD i 0 := by
  induction xs generalizing i with
  | nil =>
    rw [readI16, List.flatMap_nil, List.getD_nil, List.getD_nil, List.getD_nil]
    rfl
  | cons x xs ih =>
    cases i with
    | zero => exact i16FromLe_putI16 x
    | succ i => exact ih i

/-- An even number of bytes is a list of words. -/
theorem exists_flatMap_putI16 (n : Nat) (bytes : List UInt8) (h : bytes.length = 2 * n) :
    ∃ xs : List Int16, xs.length = n ∧ xs.flatMap putI16 = bytes := by
  induction n generalizing bytes with
  | zero => exact ⟨[], rfl, (List.length_eq_zero_iff.1 h).symm⟩
  | succ n ih =>
    match bytes, h with
    | lo :: hi :: bytes, h =>
      rw [List.length_cons, List.length_cons] at h
      obtain ⟨xs, hlen, hxs⟩ := ih bytes (by omega)
      refine ⟨i16FromLe lo hi :: xs, by rw [List.length_cons, hlen], ?_⟩
      rw [List.flatMap_cons, putI16_i16FromLe, hxs]
      rfl

end LittleEndian
