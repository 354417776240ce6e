import EverythingImu.Library.Words

/-!
# Reading a byte buffer

A program that reads a buffer at computed offsets ends in one of three ways: it panics on an index outside the buffer,
it fails with an error of its own, or it returns a value (`Outcome`).  Indexing (`byteAt`), slicing (`slice`) and the
words read byte by byte (`leWord`, `beWord`) panic exactly outside the buffer; inside they give the `portion` of the
bytes there.  Text is read as UTF-8 (`ofUtf8?`).
-/

namespace Buffer

open Words

inductive Outcome (ε α : Type) where
  | panic
  | fail (error : ε)
  | ok (value : α)
deriving DecidableEq

namespace Outcome

variable {ε ε' α β : Type}

def mapErr (f : ε → ε') : Outcome ε α → Outcome ε' α
  | panic => panic
  | fail e => fail (f e)
  | ok a => ok a

@[simp] theorem mapErr_ok (f : ε → ε') (a : α) : mapErr f (ok a) = ok a := rfl

def bind (x : Outcome ε α) (f : α → Outcome ε β) : Outcome ε β :=
  match x with
  | panic => panic
  | fail e => fail e
  | ok a => f a

instance : Monad (Outcome ε) where
  pure := ok
  bind := bind

@[simp] theorem pure_eq (a : α) : (pure a : Outcome ε α) = ok a := rfl

@[simp] theorem ok_bind (a : α) (f : α → Outcome ε β) : (ok a : Outcome ε α) >>= f = f a := rfl

@[simp] theorem fail_bind (e : ε) (f : α → Outcome ε β) : (fail e : Outcome ε α) >>= f = fail e := rfl

@[simp] theorem panic_bind (f : α → Outcome ε β) : (panic : Outcome ε α) >>= f = panic := rfl

theorem bind_eq_ok {x : Outcome ε α} {f : α → Outcome ε β} {b : β} :
    x >>= f = ok b ↔ ∃ a, x = ok a ∧ f a = ok b := by
  cases x with
  | panic => simp
  | fail e => simp
  | ok a => simp

theorem bind_eq_panic {x : Outcome ε α} {f : α → Outcome ε β} :
    x >>= f = panic ↔ x = panic ∨ ∃ a, x = ok a ∧ f a = panic := by
  cases x with
  | panic => simp
  | fail e => simp
  | ok a => simp

/-- A computation panics only if one of its parts does. -/
theorem bind_ne_panic {x : Outcome ε α} {f : α → Outcome ε β} (hx : x ≠ panic) (hf : ∀ a, x = ok a → f a ≠ panic) :
    x >>= f ≠ panic := by
  cases x with
  | panic => exact absurd rfl hx
  | fail e => nofun
  | ok a => exact hf a rfl

end Outcome

variable {ε : Type}

/-- The `n` bytes from offset `o` on. -/
def portion (buf : List UInt8) (o n : Nat) : List UInt8 := (buf.drop o).take n

/-- `buf[i]`. -/
def byteAt (buf : List UInt8) (i : Nat) : Outcome ε UInt8 :=
  match buf[i]? with
  | some b => .ok b
  | none => .panic

/-- `buf[lo..hi]`. -/
def slice (buf : List UInt8) (lo hi : Nat) : Outcome ε (List UInt8) :=
  if lo ≤ hi ∧ hi ≤ buf.length then .ok (portion buf lo (hi - lo)) else .panic

/-- `[buf[o], buf[o + 1], …]`, `n` bytes. -/
def bytesAt (buf : List UInt8) (o : Nat) : Nat → Outcome ε (List UInt8)
  | 0 => .ok []
  | n + 1 => do
    let b ← byteAt buf o
    let bs ← bytesAt buf (o + 1) n
    return b :: bs

/-- The little-endian word at offset `o`. -/
def leWord (W : Type) [Word W] (buf : List UInt8) (o : Nat) : Outcome ε W := do
  return ofLe (← bytesAt buf o (Word.width W))

/-- The big-endian word at offset `o`. -/
def beWord (W : Type) [Word W] (buf : List UInt8) (o : Nat) : Outcome ε W := do
  return ofBe (← bytesAt buf o (Word.width W))

/-- Go on only if the condition holds. -/
def ensure (error : ε) (c : Prop) [Decidable c] : Outcome ε Unit := if c then .ok () else .fail error

/-- Copy a slice into an array of `n` bytes; the copy panics when the lengths differ. -/
def copyFromSlice (n : Nat) (src : List UInt8) : Outcome ε (Vector UInt8 n) :=
  if h : src.length = n then .ok ⟨src.toArray, h⟩ else .panic

/-! ### Inside the buffer -/

variable {buf : List UInt8} {o n : Nat}

theorem byteAt_eq {i : Nat} (h : i < buf.length) : (byteAt buf i : Outcome ε UInt8) = .ok buf[i] := by
  rw [byteAt, List.getElem?_eq_getElem h]

theorem slice_eq (h : o + n ≤ buf.length) : (slice buf o (o + n) : Outcome ε (List UInt8)) = .ok (portion buf o n) := by
  have hn : o + n - o = n := by omega
  rw [slice, if_pos ⟨by omega, h⟩, hn]

@[simp] theorem portion_zero : portion buf o 0 = [] := List.take_zero

theorem portion_succ (h : o < buf.length) : portion buf o (n + 1) = buf[o] :: portion buf (o + 1) n := by
  rw [portion, List.drop_eq_getElem_cons h, List.take_succ_cons, portion]

theorem portion_one (h : o < buf.length) : portion buf o 1 = [buf[o]] := by
  rw [portion_succ h, portion_zero]

theorem bytesAt_eq (h : o + n ≤ buf.length) : (bytesAt buf o n : Outcome ε (List UInt8)) = .ok (portion buf o n) := by
  induction n generalizing o with
  | zero => rw [bytesAt, portion_zero]
  | succ n ih =>
    have ho : o < buf.length := by omega
    have htail : o + 1 + n ≤ buf.length := by omega
    rw [bytesAt, byteAt_eq ho, Outcome.ok_bind, ih htail, Outcome.ok_bind, Outcome.pure_eq, portion_succ ho]

theorem leWord_eq {W : Type} [Word W] (h : o + Word.width W ≤ buf.length) :
    (leWord W buf o : Outcome ε W) = .ok (ofLe (portion buf o (Word.width W))) := by
  rw [leWord, bytesAt_eq h, Outcome.ok_bind, Outcome.pure_eq]

theorem beWord_eq {W : Type} [Word W] (h : o + Word.width W ≤ buf.length) :
    (beWord W buf o : Outcome ε W) = .ok (ofBe (portion buf o (Word.width W))) := by
  rw [beWord, bytesAt_eq h, Outcome.ok_bind, Outcome.pure_eq]

theorem ensure_bind_eq_ok {α : Type} {e : ε} {c : Prop} [Decidable c] {f : Unit → Outcome ε α} {a : α} :
    ensure e c >>= f = .ok a ↔ c ∧ f () = .ok a := by
  unfold ensure
  by_cases h : c
  · rw [if_pos h, Outcome.ok_bind]
    exact ⟨fun hf => ⟨h, hf⟩, fun hf => hf.2⟩
  · rw [if_neg h, Outcome.fail_bind]
    exact ⟨nofun, fun hf => absurd hf.1 h⟩

theorem ensure_bind_ne_panic {α : Type} {e : ε} {c : Prop} [Decidable c] {f : Unit → Outcome ε α}
    (hf : c → f () ≠ .panic) : ensure e c >>= f ≠ .panic := by
  unfold ensure
  by_cases h : c
  · rw [if_pos h, Outcome.ok_bind]
    exact hf h
  · rw [if_neg h]
    nofun

theorem byteAt_eq_word {i : Nat} (h : i < buf.length) :
    (byteAt buf i : Outcome ε UInt8) = .ok (ofLe (portion buf i 1)) := by
  rw [byteAt_eq h, portion_one h, ofLe_singleton]

theorem copyFromSlice_eq {src : List UInt8} (h : src.length = n) :
    (copyFromSlice n src : Outcome ε (Vector UInt8 n)) = .ok ⟨src.toArray, h⟩ := by
  rw [copyFromSlice, dif_pos h]

theorem copyFromSlice_eq_ok_iff {src : List UInt8} {v : Vector UInt8 n} :
    (copyFromSlice n src : Outcome ε (Vector UInt8 n)) = .ok v ↔ src = v.toList := by
  unfold copyFromSlice
  constructor
  · intro h
    split at h
    · cases h
      rfl
    · cases h
  · rintro rfl
    rw [dif_pos v.length_toList]
    rfl

/-! ### Portions of a layout -/

theorem length_portion (h : o + n ≤ buf.length) : (portion buf o n).length = n := by
  rw [portion, List.length_take, List.length_drop]
  omega

/-- Two portions that follow each other are one portion. -/
theorem portion_add (o m n : Nat) : portion buf o (m + n) = portion buf o m ++ portion buf (o + m) n := by
  rw [portion, portion, portion, List.take_add, List.drop_drop]

/-- The word that is read from a portion is written as the portion. -/
theorem toLe_ofLe_portion {W : Type} [Word W] (h : o + Word.width W ≤ buf.length) :
    toLe (ofLe (portion buf o (Word.width W)) : W) = portion buf o (Word.width W) :=
  toLe_ofLe (length_portion h)

/-- A buffer is its first bytes and the rest. -/
theorem eq_portion_append (n : Nat) : buf = portion buf 0 n ++ buf.drop n := by
  rw [portion, List.drop_zero, List.take_append_drop]

theorem drop_eq_portion_append (o n : Nat) : buf.drop o = portion buf o n ++ buf.drop (o + n) := by
  rw [portion, ← List.drop_drop, List.take_append_drop]

/-- A portion inside the first part of the buffer. -/
@[simp] theorem portion_append_left {x y : List UInt8} (h : o + n ≤ x.length) :
    portion (x ++ y) o n = portion x o n := by
  have ho : o ≤ x.length := by omega
  have hn : n ≤ (x.drop o).length := by
    rw [List.length_drop]
    omega
  rw [portion, List.drop_append_of_le_length ho, List.take_append_of_le_length hn, portion]

/-- A portion inside the second part of the buffer. -/
@[simp] theorem portion_append_right {x y : List UInt8} (h : x.length ≤ o) :
    portion (x ++ y) o n = portion y (o - x.length) n := by
  have hx : x.drop o = [] := List.drop_eq_nil_of_le h
  rw [portion, List.drop_append, hx, List.nil_append, portion]

/-- A portion of a portion. -/
theorem portion_portion {k m : Nat} (h : k + m ≤ n) : portion (portion buf o n) k m = portion buf (o + k) m := by
  have hmin : min m (n - k) = m := by omega
  rw [portion, portion, portion, List.drop_take, List.drop_drop, List.take_take, hmin]

@[simp] theorem portion_self {x : List UInt8} (h : x.length = n) : portion x 0 n = x := by
  rw [portion, List.drop_zero, ← h, List.take_length]

@[simp] theorem portion_cons_zero (b : UInt8) (x : List UInt8) : portion (b :: x) 0 (n + 1) = b :: portion x 0 n := rfl

@[simp] theorem portion_cons (b : UInt8) (x : List UInt8) : portion (b :: x) (o + 1) n = portion x o n := rfl

/-! ### Text -/

/-- The UTF-8 bytes of a text. -/
def utf8 (s : String) : List UInt8 := s.toUTF8.data.toList

/-- The text with these bytes, if they are UTF-8. -/
def ofUtf8? (bytes : List UInt8) : Option String := String.fromUTF8? ⟨bytes.toArray⟩

theorem ofUtf8?_eq_some_iff {bytes : List UInt8} {s : String} : ofUtf8? bytes = some s ↔ bytes = utf8 s := by
  unfold ofUtf8? String.fromUTF8? utf8
  constructor
  · intro h
    split at h
    · obtain rfl := Option.some.inj h
      rfl
    · cases h
  · rintro rfl
    have hbytes : (⟨s.toUTF8.data.toList.toArray⟩ : ByteArray) = s.toUTF8 := by simp
    have hvalid : s.toUTF8.IsValidUTF8 := s.isValidUTF8
    rw [hbytes, dif_pos hvalid]
    rfl

@[simp] theorem utf8_append (s t : String) : utf8 (s ++ t) = utf8 s ++ utf8 t := by simp [utf8]

theorem length_utf8 (s : String) : (utf8 s).length = s.utf8ByteSize := by simp [utf8]

theorem ofUtf8?_utf8 (s : String) : ofUtf8? (utf8 s) = some s := ofUtf8?_eq_some_iff.2 rfl

theorem utf8_inj {s t : String} (h : utf8 s = utf8 t) : s = t := by
  have hs := ofUtf8?_utf8 s
  rw [h, ofUtf8?_utf8] at hs
  exact (Option.some.inj hs).symm

/-- A position in the bytes of a text lies between two characters if and only if the byte behind it begins one. -/
theorem isValid_iff_getElem? {s : String} {n : Nat} (hn : n ≤ (utf8 s).length) :
    (⟨n⟩ : String.Pos.Raw).IsValid s ↔ ∀ b ∈ (utf8 s)[n]?, b.IsUTF8FirstByte := by
  rw [String.Pos.Raw.isValid_iff_isUTF8FirstByte]
  rw [length_utf8] at hn
  rcases Nat.lt_or_eq_of_le hn with hlt | rfl
  · have hpos : (⟨n⟩ : String.Pos.Raw) < s.rawEndPos := hlt
    have hne : (⟨n⟩ : String.Pos.Raw) ≠ s.rawEndPos := ne_of_apply_ne String.Pos.Raw.byteIdx (Nat.ne_of_lt hlt)
    have hget : (utf8 s)[n]? = some (s.getUTF8Byte ⟨n⟩ hpos) :=
      List.getElem?_eq_getElem (by rwa [length_utf8])
    rw [hget]
    simp [hne, hpos]
  · have hnone : (utf8 s)[s.utf8ByteSize]? = none :=
      List.getElem?_eq_none (Nat.le_of_eq (length_utf8 s))
    rw [hnone]
    exact iff_of_true (.inl rfl) nofun

/-- The first bytes of a text are a text if and only if they end between two characters, and then they are a beginning
of the text. -/
theorem take_utf8_iff {s : String} {n : Nat} (hn : n ≤ (utf8 s).length) :
    (∃ p, ofUtf8? ((utf8 s).take n) = some p ∧ ∃ rest, s = p ++ rest) ↔ ∀ b ∈ (utf8 s)[n]?, b.IsUTF8FirstByte := by
  rw [← isValid_iff_getElem? hn, String.Pos.Raw.isValid_iff_exists_append]
  constructor
  · rintro ⟨p, hp, rest, rfl⟩
    refine ⟨p, rest, rfl, ?_⟩
    have hlen := congrArg List.length (ofUtf8?_eq_some_iff.1 hp)
    rw [List.length_take, Nat.min_eq_left hn, length_utf8] at hlen
    exact String.Pos.Raw.ext hlen
  · rintro ⟨p, rest, rfl, hp⟩
    have hlen : n = (utf8 p).length := by
      rw [length_utf8]
      exact congrArg String.Pos.Raw.byteIdx hp
    refine ⟨p, ?_, rest, rfl⟩
    rw [hlen, utf8_append, List.take_left, ofUtf8?_utf8]

/-- An ASCII text has one byte for each character. -/
theorem utf8_of_ascii {s : String} (h : ∀ c ∈ s.toList, c.val < 128) : utf8 s = s.toList.map (·.val.toUInt8) := by
  have hlist : ∀ cs : List Char, (∀ c ∈ cs, c.val < 128) → utf8 (String.ofList cs) = cs.map (·.val.toUInt8) := by
    intro cs hcs
    unfold utf8
    rw [String.toUTF8_eq_toByteArray, String.toByteArray_ofList]
    induction cs with
    | nil => rfl
    | cons c cs ih =>
      have hsize : c.utf8Size = 1 := Char.utf8Size_eq_one_iff.2 (by have := hcs c (by simp); grind)
      have hrest := ih fun d hd => hcs d (by simp [hd])
      rw [List.utf8Encode_cons, List.map_cons, ← hrest]
      simp [List.utf8Encode, String.utf8EncodeChar_eq_singleton hsize]
  have hs := hlist s.toList h
  rwa [String.ofList_toList] at hs

/-- A text whose bytes are ASCII. -/
theorem toList_of_ascii {s : String} (h : ∀ b ∈ utf8 s, b < 128) :
    s.toList = (utf8 s).map fun b => Char.ofNat b.toNat := by
  have hchar : ∀ n < 128, (Char.ofNat n).val < 128 ∧ (Char.ofNat n).val.toUInt8 = UInt8.ofNat n := by decide
  have hbyte : ∀ b ∈ utf8 s, (Char.ofNat b.toNat).val < 128 ∧ (Char.ofNat b.toNat).val.toUInt8 = b := by
    intro b hb
    have hb := hchar b.toNat (UInt8.lt_iff_toNat_lt.1 (h b hb))
    rwa [UInt8.ofNat_toNat] at hb
  have hsame : utf8 (String.ofList ((utf8 s).map fun b => Char.ofNat b.toNat)) = utf8 s := by
    rw [utf8_of_ascii (by simpa using fun b hb => (hbyte b hb).1), String.toList_ofList, List.map_map]
    exact (List.map_congr_left fun b hb => (hbyte b hb).2).trans (List.map_id _)
  rw [← String.ofList_inj, String.ofList_toList]
  exact (utf8_inj hsame).symm

end Buffer
