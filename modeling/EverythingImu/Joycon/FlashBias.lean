import EverythingImu.Joycon.Samples
import EverythingImu.Library.Buffer
import Mathlib

/-!
# The magnetometer bias in the flash of a Joy-Con 2

The bias is read from the reply to a flash read (`jc2.rs`), which echoes the address.  The reply is accepted by its
address, but the numbers are the first plausible ones from offset 8 on.  So they are those behind the address exactly
if nothing before them is plausible, or the first plausible bytes are the same (`extractMagBias_iff`).
-/

namespace EverythingImu.Joycon

open Buffer Words

def FLASH_ADDR_MAG_BIAS : UInt32 := 0x00013100

/-- The offsets from `lo` to `hi`. -/
def inclusive (lo hi : Nat) : List Nat := List.range' lo (hi + 1 - lo)

def containsAddrLe (bytes : List UInt8) (addr : UInt32) : Bool :=
  if bytes.length < 8 then false
  else (inclusive 4 (min (bytes.length - 4) 24)).any fun i => portion bytes i 4 == toLe addr

/-- The three numbers from offset `off` on, by their bit patterns. -/
def tripleAt (bytes : List UInt8) (off : Nat) : Vector F32 3 :=
  #v[ofLe (portion bytes off 4), ofLe (portion bytes (off + 4) 4), ofLe (portion bytes (off + 8) 4)]

/-- Neither infinite nor not a number, not too large and not all zero. -/
def plausibleBias (bias : Vector F32 3) : Bool :=
  !(bias.any fun b => !b.toFloat32.isFinite) && !(bias.any fun b => decide (500.0 < b.toFloat32.abs)) &&
    !(bias.all fun b => b.toFloat32 == 0.0)

def extractMagBiasFromFlashResponse (bytes : List UInt8) : Option (Vector F32 3) :=
  if bytes.length < 20 then none
  else
    let found := (inclusive 8 (min (bytes.length - 12) 24)).find? fun off => plausibleBias (tripleAt bytes off)
    found.map (tripleAt bytes)

/-- A notification that is taken for the reply. -/
def isMagBiasReply (bytes : List UInt8) : Bool :=
  14 ≤ bytes.length && bytes.getD 0 0 == 0x02 && bytes.getD 1 0 == 0x01 && containsAddrLe bytes FLASH_ADDR_MAG_BIAS

/-- The bias from the notifications that arrive in time: the first reply decides. -/
def resolveMagBiasViaFlash (kind : JoyCon2Kind) (notifications : List (List UInt8)) : Option (Vector Float32 3) :=
  match notifications.find? isMagBiasReply with
  | some bytes => (extractMagBiasFromFlashResponse bytes).map fun raw => remapAxes kind (raw.map F32.toFloat32)
  | none => none

/-! ### Replies -/

/-- The address stands at an offset where it is accepted, and three plausible numbers behind it. -/
structure Echoes (bytes : List UInt8) (addr : UInt32) (i : Nat) : Prop where
  accepted : 4 ≤ i ∧ i ≤ 24
  address : portion bytes i 4 = toLe addr
  long : i + 16 ≤ bytes.length
  isPlausible : plausibleBias (tripleAt bytes (i + 4)) = true

variable {bytes : List UInt8} {addr : UInt32} {i off : Nat}

theorem mem_inclusive {lo hi : Nat} : off ∈ inclusive lo hi ↔ lo ≤ off ∧ off ≤ hi := by
  rw [inclusive, List.mem_range'_1]
  omega

theorem Echoes.containsAddrLe (h : Echoes bytes addr i) : containsAddrLe bytes addr = true := by
  have haccepted := h.accepted
  have hlong := h.long
  have hmem : i ∈ inclusive 4 (min (bytes.length - 4) 24) := mem_inclusive.2 (by omega)
  have hshort : ¬ bytes.length < 8 := by omega
  rw [Joycon.containsAddrLe, if_neg hshort, List.any_eq_true]
  exact ⟨i, hmem, beq_iff_eq.2 h.address⟩

/-- The first notification that echoes the address behind the right header decides, whatever follows. -/
theorem resolveMagBias_echoes (kind : JoyCon2Kind) {before after : List (List UInt8)}
    (hbefore : ∀ n ∈ before, isMagBiasReply n = false) (h : Echoes bytes FLASH_ADDR_MAG_BIAS i)
    (hheader : bytes.getD 0 0 = 0x02 ∧ bytes.getD 1 0 = 0x01) :
    resolveMagBiasViaFlash kind (before ++ bytes :: after) =
      (extractMagBiasFromFlashResponse bytes).map fun raw => remapAxes kind (raw.map F32.toFloat32) := by
  have hlong : 14 ≤ bytes.length := by
    have := h.long
    omega
  have hreply : isMagBiasReply bytes = true := by
    rw [isMagBiasReply, hheader.1, hheader.2, h.containsAddrLe, decide_eq_true hlong]
    rfl
  have hfind : (before ++ bytes :: after).find? isMagBiasReply = some bytes := by
    have hnone : before.find? isMagBiasReply = none :=
      List.find?_eq_none.2 fun n hn => Bool.eq_false_iff.1 (hbefore n hn)
    rw [List.find?_append, hnone, Option.none_or, List.find?_cons_of_pos hreply]
  rw [resolveMagBiasViaFlash, hfind]

theorem wordAt_eq_iff {a b : Nat} (ha : a + 4 ≤ bytes.length) (hb : b + 4 ≤ bytes.length) :
    (ofLe (portion bytes a 4) : F32) = ofLe (portion bytes b 4) ↔ portion bytes a 4 = portion bytes b 4 := by
  have hwrite {c : Nat} (hc : c + 4 ≤ bytes.length) : toLe (ofLe (portion bytes c 4) : F32) = portion bytes c 4 :=
    toLe_ofLe_portion hc
  constructor
  · intro h
    rw [← hwrite ha, ← hwrite hb, h]
  · exact congrArg ofLe

/-- Three numbers are the same bit patterns if and only if their bytes are the same. -/
theorem tripleAt_eq_iff {o o' : Nat} (ho : o + 12 ≤ bytes.length) (ho' : o' + 12 ≤ bytes.length) :
    tripleAt bytes o = tripleAt bytes o' ↔ portion bytes o 12 = portion bytes o' 12 := by
  have hword (c : Nat) (hc : c ≤ 8) : (ofLe (portion bytes (o + c) 4) : F32) = ofLe (portion bytes (o' + c) 4) ↔
      portion bytes (o + c) 4 = portion bytes (o' + c) 4 := wordAt_eq_iff (by omega) (by omega)
  have hx := hword 0 (by omega)
  have hy := hword 4 (by omega)
  have hz := hword 8 (by omega)
  have hsplit (a : Nat) :
      portion bytes a 12 = portion bytes a 4 ++ (portion bytes (a + 4) 4 ++ portion bytes (a + 8) 4) := by
    rw [← portion_add, ← portion_add]
  have hlen {a b : Nat} (ha : a + 4 ≤ bytes.length) (hb : b + 4 ≤ bytes.length) :
      (portion bytes a 4).length = (portion bytes b 4).length := by
    rw [length_portion ha, length_portion hb]
  rw [hsplit, hsplit]
  constructor
  · intro h
    rw [Nat.add_zero, Nat.add_zero] at hx
    rw [hx.1 (congrArg Vector.x h), hy.1 (congrArg Vector.y h), hz.1 (congrArg Vector.z h)]
  · intro h
    obtain ⟨hfirst, hrest⟩ := List.append_inj h (hlen (by omega) (by omega))
    obtain ⟨hsecond, hthird⟩ := List.append_inj hrest (hlen (by omega) (by omega))
    rw [Nat.add_zero, Nat.add_zero] at hx
    rw [tripleAt, tripleAt, hx.2 hfirst, hy.2 hsecond, hz.2 hthird]

/-- What is extracted stands at the first plausible offset. -/
theorem extractMagBias_eq_some_iff (hlen : 20 ≤ bytes.length) {bias : Vector F32 3} :
    extractMagBiasFromFlashResponse bytes = some bias ↔
      ∃ off, 8 ≤ off ∧ off ≤ 24 ∧ off + 12 ≤ bytes.length ∧ plausibleBias (tripleAt bytes off) = true ∧
        (∀ off', 8 ≤ off' → off' < off → plausibleBias (tripleAt bytes off') = false) ∧ tripleAt bytes off = bias := by
  rw [extractMagBiasFromFlashResponse, if_neg (not_lt.2 hlen), Option.map_eq_some_iff]
  refine exists_congr fun off => ?_
  rw [inclusive, List.find?_range'_eq_some, List.mem_range'_1]
  constructor
  · rintro ⟨⟨hvalid, hmem, hbefore⟩, hbias⟩
    refine ⟨hmem.1, by omega, by omega, hvalid, fun off' hlow hlt => ?_, hbias⟩
    simpa using hbefore off' hlow hlt
  · rintro ⟨hlow, hhigh, hfits, hvalid, hbefore, hbias⟩
    refine ⟨⟨hvalid, ⟨hlow, by omega⟩, fun off' hlow hlt => ?_⟩, hbias⟩
    rw [hbefore off' hlow hlt]
    rfl

/-- The header has no plausible bytes before those behind the address, or the first plausible ones are the same. -/
def Undisturbed (bytes : List UInt8) (i : Nat) : Prop :=
  (i ≤ 20 ∧ ∀ off, 8 ≤ off → off < i + 4 → plausibleBias (tripleAt bytes off) = false) ∨
    ∃ off, 8 ≤ off ∧ off < i + 4 ∧ off ≤ 24 ∧ plausibleBias (tripleAt bytes off) = true ∧
      (∀ off', 8 ≤ off' → off' < off → plausibleBias (tripleAt bytes off') = false) ∧
      portion bytes off 12 = portion bytes (i + 4) 12

theorem extractMagBias_iff (h : Echoes bytes addr i) :
    extractMagBiasFromFlashResponse bytes = some (tripleAt bytes (i + 4)) ↔ Undisturbed bytes i := by
  obtain ⟨⟨hlow, hhigh⟩, -, hlong, hvalid⟩ := h
  rw [extractMagBias_eq_some_iff (by omega)]
  constructor
  · rintro ⟨off, hoff, hoff', hfits, hoffPlausible, hbefore, hsame⟩
    rw [tripleAt_eq_iff hfits (by omega)] at hsame
    rcases lt_trichotomy off (i + 4) with hlt | heq | hgt
    · exact .inr ⟨off, hoff, hlt, hoff', hoffPlausible, hbefore, hsame⟩
    · subst heq
      exact .inl ⟨by omega, hbefore⟩
    · have hfalse := hbefore (i + 4) (by omega) hgt
      rw [hvalid] at hfalse
      cases hfalse
  · rintro (⟨hi, hbefore⟩ | ⟨off, hoff, hlt, hoff', hoffPlausible, hbefore, hsame⟩)
    · exact ⟨i + 4, by omega, by omega, by omega, hvalid, hbefore, rfl⟩
    · refine ⟨off, hoff, hoff', by omega, hoffPlausible, hbefore, ?_⟩
      rw [tripleAt_eq_iff (by omega) (by omega), hsame]

/-- The bytes of 1, 2 and 3. -/
def oneTwoThree : List UInt8 := [0x00, 0x00, 0x80, 0x3F, 0x00, 0x00, 0x00, 0x40, 0x00, 0x00, 0x40, 0x40]

/-- Without anything between the header and the address the numbers are found. -/
theorem extractMagBias_shortHeader :
    extractMagBiasFromFlashResponse ([0x02, 0x01, 0, 0] ++ [0x00, 0x31, 0x01, 0x00] ++ oneTwoThree) =
      some #v[⟨0x3F800000⟩, ⟨0x40000000⟩, ⟨0x40400000⟩] := by
  have hechoes : Echoes ([0x02, 0x01, 0, 0] ++ [0x00, 0x31, 0x01, 0x00] ++ oneTwoThree) FLASH_ADDR_MAG_BIAS 4 :=
    ⟨by decide, by decide, by decide, by decide +kernel⟩
  have hfound := (extractMagBias_iff hechoes).2 (.inl ⟨by decide, fun off hlow hlt => absurd hlt (by omega)⟩)
  exact hfound.trans (by decide +kernel)

/-- An address at offset 8 is itself taken for the first number. -/
theorem extractMagBias_readsAddress :
    ¬ ∀ (bytes : List UInt8) (addr : UInt32) (i : Nat), Echoes bytes addr i →
      extractMagBiasFromFlashResponse bytes = some (tripleAt bytes (i + 4)) := by
  intro h
  have hechoes : Echoes ([0x02, 0x01, 0, 0, 0, 0, 0, 0] ++ [0x00, 0x31, 0x01, 0x00] ++ oneTwoThree)
      FLASH_ADDR_MAG_BIAS 8 := ⟨by decide, by decide, by decide, by decide +kernel⟩
  exact absurd (h _ _ _ hechoes) (by decide +kernel)

end EverythingImu.Joycon
