import EverythingImu.Remote.Protocol

/-!
# The grammar of the remote protocol

The layouts of the messages that a phone sends, as `PROTOCOL.md` gives them (`Encodes`): flags are any byte, zero or
not, and the magnetometer of a sample without one is on the wire but ignored.

The parser accepts exactly the datagrams that start with such an encoding, and gives the encoded message
(`parse_eq_ok_iff`); the eight bytes behind a hello are its clock, so a hello without a clock may be followed by fewer.
It never reads outside the datagram (`parse_ne_panic`).
-/

namespace EverythingImu.Remote

open Buffer Words

def bytes3 (v : F32x3) : List UInt8 := toLe v.1 ++ (toLe v.2.1 ++ toLe v.2.2)

/-- A sample: timestamp, gyro, accel, has_mag, mag. -/
inductive SampleLayout : ImuSampleBits → List UInt8 → Prop
  | withMag (ts : UInt64) (gyro accel mag : F32x3) {hasMag : UInt8} (h : hasMag ≠ 0) :
    SampleLayout ⟨gyro, accel, some mag, ts⟩ (toLe ts ++ (bytes3 gyro ++ (bytes3 accel ++ hasMag :: bytes3 mag)))
  | withoutMag (ts : UInt64) (gyro accel ignored : F32x3) :
    SampleLayout ⟨gyro, accel, none, ts⟩ (toLe ts ++ (bytes3 gyro ++ (bytes3 accel ++ 0 :: bytes3 ignored)))

inductive SamplesLayout : List ImuSampleBits → List UInt8 → Prop
  | nil : SamplesLayout [] []
  | cons {sample : ImuSampleBits} {samples : List ImuSampleBits} {x xs : List UInt8} (h : SampleLayout sample x)
    (hs : SamplesLayout samples xs) : SamplesLayout (sample :: samples) (x ++ xs)

/-- The kind byte of an announcement. -/
def kindByte : DeviceKind → Option UInt8
  | .phone => some 1
  | .watch => some 2
  | .joyCon2L => some 3
  | .joyCon2R => some 4
  | .proController2 => some 5
  | .hopx => some 6
  | .dualSense => some 7
  | .dualShock4 => some 8
  | .joyConL => some 9
  | .joyConR => some 10
  | .proController => some 11
  | .gamepad => some 12
  | _ => none

/-- The payload of a message of each type. -/
inductive Layout : UInt8 → RemoteMsg → List UInt8 → Prop
  | hello (uuid : Vector UInt8 16) {name : String} (hname : (utf8 name).length ≤ 255) :
    Layout 0x01 (.hello uuid name none) (uuid.toList ++ UInt8.ofNat (utf8 name).length :: utf8 name)
  | helloClock (uuid : Vector UInt8 16) {name : String} (hname : (utf8 name).length ≤ 255) (ts : UInt64) :
    Layout 0x01 (.hello uuid name (some ts)) (uuid.toList ++ UInt8.ofNat (utf8 name).length :: (utf8 name ++ toLe ts))
  | announce (a : Announce) {kind hasMag hasBattery hasRumble : UInt8} (hkind : kindByte a.kind = some kind)
    (hmag : a.hasMag = (hasMag != 0)) (hbattery : a.hasBattery = (hasBattery != 0))
    (hrumble : a.hasRumble = (hasRumble != 0)) (hname : (utf8 a.name).length ≤ 255) :
    Layout 0x03 (.announce a) (toLe a.handle ++ kind :: (a.mac.toList ++ hasMag :: hasBattery :: hasRumble ::
      (toLe a.rateHz ++ UInt8.ofNat (utf8 a.name).length :: utf8 a.name)))
  | remove (handle : UInt16) : Layout 0x04 (.remove handle) (toLe handle)
  | imu (handle : UInt16) {samples : List ImuSampleBits} {x : List UInt8} (hcount : samples.length ≤ 255)
    (hs : SamplesLayout samples x) :
    Layout 0x05 (.imu handle none samples) (toLe handle ++ UInt8.ofNat samples.length :: x)
  | battery (handle : UInt16) (fraction : F32) (charging : UInt8) :
    Layout 0x06 (.battery handle ⟨fraction, charging != 0⟩) (toLe handle ++ (toLe fraction ++ [charging]))
  | yaw (handle : UInt16) : Layout 0x07 (.button handle .yaw) (toLe handle ++ [0])
  | full (handle : UInt16) {reset : UInt8} (h : reset ≠ 0) :
    Layout 0x07 (.button handle .full) (toLe handle ++ [reset])
  | imu2 (handle seq : UInt16) {samples : List ImuSampleBits} {x : List UInt8} (hcount : samples.length ≤ 255)
    (hs : SamplesLayout samples x) :
    Layout 0x09 (.imu handle (some seq) samples) (toLe handle ++ (toLe seq ++ UInt8.ofNat samples.length :: x))

/-- The envelope around the payload: the magic number, the version and the type. -/
def envelope (type : UInt8) (payload : List UInt8) : List UInt8 := [0x45, 0x49, 0x4D, 0x55, 1, type] ++ payload

def Encodes (m : RemoteMsg) (e : List UInt8) : Prop := ∃ type payload, Layout type m payload ∧ e = envelope type payload

/-- What may follow a message: anything, but fewer than the eight bytes of a clock after a hello without one. -/
def Trailing (m : RemoteMsg) (t : List UInt8) : Prop := ∀ uuid name, m = .hello uuid name none → t.length < 8

/-- The messages that fit: a length byte holds the length of a name and the number of samples, the kind of an announced
device has a byte, and a button asks for one of the two resets of the protocol. -/
def Fits : RemoteMsg → Prop
  | .hello _ name _ => (utf8 name).length ≤ 255
  | .announce a => (utf8 a.name).length ≤ 255 ∧ (kindByte a.kind).isSome
  | .imu _ _ samples => samples.length ≤ 255
  | .button _ reset => reset = .yaw ∨ reset = .full
  | .remove _ | .battery _ _ => True

/-! ### Samples -/

private def vectorOf (x : List UInt8) (o : Nat) : F32x3 :=
  (ofLe (portion x o 4), ofLe (portion x (o + 4) 4), ofLe (portion x (o + 8) 4))

/-- The sample with the bytes `x`. -/
private def sampleOf (x : List UInt8) : ImuSampleBits :=
  ⟨vectorOf x 8, vectorOf x 20, if (ofLe (portion x 32 1) : UInt8) != 0 then some (vectorOf x 33) else none,
    ofLe (portion x 0 8)⟩

private theorem f32x3_eq {p : List UInt8} {o : Nat} (h : o + 12 ≤ p.length) : f32x3 p o = .ok (vectorOf p o) := by
  have h₀ : o + Word.width F32 ≤ p.length := by rw [F32.width_f32]; omega
  have h₁ : o + 4 + Word.width F32 ≤ p.length := by rw [F32.width_f32]; omega
  have h₂ : o + 8 + Word.width F32 ≤ p.length := by rw [F32.width_f32]; omega
  rw [f32x3, leWord_eq h₀, Outcome.ok_bind, leWord_eq h₁, Outcome.ok_bind, leWord_eq h₂, Outcome.ok_bind]
  rfl

private theorem vectorOf_portion {p : List UInt8} {off n o : Nat} (h : o + 12 ≤ n) :
    vectorOf (portion p off n) o = vectorOf p (off + o) := by
  rw [vectorOf, portion_portion (by omega), portion_portion (by omega), portion_portion (by omega), vectorOf,
    Nat.add_assoc off, Nat.add_assoc off]

private theorem parseSample_eq {p : List UInt8} {off : Nat} (h : off + SAMPLE_LEN ≤ p.length) :
    parseSample p off = .ok (sampleOf (portion p off SAMPLE_LEN)) := by
  have h45 : off + 45 ≤ p.length := h
  have hmag : ∀ b, parseMag p off b = .ok (if b then some (vectorOf p (off + 33)) else none) := by
    intro b
    unfold parseMag
    cases b with
    | false => rfl
    | true => rw [if_pos rfl, if_pos rfl, f32x3_eq (by omega), Outcome.ok_bind, Outcome.pure_eq]
  rw [parseSample, slice_eq (by omega), Outcome.ok_bind, byteAt_eq_word (by omega), Outcome.ok_bind,
    f32x3_eq (by omega), Outcome.ok_bind, f32x3_eq (by omega), Outcome.ok_bind, hmag, Outcome.ok_bind, Outcome.pure_eq,
    sampleOf, portion_portion (by decide), portion_portion (by decide), vectorOf_portion (by decide),
    vectorOf_portion (by decide), vectorOf_portion (by decide)]
  rfl

private theorem bytes3_vectorOf {x : List UInt8} {o : Nat} (h : o + 12 ≤ x.length) :
    bytes3 (vectorOf x o) = portion x o 12 := by
  have hword : ∀ k, k + 4 ≤ x.length → toLe (ofLe (portion x k 4) : F32) = portion x k 4 :=
    fun k hk => toLe_ofLe_portion hk
  rw [bytes3, vectorOf, hword o (by omega), hword (o + 4) (by omega), hword (o + 8) (by omega)]
  show _ = portion x o (4 + (4 + 4))
  rw [portion_add, portion_add]

/-- The layout of a sample is a string of the right length that is read as the sample. -/
private theorem sampleLayout_iff {sample : ImuSampleBits} {x : List UInt8} :
    SampleLayout sample x ↔ x.length = SAMPLE_LEN ∧ sampleOf x = sample := by
  constructor
  · intro h
    cases h with
    | withMag ts gyro accel mag h =>
      refine ⟨by simp [bytes3, SAMPLE_LEN], ?_⟩
      simp [sampleOf, vectorOf, bytes3, h]
    | withoutMag ts gyro accel ignored =>
      refine ⟨by simp [bytes3, SAMPLE_LEN], ?_⟩
      simp [sampleOf, vectorOf, bytes3]
  · rintro ⟨hlen, rfl⟩
    have h45 : x.length = 45 := hlen
    have hts : toLe (ofLe (portion x 0 8) : UInt64) = portion x 0 8 := toLe_ofLe_portion (by rw [h45]; decide)
    have hflag : [(ofLe (portion x 32 1) : UInt8)] = portion x 32 1 := by
      rw [portion_one (by omega), ofLe_singleton]
    have hx : x = toLe (ofLe (portion x 0 8) : UInt64) ++ (bytes3 (vectorOf x 8) ++ (bytes3 (vectorOf x 20) ++
        (ofLe (portion x 32 1) : UInt8) :: bytes3 (vectorOf x 33))) := by
      rw [← List.singleton_append, hflag, hts, bytes3_vectorOf (by omega), bytes3_vectorOf (by omega),
        bytes3_vectorOf (by omega)]
      have hall : x = portion x 0 (8 + (12 + (12 + (1 + 12)))) := (portion_self h45).symm
      rw [portion_add, portion_add, portion_add, portion_add] at hall
      exact hall
    by_cases hmag : (ofLe (portion x 32 1) : UInt8) = 0
    · have hlayout := SampleLayout.withoutMag (ofLe (portion x 0 8)) (vectorOf x 8) (vectorOf x 20) (vectorOf x 33)
      rw [← hmag, ← hx] at hlayout
      rw [sampleOf, hmag]
      exact hlayout
    · have hlayout := SampleLayout.withMag (ofLe (portion x 0 8)) (vectorOf x 8) (vectorOf x 20) (vectorOf x 33) hmag
      rw [← hx] at hlayout
      rw [sampleOf, if_pos (by simpa using hmag)]
      exact hlayout

/-- A whole sample at an offset is read as the sample whose layout stands there. -/
private theorem parseSample_eq_ok_iff {p : List UInt8} {off : Nat} {sample : ImuSampleBits}
    (h : off + SAMPLE_LEN ≤ p.length) :
    parseSample p off = .ok sample ↔ SampleLayout sample (portion p off SAMPLE_LEN) := by
  rw [parseSample_eq h, sampleLayout_iff, Outcome.ok.injEq]
  exact ⟨fun hs => ⟨length_portion h, hs⟩, fun hs => hs.2⟩

theorem SamplesLayout.length {samples : List ImuSampleBits} {x : List UInt8} (h : SamplesLayout samples x) :
    x.length = samples.length * SAMPLE_LEN := by
  induction h with
  | nil => simp
  | cons h _ ih =>
    rw [List.length_append, (sampleLayout_iff.1 h).1, ih, List.length_cons, Nat.succ_mul, Nat.add_comm]

private theorem samplesLayout_cons_iff {sample : ImuSampleBits} {samples : List ImuSampleBits} {x xs : List UInt8}
    (hx : x.length = SAMPLE_LEN) :
    SamplesLayout (sample :: samples) (x ++ xs) ↔ SampleLayout sample x ∧ SamplesLayout samples xs := by
  constructor
  · generalize hall : x ++ xs = all
    intro h
    cases h with
    | cons h hs =>
      have hlen := (sampleLayout_iff.1 h).1
      obtain ⟨rfl, rfl⟩ := List.append_inj hall (hx.trans hlen.symm)
      exact ⟨h, hs⟩
  · rintro ⟨h, hs⟩
    exact .cons h hs

/-- `n` whole samples from an offset on are read as the samples whose layout stands there. -/
private theorem parseSamples_eq_ok_iff {p : List UInt8} {off n : Nat} {samples : List ImuSampleBits}
    (h : off + n * SAMPLE_LEN ≤ p.length) :
    parseSamples p off n = .ok samples ↔
      samples.length = n ∧ SamplesLayout samples (portion p off (n * SAMPLE_LEN)) := by
  induction n generalizing off samples with
  | zero =>
    rw [parseSamples, Nat.zero_mul, portion_zero, Outcome.ok.injEq]
    constructor
    · rintro rfl
      exact ⟨rfl, .nil⟩
    · rintro ⟨hlen, -⟩
      exact (List.eq_nil_of_length_eq_zero hlen).symm
  | succ n ih =>
    rw [Nat.succ_mul] at h
    have hfirst : off + SAMPLE_LEN ≤ p.length := by omega
    have hrest : off + SAMPLE_LEN + n * SAMPLE_LEN ≤ p.length := by omega
    rw [parseSamples, Outcome.bind_eq_ok, Nat.succ_mul, Nat.add_comm (n * SAMPLE_LEN), portion_add]
    cases samples with
    | nil =>
      constructor
      · rintro ⟨s, -, hs⟩
        obtain ⟨ss, -, hss⟩ := Outcome.bind_eq_ok.1 hs
        cases hss
      · rintro ⟨hlen, -⟩
        cases hlen
    | cons sample samples =>
      rw [samplesLayout_cons_iff (length_portion hfirst), ← parseSample_eq_ok_iff hfirst, List.length_cons,
        Nat.succ_inj]
      constructor
      · rintro ⟨s, hs, htail⟩
        obtain ⟨ss, hss, hcons⟩ := Outcome.bind_eq_ok.1 htail
        simp only [Outcome.pure_eq, Outcome.ok.injEq, List.cons.injEq] at hcons
        obtain ⟨rfl, rfl⟩ := hcons
        obtain ⟨hlen, hlayout⟩ := (ih hrest).1 hss
        exact ⟨hlen, hs, hlayout⟩
      · rintro ⟨hlen, hs, hlayout⟩
        exact ⟨sample, hs, Outcome.bind_eq_ok.2 ⟨samples, (ih hrest).2 ⟨hlen, hlayout⟩, rfl⟩⟩

/-! ### Messages -/

private theorem orReject_eq_ok_iff {α : Type} {x : Option α} {a : α} : orReject x = .ok a ↔ x = some a := by
  cases x with
  | none => exact ⟨nofun, nofun⟩
  | some b => rw [orReject, Outcome.ok.injEq, Option.some.injEq]

private theorem toNat_ofNat {n : Nat} (h : n ≤ 255) : (UInt8.ofNat n).toNat = n :=
  UInt8.toNat_ofNat_of_lt' (by show n < 256; omega)

private theorem toNat_le (b : UInt8) : b.toNat ≤ 255 := by
  have hlt : b.toNat < 256 := b.toNat_lt
  omega

/-- The length byte at offset `o`. -/
private def countAt (p : List UInt8) (o : Nat) : Nat := (ofLe (portion p o 1) : UInt8).toNat

private theorem toNat_eq_countAt (p : List UInt8) (o : Nat) : (ofLe (portion p o 1) : UInt8).toNat = countAt p o := rfl

private theorem countAt_le (p : List UInt8) (o : Nat) : countAt p o ≤ 255 := toNat_le _

private theorem portion_count {p : List UInt8} {o : Nat} (h : o < p.length) :
    [UInt8.ofNat (countAt p o)] = portion p o 1 := by
  rw [countAt, UInt8.ofNat_toNat, portion_one h, ofLe_singleton]

theorem kindFromWire_eq_some_iff {b : UInt8} {kind : DeviceKind} :
    kindFromWire b = some kind ↔ kindByte kind = some b := by
  constructor
  · intro h
    unfold kindFromWire at h
    split at h <;> cases h <;> rfl
  · intro h
    cases kind <;> cases h <;> rfl

/-- The clock is read from the eight bytes behind the name, if they are there. -/
private theorem parseClock_bind {α : Type} {p : List UInt8} {o : Nat} (f : Option UInt64 → Outcome Unit α)
    (h : o ≤ p.length) :
    (do let tail ← slice p o p.length; let ts ← parseClock tail; f ts) =
      f (if o + 8 ≤ p.length then some (ofLe (portion p o 8)) else none) := by
  have hend : o + (p.length - o) = p.length := by omega
  have hslice : (slice p o p.length : Outcome Unit (List UInt8)) = .ok (portion p o (p.length - o)) := by
    have hs : (slice p o (o + (p.length - o)) : Outcome Unit (List UInt8)) = .ok (portion p o (p.length - o)) :=
      slice_eq (by omega)
    rwa [hend] at hs
  have hlen : (portion p o (p.length - o)).length = p.length - o := length_portion (by omega)
  rw [hslice, Outcome.ok_bind, parseClock]
  by_cases h8 : o + 8 ≤ p.length
  · rw [if_pos (by omega), if_pos h8, slice_eq (by omega : 0 + 8 ≤ _), Outcome.ok_bind, Outcome.pure_eq,
      Outcome.ok_bind, portion_portion (by omega), Nat.add_zero]
  · rw [if_neg (by omega), if_neg h8, Outcome.ok_bind]

/-- What a hello is read as. -/
private theorem parseHello_eq_ok_iff {p : List UInt8} {m : RemoteMsg} :
    parseHello p = .ok m ↔ ∃ (uuid : Vector UInt8 16) (name : String), 17 + countAt p 16 ≤ p.length ∧
      portion p 0 16 = uuid.toList ∧ portion p 17 (countAt p 16) = utf8 name ∧
      m = .hello uuid name
        (if 17 + countAt p 16 + 8 ≤ p.length then some (ofLe (portion p (17 + countAt p 16) 8)) else none) := by
  rw [parseHello, ensure_bind_eq_ok]
  constructor
  · rintro ⟨h17, h⟩
    rw [slice_eq (by omega : 0 + 16 ≤ p.length), Outcome.ok_bind, Outcome.bind_eq_ok] at h
    obtain ⟨uuid, huuid, h⟩ := h
    rw [byteAt_eq_word (by omega), Outcome.ok_bind, toNat_eq_countAt, ensure_bind_eq_ok] at h
    obtain ⟨hn, h⟩ := h
    rw [slice_eq hn, Outcome.ok_bind, Outcome.bind_eq_ok] at h
    obtain ⟨name, hname, h⟩ := h
    rw [orReject_eq_ok_iff, ofUtf8?_eq_some_iff] at hname
    rw [parseClock_bind _ hn, Outcome.pure_eq, Outcome.ok.injEq] at h
    exact ⟨uuid, name, hn, copyFromSlice_eq_ok_iff.1 huuid, hname, h.symm⟩
  · rintro ⟨uuid, name, hn, huuid, hname, rfl⟩
    refine ⟨by omega, ?_⟩
    rw [slice_eq (by omega : 0 + 16 ≤ p.length), Outcome.ok_bind, copyFromSlice_eq_ok_iff.2 huuid, Outcome.ok_bind,
      byteAt_eq_word (by omega), Outcome.ok_bind, toNat_eq_countAt, ensure_bind_eq_ok]
    refine ⟨hn, ?_⟩
    rw [slice_eq hn, Outcome.ok_bind, orReject_eq_ok_iff.2 (ofUtf8?_eq_some_iff.2 hname), Outcome.ok_bind,
      parseClock_bind _ hn, Outcome.pure_eq]

/-- A hello is accepted exactly when its layout stands in front of what may follow it. -/
private theorem parseHello_iff {p : List UInt8} {m : RemoteMsg} :
    parseHello p = .ok m ↔ ∃ e t, p = e ++ t ∧ Layout 0x01 m e ∧ Trailing m t := by
  rw [parseHello_eq_ok_iff]
  constructor
  · rintro ⟨uuid, name, hn, huuid, hname, rfl⟩
    have hle := countAt_le p 16
    have hlen : (utf8 name).length = countAt p 16 := by rw [← hname, length_portion hn]
    have hhead : uuid.toList ++ UInt8.ofNat (utf8 name).length :: utf8 name = portion p 0 (17 + countAt p 16) := by
      rw [hlen, ← List.singleton_append, portion_count (by omega), ← huuid, ← hname]
      have hsplit : 17 + countAt p 16 = 16 + (1 + countAt p 16) := by omega
      rw [hsplit, portion_add, portion_add]
    by_cases h8 : 17 + countAt p 16 + 8 ≤ p.length
    · rw [if_pos h8]
      refine ⟨_, p.drop (17 + countAt p 16 + 8), ?_, .helloClock uuid (by omega) _, nofun⟩
      have hts : toLe (ofLe (portion p (17 + countAt p 16) 8) : UInt64) = portion p (17 + countAt p 16) 8 :=
        toLe_ofLe_portion h8
      rw [hts, ← List.cons_append, ← List.append_assoc, hhead]
      have hsplit : portion p 0 (17 + countAt p 16) ++ portion p (17 + countAt p 16) 8 =
          portion p 0 (17 + countAt p 16 + 8) := by
        rw [portion_add _ (17 + countAt p 16), Nat.zero_add]
      rw [hsplit]
      exact eq_portion_append _
    · rw [if_neg h8]
      refine ⟨_, p.drop (17 + countAt p 16), ?_, .hello uuid (by omega), ?_⟩
      · rw [hhead]
        exact eq_portion_append _
      · rintro uuid' name' -
        rw [List.length_drop]
        omega
  · rintro ⟨e, t, rfl, hlayout, htrail⟩
    cases hlayout with
    | @hello uuid name hname =>
      have hcount := toNat_ofNat hname
      have hat : countAt (uuid.toList ++ UInt8.ofNat (utf8 name).length :: utf8 name ++ t) 16 = (utf8 name).length := by
        simp [countAt, hcount]
      rw [hat]
      refine ⟨uuid, name, ?_, ?_, ?_, ?_⟩
      · simp only [List.length_append, List.length_cons, Vector.length_toList]
        omega
      · simp
      · simp
      · have ht := htrail uuid name rfl
        have hshort : ¬ 17 + (utf8 name).length + 8 ≤
            (uuid.toList ++ UInt8.ofNat (utf8 name).length :: utf8 name ++ t).length := by
          simp only [List.length_append, List.length_cons, Vector.length_toList]
          omega
        rw [if_neg hshort]
    | @helloClock uuid name hname ts =>
      have hcount := toNat_ofNat hname
      have hat : countAt (uuid.toList ++ UInt8.ofNat (utf8 name).length :: (utf8 name ++ toLe ts) ++ t) 16 =
          (utf8 name).length := by
        simp [countAt, hcount]
      rw [hat]
      have hlen : (uuid.toList ++ UInt8.ofNat (utf8 name).length :: (utf8 name ++ toLe ts) ++ t).length =
          17 + (utf8 name).length + 8 + t.length := by
        simp only [List.length_append, List.length_cons, Vector.length_toList, length_toLe, width_uInt64]
        omega
      refine ⟨uuid, name, ?_, ?_, ?_, ?_⟩
      · omega
      · simp
      · simp
      · have hoff : 17 + (utf8 name).length - 16 = (utf8 name).length + 1 := by omega
        have hge : 16 ≤ 17 + (utf8 name).length := by omega
        rw [if_pos (by omega)]
        simp [hoff, hge]

/-- What an announcement is read as. -/
private theorem parseAnnounce_eq_ok_iff {p : List UInt8} {m : RemoteMsg} :
    parseAnnounce p = .ok m ↔ ∃ a : Announce, 15 + countAt p 14 ≤ p.length ∧ ofLe (portion p 0 2) = a.handle ∧
      kindByte a.kind = some (ofLe (portion p 2 1)) ∧ portion p 3 6 = a.mac.toList ∧
      a.hasMag = ((ofLe (portion p 9 1) : UInt8) != 0) ∧ a.hasBattery = ((ofLe (portion p 10 1) : UInt8) != 0) ∧
      a.hasRumble = ((ofLe (portion p 11 1) : UInt8) != 0) ∧ ofLe (portion p 12 2) = a.rateHz ∧
      portion p 15 (countAt p 14) = utf8 a.name ∧ m = .announce a := by
  rw [parseAnnounce, ensure_bind_eq_ok]
  constructor
  · rintro ⟨h15, h⟩
    rw [leWord_eq (by rw [width_uInt16]; omega), Outcome.ok_bind, byteAt_eq_word (by omega), Outcome.ok_bind,
      Outcome.bind_eq_ok] at h
    obtain ⟨kind, hkind, h⟩ := h
    rw [slice_eq (by omega : 3 + 6 ≤ p.length), Outcome.ok_bind, Outcome.bind_eq_ok] at h
    obtain ⟨mac, hmac, h⟩ := h
    rw [byteAt_eq_word (by omega), Outcome.ok_bind, toNat_eq_countAt, ensure_bind_eq_ok] at h
    obtain ⟨hn, h⟩ := h
    rw [slice_eq hn, Outcome.ok_bind, Outcome.bind_eq_ok] at h
    obtain ⟨name, hname, h⟩ := h
    rw [byteAt_eq_word (by omega), Outcome.ok_bind, byteAt_eq_word (by omega), Outcome.ok_bind,
      byteAt_eq_word (by omega), Outcome.ok_bind, leWord_eq (by rw [width_uInt16]; omega), Outcome.ok_bind,
      Outcome.pure_eq, Outcome.ok.injEq] at h
    rw [orReject_eq_ok_iff, kindFromWire_eq_some_iff] at hkind
    rw [orReject_eq_ok_iff, ofUtf8?_eq_some_iff] at hname
    exact ⟨_, hn, rfl, hkind, copyFromSlice_eq_ok_iff.1 hmac, rfl, rfl, rfl, rfl, hname, h.symm⟩
  · rintro ⟨a, hn, hhandle, hkind, hmac, hmag, hbattery, hrumble, hrate, hname, rfl⟩
    refine ⟨by omega, ?_⟩
    rw [leWord_eq (by rw [width_uInt16]; omega), Outcome.ok_bind, byteAt_eq_word (by omega), Outcome.ok_bind,
      orReject_eq_ok_iff.2 (kindFromWire_eq_some_iff.2 hkind), Outcome.ok_bind,
      slice_eq (by omega : 3 + 6 ≤ p.length), Outcome.ok_bind, copyFromSlice_eq_ok_iff.2 hmac, Outcome.ok_bind,
      byteAt_eq_word (by omega), Outcome.ok_bind, toNat_eq_countAt, ensure_bind_eq_ok]
    refine ⟨hn, ?_⟩
    rw [slice_eq hn, Outcome.ok_bind, orReject_eq_ok_iff.2 (ofUtf8?_eq_some_iff.2 hname), Outcome.ok_bind,
      byteAt_eq_word (by omega), Outcome.ok_bind, byteAt_eq_word (by omega), Outcome.ok_bind,
      byteAt_eq_word (by omega), Outcome.ok_bind, leWord_eq (by rw [width_uInt16]; omega), Outcome.ok_bind,
      Outcome.pure_eq, width_uInt16, hhandle, hrate, ← hmag, ← hbattery, ← hrumble]

private theorem parseAnnounce_iff {p : List UInt8} {m : RemoteMsg} :
    parseAnnounce p = .ok m ↔ ∃ e t, p = e ++ t ∧ Layout 0x03 m e ∧ Trailing m t := by
  rw [parseAnnounce_eq_ok_iff]
  constructor
  · rintro ⟨a, hn, hhandle, hkind, hmac, hmag, hbattery, hrumble, hrate, hname, rfl⟩
    have hle := countAt_le p 14
    have hlen : (utf8 a.name).length = countAt p 14 := by rw [← hname, length_portion hn]
    refine ⟨_, p.drop (15 + countAt p 14), ?_, .announce a hkind hmag hbattery hrumble (by omega), nofun⟩
    have hword : toLe a.handle = portion p 0 2 := by
      rw [← hhandle]
      exact toLe_ofLe_portion (by rw [width_uInt16]; omega)
    have hrate' : toLe a.rateHz = portion p 12 2 := by
      rw [← hrate]
      exact toLe_ofLe_portion (by rw [width_uInt16]; omega)
    have hbyte : ∀ o < p.length, ∀ x, (ofLe (portion p o 1) : UInt8) :: x = portion p o 1 ++ x := by
      intro o ho x
      rw [portion_one ho, ofLe_singleton, List.singleton_append]
    have hsplit : 15 + countAt p 14 = 2 + (1 + (6 + (1 + (1 + (1 + (2 + (1 + countAt p 14))))))) := by omega
    have hhead : portion p 0 (15 + countAt p 14) = toLe a.handle ++ (ofLe (portion p 2 1) : UInt8) ::
        (a.mac.toList ++ (ofLe (portion p 9 1) : UInt8) :: (ofLe (portion p 10 1) : UInt8) ::
          (ofLe (portion p 11 1) : UInt8) :: (toLe a.rateHz ++ UInt8.ofNat (utf8 a.name).length :: utf8 a.name)) := by
      rw [hsplit, portion_add, portion_add, portion_add, portion_add, portion_add, portion_add, portion_add,
        portion_add,
        hbyte 2 (by omega), hbyte 9 (by omega), hbyte 10 (by omega), hbyte 11 (by omega), hword, hrate', hlen,
        ← List.singleton_append (x := UInt8.ofNat _), portion_count (by omega), ← hmac, ← hname]
    rw [← hhead]
    exact eq_portion_append _
  · rintro ⟨e, t, rfl, hlayout, -⟩
    cases hlayout with
    | @announce a kind hasMag hasBattery hasRumble hkind hmag hbattery hrumble hname =>
      have hcount := toNat_ofNat hname
      have hat : countAt (toLe a.handle ++ kind :: (a.mac.toList ++ hasMag :: hasBattery :: hasRumble ::
          (toLe a.rateHz ++ UInt8.ofNat (utf8 a.name).length :: utf8 a.name)) ++ t) 14 = (utf8 a.name).length := by
        simp [countAt, hcount]
      rw [hat]
      refine ⟨a, ?_, ?_, ?_, ?_, ?_, ?_, ?_, ?_, ?_, rfl⟩
      · simp only [List.length_append, List.length_cons, Vector.length_toList, length_toLe, width_uInt16]
        omega
      · simp
      · simp [hkind]
      · simp
      · simp [hmag]
      · simp [hbattery]
      · simp [hrumble]
      · simp
      · simp

private theorem parseRemove_iff {p : List UInt8} {m : RemoteMsg} :
    parseRemove p = .ok m ↔ ∃ e t, p = e ++ t ∧ Layout 0x04 m e ∧ Trailing m t := by
  rw [parseRemove, ensure_bind_eq_ok]
  constructor
  · rintro ⟨h2, h⟩
    rw [leWord_eq h2, Outcome.ok_bind, Outcome.pure_eq, Outcome.ok.injEq] at h
    subst h
    refine ⟨_, p.drop 2, ?_, .remove _, nofun⟩
    rw [toLe_ofLe_portion h2]
    exact eq_portion_append _
  · rintro ⟨e, t, rfl, hlayout, -⟩
    cases hlayout with
    | remove handle =>
      have hlen : 0 + Word.width UInt16 ≤ (toLe handle ++ t).length := by simp
      refine ⟨by simp, ?_⟩
      rw [leWord_eq hlen, Outcome.ok_bind, Outcome.pure_eq]
      simp

private theorem parseBattery_iff {p : List UInt8} {m : RemoteMsg} :
    parseBattery p = .ok m ↔ ∃ e t, p = e ++ t ∧ Layout 0x06 m e ∧ Trailing m t := by
  rw [parseBattery, ensure_bind_eq_ok]
  constructor
  · rintro ⟨h7, h⟩
    have hhandle : 0 + Word.width UInt16 ≤ p.length := by rw [width_uInt16]; omega
    have hfraction : 2 + Word.width F32 ≤ p.length := by rw [F32.width_f32]; omega
    rw [leWord_eq hhandle, Outcome.ok_bind, leWord_eq hfraction, Outcome.ok_bind, byteAt_eq_word (by omega),
      Outcome.ok_bind, Outcome.pure_eq, Outcome.ok.injEq] at h
    subst h
    refine ⟨_, p.drop 7, ?_, .battery _ _ _, nofun⟩
    have hflag : [(ofLe (portion p 6 1) : UInt8)] = portion p 6 1 := by
      rw [portion_one (by omega), ofLe_singleton]
    have hhead : portion p 0 7 = portion p 0 2 ++ (portion p 2 4 ++ portion p 6 1) := by
      rw [show 7 = 2 + (4 + 1) from rfl, portion_add, portion_add]
    rw [toLe_ofLe_portion hhandle, toLe_ofLe_portion hfraction, hflag, width_uInt16, F32.width_f32, ← hhead]
    exact eq_portion_append _
  · rintro ⟨e, t, rfl, hlayout, -⟩
    cases hlayout with
    | battery handle fraction charging =>
      have hlen : (toLe handle ++ (toLe fraction ++ [charging]) ++ t).length = 7 + t.length := by
        simp only [List.length_append, length_toLe, width_uInt16, F32.width_f32, List.length_singleton]
      refine ⟨by omega, ?_⟩
      rw [leWord_eq (by rw [width_uInt16]; omega), Outcome.ok_bind, leWord_eq (by rw [F32.width_f32]; omega),
        Outcome.ok_bind, byteAt_eq_word (by omega), Outcome.ok_bind, Outcome.pure_eq]
      simp

private theorem parseButton_iff {p : List UInt8} {m : RemoteMsg} :
    parseButton p = .ok m ↔ ∃ e t, p = e ++ t ∧ Layout 0x07 m e ∧ Trailing m t := by
  rw [parseButton, ensure_bind_eq_ok]
  constructor
  · rintro ⟨h3, h⟩
    have hhandle : 0 + Word.width UInt16 ≤ p.length := by rw [width_uInt16]; omega
    rw [byteAt_eq_word (by omega), Outcome.ok_bind, leWord_eq hhandle, Outcome.ok_bind, Outcome.pure_eq,
      Outcome.ok.injEq] at h
    subst h
    have hreset : [(ofLe (portion p 2 1) : UInt8)] = portion p 2 1 := by
      rw [portion_one (by omega), ofLe_singleton]
    have hp : p = toLe (ofLe (portion p 0 2) : UInt16) ++ [ofLe (portion p 2 1)] ++ p.drop 3 := by
      have hword : toLe (ofLe (portion p 0 2) : UInt16) = portion p 0 2 := toLe_ofLe_portion hhandle
      have hhead : portion p 0 3 = portion p 0 2 ++ portion p 2 1 := by
        rw [show 3 = 2 + 1 from rfl, portion_add]
      rw [hword, hreset, ← hhead]
      exact eq_portion_append _
    refine ⟨_, p.drop 3, hp, ?_, nofun⟩
    by_cases hzero : (ofLe (portion p 2 1) : UInt8) = 0
    · rw [if_pos hzero, hzero]
      exact .yaw _
    · rw [if_neg hzero]
      exact .full _ hzero
  · rintro ⟨e, t, rfl, hlayout, -⟩
    cases hlayout with
    | yaw handle =>
      have hlen : (toLe handle ++ [0] ++ t).length = 3 + t.length := by
        simp only [List.length_append, length_toLe, width_uInt16, List.length_singleton]
      refine ⟨by omega, ?_⟩
      rw [byteAt_eq_word (by omega), Outcome.ok_bind, leWord_eq (by rw [width_uInt16]; omega), Outcome.ok_bind,
        Outcome.pure_eq]
      simp
    | @full handle reset h =>
      have hlen : (toLe handle ++ [reset] ++ t).length = 3 + t.length := by
        simp only [List.length_append, length_toLe, width_uInt16, List.length_singleton]
      refine ⟨by omega, ?_⟩
      rw [byteAt_eq_word (by omega), Outcome.ok_bind, leWord_eq (by rw [width_uInt16]; omega), Outcome.ok_bind,
        Outcome.pure_eq]
      simp [h]

/-- What a sample burst is read as. -/
private theorem parseImuSamples_eq_ok_iff {p : List UInt8} {extra : Nat} {handle : UInt16}
    {samples : List ImuSampleBits} :
    parseImuSamples p extra = .ok (handle, samples) ↔
      3 + extra + countAt p (2 + extra) * SAMPLE_LEN ≤ p.length ∧ ofLe (portion p 0 2) = handle ∧
        samples.length = countAt p (2 + extra) ∧
        SamplesLayout samples (portion p (3 + extra) (countAt p (2 + extra) * SAMPLE_LEN)) := by
  rw [parseImuSamples, ensure_bind_eq_ok]
  constructor
  · rintro ⟨h3, h⟩
    rw [leWord_eq (by rw [width_uInt16]; omega), Outcome.ok_bind, byteAt_eq_word (by omega), Outcome.ok_bind,
      toNat_eq_countAt, ensure_bind_eq_ok] at h
    obtain ⟨hfit, h⟩ := h
    obtain ⟨ss, hss, h⟩ := Outcome.bind_eq_ok.1 h
    simp only [Outcome.pure_eq, Outcome.ok.injEq, Prod.mk.injEq] at h
    obtain ⟨rfl, rfl⟩ := h
    obtain ⟨hlen, hlayout⟩ := (parseSamples_eq_ok_iff hfit).1 hss
    exact ⟨hfit, rfl, hlen, hlayout⟩
  · rintro ⟨hfit, rfl, hlen, hlayout⟩
    refine ⟨by omega, ?_⟩
    rw [leWord_eq (by rw [width_uInt16]; omega), Outcome.ok_bind, byteAt_eq_word (by omega), Outcome.ok_bind,
      toNat_eq_countAt, ensure_bind_eq_ok]
    exact ⟨hfit, Outcome.bind_eq_ok.2 ⟨samples, (parseSamples_eq_ok_iff hfit).2 ⟨hlen, hlayout⟩, rfl⟩⟩

private theorem parseImu_iff {p : List UInt8} {m : RemoteMsg} :
    parseImu p = .ok m ↔ ∃ e t, p = e ++ t ∧ Layout 0x05 m e ∧ Trailing m t := by
  rw [parseImu, Outcome.bind_eq_ok]
  constructor
  · rintro ⟨⟨handle, samples⟩, hs, h⟩
    simp only [Outcome.pure_eq, Outcome.ok.injEq] at h
    subst h
    obtain ⟨hfit, hhandle, hlen, hlayout⟩ := parseImuSamples_eq_ok_iff.1 hs
    have hle := countAt_le p (2 + 0)
    refine ⟨_, p.drop (3 + countAt p 2 * SAMPLE_LEN), ?_, .imu handle (by omega) hlayout, nofun⟩
    have hword : toLe handle = portion p 0 2 := by
      rw [← hhandle]
      exact toLe_ofLe_portion (by rw [width_uInt16]; omega)
    have hhead : portion p 0 (3 + countAt p 2 * SAMPLE_LEN) =
        portion p 0 2 ++ (portion p 2 1 ++ portion p 3 (countAt p 2 * SAMPLE_LEN)) := by
      rw [show 3 + countAt p 2 * SAMPLE_LEN = 2 + (1 + countAt p 2 * SAMPLE_LEN) by omega, portion_add, portion_add]
    have hcount : samples.length = countAt p 2 := hlen
    rw [hword, hcount, ← List.singleton_append (x := UInt8.ofNat _), portion_count (by omega)]
    exact (eq_portion_append _).trans (congrArg (· ++ _) hhead)
  · rintro ⟨e, t, rfl, hlayout, -⟩
    cases hlayout with
    | @imu handle samples x hcount hs =>
      have hn := toNat_ofNat hcount
      have hx := hs.length
      have hat : countAt (toLe handle ++ UInt8.ofNat samples.length :: x ++ t) 2 = samples.length := by
        simp [countAt, hn]
      refine ⟨(handle, samples), parseImuSamples_eq_ok_iff.2 ⟨?_, ?_, ?_, ?_⟩, rfl⟩
      · rw [hat]
        simp only [List.length_append, List.length_cons, length_toLe, width_uInt16]
        omega
      · simp
      · exact hat.symm
      · rw [hat, ← hx]
        simpa using hs

private theorem parseImu2_iff {p : List UInt8} {m : RemoteMsg} :
    parseImu2 p = .ok m ↔ ∃ e t, p = e ++ t ∧ Layout 0x09 m e ∧ Trailing m t := by
  rw [parseImu2, ensure_bind_eq_ok]
  constructor
  · rintro ⟨h5, h⟩
    have hseq : 2 + Word.width UInt16 ≤ p.length := by rw [width_uInt16]; omega
    rw [leWord_eq hseq, Outcome.ok_bind, Outcome.bind_eq_ok] at h
    obtain ⟨⟨handle, samples⟩, hs, h⟩ := h
    simp only [Outcome.pure_eq, Outcome.ok.injEq] at h
    subst h
    obtain ⟨hfit, hhandle, hlen, hlayout⟩ := parseImuSamples_eq_ok_iff.1 hs
    have hle := countAt_le p (2 + 2)
    refine ⟨_, p.drop (5 + countAt p 4 * SAMPLE_LEN), ?_, .imu2 handle _ (by omega) hlayout, nofun⟩
    have hword : toLe handle = portion p 0 2 := by
      rw [← hhandle]
      exact toLe_ofLe_portion (by rw [width_uInt16]; omega)
    have hhead : portion p 0 (5 + countAt p 4 * SAMPLE_LEN) =
        portion p 0 2 ++ (portion p 2 2 ++ (portion p 4 1 ++ portion p 5 (countAt p 4 * SAMPLE_LEN))) := by
      rw [show 5 + countAt p 4 * SAMPLE_LEN = 2 + (2 + (1 + countAt p 4 * SAMPLE_LEN)) by omega, portion_add,
        portion_add, portion_add]
    have hcount : samples.length = countAt p 4 := hlen
    rw [toLe_ofLe_portion hseq, width_uInt16, hword, hcount, ← List.singleton_append (x := UInt8.ofNat _),
      portion_count (by omega)]
    exact (eq_portion_append _).trans (congrArg (· ++ _) hhead)
  · rintro ⟨e, t, rfl, hlayout, -⟩
    cases hlayout with
    | @imu2 handle seq samples x hcount hs =>
      have hn := toNat_ofNat hcount
      have hx := hs.length
      have hat : countAt (toLe handle ++ (toLe seq ++ UInt8.ofNat samples.length :: x) ++ t) 4 = samples.length := by
        simp [countAt, hn]
      have hlen : (toLe handle ++ (toLe seq ++ UInt8.ofNat samples.length :: x) ++ t).length =
          5 + x.length + t.length := by
        simp only [List.length_append, List.length_cons, length_toLe, width_uInt16]
        omega
      refine ⟨by omega, ?_⟩
      rw [leWord_eq (by rw [width_uInt16]; omega), Outcome.ok_bind]
      refine Outcome.bind_eq_ok.2 ⟨(handle, samples), parseImuSamples_eq_ok_iff.2 ⟨?_, ?_, ?_, ?_⟩, ?_⟩
      · rw [hat]
        omega
      · simp
      · exact hat.symm
      · rw [hat, ← hx]
        simpa using hs
      · simp

/-- Each arm accepts its own layout. -/
theorem parsePayload_eq_ok_iff {type : UInt8} {p : List UInt8} {m : RemoteMsg} :
    parsePayload type p = .ok m ↔ ∃ e t, p = e ++ t ∧ Layout type m e ∧ Trailing m t := by
  unfold parsePayload
  split
  · exact parseHello_iff
  · exact parseAnnounce_iff
  · exact parseRemove_iff
  · exact parseImu_iff
  · exact parseImu2_iff
  · exact parseBattery_iff
  · exact parseButton_iff
  · constructor
    · nofun
    · rintro ⟨e, t, -, hlayout, -⟩
      cases hlayout <;> contradiction

/-- Inside the envelope stands the payload for the arm of its type. -/
private theorem parse_envelope (type : UInt8) (p : List UInt8) : parse (envelope type p) = parsePayload type p := by
  have hlen : (envelope type p).length = 6 + p.length := by
    simp only [envelope, List.length_append, List.length_cons, List.length_nil]
  have hslice : (slice (envelope type p) HEADER_LEN (envelope type p).length : Outcome Unit (List UInt8)) = .ok p := by
    have hs : (slice (envelope type p) 6 (6 + p.length) : Outcome Unit (List UInt8)) =
        .ok (portion (envelope type p) 6 p.length) := slice_eq (by omega)
    rw [hlen]
    exact hs.trans (congrArg _ (portion_self rfl))
  have hmagic : portion (envelope type p) 0 4 = MAGIC := rfl
  have hversion : (ofLe (portion (envelope type p) 4 1) : UInt8) = VERSION := ofLe_singleton 1
  have htype : (ofLe (portion (envelope type p) 5 1) : UInt8) = type := ofLe_singleton type
  rw [parse, ensure, if_pos (by rw [hlen]; exact Nat.le_add_right _ _), Outcome.ok_bind,
    slice_eq (by omega : 0 + 4 ≤ (envelope type p).length), Outcome.ok_bind, ensure, if_pos hmagic, Outcome.ok_bind,
    byteAt_eq_word (by omega), Outcome.ok_bind, ensure, if_pos hversion, Outcome.ok_bind, byteAt_eq_word (by omega),
    Outcome.ok_bind, hslice, Outcome.ok_bind, htype]

/-- A datagram without the header is rejected. -/
private theorem parse_of_not_envelope {buf : List UInt8} (h : ∀ type p, buf ≠ envelope type p) :
    parse buf = .fail () := by
  rw [parse, ensure]
  by_cases h6 : HEADER_LEN ≤ buf.length
  · have hlen : 6 ≤ buf.length := h6
    rw [if_pos h6, Outcome.ok_bind, slice_eq (by omega : 0 + 4 ≤ buf.length), Outcome.ok_bind, ensure]
    by_cases hmagic : portion buf 0 4 = MAGIC
    · rw [if_pos hmagic, Outcome.ok_bind, byteAt_eq_word (by omega), Outcome.ok_bind, ensure]
      have hversion : (ofLe (portion buf 4 1) : UInt8) ≠ VERSION := by
        intro hversion
        have hbyte : ∀ o < buf.length, portion buf o 1 = [ofLe (portion buf o 1)] := by
          intro o ho
          rw [portion_one ho, ofLe_singleton]
        have hall : portion buf 0 (4 + (1 + (1 + (buf.length - 6)))) = buf := portion_self (by omega)
        rw [portion_add, portion_add, portion_add, hmagic, hbyte 4 (by omega), hversion, hbyte 5 (by omega)] at hall
        exact h _ _ hall.symm
      rw [if_neg hversion, Outcome.fail_bind]
    · rw [if_neg hmagic, Outcome.fail_bind]
  · rw [if_neg h6, Outcome.fail_bind]

/-- The header is checked, and the payload goes to the arm of its type. -/
private theorem parse_iff_payload {buf : List UInt8} {m : RemoteMsg} :
    parse buf = .ok m ↔ ∃ type p, buf = envelope type p ∧ parsePayload type p = .ok m := by
  constructor
  · intro h
    by_cases henv : ∃ type p, buf = envelope type p
    · obtain ⟨type, p, rfl⟩ := henv
      rw [parse_envelope] at h
      exact ⟨type, p, rfl, h⟩
    · have hfail := parse_of_not_envelope fun type p he => henv ⟨type, p, he⟩
      rw [hfail] at h
      cases h
  · rintro ⟨type, p, rfl, hp⟩
    rw [parse_envelope, hp]

/-- The datagrams that are accepted are those that start with the encoding of a message, and that message is read. -/
theorem parse_eq_ok_iff {buf : List UInt8} {m : RemoteMsg} :
    parse buf = .ok m ↔ ∃ e t, buf = e ++ t ∧ Encodes m e ∧ Trailing m t := by
  rw [parse_iff_payload]
  constructor
  · rintro ⟨type, p, rfl, hp⟩
    obtain ⟨e, t, rfl, hlayout, htrail⟩ := parsePayload_eq_ok_iff.1 hp
    refine ⟨envelope type e, t, ?_, ⟨type, e, hlayout, rfl⟩, htrail⟩
    rw [envelope, envelope, List.append_assoc]
  · rintro ⟨_, t, rfl, ⟨type, e, hlayout, rfl⟩, htrail⟩
    refine ⟨type, e ++ t, ?_, parsePayload_eq_ok_iff.2 ⟨e, t, rfl, hlayout, htrail⟩⟩
    rw [envelope, envelope, List.append_assoc]

/-! ### No index outside the datagram -/

private theorem orReject_ne_panic {α : Type} (x : Option α) : orReject x ≠ .panic := by
  cases x with
  | none => nofun
  | some a => nofun

private theorem parseSamples_ne_panic {p : List UInt8} {off n : Nat} (h : off + n * SAMPLE_LEN ≤ p.length) :
    parseSamples p off n ≠ .panic := by
  induction n generalizing off with
  | zero => nofun
  | succ n ih =>
    rw [Nat.succ_mul] at h
    have hfirst : off + SAMPLE_LEN ≤ p.length := by omega
    have hrest : off + SAMPLE_LEN + n * SAMPLE_LEN ≤ p.length := by omega
    rw [parseSamples, parseSample_eq hfirst, Outcome.ok_bind]
    exact Outcome.bind_ne_panic (ih hrest) fun _ _ => nofun

private theorem parseImuSamples_ne_panic (p : List UInt8) (extra : Nat) : parseImuSamples p extra ≠ .panic := by
  refine ensure_bind_ne_panic fun h3 => ?_
  rw [leWord_eq (by rw [width_uInt16]; omega), Outcome.ok_bind, byteAt_eq_word (by omega), Outcome.ok_bind]
  refine ensure_bind_ne_panic fun hfit => ?_
  exact Outcome.bind_ne_panic (parseSamples_ne_panic hfit) fun _ _ => nofun

private theorem parseHello_ne_panic (p : List UInt8) : parseHello p ≠ .panic := by
  refine ensure_bind_ne_panic fun h17 => ?_
  have huuid : (portion p 0 16).length = 16 := length_portion (by omega)
  rw [slice_eq (by omega : 0 + 16 ≤ p.length), Outcome.ok_bind, copyFromSlice_eq huuid, Outcome.ok_bind,
    byteAt_eq_word (by omega), Outcome.ok_bind]
  refine ensure_bind_ne_panic fun hn => ?_
  rw [slice_eq hn, Outcome.ok_bind]
  refine Outcome.bind_ne_panic (orReject_ne_panic _) fun name _ => ?_
  rw [parseClock_bind _ hn]
  nofun

private theorem parseAnnounce_ne_panic (p : List UInt8) : parseAnnounce p ≠ .panic := by
  refine ensure_bind_ne_panic fun h15 => ?_
  rw [leWord_eq (by rw [width_uInt16]; omega), Outcome.ok_bind, byteAt_eq_word (by omega), Outcome.ok_bind]
  refine Outcome.bind_ne_panic (orReject_ne_panic _) fun kind _ => ?_
  have hmac : (portion p 3 6).length = 6 := length_portion (by omega)
  rw [slice_eq (by omega : 3 + 6 ≤ p.length), Outcome.ok_bind, copyFromSlice_eq hmac, Outcome.ok_bind,
    byteAt_eq_word (by omega), Outcome.ok_bind]
  refine ensure_bind_ne_panic fun hn => ?_
  rw [slice_eq hn, Outcome.ok_bind]
  refine Outcome.bind_ne_panic (orReject_ne_panic _) fun name _ => ?_
  rw [byteAt_eq_word (by omega), Outcome.ok_bind, byteAt_eq_word (by omega), Outcome.ok_bind,
    byteAt_eq_word (by omega), Outcome.ok_bind, leWord_eq (by rw [width_uInt16]; omega)]
  nofun

private theorem parsePayload_ne_panic (type : UInt8) (p : List UInt8) : parsePayload type p ≠ .panic := by
  unfold parsePayload
  split
  · exact parseHello_ne_panic p
  · exact parseAnnounce_ne_panic p
  · refine ensure_bind_ne_panic fun h2 => ?_
    rw [leWord_eq h2]
    nofun
  · exact Outcome.bind_ne_panic (parseImuSamples_ne_panic p 0) fun _ _ => nofun
  · refine ensure_bind_ne_panic fun h5 => ?_
    rw [leWord_eq (by rw [width_uInt16]; omega), Outcome.ok_bind]
    exact Outcome.bind_ne_panic (parseImuSamples_ne_panic p 2) fun _ _ => nofun
  · refine ensure_bind_ne_panic fun h7 => ?_
    rw [leWord_eq (by rw [width_uInt16]; omega), Outcome.ok_bind, leWord_eq (by rw [F32.width_f32]; omega),
      Outcome.ok_bind, byteAt_eq_word (by omega)]
    nofun
  · refine ensure_bind_ne_panic fun h3 => ?_
    rw [byteAt_eq_word (by omega), Outcome.ok_bind, leWord_eq (by rw [width_uInt16]; omega)]
    nofun
  · nofun

/-- Every slice and every index is inside the datagram. -/
theorem parse_ne_panic (buf : List UInt8) : parse buf ≠ .panic := by
  by_cases henv : ∃ type p, buf = envelope type p
  · obtain ⟨type, p, rfl⟩ := henv
    rw [parse_envelope]
    exact parsePayload_ne_panic type p
  · rw [parse_of_not_envelope fun type p he => henv ⟨type, p, he⟩]
    nofun

/-- A datagram that does not start with the encoding of a message is rejected. -/
theorem parse_eq_fail_iff {buf : List UInt8} :
    parse buf = .fail () ↔ ¬ ∃ m e t, buf = e ++ t ∧ Encodes m e ∧ Trailing m t := by
  constructor
  · rintro hfail ⟨m, hm⟩
    rw [parse_eq_ok_iff.2 hm] at hfail
    cases hfail
  · intro hnone
    cases hparse : parse buf with
    | panic => exact absurd hparse (parse_ne_panic buf)
    | fail e => rfl
    | ok m => exact absurd ⟨m, parse_eq_ok_iff.1 hparse⟩ hnone

/-! ### The two forms of the sample message -/

/-- The sequence number that is put between the handle and the count changes nothing about the samples. -/
private theorem parseImuSamples_insert_seq (handle seq handle' : UInt16) (body : List UInt8)
    (samples : List ImuSampleBits) :
    parseImuSamples (toLe handle ++ (toLe seq ++ body)) 2 = .ok (handle', samples) ↔
      parseImuSamples (toLe handle ++ body) 0 = .ok (handle', samples) := by
  have hcount : countAt (toLe handle ++ (toLe seq ++ body)) (2 + 2) = countAt (toLe handle ++ body) (2 + 0) := by
    simp [countAt]
  have hhandle : portion (toLe handle ++ (toLe seq ++ body)) 0 2 = portion (toLe handle ++ body) 0 2 := by
    simp
  have hsamples : ∀ n, portion (toLe handle ++ (toLe seq ++ body)) (3 + 2) n =
      portion (toLe handle ++ body) (3 + 0) n := by
    intro n
    simp
  have hlen : (toLe handle ++ (toLe seq ++ body)).length = 2 + (toLe handle ++ body).length := by
    simp only [List.length_append, length_toLe, width_uInt16]
  rw [parseImuSamples_eq_ok_iff, parseImuSamples_eq_ok_iff, hcount, hhandle, hsamples, hlen]
  constructor
  · rintro ⟨hfit, h⟩
    exact ⟨by omega, h⟩
  · rintro ⟨hfit, h⟩
    exact ⟨by omega, h⟩

/-- The second form of a sample message is read as the first form with the same sample bytes, and its number. -/
theorem parse_imu2_iff {handle seq handle' : UInt16} {body : List UInt8} {samples : List ImuSampleBits} :
    parse (envelope MSG_IMU2 (toLe handle ++ (toLe seq ++ body))) = .ok (.imu handle' (some seq) samples) ↔
      parse (envelope MSG_IMU (toLe handle ++ body)) = .ok (.imu handle' none samples) := by
  have hseq : (leWord UInt16 (toLe handle ++ (toLe seq ++ body)) 2 : Outcome Unit UInt16) = .ok seq := by
    rw [leWord_eq (by simp only [List.length_append, length_toLe, width_uInt16]; omega)]
    simp
  have hlen : (toLe handle ++ (toLe seq ++ body)).length = 4 + body.length := by
    simp only [List.length_append, length_toLe, width_uInt16]
    omega
  rw [parse_envelope, parse_envelope]
  show parseImu2 _ = _ ↔ parseImu _ = _
  rw [parseImu2, ensure_bind_eq_ok, hseq, Outcome.ok_bind, Outcome.bind_eq_ok, parseImu, Outcome.bind_eq_ok]
  constructor
  · rintro ⟨-, ⟨h, ss⟩, hs, hm⟩
    simp only [Outcome.pure_eq, Outcome.ok.injEq, RemoteMsg.imu.injEq, true_and] at hm
    obtain ⟨rfl, rfl⟩ := hm
    exact ⟨_, (parseImuSamples_insert_seq handle seq h body ss).1 hs, rfl⟩
  · rintro ⟨⟨h, ss⟩, hs, hm⟩
    simp only [Outcome.pure_eq, Outcome.ok.injEq, RemoteMsg.imu.injEq, true_and] at hm
    obtain ⟨rfl, rfl⟩ := hm
    have hfit := (parseImuSamples_eq_ok_iff.1 hs).1
    have hshort : (toLe handle ++ body).length = 2 + body.length := by
      rw [List.length_append, length_toLe, width_uInt16]
    refine ⟨by omega, _, (parseImuSamples_insert_seq handle seq h body ss).2 hs, rfl⟩

/-! ### The parser and the grammar -/

private theorem exists_samplesLayout (samples : List ImuSampleBits) : ∃ x, SamplesLayout samples x := by
  induction samples with
  | nil => exact ⟨[], .nil⟩
  | cons sample samples ih =>
    obtain ⟨xs, hs⟩ := ih
    obtain ⟨gyro, accel, mag, ts⟩ := sample
    cases mag with
    | none => exact ⟨_, .cons (.withoutMag ts gyro accel gyro) hs⟩
    | some mag => exact ⟨_, .cons (@SampleLayout.withMag ts gyro accel mag 1 (by decide)) hs⟩

/-- A message has an encoding exactly when it fits. -/
theorem exists_encodes_iff {m : RemoteMsg} : (∃ e, Encodes m e) ↔ Fits m := by
  constructor
  · rintro ⟨e, type, payload, hlayout, -⟩
    cases hlayout with
    | hello uuid hname => exact hname
    | helloClock uuid hname ts => exact hname
    | announce a hkind hmag hbattery hrumble hname => exact ⟨hname, Option.isSome_iff_exists.2 ⟨_, hkind⟩⟩
    | imu handle hcount hs => exact hcount
    | imu2 handle seq hcount hs => exact hcount
    | yaw => exact .inl rfl
    | full => exact .inr rfl
    | remove | battery => trivial
  · intro h
    cases m with
    | hello uuid name ts =>
      cases ts with
      | none => exact ⟨_, _, _, .hello uuid h, rfl⟩
      | some ts => exact ⟨_, _, _, .helloClock uuid h ts, rfl⟩
    | announce a =>
      obtain ⟨kind, hkind⟩ := Option.isSome_iff_exists.1 h.2
      have hflag : ∀ b : Bool, b = ((if b then 1 else 0 : UInt8) != 0) := by decide
      exact ⟨_, _, _, .announce a hkind (hflag _) (hflag _) (hflag _) h.1, rfl⟩
    | remove handle => exact ⟨_, _, _, .remove handle, rfl⟩
    | imu handle seq samples =>
      obtain ⟨x, hs⟩ := exists_samplesLayout samples
      cases seq with
      | none => exact ⟨_, _, _, .imu handle h hs, rfl⟩
      | some seq => exact ⟨_, _, _, .imu2 handle seq h hs, rfl⟩
    | battery handle battery =>
      obtain ⟨fraction, charging⟩ := battery
      cases charging with
      | false => exact ⟨_, _, _, .battery handle fraction 0, rfl⟩
      | true => exact ⟨_, _, _, .battery handle fraction 1, rfl⟩
    | button handle reset =>
      obtain rfl | rfl := h
      · exact ⟨_, _, _, .yaw handle, rfl⟩
      · exact ⟨_, _, _, @Layout.full handle 1 (by decide), rfl⟩

/-- Every datagram is read as the grammar says: the message whose encoding it starts with, or none, and never with an
index outside the datagram; every message that fits has an encoding, and the two forms of the sample message agree. -/
theorem parse_grammar (buf : List UInt8) :
    (∀ m, (∃ e, Encodes m e) ↔ Fits m) ∧
      (∀ m, parse buf = .ok m ↔ ∃ e t, buf = e ++ t ∧ Encodes m e ∧ Trailing m t) ∧
      (parse buf = .fail () ↔ ¬ ∃ m e t, buf = e ++ t ∧ Encodes m e ∧ Trailing m t) ∧
      parse buf ≠ .panic ∧
      ∀ (handle seq handle' : UInt16) (samples : List ImuSampleBits),
        parse (envelope MSG_IMU2 (toLe handle ++ (toLe seq ++ buf))) = .ok (.imu handle' (some seq) samples) ↔
          parse (envelope MSG_IMU (toLe handle ++ buf)) = .ok (.imu handle' none samples) :=
  ⟨fun _ => exists_encodes_iff, fun _ => parse_eq_ok_iff, parse_eq_fail_iff, parse_ne_panic buf,
    fun _ _ _ _ => parse_imu2_iff⟩

end EverythingImu.Remote
