import EverythingImu.Devices.Sony
import EverythingImu.Library.Crc

/-!
# Output reports of the Sony controllers

The reports that set the motors and the LEDs of a DualSense or a DualShock 4 (`device-dualsense/src/device.rs`).  A
report that goes over Bluetooth ends in a checksum of the byte `0xA2` and the bytes before it; with the checksum
behind them these bytes always leave the same residue.
-/

namespace EverythingImu.Sony.DualSense

open Crc

/-- What the motors and the LEDs are set to. -/
structure OutputState where
  ledMask4bit : UInt8
  ledMask5bit : UInt8
  rumble : UInt8
deriving DecidableEq

/-! ### The checksum -/

/-- A shift of the register: the lowest bit as a mask over the polynomial. -/
def crc32Shift (crc : UInt32) : UInt32 := (crc >>> 1) ^^^ ((0 - (crc &&& 1)) &&& 0xEDB88320)

def crc32Update (crc : UInt32) (b : UInt8) : UInt32 :=
  (List.range 8).foldl (fun crc _ => crc32Shift crc) (crc ^^^ b.toUInt32)

def crc32WithSeed (seed : UInt8) (payload : List UInt8) : UInt32 :=
  ~~~ payload.foldl crc32Update (crc32Update 0xFFFFFFFF seed)

/-! ### The reports -/

/-- The number of LEDs to light. -/
def ledCount (mask : UInt8) : Nat := ((List.range 4).filter fun i => (mask &&& 0x0F).toBitVec.getLsbD i).length

def mapLedMaskToDualsense (mask : UInt8) : UInt8 :=
  match ledCount mask with
  | 0 => 0b00000
  | 1 => 0b00100
  | 2 => 0b01010
  | 3 => 0b10101
  | _ => 0b11111

def ds4LedRgbFromMask (mask : UInt8) : UInt8 × UInt8 × UInt8 :=
  match ledCount mask with
  | 0 => (0x00, 0x00, 0x00)
  | 1 => (0x00, 0x00, 0xFF)
  | 2 => (0x00, 0xFF, 0xFF)
  | 3 => (0xFF, 0x00, 0xFF)
  | _ => (0xFF, 0xFF, 0xFF)

def fillDs5Payload (payload : List UInt8) (state : OutputState) : List UInt8 :=
  let motor := state.rumble
  let (r, g, b) := ds4LedRgbFromMask state.ledMask4bit
  ((((((((payload.set 0 0xFF).set 1 0xF7).set 2 motor).set 3 motor).set 38 0).set 43 (state.ledMask5bit &&& 0x1F)).set
    44 r).set 45 g).set 46 b

/-- The checksum of the first 74 bytes, written behind them. -/
def appendCrc (report : List UInt8) : List UInt8 :=
  let crc := crc32WithSeed 0xA2 (report.take 74)
  (((report.set 74 (crc &&& 0xFF).toUInt8).set 75 ((crc >>> 8) &&& 0xFF).toUInt8).set 76
    ((crc >>> 16) &&& 0xFF).toUInt8).set 77 ((crc >>> 24) &&& 0xFF).toUInt8

def buildDs5UsbReport (state : OutputState) : List UInt8 :=
  let report := (List.replicate 48 0).set 0 0x02
  report.take 1 ++ fillDs5Payload (report.drop 1) state

def buildDs5BtReport (state : OutputState) : List UInt8 :=
  let report := ((List.replicate 78 0).set 0 0x31).set 1 0x02
  appendCrc (report.take 2 ++ fillDs5Payload (report.drop 2) state)

def buildDs4UsbReport (state : OutputState) : List UInt8 :=
  let motor := state.rumble
  let (r, g, b) := ds4LedRgbFromMask state.ledMask4bit
  (((((((List.replicate 32 0).set 0 0x05).set 1 0x07).set 4 motor).set 5 motor).set 6 r).set 7 g).set 8 b

def buildDs4BtReport (state : OutputState) : List UInt8 :=
  let motor := state.rumble
  let (r, g, b) := ds4LedRgbFromMask state.ledMask4bit
  appendCrc (((((((((List.replicate 78 0).set 0 0x11).set 1 0xC0).set 2 0x20).set 3 0x07).set 6 motor).set 7 motor).set
    8 r).set 9 g |>.set 10 b)

def buildOutputReport (kind : ControllerKind) (state : OutputState) (bt : Bool) : List UInt8 :=
  match kind with
  | .dualSense | .dualSenseEdge => if bt then buildDs5BtReport state else buildDs5UsbReport state
  | .dualShock4 => if bt then buildDs4BtReport state else buildDs4UsbReport state

/-! ### The checksum is the standard one -/

def CRC32_POLY : BitVec 32 := 0xEDB88320#32

/-- The bits of a message, those of a byte lowest first. -/
def messageBits (bytes : List UInt8) : List Bool := bytes.flatMap fun b => bitsOf b.toBitVec

theorem toBitVec_crc32Shift (crc : UInt32) : (crc32Shift crc).toBitVec = shift CRC32_POLY crc.toBitVec := by
  have hmask : 0#32 - (crc.toBitVec &&& 1#32) = if crc.toBitVec.getLsbD 0 then BitVec.allOnes 32 else 0#32 := by
    rw [BitVec.and_one_eq_setWidth_ofBool_getLsbD]
    cases crc.toBitVec.getLsbD 0 <;> rfl
  have h : (crc32Shift crc).toBitVec
      = (crc.toBitVec >>> 1) ^^^ ((0#32 - (crc.toBitVec &&& 1#32)) &&& CRC32_POLY) := rfl
  rw [h, hmask, shift]
  cases crc.toBitVec.getLsbD 0
  · simp
  · rw [if_pos rfl, if_pos rfl, BitVec.allOnes_and]

private theorem word_bitsOf_byte (b : UInt8) : word (bitsOf b.toBitVec) = b.toUInt32.toBitVec := by
  apply BitVec.eq_of_getLsbD_eq
  intro i hi
  rw [getLsbD_word _ i hi, UInt8.toBitVec_toUInt32, BitVec.getLsbD_setWidth]
  by_cases h : i < 8
  · simp [bitsOf, List.getD_eq_getElem?_getD, h, hi]
  · simp [bitsOf, List.getD_eq_getElem?_getD, BitVec.getLsbD_of_ge _ _ (not_lt.1 h), h]

theorem toBitVec_crc32Update (crc : UInt32) (b : UInt8) :
    (crc32Update crc b).toBitVec = run CRC32_POLY crc.toBitVec (bitsOf b.toBitVec) := by
  rw [← shifts_xor_word _ _ _ (by simp), word_bitsOf_byte, length_bitsOf, ← UInt32.toBitVec_xor]
  simp only [shifts, ← toBitVec_crc32Shift]
  rfl

theorem toBitVec_foldl_crc32Update (bytes : List UInt8) (crc : UInt32) :
    (bytes.foldl crc32Update crc).toBitVec = run CRC32_POLY crc.toBitVec (messageBits bytes) := by
  induction bytes generalizing crc with
  | nil => rfl
  | cons b bytes ih =>
    have hbits : messageBits (b :: bytes) = bitsOf b.toBitVec ++ messageBits bytes := List.flatMap_cons
    rw [List.foldl_cons, ih, toBitVec_crc32Update, hbits, run_append]

theorem toBitVec_crc32WithSeed (seed : UInt8) (payload : List UInt8) :
    (crc32WithSeed seed payload).toBitVec = crc CRC32_POLY (messageBits (seed :: payload)) := by
  rw [crc32WithSeed, ← List.foldl_cons, UInt32.toBitVec_not, toBitVec_foldl_crc32Update]
  rfl

/-- `crc.to_le_bytes()`. -/
def toLeBytes (v : UInt32) : List UInt8 :=
  [(v &&& 0xFF).toUInt8, ((v >>> 8) &&& 0xFF).toUInt8, ((v >>> 16) &&& 0xFF).toUInt8, ((v >>> 24) &&& 0xFF).toUInt8]

private theorem bitsOf_low_byte (v : BitVec 32) (k : Nat) :
    bitsOf ((v >>> k &&& 255#32).setWidth 8) = (List.range 8).map fun i => v.getLsbD (k + i) := by
  have h255 : ∀ i (h : i < 8), (255#8)[i] = true := by decide
  apply List.map_congr_left
  intro i hi
  have hi : i < 8 := by simpa using hi
  simp [h255 i hi, hi]

theorem messageBits_toLeBytes (v : UInt32) : messageBits (toLeBytes v) = bitsOf v.toBitVec := by
  have h : messageBits (toLeBytes v)
      = bitsOf ((v.toBitVec >>> 0 &&& 255#32).setWidth 8) ++ (bitsOf ((v.toBitVec >>> 8 &&& 255#32).setWidth 8)
        ++ (bitsOf ((v.toBitVec >>> 16 &&& 255#32).setWidth 8)
        ++ (bitsOf ((v.toBitVec >>> 24 &&& 255#32).setWidth 8) ++ []))) := rfl
  rw [h, bitsOf_low_byte, bitsOf_low_byte, bitsOf_low_byte, bitsOf_low_byte]
  rfl

def CRC32_RESIDUE : UInt32 := 0x2144DF1C

theorem residue_crc32 : residue CRC32_POLY = CRC32_RESIDUE.toBitVec := by decide +kernel

/-- A message with its checksum behind it leaves the residue. -/
theorem crc32WithSeed_append_toLeBytes (seed : UInt8) (body : List UInt8) :
    crc32WithSeed seed (body ++ toLeBytes (crc32WithSeed seed body)) = CRC32_RESIDUE := by
  apply UInt32.toBitVec_inj.1
  have hbits : messageBits (seed :: (body ++ toLeBytes (crc32WithSeed seed body)))
      = messageBits (seed :: body) ++ bitsOf (crc CRC32_POLY (messageBits (seed :: body))) := by
    rw [← toBitVec_crc32WithSeed, ← messageBits_toLeBytes, messageBits, messageBits, messageBits, ← List.cons_append,
      List.flatMap_append]
  rw [toBitVec_crc32WithSeed, hbits, crc_append_crc, residue_crc32]

theorem appendCrc_eq (report : List UInt8) (h : report.length = 78) :
    appendCrc report = report.take 74 ++ toLeBytes (crc32WithSeed 0xA2 (report.take 74)) := by
  have htail : (report.drop 74).length = 4 := by simp [h]
  unfold appendCrc
  generalize crc32WithSeed 0xA2 (report.take 74) = crc
  obtain ⟨a, b, c, d, hd⟩ : ∃ a b c d, report.drop 74 = [a, b, c, d] := by
    match report.drop 74, htail with
    | [a, b, c, d], _ => exact ⟨a, b, c, d, rfl⟩
  have hlen : (report.take 74).length = 74 := by simp [h]
  conv => lhs; rw [← List.take_append_drop 74 report, hd]
  simp [hlen, toLeBytes]

theorem length_fillDs5Payload (payload : List UInt8) (state : OutputState) :
    (fillDs5Payload payload state).length = payload.length := by
  simp [fillDs5Payload]

/-- The builder of the Bluetooth reports: the bytes before the checksum. -/
theorem exists_appendCrc (kind : ControllerKind) (state : OutputState) :
    ∃ report, report.length = 78 ∧ buildOutputReport kind state true = appendCrc report := by
  cases kind
  all_goals exact ⟨_, by simp [length_fillDs5Payload], rfl⟩

/-- The checksum is the polynomial one of the seed and the payload, and a report for Bluetooth, which ends in the
checksum of what is before it, leaves the residue behind the seed `0xA2`. -/
theorem crc32_standard (seed : UInt8) (payload : List UInt8) (kind : ControllerKind) (state : OutputState) :
    (crc32WithSeed seed payload).toBitVec = checksum CRC32_POLY (messageBits (seed :: payload)) ∧
      ((buildOutputReport kind state true).length = 78 ∧
        (buildOutputReport kind state true).drop 74
          = toLeBytes (crc32WithSeed 0xA2 ((buildOutputReport kind state true).take 74))) ∧
      crc32WithSeed 0xA2 (buildOutputReport kind state true) = CRC32_RESIDUE := by
  refine ⟨?_, ?_, ?_⟩
  · rw [toBitVec_crc32WithSeed, crc_eq_checksum (by decide)]
  · obtain ⟨report, hlen, hbuild⟩ := exists_appendCrc kind state
    rw [hbuild, appendCrc_eq report hlen]
    have htake : (report.take 74).length = 74 := by simp [hlen]
    simp [htake, toLeBytes]
  · obtain ⟨report, hlen, hbuild⟩ := exists_appendCrc kind state
    rw [hbuild, appendCrc_eq report hlen, crc32WithSeed_append_toLeBytes]

-- the check value of the standard, for the digits 1 to 9
example : crc32WithSeed 0x31 [0x32, 0x33, 0x34, 0x35, 0x36, 0x37, 0x38, 0x39] = 0xCBF43926 := by decide +kernel

end EverythingImu.Sony.DualSense
