import EverythingImu.DeviceTraits
import EverythingImu.Wii.Companion

/-!
# The bridge side of the Wii record

`parse_packet` (`factory.rs`) and the sample that `WiiDevice` makes of a packet (`device.rs`).  The bridge reads every
field of the record but the MotionPlus flag in byte 14, so a controller that streams no rates is given the rate of
three raw zeros.  The record and the device agree exactly on the slots that are empty, have a Nunchuk or stream
MotionPlus rates (`recordAgrees_buildRecord_iff`).
-/

namespace EverythingImu.Wii

open LittleEndian

def PACKET_LEN : Nat := 17

structure WiiPacket where
  accel : Vector Int16 3
  data : Vector Int16 3
  nunchukConnected : Bool
  batteryLevel : UInt8
  buttonUp : Bool
deriving DecidableEq

def parsePacket (buf : List UInt8) : Option (UInt8 × WiiPacket) :=
  if buf.length ≠ PACKET_LEN then none
  else
    let id := buf.getD 0 0
    if id = 0xFF then none
    else if id ≥ 4 then none
    else
      some (id,
        { accel := readI16x3 buf 1
          data := readI16x3 buf 7
          nunchukConnected := buf.getD 13 0 != 0
          batteryLevel := buf.getD 15 0
          buttonUp := buf.getD 16 0 != 0 })

/-- `i16::saturating_sub`. -/
def saturatingSub (a b : Int16) : Int16 := Int16.ofInt (max (-32768) (min 32767 (a.toInt - b.toInt)))

def G : Float32 := 9.80665
def ACCEL_ZERO_G : Float32 := 512.0
def ACCEL_LSB_PER_G : Float32 := 200.0
def GYRO_DPS_PER_LSB : Float32 := 0.07
def DEG_TO_RAD : Float32 := 3.14159265358979323846264338327950288 / 180.0

def accelG (raw : Int16) : Float32 := (Float32.ofInt raw.toInt - ACCEL_ZERO_G) / ACCEL_LSB_PER_G * G

/-- A raw angular rate in rad/s. -/
def gyroRad (raw : Int) : Float32 := Float32.ofInt raw * GYRO_DPS_PER_LSB * DEG_TO_RAD

def imuFromRaw (accelRaw gyroRaw : Vector Int16 3) (start now : Instant) : ImuSample where
  gyro := gyroRaw.map fun raw => gyroRad raw.toInt
  accel := accelRaw.map accelG
  mag := none
  timestampUs := UInt64.ofNat ((now - start) / 1000)

/-- The sample of one packet: the reader of `WiiDevice::start` takes the gyroscope from `data` only when no Nunchuk
is attached. -/
def imuOfPacket (pkt : WiiPacket) (start now : Instant) : ImuSample :=
  if pkt.nunchukConnected then imuFromRaw pkt.accel (.replicate 3 0) start now
  else imuFromRaw pkt.accel (pkt.data.map (saturatingSub · 8192)) start now

/-! ### Agreement of the two sides -/

def zeroRate : Vector Float32 3 := #v[0.0, 0.0, 0.0]

/-- The zero-offset-corrected MotionPlus reading in rad/s. -/
def Expansion.correctedRate : Expansion → Vector Float32 3
  | .motionPlus rates => rates.map fun r => gyroRad ((r.toNat : Int) - 8192)
  | _ => zeroRate

/-- The record of slot `i` gives back what the companion saw there, and the device that the bridge makes of it emits
the corrected rate when the MotionPlus flag of the record is set and the zero rate when it is clear. -/
def RecordAgrees (i : Fin 4) (pad : Pad) (record : List UInt8) : Prop :=
  match pad.sighted with
  | none => parsePacket record = none
  | some d => ∃ pkt, parsePacket record = some (UInt8.ofNat i.val, pkt) ∧
      pkt.accel = d.accel.map (·.toInt16) ∧
      pkt.data = d.exp.words ∧
      pkt.nunchukConnected = d.exp.isNunchuk ∧
      pkt.batteryLevel = d.batteryLevel ∧
      pkt.buttonUp = (d.button1 || d.button2) ∧
      ∀ start now, (imuOfPacket pkt start now).gyro =
        if record.getD 14 0 = 0 then zeroRate else d.exp.correctedRate

/-- Parsing a record gives back the fields it was written from. -/
theorem parsePacket_record (i : Fin 4) (accel data : Vector Int16 3) (nunchuk mp battery button : UInt8) :
    parsePacket ([UInt8.ofNat i.val] ++ putVector accel ++ putVector data ++ [nunchuk, mp, battery, button]) =
      some (UInt8.ofNat i.val, ⟨accel, data, nunchuk != 0, battery, button != 0⟩) := by
  have hid : UInt8.ofNat i.val ≠ 0xFF ∧ ¬ UInt8.ofNat i.val ≥ 4 := by
    revert i
    decide
  have hread : ∀ v : Vector Int16 3, #v[i16FromLe ((putI16 (v.toList.getD 0 0)).getD 0 0)
        ((putI16 (v.toList.getD 0 0)).getD 1 0),
      i16FromLe ((putI16 (v.toList.getD 1 0)).getD 0 0) ((putI16 (v.toList.getD 1 0)).getD 1 0),
      i16FromLe ((putI16 (v.toList.getD 2 0)).getD 0 0) ((putI16 (v.toList.getD 2 0)).getD 1 0)] = v := by
    intro v
    rw [i16FromLe_putI16, i16FromLe_putI16, i16FromLe_putI16]
    ext j hj
    have hj : j = 0 ∨ j = 1 ∨ j = 2 := by omega
    rcases hj with rfl | rfl | rfl <;> simp
  rw [putVector_eq, putVector_eq]
  unfold parsePacket
  rw [if_neg (by simp [putI16, PACKET_LEN])]
  show (if UInt8.ofNat i.val = 0xFF then none else if UInt8.ofNat i.val ≥ 4 then none else _) = _
  rw [if_neg hid.1, if_neg hid.2]
  congr 3
  · exact hread accel
  · exact hread data

/-- The corrected word of a 14-bit rate never saturates. -/
theorem saturatingSub_rateWord (r : BitVec 14) : (saturatingSub (rateWord r) 8192).toInt = (r.toNat : Int) - 8192 := by
  have hr : (rateWord r).toInt = r.toNat := by
    show (r.setWidth 16).toInt = r.toNat
    rw [BitVec.toInt_eq_toNat_of_lt] <;> simp only [BitVec.toNat_setWidth] <;> omega
  have h8192 : (8192 : Int16).toInt = 8192 := rfl
  unfold saturatingSub
  rw [hr, h8192, Int16.toInt_ofInt_of_le] <;> omega

section Rate

variable (d : WPADData) (nunchuk : Bool) (battery : UInt8) (button : Bool) (start now : Instant)

theorem imuOfPacket_streaming (accel : Vector Int16 3) {rates : Vector (BitVec 14) 3} :
    (imuOfPacket ⟨accel, (Expansion.motionPlus rates).words, false, battery, button⟩ start now).gyro =
      (Expansion.motionPlus rates).correctedRate := by
  simp only [imuOfPacket, Bool.false_eq_true, if_false, imuFromRaw, Expansion.words, Expansion.correctedRate,
    Vector.map_map]
  congr 1
  funext r
  simp only [Function.comp_apply, saturatingSub_rateWord]

/-- A Nunchuk has the zero rate. -/
theorem imuOfPacket_nunchuk (accel data : Vector Int16 3) :
    (imuOfPacket ⟨accel, data, true, battery, button⟩ start now).gyro = zeroRate := by
  show (Vector.replicate 3 (0 : Int16)).map (fun raw => gyroRad raw.toInt) = zeroRate
  decide +kernel

/-- Three raw zeros have a rate other than zero. -/
theorem imuOfPacket_noData (accel : Vector Int16 3) :
    (imuOfPacket ⟨accel, noData, false, battery, button⟩ start now).gyro ≠ zeroRate := by
  show (noData.map (saturatingSub · 8192)).map (fun raw => gyroRad raw.toInt) ≠ zeroRate
  decide +kernel

end Rate

/-- A controller without Nunchuk and without rates writes zeros as its data. -/
theorem words_of_silent {exp : Expansion} (hn : exp.isNunchuk = false) (hr : exp.streamsRates = false) :
    exp.words = noData := by
  cases exp with
  | none => rfl
  | other => rfl
  | nunchuk accel => cases hn
  | motionPlus rates =>
    have hz : rates = noRates := by simpa [Expansion.streamsRates] using hr
    rw [hz]
    exact words_eq_noData.2 rfl

private theorem flag_ne_zero (b : Bool) : ((if b then 1 else 0 : UInt8) != 0) = b := by
  cases b <;> decide

private theorem flag_eq_zero (b : Bool) : ((if b then 1 else 0 : UInt8) = 0) ↔ b = false := by
  cases b <;> decide

/-- The two sides agree on a slot exactly when it is empty, has a Nunchuk, or streams MotionPlus rates. -/
theorem recordAgrees_buildRecord_iff (i : Fin 4) (pad : Pad) (flags : SlotFlags) :
    RecordAgrees i pad (buildRecord i pad flags).1 ↔
      ∀ d, pad.sighted = some d → d.exp.isNunchuk = true ∨ d.exp.streamsRates = true := by
  unfold RecordAgrees
  cases hd : pad.sighted with
  | none =>
    rw [buildRecord_empty i flags hd]
    have hnone : parsePacket emptyRecord = none := by decide
    simp [hnone]
  | some d =>
    rw [buildRecord_sighted i flags hd]
    -- byte 14 of the record is the MotionPlus flag
    have hflag : ∀ a b c e f : UInt8, ([UInt8.ofNat i.val] ++ putVector (d.accel.map (·.toInt16)) ++
        putVector d.exp.words ++ [a, b, c, e]).getD 14 f = b := by
      rw [putVector_eq, putVector_eq]
      exact fun _ _ _ _ _ => rfl
    simp only [parsePacket_record, hflag, flag_ne_zero, flag_eq_zero, Option.some.injEq, Prod.mk.injEq, true_and,
      exists_eq_left', forall_eq']
    cases hr : d.exp.streamsRates with
    | true =>
      obtain ⟨rates, he⟩ : ∃ rates, d.exp = .motionPlus rates := by
        cases he : d.exp <;> simp_all [Expansion.streamsRates]
      have hn : (Expansion.motionPlus rates).isNunchuk = false := rfl
      simp [he, hn, imuOfPacket_streaming]
    | false =>
      cases hn : d.exp.isNunchuk with
      | true => simp [imuOfPacket_nunchuk]
      | false => simp [words_of_silent hn hr, imuOfPacket_noData]

/-- A controller at rest without an extension: the record says that there is no gyroscope, the device rotates. -/
theorem recordAgrees_without_extension :
    let pad : Pad := ⟨true, some ⟨#v[512, 512, 712], .none, false, false, 100⟩⟩
    let record := (buildRecord 0 pad SlotFlags.start).1
    ¬ RecordAgrees 0 pad record ∧ record.getD 14 0 = 0 ∧
      (parsePacket record).map (fun p => (imuOfPacket p.2 0 0).gyro) =
        some (Vector.replicate 3 (gyroRad (-8192))) ∧
      Vector.replicate 3 (gyroRad (-8192)) ≠ zeroRate := by
  have hgyro : (parsePacket (buildRecord 0 ⟨true, some ⟨#v[512, 512, 712], .none, false, false, 100⟩⟩
      SlotFlags.start).1).map (fun p => (imuOfPacket p.2 0 0).gyro) =
        some (Vector.replicate 3 (gyroRad (-8192))) := by decide +kernel
  have hne : Vector.replicate 3 (gyroRad (-8192)) ≠ zeroRate := by decide +kernel
  have hflag : (buildRecord 0 ⟨true, some ⟨#v[512, 512, 712], .none, false, false, 100⟩⟩
      SlotFlags.start).1.getD 14 0 = 0 := by decide +kernel
  refine ⟨?_, hflag, hgyro, hne⟩
  rintro ⟨pkt, hp, -, -, -, -, -, hrate⟩
  have h := hrate 0 0
  rw [hp] at hgyro
  simp only [Option.map_some, Option.some.injEq] at hgyro
  rw [hgyro, if_pos hflag] at h
  exact hne h

end EverythingImu.Wii
