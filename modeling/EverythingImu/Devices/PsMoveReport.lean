import EverythingImu.Devices.Sony
import EverythingImu.Library.Buffer
import EverythingImu.Library.FloatExact
import Mathlib

/-!
# The input report of PS Move

`LaidOut` says where a report has the counts of its two frames, of the magnetometer and of the battery; the other bytes
are free.  `parse_report` without a calibration gives the counts back (`parseReport_laidOut`).
-/

namespace EverythingImu.Sony.PsMove

open Buffer FloatRound LittleEndian

/-- The counts of a frame, in the order X-Y-Z. -/
structure FrameCounts where
  accel : Vector Int16 3
  gyro : Vector Int16 3

/-- A count as it is sent: above 0x8000 on ZCM1, two's complement on ZCM2. -/
def wireCount (kind : ControllerKind) (count : Int16) : Int16 :=
  match kind with
  | .zcm1 => Int16.ofInt (count.toInt + 0x8000)
  | .zcm2 => count

/-- A triple as it is sent, in the order X-Z-Y. -/
def wireTriple (kind : ControllerKind) (v : Vector Int16 3) : List UInt8 :=
  [wireCount kind v.x, wireCount kind v.z, wireCount kind v.y].flatMap putI16

/-- The bytes 38 to 42: X, Z and Y have 12 bits each, behind a free nibble. -/
structure MagAt (buf : List UInt8) (mag : Vector (BitVec 12) 3) : Prop where
  xHigh : (buf.getD 38 0).toNat % 16 = mag.x.toNat / 256
  xLow : (buf.getD 39 0).toNat = mag.x.toNat % 256
  zHigh : (buf.getD 40 0).toNat = mag.z.toNat / 16
  zLowYHigh : (buf.getD 41 0).toNat = mag.z.toNat % 16 * 16 + mag.y.toNat / 256
  yLow : (buf.getD 42 0).toNat = mag.y.toNat % 256

/-- The battery codes of the protocol. -/
inductive BatteryCode where
  | level (fifths : Fin 6)
  | charging
  | charged

def BatteryCode.byte : BatteryCode → UInt8
  | .level fifths => UInt8.ofNat fifths
  | .charging => 0xEE
  | .charged => 0xEF

/-- The documented meaning of a code. -/
def BatteryCode.state : BatteryCode → BatteryState
  | .level fifths => ⟨Float32.ofNat fifths / 5.0, false⟩
  | .charging => ⟨0.5, true⟩
  | .charged => ⟨1.0, true⟩

/-- The report carries the counts; all other bytes are free. -/
structure LaidOut (kind : ControllerKind) (buf : List UInt8) (a b : FrameCounts) (mag : Vector (BitVec 12) 3)
    (battery : BatteryCode) : Prop where
  long : 49 ≤ buf.length
  battery : buf[12]? = some battery.byte
  accelA : portion buf 13 6 = wireTriple kind a.accel
  accelB : portion buf 19 6 = wireTriple kind b.accel
  gyroA : portion buf 25 6 = wireTriple kind a.gyro
  gyroB : portion buf 31 6 = wireTriple kind b.gyro
  mag : kind = .zcm1 → MagAt buf mag

/-! ### Counts -/

theorem centered_wireCount (kind : ControllerKind) (count : Int16) :
    centered kind (wireCount kind count).toUInt16 = count.toInt := by
  have hlow := count.le_toInt
  have hhigh := count.toInt_lt
  cases kind with
  | zcm1 =>
    show ((Int16.ofInt (count.toInt + 0x8000)).toUInt16.toNat : Int) - 0x8000 = count.toInt
    have hnat : ((Int16.ofInt (count.toInt + 0x8000)).toUInt16.toNat : Int) = count.toInt + 0x8000 := by
      show ((BitVec.ofInt 16 (count.toInt + 0x8000)).toNat : Int) = _
      rw [BitVec.toNat_ofInt]
      omega
    rw [hnat]
    omega
  | zcm2 => rfl

theorem readU16Le_eq {buf : List UInt8} {o : Nat} (h : o + 2 ≤ buf.length) :
    readU16Le buf o = some (readI16 buf o).toUInt16 := by
  rw [readU16Le, if_pos h]
  rfl

theorem getD_portion {buf : List UInt8} {o n i : Nat} (h : i < n) :
    (portion buf o n).getD i 0 = buf.getD (o + i) 0 := by
  rw [List.getD_eq_getElem?_getD, List.getD_eq_getElem?_getD, portion, List.getElem?_take_of_lt h, List.getElem?_drop]

theorem readI16_portion {buf : List UInt8} {o n i : Nat} (h : i + 2 ≤ n) :
    readI16 (portion buf o n) i = readI16 buf (o + i) := by
  rw [readI16, readI16, getD_portion (by omega), getD_portion (by omega), Nat.add_assoc]

/-- A triple is read in the order X-Y-Z. -/
theorem rawTriple_eq {kind : ControllerKind} {buf : List UInt8} {ofs : Nat} {v : Vector Int16 3}
    (hlen : ofs + 6 ≤ buf.length) (h : portion buf ofs 6 = wireTriple kind v) :
    rawTriple kind buf ofs = some (v.map fun count => Float32.ofInt count.toInt) := by
  have hword (i : Nat) (hi : 2 * i + 2 ≤ 6) :
      readI16 buf (ofs + 2 * i) = [wireCount kind v.x, wireCount kind v.z, wireCount kind v.y].getD i 0 := by
    rw [← readI16_portion (o := ofs) (n := 6) hi, h, wireTriple, readI16_flatMap]
  have hx : readI16 buf ofs = wireCount kind v.x := hword 0 (by omega)
  have hz : readI16 buf (ofs + 2) = wireCount kind v.z := hword 1 (by omega)
  have hy : readI16 buf (ofs + 4) = wireCount kind v.y := hword 2 (by omega)
  rw [rawTriple, readU16Le_eq (by omega), readU16Le_eq (by omega), readU16Le_eq (by omega), hx, hz, hy]
  show some (deswizzle kind #v[Float32.ofInt (centered kind (wireCount kind v.x).toUInt16),
    Float32.ofInt (centered kind (wireCount kind v.z).toUInt16),
    Float32.ofInt (centered kind (wireCount kind v.y).toUInt16)]) = _
  rw [centered_wireCount, centered_wireCount, centered_wireCount,
    Vector.eq_coordinates (v.map fun count => Float32.ofInt count.toInt)]
  simp only [deswizzle, Vector.x, Vector.y, Vector.z, Vector.getElem_map]
  rfl

/-- The identity calibration leaves counts as they are. -/
theorem correct_identity (v : Vector Int16 3) :
    DualSense.correct (v.map fun count => Float32.ofInt count.toInt) (.replicate 3 0.0) (.replicate 3 1.0) =
      v.map fun count => Float32.ofInt count.toInt := by
  refine Vector.ext fun i hi => ?_
  have hsmall (count : Int16) : |count.toInt| < 2 ^ 23 := by
    have := count.le_toInt
    have := count.toInt_lt
    rw [abs_lt]
    omega
  simp only [DualSense.correct, Vector.getElem_ofFn, Vector.get_eq_getElem, Vector.getElem_map,
    Vector.getElem_replicate]
  exact ofInt_sub_zero_mul_one (hsmall _)

/-- The sample of a frame with the counts `counts`. -/
def FrameCounts.sample (counts : FrameCounts) (mag : Option (Vector Float32 3)) (timestampUs : UInt64) : ImuSample where
  gyro := counts.gyro.map fun count => Float32.ofInt count.toInt * GYRO_SCALE_RAD_S
  accel := counts.accel.map fun count => Float32.ofInt count.toInt * ACCEL_SCALE_M_S2
  mag := mag
  timestampUs := timestampUs

theorem parseFrame_eq {kind : ControllerKind} {buf : List UInt8} {accelOfs gyroOfs : Nat} {counts : FrameCounts}
    (timestampUs : UInt64) (hlen : 49 ≤ buf.length) (hofs : accelOfs ≤ 43 ∧ gyroOfs ≤ 43)
    (haccel : portion buf accelOfs 6 = wireTriple kind counts.accel)
    (hgyro : portion buf gyroOfs 6 = wireTriple kind counts.gyro) :
    parseFrame kind buf accelOfs gyroOfs timestampUs .identity = some (counts.sample none timestampUs) := by
  rw [parseFrame, rawTriple_eq (by omega) haccel, rawTriple_eq (by omega) hgyro]
  show some (ImuSample.mk ((DualSense.correct _ (.replicate 3 0.0) (.replicate 3 1.0)).map _)
    ((DualSense.correct _ (.replicate 3 0.0) (.replicate 3 1.0)).map _) none timestampUs) = _
  rw [correct_identity, correct_identity, Vector.map_map, Vector.map_map]
  rfl

/-! ### Magnetometer and battery -/

theorem toNat_and_mask (v : UInt16) : (v &&& 0x0FFF).toNat = v.toNat % 4096 := by
  rw [UInt16.toNat_and]
  exact Nat.and_two_pow_sub_one_eq_mod v.toNat 12

theorem signExtend12_eq {v : UInt16} {m : BitVec 12} (h : v.toNat % 4096 = m.toNat) : signExtend12 v = m.toInt := by
  have hlt := m.isLt
  have hmask := toNat_and_mask v
  rw [h] at hmask
  have hbit : (v &&& 0x0FFF) &&& 0x0800 ≠ 0 ↔ 2048 ≤ m.toNat := by
    rw [Ne, ← UInt16.toNat_inj, UInt16.toNat_and, hmask]
    show ¬ m.toNat &&& 2 ^ 11 = 0 ↔ _
    rw [Nat.and_two_pow, Nat.testBit_eq_decide_div_mod_eq]
    by_cases hodd : m.toNat / 2 ^ 11 % 2 = 1
    · simp only [hodd, decide_true, Bool.toNat_true]
      omega
    · simp only [hodd, decide_false, Bool.toNat_false]
      omega
  unfold signExtend12
  dsimp only
  rw [BitVec.toInt_eq_toNat_cond, hmask]
  by_cases hneg : 2048 ≤ m.toNat
  · rw [if_pos (hbit.2 hneg), if_neg (by omega)]
    omega
  · rw [if_neg (fun h' => hneg (hbit.1 h')), if_pos (by omega)]

/-- A low nibble in front of a byte. -/
theorem toNat_nibble_byte (high low : UInt8) :
    ((high.toUInt16 &&& 0x0F) <<< 8 ||| low.toUInt16).toNat = high.toNat % 16 * 256 + low.toNat := by
  have hlow : low.toNat < 2 ^ 8 := low.toNat_lt
  have hmask : high.toNat &&& 15 = high.toNat % 16 := Nat.and_two_pow_sub_one_eq_mod high.toNat 4
  rw [UInt16.toNat_or, UInt16.toNat_shiftLeft, UInt16.toNat_and]
  show ((high.toNat &&& 15) <<< 8 % 2 ^ 16) ||| low.toNat = _
  rw [hmask, Nat.mod_eq_of_lt (by rw [Nat.shiftLeft_eq]; omega), ← Nat.shiftLeft_add_eq_or_of_lt hlow,
    Nat.shiftLeft_eq]

/-- A byte in front of a high nibble. -/
theorem toNat_byte_nibble (high low : UInt8) :
    (high.toUInt16 <<< 4 ||| low.toUInt16 >>> 4).toNat = high.toNat * 16 + low.toNat / 16 := by
  have hhigh : high.toNat < 2 ^ 8 := high.toNat_lt
  have hlow : low.toNat < 2 ^ 8 := low.toNat_lt
  rw [UInt16.toNat_or, UInt16.toNat_shiftLeft, UInt16.toNat_shiftRight]
  show (high.toNat <<< 4 % 2 ^ 16) ||| low.toNat >>> 4 = _
  rw [Nat.mod_eq_of_lt (by rw [Nat.shiftLeft_eq]; omega), Nat.shiftRight_eq_div_pow,
    ← Nat.shiftLeft_add_eq_or_of_lt (by omega), Nat.shiftLeft_eq]

theorem parseMag_eq {buf : List UInt8} {mag : Vector (BitVec 12) 3} (hlen : 49 ≤ buf.length) (h : MagAt buf mag)
    (kind : ControllerKind) : parseMag kind buf = some (mag.map fun m => Float32.ofInt m.toInt) := by
  have hx := mag.x.isLt
  have hy := mag.y.isLt
  have hz := mag.z.isLt
  have hsignX :
      signExtend12 (((buf.getD 38 0).toUInt16 &&& 0x0F) <<< 8 ||| (buf.getD 39 0).toUInt16) = mag.x.toInt := by
    refine signExtend12_eq ?_
    rw [toNat_nibble_byte, h.xHigh, h.xLow]
    omega
  have hsignZ : signExtend12 ((buf.getD 40 0).toUInt16 <<< 4 ||| (buf.getD 41 0).toUInt16 >>> 4) = mag.z.toInt := by
    refine signExtend12_eq ?_
    rw [toNat_byte_nibble, h.zHigh, h.zLowYHigh]
    omega
  have hsignY :
      signExtend12 (((buf.getD 41 0).toUInt16 &&& 0x0F) <<< 8 ||| (buf.getD 42 0).toUInt16) = mag.y.toInt := by
    refine signExtend12_eq ?_
    rw [toNat_nibble_byte, h.zLowYHigh, h.yLow]
    omega
  have hfits : OFS_MAG + 5 ≤ buf.length := le_trans (by decide) hlen
  rw [parseMag, if_pos hfits]
  show some (deswizzle kind #v[
    Float32.ofInt (signExtend12 (((buf.getD 38 0).toUInt16 &&& 0x0F) <<< 8 ||| (buf.getD 39 0).toUInt16)),
    Float32.ofInt (signExtend12 ((buf.getD 40 0).toUInt16 <<< 4 ||| (buf.getD 41 0).toUInt16 >>> 4)),
    Float32.ofInt (signExtend12 (((buf.getD 41 0).toUInt16 &&& 0x0F) <<< 8 ||| (buf.getD 42 0).toUInt16))]) = _
  rw [hsignX, hsignZ, hsignY, Vector.eq_coordinates (mag.map fun m => Float32.ofInt m.toInt)]
  simp only [deswizzle, Vector.x, Vector.y, Vector.z, Vector.getElem_map]
  rfl

theorem parseBattery_byte (battery : BatteryCode) : parseBattery battery.byte = some battery.state := by
  cases battery with
  | level fifths => fin_cases fifths <;> decide +kernel
  | charging => rfl
  | charged => rfl

/-! ### The report -/

/-- Without a calibration the samples of a report are those of the counts it was laid out with. -/
theorem parseReport_laidOut {kind : ControllerKind} {buf : List UInt8} {a b : FrameCounts}
    {mag : Vector (BitVec 12) 3} {battery : BatteryCode} (h : LaidOut kind buf a b mag battery) (clock : ReportClock)
    (now : Instant) :
    let magOf := if kind = .zcm1 then some (mag.map fun m => Float32.ofInt m.toInt) else none
    parseReport kind buf clock .identity now =
      ((clock.tick now).1,
        some ([a.sample magOf (clock.tick now).2.1, b.sample magOf (clock.tick now).2.2], some battery.state)) := by
  have hshort : ¬ buf.length < REPORT_MIN_LEN := not_lt.2 h.long
  have hmag : (if kind.hasMagnetometer then parseMag kind buf else none) =
      if kind = .zcm1 then some (mag.map fun m => Float32.ofInt m.toInt) else none := by
    cases kind with
    | zcm1 => exact parseMag_eq h.long (h.mag rfl) .zcm1
    | zcm2 => rfl
  have hframeA : parseFrame kind buf OFS_FRAME_A_ACCEL OFS_FRAME_A_GYRO (clock.tick now).2.1 .identity =
      some (a.sample none (clock.tick now).2.1) :=
    parseFrame_eq _ h.long (by decide) h.accelA h.gyroA
  have hframeB : parseFrame kind buf OFS_FRAME_B_ACCEL OFS_FRAME_B_GYRO (clock.tick now).2.2 .identity =
      some (b.sample none (clock.tick now).2.2) :=
    parseFrame_eq _ h.long (by decide) h.accelB h.gyroB
  have hbattery : buf[OFS_BATTERY]?.bind parseBattery = some battery.state := by
    show buf[12]?.bind parseBattery = _
    rw [h.battery, Option.bind_some, parseBattery_byte]
  dsimp only
  rw [parseReport, if_neg hshort]
  simp only [hmag, hframeA, hframeB, hbattery]
  rfl

/-- A report of ZCM1 at the ends of the ranges, with a charging battery. -/
def chargingReport : List UInt8 :=
  [0x01, 0, 0, 0, 0, 0, 0, 0, 0, 0, 0, 0x37, 0xEE] ++
    [0x64, 0x80, 0x00, 0xC0, 0x38, 0x7F] ++ [0x00, 0x00, 0x00, 0x80, 0xFF, 0xFF] ++
    [0xFF, 0x7F, 0x05, 0x80, 0x00, 0x80] ++ [0x2C, 0x81, 0x01, 0x80, 0xD4, 0x7E] ++
    [0x20, 0xA8, 0x00, 0xFF, 0xF7, 0xFF, 0x12, 0, 0, 0, 0, 0]

theorem laidOut_chargingReport :
    LaidOut .zcm1 chargingReport ⟨#v[100, -200, 16384], #v[-1, 0, 5]⟩ ⟨#v[-32768, 32767, 0], #v[300, -300, 1]⟩
      #v[-2048, 2047, -1] .charging where
  long := by decide
  battery := by decide
  accelA := by decide
  accelB := by decide
  gyroA := by decide
  gyroB := by decide
  mag _ := ⟨by decide, by decide, by decide, by decide, by decide⟩

theorem parseReport_laidOut_chargingReport :
    let a : FrameCounts := ⟨#v[100, -200, 16384], #v[-1, 0, 5]⟩
    let b : FrameCounts := ⟨#v[-32768, 32767, 0], #v[300, -300, 1]⟩
    let mag := some ((#v[-2048, 2047, -1] : Vector (BitVec 12) 3).map fun m => Float32.ofInt m.toInt)
    parseReport .zcm1 chargingReport .new .identity 0 =
      ((ReportClock.new.tick 0).1,
        some ([a.sample mag (ReportClock.new.tick 0).2.1, b.sample mag (ReportClock.new.tick 0).2.2],
          some ⟨0.5, true⟩)) :=
  parseReport_laidOut laidOut_chargingReport .new 0

end EverythingImu.Sony.PsMove
