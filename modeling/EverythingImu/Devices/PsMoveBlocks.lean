import EverythingImu.Devices.PsMoveCalibration
import EverythingImu.Library.FloatExact
import EverythingImu.Library.FloatQuotient
import Mathlib

/-!
# The calibration blocks of PS Move

The factory calibration is read in two blocks, which are joined together with their headers (`readFactoryCalibration`).
The reference of the first gyroscope axis lies across the border: its high byte is the report id of the second block.
So the calibration depends on that report id, and on nothing else in the headers (`parseFactoryBlob_headers`).
-/

namespace EverythingImu.Sony.PsMove

open Buffer CheckedScalar FloatRound LittleEndian

/-! ### Blocks -/

structure BlockHeader where
  reportId : UInt8
  discriminator : UInt8

/-- A block of 49 bytes. -/
structure CalBlock where
  header : BlockHeader
  payload : Vector UInt8 47

def CalBlock.bytes (block : CalBlock) : List UInt8 :=
  block.header.reportId :: block.header.discriminator :: block.payload.toList

/-- A feature read: an error of the device, or the number of bytes read and the block. -/
abbrev FeatureRead := Except String (Nat × CalBlock)

/-- The blocks that have been read. -/
structure Assembly where
  first : Option CalBlock
  second : Option CalBlock

def Assembly.store (assembly : Assembly) (read : FeatureRead) : Except String Assembly :=
  match read with
  | .error e => .error ("psmove get-calibration (0x10) failed: " ++ e)
  | .ok (n, block) =>
    if n < CAL_BLOCK_LEN then
      .error ("psmove calibration block short: " ++ toString n ++ " < " ++ toString CAL_BLOCK_LEN)
    else if block.header.discriminator &&& 0x01 = 0 then .ok { assembly with first := some block }
    else .ok { assembly with second := some block }

/-- The two halves in either order. -/
def readFactoryCalibration {K : Type} [CheckedScalar K] (kind : ControllerKind) (read₀ read₁ : FeatureRead) :
    Except String (Outcome Empty (Calibration K)) := do
  let assembly ← Assembly.store ⟨none, none⟩ read₀
  let assembly ← assembly.store read₁
  match assembly with
  | ⟨some first, some second⟩ => return parseFactoryBlob kind (first.bytes ++ second.bytes)
  | _ => throw "psmove calibration: did not receive both blocks"

theorem store_ok {assembly : Assembly} {n : Nat} {block : CalBlock} (hn : CAL_BLOCK_LEN ≤ n) :
    assembly.store (.ok (n, block)) =
      if block.header.discriminator &&& 0x01 = 0 then .ok { assembly with first := some block }
      else .ok { assembly with second := some block } :=
  if_neg (not_lt.2 hn)

/-- Two whole blocks are parsed in the order of their discriminators. -/
theorem readFactoryCalibration_blocks {K : Type} [CheckedScalar K] (kind : ControllerKind) {n m : Nat}
    {first second : CalBlock} (hn : CAL_BLOCK_LEN ≤ n) (hm : CAL_BLOCK_LEN ≤ m)
    (hfirst : first.header.discriminator &&& 0x01 = 0) (hsecond : second.header.discriminator &&& 0x01 ≠ 0) :
    (readFactoryCalibration kind (.ok (n, first)) (.ok (m, second)) : Except String (Outcome Empty (Calibration K))) =
        .ok (parseFactoryBlob kind (first.bytes ++ second.bytes)) ∧
      (readFactoryCalibration kind (.ok (n, second)) (.ok (m, first)) : Except String (Outcome Empty (Calibration K))) =
        .ok (parseFactoryBlob kind (first.bytes ++ second.bytes)) := by
  constructor
  · rw [readFactoryCalibration, store_ok hn, if_pos hfirst]
    show (Assembly.store _ _ >>= _) = _
    rw [store_ok hm, if_neg hsecond]
    rfl
  · rw [readFactoryCalibration, store_ok hn, if_neg hsecond]
    show (Assembly.store _ _ >>= _) = _
    rw [store_ok hm, if_pos hfirst]
    rfl

/-! ### What the blob has from where -/

theorem length_blob (first second : CalBlock) : ¬ (first.bytes ++ second.bytes).length < OFS_GYRO_90RPM + 18 := by
  simp [CalBlock.bytes, OFS_GYRO_90RPM]

theorem getD_first (first second : CalBlock) {i : Nat} (hi : i < 47) :
    (first.bytes ++ second.bytes).getD (i + 2) 0 = first.payload.toList.getD i 0 := by
  have hlen : i < first.payload.toList.length := by
    rw [Vector.length_toList]
    exact hi
  show (first.payload.toList ++ second.bytes).getD i 0 = _
  rw [List.getD_append _ _ _ _ hlen]

theorem getD_second (first second : CalBlock) (i : Nat) :
    (first.bytes ++ second.bytes).getD (i + 49) 0 = second.bytes.getD i 0 := by
  have hlen : first.bytes.length = 49 := by simp [CalBlock.bytes]
  rw [List.getD_append_right _ _ _ _ (by omega), hlen, Nat.add_sub_cancel]

variable {p q : Vector UInt8 47} {h h' k k' : BlockHeader}

/-- A word of the payload of the first block. -/
theorem readI16_first {o : Nat} (ho : 2 ≤ o ∧ o + 1 < 49) :
    readI16 ((CalBlock.mk h p).bytes ++ (CalBlock.mk k q).bytes) o =
      readI16 ((CalBlock.mk h' p).bytes ++ (CalBlock.mk k' q).bytes) o := by
  obtain ⟨i, rfl⟩ : ∃ i, o = i + 2 := ⟨o - 2, by omega⟩
  have hsucc : i + 2 + 1 = i + 1 + 2 := rfl
  rw [readI16, readI16, hsucc, getD_first _ _ (by omega), getD_first _ _ (by omega), getD_first _ _ (by omega),
    getD_first _ _ (by omega)]

/-- A word of the payload of the second block. -/
theorem readI16_second {o : Nat} (ho : 51 ≤ o) :
    readI16 ((CalBlock.mk h p).bytes ++ (CalBlock.mk k q).bytes) o =
      readI16 ((CalBlock.mk h' p).bytes ++ (CalBlock.mk k' q).bytes) o := by
  obtain ⟨i, rfl⟩ : ∃ i, o = i + 2 + 49 := ⟨o - 51, by omega⟩
  have hsucc : i + 2 + 49 + 1 = i + 1 + 2 + 49 := rfl
  rw [readI16, readI16, hsucc, getD_second, getD_second, getD_second, getD_second]
  rfl

/-! ### Gains in binary32 -/

/-- The distance that decides the gain: one that is too small for a reference counts as the nominal one. -/
def countedDistance (reference bias : Int16) : Nat :=
  let distance := (reference.toInt - bias.toInt).natAbs
  if distance ≤ 1 then 8856 else distance

/-- The gain of a gyroscope axis in `f32`. -/
def gainOf (reference bias : Int16) : Float32 :=
  let delta := (Float32.ofInt reference.toInt - Float32.ofInt bias.toInt).abs
  if 1.0 < delta then 8856.0 / delta else 1.0

theorem gyroGainOf_float32 (reference bias : Int16) :
    gyroGainOf (some reference) (Float32.ofInt bias.toInt) = .ok (gainOf reference bias) := by
  have hnominal : (540.0 * 16.4 : Float32) = 8856.0 := by decide +kernel
  have hunfold : (gyroGainOf (some reference) (Float32.ofInt bias.toInt) : Outcome Empty Float32) =
      if 1.0 < (Float32.ofInt reference.toInt - Float32.ofInt bias.toInt).abs then
        .ok (540.0 * 16.4 / (Float32.ofInt reference.toInt - Float32.ofInt bias.toInt).abs)
      else .ok 1.0 := rfl
  rw [hunfold, hnominal, gainOf]
  split <;> rfl

theorem toRat_nominal : (8856.0 : Float32).isFinite = true ∧ toRat 8856.0 = 8856 := by
  have hsame : (8856.0 : Float32) = Float32.ofInt 8856 := by decide +kernel
  have hint := float32_ofInt (n := 8856) (by decide)
  rw [hsame]
  exact_mod_cast hint

/-- The difference of two counts is exact. -/
theorem delta_float32 (reference bias : Int16) :
    (Float32.ofInt reference.toInt - Float32.ofInt bias.toInt).abs.isFinite = true ∧
      toRat (Float32.ofInt reference.toInt - Float32.ofInt bias.toInt).abs =
        ((reference.toInt - bias.toInt).natAbs : ℕ) := by
  have hcount (v : Int16) : |v.toInt| < 2 ^ 23 := by
    have hlow := v.le_toInt
    have hhigh := v.toInt_lt
    rw [abs_lt]
    omega
  have hdistance : |reference.toInt - bias.toInt| < 2 ^ 24 := by
    have hreference := abs_lt.1 (hcount reference)
    have hbias := abs_lt.1 (hcount bias)
    rw [abs_lt]
    omega
  obtain ⟨hfinite, hvalue⟩ := float32_ofInt (hcount reference)
  obtain ⟨hfinite', hvalue'⟩ := float32_ofInt (hcount bias)
  have hsmall : |((reference.toInt - bias.toInt : ℤ) : ℚ)| < 2 ^ (127 : ℤ) := by
    calc |((reference.toInt - bias.toInt : ℤ) : ℚ)| < 2 ^ 24 := by exact_mod_cast hdistance
      _ < 2 ^ (127 : ℤ) := by norm_num
  have hsub := float32_sub_roundsTo hfinite hfinite' (by rwa [hvalue, hvalue', ← Int.cast_sub])
  rw [hvalue, hvalue', ← Int.cast_sub] at hsub
  have hdiff : toRat (Float32.ofInt reference.toInt - Float32.ofInt bias.toInt) =
      (reference.toInt - bias.toInt : ℤ) := value_eq_intCast hsub hdistance
  obtain ⟨habsFinite, habs⟩ := float32_abs hsub.isFinite (by rwa [hdiff])
  refine ⟨habsFinite, ?_⟩
  rw [habs, hdiff, ← Int.cast_abs, Int.abs_eq_natAbs, Int.cast_natCast]

theorem one_lt_delta_iff (reference bias : Int16) :
    1.0 < (Float32.ofInt reference.toInt - Float32.ofInt bias.toInt).abs ↔
      ¬ (reference.toInt - bias.toInt).natAbs ≤ 1 := by
  obtain ⟨hfinite, hvalue⟩ := delta_float32 reference bias
  rw [lt_iff (by decide) hfinite, toRat_one, hvalue, not_le]
  exact Nat.one_lt_cast

theorem countedDistance_bounds (reference bias : Int16) :
    0 < countedDistance reference bias ∧ countedDistance reference bias < 2 ^ 22 := by
  have hlow := reference.le_toInt
  have hhigh := reference.toInt_lt
  have hlow' := bias.le_toInt
  have hhigh' := bias.toInt_lt
  simp only [countedDistance]
  split
  · omega
  · omega

/-- A gain is the quotient of the nominal distance by the counted one. -/
theorem gainOf_eq (reference bias : Int16) :
    gainOf reference bias = 8856.0 / Float32.ofInt (countedDistance reference bias : ℕ) := by
  unfold gainOf countedDistance
  by_cases hsmall : (reference.toInt - bias.toInt).natAbs ≤ 1
  · rw [if_neg (mt (one_lt_delta_iff reference bias).1 (not_not.2 hsmall)), if_pos hsmall]
    decide +kernel
  · rw [if_pos ((one_lt_delta_iff reference bias).2 hsmall), if_neg hsmall]
    obtain ⟨hfinite, hvalue⟩ := delta_float32 reference bias
    have hbounds := (countedDistance_bounds reference bias).2
    rw [countedDistance, if_neg hsmall] at hbounds
    obtain ⟨hfinite', hvalue'⟩ := float32_ofInt (n := ((reference.toInt - bias.toInt).natAbs : ℕ)) (by
      rw [Nat.abs_cast]
      omega)
    have hdelta : (Float32.ofInt reference.toInt - Float32.ofInt bias.toInt).abs =
        Float32.ofInt ((reference.toInt - bias.toInt).natAbs : ℕ) := by
      refine eq_of_toRat_eq hfinite hfinite' (hvalue.trans (hvalue'.trans (Int.cast_natCast _)).symm) ?_
      rw [hvalue, Nat.cast_ne_zero]
      omega
    rw [hdelta]

theorem gainOf_rounds (reference bias : Int16) :
    Rounds .binary32 (8856 / countedDistance reference bias) (gainOf reference bias).toModel.unpack := by
  rw [gainOf_eq]
  obtain ⟨hpos, hlt⟩ := countedDistance_bounds reference bias
  generalize countedDistance reference bias = d at hpos hlt
  obtain ⟨hfinite, hvalue⟩ := float32_ofInt (n := (d : ℕ)) (by
    rw [Nat.abs_cast]
    omega)
  rw [Int.cast_natCast] at hvalue
  have hone : (1 : ℚ) ≤ d := by exact_mod_cast hpos
  have hsmall : (d : ℚ) < 2 ^ 22 := by exact_mod_cast hlt
  have hdpos : (0 : ℚ) < d := zero_lt_one.trans_le hone
  have hquotient : (0 : ℚ) < 8856 / d := by positivity
  have hlow : (2 : ℚ) ^ (-149 : ℤ) ≤ |toRat 8856.0 / toRat (Float32.ofInt (d : ℕ))| := by
    rw [toRat_nominal.2, hvalue, abs_of_pos hquotient, le_div_iff₀ hdpos]
    calc (2 : ℚ) ^ (-149 : ℤ) * d ≤ 2 ^ (-149 : ℤ) * 2 ^ 22 := by gcongr
      _ ≤ 8856 := by norm_num
  have hhigh : |toRat 8856.0 / toRat (Float32.ofInt (d : ℕ))| < 2 ^ (127 : ℤ) := by
    rw [toRat_nominal.2, hvalue, abs_of_pos hquotient, div_lt_iff₀ hdpos]
    calc (8856 : ℚ) < 2 ^ (127 : ℤ) * 1 := by norm_num
      _ ≤ 2 ^ (127 : ℤ) * d := by gcongr
  have hrounds := float32_div_rounds toRat_nominal.1 hfinite hlow hhigh
  rwa [toRat_nominal.2, hvalue] at hrounds

/-- The counted distance decides the gain, and the gain the counted distance. -/
theorem gainOf_eq_iff (reference reference' bias : Int16) :
    gainOf reference bias = gainOf reference' bias ↔
      countedDistance reference bias = countedDistance reference' bias := by
  constructor
  · intro hgain
    have hrounds := gainOf_rounds reference bias
    rw [hgain] at hrounds
    obtain ⟨hpos, hlt⟩ := countedDistance_bounds reference bias
    obtain ⟨hpos', hlt'⟩ := countedDistance_bounds reference' bias
    exact quotient_injective hrounds (gainOf_rounds reference' bias) (by norm_num) hpos hpos' hlt hlt'
  · intro hcounted
    rw [gainOf_eq, gainOf_eq, hcounted]

/-! ### The calibration -/

/-- The reference of the first gyroscope axis as it is read: the last byte of the first block and the report id of the
second one. -/
def xReference (first second : CalBlock) : Int16 := i16FromLe (first.payload.toList.getD 46 0) second.header.reportId

def xGyroBias (first : CalBlock) : Int16 := i16FromLe (first.payload.toList.getD 36 0) (first.payload.toList.getD 37 0)

/-- The distance of the first reference from its bias, as far as the gain depends on it. -/
def xDistance (first second : CalBlock) : Nat := countedDistance (xReference first second) (xGyroBias first)

theorem accelFit_float32 (lo hi : Int) : ∃ fit : Float32 × Float32, accelFit lo hi = .ok fit := by
  unfold accelFit
  split
  · exact ⟨_, rfl⟩
  · exact ⟨_, rfl⟩

/-- The gain that an axis gets from a blob. -/
def blobGain (blob : List UInt8) (i : Fin 3) : Float32 :=
  gainOf (readI16 blob (OFS_GYRO_90RPM + i * 6 + i * 2)) (readI16 blob (OFS_GYRO_BIAS + i * 2))

/-- In `f32` a blob that is long enough has a calibration. -/
theorem parseFactoryBlob_float32 (kind : ControllerKind) {blob : List UInt8}
    (hlen : ¬ blob.length < OFS_GYRO_90RPM + 18) :
    ∃ accel : Vector (Float32 × Float32) 3,
      (∀ i : Fin 3,
        accelFit (extremes (accelSamples blob i)).1 (extremes (accelSamples blob i)).2 = .ok (accel.get i)) ∧
      parseFactoryBlob kind blob = .ok ⟨accel.map (·.1), accel.map (·.2),
        .ofFn fun i : Fin 3 => Float32.ofInt (gyroBiasWord blob i), .ofFn (blobGain blob)⟩ := by
  have hfit (i : Fin 3) : ∃ fit : Float32 × Float32,
      accelFit (extremes (accelSamples blob i)).1 (extremes (accelSamples blob i)).2 = .ok fit ∧
        accelFit (extremes (accelSamples blob i)).1 (extremes (accelSamples blob i)).2 = .ok fit :=
    (accelFit_float32 _ _).imp fun fit h => ⟨h, h⟩
  have hgain (i : Fin 3) : gyroGainOf (some (readI16 blob (OFS_GYRO_90RPM + i * 6 + i * 2)))
      (ofInt (gyroBiasWord blob i)) = .ok (blobGain blob i) :=
    gyroGainOf_float32 _ _
  obtain ⟨accel, haccel, hspec⟩ := Outcome.exists_axes hfit
  refine ⟨accel, hspec, ?_⟩
  unfold parseFactoryBlob
  rw [if_neg hlen]
  simp only [haccel, Outcome.ok_bind, readI16Le_gyroBias hlen, readI16Le_reference hlen, Vector.get_ofFn, hgain]
  rfl

theorem blobGain_zero (first second : CalBlock) :
    blobGain (first.bytes ++ second.bytes) 0 = gainOf (xReference first second) (xGyroBias first) := by
  have hreference : readI16 (first.bytes ++ second.bytes) (46 + 2) = xReference first second := by
    have hborder : 46 + 2 + 1 = 0 + 49 := rfl
    rw [readI16, hborder, getD_first _ _ (by omega), getD_second]
    rfl
  have hbias : readI16 (first.bytes ++ second.bytes) (36 + 2) = xGyroBias first := by
    have hsucc : 36 + 2 + 1 = 37 + 2 := rfl
    rw [readI16, hsucc, getD_first _ _ (by omega), getD_first _ _ (by omega)]
    rfl
  rw [← hreference, ← hbias]
  rfl

theorem accelSamples_headers (i : Fin 3) :
    accelSamples ((CalBlock.mk h p).bytes ++ (CalBlock.mk k q).bytes) i =
      accelSamples ((CalBlock.mk h' p).bytes ++ (CalBlock.mk k' q).bytes) i := by
  rw [accelSamples_eq (length_blob _ _), accelSamples_eq (length_blob _ _)]
  refine List.map_congr_left fun s hs => congrArg Int16.toInt (readI16_first ?_)
  have hs := List.mem_range.1 hs
  have hi := i.isLt
  rw [OFS_ACCEL_SAMPLES]
  omega

theorem gyroBias_headers (i : Fin 3) :
    readI16 ((CalBlock.mk h p).bytes ++ (CalBlock.mk k q).bytes) (OFS_GYRO_BIAS + i * 2) =
      readI16 ((CalBlock.mk h' p).bytes ++ (CalBlock.mk k' q).bytes) (OFS_GYRO_BIAS + i * 2) := by
  refine readI16_first ?_
  have hi := i.isLt
  rw [OFS_GYRO_BIAS]
  omega

/-- The references of the other axes lie in the second payload. -/
theorem blobGain_headers {i : Fin 3} (hi : i ≠ 0) :
    blobGain ((CalBlock.mk h p).bytes ++ (CalBlock.mk k q).bytes) i =
      blobGain ((CalBlock.mk h' p).bytes ++ (CalBlock.mk k' q).bytes) i := by
  have hpos : 0 < (i : Nat) := Nat.pos_of_ne_zero fun hzero => hi (Fin.ext hzero)
  have hreference : readI16 ((CalBlock.mk h p).bytes ++ (CalBlock.mk k q).bytes) (OFS_GYRO_90RPM + i * 6 + i * 2) =
      readI16 ((CalBlock.mk h' p).bytes ++ (CalBlock.mk k' q).bytes) (OFS_GYRO_90RPM + i * 6 + i * 2) := by
    refine readI16_second ?_
    rw [OFS_GYRO_90RPM]
    omega
  rw [blobGain, blobGain, gyroBias_headers i, hreference]

/-- The calibration depends on the headers of the blocks exactly as far as the first reference does: on the report id of
the second block. -/
theorem parseFactoryBlob_headers (kind : ControllerKind) (p q : Vector UInt8 47) (h h' k k' : BlockHeader) :
    (parseFactoryBlob kind ((CalBlock.mk h p).bytes ++ (CalBlock.mk k q).bytes) : Outcome Empty (Calibration Float32)) =
        parseFactoryBlob kind ((CalBlock.mk h' p).bytes ++ (CalBlock.mk k' q).bytes) ↔
      xDistance ⟨h, p⟩ ⟨k, q⟩ = xDistance ⟨h', p⟩ ⟨k', q⟩ := by
  obtain ⟨blob, hblob⟩ : ∃ blob, blob = (CalBlock.mk h p).bytes ++ (CalBlock.mk k q).bytes := ⟨_, rfl⟩
  obtain ⟨blob', hblob'⟩ : ∃ blob, blob = (CalBlock.mk h' p).bytes ++ (CalBlock.mk k' q).bytes := ⟨_, rfl⟩
  have hlen : ¬ blob.length < OFS_GYRO_90RPM + 18 := hblob ▸ length_blob _ _
  have hlen' : ¬ blob'.length < OFS_GYRO_90RPM + 18 := hblob' ▸ length_blob _ _
  have hsamples (i : Fin 3) : accelSamples blob i = accelSamples blob' i := by
    rw [hblob, hblob']
    exact accelSamples_headers i
  have hbias (i : Fin 3) : readI16 blob (OFS_GYRO_BIAS + i * 2) = readI16 blob' (OFS_GYRO_BIAS + i * 2) := by
    rw [hblob, hblob']
    exact gyroBias_headers i
  have hgain (i : Fin 3) (hi : i ≠ 0) : blobGain blob i = blobGain blob' i := by
    rw [hblob, hblob']
    exact blobGain_headers hi
  obtain ⟨accel, haccel, hparse⟩ := parseFactoryBlob_float32 kind hlen
  obtain ⟨accel', haccel', hparse'⟩ := parseFactoryBlob_float32 kind hlen'
  have hsame : accel = accel' := by
    refine Vector.ext fun i hi => ?_
    have hi := haccel ⟨i, hi⟩
    rw [hsamples] at hi
    exact Outcome.ok.inj (hi.symm.trans (haccel' _))
  have hwords : (Vector.ofFn fun i : Fin 3 => Float32.ofInt (gyroBiasWord blob i)) =
      .ofFn fun i : Fin 3 => Float32.ofInt (gyroBiasWord blob' i) := by
    refine congrArg Vector.ofFn (funext fun i => ?_)
    rw [gyroBiasWord, gyroBiasWord, hbias i]
  have hdistance : blobGain blob 0 = blobGain blob' 0 ↔ xDistance ⟨h, p⟩ ⟨k, q⟩ = xDistance ⟨h', p⟩ ⟨k', q⟩ := by
    rw [hblob, hblob', blobGain_zero, blobGain_zero]
    exact gainOf_eq_iff _ _ _
  rw [← hblob, ← hblob', hparse, hparse', hsame, hwords, ← hdistance, Outcome.ok.injEq, Calibration.mk.injEq]
  constructor
  · rintro ⟨-, -, -, hgains⟩
    have hzero := congrArg (fun gains => gains.get 0) hgains
    rwa [Vector.get_ofFn, Vector.get_ofFn] at hzero
  · intro hzero
    refine ⟨rfl, rfl, rfl, congrArg Vector.ofFn (funext fun i => ?_)⟩
    by_cases hi : i = 0
    · rw [hi, hzero]
    · exact hgain i hi

/-- With nothing but zeros in both payloads, the report id of the second block becomes the reference of the first
axis. -/
theorem parseFactoryBlob_reportId :
    ¬ ∀ (kind : ControllerKind) (first second first' second' : CalBlock), first.payload = first'.payload →
      second.payload = second'.payload →
        (parseFactoryBlob kind (first.bytes ++ second.bytes) : Outcome Empty (Calibration Float32)) =
          parseFactoryBlob kind (first'.bytes ++ second'.bytes) := by
  intro h
  have hsame := h .zcm1 ⟨⟨0x10, 0⟩, .replicate 47 0⟩ ⟨⟨0x10, 1⟩, .replicate 47 0⟩ ⟨⟨0x10, 0⟩, .replicate 47 0⟩
    ⟨⟨0x00, 1⟩, .replicate 47 0⟩ rfl rfl
  exact absurd hsame (by decide +kernel)

end EverythingImu.Sony.PsMove
