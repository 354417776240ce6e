import EverythingImu.Devices.TeslaStream
import EverythingImu.Library.FloatArith

/-!
# The text frames of a Tesla

`handle_text_frame` (`device.rs` of `device-tesla`) with the decoding of the columns (`api.rs`) on the binary32 numbers
that the columns parse to.  The reader of the JSON envelope is a parameter.

The loops of `unwrapped_delta_deg` end on a difference of headings exactly if it is not a number or at most `2 ^ 33`
in magnitude: beyond that a turn of 360 degrees is less than half a unit and is lost in the rounding
(`unwrappedDeltaDeg_returns_iff`, `handleTextFrame_returns_iff`).
-/

namespace EverythingImu.Tesla

open Float.Model Float.Model.UnpackedFloat FloatRound

/-! ### Columns -/

def isDigit (c : Char) : Bool := '0' ≤ c && c ≤ '9'

/-- The number that a list of digits denotes. -/
def digitsValue (digits : List Char) : Nat := digits.foldl (fun n c => n * 10 + (c.toNat - '0'.toNat)) 0

/-- `str::parse::<u64>`. -/
def parseU64 (s : List Char) : Option UInt64 :=
  let digits :=
    match s with
    | '+' :: rest => rest
    | _ => s
  if digits.isEmpty || !digits.all isDigit then none
  else if digitsValue digits < UInt64.size then some (UInt64.ofNat (digitsValue digits))
  else none

/-- The exponent behind the letter: digits with an optional sign. -/
def parseExponent (s : List Char) : Option Int :=
  let unsigned (digits : List Char) : Option Nat :=
    if digits.isEmpty || !digits.all isDigit then none else some (digitsValue digits)
  match s with
  | '-' :: rest => (unsigned rest).map fun n => -(n : Int)
  | '+' :: rest => (unsigned rest).map fun n => (n : Int)
  | _ => (unsigned s).map fun n => (n : Int)

/-- The nearest binary32 number to `digits * 10 ^ exponent`. -/
def decimal (digits : List Char) (exponent : Int) : Float32 :=
  OfScientific.ofScientific (digitsValue digits) (exponent < 0) exponent.natAbs

/-- A decimal number without a sign: digits with at most one point among them, and an exponent. -/
def parseDecimal (s : List Char) : Option Float32 :=
  let (whole, rest) := s.span isDigit
  let (fraction, rest) :=
    match rest with
    | '.' :: rest => rest.span isDigit
    | _ => ([], rest)
  if whole.isEmpty && fraction.isEmpty then none
  else
    match rest with
    | [] => some (decimal (whole ++ fraction) (-fraction.length))
    | c :: rest =>
      if c = 'e' ∨ c = 'E' then
        (parseExponent rest).map fun exponent => decimal (whole ++ fraction) (exponent - fraction.length)
      else none

def INFINITY : Float32 := 1.0 / 0.0
def NAN : Float32 := 0.0 / 0.0

/-- `str::parse::<f32>`; the words for the special values are read in any case. -/
def parseF32 (s : List Char) : Option Float32 :=
  let (negative, s) :=
    match s with
    | '-' :: rest => (true, rest)
    | '+' :: rest => (false, rest)
    | _ => (false, s)
  let word := s.map Char.toLower
  let magnitude :=
    if word = ['i', 'n', 'f'] ∨ word = ['i', 'n', 'f', 'i', 'n', 'i', 't', 'y'] then some INFINITY
    else if word = ['n', 'a', 'n'] then some NAN
    else parseDecimal s
  magnitude.map fun x => if negative then -x else x

/-- The columns up to the heading; a column that is empty or does not parse is missing. -/
def decodeStreamValue (value : String) : Option StreamFrame :=
  let optF32 (column : Option (List Char)) : Option Float32 := column.bind parseF32
  let columns := value.toList.splitOn ','
  (columns[0]?.bind parseU64).map fun timestampMs =>
    { timestampMs, speedMph := optF32 columns[1]?, headingDeg := optF32 columns[2]? }

/-! ### Frames -/

structure StreamEnvelope where
  msgType : String
  value : Option String

inductive FrameAction where
  | emit (sample : SynthSample Float32)
  | disconnect

/-- `none` if a loop reaches its bound. -/
def handleTextFrame (parseEnvelope : String → Option StreamEnvelope) (turns : Nat) (text : String)
    (synth : ImuSynth Float32) : Option (ImuSynth Float32 × Option FrameAction) :=
  match parseEnvelope text with
  | none => some (synth, none)
  | some env =>
    if env.msgType = "data:update" then
      match env.value.bind decodeStreamValue with
      | none => some (synth, none)
      | some frame => do
        let tsUs := saturatingMul frame.timestampMs 1000
        let (synth, sample) ← synth.ingest turns tsUs frame.headingDeg frame.speedMph
        return (synth, sample.map .emit)
    -- the vehicle is gone
    else if env.msgType = "data:error" then some (.new, some .disconnect)
    else some (synth, none)

example : (parseF32 "-1.5e1".toList).map Float32.toBits = some (-15.0 : Float32).toBits := by decide

/-! ### The loops on binary32 numbers -/

private theorem finite_180 : (180.0 : Float32).isFinite = true ∧ toRat 180.0 = 180 := by
  have h : (180.0 : Float32).toModel.unpack = .finite .positive 11796480 (-16) (by decide) := rfl
  refine ⟨rfl, ?_⟩
  rw [toRat, h, value_positive]
  norm_num

private theorem finite_neg_180 : (-180.0 : Float32).isFinite = true ∧ toRat (-180.0) = -180 := by
  have h : (-180.0 : Float32).toModel.unpack = .finite .negative 11796480 (-16) (by decide) := rfl
  refine ⟨rfl, ?_⟩
  rw [toRat, h, value_negative]
  norm_num

private theorem finite_360 : (360.0 : Float32).isFinite = true ∧ toRat 360.0 = 360 := by
  have h : (360.0 : Float32).toModel.unpack = .finite .positive 11796480 (-15) (by decide) := rfl
  refine ⟨rfl, ?_⟩
  rw [toRat, h, value_positive]
  norm_num

/-- The largest difference that a turn of 360 degrees changes. -/
def WRAP_LIMIT : Float32 := 8589934592.0

private theorem finite_limit : WRAP_LIMIT.isFinite = true ∧ toRat WRAP_LIMIT = 2 ^ 33 := by
  have h : WRAP_LIMIT.toModel.unpack = .finite .positive 8388608 10 (by decide) := rfl
  refine ⟨rfl, ?_⟩
  rw [toRat, h, value_positive]
  norm_num

private theorem finite_neg_limit : (-WRAP_LIMIT).isFinite = true ∧ toRat (-WRAP_LIMIT) = -2 ^ 33 := by
  have h : (-WRAP_LIMIT).toModel.unpack = .finite .negative 8388608 10 (by decide) := rfl
  refine ⟨rfl, ?_⟩
  rw [toRat, h, value_negative]
  norm_num

/-- A difference that the loops come to an end with. -/
def Wraps (d : Float32) : Prop := d.isNaN = true ∨ -WRAP_LIMIT ≤ d ∧ d ≤ WRAP_LIMIT

instance (d : Float32) : Decidable (Wraps d) := inferInstanceAs (Decidable (_ ∨ _))

section Turns

variable {d : Float32}

/-- Below the limit half a unit is at most 256. -/
private theorem rounding_error_le {q : ℚ} {f : UnpackedFloat} (h : RoundsTo .binary32 q f)
    (hq : |q| < 2 ^ (33 : ℤ)) : |value f - q| ≤ 256 := by
  have herr := h.error_le (k := 33) (by decide) hq
  have hunit : (2 : ℚ) ^ ((33 : ℤ) - Format.binary32.mantissaBits) / 2 = 256 := by
    show (2 : ℚ) ^ (9 : ℤ) / 2 = 256
    norm_num
  rwa [hunit] at herr

/-- A turn down takes at least 104 degrees off: the rounding error is at most 256. -/
private theorem sub_turn (hfin : d.isFinite = true) (hlow : 180 < toRat d) (hhigh : toRat d ≤ 2 ^ 33) :
    (d - 360.0).isFinite = true ∧ -2 ^ 33 ≤ toRat (d - 360.0) ∧ toRat (d - 360.0) ≤ toRat d - 104 := by
  have hlt : |toRat d - toRat 360.0| < 2 ^ (33 : ℤ) := by
    rw [finite_360.2, abs_lt]
    constructor <;> norm_num <;> linarith
  have hround := float32_sub_roundsTo hfin finite_360.1 (hlt.trans (by norm_num))
  have herr : |toRat (d - 360.0) - (toRat d - toRat 360.0)| ≤ 256 := rounding_error_le hround hlt
  rw [finite_360.2, abs_le] at herr
  refine ⟨hround.isFinite, ?_, ?_⟩ <;> linarith

/-- A turn up adds at least 104 degrees. -/
private theorem add_turn (hfin : d.isFinite = true) (hlow : -2 ^ 33 ≤ toRat d) (hhigh : toRat d ≤ -180) :
    (d + 360.0).isFinite = true ∧ toRat d + 104 ≤ toRat (d + 360.0) ∧ toRat (d + 360.0) ≤ 2 ^ 33 := by
  have hlt : |toRat d + toRat 360.0| < 2 ^ (33 : ℤ) := by
    rw [finite_360.2, abs_lt]
    constructor <;> norm_num <;> linarith
  have hround := float32_add_roundsTo hfin finite_360.1 (hlt.trans (by norm_num))
  have herr : |toRat (d + 360.0) - (toRat d + toRat 360.0)| ≤ 256 := rounding_error_le hround hlt
  rw [finite_360.2, abs_le] at herr
  refine ⟨hround.isFinite, ?_, ?_⟩ <;> linarith

/-- Above the limit the unit is at least 1024. -/
private theorem exponent_of_large {s : Sign} {m : Nat} {e : ℤ} {hm : 0 < m}
    (hc : Canonical .binary32 (.finite s m e hm)) (hbig : 2 ^ 33 < (m : ℚ) * 2 ^ e) :
    10 ≤ e ∧ 2 ^ 33 + 1024 ≤ (m : ℚ) * 2 ^ e := by
  have hfit : (m : ℚ) < 2 ^ 24 := by exact_mod_cast hc.1
  have he : 10 ≤ e := by
    by_contra hlt
    have hpow : (2 : ℚ) ^ e ≤ 2 ^ (9 : ℤ) := zpow_le_zpow_right₀ (by norm_num) (by omega)
    have hsmall : (m : ℚ) * 2 ^ e < 2 ^ 24 * 2 ^ (9 : ℤ) :=
      (mul_le_mul_of_nonneg_left hpow (Nat.cast_nonneg m)).trans_lt (mul_lt_mul_of_pos_right hfit (by norm_num))
    norm_num at hsmall hbig
    linarith
  refine ⟨he, ?_⟩
  have hunit : (m : ℚ) * 2 ^ e = ((m * 2 ^ (e - 10).toNat : ℕ) : ℚ) * 1024 := by
    rw [two_zpow_toNat he]
    push_cast
    ring
  rw [hunit] at hbig ⊢
  have hmore : 2 ^ 23 < m * 2 ^ (e - 10).toNat := by
    have : (2 : ℚ) ^ 23 < ((m * 2 ^ (e - 10).toNat : ℕ) : ℚ) := by linarith
    exact_mod_cast this
  have hnext : ((2 ^ 23 + 1 : ℕ) : ℚ) ≤ ((m * 2 ^ (e - 10).toNat : ℕ) : ℚ) := Nat.cast_le.2 hmore
  push_cast at hnext ⊢
  linarith

/-- Above the limit a turn towards zero is less than half a unit, and lost. -/
private theorem add_absorbed {f g : UnpackedFloat} (hf : f.isFinite = true) (hg : g.isFinite = true)
    (hcf : Canonical .binary32 f) (hcg : Canonical .binary32 g) (hturn : |value g| = 360)
    (hbig : 2 ^ 33 < |value f|) (hless : |value f + value g| = |value f| - 360) :
    UnpackedFloat.add .binary32 f g = f := by
  have hround := add_roundsTo hf hg hcf hcg
  cases f with
  | finite s m e hm =>
    rw [abs_value_finite] at hbig hless
    obtain ⟨he, hlarge⟩ := exponent_of_large hcf hbig
    have hfit : (m : ℚ) < 2 ^ 24 := by exact_mod_cast hcf.1
    have hx : 2 ^ (33 : ℤ) ≤ |value (.finite s m e hm) + value g| := by
      rw [hless]
      norm_num at hlarge ⊢
      linarith
    have hne : value (.finite s m e hm) + value g ≠ 0 := by
      rw [← abs_pos]
      exact lt_of_lt_of_le (by norm_num) hx
    have hvalue : value (UnpackedFloat.add .binary32 (.finite s m e hm) g) = value (.finite s m e hm) := by
      refine (hround.rounds hne).value_eq ?_
      intro te hlow hhigh
      have hte : 33 < te := (zpow_lt_zpow_iff_right₀ (by norm_num : (1 : ℚ) < 2)).1 (hx.trans_lt hhigh)
      have htop : te - 1 < 24 + e := by
        refine (zpow_lt_zpow_iff_right₀ (by norm_num : (1 : ℚ) < 2)).1 (hlow.trans_lt ?_)
        rw [hless, zpow_add₀ (by norm_num)]
        have : (m : ℚ) * 2 ^ e < 2 ^ (24 : ℤ) * 2 ^ e := by
          gcongr
          exact_mod_cast hfit
        linarith
      have htarget : Format.binary32.targetExponent te = te - 24 := by
        show max (te - 24) (-149) = te - 24
        omega
      rw [htarget]
      constructor
      · refine ⟨s.apply m * 2 ^ (e - (te - 24)).toNat, ?_⟩
        rw [value, two_zpow_toNat (show te - 24 ≤ e by omega)]
        push_cast
        ring
      · rw [sub_add_cancel_left, abs_neg, hturn]
        have : (2 : ℚ) ^ (10 : ℤ) ≤ 2 ^ (te - 24) := zpow_le_zpow_right₀ (by norm_num) (by omega)
        norm_num at this
        linarith
    refine eq_of_value_eq hround.isFinite hf hround.canonical hcf hvalue ?_
    rw [hvalue, ← abs_pos, abs_value_finite]
    linarith
  | _ => exact absurd hbig (by norm_num [value])

private theorem abs_360 : |value (360.0 : Float32).toModel.unpack| = 360 := by
  have h := finite_360.2
  rw [toRat] at h
  rw [h, abs_of_pos (by norm_num)]

private theorem pack_unpack_toModel (x : Float32) : Float32.Model.pack x.toModel.unpack = x.toModel := by
  have h := pack_unpack_of_valid x.toModel.valid
  show (⟨UInt32.ofBitVec (pack Format.binary32 (unpack Format.binary32 x.toModel.toBits.toBitVec)), _⟩ :
    Float32.Model) = ⟨x.toModel.toBits, _⟩
  simp only [h]

/-- A difference above the limit stays as it is. -/
private theorem sub_absorbed (hfin : d.isFinite = true) (h : 2 ^ 33 < toRat d) : d - 360.0 = d := by
  have hpos : (0 : ℚ) < toRat d := lt_trans (by norm_num) h
  have habs : |value d.toModel.unpack| = toRat d := abs_of_pos hpos
  have hadd := add_absorbed hfin (isFinite_neg finite_360.1) (canonical_toModel d)
    (canonical_neg (canonical_toModel 360.0)) (f := d.toModel.unpack) (g := (360.0 : Float32).toModel.unpack.neg)
    (by rw [value_neg, abs_neg, abs_360]) (by rwa [habs])
    (by
      rw [habs, value_neg, ← sub_eq_add_neg]
      show |toRat d - toRat 360.0| = _
      rw [finite_360.2, abs_of_pos (by linarith)])
  rw [← sub_eq_add_neg_unpacked] at hadd
  show Float32.ofModel (.pack (UnpackedFloat.sub .binary32 d.toModel.unpack (360.0 : Float32).toModel.unpack)) = d
  rw [hadd, pack_unpack_toModel]

/-- A difference below the limit on the other side stays as it is. -/
private theorem add_absorbed_float (hfin : d.isFinite = true) (h : toRat d < -2 ^ 33) : d + 360.0 = d := by
  have hneg : toRat d < 0 := lt_trans h (by norm_num)
  have habs : |value d.toModel.unpack| = -toRat d := abs_of_neg hneg
  have hadd := add_absorbed hfin finite_360.1 (canonical_toModel d) (canonical_toModel 360.0)
    (f := d.toModel.unpack) (g := (360.0 : Float32).toModel.unpack)
    abs_360 (by rw [habs]; linarith)
    (by
      rw [habs]
      show |toRat d + toRat 360.0| = _
      rw [finite_360.2, abs_of_neg (by linarith)]
      ring)
  show Float32.ofModel (.pack (UnpackedFloat.add .binary32 d.toModel.unpack (360.0 : Float32).toModel.unpack)) = d
  rw [hadd, pack_unpack_toModel]

private theorem lt_unpack (x y : Float32) : x < y ↔ x.toModel.unpack.lt y.toModel.unpack = true := decide_eq_true_iff

private theorem le_unpack (x y : Float32) : x ≤ y ↔ x.toModel.unpack.le y.toModel.unpack = true := decide_eq_true_iff

private theorem float_cases (d : Float32) :
    d.toModel.unpack = .notANumber ∨ d.isFinite = true ∨ ∃ s, d.toModel.unpack = .infinity s := by
  have hfin : d.isFinite = d.toModel.unpack.isFinite := rfl
  rw [hfin]
  cases d.toModel.unpack with
  | notANumber => exact .inl rfl
  | infinity s => exact .inr (.inr ⟨s, rfl⟩)
  | zero s => exact .inr (.inl rfl)
  | finite s m e hm => exact .inr (.inl rfl)

/-- An infinite difference is on one side of the loops and stays there. -/
private theorem infinite_stuck {s : Sign} (h : d.toModel.unpack = .infinity s) :
    ¬Wraps d ∧ ((180.0 : Float32) < d ∧ d - 360.0 = d ∨ ¬(180.0 : Float32) < d ∧ d ≤ -180.0 ∧ d + 360.0 = d) := by
  have hpack := pack_unpack_toModel d
  have hnan : d.isNaN = d.toModel.unpack.isNaN := rfl
  rw [Wraps, lt_unpack, le_unpack, le_unpack, le_unpack, hnan]
  cases s with
  | positive =>
    refine ⟨?_, .inl ⟨?_, ?_⟩⟩
    · rw [h]
      decide
    · rw [h]
      rfl
    · show Float32.ofModel (.pack (UnpackedFloat.sub .binary32 d.toModel.unpack (360.0 : Float32).toModel.unpack)) = d
      rw [h] at hpack ⊢
      exact congrArg Float32.ofModel hpack
  | negative =>
    refine ⟨?_, .inr ⟨?_, ?_, ?_⟩⟩
    · rw [h]
      decide
    · rw [h]
      decide
    · rw [h]
      rfl
    · show Float32.ofModel (.pack (UnpackedFloat.add .binary32 d.toModel.unpack (360.0 : Float32).toModel.unpack)) = d
      rw [h] at hpack ⊢
      exact congrArg Float32.ofModel hpack

private theorem wraps_iff_of_finite (hfin : d.isFinite = true) : Wraps d ↔ -2 ^ 33 ≤ toRat d ∧ toRat d ≤ 2 ^ 33 := by
  have hnan := FloatOrder.isNaN_float32_of_isFinite hfin
  rw [Wraps, hnan, le_iff finite_neg_limit.1 hfin, le_iff hfin finite_limit.1, finite_neg_limit.2, finite_limit.2]
  simp

/-- A difference that the loops work on. -/
private structure InReach (d : Float32) : Prop where
  isFinite : d.isFinite = true
  low : -2 ^ 33 ≤ toRat d
  high : toRat d ≤ 2 ^ 33

/-- A rank of the loops is far below the bound on the turns. -/
private theorem ceil_lt_turns {x : ℚ} (h : x ≤ 2 ^ 27) : ⌈x⌉₊ + 1 ≤ TURNS := by
  have hceil : ⌈x⌉₊ ≤ 2 ^ 27 := Nat.ceil_le.2 (by exact_mod_cast h)
  rw [TURNS]
  omega

private theorem down_terminates (h : InReach d) :
    ∃ turns ≤ TURNS, ∃ down, InReach down ∧
      whileLoop (fun d : Float32 => (180.0 : Float32) < d) (fun d => d - 360.0) turns d = some down := by
  have hturn (d : Float32) (hd : InReach d) (hg : (180.0 : Float32) < d) :
      InReach (d - 360.0) ∧ 0 < (toRat d - 180) / 104 ∧
        (toRat (d - 360.0) - 180) / 104 ≤ (toRat d - 180) / 104 - 1 := by
    rw [lt_iff finite_180.1 hd.isFinite, finite_180.2] at hg
    obtain ⟨hfin, hlow, hdrop⟩ := sub_turn hd.isFinite hg hd.high
    have hhigh := hd.high
    refine ⟨⟨hfin, hlow, ?_⟩, ?_, ?_⟩ <;> linarith
  obtain ⟨down, hdown, hreach, -⟩ := whileLoop_terminates_of_drop (fun d => (toRat d - 180) / 104) hturn h
  refine ⟨_, ceil_lt_turns ?_, down, hreach, hdown⟩
  have hhigh := h.high
  linarith

private theorem up_terminates (h : InReach d) :
    ∃ turns ≤ TURNS, ∃ up,
      whileLoop (fun d : Float32 => d ≤ (-180.0 : Float32)) (fun d => d + 360.0) turns d = some up := by
  have hturn (d : Float32) (hd : InReach d) (hg : d ≤ (-180.0 : Float32)) :
      InReach (d + 360.0) ∧ 0 < (-76 - toRat d) / 104 ∧
        (-76 - toRat (d + 360.0)) / 104 ≤ (-76 - toRat d) / 104 - 1 := by
    rw [le_iff hd.isFinite finite_neg_180.1, finite_neg_180.2] at hg
    obtain ⟨hfin, hrise, hhigh⟩ := add_turn hd.isFinite hd.low hg
    have hlow := hd.low
    refine ⟨⟨hfin, ?_, hhigh⟩, ?_, ?_⟩ <;> linarith
  obtain ⟨up, hup, -⟩ := whileLoop_terminates_of_drop (fun d => (-76 - toRat d) / 104) hturn h
  refine ⟨_, ceil_lt_turns ?_, up, hup⟩
  have hlow := h.low
  linarith

private theorem wrap_of_wraps (h : Wraps d) :
    ∃ turns ≤ TURNS, ∃ up, (whileLoop (fun d : Float32 => (180.0 : Float32) < d) (fun d => d - 360.0) turns d).bind
      (whileLoop (fun d : Float32 => d ≤ (-180.0 : Float32)) (fun d => d + 360.0) turns) = some up := by
  rcases float_cases d with hnan | hfin | ⟨s, hinf⟩
  · -- not a number is on neither side
    have hdown : ¬(180.0 : Float32) < d := by
      rw [lt_unpack, hnan]
      decide
    have hup : ¬d ≤ (-180.0 : Float32) := by
      rw [le_unpack, hnan]
      decide
    exact ⟨1, by decide, d, Option.bind_eq_some_iff.2 ⟨d, whileLoop_of_not 0 hdown, whileLoop_of_not 0 hup⟩⟩
  · obtain ⟨hlow, hhigh⟩ := (wraps_iff_of_finite hfin).1 h
    obtain ⟨m, hm, down, hreach, hdown⟩ := down_terminates ⟨hfin, hlow, hhigh⟩
    obtain ⟨n, hn, up, hup⟩ := up_terminates hreach
    exact ⟨max m n, max_le hm hn, up, Option.bind_eq_some_iff.2
      ⟨down, whileLoop_mono (le_max_left m n) hdown, whileLoop_mono (le_max_right m n) hup⟩⟩
  · exact absurd h (infinite_stuck hinf).1

private theorem no_wrap_of_not_wraps (h : ¬Wraps d) (turns : Nat) :
    (whileLoop (fun d : Float32 => (180.0 : Float32) < d) (fun d => d - 360.0) turns d).bind
      (whileLoop (fun d : Float32 => d ≤ (-180.0 : Float32)) (fun d => d + 360.0) turns) = none := by
  have hstuck : (180.0 : Float32) < d ∧ d - 360.0 = d ∨ ¬(180.0 : Float32) < d ∧ d ≤ -180.0 ∧ d + 360.0 = d := by
    rcases float_cases d with hnan | hfin | ⟨s, hinf⟩
    · have : d.isNaN = true := by
        show d.toModel.unpack.isNaN = true
        rw [hnan]
        rfl
      exact absurd (.inl this) h
    · rw [wraps_iff_of_finite hfin, not_and_or, not_le, not_le] at h
      rw [lt_iff finite_180.1 hfin, le_iff hfin finite_neg_180.1, finite_180.2, finite_neg_180.2]
      rcases h with hlow | hhigh
      · exact .inr ⟨by linarith, by linarith, add_absorbed_float hfin hlow⟩
      · exact .inl ⟨by linarith, sub_absorbed hfin hhigh⟩
    · exact (infinite_stuck hinf).2
  rcases hstuck with ⟨hdown, hsub⟩ | ⟨hdown, hup, hadd⟩
  · rw [whileLoop_diverges hdown hsub, Option.bind_none]
  · cases turns with
    | zero => rfl
    | succ turns =>
      rw [whileLoop_of_not _ hdown, Option.bind_some]
      refine whileLoop_diverges ?_ ?_ (turns + 1)
      · exact hup
      · exact hadd

end Turns

/-- The loops end exactly on a difference that is not a number or at most `2 ^ 33` in magnitude. -/
theorem unwrappedDeltaDeg_returns_iff (a b : Float32) :
    (∃ turns d, unwrappedDeltaDeg turns a b = some d) ↔ Wraps (b - a) := by
  constructor
  · intro ⟨turns, d, h⟩
    by_contra hwraps
    have hnone : unwrappedDeltaDeg turns a b = none := no_wrap_of_not_wraps hwraps turns
    rw [hnone] at h
    cases h
  · intro h
    obtain ⟨turns, -, d, hd⟩ := wrap_of_wraps h
    exact ⟨turns, d, hd⟩

/-- The bound on the turns is never met by loops that end. -/
theorem unwrappedDeltaDeg_eq_none_iff (a b : Float32) :
    unwrappedDeltaDeg TURNS a b = none ↔ ∀ turns, unwrappedDeltaDeg turns a b = none := by
  refine ⟨fun h turns => ?_, fun h => h TURNS⟩
  by_contra hsome
  obtain ⟨d, hd⟩ := Option.ne_none_iff_exists'.1 hsome
  obtain ⟨n, hn, up, hup⟩ := wrap_of_wraps ((unwrappedDeltaDeg_returns_iff a b).1 ⟨turns, d, hd⟩)
  rw [unwrappedDeltaDeg_mono hn hup] at h
  cases h

/-! ### Frames that return -/

section Frames

variable (parseEnvelope : String → Option StreamEnvelope)

/-- The two headings whose difference a frame gives to the loops, if it comes so far: both columns are there, a frame
has come before, and not too soon. -/
def ImuSynth.headings (s : ImuSynth Float32) (timestampUs : UInt64) (headingDeg speedMph : Option Float32) :
    Option (Float32 × Float32) :=
  match headingDeg, speedMph, s.lastTimestampUs, s.lastHeadingDeg, s.lastSpeedMps with
  | some heading, some _, some prevTs, some prevHeading, some _ =>
    let dtS : Float32 := ((timestampUs.toNat - prevTs.toNat : Nat) : Float32) / 1_000_000.0
    if FiniteTest.isFinite dtS ∧ 1e-3 < dtS then some (prevHeading, heading) else none
  | _, _, _, _, _ => none

def frameHeadings (text : String) (synth : ImuSynth Float32) : Option (Float32 × Float32) :=
  match parseEnvelope text with
  | none => none
  | some env =>
    if env.msgType = "data:update" then
      (env.value.bind decodeStreamValue).bind fun frame =>
        synth.headings (saturatingMul frame.timestampMs 1000) frame.headingDeg frame.speedMph
    else none

private theorem bind_some_eq_map {α β : Type} (x : Option α) (f : α → β) :
    (x.bind fun a => some (f a)) = x.map f := by
  cases x <;> rfl

/-- A frame goes through the loops with its two headings, or does not come to them. -/
theorem ingest_eq (s : ImuSynth Float32) (timestampUs : UInt64) (headingDeg speedMph : Option Float32) :
    match s.headings timestampUs headingDeg speedMph with
    | some (a, b) => ∃ f, ∀ turns, s.ingest turns timestampUs headingDeg speedMph = (unwrappedDeltaDeg turns a b).map f
    | none => ∃ result, ∀ turns, s.ingest turns timestampUs headingDeg speedMph = some result := by
  obtain ⟨lastHeading, lastSpeed, lastTs⟩ := s
  rcases headingDeg with _ | heading
  · exact ⟨_, fun _ => rfl⟩
  rcases speedMph with _ | speedMph
  · exact ⟨_, fun _ => rfl⟩
  rcases lastTs with _ | prevTs
  · exact ⟨_, fun _ => rfl⟩
  rcases lastHeading with _ | prevHeading
  · exact ⟨_, fun _ => rfl⟩
  rcases lastSpeed with _ | prevSpeed
  · exact ⟨_, fun _ => rfl⟩
  simp only [ImuSynth.headings, ImuSynth.ingest]
  split
  · rename_i hdt
    split at hdt
    · rename_i hlarge
      obtain ⟨rfl, rfl⟩ := Prod.mk.inj (Option.some.inj hdt)
      simp only [hlarge, and_self, if_true]
      exact ⟨_, fun turns => bind_some_eq_map _ _⟩
    · cases hdt
  · rename_i hdt
    split at hdt
    · cases hdt
    · rename_i hsmall
      simp only [hsmall, if_false]
      exact ⟨_, fun _ => rfl⟩

theorem ingest_returns_iff (s : ImuSynth Float32) (timestampUs : UInt64) (headingDeg speedMph : Option Float32) :
    (∃ turns result, s.ingest turns timestampUs headingDeg speedMph = some result) ↔
      ∀ a b, s.headings timestampUs headingDeg speedMph = some (a, b) → Wraps (b - a) := by
  have heq := ingest_eq s timestampUs headingDeg speedMph
  rcases h : s.headings timestampUs headingDeg speedMph with _ | ⟨a, b⟩
  · rw [h] at heq
    obtain ⟨result, hresult⟩ := heq
    exact ⟨fun _ => nofun, fun _ => ⟨0, result, hresult 0⟩⟩
  · rw [h] at heq
    obtain ⟨f, hf⟩ := heq
    have hwraps := unwrappedDeltaDeg_returns_iff a b
    constructor
    · intro ⟨turns, result, hresult⟩ a' b' hab
      obtain ⟨rfl, rfl⟩ := Prod.mk.inj (Option.some.inj hab)
      rw [hf] at hresult
      obtain ⟨d, hd, -⟩ := Option.map_eq_some_iff.1 hresult
      exact hwraps.1 ⟨turns, d, hd⟩
    · intro h
      obtain ⟨turns, d, hd⟩ := hwraps.2 (h a b rfl)
      exact ⟨turns, f d, by rw [hf, hd]; rfl⟩

theorem handleTextFrame_returns (text : String) (synth : ImuSynth Float32) :
    (∃ turns result, handleTextFrame parseEnvelope turns text synth = some result) ↔
      ∀ a b, frameHeadings parseEnvelope text synth = some (a, b) → Wraps (b - a) := by
  unfold handleTextFrame frameHeadings
  rcases parseEnvelope text with _ | env
  · exact iff_of_true ⟨0, _, rfl⟩ nofun
  by_cases hupdate : env.msgType = "data:update"
  · simp only [hupdate, if_true]
    rcases env.value.bind decodeStreamValue with _ | frame
    · exact iff_of_true ⟨0, _, rfl⟩ nofun
    · refine Iff.trans ?_ (ingest_returns_iff synth _ frame.headingDeg frame.speedMph)
      constructor
      · intro ⟨turns, result, h⟩
        obtain ⟨r, hr, -⟩ := Option.bind_eq_some_iff.1 h
        exact ⟨turns, r, hr⟩
      · intro ⟨turns, r, hr⟩
        exact ⟨turns, _, Option.bind_eq_some_iff.2 ⟨r, hr, rfl⟩⟩
  · simp only [hupdate, if_false]
    refine iff_of_true ⟨0, ?_⟩ nofun
    split
    · exact ⟨_, rfl⟩
    · exact ⟨_, rfl⟩

/-- A message for which the bound on the turns is reached is one that the reader never comes back from. -/
theorem ImuSynth.handleTextFrame_eq_none_iff (s : ImuSynth Float32) (msg : StreamMessage) :
    s.handleTextFrame TURNS msg = none ↔ ∀ turns, s.handleTextFrame turns msg = none := by
  cases msg with
  | update frame =>
    have heq := ingest_eq s (saturatingMul frame.timestampMs 1000) frame.headingDeg frame.speedMph
    rcases hheadings : s.headings (saturatingMul frame.timestampMs 1000) frame.headingDeg frame.speedMph with _ | ⟨a, b⟩
    · rw [hheadings] at heq
      obtain ⟨result, hresult⟩ := heq
      simp only [handleTextFrame, hresult, forall_const]
    · rw [hheadings] at heq
      obtain ⟨f, hf⟩ := heq
      simp only [handleTextFrame, hf, Option.map_eq_none_iff]
      exact unwrappedDeltaDeg_eq_none_iff a b
  | error | other => exact ⟨nofun, fun h => h TURNS⟩

/-- The message that a text decodes to. -/
def decodeMessage (text : String) : StreamMessage :=
  match parseEnvelope text with
  | none => .other
  | some env =>
    if env.msgType = "data:update" then
      match env.value.bind decodeStreamValue with
      | none => .other
      | some frame => .update frame
    else if env.msgType = "data:error" then .error
    else .other

def StreamMessage.action : StreamMessage → Option (SynthSample Float32) → Option FrameAction
  | .error, _ => some .disconnect
  | _, sample => sample.map .emit

/-- The handling of a text is that of the message it decodes to. -/
theorem handleTextFrame_decodeMessage (turns : Nat) (text : String) (synth : ImuSynth Float32) :
    handleTextFrame parseEnvelope turns text synth =
      (synth.handleTextFrame turns (decodeMessage parseEnvelope text)).map fun (synth, sample) =>
        (synth, (decodeMessage parseEnvelope text).action sample) := by
  unfold handleTextFrame decodeMessage
  rcases parseEnvelope text with _ | env
  · rfl
  dsimp only
  split
  · rcases env.value.bind decodeStreamValue with _ | frame
    · rfl
    · exact bind_some_eq_map _ _
  · split
    · rfl
    · rfl

end Frames

/-- Whatever the reader of the envelope, the text and the state of the synthesis: the handling of the frame returns
exactly if it does not come to the loops, or comes there with headings whose difference is not a number or at most
`2 ^ 33` in magnitude.  In exact arithmetic the loops end for any two headings, with the difference in
`(-180, 180]`. -/
theorem handleTextFrame_returns_iff (parseEnvelope : String → Option StreamEnvelope) :
    (∀ text synth, (∃ turns result, handleTextFrame parseEnvelope turns text synth = some result) ↔
      ∀ a b, frameHeadings parseEnvelope text synth = some (a, b) → Wraps (b - a)) ∧
    (∀ a b : Float32, (∃ turns d, unwrappedDeltaDeg turns a b = some d) ↔ Wraps (b - a)) ∧
    ∀ a b : ℚ, ∃ turns d, unwrappedDeltaDeg turns a b = some d ∧ -180 < d ∧ d ≤ 180 ∧ d ≡ b - a [PMOD 360] := by
  refine ⟨handleTextFrame_returns parseEnvelope, unwrappedDeltaDeg_returns_iff, ?_⟩
  intro a b
  obtain ⟨turns, d, hd⟩ := unwrappedDeltaDeg_returns a b
  exact ⟨turns, d, hd, unwrappedDeltaDeg_spec hd⟩

/-- The state behind a list of text frames. -/
def handleFrames (parseEnvelope : String → Option StreamEnvelope) (turns : Nat) (texts : List String) :
    Option (ImuSynth Float32) :=
  texts.foldlM (fun synth text => (handleTextFrame parseEnvelope turns text synth).map Prod.fst) .new

/-- A frame that heads north. -/
def northFrame : String := "\x7b\"msg_type\":\"data:update\",\"value\":\"1000,30,0\"\x7d"

/-- A frame whose heading is infinite. -/
def infiniteFrame : String := "\x7b\"msg_type\":\"data:update\",\"value\":\"2000,30,inf\"\x7d"

/-- What the two frames read as. -/
def readFrames (text : String) : Option StreamEnvelope :=
  if text = northFrame then some ⟨"data:update", some "1000,30,0"⟩
  else if text = infiniteFrame then some ⟨"data:update", some "2000,30,inf"⟩
  else none

theorem decode_north : decodeStreamValue "1000,30,0" = some ⟨1000, some 30.0, some 0.0⟩ := by decide

theorem decode_infinite : decodeStreamValue "2000,30,inf" = some ⟨2000, some 30.0, some INFINITY⟩ := by decide

/-- The state behind a frame that heads north. -/
def northState : ImuSynth Float32 := ⟨some 0.0, some (30.0 * MPH_TO_MPS), some 1000000⟩

theorem handleFrames_north : handleFrames readFrames 0 [northFrame] = some northState := by
  have hread : readFrames northFrame = some ⟨"data:update", some "1000,30,0"⟩ := if_pos rfl
  have hframe : handleTextFrame readFrames 0 northFrame .new = some (northState, none) := by
    rw [handleTextFrame, hread]
    simp only [if_true, Option.bind_some, decode_north]
    rfl
  rw [handleFrames, List.foldlM_cons, hframe]
  rfl

theorem frameHeadings_infinite : frameHeadings readFrames infiniteFrame northState = some (0.0, INFINITY) := by
  have hread : readFrames infiniteFrame = some ⟨"data:update", some "2000,30,inf"⟩ :=
    (if_neg (by decide)).trans (if_pos rfl)
  rw [frameHeadings, hread]
  simp only [if_true, Option.bind_some, decode_infinite]
  rfl

/-- The heading column says "inf": the difference from the last heading is infinite, and the loop subtracts 360 from
it forever. -/
theorem not_returns_of_infinite_heading :
    ¬∀ parseEnvelope turns texts synth text, handleFrames parseEnvelope turns texts = some synth →
      ∃ turns result, handleTextFrame parseEnvelope turns text synth = some result := by
  intro h
  have hreturns := h readFrames 0 [northFrame] northState infiniteFrame handleFrames_north
  have hwraps := (handleTextFrame_returns readFrames infiniteFrame northState).1 hreturns _ _ frameHeadings_infinite
  exact absurd hwraps (by decide)

end EverythingImu.Tesla
