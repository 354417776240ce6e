import EverythingImu.Core.RateCal
import EverythingImu.Library.Hysteresis
import Mathlib.Algebra.Order.Field.Rat
import Mathlib.Tactic.FieldSimp
import Mathlib.Tactic.NormNum

/-!
# The fusion timestep in exact numbers

The estimators of `RateCal` on rationals.  The chip clock takes only intervals between 0 and 0.1 s, and a window closes
only when it is 4 s long and has a sample; so from any rate of 1 Hz on, whatever the batches are, the timestep stays
positive and is never above 0.1 s unless it began there, nothing is divided by zero, and the delivery rate is out of
play once the chip clock has a period (`timestep_valid`).
-/

namespace EverythingImu.Core

open Hysteresis

/-! ### The operations on rationals -/

theorem asSecs_rat (ns : Nat) : (asSecs ns : ℚ) = ns / 1_000_000_000 := by
  have hns : ((ns / 1_000_000_000 * 1_000_000_000 + ns % 1_000_000_000 : Nat) : ℚ) = ns := by
    rw [Nat.div_add_mod']
  show ((ns / 1_000_000_000 : Nat) : ℚ) + ((ns % 1_000_000_000 : Nat) : ℚ) / (1_000_000_000.0 : ℚ) = _
  rw [← hns]
  push_cast
  norm_num
  field_simp

theorem abs_rat (x : ℚ) : Scalar.abs x = |x| := by
  show (if x < (0.0 : ℚ) then -x else x) = |x|
  have hzero : (0.0 : ℚ) = 0 := by norm_num
  rw [hzero]
  split
  · rw [abs_of_neg ‹_›]
  · rw [abs_of_nonneg (not_lt.1 ‹_›)]

theorem clamp_rat {x lo hi : ℚ} (h : lo ≤ hi) : Scalar.clamp x lo hi = max lo (min x hi) := by
  show (if x < lo then lo else if hi < x then hi else x) = _
  split
  · rw [max_eq_left (min_le_of_left_le (le_of_lt ‹_›))]
  · split
    · rw [min_eq_right (le_of_lt ‹_›), max_eq_right h]
    · rw [min_eq_left (not_lt.1 ‹_›), max_eq_right (not_lt.1 ‹_›)]

theorem correctedTimestep_rat {measured current : ℚ} (hm : 0 < measured) (hc : 0 < current) :
    correctedTimestep measured current (RateCal.APPLY_THRESHOLD : ℚ) =
      if 1 / 20 * current < |measured - current| then some measured else none := by
  show (if measured ≤ (0.0 : ℚ) ∨ current ≤ (0.0 : ℚ) then none
    else if (0.05 : ℚ) < Scalar.abs (measured - current) / current then some measured else none) = _
  have hzero : (0.0 : ℚ) = 0 := by norm_num
  have htwentieth : (0.05 : ℚ) = 1 / 20 := by norm_num
  rw [hzero, htwentieth, abs_rat, if_neg (not_or.2 ⟨not_le.2 hm, not_le.2 hc⟩)]
  simp only [lt_div_iff₀ hc]

namespace RateCal

/-- A measured period is followed with a hysteresis of 5 percent. -/
theorem applyMeasured_rat (r : RateCal ℚ) {measured : ℚ} (hm : 0 < measured) (hc : 0 < r.gyrTsCurrent) :
    (r.applyMeasured measured).1 = { r with gyrTsCurrent := follow (1 / 20) r.gyrTsCurrent measured } := by
  unfold applyMeasured follow
  rw [correctedTimestep_rat hm hc]
  by_cases hfar : 1 / 20 * r.gyrTsCurrent < |measured - r.gyrTsCurrent|
  · simp only [if_pos hfar]
  · simp only [if_neg hfar]

/-- The interval that the chip clock takes from a timestamp, if it takes one. -/
def acceptedDt (r : RateCal ℚ) (timestampUs : UInt64) : Option ℚ :=
  if timestampUs = 0 then none
  else
    r.lastHwTsUs.bind fun prev =>
      let dt : ℚ := ((timestampUs.toUInt32 - prev).toNat : ℚ) / 1_000_000
      if 0 < dt ∧ dt < 1 / 10 then some dt else none

/-- The smoothed period after an interval. -/
def smoothed (hwDtEma dt : ℚ) : ℚ := if hwDtEma ≤ 0 then dt else 1 / 10 * dt + 9 / 10 * hwDtEma

/-- A timestamp, by the interval that is taken from it. -/
theorem observeHw_rat (r : RateCal ℚ) (timestampUs : UInt64) :
    r.observeHw timestampUs =
      { r with
        lastHwTsUs := if timestampUs = 0 then r.lastHwTsUs else some timestampUs.toUInt32
        hwDtEma := ((r.acceptedDt timestampUs).map (smoothed r.hwDtEma)).getD r.hwDtEma } := by
  have hzero : (0.0 : ℚ) = 0 := by norm_num
  have hmillion : (1_000_000.0 : ℚ) = 1_000_000 := by norm_num
  have htenth : (0.1 : ℚ) = 1 / 10 := by norm_num
  have hninetenths : (0.9 : ℚ) = 9 / 10 := by norm_num
  unfold observeHw acceptedDt
  by_cases hnone : timestampUs = 0
  · simp only [if_pos hnone]
    rfl
  · simp only [if_neg hnone]
    cases hlast : r.lastHwTsUs with
    | none => rfl
    | some prev =>
      show (if (0.0 : ℚ) < ((timestampUs.toUInt32 - prev).toNat : ℚ) / 1_000_000.0 ∧
          ((timestampUs.toUInt32 - prev).toNat : ℚ) / 1_000_000.0 < (0.1 : ℚ) then
        ({ r with
          lastHwTsUs := some timestampUs.toUInt32
          hwDtEma := if r.hwDtEma ≤ (0.0 : ℚ) then ((timestampUs.toUInt32 - prev).toNat : ℚ) / 1_000_000.0
            else (0.1 : ℚ) * (((timestampUs.toUInt32 - prev).toNat : ℚ) / 1_000_000.0) + (0.9 : ℚ) * r.hwDtEma } :
          RateCal ℚ)
        else { r with lastHwTsUs := some timestampUs.toUInt32 }) = _
      rw [hzero, hmillion, htenth, hninetenths, Option.bind_some]
      by_cases htaken : 0 < ((timestampUs.toUInt32 - prev).toNat : ℚ) / 1_000_000 ∧
          ((timestampUs.toUInt32 - prev).toNat : ℚ) / 1_000_000 < 1 / 10
      · simp only [if_pos htaken]
        rfl
      · simp only [if_neg htaken]
        rfl

/-! ### One batch of the delivery rate -/

/-- The smoothed rate after a window. -/
def emaAfter (prev : Option ℚ) (rateHz : ℚ) : ℚ :=
  match prev with
  | some prev => 1 / 4 * rateHz + 3 / 4 * prev
  | none => rateHz

/-- The period of a rate, within the plausible ones. -/
def measuredTs (emaHz : ℚ) : ℚ := max (1 / 1250) (min (1 / emaHz) (1 / 40))

theorem measuredTs_pos (emaHz : ℚ) : 0 < measuredTs emaHz := lt_max_of_lt_left (by norm_num)

theorem measuredTs_le (emaHz : ℚ) : measuredTs emaHz ≤ 1 / 40 := max_le (by norm_num) (min_le_right _ _)

section Calibrate

variable {r : RateCal ℚ} {nSamples : Nat} {arrival : Instant}

theorem asSecs_lt_iff {ns limit : Nat} {secs : ℚ} (h : secs = limit / 1_000_000_000) :
    (asSecs ns : ℚ) < secs ↔ ns < limit := by
  rw [asSecs_rat, h, div_lt_div_iff_of_pos_right (by norm_num), Nat.cast_lt]

private theorem warmup_rat : (WARMUP_SECS : ℚ) = (1_500_000_000 : Nat) / 1_000_000_000 := by
  show (1.5 : ℚ) = _
  norm_num

private theorem window_rat : (WINDOW_SECS : ℚ) = (4_000_000_000 : Nat) / 1_000_000_000 := by
  show (4.0 : ℚ) = _
  norm_num

private theorem measured_rat (emaHz : ℚ) :
    Scalar.clamp ((1.0 : ℚ) / emaHz) (MIN_TS : ℚ) (MAX_TS : ℚ) = measuredTs emaHz := by
  have hone : (1.0 : ℚ) = 1 := by norm_num
  have hmin : (MIN_TS : ℚ) = 1 / 1250 := by
    show (1.0 : ℚ) / 1250.0 = _
    norm_num
  have hmax : (MAX_TS : ℚ) = 1 / 40 := by
    show (1.0 : ℚ) / 40.0 = _
    norm_num
  rw [hone, hmin, hmax, clamp_rat (by norm_num)]
  rfl

/-- The connect backlog is not counted. -/
theorem calibrateRate_warmup (hn : nSamples ≠ 0) (h : arrival - r.firstBatch.getD arrival < 1_500_000_000) :
    r.calibrateRate nSamples arrival = ({ r with firstBatch := some (r.firstBatch.getD arrival) }, none) := by
  unfold calibrateRate
  simp only [if_neg hn]
  exact if_pos ((asSecs_lt_iff warmup_rat).2 h)

/-- A window that is not long enough goes on. -/
theorem calibrateRate_counting (hn : nSamples ≠ 0) (hwarm : 1_500_000_000 ≤ arrival - r.firstBatch.getD arrival)
    (h : arrival - r.windowStart.getD arrival < 4_000_000_000) :
    r.calibrateRate nSamples arrival =
      ({ r with
        firstBatch := some (r.firstBatch.getD arrival)
        windowStart := some (r.windowStart.getD arrival)
        windowSamples := r.windowSamples + nSamples }, none) := by
  unfold calibrateRate
  simp only [if_neg hn]
  rw [if_neg (fun hlt => absurd ((asSecs_lt_iff warmup_rat).1 hlt) (not_lt.2 hwarm)),
    if_pos ((asSecs_lt_iff window_rat).2 h)]

/-- A window of 4 s closes: its rate goes into the smoothed rate, and the timestep follows. -/
theorem calibrateRate_closing (hn : nSamples ≠ 0) (hwarm : 1_500_000_000 ≤ arrival - r.firstBatch.getD arrival)
    (h : 4_000_000_000 ≤ arrival - r.windowStart.getD arrival) (hts : 0 < r.gyrTsCurrent) :
    let emaHz := emaAfter r.emaHz
      (((r.windowSamples + nSamples : Nat) : ℚ) / (((arrival - r.windowStart.getD arrival : Nat) : ℚ) / 1_000_000_000))
    (r.calibrateRate nSamples arrival).1 =
      { r with
        gyrTsCurrent := follow (1 / 20) r.gyrTsCurrent (measuredTs emaHz)
        firstBatch := some (r.firstBatch.getD arrival)
        windowStart := some arrival
        windowSamples := 0
        emaHz := some emaHz } := by
  have halpha : (EMA_ALPHA : ℚ) = 1 / 4 := by
    show (0.25 : ℚ) = _
    norm_num
  have hrest : (1.0 : ℚ) - EMA_ALPHA = 3 / 4 := by
    rw [halpha]
    norm_num
  intro emaHz
  have hema : ∀ rateHz : ℚ, emaAfter r.emaHz rateHz =
      match r.emaHz with
      | some prev => (EMA_ALPHA : ℚ) * rateHz + ((1.0 : ℚ) - EMA_ALPHA) * prev
      | none => rateHz := by
    intro rateHz
    rw [hrest, halpha]
    rfl
  have hclosed : r.calibrateRate nSamples arrival =
      ({ r with
        firstBatch := some (r.firstBatch.getD arrival)
        windowStart := some arrival
        windowSamples := 0
        emaHz := some emaHz } : RateCal ℚ).applyMeasured (measuredTs emaHz) := by
    unfold calibrateRate
    simp only [if_neg hn]
    rw [if_neg (fun hlt => absurd ((asSecs_lt_iff warmup_rat).1 hlt) (not_lt.2 hwarm)),
      if_neg (fun hlt => absurd ((asSecs_lt_iff window_rat).1 hlt) (not_lt.2 h)), asSecs_rat, ← measured_rat]
    rw [show emaHz = _ from hema _]
    cases r.emaHz with
    | none => congr 1
    | some prev => congr 1
  rw [hclosed]
  exact applyMeasured_rat _ (measuredTs_pos emaHz) hts

end Calibrate

/-! ### Batch after batch -/

theorem onBatch_rat (r : RateCal ℚ) (timestamps : List UInt64) (arrival : Instant) :
    r.onBatch timestamps arrival =
      let observed := timestamps.foldl observeHw r
      if 0 < observed.hwDtEma then observed.applyMeasured observed.hwDtEma
      else observed.calibrateRate timestamps.length arrival := by
  have hzero : (0.0 : ℚ) = 0 := by norm_num
  show (if (0.0 : ℚ) < (timestamps.foldl observeHw r).hwDtEma then _ else _) = _
  rw [hzero]

/-- The samples of an event, by their timestamps, and its arrival. -/
structure Batch where
  timestamps : List UInt64
  arrival : Instant

/-- An event with samples; one with none is ignored. -/
def handleSamples (r : RateCal ℚ) (b : Batch) : RateCal ℚ :=
  if b.timestamps.isEmpty then r else (r.onBatch b.timestamps b.arrival).1

/-- What the throughput estimator keeps. -/
def throughput (r : RateCal ℚ) : Option Instant × Option Instant × Nat × Option ℚ :=
  (r.firstBatch, r.windowStart, r.windowSamples, r.emaHz)

/-- What `corrected_timestep` divides by. -/
def correctedDivisors (measured current : ℚ) : List ℚ := if measured ≤ 0 ∨ current ≤ 0 then [] else [current]

/-- What `calibrate_rate` divides by, besides literals. -/
def calibrateDivisors (r : RateCal ℚ) (nSamples : Nat) (arrival : Instant) : List ℚ :=
  if nSamples = 0 then []
  else if asSecs (arrival - r.firstBatch.getD arrival) < (WARMUP_SECS : ℚ) then []
  else
    let elapsed : ℚ := asSecs (arrival - r.windowStart.getD arrival)
    if elapsed < WINDOW_SECS then []
    else
      let emaHz := emaAfter r.emaHz (((r.windowSamples + nSamples : Nat) : ℚ) / elapsed)
      -- the log line has the rate before and the rate after
      [elapsed, emaHz] ++ correctedDivisors (measuredTs emaHz) r.gyrTsCurrent ++
        [r.gyrTsCurrent, (r.calibrateRate nSamples arrival).1.gyrTsCurrent]

/-- What a batch divides by, besides literals. -/
def divisors (r : RateCal ℚ) (b : Batch) : List ℚ :=
  let observed := b.timestamps.foldl observeHw r
  if 0 < observed.hwDtEma then correctedDivisors observed.hwDtEma observed.gyrTsCurrent
  else observed.calibrateDivisors b.timestamps.length b.arrival

/-- What every moment of a run from the timestep `gyrTs` meets. -/
structure Valid (gyrTs : ℚ) (r : RateCal ℚ) : Prop where
  ts_pos : 0 < r.gyrTsCurrent
  ts_le : r.gyrTsCurrent ≤ max gyrTs (1 / 10)
  hwDtEma_nonneg : 0 ≤ r.hwDtEma
  hwDtEma_lt : r.hwDtEma < 1 / 10
  emaHz_pos : ∀ hz, r.emaHz = some hz → 0 < hz

section Run

variable {gyrTs : ℚ} {r : RateCal ℚ}

theorem Valid.new (h : 0 < gyrTs) : Valid gyrTs (RateCal.new gyrTs) where
  ts_pos := h
  ts_le := le_max_left gyrTs (1 / 10)
  hwDtEma_nonneg := by
    show (0 : ℚ) ≤ (0.0 : ℚ)
    norm_num
  hwDtEma_lt := by
    show (0.0 : ℚ) < 1 / 10
    norm_num
  emaHz_pos _ h := nomatch h

theorem acceptedDt_bounds {timestampUs : UInt64} {dt : ℚ} (h : r.acceptedDt timestampUs = some dt) :
    0 < dt ∧ dt < 1 / 10 := by
  unfold acceptedDt at h
  split at h
  · cases h
  · obtain ⟨prev, -, h⟩ := Option.bind_eq_some_iff.1 h
    simp only [Option.ite_none_right_eq_some, Option.some.injEq] at h
    obtain ⟨hdt, rfl⟩ := h
    exact hdt

/-- An interval that is taken keeps the smoothed period in its range, and makes it positive. -/
theorem smoothed_bounds {hwDtEma dt : ℚ} (hlt : hwDtEma < 1 / 10) (hdt : 0 < dt ∧ dt < 1 / 10) :
    0 < smoothed hwDtEma dt ∧ smoothed hwDtEma dt < 1 / 10 := by
  unfold smoothed
  split
  · exact hdt
  · rename_i hpos
    rw [not_le] at hpos
    constructor
    · linarith [hdt.1]
    · linarith [hdt.2]

theorem Valid.observeHw (h : Valid gyrTs r) (timestampUs : UInt64) : Valid gyrTs (r.observeHw timestampUs) := by
  rw [observeHw_rat]
  cases hdt : r.acceptedDt timestampUs with
  | none => exact ⟨h.ts_pos, h.ts_le, h.hwDtEma_nonneg, h.hwDtEma_lt, h.emaHz_pos⟩
  | some dt =>
    obtain ⟨hpos, hlt⟩ := smoothed_bounds h.hwDtEma_lt (acceptedDt_bounds hdt)
    exact ⟨h.ts_pos, h.ts_le, hpos.le, hlt, h.emaHz_pos⟩

theorem Valid.observeAll (h : Valid gyrTs r) (timestamps : List UInt64) :
    Valid gyrTs (timestamps.foldl RateCal.observeHw r) := by
  induction timestamps generalizing r with
  | nil => exact h
  | cons timestampUs timestamps ih => exact ih (h.observeHw timestampUs)

theorem Valid.applyMeasured {measured : ℚ} (h : Valid gyrTs r) (hpos : 0 < measured) (hle : measured ≤ 1 / 10) :
    Valid gyrTs (r.applyMeasured measured).1 := by
  rw [applyMeasured_rat r hpos h.ts_pos]
  refine ⟨follow_pos h.ts_pos hpos, ?_, h.hwDtEma_nonneg, h.hwDtEma_lt, h.emaHz_pos⟩
  show follow (1 / 20) r.gyrTsCurrent measured ≤ max gyrTs (1 / 10)
  unfold follow
  split
  · exact hle.trans (le_max_right gyrTs (1 / 10))
  · exact h.ts_le

/-- A window that closes has a length and a sample. -/
theorem emaAfter_pos {prev : Option ℚ} {rateHz : ℚ} (hprev : ∀ hz, prev = some hz → 0 < hz) (hrate : 0 < rateHz) :
    0 < emaAfter prev rateHz := by
  cases prev with
  | none => exact hrate
  | some hz =>
    have := hprev hz rfl
    show 0 < 1 / 4 * rateHz + 3 / 4 * hz
    linarith

private theorem rate_pos {samples nSamples elapsed : Nat} (hn : nSamples ≠ 0) (h : 4_000_000_000 ≤ elapsed) :
    0 < ((samples + nSamples : Nat) : ℚ) / ((elapsed : ℚ) / 1_000_000_000) := by
  have hsamples : (0 : ℚ) < ((samples + nSamples : Nat) : ℚ) := Nat.cast_pos.2 (by omega)
  have helapsed : (0 : ℚ) < (elapsed : ℚ) := Nat.cast_pos.2 (by omega)
  exact div_pos hsamples (div_pos helapsed (by norm_num))

theorem Valid.calibrateRate (h : Valid gyrTs r) (nSamples : Nat) (arrival : Instant) :
    Valid gyrTs (r.calibrateRate nSamples arrival).1 := by
  by_cases hn : nSamples = 0
  · subst hn
    exact h
  rcases Nat.lt_or_ge (arrival - r.firstBatch.getD arrival) 1_500_000_000 with hcold | hwarm
  · rw [calibrateRate_warmup hn hcold]
    exact ⟨h.ts_pos, h.ts_le, h.hwDtEma_nonneg, h.hwDtEma_lt, h.emaHz_pos⟩
  rcases Nat.lt_or_ge (arrival - r.windowStart.getD arrival) 4_000_000_000 with hcounting | hclosing
  · rw [calibrateRate_counting hn hwarm hcounting]
    exact ⟨h.ts_pos, h.ts_le, h.hwDtEma_nonneg, h.hwDtEma_lt, h.emaHz_pos⟩
  · rw [calibrateRate_closing hn hwarm hclosing h.ts_pos]
    refine ⟨follow_pos h.ts_pos (measuredTs_pos _), ?_, h.hwDtEma_nonneg, h.hwDtEma_lt, ?_⟩
    · have hle := measuredTs_le (emaAfter r.emaHz (((r.windowSamples + nSamples : Nat) : ℚ) /
        (((arrival - r.windowStart.getD arrival : Nat) : ℚ) / 1_000_000_000)))
      simp only [follow]
      split
      · exact le_max_of_le_right (by linarith)
      · exact h.ts_le
    · intro hz hhz
      obtain rfl := Option.some.inj hhz
      exact emaAfter_pos h.emaHz_pos (rate_pos hn hclosing)

theorem Valid.handleSamples (h : Valid gyrTs r) (b : Batch) : Valid gyrTs (r.handleSamples b) := by
  unfold RateCal.handleSamples
  split
  · exact h
  · have hobserved := h.observeAll b.timestamps
    rw [onBatch_rat]
    by_cases hchip : 0 < (b.timestamps.foldl RateCal.observeHw r).hwDtEma
    · simp only [if_pos hchip]
      exact hobserved.applyMeasured hchip hobserved.hwDtEma_lt.le
    · simp only [if_neg hchip]
      exact hobserved.calibrateRate _ _

theorem Valid.handleAll (h : Valid gyrTs r) (batches : List Batch) :
    Valid gyrTs (batches.foldl RateCal.handleSamples r) := by
  induction batches generalizing r with
  | nil => exact h
  | cons b batches ih => exact ih (h.handleSamples b)

/-! ### The chip clock in charge -/

theorem hwDtEma_pos_observeHw (h : Valid gyrTs r) (hpos : 0 < r.hwDtEma) (timestampUs : UInt64) :
    0 < (r.observeHw timestampUs).hwDtEma := by
  rw [observeHw_rat]
  cases hdt : r.acceptedDt timestampUs with
  | none => exact hpos
  | some dt => exact (smoothed_bounds h.hwDtEma_lt (acceptedDt_bounds hdt)).1

theorem throughput_observeHw (timestampUs : UInt64) : (r.observeHw timestampUs).throughput = r.throughput := by
  rw [observeHw_rat]
  rfl

theorem observeAll_pos (h : Valid gyrTs r) (hpos : 0 < r.hwDtEma) (timestamps : List UInt64) :
    0 < (timestamps.foldl RateCal.observeHw r).hwDtEma ∧
      (timestamps.foldl RateCal.observeHw r).throughput = r.throughput := by
  induction timestamps generalizing r with
  | nil => exact ⟨hpos, rfl⟩
  | cons timestampUs timestamps ih =>
    obtain ⟨hpos', hsame⟩ := ih (h.observeHw timestampUs) (hwDtEma_pos_observeHw h hpos timestampUs)
    exact ⟨hpos', hsame.trans (throughput_observeHw timestampUs)⟩

/-- One more batch under the chip clock. -/
theorem handleSamples_pos (h : Valid gyrTs r) (hpos : 0 < r.hwDtEma) (b : Batch) :
    0 < (r.handleSamples b).hwDtEma ∧ (r.handleSamples b).throughput = r.throughput ∧
      ((r.handleSamples b).gyrTsCurrent = r.gyrTsCurrent ∨
        (r.handleSamples b).gyrTsCurrent = (r.handleSamples b).hwDtEma) := by
  unfold RateCal.handleSamples
  split
  · exact ⟨hpos, rfl, .inl rfl⟩
  · obtain ⟨hchip, hsame⟩ := observeAll_pos h hpos b.timestamps
    have hts := gyrTsCurrent_observeAll r b.timestamps
    rw [onBatch_rat]
    simp only [if_pos hchip]
    rw [applyMeasured_rat _ hchip (by rw [hts]; exact h.ts_pos)]
    refine ⟨hchip, hsame, ?_⟩
    simp only [follow, hts]
    split
    · exact .inr rfl
    · exact .inl rfl

/-- The delivery rate is out of play from a period of the chip clock on. -/
theorem handleAll_pos (h : Valid gyrTs r) (hpos : 0 < r.hwDtEma) (later : List Batch) :
    0 < (later.foldl RateCal.handleSamples r).hwDtEma ∧
      (later.foldl RateCal.handleSamples r).throughput = r.throughput := by
  induction later generalizing r with
  | nil => exact ⟨hpos, rfl⟩
  | cons b later ih =>
    obtain ⟨hpos', hsame, -⟩ := handleSamples_pos h hpos b
    obtain ⟨hlater, hsame'⟩ := ih (h.handleSamples b) hpos'
    exact ⟨hlater, hsame'.trans hsame⟩

/-! ### No division by zero -/

private theorem correctedDivisors_ne_zero {measured current : ℚ} (hc : 0 < current) :
    ∀ d ∈ correctedDivisors measured current, d ≠ 0 := by
  intro d hd
  unfold correctedDivisors at hd
  split at hd
  · cases hd
  · obtain rfl := List.mem_singleton.1 hd
    exact hc.ne'

theorem Valid.calibrateDivisors_ne_zero (h : Valid gyrTs r) (nSamples : Nat) (arrival : Instant) :
    ∀ d ∈ r.calibrateDivisors nSamples arrival, d ≠ 0 := by
  intro d hd
  have hafter := (h.calibrateRate nSamples arrival).ts_pos
  unfold calibrateDivisors at hd
  by_cases hn : nSamples = 0
  · rw [if_pos hn] at hd
    cases hd
  rw [if_neg hn] at hd
  split at hd
  · cases hd
  by_cases hopen : (asSecs (arrival - r.windowStart.getD arrival) : ℚ) < WINDOW_SECS
  · simp only [if_pos hopen] at hd
    cases hd
  · have hlong : 4_000_000_000 ≤ arrival - r.windowStart.getD arrival :=
      not_lt.1 fun hlt => hopen ((asSecs_lt_iff window_rat).2 hlt)
    have helapsed : (0 : ℚ) < ((arrival - r.windowStart.getD arrival : Nat) : ℚ) / 1_000_000_000 :=
      div_pos (Nat.cast_pos.2 (lt_of_lt_of_le (by norm_num) hlong)) (by norm_num)
    simp only [if_neg hopen] at hd
    simp only [List.mem_append, List.mem_cons, List.not_mem_nil, or_false, asSecs_rat] at hd
    rcases hd with (((rfl | rfl) | hd) | rfl | rfl)
    · exact helapsed.ne'
    · exact (emaAfter_pos h.emaHz_pos (rate_pos hn hlong)).ne'
    · exact correctedDivisors_ne_zero h.ts_pos d hd
    · exact h.ts_pos.ne'
    · exact hafter.ne'

theorem Valid.divisors_ne_zero (h : Valid gyrTs r) (b : Batch) : ∀ d ∈ r.divisors b, d ≠ 0 := by
  intro d hd
  have hobserved := h.observeAll b.timestamps
  unfold divisors at hd
  simp only at hd
  split at hd
  · exact correctedDivisors_ne_zero hobserved.ts_pos d hd
  · exact hobserved.calibrateDivisors_ne_zero _ _ d hd

/-- Whatever arrives whenever, at every moment of a run, between the batches and between the samples of a batch: the
timestep is positive and at most its first value or 0.1 s, the period of the chip clock is in its range and keeps the
delivery rate out of play, and nothing is divided by zero. -/
theorem timestep_valid (nativeRateHz : ℚ) (hrate : 1 ≤ nativeRateHz) (batches : List Batch)
    (timestamps : List UInt64) :
    let r := timestamps.foldl RateCal.observeHw
      (batches.foldl RateCal.handleSamples (RateCal.new (1 / nativeRateHz)))
    (0 < r.gyrTsCurrent ∧ r.gyrTsCurrent ≤ max (1 / nativeRateHz) (1 / 10)) ∧
      (0 ≤ r.hwDtEma ∧ r.hwDtEma < 1 / 10) ∧
      (0 < r.hwDtEma → ∀ (later : List Batch) (b : Batch),
        let s := later.foldl RateCal.handleSamples r
        (s.handleSamples b).throughput = r.throughput ∧
          ((s.handleSamples b).gyrTsCurrent = s.gyrTsCurrent ∨
            (s.handleSamples b).gyrTsCurrent = (s.handleSamples b).hwDtEma)) ∧
      nativeRateHz ≠ 0 ∧ ∀ b, ∀ d ∈ r.divisors b, d ≠ 0 := by
  intro r
  have hnative : 0 < nativeRateHz := by linarith
  have hstart : Valid (1 / nativeRateHz) (RateCal.new (1 / nativeRateHz)) := Valid.new (one_div_pos.2 hnative)
  have hr : Valid (1 / nativeRateHz) r := (hstart.handleAll batches).observeAll timestamps
  refine ⟨⟨hr.ts_pos, hr.ts_le⟩, ⟨hr.hwDtEma_nonneg, hr.hwDtEma_lt⟩, fun hpos later b => ?_, hnative.ne',
    hr.divisors_ne_zero⟩
  obtain ⟨hlater, hsame⟩ := handleAll_pos hr hpos later
  obtain ⟨-, hsame', hts⟩ := handleSamples_pos (hr.handleAll later) hlater b
  exact ⟨hsame'.trans hsame, hts⟩

/-- Two batches, their timestamps 4 ms apart, at 250 Hz. -/
theorem timestep_valid_chip :
    let r := [0, 9000].foldl RateCal.observeHw
      ([⟨[1000, 5000], 7⟩].foldl RateCal.handleSamples (RateCal.new (1 / 250)))
    0 < r.gyrTsCurrent ∧ r.gyrTsCurrent ≤ max (1 / 250) (1 / 10) :=
  (timestep_valid 250 (by norm_num) [⟨[1000, 5000], 7⟩] [0, 9000]).1

end Run

end RateCal

end EverythingImu.Core
