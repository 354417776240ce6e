import EverythingImu.DeviceTraits
import EverythingImu.Library.Scalar

/-!
# The fusion timestep

How the pipeline keeps the timestep of its filter at the real period of the samples (`pipeline.rs`): from the
hardware timestamps of the samples when they have them, else from the delivery rate over windows of wall-clock time
(`calibrate_rate`).  The definitions are over a scalar `K`; the pipeline takes doubles.
-/

namespace EverythingImu.Core

variable {K : Type} [Scalar K]

structure RateCal (K : Type) where
  /-- The timestep in the filter, in seconds per sample. -/
  gyrTsCurrent : K
  firstBatch : Option Instant
  windowStart : Option Instant
  windowSamples : Nat
  emaHz : Option K
  lastHwTsUs : Option UInt32
  hwDtEma : K

def RateCal.new (gyrTs : K) : RateCal K := ⟨gyrTs, none, none, 0, none, none, 0.0⟩

/-- `as_secs_f64` of a number of nanoseconds. -/
def asSecs (ns : Nat) : K := ((ns / 1_000_000_000 : Nat) : K) + ((ns % 1_000_000_000 : Nat) : K) / 1_000_000_000.0

/-- The measured period, when it differs from the current timestep by more than `threshold` of it. -/
def correctedTimestep (measuredTs currentTs threshold : K) : Option K :=
  if measuredTs ≤ 0.0 ∨ currentTs ≤ 0.0 then none
  else
    let rel := Scalar.abs (measuredTs - currentTs) / currentTs
    if threshold < rel then some measuredTs else none

namespace RateCal

variable (r : RateCal K)

/-- Take in the hardware timestamp of one sample; 0 means that it has none. -/
def observeHw (timestampUs : UInt64) : RateCal K :=
  if timestampUs = 0 then r
  else
    let cur := timestampUs.toUInt32
    match r.lastHwTsUs with
    | none => { r with lastHwTsUs := some cur }
    | some prev =>
      let dt : K := ((cur - prev).toNat : K) / 1_000_000.0
      if 0.0 < dt ∧ dt < 0.1 then
        { r with
          lastHwTsUs := some cur
          hwDtEma := if r.hwDtEma ≤ 0.0 then dt else 0.1 * dt + 0.9 * r.hwDtEma }
      else { r with lastHwTsUs := some cur }

def MIN_TS : K := 1.0 / 1250.0
def MAX_TS : K := 1.0 / 40.0
def WARMUP_SECS : K := 1.5
def WINDOW_SECS : K := 4.0
def EMA_ALPHA : K := 0.25
def APPLY_THRESHOLD : K := 0.05

/-- Apply a measured period: the new state and the timestep that goes to the filter, if it changes. -/
def applyMeasured (measuredTs : K) : RateCal K × Option K :=
  match correctedTimestep measuredTs r.gyrTsCurrent APPLY_THRESHOLD with
  | some ts => ({ r with gyrTsCurrent := ts }, some ts)
  | none => (r, none)

/-- Count the samples of a batch; each window of sufficient length yields a rate. -/
def calibrateRate (nSamples : Nat) (arrival : Instant) : RateCal K × Option K :=
  if nSamples = 0 then (r, none)
  else
    let first := r.firstBatch.getD arrival
    let r := { r with firstBatch := some first }
    if asSecs (arrival - first) < (WARMUP_SECS : K) then (r, none)
    else
      let windowStart := r.windowStart.getD arrival
      let r := { r with windowStart := some windowStart, windowSamples := r.windowSamples + nSamples }
      let elapsed : K := asSecs (arrival - windowStart)
      if elapsed < WINDOW_SECS then (r, none)
      else
        let rateHz := (r.windowSamples : K) / elapsed
        let emaHz :=
          match r.emaHz with
          | some prev => EMA_ALPHA * rateHz + (1.0 - EMA_ALPHA) * prev
          | none => rateHz
        let r := { r with windowStart := some arrival, windowSamples := 0, emaHz := some emaHz }
        r.applyMeasured (Scalar.clamp (1.0 / emaHz) MIN_TS MAX_TS)

/-- The timestep part of one batch: the chip clock drives the timestep once it has a period, else the delivery rate
does. -/
def onBatch (timestamps : List UInt64) (arrival : Instant) : RateCal K × Option K :=
  let r := timestamps.foldl observeHw r
  if 0.0 < r.hwDtEma then r.applyMeasured r.hwDtEma else r.calibrateRate timestamps.length arrival

/-! ### The chip clock -/

/-- What the hardware timestamps leave behind: the last one and the smoothed period. -/
def chipClock : Option UInt32 × K := (r.lastHwTsUs, r.hwDtEma)

omit [Scalar K] in
theorem hwDtEma_eq_of_chipClock {r r' : RateCal K} (h : r.chipClock = r'.chipClock) : r.hwDtEma = r'.hwDtEma :=
  congrArg Prod.snd h

@[simp] theorem gyrTsCurrent_observeHw (timestampUs : UInt64) :
    (r.observeHw timestampUs).gyrTsCurrent = r.gyrTsCurrent := by
  unfold observeHw
  split
  · rfl
  · cases r.lastHwTsUs with
    | none => rfl
    | some prev =>
      simp only
      split <;> rfl

@[simp] theorem gyrTsCurrent_observeAll (timestamps : List UInt64) :
    (timestamps.foldl observeHw r).gyrTsCurrent = r.gyrTsCurrent := by
  induction timestamps generalizing r with
  | nil => rfl
  | cons timestampUs timestamps ih => rw [List.foldl_cons, ih, gyrTsCurrent_observeHw]

@[simp] theorem chipClock_applyMeasured (measuredTs : K) : (r.applyMeasured measuredTs).1.chipClock = r.chipClock := by
  unfold applyMeasured
  split <;> rfl

/-- The timestep that is in the filter decides with the measured one. -/
theorem applyMeasured_congr {r r' : RateCal K} (h : r.gyrTsCurrent = r'.gyrTsCurrent) (measuredTs : K) :
    (r.applyMeasured measuredTs).2 = (r'.applyMeasured measuredTs).2 ∧
      (r.applyMeasured measuredTs).1.gyrTsCurrent = (r'.applyMeasured measuredTs).1.gyrTsCurrent := by
  unfold applyMeasured
  rw [h]
  split
  · exact ⟨rfl, rfl⟩
  · exact ⟨rfl, h⟩

@[simp] theorem chipClock_calibrateRate (nSamples : Nat) (arrival : Instant) :
    (r.calibrateRate nSamples arrival).1.chipClock = r.chipClock := by
  unfold calibrateRate
  split
  · rfl
  · simp only
    split
    · rfl
    · split
      · rfl
      · rw [chipClock_applyMeasured]
        rfl

/-- A window that does not retime the filter leaves its timestep. -/
theorem gyrTsCurrent_calibrateRate {nSamples : Nat} {arrival : Instant}
    (h : (r.calibrateRate nSamples arrival).2 = none) :
    (r.calibrateRate nSamples arrival).1.gyrTsCurrent = r.gyrTsCurrent := by
  revert h
  unfold calibrateRate
  split
  · exact fun _ => rfl
  · simp only
    split
    · exact fun _ => rfl
    · split
      · exact fun _ => rfl
      · unfold applyMeasured
        split
        · intro h
          cases h
        · exact fun _ => rfl

/-- The timestamps alone move the chip clock. -/
theorem chipClock_observeHw {r r' : RateCal K} (h : r.chipClock = r'.chipClock) (timestampUs : UInt64) :
    (r.observeHw timestampUs).chipClock = (r'.observeHw timestampUs).chipClock := by
  obtain ⟨hlast, hema⟩ : r.lastHwTsUs = r'.lastHwTsUs ∧ r.hwDtEma = r'.hwDtEma := by
    simpa only [chipClock, Prod.mk.injEq] using h
  unfold observeHw
  rw [hlast, hema]
  split
  · exact h
  · cases r'.lastHwTsUs with
    | none => simp only [chipClock]
    | some prev =>
      simp only
      split <;> simp only [chipClock]

theorem chipClock_observeAll {r r' : RateCal K} (h : r.chipClock = r'.chipClock) (timestamps : List UInt64) :
    (timestamps.foldl observeHw r).chipClock = (timestamps.foldl observeHw r').chipClock := by
  induction timestamps generalizing r r' with
  | nil => exact h
  | cons timestampUs timestamps ih => exact ih (chipClock_observeHw h timestampUs)

end RateCal

end EverythingImu.Core
