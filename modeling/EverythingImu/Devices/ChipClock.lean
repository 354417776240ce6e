import EverythingImu.Core.ExactTimestep
import EverythingImu.Devices.Sony
import Mathlib.Data.List.Chain

/-!
# Intervals of the chip clock

A DualSense counts thirds of a microsecond in 32 bits, and its reports are stamped with the microseconds of that count.
The pipeline takes the difference of two stamps as 32-bit words and drops it from 0.1 s on.  Behind a wrap of the
counter the stamps go down, and what the difference wraps to is far longer than that; so every interval that is taken
is the true one (`acceptedDt_true`).
-/

namespace EverythingImu.Sony.DualSense

open EverythingImu.Core LittleEndian

/-- A report of a DualSense, with the whole count of its chip: the counter in the report holds 32 bits of it. -/
structure StampedReport where
  kind : ControllerKind
  isDualSense : kind ≠ .dualShock4
  buf : List UInt8
  offsets : ImuOffsets
  ticks : Nat
  counter : readU32Le buf (offsets.accel + 6) = some (UInt32.ofNat ticks)

namespace StampedReport

/-- The timestamp of the sample. -/
def timestampUs (r : StampedReport) : UInt64 := sensorTimestampUs r.kind r.buf r.offsets

theorem timestampUs_eq (r : StampedReport) : r.timestampUs = ((UInt32.ofNat r.ticks).toUInt64 + 1) / 3 := by
  unfold timestampUs sensorTimestampUs
  cases hkind : r.kind with
  | dualSense => simp only [r.counter]
  | dualSenseEdge => simp only [r.counter]
  | dualShock4 => exact absurd hkind r.isDualSense

theorem toNat_timestampUs (r : StampedReport) : r.timestampUs.toNat = (r.ticks % 2 ^ 32 + 1) / 3 := by
  rw [timestampUs_eq, UInt64.toNat_div, UInt64.toNat_add, UInt32.toNat_toUInt64, UInt32.toNat_ofNat']
  show (r.ticks % 2 ^ 32 + 1) % 2 ^ 64 / 3 = (r.ticks % 2 ^ 32 + 1) / 3
  omega

/-- Zero means that there is no timestamp. -/
def isStamped (r : StampedReport) : Bool := r.timestampUs ≠ 0

end StampedReport

/-- The last report with a timestamp. -/
def lastStamped (history : List StampedReport) : Option StampedReport := (history.filter (·.isStamped)).getLast?

/-- One report with a timestamp after the other is less than a wrap of the counter later. -/
def LessThanWrap (history : List StampedReport) : Prop :=
  (history.filter (·.isStamped)).IsChain fun p r => p.ticks ≤ r.ticks ∧ r.ticks < p.ticks + 0x100000000

/-- The samples of the reports, one after the other, in whatever batches they come. -/
def observeReports (r : RateCal ℚ) (reports : List StampedReport) : RateCal ℚ :=
  (reports.map (·.timestampUs)).foldl RateCal.observeHw r

/-- The batches of a session, one after the other. -/
def handleReports (r : RateCal ℚ) (batches : List (List StampedReport × Instant)) : RateCal ℚ :=
  batches.foldl (fun r b => r.handleSamples ⟨b.1.map (·.timestampUs), b.2⟩) r

section Clock

variable {r : RateCal ℚ} {history : List StampedReport}

theorem lastStamped_concat (report : StampedReport) :
    lastStamped (history ++ [report]) = if report.isStamped then some report else lastStamped history := by
  unfold lastStamped
  rw [List.filter_append]
  by_cases hstamped : report.isStamped = true
  · rw [if_pos hstamped, List.filter_cons_of_pos hstamped, List.filter_nil, List.getLast?_concat]
  · rw [if_neg hstamped, List.filter_cons_of_neg hstamped, List.filter_nil, List.append_nil]

/-- The clock has seen the reports of the history. -/
def Seen (history : List StampedReport) (r : RateCal ℚ) : Prop :=
  r.lastHwTsUs = (lastStamped history).map fun p => p.timestampUs.toUInt32

theorem Seen.new (gyrTs : ℚ) : Seen [] (RateCal.new gyrTs) := rfl

theorem Seen.observe (h : Seen history r) (report : StampedReport) :
    Seen (history ++ [report]) (r.observeHw report.timestampUs) := by
  unfold Seen at *
  rw [RateCal.observeHw_rat, lastStamped_concat]
  by_cases hnone : report.timestampUs = 0
  · have hstamped : ¬ report.isStamped = true := by simp [StampedReport.isStamped, hnone]
    simp only [if_pos hnone, if_neg hstamped]
    exact h
  · have hstamped : report.isStamped = true := by simp [StampedReport.isStamped, hnone]
    simp only [if_neg hnone, if_pos hstamped]
    rfl

theorem Seen.observeReports (h : Seen history r) (reports : List StampedReport) :
    Seen (history ++ reports) (observeReports r reports) := by
  induction reports generalizing history r with
  | nil => rwa [List.append_nil]
  | cons report reports ih =>
    have hnext := ih (h.observe report)
    rwa [List.append_assoc, List.singleton_append] at hnext

/-- What the pipeline makes of a batch besides leaves the last timestamp. -/
theorem lastHwTsUs_handleSamples (b : RateCal.Batch) :
    (r.handleSamples b).lastHwTsUs = (b.timestamps.foldl RateCal.observeHw r).lastHwTsUs := by
  unfold RateCal.handleSamples
  split
  · rename_i hnil
    rw [List.isEmpty_iff.1 hnil]
    rfl
  · have hclock : (r.onBatch b.timestamps b.arrival).1.chipClock =
        (b.timestamps.foldl RateCal.observeHw r).chipClock := by
      unfold RateCal.onBatch
      simp only
      split
      · rw [RateCal.chipClock_applyMeasured]
      · rw [RateCal.chipClock_calibrateRate]
    exact congrArg Prod.fst hclock

theorem Seen.handleReports (h : Seen history r) (batches : List (List StampedReport × Instant)) :
    Seen (history ++ batches.flatMap Prod.fst) (handleReports r batches) := by
  induction batches generalizing history r with
  | nil => rwa [List.flatMap_nil, List.append_nil]
  | cons b batches ih =>
    have hbatch : Seen (history ++ b.1) (r.handleSamples ⟨b.1.map (·.timestampUs), b.2⟩) := by
      have hobserved := h.observeReports b.1
      unfold Seen at *
      rw [lastHwTsUs_handleSamples]
      exact hobserved
    have hnext := ih hbatch
    rwa [List.append_assoc] at hnext

/-- Two stamps less than a wrap apart: an interval that is short enough is that of the counts, to within a tick. -/
theorem stamps_sub {p report : StampedReport} (hle : p.ticks ≤ report.ticks)
    (hlt : report.ticks < p.ticks + 0x100000000)
    (hpos : 0 < (report.timestampUs.toUInt32 - p.timestampUs.toUInt32).toNat)
    (hshort : (report.timestampUs.toUInt32 - p.timestampUs.toUInt32).toNat < 100_000) :
    report.ticks / 0x100000000 = p.ticks / 0x100000000 ∧
      3 * (report.timestampUs.toUInt32 - p.timestampUs.toUInt32).toNat < report.ticks - p.ticks + 3 ∧
      report.ticks - p.ticks < 3 * (report.timestampUs.toUInt32 - p.timestampUs.toUInt32).toNat + 3 := by
  have hsub : (report.timestampUs.toUInt32 - p.timestampUs.toUInt32).toNat =
      (0x100000000 - (p.ticks % 0x100000000 + 1) / 3 + (report.ticks % 0x100000000 + 1) / 3) % 0x100000000 := by
    have hstamp : ∀ r : StampedReport, r.timestampUs.toUInt32.toNat = (r.ticks % 0x100000000 + 1) / 3 := by
      intro r
      rw [UInt64.toNat_toUInt32, r.toNat_timestampUs]
      show (r.ticks % 0x100000000 + 1) / 3 % 0x100000000 = _
      omega
    rw [UInt32.toNat_sub, hstamp, hstamp]
  rw [hsub] at hpos hshort ⊢
  omega

end Clock

/-- A third of the counts, to within a tick, is the time to within a microsecond. -/
theorem interval_close {p t n : Nat} (hle : p ≤ t) (hupper : 3 * n < t - p + 3) (hlower : t - p < 3 * n + 3) :
    |(n : ℚ) / 1_000_000 - ((t : ℚ) - p) / 3_000_000| < 1 / 1_000_000 := by
  have hupper' : 3 * (n : ℚ) < t - p + 3 := by
    have hcast : ((3 * n : Nat) : ℚ) < ((t - p + 3 : Nat) : ℚ) := Nat.cast_lt.2 hupper
    push_cast [Nat.cast_sub hle] at hcast
    exact hcast
  have hlower' : (t : ℚ) - p < 3 * n + 3 := by
    have hcast : ((t - p : Nat) : ℚ) < ((3 * n + 3 : Nat) : ℚ) := Nat.cast_lt.2 hlower
    push_cast [Nat.cast_sub hle] at hcast
    exact hcast
  rw [abs_lt]
  constructor
  · linarith
  · linarith

/-- Every interval that the pipeline takes from a report, whatever came before and in whatever batches, is the time
since the last report with a timestamp, to within a microsecond; and the counter has not wrapped in between. -/
theorem acceptedDt_true (gyrTs : ℚ) (batches : List (List StampedReport × Instant)) (before : List StampedReport)
    (report : StampedReport) (h : LessThanWrap (batches.flatMap Prod.fst ++ before ++ [report])) (dt : ℚ)
    (hdt : (observeReports (handleReports (RateCal.new gyrTs) batches) before).acceptedDt report.timestampUs =
      some dt) :
    ∃ p, lastStamped (batches.flatMap Prod.fst ++ before) = some p ∧
      |dt - ((report.ticks : ℚ) - p.ticks) / 3_000_000| < 1 / 1_000_000 ∧
      report.ticks / 0x100000000 = p.ticks / 0x100000000 := by
  have hseen := ((Seen.new gyrTs).handleReports batches).observeReports before
  rw [List.nil_append] at hseen
  have hbounds := RateCal.acceptedDt_bounds hdt
  unfold RateCal.acceptedDt at hdt
  split at hdt
  · cases hdt
  rename_i hstamp
  obtain ⟨prev, hprev, hdt⟩ := Option.bind_eq_some_iff.1 hdt
  rw [hseen] at hprev
  obtain ⟨p, hp, rfl⟩ := Option.map_eq_some_iff.1 hprev
  simp only [Option.ite_none_right_eq_some, Option.some.injEq] at hdt
  obtain ⟨-, rfl⟩ := hdt
  refine ⟨p, hp, ?_⟩
  have hstamped : report.isStamped = true := by simp [StampedReport.isStamped, hstamp]
  obtain ⟨hle, hlt⟩ : p.ticks ≤ report.ticks ∧ report.ticks < p.ticks + 0x100000000 := by
    unfold LessThanWrap at h
    rw [List.filter_append, List.filter_cons_of_pos hstamped, List.filter_nil, List.isChain_append] at h
    exact h.2.2 p hp report rfl
  generalize hn : (report.timestampUs.toUInt32 - p.timestampUs.toUInt32).toNat = n at hbounds
  have hpos : 0 < n := by
    have := (div_pos_iff_of_pos_right (show (0 : ℚ) < 1_000_000 by norm_num)).1 hbounds.1
    exact_mod_cast this
  have hshort : n < 100_000 := by
    have := (div_lt_iff₀ (show (0 : ℚ) < 1_000_000 by norm_num)).1 hbounds.2
    have hcast : (n : ℚ) < 100_000 := by linarith
    exact_mod_cast hcast
  obtain ⟨hwrap, hupper, hlower⟩ := stamps_sub hle hlt (by rwa [hn]) (by rwa [hn])
  rw [hn] at hupper hlower
  exact ⟨interval_close hle hupper hlower, hwrap⟩

/-- A USB report with the given count. -/
def usbReport (ticks : Nat) (b₀ b₁ b₂ b₃ : UInt8)
    (h : u32FromLe b₀ b₁ b₂ b₃ = UInt32.ofNat ticks) : StampedReport where
  kind := .dualSense
  isDualSense := nofun
  buf := List.replicate 28 0 ++ [b₀, b₁, b₂, b₃]
  offsets := ⟨16, 22, some 53, some 10⟩
  ticks
  counter := by
    rw [← h]
    rfl

/-- 4 ms apart: 12000 thirds of a microsecond. -/
theorem acceptedDt_true_4ms :
    let first := usbReport 3 3 0 0 0 (by decide)
    let report := usbReport 12003 0xE3 0x2E 0 0 (by decide)
    ∃ p, lastStamped [first] = some p ∧
      |(1 / 250 : ℚ) - ((report.ticks : ℚ) - p.ticks) / 3_000_000| < 1 / 1_000_000 ∧
      report.ticks / 0x100000000 = p.ticks / 0x100000000 := by
  intro first report
  refine acceptedDt_true (1 / 250) [([first], 0)] [] report ?_ (1 / 250) ?_
  · unfold LessThanWrap
    decide
  · decide +kernel

end EverythingImu.Sony.DualSense
