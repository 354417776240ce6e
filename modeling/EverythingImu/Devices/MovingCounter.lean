import EverythingImu.Devices.HostClock
import EverythingImu.Library.Binary64

/-!
# A counter that moves

The delivery rate times the filter only until the chip clock has a period.  When the counter of the chip has moved by
the second sample, the chip clock has a period from then on (`timed_observeHw`), and before it the delivery rate is
still in its warm-up (`calibrateRate_first`).  So for reports that start with a moving counter the timesteps set from
`hw_dt_ema` do not depend on the times of the host, whatever the counter does later (`hwTimesteps_eq_of_moves`).
-/

namespace EverythingImu.Devices

open EverythingImu.Core FloatRound Transducer

/-- The microseconds from one timestamp to the next on the 32-bit counter of the chip. -/
def ticks (a b : UInt64) : Nat := (b.toUInt32 - a.toUInt32).toNat

/-- `b` is stamped, less than a tenth of a second after `a`. -/
def MovesTo (a b : UInt64) : Prop := b ≠ 0 ∧ 0 < ticks a b ∧ ticks a b < 100_000

instance (a b : UInt64) : Decidable (MovesTo a b) := inferInstanceAs (Decidable (_ ∧ _))

/-- The counter moves from the first sample to the second. -/
def MovesAtStart : List UInt64 → Prop
  | a :: b :: _ => a ≠ 0 ∧ MovesTo a b
  | [a] => a ≠ 0
  | [] => True

instance : DecidablePred MovesAtStart
  | _ :: _ :: _ => inferInstanceAs (Decidable (_ ∧ _))
  | [_] => inferInstanceAs (Decidable (_ ≠ _))
  | [] => inferInstanceAs (Decidable True)

theorem MovesAtStart.head {a : UInt64} {timestamps : List UInt64} (h : MovesAtStart (a :: timestamps)) :
    a ≠ 0 ∧ ∀ b ∈ timestamps.head?, MovesTo a b := by
  cases timestamps with
  | nil => exact ⟨h, fun _ hb => nomatch hb⟩
  | cons b timestamps =>
    refine ⟨h.1, fun c hc => ?_⟩
    obtain rfl := Option.some_inj.1 hc
    exact h.2

/-! ### The smoothed period -/

theorem between_tenth : Between (9_999_999 / 10 ^ 8) (10_000_001 / 10 ^ 8) 0.1 :=
  between_of_unpack 7205759403792794 (-56) (by decide) rfl (by norm_num) (by norm_num)

theorem between_nine_tenths : Between (89_999_999 / 10 ^ 8) (90_000_001 / 10 ^ 8) 0.9 :=
  between_of_unpack 8106479329266893 (-53) (by decide) rfl (by norm_num) (by norm_num)

theorem between_million : Between (10 ^ 6) (10 ^ 6) 1_000_000.0 :=
  between_of_unpack 8589934592000000 (-33) (by decide) rfl (by norm_num) (by norm_num)

/-- The time that a counter of microseconds measures when it moves. -/
theorem between_period {n top : Nat} (hpos : 0 < n) (hn : n ≤ top) (htop : top ≤ 2 ^ 32) :
    Between (9 / 10 ^ 7) (top * (1 + 3 * roundingError) / 10 ^ 6 * (1 + roundingError))
      (Float.ofNat n / 1_000_000.0) := by
  have hbound : (top : ℚ) ≤ 2 ^ 32 := by exact_mod_cast htop
  have hcount : Between (1 * (1 - 3 * roundingError)) (top * (1 + 3 * roundingError)) (Float.ofNat n) :=
    between_ofNat (by omega) le_rfl (by exact_mod_cast hpos) (by exact_mod_cast hn) (hbound.trans (by norm_num))
  refine (hcount.div between_million ?_ (by norm_num) ?_ ?_).widen ?_ le_rfl
  · norm_num [roundingError]
  · norm_num [roundingError]
  · calc top * (1 + 3 * roundingError) / 10 ^ 6 ≤ 2 ^ 32 * (1 + 3 * roundingError) / 10 ^ 6 := by
          gcongr
          norm_num [roundingError]
      _ ≤ 10 ^ 50 := by norm_num [roundingError]
  · norm_num [roundingError]

/-- The chip clock has a period: the bounds keep it clear of zero. -/
def Timed (r : RateCal Float) : Prop := Between (1 / 2_000_000) (1 / 2) r.hwDtEma

theorem Timed.pos {r : RateCal Float} (h : Timed r) : 0.0 < r.hwDtEma := between_zero.lt h (by norm_num)

theorem Timed.not_nonpos {r : RateCal Float} (h : Timed r) : ¬ r.hwDtEma ≤ 0.0 := between_zero.not_le h (by norm_num)

theorem between_smoothed {dt ema : Float} (hdt : Between (9 / 10 ^ 7) (2 / 10) dt)
    (hema : Between (1 / 2_000_000) (1 / 2) ema) : Between (1 / 2_000_000) (1 / 2) (0.1 * dt + 0.9 * ema) := by
  have hnew := (between_tenth.mul hdt (by norm_num) (by norm_num) (by norm_num) (by norm_num)).widen
    (c := 8 / 10 ^ 8) (d := 3 / 100) (by norm_num [roundingError]) (by norm_num [roundingError])
  have hold := (between_nine_tenths.mul hema (by norm_num) (by norm_num) (by norm_num) (by norm_num)).widen
    (c := 44 / 10 ^ 8) (d := 46 / 100) (by norm_num [roundingError]) (by norm_num [roundingError])
  exact (hnew.add hold (by norm_num) (by norm_num)).widen (by norm_num [roundingError]) (by norm_num [roundingError])

/-- A period that the chip clock accepts. -/
theorem between_of_accepted {n : Nat} (hn : n < 2 ^ 32) (hpos : 0.0 < Float.ofNat n / 1_000_000.0)
    (hlt : Float.ofNat n / 1_000_000.0 < 0.1) : Between (9 / 10 ^ 7) (2 / 10) (Float.ofNat n / 1_000_000.0) := by
  have hne : 0 < n := by
    rcases Nat.eq_zero_or_pos n with rfl | h
    · exact absurd hpos (by decide)
    · exact h
  exact ((between_period hne hn.le le_rfl).of_lt hlt between_tenth).widen le_rfl (by norm_num)

theorem timed_observeHw {r : RateCal Float} (h : Timed r) (t : UInt64) : Timed (r.observeHw t) := by
  unfold RateCal.observeHw
  split
  · exact h
  · cases r.lastHwTsUs with
    | none => exact h
    | some prev =>
      dsimp only
      split
      · rename_i hdt
        unfold Timed
        dsimp only
        rw [if_neg h.not_nonpos]
        exact between_smoothed (between_of_accepted (t.toUInt32 - prev).toNat_lt hdt.1 hdt.2) h
      · exact h

/-- A counter that moves gives the first period. -/
theorem timed_of_movesTo {r : RateCal Float} {a b : UInt64} (hlast : r.lastHwTsUs = some a.toUInt32)
    (hema : r.hwDtEma = 0.0) (hb : MovesTo a b) : Timed (r.observeHw b) := by
  obtain ⟨hne, hpos, hlt⟩ := hb
  have hdt := between_period hpos (Nat.le_of_lt_succ hlt) (by norm_num)
  have hpos : 0.0 < Float.ofNat (ticks a b) / 1_000_000.0 := between_zero.lt hdt (by norm_num)
  have hlt : Float.ofNat (ticks a b) / 1_000_000.0 < 0.1 := hdt.lt between_tenth (by norm_num [roundingError])
  unfold RateCal.observeHw
  rw [if_neg hne, hlast]
  dsimp only
  rw [if_pos ⟨hpos, hlt⟩, hema, if_pos (by decide)]
  exact hdt.widen (by norm_num) (by norm_num [roundingError])

theorem timed_observeAll {r : RateCal Float} (h : Timed r) (timestamps : List UInt64) :
    Timed (timestamps.foldl RateCal.observeHw r) := by
  induction timestamps generalizing r with
  | nil => exact h
  | cons t timestamps ih => exact ih (timed_observeHw h t)

/-! ### Batches of a counter that moves -/

/-- How far the clocks are before the timestamps `rest`. -/
inductive Ready (r : RateCal Float) (rest : List UInt64) : Prop where
  | fresh (hlast : r.lastHwTsUs = none) (hema : r.hwDtEma = 0.0) (hfirst : r.firstBatch = none)
      (hrest : MovesAtStart rest)
  | stamped (a : UInt64) (hlast : r.lastHwTsUs = some a.toUInt32) (hema : r.hwDtEma = 0.0)
      (hrest : ∀ b ∈ rest.head?, MovesTo a b)
  | timed (h : Timed r)

/-- The chip clock drives a batch that leaves a period. -/
theorem retimed_of_timed {r : RateCal Float} (a : UInt64) (timestamps : List UInt64)
    (h : Timed (timestamps.foldl RateCal.observeHw (r.observeHw a))) (arrival : Instant) (rest : List UInt64) :
    (timeBatch r (a :: timestamps) arrival).2.retimed = false ∧
      Ready (timeBatch r (a :: timestamps) arrival).1 rest := by
  rw [← List.foldl_cons] at h
  rw [timeBatch_chip rfl arrival h.pos]
  refine ⟨rfl, .timed ?_⟩
  have hema := RateCal.hwDtEma_eq_of_chipClock (RateCal.chipClock_applyMeasured
    ((a :: timestamps).foldl RateCal.observeHw r) ((a :: timestamps).foldl RateCal.observeHw r).hwDtEma)
  unfold Timed
  rw [hema]
  exact h

theorem observeHw_first {r : RateCal Float} (hlast : r.lastHwTsUs = none) {a : UInt64} (ha : a ≠ 0) :
    r.observeHw a = { r with lastHwTsUs := some a.toUInt32 } := by
  unfold RateCal.observeHw
  rw [if_neg ha, hlast]

/-- The first batch comes at the instant from which the warm-up is counted. -/
theorem calibrateRate_first {r : RateCal Float} (hfirst : r.firstBatch = none) {n : Nat} (hn : n ≠ 0)
    (arrival : Instant) : r.calibrateRate n arrival = ({ r with firstBatch := some arrival }, none) := by
  have hwarm : (asSecs (arrival - arrival) : Float) < RateCal.WARMUP_SECS := by
    rw [Nat.sub_self]
    decide +kernel
  unfold RateCal.calibrateRate
  rw [if_neg hn, hfirst]
  exact if_pos hwarm

theorem Ready.batch {r : RateCal Float} {timestamps rest : List UInt64} (h : Ready r (timestamps ++ rest))
    (arrival : Instant) :
    (timeBatch r timestamps arrival).2.retimed = false ∧ Ready (timeBatch r timestamps arrival).1 rest := by
  cases timestamps with
  | nil => exact ⟨rfl, h⟩
  | cons a timestamps =>
    cases h with
    | timed h => exact retimed_of_timed a timestamps (timed_observeAll (timed_observeHw h a) timestamps) arrival rest
    | stamped a' hlast hema hrest =>
      have htimed := timed_of_movesTo hlast hema (hrest a rfl)
      exact retimed_of_timed a timestamps (timed_observeAll htimed timestamps) arrival rest
    | fresh hlast hema hfirst hrest =>
      obtain ⟨ha, hrest⟩ := hrest.head
      have hobserved := observeHw_first hlast ha
      cases timestamps with
      | nil =>
        have hnopos : ¬ 0.0 < ([a].foldl RateCal.observeHw r).hwDtEma := by
          rw [List.foldl_cons, List.foldl_nil, hobserved]
          dsimp only
          rw [hema]
          decide
        have hlength : [a].length ≠ 0 := Nat.one_ne_zero
        rw [timeBatch_rate rfl arrival hnopos, List.foldl_cons, List.foldl_nil, hobserved,
          calibrateRate_first (r := { r with lastHwTsUs := some a.toUInt32 }) hfirst hlength]
        exact ⟨rfl, .stamped a rfl hema hrest⟩
      | cons b timestamps =>
        have htimed : Timed ((r.observeHw a).observeHw b) := by
          rw [hobserved]
          exact timed_of_movesTo rfl hema (hrest b rfl)
        exact retimed_of_timed a (b :: timestamps) (timed_observeAll htimed timestamps) arrival rest

/-! ### Runs of a counter that moves -/

section Tracker

variable {R : Reader} {F : Type} [OrientationFilter F]

/-- One report, and the timestamps of its samples. -/
def Reader.readStamps (R : Reader) (s : R.State) (d : Delivery R) : R.State × Option (List UInt64) :=
  ((R.read s d.report d.readAt).1,
    (R.read s d.report d.readAt).2.map fun samples => samples.map (·.timestampUs))

/-- The delivery rate retimes nothing in the run of a tracker that is ready for the timestamps to come. -/
theorem not_retimed_of_ready {t : Tracker R F} {ds : List (Delivery R)} (hconn : t.pipeline.connected = true)
    (h : Ready t.pipeline.rateCal (outputs R.readStamps t.reader ds).reduceOption.flatten) :
    ∀ x ∈ outputs Tracker.deliver t ds, x.any (·.retimed) = false := by
  induction ds generalizing t with
  | nil => exact fun _ hx => absurd hx List.not_mem_nil
  | cons d ds ih =>
    rw [outputs, List.forall_mem_cons]
    rw [outputs, Reader.readStamps] at h
    cases hbatch : R.read t.reader d.report d.readAt with
    | mk reader batch =>
      rw [hbatch] at h
      cases batch with
      | none =>
        rw [deliver_none hbatch]
        exact ⟨rfl, ih hconn h⟩
      | some samples =>
        obtain ⟨hout, hreader, hpipe⟩ := deliver_some hbatch
        have hrate := rateCal_handleEvent hconn t.store d.env samples
        rw [← hpipe] at hrate
        have hquiet := Ready.batch h d.env.arrival
        rw [← hrate] at hquiet
        rw [hout]
        refine ⟨hquiet.1, ih ?_ ?_⟩
        · rw [hpipe, Pipeline.handleEvent_connected, Pipeline.connects, hconn, Bool.true_or]
        · rw [hreader]
          exact hquiet.2

theorem undisturbed_of_moves {p : Pipeline F} {gyrTs : Float} (hp : p.connected = true)
    (hfresh : p.rateCal = .new gyrTs) (store : BiasStore) {start : Instant} {ds : List (Delivery R)}
    (hmoves : MovesAtStart (R.stamps start ds).reduceOption.flatten) : Undisturbed (timings R p store start ds) := by
  have hready : Ready p.rateCal (R.stamps start ds).reduceOption.flatten := by
    rw [hfresh]
    exact .fresh rfl rfl rfl hmoves
  have hquiet := not_retimed_of_ready (t := ⟨R.init start, p, store⟩) hp hready
  refine List.Pairwise.imp_of_mem (R := fun _ _ => True) ?_ (List.pairwise_of_forall fun _ _ => trivial)
  intro x y hx _ _ hretimed
  rw [hquiet x hx] at hretimed
  cases hretimed

/-- For a reader that pays no attention to the time: the chip clock of a fresh pipeline sets the same timesteps at
whatever times the host gets the reports, when the counter has moved by the second sample. -/
theorem hwTimesteps_eq_of_moves (hR : R.TimeBlind) {p : Pipeline F} {gyrTs : Float} (hp : p.connected = true)
    (hfresh : p.rateCal = .new gyrTs) (store store' : BiasStore) {start start' : Instant} {ds ds' : List (Delivery R)}
    (hds : SameReports ds ds') (hmoves : MovesAtStart (R.stamps start ds).reduceOption.flatten) :
    (timings R p store start ds).map (Option.map (·.hwTimestep)) =
      (timings R p store' start' ds').map (Option.map (·.hwTimestep)) := by
  obtain ⟨hstamps, -, htimesteps⟩ := hostBlind_of_timeBlind hR p store store' start start' ds ds' hp hds
  rw [timestamps_timings, timestamps_timings] at hstamps
  exact htimesteps (undisturbed_of_moves hp hfresh store hmoves)
    (undisturbed_of_moves hp hfresh store' (hstamps ▸ hmoves))

end Tracker

/-- The counter of a DualSense that moves at first and stands still later. -/
example :
    let reports := dualSenseRun [(0, 184, 11), (2000, 196, 59), (6500, 196, 59)]
    MovesAtStart ((Backend.dualSense .dualSense none).reader.stamps 0 reports).reduceOption.flatten := by
  decide +kernel

end EverythingImu.Devices
