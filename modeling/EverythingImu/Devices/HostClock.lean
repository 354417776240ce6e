import EverythingImu.Core.PipelineRun
import EverythingImu.Devices.Backend
import EverythingImu.Library.Transducer

/-!
# The chip clock and the clock of the host

The pipeline times its filter by the timestamps of the samples, as the clock of a chip, and only without them by the
delivery rate, because the intervals at which the host gets the reports say little about the device
(`handle_event` and `calibrate_rate` in `pipeline.rs`).  Two runs that deliver the same reports at different times
therefore have the same timestamps, the same smoothed period and the same timesteps set from it, as far as the
delivery rate has not set another one before, exactly when the backend is not host-stamped (`hostBlind_iff`).
-/

namespace EverythingImu.Devices

open EverythingImu.Core Transducer

/-! ### The timing of a batch -/

/-- Where the timestep comes from after a batch, and the new one if it changes. -/
inductive TimestepSource where
  | chipClock (newTs : Option Float)
  | deliveryRate (newTs : Option Float)
deriving DecidableEq

structure BatchTiming where
  timestamps : List UInt64
  /-- `hw_dt_ema` after the batch. -/
  hwDtEma : Float
  source : TimestepSource
deriving DecidableEq

namespace BatchTiming

/-- The timestep set from `hw_dt_ema`. -/
def hwTimestep (t : BatchTiming) : Option Float :=
  match t.source with
  | .chipClock newTs => newTs
  | .deliveryRate _ => none

/-- `calibrate_rate` sets another timestep. -/
def retimed (t : BatchTiming) : Bool :=
  match t.source with
  | .deliveryRate newTs => newTs.isSome
  | .chipClock _ => false

/-- The batch does not take the path of the chip clock. -/
def offChip (t : BatchTiming) : Bool :=
  match t.source with
  | .deliveryRate _ => true
  | .chipClock _ => false

end BatchTiming

/-- The timing of a batch; the pipeline returns on an empty one before it looks at the clocks. -/
def timeBatch (r : RateCal Float) (timestamps : List UInt64) (arrival : Instant) : RateCal Float × BatchTiming :=
  if timestamps.isEmpty then (r, ⟨timestamps, r.hwDtEma, .deliveryRate none⟩)
  else
    let (r', newTs) := r.onBatch timestamps arrival
    (r', ⟨timestamps, r'.hwDtEma, if 0.0 < r'.hwDtEma then .chipClock newTs else .deliveryRate newTs⟩)

section Pipeline

variable {F : Type} [OrientationFilter F]

theorem rateCal_processBatch (p : Pipeline F) (env : EventEnv) (samples : List ImuSample) :
    (p.processBatch env samples).rateCal = (p.rateCal.onBatch (samples.map (·.timestampUs)) env.arrival).1 := by
  have happly : ∀ (samples : List ImuSample) (p : Pipeline F),
      (samples.foldl (Pipeline.applySample · env.config) p).rateCal = p.rateCal := by
    intro samples
    induction samples with
    | nil => exact fun _ => rfl
    | cons s samples ih => exact fun p => ih (p.applySample env.config s)
  unfold Pipeline.processBatch
  exact happly samples _

/-- An open pipeline times every batch. -/
theorem rateCal_handleEvent {p : Pipeline F} (hp : p.connected = true) (store : BiasStore) (env : EventEnv)
    (samples : List ImuSample) :
    (p.handleEvent store env (.imuSamples samples)).pipeline.rateCal =
      (timeBatch p.rateCal (samples.map (·.timestampUs)) env.arrival).1 := by
  have hconn : p.connects env = true := by simp [Pipeline.connects, hp]
  unfold Pipeline.handleEvent timeBatch
  rw [hconn]
  simp only [Bool.not_true, Bool.false_eq_true, if_false, Pipeline.onEvent, Pipeline.onSamples]
  cases hlast : samples.getLast? with
  | none =>
    rw [List.getLast?_eq_none_iff] at hlast
    subst hlast
    rfl
  | some lastRaw =>
    have hne : (samples.map (·.timestampUs)).isEmpty = false := by
      cases samples with
      | nil => cases hlast
      | cons s samples => rfl
    have hbatch := rateCal_processBatch (p.advertised env) env samples
    rw [hne]
    simp only [Bool.false_eq_true, if_false]
    rw [show (p.advertised env).rateCal = p.rateCal from rfl] at hbatch
    split
    · exact hbatch
    · split <;> exact hbatch

end Pipeline

/-! ### Two runs of the clocks -/

section Clocks

variable {r r' : RateCal Float} {timestamps : List UInt64}

theorem timeBatch_chip (hne : timestamps.isEmpty = false) (arrival : Instant)
    (hpos : 0.0 < (timestamps.foldl RateCal.observeHw r).hwDtEma) :
    let s := timestamps.foldl RateCal.observeHw r
    timeBatch r timestamps arrival =
      ((s.applyMeasured s.hwDtEma).1, ⟨timestamps, s.hwDtEma, .chipClock (s.applyMeasured s.hwDtEma).2⟩) := by
  intro s
  have hema : (s.applyMeasured s.hwDtEma).1.hwDtEma = s.hwDtEma :=
    RateCal.hwDtEma_eq_of_chipClock (RateCal.chipClock_applyMeasured s s.hwDtEma)
  simp only [timeBatch, hne, RateCal.onBatch, if_pos hpos, Bool.false_eq_true, if_false]
  rw [hema, if_pos hpos]

theorem timeBatch_rate (hne : timestamps.isEmpty = false) (arrival : Instant)
    (hpos : ¬ 0.0 < (timestamps.foldl RateCal.observeHw r).hwDtEma) :
    let s := timestamps.foldl RateCal.observeHw r
    let calibrated := s.calibrateRate timestamps.length arrival
    timeBatch r timestamps arrival = (calibrated.1, ⟨timestamps, s.hwDtEma, .deliveryRate calibrated.2⟩) := by
  intro s calibrated
  have hema : calibrated.1.hwDtEma = s.hwDtEma :=
    RateCal.hwDtEma_eq_of_chipClock (RateCal.chipClock_calibrateRate s timestamps.length arrival)
  simp only [timeBatch, hne, RateCal.onBatch, if_neg hpos, Bool.false_eq_true, if_false]
  rw [hema, if_neg hpos]

/-- The timings of two batches, up to the timestep. -/
structure SamePath (t t' : BatchTiming) : Prop where
  timestamps : t.timestamps = t'.timestamps
  hwDtEma : t.hwDtEma = t'.hwDtEma
  offChip : t.offChip = t'.offChip

theorem hwTimestep_of_offChip {t : BatchTiming} (h : t.offChip = true) : t.hwTimestep = none := by
  unfold BatchTiming.offChip at h
  unfold BatchTiming.hwTimestep
  cases hs : t.source with
  | chipClock newTs =>
    rw [hs] at h
    cases h
  | deliveryRate newTs => rfl

/-- Off the path of the chip clock both set nothing from it. -/
theorem SamePath.hwTimestep_eq {t t' : BatchTiming} (h : SamePath t t') (hoff : t.offChip = true) :
    t.hwTimestep = t'.hwTimestep := by
  rw [hwTimestep_of_offChip hoff, hwTimestep_of_offChip (h.offChip ▸ hoff)]

/-- The path of a batch and the chip clock behind it do not depend on the arrival. -/
theorem timeBatch_samePath (h : r.chipClock = r'.chipClock) (timestamps : List UInt64) (arrival arrival' : Instant) :
    SamePath (timeBatch r timestamps arrival).2 (timeBatch r' timestamps arrival').2 ∧
      (timeBatch r timestamps arrival).1.chipClock = (timeBatch r' timestamps arrival').1.chipClock := by
  cases hne : timestamps.isEmpty with
  | true =>
    simp only [timeBatch, hne, if_true]
    exact ⟨⟨rfl, RateCal.hwDtEma_eq_of_chipClock h, rfl⟩, h⟩
  | false =>
    have hs := RateCal.chipClock_observeAll h timestamps
    have hema := RateCal.hwDtEma_eq_of_chipClock hs
    by_cases hpos : 0.0 < (timestamps.foldl RateCal.observeHw r).hwDtEma
    · have hpos' : 0.0 < (timestamps.foldl RateCal.observeHw r').hwDtEma := hema ▸ hpos
      rw [timeBatch_chip hne arrival hpos, timeBatch_chip hne arrival' hpos']
      refine ⟨⟨rfl, hema, rfl⟩, ?_⟩
      rw [RateCal.chipClock_applyMeasured, RateCal.chipClock_applyMeasured, hs]
    · have hpos' : ¬ 0.0 < (timestamps.foldl RateCal.observeHw r').hwDtEma := hema ▸ hpos
      rw [timeBatch_rate hne arrival hpos, timeBatch_rate hne arrival' hpos']
      refine ⟨⟨rfl, hema, rfl⟩, ?_⟩
      rw [RateCal.chipClock_calibrateRate, RateCal.chipClock_calibrateRate, hs]

/-- From the same timestep the chip clock sets the same one, and the timesteps part only where the delivery rate
retimes the filter. -/
theorem timeBatch_timestep (h : r.chipClock = r'.chipClock) (hts : r.gyrTsCurrent = r'.gyrTsCurrent)
    (timestamps : List UInt64) (arrival arrival' : Instant) :
    (timeBatch r timestamps arrival).2.hwTimestep = (timeBatch r' timestamps arrival').2.hwTimestep ∧
      ((timeBatch r timestamps arrival).2.retimed ∨ (timeBatch r' timestamps arrival').2.retimed ∨
        (timeBatch r timestamps arrival).1.gyrTsCurrent = (timeBatch r' timestamps arrival').1.gyrTsCurrent) := by
  cases hne : timestamps.isEmpty with
  | true =>
    simp only [timeBatch, hne, if_true]
    exact ⟨rfl, Or.inr (Or.inr hts)⟩
  | false =>
    have hema := RateCal.hwDtEma_eq_of_chipClock (RateCal.chipClock_observeAll h timestamps)
    have hts : (timestamps.foldl RateCal.observeHw r).gyrTsCurrent =
        (timestamps.foldl RateCal.observeHw r').gyrTsCurrent := by
      rw [RateCal.gyrTsCurrent_observeAll, RateCal.gyrTsCurrent_observeAll, hts]
    by_cases hpos : 0.0 < (timestamps.foldl RateCal.observeHw r).hwDtEma
    · have hpos' : 0.0 < (timestamps.foldl RateCal.observeHw r').hwDtEma := hema ▸ hpos
      rw [timeBatch_chip hne arrival hpos, timeBatch_chip hne arrival' hpos']
      have happ := RateCal.applyMeasured_congr hts (timestamps.foldl RateCal.observeHw r).hwDtEma
      simp only [BatchTiming.hwTimestep]
      rw [← hema]
      exact ⟨happ.1, Or.inr (Or.inr happ.2)⟩
    · have hpos' : ¬ 0.0 < (timestamps.foldl RateCal.observeHw r').hwDtEma := hema ▸ hpos
      rw [timeBatch_rate hne arrival hpos, timeBatch_rate hne arrival' hpos']
      refine ⟨rfl, ?_⟩
      simp only [BatchTiming.retimed]
      cases hc : ((timestamps.foldl RateCal.observeHw r).calibrateRate timestamps.length arrival).2 with
      | some newTs => exact Or.inl rfl
      | none =>
        cases hc' : ((timestamps.foldl RateCal.observeHw r').calibrateRate timestamps.length arrival').2 with
        | some newTs => exact Or.inr (Or.inl rfl)
        | none =>
          right; right
          rw [RateCal.gyrTsCurrent_calibrateRate _ hc, RateCal.gyrTsCurrent_calibrateRate _ hc', hts]

end Clocks

/-! ### Runs of a device and its pipeline -/

/-- A report that the reader gets at an instant, and the surroundings in which the pipeline handles its batch. -/
structure Delivery (R : Reader) where
  report : R.Report
  readAt : Instant
  env : EventEnv

/-- The reader of a device and the pipeline behind it. -/
structure Tracker (R : Reader) (F : Type) where
  reader : R.State
  pipeline : Pipeline F
  store : BiasStore

section Tracker

variable {R : Reader} {F : Type} [OrientationFilter F]

/-- One report, and the timing of its batch if it gives one. -/
def Tracker.deliver (t : Tracker R F) (d : Delivery R) : Tracker R F × Option BatchTiming :=
  let (reader, batch) := R.read t.reader d.report d.readAt
  match batch with
  | none => ({ t with reader }, none)
  | some samples =>
    let o := t.pipeline.handleEvent t.store d.env (.imuSamples samples)
    ({ reader, pipeline := o.pipeline, store := o.store },
      some (timeBatch t.pipeline.rateCal (samples.map (·.timestampUs)) d.env.arrival).2)

/-- The timings of a run that starts the reader at an instant. -/
def timings (R : Reader) (p : Pipeline F) (store : BiasStore) (start : Instant) (ds : List (Delivery R)) :
    List (Option BatchTiming) :=
  outputs Tracker.deliver ⟨R.init start, p, store⟩ ds

/-- The same reports one after the other, at any times. -/
def SameReports (ds ds' : List (Delivery R)) : Prop := List.Forall₂ (fun d d' => d.report = d'.report) ds ds'

/-- No batch takes the path of the chip clock once the delivery rate has retimed the filter. -/
def Undisturbed (ts : List (Option BatchTiming)) : Prop :=
  ts.Pairwise fun t t' => t.any (·.retimed) → t'.all (·.offChip)

instance (ts : List (Option BatchTiming)) : Decidable (Undisturbed ts) :=
  inferInstanceAs (Decidable (List.Pairwise _ ts))

variable (R F) in
/-- In two runs that deliver the same reports, the timestamps and `hw_dt_ema` are the same, and so are the timesteps
set from it if the delivery rate disturbs neither run. -/
def HostBlind : Prop :=
  ∀ (p : Pipeline F) (store store' : BiasStore) (start start' : Instant) (ds ds' : List (Delivery R)),
    p.connected = true → SameReports ds ds' →
      let ts := timings R p store start ds
      let ts' := timings R p store' start' ds'
      ts.map (Option.map (·.timestamps)) = ts'.map (Option.map (·.timestamps)) ∧
        ts.map (Option.map (·.hwDtEma)) = ts'.map (Option.map (·.hwDtEma)) ∧
        (Undisturbed ts → Undisturbed ts' →
          ts.map (Option.map (·.hwTimestep)) = ts'.map (Option.map (·.hwTimestep)))

/-- Two open trackers with the same state of the reader and the same chip clock. -/
structure SameClock (t t' : Tracker R F) : Prop where
  reader : t.reader = t'.reader
  chipClock : t.pipeline.rateCal.chipClock = t'.pipeline.rateCal.chipClock
  connected : t.pipeline.connected = true
  connected' : t'.pipeline.connected = true

variable {t t' : Tracker R F} {d d' : Delivery R}

theorem deliver_none {reader : R.State} (h : R.read t.reader d.report d.readAt = (reader, none)) :
    t.deliver d = ({ t with reader }, none) := by
  unfold Tracker.deliver
  rw [h]

theorem deliver_some {reader : R.State} {samples : List ImuSample}
    (h : R.read t.reader d.report d.readAt = (reader, some samples)) :
    (t.deliver d).2 = some (timeBatch t.pipeline.rateCal (samples.map (·.timestampUs)) d.env.arrival).2 ∧
      (t.deliver d).1.reader = reader ∧
      (t.deliver d).1.pipeline = (t.pipeline.handleEvent t.store d.env (.imuSamples samples)).pipeline := by
  unfold Tracker.deliver
  rw [h]
  exact ⟨rfl, rfl, rfl⟩

/-- A report gives one batch of timestamps to both pipelines, or none. -/
theorem deliver_cases (hR : R.TimeBlind) (h : SameClock t t') (hd : d.report = d'.report) :
    (∃ reader, t.deliver d = ({ t with reader }, none) ∧ t'.deliver d' = ({ t' with reader }, none)) ∨
      ∃ timestamps,
        (t.deliver d).2 = some (timeBatch t.pipeline.rateCal timestamps d.env.arrival).2 ∧
        (t'.deliver d').2 = some (timeBatch t'.pipeline.rateCal timestamps d'.env.arrival).2 ∧
        (t.deliver d).1.pipeline.rateCal = (timeBatch t.pipeline.rateCal timestamps d.env.arrival).1 ∧
        (t'.deliver d').1.pipeline.rateCal = (timeBatch t'.pipeline.rateCal timestamps d'.env.arrival).1 ∧
        (t.deliver d).1.reader = (t'.deliver d').1.reader ∧
        (t.deliver d).1.pipeline.connected = true ∧ (t'.deliver d').1.pipeline.connected = true := by
  have hread : R.read t'.reader d'.report d'.readAt = R.read t.reader d.report d.readAt := by
    rw [← h.reader, ← hd]
    exact hR.read _ _ _ _
  cases hbatch : R.read t.reader d.report d.readAt with
  | mk reader batch =>
    rw [hbatch] at hread
    cases batch with
    | none => exact Or.inl ⟨reader, deliver_none hbatch, deliver_none hread⟩
    | some samples =>
      obtain ⟨hout, hreader, hpipe⟩ := deliver_some hbatch
      obtain ⟨hout', hreader', hpipe'⟩ := deliver_some hread
      refine Or.inr ⟨samples.map (·.timestampUs), hout, hout', ?_, ?_, hreader.trans hreader'.symm, ?_, ?_⟩
      · rw [hpipe, rateCal_handleEvent h.connected]
      · rw [hpipe', rateCal_handleEvent h.connected']
      · rw [hpipe, Pipeline.handleEvent_connected, Pipeline.connects, h.connected, Bool.true_or]
      · rw [hpipe', Pipeline.handleEvent_connected, Pipeline.connects, h.connected', Bool.true_or]

theorem sameClock_deliver (hR : R.TimeBlind) (h : SameClock t t') (hd : d.report = d'.report) :
    Option.Rel SamePath (t.deliver d).2 (t'.deliver d').2 ∧ SameClock (t.deliver d).1 (t'.deliver d').1 := by
  rcases deliver_cases hR h hd with ⟨reader, ht, ht'⟩ | ⟨timestamps, hout, hout', hrate, hrate', hreader, hconn, hconn'⟩
  · rw [ht, ht']
    exact ⟨.none, rfl, h.chipClock, h.connected, h.connected'⟩
  · obtain ⟨hpath, hclock⟩ := timeBatch_samePath h.chipClock timestamps d.env.arrival d'.env.arrival
    rw [hout, hout']
    exact ⟨.some hpath, hreader, by rw [hrate, hrate', hclock], hconn, hconn'⟩

theorem hwTimestep_deliver (hR : R.TimeBlind) (h : SameClock t t')
    (hts : t.pipeline.rateCal.gyrTsCurrent = t'.pipeline.rateCal.gyrTsCurrent) (hd : d.report = d'.report) :
    (t.deliver d).2.map (·.hwTimestep) = (t'.deliver d').2.map (·.hwTimestep) ∧
      ((t.deliver d).2.any (·.retimed) ∨ (t'.deliver d').2.any (·.retimed) ∨
        (t.deliver d).1.pipeline.rateCal.gyrTsCurrent = (t'.deliver d').1.pipeline.rateCal.gyrTsCurrent) := by
  rcases deliver_cases hR h hd with ⟨reader, ht, ht'⟩ | ⟨timestamps, hout, hout', hrate, hrate', -, -, -⟩
  · rw [ht, ht']
    exact ⟨rfl, Or.inr (Or.inr hts)⟩
  · have hstep := timeBatch_timestep h.chipClock hts timestamps d.env.arrival d'.env.arrival
    rw [hout, hout', hrate, hrate']
    exact ⟨congrArg some hstep.1, hstep.2⟩

/-- A reader that pays no attention to the time keeps the times of the host off the path of the chip clock. -/
theorem hostBlind_of_timeBlind (hR : R.TimeBlind) : HostBlind R F := by
  intro p store store' start start' ds ds' hp hds ts ts'
  have hsame : SameClock (⟨R.init start, p, store⟩ : Tracker R F) ⟨R.init start', p, store'⟩ :=
    ⟨hR.init start start', rfl, hp, hp⟩
  have hunwinds : Unwinds Tracker.deliver Tracker.deliver (fun d d' : Delivery R => d.report = d'.report)
      (SameClock (F := F)) (Option.Rel SamePath) := fun t t' d d' => sameClock_deliver hR
  have hpaths : List.Forall₂ (Option.Rel SamePath) ts ts' := outputs_forall₂ hunwinds hsame hds
  refine ⟨map_eq_of_forall₂ hpaths ?_, map_eq_of_forall₂ hpaths ?_, ?_⟩
  · rintro _ _ (⟨h⟩ | _)
    · exact congrArg some h.timestamps
    · rfl
  · rintro _ _ (⟨h⟩ | _)
    · exact congrArg some h.hwDtEma
    · rfl
  · intro hts hts'
    refine map_eq_of_forall₂ ?_ fun _ _ h => h
    refine outputs_forall₂_of_quiet (R := fun t t' : Tracker R F =>
      t.pipeline.rateCal.gyrTsCurrent = t'.pipeline.rateCal.gyrTsCurrent) hunwinds
      (fun t t' d d' hr hs hd => hwTimestep_deliver hR hs hr hd) ?_ ?_ hsame rfl hds hts hts'
    · rintro _ _ (⟨h⟩ | _) hoff
      · exact congrArg some (h.hwTimestep_eq hoff)
      · rfl
    · rintro _ _ (⟨h⟩ | _) hoff
      · exact congrArg some (h.hwTimestep_eq (h.offChip.trans hoff))
      · rfl

/-! ### The host-stamped backends -/

/-- The timestamps of the batches that a reader makes of its reports. -/
def Reader.stamps (R : Reader) (start : Instant) (ds : List (Delivery R)) : List (Option (List UInt64)) :=
  outputs (fun s d => ((R.read s d.report d.readAt).1,
    (R.read s d.report d.readAt).2.map fun samples => samples.map (·.timestampUs))) (R.init start) ds

theorem timestamps_timeBatch (r : RateCal Float) (timestamps : List UInt64) (arrival : Instant) :
    (timeBatch r timestamps arrival).2.timestamps = timestamps := by
  unfold timeBatch
  split <;> rfl

theorem timestamps_timings (R : Reader) (p : Pipeline F) (store : BiasStore) (start : Instant)
    (ds : List (Delivery R)) :
    (timings R p store start ds).map (Option.map (·.timestamps)) = R.stamps start ds := by
  have hrel : List.Forall₂ (fun x y => x.map BatchTiming.timestamps = y) (timings R p store start ds)
      (R.stamps start ds) := by
    refine outputs_forall₂ (L := fun d d' : Delivery R => d = d')
      (R := fun (t : Tracker R F) s => t.reader = s) ?_ rfl (List.forall₂_same.2 fun _ _ => rfl)
    rintro t _ d _ rfl rfl
    cases hbatch : R.read t.reader d.report d.readAt with
    | mk reader batch =>
      cases batch with
      | none => simp only [deliver_none hbatch, hbatch, Option.map_none, and_self]
      | some samples =>
        obtain ⟨hout, hreader, -⟩ := deliver_some hbatch
        simp only [hout, hreader, hbatch, Option.map_some, timestamps_timeBatch, and_self]
  have hmap : (timings R p store start ds).map (Option.map (·.timestamps)) = (R.stamps start ds).map id :=
    map_eq_of_forall₂ hrel fun _ _ h => h
  rw [hmap, List.map_id]

/-- A report that is read and handled at one instant. -/
def deliverAt (R : Reader) (now : Instant) (report : R.Report) : Delivery R :=
  ⟨report, now, { serverEnv (.ok ()) true with arrival := now }⟩

theorem stamps_eq_of_hostBlind (h : HostBlind R F) (start : Instant) {ds ds' : List (Delivery R)}
    (hds : SameReports ds ds') : R.stamps start ds = R.stamps start ds' := by
  let p : Pipeline F := { Pipeline.new phoneMetadata ∅ 0 .default 0 with connected := true }
  rw [← timestamps_timings R p ∅ start ds, ← timestamps_timings R p ∅ start ds']
  exact (h p ∅ ∅ start start ds ds' rfl hds).1

theorem not_hostBlind_stamping {Report : Type} {sample : Report → Instant → Instant → Option ImuSample}
    (report : Report)
    (h : ∀ start now, (sample report start now).map (·.timestampUs) = some (microsSince start now)) :
    ¬HostBlind (Reader.stamping sample) F := by
  intro hblind
  have hstamps : ∀ now, (Reader.stamping sample).stamps 0 [deliverAt (.stamping sample) now report] =
      [some [microsSince 0 now]] := by
    intro now
    have hnow := h 0 now
    simp only [Option.map_eq_some_iff] at hnow
    obtain ⟨s, hs, hus⟩ := hnow
    simp [Reader.stamps, outputs, Reader.stamping, deliverAt, hs, hus]
  have hds : SameReports [deliverAt (.stamping sample) 1_000_000 report] [deliverAt _ 2_000_000 report] :=
    .cons rfl .nil
  have heq := stamps_eq_of_hostBlind hblind 0 hds
  rw [hstamps, hstamps] at heq
  exact absurd heq (by decide)

/-- A report of zeros, which a PS Move takes for a report of its own. -/
def zeroReport : List UInt8 := .replicate 49 0

/-- The clock of a PS Move stamps its reports by the times at which they are read. -/
theorem stamps_psMove (kind : Sony.PsMove.ControllerKind) (cal : Sony.PsMove.ImuCalibration) (now : Instant) :
    let R := (Backend.psMove kind cal).reader
    let first := Sony.PsMove.ReportClock.new.tick 0
    let second := first.1.tick now
    R.stamps 0 [deliverAt R 0 zeroReport, deliverAt R now zeroReport] =
      [some [first.2.1, first.2.2], some [second.2.1, second.2.2]] := rfl

theorem not_hostBlind_psMove (kind : Sony.PsMove.ControllerKind) (cal : Sony.PsMove.ImuCalibration) :
    ¬HostBlind (Backend.psMove kind cal).reader F := by
  intro hblind
  let R := (Backend.psMove kind cal).reader
  have hds : SameReports [deliverAt R 0 zeroReport, deliverAt R 10_000_000 zeroReport]
      [deliverAt R 0 zeroReport, deliverAt R 20_000_000 zeroReport] := .cons rfl (.cons rfl .nil)
  have heq := stamps_eq_of_hostBlind hblind 0 hds
  rw [stamps_psMove, stamps_psMove] at heq
  exact absurd heq (by decide +kernel)

/-- The first packet that gives a sample comes after those that settle the scale. -/
theorem not_hostBlind_threeDs : ¬HostBlind Backend.threeDs.reader F := by
  intro hblind
  let R := Backend.threeDs.reader
  let packets : List R.Report := .replicate 101 ⟨.replicate 3 0, .replicate 3 0⟩
  have hds : SameReports (packets.map (deliverAt R 1_000_000)) (packets.map (deliverAt R 2_000_000)) := by
    rw [SameReports, List.forall₂_map_left_iff, List.forall₂_map_right_iff]
    exact List.forall₂_same.2 fun _ _ => rfl
  exact absurd (stamps_eq_of_hostBlind hblind 0 hds) (by decide +kernel)

theorem not_hostBlind_of_hostStamped {b : Backend} (h : b.HostStamped) : ¬HostBlind b.reader F := by
  cases b with
  | joyCon1 | joyCon2 | dualSense | hopx | tesla | remote => exact h.elim
  | dualShock3 => exact not_hostBlind_stamping (0x01 :: .replicate 48 0) fun _ _ => rfl
  | psMove kind cal => exact not_hostBlind_psMove kind cal
  | wii => exact not_hostBlind_stamping ⟨.replicate 3 0, .replicate 3 0, true, 0, false⟩ fun _ _ => rfl
  | steamDeck => exact not_hostBlind_stamping (0x01 :: .replicate 63 0) fun _ _ => rfl
  | steamController => exact not_hostBlind_stamping (.replicate 64 0) fun _ _ => rfl
  | threeDs => exact not_hostBlind_threeDs
  | vita => exact not_hostBlind_stamping ⟨.replicate 3 0.0, .replicate 3 0.0⟩ fun _ _ => rfl

end Tracker

/-- The times of the host stay off the path of the chip clock exactly for the backends that do not stamp with them. -/
theorem hostBlind_iff (F : Type) [OrientationFilter F] (b : Backend) : HostBlind b.reader F ↔ ¬b.HostStamped :=
  ⟨fun h hs => not_hostBlind_of_hostStamped hs h, fun h => hostBlind_of_timeBlind (timeBlind_of_not_hostStamped h)⟩

/-- A pipeline whose connection is open. -/
def openPipeline (metadata : DeviceMetadata) : Pipeline StillFilter :=
  { Pipeline.new metadata ∅ 0 .default 0 with connected := true }

def wiiMetadata : DeviceMetadata :=
  ⟨⟨#v[2, 0, 0, 0, 0, 1], "10.0.0.5:0"⟩, .wii, some "forwarded-companion", ⟨false, true, true, 100⟩⟩

/-- Packets of a Wii Remote at rest, at times in microseconds. -/
def wiiRun (times : List Nat) : List (Delivery Backend.wii.reader) :=
  times.map fun us => deliverAt Backend.wii.reader (us * 1000)
    (⟨#v[512, 512, 712], #v[8192, 8192, 8192], false, 100, false⟩ : Wii.WiiPacket)

/-- The same packets of a Wii Remote every 10 ms and in one clump: the clump sets the timestep of the filter to a
fiftieth. -/
theorem clumped_packets_retime_filter :
    let steady := wiiRun [10_000, 20_000, 30_000, 40_000]
    let clumped := wiiRun [40_000, 40_200, 40_400, 40_600]
    let ts := timings Backend.wii.reader (openPipeline wiiMetadata) ∅ 0 steady
    let ts' := timings Backend.wii.reader (openPipeline wiiMetadata) ∅ 0 clumped
    SameReports steady clumped ∧ Undisturbed ts ∧ Undisturbed ts' ∧
      ts.map (Option.map (·.timestamps)) = [some [10_000], some [20_000], some [30_000], some [40_000]] ∧
      ts'.map (Option.map (·.timestamps)) = [some [40_000], some [40_200], some [40_400], some [40_600]] ∧
      ts.map (Option.map (·.hwTimestep)) = [some none, some none, some none, some none] ∧
      ts'.map (Option.map (·.hwTimestep)) = [some none, some (some 0.0002), some none, some none] ∧
      ¬HostBlind Backend.wii.reader StillFilter := by
  intro steady clumped ts ts'
  have hsame : SameReports steady clumped := .cons rfl (.cons rfl (.cons rfl (.cons rfl .nil)))
  have hsteady : Undisturbed ts ∧
      ts.map (Option.map (·.timestamps)) = [some [10_000], some [20_000], some [30_000], some [40_000]] ∧
      ts.map (Option.map (·.hwTimestep)) = [some none, some none, some none, some none] := by
    decide +kernel
  have hclumped : Undisturbed ts' ∧
      ts'.map (Option.map (·.timestamps)) = [some [40_000], some [40_200], some [40_400], some [40_600]] ∧
      ts'.map (Option.map (·.hwTimestep)) = [some none, some (some 0.0002), some none, some none] := by
    decide +kernel
  exact ⟨hsame, hsteady.1, hclumped.1, hsteady.2.1, hclumped.2.1, hsteady.2.2, hclumped.2.2,
    not_hostBlind_of_hostStamped trivial⟩

def dualSenseMetadata : DeviceMetadata := ⟨⟨#v[2, 0, 0, 0, 0, 1], "a"⟩, .dualSense, none, ⟨false, true, true, 250⟩⟩

/-- Reports of a DualSense with the given counters of the chip, at times in milliseconds. -/
def dualSenseRun (reports : List (Nat × UInt8 × UInt8)) : List (Delivery (Backend.dualSense .dualSense none).reader) :=
  reports.map fun (ms, low, high) => deliverAt (Backend.dualSense .dualSense none).reader (ms * 1_000_000)
    ((.replicate 28 0 ++ low :: high :: .replicate 34 0 : List UInt8))

/-- While the counter of the chip stands still, the delivery rate retimes the filter in one of two runs; the chip clock
then sets the timestep in this run alone. -/
theorem disturbed_timesteps_differ :
    let prompt := dualSenseRun [(0, 184, 11), (0, 184, 11), (0, 184, 11), (0, 196, 59)]
    let late := dualSenseRun [(0, 184, 11), (2000, 184, 11), (6500, 184, 11), (6510, 196, 59)]
    let R := (Backend.dualSense .dualSense none).reader
    let ts := timings R (openPipeline dualSenseMetadata) ∅ 0 prompt
    let ts' := timings R (openPipeline dualSenseMetadata) ∅ 0 late
    Undisturbed ts ∧ ¬Undisturbed ts' ∧ ts.map (Option.map (·.hwDtEma)) = ts'.map (Option.map (·.hwDtEma)) ∧
      ts.map (Option.map (·.hwTimestep)) ≠ ts'.map (Option.map (·.hwTimestep)) := by
  decide +kernel

end EverythingImu.Devices
