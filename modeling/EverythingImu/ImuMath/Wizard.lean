import EverythingImu.ImuMath.SphereFit
import EverythingImu.Library.StepRun

/-!
# The calibration wizard

`MagCalWizard` (`imu-math/src/mag_cal_wizard.rs`), on `f32` samples with `f64` sums.  Its documentation draws the
lifecycle: `start` goes from `Idle` to `Collecting` and does nothing if that is the state already, `ingest` stays in
`Collecting`, `finalize` goes from `Collecting` to `Ready` or `Failed`, and `reset` goes back to `Idle`.  The code looks
at the state in `ingest` only: `start` drops the samples of a collection that is under way, and `finalize` turns `Idle`
into `Failed`.

The buffer, the count and the quality gates hold in every run; the steps keep to the lifecycle exactly if `start` is
called when there is nothing to lose and `finalize` is not called in `Idle` (`wizard_lifecycle_iff`).
-/

namespace EverythingImu.ImuMath

open EverythingImu.Core (MagCalibration)
open StepRun FloatCast FloatSign

def DEFAULT_SAMPLE_CAP : UInt64 := 4096
def MIN_ACCEPTABLE_COVERAGE : Float32 := 0.70
def MAX_ACCEPTABLE_RESIDUAL : Float32 := 8.0

inductive FailureReason where
  | tooFewSamples
  | insufficientCoverage
  | fitFailed
  | residualTooLarge
deriving DecidableEq

inductive WizardState where
  | idle
  | collecting (samplesTaken : Nat) (coverage : Float32)
  | ready (calibration : MagCalibration)
  | failed (reason : FailureReason)
deriving DecidableEq

structure WizardProgress where
  samples : UInt32
  coverage : Float32
  minCoverageTarget : Float32
deriving DecidableEq

abbrev MagSample := Vector Float32 3

structure MagCalWizard where
  samples : List MagSample
  cap : UInt64
  state : WizardState
  coverageRefreshEvery : Nat
  lastCoverageRefresh : Nat

inductive WizardOp where
  | start
  | ingest (sample : MagSample)
  | finalize
  | reset

/-- The mean of the points, for the coverage while they come in. -/
def meanCentre (points : List MagSample) : MagSample :=
  if points.isEmpty then .replicate 3 0.0
  else
    let sum (axis : MagSample → Float32) : Float := points.foldl (fun sum p => sum + asF64 (axis p)) 0.0
    let n := lenAsF64 points.length
    #v[asF32 (sum (·.x) / n), asF32 (sum (·.y) / n), asF32 (sum (·.z) / n)]

def WizardState.isCollecting : WizardState → Bool
  | .collecting _ _ => true
  | .idle | .ready _ | .failed _ => false

namespace MagCalWizard

def withCapacity (cap : UInt64) : MagCalWizard where
  samples := []
  cap := max cap 16
  state := .idle
  coverageRefreshEvery := 16
  lastCoverageRefresh := 0

def new : MagCalWizard := withCapacity DEFAULT_SAMPLE_CAP

variable (luSolve : LuSolve Float) (w : MagCalWizard)

def start : MagCalWizard := { w with samples := [], lastCoverageRefresh := 0, state := .collecting 0 0.0 }

def maybeRefreshProgress : MagCalWizard :=
  let n := w.samples.length
  if w.coverageRefreshEvery ≤ n - w.lastCoverageRefresh ∨ n < 32 then
    { w with lastCoverageRefresh := n, state := .collecting n (coverage ieee w.samples (meanCentre w.samples)) }
  else
    match w.state with
    | .collecting _ coverage => { w with state := .collecting n coverage }
    | .idle | .ready _ | .failed _ => w

def ingest (sample : MagSample) : MagCalWizard :=
  if !w.state.isCollecting then w
  else if w.cap.toNat ≤ w.samples.length then w
  else if sample.toList.any fun c => !c.isFinite then w
  else maybeRefreshProgress { w with samples := w.samples ++ [sample] }

def progress : WizardProgress :=
  match w.state with
  | .collecting samplesTaken coverage => ⟨.ofNat samplesTaken, coverage, MIN_ACCEPTABLE_COVERAGE⟩
  | .idle | .ready _ | .failed _ => ⟨.ofNat w.samples.length, 0.0, MIN_ACCEPTABLE_COVERAGE⟩

/-- `calibrate` on the wizard's types. -/
def calibrateSamples (samples : List MagSample) : Option MagCalibration :=
  (calibrate ieee luSolve samples).map fun cal => ⟨cal.offset, cal.fieldStrengthUt, cal.residual, cal.coverage⟩

/-- The state that `finalize` gives the samples. -/
def finalState (samples : List MagSample) : WizardState :=
  if samples.length < 12 then .failed .tooFewSamples
  else
    match calibrateSamples luSolve samples with
    | none => .failed .fitFailed
    | some cal =>
      if cal.coverage < MIN_ACCEPTABLE_COVERAGE then .failed .insufficientCoverage
      else if MAX_ACCEPTABLE_RESIDUAL < cal.residual then .failed .residualTooLarge
      else .ready cal

def finalize : MagCalWizard := { w with state := finalState luSolve w.samples }

def reset : MagCalWizard := { w with samples := [], lastCoverageRefresh := 0, state := .idle }

def step : WizardOp → MagCalWizard
  | .start => w.start
  | .ingest sample => w.ingest sample
  | .finalize => w.finalize luSolve
  | .reset => w.reset

def run (ops : List WizardOp) : MagCalWizard := ops.foldl (step luSolve) w

end MagCalWizard

/-! ### The quality gates -/

section Gates

variable {luSolve : LuSolve Float}

theorem touchedBins_le (points : List MagSample) (center : MagSample) : touchedBins ieee points center ≤ 26 := by
  have hsub : ((List.range 27).filter fun i => i ≠ 13 && (points.filterMap (cellOf ieee center)).contains i).Sublist
      ((List.range 27).filter fun i => i ≠ 13) := by
    refine List.monotone_filter_right _ ?_
    intro i hi
    exact Bool.and_elim_left hi
  exact hsub.length_le

/-- No number of bins gives a coverage that is not comparable. -/
theorem coverage_ge_of_not_lt (points : List MagSample) (center : MagSample)
    (h : ¬ coverage ieee points center < MIN_ACCEPTABLE_COVERAGE) :
    MIN_ACCEPTABLE_COVERAGE ≤ coverage ieee points center := by
  have hall : ∀ k ∈ List.range 27, ¬ (Float32.ofNat k / Float32.ofNat 26 < MIN_ACCEPTABLE_COVERAGE) →
      MIN_ACCEPTABLE_COVERAGE ≤ Float32.ofNat k / Float32.ofNat 26 := by
    decide +kernel
  have hbins := touchedBins_le points center
  exact hall _ (List.mem_range.2 (by omega)) h

/-- What `ingest` lets into the buffer. -/
def FiniteSample (p : MagSample) : Prop := p.x.isFinite = true ∧ p.y.isFinite = true ∧ p.z.isFinite = true

theorem finiteSample_of_all {p : MagSample} (h : ¬ (p.toList.any fun c => !c.isFinite) = true) : FiniteSample p := by
  have hall : ∀ c ∈ p.toList, c.isFinite = true := by
    intro c hc
    by_contra hfin
    exact h (List.any_eq_true.2 ⟨c, hc, by simpa using hfin⟩)
  exact ⟨hall _ (by simp [Vector.x]), hall _ (by simp [Vector.y]), hall _ (by simp [Vector.z])⟩

theorem nonNeg_deviationSq {a b c radius : Float} {p : MagSample} (ha : a.isFinite = true) (hb : b.isFinite = true)
    (hc : c.isFinite = true) (hradius : radius.isFinite = true) (hp : FiniteSample p) :
    NonNeg (deviationSq ieee a b c radius p).toModel.unpack := by
  have hsq : ∀ {x : Float32} {y : Float}, x.isFinite = true → y.isFinite = true →
      NonNeg ((asF64 x - y) * (asF64 x - y)).toModel.unpack := fun hx hy =>
    nonNeg_float_mul_self (isNaN_float_sub (isNaN_asF64 (FloatOrder.isNaN_float32_of_isFinite hx)) hy)
  have hdist := nonNeg_float_sqrt (nonNeg_float_add (nonNeg_float_add (hsq hp.1 ha) (hsq hp.2.1 hb)) (hsq hp.2.2 hc))
  exact nonNeg_float_mul_self (isNaN_float_sub hdist.isNaN hradius)

theorem nonNeg_rmsDeviation {points : List MagSample} {a b c radius : Float} (ha : a.isFinite = true)
    (hb : b.isFinite = true) (hc : c.isFinite = true) (hradius : radius.isFinite = true)
    (hpos : 0 < points.length) (hlen : points.length < 2 ^ 64) (hp : ∀ p ∈ points, FiniteSample p) :
    NonNeg (rmsDeviation ieee points a b c radius).toModel.unpack := by
  have hfold : ∀ (l : List MagSample) (sum : Float), (∀ p ∈ l, FiniteSample p) → NonNeg sum.toModel.unpack →
      NonNeg (l.foldl (fun sum p => sum + deviationSq ieee a b c radius p) sum).toModel.unpack := by
    intro l
    induction l with
    | nil => exact fun _ _ hsum => hsum
    | cons p l ih =>
      intro sum hl hsum
      have hdev := nonNeg_deviationSq ha hb hc hradius (hl p List.mem_cons_self)
      exact ih _ (fun q hq => hl q (List.mem_cons_of_mem p hq)) (nonNeg_float_add hsum hdev)
  exact nonNeg_float_sqrt (nonNeg_div_lenAsF64 (hfold points 0.0 hp trivial) hpos hlen)

/-- The solution that a sphere is made of is finite, and so is the radius. -/
theorem isNaN_residual {points : List MagSample} {params : Vector Float 4} {fit : SphereFit Float32}
    (hpos : 0 < points.length) (hlen : points.length < 2 ^ 64) (hp : ∀ p ∈ points, FiniteSample p)
    (h : sphereOf ieee points params = some fit) : fit.residual.isNaN = false := by
  unfold sphereOf at h
  dsimp only at h
  split at h
  · rename_i hrSq
    obtain ⟨hfin, hlt⟩ := hrSq
    obtain ⟨hab, hc⟩ := isFinite_of_float_add hfin
    obtain ⟨ha, hb⟩ := isFinite_of_float_add hab
    have hradius := isFinite_float_sqrt hfin (nonNeg_of_float_pos hlt)
    cases h
    exact isNaN_asF32 (nonNeg_rmsDeviation (isFinite_of_float_mul_self (isFinite_of_float_add ha).2)
      (isFinite_of_float_mul_self hb) (isFinite_of_float_mul_self hc) hradius hpos hlen hp).isNaN
  · cases h

/-- So a residual that is not too large is small enough. -/
theorem residual_le_of_not_lt {points : List MagSample} {cal : MagCalibration} (hlen : points.length < 2 ^ 64)
    (hp : ∀ p ∈ points, FiniteSample p) (hcal : MagCalWizard.calibrateSamples luSolve points = some cal)
    (h : ¬ MAX_ACCEPTABLE_RESIDUAL < cal.residual) : cal.residual ≤ MAX_ACCEPTABLE_RESIDUAL := by
  have hnan : cal.residual.isNaN = false := by
    rw [MagCalWizard.calibrateSamples, calibrate, Option.map_map, Option.map_eq_some_iff] at hcal
    obtain ⟨fit, hfit, rfl⟩ := hcal
    unfold fitSphere at hfit
    split at hfit
    · cases hfit
    · rename_i hmin
      obtain ⟨params, -, hsphere⟩ := Option.bind_eq_some_iff.1 hfit
      exact isNaN_residual (by rw [MIN_FIT_SAMPLES] at hmin; omega) hlen hp hsphere
  by_contra hle
  exact h ((FloatOrder.not_le_iff_lt_f32 hnan (by decide)).1 hle)

end Gates

/-! ### The lifecycle -/

/-- The transitions of the documentation.  That of `reset` names no state to come from. -/
def Documented : WizardOp → WizardState → WizardState → Prop
  | .start, s, s' => s = .idle ∧ s'.isCollecting
  | .ingest _, s, s' => s.isCollecting ∧ s'.isCollecting
  | .finalize, s, s' => s.isCollecting ∧ ((∃ cal, s' = .ready cal) ∨ ∃ reason, s' = .failed reason)
  | .reset, _, s' => s' = .idle

namespace MagCalWizard

/-- What holds of every state: the buffer is within its cap, the count is that of the buffer, and a calibration has
passed the gates. -/
structure Sound (w : MagCalWizard) : Prop where
  within : w.samples.length ≤ w.cap.toNat
  taken : ∀ n cov, w.state = .collecting n cov → n = w.samples.length
  gated : ∀ cal, w.state = .ready cal →
    12 ≤ w.samples.length ∧ MIN_ACCEPTABLE_COVERAGE ≤ cal.coverage ∧ cal.residual ≤ MAX_ACCEPTABLE_RESIDUAL

/-- A step changes nothing or makes a transition of the documentation, and `start` changes nothing while collecting. -/
def KeepsLifecycle (luSolve : LuSolve Float) (w : MagCalWizard) (op : WizardOp) : Prop :=
  ((w.step luSolve op).state = w.state ∨ Documented op w.state (w.step luSolve op).state) ∧
    (op = .start → w.state.isCollecting → w.step luSolve op = w)

/-- `start` in `Idle` or before the first sample, `finalize` after `start`. -/
def InOrder (w : MagCalWizard) : WizardOp → Prop
  | .start => w.state = .idle ∨ w.state.isCollecting ∧ w.samples.isEmpty
  | .finalize => w.state ≠ .idle
  | .ingest _ | .reset => True

instance decidableInOrder (w : MagCalWizard) : (op : WizardOp) → Decidable (InOrder w op)
  | .start => inferInstanceAs (Decidable (w.state = .idle ∨ w.state.isCollecting ∧ w.samples.isEmpty))
  | .finalize => inferInstanceAs (Decidable (w.state ≠ .idle))
  | .ingest _ => inferInstanceAs (Decidable True)
  | .reset => inferInstanceAs (Decidable True)

/-- What the state says of the buffer. -/
def StateFits (luSolve : LuSolve Float) (samples : List MagSample) (lastCoverageRefresh : Nat) : WizardState → Prop
  | .idle => samples = []
  | .collecting n cov => n = samples.length ∧ (samples = [] → cov = 0.0 ∧ lastCoverageRefresh = 0)
  | .ready cal => finalState luSolve samples = .ready cal
  | .failed reason => finalState luSolve samples = .failed reason

structure Inv (luSolve : LuSolve Float) (w : MagCalWizard) : Prop where
  within : w.samples.length ≤ w.cap.toNat
  finite : ∀ p ∈ w.samples, FiniteSample p
  fits : StateFits luSolve w.samples w.lastCoverageRefresh w.state

variable {luSolve : LuSolve Float} {w : MagCalWizard}

theorem finalState_cases (luSolve : LuSolve Float) (samples : List MagSample) :
    (∃ cal, finalState luSolve samples = .ready cal) ∨ ∃ reason, finalState luSolve samples = .failed reason := by
  unfold finalState
  split
  · exact .inr ⟨_, rfl⟩
  · split
    · exact .inr ⟨_, rfl⟩
    · split
      · exact .inr ⟨_, rfl⟩
      · split
        · exact .inr ⟨_, rfl⟩
        · exact .inl ⟨_, rfl⟩

theorem of_finalState_ready {samples : List MagSample} {cal : MagCalibration}
    (h : finalState luSolve samples = .ready cal) :
    12 ≤ samples.length ∧ calibrateSamples luSolve samples = some cal ∧ ¬ cal.coverage < MIN_ACCEPTABLE_COVERAGE ∧
      ¬ MAX_ACCEPTABLE_RESIDUAL < cal.residual := by
  unfold finalState at h
  split at h
  · cases h
  · rename_i hlen
    split at h
    · cases h
    · rename_i cal' hcal
      split at h
      · cases h
      · rename_i hcov
        split at h
        · cases h
        · rename_i hres
          cases h
          exact ⟨not_lt.1 hlen, hcal, hcov, hres⟩

/-- `ingest` ignores a sample, or it is collecting, has room and gets a finite sample, and then counts it. -/
theorem ingest_cases (w : MagCalWizard) (sample : MagSample) :
    w.ingest sample = w ∨
      (w.state.isCollecting ∧ w.samples.length < w.cap.toNat ∧ FiniteSample sample ∧
        ∃ cov last, w.ingest sample = { w with
          samples := w.samples ++ [sample]
          state := .collecting (w.samples ++ [sample]).length cov
          lastCoverageRefresh := last }) := by
  unfold ingest
  split
  · exact .inl rfl
  · rename_i hstate
    split
    · exact .inl rfl
    · rename_i hroom
      split
      · exact .inl rfl
      · rename_i hfin
        have hcollecting : w.state.isCollecting = true := by simpa using hstate
        refine .inr ⟨hcollecting, not_le.1 hroom, finiteSample_of_all hfin, ?_⟩
        unfold maybeRefreshProgress
        dsimp only
        split
        · exact ⟨_, _, rfl⟩
        · cases hs : w.state with
          | idle => rw [hs] at hcollecting; cases hcollecting
          | collecting n cov => exact ⟨cov, _, rfl⟩
          | ready cal => rw [hs] at hcollecting; cases hcollecting
          | failed reason => rw [hs] at hcollecting; cases hcollecting

theorem inv_withCapacity (luSolve : LuSolve Float) (cap : UInt64) : Inv luSolve (withCapacity cap) :=
  ⟨Nat.zero_le _, nofun, rfl⟩

theorem inv_ingest (h : Inv luSolve w) (sample : MagSample) : Inv luSolve (w.ingest sample) := by
  rcases ingest_cases w sample with heq | ⟨-, hroom, hfin, cov, last, heq⟩
  · rw [heq]
    exact h
  · rw [heq]
    refine ⟨?_, ?_, rfl, fun hnil => absurd hnil (by simp)⟩
    · rw [List.length_append]
      exact hroom
    · intro p hp
      rcases List.mem_append.1 hp with hp | hp
      · exact h.finite p hp
      · rw [List.mem_singleton.1 hp]
        exact hfin

theorem inv_step (op : WizardOp) (h : Inv luSolve w) : Inv luSolve (w.step luSolve op) := by
  cases op with
  | start => exact ⟨Nat.zero_le _, nofun, rfl, fun _ => ⟨rfl, rfl⟩⟩
  | ingest sample => exact inv_ingest h sample
  | finalize =>
    refine ⟨h.within, h.finite, ?_⟩
    show StateFits luSolve w.samples w.lastCoverageRefresh (finalState luSolve w.samples)
    rcases finalState_cases luSolve w.samples with ⟨cal, heq⟩ | ⟨reason, heq⟩
    · rw [heq]
      exact heq
    · rw [heq]
      exact heq
  | reset => exact ⟨Nat.zero_le _, nofun, rfl⟩

theorem Inv.sound (h : Inv luSolve w) : w.Sound where
  within := h.within
  taken n cov hs := by
    have hfits := h.fits
    rw [hs] at hfits
    exact hfits.1
  gated cal hs := by
    have hfits := h.fits
    rw [hs] at hfits
    obtain ⟨hlen, hcal, hcov, hres⟩ := of_finalState_ready hfits
    refine ⟨hlen, ?_, residual_le_of_not_lt (h.within.trans_lt w.cap.toNat_lt) h.finite hcal hres⟩
    rw [calibrateSamples, Option.map_eq_some_iff] at hcal
    obtain ⟨fitted, hfitted, rfl⟩ := hcal
    rw [calibrate, Option.map_eq_some_iff] at hfitted
    obtain ⟨fit, -, rfl⟩ := hfitted
    exact coverage_ge_of_not_lt w.samples fit.center hcov

/-- Before the first sample `start` changes nothing. -/
theorem Inv.start_eq (h : Inv luSolve w) (hstate : w.state.isCollecting) (hnil : w.samples = []) : w.start = w := by
  obtain ⟨samples, cap, state, every, last⟩ := w
  have hfits := h.fits
  obtain rfl : samples = [] := hnil
  cases state with
  | idle => cases hstate
  | collecting n cov =>
    obtain ⟨hn, hfresh⟩ := hfits
    obtain ⟨hcov, hlast⟩ := hfresh rfl
    obtain rfl : n = 0 := hn
    obtain rfl : cov = 0.0 := hcov
    obtain rfl : last = 0 := hlast
    rfl
  | ready cal => cases hstate
  | failed reason => cases hstate

theorem Inv.keepsLifecycle_start (h : Inv luSolve w) : KeepsLifecycle luSolve w .start ↔ InOrder w .start := by
  have hstart : (w.step luSolve .start).state = .collecting 0 0.0 := rfl
  constructor
  · rintro ⟨hchange, hnoop⟩
    cases hs : w.state with
    | idle => exact .inl hs
    | collecting n cov =>
      have heq := hnoop rfl (by rw [hs]; rfl)
      have hnil : [] = w.samples := congrArg samples heq
      exact .inr ⟨by rw [hs]; rfl, by rw [← hnil]; rfl⟩
    | ready cal =>
      rw [hstart, hs] at hchange
      rcases hchange with hchange | ⟨hidle, -⟩
      · cases hchange
      · cases hidle
    | failed reason =>
      rw [hstart, hs] at hchange
      rcases hchange with hchange | ⟨hidle, -⟩
      · cases hchange
      · cases hidle
  · rintro (hidle | ⟨hcollecting, hnil⟩)
    · refine ⟨.inr ⟨hidle, rfl⟩, fun _ hcollecting => ?_⟩
      rw [hidle] at hcollecting
      cases hcollecting
    · have heq : w.step luSolve .start = w := h.start_eq hcollecting (List.isEmpty_iff.1 hnil)
      exact ⟨.inl (congrArg state heq), fun _ _ => heq⟩

theorem Inv.keepsLifecycle_finalize (h : Inv luSolve w) :
    KeepsLifecycle luSolve w .finalize ↔ InOrder w .finalize := by
  have hfits := h.fits
  have hfinal := finalState_cases luSolve w.samples
  have hfinalize : (w.step luSolve .finalize).state = finalState luSolve w.samples := rfl
  rw [KeepsLifecycle, InOrder, hfinalize]
  cases hs : w.state with
  | idle =>
    refine iff_of_false ?_ (not_not.2 rfl)
    rintro ⟨heq | ⟨hcollecting, -⟩, -⟩
    · rcases hfinal with ⟨cal, hfinal⟩ | ⟨reason, hfinal⟩
      · rw [hfinal] at heq
        cases heq
      · rw [hfinal] at heq
        cases heq
    · cases hcollecting
  | collecting n cov => exact iff_of_true ⟨.inr ⟨rfl, hfinal⟩, nofun⟩ nofun
  | ready cal =>
    rw [hs] at hfits
    exact iff_of_true ⟨.inl hfits, nofun⟩ nofun
  | failed reason =>
    rw [hs] at hfits
    exact iff_of_true ⟨.inl hfits, nofun⟩ nofun

theorem keepsLifecycle_ingest (w : MagCalWizard) (sample : MagSample) : KeepsLifecycle luSolve w (.ingest sample) := by
  refine ⟨?_, nofun⟩
  rcases ingest_cases w sample with heq | ⟨hcollecting, -, -, cov, last, heq⟩
  · exact .inl (congrArg state heq)
  · refine .inr ⟨hcollecting, ?_⟩
    show (w.ingest sample).state.isCollecting = true
    rw [heq]
    rfl

/-- The steps that keep to the lifecycle. -/
theorem Inv.keepsLifecycle_iff (h : Inv luSolve w) (op : WizardOp) : KeepsLifecycle luSolve w op ↔ InOrder w op := by
  cases op with
  | start => exact h.keepsLifecycle_start
  | ingest sample => exact iff_of_true (keepsLifecycle_ingest w sample) trivial
  | finalize => exact h.keepsLifecycle_finalize
  | reset => exact iff_of_true ⟨.inr rfl, nofun⟩ trivial

theorem Inv.along_iff (h : Inv luSolve w) (ops : List WizardOp) :
    Along (step luSolve) (KeepsLifecycle luSolve) w ops ↔ Along (step luSolve) InOrder w ops :=
  along_congr (fun _ op h => inv_step op h) (fun _ op h => h.keepsLifecycle_iff op) h ops

/-- Every state is sound, and the steps keep to the lifecycle exactly in a run whose steps are in order. -/
theorem wizard_lifecycle_iff (luSolve : LuSolve Float) (cap : UInt64) (ops : List WizardOp) :
    (run luSolve (withCapacity cap) ops).Sound ∧
      (Along (step luSolve) (KeepsLifecycle luSolve) (withCapacity cap) ops ↔
        Along (step luSolve) InOrder (withCapacity cap) ops) := by
  have hinv := inv_withCapacity luSolve cap
  have hend : Inv luSolve (run luSolve (withCapacity cap) ops) := foldl_invariant (fun _ op h => inv_step op h) hinv ops
  exact ⟨hend.sound, hinv.along_iff ops⟩

/-- `finalize` in `Idle` ends in `Failed`, and `start` drops the sample of a collection that is under way. -/
theorem wizard_leaves_lifecycle :
    ¬ Along (step fun _ _ => none) (KeepsLifecycle fun _ _ => none) (withCapacity 16) [.finalize] ∧
      ¬ Along (step fun _ _ => none) (KeepsLifecycle fun _ _ => none) (withCapacity 16)
        [.start, .ingest (.replicate 3 1.0), .start] := by
  have hinv := inv_withCapacity (fun _ _ => none) 16
  rw [hinv.along_iff, hinv.along_iff]
  decide +kernel

/-- In every reached state the UI is shown the length of the buffer. -/
theorem progress_samples (luSolve : LuSolve Float) (cap : UInt64) (ops : List WizardOp) :
    (run luSolve (withCapacity cap) ops).progress.samples =
      .ofNat (run luSolve (withCapacity cap) ops).samples.length := by
  have hsound := (foldl_invariant (fun _ op h => inv_step op h) (inv_withCapacity luSolve cap) ops).sound
  unfold progress
  split
  · rename_i n cov hs
    exact congrArg UInt32.ofNat (hsound.taken n cov hs)
  · rfl
  · rfl
  · rfl

end MagCalWizard

end EverythingImu.ImuMath
