import EverythingImu.Core.FilterImpl
import EverythingImu.Core.PipelineRun
import EverythingImu.Library.FloatOrder

/-!
# The stored bias over a session

A session is `Pipeline::new` and a run of its loop.  Afterwards the store holds for the device what it held before, or
the estimate of a pipeline that the run went through (`run_loadBias`).  What is stored is below the cap on every axis,
and so the next session takes it (`below_cap_of_storedBias`, `new_seeds_storedBias`).

A filter without bias estimation reads as an estimate of zero, and `persist_bias` does not ask which filter runs.  So
the stored bias is a real estimate over every session of a configuration exactly when the configuration selects the VQF
or the stored bias is zero already (`bias_real_iff`).
-/

namespace EverythingImu.Core

section Pipeline

variable {F : Type} [OrientationFilter F]

/-- What `persist_bias` stores: the estimate, unless it is saturated or not finite. -/
def Pipeline.storedBias (p : Pipeline F) : Option (Vector Float 3) :=
  let bias := OrientationFilter.biasEstimate p.fusion
  if saturated bias then none
  else if bias.all Float.isFinite then some bias
  else none

/-- Strictly below the cap on every axis. -/
def BelowCap (bias : Vector Float 3) : Prop := ∀ i, (toDegrees (bias.get i)).abs < BIAS_CAP_DPS

namespace Pipeline

theorem persistBias_eq (p : Pipeline F) (store : BiasStore) :
    p.persistBias store =
      match p.storedBias with
      | some bias => store.insert p.metadata.id bias
      | none => store := by
  unfold persistBias storedBias storeBias
  simp only
  split
  · rfl
  · split <;> rfl

/-! ### The guards agree -/

theorem isFinite_rad_to_deg : (180.0 / 3.14159265358979323846264338327950288 : Float).isFinite = true := by
  decide +kernel

theorem storedBias_eq_some {p : Pipeline F} {bias : Vector Float 3} :
    p.storedBias = some bias ↔
      OrientationFilter.biasEstimate p.fusion = bias ∧ saturated bias = false ∧ bias.all Float.isFinite = true := by
  unfold storedBias
  simp only
  split
  · rename_i hsat
    refine ⟨nofun, ?_⟩
    rintro ⟨rfl, hnot, -⟩
    exact absurd hsat (Bool.eq_false_iff.1 hnot)
  · rename_i hsat
    split
    · rename_i hfin
      rw [Option.some.injEq]
      refine ⟨?_, And.left⟩
      rintro rfl
      exact ⟨rfl, Bool.eq_false_iff.2 hsat, hfin⟩
    · rename_i hfin
      refine ⟨nofun, ?_⟩
      rintro ⟨rfl, -, hall⟩
      exact absurd hall hfin

/-- What passes the guard of `persist_bias` is strictly below the cap. -/
theorem below_cap_of_storedBias {p : Pipeline F} {bias : Vector Float 3} (h : p.storedBias = some bias) :
    BelowCap bias := by
  obtain ⟨-, hsat, hfin⟩ := storedBias_eq_some.1 h
  intro i
  have hv : bias.get i ∈ bias := Vector.getElem_mem i.isLt
  have hnot : ¬ BIAS_CAP_DPS ≤ (toDegrees (bias.get i)).abs := by
    intro hle
    refine Bool.eq_false_iff.1 hsat ?_
    rw [saturated, Vector.any_eq_true']
    exact ⟨_, hv, decide_eq_true hle⟩
  have hfinite := Vector.all_eq_true'.1 hfin _ hv
  refine (FloatOrder.not_le_iff_lt ?_ ?_).1 hnot
  · decide +kernel
  · exact FloatOrder.isNaN_float_abs (FloatOrder.isNaN_float_mul hfinite isFinite_rad_to_deg)

theorem biasEstimate_of_storedBias {p : Pipeline F} {bias : Vector Float 3} (h : p.storedBias = some bias) :
    OrientationFilter.biasEstimate p.fusion = bias :=
  (storedBias_eq_some.1 h).1

theorem saturated_storedBias {p : Pipeline F} {bias : Vector Float 3} (h : p.storedBias = some bias) :
    saturated bias = false :=
  (storedBias_eq_some.1 h).2.1

/-- `Pipeline::new` seeds its filter with a stored bias that passed the guard of `persist_bias`. -/
theorem new_seeds_storedBias {p : Pipeline F} {bias : Vector Float 3} (h : p.storedBias = some bias)
    {metadata : DeviceMetadata} {store : BiasStore} (hload : loadBias store metadata.id = some bias) (sensorId : UInt8)
    (config : PipelineConfig) (now : Instant) :
    (Pipeline.new metadata store sensorId config now : Pipeline F).fusion =
      OrientationFilter.setBiasEstimate
        (OrientationFilter.create config.fusion (1.0 / Float.ofNat metadata.capabilities.nativeImuRateHz.toNat)
          metadata.capabilities.hasMagnetometer) bias := by
  simp only [Pipeline.new, hload, saturated_storedBias h, Bool.false_eq_true, if_false]

/-! ### What a turn stores -/

variable (calibrate : List Mag → Option MagCalibration)

/-- A turn leaves the store alone, or persists the bias of the pipeline that is left. -/
theorem runTurn_store (p : Pipeline F) (store : BiasStore) (t : RunTurn) :
    (p.runTurn calibrate store t).store = store ∨
      (p.runTurn calibrate store t).store = (p.runTurn calibrate store t).pipeline.persistBias store := by
  cases t with
  | stop => exact Or.inr rfl
  | allDisabled => exact Or.inr rfl
  | magCalCmd cmd => exact Or.inl rfl
  | event evt env =>
    have hevent := p.handleEvent_store store env evt
    simp only [runTurn]
    split
    · exact hevent
    · rcases hevent with hs | hs
      · exact Or.inr (by rw [hs])
      · exact Or.inr (by rw [hs, persistBias_idem])

theorem runTurn_metadata (p : Pipeline F) (store : BiasStore) (t : RunTurn) :
    (p.runTurn calibrate store t).pipeline.metadata = p.metadata := by
  cases t with
  | stop => rfl
  | allDisabled => rfl
  | magCalCmd cmd => rfl
  | event evt env =>
    have hframe := (p.handleEvent_frame store env evt).metadata
    have hp : (if p.connects env then p.advertised env else p).metadata = p.metadata := by split <;> rfl
    simp only [runTurn]
    split <;> exact hframe.trans hp

/-- A turn leaves the bias of the device, or stores the estimate that the pipeline has after it. -/
theorem runTurn_loadBias (p : Pipeline F) (store : BiasStore) (t : RunTurn) :
    loadBias (p.runTurn calibrate store t).store p.metadata.id = loadBias store p.metadata.id ∨
      ∃ bias, (p.runTurn calibrate store t).pipeline.storedBias = some bias ∧
        loadBias (p.runTurn calibrate store t).store p.metadata.id = some bias := by
  rcases p.runTurn_store calibrate store t with hs | hs
  · exact Or.inl (by rw [hs])
  · rw [hs, persistBias_eq, runTurn_metadata]
    cases hb : (p.runTurn calibrate store t).pipeline.storedBias with
    | none => exact Or.inl rfl
    | some bias => exact Or.inr ⟨bias, rfl, AList.lookup_insert _⟩

/-! ### What a run stores -/

/-- What holds at the start and is kept by every turn that is taken holds after every run. -/
theorem run_induction {P : Pipeline F → BiasStore → Prop}
    (hturn : ∀ p store t, P p store → P (p.runTurn calibrate store t).pipeline (p.runTurn calibrate store t).store)
    {p : Pipeline F} {store : BiasStore} (h : P p store) (turns : List RunTurn) :
    P (p.run calibrate store turns).pipeline (p.run calibrate store turns).store := by
  induction turns using List.reverseRecOn with
  | nil => exact h
  | append_singleton turns t ih =>
    rw [run_append_singleton]
    unfold RunState.turn
    split
    · exact ih
    · exact hturn _ _ _ ih

theorem run_metadata (p : Pipeline F) (store : BiasStore) (turns : List RunTurn) :
    (p.run calibrate store turns).pipeline.metadata = p.metadata :=
  run_induction calibrate (P := fun q _ => q.metadata = p.metadata)
    (fun q st t hq => (q.runTurn_metadata calibrate st t).trans hq) rfl turns

/-- A run that has returned has persisted the bias at the end. -/
theorem run_returned_store (p : Pipeline F) (store : BiasStore) {turns : List RunTurn}
    (h : (p.run calibrate store turns).returned ≠ none) :
    (p.run calibrate store turns).store =
      (p.run calibrate store turns).pipeline.persistBias (p.run calibrate store turns).store := by
  induction turns using List.reverseRecOn with
  | nil => exact absurd rfl h
  | append_singleton turns t ih =>
    rw [run_append_singleton] at h ⊢
    unfold RunState.turn at h ⊢
    cases hr : (p.run calibrate store turns).returned with
    | some r => exact ih (by simp [hr])
    | none =>
      rw [hr] at h
      obtain ⟨r, hr'⟩ := Option.ne_none_iff_exists'.1 h
      have hstore := runTurn_returned hr'
      simp only
      rw [hstore, persistBias_idem]

/-- A run leaves the bias of the device, or stores the estimate that the pipeline has after one of its turns. -/
theorem run_loadBias (p : Pipeline F) (store : BiasStore) (turns : List RunTurn) :
    loadBias (p.run calibrate store turns).store p.metadata.id = loadBias store p.metadata.id ∨
      ∃ n bias, (p.run calibrate store (turns.take n)).pipeline.storedBias = some bias ∧
        loadBias (p.run calibrate store turns).store p.metadata.id = some bias := by
  induction turns using List.reverseRecOn with
  | nil => exact Or.inl rfl
  | append_singleton turns t ih =>
    have hlast : (turns ++ [t]).take (turns.length + 1) = turns ++ [t] := List.take_of_length_le (by simp)
    have hmeta := p.run_metadata calibrate store turns
    -- an earlier turn of the shorter run is one of the longer run
    have hearlier : ∀ {bias}, (∃ n, (p.run calibrate store (turns.take n)).pipeline.storedBias = some bias) →
        ∃ n, (p.run calibrate store ((turns ++ [t]).take n)).pipeline.storedBias = some bias := by
      rintro bias ⟨n, hn⟩
      refine ⟨min n turns.length, ?_⟩
      rw [List.take_append_of_le_length (Nat.min_le_right _ _), ← List.take_eq_take_min]
      exact hn
    have hstep : loadBias (p.run calibrate store (turns ++ [t])).store p.metadata.id =
          loadBias (p.run calibrate store turns).store p.metadata.id ∨
        ∃ bias, (p.run calibrate store (turns ++ [t])).pipeline.storedBias = some bias ∧
          loadBias (p.run calibrate store (turns ++ [t])).store p.metadata.id = some bias := by
      rw [run_append_singleton]
      unfold RunState.turn
      split
      · exact Or.inl rfl
      · have hturn := (p.run calibrate store turns).pipeline.runTurn_loadBias calibrate
          (p.run calibrate store turns).store t
        rw [hmeta] at hturn
        exact hturn
    rcases hstep with hs | ⟨bias, hb, hl⟩
    · rcases ih with h | ⟨n, bias, hb, hl⟩
      · exact Or.inl (hs.trans h)
      · obtain ⟨k, hk⟩ := hearlier ⟨n, hb⟩
        exact Or.inr ⟨k, bias, hk, hs.trans hl⟩
    · exact Or.inr ⟨turns.length + 1, bias, by rw [hlast]; exact hb, hl⟩

end Pipeline

end Pipeline

/-! ### The algorithm over a run -/

namespace Pipeline

variable {V M : Type} [VqfFilter V] [MadgwickFilter M]

theorem applySamples_algo (config : PipelineConfig) (samples : List ImuSample) (p : Pipeline (FilterImpl V M)) :
    (samples.foldl (applySample · config) p).fusion.algo = p.fusion.algo := by
  induction samples generalizing p with
  | nil => rfl
  | cons s samples ih =>
    rw [List.foldl_cons, ih]
    exact FilterImpl.algo_update ..

theorem processBatch_algo (p : Pipeline (FilterImpl V M)) (env : EventEnv) (samples : List ImuSample) :
    (p.processBatch env samples).fusion.algo = p.fusion.algo := by
  unfold processBatch
  simp only
  rw [applySamples_algo]
  split
  · exact FilterImpl.algo_setTimestep ..
  · rfl

theorem onSamples_algo (p : Pipeline (FilterImpl V M)) (store : BiasStore) (env : EventEnv) (samples : List ImuSample) :
    (p.onSamples store env samples).pipeline.fusion.algo = p.fusion.algo := by
  have hbatch := p.processBatch_algo env samples
  unfold onSamples
  split
  · rfl
  · simp only
    split
    · exact hbatch
    · split <;> exact hbatch

theorem handleEvent_algo (p : Pipeline (FilterImpl V M)) (store : BiasStore) (env : EventEnv) (evt : ChannelInfo) :
    (p.handleEvent store env evt).pipeline.fusion.algo = p.fusion.algo := by
  unfold handleEvent
  split
  · rfl
  · cases evt with
    | connected id => rfl
    | imuSamples samples => exact (p.advertised env).onSamples_algo store env samples
    | battery b =>
      simp only [onEvent]
      split
      · rfl
      · rw [sendOne_pipeline]
        rfl
    | resetRequested kind =>
      simp only [onEvent]
      rw [sendOne_pipeline]
      rfl
    | disconnected => rfl

/-- No turn changes which filter runs. -/
theorem runTurn_algo (calibrate : List Mag → Option MagCalibration) (p : Pipeline (FilterImpl V M)) (store : BiasStore)
    (t : RunTurn) : (p.runTurn calibrate store t).pipeline.fusion.algo = p.fusion.algo := by
  cases t with
  | stop => rfl
  | allDisabled => rfl
  | magCalCmd cmd => rfl
  | event evt env =>
    have hevent := p.handleEvent_algo store env evt
    simp only [runTurn]
    split <;> exact hevent

end Pipeline

/-! ### Sessions -/

/-- What a session of a device starts from. -/
structure SessionStart where
  metadata : DeviceMetadata
  store : BiasStore
  sensorId : UInt8
  config : PipelineConfig
  now : Instant

variable (V M : Type) [VqfFilter V] [MadgwickFilter M] (calibrate : List Mag → Option MagCalibration)

namespace SessionStart

def pipeline (s : SessionStart) : Pipeline (FilterImpl V M) :=
  .new s.metadata s.store s.sensorId s.config s.now

def run (s : SessionStart) (turns : List RunTurn) : RunState (FilterImpl V M) :=
  (s.pipeline V M).run calibrate s.store turns

/-- The bias that the store holds for the device at the start. -/
def biasBefore (s : SessionStart) : Option (Vector Float 3) := loadBias s.store s.metadata.id

/-- The bias that the store holds for the device after the turns. -/
def biasAfter (s : SessionStart) (turns : List RunTurn) : Option (Vector Float 3) :=
  loadBias (s.run V M calibrate turns).store s.metadata.id

/-- The VQF filter of the session had the estimate after some of the turns. -/
def EstimatedBy (s : SessionStart) (turns : List RunTurn) (bias : Vector Float 3) : Prop :=
  ∃ n f, (s.run V M calibrate (turns.take n)).pipeline.fusion = .vqf f ∧ (VqfFilter.biasEstimate f).1 = bias

/-- A session that finds the bias in the store seeds its filter with it. -/
def Accepted (bias : Vector Float 3) : Prop :=
  ∀ next : SessionStart, next.biasBefore = some bias →
    (next.pipeline V M).fusion =
      (FilterImpl.new next.config.fusion (1.0 / Float.ofNat next.metadata.capabilities.nativeImuRateHz.toNat)
        next.metadata.capabilities.hasMagnetometer).setBiasEstimate bias (some 0.01)

/-- The stored bias is a real estimate over the session. -/
structure BiasReal (s : SessionStart) (turns : List RunTurn) : Prop where
  kept_or_estimated : s.biasAfter V M calibrate turns = s.biasBefore ∨
    ∃ bias, s.biasAfter V M calibrate turns = some bias ∧ s.EstimatedBy V M calibrate turns bias ∧ BelowCap bias
  accepted : ∀ n bias, (s.run V M calibrate (turns.take n)).pipeline.storedBias = some bias → Accepted V M bias
  kept_without_estimation : s.config.fusion ≠ .vqf → s.biasAfter V M calibrate turns = s.biasBefore

variable {V M}

theorem accepted_of_storedBias {p : Pipeline (FilterImpl V M)} {bias : Vector Float 3} (h : p.storedBias = some bias) :
    Accepted V M bias := by
  intro next hnext
  exact p.new_seeds_storedBias h hnext next.sensorId next.config next.now

/-- Every pipeline of a session runs the filter that its configuration selected at the start. -/
theorem run_algo (s : SessionStart) (turns : List RunTurn) :
    (s.run V M calibrate turns).pipeline.fusion.algo = s.config.fusion := by
  have hstart : (s.pipeline V M).fusion.algo = s.config.fusion := by
    simp only [pipeline, Pipeline.new]
    split
    · split
      · exact FilterImpl.algo_create ..
      · rw [FilterImpl.algo_setBiasEstimate, FilterImpl.algo_create]
    · exact FilterImpl.algo_create ..
  exact Pipeline.run_induction calibrate
    (P := fun (p : Pipeline (FilterImpl V M)) _ => p.fusion.algo = s.config.fusion)
    (fun p store t hp => (p.runTurn_algo calibrate store t).trans hp) hstart turns

/-- With the VQF the stored bias is real over every session. -/
theorem bias_real_of_vqf {s : SessionStart} (hv : s.config.fusion = .vqf) (turns : List RunTurn) :
    s.BiasReal V M calibrate turns := by
  refine ⟨?_, fun n bias h => accepted_of_storedBias h, fun h => absurd hv h⟩
  rcases (s.pipeline V M).run_loadBias calibrate s.store turns with h | ⟨n, bias, hb, hl⟩
  · exact Or.inl h
  · refine Or.inr ⟨bias, hl, ?_, Pipeline.below_cap_of_storedBias hb⟩
    have halgo := s.run_algo (V := V) (M := M) calibrate (turns.take n)
    have hest := Pipeline.biasEstimate_of_storedBias hb
    refine ⟨n, ?_⟩
    unfold run at halgo ⊢
    cases hf : ((s.pipeline V M).run calibrate s.store (turns.take n)).pipeline.fusion with
    | vqf f =>
      rw [hf] at hest
      exact ⟨f, rfl, hest⟩
    | madgwick f =>
      rw [hf, hv] at halgo
      cases halgo
    | basicVqf f =>
      rw [hf, hv] at halgo
      cases halgo

/-- Without bias estimation the store holds what it held, or zero. -/
theorem biasAfter_of_ne_vqf {s : SessionStart} (hv : s.config.fusion ≠ .vqf) (turns : List RunTurn) :
    s.biasAfter V M calibrate turns = s.biasBefore ∨
      s.biasAfter V M calibrate turns = some (.replicate 3 0.0) := by
  rcases (s.pipeline V M).run_loadBias calibrate s.store turns with h | ⟨n, bias, hb, hl⟩
  · exact Or.inl h
  · have halgo := s.run_algo (V := V) (M := M) calibrate (turns.take n)
    have hest := Pipeline.biasEstimate_of_storedBias hb
    rw [FilterImpl.biasEstimate_of_algo_ne (by rw [← SessionStart.run, halgo]; exact hv)] at hest
    subst hest
    exact Or.inr hl

theorem bias_real_of_zero {s : SessionStart} (hz : s.biasBefore = some (.replicate 3 0.0)) (turns : List RunTurn) :
    s.BiasReal V M calibrate turns := by
  by_cases hv : s.config.fusion = .vqf
  · exact bias_real_of_vqf calibrate hv turns
  · have hkept : s.biasAfter V M calibrate turns = s.biasBefore := by
      rcases biasAfter_of_ne_vqf (V := V) (M := M) calibrate hv turns with h | h
      · exact h
      · rw [h, hz]
    exact ⟨Or.inl hkept, fun n bias h => accepted_of_storedBias h, fun _ => hkept⟩

/-- A session without bias estimation that has ended leaves zero in the store. -/
theorem biasAfter_of_returned {s : SessionStart} (hv : s.config.fusion ≠ .vqf) {turns : List RunTurn}
    (h : (s.run V M calibrate turns).returned ≠ none) :
    s.biasAfter V M calibrate turns = some (.replicate 3 0.0) := by
  have hstored : (s.run V M calibrate turns).pipeline.storedBias = some (.replicate 3 0.0) := by
    have halgo := s.run_algo (V := V) (M := M) calibrate turns
    have hest := FilterImpl.biasEstimate_of_algo_ne (by rw [halgo]; exact hv)
    simp only [Pipeline.storedBias, hest]
    decide +kernel
  have hpersist := (s.pipeline V M).run_returned_store calibrate s.store h
  have hmeta := (s.pipeline V M).run_metadata calibrate s.store turns
  unfold biasAfter run at *
  rw [hpersist, Pipeline.persistBias_eq, hstored, hmeta]
  exact AList.lookup_insert _

/-- Over a session that has ended the stored bias is real exactly when the configuration selects the VQF, or the store
held zero for the device already. -/
theorem bias_real_ended_iff {s : SessionStart} {turns : List RunTurn}
    (h : (s.run V M calibrate turns).returned ≠ none) :
    s.BiasReal V M calibrate turns ↔ s.config.fusion = .vqf ∨ s.biasBefore = some (.replicate 3 0.0) := by
  constructor
  · intro hreal
    by_cases hv : s.config.fusion = .vqf
    · exact Or.inl hv
    · exact Or.inr ((hreal.kept_without_estimation hv).symm.trans (biasAfter_of_returned calibrate hv h))
  · rintro (hv | hz)
    · exact bias_real_of_vqf calibrate hv turns
    · exact bias_real_of_zero calibrate hz turns

/-- The stored bias is real over every session from a start exactly when it selects the VQF, or the store holds zero
for the device already. -/
theorem bias_real_iff (s : SessionStart) :
    (∀ turns, s.BiasReal V M calibrate turns) ↔
      s.config.fusion = .vqf ∨ s.biasBefore = some (.replicate 3 0.0) := by
  constructor
  · -- a session that is stopped at once has ended
    intro h
    have hended : (s.run V M calibrate [.stop]).returned ≠ none := nofun
    exact (bias_real_ended_iff calibrate hended).1 (h [.stop])
  · rintro (hv | hz) turns
    · exact bias_real_of_vqf calibrate hv turns
    · exact bias_real_of_zero calibrate hz turns

end SessionStart

/-! ### A session with the Madgwick filter -/

/-- A VQF filter that keeps the bias that it is given. -/
structure RestingVqf where
  bias : Vector Float 3
  sigma : Float

instance : VqfFilter RestingVqf where
  withParams _ params := ⟨.replicate 3 0.0, params.biasSigmaInit⟩
  update f _ _ _ := f
  quat6d _ := .ofFn fun i => if i = 0 then 1.0 else 0.0
  quat9d _ := .ofFn fun i => if i = 0 then 1.0 else 0.0
  magSeen _ := false
  biasEstimate f := (f.bias, f.sigma)
  setBiasEstimate f bias sigma := ⟨bias, sigma.getD f.sigma⟩
  setTimestep f _ := f

/-- A Madgwick filter whose samples have no acceleration: it drops them. -/
structure RestingMadgwick where
  samplePeriod : Float32
  beta : Float32
  quat : Vector Float32 4

instance : MadgwickFilter RestingMadgwick where
  new samplePeriod := ⟨samplePeriod, 0.1, #v[1.0, 0.0, 0.0, 0.0]⟩
  updateImu f _ _ := f
  updateMarg f _ _ _ := f
  quaternion f := f.quat
  setSamplePeriod f samplePeriod := { f with samplePeriod }

/-- A phone with the Madgwick filter, for which an earlier session has stored an estimate. -/
def madgwickStart : SessionStart where
  metadata := phoneMetadata
  store := (∅ : BiasStore).insert phoneMetadata.id #v[0.002, -0.001, 0.0005]
  sensorId := 0
  config := { PipelineConfig.default with fusion := .madgwick }
  now := 0

/-- The session is stopped at once: the estimate of the earlier session is lost. -/
theorem madgwick_session_overwrites_bias :
    madgwickStart.biasBefore = some #v[0.002, -0.001, 0.0005] ∧
      madgwickStart.biasAfter RestingVqf RestingMadgwick (fun _ => none) [.stop] = some (.replicate 3 0.0) ∧
      ¬ madgwickStart.BiasReal RestingVqf RestingMadgwick (fun _ => none) [.stop] := by
  have hbefore : madgwickStart.biasBefore = some #v[0.002, -0.001, 0.0005] := by decide +kernel
  have hafter : madgwickStart.biasAfter RestingVqf RestingMadgwick (fun _ => none) [.stop] =
      some (.replicate 3 0.0) := by
    decide +kernel
  refine ⟨hbefore, hafter, fun hreal => ?_⟩
  have hkept := hreal.kept_without_estimation (by decide)
  rw [hbefore, hafter, Option.some.injEq] at hkept
  exact absurd hkept (by decide +kernel)

end EverythingImu.Core
