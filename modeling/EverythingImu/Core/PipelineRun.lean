import EverythingImu.Core.Pipeline
import Mathlib.Data.List.Induction

/-!
# Runs of a pipeline

What the handling of an event leaves alone (`Pipeline.Frame`), which errors it ends with, and runs of the loop.

The lazy connect stands before the match on the event, and a failed connect drops the event.  So a `Disconnected`
ends the run exactly when the connection was opened by then (`disconnect_ends_run_iff`).
-/

namespace EverythingImu.Core

variable {F : Type} [OrientationFilter F]

/-! ### What an event leaves alone -/

/-- The fields that only the connect and the advertise section change. -/
structure Pipeline.Frame (p p' : Pipeline F) : Prop where
  metadata : p'.metadata = p.metadata
  connected : p'.connected = p.connected
  sensorId : p'.sensorId = p.sensorId
  advert : p'.advert = p.advert

namespace Pipeline

omit [OrientationFilter F] in
theorem Frame.refl (p : Pipeline F) : Frame p p := ⟨rfl, rfl, rfl, rfl⟩

omit [OrientationFilter F] in
theorem Frame.trans {p q r : Pipeline F} (h : Frame p q) (h' : Frame q r) : Frame p r :=
  ⟨h'.metadata.trans h.metadata, h'.connected.trans h.connected, h'.sensorId.trans h.sensorId,
    h'.advert.trans h.advert⟩

theorem applySamples_frame (config : PipelineConfig) (samples : List ImuSample) (p : Pipeline F) :
    Frame p (samples.foldl (applySample · config) p) := by
  induction samples generalizing p with
  | nil => exact Frame.refl p
  | cons s samples ih =>
    have hs : Frame p (p.applySample config s) := ⟨rfl, rfl, rfl, rfl⟩
    exact hs.trans (ih _)

theorem processBatch_frame (p : Pipeline F) (env : EventEnv) (samples : List ImuSample) :
    Frame p (p.processBatch env samples) := by
  unfold processBatch
  simp only
  refine Frame.trans ?_ (applySamples_frame env.config samples _)
  exact ⟨rfl, rfl, rfl, rfl⟩

theorem onSamples_frame (p : Pipeline F) (store : BiasStore) (env : EventEnv) (samples : List ImuSample) :
    Frame p (p.onSamples store env samples).pipeline := by
  have hbatch := p.processBatch_frame env samples
  unfold onSamples
  split
  · exact Frame.refl p
  · simp only
    split
    · exact hbatch
    · split
      · exact hbatch.trans ⟨rfl, rfl, rfl, rfl⟩
      · exact hbatch

omit [OrientationFilter F] in
theorem sendOne_pipeline (p : Pipeline F) (store : BiasStore) (env : EventEnv) (packet : SlimeSend) :
    (p.sendOne store env packet).pipeline = p := by
  unfold sendOne
  split <;> rfl

theorem onEvent_frame (p : Pipeline F) (store : BiasStore) (env : EventEnv) (evt : ChannelInfo) :
    Frame p (p.onEvent store env evt).pipeline := by
  cases evt with
  | connected id => exact Frame.refl p
  | imuSamples samples => exact p.onSamples_frame store env samples
  | battery b =>
    unfold onEvent
    simp only
    split
    · exact Frame.refl p
    · rw [sendOne_pipeline]
      exact Frame.refl p
  | resetRequested kind =>
    unfold onEvent
    rw [sendOne_pipeline]
    exact Frame.refl p
  | disconnected => exact Frame.refl p

/-- The pipeline after an event, up to what the match on the event does. -/
theorem handleEvent_frame (p : Pipeline F) (store : BiasStore) (env : EventEnv) (evt : ChannelInfo) :
    Frame (if p.connects env then p.advertised env else p) (p.handleEvent store env evt).pipeline := by
  unfold handleEvent
  cases hc : p.connects env with
  | false => exact Frame.refl p
  | true => exact (p.advertised env).onEvent_frame store env evt

theorem handleEvent_connected (p : Pipeline F) (store : BiasStore) (env : EventEnv) (evt : ChannelInfo) :
    (p.handleEvent store env evt).pipeline.connected = p.connects env := by
  rw [(p.handleEvent_frame store env evt).connected]
  unfold connects
  cases hp : p.connected <;> cases env.connect.isOk <;> simp [advertised, hp]

/-! ### The bias -/

theorem storeBias_idem (store : BiasStore) (id : DeviceId) (bias : Vector Float 3) :
    storeBias (storeBias store id bias) id bias = storeBias store id bias := by
  unfold storeBias
  split
  · exact AList.insert_insert _
  · rfl

/-- Persisting twice is persisting once. -/
theorem persistBias_idem (p : Pipeline F) (store : BiasStore) :
    p.persistBias (p.persistBias store) = p.persistBias store := by
  unfold persistBias
  simp only
  split
  · rfl
  · exact storeBias_idem _ _ _

end Pipeline

namespace Pipeline

/-- Only the filter and the device matter for what is stored. -/
theorem persistBias_congr {p q : Pipeline F} (hf : p.fusion = q.fusion) (hm : p.metadata = q.metadata)
    (store : BiasStore) : p.persistBias store = q.persistBias store := by
  unfold persistBias
  rw [hf, hm]

/-- An event leaves the store alone, or persists the bias of the pipeline that is left. -/
theorem handleEvent_store (p : Pipeline F) (store : BiasStore) (env : EventEnv) (evt : ChannelInfo) :
    (p.handleEvent store env evt).store = store ∨
      (p.handleEvent store env evt).store = (p.handleEvent store env evt).pipeline.persistBias store := by
  unfold handleEvent
  split
  · exact Or.inl rfl
  · generalize p.advertised env = q
    cases evt with
    | connected id => exact Or.inl rfl
    | disconnected => exact Or.inr rfl
    | resetRequested kind =>
      simp only [onEvent, sendOne]
      split <;> exact Or.inl rfl
    | battery b =>
      simp only [onEvent, sendOne]
      split
      · exact Or.inl rfl
      · split <;> exact Or.inl rfl
    | imuSamples samples =>
      simp only [onEvent, onSamples]
      split
      · exact Or.inl rfl
      · split
        · exact Or.inl rfl
        · split
          -- the periodic path notes the time besides
          · exact Or.inr (persistBias_congr rfl rfl _)
          · exact Or.inl rfl

/-- A turn that ends the run persists the bias. -/
theorem runTurn_returned {calibrate : List Mag → Option MagCalibration} {p : Pipeline F} {store : BiasStore}
    {t : RunTurn} {result : Except AppError Unit} (h : (p.runTurn calibrate store t).returned = some result) :
    (p.runTurn calibrate store t).store = (p.runTurn calibrate store t).pipeline.persistBias store := by
  cases t with
  | stop => rfl
  | allDisabled => rfl
  | magCalCmd cmd => cases h
  | event evt env =>
    simp only [runTurn] at h ⊢
    split at h
    · cases h
    · simp only
      rcases p.handleEvent_store store env evt with hs | hs
      · rw [hs]
      · rw [hs, persistBias_idem]

end Pipeline

/-! ### Runs -/

/-- A run of the loop: the last turn that was taken. -/
structure RunState (F : Type) where
  pipeline : Pipeline F
  store : BiasStore
  returned : Option (Except AppError Unit)

variable (calibrate : List Mag → Option MagCalibration)

/-- One turn; a run that has returned takes no more turns. -/
def RunState.turn (s : RunState F) (t : RunTurn) : RunState F :=
  match s.returned with
  | some _ => s
  | none =>
    let o := s.pipeline.runTurn calibrate s.store t
    ⟨o.pipeline, o.store, o.returned⟩

/-- `run`, with the branches that its turns take. -/
def Pipeline.run (p : Pipeline F) (store : BiasStore) (turns : List RunTurn) : RunState F :=
  turns.foldl (RunState.turn calibrate) ⟨p, store, none⟩

theorem Pipeline.run_append_singleton (p : Pipeline F) (store : BiasStore) (turns : List RunTurn) (t : RunTurn) :
    p.run calibrate store (turns ++ [t]) = (p.run calibrate store turns).turn calibrate t := by
  simp [Pipeline.run]

/-- The connect attempt of some event of the turns succeeds, if it is made. -/
def SomeConnectOk (turns : List RunTurn) : Bool :=
  turns.any fun
    | .event _ env => env.connect.isOk
    | _ => false

theorem runTurn_connected (p : Pipeline F) (store : BiasStore) (t : RunTurn) :
    (p.runTurn calibrate store t).pipeline.connected = (p.connected || SomeConnectOk [t]) := by
  cases t with
  | stop => simp [Pipeline.runTurn, SomeConnectOk]
  | allDisabled => simp [Pipeline.runTurn, SomeConnectOk]
  | magCalCmd cmd => simp [Pipeline.runTurn, SomeConnectOk]
  | event evt env =>
    have hc := p.handleEvent_connected store env evt
    unfold Pipeline.runTurn
    simp only
    split <;> simp [hc, Pipeline.connects, SomeConnectOk]

/-- A run that has not returned is connected exactly when the connect attempt of one of its events succeeded. -/
theorem run_connected {p : Pipeline F} {store : BiasStore} {turns : List RunTurn}
    (h : (p.run calibrate store turns).returned = none) :
    (p.run calibrate store turns).pipeline.connected = (p.connected || SomeConnectOk turns) := by
  induction turns using List.reverseRecOn with
  | nil => simp [Pipeline.run, SomeConnectOk]
  | append_singleton turns t ih =>
    rw [Pipeline.run_append_singleton] at h ⊢
    generalize p.run calibrate store turns = s at h ih
    unfold RunState.turn at h ⊢
    cases hr : s.returned with
    | some r => simp [hr] at h
    | none =>
      simp only [runTurn_connected, ih hr]
      simp [SomeConnectOk, Bool.or_assoc]

/-- A `Disconnected` that the loop consumes persists the bias and ends the run with `DeviceDisconnected` exactly when
the connection is open or opened by this event. -/
theorem runTurn_disconnected_iff (p : Pipeline F) (store : BiasStore) (env : EventEnv) :
    ((p.runTurn calibrate store (.event .disconnected env)).returned = some (.error .deviceDisconnected) ∧
      (p.runTurn calibrate store (.event .disconnected env)).store = p.persistBias store) ↔
      p.connects env = true := by
  cases hc : p.connects env with
  | false => simp [Pipeline.runTurn, Pipeline.handleEvent, hc]
  | true =>
    have hidem := (p.advertised env).persistBias_idem store
    simp only [Pipeline.runTurn, Pipeline.handleEvent, hc, Bool.not_true, Bool.false_eq_true, if_false,
      Pipeline.onEvent, iff_true]
    exact ⟨trivial, hidem⟩

/-- Over any run that has not returned: consuming a `Disconnected` persists the bias and returns `DeviceDisconnected`
exactly when the connect attempt of some event so far, this one included, succeeds. -/
theorem disconnect_ends_run_iff (metadata : DeviceMetadata) (store : BiasStore) (sensorId : UInt8)
    (config : PipelineConfig) (now : Instant) (turns : List RunTurn) (env : EventEnv)
    (h : ((Pipeline.new metadata store sensorId config now : Pipeline F).run calibrate store turns).returned = none) :
    let s := (Pipeline.new metadata store sensorId config now : Pipeline F).run calibrate store turns
    let t := s.turn calibrate (.event .disconnected env)
    (t.returned = some (.error .deviceDisconnected) ∧ t.store = s.pipeline.persistBias s.store) ↔
      SomeConnectOk (turns ++ [.event .disconnected env]) = true := by
  intro s t
  have hconn : s.pipeline.connected = SomeConnectOk turns := by
    rw [run_connected calibrate h]
    simp [Pipeline.new]
  have hs : s.returned = none := h
  have hiff := runTurn_disconnected_iff calibrate s.pipeline s.store env
  simp only [t, RunState.turn, hs]
  rw [hiff]
  simp [Pipeline.connects, hconn, SomeConnectOk]

/-! ### A device at rest -/

/-- A filter that never turns and estimates no bias. -/
inductive StillFilter where
  | still

instance : OrientationFilter StillFilter where
  create _ _ _ := .still
  setBiasEstimate f _ := f
  setTimestep f _ := f
  update f _ _ _ := f
  quatWijk _ _ := #v[1.0, 0.0, 0.0, 0.0]
  biasEstimate _ := #v[0.0, 0.0, 0.0]

def phoneMetadata : DeviceMetadata := ⟨⟨#v[1, 2, 3, 4, 5, 6], "a"⟩, .phone, none, ⟨false, true, true, 200⟩⟩

/-- Surroundings with default settings and a server that takes every packet. -/
def serverEnv (connect : Except String Unit) (confirmed : Bool) : EventEnv where
  connect
  confirmed
  advertisedConfig := .default
  sensorInfo := .ok ()
  featureFlags := .ok ()
  arrival := 0
  config := .default
  paused := false
  send := .ok ()
  sendMagnetometer := .ok ()
  persistCheck := 0
  persisted := 0

def stillPipeline : Pipeline StillFilter := .new phoneMetadata ∅ 0 .default 0

/-- When the first event has opened the connection, the `Disconnected` after it ends the run. -/
theorem disconnect_ends_connected_run :
    let s := stillPipeline.run (fun _ => none) ∅ [.event (.connected phoneMetadata.id) (serverEnv (.ok ()) false)]
    let t := s.turn (fun _ => none) (.event .disconnected (serverEnv (.error "unreachable") false))
    t.returned = some (.error .deviceDisconnected) ∧ t.store = s.pipeline.persistBias s.store :=
  (disconnect_ends_run_iff (fun _ => none) phoneMetadata ∅ 0 .default 0
    [.event (.connected phoneMetadata.id) (serverEnv (.ok ()) false)] (serverEnv (.error "unreachable") false)
    rfl).2 rfl

/-- While every connect fails, a `Disconnected` neither ends the run nor persists the bias. -/
theorem disconnect_swallowed_offline :
    let offline := serverEnv (.error "unreachable") false
    let s := stillPipeline.run (fun _ => none) ∅ [.event (.connected phoneMetadata.id) offline]
    let t := s.turn (fun _ => none) (.event .disconnected offline)
    t.returned = none ∧ loadBias t.store phoneMetadata.id = none ∧
      saturated (OrientationFilter.biasEstimate t.pipeline.fusion) = false ∧
      loadBias (t.pipeline.persistBias t.store) phoneMetadata.id = some #v[0.0, 0.0, 0.0] := by
  refine ⟨rfl, rfl, ?_, ?_⟩ <;> decide +kernel

end EverythingImu.Core
