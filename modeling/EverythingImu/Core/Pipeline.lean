import EverythingImu.Core.MagCal
import EverythingImu.Core.Orientation
import EverythingImu.Core.RateCal
import Mathlib.Data.List.AList

/-!
# The pipeline of one device

`Pipeline` (`pipeline.rs`): what it does with one event (`handle_event`) and with one turn of its loop (`run`).  The
orientation filter is a parameter.  What the surroundings contribute to the handling of one event is an `EventEnv`:
the outcomes of the connect attempt and of the sends, the handshake flag, the configuration at each of its reads, the
pause flag and the clock.  The packets that were sent are listed in their order.

The snapshots that the pipeline publishes for the user interface (quaternion, sample, bias, rate, latency, battery and
calibration progress) feed nothing back and are left out.
-/

namespace EverythingImu.Core

inductive AppError where
  | slime (msg : String)
  | device (msg : String)
  | deviceDisconnected
  | io (msg : String)
  | supervisor (msg : String)
deriving DecidableEq

/-! ### The bias store -/

abbrev BiasStore := AList fun _ : DeviceId => Vector Float 3

/-- `store_bias`: a bias that is not finite on every axis is rejected. -/
def storeBias (store : BiasStore) (id : DeviceId) (bias : Vector Float 3) : BiasStore :=
  if bias.all Float.isFinite then store.insert id bias else store

def loadBias (store : BiasStore) (id : DeviceId) : Option (Vector Float 3) := store.lookup id

def BIAS_CAP_DPS : Float := 1.0

def toDegrees (x : Float) : Float := x * (180.0 / 3.14159265358979323846264338327950288)

/-- A bias at or above the cap on some axis is taken for an artifact of the filter's clip. -/
def saturated (bias : Vector Float 3) : Bool := bias.any fun v => (toDegrees v).abs ≥ BIAS_CAP_DPS

/-! ### Data -/

/-- The operations of the orientation filter that the pipeline uses. -/
class OrientationFilter (F : Type) where
  /-- `new`: algorithm, timestep in seconds, and whether the device has a magnetometer. -/
  create : FusionAlgo → Float → Bool → F
  setBiasEstimate : F → Vector Float 3 → F
  setTimestep : F → Float → F
  /-- `update`: gyroscope, accelerometer and magnetometer in the filter's body frame. -/
  update : F → Vector Float 3 → Vector Float 3 → Option (Vector Float 3) → F
  /-- Orientation in the order w, i, j, k, with or without the magnetometer. -/
  quatWijk : F → Bool → Vector Float 4
  biasEstimate : F → Vector Float 3

/-- A packet sent to the server. -/
inductive SlimeSend where
  | sensorInfo (sensorId : UInt8) (magConfig : UInt16)
  | featureFlags (flagBytes : List UInt8)
  | rotationAndAccel (sensorId : UInt8) (rotation : Vector Float32 4) (accel : Vector Float32 3)
  | magnetometer (sensorId : UInt8) (mag : Vector Float32 3)
  | battery (voltage fraction : Float32)
  | userAction (kind : ResetKind)
deriving DecidableEq

/-- What was advertised to the server for the current handshake. -/
structure Advert where
  sensorInfoSent : Bool
  lastSensorMagConfig : Option UInt16
  featureFlagsSent : Bool
deriving DecidableEq

def Advert.clear : Advert := ⟨false, none, false⟩

structure Pipeline (F : Type) where
  metadata : DeviceMetadata
  /-- The lazy SlimeVR client is connected. -/
  connected : Bool
  fusion : F
  sensorId : UInt8
  lastPersist : Instant
  advert : Advert
  magCal : MagCal
  rateCal : RateCal Float

/-- What the surroundings contribute to the handling of one event. -/
structure EventEnv where
  /-- The outcome of a connect attempt. -/
  connect : Except String Unit
  /-- `stats().handshake_confirmed`. -/
  confirmed : Bool
  /-- The configuration when the magnetometer status is advertised. -/
  advertisedConfig : PipelineConfig
  sensorInfo : Except String Unit
  featureFlags : Except String Unit
  arrival : Instant
  /-- The configuration for the batch. -/
  config : PipelineConfig
  paused : Bool
  /-- The outcome of the rotation, battery or action packet. -/
  send : Except String Unit
  sendMagnetometer : Except String Unit
  persistCheck : Instant
  persisted : Instant

/-- The outcome of `handle_event`. -/
structure Outcome (F : Type) where
  pipeline : Pipeline F
  store : BiasStore
  sent : List SlimeSend
  result : Except AppError Unit

section Pipeline

variable {F : Type} [OrientationFilter F]

/-- `Pipeline::new`: a stored bias that is not saturated seeds the filter. -/
def Pipeline.new (metadata : DeviceMetadata) (store : BiasStore) (sensorId : UInt8) (config : PipelineConfig)
    (now : Instant) : Pipeline F :=
  let gyrTs := 1.0 / Float.ofNat metadata.capabilities.nativeImuRateHz.toNat
  let fusion : F := OrientationFilter.create config.fusion gyrTs metadata.capabilities.hasMagnetometer
  { metadata
    connected := false
    fusion :=
      match loadBias store metadata.id with
      | some bias => if saturated bias then fusion else OrientationFilter.setBiasEstimate fusion bias
      | none => fusion
    sensorId
    lastPersist := now
    advert := .clear
    magCal := .off
    rateCal := .new gyrTs }

/-! ### Handling an event -/

namespace Pipeline

variable (p : Pipeline F)

def sensorMagConfig (config : PipelineConfig) : UInt16 :=
  if !p.metadata.capabilities.hasMagnetometer then 0x0000
  else if config.magnetometerEnabled then 0x0003
  else 0x0002

/-- `persist_bias`: a saturated estimate is never stored. -/
def persistBias (store : BiasStore) : BiasStore :=
  let bias := OrientationFilter.biasEstimate p.fusion
  if saturated bias then store else storeBias store p.metadata.id bias

end Pipeline

/-- The sensor info part of the advertise section; a failed send is tried again on the next event. -/
def Advert.sendSensorInfo (a : Advert) (sensorId : UInt8) (magConfig : UInt16) (outcome : Except String Unit) :
    Advert × List SlimeSend :=
  if !a.sensorInfoSent || a.lastSensorMagConfig != some magConfig then
    match outcome with
    | .ok _ => ({ a with sensorInfoSent := true, lastSensorMagConfig := some magConfig },
        [.sensorInfo sensorId magConfig])
    | .error _ => (a, [])
  else (a, [])

/-- The feature flags part of the advertise section. -/
def Advert.sendFeatureFlags (a : Advert) (outcome : Except String Unit) : Advert × List SlimeSend :=
  if a.sensorInfoSent && !a.featureFlagsSent then
    match outcome with
    | .ok _ => ({ a with featureFlagsSent := true }, [.featureFlags [0]])
    | .error _ => (a, [])
  else (a, [])

/-- The advertise section of `handle_event`. -/
def Advert.advertise (a : Advert) (sensorId : UInt8) (magConfig : UInt16) (env : EventEnv) :
    Advert × List SlimeSend :=
  if !env.confirmed then (.clear, [])
  else
    let info := a.sendSensorInfo sensorId magConfig env.sensorInfo
    let flags := info.1.sendFeatureFlags env.featureFlags
    (flags.1, info.2 ++ flags.2)

namespace Pipeline

variable (p : Pipeline F)

/-- One sample of a batch: calibration collects its magnetometer, the filter takes all of it. -/
def applySample (config : PipelineConfig) (s : ImuSample) : Pipeline F :=
  -- the magnetometer reaches the filter only when it is enabled and calibrated
  let mag :=
    match config.magnetometerEnabled, config.magCalibration with
    | true, some cal => s.mag.map fun m => jslToVqfBody (Vector.zipWith (· - ·) m cal.offset)
    | _, _ => none
  { p with
    magCal := p.magCal.collect s.mag
    fusion := OrientationFilter.update p.fusion (jslToVqfBody (s.gyro.map (· * config.gyroScale)))
      (jslToVqfBody s.accel) mag }

/-- The timestep and the filter after a batch. -/
def processBatch (env : EventEnv) (samples : List ImuSample) : Pipeline F :=
  let (rateCal, newTs) := p.rateCal.onBatch (samples.map (·.timestampUs)) env.arrival
  let fusion :=
    match newTs with
    | some ts => OrientationFilter.setTimestep p.fusion ts
    | none => p.fusion
  samples.foldl (applySample · env.config) { p with rateCal, fusion }

/-- The packets of a batch, with its last sample. -/
def sendBatch (env : EventEnv) (lastRaw : ImuSample) : Except String Unit × List SlimeSend :=
  let estimate := fromVqfWijk (OrientationFilter.quatWijk p.fusion env.config.magnetometerEnabled)
  let rotation := outgoingQuat env.config.mounting env.config.rotationOffsetDeg estimate
  let rotationSend :=
    SlimeSend.rotationAndAccel p.sensorId rotation ((jslToVqfBody lastRaw.accel).map Float.toFloat32)
  if env.paused then (.ok (), [])
  else
    match env.send with
    | .error e => (.error e, [])
    | .ok _ =>
      match env.config.magnetometerEnabled, lastRaw.mag with
      | true, some m =>
        let corrected :=
          match env.config.magCalibration with
          | some cal => Vector.zipWith (· - ·) m cal.offset
          | none => m
        match env.sendMagnetometer with
        | .error e => (.error e, [rotationSend])
        | .ok _ => (.ok (), [rotationSend, .magnetometer p.sensorId corrected])
      | _, _ => (.ok (), [rotationSend])

def PERSIST_INTERVAL : Nat := 10_000_000_000

/-- The IMU arm of `handle_event`. -/
def onSamples (store : BiasStore) (env : EventEnv) (samples : List ImuSample) : Outcome F :=
  match samples.getLast? with
  | none => ⟨p, store, [], .ok ()⟩
  | some lastRaw =>
    let p := p.processBatch env samples
    let (result, sent) := p.sendBatch env lastRaw
    match result with
    | .error e => ⟨p, store, sent, .error (.slime e)⟩
    | .ok _ =>
      if env.persistCheck - p.lastPersist ≥ PERSIST_INTERVAL then
        ⟨{ p with lastPersist := env.persisted }, p.persistBias store, sent, .ok ()⟩
      else ⟨p, store, sent, .ok ()⟩

/-- The battery and reset arms: one packet. -/
def sendOne (store : BiasStore) (env : EventEnv) (packet : SlimeSend) : Outcome F :=
  match env.send with
  | .ok _ => ⟨p, store, [packet], .ok ()⟩
  | .error e => ⟨p, store, [], .error (.slime e)⟩

/-- The match of `handle_event` on the event. -/
def onEvent (store : BiasStore) (env : EventEnv) : ChannelInfo → Outcome F
  | .connected _ => ⟨p, store, [], .ok ()⟩
  | .imuSamples samples => p.onSamples store env samples
  | .battery b => if env.paused then ⟨p, store, [], .ok ()⟩ else p.sendOne store env (.battery 0.0 b.fraction)
  | .resetRequested kind => p.sendOne store env (.userAction kind)
  | .disconnected => ⟨p, p.persistBias store, [], .error .deviceDisconnected⟩

/-- The connection is open, or the connect attempt of this event opens it. -/
def connects (env : EventEnv) : Bool := p.connected || env.connect.isOk

/-- The pipeline behind the advertise section. -/
def advertised (env : EventEnv) : Pipeline F :=
  { p with
    connected := true
    advert := (p.advert.advertise p.sensorId (p.sensorMagConfig env.advertisedConfig) env).1 }

/-- The packets of the advertise section. -/
def advertSends (env : EventEnv) : List SlimeSend :=
  (p.advert.advertise p.sensorId (p.sensorMagConfig env.advertisedConfig) env).2

def handleEvent (store : BiasStore) (env : EventEnv) (evt : ChannelInfo) : Outcome F :=
  -- a failed connect drops the event, whatever it is
  if !p.connects env then ⟨p, store, [], .ok ()⟩
  else
    let o := (p.advertised env).onEvent store env evt
    { o with sent := p.advertSends env ++ o.sent }

end Pipeline

/-! ### Turns of the loop -/

/-- The branch that a turn of `run` takes. -/
inductive RunTurn where
  | stop
  | magCalCmd (cmd : MagCalCommand)
  | event (evt : ChannelInfo) (env : EventEnv)
  /-- The `else` branch. -/
  | allDisabled

/-- A turn of `run`: the pipeline, the store, the packets and the calibration result after it, and what `run` returns
if the turn ends it. -/
structure TurnOutcome (F : Type) where
  pipeline : Pipeline F
  store : BiasStore
  sent : List SlimeSend
  published : Option (Option MagCalibration)
  returned : Option (Except AppError Unit)

def Pipeline.runTurn (calibrate : List Mag → Option MagCalibration) (p : Pipeline F) (store : BiasStore) :
    RunTurn → TurnOutcome F
  | .stop => ⟨p, p.persistBias store, [], none, some (.ok ())⟩
  | .allDisabled => ⟨p, p.persistBias store, [], none, some (.ok ())⟩
  | .magCalCmd cmd =>
    let (magCal, published) := p.magCal.handleCmd calibrate cmd
    ⟨{ p with magCal }, store, [], published, none⟩
  | .event evt env =>
    let o := p.handleEvent store env evt
    match o.result with
    | .ok _ => ⟨o.pipeline, o.store, o.sent, none, none⟩
    | .error e => ⟨o.pipeline, o.pipeline.persistBias o.store, o.sent, none, some (.error e)⟩

end Pipeline

end EverythingImu.Core
