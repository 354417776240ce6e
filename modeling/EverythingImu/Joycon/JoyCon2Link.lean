import EverythingImu.Devices.BleStack
import EverythingImu.Joycon.FlashBias

/-!
# The Bluetooth link of a Joy-Con 2

The methods of `JoyCon2Device` (`jc2.rs`) as dialogues with the Bluetooth stack.  The bytes of the commands are those of
the builders.  A sub-command byte of `0x15` is said to brick the controller, so the ledger allows no command but the
known ones, and only on a link that is connected.  The notifications of the replies to flash reads are subscribed to and
given up again on every path.

The diagnostics that are only logged are left out.  The stream of notifications that the reader task takes is
`parseInputReport0x05` of `EverythingImu.Joycon.Samples`; the task asks the stack for nothing else.
-/

namespace EverythingImu.Joycon.JoyCon2

open Devices (Ble Characteristic Uuid)
open Devices.Ble (Program ble findChar findChar_wp)
open Dialogue LittleEndian

def INPUT_COMMON_UUID : Uuid := 0xab7de9be89fe49ad828f118f09df7fd2#128
def WRITE_COMMAND_UUID : Uuid := 0x649d4ac98eb74e6caf441ea54fe5f005#128
def RESPONSE_NOTIFY_UUID : Uuid := 0xc765a961d9d84d36a20a5315b111836a#128

/-! ### The commands -/

def FLASH_ADDR_PID : UInt32 := 0x00013012

def buildFeatureSelectCmd (subcmd mask : UInt8) : List UInt8 :=
  [0x0C, 0x91, 0x01, subcmd, 0x00, 0x04, 0x00, 0x00, mask, 0x00, 0x00, 0x00]

def buildRumblePresetCmd (preset : UInt8) : List UInt8 :=
  [0x0A, 0x91, 0x01, 0x02, 0x00, 0x04, 0x00, 0x00, preset, 0x00, 0x00, 0x00]

def buildPlayerLedCmd (mask : UInt8) : List UInt8 :=
  [0x09, 0x91, 0x01, 0x01, 0x00, 0x04, 0x00, 0x00, mask &&& 0x0F, 0x00, 0x00, 0x00]

def buildFlashReadCmd (address : UInt32) (len : UInt16) : List UInt8 :=
  [0x02, 0x91, 0x01, 0x01, 0x00, 0x06, 0x00, 0x00, (address &&& 0xFF).toUInt8, ((address >>> 8) &&& 0xFF).toUInt8,
    ((address >>> 16) &&& 0xFF).toUInt8, ((address >>> 24) &&& 0xFF).toUInt8, (len &&& 0xFF).toUInt8,
    ((len >>> 8) &&& 0xFF).toUInt8, 0x00, 0x00]

/-! ### Bringing the link up -/

/-- The end of `ensure_connected`: a link whose services are not found is taken down, it would stay half open. -/
def discoverServices : Program (Except String Unit) := do
  match ← ble .discoverServices with
  | .ok () => return .ok ()
  | .error e =>
    let _ ← ble .disconnect
    return .error ("jc2 discover_services failed: " ++ e)

def ensureConnected : Program (Except String Unit) := do
  match ← ble .isConnected with
  | .error e => return .error ("jc2 is_connected failed: " ++ e)
  | .ok connected =>
    if connected then discoverServices
    else
      match ← ble .connect with
      | .error e => return .error ("jc2 connect failed: " ++ e)
      | .ok () => discoverServices

/-- The characteristics of the input and of the commands, looked for so many times. -/
def findRequiredChars : Nat → Program (Except String (Characteristic × Characteristic))
  | 0 => return .error "jc2 input/command characteristics not found (GATT did not fully resolve)"
  | attempts + 1 => do
    let input ← findChar INPUT_COMMON_UUID
    let write ← findChar WRITE_COMMAND_UUID
    match input, write with
    | some input, some write => return .ok (input, write)
    | _, _ =>
      let _ ← ble (.sleep 300)
      let _ ← ble .discoverServices
      findRequiredChars attempts

def enableImuAndMag (write : Characteristic) : Program (Except String Unit) := do
  match ← ble (.write write.uuid (buildFeatureSelectCmd 0x02 0xFF)) with
  | .error e => return .error ("jc2 set feature mask failed: " ++ e)
  | .ok () =>
    let _ ← ble (.sleep 500)
    match ← ble (.write write.uuid (buildFeatureSelectCmd 0x04 0xFF)) with
    | .error e => return .error ("jc2 enable features failed: " ++ e)
    | .ok () => return .ok ()

/-- `Duration::as_secs_f64` of so many nanoseconds. -/
def asSecsF64 (nanos : Nat) : Float := Float.ofNat (nanos / 1000000000) + Float.ofNat (nanos % 1000000000) / 1e9

/-- The rate of so many reports over a span, between 10 and 250 per second. -/
def rateOf (count span : Nat) : Nat :=
  (max 10 (min 250 (Float.ofNat (count - 1) / asSecsF64 span).round.toInt64.toInt)).toNat

def measureSampleRate : Program (Option Nat) := do
  match ← ble .notifications with
  | .error _ => return none
  | .ok () =>
    let times := ((← ble .arrivals).filter (·.1 == INPUT_COMMON_UUID)).map (·.2)
    match times.head?, times.getLast? with
    | some first, some last =>
      if times.length < 10 ∨ last - first = 0 then return none
      else return some (rateOf times.length (last - first))
    | _, _ => return none

/-! ### Flash reads -/

/-- The values of the notifications that are responses. -/
def responseValues (ns : List (Uuid × List UInt8)) : List (List UInt8) :=
  (ns.filter (·.1 == RESPONSE_NOTIFY_UUID)).map (·.2)

def isPidReply (bytes : List UInt8) : Bool :=
  14 ≤ bytes.length && bytes.getD 0 0 == 0x02 && bytes.getD 1 0 == 0x01 && containsAddrLe bytes FLASH_ADDR_PID

def extractPidFromFlashResponse (bytes : List UInt8) : Option UInt16 :=
  if bytes.length < 14 then none
  else
    let pids := (inclusive 8 (min (bytes.length - 2) 24)).map fun off =>
      u16FromLe (bytes.getD off 0) (bytes.getD (off + 1) 0)
    pids.find? fun pid => [0x2066, 0x2067, 0x2068, 0x2069, 0x2073].contains pid

def kindFromPid (pid : UInt16) : Option JoyCon2Kind :=
  if pid = 0x2067 then some .left
  else if pid = 0x2066 ∨ pid = 0x2068 then some .right
  else if pid = 0x2069 then some .pro
  else none

/-- The responses, subscribed to while the body asks for them. -/
def withResponses {α : Type} (body : Program (Option α)) : Program (Option α) := do
  match ← findChar RESPONSE_NOTIFY_UUID with
  | none => return none
  | some char =>
    if char.notify then
      match ← ble (.subscribe char.uuid) with
      | .error _ => return none
      | .ok () =>
        match ← ble .notifications with
        | .error _ =>
          let _ ← ble (.unsubscribe char.uuid)
          return none
        | .ok () =>
          let result ← body
          let _ ← ble (.unsubscribe char.uuid)
          return result
    else return none

def resolveKindViaFlash (write : Characteristic) : Program (Option JoyCon2Kind) :=
  withResponses do
    match ← ble (.write write.uuid (buildFlashReadCmd FLASH_ADDR_PID 2)) with
    | .error _ => return none
    | .ok () =>
      let ns ← ble .responses
      return ((responseValues ns).find? isPidReply).bind fun bytes =>
        (extractPidFromFlashResponse bytes).bind kindFromPid

/-- The attempts from the given one on, so many of them. -/
def magBiasAttempts (write : Characteristic) (kind : JoyCon2Kind) : Nat → Nat → Program (Option (Vector Float32 3))
  | _, 0 => return none
  | attempt, attempts + 1 => do
    if 0 < attempt then
      let _ ← ble (.sleep (500 + attempt * 500))
    match ← ble (.write write.uuid (buildFlashReadCmd FLASH_ADDR_MAG_BIAS 12)) with
    | .error _ => magBiasAttempts write kind (attempt + 1) attempts
    | .ok () =>
      let ns ← ble .responses
      match (responseValues ns).find? isMagBiasReply with
      -- the first reply decides, whether there is a bias in it or not
      | some bytes => return resolveMagBiasViaFlash kind [bytes]
      | none => magBiasAttempts write kind (attempt + 1) attempts

def resolveMagBias (write : Characteristic) (kind : JoyCon2Kind) : Program (Option (Vector Float32 3)) :=
  withResponses (magBiasAttempts write kind 0 3)

/-! ### The device -/

structure JoyCon2Device where
  kind : JoyCon2Kind
  nativeImuRateHz : Nat
  writeChar : Option Characteristic
  magBiasUt : Option (Vector Float32 3)
  /-- The reader task has been spawned and not been taken by `stop`. -/
  task : Bool

namespace JoyCon2Device

def new (kind : JoyCon2Kind) : JoyCon2Device where
  kind
  nativeImuRateHz := 62
  writeChar := none
  magBiasUt := none
  task := false

/-- The subscription to the input, and what follows it. -/
def startInput (d : JoyCon2Device) (input write : Characteristic) :
    Program (JoyCon2Device × Except String Unit) := do
  if input.notify then
    match ← ble (.subscribe input.uuid) with
    | .error e => return (d, .error ("jc2 subscribe failed: " ++ e))
    | .ok () =>
      match ← enableImuAndMag write with
      | .error e => return (d, .error e)
      | .ok () =>
        let rate ← measureSampleRate
        let d := { d with nativeImuRateHz := rate.getD d.nativeImuRateHz }
        let bias ← resolveMagBias write d.kind
        let d := { d with magBiasUt := bias }
        match ← ble .notifications with
        | .error e => return (d, .error ("jc2 notifications stream failed: " ++ e))
        | .ok () => return ({ d with task := true }, .ok ())
  else return (d, .error "jc2 input characteristic lacks notify property")

def start (d : JoyCon2Device) : Program (JoyCon2Device × Except String Unit) := do
  if d.task then return (d, .error "jc2 already started")
  else
    match ← ensureConnected with
    | .error e => return (d, .error e)
    | .ok () =>
      let _ ← ble .requestConnectionParameters
      match ← findRequiredChars 20 with
      | .error e =>
        let _ ← ble .disconnect
        return (d, .error e)
      | .ok (input, write) =>
        let kind ← resolveKindViaFlash write
        startInput { d with writeChar := some write, kind := kind.getD d.kind } input write

def stop (d : JoyCon2Device) : Program (JoyCon2Device × Except String Unit) := do
  let _ ← ble .disconnect
  return ({ d with task := false, writeChar := none, magBiasUt := none }, .ok ())

/-- A command, sent once the link is up and the characteristic is known. -/
def send (d : JoyCon2Device) (what : String) (cmd : List UInt8) : Program (JoyCon2Device × Except String Unit) := do
  match ← ensureConnected with
  | .error e => return (d, .error e)
  | .ok () =>
    match d.writeChar with
    | none => return (d, .error "jc2 not started: command characteristic unavailable")
    | some write =>
      match ← ble (.write write.uuid cmd) with
      | .error e => return (d, .error ("jc2 " ++ what ++ " command failed: " ++ e))
      | .ok () => return (d, .ok ())

def setLedMask (d : JoyCon2Device) (mask : UInt8) : Program (JoyCon2Device × Except String Unit) :=
  d.send "led" (buildPlayerLedCmd mask)

/-- `rumble::is_on` with a threshold of zero. -/
def isOn (intensity : Float32) : Bool :=
  decide ((0.0 : Float32) < if intensity.isNaN then 0.0 else Scalar.clamp intensity 0.0 1.0)

def setRumble (d : JoyCon2Device) (intensity : Float32) : Program (JoyCon2Device × Except String Unit) :=
  d.send "rumble" (buildRumblePresetCmd (if isOn intensity then 0x01 else 0x00))

end JoyCon2Device

/-- A method of the device. -/
inductive Call where
  | start
  | stop
  | setLedMask (mask : UInt8)
  | setRumble (intensity : Float32)

def JoyCon2Device.call (d : JoyCon2Device) : Call → Program (JoyCon2Device × Except String Unit)
  | .start => d.start
  | .stop => d.stop
  | .setLedMask mask => d.setLedMask mask
  | .setRumble intensity => d.setRumble intensity

/-- The methods, called one after the other. -/
def session (d : JoyCon2Device) : List Call → Program JoyCon2Device
  | [] => return d
  | c :: calls => do
    let (d, _) ← d.call c
    session d calls

/-! ### What is allowed -/

/-- The first four bytes of a command: what it is about, a fixed part, and the sub-command. -/
def KnownCommand (cmd : List UInt8) : Prop :=
  cmd.take 4 ∈ ([[0x0C, 0x91, 0x01, 0x02], [0x0C, 0x91, 0x01, 0x04], [0x0A, 0x91, 0x01, 0x02], [0x09, 0x91, 0x01, 0x01],
    [0x02, 0x91, 0x01, 0x01]] : List (List UInt8))

instance (cmd : List UInt8) : Decidable (KnownCommand cmd) := inferInstanceAs (Decidable (_ ∈ _))

structure Link where
  /-- The stack has said that the link is up, and has not been asked to take it down since. -/
  connected : Bool
  /-- The responses have been subscribed to, and not been given up. -/
  responses : Bool
deriving DecidableEq

/-- The ledger of the link. -/
def protocol : Protocol Ble Ble.Answer Link where
  Allowed l
    | .write char cmd => char = WRITE_COMMAND_UUID ∧ KnownCommand cmd ∧ l.connected = true
    | .subscribe char => l.connected = true ∧
        (char = INPUT_COMMON_UUID ∨ (char = RESPONSE_NOTIFY_UUID ∧ l.responses = false))
    | .unsubscribe char => char = RESPONSE_NOTIFY_UUID ∧ l.responses = true
    | .isConnected | .connect | .discoverServices | .disconnect | .requestConnectionParameters | .characteristics
    | .sleep _ | .notifications | .arrivals | .responses => True
  after l
    | .isConnected, .ok connected => { l with connected }
    | .isConnected, .error _ => { l with connected := false }
    | .connect, .ok () => { l with connected := true }
    | .disconnect, _ => ⟨false, false⟩
    | .subscribe char, .ok () => { l with responses := l.responses || char == RESPONSE_NOTIFY_UUID }
    | .unsubscribe char, _ => { l with responses := l.responses && char != RESPONSE_NOTIFY_UUID }
    | _, _ => l

/-! ### What each dialogue does to the link -/

/-- No responses are subscribed to, and a success means that the link is up. -/
def Settled {α : Type} (r : Except String α) (l : Link) : Prop :=
  l.responses = false ∧ (r.isOk = true → l.connected = true)

theorem discoverServices_wp {l : Link} (h : l.responses = false) (hc : l.connected = true) :
    wp protocol discoverServices Settled l := by
  refine ⟨trivial, fun r => ?_⟩
  cases r with
  | ok _ => exact ⟨h, fun _ => hc⟩
  | error e => exact ⟨trivial, fun _ => ⟨rfl, nofun⟩⟩

theorem ensureConnected_wp {l : Link} (h : l.responses = false) : wp protocol ensureConnected Settled l := by
  refine ⟨trivial, fun r => ?_⟩
  cases r with
  | error e => exact ⟨h, nofun⟩
  | ok connected =>
    cases connected with
    | true => exact discoverServices_wp h rfl
    | false =>
      refine ⟨trivial, fun r => ?_⟩
      cases r with
      | error e => exact ⟨h, nofun⟩
      | ok _ => exact discoverServices_wp h rfl

theorem findRequiredChars_wp (attempts : Nat) (l : Link) : wp protocol (findRequiredChars attempts)
    (fun r l' => l' = l ∧ ∀ input write, r = .ok (input, write) →
      input.uuid = INPUT_COMMON_UUID ∧ write.uuid = WRITE_COMMAND_UUID) l := by
  induction attempts generalizing l with
  | zero => exact ⟨rfl, nofun⟩
  | succ attempts ih =>
    unfold findRequiredChars
    refine (findChar_wp trivial (fun _ => rfl) _).bind ?_
    rintro input l' ⟨rfl, hinput⟩
    refine (findChar_wp trivial (fun _ => rfl) _).bind ?_
    rintro write l'' ⟨rfl, hwrite⟩
    have hretry : wp protocol (do
        let _ ← ble (.sleep 300)
        let _ ← ble .discoverServices
        findRequiredChars attempts) (fun r l' => l' = l'' ∧ ∀ input write, r = .ok (input, write) →
          input.uuid = INPUT_COMMON_UUID ∧ write.uuid = WRITE_COMMAND_UUID) l'' :=
      ⟨trivial, fun _ => ⟨trivial, fun r => by cases r <;> exact ih l''⟩⟩
    cases input with
    | none => exact hretry
    | some input =>
      cases write with
      | none => exact hretry
      | some write =>
        refine ⟨rfl, fun input' write' h => ?_⟩
        obtain ⟨rfl, rfl⟩ := Prod.mk.inj (Except.ok.inj h)
        exact ⟨hinput _ rfl, hwrite _ rfl⟩

theorem enableImuAndMag_wp {write : Characteristic} (hw : write.uuid = WRITE_COMMAND_UUID) {l : Link}
    (hc : l.connected = true) : wp protocol (enableImuAndMag write) (fun _ l' => l' = l) l := by
  refine ⟨⟨hw, by decide, hc⟩, fun r => ?_⟩
  cases r with
  | error e => rfl
  | ok _ =>
    refine ⟨trivial, fun _ => ⟨⟨hw, by decide, hc⟩, fun r => ?_⟩⟩
    cases r <;> rfl

theorem rateOf_bounds (count span : Nat) : 10 ≤ rateOf count span ∧ rateOf count span ≤ 250 := by
  unfold rateOf
  omega

theorem measureSampleRate_wp (l : Link) : wp protocol measureSampleRate
    (fun rate l' => l' = l ∧ ∀ r ∈ rate, 10 ≤ r ∧ r ≤ 250) l := by
  refine ⟨trivial, fun r => ?_⟩
  cases r with
  | error e => exact ⟨rfl, nofun⟩
  | ok _ =>
    refine ⟨trivial, fun arrivals => ?_⟩
    simp only [andThen]
    split
    · split
      · exact ⟨rfl, nofun⟩
      · refine ⟨rfl, fun r hr => ?_⟩
        obtain rfl := Option.some.inj hr
        exact rateOf_bounds _ _
    · exact ⟨rfl, nofun⟩

/-- The responses are given up again, and the link is as it was. -/
theorem withResponses_wp {α : Type} {body : Program (Option α)}
    (hbody : wp protocol body (fun _ l => l = ⟨true, true⟩) ⟨true, true⟩) :
    wp protocol (withResponses body) (fun _ l => l = ⟨true, false⟩) ⟨true, false⟩ := by
  unfold withResponses
  refine (findChar_wp trivial (fun _ => rfl) _).bind ?_
  rintro char l ⟨rfl, hchar⟩
  cases char with
  | none => rfl
  | some char =>
    have hchar : char.uuid = RESPONSE_NOTIFY_UUID := hchar _ rfl
    simp only
    split
    · refine ⟨⟨rfl, Or.inr ⟨hchar, rfl⟩⟩, fun r => ?_⟩
      have hsubscribed : (false || char.uuid == RESPONSE_NOTIFY_UUID) = true := by rw [hchar]; rfl
      have hgiven : (true && char.uuid != RESPONSE_NOTIFY_UUID) = false := by rw [hchar]; rfl
      cases r with
      | error e => rfl
      | ok _ =>
        simp only [protocol, hsubscribed]
        refine ⟨trivial, fun r => ?_⟩
        cases r with
        | error e => exact ⟨⟨hchar, rfl⟩, fun _ => congrArg (Link.mk true) hgiven⟩
        | ok _ =>
          refine hbody.bind ?_
          rintro result l rfl
          exact ⟨⟨hchar, rfl⟩, fun _ => congrArg (Link.mk true) hgiven⟩
    · rfl

theorem resolveKindViaFlash_wp {write : Characteristic} (hw : write.uuid = WRITE_COMMAND_UUID) :
    wp protocol (resolveKindViaFlash write) (fun _ l => l = ⟨true, false⟩) ⟨true, false⟩ := by
  refine withResponses_wp ⟨⟨hw, by decide, rfl⟩, fun r => ?_⟩
  cases r with
  | error e => rfl
  | ok _ => exact ⟨trivial, fun _ => rfl⟩

theorem magBiasAttempts_wp {write : Characteristic} (hw : write.uuid = WRITE_COMMAND_UUID) (kind : JoyCon2Kind)
    (attempt attempts : Nat) :
    wp protocol (magBiasAttempts write kind attempt attempts) (fun _ l => l = ⟨true, true⟩) ⟨true, true⟩ := by
  induction attempts generalizing attempt with
  | zero => rfl
  | succ attempts ih =>
    have hask : wp protocol (ble (.write write.uuid (buildFlashReadCmd FLASH_ADDR_MAG_BIAS 12)) >>= fun r =>
        match r with
        | .error _ => magBiasAttempts write kind (attempt + 1) attempts
        | .ok () => do
          let ns ← ble .responses
          match (responseValues ns).find? isMagBiasReply with
          | some bytes => return resolveMagBiasViaFlash kind [bytes]
          | none => magBiasAttempts write kind (attempt + 1) attempts)
        (fun _ l => l = ⟨true, true⟩) ⟨true, true⟩ := by
      refine ⟨⟨hw, by decide, rfl⟩, fun r => ?_⟩
      cases r with
      | error e => exact ih _
      | ok _ =>
        refine ⟨trivial, fun ns => ?_⟩
        simp only [andThen]
        split
        · rfl
        · exact ih _
    unfold magBiasAttempts
    split
    · exact ⟨trivial, fun _ => hask⟩
    · exact hask

theorem resolveMagBias_wp {write : Characteristic} (hw : write.uuid = WRITE_COMMAND_UUID) (kind : JoyCon2Kind) :
    wp protocol (resolveMagBias write kind) (fun _ l => l = ⟨true, false⟩) ⟨true, false⟩ :=
  withResponses_wp (magBiasAttempts_wp hw kind 0 3)

/-! ### Sessions -/

/-- The characteristic of the commands is the known one, and the rate one that the fusion can work with. -/
structure JoyCon2Device.Ok (d : JoyCon2Device) : Prop where
  writeChar : ∀ c ∈ d.writeChar, c.uuid = WRITE_COMMAND_UUID
  rate : 10 ≤ d.nativeImuRateHz ∧ d.nativeImuRateHz ≤ 250

/-- Between the methods no responses are subscribed to. -/
def Between (r : JoyCon2Device × Except String Unit) (l : Link) : Prop := l.responses = false ∧ r.1.Ok

theorem startInput_wp {d : JoyCon2Device} (h : d.Ok) {input write : Characteristic}
    (hi : input.uuid = INPUT_COMMON_UUID) (hw : write.uuid = WRITE_COMMAND_UUID) :
    wp protocol (d.startInput input write) Between ⟨true, false⟩ := by
  unfold JoyCon2Device.startInput
  split
  · refine ⟨⟨rfl, Or.inl hi⟩, fun r => ?_⟩
    cases r with
    | error e => exact ⟨rfl, h⟩
    | ok _ =>
      have hl : protocol.after ⟨true, false⟩ (.subscribe input.uuid) (.ok ()) = ⟨true, false⟩ := by
        rw [hi]
        rfl
      rw [hl]
      refine (enableImuAndMag_wp hw rfl).bind ?_
      rintro r l rfl
      cases r with
      | error e => exact ⟨rfl, h⟩
      | ok _ =>
        refine (measureSampleRate_wp _).bind ?_
        rintro rate l ⟨rfl, hrate⟩
        refine (resolveMagBias_wp hw d.kind).bind ?_
        rintro bias l rfl
        have hd : ∀ task, JoyCon2Device.Ok
            { d with nativeImuRateHz := rate.getD d.nativeImuRateHz, magBiasUt := bias, task } := by
          refine fun task => ⟨h.writeChar, ?_⟩
          cases rate with
          | none => exact h.rate
          | some r => exact hrate r rfl
        refine ⟨trivial, fun r => ?_⟩
        cases r <;> exact ⟨rfl, hd _⟩
  · exact ⟨rfl, h⟩

theorem start_wp {d : JoyCon2Device} (h : d.Ok) {l : Link} (hl : l.responses = false) :
    wp protocol d.start Between l := by
  unfold JoyCon2Device.start
  split
  · exact ⟨hl, h⟩
  · refine (ensureConnected_wp hl).bind ?_
    rintro r ⟨connected, responses⟩ ⟨hr, hc⟩
    obtain rfl : responses = false := hr
    cases r with
    | error e => exact ⟨rfl, h⟩
    | ok _ =>
      obtain rfl : connected = true := hc rfl
      refine ⟨trivial, fun r => ?_⟩
      have hl : protocol.after ⟨true, false⟩ .requestConnectionParameters r = ⟨true, false⟩ := by cases r <;> rfl
      rw [hl]
      refine (findRequiredChars_wp 20 _).bind ?_
      rintro found l ⟨rfl, hfound⟩
      cases found with
      | error e => exact ⟨trivial, fun _ => ⟨rfl, h⟩⟩
      | ok chars =>
        obtain ⟨hi, hw⟩ := hfound chars.1 chars.2 rfl
        refine (resolveKindViaFlash_wp hw).bind ?_
        rintro kind l rfl
        refine startInput_wp (d := { d with writeChar := some chars.2, kind := kind.getD d.kind }) ⟨?_, h.rate⟩ hi hw
        intro c hc
        obtain rfl := Option.some.inj hc
        exact hw

theorem send_wp {d : JoyCon2Device} (h : d.Ok) {l : Link} (hl : l.responses = false) (what : String) {cmd : List UInt8}
    (hcmd : KnownCommand cmd) : wp protocol (d.send what cmd) Between l := by
  unfold JoyCon2Device.send
  refine (ensureConnected_wp hl).bind ?_
  rintro r l ⟨hr, hc⟩
  cases r with
  | error e => exact ⟨hr, h⟩
  | ok _ =>
    cases hw : d.writeChar with
    | none => exact ⟨hr, h⟩
    | some write =>
      refine ⟨⟨h.writeChar write hw, hcmd, hc rfl⟩, fun r => ?_⟩
      cases r <;> exact ⟨hr, h⟩

theorem call_wp {d : JoyCon2Device} (h : d.Ok) {l : Link} (hl : l.responses = false) (c : Call) :
    wp protocol (d.call c) Between l := by
  cases c with
  | start => exact start_wp h hl
  | stop => exact ⟨trivial, fun _ => ⟨rfl, nofun, h.rate⟩⟩
  | setLedMask mask => exact send_wp h hl _ (by simp [KnownCommand, buildPlayerLedCmd])
  | setRumble intensity => exact send_wp h hl _ (by simp [KnownCommand, buildRumblePresetCmd])

theorem session_wp {d : JoyCon2Device} (h : d.Ok) {l : Link} (hl : l.responses = false) (calls : List Call) :
    wp protocol (session d calls) (fun d' l' => l'.responses = false ∧ d'.Ok) l := by
  induction calls generalizing d l with
  | nil => exact ⟨hl, h⟩
  | cons c calls ih =>
    refine (call_wp h hl c).bind ?_
    rintro ⟨d', r⟩ l' ⟨hl', h'⟩
    exact ih h' hl'

theorem ok_new (kind : JoyCon2Kind) : (JoyCon2Device.new kind).Ok := ⟨nofun, by simp [JoyCon2Device.new]⟩

/-- Nothing has been said about the link yet. -/
def Link.fresh : Link := ⟨false, false⟩

/-- The sub-commands that are known to be safe. -/
def SAFE_SUBCOMMANDS : List (Option UInt8) := [some 0x01, some 0x02, some 0x04]

theorem KnownCommand.subcommand {cmd : List UInt8} (h : KnownCommand cmd) :
    cmd[3]? ∈ SAFE_SUBCOMMANDS := by
  have hhead : ∀ head ∈ ([[0x0C, 0x91, 0x01, 0x02], [0x0C, 0x91, 0x01, 0x04], [0x0A, 0x91, 0x01, 0x02],
      [0x09, 0x91, 0x01, 0x01], [0x02, 0x91, 0x01, 0x01]] : List (List UInt8)),
      head[3]? ∈ SAFE_SUBCOMMANDS := by decide
  have htake : (cmd.take 4)[3]? = cmd[3]? := List.getElem?_take_of_lt (by decide)
  rw [← htake]
  exact hhead _ h

/-- Whatever methods are called and whatever the stack answers, up to any point: what is written is one of the known
commands, with a sub-command of 1, 2 or 4, and goes to the characteristic of the commands on a link that the stack has
said to be up. -/
theorem session_commands (kind : JoyCon2Kind) (calls : List Call) {log before later : List (Exchange Ble.Answer)}
    {rest : Program JoyCon2Device} (h : Follows (session (.new kind) calls) log rest) {char : Uuid} {cmd : List UInt8}
    {r : Except String Unit} (hlog : log = before ++ ⟨.write char cmd, r⟩ :: later) :
    char = WRITE_COMMAND_UUID ∧ KnownCommand cmd ∧ cmd[3]? ∈ SAFE_SUBCOMMANDS ∧
      (protocol.ledger .fresh before).connected = true := by
  subst hlog
  obtain ⟨hchar, hcmd, hup⟩ : protocol.Allowed (protocol.ledger .fresh before) (.write char cmd) :=
    (session_wp (l := .fresh) (ok_new kind) rfl calls).allowed h
  exact ⟨hchar, hcmd, KnownCommand.subcommand hcmd, hup⟩

/-- The responses are subscribed to at most once at a time and given up by the end of each method, and the rate of the
device is always one between 10 and 250. -/
theorem session_responses (kind : JoyCon2Kind) (calls : List Call) {log : List (Exchange Ble.Answer)}
    {rest : Program JoyCon2Device} (h : Follows (session (.new kind) calls) log rest) :
    (∀ before x later, log = before ++ x :: later →
      (x.1 = .subscribe RESPONSE_NOTIFY_UUID → (protocol.ledger .fresh before).responses = false) ∧
      (x.1 = .unsubscribe RESPONSE_NOTIFY_UUID → (protocol.ledger .fresh before).responses = true)) ∧
    ∀ d, rest = .done d → (protocol.ledger .fresh log).responses = false ∧
      10 ≤ d.nativeImuRateHz ∧ d.nativeImuRateHz ≤ 250 := by
  have hwp := session_wp (l := .fresh) (ok_new kind) rfl calls
  refine ⟨?_, ?_⟩
  · rintro before ⟨op, r⟩ later rfl
    have hallowed : protocol.Allowed (protocol.ledger .fresh before) op := hwp.allowed h
    refine ⟨?_, ?_⟩
    · rintro rfl
      exact hallowed.2.resolve_left (by decide) |>.2
    · rintro rfl
      exact hallowed.2
  · rintro d rfl
    obtain ⟨hr, hok⟩ := hwp.result h
    exact ⟨hr, hok.rate⟩

/-- The characteristics of a controller. -/
def controllerChars : List Characteristic :=
  [⟨WRITE_COMMAND_UUID, false⟩, ⟨INPUT_COMMON_UUID, true⟩, ⟨RESPONSE_NOTIFY_UUID, true⟩]

/-- A start up to the first flash read. -/
def bringUp : List (Exchange Ble.Answer) :=
  [⟨.isConnected, .ok false⟩, ⟨.connect, .ok ()⟩, ⟨.discoverServices, .ok ()⟩,
    ⟨.requestConnectionParameters, .error "unsupported"⟩, ⟨.characteristics, controllerChars⟩,
    ⟨.characteristics, controllerChars⟩, ⟨.characteristics, controllerChars⟩, ⟨.subscribe RESPONSE_NOTIFY_UUID, .ok ()⟩,
    ⟨.notifications, .ok ()⟩]

/-- The link fails at the flash read, and the start with it. -/
def failedRead : Exchange Ble.Answer :=
  ⟨.write WRITE_COMMAND_UUID (buildFlashReadCmd FLASH_ADDR_PID 2), .error "gone"⟩

def failedStart : List (Exchange Ble.Answer) :=
  bringUp ++ failedRead ::
    [⟨.unsubscribe RESPONSE_NOTIFY_UUID, .error "gone"⟩, ⟨.subscribe INPUT_COMMON_UUID, .error "gone"⟩]

/-- A device whose start has failed. -/
def unstarted : JoyCon2Device := { JoyCon2Device.new .left with writeChar := some ⟨WRITE_COMMAND_UUID, false⟩ }

theorem failedStart_commands :
    WRITE_COMMAND_UUID = WRITE_COMMAND_UUID ∧ KnownCommand (buildFlashReadCmd FLASH_ADDR_PID 2) ∧
      (buildFlashReadCmd FLASH_ADDR_PID 2)[3]? ∈ SAFE_SUBCOMMANDS ∧ (protocol.ledger .fresh bringUp).connected = true :=
  have hrun : Follows (session (.new .left) [.start]) failedStart (.done unstarted) := .of_replay rfl
  session_commands .left [.start] hrun rfl

theorem failedStart_responses :
    (∀ before x later, failedStart = before ++ x :: later →
      (x.1 = .subscribe RESPONSE_NOTIFY_UUID → (protocol.ledger .fresh before).responses = false) ∧
      (x.1 = .unsubscribe RESPONSE_NOTIFY_UUID → (protocol.ledger .fresh before).responses = true)) ∧
    ∀ d, (.done unstarted : Program JoyCon2Device) = .done d →
      (protocol.ledger .fresh failedStart).responses = false ∧ 10 ≤ d.nativeImuRateHz ∧ d.nativeImuRateHz ≤ 250 :=
  session_responses .left [.start] (.of_replay rfl)

/-! ### After a stop -/

/-- A protocol that allows everything but a write. -/
def silent : Protocol Ble Ble.Answer Unit where
  Allowed _
    | .write _ _ => False
    | .isConnected | .connect | .discoverServices | .disconnect | .requestConnectionParameters | .characteristics
    | .sleep _ | .subscribe _ | .unsubscribe _ | .notifications | .arrivals | .responses => True
  after _ _ _ := ()

/-- The call is not a start. -/
def Call.NotStart : Call → Prop
  | .start => False
  | .stop | .setLedMask _ | .setRumble _ => True

theorem ensureConnected_silent : wp silent ensureConnected (fun _ _ => True) () := by
  have hdiscover : wp silent discoverServices (fun _ _ => True) () := by
    refine ⟨trivial, fun r => ?_⟩
    cases r with
    | ok _ => trivial
    | error e => exact ⟨trivial, fun _ => trivial⟩
  refine ⟨trivial, fun r => ?_⟩
  cases r with
  | error e => trivial
  | ok connected =>
    cases connected with
    | true => exact hdiscover
    | false =>
      refine ⟨trivial, fun r => ?_⟩
      cases r with
      | error e => trivial
      | ok _ => exact hdiscover

theorem session_silent {d : JoyCon2Device} (hd : d.writeChar = none) {calls : List Call}
    (hc : ∀ c ∈ calls, c.NotStart) : wp silent (session d calls) (fun d' _ => d'.writeChar = none) () := by
  have hsend : ∀ (d : JoyCon2Device) (what : String) (cmd : List UInt8), d.writeChar = none →
      wp silent (d.send what cmd) (fun r _ => r.1.writeChar = none) () := by
    intro d what cmd hd
    refine ensureConnected_silent.bind ?_
    rintro r - -
    cases r with
    | error e => exact hd
    | ok _ =>
      simp only [hd]
      exact hd
  induction calls generalizing d with
  | nil => exact hd
  | cons c calls ih =>
    obtain ⟨hstart, hrest⟩ := List.forall_mem_cons.1 hc
    have hcall : wp silent (d.call c) (fun r _ => r.1.writeChar = none) () := by
      cases c with
      | start => exact hstart.elim
      | stop => exact ⟨trivial, fun _ => rfl⟩
      | setLedMask mask => exact hsend d _ _ hd
      | setRumble intensity => exact hsend d _ _ hd
    refine hcall.bind ?_
    rintro ⟨d', r⟩ - hd'
    exact ih hd' hrest

/-- A device that is stopped writes nothing until it is started again, whatever is asked of it. -/
theorem silent_after_stop {d d' : JoyCon2Device} {stopLog : List (Exchange Ble.Answer)} {r : Except String Unit}
    (hstop : Follows d.stop stopLog (.done (d', r))) {calls : List Call} (hc : ∀ c ∈ calls, c.NotStart)
    {log : List (Exchange Ble.Answer)} {rest : Program JoyCon2Device} (h : Follows (session d' calls) log rest) :
    ∀ x ∈ log, ∀ char cmd, x.1 ≠ .write char cmd := by
  have hd : d'.writeChar = none := by
    have hwp : wp silent d.stop (fun r _ => r.1.writeChar = none) () := ⟨trivial, fun _ => rfl⟩
    exact hwp.result hstop
  intro x hx char cmd hop
  obtain ⟨before, later, rfl⟩ := List.append_of_mem hx
  have hallowed : silent.Allowed _ x.1 := (session_silent hd hc).allowed h
  rw [hop] at hallowed
  exact hallowed

/-- What the device does when it is asked for a light before any start. -/
def unstartedLight : List (Exchange Ble.Answer) := [⟨.isConnected, .ok true⟩, ⟨.discoverServices, .ok ()⟩]

theorem unstarted_silent :
    Follows (session (.new .left) [.setLedMask 1]) unstartedLight (.done (.new .left)) ∧
      ∀ x ∈ unstartedLight, ∀ char cmd, x.1 ≠ .write char cmd :=
  have hstop : Follows unstarted.stop [⟨.disconnect, .ok ()⟩] (.done (.new .left, .ok ())) := .of_replay rfl
  have hrun : Follows (session (.new .left) [.setLedMask 1]) unstartedLight (.done (.new .left)) := .of_replay rfl
  have hcalls : ∀ c ∈ [Call.setLedMask 1], c.NotStart := fun c hc => by
    obtain rfl := List.mem_singleton.1 hc
    trivial
  ⟨hrun, silent_after_stop hstop hcalls hrun⟩

end EverythingImu.Joycon.JoyCon2
