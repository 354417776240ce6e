import EverythingImu.Devices.TeslaStream
import EverythingImu.Library.StepRun

/-!
# The session of a Tesla

`run_live` (`device.rs` of `device-tesla`) with the refresh of the access token (`auth.rs`): the runner connects to the
stream again and again until it is stopped.  Before it connects it takes a new access token if the one it has is past
80 % of its lifetime; each refresh gives a new refresh token as well.  A failed attempt is followed by a wait that
doubles up to a minute, an attempt whose stream was ended by the other side by a wait of five seconds.  A message whose
heading keeps `unwrapped_delta_deg` in its loops hangs the runner: it does nothing any more, and cannot be aborted.

What the network does and what the device's owner does are actions, each at an instant.  The session keeps a log of its
attempts, of the refresh tokens that it has presented with what came back, and of the messages of each stream.  The
contents of the requests apart from the tokens, the texts of stream errors, the channel being full, and an expiry
beyond the range of the clock, which would end the task, are left out.
-/

namespace EverythingImu.Tesla.Live

open StepRun

/-- `Duration::from_secs`. -/
def fromSecs (n : Nat) : Nat := n * 1000000000

/-! ### Tokens -/

structure TokenBundle where
  accessToken : String
  refreshToken : String
  /-- When 80 % of the lifetime are over. -/
  expiresAt : Instant
deriving DecidableEq

def TokenBundle.needsRefresh (t : TokenBundle) (now : Instant) : Bool := t.expiresAt ≤ now

structure TokenResponse where
  accessToken : Option String
  refreshToken : Option String
  expiresIn : Option UInt64
  error : Option String
  errorDescription : Option String

inductive AuthError where
  | http (e : String)
  | status (status : UInt16) (body : String)
  | missingField (field : String)

/-- What comes back from the token endpoint. -/
inductive TokenAnswer where
  /-- The request failed, or its body could not be read. -/
  | failed (e : String)
  | response (status : UInt16) (body : String) (decoded : Except String TokenResponse)

def required {α : Type} (field : String) : Option α → Except AuthError α
  | some x => .ok x
  | none => .error (.missingField field)

/-- `refresh`, with what the endpoint answers and when. -/
def refresh (now : Instant) : TokenAnswer → Except AuthError TokenBundle
  | .failed e => .error (.http e)
  | .response status body decoded =>
    if ¬ (200 ≤ status ∧ status ≤ 299) then .error (.status status body)
    else
      match decoded with
      | .error e => .error (.http ("json decode: " ++ e))
      | .ok parsed =>
        match parsed.error with
        | some err => .error (.status 400 (err ++ ": " ++ parsed.errorDescription.getD ""))
        | none => do
          let accessToken ← required "access_token" parsed.accessToken
          let refreshToken ← required "refresh_token" parsed.refreshToken
          let expiresIn ← required "expires_in" parsed.expiresIn
          let refreshAfter := fromSecs (saturatingMul expiresIn 4 / 5).toNat
          return ⟨accessToken, refreshToken, now + refreshAfter⟩

/-- A refresh succeeds exactly if the endpoint answers with success, the body decodes to a response without an error,
and no field is missing. -/
theorem refresh_eq_ok_iff {now : Instant} {answer : TokenAnswer} {t : TokenBundle} :
    refresh now answer = .ok t ↔
      ∃ status body parsed expiresIn, answer = .response status body (.ok parsed) ∧ (200 ≤ status ∧ status ≤ 299) ∧
        parsed.error = none ∧ parsed.accessToken = some t.accessToken ∧ parsed.refreshToken = some t.refreshToken ∧
        parsed.expiresIn = some expiresIn ∧ t.expiresAt = now + fromSecs (saturatingMul expiresIn 4 / 5).toNat := by
  constructor
  · intro h
    unfold refresh at h
    split at h
    · cases h
    · split at h
      · cases h
      · rename_i status body decoded hstatus
        split at h
        · cases h
        · rename_i parsed
          split at h
          · cases h
          · rename_i herror
            obtain ⟨accessToken, refreshToken, expiresIn, error, description⟩ := parsed
            cases accessToken <;> cases refreshToken <;> cases expiresIn <;> cases h
            exact ⟨status, body, _, _, rfl, not_not.1 hstatus, herror, rfl, rfl, rfl, rfl⟩
  · rintro ⟨status, body, ⟨accessToken, refreshToken, expiresIn', error, description⟩, expiresIn, rfl, hstatus, herror,
      haccess, hrefresh, hexpires, ht⟩
    dsimp only at herror haccess hrefresh hexpires
    subst herror haccess hrefresh hexpires
    obtain ⟨access, refreshed, expiresAt⟩ := t
    dsimp only at ht
    subst ht
    simp only [refresh, if_neg (not_not.2 hstatus)]
    rfl

/-! ### Messages of the stream -/

inductive WsMessage where
  | text (msg : StreamMessage)
  | close
  /-- Binary messages, pings and pongs. -/
  | other

inductive FrameAction where
  | emit (sample : ImuSample)
  | disconnect

/-- `none` if the handler never returns. -/
def handleWsMessage (synth : ImuSynth Float32) : WsMessage → Option (ImuSynth Float32 × Option FrameAction)
  | .text .error => some (.new, some .disconnect)
  | .text msg => (synth.readMessage msg).map fun (synth, sample) => (synth, sample.map .emit)
  | .close => some (synth, some .disconnect)
  | .other => some (synth, none)

def FrameAction.samples : Option FrameAction → List ImuSample
  | some (.emit sample) => [sample]
  | _ => []

/-- The samples of the messages of one stream, up to one that the reader does not come back from. -/
def samples : ImuSynth Float32 → List WsMessage → List ImuSample
  | _, [] => []
  | synth, msg :: rest =>
    match handleWsMessage synth msg with
    | none => []
    | some (synth, action) => FrameAction.samples action ++ samples synth rest

/-! ### The runner -/

def MAX_BACKOFF : Nat := fromSecs 60

structure LiveConfig where
  refreshToken : String
  idleTimeout : Nat

inductive Phase where
  /-- At the top of the loop. -/
  | polling
  /-- A refresh token was presented. -/
  | refreshing (token : String)
  | connecting
  /-- The messages read so far, and when the stream counts as idle. -/
  | streaming (synth : ImuSynth Float32) (idleAt : Instant) (read : List WsMessage)
  /-- In the loops of `unwrapped_delta_deg` for good, with the messages read so far. -/
  | hung (read : List WsMessage)
  /-- In `wait_or_stop` after an attempt. -/
  | waiting (clean : Bool) (deadline : Instant)
  /-- `run_live` has returned. -/
  | finished
  | aborted

/-- One turn of the loop, from its check of the token to the end of its stream. -/
structure Attempt where
  start : Instant
  stop : Instant
  /-- The stream was ended by the other side or by a stop. -/
  clean : Bool

/-- A subscription to the stream. -/
structure Subscription where
  token : String
  /-- When the attempt began. -/
  start : Instant
  /-- The number of answers of the token endpoint so far. -/
  answers : Nat
  /-- The last of them came in this attempt. -/
  refreshed : Bool

structure Session where
  clock : Instant
  phase : Phase
  token : Option TokenBundle
  backoff : Nat
  /-- The value of the stop channel, and whether the runner has not seen its last change. -/
  stop : Bool
  unseen : Bool
  /-- The device and with it the sender of the stop channel are gone. -/
  dropped : Bool
  /-- The receiver of the events is there. -/
  receiving : Bool
  events : List ChannelInfo
  /-- The start of the attempt under way. -/
  began : Option Instant
  ended : List Attempt
  /-- The refresh tokens presented, with the answers. -/
  requests : List (String × Option TokenBundle)
  subscriptions : List Subscription
  /-- The messages of the streams that have ended. -/
  streams : List (List WsMessage)

/-- What the network, the clock and the owner of the device do. -/
inductive Action where
  | poll
  | answer (a : TokenAnswer)
  | connected
  | connectFailed
  | message (msg : WsMessage)
  | readFailed
  /-- The other side has closed the connection. -/
  | closed
  | idle
  /-- `stop_rx.changed()` returns. -/
  | woken
  | elapsed
  | stop
  | abort
  | dropDevice
  | dropReceiver

namespace Session

/-- The runner has sent `Connected`. -/
def start (id : DeviceId) : Session where
  clock := 0
  phase := .polling
  token := none
  backoff := fromSecs 1
  stop := false
  unseen := false
  dropped := false
  receiving := true
  events := [.connected id]
  began := none
  ended := []
  requests := []
  subscriptions := []
  streams := []

def send (s : Session) (e : ChannelInfo) : Session :=
  if s.receiving then { s with events := s.events ++ [e] } else s

def finish (s : Session) : Session := { s.send .disconnected with phase := .finished }

def subscribe (s : Session) (t : TokenBundle) (start : Instant) (refreshed : Bool) : Session :=
  { s with
    phase := .connecting
    subscriptions := s.subscriptions ++ [⟨t.accessToken, start, s.requests.length, refreshed⟩] }

def endAttempt (s : Session) (clean : Bool) : Session :=
  { s with
    phase := .waiting clean (s.clock + if clean then fromSecs 5 else s.backoff)
    began := none
    ended := s.ended ++ (s.began.map (⟨·, s.clock, clean⟩)).toList }

def endStream (s : Session) (read : List WsMessage) (clean : Bool) : Session :=
  { s with streams := s.streams ++ [read] }.endAttempt clean

/-- After the wait. -/
def resume (s : Session) (clean : Bool) : Session :=
  { s with phase := .polling, backoff := if clean then fromSecs 1 else min (s.backoff * 2) MAX_BACKOFF }

/-- `stop` aborts the task after it has set the stop channel; a task that does not come to an `await` goes on. -/
def abort (s : Session) : Session :=
  match s.phase with
  | .finished | .hung _ => s
  | .streaming _ _ read => { s with phase := .aborted, began := none, streams := s.streams ++ [read] }
  | _ => { s with phase := .aborted, began := none }

/-- The top of the loop, with `ensure_token` up to the request. -/
def poll (cfg : LiveConfig) (s : Session) : Session :=
  if s.stop then s.finish
  else
    let s := { s with began := some s.clock }
    match s.token with
    | some t =>
      if !t.needsRefresh s.clock then s.subscribe t s.clock false
      else { s with phase := .refreshing t.refreshToken }
    | none => { s with phase := .refreshing cfg.refreshToken }

/-- A message of the stream. -/
def message (cfg : LiveConfig) (s : Session) (synth : ImuSynth Float32) (read : List WsMessage) (msg : WsMessage) :
    Session :=
  match handleWsMessage synth msg with
  | none => { s with phase := .hung (read ++ [msg]) }
  | some (synth, none) => { s with phase := .streaming synth (s.clock + cfg.idleTimeout) (read ++ [msg]) }
  | some (synth, some (.emit sample)) =>
    if s.receiving then
      { s.send (.imuSamples [sample]) with
        phase := .streaming synth (s.clock + cfg.idleTimeout) (read ++ [msg]) }
    else s.endStream (read ++ [msg]) true
  | some (_, some .disconnect) => s.endStream (read ++ [msg]) true

end Session

/-- What an action does at the time of the clock. -/
def act (cfg : LiveConfig) (s : Session) : Action → Option Session
  | .poll =>
    match s.phase with
    | .polling => some (s.poll cfg)
    | _ => none
  | .answer a =>
    match s.phase, s.began with
    | .refreshing token, some start =>
      match refresh s.clock a with
      | .ok t =>
        some ({ s with token := some t, requests := s.requests ++ [(token, some t)] }.subscribe t start true)
      | .error _ => some ({ s with requests := s.requests ++ [(token, none)] }.endAttempt false)
    | _, _ => none
  | .connected =>
    match s.phase with
    | .connecting => some { s with phase := .streaming .new (s.clock + cfg.idleTimeout) [] }
    | _ => none
  | .connectFailed =>
    match s.phase with
    | .connecting => some (s.endAttempt false)
    | _ => none
  | .message msg =>
    match s.phase with
    | .streaming synth _ read => some (s.message cfg synth read msg)
    | _ => none
  | .readFailed =>
    match s.phase with
    | .streaming _ _ read => some (s.endStream read false)
    | _ => none
  | .closed =>
    match s.phase with
    | .streaming _ _ read => some (s.endStream read true)
    | _ => none
  | .idle =>
    match s.phase with
    | .streaming _ idleAt read => if idleAt ≤ s.clock then some (s.endStream read false) else none
    | _ => none
  | .woken =>
    if s.unseen || s.dropped then
      let s := { s with unseen := false }
      match s.phase with
      | .streaming synth _ read =>
        if s.stop then some (s.endStream read true)
        else some { s with phase := .streaming synth (s.clock + cfg.idleTimeout) read }
      | .waiting clean _ => if s.stop then some s.finish else some (s.resume clean)
      | _ => none
    else none
  | .elapsed =>
    match s.phase with
    | .waiting clean deadline => if deadline ≤ s.clock then some (s.resume clean) else none
    | _ => none
  | .stop => if s.dropped then none else some { s with stop := true, unseen := true }
  | .abort => if s.stop then some s.abort else none
  | .dropDevice => some { s with dropped := true }
  | .dropReceiver => some { s with receiving := false }

/-- An action at an instant that is not before the last one. -/
def step (cfg : LiveConfig) (s : Session) (a : Instant × Action) : Option Session :=
  if s.clock ≤ a.1 then act cfg { s with clock := a.1 } a.2 else none

/-! ### What an action does -/

/-- The possible steps, with what each needs and does. -/
inductive Acts (cfg : LiveConfig) (s : Session) : Session → Prop
  | finish (u : Bool) (hu : u = true → s.unseen = true)
    (hp : s.phase = .polling ∨ ∃ clean deadline, s.phase = .waiting clean deadline) :
    Acts cfg s { s with unseen := u }.finish
  | subscribe {t : TokenBundle} (hp : s.phase = .polling) (hstop : s.stop = false) (ht : s.token = some t)
    (hfresh : s.clock < t.expiresAt) : Acts cfg s ({ s with began := some s.clock }.subscribe t s.clock false)
  | refresh {token : String} (hp : s.phase = .polling) (hstop : s.stop = false)
    (htoken : token = (s.token.map (·.refreshToken)).getD cfg.refreshToken) :
    Acts cfg s { s with began := some s.clock, phase := .refreshing token }
  | granted {token : String} {start : Instant} (t : TokenBundle) (hp : s.phase = .refreshing token)
    (hbegan : s.began = some start) :
    Acts cfg s ({ s with token := some t, requests := s.requests ++ [(token, some t)] }.subscribe t start true)
  | refused {token : String} (hp : s.phase = .refreshing token) :
    Acts cfg s ({ s with requests := s.requests ++ [(token, none)] }.endAttempt false)
  | connected (hp : s.phase = .connecting) :
    Acts cfg s { s with phase := .streaming .new (s.clock + cfg.idleTimeout) [] }
  | connectFailed (hp : s.phase = .connecting) : Acts cfg s (s.endAttempt false)
  | read {synth synth' : ImuSynth Float32} {idleAt : Instant} {read : List WsMessage} (msg : WsMessage)
    (idleAt' : Instant) (hp : s.phase = .streaming synth idleAt read)
    (hnone : handleWsMessage synth msg = some (synth', none)) :
    Acts cfg s { s with phase := .streaming synth' idleAt' (read ++ [msg]) }
  | hang {synth : ImuSynth Float32} {idleAt : Instant} {read : List WsMessage} (msg : WsMessage)
    (hp : s.phase = .streaming synth idleAt read) (hnone : handleWsMessage synth msg = none) :
    Acts cfg s { s with phase := .hung (read ++ [msg]) }
  | sample {synth synth' : ImuSynth Float32} {idleAt : Instant} {read : List WsMessage} {x : ImuSample}
    (msg : WsMessage) (idleAt' : Instant) (hp : s.phase = .streaming synth idleAt read)
    (hsome : handleWsMessage synth msg = some (synth', some (.emit x))) (hr : s.receiving = true) :
    Acts cfg s { s with
      events := s.events ++ [.imuSamples [x]]
      phase := .streaming synth' idleAt' (read ++ [msg]) }
  | streamEnds {synth : ImuSynth Float32} {idleAt : Instant} {read : List WsMessage} (msg : Option WsMessage)
    (clean u : Bool) (hu : u = true → s.unseen = true) (hp : s.phase = .streaming synth idleAt read)
    (hmsg : s.receiving = true → ∀ m ∈ msg, ∃ synth' action, handleWsMessage synth m = some (synth', action) ∧
      FrameAction.samples action = []) :
    Acts cfg s ({ s with unseen := u }.endStream (read ++ msg.toList) clean)
  | stay {synth : ImuSynth Float32} {idleAt : Instant} {read : List WsMessage} (idleAt' : Instant)
    (hp : s.phase = .streaming synth idleAt read) :
    Acts cfg s { s with unseen := false, phase := .streaming synth idleAt' read }
  | resume {clean : Bool} {deadline : Instant} (u : Bool) (hu : u = true → s.unseen = true)
    (hp : s.phase = .waiting clean deadline)
    (hwait : deadline ≤ s.clock ∨ (s.unseen = true ∨ s.dropped = true) ∧ s.stop = false) :
    Acts cfg s ({ s with unseen := u }.resume clean)
  | stop : Acts cfg s { s with stop := true, unseen := true }
  | abort (hstop : s.stop = true) : Acts cfg s s.abort
  | dropDevice : Acts cfg s { s with dropped := true }
  | dropReceiver : Acts cfg s { s with receiving := false }

variable {cfg : LiveConfig}

theorem acts_poll {s : Session} (hp : s.phase = .polling) : Acts cfg s (s.poll cfg) := by
  unfold Session.poll
  split
  · exact .finish s.unseen id (Or.inl hp)
  · rename_i hstop
    have hstop : s.stop = false := Bool.not_eq_true _ ▸ hstop
    dsimp only
    split
    · rename_i t ht
      split
      · rename_i hfresh
        refine .subscribe hp hstop ht ?_
        simpa [TokenBundle.needsRefresh] using hfresh
      · exact .refresh hp hstop (by rw [ht]; rfl)
    · rename_i ht
      exact .refresh hp hstop (by rw [ht]; rfl)

theorem acts_message {s : Session} {synth : ImuSynth Float32} {idleAt : Instant} {read : List WsMessage}
    (msg : WsMessage) (hp : s.phase = .streaming synth idleAt read) : Acts cfg s (s.message cfg synth read msg) := by
  unfold Session.message
  split
  · exact .hang msg hp ‹_›
  · exact .read msg (s.clock + cfg.idleTimeout) hp ‹_›
  · rename_i x heq
    split
    · rename_i hr
      have h : Acts cfg s _ := .sample msg (s.clock + cfg.idleTimeout) hp heq hr
      simpa only [Session.send, if_pos hr] using h
    · rename_i hr
      exact .streamEnds (some msg) true s.unseen id hp fun h => absurd h hr
  · rename_i heq
    refine .streamEnds (some msg) true s.unseen id hp fun _ m hm => ?_
    obtain rfl := Option.mem_some.1 hm
    exact ⟨_, _, heq, rfl⟩

theorem acts_of_act {s s' : Session} {a : Action} (h : act cfg s a = some s') : Acts cfg s s' := by
  have hkeep : ∀ {synth : ImuSynth Float32} {idleAt : Instant} {read : List WsMessage} (clean u : Bool),
      (u = true → s.unseen = true) → s.phase = .streaming synth idleAt read →
        Acts cfg s ({ s with unseen := u }.endStream read clean) := by
    intro synth idleAt read clean u hu hp
    have h : Acts cfg s _ := .streamEnds none clean u hu hp fun _ m hm => nomatch hm
    rwa [Option.toList_none, List.append_nil] at h
  cases a with
  | poll =>
    simp only [act] at h
    split at h
    · obtain rfl := Option.some.inj h
      exact acts_poll ‹_›
    · cases h
  | answer a =>
    simp only [act] at h
    split at h
    · split at h
      · obtain rfl := Option.some.inj h
        exact .granted _ ‹_› ‹_›
      · obtain rfl := Option.some.inj h
        exact .refused ‹_›
    · cases h
  | connected =>
    simp only [act] at h
    split at h
    · obtain rfl := Option.some.inj h
      exact .connected ‹_›
    · cases h
  | connectFailed =>
    simp only [act] at h
    split at h
    · obtain rfl := Option.some.inj h
      exact .connectFailed ‹_›
    · cases h
  | message msg =>
    simp only [act] at h
    split at h
    · obtain rfl := Option.some.inj h
      exact acts_message msg ‹_›
    · cases h
  | readFailed =>
    simp only [act] at h
    split at h
    · obtain rfl := Option.some.inj h
      exact hkeep false s.unseen id ‹_›
    · cases h
  | closed =>
    simp only [act] at h
    split at h
    · obtain rfl := Option.some.inj h
      exact hkeep true s.unseen id ‹_›
    · cases h
  | idle =>
    simp only [act] at h
    split at h
    · split at h
      · obtain rfl := Option.some.inj h
        exact hkeep false s.unseen id ‹_›
      · cases h
    · cases h
  | woken =>
    simp only [act] at h
    split at h
    · rename_i hseen
      split at h
      · rename_i hp
        split at h
        · obtain rfl := Option.some.inj h
          exact hkeep true false nofun hp
        · obtain rfl := Option.some.inj h
          exact .stay _ hp
      · rename_i hp
        split at h
        · obtain rfl := Option.some.inj h
          exact .finish false nofun (Or.inr ⟨_, _, hp⟩)
        · rename_i hstop
          obtain rfl := Option.some.inj h
          refine .resume false nofun hp (Or.inr ⟨?_, Bool.not_eq_true _ ▸ hstop⟩)
          exact (Bool.or_eq_true_iff.1 hseen)
      · cases h
    · cases h
  | elapsed =>
    simp only [act] at h
    split at h
    · split at h
      · obtain rfl := Option.some.inj h
        exact .resume s.unseen id ‹_› (Or.inl ‹_›)
      · cases h
    · cases h
  | stop =>
    simp only [act] at h
    split at h
    · cases h
    · obtain rfl := Option.some.inj h
      exact .stop
  | abort =>
    simp only [act] at h
    split at h
    · obtain rfl := Option.some.inj h
      exact .abort ‹_›
    · cases h
  | dropDevice =>
    obtain rfl := Option.some.inj h
    exact .dropDevice
  | dropReceiver =>
    obtain rfl := Option.some.inj h
    exact .dropReceiver

end EverythingImu.Tesla.Live
