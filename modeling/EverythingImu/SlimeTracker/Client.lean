import EverythingImu.Library.StepRun

/-!
# The SlimeVR client

The flags and counters that a `SlimeClient` shares with its two background tasks (`client.rs`), and the tasks as
programs of atomic steps: `receive_loop`, which takes any inbound datagram for a confirmation of the handshake, and
`handshake_watchdog`, which resets the handshake after two seconds of silence and sends it again while it is not
confirmed.  A step touches one shared cell.  Receive errors change nothing but the receive loop's own log counters and
are left out, as are the contents of the handshake packet.
-/

namespace EverythingImu.SlimeTracker

open StepRun

/-- Sent whenever the confirmed flag flips. -/
structure HandshakeEvent where
  confirmed : Bool
  resetCount : Nat
deriving DecidableEq

/-- A datagram that a task puts on the socket. -/
inductive Outgoing where
  | handshake (seq : Nat)
  | echo (payload : List UInt8)
deriving DecidableEq

/-- What a send on the socket ends with; `refused` is a reset or refused connection. -/
inductive SendOutcome where
  | sent
  | refused
  | failed
deriving DecidableEq

/-- The next step of the receive loop. -/
inductive ReceivePc where
  | receiving
  | confirming (payload : List UInt8)
  | readingResetCount (payload : List UInt8)
  | announcing (payload : List UInt8) (resetCount : Nat)
  | handling (payload : List UInt8)
deriving DecidableEq

/-- The next step of the watchdog. -/
inductive WatchdogPc where
  | sleeping
  | checkingSilence (lastInbound : Nat)
  | resetting
  | disablingBundle
  | countingReset
  | stampingReset (newCount : Nat)
  | announcing (newCount : Nat)
  | checkingConfirmed
  | numbering
  | sending (seq : Nat)
  | stampingHandshake
  | countingSent
  | stampingSent
deriving DecidableEq

structure SlimeClient where
  seq : Nat
  serverSupportsBundle : Bool
  handshakeConfirmed : Bool
  packetsSent : Nat
  lastSendMsUnix : Nat
  lastHandshakeMsUnix : Nat
  lastInboundMsUnix : Nat
  handshakeResetCount : Nat
  lastResetMsUnix : Nat
  /-- The events sent so far, oldest first. -/
  handshakeEvents : List HandshakeEvent
  /-- The datagrams the tasks have sent so far, oldest first. -/
  wire : List Outgoing
  receivePc : ReceivePc
  watchdogPc : WatchdogPc
deriving DecidableEq

inductive ClientAction where
  /-- `recv` returns a datagram. -/
  | datagram (payload : List UInt8) (now : Nat)
  | receiveLoop
  /-- The next step of the watchdog, with the clock and the outcome of a send. -/
  | watchdog (now : Nat) (outcome : SendOutcome)
deriving DecidableEq

namespace SlimeClient

/-- `connect`, when its initial handshake was sent. -/
def connect (handshakeAt sentAt : Nat) : SlimeClient where
  seq := 1
  serverSupportsBundle := false
  handshakeConfirmed := false
  packetsSent := 1
  lastSendMsUnix := sentAt
  lastHandshakeMsUnix := handshakeAt
  lastInboundMsUnix := 0
  handshakeResetCount := 0
  lastResetMsUnix := 0
  handshakeEvents := []
  wire := [.handshake 0]
  receivePc := .receiving
  watchdogPc := .sleeping

def PROTOCOL_BUNDLE_SUPPORT : UInt8 := 0

/-- The tag of a datagram: its first four bytes, most significant first. -/
def tag (payload : List UInt8) : Nat := (payload.take 4).foldl (fun n b => n * 256 + b.toNat) 0

variable (c : SlimeClient)

def handleInbound (payload : List UInt8) : SlimeClient :=
  if tag payload = 22 then
    match payload[12]? with
    | some flagByte =>
      { c with serverSupportsBundle := flagByte &&& (1 <<< PROTOCOL_BUNDLE_SUPPORT) != 0 }
    | none => c
  -- a ping goes back as it came
  else if tag payload = 10 then { c with wire := c.wire ++ [.echo payload] }
  else c

def receiveDatagram (payload : List UInt8) (now : Nat) : Option SlimeClient :=
  match c.receivePc with
  | .receiving =>
    if 4 ≤ payload.length then
      some { c with lastInboundMsUnix := now, receivePc := .confirming payload }
    else some c
  | _ => none

def receiveLoop : Option SlimeClient :=
  match c.receivePc with
  | .receiving => none
  | .confirming payload =>
    let wasConfirmed := c.handshakeConfirmed
    some { c with
      handshakeConfirmed := true
      receivePc := if wasConfirmed then .handling payload else .readingResetCount payload }
  | .readingResetCount payload => some { c with receivePc := .announcing payload c.handshakeResetCount }
  | .announcing payload resetCount =>
    some { c with
      handshakeEvents := c.handshakeEvents ++ [⟨true, resetCount⟩]
      receivePc := .handling payload }
  | .handling payload => some { c.handleInbound payload with receivePc := .receiving }

def handshakeWatchdog (now : Nat) (outcome : SendOutcome) : SlimeClient :=
  match c.watchdogPc with
  | .sleeping => { c with watchdogPc := .checkingSilence c.lastInboundMsUnix }
  | .checkingSilence lastInbound =>
    { c with
      watchdogPc :=
        if c.handshakeConfirmed ∧ 0 < lastInbound ∧ 2000 < now - lastInbound then .resetting
        else .checkingConfirmed }
  | .resetting => { c with handshakeConfirmed := false, watchdogPc := .disablingBundle }
  | .disablingBundle => { c with serverSupportsBundle := false, watchdogPc := .countingReset }
  | .countingReset =>
    { c with
      handshakeResetCount := c.handshakeResetCount + 1
      watchdogPc := .stampingReset (c.handshakeResetCount + 1) }
  | .stampingReset newCount => { c with lastResetMsUnix := now, watchdogPc := .announcing newCount }
  | .announcing newCount =>
    { c with
      handshakeEvents := c.handshakeEvents ++ [⟨false, newCount⟩]
      watchdogPc := .checkingConfirmed }
  | .checkingConfirmed =>
    { c with watchdogPc := if c.handshakeConfirmed then .sleeping else .numbering }
  | .numbering => { c with seq := c.seq + 1, watchdogPc := .sending c.seq }
  | .sending seq =>
    match outcome with
    | .sent => { c with wire := c.wire ++ [.handshake seq], watchdogPc := .stampingHandshake }
    -- a refused send counts as sent
    | .refused => { c with watchdogPc := .stampingHandshake }
    | .failed => { c with watchdogPc := .sleeping }
  | .stampingHandshake => { c with lastHandshakeMsUnix := now, watchdogPc := .countingSent }
  | .countingSent => { c with packetsSent := c.packetsSent + 1, watchdogPc := .stampingSent }
  | .stampingSent => { c with lastSendMsUnix := now, watchdogPc := .sleeping }

def step : ClientAction → Option SlimeClient
  | .datagram payload now => c.receiveDatagram payload now
  | .receiveLoop => c.receiveLoop
  | .watchdog now outcome => some (c.handshakeWatchdog now outcome)

/-! ### The confirmed flag -/

@[simp] theorem handleInbound_confirmed (payload : List UInt8) :
    (c.handleInbound payload).handshakeConfirmed = c.handshakeConfirmed := by
  unfold handleInbound
  split
  · split <;> rfl
  · split <;> rfl

@[simp] theorem handleInbound_watchdogPc (payload : List UInt8) :
    (c.handleInbound payload).watchdogPc = c.watchdogPc := by
  unfold handleInbound
  split
  · split <;> rfl
  · split <;> rfl

/-- What one turn of the receive loop can do to the client. -/
inductive ReceiveTurn (c : SlimeClient) : SlimeClient → Prop
  | confirm (payload : List UInt8) (hpc : c.receivePc = .confirming payload) :
      ReceiveTurn c { c with
        handshakeConfirmed := true
        receivePc := if c.handshakeConfirmed then .handling payload else .readingResetCount payload }
  | read (payload : List UInt8) (hpc : c.receivePc = .readingResetCount payload) :
      ReceiveTurn c { c with receivePc := .announcing payload c.handshakeResetCount }
  | announce (payload : List UInt8) (resetCount : Nat) (hpc : c.receivePc = .announcing payload resetCount) :
      ReceiveTurn c { c with
        handshakeEvents := c.handshakeEvents ++ [⟨true, resetCount⟩]
        receivePc := .handling payload }
  | handle (payload : List UInt8) (hpc : c.receivePc = .handling payload) :
      ReceiveTurn c { c.handleInbound payload with receivePc := .receiving }

theorem receiveLoop_turn {c c' : SlimeClient} (h : c.receiveLoop = some c') : ReceiveTurn c c' := by
  unfold receiveLoop at h
  cases hpc : c.receivePc with
  | receiving => simp [hpc] at h
  | confirming payload =>
    simp only [hpc] at h
    obtain rfl := Option.some.inj h
    exact .confirm payload hpc
  | readingResetCount payload =>
    simp only [hpc] at h
    obtain rfl := Option.some.inj h
    exact .read payload hpc
  | announcing payload resetCount =>
    simp only [hpc] at h
    obtain rfl := Option.some.inj h
    exact .announce payload resetCount hpc
  | handling payload =>
    simp only [hpc] at h
    obtain rfl := Option.some.inj h
    exact .handle payload hpc

/-- The receive loop only ever sets the flag, and leaves the watchdog alone. -/
theorem receiveLoop_spec {c c' : SlimeClient} (h : c.receiveLoop = some c') :
    c'.watchdogPc = c.watchdogPc ∧
      (c'.handshakeConfirmed = c.handshakeConfirmed ∨ c'.handshakeConfirmed = true) := by
  cases receiveLoop_turn h with
  | confirm payload hpc => exact ⟨rfl, .inr rfl⟩
  | read payload hpc => exact ⟨rfl, .inl rfl⟩
  | announce payload resetCount hpc => exact ⟨rfl, .inl rfl⟩
  | handle payload hpc => simp

/-- A datagram that is too short is dropped; with any other the loop goes on. -/
theorem receiveDatagram_cases {c c' : SlimeClient} {payload : List UInt8} {now : Nat}
    (h : c.receiveDatagram payload now = some c') :
    c' = c ∨ c.receivePc = .receiving ∧
      c' = { c with lastInboundMsUnix := now, receivePc := .confirming payload } := by
  unfold receiveDatagram at h
  split at h
  · rename_i hpc
    split at h
    · exact .inr ⟨hpc, (Option.some.inj h).symm⟩
    · exact .inl (Option.some.inj h).symm
  · cases h

theorem receiveDatagram_spec {c c' : SlimeClient} {payload : List UInt8} {now : Nat}
    (h : c.receiveDatagram payload now = some c') :
    c'.watchdogPc = c.watchdogPc ∧ c'.handshakeConfirmed = c.handshakeConfirmed := by
  rcases receiveDatagram_cases h with rfl | ⟨-, rfl⟩ <;> exact ⟨rfl, rfl⟩

/-- The watchdog clears the flag in its reset step and nowhere else, and never sets it. -/
theorem handshakeWatchdog_confirmed (now : Nat) (outcome : SendOutcome) :
    (c.handshakeWatchdog now outcome).handshakeConfirmed =
      (c.handshakeConfirmed && decide (c.watchdogPc ≠ .resetting)) := by
  unfold handshakeWatchdog
  cases c.watchdogPc with
  | sending seq => cases outcome <;> simp
  | _ => simp

/-- The watchdog arrives at its reset step only with the flag set. -/
theorem handshakeWatchdog_resetting {now : Nat} {outcome : SendOutcome}
    (h : (c.handshakeWatchdog now outcome).watchdogPc = .resetting) :
    (c.handshakeWatchdog now outcome).handshakeConfirmed = true := by
  unfold handshakeWatchdog at h ⊢
  cases hpc : c.watchdogPc with
  | checkingSilence lastInbound =>
    simp only [hpc] at h ⊢
    split at h
    · rename_i hsilent
      exact hsilent.1
    · cases h
  | sending seq => cases outcome <;> simp [hpc] at h
  | checkingConfirmed =>
    simp only [hpc] at h
    split at h <;> cases h
  | _ => simp [hpc] at h

/-- Only the watchdog clears the flag, so each of its resets is a transition from confirmed to not confirmed. -/
theorem confirmed_of_resetting {handshakeAt sentAt : Nat} {c : SlimeClient}
    (h : Reaches step Always (connect handshakeAt sentAt) c) (hpc : c.watchdogPc = .resetting) :
    c.handshakeConfirmed = true := by
  revert hpc
  refine h.invariant (I := fun c => c.watchdogPc = .resetting → c.handshakeConfirmed = true) nofun ?_
  rintro c a c' ih - hs hpc
  cases a with
  | datagram payload now =>
    obtain ⟨hwd, hflag⟩ := receiveDatagram_spec hs
    rw [hflag]
    exact ih (hwd ▸ hpc)
  | receiveLoop =>
    obtain ⟨hwd, hflag | hflag⟩ := receiveLoop_spec hs
    · rw [hflag]
      exact ih (hwd ▸ hpc)
    · exact hflag
  | watchdog now outcome =>
    obtain rfl := Option.some.inj hs
    exact c.handshakeWatchdog_resetting hpc

end SlimeClient

end EverythingImu.SlimeTracker
