import EverythingImu.SlimeTracker.Senders

/-!
# The count of sent packets

What the socket did with each datagram of a client, next to `packets_sent`.  Calls and the watchdog count in a step of
their own behind the send, so between two such steps the count lags by the sends that are still uncounted.  A datagram
that a call sends is counted if it left.  A handshake is counted unless its send failed, also when it was refused, and
the echo of a ping is never counted.  So the count is right exactly while as many handshakes were refused as echoes
left (`packetsSent_faithful`).
-/

namespace EverythingImu.SlimeTracker

open StepRun

inductive SendKind where
  | handshake
  | data
  | echo
deriving DecidableEq

/-- A datagram given to the socket, and what its send ended with. -/
structure SocketSend where
  kind : SendKind
  outcome : SendOutcome
deriving DecidableEq

namespace SocketSend

/-- The datagram left the socket. -/
def Left (x : SocketSend) : Bool := x.outcome = .sent

/-- The code adds it to `packets_sent`. -/
def Counted (x : SocketSend) : Bool :=
  match x.kind, x.outcome with
  | .handshake, .sent | .handshake, .refused | .data, .sent => true
  | _, _ => false

/-- A refused handshake, which is counted, or an echo that left, which is not. -/
def Slips (x : SocketSend) : Prop := x = ⟨.handshake, .refused⟩ ∨ x = ⟨.echo, .sent⟩

instance (x : SocketSend) : Decidable x.Slips := inferInstanceAs (Decidable (_ ∨ _))

end SocketSend

def left (sends : List SocketSend) : Nat := sends.countP SocketSend.Left

def refusedHandshakes (sends : List SocketSend) : Nat := sends.count ⟨.handshake, .refused⟩

def sentEchoes (sends : List SocketSend) : Nat := sends.count ⟨.echo, .sent⟩

/-- What the code counts and what left differ by the two slips. -/
theorem countP_counted (sends : List SocketSend) :
    sends.countP SocketSend.Counted + sentEchoes sends = left sends + refusedHandshakes sends := by
  induction sends with
  | nil => rfl
  | cons x sends ih =>
    obtain ⟨kind, outcome⟩ := x
    simp only [left, refusedHandshakes, sentEchoes, List.countP_cons, List.count_cons] at ih ⊢
    cases kind <;> cases outcome <;> simp [SocketSend.Counted, SocketSend.Left] <;> omega

theorem no_slips {sends : List SocketSend} (h : ∀ x ∈ sends, ¬x.Slips) :
    refusedHandshakes sends = 0 ∧ sentEchoes sends = 0 := by
  constructor
  · exact List.count_eq_zero.2 fun hx => h _ hx (.inl rfl)
  · exact List.count_eq_zero.2 fun hx => h _ hx (.inr rfl)

/-! ### The run with its sends -/

/-- A call between its send and the count. -/
def CallPc.Uncounted : CallPc → Bool
  | .stampingHandshake _ | .countingSent _ => true
  | _ => false

/-- The watchdog between its send and the count. -/
def WatchdogPc.Uncounted : WatchdogPc → Bool
  | .stampingHandshake | .countingSent => true
  | _ => false

namespace Senders

/-- The sends that the counter is still to learn of. -/
def uncounted (s : Senders) : Nat := s.calls.countP CallPc.Uncounted + s.client.watchdogPc.Uncounted.toNat

/-- What a step gives to the socket; `echo` is what the send of an echo ends with. -/
def socketSends (s : Senders) (echo : SendOutcome) : SenderAction → List SocketSend
  | .client .receiveLoop =>
    match s.client.receivePc with
    | .handling payload => if SlimeClient.tag payload = 10 then [⟨.echo, echo⟩] else []
    | _ => []
  | .client (.watchdog _ outcome) =>
    match s.client.watchdogPc with
    | .sending _ => [⟨.handshake, outcome⟩]
    | _ => []
  | .client (.datagram _ _) => []
  | .call _ => []
  | .advance i _ outcome =>
    match s.calls[i]? with
    | some (.handing _ (.handshake _) _ _) => [⟨.handshake, outcome⟩]
    | some (.handing _ _ _ _) => [⟨.data, outcome⟩]
    | _ => []

end Senders

/-- A client with everything that was given to its socket, oldest first. -/
structure Ledger where
  senders : Senders
  sends : List SocketSend

namespace Ledger

/-- A client on its way back from `connect`, whose handshake was sent or refused. -/
def connect (info : HandshakeInfo) (handshakeAt sentAt : Nat) (refused : Bool) : Ledger where
  senders := .connect info handshakeAt sentAt
  sends := [⟨.handshake, if refused then .refused else .sent⟩]

def step (info : HandshakeInfo) (l : Ledger) (a : SenderAction × SendOutcome) : Option Ledger := do
  let senders ← l.senders.step info a.1
  return { senders, sends := l.sends ++ l.senders.socketSends a.2 a.1 }

/-- What was counted, with what is still to be counted. -/
def account (s : Senders) : Nat := s.client.packetsSent + s.uncounted

end Ledger

/-! ### One step -/

@[simp] theorem SlimeClient.handleInbound_packetsSent (c : SlimeClient) (payload : List UInt8) :
    (c.handleInbound payload).packetsSent = c.packetsSent := by
  unfold handleInbound
  split
  · split <;> rfl
  · split <;> rfl

namespace Senders

private theorem toNat_eq_ite (b : Bool) : b.toNat = if b = true then 1 else 0 := by cases b <;> rfl

private theorem countP_set {calls : List CallPc} {i : Nat} {pc : CallPc} (h : calls[i]? = some pc) (pc' : CallPc) :
    (calls.set i pc').countP CallPc.Uncounted + pc.Uncounted.toNat =
      calls.countP CallPc.Uncounted + pc'.Uncounted.toNat := by
  induction calls generalizing i with
  | nil => simp at h
  | cons c calls ih =>
    cases i with
    | zero =>
      obtain rfl : c = pc := by simpa using h
      simp only [List.set_cons_zero, List.countP_cons, toNat_eq_ite]
      omega
    | succ i =>
      have hrest := ih (i := i) (by simpa using h)
      simp only [List.set_cons_succ, List.countP_cons]
      omega

@[simp] theorem next_uncounted (rest : List Job) : (CallPc.next rest).Uncounted = false := by
  cases rest <;> rfl

@[simp] theorem start_uncounted (send : Send) : send.start.Uncounted = false := by
  cases send <;> rfl

variable {info : HandshakeInfo} {s s' : Senders}

/-- What a step of a call does to its place in the program and to the counter. -/
private theorem advance_moves {i now : Nat} {outcome : SendOutcome} (echo : SendOutcome) {pc : CallPc}
    (hpc : s.calls[i]? = some pc) (h : s.advance i now outcome pc = some s') :
    ∃ pc' sent, s'.calls = s.calls.set i pc' ∧ s'.client.watchdogPc = s.client.watchdogPc ∧
      s'.client.packetsSent = s.client.packetsSent + sent ∧
      pc'.Uncounted.toNat + sent =
        pc.Uncounted.toNat + (s.socketSends echo (.advance i now outcome)).countP SocketSend.Counted := by
  simp only [socketSends, hpc]
  cases pc with
  | choosing sensorId rotation accel =>
    obtain rfl := Option.some.inj h
    refine ⟨_, 0, rfl, rfl, rfl, ?_⟩
    cases s.client.serverSupportsBundle <;> rfl
  | building seq job rest =>
    simp only [advance] at h
    split at h <;> obtain rfl := Option.some.inj h <;> exact ⟨_, 0, rfl, rfl, rfl, rfl⟩
  | handing seq job datagram rest =>
    obtain rfl := Option.some.inj h
    refine ⟨_, 0, rfl, rfl, rfl, ?_⟩
    cases job <;> cases outcome <;> simp [CallPc.handedOver, SocketSend.Counted] <;> rfl
  | countingSent rest =>
    obtain rfl := Option.some.inj h
    exact ⟨_, 1, rfl, rfl, rfl, rfl⟩
  | stampingSent rest =>
    obtain rfl := Option.some.inj h
    refine ⟨_, 0, rfl, rfl, rfl, ?_⟩
    rw [next_uncounted]
    rfl
  | numbering | stampingHandshake =>
    obtain rfl := Option.some.inj h
    exact ⟨_, 0, rfl, rfl, rfl, rfl⟩
  | returned => cases h

theorem account_advance {i now : Nat} {outcome : SendOutcome} (echo : SendOutcome) {pc : CallPc}
    (hpc : s.calls[i]? = some pc) (h : s.advance i now outcome pc = some s') :
    Ledger.account s' =
      Ledger.account s + (s.socketSends echo (.advance i now outcome)).countP SocketSend.Counted := by
  obtain ⟨pc', sent, hcalls, hwd, hsent, hmove⟩ := advance_moves echo hpc h
  have hset := countP_set hpc pc'
  rw [Ledger.account, Ledger.account, uncounted, uncounted, hcalls, hwd, hsent]
  omega

theorem account_watchdog (s : Senders) (now : Nat) (outcome echo : SendOutcome) (events : List Event) :
    Ledger.account { s with client := s.client.handshakeWatchdog now outcome, trace := s.trace ++ events } =
      Ledger.account s + (s.socketSends echo (.client (.watchdog now outcome))).countP SocketSend.Counted := by
  simp only [Ledger.account, uncounted, socketSends, SlimeClient.handshakeWatchdog]
  cases hpc : s.client.watchdogPc with
  | sending seq =>
    cases outcome <;> simp [WatchdogPc.Uncounted, SocketSend.Counted] <;> omega
  | checkingSilence | checkingConfirmed =>
    simp only
    split <;> rfl
  | countingSent =>
    simp [WatchdogPc.Uncounted]
    omega
  | _ => rfl

theorem account_receiveLoop {c' : SlimeClient} (echo : SendOutcome) (events : List Event)
    (h : s.client.receiveLoop = some c') :
    Ledger.account { s with client := c', trace := s.trace ++ events } =
      Ledger.account s + (s.socketSends echo (.client .receiveLoop)).countP SocketSend.Counted := by
  cases SlimeClient.receiveLoop_turn h with
  | handle payload hpc =>
    have hcounted : (s.socketSends echo (.client .receiveLoop)).countP SocketSend.Counted = 0 := by
      simp only [socketSends, hpc]
      split
      · cases echo <;> rfl
      · rfl
    simp [Ledger.account, uncounted, hcounted]
  | confirm _ hpc | read _ hpc | announce _ _ hpc =>
    simp only [socketSends, hpc]
    rfl

/-- Every step adds to the account what the code counts of the sends in it. -/
theorem account_step {a : SenderAction} (echo : SendOutcome) (h : step info s a = some s') :
    Ledger.account s' = Ledger.account s + (s.socketSends echo a).countP SocketSend.Counted := by
  cases a with
  | client a =>
    obtain ⟨c', hc, hs⟩ := Option.bind_eq_some_iff.1 h
    obtain rfl := Option.some.inj hs
    cases a with
    | datagram payload now =>
      rcases SlimeClient.receiveDatagram_cases hc with rfl | ⟨-, rfl⟩ <;> rfl
    | receiveLoop => exact account_receiveLoop echo _ hc
    | watchdog now outcome =>
      obtain rfl := Option.some.inj hc
      exact account_watchdog s now outcome echo _
  | call send =>
    obtain rfl := Option.some.inj h
    simp only [Ledger.account, uncounted, List.countP_append, List.countP_singleton, start_uncounted]
    rfl
  | advance i now outcome =>
    obtain ⟨pc, hpc, hs⟩ := Option.bind_eq_some_iff.1 h
    exact account_advance echo hpc hs

end Senders

/-! ### Whole runs -/

namespace Ledger

variable {info : HandshakeInfo} {handshakeAt sentAt : Nat} {refused : Bool} {l : Ledger}

/-- The account holds what the code counts of all sends. -/
theorem account_of_reaches (h : Reaches (step info) Always (connect info handshakeAt sentAt refused) l) :
    account l.senders = l.sends.countP SocketSend.Counted := by
  refine h.invariant (I := fun l => account l.senders = l.sends.countP SocketSend.Counted) ?_ ?_
  · cases refused <;> rfl
  · rintro l ⟨a, echo⟩ l' ih - hs
    obtain ⟨senders, hsenders, hl⟩ := Option.bind_eq_some_iff.1 hs
    obtain rfl := Option.some.inj hl
    rw [Senders.account_step echo hsenders, ih, List.countP_append]

/-- In every run, whatever the sends, their order and the outcomes of the socket: when nothing is on the way to the
counter, `packets_sent` is the number of datagrams that left exactly if as many handshakes were refused as echoes
left.  In a run without either it is that number in every state, up to the sends that are on the way to the counter. -/
theorem packetsSent_faithful (h : Reaches (step info) Always (connect info handshakeAt sentAt refused) l) :
    (l.senders.uncounted = 0 →
      (l.senders.client.packetsSent = left l.sends ↔ refusedHandshakes l.sends = sentEchoes l.sends)) ∧
    ((∀ x ∈ l.sends, ¬x.Slips) → l.senders.client.packetsSent + l.senders.uncounted = left l.sends) := by
  have haccount : l.senders.client.packetsSent + l.senders.uncounted = l.sends.countP SocketSend.Counted :=
    account_of_reaches h
  have hslips := countP_counted l.sends
  constructor
  · intro hsettled
    omega
  · intro hnone
    obtain ⟨hrefused, hechoes⟩ := no_slips hnone
    omega

/-- A watchdog that wakes for the first time and finds no confirmation: it sends the handshake once more. -/
def firstWatch (outcome : SendOutcome) : List (SenderAction × SendOutcome) :=
  List.replicate 8 (.client (.watchdog 500 outcome), .sent)

/-- A server that is there for both handshakes. -/
theorem packetsSent_faithful_watched :
    ∃ l, Reaches (step .blank) Always (connect .blank 0 0 false) l ∧ left l.sends = 2 ∧
      l.senders.client.packetsSent + l.senders.uncounted = left l.sends := by
  have hrun : Reaches (step .blank) Always (connect .blank 0 0 false) _ := Reaches.of_run (firstWatch .sent) (by rfl)
  exact ⟨_, hrun, rfl, (packetsSent_faithful hrun).2 (by decide)⟩

/-- The server is gone when the watchdog sends the handshake again: the send is refused and counts all the same. -/
theorem not_packetsSent_of_refused :
    ¬∀ l, Reaches (step .blank) Always (connect .blank 0 0 false) l → l.senders.uncounted = 0 →
      l.senders.client.packetsSent = left l.sends := by
  intro h
  have hrun : Reaches (step .blank) Always (connect .blank 0 0 false) _ := Reaches.of_run (firstWatch .refused) (by rfl)
  exact absurd (h _ hrun rfl) (by decide)

end Ledger

end EverythingImu.SlimeTracker
