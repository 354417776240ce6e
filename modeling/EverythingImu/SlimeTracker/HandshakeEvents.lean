import EverythingImu.SlimeTracker.Client
import Mathlib.Data.List.Chain

/-!
# The handshake events of a client

The two tasks of a client flip the confirmed flag first and broadcast the flip later, so between the two the other
task can flip the flag back and broadcast that.  The flips alternate in every run.  The events do as long as no task
broadcasts its flip while the other task still owes an earlier one.
-/

namespace EverythingImu.SlimeTracker

open StepRun

/-- The receive loop has set the flag and not broadcast it. -/
def ReceivePc.owes : ReceivePc → Bool
  | .readingResetCount _ | .announcing _ _ => true
  | _ => false

/-- The watchdog has cleared the flag and not broadcast it. -/
def WatchdogPc.owes : WatchdogPc → Bool
  | .disablingBundle | .countingReset | .stampingReset _ | .announcing _ => true
  | _ => false

/-- The watchdog has counted a reset and not broadcast it. -/
def WatchdogPc.counted : WatchdogPc → Bool
  | .stampingReset _ | .announcing _ => true
  | _ => false

/-- The flips that are owed, oldest first: when both tasks owe one, the flag has the value of the later one. -/
def owed (receiver watchdog flag : Bool) : List Bool :=
  match receiver, watchdog with
  | false, false => []
  | true, false => [true]
  | false, true => [false]
  | true, true => [!flag, flag]

namespace SlimeClient

variable (c : SlimeClient)

/-- The flips that were broadcast, and then those that are owed. -/
def flips : List Bool :=
  c.handshakeEvents.map (·.confirmed) ++ owed c.receivePc.owes c.watchdogPc.owes c.handshakeConfirmed

/-- The lost events that were broadcast. -/
def lostEvents : Nat := c.handshakeEvents.countP (!·.confirmed)

/-- The action does not broadcast a flip while the other task owes an earlier one. -/
def InOrder : ClientAction → Prop
  | .datagram _ _ => True
  | .receiveLoop =>
    match c.receivePc with
    | .announcing _ _ => ¬(c.watchdogPc.owes = true ∧ c.handshakeConfirmed = true)
    | _ => True
  | .watchdog _ _ =>
    match c.watchdogPc with
    | .announcing _ => ¬(c.receivePc.owes = true ∧ c.handshakeConfirmed = false)
    | _ => True

instance (a : ClientAction) : Decidable (c.InOrder a) := by
  unfold InOrder
  split
  · infer_instance
  · split <;> infer_instance
  · split <;> infer_instance

/-! ### What a step does to the events -/

@[simp] theorem handleInbound_handshakeEvents (payload : List UInt8) :
    (c.handleInbound payload).handshakeEvents = c.handshakeEvents := by
  unfold handleInbound
  split
  · split <;> rfl
  · split <;> rfl

@[simp] theorem handleInbound_handshakeResetCount (payload : List UInt8) :
    (c.handleInbound payload).handshakeResetCount = c.handshakeResetCount := by
  unfold handleInbound
  split
  · split <;> rfl
  · split <;> rfl

/-- A broadcast takes the oldest owed flip when it is in order, and nothing else moves the flips but a flip of the
flag, which puts the new value at the end. -/
def FlipsStep (c c' : SlimeClient) : Prop :=
  c'.flips = c.flips ∧ c'.handshakeConfirmed = c.handshakeConfirmed ∨
    c'.flips = c.flips ++ [!c.handshakeConfirmed] ∧ c'.handshakeConfirmed = !c.handshakeConfirmed

theorem flips_receiveDatagram {c c' : SlimeClient} {payload : List UInt8} {now : Nat}
    (h : c.receiveDatagram payload now = some c') : FlipsStep c c' := by
  rcases receiveDatagram_cases h with rfl | ⟨hpc, rfl⟩
  · exact .inl ⟨rfl, rfl⟩
  · exact .inl ⟨by simp [flips, hpc, ReceivePc.owes], rfl⟩

theorem flips_receiveLoop {c c' : SlimeClient} (hok : c.InOrder .receiveLoop) (h : c.receiveLoop = some c') :
    FlipsStep c c' := by
  cases receiveLoop_turn h with
  | confirm payload hpc =>
    cases hflag : c.handshakeConfirmed with
    | true => exact .inl ⟨by simp [flips, hpc, hflag, ReceivePc.owes], hflag.symm⟩
    | false =>
      refine .inr ⟨?_, by simp [hflag]⟩
      cases hw : c.watchdogPc.owes <;> simp [flips, hpc, hflag, hw, ReceivePc.owes, owed]
  | read payload hpc => exact .inl ⟨by simp [flips, hpc, ReceivePc.owes], rfl⟩
  | announce payload resetCount hpc =>
    simp only [InOrder, hpc] at hok
    refine .inl ⟨?_, rfl⟩
    cases hw : c.watchdogPc.owes with
    | false => simp [flips, hpc, hw, ReceivePc.owes, owed]
    | true =>
      -- the watchdog owes a flip, which is the later one
      have hflag : c.handshakeConfirmed = false := by simpa [hw] using hok
      simp [flips, hpc, hw, hflag, ReceivePc.owes, owed]
  | handle payload hpc => exact .inl ⟨by simp [flips, hpc, ReceivePc.owes], by simp⟩

theorem flips_handshakeWatchdog {c : SlimeClient} {now : Nat} {outcome : SendOutcome}
    (hreset : c.watchdogPc = .resetting → c.handshakeConfirmed = true) (hok : c.InOrder (.watchdog now outcome)) :
    FlipsStep c (c.handshakeWatchdog now outcome) := by
  unfold handshakeWatchdog
  cases hpc : c.watchdogPc with
  | resetting =>
    have hflag := hreset hpc
    refine .inr ⟨?_, by simp [hflag]⟩
    cases hr : c.receivePc.owes <;> simp [flips, hpc, hflag, hr, WatchdogPc.owes, owed]
  | announcing newCount =>
    simp only [InOrder, hpc] at hok
    refine .inl ⟨?_, rfl⟩
    cases hr : c.receivePc.owes with
    | false => simp [flips, hpc, hr, WatchdogPc.owes, owed]
    | true =>
      -- the receive loop owes a flip, which is the later one
      have hflag : c.handshakeConfirmed = true := by simpa [hr] using hok
      simp [flips, hpc, hr, hflag, WatchdogPc.owes, owed]
  | checkingSilence lastInbound =>
    refine .inl ⟨?_, rfl⟩
    by_cases hs : c.handshakeConfirmed = true ∧ 0 < lastInbound ∧ 2000 < now - lastInbound <;>
      simp [flips, hpc, hs, WatchdogPc.owes]
  | checkingConfirmed =>
    refine .inl ⟨?_, rfl⟩
    cases hflag : c.handshakeConfirmed <;> simp [flips, hpc, hflag, WatchdogPc.owes]
  | sending seq => cases outcome <;> exact .inl ⟨by simp [flips, hpc, WatchdogPc.owes], rfl⟩
  | _ => exact .inl ⟨by simp [flips, hpc, WatchdogPc.owes], rfl⟩

/-- Every flip of the flag is owed or was broadcast, in the order of the flips, as long as the broadcasts are in
order. -/
theorem flips_step {c c' : SlimeClient} {a : ClientAction}
    (hreset : c.watchdogPc = .resetting → c.handshakeConfirmed = true) (hok : c.InOrder a)
    (h : c.step a = some c') : FlipsStep c c' := by
  cases a with
  | datagram payload now => exact flips_receiveDatagram h
  | receiveLoop => exact flips_receiveLoop hok h
  | watchdog now outcome =>
    obtain rfl := Option.some.inj h
    exact flips_handshakeWatchdog hreset hok

/-! ### Whole runs -/

/-- The flips alternate from a flag that is clear to the flag as it is. -/
def FlipsAlternate (c : SlimeClient) : Prop :=
  (false :: c.flips).IsChain (· ≠ ·) ∧ (false :: c.flips).getLast? = some c.handshakeConfirmed

theorem FlipsAlternate.step {c c' : SlimeClient} (h : FlipsAlternate c) (hs : FlipsStep c c') :
    FlipsAlternate c' := by
  obtain ⟨hchain, hlast⟩ := h
  rcases hs with ⟨hflips, hflag⟩ | ⟨hflips, hflag⟩
  · rw [FlipsAlternate, hflips, hflag]
    exact ⟨hchain, hlast⟩
  · rw [FlipsAlternate, hflips, hflag]
    constructor
    · refine List.isChain_append.2 ⟨hchain, List.isChain_singleton _, ?_⟩
      intro x hx y hy
      have hx : x = c.handshakeConfirmed := by simpa [hlast] using hx.symm
      have hy : y = !c.handshakeConfirmed := by simpa using hy.symm
      simp [hx, hy]
    · rw [← List.cons_append]
      exact List.getLast?_concat

theorem flipsAlternate_of_reaches {handshakeAt sentAt : Nat} {c : SlimeClient}
    (h : Reaches step InOrder (connect handshakeAt sentAt) c) : FlipsAlternate c := by
  induction h with
  | refl => exact ⟨List.isChain_singleton false, rfl⟩
  | tail hreach hs ih =>
    obtain ⟨a, hok, hs⟩ := hs
    have hreset := confirmed_of_resetting (Reaches.mono hreach fun _ _ _ => trivial)
    exact ih.step (flips_step hreset hok hs)

/-- The resets that were counted are the lost events that were broadcast, and one while the watchdog is between the
two. -/
def ResetsCounted (c : SlimeClient) : Prop :=
  c.handshakeResetCount = c.lostEvents + if c.watchdogPc.counted then 1 else 0

theorem resetsCounted_handshakeWatchdog {c : SlimeClient} (h : ResetsCounted c) (now : Nat) (outcome : SendOutcome) :
    ResetsCounted (c.handshakeWatchdog now outcome) := by
  unfold handshakeWatchdog
  simp only [ResetsCounted, lostEvents] at h ⊢
  cases hpc : c.watchdogPc with
  | countingReset =>
    simp [hpc, WatchdogPc.counted] at h ⊢
    omega
  | announcing newCount =>
    simp [hpc, WatchdogPc.counted] at h ⊢
    omega
  | checkingSilence lastInbound =>
    by_cases hs : c.handshakeConfirmed = true ∧ 0 < lastInbound ∧ 2000 < now - lastInbound <;>
      simpa [hpc, hs, WatchdogPc.counted] using h
  | checkingConfirmed => cases hflag : c.handshakeConfirmed <;> simpa [hpc, WatchdogPc.counted] using h
  | sending seq => cases outcome <;> simpa [hpc, WatchdogPc.counted] using h
  | _ => simpa [hpc, WatchdogPc.counted] using h

theorem resetsCounted_receiveLoop {c c' : SlimeClient} (h : ResetsCounted c) (hs : c.receiveLoop = some c') :
    ResetsCounted c' := by
  cases receiveLoop_turn hs with
  | confirm payload hpc => exact h
  | read payload hpc => exact h
  | announce payload resetCount hpc => simpa [ResetsCounted, lostEvents] using h
  | handle payload hpc => simpa [ResetsCounted, lostEvents] using h

theorem resetsCounted_of_reaches {handshakeAt sentAt : Nat} {c : SlimeClient}
    (h : Reaches step Always (connect handshakeAt sentAt) c) : ResetsCounted c := by
  refine h.invariant rfl ?_
  intro c a c' ih _ hs
  cases a with
  | datagram payload now =>
    rcases receiveDatagram_cases hs with rfl | ⟨-, rfl⟩ <;> exact ih
  | receiveLoop => exact resetsCounted_receiveLoop ih hs
  | watchdog now outcome =>
    obtain rfl := Option.some.inj hs
    exact resetsCounted_handshakeWatchdog ih now outcome

/-- The flag that the last event announced; before any event the flag is clear. -/
def lastAnnounced (c : SlimeClient) : Bool := (c.handshakeEvents.getLast?.map (·.confirmed)).getD false

/-- Both tasks are between two iterations. -/
def AtRest (c : SlimeClient) : Prop := c.receivePc = .receiving ∧ c.watchdogPc = .sleeping

/-- The events alternate between confirmed and lost. -/
def EventsAlternate (c : SlimeClient) : Prop := (c.handshakeEvents.map (·.confirmed)).IsChain (· ≠ ·)

/-- As long as no task broadcasts a flip while the other owes an earlier one, the events alternate, and between the
iterations of the tasks the last of them is the flag and the resets are the lost events. -/
theorem events_describe_flag {handshakeAt sentAt : Nat} {c : SlimeClient}
    (h : Reaches step InOrder (connect handshakeAt sentAt) c) :
    EventsAlternate c ∧
      (AtRest c → lastAnnounced c = c.handshakeConfirmed ∧ c.handshakeResetCount = c.lostEvents) := by
  obtain ⟨hchain, hlast⟩ := flipsAlternate_of_reaches h
  constructor
  · exact List.IsChain.left_of_append hchain.tail
  · intro ⟨hr, hw⟩
    have hflips : c.flips = c.handshakeEvents.map (·.confirmed) := by
      simp [flips, hr, hw, ReceivePc.owes, WatchdogPc.owes, owed]
    constructor
    · rw [hflips, List.getLast?_cons] at hlast
      simpa [lastAnnounced, List.getLast?_map] using hlast
    · have hcount := resetsCounted_of_reaches (Reaches.mono h fun _ _ _ => trivial)
      simpa [ResetsCounted, hw, WatchdogPc.counted] using hcount

/-- A confirmation, three seconds of silence, and the watchdog broadcasts the loss before the next datagram comes. -/
theorem events_after_one_loss :
    ∃ c, c.handshakeEvents = [⟨true, 0⟩, ⟨false, 1⟩] ∧ AtRest c ∧ EventsAlternate c ∧
      (AtRest c → lastAnnounced c = c.handshakeConfirmed ∧ c.handshakeResetCount = c.lostEvents) := by
  have hrun : Reaches step InOrder (connect 0 0) _ := Reaches.of_exec
    (.datagram [0, 0, 0, 1] 1000 :: List.replicate 4 .receiveLoop ++ List.replicate 13 (.watchdog 4000 .sent)) (by rfl)
  exact ⟨_, by rfl, ⟨by rfl, by rfl⟩, events_describe_flag hrun⟩

/-- The server answers between the clearing step of a reset and its broadcast: the confirmation overtakes the loss. -/
theorem events_overtaken :
    ¬∀ c, Reaches step Always (connect 0 0) c → AtRest c →
      EventsAlternate c ∧ lastAnnounced c = c.handshakeConfirmed ∧ c.handshakeResetCount = c.lostEvents := by
  intro h
  have hrun : Reaches step Always (connect 0 0) _ := Reaches.of_run
    (.datagram [0, 0, 0, 1] 1000 :: List.replicate 4 .receiveLoop ++ List.replicate 3 (.watchdog 4000 .sent) ++
      .datagram [0, 0, 0, 1] 4000 :: List.replicate 4 .receiveLoop ++ List.replicate 5 (.watchdog 4000 .sent)) (by rfl)
  obtain ⟨-, hlast, -⟩ := h _ hrun ⟨by rfl, by rfl⟩
  exact absurd hlast (by decide)

end SlimeClient

end EverythingImu.SlimeTracker
