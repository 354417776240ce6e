import EverythingImu.Library.Channel
import EverythingImu.OscHaptics.Mapping
import Mathlib.Data.List.AList

/-!
# The loop of the haptic listener

`serve` and its `LoopState` (`listener.rs`).  The loop owns the only record of which motors run.  A `World` is the
loop state together with what the loop does to the outside: its commands to the rumble sink, the addresses it reports
and the values it hands to the sniffer, each newest first, and the number of times it has read the clock.

Reading `n` of the clock gives `clock n`, and the datagram decoder is a parameter.  `lastSent` always records the last
command of each device (`Synced`), along every turn of the loop (`serveTurn_synced`).
-/

namespace EverythingImu.OscHaptics

open Channel

def MIN_SEND_GAP : Nat := 15_000_000
def INTENSITY_EPSILON : Float32 := 0.03
def WATCHDOG_IDLE : Nat := 2_000_000_000
def MAX_TICK : Nat := 250_000_000
def MAX_SEEN_ADDRS : Nat := 4096
def MIN_WAKE : Nat := 1_000_000
def RECV_BUFFER : Nat := 8192

/-- State owned by the serve loop. -/
structure LoopState where
  /-- Last value sent to each device. -/
  lastSent : AList fun _ : Mac => Instant × Float32
  /-- Devices in the middle of a pulse and when the pulse ends. -/
  pulseUntil : AList fun _ : Mac => Instant
  seenAddrs : List String
  lastPacket : Instant
  idleSilenced : Bool

def LoopState.new (now : Instant) : LoopState := ⟨∅, ∅, [], now, false⟩

/-- One command to the rumble sink. -/
structure Rumble where
  time : Instant
  mac : Mac
  intensity : Float32
deriving DecidableEq

structure World where
  state : LoopState
  reads : Nat
  calls : List Rumble
  discovered : List String
  sniffed : List (String × Float32)

/-- How long the loop may sleep before it must end a pulse or run the watchdog. -/
def LoopState.nextWake (st : LoopState) (now : Instant) : Nat :=
  let wake := st.pulseUntil.entries.foldl (fun wake e => min wake (e.2 - now)) MAX_TICK
  let wake := if st.idleSilenced then wake else min wake (st.lastPacket + WATCHDOG_IDLE - now)
  max wake MIN_WAKE

/-- The rate limit and the epsilon filter hold back a command; a return to zero always passes. -/
def LoopState.suppresses (st : LoopState) (mac : Mac) (intensity : Float32) (now : Instant) : Bool :=
  match st.lastSent.lookup mac with
  | some (sentAt, prev) =>
    (now - sentAt < MIN_SEND_GAP || (intensity - prev).abs < INTENSITY_EPSILON) && intensity > 0.0
  | none => false

/-- The devices whose last value is above 0. -/
def LoopState.active (st : LoopState) : List Mac :=
  (st.lastSent.entries.filter fun e => e.2.2 > 0.0).map (·.1)

/-- The devices whose pulse has ended. -/
def LoopState.expired (st : LoopState) (now : Instant) : List Mac :=
  (st.pulseUntil.entries.filter fun e => e.2 ≤ now).map (·.1)

namespace World

variable (w : World)

def readClock : World := { w with reads := w.reads + 1 }

def setPulse (mac : Mac) (until_ : Instant) : World :=
  { w with state := { w.state with pulseUntil := w.state.pulseUntil.insert mac until_ } }

def erasePulse (mac : Mac) : World :=
  { w with state := { w.state with pulseUntil := w.state.pulseUntil.erase mac } }

def send (mac : Mac) (intensity : Float32) (force : Bool) (now : Instant) : World :=
  if !force && w.state.suppresses mac intensity now then w
  else
    { w with
      state := { w.state with lastSent := w.state.lastSent.insert mac (now, intensity) }
      calls := ⟨now, mac, intensity⟩ :: w.calls }

/-- Drop the pending pulse of a device and force it to 0. -/
def stopMotor (now : Instant) (mac : Mac) : World := (w.erasePulse mac).send mac 0.0 true now

/-- `silence_all`: force every device with a last value above 0 back to silence. -/
def silenceAll (clock : Nat → Instant) : World :=
  w.state.active.foldl (stopMotor · (clock w.reads)) w.readClock

/-- End the finished pulses and run the idle watchdog. -/
def onTick (clock : Nat → Instant) (now : Instant) : World :=
  let w := (w.state.expired now).foldl (stopMotor · now) w
  if !w.state.idleSilenced && now - w.state.lastPacket ≥ WATCHDOG_IDLE then
    let w := w.silenceAll clock
    { w with state := { w.state with idleSilenced := true } }
  else w

def applyAction (now : Instant) (action : HapticAction) : World :=
  match action.pulseMs with
  | some ms =>
    (w.setPulse action.deviceMac (now + ms.toNat * 1_000_000)).send action.deviceMac action.intensity true now
  -- a live proximity value overrides any pending pulse
  | none => (w.erasePulse action.deviceMac).send action.deviceMac action.intensity false now

end World

/-- Who listens besides the sink: the discovery channel and the sniffer. -/
structure Listeners where
  discovery : Bool
  sniffer : Bool

section Loop

variable (clock : Nat → Instant) (listeners : Listeners) (rules : List HapticRule)

/-- Report an address that was not seen before, as long as there is room to remember it. -/
def World.discover (w : World) (addr : String) : World :=
  if listeners.discovery && w.state.seenAddrs.length < MAX_SEEN_ADDRS && !w.state.seenAddrs.contains addr then
    { w with
      state := { w.state with seenAddrs := addr :: w.state.seenAddrs }
      discovered := addr :: w.discovered }
  else w

/-- `handle_packet` on a message. -/
def handleMessage (msg : OscMessage) (w : World) : World :=
  let w := w.discover listeners msg.addr
  match msg.args.head?.bind oscValueToF32 with
  | none => w
  | some value =>
    let w := if listeners.sniffer then { w with sniffed := (msg.addr, value) :: w.sniffed } else w
    (resolve rules msg.addr value).foldl (World.applyAction · (clock w.reads)) w.readClock

mutual

def handlePacket : OscPacket → World → World
  | .message msg, w => handleMessage clock listeners rules msg w
  | .bundle content, w => handleContent content w

/-- The packets of a bundle, in order. -/
def handleContent : List OscPacket → World → World
  | [], w => w
  | packet :: rest, w => handleContent rest (handlePacket packet w)

end

/-- What the socket holds when the loop wakes up. -/
inductive Recv where
  | pending
  | datagram (bytes : List UInt8)
  | error
deriving DecidableEq

inductive ServeExit where
  | shutdown
  | rebind
deriving DecidableEq

variable (decodeUdp : List UInt8 → Option OscPacket)

/-- The receive branch of the select. -/
def onDatagram (bytes : List UInt8) (w : World) : World :=
  let w := { w.readClock with
    state := { w.state with lastPacket := clock w.reads, idleSilenced := false } }
  match decodeUdp (bytes.take RECV_BUFFER) with
  | some packet => handlePacket clock listeners rules packet w
  | none => w

/-- One turn of the serve loop: read the clock for the sleep, then take the first branch that is ready, in the order
config change, socket, sleep.  `none` while every branch is pending. -/
def serveTurn (config : Watch HapticConfig) (seen : Nat) (recv : Recv) (w : World) :
    Option (Option ServeExit × World) :=
  let deadline := clock w.reads + w.state.nextWake (clock w.reads)
  let w := w.readClock
  match config.changed seen with
  | .ready true => some (some .rebind, w)
  | .ready false => some (some .shutdown, w.silenceAll clock)
  | .pending =>
    match recv with
    | .datagram bytes => some (none, onDatagram clock listeners rules decodeUdp bytes w)
    | .error => some (none, w)
    | .pending =>
      if clock w.reads < deadline then none else some (none, w.readClock.onTick clock (clock w.reads))

/-- The turns of the serve loop, with what each needs and does. -/
inductive ServeTurn (config : Watch HapticConfig) (seen : Nat) (w : World) : Recv → Option ServeExit → World → Prop
  | rebind {recv : Recv} (hconfig : config.changed seen = .ready true) :
    ServeTurn config seen w recv (some .rebind) w.readClock
  | shutdown {recv : Recv} (hconfig : config.changed seen = .ready false) :
    ServeTurn config seen w recv (some .shutdown) (w.readClock.silenceAll clock)
  | datagram (hconfig : config.changed seen = .pending) (bytes : List UInt8) :
    ServeTurn config seen w (.datagram bytes) none (onDatagram clock listeners rules decodeUdp bytes w.readClock)
  | error (hconfig : config.changed seen = .pending) : ServeTurn config seen w .error none w.readClock
  | tick (hconfig : config.changed seen = .pending)
    (hlate : clock w.reads + w.state.nextWake (clock w.reads) ≤ clock w.readClock.reads) :
    ServeTurn config seen w .pending none (w.readClock.readClock.onTick clock (clock w.readClock.reads))

variable {clock listeners rules decodeUdp} in
theorem serveTurn_inv {config : Watch HapticConfig} {seen : Nat} {recv : Recv} {w w' : World} {exit : Option ServeExit}
    (h : serveTurn clock listeners rules decodeUdp config seen recv w = some (exit, w')) :
    ServeTurn clock listeners rules decodeUdp config seen w recv exit w' := by
  unfold serveTurn at h
  dsimp only at h
  split at h
  · rename_i hconfig
    cases h
    exact .rebind hconfig
  · rename_i hconfig
    cases h
    exact .shutdown hconfig
  · rename_i hconfig
    split at h
    · cases h
      exact .datagram hconfig _
    · cases h
      exact .error hconfig
    · split at h
      · cases h
      · rename_i hlate
        cases h
        exact .tick hconfig (Nat.not_lt.1 hlate)

/-- A bundle is handled like the sequence of its messages. -/
def OscPacket.messages : OscPacket → List OscMessage
  | .message msg => [msg]
  | .bundle content => contentMessages content
where
  contentMessages : List OscPacket → List OscMessage
    | [] => []
    | packet :: rest => packet.messages ++ contentMessages rest

mutual

theorem handlePacket_eq_foldl : (packet : OscPacket) → (w : World) →
    handlePacket clock listeners rules packet w =
      packet.messages.foldl (fun w msg => handleMessage clock listeners rules msg w) w
  | .message _, _ => rfl
  | .bundle content, w => handleContent_eq_foldl content w

theorem handleContent_eq_foldl : (content : List OscPacket) → (w : World) →
    handleContent clock listeners rules content w =
      (OscPacket.messages.contentMessages content).foldl
        (fun w msg => handleMessage clock listeners rules msg w) w
  | [], _ => rfl
  | packet :: rest, w => by
    simp only [handleContent, OscPacket.messages.contentMessages, List.foldl_append]
    rw [handlePacket_eq_foldl packet, handleContent_eq_foldl rest]

end

end Loop

/-! ### What every turn keeps -/

/-- A property of the world that depends only on the commands sent and on their record, and that sending keeps. -/
structure SendInvariant (P : World → Prop) : Prop where
  frame : ∀ {w w' : World}, P w → w'.state.lastSent = w.state.lastSent → w'.calls = w.calls → P w'
  send : ∀ (w : World) (mac : Mac) (intensity : Float32) (force : Bool) (now : Instant), P w →
    P (w.send mac intensity force now)

namespace SendInvariant

variable {P : World → Prop} (hP : SendInvariant P) (clock : Nat → Instant) (listeners : Listeners)
  (rules : List HapticRule)

include hP

theorem stopMotor (w : World) (now : Instant) (mac : Mac) (h : P w) : P (w.stopMotor now mac) :=
  hP.send _ _ _ _ _ (hP.frame h rfl rfl)

theorem stopMotors (macs : List Mac) (now : Instant) (w : World) (h : P w) :
    P (macs.foldl (World.stopMotor · now) w) := by
  induction macs generalizing w with
  | nil => exact h
  | cons mac macs ih => exact ih _ (hP.stopMotor w now mac h)

theorem silenceAll (w : World) (h : P w) : P (w.silenceAll clock) :=
  hP.stopMotors _ _ _ (hP.frame h rfl rfl)

theorem onTick (now : Instant) (w : World) (h : P w) : P (w.onTick clock now) := by
  have hexp := hP.stopMotors (w.state.expired now) now w h
  unfold World.onTick
  simp only
  split
  · exact hP.frame (hP.silenceAll clock _ hexp) rfl rfl
  · exact hexp

theorem applyAction (now : Instant) (action : HapticAction) (w : World) (h : P w) :
    P (w.applyAction now action) := by
  unfold World.applyAction
  split <;> exact hP.send _ _ _ _ _ (hP.frame h rfl rfl)

theorem applyActions (actions : List HapticAction) (now : Instant) (w : World) (h : P w) :
    P (actions.foldl (World.applyAction · now) w) := by
  induction actions generalizing w with
  | nil => exact h
  | cons action actions ih => exact ih _ (hP.applyAction now action w h)

theorem discover (w : World) (addr : String) (h : P w) : P (w.discover listeners addr) := by
  unfold World.discover
  split
  · exact hP.frame h rfl rfl
  · exact h

theorem handleMessage (msg : OscMessage) (w : World) (h : P w) :
    P (OscHaptics.handleMessage clock listeners rules msg w) := by
  have hd := hP.discover listeners w msg.addr h
  unfold OscHaptics.handleMessage
  simp only
  split
  · exact hd
  · split <;> exact hP.applyActions _ _ _ (hP.frame hd rfl rfl)

theorem handlePacket (packet : OscPacket) (w : World) (h : P w) :
    P (OscHaptics.handlePacket clock listeners rules packet w) := by
  rw [handlePacket_eq_foldl]
  generalize packet.messages = msgs
  induction msgs generalizing w with
  | nil => exact h
  | cons msg msgs ih => exact ih _ (hP.handleMessage clock listeners rules msg w h)

theorem onDatagram (decodeUdp : List UInt8 → Option OscPacket) (bytes : List UInt8) (w : World) (h : P w) :
    P (OscHaptics.onDatagram clock listeners rules decodeUdp bytes w) := by
  unfold OscHaptics.onDatagram
  simp only
  split
  · exact hP.handlePacket clock listeners rules _ _ (hP.frame h rfl rfl)
  · exact hP.frame h rfl rfl

/-- Every turn of the serve loop keeps the property. -/
theorem serveTurn {decodeUdp : List UInt8 → Option OscPacket} {config : Watch HapticConfig} {seen : Nat} {recv : Recv}
    {w w' : World} {exit : Option ServeExit} (h : P w)
    (ht : OscHaptics.serveTurn clock listeners rules decodeUdp config seen recv w = some (exit, w')) : P w' := by
  have hr : P w.readClock := hP.frame h rfl rfl
  cases serveTurn_inv ht with
  | rebind hconfig => exact hr
  | shutdown hconfig => exact hP.silenceAll clock _ hr
  | datagram hconfig bytes => exact hP.onDatagram clock listeners rules decodeUdp bytes _ hr
  | error hconfig => exact hr
  | tick hconfig hlate => exact hP.onTick clock _ _ (hP.frame hr rfl rfl)

end SendInvariant

/-- The last command to a device. -/
def World.lastCall (w : World) (mac : Mac) : Option Rumble := w.calls.find? (·.mac = mac)

/-- The loop's record of each device is the last command it got. -/
def Synced (w : World) : Prop :=
  ∀ mac, w.state.lastSent.lookup mac = (w.lastCall mac).map fun c => (c.time, c.intensity)

theorem synced_sendInvariant : SendInvariant Synced where
  frame := by
    intro w w' h hl hc mac
    unfold World.lastCall
    rw [hl, hc]
    exact h mac
  send := by
    intro w mac intensity force now h mac'
    unfold World.send
    split
    · exact h mac'
    · unfold World.lastCall
      by_cases hm : mac = mac'
      · subst hm
        simp
      · rw [List.find?_cons_of_neg (by simpa using hm)]
        simp only
        rw [AList.lookup_insert_ne (Ne.symm hm)]
        exact h mac'

/-! ### Silencing -/

theorem mem_active_iff {st : LoopState} {mac : Mac} :
    mac ∈ st.active ↔ ∃ sent, st.lastSent.lookup mac = some sent ∧ sent.2 > 0.0 := by
  unfold LoopState.active
  simp only [List.mem_map, List.mem_filter, decide_eq_true_eq]
  constructor
  · rintro ⟨⟨mac', sent⟩, ⟨hmem, hpos⟩, rfl⟩
    exact ⟨sent, AList.mem_lookup_iff.2 hmem, hpos⟩
  · rintro ⟨sent, hl, hpos⟩
    exact ⟨⟨mac, sent⟩, ⟨AList.mem_lookup_iff.1 hl, hpos⟩, rfl⟩

theorem stopMotor_lookup (w : World) (now : Instant) (mac mac' : Mac) :
    (w.stopMotor now mac).state.lastSent.lookup mac' =
      if mac = mac' then some (now, 0.0) else w.state.lastSent.lookup mac' := by
  unfold World.stopMotor World.send
  simp only [Bool.not_true, Bool.false_and, Bool.false_eq_true, if_false]
  split
  · rename_i h
    subst h
    exact AList.lookup_insert _
  · rename_i h
    exact AList.lookup_insert_ne (Ne.symm h)

theorem stopMotors_lookup (macs : List Mac) (w : World) (now : Instant) (mac : Mac) :
    (macs.foldl (World.stopMotor · now) w).state.lastSent.lookup mac =
      if mac ∈ macs then some (now, 0.0) else w.state.lastSent.lookup mac := by
  induction macs generalizing w with
  | nil => simp
  | cons m macs ih =>
    rw [List.foldl_cons, ih, stopMotor_lookup]
    by_cases hm : mac ∈ macs
    · simp [hm]
    · by_cases he : m = mac
      · simp [he]
      · simp [hm, he, Ne.symm he]

/-- After silencing no device has a last value above 0. -/
theorem silenceAll_active (w : World) (clock : Nat → Instant) : (w.silenceAll clock).state.active = [] := by
  apply List.eq_nil_iff_forall_not_mem.2
  intro mac hmac
  obtain ⟨sent, hl, hpos⟩ := mem_active_iff.1 hmac
  unfold World.silenceAll at hl
  rw [stopMotors_lookup] at hl
  have hzero : ¬ (0.0 : Float32) > 0.0 := by decide +kernel
  split at hl
  · cases hl
    exact hzero hpos
  · rename_i hnot
    exact hnot (mem_active_iff.2 ⟨sent, hl, hpos⟩)

end EverythingImu.OscHaptics
