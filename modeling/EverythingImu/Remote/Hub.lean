import EverythingImu.Remote.Device
import EverythingImu.Library.StepRun

/-!
# The remote hub

`RemoteFactory` (`device-remote/src/factory.rs`): the loop that receives datagrams and sweeps stale routes, with the
devices that it has handed out.  A device keeps its slot when its route is gone, and the route of a handle is the slot
that is current for it.

A datagram is handled in one step; while an announcement waits for room in the channel of new devices the loop does
nothing else, and nothing looks at the route that is not there yet.  The bind address and the log lines are left out.
-/

namespace EverythingImu.Remote

open Buffer Words StepRun

/-- `Duration::from_secs(15)`. -/
def STALE_AFTER : Nat := 15_000_000_000

abbrev Routes := SlotTable (IpAddr × UInt16) RoutedDevice

/-- The cell of a hub, with its address brought up to date. -/
def touchHubPeer (hubPeers : HubPeers) (peer : SocketAddr) : HubPeers × Nat :=
  match hubPeers.current peer.ip with
  | some cell => (hubPeers.modify cell fun p => if p ≠ peer then peer else p, cell)
  | none => ((hubPeers.push peer).point peer.ip hubPeers.slots.length, hubPeers.slots.length)

/-- `routes.remove`. -/
def removeRoute (routes : Routes) (key : IpAddr × UInt16) : Routes := routes.release RoutedDevice.dropSender key

structure Hub where
  routes : Routes
  hubPeers : HubPeers
  /-- The datagrams that were sent, in order. -/
  outbox : List (SocketAddr × List UInt8)

namespace Hub

def new : Hub := ⟨.empty, .empty, []⟩

def routeEvent (h : Hub) (peer : SocketAddr) (handle : UInt16) (event : RemoteEvent) (now : Instant) : Hub :=
  match h.routes.current (peer.ip, handle) with
  | some n =>
    let routes := h.routes.modify n (RoutedDevice.offer event now)
    let closed := (h.routes.slot n).any fun d => d.trySend = .closed
    { h with
      routes := if closed then removeRoute routes (peer.ip, handle) else routes
      hubPeers := (touchHubPeer h.hubPeers peer).1 }
  | none => h

/-- A device of the hub has a route. -/
def hasRoute (routes : Routes) (ip : IpAddr) : Bool := routes.keys.any fun key => key.1 = ip

def handleHello (h : Hub) (ts : Option UInt64) (peer : SocketAddr) : Hub :=
  { h with
    hubPeers := if hasRoute h.routes peer.ip then (touchHubPeer h.hubPeers peer).1 else h.hubPeers
    outbox := h.outbox ++ [(peer, encodeHelloAckEcho ts)] }

/-- `accepted` says that the channel of new devices still has its receiver. -/
def handleAnnounce (ipText : IpAddr → String) (h : Hub) (a : Announce) (peer : SocketAddr) (now : Instant)
    (accepted : Bool) : Hub :=
  let touched := touchHubPeer h.hubPeers peer
  match h.routes.current (peer.ip, a.handle), accepted with
  | some n, _ => { h with hubPeers := touched.1, routes := h.routes.modify n (RoutedDevice.touch now) }
  | none, false => { h with hubPeers := touched.1 }
  | none, true =>
    let d := RoutedDevice.new (RemoteDevice.new ipText a touched.1 touched.2) now
    { h with
      hubPeers := touched.1
      routes := (h.routes.push d).point (peer.ip, a.handle) h.routes.slots.length }

def recordLoss (routes : Routes) (key : IpAddr × UInt16) (seq : Option UInt16) (now : Instant) : Routes :=
  match seq, routes.current key with
  | some seq, some n => routes.modify n (RoutedDevice.recordLoss seq now)
  | _, _ => routes

def handleMsg (ipText : IpAddr → String) (h : Hub) (msg : RemoteMsg) (peer : SocketAddr) (now : Instant)
    (accepted : Bool) : Hub :=
  match msg with
  | .hello _ _ ts => h.handleHello ts peer
  | .announce a => h.handleAnnounce ipText a peer now accepted
  | .remove handle => { h with routes := removeRoute h.routes (peer.ip, handle) }
  | .imu handle seq samples =>
    routeEvent { h with routes := recordLoss h.routes (peer.ip, handle) seq now } peer handle (.imu samples) now
  | .battery handle battery => h.routeEvent peer handle (.battery battery) now
  | .button handle reset => h.routeEvent peer handle (.reset reset) now

/-- The keys of the routes that the sweep drops. -/
def staleKeys (routes : Routes) (now : Instant) : List (IpAddr × UInt16) :=
  routes.keys.filter fun key =>
    ((routes.current key).bind routes.slot).any fun d => STALE_AFTER ≤ now - d.lastSeen

/-- A tick of the sweep: the stale routes go, and the hubs that have no route left. -/
def sweep (h : Hub) (now : Instant) : Hub :=
  let routes := h.routes.releaseEach RoutedDevice.dropSender (staleKeys h.routes now)
  { h with
    routes
    hubPeers := h.hubPeers.forgetEach (h.hubPeers.keys.filter fun ip => !hasRoute routes ip) }

end Hub

/-- The turns of the loop, and what the devices do; a number is that of a device. -/
inductive HubAction where
  /-- `recv_from` gives the bytes of a datagram. -/
  | datagram (bytes : List UInt8) (peer : SocketAddr) (now : Instant) (accepted : Bool)
  | recvError
  | sweep (now : Instant)
  | start (n : Nat)
  /-- The reader task of the device goes on. -/
  | forward (n : Nat) (delivered : Bool)
  | stop (n : Nat)
  | dropDevice (n : Nat)
  | rumble (n : Nat) (intensity : F32)

variable (ipText : IpAddr → String)

def hubStep (h : Hub) : HubAction → Option Hub
  | .datagram bytes peer now accepted =>
    match parse bytes with
    | .ok msg => some (h.handleMsg ipText msg peer now accepted)
    | .fail _ => some h
    | .panic => none
  | .recvError => some h
  | .sweep now => some (h.sweep now)
  | .start n => some { h with routes := h.routes.modify n RoutedDevice.start }
  | .forward n delivered => do
    let d ← h.routes.slot n
    let d' ← d.forward delivered
    some { h with routes := h.routes.modify n fun _ => d' }
  | .stop n => some { h with routes := h.routes.modify n RoutedDevice.stop }
  | .dropDevice n => some { h with routes := h.routes.modify n RoutedDevice.drop }
  | .rumble n intensity => do
    let d ← h.routes.slot n
    let datagram ← d.device.setRumble h.hubPeers intensity
    some { h with outbox := h.outbox ++ [datagram] }

/-! ### The messages for a route -/

/-- The handle and the event of a message that goes to a route. -/
def RemoteMsg.event : RemoteMsg → Option (UInt16 × RemoteEvent)
  | .imu handle _ samples => some (handle, .imu samples)
  | .battery handle state => some (handle, .battery state)
  | .button handle kind => some (handle, .reset kind)
  | .hello _ _ _ | .announce _ | .remove _ => none

namespace Hub

/-- A message with an event is routed, once the loss statistics are up to date. -/
theorem handleMsg_of_event {h : Hub} {msg : RemoteMsg} {handle : UInt16} {event : RemoteEvent} (peer : SocketAddr)
    (now : Instant) (accepted : Bool) (hmsg : msg.event = some (handle, event)) :
    ∃ seq, h.handleMsg ipText msg peer now accepted =
      routeEvent { h with routes := recordLoss h.routes (peer.ip, handle) seq now } peer handle event now := by
  cases msg with
  | imu handle' seq samples =>
    simp only [RemoteMsg.event, Option.some.injEq, Prod.mk.injEq] at hmsg
    obtain ⟨rfl, rfl⟩ := hmsg
    exact ⟨seq, rfl⟩
  | battery handle' state =>
    simp only [RemoteMsg.event, Option.some.injEq, Prod.mk.injEq] at hmsg
    obtain ⟨rfl, rfl⟩ := hmsg
    exact ⟨none, rfl⟩
  | button handle' kind =>
    simp only [RemoteMsg.event, Option.some.injEq, Prod.mk.injEq] at hmsg
    obtain ⟨rfl, rfl⟩ := hmsg
    exact ⟨none, rfl⟩
  | hello uuid name ts => cases hmsg
  | announce a => cases hmsg
  | remove handle' => cases hmsg

/-- Recording the loss changes at most the statistics of one route. -/
theorem recordLoss_eq (routes : Routes) (key : IpAddr × UInt16) (seq : Option UInt16) (now : Instant) :
    recordLoss routes key seq now = routes ∨
      ∃ n seq', recordLoss routes key seq now = routes.modify n (RoutedDevice.recordLoss seq' now) := by
  unfold recordLoss
  split
  · rename_i seq' n _
    exact Or.inr ⟨n, seq', rfl⟩
  · exact Or.inl rfl

theorem hasRoute_iff {routes : Routes} {ip : IpAddr} :
    hasRoute routes ip = true ↔ ∃ handle n, routes.current (ip, handle) = some n := by
  unfold hasRoute
  rw [List.any_eq_true]
  constructor
  · rintro ⟨⟨ip', handle⟩, hkey, hip⟩
    obtain rfl : ip' = ip := by simpa using hip
    obtain ⟨n, hn⟩ := SlotTable.mem_keys.1 hkey
    exact ⟨handle, n, hn⟩
  · rintro ⟨handle, n, hn⟩
    exact ⟨(ip, handle), SlotTable.mem_keys.2 ⟨n, hn⟩, by simp⟩

end Hub

/-! ### What a step can do -/

section Step

variable {ipText : IpAddr → String} {h h' : Hub}

/-- A datagram that does not parse changes nothing; there is no step behind one that makes the parser panic. -/
theorem hubStep_datagram {bytes : List UInt8} {peer : SocketAddr} {now : Instant} {accepted : Bool}
    (hs : hubStep ipText h (.datagram bytes peer now accepted) = some h') :
    (∃ e, parse bytes = .fail e) ∧ h' = h ∨
      ∃ msg, parse bytes = .ok msg ∧ h' = h.handleMsg ipText msg peer now accepted := by
  simp only [hubStep] at hs
  cases hparse : parse bytes with
  | panic =>
    rw [hparse] at hs
    cases hs
  | fail e =>
    rw [hparse] at hs
    exact .inl ⟨⟨e, rfl⟩, (Option.some.inj hs).symm⟩
  | ok msg =>
    rw [hparse] at hs
    exact .inr ⟨msg, rfl, (Option.some.inj hs).symm⟩

theorem hubStep_forward {n : Nat} {delivered : Bool} (hs : hubStep ipText h (.forward n delivered) = some h') :
    ∃ d d', h.routes.slot n = some d ∧ d.forward delivered = some d' ∧
      h' = { h with routes := h.routes.modify n fun _ => d' } := by
  obtain ⟨d, hd, hs⟩ := Option.bind_eq_some_iff.1 hs
  obtain ⟨d', hd', hs⟩ := Option.bind_eq_some_iff.1 hs
  exact ⟨d, d', hd, hd', (Option.some.inj hs).symm⟩

theorem hubStep_rumble {n : Nat} {intensity : F32} (hs : hubStep ipText h (.rumble n intensity) = some h') :
    ∃ datagram, h' = { h with outbox := h.outbox ++ [datagram] } := by
  obtain ⟨d, -, hs⟩ := Option.bind_eq_some_iff.1 hs
  obtain ⟨datagram, -, hs⟩ := Option.bind_eq_some_iff.1 hs
  exact ⟨datagram, (Option.some.inj hs).symm⟩

end Step

end EverythingImu.Remote
