import EverythingImu.Remote.PeerCells

/-!
# What a handle means

A route is keyed by the address of a hub and a handle, and the identity of its device is taken from the announcement
that opened it.  A handle that has a route is not opened again: a later announcement only keeps the route alive.  So
the samples of a handle go to the device of the opening announcement, which is the device of the latest one exactly
when the two agree (`handle_means_opening`).
-/

namespace EverythingImu.Remote

open Buffer StepRun

/-! ### What the hub was told -/

inductive Notice where
  /-- An announcement; `opens` says that the handle had no route and was given one. -/
  | announce (key : IpAddr × UInt16) (a : Announce) (opens : Bool)
  | event (key : IpAddr × UInt16) (event : RemoteEvent)
deriving DecidableEq

namespace Notice

/-- The announcement, if it is one for the key. -/
def announced (key : IpAddr × UInt16) : Notice → Option Announce
  | announce k a _ => if k = key then some a else none
  | event _ _ => none

/-- The announcement, if it opened the route of the key. -/
def opened (key : IpAddr × UInt16) : Notice → Option Announce
  | announce k a opens => if k = key ∧ opens = true then some a else none
  | event _ _ => none

end Notice

/-- The announcement that opened the last route of the key; the notices are newest first. -/
def openingAnnounce (notices : List Notice) (key : IpAddr × UInt16) : Option Announce :=
  notices.findSome? (Notice.opened key)

def latestAnnounce (notices : List Notice) (key : IpAddr × UInt16) : Option Announce :=
  notices.findSome? (Notice.announced key)

/-- A hub, and what it was told. -/
structure NoticeRun where
  hub : Hub
  notices : List Notice

namespace NoticeRun

def new : NoticeRun := ⟨.new, []⟩

def noticesOfMsg (h : Hub) (msg : RemoteMsg) (peer : SocketAddr) (accepted : Bool) : List Notice :=
  match msg with
  | .announce a =>
    [.announce (peer.ip, a.handle) a ((h.routes.current (peer.ip, a.handle)).isNone && accepted)]
  | .imu handle _ samples => [.event (peer.ip, handle) (.imu samples)]
  | .battery handle state => [.event (peer.ip, handle) (.battery state)]
  | .button handle kind => [.event (peer.ip, handle) (.reset kind)]
  | .hello _ _ _ | .remove _ => []

/-- What an action tells the hub. -/
def noticesOf (h : Hub) : HubAction → List Notice
  | .datagram bytes peer _ accepted =>
    match parse bytes with
    | .ok msg => noticesOfMsg h msg peer accepted
    | _ => []
  | _ => []

end NoticeRun

def noticeRunStep (ipText : IpAddr → String) (r : NoticeRun) (a : HubAction) : Option NoticeRun :=
  (hubStep ipText r.hub a).map fun hub => ⟨hub, NoticeRun.noticesOf r.hub a ++ r.notices⟩

open NoticeRun

/-! ### The device of an announcement -/

/-- The device has the address, the kind and the native rate of the announcement; a rate of 0 is kept as 1. -/
def Describes (a : Announce) (d : RemoteDevice) : Prop :=
  d.metadata.id.mac = a.mac ∧ d.metadata.kind = a.kind ∧ d.metadata.capabilities.nativeImuRateHz = max a.rateHz 1

instance (a : Announce) (d : RemoteDevice) : Decidable (Describes a d) := inferInstanceAs (Decidable (_ ∧ _ ∧ _))

/-- The announcements describe the same device. -/
def SameDevice (a b : Announce) : Prop := a.mac = b.mac ∧ a.kind = b.kind ∧ max a.rateHz 1 = max b.rateHz 1

theorem describes_new (ipText : IpAddr → String) (a : Announce) (hubPeers : HubPeers) (peer : Nat) :
    Describes a (.new ipText a hubPeers peer) := ⟨rfl, rfl, rfl⟩

theorem describes_iff_sameDevice {a b : Announce} {d : RemoteDevice} (h : Describes a d) :
    Describes b d ↔ SameDevice a b := by
  obtain ⟨hmac, hkind, hrate⟩ := h
  unfold Describes SameDevice
  rw [hmac, hkind, hrate]

/-- The event is in the channel of the device or was handed to the pipeline. -/
def RoutedDevice.Holds (d : RoutedDevice) (event : RemoteEvent) : Prop :=
  event ∈ d.events.queue ∨ event.toChannelInfo ∈ d.sent

/-- The event was received under a handle that meant this device at that time. -/
def Attributed (notices : List Notice) (d : RemoteDevice) (event : RemoteEvent) : Prop :=
  ∃ newer key older a, notices = newer ++ .event key event :: older ∧ openingAnnounce older key = some a ∧ Describes a d

theorem Attributed.append {notices : List Notice} {d : RemoteDevice} {event : RemoteEvent}
    (h : Attributed notices d event) (more : List Notice) : Attributed (more ++ notices) d event := by
  obtain ⟨newer, key, older, a, rfl, ha, hd⟩ := h
  exact ⟨more ++ newer, key, older, a, (List.append_assoc _ _ _).symm, ha, hd⟩

/-! ### Quiet changes of a device -/

/-- The change leaves the device alone and gives it no event. -/
def Quiet (f : RoutedDevice → RoutedDevice) : Prop :=
  ∀ d, (f d).device = d.device ∧ ∀ event, (f d).Holds event → d.Holds event

theorem quiet_start : Quiet RoutedDevice.start := by
  intro d
  refine ⟨keepsDevice_start d, fun event h => ?_⟩
  unfold RoutedDevice.start at h
  split at h
  · rcases h with h | h
    · exact Or.inl h
    · dsimp only at h
      split at h
      · exact Or.inr h
      · rcases List.mem_append.1 h with h | h
        · exact Or.inr h
        · -- no event is forwarded as the report of a connection
          cases event <;> simp [RemoteEvent.toChannelInfo] at h
  all_goals exact h

theorem quiet_stop : Quiet RoutedDevice.stop := by
  intro d
  refine ⟨keepsDevice_stop d, fun event h => ?_⟩
  unfold RoutedDevice.stop at h
  split at h <;> exact h

theorem quiet_drop : Quiet RoutedDevice.drop := by
  intro d
  refine ⟨keepsDevice_drop d, fun event h => ?_⟩
  unfold RoutedDevice.drop at h
  split at h <;> exact h

theorem quiet_touch (now : Instant) : Quiet (RoutedDevice.touch now) := fun _ => ⟨rfl, fun _ h => h⟩

theorem quiet_recordLoss (seq : UInt16) (now : Instant) : Quiet (RoutedDevice.recordLoss seq now) :=
  fun _ => ⟨rfl, fun _ h => h⟩

/-- The reader task only hands on what was in the channel. -/
theorem RoutedDevice.forward_holds {d d' : RoutedDevice} {delivered : Bool} (h : d.forward delivered = some d')
    {event : RemoteEvent} (he : d'.Holds event) : d.Holds event := by
  unfold RoutedDevice.forward at h
  split at h
  · rename_i event' _ hrecv
    have hqueue : d.events.queue = event' :: d.events.pop.queue := Channel.Mpsc.recv_some hrecv
    have hpop : ∀ ev, ev ∈ d.events.pop.queue → d.Holds ev := by
      intro ev hev
      refine Or.inl ?_
      rw [hqueue]
      exact List.mem_cons_of_mem _ hev
    split at h
    · obtain rfl := Option.some.inj h
      exact he.elim (hpop event) Or.inr
    · split at h
      · obtain rfl := Option.some.inj h
        rcases he with he | he
        · exact hpop event he
        · rcases List.mem_append.1 he with he | he
          · exact Or.inr he
          · have hsame : event = event' := by
              cases event <;> cases event' <;> simp_all [RemoteEvent.toChannelInfo]
            refine Or.inl ?_
            rw [hqueue, hsame]
            exact List.mem_cons_self
      · obtain rfl := Option.some.inj h
        exact he.elim (hpop event) Or.inr
  · split at h
    · obtain rfl := Option.some.inj h
      exact he
    · obtain rfl := Option.some.inj h
      rcases he with he | he
      · exact Or.inl he
      · rcases List.mem_append.1 he with he | he
        · exact Or.inr he
        · cases event <;> simp [RemoteEvent.toChannelInfo] at he
  · cases h

/-- An event that is offered is the only new one. -/
theorem RoutedDevice.offer_holds {d : RoutedDevice} {event event' : RemoteEvent} {now : Instant}
    (h : (d.offer event now).Holds event') : event' = event ∨ d.Holds event' := by
  rcases h with h | h
  · unfold RoutedDevice.offer at h
    dsimp only at h
    split at h
    · rcases List.mem_append.1 h with h | h
      · exact Or.inr (Or.inl h)
      · exact Or.inl (List.mem_singleton.1 h)
    · exact Or.inr (Or.inl h)
  · exact Or.inr (Or.inr h)

/-! ### The invariant -/

/-- The device of every route is that of the opening announcement, and every event that a device holds was received
under a handle that meant it. -/
structure MeansOpening (routes : Routes) (notices : List Notice) : Prop where
  opened : SlotTable.Current (fun key _ d => ∃ a, openingAnnounce notices key = some a ∧ Describes a d.device) routes
  attributed : SlotTable.All (fun _ d => ∀ event, d.Holds event → Attributed notices d.device event) routes

namespace MeansOpening

variable {routes : Routes} {notices : List Notice} {n : Nat}

theorem empty : MeansOpening .empty [] := ⟨.empty, .empty⟩

theorem modify (h : MeansOpening routes notices) {f : RoutedDevice → RoutedDevice} (hf : Quiet f) :
    MeansOpening (routes.modify n f) notices := by
  refine ⟨h.opened.modify fun key d _ _ hd => ?_, h.attributed.modify fun d _ hd event hev => ?_⟩
  · rw [(hf d).1]
    exact hd
  · rw [(hf d).1]
    exact hd event ((hf d).2 event hev)

theorem removeRoute (h : MeansOpening routes notices) (key : IpAddr × UInt16) :
    MeansOpening (removeRoute routes key) notices :=
  ⟨SlotTable.Current.release (f := RoutedDevice.dropSender) h.opened (fun _ _ _ hd => hd) key,
    SlotTable.All.release (f := RoutedDevice.dropSender) h.attributed (fun _ _ hd => hd) key⟩

theorem removeRoutes (h : MeansOpening routes notices) (keys : List (IpAddr × UInt16)) :
    MeansOpening (routes.releaseEach RoutedDevice.dropSender keys) notices :=
  ⟨SlotTable.Current.releaseEach (f := RoutedDevice.dropSender) h.opened (fun _ _ _ hd => hd) keys,
    SlotTable.All.releaseEach (f := RoutedDevice.dropSender) h.attributed (fun _ _ hd => hd) keys⟩

theorem recordLoss (h : MeansOpening routes notices) (key : IpAddr × UInt16) (seq : Option UInt16) (now : Instant) :
    MeansOpening (Hub.recordLoss routes key seq now) notices := by
  rcases Hub.recordLoss_eq routes key seq now with heq | ⟨n, seq', heq⟩
  · rw [heq]
    exact h
  · rw [heq]
    exact h.modify (quiet_recordLoss seq' now)

/-- A notice that opens no route. -/
theorem hear (h : MeansOpening routes notices) {x : Notice} (hx : ∀ key, x.opened key = none) :
    MeansOpening routes (x :: notices) := by
  refine ⟨h.opened.imp fun key _ d _ ⟨a, ha, hd⟩ => ⟨a, ?_, hd⟩, h.attributed.imp fun _ d _ hd event hev => ?_⟩
  · unfold openingAnnounce
    rw [List.findSome?_cons, hx key]
    exact ha
  · exact (hd event hev).append [x]

/-- The handle had no route, and its route is opened. -/
theorem announce (h : MeansOpening routes notices) {key : IpAddr × UInt16} {a : Announce} {d : RoutedDevice}
    (hd : Describes a d.device) (hnew : ∀ event, ¬ d.Holds event) :
    MeansOpening ((routes.push d).point key routes.slots.length) (.announce key a true :: notices) := by
  have hother : ∀ key', key' ≠ key →
      openingAnnounce (.announce key a true :: notices) key' = openingAnnounce notices key' := by
    intro key' hne
    have hk : ¬ key = key' := fun he => hne he.symm
    simp [openingAnnounce, Notice.opened, hk]
  refine ⟨?_, ?_⟩
  · intro key' m hcur
    rcases SlotTable.current_of_point hcur with ⟨rfl, rfl⟩ | ⟨hne, hcur⟩
    · exact ⟨d, SlotTable.slot_push_self, a, by simp [openingAnnounce, Notice.opened], hd⟩
    · obtain ⟨d', hd', a', ha', hdesc⟩ := h.opened key' m hcur
      refine ⟨d', SlotTable.slot_push_of_some hd', a', ?_, hdesc⟩
      rw [hother key' hne]
      exact ha'
  · have hall : SlotTable.All (fun _ d => ∀ event, d.Holds event → Attributed (.announce key a true :: notices) d.device
        event) routes := h.attributed.imp fun _ _ _ hd event hev => (hd event hev).append [_]
    exact hall.push fun event hev => absurd hev (hnew event)

/-- The route of the handle takes the event, or there is none. -/
theorem routeEvent {h : Hub} (hi : MeansOpening h.routes notices) (peer : SocketAddr) (handle : UInt16)
    (event : RemoteEvent) (now : Instant) :
    MeansOpening (h.routeEvent peer handle event now).routes (.event (peer.ip, handle) event :: notices) := by
  have hheard : MeansOpening h.routes (.event (peer.ip, handle) event :: notices) := hi.hear fun _ => rfl
  unfold Hub.routeEvent
  cases hcur : h.routes.current (peer.ip, handle) with
  | none => exact hheard
  | some n =>
    have hoffer : MeansOpening (h.routes.modify n (RoutedDevice.offer event now))
        (.event (peer.ip, handle) event :: notices) := by
      refine ⟨hheard.opened.modify fun _ _ _ _ hd => hd, hheard.attributed.modify fun d hd hattr event' hev => ?_⟩
      rcases RoutedDevice.offer_holds hev with rfl | hev
      · obtain ⟨d', hd', a, ha, hdesc⟩ := hi.opened _ n hcur
        obtain rfl := SlotTable.slot_inj hd hd'
        exact ⟨[], (peer.ip, handle), notices, a, rfl, ha, hdesc⟩
      · exact hattr event' hev
    dsimp only
    split
    · exact hoffer.removeRoute _
    · exact hoffer

theorem handleMsg (ipText : IpAddr → String) {h : Hub} (hi : MeansOpening h.routes notices) (msg : RemoteMsg)
    (peer : SocketAddr) (now : Instant) (accepted : Bool) :
    MeansOpening (h.handleMsg ipText msg peer now accepted).routes
      (noticesOfMsg h msg peer accepted ++ notices) := by
  cases msg with
  | hello uuid name ts => exact hi
  | announce a =>
    show MeansOpening (h.handleAnnounce ipText a peer now accepted).routes (.announce (peer.ip, a.handle) a
      ((h.routes.current (peer.ip, a.handle)).isNone && accepted) :: notices)
    unfold Hub.handleAnnounce
    cases hcur : h.routes.current (peer.ip, a.handle) with
    | some n =>
      have hquiet : ∀ key, (Notice.announce (peer.ip, a.handle) a false).opened key = none := by
        simp [Notice.opened]
      exact (hi.hear hquiet).modify (quiet_touch now)
    | none =>
      cases accepted with
      | false => exact hi.hear (by simp [Notice.opened])
      | true => exact hi.announce (describes_new ipText a _ _) (by simp [RoutedDevice.Holds, RoutedDevice.new])
  | remove handle => exact hi.removeRoute _
  | imu handle seq samples =>
    exact routeEvent (h := { h with routes := Hub.recordLoss h.routes (peer.ip, handle) seq now })
      (hi.recordLoss _ _ _) peer handle _ now
  | battery handle state => exact hi.routeEvent peer handle _ now
  | button handle kind => exact hi.routeEvent peer handle _ now

end MeansOpening

variable {ipText : IpAddr → String}

theorem noticeRunStep_means {r r' : NoticeRun} {a : HubAction} (h : MeansOpening r.hub.routes r.notices)
    (hr : noticeRunStep ipText r a = some r') : MeansOpening r'.hub.routes r'.notices := by
  obtain ⟨hub, hs, rfl⟩ := Option.map_eq_some_iff.1 hr
  cases a with
  | datagram bytes peer now accepted =>
    simp only [noticesOf]
    rcases hubStep_datagram hs with ⟨⟨e, hparse⟩, rfl⟩ | ⟨msg, hparse, rfl⟩
    · rw [hparse]
      exact h
    · rw [hparse]
      exact h.handleMsg ipText msg peer now accepted
  | recvError =>
    obtain rfl := Option.some.inj hs
    exact h
  | sweep now =>
    obtain rfl := Option.some.inj hs
    exact h.removeRoutes _
  | start n =>
    obtain rfl := Option.some.inj hs
    exact h.modify quiet_start
  | forward n delivered =>
    obtain ⟨d, d', hd, hd', rfl⟩ := hubStep_forward hs
    have hdevice : d'.device = d.device := RoutedDevice.forward_device hd'
    refine ⟨h.opened.modify fun key d₀ _ hd₀ hdesc => ?_, h.attributed.modify fun d₀ hd₀ hattr event hev => ?_⟩
    · obtain rfl := SlotTable.slot_inj hd hd₀
      rw [hdevice]
      exact hdesc
    · obtain rfl := SlotTable.slot_inj hd hd₀
      rw [hdevice]
      exact hattr event (RoutedDevice.forward_holds hd' hev)
  | stop n =>
    obtain rfl := Option.some.inj hs
    exact h.modify quiet_stop
  | dropDevice n =>
    obtain rfl := Option.some.inj hs
    exact h.modify quiet_drop
  | rumble n intensity =>
    obtain ⟨datagram, rfl⟩ := hubStep_rumble hs
    exact h

/-! ### Delivery -/

/-- The event is put in the channel of the device that the key has a route to, if there is room, and no other device
changes. -/
structure Delivered (routes routes' : Routes) (key : IpAddr × UInt16) (event : RemoteEvent) : Prop where
  others : ∀ m, routes.current key ≠ some m → routes'.slot m = routes.slot m
  queued : ∀ n d, routes.current key = some n → routes.slot n = some d → ∃ d', routes'.slot n = some d' ∧
    d'.device = d.device ∧
    d'.events.queue = if d.trySend = .ok then d.events.queue ++ [event] else d.events.queue

theorem slot_removeRoute_of_ne {routes : Routes} {key : IpAddr × UInt16} {m : Nat} (h : routes.current key ≠ some m) :
    (removeRoute routes key).slot m = routes.slot m := by
  unfold removeRoute SlotTable.release
  split
  · rename_i n hn
    have hm : m ≠ n := fun he => h (by rw [he]; exact hn)
    rw [SlotTable.slot_modify_of_ne hm, SlotTable.slot_forget]
  · rfl

theorem slot_removeRoute_self {routes : Routes} {key : IpAddr × UInt16} {n : Nat} (h : routes.current key = some n) :
    (removeRoute routes key).slot n = (routes.slot n).map RoutedDevice.dropSender := by
  unfold removeRoute SlotTable.release
  rw [h]
  simp only [SlotTable.slot_modify_self, SlotTable.slot_forget]

theorem routeEvent_delivered (h : Hub) (peer : SocketAddr) (handle : UInt16) (event : RemoteEvent) (now : Instant) :
    Delivered h.routes (h.routeEvent peer handle event now).routes (peer.ip, handle) event := by
  unfold Hub.routeEvent
  cases hcur : h.routes.current (peer.ip, handle) with
  | none => exact ⟨fun _ _ => rfl, fun n d hn _ => by rw [hcur] at hn; cases hn⟩
  | some n =>
    have hoffer : Delivered h.routes (h.routes.modify n (RoutedDevice.offer event now)) (peer.ip, handle) event := by
      refine ⟨fun m hm => ?_, fun n' d hn' hd => ?_⟩
      · have hne : m ≠ n := fun he => hm (by rw [he]; exact hcur)
        exact SlotTable.slot_modify_of_ne hne
      · obtain rfl : n = n' := Option.some.inj (hcur.symm.trans hn')
        refine ⟨d.offer event now, by rw [SlotTable.slot_modify_self, hd, Option.map_some], rfl, ?_⟩
        simp only [RoutedDevice.offer, Channel.Mpsc.send]
        split <;> rfl
    dsimp only
    split
    · -- the receiver is gone, and the route goes too
      refine ⟨fun m hm => ?_, fun n' d hn' hd => ?_⟩
      · have hm' : (h.routes.modify n (RoutedDevice.offer event now)).current (peer.ip, handle) ≠ some m := hm
        rw [slot_removeRoute_of_ne hm', hoffer.others m hm]
      · obtain ⟨d', hd', hdevice, hqueue⟩ := hoffer.queued n' d hn' hd
        have hn : (h.routes.modify n (RoutedDevice.offer event now)).current (peer.ip, handle) = some n' := hn'
        refine ⟨d'.dropSender, ?_, hdevice, hqueue⟩
        rw [slot_removeRoute_self hn, hd', Option.map_some]
    · exact hoffer

/-- The statistics of a route have no part in the delivery. -/
theorem delivered_of_recordLoss {routes routes' : Routes} {key : IpAddr × UInt16} {event : RemoteEvent}
    {seq : Option UInt16} {now : Instant} (h : Delivered (Hub.recordLoss routes key seq now) routes' key event) :
    Delivered routes routes' key event := by
  unfold Hub.recordLoss at h
  split at h
  · rename_i seq' n hn
    refine ⟨fun m hm => ?_, fun n' d hn' hd => ?_⟩
    · have hne : m ≠ n := fun he => hm (by rw [he]; exact hn)
      rw [h.others m hm, SlotTable.slot_modify_of_ne hne]
    · obtain rfl : n = n' := Option.some.inj (hn.symm.trans hn')
      exact h.queued n (d.recordLoss seq' now) hn' (by rw [SlotTable.slot_modify_self, hd, Option.map_some])
  · exact h

theorem handleMsg_delivered (ipText : IpAddr → String) (h : Hub) {msg : RemoteMsg} {handle : UInt16}
    {event : RemoteEvent} (peer : SocketAddr) (now : Instant) (accepted : Bool)
    (hmsg : msg.event = some (handle, event)) :
    Delivered h.routes (h.handleMsg ipText msg peer now accepted).routes (peer.ip, handle) event := by
  obtain ⟨seq, hs⟩ := Hub.handleMsg_of_event ipText (h := h) peer now accepted hmsg
  have hrouted := routeEvent_delivered { h with routes := Hub.recordLoss h.routes (peer.ip, handle) seq now } peer
    handle event now
  rw [hs]
  exact delivered_of_recordLoss hrouted

/-- An announcement of a handle that has a route only keeps the route alive. -/
theorem handleAnnounce_live (ipText : IpAddr → String) {h : Hub} {a : Announce} {peer : SocketAddr} {n : Nat}
    (now : Instant) (accepted : Bool) (hcur : h.routes.current (peer.ip, a.handle) = some n) :
    (h.handleAnnounce ipText a peer now accepted).routes = h.routes.modify n (RoutedDevice.touch now) := by
  unfold Hub.handleAnnounce
  simp only [hcur]

/-! ### Runs -/

/-- What an action does with a datagram: an event goes to the device of its handle, and an announcement of a handle
that has a route only keeps the route alive. -/
def HandlesDatagram (routes routes' : Routes) : HubAction → Prop
  | .datagram bytes peer now _ => ∀ msg, parse bytes = .ok msg →
      (∀ handle event, msg.event = some (handle, event) → Delivered routes routes' (peer.ip, handle) event) ∧
      ∀ a n, msg = .announce a → routes.current (peer.ip, a.handle) = some n →
        routes' = routes.modify n (RoutedDevice.touch now)
  | _ => True

theorem noticeRunStep_handles {r r' : NoticeRun} {a : HubAction} (hr : noticeRunStep ipText r a = some r') :
    HandlesDatagram r.hub.routes r'.hub.routes a := by
  obtain ⟨hub, hs, rfl⟩ := Option.map_eq_some_iff.1 hr
  cases a with
  | datagram bytes peer now accepted =>
    intro msg hparse
    rw [hubStep, hparse] at hs
    obtain rfl := Option.some.inj hs
    refine ⟨fun handle event hmsg => handleMsg_delivered ipText r.hub peer now accepted hmsg, ?_⟩
    rintro a n rfl hcur
    exact handleAnnounce_live ipText now accepted hcur
  | _ => trivial

/-- A handle means what the announcement that opened its route says.  In every run the device of a route is that of
the opening announcement, and hence that of the latest one exactly when the two describe the same device; every event
that a device holds was received under a handle that meant it; and every further datagram is handled so. -/
theorem handle_means_opening {r : NoticeRun} (h : Reaches (noticeRunStep ipText) Always .new r) :
    (∀ key n, r.hub.routes.current key = some n → ∃ d a, r.hub.routes.slot n = some d ∧
      openingAnnounce r.notices key = some a ∧ Describes a d.device ∧
      ∀ b, latestAnnounce r.notices key = some b → (Describes b d.device ↔ SameDevice a b)) ∧
    (∀ n d event, r.hub.routes.slot n = some d → d.Holds event → Attributed r.notices d.device event) ∧
    ∀ a r', noticeRunStep ipText r a = some r' → HandlesDatagram r.hub.routes r'.hub.routes a := by
  have hinv : MeansOpening r.hub.routes r.notices :=
    h.invariant (I := fun r => MeansOpening r.hub.routes r.notices) .empty
      fun _ _ _ hi _ hs => noticeRunStep_means hi hs
  refine ⟨fun key n hcur => ?_, fun n d event hd => hinv.attributed n d hd event, fun a r' => noticeRunStep_handles⟩
  obtain ⟨d, hd, a, ha, hdesc⟩ := hinv.opened key n hcur
  exact ⟨d, a, hd, ha, hdesc, fun b _ => describes_iff_sameDevice hdesc⟩

/-- The announcement in `announcePhone`. -/
def phoneAnnounce : Announce := ⟨7, .phone, #v[2, 0, 0, 0, 0, 9], true, true, true, 200, "Px"⟩

def watchAnnounce : Announce := { phoneAnnounce with kind := .watch, mac := #v[2, 0, 0, 0, 0, 8], rateHz := 100 }

/-- A watch is announced under the handle of the phone. -/
def announceWatch : List UInt8 :=
  [0x45, 0x49, 0x4D, 0x55, 1, 3, 7, 0, 2, 2, 0, 0, 0, 0, 8, 1, 1, 1, 100, 0, 2, 0x50, 0x78]

def zeroSample : ImuSampleBits := ⟨(⟨0⟩, ⟨0⟩, ⟨0⟩), (⟨0⟩, ⟨0⟩, ⟨0⟩), none, 0⟩

/-- One sample of zeros for handle 7. -/
def zeroSamples : List UInt8 := [0x45, 0x49, 0x4D, 0x55, 1, 5, 7, 0, 1] ++ List.replicate 45 0

def phoneKey : IpAddr × UInt16 := ((phoneAt 40000).ip, 7)

/-- A phone is announced, then a watch under the same handle, and then a sample of the handle comes. -/
def reannounceRun : Option NoticeRun :=
  exec (noticeRunStep fun _ => "10.0.0.2") .new
    [.datagram announcePhone (phoneAt 40000) 0 true, .datagram announceWatch (phoneAt 40000) 1 true,
      .datagram zeroSamples (phoneAt 40000) 2 true]

theorem reannounceRun_facts :
    reannounceRun.map (fun r => (r.hub.routes.current phoneKey, latestAnnounce r.notices phoneKey,
      (r.hub.routes.slot 0).any fun d => Describes phoneAnnounce d.device ∧ d.events.queue = [.imu [zeroSample]])) =
      some (some 0, some watchAnnounce, true) := by
  decide +kernel

/-- The sample that comes after the watch was announced goes to the phone: neither the address nor the kind nor the
rate of its device are those of the latest announcement. -/
theorem reannounced_sample_goes_to_phone :
    ∃ r d, Reaches (noticeRunStep fun _ => "10.0.0.2") Always .new r ∧ r.hub.routes.current phoneKey = some 0 ∧
      r.hub.routes.slot 0 = some d ∧ d.events.queue = [.imu [zeroSample]] ∧
      latestAnnounce r.notices phoneKey = some watchAnnounce ∧ d.device.metadata.id.mac ≠ watchAnnounce.mac ∧
      d.device.metadata.kind ≠ watchAnnounce.kind ∧
      d.device.metadata.capabilities.nativeImuRateHz ≠ watchAnnounce.rateHz := by
  obtain ⟨r, hr, hfacts⟩ := Option.map_eq_some_iff.1 reannounceRun_facts
  simp only [Prod.mk.injEq] at hfacts
  obtain ⟨hcur, hlatest, hany⟩ := hfacts
  obtain ⟨d, hd, hdesc⟩ := (Option.any_eq_true _ _).1 hany
  obtain ⟨⟨hmac, hkind, hrate⟩, hqueue⟩ := of_decide_eq_true hdesc
  refine ⟨r, d, Reaches.of_run _ hr, hcur, hd, hqueue, hlatest, ?_, ?_, ?_⟩
  · rw [hmac]
    decide
  · rw [hkind]
    decide
  · rw [hrate]
    decide

/-- After the run the route of handle 7 still means the phone. -/
theorem reannounced_handle_means_phone :
    ∃ r, Reaches (noticeRunStep fun _ => "10.0.0.2") Always .new r ∧ ∃ d a, r.hub.routes.slot 0 = some d ∧
      openingAnnounce r.notices phoneKey = some a ∧ Describes a d.device ∧
      ∀ b, latestAnnounce r.notices phoneKey = some b → (Describes b d.device ↔ SameDevice a b) := by
  obtain ⟨r, hr, hfacts⟩ := Option.map_eq_some_iff.1 reannounceRun_facts
  simp only [Prod.mk.injEq] at hfacts
  have hreach := Reaches.of_run _ hr
  exact ⟨r, hreach, (handle_means_opening hreach).1 phoneKey 0 hfacts.1⟩

end EverythingImu.Remote
