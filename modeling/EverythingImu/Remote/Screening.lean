import EverythingImu.Remote.Grammar
import EverythingImu.Remote.Hub

/-!
# The numbers of a datagram

Nothing between the socket and the pipeline looks at the numbers of a sample or of a battery state.  So what a device
forwards is valid, samples finite and battery fractions in the unit interval, exactly as long as every message that a
route takes is (`forwarded_valid`).
-/

namespace EverythingImu.Remote

open StepRun Words

/-! ### Valid numbers -/

def allFinite (v : F32x3) : Bool := v.1.isFinite && v.2.1.isFinite && v.2.2.isFinite

def ImuSampleBits.isFinite (s : ImuSampleBits) : Bool := allFinite s.gyro && allFinite s.accel && s.mag.all allFinite

def BatteryBits.inRange (b : BatteryBits) : Bool := 0 ≤ b.fraction.toFloat32 && b.fraction.toFloat32 ≤ 1

def RemoteEvent.valid : RemoteEvent → Bool
  | .imu samples => samples.all ImuSampleBits.isFinite
  | .battery state => state.inRange
  | .reset _ => true

def ChannelInfoBits.valid : ChannelInfoBits → Bool
  | .imuSamples samples => samples.all ImuSampleBits.isFinite
  | .battery state => state.inRange
  | .connected _ | .resetRequested _ | .disconnected => true

@[simp] theorem RemoteEvent.valid_toChannelInfo (event : RemoteEvent) : event.toChannelInfo.valid = event.valid := by
  cases event <;> rfl

/-! ### What a device forwards -/

/-- Everything in the event channel and everything that was sent to the pipeline is valid. -/
def RoutedDevice.Clean (d : RoutedDevice) : Prop :=
  (∀ event ∈ d.events.queue, event.valid = true) ∧ ∀ info ∈ d.sent, info.valid = true

/-- Every device that there ever was forwards valid numbers only. -/
def Hub.Clean (h : Hub) : Prop := SlotTable.All (fun _ d => d.Clean) h.routes

namespace RoutedDevice.Clean

variable {d d' : RoutedDevice}

theorem new (device : RemoteDevice) (now : Instant) : (RoutedDevice.new device now).Clean := ⟨nofun, nofun⟩

/-- The event counts only when there is room for it. -/
theorem offer (h : d.Clean) {event : RemoteEvent} (he : d.trySend = .ok → event.valid = true) (now : Instant) :
    (d.offer event now).Clean := by
  refine ⟨fun ev hev => ?_, h.2⟩
  unfold RoutedDevice.offer at hev
  by_cases hok : d.trySend = .ok
  · rw [if_pos hok] at hev
    rcases List.mem_append.1 hev with hev | hev
    · exact h.1 ev hev
    · obtain rfl := List.mem_singleton.1 hev
      exact he hok
  · rw [if_neg hok] at hev
    exact h.1 ev hev

theorem start (h : d.Clean) : d.start.Clean := by
  unfold RoutedDevice.start
  split
  · refine ⟨h.1, fun info hinfo => ?_⟩
    dsimp only at hinfo
    split at hinfo
    · exact h.2 info hinfo
    · rcases List.mem_append.1 hinfo with hinfo | hinfo
      · exact h.2 info hinfo
      · obtain rfl := List.mem_singleton.1 hinfo
        rfl
  · exact h
  · exact h

theorem stop (h : d.Clean) : d.stop.Clean := by
  unfold RoutedDevice.stop
  split
  · exact h
  · exact h
  · exact h

theorem drop (h : d.Clean) : d.drop.Clean := by
  unfold RoutedDevice.drop
  split
  · exact h
  · exact h
  · exact h

/-- The reader task hands on what is in the channel. -/
theorem forward (h : d.Clean) {delivered : Bool} (hf : d.forward delivered = some d') : d'.Clean := by
  have happend : ∀ {info : ChannelInfoBits}, info.valid = true → ∀ i ∈ d.sent ++ [info], i.valid = true := by
    intro info hinfo i hi
    rcases List.mem_append.1 hi with hi | hi
    · exact h.2 i hi
    · obtain rfl := List.mem_singleton.1 hi
      exact hinfo
  unfold RoutedDevice.forward at hf
  split at hf
  · rename_i event _ hrecv
    have hqueue := Channel.Mpsc.recv_some hrecv
    have hpop : ∀ ev ∈ d.events.pop.queue, ev.valid = true := by
      intro ev hev
      refine h.1 ev ?_
      rw [hqueue]
      exact List.mem_cons_of_mem event hev
    have hevent : event.valid = true := by
      refine h.1 event ?_
      rw [hqueue]
      exact List.mem_cons_self
    split at hf
    · obtain rfl := Option.some.inj hf
      exact ⟨hpop, h.2⟩
    · split at hf
      · obtain rfl := Option.some.inj hf
        exact ⟨hpop, happend (by rw [RemoteEvent.valid_toChannelInfo, hevent])⟩
      · obtain rfl := Option.some.inj hf
        exact ⟨hpop, h.2⟩
  · split at hf
    · obtain rfl := Option.some.inj hf
      exact h
    · obtain rfl := Option.some.inj hf
      exact ⟨h.1, happend rfl⟩
  · cases hf

end RoutedDevice.Clean

/-! ### Steps -/

namespace Hub

/-- The live route of a handle has room for one more event. -/
def Takes (h : Hub) (ip : IpAddr) (handle : UInt16) : Prop :=
  ∃ n d, h.routes.current (ip, handle) = some n ∧ h.routes.slot n = some d ∧ d.trySend = .ok

/-- The loss statistics say nothing about the room in a channel. -/
theorem takes_recordLoss {h : Hub} {key : IpAddr × UInt16} {seq : Option UInt16} {now : Instant} {ip : IpAddr}
    {handle : UInt16} :
    ({ h with routes := recordLoss h.routes key seq now } : Hub).Takes ip handle ↔ h.Takes ip handle := by
  unfold Takes
  dsimp only
  rcases recordLoss_eq h.routes key seq now with heq | ⟨m, seq', heq⟩
  · rw [heq]
  · rw [heq]
    constructor
    · rintro ⟨n, d, hcur, hd, hok⟩
      rcases SlotTable.slot_of_modify hd with ⟨-, hd'⟩ | ⟨rfl, d', hd', rfl⟩
      · exact ⟨n, d, hcur, hd', hok⟩
      · exact ⟨n, d', hcur, hd', hok⟩
    · rintro ⟨n, d, hcur, hd, hok⟩
      by_cases hn : n = m
      · subst hn
        exact ⟨n, d.recordLoss seq' now, hcur, by rw [SlotTable.slot_modify_self, hd, Option.map_some], hok⟩
      · exact ⟨n, d, hcur, by rw [SlotTable.slot_modify_of_ne hn, hd], hok⟩

theorem Clean.recordLoss {h : Hub} (hc : h.Clean) (key : IpAddr × UInt16) (seq : Option UInt16) (now : Instant) :
    ({ h with routes := Hub.recordLoss h.routes key seq now } : Hub).Clean := by
  unfold Clean
  rcases recordLoss_eq h.routes key seq now with heq | ⟨m, seq', heq⟩
  · rw [heq]
    exact hc
  · rw [heq]
    exact SlotTable.All.modify hc fun _ _ hd => hd

/-- A route that takes an event leaves the hub clean exactly when the event is valid. -/
theorem clean_routeEvent_iff {h : Hub} (hc : h.Clean) {peer : SocketAddr} {handle : UInt16} {event : RemoteEvent}
    {now : Instant} :
    (h.routeEvent peer handle event now).Clean ↔ (h.Takes peer.ip handle → event.valid = true) := by
  unfold routeEvent
  constructor
  · rintro hclean ⟨n, d, hcur, hd, hok⟩
    rw [hcur] at hclean
    have hopen : ((h.routes.slot n).any fun d => d.trySend = .closed) = false := by simp [hd, hok]
    dsimp only at hclean
    rw [hopen] at hclean
    have hslot : (h.routes.modify n (RoutedDevice.offer event now)).slot n = some (d.offer event now) := by
      rw [SlotTable.slot_modify_self, hd, Option.map_some]
    have hqueue : event ∈ (d.offer event now).events.queue := by
      unfold RoutedDevice.offer
      rw [if_pos hok]
      exact List.mem_append_right _ (List.mem_singleton_self event)
    exact (hclean n _ hslot).1 event hqueue
  · intro hvalid
    cases hcur : h.routes.current (peer.ip, handle) with
    | none => exact hc
    | some n =>
      have hoffer : SlotTable.All (fun _ d => d.Clean) (h.routes.modify n (RoutedDevice.offer event now)) :=
        SlotTable.All.modify hc fun d hd hclean =>
          hclean.offer (fun hok => hvalid ⟨n, d, hcur, hd, hok⟩) now
      unfold Clean
      dsimp only
      split
      · exact SlotTable.All.release (f := RoutedDevice.dropSender) hoffer (fun _ _ hd => hd) _
      · exact hoffer

theorem clean_handleMsg_iff (ipText : IpAddr → String) {h : Hub} (hc : h.Clean) {msg : RemoteMsg} {peer : SocketAddr}
    {now : Instant} {accepted : Bool} :
    (h.handleMsg ipText msg peer now accepted).Clean ↔
      ∀ handle event, msg.event = some (handle, event) → h.Takes peer.ip handle → event.valid = true := by
  cases hmsg : msg.event with
  | none =>
    constructor
    · rintro - _ _ ⟨⟩
    · intro _
      cases msg with
      | hello uuid name ts => exact hc
      | announce a =>
        show (h.handleAnnounce ipText a peer now accepted).Clean
        unfold handleAnnounce
        dsimp only
        split
        · exact SlotTable.All.modify hc fun _ _ hd => hd
        · exact hc
        · exact SlotTable.All.push hc (.new _ now)
      | remove handle =>
        exact SlotTable.All.release (f := RoutedDevice.dropSender) hc (fun _ _ hd => hd) (peer.ip, handle)
      | imu handle seq samples => cases hmsg
      | battery handle state => cases hmsg
      | button handle kind => cases hmsg
  | some he =>
    obtain ⟨handle, event⟩ := he
    obtain ⟨seq, heq⟩ := handleMsg_of_event ipText (h := h) peer now accepted hmsg
    rw [heq, clean_routeEvent_iff (hc.recordLoss _ _ _), takes_recordLoss]
    constructor
    · intro hvalid handle' event' he
      obtain ⟨rfl, rfl⟩ := Prod.mk.inj (Option.some.inj he)
      exact hvalid
    · intro hvalid
      exact hvalid handle event rfl

/-- No datagram starts with the encoding of a message that a route takes and whose numbers are not valid. -/
def Screened (h : Hub) : HubAction → Prop
  | .datagram bytes peer _ _ => ∀ msg e t, bytes = e ++ t → Encodes msg e → Trailing msg t →
      ∀ handle event, msg.event = some (handle, event) → h.Takes peer.ip handle → event.valid = true
  | .recvError | .sweep _ | .start _ | .forward _ _ | .stop _ | .dropDevice _ | .rumble _ _ => True

/-- The condition in terms of the message that is parsed. -/
theorem screened_datagram_iff {h : Hub} {bytes : List UInt8} {peer : SocketAddr} {now : Instant} {accepted : Bool} :
    h.Screened (.datagram bytes peer now accepted) ↔ ∀ msg, parse bytes = .ok msg →
      ∀ handle event, msg.event = some (handle, event) → h.Takes peer.ip handle → event.valid = true := by
  constructor
  · intro hs msg hparse
    obtain ⟨e, t, hbytes, hencodes, htrail⟩ := parse_eq_ok_iff.1 hparse
    exact hs msg e t hbytes hencodes htrail
  · intro hs msg e t hbytes hencodes htrail
    exact hs msg (parse_eq_ok_iff.2 ⟨e, t, hbytes, hencodes, htrail⟩)

end Hub

variable {ipText : IpAddr → String}

/-- A step of a clean hub leaves it clean exactly when it is screened. -/
theorem hubStep_clean_iff {h h' : Hub} {a : HubAction} (hc : h.Clean) (hs : hubStep ipText h a = some h') :
    h'.Clean ↔ h.Screened a := by
  cases a with
  | datagram bytes peer now accepted =>
    rw [Hub.screened_datagram_iff]
    rcases hubStep_datagram hs with ⟨⟨e, hparse⟩, rfl⟩ | ⟨msg, hparse, rfl⟩
    · rw [hparse]
      exact iff_of_true hc nofun
    · rw [hparse, Hub.clean_handleMsg_iff ipText hc]
      constructor
      · rintro hvalid _ ⟨⟩
        exact hvalid
      · intro hvalid
        exact hvalid msg rfl
  | recvError =>
    obtain rfl := Option.some.inj hs
    exact iff_of_true hc trivial
  | sweep now =>
    obtain rfl := Option.some.inj hs
    exact iff_of_true (SlotTable.All.releaseEach (f := RoutedDevice.dropSender) hc (fun _ _ hd => hd) _) trivial
  | start n =>
    obtain rfl := Option.some.inj hs
    exact iff_of_true (SlotTable.All.modify hc fun _ _ hd => hd.start) trivial
  | forward n delivered =>
    obtain ⟨d, d', hd, hd', rfl⟩ := hubStep_forward hs
    exact iff_of_true (SlotTable.All.modify hc fun _ _ _ => (hc n d hd).forward hd') trivial
  | stop n =>
    obtain rfl := Option.some.inj hs
    exact iff_of_true (SlotTable.All.modify hc fun _ _ hd => hd.stop) trivial
  | dropDevice n =>
    obtain rfl := Option.some.inj hs
    exact iff_of_true (SlotTable.All.modify hc fun _ _ hd => hd.drop) trivial
  | rumble n intensity =>
    obtain ⟨datagram, rfl⟩ := hubStep_rumble hs
    exact iff_of_true hc trivial

/-- As long as the datagrams are screened only valid numbers are forwarded; the first one that is not ends that. -/
theorem forwarded_valid {s : Hub} (h : Reaches (hubStep ipText) Hub.Screened .new s) :
    s.Clean ∧ ∀ a s', hubStep ipText s a = some s' → (s'.Clean ↔ s.Screened a) := by
  have hclean : s.Clean :=
    h.invariant (I := Hub.Clean) SlotTable.All.empty fun _ _ _ hc hok hs => (hubStep_clean_iff hc hs).2 hok
  exact ⟨hclean, fun _ _ hs => hubStep_clean_iff hclean hs⟩

/-! ### A phone with one device -/

private def phoneSocket : SocketAddr := .v4 #v[192, 168, 0, 7] 40000

/-- The announcement of a device with handle 7. -/
private def announcement : List UInt8 :=
  [0x45, 0x49, 0x4D, 0x55, 1, 3, 7, 0, 1, 2, 0, 0, 0, 0, 9, 1, 1, 1, 200, 0, 0]

/-- A battery state of the device. -/
private def batteryOf (fraction : F32) : List UInt8 := [0x45, 0x49, 0x4D, 0x55, 1, 6, 7, 0] ++ toLe fraction ++ [0]

/-- A sample of the device whose gyro turns around the first axis. -/
private def gyroSample (gyro : F32) : List UInt8 :=
  [0x45, 0x49, 0x4D, 0x55, 1, 5, 7, 0, 1] ++ List.replicate 8 0 ++ toLe gyro ++ List.replicate 33 0

/-- A message without invalid numbers is screened, whatever routes there are. -/
private theorem screened_of_parse {h : Hub} {bytes : List UInt8} {msg : RemoteMsg} {peer : SocketAddr} {now : Instant}
    {accepted : Bool} (hparse : parse bytes = .ok msg) (hvalid : (msg.event.all fun he => he.2.valid) = true) :
    h.Screened (.datagram bytes peer now accepted) := by
  rw [Hub.screened_datagram_iff]
  intro msg' hparse' handle event hevent _
  obtain rfl := Buffer.Outcome.ok.inj (hparse.symm.trans hparse')
  rw [hevent] at hvalid
  exact hvalid

/-- A device whose battery is half full forwards valid numbers. -/
theorem half_battery_clean :
    ∃ s, exec (hubStep fun _ => "192.168.0.7") .new
        [.datagram announcement phoneSocket 0 true, .datagram (batteryOf ⟨0x3F000000⟩) phoneSocket 1 true] = some s ∧
      s.Clean := by
  let step := hubStep fun _ => "192.168.0.7"
  let second := HubAction.datagram (batteryOf ⟨0x3F000000⟩) phoneSocket 1 true
  have hrun : (step .new (.datagram announcement phoneSocket 0 true)).map (fun s => (step s second).isSome) =
      some true := by
    decide +kernel
  obtain ⟨s₁, hs₁, hsome⟩ := Option.map_eq_some_iff.1 hrun
  obtain ⟨s, hs⟩ := Option.isSome_iff_exists.1 hsome
  have hannounce : parse announcement =
      .ok (.announce ⟨7, .phone, #v[2, 0, 0, 0, 0, 9], true, true, true, 200, ""⟩) := by decide +kernel
  have hbattery : parse (batteryOf ⟨0x3F000000⟩) = .ok (.battery 7 ⟨⟨0x3F000000⟩, false⟩) := by decide +kernel
  have hfirst : Hub.Screened .new (.datagram announcement phoneSocket 0 true) := screened_of_parse hannounce rfl
  have hsecond : s₁.Screened second := screened_of_parse hbattery (by decide +kernel)
  have hreach : Reaches step Hub.Screened .new s := ((Reaches.refl step _ _).tail hfirst hs₁).tail hsecond hs
  refine ⟨s, ?_, (forwarded_valid hreach).1⟩
  show ((step .new _).bind fun s => (step s second).bind some) = some s
  rw [hs₁, Option.bind_some, hs, Option.bind_some]

/-- A sample with a NaN and a battery fraction of two reach the pipeline. -/
theorem invalid_numbers_forwarded :
    ∃ s d, exec (hubStep fun _ => "192.168.0.7") .new
        [.datagram announcement phoneSocket 0 true, .start 0, .datagram (gyroSample ⟨0x7FC00000⟩) phoneSocket 1 true,
          .datagram (batteryOf ⟨0x40000000⟩) phoneSocket 2 true, .forward 0 true, .forward 0 true] = some s ∧
      s.routes.slot 0 = some d ∧ ¬ d.Clean ∧ d.sent.map ChannelInfoBits.valid = [true, false, false] := by
  let run := exec (hubStep fun _ => "192.168.0.7") .new
    [.datagram announcement phoneSocket 0 true, .start 0, .datagram (gyroSample ⟨0x7FC00000⟩) phoneSocket 1 true,
      .datagram (batteryOf ⟨0x40000000⟩) phoneSocket 2 true, .forward 0 true, .forward 0 true]
  have hsent : (run.bind fun s => s.routes.slot 0).map (fun d => d.sent.map ChannelInfoBits.valid) =
      some [true, false, false] := by decide +kernel
  obtain ⟨d, hd, hsent⟩ := Option.map_eq_some_iff.1 hsent
  obtain ⟨s, hs, hd⟩ := Option.bind_eq_some_iff.1 hd
  refine ⟨s, d, hs, hd, fun hclean => ?_, hsent⟩
  have hmem : false ∈ d.sent.map ChannelInfoBits.valid := by rw [hsent]; simp
  obtain ⟨info, hinfo, hfalse⟩ := List.mem_map.1 hmem
  rw [hclean.2 info hinfo] at hfalse
  cases hfalse

end EverythingImu.Remote
