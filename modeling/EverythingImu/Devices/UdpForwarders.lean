import EverythingImu.Devices.Backend
import EverythingImu.Devices.StableMac
import EverythingImu.Library.CheckedScalar
import EverythingImu.Library.Forwarder
import EverythingImu.Library.LittleEndian
import EverythingImu.Library.Words

/-!
# Consoles over UDP

The PS Vita and the 3DS send their motion in datagrams that carry no id, so a console is the address it sends from.
`VitaFactory` and `ThreeDsFactory` (`factory.rs` of `device-vita` and `device-3ds`) are listeners in the sense of
`Forwarder`: they register a device for an address that is not routed, offer the packets of a routed one to its device
without waiting, and drop routes that were silent for too long.  They differ in their timeouts, in what a datagram that
is no packet does, and in what an error of the socket does.  The reader task of a device (`device.rs`) makes its events
of the packets that it receives.

The addresses are those of the socket as text.  The bind address and the log lines are left out.
-/

namespace EverythingImu.Forwarded

open Buffer Devices StepRun

/-! ### Packets -/

/-- `Duration::from_secs`, in nanoseconds. -/
def seconds (n : Nat) : Nat := n * 1000000000

/-- The size of the receive buffer, and the capacity of a packet channel. -/
def BUF_LEN : Nat := 64
def PACKET_CAPACITY : Nat := 256

namespace Vita

def WIRE_LEN : Nat := 24

/-- Three little-endian floats. -/
def readFloats (buf : List UInt8) (o : Nat) : Vector Float32 3 :=
  let rd (o : Nat) := Float32.ofBits (Words.ofLe (portion buf o 4))
  triple (rd o) (rd (o + 4)) (rd (o + 8))

def VitaPacket.parse (buf : List UInt8) : Option VitaPacket :=
  if buf.length ≠ WIRE_LEN then none
  else
    let packet : VitaPacket := ⟨readFloats buf 0, readFloats buf 12⟩
    if packet.accelG.all Float32.isFinite && packet.gyroRad.all Float32.isFinite then some packet else none

/-- The packet as the companion sends it: the floats in memory of a little-endian machine. -/
def VitaPacket.bytes (pkt : VitaPacket) : List UInt8 :=
  (pkt.accelG.toList ++ pkt.gyroRad.toList).flatMap fun x => Words.toLe x.toBits

def ROUTE_IDLE_TIMEOUT : Nat := seconds 10

/-- Routes are dropped before a datagram is read. -/
def factory : Forwarder.Config := ⟨PACKET_CAPACITY, ROUTE_IDLE_TIMEOUT, true⟩

def metadataForKey (key : String) : DeviceMetadata where
  id := { mac := stableMac key, serial := key }
  kind := .vita
  firmware := some "forwarded-homebrew"
  capabilities := { hasMagnetometer := false, hasBattery := false, hasRumble := false, nativeImuRateHz := 100 }

end Vita

namespace ThreeDs

def WIRE_LEN : Nat := 12

def ThreeDsPacket.parse (buf : List UInt8) : Option ThreeDsPacket :=
  if buf.length ≠ WIRE_LEN then none
  else some ⟨LittleEndian.readI16x3 buf 0, LittleEndian.readI16x3 buf 6⟩

/-- The packet as the companion sends it: the words in memory of a little-endian machine. -/
def ThreeDsPacket.bytes (pkt : ThreeDsPacket) : List UInt8 :=
  (pkt.accel.toList ++ pkt.gyro.toList).flatMap LittleEndian.putI16

def ROUTE_IDLE_TIMEOUT : Nat := seconds 5

/-- A datagram that is no packet is skipped before routes are dropped. -/
def factory : Forwarder.Config := ⟨PACKET_CAPACITY, ROUTE_IDLE_TIMEOUT, false⟩

def metadataForKey (key : String) : DeviceMetadata where
  id := { mac := stableMac key, serial := key }
  kind := .threeDs
  firmware := some "forwarded-homebrew"
  capabilities := { hasMagnetometer := false, hasBattery := false, hasRumble := false, nativeImuRateHz := 100 }

end ThreeDs

/-! ### Listeners -/

/-- What happens to a listener and its devices. -/
inductive UdpAction where
  | datagram (now : Instant) (peerIp : String) (buf : List UInt8)
  /-- `recv_from` fails. -/
  | recvFailed
  /-- The supervisor takes the new device. -/
  | handed
  /-- The supervisor is gone. -/
  | refused
  /-- The reader task of a device receives a packet. -/
  | receive (n : Nat) (now : Instant)
  /-- A device is stopped or dropped, or nobody receives its events. -/
  | dropReceiver (n : Nat)

/-- The address of the console and its packet, if the datagram is one. -/
def UdpAction.event {P : Type} (parse : List UInt8 → Option P) : UdpAction → Forwarder.Action String P
  | .datagram now peerIp buf => .datagram now peerIp (parse (buf.take BUF_LEN))
  | .recvFailed => .fail
  | .handed => .handed
  | .refused => .refused
  | .receive n now => .receive n now
  | .dropReceiver n => .dropReceiver n

namespace Vita

abbrev State := Forwarder.State String VitaPacket

/-- A turn of `enumerate_loop`, or a step of a reader task; errors of the socket are survived. -/
def step (s : State) : UdpAction → Option State
  | .recvFailed =>
    match s.listener with
    | .listening => some s
    | _ => none
  | a => Forwarder.step factory s (a.event VitaPacket.parse)

end Vita

namespace ThreeDs

abbrev State := Forwarder.State String ThreeDsPacket

/-- A turn of `enumerate_loop`, or a step of a reader task; an error of the socket ends the loop. -/
def step (s : State) (a : UdpAction) : Option State := Forwarder.step factory s (a.event ThreeDsPacket.parse)

end ThreeDs

/-- The batches that a function makes of the reports it is given, with the time of each. -/
def batchesOf {σ Report : Type} (read : σ → Report → Instant → σ × Option (List ImuSample)) :
    σ → List (Report × Instant) → List (List ImuSample)
  | _, [] => []
  | s, (report, now) :: rest => (read s report now).2.toList ++ batchesOf read (read s report now).1 rest

/-- The batches of a reader for the packets it receives. -/
def batches (R : Reader) : R.State → List (R.Report × Instant) → List (List ImuSample) := batchesOf R.read

/-- The events of a reader task that was started at an instant and has received these packets. -/
def readerEvents (R : Reader) (id : DeviceId) (start : Instant) (received : List (R.Report × Instant)) :
    List ChannelInfo :=
  .connected id :: (batches R (R.init start) received).map .imuSamples

/-! ### The datagrams of the companions -/

/-- A vector of three is given by its entries. -/
theorem exists_triple {α : Type} (v : Vector α 3) : ∃ x y z, v = triple x y z := by
  match v with
  | ⟨⟨[x, y, z]⟩, _⟩ => exact ⟨x, y, z, rfl⟩

/-- The floats behind some bytes. -/
private theorem readFloats_append {x y z : Float32} (pre post : List UInt8) {o : Nat} (ho : pre.length = o) :
    Vita.readFloats (pre ++ ([x, y, z].flatMap fun x => Words.toLe x.toBits) ++ post) o = triple x y z := by
  subst ho
  have hlen : ∀ x : Float32, (Words.toLe x.toBits).length = 4 := fun x => Words.length_toLe _
  have hread : ∀ (pre post : List UInt8) (x : Float32),
      Float32.ofBits (Words.ofLe (portion (pre ++ Words.toLe x.toBits ++ post) pre.length 4)) = x := by
    intro pre post x
    have hportion : portion (pre ++ Words.toLe x.toBits ++ post) pre.length 4 = Words.toLe x.toBits := by
      rw [portion, List.append_assoc, List.drop_left, ← hlen x, List.take_left]
    rw [hportion, Words.ofLe_toLe, Float32.ofBits_toBits]
  have hx := hread pre (Words.toLe y.toBits ++ Words.toLe z.toBits ++ post) x
  have hy := hread (pre ++ Words.toLe x.toBits) (Words.toLe z.toBits ++ post) y
  have hz := hread (pre ++ Words.toLe x.toBits ++ Words.toLe y.toBits) post z
  simp only [List.length_append, hlen, List.append_assoc] at hx hy hz
  simp only [Vita.readFloats, List.flatMap_cons, List.flatMap_nil, List.append_nil, List.append_assoc, hx, hy, hz]

/-- What the companion of the Vita sends is read back if all its numbers are finite, and is skipped otherwise. -/
theorem Vita.parse_bytes (pkt : Vita.VitaPacket) :
    Vita.VitaPacket.parse pkt.bytes =
      if pkt.accelG.all Float32.isFinite && pkt.gyroRad.all Float32.isFinite then some pkt else none := by
  obtain ⟨accelG, gyroRad⟩ := pkt
  obtain ⟨ax, ay, az, rfl⟩ := exists_triple accelG
  obtain ⟨gx, gy, gz, rfl⟩ := exists_triple gyroRad
  have hbytes : (⟨triple ax ay az, triple gx gy gz⟩ : Vita.VitaPacket).bytes =
      ([ax, ay, az].flatMap fun x => Words.toLe x.toBits) ++ [gx, gy, gz].flatMap fun x => Words.toLe x.toBits := rfl
  have hlen : ∀ x y z : Float32, ([x, y, z].flatMap fun x => Words.toLe x.toBits).length = 12 := by simp
  have haccel := readFloats_append (x := ax) (y := ay) (z := az) (o := 0) []
    ([gx, gy, gz].flatMap fun x => Words.toLe x.toBits) rfl
  have hgyro := readFloats_append (x := gx) (y := gy) (z := gz) (o := 12)
    ([ax, ay, az].flatMap fun x => Words.toLe x.toBits) [] (hlen ax ay az)
  rw [List.nil_append] at haccel
  rw [List.append_nil] at hgyro
  have hwire : ¬ (([ax, ay, az].flatMap fun x => Words.toLe x.toBits) ++
      [gx, gy, gz].flatMap fun x => Words.toLe x.toBits).length ≠ Vita.WIRE_LEN := by
    rw [List.length_append, hlen, hlen]
    decide
  rw [hbytes, Vita.VitaPacket.parse, if_neg hwire, haccel, hgyro]

/-- The datagrams that the 3DS listener takes are those that the companion sends. -/
theorem ThreeDs.parse_eq_some_iff {buf : List UInt8} {pkt : ThreeDs.ThreeDsPacket} :
    ThreeDs.ThreeDsPacket.parse buf = some pkt ↔ buf = pkt.bytes := by
  have hread : ∀ a b c d e f : Int16,
      ThreeDs.ThreeDsPacket.parse ([a, b, c, d, e, f].flatMap LittleEndian.putI16) =
        some ⟨triple a b c, triple d e f⟩ := by
    intro a b c d e f
    have hget := LittleEndian.readI16_flatMap [a, b, c, d, e, f]
    have h0 := hget 0
    have h1 := hget 1
    have h2 := hget 2
    have h3 := hget 3
    have h4 := hget 4
    have h5 := hget 5
    have hwire : ¬ ([a, b, c, d, e, f].flatMap LittleEndian.putI16).length ≠ ThreeDs.WIRE_LEN := by
      rw [LittleEndian.length_flatMap_putI16]
      exact not_not.2 rfl
    have hthree : ∀ (bytes : List UInt8) (o : Nat), LittleEndian.readI16x3 bytes o =
        triple (LittleEndian.readI16 bytes o) (LittleEndian.readI16 bytes (o + 2))
          (LittleEndian.readI16 bytes (o + 4)) := fun _ _ => rfl
    rw [ThreeDs.ThreeDsPacket.parse, if_neg hwire, hthree, hthree, h0, h1, h2, h3, h4, h5]
    rfl
  constructor
  · intro h
    unfold ThreeDs.ThreeDsPacket.parse at h
    split at h
    · cases h
    · rename_i hlen
      obtain ⟨xs, hxs, rfl⟩ := LittleEndian.exists_flatMap_putI16 6 buf (not_not.1 hlen)
      match xs, hxs with
      | [a, b, c, d, e, f], _ =>
        have hpkt := hread a b c d e f
        rw [ThreeDs.ThreeDsPacket.parse, if_neg hlen] at hpkt
        obtain rfl := Option.some.inj (hpkt.symm.trans h)
        rfl
  · rintro rfl
    obtain ⟨accel, gyro⟩ := pkt
    obtain ⟨a, b, c, rfl⟩ := exists_triple accel
    obtain ⟨d, e, f, rfl⟩ := exists_triple gyro
    exact hread a b c d e f

/-! ### Readers -/

theorem Vita.readerEvents_eq (id : DeviceId) (start : Instant) (received : List (Vita.VitaPacket × Instant)) :
    readerEvents Backend.vita.reader id start received =
      .connected id :: received.map fun e => .imuSamples [Vita.imuFromPacket e.1 start e.2] := by
  have hbatches : batches Backend.vita.reader (Backend.vita.reader.init start) received =
      received.map fun e => [Vita.imuFromPacket e.1 start e.2] := by
    induction received with
    | nil => rfl
    | cons e rest ih => exact congrArg ([Vita.imuFromPacket e.1 start e.2] :: ·) ih
  refine congrArg (ChannelInfo.connected id :: ·) ((congrArg (List.map ChannelInfo.imuSamples) hbatches).trans ?_)
  rw [List.map_map]
  rfl

namespace ThreeDs

/-- What the reader knows of gravity after some packets. -/
def settle (g : Gravity) (pkts : List ThreeDsPacket) : Gravity :=
  pkts.foldl (fun g pkt => (readPacket g pkt 0 0).1) g

/-- The scale does not depend on the time of a packet. -/
theorem readPacket_fst (g : Gravity) (pkt : ThreeDsPacket) (start now : Instant) :
    (readPacket g pkt start now).1 = (readPacket g pkt 0 0).1 := by
  unfold readPacket
  split <;> rfl

/-- A packet of the reader task. -/
def readReport (s : Instant × Gravity) (pkt : ThreeDsPacket) (now : Instant) :
    (Instant × Gravity) × Option (List ImuSample) :=
  ((s.1, (readPacket s.2 pkt s.1 now).1), (readPacket s.2 pkt s.1 now).2.map ([·]))

/-- The packets that are left to settle the scale give no sample, and the others are scaled by what it is then. -/
theorem batches_eq (start : Instant) (g : Gravity) (received : List (ThreeDsPacket × Instant)) :
    batchesOf readReport (start, g) received =
      (received.drop (GRAVITY_SAMPLES - g.count)).map fun e =>
        [imuFromRaw e.1 (settle g ((received.take (GRAVITY_SAMPLES - g.count)).map (·.1))).division start e.2] := by
  induction received generalizing g with
  | nil => simp [batchesOf]
  | cons e rest ih =>
    obtain ⟨pkt, now⟩ := e
    rw [batchesOf, readReport]
    dsimp only
    rw [ih, readPacket_fst]
    by_cases hcount : g.count < GRAVITY_SAMPLES
    · -- one packet fewer is left
      have hread : (readPacket g pkt start now).2 = none := by
        unfold readPacket
        rw [if_pos hcount]
      have hg : (readPacket g pkt 0 0).1.count = g.count + 1 := by
        unfold readPacket
        rw [if_pos hcount]
      obtain ⟨k, hk⟩ : ∃ k, GRAVITY_SAMPLES - g.count = k + 1 := ⟨GRAVITY_SAMPLES - g.count - 1, by omega⟩
      have hk' : GRAVITY_SAMPLES - (g.count + 1) = k := by omega
      rw [hread, hg, hk, hk', List.drop_succ_cons, List.take_succ_cons, List.map_cons, settle, settle, List.foldl_cons]
      rfl
    · have hread : (readPacket g pkt 0 0).1 = g := by
        unfold readPacket
        rw [if_neg hcount]
      have hsample : (readPacket g pkt start now).2 = some (imuFromRaw pkt g.division start now) := by
        unfold readPacket
        rw [if_neg hcount]
      have hzero : GRAVITY_SAMPLES - g.count = 0 := by omega
      rw [hread, hsample, hzero]
      rfl

theorem readerEvents_eq (id : DeviceId) (start : Instant) (received : List (ThreeDsPacket × Instant)) :
    readerEvents Backend.threeDs.reader id start received =
      .connected id :: (received.drop GRAVITY_SAMPLES).map fun e =>
        .imuSamples
          [imuFromRaw e.1 (settle .new ((received.take GRAVITY_SAMPLES).map (·.1))).division start e.2] := by
  have hbatches : batches Backend.threeDs.reader (Backend.threeDs.reader.init start) received =
      batchesOf readReport (start, .new) received := rfl
  refine congrArg (ChannelInfo.connected id :: ·) ((congrArg (List.map ChannelInfo.imuSamples) hbatches).trans ?_)
  rw [batches_eq, List.map_map]
  rfl

end ThreeDs

/-! ### Runs -/

/-- The packets of the console with an address, in the order in which the listener took them. -/
def consolePackets {P : Type} (s : Forwarder.State String P) (ip : String) : List P :=
  (s.log.filter (·.1 = ip)).map (·.2)

/-- A channel was offered some of the packets of its console. -/
theorem offered_sublist {P : Type} {cfg : Forwarder.Config} {s : Forwarder.State String P}
    {ok : Forwarder.State String P → Forwarder.Action String P → Prop} {n : Nat} {c : Forwarder.Channel String P}
    (h : Reaches (Forwarder.step cfg) ok .start s) (hc : s.channels.slot n = some c) :
    (c.delivered.map (·.1)).Sublist (consolePackets s c.key) := by
  have hoff : c.offered.Sublist (Forwarder.offeredTo s.channels c.key) := by
    have hmem : (c.key, c.offered) ∈ (s.channels.slots.map fun c => (c.key, c.offered)).filter (·.1 = c.key) :=
      List.mem_filter.2 ⟨List.mem_map.2 ⟨c, List.mem_of_getElem? hc, rfl⟩, by simp⟩
    rw [Forwarder.offeredTo, List.flatMap_def]
    exact List.sublist_flatten_of_mem (List.mem_map_of_mem hmem)
  rw [consolePackets, Forwarder.offered_conserved h c.key]
  exact ((List.sublist_append_left _ _).trans (Forwarder.delivered_sublist h hc).1).trans hoff

/-- A run of the Vita's listener is one of the general listener; errors of the socket change nothing. -/
theorem Vita.reaches_forwarder {ok : Vita.State → Forwarder.Action String Vita.VitaPacket → Prop} {s : Vita.State}
    (h : Reaches Vita.step (fun s a => ok s (a.event Vita.VitaPacket.parse)) .start s) :
    Reaches (Forwarder.step Vita.factory) ok .start s := by
  refine h.invariant (I := fun s => Reaches (Forwarder.step Vita.factory) ok .start s) (.refl _ _ _) ?_
  intro s a s' hr hok hs
  unfold Vita.step at hs
  split at hs
  · split at hs
    · obtain rfl := Option.some.inj hs
      exact hr
    · cases hs
  · exact hr.tail hok hs

theorem ThreeDs.reaches_forwarder {ok : ThreeDs.State → Forwarder.Action String ThreeDs.ThreeDsPacket → Prop}
    {s : ThreeDs.State} (h : Reaches ThreeDs.step (fun s a => ok s (a.event ThreeDs.ThreeDsPacket.parse)) .start s) :
    Reaches (Forwarder.step ThreeDs.factory) ok .start s :=
  h.invariant (I := fun s => Reaches (Forwarder.step ThreeDs.factory) ok .start s) (.refl _ _ _)
    fun _ _ _ hr hok hs => hr.tail hok hs

/-- A console at rest sends two packets, and the reader of its device receives both. -/
def twoPackets (packet : List UInt8) : List UdpAction :=
  [.datagram 0 "192.168.1.17" packet, .handed, .datagram 10000000 "192.168.1.17" packet, .receive 0 10000000,
    .receive 0 10000001]

/-- In every run the device of a console connects first, and its samples are made, in order, of packets that its
console sent, each packet at most once. -/
theorem vita_console_events {s : Vita.State} {n : Nat} {c : Forwarder.Channel String Vita.VitaPacket}
    (h : Reaches Vita.step Always .start s) (hc : s.channels.slot n = some c) (start : Instant) :
    (c.delivered.map (·.1)).Sublist (consolePackets s c.key) ∧
      readerEvents Backend.vita.reader (Vita.metadataForKey c.key).id start c.delivered =
        .connected (Vita.metadataForKey c.key).id ::
          c.delivered.map fun e => .imuSamples [Vita.imuFromPacket e.1 start e.2] :=
  have hrun : Reaches (Forwarder.step Vita.factory) Always .start s := Vita.reaches_forwarder h
  ⟨offered_sublist hrun hc, Vita.readerEvents_eq _ start c.delivered⟩

theorem vita_two_packets : ∃ (s : Vita.State) (c : Forwarder.Channel String Vita.VitaPacket),
    s.channels.slot 0 = some c ∧ c.delivered.length = 2 ∧
      (c.delivered.map (·.1)).Sublist (consolePackets s c.key) := by
  have hrun : ((exec Vita.step .start (twoPackets (List.replicate 24 0))).bind fun s =>
      (s.channels.slot 0).map fun c => c.delivered.length) = some 2 := by decide +kernel
  obtain ⟨s, hs, h⟩ := Option.bind_eq_some_iff.1 hrun
  obtain ⟨c, hc, hlen⟩ := Option.map_eq_some_iff.1 h
  exact ⟨s, c, hc, hlen, (vita_console_events (Reaches.of_run _ hs) hc 0).1⟩

/-- In every run the device of a console connects first; the packets that it receives are some that its console sent, in
order; the first hundred give no sample, and all others one sample with the scale that the first hundred settled. -/
theorem threeDs_console_events {s : ThreeDs.State} {n : Nat} {c : Forwarder.Channel String ThreeDs.ThreeDsPacket}
    (h : Reaches ThreeDs.step Always .start s) (hc : s.channels.slot n = some c) (start : Instant) :
    (c.delivered.map (·.1)).Sublist (consolePackets s c.key) ∧
      readerEvents Backend.threeDs.reader (ThreeDs.metadataForKey c.key).id start c.delivered =
        .connected (ThreeDs.metadataForKey c.key).id :: (c.delivered.drop 100).map fun e =>
          .imuSamples [ThreeDs.imuFromRaw e.1
            (ThreeDs.settle .new ((c.delivered.take 100).map (·.1))).division start e.2] :=
  have hrun : Reaches (Forwarder.step ThreeDs.factory) Always .start s := ThreeDs.reaches_forwarder h
  ⟨offered_sublist hrun hc, ThreeDs.readerEvents_eq _ start c.delivered⟩

/-- A console that keeps sending: the reader of its device takes each of its `n` packets as it comes. -/
def steadyPackets (packet : List UInt8) (n : Nat) : List UdpAction :=
  [.datagram 0 "192.168.1.17" packet, .handed, .receive 0 1] ++ (List.range (n - 1)).flatMap fun i =>
    [.datagram (10000000 * (i + 1)) "192.168.1.17" packet, .receive 0 (10000000 * (i + 1) + 1)]

/-- Of a hundred and three packets the last three give samples. -/
theorem threeDs_third_second : ∃ (s : ThreeDs.State) (c : Forwarder.Channel String ThreeDs.ThreeDsPacket),
    s.channels.slot 0 = some c ∧ (c.delivered.map (·.1)).Sublist (consolePackets s c.key) ∧
      c.delivered.length = 103 ∧
        (readerEvents Backend.threeDs.reader (ThreeDs.metadataForKey c.key).id 0 c.delivered).length = 4 := by
  have hrun : ((exec ThreeDs.step .start (steadyPackets (List.replicate 12 1) 103)).bind fun s =>
      (s.channels.slot 0).map fun c => c.delivered.length) = some 103 := by decide +kernel
  obtain ⟨s, hs, h⟩ := Option.bind_eq_some_iff.1 hrun
  obtain ⟨c, hc, hlen⟩ := Option.map_eq_some_iff.1 h
  obtain ⟨hsent, hevents⟩ := threeDs_console_events (Reaches.of_run _ hs) hc 0
  refine ⟨s, c, hc, hsent, hlen, ?_⟩
  rw [hevents, List.length_cons, List.length_map, List.length_drop, hlen]

/-- A console is registered a second time while the reader of its first device is there only if the device had no packet
for ten seconds (Vita) or five (3DS) when the packet came that registered the second. -/
theorem second_device_late :
    (∀ (s : Vita.State) (n m : Nat) (c c' : Forwarder.Channel String Vita.VitaPacket),
      Reaches Vita.step Always .start s → n < m → s.channels.slot n = some c → s.channels.slot m = some c' →
        c.key = c'.key → c.receiving = true → c.lastSeen + seconds 10 ≤ c'.since) ∧
    ∀ (s : ThreeDs.State) (n m : Nat) (c c' : Forwarder.Channel String ThreeDs.ThreeDsPacket),
      Reaches ThreeDs.step Always .start s → n < m → s.channels.slot n = some c → s.channels.slot m = some c' →
        c.key = c'.key → c.receiving = true → c.lastSeen + seconds 5 ≤ c'.since :=
  ⟨fun s _ _ _ _ h hnm hc hc' hkey hr =>
      have hrun : Reaches (Forwarder.step Vita.factory) Always .start s := Vita.reaches_forwarder h
      Forwarder.second_channel_late hrun hnm hc hc' hkey hr,
    fun s _ _ _ _ h hnm hc hc' hkey hr =>
      have hrun : Reaches (Forwarder.step ThreeDs.factory) Always .start s := ThreeDs.reaches_forwarder h
      Forwarder.second_channel_late hrun hnm hc hc' hkey hr⟩

/-- A console that was silent for a timeout is registered again. -/
def silentConsole (packet : List UInt8) : List UdpAction :=
  [.datagram 0 "192.168.1.17" packet, .handed, .datagram 12000000000 "192.168.1.17" packet, .handed]

theorem silent_console_twice : ∃ (s : Vita.State) (c c' : Forwarder.Channel String Vita.VitaPacket),
    s.channels.slot 0 = some c ∧ s.channels.slot 1 = some c' ∧ c.lastSeen + seconds 10 ≤ c'.since := by
  have hrun : ((exec Vita.step .start (silentConsole (List.replicate 24 0))).bind fun s =>
      (s.channels.slot 0).bind fun c => (s.channels.slot 1).map fun c' =>
        (decide (c.key = c'.key), c.receiving)) = some (true, true) := by decide +kernel
  obtain ⟨s, hs, h⟩ := Option.bind_eq_some_iff.1 hrun
  obtain ⟨c, hc, h⟩ := Option.bind_eq_some_iff.1 h
  obtain ⟨c', hc', h⟩ := Option.map_eq_some_iff.1 h
  obtain ⟨hkey, hr⟩ := Prod.mk.inj h
  exact ⟨s, c, c', hc, hc',
    second_device_late.1 s 0 1 c c' (Reaches.of_run _ hs) (by decide) hc hc' (of_decide_eq_true hkey) hr⟩

end EverythingImu.Forwarded
