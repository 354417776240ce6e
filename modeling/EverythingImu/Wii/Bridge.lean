import EverythingImu.Library.Buffer
import EverythingImu.Library.SlotTable
import EverythingImu.Library.StepRun
import EverythingImu.Wii.Device

/-!
# The Wii bridge

`WiiFactory` (`device-wii/src/factory.rs`): one task for each TCP connection.  The tasks share the routing map, which
holds the sender of the packet channel of every registered device, and the rumble state, which holds four motor flags
for every address.

A task runs from one `await` to the next in one step, and the steps of the tasks are interleaved in any order.  A
device keeps its slot when its route is gone, and the route of a key is the slot that is current for it; a task that
holds a clone of the sender has the number of the slot.  The bind address and the log lines are left out.
-/

namespace EverythingImu.Wii

open Buffer StepRun

def DEFAULT_POLLING_RATE_MS : UInt8 := 10

/-- The size of the read buffer. -/
def READ_LEN : Nat := PACKET_LEN * 32

/-- The capacity of the packet channel. -/
def PACKET_CAPACITY : Nat := 256

/-! ### Devices -/

/-- The text `{base_ip}:{id}`.  An identifier has no colon, so the last colon of the text splits it into the two. -/
structure StreamKey where
  baseIp : String
  id : UInt8
deriving DecidableEq

def StreamKey.text (key : StreamKey) : String := key.baseIp ++ ":" ++ toString key.id

/-- The first six bytes of a hash of the text, marked as locally administered. -/
def stableMac (bytes : List UInt8) : Mac :=
  let hash := bytes.foldl (fun hash b => (hash ^^^ b.toUInt64) * 0x100000001b3) (0xcbf29ce484222325 : UInt64)
  let byte := fun i : UInt64 => (hash >>> (8 * i)).toUInt8
  #v[(byte 0 &&& 0xFE) ||| 0x02, byte 1, byte 2, byte 3, byte 4, byte 5]

def metadataForKey (key : StreamKey) : DeviceMetadata where
  id := { mac := stableMac (utf8 key.text), serial := key.text }
  kind := .wii
  firmware := some "forwarded-companion"
  capabilities := { hasMagnetometer := false, hasBattery := true, hasRumble := true, nativeImuRateHz := 100 }

/-- A device with both ends of its packet channel. -/
structure WiiDevice where
  metadata : DeviceMetadata
  streamKey : StreamKey
  /-- The connection that registered the device. -/
  creator : Nat
  packets : List WiiPacket
  /-- The receiver has not been dropped. -/
  receiving : Bool
deriving DecidableEq

namespace WiiDevice

def new (key : StreamKey) (creator : Nat) : WiiDevice where
  metadata := metadataForKey key
  streamKey := key
  creator
  packets := []
  receiving := true

def push (packet : WiiPacket) (d : WiiDevice) : WiiDevice := { d with packets := d.packets ++ [packet] }

/-- The reader task takes the next packet. -/
def pop (d : WiiDevice) : WiiDevice := { d with packets := d.packets.tail }

/-- The device is stopped or dropped, or nothing receives what its reader task sends. -/
def dropReceiver (d : WiiDevice) : WiiDevice := { d with receiving := false }

end WiiDevice

/-! ### Rumble -/

/-- The motor flags of an address, and the connection that made the entry. -/
structure RumbleEntry where
  flags : Vector UInt8 4
  creator : Nat
deriving DecidableEq

abbrev RumbleState := AList fun _ : String => RumbleEntry

def noRumble : Vector UInt8 4 := .replicate 4 0

def clamp01 (intensity : Float32) : Float32 :=
  if intensity.isNaN then 0.0 else if intensity < 0.0 then 0.0 else if 1.0 < intensity then 1.0 else intensity

def isOn (intensity threshold : Float32) : Bool := threshold < clamp01 intensity

namespace RumbleState

/-- `entry(base_ip).or_insert([0, 0, 0, 0])`. -/
def orInsert (state : RumbleState) (baseIp : String) (creator : Nat) : RumbleState :=
  match state.lookup baseIp with
  | some _ => state
  | none => state.insert baseIp ⟨noRumble, creator⟩

/-- `set_rumble`: there is nothing to set without an entry. -/
def set (state : RumbleState) (key : StreamKey) (intensity : Float32) : RumbleState :=
  match state.lookup key.baseIp with
  | some e =>
    state.insert key.baseIp
      { e with flags := e.flags.setIfInBounds key.id.toNat (if isOn intensity 0.5 then 1 else 0) }
  | none => state

/-- The answer of `write_response`. -/
def reply (state : RumbleState) (baseIp : String) : Vector UInt8 5 :=
  (((state.lookup baseIp).map RumbleEntry.flags).getD noRumble).push DEFAULT_POLLING_RATE_MS

end RumbleState

/-! ### Connections -/

/-- The complete records at the front of the buffer, and the bytes that stay in it. -/
def takeCompletePackets (leftover : List UInt8) : List (List UInt8) × List UInt8 :=
  let complete := leftover.length - leftover.length % PACKET_LEN
  ((List.range (complete / PACKET_LEN)).map fun i => portion leftover (i * PACKET_LEN) PACKET_LEN,
    leftover.drop complete)

/-- A record that a read splits stays in the buffer. -/
example : takeCompletePackets (List.replicate 25 7) = ([List.replicate 17 7], List.replicate 8 7) := by decide

/-- A turn of the loop over the records of one read. -/
structure Turn where
  id : UInt8
  packet : WiiPacket
  /-- The records that come after it. -/
  rest : List (List UInt8)
deriving DecidableEq

/-- Where a task waits. -/
inductive Pc where
  /-- For the rumble state, to make the entry of its address. -/
  | opening
  | reading
  /-- For the routing map, to look the next record up. -/
  | draining (records : List (List UInt8))
  /-- For the routing map, to register a device. -/
  | registering (turn : Turn)
  /-- For the supervisor to take the device; the task holds its sender from here on. -/
  | handing (turn : Turn) (n : Nat)
  | sending (turn : Turn) (n : Nat)
  /-- For the routing map, to remove the route of a device that is gone. -/
  | removing (turn : Turn) (n : Nat)
  /-- For the rumble state, to make the answer. -/
  | replying
  | writing (reply : Vector UInt8 5)
  /-- `client_loop` has returned: for the routing map, to remove the routes. -/
  | leaving
  /-- For the rumble state, to remove the entry. -/
  | forgetting
  | closed
deriving DecidableEq

namespace Pc

/-- The task is in `client_loop`. -/
def isOpen : Pc → Bool
  | opening | leaving | forgetting | closed => false
  | reading | draining _ | registering _ | handing _ _ | sending _ _ | removing _ _ | replying | writing _ => true

/-- The device whose sender the task holds. -/
def holds : Pc → Option Nat
  | handing _ n | sending _ n | removing _ n => some n
  | opening | reading | draining _ | registering _ | replying | writing _ | leaving | forgetting | closed => none

end Pc

structure Connection where
  baseIp : String
  pc : Pc
  leftover : List UInt8
  createdKeys : List StreamKey
  /-- Everything that was read, in order. -/
  received : List UInt8
  /-- The answers that were written, in order. -/
  replies : List (Vector UInt8 5)
deriving DecidableEq

namespace Connection

def new (baseIp : String) : Connection := ⟨baseIp, .opening, [], [], [], []⟩

def goto (conn : Connection) (pc : Pc) : Connection := { conn with pc }

def key (conn : Connection) (turn : Turn) : StreamKey := ⟨conn.baseIp, turn.id⟩

/-- A read that gives bytes. -/
def onRead (conn : Connection) (bytes : List UInt8) : Connection :=
  let taken := takeCompletePackets (conn.leftover ++ bytes)
  { conn with pc := .draining taken.1, leftover := taken.2, received := conn.received ++ bytes }

end Connection

/-! ### The bridge -/

structure Bridge where
  connections : List Connection
  routing : SlotTable StreamKey WiiDevice
  rumbleState : RumbleState

inductive BridgeAction where
  | accept (baseIp : String)
  /-- `read` gives at least one byte. -/
  | read (c : Nat) (bytes : List UInt8)
  /-- `read` gives nothing or fails. -/
  | endOfStream (c : Nat)
  /-- The task goes on from a lock or from the packet channel. -/
  | advance (c : Nat)
  /-- `accepted` says that the channel of new devices still has its receiver. -/
  | hand (c : Nat) (accepted : Bool)
  | write (c : Nat) (written : Bool)
  /-- The reader task of a device takes a packet. -/
  | receive (n : Nat)
  | dropReceiver (n : Nat)
  | rumble (n : Nat) (intensity : Float32)

namespace Bridge

def new : Bridge := ⟨[], .empty, ∅⟩

def put (b : Bridge) (c : Nat) (conn : Connection) : Bridge := { b with connections := b.connections.set c conn }

/-- The task of connection `c` goes on. -/
def advance (b : Bridge) (c : Nat) (conn : Connection) : Option Bridge :=
  match conn.pc with
  | .opening =>
    some { b.put c (conn.goto .reading) with rumbleState := b.rumbleState.orInsert conn.baseIp c }
  | .draining [] => some (b.put c (conn.goto .replying))
  | .draining (record :: rest) =>
    match parsePacket record with
    | none => some (b.put c (conn.goto (.draining rest)))
    | some (id, packet) =>
      let turn : Turn := ⟨id, packet, rest⟩
      match b.routing.current (conn.key turn) with
      | some n => some (b.put c (conn.goto (.sending turn n)))
      | none => some (b.put c (conn.goto (.registering turn)))
  | .registering turn =>
    let n := b.routing.slots.length
    let key := conn.key turn
    some { b.put c { conn with pc := .handing turn n, createdKeys := conn.createdKeys ++ [key] } with
      routing := (b.routing.push (.new key c)).point key n }
  | .sending turn n => do
    let d ← b.routing.slot n
    if !d.receiving then some (b.put c (conn.goto (.removing turn n)))
    else if PACKET_CAPACITY ≤ d.packets.length then none
    else
      some { b.put c (conn.goto (.draining turn.rest)) with routing := b.routing.modify n (WiiDevice.push turn.packet) }
  | .removing turn _ =>
    some { b.put c (conn.goto (.draining turn.rest)) with routing := b.routing.forget (conn.key turn) }
  | .replying => some (b.put c (conn.goto (.writing (b.rumbleState.reply conn.baseIp))))
  | .leaving => some { b.put c (conn.goto .forgetting) with routing := b.routing.forgetEach conn.createdKeys }
  | .forgetting => some { b.put c (conn.goto .closed) with rumbleState := b.rumbleState.erase conn.baseIp }
  | .reading | .handing _ _ | .writing _ | .closed => none

/-- The supervisor takes the device, or it is gone and the device with it. -/
def hand (b : Bridge) (c : Nat) (conn : Connection) (accepted : Bool) : Option Bridge :=
  match conn.pc with
  | .handing turn n =>
    if accepted then some (b.put c (conn.goto (.sending turn n)))
    else some { b.put c (conn.goto .leaving) with routing := b.routing.modify n WiiDevice.dropReceiver }
  | _ => none

/-- The answer is written, or the write fails. -/
def write (b : Bridge) (c : Nat) (conn : Connection) (written : Bool) : Option Bridge :=
  match conn.pc with
  | .writing reply =>
    if written then some (b.put c { conn with pc := .reading, replies := conn.replies ++ [reply] })
    else some (b.put c (conn.goto .leaving))
  | _ => none

end Bridge

def bridgeStep (b : Bridge) : BridgeAction → Option Bridge
  | .accept baseIp => some { b with connections := b.connections ++ [.new baseIp] }
  | .read c bytes => do
    let conn ← b.connections[c]?
    if conn.pc = .reading ∧ bytes ≠ [] ∧ bytes.length ≤ READ_LEN then some (b.put c (conn.onRead bytes)) else none
  | .endOfStream c => do
    let conn ← b.connections[c]?
    if conn.pc = .reading then some (b.put c (conn.goto .leaving)) else none
  | .advance c => do
    let conn ← b.connections[c]?
    b.advance c conn
  | .hand c accepted => do
    let conn ← b.connections[c]?
    b.hand c conn accepted
  | .write c written => do
    let conn ← b.connections[c]?
    b.write c conn written
  | .receive n => do
    let d ← b.routing.slot n
    if d.receiving ∧ d.packets ≠ [] then some { b with routing := b.routing.modify n WiiDevice.pop } else none
  | .dropReceiver n => some { b with routing := b.routing.modify n WiiDevice.dropReceiver }
  | .rumble n intensity => do
    let d ← b.routing.slot n
    some { b with rumbleState := b.rumbleState.set d.streamKey intensity }

/-! ### What a step can do -/

/-- The task works on what it read, up to the answer. -/
def Pc.answering : Pc → Bool
  | draining _ | registering _ | handing _ _ | sending _ _ | removing _ _ | replying | writing _ => true
  | opening | reading | leaving | forgetting | closed => false

theorem Pc.isOpen_of_answering {pc : Pc} (h : pc.answering = true) : pc.isOpen = true := by
  cases pc <;> first | rfl | cases h

/-- A task that goes on to `pc` holds no sender but one that it held before or that it found in the routing map. -/
def Bridge.Clones (b : Bridge) (conn : Connection) (pc : Pc) : Prop :=
  ∀ n, pc.holds = some n → conn.pc.holds = some n ∨ ∃ key, b.routing.current key = some n

/-- The change leaves the identity of a device alone and does not bring its receiver back. -/
def WiiDevice.Narrows (f : WiiDevice → WiiDevice) : Prop :=
  ∀ d, (f d).streamKey = d.streamKey ∧ (f d).creator = d.creator ∧ ((f d).receiving = true → d.receiving = true)

theorem WiiDevice.narrows_push (packet : WiiPacket) : Narrows (push packet) := fun _ => ⟨rfl, rfl, id⟩

theorem WiiDevice.narrows_pop : Narrows pop := fun _ => ⟨rfl, rfl, id⟩

theorem WiiDevice.narrows_dropReceiver : Narrows dropReceiver := fun _ => ⟨rfl, rfl, nofun⟩

/-- The steps of the bridge. -/
inductive BridgeMoves (b : Bridge) : BridgeAction → Bridge → Prop where
  | accepts (baseIp : String) :
      BridgeMoves b (.accept baseIp) { b with connections := b.connections ++ [.new baseIp] }
  | reads {c : Nat} {conn : Connection} (bytes : List UInt8) : b.connections[c]? = some conn → conn.pc = .reading →
      BridgeMoves b (.read c bytes) (b.put c (conn.onRead bytes))
  | opens {c : Nat} {conn : Connection} : b.connections[c]? = some conn → conn.pc = .opening →
      BridgeMoves b (.advance c)
        { b.put c (conn.goto .reading) with rumbleState := b.rumbleState.orInsert conn.baseIp c }
  | works {a : BridgeAction} {c : Nat} {conn : Connection} (pc : Pc) : a = .advance c ∨ a = .hand c true →
      b.connections[c]? = some conn → conn.pc.answering = true → (∀ turn, conn.pc ≠ .registering turn) →
      pc.answering = true → b.Clones conn pc → BridgeMoves b a (b.put c (conn.goto pc))
  | registers {c : Nat} {conn : Connection} (turn : Turn) : b.connections[c]? = some conn →
      conn.pc = .registering turn →
      BridgeMoves b (.advance c)
        { b.put c { conn with
            pc := .handing turn b.routing.slots.length
            createdKeys := conn.createdKeys ++ [conn.key turn] } with
          routing := (b.routing.push (.new (conn.key turn) c)).point (conn.key turn) b.routing.slots.length }
  | sends {c : Nat} {conn : Connection} (turn : Turn) (n : Nat) : b.connections[c]? = some conn →
      conn.pc = .sending turn n →
      BridgeMoves b (.advance c)
        { b.put c (conn.goto (.draining turn.rest)) with
          routing := b.routing.modify n (WiiDevice.push turn.packet) }
  | removes {c : Nat} {conn : Connection} (turn : Turn) (n : Nat) : b.connections[c]? = some conn →
      conn.pc = .removing turn n →
      BridgeMoves b (.advance c)
        { b.put c (conn.goto (.draining turn.rest)) with routing := b.routing.forget (conn.key turn) }
  | replies {c : Nat} {conn : Connection} (reply : Vector UInt8 5) : b.connections[c]? = some conn →
      conn.pc = .writing reply →
      BridgeMoves b (.write c true) (b.put c { conn with pc := .reading, replies := conn.replies ++ [reply] })
  | ends {a : BridgeAction} {c : Nat} {conn : Connection} : a = .endOfStream c ∨ a = .write c false →
      b.connections[c]? = some conn → conn.pc.isOpen = true → BridgeMoves b a (b.put c (conn.goto .leaving))
  | refused {c : Nat} {conn : Connection} (turn : Turn) (n : Nat) : b.connections[c]? = some conn →
      conn.pc = .handing turn n →
      BridgeMoves b (.hand c false)
        { b.put c (conn.goto .leaving) with routing := b.routing.modify n WiiDevice.dropReceiver }
  | leaves {c : Nat} {conn : Connection} : b.connections[c]? = some conn → conn.pc = .leaving →
      BridgeMoves b (.advance c)
        { b.put c (conn.goto .forgetting) with routing := b.routing.forgetEach conn.createdKeys }
  | forgets {c : Nat} {conn : Connection} : b.connections[c]? = some conn → conn.pc = .forgetting →
      BridgeMoves b (.advance c)
        { b.put c (conn.goto .closed) with rumbleState := b.rumbleState.erase conn.baseIp }
  | device {a : BridgeAction} (n : Nat) (f : WiiDevice → WiiDevice) : a = .receive n ∨ a = .dropReceiver n →
      WiiDevice.Narrows f → BridgeMoves b a { b with routing := b.routing.modify n f }
  | rumbles (n : Nat) (key : StreamKey) (intensity : Float32) :
      BridgeMoves b (.rumble n intensity) { b with rumbleState := b.rumbleState.set key intensity }

section Moves

variable {b b' : Bridge} {a : BridgeAction} {c i : Nat} {conn conn' : Connection}

theorem Bridge.advance_moves (hc : b.connections[c]? = some conn) (h : b.advance c conn = some b') :
    BridgeMoves b (.advance c) b' := by
  unfold Bridge.advance at h
  cases hpc : conn.pc with
  | opening =>
    rw [hpc] at h
    obtain rfl := Option.some.inj h
    exact .opens hc hpc
  | draining records =>
    have hans : conn.pc.answering = true := by rw [hpc]; rfl
    have hreg : ∀ turn, conn.pc ≠ .registering turn := by
      rw [hpc]
      nofun
    rw [hpc] at h
    cases records with
    | nil =>
      obtain rfl := Option.some.inj h
      exact .works _ (Or.inl rfl) hc hans hreg rfl nofun
    | cons record rest =>
      dsimp only at h
      split at h
      · obtain rfl := Option.some.inj h
        exact .works _ (Or.inl rfl) hc hans hreg rfl nofun
      · rename_i id packet _
        split at h
        · rename_i n hcur
          obtain rfl := Option.some.inj h
          refine .works _ (Or.inl rfl) hc hans hreg rfl fun m hm => Or.inr ⟨conn.key ⟨id, packet, rest⟩, ?_⟩
          obtain rfl : n = m := Option.some.inj hm
          exact hcur
        · obtain rfl := Option.some.inj h
          exact .works _ (Or.inl rfl) hc hans hreg rfl nofun
  | registering turn =>
    rw [hpc] at h
    obtain rfl := Option.some.inj h
    exact .registers turn hc hpc
  | sending turn n =>
    rw [hpc] at h
    obtain ⟨d, -, h⟩ := Option.bind_eq_some_iff.1 h
    split at h
    · obtain rfl := Option.some.inj h
      refine .works _ (Or.inl rfl) hc (by rw [hpc]; rfl) (by rw [hpc]; nofun) rfl fun m hm => Or.inl ?_
      rw [hpc]
      exact hm
    · split at h
      · cases h
      · obtain rfl := Option.some.inj h
        exact .sends turn n hc hpc
  | removing turn n =>
    rw [hpc] at h
    obtain rfl := Option.some.inj h
    exact .removes turn n hc hpc
  | replying =>
    rw [hpc] at h
    obtain rfl := Option.some.inj h
    exact .works _ (Or.inl rfl) hc (by rw [hpc]; rfl) (by rw [hpc]; nofun) rfl nofun
  | leaving =>
    rw [hpc] at h
    obtain rfl := Option.some.inj h
    exact .leaves hc hpc
  | forgetting =>
    rw [hpc] at h
    obtain rfl := Option.some.inj h
    exact .forgets hc hpc
  | reading | handing turn n | writing reply | closed =>
    rw [hpc] at h
    cases h

/-- Everything that a step can do. -/
theorem bridgeStep_moves (h : bridgeStep b a = some b') : BridgeMoves b a b' := by
  cases a with
  | accept baseIp =>
    obtain rfl := Option.some.inj h
    exact .accepts baseIp
  | read c bytes =>
    obtain ⟨conn, hc, h⟩ := Option.bind_eq_some_iff.1 h
    split at h
    · rename_i hread
      obtain rfl := Option.some.inj h
      exact .reads bytes hc hread.1
    · cases h
  | endOfStream c =>
    obtain ⟨conn, hc, h⟩ := Option.bind_eq_some_iff.1 h
    split at h
    · rename_i hpc
      obtain rfl := Option.some.inj h
      exact .ends (Or.inl rfl) hc (by rw [hpc]; rfl)
    · cases h
  | advance c =>
    obtain ⟨conn, hc, h⟩ := Option.bind_eq_some_iff.1 h
    exact Bridge.advance_moves hc h
  | hand c accepted =>
    obtain ⟨conn, hc, h⟩ := Option.bind_eq_some_iff.1 h
    unfold Bridge.hand at h
    split at h
    · rename_i turn n hpc
      cases accepted with
      | true =>
        obtain rfl := Option.some.inj h
        refine .works _ (Or.inr rfl) hc (by rw [hpc]; rfl) (by rw [hpc]; nofun) rfl fun m hm => Or.inl ?_
        rw [hpc]
        exact hm
      | false =>
        obtain rfl := Option.some.inj h
        exact .refused turn n hc hpc
    · cases h
  | write c written =>
    obtain ⟨conn, hc, h⟩ := Option.bind_eq_some_iff.1 h
    unfold Bridge.write at h
    split at h
    · rename_i reply hpc
      cases written with
      | true =>
        obtain rfl := Option.some.inj h
        exact .replies reply hc hpc
      | false =>
        obtain rfl := Option.some.inj h
        exact .ends (Or.inr rfl) hc (by rw [hpc]; rfl)
    · cases h
  | receive n =>
    obtain ⟨d, -, h⟩ := Option.bind_eq_some_iff.1 h
    split at h
    · obtain rfl := Option.some.inj h
      exact .device n _ (Or.inl rfl) WiiDevice.narrows_pop
    · cases h
  | dropReceiver n =>
    obtain rfl := Option.some.inj h
    exact .device n _ (Or.inr rfl) WiiDevice.narrows_dropReceiver
  | rumble n intensity =>
    obtain ⟨d, -, h⟩ := Option.bind_eq_some_iff.1 h
    obtain rfl := Option.some.inj h
    exact .rumbles n d.streamKey intensity

/-! ### The connections -/

namespace Connection

/-- The moves of a connection other than reads. -/
inductive Goes (conn : Connection) : Connection → Prop where
  | opened : conn.pc = .opening → Goes conn (conn.goto .reading)
  | answers (pc : Pc) : conn.pc.answering = true → pc.answering = true → Goes conn (conn.goto pc)
  | registers (turn : Turn) (n : Nat) : conn.pc = .registering turn →
      Goes conn { conn with pc := .handing turn n, createdKeys := conn.createdKeys ++ [conn.key turn] }
  | replied (reply : Vector UInt8 5) : conn.pc = .writing reply →
      Goes conn { conn with pc := .reading, replies := conn.replies ++ [reply] }
  | left (pc : Pc) : conn.pc ≠ .opening → pc.isOpen = false → pc ≠ .opening → Goes conn (conn.goto pc)

end Connection

/-- A step changes at most one connection, which reads or goes on, or adds a new one. -/
theorem bridgeStep_connections (h : bridgeStep b a = some b') :
    (∃ baseIp, a = .accept baseIp ∧ b'.connections = b.connections ++ [.new baseIp]) ∨
    b'.connections = b.connections ∨
    ∃ (c : Nat) (conn conn' : Connection), b.connections[c]? = some conn ∧ b'.connections = b.connections.set c conn' ∧
      ((∃ bytes, a = .read c bytes ∧ conn.pc = .reading ∧ conn' = conn.onRead bytes) ∨ conn.Goes conn') := by
  cases bridgeStep_moves h with
  | accepts baseIp => exact Or.inl ⟨baseIp, rfl, rfl⟩
  | reads bytes hc hpc => exact Or.inr (Or.inr ⟨_, _, _, hc, rfl, Or.inl ⟨bytes, rfl, hpc, rfl⟩⟩)
  | opens hc hpc => exact Or.inr (Or.inr ⟨_, _, _, hc, rfl, Or.inr (.opened hpc)⟩)
  | works pc _ hc hans _ hans' _ => exact Or.inr (Or.inr ⟨_, _, _, hc, rfl, Or.inr (.answers pc hans hans')⟩)
  | registers turn hc hpc => exact Or.inr (Or.inr ⟨_, _, _, hc, rfl, Or.inr (.registers turn _ hpc)⟩)
  | sends turn n hc hpc => exact Or.inr (Or.inr ⟨_, _, _, hc, rfl, Or.inr (.answers _ (by rw [hpc]; rfl) rfl)⟩)
  | removes turn n hc hpc => exact Or.inr (Or.inr ⟨_, _, _, hc, rfl, Or.inr (.answers _ (by rw [hpc]; rfl) rfl)⟩)
  | replies reply hc hpc => exact Or.inr (Or.inr ⟨_, _, _, hc, rfl, Or.inr (.replied reply hpc)⟩)
  | ends _ hc hopen =>
    refine Or.inr (Or.inr ⟨_, _, _, hc, rfl, Or.inr (.left _ ?_ rfl nofun)⟩)
    intro hpc
    rw [hpc] at hopen
    cases hopen
  | refused turn n hc hpc => exact Or.inr (Or.inr ⟨_, _, _, hc, rfl, Or.inr (.left _ (by rw [hpc]; nofun) rfl nofun)⟩)
  | leaves hc hpc => exact Or.inr (Or.inr ⟨_, _, _, hc, rfl, Or.inr (.left _ (by rw [hpc]; nofun) rfl nofun)⟩)
  | forgets hc hpc => exact Or.inr (Or.inr ⟨_, _, _, hc, rfl, Or.inr (.left _ (by rw [hpc]; nofun) rfl nofun)⟩)
  | device n f _ _ => exact Or.inr (Or.inl rfl)
  | rumbles n key intensity => exact Or.inr (Or.inl rfl)

/-- A connection after a step is what it was before, is new, has read or has gone on. -/
theorem connection_of_step (h : bridgeStep b a = some b') (hi : b'.connections[i]? = some conn') :
    b.connections[i]? = some conn' ∨ (∃ baseIp, a = .accept baseIp ∧ conn' = .new baseIp) ∨
    ∃ conn, b.connections[i]? = some conn ∧ ((∃ bytes, a = .read i bytes ∧ conn.pc = .reading ∧
      conn' = conn.onRead bytes) ∨ conn.Goes conn') := by
  rcases bridgeStep_connections h with ⟨baseIp, ha, heq⟩ | heq | ⟨c, conn, conn'', hc, heq, hmove⟩
  · rw [heq] at hi
    rcases SlotTable.getElem?_of_concat hi with hi | ⟨-, hnew⟩
    · exact Or.inl hi
    · exact Or.inr (Or.inl ⟨baseIp, ha, hnew⟩)
  · rw [heq] at hi
    exact Or.inl hi
  · rw [heq] at hi
    rcases SlotTable.getElem?_of_set hi with ⟨rfl, rfl⟩ | hi
    · exact Or.inr (Or.inr ⟨conn, hc, hmove⟩)
    · exact Or.inl hi

/-- No connection is lost in a step. -/
theorem connection_after_step (h : bridgeStep b a = some b') (hi : b.connections[i]? = some conn) :
    ∃ conn', b'.connections[i]? = some conn' ∧ (conn' = conn ∨
      (∃ bytes, a = .read i bytes ∧ conn.pc = .reading ∧ conn' = conn.onRead bytes) ∨ conn.Goes conn') := by
  obtain ⟨hlt, -⟩ := List.getElem?_eq_some_iff.1 hi
  rcases bridgeStep_connections h with ⟨baseIp, -, heq⟩ | heq | ⟨c, conn₀, conn', hc, heq, hmove⟩
  · refine ⟨conn, ?_, Or.inl rfl⟩
    rw [heq, List.getElem?_append_left hlt]
    exact hi
  · refine ⟨conn, ?_, Or.inl rfl⟩
    rw [heq]
    exact hi
  · by_cases hci : c = i
    · subst hci
      obtain rfl : conn = conn₀ := Option.some.inj (hi.symm.trans hc)
      refine ⟨conn', ?_, Or.inr hmove⟩
      rw [heq, List.getElem?_set_self hlt]
    · refine ⟨conn, ?_, Or.inl rfl⟩
      rw [heq, List.getElem?_set_ne hci]
      exact hi

end Moves

namespace Connection.Goes

variable {conn conn' : Connection}

theorem baseIp_eq (h : conn.Goes conn') : conn'.baseIp = conn.baseIp := by
  cases h <;> rfl

theorem received_eq (h : conn.Goes conn') : conn'.received = conn.received := by
  cases h <;> rfl

/-- At most one answer is written. -/
theorem replies_eq (h : conn.Goes conn') :
    conn'.replies = conn.replies ∨ ∃ reply, conn'.replies = conn.replies ++ [reply] := by
  cases h with
  | replied reply hpc => exact Or.inr ⟨reply, rfl⟩
  | opened hpc => exact Or.inl rfl
  | answers pc hans hans' => exact Or.inl rfl
  | registers turn n hpc => exact Or.inl rfl
  | left pc hpc hclosed hopening => exact Or.inl rfl

end Connection.Goes

end EverythingImu.Wii
