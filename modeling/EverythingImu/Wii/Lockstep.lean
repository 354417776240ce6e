import EverythingImu.Wii.Bridge

/-!
# One answer for each frame

The companion sends its records in frames of four and reads one answer after each frame (`send_frame` in `main.c`).
The bridge writes an answer after each read, whatever the read brought.  So the answers are those of the frames exactly
as long as every read completes one frame (`lockstep_iff_reads_complete_frames`).  A frame that is split over two reads
is answered twice, and the second answer waits in the socket while the companion sends the next frame.
-/

namespace EverythingImu.Wii

open StepRun

def MAX_WIIMOTES : Nat := 4

def REPLY_BYTES : Nat := 5

/-- The size of the payload of `send_frame`. -/
def FRAME_LEN : Nat := MAX_WIIMOTES * RECORD_BYTES

theorem frame_len_eq : FRAME_LEN = 68 := rfl

theorem reply_bytes_eq : REPLY_BYTES = 5 := rfl

/-! ### The bridge -/

/-- The answer that the task is going to write for its last read. -/
def Pc.owed (pc : Pc) : Nat := if pc.answering then 1 else 0

/-- The complete frames among the received bytes. -/
def Connection.frames (conn : Connection) : Nat := conn.received.length / FRAME_LEN

/-- One answer is written, or is going to be written for the last read, for each complete frame. -/
def Connection.InLockstep (conn : Connection) : Prop := conn.replies.length + conn.pc.owed = conn.frames

/-- Every connection that is served is in lockstep. -/
def Bridge.InLockstep (b : Bridge) : Prop :=
  ∀ (c : Nat) conn, b.connections[c]? = some conn → conn.pc.isOpen = true → conn.InLockstep

/-- A read brings the connection to the end of one more frame. -/
def CompletesFrame (b : Bridge) : BridgeAction → Prop
  | .read c bytes => ∀ conn ∈ b.connections[c]?, (conn.received.length + bytes.length) / FRAME_LEN = conn.frames + 1
  | _ => True

instance (b : Bridge) : (a : BridgeAction) → Decidable (CompletesFrame b a)
  | .read c bytes =>
    inferInstanceAs (Decidable (∀ conn ∈ b.connections[c]?,
      (conn.received.length + bytes.length) / FRAME_LEN = conn.frames + 1))
  | .accept _ | .endOfStream _ | .advance _ | .hand _ _ | .write _ _ | .receive _ | .dropReceiver _ | .rumble _ _ =>
    inferInstanceAs (Decidable True)

/-- What holds of a connection whose reads all complete a frame. -/
structure Paced (conn : Connection) : Prop where
  fresh : conn.pc = .opening → conn.received = [] ∧ conn.replies = []
  bound : conn.replies.length ≤ conn.frames
  lockstep : conn.pc.isOpen = true → conn.InLockstep

theorem Pc.ne_opening_of_isOpen {pc : Pc} (h : pc.isOpen = true) : pc ≠ .opening := by
  rintro rfl
  cases h

namespace Paced

variable {conn conn' : Connection}

theorem new (baseIp : String) : Paced (.new baseIp) := ⟨fun _ => ⟨rfl, rfl⟩, Nat.zero_le _, nofun⟩

/-- A move other than a read keeps the pace. -/
theorem goes (h : Paced conn) (hgoes : conn.Goes conn') : Paced conn' := by
  cases hgoes with
  | opened hpc =>
    obtain ⟨hreceived, hreplies⟩ := h.fresh hpc
    refine ⟨nofun, h.bound, fun _ => ?_⟩
    simp [Connection.InLockstep, Connection.goto, Connection.frames, hreceived, hreplies, Pc.owed, Pc.answering]
  | answers pc hans hans' =>
    have hopen := Pc.isOpen_of_answering hans'
    have hlock : conn.replies.length + conn.pc.owed = conn.frames := h.lockstep (Pc.isOpen_of_answering hans)
    refine ⟨fun hpc => absurd hpc (Pc.ne_opening_of_isOpen hopen), h.bound, fun _ => ?_⟩
    show conn.replies.length + pc.owed = conn.frames
    rw [← hlock, Pc.owed, Pc.owed, hans, hans']
  | registers turn n hpc =>
    have hlock : conn.replies.length + conn.pc.owed = conn.frames := h.lockstep (by rw [hpc]; rfl)
    refine ⟨nofun, h.bound, fun _ => ?_⟩
    show conn.replies.length + 1 = conn.frames
    rw [← hlock, hpc]
    rfl
  | replied reply hpc =>
    have hlock : conn.replies.length + conn.pc.owed = conn.frames := h.lockstep (by rw [hpc]; rfl)
    have howed : conn.pc.owed = 1 := by rw [hpc]; rfl
    have hlen : (conn.replies ++ [reply]).length = conn.frames := by
      rw [List.length_append, List.length_singleton]
      omega
    exact ⟨nofun, Nat.le_of_eq hlen, fun _ => hlen⟩
  | left pc hpc hclosed hopening =>
    refine ⟨fun hpc' => absurd hpc' hopening, h.bound, fun hopen => ?_⟩
    have hpc' : pc.isOpen = true := hopen
    rw [hclosed] at hpc'
    cases hpc'

theorem frames_onRead (bytes : List UInt8) :
    (conn.onRead bytes).frames = (conn.received.length + bytes.length) / FRAME_LEN := by
  unfold Connection.frames Connection.onRead
  rw [List.length_append]

/-- After a read the connection is in lockstep exactly when the read completed a frame. -/
theorem inLockstep_onRead_iff (h : Paced conn) (hpc : conn.pc = .reading) (bytes : List UInt8) :
    (conn.onRead bytes).InLockstep ↔
      (conn.received.length + bytes.length) / FRAME_LEN = conn.frames + 1 := by
  have hlock : conn.replies.length + conn.pc.owed = conn.frames := h.lockstep (by rw [hpc]; rfl)
  have howed : conn.pc.owed = 0 := by rw [hpc]; rfl
  have hafter : (conn.onRead bytes).InLockstep ↔ conn.replies.length + 1 = (conn.onRead bytes).frames := Iff.rfl
  rw [hafter, frames_onRead]
  constructor <;> intro heq <;> omega

theorem onRead (h : Paced conn) (hpc : conn.pc = .reading) {bytes : List UInt8}
    (hread : (conn.received.length + bytes.length) / FRAME_LEN = conn.frames + 1) : Paced (conn.onRead bytes) := by
  refine ⟨nofun, ?_, fun _ => (h.inLockstep_onRead_iff hpc bytes).2 hread⟩
  have hbound : conn.replies.length ≤ conn.frames := h.bound
  show conn.replies.length ≤ (conn.onRead bytes).frames
  rw [frames_onRead, hread]
  omega

end Paced

/-- A step that completes a frame when it reads keeps the pace of every connection. -/
theorem paced_of_step {b b' : Bridge} {a : BridgeAction} {i : Nat} {conn' : Connection}
    (hb : ∀ conn, b.connections[i]? = some conn → Paced conn) (hok : CompletesFrame b a)
    (h : bridgeStep b a = some b') (hi : b'.connections[i]? = some conn') : Paced conn' := by
  rcases connection_of_step h hi with hsame | ⟨baseIp, -, rfl⟩ | ⟨conn, hconn, hmove⟩
  · exact hb conn' hsame
  · exact Paced.new baseIp
  · rcases hmove with ⟨bytes, rfl, hpc, rfl⟩ | hgoes
    · exact (hb conn hconn).onRead hpc (hok conn hconn)
    · exact (hb conn hconn).goes hgoes

/-- In a run whose reads all complete a frame every connection keeps the pace. -/
theorem paced_of_reaches {b : Bridge} (h : Reaches bridgeStep CompletesFrame .new b) :
    ∀ (c : Nat) conn, b.connections[c]? = some conn → Paced conn :=
  h.invariant (I := fun b => ∀ (c : Nat) conn, b.connections[c]? = some conn → Paced conn) (by simp [Bridge.new])
    fun _ _ _ hI hok hs c _ hc => paced_of_step (hI c) hok hs hc

theorem inLockstep_step_iff {b b' : Bridge} {a : BridgeAction}
    (hb : ∀ (c : Nat) conn, b.connections[c]? = some conn → Paced conn) (h : bridgeStep b a = some b') :
    b'.InLockstep ↔ CompletesFrame b a := by
  constructor
  · intro hlock
    cases a with
    | read c bytes =>
      intro conn hc
      have hc : b.connections[c]? = some conn := hc
      obtain ⟨conn₀, hc₀, h⟩ := Option.bind_eq_some_iff.1 h
      obtain rfl : conn = conn₀ := Option.some.inj (hc.symm.trans hc₀)
      split at h
      · rename_i hread
        obtain rfl := Option.some.inj h
        obtain ⟨hlt, -⟩ := List.getElem?_eq_some_iff.1 hc
        have hafter : (b.put c (conn.onRead bytes)).connections[c]? = some (conn.onRead bytes) := by
          simp [Bridge.put, hlt]
        exact ((hb c conn hc).inLockstep_onRead_iff hread.1 bytes).1 (hlock c _ hafter rfl)
      · cases h
    | _ => trivial
  · intro hok c conn' hc hopen
    exact (paced_of_step (hb c) hok h hc).lockstep hopen

/-! ### The companion -/

/-- The records of the four slots, one after the other, and the bookkeeping after them. -/
def buildFrame (pads : Vector Pad 4) (flags : Vector SlotFlags 4) : List UInt8 × Vector SlotFlags 4 :=
  ((List.finRange 4).flatMap fun i => (buildRecord i pads[i] flags[i]).1,
    .ofFn fun i => (buildRecord i pads[i] flags[i]).2)

theorem buildFrame_length (pads : Vector Pad 4) (flags : Vector SlotFlags 4) :
    (buildFrame pads flags).1.length = FRAME_LEN := by
  unfold buildFrame
  rw [List.length_flatMap]
  simp only [buildRecord_length]
  rfl

/-- Where `send_frame` is. -/
inductive SendFrame where
  /-- Between two frames. -/
  | idle
  /-- The bytes are still to be written. -/
  | sending (rest : List UInt8)
  /-- That many bytes of the answer are still to be read. -/
  | awaiting (missing : Nat)
deriving DecidableEq

namespace SendFrame

/-- The bytes of the current frame that were written. -/
def written : SendFrame → Nat
  | idle => 0
  | sending rest => FRAME_LEN - rest.length
  | awaiting _ => FRAME_LEN

/-- The bytes of the current answer that were read. -/
def got : SendFrame → Nat
  | idle | sending _ => 0
  | awaiting missing => REPLY_BYTES - missing

end SendFrame

/-- A companion and the bridge, with the bytes on the way between them. -/
structure Link where
  bridge : Bridge
  /-- The connection of the companion. -/
  conn : Nat
  flags : Vector SlotFlags 4
  companion : SendFrame
  /-- The frames whose answer was read. -/
  answered : Nat
  up : List UInt8
  down : List UInt8

inductive LinkAction where
  | bridge (a : BridgeAction)
  /-- The main loop builds the next frame. -/
  | scan (pads : Vector Pad 4)
  /-- `net_write` takes that many bytes. -/
  | netWrite (w : Nat)
  /-- `net_read` gives that many bytes. -/
  | netRead (r : Nat)

/-- The answers that were written on a connection. -/
def Bridge.repliesOn (b : Bridge) (c : Nat) : List (Vector UInt8 5) :=
  match b.connections[c]? with
  | some conn => conn.replies
  | none => []

namespace Link

/-- A companion connects to a bridge. -/
def connect (b : Bridge) (baseIp : String) : Link where
  bridge := { b with connections := b.connections ++ [.new baseIp] }
  conn := b.connections.length
  flags := .replicate 4 .start
  companion := .idle
  answered := 0
  up := []
  down := []

/-- The bridge goes on, and what it answers to the companion is on its way. -/
def advance (l : Link) (b : Bridge) : Link :=
  let written := (b.repliesOn l.conn).drop (l.bridge.repliesOn l.conn).length
  { l with bridge := b, down := l.down ++ written.flatMap Vector.toList }

end Link

/-- A step of the bridge, which reads from the companion only what is on the way, or of `send_frame`.  A read or a
write that fails closes the connection, and with it the link. -/
def linkStep (l : Link) : LinkAction → Option Link
  | .bridge (.read c bytes) => do
    let b ← bridgeStep l.bridge (.read c bytes)
    if c ≠ l.conn then some (l.advance b)
    else if bytes.isPrefixOf l.up then some { l.advance b with up := l.up.drop bytes.length }
    else none
  | .bridge a => (bridgeStep l.bridge a).map l.advance
  | .scan pads =>
    match l.companion with
    | .idle =>
      let frame := buildFrame pads l.flags
      some { l with companion := .sending frame.1, flags := frame.2 }
    | .sending _ | .awaiting _ => none
  | .netWrite w =>
    match l.companion with
    | .sending rest =>
      if 0 < w ∧ w ≤ rest.length then
        let companion := if w < rest.length then .sending (rest.drop w) else .awaiting REPLY_BYTES
        some { l with companion, up := l.up ++ rest.take w }
      else none
    | .idle | .awaiting _ => none
  | .netRead r =>
    match l.companion with
    | .awaiting missing =>
      if 0 < r ∧ r ≤ missing ∧ r ≤ l.down.length then
        if r < missing then some { l with companion := .awaiting (missing - r), down := l.down.drop r }
        else some { l with companion := .idle, down := l.down.drop r, answered := l.answered + 1 }
      else none
    | .idle | .sending _ => none

/-- Every read from the companion completes a frame. -/
def ReadsCompleteFrames (l : Link) : LinkAction → Prop
  | .bridge (.read c bytes) => c = l.conn → CompletesFrame l.bridge (.read c bytes)
  | _ => True

instance (l : Link) : (a : LinkAction) → Decidable (ReadsCompleteFrames l a)
  | .bridge (.read c bytes) => inferInstanceAs (Decidable (c = l.conn → CompletesFrame l.bridge (.read c bytes)))
  | .bridge (.accept _) | .bridge (.endOfStream _) | .bridge (.advance _) | .bridge (.hand _ _) | .bridge (.write _ _)
  | .bridge (.receive _) | .bridge (.dropReceiver _) | .bridge (.rumble _ _) | .scan _ | .netWrite _ | .netRead _ =>
    inferInstanceAs (Decidable True)

/-- No answer is left over when the companion starts or sends a frame, and never more than it is going to read; and
when it waits for an answer and the bridge waits for more bytes, either there are some on the way to the bridge or the
answer is on the way back. -/
def Link.Smooth (l : Link) : Prop :=
  match l.companion with
  | .idle | .sending _ => l.down = []
  | .awaiting missing => 0 < missing ∧ l.down.length ≤ missing ∧
      ∀ conn, l.bridge.connections[l.conn]? = some conn → conn.pc = .reading → l.up = [] → l.down.length = missing

/-! ### The link -/

namespace Link

/-- The bytes of the current frame or answer that are still to come. -/
def Underway : SendFrame → Prop
  | .idle => True
  | .sending rest => 0 < rest.length ∧ rest.length ≤ FRAME_LEN
  | .awaiting missing => 0 < missing ∧ missing ≤ REPLY_BYTES

/-- Every byte that was written is read or on the way. -/
structure Balanced (l : Link) (conn : Connection) : Prop where
  conn_eq : l.bridge.connections[l.conn]? = some conn
  paced : Paced conn
  underway : Underway l.companion
  up_eq : conn.received.length + l.up.length = FRAME_LEN * l.answered + l.companion.written
  down_eq : l.down.length + REPLY_BYTES * l.answered + l.companion.got = REPLY_BYTES * conn.replies.length

variable {l : Link} {conn conn' : Connection} {b : Bridge}

theorem repliesOn_eq {c : Nat} (h : b.connections[c]? = some conn) : b.repliesOn c = conn.replies := by
  unfold Bridge.repliesOn
  rw [h]

/-- What the bridge writes is on the way down. -/
theorem Balanced.advance (h : l.Balanced conn) (hb : b.connections[l.conn]? = some conn')
    (hreplies : conn'.replies = conn.replies ∨ ∃ reply, conn'.replies = conn.replies ++ [reply]) :
    (l.advance b).down.length + REPLY_BYTES * l.answered + l.companion.got = REPLY_BYTES * conn'.replies.length := by
  have hdown := h.down_eq
  unfold Link.advance
  rw [repliesOn_eq hb, repliesOn_eq h.conn_eq]
  dsimp only
  rw [List.length_append]
  rcases hreplies with heq | ⟨reply, heq⟩
  · rw [heq, List.drop_length]
    simpa using hdown
  · have hnew : ((conn.replies ++ [reply]).drop conn.replies.length).flatMap Vector.toList = reply.toList := by simp
    rw [heq, hnew, Vector.length_toList, List.length_append, List.length_singleton]
    simp only [reply_bytes_eq] at hdown ⊢
    omega

/-- A step of the bridge that reads nothing from the companion. -/
theorem Balanced.bridge (h : l.Balanced conn) {a : BridgeAction} (hb : bridgeStep l.bridge a = some b)
    (hother : ∀ bytes, a ≠ .read l.conn bytes) : ∃ conn', (l.advance b).Balanced conn' := by
  obtain ⟨conn', hconn', hmove⟩ := connection_after_step hb h.conn_eq
  have hreads : Paced conn' ∧ conn'.received = conn.received ∧
      (conn'.replies = conn.replies ∨ ∃ reply, conn'.replies = conn.replies ++ [reply]) := by
    rcases hmove with rfl | ⟨bytes, ha, -, -⟩ | hgoes
    · exact ⟨h.paced, rfl, Or.inl rfl⟩
    · exact absurd ha (hother bytes)
    · exact ⟨h.paced.goes hgoes, hgoes.received_eq, hgoes.replies_eq⟩
  obtain ⟨hpaced, hreceived, hreplies⟩ := hreads
  refine ⟨conn', hconn', hpaced, h.underway, ?_, h.advance hconn' hreplies⟩
  show conn'.received.length + l.up.length = _
  rw [hreceived]
  exact h.up_eq

/-- A read from the companion. -/
theorem Balanced.read (h : l.Balanced conn) {bytes : List UInt8} (hok : CompletesFrame l.bridge (.read l.conn bytes))
    (hb : bridgeStep l.bridge (.read l.conn bytes) = some b) (hup : bytes <+: l.up) :
    ∃ conn', Balanced { l.advance b with up := l.up.drop bytes.length } conn' := by
  obtain ⟨conn', hconn', hmove⟩ := connection_after_step hb h.conn_eq
  have hpaced : Paced conn' := by
    refine paced_of_step (fun conn₀ hconn₀ => ?_) hok hb hconn'
    obtain rfl : conn = conn₀ := Option.some.inj (h.conn_eq.symm.trans hconn₀)
    exact h.paced
  obtain ⟨conn₀, hconn₀, hb⟩ := Option.bind_eq_some_iff.1 hb
  obtain rfl : conn = conn₀ := Option.some.inj (h.conn_eq.symm.trans hconn₀)
  split at hb
  · obtain rfl := Option.some.inj hb
    obtain ⟨hlt, -⟩ := List.getElem?_eq_some_iff.1 hconn₀
    have hread : conn' = conn.onRead bytes := by
      simp only [Bridge.put, List.getElem?_set_self hlt] at hconn'
      exact (Option.some.inj hconn').symm
    have hle : bytes.length ≤ l.up.length := hup.length_le
    refine ⟨conn', hconn', hpaced, h.underway, ?_, h.advance hconn' (Or.inl (by rw [hread]; rfl))⟩
    show conn'.received.length + (l.up.drop bytes.length).length = _
    rw [hread, List.length_drop, Connection.onRead]
    dsimp only
    rw [List.length_append]
    have hup_eq := h.up_eq
    show _ = FRAME_LEN * l.answered + l.companion.written
    omega
  · cases hb

/-- A balanced link is smooth. -/
theorem Balanced.smooth (h : l.Balanced conn) : l.Smooth := by
  have hup := h.up_eq
  have hdown := h.down_eq
  have hunder := h.underway
  have hbound : conn.replies.length ≤ conn.received.length / FRAME_LEN := h.paced.bound
  unfold Link.Smooth
  unfold Underway at hunder
  cases hcomp : l.companion with
  | idle =>
    rw [hcomp] at hup hdown
    simp only [SendFrame.written, SendFrame.got, frame_len_eq, reply_bytes_eq] at hup hdown hbound
    exact List.length_eq_zero_iff.1 (by omega)
  | sending rest =>
    rw [hcomp] at hup hdown hunder
    simp only [SendFrame.written, SendFrame.got, frame_len_eq, reply_bytes_eq] at hup hdown hbound hunder
    exact List.length_eq_zero_iff.1 (by omega)
  | awaiting missing =>
    rw [hcomp] at hup hdown hunder
    simp only [SendFrame.written, SendFrame.got, frame_len_eq, reply_bytes_eq] at hup hdown hbound hunder
    refine ⟨hunder.1, by omega, fun conn₀ hconn₀ hpc hempty => ?_⟩
    obtain rfl : conn = conn₀ := Option.some.inj (h.conn_eq.symm.trans hconn₀)
    have hlock : conn.replies.length + conn.pc.owed = conn.received.length / FRAME_LEN :=
      h.paced.lockstep (by rw [hpc]; rfl)
    have howed : conn.pc.owed = 0 := by rw [hpc]; rfl
    have hnone : l.up.length = 0 := by rw [hempty]; rfl
    rw [frame_len_eq] at hlock
    omega

end Link

theorem balanced_connect (b : Bridge) (baseIp : String) : (Link.connect b baseIp).Balanced (.new baseIp) :=
  ⟨by simp [Link.connect], Paced.new baseIp, trivial, rfl, rfl⟩

theorem linkStep_bridge {l : Link} {a : BridgeAction} (h : ∀ c bytes, a ≠ .read c bytes) :
    linkStep l (.bridge a) = (bridgeStep l.bridge a).map l.advance := by
  cases a with
  | read c bytes => exact absurd rfl (h c bytes)
  | _ => rfl

/-- A step of the bridge. -/
private theorem balanced_of_bridge {l l' : Link} {a : BridgeAction} {conn : Connection} (h : l.Balanced conn)
    (hok : ReadsCompleteFrames l (.bridge a)) (hs : linkStep l (.bridge a) = some l') :
    ∃ conn', l'.Balanced conn' := by
  by_cases hread : ∃ bytes, a = .read l.conn bytes
  · obtain ⟨bytes, rfl⟩ := hread
    obtain ⟨b, hb, hs⟩ := Option.bind_eq_some_iff.1 hs
    rw [if_neg (not_not_intro rfl)] at hs
    split at hs
    · rename_i hprefix
      obtain rfl := Option.some.inj hs
      exact h.read (hok rfl) hb (List.isPrefixOf_iff_prefix.1 hprefix)
    · cases hs
  · have hother : ∀ bytes, a ≠ .read l.conn bytes := fun bytes ha => hread ⟨bytes, ha⟩
    have hstep : ∃ b, bridgeStep l.bridge a = some b ∧ l' = l.advance b := by
      cases a with
      | read c bytes =>
        obtain ⟨b, hb, hs⟩ := Option.bind_eq_some_iff.1 hs
        have hc : c ≠ l.conn := fun hc => hother bytes (by rw [hc])
        rw [if_pos hc] at hs
        exact ⟨b, hb, (Option.some.inj hs).symm⟩
      | _ =>
        rw [linkStep_bridge (by simp)] at hs
        obtain ⟨b, hb, hs⟩ := Option.map_eq_some_iff.1 hs
        exact ⟨b, hb, hs.symm⟩
    obtain ⟨b, hb, rfl⟩ := hstep
    exact h.bridge hb hother

/-- The companion writes a part of its frame. -/
private theorem balanced_of_netWrite {l l' : Link} {w : Nat} {conn : Connection} (h : l.Balanced conn)
    (hs : linkStep l (.netWrite w) = some l') : l'.Balanced conn := by
  have hunder := h.underway
  have hup := h.up_eq
  have hdown := h.down_eq
  simp only [linkStep] at hs
  split at hs
  · rename_i rest hcomp
    split at hs
    · rename_i hw
      obtain rfl := Option.some.inj hs
      rw [hcomp] at hup hdown hunder
      have hrest : 0 < rest.length ∧ rest.length ≤ FRAME_LEN := hunder
      have htake : (l.up ++ rest.take w).length = l.up.length + w := by
        rw [List.length_append, List.length_take, Nat.min_eq_left hw.2]
      by_cases hlast : w < rest.length
      · rw [if_pos hlast]
        have hdrop : (rest.drop w).length = rest.length - w := List.length_drop
        refine ⟨h.conn_eq, h.paced, ⟨by omega, by omega⟩, ?_, hdown⟩
        simp only [SendFrame.written, htake, hdrop] at hup ⊢
        omega
      · rw [if_neg hlast]
        refine ⟨h.conn_eq, h.paced, ⟨by decide, Nat.le_refl _⟩, ?_, ?_⟩
        · simp only [SendFrame.written, htake] at hup ⊢
          omega
        · simpa only [SendFrame.got, Nat.sub_self] using hdown
    · cases hs
  · cases hs
  · cases hs

/-- The companion reads a part of its answer. -/
private theorem balanced_of_netRead {l l' : Link} {r : Nat} {conn : Connection} (h : l.Balanced conn)
    (hs : linkStep l (.netRead r) = some l') : l'.Balanced conn := by
  have hunder := h.underway
  have hup := h.up_eq
  have hdown := h.down_eq
  simp only [linkStep] at hs
  split at hs
  · rename_i missing hcomp
    split at hs
    · rename_i hr
      rw [hcomp] at hup hdown hunder
      have hmissing : 0 < missing ∧ missing ≤ REPLY_BYTES := hunder
      have hdrop : (l.down.drop r).length = l.down.length - r := List.length_drop
      split at hs
      · obtain rfl := Option.some.inj hs
        refine ⟨h.conn_eq, h.paced, ⟨by omega, by omega⟩, hup, ?_⟩
        simp only [SendFrame.got, hdrop] at hdown ⊢
        omega
      · -- the whole answer has been read
        obtain rfl := Option.some.inj hs
        refine ⟨h.conn_eq, h.paced, trivial, ?_, ?_⟩
        · simp only [SendFrame.written, Nat.mul_add, Nat.mul_one] at hup ⊢
          omega
        · simp only [SendFrame.got, hdrop, reply_bytes_eq] at hdown hmissing ⊢
          omega
    · cases hs
  · cases hs
  · cases hs

theorem linkStep_balanced {l l' : Link} {a : LinkAction} {conn : Connection} (h : l.Balanced conn)
    (hok : ReadsCompleteFrames l a) (hs : linkStep l a = some l') : ∃ conn', l'.Balanced conn' := by
  cases a with
  | bridge a => exact balanced_of_bridge h hok hs
  | scan pads =>
    have hup := h.up_eq
    have hdown := h.down_eq
    simp only [linkStep] at hs
    split at hs
    · rename_i hcomp
      obtain rfl := Option.some.inj hs
      have hlen := buildFrame_length pads l.flags
      rw [hcomp] at hup hdown
      refine ⟨conn, h.conn_eq, h.paced, ⟨by rw [hlen]; decide, Nat.le_of_eq hlen⟩, ?_, hdown⟩
      simp only [SendFrame.written, hlen, Nat.sub_self] at hup ⊢
      exact hup
    · cases hs
    · cases hs
  | netWrite w => exact ⟨conn, balanced_of_netWrite h hs⟩
  | netRead r => exact ⟨conn, balanced_of_netRead h hs⟩

/-- A link whose reads all complete a frame is smooth. -/
theorem smooth_of_reaches {b : Bridge} {baseIp : String} {l : Link}
    (h : Reaches linkStep ReadsCompleteFrames (.connect b baseIp) l) : l.Smooth := by
  have hinv : ∃ conn, l.Balanced conn :=
    h.invariant (I := fun l => ∃ conn, l.Balanced conn) ⟨_, balanced_connect b baseIp⟩
      fun _ _ _ ⟨_, hl⟩ hok hs => linkStep_balanced hl hok hs
  obtain ⟨conn, hconn⟩ := hinv
  exact hconn.smooth

/-- In every run the bridge answers each complete frame once as long as each read completes one frame, and the first
read that does not is where it stops doing so; and as long as each read completes one frame the companion never has an
answer too many or too few. -/
theorem lockstep_iff_reads_complete_frames (b : Bridge) (baseIp : String) :
    (Reaches bridgeStep CompletesFrame .new b → b.InLockstep ∧
      ∀ a b', bridgeStep b a = some b' → (b'.InLockstep ↔ CompletesFrame b a)) ∧
    ∀ l, Reaches linkStep ReadsCompleteFrames (.connect b baseIp) l → l.Smooth := by
  refine ⟨fun h => ⟨fun c conn hc => ((paced_of_reaches h) c conn hc).lockstep, fun a b' hs => ?_⟩,
    fun l h => smooth_of_reaches h⟩
  exact inLockstep_step_iff (paced_of_reaches h) hs

/-- No controller is connected. -/
def noPads : Vector Pad 4 := .replicate 4 ⟨false, none⟩

/-- Half of the frame that is built then. -/
def halfFrame : List UInt8 := emptyRecord ++ emptyRecord

/-- A read of a whole frame, and the answer. -/
def answerFrame : List BridgeAction :=
  [.read 0 (halfFrame ++ halfFrame)] ++ .replicate 6 (.advance 0) ++ [.write 0 true]

/-- A frame is read as a whole and answered, and the companion reads the answer. -/
def wholeFrame : List LinkAction :=
  [.bridge (.advance 0), .scan noPads, .netWrite 68] ++ answerFrame.map .bridge ++ [.netRead 5]

/-- One frame, one answer, and nothing is left on the way. -/
theorem whole_frame_answered_once :
    (∃ b conn, b.connections[0]? = some conn ∧ conn.frames = 1 ∧ conn.replies.length = 1 ∧ b.InLockstep ∧
      ∀ a b', bridgeStep b a = some b' → (b'.InLockstep ↔ CompletesFrame b a)) ∧
    ∃ l : Link, l.answered = 1 ∧ l.companion = .idle ∧ l.up = [] ∧ l.down = [] ∧ l.Smooth := by
  constructor
  · have hfacts : (exec (guardStep bridgeStep CompletesFrame) .new
        ([.accept "10.0.0.2", .advance 0] ++ answerFrame)).map
        (fun b => (b.connections[0]?).map fun conn => (conn.frames, conn.replies.length)) = some (some (1, 1)) := by
      decide +kernel
    obtain ⟨b, hb, hfacts⟩ := Option.map_eq_some_iff.1 hfacts
    obtain ⟨conn, hconn, hcounts⟩ := Option.map_eq_some_iff.1 hfacts
    obtain ⟨hframes, hreplies⟩ := Prod.mk.inj hcounts
    have hlock := (lockstep_iff_reads_complete_frames b "10.0.0.2").1 (Reaches.of_exec _ hb)
    exact ⟨b, conn, hconn, hframes, hreplies, hlock⟩
  · have hfacts : (exec (guardStep linkStep ReadsCompleteFrames) (.connect .new "10.0.0.2") wholeFrame).map
        (fun l => (l.answered, l.companion, l.up, l.down)) = some (1, .idle, [], []) := by
      decide +kernel
    obtain ⟨l, hl, hfacts⟩ := Option.map_eq_some_iff.1 hfacts
    simp only [Prod.mk.injEq] at hfacts
    obtain ⟨hanswered, hcomp, hup, hdown⟩ := hfacts
    have hsmooth := (lockstep_iff_reads_complete_frames .new "10.0.0.2").2 l (Reaches.of_exec _ hl)
    exact ⟨l, hanswered, hcomp, hup, hdown, hsmooth⟩

/-- A read of half a frame, and the answer. -/
def answerHalf : List LinkAction :=
  [.bridge (.read 0 halfFrame), .bridge (.advance 0), .bridge (.advance 0), .bridge (.advance 0), .bridge (.advance 0),
    .bridge (.write 0 true)]

/-- A frame is written at once and read in two halves; the companion reads an answer and builds the next frame. -/
def splitFrame : List LinkAction :=
  [.bridge (.advance 0), .scan noPads, .netWrite 68] ++ answerHalf ++ answerHalf ++ [.netRead 5, .scan noPads]

/-- One frame has two answers, and one of them is left over when the companion sends the next frame. -/
theorem split_frame_answered_twice :
    ∃ l conn, Reaches linkStep Always (.connect .new "10.0.0.2") l ∧ l.bridge.connections[0]? = some conn ∧
      conn.pc = .reading ∧ conn.frames = 1 ∧ conn.replies.length = 2 ∧
      l.companion = .sending (halfFrame ++ halfFrame) ∧ l.down.length = 5 := by
  have hfacts : (exec linkStep (.connect .new "10.0.0.2") splitFrame).map (fun l =>
      ((l.bridge.connections[0]?).map fun conn => (conn.pc, conn.frames, conn.replies.length), l.companion,
        l.down.length)) =
      some (some (.reading, 1, 2), .sending (halfFrame ++ halfFrame), 5) := by decide +kernel
  obtain ⟨l, hl, hfacts⟩ := Option.map_eq_some_iff.1 hfacts
  simp only [Prod.mk.injEq] at hfacts
  obtain ⟨hconn, hcomp, hdown⟩ := hfacts
  obtain ⟨conn, hconn, hpc⟩ := Option.map_eq_some_iff.1 hconn
  simp only [Prod.mk.injEq] at hpc
  exact ⟨l, conn, Reaches.of_run _ hl, hconn, hpc.1, hpc.2.1, hpc.2.2, hcomp, hdown⟩

end EverythingImu.Wii
