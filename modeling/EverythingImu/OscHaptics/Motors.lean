import EverythingImu.OscHaptics.Bridge

/-!
# The motors behind the listener

What the bridge does to the motors, without sockets and packets: a value arrives for a rule, a pulse ends, a motor is
silenced, or a new loop starts and knows nothing of the motors.  `Motors` performs these operations and logs its
commands, with their causes, over all loops of a run.

`bridgeOps` are the operations of one step of the bridge, and `Traced` is the bridge together with the operations of
its run so far.  The motors that perform these have the records of the loop that runs and have sent the commands of
the bridge (`traced_invariant`).
-/

namespace EverythingImu.OscHaptics

open Channel StepRun

/-- An operation on the motors. -/
inductive Op where
  /-- A new loop starts, with empty records. -/
  | bind
  /-- A value arrives for a rule. -/
  | apply (now : Instant) (rule : HapticRule) (value : Float32)
  /-- The loop looks whether the pulse of a device has ended. -/
  | expire (now : Instant) (mac : Mac)
  | silence (now : Instant) (mac : Mac)
deriving DecidableEq

/-- Why a command is sent. -/
inductive Cause where
  | value
  | pulseStart (pending : Bool)
  | forcedOff
deriving DecidableEq

structure Command where
  time : Instant
  mac : Mac
  intensity : Float32
  cause : Cause
deriving DecidableEq

def Command.rumble (c : Command) : Rumble := ⟨c.time, c.mac, c.intensity⟩

structure Motors where
  /-- Last value sent to each device by the loop that runs. -/
  lastSent : AList fun _ : Mac => Instant × Float32
  /-- The pending pulses of the loop that runs and their ends. -/
  pulseUntil : AList fun _ : Mac => Instant
  /-- The commands of all loops, newest first. -/
  commands : List Command

namespace Motors

def new : Motors := ⟨∅, ∅, []⟩

variable (m : Motors)

/-- The last command to a device. -/
def last (mac : Mac) : Option Command := m.commands.find? (·.mac = mac)

/-- The commands to a device, newest first. -/
def callsTo (mac : Mac) : List Rumble := (m.commands.map Command.rumble).filter (·.mac = mac)

/-- A value above 0 that comes too soon after the last one or differs too little from it is dropped. -/
def drops (mac : Mac) (intensity : Float32) (now : Instant) : Bool :=
  (m.lastSent.lookup mac).any fun sent =>
    (now - sent.1 < MIN_SEND_GAP || (intensity - sent.2).abs < INTENSITY_EPSILON) && intensity > 0.0

def drive (mac : Mac) (intensity : Float32) (cause : Cause) (now : Instant) : Motors :=
  { m with
    lastSent := m.lastSent.insert mac (now, intensity)
    commands := ⟨now, mac, intensity, cause⟩ :: m.commands }

def stop (now : Instant) (mac : Mac) : Motors :=
  { m with pulseUntil := m.pulseUntil.erase mac }.drive mac 0.0 .forcedOff now

/-- Apply a value to the device of a rule. -/
def act (now : Instant) (action : HapticAction) : Motors :=
  match action.pulseMs with
  | some ms =>
    { m with pulseUntil := m.pulseUntil.insert action.deviceMac (now + ms.toNat * 1_000_000) }.drive action.deviceMac
      action.intensity (.pulseStart (m.pulseUntil.lookup action.deviceMac).isSome) now
  | none =>
    let cut := { m with pulseUntil := m.pulseUntil.erase action.deviceMac }
    if m.drops action.deviceMac action.intensity now then cut
    else cut.drive action.deviceMac action.intensity .value now

def perform : Op → Motors
  | .bind => { m with lastSent := ∅, pulseUntil := ∅ }
  | .apply now rule value => m.act now (applyMode rule.deviceMac rule.mode value)
  | .expire now mac => if (m.pulseUntil.lookup mac).any (· ≤ now) then m.stop now mac else m
  | .silence now mac => m.stop now mac

theorem perform_apply (now : Instant) (rule : HapticRule) (value : Float32) :
    m.perform (.apply now rule value) = m.act now (applyMode rule.deviceMac rule.mode value) := rfl

theorem perform_expire (now : Instant) (mac : Mac) :
    m.perform (.expire now mac) = if (m.pulseUntil.lookup mac).any (· ≤ now) then m.stop now mac else m := rfl

theorem act_cases (now : Instant) (action : HapticAction) :
    (m.act now action = { m with pulseUntil := m.pulseUntil.erase action.deviceMac }) ∨
      ∃ pulses cause, m.act now action =
        { m with pulseUntil := pulses }.drive action.deviceMac action.intensity cause now := by
  unfold act
  cases action.pulseMs with
  | some ms => exact Or.inr ⟨_, _, rfl⟩
  | none =>
    dsimp only
    split
    · exact Or.inl rfl
    · exact Or.inr ⟨_, _, rfl⟩

/-- An operation sends at most one command; without one it forgets all records, or none but pulses. -/
theorem perform_cases (op : Op) :
    ((m.perform op).commands = m.commands ∧
        ((m.perform op).lastSent = ∅ ∨ (m.perform op).lastSent = m.lastSent)) ∨
      ∃ pulses mac intensity cause now, m.perform op =
        { m with pulseUntil := pulses }.drive mac intensity cause now := by
  cases op with
  | bind => exact Or.inl ⟨rfl, Or.inl rfl⟩
  | apply now rule value =>
    rw [perform_apply]
    rcases m.act_cases now (applyMode rule.deviceMac rule.mode value) with hcut | ⟨pulses, cause, hdrive⟩
    · rw [hcut]
      exact Or.inl ⟨rfl, Or.inr rfl⟩
    · exact Or.inr ⟨pulses, _, _, cause, now, hdrive⟩
  | expire now mac =>
    rw [perform_expire]
    split
    · exact Or.inr ⟨_, _, _, _, _, rfl⟩
    · exact Or.inl ⟨rfl, Or.inr rfl⟩
  | silence now mac => exact Or.inr ⟨_, _, _, _, _, rfl⟩

end Motors

/-- The motors after a run of operations, newest first. -/
def motorsOf : List Op → Motors
  | [] => .new
  | op :: earlier => (motorsOf earlier).perform op

theorem motorsOf_append (later earlier : List Op) :
    motorsOf (later.reverse ++ earlier) = later.foldl Motors.perform (motorsOf earlier) := by
  induction later generalizing earlier with
  | nil => rfl
  | cons op later ih =>
    rw [List.reverse_cons, List.append_assoc, List.singleton_append, ih]
    rfl

/-! ### The operations of the bridge -/

/-- The value that a message carries. -/
def OscMessage.value (msg : OscMessage) : Option Float32 := msg.args.head?.bind oscValueToF32

section Ops

variable (clock : Nat → Instant) (rules : List HapticRule) (decodeUdp : List UInt8 → Option OscPacket)

/-- One operation for each rule that matches the address. -/
def messageOps (now : Instant) (msg : OscMessage) : List Op :=
  match msg.value with
  | none => []
  | some value => (rules.filter fun r => r.oscAddress = msg.addr).map (.apply now · value)

/-- The operations of messages whose values are read from reading `n` of the clock on, a new reading for each. -/
def messagesOps : Nat → List OscMessage → List Op
  | _, [] => []
  | n, msg :: rest => messageOps rules (clock n) msg ++ messagesOps (if msg.value.isSome then n + 1 else n) rest

def silenceOps (w : World) : List Op := w.state.active.map (.silence (clock w.reads))

def tickOps (now : Instant) (w : World) : List Op :=
  let expired := w.state.expired now
  let w := expired.foldl (World.stopMotor · now) w
  expired.map (.expire now) ++
    if !w.state.idleSilenced && now - w.state.lastPacket ≥ WATCHDOG_IDLE then silenceOps clock w else []

/-- The operations of a turn of the serve loop. -/
def serveOps (config : Watch HapticConfig) (seen : Nat) (recv : Recv) (w : World) : List Op :=
  let w := w.readClock
  match config.changed seen with
  | .ready true => []
  | .ready false => silenceOps clock w
  | .pending =>
    match recv with
    | .datagram bytes =>
      match decodeUdp (bytes.take RECV_BUFFER) with
      | some packet => messagesOps clock rules (w.reads + 1) packet.messages
      | none => []
    | .error => []
    | .pending => tickOps clock (clock w.reads) w.readClock

def bridgeOps (s : BridgeState) (a : BridgeAction) : List Op :=
  match a, s.phase with
  | .bind true, .binding _ => [.bind]
  | .turn recv, .serving rules w => serveOps clock rules decodeUdp s.config s.seen recv w
  | _, _ => []

end Ops

/-! ### One turn -/

/-- The motors have the records of the loop and have sent its commands after the earlier ones. -/
structure Records (m : Motors) (w : World) (earlier : List Rumble) : Prop where
  lastSent : m.lastSent = w.state.lastSent
  pulseUntil : m.pulseUntil = w.state.pulseUntil
  calls : m.commands.map Command.rumble = w.calls ++ earlier

theorem send_of_suppresses {w : World} {mac : Mac} {intensity : Float32} {now : Instant}
    (h : w.state.suppresses mac intensity now = true) : w.send mac intensity false now = w := by
  unfold World.send
  rw [h]
  rfl

namespace Records

variable {m : Motors} {w w' : World} {earlier : List Rumble}

theorem frame (h : Records m w earlier) (hl : w'.state.lastSent = w.state.lastSent)
    (hp : w'.state.pulseUntil = w.state.pulseUntil) (hc : w'.calls = w.calls) : Records m w' earlier where
  lastSent := h.lastSent.trans hl.symm
  pulseUntil := h.pulseUntil.trans hp.symm
  calls := by rw [hc]; exact h.calls

theorem drops_eq (h : Records m w earlier) (mac : Mac) (intensity : Float32) (now : Instant) :
    m.drops mac intensity now = w.state.suppresses mac intensity now := by
  unfold Motors.drops LoopState.suppresses
  rw [h.lastSent]
  cases w.state.lastSent.lookup mac <;> rfl

theorem drive (h : Records m w earlier) {mac : Mac} {intensity : Float32} {force : Bool} {now : Instant}
    (hsend : (!force && w.state.suppresses mac intensity now) = false) (cause : Cause) :
    Records (m.drive mac intensity cause now) (w.send mac intensity force now) earlier := by
  unfold World.send
  rw [hsend]
  refine ⟨?_, h.pulseUntil, ?_⟩
  · show m.lastSent.insert mac (now, intensity) = w.state.lastSent.insert mac (now, intensity)
    rw [h.lastSent]
  · show _ :: m.commands.map Command.rumble = _ :: w.calls ++ earlier
    rw [h.calls]
    rfl

theorem erasePulse (h : Records m w earlier) (mac : Mac) :
    Records { m with pulseUntil := m.pulseUntil.erase mac } (w.erasePulse mac) earlier where
  lastSent := h.lastSent
  pulseUntil := congrArg (AList.erase mac) h.pulseUntil
  calls := h.calls

theorem setPulse (h : Records m w earlier) (mac : Mac) (until_ : Instant) :
    Records { m with pulseUntil := m.pulseUntil.insert mac until_ } (w.setPulse mac until_) earlier where
  lastSent := h.lastSent
  pulseUntil := congrArg (AList.insert mac until_) h.pulseUntil
  calls := h.calls

theorem stop (h : Records m w earlier) (now : Instant) (mac : Mac) :
    Records (m.stop now mac) (w.stopMotor now mac) earlier :=
  (h.erasePulse mac).drive rfl .forcedOff

theorem act (h : Records m w earlier) (now : Instant) (action : HapticAction) :
    Records (m.act now action) (w.applyAction now action) earlier := by
  unfold Motors.act World.applyAction
  cases action.pulseMs with
  | some ms => exact (h.setPulse _ _).drive rfl _
  | none =>
    have herase := h.erasePulse action.deviceMac
    have hdrops : m.drops action.deviceMac action.intensity now =
        (w.erasePulse action.deviceMac).state.suppresses action.deviceMac action.intensity now := h.drops_eq _ _ _
    dsimp only
    by_cases hs : (w.erasePulse action.deviceMac).state.suppresses action.deviceMac action.intensity now = true
    · rw [hdrops, if_pos hs, send_of_suppresses hs]
      exact herase
    · rw [hdrops, if_neg hs]
      exact herase.drive (by simpa using hs) .value

end Records

/-- A pulse that has ended is still pending when the pulses of other devices have been ended. -/
private theorem expired_tail {m : Motors} {now : Instant} {mac : Mac} {macs : List Mac} (hnodup : (mac :: macs).Nodup)
    (hexp : ∀ mac' ∈ mac :: macs, (m.pulseUntil.lookup mac').any (· ≤ now) = true) :
    ∀ mac' ∈ macs, ((m.stop now mac).pulseUntil.lookup mac').any (· ≤ now) = true := by
  intro mac' hmac'
  have hne : mac' ≠ mac := by
    rintro rfl
    exact (List.nodup_cons.1 hnodup).1 hmac'
  show ((m.pulseUntil.erase mac).lookup mac').any (· ≤ now) = true
  rw [AList.lookup_erase_ne hne]
  exact hexp mac' (List.mem_cons_of_mem mac hmac')

theorem mem_expired_iff {st : LoopState} {now : Instant} {mac : Mac} :
    mac ∈ st.expired now ↔ (st.pulseUntil.lookup mac).any (· ≤ now) = true := by
  unfold LoopState.expired
  simp only [List.mem_map, List.mem_filter, Option.any_eq_true]
  constructor
  · rintro ⟨⟨mac', e⟩, ⟨hmem, he⟩, rfl⟩
    exact ⟨e, AList.mem_lookup_iff.2 hmem, he⟩
  · rintro ⟨e, hl, he⟩
    exact ⟨⟨mac, e⟩, ⟨AList.mem_lookup_iff.1 hl, he⟩, rfl⟩

theorem nodup_expired (st : LoopState) (now : Instant) : (st.expired now).Nodup := by
  have hkeys : (st.pulseUntil.entries.map Sigma.fst).Nodup := st.pulseUntil.nodupKeys
  exact hkeys.sublist ((List.filter_sublist).map Sigma.fst)

namespace Records

variable {m : Motors} {w w' : World} {earlier : List Rumble}

theorem actions (h : Records m w earlier) (now : Instant) (value : Float32) (matching : List HapticRule) :
    Records ((matching.map (Op.apply now · value)).foldl Motors.perform m)
      ((matching.map fun r => applyMode r.deviceMac r.mode value).foldl (World.applyAction · now) w) earlier := by
  induction matching generalizing m w with
  | nil => exact h
  | cons rule matching ih => exact ih (h.act now (applyMode rule.deviceMac rule.mode value))

theorem stops (h : Records m w earlier) (now : Instant) (macs : List Mac) :
    Records ((macs.map (Op.silence now)).foldl Motors.perform m) (macs.foldl (World.stopMotor · now) w) earlier := by
  induction macs generalizing m w with
  | nil => exact h
  | cons mac macs ih => exact ih (h.stop now mac)

/-- Pulses that have ended are ended by the loop and by the motors alike. -/
theorem expires (h : Records m w earlier) (now : Instant) {macs : List Mac} (hnodup : macs.Nodup)
    (hexp : ∀ mac ∈ macs, (m.pulseUntil.lookup mac).any (· ≤ now) = true) :
    Records ((macs.map (Op.expire now)).foldl Motors.perform m) (macs.foldl (World.stopMotor · now) w) earlier := by
  induction macs generalizing m w with
  | nil => exact h
  | cons mac macs ih =>
    have hmac : m.perform (.expire now mac) = m.stop now mac := if_pos (hexp mac List.mem_cons_self)
    rw [List.map_cons, List.foldl_cons, List.foldl_cons, hmac]
    exact ih (h.stop now mac) (List.nodup_cons.1 hnodup).2 (expired_tail hnodup hexp)

theorem silenceAll (h : Records m w earlier) (clock : Nat → Instant) :
    Records ((silenceOps clock w).foldl Motors.perform m) (w.silenceAll clock) earlier :=
  (h.frame rfl rfl rfl : Records m w.readClock earlier).stops _ _

theorem onTick (h : Records m w earlier) (clock : Nat → Instant) (now : Instant) :
    Records ((tickOps clock now w).foldl Motors.perform m) (w.onTick clock now) earlier := by
  have hexp : Records _ _ earlier := h.expires now (nodup_expired w.state now) fun mac hmac => by
    rw [h.pulseUntil]
    exact mem_expired_iff.1 hmac
  unfold tickOps World.onTick
  dsimp only
  rw [List.foldl_append]
  split
  · exact (hexp.silenceAll clock).frame rfl rfl rfl
  · exact hexp

end Records

theorem foldl_reads {β : Type*} {f : World → β → World} (hf : ∀ w b, (f w b).reads = w.reads) (bs : List β)
    (w : World) : (bs.foldl f w).reads = w.reads := by
  induction bs generalizing w with
  | nil => rfl
  | cons b bs ih => rw [List.foldl_cons, ih, hf]

theorem send_reads (w : World) (mac : Mac) (intensity : Float32) (force : Bool) (now : Instant) :
    (w.send mac intensity force now).reads = w.reads := by
  unfold World.send
  split <;> rfl

theorem applyAction_reads (now : Instant) (w : World) (action : HapticAction) :
    (w.applyAction now action).reads = w.reads := by
  unfold World.applyAction
  split
  · exact send_reads _ _ _ _ _
  · exact send_reads _ _ _ _ _

theorem discover_reads (listeners : Listeners) (w : World) (addr : String) :
    (w.discover listeners addr).reads = w.reads := by
  unfold World.discover
  split <;> rfl

/-- A message reads the clock once if it carries a value. -/
theorem handleMessage_reads (clock : Nat → Instant) (listeners : Listeners) (rules : List HapticRule) (msg : OscMessage)
    (w : World) :
    (handleMessage clock listeners rules msg w).reads = if msg.value.isSome then w.reads + 1 else w.reads := by
  have hd := discover_reads listeners w msg.addr
  unfold handleMessage OscMessage.value
  dsimp only
  cases msg.args.head?.bind oscValueToF32 with
  | none => exact hd
  | some value =>
    dsimp only
    rw [foldl_reads fun w action => applyAction_reads _ w action]
    split <;> exact congrArg (· + 1) hd

namespace Records

variable {m : Motors} {w w' : World} {earlier : List Rumble}
variable (clock : Nat → Instant) (listeners : Listeners) (rules : List HapticRule)

theorem discover (h : Records m w earlier) (addr : String) : Records m (w.discover listeners addr) earlier := by
  unfold World.discover
  split
  · exact h.frame rfl rfl rfl
  · exact h

theorem handleMessage (h : Records m w earlier) (msg : OscMessage) :
    Records ((messageOps rules (clock w.reads) msg).foldl Motors.perform m)
      (OscHaptics.handleMessage clock listeners rules msg w) earlier := by
  have hd := h.discover listeners msg.addr
  have hr := discover_reads listeners w msg.addr
  unfold messageOps OscHaptics.handleMessage OscMessage.value
  dsimp only
  cases msg.args.head?.bind oscValueToF32 with
  | none => exact hd
  | some value =>
    dsimp only
    rw [← hr]
    split
    · refine Records.actions ?_ _ value _
      exact hd.frame rfl rfl rfl
    · refine Records.actions ?_ _ value _
      exact hd.frame rfl rfl rfl

theorem handleMessages (h : Records m w earlier) (msgs : List OscMessage) :
    Records ((messagesOps clock rules w.reads msgs).foldl Motors.perform m)
      (msgs.foldl (fun w msg => OscHaptics.handleMessage clock listeners rules msg w) w) earlier := by
  induction msgs generalizing m w with
  | nil => exact h
  | cons msg msgs ih =>
    rw [messagesOps, List.foldl_append, List.foldl_cons, ← handleMessage_reads clock listeners rules msg w]
    exact ih (h.handleMessage clock listeners rules msg)

/-- Every turn of the serve loop does to the records and commands what its operations do to the motors. -/
theorem serveTurn {decodeUdp : List UInt8 → Option OscPacket} {config : Watch HapticConfig} {seen : Nat} {recv : Recv}
    {exit : Option ServeExit} (h : Records m w earlier)
    (ht : OscHaptics.serveTurn clock listeners rules decodeUdp config seen recv w = some (exit, w')) :
    Records ((serveOps clock rules decodeUdp config seen recv w).foldl Motors.perform m) w' earlier := by
  have hr : Records m w.readClock earlier := h.frame rfl rfl rfl
  unfold serveOps
  cases serveTurn_inv ht with
  | rebind hconfig =>
    rw [hconfig]
    exact hr
  | shutdown hconfig =>
    rw [hconfig]
    exact hr.silenceAll clock
  | datagram hconfig bytes =>
    rw [hconfig]
    unfold OscHaptics.onDatagram
    dsimp only
    cases decodeUdp (bytes.take RECV_BUFFER) with
    | none => exact hr.frame rfl rfl rfl
    | some packet =>
      let received := { w.readClock.readClock with
        state := { w.state with lastPacket := clock w.readClock.reads, idleSilenced := false } }
      have hreceived : Records m received earlier := hr.frame rfl rfl rfl
      dsimp only
      rw [handlePacket_eq_foldl]
      exact hreceived.handleMessages clock listeners rules packet.messages
  | error hconfig =>
    rw [hconfig]
    exact hr
  | tick hconfig hlate =>
    have hrr : Records m w.readClock.readClock earlier := hr.frame rfl rfl rfl
    rw [hconfig]
    exact hrr.onTick clock _

end Records

/-! ### Runs -/

/-- The bridge with the operations of its run so far, newest first. -/
structure Traced where
  bridge : BridgeState
  ops : List Op

/-- The loop that runs. -/
def BridgeState.loop (s : BridgeState) : Option World :=
  match s.phase with
  | .serving _ w => some w
  | _ => none

/-- The commands of the bridge, over all of its loops. -/
def BridgeState.calls (s : BridgeState) : List Rumble :=
  (s.loop.map (·.calls)).getD [] ++ s.returns.flatMap (·.after.calls)

/-- The commands to a device, newest first. -/
def BridgeState.callsTo (s : BridgeState) (mac : Mac) : List Rumble := s.calls.filter (·.mac = mac)

section Traced

variable (clock : Nat → Instant) (listeners : Listeners) (decodeUdp : List UInt8 → Option OscPacket)

def Traced.start (config : HapticConfig) : Traced := ⟨.start config, []⟩

def tracedStep (r : Traced) (a : BridgeAction) : Option Traced :=
  (bridgeStep clock listeners decodeUdp r.bridge a).map fun s =>
    ⟨s, (bridgeOps clock decodeUdp r.bridge a).reverse ++ r.ops⟩

variable {clock listeners decodeUdp}

theorem tracedStep_some {r r' : Traced} {a : BridgeAction} (h : tracedStep clock listeners decodeUdp r a = some r') :
    bridgeStep clock listeners decodeUdp r.bridge a = some r'.bridge ∧
      motorsOf r'.ops = (bridgeOps clock decodeUdp r.bridge a).foldl Motors.perform (motorsOf r.ops) := by
  obtain ⟨s, hs, rfl⟩ := Option.map_eq_some_iff.1 h
  exact ⟨hs, motorsOf_append _ _⟩

/-- The trace does not change what the bridge does. -/
theorem bridge_reaches {ok : Traced → BridgeAction → Prop} {config : HapticConfig} {r : Traced}
    (h : Reaches (tracedStep clock listeners decodeUdp) ok (.start config) r) :
    Reaches (bridgeStep clock listeners decodeUdp) Always (.start config) r.bridge :=
  h.invariant (I := fun r => Reaches (bridgeStep clock listeners decodeUdp) Always (.start config) r.bridge)
    (Reaches.refl _ _ _) fun _ _ _ hr _ hs => hr.tail trivial (tracedStep_some hs).1

/-- The motors have the records of the loop that runs and have sent the commands of the bridge. -/
structure TracedInvariant (r : Traced) : Prop where
  calls : (motorsOf r.ops).commands.map Command.rumble = r.bridge.calls
  serving : ∀ rules w, r.bridge.phase = .serving rules w →
    Records (motorsOf r.ops) w (r.bridge.returns.flatMap (·.after.calls))

theorem BridgeState.loop_eq_some_iff {s : BridgeState} {w : World} :
    s.loop = some w ↔ ∃ rules, s.phase = .serving rules w := by
  unfold BridgeState.loop
  constructor
  · intro h
    split at h
    · rename_i rules w' hp
      obtain rfl := Option.some.inj h
      exact ⟨rules, hp⟩
    · cases h
  · rintro ⟨rules, hp⟩
    rw [hp]

/-- Outside of the loop only the commands of the loops that have returned count. -/
theorem BridgeState.calls_of_not_serving {s : BridgeState} (h : ∀ rules w, s.phase ≠ .serving rules w) :
    s.calls = s.returns.flatMap (·.after.calls) := by
  have hloop : s.loop = none := by
    rw [Option.eq_none_iff_forall_ne_some]
    intro w hw
    obtain ⟨rules, hp⟩ := BridgeState.loop_eq_some_iff.1 hw
    exact h rules w hp
  unfold BridgeState.calls
  rw [hloop]
  rfl

theorem bridgeOps_turn {s : BridgeState} {rules : List HapticRule} {w : World} {recv : Recv}
    (hp : s.phase = .serving rules w) :
    bridgeOps clock decodeUdp s (.turn recv) = serveOps clock rules decodeUdp s.config s.seen recv w := by
  unfold bridgeOps
  rw [hp]

private theorem waits_ne_serving {s : BridgeState} (h : s.phase = .idle ∨ s.phase = .bindFailed)
    (rules : List HapticRule)
    (w : World) : s.phase ≠ .serving rules w := by
  intro hp
  rcases h with hidle | hfailed
  · cases hidle.symm.trans hp
  · cases hfailed.symm.trans hp

namespace TracedInvariant

variable {r : Traced} {s : BridgeState}

/-- A step without operations that does not touch the loop. -/
private theorem frame (h : TracedInvariant r) (hp : s.phase = r.bridge.phase) (hr : s.returns = r.bridge.returns) :
    TracedInvariant ⟨s, r.ops⟩ where
  calls := by
    show _ = s.calls
    unfold BridgeState.calls BridgeState.loop
    rw [hp, hr]
    exact h.calls
  serving := by
    rintro rules w hs
    dsimp only
    rw [hr]
    exact h.serving rules w (hp.symm.trans hs)

/-- A step without operations from outside of the loop to outside of it. -/
private theorem outside (h : TracedInvariant r) (hp : ∀ rules w, r.bridge.phase ≠ .serving rules w)
    (hp' : ∀ rules w, s.phase ≠ .serving rules w) (hr : s.returns = r.bridge.returns) :
    TracedInvariant ⟨s, r.ops⟩ where
  calls := by
    show _ = s.calls
    rw [BridgeState.calls_of_not_serving hp', hr, ← BridgeState.calls_of_not_serving hp]
    exact h.calls
  serving := fun rules w hs => absurd hs (hp' rules w)

/-- Every step of the bridge keeps the motors in line with it. -/
theorem step {r' : Traced} {a : BridgeAction} (h : TracedInvariant r)
    (htraced : tracedStep clock listeners decodeUdp r a = some r') : TracedInvariant r' := by
  obtain ⟨s, hs, rfl⟩ := Option.map_eq_some_iff.1 htraced
  cases bridgeStep_inv hs with
  | replace config hopen => exact h.frame rfl rfl
  | dropSender => exact h.frame rfl rfl
  | loopTop hp =>
    refine h.outside (fun _ _ hphase => by rw [hp] at hphase; cases hphase) (fun _ _ hphase => ?_) rfl
    dsimp only at hphase
    split at hphase <;> cases hphase
  | @bound port hp =>
    have hops : bridgeOps clock decodeUdp r.bridge (.bind true) = [.bind] := by
      unfold bridgeOps
      rw [hp]
    have hcalls := h.calls
    rw [BridgeState.calls_of_not_serving fun _ _ hphase => by rw [hp] at hphase; cases hphase] at hcalls
    rw [hops]
    refine ⟨hcalls, ?_⟩
    rintro rules w hphase
    cases hphase
    exact ⟨rfl, rfl, hcalls⟩
  | bindFailed hp =>
    exact h.outside (fun _ _ hphase => by rw [hp] at hphase; cases hphase) (fun _ _ hphase => by cases hphase) rfl
  | woken hp hconfig => exact h.outside (waits_ne_serving hp) (fun _ _ hphase => by cases hphase) rfl
  | abandoned hp hconfig => exact h.outside (waits_ne_serving hp) (fun _ _ hphase => by cases hphase) rfl
  | @served rules w w' recv hp ht =>
    have hrec := (h.serving rules w hp).serveTurn clock listeners rules ht
    rw [← motorsOf_append] at hrec
    rw [bridgeOps_turn hp]
    refine ⟨hrec.calls, ?_⟩
    rintro rules' w'' hphase
    cases hphase
    exact hrec
  | @left rules w w' recv exit hp ht =>
    have hrec := (h.serving rules w hp).serveTurn clock listeners rules ht
    rw [← motorsOf_append] at hrec
    rw [bridgeOps_turn hp]
    refine ⟨?_, fun rules' w'' hphase => absurd hphase (exit.phase_ne_serving rules' w'')⟩
    rw [BridgeState.calls_of_not_serving exit.phase_ne_serving]
    exact hrec.calls

theorem callsTo (h : TracedInvariant r) (mac : Mac) : r.bridge.callsTo mac = (motorsOf r.ops).callsTo mac := by
  unfold BridgeState.callsTo Motors.callsTo
  rw [h.calls]

end TracedInvariant

/-- The invariant holds of every run of the bridge. -/
theorem traced_invariant {ok : Traced → BridgeAction → Prop} {config : HapticConfig} {r : Traced}
    (h : Reaches (tracedStep clock listeners decodeUdp) ok (.start config) r) : TracedInvariant r :=
  h.invariant ⟨rfl, fun _ _ h => by cases h⟩ fun _ _ _ hi _ hs => hi.step hs

end Traced

/-! ### Messages with one float -/

/-- The datagram of the message `/c x`, for a letter `c` and the bytes of `x`. -/
def floatDatagram (c : UInt8) (x : UInt8 × UInt8 × UInt8 × UInt8) : List UInt8 :=
  [0x2F, c, 0, 0, 0x2C, 0x66, 0, 0, x.1, x.2.1, x.2.2.1, x.2.2.2]

def decodeFloat : List UInt8 → Option OscPacket
  | [0x2F, c, 0, 0, 0x2C, 0x66, 0, 0, x₃, x₂, x₁, x₀] =>
    let bits := ((x₃.toUInt32 * 256 + x₂.toUInt32) * 256 + x₁.toUInt32) * 256 + x₀.toUInt32
    some (.message ⟨String.ofList ['/', Char.ofNat c.toNat], [.float (Float32.ofBits bits)]⟩)
  | _ => none

/-- A run that starts with a bound socket and has the letters and values of its messages, one a turn. -/
def floatTurns (msgs : List (UInt8 × UInt8 × UInt8 × UInt8 × UInt8)) : List BridgeAction :=
  [.loopTop, .bind true] ++ msgs.map fun msg => .turn (.datagram (floatDatagram msg.1 msg.2))

end EverythingImu.OscHaptics
