import EverythingImu.Library.StepRun
import EverythingImu.OscHaptics.Listener

/-!
# Runs of the haptic bridge

`run_bridge_with_sniffer` (`listener.rs`) as a state machine: the config sender may replace the config or go away at
any time, and the bridge task goes from one wait to the next.  Every return of `serve` is recorded with the world
before and after its last turn.

When the sender is gone `serve` silences every running motor before it returns; when the config was replaced it
returns at once and its record of the running motors is lost (`serveReturn_motorsOff_iff`).
-/

namespace EverythingImu.OscHaptics

open Channel StepRun

/-- What the bridge task waits for. -/
inductive Phase where
  | top
  /-- Disabled: waits for the config to change. -/
  | idle
  | binding (listenPort : UInt16)
  /-- The bind failed: waits for the config to change. -/
  | bindFailed
  | serving (rules : List HapticRule) (w : World)
  | returned

/-- A return of `serve`: the config channel and the world before its last turn, and the outcome of that turn. -/
structure ServeReturn where
  config : Watch HapticConfig
  seen : Nat
  before : World
  exit : ServeExit
  after : World

structure BridgeState where
  config : Watch HapticConfig
  /-- The version of the config that the bridge's receiver has seen. -/
  seen : Nat
  phase : Phase
  reads : Nat
  returns : List ServeReturn

def BridgeState.start (config : HapticConfig) : BridgeState := ⟨Watch.channel config, 0, .top, 0, []⟩

inductive BridgeAction where
  /-- The config sender replaces the config. -/
  | replace (config : HapticConfig)
  /-- The config sender is dropped. -/
  | dropSender
  /-- The bridge task reads the config at the top of its loop. -/
  | loopTop
  /-- The bind of the socket ends. -/
  | bind (ok : Bool)
  /-- The wait for a config change ends. -/
  | wake
  /-- One turn of `serve`. -/
  | turn (recv : Recv)

section Bridge

variable (clock : Nat → Instant) (listeners : Listeners) (decodeUdp : List UInt8 → Option OscPacket)

/-- The wait for a config change. -/
def BridgeState.wake (s : BridgeState) : Option BridgeState :=
  match s.config.changed s.seen with
  | .pending => none
  | .ready true => some { s with seen := s.config.version, phase := .top }
  | .ready false => some { s with phase := .returned }

/-- One turn of `serve`, and what the bridge does when it returns. -/
def BridgeState.turn (s : BridgeState) (rules : List HapticRule) (w : World) (recv : Recv) : Option BridgeState :=
  match serveTurn clock listeners rules decodeUdp s.config s.seen recv w with
  | none => none
  | some (none, w') => some { s with phase := .serving rules w' }
  | some (some exit, w') =>
    some { s with
      seen := s.config.version
      phase := match exit with | .shutdown => .returned | .rebind => .top
      reads := w'.reads
      returns := ⟨s.config, s.seen, w, exit, w'⟩ :: s.returns }

def bridgeStep (s : BridgeState) : BridgeAction → Option BridgeState
  | .replace config => if s.config.closed then none else some { s with config := s.config.send config }
  | .dropSender => some { s with config := s.config.dropSenders }
  | .loopTop =>
    match s.phase with
    | .top =>
      let config := s.config.value
      some { s with
        seen := s.config.version
        phase := if config.enabled then .binding config.listenPort else .idle }
    | _ => none
  | .bind ok =>
    match s.phase with
    | .binding _ =>
      -- `serve` takes its rules from the config of this moment, which may be newer than the one that was seen
      if ok then
        some { s with
          phase := .serving s.config.value.rules ⟨.new (clock s.reads), s.reads + 1, [], [], []⟩ }
      else some { s with phase := .bindFailed }
    | _ => none
  | .wake =>
    match s.phase with
    | .idle => s.wake
    | .bindFailed => s.wake
    | _ => none
  | .turn recv =>
    match s.phase with
    | .serving rules w => s.turn clock listeners decodeUdp rules w recv
    | _ => none

/-- Where the bridge goes when `serve` returns. -/
def ServeExit.phase : ServeExit → Phase
  | .shutdown => .returned
  | .rebind => .top

theorem ServeExit.phase_ne_serving (exit : ServeExit) (rules : List HapticRule) (w : World) :
    exit.phase ≠ .serving rules w := by
  cases exit <;> nofun

/-- The steps, with what each needs and does. -/
inductive BridgeStep (s : BridgeState) : BridgeAction → BridgeState → Prop
  | replace (config : HapticConfig) (hopen : s.config.closed = false) :
    BridgeStep s (.replace config) { s with config := s.config.send config }
  | dropSender : BridgeStep s .dropSender { s with config := s.config.dropSenders }
  | loopTop (hp : s.phase = .top) :
    BridgeStep s .loopTop { s with
      seen := s.config.version
      phase := if s.config.value.enabled then .binding s.config.value.listenPort else .idle }
  | bound {port : UInt16} (hp : s.phase = .binding port) :
    BridgeStep s (.bind true) { s with
      phase := .serving s.config.value.rules ⟨.new (clock s.reads), s.reads + 1, [], [], []⟩ }
  | bindFailed {port : UInt16} (hp : s.phase = .binding port) :
    BridgeStep s (.bind false) { s with phase := .bindFailed }
  | woken (hp : s.phase = .idle ∨ s.phase = .bindFailed) (hconfig : s.config.changed s.seen = .ready true) :
    BridgeStep s .wake { s with seen := s.config.version, phase := .top }
  | abandoned (hp : s.phase = .idle ∨ s.phase = .bindFailed) (hconfig : s.config.changed s.seen = .ready false) :
    BridgeStep s .wake { s with phase := .returned }
  | served {rules : List HapticRule} {w w' : World} {recv : Recv} (hp : s.phase = .serving rules w)
    (ht : serveTurn clock listeners rules decodeUdp s.config s.seen recv w = some (none, w')) :
    BridgeStep s (.turn recv) { s with phase := .serving rules w' }
  | left {rules : List HapticRule} {w w' : World} {recv : Recv} {exit : ServeExit} (hp : s.phase = .serving rules w)
    (ht : serveTurn clock listeners rules decodeUdp s.config s.seen recv w = some (some exit, w')) :
    BridgeStep s (.turn recv) { s with
      seen := s.config.version
      phase := exit.phase
      reads := w'.reads
      returns := ⟨s.config, s.seen, w, exit, w'⟩ :: s.returns }

variable {clock listeners decodeUdp} in
private theorem BridgeState.wake_inv {s s' : BridgeState} (hp : s.phase = .idle ∨ s.phase = .bindFailed)
    (h : s.wake = some s') : BridgeStep clock listeners decodeUdp s .wake s' := by
  unfold BridgeState.wake at h
  split at h
  · cases h
  · rename_i hconfig
    cases h
    exact .woken hp hconfig
  · rename_i hconfig
    cases h
    exact .abandoned hp hconfig

variable {clock listeners decodeUdp} in
private theorem BridgeState.turn_inv {s s' : BridgeState} {rules : List HapticRule} {w : World} {recv : Recv}
    (hp : s.phase = .serving rules w) (h : s.turn clock listeners decodeUdp rules w recv = some s') :
    BridgeStep clock listeners decodeUdp s (.turn recv) s' := by
  unfold BridgeState.turn at h
  split at h
  · cases h
  · rename_i ht
    cases h
    exact .served hp ht
  · rename_i ht
    cases h
    exact .left hp ht

variable {clock listeners decodeUdp} in
theorem bridgeStep_inv {s s' : BridgeState} {a : BridgeAction}
    (h : bridgeStep clock listeners decodeUdp s a = some s') :
    BridgeStep clock listeners decodeUdp s a s' := by
  cases a with
  | replace config =>
    simp only [bridgeStep] at h
    split at h
    · cases h
    · rename_i hopen
      cases h
      exact .replace config (Bool.eq_false_iff.2 hopen)
  | dropSender =>
    cases h
    exact .dropSender
  | loopTop =>
    simp only [bridgeStep] at h
    split at h
    · rename_i hp
      cases h
      exact .loopTop hp
    · cases h
  | bind ok =>
    simp only [bridgeStep] at h
    split at h
    · rename_i port hp
      cases ok with
      | false =>
        cases h
        exact .bindFailed hp
      | true =>
        cases h
        exact .bound hp
    · cases h
  | wake =>
    simp only [bridgeStep] at h
    split at h
    · rename_i hp
      exact BridgeState.wake_inv (Or.inl hp) h
    · rename_i hp
      exact BridgeState.wake_inv (Or.inr hp) h
    · cases h
  | turn recv =>
    simp only [bridgeStep] at h
    split at h
    · rename_i rules w hp
      exact BridgeState.turn_inv hp h
    · cases h

/-! ### What a return of `serve` is -/

/-- The world when `serve` returns: silenced if the sender is gone, as it was if the config was replaced. -/
def ServeReturn.Outcome (r : ServeReturn) : Prop :=
  (r.config.version = r.seen ∧ r.after = r.before.readClock.silenceAll clock) ∨
    (r.config.version ≠ r.seen ∧ r.after = r.before.readClock)

/-- What holds of every reachable bridge state: the record of the running motors is right, while `serve` runs and at
each of its returns. -/
structure BridgeInvariant (s : BridgeState) : Prop where
  serving : ∀ rules w, s.phase = .serving rules w → Synced w
  returns : ∀ r ∈ s.returns, Synced r.before ∧ r.Outcome clock

theorem bridgeInvariant_start (config : HapticConfig) : BridgeInvariant clock (BridgeState.start config) where
  serving := by
    rintro rules w h
    cases h
  returns := by
    intro r h
    cases h

variable {clock listeners decodeUdp}

theorem serveTurn_exit {rules : List HapticRule} {config : Watch HapticConfig} {seen : Nat} {recv : Recv}
    {w w' : World} {exit : ServeExit}
    (h : serveTurn clock listeners rules decodeUdp config seen recv w = some (some exit, w')) :
    (config.version = seen ∧ w' = w.readClock.silenceAll clock) ∨ (config.version ≠ seen ∧ w' = w.readClock) := by
  cases serveTurn_inv h with
  | rebind hconfig => exact Or.inr ⟨Watch.changed_ready_true_iff.1 hconfig, rfl⟩
  | shutdown hconfig =>
    refine Or.inl ⟨?_, rfl⟩
    by_contra hne
    rw [Watch.changed_ready_true_iff.2 hne] at hconfig
    cases hconfig

private theorem BridgeInvariant.frame {s s' : BridgeState} (h : BridgeInvariant clock s)
    (hp : ∀ rules w, s'.phase ≠ .serving rules w) (hr : s'.returns = s.returns) : BridgeInvariant clock s' where
  serving := fun rules w hs => absurd hs (hp rules w)
  returns := by
    rw [hr]
    exact h.returns

/-- Every step of the bridge keeps the invariant. -/
theorem BridgeInvariant.step {s s' : BridgeState} {a : BridgeAction} (h : BridgeInvariant clock s)
    (hs : bridgeStep clock listeners decodeUdp s a = some s') : BridgeInvariant clock s' := by
  cases bridgeStep_inv hs with
  | replace config hopen => exact ⟨h.serving, h.returns⟩
  | dropSender => exact ⟨h.serving, h.returns⟩
  | loopTop hp =>
    refine h.frame (fun _ _ hphase => ?_) rfl
    dsimp only at hphase
    split at hphase <;> cases hphase
  | bound hp =>
    refine ⟨?_, h.returns⟩
    rintro rules w hphase
    cases hphase
    intro mac
    rfl
  | bindFailed hp => exact h.frame (fun _ _ hphase => by cases hphase) rfl
  | woken hp hconfig => exact h.frame (fun _ _ hphase => by cases hphase) rfl
  | abandoned hp hconfig => exact h.frame (fun _ _ hphase => by cases hphase) rfl
  | @served rules w w' recv hp ht =>
    refine ⟨?_, h.returns⟩
    rintro rules' w'' hphase
    cases hphase
    exact synced_sendInvariant.serveTurn clock listeners rules (h.serving rules w hp) ht
  | @left rules w w' recv exit hp ht =>
    refine ⟨?_, ?_⟩
    · intro rules' w'' hphase
      exact absurd hphase (exit.phase_ne_serving rules' w'')
    · intro r hr
      rcases List.mem_cons.1 hr with rfl | hr
      · exact ⟨h.serving rules w hp, serveTurn_exit ht⟩
      · exact h.returns r hr

/-- The invariant holds of every state that a run of the bridge reaches. -/
theorem bridgeInvariant_of_reaches {config : HapticConfig} {s : BridgeState}
    (h : Reaches (bridgeStep clock listeners decodeUdp) Always (BridgeState.start config) s) :
    BridgeInvariant clock s :=
  h.invariant (bridgeInvariant_start clock config) fun _ _ _ hi _ hs => hi.step hs

/-! ### Motors at the return of `serve` -/

/-- No device's last command is above 0. -/
def MotorsOff (w : World) : Prop := ∀ mac c, w.lastCall mac = some c → ¬ c.intensity > 0.0

theorem motorsOff_iff_active {w : World} (h : Synced w) : MotorsOff w ↔ w.state.active = [] := by
  rw [List.eq_nil_iff_forall_not_mem]
  constructor
  · intro hoff mac hmac
    obtain ⟨sent, hl, hpos⟩ := mem_active_iff.1 hmac
    rw [h mac] at hl
    obtain ⟨c, hc, rfl⟩ := Option.map_eq_some_iff.1 hl
    exact hoff mac c hc hpos
  · intro hact mac c hc hpos
    refine hact mac (mem_active_iff.2 ⟨(c.time, c.intensity), ?_, hpos⟩)
    rw [h mac, hc]
    rfl

/-- At a return of `serve` every motor is off exactly when the return is for a lost config sender, or no device had a
last value above 0 before it. -/
theorem serveReturn_motorsOff_iff {config : HapticConfig} {s : BridgeState}
    (h : Reaches (bridgeStep clock listeners decodeUdp) Always (BridgeState.start config) s)
    {r : ServeReturn} (hr : r ∈ s.returns) :
    MotorsOff r.after ↔ r.config.version = r.seen ∨ r.before.state.active = [] := by
  obtain ⟨hsync, hout⟩ := (bridgeInvariant_of_reaches h).returns r hr
  have hread : Synced r.before.readClock := synced_sendInvariant.frame hsync rfl rfl
  rcases hout with ⟨hv, ha⟩ | ⟨hv, ha⟩
  · rw [ha, motorsOff_iff_active (synced_sendInvariant.silenceAll clock _ hread), silenceAll_active]
    simp [hv]
  · rw [ha, motorsOff_iff_active hread]
    simp [hv, World.readClock]

end Bridge

def touchMac : Mac := #v[0x02, 0, 0, 0, 0, 0x99]

/-- One proximity rule on the address `/a`. -/
def touchConfig : HapticConfig := ⟨true, DEFAULT_OSC_PORT, [⟨"/a", touchMac, .proximity 1.0 0.05⟩]⟩

/-- The datagram of the message `/a 0.8`. -/
def touchDatagram : List UInt8 := [0x2F, 0x61, 0, 0, 0x2C, 0x66, 0, 0, 0x3F, 0x4C, 0xCC, 0xCD]

def decodeTouch (bytes : List UInt8) : Option OscPacket :=
  if bytes = touchDatagram then some (.message ⟨"/a", [.float 0.8]⟩) else none

/-- A touch, then `ending`, then the turn of `serve` that sees it. -/
def touchRun (ending : BridgeAction) : Option BridgeState :=
  exec (bridgeStep (fun n => n * 20_000_000) ⟨false, false⟩ decodeTouch) (BridgeState.start touchConfig)
    [.loopTop, .bind true, .turn (.datagram touchDatagram), ending, .turn .pending]

/-- When the config sender is dropped after a touch, the motor is commanded 0 before `serve` returns. -/
theorem serve_shutdown_silences :
    ∃ s, touchRun .dropSender = some s ∧ ∃ r ∈ s.returns, r.exit = .shutdown ∧ MotorsOff r.after := by
  have hsome : (touchRun .dropSender).isSome = true := by decide +kernel
  obtain ⟨s, hs⟩ := Option.isSome_iff_exists.1 hsome
  have hret : (touchRun .dropSender).map (fun s => s.returns.map fun r => (r.config.version, r.seen, r.exit)) =
      some [(0, 0, .shutdown)] := by decide +kernel
  rw [hs, Option.map_some, Option.some.injEq] at hret
  obtain ⟨r, hr, hfields⟩ := List.mem_map.1 (hret ▸ List.mem_singleton_self _)
  simp only [Prod.mk.injEq] at hfields
  refine ⟨s, hs, r, hr, hfields.2.2, ?_⟩
  exact (serveReturn_motorsOff_iff (Reaches.of_run _ hs) hr).2 (Or.inl (hfields.1.trans hfields.2.1.symm))

/-- When the config is replaced by a disabled one after a touch, `serve` returns with the motor still running. -/
theorem serve_rebind_leaves_motor_running :
    ∃ s, touchRun (.replace { touchConfig with enabled := false }) = some s ∧
      ∃ r ∈ s.returns, r.exit = .rebind ∧ (r.after.lastCall touchMac).map (·.intensity) = some 0.8 ∧
        ¬ MotorsOff r.after := by
  have hsome : (touchRun (.replace { touchConfig with enabled := false })).isSome = true := by decide +kernel
  obtain ⟨s, hs⟩ := Option.isSome_iff_exists.1 hsome
  have hret : (touchRun (.replace { touchConfig with enabled := false })).map
      (fun s => s.returns.map fun r => (r.exit, (r.after.lastCall touchMac).map (·.intensity))) =
      some [(.rebind, some 0.8)] := by decide +kernel
  rw [hs, Option.map_some, Option.some.injEq] at hret
  obtain ⟨r, hr, hfields⟩ := List.mem_map.1 (hret ▸ List.mem_singleton_self _)
  simp only [Prod.mk.injEq] at hfields
  refine ⟨s, hs, r, hr, hfields.1, hfields.2, fun hoff => ?_⟩
  obtain ⟨c, hc, hint⟩ := Option.map_eq_some_iff.1 hfields.2
  have hpos : (0.8 : Float32) > 0.0 := by decide +kernel
  exact hoff touchMac c hc (hint ▸ hpos)

end EverythingImu.OscHaptics
