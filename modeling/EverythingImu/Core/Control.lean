import EverythingImu.Core.HeldHandles
import EverythingImu.Core.Supervisor
import Mathlib

/-!
# Commands, stops and registrations

What the supervisor and the control tasks do in every run of `EverythingImu.Core.Supervisor`, whatever the registry, the
factories and the callers do in between.

* A driver sees its start, then the commands that its channel took, each once and in order, then at most one stop, and
  the stop only when every command is done and no sender is left (`driver_calls_of_accepted`).
* A call that has found its device is never refused (`found_call_not_refused`).
* Left alone, the control tasks come to rest after a bounded number of steps, and the devices that are stopped then are
  those whose handles are held nowhere (`control_settles`).
* The devices are started in the order of their discovery, and those that have started are registered in that order
  (`registrations_of_discovered`).
-/

namespace EverythingImu.Core

open Channel StepRun

variable {F : Type}

/-! ### The steps -/

/-- The steps of the control tasks and the waiting calls, with what each needs and does. -/
inductive ControlStep (s : System F) : ControlAction → System F → Prop
  | deliver {i : Nat} {p : PendingSend} {c : Control} (hp : s.sends[i]? = some p)
    (hc : s.controls[p.registration]? = some c) (hopen : c.task ≠ .ended) (hroom : c.queue.length < CHANNEL_CAPACITY) :
    ControlStep s (.deliver i)
      { s.modifyControl p.registration (Control.accept p.cmd) with sends := s.sends.eraseIdx i }
  | refuse {i : Nat} {p : PendingSend} {c : Control} (hp : s.sends[i]? = some p)
    (hc : s.controls[p.registration]? = some c) (hend : c.task = .ended) :
    ControlStep s (.refuse i) { s with sends := s.sends.eraseIdx i }
  | receive {n : Nat} {c : Control} {cmd : DeviceControl} {rest : List DeviceControl} (hc : s.controls[n]? = some c)
    (ht : c.task = .receiving) (hq : c.queue = cmd :: rest) :
    ControlStep s (.receive n) (s.modifyControl n (Control.execute cmd rest))
  | returned {n : Nat} {c : Control} (hc : s.controls[n]? = some c) (ht : c.task = .executing) :
    ControlStep s (.returned n) (s.modifyControl n (Control.setTask .receiving))
  | stopDevice {n : Nat} {c : Control} (hc : s.controls[n]? = some c) (ht : c.task = .receiving) (hq : c.queue = [])
    (hgone : s.sendersGone n = true) : ControlStep s (.stopDevice n) (s.modifyControl n Control.stopDevice)
  | taskEnds {n : Nat} {c : Control} (hc : s.controls[n]? = some c) (ht : c.task = .stopping) :
    ControlStep s (.taskEnds n) (s.modifyControl n (Control.setTask .ended))

theorem controlStep_inv {s s' : System F} {a : ControlAction} (h : controlStep s a = some s') : ControlStep s a s' := by
  cases a with
  | deliver i =>
    obtain ⟨p, hp, h⟩ := Option.bind_eq_some_iff.1 h
    obtain ⟨c, hc, h⟩ := Option.bind_eq_some_iff.1 h
    split at h
    · rename_i hok
      obtain rfl := Option.some.inj h
      exact .deliver hp hc hok.1 hok.2
    · cases h
  | refuse i =>
    obtain ⟨p, hp, h⟩ := Option.bind_eq_some_iff.1 h
    obtain ⟨c, hc, h⟩ := Option.bind_eq_some_iff.1 h
    split at h
    · obtain rfl := Option.some.inj h
      exact .refuse hp hc ‹_›
    · cases h
  | receive n =>
    obtain ⟨c, hc, h⟩ := Option.bind_eq_some_iff.1 h
    split at h
    · obtain rfl := Option.some.inj h
      exact .receive hc ‹_› ‹_›
    · cases h
  | returned n =>
    obtain ⟨c, hc, h⟩ := Option.bind_eq_some_iff.1 h
    split at h
    · obtain rfl := Option.some.inj h
      exact .returned hc ‹_›
    · cases h
  | stopDevice n =>
    obtain ⟨c, hc, h⟩ := Option.bind_eq_some_iff.1 h
    split at h
    · rename_i hok
      obtain rfl := Option.some.inj h
      exact .stopDevice hc hok.1 hok.2.1 hok.2.2
    · cases h
  | taskEnds n =>
    obtain ⟨c, hc, h⟩ := Option.bind_eq_some_iff.1 h
    split at h
    · obtain rfl := Option.some.inj h
      exact .taskEnds hc ‹_›
    · cases h

/-- The metadata of the devices that the supervisor holds: one that is starting, and one that has started and has no
registration yet. -/
def SupervisorState.inHand : SupervisorState → List DeviceMetadata
  | .starting metadata => [metadata]
  | _ => []

def SupervisorState.unregistered : SupervisorState → List DeviceMetadata
  | .started metadata => [metadata]
  | _ => []

section Steps

variable [OrientationFilter F] {calibrate : List Mag → Option MagCalibration}

variable (calibrate) in
/-- The steps of the system, with what each needs and does. -/
inductive SystemStep (s : System F) : SystemAction → System F → Prop
  | discover (metadata : DeviceMetadata) :
    SystemStep s (.discover metadata)
      { s with discovered := s.discovered.send metadata, announced := s.announced ++ [metadata] }
  | factoriesExited : SystemStep s .factoriesExited { s with discovered := s.discovered.dropSenders }
  | next {metadata : DeviceMetadata} (hsup : s.supervisor = .waiting)
    (hrecv : s.discovered.recv = .ready (some metadata)) :
    SystemStep s .next { s with discovered := s.discovered.pop, supervisor := .starting metadata }
  | finish (hsup : s.supervisor = .waiting) : SystemStep s .next { s with supervisor := .finished }
  | startFailed {metadata : DeviceMetadata} (hsup : s.supervisor = .starting metadata) :
    SystemStep s .startFailed { s with supervisor := .waiting, attempts := s.attempts ++ [⟨metadata, none⟩] }
  | started (metadata : DeviceMetadata) {before : DeviceMetadata} (hsup : s.supervisor = .starting before) :
    SystemStep s (.started metadata)
      { s with
        supervisor := .started metadata
        controls := s.controls ++ [.spawned]
        attempts := s.attempts ++ [⟨before, some metadata⟩] }
  | app {a : AppAction} {supervisor : SupervisorState} {app : AppState F}
    (hsup : s.supervisor.registers s.app.devices.slots.length a = some supervisor)
    (happ : appStep calibrate s.app a = some app) : SystemStep s (.app a) { s with app, supervisor }
  | call {n : Nat} {r : Registration F} (cmd : DeviceControl) (hr : s.app.devices.slot n = some r)
    (hcur : s.app.devices.current r.metadata.id = some n) :
    SystemStep s (.call r.metadata.id.mac n cmd) { s with sends := s.sends ++ [⟨n, cmd⟩] }
  | abandon (i : Nat) : SystemStep s (.abandon i) { s with sends := s.sends.eraseIdx i }
  | control {a : ControlAction} {s' : System F} (hs : ControlStep s a s') : SystemStep s (.control a) s'

theorem systemStep_inv {s s' : System F} {a : SystemAction} (h : systemStep calibrate s a = some s') :
    SystemStep calibrate s a s' := by
  cases a with
  | discover metadata =>
    simp only [systemStep] at h
    split at h
    · obtain rfl := Option.some.inj h
      exact .discover metadata
    · cases h
  | factoriesExited =>
    obtain rfl := Option.some.inj h
    exact .factoriesExited
  | next =>
    simp only [systemStep] at h
    split at h
    · obtain rfl := Option.some.inj h
      exact .next ‹_› ‹_›
    · obtain rfl := Option.some.inj h
      exact .finish ‹_›
    · cases h
  | startFailed =>
    simp only [systemStep] at h
    split at h
    · obtain rfl := Option.some.inj h
      exact .startFailed ‹_›
    · cases h
  | started metadata =>
    simp only [systemStep] at h
    split at h
    · obtain rfl := Option.some.inj h
      exact .started metadata ‹_›
    · cases h
  | app a =>
    obtain ⟨supervisor, hsup, h⟩ := Option.bind_eq_some_iff.1 h
    obtain ⟨app, happ, h⟩ := Option.bind_eq_some_iff.1 h
    obtain rfl := Option.some.inj h
    exact .app hsup happ
  | call mac n cmd =>
    obtain ⟨r, hr, h⟩ := Option.bind_eq_some_iff.1 h
    split at h
    · rename_i hok
      obtain ⟨hcur, hmac⟩ := hok
      obtain rfl := Option.some.inj h
      exact hmac ▸ .call cmd hr hcur
    · cases h
  | abandon i =>
    simp only [systemStep] at h
    split at h
    · obtain rfl := Option.some.inj h
      exact .abandon i
    · cases h
  | control a => exact .control (controlStep_inv h)

end Steps

/-! ### What holds of one control -/

namespace ControlTask

/-- The task has not stopped its device. -/
def live : ControlTask → Bool
  | .receiving | .executing => true
  | .stopping | .ended => false

/-- The calls of the task after its last command. -/
def stopCalls (t : ControlTask) : List DriverCall := if t.live then [] else [.stop]

end ControlTask

/-- The driver has seen its start, the commands that left the channel, and the stop if the task has made it; a device
that is stopped has an empty channel. -/
structure Control.Ordered (c : Control) : Prop where
  calls : ∃ done, c.accepted = done ++ c.queue ∧ c.calls = .start :: done.map .command ++ c.task.stopCalls
  drained : c.task.live = false → c.queue = []

namespace Control.Ordered

variable {c : Control}

theorem spawned : Control.spawned.Ordered := ⟨⟨[], rfl, rfl⟩, fun _ => rfl⟩

theorem accept (h : c.Ordered) (cmd : DeviceControl) (hlive : c.task.live = true) : (c.accept cmd).Ordered := by
  obtain ⟨done, hacc, hcalls⟩ := h.calls
  refine ⟨⟨done, ?_, hcalls⟩, fun hdead => absurd (hlive.symm.trans hdead) nofun⟩
  simp only [Control.accept, hacc, List.append_assoc]

theorem execute (h : c.Ordered) {cmd : DeviceControl} {rest : List DeviceControl} (ht : c.task = .receiving)
    (hq : c.queue = cmd :: rest) : (c.execute cmd rest).Ordered := by
  obtain ⟨done, hacc, hcalls⟩ := h.calls
  refine ⟨⟨done ++ [cmd], ?_, ?_⟩, nofun⟩
  · simp only [Control.execute, hacc, hq, List.append_assoc, List.singleton_append]
  · simp [Control.execute, hcalls, ht, ControlTask.stopCalls, ControlTask.live]

theorem stopDevice (h : c.Ordered) (ht : c.task = .receiving) (hq : c.queue = []) : c.stopDevice.Ordered := by
  obtain ⟨done, hacc, hcalls⟩ := h.calls
  refine ⟨⟨done, hacc, ?_⟩, fun _ => hq⟩
  simp [Control.stopDevice, hcalls, ht, ControlTask.stopCalls, ControlTask.live]

/-- A task that goes on without a call on the driver. -/
theorem setTask (h : c.Ordered) {task : ControlTask} (ht : task.live = c.task.live) : (c.setTask task).Ordered := by
  obtain ⟨done, hacc, hcalls⟩ := h.calls
  refine ⟨⟨done, hacc, ?_⟩, fun hdead => h.drained (ht ▸ hdead)⟩
  simpa only [Control.setTask, ControlTask.stopCalls, ht] using hcalls

end Control.Ordered

/-! ### Senders -/

theorem System.sendersGone_iff {s : System F} {n : Nat} :
    s.sendersGone n = true ↔
      (∃ r, s.app.devices.slot n = some r ∧ r.stop.closed = true) ∧ ∀ p ∈ s.sends, p.registration ≠ n := by
  simp [System.sendersGone, Option.any_eq_true]

/-- Senders that are gone stay gone while registrations keep theirs and calls only go away. -/
theorem System.sendersGone_of_keeps {s s' : System F} {n : Nat} (hk : Keeps s.app.devices s'.app.devices)
    (hsends : ∀ p ∈ s'.sends, p ∈ s.sends) (h : s.sendersGone n = true) : s'.sendersGone n = true := by
  obtain ⟨⟨r, hr, hclosed⟩, hnone⟩ := System.sendersGone_iff.1 h
  obtain ⟨r', hr'⟩ := hk.slot hr
  exact System.sendersGone_iff.2 ⟨⟨r', hr', hk.closed n r r' hr hr' hclosed⟩, fun p hp => hnone p (hsends p hp)⟩

/-! ### The invariant -/

/-- Controls belong to the devices that have started, and calls to controls; a device is stopped only when no sender is
left. -/
structure SystemInvariant (s : System F) : Prop where
  handles : HeldHandles s.app.devices s.app.draining
  ordered : ∀ (n : Nat) (c : Control), s.controls[n]? = some c → c.Ordered
  stopped : ∀ (n : Nat) (c : Control), s.controls[n]? = some c → c.task.live = false → s.sendersGone n = true
  sent : ∀ p ∈ s.sends, p.registration < s.controls.length
  announced : s.announced = s.attempts.map (·.discovered) ++ s.supervisor.inHand ++ s.discovered.queue
  registered : s.app.devices.slots.map (·.metadata) ++ s.supervisor.unregistered = s.attempts.filterMap (·.started)
  controls : s.controls.length = (s.attempts.filterMap (·.started)).length

namespace SystemInvariant

variable {s : System F}

theorem start (store : BiasStore) : SystemInvariant (System.start store : System F) where
  handles := heldHandles_start store
  ordered := nofun
  stopped := nofun
  sent := nofun
  announced := rfl
  registered := rfl
  controls := rfl

/-- Every registration has a control. -/
theorem control_of_slot (h : SystemInvariant s) {n : Nat} {r : Registration F} (hr : s.app.devices.slot n = some r) :
    ∃ c, s.controls[n]? = some c := by
  have hlt : n < s.app.devices.slots.length := SlotTable.lt_of_slot hr
  have hlen : (s.app.devices.slots.map (·.metadata) ++ s.supervisor.unregistered).length = s.controls.length := by
    rw [h.registered, h.controls]
  rw [List.length_append, List.length_map] at hlen
  exact ⟨s.controls[n], List.getElem?_eq_getElem (by omega)⟩

/-- A call holds a sender, so its device is not stopped. -/
theorem live_of_sent (h : SystemInvariant s) {p : PendingSend} (hp : p ∈ s.sends) {c : Control}
    (hc : s.controls[p.registration]? = some c) : c.task.live = true := by
  by_contra hdead
  have hgone : s.sendersGone p.registration = true := h.stopped _ c hc (by simpa using hdead)
  exact (System.sendersGone_iff.1 hgone).2 p hp rfl

/-- A change of one control that keeps its calls in order and stops it only when no sender is left. -/
theorem modifyControl (h : SystemInvariant s) {n : Nat} {f : Control → Control}
    (hf : ∀ c, s.controls[n]? = some c → (f c).Ordered ∧ ((f c).task.live = false → s.sendersGone n = true)) :
    SystemInvariant (s.modifyControl n f) where
  handles := h.handles
  ordered := by
    intro m c hc
    rcases SlotTable.getElem?_of_modify hc with ⟨-, hc⟩ | ⟨rfl, c₀, hc₀, rfl⟩
    · exact h.ordered m c hc
    · exact (hf c₀ hc₀).1
  stopped := by
    intro m c hc hdead
    rcases SlotTable.getElem?_of_modify hc with ⟨-, hc⟩ | ⟨rfl, c₀, hc₀, rfl⟩
    · exact h.stopped m c hc hdead
    · exact (hf c₀ hc₀).2 hdead
  sent := by simpa only [System.modifyControl, List.length_modify] using h.sent
  announced := h.announced
  registered := h.registered
  controls := by simpa only [System.modifyControl, List.length_modify] using h.controls

/-- Calls that go away. -/
theorem dropSends (h : SystemInvariant s) (i : Nat) : SystemInvariant { s with sends := s.sends.eraseIdx i } where
  handles := h.handles
  ordered := h.ordered
  stopped := fun n c hc hdead =>
    System.sendersGone_of_keeps (s := s) (.refl _) (fun _ hp => List.mem_of_mem_eraseIdx hp) (h.stopped n c hc hdead)
  sent := fun p hp => h.sent p (List.mem_of_mem_eraseIdx hp)
  announced := h.announced
  registered := h.registered
  controls := h.controls

theorem controlStep (h : SystemInvariant s) {s' : System F} {a : ControlAction} (hs : ControlStep s a s') :
    SystemInvariant s' := by
  cases hs with
  | @deliver i p c hp hc hopen hroom =>
    have hlive : c.task.live = true := h.live_of_sent (List.mem_of_getElem? hp) hc
    refine SystemInvariant.dropSends (s := s.modifyControl p.registration (Control.accept p.cmd)) ?_ i
    refine h.modifyControl fun c' hc' => ?_
    obtain rfl := Option.some.inj (hc.symm.trans hc')
    exact ⟨(h.ordered _ c hc).accept p.cmd hlive, fun hdead => absurd (hlive.symm.trans hdead) nofun⟩
  | @refuse i p c hp hc hend => exact h.dropSends i
  | @receive n c cmd rest hc ht hq =>
    refine h.modifyControl fun c' hc' => ?_
    obtain rfl := Option.some.inj (hc.symm.trans hc')
    exact ⟨(h.ordered n c hc).execute ht hq, nofun⟩
  | @returned n c hc ht =>
    refine h.modifyControl fun c' hc' => ?_
    obtain rfl := Option.some.inj (hc.symm.trans hc')
    exact ⟨(h.ordered n c hc).setTask (by rw [ht]; rfl), nofun⟩
  | @stopDevice n c hc ht hq hgone =>
    refine h.modifyControl fun c' hc' => ?_
    obtain rfl := Option.some.inj (hc.symm.trans hc')
    exact ⟨(h.ordered n c hc).stopDevice ht hq, fun _ => hgone⟩
  | @taskEnds n c hc ht =>
    refine h.modifyControl fun c' hc' => ?_
    obtain rfl := Option.some.inj (hc.symm.trans hc')
    exact ⟨(h.ordered n c hc).setTask (by rw [ht]; rfl), fun _ => h.stopped n c hc (by rw [ht]; rfl)⟩

end SystemInvariant

/-! ### Runs -/

section Runs

variable [OrientationFilter F] {calibrate : List Mag → Option MagCalibration}

/-- What a step of the registry does to the supervisor. -/
theorem SupervisorState.registers_cases {sup sup' : SupervisorState} {slots : Nat} {a : AppAction}
    (h : sup.registers slots a = some sup') :
    (∃ metadata, a = .registerDevice metadata ∧ sup = .started metadata ∧ sup' = .registering slots) ∨
      (∀ metadata, a ≠ .registerDevice metadata) ∧ sup'.inHand = sup.inHand ∧ sup'.unregistered = sup.unregistered := by
  unfold registers at h
  split at h
  · rename_i metadata
    split at h
    · exact Or.inl ⟨metadata, rfl, ‹_›, (Option.some.inj h).symm⟩
    · cases h
  · split at h
    · rename_i hsup
      obtain rfl := Option.some.inj h
      subst hsup
      exact Or.inr ⟨nofun, rfl, rfl⟩
    · cases h
  · rename_i hne _
    obtain rfl := Option.some.inj h
    exact Or.inr ⟨hne, rfl, rfl⟩

theorem SystemInvariant.app {s : System F} (h : SystemInvariant s) {a : AppAction} {sup : SupervisorState}
    {app : AppState F} (hsup : s.supervisor.registers s.app.devices.slots.length a = some sup)
    (happ : appStep calibrate s.app a = some app) : SystemInvariant { s with app, supervisor := sup } := by
  have hkeep : ∀ n, s.sendersGone n = true → ({ s with app, supervisor := sup } : System F).sendersGone n = true := by
    intro n hgone
    rcases appStep_keeps happ with hk | ⟨metadata, -, d, hk, heq⟩
    · exact System.sendersGone_of_keeps hk (fun _ hp => hp) hgone
    · obtain ⟨⟨r, hr, hclosed⟩, hnone⟩ := System.sendersGone_iff.1 hgone
      obtain ⟨r', hr'⟩ := hk.slot hr
      refine System.sendersGone_iff.2 ⟨⟨r', ?_, hk.closed n r r' hr hr' hclosed⟩, hnone⟩
      exact heq ▸ SlotTable.slot_push_of_some hr'
  refine ⟨appStep_heldHandles h.handles happ, h.ordered, fun n c hc hdead => hkeep n (h.stopped n c hc hdead), h.sent,
    ?_, ?_, h.controls⟩
  · rcases SupervisorState.registers_cases hsup with ⟨metadata, -, hst, rfl⟩ | ⟨-, hhand, -⟩
    · simpa only [hst, SupervisorState.inHand] using h.announced
    · simpa only [hhand] using h.announced
  · rcases SupervisorState.registers_cases hsup with ⟨metadata, rfl, hst, rfl⟩ | ⟨hne, -, hun⟩
    · rcases appStep_keeps happ with hk | ⟨metadata', hm, d, hk, heq⟩
      · -- a registration adds a slot
        obtain rfl := Option.some.inj happ
        have hlen := hk.length_eq
        have hpurge : (s.app.devices.purge metadata.id).slots.length = s.app.devices.slots.length :=
          Keeps.purge.length_eq
        simp only [SlotTable.push, List.length_append, List.length_singleton, hpurge] at hlen
        omega
      · obtain rfl := AppAction.registerDevice.inj hm
        rw [← h.registered, heq, hst]
        simp [SlotTable.push, hk.metadata, SupervisorState.unregistered, Registration.new]
    · rcases appStep_keeps happ with hk | ⟨metadata', hm, -⟩
      · simpa only [hun, hk.metadata] using h.registered
      · exact absurd hm (hne metadata')

theorem systemStep_invariant {s s' : System F} {a : SystemAction} (h : SystemInvariant s)
    (hs : systemStep calibrate s a = some s') : SystemInvariant s' := by
  cases systemStep_inv hs with
  | discover metadata =>
    refine ⟨h.handles, h.ordered, h.stopped, h.sent, ?_, h.registered, h.controls⟩
    simp only [h.announced, Mpsc.send, List.append_assoc]
  | factoriesExited => exact ⟨h.handles, h.ordered, h.stopped, h.sent, h.announced, h.registered, h.controls⟩
  | @next metadata hsup hrecv =>
    refine ⟨h.handles, h.ordered, h.stopped, h.sent, ?_, ?_, h.controls⟩
    · have hq : s.discovered.queue = metadata :: s.discovered.pop.queue := Mpsc.recv_some hrecv
      rw [h.announced, hsup, hq]
      simp [SupervisorState.inHand]
    · simpa only [hsup, SupervisorState.unregistered] using h.registered
  | finish hsup =>
    refine ⟨h.handles, h.ordered, h.stopped, h.sent, ?_, ?_, h.controls⟩
    · simpa only [hsup, SupervisorState.inHand] using h.announced
    · simpa only [hsup, SupervisorState.unregistered] using h.registered
  | @startFailed metadata hsup =>
    refine ⟨h.handles, h.ordered, h.stopped, h.sent, ?_, ?_, ?_⟩
    · rw [h.announced, hsup]
      simp [SupervisorState.inHand]
    · rw [List.filterMap_append, ← h.registered, hsup]
      simp [SupervisorState.unregistered]
    · rw [List.filterMap_append, h.controls]
      simp
  | @started metadata before hsup =>
    refine ⟨h.handles, fun n c hc => ?_, fun n c hc hdead => ?_, fun p hp => ?_, ?_, ?_, ?_⟩
    · rcases SlotTable.getElem?_of_concat hc with hc | ⟨-, rfl⟩
      · exact h.ordered n c hc
      · exact .spawned
    · rcases SlotTable.getElem?_of_concat hc with hc | ⟨-, rfl⟩
      · exact h.stopped n c hc hdead
      · cases hdead
    · have hlt := h.sent p hp
      rw [List.length_append]
      omega
    · rw [h.announced, hsup]
      simp [SupervisorState.inHand]
    · rw [List.filterMap_append, ← h.registered, hsup]
      simp [SupervisorState.unregistered]
    · rw [List.filterMap_append, List.length_append, List.length_append, h.controls]
      rfl
  | app hsup happ => exact h.app hsup happ
  | @call n r cmd hr hcur =>
    obtain ⟨c₀, hc₀⟩ := h.control_of_slot hr
    refine ⟨h.handles, h.ordered, fun m c hc hdead => ?_, fun p hp => ?_, h.announced, h.registered, h.controls⟩
    · obtain ⟨⟨r', hr', hclosed⟩, hnone⟩ := System.sendersGone_iff.1 (h.stopped m c hc hdead)
      refine System.sendersGone_iff.2 ⟨⟨r', hr', hclosed⟩, fun p hp => ?_⟩
      rcases List.mem_append.1 hp with hp | hp
      · exact hnone p hp
      · obtain rfl := List.mem_singleton.1 hp
        rintro rfl
        -- the entry that was found holds a sender
        have hopen : r'.stop.closed = false := (h.handles.open_iff hr').2 (Or.inr (Or.inl ⟨_, hcur⟩))
        rw [hclosed] at hopen
        cases hopen
    · rcases List.mem_append.1 hp with hp | hp
      · exact h.sent p hp
      · obtain rfl := List.mem_singleton.1 hp
        exact (List.getElem?_eq_some_iff.1 hc₀).1
  | abandon i => exact h.dropSends i
  | control hs => exact h.controlStep hs

theorem systemInvariant_of_reaches {store : BiasStore} {s : System F}
    (h : Reaches (systemStep calibrate) Always (.start store) s) : SystemInvariant s :=
  h.invariant (I := SystemInvariant) (.start store) fun _ _ _ hi _ hs => systemStep_invariant hi hs

end Runs

/-! ### A phone -/

/-- A phone is discovered, starts and is registered. -/
def discoverPhone : List SystemAction :=
  [.discover phoneMetadata, .next, .started phoneMetadata, .app (.registerDevice phoneMetadata),
    .app (.spawn 0 .default 0), .app (.insert 0)]

/-- Two commands for the phone, and a shutdown that drops its handle while they wait. -/
def commandAndShutdown : List SystemAction :=
  [.call phoneMetadata.id.mac 0 (.setRumble 1), .call phoneMetadata.id.mac 0 (.setLedMask 3), .app .shutdown,
    .app (.dropDrained 0)]

/-- The commands are delivered, the second one first, and executed; then the phone is stopped. -/
def settlePhone : List ControlAction :=
  [.deliver 1, .deliver 0, .receive 0, .returned 0, .receive 0, .returned 0, .stopDevice 0, .taskEnds 0]

def idleSystem : System StillFilter := .start ∅

/-- The phone's system before and after its control task has run. -/
theorem exists_phone_system : ∃ s s', Reaches (systemStep noFit) Always idleSystem s ∧
    exec controlStep s settlePhone = some s' ∧
      s'.controls.map (·.calls) = [[.start, .command (.setLedMask 3), .command (.setRumble 1), .stop]] := by
  have h : ((exec (systemStep noFit) idleSystem (discoverPhone ++ commandAndShutdown)).bind fun s =>
      (exec controlStep s settlePhone).map fun s' => s'.controls.map (·.calls)) =
        some [[.start, .command (.setLedMask 3), .command (.setRumble 1), .stop]] := by decide +kernel
  obtain ⟨s, hs, h⟩ := Option.bind_eq_some_iff.1 h
  obtain ⟨s', hs', hcalls⟩ := Option.map_eq_some_iff.1 h
  exact ⟨s, s', Reaches.of_run _ hs, hs', hcalls⟩

section Results

variable [OrientationFilter F] {calibrate : List Mag → Option MagCalibration}

theorem reaches_of_control {store : BiasStore} {s s' : System F} {as : List ControlAction}
    (h : Reaches (systemStep calibrate) Always (.start store) s) (hrun : exec controlStep s as = some s') :
    Reaches (systemStep calibrate) Always (.start store) s' := by
  induction as generalizing s with
  | nil =>
    obtain rfl : s = s' := by simpa [exec] using hrun
    exact h
  | cons a as ih =>
    obtain ⟨s₁, hs, has⟩ := Option.bind_eq_some_iff.1 hrun
    exact ih (h.tail (a := .control a) trivial hs) has

/-- In every reachable state the driver of a device has seen its start, then the commands that left the channel, which
took them in this order, and then the stop if there was one; a stopped device has no command left and no sender. -/
theorem driver_calls_of_accepted {store : BiasStore} {s : System F} {n : Nat} {c : Control}
    (h : Reaches (systemStep calibrate) Always (.start store) s) (hc : s.controls[n]? = some c) :
    (∃ done, c.accepted = done ++ c.queue ∧ c.calls = .start :: done.map .command ++ c.task.stopCalls) ∧
      (c.task.live = false → c.queue = [] ∧ s.sendersGone n = true) := by
  have hinv : SystemInvariant s := systemInvariant_of_reaches h
  have hord : c.Ordered := hinv.ordered n c hc
  exact ⟨hord.calls, fun hdead => ⟨hord.drained hdead, hinv.stopped n c hc hdead⟩⟩

/-- The phone is stopped after its two commands. -/
theorem phone_driver_calls : ∃ (s : System StillFilter) (c : Control), s.controls[0]? = some c ∧
    c.calls = [.start, .command (.setLedMask 3), .command (.setRumble 1), .stop] ∧
      (∃ done, c.accepted = done ++ c.queue ∧ c.calls = .start :: done.map .command ++ c.task.stopCalls) ∧
        (c.task.live = false → c.queue = [] ∧ s.sendersGone 0 = true) := by
  obtain ⟨s, s', hs, hs', hcalls⟩ := exists_phone_system
  obtain ⟨c, hc, hone⟩ := List.map_eq_singleton_iff.1 hcalls
  have hget : s'.controls[0]? = some c := by rw [hc]; rfl
  exact ⟨s', c, hget, hone, driver_calls_of_accepted (reaches_of_control hs hs') hget⟩

/-- In every reachable state the control task of every entry is live, and no waiting call is refused. -/
theorem found_call_not_refused {store : BiasStore} {s : System F}
    (h : Reaches (systemStep calibrate) Always (.start store) s) :
    (∀ id n, s.app.devices.current id = some n → ∃ c, s.controls[n]? = some c ∧ c.task.live = true) ∧
      (∀ p ∈ s.sends, ∃ c, s.controls[p.registration]? = some c ∧ c.task.live = true) ∧
      ∀ i, systemStep calibrate s (.control (.refuse i)) = none := by
  have hinv : SystemInvariant s := systemInvariant_of_reaches h
  refine ⟨fun id n hcur => ?_, fun p hp => ?_, fun i => ?_⟩
  · obtain ⟨r, hr, -⟩ := hinv.handles.entry id n hcur
    obtain ⟨c, hc⟩ := hinv.control_of_slot hr
    refine ⟨c, hc, ?_⟩
    by_contra hdead
    obtain ⟨⟨r', hr', hclosed⟩, -⟩ := System.sendersGone_iff.1 (hinv.stopped n c hc (by simpa using hdead))
    have hopen : r'.stop.closed = false := (hinv.handles.open_iff hr').2 (Or.inr (Or.inl ⟨id, hcur⟩))
    rw [hclosed] at hopen
    cases hopen
  · exact ⟨_, List.getElem?_eq_getElem (hinv.sent p hp), hinv.live_of_sent hp (List.getElem?_eq_getElem _)⟩
  · cases hs : systemStep calibrate s (.control (.refuse i)) with
    | none => rfl
    | some s' =>
      have hs : controlStep s (.refuse i) = some s' := hs
      cases controlStep_inv hs with
      | refuse hp hc hend =>
        have hlive := hinv.live_of_sent (List.mem_of_getElem? hp) hc
        rw [hend] at hlive
        cases hlive

theorem phone_call_not_refused : ∃ s : System StillFilter, Reaches (systemStep noFit) Always idleSystem s ∧
    ∀ i, systemStep noFit s (.control (.refuse i)) = none := by
  obtain ⟨s, -, hs, -⟩ := exists_phone_system
  exact ⟨s, hs, (found_call_not_refused hs).2.2⟩

/-- In every reachable state the supervisor has tried to start the devices in the order in which the factories sent
them, and the registrations are those that have started, in that order, with the metadata as they were then. -/
theorem registrations_of_discovered {store : BiasStore} {s : System F}
    (h : Reaches (systemStep calibrate) Always (.start store) s) :
    s.announced = s.attempts.map (·.discovered) ++ s.supervisor.inHand ++ s.discovered.queue ∧
      s.app.devices.slots.map (·.metadata) ++ s.supervisor.unregistered = s.attempts.filterMap (·.started) := by
  have hinv : SystemInvariant s := systemInvariant_of_reaches h
  exact ⟨hinv.announced, hinv.registered⟩

theorem phone_registered_of_discovered : ∃ s : System StillFilter,
    Reaches (systemStep noFit) Always idleSystem s ∧
      s.app.devices.slots.map (·.metadata) ++ s.supervisor.unregistered = s.attempts.filterMap (·.started) := by
  obtain ⟨s, -, hs, -⟩ := exists_phone_system
  exact ⟨s, hs, (registrations_of_discovered hs).2⟩

end Results

/-! ### Rest -/

/-- The steps that a control has before it, if it gets no more commands. -/
def Control.work (c : Control) : Nat :=
  3 * c.queue.length +
    match c.task with
    | .receiving => 2
    | .executing => 3
    | .stopping => 1
    | .ended => 0

/-- A bound on the steps that are before the control tasks and the waiting calls. -/
def System.work (s : System F) : Nat := 4 * s.sends.length + (s.controls.map Control.work).sum

private theorem sum_work_modify {cs : List Control} {n : Nat} {c : Control} (hc : cs[n]? = some c)
    (f : Control → Control) :
    ((cs.modify n f).map Control.work).sum + c.work = (cs.map Control.work).sum + (f c).work := by
  induction cs generalizing n with
  | nil => cases hc
  | cons d cs ih =>
    cases n with
    | zero =>
      obtain rfl := Option.some.inj hc
      simp only [List.modify_zero_cons, List.map_cons, List.sum_cons]
      omega
    | succ n =>
      have hrest := ih (n := n) (by simpa using hc)
      simp only [List.modify_succ_cons, List.map_cons, List.sum_cons]
      omega

private theorem length_eraseIdx_sends {ps : List PendingSend} {i : Nat} {p : PendingSend} (hp : ps[i]? = some p) :
    (ps.eraseIdx i).length + 1 = ps.length := by
  have hlt : i < ps.length := (List.getElem?_eq_some_iff.1 hp).1
  rw [List.length_eraseIdx_of_lt hlt]
  omega

theorem controlStep_work {s s' : System F} {a : ControlAction} (hs : controlStep s a = some s') : s'.work < s.work := by
  unfold System.work
  cases controlStep_inv hs with
  | @deliver i p c hp hc hopen hroom =>
    have hsum := sum_work_modify hc (Control.accept p.cmd)
    have hlen := length_eraseIdx_sends hp
    simp only [System.modifyControl]
    have hwork : (c.accept p.cmd).work = c.work + 3 := by
      simp only [Control.work, Control.accept, List.length_append, List.length_singleton]
      omega
    omega
  | @refuse i p c hp hc hend =>
    have hlen := length_eraseIdx_sends hp
    dsimp only
    omega
  | @receive n c cmd rest hc ht hq =>
    have hsum := sum_work_modify hc (Control.execute cmd rest)
    simp only [System.modifyControl]
    simp only [Control.work, Control.execute, ht, hq, List.length_cons] at hsum
    omega
  | @returned n c hc ht =>
    have hsum := sum_work_modify hc (Control.setTask .receiving)
    simp only [System.modifyControl]
    simp only [Control.work, Control.setTask, ht] at hsum
    omega
  | @stopDevice n c hc ht hq hgone =>
    have hsum := sum_work_modify hc Control.stopDevice
    simp only [System.modifyControl]
    simp only [Control.work, Control.stopDevice, ht, hq] at hsum
    omega
  | @taskEnds n c hc ht =>
    have hsum := sum_work_modify hc (Control.setTask .ended)
    simp only [System.modifyControl]
    simp only [Control.work, Control.setTask, ht] at hsum
    omega

/-- Neither a control task nor a waiting call can take a step. -/
def System.Idle (s : System F) : Prop := ∀ a, controlStep s a = none

/-- The handle of the registration is held nowhere any more. -/
def System.Released (s : System F) (n : Nat) : Prop :=
  ∃ r, s.app.devices.slot n = some r ∧ ¬ Held s.app.devices s.app.draining n r

namespace System.Idle

variable {s : System F} {n : Nat} {c : Control}

/-- An idle control task waits for commands or has ended. -/
theorem task (h : s.Idle) (hc : s.controls[n]? = some c) : c.task = .receiving ∧ c.queue = [] ∨ c.task = .ended := by
  cases ht : c.task with
  | receiving =>
    refine Or.inl ⟨rfl, ?_⟩
    cases hq : c.queue with
    | nil => rfl
    | cons cmd rest => simpa [controlStep, hc, ht, hq] using h (.receive n)
  | executing => simpa [controlStep, hc, ht] using h (.returned n)
  | stopping => simpa [controlStep, hc, ht] using h (.taskEnds n)
  | ended => exact Or.inr rfl

/-- An idle system has no waiting call: its channel would take the command or refuse it. -/
theorem sends (h : s.Idle) (hinv : SystemInvariant s) : s.sends = [] := by
  cases hsends : s.sends with
  | nil => rfl
  | cons p ps =>
    have hp : s.sends[0]? = some p := by rw [hsends]; rfl
    have hlt := hinv.sent p (List.mem_of_getElem? hp)
    have hc : s.controls[p.registration]? = some s.controls[p.registration] := List.getElem?_eq_getElem hlt
    rcases h.task hc with ⟨ht, hq⟩ | ht
    · simpa [controlStep, hp, hc, ht, hq, CHANNEL_CAPACITY] using h (.deliver 0)
    · simpa [controlStep, hp, hc, ht] using h (.refuse 0)

/-- The ended tasks of an idle system are those whose handle is held nowhere. -/
theorem ended_iff (h : s.Idle) (hinv : SystemInvariant s) (hc : s.controls[n]? = some c) :
    c.task = .ended ↔ s.Released n := by
  constructor
  · intro ht
    obtain ⟨⟨r, hr, hclosed⟩, -⟩ := System.sendersGone_iff.1 (hinv.stopped n c hc (by rw [ht]; rfl))
    refine ⟨r, hr, fun hheld => ?_⟩
    rw [(hinv.handles.open_iff hr).2 hheld] at hclosed
    cases hclosed
  · rintro ⟨r, hr, hfree⟩
    rcases h.task hc with ⟨ht, hq⟩ | ht
    · have hclosed : r.stop.closed = true := by
        rw [← (hinv.handles.open_iff hr), Bool.not_eq_false] at hfree
        exact hfree
      have hgone : s.sendersGone n = true := by
        refine System.sendersGone_iff.2 ⟨⟨r, hr, hclosed⟩, ?_⟩
        rw [h.sends hinv]
        exact fun p hp => absurd hp List.not_mem_nil
      simpa [controlStep, hc, ht, hq, hgone] using h (.stopDevice n)
    · exact ht

end System.Idle

section Runs

variable [OrientationFilter F] {calibrate : List Mag → Option MagCalibration}

/-- From every reachable state the control tasks and the waiting calls take at most `work` steps by themselves.  When
none can take another, no call waits, every command that a channel took was executed, and exactly the devices whose
handle is held nowhere have been stopped. -/
theorem control_settles {store : BiasStore} {s s' : System F} {as : List ControlAction}
    (h : Reaches (systemStep calibrate) Always (.start store) s) (hrun : exec controlStep s as = some s') :
    as.length ≤ s.work ∧ (s'.Idle → s'.sends = [] ∧ ∀ n c, s'.controls[n]? = some c →
      s'.Released n ∧ c.calls = .start :: c.accepted.map .command ++ [.stop] ∨
        ¬ s'.Released n ∧ c.calls = .start :: c.accepted.map .command) := by
  have hbound : as.length + s'.work ≤ s.work := length_add_rank_le_of_exec (fun _ _ _ => controlStep_work) hrun
  refine ⟨by omega, fun hidle => ?_⟩
  have hinv : SystemInvariant s' := systemInvariant_of_reaches (reaches_of_control h hrun)
  refine ⟨hidle.sends hinv, fun n c hc => ?_⟩
  obtain ⟨done, hacc, hcalls⟩ := (hinv.ordered n c hc).calls
  rcases hidle.task hc with ⟨ht, hq⟩ | ht
  · refine Or.inr ⟨fun hrel => ?_, ?_⟩
    · rw [(hidle.ended_iff hinv hc).2 hrel] at ht
      cases ht
    · have hdone : c.accepted = done := by simpa [hq] using hacc
      simp [hcalls, hdone, ht, ControlTask.stopCalls, ControlTask.live]
  · have hq : c.queue = [] := (hinv.ordered n c hc).drained (by rw [ht]; rfl)
    have hdone : c.accepted = done := by simpa [hq] using hacc
    refine Or.inl ⟨(hidle.ended_iff hinv hc).1 ht, ?_⟩
    simp [hcalls, hdone, ht, ControlTask.stopCalls, ControlTask.live]

/-- The phone's control settles. -/
theorem phone_control_settles : ∃ s s' : System StillFilter, exec controlStep s settlePhone = some s' ∧
    settlePhone.length ≤ s.work ∧ (s'.Idle → s'.sends = [] ∧ ∀ n c, s'.controls[n]? = some c →
      s'.Released n ∧ c.calls = .start :: c.accepted.map .command ++ [.stop] ∨
        ¬ s'.Released n ∧ c.calls = .start :: c.accepted.map .command) := by
  obtain ⟨s, s', hs, hs', -⟩ := exists_phone_system
  exact ⟨s, s', hs', control_settles hs hs'⟩

end Runs

end EverythingImu.Core
