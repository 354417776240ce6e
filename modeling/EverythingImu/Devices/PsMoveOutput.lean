import EverythingImu.Devices.SonyTransport

/-!
# The output thread of a PS Move

The commands of `PsMoveDevice` (`device-psmove/src/device.rs`) write the output report themselves, and an output thread
writes it again every three seconds, since the sphere goes dark by itself.  The thread copies the state under its lock
and writes the copy after it has given the lock back; a command changes the state, copies it and writes the copy.  The
two interleave between these steps; a write itself is not divided, the handle is behind a lock of its own.

The methods borrow the device mutably, so at most one runs at a time.  A write that fails leaves the controller as it
is.  Poisoned locks are left out: nothing panics while it holds one.
-/

namespace EverythingImu.Sony.PsMove

open StepRun

structure OutputState where
  rgb : UInt8 × UInt8 × UInt8
  rumble : UInt8
deriving DecidableEq

def OutputState.off : OutputState := ⟨(0, 0, 0), 0⟩

def ledRgbFromMask (mask : UInt8) : UInt8 × UInt8 × UInt8 :=
  match DualSense.ledCount mask with
  | 0 => (0x00, 0x00, 0x00)
  | 1 => (0x00, 0x00, 0xFF)
  | 2 => (0x00, 0xFF, 0xFF)
  | 3 => (0xFF, 0x00, 0xFF)
  | _ => (0xFF, 0xFF, 0xFF)

def buildOutputReport (state : OutputState) : List UInt8 :=
  let (r, g, b) := state.rgb
  [0x06, 0x00, r, g, b, 0x00, state.rumble, 0x00, 0x00]

/-! ### The device and its thread -/

/-- Where the output thread is. -/
inductive OutputThread where
  | absent
  /-- It looks at the shutdown flag next. -/
  | checking
  /-- It copies the state next. -/
  | copying
  /-- It has given the lock of the state back and writes its copy next. -/
  | writing (state : OutputState)
  | sleeping
  | ended
deriving DecidableEq

/-- The thread takes no step any more. -/
def OutputThread.Over (t : OutputThread) : Prop := t = .absent ∨ t = .ended

instance (t : OutputThread) : Decidable t.Over := inferInstanceAs (Decidable (_ ∨ _))

/-- The copy that the thread still has to write. -/
def OutputThread.copy : OutputThread → Option OutputState
  | .writing state => some state
  | .absent | .checking | .copying | .sleeping | .ended => none

/-- Where the method is that runs. -/
inductive Call where
  | none
  /-- `write_output_now` copies the state next. -/
  | copying
  | writing (state : OutputState)
  /-- `stop` has set the flag and waits for the thread. -/
  | joining
  /-- `stop` puts the sphere and the motor out next. -/
  | extinguishing
deriving DecidableEq

structure PsMoveDevice where
  /-- The handle has not been taken by `start` yet. -/
  device : Bool
  /-- The handle is open for output. -/
  io : Bool
  outputState : OutputState
  outputShutdown : Bool
  thread : OutputThread
  call : Call
  /-- The reports that the controller took, the last one first. -/
  written : List (List UInt8)
deriving DecidableEq

inductive Action where
  /-- The output thread is spawned, or the system refuses it. -/
  | start (spawned : Bool)
  | setLedMask (mask : UInt8)
  | setRumble (intensity : Float32)
  | stop
  /-- The next step of the method that runs; the controller takes what is written, or the write fails. -/
  | proceed (taken : Bool)
  /-- The next step of the output thread. -/
  | beat (taken : Bool)

namespace PsMoveDevice

def new : PsMoveDevice where
  device := true
  io := false
  outputState := .off
  outputShutdown := false
  thread := .absent
  call := .none
  written := []

def write (d : PsMoveDevice) (state : OutputState) (taken : Bool) : List (List UInt8) :=
  if taken then buildOutputReport state :: d.written else d.written

/-- A command has changed the state and goes on in `write_output_now`, which ends at once without an open handle. -/
def command (d : PsMoveDevice) (state : OutputState) : PsMoveDevice :=
  { d with outputState := state, call := if d.io then .copying else .none }

/-- A method is called. -/
def enter (d : PsMoveDevice) : Action → PsMoveDevice
  | .start spawned =>
    if d.device then
      { d with device := false, io := true, outputShutdown := false,
               thread := if spawned then .checking else .absent }
    else d
  | .setLedMask mask => d.command { d.outputState with rgb := ledRgbFromMask mask }
  | .setRumble intensity => d.command { d.outputState with rumble := DualSense.toU8 intensity }
  | .stop => { d with outputShutdown := true, call := .joining }
  | .proceed _ | .beat _ => d

/-- The method that runs goes on; `join` waits until the thread is over. -/
def proceed (d : PsMoveDevice) (taken : Bool) : Option PsMoveDevice :=
  match d.call with
  | .none => none
  | .copying => some { d with call := .writing d.outputState }
  | .writing state => some { d with call := .none, written := d.write state taken }
  | .joining => if d.thread.Over then some { d with call := .extinguishing } else none
  | .extinguishing =>
    some { d with call := .none, io := false, written := if d.io then d.write .off taken else d.written }

/-- The output thread goes on. -/
def beat (d : PsMoveDevice) (taken : Bool) : Option PsMoveDevice :=
  match d.thread with
  | .absent | .ended => none
  | .checking => some { d with thread := if d.outputShutdown then .ended else .copying }
  | .copying => some { d with thread := if d.outputState = .off then .sleeping else .writing d.outputState }
  | .writing state => some { d with thread := .sleeping, written := d.write state taken }
  | .sleeping => some { d with thread := .checking }

def step (d : PsMoveDevice) (a : Action) : Option PsMoveDevice :=
  match a with
  | .proceed taken => d.proceed taken
  | .beat taken => d.beat taken
  | .start _ | .setLedMask _ | .setRumble _ | .stop => if d.call = .none then some (d.enter a) else none

/-! ### Steps -/

/-- What a step is: a method is called, or the running one goes on, or the thread does. -/
theorem step_cases {d d' : PsMoveDevice} {a : Action} (h : d.step a = some d') :
    (d.call = .none ∧ d' = d.enter a ∧ ∀ taken, a ≠ .proceed taken ∧ a ≠ .beat taken) ∨
      (∃ taken, a = .proceed taken ∧ d.proceed taken = some d') ∨
      ∃ taken, a = .beat taken ∧ d.beat taken = some d' := by
  cases a with
  | proceed taken => exact Or.inr (Or.inl ⟨taken, rfl, h⟩)
  | beat taken => exact Or.inr (Or.inr ⟨taken, rfl, h⟩)
  | start _ | setLedMask _ | setRumble _ | stop =>
    obtain ⟨hc, h⟩ := Option.ite_none_right_eq_some.1 h
    exact Or.inl ⟨hc, (Option.some.inj h).symm, fun _ => ⟨nofun, nofun⟩⟩

theorem proceed_cases {d d' : PsMoveDevice} {taken : Bool} (h : d.proceed taken = some d') :
    (d.call = .copying ∧ d' = { d with call := .writing d.outputState }) ∨
      (∃ st, d.call = .writing st ∧ d' = { d with call := .none, written := d.write st taken }) ∨
      (d.call = .joining ∧ d.thread.Over ∧ d' = { d with call := .extinguishing }) ∨
      (d.call = .extinguishing ∧ d' = { d with
        call := .none, io := false, written := if d.io then d.write .off taken else d.written }) := by
  unfold proceed at h
  split at h
  · cases h
  · rename_i hc
    exact Or.inl ⟨hc, (Option.some.inj h).symm⟩
  · rename_i st hc
    exact Or.inr (Or.inl ⟨st, hc, (Option.some.inj h).symm⟩)
  · rename_i hc
    obtain ⟨ht, h⟩ := Option.ite_none_right_eq_some.1 h
    exact Or.inr (Or.inr (Or.inl ⟨hc, ht, (Option.some.inj h).symm⟩))
  · rename_i hc
    exact Or.inr (Or.inr (Or.inr ⟨hc, (Option.some.inj h).symm⟩))

/-- A step of the thread changes where the thread is, and takes a report only where it writes. -/
theorem beat_cases {d d' : PsMoveDevice} {taken : Bool} (h : d.beat taken = some d') :
    ¬d.thread.Over ∧ ((∃ st, d.thread = .writing st ∧
        d' = { d with thread := .sleeping, written := d.write st taken }) ∨
      ∃ t, d' = { d with thread := t } ∧ (t = .ended → d.outputShutdown = true) ∧
        ∀ st, t = .writing st → st = d.outputState ∧ st ≠ .off) := by
  unfold beat at h
  split at h
  · cases h
  · cases h
  · rename_i ht
    refine ⟨by simp [ht, OutputThread.Over], Or.inr ⟨_, (Option.some.inj h).symm, fun he => ?_, fun st he => ?_⟩⟩
    · by_cases hs : d.outputShutdown = true
      · exact hs
      · rw [if_neg hs] at he
        cases he
    · split at he <;> cases he
  · rename_i ht
    refine ⟨by simp [ht, OutputThread.Over], Or.inr ⟨_, (Option.some.inj h).symm, fun he => ?_, fun st he => ?_⟩⟩
    · split at he <;> cases he
    · by_cases hs : d.outputState = .off
      · rw [if_pos hs] at he
        cases he
      · rw [if_neg hs] at he
        cases he
        exact ⟨rfl, hs⟩
  · rename_i st ht
    exact ⟨by simp [ht, OutputThread.Over], Or.inl ⟨st, ht, (Option.some.inj h).symm⟩⟩
  · rename_i ht
    exact ⟨by simp [ht, OutputThread.Over], Or.inr ⟨_, (Option.some.inj h).symm, nofun, nofun⟩⟩

/-! ### What every run keeps -/

/-- The method that runs writes the state. -/
def Commanding (d : PsMoveDevice) : Prop := d.call = .copying ∨ ∃ st, d.call = .writing st

/-- The device, its thread and its method go together. -/
structure Consistent (d : PsMoveDevice) : Prop where
  fresh : d.device = true → d.io = false ∧ d.thread = .absent
  closed : d.io = false → d.thread.Over ∧ ¬d.Commanding
  extinguishing : d.call = .extinguishing → d.thread.Over
  shutdown : d.outputShutdown = true → d.call = .joining ∨ d.call = .extinguishing ∨ d.io = false
  ended : d.thread = .ended → d.outputShutdown = true

theorem consistent_new : Consistent .new where
  fresh := fun _ => ⟨rfl, rfl⟩
  closed := fun _ => ⟨Or.inl rfl, by simp [Commanding, new]⟩
  extinguishing := nofun
  shutdown := nofun
  ended := nofun

theorem consistent_command {d : PsMoveDevice} (h : d.Consistent) (hc : d.call = .none) (st : OutputState) :
    (d.command st).Consistent where
  fresh := h.fresh
  closed := fun hio => by
    refine ⟨(h.closed hio).1, ?_⟩
    have hio : d.io = false := hio
    simp [Commanding, command, hio]
  extinguishing := fun hx => by
    have hx : (if d.io then Call.copying else .none) = .extinguishing := hx
    split at hx <;> cases hx
  shutdown := fun hs => by
    rcases h.shutdown hs with hj | hj | hj
    · rw [hc] at hj
      cases hj
    · rw [hc] at hj
      cases hj
    · exact Or.inr (Or.inr hj)
  ended := h.ended

theorem consistent_enter {d : PsMoveDevice} (h : d.Consistent) (hc : d.call = .none) (a : Action) :
    (d.enter a).Consistent := by
  cases a with
  | start spawned =>
    simp only [enter]
    by_cases hd : d.device = true
    · rw [if_pos hd]
      refine ⟨nofun, nofun, fun hx => ?_, nofun, fun he => ?_⟩
      · rw [hc] at hx
        cases hx
      · have he : (if spawned then OutputThread.checking else .absent) = .ended := he
        split at he <;> cases he
    · rw [if_neg hd]
      exact h
  | setLedMask mask => exact consistent_command h hc _
  | setRumble intensity => exact consistent_command h hc _
  | stop =>
    refine ⟨h.fresh, fun hio => ⟨(h.closed hio).1, ?_⟩, nofun, fun _ => Or.inl rfl, fun _ => rfl⟩
    simp [Commanding, enter]
  | proceed _ | beat _ => exact h

theorem consistent_proceed {d d' : PsMoveDevice} {taken : Bool} (h : d.Consistent) (hp : d.proceed taken = some d') :
    d'.Consistent := by
  rcases proceed_cases hp with ⟨hc, rfl⟩ | ⟨st, hc, rfl⟩ | ⟨hc, ht, rfl⟩ | ⟨hc, rfl⟩
  · refine ⟨h.fresh, fun hio => absurd (Or.inl hc) (h.closed hio).2, nofun, fun hs => ?_, h.ended⟩
    simpa [hc] using h.shutdown hs
  · refine ⟨h.fresh, fun hio => absurd (Or.inr ⟨st, hc⟩) (h.closed hio).2, nofun, fun hs => ?_, h.ended⟩
    simpa [hc] using h.shutdown hs
  · exact ⟨h.fresh, fun _ => ⟨ht, by simp [Commanding]⟩, fun _ => ht, fun _ => Or.inr (Or.inl rfl), h.ended⟩
  · exact ⟨fun hd => ⟨rfl, (h.fresh hd).2⟩, fun _ => ⟨h.extinguishing hc, by simp [Commanding]⟩, nofun,
      fun _ => Or.inr (Or.inr rfl), h.ended⟩

theorem consistent_beat {d d' : PsMoveDevice} {taken : Bool} (h : d.Consistent) (hb : d.beat taken = some d') :
    d'.Consistent := by
  obtain ⟨ht, hd'⟩ := beat_cases hb
  -- the thread goes on, so the handle is open and no method waits for its end
  have hdev : d.device ≠ true := fun hd => ht (Or.inl (h.fresh hd).2)
  have hio : d.io ≠ false := fun hio => ht (h.closed hio).1
  have hx : d.call ≠ .extinguishing := fun hx => ht (h.extinguishing hx)
  rcases hd' with ⟨st, -, rfl⟩ | ⟨t, rfl, he, -⟩
  · exact ⟨fun hd => absurd hd hdev, fun hc => absurd hc hio, fun hc => absurd hc hx, h.shutdown, nofun⟩
  · exact ⟨fun hd => absurd hd hdev, fun hc => absurd hc hio, fun hc => absurd hc hx, h.shutdown, he⟩

theorem consistent_step {d d' : PsMoveDevice} {a : Action} (h : d.Consistent) (hs : d.step a = some d') :
    d'.Consistent := by
  rcases step_cases hs with ⟨hc, rfl, -⟩ | ⟨taken, rfl, hp⟩ | ⟨taken, rfl, hb⟩
  · exact consistent_enter h hc a
  · exact consistent_proceed h hp
  · exact consistent_beat h hb

theorem consistent_of_reaches {ok : PsMoveDevice → Action → Prop} {d : PsMoveDevice} (h : Reaches step ok .new d) :
    d.Consistent :=
  h.invariant consistent_new fun _ _ _ hd _ hs => consistent_step hd hs

/-! ### After a stop -/

/-- `stop` has returned after a `start`. -/
def Stopped (d : PsMoveDevice) : Prop := d.device = false ∧ d.io = false

instance (d : PsMoveDevice) : Decidable d.Stopped := inferInstanceAs (Decidable (_ ∧ _))

/-- The last write of `stop` does not fail. -/
def StopWritten (d : PsMoveDevice) : Action → Prop
  | .proceed taken => d.call = .extinguishing → taken = true
  | .start _ | .setLedMask _ | .setRumble _ | .stop | .beat _ => True

instance (d : PsMoveDevice) (a : Action) : Decidable (d.StopWritten a) :=
  match a with
  | .proceed taken => inferInstanceAs (Decidable (d.call = .extinguishing → taken = true))
  | .start _ | .setLedMask _ | .setRumble _ | .stop | .beat _ => inferInstanceAs (Decidable True)

/-- A step of a stopped device writes nothing. -/
theorem stopped_step {d d' : PsMoveDevice} {a : Action} (h : d.Consistent) (hd : d.Stopped) (hs : d.step a = some d') :
    d'.Stopped ∧ d'.written = d.written := by
  obtain ⟨hdev, hio⟩ := hd
  rcases step_cases hs with ⟨hc, rfl, -⟩ | ⟨taken, rfl, hp⟩ | ⟨taken, rfl, hb⟩
  · cases a with
    | start spawned => simp [enter, Stopped, hdev, hio]
    | setLedMask _ | setRumble _ => exact ⟨⟨hdev, hio⟩, rfl⟩
    | stop => exact ⟨⟨hdev, hio⟩, rfl⟩
    | proceed _ | beat _ => exact ⟨⟨hdev, hio⟩, rfl⟩
  · rcases proceed_cases hp with ⟨hc, rfl⟩ | ⟨st, hc, rfl⟩ | ⟨hc, ht, rfl⟩ | ⟨hc, rfl⟩
    · exact absurd (Or.inl hc) (h.closed hio).2
    · exact absurd (Or.inr ⟨st, hc⟩) (h.closed hio).2
    · exact ⟨⟨hdev, hio⟩, rfl⟩
    · exact ⟨⟨hdev, rfl⟩, by simp [hio]⟩
  · exact absurd (h.closed hio).1 (beat_cases hb).1

/-- A stopped device has put the sphere and the motor out. -/
def Extinguished (d : PsMoveDevice) : Prop := d.Stopped → d.written.head? = some (buildOutputReport .off)

theorem extinguished_step {d d' : PsMoveDevice} {a : Action} (h : d.Consistent) (hd : d.Extinguished)
    (hok : StopWritten d a) (hs : d.step a = some d') : d'.Extinguished := by
  by_cases hst : d.Stopped
  · intro _
    rw [(stopped_step h hst hs).2]
    exact hd hst
  · intro hst'
    rcases step_cases hs with ⟨hc, rfl, -⟩ | ⟨taken, rfl, hp⟩ | ⟨taken, rfl, hb⟩
    · cases a with
      | start spawned =>
        simp only [enter] at hst'
        split at hst'
        · cases hst'.2
        · exact absurd hst' hst
      | setLedMask _ | setRumble _ | stop | proceed _ | beat _ => exact absurd hst' hst
    · rcases proceed_cases hp with ⟨hc, rfl⟩ | ⟨st, hc, rfl⟩ | ⟨hc, ht, rfl⟩ | ⟨hc, rfl⟩
      · exact absurd hst' hst
      · exact absurd hst' hst
      · exact absurd hst' hst
      · have hio : d.io = true := by
          cases hio : d.io with
          | false => exact absurd ⟨hst'.1, hio⟩ hst
          | true => rfl
        obtain rfl : taken = true := hok hc
        simp [hio, write]
    · rcases (beat_cases hb).2 with ⟨st, -, rfl⟩ | ⟨t, rfl, -⟩
      · exact absurd hst' hst
      · exact absurd hst' hst

/-- Once `stop` has returned, the thread is over and nothing is written any more, whatever is called: the last report
that the controller took puts the sphere and the motor out. -/
theorem dark_after_stop {d d' : PsMoveDevice} (h : Reaches step StopWritten .new d) (hd : d.Stopped)
    (h' : Reaches step Always d d') :
    d'.thread.Over ∧ d'.written = d.written ∧ d'.written.head? = some (buildOutputReport .off) := by
  have hdark : d.written.head? = some (buildOutputReport .off) := by
    have hinv : d.Consistent ∧ d.Extinguished :=
      h.invariant (I := fun d => d.Consistent ∧ d.Extinguished) ⟨consistent_new, nofun⟩ fun _ _ _ hd hok hs =>
        ⟨consistent_step hd.1 hs, extinguished_step hd.1 hd.2 hok hs⟩
    exact hinv.2 hd
  have hkept : d'.Consistent ∧ d'.Stopped ∧ d'.written = d.written :=
    h'.invariant (I := fun e => e.Consistent ∧ e.Stopped ∧ e.written = d.written)
      ⟨consistent_of_reaches h, hd, rfl⟩ fun _ _ _ ⟨hcons, hst, hw⟩ _ hs =>
        ⟨consistent_step hcons hs, (stopped_step hcons hst hs).1, (stopped_step hcons hst hs).2.trans hw⟩
  obtain ⟨hcons, hst, hw⟩ := hkept
  exact ⟨(hcons.closed hst.2).1, hw, by rw [hw]; exact hdark⟩

/-- A device that was lit, repeated the colour once and was stopped. -/
def litOnce : PsMoveDevice where
  device := false
  io := false
  outputState := ⟨ledRgbFromMask 0b0011, 0⟩
  outputShutdown := true
  thread := .ended
  call := .none
  written := [.off, ⟨ledRgbFromMask 0b0011, 0⟩, ⟨ledRgbFromMask 0b0011, 0⟩].map buildOutputReport

theorem litOnce_dark :
    let d : PsMoveDevice := { litOnce with outputState := ⟨ledRgbFromMask 0b1111, 0⟩ }
    d.thread.Over ∧ d.written = litOnce.written ∧ d.written.head? = some (buildOutputReport .off) :=
  dark_after_stop (d := litOnce)
    (Reaches.of_exec [.start true, .setLedMask 0b0011, .proceed true, .proceed true, .beat true, .beat true, .stop,
      .beat true, .beat true, .beat true, .proceed true, .proceed true] (by decide)) (by decide)
    (Reaches.of_run [.setLedMask 0b1111, .stop, .proceed true, .proceed true] (by decide))

/-! ### What the controller shows -/

/-- The last report that the controller took; as it comes, the sphere and the motor are out. -/
def shown (d : PsMoveDevice) : List UInt8 := d.written.headD (buildOutputReport .off)

/-- The commands come after `start`, none comes between the copy of the thread and its write, and the writes of the
methods do not fail. -/
def Undisturbed (d : PsMoveDevice) : Action → Prop
  | .setLedMask _ | .setRumble _ => d.device = false ∧ d.thread.copy = none
  | .proceed taken => taken = true
  | .start _ | .stop | .beat _ => True

instance (d : PsMoveDevice) (a : Action) : Decidable (d.Undisturbed a) :=
  match a with
  | .setLedMask _ | .setRumble _ => inferInstanceAs (Decidable (d.device = false ∧ d.thread.copy = none))
  | .proceed taken => inferInstanceAs (Decidable (taken = true))
  | .start _ | .stop | .beat _ => inferInstanceAs (Decidable True)

/-- What is on its way to the controller is the state, and so is what the controller shows when nothing is. -/
structure Current (d : PsMoveDevice) : Prop where
  fresh : d.device = true → d.outputState = .off
  thread : ∀ st, d.thread = .writing st → st = d.outputState
  call : ∀ st, d.call = .writing st → st = d.outputState
  shown : ¬d.Commanding → d.shown = buildOutputReport (if d.io then d.outputState else .off)

theorem current_new : Current .new where
  fresh := fun _ => rfl
  thread := nofun
  call := nofun
  shown := fun _ => rfl

theorem current_command {d : PsMoveDevice} (h : d.Current) (hdev : d.device = false)
    (ht : d.thread.copy = none) (hc : d.call = .none) (st : OutputState) : (d.command st).Current where
  fresh := fun hd => by
    have hd : d.device = true := hd
    rw [hdev] at hd
    cases hd
  thread := fun st' hst => by
    have hst : d.thread = .writing st' := hst
    rw [hst] at ht
    cases ht
  call := fun st' hst => by
    have hst : (if d.io then Call.copying else .none) = .writing st' := hst
    split at hst <;> cases hst
  shown := fun hn => by
    cases hio : d.io with
    | true => exact absurd (Or.inl (by simp [command, hio])) hn
    | false =>
      have hs : d.shown = buildOutputReport (if d.io then d.outputState else .off) :=
        h.shown (by simp [Commanding, hc])
      have hio' : (d.command st).io = false := hio
      rw [hio', if_neg Bool.false_ne_true]
      rw [hio, if_neg Bool.false_ne_true] at hs
      exact hs

theorem current_enter {d : PsMoveDevice} {a : Action} (h : d.Current) (hcons : d.Consistent) (hok : d.Undisturbed a)
    (hc : d.call = .none) : (d.enter a).Current := by
  have hn : ¬d.Commanding := by simp [Commanding, hc]
  cases a with
  | start spawned =>
    simp only [enter]
    by_cases hd : d.device = true
    · rw [if_pos hd]
      refine ⟨nofun, fun st hst => ?_, fun st hst => ?_, fun _ => ?_⟩
      · have hst : (if spawned then OutputThread.checking else .absent) = .writing st := hst
        split at hst <;> cases hst
      · rw [hc] at hst
        cases hst
      · have hs : d.shown = buildOutputReport (if d.io then d.outputState else .off) := h.shown hn
        rw [(hcons.fresh hd).1, if_neg Bool.false_ne_true] at hs
        rw [if_pos rfl, h.fresh hd]
        exact hs
    · rw [if_neg hd]
      exact h
  | setLedMask mask => exact current_command h hok.1 hok.2 hc _
  | setRumble intensity => exact current_command h hok.1 hok.2 hc _
  | stop => exact ⟨h.fresh, h.thread, nofun, fun _ => h.shown hn⟩
  | proceed _ | beat _ => exact h

theorem current_proceed {d d' : PsMoveDevice} (h : d.Current) (hcons : d.Consistent)
    (hp : d.proceed true = some d') : d'.Current := by
  rcases proceed_cases hp with ⟨hc, rfl⟩ | ⟨st, hc, rfl⟩ | ⟨hc, ht, rfl⟩ | ⟨hc, rfl⟩
  · exact ⟨h.fresh, h.thread, fun st hst => (Call.writing.inj hst).symm, fun hn => absurd (Or.inr ⟨_, rfl⟩) hn⟩
  · have hio : d.io = true := by
      cases hio : d.io with
      | true => rfl
      | false => exact absurd (Or.inr ⟨st, hc⟩) (hcons.closed hio).2
    obtain rfl := h.call st hc
    exact ⟨h.fresh, h.thread, nofun, fun _ => by simp [PsMoveDevice.shown, write, hio]⟩
  · exact ⟨h.fresh, h.thread, nofun, fun _ => h.shown (by simp [Commanding, hc])⟩
  · refine ⟨h.fresh, h.thread, nofun, fun _ => ?_⟩
    have hs : d.shown = buildOutputReport (if d.io then d.outputState else .off) :=
      h.shown (by simp [Commanding, hc])
    cases hio : d.io with
    | true => simp [PsMoveDevice.shown, write]
    | false =>
      rw [hio] at hs
      exact hs

theorem current_beat {d d' : PsMoveDevice} {taken : Bool} (h : d.Current) (hcons : d.Consistent)
    (hb : d.beat taken = some d') : d'.Current := by
  obtain ⟨ht, hd'⟩ := beat_cases hb
  have hio : d.io = true := by
    cases hio : d.io with
    | true => rfl
    | false => exact absurd (hcons.closed hio).1 ht
  rcases hd' with ⟨st, hst, rfl⟩ | ⟨t, rfl, -, hw⟩
  · refine ⟨h.fresh, nofun, h.call, fun hn => ?_⟩
    have hs := h.shown hn
    obtain rfl := h.thread st hst
    cases taken with
    | false => exact hs
    | true => simp [PsMoveDevice.shown, write, hio]
  · exact ⟨h.fresh, fun st he => (hw st he).1, h.call, h.shown⟩

theorem current_step {d d' : PsMoveDevice} {a : Action} (h : d.Current) (hcons : d.Consistent) (hok : d.Undisturbed a)
    (hs : d.step a = some d') : d'.Current := by
  rcases step_cases hs with ⟨hc, rfl, -⟩ | ⟨taken, rfl, hp⟩ | ⟨taken, rfl, hb⟩
  · exact current_enter h hcons hok hc
  · obtain rfl : taken = true := hok
    exact current_proceed h hcons hp
  · exact current_beat h hcons hb

/-- Where no command comes between the copy of the thread and its write, the controller shows the state whenever no
method runs, and nothing once the device is stopped. -/
theorem shows_state {d : PsMoveDevice} (h : Reaches step Undisturbed .new d) (hc : d.call = .none) :
    d.shown = buildOutputReport (if d.io then d.outputState else .off) := by
  have hinv : d.Consistent ∧ d.Current :=
    h.invariant (I := fun d => d.Consistent ∧ d.Current) ⟨consistent_new, current_new⟩ fun _ _ _ hd hok hs =>
      ⟨consistent_step hd.1 hs, current_step hd.2 hd.1 hok hs⟩
  exact hinv.2.shown (by simp [Commanding, hc])

/-- A device that is green and blue; its thread has started to write the colour again. -/
def lit : PsMoveDevice where
  device := false
  io := true
  outputState := ⟨ledRgbFromMask 0b0011, 0⟩
  outputShutdown := false
  thread := .writing ⟨ledRgbFromMask 0b0011, 0⟩
  call := .none
  written := [buildOutputReport ⟨ledRgbFromMask 0b0011, 0⟩]

theorem lit_shows_state : lit.shown = [0x06, 0x00, 0x00, 0xFF, 0xFF, 0x00, 0x00, 0x00, 0x00] :=
  shows_state (Reaches.of_exec [.start true, .setLedMask 0b0011, .proceed true, .proceed true, .beat true, .beat true]
    (by decide)) rfl

/-! ### Without a command -/

/-- The last report once the thread has written its copy. -/
def pending (d : PsMoveDevice) : Option (List UInt8) :=
  match d.thread.copy with
  | some st => some (buildOutputReport st)
  | none => d.written.head?

/-- The last report of a device that is left alone: the thread repeats the state, but not when all is out. -/
def settled (d : PsMoveDevice) : Option (List UInt8) :=
  if d.outputState = .off then d.pending else some (buildOutputReport d.outputState)

/-- The thread goes on for good, and whatever it writes is the report that is there already. -/
structure Steady (report : Option (List UInt8)) (d : PsMoveDevice) : Prop where
  thread : ¬d.thread.Over
  shutdown : d.outputShutdown = false
  state : d.outputState ≠ .off → report = some (buildOutputReport d.outputState)
  copy : ∀ st, d.thread = .writing st → report = some (buildOutputReport st)
  last : d.written.head? = report

theorem steady_beat {report : Option (List UInt8)} {d : PsMoveDevice} (h : d.Steady report) :
    ∃ d', d.step (.beat true) = some d' ∧ d'.Steady report := by
  obtain ⟨ht, hs, hst, hcopy, hlast⟩ := h
  rcases d with ⟨device, io, outputState, outputShutdown, thread, call, written⟩
  obtain rfl : outputShutdown = false := hs
  cases thread with
  | absent => exact absurd (Or.inl rfl) ht
  | ended => exact absurd (Or.inr rfl) ht
  | checking => exact ⟨_, rfl, by simp [OutputThread.Over], rfl, hst, nofun, hlast⟩
  | copying =>
    refine ⟨_, rfl, ?_, rfl, hst, fun st he => ?_, hlast⟩
    · show ¬OutputThread.Over (if outputState = .off then .sleeping else .writing outputState)
      split <;> simp [OutputThread.Over]
    · have he : (if outputState = .off then OutputThread.sleeping else .writing outputState) = .writing st := he
      by_cases hoff : outputState = .off
      · rw [if_pos hoff] at he
        cases he
      · rw [if_neg hoff] at he
        cases he
        exact hst hoff
  | writing st => exact ⟨_, rfl, by simp [OutputThread.Over], rfl, hst, nofun, (hcopy st rfl).symm⟩
  | sleeping => exact ⟨_, rfl, by simp [OutputThread.Over], rfl, hst, nofun, hlast⟩

theorem steady_beats {report : Option (List UInt8)} {d : PsMoveDevice} (h : d.Steady report) (n : Nat) :
    ∃ d', exec step d (List.replicate n (.beat true)) = some d' ∧ d'.Steady report := by
  induction n generalizing d with
  | zero => exact ⟨d, rfl, h⟩
  | succ n ih =>
    obtain ⟨d₁, hs, h₁⟩ := steady_beat h
    obtain ⟨d', hd', h'⟩ := ih h₁
    refine ⟨d', ?_, h'⟩
    rw [List.replicate_succ, exec, hs]
    exact hd'

/-- Five steps take the thread once around: it writes what it has copied, wakes up, and writes the state. -/
theorem steady_of_round {d : PsMoveDevice} (ht : ¬d.thread.Over) (hs : d.outputShutdown = false) :
    ∃ d', exec step d (List.replicate 5 (.beat true)) = some d' ∧ d'.Steady d.settled := by
  rcases d with ⟨device, io, outputState, outputShutdown, thread, call, written⟩
  obtain rfl : outputShutdown = false := hs
  have hcheck : ¬OutputThread.Over .checking := by decide
  have hcopy : ¬OutputThread.Over .copying := by decide
  have hsleep : ¬OutputThread.Over .sleeping := by decide
  by_cases hoff : outputState = .off
  · subst hoff
    have hst : ∀ r, OutputState.off ≠ .off → r = some (buildOutputReport .off) := fun _ h => absurd rfl h
    cases thread with
    | absent => exact absurd (Or.inl rfl) ht
    | ended => exact absurd (Or.inr rfl) ht
    | checking =>
      exact ⟨⟨device, io, .off, false, .sleeping, call, written⟩, rfl, hsleep, rfl, hst _,
        fun _ he => (by cases he), rfl⟩
    | copying =>
      exact ⟨⟨device, io, .off, false, .checking, call, written⟩, rfl, hcheck, rfl, hst _,
        fun _ he => (by cases he), rfl⟩
    | writing st =>
      exact ⟨⟨device, io, .off, false, .checking, call, buildOutputReport st :: written⟩, rfl, hcheck, rfl, hst _,
        fun _ he => (by cases he), rfl⟩
    | sleeping =>
      exact ⟨⟨device, io, .off, false, .copying, call, written⟩, rfl, hcopy, rfl, hst _,
        fun _ he => (by cases he), rfl⟩
  · have hset : ∀ t, settled ⟨device, io, outputState, false, t, call, written⟩
        = some (buildOutputReport outputState) := fun _ => if_neg hoff
    have hst : ∀ t, outputState ≠ .off → settled ⟨device, io, outputState, false, t, call, written⟩
        = some (buildOutputReport outputState) := fun t _ => hset t
    cases thread with
    | absent => exact absurd (Or.inl rfl) ht
    | ended => exact absurd (Or.inr rfl) ht
    | checking =>
      exact ⟨⟨device, io, outputState, false, .copying, call, buildOutputReport outputState :: written⟩,
        by simp [exec, step, beat, hoff, write, List.replicate], hcopy, rfl, hst _,
        fun _ he => (by cases he), (hset _).symm⟩
    | copying =>
      exact ⟨⟨device, io, outputState, false, .writing outputState, call, buildOutputReport outputState :: written⟩,
        by simp [exec, step, beat, hoff, write, List.replicate], by simp [OutputThread.Over], rfl, hst _,
        fun st he => by rw [hset, OutputThread.writing.inj he], (hset _).symm⟩
    | writing st =>
      exact ⟨⟨device, io, outputState, false, .sleeping, call,
          buildOutputReport outputState :: buildOutputReport st :: written⟩,
        by simp [exec, step, beat, hoff, write, List.replicate], hsleep, rfl, hst _,
        fun _ he => (by cases he), (hset _).symm⟩
    | sleeping =>
      exact ⟨⟨device, io, outputState, false, .checking, call, buildOutputReport outputState :: written⟩,
        by simp [exec, step, beat, hoff, write, List.replicate], hcheck, rfl, hst _,
        fun _ he => (by cases he), (hset _).symm⟩

/-- A started device that is left alone, its writes taken: from the fifth step of the thread on the controller shows
the state if anything is lit, whatever it showed before.  When all is out the thread writes nothing of its own, and
what it had copied before is the last report for good. -/
theorem left_alone {ok : PsMoveDevice → Action → Prop} {d : PsMoveDevice} (h : Reaches step ok .new d)
    (hc : d.call = .none) (hio : d.io = true) (ht : d.thread ≠ .absent) {n : Nat} (hn : 5 ≤ n) :
    ∃ d', exec step d (List.replicate n (.beat true)) = some d' ∧ d'.written.head? = d.settled := by
  have hcons : d.Consistent := consistent_of_reaches h
  have hs : d.outputShutdown = false := by
    cases hs : d.outputShutdown with
    | false => rfl
    | true => simpa [hc, hio] using hcons.shutdown hs
  have hover : ¬d.thread.Over := by
    rintro (habs | hend)
    · exact ht habs
    · rw [hcons.ended hend] at hs
      cases hs
  obtain ⟨d₁, h₁, hsteady⟩ := steady_of_round hover hs
  obtain ⟨d', h', hd'⟩ := steady_beats hsteady (n - 5)
  refine ⟨d', ?_, hd'.last⟩
  have hsplit : List.replicate n (Action.beat true)
      = List.replicate 5 (.beat true) ++ List.replicate (n - 5) (.beat true) := by
    rw [List.replicate_append_replicate, Nat.add_sub_cancel' hn]
  rw [hsplit, exec_append, h₁]
  exact h'

/-- The LEDs are put out just before the thread writes the colour it has copied: the sphere lights up again and stays
lit while the thread goes on. -/
theorem lit_left_alone :
    ∃ d', exec step { lit with outputState := .off, written := buildOutputReport .off :: lit.written }
        (List.replicate 1000 (.beat true)) = some d' ∧
      d'.written.head? = some [0x06, 0x00, 0x00, 0xFF, 0xFF, 0x00, 0x00, 0x00, 0x00] :=
  left_alone (Reaches.of_run [.start true, .setLedMask 0b0011, .proceed true, .proceed true, .beat true, .beat true,
    .setLedMask 0b0000, .proceed true, .proceed true] (by decide)) rfl rfl (by decide) (by decide)

end PsMoveDevice

end EverythingImu.Sony.PsMove
