import EverythingImu.Devices.ResetButton
import EverythingImu.Devices.SonyOutput
import EverythingImu.Library.StepRun

/-!
# The transport of a DualSense

The reader thread and the commands of `DualSenseDevice` (`device-dualsense/src/device.rs`).  An output report has one
shape for USB and one for Bluetooth.  The device does not ask which link it is on: the parser knows it from the length
of a report with a known layout, and a command from the length that the reader thread stored last.  The length is
stored before the report is parsed, of any report.

The reader thread hands over what one read gives, at most the 78 bytes of its buffer; it may still do so once after
the device is stopped.  The channel of the events and the failures of the HID calls are left out.
-/

namespace EverythingImu.Sony.DualSense

open StepRun

/-- The system button, if the report has a known length. -/
def parsePsButton (kind : ControllerKind) (buf : List UInt8) : Option Bool := do
  let offsets ← ImuOffsets.forReport kind buf.length
  let off ← offsets.buttons2
  let byte ← buf[off]?
  return byte &&& 0x01 != 0

/-- `rumble::to_u8`; a NaN stands for zero. -/
def toU8 (intensity : Float32) : UInt8 :=
  ((if intensity.isNaN then 0.0 else Scalar.clamp intensity 0.0 1.0) * 255.0).round.toUInt8

/-! ### The device -/

structure DualSenseDevice where
  deviceId : DeviceId
  kind : ControllerKind
  /-- The handle has not been taken by `start` yet. -/
  device : Bool
  /-- The handle is open for output. -/
  io : Bool
  calibration : Option SonyCalibration
  outputState : OutputState
  lastReportLen : Nat
  /-- The reader has announced the device. -/
  connected : Bool
  resetDetector : ResetButtonDetector
deriving DecidableEq

/-- What sets the motors or the LEDs. -/
inductive Command where
  | led (mask : UInt8)
  | rumble (intensity : Float32)

inductive Event where
  /-- The calibration is what the device gives when it is asked for it. -/
  | start (calibration : Option SonyCalibration)
  | stop
  | read (report : List UInt8) (now : Instant)
  | command (c : Command)

/-- The size of the buffer of the reader thread. -/
def READ_BUFFER_LEN : Nat := 78

namespace DualSenseDevice

def new (deviceId : DeviceId) (kind : ControllerKind) : DualSenseDevice where
  deviceId
  kind
  device := true
  io := false
  calibration := none
  outputState := ⟨0, 0, 0⟩
  lastReportLen := 0
  connected := false
  resetDetector := .new

variable (d : DualSenseDevice)

/-- The report that goes to the device, if any. -/
def writeOutput : Option (List UInt8) :=
  if d.lastReportLen = 0 then none
  else
    let report := buildOutputReport d.kind d.outputState (78 ≤ d.lastReportLen)
    if report.isEmpty then none else some report

def start (calibration : Option SonyCalibration) : DualSenseDevice × Except String Unit :=
  if d.device then
    ({ d with device := false, calibration, io := true, connected := false, resetDetector := .new }, .ok ())
  else (d, .error "device handle already taken")

def stop : DualSenseDevice := { d with io := false }

/-- What the reader thread does with a report, and the events it sends. -/
def onReport (buf : List UInt8) (now : Instant) : DualSenseDevice × List ChannelInfo :=
  let announced := if d.connected then [] else [ChannelInfo.connected d.deviceId]
  let d := { d with connected := true, lastReportLen := buf.length }
  match parseReport d.kind buf d.calibration with
  | none => (d, announced)
  | some (sample, battery) =>
    let parsed := .imuSamples [sample] :: (battery.map ChannelInfo.battery).toList
    match parsePsButton d.kind buf with
    | none => (d, announced ++ parsed)
    | some ps =>
      let (detector, reset) := d.resetDetector.observe (.homeOrCapture ps false) now
      ({ d with resetDetector := detector }, announced ++ parsed ++ (reset.map ChannelInfo.resetRequested).toList)

def setLedMask (mask : UInt8) : DualSenseDevice × Except String (Option (List UInt8)) :=
  let d := { d with
    outputState := { d.outputState with ledMask4bit := mask &&& 0x0F, ledMask5bit := mapLedMaskToDualsense mask } }
  (d, if d.io then .ok d.writeOutput else .error "dualsense not started")

def setRumble (intensity : Float32) : DualSenseDevice × Except String (Option (List UInt8)) :=
  let d := { d with outputState := { d.outputState with rumble := toU8 intensity } }
  (d, if d.io then .ok d.writeOutput else .error "dualsense not started")

def command : Command → DualSenseDevice × Except String (Option (List UInt8))
  | .led mask => d.setLedMask mask
  | .rumble intensity => d.setRumble intensity

/-- One turn of the reader thread: a read that gives nothing has timed out. -/
def read (report : List UInt8) (now : Instant) : DualSenseDevice × List ChannelInfo :=
  let buf := report.take READ_BUFFER_LEN
  if buf.length = 0 then (d, []) else d.onReport buf now

/-- Nothing is read before the device is started. -/
def step : Event → Option DualSenseDevice
  | .start calibration => some (d.start calibration).1
  | .stop => some d.stop
  | .read report now => if d.device then none else some (d.read report now).1
  | .command c => some (d.command c).1

end DualSenseDevice

/-! ### The shapes of the output reports -/

inductive Transport where
  | usb
  | bluetooth
deriving DecidableEq

/-- The transport of an input report with a known layout. -/
def transportOf (kind : ControllerKind) (len : Nat) : Option Transport :=
  (ImuOffsets.forReport kind len).map fun _ => if len = 64 then .usb else .bluetooth

/-- The length and the first bytes of an output report: over Bluetooth the report of a DualSense has a tag behind its
number, and both end in a checksum. -/
def HasShape (kind : ControllerKind) : Transport → List UInt8 → Prop
  | .usb, report =>
    match kind with
    | .dualSense | .dualSenseEdge => report.length = 48 ∧ report.take 1 = [0x02]
    | .dualShock4 => report.length = 32 ∧ report.take 2 = [0x05, 0x07]
  | .bluetooth, report =>
    report.length = 78 ∧ crc32WithSeed 0xA2 report = CRC32_RESIDUE ∧
      match kind with
      | .dualSense | .dualSenseEdge => report.take 2 = [0x31, 0x02]
      | .dualShock4 => report.take 4 = [0x11, 0xC0, 0x20, 0x07]

theorem HasShape.transport_unique {kind : ControllerKind} {t t' : Transport} {report : List UInt8}
    (h : HasShape kind t report) (h' : HasShape kind t' report) : t = t' := by
  cases t <;> cases t' <;> cases kind <;> simp_all [HasShape]

theorem usb_shape (kind : ControllerKind) (state : OutputState) :
    HasShape kind .usb (buildOutputReport kind state false) := by
  cases kind
  · exact ⟨by simp [buildOutputReport, buildDs5UsbReport, length_fillDs5Payload], rfl⟩
  · exact ⟨by simp [buildOutputReport, buildDs5UsbReport, length_fillDs5Payload], rfl⟩
  · exact ⟨by simp [buildOutputReport, buildDs4UsbReport], rfl⟩

theorem bluetooth_shape (kind : ControllerKind) (state : OutputState) :
    HasShape kind .bluetooth (buildOutputReport kind state true) := by
  obtain ⟨report, hlen, hbuild⟩ := exists_appendCrc kind state
  refine ⟨?_, ?_, ?_⟩
  · rw [hbuild, appendCrc_eq report hlen]
    simp [hlen, toLeBytes]
  · rw [hbuild, appendCrc_eq report hlen, crc32WithSeed_append_toLeBytes]
  · cases kind <;> rfl

/-! ### The transport that the last report tells -/

theorem transportOf_eq_bluetooth_iff {kind : ControllerKind} {len : Nat} :
    transportOf kind len = some .bluetooth ↔ 78 ≤ len := by
  cases kind <;> unfold transportOf ImuOffsets.forReport <;> split_ifs <;> simp_all

/-- The length of what a read gives; one that gives nothing is no report. -/
def Event.readLen : Event → Option Nat
  | .read report _ => if min READ_BUFFER_LEN report.length = 0 then none else some (min READ_BUFFER_LEN report.length)
  | _ => none

/-- The lengths of the reports of a run, in order. -/
def readLens (events : List Event) : List Nat := events.filterMap Event.readLen

/-- The transport of the most recent report with a known layout. -/
def lastTransport (kind : ControllerKind) (lens : List Nat) : Option Transport :=
  (lens.filterMap (transportOf kind)).getLast?

theorem readLens_pos {events : List Event} {len : Nat} (h : len ∈ readLens events) : 0 < len := by
  obtain ⟨e, -, he⟩ := List.mem_filterMap.1 h
  cases e with
  | read report now =>
    rw [Event.readLen] at he
    split at he
    · cases he
    · have hlen := Option.some.inj he
      omega
  | _ => cases he

/-- If the last report has a known layout, it is the most recent such report. -/
theorem lastTransport_of_getLast? {kind : ControllerKind} {lens : List Nat} {len : Nat} {t : Transport}
    (hlast : lens.getLast? = some len) (ht : transportOf kind len = some t) : lastTransport kind lens = some t := by
  obtain ⟨init, rfl⟩ := List.getLast?_eq_some_iff.1 hlast
  simp [lastTransport, List.filterMap_append, ht]

/-! ### Runs -/

namespace DualSenseDevice

@[simp] theorem command_kind (d : DualSenseDevice) (c : Command) : (d.command c).1.kind = d.kind := by cases c <;> rfl

@[simp] theorem command_lastReportLen (d : DualSenseDevice) (c : Command) :
    (d.command c).1.lastReportLen = d.lastReportLen := by
  cases c <;> rfl

/-- What a command writes is made of the state after it. -/
theorem command_snd (d : DualSenseDevice) (c : Command) :
    (d.command c).2 = if d.io then .ok (d.command c).1.writeOutput else .error "dualsense not started" := by
  cases c <;> rfl

/-- The length is stored whether the report has a known layout or not. -/
theorem onReport_fst (d : DualSenseDevice) (buf : List UInt8) (now : Instant) :
    (d.onReport buf now).1.kind = d.kind ∧ (d.onReport buf now).1.lastReportLen = buf.length := by
  dsimp only [onReport]
  cases parseReport d.kind buf d.calibration with
  | none => exact ⟨rfl, rfl⟩
  | some parsed => cases parsePsButton d.kind buf <;> exact ⟨rfl, rfl⟩

/-- A step stores the length of the report it reads. -/
theorem step_lastReportLen {d d' : DualSenseDevice} {e : Event} (h : d.step e = some d') :
    d'.kind = d.kind ∧ d'.lastReportLen = e.readLen.getD d.lastReportLen := by
  cases e with
  | start calibration =>
    obtain rfl := Option.some.inj h
    unfold start
    split <;> exact ⟨rfl, rfl⟩
  | stop =>
    obtain rfl := Option.some.inj h
    exact ⟨rfl, rfl⟩
  | read report now =>
    have hread : d' = (d.read report now).1 := by
      rw [step] at h
      split at h
      · cases h
      · exact (Option.some.inj h).symm
    rw [hread, read, Event.readLen, List.length_take]
    split
    · exact ⟨rfl, rfl⟩
    · obtain ⟨hkind, hlen⟩ := onReport_fst d (report.take READ_BUFFER_LEN) now
      exact ⟨hkind, by rw [hlen, List.length_take]; rfl⟩
  | command c =>
    obtain rfl := Option.some.inj h
    exact ⟨command_kind .., command_lastReportLen ..⟩

/-- The stored length is that of the last report, whatever it was. -/
theorem exec_lastReportLen {d d' : DualSenseDevice} {events : List Event} (h : exec step d events = some d') :
    d'.kind = d.kind ∧ d'.lastReportLen = (readLens events).getLast?.getD d.lastReportLen := by
  induction events generalizing d with
  | nil =>
    obtain rfl := Option.some.inj h
    exact ⟨rfl, rfl⟩
  | cons e events ih =>
    obtain ⟨d₁, hstep, hrest⟩ := Option.bind_eq_some_iff.1 h
    obtain ⟨hkind, hlen⟩ := step_lastReportLen hstep
    obtain ⟨ihkind, ihlen⟩ := ih hrest
    refine ⟨ihkind.trans hkind, ?_⟩
    rw [ihlen, hlen, readLens, readLens, List.filterMap_cons]
    cases e.readLen with
    | none => rfl
    | some len =>
      rw [List.getLast?_cons]
      cases (List.filterMap Event.readLen events).getLast? <;> rfl

theorem writeOutput_none {d : DualSenseDevice} (h : d.lastReportLen = 0) : d.writeOutput = none := if_pos h

/-- The shape of what is written is chosen by the stored length alone. -/
theorem writeOutput_shape {d : DualSenseDevice} (h : d.lastReportLen ≠ 0) :
    ∃ report, d.writeOutput = some report ∧
      HasShape d.kind (if 78 ≤ d.lastReportLen then .bluetooth else .usb) report := by
  have hshape : HasShape d.kind (if 78 ≤ d.lastReportLen then .bluetooth else .usb)
      (buildOutputReport d.kind d.outputState (78 ≤ d.lastReportLen)) := by
    by_cases hbt : 78 ≤ d.lastReportLen
    · rw [if_pos hbt, decide_eq_true hbt]
      exact bluetooth_shape d.kind d.outputState
    · rw [if_neg hbt, decide_eq_false hbt]
      exact usb_shape d.kind d.outputState
  refine ⟨_, ?_, hshape⟩
  have hne : (buildOutputReport d.kind d.outputState (78 ≤ d.lastReportLen)).isEmpty = false := by
    cases hb : (buildOutputReport d.kind d.outputState (78 ≤ d.lastReportLen)) with
    | nil =>
      rw [hb] at hshape
      split at hshape <;> cases hk : d.kind <;> simp [HasShape, hk] at hshape
    | cons b bs => rfl
  rw [writeOutput, if_neg h]
  simp [hne]

end DualSenseDevice

/-- A command writes nothing, or a report for the transport of the most recent recognised input report. -/
def MatchesLink (kind : ControllerKind) (lens : List Nat) (result : Except String (Option (List UInt8))) : Prop :=
  ∀ report, result = .ok (some report) → ∃ t, lastTransport kind lens = some t ∧ HasShape kind t report

theorem matchesLink_of_written {kind : ControllerKind} {lens : List Nat} {report : List UInt8} {t : Transport}
    (hshape : HasShape kind t report) :
    MatchesLink kind lens (.ok (some report)) ↔ lastTransport kind lens = some t := by
  constructor
  · intro h
    obtain ⟨t', ht', hshape'⟩ := h report rfl
    rw [hshape.transport_unique hshape', ht']
  · rintro h _ ⟨⟩
    exact ⟨t, h, hshape⟩

/-- The last report of at least 78 bytes decides the shape, and is the most recent recognised one; a shorter one is
taken for USB. -/
theorem lastTransport_eq_iff {kind : ControllerKind} {lens : List Nat} {len : Nat} (hlast : lens.getLast? = some len) :
    lastTransport kind lens = some (if 78 ≤ len then .bluetooth else .usb) ↔
      (transportOf kind len).isSome ∨ lastTransport kind lens = some .usb := by
  by_cases hlen : 78 ≤ len
  · have hbt : transportOf kind len = some .bluetooth := transportOf_eq_bluetooth_iff.2 hlen
    rw [if_pos hlen, lastTransport_of_getLast? hlast hbt, hbt]
    simp
  · rw [if_neg hlen]
    constructor
    · exact Or.inr
    · rintro (h | h)
      · obtain ⟨t, ht⟩ := Option.isSome_iff_exists.1 h
        cases t with
        | usb => exact lastTransport_of_getLast? hlast ht
        | bluetooth => exact absurd (transportOf_eq_bluetooth_iff.1 ht) hlen
      · exact h

/-- What a command writes after a run matches the link exactly if the device is closed, or nothing has been read yet,
or the last report had a known layout, or the most recent such report came over USB. -/
theorem command_matchesLink_iff (deviceId : DeviceId) (kind : ControllerKind) (events : List Event)
    (d : DualSenseDevice) (h : exec DualSenseDevice.step (.new deviceId kind) events = some d) (c : Command) :
    MatchesLink kind (readLens events) (d.command c).2 ↔
      d.io = false ∨ readLens events = [] ∨ ((readLens events).getLast?.bind (transportOf kind)).isSome ∨
        lastTransport kind (readLens events) = some .usb := by
  obtain ⟨hkind, hlen⟩ := DualSenseDevice.exec_lastReportLen h
  have hkind : (d.command c).1.kind = kind := (DualSenseDevice.command_kind d c).trans hkind
  have hlen : (d.command c).1.lastReportLen = (readLens events).getLast?.getD 0 :=
    (DualSenseDevice.command_lastReportLen d c).trans hlen
  rw [DualSenseDevice.command_snd]
  cases hio : d.io with
  | false => exact iff_of_true (fun report hr => by cases hr) (.inl rfl)
  | true =>
    cases hlast : (readLens events).getLast? with
    | none =>
      rw [hlast] at hlen
      have hnil : readLens events = [] := List.getLast?_eq_none_iff.1 hlast
      rw [if_pos rfl, DualSenseDevice.writeOutput_none hlen]
      exact iff_of_true (fun report hr => by cases hr) (.inr (.inl hnil))
    | some len =>
      rw [hlast, Option.getD_some] at hlen
      have hmem : len ∈ readLens events := List.mem_of_getLast? hlast
      have hpos : (d.command c).1.lastReportLen ≠ 0 := hlen ▸ (readLens_pos hmem).ne'
      have hne : readLens events ≠ [] := List.ne_nil_of_mem hmem
      obtain ⟨report, hreport, hshape⟩ := DualSenseDevice.writeOutput_shape hpos
      rw [hkind, hlen] at hshape
      rw [if_pos rfl, hreport, matchesLink_of_written hshape, lastTransport_eq_iff hlast]
      simp [hne]

/-- A full report over Bluetooth, then a command. -/
theorem full_report_matchesLink : ∃ d,
    exec DualSenseDevice.step (.new ⟨.replicate 6 0, ""⟩ .dualSense) [.start none, .read (0x31 :: .replicate 77 0) 0]
      = some d ∧ MatchesLink .dualSense [78] (d.command (.led 0x01)).2 :=
  ⟨_, rfl, (command_matchesLink_iff ⟨.replicate 6 0, ""⟩ .dualSense [.start none, .read (0x31 :: .replicate 77 0) 0] _
    rfl (.led 0x01)).2 (.inr (.inr (.inl (by decide))))⟩

/-- A DualSense on Bluetooth that gives a simple report of ten bytes between its full ones. -/
def simpleReportRun : List Event :=
  [.start none, .read (0x31 :: .replicate 77 0) 0, .read (0x01 :: .replicate 9 0) 4_000_000]

theorem simpleReport_spoils_link :
    ¬ ∀ (deviceId : DeviceId) (kind : ControllerKind) (events : List Event) (d : DualSenseDevice) (c : Command),
      exec DualSenseDevice.step (.new deviceId kind) events = some d →
        MatchesLink kind (readLens events) (d.command c).2 := by
  intro h
  obtain ⟨t, ht, hshape⟩ := h ⟨.replicate 6 0, ""⟩ .dualSense simpleReportRun _ (.led 0x01) rfl _ rfl
  have hbt : lastTransport .dualSense (readLens simpleReportRun) = some .bluetooth := by decide
  obtain rfl : Transport.bluetooth = t := Option.some.inj (hbt.symm.trans ht)
  exact absurd hshape.1 (by decide)

end EverythingImu.Sony.DualSense
