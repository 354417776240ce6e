import EverythingImu.Devices.SonyTransport
import EverythingImu.Devices.Steam
import EverythingImu.Joycon.Jc1
import EverythingImu.Joycon.Samples
import EverythingImu.Library.ReaderThread

/-!
# The reader threads of the HID devices

Each backend reads its device in a thread of its own, into a channel of 64 events.  They differ in what they do when the
channel is full, how they announce the device, how many failed reads they put up with, how they are stopped, and
whether they say so then.  The callbacks of the DualSense and the PS Move send with `try_send` and announce the device
at its first report; the others wait (`blocking_send`) and announce it when they start.  The Joy-Con has a task between
its thread and the consumer, which makes the announcement.

The Steam devices are stopped through a watch channel, whose sender `stop` drops right behind the stop.  The thread of
a Steam Controller takes the closed channel for a stop, that of a Steam Deck for no change: it reads on, unless it looks
in between (`disconnected_iff`).

A read is over at the length of the thread's buffer.
-/

namespace EverythingImu

/-- The event is neither the announcement nor the farewell. -/
def ChannelInfo.IsData : ChannelInfo → Prop
  | .imuSamples _ | .battery _ | .resetRequested _ => True
  | .connected _ | .disconnected => False

namespace Devices

open StepRun ReaderThread

/-- What a read gives, and when. -/
abbrev HidReport := List UInt8 × Instant

def CHANNEL_CAPACITY : Nat := 64

/-- How a thread deals with its channel. -/
structure HidThread where
  State : Type
  bufferLen : Nat
  /-- What the thread does with a report of at least one byte. -/
  onReport : State → HidReport → State × List ChannelInfo
  start : State
  /-- The events that are in the channel before the thread runs. -/
  queued : List ChannelInfo
  /-- The events that the thread sends before it reads. -/
  greeting : List ChannelInfo
  config : Config ChannelInfo

namespace HidThread

/-- A report as it comes; an empty one is a read that has timed out. -/
def parse (t : HidThread) (st : t.State) (report : HidReport) : t.State × List ChannelInfo :=
  let buf := report.1.take t.bufferLen
  if buf.isEmpty then (st, []) else t.onReport st (buf, report.2)

/-- The thread, begun. -/
def begun (t : HidThread) : ReaderThread.State t.State HidReport ChannelInfo := .start t.start t.queued t.greeting

abbrev step (t : HidThread) := ReaderThread.step t.config t.parse

/-- All that the thread makes of the reads. -/
def produced (t : HidThread) (reads : List (Read HidReport)) : List ChannelInfo :=
  t.queued ++ t.greeting ++ eventsOf t.parse t.start reads

end HidThread

/-! ### The callbacks -/

/-- The samples as an event. -/
def samplesEvent (samples : Option (List ImuSample)) : List ChannelInfo := (samples.map .imuSamples).toList

namespace PsMove

open Sony.PsMove

structure Callback where
  connectedFlag : Bool
  clock : ReportClock
deriving DecidableEq

def parsedEvents : Option (List ImuSample × Option BatteryState) → List ChannelInfo
  | some (samples, battery) => .imuSamples samples :: (battery.map ChannelInfo.battery).toList
  | none => []

def onReport (id : DeviceId) (kind : ControllerKind) (cal : ImuCalibration) (st : Callback) (report : HidReport) :
    Callback × List ChannelInfo :=
  let announced := if st.connectedFlag then [] else [ChannelInfo.connected id]
  let (clock, parsed) := parseReport kind report.1 st.clock cal report.2
  (⟨true, clock⟩, announced ++ parsedEvents parsed)

end PsMove

namespace JoyCon1

open Joycon

/-- What the callback keeps from report to report. -/
structure Callback where
  cal : CalState
  detector : ResetButtonDetector
  lastBatteryFraction : Float32
  batteryReportCounter : Nat

def Callback.new : Callback := ⟨.start, .new, -1.0, 0⟩

def BIT_HOME : UInt8 := 0x10
def BIT_CAPTURE : UInt8 := 0x20

def decode (kind : ControllerKind) (b : ButtonsRaw) : ButtonState :=
  let home := b.shared &&& BIT_HOME != 0
  let capture := b.shared &&& BIT_CAPTURE != 0
  match kind with
  | .joyConL | .chargingGripL => .captureOnly capture
  | .joyConR | .chargingGripR | .proController => .homeOrCapture home capture

/-- The battery is sent when its value changes, and every 600 reports. -/
def Callback.battery (st : Callback) (battery : BatteryState) : Callback × List ChannelInfo :=
  let counter := st.batteryReportCounter + 1
  if battery.fraction != st.lastBatteryFraction || decide (600 ≤ counter) then
    ({ st with lastBatteryFraction := battery.fraction, batteryReportCounter := 0 }, [.battery battery])
  else ({ st with batteryReportCounter := counter }, [])

def onReport (kind : ControllerKind) (st : Callback) (report : HidReport) : Callback × List ChannelInfo :=
  let (buf, now) := report
  let st := { st with cal := Joycon.onReport st.cal buf }
  if buf.head? = some 0x21 then (st, [])
  else
    match parse0x30 buf with
    | .error _ => (st, [])
    | .ok r =>
      let (st, battery) := st.battery r.battery
      let (detector, reset) := st.detector.observe (decode kind r.buttons) now
      ({ st with detector }, samplesEvent (jc1Samples kind st.cal.cal buf) ++ battery
        ++ (reset.map ChannelInfo.resetRequested).toList)

end JoyCon1

/-! ### The threads -/

/-- A thread that sends with `try_send`: the event is lost when there is no space. -/
def tryingConfig : Config ChannelInfo where
  capacity := CHANNEL_CAPACITY
  waits := false
  quitsWhenGone := false
  maxErrors := 1
  flag := .shared
  partsOnStop := false
  farewell := .disconnected

/-- A thread that sends with `blocking_send`, ends when nobody receives, and takes leave whenever it ends. -/
def blockingConfig (maxErrors : Nat) (flag : StopFlag) : Config ChannelInfo where
  capacity := CHANNEL_CAPACITY
  waits := true
  quitsWhenGone := true
  maxErrors
  flag
  partsOnStop := true
  farewell := .disconnected

namespace HidThread

def dualSense (id : DeviceId) (kind : Sony.DualSense.ControllerKind)
    (calibration : Option Sony.DualSense.SonyCalibration) : HidThread where
  State := Sony.DualSense.DualSenseDevice
  bufferLen := Sony.DualSense.READ_BUFFER_LEN
  onReport := fun d report => d.onReport report.1 report.2
  start := (Sony.DualSense.DualSenseDevice.new id kind |>.start calibration).1
  queued := []
  greeting := []
  config := tryingConfig

def psMove (id : DeviceId) (kind : Sony.PsMove.ControllerKind) (calibration : Sony.PsMove.ImuCalibration) :
    HidThread where
  State := PsMove.Callback
  bufferLen := 64
  onReport := PsMove.onReport id kind calibration
  start := ⟨false, .new⟩
  queued := []
  greeting := []
  config := tryingConfig

def MAX_CONSECUTIVE_READ_ERRORS : Nat := 10

/-- The thread makes the announcement itself. -/
def dualShock3 (id : DeviceId) (start : Instant) : HidThread where
  State := Unit
  bufferLen := 64
  onReport := fun _ report =>
    ((), samplesEvent <| (Sony.DualShock3.parseInputReport report.1).map fun m =>
      [Sony.DualShock3.imuFromMotion m start report.2])
  start := ()
  queued := []
  greeting := [.connected id]
  config := blockingConfig MAX_CONSECUTIVE_READ_ERRORS .shared

def steamDeck (id : DeviceId) (epoch : Instant) : HidThread where
  State := Unit
  bufferLen := 128
  onReport := fun _ report => ((), samplesEvent <| (Steam.Deck.readReport report.1 epoch report.2).map ([·]))
  start := ()
  queued := [.connected id]
  greeting := []
  config := blockingConfig 1 .closingHides

def steamController (id : DeviceId) (epoch : Instant) : HidThread where
  State := Unit
  bufferLen := 128
  onReport := fun _ report => ((), samplesEvent <| (Steam.Controller.readReport report.1 epoch report.2).map ([·]))
  start := ()
  queued := [.connected id]
  greeting := []
  config := blockingConfig 1 .closingStops

/-- The callback ignores that nobody receives, and a thread that is stopped says nothing. -/
def joyCon1 (kind : Joycon.ControllerKind) : HidThread where
  State := JoyCon1.Callback
  bufferLen := 64
  onReport := JoyCon1.onReport kind
  start := .new
  queued := []
  greeting := []
  config := { blockingConfig 1 .shared with quitsWhenGone := false, partsOnStop := false }

end HidThread

/-- The backends whose device a thread reads. -/
inductive HidBackend where
  | dualSense (kind : Sony.DualSense.ControllerKind) (calibration : Option Sony.DualSense.SonyCalibration)
  | psMove (kind : Sony.PsMove.ControllerKind) (calibration : Sony.PsMove.ImuCalibration)
  | dualShock3
  | steamDeck
  | steamController
  | joyCon1 (kind : Joycon.ControllerKind)

namespace HidBackend

/-- The thread of a device, from an instant on. -/
def thread (id : DeviceId) (epoch : Instant) : HidBackend → HidThread
  | dualSense kind calibration => .dualSense id kind calibration
  | psMove kind calibration => .psMove id kind calibration
  | dualShock3 => .dualShock3 id epoch
  | steamDeck => .steamDeck id epoch
  | steamController => .steamController id epoch
  | joyCon1 kind => .joyCon1 kind

/-- The announcement is made in the channel of the thread. -/
def AnnouncesItself : HidBackend → Prop
  | dualSense _ _ | psMove _ _ | dualShock3 | steamDeck | steamController => True
  | joyCon1 _ => False

end HidBackend

/-! ### What the threads make of the reports -/

theorem isData_samplesEvent (samples : Option (List ImuSample)) : ∀ e ∈ samplesEvent samples, e.IsData := by
  cases samples with
  | none => nofun
  | some samples =>
    intro e he
    obtain rfl : e = .imuSamples samples := by simpa [samplesEvent] using he
    trivial

theorem isData_battery (battery : Option BatteryState) : ∀ e ∈ (battery.map ChannelInfo.battery).toList, e.IsData := by
  cases battery with
  | none => nofun
  | some battery =>
    intro e he
    obtain rfl : e = .battery battery := by simpa using he
    trivial

theorem isData_reset (reset : Option ResetKind) : ∀ e ∈ (reset.map ChannelInfo.resetRequested).toList, e.IsData := by
  cases reset with
  | none => nofun
  | some reset =>
    intro e he
    obtain rfl : e = .resetRequested reset := by simpa using he
    trivial

section Callbacks

variable {S R : Type} {parse : S → R → S × List ChannelInfo}

theorem isData_eventsOf (h : ∀ st r, ∀ e ∈ (parse st r).2, e.IsData) (st : S) (reads : List (Read R)) :
    ∀ e ∈ eventsOf parse st reads, e.IsData := by
  induction reads generalizing st with
  | nil => nofun
  | cons o reads ih =>
    cases o with
    | nothing => exact ih st
    | failed => exact ih st
    | report r =>
      intro e he
      rw [eventsOf, List.mem_append] at he
      exact he.elim (h st r e) (ih _ e)

/-- The callback announces the device with its first report, and never again; `own` holds of its states. -/
structure AnnouncesOnce (id : DeviceId) (own : S → Prop) (connected : S → Bool)
    (parse : S → R → S × List ChannelInfo) : Prop where
  keeps : ∀ st r, own st → own (parse st r).1
  before : ∀ st r, own st → connected st = false → ((parse st r).2 = [] ∧ connected (parse st r).1 = false) ∨
    (connected (parse st r).1 = true ∧ ∃ data, (parse st r).2 = .connected id :: data ∧ ∀ e ∈ data, e.IsData)
  after : ∀ st r, own st → connected st = true → connected (parse st r).1 = true ∧ ∀ e ∈ (parse st r).2, e.IsData

namespace AnnouncesOnce

variable {id : DeviceId} {own : S → Prop} {connected : S → Bool}

theorem eventsOf_after (h : AnnouncesOnce id own connected parse) {st : S} (ho : own st) (hc : connected st = true)
    (reads : List (Read R)) : ∀ e ∈ eventsOf parse st reads, e.IsData := by
  induction reads generalizing st with
  | nil => nofun
  | cons o reads ih =>
    cases o with
    | nothing => exact ih ho hc
    | failed => exact ih ho hc
    | report r =>
      intro e he
      rw [eventsOf, List.mem_append] at he
      exact he.elim ((h.after st r ho hc).2 e) (ih (h.keeps st r ho) (h.after st r ho hc).1 e)

theorem eventsOf_before (h : AnnouncesOnce id own connected parse) {st : S} (ho : own st) (hc : connected st = false)
    (reads : List (Read R)) : eventsOf parse st reads = [] ∨
      ∃ data, eventsOf parse st reads = .connected id :: data ∧ ∀ e ∈ data, e.IsData := by
  induction reads generalizing st with
  | nil => exact Or.inl rfl
  | cons o reads ih =>
    cases o with
    | nothing => exact ih ho hc
    | failed => exact ih ho hc
    | report r =>
      rw [eventsOf]
      rcases h.before st r ho hc with ⟨hnone, hc'⟩ | ⟨hc', data, hdata, hisData⟩
      · rw [hnone, List.nil_append]
        exact ih (h.keeps st r ho) hc'
      · refine Or.inr ⟨data ++ eventsOf parse (parse st r).1 reads, by rw [hdata, List.cons_append], fun e he => ?_⟩
        exact (List.mem_append.1 he).elim (hisData e) (h.eventsOf_after (h.keeps st r ho) hc' reads e)

end AnnouncesOnce

end Callbacks

namespace HidThread

/-- The callback is asked only for reports of at least one byte. -/
theorem parse_cases (t : HidThread) (st : t.State) (report : HidReport) :
    t.parse st report = (st, []) ∨ ∃ report', t.parse st report = t.onReport st report' := by
  by_cases h : (report.1.take t.bufferLen).isEmpty = true
  · exact Or.inl (if_pos h)
  · exact Or.inr ⟨_, if_neg h⟩

theorem announcesOnce_parse {t : HidThread} {id : DeviceId} {own : t.State → Prop} {connected : t.State → Bool}
    (h : AnnouncesOnce id own connected t.onReport) : AnnouncesOnce id own connected t.parse where
  keeps := fun st report ho => by
    rcases t.parse_cases st report with hp | ⟨report', hp⟩ <;> rw [hp]
    · exact ho
    · exact h.keeps st report' ho
  before := fun st report ho hc => by
    rcases t.parse_cases st report with hp | ⟨report', hp⟩ <;> rw [hp]
    · exact Or.inl ⟨rfl, hc⟩
    · exact h.before st report' ho hc
  after := fun st report ho hc => by
    rcases t.parse_cases st report with hp | ⟨report', hp⟩ <;> rw [hp]
    · exact ⟨hc, nofun⟩
    · exact h.after st report' ho hc

theorem isData_parse {t : HidThread} (h : ∀ st report, ∀ e ∈ (t.onReport st report).2, e.IsData) (st : t.State)
    (report : HidReport) : ∀ e ∈ (t.parse st report).2, e.IsData := by
  rcases t.parse_cases st report with hp | ⟨report', hp⟩ <;> rw [hp]
  · nofun
  · exact h st report'

end HidThread

theorem isData_append {xs ys : List ChannelInfo} (hx : ∀ e ∈ xs, e.IsData) (hy : ∀ e ∈ ys, e.IsData) :
    ∀ e ∈ xs ++ ys, e.IsData := fun e he => (List.mem_append.1 he).elim (hx e) (hy e)

/-- What the callback of the DualSense sends is the announcement, if it is due, and data. -/
theorem dualSense_onReport (d : Sony.DualSense.DualSenseDevice) (buf : List UInt8) (now : Instant) :
    (d.onReport buf now).1.connected = true ∧ (d.onReport buf now).1.deviceId = d.deviceId ∧
      ∃ data, (d.onReport buf now).2 = (if d.connected then [] else [.connected d.deviceId]) ++ data ∧
        ∀ e ∈ data, e.IsData := by
  have hsamples : ∀ (sample : ImuSample) (battery : Option BatteryState), ∀ e ∈
      ChannelInfo.imuSamples [sample] :: (battery.map ChannelInfo.battery).toList, e.IsData := fun sample battery =>
    List.forall_mem_cons.2 ⟨trivial, isData_battery battery⟩
  simp only [Sony.DualSense.DualSenseDevice.onReport]
  cases Sony.DualSense.parseReport d.kind buf d.calibration with
  | none => exact ⟨rfl, rfl, [], by simp, nofun⟩
  | some parsed =>
    cases Sony.DualSense.parsePsButton d.kind buf with
    | none => exact ⟨rfl, rfl, _, rfl, hsamples parsed.1 parsed.2⟩
    | some ps =>
      exact ⟨rfl, rfl, _, List.append_assoc _ _ _, isData_append (hsamples parsed.1 parsed.2) (isData_reset _)⟩

theorem dualSense_announces (id : DeviceId) :
    AnnouncesOnce id (fun d : Sony.DualSense.DualSenseDevice => d.deviceId = id) (fun d => d.connected)
      fun d (report : HidReport) => d.onReport report.1 report.2 where
  keeps := fun d report ho => (dualSense_onReport d report.1 report.2).2.1.trans ho
  before := fun d report ho hc => by
    obtain ⟨hc', -, data, hdata, hisData⟩ := dualSense_onReport d report.1 report.2
    rw [hc, ho] at hdata
    exact Or.inr ⟨hc', data, hdata, hisData⟩
  after := fun d report _ hc => by
    obtain ⟨hc', -, data, hdata, hisData⟩ := dualSense_onReport d report.1 report.2
    rw [hc] at hdata
    exact ⟨hc', by rw [hdata]; exact hisData⟩

theorem psMove_announces (id : DeviceId) (kind : Sony.PsMove.ControllerKind) (cal : Sony.PsMove.ImuCalibration) :
    AnnouncesOnce id (fun _ => True) PsMove.Callback.connectedFlag (PsMove.onReport id kind cal) := by
  have hdata : ∀ parsed, ∀ e ∈ PsMove.parsedEvents parsed, e.IsData := by
    intro parsed
    cases parsed with
    | none => exact fun e he => absurd he List.not_mem_nil
    | some parsed => exact List.forall_mem_cons.2 ⟨trivial, isData_battery parsed.2⟩
  refine ⟨fun _ _ _ => trivial, fun st report _ hc => ?_, fun st report _ hc => ?_⟩
  · refine Or.inr ⟨rfl, _, ?_, hdata (Sony.PsMove.parseReport kind report.1 st.clock cal report.2).2⟩
    simp only [PsMove.onReport, hc, Bool.false_eq_true, if_false, List.singleton_append]
  · refine ⟨rfl, ?_⟩
    simp only [PsMove.onReport, hc, if_true, List.nil_append]
    exact hdata _

theorem joyCon1_isData (kind : Joycon.ControllerKind) (st : JoyCon1.Callback) (report : HidReport) :
    ∀ e ∈ (JoyCon1.onReport kind st report).2, e.IsData := by
  have hnone : ∀ e ∈ ([] : List ChannelInfo), e.IsData := fun e he => absurd he List.not_mem_nil
  have hbattery : ∀ (st : JoyCon1.Callback) battery, ∀ e ∈ (st.battery battery).2, e.IsData := by
    intro st battery
    simp only [JoyCon1.Callback.battery]
    split
    · exact List.forall_mem_cons.2 ⟨trivial, hnone⟩
    · exact hnone
  simp only [JoyCon1.onReport]
  split
  · exact hnone
  · cases Joycon.parse0x30 report.1 with
    | error err => exact hnone
    | ok r => exact isData_append (isData_append (isData_samplesEvent _) (hbattery _ _)) (isData_reset _)

/-! ### What the consumer gets -/

namespace HidBackend

theorem capacity_pos (b : HidBackend) (id : DeviceId) (epoch : Instant) : 0 < (b.thread id epoch).config.capacity := by
  cases b <;> exact Nat.succ_pos 63

theorem maxErrors_pos (b : HidBackend) (id : DeviceId) (epoch : Instant) :
    0 < (b.thread id epoch).config.maxErrors := by
  cases b <;> exact Nat.succ_pos _

theorem farewell_eq (b : HidBackend) (id : DeviceId) (epoch : Instant) :
    (b.thread id epoch).config.farewell = .disconnected := by
  cases b <;> rfl

/-- What a thread makes of its reads begins with the announcement, and goes on with data. -/
theorem produced_shape (b : HidBackend) (id : DeviceId) (epoch : Instant) (hb : b.AnnouncesItself)
    (reads : List (Read HidReport)) : (b.thread id epoch).produced reads = [] ∨
      ∃ all, (b.thread id epoch).produced reads = .connected id :: all ∧ ∀ e ∈ all, e.IsData := by
  cases b with
  | dualSense kind calibration =>
    exact (HidThread.announcesOnce_parse (t := .dualSense id kind calibration) (dualSense_announces id)).eventsOf_before
      rfl rfl reads
  | psMove kind calibration =>
    exact (HidThread.announcesOnce_parse (t := .psMove id kind calibration) (psMove_announces id kind calibration))
      |>.eventsOf_before trivial rfl reads
  | dualShock3 =>
    exact Or.inr ⟨_, rfl, isData_eventsOf (HidThread.isData_parse (t := .dualShock3 id epoch)
      fun _ _ => isData_samplesEvent _) () reads⟩
  | steamDeck =>
    exact Or.inr ⟨_, rfl, isData_eventsOf (HidThread.isData_parse (t := .steamDeck id epoch)
      fun _ _ => isData_samplesEvent _) () reads⟩
  | steamController =>
    exact Or.inr ⟨_, rfl, isData_eventsOf (HidThread.isData_parse (t := .steamController id epoch)
      fun _ _ => isData_samplesEvent _) () reads⟩
  | joyCon1 kind => exact hb.elim

/-- The farewell is not made of a report. -/
theorem disconnected_not_mem (b : HidBackend) (id : DeviceId) (epoch : Instant) (reads : List (Read HidReport)) :
    .disconnected ∉ (b.thread id epoch).produced reads := by
  intro hmem
  by_cases hb : b.AnnouncesItself
  · rcases b.produced_shape id epoch hb reads with hnone | ⟨all, hall, hdata⟩
    · rw [hnone] at hmem
      exact List.not_mem_nil hmem
    · rw [hall, List.mem_cons] at hmem
      rcases hmem with hmem | hmem
      · cases hmem
      · exact hdata _ hmem
  · cases b with
    | dualSense | psMove | dualShock3 | steamDeck | steamController => exact hb trivial
    | joyCon1 kind =>
      exact isData_eventsOf (HidThread.isData_parse (t := .joyCon1 kind) (joyCon1_isData kind)) _ _ _ hmem

/-- As long as the consumer holds the receiver it has and gets the announcement, data in the order of the reports, and
at most one farewell behind all of it, whatever the thread and the consumer do.  Data may be lost, but never the
announcement. -/
theorem stream_shape (b : HidBackend) (id : DeviceId) (epoch : Instant) (hb : b.AnnouncesItself)
    {s : ReaderThread.State (b.thread id epoch).State HidReport ChannelInfo}
    (h : Reaches (b.thread id epoch).step Always (b.thread id epoch).begun s) (hr : s.receiving = true) :
    ((b.thread id epoch).produced s.reads = [] ∧ s.stream = s.phase.farewell (b.thread id epoch).config) ∨
      ∃ all data, (b.thread id epoch).produced s.reads = .connected id :: all ∧ (∀ e ∈ all, e.IsData) ∧
        s.stream = .connected id :: data ++ s.phase.farewell (b.thread id epoch).config ∧ data.Sublist all := by
  obtain ⟨kept, hstream, hsub, -, hhead⟩ : ∃ kept, s.stream = kept ++ s.phase.farewell (b.thread id epoch).config ∧
      kept.Sublist ((b.thread id epoch).produced s.reads) ∧
      kept.length + s.lost = ((b.thread id epoch).produced s.reads).length ∧
      kept.head? = ((b.thread id epoch).produced s.reads).head? := stream (b.capacity_pos id epoch) h hr
  rcases b.produced_shape id epoch hb s.reads with hnone | ⟨all, hall, hdata⟩
  · rw [hnone] at hsub
    exact Or.inl ⟨hnone, by rw [hstream, List.sublist_nil.1 hsub, List.nil_append]⟩
  · rw [hall] at hsub hhead
    cases kept with
    | nil => cases hhead
    | cons e data =>
      obtain rfl : e = .connected id := by simpa using hhead
      exact Or.inr ⟨all, data, hall, hdata, hstream, List.cons_sublist_cons.1 hsub⟩

/-- Nothing is lost by a thread that waits, and by any thread whose consumer is never 64 events behind. -/
theorem stream_complete (b : HidBackend) (id : DeviceId) (epoch : Instant)
    {ok : ReaderThread.State (b.thread id epoch).State HidReport ChannelInfo → ReaderThread.Action HidReport → Prop}
    (hok : (b.thread id epoch).config.waits = true ∨ ∀ s a, ok s a → Spacious (b.thread id epoch).config s a)
    {s : ReaderThread.State (b.thread id epoch).State HidReport ChannelInfo}
    (h : Reaches (b.thread id epoch).step ok (b.thread id epoch).begun s) (hr : s.receiving = true) :
    s.stream = (b.thread id epoch).produced s.reads ++ s.phase.farewell (b.thread id epoch).config := by
  obtain ⟨kept, hstream, hsub, hlen, -⟩ : ∃ kept, s.stream = kept ++ s.phase.farewell (b.thread id epoch).config ∧
      kept.Sublist ((b.thread id epoch).produced s.reads) ∧
      kept.length + s.lost = ((b.thread id epoch).produced s.reads).length ∧
      kept.head? = ((b.thread id epoch).produced s.reads).head? := stream (b.capacity_pos id epoch) h hr
  have hlost : s.lost = 0 := hok.elim (fun hw => lost_of_waits hw h) fun hs => lost_of_spacious (h.mono hs)
  rw [hstream, hsub.eq_of_length (by omega)]

/-- The end of a thread, to a consumer that holds the receiver: `Disconnected` means that the last reads have failed, or
that the thread was asked to stop and says so. -/
theorem last_event_iff (b : HidBackend) (id : DeviceId) (epoch : Instant)
    {s : ReaderThread.State (b.thread id epoch).State HidReport ChannelInfo}
    (h : Reaches (b.thread id epoch).step Always (b.thread id epoch).begun s) (hr : s.receiving = true) {parted : Bool}
    (hend : s.phase = .ended parted) :
    s.stream.getLast? = some .disconnected ↔
      (∃ earlier, s.reads = earlier ++ List.replicate (b.thread id epoch).config.maxErrors .failed) ∨
        (s.Asked (b.thread id epoch).config ∧ (b.thread id epoch).config.partsOnStop = true) := by
  have hparts : s.phase.Parts ↔ _ := parts_iff (b.maxErrors_pos id epoch) h hr (Or.inr ⟨parted, hend⟩)
  rw [← hparts]
  obtain ⟨kept, hstream, hsub, -⟩ : ∃ kept, s.stream = kept ++ s.phase.farewell (b.thread id epoch).config ∧
      kept.Sublist ((b.thread id epoch).produced s.reads) ∧ _ := stream (b.capacity_pos id epoch) h hr
  rw [hend] at hstream ⊢
  cases parted with
  | true =>
    refine iff_of_true ?_ (Or.inr rfl)
    rw [hstream, Phase.farewell, List.getLast?_concat, b.farewell_eq id epoch]
  | false =>
    refine iff_of_false (fun hlast => ?_) (by simp [Phase.Parts])
    rw [hstream, Phase.farewell, List.append_nil] at hlast
    exact b.disconnected_not_mem id epoch s.reads (hsub.subset (List.mem_of_getLast? hlast))

/-- How a thread ends, as long as the consumer holds the receiver.  The last event is `Disconnected` exactly if the last
reads have failed, ten of them for a DualShock 3 and one for the others, or a DualShock 3 or a Steam device was asked to
stop; the other threads keep silent at a stop.  A Steam Deck's thread that has not looked before the sender of the stop
is gone ends only when a read fails. -/
theorem disconnected_iff (b : HidBackend) (id : DeviceId) (epoch : Instant)
    {s : ReaderThread.State (b.thread id epoch).State HidReport ChannelInfo}
    (h : Reaches (b.thread id epoch).step Always (b.thread id epoch).begun s) (hr : s.receiving = true) :
    (∀ parted, s.phase = .ended parted → (s.stream.getLast? = some .disconnected ↔
      (∃ earlier, s.reads = earlier ++ List.replicate (b.thread id epoch).config.maxErrors .failed) ∨
        (s.Asked (b.thread id epoch).config ∧ (b.thread id epoch).config.partsOnStop = true))) ∧
      (b = .steamDeck → s.closed = true → ¬s.phase.Leaves →
        ∀ s', Reaches (b.thread id epoch).step Always s s' → s'.receiving = true → s'.phase.Leaves →
          ∃ earlier, s'.reads = earlier ++ [.failed]) := by
  refine ⟨fun parted hend => b.last_event_iff id epoch h hr hend, ?_⟩
  rintro rfl hclosed hon s' h' hr' hl
  exact failures_of_hidden (steamDeck.maxErrors_pos id epoch) rfl h hclosed hon h' hr' hl

/-- A thread that is asked to stop reads at most once more, except for a Steam Deck's, and one that has failed to read
so often never again. -/
theorem last_reads (b : HidBackend) (id : DeviceId) (epoch : Instant)
    {s s' : ReaderThread.State (b.thread id epoch).State HidReport ChannelInfo}
    (h : Reaches (b.thread id epoch).step Always (b.thread id epoch).begun s)
    (h' : Reaches (b.thread id epoch).step Always s s') :
    (b ≠ .steamDeck → s.Asked (b.thread id epoch).config → ∃ more, s'.reads = s.reads ++ more ∧ more.length ≤ 1) ∧
      ∀ earlier, s.reads = earlier ++ List.replicate (b.thread id epoch).config.maxErrors .failed →
        s'.reads = s.reads := by
  refine ⟨fun hb hasked => ?_, fun earlier he => ?_⟩
  · have hflag : (b.thread id epoch).config.flag ≠ .closingHides := by
      cases b with
      | steamDeck => exact absurd rfl hb
      | dualSense | psMove | dualShock3 | steamController | joyCon1 => nofun
    exact reads_after_stop hflag hasked h'
  · obtain ⟨more, hmore⟩ : ∃ more, s'.reads = s.reads ++ more := reads_prefix h'
    have hlast : more = [] ∧ _ := leaves_of_failures (b.maxErrors_pos id epoch) (h.trans h') (by rw [hmore, he])
    rw [hmore, hlast.1, List.append_nil]

/-! A DualShock 3 whose reads fail ten times in a row. -/

def padId : DeviceId := ⟨#v[0x36, 1, 2, 3, 4, 5], "ds3"⟩

def failingReads : List (ReaderThread.Action HidReport) :=
  [.send, .send] ++ (List.replicate 10 [.check, .read .failed]).flatten ++ [.send, .receive]

def padGone : ReaderThread.State Unit HidReport ChannelInfo where
  reader := ()
  phase := .ended true
  errors := 10
  stop := false
  closed := false
  queue := [.disconnected]
  receiving := true
  received := [.connected padId]
  reads := List.replicate 10 .failed
  lost := 0

theorem padGone_shape :
    (((dualShock3).thread padId 0).produced padGone.reads = [] ∧
        padGone.stream = padGone.phase.farewell ((dualShock3).thread padId 0).config) ∨
      ∃ all data, ((dualShock3).thread padId 0).produced padGone.reads = .connected padId :: all ∧
        (∀ e ∈ all, e.IsData) ∧
        padGone.stream = .connected padId :: data ++ padGone.phase.farewell ((dualShock3).thread padId 0).config ∧
        data.Sublist all :=
  stream_shape dualShock3 padId 0 trivial (Reaches.of_run failingReads rfl) rfl

theorem padGone_complete : padGone.stream = [.connected padId, .disconnected] :=
  stream_complete dualShock3 padId 0 (Or.inl rfl) (Reaches.of_run failingReads rfl) rfl

/-- A Steam Deck that is stopped while it reads. -/
def deckStopped : ReaderThread.State Unit HidReport ChannelInfo where
  reader := ()
  phase := .reading
  errors := 0
  stop := true
  closed := true
  queue := []
  receiving := true
  received := [.connected padId]
  reads := []
  lost := 0

theorem padGone_disconnected :
    (padGone.stream.getLast? = some .disconnected ↔
      (∃ earlier, padGone.reads = earlier ++ List.replicate 10 .failed) ∨
        (padGone.Asked (dualShock3.thread padId 0).config ∧ true = true)) ∧
      ∀ s', Reaches (steamDeck.thread padId 0).step Always deckStopped s' → s'.receiving = true → s'.phase.Leaves →
        ∃ earlier, s'.reads = earlier ++ [.failed] :=
  ⟨(disconnected_iff dualShock3 padId 0 (Reaches.of_run failingReads rfl) rfl).1 true rfl,
    (disconnected_iff steamDeck padId 0 (s := deckStopped)
      (Reaches.of_run [.receive, .send, .check, .stop, .close] rfl) rfl).2 rfl rfl
      (by simp [deckStopped, Phase.Leaves])⟩

end HidBackend

/-- Behind its relay a Joy-Con's thread loses nothing: the consumer has and gets the announcement, the data of all
reports in order, and the farewell. -/
theorem joyCon1_stream (kind : Joycon.ControllerKind) (id : DeviceId)
    {r : Relay JoyCon1.Callback HidReport ChannelInfo}
    (h : Reaches (Relay.step (HidThread.joyCon1 kind).config (HidThread.joyCon1 kind).parse) Always
      (.start (HidThread.joyCon1 kind).begun (.connected id)) r) (hr : r.receiving = true) :
    (∀ e ∈ (HidThread.joyCon1 kind).produced r.inner.reads, e.IsData) ∧
      r.received ++ r.queue ++ r.held.toList ++ r.inner.queue ++ r.inner.phase.unsent
        = .connected id :: (HidThread.joyCon1 kind).produced r.inner.reads
          ++ r.inner.phase.farewell (HidThread.joyCon1 kind).config := by
  have hpasses : Relay.Passes (HidThread.joyCon1 kind).config (HidThread.joyCon1 kind).parse (.connected id)
      (HidThread.joyCon1 kind).begun r := Relay.passes ⟨rfl, rfl⟩ h
  obtain ⟨hinner, hpass⟩ := hpasses
  obtain ⟨hrcv, hpassed⟩ := hpass hr
  refine ⟨isData_eventsOf (HidThread.isData_parse (t := .joyCon1 kind) (joyCon1_isData kind)) _ _, ?_⟩
  have hstream : r.inner.stream = _ := (HidBackend.joyCon1 kind).stream_complete id 0 (Or.inl rfl) hinner hrcv
  rw [hpassed, List.cons_append, List.cons_append, List.cons_append]
  exact congrArg _ hstream

/-- A Joy-Con that is announced and then gone. -/
def joyConGone : Relay JoyCon1.Callback HidReport ChannelInfo where
  inner :=
    { reader := .new
      phase := .ended true
      errors := 1
      stop := false
      closed := false
      queue := []
      receiving := true
      received := [.disconnected]
      reads := [.failed]
      lost := 0 }
  held := none
  announcing := false
  running := true
  queue := [.disconnected]
  receiving := true
  received := [.connected HidBackend.padId]

theorem joyConGone_stream :
    (∀ e ∈ (HidThread.joyCon1 .joyConL).produced joyConGone.inner.reads, e.IsData) ∧
      joyConGone.received ++ joyConGone.queue ++ joyConGone.held.toList ++ joyConGone.inner.queue
          ++ joyConGone.inner.phase.unsent
        = .connected HidBackend.padId :: (HidThread.joyCon1 .joyConL).produced joyConGone.inner.reads
          ++ joyConGone.inner.phase.farewell (HidThread.joyCon1 .joyConL).config :=
  joyCon1_stream .joyConL HidBackend.padId (Reaches.of_run [.put, .inner .send, .inner .check, .inner (.read .failed),
    .receive, .inner .send, .take, .put] rfl) rfl

end Devices

end EverythingImu
