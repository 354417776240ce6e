import EverythingImu.Joycon.Jc1
import EverythingImu.Library.Dialogue
import EverythingImu.Library.Scalar

/-!
# The output reports of a Joy-Con

The methods of `JoyCon1Device` (`jc1.rs`) as dialogues with the HID handle, which may refuse any report.  Every report
but those of the USB handshake carries a number of four bits, the low half of a counter that goes up by one for each
report that is built, whether the handle takes it or not.

A sub-command can write the flash of the controller or change how it is paired, so what is sent is one of a few known
ones, and the flash is only read (`session_reports`).  What the reader thread makes of the replies is in
`EverythingImu.Joycon.Jc1`.
-/

namespace EverythingImu.Joycon.JoyCon1

open Dialogue

/-! ### The reports -/

def NEUTRAL_RUMBLE_FRAME : List UInt8 := [0x00, 0x01, 0x40, 0x40]

def buildReport0x01 (packetCounter subcmdId : UInt8) (subcmdData : List UInt8) : List UInt8 :=
  [0x01, packetCounter &&& 0x0F] ++ NEUTRAL_RUMBLE_FRAME ++ NEUTRAL_RUMBLE_FRAME ++ subcmdId :: subcmdData

def buildReport0x80 (opcode : UInt8) : List UInt8 := [0x80, opcode]

def buildReport0x10 (packetCounter : UInt8) (frame : List UInt8) : List UInt8 :=
  [0x10, packetCounter &&& 0x0F] ++ frame ++ frame

def enableImu (packetCounter : UInt8) : List UInt8 := buildReport0x01 packetCounter 0x40 [0x01]

def enableRumble (packetCounter : UInt8) : List UInt8 := buildReport0x01 packetCounter 0x48 [0x01]

def setPlayerLeds (packetCounter mask : UInt8) : List UInt8 := buildReport0x01 packetCounter 0x30 [mask]

def setInputReportMode (packetCounter mode : UInt8) : List UInt8 := buildReport0x01 packetCounter 0x03 [mode]

/-- `u32::to_le_bytes`. -/
def u32ToLe (x : UInt32) : List UInt8 := [x.toUInt8, (x >>> 8).toUInt8, (x >>> 16).toUInt8, (x >>> 24).toUInt8]

def spiRead (packetCounter : UInt8) (addr : UInt32) (len : UInt8) : List UInt8 :=
  buildReport0x01 packetCounter 0x10 (u32ToLe addr ++ [len])

def deviceInfo (packetCounter : UInt8) : List UInt8 := buildReport0x01 packetCounter 0x02 []

/-! ### HD rumble -/

def LOW_FREQ_HZ : Float := 160.0
def HIGH_FREQ_HZ : Float := 320.0
def MAX_HF_AMP : Int32 := 0xC8

/-- The amplitude of the high band. -/
def hfAmpOf (a : Float) : Int32 :=
  let scaled := (a * 1000.0).log2 * 32.0 - 96.0
  let amp :=
    if a < 0.117 then scaled / (5.0 - a * a) - 1.0
    else if a < 0.23 then scaled - 92.0
    else scaled * 2.0 - 246.0
  max 0 (min amp.toInt32 MAX_HF_AMP)

/-- The amplitude of the low band is half that of the high band; an odd half sets the parity bit. -/
def lfAmpOf (hfAmp : Int32) : UInt32 :=
  let half := (hfAmp.toFloat * 0.5).toInt32
  let parity := half % 2
  let amp := ((if parity ≠ 0 then half - 1 else half) >>> 1) + 0x40
  if parity ≠ 0 then amp.toUInt32 ||| 0x8000 else amp.toUInt32

def encodeRumbleFrame (intensity : Float32) : List UInt8 :=
  let a := (Scalar.clamp intensity 0.0 1.0).toFloat
  if a == 0.0 then NEUTRAL_RUMBLE_FRAME
  else
    let hf := (((32.0 * (HIGH_FREQ_HZ * 0.1).log2).round - 96.0) * 4.0).toInt32
    let lf := ((32.0 * (LOW_FREQ_HZ * 0.1).log2).round - 64.0).toInt32
    let hfAmp := hfAmpOf a
    let lfAmp := lfAmpOf hfAmp
    [(hf &&& 0xFF).toUInt32.toUInt8, (((hf >>> 8) &&& 0xFF) + hfAmp).toUInt32.toUInt8,
      ((lf &&& 0xFF).toUInt32 + ((lfAmp >>> 8) &&& 0xFF)).toUInt8, (lfAmp &&& 0xFF).toUInt8]

/-! ### The handle -/

/-- What the device does between two answers of the handle. -/
inductive Hid where
  | write (report : List UInt8)
  | sleep (millis : Nat)
deriving DecidableEq

abbrev Hid.Answer : Hid → Type
  | .write _ => Except String Unit
  | .sleep _ => Unit

abbrev Program := Dialogue Hid Hid.Answer

abbrev hid (op : Hid) : Program op.Answer := Dialogue.question op

/-! ### The device -/

structure JoyCon1Device where
  isUsb : Bool
  pktCounter : UInt8
  /-- The reader thread has been spawned and not been taken by `stop`. -/
  reader : Bool
deriving DecidableEq

namespace JoyCon1Device

def new (isUsb : Bool) : JoyCon1Device where
  isUsb
  pktCounter := 0
  reader := false

/-- The device after `next_counter`, whose result is the counter before. -/
def counted (d : JoyCon1Device) : JoyCon1Device := { d with pktCounter := d.pktCounter + 1 }

/-- One report with the next counter. -/
def writeCounted (d : JoyCon1Device) (build : UInt8 → List UInt8) : Program (JoyCon1Device × Except String Unit) := do
  let r ← hid (.write (build d.pktCounter))
  return (d.counted, r)

/-- One report after the other, each followed by a pause of so many milliseconds; the first that is refused ends it. -/
def writeAll (d : JoyCon1Device) :
    List ((UInt8 → List UInt8) × Option Nat) → Program (JoyCon1Device × Except String Unit)
  | [] => return (d, .ok ())
  | (build, pause) :: rest => do
    let (d, r) ← d.writeCounted build
    match r, pause with
    | .error e, _ => return (d, .error e)
    | .ok (), none => d.writeAll rest
    | .ok (), some millis =>
      let _ ← hid (.sleep millis)
      d.writeAll rest

end JoyCon1Device

/-- The opcodes for a controller on USB. -/
def HANDSHAKE : List UInt8 := [0x01, 0x02, 0x03, 0x02, 0x04]

def handshake : List UInt8 → Program (Except String Unit)
  | [] => return .ok ()
  | opcode :: opcodes => do
    match ← hid (.write (buildReport0x80 opcode)) with
    | .error e => return .error e
    | .ok () =>
      let _ ← hid (.sleep 20)
      handshake opcodes

/-- The reports that `run_connect_sequence` numbers. -/
def CONNECT_SEQUENCE : List ((UInt8 → List UInt8) × Option Nat) :=
  [(enableRumble, some 150), (enableImu, some 150), (fun cnt => setInputReportMode cnt 0x30, some 150),
    (fun cnt => setPlayerLeds cnt 0b0000_0001, some 150), (deviceInfo, some 150)]

/-- The reports of `request_calibration_reads`. -/
def CALIBRATION_READS : List ((UInt8 → List UInt8) × Option Nat) :=
  [(fun cnt => spiRead cnt SPI_ADDR_FACTORY_CAL 24, some 15),
    (fun cnt => spiRead cnt SPI_ADDR_USER_OVERRIDE_MAGIC 2, some 15),
    (fun cnt => spiRead cnt SPI_ADDR_USER_OVERRIDE_BLOCK 24, none)]

namespace JoyCon1Device

def runConnectSequence (d : JoyCon1Device) : Program (JoyCon1Device × Except String Unit) := do
  match ← (if d.isUsb then handshake HANDSHAKE else return .ok ()) with
  | .error e => return (d, .error e)
  | .ok () => d.writeAll CONNECT_SEQUENCE

def requestCalibrationReads (d : JoyCon1Device) : Program (JoyCon1Device × Except String Unit) :=
  d.writeAll CALIBRATION_READS

def start (d : JoyCon1Device) : Program (JoyCon1Device × Except String Unit) := do
  if d.reader then return (d, .error "already started")
  else
    match ← d.runConnectSequence with
    | (d, .error e) => return (d, .error e)
    | (d, .ok ()) =>
      match ← d.requestCalibrationReads with
      | (d, .error e) => return (d, .error e)
      | (d, .ok ()) => return ({ d with reader := true }, .ok ())

def stop (d : JoyCon1Device) : Program (JoyCon1Device × Except String Unit) :=
  return ({ d with reader := false }, .ok ())

def setLedMask (d : JoyCon1Device) (mask : UInt8) : Program (JoyCon1Device × Except String Unit) :=
  d.writeCounted fun cnt => setPlayerLeds cnt mask

def setRumble (d : JoyCon1Device) (intensity : Float32) : Program (JoyCon1Device × Except String Unit) :=
  d.writeCounted fun cnt => buildReport0x10 cnt (encodeRumbleFrame intensity)

end JoyCon1Device

/-- A method of the device. -/
inductive Call where
  | start
  | stop
  | setLedMask (mask : UInt8)
  | setRumble (intensity : Float32)

def JoyCon1Device.call (d : JoyCon1Device) : Call → Program (JoyCon1Device × Except String Unit)
  | .start => d.start
  | .stop => d.stop
  | .setLedMask mask => d.setLedMask mask
  | .setRumble intensity => d.setRumble intensity

/-- The methods, called one after the other. -/
def session (d : JoyCon1Device) : List Call → Program JoyCon1Device
  | [] => return d
  | c :: calls => do
    let (d, _) ← d.call c
    session d calls

/-! ### What is allowed -/

/-- What is read of the flash: an address and a length. -/
def FLASH_READS : List (UInt32 × UInt8) :=
  [(SPI_ADDR_FACTORY_CAL, 24), (SPI_ADDR_USER_OVERRIDE_MAGIC, 2), (SPI_ADDR_USER_OVERRIDE_BLOCK, 24)]

/-- The known sub-commands with their data. -/
inductive KnownSubcommand : UInt8 → List UInt8 → Prop where
  | deviceInfo : KnownSubcommand 0x02 []
  | inputReportMode : KnownSubcommand 0x03 [0x30]
  | spiRead (addr : UInt32) (len : UInt8) (h : (addr, len) ∈ FLASH_READS) :
      KnownSubcommand 0x10 (u32ToLe addr ++ [len])
  | playerLeds (mask : UInt8) : KnownSubcommand 0x30 [mask]
  | imu : KnownSubcommand 0x40 [0x01]
  | rumble : KnownSubcommand 0x48 [0x01]

/-- A report with the number `n`: a sub-command beside a motor at rest, or a rumble frame for both motors. -/
inductive Numbered (n : Nat) : List UInt8 → Prop where
  | subcommand (subcmd : UInt8) (data : List UInt8) (h : KnownSubcommand subcmd data) :
      Numbered n ([0x01, UInt8.ofNat (n % 16)] ++ NEUTRAL_RUMBLE_FRAME ++ NEUTRAL_RUMBLE_FRAME ++ subcmd :: data)
  | rumble (intensity : Float32) :
      Numbered n ([0x10, UInt8.ofNat (n % 16)] ++ encodeRumbleFrame intensity ++ encodeRumbleFrame intensity)

/-- A report of the handshake, which only a controller on USB gets. -/
def Handshake (isUsb : Bool) (report : List UInt8) : Prop :=
  isUsb = true ∧ ∃ opcode ∈ HANDSHAKE, report = buildReport0x80 opcode

/-- The report has a number. -/
def Hid.isCounted : Hid → Bool
  | .write report => report.head? != some 0x80
  | .sleep _ => false

/-- The ledger is the number of the reports with a number. -/
def protocol (isUsb : Bool) : Protocol Hid Hid.Answer Nat where
  Allowed n
    | .write report => Handshake isUsb report ∨ Numbered n report
    | .sleep _ => True
  after n op _ := if op.isCounted then n + 1 else n

/-- So many of the exchanges are reports with a number. -/
def countedReports (log : List (Exchange Hid.Answer)) : Nat := log.countP fun x => x.1.isCounted

theorem ledger_eq (isUsb : Bool) (n : Nat) (log : List (Exchange Hid.Answer)) :
    (protocol isUsb).ledger n log = n + countedReports log := by
  induction log generalizing n with
  | nil => rfl
  | cons x log ih =>
    have hcons : (protocol isUsb).ledger n (x :: log)
        = (protocol isUsb).ledger (if x.1.isCounted then n + 1 else n) log := rfl
    rw [hcons, ih]
    simp only [countedReports, List.countP_cons]
    split <;> omega

theorem Numbered.isCounted {n : Nat} {report : List UInt8} (h : Numbered n report) :
    (Hid.write report).isCounted = true := by
  cases h <;> rfl

theorem isCounted_handshake (opcode : UInt8) : (Hid.write (buildReport0x80 opcode)).isCounted = false := rfl

theorem counter_and (n : Nat) : UInt8.ofNat n &&& 0x0F = UInt8.ofNat (n % 16) := by
  apply UInt8.toNat.inj
  have hand : n % 256 &&& 15 = n % 256 % 16 := Nat.and_two_pow_sub_one_eq_mod _ 4
  rw [UInt8.toNat_and, UInt8.toNat_ofNat', UInt8.toNat_ofNat']
  change n % 256 &&& 15 = n % 16 % 256
  omega

/-- What is built with the counter is a report with that number. -/
def Known (build : UInt8 → List UInt8) : Prop := ∀ n, Numbered n (build (UInt8.ofNat n))

theorem known_report0x01 {subcmd : UInt8} {data : List UInt8} (h : KnownSubcommand subcmd data) :
    Known fun cnt => buildReport0x01 cnt subcmd data := fun n => by
  simp only [buildReport0x01, counter_and]
  exact .subcommand subcmd data h

theorem known_rumble (intensity : Float32) : Known fun cnt => buildReport0x10 cnt (encodeRumbleFrame intensity) :=
  fun n => by
    simp only [buildReport0x10, counter_and]
    exact .rumble intensity

theorem known_connectSequence : ∀ b ∈ CONNECT_SEQUENCE, Known b.1 := by
  simp only [CONNECT_SEQUENCE, List.forall_mem_cons, List.not_mem_nil, false_implies, implies_true, and_true]
  exact ⟨known_report0x01 .rumble, known_report0x01 .imu, known_report0x01 .inputReportMode,
    known_report0x01 (.playerLeds _), known_report0x01 .deviceInfo⟩

theorem known_calibrationReads : ∀ b ∈ CALIBRATION_READS, Known b.1 := by
  simp only [CALIBRATION_READS, List.forall_mem_cons, List.not_mem_nil, false_implies, implies_true, and_true]
  exact ⟨known_report0x01 (.spiRead _ _ (by decide)), known_report0x01 (.spiRead _ _ (by decide)),
    known_report0x01 (.spiRead _ _ (by decide))⟩

/-! ### Sessions -/

/-- The device has built so many reports. -/
def JoyCon1Device.At (d : JoyCon1Device) (isUsb : Bool) (n : Nat) : Prop :=
  d.isUsb = isUsb ∧ d.pktCounter = UInt8.ofNat n

theorem at_counted {d : JoyCon1Device} {isUsb : Bool} {n : Nat} (h : d.At isUsb n) : d.counted.At isUsb (n + 1) := by
  refine ⟨h.1, ?_⟩
  rw [JoyCon1Device.counted, h.2, UInt8.ofNat_add]
  rfl

/-- The result of a method: the device is where the ledger is. -/
def InStep (isUsb : Bool) (r : JoyCon1Device × Except String Unit) (n : Nat) : Prop := r.1.At isUsb n

theorem writeCounted_wp {d : JoyCon1Device} {isUsb : Bool} {n : Nat} (h : d.At isUsb n)
    {build : UInt8 → List UInt8} (hb : Known build) : wp (protocol isUsb) (d.writeCounted build) (InStep isUsb) n := by
  have hreport : Numbered n (build d.pktCounter) := h.2 ▸ hb n
  refine ⟨Or.inr hreport, fun r => ?_⟩
  have hafter : (protocol isUsb).after n (.write (build d.pktCounter)) r = n + 1 := if_pos hreport.isCounted
  rw [hafter]
  exact at_counted h

theorem writeAll_wp {isUsb : Bool} {builds : List ((UInt8 → List UInt8) × Option Nat)}
    (hb : ∀ b ∈ builds, Known b.1) {d : JoyCon1Device} {n : Nat} (h : d.At isUsb n) :
    wp (protocol isUsb) (d.writeAll builds) (InStep isUsb) n := by
  induction builds generalizing d n with
  | nil => exact h
  | cons b builds ih =>
    obtain ⟨hbuild, hrest⟩ := List.forall_mem_cons.1 hb
    refine (writeCounted_wp h hbuild).bind ?_
    rintro ⟨d, r⟩ n h
    obtain ⟨build, pause⟩ := b
    cases r with
    | error e => exact h
    | ok _ =>
      cases pause with
      | none => exact ih hrest h
      | some millis => exact ⟨trivial, fun _ => ih hrest h⟩

theorem handshake_wp {opcodes : List UInt8} (ho : ∀ opcode ∈ opcodes, opcode ∈ HANDSHAKE) (n : Nat) :
    wp (protocol true) (handshake opcodes) (fun _ m => m = n) n := by
  induction opcodes with
  | nil => rfl
  | cons opcode opcodes ih =>
    obtain ⟨hopcode, hrest⟩ := List.forall_mem_cons.1 ho
    refine ⟨Or.inl ⟨rfl, opcode, hopcode, rfl⟩, fun r => ?_⟩
    cases r with
    | error e => rfl
    | ok _ => exact ⟨trivial, fun _ => ih hrest⟩

theorem runConnectSequence_wp {d : JoyCon1Device} {isUsb : Bool} {n : Nat} (h : d.At isUsb n) :
    wp (protocol isUsb) d.runConnectSequence (InStep isUsb) n := by
  have hsequence : wp (protocol isUsb) (d.writeAll CONNECT_SEQUENCE) (InStep isUsb) n :=
    writeAll_wp known_connectSequence h
  have hhandshake : wp (protocol isUsb) (if d.isUsb then handshake HANDSHAKE else return .ok ())
      (fun _ m => m = n) n := by
    rw [h.1]
    cases isUsb with
    | true => exact handshake_wp (fun _ ho => ho) n
    | false => rfl
  refine hhandshake.bind ?_
  rintro r m rfl
  cases r with
  | error e => exact h
  | ok _ => exact hsequence

theorem call_wp {d : JoyCon1Device} {isUsb : Bool} {n : Nat} (h : d.At isUsb n) (c : Call) :
    wp (protocol isUsb) (d.call c) (InStep isUsb) n := by
  cases c with
  | stop => exact h
  | setLedMask mask => exact writeCounted_wp h (known_report0x01 (.playerLeds mask))
  | setRumble intensity => exact writeCounted_wp h (known_rumble intensity)
  | start =>
    simp only [JoyCon1Device.call, JoyCon1Device.start]
    split
    · exact h
    · refine (runConnectSequence_wp h).bind ?_
      rintro ⟨d, r⟩ n h
      cases r with
      | error e => exact h
      | ok _ =>
        refine (writeAll_wp known_calibrationReads h).bind ?_
        rintro ⟨d, r⟩ n h
        cases r <;> exact h

theorem session_wp {d : JoyCon1Device} {isUsb : Bool} {n : Nat} (h : d.At isUsb n) (calls : List Call) :
    wp (protocol isUsb) (session d calls) (fun d' n' => d'.At isUsb n') n := by
  induction calls generalizing d n with
  | nil => exact h
  | cons c calls ih =>
    refine (call_wp h c).bind ?_
    rintro ⟨d, r⟩ n h
    exact ih h

/-- Whatever methods are called and whatever the handle refuses, up to any point: what is sent is a report of the USB
handshake, to a controller on USB, or one of the known reports.  Those are numbered one after the other, modulo 16, over
all methods, and of the flash only the calibration is read. -/
theorem session_reports (isUsb : Bool) (calls : List Call) {log before later : List (Exchange Hid.Answer)}
    {rest : Program JoyCon1Device} (h : Follows (session (.new isUsb) calls) log rest) {report : List UInt8}
    {r : Except String Unit} (hlog : log = before ++ ⟨.write report, r⟩ :: later) :
    Handshake isUsb report ∨ Numbered (countedReports before) report := by
  subst hlog
  have hnew : (JoyCon1Device.new isUsb).At isUsb 0 := ⟨rfl, rfl⟩
  have hallowed : (protocol isUsb).Allowed ((protocol isUsb).ledger 0 before) (.write report) :=
    (session_wp hnew calls).allowed h
  rwa [ledger_eq, Nat.zero_add] at hallowed

/-- A start whose first report is refused. -/
def refusedStart : List (Exchange Hid.Answer) := [⟨.write (enableRumble 0), .error "gone"⟩]

/-- The number goes on behind the start that has failed. -/
theorem refusedStart_reports :
    Handshake false (setPlayerLeds 1 0b0010) ∨ Numbered (countedReports refusedStart) (setPlayerLeds 1 0b0010) :=
  have hrun : Follows (session (.new false) [.start, .setLedMask 0b0010])
      (refusedStart ++ [⟨.write (setPlayerLeds 1 0b0010), .ok ()⟩]) (.done ⟨false, 2, false⟩) := .of_replay rfl
  session_reports false [.start, .setLedMask 0b0010] hrun rfl

/-! ### A start -/

/-- The reports of a list of builders, from a value of the counter on. -/
def reportsFrom : UInt8 → List ((UInt8 → List UInt8) × Option Nat) → List (List UInt8)
  | _, [] => []
  | cnt, (build, _) :: rest => build cnt :: reportsFrom (cnt + 1) rest

theorem reportsFrom_append (cnt : UInt8) (bs cs : List ((UInt8 → List UInt8) × Option Nat)) :
    reportsFrom cnt (bs ++ cs) = reportsFrom cnt bs ++ reportsFrom (cnt + UInt8.ofNat bs.length) cs := by
  induction bs generalizing cnt with
  | nil => simp [reportsFrom]
  | cons b bs ih =>
    have hcnt : cnt + 1 + UInt8.ofNat bs.length = cnt + UInt8.ofNat (bs.length + 1) := by
      rw [UInt8.ofNat_add, UInt8.add_assoc, UInt8.add_comm 1]
      rfl
    rw [List.cons_append, reportsFrom, reportsFrom, ih, hcnt]
    rfl

def handshakeReports (d : JoyCon1Device) : List (List UInt8) :=
  if d.isUsb then HANDSHAKE.map buildReport0x80 else []

/-- All that a start sends if nothing is refused. -/
def startReports (d : JoyCon1Device) : List (List UInt8) :=
  handshakeReports d ++ reportsFrom d.pktCounter (CONNECT_SEQUENCE ++ CALIBRATION_READS)

/-- The reports that were written, with the answers of the handle. -/
def writes (log : List (Exchange Hid.Answer)) : List (List UInt8 × Except String Unit) :=
  log.flatMap fun
    | ⟨.write report, r⟩ => [(report, r)]
    | ⟨.sleep _, _⟩ => []

/-- The reports went out one after the other, all of them, or up to the first that was refused. -/
def Sent (reports : List (List UInt8)) (r : Except String Unit) (sent : List (List UInt8 × Except String Unit)) :
    Prop :=
  (r = .ok () ∧ sent = reports.map (·, .ok ())) ∨
    ∃ done report later e, reports = done ++ report :: later ∧ r = .error e ∧
      sent = done.map (·, .ok ()) ++ [(report, .error e)]

theorem sent_nil : Sent [] (.ok ()) [] := Or.inl ⟨rfl, rfl⟩

theorem Sent.cons {reports : List (List UInt8)} {r : Except String Unit} {sent : List (List UInt8 × Except String Unit)}
    (h : Sent reports r sent) (report : List UInt8) : Sent (report :: reports) r ((report, .ok ()) :: sent) := by
  obtain ⟨rfl, rfl⟩ | ⟨done, refused, later, e, rfl, rfl, rfl⟩ := h
  · exact Or.inl ⟨rfl, rfl⟩
  · exact Or.inr ⟨report :: done, refused, later, e, rfl, rfl, rfl⟩

theorem sent_refused (report : List UInt8) (later : List (List UInt8)) (e : String) :
    Sent (report :: later) (.error e) [(report, .error e)] := Or.inr ⟨[], report, later, e, rfl, rfl, rfl⟩

/-- What follows reports that all went out. -/
theorem Sent.append {reports reports' : List (List UInt8)} {r : Except String Unit}
    {sent sent' : List (List UInt8 × Except String Unit)} (h : Sent reports (.ok ()) sent)
    (h' : Sent reports' r sent') :
    Sent (reports ++ reports') r (sent ++ sent') := by
  obtain ⟨-, rfl⟩ | ⟨_, _, _, _, _, hr, _⟩ := h
  · induction reports with
    | nil => exact h'
    | cons report reports ih => exact ih.cons report
  · cases hr

/-- What follows a report that was refused is not sent. -/
theorem Sent.append_error {reports : List (List UInt8)} {e : String} {sent : List (List UInt8 × Except String Unit)}
    (h : Sent reports (.error e) sent) (reports' : List (List UInt8)) : Sent (reports ++ reports') (.error e) sent := by
  obtain ⟨hr, -⟩ | ⟨done, refused, later, e', rfl, hr, rfl⟩ := h
  · cases hr
  · exact Or.inr ⟨done, refused, later ++ reports', e', by simp, hr, rfl⟩

/-- A protocol whose ledger is what was written. -/
def trace : Protocol Hid Hid.Answer (List (List UInt8 × Except String Unit)) where
  Allowed _ _ := True
  after
    | l, .write report, r => l ++ [(report, r)]
    | l, .sleep _, _ => l

theorem trace_ledger (l : List (List UInt8 × Except String Unit)) (log : List (Exchange Hid.Answer)) :
    trace.ledger l log = l ++ writes log := by
  induction log generalizing l with
  | nil => exact (List.append_nil l).symm
  | cons x log ih =>
    obtain ⟨op, r⟩ := x
    cases op with
    | write report => exact (ih _).trans (List.append_assoc ..)
    | sleep millis => exact ih _

theorem writeAll_trace (builds : List ((UInt8 → List UInt8) × Option Nat)) (d : JoyCon1Device)
    (l : List (List UInt8 × Except String Unit)) :
    wp trace (d.writeAll builds) (fun r l' => ∃ sent, l' = l ++ sent ∧
      Sent (reportsFrom d.pktCounter builds) r.2 sent ∧ r.1.reader = d.reader ∧
      (r.2 = .ok () → r.1.pktCounter = d.pktCounter + UInt8.ofNat builds.length)) l := by
  induction builds generalizing d l with
  | nil => exact ⟨[], (List.append_nil l).symm, sent_nil, rfl, fun _ => (UInt8.add_zero _).symm⟩
  | cons b builds ih =>
    obtain ⟨build, pause⟩ := b
    have hrest : wp trace (d.counted.writeAll builds) (fun r l' => ∃ sent, l' = l ++ sent ∧
        Sent (reportsFrom d.pktCounter ((build, pause) :: builds)) r.2 sent ∧ r.1.reader = d.reader ∧
        (r.2 = .ok () → r.1.pktCounter = d.pktCounter + UInt8.ofNat (builds.length + 1)))
        (l ++ [(build d.pktCounter, .ok ())]) := by
      refine (ih d.counted _).mono ?_
      rintro r _ ⟨sent, rfl, hsent, hreader, hcounter⟩
      refine ⟨(build d.pktCounter, .ok ()) :: sent, by simp, hsent.cons _, hreader, fun hr => ?_⟩
      rw [hcounter hr, JoyCon1Device.counted, UInt8.ofNat_add, UInt8.add_assoc, UInt8.add_comm 1]
      rfl
    refine ⟨trivial, fun r => ?_⟩
    cases r with
    | error e => exact ⟨[(build d.pktCounter, .error e)], rfl, sent_refused _ _ e, rfl, nofun⟩
    | ok _ =>
      cases pause with
      | none => exact hrest
      | some millis => exact ⟨trivial, fun _ => hrest⟩

theorem handshake_trace (opcodes : List UInt8) (l : List (List UInt8 × Except String Unit)) :
    wp trace (handshake opcodes)
      (fun r l' => ∃ sent, l' = l ++ sent ∧ Sent (opcodes.map buildReport0x80) r sent) l := by
  induction opcodes generalizing l with
  | nil => exact ⟨[], (List.append_nil l).symm, sent_nil⟩
  | cons opcode opcodes ih =>
    refine ⟨trivial, fun r => ?_⟩
    cases r with
    | error e => exact ⟨[(buildReport0x80 opcode, .error e)], rfl, sent_refused _ _ e⟩
    | ok _ =>
      refine ⟨trivial, fun _ => (ih _).mono ?_⟩
      rintro r _ ⟨sent, rfl, hsent⟩
      exact ⟨(buildReport0x80 opcode, .ok ()) :: sent, by simp [trace], hsent.cons _⟩

theorem start_trace (d : JoyCon1Device) (hd : d.reader = false) :
    wp trace d.start (fun r l => Sent (startReports d) r.2 l ∧ (r.1.reader = true ↔ r.2 = .ok ())) [] := by
  have hhandshake : wp trace (if d.isUsb then handshake HANDSHAKE else return .ok ())
      (Sent (handshakeReports d)) [] := by
    unfold handshakeReports
    cases d.isUsb with
    | false => exact sent_nil
    | true =>
      refine (handshake_trace HANDSHAKE []).mono ?_
      rintro r _ ⟨sent, rfl, hsent⟩
      exact hsent
  have hsplit : startReports d = (handshakeReports d ++ reportsFrom d.pktCounter CONNECT_SEQUENCE) ++
      reportsFrom (d.pktCounter + UInt8.ofNat CONNECT_SEQUENCE.length) CALIBRATION_READS := by
    rw [startReports, reportsFrom_append, List.append_assoc]
  have hconnect : wp trace d.runConnectSequence (fun r l =>
      Sent (handshakeReports d ++ reportsFrom d.pktCounter CONNECT_SEQUENCE) r.2 l ∧ r.1.reader = false ∧
      (r.2 = .ok () → r.1.pktCounter = d.pktCounter + UInt8.ofNat CONNECT_SEQUENCE.length)) [] := by
    refine hhandshake.bind ?_
    rintro r l hsent
    cases r with
    | error e => exact ⟨hsent.append_error _, hd, nofun⟩
    | ok _ =>
      refine (writeAll_trace CONNECT_SEQUENCE d l).mono ?_
      rintro r _ ⟨sent, rfl, hsent', hreader, hcounter⟩
      exact ⟨hsent.append hsent', hreader.trans hd, hcounter⟩
  have hfailed {d' : JoyCon1Device} {e : String} (h : d'.reader = false) :
      d'.reader = true ↔ (.error e : Except String Unit) = .ok () := by simp [h]
  rw [hsplit, JoyCon1Device.start, hd]
  refine hconnect.bind ?_
  rintro ⟨d₁, r⟩ l ⟨hsent, hreader, hcounter⟩
  cases r with
  | error e => exact ⟨hsent.append_error _, hfailed hreader⟩
  | ok _ =>
    refine (writeAll_trace CALIBRATION_READS d₁ l).bind ?_
    rintro ⟨d₂, r⟩ _ ⟨sent, rfl, hsent', hreader', -⟩
    rw [hcounter rfl] at hsent'
    cases r with
    | error e => exact ⟨hsent.append hsent', hfailed (hreader'.trans hreader)⟩
    | ok _ => exact ⟨hsent.append hsent', by simp⟩

/-- A start of a device that has no reader sends its reports in order, all of them or up to the first that is refused,
and there is a reader afterwards exactly if none was. -/
theorem start_sends {d d' : JoyCon1Device} (hd : d.reader = false) {r : Except String Unit}
    {log : List (Exchange Hid.Answer)} (h : Follows d.start log (.done (d', r))) :
    Sent (startReports d) r (writes log) ∧ (d'.reader = true ↔ r = .ok ()) := by
  have hresult := (start_trace d hd).result h
  rwa [trace_ledger, List.nil_append] at hresult

/-- The start that was refused at once. -/
theorem refusedStart_sends :
    Sent (startReports (.new false)) (.error "gone") (writes refusedStart) ∧
      ((⟨false, 1, false⟩ : JoyCon1Device).reader = true ↔ (.error "gone" : Except String Unit) = .ok ()) :=
  have hrun : Follows (JoyCon1Device.new false).start refusedStart (.done (⟨false, 1, false⟩, .error "gone")) :=
    .of_replay rfl
  start_sends rfl hrun

end EverythingImu.Joycon.JoyCon1
