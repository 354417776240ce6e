import EverythingImu.Devices.Sony
import EverythingImu.Devices.StableMac
import EverythingImu.Joycon.Samples
import EverythingImu.Library.PresenceScan

/-!
# Controllers on the HID bus

Six factories look for controllers with `hidapi` (`real_enumerate_loop` of `factory.rs` in `device-joycon`,
`device-dualsense`, `device-psmove`, `device-steam-deck` and `device-steam-controller`, `enumerate_loop` in
`device-dualshock3`).  Each of them is a repeated scan in the sense of `PresenceScan`, whose keys are the paths with
their interfaces; they differ in the entries that they keep and in the products that they know.  The one-shot listings
(`list_paired`) go over the same bus without opening anything.

An entry of the bus comes with what `open_path` does with it in the scan.  A path is given by the text that `{:?}` makes
of it.  A failed refresh of the bus and a supervisor that is gone, which end the loop, are left out, and so are the
Joy-Cons 2, which come over Bluetooth LE, and the log lines.
-/

namespace EverythingImu

/-- What `hidapi` says about an entry. -/
structure HidDeviceInfo where
  path : String
  vendorId : UInt16
  productId : UInt16
  serialNumber : Option String
  interfaceNumber : Int32
  usagePage : UInt16
  usage : UInt16

namespace HidDeviceInfo

/-- `format!("{path:?}#{iface}")`. -/
def key (i : HidDeviceInfo) : String := i.path ++ "#" ++ toString i.interfaceNumber

def serial (i : HidDeviceInfo) : String := i.serialNumber.getD ""

/-- The platform does not tell the usage. -/
def usageUnknown (i : HidDeviceInfo) : Bool := i.usagePage = 0 && i.usage = 0

/-- The Game Pad collection of the Generic Desktop page. -/
def isGamepad (i : HidDeviceInfo) : Bool := i.usagePage = 0x01 && i.usage = 0x05

end HidDeviceInfo

/-- An entry of a listing. -/
structure PairedController (Kind : Type) where
  kind : Kind
  pid : UInt16
  serial : String
  path : String
  interface : Int32
  mac : Mac

/-! ### Joy-Con -/

namespace Joycon

def JOYCON_VID : UInt16 := 0x057E
def JOYCON_L : UInt16 := 0x2006
def JOYCON_R : UInt16 := 0x2007
def PRO_CONTROLLER : UInt16 := 0x2009

/-- The charging grip is not supported. -/
def ControllerKind.fromPid (pid : UInt16) : Option ControllerKind :=
  if pid = JOYCON_L then some .joyConL
  else if pid = JOYCON_R then some .joyConR
  else if pid = PRO_CONTROLLER then some .proController
  else none

def ControllerKind.intoDeviceKind : ControllerKind → DeviceKind
  | .joyConL => .joyConL
  | .joyConR => .joyConR
  | .proController => .proController
  | .chargingGripL => .chargingGripL
  | .chargingGripR => .chargingGripR

inductive ProControllerVariant where
  | nintendo
  | bitDo8Pro2
  | bitDo8Ultimate2
  | unknownClone
deriving DecidableEq

def ProControllerVariant.isClone (v : ProControllerVariant) : Bool := v ≠ .nintendo

def ProControllerVariant.label : ProControllerVariant → String
  | .nintendo => "Pro Controller"
  | .bitDo8Pro2 => "8BitDo Pro 2 (Switch mode)"
  | .bitDo8Ultimate2 => "8BitDo Ultimate 2 (Switch mode)"
  | .unknownClone => "Pro Controller clone"

def isNintendoStyleMac (serial : String) : Bool :=
  serial.utf8ByteSize = 12 &&
    serial.toList.all fun c => c.isDigit || ('a' ≤ c && c ≤ 'f') || ('A' ≤ c && c ≤ 'F')

def classifySerial (serial : String) : ProControllerVariant :=
  let lower := serial.toList.map Char.toLower
  let contains (needle : String) : Bool := needle.toList <:+: lower
  if serial.isEmpty then .nintendo
  else if contains "pro2" || contains "pro 2" then .bitDo8Pro2
  else if contains "ultimate2" || contains "ultimate 2" then .bitDo8Ultimate2
  else if contains "8bitdo" then .unknownClone
  else if isNintendoStyleMac serial then .nintendo
  else .unknownClone

/-- `JoyCon1Device::new`. -/
def JoyCon1Device.metadata (kind : ControllerKind) (serial : String) (mac : Mac) : DeviceMetadata :=
  let variant := if kind = .proController then classifySerial serial else .nintendo
  { id := { mac := mac, serial := serial }
    kind := kind.intoDeviceKind
    firmware := if variant.isClone then some variant.label else none
    capabilities := { hasMagnetometer := false, hasBattery := true, hasRumble := true, nativeImuRateHz := 200 } }

def keeps (i : HidDeviceInfo) : Bool := i.vendorId = JOYCON_VID && (i.usageUnknown || i.isGamepad)

/-- A controller without a serial is named by its path. -/
def macOfInfo (i : HidDeviceInfo) : Mac := macFromString (if i.serial.isEmpty then i.path else i.serial)

def metadataOfInfo (i : HidDeviceInfo) : Option DeviceMetadata :=
  (ControllerKind.fromPid i.productId).map fun kind => JoyCon1Device.metadata kind i.serial (macOfInfo i)

def listPaired (bus : List HidDeviceInfo) : List (PairedController ControllerKind) :=
  bus.filterMap fun i =>
    if i.vendorId ≠ JOYCON_VID then none
    else if !(i.usageUnknown || i.isGamepad) then none
    else
      (ControllerKind.fromPid i.productId).map fun kind =>
        { kind := kind, pid := i.productId, serial := i.serial, path := i.path, interface := i.interfaceNumber
          mac := macOfInfo i }

end Joycon

/-! ### Sony -/

def SONY_VID : UInt16 := 0x054C

namespace Sony.DualSense

def DUALSENSE : UInt16 := 0x0CE6
def DUALSENSE_EDGE : UInt16 := 0x0DF2
def DUALSHOCK_4_V1 : UInt16 := 0x05C4
def DUALSHOCK_4_V2 : UInt16 := 0x09CC

def ControllerKind.fromPid (pid : UInt16) : Option ControllerKind :=
  if pid = DUALSENSE then some .dualSense
  else if pid = DUALSENSE_EDGE then some .dualSenseEdge
  else if pid = DUALSHOCK_4_V1 ∨ pid = DUALSHOCK_4_V2 then some .dualShock4
  else none

def ControllerKind.intoDeviceKind : ControllerKind → DeviceKind
  | .dualSense => .dualSense
  | .dualSenseEdge => .dualSenseEdge
  | .dualShock4 => .dualShock4

/-- `DualSenseDevice::new`. -/
def DualSenseDevice.metadata (kind : ControllerKind) (serial : String) (mac : Mac) : DeviceMetadata where
  id := { mac := mac, serial := serial }
  kind := kind.intoDeviceKind
  firmware := none
  capabilities := { hasMagnetometer := false, hasBattery := true, hasRumble := true, nativeImuRateHz := 250 }

def keeps (i : HidDeviceInfo) : Bool := i.vendorId = SONY_VID && (i.usageUnknown || i.isGamepad)

def metadataOfInfo (i : HidDeviceInfo) : Option DeviceMetadata :=
  (ControllerKind.fromPid i.productId).map fun kind =>
    DualSenseDevice.metadata kind i.serial (EverythingImu.DualSense.macFromSerial i.serial)

def listPaired (bus : List HidDeviceInfo) : List (PairedController ControllerKind) :=
  bus.filterMap fun i =>
    if i.vendorId ≠ SONY_VID then none
    else if !(i.usageUnknown || i.isGamepad) then none
    else
      (ControllerKind.fromPid i.productId).map fun kind =>
        { kind := kind, pid := i.productId, serial := i.serial, path := i.path, interface := i.interfaceNumber
          mac := EverythingImu.DualSense.macFromSerial i.serial }

end Sony.DualSense

namespace Sony.DualShock3

def DS3_PID : UInt16 := 0x0268

/-- `DualShock3Device::new`. -/
def DualShock3Device.metadata (serial : String) (mac : Mac) : DeviceMetadata where
  id := { mac := mac, serial := serial }
  kind := .dualShock3
  firmware := none
  capabilities := { hasMagnetometer := false, hasBattery := false, hasRumble := false, nativeImuRateHz := 100 }

def keeps (i : HidDeviceInfo) : Bool := i.vendorId = SONY_VID && i.productId = DS3_PID

def metadataOfInfo (i : HidDeviceInfo) : Option DeviceMetadata :=
  some (DualShock3Device.metadata i.serial (EverythingImu.DualShock3.macFromSerial i.serial))

end Sony.DualShock3

namespace Sony.PsMove

def ZCM1 : UInt16 := 0x03D5
def ZCM2 : UInt16 := 0x0C5E

def ControllerKind.fromPid (pid : UInt16) : Option ControllerKind :=
  if pid = ZCM1 then some .zcm1
  else if pid = ZCM2 then some .zcm2
  else none

def ControllerKind.intoDeviceKind : ControllerKind → DeviceKind
  | .zcm1 => .psMoveZcm1
  | .zcm2 => .psMoveZcm2

/-- `PsMoveDevice::new`. -/
def PsMoveDevice.metadata (kind : ControllerKind) (serial : String) (mac : Mac) : DeviceMetadata where
  id := { mac := mac, serial := serial }
  kind := kind.intoDeviceKind
  firmware := none
  capabilities :=
    { hasMagnetometer := kind.hasMagnetometer, hasBattery := true, hasRumble := true, nativeImuRateHz := 175 }

def isPsMove (i : HidDeviceInfo) : Bool :=
  i.vendorId = SONY_VID && (ControllerKind.fromPid i.productId).isSome

/-- Only the Game Pad collections are kept, if the bus has one. -/
def keeps (bus : List HidDeviceInfo) (i : HidDeviceInfo) : Bool :=
  isPsMove i && (!(bus.filter isPsMove).any HidDeviceInfo.isGamepad || i.isGamepad)

def macOfInfo (i : HidDeviceInfo) : Mac := EverythingImu.PsMove.macFromSerial i.serial i.key

def metadataOfInfo (i : HidDeviceInfo) : Option DeviceMetadata :=
  (ControllerKind.fromPid i.productId).map fun kind => PsMoveDevice.metadata kind i.serial (macOfInfo i)

/-- Every collection is listed. -/
def listPaired (bus : List HidDeviceInfo) : List (PairedController ControllerKind) :=
  bus.filterMap fun i =>
    if i.vendorId ≠ SONY_VID then none
    else
      (ControllerKind.fromPid i.productId).map fun kind =>
        { kind := kind, pid := i.productId, serial := i.serial, path := i.path, interface := i.interfaceNumber
          mac := macOfInfo i }

end Sony.PsMove

/-! ### Valve -/

def VALVE_VID : UInt16 := 0x28DE

namespace Steam.Deck

def STEAM_DECK_PID : UInt16 := 0x1205
def GAMEPAD_USAGE_PAGE : UInt16 := 0xFFFF
def GAMEPAD_USAGE : UInt16 := 0x0001

def isGamepadInterface (vid pid usagePage usage : UInt16) : Bool :=
  if vid ≠ VALVE_VID ∨ pid ≠ STEAM_DECK_PID then false
  else (usagePage = 0 && usage = 0) || (usagePage = GAMEPAD_USAGE_PAGE && usage = GAMEPAD_USAGE)

/-- `SteamDeckDevice::new`. -/
def SteamDeckDevice.metadata (serial : String) (mac : Mac) : DeviceMetadata where
  id := { mac := mac, serial := serial }
  kind := .steamDeck
  firmware := some "Steam Deck (jupiter/galileo)"
  capabilities := { hasMagnetometer := false, hasBattery := false, hasRumble := true, nativeImuRateHz := 250 }

def keeps (i : HidDeviceInfo) : Bool := isGamepadInterface i.vendorId i.productId i.usagePage i.usage

def metadataOfInfo (i : HidDeviceInfo) : Option DeviceMetadata :=
  some (SteamDeckDevice.metadata i.serial (EverythingImu.SteamDeck.macFromSerial i.serial))

structure PairedSteamDeck where
  serial : String
  path : String
  mac : Mac

def listPaired (bus : List HidDeviceInfo) : List PairedSteamDeck :=
  bus.filterMap fun i =>
    if !isGamepadInterface i.vendorId i.productId i.usagePage i.usage then none
    else some ⟨i.serial, i.path, EverythingImu.SteamDeck.macFromSerial i.serial⟩

end Steam.Deck

namespace Steam.Controller

def PID_WIRED : UInt16 := 0x1102
def PID_DONGLE : UInt16 := 0x1142

inductive SteamControllerTransport where
  | usbWired
  | usbDongle
deriving DecidableEq

def SteamControllerTransport.fromPid (pid : UInt16) : Option SteamControllerTransport :=
  if pid = PID_WIRED then some .usbWired
  else if pid = PID_DONGLE then some .usbDongle
  else none

def SteamControllerTransport.label : SteamControllerTransport → String
  | .usbWired => "Steam Controller (wired)"
  | .usbDongle => "Steam Controller (wireless dongle)"

/-- `SteamControllerDevice::new`. -/
def SteamControllerDevice.metadata (transport : SteamControllerTransport) (serial : String) (mac : Mac) :
    DeviceMetadata where
  id := { mac := mac, serial := serial }
  kind := .steamController
  firmware := some transport.label
  capabilities :=
    { hasMagnetometer := false, hasBattery := transport = .usbDongle, hasRumble := false, nativeImuRateHz := 100 }

def keeps (i : HidDeviceInfo) : Bool :=
  i.vendorId = VALVE_VID && (SteamControllerTransport.fromPid i.productId).isSome

def metadataOfInfo (i : HidDeviceInfo) : Option DeviceMetadata :=
  (SteamControllerTransport.fromPid i.productId).map fun transport =>
    SteamControllerDevice.metadata transport i.serial (EverythingImu.SteamController.macFromSerial i.serial)

structure PairedSteamController where
  transport : SteamControllerTransport
  pid : UInt16
  serial : String
  path : String
  mac : Mac

def listPaired (bus : List HidDeviceInfo) : List PairedSteamController :=
  bus.filterMap fun i =>
    if i.vendorId ≠ VALVE_VID then none
    else
      (SteamControllerTransport.fromPid i.productId).map fun transport =>
        ⟨transport, i.productId, i.serial, i.path, EverythingImu.SteamController.macFromSerial i.serial⟩

end Steam.Controller

/-! ### The factories -/

inductive HidFactory where
  | joycon
  | dualSense
  | dualShock3
  | psMove
  | steamDeck
  | steamController
deriving DecidableEq

namespace HidFactory

/-- The entries that a factory looks at. -/
def keeps : HidFactory → List HidDeviceInfo → HidDeviceInfo → Bool
  | .joycon, _, i => Joycon.keeps i
  | .dualSense, _, i => Sony.DualSense.keeps i
  | .dualShock3, _, i => Sony.DualShock3.keeps i
  | .psMove, bus, i => Sony.PsMove.keeps bus i
  | .steamDeck, _, i => Steam.Deck.keeps i
  | .steamController, _, i => Steam.Controller.keeps i

/-- The metadata of the device that is made of an entry, if the factory knows the product. -/
def metadataOfInfo : HidFactory → HidDeviceInfo → Option DeviceMetadata
  | .joycon => Joycon.metadataOfInfo
  | .dualSense => Sony.DualSense.metadataOfInfo
  | .dualShock3 => Sony.DualShock3.metadataOfInfo
  | .psMove => Sony.PsMove.metadataOfInfo
  | .steamDeck => Steam.Deck.metadataOfInfo
  | .steamController => Steam.Controller.metadataOfInfo

/-- The loop of a factory. -/
def driver (f : HidFactory) : PresenceScan.Driver HidDeviceInfo String where
  keep := f.keeps
  key := HidDeviceInfo.key
  supported i := (f.metadataOfInfo i).isSome

/-- The devices that a scan hands to the supervisor, of a sequence of scans. -/
def found (f : HidFactory) (buses : Nat → List (HidDeviceInfo × Bool)) (n : Nat) : List DeviceMetadata :=
  (f.driver.found buses n).filterMap f.metadataOfInfo

/-- The devices that a scan hands over for a path and interface. -/
def foundAt (f : HidFactory) (buses : Nat → List (HidDeviceInfo × Bool)) (n : Nat) (key : String) :
    List DeviceMetadata :=
  ((f.driver.found buses n).filter (·.key = key)).filterMap f.metadataOfInfo

/-- The factory looks at an entry of a path and interface. -/
def Present (f : HidFactory) (bus : List (HidDeviceInfo × Bool)) (key : String) : Prop :=
  ∃ e ∈ bus, f.keeps (bus.map (·.1)) e.1 = true ∧ e.1.key = key

/-- It can open one. -/
def Opens (f : HidFactory) (bus : List (HidDeviceInfo × Bool)) (key : String) : Prop :=
  ∃ i, (i, true) ∈ bus ∧ f.keeps (bus.map (·.1)) i = true ∧ i.key = key

/-- It knows the product of all of them. -/
def Knows (f : HidFactory) (bus : List (HidDeviceInfo × Bool)) (key : String) : Prop :=
  ∀ e ∈ bus, f.keeps (bus.map (·.1)) e.1 = true → e.1.key = key → (f.metadataOfInfo e.1).isSome = true

/-- The kind, the serial and the MAC of a device. -/
def shown (m : DeviceMetadata) : DeviceKind × String × Mac := (m.kind, m.id.serial, m.id.mac)

/-- The kinds, serials and MACs that `list_paired` lists; there is no listing of the DualShock 3. -/
def listed : HidFactory → List HidDeviceInfo → Option (List (DeviceKind × String × Mac))
  | .joycon, bus => some ((Joycon.listPaired bus).map fun p => (p.kind.intoDeviceKind, p.serial, p.mac))
  | .dualSense, bus => some ((Sony.DualSense.listPaired bus).map fun p => (p.kind.intoDeviceKind, p.serial, p.mac))
  | .dualShock3, _ => none
  | .psMove, bus => some ((Sony.PsMove.listPaired bus).map fun p => (p.kind.intoDeviceKind, p.serial, p.mac))
  | .steamDeck, bus => some ((Steam.Deck.listPaired bus).map fun p => (.steamDeck, p.serial, p.mac))
  | .steamController, bus => some ((Steam.Controller.listPaired bus).map fun p => (.steamController, p.serial, p.mac))

/-! ### Entries -/

theorem mem_selected_iff {f : HidFactory} {bus : List (HidDeviceInfo × Bool)} {e : HidDeviceInfo × Bool} :
    e ∈ f.driver.selected bus ↔ e ∈ bus ∧ f.keeps (bus.map (·.1)) e.1 = true := List.mem_filter

/-- The vendor and the products of a factory. -/
def products : HidFactory → UInt16 × List UInt16
  | .joycon => (Joycon.JOYCON_VID, [Joycon.JOYCON_L, Joycon.JOYCON_R, Joycon.PRO_CONTROLLER])
  | .dualSense =>
    (SONY_VID, [Sony.DualSense.DUALSENSE, Sony.DualSense.DUALSENSE_EDGE, Sony.DualSense.DUALSHOCK_4_V1,
      Sony.DualSense.DUALSHOCK_4_V2])
  | .dualShock3 => (SONY_VID, [Sony.DualShock3.DS3_PID])
  | .psMove => (SONY_VID, [Sony.PsMove.ZCM1, Sony.PsMove.ZCM2])
  | .steamDeck => (VALVE_VID, [Steam.Deck.STEAM_DECK_PID])
  | .steamController => (VALVE_VID, [Steam.Controller.PID_WIRED, Steam.Controller.PID_DONGLE])

/-- An entry that a factory looks at and knows is one of its products. -/
theorem mem_products {f : HidFactory} {bus : List HidDeviceInfo} {i : HidDeviceInfo} (hkeep : f.keeps bus i = true)
    (hknown : (f.metadataOfInfo i).isSome = true) :
    i.vendorId = f.products.1 ∧ i.productId ∈ f.products.2 := by
  cases f with
  | joycon =>
    simp only [keeps, Joycon.keeps, Bool.and_eq_true, decide_eq_true_eq] at hkeep
    refine ⟨hkeep.1, ?_⟩
    simp only [metadataOfInfo, Joycon.metadataOfInfo, Joycon.ControllerKind.fromPid, Option.isSome_map] at hknown
    simp only [products, List.mem_cons, List.not_mem_nil, or_false]
    grind
  | dualSense =>
    simp only [keeps, Sony.DualSense.keeps, Bool.and_eq_true, decide_eq_true_eq] at hkeep
    refine ⟨hkeep.1, ?_⟩
    simp only [metadataOfInfo, Sony.DualSense.metadataOfInfo, Sony.DualSense.ControllerKind.fromPid,
      Option.isSome_map] at hknown
    simp only [products, List.mem_cons, List.not_mem_nil, or_false]
    grind
  | dualShock3 =>
    simp only [keeps, Sony.DualShock3.keeps, Bool.and_eq_true, decide_eq_true_eq] at hkeep
    exact ⟨hkeep.1, List.mem_singleton.2 hkeep.2⟩
  | psMove =>
    simp only [keeps, Sony.PsMove.keeps, Sony.PsMove.isPsMove, Bool.and_eq_true, decide_eq_true_eq] at hkeep
    refine ⟨hkeep.1.1, ?_⟩
    have hpid := hkeep.1.2
    simp only [Sony.PsMove.ControllerKind.fromPid] at hpid
    simp only [products, List.mem_cons, List.not_mem_nil, or_false]
    grind
  | steamDeck =>
    simp only [keeps, Steam.Deck.keeps, Steam.Deck.isGamepadInterface] at hkeep
    split at hkeep
    · cases hkeep
    · rename_i h
      push Not at h
      exact ⟨h.1, List.mem_singleton.2 h.2⟩
  | steamController =>
    simp only [keeps, Steam.Controller.keeps, Bool.and_eq_true, decide_eq_true_eq] at hkeep
    refine ⟨hkeep.1, ?_⟩
    have hpid := hkeep.2
    simp only [Steam.Controller.SteamControllerTransport.fromPid] at hpid
    simp only [products, List.mem_cons, List.not_mem_nil, or_false]
    grind

/-- An entry that a scan finds is one that the factory looks at and could open, and it knows the product. -/
theorem keeps_of_found {f : HidFactory} {buses : Nat → List (HidDeviceInfo × Bool)} {n : Nat} {i : HidDeviceInfo}
    (h : i ∈ f.driver.found buses n) :
    (i, true) ∈ buses n ∧ f.keeps ((buses n).map (·.1)) i = true ∧ (f.metadataOfInfo i).isSome = true := by
  have hmem := (PresenceScan.Driver.scan_found_sublist _ _).subset h
  obtain ⟨⟨i, opened⟩, he, rfl⟩ := List.mem_map.1 hmem
  obtain ⟨hsel, hready⟩ := List.mem_filter.1 he
  obtain ⟨rfl, hknown⟩ := Bool.and_eq_true_iff.1 hready
  exact ⟨(mem_selected_iff.1 hsel).1, (mem_selected_iff.1 hsel).2, hknown⟩

/-- No entry is found by two factories, whatever each of them sees. -/
theorem factory_of_found {f g : HidFactory} {buses buses' : Nat → List (HidDeviceInfo × Bool)} {n m : Nat}
    {i : HidDeviceInfo} (hf : i ∈ f.driver.found buses n) (hg : i ∈ g.driver.found buses' m) : f = g := by
  have hdisjoint : ∀ f g : HidFactory, f.products.1 = g.products.1 → (∃ pid ∈ f.products.2, pid ∈ g.products.2) →
      f = g := by
    intro f g
    cases f <;> cases g <;> decide
  obtain ⟨-, hkeepf, hknownf⟩ := keeps_of_found hf
  obtain ⟨-, hkeepg, hknowng⟩ := keeps_of_found hg
  obtain ⟨hvidf, hpidf⟩ := mem_products hkeepf hknownf
  obtain ⟨hvidg, hpidg⟩ := mem_products hkeepg hknowng
  exact hdisjoint f g (hvidf.symm.trans hvidg) ⟨i.productId, hpidf, hpidg⟩

/-! ### Scans -/

theorem present_iff {f : HidFactory} {bus : List (HidDeviceInfo × Bool)} {key : String} :
    key ∈ f.driver.present bus ↔ f.Present bus key := by
  simp only [PresenceScan.Driver.present, List.mem_map, mem_selected_iff, Present, and_assoc]
  rfl

theorem opens_iff {f : HidFactory} {bus : List (HidDeviceInfo × Bool)} {key : String} :
    (∃ e ∈ f.driver.selected bus, f.driver.key e.1 = key ∧ e.2 = true) ↔ f.Opens bus key := by
  simp only [mem_selected_iff, Opens]
  constructor
  · rintro ⟨⟨i, opened⟩, ⟨hmem, hkeep⟩, hkey, rfl⟩
    exact ⟨i, hmem, hkeep, hkey⟩
  · rintro ⟨i, hmem, hkeep, hkey⟩
    exact ⟨(i, true), ⟨hmem, hkeep⟩, hkey, rfl⟩

/-- A path and interface is found exactly in the scans that open it for the first time since it was last away. -/
theorem mem_found_iff {f : HidFactory} {buses : Nat → List (HidDeviceInfo × Bool)} {n : Nat} {key : String}
    (hknows : ∀ i ≤ n, f.Knows (buses i) key) :
    key ∈ (f.driver.found buses n).map HidDeviceInfo.key ↔
      f.Opens (buses n) key ∧
        ∀ i < n, f.Opens (buses i) key → ∃ m, i < m ∧ m ≤ n ∧ ¬ f.Present (buses m) key := by
  have hsup : ∀ i ≤ n, ∀ e ∈ f.driver.selected (buses i), f.driver.key e.1 = key → f.driver.supported e.1 :=
    fun i hi e he hk => hknows i hi e (mem_selected_iff.1 he).1 (mem_selected_iff.1 he).2 hk
  have hmem := PresenceScan.Driver.mem_found_iff hsup
  simp only [opens_iff, present_iff] at hmem
  exact hmem

/-- A DualSense on a cable. -/
def cabledDualSense : HidDeviceInfo :=
  ⟨"\"/dev/hidraw3\"", SONY_VID, Sony.DualSense.DUALSENSE, some "a0ab51c2d3e4", 3, 1, 5⟩

/-- It cannot be opened in the first scan, can be in the next two, is away, and is back. -/
def cableScans (n : Nat) : List (HidDeviceInfo × Bool) :=
  if n = 3 then [] else [(cabledDualSense, n ≠ 0)]

/-- What a factory looks at, it also looks at when it is alone on the bus. -/
theorem keeps_alone {f : HidFactory} {bus : List HidDeviceInfo} {i : HidDeviceInfo} (h : f.keeps bus i = true) :
    f.keeps [] i = true := by
  cases f with
  | psMove =>
    have hmove : Sony.PsMove.isPsMove i = true := (Bool.and_eq_true_iff.1 h).1
    simp [keeps, Sony.PsMove.keeps, hmove]
  | joycon | dualSense | dualShock3 | steamDeck | steamController => exact h

/-- An entry of a listing that checks the vendor and the usage. -/
private theorem map_entry {Kind Entry : Type} (c : Prop) [Decidable c] (u : Bool) (kind : Option Kind)
    (entry : Kind → Entry) (row : Entry → DeviceKind × String × Mac) (metadata : Kind → DeviceMetadata)
    (h : ∀ k, row (entry k) = shown (metadata k)) :
    (if ¬ c then none else if !u then none else kind.map entry).map row =
      if decide c && u then (kind.map metadata).map shown else none := by
  by_cases hc : c <;> cases u <;> cases kind <;> simp [hc, h]

/-- An entry of a listing that checks the vendor only. -/
private theorem map_entry_of_vendor {Kind Entry : Type} (c : Prop) [Decidable c] (kind : Option Kind)
    (entry : Kind → Entry) (row : Entry → DeviceKind × String × Mac) (metadata : Kind → DeviceMetadata)
    (h : ∀ k, row (entry k) = shown (metadata k)) :
    (if ¬ c then none else kind.map entry).map row =
      if decide c && kind.isSome then (kind.map metadata).map shown else none := by
  by_cases hc : c <;> cases kind <;> simp [hc, h]

/-- A listing goes over the entries that the factory would look at if each was alone. -/
theorem listed_eq {f : HidFactory} {bus : List HidDeviceInfo} {l : List (DeviceKind × String × Mac)}
    (h : f.listed bus = some l) :
    l = (bus.filter (f.keeps [])).filterMap fun i => (f.metadataOfInfo i).map shown := by
  cases f with
  | joycon =>
    obtain rfl := Option.some.inj h
    rw [Joycon.listPaired, List.map_filterMap, List.filterMap_filter]
    refine List.filterMap_congr fun i _ => ?_
    exact map_entry _ _ _ _ _ (fun kind => Joycon.JoyCon1Device.metadata kind i.serial (Joycon.macOfInfo i))
      fun _ => rfl
  | dualSense =>
    obtain rfl := Option.some.inj h
    rw [Sony.DualSense.listPaired, List.map_filterMap, List.filterMap_filter]
    refine List.filterMap_congr fun i _ => ?_
    exact map_entry _ _ _ _ _
      (fun kind => Sony.DualSense.DualSenseDevice.metadata kind i.serial (DualSense.macFromSerial i.serial))
      fun _ => rfl
  | dualShock3 => cases h
  | psMove =>
    obtain rfl := Option.some.inj h
    rw [Sony.PsMove.listPaired, List.map_filterMap, List.filterMap_filter]
    refine List.filterMap_congr fun i _ => ?_
    have hkeep : psMove.keeps [] i = Sony.PsMove.isPsMove i := by
      simp [keeps, Sony.PsMove.keeps]
    rw [hkeep]
    exact map_entry_of_vendor _ _ _ _
      (fun kind => Sony.PsMove.PsMoveDevice.metadata kind i.serial (Sony.PsMove.macOfInfo i)) fun _ => rfl
  | steamDeck =>
    obtain rfl := Option.some.inj h
    rw [Steam.Deck.listPaired, List.map_filterMap, List.filterMap_filter]
    refine List.filterMap_congr fun i _ => ?_
    by_cases hpad : Steam.Deck.isGamepadInterface i.vendorId i.productId i.usagePage i.usage = true
    · simp only [hpad, keeps, Steam.Deck.keeps, Bool.not_true, Bool.false_eq_true, if_false, if_true]
      rfl
    · simp [keeps, Steam.Deck.keeps, hpad]
  | steamController =>
    obtain rfl := Option.some.inj h
    rw [Steam.Controller.listPaired, List.map_filterMap, List.filterMap_filter]
    refine List.filterMap_congr fun i _ => ?_
    exact map_entry_of_vendor _ _ _ _
      (fun transport =>
        Steam.Controller.SteamControllerDevice.metadata transport i.serial (SteamController.macFromSerial i.serial))
      fun _ => rfl

theorem shown_found (f : HidFactory) (buses : Nat → List (HidDeviceInfo × Bool)) (n : Nat) :
    (f.found buses n).map shown = (f.driver.found buses n).filterMap fun i => (f.metadataOfInfo i).map shown := by
  rw [found, List.map_filterMap]

/-- The devices that a scan hands over are among those that `list_paired` lists of the same bus, in the same order.  If
every entry can be opened and has a path of its own, the first scan hands over all that are listed, unless the bus has
collections of a PS Move that are left out. -/
theorem found_are_listed (f : HidFactory) (buses : Nat → List (HidDeviceInfo × Bool)) (n : Nat)
    (l : List (DeviceKind × String × Mac)) (hlisted : f.listed ((buses n).map (·.1)) = some l) :
    ((f.found buses n).map shown).Sublist l ∧
      (n = 0 → (∀ e ∈ buses n, e.2 = true) → ((buses n).map (·.1.key)).Nodup →
        (f = .psMove → ∀ e ∈ buses n, Sony.PsMove.isPsMove e.1 = true →
          Sony.PsMove.keeps ((buses n).map (·.1)) e.1 = true) →
        (f.found buses n).map shown = l) := by
  obtain rfl := listed_eq hlisted
  have hbus : ((buses n).map (·.1)).filter (f.keeps []) = ((buses n).filter fun e => f.keeps [] e.1).map (·.1) := by
    rw [List.filter_map]
    rfl
  rw [shown_found, hbus]
  constructor
  · refine List.Sublist.filterMap _ ((PresenceScan.Driver.scan_found_sublist _ _).trans ?_)
    refine List.Sublist.map _ ((List.filter_sublist).trans ?_)
    exact List.monotone_filter_right _ fun e he => keeps_alone he
  · rintro rfl hopen hnodup hkept
    have hsel : f.driver.selected (buses 0) = (buses 0).filter fun e => f.keeps [] e.1 := by
      refine List.filter_congr fun e he => ?_
      cases f with
      | psMove =>
        refine Bool.eq_iff_iff.2 ⟨fun h => keeps_alone (f := psMove) h, fun h => ?_⟩
        exact hkept rfl e he (Bool.and_eq_true_iff.1 h).1
      | joycon | dualSense | dualShock3 | steamDeck | steamController => rfl
    have hfound : f.driver.found buses 0 =
        ((f.driver.selected (buses 0)).map (·.1)).filter f.driver.supported :=
      PresenceScan.Driver.scan_empty_found (fun e he => hopen e (mem_selected_iff.1 he).1)
        (hnodup.sublist ((List.filter_sublist).map _))
    rw [hfound, hsel, List.filterMap_filter]
    refine List.filterMap_congr fun i _ => ?_
    cases hm : f.metadataOfInfo i <;> simp [driver, hm]

theorem listed_dualSense_found :
    (HidFactory.dualSense.found (fun _ => [(cabledDualSense, true)]) 0).map shown =
      [(.dualSense, "a0ab51c2d3e4", DualSense.macFromSerial "a0ab51c2d3e4")] := by
  refine (found_are_listed .dualSense (fun _ => [(cabledDualSense, true)]) 0 _ rfl).2 rfl ?_ ?_ ?_
  · intro e he
    rw [List.mem_singleton.1 he]
  · exact List.nodup_singleton _
  · exact fun h => nomatch h

end HidFactory

end EverythingImu
