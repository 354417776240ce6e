import EverythingImu.Library.LittleEndian

/-!
# The record of the Wii companion

One 17-byte record per controller slot, as `build_record` of the homebrew companion writes it (`main.c`).  What the
controller library reports about a slot is a `Pad`; the calls that only change the controller (data format, settling
time, rumble) are left out, their bookkeeping in `mp_enabled` and `mp_unsupported` is kept.
-/

namespace EverythingImu.Wii

open LittleEndian

def RECORD_BYTES : Nat := 17

/-- The extension that `WPAD_Expansion` reports, with its raw data. -/
inductive Expansion where
  | none
  | nunchuk (accel : Vector UInt16 3)
  /-- Raw rates of 14 bits. -/
  | motionPlus (rates : Vector (BitVec 14) 3)
  | other
deriving DecidableEq

structure WPADData where
  accel : Vector UInt16 3
  exp : Expansion
  /-- `WPAD_BUTTON_1` is held. -/
  button1 : Bool
  /-- `WPAD_BUTTON_2` is held. -/
  button2 : Bool
  batteryLevel : UInt8
deriving DecidableEq

/-- What the library reports about a slot: whether `WPAD_Probe` finds a controller, and its data. -/
structure Pad where
  probe : Bool
  data : Option WPADData
deriving DecidableEq

/-- The companion's bookkeeping for one slot. -/
structure SlotFlags where
  formatSet : Bool
  mpEnabled : Bool
  mpUnsupported : Bool
deriving DecidableEq

def SlotFlags.start : SlotFlags := ⟨false, false, false⟩

def Expansion.isNunchuk : Expansion → Bool
  | .nunchuk _ => true
  | _ => false

def Expansion.isMotionPlus : Expansion → Bool
  | .motionPlus _ => true
  | _ => false

/-- A raw rate as the signed word that the record carries. -/
def rateWord (r : BitVec 14) : Int16 := Int16.ofBitVec (r.setWidth 16)

/-- The data words of a controller that streams none. -/
def noData : Vector Int16 3 := .replicate 3 0

/-- The three data words of an extension; a controller without one has zeros. -/
def Expansion.words : Expansion → Vector Int16 3
  | .nunchuk accel => accel.map (·.toInt16)
  | .motionPlus rates => rates.map rateWord
  | _ => noData

/-- The three words of a vector, one after the other. -/
def putVector (v : Vector Int16 3) : List UInt8 := v.toList.flatMap putI16

def emptyRecord : List UInt8 := 0xFF :: List.replicate 16 0

/-- The first sighting of a controller: pick the data format and bring MotionPlus up. -/
def SlotFlags.sight (flags : SlotFlags) : SlotFlags :=
  if flags.formatSet then flags
  else { flags with formatSet := true, mpEnabled := flags.mpEnabled || !flags.mpUnsupported }

/-- A Nunchuk and MotionPlus cannot both stream raw: with a Nunchuk attached MotionPlus is dropped, and it is brought
back when the Nunchuk is gone. -/
def SlotFlags.arbitrate (flags : SlotFlags) (nunchuk : Bool) : SlotFlags :=
  if nunchuk && flags.mpEnabled then { flags with mpEnabled := false }
  else if !nunchuk && !flags.mpEnabled && !flags.mpUnsupported then { flags with mpEnabled := true }
  else flags

/-- The record of slot `i` and the slot's bookkeeping after it. -/
def buildRecord (i : Fin 4) (pad : Pad) (flags : SlotFlags) : List UInt8 × SlotFlags :=
  if !pad.probe then (emptyRecord, flags)
  else
    match pad.data with
    | none => (emptyRecord, flags)
    | some d =>
      let flags := flags.sight
      let nunchuk := d.exp.isNunchuk
      let motionplus := d.exp.isMotionPlus && !(nunchuk && flags.mpEnabled)
      let flags := flags.arbitrate nunchuk
      let data := if nunchuk || motionplus then d.exp.words else noData
      -- an all-zero MotionPlus reading means that there is none
      let unsupported := !nunchuk && motionplus && data == noData
      let flags := if unsupported then { flags with mpUnsupported := true, mpEnabled := false } else flags
      let nunchukFlag : UInt8 := if nunchuk then 1 else 0
      let mpFlag : UInt8 := if !nunchuk && motionplus && !unsupported then 1 else 0
      let button : UInt8 := if d.button1 || d.button2 then 1 else 0
      ([UInt8.ofNat i.val] ++ putVector (d.accel.map (·.toInt16)) ++ putVector data ++
        [nunchukFlag, mpFlag, d.batteryLevel, button], flags)

/-- The controller of a slot, if the companion sees one. -/
def Pad.sighted (pad : Pad) : Option WPADData := if pad.probe then pad.data else none

/-- The all-zero reading. -/
def noRates : Vector (BitVec 14) 3 := #v[0, 0, 0]

/-- The extension is a MotionPlus with a reading other than zero. -/
def Expansion.streamsRates : Expansion → Bool
  | .motionPlus rates => rates != noRates
  | _ => false

private theorem rateWord_inj (a b : BitVec 14) (h : rateWord a = rateWord b) : a = b := by
  have h16 : a.setWidth 16 = b.setWidth 16 := congrArg Int16.toBitVec h
  have hnat := congrArg BitVec.toNat h16
  simp only [BitVec.toNat_setWidth] at hnat
  apply BitVec.eq_of_toNat_eq
  omega

theorem words_eq_noData {rates : Vector (BitVec 14) 3} :
    (Expansion.motionPlus rates).words = noData ↔ rates = noRates := by
  have hmap : noRates.map rateWord = noData := by decide +kernel
  show rates.map rateWord = noData ↔ rates = noRates
  rw [← hmap]
  exact Vector.map_inj_right rateWord_inj

theorem putVector_eq (v : Vector Int16 3) :
    putVector v = putI16 (v.toList.getD 0 0) ++ putI16 (v.toList.getD 1 0) ++ putI16 (v.toList.getD 2 0) := by
  have hlist : v.toList = [v.toList.getD 0 0, v.toList.getD 1 0, v.toList.getD 2 0] := by
    refine List.ext_getElem (by simp) fun j hj _ => ?_
    have hj : j = 0 ∨ j = 1 ∨ j = 2 := by
      simp only [Vector.length_toList] at hj
      omega
    rcases hj with rfl | rfl | rfl <;> simp
  have happ : ∀ a b c, [a, b, c].flatMap putI16 = putI16 a ++ putI16 b ++ putI16 c := fun _ _ _ => rfl
  unfold putVector
  rw [← happ, ← hlist]

/-- The record of an empty slot. -/
theorem buildRecord_empty (i : Fin 4) {pad : Pad} (flags : SlotFlags) (h : pad.sighted = none) :
    (buildRecord i pad flags).1 = emptyRecord := by
  unfold Pad.sighted at h
  unfold buildRecord
  cases hp : pad.probe with
  | false => simp
  | true =>
    rw [hp, if_pos rfl] at h
    simp [h]

/-- The record of a controller: its data words are those of the extension, and the MotionPlus flag is set exactly
when the extension streams rates. -/
theorem buildRecord_sighted (i : Fin 4) {pad : Pad} (flags : SlotFlags) {d : WPADData} (h : pad.sighted = some d) :
    (buildRecord i pad flags).1 =
      [UInt8.ofNat i.val] ++ putVector (d.accel.map (·.toInt16)) ++ putVector d.exp.words ++
        [if d.exp.isNunchuk then 1 else 0, if d.exp.streamsRates then 1 else 0, d.batteryLevel,
          if d.button1 || d.button2 then 1 else 0] := by
  unfold Pad.sighted at h
  unfold buildRecord
  cases hp : pad.probe with
  | false => simp [hp] at h
  | true =>
    rw [hp, if_pos rfl] at h
    simp only [h]
    cases he : d.exp with
    | none => simp [Expansion.isNunchuk, Expansion.isMotionPlus, Expansion.words, Expansion.streamsRates]
    | other => simp [Expansion.isNunchuk, Expansion.isMotionPlus, Expansion.words, Expansion.streamsRates]
    | nunchuk accel => simp [Expansion.isNunchuk, Expansion.isMotionPlus, Expansion.streamsRates]
    | motionPlus rates =>
      by_cases hz : rates = noRates
      · have hw : (Expansion.motionPlus noRates).words = noData := words_eq_noData.2 rfl
        simp [Expansion.isNunchuk, Expansion.isMotionPlus, Expansion.streamsRates, hw, hz]
      · have hw : (Expansion.motionPlus rates).words ≠ noData := fun h => hz (words_eq_noData.1 h)
        simp [Expansion.isNunchuk, Expansion.isMotionPlus, Expansion.streamsRates, hw, hz]

/-- Every record has the same size. -/
theorem buildRecord_length (i : Fin 4) (pad : Pad) (flags : SlotFlags) :
    (buildRecord i pad flags).1.length = RECORD_BYTES := by
  cases h : pad.sighted with
  | none =>
    rw [buildRecord_empty i flags h]
    rfl
  | some d =>
    rw [buildRecord_sighted i flags h, putVector_eq, putVector_eq]
    rfl

end EverythingImu.Wii
