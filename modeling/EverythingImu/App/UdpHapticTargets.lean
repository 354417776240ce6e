import EverythingImu.Core.Settings
import EverythingImu.Library.ReadModifyWrite
import EverythingImu.Library.TextCodec
import Mathlib.Data.List.Nodup
import Mathlib.Data.List.Permutation

/-!
# The targets of forwarded haptics

The list of targets in the settings (`udp_haptic.rs`) and the commands that edit it, `udp_haptic_upsert` and
`udp_haptic_remove` (`commands.rs`).  A command reads the whole list, edits it in memory and writes it back, without a
lock over the three, so a command that another one overtakes undoes it (`overlapping_upserts_lose`).  When every command
writes over the list that it has read, the list is what the commands give one after another (`targets_serial`).
-/

namespace EverythingImu.App

open EverythingImu.Core ReadModifyWrite StepRun

/-! ### Targets -/

structure UdpHapticTarget where
  mac : Mac
  «alias» : String
  host : String
  port : UInt16
deriving DecidableEq

def FNV_OFFSET : UInt64 := 0xcbf29ce484222325

def FNV_PRIME : UInt64 := 0x00000100000001b3

def fnv1a64 (bytes : List UInt8) : UInt64 :=
  bytes.foldl (fun hash b => (hash ^^^ b.toUInt64) * FNV_PRIME) FNV_OFFSET

/-- The MAC of a target is made from its address. -/
def synthMac (host : String) (port : UInt16) : Mac :=
  let seed := s!"udp:{host}:{port}"
  let h := fnv1a64 seed.toUTF8.toList
  #v[0x02, h.toUInt8, (h >>> 8).toUInt8, (h >>> 16).toUInt8, (h >>> 24).toUInt8, (h >>> 32).toUInt8]

def SETTINGS_KEY : String := "udp_haptic_targets"

/-- `serde_json` for the list of targets. -/
structure TargetsJson where
  toText : List UdpHapticTarget → Option String
  fromText : String → Option (List UdpHapticTarget)

namespace TargetsJson

variable (json : TargetsJson)

/-- A list is read back from its text. -/
def RoundTrips : Prop := ∀ list, json.fromText ((json.toText list).getD "") = some list

/-- `load_from_settings_json`. -/
def loadFromSettingsJson (text : String) : List UdpHapticTarget := (json.fromText text).getD []

/-- The list as the commands read it. -/
def load (table : SettingsTable) : List UdpHapticTarget :=
  json.loadFromSettingsJson ((table SETTINGS_KEY).getD "")

/-- The list as the commands write it. -/
def save (table : SettingsTable) (list : List UdpHapticTarget) : SettingsTable :=
  table.set SETTINGS_KEY ((json.toText list).getD "")

theorem load_save {json : TargetsJson} (h : json.RoundTrips) (table : SettingsTable) (list : List UdpHapticTarget) :
    json.load (json.save table list) = list := by
  simp [load, save, loadFromSettingsJson, h list]

end TargetsJson

/-! ### The commands -/

inductive TargetCommand where
  | upsert («alias» host : String) (port : UInt16)
  | remove (mac : Mac)
deriving DecidableEq

/-- The target that `udp_haptic_upsert` adds and returns. -/
def upsertTarget («alias» host : String) (port : UInt16) : UdpHapticTarget :=
  ⟨synthMac host port, «alias», host, port⟩

/-- Replace the first target with the MAC, or add one. -/
def upsert (target : UdpHapticTarget) (list : List UdpHapticTarget) : List UdpHapticTarget :=
  match list.findIdx? fun t => t.mac == target.mac with
  | some slot => list.set slot target
  | none => list ++ [target]

def remove (mac : Mac) (list : List UdpHapticTarget) : List UdpHapticTarget := list.filter fun t => t.mac != mac

namespace TargetCommand

/-- What the command does to the list in memory. -/
def edit : TargetCommand → List UdpHapticTarget → List UdpHapticTarget
  | .upsert name host port => App.upsert (upsertTarget name host port)
  | .remove mac => App.remove mac

/-- The MAC whose target the command edits. -/
def mac : TargetCommand → Mac
  | .upsert _ host port => synthMac host port
  | .remove mac => mac

end TargetCommand

/-- The stored list, and the commands that edit it. -/
def TargetsJson.store (json : TargetsJson) : Store SettingsTable TargetCommand (List UdpHapticTarget) where
  read := json.load
  write := json.save
  edit := TargetCommand.edit

/-! ### Edits -/

/-- The MACs in the list differ. -/
def UniqueMacs (list : List UdpHapticTarget) : Prop := (list.map (·.mac)).Nodup

theorem upsert_cases (target : UdpHapticTarget) (list : List UdpHapticTarget) :
    (target.mac ∉ list.map (·.mac) ∧ upsert target list = list ++ [target]) ∨
      ∃ slot, ∃ h : slot < list.length, list[slot].mac = target.mac ∧ upsert target list = list.set slot target := by
  unfold upsert
  split
  · rename_i slot hslot
    rw [List.findIdx?_eq_some_iff_getElem] at hslot
    obtain ⟨hlt, hmac, -⟩ := hslot
    exact Or.inr ⟨slot, hlt, eq_of_beq hmac, rfl⟩
  · rename_i hnone
    rw [List.findIdx?_eq_none_iff] at hnone
    refine Or.inl ⟨?_, rfl⟩
    intro hmem
    obtain ⟨t, ht, hmac⟩ := List.mem_map.1 hmem
    simpa [hmac] using hnone t ht

theorem mem_upsert_self (target : UdpHapticTarget) (list : List UdpHapticTarget) : target ∈ upsert target list := by
  rcases upsert_cases target list with ⟨-, heq⟩ | ⟨slot, hlt, -, heq⟩
  · rw [heq]
    exact List.mem_append_right _ List.mem_cons_self
  · rw [heq]
    exact List.mem_set hlt target

/-- An upsert leaves the targets with other MACs. -/
theorem mem_upsert_of_ne {target t : UdpHapticTarget} {list : List UdpHapticTarget} (ht : t ∈ list)
    (hne : t.mac ≠ target.mac) : t ∈ upsert target list := by
  rcases upsert_cases target list with ⟨-, heq⟩ | ⟨slot, hlt, hmac, heq⟩
  · rw [heq]
    exact List.mem_append_left _ ht
  · rw [heq]
    obtain ⟨i, hi, rfl⟩ := List.mem_iff_getElem.1 ht
    have his : slot ≠ i := by
      rintro rfl
      exact hne hmac
    rw [List.mem_iff_getElem]
    exact ⟨i, by simpa using hi, by rw [List.getElem_set_of_ne his]⟩

theorem uniqueMacs_upsert {target : UdpHapticTarget} {list : List UdpHapticTarget} (h : UniqueMacs list) :
    UniqueMacs (upsert target list) := by
  unfold UniqueMacs at h ⊢
  rcases upsert_cases target list with ⟨hnew, heq⟩ | ⟨slot, hlt, hmac, heq⟩
  · rw [heq, List.map_append]
    exact h.append (List.nodup_singleton _) (by simpa [List.disjoint_singleton] using hnew)
  · have hsame : (list.set slot target).map (·.mac) = list.map (·.mac) := by
      have hslot : slot < (list.map (·.mac)).length := by simpa using hlt
      have hget : (list.map (·.mac))[slot] = list[slot].mac := by simp
      rw [List.map_set, ← hmac, ← hget, List.set_getElem_self]
    rw [heq, hsame]
    exact h

theorem uniqueMacs_edit (c : TargetCommand) {list : List UdpHapticTarget} (h : UniqueMacs list) :
    UniqueMacs (c.edit list) := by
  cases c with
  | upsert name host port => exact uniqueMacs_upsert h
  | remove mac => exact h.sublist (List.filter_sublist.map _)

/-- A command leaves the targets with other MACs. -/
theorem mem_edit_of_ne {c : TargetCommand} {t : UdpHapticTarget} {list : List UdpHapticTarget} (ht : t ∈ list)
    (hne : c.mac ≠ t.mac) : t ∈ c.edit list := by
  cases c with
  | upsert name host port => exact mem_upsert_of_ne ht hne.symm
  | remove mac => exact List.mem_filter.2 ⟨ht, bne_iff_ne.2 hne.symm⟩

/-! ### Runs -/

variable (json : TargetsJson)

/-- The list after the commands is what they give one after another in some order; an upsert is in it, unless a later
command has its MAC; MACs that differed still differ. -/
structure NoUpdateLost (before : SettingsTable) (commands : List TargetCommand) (after : SettingsTable) : Prop where
  serial : ∃ order, order.Perm commands ∧ json.load after = json.store.serial order (json.load before) ∧
    ∀ earlier later name host port, order = earlier ++ .upsert name host port :: later →
      (∀ c ∈ later, c.mac ≠ synthMac host port) → upsertTarget name host port ∈ json.load after
  unique : UniqueMacs (json.load before) → UniqueMacs (json.load after)

variable {json}

/-- Later commands leave the targets with other MACs. -/
theorem mem_serial_of_ne {t : UdpHapticTarget} {later : List TargetCommand} {list : List UdpHapticTarget}
    (ht : t ∈ list) (hne : ∀ c ∈ later, c.mac ≠ t.mac) : t ∈ json.store.serial later list := by
  induction later generalizing list with
  | nil => exact ht
  | cons c later ih =>
    have hc : t ∈ c.edit list := mem_edit_of_ne ht (hne c List.mem_cons_self)
    exact ih hc fun c hc => hne c (List.mem_cons_of_mem _ hc)

theorem upsert_mem_serial {earlier later : List TargetCommand} {name host : String} {port : UInt16}
    {list : List UdpHapticTarget} (hne : ∀ c ∈ later, c.mac ≠ synthMac host port) :
    upsertTarget name host port ∈ json.store.serial (earlier ++ .upsert name host port :: later) list := by
  have hsplit : json.store.serial (earlier ++ .upsert name host port :: later) list =
      json.store.serial later (upsert (upsertTarget name host port) (json.store.serial earlier list)) := by
    simp only [Store.serial, List.foldl_append, List.foldl_cons]
    rfl
  rw [hsplit]
  exact mem_serial_of_ne (mem_upsert_self _ _) hne

/-- What the commands give one after another loses no update. -/
theorem noUpdateLost_of_serial {before after : SettingsTable} {commands order : List TargetCommand}
    (hperm : order.Perm commands) (hload : json.load after = json.store.serial order (json.load before)) :
    NoUpdateLost json before commands after := by
  refine ⟨⟨order, hperm, hload, ?_⟩, fun h => ?_⟩
  · rintro earlier later name host port rfl hne
    rw [hload]
    exact upsert_mem_serial hne
  · rw [hload]
    exact json.store.serial_induction (P := UniqueMacs) (fun c list hl => uniqueMacs_edit c hl) h order

/-- When every command writes over the list that it has read, no update is lost in any state of the run. -/
theorem targets_serial (hjson : json.RoundTrips) {table : SettingsTable}
    {s : ReadModifyWrite.State SettingsTable TargetCommand (List UdpHapticTarget)}
    (h : Reaches (ReadModifyWrite.step json.store) (ReadModifyWrite.UpToDate json.store) ⟨table, []⟩ s) :
    NoUpdateLost json table s.acknowledged s.cell ∧
      ((∀ c ∈ s.commands, c.stage = .acknowledged) → s.acknowledged = s.commands.map Command.edit) := by
  obtain ⟨order, hperm, hload⟩ := serial_of_reaches (TargetsJson.load_save hjson) h
  exact ⟨noUpdateLost_of_serial hperm hload, acknowledged_eq_map⟩

/-! ### Two upserts -/

/-- The numbers that a target consists of. -/
def UdpHapticTarget.toNats (t : UdpHapticTarget) : List ℕ × List ℕ × List ℕ × ℕ :=
  (t.mac.toList.map UInt8.toNat, t.alias.toList.map Char.toNat, t.host.toList.map Char.toNat, t.port.toNat)

def UdpHapticTarget.ofNats (n : List ℕ × List ℕ × List ℕ × ℕ) : Option UdpHapticTarget :=
  if h : (n.1.map UInt8.ofNat).length = 6 then
    some ⟨⟨(n.1.map UInt8.ofNat).toArray, h⟩, .ofList (n.2.1.map Char.ofNat), .ofList (n.2.2.1.map Char.ofNat),
      .ofNat n.2.2.2⟩
  else none

theorem UdpHapticTarget.ofNats_toNats (t : UdpHapticTarget) : ofNats t.toNats = some t := by
  obtain ⟨mac, name, host, port⟩ := t
  have hbytes : (mac.toList.map UInt8.toNat).map UInt8.ofNat = mac.toList := by simp [Function.comp_def]
  have hchars : ∀ s : String, String.ofList ((s.toList.map Char.toNat).map Char.ofNat) = s := by
    intro s
    simp [Function.comp_def]
  unfold ofNats toNats
  simp only [hbytes, hchars, Vector.length_toList, dite_true, UInt16.ofNat_toNat]
  rfl

instance : Encodable UdpHapticTarget :=
  .ofLeftInjection UdpHapticTarget.toNats UdpHapticTarget.ofNats UdpHapticTarget.ofNats_toNats

def vest : TargetCommand := .upsert "vest" "10.0.0.2" 7000

def belt : TargetCommand := .upsert "belt" "10.0.0.3" 7000

def vestTarget : UdpHapticTarget := ⟨#v[2, 24, 104, 191, 66, 29], "vest", "10.0.0.2", 7000⟩

def beltTarget : UdpHapticTarget := ⟨#v[2, 245, 221, 35, 212, 141], "belt", "10.0.0.3", 7000⟩

def vestText : String :=
  "\x7b\"mac\":[2,24,104,191,66,29],\"alias\":\"vest\",\"host\":\"10.0.0.2\",\"port\":7000\x7d"

def beltText : String :=
  "\x7b\"mac\":[2,245,221,35,212,141],\"alias\":\"belt\",\"host\":\"10.0.0.3\",\"port\":7000\x7d"

/-- The texts of the lists with these targets. -/
def targetTexts : List (List UdpHapticTarget × String) :=
  [([], "[]"), ([vestTarget], "[" ++ vestText ++ "]"), ([beltTarget], "[" ++ beltText ++ "]"),
    ([vestTarget, beltTarget], "[" ++ vestText ++ "," ++ beltText ++ "]")]

def sampleJson : TargetsJson := ⟨fun list => some (TextCodec.print targetTexts list), TextCodec.parse targetTexts⟩

theorem targetTexts_table : TextCodec.Table targetTexts := by
  constructor <;> decide +kernel

theorem sampleJson_roundTrips : sampleJson.RoundTrips := fun list => TextCodec.parse_print targetTexts_table list

def emptyTable : SettingsTable := fun _ => none

/-- The table after a command that nothing overtakes. -/
def runAlone (json : TargetsJson) (table : SettingsTable) (c : TargetCommand) : SettingsTable :=
  json.save table (c.edit (json.load table))

/-- The vest is added, and then the belt. -/
theorem two_upserts_serial :
    NoUpdateLost sampleJson emptyTable [vest, belt] (runAlone sampleJson (runAlone sampleJson emptyTable vest) belt) ∧
      sampleJson.load (runAlone sampleJson (runAlone sampleJson emptyTable vest) belt) = [vestTarget, beltTarget] := by
  have hstart : Reaches (ReadModifyWrite.step sampleJson.store) (ReadModifyWrite.UpToDate sampleJson.store)
      ⟨emptyTable, []⟩ ⟨emptyTable, []⟩ :=
    Reaches.refl _ _ _
  refine ⟨(targets_serial sampleJson_roundTrips (reaches_alone (reaches_alone hstart vest) belt)).1, ?_⟩
  decide +kernel

/-- Both upserts read the list before one of them writes: the vest is lost. -/
theorem overlapping_upserts_lose :
    sampleJson.RoundTrips ∧
      ∃ s, exec (ReadModifyWrite.step sampleJson.store) ⟨emptyTable, []⟩
          [.invoke vest, .invoke belt, .read 0, .read 1, .write 0, .write 1] = some s ∧
        (∀ c ∈ s.commands, c.stage = .acknowledged) ∧ sampleJson.load s.cell = [beltTarget] ∧
        ¬ NoUpdateLost sampleJson emptyTable (s.commands.map Command.edit) s.cell := by
  refine ⟨sampleJson_roundTrips, _, rfl, ?_, ?_, ?_⟩
  · decide +kernel
  · decide +kernel
  · rintro ⟨⟨order, hperm, hload, -⟩, -⟩
    -- whichever comes first, the vest is in the list in the end
    have hvest : vestTarget ∈ sampleJson.store.serial order (sampleJson.load emptyTable) := by
      rcases List.perm_pair.1 hperm with rfl | rfl <;> decide +kernel
    rw [← hload] at hvest
    revert hvest
    decide +kernel

end EverythingImu.App
