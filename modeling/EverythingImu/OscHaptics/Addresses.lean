import EverythingImu.OscHaptics.Mapping
import Mathlib.Data.List.DropRight

/-!
# OSC addresses as the user types them

`normalize_address` (`config.rs`) and the preview that uses it (`test_fire.rs`).  Normalising a second time changes
nothing (`normalizeAddress_idempotent`), and an address is normal when it is empty, or begins with a slash and does not
end in whitespace (`normalizeAddress_eq_self_iff`).  For a packet with such an address the preview and the listener
agree (`simulateDispatch_eq_resolve`).
-/

namespace EverythingImu.OscHaptics

/-! ### Trimming -/

/-- `char::is_whitespace`. -/
def isWhitespace (c : Char) : Bool :=
  (0x9 ≤ c.toNat && c.toNat ≤ 0xD) || c.toNat = 0x20 || c.toNat = 0x85 || c.toNat = 0xA0 || c.toNat = 0x1680 ||
    (0x2000 ≤ c.toNat && c.toNat ≤ 0x200A) || c.toNat = 0x2028 || c.toNat = 0x2029 || c.toNat = 0x202F ||
    c.toNat = 0x205F || c.toNat = 0x3000

def trim (s : String) : String := .ofList ((s.toList.dropWhile isWhitespace).rdropWhile isWhitespace)

/-- Nothing is trimmed off a text whose ends are no whitespace. -/
def HasTightEnds (s : String) : Prop :=
  s.toList.head?.all (fun c => !isWhitespace c) = true ∧ s.toList.getLast?.all (fun c => !isWhitespace c) = true

section Trim

variable {s : String}

theorem trim_eq_self (h : HasTightEnds s) : trim s = s := by
  have hfront : s.toList.dropWhile isWhitespace = s.toList := by
    cases hs : s.toList with
    | nil => rfl
    | cons c cs =>
      have hc : isWhitespace c = false := by simpa [HasTightEnds, hs] using h.1
      rw [List.dropWhile_cons_of_neg (by rw [hc]; nofun)]
  have hback : s.toList.rdropWhile isWhitespace = s.toList := by
    rw [List.rdropWhile_eq_self_iff]
    intro hne
    have hlast := h.2
    rw [List.getLast?_eq_getLast_of_ne_nil hne] at hlast
    simpa using hlast
  rw [trim, hfront, hback, String.ofList_toList]

theorem hasTightEnds_trim (s : String) : HasTightEnds (trim s) := by
  unfold HasTightEnds trim
  rw [String.toList_ofList]
  constructor
  · -- the first character is that of the text without its front
    have hprefix := List.rdropWhile_prefix isWhitespace (l := s.toList.dropWhile isWhitespace)
    cases htrimmed : (s.toList.dropWhile isWhitespace).rdropWhile isWhitespace with
    | nil => rfl
    | cons c cs =>
      obtain ⟨rest, hrest⟩ := hprefix
      rw [htrimmed] at hrest
      have hhead := List.head?_dropWhile_not isWhitespace s.toList
      rw [← hrest] at hhead
      simpa using hhead
  · cases hlast : ((s.toList.dropWhile isWhitespace).rdropWhile isWhitespace).getLast? with
    | none => rfl
    | some c =>
      have hne : (s.toList.dropWhile isWhitespace).rdropWhile isWhitespace ≠ [] := by
        intro hnil
        rw [hnil] at hlast
        cases hlast
      have hnot := List.rdropWhile_last_not isWhitespace _ hne
      rw [List.getLast?_eq_getLast_of_ne_nil hne] at hlast
      obtain rfl := Option.some.inj hlast
      simpa using hnot

end Trim

/-! ### Addresses -/

/-- The prefix of the avatar parameters. -/
def VRCHAT_PARAM_PREFIX : String := "/avatar/parameters/"

def startsWithSlash (s : String) : Bool := s.toList.head? = some '/'

def normalizeAddress (raw : String) : String :=
  let trimmed := trim raw
  if trimmed = "" then ""
  else if startsWithSlash trimmed then trimmed
  else VRCHAT_PARAM_PREFIX ++ trimmed

def HapticRule.new (oscAddress : String) (deviceMac : Mac) (mode : HapticMode) : HapticRule :=
  ⟨normalizeAddress oscAddress, deviceMac, mode⟩

def HapticRule.normalize (r : HapticRule) : HapticRule := { r with oscAddress := normalizeAddress r.oscAddress }

def HapticConfig.normalizeRules (c : HapticConfig) : HapticConfig :=
  { c with rules := c.rules.map HapticRule.normalize }

/-- Empty, or a full address without whitespace at its end. -/
def IsFullAddress (s : String) : Prop :=
  s = "" ∨ startsWithSlash s = true ∧ s.toList.getLast?.all (fun c => !isWhitespace c) = true

section Normalize

variable {raw : String}

theorem hasTightEnds_of_slash (hslash : startsWithSlash raw = true)
    (hend : raw.toList.getLast?.all (fun c => !isWhitespace c) = true) : HasTightEnds raw := by
  have hhead : raw.toList.head? = some '/' := by simpa [startsWithSlash] using hslash
  refine ⟨?_, hend⟩
  rw [hhead]
  decide

/-- A full address is left as it is. -/
theorem normalizeAddress_eq_self (h : IsFullAddress raw) : normalizeAddress raw = raw := by
  rcases h with rfl | ⟨hslash, hend⟩
  · rfl
  · have htrim : trim raw = raw := trim_eq_self (hasTightEnds_of_slash hslash hend)
    have hne : raw ≠ "" := by
      rintro rfl
      cases hslash
    unfold normalizeAddress
    rw [htrim]
    simp only [if_neg hne, if_pos hslash]

/-- What comes out is a full address. -/
theorem isFullAddress_normalizeAddress (raw : String) : IsFullAddress (normalizeAddress raw) := by
  have hends := hasTightEnds_trim raw
  unfold normalizeAddress
  by_cases hempty : trim raw = ""
  · simp only [if_pos hempty]
    exact .inl rfl
  by_cases hslash : startsWithSlash (trim raw) = true
  · simp only [if_neg hempty, if_pos hslash]
    exact .inr ⟨hslash, hends.2⟩
  · simp only [if_neg hempty, if_neg hslash]
    have hne : (trim raw).toList ≠ [] := fun hnil => hempty (String.toList_eq_nil_iff.1 hnil)
    refine .inr ⟨?_, ?_⟩
    · rw [startsWithSlash, String.toList_append]
      rfl
    · rw [String.toList_append, List.getLast?_append_of_ne_nil _ hne]
      exact hends.2

theorem normalizeAddress_eq_self_iff : normalizeAddress raw = raw ↔ IsFullAddress raw := by
  constructor
  · intro h
    rw [← h]
    exact isFullAddress_normalizeAddress raw
  · exact normalizeAddress_eq_self

theorem normalizeAddress_idempotent (raw : String) :
    normalizeAddress (normalizeAddress raw) = normalizeAddress raw :=
  normalizeAddress_eq_self (isFullAddress_normalizeAddress raw)

/-- Behind `normalize_rules` every address is a full one. -/
theorem isFullAddress_normalizeRules {c : HapticConfig} {r : HapticRule} (h : r ∈ c.normalizeRules.rules) :
    IsFullAddress r.oscAddress := by
  obtain ⟨typed, -, rfl⟩ := List.mem_map.1 h
  exact isFullAddress_normalizeAddress typed.oscAddress

end Normalize

/-! ### The preview -/

structure TestFireOutcome where
  normalisedAddress : String
  actions : List HapticAction
deriving DecidableEq

def simulateDispatch (rules : List HapticRule) (address : String) (value : Float32) : TestFireOutcome :=
  let normalised := normalizeAddress address
  { normalisedAddress := normalised
    actions := if normalised = "" then [] else resolve rules normalised value }

/-- For an address as it comes in a packet the preview gives what the listener does. -/
theorem simulateDispatch_eq_resolve {address : String} (hslash : startsWithSlash address = true)
    (htrim : trim address = address) (rules : List HapticRule) (value : Float32) :
    (simulateDispatch rules address value).actions = resolve rules address value := by
  have hends : HasTightEnds address := htrim ▸ hasTightEnds_trim address
  have hne : address ≠ "" := by
    rintro rfl
    cases hslash
  have hnormal : normalizeAddress address = address := normalizeAddress_eq_self (.inr ⟨hslash, hends.2⟩)
  unfold simulateDispatch
  rw [hnormal]
  simp only [if_neg hne]

end EverythingImu.OscHaptics
