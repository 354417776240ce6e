import EverythingImu.Core.Settings
import EverythingImu.Library.Buffer
import EverythingImu.OscHaptics.Addresses

/-!
# The haptic configuration of the app

How rules reach the listener (`haptics.rs`): from the frontend by `set_haptic_config`, and from the settings by
`load_config`.  Neither of them normalises the addresses, so a rule is looked up under the address as it was typed; it
can fire if and only if that is a full address already (`rules_canFire_iff`).
-/

namespace EverythingImu.App

open Buffer EverythingImu.Core OscHaptics

def CONFIG_KEY : String := "haptic_config"

/-! ### From the frontend -/

inductive HapticModeDto where
  | proximity (gain minThreshold : Float32)
  | pulse (pulseMs : UInt32)
deriving DecidableEq

def HapticModeDto.toMode : HapticModeDto → HapticMode
  | proximity gain minThreshold => .proximity gain minThreshold
  | pulse pulseMs => .pulse pulseMs

structure HapticRuleDto where
  oscAddress : String
  /-- 12 hex digits. -/
  deviceMac : String
  mode : HapticModeDto

structure HapticConfigDto where
  enabled : Bool
  listenPort : UInt16
  rules : List HapticRuleDto

def hexDigit (b : UInt8) : Option UInt8 :=
  if 0x30 ≤ b ∧ b ≤ 0x39 then some (b - 0x30)
  else if 0x61 ≤ b ∧ b ≤ 0x66 then some (b - 0x57)
  else if 0x41 ≤ b ∧ b ≤ 0x46 then some (b - 0x37)
  else none

/-- `u8::from_str_radix` of two bytes in base 16, which lets a plus sign stand in front. -/
def u8FromHex (hi lo : UInt8) : Option UInt8 :=
  if hi = 0x2B then hexDigit lo
  else do
    let hi ← hexDigit hi
    let lo ← hexDigit lo
    return hi * 16 + lo

/-- A slice of a string begins and ends between characters. -/
def isCharBoundary (bytes : List UInt8) (i : Nat) : Bool := bytes[i]?.all fun b => b &&& 0xC0 != 0x80

/-- An octet of a MAC; a slice through a character panics. -/
def macOctet (bytes : List UInt8) (i : Nat) : Outcome Unit UInt8 :=
  if isCharBoundary bytes (i * 2) && isCharBoundary bytes (i * 2 + 2) then
    match u8FromHex (bytes.getD (i * 2) 0) (bytes.getD (i * 2 + 1) 0) with
    | some b => .ok b
    | none => .fail ()
  else .panic

/-- The octets in order, whatever they come from. -/
def sixOctets (octet : Nat → Outcome Unit UInt8) : Outcome Unit Mac := do
  let b₀ ← octet 0
  let b₁ ← octet 1
  let b₂ ← octet 2
  let b₃ ← octet 3
  let b₄ ← octet 4
  let b₅ ← octet 5
  return #v[b₀, b₁, b₂, b₃, b₄, b₅]

/-- A MAC without separators. -/
def parseMac (s : String) : Outcome Unit Mac :=
  let bytes := s.toUTF8.data.toList
  if bytes.length ≠ 12 then .fail () else sixOctets (macOctet bytes)

variable {ε : Type}

/-- Rules with an unparseable MAC are dropped. -/
def dtoToRules : List HapticRuleDto → Outcome ε (List HapticRule)
  | [] => .ok []
  | r :: rs =>
    match parseMac r.deviceMac with
    | .panic => .panic
    | .fail _ => dtoToRules rs
    | .ok mac => do
      let rules ← dtoToRules rs
      return ⟨r.oscAddress, mac, r.mode.toMode⟩ :: rules

def dtoToConfig (d : HapticConfigDto) : Outcome ε HapticConfig := do
  let rules ← dtoToRules d.rules
  return ⟨d.enabled, d.listenPort, rules⟩

/-- The configuration that the command hands to the listener, once it is saved. -/
def setHapticConfig (d : HapticConfigDto) (saved : HapticConfig → Except ε Unit) : Outcome ε HapticConfig := do
  let domain ← dtoToConfig d
  match saved domain with
  | .error e => .fail e
  | .ok _ => return domain

/-! ### From the settings -/

def defaultHapticConfig : HapticConfig := ⟨false, DEFAULT_OSC_PORT, []⟩

/-- An absent or corrupt text stands for the default. -/
def loadConfig (fromJson : String → Option HapticConfig) (db : PersistenceDb ε) : HapticConfig :=
  ((db.get CONFIG_KEY).bind fromJson).getD defaultHapticConfig

/-! ### Rules that can fire -/

/-- The address is normal, and a packet to it as the user typed it resolves to the rule. -/
def CanFire (rules : List HapticRule) (r : HapticRule) : Prop :=
  normalizeAddress r.oscAddress = r.oscAddress ∧
    r ∈ rules.filter fun rule => rule.oscAddress = normalizeAddress r.oscAddress

theorem canFire_iff {rules : List HapticRule} {r : HapticRule} (hr : r ∈ rules) :
    CanFire rules r ↔ IsFullAddress r.oscAddress := by
  rw [← normalizeAddress_eq_self_iff]
  constructor
  · exact fun h => h.1
  · exact fun h => ⟨h, List.mem_filter.2 ⟨hr, by simp [h]⟩⟩

/-- The rules of the frontend with a MAC, as they were typed. -/
theorem mem_dtoToRules {ds : List HapticRuleDto} {rules : List HapticRule}
    (h : dtoToRules (ε := ε) ds = .ok rules) (r : HapticRule) :
    r ∈ rules ↔ ∃ d ∈ ds, parseMac d.deviceMac = .ok r.deviceMac ∧ r.oscAddress = d.oscAddress ∧
      r.mode = d.mode.toMode := by
  induction ds generalizing rules with
  | nil =>
    obtain rfl := Outcome.ok.inj h
    simp
  | cons d ds ih =>
    rw [dtoToRules] at h
    cases hmac : parseMac d.deviceMac with
    | panic =>
      rw [hmac] at h
      cases h
    | fail e =>
      rw [hmac] at h
      rw [ih h]
      simp [hmac]
    | ok mac =>
      rw [hmac] at h
      obtain ⟨others, hothers, h⟩ := Outcome.bind_eq_ok.1 h
      obtain rfl := Outcome.ok.inj h
      rw [List.mem_cons, ih hothers]
      simp only [List.mem_cons, exists_eq_or_imp, hmac, Outcome.ok.injEq]
      refine or_congr_left ⟨?_, ?_⟩
      · rintro rfl
        exact ⟨rfl, rfl, rfl⟩
      · obtain ⟨address, deviceMac, mode⟩ := r
        rintro ⟨rfl, rfl, rfl⟩
        rfl

theorem mem_setHapticConfig {d : HapticConfigDto} {saved : HapticConfig → Except ε Unit} {cfg : HapticConfig}
    (h : setHapticConfig d saved = .ok cfg) : dtoToRules (ε := ε) d.rules = .ok cfg.rules := by
  obtain ⟨domain, hdomain, h⟩ := Outcome.bind_eq_ok.1 h
  obtain ⟨rules, hrules, hcfg⟩ := Outcome.bind_eq_ok.1 hdomain
  obtain rfl := Outcome.ok.inj hcfg
  cases hsaved : saved ⟨d.enabled, d.listenPort, rules⟩ with
  | error e =>
    rw [hsaved] at h
    cases h
  | ok u =>
    rw [hsaved] at h
    obtain rfl := Outcome.ok.inj h
    exact hrules

theorem canFire_of_setHapticConfig_iff {d : HapticConfigDto} {saved : HapticConfig → Except ε Unit}
    {cfg : HapticConfig} (h : setHapticConfig d saved = .ok cfg) :
    (∀ r ∈ cfg.rules, CanFire cfg.rules r) ↔
      ∀ typed ∈ d.rules, ∀ mac, parseMac typed.deviceMac = .ok mac → IsFullAddress typed.oscAddress := by
  have hmem := mem_dtoToRules (mem_setHapticConfig h)
  constructor
  · intro hall typed htyped mac hmac
    have hr : ⟨typed.oscAddress, mac, typed.mode.toMode⟩ ∈ cfg.rules :=
      (hmem _).2 ⟨typed, htyped, hmac, rfl, rfl⟩
    exact (canFire_iff hr).1 (hall _ hr)
  · intro hall r hr
    obtain ⟨typed, htyped, hmac, haddress, -⟩ := (hmem r).1 hr
    rw [canFire_iff hr, haddress]
    exact hall typed htyped _ hmac

theorem canFire_of_loadConfig_iff (fromJson : String → Option HapticConfig) (db : PersistenceDb ε) :
    (∀ r ∈ (loadConfig fromJson db).rules, CanFire (loadConfig fromJson db).rules r) ↔
      ∀ json cfg, db.get CONFIG_KEY = some json → fromJson json = some cfg →
        ∀ r ∈ cfg.rules, IsFullAddress r.oscAddress := by
  constructor
  · intro hall json cfg hjson hcfg r hr
    have hload : loadConfig fromJson db = cfg := by rw [loadConfig, hjson, Option.bind_some, hcfg, Option.getD_some]
    rw [hload] at hall
    exact (canFire_iff hr).1 (hall r hr)
  · intro hall r hr
    rw [canFire_iff hr]
    cases hjson : db.get CONFIG_KEY with
    | none =>
      rw [loadConfig, hjson] at hr
      cases hr
    | some json =>
      cases hcfg : fromJson json with
      | none =>
        rw [loadConfig, hjson, Option.bind_some, hcfg] at hr
        cases hr
      | some cfg =>
        rw [loadConfig, hjson, Option.bind_some, hcfg, Option.getD_some] at hr
        exact hall json cfg hjson hcfg r hr

/-- A rule from the frontend can fire if and only if its address was typed as a full one, and so can a rule from the
settings.  Normalising is idempotent, and the preview agrees with the listener on the addresses that packets have. -/
theorem rules_canFire_iff (fromJson : String → Option HapticConfig) :
    (∀ (d : HapticConfigDto) (saved : HapticConfig → Except ε Unit) (cfg : HapticConfig),
      setHapticConfig d saved = .ok cfg →
        ((∀ r ∈ cfg.rules, CanFire cfg.rules r) ↔
          ∀ typed ∈ d.rules, ∀ mac, parseMac typed.deviceMac = .ok mac → IsFullAddress typed.oscAddress)) ∧
    (∀ db : PersistenceDb ε,
      (∀ r ∈ (loadConfig fromJson db).rules, CanFire (loadConfig fromJson db).rules r) ↔
        ∀ json cfg, db.get CONFIG_KEY = some json → fromJson json = some cfg →
          ∀ r ∈ cfg.rules, IsFullAddress r.oscAddress) ∧
    (∀ raw, normalizeAddress (normalizeAddress raw) = normalizeAddress raw) ∧
    ∀ (rules : List HapticRule) (address : String) (value : Float32), startsWithSlash address = true →
      trim address = address → (simulateDispatch rules address value).actions = resolve rules address value := by
  refine ⟨fun d saved cfg h => canFire_of_setHapticConfig_iff h, canFire_of_loadConfig_iff fromJson,
    normalizeAddress_idempotent, fun rules address value hslash htrim => ?_⟩
  exact simulateDispatch_eq_resolve hslash htrim rules value

/-- A rule with a full address. -/
theorem rules_canFire_full :
    let r : HapticRule := ⟨"/avatar/parameters/Foo", .replicate 6 2, .pulse 100⟩
    CanFire [r] r := by
  intro r
  let d : HapticConfigDto := ⟨true, 9001, [⟨"/avatar/parameters/Foo", "020202020202", .pulse 100⟩]⟩
  have h := (rules_canFire_iff (ε := Unit) fun _ => none).1 d (fun _ => .ok ()) ⟨true, 9001, [r]⟩ (by rfl)
  refine h.2 (fun typed htyped mac hmac => ?_) r List.mem_cons_self
  obtain rfl := List.mem_singleton.1 htyped
  exact .inr ⟨by decide, by decide⟩

/-- A bare parameter name: the rule reaches the listener as it was typed, and no packet of the parameter fires it. -/
theorem bare_name_never_fires :
    let d : HapticConfigDto := ⟨true, 9001, [⟨"Foo", "020202020202", .pulse 100⟩]⟩
    setHapticConfig (ε := Unit) d (fun _ => .ok ()) = .ok ⟨true, 9001, [⟨"Foo", .replicate 6 2, .pulse 100⟩]⟩ ∧
      normalizeAddress "Foo" = "/avatar/parameters/Foo" ∧
      resolve [⟨"Foo", .replicate 6 2, .pulse 100⟩] "/avatar/parameters/Foo" 1.0 = [] := by
  decide

end EverythingImu.App
