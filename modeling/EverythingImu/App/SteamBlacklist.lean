import EverythingImu.Library.Buffer
import EverythingImu.Library.DistinctList
import EverythingImu.OscHaptics.Addresses
import Mathlib

/-!
# The controller blacklist of Steam

`apply_fix` and `check` (`steam_blacklist.rs`).  The parser of the config, the matcher of regular expressions and the
conversion to lower case are parameters (`Crates`), of which `Documented` says what is relied on.  A fix changes only
the value of the key or inserts one line, and the list that is read back has the old entries and the new ids
(`applyFix_spec`).  A second fix prepares the same text, unless the key stands there twice with this value: then it
fails before anything is written (`applyFix_repeatedKey`).
-/

namespace EverythingImu.App.Steam

open Buffer OscHaptics

/-- A text by its characters. -/
abbrev Text := List Char

/-- The value of a key: a text, or an object with the values of each of its keys. -/
inductive VdfValue where
  | str (text : Text)
  | obj (entries : List (Text × List VdfValue))

/-- The values of a key, if this is an object that has it. -/
def VdfValue.get (value : VdfValue) (key : String) : Option (List VdfValue) :=
  match value with
  | .str _ => none
  | .obj entries => entries.lookup key.toList

def VdfValue.getStr : VdfValue → Option Text
  | .str text => some text
  | .obj _ => none

/-- The two regular expressions. -/
inductive Pattern where
  /-- The key in any case, whitespace and this value in quotes; the first group is everything before the value. -/
  | entry (old : Text)
  /-- A closing brace, with only whitespace up to the end of the text; all of it is the first group. -/
  | lastBrace

/-- A match: the first group, the rest of the match, and the text around them. -/
structure Found where
  before : Text
  group : Text
  rest : Text
  after : Text

/-- What comes from other crates: the parser, the matches of a pattern if it is not too large, and the lower case. -/
structure Crates (P : Type) where
  parse : Text → Except P VdfValue
  newRegex : Pattern → Option (Text → List Found)
  toLowercase : Text → Text

inductive BlacklistError (P : Type) where
  | io (e : String)
  | parse (e : P)
  | invalid
  | regex
  | update
deriving DecidableEq

def BlacklistError.message {P : Type} [ToString P] : BlacklistError P → String
  | .io e => "io: " ++ e
  | .parse e => "vdf parse: " ++ toString e
  | .invalid => "steam config has no Software section — not a Steam install"
  | .regex => "could not locate the controller_blacklist line in config.vdf"
  | .update => "blacklist was written but re-read did not contain the new entries"

def JOYCON_IDS : List Text := ["0x057e/0x2006".toList, "0x057e/0x2007".toList, "0x057e/0x2008".toList]
def SWITCH_PRO_IDS : List Text := ["0x057e/0x2009".toList]

def quoted (t : Text) : Text := '\x22' :: t ++ ['\x22']

/-- `check_valid`. -/
def isValid (config : VdfValue) : Bool := (config.get "Software").any fun values => !values.isEmpty

def getBlacklist (config : VdfValue) : Option Text := do
  (← (← config.get "controller_blacklist").head?).getStr

section Code

variable {P : Type} (crates : Crates P)

def parsed (text : Text) : Outcome (BlacklistError P) VdfValue :=
  match crates.parse text with
  | .ok config => .ok config
  | .error e => .fail (.parse e)

/-- What a read of the config gives. -/
def readConfig (answer : Except String Text) : Outcome (BlacklistError P) Text :=
  match answer with
  | .ok text => .ok text
  | .error e => .fail (.io e)

/-- A pattern that is too large panics. -/
def compiled (pattern : Pattern) : Outcome (BlacklistError P) (Text → List Found) :=
  match crates.newRegex pattern with
  | some find => .ok find
  | none => .panic

/-- `replace`: the first match is replaced. -/
def replaceFirst (found : List Found) (raw : Text) (f : Found → Text) : Text :=
  match found with
  | m :: _ => m.before ++ f m ++ m.after
  | [] => raw

def insertedLine (newList : Text) : Text := "\t\"controller_blacklist\"\t\t".toList ++ quoted newList ++ ['\n']

def setBlacklist (raw : Text) (config : VdfValue) (newList : Text) : Outcome (BlacklistError P) Text :=
  match getBlacklist config with
  | some old => do
    let find ← compiled crates (.entry old)
    ensure .regex ((find raw).length = 1)
    return replaceFirst (find raw) raw fun m => m.group ++ quoted newList
  | none => do
    let find ← compiled crates .lastBrace
    ensure .regex ((find raw).length = 1)
    return replaceFirst (find raw) raw fun m => insertedLine newList ++ m.group

def verify (configText newList : Text) : Outcome (BlacklistError P) Unit := do
  let config ← parsed crates configText
  ensure .update (getBlacklist config = some newList)

/-- The entries of a list in lower case. -/
def entriesOf (list : Text) : List Text := ((list.splitOn ',').map crates.toLowercase).filter fun s => !s.isEmpty

namespace Blacklist

/-- `has` of all tracked devices. -/
def hasIds (devices ids : List Text) : Bool := ids.all fun id => devices.contains id

def add (devices ids : List Text) : List Text := (devices ++ ids).eraseDups

/-- The list of a config. -/
def ofConfig (config : VdfValue) : List Text :=
  match getBlacklist config with
  | some list => entriesOf crates list
  | none => []

def read (answer : Except String Text) : Outcome (BlacklistError P) (List Text) := do
  let text ← readConfig answer
  let config ← parsed crates text
  ensure .invalid (isValid config = true)
  return ofConfig crates config

/-- The text that `save` writes. -/
def patch (devices : List Text) (answer : Except String Text) : Outcome (BlacklistError P) Text := do
  let text ← readConfig answer
  let config ← parsed crates text
  ensure .invalid (isValid config = true)
  let newList := [','].intercalate devices
  let patched ← setBlacklist crates text config newList
  verify crates patched newList
  return patched

end Blacklist

structure SteamBlacklistStatus where
  needsFix : Bool
  steamNotFound : Bool
  info : String
deriving DecidableEq

/-- A panic ends the command without a status. -/
def check [ToString P] (answer : Except String Text) : Option SteamBlacklistStatus :=
  match Blacklist.read crates answer with
  | .ok devices =>
    let missing := [JOYCON_IDS, SWITCH_PRO_IDS].countP fun ids => !Blacklist.hasIds devices ids
    if missing = 0 then some ⟨false, false, "Steam controller blacklist OK."⟩
    else
      some ⟨true, false, "Steam Input is currently grabbing Joy-Con / Pro Controllers. Without a fix, hidapi will " ++
        "never see them. Click Fix to add the required entries to Steam's controller_blacklist."⟩
  | .fail (.io _) => some ⟨false, true, "Steam not detected — nothing to do."⟩
  | .fail e => some ⟨false, false, "Steam config check failed: " ++ e.message⟩
  | .panic => none

/-- What the system answers in a run: the two reads of the config, its path at the end, and the write. -/
structure Answers where
  first : Except String Text
  second : Except String Text
  path : Except String Unit
  write : Except String Unit

/-- The text that a fix is about to write. -/
def prepared (first second : Except String Text) : Outcome (BlacklistError P) Text := do
  let devices ← Blacklist.read crates first
  Blacklist.patch crates (Blacklist.add (Blacklist.add devices JOYCON_IDS) SWITCH_PRO_IDS) second

/-- The text that a fix has handed to the file system, and its result. -/
def applyFix (answers : Answers) : Option Text × Outcome (BlacklistError P) Unit :=
  match prepared crates answers.first answers.second with
  | .ok text =>
    match answers.path with
    | .ok () =>
      match answers.write with
      | .ok () => (some text, .ok ())
      | .error e => (some text, .fail (.io e))
    | .error e => (none, .fail (.io e))
  | .fail e => (none, .fail e)
  | .panic => (none, .panic)

end Code

/-! ### What the other crates do -/

/-- A character that matches a lower-case ASCII one when the case is ignored. -/
def FoldsTo (c d : Char) : Prop := c.toLower = d ∨ c = '\u212A' ∧ d = 'k' ∨ c = '\u017F' ∧ d = 's'

instance (c d : Char) : Decidable (FoldsTo c d) := inferInstanceAs (Decidable (_ ∨ _))

/-- The key in quotes, in any case, and whitespace behind it. -/
def IsKey (group : Text) : Prop :=
  ∃ key ws, group = key ++ ws ∧ List.Forall₂ FoldsTo key (quoted "controller_blacklist".toList) ∧
    ∀ c ∈ ws, isWhitespace c = true

/-- A closing brace and whitespace behind it. -/
def IsBrace (group : Text) : Prop := ∃ ws, group = '\x7d' :: ws ∧ ∀ c ∈ ws, isWhitespace c = true

/-- What is relied on: every match is a portion of the text that matches the pattern, a text with a match has one that
is found, and lower case is what it is for. -/
structure Documented {P : Type} (crates : Crates P) : Prop where
  found {pattern : Pattern} {find : Text → List Found} {raw : Text} {m : Found} :
    crates.newRegex pattern = some find → m ∈ find raw → raw = m.before ++ (m.group ++ m.rest) ++ m.after
  entry {old : Text} {find : Text → List Found} {raw : Text} {m : Found} :
    crates.newRegex (.entry old) = some find → m ∈ find raw → IsKey m.group ∧ m.rest = quoted old
  hasEntry {old : Text} {find : Text → List Found} {before group after : Text} :
    crates.newRegex (.entry old) = some find → IsKey group → find (before ++ (group ++ quoted old) ++ after) ≠ []
  lastBrace {find : Text → List Found} {raw : Text} {m : Found} :
    crates.newRegex .lastBrace = some find → m ∈ find raw → IsBrace m.group ∧ m.rest = [] ∧ m.after = []
  lowercase_lowercase (t : Text) : crates.toLowercase (crates.toLowercase t) = crates.toLowercase t
  lowercase_comma {t : Text} : ',' ∈ crates.toLowercase t → ',' ∈ t
  lowercase_ascii {t : Text} : (∀ c ∈ t, c.toNat < 128 ∧ c.isUpper = false) → crates.toLowercase t = t

/-! ### The list -/

section List

variable {P : Type} {crates : Crates P}

def REQUIRED_IDS : List Text := JOYCON_IDS ++ SWITCH_PRO_IDS

/-- The devices after a fix: the old ones and the ids, each once. -/
def fixedDevices (devices : List Text) : List Text := (devices ++ REQUIRED_IDS).eraseDups

theorem add_add (devices : List Text) :
    Blacklist.add (Blacklist.add devices JOYCON_IDS) SWITCH_PRO_IDS = fixedDevices devices := by
  rw [Blacklist.add, Blacklist.add, DistinctList.eraseDups_eraseDups_append, List.append_assoc]
  rfl

theorem mem_fixedDevices {devices : List Text} {d : Text} :
    d ∈ fixedDevices devices ↔ d ∈ devices ∨ d ∈ REQUIRED_IDS := by
  rw [fixedDevices, List.mem_eraseDups, List.mem_append]

/-- A second time nothing is added. -/
theorem fixedDevices_fixedDevices (devices : List Text) : fixedDevices (fixedDevices devices) = fixedDevices devices :=
  DistinctList.eraseDups_append_of_nodup (DistinctList.nodup_eraseDups _) fun _ hd => mem_fixedDevices.2 (.inr hd)

/-- An entry as it is read back. -/
structure IsEntry (crates : Crates P) (d : Text) : Prop where
  lowercase : crates.toLowercase d = d
  nonempty : d ≠ []
  no_comma : ',' ∉ d

theorem isEntry_of_mem_entriesOf (hdoc : Documented crates) {list d : Text} (h : d ∈ entriesOf crates list) :
    IsEntry crates d := by
  obtain ⟨hmem, hnonempty⟩ := List.mem_filter.1 h
  obtain ⟨piece, hpiece, rfl⟩ := List.mem_map.1 hmem
  refine ⟨hdoc.lowercase_lowercase piece, by simpa using hnonempty, fun hcomma => ?_⟩
  exact DistinctList.not_mem_of_mem_splitOn hpiece (hdoc.lowercase_comma hcomma)

theorem isEntry_of_mem_ids (hdoc : Documented crates) {d : Text} (h : d ∈ REQUIRED_IDS) : IsEntry crates d := by
  have hall : REQUIRED_IDS.all (fun d => (d.all fun c => decide (c.toNat < 128 ∧ c.isUpper = false)) &&
      decide (d ≠ [] ∧ ',' ∉ d)) = true := by
    decide
  have hd := List.all_eq_true.1 hall d h
  rw [Bool.and_eq_true, List.all_eq_true, decide_eq_true_eq] at hd
  exact ⟨hdoc.lowercase_ascii fun c hc => of_decide_eq_true (hd.1 c hc), hd.2.1, hd.2.2⟩

/-- A list of entries is read back as it was joined. -/
theorem entriesOf_intercalate {devices : List Text} (hne : devices ≠ []) (h : ∀ d ∈ devices, IsEntry crates d) :
    entriesOf crates ([','].intercalate devices) = devices := by
  have hmap : devices.map crates.toLowercase = devices := by
    conv_rhs => rw [← List.map_id devices]
    exact List.map_congr_left fun d hd => (h d hd).lowercase
  have hfilter : devices.filter (fun s => !s.isEmpty) = devices := by
    refine List.filter_eq_self.2 fun d hd => ?_
    simpa using (h d hd).nonempty
  rw [entriesOf, List.splitOn_intercalate _ (fun d hd => (h d hd).no_comma) hne, hmap, hfilter]

theorem isEntry_of_mem_ofConfig (hdoc : Documented crates) {config : VdfValue} {d : Text}
    (h : d ∈ Blacklist.ofConfig crates config) : IsEntry crates d := by
  unfold Blacklist.ofConfig at h
  split at h
  · exact isEntry_of_mem_entriesOf hdoc h
  · cases h

/-- The list that a fix writes is read back as the fixed devices. -/
theorem entriesOf_fixedDevices (hdoc : Documented crates) (config : VdfValue) :
    entriesOf crates ([','].intercalate (fixedDevices (Blacklist.ofConfig crates config))) =
      fixedDevices (Blacklist.ofConfig crates config) := by
  refine entriesOf_intercalate ?_ fun d hd => ?_
  · exact List.ne_nil_of_mem (mem_fixedDevices.2 (.inr (List.mem_append_right JOYCON_IDS (List.mem_singleton.2 rfl))))
  · rcases mem_fixedDevices.1 hd with hd | hd
    · exact isEntry_of_mem_ofConfig hdoc hd
    · exact isEntry_of_mem_ids hdoc hd

end List

/-! ### A fix -/

section Fix

variable {P : Type} {crates : Crates P} {text written : Text}

/-- The written text differs from the one that was read only in the value behind the key, or it has one more line in
front of the last brace. -/
inductive PatchedText (newList : Text) : Option Text → Text → Text → Prop where
  | value {before group after old : Text} (key : IsKey group) :
    PatchedText newList (some old) (before ++ (group ++ quoted old) ++ after)
      (before ++ (group ++ quoted newList) ++ after)
  | line {before brace : Text} (last : IsBrace brace) :
    PatchedText newList none (before ++ brace) (before ++ (insertedLine newList ++ brace))

theorem parsed_eq_ok {config : VdfValue} : parsed crates text = .ok config ↔ crates.parse text = .ok config := by
  unfold parsed
  cases crates.parse text with
  | ok config' => exact ⟨fun h => congrArg _ (Outcome.ok.inj h), fun h => congrArg _ (Except.ok.inj h)⟩
  | error e => exact ⟨nofun, nofun⟩

theorem read_eq_ok {devices : List Text} :
    Blacklist.read crates (.ok text) = .ok devices ↔
      ∃ config, crates.parse text = .ok config ∧ isValid config = true ∧
        Blacklist.ofConfig crates config = devices := by
  rw [Blacklist.read, readConfig, Outcome.ok_bind, Outcome.bind_eq_ok]
  refine exists_congr fun config => ?_
  rw [parsed_eq_ok, ensure_bind_eq_ok, Outcome.pure_eq, Outcome.ok.injEq]

theorem verify_eq_ok {newList : Text} :
    verify crates text newList = .ok () ↔
      ∃ config, crates.parse text = .ok config ∧ getBlacklist config = some newList := by
  rw [verify, Outcome.bind_eq_ok]
  refine exists_congr fun config => ?_
  rw [parsed_eq_ok, ensure]
  refine and_congr_right fun _ => ?_
  split
  · rename_i h
    exact iff_of_true rfl h
  · rename_i h
    exact iff_of_false nofun h

theorem patch_eq_ok {devices : List Text} :
    Blacklist.patch crates devices (.ok text) = .ok written ↔
      ∃ config, crates.parse text = .ok config ∧ isValid config = true ∧
        setBlacklist crates text config ([','].intercalate devices) = .ok written ∧
        verify crates written ([','].intercalate devices) = .ok () := by
  rw [Blacklist.patch, readConfig, Outcome.ok_bind, Outcome.bind_eq_ok]
  refine exists_congr fun config => ?_
  rw [parsed_eq_ok, ensure_bind_eq_ok]
  refine and_congr_right fun _ => and_congr_right fun _ => ?_
  rw [Outcome.bind_eq_ok]
  constructor
  · rintro ⟨patched, hset, h⟩
    obtain ⟨_, hverify, h⟩ := Outcome.bind_eq_ok.1 h
    cases h
    exact ⟨hset, hverify⟩
  · rintro ⟨hset, hverify⟩
    exact ⟨written, hset, by rw [hverify, Outcome.ok_bind, Outcome.pure_eq]⟩

/-- A text with exactly one match has it replaced. -/
theorem replaceFirst_of_length {found : List Found} (h : found.length = 1) (raw : Text) (f : Found → Text) :
    ∃ m, found = [m] ∧ replaceFirst found raw f = m.before ++ f m ++ m.after := by
  obtain ⟨m, rfl⟩ := List.length_eq_one_iff.1 h
  exact ⟨m, rfl, rfl⟩

theorem setBlacklist_ok (hdoc : Documented crates) {config : VdfValue} {newList : Text}
    (h : setBlacklist crates text config newList = .ok written) :
    PatchedText newList (getBlacklist config) text written := by
  have hcompiled {pattern : Pattern} {find : Text → List Found} (h : compiled crates pattern = .ok find) :
      crates.newRegex pattern = some find := by
    unfold compiled at h
    split at h
    · rename_i find' hfind
      rw [hfind, Outcome.ok.inj h]
    · cases h
  unfold setBlacklist at h
  split at h
  · rename_i old hold
    obtain ⟨find, hfind, h⟩ := Outcome.bind_eq_ok.1 h
    obtain ⟨hone, h⟩ := ensure_bind_eq_ok.1 h
    have hfind := hcompiled hfind
    obtain ⟨m, hm, hreplaced⟩ := replaceFirst_of_length hone text fun m => m.group ++ quoted newList
    have hmem : m ∈ find text := hm ▸ List.mem_singleton.2 rfl
    obtain ⟨hkey, hrest⟩ := hdoc.entry hfind hmem
    have htext := hdoc.found hfind hmem
    rw [hrest] at htext
    cases h
    rw [hreplaced, htext, hold]
    exact .value hkey
  · rename_i hnone
    obtain ⟨find, hfind, h⟩ := Outcome.bind_eq_ok.1 h
    obtain ⟨hone, h⟩ := ensure_bind_eq_ok.1 h
    have hfind := hcompiled hfind
    obtain ⟨m, hm, hreplaced⟩ := replaceFirst_of_length hone text fun m => insertedLine newList ++ m.group
    have hmem : m ∈ find text := hm ▸ List.mem_singleton.2 rfl
    obtain ⟨hbrace, hrest, hafter⟩ := hdoc.lastBrace hfind hmem
    have htext := hdoc.found hfind hmem
    rw [hrest, hafter, List.append_nil, List.append_nil] at htext
    cases h
    rw [hreplaced, hafter, List.append_nil, htext, hnone]
    exact .line hbrace

/-- The devices that a fix of this config writes. -/
def devicesOf (crates : Crates P) (config : VdfValue) : List Text := fixedDevices (Blacklist.ofConfig crates config)

def newListOf (crates : Crates P) (config : VdfValue) : Text := [','].intercalate (devicesOf crates config)

/-- The first half of a fix and the second one have read the same text. -/
theorem prepared_eq_ok (h : prepared crates (.ok text) (.ok text) = .ok written) :
    ∃ config, crates.parse text = .ok config ∧
      setBlacklist crates text config (newListOf crates config) = .ok written ∧
      verify crates written (newListOf crates config) = .ok () := by
  obtain ⟨devices, hread, hpatch⟩ := Outcome.bind_eq_ok.1 h
  obtain ⟨config, hparse, -, rfl⟩ := read_eq_ok.1 hread
  obtain ⟨config', hparse', -, hset, hverify⟩ := patch_eq_ok.1 hpatch
  obtain rfl := Except.ok.inj (hparse.symm.trans hparse')
  rw [add_add] at hset hverify
  exact ⟨config, hparse, hset, hverify⟩

/-- The list has everything that is tracked. -/
theorem check_devices [ToString P] {answer : Except String Text} {devices : List Text}
    (hread : Blacklist.read crates answer = .ok devices) (h : ∀ id ∈ REQUIRED_IDS, id ∈ devices) :
    check crates answer = some ⟨false, false, "Steam controller blacklist OK."⟩ := by
  have hhas (ids : List Text) (hids : ∀ id ∈ ids, id ∈ REQUIRED_IDS) : Blacklist.hasIds devices ids = true := by
    rw [Blacklist.hasIds, List.all_eq_true]
    intro id hid
    exact List.contains_iff_mem.2 (h id (hids id hid))
  have hjoycon := hhas JOYCON_IDS fun id hid => List.mem_append_left _ hid
  have hpro := hhas SWITCH_PRO_IDS fun id hid => List.mem_append_right _ hid
  have hmissing : [JOYCON_IDS, SWITCH_PRO_IDS].countP (fun ids => !Blacklist.hasIds devices ids) = 0 := by
    rw [List.countP_cons, List.countP_cons, List.countP_nil, hjoycon, hpro]
    rfl
  rw [check, hread]
  dsimp only
  rw [if_pos hmissing]

/-- The fixed list is read back, and a second fix adds nothing to it. -/
theorem ofConfig_fixed (hdoc : Documented crates) {config config' : VdfValue}
    (hlist : getBlacklist config' = some (newListOf crates config)) :
    Blacklist.ofConfig crates config' = devicesOf crates config := by
  rw [Blacklist.ofConfig, hlist]
  exact entriesOf_fixedDevices hdoc config

theorem read_invalid {config : VdfValue} (hparse : crates.parse text = .ok config) (hvalid : isValid config = false) :
    Blacklist.read crates (.ok text) = .fail .invalid := by
  have hnot : ¬ isValid config = true := by
    rw [hvalid]
    exact Bool.false_ne_true
  rw [Blacklist.read, readConfig, Outcome.ok_bind, parsed_eq_ok.2 hparse, Outcome.ok_bind, ensure, if_neg hnot,
    Outcome.fail_bind]

/-- A config that has the fixed list is fine, also if nothing else of it is recognised. -/
theorem check_fixed [ToString P] (hdoc : Documented crates) {config config' : VdfValue}
    (hparse : crates.parse written = .ok config') (hlist : getBlacklist config' = some (newListOf crates config)) :
    ∃ status, check crates (.ok written) = some status ∧ status.needsFix = false := by
  cases hvalid : isValid config' with
  | true =>
    have hread := read_eq_ok.2 ⟨config', hparse, hvalid, ofConfig_fixed hdoc hlist⟩
    exact ⟨_, check_devices hread fun id hid => mem_fixedDevices.2 (.inr hid), rfl⟩
  | false =>
    have hcheck : check crates (.ok written) =
        some ⟨false, false, "Steam config check failed: " ++ (BlacklistError.invalid : BlacklistError P).message⟩ := by
      rw [check, read_invalid hparse hvalid]
    exact ⟨_, hcheck, rfl⟩

/-- A value that is replaced by itself. -/
theorem setBlacklist_again (hdoc : Documented crates) {config : VdfValue} {list : Text}
    (hlist : getBlacklist config = some list) :
    setBlacklist crates text config list =
      match crates.newRegex (.entry list) with
      | some find => if (find text).length = 1 then .ok text else .fail .regex
      | none => .panic := by
  have hunfold : setBlacklist crates text config list =
      (compiled crates (.entry list) >>= fun find => ensure .regex ((find text).length = 1) >>= fun _ =>
        pure (replaceFirst (find text) text fun m => m.group ++ quoted list)) := by
    rw [setBlacklist, hlist]
  rw [hunfold]
  cases hregex : crates.newRegex (.entry list) with
  | none =>
    rw [compiled, hregex]
    rfl
  | some find =>
    rw [compiled, hregex]
    dsimp only
    rw [Outcome.ok_bind, ensure]
    split
    · rename_i hone
      obtain ⟨m, hm, hreplaced⟩ := replaceFirst_of_length hone text fun m => m.group ++ quoted list
      have hmem : m ∈ find text := hm ▸ List.mem_singleton.2 rfl
      have htext := hdoc.found hregex hmem
      rw [(hdoc.entry hregex hmem).2] at htext
      rw [Outcome.ok_bind, hreplaced, ← htext, Outcome.pure_eq]
    · rfl

/-- A second fix prepares the same text if the config is still recognised and the key stands in it once with this
value, and fails otherwise. -/
theorem prepared_again (hdoc : Documented crates) {config config' : VdfValue}
    (hparse : crates.parse written = .ok config') (hlist : getBlacklist config' = some (newListOf crates config)) :
    prepared crates (.ok written) (.ok written) =
      if isValid config' = true then
        match crates.newRegex (.entry (newListOf crates config)) with
        | some find => if (find written).length = 1 then .ok written else .fail .regex
        | none => .panic
      else .fail .invalid := by
  unfold prepared
  cases hvalid : isValid config' with
  | false =>
    rw [read_invalid hparse hvalid]
    rfl
  | true =>
    have hread := read_eq_ok.2 ⟨config', hparse, hvalid, ofConfig_fixed hdoc hlist⟩
    have hsame : fixedDevices (devicesOf crates config) = devicesOf crates config := fixedDevices_fixedDevices _
    rw [hread, Outcome.ok_bind, add_add, hsame, Blacklist.patch, readConfig, Outcome.ok_bind, parsed_eq_ok.2 hparse,
      Outcome.ok_bind, ensure, if_pos hvalid, Outcome.ok_bind, if_pos rfl]
    show setBlacklist crates written config' (newListOf crates config) >>= _ = _
    rw [setBlacklist_again hdoc hlist]
    cases crates.newRegex (.entry (newListOf crates config)) with
    | none => rfl
    | some find =>
      dsimp only
      split
      · show (verify crates written (newListOf crates config) >>= fun _ => pure written) = _
        rw [verify_eq_ok.2 ⟨config', hparse, hlist⟩, Outcome.ok_bind, Outcome.pure_eq]
      · rfl

/-- The result of a run and what it has handed to the file system. -/
theorem applyFix_cases (crates : Crates P) (answers : Answers) :
    (∃ text, prepared crates answers.first answers.second = .ok text ∧ (applyFix crates answers).1 = some text ∧
      ((applyFix crates answers).2 = .ok () ∨
        ∃ e, answers.write = .error e ∧ (applyFix crates answers).2 = .fail (.io e))) ∨
      (applyFix crates answers).1 = none ∧ (applyFix crates answers).2 ≠ .ok () := by
  unfold applyFix
  cases prepared crates answers.first answers.second with
  | panic => exact .inr ⟨rfl, nofun⟩
  | fail e => exact .inr ⟨rfl, nofun⟩
  | ok text =>
    dsimp only
    cases answers.path with
    | error e => exact .inr ⟨rfl, nofun⟩
    | ok _ =>
      dsimp only
      cases answers.write with
      | error e => exact .inl ⟨text, rfl, rfl, .inr ⟨e, rfl, rfl⟩⟩
      | ok _ => exact .inl ⟨text, rfl, rfl, .inl rfl⟩

theorem applyFix_again (hdoc : Documented crates) {config config' : VdfValue}
    (hparse : crates.parse written = .ok config') (hlist : getBlacklist config' = some (newListOf crates config))
    {answers : Answers} (hfirst : answers.first = .ok written) (hsecond : answers.second = .ok written) :
    (applyFix crates answers).1 = none ∨ (applyFix crates answers).1 = some written := by
  rcases applyFix_cases crates answers with ⟨text, hprepared, htext, -⟩ | ⟨hnone, -⟩
  · rw [hfirst, hsecond, prepared_again hdoc hparse hlist] at hprepared
    split at hprepared
    · split at hprepared
      · split at hprepared
        · exact .inr (Outcome.ok.inj hprepared ▸ htext)
        · cases hprepared
      · cases hprepared
    · cases hprepared
  · exact .inl hnone

/-- What a fix that succeeds has done. -/
structure Fixed [ToString P] (crates : Crates P) (config : VdfValue) (text written : Text) : Prop where
  patched : PatchedText (newListOf crates config) (getBlacklist config) text written
  entries : entriesOf crates (newListOf crates config) = devicesOf crates config
  /-- Every old entry, in order. -/
  old : (Blacklist.ofConfig crates config).eraseDups <+: devicesOf crates config
  ids : ∀ id ∈ REQUIRED_IDS, id ∈ devicesOf crates config
  nodup : (devicesOf crates config).Nodup
  checked : ∃ status, check crates (.ok written) = some status ∧ status.needsFix = false
  /-- The written text has the new list.  A second fix of it prepares the same text, if the text is still recognised and
  the key stands in it only once with the new list. -/
  again : ∃ config', crates.parse written = .ok config' ∧ getBlacklist config' = some (newListOf crates config) ∧
    prepared crates (.ok written) (.ok written) =
      if isValid config' = true then
        match crates.newRegex (.entry (newListOf crates config)) with
        | some find => if (find written).length = 1 then .ok written else .fail .regex
        | none => .panic
      else .fail .invalid
  /-- No second fix of the written text writes another one. -/
  rewritten : ∀ answers : Answers, answers.first = .ok written → answers.second = .ok written →
    (applyFix crates answers).1 = none ∨ (applyFix crates answers).1 = some written
  /-- The key with the new list is found in the written text. -/
  found : ∀ find, crates.newRegex (.entry (newListOf crates config)) = some find → find written ≠ []

/-- The inserted line has the key, as it is looked for. -/
theorem insertedLine_eq (newList : Text) :
    ∃ group, insertedLine newList = ['\t'] ++ (group ++ quoted newList) ++ ['\n'] ∧ IsKey group := by
  have hlower : (quoted "controller_blacklist".toList).all (fun c => c.toLower == c) = true := by decide +kernel
  refine ⟨quoted "controller_blacklist".toList ++ List.replicate 2 '\t', rfl, _, _, rfl, ?_, fun c hc => ?_⟩
  · exact List.forall₂_same.2 fun c hc => .inl (beq_iff_eq.1 (List.all_eq_true.1 hlower c hc))
  · rw [List.eq_of_mem_replicate hc]
    rfl

theorem found_of_patched (hdoc : Documented crates) {newList : Text} {old : Option Text}
    (h : PatchedText newList old text written) {find : Text → List Found}
    (hfind : crates.newRegex (.entry newList) = some find) : find written ≠ [] := by
  cases h with
  | value key => exact hdoc.hasEntry hfind key
  | @line before brace last =>
    obtain ⟨group, hline, hkey⟩ := insertedLine_eq newList
    have hwritten : before ++ (insertedLine newList ++ brace) =
        (before ++ ['\t']) ++ (group ++ quoted newList) ++ (['\n'] ++ brace) := by
      rw [hline]
      simp only [List.append_assoc]
    rw [hwritten]
    exact hdoc.hasEntry hfind hkey

theorem fixed_of_prepared [ToString P] (hdoc : Documented crates)
    (h : prepared crates (.ok text) (.ok text) = .ok written) :
    ∃ config, crates.parse text = .ok config ∧ Fixed crates config text written := by
  obtain ⟨config, hparse, hset, hverify⟩ := prepared_eq_ok h
  obtain ⟨config', hparse', hlist⟩ := verify_eq_ok.1 hverify
  have hpatched := setBlacklist_ok hdoc hset
  exact ⟨config, hparse,
    { patched := hpatched
      entries := entriesOf_fixedDevices hdoc config
      old := DistinctList.prefix_eraseDups_append _ _
      ids := fun id hid => mem_fixedDevices.2 (.inr hid)
      nodup := DistinctList.nodup_eraseDups _
      checked := check_fixed hdoc hparse' hlist
      again := ⟨config', hparse', hlist, prepared_again hdoc hparse' hlist⟩
      rewritten := fun answers => applyFix_again hdoc hparse' hlist
      found := fun find hfind => found_of_patched hdoc hpatched hfind }⟩

/-- A fix that succeeds has patched the text it read; one that fails has written nothing, unless the write failed. -/
theorem applyFix_spec [ToString P] (hdoc : Documented crates) (answers : Answers) :
    (∀ text, answers.first = .ok text → answers.second = .ok text → (applyFix crates answers).2 = .ok () →
      ∃ config written, crates.parse text = .ok config ∧ (applyFix crates answers).1 = some written ∧
        Fixed crates config text written) ∧
    (∀ e, (applyFix crates answers).2 = .fail e →
      (applyFix crates answers).1 = none ∨ ∃ io, answers.write = .error io ∧ e = .io io) := by
  constructor
  · intro text hfirst hsecond hok
    rcases applyFix_cases crates answers with ⟨written, hprepared, hwritten, -⟩ | ⟨-, hne⟩
    · rw [hfirst, hsecond] at hprepared
      obtain ⟨config, hparse, hfixed⟩ := fixed_of_prepared hdoc hprepared
      exact ⟨config, written, hparse, hwritten, hfixed⟩
    · exact absurd hok hne
  · intro e hfail
    rcases applyFix_cases crates answers with ⟨-, -, -, hok | ⟨io, hwrite, hio⟩⟩ | ⟨hnone, -⟩
    · rw [hok] at hfail
      cases hfail
    · rw [hio] at hfail
      exact .inr ⟨io, hwrite, (Outcome.fail.inj hfail).symm⟩
    · exact .inl hnone

end Fix

/-! ### A matcher, and a config that has the key twice -/

section Scanner

/-- The match at the start of `rest`. -/
def matchEntry (old before rest : Text) : Option Found :=
  let key := rest.take 22
  let ws := (rest.drop 22).takeWhile isWhitespace
  let value := (rest.drop 22).dropWhile isWhitespace
  if List.Forall₂ FoldsTo key (quoted "controller_blacklist".toList) ∧ quoted old <+: value then
    some ⟨before, key ++ ws, quoted old, value.drop (quoted old).length⟩
  else none

/-- Tries every place of the text. -/
def findEntries (old raw : Text) : List Found :=
  (List.range (raw.length + 1)).filterMap fun i => matchEntry old (raw.take i) (raw.drop i)

def findLastBrace (raw : Text) : List Found :=
  let body := raw.rdropWhile isWhitespace
  if body.getLast? = some '\x7d' then [⟨body.dropLast, '\x7d' :: raw.rtakeWhile isWhitespace, [], []⟩] else []

def scanner {P : Type} (parse : Text → Except P VdfValue) : Crates P where
  parse := parse
  newRegex
    | .entry old => some (findEntries old)
    | .lastBrace => some findLastBrace
  toLowercase := List.map Char.toLower

theorem matchEntry_eq_some {old before rest : Text} {m : Found} (h : matchEntry old before rest = some m) :
    before ++ rest = m.before ++ (m.group ++ m.rest) ++ m.after ∧ IsKey m.group ∧ m.rest = quoted old := by
  unfold matchEntry at h
  dsimp only at h
  split at h
  · rename_i hmatch
    obtain ⟨hkey, value, hvalue⟩ := hmatch
    cases h
    refine ⟨?_, ⟨_, _, rfl, hkey, fun c hc => List.mem_takeWhile_imp hc⟩, rfl⟩
    dsimp only
    rw [← hvalue, List.drop_left, List.append_assoc, List.append_assoc, List.append_assoc, hvalue,
      List.takeWhile_append_dropWhile, List.take_append_drop]
  · cases h

theorem matchEntry_key {old before group after : Text} (h : IsKey group) :
    matchEntry old before (group ++ quoted old ++ after) ≠ none := by
  obtain ⟨key, ws, rfl, hkey, hws⟩ := h
  have hlength : key.length = 22 := hkey.length_eq
  have hrest : key ++ ws ++ quoted old ++ after = key ++ (ws ++ (quoted old ++ after)) := by
    simp only [List.append_assoc]
  have hquote : (quoted old ++ after).dropWhile isWhitespace = quoted old ++ after := rfl
  have hvalue : (ws ++ (quoted old ++ after)).dropWhile isWhitespace = quoted old ++ after := by
    rw [List.dropWhile_append_of_pos hws, hquote]
  unfold matchEntry
  dsimp only
  rw [hrest, List.take_left' hlength, List.drop_left' hlength, hvalue,
    if_pos ⟨hkey, List.prefix_append _ _⟩]
  exact nofun

theorem mem_findLastBrace {raw : Text} {m : Found} (h : m ∈ findLastBrace raw) :
    raw = m.before ++ (m.group ++ m.rest) ++ m.after ∧ IsBrace m.group ∧ m.rest = [] ∧ m.after = [] := by
  unfold findLastBrace at h
  dsimp only at h
  split at h
  · rename_i hlast
    obtain ⟨body, hbody⟩ := List.getLast?_eq_some_iff.1 hlast
    obtain rfl := List.mem_singleton.1 h
    refine ⟨?_, ⟨_, rfl, fun c hc => List.mem_rtakeWhile_imp hc⟩, rfl, rfl⟩
    have hraw : raw.rdropWhile isWhitespace ++ raw.rtakeWhile isWhitespace = raw := List.rdropWhile_append_rtakeWhile
    rw [hbody, List.append_assoc] at hraw
    dsimp only
    rw [hbody, List.dropLast_concat, List.append_nil, List.append_nil]
    exact hraw.symm
  · cases h

theorem isUpper_iff (c : Char) : c.isUpper = true ↔ 65 ≤ c.toNat ∧ c.toNat ≤ 90 := by
  unfold Char.isUpper
  exact decide_eq_true_iff

theorem toLower_of_not_isUpper {c : Char} (h : c.isUpper = false) : c.toLower = c := by
  refine dif_neg fun hrange => ?_
  rw [(isUpper_iff c).2 hrange] at h
  cases h

theorem toNat_toLower {c : Char} (h : c.isUpper = true) : c.toLower.toNat = c.toNat + 32 := by
  have hrange : c.val ≥ 'A'.val ∧ c.val ≤ 'Z'.val := (isUpper_iff c).1 h
  have hlower : c.toLower.toNat = (c.val + 32).toNat := by
    unfold Char.toLower
    rw [dif_pos hrange]
    rfl
  have hsmall : c.toNat ≤ 90 := hrange.2
  rw [hlower, UInt32.toNat_add]
  change (c.toNat + 32) % 2 ^ 32 = _
  omega

theorem isUpper_toLower (c : Char) : c.toLower.isUpper = false := by
  cases h : c.isUpper with
  | false => rw [toLower_of_not_isUpper h, h]
  | true =>
    have hrange := (isUpper_iff c).1 h
    rw [Bool.eq_false_iff, Ne, isUpper_iff, toNat_toLower h]
    omega

/-- Whatever the parser is, there are such crates. -/
theorem documented_scanner {P : Type} (parse : Text → Except P VdfValue) : Documented (scanner parse) where
  found {pattern find raw m} hfind hm := by
    cases pattern with
    | entry old =>
      cases hfind
      obtain ⟨i, -, hmatch⟩ := List.mem_filterMap.1 hm
      rw [← (matchEntry_eq_some hmatch).1, List.take_append_drop]
    | lastBrace =>
      cases hfind
      exact (mem_findLastBrace hm).1
  entry {old find raw m} hfind hm := by
    cases hfind
    obtain ⟨i, -, hmatch⟩ := List.mem_filterMap.1 hm
    exact (matchEntry_eq_some hmatch).2
  hasEntry {old find before group after} hfind hkey hnone := by
    cases hfind
    have hi : before.length ∈ List.range ((before ++ (group ++ quoted old) ++ after).length + 1) := by
      rw [List.mem_range, List.append_assoc, List.length_append]
      omega
    have hmatch := List.filterMap_eq_nil_iff.1 hnone _ hi
    rw [List.append_assoc, List.take_left, List.drop_left] at hmatch
    exact matchEntry_key hkey hmatch
  lastBrace {find raw m} hfind hm := by
    cases hfind
    exact (mem_findLastBrace hm).2
  lowercase_lowercase t := by
    refine List.map_map.trans (List.map_congr_left fun c _ => ?_)
    exact toLower_of_not_isUpper (isUpper_toLower c)
  lowercase_comma {t} h := by
    obtain ⟨c, hc, hcomma⟩ := List.mem_map.1 h
    cases hupper : c.isUpper with
    | false => rwa [← hcomma, toLower_of_not_isUpper hupper]
    | true =>
      have hnat := toNat_toLower hupper
      rw [hcomma] at hnat
      change 44 = _ at hnat
      have := (isUpper_iff c).1 hupper
      omega
  lowercase_ascii {t} h := by
    conv_rhs => rw [← List.map_id t]
    exact List.map_congr_left fun c hc => toLower_of_not_isUpper (h c hc).2

end Scanner

section Sample

def sampleList : Text := "0x057e/0x2006,0x057e/0x2007,0x057e/0x2008,0x057e/0x2009".toList

def sampleText (comment list : Text) : Text :=
  "\"InstallConfigStore\"\n\x7b\n".toList ++ comment ++ "\t\"Software\"\n\t\x7b\n\t\x7d\n".toList ++
    "\t\"controller_blacklist\"\t\t".toList ++ quoted list ++ "\n\x7d\n".toList

/-- The key in a comment, with the list that a fix writes. -/
def repeatedKey : Text := "\t// \"Controller_Blacklist\" ".toList ++ quoted sampleList ++ ['\n']

def sampleParse (text : Text) : Except Unit VdfValue :=
  let samples := [([], []), ([], sampleList), (repeatedKey, []), (repeatedKey, sampleList)]
  match samples.find? fun sample => sampleText sample.1 sample.2 = text with
  | some sample =>
    .ok (.obj [("Software".toList, [.obj []]), ("controller_blacklist".toList, [.str sample.2])])
  | none => .error ()

/-- Both reads give this text, and the write succeeds. -/
def Answers.ofText (text : Text) : Answers := ⟨.ok text, .ok text, .ok (), .ok ()⟩

theorem applyFix_spec_sample :
    ∃ config written, sampleParse (sampleText [] []) = .ok config ∧
      (applyFix (scanner sampleParse) (.ofText (sampleText [] []))).1 = some written ∧
      Fixed (scanner sampleParse) config (sampleText [] []) written :=
  (applyFix_spec (documented_scanner sampleParse) (.ofText (sampleText [] []))).1 _ rfl rfl (by decide +kernel)

/-- A second fix can fail: the key stands in a comment, with the list that the first fix has written. -/
theorem applyFix_repeatedKey :
    ¬ ∀ (crates : Crates Unit), Documented crates → ∀ text written : Text,
      applyFix crates (.ofText text) = (some written, .ok ()) →
        applyFix crates (.ofText written) = (some written, .ok ()) := by
  intro h
  have hfirst : applyFix (scanner sampleParse) (.ofText (sampleText repeatedKey [])) =
      (some (sampleText repeatedKey sampleList), .ok ()) := by
    decide +kernel
  have hsecond : applyFix (scanner sampleParse) (.ofText (sampleText repeatedKey sampleList)) =
      (none, .fail .regex) := by
    decide +kernel
  have hagain := h _ (documented_scanner sampleParse) _ _ hfirst
  rw [hsecond] at hagain
  cases hagain

end Sample

end EverythingImu.App.Steam
