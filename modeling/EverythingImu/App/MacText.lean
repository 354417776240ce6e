import EverythingImu.App.HapticConfig
import Mathlib.Data.List.GetD
import Mathlib.Data.Nat.Find

/-!
# The MACs of haptic rules as text

`parse_mac` and `mac_to_hex` (`haptics.rs`).  What `mac_to_hex` writes is read back (`parseMac_macToHex`).  A text that
is no MAC is mostly rejected, but a slice may go through a character, and a plus sign may stand in front of a digit:
exactly then the parser does not do what it is for (`readsMac_iff`).
-/

namespace EverythingImu.App

open Buffer

/-- `{b:02x}` of each byte. -/
def macToHex (mac : Mac) : String :=
  String.ofList (mac.toList.flatMap fun b => [Nat.digitChar (b.toNat / 16), Nat.digitChar (b.toNat % 16)])

def HEX_DIGITS : String := "0123456789abcdefABCDEF"

/-- Twelve hexadecimal digits. -/
def IsHexText (s : String) : Prop := s.toList.length = 12 ∧ ∀ c ∈ s.toList, c ∈ HEX_DIGITS.toList

/-- What the parser is for. -/
structure ReadsMac (s : String) : Prop where
  no_panic : parseMac s ≠ .panic
  accepts : (∃ mac, parseMac s = .ok mac) ↔ IsHexText s
  inverse : ∀ mac, parseMac s = .ok mac → (macToHex mac).toList = s.toList.map Char.toLower

/-- The slice of the octet begins or ends inside a character. -/
def CutPair (bytes : List UInt8) (i : Nat) : Prop :=
  ¬ (isCharBoundary bytes (i * 2) = true ∧ isCharBoundary bytes (i * 2 + 2) = true)

/-- The two bytes of the octet are a number in base 16. -/
def ReadsPair (bytes : List UInt8) (i : Nat) : Prop :=
  (u8FromHex (bytes.getD (i * 2) 0) (bytes.getD (i * 2 + 1) 0)).isSome = true

/-- Twelve bytes of which a slice goes through a character, behind pairs that are numbers; or six numbers, one of them
with a plus sign. -/
def Misread (s : String) : Prop :=
  (utf8 s).length = 12 ∧
    ((∃ i < 6, CutPair (utf8 s) i ∧ ∀ j < i, ReadsPair (utf8 s) j) ∨
      (∀ i < 6, ReadsPair (utf8 s) i) ∧ ∃ i < 6, (utf8 s).getD (i * 2) 0 = 0x2B)

/-! ### Digits -/

theorem hexDigit_digitChar : ∀ n < 16, hexDigit (Nat.digitChar n).val.toUInt8 = some (UInt8.ofNat n) := by decide

/-- A digit is one byte, no plus sign, not inside a character, and its value is that of the lower-case digit. -/
theorem hexDigit_spec {b d : UInt8} (h : hexDigit b = some d) :
    b < 128 ∧ b ≠ 0x2B ∧ b &&& 0xC0 ≠ 0x80 ∧ d.toNat < 16 ∧ Char.ofNat b.toNat ∈ HEX_DIGITS.toList ∧
      Nat.digitChar d.toNat = (Char.ofNat b.toNat).toLower := by
  have hall : ∀ n < 256, (hexDigit (UInt8.ofNat n)).all (fun d => UInt8.ofNat n < 128 ∧ UInt8.ofNat n ≠ 0x2B ∧
      UInt8.ofNat n &&& 0xC0 ≠ 0x80 ∧ d.toNat < 16 ∧ Char.ofNat (UInt8.ofNat n).toNat ∈ HEX_DIGITS.toList ∧
      Nat.digitChar d.toNat = (Char.ofNat (UInt8.ofNat n).toNat).toLower) = true := by
    decide +kernel
  have hb := hall b.toNat b.toNat_lt
  rw [UInt8.ofNat_toNat, h, Option.all_some, decide_eq_true_eq] at hb
  exact hb

theorem hexDigit_of_mem : ∀ c ∈ HEX_DIGITS.toList, c.val < 128 ∧ (hexDigit c.val.toUInt8).isSome = true := by
  have hall : HEX_DIGITS.toList.all (fun c => c.val < 128 ∧ (hexDigit c.val.toUInt8).isSome = true) = true := by decide
  intro c hc
  exact of_decide_eq_true (List.all_eq_true.1 hall c hc)

/-- The digits of a byte are read back. -/
theorem u8FromHex_digitChars (b : UInt8) :
    u8FromHex (Nat.digitChar (b.toNat / 16)).val.toUInt8 (Nat.digitChar (b.toNat % 16)).val.toUInt8 = some b := by
  have hhi := hexDigit_digitChar (b.toNat / 16) (by have := b.toNat_lt; omega)
  have hlo := hexDigit_digitChar (b.toNat % 16) (Nat.mod_lt _ (by decide))
  unfold u8FromHex
  rw [if_neg (hexDigit_spec hhi).2.1, hhi, hlo]
  simp only [Option.pure_def, Option.bind_eq_bind, Option.bind_some, Option.some.injEq]
  apply UInt8.toNat_inj.1
  have := b.toNat_lt
  simp
  omega

/-- Two digits, or a plus sign and a digit. -/
theorem u8FromHex_isSome_iff {hi lo : UInt8} :
    (u8FromHex hi lo).isSome = true ↔ (hi = 0x2B ∨ (hexDigit hi).isSome = true) ∧ (hexDigit lo).isSome = true := by
  unfold u8FromHex
  split
  · simp_all
  · cases hexDigit hi <;> cases hexDigit lo <;> simp_all

/-- The value of two digits is written as the lower-case digits. -/
theorem digitChars_of_u8FromHex {hi lo b : UInt8} (h : u8FromHex hi lo = some b) (hplus : hi ≠ 0x2B) :
    Nat.digitChar (b.toNat / 16) = (Char.ofNat hi.toNat).toLower ∧
      Nat.digitChar (b.toNat % 16) = (Char.ofNat lo.toNat).toLower := by
  unfold u8FromHex at h
  rw [if_neg hplus] at h
  obtain ⟨h₁, hhi, h⟩ := Option.bind_eq_some_iff.1 h
  obtain ⟨h₂, hlo, h⟩ := Option.bind_eq_some_iff.1 h
  obtain rfl : h₁ * 16 + h₂ = b := Option.some.inj h
  obtain ⟨-, -, -, hlt₁, -, hchar₁⟩ := hexDigit_spec hhi
  obtain ⟨-, -, -, hlt₂, -, hchar₂⟩ := hexDigit_spec hlo
  have hval : (h₁ * 16 + h₂).toNat = h₁.toNat * 16 + h₂.toNat := by
    simp
    omega
  have hdiv : (h₁ * 16 + h₂).toNat / 16 = h₁.toNat := by omega
  have hmod : (h₁ * 16 + h₂).toNat % 16 = h₂.toNat := by omega
  rw [hdiv, hmod]
  exact ⟨hchar₁, hchar₂⟩

/-! ### The parser -/

theorem parseMac_eq (s : String) :
    parseMac s = if (utf8 s).length ≠ 12 then .fail () else sixOctets (macOctet (utf8 s)) := rfl

theorem macOctet_eq_panic_iff {bytes : List UInt8} {i : Nat} : macOctet bytes i = .panic ↔ CutPair bytes i := by
  unfold macOctet CutPair
  rw [← Bool.and_eq_true]
  split
  · rename_i h
    rw [h]
    split <;> simp
  · rename_i h
    simp [h]

theorem macOctet_eq_ok_iff {bytes : List UInt8} {i : Nat} {b : UInt8} : macOctet bytes i = .ok b ↔
    ¬ CutPair bytes i ∧ u8FromHex (bytes.getD (i * 2) 0) (bytes.getD (i * 2 + 1) 0) = some b := by
  unfold macOctet CutPair
  rw [← Bool.and_eq_true, not_not]
  split
  · rename_i h
    rw [h]
    split <;> simp_all
  · rename_i h
    simp [h]

theorem sixOctets_eq_ok_iff {octet : Nat → Outcome Unit UInt8} {mac : Mac} :
    sixOctets octet = .ok mac ↔ ∀ i (hi : i < 6), octet i = .ok mac[i] := by
  unfold sixOctets
  simp only [Outcome.bind_eq_ok, Outcome.pure_eq, Outcome.ok.injEq]
  constructor
  · rintro ⟨b₀, h₀, b₁, h₁, b₂, h₂, b₃, h₃, b₄, h₄, b₅, h₅, rfl⟩ i hi
    match i, hi with
    | 0, _ => exact h₀
    | 1, _ => exact h₁
    | 2, _ => exact h₂
    | 3, _ => exact h₃
    | 4, _ => exact h₄
    | 5, _ => exact h₅
  · intro h
    refine ⟨_, h 0 (by decide), _, h 1 (by decide), _, h 2 (by decide), _, h 3 (by decide), _, h 4 (by decide), _,
      h 5 (by decide), ?_⟩
    ext i hi
    match i, hi with
    | 0, _ => rfl
    | 1, _ => rfl
    | 2, _ => rfl
    | 3, _ => rfl
    | 4, _ => rfl
    | 5, _ => rfl

/-- Computations in order, from the `i`-th on. -/
private def inOrder (octet : Nat → Outcome Unit UInt8) (i : Nat) : Nat → Outcome Unit Unit
  | 0 => .ok ()
  | n + 1 => do
    let _ ← octet i
    inOrder octet (i + 1) n

private theorem inOrder_eq_panic_iff {octet : Nat → Outcome Unit UInt8} {i n : Nat} :
    inOrder octet i n = .panic ↔ ∃ k < n, octet (i + k) = .panic ∧ ∀ j < k, ∃ b, octet (i + j) = .ok b := by
  induction n generalizing i with
  | zero => simp [inOrder]
  | succ n ih =>
    rw [inOrder, Outcome.bind_eq_panic, ih]
    constructor
    · rintro (h | ⟨b, hb, k, hk, hpanic, hbefore⟩)
      · exact ⟨0, by omega, h, nofun⟩
      · refine ⟨k + 1, by omega, by rw [← hpanic]; congr 1; omega, fun j hj => ?_⟩
        cases j with
        | zero => exact ⟨b, hb⟩
        | succ j =>
          obtain ⟨c, hc⟩ := hbefore j (by omega)
          exact ⟨c, by rw [← hc]; congr 1; omega⟩
    · rintro ⟨k, hk, hpanic, hbefore⟩
      cases k with
      | zero => exact .inl hpanic
      | succ k =>
        obtain ⟨b, hb⟩ := hbefore 0 (by omega)
        refine .inr ⟨b, hb, k, by omega, by rw [← hpanic]; congr 1; omega, fun j hj => ?_⟩
        obtain ⟨c, hc⟩ := hbefore (j + 1) (by omega)
        exact ⟨c, by rw [← hc]; congr 1; omega⟩

theorem sixOctets_eq_panic_iff {octet : Nat → Outcome Unit UInt8} :
    sixOctets octet = .panic ↔ ∃ i < 6, octet i = .panic ∧ ∀ j < i, ∃ b, octet j = .ok b := by
  have hsame : sixOctets octet = .panic ↔ inOrder octet 0 6 = .panic := by
    simp only [sixOctets, inOrder, Outcome.bind_eq_panic, Outcome.pure_eq, reduceCtorEq, and_false, exists_false,
      or_false, Nat.zero_add, Nat.reduceAdd]
  rw [hsame, inOrder_eq_panic_iff]
  simp only [Nat.zero_add]

/-- The two bytes of a pair that is a number. -/
theorem readsPair_iff {bytes : List UInt8} {i : Nat} : ReadsPair bytes i ↔
    (bytes.getD (i * 2) 0 = 0x2B ∨ (hexDigit (bytes.getD (i * 2) 0)).isSome = true) ∧
      (hexDigit (bytes.getD (i * 2 + 1) 0)).isSome = true :=
  u8FromHex_isSome_iff

/-- A pair that is a number begins at a character. -/
theorem isCharBoundary_of_readsPair {bytes : List UInt8} {i : Nat} (h : ReadsPair bytes i) :
    isCharBoundary bytes (i * 2) = true := by
  unfold isCharBoundary
  cases hb : bytes[i * 2]? with
  | none => rfl
  | some b =>
    have hhi := (readsPair_iff.1 h).1
    rw [List.getD_eq_getElem?_getD, hb, Option.getD_some] at hhi
    have hcont : b &&& 0xC0 ≠ 0x80 := by
      rcases hhi with rfl | hdigit
      · decide
      · obtain ⟨d, hd⟩ := Option.isSome_iff_exists.1 hdigit
        exact (hexDigit_spec hd).2.2.1
    simpa using hcont

/-- Six pairs that are numbers are not cut. -/
theorem not_cutPair_of_readsPairs {bytes : List UInt8} (hlen : bytes.length = 12)
    (h : ∀ i < 6, ReadsPair bytes i) : ∀ i < 6, ¬ CutPair bytes i := by
  intro i hi
  refine not_not.2 ⟨isCharBoundary_of_readsPair (h i hi), ?_⟩
  rcases Nat.lt_or_ge i 5 with hlt | hlast
  · have hnext := isCharBoundary_of_readsPair (h (i + 1) (by omega))
    rwa [Nat.succ_mul] at hnext
  · obtain rfl : i = 5 := by omega
    simp [isCharBoundary, hlen]

theorem parseMac_eq_panic_iff (s : String) : parseMac s = .panic ↔
    (utf8 s).length = 12 ∧ ∃ i < 6, CutPair (utf8 s) i ∧ ∀ j < i, ReadsPair (utf8 s) j := by
  rw [parseMac_eq]
  split
  · rename_i hlen
    simp [hlen]
  · rename_i hlen
    rw [not_not] at hlen
    rw [sixOctets_eq_panic_iff]
    simp only [macOctet_eq_panic_iff, macOctet_eq_ok_iff, hlen, true_and]
    constructor
    · rintro ⟨i, hi, hcut, hbefore⟩
      refine ⟨i, hi, hcut, fun j hj => ?_⟩
      obtain ⟨b, -, hb⟩ := hbefore j hj
      exact Option.isSome_iff_exists.2 ⟨b, hb⟩
    · rintro ⟨i, hi, hcut, hbefore⟩
      -- the first slice that is cut
      classical
      have hex : ∃ k, CutPair (utf8 s) k := ⟨i, hcut⟩
      have hle : Nat.find hex ≤ i := Nat.find_min' hex hcut
      refine ⟨Nat.find hex, by omega, Nat.find_spec hex, fun j hj => ?_⟩
      obtain ⟨b, hb⟩ := Option.isSome_iff_exists.1 (hbefore j (by omega))
      exact ⟨b, Nat.find_min hex hj, hb⟩

theorem parseMac_eq_ok_iff {s : String} {mac : Mac} : parseMac s = .ok mac ↔
    (utf8 s).length = 12 ∧ ∀ i (hi : i < 6),
      u8FromHex ((utf8 s).getD (i * 2) 0) ((utf8 s).getD (i * 2 + 1) 0) = some mac[i] := by
  rw [parseMac_eq]
  split
  · rename_i hlen
    simp [hlen]
  · rename_i hlen
    rw [not_not] at hlen
    rw [sixOctets_eq_ok_iff]
    simp only [macOctet_eq_ok_iff, hlen, true_and]
    constructor
    · exact fun h i hi => (h i hi).2
    · intro h i hi
      have hpairs : ∀ i < 6, ReadsPair (utf8 s) i := fun i hi => Option.isSome_iff_exists.2 ⟨_, h i hi⟩
      exact ⟨not_cutPair_of_readsPairs hlen hpairs i hi, h i hi⟩

theorem exists_parseMac_eq_ok_iff (s : String) : (∃ mac, parseMac s = .ok mac) ↔
    (utf8 s).length = 12 ∧ ∀ i < 6, ReadsPair (utf8 s) i := by
  constructor
  · rintro ⟨mac, hmac⟩
    obtain ⟨hlen, hpairs⟩ := parseMac_eq_ok_iff.1 hmac
    exact ⟨hlen, fun i hi => Option.isSome_iff_exists.2 ⟨_, hpairs i hi⟩⟩
  · rintro ⟨hlen, hpairs⟩
    refine ⟨.ofFn fun i : Fin 6 => (u8FromHex ((utf8 s).getD (i * 2) 0) ((utf8 s).getD (i * 2 + 1) 0)).getD 0, ?_⟩
    refine parseMac_eq_ok_iff.2 ⟨hlen, fun i hi => ?_⟩
    obtain ⟨b, hb⟩ := Option.isSome_iff_exists.1 (hpairs i hi)
    rw [Vector.getElem_ofFn]
    simp only [hb, Option.getD_some]

/-! ### Texts -/

/-- Bytes in pairs. -/
private theorem eq_pairs {bytes : List UInt8} (hlen : bytes.length = 12) :
    bytes = (List.range 6).flatMap fun i => [bytes.getD (i * 2) 0, bytes.getD (i * 2 + 1) 0] := by
  match bytes, hlen with
  | [_, _, _, _, _, _, _, _, _, _, _, _], _ => rfl

theorem isHexText_iff (s : String) :
    IsHexText s ↔ (utf8 s).length = 12 ∧ ∀ b ∈ utf8 s, (hexDigit b).isSome = true := by
  constructor
  · rintro ⟨hlen, hdigits⟩
    have hbytes := utf8_of_ascii fun c hc => (hexDigit_of_mem c (hdigits c hc)).1
    rw [hbytes]
    refine ⟨by rw [List.length_map, hlen], fun b hb => ?_⟩
    obtain ⟨c, hc, rfl⟩ := List.mem_map.1 hb
    exact (hexDigit_of_mem c (hdigits c hc)).2
  · rintro ⟨hlen, hdigits⟩
    have hspec : ∀ b ∈ utf8 s, b < 128 ∧ Char.ofNat b.toNat ∈ HEX_DIGITS.toList := by
      intro b hb
      obtain ⟨d, hd⟩ := Option.isSome_iff_exists.1 (hdigits b hb)
      exact ⟨(hexDigit_spec hd).1, (hexDigit_spec hd).2.2.2.2.1⟩
    unfold IsHexText
    rw [toList_of_ascii fun b hb => (hspec b hb).1, List.length_map]
    refine ⟨hlen, fun c hc => ?_⟩
    obtain ⟨b, hb, rfl⟩ := List.mem_map.1 hc
    exact (hspec b hb).2

/-- Twelve digits are six numbers without a plus sign. -/
theorem isHexText_iff_pairs (s : String) : IsHexText s ↔
    ((utf8 s).length = 12 ∧ ∀ i < 6, ReadsPair (utf8 s) i) ∧ ∀ i < 6, (utf8 s).getD (i * 2) 0 ≠ 0x2B := by
  rw [isHexText_iff]
  constructor
  · rintro ⟨hlen, hdigits⟩
    have hget : ∀ k < 12, (hexDigit ((utf8 s).getD k 0)).isSome = true := by
      intro k hk
      rw [List.getD_eq_getElem _ _ (by omega)]
      exact hdigits _ (List.getElem_mem _)
    refine ⟨⟨hlen, fun i hi => readsPair_iff.2 ⟨.inr (hget _ (by omega)), hget _ (by omega)⟩⟩, fun i hi hplus => ?_⟩
    have h := hget (i * 2) (by omega)
    rw [hplus] at h
    revert h
    decide
  · rintro ⟨⟨hlen, hpairs⟩, hplus⟩
    refine ⟨hlen, fun b hb => ?_⟩
    rw [eq_pairs hlen, List.mem_flatMap] at hb
    obtain ⟨i, hi, hb⟩ := hb
    have hpair := readsPair_iff.1 (hpairs i (List.mem_range.1 hi))
    rcases List.mem_cons.1 hb with rfl | hb
    · exact hpair.1.resolve_left (hplus i (List.mem_range.1 hi))
    · rw [List.mem_singleton.1 hb]
      exact hpair.2

/-- A MAC that was read from digits is written as the lower-case digits. -/
theorem macToHex_of_parseMac {s : String} {mac : Mac} (h : parseMac s = .ok mac) (hs : IsHexText s) :
    (macToHex mac).toList = s.toList.map Char.toLower := by
  obtain ⟨hlen, hpairs⟩ := parseMac_eq_ok_iff.1 h
  obtain ⟨-, hplus⟩ := (isHexText_iff_pairs s).1 hs
  have hascii : ∀ b ∈ utf8 s, b < 128 := by
    intro b hb
    obtain ⟨d, hd⟩ := Option.isSome_iff_exists.1 (((isHexText_iff s).1 hs).2 b hb)
    exact (hexDigit_spec hd).1
  have hmac : mac.toList = (List.range 6).map fun i => mac.toList.getD i 0 := by
    obtain ⟨⟨octets⟩, hsize⟩ := mac
    match octets, hsize with
    | [_, _, _, _, _, _], _ => rfl
  rw [toList_of_ascii hascii, eq_pairs hlen, macToHex, String.toList_ofList, hmac]
  simp only [List.flatMap_map, List.map_flatMap]
  refine List.flatMap_congr fun i hi => ?_
  have hi := List.mem_range.1 hi
  have hget : mac.toList.getD i 0 = mac[i] := by simp [List.getD_eq_getElem?_getD, hi]
  obtain ⟨hhi, hlo⟩ := digitChars_of_u8FromHex (hpairs i hi) (hplus i hi)
  simp only [hget, hhi, hlo, List.map_cons, List.map_nil]

/-! ### What the parser is for -/

/-- What is written is read back. -/
theorem parseMac_macToHex (mac : Mac) : parseMac (macToHex mac) = .ok mac := by
  have hdigit : ∀ n < 16, (Nat.digitChar n).val < 128 := by decide
  have hascii : ∀ c ∈ (macToHex mac).toList, c.val < 128 := by
    intro c hc
    rw [macToHex, String.toList_ofList] at hc
    obtain ⟨b, -, hc⟩ := List.mem_flatMap.1 hc
    have hb := b.toNat_lt
    rcases List.mem_cons.1 hc with rfl | hc
    · exact hdigit _ (by omega)
    · rw [List.mem_singleton.1 hc]
      exact hdigit _ (by omega)
  have hbytes : utf8 (macToHex mac) = mac.toList.flatMap fun b =>
      [(Nat.digitChar (b.toNat / 16)).val.toUInt8, (Nat.digitChar (b.toNat % 16)).val.toUInt8] := by
    rw [utf8_of_ascii hascii, macToHex, String.toList_ofList, List.map_flatMap]
    rfl
  rw [parseMac_eq_ok_iff, hbytes]
  obtain ⟨⟨octets⟩, hsize⟩ := mac
  match octets, hsize with
  | [b₀, b₁, b₂, b₃, b₄, b₅], _ =>
    refine ⟨rfl, fun i hi => ?_⟩
    match i, hi with
    | 0, _ => exact u8FromHex_digitChars b₀
    | 1, _ => exact u8FromHex_digitChars b₁
    | 2, _ => exact u8FromHex_digitChars b₂
    | 3, _ => exact u8FromHex_digitChars b₃
    | 4, _ => exact u8FromHex_digitChars b₄
    | 5, _ => exact u8FromHex_digitChars b₅

private theorem readsMac_of_not_misread {s : String} (h : ¬ Misread s) : ReadsMac s := by
  have haccepts : (∃ mac, parseMac s = .ok mac) ↔ IsHexText s := by
    rw [exists_parseMac_eq_ok_iff, isHexText_iff_pairs]
    refine ⟨fun hok => ⟨hok, fun i hi hplus => h ⟨hok.1, .inr ⟨hok.2, i, hi, hplus⟩⟩⟩, And.left⟩
  refine ⟨fun hpanic => ?_, haccepts, fun mac hmac => macToHex_of_parseMac hmac (haccepts.1 ⟨mac, hmac⟩)⟩
  obtain ⟨hlen, hcut⟩ := (parseMac_eq_panic_iff s).1 hpanic
  exact h ⟨hlen, .inl hcut⟩

/-- The round trip holds for every MAC, and the parser does what it is for on exactly the texts that it does not
misread. -/
theorem readsMac_iff (s : String) :
    (∀ mac, parseMac (macToHex mac) = .ok mac) ∧ (ReadsMac s ↔ ¬ Misread s) := by
  refine ⟨parseMac_macToHex, ?_, readsMac_of_not_misread⟩
  rintro ⟨hno_panic, haccepts, -⟩ ⟨hlen, hcut | ⟨hpairs, i, hi, hplus⟩⟩
  · exact hno_panic ((parseMac_eq_panic_iff s).2 ⟨hlen, hcut⟩)
  · have hhex := haccepts.1 ((exists_parseMac_eq_ok_iff s).2 ⟨hlen, hpairs⟩)
    exact ((isHexText_iff_pairs s).1 hhex).2 i hi hplus

/-- A plus sign is read as a digit that is not there, and a letter of two bytes over the end of a slice panics. -/
theorem not_readsMac_plus_cut : ¬ ReadsMac "aabbccddee+f" ∧ ¬ ReadsMac "aébbccddeef" := by
  constructor
  · intro h
    have hhex := h.accepts.1 ⟨#v[0xAA, 0xBB, 0xCC, 0xDD, 0xEE, 0x0F], by decide⟩
    have hplus := hhex.2 '+' (by decide)
    revert hplus
    decide
  · intro h
    exact h.no_panic (by decide)

end EverythingImu.App
