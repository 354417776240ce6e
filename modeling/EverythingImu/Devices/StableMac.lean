import EverythingImu.App.UdpHapticTargets
import EverythingImu.Library.Fnv
import EverythingImu.Wii.Bridge

/-!
# MACs made from serials

Most drivers make the MAC of a device from a text that names it, with the 64-bit FNV-1a hash of its bytes: five bytes
of the hash behind `0x02`, three bytes of it behind the marker of the Valve devices, or six bytes with the two lowest
bits overwritten for the devices that come over the network.  The registry knows devices by these MACs, and two devices
with one MAC replace each other.

Texts of the same length that differ only at their end have different MACs: in the last four bytes for the first kind,
in the last two for the Valve devices, in the last three for the forwarded ones (`nearby_serials_distinct`).
-/

namespace EverythingImu

open App (fnv1a64 FNV_OFFSET FNV_PRIME synthMac)
open Buffer Fnv

/-! ### The functions of the drivers -/

theorem size_macBytes (a b c d e f : UInt8) : #[a, b, c, d, e, f].size = 6 := rfl

def macOfBytes (a b c d e f : UInt8) : Mac := ⟨#[a, b, c, d, e, f], size_macBytes a b c d e f⟩

/-- Byte `i` of `to_le_bytes`. -/
def leByte (h : UInt64) (i : UInt64) : UInt8 := (h >>> (8 * i)).toUInt8

/-- `[0x02, h[0], …, h[4]]`. -/
def hashedMac (text : String) : Mac :=
  let h := leByte (fnv1a64 (utf8 text))
  macOfBytes 0x02 (h 0) (h 1) (h 2) (h 3) (h 4)

/-- `[0x02, 0x28, 0xDE, h[0], h[1], h[2]]`. -/
def valveMac (text : String) : Mac :=
  let h := leByte (fnv1a64 (utf8 text))
  macOfBytes 0x02 0x28 0xDE (h 0) (h 1) (h 2)

/-- The first six bytes with the group bit cleared and the local bit set. -/
def forwardedMac (text : String) : Mac :=
  let h := leByte (fnv1a64 (utf8 text))
  macOfBytes ((h 0 &&& 0xFE) ||| 0x02) (h 1) (h 2) (h 3) (h 4) (h 5)

namespace DualSense

def macFromSerial (serial : String) : Mac := hashedMac serial

end DualSense

namespace DualShock3

def macFromSerial (serial : String) : Mac := hashedMac serial

end DualShock3

namespace PsMove

/-- A controller without a serial is named by its HID path and interface. -/
def macFromSerial (serial fallback : String) : Mac := hashedMac (if serial.isEmpty then fallback else serial)

end PsMove

namespace Joycon

def macFromString (s : String) : Mac := hashedMac s

/-- For a Joy-Con 2 whose Bluetooth address cannot be parsed. -/
def hashToMac (seed : String) : Mac := hashedMac seed

end Joycon

namespace Hopx

def hashToMac (seed : String) : Mac := hashedMac seed

end Hopx

namespace SteamDeck

def macFromSerial (serial : String) : Mac := valveMac serial

end SteamDeck

namespace SteamController

def macFromSerial (serial : String) : Mac := valveMac serial

end SteamController

namespace Forwarded

/-- `stable_mac` of the Vita and of the 3DS. -/
def stableMac (key : String) : Mac := forwardedMac key

end Forwarded

/-! ### Low bits of the hash -/

/-- The low bits of the hash evolve by the low bits of the multiplier. -/
theorem fnv1a64_mod {n : Nat} (h8 : 8 ≤ n) (h64 : n ≤ 64) (bytes : List UInt8) :
    (fnv1a64 bytes).toNat % 2 ^ n = lowHash n (FNV_PRIME.toNat % 2 ^ n) (FNV_OFFSET.toNat % 2 ^ n) bytes := by
  unfold fnv1a64
  induction bytes using List.reverseRecOn with
  | nil => rfl
  | append_singleton u b ih =>
    rw [lowHash_concat, ← ih, List.foldl_append, List.foldl_cons, List.foldl_nil]
    generalize u.foldl (fun hash b => (hash ^^^ b.toUInt64) * FNV_PRIME) FNV_OFFSET = h
    have hb : b.toNat % 2 ^ n = b.toNat :=
      Nat.mod_eq_of_lt (b.toNat_lt.trans_le (Nat.pow_le_pow_right (by decide) h8))
    have hdvd : 2 ^ n ∣ 2 ^ 64 := Nat.pow_dvd_pow 2 h64
    calc ((h ^^^ b.toUInt64) * FNV_PRIME).toNat % 2 ^ n
        = (h.toNat ^^^ b.toNat) * FNV_PRIME.toNat % 2 ^ 64 % 2 ^ n := by
          rw [UInt64.toNat_mul, UInt64.toNat_xor, UInt8.toNat_toUInt64]
      _ = ((h.toNat ^^^ b.toNat) % 2 ^ n) * (FNV_PRIME.toNat % 2 ^ n) % 2 ^ n := by
          rw [Nat.mod_mod_of_dvd _ hdvd, Nat.mul_mod]
      _ = (h.toNat % 2 ^ n ^^^ b.toNat) * (FNV_PRIME.toNat % 2 ^ n) % 2 ^ n := by
          rw [Nat.xor_mod_two_pow, hb]

/-! ### The bytes of a MAC -/

theorem leByte_toNat (h : UInt64) {i : Nat} (hi : i < 8) :
    (leByte h (UInt64.ofNat i)).toNat = h.toNat / 256 ^ i % 256 := by
  have hshift : (8 * UInt64.ofNat i).toNat % 64 = 8 * i := by
    rw [UInt64.toNat_mul, UInt64.toNat_ofNat_of_lt' (hi.trans (by decide))]
    change 8 * i % 2 ^ 64 % 64 = 8 * i
    omega
  rw [leByte, UInt64.toNat_toUInt8, UInt64.toNat_shiftRight, hshift, Nat.shiftRight_eq_div_pow, Nat.pow_mul]

/-- Hashes with the same `m` bytes from byte `j` on. -/
theorem mod_of_leBytes {a b : UInt64} {j m : Nat} (hm : j + m ≤ 8)
    (h : ∀ i < m, leByte a (UInt64.ofNat (j + i)) = leByte b (UInt64.ofNat (j + i))) :
    a.toNat / 256 ^ j % 256 ^ m = b.toNat / 256 ^ j % 256 ^ m := by
  induction m with
  | zero => simp [Nat.mod_one]
  | succ m ih =>
    have hlow := ih (by omega) fun i hi => h i (by omega)
    have hbyte := congrArg UInt8.toNat (h m (by omega))
    rw [leByte_toNat a (by omega), leByte_toNat b (by omega), Nat.pow_add, ← Nat.div_div_eq_div_mul,
      ← Nat.div_div_eq_div_mul] at hbyte
    rw [Nat.mod_pow_succ, Nat.mod_pow_succ, hlow, hbyte]

/-- A group bit that is cleared and a local bit that is set hide the two lowest bits. -/
theorem masked_div_four : ∀ n < 256,
    ((UInt8.ofNat n &&& 0xFE) ||| 0x02).toNat / 4 = n / 4 ∧ ((UInt8.ofNat n &&& 0xFE) ||| 0x02) &&& 0x03 = 0x02 := by
  decide +kernel

theorem masked_spec (b : UInt8) :
    ((b &&& 0xFE) ||| 0x02).toNat / 4 = b.toNat / 4 ∧ ((b &&& 0xFE) ||| 0x02) &&& 0x03 = 0x02 := by
  simpa only [UInt8.ofNat_toNat] using masked_div_four b.toNat b.toNat_lt

/-- A MAC is given by its bytes. -/
theorem macOfBytes_inj {a b c d e f a' b' c' d' e' f' : UInt8}
    (h : macOfBytes a b c d e f = macOfBytes a' b' c' d' e' f') :
    a = a' ∧ b = b' ∧ c = c' ∧ d = d' ∧ e = e' ∧ f = f' := by
  have hlist := congrArg Vector.toList h
  simpa [macOfBytes] using hlist

/-- Every MAC that is made from a text is a unicast address and locally administered. -/
theorem textMac_local (text : String) :
    (hashedMac text)[0] &&& 0x03 = 0x02 ∧ (valveMac text)[0] &&& 0x03 = 0x02 ∧
      (forwardedMac text)[0] &&& 0x03 = 0x02 := by
  have hmarker : (0x02 : UInt8) &&& 0x03 = 0x02 := by decide
  refine ⟨?_, ?_, (masked_spec _).2⟩
  · simpa [hashedMac, macOfBytes] using hmarker
  · simpa [valveMac, macOfBytes] using hmarker

theorem hash_of_hashedMac {s t : String} (h : hashedMac s = hashedMac t) :
    (fnv1a64 (utf8 s)).toNat % 2 ^ 40 = (fnv1a64 (utf8 t)).toNat % 2 ^ 40 := by
  obtain ⟨-, h0, h1, h2, h3, h4⟩ := macOfBytes_inj h
  have hmod := mod_of_leBytes (j := 0) (m := 5) (by decide) fun i hi => by
    match i, hi with
    | 0, _ => exact h0
    | 1, _ => exact h1
    | 2, _ => exact h2
    | 3, _ => exact h3
    | 4, _ => exact h4
  simpa using hmod

theorem hash_of_valveMac {s t : String} (h : valveMac s = valveMac t) :
    (fnv1a64 (utf8 s)).toNat % 2 ^ 24 = (fnv1a64 (utf8 t)).toNat % 2 ^ 24 := by
  obtain ⟨-, -, -, h0, h1, h2⟩ := macOfBytes_inj h
  have hmod := mod_of_leBytes (j := 0) (m := 3) (by decide) fun i hi => by
    match i, hi with
    | 0, _ => exact h0
    | 1, _ => exact h1
    | 2, _ => exact h2
  simpa using hmod

/-- The two lowest bits are lost. -/
theorem hash_of_forwardedMac {s t : String} (h : forwardedMac s = forwardedMac t) :
    (fnv1a64 (utf8 s)).toNat % 2 ^ 48 / 2 ^ 2 = (fnv1a64 (utf8 t)).toNat % 2 ^ 48 / 2 ^ 2 := by
  obtain ⟨h0, h1, h2, h3, h4, h5⟩ := macOfBytes_inj h
  have hmod := mod_of_leBytes (j := 1) (m := 5) (by decide) fun i hi => by
    match i, hi with
    | 0, _ => exact h1
    | 1, _ => exact h2
    | 2, _ => exact h3
    | 3, _ => exact h4
    | 4, _ => exact h5
  have hlow := congrArg (·.toNat / 4) h0
  simp only [(masked_spec _).1] at hlow
  have hs := leByte_toNat (fnv1a64 (utf8 s)) (i := 0) (by decide)
  have ht := leByte_toNat (fnv1a64 (utf8 t)) (i := 0) (by decide)
  change (leByte (fnv1a64 (utf8 s)) 0).toNat = _ at hs
  change (leByte (fnv1a64 (utf8 t)) 0).toNat = _ at ht
  rw [hs, ht] at hlow
  omega

/-! ### Texts that differ at their end -/

/-- The texts have the same length and differ at most in the last `m` bytes. -/
structure Nearby (m : Nat) (s t : String) : Prop where
  split : ∃ p u v, utf8 s = p ++ u ∧ utf8 t = p ++ v ∧ u.length = v.length ∧ u.length ≤ m

section Nearby

variable {s t : String} {m n : Nat}

/-- The low bits of the hashes differ while the last byte is taken before the drift reaches `2 ^ n`. -/
theorem hash_mod_ne (h : Nearby (m + 1) s t) (hne : s ≠ t) (h8 : 8 ≤ n) (h64 : n ≤ 64)
    (hq : 256 ≤ FNV_PRIME.toNat % 2 ^ n) (hodd : Odd (FNV_PRIME.toNat % 2 ^ n))
    (hroom : drift (FNV_PRIME.toNat % 2 ^ n) m + 510 < 2 ^ n) :
    (fnv1a64 (utf8 s)).toNat % 2 ^ n ≠ (fnv1a64 (utf8 t)).toNat % 2 ^ n := by
  obtain ⟨p, u, v, hs, ht, hlen, hm⟩ := h.split
  intro hhash
  rw [hs, ht, fnv1a64_mod h8 h64, fnv1a64_mod h8 h64, lowHash_append, lowHash_append] at hhash
  have hstart : FNV_OFFSET.toNat % 2 ^ n < 2 ^ n := Nat.mod_lt _ (by positivity)
  have huv : u = v := lowHash_inj h8 hq hodd (lowHash_lt hstart p) hm hlen hroom hhash
  exact hne (utf8_inj (by rw [hs, ht, huv]))

theorem hashedMac_ne (h : Nearby 4 s t) (hne : s ≠ t) : hashedMac s ≠ hashedMac t := fun heq =>
  hash_mod_ne (n := 40) h hne (by decide) (by decide) (by decide) (by decide) (by decide) (hash_of_hashedMac heq)

theorem valveMac_ne (h : Nearby 2 s t) (hne : s ≠ t) : valveMac s ≠ valveMac t := fun heq =>
  hash_mod_ne (n := 24) h hne (by decide) (by decide) (by decide) (by decide) (by decide) (hash_of_valveMac heq)

/-- Already the low 40 bits of the hashes differ above the two lowest. -/
theorem forwardedMac_ne (h : Nearby 3 s t) (hne : s ≠ t) : forwardedMac s ≠ forwardedMac t := by
  intro heq
  obtain ⟨p, u, v, hs, ht, hlen, hm⟩ := h.split
  have hhash : (fnv1a64 (utf8 s)).toNat % 2 ^ 40 / 2 ^ 2 = (fnv1a64 (utf8 t)).toNat % 2 ^ 40 / 2 ^ 2 := by
    have h48 := hash_of_forwardedMac heq
    omega
  rw [hs, ht, fnv1a64_mod (by decide) (by decide), fnv1a64_mod (by decide) (by decide), lowHash_append,
    lowHash_append] at hhash
  have hstart : FNV_OFFSET.toNat % 2 ^ 40 < 2 ^ 40 := Nat.mod_lt _ (by decide)
  have huv : u ≠ v := by
    rintro rfl
    exact hne (utf8_inj (by rw [hs, ht]))
  exact lowHash_div_ne (by decide) (by decide) (by decide) (lowHash_lt hstart p) hm hlen (by decide) huv hhash

end Nearby

/-- Two texts of the same length that differ only at their end never give one MAC: for the drivers that keep five bytes
of the hash while the difference is in the last four bytes, for the Valve devices in the last two, for the forwarded
devices in the last three. -/
theorem nearby_serials_distinct {s t : String} (hne : s ≠ t) :
    (Nearby 4 s t → DualSense.macFromSerial s ≠ DualSense.macFromSerial t ∧
      DualShock3.macFromSerial s ≠ DualShock3.macFromSerial t ∧ Joycon.macFromString s ≠ Joycon.macFromString t ∧
      Joycon.hashToMac s ≠ Joycon.hashToMac t ∧ Hopx.hashToMac s ≠ Hopx.hashToMac t ∧
      ∀ fs ft, s ≠ "" → t ≠ "" → PsMove.macFromSerial s fs ≠ PsMove.macFromSerial t ft) ∧
    (Nearby 2 s t → SteamDeck.macFromSerial s ≠ SteamDeck.macFromSerial t ∧
      SteamController.macFromSerial s ≠ SteamController.macFromSerial t) ∧
    (Nearby 3 s t →
      Forwarded.stableMac s ≠ Forwarded.stableMac t ∧ Wii.stableMac (utf8 s) ≠ Wii.stableMac (utf8 t)) := by
  refine ⟨fun h => ?_, fun h => ?_, fun h => ?_⟩
  · have hmac : hashedMac s ≠ hashedMac t := hashedMac_ne h hne
    refine ⟨hmac, hmac, hmac, hmac, hmac, fun fs ft hs ht => ?_⟩
    simpa [PsMove.macFromSerial, hs, ht] using hmac
  · exact ⟨valveMac_ne h hne, valveMac_ne h hne⟩
  · exact ⟨forwardedMac_ne h hne, forwardedMac_ne h hne⟩

/-- Two consoles in one network. -/
theorem lan_consoles_distinct :
    Forwarded.stableMac "192.168.1.17" ≠ Forwarded.stableMac "192.168.1.23" ∧
      Wii.stableMac (utf8 "192.168.1.17") ≠ Wii.stableMac (utf8 "192.168.1.23") :=
  (nearby_serials_distinct (by decide)).2.2
    ⟨utf8 "192.168.1.", utf8 "17", utf8 "23", by decide +kernel, by decide +kernel, by decide +kernel,
      by decide +kernel⟩

end EverythingImu
