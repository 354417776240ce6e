import Mathlib

/-!
# The low bits of an FNV-1a hash

A hash of the FNV-1a family takes a byte by an exclusive or into its low bits and a product with an odd multiplier.  Its
low `n` bits evolve on their own, by the multiplier's low bits `q` (`lowStep`).

Two states drift apart while they take different bytes: a difference that is at least 256 is changed by less than that
in the exclusive or and then multiplied by `q`.  So two strings of the same length with a common beginning give states
whose difference, as a number, is neither zero nor larger than `drift q m` when `m` bytes are left, and as long as that
bound is below `2 ^ n` the low bits of their hashes differ.
-/

namespace Fnv

/-- The low `n` bits of a state after a byte. -/
def lowStep (n q : Nat) (x : Nat) (b : UInt8) : Nat := ((x ^^^ b.toNat) * q) % 2 ^ n

def lowHash (n q : Nat) (x : Nat) (bytes : List UInt8) : Nat := bytes.foldl (lowStep n q) x

theorem lowHash_append (n q x : Nat) (u v : List UInt8) :
    lowHash n q x (u ++ v) = lowHash n q (lowHash n q x u) v := List.foldl_append

theorem lowHash_concat (n q x : Nat) (u : List UInt8) (b : UInt8) :
    lowHash n q x (u ++ [b]) = (lowHash n q x u ^^^ b.toNat) * q % 2 ^ n := lowHash_append n q x u [b]

/-- How far two equal states can have drifted apart after `m` bytes. -/
def drift (q : Nat) : Nat → Nat
  | 0 => 0
  | m + 1 => q * (drift q m + 510)

theorem drift_mono {q : Nat} (hq : 0 < q) : Monotone (drift q) := by
  refine monotone_nat_of_le_succ fun m => ?_
  calc drift q m ≤ drift q m + 510 := Nat.le_add_right _ _
    _ ≤ q * (drift q m + 510) := Nat.le_mul_of_pos_left _ hq

theorem lowHash_lt {n q x : Nat} (hx : x < 2 ^ n) (bytes : List UInt8) : lowHash n q x bytes < 2 ^ n := by
  induction bytes using List.reverseRecOn with
  | nil => exact hx
  | append_singleton u b _ =>
    rw [lowHash_concat]
    exact Nat.mod_lt _ (by positivity)

/-! ### The exclusive or with a byte -/

theorem xor_byte_div (x : Nat) (b : UInt8) : (x ^^^ b.toNat) / 256 = x / 256 := by
  have hb : b.toNat / 2 ^ 8 = 0 := Nat.div_eq_of_lt b.toNat_lt
  have h : (x ^^^ b.toNat) / 2 ^ 8 = x / 2 ^ 8 := by rw [Nat.xor_div_two_pow, hb, Nat.xor_zero]
  exact h

theorem xor_byte_lt {n x : Nat} (hn : 8 ≤ n) (hx : x < 2 ^ n) (b : UInt8) : x ^^^ b.toNat < 2 ^ n :=
  Nat.xor_lt_two_pow hx (b.toNat_lt.trans_le (Nat.pow_le_pow_right (by decide) hn))

/-- A byte moves a state by less than 256. -/
theorem abs_xor_byte_sub (x : Nat) (b : UInt8) : |((x ^^^ b.toNat : Nat) : ℤ) - x| ≤ 255 := by
  have h := xor_byte_div x b
  rw [abs_le]
  omega

theorem xor_byte_inj {x : Nat} {b c : UInt8} (h : x ^^^ b.toNat = x ^^^ c.toNat) : b = c :=
  UInt8.toNat_inj.1 (Nat.xor_right_injective h)

/-! ### States that drift apart -/

/-- The states differ by `D` modulo `2 ^ n`. -/
structure Apart (n x y : Nat) (D : ℤ) : Prop where
  left : x < 2 ^ n
  right : y < 2 ^ n
  diff : (2 ^ n : ℤ) ∣ x - y - D

namespace Apart

variable {n q x y : Nat} {D : ℤ}

theorem refl (hx : x < 2 ^ n) : Apart n x x 0 := ⟨hx, hx, by simp⟩

/-- A difference of less than `2 ^ n` that is not zero is one of the states. -/
theorem ne (h : Apart n x y D) (h0 : D ≠ 0) (hD : |D| < 2 ^ n) : x ≠ y := by
  rintro rfl
  have hdvd : (2 ^ n : ℤ) ∣ D := by simpa using h.diff
  exact h0 (Int.eq_zero_of_abs_lt_dvd hdvd hD)

/-- Both states take a byte.  Their difference vanishes only if they were the same and the bytes are, or if they
were less than 256 apart. -/
theorem xor (h : Apart n x y D) (hn : 8 ≤ n) (b c : UInt8) :
    ∃ D', Apart n (x ^^^ b.toNat) (y ^^^ c.toNat) D' ∧ |D'| ≤ |D| + 510 ∧
      (D = 0 → (D' = 0 ↔ b = c)) ∧ (256 ≤ |D| → D' ≠ 0) := by
  obtain ⟨k, hk⟩ := h.diff
  have hx' := xor_byte_lt hn h.left b
  have hy' := xor_byte_lt hn h.right c
  have hmx := abs_xor_byte_sub x b
  have hmy := abs_xor_byte_sub y c
  have hxd := xor_byte_div x b
  have hyd := xor_byte_div y c
  have hleft := h.left
  have hright := h.right
  set x' := x ^^^ b.toNat with hxdef
  set y' := y ^^^ c.toNat with hydef
  have hpow : ((2 ^ n : Nat) : ℤ) = 2 ^ n := by push_cast; rfl
  -- a multiple of `2 ^ n` between two states is zero
  have hzero : ∀ {u v : Nat}, u < 2 ^ n → v < 2 ^ n → (u : ℤ) - v = 2 ^ n * k → k = 0 := by
    intro u v hu hv huv
    have hu' : (u : ℤ) < 2 ^ n := by rw [← hpow]; exact_mod_cast hu
    have hv' : (v : ℤ) < 2 ^ n := by rw [← hpow]; exact_mod_cast hv
    have hdvd : (2 ^ n : ℤ) ∣ (u : ℤ) - v := ⟨k, huv⟩
    have habs : |(u : ℤ) - v| < 2 ^ n := by rw [abs_lt]; constructor <;> omega
    have hsub : (u : ℤ) - v = 0 := Int.eq_zero_of_abs_lt_dvd hdvd habs
    rw [hsub] at huv
    rcases mul_eq_zero.1 huv.symm with hp | hk0
    · exact absurd hp (by positivity)
    · exact hk0
  refine ⟨(x' : ℤ) - y' - 2 ^ n * k, ⟨hx', hy', ⟨k, by ring⟩⟩, ?_, fun hD => ?_, fun hfar hD' => ?_⟩
  · have hsplit : (x' : ℤ) - y' - 2 ^ n * k = D + ((x' - x) - (y' - y)) := by linarith
    rw [hsplit]
    refine (abs_add_le _ _).trans ?_
    have hsub := abs_sub ((x' : ℤ) - x) (y' - y)
    linarith
  · have hk0 : k = 0 := hzero hleft hright (by linarith)
    subst hk0 hD
    obtain rfl : x = y := by omega
    constructor
    · intro hD'
      exact xor_byte_inj (x := x) (by omega)
    · rintro rfl
      simp [hxdef, hydef]
  · have hk0 : k = 0 := hzero hx' hy' (by linarith)
    subst hk0
    have hclose : |D| ≤ 255 := by rw [abs_le]; omega
    linarith

/-- The product with the multiplier. -/
theorem mul (h : Apart n x y D) (q : Nat) : Apart n (x * q % 2 ^ n) (y * q % 2 ^ n) (q * D) := by
  refine ⟨Nat.mod_lt _ (by positivity), Nat.mod_lt _ (by positivity), ?_⟩
  have hx : (2 ^ n : ℤ) ∣ (x * q : ℤ) - ((x * q % 2 ^ n : Nat) : ℤ) := by
    push_cast
    exact Int.dvd_self_sub_emod
  have hy : (2 ^ n : ℤ) ∣ (y * q : ℤ) - ((y * q % 2 ^ n : Nat) : ℤ) := by
    push_cast
    exact Int.dvd_self_sub_emod
  have hq : (2 ^ n : ℤ) ∣ ((x : ℤ) - y - D) * q := Dvd.dvd.mul_right h.diff q
  have heq : ((x * q % 2 ^ n : Nat) : ℤ) - ((y * q % 2 ^ n : Nat) : ℤ) - q * D =
      ((x : ℤ) - y - D) * q - ((x * q : ℤ) - ((x * q % 2 ^ n : Nat) : ℤ)) +
        ((y * q : ℤ) - ((y * q % 2 ^ n : Nat) : ℤ)) := by ring
  rw [heq]
  exact dvd_add (dvd_sub hq hx) hy

end Apart

/-! ### Strings of the same length -/

section Strings

variable {n q x : Nat}

/-- Two states after strings of the same length from one state: their difference is zero if the strings are the same,
and otherwise between the multiplier and the drift of the length. -/
theorem lowHash_apart (hn : 8 ≤ n) (hq : 256 ≤ q) (hx : x < 2 ^ n) {u v : List UInt8} (hlen : u.length = v.length) :
    ∃ D, Apart n (lowHash n q x u) (lowHash n q x v) D ∧ |D| ≤ drift q u.length ∧
      (u = v → D = 0) ∧ (u ≠ v → (q : ℤ) ≤ |D|) := by
  induction u using List.reverseRecOn generalizing v with
  | nil =>
    obtain rfl : v = [] := List.length_eq_zero_iff.1 hlen.symm
    exact ⟨0, .refl hx, by simp [drift], fun _ => rfl, fun h => absurd rfl h⟩
  | append_singleton u b ih =>
    rcases List.eq_nil_or_concat' v with rfl | ⟨v, c, rfl⟩
    · simp at hlen
    · simp only [List.length_append, List.length_singleton, Nat.add_right_cancel_iff] at hlen
      obtain ⟨D, hD, hbound, hsame, hdiff⟩ := ih hlen
      obtain ⟨D', hD', hstep, hzero, hfar⟩ := hD.xor hn b c
      have hq0 : (0 : ℤ) ≤ q := Int.natCast_nonneg q
      refine ⟨q * D', ?_, ?_, fun heq => ?_, fun hne => ?_⟩
      · rw [lowHash_concat, lowHash_concat]
        exact hD'.mul q
      · rw [abs_mul, abs_of_nonneg hq0, List.length_append, List.length_singleton, drift]
        push_cast
        exact mul_le_mul_of_nonneg_left (hstep.trans (by linarith)) hq0
      · obtain ⟨huv, hbc⟩ := List.append_inj heq hlen
        rw [(hzero (hsame huv)).2 (List.singleton_inj.1 hbc), mul_zero]
      · have hne' : D' ≠ 0 := by
          by_cases huv : u = v
          · refine fun hD'0 => hne ?_
            rw [huv, (hzero (hsame huv)).1 hD'0]
          · exact hfar (le_trans (by exact_mod_cast hq) (hdiff huv))
        rw [abs_mul, abs_of_nonneg hq0]
        exact le_mul_of_one_le_right hq0 (Int.one_le_abs hne')

/-- Strings of the same length whose drift stays below `2 ^ n` by more than `2 ^ j` give states that differ above
their `j` lowest bits. -/
theorem lowHash_div_ne {j : Nat} (hn : 8 ≤ n) (hq : 256 ≤ q) (hj : 2 ^ j ≤ q) (hx : x < 2 ^ n) {u v : List UInt8}
    {m : Nat} (hm : u.length ≤ m) (hlen : u.length = v.length) (hroom : drift q m + 2 ^ j ≤ 2 ^ n) (hne : u ≠ v) :
    lowHash n q x u / 2 ^ j ≠ lowHash n q x v / 2 ^ j := by
  have hroom : drift q u.length + 2 ^ j ≤ 2 ^ n :=
    (Nat.add_le_add_right (drift_mono (by omega) hm) _).trans hroom
  obtain ⟨D, hD, hbound, -, hfar⟩ := lowHash_apart hn hq hx hlen
  have hfar := hfar hne
  intro heq
  -- states with the same upper bits are less than `2 ^ j` apart
  have hpos : 0 < 2 ^ j := by positivity
  have hclose : |(lowHash n q x u : ℤ) - lowHash n q x v| < (2 ^ j : Nat) := by
    have hu := Nat.div_add_mod (lowHash n q x u) (2 ^ j)
    have hv := Nat.div_add_mod (lowHash n q x v) (2 ^ j)
    have hum := Nat.mod_lt (lowHash n q x u) hpos
    have hvm := Nat.mod_lt (lowHash n q x v) hpos
    rw [heq] at hu
    rw [abs_lt]
    omega
  have hsub : (lowHash n q x u : ℤ) - lowHash n q x v - D = 0 := by
    refine Int.eq_zero_of_abs_lt_dvd hD.diff ?_
    calc |(lowHash n q x u : ℤ) - lowHash n q x v - D|
        ≤ |(lowHash n q x u : ℤ) - lowHash n q x v| + |D| := abs_sub _ _
      _ < (2 ^ j : Nat) + drift q u.length := by linarith
      _ ≤ 2 ^ n := by
        rw [add_comm]
        exact_mod_cast hroom
  have hDj : |D| < (2 ^ j : Nat) := by
    rwa [← sub_eq_zero.1 hsub]
  have hjq : ((2 ^ j : Nat) : ℤ) ≤ q := by exact_mod_cast hj
  linarith

/-- Strings of the same length give different states if the last byte was taken before the drift could reach
`2 ^ n`. -/
theorem lowHash_inj (hn : 8 ≤ n) (hq : 256 ≤ q) (hodd : Odd q) (hx : x < 2 ^ n) {u v : List UInt8}
    {m : Nat} (hm : u.length ≤ m + 1) (hlen : u.length = v.length) (hroom : drift q m + 510 < 2 ^ n)
    (h : lowHash n q x u = lowHash n q x v) : u = v := by
  rcases List.eq_nil_or_concat' u with rfl | ⟨u, b, rfl⟩
  · exact (List.length_eq_zero_iff.1 hlen.symm).symm
  rcases List.eq_nil_or_concat' v with rfl | ⟨v, c, rfl⟩
  · simp at hlen
  simp only [List.length_append, List.length_singleton, Nat.add_right_cancel_iff, Nat.add_le_add_iff_right]
    at hlen hm
  have hroom : drift q u.length + 510 < 2 ^ n :=
    (Nat.add_le_add_right (drift_mono (by omega) hm) _).trans_lt hroom
  obtain ⟨D, hD, hbound, hsame, hfar⟩ := lowHash_apart hn hq hx hlen
  obtain ⟨D', hD', hstep, hzero, hdiff⟩ := hD.xor hn b c
  -- the multiplier is odd, so the states were the same before the last product
  have heq : lowHash n q x u ^^^ b.toNat = lowHash n q x v ^^^ c.toNat := by
    have hmod : (lowHash n q x u ^^^ b.toNat) * q ≡ (lowHash n q x v ^^^ c.toNat) * q [MOD 2 ^ n] := by
      rwa [lowHash_concat, lowHash_concat] at h
    have hcop : Nat.Coprime (2 ^ n) q := Nat.Coprime.pow_left n (Nat.coprime_two_left.2 hodd)
    exact (Nat.ModEq.cancel_right_of_coprime hcop hmod).eq_of_lt_of_lt hD'.left hD'.right
  have hsmall : |D'| < 2 ^ n := by
    have hb : |D'| ≤ drift q u.length + 510 := hstep.trans (by linarith)
    exact hb.trans_lt (by exact_mod_cast hroom)
  have hD'0 : D' = 0 := by
    by_contra h0
    exact hD'.ne h0 hsmall heq
  by_cases huv : u = v
  · rw [huv, (hzero (hsame huv)).1 hD'0]
  · exact absurd hD'0 (hdiff (le_trans (by exact_mod_cast hq) (hfar huv)))

end Strings

end Fnv
