import EverythingImu.Library.FloatCast

/-!
# Rounding and order

Rounding keeps the order of non-negative numbers (`RoundsTo.value_mono`), so conversions to binary32 and products with
a fixed factor do.  On numbers, the infinities among them, `≤` is the order of their places (`le_iff_level`) and is
therefore transitive (`le_trans_f32`).
-/

namespace FloatRound

open Float.Model Float.Model.UnpackedFloat

variable {spec : Format}

/-! ### Numbers and infinities -/

/-- The place of a number among the rational numbers and the two infinities. -/
def level : UnpackedFloat → WithBot (WithTop ℚ)
  | .infinity .positive => ⊤
  | .infinity .negative => ⊥
  | f => (value f : WithTop ℚ)

theorem level_eq {f : UnpackedFloat} (h : f.isFinite = true) :
    level f = ((value f : WithTop ℚ) : WithBot (WithTop ℚ)) := by
  cases f with
  | notANumber => cases h
  | infinity s => cases h
  | _ => rfl

theorem le_iff_level {f g : UnpackedFloat} (hf : f.isNaN = false) (hg : g.isNaN = false) (hcf : Canonical spec f)
    (hcg : Canonical spec g) : f.le g = true ↔ level f ≤ level g := by
  have hfinite (hf : f.isFinite = true) (hg : g.isFinite = true) : f.le g = true ↔ level f ≤ level g := by
    rw [level_eq hf, level_eq hg, WithBot.coe_le_coe, WithTop.coe_le_coe, UnpackedFloat.le,
      compare_eq hf hg hcf hcg, ← compare_le_iff_le]
    cases compare (value f) (value g) <;> decide
  have htop {f : UnpackedFloat} (h : f.isFinite = true) : ¬ (⊤ : WithBot (WithTop ℚ)) ≤ level f := by
    rw [level_eq h, top_le_iff, ← WithBot.coe_top, WithBot.coe_inj]
    exact WithTop.coe_ne_top
  have hbot {f : UnpackedFloat} (h : f.isFinite = true) : ¬ level f ≤ (⊥ : WithBot (WithTop ℚ)) := by
    rw [level_eq h, le_bot_iff]
    exact WithBot.coe_ne_bot
  cases f with
  | notANumber => cases hf
  | infinity s =>
    cases g with
    | notANumber => cases hg
    | infinity t =>
      cases s <;> cases t
      · exact iff_of_true rfl le_rfl
      · exact iff_of_true rfl bot_le
      · exact iff_of_false (by decide) (by decide)
      · exact iff_of_true rfl le_rfl
    | _ =>
      cases s
      · exact iff_of_true rfl bot_le
      · exact iff_of_false Bool.false_ne_true (htop rfl)
  | _ =>
    cases g with
    | notANumber => cases hg
    | infinity t =>
      cases t
      · exact iff_of_false Bool.false_ne_true (hbot rfl)
      · exact iff_of_true rfl le_top
    | _ => exact hfinite rfl rfl

section Binary32

variable {x y z : Float32}

private theorem le_f32_iff_level (hx : x.isNaN = false) (hy : y.isNaN = false) :
    x ≤ y ↔ level x.toModel.unpack ≤ level y.toModel.unpack :=
  decide_eq_true_iff.trans (le_iff_level hx hy (canonical_toModel x) (canonical_toModel y))

theorem le_refl_f32 (hx : x.isNaN = false) : x ≤ x := (le_f32_iff_level hx hx).2 le_rfl

theorem le_trans_f32 (hx : x.isNaN = false) (hy : y.isNaN = false) (hz : z.isNaN = false) (hxy : x ≤ y)
    (hyz : y ≤ z) : x ≤ z := by
  rw [le_f32_iff_level hx hz]
  exact le_trans ((le_f32_iff_level hx hy).1 hxy) ((le_f32_iff_level hy hz).1 hyz)

theorem le_of_lt_f32 (hx : x.isNaN = false) (hy : y.isNaN = false) (h : x < y) : x ≤ y := by
  rw [← FloatOrder.not_le_iff_lt_f32 hy hx, le_f32_iff_level hy hx, not_le] at h
  exact (le_f32_iff_level hx hy).2 h.le

end Binary32

/-! ### Rounding -/

section Rounding

variable {x y u : ℚ} {f g : UnpackedFloat} {r j : ℤ}

/-- The next multiple is a unit further. -/
private theorem add_unit_le (hu : 0 < u) (h : ¬ r ≤ j) : j * u + u ≤ r * u := by
  have hstep : ((j + 1 : ℤ) : ℚ) * u ≤ r * u := by
    gcongr
    omega
  push_cast at hstep
  linarith

/-- A multiple of the unit nearest to a number is on the same side of another multiple. -/
private theorem nearest_le (hu : 0 < u) (hr : |r * u - x| ≤ u / 2) (hx : x ≤ j * u) : r ≤ j := by
  by_contra hlt
  have hstep := add_unit_le hu hlt
  have := (abs_le.1 hr).2
  linarith

private theorem le_nearest (hu : 0 < u) (hr : |r * u - x| ≤ u / 2) (hx : j * u ≤ x) : j ≤ r := by
  by_contra hlt
  have hstep := add_unit_le hu hlt
  have := (abs_le.1 hr).1
  linarith

private theorem zpow_eq_mul {s t : ℤ} (ht : t ≤ s) : (2 : ℚ) ^ s = ((2 ^ (s - t).toNat : ℤ) : ℚ) * 2 ^ t := by
  rw [two_zpow_toNat ht]
  push_cast
  rfl

/-- A power of two that is a multiple of the unit stays above. -/
private theorem nearest_le_zpow {s t : ℤ} (ht : t ≤ s) (hr : |r * 2 ^ t - x| ≤ 2 ^ t / 2) (hx : x ≤ 2 ^ s) :
    r * (2 : ℚ) ^ t ≤ 2 ^ s := by
  have hu : (0 : ℚ) < 2 ^ t := zpow_pos (by norm_num) t
  rw [zpow_eq_mul ht] at hx ⊢
  have hle := nearest_le hu hr hx
  gcongr

private theorem zpow_le_nearest {s t : ℤ} (ht : t ≤ s) (hr : |r * 2 ^ t - x| ≤ 2 ^ t / 2) (hx : 2 ^ s ≤ x) :
    (2 : ℚ) ^ s ≤ r * 2 ^ t := by
  have hu : (0 : ℚ) < 2 ^ t := zpow_pos (by norm_num) t
  rw [zpow_eq_mul ht] at hx ⊢
  have hle := le_nearest hu hr hx
  gcongr

theorem Rounds.value_mono (hf : Rounds spec x f) (hg : Rounds spec y g) (hx : 0 ≤ x) (hxy : x < y) :
    value f ≤ value g := by
  obtain ⟨tx, r, hlow, hhigh, hr, herr⟩ := hf.near
  obtain ⟨ty, r', hlow', hhigh', hr', herr'⟩ := hg.near
  rw [abs_of_nonneg hx] at hlow hhigh
  rw [abs_of_nonneg (hx.trans hxy.le)] at hlow' hhigh'
  have hu : (0 : ℚ) < 2 ^ spec.targetExponent ty := zpow_pos (by norm_num) _
  have htop : tx ≤ ty := by
    have := (zpow_lt_zpow_iff_right₀ (by norm_num : (1 : ℚ) < 2)).1 (hlow.trans_lt (hxy.trans hhigh'))
    omega
  have hbits := mantissaBits_eq spec
  rcases eq_or_ne (spec.targetExponent tx) (spec.targetExponent ty) with hunit | hunit
  · -- the same unit for both
    rw [hr, hr', hunit]
    rw [hr, hunit] at herr
    rw [hr'] at herr'
    have hle : r ≤ r' := by
      by_contra hlt
      have hstep := add_unit_le hu hlt
      have := (abs_le.1 herr).2
      have := (abs_le.1 herr').1
      linarith
    gcongr
  · -- a power of two lies between them that is a multiple of both units
    unfold Format.targetExponent at hunit
    have ht : spec.targetExponent tx ≤ ty - 1 := by
      unfold Format.targetExponent
      omega
    have ht' : spec.targetExponent ty ≤ ty - 1 := by
      unfold Format.targetExponent
      omega
    have hbelow : x ≤ 2 ^ (ty - 1) := hhigh.le.trans (zpow_le_zpow_right₀ (by norm_num) (by omega))
    rw [hr] at herr
    rw [hr'] at herr'
    calc value f = r * 2 ^ spec.targetExponent tx := hr
      _ ≤ 2 ^ (ty - 1) := nearest_le_zpow ht herr hbelow
      _ ≤ r' * 2 ^ spec.targetExponent ty := zpow_le_nearest ht' herr' hlow'
      _ = value g := hr'.symm

theorem RoundsTo.value_mono (hf : RoundsTo spec x f) (hg : RoundsTo spec y g) (hx : 0 ≤ x) (hxy : x < y) :
    value f ≤ value g := by
  have hy : y ≠ 0 := (hx.trans_lt hxy).ne'
  by_cases hzero : x = 0
  · rw [hf.zero hzero]
    obtain ⟨te, r, -, -, hr, herr⟩ := (hg.rounds hy).near
    have hu : (0 : ℚ) < 2 ^ spec.targetExponent te := zpow_pos (by norm_num) _
    rw [hr] at herr ⊢
    have hge : 0 ≤ r := le_nearest hu herr (by
      rw [Int.cast_zero, zero_mul]
      exact hx.trans hxy.le)
    positivity
  · exact (hf.rounds hzero).value_mono (hg.rounds hy) hx hxy

end Rounding

/-! ### Products and conversions -/

theorem uint32_toFloat32_roundsTo (n : UInt32) : RoundsTo .binary32 (n.toNat : ℚ) n.toFloat32.toModel.unpack := by
  have hround : RoundsTo .binary32 ((n.toNat : ℤ) : ℚ)
      (UnpackedFloat.normalize Format.binary32 (n.toNat : ℤ) 0 .positive) := normalize_intCast_roundsTo _ _
  have hlt : |((n.toNat : ℤ) : ℚ)| < 2 ^ (127 : ℤ) := by
    rw [abs_of_nonneg (by positivity), Int.cast_natCast]
    calc (n.toNat : ℚ) < 2 ^ 32 := by exact_mod_cast n.toNat_lt
      _ < 2 ^ (127 : ℤ) := by norm_num
  have hpack := unpack_pack_roundsTo hround hlt
  rw [Int.cast_natCast] at hround
  exact hpack.symm ▸ hround

theorem uint32_toFloat32_mono {m n : UInt32} (h : m ≤ n) : m.toFloat32 ≤ n.toFloat32 := by
  have hm := uint32_toFloat32_roundsTo m
  have hn := uint32_toFloat32_roundsTo n
  have hle : (m.toNat : ℚ) ≤ n.toNat := by exact_mod_cast UInt32.le_iff_toNat_le.1 h
  rw [le_iff hm.isFinite hn.isFinite]
  rcases hle.eq_or_lt with heq | hlt
  · have hmn : m = n := UInt32.toNat_inj.1 (by exact_mod_cast heq)
    rw [hmn]
  · exact hm.value_mono hn (by positivity) hlt

variable {x y : Float32}

/-- A product with a larger factor is not smaller. -/
theorem float32_mul_mono {z : Float32} (hx : x.isFinite) (hy : y.isFinite) (hz : z.isFinite) (hpos : 0 ≤ toRat x)
    (hy₀ : 0 ≤ toRat y) (hyz : toRat y < toRat z) (hlt : toRat x * toRat z < 2 ^ (127 : ℤ)) :
    (x * y).isFinite ∧ (x * z).isFinite ∧ toRat (x * y) ≤ toRat (x * z) := by
  have hle : toRat x * toRat y ≤ toRat x * toRat z := by gcongr
  have hxy := float32_mul_roundsTo hx hy (by
    rw [abs_of_nonneg (mul_nonneg hpos hy₀)]
    exact hle.trans_lt hlt)
  have hxz := float32_mul_roundsTo hx hz (by
    rw [abs_of_nonneg (mul_nonneg hpos (hy₀.trans hyz.le))]
    exact hlt)
  refine ⟨hxy.isFinite, hxz.isFinite, ?_⟩
  rcases hle.eq_or_lt with heq | hstrict
  · have hzero : toRat x = 0 := by
      by_contra hne
      exact hyz.ne (mul_left_cancel₀ hne heq)
    have hfirst : toRat (x * y) = 0 := hxy.zero (by rw [hzero, zero_mul])
    have hsecond : toRat (x * z) = 0 := hxz.zero (by rw [hzero, zero_mul])
    rw [hfirst, hsecond]
  · exact hxy.value_mono hxz (mul_nonneg hpos hy₀) hstrict

theorem roundAsUsize_eq (hx : x.isFinite) :
    FloatCast.roundAsUsize x = min ⌊toRat x + 1 / 2⌋.toNat (2 ^ 64 - 1) := by
  unfold FloatCast.roundAsUsize toRat
  have hfin : x.toModel.unpack.isFinite = true := hx
  cases h : x.toModel.unpack with
  | notANumber => rw [h] at hfin; cases hfin
  | infinity s => rw [h] at hfin; cases hfin
  | _ => rfl

theorem roundAsUsize_mono (hx : x.isFinite) (hy : y.isFinite) (h : toRat x ≤ toRat y) :
    FloatCast.roundAsUsize x ≤ FloatCast.roundAsUsize y := by
  rw [roundAsUsize_eq hx, roundAsUsize_eq hy]
  have hfloor : ⌊toRat x + 1 / 2⌋ ≤ ⌊toRat y + 1 / 2⌋ := Int.floor_mono (by linarith)
  exact min_le_min_right _ (Int.toNat_le_toNat hfloor)

theorem lenAsF32_spec {n : Nat} (hn : n < 2 ^ 23) :
    (FloatCast.lenAsF32 n).isFinite ∧ toRat (FloatCast.lenAsF32 n) = n := by
  have htoNat : (UInt64.ofNat n).toNat = n := by
    rw [UInt64.toNat_ofNat']
    omega
  have h := uint64_toFloat32 (UInt64.ofNat n) (by omega)
  rwa [htoNat] at h

end FloatRound
