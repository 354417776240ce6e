import EverythingImu.Fusion.LowPass

/-!
# The heading

The offset of the heading (`update_mag` of `vqf.rs`) over the exact reals.  The wrap takes off one turn at most, so the
angles stay within half a turn because the gain of the correction stays within 0 and 1 (`heading_bounded`).
-/

namespace EverythingImu.Fusion

/-- The timestep that an operation sets. -/
def VqfOp.newTimestep {K : Type} : VqfOp K → Option K
  | .setTimestep gyrTs => some gyrTs
  | .update _ _ _ | .setTauAcc _ | .setTauMag _ | .setBiasEstimate _ _ | .resetState => none

section Exact

variable [ExactFunctions]

/-- `π` and `exp` are those of the reals, and `atan2` gives an angle of at most half a turn. -/
structure ExactFunctions.InRadians : Prop where
  pi_eq : (Core.ExactAngles.pi : ℝ) = Real.pi
  exp_eq : ∀ x, ExactFunctions.exp x = Real.exp x
  abs_atan2_le : ∀ y x, |ExactFunctions.atan2 y x| ≤ Real.pi

theorem isZero_iff (x : ℝ) : Vqf.isZero x = true ↔ x = 0 := by
  have hzero : (0.0 : ℝ) = 0 := by norm_num
  rw [Vqf.isZero, decide_eq_true_iff, hzero, le_antisymm_iff]

theorem all_isZero_iff (v : Vector ℝ 3) : v.all Vqf.isZero = true ↔ v = .replicate 3 0 := by
  rw [Vector.all_eq_true]
  constructor
  · intro h
    ext i hi
    rw [Vector.getElem_replicate]
    exact (isZero_iff _).1 (h i hi)
  · rintro rfl i hi
    rw [Vector.getElem_replicate]
    exact (isZero_iff _).2 rfl

section InRadians

variable (radians : ExactFunctions.InRadians)
include radians

theorem abs_wrapPi_le {x : ℝ} (h : |x| ≤ 2 * Real.pi) : |Vqf.wrapPi x| ≤ Real.pi := by
  have hpi : (TrigScalar.pi : ℝ) = Real.pi := radians.pi_eq
  have htwo : (2.0 : ℝ) = 2 := by norm_num
  obtain ⟨hlow, hhigh⟩ := abs_le.1 h
  unfold Vqf.wrapPi
  rw [hpi, htwo]
  split
  · exact abs_le.2 ⟨by linarith, by linarith⟩
  · split
    · exact abs_le.2 ⟨by linarith, by linarith⟩
    · exact abs_le.2 ⟨by linarith, by linarith⟩

theorem gain_mem (tau : ℝ) {ts : ℝ} (hts : 0 ≤ ts) : gain tau ts ∈ Set.Icc 0 1 := by
  have hzero : (0.0 : ℝ) = 0 := by norm_num
  have hone : (1.0 : ℝ) = 1 := by norm_num
  have hexp : ∀ x : ℝ, VqfScalar.exp x = Real.exp x := radians.exp_eq
  unfold gain
  rw [hzero, hone, hexp]
  split
  · exact ⟨le_rfl, zero_le_one⟩
  · rename_i htau
    have hle : Real.exp (-ts / tau) ≤ 1 :=
      Real.exp_le_one_iff.2 (div_nonpos_of_nonpos_of_nonneg (by linarith) (not_le.1 htau).le)
    have hpos := Real.exp_pos (-ts / tau)
    exact ⟨by linarith, by linarith⟩

end InRadians

/-! ### The gain -/

/-- What the correction of the heading relies on. -/
structure HeadingInv (v : Vqf ℝ) : Prop where
  factor : 1 ≤ v.params.magRejectionFactor
  magTs : 0 ≤ v.coeffs.magTs
  kMag : v.coeffs.kMag ∈ Set.Icc 0 1
  kMagInit : v.state.kMagInit ∈ Set.Icc 0 1
  delta : |v.state.delta| ≤ Real.pi
  lastMagDisAngle : |v.state.lastMagDisAngle| ≤ Real.pi

variable {v : Vqf ℝ}

theorem rejectionGain_mem (h : HeadingInv v) : v.rejectionGain.2 ∈ Set.Icc 0 1 := by
  have hzero : (0.0 : ℝ) = 0 := by norm_num
  unfold Vqf.rejectionGain
  dsimp only
  split
  · split
    · split
      · rw [hzero]
        exact ⟨le_rfl, zero_le_one⟩
      · have hpos : 0 < v.params.magRejectionFactor := zero_lt_one.trans_le h.factor
        exact ⟨div_nonneg h.kMag.1 hpos.le, (div_le_one hpos).2 (h.kMag.2.trans h.factor)⟩
    · exact h.kMag
  · exact h.kMag

/-- The initial gain decays, but stays a gain. -/
theorem initialGain_mem {k : ℝ} (hk : k ∈ Set.Icc 0 1) (hinit : v.state.kMagInit ∈ Set.Icc 0 1) :
    (v.initialGain k).2 ∈ Set.Icc 0 1 ∧ (v.initialGain k).1.state.kMagInit ∈ Set.Icc 0 1 := by
  have hzero : (0.0 : ℝ) = 0 := by norm_num
  have hone : (1.0 : ℝ) = 1 := by norm_num
  have hnext : v.state.kMagInit / (v.state.kMagInit + 1) ∈ Set.Icc (0 : ℝ) 1 := by
    have hpos : 0 < v.state.kMagInit + 1 := by linarith [hinit.1]
    exact ⟨div_nonneg hinit.1 hpos.le, (div_le_one hpos).2 (by linarith)⟩
  unfold Vqf.initialGain
  rw [hzero, hone]
  dsimp only
  split
  · exact ⟨hk, hinit⟩
  · constructor
    · dsimp only
      split
      · exact hinit
      · exact hk
    · dsimp only
      split
      · exact ⟨le_rfl, zero_le_one⟩
      · exact hnext

theorem headingGain_mem (h : HeadingInv v) :
    v.headingGain ∈ Set.Icc 0 1 ∧ (v.rejectionGain.1.initialGain v.rejectionGain.2).1.state.kMagInit ∈ Set.Icc 0 1 := by
  refine initialGain_mem (rejectionGain_mem h) ?_
  obtain ⟨magRejectT, heq⟩ := Vqf.rejectionGain_writes v
  rw [heq]
  exact h.kMagInit

theorem abs_disagreement_le (radians : ExactFunctions.InRadians) (h : HeadingInv v) (magEarth : Vector ℝ 3) :
    |v.disagreement magEarth| ≤ Real.pi := by
  refine abs_wrapPi_le radians ((abs_sub _ _).trans ?_)
  have hatan2 : |VqfScalar.atan2 magEarth.x magEarth.y| ≤ Real.pi := radians.abs_atan2_le _ _
  linarith [h.delta]

theorem HeadingInv.correctHeading (radians : ExactFunctions.InRadians) (h : HeadingInv v) (magEarth : Vector ℝ 3) :
    HeadingInv (v.correctHeading magEarth) := by
  obtain ⟨hgain, hinit⟩ := headingGain_mem h
  have hdis := abs_disagreement_le radians h magEarth
  have hdelta : |v.state.delta + v.headingGain * v.disagreement magEarth| ≤ 2 * Real.pi := by
    have hstep : |v.headingGain * v.disagreement magEarth| ≤ Real.pi := by
      rw [abs_mul, abs_of_nonneg hgain.1]
      exact (mul_le_of_le_one_left (abs_nonneg _) hgain.2).trans hdis
    refine (abs_add_le _ _).trans ?_
    linarith [h.delta]
  obtain ⟨magRejectT, heq⟩ := Vqf.correctHeading_writes v magEarth
  rw [heq]
  exact { h with kMagInit := hinit, lastMagDisAngle := hdis, delta := abs_wrapPi_le radians hdelta }

/-! ### Runs -/

omit [ExactFunctions] in
theorem HeadingInv.of_sameEstimate {w : Vqf ℝ} (hsame : SameEstimate v w) (h : HeadingInv v) : HeadingInv w where
  factor := hsame.params ▸ h.factor
  magTs := hsame.coeffs ▸ h.magTs
  kMag := hsame.coeffs ▸ h.kMag
  kMagInit := hsame.kMagInit ▸ h.kMagInit
  delta := hsame.delta ▸ h.delta
  lastMagDisAngle := hsame.lastMagDisAngle ▸ h.lastMagDisAngle

theorem headingInv_parts (radians : ExactFunctions.InRadians) : PartsKeep HeadingInv := by
  refine .of_sameEstimate HeadingInv.of_sameEstimate ?inclination ?bias ?heading
  case inclination =>
    intro v h
    exact { h with }
  case bias =>
    intro v accE6Norm h
    obtain ⟨_, _, _, _, heq⟩ := v.updateBiasKalman_writes accE6Norm
    rw [heq]
    exact { h with }
  case heading =>
    intro v magEarth h
    exact h.correctHeading radians magEarth

theorem HeadingInv.setup (radians : ExactFunctions.InRadians) (h : HeadingInv v) (gyrTs accTs : ℝ) {magTs : ℝ}
    (hts : 0 ≤ magTs) : HeadingInv (v.setup gyrTs accTs magTs) :=
  { h with magTs := hts, kMag := gain_mem radians _ hts }

/-- A new filter, or one that has been reset. -/
theorem headingInv_fresh (radians : ExactFunctions.InRadians) (params : VqfParams ℝ) (coeffs : VqfCoeffs ℝ)
    (gyrTs accTs : ℝ) {magTs : ℝ} (hfactor : 1 ≤ params.magRejectionFactor) (hts : 0 ≤ magTs) :
    HeadingInv (Vqf.setup ⟨params, .default, coeffs⟩ gyrTs accTs magTs) := by
  have hzero : |(0.0 : ℝ)| ≤ Real.pi := by
    norm_num
    exact Real.pi_pos.le
  have hone : (1.0 : ℝ) ∈ Set.Icc (0 : ℝ) 1 := by norm_num
  exact ⟨hfactor, hts, gain_mem radians _ hts, hone, hzero, hzero⟩

theorem HeadingInv.apply (radians : ExactFunctions.InRadians) (h : HeadingInv v) (op : VqfOp ℝ)
    (hop : ∀ ts ∈ op.newTimestep, 0 ≤ ts) : HeadingInv (v.apply op) := by
  cases op with
  | update gyro accel mag => exact (headingInv_parts radians).update gyro accel mag h
  | setTimestep gyrTs => exact h.setup radians gyrTs gyrTs (hop gyrTs rfl)
  | setTauAcc tau => exact { h with }
  | setTauMag tau => exact { h with kMag := gain_mem radians _ h.magTs }
  | setBiasEstimate bias sigma => exact { h with }
  | resetState => exact headingInv_fresh radians _ _ _ _ h.factor h.magTs

theorem headingInv_run (radians : ExactFunctions.InRadians) (params : VqfParams ℝ) (gyrTs accTs magTs : ℝ)
    (hfactor : 1 ≤ params.magRejectionFactor) (hts : 0 ≤ magTs) (ops : List (VqfOp ℝ))
    (hops : ∀ op ∈ ops, ∀ ts ∈ op.newTimestep, 0 ≤ ts) :
    HeadingInv ((Vqf.withParamsAndTimesteps params gyrTs accTs magTs).run ops) :=
  List.foldlRecOn ops Vqf.apply (headingInv_fresh radians _ _ _ _ hfactor hts)
    fun _ h op hop => h.apply radians op (hops op hop)

/-- After every run the offset and the disagreement are within half a turn, and so is the disagreement that the next
sample of the magnetometer gives; the gain that it is corrected with is within 0 and 1. -/
theorem heading_bounded (radians : ExactFunctions.InRadians) (params : VqfParams ℝ) (gyrTs accTs magTs : ℝ)
    (hfactor : 1 ≤ params.magRejectionFactor) (hts : 0 ≤ magTs) (ops : List (VqfOp ℝ))
    (hops : ∀ op ∈ ops, ∀ ts ∈ op.newTimestep, 0 ≤ ts) :
    let v := (Vqf.withParamsAndTimesteps params gyrTs accTs magTs).run ops
    |v.state.delta| ≤ Real.pi ∧ |v.state.lastMagDisAngle| ≤ Real.pi ∧
      ∀ gyro accel mag : Vector ℝ 3, mag ≠ .replicate 3 0 →
        let u := (v.updateGyr gyro).updateAcc accel
        let magEarth := quatRotate u.state.quat6d mag
        let w := u.seeMag.watchField magEarth
        v.update gyro accel (some mag) = w.correctHeading magEarth ∧
          |w.disagreement magEarth| ≤ Real.pi ∧ w.headingGain ∈ Set.Icc 0 1 := by
  intro v
  have hinv : HeadingInv v := headingInv_run radians params gyrTs accTs magTs hfactor hts ops hops
  refine ⟨hinv.delta, hinv.lastMagDisAngle, ?_⟩
  intro gyro accel mag hmag u magEarth w
  have keep := headingInv_parts radians
  have hu : HeadingInv u := keep.updateAcc accel (keep.updateGyr gyro hinv)
  have hw : HeadingInv w := keep.watchField magEarth (keep.seeMag hu)
  refine ⟨?_, abs_disagreement_le radians hw magEarth, (headingGain_mem hw).1⟩
  exact Vqf.updateMag_of_nonzero (mt (all_isZero_iff mag).1 hmag)

end Exact

theorem inRadians_standard :
    letI := ExactFunctions.standard
    ExactFunctions.InRadians := by
  let := ExactFunctions.standard
  exact ⟨rfl, fun _ => rfl, fun _ _ => Complex.abs_arg_le_pi _⟩

/-- A field that points east of the heading. -/
theorem heading_bounded_east :
    letI := ExactFunctions.standard
    |((Vqf.new 0.01).run [.setTimestep 0.02, .update #v[0, 0, 1] #v[0, 0, 1] (some #v[1, 0, 0])]).state.delta|
      ≤ Real.pi := by
  let := ExactFunctions.standard
  refine (heading_bounded inRadians_standard .default 0.01 0.01 0.01 ?_ (by norm_num) _ ?_).1
  · show (1 : ℝ) ≤ 2.0
    norm_num
  · intro op hop ts hts
    rcases List.mem_cons.1 hop with rfl | hop
    · obtain rfl := Option.some.inj hts
      norm_num
    · rw [List.mem_singleton.1 hop] at hts
      cases hts

end EverythingImu.Fusion
