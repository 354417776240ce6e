import EverythingImu.Fusion.Heading

/-!
# The inclination

The correction of the inclination (`update_acc` of `vqf.rs`) over the exact reals.  The correction is made from the
half-angle of a unit direction, so that it turns the filtered acceleration exactly up, about a horizontal axis
(`inclination_aligned`).
-/

namespace EverythingImu.Fusion

open Quaternion

/-- The quaternion of a vector in the order w, i, j, k. -/
def quatOf (q : Vector ℝ 4) : ℍ[ℝ] := ofParts q.q0 q.q1 q.q2 q.q3

theorem normSq_quatOf (q : Vector ℝ 4) :
    normSq (quatOf q) = q.q0 * q.q0 + q.q1 * q.q1 + q.q2 * q.q2 + q.q3 * q.q3 := normSq_ofParts ..

theorem toVec_injective : Function.Injective Core.toVec := by
  intro v w h
  rw [v.eq_coordinates, w.eq_coordinates]
  have hx : v.x = w.x := congrArg QuaternionAlgebra.imI h
  have hy : v.y = w.y := congrArg QuaternionAlgebra.imJ h
  have hz : v.z = w.z := congrArg QuaternionAlgebra.imK h
  rw [hx, hy, hz]

theorem toVec_map_div (v : Vector ℝ 3) {n : ℝ} (hn : n ≠ 0) : n • Core.toVec (v.map (· / n)) = Core.toVec v := by
  ext <;> simp [Core.toVec, mul_div_cancel₀ _ hn]

section Exact

variable [ExactFunctions]

theorem quatOf_quatMultiply (p q : Vector ℝ 4) : quatOf (quatMultiply p q) = quatOf p * quatOf q := by
  ext <;> simp [quatOf, quatMultiply]

theorem quatOf_quatConj (q : Vector ℝ 4) : quatOf (quatConj q) = star (quatOf q) := by
  ext <;> simp [quatOf, quatConj]

theorem normSq_toVec (v : Vector ℝ 3) : normSq (Core.toVec v) = Vqf.normSq v := by
  rw [Core.toVec, normSq_ofParts, Vqf.normSq]
  ring

/-- `quat_rotate` leaves the real part out, which is zero. -/
theorem toVec_quatRotate (q : Vector ℝ 4) (v : Vector ℝ 3) :
    Core.toVec (quatRotate q v) = rotate (quatOf q) (Core.toVec v) := by
  have hzero : (0.0 : ℝ) = 0 := by norm_num
  ext <;> simp [Core.toVec, quatRotate, quatMultiply, quatConj, rotate, quatOf, hzero]
  ring

/-! ### Unit quaternions -/

theorem eps_pos : (0 : ℝ) < Core.EPS := by
  show (0 : ℝ) < 0.000001
  norm_num

theorem normSq_quatNormalize (q : Vector ℝ 4) : normSq (quatOf (quatNormalize q)) = 1 := by
  have hone : (1.0 : ℝ) = 1 := by norm_num
  have hzero : (0.0 : ℝ) = 0 := by norm_num
  have hsqrt : ∀ x : ℝ, TrigScalar.sqrt x = Real.sqrt x := fun _ => rfl
  rw [normSq_quatOf]
  unfold quatNormalize
  rw [hsqrt, hone, hzero]
  dsimp only
  split
  · simp
  · rename_i hlarge
    obtain ⟨n, hn⟩ : ∃ n, n = Real.sqrt (q.q0 * q.q0 + q.q1 * q.q1 + q.q2 * q.q2 + q.q3 * q.q3) := ⟨_, rfl⟩
    rw [← hn] at hlarge ⊢
    have hpos : 0 < n := eps_pos.trans_le (not_lt.1 (not_or.1 hlarge).2)
    have hsq : q.q0 * q.q0 + q.q1 * q.q1 + q.q2 * q.q2 + q.q3 * q.q3 = n * n := by
      rw [hn] at hpos ⊢
      rw [Real.mul_self_sqrt (Real.sqrt_pos.1 hpos).le]
    simp only [Vector.getElem_map, Vector.q0, Vector.q1, Vector.q2, Vector.q3] at hsq ⊢
    field_simp
    linear_combination hsq

theorem quatNormalize_unit {q : Vector ℝ 4} (h : normSq (quatOf q) = 1) : quatNormalize q = q := by
  have hsqrt : ∀ x : ℝ, TrigScalar.sqrt x = Real.sqrt x := fun _ => rfl
  have heps : ¬ (1 : ℝ) < Core.EPS := by
    show ¬ (1 : ℝ) < 0.000001
    norm_num
  have hfinite : VqfScalar.isFinite (1 : ℝ) = true := rfl
  rw [normSq_quatOf] at h
  unfold quatNormalize
  rw [h, hsqrt, Real.sqrt_one, if_neg (by simp [heps, hfinite])]
  ext i hi
  simp

/-- The correction for a unit direction is a unit quaternion, and has no vertical component. -/
theorem normSq_accCorr {g : Vector ℝ 3} (hg : Vqf.normSq g = 1) :
    normSq (quatOf (Core.accCorr g)) = 1 ∧ (quatOf (Core.accCorr g)).imK = 0 := by
  have hone : (1.0 : ℝ) = 1 := by norm_num
  have htwo : (2.0 : ℝ) = 2 := by norm_num
  have hzero : (0.0 : ℝ) = 0 := by norm_num
  have hsqrt : ∀ x : ℝ, TrigScalar.sqrt x = Real.sqrt x := fun _ => rfl
  rw [Vqf.normSq] at hg
  rw [normSq_quatOf]
  unfold Core.accCorr
  rw [hone, htwo, hzero, hsqrt]
  obtain ⟨w, hw⟩ : ∃ w, w = Real.sqrt ((g.z + 1) / 2) := ⟨_, rfl⟩
  dsimp only
  rw [← hw]
  split
  · rename_i hlarge
    have hpos : 0 < w := eps_pos.trans hlarge
    have hsq : 2 * (w * w) = g.z + 1 := by
      rw [hw] at hpos ⊢
      rw [Real.mul_self_sqrt (Real.sqrt_pos.1 hpos).le]
      ring
    have hz : g.z = 2 * (w * w) - 1 := by linarith
    refine ⟨?_, rfl⟩
    rw [hz] at hg
    have hxy : g.x * g.x + g.y * g.y = 4 * (w * w) * (1 - w * w) := by linear_combination hg
    have hhalf : (0.5 * g.y / w) * (0.5 * g.y / w) + (-0.5 * g.x / w) * (-0.5 * g.x / w)
        = (g.x * g.x + g.y * g.y) / (4 * (w * w)) := by
      field_simp
      ring
    have hsum : w * w + (g.x * g.x + g.y * g.y) / (4 * (w * w)) = 1 := by
      rw [hxy, mul_div_cancel_left₀ _ (by positivity)]
      ring
    show w * w + (0.5 * g.y / w) * (0.5 * g.y / w) + (-0.5 * g.x / w) * (-0.5 * g.x / w) + 0 * 0 = 1
    linear_combination hhalf + hsum
  · exact ⟨by simp, rfl⟩

/-- Straight down is turned up by half a turn about the first axis. -/
theorem rotate_accCorr_down : rotate (quatOf (Core.accCorr #v[0, 0, -1])) (Core.toVec #v[0, 0, -1]) = up := by
  have hone : (1.0 : ℝ) = 1 := by norm_num
  have htwo : (2.0 : ℝ) = 2 := by norm_num
  have hzero : (0.0 : ℝ) = 0 := by norm_num
  have hroot : TrigScalar.sqrt (((#v[0, 0, -1] : Vector ℝ 3).z + 1.0) / 2.0) = (0 : ℝ) := by
    show Real.sqrt ((-1 + (1.0 : ℝ)) / 2.0) = 0
    rw [hone, neg_add_cancel, zero_div, Real.sqrt_zero]
  have hcorr : Core.accCorr #v[0, 0, (-1 : ℝ)] = #v[0, 1, 0, 0] := by
    unfold Core.accCorr
    rw [hroot, hone, hzero]
    exact if_neg (not_lt.2 eps_pos.le)
  rw [hcorr]
  ext <;> simp [rotate, quatOf, Core.toVec, up]

/-! ### The direction -/

variable {v : Vqf ℝ}

theorem normSq_quatRotate {q : Vector ℝ 4} (h : normSq (quatOf q) = 1) (a : Vector ℝ 3) :
    Vqf.normSq (quatRotate q a) = Vqf.normSq a := by
  rw [← normSq_toVec, toVec_quatRotate, normSq_rotate h, normSq_toVec]

/-- The measured direction is that of the filtered acceleration. -/
theorem smul_accE6 (h : normSq (quatOf v.state.accQuat) = 1)
    (hlarge : Core.EPS < Real.sqrt (Vqf.normSq v.state.lastAccLp)) :
    Real.sqrt (Vqf.normSq v.state.lastAccLp) • Core.toVec v.accE6
      = rotate (quatOf v.state.accQuat) (Core.toVec v.state.lastAccLp) := by
  have hsqrt : ∀ x : ℝ, TrigScalar.sqrt x = Real.sqrt x := fun _ => rfl
  unfold Vqf.accE6
  dsimp only
  rw [hsqrt, normSq_quatRotate h, if_pos hlarge, toVec_map_div _ (eps_pos.trans hlarge).ne', toVec_quatRotate]

theorem normSq_accE6 (h : normSq (quatOf v.state.accQuat) = 1) : Vqf.normSq v.accE6 = 1 := by
  by_cases hlarge : Core.EPS < Real.sqrt (Vqf.normSq v.state.lastAccLp)
  · have hpos := eps_pos.trans hlarge
    have hnorm := congrArg normSq (smul_accE6 h hlarge)
    rw [normSq_smul, normSq_rotate h, normSq_toVec, normSq_toVec, Real.sq_sqrt (Real.sqrt_pos.1 hpos).le] at hnorm
    exact mul_left_cancel₀ (Real.sqrt_pos.1 hpos).ne' (hnorm.trans (mul_one _).symm)
  · have hsqrt : ∀ x : ℝ, TrigScalar.sqrt x = Real.sqrt x := fun _ => rfl
    unfold Vqf.accE6
    dsimp only
    rw [hsqrt, normSq_quatRotate h, if_neg hlarge]
    simp [Vqf.normSq]
    norm_num

/-! ### The correction -/

theorem correctInclination_accQuat (h : normSq (quatOf v.state.accQuat) = 1) :
    quatOf v.correctInclination.state.accQuat = quatOf (Core.accCorr v.accE6) * quatOf v.state.accQuat := by
  have hunit : normSq (quatOf (quatMultiply (Core.accCorr v.accE6) v.state.accQuat)) = 1 := by
    rw [quatOf_quatMultiply, map_mul, (normSq_accCorr (normSq_accE6 h)).1, h, one_mul]
  show quatOf (quatNormalize (quatMultiply (Core.accCorr v.accE6) v.state.accQuat)) = _
  rw [quatNormalize_unit hunit, quatOf_quatMultiply]

/-- The filtered acceleration is turned up. -/
theorem quatRotate_correctInclination (h : normSq (quatOf v.state.accQuat) = 1)
    (hlarge : Core.EPS < Real.sqrt (Vqf.normSq v.state.lastAccLp))
    (hbranch : Core.EPS < Real.sqrt ((v.accE6.z + 1) / 2) ∨ v.accE6 = #v[0, 0, -1]) :
    quatRotate v.correctInclination.state.accQuat v.state.lastAccLp
      = #v[0, 0, Real.sqrt (Vqf.normSq v.state.lastAccLp)] := by
  have hup : rotate (quatOf (Core.accCorr v.accE6)) (Core.toVec v.accE6) = up := by
    rcases hbranch with hbranch | hdown
    · exact Core.rotate_accCorr ((normSq_toVec _).trans (normSq_accE6 h)) hbranch
    · rw [hdown]
      exact rotate_accCorr_down
  apply toVec_injective
  rw [toVec_quatRotate, correctInclination_accQuat h, rotate_mul, ← smul_accE6 h hlarge, rotate_smul, hup]
  ext <;> simp [up, Core.toVec]

/-- The correction turns about a horizontal axis. -/
theorem correctInclination_horizontal (h : normSq (quatOf v.state.accQuat) = 1) :
    (quatMultiply v.correctInclination.state.accQuat (quatConj v.state.accQuat)).q3 = 0 := by
  have hcorr : quatOf (quatMultiply v.correctInclination.state.accQuat (quatConj v.state.accQuat))
      = quatOf (Core.accCorr v.accE6) := by
    rw [quatOf_quatMultiply, quatOf_quatConj, correctInclination_accQuat h, mul_assoc, self_mul_star, h, coe_one,
      mul_one]
  have hk := congrArg QuaternionAlgebra.imK hcorr
  rw [(normSq_accCorr (normSq_accE6 h)).2] at hk
  exact hk

/-! ### Runs -/

def UnitAccQuat (v : Vqf ℝ) : Prop := normSq (quatOf v.state.accQuat) = 1

omit [ExactFunctions] in
theorem UnitAccQuat.of_accQuat {w : Vqf ℝ} (heq : w.state.accQuat = v.state.accQuat) (h : UnitAccQuat v) :
    UnitAccQuat w := by
  rw [UnitAccQuat, heq]
  exact h

theorem unitAccQuat_parts : PartsKeep UnitAccQuat := by
  refine .of_sameEstimate (fun hsame h => h.of_accQuat hsame.accQuat) ?inclination ?bias ?heading
  case inclination =>
    intro v h
    exact normSq_quatNormalize _
  case bias =>
    intro v accE6Norm h
    obtain ⟨_, _, _, _, heq⟩ := v.updateBiasKalman_writes accE6Norm
    rw [heq]
    exact h
  case heading =>
    intro v magEarth h
    obtain ⟨_, heq⟩ := v.correctHeading_writes magEarth
    rw [heq]
    exact h

theorem unitAccQuat_fresh (params : VqfParams ℝ) (coeffs : VqfCoeffs ℝ) (gyrTs accTs magTs : ℝ) :
    UnitAccQuat (Vqf.setup ⟨params, .default, coeffs⟩ gyrTs accTs magTs) := by
  show normSq (quatOf #v[1.0, 0.0, 0.0, 0.0]) = 1
  rw [normSq_quatOf]
  norm_num

theorem UnitAccQuat.apply (h : UnitAccQuat v) (op : VqfOp ℝ) : UnitAccQuat (v.apply op) := by
  cases op with
  | update gyro accel mag => exact unitAccQuat_parts.update gyro accel mag h
  | setTimestep gyrTs => exact h
  | setTauAcc tau => exact h
  | setTauMag tau => exact h
  | setBiasEstimate bias sigma => exact h
  | resetState => exact unitAccQuat_fresh _ _ _ _ _

theorem Vqf.Reachable.unitAccQuat (h : v.Reachable) : UnitAccQuat v := by
  obtain ⟨params, gyrTs, accTs, magTs, ops, rfl⟩ := h
  exact StepRun.foldl_invariant (fun _ op h => h.apply op) (unitAccQuat_fresh _ _ _ _ _) ops

/-- The states that an update can be in when it gets to the accelerometer, and those between updates. -/
def Vqf.AtAcc (w : Vqf ℝ) : Prop := ∃ v : Vqf ℝ, v.Reachable ∧ (w = v ∨ ∃ gyro, w = v.updateGyr gyro)

/-- The direction of gravity that `update_acc` corrects by. -/
noncomputable def Vqf.gravitySeen (v : Vqf ℝ) (acc : Vector ℝ 3) : Vector ℝ 3 := ((v.watchAcc acc).filterAcc acc).accE6

/-- The update with a sample is the correction of the state with the filtered acceleration. -/
theorem updateAcc_writes_inclination {acc : Vector ℝ 3} (hacc : acc ≠ .replicate 3 0) (v : Vqf ℝ) :
    ∃ u : Vqf ℝ, u.state.accQuat = v.state.accQuat ∧ u.accE6 = v.gravitySeen acc ∧
      (v.updateAcc acc).state.accQuat = u.correctInclination.state.accQuat ∧
      (v.updateAcc acc).state.lastAccLp = u.state.lastAccLp := by
  refine ⟨(v.watchAcc acc).filterAcc acc, ?_, rfl, ?_⟩
  · obtain ⟨_, _, _, _, _, heq⟩ := v.watchAcc_writes acc
    rw [heq]
    rfl
  · rw [Vqf.updateAcc_of_nonzero (mt (all_isZero_iff acc).1 hacc)]
    obtain ⟨_, _, _, _, heq⟩ := ((v.watchAcc acc).filterAcc acc).correctInclination.updateBiasKalman_writes
      ((v.watchAcc acc).filterAcc acc).accE6
    rw [heq]
    exact ⟨rfl, rfl⟩

/-- After a sample the estimate is a unit quaternion; it turns the filtered acceleration up, unless that is too small or
close to straight down but not straight down, and the step has turned it about a horizontal axis in any case. -/
theorem inclination_aligned {v : Vqf ℝ} (hv : v.AtAcc) (acc : Vector ℝ 3) (hacc : acc ≠ .replicate 3 0) :
    let q := (v.updateAcc acc).state.accQuat
    let a := (v.updateAcc acc).state.lastAccLp
    let g := v.gravitySeen acc
    q.q0 * q.q0 + q.q1 * q.q1 + q.q2 * q.q2 + q.q3 * q.q3 = 1 ∧
      (Core.EPS < Real.sqrt (Vqf.normSq a) → Core.EPS < Real.sqrt ((g.z + 1) / 2) ∨ g = #v[0, 0, -1] →
        quatRotate q a = #v[0, 0, Real.sqrt (Vqf.normSq a)]) ∧
      (quatMultiply q (quatConj v.state.accQuat)).q3 = 0 := by
  intro q a g
  have hunit : UnitAccQuat v := by
    obtain ⟨w, hw, rfl | ⟨gyro, rfl⟩⟩ := hv
    · exact hw.unitAccQuat
    · exact unitAccQuat_parts.updateGyr gyro hw.unitAccQuat
  have hq : UnitAccQuat (v.updateAcc acc) := unitAccQuat_parts.updateAcc acc hunit
  obtain ⟨u, hu, hg, hquat, hlp⟩ := updateAcc_writes_inclination hacc v
  have hunitU : UnitAccQuat u := by
    rw [UnitAccQuat, hu]
    exact hunit
  refine ⟨(normSq_quatOf q).symm.trans hq, ?_, ?_⟩
  · intro hlarge hbranch
    show quatRotate (v.updateAcc acc).state.accQuat (v.updateAcc acc).state.lastAccLp =
      #v[0, 0, Real.sqrt (Vqf.normSq a)]
    rw [show a = u.state.lastAccLp from hlp] at hlarge ⊢
    rw [hquat, hlp]
    exact quatRotate_correctInclination hunitU hlarge (by rw [hg]; exact hbranch)
  · show (quatMultiply (v.updateAcc acc).state.accQuat (quatConj v.state.accQuat)).q3 = 0
    rw [hquat, ← hu]
    exact correctInclination_horizontal hunitU

/-- The first sample of a new filter is its first filtered acceleration and direction. -/
theorem new_first_sample (gyrTs : ℝ) {acc : Vector ℝ 3} (hacc : acc ≠ .replicate 3 0) (hunit : Vqf.normSq acc = 1) :
    ((Vqf.new gyrTs).updateAcc acc).state.lastAccLp = acc ∧ (Vqf.new gyrTs).gravitySeen acc = acc := by
  have hone : (1.0 : ℝ) = 1 := by norm_num
  have hzero : (0.0 : ℝ) = 0 := by norm_num
  have hsqrt : ∀ x : ℝ, TrigScalar.sqrt x = Real.sqrt x := fun _ => rfl
  have hlevel : ∀ x : Vector ℝ 3, quatRotate #v[1.0, 0.0, 0.0, 0.0] x = x := by
    intro x
    apply toVec_injective
    rw [toVec_quatRotate]
    ext <;> simp [rotate, quatOf, Core.toVec, hone, hzero]
  have hfilter : (((Vqf.new gyrTs).watchAcc acc).filterAcc acc).state.lastAccLp = acc ∧
      (((Vqf.new gyrTs).watchAcc acc).filterAcc acc).state.accQuat = #v[1.0, 0.0, 0.0, 0.0] := by
    obtain ⟨_, _, _, _, _, heq⟩ := (Vqf.new gyrTs).watchAcc_writes acc
    rw [heq]
    refine ⟨?_, rfl⟩
    show (filterVecN (quatRotate #v[1.0, 0.0, 0.0, 0.0] acc) _ (.replicate 3 none)).1 = acc
    rw [hlevel]
    ext i hi
    rw [getElem_filterVecN_fst _ _ _ hi, Vector.getElem_replicate, filterComponent]
  constructor
  · rw [Vqf.updateAcc_of_nonzero (mt (all_isZero_iff acc).1 hacc)]
    obtain ⟨_, _, _, _, heq⟩ := (((Vqf.new gyrTs).watchAcc acc).filterAcc acc).correctInclination
      |>.updateBiasKalman_writes (((Vqf.new gyrTs).watchAcc acc).filterAcc acc).accE6
    rw [heq]
    exact hfilter.1
  · rw [Vqf.gravitySeen, Vqf.accE6, hfilter.1, hfilter.2]
    have heps : (Core.EPS : ℝ) < 1 := by
      show (0.000001 : ℝ) < 1
      norm_num
    rw [hlevel, hsqrt, hunit, Real.sqrt_one, if_pos heps]
    ext i hi
    simp

end Exact

/-- A new filter turns the gravity of a device on its side up with the first sample. -/
theorem inclination_aligned_sideways :
    letI := ExactFunctions.standard
    quatRotate ((Vqf.new (0.01 : ℝ)).updateAcc #v[0, 1, 0]).state.accQuat #v[0, 1, 0] = #v[0, 0, 1] := by
  let := ExactFunctions.standard
  have hacc : (#v[0, 1, 0] : Vector ℝ 3) ≠ .replicate 3 0 := fun h => one_ne_zero (congrArg Vector.y h)
  have hunit : Vqf.normSq (#v[0, 1, 0] : Vector ℝ 3) = 1 := by simp [Vqf.normSq]
  have hnew : (Vqf.new (0.01 : ℝ)).AtAcc := ⟨_, ⟨.default, 0.01, 0.01, 0.01, [], rfl⟩, .inl rfl⟩
  obtain ⟨hlp, hseen⟩ := new_first_sample (0.01 : ℝ) hacc hunit
  have halign := (inclination_aligned hnew _ hacc).2.1
  rw [hlp, hseen, hunit, Real.sqrt_one] at halign
  refine halign ?_ (.inl ?_)
  · show (0.000001 : ℝ) < 1
    norm_num
  · show (0.000001 : ℝ) < Real.sqrt ((0 + 1) / 2)
    rw [Real.lt_sqrt (by norm_num)]
    norm_num

end EverythingImu.Fusion
