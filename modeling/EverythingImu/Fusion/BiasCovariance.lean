import EverythingImu.Fusion.Heading
import EverythingImu.Library.KalmanGain

/-!
# The covariance of the bias

The Kalman filter of the gyroscope bias (`update_bias_kalman` of `vqf.rs`) over the exact reals.  Its covariance stays
symmetric and positive semidefinite, for either measurement and whatever the filtered rotation is, its diagonal stays
within the initial variance or the one that was set last, and the bias stays within its clip (`biasP_covariance`).
-/

namespace EverythingImu.Fusion

section Code

variable {K : Type} [VqfScalar K]

/-- The bias and its standard deviation. -/
def Vqf.biasEstimate (v : Vqf K) : Vector K 3 × K :=
  let trace := v.state.biasP.x.x + v.state.biasP.y.y + v.state.biasP.z.z
  (v.state.bias, TrigScalar.sqrt (trace / 3.0))

end Code

/-! ### Matrices -/

namespace Mat3

def toMatrix (m : Mat3 ℝ) : Matrix (Fin 3) (Fin 3) ℝ := .of m.at

@[simp] theorem toMatrix_apply (m : Mat3 ℝ) (i j : Fin 3) : m.toMatrix i j = m.at i j := rfl

theorem toMatrix_ofFn (f : Fin 3 → Fin 3 → ℝ) : (ofFn f).toMatrix = .of f := by
  ext i j
  simp

theorem toMatrix_transpose (m : Mat3 ℝ) : (ofFn fun i j => m.at j i).toMatrix = m.toMatrix.transpose := by
  ext i j
  simp

theorem toMatrix_add (a b : Mat3 ℝ) :
    toMatrix (Vector.zipWith (Vector.zipWith (· + ·)) a b) = a.toMatrix + b.toMatrix := by
  ext i j
  simp [Mat3.at]

theorem toMatrix_sub (a b : Mat3 ℝ) :
    toMatrix (Vector.zipWith (Vector.zipWith (· - ·)) a b) = a.toMatrix - b.toMatrix := by
  ext i j
  simp [Mat3.at]

end Mat3

theorem abs_clamp_le (x : ℝ) {c : ℝ} (hc : 0 ≤ c) : |Scalar.clamp x (-c) c| ≤ c := by
  unfold Scalar.clamp
  split
  · rw [abs_neg, abs_of_nonneg hc]
  · split
    · rw [abs_of_nonneg hc]
    · exact abs_le.2 ⟨by linarith, by linarith⟩

section Exact

variable [ExactFunctions]

theorem toMatrix_diagonal (d : Vector ℝ 3) : (diagonal d).toMatrix = .diagonal d.get := by
  have hzero : (0.0 : ℝ) = 0 := by norm_num
  ext i j
  rw [diagonal, hzero, Mat3.toMatrix_ofFn, Matrix.diagonal_apply]
  rfl

theorem toMatrix_matMul (a b : Mat3 ℝ) : (Vqf.matMul a b).toMatrix = a.toMatrix * b.toMatrix := by
  ext i j
  rw [Vqf.matMul, Mat3.toMatrix_ofFn, Matrix.mul_apply, Fin.sum_univ_three]
  rfl

/-! ### The invariant -/

/-- The parameters that the Kalman filter relies on. -/
structure VqfParams.Spread (p : VqfParams ℝ) : Prop where
  sigmaInit : 0 < p.biasSigmaInit
  forgettingTime : 0 < p.biasForgettingTime
  clip : 0 ≤ p.biasClip
  sigmaMotion : 0 < p.biasSigmaMotion
  sigmaRest : 0 < p.biasSigmaRest

/-- The pseudo-inverse of a positive definite matrix is its inverse. -/
def ExactFunctions.InvertsPosDef : Prop :=
  ∀ s : Mat3 ℝ, s.toMatrix.PosDef →
    ∃ m : Mat3 ℝ, ExactFunctions.pseudoInverse s Core.EPS = some m ∧ m.toMatrix = s.toMatrix⁻¹

/-- The coefficients of the Kalman filter. -/
structure BiasCoeffs (p : VqfParams ℝ) (c : VqfCoeffs ℝ) : Prop where
  gyrTs : 0 < c.gyrTs
  biasP0 : c.biasP0 = toRad p.biasSigmaInit * toRad p.biasSigmaInit
  biasV : 0 ≤ c.biasV
  biasMotionW : 0 < c.biasMotionW
  biasVerticalW : 0 < c.biasVerticalW
  biasRestW : 0 < c.biasRestW

/-- A covariance whose diagonal is within the initial variance or `last`, and a bias within its clip. -/
structure BiasInv (last : ℝ) (v : Vqf ℝ) : Prop where
  spread : v.params.Spread
  coeffs : BiasCoeffs v.params v.coeffs
  posSemidef : v.state.biasP.toMatrix.PosSemidef
  diag : ∀ i, v.state.biasP.at i i ≤ max v.coeffs.biasP0 last
  bias : ∀ i (hi : i < 3), |v.state.bias[i]| ≤ v.biasClip

section Radians

variable (hpi : (Core.ExactAngles.pi : ℝ) = Real.pi)
include hpi

theorem toRad_eq (x : ℝ) : toRad x = x * Real.pi / 180 := by
  have hlit : (180.0 : ℝ) = 180 := by norm_num
  have htrig : (TrigScalar.pi : ℝ) = Real.pi := hpi
  rw [toRad, hlit, htrig]

theorem toRad_pos {x : ℝ} (hx : 0 < x) : 0 < toRad x := by
  have := Real.pi_pos
  rw [toRad_eq hpi]
  positivity

theorem biasClip_nonneg {v : Vqf ℝ} (h : v.params.Spread) : 0 ≤ v.biasClip := by
  have hclip := h.clip
  have := Real.pi_pos
  rw [Vqf.biasClip, toRad_eq hpi]
  positivity

theorem biasCoeffs_setup {p : VqfParams ℝ} (h : p.Spread) {gyrTs : ℝ} (hts : 0 < gyrTs) (accTs magTs : ℝ) :
    BiasCoeffs p (.setup p gyrTs accTs magTs) := by
  have hinit := toRad_pos hpi h.sigmaInit
  have hmotion := toRad_pos hpi h.sigmaMotion
  have hrest := toRad_pos hpi h.sigmaRest
  have hforgetting := h.forgettingTime
  have hmotionW : 0 < toRad p.biasSigmaMotion * toRad p.biasSigmaMotion / gyrTs := by positivity
  have hvertical : 0 < larger p.biasVerticalForgettingFactor (1e-12 : ℝ) := by
    have hlit : (0 : ℝ) < 1e-12 := by norm_num
    unfold larger
    split
    · exact hlit
    · rename_i hle
      exact hlit.trans_le (not_lt.1 hle)
  exact {
    gyrTs := hts
    biasP0 := rfl
    biasV := show 0 ≤ toRad p.biasSigmaInit * toRad p.biasSigmaInit * gyrTs / p.biasForgettingTime by positivity
    biasMotionW := hmotionW
    biasVerticalW := div_pos hmotionW hvertical
    biasRestW := show 0 < toRad p.biasSigmaRest * toRad p.biasSigmaRest / gyrTs by positivity }

end Radians

/-! ### The steps of the filter -/

variable {v : Vqf ℝ} {last : ℝ}

/-- What the diagonal grows by. -/
noncomputable def growth (v : Vqf ℝ) (i : Fin 3) : ℝ :=
  if v.state.biasP.at i i < v.coeffs.biasP0 then
    smaller (v.state.biasP.at i i + v.coeffs.biasV) v.coeffs.biasP0 - v.state.biasP.at i i
  else 0

theorem toMatrix_inflateBiasP (v : Vqf ℝ) :
    v.inflateBiasP.state.biasP.toMatrix = v.state.biasP.toMatrix + .diagonal (growth v) := by
  ext i j
  rw [Matrix.add_apply, Matrix.diagonal_apply, growth]
  show (Mat3.ofFn _).at i j = _
  rw [Mat3.at_ofFn]
  by_cases hij : i = j
  · subst hij
    by_cases hsmall : v.state.biasP.at i i < v.coeffs.biasP0
    · simp [hsmall]
    · simp [hsmall]
  · simp [hij]

theorem smaller_le (x y : ℝ) : smaller x y ≤ y := by
  unfold smaller
  split
  · exact le_rfl
  · rename_i h
    exact not_lt.1 h

theorem growth_nonneg (h : BiasInv last v) (i : Fin 3) : 0 ≤ growth v i := by
  unfold growth
  split
  · rename_i hsmall
    unfold smaller
    split
    · linarith
    · linarith [h.coeffs.biasV]
  · exact le_rfl

theorem BiasInv.inflateBiasP (h : BiasInv last v) : BiasInv last v.inflateBiasP := by
  have hgrown := toMatrix_inflateBiasP v
  refine { h with posSemidef := ?_, diag := ?_ }
  · rw [hgrown]
    exact h.posSemidef.add (.diagonal (growth_nonneg h))
  · intro i
    have hentry := congrFun (congrFun hgrown i) i
    rw [Matrix.add_apply, Matrix.diagonal_apply_eq, Mat3.toMatrix_apply, Mat3.toMatrix_apply, growth] at hentry
    rw [hentry]
    show _ ≤ max v.coeffs.biasP0 last
    split
    · have hle := smaller_le (v.state.biasP.at i i + v.coeffs.biasV) v.coeffs.biasP0
      have hmax := le_max_left v.coeffs.biasP0 last
      linarith
    · linarith [h.diag i]

/-- With noise in each component the filter takes off what the measurement tells. -/
theorem correctBias_eq (inverts : ExactFunctions.InvertsPosDef) (h : BiasInv last v) (e : Vector ℝ 3)
    {w : Vector ℝ 3} (hw : ∀ i, 0 < w.get i) (r : Mat3 ℝ) :
    ∃ bias : Vector ℝ 3, ∃ biasP : Mat3 ℝ,
      v.correctBias e w r = { v with state := { v.state with bias, biasP } } ∧
      (∃ unclipped : Vector ℝ 3, bias = unclipped.map fun x => Scalar.clamp x (-v.biasClip) v.biasClip) ∧
      biasP.toMatrix = v.state.biasP.toMatrix
        - KalmanGain.gain v.state.biasP.toMatrix (.diagonal w.get) r.toMatrix * r.toMatrix *
          v.state.biasP.toMatrix := by
  obtain ⟨s, hs⟩ : ∃ s : Mat3 ℝ, s = Vector.zipWith (Vector.zipWith (· + ·)) (diagonal w)
    (Vqf.matMul (Vqf.matMul r v.state.biasP) (.ofFn fun i j => r.at j i)) := ⟨_, rfl⟩
  have hinnovation : s.toMatrix = KalmanGain.innovation v.state.biasP.toMatrix (.diagonal w.get) r.toMatrix := by
    rw [hs, Mat3.toMatrix_add, toMatrix_diagonal, toMatrix_matMul, toMatrix_matMul, Mat3.toMatrix_transpose]
    rfl
  have hposDef : s.toMatrix.PosDef := by
    rw [hinnovation]
    exact KalmanGain.posDef_innovation h.posSemidef (.diagonal hw)
  obtain ⟨m, hpinv, hm⟩ := inverts s hposDef
  have hcorrect : v.correctBias e w r = { v with
      state := { v.state with
        bias := (Vector.zipWith (· + ·) v.state.bias (Vqf.mulVec
          (Vqf.matMul (Vqf.matMul v.state.biasP (.ofFn fun i j => r.at j i)) m)
          (e.map fun x => Scalar.clamp x (-v.biasClip) v.biasClip))).map
            fun x => Scalar.clamp x (-v.biasClip) v.biasClip
        biasP := Vector.zipWith (Vector.zipWith (· - ·)) v.state.biasP (Vqf.matMul (Vqf.matMul
          (Vqf.matMul (Vqf.matMul v.state.biasP (.ofFn fun i j => r.at j i)) m) r) v.state.biasP) } } := by
    have hpinv' : VqfScalar.pseudoInverse s (Core.EPS : ℝ) = some m := hpinv
    unfold Vqf.correctBias
    dsimp only
    rw [← hs, hpinv']
  refine ⟨_, _, hcorrect, ⟨_, rfl⟩, ?_⟩
  rw [Mat3.toMatrix_sub, toMatrix_matMul, toMatrix_matMul, toMatrix_matMul, toMatrix_matMul, Mat3.toMatrix_transpose,
    hm, hinnovation, KalmanGain.gain]

theorem BiasInv.correctBias (hpi : (Core.ExactAngles.pi : ℝ) = Real.pi) (inverts : ExactFunctions.InvertsPosDef)
    (h : BiasInv last v) (e : Vector ℝ 3) {w : Vector ℝ 3} (hw : ∀ i, 0 < w.get i) (r : Mat3 ℝ) :
    BiasInv last (v.correctBias e w r) := by
  have hnoise : (Matrix.diagonal w.get).PosDef := .diagonal hw
  obtain ⟨bias, biasP, heq, ⟨unclipped, rfl⟩, hbiasP⟩ := correctBias_eq inverts h e hw r
  rw [heq]
  refine { h with posSemidef := ?_, diag := ?_, bias := ?_ }
  · show biasP.toMatrix.PosSemidef
    rw [hbiasP]
    exact KalmanGain.posSemidef_sub_gain_mul h.posSemidef hnoise
  · intro i
    have htaken := (KalmanGain.posSemidef_gain_mul (R := r.toMatrix) h.posSemidef hnoise).diag_nonneg (i := i)
    have hentry := congrFun (congrFun hbiasP i) i
    rw [Matrix.sub_apply, Mat3.toMatrix_apply, Mat3.toMatrix_apply] at hentry
    show biasP.at i i ≤ max v.coeffs.biasP0 last
    linarith [h.diag i]
  · intro i hi
    rw [Vector.getElem_map]
    exact abs_clamp_le _ (biasClip_nonneg hpi h.spread)

/-- The variances of either measurement are positive. -/
theorem biasMeasurement_pos (h : BiasCoeffs v.params v.coeffs) {accE6Norm : Vector ℝ 3} {biasLp : Vector ℝ 2}
    {r rMeas : Mat3 ℝ} {e w : Vector ℝ 3} (hmeasured : v.biasMeasurement accE6Norm biasLp r = some (e, w, rMeas))
    (i : Fin 3) : 0 < w.get i := by
  unfold Vqf.biasMeasurement at hmeasured
  dsimp only at hmeasured
  split at hmeasured
  · cases hmeasured
    fin_cases i <;> exact h.biasRestW
  · split at hmeasured
    · cases hmeasured
      fin_cases i
      · exact h.biasMotionW
      · exact h.biasMotionW
      · exact h.biasVerticalW
    · cases hmeasured

theorem BiasInv.updateBiasKalman (hpi : (Core.ExactAngles.pi : ℝ) = Real.pi)
    (inverts : ExactFunctions.InvertsPosDef) (h : BiasInv last v) (accE6Norm : Vector ℝ 3) :
    BiasInv last (v.updateBiasKalman accE6Norm) := by
  unfold Vqf.updateBiasKalman
  split
  · exact h
  · have hfiltered : BiasInv last v.filterMotionBias.1 := { h with }
    dsimp only
    split
    · rename_i e w r hmeasured
      exact hfiltered.inflateBiasP.correctBias hpi inverts e (biasMeasurement_pos hfiltered.coeffs hmeasured) r
    · exact hfiltered.inflateBiasP

/-! ### Runs -/

theorem BiasInv.of_sameEstimate {w : Vqf ℝ} (hsame : SameEstimate v w) (h : BiasInv last v) : BiasInv last w where
  spread := hsame.params ▸ h.spread
  coeffs := hsame.params ▸ hsame.coeffs ▸ h.coeffs
  posSemidef := hsame.biasP ▸ h.posSemidef
  diag := by
    rw [hsame.biasP, hsame.coeffs]
    exact h.diag
  bias := by
    rw [hsame.bias, Vqf.biasClip, hsame.params]
    exact h.bias

theorem biasInv_parts (hpi : (Core.ExactAngles.pi : ℝ) = Real.pi) (inverts : ExactFunctions.InvertsPosDef)
    (last : ℝ) : PartsKeep (BiasInv last) := by
  refine .of_sameEstimate BiasInv.of_sameEstimate ?inclination ?bias ?heading
  case inclination =>
    intro v h
    exact { h with }
  case bias =>
    intro v accE6Norm h
    exact h.updateBiasKalman hpi inverts accE6Norm
  case heading =>
    intro v magEarth h
    obtain ⟨_, heq⟩ := v.correctHeading_writes magEarth
    rw [heq]
    exact { h with }

/-- The variance that was set last, after `last`. -/
def VqfOp.lastVariance (last : ℝ) : VqfOp ℝ → ℝ
  | .setBiasEstimate _ (some sigma) => sigma * sigma
  | .setBiasEstimate _ none | .update _ _ _ | .setTimestep _ | .setTauAcc _ | .setTauMag _ | .resetState => last

/-- A covariance that has just been set. -/
theorem posSemidef_isotropic {x : ℝ} (hx : 0 ≤ x) : (diagonal (.replicate 3 x)).toMatrix.PosSemidef := by
  rw [toMatrix_diagonal]
  refine .diagonal fun i => ?_
  show 0 ≤ (Vector.replicate 3 x)[i.val]
  rw [Vector.getElem_replicate]
  exact hx

theorem at_isotropic (x : ℝ) (i : Fin 3) : (diagonal (.replicate 3 x)).at i i = x := by
  simp [diagonal]

theorem biasInv_setup (hpi : (Core.ExactAngles.pi : ℝ) = Real.pi) (hspread : v.params.Spread)
    (hbias : ∀ i (hi : i < 3), |v.state.bias[i]| ≤ v.biasClip) {gyrTs : ℝ} (hts : 0 < gyrTs) (accTs magTs : ℝ)
    (last : ℝ) : BiasInv last (v.setup gyrTs accTs magTs) where
  spread := hspread
  coeffs := biasCoeffs_setup hpi hspread hts accTs magTs
  posSemidef := posSemidef_isotropic (mul_self_nonneg _)
  diag i := (at_isotropic _ i).trans_le (le_max_left _ _)
  bias := hbias

theorem biasInv_fresh (hpi : (Core.ExactAngles.pi : ℝ) = Real.pi) {params : VqfParams ℝ} (hspread : params.Spread)
    (coeffs : VqfCoeffs ℝ) {gyrTs : ℝ} (hts : 0 < gyrTs) (accTs magTs : ℝ) (last : ℝ) :
    BiasInv last (Vqf.setup ⟨params, .default, coeffs⟩ gyrTs accTs magTs) := by
  have hclip := biasClip_nonneg (v := ⟨params, .default, coeffs⟩) hpi hspread
  refine biasInv_setup hpi hspread (fun i hi => ?_) hts accTs magTs last
  show |(Vector.replicate 3 (0.0 : ℝ))[i]| ≤ _
  rw [Vector.getElem_replicate]
  norm_num
  exact hclip

theorem BiasInv.apply (hpi : (Core.ExactAngles.pi : ℝ) = Real.pi) (inverts : ExactFunctions.InvertsPosDef)
    (h : BiasInv last v) (op : VqfOp ℝ) (hop : ∀ ts ∈ op.newTimestep, 0 < ts) :
    BiasInv (op.lastVariance last) (v.apply op) := by
  have hclip : ∀ bias : Vector ℝ 3, ∀ i (hi : i < 3),
      |(bias.map fun x => Scalar.clamp x (-v.biasClip) v.biasClip)[i]| ≤ v.biasClip := by
    intro bias i hi
    rw [Vector.getElem_map]
    exact abs_clamp_le _ (biasClip_nonneg hpi h.spread)
  cases op with
  | update gyro accel mag => exact (biasInv_parts hpi inverts last).update gyro accel mag h
  | setTimestep gyrTs => exact biasInv_setup hpi h.spread h.bias (hop gyrTs rfl) gyrTs gyrTs last
  | setTauAcc tau => exact { h with spread := { h.spread with }, coeffs := { h.coeffs with } }
  | setTauMag tau => exact { h with spread := { h.spread with }, coeffs := { h.coeffs with } }
  | setBiasEstimate bias sigma =>
    cases sigma with
    | none => exact { h with bias := hclip bias }
    | some sigma =>
      exact { h with
        posSemidef := posSemidef_isotropic (mul_self_nonneg sigma)
        diag := fun i => (at_isotropic _ i).trans_le (le_max_right _ _)
        bias := hclip bias }
  | resetState => exact biasInv_fresh hpi h.spread _ h.coeffs.gyrTs _ _ last

theorem BiasInv.run (hpi : (Core.ExactAngles.pi : ℝ) = Real.pi) (inverts : ExactFunctions.InvertsPosDef)
    (h : BiasInv last v) (ops : List (VqfOp ℝ)) (hops : ∀ op ∈ ops, ∀ ts ∈ op.newTimestep, 0 < ts) :
    BiasInv (ops.foldl VqfOp.lastVariance last) (v.run ops) := by
  induction ops generalizing v last with
  | nil => exact h
  | cons op ops ih =>
    have happly := h.apply hpi inverts op (hops op List.mem_cons_self)
    exact ih happly fun op' hop' => hops op' (List.mem_cons_of_mem op hop')

/-- After every run the covariance is symmetric and positive semidefinite, its diagonal is within the initial variance
or the one that was set last, the standard deviation is the root of a number that is not negative, and the bias is
within its clip. -/
theorem biasP_covariance (hpi : (Core.ExactAngles.pi : ℝ) = Real.pi) (inverts : ExactFunctions.InvertsPosDef)
    (params : VqfParams ℝ) (hspread : params.Spread) (gyrTs accTs magTs : ℝ) (hts : 0 < gyrTs)
    (ops : List (VqfOp ℝ)) (hops : ∀ op ∈ ops, ∀ ts ∈ op.newTimestep, 0 < ts) :
    let v := (Vqf.withParamsAndTimesteps params gyrTs accTs magTs).run ops
    (∀ i j, v.state.biasP.at i j = v.state.biasP.at j i) ∧ v.state.biasP.toMatrix.PosSemidef ∧
      (∀ i, v.state.biasP.at i i ≤ max v.coeffs.biasP0 (ops.foldl VqfOp.lastVariance 0)) ∧
      0 ≤ v.state.biasP.toMatrix.trace / 3 ∧
      v.biasEstimate.2 * v.biasEstimate.2 = v.state.biasP.toMatrix.trace / 3 ∧
      ∀ i (hi : i < 3), |v.state.bias[i]| ≤ v.biasClip := by
  intro v
  have hthree : (3.0 : ℝ) = 3 := by norm_num
  have h : BiasInv _ v := (biasInv_fresh hpi hspread _ hts accTs magTs 0).run hpi inverts ops hops
  have htrace : 0 ≤ v.state.biasP.toMatrix.trace / 3 := div_nonneg h.posSemidef.trace_nonneg (by norm_num)
  refine ⟨?_, h.posSemidef, h.diag, htrace, ?_, h.bias⟩
  · intro i j
    exact congrFun (congrFun h.posSemidef.isHermitian j) i
  · have hsigma : v.biasEstimate.2 = Real.sqrt (v.state.biasP.toMatrix.trace / 3) := by
      rw [Matrix.trace_fin_three]
      show Real.sqrt ((v.state.biasP.x.x + v.state.biasP.y.y + v.state.biasP.z.z) / 3.0) = _
      rw [hthree]
      rfl
    rw [hsigma, Real.mul_self_sqrt htrace]

end Exact

theorem invertsPosDef_standard :
    letI := ExactFunctions.standard
    ExactFunctions.InvertsPosDef := by
  let := ExactFunctions.standard
  intro s _
  refine ⟨_, rfl, ?_⟩
  ext i j
  exact Mat3.at_ofFn _ i j

/-- The default parameters, a sample at rest and a change of the timestep. -/
theorem biasP_covariance_default :
    letI := ExactFunctions.standard
    ((Vqf.new (0.01 : ℝ)).run
      [.update (.replicate 3 0) #v[0, 0, 1] none, .setTimestep 0.02]).state.biasP.toMatrix.PosSemidef := by
  let := ExactFunctions.standard
  have hspread : (VqfParams.default : VqfParams ℝ).Spread := by
    constructor
    · show (0 : ℝ) < 0.5
      norm_num
    · show (0 : ℝ) < 100.0
      norm_num
    · show (0 : ℝ) ≤ 2.0
      norm_num
    · show (0 : ℝ) < 0.1
      norm_num
    · show (0 : ℝ) < 0.03
      norm_num
  refine (biasP_covariance rfl invertsPosDef_standard .default hspread 0.01 0.01 0.01 (by norm_num) _ ?_).2.1
  intro op hop ts hts
  rcases List.mem_cons.1 hop with rfl | hop
  · cases hts
  · rw [List.mem_singleton.1 hop] at hts
    obtain rfl := Option.some.inj hts
    norm_num

end EverythingImu.Fusion
