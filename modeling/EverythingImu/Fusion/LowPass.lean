import EverythingImu.Fusion.Parts
import EverythingImu.Library.StepRun
import Mathlib.Analysis.SpecialFunctions.Complex.Arg
import Mathlib.LinearAlgebra.Matrix.NonsingularInverse

/-!
# The low-pass filters and the timestep

The filters of the VQF, fed with one input each.  `setup` puts new coefficients to the old states.  Over the exact reals
a filter that has settled on an input keeps to it after a change of the timestep exactly if the input is zero or its
corner is where it was (`setTimestep_undisturbed_iff`); `set_tau_acc` moves the state with the coefficients.
-/

namespace EverythingImu.Fusion

section Code

variable {K : Type} [VqfScalar K]

inductive LowPass where
  | acc
  | restGyr
  | restAcc
  | magNormDip
  deriving DecidableEq

namespace LowPass

/-- The number of components. -/
@[reducible]
def width : LowPass → Nat
  | .acc => 3
  | .restGyr => 3
  | .restAcc => 3
  | .magNormDip => 2

def tau (p : VqfParams K) : LowPass → K
  | .acc => p.tauAcc
  | .restGyr => p.restFilterTau
  | .restAcc => p.restFilterTau
  | .magNormDip => p.magCurrentTau

def ts (c : VqfCoeffs K) : LowPass → K
  | .acc => c.accTs
  | .restGyr => c.gyrTs
  | .restAcc => c.accTs
  | .magNormDip => c.magTs

end LowPass

namespace Vqf

def coeffsOf (v : Vqf K) : LowPass → Biquad K
  | .acc => v.coeffs.accLp
  | .restGyr => v.coeffs.restGyrLp
  | .restAcc => v.coeffs.restAccLp
  | .magNormDip => v.coeffs.magNormDipLp

def stateOf (v : Vqf K) : (f : LowPass) → LpState K f.width
  | .acc => v.state.accLpState
  | .restGyr => v.state.restGyrLpState
  | .restAcc => v.state.restAccLpState
  | .magNormDip => v.state.magNormDipLpState

def outputOf (v : Vqf K) : (f : LowPass) → Vector K f.width
  | .acc => v.state.lastAccLp
  | .restGyr => v.state.restLastGyrLp
  | .restAcc => v.state.restLastAccLp
  | .magNormDip => v.state.magNormDip

/-- The tangent in the coefficients of a filter. -/
def cornerOf (v : Vqf K) (f : LowPass) : K := warpedCorner (f.tau v.params) (f.ts v.coeffs)

/-- The signal that an update feeds to a filter, if it gets that far. -/
def inputOf (v : Vqf K) (gyro accel : Vector K 3) (mag : Option (Vector K 3)) :
    (f : LowPass) → Option (Vector K f.width)
  | .restGyr => if v.params.restBiasEstEnabled ∨ v.params.magDistRejectionEnabled then some gyro else none
  | .restAcc => if accel.all isZero then none else if v.params.restBiasEstEnabled then some accel else none
  | .acc => if accel.all isZero then none else some (quatRotate (v.updateGyr gyro).state.gyrQuat accel)
  | .magNormDip =>
    match mag with
    | none => none
    | some mag =>
      if mag.all isZero then none
      else if v.params.magDistRejectionEnabled then
        some (normAndDip (quatRotate ((v.updateGyr gyro).updateAcc accel).state.quat6d mag))
      else none

/-- The filter has come to rest on `x`: more of the same leaves its state alone. -/
def Settled (v : Vqf K) (f : LowPass) (x : Vector K f.width) : Prop :=
  (filterVecN x (v.coeffsOf f) (v.stateOf f)).2 = v.stateOf f

end Vqf

/-- The output of a filter for `x` after `n` earlier samples of it. -/
def lowPassOutput {N : Nat} (f : Biquad K) (x : Vector K N) : LpState K N → Nat → Vector K N
  | state, 0 => (filterVecN x f state).1
  | state, n + 1 => lowPassOutput f x (filterVecN x f state).2 n

/-- However often the filter is fed with `x`, the output is `x`. -/
def Vqf.Undisturbed (v : Vqf K) (f : LowPass) (x : Vector K f.width) : Prop :=
  ∀ n, lowPassOutput (v.coeffsOf f) x (v.stateOf f) n = x

/-- The readings of one update: gyroscope, accelerometer and magnetometer. -/
abbrev Readings (K : Type) : Type := Vector K 3 × Vector K 3 × Option (Vector K 3)

def Vqf.updateWith (v : Vqf K) (u : Readings K) : Vqf K := v.update u.1 u.2.1 u.2.2

/-- The update feeds the filter with `x` or not at all. -/
def FeedsOnly (f : LowPass) (x : Vector K f.width) (v : Vqf K) (u : Readings K) : Prop :=
  ∀ y, v.inputOf u.1 u.2.1 u.2.2 f = some y → y = x

/-- What can be reached from any start. -/
def Vqf.Reachable (v : Vqf K) : Prop :=
  ∃ params gyrTs accTs magTs ops, v = (withParamsAndTimesteps params gyrTs accTs magTs).run ops

/-- The coefficients are those of the parameters and of the timesteps. -/
def Vqf.SetUp (v : Vqf K) : Prop := ∀ f : LowPass, v.coeffsOf f = filterCoeffs (f.tau v.params) (f.ts v.coeffs)

/-! ### What an update does to the filters -/

/-- From `v` to `v'` the filter `f` has been fed with the input, or with nothing, and no coefficient has changed. -/
structure Feeds (f : LowPass) (input : Option (Vector K f.width)) (v v' : Vqf K) : Prop where
  params : v'.params = v.params
  coeffs : v'.coeffs = v.coeffs
  filter : (v'.outputOf f, v'.stateOf f) =
    match input with
    | none => (v.outputOf f, v.stateOf f)
    | some x => filterVecN x (v.coeffsOf f) (v.stateOf f)

section Feeds

variable {f : LowPass} {input : Option (Vector K f.width)} {v v' v'' : Vqf K}

omit [VqfScalar K] in
theorem coeffsOf_congr (h : v'.coeffs = v.coeffs) (f : LowPass) : v'.coeffsOf f = v.coeffsOf f := by
  cases f <;> simp only [Vqf.coeffsOf, h]

theorem Feeds.refl (f : LowPass) (v : Vqf K) : Feeds f none v v := ⟨rfl, rfl, rfl⟩

theorem Feeds.then_none (h : Feeds f input v v') (h' : Feeds f none v' v'') : Feeds f input v v'' :=
  ⟨h'.params.trans h.params, h'.coeffs.trans h.coeffs, h'.filter.trans h.filter⟩

theorem Feeds.none_then (h : Feeds f none v v') (h' : Feeds f input v' v'') : Feeds f input v v'' := by
  refine ⟨h'.params.trans h.params, h'.coeffs.trans h.coeffs, h'.filter.trans ?_⟩
  have hout : v'.outputOf f = v.outputOf f := congrArg Prod.fst h.filter
  have hstate : v'.stateOf f = v.stateOf f := congrArg Prod.snd h.filter
  rw [hout, hstate, coeffsOf_congr h.coeffs]

theorem watchGyr_feeds (v : Vqf K) (gyro : Vector K 3) :
    Feeds .restGyr (if v.params.restBiasEstEnabled ∨ v.params.magDistRejectionEnabled then some gyro else none)
      v (v.watchGyr gyro) := by
  unfold Vqf.watchGyr
  split
  · exact ⟨rfl, rfl, rfl⟩
  · exact .refl _ v

theorem watchGyr_other (hf : f ≠ .restGyr) (v : Vqf K) (gyro : Vector K 3) : Feeds f none v (v.watchGyr gyro) := by
  obtain ⟨_, _, _, _, _, heq⟩ := v.watchGyr_writes gyro
  rw [heq]
  cases f with
  | restGyr => exact absurd rfl hf
  | _ => exact ⟨rfl, rfl, rfl⟩

theorem integrateGyr_other (f : LowPass) (v : Vqf K) (gyro : Vector K 3) :
    Feeds f none v (v.integrateGyr gyro) := by
  obtain ⟨_, heq⟩ := v.integrateGyr_writes gyro
  rw [heq]
  cases f <;> exact ⟨rfl, rfl, rfl⟩

theorem watchAcc_feeds (v : Vqf K) (accel : Vector K 3) :
    Feeds .restAcc (if v.params.restBiasEstEnabled then some accel else none) v (v.watchAcc accel) := by
  unfold Vqf.watchAcc
  split
  · exact ⟨rfl, rfl, rfl⟩
  · exact .refl _ v

theorem watchAcc_other (hf : f ≠ .restAcc) (v : Vqf K) (accel : Vector K 3) :
    Feeds f none v (v.watchAcc accel) := by
  obtain ⟨_, _, _, _, _, heq⟩ := v.watchAcc_writes accel
  rw [heq]
  cases f with
  | restAcc => exact absurd rfl hf
  | _ => exact ⟨rfl, rfl, rfl⟩

@[simp] theorem watchAcc_gyrQuat (v : Vqf K) (accel : Vector K 3) :
    (v.watchAcc accel).state.gyrQuat = v.state.gyrQuat := by
  obtain ⟨_, _, _, _, _, heq⟩ := v.watchAcc_writes accel
  rw [heq]

theorem filterAcc_feeds (v : Vqf K) (accel : Vector K 3) :
    Feeds .acc (some (quatRotate v.state.gyrQuat accel)) v (v.filterAcc accel) := ⟨rfl, rfl, rfl⟩

theorem filterAcc_other (hf : f ≠ .acc) (v : Vqf K) (accel : Vector K 3) : Feeds f none v (v.filterAcc accel) := by
  cases f with
  | acc => exact absurd rfl hf
  | _ => exact ⟨rfl, rfl, rfl⟩

theorem correctInclination_other (f : LowPass) (v : Vqf K) : Feeds f none v v.correctInclination := by
  cases f <;> exact ⟨rfl, rfl, rfl⟩

theorem updateBiasKalman_other (f : LowPass) (v : Vqf K) (accE6Norm : Vector K 3) :
    Feeds f none v (v.updateBiasKalman accE6Norm) := by
  obtain ⟨_, _, _, _, heq⟩ := v.updateBiasKalman_writes accE6Norm
  rw [heq]
  cases f <;> exact ⟨rfl, rfl, rfl⟩

theorem watchReference_other (f : LowPass) (v : Vqf K) : Feeds f none v v.watchReference := by
  obtain ⟨_, _, _, _, heq⟩ := v.watchReference_writes
  rw [heq]
  cases f <;> exact ⟨rfl, rfl, rfl⟩

theorem watchCandidate_other (f : LowPass) (v : Vqf K) : Feeds f none v v.watchCandidate := by
  obtain ⟨_, _, _, _, _, _, _, heq⟩ := v.watchCandidate_writes
  rw [heq]
  cases f <;> exact ⟨rfl, rfl, rfl⟩

theorem correctHeading_other (f : LowPass) (v : Vqf K) (magEarth : Vector K 3) :
    Feeds f none v (v.correctHeading magEarth) := by
  obtain ⟨_, heq⟩ := v.correctHeading_writes magEarth
  rw [heq]
  cases f <;> exact ⟨rfl, rfl, rfl⟩

theorem filterNormDip_feeds {v : Vqf K} (htau : 0.0 < v.params.magCurrentTau) (ndIn : Vector K 2) :
    Feeds .magNormDip (some ndIn) v (v.filterNormDip ndIn) := by
  unfold Vqf.filterNormDip
  rw [if_pos htau]
  exact ⟨rfl, rfl, rfl⟩

theorem watchField_feeds {v : Vqf K} (htau : 0.0 < v.params.magCurrentTau) (magEarth : Vector K 3) :
    Feeds .magNormDip (if v.params.magDistRejectionEnabled then some (Vqf.normAndDip magEarth) else none)
      v (v.watchField magEarth) := by
  unfold Vqf.watchField
  split
  · have hnormDip := filterNormDip_feeds htau (Vqf.normAndDip magEarth)
    exact (hnormDip.then_none (watchReference_other _ _)).then_none (watchCandidate_other _ _)
  · exact .refl _ v

theorem watchField_other (hf : f ≠ .magNormDip) (v : Vqf K) (magEarth : Vector K 3) :
    Feeds f none v (v.watchField magEarth) := by
  obtain ⟨_, _, _, _, _, _, _, _, _, heq⟩ := v.watchField_writes magEarth
  rw [heq]
  cases f with
  | magNormDip => exact absurd rfl hf
  | _ => exact ⟨rfl, rfl, rfl⟩

theorem updateGyr_feeds (v : Vqf K) (gyro : Vector K 3) :
    Feeds .restGyr (if v.params.restBiasEstEnabled ∨ v.params.magDistRejectionEnabled then some gyro else none)
      v (v.updateGyr gyro) :=
  (watchGyr_feeds v gyro).then_none (integrateGyr_other _ _ gyro)

theorem updateGyr_other (hf : f ≠ .restGyr) (v : Vqf K) (gyro : Vector K 3) : Feeds f none v (v.updateGyr gyro) :=
  (watchGyr_other hf v gyro).then_none (integrateGyr_other f _ gyro)

theorem finishAcc_other (f : LowPass) (v : Vqf K) :
    Feeds f none v (v.correctInclination.updateBiasKalman v.accE6) :=
  (correctInclination_other f v).then_none (updateBiasKalman_other f _ _)

theorem updateAcc_feeds_rest (v : Vqf K) (accel : Vector K 3) :
    Feeds .restAcc
      (if accel.all Vqf.isZero then none else if v.params.restBiasEstEnabled then some accel else none)
      v (v.updateAcc accel) := by
  by_cases hzero : accel.all Vqf.isZero
  · rw [Vqf.updateAcc, if_pos hzero, if_pos hzero]
    exact .refl _ v
  · rw [Vqf.updateAcc_of_nonzero hzero, if_neg hzero]
    refine (watchAcc_feeds v accel).then_none ?_
    exact (filterAcc_other (by decide) _ accel).then_none (finishAcc_other _ _)

theorem updateAcc_feeds_acc (v : Vqf K) (accel : Vector K 3) :
    Feeds .acc (if accel.all Vqf.isZero then none else some (quatRotate v.state.gyrQuat accel))
      v (v.updateAcc accel) := by
  by_cases hzero : accel.all Vqf.isZero
  · rw [Vqf.updateAcc, if_pos hzero, if_pos hzero]
    exact .refl _ v
  · rw [Vqf.updateAcc_of_nonzero hzero, if_neg hzero]
    refine (watchAcc_other (by decide) v accel).none_then ?_
    rw [← watchAcc_gyrQuat v accel]
    exact (filterAcc_feeds _ accel).then_none (finishAcc_other _ _)

theorem updateAcc_other (hrest : f ≠ .restAcc) (hacc : f ≠ .acc) (v : Vqf K) (accel : Vector K 3) :
    Feeds f none v (v.updateAcc accel) := by
  unfold Vqf.updateAcc
  split
  · exact .refl f v
  · exact ((watchAcc_other hrest v accel).then_none (filterAcc_other hacc _ accel)).then_none (finishAcc_other f _)

theorem seeMag_other (f : LowPass) (v : Vqf K) : Feeds f none v v.seeMag := by
  cases f <;> exact ⟨rfl, rfl, rfl⟩

theorem updateMag_feeds {v : Vqf K} (htau : 0.0 < v.params.magCurrentTau) (mag : Vector K 3) :
    Feeds .magNormDip
      (if mag.all Vqf.isZero then none
      else if v.params.magDistRejectionEnabled then
        some (Vqf.normAndDip (quatRotate v.state.quat6d mag)) else none)
      v (v.updateMag mag) := by
  by_cases hzero : mag.all Vqf.isZero
  · rw [Vqf.updateMag, if_pos hzero, if_pos hzero]
    exact .refl _ v
  · rw [Vqf.updateMag_of_nonzero hzero, if_neg hzero]
    refine (seeMag_other _ v).none_then (Feeds.then_none ?_ (correctHeading_other _ _ _))
    exact watchField_feeds (v := v.seeMag) htau _

theorem updateMag_other (hf : f ≠ .magNormDip) (v : Vqf K) (mag : Vector K 3) :
    Feeds f none v (v.updateMag mag) := by
  by_cases hzero : mag.all Vqf.isZero
  · rw [Vqf.updateMag, if_pos hzero]
    exact .refl f v
  · rw [Vqf.updateMag_of_nonzero hzero]
    refine (seeMag_other f v).then_none (Feeds.then_none ?_ (correctHeading_other f _ _))
    exact watchField_other hf _ _

/-- An update feeds each filter with its input; the filter of the field is in use only with a time constant. -/
theorem update_feeds (htau : f = .magNormDip → 0.0 < v.params.magCurrentTau) (gyro accel : Vector K 3)
    (mag : Option (Vector K 3)) :
    Feeds f (v.inputOf gyro accel mag f) v (v.update gyro accel mag) := by
  have hmag : ∀ g, g ≠ .magNormDip → ∀ w : Vqf K, Feeds g none w (mag.elim w w.updateMag) := by
    intro g hg w
    cases mag with
    | none => exact .refl g w
    | some mag => exact updateMag_other hg w mag
  cases f with
  | restGyr =>
    refine ((updateGyr_feeds v gyro).then_none ?_).then_none (hmag _ (by decide) _)
    exact updateAcc_other (by decide) (by decide) _ accel
  | restAcc =>
    have hgyr : Feeds .restAcc none v (v.updateGyr gyro) := updateGyr_other (by decide) v gyro
    have hacc := updateAcc_feeds_rest (v.updateGyr gyro) accel
    rw [hgyr.params] at hacc
    exact (hgyr.none_then hacc).then_none (hmag _ (by decide) _)
  | acc =>
    have hgyr : Feeds .acc none v (v.updateGyr gyro) := updateGyr_other (by decide) v gyro
    exact (hgyr.none_then (updateAcc_feeds_acc _ accel)).then_none (hmag _ (by decide) _)
  | magNormDip =>
    have hgyr : Feeds .magNormDip none v (v.updateGyr gyro) := updateGyr_other (by decide) v gyro
    have hacc := hgyr.then_none (updateAcc_other (by decide) (by decide) (v.updateGyr gyro) accel)
    cases mag with
    | none => exact hacc
    | some mag =>
      have hfeeds := updateMag_feeds (v := (v.updateGyr gyro).updateAcc accel) (by rw [hacc.params]; exact htau rfl) mag
      rw [hacc.params] at hfeeds
      exact hacc.none_then hfeeds

end Feeds

/-! ### Set-up -/

theorem setup_setUp (v : Vqf K) (gyrTs accTs magTs : K) : (v.setup gyrTs accTs magTs).SetUp := by
  intro f
  cases f <;> rfl

theorem Vqf.SetUp.apply {v : Vqf K} (h : v.SetUp) (op : VqfOp K) : (v.apply op).SetUp := by
  cases op with
  | update gyro accel mag =>
    have hfeeds := update_feeds (f := .acc) (v := v) nofun gyro accel mag
    intro f
    show (v.update gyro accel mag).coeffsOf f =
      filterCoeffs (f.tau (v.update gyro accel mag).params) (f.ts (v.update gyro accel mag).coeffs)
    rw [coeffsOf_congr hfeeds.coeffs, hfeeds.params, hfeeds.coeffs]
    exact h f
  | setTimestep gyrTs => exact setup_setUp _ _ _ _
  | setTauAcc tau =>
    intro f
    cases f with
    | acc => rfl
    | restGyr => exact h .restGyr
    | restAcc => exact h .restAcc
    | magNormDip => exact h .magNormDip
  | setTauMag tau =>
    intro f
    cases f with
    | acc => exact h .acc
    | restGyr => exact h .restGyr
    | restAcc => exact h .restAcc
    | magNormDip => exact h .magNormDip
  | setBiasEstimate bias sigma =>
    intro f
    cases f with
    | acc => exact h .acc
    | restGyr => exact h .restGyr
    | restAcc => exact h .restAcc
    | magNormDip => exact h .magNormDip
  | resetState => exact setup_setUp _ _ _ _

theorem Vqf.Reachable.setUp {v : Vqf K} (h : v.Reachable) : v.SetUp := by
  obtain ⟨params, gyrTs, accTs, magTs, ops, rfl⟩ := h
  exact StepRun.foldl_invariant (fun _ op h => h.apply op) (setup_setUp _ _ _ _) ops

/-! ### Components -/

variable {N : Nat}

theorem getElem_filterVecN_fst (x : Vector K N) (f : Biquad K) (s : LpState K N) {i : Nat} (hi : i < N) :
    (filterVecN x f s).1[i] = (filterComponent f x[i] s[i]).1 := by
  simp [filterVecN]

theorem getElem_filterVecN_snd (x : Vector K N) (f : Biquad K) (s : LpState K N) {i : Nat} (hi : i < N) :
    (filterVecN x f s).2[i] = some (filterComponent f x[i] s[i]).2 := by
  simp [filterVecN]

end Code

/-! ### Exact numbers -/

/-- Angles over the reals, and whatever functions the rest of the filter uses. -/
class ExactFunctions extends Core.ExactAngles where
  tan : ℝ → ℝ
  exp : ℝ → ℝ
  asin : ℝ → ℝ
  atan2 : ℝ → ℝ → ℝ
  pseudoInverse : Mat3 ℝ → ℝ → Option (Mat3 ℝ)

noncomputable instance vqfScalarReal [ExactFunctions] : VqfScalar ℝ where
  tan := ExactFunctions.tan
  exp := ExactFunctions.exp
  asin := ExactFunctions.asin
  atan2 := ExactFunctions.atan2
  isFinite _ := true
  pseudoInverse := ExactFunctions.pseudoInverse

section Exact

variable [ExactFunctions]

theorem filterStep_exact (x : ℝ) (f : Biquad ℝ) (s : ℝ × ℝ) : filterStep x f s = f.step x s := rfl

theorem filterInitialState_exact (x : ℝ) (f : Biquad ℝ) : filterInitialState x f = f.settled x := by
  have hone : (1.0 : ℝ) = 1 := by norm_num
  simp only [filterInitialState, Biquad.settled, hone]

theorem filterCoeffs_exact {tau : ℝ} (htau : 0 < tau) (ts : ℝ) :
    filterCoeffs tau ts = .butterworth (Real.sqrt 2) (warpedCorner tau ts) := by
  have hzero : (0.0 : ℝ) = 0 := by norm_num
  have hone : (1.0 : ℝ) = 1 := by norm_num
  have htwo : (2.0 : ℝ) = 2 := by norm_num
  have hsqrt : ∀ x : ℝ, TrigScalar.sqrt x = Real.sqrt x := fun _ => rfl
  simp only [filterCoeffs, hzero, if_neg (not_le.2 htau), Biquad.butterworth, hone, htwo, hsqrt]

variable {N : Nat}

/-- The components of a filter are sections of their own. -/
theorem getElem_lowPassOutput (f : Biquad ℝ) (x : Vector ℝ N) (s : LpState ℝ N) {i : Nat} (hi : i < N)
    {t : ℝ × ℝ} (ht : s[i] = some t) (n : Nat) : (lowPassOutput f x s n)[i] = f.output x[i] t n := by
  induction n generalizing s t with
  | zero => rw [lowPassOutput, getElem_filterVecN_fst _ _ _ hi, ht, filterComponent, filterStep_exact, Biquad.output]
  | succ n ih =>
    rw [lowPassOutput, Biquad.output]
    refine ih _ ?_
    rw [getElem_filterVecN_snd _ _ _ hi, ht, filterComponent, filterStep_exact]

theorem filterVecN_fixed_iff {f : Biquad ℝ} (hf : f.UnitGain) (hpole : 1 + f.a1 + f.a2 ≠ 0) (x : Vector ℝ N)
    (s : LpState ℝ N) : (filterVecN x f s).2 = s ↔ ∀ i (hi : i < N), s[i] = some (f.settled x[i]) := by
  constructor
  · intro h i hi
    have hget := getElem_filterVecN_snd x f s hi
    rw [h] at hget
    rcases ht : s[i] with _ | t
    · rw [ht] at hget
      cases hget
    · rw [ht, filterComponent, filterStep_exact, Option.some.injEq] at hget
      rw [(Biquad.step_fixed_iff hf hpole x[i] t).1 hget.symm]
  · intro h
    ext1 i hi
    rw [getElem_filterVecN_snd _ _ _ hi, h i hi, filterComponent, filterStep_exact, Biquad.step_settled hf]

theorem filterVecN_settled {f : Biquad ℝ} (hf : f.UnitGain) {x : Vector ℝ N} {s : LpState ℝ N}
    (h : ∀ i (hi : i < N), s[i] = some (f.settled x[i])) : filterVecN x f s = (x, s) := by
  refine Prod.ext ?_ ?_
  · ext1 i hi
    rw [getElem_filterVecN_fst _ _ _ hi, h i hi, filterComponent, filterStep_exact, Biquad.step_settled hf]
  · ext1 i hi
    rw [getElem_filterVecN_snd _ _ _ hi, h i hi, filterComponent, filterStep_exact, Biquad.step_settled hf]

/-- A filter with a state puts out nothing but `x` exactly if that is what it has settled on. -/
theorem lowPassOutput_const_iff {f : Biquad ℝ} (hf : f.UnitGain) (x : Vector ℝ N) {s : LpState ℝ N}
    (t : Vector (ℝ × ℝ) N) (ht : ∀ i (hi : i < N), s[i] = some t[i]) :
    (∀ n, lowPassOutput f x s n = x) ↔ ∀ i (hi : i < N), t[i] = f.settled x[i] := by
  constructor
  · intro h i hi
    refine (Biquad.outputs_const_iff hf x[i] t[i]).1 fun n => ?_
    rw [← getElem_lowPassOutput f x s hi (ht i hi) n, h n]
  · intro h n
    ext1 i hi
    rw [getElem_lowPassOutput f x s hi (ht i hi) n]
    exact (Biquad.outputs_const_iff hf x[i] t[i]).2 (h i hi) n

/-! ### A change of the timestep -/

theorem coeffsOf_exact {v : Vqf ℝ} (hv : v.SetUp) {f : LowPass} (htau : 0 < f.tau v.params) :
    v.coeffsOf f = .butterworth (Real.sqrt 2) (v.cornerOf f) := by
  rw [hv f, filterCoeffs_exact htau, Vqf.cornerOf]

theorem coeffsOf_unitGain {v : Vqf ℝ} (hv : v.SetUp) {f : LowPass} (htau : 0 < f.tau v.params)
    (hcorner : 0 < v.cornerOf f) : (v.coeffsOf f).UnitGain := by
  rw [coeffsOf_exact hv htau]
  exact Biquad.butterworth_unitGain (Real.sqrt_pos.2 two_pos) hcorner

theorem settled_iff {v : Vqf ℝ} (hv : v.SetUp) {f : LowPass} (htau : 0 < f.tau v.params)
    (hcorner : 0 < v.cornerOf f) (x : Vector ℝ f.width) :
    v.Settled f x ↔ ∀ i (hi : i < f.width), (v.stateOf f)[i] = some ((v.coeffsOf f).settled x[i]) := by
  refine filterVecN_fixed_iff (coeffsOf_unitGain hv htau hcorner) ?_ x _
  rw [coeffsOf_exact hv htau]
  exact (Biquad.butterworth_pole_pos (Real.sqrt_pos.2 two_pos) hcorner).ne'

theorem setTimestep_stateOf (v : Vqf ℝ) (gyrTs : ℝ) (f : LowPass) :
    (v.setTimestep gyrTs).stateOf f = v.stateOf f := by
  cases f <;> rfl

theorem setTimestep_cornerOf (v : Vqf ℝ) (gyrTs : ℝ) (f : LowPass) :
    (v.setTimestep gyrTs).cornerOf f = warpedCorner (f.tau v.params) gyrTs := by
  cases f <;> rfl

/-- The settled states of the old and of the new coefficients are the same. -/
theorem settled_setTimestep_iff {v : Vqf ℝ} (hv : v.SetUp) {gyrTs : ℝ} {f : LowPass} (htau : 0 < f.tau v.params)
    (hold : 0 < v.cornerOf f) (hnew : 0 < (v.setTimestep gyrTs).cornerOf f) (x : Vector ℝ f.width) :
    (∀ i (hi : i < f.width), (v.coeffsOf f).settled x[i] = ((v.setTimestep gyrTs).coeffsOf f).settled x[i]) ↔
      x = .replicate f.width 0 ∨ v.cornerOf f = (v.setTimestep gyrTs).cornerOf f := by
  have hsqrt : 0 < Real.sqrt 2 := Real.sqrt_pos.2 two_pos
  rw [coeffsOf_exact hv htau, coeffsOf_exact (v := v.setTimestep gyrTs) (setup_setUp _ _ _ _) htau]
  simp only [Biquad.butterworth_settled_eq_iff hsqrt hold hnew]
  constructor
  · intro h
    by_cases hcorner : v.cornerOf f = (v.setTimestep gyrTs).cornerOf f
    · exact .inr hcorner
    · refine .inl ?_
      ext i hi
      rw [Vector.getElem_replicate]
      exact (h i hi).resolve_right hcorner
  · rintro (rfl | hcorner) i hi
    · exact .inl (Vector.getElem_replicate hi)
    · exact .inr hcorner

theorem setTimestep_undisturbed {v : Vqf ℝ} (hv : v.SetUp) {gyrTs : ℝ} {f : LowPass} (htau : 0 < f.tau v.params)
    (hold : 0 < v.cornerOf f) (hnew : 0 < (v.setTimestep gyrTs).cornerOf f) {x : Vector ℝ f.width}
    (hsettled : v.Settled f x) :
    (v.setTimestep gyrTs).Undisturbed f x ↔
      x = .replicate f.width 0 ∨ v.cornerOf f = (v.setTimestep gyrTs).cornerOf f := by
  have hstate := (settled_iff hv htau hold x).1 hsettled
  rw [← settled_setTimestep_iff hv htau hold hnew, Vqf.Undisturbed, setTimestep_stateOf]
  have hgain := coeffsOf_unitGain (v := v.setTimestep gyrTs) (setup_setUp _ _ _ _) htau hnew
  refine (lowPassOutput_const_iff hgain x (x.map (v.coeffsOf f).settled) fun i hi => ?_).trans ?_
  · rw [hstate i hi, Vector.getElem_map]
  · simp only [Vector.getElem_map]

/-- `set_tau_acc` moves the state of its filter with the coefficients. -/
theorem setTauAcc_undisturbed {v : Vqf ℝ} (hv : v.SetUp) {tau : ℝ} (htau : 0 < tau)
    (hnew : 0 < warpedCorner tau v.coeffs.accTs) (hinit : ∀ i (hi : i < 3), v.state.accLpState[i] ≠ none) :
    (v.setTauAcc tau).Undisturbed .acc v.state.lastAccLp := by
  have hgain : ((v.setTauAcc tau).coeffsOf .acc).UnitGain :=
    coeffsOf_unitGain (hv.apply (.setTauAcc tau)) (f := .acc) htau hnew
  refine (lowPassOutput_const_iff hgain _ (v.state.lastAccLp.map ((v.setTauAcc tau).coeffsOf .acc).settled)
    fun i hi => ?_).2 fun i hi => by rw [Vector.getElem_map]
  obtain ⟨t, ht⟩ := Option.ne_none_iff_exists'.1 (hinit i hi)
  have hget : ((v.setTauAcc tau).stateOf .acc)[i] =
      filterAdaptStateForCoeffChange v.state.lastAccLp[i] (filterCoeffs tau v.coeffs.accTs) v.state.accLpState[i] := by
    simp [Vqf.stateOf, Vqf.setTauAcc]
  rw [hget, ht, filterAdaptStateForCoeffChange, Option.map_some, filterInitialState_exact, Vector.getElem_map]
  rfl

/-- In any state that the filter can get to: a filter that has settled on an input goes on with it after a change of
the timestep exactly if the input is zero or the corner of the filter stays where it is; after a change of `tau_acc` the
filter of the acceleration always goes on with its last output. -/
theorem setTimestep_undisturbed_iff {v : Vqf ℝ} (hv : v.Reachable) :
    (∀ (gyrTs : ℝ) (f : LowPass) (x : Vector ℝ f.width), 0 < f.tau v.params → 0 < v.cornerOf f →
      0 < warpedCorner (f.tau v.params) gyrTs → v.Settled f x →
      ((v.setTimestep gyrTs).Undisturbed f x ↔
        x = .replicate f.width 0 ∨ v.cornerOf f = warpedCorner (f.tau v.params) gyrTs)) ∧
    ∀ tau : ℝ, 0 < tau → 0 < warpedCorner tau v.coeffs.accTs →
      (∀ i (hi : i < 3), v.state.accLpState[i] ≠ none) → (v.setTauAcc tau).Undisturbed .acc v.state.lastAccLp := by
  constructor
  · intro gyrTs f x htau hold hnew hsettled
    rw [← setTimestep_cornerOf] at hnew ⊢
    exact setTimestep_undisturbed hv.setUp htau hold hnew hsettled
  · intro tau htau hnew hinit
    exact setTauAcc_undisturbed hv.setUp htau hnew hinit

/-! ### Updates after the change -/

/-- Everything that the claims about an input `x` depend on stays as it is from one update to the next. -/
structure AtRest (f : LowPass) (x : Vector ℝ f.width) (v : Vqf ℝ) : Prop where
  tau : 0 < f.tau v.params
  fixed : filterVecN x (v.coeffsOf f) (v.stateOf f) = (x, v.stateOf f)
  output : v.outputOf f = x

theorem AtRest.update {f : LowPass} {x : Vector ℝ f.width} {v : Vqf ℝ} (h : AtRest f x v)
    {u : Readings ℝ} (hu : FeedsOnly f x v u) : AtRest f x (v.updateWith u) := by
  have hzero : (0.0 : ℝ) = 0 := by norm_num
  have htau : f = .magNormDip → (0.0 : ℝ) < v.params.magCurrentTau := by
    rintro rfl
    rw [hzero]
    exact h.tau
  have hfeeds := update_feeds htau u.1 u.2.1 u.2.2
  have hfilter : ((v.updateWith u).outputOf f, (v.updateWith u).stateOf f) = (x, v.stateOf f) := by
    refine hfeeds.filter.trans ?_
    rcases hin : v.inputOf u.1 u.2.1 u.2.2 f with _ | y
    · exact congrArg (·, v.stateOf f) h.output
    · rw [hu y hin]
      exact h.fixed
  have hstate : (v.updateWith u).stateOf f = v.stateOf f := congrArg Prod.snd hfilter
  refine ⟨?_, ?_, congrArg Prod.fst hfilter⟩
  · rw [Vqf.updateWith, hfeeds.params]
    exact h.tau
  · rw [hstate, Vqf.updateWith, coeffsOf_congr hfeeds.coeffs]
    exact h.fixed

theorem AtRest.updates {f : LowPass} {x : Vector ℝ f.width} {v : Vqf ℝ} (h : AtRest f x v)
    {us : List (Readings ℝ)}
    (hus : StepRun.Along Vqf.updateWith (FeedsOnly f x) v us) : AtRest f x (us.foldl Vqf.updateWith v) := by
  induction us generalizing v with
  | nil => exact h
  | cons u us ih => exact ih (h.update hus.1) hus.2

/-- In whole updates: as long as they feed the filter with nothing else, its output stays on `x`. -/
theorem outputOf_updates_setTimestep {v : Vqf ℝ} (hv : v.Reachable) {gyrTs : ℝ} {f : LowPass}
    (htau : 0 < f.tau v.params) (hold : 0 < v.cornerOf f) (hnew : 0 < (v.setTimestep gyrTs).cornerOf f)
    {x : Vector ℝ f.width} (hsettled : v.Settled f x) (hout : v.outputOf f = x)
    (hkept : x = .replicate f.width 0 ∨ v.cornerOf f = (v.setTimestep gyrTs).cornerOf f)
    {us : List (Readings ℝ)}
    (hus : StepRun.Along Vqf.updateWith (FeedsOnly f x) (v.setTimestep gyrTs) us) :
    (us.foldl Vqf.updateWith (v.setTimestep gyrTs)).outputOf f = x := by
  have hgain := coeffsOf_unitGain (v := v.setTimestep gyrTs) (setup_setUp _ _ _ _) htau hnew
  have hstate := (settled_iff hv.setUp htau hold x).1 hsettled
  have hsame := (settled_setTimestep_iff hv.setUp htau hold hnew x).2 hkept
  have hrest : AtRest f x (v.setTimestep gyrTs) := by
    refine ⟨htau, filterVecN_settled hgain fun i hi => ?_, ?_⟩
    · rw [setTimestep_stateOf, hstate i hi, hsame i hi]
    · cases f <;> exact hout
  exact (hrest.updates hus).output

/-! ### A device at rest -/

theorem settled_of_first {f : LowPass} {x : Vector ℝ f.width} {v v' : Vqf ℝ} (h : Feeds f (some x) v v')
    (hfresh : ∀ i (hi : i < f.width), (v.stateOf f)[i] = none) (hv : v'.SetUp) (htau : 0 < f.tau v'.params)
    (hcorner : 0 < v'.cornerOf f) : v'.Settled f x := by
  refine (settled_iff hv htau hcorner x).2 fun i hi => ?_
  have hstate : v'.stateOf f = (filterVecN x (v.coeffsOf f) (v.stateOf f)).2 := congrArg Prod.snd h.filter
  rw [hstate, getElem_filterVecN_snd _ _ _ hi, hfresh i hi, filterComponent, filterInitialState_exact,
    coeffsOf_congr h.coeffs]

/-- A new filter at 100 Hz after its first update, on a device that lies on a table. -/
noncomputable def placed : Vqf ℝ := (Vqf.new 0.01).update (.replicate 3 0) #v[0, 0, 1] none

theorem placed_reachable : placed.Reachable :=
  ⟨.default, 0.01, 0.01, 0.01, [.update (.replicate 3 0) #v[0, 0, 1] none], rfl⟩

theorem placed_feeds : Feeds .restAcc (some #v[0, 0, 1]) (Vqf.new 0.01) placed := by
  have hfeeds := update_feeds (f := .restAcc) (v := Vqf.new (0.01 : ℝ)) nofun (.replicate 3 0) #v[0, 0, 1] none
  have hin : (Vqf.new (0.01 : ℝ)).inputOf (.replicate 3 0) #v[0, 0, 1] none .restAcc = some #v[0, 0, 1] := by
    have hzero : (0.0 : ℝ) = 0 := by norm_num
    have hmoves : (#v[0, 0, 1] : Vector ℝ 3).all Vqf.isZero = false := by simp [Vqf.isZero, hzero]
    have hrest : (Vqf.new (0.01 : ℝ)).params.restBiasEstEnabled = true := rfl
    simp only [Vqf.inputOf, hmoves, hrest]
    rfl
  rw [hin] at hfeeds
  exact hfeeds

end Exact

/-- The functions that the language has. -/
@[reducible]
noncomputable def ExactFunctions.standard : ExactFunctions where
  toExactAngles := .radians
  tan := Real.tan
  exp := Real.exp
  asin := Real.arcsin
  atan2 y x := Complex.arg ⟨x, y⟩
  pseudoInverse m _ := some (.ofFn fun i j => (Matrix.of m.at)⁻¹ i j)

theorem warpedCorner_standard (tau ts : ℝ) :
    letI := ExactFunctions.standard
    warpedCorner tau ts = Real.tan (Real.sqrt 2 / 2 / tau * ts) := by
  have htwo : (2.0 : ℝ) = 2 := by norm_num
  show Real.tan (Real.pi * (Real.sqrt (2.0 : ℝ) / ((2.0 : ℝ) * Real.pi) / tau) * ts) = _
  have hpi := Real.pi_ne_zero
  rw [htwo]
  congr 1
  field_simp

/-- Below a quarter turn a slower sensor has a higher corner. -/
theorem warpedCorner_standard_lt {tau ts ts' : ℝ} (htau : 0 < tau) (hts : 0 ≤ ts) (hlt : ts < ts')
    (hquarter : Real.sqrt 2 / 2 / tau * ts' < Real.pi / 2) :
    letI := ExactFunctions.standard
    warpedCorner tau ts < warpedCorner tau ts' := by
  have hpos : 0 < Real.sqrt 2 / 2 / tau := by positivity
  rw [warpedCorner_standard, warpedCorner_standard]
  refine Real.tan_lt_tan_of_lt_of_lt_pi_div_two ?_ hquarter (mul_lt_mul_of_pos_left hlt hpos)
  have hnonneg : 0 ≤ Real.sqrt 2 / 2 / tau * ts := by positivity
  linarith [Real.pi_pos]

/-- The corners of the rest filter at 100 Hz and at 50 Hz. -/
theorem placed_corners :
    letI := ExactFunctions.standard
    0 < placed.cornerOf .restAcc ∧ placed.cornerOf .restAcc < (placed.setTimestep 0.02).cornerOf .restAcc := by
  let := ExactFunctions.standard
  have htau : (0 : ℝ) < 0.5 := by norm_num
  have hquarter : ∀ ts : ℝ, ts ≤ 0.02 → Real.sqrt 2 / 2 / 0.5 * ts < Real.pi / 2 := by
    intro ts hts
    have hroot : Real.sqrt 2 / 2 / 0.5 < 3 / 2 := by
      have := Real.sqrt_two_lt_three_halves
      norm_num
      linarith
    have hroot' : 0 < Real.sqrt 2 / 2 / 0.5 := by positivity
    have hpi := Real.one_le_pi_div_two
    nlinarith
  have hold : placed.cornerOf .restAcc = warpedCorner (0.5 : ℝ) 0.01 := by
    rw [Vqf.cornerOf, placed_feeds.params, placed_feeds.coeffs]
    rfl
  have hnew : (placed.setTimestep 0.02).cornerOf .restAcc = warpedCorner (0.5 : ℝ) 0.02 := by
    rw [setTimestep_cornerOf, placed_feeds.params]
    rfl
  have hzero : warpedCorner (0.5 : ℝ) 0 = 0 := by
    rw [warpedCorner_standard, mul_zero, Real.tan_zero]
  rw [hold, hnew]
  refine ⟨?_, warpedCorner_standard_lt htau (by norm_num) (by norm_num) (hquarter _ le_rfl)⟩
  calc (0 : ℝ) = warpedCorner (0.5 : ℝ) 0 := hzero.symm
    _ < _ := warpedCorner_standard_lt htau le_rfl (by norm_num) (hquarter _ (by norm_num))

theorem placed_tau :
    letI := ExactFunctions.standard
    0 < LowPass.restAcc.tau placed.params := by
  let := ExactFunctions.standard
  rw [placed_feeds.params]
  show (0 : ℝ) < 0.5
  norm_num

theorem placed_settled :
    letI := ExactFunctions.standard
    placed.Settled .restAcc #v[0, 0, 1] := by
  let := ExactFunctions.standard
  refine settled_of_first placed_feeds ?_ placed_reachable.setUp placed_tau placed_corners.1
  intro i hi
  exact Vector.getElem_replicate hi

theorem gravity_ne_zero : (#v[0, 0, 1] : Vector ℝ 3) ≠ .replicate 3 0 := by
  intro h
  have hz := congrArg Vector.z h
  simp at hz

/-- At the rate it has, and at half of it. -/
theorem setTimestep_undisturbed_iff_placed :
    letI := ExactFunctions.standard
    (placed.setTimestep 0.01).Undisturbed .restAcc #v[0, 0, 1] ∧
      ¬(placed.setTimestep 0.02).Undisturbed .restAcc #v[0, 0, 1] := by
  let := ExactFunctions.standard
  obtain ⟨hold, hlt⟩ := placed_corners
  rw [setTimestep_cornerOf] at hlt
  have hsame : placed.cornerOf .restAcc = warpedCorner (LowPass.restAcc.tau placed.params) 0.01 := by
    rw [Vqf.cornerOf, placed_feeds.coeffs]
    rfl
  have key := (setTimestep_undisturbed_iff placed_reachable).1
  constructor
  · exact (key 0.01 .restAcc _ placed_tau hold (hsame ▸ hold) placed_settled).2 (.inr hsame)
  · intro h
    rcases (key 0.02 .restAcc _ placed_tau hold (hold.trans hlt) placed_settled).1 h with hzero | hcorner
    · exact gravity_ne_zero hzero
    · exact hlt.ne hcorner

/-- At half the rate a settled filter leaves the acceleration of a device that lies still. -/
theorem not_undisturbed_of_half_rate :
    letI := ExactFunctions.standard
    ¬∀ (v : Vqf ℝ) (gyrTs : ℝ) (f : LowPass) (x : Vector ℝ f.width), v.Reachable → 0 < f.tau v.params →
      0 < v.cornerOf f → 0 < warpedCorner (f.tau v.params) gyrTs → v.Settled f x →
      (v.setTimestep gyrTs).Undisturbed f x := by
  let := ExactFunctions.standard
  intro h
  obtain ⟨hold, hlt⟩ := placed_corners
  have hnew := hold.trans hlt
  have hgood := h placed 0.02 .restAcc #v[0, 0, 1] placed_reachable placed_tau hold
    (setTimestep_cornerOf placed 0.02 .restAcc ▸ hnew) placed_settled
  rcases (setTimestep_undisturbed placed_reachable.setUp placed_tau hold hnew placed_settled).1 hgood with
    hzero | hsame
  · exact gravity_ne_zero hzero
  · exact hlt.ne hsame

end EverythingImu.Fusion
