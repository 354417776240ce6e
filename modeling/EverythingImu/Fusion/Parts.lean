import EverythingImu.Fusion.Vqf

/-!
# The parts of an update

An update of the VQF (`vqf.rs`) is a sequence of parts, and each of them writes a few fields of the state and no
parameter and no coefficient.  What every part keeps is kept by the update (`PartsKeep.update`).
-/

namespace EverythingImu.Fusion

variable {K : Type} [VqfScalar K]

namespace Vqf

/-- The rejection of disturbed fields in `update_mag`. -/
def watchField (v : Vqf K) (magEarth : Vector K 3) : Vqf K :=
  if v.params.magDistRejectionEnabled then (v.filterNormDip (normAndDip magEarth)).watchReference.watchCandidate
  else v

theorem updateMag_of_nonzero {v : Vqf K} {mag : Vector K 3} (h : ¬ mag.all isZero) :
    v.updateMag mag =
      (v.seeMag.watchField (quatRotate v.state.quat6d mag)).correctHeading (quatRotate v.state.quat6d mag) :=
  if_neg h

theorem updateAcc_of_nonzero {v : Vqf K} {acc : Vector K 3} (h : ¬ acc.all isZero) :
    v.updateAcc acc = ((v.watchAcc acc).filterAcc acc).correctInclination.updateBiasKalman
      ((v.watchAcc acc).filterAcc acc).accE6 :=
  if_neg h

/-! ### What each part writes -/

theorem watchGyr_writes (v : Vqf K) (gyr : Vector K 3) :
    ∃ restT restDetected restGyrLpState restLastGyrLp restLastSquaredDeviations,
      v.watchGyr gyr = { v with
        state := { v.state with
          restT, restDetected, restGyrLpState, restLastGyrLp, restLastSquaredDeviations } } := by
  unfold watchGyr
  split
  · exact ⟨_, _, _, _, _, rfl⟩
  · exact ⟨v.state.restT, v.state.restDetected, v.state.restGyrLpState, v.state.restLastGyrLp,
      v.state.restLastSquaredDeviations, rfl⟩

theorem integrateGyr_writes (v : Vqf K) (gyr : Vector K 3) :
    ∃ gyrQuat, v.integrateGyr gyr = { v with state := { v.state with gyrQuat } } := by
  unfold integrateGyr
  dsimp only
  split
  · exact ⟨_, rfl⟩
  · exact ⟨v.state.gyrQuat, rfl⟩

theorem watchAcc_writes (v : Vqf K) (acc : Vector K 3) :
    ∃ restT restDetected restAccLpState restLastAccLp restLastSquaredDeviations,
      v.watchAcc acc = { v with
        state := { v.state with
          restT, restDetected, restAccLpState, restLastAccLp, restLastSquaredDeviations } } := by
  unfold watchAcc
  split
  · exact ⟨_, _, _, _, _, rfl⟩
  · exact ⟨v.state.restT, v.state.restDetected, v.state.restAccLpState, v.state.restLastAccLp,
      v.state.restLastSquaredDeviations, rfl⟩

theorem correctBias_writes (v : Vqf K) (e w : Vector K 3) (r : Mat3 K) :
    ∃ bias biasP, v.correctBias e w r = { v with state := { v.state with bias, biasP } } := by
  unfold correctBias
  dsimp only
  split
  · exact ⟨v.state.bias, v.state.biasP, rfl⟩
  · exact ⟨_, _, rfl⟩

theorem updateBiasKalman_writes (v : Vqf K) (accE6Norm : Vector K 3) :
    ∃ bias biasP motionBiasEstBiasLpState motionBiasEstRLpState,
      v.updateBiasKalman accE6Norm = { v with
        state := { v.state with bias, biasP, motionBiasEstBiasLpState, motionBiasEstRLpState } } := by
  unfold updateBiasKalman
  split
  · exact ⟨v.state.bias, v.state.biasP, v.state.motionBiasEstBiasLpState, v.state.motionBiasEstRLpState, rfl⟩
  · dsimp only
    split
    · rename_i e w r _
      obtain ⟨bias, biasP, heq⟩ := correctBias_writes v.filterMotionBias.1.inflateBiasP e w r
      exact ⟨bias, biasP, _, _, heq⟩
    · exact ⟨_, _, _, _, rfl⟩

theorem filterNormDip_writes (v : Vqf K) (ndIn : Vector K 2) :
    ∃ magNormDip magNormDipLpState,
      v.filterNormDip ndIn = { v with state := { v.state with magNormDip, magNormDipLpState } } := by
  unfold filterNormDip
  split
  · exact ⟨_, _, rfl⟩
  · exact ⟨ndIn, v.state.magNormDipLpState, rfl⟩

theorem watchReference_writes (v : Vqf K) :
    ∃ magUndisturbedT magDistDetected magRefNorm magRefDip,
      v.watchReference = { v with
        state := { v.state with magUndisturbedT, magDistDetected, magRefNorm, magRefDip } } := by
  unfold watchReference
  dsimp only
  split
  · split
    · exact ⟨_, _, _, _, rfl⟩
    · exact ⟨_, v.state.magDistDetected, v.state.magRefNorm, v.state.magRefDip, rfl⟩
  · exact ⟨_, _, v.state.magRefNorm, v.state.magRefDip, rfl⟩

theorem watchCandidate_writes (v : Vqf K) :
    ∃ magUndisturbedT magDistDetected magRefNorm magRefDip magCandidateT magCandidateNorm magCandidateDip,
      v.watchCandidate = { v with
        state := { v.state with
          magUndisturbedT, magDistDetected, magRefNorm, magRefDip, magCandidateT, magCandidateNorm,
          magCandidateDip } } := by
  unfold watchCandidate
  dsimp only
  split
  · split
    · exact ⟨_, _, _, _, _, _, _, rfl⟩
    · exact ⟨_, _, _, _, _, _, _, rfl⟩
  · exact ⟨v.state.magUndisturbedT, v.state.magDistDetected, v.state.magRefNorm, v.state.magRefDip, _, _, _, rfl⟩

theorem watchField_writes (v : Vqf K) (magEarth : Vector K 3) :
    ∃ magNormDip magNormDipLpState magUndisturbedT magDistDetected magRefNorm magRefDip magCandidateT
      magCandidateNorm magCandidateDip,
      v.watchField magEarth = { v with
        state := { v.state with
          magNormDip, magNormDipLpState, magUndisturbedT, magDistDetected, magRefNorm, magRefDip, magCandidateT,
          magCandidateNorm, magCandidateDip } } := by
  unfold watchField
  split
  · obtain ⟨_, _, hfilter⟩ := filterNormDip_writes v (normAndDip magEarth)
    rw [hfilter]
    obtain ⟨_, _, _, _, hreference⟩ := watchReference_writes { v with state := { v.state with
      magNormDip := _, magNormDipLpState := _ } }
    rw [hreference]
    obtain ⟨_, _, _, _, _, _, _, hcandidate⟩ := watchCandidate_writes { v with state := { v.state with
      magNormDip := _, magNormDipLpState := _, magUndisturbedT := _, magDistDetected := _, magRefNorm := _,
      magRefDip := _ } }
    rw [hcandidate]
    exact ⟨_, _, _, _, _, _, _, _, _, rfl⟩
  · exact ⟨v.state.magNormDip, v.state.magNormDipLpState, v.state.magUndisturbedT, v.state.magDistDetected,
      v.state.magRefNorm, v.state.magRefDip, v.state.magCandidateT, v.state.magCandidateNorm, v.state.magCandidateDip,
      rfl⟩

theorem rejectionGain_writes (v : Vqf K) :
    ∃ magRejectT, v.rejectionGain.1 = { v with state := { v.state with magRejectT } } := by
  unfold rejectionGain
  dsimp only
  split
  · split
    · split
      · exact ⟨_, rfl⟩
      · exact ⟨v.state.magRejectT, rfl⟩
    · exact ⟨_, rfl⟩
  · exact ⟨v.state.magRejectT, rfl⟩

theorem initialGain_writes (v : Vqf K) (k : K) :
    ∃ kMagInit, (v.initialGain k).1 = { v with state := { v.state with kMagInit } } := by
  unfold initialGain
  dsimp only
  split
  · exact ⟨v.state.kMagInit, rfl⟩
  · exact ⟨_, rfl⟩

/-- The gain that the heading is corrected with. -/
def headingGain (v : Vqf K) : K := (v.rejectionGain.1.initialGain v.rejectionGain.2).2

/-- The angle from the heading to that of the field. -/
def disagreement (v : Vqf K) (magEarth : Vector K 3) : K :=
  wrapPi (VqfScalar.atan2 magEarth.x magEarth.y - v.state.delta)

theorem correctHeading_writes (v : Vqf K) (magEarth : Vector K 3) :
    ∃ magRejectT,
      v.correctHeading magEarth = { v with
        state := { v.state with
          magRejectT
          kMagInit := (v.rejectionGain.1.initialGain v.rejectionGain.2).1.state.kMagInit
          lastMagDisAngle := v.disagreement magEarth
          lastMagCorrAngularRate := v.headingGain * v.disagreement magEarth / v.coeffs.magTs
          delta := wrapPi (v.state.delta + v.headingGain * v.disagreement magEarth) } } := by
  obtain ⟨magRejectT, hreject⟩ := rejectionGain_writes v
  obtain ⟨kMagInit, hinit⟩ := initialGain_writes v.rejectionGain.1 v.rejectionGain.2
  obtain ⟨w, hw⟩ : ∃ w, w = (v.rejectionGain.1.initialGain v.rejectionGain.2).1 := ⟨_, rfl⟩
  have heq : v.correctHeading magEarth = { w with
      state := { w.state with
        lastMagDisAngle := v.disagreement magEarth
        lastMagCorrAngularRate := v.headingGain * v.disagreement magEarth / w.coeffs.magTs
        delta := wrapPi (w.state.delta + v.headingGain * v.disagreement magEarth) } } := by
    rw [hw]
    rfl
  rw [← hw, hreject] at hinit
  rw [heq, ← hw, hinit]
  exact ⟨magRejectT, rfl⟩

end Vqf

/-! ### The whole update -/

/-- Every part of an update keeps `I`. -/
structure PartsKeep (I : Vqf K → Prop) : Prop where
  watchGyr {v : Vqf K} (gyro : Vector K 3) : I v → I (v.watchGyr gyro)
  integrateGyr {v : Vqf K} (gyro : Vector K 3) : I v → I (v.integrateGyr gyro)
  watchAcc {v : Vqf K} (accel : Vector K 3) : I v → I (v.watchAcc accel)
  filterAcc {v : Vqf K} (accel : Vector K 3) : I v → I (v.filterAcc accel)
  correctInclination {v : Vqf K} : I v → I v.correctInclination
  updateBiasKalman {v : Vqf K} (accE6Norm : Vector K 3) : I v → I (v.updateBiasKalman accE6Norm)
  seeMag {v : Vqf K} : I v → I v.seeMag
  watchField {v : Vqf K} (magEarth : Vector K 3) : I v → I (v.watchField magEarth)
  correctHeading {v : Vqf K} (magEarth : Vector K 3) : I v → I (v.correctHeading magEarth)

/-- The states agree on the settings and on what the filter estimates. -/
structure SameEstimate (v w : Vqf K) : Prop where
  params : w.params = v.params
  coeffs : w.coeffs = v.coeffs
  accQuat : w.state.accQuat = v.state.accQuat
  bias : w.state.bias = v.state.bias
  biasP : w.state.biasP = v.state.biasP
  delta : w.state.delta = v.state.delta
  kMagInit : w.state.kMagInit = v.state.kMagInit
  lastMagDisAngle : w.state.lastMagDisAngle = v.state.lastMagDisAngle

namespace SameEstimate

variable (v : Vqf K)

theorem watchGyr (gyro : Vector K 3) : SameEstimate v (v.watchGyr gyro) := by
  obtain ⟨_, _, _, _, _, heq⟩ := v.watchGyr_writes gyro
  rw [heq]
  constructor <;> rfl

theorem integrateGyr (gyro : Vector K 3) : SameEstimate v (v.integrateGyr gyro) := by
  obtain ⟨_, heq⟩ := v.integrateGyr_writes gyro
  rw [heq]
  constructor <;> rfl

theorem updateGyr (gyro : Vector K 3) : SameEstimate v (v.updateGyr gyro) := by
  obtain ⟨_, hintegrate⟩ := (v.watchGyr gyro).integrateGyr_writes gyro
  obtain ⟨_, _, _, _, _, hwatch⟩ := v.watchGyr_writes gyro
  rw [Vqf.updateGyr, hintegrate, hwatch]
  constructor <;> rfl

theorem watchAcc (accel : Vector K 3) : SameEstimate v (v.watchAcc accel) := by
  obtain ⟨_, _, _, _, _, heq⟩ := v.watchAcc_writes accel
  rw [heq]
  constructor <;> rfl

theorem filterAcc (accel : Vector K 3) : SameEstimate v (v.filterAcc accel) := by
  constructor <;> rfl

omit [VqfScalar K] in
theorem seeMag : SameEstimate v v.seeMag := by
  constructor <;> rfl

theorem watchField (magEarth : Vector K 3) : SameEstimate v (v.watchField magEarth) := by
  obtain ⟨_, _, _, _, _, _, _, _, _, heq⟩ := v.watchField_writes magEarth
  rw [heq]
  constructor <;> rfl

end SameEstimate

namespace PartsKeep

variable {I : Vqf K → Prop} {v : Vqf K}

/-- The parts that watch and filter do not change the estimate; the other three are the corrections. -/
theorem of_sameEstimate (hsame : ∀ {v w : Vqf K}, SameEstimate v w → I v → I w)
    (hinclination : ∀ {v : Vqf K}, I v → I v.correctInclination)
    (hbias : ∀ {v : Vqf K} (accE6Norm : Vector K 3), I v → I (v.updateBiasKalman accE6Norm))
    (hheading : ∀ {v : Vqf K} (magEarth : Vector K 3), I v → I (v.correctHeading magEarth)) : PartsKeep I where
  watchGyr {v} gyro h := hsame (.watchGyr v gyro) h
  integrateGyr {v} gyro h := hsame (.integrateGyr v gyro) h
  watchAcc {v} accel h := hsame (.watchAcc v accel) h
  filterAcc {v} accel h := hsame (.filterAcc v accel) h
  correctInclination := hinclination
  updateBiasKalman := hbias
  seeMag {v} h := hsame (.seeMag v) h
  watchField {v} magEarth h := hsame (.watchField v magEarth) h
  correctHeading := hheading

theorem updateGyr (keep : PartsKeep I) (gyro : Vector K 3) (h : I v) : I (v.updateGyr gyro) :=
  keep.integrateGyr gyro (keep.watchGyr gyro h)

theorem updateAcc (keep : PartsKeep I) (accel : Vector K 3) (h : I v) : I (v.updateAcc accel) := by
  by_cases hzero : accel.all Vqf.isZero
  · rw [Vqf.updateAcc, if_pos hzero]
    exact h
  · rw [Vqf.updateAcc_of_nonzero hzero]
    exact keep.updateBiasKalman _ (keep.correctInclination (keep.filterAcc accel (keep.watchAcc accel h)))

theorem updateMag (keep : PartsKeep I) (mag : Vector K 3) (h : I v) : I (v.updateMag mag) := by
  by_cases hzero : mag.all Vqf.isZero
  · rw [Vqf.updateMag, if_pos hzero]
    exact h
  · rw [Vqf.updateMag_of_nonzero hzero]
    exact keep.correctHeading _ (keep.watchField _ (keep.seeMag h))

theorem update (keep : PartsKeep I) (gyro accel : Vector K 3) (mag : Option (Vector K 3)) (h : I v) :
    I (v.update gyro accel mag) := by
  have hacc : I ((v.updateGyr gyro).updateAcc accel) := keep.updateAcc accel (keep.updateGyr gyro h)
  cases mag with
  | none => exact hacc
  | some mag => exact keep.updateMag mag hacc

end PartsKeep

end EverythingImu.Fusion
