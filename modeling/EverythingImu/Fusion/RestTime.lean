import EverythingImu.Fusion.Heading
import EverythingImu.Library.SinceReset

/-!
# The rest detection

The timer of the rest detection (`update_gyr` and `update_acc` of `vqf.rs`) over the exact reals.  The gyroscope and the
accelerometer of an update each look at it in turn.  It is the time of the samples since the last update that was not at
rest, and rest is detected exactly when it has reached `rest_min_t` (`restT_eq_restTime`).
-/

namespace EverythingImu.Fusion

open SinceReset

section Code

variable {K : Type} [VqfScalar K]

namespace Vqf

/-- The filtered gyroscope says that the device is not at rest. -/
def gyrViolates (v : Vqf K) (gyr : Vector K 3) : Bool :=
  let gyrLp := (filterVecN gyr v.coeffs.restGyrLp v.state.restGyrLpState).1
  let restThGyrRad := toRad v.params.restThGyr
  restThGyrRad * restThGyrRad ≤ normSq (Vector.zipWith (· - ·) gyr gyrLp) ∨
    v.biasClip < gyrLp.toList.foldl (fun m x => larger m (Scalar.abs x)) 0.0

/-- The filtered acceleration says so. -/
def accViolates (v : Vqf K) (acc : Vector K 3) : Bool :=
  v.params.restThAcc * v.params.restThAcc ≤
    normSq (Vector.zipWith (· - ·) acc (filterVecN acc v.coeffs.restAccLp v.state.restAccLpState).1)

end Vqf

/-- What one update says about rest. -/
structure RestEntry (K : Type) where
  accTs : K
  measured : Bool
  gyrViolates : Bool
  accViolates : Bool

def RestEntry.violates (e : RestEntry K) : Bool := e.gyrViolates || e.accViolates

def Vqf.restEntry (v : Vqf K) (gyro accel : Vector K 3) : RestEntry K where
  accTs := v.coeffs.accTs
  measured := !accel.all isZero
  gyrViolates := v.gyrViolates gyro
  accViolates := !accel.all isZero && v.accViolates accel

/-- The log after an operation. -/
def Vqf.logAfter (v : Vqf K) (log : List (RestEntry K)) : VqfOp K → List (RestEntry K)
  | .update gyro accel _ => log ++ [v.restEntry gyro accel]
  | .resetState => []
  | .setTimestep _ | .setTauAcc _ | .setTauMag _ | .setBiasEstimate _ _ => log

/-- The updates since the filter was made or reset. -/
def Vqf.restLog (v : Vqf K) (log : List (RestEntry K)) : List (VqfOp K) → List (RestEntry K)
  | [] => log
  | op :: ops => (v.apply op).restLog (v.logAfter log op) ops

theorem watchGyr_rest {v : Vqf K} (henabled : v.params.restBiasEstEnabled = true) (gyro : Vector K 3) :
    (v.watchGyr gyro).state.restT = (if v.gyrViolates gyro then 0.0 else v.state.restT) ∧
      (v.watchGyr gyro).state.restDetected = (if v.gyrViolates gyro then false else v.state.restDetected) := by
  unfold Vqf.watchGyr
  rw [if_pos (.inl henabled)]
  exact ⟨rfl, rfl⟩

theorem watchAcc_rest {v : Vqf K} (henabled : v.params.restBiasEstEnabled = true) (accel : Vector K 3) :
    (v.watchAcc accel).state.restT = (if v.accViolates accel then 0.0 else v.state.restT + v.coeffs.accTs) ∧
      (v.watchAcc accel).state.restDetected =
        (if v.accViolates accel then false
        else if v.params.restMinT ≤ (v.watchAcc accel).state.restT then true else v.state.restDetected) := by
  unfold Vqf.watchAcc
  rw [if_pos henabled]
  exact ⟨rfl, rfl⟩

/-- The timer is as it was. -/
structure SameRest (v v' : Vqf K) : Prop where
  params : v'.params = v.params
  coeffs : v'.coeffs = v.coeffs
  restT : v'.state.restT = v.state.restT
  restDetected : v'.state.restDetected = v.state.restDetected

theorem integrateGyr_rest (v : Vqf K) (gyro : Vector K 3) : SameRest v (v.integrateGyr gyro) := by
  obtain ⟨_, heq⟩ := v.integrateGyr_writes gyro
  rw [heq]
  exact ⟨rfl, rfl, rfl, rfl⟩

theorem updateAcc_rest {v : Vqf K} {accel : Vector K 3} (h : ¬ accel.all Vqf.isZero) :
    SameRest (v.watchAcc accel) (v.updateAcc accel) := by
  rw [Vqf.updateAcc_of_nonzero h]
  obtain ⟨_, _, _, _, heq⟩ := ((v.watchAcc accel).filterAcc accel).correctInclination.updateBiasKalman_writes
    ((v.watchAcc accel).filterAcc accel).accE6
  rw [heq]
  exact ⟨rfl, rfl, rfl, rfl⟩

theorem updateMag_rest (v : Vqf K) (mag : Vector K 3) : SameRest v (v.updateMag mag) := by
  by_cases hzero : mag.all Vqf.isZero
  · rw [Vqf.updateMag, if_pos hzero]
    exact ⟨rfl, rfl, rfl, rfl⟩
  · rw [Vqf.updateMag_of_nonzero hzero]
    obtain ⟨_, hheading⟩ := (v.seeMag.watchField (quatRotate v.state.quat6d mag)).correctHeading_writes
      (quatRotate v.state.quat6d mag)
    obtain ⟨_, _, _, _, _, _, _, _, _, hfield⟩ := v.seeMag.watchField_writes (quatRotate v.state.quat6d mag)
    rw [hheading, hfield]
    exact ⟨rfl, rfl, rfl, rfl⟩

/-- The gyroscope step leaves what the accelerometer step looks at. -/
theorem accViolates_updateGyr (v : Vqf K) (gyro accel : Vector K 3) :
    (v.updateGyr gyro).accViolates accel = v.accViolates accel := by
  obtain ⟨_, hintegrate⟩ := (v.watchGyr gyro).integrateGyr_writes gyro
  obtain ⟨_, _, _, _, _, hwatch⟩ := v.watchGyr_writes gyro
  rw [Vqf.updateGyr, hintegrate, hwatch]
  rfl

end Code

section Exact

/-- The time of the samples since the last update that was not at rest.  If only its gyroscope part was not, the sample
of that update counts: the accelerometer step comes after the reset. -/
noncomputable def restTime (log : List (RestEntry ℝ)) : ℝ :=
  sumSince RestEntry.violates (fun e => if e.accViolates then 0 else if e.measured then e.accTs else 0)
    (fun e => if e.measured then e.accTs else 0) log

theorem restTime_concat (log : List (RestEntry ℝ)) (e : RestEntry ℝ) :
    restTime (log ++ [e]) =
      if e.accViolates then 0
      else (if e.gyrViolates then 0 else restTime log) + (if e.measured then e.accTs else 0) := by
  obtain ⟨accTs, measured, gyrViolates, accViolates⟩ := e
  cases accViolates
  · cases gyrViolates
    · rw [restTime, sumSince_concat _ rfl]
      rfl
    · rw [restTime, sumSince_concat_of_reset _ rfl]
      simp
  · rw [restTime, sumSince_concat_of_reset _ (by simp [RestEntry.violates])]
    rfl

/-- The flag says that the timer has run long enough. -/
structure TimerFits (v : Vqf ℝ) : Prop where
  enabled : v.params.restBiasEstEnabled = true
  restMinT : 0 < v.params.restMinT
  accTs : 0 ≤ v.coeffs.accTs
  restDetected : v.state.restDetected = true ↔ v.params.restMinT ≤ v.state.restT

variable {v v' : Vqf ℝ}

/-- With the settings as they were only the flag is left to look at. -/
theorem TimerFits.of_settings (h : TimerFits v) (hparams : v'.params = v.params) (hcoeffs : v'.coeffs = v.coeffs)
    (hdetected : v'.state.restDetected = true ↔ v.params.restMinT ≤ v'.state.restT) : TimerFits v' where
  enabled := by rw [hparams]; exact h.enabled
  restMinT := by rw [hparams]; exact h.restMinT
  accTs := by rw [hcoeffs]; exact h.accTs
  restDetected := by rw [hparams]; exact hdetected

theorem TimerFits.of_same (h : TimerFits v) (same : SameRest v v') : TimerFits v' := by
  refine h.of_settings same.params same.coeffs ?_
  rw [same.restDetected, same.restT]
  exact h.restDetected

variable [ExactFunctions]

theorem TimerFits.updateGyr (h : TimerFits v) (gyro : Vector ℝ 3) :
    TimerFits (v.updateGyr gyro) ∧
      (v.updateGyr gyro).state.restT = (if v.gyrViolates gyro then 0 else v.state.restT) := by
  have hzero : (0.0 : ℝ) = 0 := by norm_num
  have settings := SameEstimate.updateGyr v gyro
  obtain ⟨hrestT, hdetected⟩ := watchGyr_rest h.enabled gyro
  have same := integrateGyr_rest (v.watchGyr gyro) gyro
  have hT : (v.updateGyr gyro).state.restT = (if v.gyrViolates gyro then 0 else v.state.restT) := by
    rw [Vqf.updateGyr, same.restT, hrestT, hzero]
  have hD : (v.updateGyr gyro).state.restDetected = (if v.gyrViolates gyro then false else v.state.restDetected) := by
    rw [Vqf.updateGyr, same.restDetected, hdetected]
  refine ⟨h.of_settings settings.params settings.coeffs ?_, hT⟩
  rw [hD, hT]
  split
  · exact iff_of_false Bool.false_ne_true (not_le.2 h.restMinT)
  · exact h.restDetected

theorem TimerFits.watchAcc (h : TimerFits v) (accel : Vector ℝ 3) :
    TimerFits (v.watchAcc accel) ∧
      (v.watchAcc accel).state.restT = (if v.accViolates accel then 0 else v.state.restT + v.coeffs.accTs) := by
  have hzero : (0.0 : ℝ) = 0 := by norm_num
  have settings := SameEstimate.watchAcc v accel
  obtain ⟨hT, hD⟩ := watchAcc_rest h.enabled accel
  rw [hzero] at hT
  refine ⟨h.of_settings settings.params settings.coeffs ?_, hT⟩
  rw [hD, hT]
  split
  · exact iff_of_false Bool.false_ne_true (not_le.2 h.restMinT)
  · split
    · rename_i hreached
      exact iff_of_true rfl hreached
    · -- the timer only grows, so it had not run long enough before
      rename_i hshort
      have hbefore : ¬ v.params.restMinT ≤ v.state.restT := by
        have := h.accTs
        intro hle
        exact hshort (by linarith)
      exact iff_of_false (mt h.restDetected.1 hbefore) hshort

theorem TimerFits.updateAcc (h : TimerFits v) (accel : Vector ℝ 3) :
    TimerFits (v.updateAcc accel) ∧
      (v.updateAcc accel).state.restT =
        (if accel.all Vqf.isZero then v.state.restT
        else if v.accViolates accel then 0 else v.state.restT + v.coeffs.accTs) := by
  by_cases hzero : accel.all Vqf.isZero
  · rw [Vqf.updateAcc, if_pos hzero, if_pos hzero]
    exact ⟨h, rfl⟩
  · obtain ⟨hfits, hT⟩ := h.watchAcc accel
    have same := updateAcc_rest (v := v) hzero
    rw [if_neg hzero, same.restT]
    exact ⟨hfits.of_same same, hT⟩

/-- One update adds its entry. -/
theorem TimerFits.update (h : TimerFits v) {log : List (RestEntry ℝ)} (hlog : v.state.restT = restTime log)
    (gyro accel : Vector ℝ 3) (mag : Option (Vector ℝ 3)) :
    TimerFits (v.update gyro accel mag) ∧
      (v.update gyro accel mag).state.restT = restTime (log ++ [v.restEntry gyro accel]) := by
  obtain ⟨hgyr, hgyrT⟩ := h.updateGyr gyro
  obtain ⟨hacc, haccT⟩ := hgyr.updateAcc accel
  have same : SameRest ((v.updateGyr gyro).updateAcc accel) (v.update gyro accel mag) := by
    cases mag with
    | none => exact ⟨rfl, rfl, rfl, rfl⟩
    | some mag => exact updateMag_rest _ mag
  refine ⟨hacc.of_same same, ?_⟩
  rw [same.restT, haccT, hgyrT, accViolates_updateGyr, (SameEstimate.updateGyr v gyro).coeffs, hlog, restTime_concat]
  by_cases hzero : accel.all Vqf.isZero
  · simp [Vqf.restEntry, hzero]
  · by_cases hacc : v.accViolates accel
    · simp [Vqf.restEntry, hzero, hacc]
    · simp [Vqf.restEntry, hzero, hacc]

/-! ### Runs -/

theorem timerFits_fresh {params : VqfParams ℝ} (henabled : params.restBiasEstEnabled = true)
    (hmin : 0 < params.restMinT) (coeffs : VqfCoeffs ℝ) (gyrTs : ℝ) {accTs : ℝ} (hts : 0 ≤ accTs) (magTs : ℝ) :
    TimerFits (Vqf.setup ⟨params, .default, coeffs⟩ gyrTs accTs magTs) := by
  have hzero : (0.0 : ℝ) = 0 := by norm_num
  refine ⟨henabled, hmin, hts, iff_of_false Bool.false_ne_true ?_⟩
  show ¬ params.restMinT ≤ 0.0
  rw [hzero]
  exact not_le.2 hmin

theorem TimerFits.apply (h : TimerFits v) {log : List (RestEntry ℝ)} (hlog : v.state.restT = restTime log)
    (op : VqfOp ℝ) (hop : ∀ ts ∈ op.newTimestep, 0 ≤ ts) :
    TimerFits (v.apply op) ∧ (v.apply op).state.restT = restTime (v.logAfter log op) := by
  cases op with
  | update gyro accel mag => exact h.update hlog gyro accel mag
  | setTimestep gyrTs => exact ⟨{ h with accTs := hop gyrTs rfl }, hlog⟩
  | setTauAcc tau => exact ⟨{ h with }, hlog⟩
  | setTauMag tau => exact ⟨{ h with }, hlog⟩
  | setBiasEstimate bias sigma => exact ⟨{ h with }, hlog⟩
  | resetState =>
    refine ⟨timerFits_fresh h.enabled h.restMinT _ _ h.accTs _, ?_⟩
    show (0.0 : ℝ) = restTime []
    rw [restTime, sumSince_nil]
    norm_num

theorem TimerFits.run (h : TimerFits v) {log : List (RestEntry ℝ)} (hlog : v.state.restT = restTime log)
    (ops : List (VqfOp ℝ)) (hops : ∀ op ∈ ops, ∀ ts ∈ op.newTimestep, 0 ≤ ts) :
    TimerFits (v.run ops) ∧ (v.run ops).state.restT = restTime (v.restLog log ops) := by
  induction ops generalizing v log with
  | nil => exact ⟨h, hlog⟩
  | cons op ops ih =>
    obtain ⟨happly, hrest⟩ := h.apply hlog op (hops op List.mem_cons_self)
    exact ih happly hrest fun op' hop' => hops op' (List.mem_cons_of_mem op hop')

/-- After every run rest is detected exactly if the timer has reached its minimum, and the timer is the time of the
samples since the last update that was not at rest. -/
theorem restT_eq_restTime (params : VqfParams ℝ) (henabled : params.restBiasEstEnabled = true)
    (hmin : 0 < params.restMinT) (gyrTs accTs magTs : ℝ) (hts : 0 ≤ accTs) (ops : List (VqfOp ℝ))
    (hops : ∀ op ∈ ops, ∀ ts ∈ op.newTimestep, 0 ≤ ts) :
    let start := Vqf.withParamsAndTimesteps params gyrTs accTs magTs
    ((start.run ops).state.restDetected = true ↔ (start.run ops).params.restMinT ≤ (start.run ops).state.restT) ∧
      (start.run ops).state.restT = restTime (start.restLog [] ops) := by
  intro start
  have hstart : TimerFits start := timerFits_fresh henabled hmin _ gyrTs hts magTs
  have hzero : start.state.restT = restTime [] := by
    show (0.0 : ℝ) = restTime []
    rw [restTime, sumSince_nil]
    norm_num
  obtain ⟨hfits, hT⟩ := hstart.run hzero ops hops
  exact ⟨hfits.restDetected, hT⟩

end Exact

/-- A spin breaks the rest of a new filter, and its sample and those after it count. -/
theorem restT_eq_restTime_spin :
    letI := ExactFunctions.standard
    let start := Vqf.new (0.01 : ℝ)
    let ops := [.update #v[10, 0, 0] #v[0, 0, 1] none, .update (.replicate 3 0) #v[0, 0, 1] none, .setTimestep 0.02,
      .update (.replicate 3 0) #v[0, 0, 1] none]
    (start.restEntry #v[10, 0, 0] #v[0, 0, 1]).violates = true ∧
      (start.run ops).state.restT = restTime (start.restLog [] ops) := by
  let := ExactFunctions.standard
  intro start ops
  constructor
  · -- the first output of a filter is its first input, so the spin is past the clip
    have hfirst :
        (filterVecN #v[10, 0, 0] start.coeffs.restGyrLp start.state.restGyrLpState).1 = #v[(10 : ℝ), 0, 0] := by
      show (filterVecN #v[(10 : ℝ), 0, 0] _ (.replicate 3 none)).1 = _
      ext i hi
      rw [getElem_filterVecN_fst _ _ _ hi, Vector.getElem_replicate, filterComponent]
    have hclip : start.biasClip < 10 := by
      show (2.0 : ℝ) * Real.pi / 180.0 < 10
      have := Real.pi_le_four
      norm_num
      linarith
    have hgyr : start.gyrViolates #v[10, 0, 0] = true := by
      refine decide_eq_true (.inr ?_)
      rw [hfirst]
      refine hclip.trans_le ?_
      norm_num [larger, Scalar.abs]
    rw [RestEntry.violates, Vqf.restEntry, hgyr, Bool.true_or]
  · refine (restT_eq_restTime .default rfl ?_ 0.01 0.01 0.01 (by norm_num) ops ?_).2
    · show (0 : ℝ) < 1.5
      norm_num
    · intro op hop ts hts
      have hset : op.newTimestep = none ∨ op.newTimestep = some 0.02 := by
        simp only [ops, List.mem_cons, List.not_mem_nil, or_false] at hop
        obtain rfl | rfl | rfl | rfl := hop <;> simp [VqfOp.newTimestep]
      rcases hset with hset | hset <;> rw [hset] at hts
      · cases hts
      · obtain rfl := Option.some.inj hts
        norm_num

end EverythingImu.Fusion
