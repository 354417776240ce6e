import EverythingImu.Core.ExactTimestep
import Mathlib.Algebra.Order.Archimedean.Basic
import Mathlib.Tactic.GCongr
import Mathlib.Tactic.Positivity
import Mathlib.Tactic.Ring

/-!
# The timestep under a steady delivery

A device that has no hardware timestamps delivers batches of one size at a constant rate.  The first window counts the
batch that opens it as well, the later ones count the rate exactly; so the smoothed rate falls to the real one, and the
measured periods rise to the real period.  The timestep follows them with its hysteresis and comes within 5 percent of
the period, as long as the period is not longer than the 25 ms that a measured period is cut to: from 40 Hz on
(`steady_converges`).
-/

namespace EverythingImu.Core.RateCal

open Hysteresis

/-- Batch `k` of a steady delivery: `n` samples, `d` nanoseconds behind the batch before. -/
def steadyBatch (n d : Nat) (start : Instant) (k : Nat) : Batch := ⟨List.replicate n 0, start + k * d⟩

/-- The estimators after the first `k` batches. -/
def steady (nominalHz : ℚ) (n d : Nat) (start : Instant) : Nat → RateCal ℚ
  | 0 => RateCal.new (1 / nominalHz)
  | k + 1 => (steady nominalHz n d start k).handleSamples (steadyBatch n d start k)

/-- The samples per second. -/
def rateHz (n d : Nat) : ℚ := n * 1_000_000_000 / d

/-- From some batch on the timestep is within the apply threshold of the real period. -/
def Converges (nominalHz : ℚ) (n d : Nat) (start : Instant) : Prop :=
  ∃ N, ∀ k, N ≤ k → |1 / rateHz n d - (steady nominalHz n d start k).gyrTsCurrent| ≤
    1 / 20 * (steady nominalHz n d start k).gyrTsCurrent

/-- The number of the first batch that is `ns` nanoseconds late. -/
def batchesIn (ns d : Nat) : Nat := (ns + d - 1) / d

theorem lt_batchesIn {ns d k : Nat} (hd : 0 < d) : k < batchesIn ns d ↔ k * d < ns := by
  rw [batchesIn, Nat.lt_iff_add_one_le, Nat.le_div_iff_mul_le hd, Nat.succ_mul]
  omega

theorem batchesIn_le {ns d k : Nat} (hd : 0 < d) : batchesIn ns d ≤ k ↔ ns ≤ k * d := by
  rw [← not_lt, lt_batchesIn hd, not_lt]

section Windows

variable {nominalHz : ℚ} {n d : Nat} {start : Instant}

/-- Until the connect backlog is drained. -/
def waiting (start : Instant) (ts : ℚ) : RateCal ℚ := ⟨ts, some start, none, 0, none, none, 0⟩

/-- In the window that batch `i` opened or started. -/
def opened (start : Instant) (d i samples : Nat) (ema : Option ℚ) (ts : ℚ) : RateCal ℚ :=
  ⟨ts, some start, some (start + i * d), samples, ema, none, 0⟩

theorem observeAll_replicate_zero (r : RateCal ℚ) (n : Nat) : (List.replicate n 0).foldl observeHw r = r := by
  induction n with
  | zero => rfl
  | succ n ih => exact ih

/-- Without timestamps the delivery rate is in charge. -/
theorem handleSamples_unstamped {r : RateCal ℚ} (hn : 0 < n) (hchip : r.hwDtEma = 0) (k : Nat) :
    r.handleSamples (steadyBatch n d start k) = (r.calibrateRate n (start + k * d)).1 := by
  have hne : ¬ (List.replicate n (0 : UInt64)).isEmpty = true := by simp [hn.ne']
  unfold handleSamples steadyBatch
  rw [if_neg hne, onBatch_rat, observeAll_replicate_zero, List.length_replicate]
  exact congrArg Prod.fst (if_neg (by rw [hchip]; exact lt_irrefl 0))

theorem steady_succ (k : Nat) :
    steady nominalHz n d start (k + 1) =
      (steady nominalHz n d start k).handleSamples (steadyBatch n d start k) := rfl

/-- The batches of the warm-up are not counted. -/
theorem steady_waiting (hn : 0 < n) (hd : 0 < d) {k : Nat} (hk : k < batchesIn 1_500_000_000 d) :
    steady nominalHz n d start (k + 1) = waiting start (1 / nominalHz) := by
  have hzero : (0.0 : ℚ) = 0 := by norm_num
  induction k with
  | zero =>
    rw [steady_succ, handleSamples_unstamped hn (show (0.0 : ℚ) = 0 from hzero), Nat.zero_mul, Nat.add_zero,
      calibrateRate_warmup hn.ne' (show start - start < 1_500_000_000 by rw [Nat.sub_self]; norm_num)]
    show (⟨1 / nominalHz, some start, none, 0, none, none, (0.0 : ℚ)⟩ : RateCal ℚ) = _
    rw [hzero]
    rfl
  | succ k ih =>
    have hlate : start + (k + 1) * d - start < 1_500_000_000 := by
      rw [Nat.add_sub_cancel_left]
      exact (lt_batchesIn hd).1 hk
    rw [steady_succ, ih (by omega), handleSamples_unstamped hn rfl, calibrateRate_warmup hn.ne' hlate]
    rfl

/-- The first batch behind the warm-up opens the first window, and is counted in it. -/
theorem steady_first (hn : 0 < n) (hd : 0 < d) :
    steady nominalHz n d start (batchesIn 1_500_000_000 d + 1) =
      opened start d (batchesIn 1_500_000_000 d) n none (1 / nominalHz) := by
  have hpos : 0 < batchesIn 1_500_000_000 d := (lt_batchesIn hd).2 (by omega)
  obtain ⟨k, hk⟩ : ∃ k, batchesIn 1_500_000_000 d = k + 1 := ⟨_, (Nat.succ_pred_eq_of_pos hpos).symm⟩
  have hwarm : 1_500_000_000 ≤ start + batchesIn 1_500_000_000 d * d - start := by
    rw [Nat.add_sub_cancel_left]
    exact (batchesIn_le hd).1 le_rfl
  have hstate : steady nominalHz n d start (batchesIn 1_500_000_000 d) = waiting start (1 / nominalHz) := by
    rw [hk]
    exact steady_waiting hn hd (by omega)
  have hopen : start + batchesIn 1_500_000_000 d * d - (start + batchesIn 1_500_000_000 d * d) < 4_000_000_000 := by
    rw [Nat.sub_self]
    norm_num
  rw [steady_succ, hstate, handleSamples_unstamped hn rfl, calibrateRate_counting hn.ne' hwarm hopen]
  show (⟨1 / nominalHz, some start, some _, 0 + n, none, none, 0⟩ : RateCal ℚ) = _
  rw [Nat.zero_add]
  rfl

private theorem window_length (start : Instant) (i j d : Nat) :
    start + (i + 1 + j) * d - (start + i * d) = (j + 1) * d := by
  have hsplit : (i + 1 + j) * d = i * d + (j + 1) * d := by ring
  rw [hsplit, ← Nat.add_assoc, Nat.add_sub_cancel_left]

/-- A window counts its batches. -/
theorem steady_counting (hn : 0 < n) (hd : 0 < d) {i samples : Nat} {ema : Option ℚ} {ts : ℚ}
    (hi : batchesIn 1_500_000_000 d ≤ i)
    (h : steady nominalHz n d start (i + 1) = opened start d i samples ema ts) {j : Nat}
    (hj : j < batchesIn 4_000_000_000 d) :
    steady nominalHz n d start (i + 1 + j) = opened start d i (samples + j * n) ema ts := by
  induction j with
  | zero => rw [Nat.add_zero, h, Nat.zero_mul, Nat.add_zero]
  | succ j ih =>
    have hwarm : 1_500_000_000 ≤ start + (i + 1 + j) * d - start := by
      rw [Nat.add_sub_cancel_left]
      exact (batchesIn_le hd).1 (by omega)
    have hopen : start + (i + 1 + j) * d - (start + i * d) < 4_000_000_000 := by
      rw [window_length]
      exact (lt_batchesIn hd).1 hj
    rw [← Nat.add_assoc, steady_succ, ih (by omega), handleSamples_unstamped hn rfl,
      calibrateRate_counting hn.ne' hwarm hopen]
    show opened start d i (samples + j * n + n) ema ts = _
    rw [Nat.succ_mul, Nat.add_assoc]

/-- The last batch of a window closes it and starts the next one. -/
theorem steady_closing (hn : 0 < n) (hd : 0 < d) {i samples : Nat} {ema : Option ℚ} {ts : ℚ} (hts : 0 < ts)
    (hi : batchesIn 1_500_000_000 d ≤ i)
    (h : steady nominalHz n d start (i + 1) = opened start d i samples ema ts) :
    let K := batchesIn 4_000_000_000 d
    let emaHz := emaAfter ema (((samples + K * n : Nat) : ℚ) / (((K * d : Nat) : ℚ) / 1_000_000_000))
    steady nominalHz n d start (i + K + 1) =
      opened start d (i + K) 0 (some emaHz) (follow (1 / 20) ts (measuredTs emaHz)) := by
  intro K emaHz
  have hpos : 0 < K := (lt_batchesIn hd).2 (by omega)
  obtain ⟨j, hj⟩ : ∃ j, K = j + 1 := ⟨_, (Nat.succ_pred_eq_of_pos hpos).symm⟩
  have hindex : i + K = i + 1 + j := by omega
  have hstate := steady_counting hn hd hi h (show j < K by omega)
  have hwarm : 1_500_000_000 ≤ start + (i + 1 + j) * d - start := by
    rw [Nat.add_sub_cancel_left]
    exact (batchesIn_le hd).1 (by omega)
  have hlong : 4_000_000_000 ≤ start + (i + 1 + j) * d - (start + i * d) := by
    rw [window_length, ← hj]
    exact (batchesIn_le hd).1 le_rfl
  have hsamples : samples + j * n + n = samples + K * n := by
    rw [hj, Nat.succ_mul, Nat.add_assoc]
  have hclosed := calibrateRate_closing (r := opened start d i (samples + j * n) ema ts) hn.ne' hwarm hlong hts
  have hema : emaAfter ema (((samples + j * n + n : Nat) : ℚ) /
    (((start + (i + 1 + j) * d - (start + i * d) : Nat) : ℚ) / 1_000_000_000)) = emaHz := by
    rw [hsamples, window_length, ← hj]
  rw [hindex, steady_succ, hstate, handleSamples_unstamped hn rfl, hclosed]
  exact congrArg (fun hz => opened start d (i + 1 + j) 0 (some hz) (follow (1 / 20) ts (measuredTs hz))) hema

/-- The smoothed rate behind window `m + 1`: what the batch that opened the first window added fades away. -/
def smoothedRate (n d m : Nat) : ℚ := rateHz n d * (1 + (3 / 4) ^ m / batchesIn 4_000_000_000 d)

/-- The measured periods. -/
def measured (n d m : Nat) : ℚ := measuredTs (smoothedRate n d m)

/-- The timestep behind the first `m` windows. -/
def windowTs (nominalHz : ℚ) (n d m : Nat) : ℚ := run (1 / 20) (1 / nominalHz) (measured n d) m

theorem windowTs_pos (hnominal : 0 < nominalHz) (m : Nat) : 0 < windowTs nominalHz n d m :=
  run_pos (one_div_pos.2 hnominal) (fun _ => measuredTs_pos _) m

private theorem cast_batchesIn_pos (hd : 0 < d) : (0 : ℚ) < (batchesIn 4_000_000_000 d : ℚ) :=
  Nat.cast_pos.2 ((lt_batchesIn hd).2 (by omega))

theorem smoothedRate_zero (hd : 0 < d) :
    emaAfter none (((n + batchesIn 4_000_000_000 d * n : Nat) : ℚ) /
      (((batchesIn 4_000_000_000 d * d : Nat) : ℚ) / 1_000_000_000)) = smoothedRate n d 0 := by
  have hK := cast_batchesIn_pos hd
  have hd' : (0 : ℚ) < d := Nat.cast_pos.2 hd
  unfold smoothedRate rateHz emaAfter
  push_cast
  field_simp
  ring

theorem smoothedRate_succ (hd : 0 < d) (m : Nat) :
    emaAfter (some (smoothedRate n d m)) (((0 + batchesIn 4_000_000_000 d * n : Nat) : ℚ) /
      (((batchesIn 4_000_000_000 d * d : Nat) : ℚ) / 1_000_000_000)) = smoothedRate n d (m + 1) := by
  have hK := cast_batchesIn_pos hd
  have hd' : (0 : ℚ) < d := Nat.cast_pos.2 hd
  unfold smoothedRate rateHz emaAfter
  push_cast
  field_simp
  ring

/-- Window after window: the first one has one batch more. -/
theorem steady_windows (hn : 0 < n) (hd : 0 < d) (hnominal : 0 < nominalHz) (m : Nat) :
    let i := batchesIn 1_500_000_000 d + batchesIn 4_000_000_000 d * m
    steady nominalHz n d start (i + 1) =
      match m with
      | 0 => opened start d i n none (1 / nominalHz)
      | m + 1 => opened start d i 0 (some (smoothedRate n d m)) (windowTs nominalHz n d (m + 1)) := by
  induction m with
  | zero => exact steady_first hn hd
  | succ m ih =>
    have hi : batchesIn 1_500_000_000 d ≤ batchesIn 1_500_000_000 d + batchesIn 4_000_000_000 d * m := by omega
    intro i
    have hindex : i = batchesIn 1_500_000_000 d + batchesIn 4_000_000_000 d * m + batchesIn 4_000_000_000 d := by
      show _ + _ * (m + 1) = _
      ring
    cases m with
    | zero =>
      have hclosing := steady_closing hn hd (one_div_pos.2 hnominal) hi ih
      simp only [smoothedRate_zero hd] at hclosing
      rw [hindex]
      exact hclosing
    | succ m =>
      have hclosing := steady_closing hn hd (windowTs_pos hnominal (m + 1)) hi ih
      simp only [smoothedRate_succ hd] at hclosing
      rw [hindex]
      exact hclosing

/-- The timestep at every batch behind the warm-up is that of the windows that have closed. -/
theorem gyrTsCurrent_steady (hn : 0 < n) (hd : 0 < d) (hnominal : 0 < nominalHz) (k : Nat) :
    (steady nominalHz n d start (batchesIn 1_500_000_000 d + 1 + k)).gyrTsCurrent =
      windowTs nominalHz n d (k / batchesIn 4_000_000_000 d) := by
  have hK : 0 < batchesIn 4_000_000_000 d := (lt_batchesIn hd).2 (by omega)
  generalize hm : k / batchesIn 4_000_000_000 d = m
  have hj : k % batchesIn 4_000_000_000 d < batchesIn 4_000_000_000 d := Nat.mod_lt k hK
  have hindex : batchesIn 1_500_000_000 d + 1 + k =
      batchesIn 1_500_000_000 d + batchesIn 4_000_000_000 d * m + 1 + k % batchesIn 4_000_000_000 d := by
    have hdiv := Nat.div_add_mod k (batchesIn 4_000_000_000 d)
    rw [hm] at hdiv
    omega
  rw [hindex]
  cases m with
  | zero =>
    rw [steady_counting hn hd (by omega) (steady_windows hn hd hnominal 0) hj]
    rfl
  | succ m =>
    rw [steady_counting hn hd (by omega) (steady_windows hn hd hnominal (m + 1)) hj]
    rfl

/-- It is enough to look at the windows. -/
theorem converges_iff (hn : 0 < n) (hd : 0 < d) (hnominal : 0 < nominalHz) :
    Converges nominalHz n d start ↔
      ∃ N, ∀ m, N ≤ m → |1 / rateHz n d - windowTs nominalHz n d m| ≤ 1 / 20 * windowTs nominalHz n d m := by
  have hK : 0 < batchesIn 4_000_000_000 d := (lt_batchesIn hd).2 (by omega)
  constructor
  · rintro ⟨N, hN⟩
    refine ⟨N, fun m hm => ?_⟩
    have hle : m ≤ batchesIn 4_000_000_000 d * m := Nat.le_mul_of_pos_left m hK
    have h := hN (batchesIn 1_500_000_000 d + 1 + batchesIn 4_000_000_000 d * m) (by omega)
    rwa [gyrTsCurrent_steady hn hd hnominal, Nat.mul_div_cancel_left m hK] at h
  · rintro ⟨N, hN⟩
    refine ⟨batchesIn 1_500_000_000 d + 1 + batchesIn 4_000_000_000 d * N, fun k hk => ?_⟩
    obtain ⟨j, rfl⟩ := Nat.exists_eq_add_of_le hk
    rw [Nat.add_assoc _ _ j, gyrTsCurrent_steady hn hd hnominal]
    exact hN _ ((Nat.le_div_iff_mul_le hK).2 (by rw [Nat.mul_comm N]; omega))

end Windows

/-! ### The measured periods -/

section Measured

variable {nominalHz : ℚ} {n d : Nat} {start : Instant}

/-- What the measured periods rise to. -/
def limitTs (n d : Nat) : ℚ := min (1 / rateHz n d) (1 / 40)

theorem rateHz_lt_smoothedRate (hd : 0 < d) (hR : 0 < rateHz n d) (m : Nat) : rateHz n d < smoothedRate n d m := by
  have hK := cast_batchesIn_pos hd
  have hshare : (0 : ℚ) < (3 / 4) ^ m / batchesIn 4_000_000_000 d := by positivity
  unfold smoothedRate
  exact lt_mul_of_one_lt_right hR (by linarith)

theorem smoothedRate_antitone (hd : 0 < d) (hR : 0 < rateHz n d) : Antitone (smoothedRate n d) := by
  have hK := cast_batchesIn_pos hd
  intro m m' h
  have hpow : (3 / 4 : ℚ) ^ m' ≤ (3 / 4) ^ m := pow_le_pow_of_le_one (by norm_num) (by norm_num) h
  unfold smoothedRate
  gcongr

theorem smoothedRate_le (hd : 0 < d) (hR : 0 < rateHz n d) (m : Nat) :
    smoothedRate n d m ≤ rateHz n d * (1 + 1 / batchesIn 4_000_000_000 d) := by
  have hzero : smoothedRate n d 0 = rateHz n d * (1 + 1 / batchesIn 4_000_000_000 d) := by
    rw [smoothedRate, pow_zero]
  rw [← hzero]
  exact smoothedRate_antitone hd hR (Nat.zero_le m)

/-- No measured period is cut from below. -/
theorem measured_eq (hd : 0 < d) (hR : 0 < rateHz n d) (hhi : rateHz n d ≤ 250) (m : Nat) :
    measured n d m = min (1 / smoothedRate n d m) (1 / 40) := by
  have hK : (1 : ℚ) ≤ batchesIn 4_000_000_000 d := Nat.one_le_cast.2 ((lt_batchesIn hd).2 (by omega))
  have hpos : 0 < smoothedRate n d m := hR.trans (rateHz_lt_smoothedRate hd hR m)
  have hle : smoothedRate n d m ≤ 1250 := by
    have hshare : 1 / (batchesIn 4_000_000_000 d : ℚ) ≤ 1 := (div_le_one (by linarith)).2 hK
    have := smoothedRate_le (n := n) hd hR m
    nlinarith
  have hmin : 1 / 1250 ≤ 1 / smoothedRate n d m := one_div_le_one_div_of_le hpos hle
  exact max_eq_right (le_min hmin (by norm_num))

theorem measured_monotone (hd : 0 < d) (hR : 0 < rateHz n d) (hhi : rateHz n d ≤ 250) : Monotone (measured n d) := by
  intro m m' h
  rw [measured_eq hd hR hhi, measured_eq hd hR hhi]
  have hpos : 0 < smoothedRate n d m' := hR.trans (rateHz_lt_smoothedRate hd hR m')
  exact min_le_min_right _ (one_div_le_one_div_of_le hpos (smoothedRate_antitone hd hR h))

theorem measured_le_limitTs (hd : 0 < d) (hR : 0 < rateHz n d) (hhi : rateHz n d ≤ 250) (m : Nat) :
    measured n d m ≤ limitTs n d := by
  rw [measured_eq hd hR hhi]
  exact min_le_min_right _ (one_div_le_one_div_of_le hR (rateHz_lt_smoothedRate hd hR m).le)

/-- The measured periods come as near to the limit as one likes. -/
theorem exists_lt_measured (hd : 0 < d) (hR : 0 < rateHz n d) (hhi : rateHz n d ≤ 250) (l : ℚ)
    (hl : l < limitTs n d) : ∃ m, l < measured n d m := by
  by_cases hpos : 0 < l
  · obtain ⟨hlR, hl40⟩ := lt_min_iff.1 hl
    have hK : (1 : ℚ) ≤ batchesIn 4_000_000_000 d := Nat.one_le_cast.2 ((lt_batchesIn hd).2 (by omega))
    have hgap : rateHz n d < 1 / l := (lt_one_div hpos hR).1 hlR
    obtain ⟨m, hm⟩ := exists_pow_lt_of_lt_one (show 0 < (1 / l - rateHz n d) / rateHz n d from
      div_pos (by linarith) hR) (show (3 / 4 : ℚ) < 1 by norm_num)
    rw [lt_div_iff₀ hR] at hm
    refine ⟨m, ?_⟩
    rw [measured_eq hd hR hhi, lt_min_iff]
    refine ⟨(lt_one_div (hR.trans (rateHz_lt_smoothedRate hd hR m)) hpos).1 ?_, hl40⟩
    have hshare : (3 / 4 : ℚ) ^ m / batchesIn 4_000_000_000 d ≤ (3 / 4) ^ m := div_le_self (by positivity) hK
    unfold smoothedRate
    nlinarith
  · exact ⟨0, (not_lt.1 hpos).trans_lt (measuredTs_pos _)⟩

/-- In the end the timestep is near to the limit. -/
theorem windowTs_near_limitTs (hd : 0 < d) (hR : 0 < rateHz n d) (hhi : rateHz n d ≤ 250) :
    ∃ N, ∀ m, N ≤ m → |limitTs n d - windowTs nominalHz n d m| ≤ 1 / 20 * windowTs nominalHz n d m :=
  eventually_near (by norm_num) (measured_monotone hd hR hhi) (measured_le_limitTs hd hR hhi)
    (exists_lt_measured hd hR hhi) (lt_min (one_div_pos.2 hR) (by norm_num))

/-- From 40 Hz on the limit is the real period. -/
theorem converges_of_le (hn : 0 < n) (hd : 0 < d) (hnominal : 0 < nominalHz) (hlo : 40 ≤ rateHz n d)
    (hhi : rateHz n d ≤ 250) : Converges nominalHz n d start := by
  have hlimit : limitTs n d = 1 / rateHz n d := min_eq_left (one_div_le_one_div_of_le (by norm_num) hlo)
  rw [converges_iff hn hd hnominal, ← hlimit]
  exact windowTs_near_limitTs hd (by linarith) hhi

/-- A period that is far above the longest plausible one is never reached. -/
theorem not_converges_of_slow (hn : 0 < n) (hd : 0 < d) (hnominal : 0 < nominalHz) (hR : 0 < rateHz n d)
    (hslow : 21 / 20 * rateHz n d < 38) : ¬ Converges nominalHz n d start := by
  rw [converges_iff hn hd hnominal]
  rintro ⟨N, hN⟩
  have hlimit : limitTs n d = 1 / 40 := min_eq_right (one_div_le_one_div_of_le hR (by linarith))
  have hnear : ∃ N, ∀ m, N ≤ m → |limitTs n d - windowTs nominalHz n d m| ≤ 1 / 20 * windowTs nominalHz n d m :=
    windowTs_near_limitTs hd hR (by linarith)
  obtain ⟨N', hN'⟩ := hnear
  have hreal := (abs_le.1 (hN (max N N') (le_max_left N N'))).2
  have hcut := (abs_le.1 (hN' (max N N') (le_max_right N N'))).1
  rw [hlimit] at hcut
  have hperiod : 21 / 20 / 38 < 1 / rateHz n d := by
    rw [div_lt_div_iff₀ (by norm_num) hR]
    linarith
  linarith

/-- A timestep that starts below the longest plausible period stays below it. -/
theorem not_converges_of_high_nominal (hn : 0 < n) (hd : 0 < d) (hnominal : 40 ≤ nominalHz) (hR : 0 < rateHz n d)
    (hslow : 21 / 20 * rateHz n d < 40) : ¬ Converges nominalHz n d start := by
  rw [converges_iff hn hd (by linarith)]
  rintro ⟨N, hN⟩
  have hnear := (abs_le.1 (hN N le_rfl)).2
  have hcut : windowTs nominalHz n d N ≤ 1 / 40 :=
    run_le (one_div_le_one_div_of_le (by norm_num) hnominal) (fun m => measuredTs_le _) N
  have hperiod : 21 / 20 / 40 < 1 / rateHz n d := by
    rw [div_lt_div_iff₀ (by norm_num) hR]
    linarith
  linarith

/-- Below 40 Hz a nominal rate of 42 Hz is within 5 percent of every measured period, and never corrected. -/
theorem not_converges_of_nominal (hn : 0 < n) (hd : 0 < d) (hR : 0 < rateHz n d) (hslow : rateHz n d < 40)
    (hshort : d ≤ 400_000_000) : ¬ Converges 42 n d start := by
  have hK : (10 : ℚ) ≤ batchesIn 4_000_000_000 d := by
    have hlt : 9 < batchesIn 4_000_000_000 d := (lt_batchesIn hd).2 (by omega)
    exact_mod_cast hlt
  have hstays : ∀ m, windowTs 42 n d m = 1 / 42 := by
    refine run_eq_start fun m => ?_
    have hpos : 0 < smoothedRate n d m := hR.trans (rateHz_lt_smoothedRate hd hR m)
    have hle : smoothedRate n d m ≤ 44 := by
      have hshare : 1 / (batchesIn 4_000_000_000 d : ℚ) ≤ 1 / 10 := one_div_le_one_div_of_le (by norm_num) hK
      have := smoothedRate_le (n := n) hd hR m
      nlinarith
    have hlower : 1 / 44 ≤ measured n d m := by
      rw [measured_eq hd hR (by linarith)]
      exact le_min (one_div_le_one_div_of_le hpos hle) (by norm_num)
    have hupper : measured n d m ≤ 1 / 40 := measuredTs_le _
    rw [abs_le]
    constructor
    · linarith
    · linarith
  rw [converges_iff hn hd (by norm_num)]
  rintro ⟨N, hN⟩
  have h := (abs_le.1 (hN N le_rfl)).2
  rw [hstays] at h
  have hperiod : 1 / 40 < 1 / rateHz n d := one_div_lt_one_div_of_lt hR hslow
  linarith

/-- From 40 Hz on every batch size and every nominal rate ends near the real period.  Below, the measured period is cut:
with batches up to 0.4 s apart some nominal rate never gets there, below 38 Hz none from 40 Hz on does, and below 36 Hz
none at all. -/
theorem steady_converges (n d : Nat) (start : Instant) (hlo : 10 ≤ rateHz n d) (hhi : rateHz n d ≤ 250) :
    (40 ≤ rateHz n d → ∀ nominalHz, 0 < nominalHz → Converges nominalHz n d start) ∧
      (d ≤ 400_000_000 → (∀ nominalHz, 0 < nominalHz → Converges nominalHz n d start) → 40 ≤ rateHz n d) ∧
      (21 / 20 * rateHz n d < 40 → ∀ nominalHz, 40 ≤ nominalHz → ¬ Converges nominalHz n d start) ∧
      (21 / 20 * rateHz n d < 38 → ∀ nominalHz, 0 < nominalHz → ¬ Converges nominalHz n d start) := by
  have hR : 0 < rateHz n d := by linarith
  have hd : 0 < d := by
    rcases Nat.eq_zero_or_pos d with rfl | hd
    · simp [rateHz] at hR
    · exact hd
  have hn : 0 < n := by
    rcases Nat.eq_zero_or_pos n with rfl | hn
    · simp [rateHz] at hR
    · exact hn
  refine ⟨fun h nominalHz hnominal => converges_of_le hn hd hnominal h hhi, fun hshort h => ?_,
    fun h nominalHz hnominal => not_converges_of_high_nominal hn hd hnominal hR h,
    fun h nominalHz hnominal => not_converges_of_slow hn hd hnominal hR h⟩
  exact not_lt.1 fun hslow => not_converges_of_nominal hn hd hR hslow hshort (h 42 (by norm_num))

/-- 60 Hz in batches of three. -/
theorem steady_converges_60 : Converges 100 3 50_000_000 0 := by
  have hrate : rateHz 3 50_000_000 = 60 := by
    unfold rateHz
    norm_num
  exact (steady_converges 3 50_000_000 0 (by rw [hrate]; norm_num) (by rw [hrate]; norm_num)).1
    (by rw [hrate]; norm_num) 100 (by norm_num)

/-- Ten samples a second, as announced: the timestep is taken away from the period, for good. -/
theorem slow_device_never_converges :
    10 ≤ rateHz 1 100_000_000 ∧ rateHz 1 100_000_000 ≤ 250 ∧ ¬ Converges 10 1 100_000_000 0 := by
  have hrate : rateHz 1 100_000_000 = 10 := by
    unfold rateHz
    norm_num
  rw [hrate]
  refine ⟨by norm_num, by norm_num, not_converges_of_slow (by norm_num) (by norm_num) (by norm_num) ?_ ?_⟩
  · rw [hrate]
    norm_num
  · rw [hrate]
    norm_num

end Measured

end EverythingImu.Core.RateCal
