import EverythingImu.DeviceTraits
import EverythingImu.Library.FloatMonotone
import EverythingImu.Library.SlidingWindow
import EverythingImu.Library.StepRun
import Mathlib

/-!
# Latency statistics

`LatencyTracker` keeps the last intervals between batches and the last durations of send calls, and computes their
percentiles on demand (`latency.rs`).

The windows are the last `WINDOW` entries of their streams (`windows_eq`).  A percentile is the entry of the sorted
window at an index that grows with the percentile (`percentileIndex_mono`); the one of the median is half the size of
the window (`percentileIndex_half`), so that at most half of the window is larger than the median.
-/

namespace EverythingImu.Latency

open FloatRound FloatCast SlidingWindow

def WINDOW : Nat := 256

structure LatencySnapshot where
  intervalUsP50 : Float32
  intervalUsP95 : Float32
  intervalUsP99 : Float32
  jitterUs : Float32
  sendUsP50 : Float32
  sendUsP95 : Float32
  droppedEstimate : UInt32
  samplesWindow : UInt32

structure LatencyTracker where
  intervalsUs : List UInt32
  sendsUs : List UInt32
  prevArrival : Option Instant

/-- `dur.as_micros().min(u32::MAX as u128) as u32`, of a duration in nanoseconds. -/
def microsCapped (dur : Nat) : UInt32 := UInt32.ofNat (min (dur / 1000) (2 ^ 32 - 1))

/-- `u32::saturating_mul`. -/
def saturatingMul (a b : UInt32) : UInt32 := UInt32.ofNat (min (a.toNat * b.toNat) (2 ^ 32 - 1))

/-- The place of a percentile in a sorted window of `n` entries. -/
def percentileIndex (n : Nat) (p : Float32) : Nat := min (roundAsUsize ((lenAsF32 n - 1.0) * p)) (n - 1)

def percentile (sorted : List UInt32) (p : Float32) : UInt32 :=
  if sorted.isEmpty then 0 else sorted.getD (percentileIndex sorted.length p) 0

def stddevUs (values : List UInt32) : Float32 :=
  let n := lenAsF64 values.length
  if n < 2.0 then 0.0
  else
    let mean := (values.map UInt32.toFloat).foldl (· + ·) 0.0 / n
    let squares := values.map fun v =>
      let d := v.toFloat - mean
      d * d
    let var := squares.foldl (· + ·) 0.0 / (n - 1.0)
    asF32 var.sqrt

def sortUnstable (values : List UInt32) : List UInt32 := values.mergeSort fun a b => decide (a ≤ b)

namespace LatencyTracker

def new : LatencyTracker := ⟨[], [], none⟩

variable (t : LatencyTracker)

/-- Record a batch arrival, and return the interval since the one before. -/
def recordArrival (now : Instant) : LatencyTracker × Option Nat :=
  match t.prevArrival with
  | none => ({ t with prevArrival := some now }, none)
  | some prev =>
    let dt := now - prev
    ({ t with intervalsUs := pushCapped WINDOW t.intervalsUs (microsCapped dt), prevArrival := some now }, some dt)

def recordSend (dur : Nat) : LatencyTracker :=
  { t with sendsUs := pushCapped WINDOW t.sendsUs (microsCapped dur) }

/-- The batches that came after more than twice the median. -/
def drops (iv : List UInt32) : UInt32 :=
  let p50 := percentile iv 0.50
  UInt32.ofNat (iv.countP fun v => decide (v > saturatingMul p50 2))

def snapshot : LatencySnapshot :=
  let iv := sortUnstable t.intervalsUs
  let sv := sortUnstable t.sendsUs
  let noIntervals := t.intervalsUs.isEmpty
  let noSends := t.sendsUs.isEmpty
  { intervalUsP50 := (if noIntervals then 0 else percentile iv 0.50).toFloat32
    intervalUsP95 := (if noIntervals then 0 else percentile iv 0.95).toFloat32
    intervalUsP99 := (if noIntervals then 0 else percentile iv 0.99).toFloat32
    jitterUs := if noIntervals then 0.0 else stddevUs iv
    sendUsP50 := (if noSends then 0 else percentile sv 0.50).toFloat32
    sendUsP95 := (if noSends then 0 else percentile sv 0.95).toFloat32
    droppedEstimate := if noIntervals then 0 else drops iv
    samplesWindow := if noIntervals then 0 else UInt32.ofNat iv.length }

end LatencyTracker

/-! ### The windows -/

/-- What the pipeline reports to the tracker. -/
inductive Event where
  | arrival (now : Instant)
  | send (dur : Nat)

def arrivals (events : List Event) : List Instant :=
  events.filterMap fun e => match e with
    | .arrival now => some now
    | .send _ => none

/-- The durations of the send calls, as they are recorded. -/
def sends (events : List Event) : List UInt32 :=
  events.filterMap fun e => match e with
    | .arrival _ => none
    | .send dur => some (microsCapped dur)

/-- The intervals between successive arrivals, as they are recorded. -/
def intervals : List Instant → List UInt32
  | prev :: now :: later => microsCapped (now - prev) :: intervals (now :: later)
  | _ => []

theorem intervals_concat (before : List Instant) (prev now : Instant) :
    intervals (before ++ [prev] ++ [now]) = intervals (before ++ [prev]) ++ [microsCapped (now - prev)] := by
  induction before with
  | nil => rfl
  | cons first before ih =>
    cases before with
    | nil => rfl
    | cons second before =>
      simp only [List.cons_append, intervals, List.cons.injEq, true_and] at ih ⊢
      exact ih

namespace LatencyTracker

def record (t : LatencyTracker) : Event → LatencyTracker
  | .arrival now => (t.recordArrival now).1
  | .send dur => t.recordSend dur

def run (events : List Event) : LatencyTracker := events.foldl record new

theorem run_concat (events : List Event) (e : Event) : run (events ++ [e]) = (run events).record e := by
  rw [run, List.foldl_append]
  rfl

/-- The windows are the ends of the streams of intervals and of send durations. -/
theorem run_eq (events : List Event) :
    run events =
      { intervalsUs := (intervals (arrivals events)).rtake WINDOW
        sendsUs := (sends events).rtake WINDOW
        prevArrival := (arrivals events).getLast? } := by
  induction events using List.reverseRecOn with
  | nil => rfl
  | append_singleton events e ih =>
    rw [run_concat, ih]
    cases e with
    | send dur =>
      have harrivals : arrivals (events ++ [.send dur]) = arrivals events := by simp [arrivals]
      have hsends : sends (events ++ [.send dur]) = sends events ++ [microsCapped dur] := by simp [sends]
      rw [harrivals, hsends, ← pushCapped_rtake (by decide), record, recordSend]
    | arrival now =>
      have harrivals : arrivals (events ++ [.arrival now]) = arrivals events ++ [now] := by simp [arrivals]
      have hsends : sends (events ++ [.arrival now]) = sends events := by simp [sends]
      rw [harrivals, hsends, List.getLast?_concat]
      rcases List.eq_nil_or_concat (arrivals events) with hnil | ⟨before, prev, hprev⟩
      · have hfirst : intervals [now] = intervals [] := rfl
        rw [hnil, List.nil_append, hfirst, record, recordArrival, List.getLast?_nil]
      · rw [List.concat_eq_append] at hprev
        rw [hprev, intervals_concat, ← pushCapped_rtake (by decide), record, recordArrival, List.getLast?_concat]

end LatencyTracker

/-! ### Percentiles -/

theorem percentileIndex_lt {n : Nat} (hn : 0 < n) (p : Float32) : percentileIndex n p < n := by
  rw [percentileIndex]
  omega

/-- The last index of a window, as a float. -/
theorem lastIndex_spec {n : Nat} (hpos : 0 < n) (hn : n < 2 ^ 23) :
    (lenAsF32 n - 1.0).isFinite ∧ toRat (lenAsF32 n - 1.0) = n - 1 := by
  obtain ⟨hfin, hlen⟩ := lenAsF32_spec hn
  have hlt : |((n - 1 : ℤ) : ℚ)| < 2 ^ (127 : ℤ) := by
    rw [abs_of_nonneg (by exact_mod_cast (by omega : (0 : ℤ) ≤ n - 1))]
    calc ((n - 1 : ℤ) : ℚ) < 2 ^ 23 := by exact_mod_cast (by omega : (n - 1 : ℤ) < 2 ^ 23)
      _ < 2 ^ (127 : ℤ) := by norm_num
  have hround := float32_sub_roundsTo hfin (y := 1.0) rfl (by
    rw [hlen, toRat_one]
    exact_mod_cast hlt)
  rw [hlen, toRat_one] at hround
  refine ⟨hround.isFinite, ?_⟩
  have hvalue := value_eq_intCast (n := n - 1) (by exact_mod_cast hround) (by
    rw [abs_of_nonneg (by omega)]
    omega)
  exact_mod_cast hvalue

/-- The factors of the percentiles. -/
theorem toRat_factors :
    toRat 0.50 = 1 / 2 ∧ toRat 0.95 = 15938355 / 2 ^ 24 ∧ toRat 0.99 = 16609444 / 2 ^ 24 := by
  refine ⟨?_, ?_, ?_⟩
  · show value (.finite .positive 8388608 (-24) (by decide)) = _
    rw [value_positive]
    norm_num
  · show value (.finite .positive 15938355 (-24) (by decide)) = _
    rw [value_positive]
    norm_num
  · show value (.finite .positive 16609444 (-24) (by decide)) = _
    rw [value_positive]
    norm_num

/-- The median is the entry in the middle. -/
theorem percentileIndex_half {n : Nat} (hpos : 0 < n) (hn : n < 2 ^ 23) :
    percentileIndex n 0.50 = min (n / 2) (n - 1) := by
  obtain ⟨hfin, hlast⟩ := lastIndex_spec hpos hn
  obtain ⟨hhalf, -, -⟩ := toRat_factors
  have hcast : (n : ℚ) - 1 = ((n - 1 : ℤ) : ℚ) := by push_cast; ring
  have hbound : |((n : ℚ) - 1) * (1 / 2)| < 2 ^ (23 : ℤ) := by
    have hlow : (1 : ℚ) ≤ n := by exact_mod_cast hpos
    have hhigh : (n : ℚ) < 2 ^ 23 := by exact_mod_cast hn
    rw [abs_of_nonneg (by linarith)]
    show _ < (2 : ℚ) ^ 23
    linarith
  have hround := float32_mul_roundsTo hfin (y := 0.50) rfl (by
    rw [hlast, hhalf]
    exact hbound.trans (by norm_num))
  rw [hlast, hhalf] at hround
  have hvalue : toRat ((lenAsF32 n - 1.0) * 0.50) = ((n : ℚ) - 1) * (1 / 2) :=
    hround.value_eq_self (by decide) hbound (j := n - 1) (by
      rw [hcast]
      show _ = ((n - 1 : ℤ) : ℚ) * 2 ^ (-1 : ℤ)
      norm_num)
  have hfloor : ⌊((n : ℚ) - 1) * (1 / 2) + 1 / 2⌋ = ((n / 2 : ℕ) : ℤ) := by
    have hsum : ((n : ℚ) - 1) * (1 / 2) + 1 / 2 = (n : ℚ) / (2 : ℕ) := by
      push_cast
      ring
    rw [hsum, Rat.floor_natCast_div_natCast, Int.natCast_div]
  rw [percentileIndex, roundAsUsize_eq hround.isFinite, hvalue, hfloor, Int.toNat_natCast]
  omega

/-- A higher percentile is not in front of a lower one. -/
theorem percentileIndex_mono {n : Nat} (hpos : 0 < n) (hn : n < 2 ^ 23) :
    percentileIndex n 0.50 ≤ percentileIndex n 0.95 ∧ percentileIndex n 0.95 ≤ percentileIndex n 0.99 := by
  obtain ⟨hfin, hlast⟩ := lastIndex_spec hpos hn
  obtain ⟨h50, h95, h99⟩ := toRat_factors
  have hlow : (1 : ℚ) ≤ n := by exact_mod_cast hpos
  have hhigh : (n : ℚ) < 2 ^ 23 := by exact_mod_cast hn
  have hlt {p : Float32} (hp : toRat p < 1) : toRat (lenAsF32 n - 1.0) * toRat p < 2 ^ (127 : ℤ) := by
    rw [hlast]
    calc ((n : ℚ) - 1) * toRat p ≤ ((n : ℚ) - 1) * 1 := by gcongr
      _ < 2 ^ (127 : ℤ) := by norm_num; linarith
  have hmono {p q : Float32} (hp : p.isFinite) (hq : q.isFinite) (hp₀ : 0 ≤ toRat p) (hpq : toRat p < toRat q)
      (hq₁ : toRat q < 1) : percentileIndex n p ≤ percentileIndex n q := by
    obtain ⟨hfin₁, hfin₂, hle⟩ := float32_mul_mono hfin hp hq (by rw [hlast]; linarith) hp₀ hpq (hlt hq₁)
    exact min_le_min_right _ (roundAsUsize_mono hfin₁ hfin₂ hle)
  constructor
  · exact hmono rfl rfl (by rw [h50]; norm_num) (by rw [h50, h95]; norm_num) (by rw [h95]; norm_num)
  · exact hmono rfl rfl (by rw [h95]; norm_num) (by rw [h95, h99]; norm_num) (by rw [h99]; norm_num)

theorem pairwise_sortUnstable (values : List UInt32) : (sortUnstable values).Pairwise (· ≤ ·) := by
  have htrans (a b c : UInt32) (hab : decide (a ≤ b) = true) (hbc : decide (b ≤ c) = true) : decide (a ≤ c) = true :=
    decide_eq_true (UInt32.le_trans (of_decide_eq_true hab) (of_decide_eq_true hbc))
  have htotal (a b : UInt32) : (decide (a ≤ b) || decide (b ≤ a)) = true := by simpa using UInt32.le_total a b
  exact (List.pairwise_mergeSort htrans htotal _).imp of_decide_eq_true

@[simp] theorem length_sortUnstable (values : List UInt32) : (sortUnstable values).length = values.length :=
  List.length_mergeSort _

@[simp] theorem mem_sortUnstable {values : List UInt32} {v : UInt32} : v ∈ sortUnstable values ↔ v ∈ values :=
  List.mem_mergeSort

section Sorted

variable {sorted : List UInt32} {p q : Float32}

theorem percentile_eq (hne : sorted ≠ []) :
    ∃ h : percentileIndex sorted.length p < sorted.length,
      percentile sorted p = sorted[percentileIndex sorted.length p] := by
  have hlt := percentileIndex_lt (List.length_pos_iff.2 hne) p
  refine ⟨hlt, ?_⟩
  rw [percentile, if_neg (by simpa using hne), List.getD_eq_getElem _ _ hlt]

theorem percentile_mem (hne : sorted ≠ []) : percentile sorted p ∈ sorted := by
  obtain ⟨hlt, heq⟩ := percentile_eq (p := p) hne
  rw [heq]
  exact List.getElem_mem hlt

theorem percentile_mono (hsorted : sorted.Pairwise (· ≤ ·)) (hne : sorted ≠ [])
    (hpq : percentileIndex sorted.length p ≤ percentileIndex sorted.length q) :
    percentile sorted p ≤ percentile sorted q := by
  obtain ⟨hp, heqp⟩ := percentile_eq (p := p) hne
  obtain ⟨hq, heqq⟩ := percentile_eq (p := q) hne
  rw [heqp, heqq]
  exact getElem_le_getElem hsorted hpq hq

/-- What is larger than twice the median lies behind it. -/
theorem drops_le_half (hsorted : sorted.Pairwise (· ≤ ·)) (hne : sorted ≠ []) (hlen : sorted.length < 2 ^ 23) :
    2 * (LatencyTracker.drops sorted).toNat ≤ sorted.length := by
  obtain ⟨hlt, heq⟩ := percentile_eq (p := 0.50) hne
  have hpos := List.length_pos_iff.2 hne
  have hindex := percentileIndex_half hpos hlen
  have htwice (v : UInt32) : v ≤ saturatingMul v 2 := by
    rw [UInt32.le_iff_toNat_le, saturatingMul, UInt32.toNat_ofNat']
    have := v.toNat_lt
    have htwo : (2 : UInt32).toNat = 2 := rfl
    rw [htwo]
    omega
  have hcount : sorted.countP (fun v => decide (v > saturatingMul (percentile sorted 0.50) 2)) ≤
      sorted.length - (percentileIndex sorted.length 0.50 + 1) := by
    refine le_trans (List.countP_mono_left fun v _ hv => ?_) (countP_getElem_lt_le hsorted hlt)
    rw [decide_eq_true_eq] at hv ⊢
    rw [← heq]
    exact UInt32.lt_of_le_of_lt (htwice _) hv
  have hdrops : (LatencyTracker.drops sorted).toNat ≤
      sorted.countP (fun v => decide (v > saturatingMul (percentile sorted 0.50) 2)) := by
    rw [LatencyTracker.drops, UInt32.toNat_ofNat']
    exact Nat.mod_le _ _
  omega

end Sorted

/-! ### Snapshots -/

namespace LatencyTracker

variable (t : LatencyTracker)

/-- The three values are the percentiles of the window, as floats, in their order; an empty window has zeros. -/
def PercentilesOf (window : List UInt32) (p50 p95 p99 : Float32) : Prop :=
  (window = [] ∧ p50 = 0.0 ∧ p95 = 0.0 ∧ p99 = 0.0) ∨
    ∃ v50 ∈ window, ∃ v95 ∈ window, ∃ v99 ∈ window, v50 ≤ v95 ∧ v95 ≤ v99 ∧
      p50 = v50.toFloat32 ∧ p95 = v95.toFloat32 ∧ p99 = v99.toFloat32 ∧ p50 ≤ p95 ∧ p95 ≤ p99

theorem percentilesOf_window {window : List UInt32} (hlen : window.length < 2 ^ 23) :
    PercentilesOf window (if window.isEmpty then 0 else percentile (sortUnstable window) 0.50).toFloat32
      (if window.isEmpty then 0 else percentile (sortUnstable window) 0.95).toFloat32
      (if window.isEmpty then 0 else percentile (sortUnstable window) 0.99).toFloat32 := by
  by_cases hne : window = []
  · subst hne
    exact Or.inl ⟨rfl, rfl, rfl, rfl⟩
  · have hfalse : ¬ window.isEmpty = true := by simpa using hne
    rw [if_neg hfalse, if_neg hfalse, if_neg hfalse]
    have hpos : 0 < (sortUnstable window).length := by
      rw [length_sortUnstable]
      exact List.length_pos_iff.2 hne
    have hsorted := pairwise_sortUnstable window
    have hne' : sortUnstable window ≠ [] := List.length_pos_iff.1 hpos
    have hmem (p : Float32) : percentile (sortUnstable window) p ∈ window := mem_sortUnstable.1 (percentile_mem hne')
    obtain ⟨hindex, hindex'⟩ := percentileIndex_mono hpos (by rwa [length_sortUnstable])
    have hle := percentile_mono hsorted hne' hindex
    have hle' := percentile_mono hsorted hne' hindex'
    exact Or.inr ⟨_, hmem 0.50, _, hmem 0.95, _, hmem 0.99, hle, hle', rfl, rfl, rfl, uint32_toFloat32_mono hle,
      uint32_toFloat32_mono hle'⟩

theorem droppedEstimate_le (hlen : t.intervalsUs.length < 2 ^ 23) :
    2 * t.snapshot.droppedEstimate.toNat ≤ t.intervalsUs.length := by
  by_cases hne : t.intervalsUs = []
  · rw [snapshot, hne]
    exact Nat.le_refl 0
  · have hfalse : t.intervalsUs.isEmpty = false := by simpa using hne
    have hlength := length_sortUnstable t.intervalsUs
    have h := drops_le_half (pairwise_sortUnstable t.intervalsUs)
      (by rwa [← List.length_pos_iff, hlength, List.length_pos_iff]) (by rwa [hlength])
    rw [hlength] at h
    simpa only [snapshot, hfalse, Bool.false_eq_true, if_false] using h

/-- The statistics are those of the last `WINDOW` intervals and send calls. -/
theorem snapshot_run (events : List Event) :
    let t := run events
    t.intervalsUs = (intervals (arrivals events)).rtake WINDOW ∧
    t.sendsUs = (sends events).rtake WINDOW ∧
    PercentilesOf t.intervalsUs t.snapshot.intervalUsP50 t.snapshot.intervalUsP95 t.snapshot.intervalUsP99 ∧
    (∃ p99, PercentilesOf t.sendsUs t.snapshot.sendUsP50 t.snapshot.sendUsP95 p99) ∧
    2 * t.snapshot.droppedEstimate.toNat ≤ t.intervalsUs.length := by
  have h := run_eq events
  have hintervals : (run events).intervalsUs = (intervals (arrivals events)).rtake WINDOW := by rw [h]
  have hsends : (run events).sendsUs = (sends events).rtake WINDOW := by rw [h]
  have hlen : (run events).intervalsUs.length < 2 ^ 23 := by
    rw [hintervals, length_rtake, WINDOW]
    omega
  have hlen' : (run events).sendsUs.length < 2 ^ 23 := by
    rw [hsends, length_rtake, WINDOW]
    omega
  exact ⟨hintervals, hsends, percentilesOf_window hlen, ⟨_, percentilesOf_window hlen'⟩, droppedEstimate_le _ hlen⟩

/-- An interval of 16777217 microseconds is reported as 16777216. -/
theorem snapshot_run_rounded :
    let t := run [.arrival 0, .arrival 16777217000]
    t.intervalsUs = [16777217] ∧ ∀ v ∈ t.intervalsUs, (v.toNat : ℚ) ≠ toRat t.snapshot.intervalUsP50 := by
  have hwindow : (run [.arrival 0, .arrival 16777217000]).intervalsUs = [16777217] := rfl
  have hreported : toRat (16777217 : UInt32).toFloat32 = 16777216 := by
    show value (.finite .positive 8388608 1 (by decide)) = _
    rw [value_positive]
    norm_num
  refine ⟨hwindow, fun v hv => ?_⟩
  rw [hwindow, List.mem_singleton] at hv
  have hlen : [(16777217 : UInt32)].length < 2 ^ 23 := by decide
  rcases percentilesOf_window hlen with ⟨hempty, -⟩ | ⟨v50, hmem, v95, -, v99, -, -, -, hp, -⟩
  · cases hempty
  · have hp50 : (run [.arrival 0, .arrival 16777217000]).snapshot.intervalUsP50 = v50.toFloat32 := by
      rw [snapshot, hwindow]
      exact hp
    rw [List.mem_singleton] at hmem
    rw [hp50, hv, hmem, hreported]
    have hnat : (16777217 : UInt32).toNat = 16777217 := rfl
    rw [hnat]
    norm_num

end LatencyTracker

end EverythingImu.Latency
