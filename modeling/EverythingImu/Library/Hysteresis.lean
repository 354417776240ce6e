import Mathlib.Algebra.Order.Field.Basic
import Mathlib.Tactic.Linarith

/-!
# Following a measurement with hysteresis

A value follows a sequence of measurements: it takes a measurement that is more than a share `θ` of itself away, and
stays otherwise.  When the measurements rise to a limit, the value comes within that share of the limit and stays there
(`eventually_near`); when no measurement is far enough from the first value, it never moves (`run_eq_start`).
-/

namespace Hysteresis

variable {K : Type*} [Field K] [LinearOrder K]

/-- The value after a measurement. -/
def follow (θ value measured : K) : K := if θ * value < |measured - value| then measured else value

/-- The value after the first measurements of a sequence. -/
def run (θ start : K) (measured : ℕ → K) : ℕ → K
  | 0 => start
  | n + 1 => follow θ (run θ start measured n) (measured n)

variable {θ start limit : K} {measured : ℕ → K}

theorem follow_of_near {value m : K} (h : |m - value| ≤ θ * value) : follow θ value m = value :=
  if_neg (not_lt.2 h)

theorem follow_of_far {value m : K} (h : θ * value < |m - value|) : follow θ value m = m := if_pos h

theorem run_succ (n : ℕ) : run θ start measured (n + 1) = follow θ (run θ start measured n) (measured n) := rfl

/-- A value that every measurement is near to stays. -/
theorem run_eq_start (h : ∀ n, |measured n - start| ≤ θ * start) (n : ℕ) : run θ start measured n = start := by
  induction n with
  | zero => rfl
  | succ n ih => rw [run_succ, ih, follow_of_near (h n)]

/-- From a value on that the later measurements are near to, the value stays. -/
theorem run_eq_of_near {value : K} {N : ℕ} (hN : run θ start measured N = value)
    (h : ∀ n, N ≤ n → |measured n - value| ≤ θ * value) (n : ℕ) (hn : N ≤ n) : run θ start measured n = value := by
  induction n, hn using Nat.le_induction with
  | base => exact hN
  | succ n hn ih => rw [run_succ, ih, follow_of_near (h n hn)]

theorem follow_pos {value m : K} (hvalue : 0 < value) (hm : 0 < m) : 0 < follow θ value m := by
  unfold follow
  split
  · exact hm
  · exact hvalue

theorem run_pos (hstart : 0 < start) (hm : ∀ n, 0 < measured n) (n : ℕ) : 0 < run θ start measured n := by
  induction n with
  | zero => exact hstart
  | succ n ih => exact follow_pos ih (hm n)

/-- A bound on the measurements that holds at the start holds throughout. -/
theorem run_le {bound : K} (hstart : start ≤ bound) (hm : ∀ n, measured n ≤ bound) (n : ℕ) :
    run θ start measured n ≤ bound := by
  induction n with
  | zero => exact hstart
  | succ n ih =>
    rw [run_succ, follow]
    split
    · exact hm n
    · exact ih

variable [IsStrictOrderedRing K]

/-- Measurements that rise to a limit bring the value near to the limit. -/
theorem eventually_near (hθ : 0 < θ) (hmono : Monotone measured) (hle : ∀ n, measured n ≤ limit)
    (hlim : ∀ l, l < limit → ∃ n, l < measured n) (hlimit : 0 < limit) :
    ∃ N, ∀ n, N ≤ n → |limit - run θ start measured n| ≤ θ * run θ start measured n := by
  have hθ' : 0 < 1 + θ := by linarith
  -- from here on, a measurement that is taken is near to the limit
  obtain ⟨N, hN⟩ := hlim (limit / (1 + θ)) (div_lt_self hlimit (by linarith))
  have hclose : ∀ n, N ≤ n → limit - measured n ≤ θ * measured n := by
    intro n hn
    have hlt : limit / (1 + θ) < measured n := hN.trans_le (hmono hn)
    rw [div_lt_iff₀ hθ'] at hlt
    linarith
  by_cases htaken : ∃ n, N ≤ n ∧ θ * run θ start measured n < |measured n - run θ start measured n|
  · obtain ⟨n₁, hn₁, hfar⟩ := htaken
    have hrun : run θ start measured (n₁ + 1) = measured n₁ := by rw [run_succ, follow_of_far hfar]
    have hstays : ∀ n, n₁ + 1 ≤ n → run θ start measured n = measured n₁ := by
      refine fun n hn => run_eq_of_near hrun (fun k hk => ?_) n hn
      have hrise : measured n₁ ≤ measured k := hmono (by omega)
      have hupper := hle k
      have hlower := hclose n₁ hn₁
      rw [abs_of_nonneg (by linarith)]
      linarith
    refine ⟨n₁ + 1, fun n hn => ?_⟩
    have hupper := hle n₁
    rw [hstays n hn, abs_of_nonneg (by linarith)]
    exact hclose n₁ hn₁
  · -- nothing is taken any more
    have hnear : ∀ n, N ≤ n → |measured n - run θ start measured n| ≤ θ * run θ start measured n :=
      fun n hn => not_lt.1 fun hfar => htaken ⟨n, hn, hfar⟩
    have hstays : ∀ n, N ≤ n → run θ start measured n = run θ start measured N := by
      intro n hn
      induction n, hn using Nat.le_induction with
      | base => rfl
      | succ n hn ih => rw [run_succ, follow_of_near (hnear n hn), ih]
    refine ⟨N, fun n hn => ?_⟩
    rw [hstays n hn]
    generalize hvalue : run θ start measured N = value at hstays
    have hnear' : ∀ k, N ≤ k → |measured k - value| ≤ θ * value := by
      intro k hk
      have h := hnear k hk
      rwa [hstays k hk] at h
    rw [abs_le]
    constructor
    · have h := (abs_le.1 (hnear' N le_rfl)).1
      have hupper := hle N
      linarith
    · -- were the limit far, a measurement would be
      by_contra hfar
      obtain ⟨k, hk⟩ := hlim ((1 + θ) * value) (by linarith)
      have hlate : measured k ≤ measured (max k N) := hmono (le_max_left k N)
      have h := (abs_le.1 (hnear' (max k N) (le_max_right k N))).2
      linarith

end Hysteresis
