import EverythingImu.DeviceTraits
import EverythingImu.Library.Transducer
import Mathlib.Data.List.Chain
import Mathlib.Data.List.DropRight

/-!
# The reset button

`ResetButtonDetector` (`reset.rs`) turns what a device says about its buttons into resets.  A press of the home button
gives one reset when the button is released, a full one after a long press; a press of the capture button gives a yaw
reset at once.  An observation with a press edge of the capture button returns before it looks at the home button, so
a release of the home button that falls into it goes unnoticed and the hold is measured on across it.
-/

namespace EverythingImu

open Transducer

/-- The buttons of a device. -/
inductive ButtonState where
  | homeOrCapture (homePressed capturePressed : Bool)
  /-- A press always gives a yaw reset. -/
  | captureOnly (pressed : Bool)
deriving DecidableEq

structure ResetButtonDetector where
  pressedSince : Option Instant
  captureWasPressed : Bool
  longThreshold : Nat
  debounce : Nat
  lastEmit : Option Instant
deriving DecidableEq

namespace ResetButtonDetector

def withThresholds (longThreshold debounce : Nat) : ResetButtonDetector := ⟨none, false, longThreshold, debounce, none⟩

def new : ResetButtonDetector := withThresholds 1_000_000_000 300_000_000

variable (d : ResetButtonDetector)

def inDebounce (now : Instant) : Bool :=
  match d.lastEmit with
  | some t => now - t < d.debounce
  | none => false

/-- Emit a reset and start the debounce interval. -/
def emit (kind : ResetKind) (now : Instant) : ResetButtonDetector × Option ResetKind :=
  ({ d with lastEmit := some now }, some kind)

def observe (button : ButtonState) (now : Instant) : ResetButtonDetector × Option ResetKind :=
  let inDebounce := d.inDebounce now
  match button with
  | .homeOrCapture homePressed capturePressed =>
    let captureEdge := capturePressed && !d.captureWasPressed
    let d := { d with captureWasPressed := capturePressed }
    if captureEdge then
      -- the home button is not looked at
      if inDebounce then (d, none) else d.emit .yaw now
    else
      match homePressed, d.pressedSince with
      | true, none => ({ d with pressedSince := some now }, none)
      | true, some _ => (d, none)
      | false, some start =>
        let d := { d with pressedSince := none }
        if inDebounce then (d, none) else d.emit (if now - start ≥ d.longThreshold then .full else .yaw) now
      | false, none => (d, none)
  | .captureOnly pressed =>
    if pressed && d.pressedSince.isNone then
      let d := { d with pressedSince := some now }
      if inDebounce then (d, none) else d.emit .yaw now
    else if !pressed then ({ d with pressedSince := none }, none)
    else (d, none)

end ResetButtonDetector

/-- What a device with a home button says about its buttons at some time. -/
structure HomeReading where
  time : Instant
  home : Bool
  capture : Bool
deriving DecidableEq

/-- What a device with only a capture button says. -/
structure CaptureReading where
  time : Instant
  pressed : Bool
deriving DecidableEq

namespace ResetButtonDetector

/-- The detector on readings that say the buttons and the time in their own way. -/
def readingStep {α : Type} (button : α → ButtonState) (time : α → Instant) (d : ResetButtonDetector) (a : α) :
    ResetButtonDetector × Option ResetKind :=
  d.observe (button a) (time a)

def observeHome : ResetButtonDetector → HomeReading → ResetButtonDetector × Option ResetKind :=
  readingStep (fun r => .homeOrCapture r.home r.capture) HomeReading.time

def observeCapture : ResetButtonDetector → CaptureReading → ResetButtonDetector × Option ResetKind :=
  readingStep (fun r => .captureOnly r.pressed) CaptureReading.time

end ResetButtonDetector

open ResetButtonDetector

section Laws

variable (longThreshold debounce : Nat)

/-- The reset on a reading that follows the readings `pre`. -/
def homeReset (pre : List HomeReading) (r : HomeReading) : Option ResetKind :=
  outputAfter observeHome (withThresholds longThreshold debounce) pre r

def captureReset (pre : List CaptureReading) (r : CaptureReading) : Option ResetKind :=
  outputAfter observeCapture (withThresholds longThreshold debounce) pre r

/-- The capture button is pressed anew. -/
def CaptureEdge (pre : List HomeReading) (r : HomeReading) : Prop :=
  r.capture = true ∧ ∀ last ∈ pre.getLast?, last.capture = false

/-- The uninterrupted press of the home button that the readings end with. -/
def homeHold (pre : List HomeReading) : List HomeReading := pre.rtakeWhile (·.home)

/-- Any two resets of a stream are at least the debounce interval apart. -/
def ResetsSpaced {α : Type} (time : α → Instant) (reset : List α → α → Option ResetKind) (debounce : Nat)
    (readings : List α) : Prop :=
  ∀ pre r mid r' post, readings = pre ++ r :: (mid ++ r' :: post) → (reset pre r).isSome →
    (reset (pre ++ r :: mid) r').isSome → time r + debounce ≤ time r'

/-- What the home button says is right: a reset that no press of the capture button gives ends a press of the home
button and is of the kind of a hold within that press, two such resets have a press between them, and a full reset
ends a press that lasted at least `longThreshold`. -/
structure HomeLaw (readings : List HomeReading) : Prop where
  ends_press : ∀ pre r post kind, readings = pre ++ r :: post → ¬ CaptureEdge pre r →
    homeReset longThreshold debounce pre r = some kind →
    r.home = false ∧ ∃ s ∈ homeHold pre, kind = if s.time + longThreshold ≤ r.time then .full else .yaw
  once : ∀ pre r mid r' post, readings = pre ++ r :: (mid ++ r' :: post) → ¬ CaptureEdge pre r →
    (homeReset longThreshold debounce pre r).isSome → ¬ CaptureEdge (pre ++ r :: mid) r' →
    (homeReset longThreshold debounce (pre ++ r :: mid) r').isSome → ∃ s ∈ mid, s.home = true
  full : ∀ pre r post, readings = pre ++ r :: post → homeReset longThreshold debounce pre r = some .full →
    r.home = false ∧ ∃ first ∈ (homeHold pre).head?, first.time + longThreshold ≤ r.time

/-- No press edge of the capture button falls into the release of the home button. -/
def NoLostRelease (readings : List HomeReading) : Prop :=
  readings.IsChain fun a b => ¬ (a.home = true ∧ b.home = false ∧ a.capture = false ∧ b.capture = true)

/-- A yaw reset comes exactly at the press edges that no earlier reset debounces. -/
def CaptureLaw (readings : List CaptureReading) : Prop :=
  ∀ pre r post kind, readings = pre ++ r :: post →
    (captureReset longThreshold debounce pre r = some kind ↔
      kind = .yaw ∧ r.pressed = true ∧ (∀ last ∈ pre.getLast?, last.pressed = false) ∧
        ∀ before e mid, pre = before ++ e :: mid → (captureReset longThreshold debounce before e).isSome →
          e.time + debounce ≤ r.time)

end Laws

/-! ### One observation -/

namespace ResetButtonDetector

/-- An observation gives no reset, or it gives one outside the debounce interval and starts a new interval. -/
theorem observe_emits (d : ResetButtonDetector) (button : ButtonState) (now : Instant) :
    (d.observe button now).1.debounce = d.debounce ∧ (d.observe button now).1.longThreshold = d.longThreshold ∧
      ((d.observe button now).2 = none ∧ (d.observe button now).1.lastEmit = d.lastEmit ∨
        (d.observe button now).2.isSome ∧ (d.observe button now).1.lastEmit = some now ∧ d.inDebounce now = false) := by
  unfold observe emit
  dsimp only
  split
  · split
    · split <;> simp_all
    · split
      · simp
      · simp
      · split <;> simp_all
      · simp
  · split
    · split <;> simp_all
    · split <;> simp

theorem observeHome_captureWasPressed (d : ResetButtonDetector) (r : HomeReading) :
    (d.observeHome r).1.captureWasPressed = r.capture := by
  unfold observeHome readingStep observe emit
  dsimp only
  split
  · split <;> rfl
  · split
    · rfl
    · rfl
    · split <;> rfl
    · rfl

/-- A press edge of the capture button hides the home button. -/
theorem observeHome_of_edge {d : ResetButtonDetector} {r : HomeReading}
    (h : (r.capture && !d.captureWasPressed) = true) :
    (d.observeHome r).1.pressedSince = d.pressedSince ∧ (d.observeHome r).2 ≠ some .full := by
  unfold observeHome readingStep observe emit
  dsimp only
  rw [if_pos h]
  split <;> simp

/-- Without one, the home button is timed from the first reading that shows it pressed. -/
theorem observeHome_pressedSince {d : ResetButtonDetector} {r : HomeReading}
    (h : (r.capture && !d.captureWasPressed) = false) :
    (d.observeHome r).1.pressedSince = if r.home then some (d.pressedSince.getD r.time) else none := by
  unfold observeHome readingStep observe emit
  dsimp only
  rw [if_neg (by simp [h])]
  split
  · rename_i hhome hsince
    simp [hhome, hsince]
  · rename_i start hhome hsince
    simp [hhome, hsince]
  · rename_i hhome hsince
    split <;> simp [hhome]
  · rename_i hhome hsince
    simp [hhome, hsince]

theorem observeHome_reset {d : ResetButtonDetector} {r : HomeReading} {kind : ResetKind}
    (h : (r.capture && !d.captureWasPressed) = false) (hreset : (d.observeHome r).2 = some kind) :
    r.home = false ∧ ∃ start, d.pressedSince = some start ∧
      kind = if r.time - start ≥ d.longThreshold then .full else .yaw := by
  unfold observeHome readingStep observe emit at hreset
  dsimp only at hreset
  rw [if_neg (by simp [h])] at hreset
  split at hreset
  · cases hreset
  · cases hreset
  · rename_i start hhome hsince
    split at hreset
    · cases hreset
    · exact ⟨hhome, start, hsince, (Option.some.inj hreset).symm⟩
  · cases hreset

/-- The capture button alone is timed like the home button, and gives its reset when it is pressed anew. -/
theorem observeCapture_eq (d : ResetButtonDetector) (r : CaptureReading) :
    (d.observeCapture r).1.pressedSince = (if r.pressed then some (d.pressedSince.getD r.time) else none) ∧
      (d.observeCapture r).2 =
        if r.pressed && d.pressedSince.isNone && !d.inDebounce r.time then some .yaw else none := by
  unfold observeCapture readingStep observe emit
  dsimp only
  cases hp : r.pressed <;> cases hs : d.pressedSince <;> cases hd : d.inDebounce r.time <;> simp [hs]

end ResetButtonDetector

/-! ### Runs -/

section Spacing

variable {α : Type} (button : α → ButtonState) (time : α → Instant) (longThreshold debounce : Nat)

theorem outputAfter_readingStep (d : ResetButtonDetector) (pre : List α) (a : α) :
    outputAfter (readingStep button time) d pre a =
      ((Transducer.run (readingStep button time) d pre).observe (button a) (time a)).2 := rfl

private theorem add_le_of_not_sub_lt {e t now gap : Nat} (h : ¬ now - t < gap) (het : e ≤ t) (htnow : t ≤ now) :
    e + gap ≤ now := by omega

private theorem not_sub_lt_of_add_le {t now gap : Nat} (h : t + gap ≤ now) : ¬ now - t < gap := by omega

/-- What the detector knows about its resets: `lastEmit` is the time of the last one. -/
structure EmitInvariant (pre : List α) (d : ResetButtonDetector) : Prop where
  debounce_eq : d.debounce = debounce
  longThreshold_eq : d.longThreshold = longThreshold
  last : ∀ t, d.lastEmit = some t → ∃ before e mid, pre = before ++ e :: mid ∧ time e = t ∧
    (outputAfter (readingStep button time) (withThresholds longThreshold debounce) before e).isSome
  latest : pre.Pairwise (fun a b => time a ≤ time b) → ∀ before e mid, pre = before ++ e :: mid →
    (outputAfter (readingStep button time) (withThresholds longThreshold debounce) before e).isSome →
      ∃ t, d.lastEmit = some t ∧ time e ≤ t

theorem emitInvariant_run (pre : List α) : EmitInvariant button time longThreshold debounce pre
    (Transducer.run (readingStep button time) (withThresholds longThreshold debounce) pre) := by
  induction pre using List.reverseRecOn with
  | nil =>
    refine ⟨rfl, rfl, (fun t h => by cases h), fun _ before e mid h => ?_⟩
    simp at h
  | append_singleton pre a ih =>
    rw [run_append_singleton]
    have hout := outputAfter_readingStep button time (withThresholds longThreshold debounce) pre a
    generalize Transducer.run (readingStep button time) (withThresholds longThreshold debounce) pre = d at ih hout ⊢
    obtain ⟨hdeb, hlong, hemit⟩ := observe_emits d (button a) (time a)
    refine ⟨hdeb.trans ih.debounce_eq, hlong.trans ih.longThreshold_eq, fun t ht => ?_, fun hsorted => ?_⟩
    · rcases hemit with ⟨hnone, hkeep⟩ | ⟨hsome, hnew, _⟩
      · obtain ⟨before, e, mid, rfl, he, hreset⟩ := ih.last t (hkeep ▸ ht)
        exact ⟨before, e, mid ++ [a], by simp, he, hreset⟩
      · have hta : time a = t := Option.some.inj (hnew.symm.trans ht)
        exact ⟨pre, a, [], rfl, hta, by rw [hout]; exact hsome⟩
    · intro before e mid hsplit hreset
      rw [List.pairwise_append] at hsorted
      rcases List.eq_nil_or_concat mid with rfl | ⟨mid, b, rfl⟩
      · obtain ⟨rfl, hea⟩ := List.append_inj' hsplit rfl
        cases hea
        rcases hemit with ⟨hnone, _⟩ | ⟨_, hnew, _⟩
        · rw [hout, hnone] at hreset
          cases hreset
        · exact ⟨time a, hnew, le_rfl⟩
      · rw [List.concat_eq_append, ← List.cons_append, ← List.append_assoc] at hsplit
        obtain ⟨rfl, hab⟩ := List.append_inj' hsplit rfl
        cases hab
        obtain ⟨t, ht, het⟩ := ih.latest hsorted.1 before e mid rfl hreset
        rcases hemit with ⟨_, hkeep⟩ | ⟨_, hnew, _⟩
        · exact ⟨t, hkeep.trans ht, het⟩
        · exact ⟨time a, hnew, hsorted.2.2 e (by simp) a (by simp)⟩

/-- Outside the debounce interval is at least the debounce interval after every reset. -/
theorem inDebounce_eq_false_iff {pre : List α} {d : ResetButtonDetector} {now : Instant}
    (h : EmitInvariant button time longThreshold debounce pre d) (hsorted : pre.Pairwise fun a b => time a ≤ time b)
    (hnow : ∀ a ∈ pre, time a ≤ now) :
    d.inDebounce now = false ↔ ∀ before e mid, pre = before ++ e :: mid →
      (outputAfter (readingStep button time) (withThresholds longThreshold debounce) before e).isSome →
      time e + debounce ≤ now := by
  unfold inDebounce
  rw [h.debounce_eq]
  constructor
  · intro hdeb before e mid hsplit hreset
    obtain ⟨t, ht, het⟩ := h.latest hsorted before e mid hsplit hreset
    obtain ⟨b', e', mid', hsplit', he', _⟩ := h.last t ht
    have hle : time e' ≤ now := hnow e' (by simp [hsplit'])
    rw [ht] at hdeb
    simp only [decide_eq_false_iff_not] at hdeb
    exact add_le_of_not_sub_lt hdeb het (he' ▸ hle)
  · intro hall
    split
    · rename_i t ht
      obtain ⟨before, e, mid, hsplit, he, hreset⟩ := h.last t ht
      have hle := hall before e mid hsplit hreset
      simp only [decide_eq_false_iff_not]
      exact not_sub_lt_of_add_le (he ▸ hle)
    · rfl

theorem resetsSpaced (readings : List α) (hsorted : readings.Pairwise fun a b => time a ≤ time b) :
    ResetsSpaced time (outputAfter (readingStep button time) (withThresholds longThreshold debounce)) debounce
      readings := by
  rintro pre r mid r' post rfl hr hr'
  have hinv := emitInvariant_run button time longThreshold debounce (pre ++ r :: mid)
  rw [← List.cons_append, ← List.append_assoc, List.pairwise_append] at hsorted
  have hnow : ∀ a ∈ pre ++ r :: mid, time a ≤ time r' := fun a ha => hsorted.2.2 a ha r' (by simp)
  obtain ⟨_, _, ⟨hnone, _⟩ | ⟨_, _, hdeb⟩⟩ := observe_emits
    (Transducer.run (readingStep button time) (withThresholds longThreshold debounce) (pre ++ r :: mid))
    (button r') (time r')
  · rw [outputAfter_readingStep, hnone] at hr'
    cases hr'
  · exact (inDebounce_eq_false_iff button time longThreshold debounce hinv hsorted.1 hnow).1 hdeb pre r mid rfl hr

end Spacing

/-! ### The home button -/

theorem homeHold_append_singleton (pre : List HomeReading) (r : HomeReading) :
    homeHold (pre ++ [r]) = if r.home = true then homeHold pre ++ [r] else [] :=
  List.rtakeWhile_concat ..

theorem homeHold_subset (pre : List HomeReading) : homeHold pre ⊆ pre := (List.rtakeWhile_suffix _ pre).subset

/-- A hold of readings in time starts at its first reading. -/
private theorem exists_head?_le {pre : List HomeReading} (hsorted : pre.Pairwise fun a b => a.time ≤ b.time)
    {s : HomeReading} (hs : s ∈ homeHold pre) : ∃ first ∈ (homeHold pre).head?, first.time ≤ s.time := by
  have hhold := hsorted.sublist (List.rtakeWhile_suffix (·.home) pre).sublist
  change (homeHold pre).Pairwise _ at hhold
  cases hcases : homeHold pre with
  | nil =>
    rw [hcases] at hs
    cases hs
  | cons first rest =>
    rw [hcases] at hs hhold
    refine ⟨first, rfl, ?_⟩
    rcases List.mem_cons.1 hs with rfl | hs
    · exact le_rfl
    · exact (List.pairwise_cons.1 hhold).1 s hs

section HomeRuns

variable (longThreshold debounce : Nat)

/-- What the detector knows about the buttons: while no release is lost, `pressedSince` is the time of a reading in the
press of the home button that the readings end with. -/
structure HomeInvariant (pre : List HomeReading) (d : ResetButtonDetector) : Prop where
  capture : d.captureWasPressed = pre.getLast?.any (·.capture)
  hold : NoLostRelease pre → ∀ start, d.pressedSince = some start → ∃ s ∈ homeHold pre, s.time = start

theorem captureEdge_iff {pre : List HomeReading} {d : ResetButtonDetector} (h : HomeInvariant pre d)
    (r : HomeReading) : (r.capture && !d.captureWasPressed) = true ↔ CaptureEdge pre r := by
  unfold CaptureEdge
  rw [h.capture]
  cases pre.getLast? <;> simp

/-- A release that is not lost is not hidden by a press edge of the capture button. -/
private theorem home_of_edge {pre : List HomeReading} {r s : HomeReading} (hclean : NoLostRelease (pre ++ [r]))
    (hedge : CaptureEdge pre r) (hs : s ∈ homeHold pre) : r.home = true := by
  rcases List.eq_nil_or_concat pre with rfl | ⟨before, last, rfl⟩
  · cases hs
  · rw [List.concat_eq_append] at hclean hedge hs
    have hlast : last.home = true := by
      rw [homeHold_append_singleton] at hs
      split at hs
      · assumption
      · cases hs
    have hpair := List.IsChain.rel_getLast_head_of_append hclean (by simp) (by simp)
    simp only [List.getLast_append_singleton, List.head_cons] at hpair
    by_contra hrelease
    exact hpair ⟨hlast, Bool.eq_false_iff.2 hrelease, hedge.2 last (by simp), hedge.1⟩

theorem homeInvariant_run (pre : List HomeReading) :
    HomeInvariant pre (Transducer.run observeHome (withThresholds longThreshold debounce) pre) := by
  refine run_induction ⟨rfl, fun _ start h => by cases h⟩ (fun pre r d h => ?_) pre
  refine ⟨by simp [observeHome_captureWasPressed], fun hclean start hstart => ?_⟩
  have hbefore : NoLostRelease pre := List.IsChain.left_of_append hclean
  rw [homeHold_append_singleton]
  cases hedge : r.capture && !d.captureWasPressed with
  | true =>
    rw [(observeHome_of_edge hedge).1] at hstart
    obtain ⟨s, hs, hst⟩ := h.hold hbefore start hstart
    rw [if_pos (home_of_edge hclean ((captureEdge_iff h r).1 hedge) hs)]
    exact ⟨s, List.mem_append_left _ hs, hst⟩
  | false =>
    rw [observeHome_pressedSince hedge] at hstart
    split at hstart
    · rename_i hhome
      rw [if_pos hhome]
      cases hsince : d.pressedSince with
      | none =>
        rw [hsince] at hstart
        exact ⟨r, by simp, Option.some.inj hstart⟩
      | some t =>
        rw [hsince] at hstart
        obtain ⟨s, hs, hst⟩ := h.hold hbefore t hsince
        exact ⟨s, List.mem_append_left _ hs, hst.trans (Option.some.inj hstart)⟩
    · cases hstart

private theorem le_sub_iff_of_le {s now gap : Nat} (h : s ≤ now) : now - s ≥ gap ↔ s + gap ≤ now := by omega

variable {longThreshold debounce} {readings : List HomeReading}
  (hsorted : readings.Pairwise fun a b => a.time ≤ b.time) (hclean : NoLostRelease readings)

include hsorted hclean

/-- A reset that no press edge of the capture button gives ends a hold. -/
private theorem homeReset_ends_press {pre post : List HomeReading} {r : HomeReading} {kind : ResetKind}
    (hsplit : readings = pre ++ r :: post) (hedge : ¬ CaptureEdge pre r)
    (hreset : homeReset longThreshold debounce pre r = some kind) :
    r.home = false ∧ ∃ s ∈ homeHold pre, kind = if s.time + longThreshold ≤ r.time then .full else .yaw := by
  subst hsplit
  have hinv := homeInvariant_run longThreshold debounce pre
  have hlong : (Transducer.run observeHome (withThresholds longThreshold debounce) pre).longThreshold = longThreshold :=
    (emitInvariant_run _ HomeReading.time longThreshold debounce pre).longThreshold_eq
  obtain ⟨hrelease, start, hsince, hkind⟩ :=
    observeHome_reset (Bool.eq_false_iff.2 ((captureEdge_iff hinv r).not.2 hedge)) hreset
  obtain ⟨s, hs, hst⟩ := hinv.hold (List.IsChain.left_of_append hclean) start hsince
  have hle : s.time ≤ r.time := (List.pairwise_append.1 hsorted).2.2 s (homeHold_subset pre hs) r (by simp)
  refine ⟨hrelease, s, hs, ?_⟩
  rw [hkind, hlong, ← hst]
  exact if_congr (le_sub_iff_of_le hle) rfl rfl

theorem homeLaw : HomeLaw longThreshold debounce readings where
  ends_press _ _ _ _ := homeReset_ends_press hsorted hclean
  once pre r mid r' post hsplit hedge hr hedge' hr' := by
    obtain ⟨kind, hkind⟩ := Option.isSome_iff_exists.1 hr
    obtain ⟨kind', hkind'⟩ := Option.isSome_iff_exists.1 hr'
    have hrelease := (homeReset_ends_press hsorted hclean hsplit hedge hkind).1
    rw [← List.cons_append, ← List.append_assoc] at hsplit
    obtain ⟨_, s, hs, _⟩ := homeReset_ends_press hsorted hclean hsplit hedge' hkind'
    -- the press that ends at the later reset begins after the release at the earlier one
    rcases List.eq_nil_or_concat mid with rfl | ⟨before, last, rfl⟩
    · rw [homeHold_append_singleton, if_neg (by simp [hrelease])] at hs
      cases hs
    · rw [List.concat_eq_append, ← List.cons_append, ← List.append_assoc, homeHold_append_singleton] at hs
      refine ⟨last, by simp, ?_⟩
      split at hs
      · assumption
      · cases hs
  full pre r post hsplit hreset := by
    have hinv := homeInvariant_run longThreshold debounce pre
    have hedge : ¬ CaptureEdge pre r := fun hedge =>
      (observeHome_of_edge ((captureEdge_iff hinv r).2 hedge)).2 hreset
    obtain ⟨hrelease, s, hs, hkind⟩ := homeReset_ends_press hsorted hclean hsplit hedge hreset
    have hpre : pre.Pairwise fun a b => a.time ≤ b.time :=
      (List.pairwise_append.1 (hsplit ▸ hsorted)).1
    obtain ⟨first, hfirst, hle⟩ := exists_head?_le hpre hs
    refine ⟨hrelease, first, hfirst, (Nat.add_le_add_right hle longThreshold).trans ?_⟩
    by_contra hshort
    rw [if_neg hshort] at hkind
    cases hkind

end HomeRuns

/-! ### The capture button alone -/

section CaptureRuns

variable (longThreshold debounce : Nat)

/-- The capture button alone is being timed as long as it is pressed. -/
theorem captureInvariant_run (pre : List CaptureReading) :
    (Transducer.run observeCapture (withThresholds longThreshold debounce) pre).pressedSince.isSome =
      pre.getLast?.any (·.pressed) := by
  cases List.eq_nil_or_concat pre with
  | inl h =>
    subst h
    rfl
  | inr h =>
    obtain ⟨before, last, rfl⟩ := h
    rw [List.concat_eq_append, run_append_singleton, (observeCapture_eq _ last).1]
    cases hp : last.pressed <;> simp [hp]

theorem captureLaw {readings : List CaptureReading} (hsorted : readings.Pairwise fun a b => a.time ≤ b.time) :
    CaptureLaw longThreshold debounce readings := by
  rintro pre r post kind rfl
  have hemit := emitInvariant_run (fun r : CaptureReading => .captureOnly r.pressed) CaptureReading.time
    longThreshold debounce pre
  have hsince := captureInvariant_run longThreshold debounce pre
  rw [List.pairwise_append] at hsorted
  have hnow : ∀ a ∈ pre, a.time ≤ r.time := fun a ha => hsorted.2.2 a ha r (by simp)
  have hdeb := inDebounce_eq_false_iff _ _ longThreshold debounce hemit hsorted.1 hnow
  unfold captureReset outputAfter
  rw [(observeCapture_eq _ r).2]
  change _ ↔ _ ∧ _ ∧ _ ∧ ∀ before e mid, pre = before ++ e :: mid →
    (outputAfter (readingStep _ CaptureReading.time) _ before e).isSome → _
  rw [← hdeb]
  change _ ↔ _ ∧ _ ∧ _ ∧ ResetButtonDetector.inDebounce (Transducer.run observeCapture _ pre) r.time = false
  have hlast : (Transducer.run observeCapture (withThresholds longThreshold debounce) pre).pressedSince.isNone = true ↔
      ∀ last ∈ pre.getLast?, last.pressed = false := by
    rw [← Option.not_isSome, hsince]
    cases pre.getLast? <;> simp
  rw [← hlast]
  split
  · rename_i hall
    simp only [Bool.and_eq_true, Bool.not_eq_true'] at hall
    obtain ⟨⟨hp, hs⟩, hd⟩ := hall
    simp only [hp, hs, hd, and_true]
    rw [Option.some_inj]
    exact eq_comm
  · rename_i hall
    simp only [Bool.and_eq_true, Bool.not_eq_true', not_and] at hall
    simp only [reduceCtorEq, false_iff, not_and]
    exact fun _ hp hs hd => hall ⟨hp, hs⟩ hd

end CaptureRuns

/-- Resets are spaced by the debounce interval in every stream; the home button obeys its law as long as no press edge
of the capture button hides a release; the capture button alone always obeys its law. -/
theorem resetButton_laws (longThreshold debounce : Nat) :
    (∀ readings : List HomeReading, readings.Pairwise (fun a b => a.time ≤ b.time) →
      ResetsSpaced HomeReading.time (homeReset longThreshold debounce) debounce readings ∧
        (NoLostRelease readings → HomeLaw longThreshold debounce readings)) ∧
      ∀ readings : List CaptureReading, readings.Pairwise (fun a b => a.time ≤ b.time) →
        CaptureLaw longThreshold debounce readings :=
  ⟨fun readings h => ⟨resetsSpaced _ _ longThreshold debounce readings h, homeLaw h⟩,
    fun _ h => captureLaw longThreshold debounce h⟩

theorem resetButton_laws_presses :
    HomeLaw 1_000_000_000 300_000_000
        [⟨0, true, false⟩, ⟨1_500_000_000, false, false⟩, ⟨1_600_000_000, false, true⟩] ∧
      CaptureLaw 1_000_000_000 300_000_000 [⟨0, true⟩, ⟨20_000_000, false⟩] := by
  obtain ⟨hhome, hcapture⟩ := resetButton_laws 1_000_000_000 300_000_000
  exact ⟨(hhome _ (by decide)).2 (by unfold NoLostRelease; decide), hcapture _ (by decide)⟩

/-- The release at 0.2 s is hidden by a press of the capture button: the short press from 5 s to 5.1 s gives a full
reset. -/
theorem not_homeLaw_of_lost_release :
    ¬ ∀ readings : List HomeReading, readings.Pairwise (fun a b => a.time ≤ b.time) →
      HomeLaw 1_000_000_000 300_000_000 readings := by
  intro h
  have hlaw := h [⟨0, true, false⟩, ⟨200_000_000, false, true⟩, ⟨5_000_000_000, true, true⟩,
    ⟨5_100_000_000, false, true⟩] (by decide)
  obtain ⟨_, first, hfirst, hlong⟩ := hlaw.full
    [⟨0, true, false⟩, ⟨200_000_000, false, true⟩, ⟨5_000_000_000, true, true⟩] ⟨5_100_000_000, false, true⟩ [] rfl
    (by decide)
  obtain rfl : first = ⟨5_000_000_000, true, true⟩ := (Option.some.inj hfirst).symm
  revert hlong
  decide

end EverythingImu
