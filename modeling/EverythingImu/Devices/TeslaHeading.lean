import EverythingImu.Library.Scalar
import EverythingImu.Library.WhileLoop
import Mathlib.Algebra.Group.ModEq
import Mathlib.Data.List.DropRight
import Mathlib.Tactic.FieldSimp
import Mathlib.Tactic.Linarith
import Mathlib.Tactic.NormNum

/-!
# The heading of a Tesla

`ImuSynth` (`imu.rs` of `device-tesla`) over a scalar, with the loops of `unwrapped_delta_deg` as loops.  In exact
arithmetic the loops end and give the difference in `(-180, 180]` (`unwrappedDeltaDeg_rat`).

A frame becomes the baseline of the next one also when it is skipped for coming too soon.  The turn up to a skipped
frame is in no sample, so the turns of the samples add up to the turn of the car exactly if the turns up to the
skipped frames cancel (`heading_conserved_iff`).
-/

namespace EverythingImu.Tesla

/-- The numbers that have infinities. -/
class FiniteTest (K : Type) where
  isFinite : K → Bool

instance finiteTestFloat32 : FiniteTest Float32 := ⟨Float32.isFinite⟩

instance finiteTestRat : FiniteTest ℚ := ⟨fun _ => true⟩

section Code

variable {K : Type} [Scalar K] [FiniteTest K]

def MPH_TO_MPS : K := 0.44704
def DEG_TO_RAD : K := 3.14159265358979323846 / 180.0
def GRAVITY_MPS2 : K := 9.80665

/-- With a bound on the turns of each of the loops. -/
def unwrappedDeltaDeg (turns : Nat) (a b : K) : Option K := do
  let d ← whileLoop (fun d : K => 180.0 < d) (fun d => d - 360.0) turns (b - a)
  whileLoop (fun d : K => d ≤ -180.0) (fun d => d + 360.0) turns d

structure ImuSynth (K : Type) where
  lastHeadingDeg : Option K
  lastSpeedMps : Option K
  lastTimestampUs : Option UInt64

/-- The parts of a sample that are not constant zeros. -/
structure SynthSample (K : Type) where
  yawRateRadS : K
  longitudinalAccel : K
  lateralAccel : K
  verticalAccel : K
  timestampUs : UInt64

def ImuSynth.new : ImuSynth K := ⟨none, none, none⟩

def ImuSynth.ingest (turns : Nat) (s : ImuSynth K) (timestampUs : UInt64) (headingDeg speedMph : Option K) :
    Option (ImuSynth K × Option (SynthSample K)) :=
  match headingDeg, speedMph with
  | some heading, some speedMph =>
    let speedMps := speedMph * MPH_TO_MPS
    -- the frame is the new baseline, whatever becomes of it
    let baseline : ImuSynth K := ⟨some heading, some speedMps, some timestampUs⟩
    match s.lastTimestampUs, s.lastHeadingDeg, s.lastSpeedMps with
    | some prevTs, some prevHeading, some prevSpeed =>
      let dtS : K := ((timestampUs.toNat - prevTs.toNat : Nat) : K) / 1_000_000.0
      if FiniteTest.isFinite dtS ∧ 1e-3 < dtS then do
        let delta ← unwrappedDeltaDeg turns prevHeading heading
        let yawRateRadS := delta * DEG_TO_RAD / dtS
        return (baseline, some
          { yawRateRadS
            longitudinalAccel := (speedMps - prevSpeed) / dtS
            lateralAccel := speedMps * yawRateRadS
            verticalAccel := GRAVITY_MPS2
            timestampUs })
      else some (baseline, none)
    | _, _, _ => some (baseline, none)
  | _, _ => some (s, none)

/-- A frame that carries heading and speed. -/
structure DriveFrame (K : Type) where
  timestampUs : UInt64
  heading : K
  speedMph : K

/-- What the frames of a stream give, one by one. -/
def ImuSynth.run (turns : Nat) : ImuSynth K → List (DriveFrame K) → Option (List (Option (SynthSample K)))
  | _, [] => some []
  | s, f :: fs => do
    let (s, sample) ← s.ingest turns f.timestampUs (some f.heading) (some f.speedMph)
    let samples ← run turns s fs
    return sample :: samples

end Code

/-! ### The loops in exact arithmetic -/

private theorem half_turn : (180.0 : ℚ) = 180 := by norm_num

private theorem full_turn : (360.0 : ℚ) = 360 := by norm_num

private theorem sub_turn_modEq {d x : ℚ} (h : d ≡ x [PMOD 360]) : d - 360 ≡ x [PMOD 360] := by
  have hturn := AddCommGroup.add_zsmul_modEq (p := (360 : ℚ)) (a := d) (-1)
  rw [neg_one_zsmul, ← sub_eq_add_neg] at hturn
  exact hturn.trans h

private theorem add_turn_modEq {d x : ℚ} (h : d ≡ x [PMOD 360]) : d + 360 ≡ x [PMOD 360] := by
  have hturn := AddCommGroup.add_zsmul_modEq (p := (360 : ℚ)) (a := d) 1
  rw [one_zsmul] at hturn
  exact hturn.trans h

/-- What the loops give is the difference that is in `(-180, 180]`. -/
theorem unwrappedDeltaDeg_spec {turns : Nat} {a b d : ℚ} (h : unwrappedDeltaDeg turns a b = some d) :
    -180 < d ∧ d ≤ 180 ∧ d ≡ b - a [PMOD 360] := by
  obtain ⟨down, hdown, hup⟩ := Option.bind_eq_some_iff.1 h
  obtain ⟨hmod, hle⟩ := whileLoop_invariant (I := fun d => d ≡ b - a [PMOD 360])
    (fun d hd _ => full_turn ▸ sub_turn_modEq hd) (AddCommGroup.modEq_refl _) hdown
  rw [half_turn, not_lt] at hle
  have hadd (d : ℚ) (hd : d ≡ b - a [PMOD 360] ∧ d ≤ 180) (hg : d ≤ (-180.0 : ℚ)) :
      d + (360.0 : ℚ) ≡ b - a [PMOD 360] ∧ d + (360.0 : ℚ) ≤ 180 := by
    rw [half_turn] at hg
    rw [full_turn]
    exact ⟨add_turn_modEq hd.1, by linarith⟩
  obtain ⟨⟨hmod, hle⟩, hgt⟩ := whileLoop_invariant hadd ⟨hmod, hle⟩ hup
  rw [half_turn, not_le] at hgt
  exact ⟨hgt, hle, hmod⟩

theorem unwrappedDeltaDeg_mono {K : Type} [Scalar K] {turns turns' : Nat} (hle : turns ≤ turns') {a b d : K}
    (h : unwrappedDeltaDeg turns a b = some d) : unwrappedDeltaDeg turns' a b = some d := by
  obtain ⟨down, hdown, hup⟩ := Option.bind_eq_some_iff.1 h
  exact Option.bind_eq_some_iff.2 ⟨down, whileLoop_mono hle hdown, whileLoop_mono hle hup⟩

/-- The loops end for any two headings. -/
theorem unwrappedDeltaDeg_returns (a b : ℚ) : ∃ turns d, unwrappedDeltaDeg turns a b = some d := by
  have hsub (d : ℚ) (_ : True) (hg : (180.0 : ℚ) < d) :
      True ∧ 0 < (d - 180) / 360 ∧ (d - (360.0 : ℚ) - 180) / 360 ≤ (d - 180) / 360 - 1 := by
    rw [half_turn] at hg
    rw [full_turn]
    refine ⟨trivial, ?_, ?_⟩ <;> linarith
  have hadd (d : ℚ) (_ : True) (hg : d ≤ (-180.0 : ℚ)) :
      True ∧ 0 < (180 - d) / 360 ∧ (180 - (d + (360.0 : ℚ))) / 360 ≤ (180 - d) / 360 - 1 := by
    rw [half_turn] at hg
    rw [full_turn]
    refine ⟨trivial, ?_, ?_⟩ <;> linarith
  obtain ⟨down, hdown, -⟩ := whileLoop_terminates_of_drop (fun d => (d - 180) / 360) hsub (s := b - a) trivial
  obtain ⟨d, hup, -⟩ := whileLoop_terminates_of_drop (fun d => (180 - d) / 360) hadd (s := down) trivial
  generalize ⌈(b - a - 180) / 360⌉₊ + 1 = m at hdown
  generalize ⌈(180 - down) / 360⌉₊ + 1 = n at hup
  refine ⟨max m n, d, Option.bind_eq_some_iff.2 ⟨down, ?_, ?_⟩⟩
  · exact whileLoop_mono (le_max_left m n) hdown
  · exact whileLoop_mono (le_max_right m n) hup

/-! ### One frame -/

/-- A frame comes too soon after the one before it. -/
def DriveFrame.Skipped (prev cur : DriveFrame ℚ) : Prop := cur.timestampUs.toNat - prev.timestampUs.toNat ≤ 1000

instance (prev cur : DriveFrame ℚ) : Decidable (prev.Skipped cur) := inferInstanceAs (Decidable (_ ≤ _))

/-- The time between two frames, in seconds. -/
def DriveFrame.dt (prev cur : DriveFrame ℚ) : ℚ := ((cur.timestampUs.toNat - prev.timestampUs.toNat : ℕ) : ℚ) / 1000000

/-- The state behind a frame. -/
def ImuSynth.at (f : DriveFrame ℚ) : ImuSynth ℚ := ⟨some f.heading, some (f.speedMph * MPH_TO_MPS), some f.timestampUs⟩

/-- The turn that a sample stands for, in degrees. -/
def SynthSample.turn (sample : SynthSample ℚ) (dt : ℚ) : ℚ := sample.yawRateRadS / DEG_TO_RAD * dt

private theorem dt_large_iff (prev cur : DriveFrame ℚ) :
    FiniteTest.isFinite (((cur.timestampUs.toNat - prev.timestampUs.toNat : ℕ) : ℚ) / 1_000_000.0) = true ∧
      (1e-3 : ℚ) < ((cur.timestampUs.toNat - prev.timestampUs.toNat : ℕ) : ℚ) / 1_000_000.0 ↔ ¬prev.Skipped cur := by
  have hmillion : (1_000_000.0 : ℚ) = 1000000 := by norm_num
  have hmilli : (1e-3 : ℚ) = 1 / 1000 := by norm_num
  rw [DriveFrame.Skipped, hmillion, hmilli, not_le, lt_div_iff₀ (by norm_num), ← Nat.cast_lt (α := ℚ)]
  constructor
  · intro ⟨_, h⟩
    norm_num at h ⊢
    linarith
  · intro h
    refine ⟨rfl, ?_⟩
    norm_num at h ⊢
    linarith

private theorem degToRad_pos : 0 < (DEG_TO_RAD : ℚ) := by
  show (0 : ℚ) < 3.14159265358979323846 / 180.0
  norm_num

/-- A frame that comes too soon gives nothing. -/
theorem ingest_skipped (turns : Nat) {prev cur : DriveFrame ℚ} (h : prev.Skipped cur) :
    (ImuSynth.at prev).ingest turns cur.timestampUs (some cur.heading) (some cur.speedMph) = some (.at cur, none) :=
  if_neg (mt (dt_large_iff prev cur).1 (not_not.2 h))

/-- Any other frame gives a sample whose turn is the difference of the headings. -/
theorem ingest_sample {turns : Nat} {prev cur : DriveFrame ℚ} (h : ¬prev.Skipped cur) {d : ℚ}
    (hd : unwrappedDeltaDeg turns prev.heading cur.heading = some d) :
    ∃ sample, (ImuSynth.at prev).ingest turns cur.timestampUs (some cur.heading) (some cur.speedMph) =
      some (.at cur, some sample) ∧ sample.turn (prev.dt cur) = d := by
  have hdt : 0 < prev.dt cur := by
    rw [DriveFrame.Skipped, not_le] at h
    rw [DriveFrame.dt]
    have : (0 : ℚ) < ((cur.timestampUs.toNat - prev.timestampUs.toNat : ℕ) : ℚ) := Nat.cast_pos.2 (by omega)
    linarith
  refine ⟨_, (if_pos ((dt_large_iff prev cur).2 h)).trans (Option.bind_eq_some_iff.2 ⟨d, hd, rfl⟩), ?_⟩
  have hmillion : (1_000_000.0 : ℚ) = 1000000 := by norm_num
  have hrad := degToRad_pos
  rw [SynthSample.turn, hmillion]
  show d * DEG_TO_RAD / prev.dt cur / DEG_TO_RAD * prev.dt cur = d
  field_simp

theorem ingest_none {turns : Nat} {prev cur : DriveFrame ℚ} (h : ¬prev.Skipped cur)
    (hd : unwrappedDeltaDeg turns prev.heading cur.heading = none) :
    (ImuSynth.at prev).ingest turns cur.timestampUs (some cur.heading) (some cur.speedMph) = none :=
  (if_pos ((dt_large_iff prev cur).2 h)).trans (Option.bind_eq_none_iff.2 fun d hd' => by rw [hd] at hd'; cases hd')

/-! ### Streams -/

/-- A frame with the one before it, and what it gave. -/
abbrev LogEntry : Type := (DriveFrame ℚ × DriveFrame ℚ) × Option (SynthSample ℚ)

/-- Each frame of a stream with the one before it. -/
def steps (first : DriveFrame ℚ) : List (DriveFrame ℚ) → List (DriveFrame ℚ × DriveFrame ℚ)
  | [] => []
  | f :: fs => (first, f) :: steps f fs

/-- The change of the heading. -/
def change (p : DriveFrame ℚ × DriveFrame ℚ) : ℚ := p.2.heading - p.1.heading

/-- The yaw rate of the sample times its time step, in degrees. -/
def LogEntry.turn (e : LogEntry) : ℚ :=
  match e.2 with
  | some sample => sample.turn (e.1.1.dt e.1.2)
  | none => 0

/-- Up to the last sample, the samples turn as far as the heading does. -/
def Conserved (first : DriveFrame ℚ) (log : List LogEntry) : Prop :=
  ∀ before e after, log = before ++ e :: after → e.2.isSome = true → (∀ x ∈ after, x.2 = none) →
    ((before ++ [e]).map LogEntry.turn).sum ≡ e.1.2.heading - first.heading [PMOD 360]

/-- The changes of the heading up to the frames that are skipped before the last sample cancel. -/
def SkippedCancel (ps : List (DriveFrame ℚ × DriveFrame ℚ)) : Prop :=
  ∀ before p after, ps = before ++ p :: after → ¬p.1.Skipped p.2 → (∀ x ∈ after, x.1.Skipped x.2) →
    ((before.filter fun x => x.1.Skipped x.2).map change).sum ≡ 0 [PMOD 360]

/-- What an entry of the log tells about its two frames. -/
structure Sound (e : LogEntry) : Prop where
  isNone_iff : e.2 = none ↔ e.1.1.Skipped e.1.2
  turn_mod : ¬e.1.1.Skipped e.1.2 → e.turn ≡ change e.1 [PMOD 360]
  turn_range : -180 < e.turn ∧ e.turn ≤ 180

theorem sound_skipped {prev cur : DriveFrame ℚ} (h : prev.Skipped cur) : Sound ((prev, cur), none) where
  isNone_iff := iff_of_true rfl h
  turn_mod := fun h' => absurd h h'
  turn_range := by norm_num [LogEntry.turn]

theorem sound_sample {turns : Nat} {prev cur : DriveFrame ℚ} {sample : SynthSample ℚ} {d : ℚ}
    (h : ¬prev.Skipped cur) (hd : unwrappedDeltaDeg turns prev.heading cur.heading = some d)
    (hsample : sample.turn (prev.dt cur) = d) : Sound ((prev, cur), some sample) := by
  obtain ⟨hlow, hhigh, hmod⟩ := unwrappedDeltaDeg_spec hd
  rw [← hsample] at hlow hhigh hmod
  exact ⟨iff_of_false nofun h, fun _ => hmod, hlow, hhigh⟩

/-- One frame after another: the log of a run is sound, and has an entry for every frame behind the first. -/
theorem sound_of_run {turns : Nat} {prev : DriveFrame ℚ} {frames : List (DriveFrame ℚ)}
    {samples : List (Option (SynthSample ℚ))} (h : (ImuSynth.at prev).run turns frames = some samples) :
    samples.length = (steps prev frames).length ∧ ∀ e ∈ (steps prev frames).zip samples, Sound e := by
  induction frames generalizing prev samples with
  | nil =>
    obtain rfl := Option.some.inj h
    exact ⟨rfl, nofun⟩
  | cons f frames ih =>
    obtain ⟨⟨s, o⟩, hfirst, hrest⟩ := Option.bind_eq_some_iff.1 h
    obtain ⟨rest, hrun, hsamples⟩ := Option.bind_eq_some_iff.1 hrest
    obtain rfl := Option.some.inj hsamples
    have hentry : s = .at f ∧ Sound ((prev, f), o) := by
      by_cases hskip : prev.Skipped f
      · rw [ingest_skipped turns hskip] at hfirst
        obtain ⟨rfl, rfl⟩ := Prod.mk.inj (Option.some.inj hfirst)
        exact ⟨rfl, sound_skipped hskip⟩
      · rcases hd : unwrappedDeltaDeg turns prev.heading f.heading with _ | d
        · rw [ingest_none hskip hd] at hfirst
          cases hfirst
        · obtain ⟨sample, hsample, hturn⟩ := ingest_sample hskip hd
          rw [hsample] at hfirst
          obtain ⟨rfl, rfl⟩ := Prod.mk.inj (Option.some.inj hfirst)
          exact ⟨rfl, sound_sample hskip hd hturn⟩
    obtain ⟨rfl, hsound⟩ := hentry
    obtain ⟨hlen, hall⟩ := ih hrun
    refine ⟨congrArg Nat.succ hlen, ?_⟩
    intro e he
    rcases List.mem_cons.1 he with rfl | he
    · exact hsound
    · exact hall e he

/-- The changes from frame to frame add up. -/
theorem sum_change {first : DriveFrame ℚ} {frames : List (DriveFrame ℚ)}
    {before after : List (DriveFrame ℚ × DriveFrame ℚ)} {p : DriveFrame ℚ × DriveFrame ℚ}
    (h : steps first frames = before ++ p :: after) :
    ((before ++ [p]).map change).sum = p.2.heading - first.heading := by
  induction before generalizing first frames with
  | nil =>
    cases frames with
    | nil => cases h
    | cons f frames =>
      obtain ⟨rfl, -⟩ := List.cons.inj h
      simp [change]
  | cons q before ih =>
    cases frames with
    | nil => cases h
    | cons f frames =>
      obtain ⟨rfl, hrest⟩ := List.cons.inj h
      rw [List.cons_append, List.map_cons, List.sum_cons, ih hrest, change]
      ring

/-- The turns of the samples and the changes up to the skipped frames make up all changes. -/
theorem sum_turn {log : List LogEntry} (h : ∀ e ∈ log, Sound e) :
    (log.map LogEntry.turn).sum + (((log.map Prod.fst).filter fun x => x.1.Skipped x.2).map change).sum ≡
      ((log.map Prod.fst).map change).sum [PMOD 360] := by
  induction log with
  | nil => simp
  | cons e log ih =>
    have hrest := ih fun x hx => h x (List.mem_cons_of_mem e hx)
    have hentry := h e List.mem_cons_self
    by_cases hskip : e.1.1.Skipped e.1.2
    · have hzero : e.turn = 0 := by rw [LogEntry.turn, hentry.isNone_iff.2 hskip]
      simp only [List.map_cons, List.sum_cons, List.filter_cons, hskip, decide_true, if_true, hzero, zero_add]
      rw [add_left_comm]
      exact hrest.add_left _
    · simp only [List.map_cons, List.sum_cons, List.filter_cons, hskip, decide_false, Bool.false_eq_true, if_false,
        add_assoc]
      exact (hentry.turn_mod hskip).add hrest

/-- Up to a sample: its turns and those before it are the change of the heading exactly if the changes up to the
frames that were skipped cancel. -/
theorem conserved_at_iff {first : DriveFrame ℚ} {frames : List (DriveFrame ℚ)} {before after : List LogEntry}
    {e : LogEntry} (hsteps : steps first frames = (before ++ e :: after).map Prod.fst)
    (hsound : ∀ x ∈ before ++ [e], Sound x) (he : ¬e.1.1.Skipped e.1.2) :
    ((before ++ [e]).map LogEntry.turn).sum ≡ e.1.2.heading - first.heading [PMOD 360] ↔
      (((before.map Prod.fst).filter fun x => x.1.Skipped x.2).map change).sum ≡ 0 [PMOD 360] := by
  have hsum := sum_turn hsound
  rw [List.map_append, List.map_cons] at hsteps
  have hchange := sum_change hsteps
  have hfst : (before ++ [e]).map Prod.fst = before.map Prod.fst ++ [e.1] := by simp
  have hskip : ((before ++ [e]).map Prod.fst).filter (fun x => x.1.Skipped x.2) =
      (before.map Prod.fst).filter fun x => x.1.Skipped x.2 := by
    rw [hfst, List.filter_append]
    simp [he]
  rw [hskip, hfst, hchange] at hsum
  constructor
  · intro hturn
    have := hsum.trans hturn.symm
    rwa [AddCommGroup.add_modEq_left] at this
  · intro hcancel
    exact (AddCommGroup.add_modEq_left.2 hcancel).symm.trans hsum

/-- With enough turns the loops end on every frame of a stream. -/
theorem run_returns (prev : DriveFrame ℚ) (frames : List (DriveFrame ℚ)) :
    ∃ N, ∀ turns ≥ N, ∃ samples, (ImuSynth.at prev).run turns frames = some samples := by
  induction frames generalizing prev with
  | nil => exact ⟨0, fun _ _ => ⟨[], rfl⟩⟩
  | cons f frames ih =>
    obtain ⟨N, hN⟩ := ih f
    obtain ⟨m, d, hd⟩ := unwrappedDeltaDeg_returns prev.heading f.heading
    refine ⟨max m N, fun turns hturns => ?_⟩
    obtain ⟨rest, hrest⟩ := hN turns (le_trans (le_max_right m N) hturns)
    have hfirst : ∃ o, (ImuSynth.at prev).ingest turns f.timestampUs (some f.heading) (some f.speedMph) =
        some (.at f, o) := by
      by_cases hskip : prev.Skipped f
      · exact ⟨none, ingest_skipped turns hskip⟩
      · have hd' := unwrappedDeltaDeg_mono (le_trans (le_max_left m N) hturns) hd
        obtain ⟨sample, hsample, -⟩ := ingest_sample hskip hd'
        exact ⟨some sample, hsample⟩
    obtain ⟨o, ho⟩ := hfirst
    exact ⟨o :: rest, Option.bind_eq_some_iff.2 ⟨_, ho, Option.bind_eq_some_iff.2 ⟨rest, hrest, rfl⟩⟩⟩

theorem run_first {turns : Nat} {first : DriveFrame ℚ} {frames : List (DriveFrame ℚ)}
    {samples : List (Option (SynthSample ℚ))} :
    ImuSynth.new.run turns (first :: frames) = some samples ↔
      ∃ rest, samples = none :: rest ∧ (ImuSynth.at first).run turns frames = some rest := by
  have hrun : ImuSynth.new.run turns (first :: frames) =
      ((ImuSynth.at first).run turns frames).map fun rest => none :: rest := by
    show ((ImuSynth.at first).run turns frames).bind _ = _
    cases (ImuSynth.at first).run turns frames <;> rfl
  rw [hrun, Option.map_eq_some_iff]
  constructor
  · intro ⟨rest, hrest, h⟩
    exact ⟨rest, h.symm, hrest⟩
  · intro ⟨rest, h, hrest⟩
    exact ⟨rest, hrest, h.symm⟩

theorem conserved_iff_of_sound {first : DriveFrame ℚ} {frames : List (DriveFrame ℚ)} {log : List LogEntry}
    (hsteps : log.map Prod.fst = steps first frames) (hsound : ∀ e ∈ log, Sound e) :
    Conserved first log ↔ SkippedCancel (steps first frames) := by
  constructor
  · intro hconserved before p after hsplit hp hafter
    rw [← hsteps] at hsplit
    obtain ⟨before, rest, rfl, rfl, hrest⟩ := List.map_eq_append_iff.1 hsplit
    obtain ⟨e, after, rfl, rfl, rfl⟩ := List.map_eq_cons_iff.1 hrest
    have hmem : ∀ x ∈ before ++ [e], Sound x := fun x hx => hsound x (by simp at hx ⊢; tauto)
    have he : Sound e := hsound e (by simp)
    have hsome : e.2.isSome = true := Option.isSome_iff_ne_none.2 (mt he.isNone_iff.1 hp)
    refine (conserved_at_iff hsteps.symm hmem hp).1 (hconserved before e after rfl hsome ?_)
    intro x hx
    exact (hsound x (by simp [hx])).isNone_iff.2 (hafter x.1 (List.mem_map_of_mem hx))
  · intro hcancel before e after hsplit hsome hafter
    subst hsplit
    have hmem : ∀ x ∈ before ++ [e], Sound x := fun x hx => hsound x (by simp at hx ⊢; tauto)
    have he : Sound e := hsound e (by simp)
    have hp : ¬e.1.1.Skipped e.1.2 := mt he.isNone_iff.2 (Option.isSome_iff_ne_none.1 hsome)
    refine (conserved_at_iff hsteps.symm hmem hp).2 (hcancel _ e.1 (after.map Prod.fst) ?_ hp ?_)
    · rw [← hsteps, List.map_append, List.map_cons]
    · intro x hx
      obtain ⟨y, hy, rfl⟩ := List.mem_map.1 hx
      exact (hsound y (by simp [hy])).isNone_iff.1 (hafter y hy)

/-- For every stream of frames, with any timestamps and headings: the loops end, every sample turns by something in
`(-180, 180]`, and the samples turn as far as the car up to the last of them exactly if the changes of the heading up
to the frames that are skipped before it cancel. -/
theorem heading_conserved_iff (first : DriveFrame ℚ) (frames : List (DriveFrame ℚ)) :
    (∃ turns samples, ImuSynth.new.run turns (first :: frames) = some samples) ∧
      ∀ turns samples, ImuSynth.new.run turns (first :: frames) = some samples →
        (∀ e ∈ (steps first frames).zip samples.tail, -180 < LogEntry.turn e ∧ LogEntry.turn e ≤ 180) ∧
          (Conserved first ((steps first frames).zip samples.tail) ↔ SkippedCancel (steps first frames)) := by
  constructor
  · obtain ⟨N, hN⟩ := run_returns first frames
    obtain ⟨rest, hrest⟩ := hN N le_rfl
    exact ⟨N, none :: rest, run_first.2 ⟨rest, rfl, hrest⟩⟩
  · intro turns samples hrun
    obtain ⟨rest, rfl, hrest⟩ := run_first.1 hrun
    obtain ⟨hlen, hsound⟩ := sound_of_run hrest
    have hfst : ((steps first frames).zip rest).map Prod.fst = steps first frames :=
      List.map_fst_zip (by omega)
    exact ⟨fun e he => (hsound e he).turn_range, conserved_iff_of_sound hfst hsound⟩

/-- A frame at a time and with a heading. -/
def frameAt (timestampUs : UInt64) (heading : ℚ) : DriveFrame ℚ := ⟨timestampUs, heading, 30⟩

theorem not_skippedCancel_of_duplicate :
    ¬SkippedCancel (steps (frameAt 0 0) [frameAt 0 90, frameAt 1000000 90]) := by
  intro h
  have hzero := h [(frameAt 0 0, frameAt 0 90)] (frameAt 0 90, frameAt 1000000 90) [] rfl (by decide) nofun
  have hsum : (([(frameAt 0 0, frameAt 0 90)].filter fun x => x.1.Skipped x.2).map change).sum = 90 := by
    rw [List.filter_cons_of_pos (by decide)]
    simp [change, frameAt]
  obtain ⟨z, hz⟩ := AddCommGroup.modEq_zero_iff_eq_zsmul.1 hzero
  rw [hsum, zsmul_eq_mul] at hz
  have hz' : (90 : ℤ) = z * 360 := by exact_mod_cast hz
  omega

/-- The car turns from 0 to 90 degrees in a frame that repeats a timestamp, and then goes straight on: the only
sample does not turn at all. -/
theorem not_conserved_of_duplicate :
    ¬∀ turns first frames samples, ImuSynth.new.run turns (first :: frames) = some samples →
      Conserved first ((steps first frames).zip samples.tail) := by
  intro h
  obtain ⟨N, hN⟩ := run_returns (frameAt 0 0) [frameAt 0 90, frameAt 1000000 90]
  obtain ⟨rest, hrest⟩ := hN N le_rfl
  obtain ⟨hlen, hsound⟩ := sound_of_run hrest
  have hconserved := h N _ _ _ (run_first.2 ⟨rest, rfl, hrest⟩)
  exact not_skippedCancel_of_duplicate
    ((conserved_iff_of_sound (List.map_fst_zip (by omega)) hsound).1 hconserved)

end EverythingImu.Tesla
