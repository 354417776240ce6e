import EverythingImu.OscHaptics.Motors

/-!
# The rate limit of the motors

A device gets at most one command in `MIN_SEND_GAP`, apart from commands that turn its motor off and starts of pulses
(`RateLimited`).  The listener forces every start of a pulse and lets every 0 pass, and a new loop does not know when
the old one sent its last command.  So the limit is kept exactly as long as no packet asks for that too soon
(`commands_rateLimited`).
-/

namespace EverythingImu.OscHaptics

open Channel StepRun

/-! ### The limit -/

/-- The command may follow the last one to its device. -/
def Command.Spaced (c prev : Command) : Prop :=
  prev.time + MIN_SEND_GAP ≤ c.time ∨ (prev.intensity > 0.0 ∧ ¬ c.intensity > 0.0) ∨
    c.cause = .pulseStart false ∨ c.cause = .forcedOff

/-- Each command, newest first, may follow the one before it to the same device. -/
def RateLimited : List Command → Prop
  | [] => True
  | c :: cs => (∀ prev ∈ cs.find? (·.mac = c.mac), c.Spaced prev) ∧ RateLimited cs

/-- The action does not ask too soon for a command that is not held back: a 0 for a motor that is off, the start of a
pulse while one is pending, or the first value of a loop, if it is above 0. -/
def HapticAction.InPace (action : HapticAction) (m : Motors) (now : Instant) : Prop :=
  ∀ c ∈ m.last action.deviceMac, now < c.time + MIN_SEND_GAP →
    if action.pulseMs.isSome then m.pulseUntil.lookup action.deviceMac = none
    else if action.intensity > 0.0 then m.lastSent.lookup action.deviceMac ≠ none
    else c.intensity > 0.0

def Op.InPace (m : Motors) : Op → Prop
  | .apply now rule value => (applyMode rule.deviceMac rule.mode value).InPace m now
  | .bind | .expire _ _ | .silence _ _ => True

instance (c prev : Command) : Decidable (c.Spaced prev) := by
  unfold Command.Spaced
  infer_instance

instance decidableRateLimited : (cs : List Command) → Decidable (RateLimited cs)
  | [] => inferInstanceAs (Decidable True)
  | c :: cs =>
    have := decidableRateLimited cs
    inferInstanceAs (Decidable ((∀ prev ∈ cs.find? (·.mac = c.mac), c.Spaced prev) ∧ RateLimited cs))

instance (action : HapticAction) (m : Motors) (now : Instant) : Decidable (action.InPace m now) := by
  unfold HapticAction.InPace
  infer_instance

instance (m : Motors) : (op : Op) → Decidable (op.InPace m)
  | .apply now rule value => inferInstanceAs (Decidable ((applyMode rule.deviceMac rule.mode value).InPace m now))
  | .bind | .expire _ _ | .silence _ _ => inferInstanceAs (Decidable True)

/-- All values of a step of the bridge are in pace. -/
def Paced (clock : Nat → Instant) (decodeUdp : List UInt8 → Option OscPacket) (r : Traced) (a : BridgeAction) : Prop :=
  Along Motors.perform (fun m op => op.InPace m) (motorsOf r.ops) (bridgeOps clock decodeUdp r.bridge a)

instance (clock : Nat → Instant) (decodeUdp : List UInt8 → Option OscPacket) (r : Traced) (a : BridgeAction) :
    Decidable (Paced clock decodeUdp r a) :=
  decidableAlong _ _ _ _

/-! ### The records -/

/-- What the loop has recorded of a device is the last command to it. -/
def Motors.Recorded (m : Motors) : Prop :=
  ∀ mac sent, m.lastSent.lookup mac = some sent → ∃ c, m.last mac = some c ∧ sent = (c.time, c.intensity)

theorem applyMode_deviceMac (mac : Mac) (mode : HapticMode) (value : Float32) :
    (applyMode mac mode value).deviceMac = mac := by
  cases mode with
  | proximity gain minThreshold => rfl
  | pulse pulseMs =>
    unfold applyMode
    dsimp only
    split <;> rfl

/-- A pulse starts with full intensity. -/
theorem applyMode_pulse {mac : Mac} {mode : HapticMode} {value : Float32} {ms : UInt32}
    (h : (applyMode mac mode value).pulseMs = some ms) :
    mode = .pulse ms ∧ value > 0.5 ∧ (applyMode mac mode value).intensity = 1.0 := by
  cases mode with
  | proximity gain minThreshold => cases h
  | pulse pulseMs =>
    unfold applyMode at h ⊢
    dsimp only at h ⊢
    by_cases hv : value > 0.5
    · rw [if_pos hv] at h ⊢
      cases h
      exact ⟨rfl, hv, rfl⟩
    · rw [if_neg hv] at h
      cases h

namespace Motors

variable {m : Motors}

theorem last_drive (mac mac' : Mac) (intensity : Float32) (cause : Cause) (now : Instant) :
    (m.drive mac intensity cause now).last mac' =
      if mac = mac' then some ⟨now, mac, intensity, cause⟩ else m.last mac' := by
  unfold last drive
  by_cases h : mac = mac'
  · rw [List.find?_cons_of_pos (by simpa using h), if_pos h]
  · rw [List.find?_cons_of_neg (by simpa using h), if_neg h]

theorem lookup_drive (mac mac' : Mac) (intensity : Float32) (cause : Cause) (now : Instant) :
    (m.drive mac intensity cause now).lastSent.lookup mac' =
      if mac = mac' then some (now, intensity) else m.lastSent.lookup mac' := by
  show (m.lastSent.insert mac (now, intensity)).lookup mac' = _
  by_cases h : mac = mac'
  · subst h
    rw [AList.lookup_insert, if_pos rfl]
  · rw [AList.lookup_insert_ne (Ne.symm h), if_neg h]

theorem Recorded.drive (h : m.Recorded) (mac : Mac) (intensity : Float32) (cause : Cause) (now : Instant) :
    (m.drive mac intensity cause now).Recorded := by
  intro mac' sent hsent
  rw [lookup_drive] at hsent
  rw [last_drive]
  by_cases hmac : mac = mac'
  · rw [if_pos hmac] at hsent ⊢
    exact ⟨_, rfl, (Option.some.inj hsent).symm⟩
  · rw [if_neg hmac] at hsent ⊢
    exact h mac' sent hsent

theorem Recorded.perform (h : m.Recorded) (op : Op) : (m.perform op).Recorded := by
  rcases m.perform_cases op with ⟨hcommands, hlast⟩ | ⟨pulses, mac, intensity, cause, now, hdrive⟩
  · intro mac sent hsent
    unfold Motors.last
    rw [hcommands]
    rcases hlast with hempty | hsame
    · rw [hempty] at hsent
      cases hsent
    · rw [hsame] at hsent
      exact h mac sent hsent
  · have hpulses : { m with pulseUntil := pulses }.Recorded := h
    rw [hdrive]
    exact hpulses.drive mac intensity cause now

theorem recorded_motorsOf (ops : List Op) : (motorsOf ops).Recorded := by
  induction ops with
  | nil =>
    intro mac sent hsent
    cases hsent
  | cons op ops ih => exact ih.perform op

/-! ### One operation -/

theorem tooSoon_iff (sentAt now : Nat) : now - sentAt < MIN_SEND_GAP ↔ now < sentAt + MIN_SEND_GAP := by
  unfold MIN_SEND_GAP
  omega

/-- A command keeps the limit exactly when it may follow the last one to its device. -/
theorem rateLimited_drive_iff (hlim : RateLimited m.commands) (pulses : AList fun _ : Mac => Instant) (mac : Mac)
    (intensity : Float32) (cause : Cause) (now : Instant) :
    RateLimited ({ m with pulseUntil := pulses }.drive mac intensity cause now).commands ↔
      ∀ prev, m.last mac = some prev → Command.Spaced ⟨now, mac, intensity, cause⟩ prev :=
  and_iff_left hlim

/-- A forced 0 always keeps the limit. -/
theorem rateLimited_stop (hlim : RateLimited m.commands) (now : Instant) (mac : Mac) :
    RateLimited (m.stop now mac).commands :=
  ⟨fun _ _ => Or.inr (Or.inr (Or.inr rfl)), hlim⟩

/-- No operation takes a command back. -/
theorem rateLimited_of_perform (op : Op) (h : RateLimited (m.perform op).commands) : RateLimited m.commands := by
  rcases m.perform_cases op with ⟨hcommands, -⟩ | ⟨pulses, mac, intensity, cause, now, hdrive⟩
  · rw [← hcommands]
    exact h
  · rw [hdrive] at h
    exact h.2

theorem spaced_pulseStart_iff {mac : Mac} {pending : Bool} {now : Instant} {prev : Command} :
    Command.Spaced ⟨now, mac, 1.0, .pulseStart pending⟩ prev ↔ (now < prev.time + MIN_SEND_GAP → pending = false) := by
  have hone : (1.0 : Float32) > 0.0 := by decide +kernel
  unfold Command.Spaced
  constructor
  · rintro (hgap | ⟨-, hoff⟩ | hcause | hcause) hsoon
    · exact absurd hsoon (Nat.not_lt.2 hgap)
    · exact absurd hone hoff
    · exact Cause.pulseStart.inj hcause
    · cases hcause
  · intro h
    by_cases hgap : prev.time + MIN_SEND_GAP ≤ now
    · exact Or.inl hgap
    · exact Or.inr (Or.inr (Or.inl (congrArg Cause.pulseStart (h (Nat.not_le.1 hgap)))))

theorem spaced_value_iff {mac : Mac} {intensity : Float32} {now : Instant} {prev : Command} :
    Command.Spaced ⟨now, mac, intensity, .value⟩ prev ↔
      (now < prev.time + MIN_SEND_GAP → prev.intensity > 0.0 ∧ ¬ intensity > 0.0) := by
  unfold Command.Spaced
  constructor
  · rintro (hgap | hoff | hcause | hcause) hsoon
    · exact absurd hsoon (Nat.not_lt.2 hgap)
    · exact hoff
    · cases hcause
    · cases hcause
  · intro h
    by_cases hgap : prev.time + MIN_SEND_GAP ≤ now
    · exact Or.inl hgap
    · exact Or.inr (Or.inl (h (Nat.not_le.1 hgap)))

/-- A value that is not dropped, although it comes too soon, is a 0 or the first of its loop. -/
theorem Recorded.not_dropped {action : HapticAction} {now : Instant} {prev : Command} (h : m.Recorded)
    (hprev : m.last action.deviceMac = some prev) (hsoon : now < prev.time + MIN_SEND_GAP)
    (hdrop : ¬ m.drops action.deviceMac action.intensity now = true) (hpos : action.intensity > 0.0) :
    m.lastSent.lookup action.deviceMac = none := by
  cases hsent : m.lastSent.lookup action.deviceMac with
  | none => rfl
  | some sent =>
    exfalso
    obtain ⟨c, hc, rfl⟩ := h _ _ hsent
    obtain rfl : c = prev := Option.some.inj (hc.symm.trans hprev)
    have hgap : now - c.time < MIN_SEND_GAP := (tooSoon_iff c.time now).2 hsoon
    apply hdrop
    unfold drops
    rw [hsent]
    simp [hgap, hpos]

/-- What is dropped is above 0 and not the first value of its loop. -/
theorem of_dropped {mac : Mac} {intensity : Float32} {now : Instant} (h : m.drops mac intensity now = true) :
    intensity > 0.0 ∧ m.lastSent.lookup mac ≠ none := by
  unfold drops at h
  obtain ⟨sent, hsent, hdrop⟩ := (Option.any_eq_true _ _).1 h
  rw [Bool.and_eq_true, decide_eq_true_eq] at hdrop
  refine ⟨hdrop.2, ?_⟩
  rw [hsent]
  exact Option.some_ne_none sent

end Motors

/-- An action keeps the limit exactly when it is in pace. -/
theorem rateLimited_act_iff {m : Motors} (hrec : m.Recorded) (hlim : RateLimited m.commands) (now : Instant)
    {action : HapticAction} (hpulse : ∀ ms, action.pulseMs = some ms → action.intensity = 1.0) :
    RateLimited (m.act now action).commands ↔ action.InPace m now := by
  unfold HapticAction.InPace Motors.act
  cases hms : action.pulseMs with
  | some ms =>
    dsimp only
    rw [Motors.rateLimited_drive_iff hlim, hpulse ms hms]
    refine forall₂_congr fun prev hprev => ?_
    rw [Motors.spaced_pulseStart_iff]
    simp
  | none =>
    dsimp only
    by_cases hdrop : m.drops action.deviceMac action.intensity now = true
    · obtain ⟨hpos, hsent⟩ := Motors.of_dropped hdrop
      rw [if_pos hdrop]
      refine iff_of_true hlim fun prev _ _ => ?_
      simpa [hpos] using hsent
    · rw [if_neg hdrop, Motors.rateLimited_drive_iff hlim]
      refine forall₂_congr fun prev hprev => ?_
      rw [Motors.spaced_value_iff]
      refine forall_congr' fun hsoon => ?_
      by_cases hpos : action.intensity > 0.0
      · have hnone := hrec.not_dropped hprev hsoon hdrop hpos
        simp [hpos, hnone]
      · simp [hpos]

/-- An operation keeps the limit exactly when it is in pace. -/
theorem rateLimited_perform_iff {m : Motors} (op : Op) (hrec : m.Recorded) (hlim : RateLimited m.commands) :
    RateLimited (m.perform op).commands ↔ op.InPace m := by
  cases op with
  | bind => exact iff_of_true hlim trivial
  | apply now rule value => exact rateLimited_act_iff hrec hlim now fun _ hms => (applyMode_pulse hms).2.2
  | expire now mac =>
    rw [Motors.perform_expire]
    split
    · exact iff_of_true (Motors.rateLimited_stop hlim now mac) trivial
    · exact iff_of_true hlim trivial
  | silence now mac => exact iff_of_true (Motors.rateLimited_stop hlim now mac) trivial

/-! ### Runs -/

section Runs

variable {clock : Nat → Instant} {listeners : Listeners} {decodeUdp : List UInt8 → Option OscPacket}

/-- A step of the bridge keeps the limit exactly when it is paced. -/
theorem tracedStep_rateLimited_iff {r r' : Traced} {a : BridgeAction} (hlim : RateLimited (motorsOf r.ops).commands)
    (hs : tracedStep clock listeners decodeUdp r a = some r') :
    RateLimited (motorsOf r'.ops).commands ↔ Paced clock decodeUdp r a := by
  obtain ⟨-, hops⟩ := tracedStep_some hs
  rw [hops]
  exact foldl_iff_along (J := Motors.Recorded) (I := fun m => RateLimited m.commands) (fun _ op hrec => hrec.perform op)
    (fun _ op hrec hlim => rateLimited_perform_iff op hrec hlim) (fun _ op h => Motors.rateLimited_of_perform op h)
    (Motors.recorded_motorsOf r.ops) hlim _

/-- As long as the values are in pace the commands of the bridge keep the limit; the first one that is not ends that. -/
theorem commands_rateLimited {config : HapticConfig} {r : Traced}
    (h : Reaches (tracedStep clock listeners decodeUdp) (Paced clock decodeUdp) (.start config) r) :
    r.bridge.calls = (motorsOf r.ops).commands.map Command.rumble ∧ RateLimited (motorsOf r.ops).commands ∧
      ∀ a r', tracedStep clock listeners decodeUdp r a = some r' →
        (RateLimited (motorsOf r'.ops).commands ↔ Paced clock decodeUdp r a) := by
  have hlim : RateLimited (motorsOf r.ops).commands :=
    h.invariant (I := fun r => RateLimited (motorsOf r.ops).commands) trivial
      fun _ _ _ hi hok hs => (tracedStep_rateLimited_iff hi hs).2 hok
  exact ⟨(traced_invariant h).calls.symm, hlim, fun _ _ hs => tracedStep_rateLimited_iff hlim hs⟩

end Runs

/-! ### Two devices -/

def buzzMac : Mac := #v[0x02, 0, 0, 0, 0, 0x9A]

/-- A proximity rule on the address `/a` and a pulse rule for another device on `/b`. -/
def twoModes : HapticConfig :=
  ⟨true, DEFAULT_OSC_PORT, [⟨"/a", touchMac, .proximity 1.0 0.05⟩, ⟨"/b", buzzMac, .pulse 100⟩]⟩

/-- A touch that is released after 3 ms keeps the limit. -/
theorem quick_release_rateLimited :
    ∃ r, exec (tracedStep (· * 1_000_000) ⟨false, false⟩ decodeFloat) (.start twoModes)
        (floatTurns [(0x61, 0x3F, 0x4C, 0xCC, 0xCD), (0x61, 0, 0, 0, 0)]) = some r ∧
      r.bridge.calls = [⟨6_000_000, touchMac, 0.0⟩, ⟨3_000_000, touchMac, 0.8⟩] ∧
      RateLimited (motorsOf r.ops).commands := by
  let step := tracedStep (· * 1_000_000) ⟨false, false⟩ decodeFloat
  let actions := floatTurns [(0x61, 0x3F, 0x4C, 0xCC, 0xCD), (0x61, 0, 0, 0, 0)]
  let guarded := guardStep step (Paced (· * 1_000_000) decodeFloat)
  have hguard : (exec guarded (.start twoModes) actions).isSome = true := by decide +kernel
  have hcalls : (exec step (.start twoModes) actions).map (fun r => r.bridge.calls) =
      some [⟨6_000_000, touchMac, 0.0⟩, ⟨3_000_000, touchMac, 0.8⟩] := by decide +kernel
  obtain ⟨r, hr⟩ := Option.isSome_iff_exists.1 hguard
  have hrun : exec step (.start twoModes) actions = some r := exec_of_guard hr
  rw [hrun] at hcalls
  exact ⟨r, hrun, Option.some.inj hcalls, (commands_rateLimited (Reaches.of_exec actions hr)).2.1⟩

/-- Two zeros in a row, and two values above the threshold of a pulse, each 3 ms apart, all reach their devices. -/
theorem repeated_values_break_limit :
    ∃ r, exec (tracedStep (· * 1_000_000) ⟨false, false⟩ decodeFloat) (.start twoModes)
        (floatTurns [(0x61, 0, 0, 0, 0), (0x61, 0, 0, 0, 0), (0x62, 0x3F, 0x80, 0, 0), (0x62, 0x3F, 0x80, 0, 0)]) =
          some r ∧
      r.bridge.callsTo touchMac = [⟨6_000_000, touchMac, 0.0⟩, ⟨3_000_000, touchMac, 0.0⟩] ∧
      r.bridge.callsTo buzzMac = [⟨12_000_000, buzzMac, 1.0⟩, ⟨9_000_000, buzzMac, 1.0⟩] ∧
      ¬ RateLimited (motorsOf r.ops).commands := by
  let run := exec (tracedStep (· * 1_000_000) ⟨false, false⟩ decodeFloat) (.start twoModes)
    (floatTurns [(0x61, 0, 0, 0, 0), (0x61, 0, 0, 0, 0), (0x62, 0x3F, 0x80, 0, 0), (0x62, 0x3F, 0x80, 0, 0)])
  have hcalls : run.map (fun r => (r.bridge.callsTo touchMac, r.bridge.callsTo buzzMac,
      decide (RateLimited (motorsOf r.ops).commands))) =
      some ([⟨6_000_000, touchMac, 0.0⟩, ⟨3_000_000, touchMac, 0.0⟩],
        [⟨12_000_000, buzzMac, 1.0⟩, ⟨9_000_000, buzzMac, 1.0⟩], false) := by decide +kernel
  obtain ⟨r, hr, hcalls⟩ := Option.map_eq_some_iff.1 hcalls
  simp only [Prod.mk.injEq, decide_eq_false_iff_not] at hcalls
  exact ⟨r, hr, hcalls⟩

end EverythingImu.OscHaptics
