import EverythingImu.OscHaptics.RateLimit

/-!
# What reaches a device

A pulse and a proximity value, seen from their device.  A value that crosses the threshold of a pulse rule starts the
motor, and the loop stops it at the first wake-up after the end of the pulse, as long as nothing else happens to the
device: a proximity value overrides the pulse, and the watchdog and a new loop end it (`pulse_law`).

A proximity value that comes too soon after the last command is dropped and not sent again.  So the device is left
close to the newest value, or the newest value came too soon and was above 0 (`resting_intensity`).
-/

namespace EverythingImu.OscHaptics

open Channel StepRun

/-! ### One device -/

/-- Nothing has happened to the device. -/
structure SameFor (mac : Mac) (m m' : Motors) : Prop where
  callsTo : m'.callsTo mac = m.callsTo mac
  lastSent : m'.lastSent.lookup mac = m.lastSent.lookup mac
  pulseUntil : m'.pulseUntil.lookup mac = m.pulseUntil.lookup mac

theorem SameFor.refl (mac : Mac) (m : Motors) : SameFor mac m m := ⟨rfl, rfl, rfl⟩

theorem SameFor.trans {mac : Mac} {m₁ m₂ m₃ : Motors} (h : SameFor mac m₁ m₂) (h' : SameFor mac m₂ m₃) :
    SameFor mac m₁ m₃ :=
  ⟨h'.callsTo.trans h.callsTo, h'.lastSent.trans h.lastSent, h'.pulseUntil.trans h.pulseUntil⟩

namespace Motors

variable {m : Motors} {mac : Mac}

theorem callsTo_drive (mac' : Mac) (intensity : Float32) (cause : Cause) (now : Instant) :
    (m.drive mac' intensity cause now).callsTo mac =
      if mac' = mac then ⟨now, mac', intensity⟩ :: m.callsTo mac else m.callsTo mac := by
  unfold callsTo drive Command.rumble
  rw [List.map_cons, List.filter_cons]
  simp only [decide_eq_true_eq]

/-- A command to another device with a change of its pulse. -/
theorem sameFor_drive {mac' : Mac} (hne : mac' ≠ mac) {pulses : AList fun _ : Mac => Instant}
    (hpulses : pulses.lookup mac = m.pulseUntil.lookup mac) (intensity : Float32) (cause : Cause) (now : Instant) :
    SameFor mac m ({ m with pulseUntil := pulses }.drive mac' intensity cause now) where
  callsTo := by
    rw [callsTo_drive, if_neg hne]
    rfl
  lastSent := by rw [lookup_drive, if_neg hne]
  pulseUntil := hpulses

theorem sameFor_stop {mac' : Mac} (hne : mac' ≠ mac) (now : Instant) : SameFor mac m (m.stop now mac') :=
  sameFor_drive hne (AList.lookup_erase_ne hne.symm) _ _ _

theorem sameFor_act {action : HapticAction} (hne : action.deviceMac ≠ mac) (now : Instant) :
    SameFor mac m (m.act now action) := by
  unfold act
  cases action.pulseMs with
  | some ms => exact sameFor_drive hne (AList.lookup_insert_ne hne.symm) _ _ _
  | none =>
    have herase : (m.pulseUntil.erase action.deviceMac).lookup mac = m.pulseUntil.lookup mac :=
      AList.lookup_erase_ne hne.symm
    dsimp only
    split
    · exact ⟨rfl, rfl, herase⟩
    · exact sameFor_drive hne herase _ _ _

theorem sameFor_apply {rule : HapticRule} (hne : rule.deviceMac ≠ mac) (now : Instant) (value : Float32) :
    SameFor mac m (m.perform (.apply now rule value)) := by
  refine sameFor_act ?_ now
  rw [applyMode_deviceMac]
  exact hne

theorem sameFor_silence {mac' : Mac} (hne : mac' ≠ mac) (now : Instant) :
    SameFor mac m (m.perform (.silence now mac')) := sameFor_stop hne now

theorem sameFor_expire_of_ne {mac' : Mac} (hne : mac' ≠ mac) (now : Instant) :
    SameFor mac m (m.perform (.expire now mac')) := by
  rw [perform_expire]
  split
  · exact sameFor_stop hne now
  · exact SameFor.refl mac m

/-- The loop does nothing to a device without a pending pulse when it looks for ended pulses. -/
theorem sameFor_expire (hnone : m.pulseUntil.lookup mac = none) (now : Instant) (mac' : Mac) :
    SameFor mac m (m.perform (.expire now mac')) := by
  by_cases hmac : mac' = mac
  · subst hmac
    rw [perform_expire, hnone]
    exact SameFor.refl mac' m
  · exact sameFor_expire_of_ne hmac now

theorem sameFor_expires (hnone : m.pulseUntil.lookup mac = none) (now : Instant) (macs : List Mac) :
    SameFor mac m ((macs.map (Op.expire now)).foldl perform m) := by
  induction macs generalizing m with
  | nil => exact SameFor.refl mac m
  | cons mac' macs ih =>
    have hhead := sameFor_expire hnone now mac'
    exact hhead.trans (ih (hhead.pulseUntil.trans hnone))

theorem sameFor_silences {macs : List Mac} (hmac : mac ∉ macs) (now : Instant) :
    SameFor mac m ((macs.map (Op.silence now)).foldl perform m) := by
  induction macs generalizing m with
  | nil => exact SameFor.refl mac m
  | cons mac' macs ih =>
    rw [List.mem_cons, not_or] at hmac
    have hhead : SameFor mac m (m.perform (.silence now mac')) := sameFor_silence (Ne.symm hmac.1) now
    exact hhead.trans (ih hmac.2)

theorem callsTo_stop (now : Instant) : (m.stop now mac).callsTo mac = ⟨now, mac, 0.0⟩ :: m.callsTo mac := by
  unfold stop
  rw [callsTo_drive, if_pos rfl]
  rfl

theorem pulse_stop (now : Instant) : (m.stop now mac).pulseUntil.lookup mac = none := AList.lookup_erase mac _

theorem lastSent_stop (now : Instant) : (m.stop now mac).lastSent.lookup mac = some (now, 0.0) := by
  unfold stop
  rw [lookup_drive, if_pos rfl]

/-- When the loop looks for ended pulses, a device whose pulse has ended is commanded 0, once. -/
theorem expires_ended {now : Instant} (hended : (m.pulseUntil.lookup mac).any (· ≤ now) = true) {macs : List Mac}
    (hmem : mac ∈ macs) :
    ((macs.map (Op.expire now)).foldl perform m).callsTo mac = ⟨now, mac, 0.0⟩ :: m.callsTo mac ∧
      ((macs.map (Op.expire now)).foldl perform m).lastSent.lookup mac = some (now, 0.0) := by
  induction macs generalizing m with
  | nil => cases hmem
  | cons mac' macs ih =>
    rw [List.map_cons, List.foldl_cons]
    by_cases hmac : mac' = mac
    · subst hmac
      have hstop : m.perform (.expire now mac') = m.stop now mac' := if_pos hended
      have hrest := sameFor_expires (m := m.stop now mac') (pulse_stop now) now macs
      rw [hstop, hrest.callsTo, hrest.lastSent]
      exact ⟨callsTo_stop now, lastSent_stop now⟩
    · have hhead : SameFor mac m (m.perform (.expire now mac')) := sameFor_expire_of_ne hmac now
      have hmem' : mac ∈ macs := (List.mem_cons.1 hmem).resolve_left (Ne.symm hmac)
      rw [← hhead.callsTo]
      rw [← hhead.pulseUntil] at hended
      exact ih hended hmem'

end Motors

/-! ### Pulses -/

/-- The value that the rule got before, in the loop that runs. -/
def previousValue (rule : HapticRule) : List Op → Option Float32
  | [] => none
  | .bind :: _ => none
  | .apply _ rule' value :: earlier => if rule' = rule then some value else previousValue rule earlier
  | .expire _ _ :: earlier => previousValue rule earlier
  | .silence _ _ :: earlier => previousValue rule earlier

/-- The value of a pulse rule rises above the threshold. -/
structure Crossing (earlier : List Op) (rule : HapticRule) (ms : UInt32) (value : Float32) : Prop where
  mode : rule.mode = .pulse ms
  above : value > 0.5
  rising : ∀ prev ∈ previousValue rule earlier, ¬ prev > 0.5

/-- The operation does not end a pulse of the device before its time. -/
def Op.Leaves (mac : Mac) : Op → Prop
  | .bind => False
  | .apply _ rule _ => rule.deviceMac ≠ mac
  | .expire _ _ => True
  | .silence _ mac' => mac' ≠ mac

def pulseEnd (start : Instant) (ms : UInt32) : Instant := start + ms.toNat * 1_000_000

/-- The device was commanded 1 and waits for the end of its pulse. -/
structure Pulsing (m : Motors) (mac : Mac) (start end_ : Instant) (before : List Rumble) : Prop where
  pending : m.pulseUntil.lookup mac = some end_
  calls : m.callsTo mac = ⟨start, mac, 1.0⟩ :: before

/-- The device was commanded 1 and then, not before the end of its pulse, 0. -/
structure Pulsed (m : Motors) (mac : Mac) (start end_ : Instant) (before : List Rumble) : Prop where
  done : m.pulseUntil.lookup mac = none
  calls : ∃ now, end_ ≤ now ∧ m.callsTo mac = [⟨now, mac, 0.0⟩, ⟨start, mac, 1.0⟩] ++ before

section Pulse

variable {m m' : Motors} {mac : Mac} {start end_ : Instant} {before : List Rumble}

theorem Pulsing.sameFor (h : Pulsing m mac start end_ before) (hsame : SameFor mac m m') :
    Pulsing m' mac start end_ before :=
  ⟨hsame.pulseUntil.trans h.pending, hsame.callsTo.trans h.calls⟩

theorem Pulsed.sameFor (h : Pulsed m mac start end_ before) (hsame : SameFor mac m m') :
    Pulsed m' mac start end_ before := by
  obtain ⟨now, hend, hcalls⟩ := h.calls
  exact ⟨hsame.pulseUntil.trans h.done, now, hend, hsame.callsTo.trans hcalls⟩

/-- A value above the threshold starts a pulse. -/
theorem pulsing_of_crossing {earlier : List Op} {rule : HapticRule} {ms : UInt32} {value : Float32}
    (h : Crossing earlier rule ms value) (now : Instant) :
    Pulsing (m.perform (.apply now rule value)) rule.deviceMac now (pulseEnd now ms) (m.callsTo rule.deviceMac) := by
  have haction : applyMode rule.deviceMac rule.mode value = ⟨rule.deviceMac, 1.0, some ms⟩ := by
    rw [h.mode]
    exact if_pos h.above
  rw [Motors.perform_apply, haction]
  constructor
  · exact AList.lookup_insert _
  · show (Motors.drive _ _ _ _ _).callsTo _ = _
    rw [Motors.callsTo_drive, if_pos rfl]
    rfl

/-- Commands are never taken back. -/
theorem callsTo_suffix (later earlier : List Op) (mac : Mac) :
    (motorsOf earlier).callsTo mac <:+ (motorsOf (later ++ earlier)).callsTo mac := by
  induction later with
  | nil => exact List.suffix_rfl
  | cons op later ih =>
    refine ih.trans ?_
    show _ <:+ ((motorsOf (later ++ earlier)).perform op).callsTo mac
    rcases (motorsOf (later ++ earlier)).perform_cases op with ⟨hcommands, -⟩ | ⟨_, mac', intensity, cause, now, hdrive⟩
    · have hsame :
          ((motorsOf (later ++ earlier)).perform op).callsTo mac = (motorsOf (later ++ earlier)).callsTo mac := by
        unfold Motors.callsTo
        rw [hcommands]
      exact hsame ▸ List.suffix_rfl
    · rw [hdrive, Motors.callsTo_drive]
      split
      · exact List.suffix_cons _ _
      · exact List.suffix_rfl

/-- Only the end of its time ends the pulse. -/
theorem Pulsing.perform (h : Pulsing m mac start end_ before) {op : Op} (hop : op.Leaves mac) :
    Pulsing (m.perform op) mac start end_ before ∨ Pulsed (m.perform op) mac start end_ before := by
  cases op with
  | bind => exact hop.elim
  | apply now rule value => exact Or.inl (h.sameFor (Motors.sameFor_apply hop now value))
  | silence now mac' => exact Or.inl (h.sameFor (Motors.sameFor_silence hop now))
  | expire now mac' =>
    by_cases hmac : mac' = mac
    · subst hmac
      rw [Motors.perform_expire, h.pending]
      by_cases hend : end_ ≤ now
      · rw [if_pos (by simpa using hend)]
        refine Or.inr ⟨Motors.pulse_stop now, now, hend, ?_⟩
        rw [Motors.callsTo_stop, h.calls]
        rfl
      · rw [if_neg (by simpa using hend)]
        exact Or.inl h
    · exact Or.inl (h.sameFor (Motors.sameFor_expire_of_ne hmac now))

theorem Pulsed.perform (h : Pulsed m mac start end_ before) {op : Op} (hop : op.Leaves mac) :
    Pulsed (m.perform op) mac start end_ before := by
  cases op with
  | bind => exact hop.elim
  | apply now rule value => exact h.sameFor (Motors.sameFor_apply hop now value)
  | silence now mac' => exact h.sameFor (Motors.sameFor_silence hop now)
  | expire now mac' => exact h.sameFor (Motors.sameFor_expire h.done now mac')

/-- After a crossing the device is in its pulse or had it. -/
theorem pulse_run {earlier later : List Op} {rule : HapticRule} {ms : UInt32} {value : Float32}
    (hcross : Crossing earlier rule ms value) (now : Instant) (hquiet : ∀ op ∈ later, op.Leaves rule.deviceMac) :
    let m := motorsOf (later ++ .apply now rule value :: earlier)
    let before := (motorsOf earlier).callsTo rule.deviceMac
    Pulsing m rule.deviceMac now (pulseEnd now ms) before ∨ Pulsed m rule.deviceMac now (pulseEnd now ms) before := by
  induction later with
  | nil => exact Or.inl (pulsing_of_crossing hcross now)
  | cons op later ih =>
    have hop : op.Leaves rule.deviceMac := hquiet op List.mem_cons_self
    rcases ih fun op hmem => hquiet op (List.mem_cons_of_mem _ hmem) with hpulsing | hpulsed
    · exact hpulsing.perform hop
    · exact Or.inr (hpulsed.perform hop)

end Pulse

/-! ### The timer -/

theorem foldl_min_le {β : Type*} (f : β → Nat) {b : β} {bs : List β} (hmem : b ∈ bs) (n : Nat) :
    bs.foldl (fun n b => min n (f b)) n ≤ f b := by
  have hinit : ∀ (bs : List β) (n : Nat), bs.foldl (fun n b => min n (f b)) n ≤ n := by
    intro bs
    induction bs with
    | nil => exact fun n => Nat.le_refl n
    | cons b bs ih => exact fun n => Nat.le_trans (ih _) (Nat.min_le_left n (f b))
  induction bs generalizing n with
  | nil => cases hmem
  | cons b' bs ih =>
    rw [List.foldl_cons]
    rcases List.mem_cons.1 hmem with rfl | hmem
    · exact Nat.le_trans (hinit bs _) (Nat.min_le_right n (f b))
    · exact ih hmem _

private theorem add_le_max_of_le {now wake end_ least : Nat} (h : wake ≤ max (end_ - now) least) :
    now + wake ≤ max end_ (now + least) := by
  omega

/-- The loop does not sleep past the end of a pulse, except for the shortest sleep. -/
theorem nextWake_le {st : LoopState} {mac : Mac} {end_ : Instant} (h : st.pulseUntil.lookup mac = some end_)
    (now : Instant) : now + st.nextWake now ≤ max end_ (now + MIN_WAKE) := by
  have hmem : (⟨mac, end_⟩ : Sigma fun _ : Mac => Instant) ∈ st.pulseUntil.entries := AList.mem_lookup_iff.1 h
  have hfold := foldl_min_le (fun e : Sigma fun _ : Mac => Instant => e.2 - now) hmem MAX_TICK
  apply add_le_max_of_le
  unfold LoopState.nextWake
  dsimp only at hfold ⊢
  refine Nat.max_le.2 ⟨Nat.le_trans ?_ (Nat.le_max_left _ _), Nat.le_max_right _ _⟩
  split
  · exact hfold
  · exact Nat.le_trans (Nat.min_le_left _ _) hfold

/-- A wake-up of the loop commands a device whose pulse has ended 0, once, also if the watchdog runs. -/
theorem tick_ends_pulse {m : Motors} {w : World} {earlier : List Rumble} (h : Records m w earlier)
    (clock : Nat → Instant) {now : Instant} {mac : Mac}
    (hended : (w.state.pulseUntil.lookup mac).any (· ≤ now) = true) :
    ((tickOps clock now w).foldl Motors.perform m).callsTo mac = ⟨now, mac, 0.0⟩ :: m.callsTo mac := by
  have hzero : ¬ (0.0 : Float32) > 0.0 := by decide +kernel
  have hmem : mac ∈ w.state.expired now := mem_expired_iff.2 hended
  have hexp := h.expires now (nodup_expired w.state now) fun mac' hmac' => by
    rw [h.pulseUntil]
    exact mem_expired_iff.1 hmac'
  rw [← h.pulseUntil] at hended
  obtain ⟨hcalls, hlast⟩ := Motors.expires_ended hended hmem
  unfold tickOps
  dsimp only
  rw [List.foldl_append, ← hcalls]
  split
  · refine (Motors.sameFor_silences ?_ _).callsTo
    intro hactive
    obtain ⟨sent, hsent, hpos⟩ := mem_active_iff.1 hactive
    rw [← hexp.lastSent, hlast] at hsent
    cases hsent
    exact hzero hpos
  · rfl

section Runs

variable {clock : Nat → Instant} {listeners : Listeners} {decodeUdp : List UInt8 → Option OscPacket}

/-- A turn in which nothing arrives is taken when its sleep is over. -/
theorem serveTurn_timer {rules : List HapticRule} {config : Watch HapticConfig} {seen : Nat} {w : World}
    (hconfig : config.changed seen = .pending)
    (hlate : clock w.reads + w.state.nextWake (clock w.reads) ≤ clock (w.reads + 1)) :
    serveTurn clock listeners rules decodeUdp config seen .pending w =
      some (none, w.readClock.readClock.onTick clock (clock (w.reads + 1))) := by
  unfold serveTurn
  dsimp only
  rw [hconfig]
  exact if_neg (Nat.not_lt.2 hlate)

/-- While a pulse is pending, the first turn in which nothing arrives and whose clock is past the end of the pulse
commands the device 0. -/
theorem timer_ends_pulse {r : Traced} (hr : TracedInvariant r) {rules : List HapticRule} {w : World} {mac : Mac}
    {end_ : Instant} (hp : r.bridge.phase = .serving rules w)
    (hpending : (motorsOf r.ops).pulseUntil.lookup mac = some end_)
    (hconfig : r.bridge.config.changed r.bridge.seen = .pending)
    (hlate : max end_ (clock w.reads + MIN_WAKE) ≤ clock (w.reads + 1)) :
    ∃ r', tracedStep clock listeners decodeUdp r (.turn .pending) = some r' ∧
      r'.bridge.callsTo mac = ⟨clock (w.reads + 1), mac, 0.0⟩ :: r.bridge.callsTo mac := by
  have hrec := hr.serving rules w hp
  have hpulse : w.state.pulseUntil.lookup mac = some end_ := by rw [← hrec.pulseUntil, hpending]
  have hturn : serveTurn clock listeners rules decodeUdp r.bridge.config r.bridge.seen .pending w =
      some (none, w.readClock.readClock.onTick clock (clock (w.reads + 1))) :=
    serveTurn_timer hconfig (Nat.le_trans (nextWake_le hpulse _) hlate)
  have hops : bridgeOps clock decodeUdp r.bridge (.turn .pending) =
      tickOps clock (clock (w.reads + 1)) w.readClock.readClock := by
    rw [bridgeOps_turn hp]
    unfold serveOps
    dsimp only
    rw [hconfig]
    rfl
  have hbridge : bridgeStep clock listeners decodeUdp r.bridge (.turn .pending) = some { r.bridge with
      phase := .serving rules (w.readClock.readClock.onTick clock (clock (w.reads + 1))) } := by
    unfold bridgeStep
    dsimp only
    rw [hp]
    dsimp only
    unfold BridgeState.turn
    rw [hturn]
  obtain ⟨r', hstep⟩ : ∃ r', tracedStep clock listeners decodeUdp r (.turn .pending) = some r' :=
    ⟨_, congrArg (Option.map _) hbridge⟩
  refine ⟨r', hstep, ?_⟩
  have hread : Records (motorsOf r.ops) w.readClock.readClock _ := hrec.frame rfl rfl rfl
  have hended : (w.state.pulseUntil.lookup mac).any (· ≤ clock (w.reads + 1)) = true := by
    rw [hpulse]
    exact decide_eq_true (Nat.le_trans (Nat.le_max_left _ _) hlate)
  rw [(hr.step hstep).callsTo, (tracedStep_some hstep).2, hops, hr.callsTo]
  exact tick_ends_pulse hread clock hended

/-- Every crossing commands the device 1.  Unless another value comes for the device, it is silenced or a new loop
starts, there is one more command, a 0 not before the end of the pulse, and the first wake-up of the loop past the end
sends it. -/
theorem pulse_law {config : HapticConfig} {r : Traced}
    (h : Reaches (tracedStep clock listeners decodeUdp) Always (.start config) r) {later earlier : List Op}
    {start : Instant} {rule : HapticRule} {ms : UInt32} {value : Float32}
    (hops : r.ops = later ++ .apply start rule value :: earlier) (hcross : Crossing earlier rule ms value) :
    let mac := rule.deviceMac
    let before := (motorsOf earlier).callsTo mac
    (⟨start, mac, 1.0⟩ :: before) <:+ r.bridge.callsTo mac ∧
      ((∀ op ∈ later, op.Leaves mac) →
        (r.bridge.callsTo mac = ⟨start, mac, 1.0⟩ :: before ∧
          ∀ rules w, r.bridge.phase = .serving rules w → r.bridge.config.changed r.bridge.seen = .pending →
            max (pulseEnd start ms) (clock w.reads + MIN_WAKE) ≤ clock (w.reads + 1) →
            ∃ r', tracedStep clock listeners decodeUdp r (.turn .pending) = some r' ∧
              r'.bridge.callsTo mac = ⟨clock (w.reads + 1), mac, 0.0⟩ :: r.bridge.callsTo mac) ∨
        ∃ now, pulseEnd start ms ≤ now ∧ r.bridge.callsTo mac = [⟨now, mac, 0.0⟩, ⟨start, mac, 1.0⟩] ++ before) := by
  intro mac before
  have hr : TracedInvariant r := traced_invariant h
  have hcalls : r.bridge.callsTo mac = (motorsOf (later ++ .apply start rule value :: earlier)).callsTo mac := by
    rw [hr.callsTo, hops]
  constructor
  · rw [hcalls, ← (pulsing_of_crossing (m := motorsOf earlier) hcross start).calls]
    exact callsTo_suffix later (.apply start rule value :: earlier) mac
  · intro hquiet
    rcases pulse_run hcross start hquiet with hpulsing | hpulsed
    · refine Or.inl ⟨hcalls.trans hpulsing.calls, fun rules w hp hconfig hlate => ?_⟩
      have hpending : (motorsOf r.ops).pulseUntil.lookup mac = some (pulseEnd start ms) := by
        rw [hops]
        exact hpulsing.pending
      exact timer_ends_pulse hr hp hpending hconfig hlate
    · obtain ⟨now, hend, hnow⟩ := hpulsed.calls
      exact Or.inr ⟨now, hend, hcalls.trans hnow⟩

end Runs

/-! ### Proximity values -/

/-- Every value for the device, in the loop that runs, is one of a proximity rule. -/
def ProximityOnly (mac : Mac) : List Op → Prop
  | [] => True
  | .bind :: _ => True
  | .apply _ rule _ :: earlier =>
    (rule.deviceMac = mac → ∃ gain minThreshold, rule.mode = .proximity gain minThreshold) ∧ ProximityOnly mac earlier
  | .expire _ _ :: earlier => ProximityOnly mac earlier
  | .silence _ _ :: earlier => ProximityOnly mac earlier

/-- The newest value for the device and its time, unless the device has been silenced since. -/
def restingValue (mac : Mac) : List Op → Option (Instant × Float32)
  | [] => none
  | .bind :: _ => none
  | .apply now rule value :: earlier =>
    if rule.deviceMac = mac then some (now, (applyMode rule.deviceMac rule.mode value).intensity)
    else restingValue mac earlier
  | .expire _ _ :: earlier => restingValue mac earlier
  | .silence _ mac' :: earlier => if mac' = mac then none else restingValue mac earlier

/-- The last command `sent` is the value, is close to it, or held it back. -/
def Settles (value sent : Instant × Float32) : Prop :=
  sent.2 = value.2 ∨ (value.2 - sent.2).abs < INTENSITY_EPSILON ∨
    (value.2 > 0.0 ∧ value.1 < sent.1 + MIN_SEND_GAP)

section Proximity

variable {mac : Mac}

/-- Without a value of a pulse rule no pulse is pending. -/
theorem no_pulse_of_proximityOnly {ops : List Op} (h : ProximityOnly mac ops) :
    (motorsOf ops).pulseUntil.lookup mac = none := by
  induction ops with
  | nil => rfl
  | cons op ops ih =>
    show ((motorsOf ops).perform op).pulseUntil.lookup mac = none
    cases op with
    | bind => rfl
    | apply now rule value =>
      obtain ⟨hmode, hops⟩ := h
      by_cases hmac : rule.deviceMac = mac
      · obtain ⟨gain, minThreshold, hmode⟩ := hmode hmac
        have hnone : (applyMode rule.deviceMac rule.mode value).pulseMs = none := by
          rw [hmode]
          rfl
        have herase : ((motorsOf ops).pulseUntil.erase rule.deviceMac).lookup mac = none := by
          rw [hmac]
          exact AList.lookup_erase mac _
        rw [Motors.perform_apply]
        unfold Motors.act
        rw [hnone, applyMode_deviceMac]
        dsimp only
        split
        · exact herase
        · exact herase
      · rw [(Motors.sameFor_apply hmac now value).pulseUntil]
        exact ih hops
    | expire now mac' =>
      rw [(Motors.sameFor_expire (ih h) now mac').pulseUntil]
      exact ih h
    | silence now mac' =>
      by_cases hmac : mac' = mac
      · subst hmac
        exact Motors.pulse_stop now
      · rw [(Motors.sameFor_silence hmac now).pulseUntil]
        exact ih h

/-- A proximity value settles at once: it is sent, close to the last command or held back by it. -/
theorem settles_act {m : Motors} {action : HapticAction} (hmode : action.pulseMs = none) (now : Instant) :
    ∃ sent, (m.act now action).lastSent.lookup action.deviceMac = some sent ∧ Settles (now, action.intensity) sent := by
  unfold Motors.act
  rw [hmode]
  dsimp only
  split
  · rename_i hdrop
    obtain ⟨sent, hsent, hheld⟩ := (Option.any_eq_true _ _).1 hdrop
    simp only [Bool.and_eq_true, Bool.or_eq_true, decide_eq_true_eq] at hheld
    obtain ⟨hsoon | hclose, hpos⟩ := hheld
    · exact ⟨sent, hsent, Or.inr (Or.inr ⟨hpos, (Motors.tooSoon_iff sent.1 now).1 hsoon⟩)⟩
    · exact ⟨sent, hsent, Or.inr (Or.inl hclose)⟩
  · refine ⟨(now, action.intensity), ?_, Or.inl rfl⟩
    rw [Motors.lookup_drive, if_pos rfl]

/-- The record of the device settles its newest value. -/
theorem settles_of_resting {ops : List Op} (hprox : ProximityOnly mac ops) {value : Instant × Float32}
    (hrest : restingValue mac ops = some value) :
    ∃ sent, (motorsOf ops).lastSent.lookup mac = some sent ∧ Settles value sent := by
  induction ops with
  | nil => cases hrest
  | cons op ops ih =>
    show ∃ sent, ((motorsOf ops).perform op).lastSent.lookup mac = some sent ∧ Settles value sent
    cases op with
    | bind => cases hrest
    | apply now rule x =>
      obtain ⟨hmode, hops⟩ := hprox
      unfold restingValue at hrest
      by_cases hmac : rule.deviceMac = mac
      · rw [if_pos hmac] at hrest
        obtain rfl := Option.some.inj hrest
        obtain ⟨gain, minThreshold, hmode⟩ := hmode hmac
        have hnone : (applyMode rule.deviceMac rule.mode x).pulseMs = none := by
          rw [hmode]
          rfl
        have hsettles := settles_act (m := motorsOf ops) hnone now
        rw [applyMode_deviceMac] at hsettles
        rw [← hmac]
        exact hsettles
      · rw [if_neg hmac] at hrest
        rw [(Motors.sameFor_apply hmac now x).lastSent]
        exact ih hops hrest
    | expire now mac' =>
      have hnone : (motorsOf ops).pulseUntil.lookup mac = none := no_pulse_of_proximityOnly hprox
      rw [(Motors.sameFor_expire hnone now mac').lastSent]
      exact ih hprox hrest
    | silence now mac' =>
      unfold restingValue at hrest
      by_cases hmac : mac' = mac
      · rw [if_pos hmac] at hrest
        cases hrest
      · rw [if_neg hmac] at hrest
        rw [(Motors.sameFor_silence hmac now).lastSent]
        exact ih hprox hrest

end Proximity

/-- The last command to a device with proximity values only is its newest value or close to it, or the newest value is
above 0 and came less than `MIN_SEND_GAP` after that command. -/
theorem resting_intensity {clock : Nat → Instant} {listeners : Listeners} {decodeUdp : List UInt8 → Option OscPacket}
    {config : HapticConfig} {r : Traced}
    (h : Reaches (tracedStep clock listeners decodeUdp) Always (.start config) r) {rules : List HapticRule} {w : World}
    (hp : r.bridge.phase = .serving rules w) {mac : Mac} (hprox : ProximityOnly mac r.ops) {value : Instant × Float32}
    (hrest : restingValue mac r.ops = some value) :
    ∃ c, w.lastCall mac = some c ∧ Settles value (c.time, c.intensity) := by
  obtain ⟨sent, hsent, hsettles⟩ := settles_of_resting hprox hrest
  have hsync : Synced w := (bridgeInvariant_of_reaches (bridge_reaches h)).serving rules w hp
  rw [((traced_invariant h).serving rules w hp).lastSent, hsync mac] at hsent
  obtain ⟨c, hc, rfl⟩ := Option.map_eq_some_iff.1 hsent
  exact ⟨c, hc, hsettles⟩

/-! ### Late wake-ups -/

/-- A clock whose readings are 1 ms apart and that jumps by 260 ms before reading `n`. -/
def jumpingClock (n k : Nat) : Instant := if k < n then k * 1_000_000 else (k + 260) * 1_000_000

def proximityRule : HapticRule := ⟨"/a", touchMac, .proximity 1.0 0.05⟩

def pulseRule (mac : Mac) : HapticRule := ⟨"/b", mac, .pulse 100⟩

/-- A pulse of 100 ms that nothing disturbs: the device is stopped once, after its end. -/
theorem undisturbed_pulse_ends :
    ∃ r, exec (tracedStep (jumpingClock 5) ⟨false, false⟩ decodeFloat) (.start twoModes)
        (floatTurns [(0x62, 0x3F, 0x80, 0, 0)] ++ [.turn .pending]) = some r ∧
      ∃ now, pulseEnd 3_000_000 100 ≤ now ∧
        r.bridge.callsTo buzzMac = [⟨now, buzzMac, 0.0⟩, ⟨3_000_000, buzzMac, 1.0⟩] := by
  let run := exec (tracedStep (jumpingClock 5) ⟨false, false⟩ decodeFloat) (.start twoModes)
    (floatTurns [(0x62, 0x3F, 0x80, 0, 0)] ++ [.turn .pending])
  have hrun : run.map (fun r => (r.ops, (r.bridge.callsTo buzzMac).length)) =
      some ([.expire 265_000_000 buzzMac, .apply 3_000_000 (pulseRule buzzMac) 1.0, .bind], 2) := by decide +kernel
  obtain ⟨r, hr, hfields⟩ := Option.map_eq_some_iff.1 hrun
  obtain ⟨hrops, hlength⟩ := Prod.mk.inj hfields
  have hops : r.ops = [.expire 265_000_000 buzzMac] ++ .apply 3_000_000 (pulseRule buzzMac) 1.0 :: [.bind] := hrops
  have hcross : Crossing [.bind] (pulseRule buzzMac) 100 1.0 := ⟨rfl, by decide +kernel, nofun⟩
  have hquiet : ∀ op ∈ [Op.expire 265_000_000 buzzMac], op.Leaves (pulseRule buzzMac).deviceMac := by
    intro op hop
    obtain rfl := List.mem_singleton.1 hop
    trivial
  refine ⟨r, hr, ?_⟩
  have hlaw := pulse_law (Reaches.of_run _ hr) hops hcross
  rcases hlaw.2 hquiet with hcalls | hcalls
  · have hone : (r.bridge.callsTo buzzMac).length = 1 := by
      rw [show r.bridge.callsTo buzzMac = _ from hcalls.1]
      rfl
    rw [hlength] at hone
    cases hone
  · exact hcalls

/-- A proximity value for the same device comes 3 ms after the start of a pulse of 100 ms.  The device has not been
commanded 0 when the loop wakes up after the end of the pulse. -/
theorem overridden_pulse_has_no_end :
    ∃ r, exec (tracedStep (jumpingClock 8) ⟨false, false⟩ decodeFloat)
        (.start ⟨true, DEFAULT_OSC_PORT, [proximityRule, pulseRule touchMac]⟩)
        (floatTurns [(0x62, 0x3F, 0x80, 0, 0), (0x61, 0x3E, 0x99, 0x99, 0x9A)] ++ [.turn .pending]) = some r ∧
      r.ops = [.apply 6_000_000 proximityRule 0.3, .apply 3_000_000 (pulseRule touchMac) 1.0, .bind] ∧
      Crossing [.bind] (pulseRule touchMac) 100 1.0 ∧ pulseEnd 3_000_000 100 ≤ jumpingClock 8 8 ∧
      r.bridge.callsTo touchMac = [⟨3_000_000, touchMac, 1.0⟩] := by
  let run := exec (tracedStep (jumpingClock 8) ⟨false, false⟩ decodeFloat)
    (.start ⟨true, DEFAULT_OSC_PORT, [proximityRule, pulseRule touchMac]⟩)
    (floatTurns [(0x62, 0x3F, 0x80, 0, 0), (0x61, 0x3E, 0x99, 0x99, 0x9A)] ++ [.turn .pending])
  have hrun : run.map (fun r => (r.ops, r.bridge.callsTo touchMac)) =
      some ([.apply 6_000_000 proximityRule 0.3, .apply 3_000_000 (pulseRule touchMac) 1.0, .bind],
        [⟨3_000_000, touchMac, 1.0⟩]) := by decide +kernel
  obtain ⟨r, hr, hfields⟩ := Option.map_eq_some_iff.1 hrun
  obtain ⟨hops, hcalls⟩ := Prod.mk.inj hfields
  exact ⟨r, hr, hops, ⟨rfl, by decide +kernel, nofun⟩, by decide, hcalls⟩

/-- Values 60 ms apart: the last command settles the newest one. -/
theorem slow_values_settle :
    ∃ r rules w, exec (tracedStep (· * 20_000_000) ⟨false, false⟩ decodeFloat) (.start twoModes)
        (floatTurns [(0x61, 0x3E, 0xCC, 0xCC, 0xCD), (0x61, 0x3F, 0x66, 0x66, 0x66)]) = some r ∧
      r.bridge.phase = .serving rules w ∧
      ∃ c, w.lastCall touchMac = some c ∧ Settles (120_000_000, 0.9) (c.time, c.intensity) := by
  let run := exec (tracedStep (· * 20_000_000) ⟨false, false⟩ decodeFloat) (.start twoModes)
    (floatTurns [(0x61, 0x3E, 0xCC, 0xCC, 0xCD), (0x61, 0x3F, 0x66, 0x66, 0x66)])
  have hrun : run.map (fun r => (r.ops, r.bridge.loop.isSome)) =
      some ([.apply 120_000_000 proximityRule 0.9, .apply 60_000_000 proximityRule 0.4, .bind], true) := by
    decide +kernel
  obtain ⟨r, hr, hfields⟩ := Option.map_eq_some_iff.1 hrun
  obtain ⟨hops, hserving⟩ := Prod.mk.inj hfields
  obtain ⟨w, hw⟩ := Option.isSome_iff_exists.1 hserving
  obtain ⟨rules, hp⟩ := BridgeState.loop_eq_some_iff.1 hw
  have hprox : ProximityOnly touchMac r.ops := by
    rw [hops]
    exact ⟨fun _ => ⟨_, _, rfl⟩, fun _ => ⟨_, _, rfl⟩, trivial⟩
  have hrest : restingValue touchMac r.ops = some (120_000_000, 0.9) := by
    rw [hops]
    decide +kernel
  exact ⟨r, rules, w, hr, hp, resting_intensity (Reaches.of_run _ hr) hp hprox hrest⟩

/-- The value 0.9 comes 3 ms after the value 0.4.  When the loop wakes up 262 ms later, 0.4 is still the only
command. -/
theorem dropped_value_not_resent :
    ∃ r, exec (tracedStep (jumpingClock 8) ⟨false, false⟩ decodeFloat) (.start twoModes)
        (floatTurns [(0x61, 0x3E, 0xCC, 0xCC, 0xCD), (0x61, 0x3F, 0x66, 0x66, 0x66)] ++ [.turn .pending]) = some r ∧
      ProximityOnly touchMac r.ops ∧ restingValue touchMac r.ops = some (6_000_000, 0.9) ∧
      6_000_000 + MIN_SEND_GAP ≤ jumpingClock 8 8 ∧
      r.bridge.callsTo touchMac = [⟨3_000_000, touchMac, 0.4⟩] ∧ ¬ ((0.9 : Float32) - 0.4).abs < INTENSITY_EPSILON := by
  let run := exec (tracedStep (jumpingClock 8) ⟨false, false⟩ decodeFloat) (.start twoModes)
    (floatTurns [(0x61, 0x3E, 0xCC, 0xCC, 0xCD), (0x61, 0x3F, 0x66, 0x66, 0x66)] ++ [.turn .pending])
  have hrun : run.map (fun r => (r.ops, r.bridge.callsTo touchMac)) =
      some ([.apply 6_000_000 proximityRule 0.9, .apply 3_000_000 proximityRule 0.4, .bind],
        [⟨3_000_000, touchMac, 0.4⟩]) := by decide +kernel
  obtain ⟨r, hr, hfields⟩ := Option.map_eq_some_iff.1 hrun
  obtain ⟨hops, hcalls⟩ := Prod.mk.inj hfields
  refine ⟨r, hr, ?_, ?_, by decide, hcalls, by decide +kernel⟩
  · rw [hops]
    exact ⟨fun _ => ⟨_, _, rfl⟩, fun _ => ⟨_, _, rfl⟩, trivial⟩
  · rw [hops]
    decide +kernel

end EverythingImu.OscHaptics
