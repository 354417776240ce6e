import EverythingImu.Library.FloatOrder
import EverythingImu.OscHaptics.RateLimit

/-!
# What the loop knows about its motors

The records of a serve loop are faithful in every reachable state (`loopState_faithful`): a pending pulse is a running
motor, a recorded intensity is the last command to the device over all loops, and after the watchdog or `silence_all`
nothing runs and nothing is pending.

On the motors every operation keeps that pulses are running (`Live`) and that every recorded intensity is above 0 or
equal to it (`Graded`), so a loop is silent as soon as no recorded intensity is above 0.
-/

namespace EverythingImu.OscHaptics

open StepRun

/-- No recorded intensity differs from 0, and no pulse is pending. -/
structure LoopState.Silent (st : LoopState) : Prop where
  zero : ∀ mac sent, st.lastSent.lookup mac = some sent → (sent.2 == 0.0) = true
  no_pulse : ∀ mac, mac ∉ st.pulseUntil

/-! ### Intensities -/

/-- Above 0 or equal to it, so not a number below it and not NaN. -/
def AtLeastZero (intensity : Float32) : Prop := intensity > 0.0 ∨ (intensity == 0.0) = true

theorem atLeastZero_zero : AtLeastZero 0.0 := .inr (by decide +kernel)

theorem one_pos : (1.0 : Float32) > 0.0 := by decide +kernel

theorem atLeastZero_clamp01 (v : Float32) : AtLeastZero (clamp01 v) := by
  unfold clamp01
  split
  · exact atLeastZero_zero
  · rename_i hnan
    split
    · exact atLeastZero_zero
    · rename_i hneg
      split
      · exact .inl one_pos
      · rcases FloatOrder.lt_or_beq_or_gt_f32 (Bool.eq_false_iff.2 hnan) (v := 0.0) (by decide +kernel) with
          hlt | heq | hgt
        · exact absurd hlt hneg
        · exact .inr heq
        · exact .inl hgt

theorem atLeastZero_applyMode (mac : Mac) (mode : HapticMode) (value : Float32) :
    AtLeastZero (applyMode mac mode value).intensity := by
  cases mode with
  | proximity gain minThreshold =>
    unfold applyMode
    dsimp only
    split
    · exact atLeastZero_zero
    · exact atLeastZero_clamp01 _
  | pulse pulseMs =>
    unfold applyMode
    dsimp only
    split
    · exact .inl one_pos
    · exact atLeastZero_zero

namespace Motors

/-! ### One operation -/

/-- The last value of a device with a pending pulse is above 0. -/
def Live (m : Motors) : Prop :=
  ∀ mac, mac ∈ m.pulseUntil → ∃ sent, m.lastSent.lookup mac = some sent ∧ sent.2 > 0.0

def Graded (m : Motors) : Prop := ∀ mac sent, m.lastSent.lookup mac = some sent → AtLeastZero sent.2

variable {m : Motors}

theorem Graded.drive (h : m.Graded) {pulses : AList fun _ : Mac => Instant} {mac : Mac} {intensity : Float32}
    (hint : AtLeastZero intensity) (cause : Cause) (now : Instant) :
    ({ m with pulseUntil := pulses }.drive mac intensity cause now).Graded := by
  intro mac' sent hsent
  rw [lookup_drive] at hsent
  split at hsent
  · cases hsent
    exact hint
  · exact h mac' sent hsent

/-- A command leaves the pulses of the other devices alone; its own device keeps one only with an intensity above 0. -/
theorem Live.drive (h : m.Live) {pulses : AList fun _ : Mac => Instant} {mac : Mac} {intensity : Float32}
    (hothers : ∀ mac' ∈ pulses, mac' ≠ mac → mac' ∈ m.pulseUntil) (hown : mac ∈ pulses → intensity > 0.0)
    (cause : Cause) (now : Instant) : ({ m with pulseUntil := pulses }.drive mac intensity cause now).Live := by
  intro mac' hmac'
  rw [lookup_drive]
  by_cases hmac : mac = mac'
  · subst hmac
    rw [if_pos rfl]
    exact ⟨_, rfl, hown hmac'⟩
  · rw [if_neg hmac]
    exact h mac' (hothers mac' hmac' (Ne.symm hmac))

/-- Without a command the pulse of a device may only go. -/
theorem Live.cut (h : m.Live) (mac : Mac) : ({ m with pulseUntil := m.pulseUntil.erase mac } : Motors).Live :=
  fun mac' hmac' => h mac' (AList.mem_erase.1 hmac').2

theorem Live.stop (h : m.Live) (now : Instant) (mac : Mac) : (m.stop now mac).Live := by
  refine h.drive (fun mac' hmac' _ => (AList.mem_erase.1 hmac').2) (fun hmac => ?_) _ _
  exact absurd rfl (AList.mem_erase.1 hmac).1

theorem Graded.stop (h : m.Graded) (now : Instant) (mac : Mac) : (m.stop now mac).Graded :=
  h.drive atLeastZero_zero _ _

theorem Live.act (h : m.Live) {action : HapticAction} (hpulse : action.pulseMs.isSome → action.intensity > 0.0)
    (now : Instant) : (m.act now action).Live := by
  unfold Motors.act
  cases hms : action.pulseMs with
  | some ms =>
    refine h.drive (fun mac' hmac' hne => ?_) (fun _ => hpulse (by simp [hms])) _ _
    exact ((AList.mem_insert _).1 hmac').resolve_left hne
  | none =>
    dsimp only
    split
    · exact h.cut _
    · refine h.drive (fun mac' hmac' _ => (AList.mem_erase.1 hmac').2) (fun hmac => ?_) _ _
      exact absurd rfl (AList.mem_erase.1 hmac).1

theorem Graded.act (h : m.Graded) {action : HapticAction} (hint : AtLeastZero action.intensity) (now : Instant) :
    (m.act now action).Graded := by
  rcases m.act_cases now action with hcut | ⟨pulses, cause, hdrive⟩
  · rw [hcut]
    exact h
  · rw [hdrive]
    exact h.drive hint cause now

theorem Live.perform (h : m.Live) (op : Op) : (m.perform op).Live := by
  cases op with
  | bind =>
    intro mac hmac
    exact absurd hmac (AList.notMem_empty mac)
  | apply now rule value =>
    refine h.act (fun hsome => ?_) now
    obtain ⟨ms, hms⟩ := Option.isSome_iff_exists.1 hsome
    rw [(applyMode_pulse hms).2.2]
    exact one_pos
  | expire now mac =>
    rw [perform_expire]
    split
    · exact h.stop now mac
    · exact h
  | silence now mac => exact h.stop now mac

theorem Graded.perform (h : m.Graded) (op : Op) : (m.perform op).Graded := by
  cases op with
  | bind =>
    intro mac sent hsent
    cases hsent
  | apply now rule value => exact h.act (atLeastZero_applyMode _ _ _) now
  | expire now mac =>
    rw [perform_expire]
    split
    · exact h.stop now mac
    · exact h
  | silence now mac => exact h.stop now mac

/-! ### Runs of operations -/

theorem live_motorsOf (ops : List Op) : (motorsOf ops).Live := by
  induction ops with
  | nil =>
    intro mac hmac
    exact absurd hmac (AList.notMem_empty mac)
  | cons op ops ih => exact ih.perform op

theorem graded_motorsOf (ops : List Op) : (motorsOf ops).Graded := by
  induction ops with
  | nil =>
    intro mac sent hsent
    cases hsent
  | cons op ops ih => exact ih.perform op

end Motors

/-- A loop whose records are those of a run of operations is silent once no device has a last value above 0. -/
theorem silent_of_active_eq_nil {ops : List Op} {w : World} {earlier : List Rumble}
    (h : Records (motorsOf ops) w earlier) (hactive : w.state.active = []) : w.state.Silent := by
  have hoff : ∀ mac sent, w.state.lastSent.lookup mac = some sent → ¬ sent.2 > 0.0 := by
    intro mac sent hsent hpos
    have hmem := mem_active_iff.2 ⟨sent, hsent, hpos⟩
    rw [hactive] at hmem
    cases hmem
  refine ⟨fun mac sent hsent => ?_, fun mac hmac => ?_⟩
  · have hgrade := Motors.graded_motorsOf ops mac sent (h.lastSent ▸ hsent)
    exact hgrade.resolve_left (hoff mac sent hsent)
  · obtain ⟨sent, hsent, hpos⟩ := Motors.live_motorsOf ops mac (h.pulseUntil ▸ hmac)
    exact hoff mac sent (h.lastSent ▸ hsent) hpos

/-! ### The watchdog -/

/-- Stopping motors leaves alone what the watchdog looks at. -/
theorem stopMotors_watchdog (macs : List Mac) (w : World) (now : Instant) :
    (macs.foldl (World.stopMotor · now) w).state.idleSilenced = w.state.idleSilenced ∧
      (macs.foldl (World.stopMotor · now) w).state.lastPacket = w.state.lastPacket := by
  induction macs generalizing w with
  | nil => exact ⟨rfl, rfl⟩
  | cons mac macs ih => exact ih _

theorem applyAction_idleSilenced (now : Instant) (w : World) (action : HapticAction) :
    (w.applyAction now action).state.idleSilenced = w.state.idleSilenced := by
  unfold World.applyAction World.send
  split
  · rfl
  · split <;> rfl

theorem handleMessage_idleSilenced (clock : Nat → Instant) (listeners : Listeners) (rules : List HapticRule)
    (msg : OscMessage) (w : World) :
    (handleMessage clock listeners rules msg w).state.idleSilenced = w.state.idleSilenced := by
  have hactions : ∀ (actions : List HapticAction) (now : Instant) (w : World),
      (actions.foldl (World.applyAction · now) w).state.idleSilenced = w.state.idleSilenced := by
    intro actions now w
    induction actions generalizing w with
    | nil => rfl
    | cons action actions ih => exact (ih _).trans (applyAction_idleSilenced now w action)
  have hdiscover : (w.discover listeners msg.addr).state.idleSilenced = w.state.idleSilenced := by
    unfold World.discover
    split <;> rfl
  unfold handleMessage
  dsimp only
  split
  · exact hdiscover
  · rw [hactions]
    split <;> exact hdiscover

/-- A datagram wakes the loop up. -/
theorem onDatagram_idleSilenced (clock : Nat → Instant) (listeners : Listeners) (rules : List HapticRule)
    (decodeUdp : List UInt8 → Option OscPacket) (bytes : List UInt8) (w : World) :
    (onDatagram clock listeners rules decodeUdp bytes w).state.idleSilenced = false := by
  unfold onDatagram
  dsimp only
  split
  · rw [handlePacket_eq_foldl]
    generalize OscPacket.messages _ = msgs
    have hmsgs : ∀ w : World, w.state.idleSilenced = false →
        (msgs.foldl (fun w msg => handleMessage clock listeners rules msg w) w).state.idleSilenced = false := by
      intro w hw
      induction msgs generalizing w with
      | nil => exact hw
      | cons msg msgs ih => exact ih _ ((handleMessage_idleSilenced clock listeners rules msg w).trans hw)
    exact hmsgs _ rfl
  · rfl

/-- Stopping motors starts none. -/
theorem stopMotors_active {macs : List Mac} {w : World} {now : Instant} (h : w.state.active = []) :
    (macs.foldl (World.stopMotor · now) w).state.active = [] := by
  apply List.eq_nil_iff_forall_not_mem.2
  intro mac hmac
  obtain ⟨sent, hsent, hpos⟩ := mem_active_iff.1 hmac
  rw [stopMotors_lookup] at hsent
  split at hsent
  · cases hsent
    have hzero : ¬ (0.0 : Float32) > 0.0 := by decide +kernel
    exact hzero hpos
  · have hmem := mem_active_iff.2 ⟨sent, hsent, hpos⟩
    rw [h] at hmem
    cases hmem

/-- After a tick that has silenced the loop, or finds it silenced with no motor on, no motor is on. -/
theorem onTick_active {clock : Nat → Instant} {now : Instant} {w : World}
    (h : w.state.idleSilenced = true → w.state.active = [])
    (hidle : (w.onTick clock now).state.idleSilenced = true) : (w.onTick clock now).state.active = [] := by
  unfold World.onTick at hidle ⊢
  dsimp only at hidle ⊢
  split
  · exact silenceAll_active _ clock
  · rename_i hquiet
    rw [if_neg hquiet, (stopMotors_watchdog _ _ _).1] at hidle
    exact stopMotors_active (h hidle)

/-! ### Runs of the bridge -/

section Runs

variable {clock : Nat → Instant} {listeners : Listeners} {decodeUdp : List UInt8 → Option OscPacket}

/-- Every run of the bridge can be traced. -/
theorem traced_of_reaches {config : HapticConfig} {s : BridgeState}
    (h : Reaches (bridgeStep clock listeners decodeUdp) Always (.start config) s) :
    ∃ ops, Reaches (tracedStep clock listeners decodeUdp) Always (.start config) ⟨s, ops⟩ := by
  refine h.invariant (I := fun s => ∃ ops, Reaches (tracedStep clock listeners decodeUdp) Always (.start config)
    ⟨s, ops⟩) ⟨[], Reaches.refl _ _ _⟩ fun s a s' hs _ hstep => ?_
  obtain ⟨ops, hr⟩ := hs
  exact ⟨_, hr.tail trivial (by rw [tracedStep, hstep]; rfl)⟩

/-- The records of the loop that runs have those of the motors, a silenced loop has no motor on, and a loop that
returned for a lost config sender is silent. -/
structure SilenceInvariant (r : Traced) : Prop where
  traced : TracedInvariant r
  idle : ∀ rules w, r.bridge.phase = .serving rules w → w.state.idleSilenced = true → w.state.active = []
  shutdown : ∀ ret ∈ r.bridge.returns, ret.exit = .shutdown → ret.after.state.Silent

/-- Silencing all motors makes a loop silent whose records are those of the motors. -/
theorem silent_silenceAll {ops : List Op} {w : World} {earlier : List Rumble}
    (h : Records (motorsOf ops) w earlier) (clock : Nat → Instant) : (w.silenceAll clock).state.Silent := by
  have hrec := h.silenceAll clock
  rw [← motorsOf_append] at hrec
  exact silent_of_active_eq_nil hrec (silenceAll_active w clock)

/-- A tick at which the watchdog fires does so too. -/
theorem silent_onTick {ops : List Op} {w : World} {earlier : List Rumble} (h : Records (motorsOf ops) w earlier)
    (clock : Nat → Instant) {now : Instant} (hfires : w.state.idleSilenced = false)
    (hlate : now - w.state.lastPacket ≥ WATCHDOG_IDLE) :
    (w.onTick clock now).state.idleSilenced = true ∧ (w.onTick clock now).state.Silent := by
  have hrec := h.onTick clock now
  rw [← motorsOf_append] at hrec
  obtain ⟨hidle, hpacket⟩ := stopMotors_watchdog (w.state.expired now) w now
  have htick : ∃ stopped : World, w.onTick clock now =
      { stopped.silenceAll clock with state := { (stopped.silenceAll clock).state with idleSilenced := true } } := by
    refine ⟨(w.state.expired now).foldl (World.stopMotor · now) w, ?_⟩
    unfold World.onTick
    dsimp only
    rw [hidle, hpacket, hfires, if_pos (by simpa using hlate)]
  obtain ⟨stopped, htick⟩ := htick
  rw [htick] at hrec ⊢
  exact ⟨rfl, silent_of_active_eq_nil hrec (silenceAll_active stopped clock)⟩

namespace SilenceInvariant

variable {r : Traced} {s : BridgeState} {ops : List Op}

/-- Outside of the loop, after steps that add no return. -/
private theorem outside (h : SilenceInvariant r) (htraced : TracedInvariant ⟨s, ops⟩)
    (hp : ∀ rules w, s.phase ≠ .serving rules w) (hr : s.returns = r.bridge.returns) : SilenceInvariant ⟨s, ops⟩ where
  traced := htraced
  idle := fun rules w hs => absurd hs (hp rules w)
  shutdown := by
    show ∀ ret ∈ s.returns, _
    rw [hr]
    exact h.shutdown

theorem step {r' : Traced} {a : BridgeAction} (h : SilenceInvariant r)
    (htraced : tracedStep clock listeners decodeUdp r a = some r') : SilenceInvariant r' := by
  have ht' := h.traced.step htraced
  obtain ⟨s, hs, rfl⟩ := Option.map_eq_some_iff.1 htraced
  cases bridgeStep_inv hs with
  | replace config hopen => exact ⟨ht', h.idle, h.shutdown⟩
  | dropSender => exact ⟨ht', h.idle, h.shutdown⟩
  | loopTop hp =>
    refine h.outside ht' (fun _ _ hphase => ?_) rfl
    dsimp only at hphase
    split at hphase <;> cases hphase
  | bound hp =>
    refine ⟨ht', ?_, h.shutdown⟩
    rintro rules w hphase hidle
    cases hphase
    cases hidle
  | bindFailed hp => exact h.outside ht' (fun _ _ hphase => by cases hphase) rfl
  | woken hp hconfig => exact h.outside ht' (fun _ _ hphase => by cases hphase) rfl
  | abandoned hp hconfig => exact h.outside ht' (fun _ _ hphase => by cases hphase) rfl
  | @served rules w w' recv hp hturn =>
    refine ⟨ht', ?_, h.shutdown⟩
    rintro rules' w'' hphase hidle
    cases hphase
    have hbefore := h.idle rules w hp
    cases serveTurn_inv hturn with
    | datagram hconfig bytes =>
      rw [onDatagram_idleSilenced] at hidle
      cases hidle
    | error hconfig => exact hbefore hidle
    | tick hconfig hlate => exact onTick_active hbefore hidle
  | @left rules w w' recv exit hp hturn =>
    refine ⟨ht', fun rules' w'' hphase => absurd hphase (exit.phase_ne_serving rules' w''), fun ret hret hexit => ?_⟩
    rcases List.mem_cons.1 hret with rfl | hret
    · have hrec : Records (motorsOf r.ops) w.readClock _ := (h.traced.serving rules w hp).frame rfl rfl rfl
      cases serveTurn_inv hturn with
      | rebind hconfig => cases hexit
      | shutdown hconfig => exact silent_silenceAll hrec clock
    · exact h.shutdown ret hret hexit

end SilenceInvariant

theorem silenceInvariant_of_reaches {config : HapticConfig} {r : Traced}
    (h : Reaches (tracedStep clock listeners decodeUdp) Always (.start config) r) : SilenceInvariant r :=
  h.invariant ⟨⟨rfl, fun _ _ h => by cases h⟩, fun _ _ h => (by cases h), fun _ h => (by cases h)⟩
    fun _ _ _ hi _ hs => hi.step hs

variable (clock) in
/-- The records of a loop that runs in a state of the bridge. -/
structure LoopFaithful (s : BridgeState) (w : World) : Prop where
  pulses : ∀ mac ∈ w.state.pulseUntil, ∃ sent, w.state.lastSent.lookup mac = some sent ∧ sent.2 > 0.0
  /-- What is recorded is the last command to the device, over all loops. -/
  recorded : ∀ mac sent, w.state.lastSent.lookup mac = some sent →
    s.calls.find? (·.mac = mac) = some ⟨sent.1, mac, sent.2⟩
  /-- Every device that this loop has commanded is recorded. -/
  commanded : ∀ mac c, w.lastCall mac = some c → w.state.lastSent.lookup mac = some (c.time, c.intensity)
  watchdog : ∀ now, w.state.idleSilenced = false → now - w.state.lastPacket ≥ WATCHDOG_IDLE →
    (w.onTick clock now).state.idleSilenced = true ∧ (w.onTick clock now).state.Silent
  idle : w.state.idleSilenced = true → w.state.Silent
  silenceAll : (w.silenceAll clock).state.Silent

/-- In every reachable state the records of the loop are faithful, and a loop that returned for a lost config sender
has left every motor off. -/
theorem loopState_faithful {config : HapticConfig} {s : BridgeState}
    (h : Reaches (bridgeStep clock listeners decodeUdp) Always (.start config) s) :
    (∀ rules w, s.phase = .serving rules w → LoopFaithful clock s w) ∧
      ∀ ret ∈ s.returns, ret.exit = .shutdown → ret.after.state.Silent := by
  obtain ⟨ops, hr⟩ := traced_of_reaches h
  have hinv := silenceInvariant_of_reaches hr
  refine ⟨fun rules w hp => ?_, hinv.shutdown⟩
  have hrec := hinv.traced.serving rules w hp
  refine ⟨fun mac hmac => ?_, fun mac sent hsent => ?_, fun mac c hc => ?_, fun now => silent_onTick hrec clock,
    fun hidle => silent_of_active_eq_nil hrec (hinv.idle rules w hp hidle), silent_silenceAll hrec clock⟩
  · obtain ⟨sent, hsent, hpos⟩ := Motors.live_motorsOf ops mac (hrec.pulseUntil.symm ▸ hmac)
    exact ⟨sent, hrec.lastSent ▸ hsent, hpos⟩
  · obtain ⟨c, hc, rfl⟩ := Motors.recorded_motorsOf ops mac sent (hrec.lastSent.symm ▸ hsent)
    have hmac : c.mac = mac := by simpa using List.find?_some hc
    have hfind : ((motorsOf ops).commands.find? fun c => c.mac = mac).map Command.rumble = some c.rumble :=
      congrArg (Option.map Command.rumble) hc
    rw [← hinv.traced.calls, List.find?_map, ← hmac]
    rw [← hmac] at hfind
    exact hfind
  · rw [(bridgeInvariant_of_reaches h).serving rules w hp mac, hc]
    rfl

end Runs

/-- The loop after a touch. -/
theorem loopState_faithful_touch :
    ∃ s w, exec (bridgeStep (fun n => n * 20_000_000) ⟨false, false⟩ decodeTouch) (BridgeState.start touchConfig)
        [.loopTop, .bind true, .turn (.datagram touchDatagram)] = some s ∧
      s.loop = some w ∧ w.state.active = [touchMac] ∧ LoopFaithful (fun n => n * 20_000_000) s w := by
  have hloop : ((exec (bridgeStep (fun n => n * 20_000_000) ⟨false, false⟩ decodeTouch) (BridgeState.start touchConfig)
      [.loopTop, .bind true, .turn (.datagram touchDatagram)]).bind BridgeState.loop).map (·.state.active) =
        some [touchMac] := by decide +kernel
  obtain ⟨w, hw, hactive⟩ := Option.map_eq_some_iff.1 hloop
  obtain ⟨s, hs, hw⟩ := Option.bind_eq_some_iff.1 hw
  obtain ⟨rules, hp⟩ := BridgeState.loop_eq_some_iff.1 hw
  exact ⟨s, w, hs, hw, hactive, (loopState_faithful (Reaches.of_run _ hs)).1 rules w hp⟩

end EverythingImu.OscHaptics
