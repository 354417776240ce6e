import EverythingImu.OscHaptics.Delivery

/-!
# Late pulses

The serve loop in time: a turn begins at some time, and ends when something comes from the socket or its sleep is over,
which takes no time to handle.  `MAX_TICK` is meant to bound how late a pulse is ended.  But the select prefers the
socket, the sleep begins anew in every turn, and it is never shorter than `MIN_WAKE`, so a turn that the socket ends
within `MIN_WAKE` may leave a pulse pending that has ended already.  A burst of such turns can go on for ever
(`burst_starves_timer`); pulses are ended in time as long as no burst goes on for more than `MAX_TICK` behind the end of
a pulse (`prompt_of_reaches`), so in particular as long as no burst goes on for more than `MAX_TICK`
(`prompt_of_shortBursts`).
-/

namespace EverythingImu.OscHaptics

open Channel StepRun

/-- The serve loop at the top of a turn. -/
structure TimedLoop where
  time : Instant
  /-- When the burst began: the last turn that did not begin within `MIN_WAKE` of the one before it by something from
  the socket. -/
  burst : Instant
  world : World

/-- When a turn ends, and what the socket holds. -/
structure Wake where
  time : Instant
  recv : Recv
deriving DecidableEq

/-- The clock in a turn: reading `n`, at its top, is `start`, and the later ones are `wake`. -/
def turnClock (start wake : Instant) (n k : Nat) : Instant := if k ≤ n then start else wake

/-- The socket ends the turn before any sleep can. -/
def Wake.Early (wake : Wake) (s : TimedLoop) : Prop := wake.recv ≠ .pending ∧ wake.time ≤ s.time + MIN_WAKE

instance (wake : Wake) (s : TimedLoop) : Decidable (wake.Early s) :=
  inferInstanceAs (Decidable (_ ∧ _))

/-- The turn may end like this: at the end of its sleep or, with something from the socket, up to then. -/
def Wake.Fits (wake : Wake) (s : TimedLoop) : Prop :=
  s.time ≤ wake.time ∧ wake.time ≤ s.time + s.world.state.nextWake s.time ∧
    (wake.recv = .pending → wake.time = s.time + s.world.state.nextWake s.time)

instance (wake : Wake) (s : TimedLoop) : Decidable (wake.Fits s) :=
  inferInstanceAs (Decidable (_ ∧ _ ∧ (_ → _)))

def TimedLoop.start (now : Instant) : TimedLoop := ⟨now, now, ⟨.new now, 0, [], [], []⟩⟩

section Timed

variable (listeners : Listeners) (rules : List HapticRule) (decodeUdp : List UInt8 → Option OscPacket)
  (config : Watch HapticConfig) (seen : Nat)

/-- One turn of the loop in time; `none` if it cannot end like this or leaves the loop. -/
def timedStep (s : TimedLoop) (wake : Wake) : Option TimedLoop :=
  if wake.Fits s then
    match serveTurn (turnClock s.time wake.time s.world.reads) listeners rules decodeUdp config seen wake.recv
        s.world with
    | some (none, world) => some ⟨wake.time, if wake.Early s then s.burst else wake.time, world⟩
    | _ => none
  else none

end Timed

/-- No pulse ended more than `MAX_TICK` ago. -/
def TimedLoop.Prompt (s : TimedLoop) : Prop := ∀ e ∈ s.world.state.pulseUntil.entries, s.time ≤ e.2 + MAX_TICK

/-- An early turn ends at most `MAX_TICK` behind the end of every pending pulse, or the beginning of the burst if that
is later. -/
def InTime (s : TimedLoop) (wake : Wake) : Prop :=
  wake.Early s → ∀ e ∈ s.world.state.pulseUntil.entries, wake.time ≤ max e.2 s.burst + MAX_TICK

instance (s : TimedLoop) (wake : Wake) : Decidable (InTime s wake) :=
  inferInstanceAs (Decidable (_ → ∀ e ∈ _, _))

/-! ### Pulses in a turn -/

/-- The pulses that the turn leaves pending were pending before it or end at `now` or later. -/
def PulsesFrom (w w' : World) (now : Instant) : Prop :=
  ∀ e ∈ w'.state.pulseUntil.entries, e ∈ w.state.pulseUntil.entries ∨ now ≤ e.2

theorem PulsesFrom.refl (w : World) (now : Instant) : PulsesFrom w w now := fun _ he => .inl he

theorem PulsesFrom.trans {w w' w'' : World} {now : Instant} (h : PulsesFrom w w' now) (h' : PulsesFrom w' w'' now) :
    PulsesFrom w w'' now := by
  intro e he
  rcases h' e he with he' | hlate
  · exact h e he'
  · exact .inr hlate

theorem PulsesFrom.of_eq {w w' : World} (now : Instant) (h : w'.state.pulseUntil = w.state.pulseUntil) :
    PulsesFrom w w' now := by
  intro e he
  rw [h] at he
  exact .inl he

theorem send_pulseUntil (w : World) (mac : Mac) (intensity : Float32) (force : Bool) (now : Instant) :
    (w.send mac intensity force now).state.pulseUntil = w.state.pulseUntil := by
  unfold World.send
  split <;> rfl

theorem mem_erase_entries {pulses : AList fun _ : Mac => Instant} {mac : Mac} {e : Sigma fun _ : Mac => Instant} :
    e ∈ (pulses.erase mac).entries ↔ e.1 ≠ mac ∧ e ∈ pulses.entries := by
  obtain ⟨mac', end_⟩ := e
  rw [← AList.mem_lookup_iff, ← AList.mem_lookup_iff]
  by_cases h : mac' = mac
  · subst h
    simp
  · simp [AList.lookup_erase_ne h, h]

theorem applyAction_pulses (now : Instant) (w : World) (action : HapticAction) :
    PulsesFrom w (w.applyAction now action) now := by
  rintro ⟨mac, end_⟩ he
  unfold World.applyAction at he
  split at he
  · rename_i ms hms
    rw [send_pulseUntil] at he
    by_cases hmac : mac = action.deviceMac
    · subst hmac
      have hlookup := AList.mem_lookup_iff.2 he
      rw [World.setPulse, AList.lookup_insert, Option.mem_some_iff] at hlookup
      exact .inr (hlookup ▸ Nat.le_add_right now _)
    · have hlookup := AList.mem_lookup_iff.2 he
      rw [World.setPulse, AList.lookup_insert_ne hmac] at hlookup
      exact .inl (AList.mem_lookup_iff.1 hlookup)
  · rw [send_pulseUntil] at he
    exact .inl (mem_erase_entries.1 he).2

theorem stopMotors_pulses (macs : List Mac) (w : World) (now : Instant) :
    ∀ e ∈ (macs.foldl (World.stopMotor · now) w).state.pulseUntil.entries,
      e.1 ∉ macs ∧ e ∈ w.state.pulseUntil.entries := by
  induction macs generalizing w with
  | nil => exact fun e he => ⟨List.not_mem_nil, he⟩
  | cons mac macs ih =>
    intro e he
    obtain ⟨hnot, he⟩ := ih _ e he
    unfold World.stopMotor at he
    rw [send_pulseUntil] at he
    obtain ⟨hne, he⟩ := mem_erase_entries.1 he
    exact ⟨by simp [hne, hnot], he⟩

/-- A tick leaves only pulses that have not ended. -/
theorem onTick_pulses (clock : Nat → Instant) (now : Instant) (w : World) :
    ∀ e ∈ (w.onTick clock now).state.pulseUntil.entries, now ≤ e.2 := by
  have hexpired :
      ∀ e ∈ ((w.state.expired now).foldl (World.stopMotor · now) w).state.pulseUntil.entries, now ≤ e.2 := by
    intro e he
    obtain ⟨hnot, he⟩ := stopMotors_pulses _ w now e he
    refine Nat.le_of_lt (Nat.lt_of_not_le fun hend => hnot ?_)
    rw [mem_expired_iff, show w.state.pulseUntil.lookup e.1 = some e.2 from AList.mem_lookup_iff.2 he]
    simpa using hend
  unfold World.onTick
  dsimp only
  split
  · intro e he
    exact hexpired e (stopMotors_pulses _ _ _ e he).2
  · exact hexpired

section Turn

variable {clock : Nat → Instant} {listeners : Listeners} {rules : List HapticRule} {now : Instant}

theorem discover_pulses (w : World) (addr : String) : PulsesFrom w (w.discover listeners addr) now := by
  refine PulsesFrom.of_eq now ?_
  unfold World.discover
  split <;> rfl

theorem handleMessage_pulses {msg : OscMessage} {w : World} (hclock : ∀ k, w.reads ≤ k → clock k = now) :
    PulsesFrom w (handleMessage clock listeners rules msg w) now := by
  have hactions : ∀ (actions : List HapticAction) (w : World),
      PulsesFrom w (actions.foldl (World.applyAction · now) w) now := by
    intro actions
    induction actions with
    | nil => exact fun w => .refl w now
    | cons action actions ih => exact fun w => (applyAction_pulses now w action).trans (ih _)
  have hdiscover : PulsesFrom w (w.discover listeners msg.addr) now := discover_pulses w msg.addr
  unfold handleMessage
  dsimp only
  split
  · exact hdiscover
  · rw [show ∀ w' : World, w'.reads = w.reads → clock w'.reads = now from fun _ h => hclock _ (Nat.le_of_eq h.symm)]
    · refine (hdiscover.trans (.of_eq now ?_)).trans (hactions _ _)
      split <;> rfl
    · split <;> exact discover_reads listeners w msg.addr

theorem handleMessages_pulses (msgs : List OscMessage) {w : World} (hclock : ∀ k, w.reads ≤ k → clock k = now) :
    PulsesFrom w (msgs.foldl (fun w msg => handleMessage clock listeners rules msg w) w) now := by
  induction msgs generalizing w with
  | nil => exact .refl w now
  | cons msg msgs ih =>
    have hreads : w.reads ≤ (handleMessage clock listeners rules msg w).reads := by
      rw [handleMessage_reads]
      split <;> omega
    exact (handleMessage_pulses hclock).trans (ih fun k hk => hclock k (Nat.le_trans hreads hk))

theorem onDatagram_pulses {decodeUdp : List UInt8 → Option OscPacket} {bytes : List UInt8} {w : World}
    (hclock : ∀ k, w.reads ≤ k → clock k = now) :
    PulsesFrom w (onDatagram clock listeners rules decodeUdp bytes w) now := by
  unfold onDatagram
  dsimp only
  split
  · rw [handlePacket_eq_foldl]
    exact (PulsesFrom.of_eq now rfl).trans
      (handleMessages_pulses _ fun k hk => hclock k (Nat.le_trans (Nat.le_succ _) hk))
  · exact .of_eq now rfl

/-! ### Turns in time -/

variable {decodeUdp : List UInt8 → Option OscPacket} {config : Watch HapticConfig} {seen : Nat}
  {s s' : TimedLoop} {wake : Wake}

/-- What a turn in time does: its pulses, and where it leaves the burst. -/
structure TimedTurn (s : TimedLoop) (wake : Wake) (s' : TimedLoop) : Prop where
  fits : wake.Fits s
  time : s'.time = wake.time
  burst : s'.burst = if wake.Early s then s.burst else wake.time
  pulses : ∀ e ∈ s'.world.state.pulseUntil.entries,
    wake.time ≤ e.2 ∨ wake.recv ≠ .pending ∧ e ∈ s.world.state.pulseUntil.entries

theorem timedStep_inv (h : timedStep listeners rules decodeUdp config seen s wake = some s') :
    TimedTurn s wake s' := by
  unfold timedStep at h
  split at h
  · rename_i hfits
    split at h
    · rename_i world hturn
      obtain rfl := Option.some.inj h
      refine ⟨hfits, rfl, rfl, fun e he => ?_⟩
      have hclock : ∀ k, s.world.readClock.reads ≤ k →
          turnClock s.time wake.time s.world.reads k = wake.time := fun k hk => if_neg (Nat.not_le.2 hk)
      obtain ⟨wakeTime, recv⟩ := wake
      cases serveTurn_inv hturn with
      | datagram hconfig bytes =>
        rcases onDatagram_pulses hclock e he with he | hlate
        · exact .inr ⟨nofun, he⟩
        · exact .inl hlate
      | error hconfig => exact .inr ⟨nofun, he⟩
      | tick hconfig hlate =>
        have hend := onTick_pulses _ _ _ e he
        rw [hclock _ (Nat.le_refl _)] at hend
        exact .inl hend
    · cases h
  · cases h

/-- A turn that is not early ends before every pulse that was pending in it, unless its sleep was over. -/
theorem le_end_of_not_early (hfits : wake.Fits s) (hrecv : wake.recv ≠ .pending) (hearly : ¬ wake.Early s)
    {e : Sigma fun _ : Mac => Instant} (he : e ∈ s.world.state.pulseUntil.entries) : wake.time ≤ e.2 := by
  have hlookup : s.world.state.pulseUntil.lookup e.1 = some e.2 := AList.mem_lookup_iff.2 he
  have hsleep := nextWake_le hlookup s.time
  have hlong : s.time + MIN_WAKE < wake.time := Nat.lt_of_not_le fun hle => hearly ⟨hrecv, hle⟩
  have hend := Nat.le_trans hfits.2.1 hsleep
  rcases Nat.le_total e.2 (s.time + MIN_WAKE) with hle | hle
  · rw [Nat.max_eq_right hle] at hend
    exact absurd hend (Nat.not_le.2 hlong)
  · rwa [Nat.max_eq_left hle] at hend

/-- What holds at the top of every turn: every pending pulse ends in the burst or later. -/
structure TimedInvariant (s : TimedLoop) : Prop where
  burst_le : s.burst ≤ s.time
  pulses : ∀ e ∈ s.world.state.pulseUntil.entries, s.burst ≤ e.2

theorem TimedInvariant.step (h : TimedInvariant s) (hturn : TimedTurn s wake s') : TimedInvariant s' := by
  have hle : s'.burst ≤ wake.time := by
    rw [hturn.burst]
    split
    · exact Nat.le_trans h.burst_le hturn.fits.1
    · exact Nat.le_refl _
  refine ⟨hturn.time ▸ hle, fun e he => ?_⟩
  rcases hturn.pulses e he with hlate | ⟨hrecv, he⟩
  · exact Nat.le_trans hle hlate
  · by_cases hearly : wake.Early s
    · rw [hturn.burst, if_pos hearly]
      exact h.pulses e he
    · exact Nat.le_trans hle (le_end_of_not_early hturn.fits hrecv hearly he)

/-- A turn that is in time leaves no pulse pending that ended too long ago. -/
theorem TimedTurn.prompt (hturn : TimedTurn s wake s') (h : TimedInvariant s) (hin : InTime s wake) : s'.Prompt := by
  intro e he
  rw [hturn.time]
  rcases hturn.pulses e he with hlate | ⟨hrecv, he⟩
  · exact Nat.le_trans hlate (Nat.le_add_right _ _)
  · by_cases hearly : wake.Early s
    · have hbound := hin hearly e he
      rwa [Nat.max_eq_left (h.pulses e he)] at hbound
    · exact Nat.le_trans (le_end_of_not_early hturn.fits hrecv hearly he) (Nat.le_add_right _ _)

/-- As long as every early turn is in time, no pulse is left pending for more than `MAX_TICK` behind its end. -/
theorem prompt_of_reaches {start : Instant}
    (h : Reaches (timedStep listeners rules decodeUdp config seen) InTime (.start start) s) : s.Prompt := by
  have hstart : TimedInvariant (.start start) ∧ (TimedLoop.start start).Prompt :=
    ⟨⟨Nat.le_refl _, nofun⟩, nofun⟩
  have hinv := h.invariant (I := fun s => TimedInvariant s ∧ s.Prompt) hstart fun _ _ _ hi hin hs =>
    ⟨hi.1.step (timedStep_inv hs), (timedStep_inv hs).prompt hi.1 hin⟩
  exact hinv.2

/-! ### Bursts -/

/-- No burst goes on for more than `MAX_TICK`.  This is told by the wakes alone: `time` is when the first turn begins,
and `burst` when the burst did. -/
def ShortBursts (time burst : Instant) : List Wake → Prop
  | [] => True
  | wake :: wakes =>
    if wake.recv ≠ .pending ∧ wake.time ≤ time + MIN_WAKE then
      wake.time ≤ burst + MAX_TICK ∧ ShortBursts wake.time burst wakes
    else ShortBursts wake.time wake.time wakes

/-- A turn of a short burst is in time, since no pending pulse ends before the burst. -/
theorem shortBursts_step {wakes : List Wake} (hshort : ShortBursts s.time s.burst (wake :: wakes))
    (hturn : TimedTurn s wake s') : InTime s wake ∧ ShortBursts s'.time s'.burst wakes := by
  rw [hturn.time, hturn.burst]
  unfold ShortBursts at hshort
  split at hshort
  · rename_i hearly
    rw [if_pos (show wake.Early s from hearly)]
    exact ⟨fun _ e _ => Nat.le_trans hshort.1 (Nat.add_le_add_right (Nat.le_max_right _ _) _), hshort.2⟩
  · rename_i hearly
    rw [if_neg (show ¬ wake.Early s from hearly)]
    exact ⟨fun h => absurd h hearly, hshort⟩

/-- The packets alone decide: if no burst of them goes on for more than `MAX_TICK`, every pulse is ended in time. -/
theorem prompt_of_shortBursts {start : Instant} {wakes : List Wake}
    (hexec : exec (timedStep listeners rules decodeUdp config seen) (.start start) wakes = some s)
    (hshort : ShortBursts start start wakes) : s.Prompt := by
  suffices hrun : ∀ s₀ : TimedLoop, TimedInvariant s₀ → s₀.Prompt → ShortBursts s₀.time s₀.burst wakes →
      exec (timedStep listeners rules decodeUdp config seen) s₀ wakes = some s → s.Prompt from
    hrun (.start start) ⟨Nat.le_refl _, nofun⟩ nofun hshort hexec
  clear hexec hshort
  induction wakes with
  | nil =>
    intro s₀ _ hprompt _ hexec
    obtain rfl := Option.some.inj hexec
    exact hprompt
  | cons wake wakes ih =>
    intro s₀ hinv _ hshort hexec
    obtain ⟨s₁, hs₁, hexec⟩ := Option.bind_eq_some_iff.1 hexec
    have hturn := timedStep_inv hs₁
    obtain ⟨hin, hshort⟩ := shortBursts_step hshort hturn
    exact ih s₁ (hinv.step hturn) (hturn.prompt hinv hin) hshort hexec

/-- Empty datagrams, each `MIN_WAKE` after the turn before. -/
def burst (start : Instant) : Nat → List Wake
  | 0 => []
  | n + 1 => ⟨start + MIN_WAKE, .datagram []⟩ :: burst (start + MIN_WAKE) n

/-- A datagram that is no packet, `MIN_WAKE` after the turn began, leaves every pulse pending. -/
theorem timedStep_junk (hdecode : decodeUdp [] = none) (hconfig : config.changed seen = .pending) (s : TimedLoop) :
    ∃ s', timedStep listeners rules decodeUdp config seen s ⟨s.time + MIN_WAKE, .datagram []⟩ = some s' ∧
      s'.time = s.time + MIN_WAKE ∧ s'.world.state.pulseUntil = s.world.state.pulseUntil := by
  have hfits : Wake.Fits ⟨s.time + MIN_WAKE, .datagram []⟩ s :=
    ⟨Nat.le_add_right _ _, Nat.add_le_add_left (Nat.le_max_right _ _) _, nofun⟩
  have hturn : serveTurn (turnClock s.time (s.time + MIN_WAKE) s.world.reads) listeners rules decodeUdp config seen
      (.datagram []) s.world = some (none, onDatagram (turnClock s.time (s.time + MIN_WAKE) s.world.reads) listeners
        rules decodeUdp [] s.world.readClock) := by
    unfold serveTurn
    dsimp only
    rw [hconfig]
  refine ⟨_, by rw [timedStep, if_pos hfits, hturn], rfl, ?_⟩
  unfold onDatagram
  dsimp only
  rw [List.take_nil, hdecode]
  rfl

/-- A burst keeps the loop from its timer for as long as it goes on. -/
theorem burst_starves_timer (hdecode : decodeUdp [] = none) (hconfig : config.changed seen = .pending) (n : Nat)
    (s : TimedLoop) : ∃ s', exec (timedStep listeners rules decodeUdp config seen) s (burst s.time n) = some s' ∧
      s'.time = s.time + n * MIN_WAKE ∧ s'.world.state.pulseUntil = s.world.state.pulseUntil := by
  induction n generalizing s with
  | zero => exact ⟨s, rfl, by simp, rfl⟩
  | succ n ih =>
    obtain ⟨s₁, hs₁, htime₁, hpulses₁⟩ := timedStep_junk hdecode hconfig s
    obtain ⟨s₂, hs₂, htime₂, hpulses₂⟩ := ih s₁
    refine ⟨s₂, ?_, ?_, hpulses₂.trans hpulses₁⟩
    · rw [burst, exec, hs₁, Option.bind_some, ← htime₁]
      exact hs₂
    · rw [htime₂, htime₁, Nat.add_assoc, Nat.succ_mul, Nat.add_comm MIN_WAKE]

end Turn

/-- The datagram that starts a pulse of 100 ms. -/
def pulseDatagram : List UInt8 := floatDatagram 0x62 (0x3F, 0x80, 0, 0)

/-- A pulse that nothing keeps from its end. -/
theorem prompt_of_reaches_pulse :
    ∃ s, exec (timedStep ⟨false, false⟩ [pulseRule touchMac] decodeFloat (Watch.channel touchConfig) 0) (.start 0)
        [⟨0, .datagram pulseDatagram⟩, ⟨100_000_000, .pending⟩] = some s ∧ s.time = 100_000_000 ∧ s.Prompt := by
  have hrun : (exec (guardStep (timedStep ⟨false, false⟩ [pulseRule touchMac] decodeFloat (Watch.channel touchConfig) 0)
      InTime) (.start 0) [⟨0, .datagram pulseDatagram⟩, ⟨100_000_000, .pending⟩]).map (·.time) =
        some 100_000_000 := by decide +kernel
  obtain ⟨s, hs, htime⟩ := Option.map_eq_some_iff.1 hrun
  exact ⟨s, exec_of_guard hs, htime, prompt_of_reaches (Reaches.of_exec _ hs)⟩

/-- A pulse of 100 ms and then an empty datagram every millisecond: after 351 of them the pulse is still pending. -/
theorem not_prompt_after_burst :
    ¬ ∀ wakes s, exec (timedStep ⟨false, false⟩ [pulseRule touchMac] decodeFloat (Watch.channel touchConfig) 0)
      (.start 0) wakes = some s → s.Prompt := by
  intro h
  have hpulse : (timedStep ⟨false, false⟩ [pulseRule touchMac] decodeFloat (Watch.channel touchConfig) 0 (.start 0)
      ⟨0, .datagram pulseDatagram⟩).map (fun s => (s.time, s.world.state.pulseUntil.entries)) =
        some (0, [⟨touchMac, 100_000_000⟩]) := by decide +kernel
  obtain ⟨s₁, hs₁, hfields⟩ := Option.map_eq_some_iff.1 hpulse
  obtain ⟨htime₁, hentries⟩ := Prod.mk.inj hfields
  have hburst : ∃ s₂, exec (timedStep ⟨false, false⟩ [pulseRule touchMac] decodeFloat (Watch.channel touchConfig) 0) s₁
      (burst s₁.time 351) = some s₂ ∧ s₂.time = s₁.time + 351 * MIN_WAKE ∧
        s₂.world.state.pulseUntil = s₁.world.state.pulseUntil := burst_starves_timer rfl rfl 351 s₁
  obtain ⟨s₂, hs₂, htime₂, hpulses⟩ := hburst
  have hprompt := h (⟨0, .datagram pulseDatagram⟩ :: burst s₁.time 351) s₂
    (Option.bind_eq_some_iff.2 ⟨s₁, hs₁, hs₂⟩)
  have hlate := hprompt ⟨touchMac, 100_000_000⟩ (by rw [hpulses, hentries]; exact List.mem_singleton_self _)
  rw [htime₂, htime₁] at hlate
  change (0 + 351 * 1_000_000 : Nat) ≤ 100_000_000 + 250_000_000 at hlate
  omega

end EverythingImu.OscHaptics
