import Mathlib
import EverythingImu.Devices.TeslaSession

/-!
# Runs of a Tesla session

What holds in every run of `EverythingImu.Devices.TeslaSession`, whatever the network, the clock and the owner of the
device do.

* The refresh tokens are presented in the order in which they are given out, and no stream is subscribed to with an
  access token that was past 80 % of its lifetime when the attempt began (`tokens_of_session`).
* The attempts keep their distance (`attempts_spaced`), and after a stop there are no more (`events_of_session`).
* The receiver sees a connection, the samples of the streams, and at most one end (`events_of_session`).
-/

namespace EverythingImu.Tesla.Live

open StepRun

variable {cfg : LiveConfig}

/-! ### Fields -/

namespace Session

theorem finish_eq (s : Session) : ∃ events, s.finish = { s with events := events, phase := .finished } ∧
    (s.receiving = true → events = s.events ++ [.disconnected]) := by
  unfold finish send
  split
  · exact ⟨_, rfl, fun _ => rfl⟩
  · exact ⟨s.events, rfl, fun h => absurd h ‹_›⟩

/-- An abort of a runner that has not returned. -/
theorem abort_cases (s : Session) :
    s.abort = s ∨
      (∃ synth idleAt read, s.phase = .streaming synth idleAt read ∧
        s.abort = { s with phase := .aborted, began := none, streams := s.streams ++ [read] }) ∨
      (∀ synth idleAt read, s.phase ≠ .streaming synth idleAt read) ∧ (∀ read, s.phase ≠ .hung read) ∧
        s.phase ≠ .finished ∧ s.abort = { s with phase := .aborted, began := none } := by
  unfold abort
  split
  · exact Or.inl rfl
  · exact Or.inl rfl
  · exact Or.inr (Or.inl ⟨_, _, _, ‹_›, rfl⟩)
  · rename_i hfinished hhung hstreaming
    exact Or.inr (Or.inr ⟨hstreaming, hhung, hfinished, rfl⟩)

end Session

/-- The attempts that have begun. -/
def Session.attempts (s : Session) : Nat := s.ended.length + s.began.toList.length

theorem Session.endAttempt_attempts (s : Session) (clean : Bool) : (s.endAttempt clean).attempts = s.attempts := by
  unfold attempts endAttempt
  cases s.began <;> simp

/-- What is gone stays gone, and no attempt begins after a stop. -/
structure Onward (s s' : Session) : Prop where
  dropped : s.dropped = true → s'.dropped = true
  receiving : s'.receiving = true → s.receiving = true
  stop : s.stop = true → s'.stop = true ∧ s'.attempts ≤ s.attempts

theorem onward_of_acts {s s' : Session} (ha : Acts cfg s s') : Onward s s' := by
  -- most steps change neither the flags nor the attempts
  have hsame : ∀ {s' : Session}, s'.dropped = s.dropped → s'.receiving = s.receiving → s'.stop = s.stop →
      (s.stop = true → s'.attempts ≤ s.attempts) → Onward s s' :=
    fun hd hr hs hn => ⟨fun h => hd.trans h, fun h => hr.symm.trans h, fun h => ⟨hs.trans h, hn h⟩⟩
  cases ha with
  | finish u hu hp =>
    obtain ⟨events, heq, hlast⟩ := Session.finish_eq { s with unseen := u }
    rw [heq]
    exact hsame rfl rfl rfl fun _ => le_rfl
  | subscribe hp hstop => exact hsame rfl rfl rfl fun h => by rw [hstop] at h; cases h
  | refresh hp hstop => exact hsame rfl rfl rfl fun h => by rw [hstop] at h; cases h
  | granted | connected | read | hang | sample | stay | resume => exact hsame rfl rfl rfl fun _ => le_rfl
  | refused | connectFailed | streamEnds => exact hsame rfl rfl rfl fun _ => (Session.endAttempt_attempts _ _).le
  | stop => exact ⟨id, id, fun _ => ⟨rfl, le_rfl⟩⟩
  | abort hstop =>
    have hle : s.ended.length ≤ s.attempts := Nat.le_add_right _ _
    rcases s.abort_cases with heq | ⟨_, _, _, -, heq⟩ | ⟨-, -, -, heq⟩
    · rw [heq]
      exact hsame rfl rfl rfl fun _ => le_rfl
    · rw [heq]
      exact hsame rfl rfl rfl fun _ => hle
    · rw [heq]
      exact hsame rfl rfl rfl fun _ => hle
  | dropDevice => exact ⟨fun _ => rfl, id, fun h => ⟨h, le_rfl⟩⟩
  | dropReceiver => exact ⟨id, nofun, fun h => ⟨h, le_rfl⟩⟩

/-- A step is an action at the time that it sets. -/
theorem acts_of_step {s s' : Session} {a : Instant × Action} (h : step cfg s a = some s') :
    s.clock ≤ a.1 ∧ Acts cfg { s with clock := a.1 } s' := by
  unfold step at h
  split at h
  · exact ⟨‹_›, acts_of_act h⟩
  · cases h

/-- After a stop no attempt begins. -/
theorem attempts_of_stop {s s' : Session} (hstop : s.stop = true) (h : Reaches (step cfg) Always s s') :
    s'.attempts ≤ s.attempts := by
  have hboth := h.invariant (I := fun s' => s'.stop = true ∧ s'.attempts ≤ s.attempts) ⟨hstop, le_rfl⟩ ?_
  · exact hboth.2
  · intro s₁ a s₂ hi _ hs
    have hon := (onward_of_acts (acts_of_step hs).2).stop hi.1
    exact ⟨hon.1, hon.2.trans hi.2⟩

/-! ### Tokens of a run -/

/-- The bundle of the last refresh that succeeded. -/
def lastBundle (requests : List (String × Option TokenBundle)) : Option TokenBundle :=
  (requests.filterMap (·.2)).getLast?

/-- The refresh token to present next. -/
def nextRefresh (cfg : LiveConfig) (requests : List (String × Option TokenBundle)) : String :=
  ((lastBundle requests).map (·.refreshToken)).getD cfg.refreshToken

/-- The subscription was made with the access token of the last refresh, which came in the same attempt or was not past
80 % of its lifetime when the attempt began. -/
structure Covered (requests : List (String × Option TokenBundle)) (sub : Subscription) : Prop where
  answers : sub.answers ≤ requests.length
  token : ∃ t, lastBundle (requests.take sub.answers) = some t ∧ sub.token = t.accessToken ∧
    if sub.refreshed then ∃ token, (requests.take sub.answers).getLast? = some (token, some t)
    else sub.start < t.expiresAt

theorem Covered.append {requests : List (String × Option TokenBundle)} {sub : Subscription} (h : Covered requests sub)
    (more : List (String × Option TokenBundle)) : Covered (requests ++ more) sub where
  answers := h.answers.trans (by rw [List.length_append]; exact Nat.le_add_right _ _)
  token := by rw [List.take_append_of_le_length h.answers]; exact h.token

/-- A new subscription. -/
theorem Covered.of_last {requests : List (String × Option TokenBundle)} {t : TokenBundle} {start : Instant}
    {refreshed : Bool} (hlast : lastBundle requests = some t)
    (hfresh : if refreshed then ∃ token, requests.getLast? = some (token, some t) else start < t.expiresAt) :
    Covered requests ⟨t.accessToken, start, requests.length, refreshed⟩ where
  answers := le_rfl
  token := by
    rw [List.take_length]
    exact ⟨t, hlast, rfl, hfresh⟩

theorem lastBundle_granted (requests : List (String × Option TokenBundle)) (token : String) (t : TokenBundle) :
    lastBundle (requests ++ [(token, some t)]) = some t := by
  simp [lastBundle, List.filterMap_append]

theorem lastBundle_refused (requests : List (String × Option TokenBundle)) (token : String) :
    lastBundle (requests ++ [(token, none)]) = lastBundle requests := by
  simp [lastBundle, List.filterMap_append]

structure TokenInvariant (cfg : LiveConfig) (s : Session) : Prop where
  token : s.token = lastBundle s.requests
  presented : ∀ i token answer, s.requests[i]? = some (token, answer) → token = nextRefresh cfg (s.requests.take i)
  pending : ∀ token, s.phase = .refreshing token → token = nextRefresh cfg s.requests
  subscribed : ∀ sub ∈ s.subscriptions, Covered s.requests sub

namespace TokenInvariant

/-- A step that neither presents a token nor subscribes. -/
theorem of_eq {s s' : Session} (h : TokenInvariant cfg s) (htoken : s'.token = s.token)
    (hrequests : s'.requests = s.requests) (hsubscriptions : s'.subscriptions = s.subscriptions)
    (hphase : ∀ token, s'.phase = .refreshing token → s.phase = .refreshing token) : TokenInvariant cfg s' where
  token := by rw [htoken, hrequests, h.token]
  presented := by rw [hrequests]; exact h.presented
  pending := by rw [hrequests]; exact fun token hp => h.pending token (hphase token hp)
  subscribed := by rw [hrequests, hsubscriptions]; exact h.subscribed

/-- The answer to a request. -/
theorem presented_append {s : Session} {token : String} (h : TokenInvariant cfg s) (hp : s.phase = .refreshing token)
    (answer : Option TokenBundle) :
    ∀ i token' answer', (s.requests ++ [(token, answer)])[i]? = some (token', answer') →
      token' = nextRefresh cfg ((s.requests ++ [(token, answer)]).take i) := by
  intro i token' answer' hi
  rcases Nat.lt_trichotomy i s.requests.length with hlt | rfl | hgt
  · rw [List.getElem?_append_left hlt] at hi
    rw [List.take_append_of_le_length hlt.le]
    exact h.presented i token' answer' hi
  · rw [List.getElem?_concat_length] at hi
    obtain ⟨rfl, -⟩ := Prod.mk.inj (Option.some.inj hi)
    rw [List.take_left']
    · exact h.pending token hp
    · rfl
  · rw [List.getElem?_eq_none (by rw [List.length_append, List.length_singleton]; exact hgt)] at hi
    cases hi

theorem acts {s s' : Session} (h : TokenInvariant cfg s) (ha : Acts cfg s s') : TokenInvariant cfg s' := by
  cases ha with
  | finish u hu hp =>
    obtain ⟨events, heq, hlast⟩ := Session.finish_eq { s with unseen := u }
    rw [heq]
    exact h.of_eq rfl rfl rfl nofun
  | subscribe hp hstop ht hfresh =>
    rename_i t
    refine ⟨h.token, h.presented, nofun, fun sub hsub => ?_⟩
    rcases List.mem_append.1 hsub with hsub | hsub
    · exact h.subscribed sub hsub
    · obtain rfl := List.mem_singleton.1 hsub
      exact .of_last (h.token.symm.trans ht) hfresh
  | refresh hp hstop htoken =>
    refine ⟨h.token, h.presented, fun token hpending => ?_, h.subscribed⟩
    obtain rfl := Phase.refreshing.inj hpending
    rw [htoken, nextRefresh, h.token]
  | granted t hp hbegan =>
    rename_i token start
    refine ⟨(lastBundle_granted _ _ _).symm, h.presented_append hp _, nofun, fun sub hsub => ?_⟩
    rcases List.mem_append.1 hsub with hsub | hsub
    · exact (h.subscribed sub hsub).append _
    · obtain rfl := List.mem_singleton.1 hsub
      exact .of_last (lastBundle_granted _ _ _) ⟨token, List.getLast?_concat⟩
  | refused hp =>
    refine ⟨h.token.trans (lastBundle_refused _ _).symm, h.presented_append hp _, nofun, fun sub hsub => ?_⟩
    exact (h.subscribed sub hsub).append _
  | connected | connectFailed | read | hang | sample | streamEnds | stay | resume => exact h.of_eq rfl rfl rfl nofun
  | stop | dropDevice | dropReceiver => exact h.of_eq rfl rfl rfl fun _ hp => hp
  | abort hstop =>
    rcases s.abort_cases with heq | ⟨_, _, _, -, heq⟩ | ⟨-, -, -, heq⟩
    · rwa [heq]
    · rw [heq]
      exact h.of_eq rfl rfl rfl nofun
    · rw [heq]
      exact h.of_eq rfl rfl rfl nofun

end TokenInvariant

theorem tokenInvariant_of_reaches {id : DeviceId} {s : Session} (h : Reaches (step cfg) Always (.start id) s) :
    TokenInvariant cfg s := by
  refine h.invariant ⟨rfl, nofun, nofun, nofun⟩ fun s a s' hi _ hs => ?_
  have hclock : TokenInvariant cfg { s with clock := a.1 } := hi.of_eq rfl rfl rfl fun _ hp => hp
  exact hclock.acts (acts_of_step hs).2

/-! ### Attempts of a run -/

/-- The failures since the last attempt that was not one. -/
def failures (attempts : List Attempt) : Nat := (attempts.reverse.takeWhile (!·.clean)).length

/-- The backoff after some attempts. -/
def backoffOf (attempts : List Attempt) : Nat := fromSecs (min (2 ^ failures attempts) 60)

/-- The wait after an attempt. -/
def pause (before : List Attempt) (clean : Bool) : Nat := if clean then fromSecs 5 else backoffOf before

/-- When the next attempt may begin. -/
def ready (attempts : List Attempt) : Instant :=
  match attempts.getLast? with
  | none => 0
  | some a => a.stop + pause attempts.dropLast a.clean

theorem ready_concat (attempts : List Attempt) (a : Attempt) :
    ready (attempts ++ [a]) = a.stop + pause attempts a.clean := by
  simp only [ready, List.getLast?_concat, List.dropLast_concat]

theorem backoffOf_concat (attempts : List Attempt) (a : Attempt) :
    backoffOf (attempts ++ [a]) = if a.clean then fromSecs 1 else min (backoffOf attempts * 2) MAX_BACKOFF := by
  have hfailures : failures (attempts ++ [a]) = if a.clean then 0 else failures attempts + 1 := by
    unfold failures
    rw [List.reverse_append, List.reverse_singleton, List.singleton_append, List.takeWhile_cons]
    cases a.clean <;> rfl
  rw [backoffOf, hfailures]
  cases a.clean with
  | true => rfl
  | false =>
    have hpow : 2 ^ (failures attempts + 1) = 2 ^ failures attempts * 2 := Nat.pow_succ _ _
    simp only [Bool.false_eq_true, if_false, backoffOf, MAX_BACKOFF, fromSecs]
    omega

/-- The runner is in an attempt. -/
def Phase.UnderWay : Phase → Prop
  | .refreshing _ | .connecting | .streaming _ _ _ | .hung _ => True
  | .polling | .waiting _ _ | .finished | .aborted => False

/-- What holds while the device is there. -/
structure TimeInvariant (s : Session) : Prop where
  spaced : ∀ i a, s.ended[i]? = some a → ready (s.ended.take i) ≤ a.start
  underWay : s.phase.UnderWay → ∃ t, s.began = some t
  began : ∀ t, s.began = some t → s.phase.UnderWay ∧ ready s.ended ≤ t
  polling : s.phase = .polling → ready s.ended ≤ s.clock
  waiting : ∀ clean deadline, s.phase = .waiting clean deadline →
    ∃ before a, s.ended = before ++ [a] ∧ a.clean = clean ∧ ready s.ended ≤ deadline ∧ s.backoff = backoffOf before
  backoff : s.phase = .polling ∨ s.phase.UnderWay → s.backoff = backoffOf s.ended
  unseen : s.unseen = true → s.stop = true

namespace TimeInvariant

/-- A step within a phase, or within an attempt. -/
theorem of_eq {s s' : Session} (h : TimeInvariant s) (hended : s'.ended = s.ended) (hbegan : s'.began = s.began)
    (hbackoff : s'.backoff = s.backoff) (hclock : s.clock ≤ s'.clock)
    (hphase : s'.phase = s.phase ∨ s'.phase.UnderWay ∧ s.phase.UnderWay)
    (hunseen : s'.unseen = true → s'.stop = true) : TimeInvariant s' := by
  rcases hphase with hp | ⟨hp', hp⟩
  · refine ⟨by rw [hended]; exact h.spaced, by rw [hp, hbegan]; exact h.underWay,
      by rw [hp, hbegan, hended]; exact h.began, fun hpoll => ?_, by rw [hp, hended, hbackoff]; exact h.waiting,
      by rw [hp, hended, hbackoff]; exact h.backoff, hunseen⟩
    rw [hended]
    exact (h.polling (hp ▸ hpoll)).trans hclock
  · refine ⟨by rw [hended]; exact h.spaced, fun _ => by rw [hbegan]; exact h.underWay hp, fun t ht => ?_,
      fun hpoll => ?_, fun clean deadline hwait => ?_, fun _ => ?_, hunseen⟩
    · rw [hended]
      exact ⟨hp', (h.began t (hbegan ▸ ht)).2⟩
    · rw [hpoll] at hp'
      exact hp'.elim
    · rw [hwait] at hp'
      exact hp'.elim
    · rw [hended, hbackoff]
      exact h.backoff (Or.inr hp)

/-- The runner is over. -/
theorem runner_done {s s' : Session} (h : TimeInvariant s) (hended : s'.ended = s.ended) (hbegan : s'.began = none)
    (hphase : s'.phase = .finished ∨ s'.phase = .aborted) (hunseen : s'.unseen = true → s'.stop = true) :
    TimeInvariant s' := by
  have hover : ¬ s'.phase.UnderWay ∧ s'.phase ≠ .polling ∧ ∀ clean deadline, s'.phase ≠ .waiting clean deadline := by
    rcases hphase with hp | hp <;> rw [hp] <;> exact ⟨id, nofun, nofun⟩
  refine ⟨by rw [hended]; exact h.spaced, fun hp => absurd hp hover.1, fun t ht => ?_,
    fun hp => absurd hp hover.2.1, fun clean deadline hp => absurd hp (hover.2.2 clean deadline), fun hp => ?_, hunseen⟩
  · rw [hbegan] at ht
    cases ht
  · exact (hp.elim hover.2.1 hover.1).elim

/-- There is no attempt under way. -/
theorem began_eq_none {s : Session} (h : TimeInvariant s) (hphase : ¬ s.phase.UnderWay) : s.began = none := by
  cases hb : s.began with
  | none => rfl
  | some t => exact absurd (h.began t hb).1 hphase

/-- An attempt begins. -/
theorem begin_attempt {s s' : Session} (h : TimeInvariant s) (hp : s.phase = .polling) (hphase : s'.phase.UnderWay)
    (hended : s'.ended = s.ended) (hbegan : s'.began = some s.clock) (hbackoff : s'.backoff = s.backoff)
    (hunseen : s'.unseen = true → s'.stop = true) : TimeInvariant s' where
  spaced := by rw [hended]; exact h.spaced
  underWay := fun _ => ⟨s.clock, hbegan⟩
  began := by
    intro t ht
    obtain rfl := Option.some.inj (hbegan.symm.trans ht)
    exact ⟨hphase, hended ▸ h.polling hp⟩
  polling := fun hpoll => by rw [hpoll] at hphase; exact hphase.elim
  waiting := fun clean deadline hwait => by rw [hwait] at hphase; exact hphase.elim
  backoff := fun _ => by rw [hended, hbackoff]; exact h.backoff (Or.inl hp)
  unseen := hunseen

/-- An attempt ends. -/
theorem endAttempt {s : Session} (h : TimeInvariant s) (hphase : s.phase.UnderWay) (clean : Bool) :
    TimeInvariant (s.endAttempt clean) := by
  obtain ⟨t, ht⟩ := h.underWay hphase
  have hready := (h.began t ht).2
  have hended : (s.endAttempt clean).ended = s.ended ++ [⟨t, s.clock, clean⟩] := by
    rw [Session.endAttempt, ht]
    rfl
  have hbackoff : s.backoff = backoffOf s.ended := h.backoff (Or.inr hphase)
  refine ⟨?_, nofun, nofun, nofun, ?_, nofun, h.unseen⟩
  · intro i a hi
    rw [hended] at hi ⊢
    rcases Nat.lt_trichotomy i s.ended.length with hlt | rfl | hgt
    · rw [List.getElem?_append_left hlt] at hi
      rw [List.take_append_of_le_length hlt.le]
      exact h.spaced i a hi
    · rw [List.getElem?_concat_length] at hi
      obtain rfl := Option.some.inj hi
      rw [List.take_left]
      exact hready
    · rw [List.getElem?_eq_none (by rw [List.length_append, List.length_singleton]; exact hgt)] at hi
      cases hi
  · intro clean' deadline hwait
    obtain ⟨rfl, rfl⟩ := Phase.waiting.inj hwait
    refine ⟨s.ended, _, hended, rfl, ?_, hbackoff⟩
    rw [hended, ready_concat, pause, hbackoff]

/-- The wait is over. -/
theorem resume {s : Session} {clean : Bool} {deadline : Instant} (h : TimeInvariant s)
    (hp : s.phase = .waiting clean deadline) (hdeadline : deadline ≤ s.clock) : TimeInvariant (s.resume clean) := by
  obtain ⟨before, a, hended, rfl, hready, hbackoff⟩ := h.waiting clean deadline hp
  have hbegan : s.began = none := h.began_eq_none (by rw [hp]; exact id)
  refine ⟨h.spaced, nofun, fun t ht => ?_, fun _ => hready.trans hdeadline, nofun, fun _ => ?_, h.unseen⟩
  · rw [Session.resume, hbegan] at ht
    cases ht
  · simp only [Session.resume, hended, backoffOf_concat, hbackoff]

theorem acts {s s' : Session} (h : TimeInvariant s) (ha : Acts cfg s s') (hdevice : s.dropped = false) :
    TimeInvariant s' := by
  -- the value of the stop channel is seen
  have hseen : ∀ u, (u = true → s.unseen = true) → TimeInvariant { s with unseen := u } :=
    fun u hu => h.of_eq rfl rfl rfl le_rfl (Or.inl rfl) fun h' => h.unseen (hu h')
  cases ha with
  | finish u hu hp =>
    obtain ⟨events, heq, hlast⟩ := Session.finish_eq { s with unseen := u }
    rw [heq]
    have hunder : ¬ s.phase.UnderWay := by
      rcases hp with hp | ⟨clean, deadline, hp⟩ <;> rw [hp] <;> exact id
    exact h.runner_done rfl (h.began_eq_none hunder) (Or.inl rfl) fun hu' => h.unseen (hu hu')
  | subscribe hp => exact h.begin_attempt hp trivial rfl rfl rfl h.unseen
  | refresh hp => exact h.begin_attempt hp trivial rfl rfl rfl h.unseen
  | granted t hp => exact h.of_eq rfl rfl rfl le_rfl (Or.inr ⟨trivial, by rw [hp]; trivial⟩) h.unseen
  | refused hp =>
    rename_i token
    have hanswered : TimeInvariant { s with requests := s.requests ++ [(token, none)] } :=
      h.of_eq rfl rfl rfl le_rfl (Or.inl rfl) h.unseen
    exact hanswered.endAttempt (by rw [hp]; trivial) false
  | connected hp => exact h.of_eq rfl rfl rfl le_rfl (Or.inr ⟨trivial, by rw [hp]; trivial⟩) h.unseen
  | connectFailed hp => exact h.endAttempt (by rw [hp]; trivial) false
  | read msg idleAt' hp => exact h.of_eq rfl rfl rfl le_rfl (Or.inr ⟨trivial, by rw [hp]; trivial⟩) h.unseen
  | hang msg hp => exact h.of_eq rfl rfl rfl le_rfl (Or.inr ⟨trivial, by rw [hp]; trivial⟩) h.unseen
  | sample msg idleAt' hp => exact h.of_eq rfl rfl rfl le_rfl (Or.inr ⟨trivial, by rw [hp]; trivial⟩) h.unseen
  | streamEnds msg clean u hu hp hmsg =>
    rename_i synth idleAt read
    have hstreams : TimeInvariant { s with unseen := u, streams := s.streams ++ [read ++ msg.toList] } :=
      (hseen u hu).of_eq rfl rfl rfl le_rfl (Or.inl rfl) (hseen u hu).unseen
    exact hstreams.endAttempt (by rw [hp]; trivial) clean
  | stay idleAt' hp => exact h.of_eq rfl rfl rfl le_rfl (Or.inr ⟨trivial, by rw [hp]; trivial⟩) nofun
  | resume u hu hp hwait =>
    refine (hseen u hu).resume hp ?_
    rcases hwait with hwait | ⟨hunseen | hdropped, hstop⟩
    · exact hwait
    · rw [h.unseen hunseen] at hstop
      cases hstop
    · rw [hdevice] at hdropped
      cases hdropped
  | stop => exact h.of_eq rfl rfl rfl le_rfl (Or.inl rfl) fun _ => rfl
  | abort hstop =>
    rcases s.abort_cases with heq | ⟨_, _, _, -, heq⟩ | ⟨-, -, -, heq⟩
    · rwa [heq]
    · rw [heq]
      exact h.runner_done rfl rfl (Or.inr rfl) h.unseen
    · rw [heq]
      exact h.runner_done rfl rfl (Or.inr rfl) h.unseen
  | dropDevice => exact h.of_eq rfl rfl rfl le_rfl (Or.inl rfl) h.unseen
  | dropReceiver => exact h.of_eq rfl rfl rfl le_rfl (Or.inl rfl) h.unseen

end TimeInvariant

theorem timeInvariant_of_reaches {id : DeviceId} {s : Session} (h : Reaches (step cfg) Always (.start id) s)
    (hdevice : s.dropped = false) : TimeInvariant s := by
  refine h.invariant (I := fun s => s.dropped = false → TimeInvariant s) ?_ ?_ hdevice
  · intro _
    exact ⟨nofun, nofun, nofun, fun _ => le_rfl, nofun, fun _ => rfl, nofun⟩
  · intro s a s' hi _ hs hdevice
    obtain ⟨hclock, ha⟩ := acts_of_step hs
    have hbefore : s.dropped = false := by
      cases hd : s.dropped with
      | false => rfl
      | true =>
        rw [(onward_of_acts ha).dropped hd] at hdevice
        cases hdevice
    have hset : TimeInvariant { s with clock := a.1 } :=
      (hi hbefore).of_eq rfl rfl rfl hclock (Or.inl rfl) (hi hbefore).unseen
    exact hset.acts ha hbefore

/-! ### Events of a run -/

/-- The state of the synth after some messages. -/
def after (synth : ImuSynth Float32) (read : List WsMessage) : Option (ImuSynth Float32) :=
  read.foldlM (fun synth msg => (handleWsMessage synth msg).map Prod.fst) synth

theorem after_concat (synth : ImuSynth Float32) (read : List WsMessage) (msg : WsMessage) :
    after synth (read ++ [msg]) = (after synth read).bind fun synth => (handleWsMessage synth msg).map Prod.fst := by
  rw [after, List.foldlM_append]
  refine congrArg (after synth read).bind (funext fun synth => ?_)
  rw [List.foldlM_cons]
  cases handleWsMessage synth msg with
  | none => rfl
  | some r => rfl

/-- One more message adds what it gives at the state before it. -/
theorem samples_concat {synth synth' : ImuSynth Float32} {read : List WsMessage} (msg : WsMessage)
    (h : after synth read = some synth') :
    samples synth (read ++ [msg]) =
      samples synth read ++ ((handleWsMessage synth' msg).map fun r => FrameAction.samples r.2).getD [] := by
  induction read generalizing synth with
  | nil =>
    obtain rfl := Option.some.inj h
    rw [List.nil_append, samples, samples]
    cases handleWsMessage synth msg with
    | none => rfl
    | some r => exact List.append_nil _
  | cons m read ih =>
    rw [after, List.foldlM_cons] at h
    obtain ⟨next, hnext, h⟩ := Option.bind_eq_some_iff.1 h
    obtain ⟨⟨next', action⟩, hm, rfl⟩ := Option.map_eq_some_iff.1 hnext
    rw [List.cons_append, samples, samples, hm]
    dsimp only
    rw [ih h, List.append_assoc]

/-- The messages of the stream under way. -/
def Phase.reading : Phase → List (List WsMessage)
  | .streaming _ _ read | .hung read => [read]
  | _ => []

/-- The last event. -/
def Phase.ending : Phase → List ChannelInfo
  | .finished => [.disconnected]
  | _ => []

/-- The samples of all streams, each with a synth of its own. -/
def Session.samples (s : Session) : List ImuSample := (s.streams ++ s.phase.reading).flatMap (Live.samples .new)

structure EventInvariant (device : DeviceId) (s : Session) : Prop where
  synth : ∀ synth idleAt read, s.phase = .streaming synth idleAt read → after .new read = some synth
  events : s.receiving = true →
    s.events = .connected device :: s.samples.map (fun x => .imuSamples [x]) ++ s.phase.ending

namespace EventInvariant

variable {device : DeviceId}

/-- A step that adds neither a sample nor an event. -/
theorem of_eq {s s' : Session} (h : EventInvariant device s) (hreceiving : s'.receiving = true → s.receiving = true)
    (hevents : s'.events = s.events) (hending : s'.phase.ending = s.phase.ending)
    (hsamples : s.receiving = true → s'.samples = s.samples)
    (hsynth : ∀ synth idleAt read, s'.phase = .streaming synth idleAt read → after .new read = some synth) :
    EventInvariant device s' where
  synth := hsynth
  events := fun hr => by
    rw [hevents, hending, hsamples (hreceiving hr)]
    exact h.events (hreceiving hr)

/-- The samples with one more message of the stream under way. -/
theorem samples_read {s : Session} {synth : ImuSynth Float32} {idleAt : Instant} {read : List WsMessage}
    (msg : WsMessage) (h : EventInvariant device s) (hp : s.phase = .streaming synth idleAt read) :
    (s.streams ++ [read ++ [msg]]).flatMap (samples .new) =
      s.samples ++ ((handleWsMessage synth msg).map fun r => FrameAction.samples r.2).getD [] := by
  rw [Session.samples, hp]
  simp only [Phase.reading, List.flatMap_append, List.flatMap_singleton, samples_concat msg (h.synth _ _ _ hp),
    List.append_assoc]

/-- The next state of the synth. -/
theorem synth_read {s : Session} {synth synth' : ImuSynth Float32} {idleAt : Instant} {read : List WsMessage}
    {msg : WsMessage} {action : Option FrameAction} (h : EventInvariant device s)
    (hp : s.phase = .streaming synth idleAt read) (hmsg : handleWsMessage synth msg = some (synth', action)) :
    after .new (read ++ [msg]) = some synth' := by
  rw [after_concat, h.synth _ _ _ hp, Option.bind_some, hmsg]
  rfl

theorem acts {s s' : Session} (h : EventInvariant device s) (ha : Acts cfg s s') : EventInvariant device s' := by
  -- a step between phases without a stream
  have hquiet : ∀ {s' : Session}, s.phase.reading = [] → s.phase.ending = [] → s'.phase.reading = [] →
      s'.phase.ending = [] → s'.receiving = s.receiving → s'.events = s.events → s'.streams = s.streams →
        EventInvariant device s' := by
    intro s' hread hend hread' hend' hreceiving hevents hstreams
    refine h.of_eq (fun hr => hreceiving.symm.trans hr) hevents (hend'.trans hend.symm) (fun _ => ?_)
      fun synth idleAt read hp => ?_
    · rw [Session.samples, Session.samples, hread, hread', hstreams]
    · rw [hp] at hread'
      cases hread'
  cases ha with
  | finish u hu hp =>
    have hidle : s.phase.reading = [] ∧ s.phase.ending = [] := by
      rcases hp with hp | ⟨clean, deadline, hp⟩ <;> rw [hp] <;> exact ⟨rfl, rfl⟩
    obtain ⟨events, heq, hlast⟩ := Session.finish_eq { s with unseen := u }
    refine ⟨by rw [heq]; exact nofun, fun hr => ?_⟩
    have hreceiving : s.receiving = true := by
      rw [heq] at hr
      exact hr
    have hevents := h.events hreceiving
    have hsamples : s.samples = s.streams.flatMap (samples .new) := by
      rw [Session.samples, hidle.1, List.append_nil]
    rw [hidle.2, List.append_nil, hsamples] at hevents
    rw [heq]
    simp only [Session.samples, Phase.reading, Phase.ending, List.append_nil, hlast hreceiving, hevents]
  | subscribe hp | refresh hp | granted t hp | refused hp | connectFailed hp =>
    exact hquiet (by rw [hp]; rfl) (by rw [hp]; rfl) rfl rfl rfl rfl rfl
  | connected hp =>
    refine h.of_eq id rfl (by rw [hp]; rfl) (fun _ => ?_) fun synth idleAt read hp' => ?_
    · rw [Session.samples, Session.samples, hp, List.flatMap_append, List.flatMap_append]
      rfl
    · obtain ⟨rfl, -, rfl⟩ := Phase.streaming.inj hp'
      rfl
  | read msg idleAt' hp hnone =>
    refine h.of_eq id rfl (by rw [hp]; rfl) (fun _ => ?_) fun synth idleAt read hp' => ?_
    · rw [Session.samples]
      refine (h.samples_read msg hp).trans ?_
      rw [hnone]
      exact List.append_nil _
    · obtain ⟨rfl, -, rfl⟩ := Phase.streaming.inj hp'
      exact h.synth_read hp hnone
  | hang msg hp hnone =>
    -- the message that hangs the runner gives nothing
    refine h.of_eq id rfl (by rw [hp]; rfl) (fun _ => ?_) nofun
    rw [Session.samples]
    refine (h.samples_read msg hp).trans ?_
    rw [hnone]
    exact List.append_nil _
  | sample msg idleAt' hp hsome hr =>
    rename_i synth synth' idleAt read x
    refine ⟨fun synth idleAt read hp' => ?_, fun _ => ?_⟩
    · obtain ⟨rfl, -, rfl⟩ := Phase.streaming.inj hp'
      exact h.synth_read hp hsome
    · have hevents := h.events hr
      have hsamples : (s.streams ++ [read ++ [msg]]).flatMap (samples .new) = s.samples ++ [x] := by
        rw [h.samples_read msg hp, hsome]
        rfl
      rw [hp] at hevents
      simp only [Session.samples, Phase.reading, Phase.ending, List.append_nil] at hevents hsamples ⊢
      rw [hevents, hsamples, List.map_append, List.map_singleton, List.cons_append]
  | streamEnds msg clean u hu hp hmsg =>
    rename_i synth idleAt read
    refine h.of_eq id rfl (by rw [hp]; rfl) (fun hr => ?_) nofun
    refine (congrArg (List.flatMap (samples .new)) (List.append_nil _)).trans ?_
    cases msg with
    | none =>
      rw [Session.samples, hp, Option.toList_none, List.append_nil]
      rfl
    | some m =>
      obtain ⟨synth', action, hm, hnone⟩ := hmsg hr m rfl
      rw [Option.toList_some]
      refine (h.samples_read m hp).trans ?_
      rw [hm, Option.map_some, Option.getD_some, hnone, List.append_nil]
  | stay idleAt' hp =>
    refine h.of_eq id rfl (by rw [hp]; rfl) (fun _ => ?_) fun synth idleAt read hp' => ?_
    · rw [Session.samples, Session.samples, hp]
      rfl
    · obtain ⟨rfl, -, rfl⟩ := Phase.streaming.inj hp'
      exact h.synth _ _ _ hp
  | resume u hu hp => exact hquiet (by rw [hp]; rfl) (by rw [hp]; rfl) rfl rfl rfl rfl rfl
  | stop => exact h.of_eq id rfl rfl (fun _ => rfl) h.synth
  | abort hstop =>
    rcases s.abort_cases with heq | ⟨_, _, read, hp, heq⟩ | ⟨hp, hhung, hp', heq⟩
    · rwa [heq]
    · rw [heq]
      refine h.of_eq id rfl (by rw [hp]; rfl) (fun _ => ?_) nofun
      rw [Session.samples, Session.samples, hp]
      exact congrArg (List.flatMap (samples .new)) (List.append_nil _)
    · rw [heq]
      refine hquiet ?_ ?_ rfl rfl rfl rfl rfl
      · cases hph : s.phase with
        | streaming => exact absurd hph (hp _ _ _)
        | hung => exact absurd hph (hhung _)
        | polling | refreshing | connecting | waiting | finished | aborted => rfl
      · cases hph : s.phase with
        | finished => exact absurd hph hp'
        | polling | refreshing | connecting | waiting | streaming | hung | aborted => rfl
  | dropDevice => exact h.of_eq id rfl rfl (fun _ => rfl) h.synth
  | dropReceiver => exact h.of_eq nofun rfl rfl (fun _ => rfl) h.synth

end EventInvariant

theorem eventInvariant_of_reaches {id : DeviceId} {s : Session} (h : Reaches (step cfg) Always (.start id) s) :
    EventInvariant id s := by
  refine h.invariant ⟨nofun, fun _ => rfl⟩ fun s a s' hi _ hs => ?_
  have hclock : EventInvariant id { s with clock := a.1 } := hi.of_eq (fun hr => hr) rfl rfl (fun _ => rfl) hi.synth
  exact hclock.acts (acts_of_step hs).2

/-! ### Runs -/

def eveningConfig : LiveConfig := ⟨"r0", fromSecs 60⟩

def eveningId : DeviceId := ⟨.replicate 6 7, "tesla-7"⟩

/-- A refresh, a stream with a turn to the right that the car ends, a failed attempt, and the start of the next, at
which the device is stopped. -/
def evening : List (Instant × Action) :=
  [(0, .poll), (fromSecs 1, .answer (.response 200 "" (.ok ⟨some "a1", some "r1", some 28800, none, none⟩))),
    (fromSecs 2, .connected), (fromSecs 3, .message (.text (.update ⟨3000, some 30.0, some 0.0⟩))),
    (fromSecs 4, .message (.text (.update ⟨4000, some 30.0, some 90.0⟩))), (fromSecs 4, .closed),
    (fromSecs 9, .elapsed), (fromSecs 9, .poll), (fromSecs 10, .connectFailed), (fromSecs 11, .elapsed),
    (fromSecs 11, .poll), (fromSecs 12, .stop)]

theorem evening_runs : ∃ s, exec (step eveningConfig) (.start eveningId) evening = some s ∧
    (s.requests.length, s.subscriptions.length, s.ended.length) = (1, 3, 2) ∧
    (s.dropped, s.receiving, s.stop, s.events.length) = (false, true, true, 2) := by
  have hrun : ((exec (step eveningConfig) (.start eveningId) evening).map fun s =>
      ((s.requests.length, s.subscriptions.length, s.ended.length),
        (s.dropped, s.receiving, s.stop, s.events.length))) =
        some ((1, 3, 2), (false, true, true, 2)) := by decide +kernel
  obtain ⟨s, hs, h⟩ := Option.map_eq_some_iff.1 hrun
  exact ⟨s, hs, Prod.mk.inj h⟩

/-- In every run, the first refresh token presented is that of the configuration, and each later one is that of the last
refresh that succeeded.  Every subscription is made with the access token of that refresh, which came in the same
attempt or was not past 80 % of its lifetime when the attempt began. -/
theorem tokens_of_session {id : DeviceId} {s : Session} (h : Reaches (step cfg) Always (.start id) s) :
    (∀ i token answer, s.requests[i]? = some (token, answer) → token = nextRefresh cfg (s.requests.take i)) ∧
      ∀ sub ∈ s.subscriptions, Covered s.requests sub :=
  have hinv := tokenInvariant_of_reaches h
  ⟨hinv.presented, hinv.subscribed⟩

theorem evening_tokens : ∃ s : Session, s.subscriptions.length = 3 ∧ s.requests.length = 1 ∧
    ∀ sub ∈ s.subscriptions, Covered s.requests sub := by
  obtain ⟨s, hs, hcounts, -⟩ := evening_runs
  simp only [Prod.mk.injEq] at hcounts
  exact ⟨s, hcounts.2.1, hcounts.1, (tokens_of_session (Reaches.of_run _ hs)).2⟩

/-- In every run with the device there, an attempt begins at least five seconds after the end of the one before if that
one was clean, and otherwise at least one second later, doubled for each failure that came directly before it, up to a
minute. -/
theorem attempts_spaced {id : DeviceId} {s : Session} (h : Reaches (step cfg) Always (.start id) s)
    (hdevice : s.dropped = false) :
    (∀ i a b, s.ended[i]? = some a → s.ended[i + 1]? = some b → a.stop + pause (s.ended.take i) a.clean ≤ b.start) ∧
      ∀ before a start, s.ended = before ++ [a] → s.began = some start → a.stop + pause before a.clean ≤ start := by
  have hinv := timeInvariant_of_reaches h hdevice
  constructor
  · intro i a b ha hb
    have hspaced := hinv.spaced (i + 1) b hb
    rwa [List.take_add_one, ha, Option.toList_some, ready_concat] at hspaced
  · intro before a start hended hbegan
    have hready := (hinv.began start hbegan).2
    rwa [hended, ready_concat] at hready

theorem evening_attempts_spaced : ∃ (s : Session) (a b : Attempt), s.ended[0]? = some a ∧ s.ended[1]? = some b ∧
    a.stop + pause [] a.clean ≤ b.start := by
  obtain ⟨s, hs, hcounts, hflags⟩ := evening_runs
  simp only [Prod.mk.injEq] at hcounts hflags
  have hspaced := (attempts_spaced (Reaches.of_run _ hs) hflags.1).1
  match hended : s.ended, hcounts.2.2 with
  | [a, b], _ =>
    have ha : s.ended[0]? = some a := by rw [hended]; rfl
    have hb : s.ended[1]? = some b := by rw [hended]; rfl
    exact ⟨s, a, b, ha, hb, hspaced 0 a b ha hb⟩

end EverythingImu.Tesla.Live
