import EverythingImu.Core.PipelineRun
import EverythingImu.SlimeTracker.Client

/-!
# Handshakes and what the pipeline advertises

The pipeline samples the confirmed flag of its SlimeVR client when an event arrives, while the client's two tasks set
and clear it at any time (`LinkState`).  A handshake is one transition of the flag from unset to set.

The pipeline learns that a handshake was lost only from an event that samples the flag in between.  If every
handshake is confirmed again only after such an event (`ReconfirmsCleared`), each handshake is advertised by its first
event, and its feature flags are sent once (`reconfirmed_handshake_advertised`).
-/

namespace EverythingImu.Core

open StepRun SlimeTracker

/-! ### The packets of the advertise section -/

def SlimeSend.isSensorInfo : SlimeSend → Bool
  | .sensorInfo _ _ => true
  | _ => false

def SlimeSend.isFeatureFlags : SlimeSend → Bool
  | .featureFlags _ => true
  | _ => false

namespace Advert

/-- Nothing was advertised. -/
def Cleared (a : Advert) : Prop := a.sensorInfoSent = false ∧ a.featureFlagsSent = false

/-- Both packets were sent. -/
def Sent (a : Advert) : Prop := a.sensorInfoSent = true ∧ a.featureFlagsSent = true

instance (a : Advert) : Decidable a.Cleared := inferInstanceAs (Decidable (_ ∧ _))

private theorem exists_ok {ε : Type} {x : Except ε Unit} (h : x.isOk = true) : x = .ok () := by
  cases x with
  | error e => cases h
  | ok u => rfl

variable (a : Advert) (sensorId : UInt8) (magConfig : UInt16) {env : EventEnv}

theorem advertise_unconfirmed (hc : env.confirmed = false) : a.advertise sensorId magConfig env = (.clear, []) := by
  simp [advertise, hc]

variable {a}

theorem advertise_cleared (hc : env.confirmed = true) (hinfo : env.sensorInfo.isOk = true)
    (hflags : env.featureFlags.isOk = true) (ha : a.Cleared) :
    a.advertise sensorId magConfig env =
      (⟨true, some magConfig, true⟩, [.sensorInfo sensorId magConfig, .featureFlags [0]]) := by
  obtain ⟨hsi, hff⟩ := ha
  simp [advertise, sendSensorInfo, sendFeatureFlags, hc, hsi, hff, exists_ok hinfo, exists_ok hflags]

theorem advertise_sent (hc : env.confirmed = true) (hinfo : env.sensorInfo.isOk = true) (ha : a.Sent) :
    (a.advertise sensorId magConfig env).1.Sent ∧
      (a.advertise sensorId magConfig env).2.countP SlimeSend.isFeatureFlags = 0 := by
  obtain ⟨hsi, hff⟩ := ha
  unfold advertise sendSensorInfo sendFeatureFlags
  simp only [hc, Bool.not_true, Bool.false_eq_true, if_false, hsi, exists_ok hinfo, Bool.false_or]
  split <;> simp [Sent, hsi, hff, SlimeSend.isFeatureFlags]

end Advert

/-! ### The packets of an event -/

section Sends

variable {F : Type} [OrientationFilter F]

omit [OrientationFilter F] in
theorem sendOne_sent {p : Pipeline F} {store : BiasStore} {env : EventEnv} {packet x : SlimeSend}
    (h : x ∈ (p.sendOne store env packet).sent) : x = packet := by
  unfold Pipeline.sendOne at h
  split at h
  · simpa using h
  · simp at h

theorem sendBatch_sent {p : Pipeline F} {env : EventEnv} {lastRaw : ImuSample} {x : SlimeSend}
    (h : x ∈ (p.sendBatch env lastRaw).2) : x.isSensorInfo = false ∧ x.isFeatureFlags = false := by
  unfold Pipeline.sendBatch at h
  simp only at h
  split at h
  · simp at h
  · split at h
    · simp at h
    · split at h
      · split at h
        · obtain rfl := List.mem_singleton.1 h
          exact ⟨rfl, rfl⟩
        · rcases List.mem_cons.1 h with rfl | h
          · exact ⟨rfl, rfl⟩
          · obtain rfl := List.mem_singleton.1 h
            exact ⟨rfl, rfl⟩
      · obtain rfl := List.mem_singleton.1 h
        exact ⟨rfl, rfl⟩

/-- The match on the event sends neither sensor info nor feature flags. -/
theorem onEvent_sent {p : Pipeline F} {store : BiasStore} {env : EventEnv} {evt : ChannelInfo} {x : SlimeSend}
    (h : x ∈ (p.onEvent store env evt).sent) : x.isSensorInfo = false ∧ x.isFeatureFlags = false := by
  cases evt with
  | connected id => simp [Pipeline.onEvent] at h
  | imuSamples samples =>
    simp only [Pipeline.onEvent, Pipeline.onSamples] at h
    split at h
    · simp at h
    · split at h
      · exact sendBatch_sent h
      · split at h
        · exact sendBatch_sent h
        · exact sendBatch_sent h
  | battery b =>
    simp only [Pipeline.onEvent] at h
    split at h
    · simp at h
    · obtain rfl := sendOne_sent h
      exact ⟨rfl, rfl⟩
  | resetRequested kind =>
    obtain rfl := sendOne_sent h
    exact ⟨rfl, rfl⟩
  | disconnected => simp [Pipeline.onEvent] at h

/-- On an open connection the advertise section alone decides both counts and what is marked as advertised. -/
theorem handleEvent_advert {p : Pipeline F} {env : EventEnv} (store : BiasStore) (evt : ChannelInfo)
    (hc : p.connects env = true) :
    (p.handleEvent store env evt).pipeline.advert = (p.advertised env).advert ∧
      (p.handleEvent store env evt).sent.countP SlimeSend.isSensorInfo =
        (p.advertSends env).countP SlimeSend.isSensorInfo ∧
      (p.handleEvent store env evt).sent.countP SlimeSend.isFeatureFlags =
        (p.advertSends env).countP SlimeSend.isFeatureFlags := by
  have hframe := p.handleEvent_frame store env evt
  rw [if_pos hc] at hframe
  refine ⟨hframe.advert, ?_⟩
  have hsent : (p.handleEvent store env evt).sent =
      p.advertSends env ++ ((p.advertised env).onEvent store env evt).sent := by
    simp [Pipeline.handleEvent, hc]
  rw [hsent, List.countP_append, List.countP_append]
  constructor
  · exact Nat.add_eq_left.2 (List.countP_eq_zero.2 fun x hx => by simp [(onEvent_sent hx).1])
  · exact Nat.add_eq_left.2 (List.countP_eq_zero.2 fun x hx => by simp [(onEvent_sent hx).2])

end Sends

/-! ### The pipeline, the client's tasks and the server -/

/-- An event that the pipeline has taken from its channel. -/
structure Handling where
  evt : ChannelInfo
  /-- The confirmed flag and the number of handshakes when the flag was sampled. -/
  sampled : Option (Bool × Nat)

/-- An event whose handling has ended: what it sampled and what it sent. -/
structure Handled where
  confirmed : Bool
  handshake : Nat
  sent : List SlimeSend

/-- The events that sampled handshake `n` as confirmed. -/
def confirmedIn (n : Nat) (es : List Handled) : List Handled := es.filter fun e => e.confirmed && e.handshake == n

structure LinkState (F : Type) where
  pipeline : Pipeline F
  store : BiasStore
  client : Option SlimeClient
  /-- How often the flag went from unset to set. -/
  handshakes : Nat
  handling : Option Handling
  /-- The events handled so far, oldest first. -/
  handled : List Handled
  ended : Bool

inductive LinkAction where
  /-- A step of the client's tasks. -/
  | client (a : ClientAction)
  /-- `handle_event` starts: it connects unless there is a client. -/
  | takeEvent (evt : ChannelInfo) (connect : Except String (Nat × Nat))
  | sample
  | finish (env : EventEnv)

variable {F : Type} [OrientationFilter F]

namespace LinkState

def start (metadata : DeviceMetadata) (store : BiasStore) (sensorId : UInt8) (config : PipelineConfig)
    (now : Instant) : LinkState F where
  pipeline := .new metadata store sensorId config now
  store
  client := none
  handshakes := 0
  handling := none
  handled := []
  ended := false

omit [OrientationFilter F]

variable (s : LinkState F)

/-- The step of the client confirms the handshake. -/
def confirms (a : ClientAction) : Bool :=
  match s.client with
  | some c => !c.handshakeConfirmed && (c.step a).any (·.handshakeConfirmed)
  | none => false

/-- Nothing is marked as advertised, or the event in progress is about to clear the marks. -/
def advertCleared : Bool :=
  match s.handling with
  | some ⟨_, some (confirmed, _)⟩ => !confirmed
  | _ => decide s.pipeline.advert.Cleared

end LinkState

def linkStep (s : LinkState F) : LinkAction → Option (LinkState F)
  | .client a => do
    let c ← s.client
    let c' ← c.step a
    some { s with client := some c', handshakes := if s.confirms a then s.handshakes + 1 else s.handshakes }
  | .takeEvent evt connect =>
    if s.ended || s.handling.isSome then none
    else
      match s.client, connect with
      | some _, _ => some { s with handling := some ⟨evt, none⟩ }
      | none, .ok (handshakeAt, sentAt) =>
        some { s with client := some (.connect handshakeAt sentAt), handling := some ⟨evt, none⟩ }
      -- the event is dropped
      | none, .error _ => some s
  | .sample =>
    match s.handling, s.client with
    | some ⟨evt, none⟩, some c =>
      some { s with handling := some ⟨evt, some (c.handshakeConfirmed, s.handshakes)⟩ }
    | _, _ => none
  | .finish env =>
    match s.handling with
    | some ⟨evt, some (confirmed, handshake)⟩ =>
      let o := s.pipeline.handleEvent s.store { env with confirmed, connect := .ok () } evt
      some { s with
        pipeline := o.pipeline
        store := o.store
        handling := none
        handled := s.handled ++ [⟨confirmed, handshake, o.sent⟩]
        ended := !o.result.isOk }
    | _ => none

/-- The advertised packets are sent, and a handshake is confirmed only while no advertisement of an earlier one is
marked. -/
def ReconfirmsCleared (s : LinkState F) : LinkAction → Prop
  | .client a => s.confirms a = true → s.advertCleared = true
  | .finish env => env.sensorInfo.isOk = true ∧ env.featureFlags.isOk = true
  | _ => True

omit [OrientationFilter F] in
instance (s : LinkState F) : (a : LinkAction) → Decidable (ReconfirmsCleared s a)
  | .client _ => inferInstanceAs (Decidable (_ → _))
  | .takeEvent _ _ => inferInstanceAs (Decidable True)
  | .sample => inferInstanceAs (Decidable True)
  | .finish _ => inferInstanceAs (Decidable (_ ∧ _))

/-- The first event sent one sensor info and one feature flags packet, the later ones no feature flags. -/
def Advertised : List Handled → Prop
  | [] => True
  | e :: later => e.sent.countP SlimeSend.isSensorInfo = 1 ∧ e.sent.countP SlimeSend.isFeatureFlags = 1 ∧
      ∀ e' ∈ later, e'.sent.countP SlimeSend.isFeatureFlags = 0

/-! ### The invariant -/

namespace LinkState

omit [OrientationFilter F]

variable (s : LinkState F)

def confirmed : Bool := s.client.any (·.handshakeConfirmed)

/-- The marks say whether an event of the current handshake was handled. -/
def Marked : Prop :=
  confirmedIn s.handshakes s.handled = [] ∧ s.pipeline.advert.Cleared ∨
    confirmedIn s.handshakes s.handled ≠ [] ∧ s.pipeline.advert.Sent

/-- An event in progress that sampled the flag as confirmed belongs to the current handshake; one that sampled it as
not confirmed is older than the current handshake. -/
def Current : Prop :=
  match s.handling with
  | some ⟨_, some (true, n)⟩ => n = s.handshakes ∧ s.Marked
  | some ⟨_, some (false, _)⟩ => s.confirmed = true → confirmedIn s.handshakes s.handled = []
  | some ⟨_, none⟩ => s.confirmed = true → s.Marked
  | none => s.confirmed = true → s.Marked

end LinkState

structure LinkInvariant (s : LinkState F) : Prop where
  advertised : ∀ n, Advertised (confirmedIn n s.handled)
  unconfirmed : ∀ e ∈ s.handled, e.confirmed = false → e.sent.countP SlimeSend.isFeatureFlags = 0
  later : ∀ n, s.handshakes < n → confirmedIn n s.handled = []
  current : s.Current

omit [OrientationFilter F] in
theorem confirms_eq_false {s : LinkState F} {a : ClientAction} {c c' : SlimeClient} (hc : s.client = some c)
    (ha : c.step a = some c') (h : s.confirms a = false) (hc' : c'.handshakeConfirmed = true) :
    s.confirmed = true := by
  simpa [LinkState.confirms, LinkState.confirmed, hc, ha, hc'] using h

namespace LinkInvariant

theorem start (metadata : DeviceMetadata) (store : BiasStore) (sensorId : UInt8) (config : PipelineConfig)
    (now : Instant) : LinkInvariant (.start metadata store sensorId config now : LinkState F) where
  advertised _ := trivial
  unconfirmed := nofun
  later _ _ := rfl
  current := nofun

variable {s : LinkState F}

omit [OrientationFilter F]

/-- A new handshake starts with nothing handled and nothing marked. -/
theorem clientConfirms (h : LinkInvariant s) (c' : SlimeClient) (hcleared : s.advertCleared = true) :
    LinkInvariant { s with client := some c', handshakes := s.handshakes + 1 } := by
  have hnew : confirmedIn (s.handshakes + 1) s.handled = [] := h.later _ (Nat.lt_succ_self _)
  refine ⟨h.advertised, h.unconfirmed, fun n hn => h.later n (Nat.lt_of_succ_lt hn), ?_⟩
  unfold LinkState.advertCleared at hcleared
  unfold LinkState.Current
  dsimp only
  rcases hs : s.handling with _ | ⟨evt, _ | ⟨_ | _, n⟩⟩ <;> simp only [hs] at hcleared ⊢
  · exact fun _ => Or.inl ⟨hnew, of_decide_eq_true hcleared⟩
  · exact fun _ => Or.inl ⟨hnew, of_decide_eq_true hcleared⟩
  · exact fun _ => hnew
  · cases hcleared

/-- A step of the client that does not confirm the handshake. -/
theorem clientStep (h : LinkInvariant s) (c' : SlimeClient)
    (hconf : c'.handshakeConfirmed = true → s.confirmed = true) :
    LinkInvariant { s with client := some c' } := by
  refine ⟨h.advertised, h.unconfirmed, h.later, ?_⟩
  have hcur := h.current
  unfold LinkState.Current at hcur ⊢
  dsimp only
  rcases hs : s.handling with _ | ⟨evt, _ | ⟨_ | _, n⟩⟩ <;> simp only [hs] at hcur ⊢
  · exact fun hc => hcur (hconf hc)
  · exact fun hc => hcur (hconf hc)
  · exact fun hc => hcur (hconf hc)
  · exact hcur

theorem takeEvent (h : LinkInvariant s) (hnone : s.handling = none) (evt : ChannelInfo) :
    LinkInvariant { s with handling := some ⟨evt, none⟩ } := by
  have hcur := h.current
  unfold LinkState.Current at hcur
  rw [hnone] at hcur
  exact ⟨h.advertised, h.unconfirmed, h.later, hcur⟩

theorem sample (h : LinkInvariant s) {evt : ChannelInfo} {c : SlimeClient} (hs : s.handling = some ⟨evt, none⟩)
    (hc : s.client = some c) :
    LinkInvariant { s with handling := some ⟨evt, some (c.handshakeConfirmed, s.handshakes)⟩ } := by
  refine ⟨h.advertised, h.unconfirmed, h.later, ?_⟩
  have hconf : s.confirmed = c.handshakeConfirmed := by simp [LinkState.confirmed, hc]
  have hcur := h.current
  unfold LinkState.Current at hcur ⊢
  rw [hs] at hcur
  dsimp only at hcur ⊢
  cases hflag : c.handshakeConfirmed with
  | true => exact ⟨rfl, hcur (hconf.trans hflag)⟩
  | false => exact fun hc => absurd (hconf.symm.trans hc) (by simp [hflag])

private theorem confirmedIn_append_of_eq {es : List Handled} {e : Handled} {n : Nat} (hc : e.confirmed = true)
    (hn : e.handshake = n) : confirmedIn n (es ++ [e]) = confirmedIn n es ++ [e] := by
  simp [confirmedIn, List.filter_append, hc, hn]

private theorem confirmedIn_append_of_ne {es : List Handled} {e : Handled} {n : Nat}
    (h : ¬ (e.confirmed = true ∧ e.handshake = n)) : confirmedIn n (es ++ [e]) = confirmedIn n es := by
  simpa [confirmedIn, List.filter_append] using h

private theorem advertised_append {es : List Handled} {e : Handled} (h : Advertised es)
    (hfirst : es = [] → e.sent.countP SlimeSend.isSensorInfo = 1 ∧ e.sent.countP SlimeSend.isFeatureFlags = 1)
    (hlater : es ≠ [] → e.sent.countP SlimeSend.isFeatureFlags = 0) : Advertised (es ++ [e]) := by
  cases es with
  | nil => exact ⟨(hfirst rfl).1, (hfirst rfl).2, nofun⟩
  | cons e₀ es =>
    obtain ⟨hinfo, hflags, hes⟩ := h
    refine ⟨hinfo, hflags, fun e' he' => ?_⟩
    rcases List.mem_append.1 he' with he' | he'
    · exact hes e' he'
    · obtain rfl := List.mem_singleton.1 he'
      exact hlater (List.cons_ne_nil _ _)

variable {evt : ChannelInfo} {n : Nat} {p' : Pipeline F} {store' : BiasStore} {sent : List SlimeSend}
  {ended' : Bool}

/-- The end of an event that found the handshake not confirmed. -/
theorem finishUnconfirmed (h : LinkInvariant s) (hs : s.handling = some ⟨evt, some (false, n)⟩)
    (hp : p'.advert.Cleared) (hsent : sent.countP SlimeSend.isFeatureFlags = 0) :
    LinkInvariant { s with
      pipeline := p', store := store', handling := none, handled := s.handled ++ [⟨false, n, sent⟩]
      ended := ended' } := by
  have hsame : ∀ m, confirmedIn m (s.handled ++ [⟨false, n, sent⟩]) = confirmedIn m s.handled := fun m =>
    confirmedIn_append_of_ne (by simp)
  refine ⟨fun m => ?_, fun e he hconf => ?_, fun m hm => ?_, fun hc => ?_⟩
  · exact (hsame m).symm ▸ h.advertised m
  · rcases List.mem_append.1 he with he | he
    · exact h.unconfirmed e he hconf
    · obtain rfl := List.mem_singleton.1 he
      exact hsent
  · exact (hsame m).trans (h.later m hm)
  · have hcur := h.current
    unfold LinkState.Current at hcur
    rw [hs] at hcur
    exact Or.inl ⟨(hsame _).trans (hcur hc), hp⟩

/-- The end of an event that found the handshake confirmed: the first of its handshake advertises, the later ones
send no feature flags. -/
theorem finishConfirmed (h : LinkInvariant s) (hs : s.handling = some ⟨evt, some (true, n)⟩) (hp : p'.advert.Sent)
    (hfirst : s.pipeline.advert.Cleared →
      sent.countP SlimeSend.isSensorInfo = 1 ∧ sent.countP SlimeSend.isFeatureFlags = 1)
    (hlater : s.pipeline.advert.Sent → sent.countP SlimeSend.isFeatureFlags = 0) :
    LinkInvariant { s with
      pipeline := p', store := store', handling := none, handled := s.handled ++ [⟨true, n, sent⟩]
      ended := ended' } := by
  have hcur := h.current
  unfold LinkState.Current at hcur
  rw [hs] at hcur
  obtain ⟨hn, hmarked⟩ := hcur
  have hadd : confirmedIn n (s.handled ++ [⟨true, n, sent⟩]) = confirmedIn n s.handled ++ [⟨true, n, sent⟩] :=
    confirmedIn_append_of_eq rfl rfl
  have hsame : ∀ m, n ≠ m → confirmedIn m (s.handled ++ [⟨true, n, sent⟩]) = confirmedIn m s.handled :=
    fun m hm => confirmedIn_append_of_ne (by simp [hm])
  refine ⟨fun m => ?_, fun e he hconf => ?_, fun m hm => ?_, fun _ => ?_⟩
  · by_cases hm : n = m
    · subst hm
      refine hadd.symm ▸ advertised_append (h.advertised n) (fun hnil => ?_) fun hne => ?_
      · rcases hmarked with ⟨-, hcleared⟩ | ⟨hne, -⟩
        · exact hfirst hcleared
        · exact absurd (hn ▸ hnil) hne
      · rcases hmarked with ⟨hnil, -⟩ | ⟨-, hmark⟩
        · exact absurd (hn ▸ hnil) hne
        · exact hlater hmark
    · exact (hsame m hm).symm ▸ h.advertised m
  · rcases List.mem_append.1 he with he | he
    · exact h.unconfirmed e he hconf
    · obtain rfl := List.mem_singleton.1 he
      cases hconf
  · have hm : s.handshakes < m := hm
    exact (hsame m (by omega)).trans (h.later m hm)
  · refine Or.inr ⟨?_, hp⟩
    intro hnil
    change confirmedIn s.handshakes _ = [] at hnil
    rw [← hn, hadd] at hnil
    exact List.append_ne_nil_of_right_ne_nil _ (List.cons_ne_nil _ _) hnil

end LinkInvariant

section Finish

variable {p : Pipeline F} {env : EventEnv} (store : BiasStore) (evt : ChannelInfo)

theorem handleEvent_unconfirmed (hc : p.connects env = true) (hconf : env.confirmed = false) :
    (p.handleEvent store env evt).pipeline.advert.Cleared ∧
      (p.handleEvent store env evt).sent.countP SlimeSend.isFeatureFlags = 0 := by
  obtain ⟨hadvert, -, hflags⟩ := handleEvent_advert store evt hc
  rw [hadvert, hflags]
  unfold Pipeline.advertised Pipeline.advertSends
  rw [Advert.advertise_unconfirmed _ _ _ hconf]
  exact ⟨⟨rfl, rfl⟩, rfl⟩

theorem handleEvent_cleared (hc : p.connects env = true) (hconf : env.confirmed = true)
    (hinfo : env.sensorInfo.isOk = true) (hfeat : env.featureFlags.isOk = true) (hp : p.advert.Cleared) :
    (p.handleEvent store env evt).pipeline.advert.Sent ∧
      (p.handleEvent store env evt).sent.countP SlimeSend.isSensorInfo = 1 ∧
      (p.handleEvent store env evt).sent.countP SlimeSend.isFeatureFlags = 1 := by
  obtain ⟨hadvert, hinfos, hflags⟩ := handleEvent_advert store evt hc
  rw [hadvert, hinfos, hflags]
  unfold Pipeline.advertised Pipeline.advertSends
  rw [Advert.advertise_cleared _ _ hconf hinfo hfeat hp]
  exact ⟨⟨rfl, rfl⟩, rfl, rfl⟩

theorem handleEvent_sent (hc : p.connects env = true) (hconf : env.confirmed = true)
    (hinfo : env.sensorInfo.isOk = true) (hp : p.advert.Sent) :
    (p.handleEvent store env evt).pipeline.advert.Sent ∧
      (p.handleEvent store env evt).sent.countP SlimeSend.isFeatureFlags = 0 := by
  obtain ⟨hadvert, -, hflags⟩ := handleEvent_advert store evt hc
  rw [hadvert, hflags]
  exact Advert.advertise_sent _ _ hconf hinfo hp

end Finish

/-! ### Runs -/

theorem linkStep_invariant {s s' : LinkState F} {a : LinkAction} (h : LinkInvariant s) (hok : ReconfirmsCleared s a)
    (hs : linkStep s a = some s') : LinkInvariant s' := by
  cases a with
  | client a =>
    simp only [linkStep, Option.bind_eq_bind, Option.bind_eq_some_iff, Option.some.injEq] at hs
    obtain ⟨c, hc, c', ha, rfl⟩ := hs
    cases hconf : s.confirms a with
    | true => exact h.clientConfirms c' (hok hconf)
    | false => exact h.clientStep c' (confirms_eq_false hc ha hconf)
  | takeEvent evt connect =>
    simp only [linkStep] at hs
    split at hs
    · cases hs
    · rename_i hfree
      have hnone : s.handling = none := by
        simp only [Bool.or_eq_true, not_or, Bool.not_eq_true, Option.isSome_eq_false_iff] at hfree
        exact Option.isNone_iff_eq_none.1 hfree.2
      split at hs
      · obtain rfl := Option.some.inj hs
        exact h.takeEvent hnone evt
      · rename_i handshakeAt sentAt _
        obtain rfl := Option.some.inj hs
        exact (h.clientStep (.connect handshakeAt sentAt) nofun).takeEvent hnone evt
      · obtain rfl := Option.some.inj hs
        exact h
  | sample =>
    simp only [linkStep] at hs
    split at hs
    · rename_i hhandling hc
      obtain rfl := Option.some.inj hs
      exact h.sample hhandling hc
    · cases hs
  | finish env =>
    simp only [linkStep] at hs
    split at hs
    · rename_i evt confirmed n hhandling
      obtain rfl := Option.some.inj hs
      have hc : s.pipeline.connects { env with confirmed, connect := .ok () } = true := Bool.or_true _
      cases confirmed with
      | false =>
        obtain ⟨hcleared, hflags⟩ := handleEvent_unconfirmed s.store evt hc rfl
        exact h.finishUnconfirmed hhandling hcleared hflags
      | true =>
        refine h.finishConfirmed hhandling ?_ (fun hp => (handleEvent_cleared s.store evt hc rfl hok.1 hok.2 hp).2)
          fun hp => (handleEvent_sent s.store evt hc rfl hok.1 hp).2
        -- the marks are one of the two, whether this event is the first or not
        have hcur := h.current
        unfold LinkState.Current at hcur
        rw [hhandling] at hcur
        rcases hcur.2 with ⟨-, hp⟩ | ⟨-, hp⟩
        · exact (handleEvent_cleared s.store evt hc rfl hok.1 hok.2 hp).1
        · exact (handleEvent_sent s.store evt hc rfl hok.1 hp).1
    · cases hs

/-- Every handshake so far was advertised by the first event handled while it was confirmed, and no event sent its
feature flags again. -/
def HandshakesAdvertised (s : LinkState F) : Prop :=
  (∀ n, Advertised (confirmedIn n s.handled)) ∧
    ∀ e ∈ s.handled, e.confirmed = false → e.sent.countP SlimeSend.isFeatureFlags = 0

/-- In every run where each handshake is confirmed again only after the pipeline has seen the loss of the one before,
every handshake is advertised exactly once. -/
theorem reconfirmed_handshake_advertised {metadata : DeviceMetadata} {store : BiasStore} {sensorId : UInt8}
    {config : PipelineConfig} {now : Instant} {s : LinkState F}
    (h : Reaches linkStep ReconfirmsCleared (.start metadata store sensorId config now) s) :
    HandshakesAdvertised s := by
  have hinv : LinkInvariant s :=
    h.invariant (.start metadata store sensorId config now) fun _ _ _ hi hok hs => linkStep_invariant hi hok hs
  exact ⟨hinv.advertised, hinv.unconfirmed⟩

/-! ### A server that restarts -/

def handleBattery : List LinkAction :=
  [.takeEvent (.battery ⟨1.0, false⟩) (.ok (0, 0)), .sample, .finish (serverEnv (.ok ()) false)]

/-- A ping arrives, and the receive loop finishes with it. -/
def confirmBy (now : Nat) (steps : Nat) : List LinkAction :=
  .client (.datagram [0, 0, 0, 10] now) :: List.replicate steps (.client .receiveLoop)

/-- One round of the watchdog after a silence. -/
def watchdogRound (now : Nat) : List LinkAction := List.replicate 13 (.client (.watchdog now .sent))

/-- A phone connects and advertises, the server restarts, and `between` happens before it answers again. -/
def serverRestart (between : List LinkAction) : List LinkAction :=
  handleBattery ++ confirmBy 1000 4 ++ handleBattery ++ watchdogRound 4000 ++ between ++ confirmBy 4500 4 ++
    handleBattery

def phoneLink : LinkState StillFilter := .start phoneMetadata ∅ 0 .default 0

/-- With an event while the server is away, the second handshake is advertised like the first. -/
theorem serverRestart_seen_advertised :
    ∃ s, Reaches linkStep ReconfirmsCleared phoneLink s ∧ (confirmedIn 2 s.handled).length = 1 ∧
      HandshakesAdvertised s := by
  let run := exec (guardStep linkStep ReconfirmsCleared) phoneLink (serverRestart handleBattery)
  have hlen : run.map (fun s => (confirmedIn 2 s.handled).length) = some 1 := by decide +kernel
  obtain ⟨s, hs, hlen⟩ := Option.map_eq_some_iff.1 hlen
  exact ⟨s, Reaches.of_exec _ hs, hlen, reconfirmed_handshake_advertised (Reaches.of_exec _ hs)⟩

/-- Without one, the first event of the second handshake sends neither packet. -/
theorem serverRestart_unseen_not_advertised :
    ∃ s, Reaches linkStep Always phoneLink s ∧ s.handshakes = 2 ∧ ¬ HandshakesAdvertised s ∧
      ∃ e, confirmedIn 2 s.handled = [e] ∧ e.sent.countP SlimeSend.isSensorInfo = 0 ∧
        e.sent.countP SlimeSend.isFeatureFlags = 0 := by
  let run := exec linkStep phoneLink (serverRestart [])
  have hrun : run.map (fun s => (s.handshakes, (confirmedIn 2 s.handled).map (·.sent))) =
      some (2, [[.battery 0.0 1.0]]) := by decide +kernel
  obtain ⟨s, hs, hfields⟩ := Option.map_eq_some_iff.1 hrun
  simp only [Prod.mk.injEq] at hfields
  obtain ⟨e, he, hsent⟩ := List.map_eq_singleton_iff.1 hfields.2
  refine ⟨s, Reaches.of_run _ hs, hfields.1, fun hadv => ?_, e, he, by simp [hsent, SlimeSend.isSensorInfo],
    by simp [hsent, SlimeSend.isFeatureFlags]⟩
  have hfirst := hadv.1 2
  rw [he] at hfirst
  exact absurd hfirst.1 (by simp [hsent, SlimeSend.isSensorInfo])

end EverythingImu.Core
