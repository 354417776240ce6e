import EverythingImu.SlimeTracker.Senders

/-!
# The choice between a bundle and two datagrams

`send_rotation_and_accel` takes the bundle path exactly when the server's latest word on it is an advertisement: of
the FEATURE_FLAGS datagrams that the receive loop handled and the clearing steps of the watchdog, the latest one is a
datagram with the bundle bit.
-/

namespace EverythingImu.SlimeTracker

open StepRun

/-- A FEATURE_FLAGS datagram with a flag byte behind its header. -/
def IsFeatureFlags (payload : List UInt8) : Prop := SlimeClient.tag payload = 22 ∧ 13 ≤ payload.length

instance (payload : List UInt8) : Decidable (IsFeatureFlags payload) := inferInstanceAs (Decidable (_ ∧ _))

/-- The bundle bit of its first flag byte. -/
def bundleBit (payload : List UInt8) : Bool := payload[12]?.any fun flagByte => flagByte &&& 1 != 0

/-- The buffer of the receive loop is long enough to tell. -/
theorem isFeatureFlags_take (datagram : List UInt8) :
    IsFeatureFlags (datagram.take RECV_BUFFER) ↔ IsFeatureFlags datagram := by
  have htag : SlimeClient.tag (datagram.take RECV_BUFFER) = SlimeClient.tag datagram := by
    rw [SlimeClient.tag, SlimeClient.tag, List.take_take]
    rfl
  have hlen : 13 ≤ (datagram.take RECV_BUFFER).length ↔ 13 ≤ datagram.length := by
    rw [List.length_take, RECV_BUFFER]
    omega
  rw [IsFeatureFlags, IsFeatureFlags, htag, hlen]

/-- The event says whether the server takes bundles. -/
def Event.Speaks : Event → Prop
  | .handled payload => IsFeatureFlags payload
  | .cleared => True
  | _ => False

/-- The latest event that speaks is an advertisement of bundles. -/
def Advertised (trace : List Event) : Prop :=
  ∃ before payload after, trace = before ++ .handled payload :: after ∧ IsFeatureFlags payload ∧
    bundleBit payload = true ∧ ∀ e ∈ after, ¬e.Speaks

theorem not_advertised_nil : ¬Advertised [] := by
  intro ⟨before, payload, after, h, _⟩
  simp at h

/-- One more event: it speaks, or it leaves things as they are. -/
theorem advertised_concat (trace : List Event) (e : Event) :
    Advertised (trace ++ [e]) ↔
      (∃ payload, e = .handled payload ∧ IsFeatureFlags payload ∧ bundleBit payload = true) ∨
        ¬e.Speaks ∧ Advertised trace := by
  constructor
  · intro ⟨before, payload, after, ht, hflags, hbit, hafter⟩
    rcases List.eq_nil_or_concat after with rfl | ⟨after, e', rfl⟩
    · obtain ⟨-, he⟩ := List.append_inj' ht rfl
      exact .inl ⟨payload, by simpa using he, hflags, hbit⟩
    · have ht : trace ++ [e] = (before ++ .handled payload :: after) ++ [e'] := by simpa using ht
      obtain ⟨htrace, he⟩ := List.append_inj' ht rfl
      have he : e = e' := by simpa using he
      have hsilent : ¬e.Speaks := hafter e (by simp [he])
      exact .inr ⟨hsilent, before, payload, after, htrace, hflags, hbit, fun x hx => hafter x (by simp [hx])⟩
  · intro h
    rcases h with ⟨payload, rfl, hflags, hbit⟩ | ⟨hsilent, before, payload, after, rfl, hflags, hbit, hafter⟩
    · exact ⟨trace, payload, [], rfl, hflags, hbit, by simp⟩
    · refine ⟨before, payload, after ++ [e], by simp, hflags, hbit, ?_⟩
      intro x hx
      rcases List.mem_append.1 hx with hx | hx
      · exact hafter x hx
      · obtain rfl := List.mem_singleton.1 hx
        exact hsilent

/-! ### The flag of the client -/

namespace SlimeClient

/-- What a handled datagram leaves in the bundle flag. -/
theorem handleInbound_bundle (c : SlimeClient) (payload : List UInt8) :
    (c.handleInbound payload).serverSupportsBundle =
      if IsFeatureFlags payload then bundleBit payload else c.serverSupportsBundle := by
  unfold handleInbound
  by_cases htag : tag payload = 22
  · rw [if_pos htag]
    rcases h : payload[12]? with _ | flagByte
    · have hshort : ¬13 ≤ payload.length := by
        have := List.getElem?_eq_none_iff.1 h
        omega
      simp [IsFeatureFlags, hshort]
    · have hlong : 13 ≤ payload.length := by
        have := (List.getElem?_eq_some_iff.1 h).1
        omega
      simp [IsFeatureFlags, htag, hlong, bundleBit, h, PROTOCOL_BUNDLE_SUPPORT]
  · have hflags : ¬IsFeatureFlags payload := fun h => htag h.1
    rw [if_neg htag, if_neg hflags]
    split <;> rfl

end SlimeClient

/-! ### One step -/

namespace Senders

/-- What a step does to the trace and to the bundle flag. -/
inductive TraceStep (s s' : Senders) : Prop where
  | quiet (ht : s'.trace = s.trace) (hf : s'.client.serverSupportsBundle = s.client.serverSupportsBundle)
  | handled (payload : List UInt8) (ht : s'.trace = s.trace ++ [.handled payload])
      (hf : s'.client.serverSupportsBundle =
        if IsFeatureFlags payload then bundleBit payload else s.client.serverSupportsBundle)
  | cleared (ht : s'.trace = s.trace ++ [.cleared]) (hf : s'.client.serverSupportsBundle = false)
  | chose (i : Nat) (ht : s'.trace = s.trace ++ [.chose i s.client.serverSupportsBundle])
      (hf : s'.client.serverSupportsBundle = s.client.serverSupportsBundle)
  | handed (seq : Nat) (datagram : List UInt8) (ht : s'.trace = s.trace ++ [.handed seq datagram])
      (hf : s'.client.serverSupportsBundle = s.client.serverSupportsBundle)

variable {info : HandshakeInfo} {s s' : Senders}

theorem trace_watchdog {now : Nat} {outcome : SendOutcome} {s : Senders} :
    TraceStep s { s with
      client := s.client.handshakeWatchdog now outcome
      trace := s.trace ++ clientEvents info s.client (.watchdog now outcome) } := by
  simp only [clientEvents, SlimeClient.handshakeWatchdog]
  cases hpc : s.client.watchdogPc with
  | disablingBundle => exact .cleared rfl rfl
  | sending seq => cases outcome <;> exact .handed seq _ rfl rfl
  | _ => exact .quiet (List.append_nil _) rfl

theorem trace_receiveLoop {c' : SlimeClient} (h : s.client.receiveLoop = some c') :
    TraceStep s { s with client := c', trace := s.trace ++ clientEvents info s.client .receiveLoop } := by
  cases SlimeClient.receiveLoop_turn h with
  | handle payload hpc =>
    simp only [clientEvents, hpc]
    exact .handled payload rfl (s.client.handleInbound_bundle payload)
  | confirm _ hpc | read _ hpc | announce _ _ hpc =>
    simp only [clientEvents, hpc]
    exact .quiet (List.append_nil _) rfl

theorem trace_advance {i now : Nat} {outcome : SendOutcome} {pc : CallPc}
    (h : s.advance i now outcome pc = some s') : TraceStep s s' := by
  cases pc with
  | choosing sensorId rotation accel =>
    obtain rfl := Option.some.inj h
    exact .chose i rfl rfl
  | building seq job rest =>
    simp only [advance] at h
    split at h <;> obtain rfl := Option.some.inj h <;> exact .quiet rfl rfl
  | handing seq job datagram rest =>
    obtain rfl := Option.some.inj h
    exact .handed seq datagram rfl rfl
  | returned => cases h
  | _ =>
    obtain rfl := Option.some.inj h
    exact .quiet rfl rfl

theorem trace_step {a : SenderAction} (h : step info s a = some s') : TraceStep s s' := by
  cases a with
  | client a =>
    obtain ⟨c', hc, hs⟩ := Option.bind_eq_some_iff.1 h
    obtain rfl := Option.some.inj hs
    cases a with
    | datagram payload now =>
      rcases SlimeClient.receiveDatagram_cases hc with rfl | ⟨-, rfl⟩ <;> exact .quiet (List.append_nil _) rfl
    | receiveLoop => exact trace_receiveLoop hc
    | watchdog now outcome =>
      obtain rfl := Option.some.inj hc
      exact trace_watchdog
  | call send =>
    obtain rfl := Option.some.inj h
    exact .quiet rfl rfl
  | advance i now outcome =>
    obtain ⟨pc, -, hs⟩ := Option.bind_eq_some_iff.1 h
    exact trace_advance hs

/-! ### Whole runs -/

/-- Every choice follows what the server last said before it. -/
def ChoicesFollow (trace : List Event) : Prop :=
  ∀ before i bundle after, trace = before ++ .chose i bundle :: after → (bundle = true ↔ Advertised before)

theorem choicesFollow_concat {trace : List Event} {e : Event} (h : ChoicesFollow trace)
    (he : ∀ i bundle, e = .chose i bundle → (bundle = true ↔ Advertised trace)) : ChoicesFollow (trace ++ [e]) := by
  intro before i bundle after ht
  rcases List.eq_nil_or_concat after with rfl | ⟨after, e', rfl⟩
  · obtain ⟨htrace, hlast⟩ := List.append_inj' ht rfl
    have hlast : e = .chose i bundle := by simpa using hlast
    rw [← htrace]
    exact he i bundle hlast
  · have ht : trace ++ [e] = (before ++ .chose i bundle :: after) ++ [e'] := by simpa using ht
    obtain ⟨htrace, -⟩ := List.append_inj' ht rfl
    exact h before i bundle after htrace

/-- The flag is what the server last said, and so was every choice. -/
structure ChoiceInvariant (s : Senders) : Prop where
  flag : s.client.serverSupportsBundle = true ↔ Advertised s.trace
  choices : ChoicesFollow s.trace

theorem ChoiceInvariant.step (hi : ChoiceInvariant s) (h : TraceStep s s') : ChoiceInvariant s' := by
  obtain ⟨hflag, hchoices⟩ := hi
  cases h with
  | quiet ht hf =>
    constructor
    · rw [ht, hf, hflag]
    · rwa [ht]
  | handled payload ht hf =>
    constructor
    · rw [ht, hf, advertised_concat]
      by_cases hflags : IsFeatureFlags payload <;> simp [hflags, Event.Speaks, hflag]
    · rw [ht]
      exact choicesFollow_concat hchoices nofun
  | cleared ht hf =>
    constructor
    · rw [ht, hf, advertised_concat]
      simp [Event.Speaks]
    · rw [ht]
      exact choicesFollow_concat hchoices nofun
  | chose i ht hf =>
    constructor
    · rw [ht, hf, advertised_concat]
      simp [Event.Speaks, hflag]
    · rw [ht]
      refine choicesFollow_concat hchoices ?_
      intro j bundle he
      cases he
      exact hflag
  | handed seq datagram ht hf =>
    constructor
    · rw [ht, hf, advertised_concat]
      simp [Event.Speaks, hflag]
    · rw [ht]
      exact choicesFollow_concat hchoices nofun

theorem choiceInvariant_connect (handshakeAt sentAt : Nat) : ChoiceInvariant (connect info handshakeAt sentAt) := by
  constructor
  · have hnil := advertised_concat [] (.handed 0 (Packet.new 0 info.packet).toBytes)
    simp only [List.nil_append] at hnil
    simp [connect, SlimeClient.connect, hnil, Event.Speaks, not_advertised_nil]
  · intro before i bundle after ht
    simp [connect, List.singleton_eq_append_iff] at ht

/-- Every call of `send_rotation_and_accel`, in every run, takes the bundle path exactly when the latest event before
its choice that speaks on it is a FEATURE_FLAGS datagram with the bundle bit. -/
theorem bundle_iff_advertised {handshakeAt sentAt : Nat}
    (h : Reaches (step info) Always (connect info handshakeAt sentAt) s) {before after : List Event} {i : Nat}
    {bundle : Bool} (ht : s.trace = before ++ .chose i bundle :: after) : bundle = true ↔ Advertised before := by
  have hi : ChoiceInvariant s :=
    h.invariant (choiceInvariant_connect handshakeAt sentAt) fun _ _ _ hi _ hs => hi.step (trace_step hs)
  exact hi.choices before i bundle after ht

/-- The server advertises bundles, and the next rotation goes out in one. -/
theorem advertised_before_bundle :
    ∃ s, Reaches (step .blank) Always (connect .blank 0 0) s ∧
      ∃ before, s.trace = before ++ [.chose 0 true] ∧ (true = true ↔ Advertised before) := by
  have hrun : Reaches (step .blank) Always (connect .blank 0 0) _ := Reaches.of_run
    (.client (.datagram [0, 0, 0, 22, 0, 0, 0, 0, 0, 0, 0, 0, 1] 5) :: List.replicate 4 (.client .receiveLoop) ++
      [.call (.rotationAndAccel 0 ⟨⟨0⟩, ⟨0⟩, ⟨0⟩, ⟨0⟩⟩ (⟨0⟩, ⟨0⟩, ⟨0⟩)), .advance 0 6 .sent]) (by rfl)
  exact ⟨_, hrun, _, by rfl, bundle_iff_advertised hrun (by rfl)⟩

end Senders

end EverythingImu.SlimeTracker
