import EverythingImu.SlimeTracker.Senders

/-!
# The order of the sequence numbers

The senders of a client share one counter, and each of them takes its number before it hands over its datagram.  No
number is taken twice, so the datagrams are handed to the socket with increasing numbers as long as no sender is
overtaken between the two by one that took a later number.
-/

namespace EverythingImu.SlimeTracker

open Buffer StepRun Words

/-- The sequence number that a datagram carries behind its tag. -/
def seqField (datagram : List UInt8) : UInt64 := ofBe (portion datagram 4 8)

theorem seqField_header (tag : UInt32) (seq : UInt64) (body : List UInt8) :
    seqField (toBe tag ++ toBe seq ++ body) = seq := by
  have htag : (toBe tag).length = 4 := length_toBe tag
  have hseq : (toBe seq).length = 8 := length_toBe seq
  rw [seqField, portion, List.append_assoc, List.drop_append_of_le_length (by omega), List.drop_of_length_le (by omega),
    List.nil_append, List.take_append_of_le_length (by omega), List.take_of_length_le (by omega), ofBe_toBe]

theorem seqField_packet (p : Packet) : seqField p.toBytes = p.seq := seqField_header p.tag p.seq p.data.body

theorem seqField_encodeBundle {seq : UInt64} {inners : List BundleInner} {bundle : List UInt8}
    (h : encodeBundle seq inners = .ok bundle) : seqField bundle = seq := by
  obtain ⟨body, -, hbody⟩ := Outcome.bind_eq_ok.1 h
  obtain rfl := Outcome.ok.inj hbody
  exact seqField_header BUNDLE_TAG seq body

theorem seqField_bundleRotAccel {seq : UInt64} {sensorId : UInt8} {rotation : SlimeQuaternion} {accel : F32 × F32 × F32}
    {datagrams : List (List UInt8)} (h : sendBundleRotAccel (fun _ => seq) sensorId rotation accel = .ok datagrams) :
    seqField datagrams.flatten = seq := by
  obtain ⟨rot, -, h⟩ := Outcome.bind_eq_ok.1 h
  obtain ⟨acc, -, h⟩ := Outcome.bind_eq_ok.1 h
  obtain ⟨bundle, hbundle, h⟩ := Outcome.bind_eq_ok.1 h
  obtain rfl := Outcome.ok.inj h
  cases henc : encodeBundle seq [(17, rot), (4, acc)] with
  | ok encoded =>
    rw [henc] at hbundle
    obtain rfl := Outcome.ok.inj hbundle
    simpa using seqField_encodeBundle henc
  | fail e =>
    rw [henc] at hbundle
    cases hbundle
  | panic =>
    rw [henc] at hbundle
    cases hbundle

/-- A job is built under the number that was taken for it. -/
theorem seqField_build {seq : UInt64} {job : Job} {datagram : List UInt8} (h : job.build seq = .ok datagram) :
    seqField datagram = seq := by
  cases job with
  | handshake info =>
    cases h
    exact seqField_packet _
  | packet data =>
    cases h
    exact seqField_packet _
  | bundle sensorId rotation accel =>
    obtain ⟨datagrams, hsend, h⟩ := Outcome.bind_eq_ok.1 h
    obtain rfl := Outcome.ok.inj h
    exact seqField_bundleRotAccel hsend

/-! ### Tickets -/

/-- The number that the watchdog has taken and not handed over. -/
def WatchdogPc.ticket : WatchdogPc → Option Nat
  | .sending seq => some seq
  | _ => none

namespace Senders

/-- The number that a sender has taken and not handed over: the watchdog, or a call. -/
def ticket (s : Senders) : Option Nat → Option Nat
  | none => s.client.watchdogPc.ticket
  | some i => s.calls[i]?.bind CallPc.ticket

/-- The number of the datagram that the action hands over. -/
def hands (s : Senders) : SenderAction → Option Nat
  | .client (.watchdog _ _) => s.client.watchdogPc.ticket
  | .advance i _ _ =>
    match s.calls[i]? with
    | some (.handing seq _ _ _) => some seq
    | _ => none
  | _ => none

/-- The action takes a number. -/
def takes (s : Senders) : SenderAction → Bool
  | .client (.watchdog _ _) => s.client.watchdogPc == .numbering
  | .advance i _ _ =>
    match s.calls[i]? with
    | some (.numbering _ _) => true
    | _ => false
  | _ => false

/-- A sender hands over its datagram only while none that took a later number has, and a number is taken only while
the counter has not wrapped around. -/
def NotOvertaken (s : Senders) (a : SenderAction) : Prop :=
  (∀ n ∈ s.hands a, ∀ d ∈ s.handed, ¬n < d.1) ∧ (s.takes a = true → s.client.seq < 2 ^ 64)

instance (s : Senders) (a : SenderAction) : Decidable (s.NotOvertaken a) := by
  unfold NotOvertaken
  infer_instance

/-- A sender hands over its datagram only when no other holds an earlier number. -/
def EarliestFirst (s : Senders) (a : SenderAction) : Prop :=
  (∀ n ∈ s.hands a, ∀ k, ∀ m ∈ s.ticket k, n ≤ m) ∧ (s.takes a = true → s.client.seq < 2 ^ 64)

/-- The datagrams that calls are about to hand over carry the number that was taken for them. -/
def Numbered (s : Senders) : Prop :=
  ∀ (i seq : Nat) (job : Job) (datagram : List UInt8) (rest : List Job),
    s.calls[i]? = some (.handing seq job datagram rest) → seqField datagram = UInt64.ofNat seq

/-- What a step does to the counter, the tickets and the datagrams handed over. -/
inductive TicketStep (s : Senders) (a : SenderAction) (s' : Senders) : Prop where
  | keep (hseq : s'.client.seq = s.client.seq) (hh : s'.handed = s.handed)
      (hk : ∀ k n, s'.ticket k = some n → s.ticket k = some n)
  | take (k : Option Nat) (ha : s.takes a = true) (hseq : s'.client.seq = s.client.seq + 1) (hh : s'.handed = s.handed)
      (hk : ∀ k' n, s'.ticket k' = some n → k' = k ∧ n = s.client.seq ∨ s.ticket k' = some n ∧ k' ≠ k)
  | hand (k : Option Nat) (n : Nat) (datagram : List UInt8) (ha : s.hands a = some n) (hn : s.ticket k = some n)
      (hfield : seqField datagram = UInt64.ofNat n) (hseq : s'.client.seq = s.client.seq)
      (hh : s'.handed = s.handed ++ [(n, datagram)])
      (hk : ∀ k' m, s'.ticket k' = some m → s.ticket k' = some m ∧ k' ≠ k)

variable {info : HandshakeInfo} {s s' : Senders}

/-- The tickets after call `i` moved on. -/
theorem ticket_set {i : Nat} {pc pc' : CallPc} (hpc : s.calls[i]? = some pc) (hc : s'.calls = s.calls.set i pc')
    (hw : s'.client.watchdogPc = s.client.watchdogPc) (k : Option Nat) :
    s'.ticket k = if k = some i then pc'.ticket else s.ticket k := by
  have hi : i < s.calls.length := (List.getElem?_eq_some_iff.1 hpc).1
  cases k with
  | none => simp [ticket, hw]
  | some j =>
    by_cases hj : j = i
    · simp [ticket, hc, hj, hi]
    · have hne : i ≠ j := fun h => hj h.symm
      simp [ticket, hc, hj, List.getElem?_set_ne hne]

@[simp] theorem ticket_next (rest : List Job) : (CallPc.next rest).ticket = none := by
  cases rest <;> rfl

@[simp] theorem ticket_handedOver (rest : List Job) (job : Job) (outcome : SendOutcome) :
    (CallPc.handedOver rest job outcome).ticket = none := by
  cases job <;> cases outcome <;> simp [CallPc.handedOver] <;> rfl

/-- A call that moves on without a new number and hands over nothing. -/
theorem keep_set {i : Nat} {pc pc' : CallPc} {a : SenderAction} (hpc : s.calls[i]? = some pc)
    (hc : s'.calls = s.calls.set i pc') (hseq : s'.client.seq = s.client.seq)
    (hw : s'.client.watchdogPc = s.client.watchdogPc) (hh : s'.handed = s.handed)
    (ht : ∀ n, pc'.ticket = some n → pc.ticket = some n) : TicketStep s a s' := by
  refine .keep hseq hh ?_
  intro k n hk
  rw [ticket_set hpc hc hw] at hk
  split at hk
  · next h =>
    subst h
    simpa [ticket, hpc] using ht n hk
  · exact hk

theorem ticket_advance {i now : Nat} {outcome : SendOutcome} {pc : CallPc} (hnum : Numbered s)
    (hpc : s.calls[i]? = some pc) (h : s.advance i now outcome pc = some s') :
    TicketStep s (.advance i now outcome) s' := by
  cases pc with
  | choosing sensorId rotation accel =>
    obtain rfl := Option.some.inj h
    refine keep_set hpc rfl rfl rfl (by simp [handed]) ?_
    intro n hn
    split at hn <;> cases hn
  | numbering job rest =>
    have hs := Option.some.inj h
    have hc : s'.calls = s.calls.set i (.building s.client.seq job rest) := by rw [← hs]
    refine .take (some i) (by simp [takes, hpc]) (by rw [← hs]) (by rw [← hs]; rfl) ?_
    intro k n hk
    rw [ticket_set hpc hc (by rw [← hs])] at hk
    split at hk
    · next h => exact .inl ⟨h, (Option.some.inj hk).symm⟩
    · next h => exact .inr ⟨hk, h⟩
  | building seq job rest =>
    simp only [advance] at h
    split at h
    · obtain rfl := Option.some.inj h
      exact keep_set hpc rfl rfl rfl rfl fun n hn => hn
    · obtain rfl := Option.some.inj h
      exact keep_set hpc rfl rfl rfl rfl (by simp [CallPc.ticket])
  | handing seq job datagram rest =>
    have hs := Option.some.inj h
    have hc : s'.calls = s.calls.set i (.handedOver rest job outcome) := by rw [← hs]
    refine .hand (some i) seq datagram (by simp [hands, hpc]) (by simp [ticket, hpc, CallPc.ticket])
      (hnum i seq job datagram rest hpc) (by rw [← hs]) (by rw [← hs]; simp [handed]) ?_
    intro k m hk
    rw [ticket_set hpc hc (by rw [← hs])] at hk
    split at hk
    · simp at hk
    · next h => exact ⟨hk, h⟩
  | stampingSent rest =>
    obtain rfl := Option.some.inj h
    exact keep_set hpc rfl rfl rfl rfl (by simp)
  | returned => cases h
  | _ =>
    obtain rfl := Option.some.inj h
    exact keep_set hpc rfl rfl rfl rfl (by simp [CallPc.ticket])

/-- A step of a task that leaves the counter alone, takes nothing and hands over no numbered datagram. -/
theorem keep_client {a : SenderAction} (hc : s'.calls = s.calls) (hseq : s'.client.seq = s.client.seq)
    (hw : ∀ n, s'.client.watchdogPc.ticket = some n → s.client.watchdogPc.ticket = some n)
    (hh : s'.handed = s.handed) : TicketStep s a s' := by
  refine .keep hseq hh ?_
  intro k n hk
  cases k with
  | none => exact hw n hk
  | some j => simpa [ticket, hc] using hk

@[simp] theorem handleInbound_seq (c : SlimeClient) (payload : List UInt8) : (c.handleInbound payload).seq = c.seq := by
  unfold SlimeClient.handleInbound
  split
  · split <;> rfl
  · split <;> rfl

theorem ticket_receiveLoop {c' : SlimeClient} (h : s.client.receiveLoop = some c') :
    TicketStep s (.client .receiveLoop)
      { s with client := c', trace := s.trace ++ clientEvents info s.client .receiveLoop } := by
  cases SlimeClient.receiveLoop_turn h with
  | handle payload hpc =>
    simp only [clientEvents, hpc]
    exact keep_client rfl (by simp) (by simp) (by simp [handed])
  | confirm _ hpc | read _ hpc | announce _ _ hpc =>
    simp only [clientEvents, hpc]
    exact keep_client rfl rfl (fun n hn => hn) (by simp [handed])

theorem ticket_watchdog {now : Nat} {outcome : SendOutcome} :
    TicketStep s (.client (.watchdog now outcome))
      { s with
        client := s.client.handshakeWatchdog now outcome
        trace := s.trace ++ clientEvents info s.client (.watchdog now outcome) } := by
  simp only [clientEvents, SlimeClient.handshakeWatchdog]
  cases hpc : s.client.watchdogPc with
  | numbering =>
    refine .take none (by simp [takes, hpc]) rfl (by simp [handed]) ?_
    intro k n hk
    cases k with
    | none => exact .inl ⟨rfl, (Option.some.inj hk).symm⟩
    | some j => exact .inr ⟨hk, Option.some_ne_none j⟩
  | sending seq =>
    refine .hand none seq (Packet.new (UInt64.ofNat seq) info.packet).toBytes
      (by simp [hands, hpc, WatchdogPc.ticket]) (by simp [ticket, hpc, WatchdogPc.ticket]) (seqField_packet _) ?_
      (by simp [handed]) ?_
    · cases outcome <;> rfl
    · intro k m hk
      cases k with
      | none => cases outcome <;> cases hk
      | some j => cases outcome <;> exact ⟨hk, Option.some_ne_none j⟩
  | checkingSilence lastInbound =>
    refine keep_client rfl rfl ?_ (by simp [handed])
    by_cases hs : s.client.handshakeConfirmed = true ∧ 0 < lastInbound ∧ 2000 < now - lastInbound <;>
      simp [hs, WatchdogPc.ticket]
  | checkingConfirmed =>
    refine keep_client rfl rfl ?_ (by simp [handed])
    cases hflag : s.client.handshakeConfirmed <;> simp [WatchdogPc.ticket]
  | _ => exact keep_client rfl rfl (by simp [WatchdogPc.ticket]) (by simp [handed])

@[simp] theorem ticket_start (send : Send) : send.start.ticket = none := by
  cases send <;> rfl

theorem ticket_step {a : SenderAction} (hnum : Numbered s) (h : step info s a = some s') : TicketStep s a s' := by
  cases a with
  | client a =>
    obtain ⟨c', hc, hs⟩ := Option.bind_eq_some_iff.1 h
    obtain rfl := Option.some.inj hs
    cases a with
    | datagram payload now =>
      rcases SlimeClient.receiveDatagram_cases hc with rfl | ⟨-, rfl⟩
      all_goals exact keep_client rfl rfl (fun n hn => hn) (by simp [handed, clientEvents])
    | receiveLoop => exact ticket_receiveLoop hc
    | watchdog now outcome =>
      obtain rfl := Option.some.inj hc
      exact ticket_watchdog
  | call send =>
    obtain rfl := Option.some.inj h
    refine .keep rfl rfl ?_
    intro k n hk
    cases k with
    | none => exact hk
    | some j =>
      simp only [ticket, List.getElem?_append] at hk ⊢
      split at hk
      · exact hk
      · rcases hj : ([send.start] : List CallPc)[j - s.calls.length]? with _ | pc
        · simp [hj] at hk
        · have hpc : pc = send.start := by simpa using List.mem_of_getElem? hj
          simp [hj, hpc] at hk
  | advance i now outcome =>
    obtain ⟨pc, hpc, hs⟩ := Option.bind_eq_some_iff.1 h
    exact ticket_advance hnum hpc hs

/-! ### Whole runs -/

theorem numbered_set {i : Nat} {pc : CallPc} (hnum : Numbered s) (hc : s'.calls = s.calls.set i pc)
    (hpc : ∀ seq job datagram rest, pc = .handing seq job datagram rest → seqField datagram = UInt64.ofNat seq) :
    Numbered s' := by
  intro j seq job datagram rest hj
  rw [hc, List.getElem?_set] at hj
  split at hj
  · split at hj
    · exact hpc seq job datagram rest (Option.some.inj hj)
    · cases hj
  · exact hnum j seq job datagram rest hj

/-- A call gets to the hand-over of a datagram only from building it. -/
theorem numbered_advance {i now : Nat} {outcome : SendOutcome} {pc : CallPc} (hnum : Numbered s)
    (h : s.advance i now outcome pc = some s') : Numbered s' := by
  cases pc with
  | choosing sensorId rotation accel =>
    obtain rfl := Option.some.inj h
    refine numbered_set hnum rfl ?_
    intro seq job datagram rest hpc
    split at hpc <;> cases hpc
  | building seq job rest =>
    simp only [advance] at h
    split at h
    · next datagram hbuild =>
      obtain rfl := Option.some.inj h
      refine numbered_set hnum rfl ?_
      intro seq' job' datagram' rest' hpc
      cases hpc
      exact seqField_build hbuild
    · obtain rfl := Option.some.inj h
      exact numbered_set hnum rfl (by simp)
  | handing seq job datagram rest =>
    obtain rfl := Option.some.inj h
    refine numbered_set hnum rfl ?_
    intro seq' job' datagram' rest' hpc
    have ht := ticket_handedOver rest job outcome
    rw [hpc] at ht
    cases ht
  | stampingSent rest =>
    obtain rfl := Option.some.inj h
    refine numbered_set hnum rfl ?_
    intro seq' job' datagram' rest' hpc
    have ht := ticket_next rest
    rw [hpc] at ht
    cases ht
  | returned => cases h
  | _ =>
    obtain rfl := Option.some.inj h
    exact numbered_set hnum rfl (by simp)

theorem numbered_step {a : SenderAction} (hnum : Numbered s) (h : step info s a = some s') : Numbered s' := by
  cases a with
  | client a =>
    obtain ⟨c', -, hs⟩ := Option.bind_eq_some_iff.1 h
    obtain rfl := Option.some.inj hs
    exact hnum
  | call send =>
    obtain rfl := Option.some.inj h
    intro i seq job datagram rest hi
    rcases List.mem_append.1 (List.mem_of_getElem? hi) with hmem | hmem
    · obtain ⟨j, hj⟩ := List.getElem?_of_mem hmem
      exact hnum j seq job datagram rest hj
    · have hpc := List.mem_singleton.1 hmem
      have ht := ticket_start send
      rw [← hpc] at ht
      cases ht
  | advance i now outcome =>
    obtain ⟨pc, -, hs⟩ := Option.bind_eq_some_iff.1 h
    exact numbered_advance hnum hs

/-- No number is held twice, and the ones that are held or were handed over are behind the counter. -/
structure TicketInvariant (s : Senders) : Prop where
  below : ∀ k n, s.ticket k = some n → n < s.client.seq
  distinct : ∀ k k' n, s.ticket k = some n → s.ticket k' = some n → k = k'
  fresh : ∀ k n, s.ticket k = some n → ∀ d ∈ s.handed, d.1 ≠ n
  handedBelow : ∀ d ∈ s.handed, d.1 < s.client.seq

theorem TicketInvariant.step {a : SenderAction} (hi : TicketInvariant s) (h : TicketStep s a s') :
    TicketInvariant s' := by
  cases h with
  | keep hseq hh hk =>
    constructor
    · intro k n hn
      rw [hseq]
      exact hi.below k n (hk k n hn)
    · intro k k' n hn hn'
      exact hi.distinct k k' n (hk k n hn) (hk k' n hn')
    · intro k n hn
      rw [hh]
      exact hi.fresh k n (hk k n hn)
    · rw [hh, hseq]
      exact hi.handedBelow
  | take k ha hseq hh hk =>
    constructor
    · intro k' n hn
      rcases hk k' n hn with ⟨-, rfl⟩ | ⟨hold, -⟩
      · omega
      · have := hi.below k' n hold
        omega
    · intro k₁ k₂ n h₁ h₂
      rcases hk k₁ n h₁ with ⟨rfl, rfl⟩ | ⟨hold₁, -⟩
      · rcases hk k₂ _ h₂ with ⟨rfl, -⟩ | ⟨hold₂, -⟩
        · rfl
        · have := hi.below k₂ _ hold₂
          omega
      · rcases hk k₂ n h₂ with ⟨-, rfl⟩ | ⟨hold₂, -⟩
        · have := hi.below k₁ _ hold₁
          omega
        · exact hi.distinct k₁ k₂ n hold₁ hold₂
    · intro k' n hn d hd
      rw [hh] at hd
      rcases hk k' n hn with ⟨-, rfl⟩ | ⟨hold, -⟩
      · have := hi.handedBelow d hd
        omega
      · exact hi.fresh k' n hold d hd
    · intro d hd
      rw [hh] at hd
      have := hi.handedBelow d hd
      omega
  | hand k n datagram ha hn hfield hseq hh hk =>
    constructor
    · intro k' m hm
      rw [hseq]
      exact hi.below k' m (hk k' m hm).1
    · intro k₁ k₂ m h₁ h₂
      exact hi.distinct k₁ k₂ m (hk k₁ m h₁).1 (hk k₂ m h₂).1
    · intro k' m hm d hd
      obtain ⟨hold, hne⟩ := hk k' m hm
      rw [hh] at hd
      rcases List.mem_append.1 hd with hd | hd
      · exact hi.fresh k' m hold d hd
      · obtain rfl := List.mem_singleton.1 hd
        intro he
        subst he
        exact hne (hi.distinct k' k _ hold hn)
    · intro d hd
      rw [hh] at hd
      rw [hseq]
      rcases List.mem_append.1 hd with hd | hd
      · exact hi.handedBelow d hd
      · obtain rfl := List.mem_singleton.1 hd
        exact hi.below k n hn

/-- The datagrams were handed over in the order of their numbers, which they carry, and the counter has not wrapped
around. -/
structure OrderInvariant (s : Senders) : Prop where
  ordered : s.handed.Pairwise fun d d' => d.1 < d'.1
  carried : ∀ d ∈ s.handed, seqField d.2 = UInt64.ofNat d.1
  counter : s.client.seq ≤ 2 ^ 64

theorem OrderInvariant.step {a : SenderAction} (ht : TicketInvariant s) (hi : OrderInvariant s)
    (hok : s.NotOvertaken a) (h : TicketStep s a s') : OrderInvariant s' := by
  obtain ⟨hfirst, hwrap⟩ := hok
  cases h with
  | keep hseq hh hk =>
    constructor
    · rw [hh]
      exact hi.ordered
    · rw [hh]
      exact hi.carried
    · rw [hseq]
      exact hi.counter
  | take k ha hseq hh hk =>
    constructor
    · rw [hh]
      exact hi.ordered
    · rw [hh]
      exact hi.carried
    · have := hwrap ha
      omega
  | hand k n datagram ha hn hfield hseq hh hk =>
    constructor
    · rw [hh, List.pairwise_append]
      refine ⟨hi.ordered, List.pairwise_singleton _ _, ?_⟩
      intro d hd d' hd'
      obtain rfl := List.mem_singleton.1 hd'
      have hne := ht.fresh k n hn d hd
      have hle := hfirst n ha d hd
      omega
    · intro d hd
      rw [hh] at hd
      rcases List.mem_append.1 hd with hd | hd
      · exact hi.carried d hd
      · obtain rfl := List.mem_singleton.1 hd
        exact hfield
    · rw [hseq]
      exact hi.counter

/-- The invariants, on the states that a run reaches. -/
structure RunInvariant (s : Senders) : Prop where
  numbered : Numbered s
  tickets : TicketInvariant s
  order : OrderInvariant s

theorem ticket_connect (info : HandshakeInfo) (handshakeAt sentAt : Nat) (k : Option Nat) :
    (connect info handshakeAt sentAt).ticket k = none := by
  cases k <;> rfl

theorem runInvariant_connect (info : HandshakeInfo) (handshakeAt sentAt : Nat) :
    RunInvariant (connect info handshakeAt sentAt) := by
  have hhanded : (connect info handshakeAt sentAt).handed = [(0, (Packet.new 0 info.packet).toBytes)] := rfl
  refine ⟨?_, ?_, ?_⟩
  · intro i seq job datagram rest hi
    simp [connect] at hi
  · constructor
    · simp [ticket_connect]
    · simp [ticket_connect]
    · simp [ticket_connect]
    · intro d hd
      rw [hhanded] at hd
      obtain rfl := List.mem_singleton.1 hd
      exact Nat.one_pos
  · constructor
    · simp [hhanded]
    · intro d hd
      rw [hhanded] at hd
      obtain rfl := List.mem_singleton.1 hd
      exact seqField_packet _
    · simp [connect, SlimeClient.connect]

theorem RunInvariant.step {a : SenderAction} (h : RunInvariant s) (hok : s.NotOvertaken a)
    (hs : step info s a = some s') : RunInvariant s' :=
  have hstep := ticket_step h.numbered hs
  ⟨numbered_step h.numbered hs, h.tickets.step hstep, h.order.step h.tickets hok hstep⟩

theorem RunInvariant.increasing (h : RunInvariant s) : (s.handed.map fun d => seqField d.2).Pairwise (· < ·) := by
  rw [List.pairwise_map]
  refine h.order.ordered.imp_of_mem ?_
  intro d d' hd hd' hlt
  have hlast : d'.1 < UInt64.size := Nat.lt_of_lt_of_le (h.tickets.handedBelow d' hd') h.order.counter
  have hfirst : d.1 < UInt64.size := Nat.lt_trans hlt hlast
  rw [h.order.carried d hd, h.order.carried d' hd', UInt64.lt_iff_toNat_lt, UInt64.toNat_ofNat_of_lt' hfirst,
    UInt64.toNat_ofNat_of_lt' hlast]
  exact hlt

/-- As long as no sender is overtaken, the datagrams are handed to the socket with increasing sequence numbers, so that
no number comes twice. -/
theorem handed_increasing {handshakeAt sentAt : Nat}
    (h : Reaches (step info) NotOvertaken (connect info handshakeAt sentAt) s) :
    (s.handed.map fun d => seqField d.2).Pairwise (· < ·) := by
  have hrun : RunInvariant s := h.invariant (runInvariant_connect info handshakeAt sentAt)
    fun _ _ _ hi hok hs => hi.step hok hs
  exact hrun.increasing

/-- A user action and a battery level, one after the other. -/
theorem handed_in_turn :
    ∃ s, Reaches (step .blank) NotOvertaken (connect .blank 0 0) s ∧ s.handed.length = 3 ∧
      (s.handed.map fun d => seqField d.2).Pairwise (· < ·) := by
  have hrun : Reaches (step .blank) NotOvertaken (connect .blank 0 0) _ := Reaches.of_exec
    (.call (.userAction .resetYaw) :: List.replicate 3 (.advance 0 1 .sent) ++
      .call (.battery ⟨0⟩ ⟨0⟩) :: List.replicate 3 (.advance 1 2 .sent)) (by rfl)
  exact ⟨_, hrun, by rfl, handed_increasing hrun⟩

/-- The watchdog takes number 1 for its handshake, a user action takes number 2 and is sent, and then the handshake is
sent. -/
theorem handshake_overtaken :
    ¬∀ s, Reaches (step .blank) Always (connect .blank 0 0) s →
      (s.handed.map fun d => seqField d.2).Pairwise (· < ·) := by
  intro h
  obtain ⟨s, hrun, hs⟩ : ∃ s, Reaches (step .blank) Always (connect .blank 0 0) s ∧ s.handed =
      [(0, (Packet.new 0 HandshakeInfo.blank.packet).toBytes), (2, (Packet.new 2 (.userAction .resetYaw)).toBytes),
        (1, (Packet.new 1 HandshakeInfo.blank.packet).toBytes)] := by
    refine ⟨_, Reaches.of_run
      (List.replicate 4 (.client (.watchdog 500 .sent)) ++
        .call (.userAction .resetYaw) :: List.replicate 3 (.advance 0 501 .sent) ++
        [.client (.watchdog 502 .sent)]) (by rfl), by rfl⟩
  have hseqs := h s hrun
  simp [hs, seqField_packet, Packet.new] at hseqs

/-! ### Sends in the order of their numbers -/

/-- The numbers that are still held are later than all that were handed over. -/
def HeldLater (s : Senders) : Prop := ∀ k, ∀ n ∈ s.ticket k, ∀ d ∈ s.handed, d.1 < n

theorem ticket_of_hands {a : SenderAction} {n : Nat} (h : n ∈ s.hands a) : ∃ k, s.ticket k = some n := by
  unfold hands at h
  split at h
  · exact ⟨none, h⟩
  · rename_i i _ _
    split at h
    · rename_i hcall
      exact ⟨some i, by rw [ticket, hcall]; exact h⟩
    · cases h
  · cases h

theorem HeldLater.notOvertaken {a : SenderAction} (h : HeldLater s) (hfirst : s.EarliestFirst a) :
    s.NotOvertaken a := by
  refine ⟨fun n hn d hd => ?_, hfirst.2⟩
  obtain ⟨k, hk⟩ := ticket_of_hands hn
  exact Nat.not_lt_of_lt (h k n hk d hd)

theorem HeldLater.step {a : SenderAction} (ht : TicketInvariant s) (h : HeldLater s) (hfirst : s.EarliestFirst a)
    (hstep : TicketStep s a s') : HeldLater s' := by
  intro k' m hm d hd
  cases hstep with
  | keep hseq hh hk =>
    rw [hh] at hd
    exact h k' m (hk k' m hm) d hd
  | take k ha hseq hh hk =>
    rw [hh] at hd
    rcases hk k' m hm with ⟨-, rfl⟩ | ⟨hold, -⟩
    · exact ht.handedBelow d hd
    · exact h k' m hold d hd
  | hand k n datagram ha hn hfield hseq hh hk =>
    obtain ⟨hold, hne⟩ := hk k' m hm
    rw [hh] at hd
    rcases List.mem_append.1 hd with hd | hd
    · exact h k' m hold d hd
    · obtain rfl := List.mem_singleton.1 hd
      have hle : n ≤ m := hfirst.1 n ha k' m hold
      have hother : n ≠ m := fun he => hne (ht.distinct k' k m hold (he ▸ hn))
      exact Nat.lt_of_le_of_ne hle hother

/-- If a number is handed over only when no earlier one is still held, no sender is overtaken, and the numbers reach the
socket in order.  A lock from the taking of a number to its sending would see to that. -/
theorem handed_increasing_of_earliestFirst {handshakeAt sentAt : Nat}
    (h : Reaches (step info) EarliestFirst (connect info handshakeAt sentAt) s) :
    (s.handed.map fun d => seqField d.2).Pairwise (· < ·) := by
  have hstart : HeldLater (connect info handshakeAt sentAt) := by
    intro k n hn
    rw [ticket_connect] at hn
    cases hn
  have hrun := h.invariant (I := fun s => RunInvariant s ∧ HeldLater s) ⟨runInvariant_connect _ _ _, hstart⟩ ?_
  · exact hrun.1.increasing
  · rintro s a s' ⟨hi, hheld⟩ hfirst hs
    exact ⟨hi.step (hheld.notOvertaken hfirst) hs, hheld.step hi.tickets hfirst (ticket_step hi.numbered hs)⟩

end Senders

end EverythingImu.SlimeTracker
