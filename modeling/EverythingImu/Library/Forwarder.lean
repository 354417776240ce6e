import Mathlib
import EverythingImu.Library.SlotTable
import EverythingImu.Library.StepRun

/-!
# A listener with one bounded channel for each sender

A listener takes packets that carry nothing but the key of their sender.  It keeps a route for every key it has heard of
lately: the sender of a bounded channel whose receiver a consumer holds.  A packet of a routed key is offered to its
channel without waiting; one that finds the channel full is lost, and one that finds the receiver gone ends the route as
well.  A packet of another key makes a new channel, whose consumer must be handed over before the route exists.  A route
that was silent for the timeout is dropped when the next packet comes.

Channels keep their slot when their route is gone.  Each keeps the packets it was offered, those it took, and those its
consumer has received with the time of each.

* Every packet is offered to exactly one channel of its key, in order (`offered_conserved`).
* A channel delivers, in order, some of the packets it was offered (`delivered_sublist`), and all of them if the
  consumer is never more than the capacity behind (`delivered_all`).
* A channel loses its route only when its consumer is gone or its sender was silent for the timeout
  (`second_channel_late`).
-/

namespace Forwarder

open StepRun

/-- The capacity of a channel, the timeout of a route, and whether a packet that cannot be read drops routes too. -/
structure Config where
  capacity : Nat
  idleTimeout : Nat
  reapsOnMalformed : Bool

structure Channel (K P : Type) where
  key : K
  queue : List P
  /-- The consumer has the receiver. -/
  receiving : Bool
  /-- When the channel was made. -/
  since : Nat
  /-- When it was last offered a packet. -/
  lastSeen : Nat
  offered : List P
  accepted : List P
  delivered : List (P × Nat)

namespace Channel

variable {K P : Type}

def new (key : K) (packet : P) (now : Nat) : Channel K P := ⟨key, [], true, now, now, [packet], [], []⟩

/-- `try_send`. -/
def trySend (cfg : Config) (packet : P) (c : Channel K P) : Channel K P :=
  if c.receiving ∧ c.queue.length < cfg.capacity then
    { c with queue := c.queue ++ [packet], accepted := c.accepted ++ [packet] }
  else c

/-- A packet of the channel's sender. -/
def offer (cfg : Config) (packet : P) (now : Nat) (c : Channel K P) : Channel K P :=
  Channel.trySend cfg packet { c with lastSeen := now, offered := c.offered ++ [packet] }

def receive (packet : P) (rest : List P) (now : Nat) (c : Channel K P) : Channel K P :=
  { c with queue := rest, delivered := c.delivered ++ [(packet, now)] }

def dropReceiver (c : Channel K P) : Channel K P := { c with receiving := false }

end Channel

inductive Listener (P : Type) where
  | listening
  /-- A channel was made for the packet and waits to be handed over. -/
  | registering (n : Nat) (packet : P)
  | stopped

structure State (K P : Type) [DecidableEq K] where
  channels : SlotTable K (Channel K P)
  listener : Listener P
  /-- The time of the last packet. -/
  clock : Nat
  /-- The packets that could be read, in order. -/
  log : List (K × P)

inductive Action (K P : Type) where
  /-- A packet comes; `none` if it cannot be read. -/
  | datagram (now : Nat) (key : K) (packet : Option P)
  /-- The new consumer is handed over. -/
  | handed
  /-- Nobody takes consumers any more: the listener returns, and the new consumer is dropped. -/
  | refused
  /-- The listener fails to receive. -/
  | fail
  /-- A consumer receives a packet. -/
  | receive (n : Nat) (now : Nat)
  | dropReceiver (n : Nat)

section Step

variable {K P : Type} [DecidableEq K] (cfg : Config)

namespace State

def start : State K P := ⟨.empty, .listening, 0, []⟩

/-- The keys whose route was silent for the timeout. -/
def idleKeys (s : State K P) (now : Nat) : List K :=
  s.channels.keys.filter fun k =>
    (((s.channels.current k).bind s.channels.slot).any fun c => decide (cfg.idleTimeout ≤ now - c.lastSeen)) = true

/-- Drop the idle routes. -/
def reap (now : Nat) (s : State K P) : State K P :=
  { s with channels := s.channels.forgetEach (s.idleKeys cfg now), clock := now }

/-- A packet that could be read, after the idle routes were dropped. -/
def route (now : Nat) (key : K) (packet : P) (s : State K P) : State K P :=
  let s := { s with log := s.log ++ [(key, packet)] }
  match s.channels.current key with
  | some n =>
    let channels := s.channels.modify n (Channel.offer cfg packet now)
    if ((s.channels.slot n).any (·.receiving)) = true then { s with channels }
    else { s with channels := channels.forget key }
  | none =>
    { s with
      channels := s.channels.push (.new key packet now)
      listener := .registering s.channels.slots.length packet }

end State

def step (s : State K P) : Action K P → Option (State K P)
  | .datagram now key packet =>
    match s.listener with
    | .listening =>
      if s.clock ≤ now then
        match packet with
        | some packet => some ((s.reap cfg now).route cfg now key packet)
        | none => some (if cfg.reapsOnMalformed then s.reap cfg now else s)
      else none
    | _ => none
  | .handed =>
    match s.listener with
    | .registering n packet => do
      let c ← s.channels.slot n
      some { s with
        channels := (s.channels.modify n (Channel.trySend cfg packet)).point c.key n
        listener := .listening }
    | _ => none
  | .refused =>
    match s.listener with
    | .registering n _ =>
      some { s with channels := (s.channels.modify n Channel.dropReceiver).forgetAll, listener := .stopped }
    | _ => none
  | .fail =>
    match s.listener with
    | .listening => some { s with channels := s.channels.forgetAll, listener := .stopped }
    | _ => none
  | .receive n now => do
    let c ← s.channels.slot n
    match c.receiving, c.queue with
    | true, packet :: rest => some { s with channels := s.channels.modify n (Channel.receive packet rest now) }
    | _, _ => none
  | .dropReceiver n => some { s with channels := s.channels.modify n Channel.dropReceiver }

end Step

/-! ### One channel -/

section Channel

variable {K P : Type} {cfg : Config}

/-- The channel delivers and keeps what it took, which is some of what it was offered. -/
structure Channel.Ordered (cfg : Config) (c : Channel K P) : Prop where
  taken : c.delivered.map (·.1) ++ c.queue = c.accepted
  sublist : c.accepted.Sublist c.offered
  bounded : c.queue.length ≤ cfg.capacity

namespace Channel

variable {c : Channel K P} {packet : P} {now : Nat}

@[simp] theorem trySend_key : (c.trySend cfg packet).key = c.key := by unfold trySend; split <;> rfl

@[simp] theorem trySend_offered : (c.trySend cfg packet).offered = c.offered := by unfold trySend; split <;> rfl

@[simp] theorem trySend_receiving : (c.trySend cfg packet).receiving = c.receiving := by unfold trySend; split <;> rfl

@[simp] theorem trySend_lastSeen : (c.trySend cfg packet).lastSeen = c.lastSeen := by unfold trySend; split <;> rfl

@[simp] theorem trySend_since : (c.trySend cfg packet).since = c.since := by unfold trySend; split <;> rfl

@[simp] theorem offer_key : (c.offer cfg packet now).key = c.key := trySend_key

@[simp] theorem offer_offered : (c.offer cfg packet now).offered = c.offered ++ [packet] := trySend_offered

@[simp] theorem offer_receiving : (c.offer cfg packet now).receiving = c.receiving := trySend_receiving

@[simp] theorem offer_lastSeen : (c.offer cfg packet now).lastSeen = now := trySend_lastSeen

@[simp] theorem offer_since : (c.offer cfg packet now).since = c.since := trySend_since

/-- A channel that has its consumer and room takes the packet. -/
theorem trySend_accepted (hr : c.receiving = true) (hroom : c.queue.length < cfg.capacity) :
    (c.trySend cfg packet).accepted = c.accepted ++ [packet] := by
  unfold trySend
  rw [if_pos ⟨hr, hroom⟩]

/-- The consumer has the receiver, and there is room. -/
def Ready (cfg : Config) (c : Channel K P) : Prop := c.receiving = true ∧ c.queue.length < cfg.capacity

instance (c : Channel K P) : Decidable (c.Ready cfg) := inferInstanceAs (Decidable (_ ∧ _))

/-- A channel that is ready takes the packet it is offered. -/
theorem offer_accepted (h : c.Ready cfg) (hacc : c.accepted = c.offered) :
    (c.offer cfg packet now).accepted = (c.offer cfg packet now).offered := by
  rw [offer_offered, ← hacc]
  exact trySend_accepted (c := { c with lastSeen := now, offered := c.offered ++ [packet] }) h.1 h.2

namespace Ordered

theorem new (key : K) : (Channel.new key packet now).Ordered cfg := ⟨rfl, List.nil_sublist _, Nat.zero_le _⟩

/-- The channel takes a packet that it was offered. -/
theorem trySend (h : c.Ordered cfg) (hsub : (c.accepted ++ [packet]).Sublist c.offered) :
    (c.trySend cfg packet).Ordered cfg := by
  unfold Channel.trySend
  split
  · rename_i hok
    refine ⟨?_, hsub, ?_⟩
    · dsimp only
      rw [← List.append_assoc, h.taken]
    · rw [List.length_append, List.length_singleton]
      exact hok.2
  · exact h

theorem offer (h : c.Ordered cfg) : (c.offer cfg packet now).Ordered cfg := by
  unfold Channel.offer
  refine trySend (c := { c with lastSeen := now, offered := c.offered ++ [packet] }) ⟨h.taken, ?_, h.bounded⟩ ?_
  · exact h.sublist.trans (List.sublist_append_left _ _)
  · exact h.sublist.append (List.Sublist.refl _)

theorem receive (h : c.Ordered cfg) {rest : List P} (hq : c.queue = packet :: rest) :
    (c.receive packet rest now).Ordered cfg := by
  refine ⟨?_, h.sublist, ?_⟩
  · have htaken := h.taken
    rw [hq] at htaken
    simpa [Channel.receive] using htaken
  · have hle := h.bounded
    rw [hq, List.length_cons] at hle
    exact (Nat.le_succ _).trans hle

theorem dropReceiver (h : c.Ordered cfg) : c.dropReceiver.Ordered cfg := ⟨h.taken, h.sublist, h.bounded⟩

end Ordered

end Channel

end Channel

/-! ### What was offered -/

section Results

variable {K P : Type} [DecidableEq K] {cfg : Config}

/-- The packets that the channels of a key were offered, channel after channel. -/
def offeredTo (channels : SlotTable K (Channel K P)) (k : K) : List P :=
  ((channels.slots.map fun c => (c.key, c.offered)).filter (·.1 = k)).flatMap (·.2)

section Offered

variable {t : SlotTable K (Channel K P)} {n : Nat} {k : K} {c : Channel K P} {f : Channel K P → Channel K P}

/-- A change that keeps the key and what was offered. -/
theorem offeredTo_modify_of_keeps (hf : ∀ c, (f c).key = c.key ∧ (f c).offered = c.offered) :
    offeredTo (t.modify n f) k = offeredTo t k := by
  unfold offeredTo SlotTable.modify
  rw [SlotTable.map_modify_of_keeps fun c _ => by rw [(hf c).1, (hf c).2]]

/-- A packet for the newest channel of its key comes behind all others of the key. -/
theorem offeredTo_modify_offer {packet : P} {now : Nat} (hc : t.slot n = some c)
    (hnew : ∀ m c', n < m → t.slot m = some c' → c'.key ≠ c.key) :
    offeredTo (t.modify n (Channel.offer cfg packet now)) k =
      offeredTo t k ++ if c.key = k then [packet] else [] := by
  unfold offeredTo SlotTable.modify
  obtain ⟨hlt, hget⟩ := List.getElem?_eq_some_iff.1 hc
  have hlater : ∀ c' ∈ t.slots.drop (n + 1), c'.key ≠ c.key := by
    intro c' hmem
    obtain ⟨i, hi⟩ := List.mem_iff_getElem?.1 hmem
    rw [List.getElem?_drop] at hi
    exact hnew (n + 1 + i) c' (by omega) hi
  have hsplit : t.slots = t.slots.take n ++ c :: t.slots.drop (n + 1) := by
    rw [← hget, List.getElem_cons_drop, List.take_append_drop]
  have hmod : t.slots.modify n (Channel.offer cfg packet now) =
      t.slots.take n ++ c.offer cfg packet now :: t.slots.drop (n + 1) := by
    rw [List.modify_eq_take_cons_drop hlt, hget]
  by_cases hk : c.key = k
  · have hnone : ((t.slots.map fun c => (c.key, c.offered)).drop (n + 1)).filter (fun e => decide (e.1 = k)) = [] := by
      rw [← List.map_drop, List.filter_eq_nil_iff]
      intro e he
      obtain ⟨c', hmem, rfl⟩ := List.mem_map.1 he
      simpa [← hk] using hlater c' hmem
    rw [hmod, if_pos hk]
    conv_rhs => rw [hsplit]
    simp [hk, hnone]
  · rw [hmod, if_neg hk, List.append_nil]
    conv_rhs => rw [hsplit]
    simp [hk]

theorem offeredTo_push {packet : P} {now : Nat} {key : K} :
    offeredTo (t.push (.new key packet now)) k = offeredTo t k ++ if key = k then [packet] else [] := by
  unfold offeredTo SlotTable.push
  by_cases hk : key = k <;> simp [List.filter_append, Channel.new, hk]

end Offered

/-! ### The invariant -/

/-- Routes lead to the newest channel of their key, and a channel with a consumer loses its route only after the
timeout. -/
structure Invariant (cfg : Config) (s : State K P) : Prop where
  ordered : SlotTable.All (fun _ c => c.Ordered cfg) s.channels
  keyed : SlotTable.Current (fun k _ c => c.key = k) s.channels
  newest : ∀ k n m c, s.channels.current k = some n → n < m → s.channels.slot m = some c → c.key ≠ k
  pending : ∀ n packet, s.listener = .registering n packet → n + 1 = s.channels.slots.length ∧
    ∃ c, s.channels.slot n = some c ∧ c.offered = [packet] ∧ c.accepted = [] ∧ s.channels.current c.key = none
  conserved : ∀ k, (s.log.filter (·.1 = k)).map (·.2) = offeredTo s.channels k
  seen : SlotTable.All (fun _ c => c.lastSeen ≤ s.clock) s.channels
  released : SlotTable.All (fun n c => s.channels.current c.key ≠ some n → c.receiving = true →
    s.listener = .stopped ∨ (∃ packet, s.listener = .registering n packet) ∨
      c.lastSeen + cfg.idleTimeout ≤ s.clock) s.channels
  apart : ∀ n m c c', n < m → s.channels.slot n = some c → s.channels.slot m = some c' → c.key = c'.key →
    c.receiving = true → c.lastSeen + cfg.idleTimeout ≤ c'.since

namespace Invariant

variable {s : State K P} {n now : Nat} {key : K} {packet : P}

theorem start : Invariant cfg (State.start : State K P) where
  ordered := .empty
  keyed := .empty
  newest := nofun
  pending := nofun
  conserved := fun _ => rfl
  seen := .empty
  released := .empty
  apart := nofun

/-- A change of one channel that its sender has no part in. -/
theorem modify (h : Invariant cfg s) {f : Channel K P → Channel K P}
    (hkeep : ∀ c, (f c).key = c.key ∧ (f c).offered = c.offered ∧ (f c).since = c.since ∧ (f c).lastSeen = c.lastSeen)
    (hrecv : ∀ c, (f c).receiving = true → c.receiving = true)
    (hord : ∀ c, s.channels.slot n = some c → (f c).Ordered cfg)
    (hpend : ∀ c packet, s.listener = .registering n packet → s.channels.slot n = some c → c.accepted = [] →
      (f c).accepted = []) :
    Invariant cfg { s with channels := s.channels.modify n f } where
  ordered := h.ordered.modify fun c hc _ => hord c hc
  keyed := h.keyed.modify fun k c _ _ hP => (hkeep c).1.trans hP
  newest := by
    intro k i m c hcur him hc
    rcases SlotTable.slot_of_modify hc with ⟨-, hc⟩ | ⟨rfl, c₀, hc₀, rfl⟩
    · exact h.newest k i m c hcur him hc
    · rw [(hkeep c₀).1]
      exact h.newest k i m c₀ hcur him hc₀
  pending := by
    intro m packet hm
    obtain ⟨hlast, c, hc, hoff, hacc, hcur⟩ := h.pending m packet hm
    refine ⟨by simpa [SlotTable.modify] using hlast, ?_⟩
    by_cases hmn : m = n
    · subst hmn
      refine ⟨f c, by simp [hc], (hkeep c).2.1.trans hoff, hpend c packet hm hc hacc, ?_⟩
      rw [(hkeep c).1]
      exact hcur
    · exact ⟨c, by rwa [SlotTable.slot_modify_of_ne hmn], hoff, hacc, hcur⟩
  conserved := by
    intro k
    rw [offeredTo_modify_of_keeps fun c => ⟨(hkeep c).1, (hkeep c).2.1⟩]
    exact h.conserved k
  seen := h.seen.modify fun c _ hP => (hkeep c).2.2.2.le.trans hP
  released := by
    refine h.released.modify fun c _ hP hcur hr => ?_
    rw [(hkeep c).1] at hcur
    rw [(hkeep c).2.2.2]
    exact hP hcur (hrecv c hr)
  apart := by
    -- the times and the key of a channel stay as they are
    have hback : ∀ m c, (s.channels.modify n f).slot m = some c → ∃ c₀, s.channels.slot m = some c₀ ∧
        c.key = c₀.key ∧ c.since = c₀.since ∧ c.lastSeen = c₀.lastSeen ∧
          (c.receiving = true → c₀.receiving = true) := by
      intro m c hc
      rcases SlotTable.slot_of_modify hc with ⟨-, hc⟩ | ⟨rfl, c₀, hc₀, rfl⟩
      · exact ⟨c, hc, rfl, rfl, rfl, fun hr => hr⟩
      · exact ⟨c₀, hc₀, (hkeep c₀).1, (hkeep c₀).2.2.1, (hkeep c₀).2.2.2, hrecv c₀⟩
    intro i m c c' him hc hc' hkey hr
    obtain ⟨c₀, hc₀, hk₀, -, hl₀, hr₀⟩ := hback i c hc
    obtain ⟨c₁, hc₁, hk₁, hs₁, -⟩ := hback m c' hc'
    rw [hl₀, hs₁]
    exact h.apart i m c₀ c₁ him hc₀ hc₁ (by rw [← hk₀, ← hk₁, hkey]) (hr₀ hr)

/-- The idle routes are dropped. -/
theorem reap (h : Invariant cfg s) (hl : s.listener = .listening) (hnow : s.clock ≤ now) :
    Invariant cfg (s.reap cfg now) where
  ordered := fun m c hc => h.ordered m c (by simpa [State.reap] using hc)
  keyed := h.keyed.forgetEach _
  newest := by
    intro k i m c hcur him hc
    simp only [State.reap, SlotTable.current_forgetEach] at hcur
    split at hcur
    · cases hcur
    · exact h.newest k i m c hcur him (by simpa [State.reap] using hc)
  pending := by
    intro m packet hm
    rw [show (s.reap cfg now).listener = s.listener from rfl, hl] at hm
    cases hm
  conserved := by
    intro k
    have hslots : (s.channels.forgetEach (s.idleKeys cfg now)).slots = s.channels.slots :=
      List.ext_getElem? fun m => SlotTable.slot_forgetEach _
    have hoff : offeredTo (s.reap cfg now).channels k = offeredTo s.channels k := by
      unfold offeredTo State.reap
      rw [hslots]
    rw [hoff]
    exact h.conserved k
  seen := by
    intro m c hc
    exact (h.seen m c (by simpa [State.reap] using hc)).trans hnow
  released := by
    intro m c hc hcur hr
    have hc : s.channels.slot m = some c := by simpa [State.reap] using hc
    refine Or.inr (Or.inr ?_)
    change c.lastSeen + cfg.idleTimeout ≤ now
    by_cases hm : s.channels.current c.key = some m
    · -- the route was dropped now
      have hidle : c.key ∈ s.idleKeys cfg now := by
        by_contra hnot
        simp only [State.reap, SlotTable.current_forgetEach, if_neg hnot] at hcur
        exact hcur hm
      have hany := (List.mem_filter.1 hidle).2
      simp only [hm, Option.bind_some, hc, Option.any_some, decide_eq_true_eq] at hany
      have hseen := h.seen m c hc
      omega
    · rcases h.released m c hc hm hr with hstop | ⟨packet, hreg⟩ | hlate
      · rw [hl] at hstop
        cases hstop
      · rw [hl] at hreg
        cases hreg
      · exact hlate.trans hnow
  apart := by
    intro i m c c' him hc hc'
    exact h.apart i m c c' him (by simpa [State.reap] using hc) (by simpa [State.reap] using hc')

/-- A packet for a routed key. -/
theorem offer (h : Invariant cfg s) (hl : s.listener = .listening) (hcur : s.channels.current key = some n) :
    Invariant cfg { s with
      channels := s.channels.modify n (Channel.offer cfg packet s.clock), log := s.log ++ [(key, packet)] } where
  ordered := h.ordered.modify fun _ _ hP => hP.offer
  keyed := h.keyed.modify fun k c _ _ hP => Channel.offer_key.trans hP
  newest := by
    intro k i m c hcur' him hc
    rcases SlotTable.slot_of_modify hc with ⟨-, hc⟩ | ⟨rfl, c₀, hc₀, rfl⟩
    · exact h.newest k i m c hcur' him hc
    · rw [Channel.offer_key]
      exact h.newest k i m c₀ hcur' him hc₀
  pending := by
    intro m packet' hm
    rw [show s.listener = .registering m packet' from hm] at hl
    cases hl
  conserved := by
    intro k
    obtain ⟨c, hc, rfl⟩ := h.keyed key n hcur
    dsimp only
    rw [offeredTo_modify_offer hc fun m c' hnm hc' => h.newest c.key n m c' hcur hnm hc', ← h.conserved k]
    by_cases hk : c.key = k <;> simp [List.filter_append, hk]
  seen := h.seen.modify fun c _ _ => Channel.offer_lastSeen.le
  released := by
    refine h.released.modify fun c hc _ hcur' => ?_
    obtain ⟨c₀, hc₀, hk₀⟩ := h.keyed key n hcur
    obtain rfl := SlotTable.slot_inj hc hc₀
    rw [Channel.offer_key, hk₀] at hcur'
    exact absurd hcur hcur'
  apart := by
    intro i m c c' him hc hc' hkey hr
    obtain ⟨c₀, hc₀, hk₀⟩ := h.keyed key n hcur
    rcases SlotTable.slot_of_modify hc with ⟨hin, hc⟩ | ⟨rfl, c₁, hc₁, rfl⟩
    · rcases SlotTable.slot_of_modify hc' with ⟨-, hc'⟩ | ⟨hmn, c₂, hc₂, rfl⟩
      · exact h.apart i m c c' him hc hc' hkey hr
      · rw [Channel.offer_since]
        exact h.apart i m c c₂ him hc (hmn ▸ hc₂) (hkey.trans Channel.offer_key) hr
    · -- the current channel is the newest of its key
      obtain rfl := SlotTable.slot_inj hc₁ hc₀
      obtain ⟨c₂, hc₂, hk₂⟩ : ∃ c₂, s.channels.slot m = some c₂ ∧ c'.key = c₂.key := by
        rcases SlotTable.slot_of_modify hc' with ⟨-, hc'⟩ | ⟨rfl, -⟩
        · exact ⟨c', hc', rfl⟩
        · exact absurd him (lt_irrefl _)
      refine absurd ?_ (h.newest key i m c₂ hcur him hc₂)
      rw [← hk₂, ← hkey, Channel.offer_key, hk₀]

/-- The route of a key whose consumer is gone is dropped. -/
theorem forget (h : Invariant cfg s) (hl : s.listener = .listening)
    (hgone : ∀ n c, s.channels.current key = some n → s.channels.slot n = some c → c.receiving = false) :
    Invariant cfg { s with channels := s.channels.forget key } where
  ordered := h.ordered
  keyed := h.keyed.forget
  newest := fun k i m c hcur => h.newest k i m c (SlotTable.current_of_forget hcur).2
  pending := by
    intro m packet hm
    rw [show s.listener = .registering m packet from hm] at hl
    cases hl
  conserved := h.conserved
  seen := h.seen
  released := by
    intro m c hc hcur hr
    by_cases hk : c.key = key
    · by_cases hm : s.channels.current key = some m
      · rw [hgone m c hm hc] at hr
        cases hr
      · exact h.released m c hc (hk ▸ hm) hr
    · refine h.released m c hc (fun hm => hcur ?_) hr
      exact (SlotTable.current_forget_of_ne hk).trans hm
  apart := h.apart

/-- A packet of a key without a route makes a channel. -/
theorem register (h : Invariant cfg s) (hl : s.listener = .listening) (hcur : s.channels.current key = none) :
    Invariant cfg { s with
      channels := s.channels.push (.new key packet s.clock)
      listener := .registering s.channels.slots.length packet
      log := s.log ++ [(key, packet)] } where
  ordered := h.ordered.push (.new key)
  keyed := h.keyed.push
  newest := by
    intro k i m c hcur' him hc
    rcases SlotTable.slot_of_push hc with hc | ⟨-, rfl⟩
    · exact h.newest k i m c hcur' him hc
    · rintro rfl
      rw [SlotTable.current_push] at hcur'
      exact absurd (hcur.symm.trans hcur') nofun
  pending := by
    intro m packet' hm
    obtain ⟨rfl, rfl⟩ := Listener.registering.inj hm
    refine ⟨by simp [SlotTable.push], _, SlotTable.slot_push_self, rfl, rfl, ?_⟩
    exact hcur
  conserved := by
    intro k
    rw [offeredTo_push, ← h.conserved k]
    by_cases hk : key = k <;> simp [List.filter_append, hk]
  seen := h.seen.push le_rfl
  released := by
    intro m c hc hcur' hr
    rcases SlotTable.slot_of_push hc with hc | ⟨rfl, -⟩
    · rcases h.released m c hc hcur' hr with hstop | ⟨packet', hreg⟩ | hlate
      · rw [hl] at hstop
        cases hstop
      · rw [hl] at hreg
        cases hreg
      · exact Or.inr (Or.inr hlate)
    · exact Or.inr (Or.inl ⟨packet, rfl⟩)
  apart := by
    intro i m c c' him hc hc' hkey hr
    rcases SlotTable.slot_of_push hc' with hc' | ⟨rfl, rfl⟩
    · rcases SlotTable.slot_of_push hc with hc | ⟨rfl, rfl⟩
      · exact h.apart i m c c' him hc hc' hkey hr
      · exact absurd (SlotTable.lt_of_slot hc') (by omega)
    · rcases SlotTable.slot_of_push hc with hc | ⟨rfl, rfl⟩
      · -- the older channels of the key have lost their route
        have hkey : c.key = key := hkey
        rcases h.released i c hc (by rw [hkey, hcur]; nofun) hr with hstop | ⟨packet', hreg⟩ | hlate
        · rw [hl] at hstop
          cases hstop
        · rw [hl] at hreg
          cases hreg
        · exact hlate
      · exact absurd him (lt_irrefl _)

/-- The route of a new channel. -/
theorem handed (h : Invariant cfg s) (hl : s.listener = .registering n packet) {c : Channel K P}
    (hc : s.channels.slot n = some c) :
    Invariant cfg { s with channels := s.channels.point c.key n, listener := .listening } where
  ordered := h.ordered
  keyed := h.keyed.point hc rfl
  newest := by
    obtain ⟨hlast, -⟩ := h.pending n packet hl
    intro k i m c' hcur him hc'
    rcases SlotTable.current_of_point hcur with ⟨rfl, rfl⟩ | ⟨-, hcur⟩
    · have hlt : m < s.channels.slots.length := SlotTable.lt_of_slot (t := s.channels) hc'
      omega
    · exact h.newest k i m c' hcur him hc'
  pending := nofun
  conserved := h.conserved
  seen := h.seen
  released := by
    intro m c' hc' hcur hr
    by_cases hk : c'.key = c.key
    · by_cases hm : m = n
      · subst hm
        exact absurd (hk ▸ SlotTable.current_point_self) hcur
      · obtain ⟨-, c₀, hc₀, -, -, hnone⟩ := h.pending n packet hl
        obtain rfl := SlotTable.slot_inj hc hc₀
        rcases h.released m c' hc' (by rw [hk, hnone]; nofun) hr with hstop | ⟨packet', hreg⟩ | hlate
        · rw [hl] at hstop
          cases hstop
        · rw [hl] at hreg
          exact absurd (Listener.registering.inj hreg).1.symm hm
        · exact Or.inr (Or.inr hlate)
    · have hcur' : s.channels.current c'.key ≠ some m := fun hm =>
        hcur ((SlotTable.current_point_of_ne hk).trans hm)
      rcases h.released m c' hc' hcur' hr with hstop | ⟨packet', hreg⟩ | hlate
      · rw [hl] at hstop
        cases hstop
      · rw [hl] at hreg
        obtain ⟨rfl, -⟩ := Listener.registering.inj hreg
        obtain rfl := SlotTable.slot_inj hc hc'
        exact absurd rfl hk
      · exact Or.inr (Or.inr hlate)
  apart := h.apart

/-- The listener returns, and its routes are dropped. -/
theorem stop (h : Invariant cfg s) :
    Invariant cfg { s with channels := s.channels.forgetAll, listener := .stopped } where
  ordered := h.ordered
  keyed := .forgetAll
  newest := nofun
  pending := nofun
  conserved := h.conserved
  seen := h.seen
  released := fun _ _ _ _ _ => Or.inl rfl
  apart := h.apart

theorem route (h : Invariant cfg s) (hl : s.listener = .listening) :
    Invariant cfg (s.route cfg s.clock key packet) := by
  unfold State.route
  dsimp only
  split
  · rename_i n hcur
    have hoff : Invariant cfg { s with
        channels := s.channels.modify n (Channel.offer cfg packet s.clock), log := s.log ++ [(key, packet)] } :=
      h.offer hl hcur
    split
    · exact hoff
    · rename_i hgone
      refine hoff.forget hl fun m c hm hc => ?_
      obtain rfl : n = m := Option.some.inj (hcur.symm.trans hm)
      rcases SlotTable.slot_of_modify hc with ⟨hne, -⟩ | ⟨-, c₀, hc₀, rfl⟩
      · exact absurd rfl hne
      · rw [Channel.offer_receiving]
        simpa [hc₀] using hgone
  · rename_i hcur
    exact h.register hl hcur

end Invariant

/-! ### Runs -/

theorem step_invariant {s s' : State K P} {a : Action K P} (h : Invariant cfg s) (hs : step cfg s a = some s') :
    Invariant cfg s' := by
  cases a with
  | datagram now key packet =>
    simp only [step] at hs
    split at hs
    · rename_i hl
      split at hs
      · rename_i hnow
        cases packet with
        | some packet =>
          obtain rfl := Option.some.inj hs
          exact (h.reap hl hnow).route hl
        | none =>
          obtain rfl := Option.some.inj hs
          split
          · exact h.reap hl hnow
          · exact h
      · cases hs
    · cases hs
  | handed =>
    simp only [step] at hs
    split at hs
    · rename_i n packet hl
      obtain ⟨c, hc, hs⟩ := Option.bind_eq_some_iff.1 hs
      obtain rfl := Option.some.inj hs
      have hpoint : Invariant cfg { s with channels := s.channels.point c.key n, listener := .listening } :=
        h.handed hl hc
      obtain ⟨-, c₀, hc₀, hoff, hacc, -⟩ := h.pending n packet hl
      refine hpoint.modify (n := n) (f := Channel.trySend cfg packet)
        (fun c => ⟨Channel.trySend_key, Channel.trySend_offered, Channel.trySend_since, Channel.trySend_lastSeen⟩)
        (fun c hr => Channel.trySend_receiving ▸ hr) (fun c' hc' => ?_) nofun
      obtain rfl := SlotTable.slot_inj (t := s.channels) hc' hc₀
      refine (h.ordered n c' hc').trySend ?_
      rw [hoff, hacc]
      exact List.Sublist.refl _
    · cases hs
  | refused =>
    simp only [step] at hs
    split at hs
    · rename_i n packet hl
      obtain rfl := Option.some.inj hs
      have hdrop : Invariant cfg { s with channels := s.channels.modify n Channel.dropReceiver } :=
        h.modify (fun _ => ⟨rfl, rfl, rfl, rfl⟩) (fun _ => nofun) (fun c hc => (h.ordered n c hc).dropReceiver)
          fun _ _ _ _ hacc => hacc
      exact hdrop.stop
    · cases hs
  | fail =>
    simp only [step] at hs
    split at hs
    · obtain rfl := Option.some.inj hs
      exact h.stop
    · cases hs
  | receive n now =>
    simp only [step] at hs
    obtain ⟨c, hc, hs⟩ := Option.bind_eq_some_iff.1 hs
    split at hs
    · rename_i packet rest hr hq
      obtain rfl := Option.some.inj hs
      refine h.modify (fun _ => ⟨rfl, rfl, rfl, rfl⟩) (fun _ hr' => hr') (fun c' hc' => ?_) fun _ _ _ _ hacc => hacc
      obtain rfl := SlotTable.slot_inj hc hc'
      exact (h.ordered n c hc).receive hq
    · cases hs
  | dropReceiver n =>
    obtain rfl := Option.some.inj hs
    exact h.modify (fun _ => ⟨rfl, rfl, rfl, rfl⟩) (fun _ => nofun) (fun c hc => (h.ordered n c hc).dropReceiver)
      fun _ _ _ _ hacc => hacc

theorem invariant_of_reaches {ok : State K P → Action K P → Prop} {s : State K P}
    (h : Reaches (step cfg) ok .start s) : Invariant cfg s :=
  h.invariant .start fun _ _ _ hi _ hs => step_invariant hi hs

/-- The packets of a key are those that its channels were offered, channel after channel, each once and in order. -/
theorem offered_conserved {ok : State K P → Action K P → Prop} {s : State K P} (h : Reaches (step cfg) ok .start s)
    (k : K) : (s.log.filter (·.1 = k)).map (·.2) = offeredTo s.channels k := (invariant_of_reaches h).conserved k

/-- What a consumer has received and what still waits for it are some of the packets that its channel was offered, in
order, and at most the capacity waits. -/
theorem delivered_sublist {ok : State K P → Action K P → Prop} {s : State K P} {n : Nat} {c : Channel K P}
    (h : Reaches (step cfg) ok .start s) (hc : s.channels.slot n = some c) :
    (c.delivered.map (·.1) ++ c.queue).Sublist c.offered ∧ c.queue.length ≤ cfg.capacity := by
  have hord : c.Ordered cfg := (invariant_of_reaches h).ordered n c hc
  exact ⟨hord.taken ▸ hord.sublist, hord.bounded⟩

/-- A key gets another channel while the consumer of the first is there only if its sender was silent for the timeout
before. -/
theorem second_channel_late {ok : State K P → Action K P → Prop} {s : State K P} {n m : Nat} {c c' : Channel K P}
    (h : Reaches (step cfg) ok .start s) (hnm : n < m) (hc : s.channels.slot n = some c)
    (hc' : s.channels.slot m = some c') (hkey : c.key = c'.key) (hr : c.receiving = true) :
    c.lastSeen + cfg.idleTimeout ≤ c'.since := (invariant_of_reaches h).apart n m c c' hnm hc hc' hkey hr

/-! ### Consumers that keep up -/

/-- The channel that the listener makes, if it makes one. -/
def Listener.channel : Listener P → Option Nat
  | .registering n _ => some n
  | _ => none

variable (cfg) in
/-- A packet finds the consumer of its channel there, and room in the channel. -/
def KeepsUp (s : State K P) : Action K P → Prop
  | .datagram now key (some _) => ∀ n ∈ (s.reap cfg now).channels.current key, ∀ c ∈ s.channels.slot n, c.Ready cfg
  | .handed => ∀ n ∈ s.listener.channel, ∀ c ∈ s.channels.slot n, c.Ready cfg
  | _ => True

instance (s : State K P) : (a : Action K P) → Decidable (KeepsUp cfg s a)
  | .datagram _ _ (some _) => inferInstanceAs (Decidable (∀ _ ∈ _, ∀ _ ∈ _, _))
  | .handed => inferInstanceAs (Decidable (∀ _ ∈ _, ∀ _ ∈ _, _))
  | .datagram _ _ none | .refused | .fail | .receive _ _ | .dropReceiver _ => inferInstanceAs (Decidable True)

/-- Every channel took what it was offered, but for the packet of a channel that is not handed over yet. -/
def Complete (s : State K P) : Prop :=
  SlotTable.All (fun n c => s.listener.channel ≠ some n → s.listener ≠ .stopped → c.accepted = c.offered) s.channels

/-- A change that neither offers nor takes. -/
theorem Complete.modify {s : State K P} (h : Complete s) {n : Nat} {f : Channel K P → Channel K P}
    (hf : ∀ c, (f c).accepted = c.accepted ∧ (f c).offered = c.offered) :
    Complete { s with channels := s.channels.modify n f } := by
  refine SlotTable.All.modify h fun c _ hP hn hs => ?_
  rw [(hf c).1, (hf c).2]
  exact hP hn hs

theorem step_complete {s s' : State K P} {a : Action K P} (hi : Invariant cfg s) (h : Complete s)
    (hok : KeepsUp cfg s a) (hs : step cfg s a = some s') : Complete s' := by
  have hreap : ∀ now, Complete (s.reap cfg now) := fun now m c hc => h m c (by simpa [State.reap] using hc)
  cases a with
  | datagram now key packet =>
    simp only [step] at hs
    split at hs
    · rename_i hl
      split at hs
      · cases packet with
        | some packet =>
          obtain rfl := Option.some.inj hs
          have hall : ∀ m c, s.channels.slot m = some c → c.accepted = c.offered := fun m c hc =>
            h m c hc (by rw [hl]; nofun) (by rw [hl]; nofun)
          unfold State.route
          dsimp only
          split
          · rename_i n hcur
            have hoff : ∀ m c, ((s.reap cfg now).channels.modify n (Channel.offer cfg packet now)).slot m = some c →
                c.accepted = c.offered := by
              intro m c hc
              rcases SlotTable.slot_of_modify hc with ⟨-, hc⟩ | ⟨rfl, c₀, hc₀, rfl⟩
              · exact hall m c (by simpa [State.reap] using hc)
              · have hc₀ : s.channels.slot m = some c₀ := by simpa [State.reap] using hc₀
                exact Channel.offer_accepted (hok m hcur c₀ hc₀) (hall m c₀ hc₀)
            split
            · exact fun m c hc _ _ => hoff m c hc
            · exact fun m c hc _ _ => hoff m c hc
          · intro m c hc hm _
            rcases SlotTable.slot_of_push hc with hc | ⟨rfl, -⟩
            · exact hall m c (by simpa [State.reap] using hc)
            · exact absurd rfl hm
        | none =>
          obtain rfl := Option.some.inj hs
          split
          · exact hreap now
          · exact h
      · cases hs
    · cases hs
  | handed =>
    simp only [step] at hs
    split at hs
    · rename_i n packet hl
      obtain ⟨c, hc, hs⟩ := Option.bind_eq_some_iff.1 hs
      obtain rfl := Option.some.inj hs
      obtain ⟨-, c₀, hc₀, hoff, hacc, -⟩ := hi.pending n packet hl
      obtain rfl := SlotTable.slot_inj hc hc₀
      intro m c' hc' _ _
      rcases SlotTable.slot_of_modify hc' with ⟨hne, hc'⟩ | ⟨rfl, c₁, hc₁, rfl⟩
      · refine h m c' hc' ?_ (by rw [hl]; nofun)
        rw [hl]
        exact fun heq => hne (Option.some.inj heq).symm
      · obtain rfl := SlotTable.slot_inj hc hc₁
        have hready := hok m (by rw [hl]; rfl) c hc
        rw [Channel.trySend_accepted hready.1 hready.2, Channel.trySend_offered, hoff, hacc]
        rfl
    · cases hs
  | refused =>
    simp only [step] at hs
    split at hs
    · obtain rfl := Option.some.inj hs
      exact fun _ _ _ _ hstop => absurd rfl hstop
    · cases hs
  | fail =>
    simp only [step] at hs
    split at hs
    · obtain rfl := Option.some.inj hs
      exact fun _ _ _ _ hstop => absurd rfl hstop
    · cases hs
  | receive n now =>
    simp only [step] at hs
    obtain ⟨c, hc, hs⟩ := Option.bind_eq_some_iff.1 hs
    split at hs
    · obtain rfl := Option.some.inj hs
      exact h.modify fun _ => ⟨rfl, rfl⟩
    · cases hs
  | dropReceiver n =>
    obtain rfl := Option.some.inj hs
    exact h.modify fun _ => ⟨rfl, rfl⟩

/-- If every packet finds the consumer of its channel there and room in it, what the consumers have received and what
waits for them are all packets of their senders: the packets of a key are those of its channels, one after another. -/
theorem delivered_all {s : State K P} (h : Reaches (step cfg) (KeepsUp cfg) .start s) (hl : s.listener = .listening)
    (k : K) : (s.log.filter (·.1 = k)).map (·.2) =
      (s.channels.slots.filter (·.key = k)).flatMap fun c => c.delivered.map (·.1) ++ c.queue := by
  have hcomplete : Complete s := by
    have hboth : Invariant cfg s ∧ Complete s :=
      h.invariant (I := fun s => Invariant cfg s ∧ Complete s) ⟨.start, .empty⟩ fun _ _ _ hi hok hs =>
        ⟨step_invariant hi.1 hs, step_complete hi.1 hi.2 hok hs⟩
    exact hboth.2
  have hinv : Invariant cfg s := invariant_of_reaches h
  rw [hinv.conserved k, offeredTo, List.filter_map, List.flatMap_map]
  refine List.flatMap_congr fun c hmem => ?_
  obtain ⟨n, hn⟩ := List.mem_iff_getElem?.1 (List.mem_of_mem_filter hmem)
  rw [(hinv.ordered n c hn).taken]
  exact (hcomplete n c hn (by rw [hl]; nofun) (by rw [hl]; nofun)).symm

end Results

end Forwarder
