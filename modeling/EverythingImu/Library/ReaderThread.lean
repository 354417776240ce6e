import EverythingImu.Library.StepRun
import Mathlib

/-!
# A thread that reads a device into a bounded channel

The thread looks at a flag, reads, and sends what it makes of a report, one event after the other; then it looks at the
flag again.  An event waits for space in the channel (`waits`), or is lost when there is none.  After so many failed
reads in a row the device counts as gone: the thread sends a farewell, for which it always waits, and ends.  It ends too
when it sees a stop, with the farewell or without; the flag may be a channel that is gone by the time the thread looks
(`StopFlag`).  The consumer takes events off the channel, or drops the receiver.

* What the consumer has and gets is what the thread made of its reports, in order, without the events that were lost
  (`stream`); the first event is never one of them.  The farewell is the last event.
* Events are lost only when the channel is full, and not at all where they wait (`lost_of_waits`, `lost_of_spacious`).
* The thread says farewell exactly when so many reads in a row have failed, or at a stop (`parts_iff`).
* Once it is asked to stop it reads at most once more (`reads_after_stop`), unless a flag that is gone hides the stop:
  then it goes on until its reads fail (`failures_of_hidden`).

A `Relay` is a task that takes the events off the channel and sends them on into a second one.
-/

namespace ReaderThread

open StepRun

/-- How a thread is told to stop. -/
inductive StopFlag where
  /-- By a flag that stays. -/
  | shared
  /-- By a channel; that its sender is gone counts as a stop. -/
  | closingStops
  /-- By a channel; once its sender is gone the thread sees no stop, whatever was sent. -/
  | closingHides
deriving DecidableEq

/-- What the thread sees when it looks, after a stop or without one, and with the sender gone or there. -/
def StopFlag.seen (stop closed : Bool) : StopFlag → Bool
  | shared => stop
  | closingStops => stop || closed
  | closingHides => stop && !closed

/-- The thread was asked to stop. -/
def StopFlag.Asked (stop closed : Bool) : StopFlag → Prop
  | shared | closingHides => stop = true
  | closingStops => stop = true ∨ closed = true

structure Config (E : Type) where
  capacity : Nat
  /-- The events of a report wait for space. -/
  waits : Bool
  /-- The thread ends when an event that waits finds the receiver gone. -/
  quitsWhenGone : Bool
  /-- The failed reads in a row after which the device is gone. -/
  maxErrors : Nat
  flag : StopFlag
  /-- The thread says farewell too at a stop. -/
  partsOnStop : Bool
  farewell : E

/-- What a read gives. -/
inductive Read (R : Type) where
  | nothing
  | report (r : R)
  | failed

inductive Phase (E : Type) where
  /-- Before the first read; here a receiver that is gone does not matter. -/
  | greeting (events : List E)
  /-- The thread looks at the flag next. -/
  | checking
  | reading
  | sending (events : List E)
  /-- It says farewell next. -/
  | parting
  | ended (parted : Bool)

structure State (S R E : Type) where
  reader : S
  phase : Phase E
  /-- The failed reads since the last one that did not fail. -/
  errors : Nat
  stop : Bool
  /-- Nobody can stop the thread any more. -/
  closed : Bool
  queue : List E
  /-- The consumer holds the receiver. -/
  receiving : Bool
  received : List E
  reads : List (Read R)
  /-- The number of events that found the channel full. -/
  lost : Nat

inductive Action (R : Type) where
  /-- The flag is set. -/
  | stop
  /-- Whoever can set it is gone. -/
  | close
  | check
  | read (outcome : Read R)
  /-- The thread sends its next event, or goes on when there is none. -/
  | send
  | receive
  | dropReceiver

section Model

variable {S R E : Type} (cfg : Config E) (parse : S → R → S × List E)

namespace State

/-- A thread that has a greeting to send, and what is in its channel already. -/
def start (reader : S) (queued greeting : List E) : State S R E where
  reader
  phase := .greeting greeting
  errors := 0
  stop := false
  closed := false
  queue := queued
  receiving := true
  received := []
  reads := []
  lost := 0

def read (s : State S R E) (outcome : Read R) : State S R E :=
  let s := { s with reads := s.reads ++ [outcome] }
  match outcome with
  | .nothing => { s with errors := 0, phase := .checking }
  | .report r => { s with reader := (parse s.reader r).1, errors := 0, phase := .sending (parse s.reader r).2 }
  | .failed =>
    { s with errors := s.errors + 1, phase := if cfg.maxErrors ≤ s.errors + 1 then .parting else .checking }

/-- The next event, and where the thread goes with it and without a receiver; `none` while it waits. -/
def sendEvent (s : State S R E) (e : E) (next gone : Phase E) : Option (State S R E) :=
  if s.receiving then
    if s.queue.length < cfg.capacity then some { s with queue := s.queue ++ [e], phase := next }
    else if cfg.waits then none
    else some { s with phase := next, lost := s.lost + 1 }
  else some { s with phase := gone }

def part (s : State S R E) : Option (State S R E) :=
  if s.receiving then
    if s.queue.length < cfg.capacity then some { s with queue := s.queue ++ [cfg.farewell], phase := .ended true }
    else none
  else some { s with phase := .ended false }

def send (s : State S R E) : Option (State S R E) :=
  match s.phase with
  | .greeting [] | .sending [] => some { s with phase := .checking }
  | .greeting (e :: rest) => s.sendEvent cfg e (.greeting rest) (.greeting rest)
  | .sending (e :: rest) =>
    s.sendEvent cfg e (.sending rest) (if cfg.waits && cfg.quitsWhenGone then .ended false else .sending rest)
  | .parting => s.part cfg
  | .checking | .reading | .ended _ => none

end State

/-- Where the thread goes after it has looked at the flag. -/
def afterCheck (seen : Bool) : Phase E :=
  if seen then if cfg.partsOnStop then .parting else .ended false else .reading

def step (s : State S R E) : Action R → Option (State S R E)
  | .stop => if s.closed then none else some { s with stop := true }
  | .close => some { s with closed := true }
  | .check =>
    match s.phase with
    | .checking => some { s with phase := afterCheck cfg (cfg.flag.seen s.stop s.closed) }
    | _ => none
  | .read outcome =>
    match s.phase with
    | .reading => some (s.read cfg parse outcome)
    | _ => none
  | .send => s.send cfg
  | .receive =>
    match s.queue with
    | e :: rest => if s.receiving then some { s with queue := rest, received := s.received ++ [e] } else none
    | [] => none
  | .dropReceiver => some { s with receiving := false }

/-! ### What the thread makes of its reports -/

/-- The events of the reports that were read, in order. -/
def eventsOf : S → List (Read R) → List E
  | _, [] => []
  | s, .report r :: reads => (parse s r).2 ++ eventsOf (parse s r).1 reads
  | s, .nothing :: reads | s, .failed :: reads => eventsOf s reads

/-- The state of the reader after the reads. -/
def readerAfter (s : S) (reads : List (Read R)) : S :=
  reads.foldl (fun s o => match o with | .report r => (parse s r).1 | .nothing | .failed => s) s

theorem eventsOf_append (s : S) (reads reads' : List (Read R)) :
    eventsOf parse s (reads ++ reads')
      = eventsOf parse s reads ++ eventsOf parse (readerAfter parse s reads) reads' := by
  induction reads generalizing s with
  | nil => rfl
  | cons o reads ih =>
    cases o with
    | nothing => exact ih s
    | failed => exact ih s
    | report r =>
      rw [List.cons_append, eventsOf, eventsOf, ih, List.append_assoc]
      rfl

theorem readerAfter_concat (s : S) (reads : List (Read R)) (o : Read R) :
    readerAfter parse s (reads ++ [o]) = readerAfter parse (readerAfter parse s reads) [o] := List.foldl_append ..

/-! ### Steps -/

/-- The events that the thread still has to send. -/
def Phase.unsent : Phase E → List E
  | .greeting events | .sending events => events
  | .checking | .reading | .parting | .ended _ => []

/-- The farewell, once it is in the channel. -/
def Phase.farewell : Phase E → List E
  | .ended true => [cfg.farewell]
  | .greeting _ | .checking | .reading | .sending _ | .parting | .ended false => []

/-- The thread has these events to send. -/
def Phase.Sends (p : Phase E) (events : List E) : Prop := p = .greeting events ∨ p = .sending events

theorem Phase.Sends.cases {p : Phase E} {events : List E} (h : p.Sends events) :
    p.unsent = events ∧ p.farewell cfg = [] ∧ p ≠ .reading ∧ p ≠ .parting ∧ ∀ parted, p ≠ .ended parted := by
  rcases h with rfl | rfl
  · exact ⟨rfl, rfl, nofun, nofun, nofun⟩
  · exact ⟨rfl, rfl, nofun, nofun, nofun⟩

/-- What the consumer has, what it can have, and what the thread has for it. -/
def State.stream (s : State S R E) : List E := s.received ++ s.queue ++ s.phase.unsent

variable {cfg parse}

/-- What the thread does with its next event while the receiver is held. -/
theorem sendEvent_cases {s s' : State S R E} {e : E} {next gone : Phase E} (hr : s.receiving = true)
    (h : s.sendEvent cfg e next gone = some s') :
    (s.queue.length < cfg.capacity ∧ s' = { s with queue := s.queue ++ [e], phase := next }) ∨
      (cfg.capacity ≤ s.queue.length ∧ cfg.waits = false ∧ s' = { s with phase := next, lost := s.lost + 1 }) := by
  rw [State.sendEvent, if_pos hr] at h
  by_cases hc : s.queue.length < cfg.capacity
  · rw [if_pos hc] at h
    exact Or.inl ⟨hc, (Option.some.inj h).symm⟩
  · rw [if_neg hc] at h
    by_cases hw : cfg.waits = true
    · rw [if_pos hw] at h
      cases h
    · rw [if_neg hw] at h
      exact Or.inr ⟨Nat.not_lt.1 hc, Bool.not_eq_true _ ▸ hw, (Option.some.inj h).symm⟩

/-- What a step of the thread, while the receiver is held, does to the stream: an event goes on its way, or finds the
channel full; the farewell joins the end; a report adds its events. -/
theorem send_cases {s s' : State S R E} (hr : s.receiving = true) (h : s.send cfg = some s') :
    s'.receiving = true ∧ s'.reads = s.reads ∧ s'.reader = s.reader ∧ s'.errors = s.errors ∧ s'.stop = s.stop ∧
      s'.closed = s.closed ∧ s'.received = s.received ∧
      ((s.phase.Sends [] ∧ s'.phase = .checking ∧ s'.queue = s.queue ∧ s'.lost = s.lost) ∨
        (∃ e rest, s.phase.Sends (e :: rest) ∧ s'.phase.Sends rest ∧ s.queue.length < cfg.capacity ∧
          s'.queue = s.queue ++ [e] ∧ s'.lost = s.lost) ∨
        (∃ e rest, s.phase.Sends (e :: rest) ∧ s'.phase.Sends rest ∧ cfg.capacity ≤ s.queue.length ∧
          cfg.waits = false ∧ s'.queue = s.queue ∧ s'.lost = s.lost + 1) ∨
        (s.phase = .parting ∧ s'.phase = .ended true ∧ s'.queue = s.queue ++ [cfg.farewell] ∧ s'.lost = s.lost)) := by
  unfold State.send at h
  split at h
  · rename_i hp
    obtain rfl := Option.some.inj h
    exact ⟨hr, rfl, rfl, rfl, rfl, rfl, rfl, Or.inl ⟨Or.inl hp, rfl, rfl, rfl⟩⟩
  · rename_i hp
    obtain rfl := Option.some.inj h
    exact ⟨hr, rfl, rfl, rfl, rfl, rfl, rfl, Or.inl ⟨Or.inr hp, rfl, rfl, rfl⟩⟩
  · rename_i e rest hp
    rcases sendEvent_cases hr h with ⟨hc, rfl⟩ | ⟨hc, hw, rfl⟩
    · exact ⟨hr, rfl, rfl, rfl, rfl, rfl, rfl, Or.inr (Or.inl ⟨e, rest, Or.inl hp, Or.inl rfl, hc, rfl, rfl⟩)⟩
    · exact ⟨hr, rfl, rfl, rfl, rfl, rfl, rfl,
        Or.inr (Or.inr (Or.inl ⟨e, rest, Or.inl hp, Or.inl rfl, hc, hw, rfl, rfl⟩))⟩
  · rename_i e rest hp
    rcases sendEvent_cases hr h with ⟨hc, rfl⟩ | ⟨hc, hw, rfl⟩
    · exact ⟨hr, rfl, rfl, rfl, rfl, rfl, rfl, Or.inr (Or.inl ⟨e, rest, Or.inr hp, Or.inr rfl, hc, rfl, rfl⟩)⟩
    · exact ⟨hr, rfl, rfl, rfl, rfl, rfl, rfl,
        Or.inr (Or.inr (Or.inl ⟨e, rest, Or.inr hp, Or.inr rfl, hc, hw, rfl, rfl⟩))⟩
  · rename_i hp
    rw [State.part, if_pos hr] at h
    obtain ⟨-, h⟩ := Option.ite_none_right_eq_some.1 h
    obtain rfl := Option.some.inj h
    exact ⟨hr, rfl, rfl, rfl, rfl, rfl, rfl, Or.inr (Or.inr (Or.inr ⟨hp, rfl, rfl, rfl⟩))⟩
  · cases h
  · cases h
  · cases h

/-- Without a receiver a step of the thread changes its phase only, and never to the farewell. -/
theorem send_gone {s s' : State S R E} (hr : s.receiving = false) (h : s.send cfg = some s') :
    ∃ phase, s' = { s with phase } ∧ phase ≠ .reading ∧ phase ≠ .parting ∧ phase ≠ .ended true := by
  have hr' : ¬s.receiving = true := by simp [hr]
  unfold State.send at h
  split at h
  · exact ⟨_, (Option.some.inj h).symm, nofun, nofun, nofun⟩
  · exact ⟨_, (Option.some.inj h).symm, nofun, nofun, nofun⟩
  · rw [State.sendEvent, if_neg hr'] at h
    exact ⟨_, (Option.some.inj h).symm, nofun, nofun, nofun⟩
  · rw [State.sendEvent, if_neg hr'] at h
    refine ⟨_, (Option.some.inj h).symm, ?_, ?_, ?_⟩ <;> split <;> nofun
  · rw [State.part, if_neg hr'] at h
    exact ⟨_, (Option.some.inj h).symm, nofun, nofun, nofun⟩
  · cases h
  · cases h
  · cases h

/-- What a step is. -/
theorem step_cases {s s' : State S R E} {a : Action R} (hs : step cfg parse s a = some s') :
    (a = .stop ∧ s' = { s with stop := true }) ∨ (a = .close ∧ s' = { s with closed := true }) ∨
      (a = .check ∧ s.phase = .checking ∧ s' = { s with phase := afterCheck cfg (cfg.flag.seen s.stop s.closed) }) ∨
      (∃ outcome, a = .read outcome ∧ s.phase = .reading ∧ s' = s.read cfg parse outcome) ∨
      (a = .send ∧ s.send cfg = some s') ∨
      (∃ e rest, a = .receive ∧ s.queue = e :: rest ∧ s' = { s with queue := rest, received := s.received ++ [e] }) ∨
      (a = .dropReceiver ∧ s' = { s with receiving := false }) := by
  cases a with
  | stop =>
    refine Or.inl ⟨rfl, ?_⟩
    simp only [step] at hs
    split at hs
    · cases hs
    · exact (Option.some.inj hs).symm
  | close => exact Or.inr (Or.inl ⟨rfl, (Option.some.inj hs).symm⟩)
  | check =>
    simp only [step] at hs
    split at hs
    · rename_i hp
      exact Or.inr (Or.inr (Or.inl ⟨rfl, hp, (Option.some.inj hs).symm⟩))
    · cases hs
  | read outcome =>
    simp only [step] at hs
    split at hs
    · rename_i hp
      exact Or.inr (Or.inr (Or.inr (Or.inl ⟨outcome, rfl, hp, (Option.some.inj hs).symm⟩)))
    · cases hs
  | send => exact Or.inr (Or.inr (Or.inr (Or.inr (Or.inl ⟨rfl, hs⟩))))
  | receive =>
    simp only [step] at hs
    split at hs
    · rename_i e rest hq
      obtain ⟨-, hs⟩ := Option.ite_none_right_eq_some.1 hs
      exact Or.inr (Or.inr (Or.inr (Or.inr (Or.inr (Or.inl ⟨e, rest, rfl, hq, (Option.some.inj hs).symm⟩)))))
    · cases hs
  | dropReceiver => exact Or.inr (Or.inr (Or.inr (Or.inr (Or.inr (Or.inr ⟨rfl, (Option.some.inj hs).symm⟩)))))

/-- A step adds to the reads at most. -/
theorem reads_step {s s' : State S R E} {a : Action R} (hs : step cfg parse s a = some s') :
    ∃ more, s'.reads = s.reads ++ more := by
  rcases step_cases hs with ⟨rfl, rfl⟩ | ⟨rfl, rfl⟩ | ⟨rfl, hp, rfl⟩ | ⟨outcome, rfl, hp, rfl⟩ | ⟨rfl, hs⟩ |
    ⟨e, rest, rfl, hq, rfl⟩ | ⟨rfl, rfl⟩
  · exact ⟨[], (List.append_nil _).symm⟩
  · exact ⟨[], (List.append_nil _).symm⟩
  · exact ⟨[], (List.append_nil _).symm⟩
  · exact ⟨[outcome], by cases outcome <;> rfl⟩
  · refine ⟨[], ?_⟩
    rw [List.append_nil]
    cases hr : s.receiving with
    | false =>
      obtain ⟨phase, rfl, -⟩ := send_gone hr hs
      rfl
    | true => exact (send_cases hr hs).2.1
  · exact ⟨[], (List.append_nil _).symm⟩
  · exact ⟨[], (List.append_nil _).symm⟩

/-! ### The stream of the consumer -/

variable (cfg parse) in
/-- The stream is what was there first and the events of the reports, without the lost ones; the first event of all is
never lost. -/
structure Follows (first : List E) (reader₀ : S) (s : State S R E) : Prop where
  reader : s.reader = readerAfter parse reader₀ s.reads
  stream : s.receiving = true → ∃ kept, s.stream = kept ++ s.phase.farewell cfg ∧
    kept.Sublist (first ++ eventsOf parse reader₀ s.reads) ∧
    kept.length + s.lost = (first ++ eventsOf parse reader₀ s.reads).length ∧
    kept.head? = (first ++ eventsOf parse reader₀ s.reads).head?

namespace Follows

variable {first : List E} {reader₀ : S} {s s' : State S R E}

theorem start (queued greeting : List E) :
    Follows cfg parse (queued ++ greeting) reader₀ (.start reader₀ queued greeting) where
  reader := rfl
  stream := fun _ => by
    refine ⟨queued ++ greeting, ?_, ?_, ?_, ?_⟩
    · simp [State.stream, State.start, Phase.unsent, Phase.farewell]
    · simp [State.start, eventsOf]
    · simp [State.start, eventsOf]
    · simp [State.start, eventsOf]

/-- A step that leaves the reads, the losses and the stream as they are. -/
theorem same (h : Follows cfg parse first reader₀ s) (hreader : s'.reader = s.reader) (hreads : s'.reads = s.reads)
    (hlost : s'.lost = s.lost) (hr : s'.receiving = true → s.receiving = true)
    (hs : s.receiving = true → s'.stream = s.stream) (hf : s'.phase.farewell cfg = s.phase.farewell cfg) :
    Follows cfg parse first reader₀ s' where
  reader := by rw [hreader, hreads, h.reader]
  stream := fun hr' => by
    rw [hreads, hlost, hs (hr hr'), hf]
    exact h.stream (hr hr')

theorem check (h : Follows cfg parse first reader₀ s) (hp : s.phase = .checking) :
    Follows cfg parse first reader₀ { s with phase := afterCheck cfg (cfg.flag.seen s.stop s.closed) } := by
  generalize cfg.flag.seen s.stop s.closed = seen
  have hafter : (afterCheck cfg seen).unsent = [] ∧ (afterCheck cfg seen).farewell cfg = [] := by
    unfold afterCheck
    split
    · split <;> exact ⟨rfl, rfl⟩
    · exact ⟨rfl, rfl⟩
  refine h.same rfl rfl rfl id (fun _ => ?_) ?_
  · show s.received ++ s.queue ++ (afterCheck cfg seen).unsent = s.received ++ s.queue ++ s.phase.unsent
    rw [hafter.1, hp]
    rfl
  · show (afterCheck cfg seen).farewell cfg = s.phase.farewell cfg
    rw [hafter.2, hp]
    rfl

theorem read (h : Follows cfg parse first reader₀ s) (hp : s.phase = .reading) (outcome : Read R) :
    Follows cfg parse first reader₀ (s.read cfg parse outcome) := by
  -- nothing is on its way while the thread reads
  have hs : s.receiving = true → ∃ kept, s.received ++ s.queue = kept ∧
      kept.Sublist (first ++ eventsOf parse reader₀ s.reads) ∧
      kept.length + s.lost = (first ++ eventsOf parse reader₀ s.reads).length ∧
      kept.head? = (first ++ eventsOf parse reader₀ s.reads).head? := by
    intro hr
    obtain ⟨kept, hkept, hrest⟩ := h.stream hr
    refine ⟨kept, ?_, hrest⟩
    simpa [State.stream, hp, Phase.unsent, Phase.farewell] using hkept
  cases outcome with
  | nothing =>
    refine ⟨by rw [State.read, readerAfter_concat, ← h.reader]; rfl, fun hr => ?_⟩
    obtain ⟨kept, hkept, hrest⟩ := hs hr
    refine ⟨kept, by simp [State.stream, State.read, Phase.unsent, Phase.farewell, hkept], ?_⟩
    simpa [State.read, eventsOf_append, eventsOf] using hrest
  | report r =>
    refine ⟨by rw [State.read, readerAfter_concat, ← h.reader]; rfl, fun hr => ?_⟩
    obtain ⟨kept, hkept, hsub, hlen, hhead⟩ := hs hr
    have hevents : first ++ eventsOf parse reader₀ (s.reads ++ [.report r])
        = (first ++ eventsOf parse reader₀ s.reads) ++ (parse s.reader r).2 := by
      rw [eventsOf_append, ← h.reader, eventsOf, eventsOf, List.append_nil, List.append_assoc]
    refine ⟨kept ++ (parse s.reader r).2, ?_, ?_, ?_, ?_⟩
    · simp [State.stream, State.read, Phase.unsent, Phase.farewell, ← hkept]
    · simp only [State.read, hevents]
      exact hsub.append (List.Sublist.refl _)
    · simp only [State.read, hevents]
      rw [List.length_append, List.length_append, ← hlen]
      omega
    · simp only [State.read, hevents]
      rw [List.head?_append, List.head?_append, hhead]
  | failed =>
    refine ⟨by rw [State.read, readerAfter_concat, ← h.reader]; rfl, fun hr => ?_⟩
    obtain ⟨kept, hkept, hrest⟩ := hs hr
    refine ⟨kept, ?_, ?_⟩
    · simp only [State.stream, State.read]
      split <;> simp [Phase.unsent, Phase.farewell, hkept]
    · simpa [State.read, eventsOf_append, eventsOf] using hrest

theorem send (hcap : 0 < cfg.capacity) (h : Follows cfg parse first reader₀ s) (hs : s.send cfg = some s') :
    Follows cfg parse first reader₀ s' := by
  cases hr : s.receiving with
  | false =>
    obtain ⟨phase, rfl, -⟩ := send_gone hr hs
    refine ⟨h.reader, fun hr' => ?_⟩
    rw [hr] at hr'
    cases hr'
  | true =>
    obtain ⟨hr', hreads, hreader, -, -, -, hrec, hcase⟩ := send_cases hr hs
    rcases hcase with ⟨hp, hp', hq, hl⟩ | ⟨e, rest, hp, hp', hc, hq, hl⟩ | ⟨e, rest, hp, hp', hc, hw, hq, hl⟩ |
      ⟨hp, hp', hq, hl⟩
    · obtain ⟨hunsent, hfarewell, -⟩ := hp.cases cfg
      refine h.same hreader hreads hl (fun _ => hr) (fun _ => ?_) ?_
      · rw [State.stream, State.stream, hunsent, hp', hq, hrec]
        rfl
      · rw [hp', hfarewell, Phase.farewell]
    · obtain ⟨hunsent, hfarewell, -⟩ := hp.cases cfg
      obtain ⟨hunsent', hfarewell', -⟩ := hp'.cases cfg
      refine h.same hreader hreads hl (fun _ => hr) (fun _ => ?_) ?_
      · simp only [State.stream, hunsent, hunsent', hq, hrec, List.append_assoc, List.singleton_append]
      · rw [hfarewell, hfarewell']
    · obtain ⟨hunsent, hfarewell, -⟩ := hp.cases cfg
      obtain ⟨hunsent', hfarewell', -⟩ := hp'.cases cfg
      refine ⟨by rw [hreader, hreads, h.reader], fun _ => ?_⟩
      obtain ⟨kept, hkept, hsub, hlen, hhead⟩ := h.stream hr
      have hkept : kept = s.received ++ s.queue ++ e :: rest := by
        simpa [State.stream, hunsent, hfarewell] using hkept.symm
      -- the channel is full, so something was sent before the event
      obtain ⟨a, q, hq'⟩ : ∃ a q, s.queue = a :: q := List.exists_cons_of_length_pos (hcap.trans_le hc)
      refine ⟨s.received ++ s.queue ++ rest, ?_, ?_, ?_, ?_⟩
      · simp [State.stream, hunsent', hq, hrec, hfarewell']
      · rw [hreads]
        refine List.Sublist.trans ?_ hsub
        rw [hkept]
        exact (List.Sublist.refl _).append (List.sublist_cons_self e rest)
      · rw [hreads, hl, ← hlen, hkept]
        simp only [List.length_append, List.length_cons]
        omega
      · rw [hreads, ← hhead, hkept, hq']
        simp
    · refine ⟨by rw [hreader, hreads, h.reader], fun _ => ?_⟩
      obtain ⟨kept, hkept, hrest⟩ := h.stream hr
      have hkept : kept = s.received ++ s.queue := by
        simpa [State.stream, hp, Phase.unsent, Phase.farewell] using hkept.symm
      refine ⟨kept, ?_, ?_⟩
      · simp [State.stream, hp', hq, hrec, Phase.unsent, Phase.farewell, hkept]
      · rw [hreads, hl]
        exact hrest

theorem step (hcap : 0 < cfg.capacity) (h : Follows cfg parse first reader₀ s) {a : Action R}
    (hs : step cfg parse s a = some s') : Follows cfg parse first reader₀ s' := by
  rcases step_cases hs with ⟨rfl, rfl⟩ | ⟨rfl, rfl⟩ | ⟨rfl, hp, rfl⟩ | ⟨outcome, rfl, hp, rfl⟩ | ⟨rfl, hs⟩ |
    ⟨e, rest, rfl, hq, rfl⟩ | ⟨rfl, rfl⟩
  · exact h.same rfl rfl rfl id (fun _ => rfl) rfl
  · exact h.same rfl rfl rfl id (fun _ => rfl) rfl
  · exact h.check hp
  · exact h.read hp outcome
  · exact h.send hcap hs
  · exact h.same rfl rfl rfl id (fun _ => by simp [State.stream, hq]) rfl
  · exact ⟨h.reader, nofun⟩

end Follows

/-- What the consumer has and gets, as long as it holds the receiver. -/
theorem stream {ok : State S R E → Action R → Prop} (hcap : 0 < cfg.capacity) {reader : S} {queued greeting : List E}
    {s : State S R E} (h : Reaches (step cfg parse) ok (.start reader queued greeting) s) (hr : s.receiving = true) :
    ∃ kept, s.stream = kept ++ s.phase.farewell cfg ∧
      kept.Sublist (queued ++ greeting ++ eventsOf parse reader s.reads) ∧
      kept.length + s.lost = (queued ++ greeting ++ eventsOf parse reader s.reads).length ∧
      kept.head? = (queued ++ greeting ++ eventsOf parse reader s.reads).head? :=
  (h.invariant (I := Follows cfg parse (queued ++ greeting) reader) (.start queued greeting)
    fun _ _ _ hf _ hs => hf.step hcap hs).stream hr

theorem reads_prefix {ok : State S R E → Action R → Prop} {s s' : State S R E}
    (h : Reaches (step cfg parse) ok s s') : ∃ more, s'.reads = s.reads ++ more := by
  refine h.invariant (I := fun s' => ∃ more, s'.reads = s.reads ++ more) ⟨[], (List.append_nil _).symm⟩ ?_
  rintro t a t' ⟨more, hmore⟩ - hs
  obtain ⟨more', hmore'⟩ := reads_step hs
  exact ⟨more ++ more', by rw [hmore', hmore, List.append_assoc]⟩

/-! ### What is lost -/

variable (cfg) in
/-- There is space when the thread sends. -/
def Spacious (s : State S R E) : Action R → Prop
  | .send => s.queue.length < cfg.capacity
  | .stop | .close | .check | .read _ | .receive | .dropReceiver => True

instance (s : State S R E) (a : Action R) : Decidable (Spacious cfg s a) :=
  match a with
  | .send => inferInstanceAs (Decidable (s.queue.length < cfg.capacity))
  | .stop | .close | .check | .read _ | .receive | .dropReceiver => inferInstanceAs (Decidable True)

/-- A step that loses an event finds the channel full, and does not wait. -/
theorem lost_step {s s' : State S R E} {a : Action R} (hs : step cfg parse s a = some s') :
    s'.lost = s.lost ∨ (cfg.waits = false ∧ ¬Spacious cfg s a) := by
  rcases step_cases hs with ⟨rfl, rfl⟩ | ⟨rfl, rfl⟩ | ⟨rfl, hp, rfl⟩ | ⟨outcome, rfl, hp, rfl⟩ | ⟨rfl, hs⟩ |
    ⟨e, rest, rfl, hq, rfl⟩ | ⟨rfl, rfl⟩
  · exact Or.inl rfl
  · exact Or.inl rfl
  · exact Or.inl rfl
  · cases outcome <;> exact Or.inl rfl
  · cases hr : s.receiving with
    | false =>
      obtain ⟨phase, rfl, -⟩ := send_gone hr hs
      exact Or.inl rfl
    | true =>
      obtain ⟨-, -, -, -, -, -, -, hcase⟩ := send_cases hr hs
      rcases hcase with ⟨-, -, -, hl⟩ | ⟨e, rest, -, -, -, -, hl⟩ | ⟨e, rest, -, -, hc, hw, -, -⟩ | ⟨-, -, -, hl⟩
      · exact Or.inl hl
      · exact Or.inl hl
      · exact Or.inr ⟨hw, Nat.not_lt.2 hc⟩
      · exact Or.inl hl
  · exact Or.inl rfl
  · exact Or.inl rfl

theorem lost_of_waits {ok : State S R E → Action R → Prop} (hw : cfg.waits = true) {reader : S}
    {queued greeting : List E} {s : State S R E} (h : Reaches (step cfg parse) ok (.start reader queued greeting) s) :
    s.lost = 0 :=
  h.invariant (I := fun s => s.lost = 0) rfl fun s _ s' hl _ hs => by
    rcases lost_step hs with hl' | ⟨hw', -⟩
    · rw [hl', hl]
    · rw [hw] at hw'
      cases hw'

theorem lost_of_spacious {reader : S} {queued greeting : List E} {s : State S R E}
    (h : Reaches (step cfg parse) (Spacious cfg) (.start reader queued greeting) s) : s.lost = 0 :=
  h.invariant (I := fun s => s.lost = 0) rfl fun s _ s' hl hok hs => by
    rcases lost_step hs with hl' | ⟨-, hfull⟩
    · rw [hl', hl]
    · exact absurd hok hfull

/-! ### How the thread ends -/

/-- The thread has made up its mind to say farewell, or has said it. -/
def Phase.Parts (p : Phase E) : Prop := p = .parting ∨ p = .ended true

/-- The thread is at its end. -/
def Phase.Leaves (p : Phase E) : Prop := p = .parting ∨ ∃ parted, p = .ended parted

theorem Phase.Sends.not_leaves {p : Phase E} {events : List E} (h : p.Sends events) : ¬p.Leaves := by
  rintro (rfl | ⟨parted, rfl⟩)
  · rcases h with h | h <;> cases h
  · rcases h with h | h <;> cases h

theorem Phase.Parts.leaves {p : Phase E} (h : p.Parts) : p.Leaves := h.imp id fun h => ⟨true, h⟩

variable (cfg) in
/-- The thread was asked to stop. -/
def State.Asked (s : State S R E) : Prop := cfg.flag.Asked s.stop s.closed

theorem StopFlag.asked_of_seen {f : StopFlag} {stop closed : Bool} (h : f.seen stop closed = true) :
    f.Asked stop closed := by
  cases f with
  | shared => exact h
  | closingStops => exact Bool.or_eq_true_iff.1 h
  | closingHides => exact (Bool.and_eq_true_iff.1 h).1

/-- A stop that the thread is not kept from sees it whenever it looks. -/
theorem StopFlag.seen_of_asked {f : StopFlag} {stop closed : Bool} (hf : f ≠ .closingHides) (h : f.Asked stop closed) :
    f.seen stop closed = true := by
  cases f with
  | shared => exact h
  | closingStops => exact Bool.or_eq_true_iff.2 h
  | closingHides => exact absurd rfl hf

/-- Asked once, asked for good. -/
theorem StopFlag.Asked.mono {f : StopFlag} {stop closed stop' closed' : Bool} (h : f.Asked stop closed)
    (hs : stop = true → stop' = true) (hc : closed = true → closed' = true) : f.Asked stop' closed' := by
  cases f with
  | shared => exact hs h
  | closingStops => exact h.imp hs hc
  | closingHides => exact hs h

/-- A run of failures cannot be longer than the one at the end of the list. -/
theorem le_of_append_replicate {earlier earlier' : List (Read R)} {m n : Nat}
    (h : earlier ++ List.replicate m .failed = earlier' ++ List.replicate n .failed)
    (hlast : earlier'.getLast? ≠ some .failed) : m ≤ n := by
  by_contra hlt
  obtain ⟨k, rfl⟩ := Nat.exists_eq_add_of_lt (not_le.1 hlt)
  have hsplit : List.replicate (n + k + 1) (Read.failed (R := R))
      = List.replicate (k + 1) .failed ++ List.replicate n .failed := by
    rw [List.replicate_append_replicate]
    congr 1
    omega
  rw [hsplit, ← List.append_assoc] at h
  apply hlast
  rw [← List.append_cancel_right h, List.replicate_succ', ← List.append_assoc, List.getLast?_concat]

variable (cfg) in
/-- The failed reads are counted, and so many of them are the end. -/
structure Counts (s : State S R E) : Prop where
  errors : ∃ earlier, s.reads = earlier ++ List.replicate s.errors .failed ∧ earlier.getLast? ≠ some .failed
  under : s.errors < cfg.maxErrors ∨
    (s.errors = cfg.maxErrors ∧ s.phase.Leaves ∧ (s.receiving = true → s.phase.Parts))
  cause : s.phase.Parts → s.errors = cfg.maxErrors ∨ (s.Asked cfg ∧ cfg.partsOnStop = true)
  silent : s.phase = .ended false → s.receiving = true → s.Asked cfg ∧ cfg.partsOnStop = false
  first : ∀ earlier later, s.reads = earlier ++ List.replicate cfg.maxErrors .failed ++ later →
    s.errors = cfg.maxErrors ∧ later = []

namespace Counts

variable {s s' : State S R E}

theorem start (hmax : 0 < cfg.maxErrors) (reader : S) (queued greeting : List E) :
    Counts cfg (.start reader queued greeting : State S R E) where
  errors := ⟨[], rfl, nofun⟩
  under := Or.inl hmax
  cause := by simp [State.start, Phase.Parts]
  silent := nofun
  first := fun earlier later h => by
    have hlen : 0 = earlier.length + (cfg.maxErrors + later.length) := by
      simpa [State.start] using congrArg List.length h
    omega

/-- A step that reads nothing: it goes on in a phase that fits. -/
theorem same (h : Counts cfg s) (hreads : s'.reads = s.reads) (herrors : s'.errors = s.errors)
    (hasked : s.Asked cfg → s'.Asked cfg) (hr : s'.receiving = true → s.receiving = true)
    (hleaves : s.phase.Leaves → s'.phase.Leaves ∧ (s'.receiving = true → s.phase.Parts → s'.phase.Parts))
    (hcause : s'.phase.Parts → s.phase.Parts ∨ (s'.Asked cfg ∧ cfg.partsOnStop = true))
    (hsilent : s'.phase = .ended false → s'.receiving = true →
      s.phase = .ended false ∨ (s'.Asked cfg ∧ cfg.partsOnStop = false)) : Counts cfg s' where
  errors := by
    rw [hreads, herrors]
    exact h.errors
  under := by
    rw [herrors]
    exact h.under.imp id fun ⟨he, hl, hp⟩ => ⟨he, (hleaves hl).1, fun hr' => (hleaves hl).2 hr' (hp (hr hr'))⟩
  cause := fun hp => by
    rw [herrors]
    rcases hcause hp with hp | hp
    · exact (h.cause hp).imp id fun hs => ⟨hasked hs.1, hs.2⟩
    · exact Or.inr hp
  silent := fun hp hr' => by
    rcases hsilent hp hr' with hp | hp
    · exact ⟨hasked (h.silent hp (hr hr')).1, (h.silent hp (hr hr')).2⟩
    · exact hp
  first := fun earlier later he => by
    rw [herrors]
    exact h.first earlier later (by rw [← hreads, he])

/-- The thread reads only while it has not counted up to the end. -/
theorem under_of_reading (h : Counts cfg s) (hp : s.phase = .reading) : s.errors < cfg.maxErrors := by
  rcases h.under with hu | ⟨-, hl, -⟩
  · exact hu
  · rcases hl with hl | ⟨b, hl⟩ <;> rw [hp] at hl <;> cases hl

/-- A run of failures that ends before the last read was there before it. -/
theorem first_of_concat (h : Counts cfg s) (hp : s.phase = .reading) {o : Read R} {n : Nat}
    (hn : ∃ earlier, s.reads ++ [o] = earlier ++ List.replicate n .failed ∧ earlier.getLast? ≠ some .failed)
    (hle : n ≤ cfg.maxErrors) {earlier later : List (Read R)}
    (he : s.reads ++ [o] = earlier ++ List.replicate cfg.maxErrors .failed ++ later) :
    n = cfg.maxErrors ∧ later = [] := by
  induction later using List.reverseRecOn with
  | nil =>
    obtain ⟨earlier', heq, hlast⟩ := hn
    rw [List.append_nil, heq] at he
    exact ⟨le_antisymm hle (le_of_append_replicate he.symm hlast), rfl⟩
  | append_singleton later o' _ =>
    rw [← List.append_assoc] at he
    have hpre : s.reads = earlier ++ List.replicate cfg.maxErrors .failed ++ later := (List.append_inj' he rfl).1
    have hlt := h.under_of_reading hp
    have heq := (h.first earlier later hpre).1
    omega

theorem read (hmax : 0 < cfg.maxErrors) (h : Counts cfg s) (hp : s.phase = .reading) (outcome : Read R) :
    Counts cfg (s.read cfg parse outcome) := by
  have hlt : s.errors < cfg.maxErrors := h.under_of_reading hp
  cases outcome with
  | nothing =>
    have hn : ∃ earlier, s.reads ++ [.nothing] = earlier ++ List.replicate 0 .failed ∧
        earlier.getLast? ≠ some .failed := ⟨s.reads ++ [.nothing], by simp, by simp⟩
    refine ⟨hn, Or.inl hmax, by simp [State.read, Phase.Parts], nofun, fun earlier later he => ?_⟩
    exact h.first_of_concat hp hn (Nat.zero_le _) he
  | report r =>
    have hn : ∃ earlier, s.reads ++ [.report r] = earlier ++ List.replicate 0 .failed ∧
        earlier.getLast? ≠ some .failed := ⟨s.reads ++ [.report r], by simp, by simp⟩
    refine ⟨hn, Or.inl hmax, by simp [State.read, Phase.Parts], nofun, fun earlier later he => ?_⟩
    exact h.first_of_concat hp hn (Nat.zero_le _) he
  | failed =>
    have hn : ∃ earlier, s.reads ++ [.failed] = earlier ++ List.replicate (s.errors + 1) .failed ∧
        earlier.getLast? ≠ some .failed := by
      obtain ⟨earlier, heq, hlast⟩ := h.errors
      exact ⟨earlier, by rw [heq, List.append_assoc, List.replicate_succ'], hlast⟩
    refine ⟨hn, ?_, ?_, ?_, fun earlier later he => h.first_of_concat hp hn hlt he⟩
    · by_cases hm : cfg.maxErrors ≤ s.errors + 1
      · exact Or.inr ⟨le_antisymm hlt hm, Or.inl (if_pos hm), fun _ => Or.inl (if_pos hm)⟩
      · exact Or.inl (not_le.1 hm)
    · intro hparts
      by_cases hm : cfg.maxErrors ≤ s.errors + 1
      · exact Or.inl (le_antisymm hlt hm)
      · simp [State.read, hm, Phase.Parts] at hparts
    · intro hended
      simp only [State.read] at hended
      split at hended <;> cases hended

theorem send (h : Counts cfg s) (hs : s.send cfg = some s') : Counts cfg s' := by
  cases hr : s.receiving with
  | false =>
    have hphase : s'.phase.Leaves ∨ ¬s.phase.Leaves := by
      unfold State.send at hs
      split at hs
      · exact Or.inr (Phase.Sends.not_leaves (Or.inl ‹_›))
      · exact Or.inr (Phase.Sends.not_leaves (Or.inr ‹_›))
      · exact Or.inr (Phase.Sends.not_leaves (Or.inl ‹_›))
      · exact Or.inr (Phase.Sends.not_leaves (Or.inr ‹_›))
      · rw [State.part, if_neg (by simp [hr])] at hs
        obtain rfl := Option.some.inj hs
        exact Or.inl (Or.inr ⟨false, rfl⟩)
      · cases hs
      · cases hs
      · cases hs
    obtain ⟨phase, rfl, -, hpart, hended⟩ := send_gone hr hs
    refine h.same rfl rfl id id (fun hl => ⟨hphase.resolve_right fun hn => hn hl, fun hr' => ?_⟩)
      (fun hp => (hp.elim hpart hended).elim) fun _ hr' => ?_
    · rw [hr] at hr'
      cases hr'
    · rw [hr] at hr'
      cases hr'
  | true =>
    obtain ⟨hr', hreads, -, herrors, hstop, hclosed, -, hcase⟩ := send_cases hr hs
    have hasked : s.Asked cfg → s'.Asked cfg := fun ha => ha.mono (by rw [hstop]; exact id) (by rw [hclosed]; exact id)
    -- a thread that has events to send is not at its end, before and after
    have hsends : ∀ {events}, s.phase.Sends events → ¬s'.phase.Leaves → Counts cfg s' := fun hp hp' =>
      h.same hreads herrors hasked (fun _ => hr) (fun hl => absurd hl hp.not_leaves) (fun hl => absurd hl.leaves hp')
        fun he => absurd (Or.inr ⟨false, he⟩) hp'
    rcases hcase with ⟨hp, hp', -, -⟩ | ⟨e, rest, hp, hp', -⟩ | ⟨e, rest, hp, hp', -⟩ | ⟨hp, hp', -, -⟩
    · exact hsends hp (by simp [hp', Phase.Leaves])
    · exact hsends hp hp'.not_leaves
    · exact hsends hp hp'.not_leaves
    · exact h.same hreads herrors hasked (fun _ => hr)
        (fun _ => ⟨Or.inr ⟨true, hp'⟩, fun _ _ => Or.inr hp'⟩) (fun _ => Or.inl (Or.inl hp)) (by simp [hp'])

theorem check (h : Counts cfg s) (hp : s.phase = .checking) :
    Counts cfg { s with phase := afterCheck cfg (cfg.flag.seen s.stop s.closed) } := by
  refine h.same rfl rfl id id (by simp [hp, Phase.Leaves]) (fun hparts => Or.inr ?_) fun hended _ => Or.inr ?_
  · cases hs : cfg.flag.seen s.stop s.closed with
    | false => simp [afterCheck, hs, Phase.Parts] at hparts
    | true =>
      cases hc : cfg.partsOnStop with
      | false => simp [afterCheck, hs, hc, Phase.Parts] at hparts
      | true => exact ⟨StopFlag.asked_of_seen hs, rfl⟩
  · cases hs : cfg.flag.seen s.stop s.closed with
    | false => simp [afterCheck, hs] at hended
    | true =>
      cases hc : cfg.partsOnStop with
      | false => exact ⟨StopFlag.asked_of_seen hs, rfl⟩
      | true => simp [afterCheck, hs, hc] at hended

theorem step (hmax : 0 < cfg.maxErrors) (h : Counts cfg s) {a : Action R} (hs : step cfg parse s a = some s') :
    Counts cfg s' := by
  rcases step_cases hs with ⟨rfl, rfl⟩ | ⟨rfl, rfl⟩ | ⟨rfl, hp, rfl⟩ | ⟨outcome, rfl, hp, rfl⟩ | ⟨rfl, hs⟩ |
    ⟨e, rest, rfl, hq, rfl⟩ | ⟨rfl, rfl⟩
  · exact h.same rfl rfl (fun ha => ha.mono (fun _ => rfl) id) id (fun hl => ⟨hl, fun _ => id⟩) Or.inl
      fun hp _ => Or.inl hp
  · exact h.same rfl rfl (fun ha => ha.mono id fun _ => rfl) id (fun hl => ⟨hl, fun _ => id⟩) Or.inl
      fun hp _ => Or.inl hp
  · exact h.check hp
  · exact h.read hmax hp outcome
  · exact h.send hs
  · exact h.same rfl rfl id id (fun hl => ⟨hl, fun _ => id⟩) Or.inl fun hp _ => Or.inl hp
  · exact h.same rfl rfl id nofun (fun hl => ⟨hl, nofun⟩) Or.inl fun hp hr' => by cases hr'

end Counts

theorem counts_of_reaches {ok : State S R E → Action R → Prop} (hmax : 0 < cfg.maxErrors) {reader : S}
    {queued greeting : List E} {s : State S R E} (h : Reaches (step cfg parse) ok (.start reader queued greeting) s) :
    Counts cfg s :=
  h.invariant (I := Counts cfg) (.start hmax reader queued greeting) fun _ _ _ hc _ hs => hc.step hmax hs

/-- While the consumer holds the receiver, the thread says farewell exactly when its last reads have failed so often, or
at a stop if it does so at a stop. -/
theorem parts_iff {ok : State S R E → Action R → Prop} (hmax : 0 < cfg.maxErrors) {reader : S}
    {queued greeting : List E} {s : State S R E} (h : Reaches (step cfg parse) ok (.start reader queued greeting) s)
    (hr : s.receiving = true) (hl : s.phase.Leaves) :
    s.phase.Parts ↔ (∃ earlier, s.reads = earlier ++ List.replicate cfg.maxErrors .failed) ∨
      (s.Asked cfg ∧ cfg.partsOnStop = true) := by
  have hc : Counts cfg s := counts_of_reaches hmax h
  constructor
  · intro hp
    refine (hc.cause hp).imp (fun he => ?_) id
    obtain ⟨earlier, heq, -⟩ := hc.errors
    exact ⟨earlier, by rw [← he, heq]⟩
  · rintro (⟨earlier, heq⟩ | ⟨-, hstop⟩)
    · have he : s.errors = cfg.maxErrors := (hc.first earlier [] (by rw [heq, List.append_nil])).1
      rcases hc.under with hu | ⟨-, -, hp⟩
      · omega
      · exact hp hr
    · rcases hl with hp | ⟨parted, hp⟩
      · exact Or.inl hp
      · cases parted with
        | true => exact Or.inr hp
        | false =>
          rw [(hc.silent hp hr).2] at hstop
          cases hstop

/-- So many failed reads in a row are the last ones, and the thread is at its end. -/
theorem leaves_of_failures {ok : State S R E → Action R → Prop} (hmax : 0 < cfg.maxErrors) {reader : S}
    {queued greeting : List E} {s : State S R E} (h : Reaches (step cfg parse) ok (.start reader queued greeting) s)
    {earlier later : List (Read R)} (he : s.reads = earlier ++ List.replicate cfg.maxErrors .failed ++ later) :
    later = [] ∧ s.phase.Leaves := by
  have hc : Counts cfg s := counts_of_reaches hmax h
  obtain ⟨herr, hlater⟩ := hc.first earlier later he
  rcases hc.under with hu | ⟨-, hl, -⟩
  · omega
  · exact ⟨hlater, hl⟩

/-! ### After a stop -/

/-- Asked to stop, and sure to see it: a read that has begun is the only one that may still come. -/
def Stopping (cfg : Config E) (before : List (Read R)) (s : State S R E) : Prop :=
  s.Asked cfg ∧ ∃ more, s.reads = before ++ more ∧ (more = [] ∨ (more.length = 1 ∧ s.phase ≠ .reading))

theorem stopping_step (hflag : cfg.flag ≠ .closingHides) {before : List (Read R)} {s s' : State S R E} {a : Action R}
    (h : Stopping cfg before s) (hs : step cfg parse s a = some s') : Stopping cfg before s' := by
  obtain ⟨hasked, more, hreads, hmore⟩ := h
  rcases step_cases hs with ⟨rfl, rfl⟩ | ⟨rfl, rfl⟩ | ⟨rfl, hp, rfl⟩ | ⟨outcome, rfl, hp, rfl⟩ | ⟨rfl, hs⟩ |
    ⟨e, rest, rfl, hq, rfl⟩ | ⟨rfl, rfl⟩
  · exact ⟨hasked.mono (fun _ => rfl) id, more, hreads, hmore⟩
  · exact ⟨hasked.mono id fun _ => rfl, more, hreads, hmore⟩
  · refine ⟨hasked, more, hreads, hmore.imp id fun hm => ⟨hm.1, ?_⟩⟩
    show afterCheck cfg (cfg.flag.seen s.stop s.closed) ≠ .reading
    rw [StopFlag.seen_of_asked hflag hasked]
    cases hc : cfg.partsOnStop <;> simp [afterCheck, hc]
  · obtain rfl : more = [] := hmore.resolve_right fun hm => hm.2 hp
    have hread : (s.read cfg parse outcome).reads = before ++ [outcome] := by
      cases outcome <;> simp [State.read, hreads]
    have hphase : (s.read cfg parse outcome).phase ≠ .reading := by
      cases outcome with
      | nothing => nofun
      | report r => nofun
      | failed =>
        simp only [State.read]
        split <;> nofun
    have hst : (s.read cfg parse outcome).Asked cfg := by cases outcome <;> exact hasked
    exact ⟨hst, [outcome], hread, Or.inr ⟨rfl, hphase⟩⟩
  · cases hr : s.receiving with
    | false =>
      obtain ⟨phase, rfl, hp, -⟩ := send_gone hr hs
      exact ⟨hasked, more, hreads, hmore.imp id fun hm => ⟨hm.1, hp⟩⟩
    | true =>
      obtain ⟨-, hreads', -, -, hstop, hclosed, -, hcase⟩ := send_cases hr hs
      refine ⟨hasked.mono (by rw [hstop]; exact id) (by rw [hclosed]; exact id), more, hreads'.trans hreads,
        hmore.imp id fun hm => ⟨hm.1, ?_⟩⟩
      rcases hcase with ⟨-, hp, -⟩ | ⟨e, rest, -, hp, -⟩ | ⟨e, rest, -, hp, -⟩ | ⟨-, hp, -⟩
      · rw [hp]
        nofun
      · exact (hp.cases cfg).2.2.1
      · exact (hp.cases cfg).2.2.1
      · rw [hp]
        nofun
  · exact ⟨hasked, more, hreads, hmore⟩
  · exact ⟨hasked, more, hreads, hmore⟩

/-- Once it is asked to stop, a thread that cannot miss it reads at most once more. -/
theorem reads_after_stop {ok : State S R E → Action R → Prop} (hflag : cfg.flag ≠ .closingHides) {s s' : State S R E}
    (hasked : s.Asked cfg) (h : Reaches (step cfg parse) ok s s') :
    ∃ more, s'.reads = s.reads ++ more ∧ more.length ≤ 1 := by
  have hinv : Stopping cfg s.reads s' := h.invariant (I := Stopping cfg s.reads)
    ⟨hasked, [], by rw [List.append_nil], Or.inl rfl⟩ fun _ _ _ hi _ hs => stopping_step hflag hi hs
  obtain ⟨-, more, hreads, hmore⟩ := hinv
  refine ⟨more, hreads, ?_⟩
  rcases hmore with rfl | ⟨hlen, -⟩
  · exact Nat.zero_le _
  · exact hlen.le

/-- The flag is gone, and the thread is not at its end unless its reads have failed. -/
structure Hidden (cfg : Config E) (s : State S R E) : Prop where
  closed : s.closed = true
  failed : s.receiving = true → s.phase.Leaves → s.errors = cfg.maxErrors

theorem hidden_step (hflag : cfg.flag = .closingHides) {s s' : State S R E} {a : Action R} (hc : Counts cfg s)
    (h : Hidden cfg s) (hs : step cfg parse s a = some s') : Hidden cfg s' := by
  rcases step_cases hs with ⟨rfl, rfl⟩ | ⟨rfl, rfl⟩ | ⟨rfl, hp, rfl⟩ | ⟨outcome, rfl, hp, rfl⟩ | ⟨rfl, hs⟩ |
    ⟨e, rest, rfl, hq, rfl⟩ | ⟨rfl, rfl⟩
  · exact ⟨h.closed, h.failed⟩
  · exact ⟨rfl, h.failed⟩
  · -- nothing of the stop is seen any more
    refine ⟨h.closed, fun _ hl => ?_⟩
    have hseen : cfg.flag.seen s.stop s.closed = false := by
      rw [hflag, h.closed]
      exact Bool.and_false _
    simp [afterCheck, hseen, Phase.Leaves] at hl
  · have hlt : s.errors < cfg.maxErrors := hc.under_of_reading hp
    cases outcome with
    | nothing => exact ⟨h.closed, fun _ hl => by simp [State.read, Phase.Leaves] at hl⟩
    | report r => exact ⟨h.closed, fun _ hl => by simp [State.read, Phase.Leaves] at hl⟩
    | failed =>
      refine ⟨h.closed, fun _ hl => ?_⟩
      by_cases hm : cfg.maxErrors ≤ s.errors + 1
      · exact le_antisymm hlt hm
      · simp [State.read, hm, Phase.Leaves] at hl
  · cases hr : s.receiving with
    | false =>
      obtain ⟨phase, rfl, -⟩ := send_gone hr hs
      refine ⟨h.closed, fun hr' => ?_⟩
      rw [hr] at hr'
      cases hr'
    | true =>
      obtain ⟨-, -, -, herrors, -, hclosed, -, hcase⟩ := send_cases hr hs
      refine ⟨hclosed.trans h.closed, fun _ hl => ?_⟩
      rcases hcase with ⟨-, hp, -⟩ | ⟨e, rest, -, hp, -⟩ | ⟨e, rest, -, hp, -⟩ | ⟨hp, -⟩
      · simp [hp, Phase.Leaves] at hl
      · exact absurd hl hp.not_leaves
      · exact absurd hl hp.not_leaves
      · rw [herrors]
        exact h.failed hr (Or.inl hp)
  · exact ⟨h.closed, h.failed⟩
  · exact ⟨h.closed, nofun⟩

/-- A thread that has missed the stop goes on until its reads fail, or nobody receives. -/
theorem failures_of_hidden {ok : State S R E → Action R → Prop} (hmax : 0 < cfg.maxErrors)
    (hflag : cfg.flag = .closingHides) {reader : S} {queued greeting : List E} {s s' : State S R E}
    (h : Reaches (step cfg parse) ok (.start reader queued greeting) s) (hclosed : s.closed = true)
    (hon : ¬s.phase.Leaves) (h' : Reaches (step cfg parse) ok s s') (hr : s'.receiving = true) (hl : s'.phase.Leaves) :
    ∃ earlier, s'.reads = earlier ++ List.replicate cfg.maxErrors .failed := by
  have hinv : Counts cfg s' ∧ Hidden cfg s' := h'.invariant (I := fun s => Counts cfg s ∧ Hidden cfg s)
    ⟨counts_of_reaches hmax h, hclosed, fun _ hl => absurd hl hon⟩
    fun _ _ _ hi _ hs => ⟨hi.1.step hmax hs, hidden_step hflag hi.1 hi.2 hs⟩
  obtain ⟨earlier, heq, -⟩ := hinv.1.errors
  exact ⟨earlier, by rw [← hinv.2.failed hr hl, heq]⟩

/-! ### A relay -/

/-- A task that takes the events of a thread and sends them on into a channel of its own. -/
structure Relay (S R E : Type) where
  inner : State S R E
  /-- What the task has to send next. -/
  held : Option E
  /-- That is the announcement it begins with, not an event of the thread. -/
  announcing : Bool
  running : Bool
  queue : List E
  receiving : Bool
  received : List E

inductive Relay.Action (R : Type) where
  /-- The thread does something, or is asked to stop. -/
  | inner (a : ReaderThread.Action R)
  | take
  | put
  /-- The thread has ended, and the task finds its channel empty. -/
  | finish
  | receive
  | dropReceiver

namespace Relay

/-- The task announces the device before it looks at the thread. -/
def start (inner : State S R E) (announcement : E) : Relay S R E where
  inner
  held := some announcement
  announcing := true
  running := true
  queue := []
  receiving := true
  received := []

variable (cfg) in
/-- The task sends what it holds, and waits for space; that nobody receives ends it, unless it is the announcement. -/
def put (r : Relay S R E) (e : E) : Option (Relay S R E) :=
  if r.receiving then
    if r.queue.length < cfg.capacity then
      some { r with held := none, announcing := false, queue := r.queue ++ [e] }
    else none
  else if r.announcing then some { r with held := none, announcing := false }
  else some { r with held := none, running := false, inner := { r.inner with receiving := false } }

variable (cfg parse) in
def step (r : Relay S R E) : Action R → Option (Relay S R E)
  | .inner a =>
    match a with
    | .receive | .dropReceiver => none
    | .stop | .close | .check | .read _ | .send =>
      (ReaderThread.step cfg parse r.inner a).map fun inner => { r with inner }
  | .take =>
    if r.running = true ∧ r.held.isNone = true then
      (ReaderThread.step cfg parse r.inner .receive).map fun inner => { r with inner, held := r.inner.queue.head? }
    else none
  | .put =>
    match r.held with
    | some e => if r.running then r.put cfg e else none
    | none => none
  | .finish =>
    match r.inner.phase with
    | .ended _ =>
      if r.held.isNone = true ∧ r.inner.queue.isEmpty = true then some { r with running := false } else none
    | _ => none
  | .receive =>
    match r.queue with
    | e :: rest => if r.receiving then some { r with queue := rest, received := r.received ++ [e] } else none
    | [] => none
  | .dropReceiver => some { r with receiving := false }

variable (cfg parse) in
/-- The task passes on what it takes, and the thread behind it runs as if it had a consumer of its own. -/
structure Passes (announcement : E) (start : State S R E) (r : Relay S R E) : Prop where
  inner : Reaches (ReaderThread.step cfg parse) Always start r.inner
  stream : r.receiving = true → r.inner.receiving = true ∧
    r.received ++ r.queue ++ r.held.toList = announcement :: r.inner.received

/-- A step of the thread, which is not the consumer, leaves what its consumer has. -/
theorem inner_kept {s s' : State S R E} {a : ReaderThread.Action R} (hs : ReaderThread.step cfg parse s a = some s')
    (hreceive : a ≠ .receive) (hdrop : a ≠ .dropReceiver) :
    s'.received = s.received ∧ s'.receiving = s.receiving := by
  rcases step_cases hs with ⟨rfl, rfl⟩ | ⟨rfl, rfl⟩ | ⟨rfl, hp, rfl⟩ | ⟨outcome, rfl, hp, rfl⟩ | ⟨rfl, hs⟩ |
    ⟨e, rest, rfl, hq, rfl⟩ | ⟨rfl, rfl⟩
  · exact ⟨rfl, rfl⟩
  · exact ⟨rfl, rfl⟩
  · exact ⟨rfl, rfl⟩
  · cases outcome <;> exact ⟨rfl, rfl⟩
  · cases hr : s.receiving with
    | false =>
      obtain ⟨phase, rfl, -⟩ := send_gone hr hs
      exact ⟨rfl, hr⟩
    | true =>
      obtain ⟨hr', -, -, -, -, -, hrec, -⟩ := send_cases hr hs
      exact ⟨hrec, hr'⟩
  · exact absurd rfl hreceive
  · exact absurd rfl hdrop

theorem Passes.thread {announcement : E} {start : State S R E} {r : Relay S R E}
    (h : Passes cfg parse announcement start r) {a : ReaderThread.Action R} {inner : State S R E}
    (hs : ReaderThread.step cfg parse r.inner a = some inner) (hreceive : a ≠ .receive) (hdrop : a ≠ .dropReceiver) :
    Passes cfg parse announcement start { r with inner } where
  inner := h.inner.tail trivial hs
  stream := fun hr => by
    obtain ⟨hrec, hrcv⟩ := inner_kept hs hreceive hdrop
    rw [hrec, hrcv]
    exact h.stream hr

theorem passes_step {announcement : E} {start : State S R E} {r r' : Relay S R E} {a : Action R}
    (h : Passes cfg parse announcement start r) (hs : r.step cfg parse a = some r') :
    Passes cfg parse announcement start r' := by
  cases a with
  | inner a =>
    cases a with
    | receive => cases hs
    | dropReceiver => cases hs
    | stop | close | check | read _ | send =>
      simp only [step] at hs
      obtain ⟨inner, hinner, rfl⟩ := Option.map_eq_some_iff.1 hs
      exact h.thread hinner nofun nofun
  | take =>
    simp only [step] at hs
    obtain ⟨⟨-, hheld⟩, hs⟩ := Option.ite_none_right_eq_some.1 hs
    obtain ⟨inner, hinner, rfl⟩ := Option.map_eq_some_iff.1 hs
    have hheld : r.held = none := Option.isNone_iff_eq_none.1 hheld
    refine ⟨h.inner.tail trivial hinner, fun hr => ?_⟩
    obtain ⟨hrcv, hstream⟩ := h.stream hr
    simp only [ReaderThread.step] at hinner
    split at hinner
    · rename_i e rest hq
      obtain ⟨-, hinner⟩ := Option.ite_none_right_eq_some.1 hinner
      obtain rfl := Option.some.inj hinner
      refine ⟨hrcv, ?_⟩
      rw [hheld, Option.toList_none, List.append_nil] at hstream
      simp only [hq, List.head?_cons, Option.toList_some]
      rw [hstream, List.cons_append]
    · cases hinner
  | put =>
    simp only [step] at hs
    split at hs
    · rename_i e hheld
      obtain ⟨-, hs⟩ := Option.ite_none_right_eq_some.1 hs
      unfold put at hs
      by_cases hr : r.receiving = true
      · rw [if_pos hr] at hs
        obtain ⟨-, hs⟩ := Option.ite_none_right_eq_some.1 hs
        obtain rfl := Option.some.inj hs
        refine ⟨h.inner, fun _ => ⟨(h.stream hr).1, ?_⟩⟩
        rw [← (h.stream hr).2, hheld]
        simp
      · rw [if_neg hr] at hs
        split at hs
        · obtain rfl := Option.some.inj hs
          exact ⟨h.inner, fun hr' => absurd hr' hr⟩
        · obtain rfl := Option.some.inj hs
          exact ⟨h.inner.tail (a := .dropReceiver) trivial rfl, fun hr' => absurd hr' hr⟩
    · cases hs
  | finish =>
    simp only [step] at hs
    split at hs
    · obtain ⟨-, hs⟩ := Option.ite_none_right_eq_some.1 hs
      obtain rfl := Option.some.inj hs
      exact ⟨h.inner, h.stream⟩
    · cases hs
  | receive =>
    simp only [step] at hs
    split at hs
    · rename_i e rest hq
      obtain ⟨-, hs⟩ := Option.ite_none_right_eq_some.1 hs
      obtain rfl := Option.some.inj hs
      refine ⟨h.inner, fun hr => ⟨(h.stream hr).1, ?_⟩⟩
      rw [← (h.stream hr).2, hq]
      simp
    · cases hs
  | dropReceiver =>
    obtain rfl := Option.some.inj hs
    exact ⟨h.inner, nofun⟩

/-- Behind a relay the consumer has and gets the announcement, and then what it would have and get without one. -/
theorem passes {announcement : E} {s : State S R E} (hs : s.receiving = true ∧ s.received = []) {r : Relay S R E}
    (h : Reaches (step cfg parse) Always (start s announcement) r) : Passes cfg parse announcement s r :=
  h.invariant (I := Passes cfg parse announcement s)
    ⟨.refl _ _ _, fun _ => ⟨hs.1, by simp [start, hs.2]⟩⟩ fun _ _ _ hp _ hs => passes_step hp hs

end Relay

end Model

end ReaderThread
