/-!
# Watch and queue channels

The two channels an asynchronous task waits on, and the choice between several of them.

* `Watch` keeps only the latest value, with a version that every send raises.  A receiver is the version it has seen
  last: it is woken by any other version, and by the loss of the last sender only once it has seen the newest value.
  A receiver that is cloned starts from the version of the original.
* `Mpsc` is an unbounded-order queue: values are received in the order they were sent, and the end of the stream is
  reported when the last sender is gone and the queue is empty.
* In a select a branch whose pattern does not match the polled value is `disabled` for that round; the `else` arm is
  taken only when every branch is disabled.
-/

namespace Channel

/-- The state of a future that was polled. -/
inductive Poll (α : Type) where
  | pending
  | ready (a : α)
deriving DecidableEq

/-- A branch of a select drops out of the round when its value is there and its pattern does not match it. -/
def disabled {α : Type} (pat : α → Bool) : Poll α → Bool
  | .pending => false
  | .ready a => !pat a

/-- A branch whose pattern matches every value is never disabled. -/
theorem disabled_wildcard {α : Type} (p : Poll α) : disabled (fun _ => true) p = false := by
  cases p <;> rfl

structure Watch (α : Type) where
  value : α
  version : Nat
  /-- Every sender has been dropped. -/
  closed : Bool
deriving DecidableEq

namespace Watch

variable {α : Type}

def channel (a : α) : Watch α := ⟨a, 0, false⟩

def send (w : Watch α) (a : α) : Watch α := { w with value := a, version := w.version + 1 }

def dropSenders (w : Watch α) : Watch α := { w with closed := true }

/-- `changed` of a receiver that has seen version `seen`: `true` for a new value, `false` for a lost sender. -/
def changed (w : Watch α) (seen : Nat) : Poll Bool :=
  if w.version ≠ seen then .ready true else if w.closed then .ready false else .pending

@[simp] theorem send_value (w : Watch α) (a : α) : (w.send a).value = a := rfl

@[simp] theorem send_version (w : Watch α) (a : α) : (w.send a).version = w.version + 1 := rfl

theorem changed_pending_iff {w : Watch α} {seen : Nat} :
    w.changed seen = .pending ↔ w.version = seen ∧ w.closed = false := by
  unfold changed
  split
  · simp_all
  · split <;> simp_all

theorem changed_ready_true_iff {w : Watch α} {seen : Nat} :
    w.changed seen = .ready true ↔ w.version ≠ seen := by
  unfold changed
  split
  · simp_all
  · split <;> simp_all

end Watch

structure Mpsc (α : Type) where
  queue : List α
  /-- Every sender has been dropped. -/
  closed : Bool
deriving DecidableEq

namespace Mpsc

variable {α : Type}

def send (c : Mpsc α) (a : α) : Mpsc α := { c with queue := c.queue ++ [a] }

def dropSenders (c : Mpsc α) : Mpsc α := { c with closed := true }

/-- `recv`: the next value, `none` once the stream is over. -/
def recv (c : Mpsc α) : Poll (Option α) :=
  match c.queue with
  | a :: _ => .ready (some a)
  | [] => if c.closed then .ready none else .pending

def pop (c : Mpsc α) : Mpsc α := { c with queue := c.queue.tail }

/-- Every sender is gone and every value has been received. -/
def Over (c : Mpsc α) : Prop := c.closed = true ∧ c.queue = []

theorem recv_of_over {c : Mpsc α} (h : c.Over) : c.recv = .ready none := by
  unfold recv
  rw [h.2]
  simp [h.1]

theorem recv_some {c : Mpsc α} {a : α} (h : c.recv = .ready (some a)) : c.queue = a :: c.pop.queue := by
  unfold recv at h
  split at h
  · rename_i b rest hq
    simp only [Poll.ready.injEq, Option.some.injEq] at h
    subst h
    simp [pop, hq]
  · split at h <;> cases h

end Mpsc

end Channel
