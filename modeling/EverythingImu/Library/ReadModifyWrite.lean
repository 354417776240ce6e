import EverythingImu.Library.StepRun

/-!
# Read, modify, write

Any number of commands edit a value that is kept in a cell.  A command reads the whole value, edits what it has read,
and writes the result; the steps of different commands interleave.  A command may fail before it writes.  A command
that writes an edit of a value which is no longer in the cell undoes what was written in between.

Along a run in which a command writes only while the cell still holds what the command has read (`UpToDate`), each
write is an edit of the current value: the cell then holds what the acknowledged commands give one after another
(`serial_of_reaches`).
-/

namespace ReadModifyWrite

open StepRun

/-- The value in a cell, and what the commands do to it. -/
structure Store (S W C : Type*) where
  read : S → C
  write : S → C → S
  edit : W → C → C

/-- How far a command has come. -/
inductive Stage (C : Type*) where
  | ready
  | editing (seen : C)
  | acknowledged
  | failed
deriving DecidableEq

structure Command (W C : Type*) where
  edit : W
  stage : Stage C
deriving DecidableEq

structure State (S W C : Type*) where
  cell : S
  commands : List (Command W C)

inductive Action (W : Type*) where
  | invoke (w : W)
  | read (k : Nat)
  | write (k : Nat)
  | fail (k : Nat)

variable {S W C : Type*} (m : Store S W C)

def State.setStage (s : State S W C) (k : Nat) (w : W) (stage : Stage C) : State S W C :=
  { s with commands := s.commands.set k ⟨w, stage⟩ }

def step (s : State S W C) : Action W → Option (State S W C)
  | .invoke w => some { s with commands := s.commands ++ [⟨w, .ready⟩] }
  | .read k =>
    match s.commands[k]? with
    | some ⟨w, .ready⟩ => some (s.setStage k w (.editing (m.read s.cell)))
    | _ => none
  | .write k =>
    match s.commands[k]? with
    | some ⟨w, .editing seen⟩ =>
      some { s.setStage k w .acknowledged with cell := m.write s.cell (m.edit w seen) }
    | _ => none
  | .fail k =>
    match s.commands[k]? with
    | some ⟨w, .ready⟩ => some (s.setStage k w .failed)
    | some ⟨w, .editing _⟩ => some (s.setStage k w .failed)
    | _ => none

/-- A command writes only while the cell holds what the command has read. -/
def UpToDate (s : State S W C) : Action W → Prop
  | .write k =>
    match s.commands[k]? with
    | some ⟨_, .editing seen⟩ => m.read s.cell = seen
    | _ => True
  | _ => True

def Command.acknowledged : Command W C → Option W
  | ⟨w, .acknowledged⟩ => some w
  | _ => none

/-- The edits of the commands that have written. -/
def State.acknowledged (s : State S W C) : List W := s.commands.filterMap Command.acknowledged

/-- What the edits give one after another. -/
def Store.serial (order : List W) (c : C) : C := order.foldl (fun c w => m.edit w c) c

theorem Store.serial_append_singleton (order : List W) (w : W) (c : C) :
    m.serial (order ++ [w]) c = m.edit w (m.serial order c) := by
  simp [Store.serial]

/-- What holds at first and is kept by every edit holds after any edits one after another. -/
theorem Store.serial_induction {P : C → Prop} (hedit : ∀ w c, P c → P (m.edit w c)) {c : C} (h : P c)
    (order : List W) : P (m.serial order c) := by
  induction order generalizing c with
  | nil => exact h
  | cons w order ih => exact ih (hedit w c h)

/-! ### The acknowledged commands -/

section Acknowledged

variable {α β : Type*} {f : α → Option β} {l : List α} {k : Nat} {a a' : α}

private theorem filterMap_set_none (hk : l[k]? = some a) (ha : f a = none) (ha' : f a' = none) :
    (l.set k a').filterMap f = l.filterMap f := by
  induction l generalizing k with
  | nil => rfl
  | cons x l ih =>
    cases k with
    | zero =>
      obtain rfl : x = a := by simpa using hk
      rw [List.set_cons_zero, List.filterMap_cons_none ha', List.filterMap_cons_none ha]
    | succ k =>
      have hl := ih (k := k) (by simpa using hk)
      rw [List.set_cons_succ, List.filterMap_cons, List.filterMap_cons, hl]

private theorem filterMap_set_some {b : β} (hk : l[k]? = some a) (ha : f a = none) (ha' : f a' = some b) :
    ((l.set k a').filterMap f).Perm (b :: l.filterMap f) := by
  induction l generalizing k with
  | nil => cases hk
  | cons x l ih =>
    cases k with
    | zero =>
      obtain rfl : x = a := by simpa using hk
      rw [List.set_cons_zero, List.filterMap_cons_some ha', List.filterMap_cons_none ha]
    | succ k =>
      have hl := ih (k := k) (by simpa using hk)
      rw [List.set_cons_succ, List.filterMap_cons, List.filterMap_cons]
      cases f x with
      | none => exact hl
      | some c => exact (hl.cons c).trans (List.Perm.swap b c _)

end Acknowledged

theorem acknowledged_invoke (s : State S W C) (w : W) :
    State.acknowledged { s with commands := s.commands ++ [⟨w, .ready⟩] } = s.acknowledged := by
  simp [State.acknowledged, Command.acknowledged]

variable {m} {s s' : State S W C} {k : Nat} {w : W}

theorem acknowledged_setStage {stage stage' : Stage C} (hk : s.commands[k]? = some ⟨w, stage⟩)
    (h : Command.acknowledged ⟨w, stage⟩ = none) (h' : Command.acknowledged ⟨w, stage'⟩ = none) :
    (s.setStage k w stage').acknowledged = s.acknowledged :=
  filterMap_set_none hk h h'

theorem acknowledged_write {seen : C} (hk : s.commands[k]? = some ⟨w, .editing seen⟩) :
    (s.setStage k w .acknowledged).acknowledged.Perm (w :: s.acknowledged) :=
  filterMap_set_some hk rfl rfl

/-- When all commands are acknowledged, their edits are the acknowledged ones. -/
theorem acknowledged_eq_map (h : ∀ c ∈ s.commands, c.stage = .acknowledged) :
    s.acknowledged = s.commands.map Command.edit := by
  unfold State.acknowledged
  generalize s.commands = commands at h
  induction commands with
  | nil => rfl
  | cons c commands ih =>
    obtain ⟨w, stage⟩ := c
    obtain rfl : stage = .acknowledged := h _ List.mem_cons_self
    have hw : Command.acknowledged (⟨w, .acknowledged⟩ : Command W C) = some w := rfl
    rw [List.filterMap_cons_some hw, ih fun c hc => h c (List.mem_cons_of_mem _ hc), List.map_cons]

/-! ### Runs -/

/-- The cell holds what the acknowledged edits give one after another in some order. -/
def Serial (m : Store S W C) (c₀ : C) (s : State S W C) : Prop :=
  ∃ order : List W, order.Perm s.acknowledged ∧ m.read s.cell = m.serial order c₀

/-- What a step does to the cell and to the acknowledged edits. -/
theorem step_cases {a : Action W} (h : step m s a = some s') :
    (s'.cell = s.cell ∧ s'.acknowledged = s.acknowledged) ∨
      ∃ k w seen, a = .write k ∧ s.commands[k]? = some ⟨w, .editing seen⟩ ∧
        s'.cell = m.write s.cell (m.edit w seen) ∧ s'.acknowledged.Perm (w :: s.acknowledged) := by
  cases a with
  | invoke w =>
    cases h
    exact Or.inl ⟨rfl, acknowledged_invoke s w⟩
  | read k =>
    simp only [step] at h
    split at h
    · rename_i w hk
      cases h
      exact Or.inl ⟨rfl, acknowledged_setStage hk rfl rfl⟩
    · cases h
  | write k =>
    simp only [step] at h
    split at h
    · rename_i w seen hk
      cases h
      exact Or.inr ⟨k, w, seen, rfl, hk, rfl, acknowledged_write hk⟩
    · cases h
  | fail k =>
    simp only [step] at h
    split at h
    · rename_i w hk
      cases h
      exact Or.inl ⟨rfl, acknowledged_setStage hk rfl rfl⟩
    · rename_i w seen hk
      cases h
      exact Or.inl ⟨rfl, acknowledged_setStage hk rfl rfl⟩
    · cases h

/-- An up-to-date step keeps the cell serial. -/
theorem serial_step (hrw : ∀ s c, m.read (m.write s c) = c) {c₀ : C} {a : Action W} (h : Serial m c₀ s)
    (hok : UpToDate m s a) (hs : step m s a = some s') : Serial m c₀ s' := by
  obtain ⟨order, hperm, hread⟩ := h
  rcases step_cases hs with ⟨hcell, hack⟩ | ⟨k, w, seen, rfl, hk, hcell, hack⟩
  · exact ⟨order, by rwa [hack], by rw [hcell, hread]⟩
  · have hseen : m.read s.cell = seen := by simpa only [UpToDate, hk] using hok
    refine ⟨order ++ [w], ?_, ?_⟩
    · calc
        (order ++ [w]).Perm (w :: order) := List.perm_append_singleton w order
        List.Perm _ (w :: s.acknowledged) := hperm.cons w
        List.Perm _ s'.acknowledged := hack.symm
    · rw [hcell, hrw, ← hseen, hread, Store.serial_append_singleton]

/-- Along up-to-date steps the cell holds what the acknowledged commands give one after another. -/
theorem serial_of_reaches (hrw : ∀ s c, m.read (m.write s c) = c) {cell : S}
    (h : Reaches (step m) (UpToDate m) ⟨cell, []⟩ s) : Serial m (m.read cell) s :=
  h.invariant ⟨[], List.Perm.refl _, rfl⟩ fun _ _ _ hs hok hstep => serial_step hrw hs hok hstep

/-- A command that runs on its own, after any run, is up to date. -/
theorem reaches_alone {cell : S} (h : Reaches (step m) (UpToDate m) ⟨cell, []⟩ s) (w : W) :
    Reaches (step m) (UpToDate m) ⟨cell, []⟩
      ⟨m.write s.cell (m.edit w (m.read s.cell)), s.commands ++ [⟨w, .acknowledged⟩]⟩ := by
  have hlast : ∀ stage : Stage C, (s.commands ++ [⟨w, stage⟩])[s.commands.length]? = some ⟨w, stage⟩ := by simp
  have hset : ∀ c c' : Command W C, (s.commands ++ [c]).set s.commands.length c' = s.commands ++ [c'] := by simp
  have hinvoked : Reaches (step m) (UpToDate m) ⟨cell, []⟩ ⟨s.cell, s.commands ++ [⟨w, .ready⟩]⟩ :=
    h.tail (a := .invoke w) trivial rfl
  have hread : Reaches (step m) (UpToDate m) ⟨cell, []⟩ ⟨s.cell, s.commands ++ [⟨w, .editing (m.read s.cell)⟩]⟩ := by
    refine hinvoked.tail (a := .read s.commands.length) trivial ?_
    simp only [step, hlast, State.setStage, hset]
  refine hread.tail (a := .write s.commands.length) ?_ ?_
  · simp only [UpToDate, hlast]
  · simp only [step, hlast, State.setStage, hset]

end ReadModifyWrite
