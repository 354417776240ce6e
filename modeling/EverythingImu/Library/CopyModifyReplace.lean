import EverythingImu.Library.StepRun

/-!
# Copy, modify, replace

Any number of calls share a cell.  A call copies the whole value out of the cell, changes one field of its copy, and
puts the whole copy back; the steps of different calls interleave.  A call may so undo what another call has written
between its copy and its replacement.

`Writes` is what is asked of the writes: two writes of one field overwrite each other, and writes of different fields
commute.  Then no write is lost along a run in which a call copies only while every call in flight writes the same
field as it does (`Separate`): once all calls are done, each field that was written holds the value of one of the
calls that wrote it (`written_of_reaches`).
-/

namespace CopyModifyReplace

open StepRun

/-- A place that holds a value. -/
structure Cell (S C : Type*) where
  read : S → C
  write : S → C → S
  read_write : ∀ s c, read (write s c) = c

/-- Writes of single fields of a value. -/
structure Writes (W F C : Type*) where
  field : W → F
  apply : W → C → C
  overwrite : ∀ w w' c, field w = field w' → apply w (apply w' c) = apply w c
  commute : ∀ w w' c, field w ≠ field w' → apply w (apply w' c) = apply w' (apply w c)

/-- How far a call has come. -/
inductive Stage (C : Type*) where
  | ready
  | copied (c : C)
  | modified (c : C)
  | done
deriving DecidableEq

structure Call (W C : Type*) where
  write : W
  stage : Stage C

def Stage.inFlight {C : Type*} : Stage C → Bool
  | .copied _ => true
  | .modified _ => true
  | _ => false

structure State (S W C : Type*) where
  cell : S
  calls : List (Call W C)

inductive Action (W : Type*) where
  | invoke (w : W)
  | copy (k : Nat)
  | modify (k : Nat)
  | replace (k : Nat)

variable {S W F C : Type*} (cell : Cell S C) (ws : Writes W F C)

def State.setStage (s : State S W C) (k : Nat) (w : W) (stage : Stage C) : State S W C :=
  { s with calls := s.calls.set k ⟨w, stage⟩ }

def step (s : State S W C) : Action W → Option (State S W C)
  | .invoke w => some { s with calls := s.calls ++ [⟨w, .ready⟩] }
  | .copy k =>
    match s.calls[k]? with
    | some ⟨w, .ready⟩ => some (s.setStage k w (.copied (cell.read s.cell)))
    | _ => none
  | .modify k =>
    match s.calls[k]? with
    | some ⟨w, .copied c⟩ => some (s.setStage k w (.modified (ws.apply w c)))
    | _ => none
  | .replace k =>
    match s.calls[k]? with
    | some ⟨w, .modified c⟩ => some { s.setStage k w .done with cell := cell.write s.cell c }
    | _ => none

/-- A call copies only while every call in flight writes the same field. -/
def Separate [DecidableEq F] (s : State S W C) : Action W → Bool
  | .copy k =>
    match s.calls[k]? with
    | some call => s.calls.all fun c => !c.stage.inFlight || decide (ws.field c.write = ws.field call.write)
    | none => true
  | _ => true

/-- The value `c` holds what `w` writes. -/
def Writes.Written (w : W) (c : C) : Prop := ws.apply w c = c

theorem Writes.written_apply (w : W) (c : C) : ws.Written w (ws.apply w c) := ws.overwrite w w c rfl

/-- A write of another field leaves what `w` has written. -/
theorem Writes.Written.apply_ne {w w' : W} {c : C} (h : ws.Written w c) (hne : ws.field w ≠ ws.field w') :
    ws.Written w (ws.apply w' c) := by
  unfold Writes.Written at h ⊢
  rw [ws.commute w w' c hne, h]

/-- What a call in flight holds: its write of the copy is its write of the current value. -/
def Stage.Fresh (w : W) (current : C) : Stage C → Prop
  | .copied c => ws.apply w c = ws.apply w current
  | .modified c => c = ws.apply w current
  | _ => True

structure Invariant (s : State S W C) : Prop where
  /-- The calls in flight all write one field. -/
  oneField : ∀ (i j : Nat) (a b : Call W C), s.calls[i]? = some a → s.calls[j]? = some b → a.stage.inFlight = true →
    b.stage.inFlight = true → ws.field a.write = ws.field b.write
  fresh : ∀ (i : Nat) (a : Call W C), s.calls[i]? = some a → a.stage.Fresh ws a.write (cell.read s.cell)
  /-- The field of a finished call holds the value of a finished call. -/
  held : ∀ (i : Nat) (a : Call W C), s.calls[i]? = some a → a.stage = .done →
    ∃ (j : Nat) (b : Call W C), s.calls[j]? = some b ∧ b.stage = .done ∧ ws.field b.write = ws.field a.write ∧
      ws.Written b.write (cell.read s.cell)

theorem invariant_start (c : S) : Invariant cell ws ⟨c, []⟩ where
  oneField := by simp
  fresh := by simp
  held := by simp

variable {cell ws}

private theorem getElem?_setStage {s : State S W C} {k i : Nat} {w : W} {stage : Stage C} {a b : Call W C}
    (hk : s.calls[k]? = some b) :
    (s.setStage k w stage).calls[i]? = some a ↔ (i = k ∧ a = ⟨w, stage⟩) ∨ (i ≠ k ∧ s.calls[i]? = some a) := by
  have hlen : k < s.calls.length := (List.getElem?_eq_some_iff.1 hk).1
  unfold State.setStage
  simp only
  rw [List.getElem?_set]
  by_cases hik : k = i
  · subst hik
    simp [hlen, eq_comm]
  · simp [hik, Ne.symm hik]

/-- A step of call `k` that does not touch the cell and leaves the call unfinished keeps what finished calls hold. -/
private theorem held_setStage {s : State S W C} {k : Nat} {w : W} {stage : Stage C} {b : Call W C}
    (h : Invariant cell ws s) (hk : s.calls[k]? = some b) (hb : b.stage ≠ .done) (hs : stage ≠ .done) :
    ∀ (i : Nat) (a : Call W C), (s.setStage k w stage).calls[i]? = some a → a.stage = .done →
      ∃ (j : Nat) (b : Call W C), (s.setStage k w stage).calls[j]? = some b ∧ b.stage = .done ∧
        ws.field b.write = ws.field a.write ∧ ws.Written b.write (cell.read s.cell) := by
  intro i a hi ha
  rcases (getElem?_setStage hk).1 hi with ⟨-, rfl⟩ | ⟨-, hi⟩
  · exact absurd ha hs
  · obtain ⟨j, b', hj, hdone, hfield, hwr⟩ := h.held i a hi ha
    refine ⟨j, b', (getElem?_setStage hk).2 (Or.inr ⟨?_, hj⟩), hdone, hfield, hwr⟩
    rintro rfl
    rw [hk] at hj
    cases hj
    exact hb hdone

theorem Invariant.invoke {s : State S W C} (h : Invariant cell ws s) (w : W) :
    Invariant cell ws { s with calls := s.calls ++ [⟨w, .ready⟩] } := by
  have hold : ∀ (i : Nat) (a : Call W C), (s.calls ++ [⟨w, .ready⟩])[i]? = some a →
      s.calls[i]? = some a ∨ a = ⟨w, .ready⟩ := by
    intro i a hi
    rw [List.getElem?_append] at hi
    split at hi
    · exact Or.inl hi
    · exact Or.inr (by simpa [eq_comm] using List.mem_of_getElem? hi)
  refine ⟨?_, ?_, ?_⟩
  · intro i j a b hi hj ha hb
    rcases hold i a hi with hi | rfl
    · rcases hold j b hj with hj | rfl
      · exact h.oneField i j a b hi hj ha hb
      · cases hb
    · cases ha
  · intro i a hi
    rcases hold i a hi with hi | rfl
    · exact h.fresh i a hi
    · trivial
  · intro i a hi ha
    rcases hold i a hi with hi | rfl
    · obtain ⟨j, b, hj, hb⟩ := h.held i a hi ha
      exact ⟨j, b, by rw [List.getElem?_append_left (List.getElem?_eq_some_iff.1 hj).1]; exact hj, hb⟩
    · cases ha

theorem Invariant.copy [DecidableEq F] {s : State S W C} {k : Nat} {w : W} (h : Invariant cell ws s)
    (hk : s.calls[k]? = some ⟨w, .ready⟩) (hsep : Separate ws s (.copy k) = true) :
    Invariant cell ws (s.setStage k w (.copied (cell.read s.cell))) := by
  have hfield : ∀ (i : Nat) (a : Call W C), s.calls[i]? = some a → a.stage.inFlight = true →
      ws.field a.write = ws.field w := by
    intro i a hi ha
    simp only [Separate, hk] at hsep
    have := List.all_eq_true.1 hsep a (List.mem_of_getElem? hi)
    simpa [ha] using this
  refine ⟨?_, ?_, held_setStage h hk (by simp) (by simp)⟩
  · intro i j a b hi hj ha hb
    rcases (getElem?_setStage hk).1 hi with ⟨-, rfl⟩ | ⟨-, hi⟩
    · rcases (getElem?_setStage hk).1 hj with ⟨-, rfl⟩ | ⟨-, hj⟩
      · rfl
      · exact (hfield j b hj hb).symm
    · rcases (getElem?_setStage hk).1 hj with ⟨-, rfl⟩ | ⟨-, hj⟩
      · exact hfield i a hi ha
      · exact h.oneField i j a b hi hj ha hb
  · intro i a hi
    rcases (getElem?_setStage hk).1 hi with ⟨-, rfl⟩ | ⟨-, hi⟩
    · rfl
    · exact h.fresh i a hi

theorem Invariant.modify {s : State S W C} {k : Nat} {w : W} {c : C} (h : Invariant cell ws s)
    (hk : s.calls[k]? = some ⟨w, .copied c⟩) : Invariant cell ws (s.setStage k w (.modified (ws.apply w c))) := by
  refine ⟨?_, ?_, held_setStage h hk (by simp) (by simp)⟩
  · intro i j a b hi hj ha hb
    -- the call was in flight before, under the same write
    have hold : ∀ (i : Nat) (a : Call W C), (s.setStage k w (.modified (ws.apply w c))).calls[i]? = some a →
        a.stage.inFlight = true →
          ∃ a' : Call W C, s.calls[i]? = some a' ∧ a'.stage.inFlight = true ∧ a'.write = a.write := by
      intro i a hi ha
      rcases (getElem?_setStage hk).1 hi with ⟨rfl, rfl⟩ | ⟨-, hi⟩
      · exact ⟨_, hk, rfl, rfl⟩
      · exact ⟨a, hi, ha, rfl⟩
    obtain ⟨a', hi', ha', hwa⟩ := hold i a hi ha
    obtain ⟨b', hj', hb', hwb⟩ := hold j b hj hb
    rw [← hwa, ← hwb]
    exact h.oneField i j a' b' hi' hj' ha' hb'
  · intro i a hi
    rcases (getElem?_setStage hk).1 hi with ⟨-, rfl⟩ | ⟨-, hi⟩
    · have hcopied : (Stage.copied c).Fresh ws w (cell.read s.cell) := h.fresh k _ hk
      exact hcopied
    · exact h.fresh i a hi

theorem Invariant.replace {s : State S W C} {k : Nat} {w : W} {c : C} (h : Invariant cell ws s)
    (hk : s.calls[k]? = some ⟨w, .modified c⟩) :
    Invariant cell ws { s.setStage k w .done with cell := cell.write s.cell c } := by
  have hc : c = ws.apply w (cell.read s.cell) := h.fresh k _ hk
  have hread : cell.read (cell.write s.cell c) = ws.apply w (cell.read s.cell) := by rw [cell.read_write, hc]
  have hself : (s.setStage k w .done).calls[k]? = some ⟨w, .done⟩ := (getElem?_setStage hk).2 (Or.inl ⟨rfl, rfl⟩)
  refine ⟨?_, ?_, ?_⟩
  · intro i j a b hi hj ha hb
    rcases (getElem?_setStage hk).1 hi with ⟨-, rfl⟩ | ⟨-, hi⟩
    · cases ha
    · rcases (getElem?_setStage hk).1 hj with ⟨-, rfl⟩ | ⟨-, hj⟩
      · cases hb
      · exact h.oneField i j a b hi hj ha hb
  · intro i a hi
    simp only [hread]
    rcases (getElem?_setStage hk).1 hi with ⟨-, rfl⟩ | ⟨-, hi⟩
    · trivial
    · have hfresh := h.fresh i a hi
      -- a call in flight overwrites what was put back, since it writes the same field
      have hover : a.stage.inFlight = true →
          ws.apply a.write (ws.apply w (cell.read s.cell)) = ws.apply a.write (cell.read s.cell) :=
        fun ha => ws.overwrite _ _ _ (h.oneField i k a _ hi hk ha rfl)
      obtain ⟨aw, stage⟩ := a
      cases stage with
      | ready => trivial
      | done => trivial
      | copied c' => exact hfresh.trans (hover rfl).symm
      | modified c' => exact hfresh.trans (hover rfl).symm
  · intro i a hi ha
    simp only [hread]
    by_cases hf : ws.field w = ws.field a.write
    · exact ⟨k, _, hself, rfl, hf, ws.written_apply w _⟩
    · rcases (getElem?_setStage hk).1 hi with ⟨-, rfl⟩ | ⟨-, hi⟩
      · exact absurd rfl hf
      · obtain ⟨j, b, hj, hb, hfb, hwr⟩ := h.held i a hi ha
        refine ⟨j, b, (getElem?_setStage hk).2 (Or.inr ⟨?_, hj⟩), hb, hfb, hwr.apply_ne ws ?_⟩
        · rintro rfl
          rw [hk] at hj
          cases hj
          cases hb
        · rw [hfb]
          exact Ne.symm hf

/-- Every separate step keeps the invariant. -/
theorem Invariant.step [DecidableEq F] {s s' : State S W C} {a : Action W} (h : Invariant cell ws s)
    (hsep : Separate ws s a = true) (hs : step cell ws s a = some s') : Invariant cell ws s' := by
  cases a with
  | invoke w =>
    cases hs
    exact h.invoke w
  | copy k =>
    simp only [CopyModifyReplace.step] at hs
    split at hs
    · rename_i w hk
      cases hs
      exact h.copy hk hsep
    · cases hs
  | modify k =>
    simp only [CopyModifyReplace.step] at hs
    split at hs
    · rename_i w c hk
      cases hs
      exact h.modify hk
    · cases hs
  | replace k =>
    simp only [CopyModifyReplace.step] at hs
    split at hs
    · rename_i w c hk
      cases hs
      exact h.replace hk
    · cases hs

/-- Along separate steps no write is lost: the field of a finished call holds the value of a finished call. -/
theorem written_of_reaches [DecidableEq F] {c : S} {s : State S W C}
    (h : Reaches (CopyModifyReplace.step cell ws) (fun s a => Separate ws s a = true) ⟨c, []⟩ s) {call : Call W C}
    (hmem : call ∈ s.calls) (hdone : call.stage = .done) :
    ∃ call' ∈ s.calls, call'.stage = .done ∧ ws.field call'.write = ws.field call.write ∧
      ws.Written call'.write (cell.read s.cell) := by
  have hinv : Invariant cell ws s :=
    h.invariant (invariant_start cell ws c) fun _ _ _ hi hok hs => hi.step hok hs
  obtain ⟨i, hi⟩ := List.mem_iff_getElem?.1 hmem
  obtain ⟨j, b, hj, hb⟩ := hinv.held i call hi hdone
  exact ⟨b, List.mem_of_getElem? hj, hb⟩

end CopyModifyReplace
