import Mathlib.Data.List.AList

/-!
# A table of slots with an index

Every value that was added keeps its slot, and an index tells which slot is current for a key.  Values change in their
slot; keys are pointed at a slot and forgotten.

Two kinds of invariant have rules for every operation: what holds of the value in every slot (`All`), and what holds
of the value in the current slot of every key (`Current`).
-/

structure SlotTable (K V : Type) [DecidableEq K] where
  slots : List V
  index : AList fun _ : K => Nat

namespace SlotTable

variable {K V : Type} [DecidableEq K]

def empty : SlotTable K V := ⟨[], ∅⟩

def slot (t : SlotTable K V) (n : Nat) : Option V := t.slots[n]?

def current (t : SlotTable K V) (k : K) : Option Nat := t.index.lookup k

/-- Add a value in a new slot. -/
def push (t : SlotTable K V) (v : V) : SlotTable K V := { t with slots := t.slots ++ [v] }

def modify (t : SlotTable K V) (n : Nat) (f : V → V) : SlotTable K V := { t with slots := t.slots.modify n f }

/-- Make slot `n` current for the key. -/
def point (t : SlotTable K V) (k : K) (n : Nat) : SlotTable K V := { t with index := t.index.insert k n }

def forget (t : SlotTable K V) (k : K) : SlotTable K V := { t with index := t.index.erase k }

def forgetAll (t : SlotTable K V) : SlotTable K V := { t with index := ∅ }

/-- The keys that have a current slot. -/
def keys (t : SlotTable K V) : List K := t.index.keys

def forgetEach (t : SlotTable K V) (ks : List K) : SlotTable K V := ks.foldl forget t

/-- Forget the key and change the value in the slot that was current for it. -/
def release (t : SlotTable K V) (f : V → V) (k : K) : SlotTable K V :=
  match t.current k with
  | some n => (t.forget k).modify n f
  | none => t

def releaseEach (t : SlotTable K V) (f : V → V) (ks : List K) : SlotTable K V := ks.foldl (release · f) t

variable {t : SlotTable K V} {k k' : K} {n m : Nat} {v w : V} {f : V → V}

/-! ### The index -/

@[simp] theorem current_push : (t.push v).current k = t.current k := rfl

@[simp] theorem current_modify : (t.modify n f).current k = t.current k := rfl

@[simp] theorem current_point_self : (t.point k n).current k = some n := AList.lookup_insert _

theorem current_point_of_ne (h : k' ≠ k) : (t.point k n).current k' = t.current k' := AList.lookup_insert_ne h

@[simp] theorem current_forget_self : (t.forget k).current k = none := AList.lookup_erase _ _

theorem current_forget_of_ne (h : k' ≠ k) : (t.forget k).current k' = t.current k' := AList.lookup_erase_ne h

theorem current_of_forget (h : (t.forget k).current k' = some n) : k' ≠ k ∧ t.current k' = some n := by
  by_cases hk : k' = k
  · subst hk
    simp at h
  · exact ⟨hk, by rwa [current_forget_of_ne hk] at h⟩

theorem current_of_point (h : (t.point k n).current k' = some m) :
    k' = k ∧ m = n ∨ k' ≠ k ∧ t.current k' = some m := by
  by_cases hk : k' = k
  · subst hk
    rw [current_point_self] at h
    exact Or.inl ⟨rfl, (Option.some.inj h).symm⟩
  · exact Or.inr ⟨hk, by rwa [current_point_of_ne hk] at h⟩

theorem mem_keys : k ∈ t.keys ↔ ∃ n, t.current k = some n := by
  have hmem : k ∈ t.keys ↔ k ∈ t.index := Iff.rfl
  rw [hmem, ← AList.lookup_isSome, Option.isSome_iff_exists, current]

theorem current_forgetEach (ks : List K) : (t.forgetEach ks).current k = if k ∈ ks then none else t.current k := by
  unfold forgetEach
  induction ks generalizing t with
  | nil => simp
  | cons k' ks ih =>
    rw [List.foldl_cons, ih]
    by_cases hks : k ∈ ks
    · rw [if_pos hks, if_pos (List.mem_cons_of_mem k' hks)]
    · rw [if_neg hks]
      by_cases hk : k = k'
      · subst hk
        rw [current_forget_self, if_pos List.mem_cons_self]
      · rw [current_forget_of_ne hk, if_neg (by simp [hk, hks])]

theorem current_of_release (h : (t.release f k).current k' = some n) : k' ≠ k ∧ t.current k' = some n := by
  unfold release at h
  split at h
  · rw [current_modify] at h
    exact current_of_forget h
  · rename_i hnone
    refine ⟨?_, h⟩
    rintro rfl
    rw [hnone] at h
    cases h

theorem current_of_releaseEach {ks : List K} (h : (t.releaseEach f ks).current k = some n) :
    k ∉ ks ∧ t.current k = some n := by
  unfold releaseEach at h
  induction ks generalizing t with
  | nil => exact ⟨List.not_mem_nil, h⟩
  | cons k' ks ih =>
    obtain ⟨hks, hcur⟩ := ih h
    obtain ⟨hne, hcur⟩ := current_of_release hcur
    exact ⟨by simp [hne, hks], hcur⟩

/-! ### The slots -/

@[simp] theorem slot_point : (t.point k n).slot m = t.slot m := rfl

@[simp] theorem slot_forget : (t.forget k).slot m = t.slot m := rfl

@[simp] theorem slot_modify_self : (t.modify n f).slot n = (t.slot n).map f := List.getElem?_modify_eq f n t.slots

theorem slot_modify_of_ne (h : m ≠ n) : (t.modify n f).slot m = t.slot m := List.getElem?_modify_ne f t.slots h.symm

@[simp] theorem slot_forgetEach (ks : List K) : (t.forgetEach ks).slot m = t.slot m := by
  unfold forgetEach
  induction ks generalizing t with
  | nil => rfl
  | cons k ks ih => rw [List.foldl_cons, ih, slot_forget]

theorem slot_inj (hv : t.slot n = some v) (hw : t.slot n = some w) : v = w := Option.some.inj (hv.symm.trans hw)

theorem lt_of_slot (h : t.slot n = some v) : n < t.slots.length := (List.getElem?_eq_some_iff.1 h).1

@[simp] theorem slot_push_self : (t.push w).slot t.slots.length = some w := List.getElem?_concat_length

theorem slot_push_of_some (h : t.slot n = some v) : (t.push w).slot n = some v :=
  (List.getElem?_append_left (lt_of_slot h)).trans h

/-- An entry of a list with one more entry. -/
theorem getElem?_of_concat {α : Type*} {xs : List α} {x y : α} (h : (xs ++ [x])[n]? = some y) :
    xs[n]? = some y ∨ n = xs.length ∧ y = x := by
  rcases Nat.lt_or_ge n xs.length with hn | hn
  · rw [List.getElem?_append_left hn] at h
    exact Or.inl h
  · rw [List.getElem?_append_right hn] at h
    obtain ⟨hlt, hx⟩ := List.getElem?_eq_some_iff.1 h
    refine Or.inr ⟨?_, ?_⟩
    · simp only [List.length_singleton] at hlt
      omega
    · simpa using hx.symm

/-- An entry of a list with one entry replaced. -/
theorem getElem?_of_set {α : Type*} {xs : List α} {x y : α} (h : (xs.set m x)[n]? = some y) :
    n = m ∧ y = x ∨ xs[n]? = some y := by
  rw [List.getElem?_set] at h
  split at h
  · rename_i hmn
    split at h
    · exact Or.inl ⟨hmn.symm, (Option.some.inj h).symm⟩
    · cases h
  · exact Or.inr h

/-- An entry of a list with one entry changed. -/
theorem getElem?_of_modify {α : Type*} {xs : List α} {g : α → α} {y : α} (h : (xs.modify m g)[n]? = some y) :
    n ≠ m ∧ xs[n]? = some y ∨ n = m ∧ ∃ x, xs[m]? = some x ∧ g x = y := by
  by_cases hn : n = m
  · subst hn
    rw [List.getElem?_modify_eq] at h
    exact Or.inr ⟨rfl, Option.map_eq_some_iff.1 h⟩
  · rw [List.getElem?_modify_ne _ _ (Ne.symm hn)] at h
    exact Or.inl ⟨hn, h⟩

/-- A change that keeps a part of the value leaves the list of these parts as it is. -/
theorem map_modify_of_keeps {α β : Type*} {xs : List α} {g : α → α} {key : α → β}
    (h : ∀ x, xs[n]? = some x → key (g x) = key x) : (xs.modify n g).map key = xs.map key := by
  refine List.ext_getElem? fun m => ?_
  rw [List.getElem?_map, List.getElem?_map, List.getElem?_modify]
  split
  · rename_i hnm
    subst hnm
    cases hx : xs[n]? with
    | none => rfl
    | some x => exact congrArg some (h x hx)
  · cases xs[m]? <;> rfl

theorem slot_of_push (h : (t.push w).slot n = some v) : t.slot n = some v ∨ n = t.slots.length ∧ v = w :=
  getElem?_of_concat h

theorem slot_of_modify (h : (t.modify n f).slot m = some w) :
    m ≠ n ∧ t.slot m = some w ∨ m = n ∧ ∃ v, t.slot n = some v ∧ f v = w := getElem?_of_modify h

/-! ### Invariants of all slots -/

/-- `P` holds of the value in every slot. -/
def All (P : Nat → V → Prop) (t : SlotTable K V) : Prop := ∀ n v, t.slot n = some v → P n v

namespace All

variable {P Q : Nat → V → Prop}

theorem empty : All P (SlotTable.empty : SlotTable K V) := nofun

theorem imp (h : All P t) (hPQ : ∀ n v, t.slot n = some v → P n v → Q n v) : All Q t :=
  fun n v hv => hPQ n v hv (h n v hv)

theorem push (h : All P t) (hv : P t.slots.length v) : All P (t.push v) := by
  intro n w hw
  rcases slot_of_push hw with hw | ⟨rfl, rfl⟩
  · exact h n w hw
  · exact hv

theorem modify (h : All P t) (hf : ∀ v, t.slot n = some v → P n v → P n (f v)) : All P (t.modify n f) := by
  intro m w hw
  rcases slot_of_modify hw with ⟨-, hw⟩ | ⟨rfl, v, hv, rfl⟩
  · exact h m w hw
  · exact hf v hv (h m v hv)

theorem release (h : All P t) (hf : ∀ n v, P n v → P n (f v)) (k : K) : All P (t.release f k) := by
  unfold SlotTable.release
  split
  · rename_i n _
    exact SlotTable.All.modify (t := t.forget k) h fun v _ hv => hf n v hv
  · exact h

theorem releaseEach (h : All P t) (hf : ∀ n v, P n v → P n (f v)) (ks : List K) : All P (t.releaseEach f ks) := by
  unfold SlotTable.releaseEach
  induction ks generalizing t with
  | nil => exact h
  | cons k ks ih => exact ih (h.release hf k)

end All

/-! ### Invariants of the current slots -/

/-- `P` holds of the value in the current slot of every key. -/
def Current (P : K → Nat → V → Prop) (t : SlotTable K V) : Prop :=
  ∀ k n, t.current k = some n → ∃ v, t.slot n = some v ∧ P k n v

namespace Current

variable {P : K → Nat → V → Prop}

theorem empty : Current P (SlotTable.empty : SlotTable K V) := nofun

theorem push (h : Current P t) : Current P (t.push w) := by
  intro k n hk
  obtain ⟨v, hv, hP⟩ := h k n hk
  exact ⟨v, slot_push_of_some hv, hP⟩

theorem modify (h : Current P t) (hf : ∀ k v, t.current k = some n → t.slot n = some v → P k n v → P k n (f v)) :
    Current P (t.modify n f) := by
  intro k m hk
  obtain ⟨v, hv, hP⟩ := h k m hk
  by_cases hm : m = n
  · subst hm
    exact ⟨f v, by simp [hv], hf k v hk hv hP⟩
  · exact ⟨v, by rwa [slot_modify_of_ne hm], hP⟩

theorem point (h : Current P t) (hv : t.slot n = some v) (hP : P k n v) : Current P (t.point k n) := by
  intro k' m hk
  rcases current_of_point hk with ⟨rfl, rfl⟩ | ⟨-, hk⟩
  · exact ⟨v, hv, hP⟩
  · exact h k' m hk

theorem forget (h : Current P t) : Current P (t.forget k) := fun k' n hk => h k' n (current_of_forget hk).2

/-- When the values know their key, a slot whose key was forgotten may change at will. -/
theorem forget_modify {key : V → K} (h : Current P t) (hkey : ∀ k n v, P k n v → key v = k)
    (hcur : t.current k = some n) : Current P ((t.forget k).modify n f) := by
  obtain ⟨v, hv, hP⟩ := h k n hcur
  refine h.forget.modify fun k' w hcur' hw hP' => ?_
  obtain rfl := slot_inj hv hw
  exact absurd ((hkey k' n v hP').symm.trans (hkey k n v hP)) (current_of_forget hcur').1

theorem forgetAll : Current P t.forgetAll := nofun

theorem imp {Q : K → Nat → V → Prop} (h : Current P t) (hPQ : ∀ k n v, t.current k = some n → P k n v → Q k n v) :
    Current Q t := by
  intro k n hk
  obtain ⟨v, hv, hP⟩ := h k n hk
  exact ⟨v, hv, hPQ k n v hk hP⟩

theorem forgetEach (h : Current P t) (ks : List K) : Current P (t.forgetEach ks) := by
  intro k n hk
  rw [current_forgetEach] at hk
  split at hk
  · cases hk
  · rw [slot_forgetEach]
    exact h k n hk

/-- A change that keeps the invariant may be made when the key is forgotten. -/
theorem release (h : Current P t) (hf : ∀ k n v, P k n v → P k n (f v)) (k : K) : Current P (t.release f k) := by
  unfold SlotTable.release
  split
  · rename_i n _
    exact h.forget.modify fun k' v _ _ hP => hf k' n v hP
  · exact h

theorem releaseEach (h : Current P t) (hf : ∀ k n v, P k n v → P k n (f v)) (ks : List K) :
    Current P (t.releaseEach f ks) := by
  unfold SlotTable.releaseEach
  induction ks generalizing t with
  | nil => exact h
  | cons k ks ih => exact ih (h.release hf k)

end Current

end SlotTable
