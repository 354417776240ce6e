import EverythingImu.Library.Words

/-!
# Readers of binary formats

A reader takes a value off the front of a list of bytes, or fails.  `Decodes r Form Tail` says what a reader accepts:
it reads `a` from the lists that start with a form of `a`, and for an `a` in `Tail` only when nothing follows.  The
rules go along the way a reader is put together, so a reader is compared with the forms of its values once, in both
directions.

A `VariantType` is an enumeration that is written as the id of the variant.
-/

namespace Words

abbrev Reader (ε : Type) := StateT (List UInt8) (Except ε)

variable {ε α β : Type}

/-- `r` reads `a` exactly off the front of a form of `a`; a value in `Tail` reaches to the end of the list. -/
def Decodes (r : Reader ε α) (Form : α → List UInt8 → Prop) (Tail : α → Prop) : Prop :=
  ∀ buf a rest, r.run buf = .ok (a, rest) ↔ ∃ e, Form a e ∧ (Tail a → rest = []) ∧ buf = e ++ rest

/-- No value reaches to the end of the list. -/
def Never (_ : α) : Prop := False

/-- The next `n` bytes. -/
def takeBytes (incomplete : ε) (n : Nat) : Reader ε (List UInt8) := fun buf =>
  if n ≤ buf.length then .ok (buf.take n, buf.drop n) else .error incomplete

/-- The next `n` bytes as an array. -/
def takeVector (incomplete : ε) (n : Nat) : Reader ε (Vector UInt8 n) := fun buf =>
  if h : n ≤ buf.length then .ok (⟨(buf.take n).toArray, by simp [h]⟩, buf.drop n) else .error incomplete

/-- The next word, most significant byte first. -/
def takeWord (incomplete : ε) (W : Type) [Word W] : Reader ε W := ofBe <$> takeBytes incomplete (Word.width W)

/-- All the bytes that are left. -/
def takeRest : Reader ε (List UInt8) := fun buf => .ok (buf, [])

/-! ### The rules -/

namespace Decodes

variable {r : Reader ε α} {Form Form' : α → List UInt8 → Prop} {Tail : α → Prop}

theorem congr (h : Decodes r Form Tail) (hf : ∀ a e, Form a e ↔ Form' a e) : Decodes r Form' Tail := by
  intro buf a rest
  rw [h buf a rest]
  simp only [hf]

/-- A value that ends the reader. -/
theorem pure {a : α} (ha : ¬Tail a) : Decodes (pure a : Reader ε α) (fun b e => b = a ∧ e = []) Tail := by
  intro buf b rest
  constructor
  · intro h
    have h : (.ok (a, buf) : Except ε (α × List UInt8)) = .ok (b, rest) := h
    obtain ⟨rfl, rfl⟩ := Prod.mk.inj (Except.ok.inj h)
    exact ⟨[], ⟨rfl, rfl⟩, fun h => absurd h ha, rfl⟩
  · rintro ⟨e, ⟨rfl, rfl⟩, -, rfl⟩
    rfl

theorem throw (err : ε) : Decodes (throw err : Reader ε α) (fun _ _ => False) Tail := by
  intro buf b rest
  constructor
  · nofun
  · intro ⟨e, h, _⟩
    exact h.elim

/-- One reader after another. -/
theorem bind {k : α → Reader ε β} {Form' : α → β → List UInt8 → Prop} {Tail' : β → Prop}
    (hr : Decodes r Form Never) (hk : ∀ a, Decodes (k a) (Form' a) Tail') :
    Decodes (r >>= k) (fun b e => ∃ a e₁ e₂, Form a e₁ ∧ Form' a b e₂ ∧ e = e₁ ++ e₂) Tail' := by
  intro buf b rest
  have hrun : (r >>= k).run buf = .ok (b, rest) ↔
      ∃ a mid, r.run buf = .ok (a, mid) ∧ (k a).run mid = .ok (b, rest) := by
    rw [StateT.run_bind]
    cases hbuf : r.run buf with
    | error err => simp [Bind.bind, Except.bind]
    | ok p =>
      obtain ⟨a, mid⟩ := p
      simp [Bind.bind, Except.bind, and_assoc]
  rw [hrun]
  constructor
  · intro ⟨a, mid, ha, hb⟩
    obtain ⟨e₁, hform, -, rfl⟩ := (hr buf a mid).1 ha
    obtain ⟨e₂, hform', htail, rfl⟩ := (hk a mid b rest).1 hb
    exact ⟨e₁ ++ e₂, ⟨a, e₁, e₂, hform, hform', rfl⟩, htail, by rw [List.append_assoc]⟩
  · intro ⟨e, ⟨a, e₁, e₂, hform, hform', he⟩, htail, hbuf⟩
    refine ⟨a, e₂ ++ rest, (hr _ _ _).2 ⟨e₁, hform, nofun, ?_⟩, (hk a _ b rest).2 ⟨e₂, hform', htail, rfl⟩⟩
    rw [hbuf, he, List.append_assoc]

theorem map {f : α → β} {Tail' : β → Prop} (hr : Decodes r Form Tail) (ht : ∀ a, Tail' (f a) ↔ Tail a) :
    Decodes (f <$> r) (fun b e => ∃ a, Form a e ∧ b = f a) Tail' := by
  intro buf b rest
  have hrun : (f <$> r).run buf = .ok (b, rest) ↔ ∃ a, r.run buf = .ok (a, rest) ∧ b = f a := by
    rw [StateT.run_map]
    cases hbuf : r.run buf with
    | error err => simp [Functor.map, Except.map]
    | ok p =>
      obtain ⟨a, mid⟩ := p
      simp [Functor.map, Except.map, and_assoc]
      exact ⟨fun h => ⟨h.2, h.1.symm⟩, fun h => ⟨h.2.symm, h.1⟩⟩
  rw [hrun]
  constructor
  · intro ⟨a, ha, hb⟩
    obtain ⟨e, hform, htail, rfl⟩ := (hr buf a rest).1 ha
    exact ⟨e, ⟨a, hform, hb⟩, fun h => htail ((ht a).1 (hb ▸ h)), rfl⟩
  · intro ⟨e, ⟨a, hform, hb⟩, htail, hbuf⟩
    exact ⟨a, (hr buf a rest).2 ⟨e, hform, fun h => htail (hb ▸ (ht a).2 h), hbuf⟩, hb⟩

end Decodes

/-! ### Readers that read field after field -/

/-- The forms of the values `value y`, one for each choice `y` of the fields. -/
def Layout {Y : Type} (value : Y → β) (ok : Y → Prop) (bytes : Y → List UInt8) (b : β) (e : List UInt8) : Prop :=
  ∃ y, b = value y ∧ ok y ∧ e = bytes y

/-- A reader of one field: a value that is `ok` has one form. -/
def ReadsField (r : Reader ε α) (ok : α → Prop) (bytes : α → List UInt8) : Prop :=
  Decodes r (fun a e => ok a ∧ e = bytes a) Never

theorem ReadsField.congr {r : Reader ε α} {ok ok' : α → Prop} {bytes bytes' : α → List UInt8}
    (hr : ReadsField r ok bytes) (hok : ∀ a, ok a ↔ ok' a) (hbytes : ∀ a, bytes a = bytes' a) :
    ReadsField r ok' bytes' :=
  Decodes.congr hr fun a e => by rw [hok, hbytes]

theorem decodes_done {Tail : α → Prop} {a : α} (ha : ¬Tail a) :
    Decodes (pure a : Reader ε α) (Layout (fun _ : Unit => a) (fun _ => True) fun _ => []) Tail :=
  (Decodes.pure ha).congr fun b e => by simp [Layout]

/-- A field, and then the other ones. -/
theorem ReadsField.next {r : Reader ε α} {ok : α → Prop} {bytes : α → List UInt8} (hr : ReadsField r ok bytes)
    {Y : Type}
    {k : α → Reader ε β} {value : α → Y → β} {ok' : α → Y → Prop} {bytes' : α → Y → List UInt8} {Tail : β → Prop}
    (hk : ∀ a, Decodes (k a) (Layout (value a) (ok' a) (bytes' a)) Tail) :
    Decodes (r >>= k) (Layout (fun y : α × Y => value y.1 y.2) (fun y => ok y.1 ∧ ok' y.1 y.2)
      fun y => bytes y.1 ++ bytes' y.1 y.2) Tail := by
  refine (Decodes.bind hr hk).congr ?_
  intro b e
  constructor
  · intro ⟨a, e₁, e₂, ⟨hok, he₁⟩, ⟨y, hb, hok', he₂⟩, he⟩
    exact ⟨(a, y), hb, ⟨hok, hok'⟩, by rw [he, he₁, he₂]⟩
  · intro ⟨(a, y), hb, ⟨hok, hok'⟩, he⟩
    exact ⟨a, _, _, ⟨hok, rfl⟩, ⟨y, hb, hok', rfl⟩, he⟩

/-- The rest of the bytes as the only field. -/
theorem decodes_tail {f : List UInt8 → β} {Tail : β → Prop} (ht : ∀ a, Tail (f a)) :
    Decodes (f <$> (takeRest : Reader ε (List UInt8))) (Layout f (fun _ => True) id) Tail := by
  intro buf b rest
  constructor
  · intro h
    obtain ⟨rfl, rfl⟩ : f buf = b ∧ [] = rest := by
      simpa [takeRest, StateT.run, Functor.map, StateT.map, Bind.bind, Except.bind, Pure.pure, Except.pure] using h
    exact ⟨buf, ⟨buf, rfl, trivial, rfl⟩, fun _ => rfl, (List.append_nil buf).symm⟩
  · rintro ⟨e, ⟨y, rfl, -, rfl⟩, hrest, rfl⟩
    rw [hrest (ht _), List.append_nil]
    rfl

/-! ### Primitive readers -/

theorem readsField_takeBytes (incomplete : ε) (n : Nat) :
    ReadsField (takeBytes incomplete n) (fun a => a.length = n) id := by
  intro buf a rest
  simp only [StateT.run, takeBytes]
  by_cases h : n ≤ buf.length
  · rw [if_pos h]
    constructor
    · intro hok
      obtain ⟨rfl, rfl⟩ : buf.take n = a ∧ buf.drop n = rest := by simpa using hok
      exact ⟨_, ⟨by rw [List.length_take, Nat.min_eq_left h], rfl⟩, nofun, (List.take_append_drop n buf).symm⟩
    · rintro ⟨e, ⟨rfl, rfl⟩, -, rfl⟩
      rw [List.take_left, List.drop_left]
  · rw [if_neg h]
    constructor
    · nofun
    · rintro ⟨e, ⟨rfl, rfl⟩, -, rfl⟩
      rw [List.length_append] at h
      omega

theorem readsField_takeVector (incomplete : ε) (n : Nat) :
    ReadsField (takeVector incomplete n) (fun _ => True) Vector.toList := by
  intro buf a rest
  have hlen : a.toList.length = n := a.length_toList
  simp only [StateT.run, takeVector]
  by_cases h : n ≤ buf.length
  · rw [dif_pos h]
    constructor
    · intro hok
      obtain ⟨ha, rfl⟩ := Prod.mk.inj (Except.ok.inj hok)
      have hbytes : a.toList = buf.take n := by rw [← ha]; rfl
      exact ⟨_, ⟨trivial, rfl⟩, nofun, by rw [hbytes, List.take_append_drop]⟩
    · rintro ⟨e, ⟨-, rfl⟩, -, rfl⟩
      congr 2
      · apply Vector.toList_inj.1
        exact List.take_left' hlen
      · exact List.drop_left' hlen
  · rw [dif_neg h]
    constructor
    · nofun
    · rintro ⟨e, ⟨-, rfl⟩, -, rfl⟩
      rw [List.length_append] at h
      omega

theorem readsField_takeWord (incomplete : ε) (W : Type) [Word W] :
    ReadsField (takeWord incomplete W) (fun _ => True) toBe := by
  have hmap : Decodes (takeWord incomplete W) _ Never :=
    (readsField_takeBytes incomplete (Word.width W)).map (fun _ => Iff.rfl)
  refine hmap.congr ?_
  intro w e
  constructor
  · rintro ⟨bs, ⟨hlen, rfl⟩, rfl⟩
    exact ⟨trivial, (toBe_ofBe hlen).symm⟩
  · rintro ⟨-, rfl⟩
    exact ⟨toBe w, ⟨length_toBe w, rfl⟩, (ofBe_toBe w).symm⟩

/-! ### Enumerations -/

/-- An enumeration with an id for each variant: the known variants, and for an open one a variant that keeps an
unknown id. -/
class VariantType (α : Type) where
  Id : Type
  word : Word Id
  decEq : DecidableEq Id
  id : α → Id
  known : List α
  unknownVariant : Option (Id → α)
  id_injective : ∀ a ∈ known, ∀ b ∈ known, id a = id b → a = b
  id_unknown : ∀ u, unknownVariant = some u → ∀ i, id (u i) = i

namespace VariantType

variable [VariantType α]

instance : Word (Id α) := word

instance : DecidableEq (Id α) := decEq

/-- The variant is a known one, or keeps an id that no known one has. -/
def Canonical (a : α) : Prop :=
  a ∈ known ∨ ∃ u i, unknownVariant = some u ∧ a = u i ∧ ∀ b ∈ (known : List α), id b ≠ i

def ofId (i : Id α) : Option α :=
  match (known : List α).find? (id · = i) with
  | some a => some a
  | none => unknownVariant.map (· i)

/-- The variant of the next id. -/
def read (incomplete unmatched : ε) : Reader ε α := do
  let i ← takeWord incomplete (Id α)
  match ofId i with
  | some a => pure a
  | none => throw unmatched

theorem ofId_eq_some_iff {i : Id α} {a : α} : ofId i = some a ↔ Canonical a ∧ id a = i := by
  unfold ofId
  cases h : (known : List α).find? (id · = i) with
  | some b =>
    have hb : b ∈ (known : List α) := List.mem_of_find?_eq_some h
    have hi : id b = i := by simpa using List.find?_some h
    constructor
    · intro hab
      obtain rfl := Option.some.inj hab
      exact ⟨.inl hb, hi⟩
    · intro ⟨hcanon, ha⟩
      rcases hcanon with hknown | ⟨u, j, hu, rfl, hj⟩
      · rw [id_injective b hb a hknown (by rw [hi, ha])]
      · rw [id_unknown u hu] at ha
        exact absurd (hi.trans ha.symm) (hj b hb)
  | none =>
    have hnone : ∀ b ∈ (known : List α), id b ≠ i := by simpa using h
    constructor
    · intro hab
      obtain ⟨u, hu, rfl⟩ := Option.map_eq_some_iff.1 hab
      exact ⟨.inr ⟨u, i, hu, rfl, hnone⟩, id_unknown u hu i⟩
    · intro ⟨hcanon, ha⟩
      rcases hcanon with hknown | ⟨u, j, hu, rfl, hj⟩
      · exact absurd ha (hnone a hknown)
      · rw [id_unknown u hu] at ha
        subst ha
        simp [hu]

theorem readsField_read (incomplete unmatched : ε) :
    ReadsField (read incomplete unmatched : Reader ε α) Canonical fun a => toBe (id a) := by
  have hvariant : ∀ i : Id α, Decodes (match ofId i with
      | some a => pure a
      | none => throw unmatched : Reader ε α) (fun a e => ofId i = some a ∧ e = []) Never := by
    intro i
    cases h : ofId i with
    | some b => exact (Decodes.pure (by simp [Never])).congr (by simp [eq_comm])
    | none => exact (Decodes.throw unmatched).congr (by simp)
  refine ((readsField_takeWord incomplete (Id α)).bind hvariant).congr ?_
  intro a e
  simp only [ofId_eq_some_iff]
  constructor
  · rintro ⟨i, e₁, e₂, ⟨-, rfl⟩, ⟨⟨hcanon, rfl⟩, rfl⟩, rfl⟩
    exact ⟨hcanon, List.append_nil _⟩
  · rintro ⟨hcanon, rfl⟩
    exact ⟨id a, _, [], ⟨trivial, rfl⟩, ⟨⟨hcanon, rfl⟩, rfl⟩, (List.append_nil _).symm⟩

end VariantType

end Words
