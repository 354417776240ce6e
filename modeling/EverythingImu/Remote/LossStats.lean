import EverythingImu.Remote.Device
import Mathlib.Data.Finset.Max
import Mathlib.Order.Interval.Finset.Nat

/-!
# The loss statistics of a route

`LossStats` (`device-remote/src/factory.rs`) counts lost packets by the step from one delivered sequence number to the
next.  The number it compares with is the one delivered last, also when that was a late packet: then the packets between
it and the next are counted once more.

So the count is that of the packets that never came as long as every packet is in front of all others, comes right in
front of the earliest, or comes again no more than one number behind the last (`lost_exact_iff`).
-/

namespace EverythingImu.Remote

/-- The readings of the clock in one call, in nanoseconds: for a window that opens, its age, and the one after it. -/
structure Readings where
  opened : Nat
  asked : Nat
  reopened : Nat

namespace LossStats

/-- `record` with every reading of the clock on its own. -/
def recordAt (s : LossStats) (seq : UInt16) (clock : Readings) : LossStats :=
  let start := s.windowStart.getD clock.opened
  let counted : LossStats := ⟨some seq, s.received + 1, s.lost + missing s.lastSeq seq, some start⟩
  if 10_000_000_000 ≤ clock.asked - start then
    { counted with received := 0, lost := 0, windowStart := some clock.reopened }
  else counted

theorem record_eq_recordAt (s : LossStats) (seq : UInt16) (now : Instant) :
    s.record seq now = s.recordAt seq ⟨now, now, now⟩ :=
  rfl

end LossStats

/-- A packet that arrives, by its place in the sender's stream. -/
structure Delivery where
  number : Nat
  clock : Readings

/-- The counter of the sender is a `u16`. -/
def Delivery.seq (d : Delivery) : UInt16 := UInt16.ofNat d.number

def deliver (s : LossStats) (d : Delivery) : LossStats := s.recordAt d.seq d.clock

def deliverAll (ds : List Delivery) : LossStats := ds.foldl deliver LossStats.default

def numbers (ds : List Delivery) : List Nat := ds.map Delivery.number

/-- All of it inside one window. -/
def OneWindow (ds : List Delivery) : Prop :=
  ∀ first ∈ ds.head?, ∀ d ∈ ds, d.clock.asked < first.clock.opened + 10_000_000_000

instance (ds : List Delivery) : Decidable (OneWindow ds) :=
  inferInstanceAs (Decidable (∀ first ∈ ds.head?, ∀ d ∈ ds, _))

/-- One delivery after the other is less than half the counter's range away. -/
def Near (ns : List Nat) : Prop := ns.IsChain fun last i => i < last + 0x8000 ∧ last < i + 0x8000

instance (ns : List Nat) : Decidable (Near ns) := inferInstanceAs (Decidable (ns.IsChain _))

/-! ### The packets that never came -/

/-- What was sent between the earliest and the latest of the delivered packets, and was never delivered. -/
def missing (ns : List Nat) : Finset Nat :=
  (Finset.range (ns.foldl max 0)).filter fun k => k ∉ ns ∧ ∃ a ∈ ns, a < k

section Missing

variable {ns : List Nat} {last i k : Nat}

private theorem lt_foldl_max (b : Nat) : k < ns.foldl max b ↔ k < b ∨ ∃ a ∈ ns, k < a := by
  induction ns generalizing b with
  | nil => simp
  | cons n ns ih =>
    rw [List.foldl_cons, ih, lt_max_iff]
    simp [or_assoc]

theorem mem_missing : k ∈ missing ns ↔ k ∉ ns ∧ (∃ a ∈ ns, a < k) ∧ ∃ b ∈ ns, k < b := by
  rw [missing, Finset.mem_filter, Finset.mem_range, lt_foldl_max]
  simp [and_comm, and_assoc]

/-- A packet beyond all others leaves out the gap between it and them. -/
private theorem card_missing_gap {gap : Finset Nat} (hns : ns ≠ []) (hi : i ∉ missing ns)
    (hgap : ∀ k, k ∈ gap ↔ (∀ a ∈ ns, a < k) ∧ k < i ∨ (∀ a ∈ ns, k < a) ∧ i < k) :
    (missing (ns ++ [i])).card = (missing ns).card + gap.card := by
  obtain ⟨c, hc⟩ := List.exists_mem_of_ne_nil ns hns
  have hsplit : missing (ns ++ [i]) = missing ns ∪ gap := by
    ext k
    have hsides : (∃ a ∈ ns ++ [i], a < k) ↔ (∃ a ∈ ns, a < k) ∨ i < k := by
      simp [or_and_right, exists_or]
    have hsides' : (∃ b ∈ ns ++ [i], k < b) ↔ (∃ b ∈ ns, k < b) ∨ k < i := by
      simp [or_and_right, exists_or]
    rw [Finset.mem_union, hgap, mem_missing, mem_missing, hsides, hsides', List.mem_append, List.mem_singleton, not_or]
    constructor
    · rintro ⟨⟨hk, -⟩, hbelow, habove⟩
      have hne : ∀ a ∈ ns, a ≠ k := fun a ha h => hk (h ▸ ha)
      by_cases hb : ∃ a ∈ ns, a < k
      · by_cases ha : ∃ b ∈ ns, k < b
        · exact .inl ⟨hk, hb, ha⟩
        · push Not at ha
          exact .inr (.inl ⟨fun a h => (ha a h).lt_of_ne (hne a h), habove.resolve_left (by simpa using ha)⟩)
      · push Not at hb
        exact .inr (.inr ⟨fun a h => (hb a h).lt_of_ne (hne a h).symm, hbelow.resolve_left (by simpa using hb)⟩)
    · rintro (⟨hk, hb, ha⟩ | ⟨hlt, hki⟩ | ⟨hlt, hik⟩)
      · refine ⟨⟨hk, ?_⟩, .inl hb, .inl ha⟩
        rintro rfl
        exact hi (mem_missing.2 ⟨hk, hb, ha⟩)
      · exact ⟨⟨fun hk => absurd (hlt k hk) (lt_irrefl k), hki.ne⟩, .inl ⟨c, hc, hlt c hc⟩, .inr hki⟩
      · exact ⟨⟨fun hk => absurd (hlt k hk) (lt_irrefl k), hik.ne'⟩, .inr hik, .inl ⟨c, hc, hlt c hc⟩⟩
  have hdisjoint : Disjoint (missing ns) gap := by
    rw [Finset.disjoint_left]
    intro k hk hkgap
    obtain ⟨-, ⟨a, ha, hak⟩, b, hb, hkb⟩ := mem_missing.1 hk
    rcases (hgap k).1 hkgap with ⟨hlt, -⟩ | ⟨hlt, -⟩
    · exact (hlt b hb).asymm hkb
    · exact (hlt a ha).asymm hak
  rw [hsplit, Finset.card_union_of_disjoint hdisjoint]

/-- A packet in front of all others leaves out those between it and the latest. -/
theorem card_missing_ahead {latest : Nat} (hlatest : latest ∈ ns) (hmax : ∀ a ∈ ns, a ≤ latest) (hi : latest < i) :
    (missing (ns ++ [i])).card = (missing ns).card + (i - latest - 1) := by
  have hnot : i ∉ missing ns := by
    intro hmem
    obtain ⟨-, -, b, hb, hib⟩ := mem_missing.1 hmem
    have := hmax b hb
    omega
  have hgap : ∀ k, k ∈ Finset.Ioo latest i ↔ (∀ a ∈ ns, a < k) ∧ k < i ∨ (∀ a ∈ ns, k < a) ∧ i < k := by
    intro k
    rw [Finset.mem_Ioo]
    constructor
    · rintro ⟨hlk, hki⟩
      exact .inl ⟨fun a ha => (hmax a ha).trans_lt hlk, hki⟩
    · rintro (⟨hlt, hki⟩ | ⟨hlt, hik⟩)
      · exact ⟨hlt latest hlatest, hki⟩
      · have := hlt latest hlatest
        omega
  rw [card_missing_gap (List.ne_nil_of_mem hlatest) hnot hgap, Nat.card_Ioo]

/-- A packet behind all others leaves out those between it and the earliest. -/
theorem card_missing_before {earliest : Nat} (hearliest : earliest ∈ ns) (hmin : ∀ a ∈ ns, earliest ≤ a)
    (hi : i < earliest) : (missing (ns ++ [i])).card = (missing ns).card + (earliest - i - 1) := by
  have hnot : i ∉ missing ns := by
    intro hmem
    obtain ⟨-, ⟨a, ha, hai⟩, -⟩ := mem_missing.1 hmem
    have := hmin a ha
    omega
  have hgap : ∀ k, k ∈ Finset.Ioo i earliest ↔ (∀ a ∈ ns, a < k) ∧ k < i ∨ (∀ a ∈ ns, k < a) ∧ i < k := by
    intro k
    rw [Finset.mem_Ioo]
    constructor
    · rintro ⟨hik, hke⟩
      exact .inr ⟨fun a ha => hke.trans_le (hmin a ha), hik⟩
    · rintro (⟨hlt, hki⟩ | ⟨hlt, hik⟩)
      · have := hlt earliest hearliest
        omega
      · exact ⟨hik, hlt earliest hearliest⟩
  rw [card_missing_gap (List.ne_nil_of_mem hearliest) hnot hgap, Nat.card_Ioo]

/-- A packet that comes again changes nothing. -/
theorem missing_repeated (hi : i ∈ ns) : missing (ns ++ [i]) = missing ns := by
  have hmem : ∀ k, k ∈ ns ++ [i] ↔ k ∈ ns := by
    intro k
    rw [List.mem_append, List.mem_singleton]
    exact ⟨fun h => h.elim id fun h => h ▸ hi, .inl⟩
  ext k
  simp only [mem_missing, hmem]

/-- A late packet is missing no more. -/
theorem card_missing_late (hi : i ∈ missing ns) : (missing (ns ++ [i])).card + 1 = (missing ns).card := by
  obtain ⟨hnot, ⟨a, ha, hai⟩, b, hb, hib⟩ := mem_missing.1 hi
  have herase : missing (ns ++ [i]) = (missing ns).erase i := by
    ext k
    simp only [mem_missing, Finset.mem_erase, List.mem_append, List.mem_singleton, not_or]
    constructor
    · rintro ⟨⟨hk, hki⟩, ⟨c, hc, hck⟩, d, hd, hkd⟩
      refine ⟨hki, hk, ?_, ?_⟩
      · rcases hc with hc | rfl
        · exact ⟨c, hc, hck⟩
        · exact ⟨a, ha, hai.trans hck⟩
      · rcases hd with hd | rfl
        · exact ⟨d, hd, hkd⟩
        · exact ⟨b, hb, hkd.trans hib⟩
    · rintro ⟨hki, hk, ⟨c, hc, hck⟩, d, hd, hkd⟩
      exact ⟨⟨hk, hki⟩, ⟨c, .inl hc, hck⟩, d, .inl hd, hkd⟩
  rw [herase, Finset.card_erase_of_mem hi]
  have hpos : 0 < (missing ns).card := Finset.card_pos.2 ⟨i, hi⟩
  omega

end Missing

/-! ### One delivery -/

/-- What is delivered counts the packets it leaves out, and no others. -/
def Counted (ns : List Nat) (last i : Nat) : Prop :=
  -- in front of all others, and the last one was the latest
  ((∀ a ∈ ns, a ≤ last) ∧ last < i ∧ i < last + 1000) ∨
  -- the next number, after a step that is taken for a restart
  ((∀ a ∈ ns, a < i) ∧ (∃ a ∈ ns, a + 1 = i) ∧ last + 1000 ≤ i) ∨
  -- once more, and no more than one number ahead
  (i ∈ ns ∧ (i ≤ last + 1 ∨ last + 1000 ≤ i)) ∨
  -- right in front of the earliest
  ((∀ a ∈ ns, i < a) ∧ i + 1 ∈ ns)

section Step

variable {ns : List Nat} {last i earliest latest : Nat}

private theorem exists_latest (h : last ∈ ns) : ∃ latest ∈ ns, ∀ a ∈ ns, a ≤ latest := by
  obtain ⟨latest, hmem, hmax⟩ := ns.toFinset.exists_max_image id ⟨last, List.mem_toFinset.2 h⟩
  exact ⟨latest, List.mem_toFinset.1 hmem, fun a ha => hmax a (List.mem_toFinset.2 ha)⟩

private theorem exists_earliest (h : last ∈ ns) : ∃ earliest ∈ ns, ∀ a ∈ ns, earliest ≤ a := by
  obtain ⟨earliest, hmem, hmin⟩ := ns.toFinset.exists_min_image id ⟨last, List.mem_toFinset.2 h⟩
  exact ⟨earliest, List.mem_toFinset.1 hmem, fun a ha => hmin a (List.mem_toFinset.2 ha)⟩

private theorem counted_iff (hearliest : earliest ∈ ns) (hmin : ∀ a ∈ ns, earliest ≤ a) (hlatest : latest ∈ ns)
    (hmax : ∀ a ∈ ns, a ≤ latest) :
    Counted ns last i ↔ (latest ≤ last ∧ last < i ∧ i < last + 1000) ∨ (latest + 1 = i ∧ last + 1000 ≤ i) ∨
      (i ∈ ns ∧ (i ≤ last + 1 ∨ last + 1000 ≤ i)) ∨ i + 1 = earliest := by
  have hfront : (∀ a ∈ ns, a ≤ last) ↔ latest ≤ last :=
    ⟨fun h => h latest hlatest, fun h a ha => (hmax a ha).trans h⟩
  have hnext : (∀ a ∈ ns, a < i) ∧ (∃ a ∈ ns, a + 1 = i) ↔ latest + 1 = i := by
    constructor
    · rintro ⟨hlt, a, ha, rfl⟩
      have := hmax a ha
      have := hlt latest hlatest
      omega
    · rintro rfl
      exact ⟨fun a ha => Nat.lt_succ_of_le (hmax a ha), latest, hlatest, rfl⟩
  have hbefore : (∀ a ∈ ns, i < a) ∧ i + 1 ∈ ns ↔ i + 1 = earliest := by
    constructor
    · rintro ⟨hlt, hmem⟩
      have := hmin (i + 1) hmem
      have := hlt earliest hearliest
      omega
    · rintro rfl
      exact ⟨fun a ha => hmin a ha, hearliest⟩
  rw [Counted, hfront, ← and_assoc (b := ∃ a ∈ ns, a + 1 = i), hnext, hbefore]

/-- What the statistics add for a step of less than half the counter's range. -/
theorem missing_ofNat (hnear : i < last + 0x8000 ∧ last < i + 0x8000) :
    LossStats.missing (some (UInt16.ofNat last)) (UInt16.ofNat i) =
      if last + 1 < i ∧ i < last + 1000 then i - last - 1 else 0 := by
  have hgap : (UInt16.ofNat i - UInt16.ofNat last).toNat = (65536 - last % 65536 + i % 65536) % 65536 := by
    rw [UInt16.toNat_sub, UInt16.toNat_ofNat', UInt16.toNat_ofNat']
  unfold LossStats.missing
  simp only [UInt16.lt_iff_toNat_lt, hgap]
  show (if 1 < (65536 - last % 65536 + i % 65536) % 65536 ∧ (65536 - last % 65536 + i % 65536) % 65536 < 1000 then _
    else _) = _
  by_cases hstep : last + 1 < i ∧ i < last + 1000
  · rw [if_pos hstep, if_pos (by omega)]
    omega
  · rw [if_neg hstep, if_neg (by omega)]

/-- The step lemma: the count grows by what is missing now and was not before. -/
theorem card_missing_snoc (hlast : last ∈ ns) (hnear : i < last + 0x8000 ∧ last < i + 0x8000) :
    (missing ns).card + LossStats.missing (some (UInt16.ofNat last)) (UInt16.ofNat i) = (missing (ns ++ [i])).card ↔
      Counted ns last i := by
  obtain ⟨earliest, hearliest, hmin⟩ := exists_earliest hlast
  obtain ⟨latest, hlatest, hmax⟩ := exists_latest hlast
  have hle := hmax last hlast
  have hge := hmin last hlast
  rw [missing_ofNat hnear, counted_iff hearliest hmin hlatest hmax]
  by_cases hmem : i ∈ ns
  · have hi_le := hmax i hmem
    have hi_ge := hmin i hmem
    rw [missing_repeated hmem]
    simp only [hmem, true_and]
    split <;> omega
  simp only [hmem, false_and, false_or]
  rcases Nat.lt_or_ge latest i with hahead | hbehind
  · rw [card_missing_ahead hlatest hmax hahead]
    split <;> omega
  rcases Nat.lt_or_ge i earliest with hbefore | hinside
  · rw [card_missing_before hearliest hmin hbefore]
    split <;> omega
  -- a late packet: what was missing is missing no more, and the count never goes down
  have hne_latest : i ≠ latest := fun h => hmem (h ▸ hlatest)
  have hne_earliest : i ≠ earliest := fun h => hmem (h ▸ hearliest)
  have hmissing : i ∈ missing ns :=
    mem_missing.2 ⟨hmem, ⟨earliest, hearliest, by omega⟩, latest, hlatest, by omega⟩
  have hcard := card_missing_late hmissing
  split <;> omega

end Step

/-! ### A run -/

section Run

variable {ds : List Delivery} {d : Delivery}

theorem deliverAll_concat : deliverAll (ds ++ [d]) = deliver (deliverAll ds) d := by
  rw [deliverAll, List.foldl_concat]
  rfl

theorem OneWindow.of_concat (h : OneWindow (ds ++ [d])) : OneWindow ds := by
  intro first hfirst d' hd'
  refine h first ?_ d' (List.mem_append_left _ hd')
  rw [List.head?_append, Option.mem_def.1 hfirst]
  rfl

/-- The window stays the one that the first delivery opened. -/
theorem OneWindow.deliver_eq (h : OneWindow (ds ++ [d]))
    (hstart : (deliverAll ds).windowStart = ds.head?.map fun first => first.clock.opened) :
    deliverAll (ds ++ [d]) =
      ⟨some d.seq, (deliverAll ds).received + 1,
        (deliverAll ds).lost + LossStats.missing (deliverAll ds).lastSeq d.seq,
        (ds ++ [d]).head?.map fun first => first.clock.opened⟩ := by
  have hopened : some ((deliverAll ds).windowStart.getD d.clock.opened) =
      (ds ++ [d]).head?.map fun first => first.clock.opened := by
    rw [hstart]
    cases ds <;> rfl
  have hlt : ¬ 10_000_000_000 ≤ d.clock.asked - (deliverAll ds).windowStart.getD d.clock.opened := by
    have hmem : d ∈ ds ++ [d] := List.mem_append_right _ (List.mem_singleton_self d)
    rw [hstart]
    cases ds with
    | nil =>
      have := h d rfl d hmem
      show ¬ 10_000_000_000 ≤ d.clock.asked - d.clock.opened
      omega
    | cons first ds =>
      have := h first rfl d hmem
      show ¬ 10_000_000_000 ≤ d.clock.asked - first.clock.opened
      omega
  rw [deliverAll_concat, deliver, LossStats.recordAt, if_neg hlt, hopened]

/-- Besides the lost packets: each delivery is received once, and the last one is remembered. -/
theorem OneWindow.deliverAll_eq (h : OneWindow ds) :
    ((deliverAll ds).windowStart = ds.head?.map fun first => first.clock.opened) ∧
      (deliverAll ds).received = ds.length ∧ (deliverAll ds).lastSeq = ds.getLast?.map Delivery.seq := by
  induction ds using List.reverseRecOn with
  | nil => exact ⟨rfl, rfl, rfl⟩
  | append_singleton ds d ih =>
    obtain ⟨hstart, hreceived, -⟩ := ih h.of_concat
    rw [h.deliver_eq hstart, hreceived, List.length_append, List.getLast?_concat]
    exact ⟨rfl, rfl, rfl⟩

theorem OneWindow.lost_concat (h : OneWindow (ds ++ [d])) :
    (deliverAll (ds ++ [d])).lost =
      (deliverAll ds).lost + LossStats.missing (ds.getLast?.map Delivery.seq) d.seq := by
  obtain ⟨hstart, -, hlast⟩ := h.of_concat.deliverAll_eq
  rw [h.deliver_eq hstart, hlast]

/-- The statistics are those of the packets that never came. -/
def Exact (ds : List Delivery) : Prop :=
  (deliverAll ds).lost = (missing (numbers ds)).card ∧ (deliverAll ds).received = ds.length

/-- Every delivery after the first counts what it leaves out. -/
def StepsCounted (ns : List Nat) : Prop :=
  ∀ before last i, before ++ [last] ++ [i] <+: ns → Counted (before ++ [last]) last i

theorem stepsCounted_concat {ns : List Nat} {i : Nat} :
    StepsCounted (ns ++ [i]) ↔ StepsCounted ns ∧ ∀ before last, ns = before ++ [last] → Counted ns last i := by
  constructor
  · intro h
    refine ⟨fun before last j hj => h before last j (hj.trans (List.prefix_append ns [i])), ?_⟩
    rintro before last rfl
    exact h before last i (List.prefix_refl _)
  · rintro ⟨hns, hi⟩ before last j hj
    rcases List.prefix_concat_iff.1 hj with heq | hpre
    · obtain ⟨hbefore, hlast⟩ := List.append_inj' heq rfl
      obtain rfl := List.singleton_inj.1 hlast
      rw [hbefore]
      exact hi before last hbefore.symm
    · exact hns before last j hpre

theorem exact_concat (hwindow : OneWindow (ds ++ [d])) (hnear : Near (numbers (ds ++ [d]))) (h : Exact ds) :
    Exact (ds ++ [d]) ↔ ∀ before last, numbers ds = before ++ [last] → Counted (numbers ds) last d.number := by
  have hreceived : (deliverAll (ds ++ [d])).received = (ds ++ [d]).length := hwindow.deliverAll_eq.2.1
  have hnumbers : numbers (ds ++ [d]) = numbers ds ++ [d.number] := List.map_append
  rw [Exact, and_iff_left hreceived, hwindow.lost_concat, h.1, hnumbers]
  rcases List.eq_nil_or_concat' ds with rfl | ⟨before, last, rfl⟩
  · -- the first delivery
    refine iff_of_true ?_ fun before last heq => ?_
    · have hnone : missing [d.number] = ∅ := by
        refine Finset.eq_empty_of_forall_notMem fun k hk => ?_
        obtain ⟨-, ⟨a, ha, hak⟩, b, hb, hkb⟩ := mem_missing.1 hk
        rw [List.mem_singleton] at ha hb
        omega
      have hnil : missing ([] : List Nat) = ∅ := rfl
      show (missing []).card + 0 = (missing [d.number]).card
      rw [hnone, hnil]
      rfl
    · exact absurd (congrArg List.length heq) (by rw [List.length_append]; exact Nat.zero_ne_add_one _)
  · have hns : numbers (before ++ [last]) = numbers before ++ [last.number] := List.map_append
    have hstep : d.number < last.number + 0x8000 ∧ last.number < d.number + 0x8000 := by
      rw [Near, hnumbers, hns, List.isChain_append] at hnear
      exact hnear.2.2 _ (by rw [List.getLast?_concat]; rfl) _ rfl
    have hmem : last.number ∈ numbers (before ++ [last]) := by
      rw [hns]
      exact List.mem_append_right _ (List.mem_singleton_self _)
    rw [List.getLast?_concat]
    refine (card_missing_snoc hmem hstep).trans ⟨fun hcounted before' last' heq => ?_, fun hall => ?_⟩
    · obtain ⟨-, heq⟩ := List.append_inj' (hns.symm.trans heq) rfl
      obtain rfl := List.singleton_inj.1 heq
      exact hcounted
    · exact hall _ _ hns

/-- At every delivery the statistics are exact, if and only if every delivery counts what it leaves out. -/
theorem lost_exact_iff (hwindow : OneWindow ds) (hnear : Near (numbers ds)) :
    (∀ arrived, arrived <+: ds → Exact arrived) ↔ StepsCounted (numbers ds) := by
  induction ds using List.reverseRecOn with
  | nil =>
    refine iff_of_true (fun arrived h => ?_) fun before last i h => ?_
    · obtain rfl := List.prefix_nil.1 h
      exact ⟨rfl, rfl⟩
    · exact absurd (List.prefix_nil.1 h) (List.append_ne_nil_of_right_ne_nil _ (List.cons_ne_nil i []))
  | append_singleton ds d ih =>
    have hnumbers : numbers (ds ++ [d]) = numbers ds ++ [d.number] := List.map_append
    have hnear' : Near (numbers ds) := by
      rw [Near, hnumbers, List.isChain_append] at hnear
      exact hnear.1
    rw [hnumbers, stepsCounted_concat, ← ih hwindow.of_concat hnear']
    constructor
    · intro h
      have hbefore : ∀ arrived, arrived <+: ds → Exact arrived :=
        fun arrived ha => h arrived (ha.trans (List.prefix_append ds [d]))
      refine ⟨hbefore, ?_⟩
      exact (exact_concat hwindow hnear (hbefore ds (List.prefix_refl ds))).1 (h _ (List.prefix_refl _))
    · rintro ⟨hbefore, hlast⟩ arrived ha
      rcases List.prefix_concat_iff.1 ha with rfl | hpre
      · exact (exact_concat hwindow hnear (hbefore ds (List.prefix_refl ds))).2 hlast
      · exact hbefore arrived hpre

/-- Packets across the wrap of the counter. -/
theorem lost_exact_iff_wrap :
    let ds : List Delivery := [⟨65534, ⟨0, 0, 0⟩⟩, ⟨65537, ⟨5, 5, 5⟩⟩, ⟨65538, ⟨9, 9, 9⟩⟩]
    (∀ arrived, arrived <+: ds → Exact arrived) ↔ StepsCounted (numbers ds) :=
  lost_exact_iff (by decide) (by decide)

/-- Every packet comes, the second one late: two are reported as lost. -/
theorem late_packet_counted :
    let ds : List Delivery := [⟨1, ⟨0, 0, 0⟩⟩, ⟨3, ⟨0, 0, 0⟩⟩, ⟨2, ⟨0, 0, 0⟩⟩, ⟨4, ⟨0, 0, 0⟩⟩]
    OneWindow ds ∧ ((numbers ds).IsChain fun last i => i < last + 1000 ∧ last < i + 1000) ∧
      missing (numbers ds) = ∅ ∧ (deliverAll ds).lost = 2 := by
  decide

end Run

end EverythingImu.Remote
