import EverythingImu.DeviceTraits
import EverythingImu.Library.FloatMonotone
import EverythingImu.Library.Recency
import Mathlib

/-!
# The OSC sniffer

`Sniffer` keeps a row for each of the addresses seen last, with the number of packets, the range of their values and the
latest one.  When it is full, a new address takes the place of the one seen longest ago.

At increasing times the sniffer holds the addresses that `Recency.kept` names, and the row of an address describes its
observations since it was last inserted (`ingestAll_most_recent`).
-/

namespace EverythingImu.OscHaptics

open FloatRound Recency

/-- One row of sniffer data. -/
structure SnifferEntry where
  address : String
  count : UInt64
  minValue : Float32
  maxValue : Float32
  latestValue : Float32
  lastSeen : Instant

/-- `u64::saturating_add(1)`. -/
def saturatingSucc (n : UInt64) : UInt64 := UInt64.ofNat (min (n.toNat + 1) (2 ^ 64 - 1))

/-- A packet for the sniffer. -/
structure Observation where
  address : String
  value : Float32
  time : Instant

def SnifferEntry.first (o : Observation) : SnifferEntry := ⟨o.address, 1, o.value, o.value, o.value, o.time⟩

def SnifferEntry.update (entry : SnifferEntry) (o : Observation) : SnifferEntry :=
  { entry with
    count := saturatingSucc entry.count
    latestValue := o.value
    minValue := if o.value < entry.minValue then o.value else entry.minValue
    maxValue := if o.value > entry.maxValue then o.value else entry.maxValue
    lastSeen := o.time }

structure Sniffer where
  entries : AList fun _ : String => SnifferEntry
  cap : Nat

namespace Sniffer

def new (cap : Nat) : Sniffer := ⟨∅, max cap 1⟩

variable (s : Sniffer)

/-- Of several entries with the smallest `last_seen` the first one of the map is removed, whatever its order. -/
def evictOldest : Sniffer :=
  match s.entries.entries.argmin (·.2.lastSeen) with
  | some oldest => { s with entries := s.entries.erase oldest.1 }
  | none => s

def len : Nat := s.entries.keys.length

/-- Ingest one packet at the time that the clock shows. -/
def ingest (o : Observation) : Sniffer :=
  match s.entries.lookup o.address with
  | some entry => { s with entries := s.entries.insert o.address (entry.update o) }
  | none =>
    let s := if s.cap ≤ s.len then s.evictOldest else s
    { s with entries := s.entries.insert o.address (.first o) }

def ingestAll (observations : List Observation) : Sniffer := observations.foldl ingest s

/-- The rows, the most recently active one first. -/
def snapshot : List SnifferEntry :=
  (s.entries.entries.map (·.2)).mergeSort fun a b => decide (b.lastSeen ≤ a.lastSeen)

end Sniffer

/-! ### What a row describes -/

/-- The observations of an address since it was last inserted, of a log with the newest one first.  An observation
inserts its address if that is not one of the `cap` addresses seen last. -/
def sinceInserted (cap : Nat) (address : String) : List Observation → List Observation
  | [] => []
  | o :: log =>
    if o.address = address then
      if address ∈ kept cap (log.map (·.address)) then o :: sinceInserted cap address log else [o]
    else sinceInserted cap address log

/-- The row sums up the observations, the newest one first. -/
structure Describes (e : SnifferEntry) (seen : List Observation) : Prop where
  address : ∀ o ∈ seen, o.address = e.address
  count : e.count.toNat = min seen.length (2 ^ 64 - 1)
  minValue_mem : ∃ o ∈ seen, o.value = e.minValue
  minValue_le : ∀ o ∈ seen, e.minValue ≤ o.value
  maxValue_mem : ∃ o ∈ seen, o.value = e.maxValue
  le_maxValue : ∀ o ∈ seen, o.value ≤ e.maxValue
  latest : ∃ o older, seen = o :: older ∧ e.latestValue = o.value ∧ e.lastSeen = o.time

theorem mem_of_mem_sinceInserted {cap : Nat} {address : String} {log : List Observation} {o : Observation}
    (h : o ∈ sinceInserted cap address log) : o ∈ log ∧ o.address = address := by
  induction log with
  | nil => cases h
  | cons o' log ih =>
    unfold sinceInserted at h
    split at h
    · rename_i haddress
      split at h
      · rcases List.mem_cons.1 h with rfl | h
        · exact ⟨List.mem_cons_self, haddress⟩
        · exact ⟨List.mem_cons_of_mem _ (ih h).1, (ih h).2⟩
      · rw [List.mem_singleton.1 h]
        exact ⟨List.mem_cons_self, haddress⟩
    · exact ⟨List.mem_cons_of_mem _ (ih h).1, (ih h).2⟩

theorem describes_first {o : Observation} (h : o.value.isNaN = false) : Describes (.first o) [o] where
  address o' ho' := by rw [List.mem_singleton.1 ho', SnifferEntry.first]
  count := rfl
  minValue_mem := ⟨o, List.mem_singleton_self o, rfl⟩
  minValue_le o' ho' := by
    rw [List.mem_singleton.1 ho']
    exact le_refl_f32 h
  maxValue_mem := ⟨o, List.mem_singleton_self o, rfl⟩
  le_maxValue o' ho' := by
    rw [List.mem_singleton.1 ho']
    exact le_refl_f32 h
  latest := ⟨o, [], rfl, rfl, rfl⟩

theorem toNat_saturatingSucc (n : UInt64) : (saturatingSucc n).toNat = min (n.toNat + 1) (2 ^ 64 - 1) := by
  rw [saturatingSucc, UInt64.toNat_ofNat']
  omega

theorem Describes.update {e : SnifferEntry} {seen : List Observation} (h : Describes e seen)
    (hseen : ∀ o ∈ seen, o.value.isNaN = false) {o : Observation} (ho : o.value.isNaN = false)
    (haddress : o.address = e.address) : Describes (e.update o) (o :: seen) := by
  obtain ⟨omin, hmem, hmin⟩ := h.minValue_mem
  obtain ⟨omax, hmem', hmax⟩ := h.maxValue_mem
  have hminNum : e.minValue.isNaN = false := hmin ▸ hseen omin hmem
  have hmaxNum : e.maxValue.isNaN = false := hmax ▸ hseen omax hmem'
  refine ⟨?_, ?_, ?_, ?_, ?_, ?_, ⟨o, seen, rfl, rfl, rfl⟩⟩
  · exact List.forall_mem_cons.2 ⟨haddress, h.address⟩
  · show (saturatingSucc e.count).toNat = _
    rw [toNat_saturatingSucc, h.count, List.length_cons]
    omega
  · show ∃ o' ∈ o :: seen, o'.value = if o.value < e.minValue then o.value else e.minValue
    split
    · exact ⟨o, List.mem_cons_self, rfl⟩
    · exact ⟨omin, List.mem_cons_of_mem _ hmem, hmin⟩
  · show ∀ o' ∈ o :: seen, (if o.value < e.minValue then o.value else e.minValue) ≤ o'.value
    split
    · rename_i hlt
      refine List.forall_mem_cons.2 ⟨le_refl_f32 ho, fun o' ho' => ?_⟩
      exact le_trans_f32 ho hminNum (hseen o' ho') (le_of_lt_f32 ho hminNum hlt) (h.minValue_le o' ho')
    · rename_i hlt
      refine List.forall_mem_cons.2 ⟨?_, h.minValue_le⟩
      exact Decidable.of_not_not (mt (FloatOrder.not_le_iff_lt_f32 hminNum ho).1 hlt)
  · show ∃ o' ∈ o :: seen, o'.value = if o.value > e.maxValue then o.value else e.maxValue
    split
    · exact ⟨o, List.mem_cons_self, rfl⟩
    · exact ⟨omax, List.mem_cons_of_mem _ hmem', hmax⟩
  · show ∀ o' ∈ o :: seen, o'.value ≤ if o.value > e.maxValue then o.value else e.maxValue
    split
    · rename_i hlt
      refine List.forall_mem_cons.2 ⟨le_refl_f32 ho, fun o' ho' => ?_⟩
      exact le_trans_f32 (hseen o' ho') hmaxNum ho (h.le_maxValue o' ho') (le_of_lt_f32 hmaxNum ho hlt)
    · rename_i hlt
      refine List.forall_mem_cons.2 ⟨?_, h.le_maxValue⟩
      exact Decidable.of_not_not (mt (FloatOrder.not_le_iff_lt_f32 ho hmaxNum).1 hlt)

/-! ### The addresses that are held -/

namespace Sniffer

/-- The sniffer after the observations, of which the newest one is first. -/
structure Tracks (s : Sniffer) (log : List Observation) : Prop where
  held : ∀ a, a ∈ s.entries ↔ a ∈ kept s.cap (log.map (·.address))
  describes : ∀ a e, s.entries.lookup a = some e → e.address = a ∧ Describes e (sinceInserted s.cap a log)
  ordered : (kept s.cap (log.map (·.address))).Pairwise fun a b =>
    ∀ e e', s.entries.lookup a = some e → s.entries.lookup b = some e' → e'.lastSeen < e.lastSeen

variable {s : Sniffer} {log : List Observation} {o : Observation}

theorem tracks_new (cap : Nat) : Tracks (new cap) [] where
  held a := by simp [new, kept, recent]
  describes a e h := by
    rw [new, AList.lookup_empty] at h
    cases h
  ordered := by simp [kept, recent]

/-- Replace or add one row, and keep `rest` of the others. -/
theorem Tracks.insert (h : s.Tracks log) {entries : AList fun _ : String => SnifferEntry} {rest : List String}
    {e : SnifferEntry}
    (hkept : kept s.cap (o.address :: log.map (·.address)) = o.address :: rest)
    (hrest : rest.Sublist (kept s.cap (log.map (·.address))))
    (hentries : ∀ a ≠ o.address, (a ∈ entries ↔ a ∈ rest))
    (hlookup : ∀ a e, entries.lookup a = some e → a ≠ o.address → s.entries.lookup a = some e)
    (haddress : e.address = o.address) (hdescribes : Describes e (sinceInserted s.cap o.address (o :: log)))
    (htime : e.lastSeen = o.time) (hlater : ∀ o' ∈ log, o'.time < o.time) :
    Tracks { s with entries := entries.insert o.address e } (o :: log) := by
  have hnotMem : ∀ a ∈ rest, a ≠ o.address := by
    rintro a ha rfl
    have hnodup := nodup_kept s.cap (o.address :: log.map (·.address))
    rw [hkept] at hnodup
    exact (List.nodup_cons.1 hnodup).1 ha
  have hother {a : String} {e' : SnifferEntry} (ha : a ≠ o.address)
      (he' : (entries.insert o.address e).lookup a = some e') : s.entries.lookup a = some e' := by
    rw [AList.lookup_insert_ne ha] at he'
    exact hlookup a e' he' ha
  constructor
  · intro a
    rw [List.map_cons, hkept, AList.mem_insert, List.mem_cons]
    by_cases ha : a = o.address
    · simp [ha]
    · simp only [ha, false_or]
      exact hentries a ha
  · intro a e' he'
    by_cases ha : a = o.address
    · subst ha
      rw [AList.lookup_insert] at he'
      cases he'
      exact ⟨haddress, hdescribes⟩
    · rw [sinceInserted, if_neg (Ne.symm ha)]
      exact h.describes a e' (hother ha he')
  · rw [List.map_cons, hkept, List.pairwise_cons]
    constructor
    · intro a ha e₁ e₂ h₁ h₂
      rw [AList.lookup_insert] at h₁
      cases h₁
      obtain ⟨o', older, hseen, -, htime'⟩ := (h.describes a e₂ (hother (hnotMem a ha) h₂)).2.latest
      rw [htime, htime']
      exact hlater o' (mem_of_mem_sinceInserted (hseen ▸ List.mem_cons_self)).1
    · refine (h.ordered.sublist hrest).imp_of_mem ?_
      intro a b ha hb hab e₁ e₂ h₁ h₂
      exact hab e₁ e₂ (hother (hnotMem a ha) h₁) (hother (hnotMem b hb) h₂)

theorem Tracks.keys_perm (h : s.Tracks log) : s.entries.keys.Perm (kept s.cap (log.map (·.address))) :=
  (List.perm_ext_iff_of_nodup s.entries.keys_nodup (nodup_kept _ _)).2 fun a => AList.mem_keys.symm.trans (h.held a)

theorem Tracks.len_eq (h : s.Tracks log) : s.len = (kept s.cap (log.map (·.address))).length := h.keys_perm.length_eq

/-- The row that is evicted is that of the address seen longest ago. -/
theorem Tracks.evictOldest_eq (h : s.Tracks log) {newer : List String} {oldest : String}
    (hkept : kept s.cap (log.map (·.address)) = newer ++ [oldest]) :
    s.evictOldest = { s with entries := s.entries.erase oldest } := by
  have hheld : oldest ∈ s.entries := (h.held oldest).2 (hkept ▸ List.mem_append_right _ (List.mem_singleton_self _))
  obtain ⟨e, he⟩ := Option.isSome_iff_exists.1 (AList.lookup_isSome.2 hheld)
  have hmem : (⟨oldest, e⟩ : Sigma fun _ : String => SnifferEntry) ∈ s.entries.entries := AList.mem_lookup_iff.1 he
  unfold evictOldest
  cases hmin : s.entries.entries.argmin (·.2.lastSeen) with
  | none => rw [List.argmin_eq_none.1 hmin] at hmem; cases hmem
  | some m =>
    have hm : s.entries.lookup m.1 = some m.2 := AList.mem_lookup_iff.2 (List.argmin_mem hmin)
    have hle := List.le_of_mem_argmin hmem hmin
    have hm1 : m.1 = oldest := by
      by_contra hne
      have hin : m.1 ∈ newer ++ [oldest] := hkept ▸ (h.held m.1).1 (AList.lookup_isSome.1 (by rw [hm]; rfl))
      have hnewer : m.1 ∈ newer := (List.mem_append.1 hin).resolve_right fun h' => hne (List.mem_singleton.1 h')
      have hordered := h.ordered
      rw [hkept, List.pairwise_append] at hordered
      exact absurd (hordered.2.2 m.1 hnewer oldest (List.mem_singleton_self _) m.2 e hm he) (not_lt.2 hle)
    dsimp only
    rw [hm1]

/-- The sniffer has room for a new address, or makes some. -/
def room (s : Sniffer) : Sniffer := if s.cap ≤ s.len then s.evictOldest else s

theorem ingest_of_none (h : s.entries.lookup o.address = none) :
    s.ingest o = { s.room with entries := s.room.entries.insert o.address (.first o) } := by
  rw [ingest, h]
  rfl

theorem ingest_of_some {entry : SnifferEntry} (h : s.entries.lookup o.address = some entry) :
    s.ingest o = { s with entries := s.entries.insert o.address (entry.update o) } := by rw [ingest, h]

theorem sinceInserted_of_held (h : o.address ∈ kept s.cap (log.map (·.address))) :
    sinceInserted s.cap o.address (o :: log) = o :: sinceInserted s.cap o.address log := by
  rw [sinceInserted, if_pos rfl, if_pos h]

theorem sinceInserted_of_not_held (h : o.address ∉ kept s.cap (log.map (·.address))) :
    sinceInserted s.cap o.address (o :: log) = [o] := by
  rw [sinceInserted, if_pos rfl, if_neg h]

theorem Tracks.ingest_held (h : s.Tracks log) {entry : SnifferEntry} (he : s.entries.lookup o.address = some entry)
    (hlog : ∀ o' ∈ log, o'.value.isNaN = false ∧ o'.time < o.time) (ho : o.value.isNaN = false) :
    (s.ingest o).Tracks (o :: log) := by
  have hheld := (h.held o.address).1 (AList.lookup_isSome.1 (by rw [he]; rfl))
  obtain ⟨haddress, hdescribes⟩ := h.describes o.address entry he
  rw [ingest_of_some he]
  refine h.insert (kept_cons_of_mem hheld) List.erase_sublist ?_ (fun a e' he' _ => he') haddress ?_ rfl
    (fun o' ho' => (hlog o' ho').2)
  · intro a ha
    rw [h.held, List.mem_erase_of_ne ha]
  · rw [sinceInserted_of_held hheld]
    exact hdescribes.update (fun o' ho' => (hlog o' (mem_of_mem_sinceInserted ho').1).1) ho haddress.symm

theorem Tracks.ingest_new (h : s.Tracks log) (hcap : 0 < s.cap) (hnone : s.entries.lookup o.address = none)
    (hlog : ∀ o' ∈ log, o'.value.isNaN = false ∧ o'.time < o.time) (ho : o.value.isNaN = false) :
    (s.ingest o).Tracks (o :: log) := by
  have hnot : o.address ∉ kept s.cap (log.map (·.address)) := by
    rw [← h.held, ← AList.lookup_eq_none]
    exact hnone
  have hdescribes : Describes (.first o) (sinceInserted s.cap o.address (o :: log)) := by
    rw [sinceInserted_of_not_held hnot]
    exact describes_first ho
  rw [ingest_of_none hnone, room]
  split
  · rename_i hfull
    have hlen : (kept s.cap (log.map (·.address))).length = s.cap := by
      refine le_antisymm ?_ (h.len_eq ▸ hfull)
      rw [kept, List.length_take]
      exact Nat.min_le_left _ _
    obtain ⟨newer, oldest, hkept⟩ : ∃ newer oldest, kept s.cap (log.map (·.address)) = newer ++ [oldest] := by
      refine ⟨_, _, (List.dropLast_append_getLast ?_).symm⟩
      rw [← List.length_pos_iff]
      omega
    rw [h.evictOldest_eq hkept]
    have hnew : kept s.cap (o.address :: log.map (·.address)) = o.address :: newer := by
      rw [kept_cons_of_full hnot hlen hcap, hkept, List.dropLast_concat]
    refine h.insert hnew ?_ ?_ ?_ rfl hdescribes rfl (fun o' ho' => (hlog o' ho').2)
    · rw [hkept]
      exact List.sublist_append_left _ _
    · intro a ha
      have hnodup := nodup_kept s.cap (log.map (·.address))
      rw [AList.mem_erase, h.held, hkept, List.mem_append, List.mem_singleton]
      rw [hkept, List.nodup_append] at hnodup
      constructor
      · rintro ⟨hne, hmem | heq⟩
        · exact hmem
        · exact absurd heq hne
      · intro hmem
        exact ⟨hnodup.2.2 a hmem oldest (List.mem_singleton_self _), Or.inl hmem⟩
    · intro a e he _
      have hne : a ≠ oldest := by
        rintro rfl
        rw [AList.lookup_erase] at he
        cases he
      rwa [AList.lookup_erase_ne hne] at he
  · rename_i hroom
    refine h.insert (kept_cons_of_lt hnot (h.len_eq ▸ not_le.1 hroom)) (List.Sublist.refl _)
      (fun a _ => h.held a) (fun a e he _ => he) rfl hdescribes rfl (fun o' ho' => (hlog o' ho').2)

theorem Tracks.ingest (h : s.Tracks log) (hcap : 0 < s.cap)
    (hlog : ∀ o' ∈ log, o'.value.isNaN = false ∧ o'.time < o.time) (ho : o.value.isNaN = false) :
    (s.ingest o).Tracks (o :: log) := by
  cases he : s.entries.lookup o.address with
  | some entry => exact h.ingest_held he hlog ho
  | none => exact h.ingest_new hcap he hlog ho

theorem cap_ingest (s : Sniffer) (o : Observation) : (s.ingest o).cap = s.cap := by
  cases he : s.entries.lookup o.address with
  | some entry => rw [ingest_of_some he]
  | none =>
    rw [ingest_of_none he]
    show s.room.cap = s.cap
    unfold room evictOldest
    split
    · split <;> rfl
    · rfl

theorem Tracks.ingestAll {observations : List Observation} (h : s.Tracks log) (hcap : 0 < s.cap)
    (hvalues : ∀ o ∈ observations, o.value.isNaN = false) (hlogValues : ∀ o ∈ log, o.value.isNaN = false)
    (htimes : observations.Pairwise fun o o' => o.time < o'.time)
    (hlogTimes : ∀ o' ∈ log, ∀ o ∈ observations, o'.time < o.time) :
    (s.ingestAll observations).Tracks (observations.reverse ++ log) ∧ (s.ingestAll observations).cap = s.cap := by
  induction observations generalizing s log with
  | nil => exact ⟨h, rfl⟩
  | cons o observations ih =>
    obtain ⟨hfirst, htimes⟩ := List.pairwise_cons.1 htimes
    obtain ⟨ho, hvalues⟩ := List.forall_mem_cons.1 hvalues
    have hstep := h.ingest (o := o) hcap
      (fun o' ho' => ⟨hlogValues o' ho', hlogTimes o' ho' o List.mem_cons_self⟩) ho
    have hrun := ih hstep (cap_ingest s o ▸ hcap) hvalues (List.forall_mem_cons.2 ⟨ho, hlogValues⟩) htimes
      (List.forall_mem_cons.2 ⟨hfirst, fun o' ho' o'' ho'' => hlogTimes o' ho' o'' (List.mem_cons_of_mem _ ho'')⟩)
    rw [List.reverse_cons, List.append_assoc, List.singleton_append, ← cap_ingest s o]
    exact hrun

theorem Tracks.mem_snapshot (h : s.Tracks log) {e : SnifferEntry} :
    e ∈ s.snapshot ↔ s.entries.lookup e.address = some e := by
  rw [snapshot, List.mem_mergeSort, List.mem_map]
  constructor
  · rintro ⟨row, hrow, rfl⟩
    have hlookup : s.entries.lookup row.1 = some row.2 := AList.mem_lookup_iff.2 hrow
    rw [(h.describes row.1 row.2 hlookup).1]
    exact hlookup
  · intro he
    exact ⟨⟨e.address, e⟩, AList.mem_lookup_iff.1 he, rfl⟩

theorem Tracks.addresses_perm (h : s.Tracks log) :
    (s.snapshot.map (·.address)).Perm (kept s.cap (log.map (·.address))) := by
  have hkeys : s.entries.keys = (s.entries.entries.map (·.2)).map (·.address) := by
    rw [List.map_map]
    refine List.map_congr_left fun row hrow => ?_
    exact ((h.describes row.1 row.2 (AList.mem_lookup_iff.2 hrow)).1).symm
  refine List.Perm.trans ?_ h.keys_perm
  rw [hkeys]
  exact (List.mergeSort_perm _ _).map _

theorem pairwise_snapshot (s : Sniffer) : s.snapshot.Pairwise fun e e' => e'.lastSeen ≤ e.lastSeen := by
  have htrans (a b c : SnifferEntry) (hab : decide (b.lastSeen ≤ a.lastSeen) = true)
      (hbc : decide (c.lastSeen ≤ b.lastSeen) = true) : decide (c.lastSeen ≤ a.lastSeen) = true :=
    decide_eq_true (le_trans (of_decide_eq_true hbc) (of_decide_eq_true hab))
  have htotal (a b : SnifferEntry) :
      (decide (b.lastSeen ≤ a.lastSeen) || decide (a.lastSeen ≤ b.lastSeen)) = true := by
    simpa using le_total b.lastSeen a.lastSeen
  exact (List.pairwise_mergeSort htrans htotal _).imp of_decide_eq_true

/-- The rows come in the order of the addresses that are kept. -/
theorem Tracks.snapshot_addresses (h : s.Tracks log) :
    s.snapshot.map (·.address) = kept s.cap (log.map (·.address)) := by
  -- both lists have the address seen later first
  let after (a b : String) : Prop :=
    ∀ e e', s.entries.lookup a = some e → s.entries.lookup b = some e' → e'.lastSeen ≤ e.lastSeen
  have hrows : (s.snapshot.map (·.address)).Pairwise after := by
    rw [List.pairwise_map]
    refine s.pairwise_snapshot.imp_of_mem ?_
    intro e e' he he' hle e₁ e₁' h₁ h₁'
    rw [h.mem_snapshot.1 he] at h₁
    rw [h.mem_snapshot.1 he'] at h₁'
    cases h₁
    cases h₁'
    exact hle
  have hkept : (kept s.cap (log.map (·.address))).Pairwise after :=
    h.ordered.imp fun hab e e' he he' => (hab e e' he he').le
  refine h.addresses_perm.eq_of_pairwise ?_ hrows hkept
  intro a b ha hb hab hba
  by_contra hne
  have hheld {a : String} (ha : a ∈ kept s.cap (log.map (·.address))) : ∃ e, s.entries.lookup a = some e :=
    Option.isSome_iff_exists.1 (AList.lookup_isSome.2 ((h.held a).2 ha))
  have ha := h.addresses_perm.subset ha
  obtain ⟨e, he⟩ := hheld ha
  obtain ⟨e', he'⟩ := hheld hb
  let apart (a b : String) : Prop :=
    ∀ e e', s.entries.lookup a = some e → s.entries.lookup b = some e' → e'.lastSeen ≠ e.lastSeen
  have : Std.Symm apart := ⟨fun a b hab e e' he he' => (hab e' e he' he).symm⟩
  have hapart : (kept s.cap (log.map (·.address))).Pairwise apart :=
    h.ordered.imp fun hab e e' he he' => (hab e e' he he').ne
  exact hapart.forall ha hb hne e e' he he' (le_antisymm (hab e e' he he') (hba e' e he' he))

/-! ### Whole runs -/

theorem tracks_ingestAll (cap : Nat) {observations : List Observation}
    (hvalues : ∀ o ∈ observations, o.value.isNaN = false)
    (htimes : observations.Pairwise fun o o' => o.time < o'.time) :
    ((new cap).ingestAll observations).Tracks observations.reverse ∧
      ((new cap).ingestAll observations).cap = max cap 1 := by
  have h := (tracks_new cap).ingestAll (Nat.le_max_right cap 1) hvalues (by simp) htimes (by simp)
  rwa [List.append_nil] at h

/-- The sniffer holds the addresses seen last, as many as it has room for, and each row sums up the observations since
its address was last inserted. -/
theorem ingestAll_most_recent (cap : Nat) (observations : List Observation)
    (hvalues : ∀ o ∈ observations, o.value.isNaN = false)
    (htimes : observations.Pairwise fun o o' => o.time < o'.time) :
    let s := (new cap).ingestAll observations
    let log := observations.reverse
    s.len = min (max cap 1) (observations.map (·.address)).toFinset.card ∧
    s.snapshot.map (·.address) = kept (max cap 1) (log.map (·.address)) ∧
    (∀ a, a ∈ s.entries ↔
      ∃ later earlier, log.map (·.address) = later ++ a :: earlier ∧ a ∉ later ∧
        later.toFinset.card < max cap 1) ∧
    ∀ e ∈ s.snapshot, Describes e (sinceInserted (max cap 1) e.address log) := by
  dsimp only
  obtain ⟨h, hcap⟩ := tracks_ingestAll cap hvalues htimes
  rw [← hcap]
  refine ⟨?_, h.snapshot_addresses, fun a => (h.held a).trans mem_kept_iff, ?_⟩
  · rw [h.len_eq, length_kept, List.map_reverse, List.toFinset_reverse]
  · intro e he
    exact (h.describes e.address e (h.mem_snapshot.1 he)).2

theorem ingestAll_most_recent_three :
    ((new 2).ingestAll [⟨"/a", 0.5, 1⟩, ⟨"/b", 0.5, 2⟩, ⟨"/a", 1.0, 3⟩, ⟨"/c", 0.5, 4⟩]).snapshot.map (·.address) =
      ["/c", "/a"] := by
  have h := ingestAll_most_recent 2 [⟨"/a", 0.5, 1⟩, ⟨"/b", 0.5, 2⟩, ⟨"/a", 1.0, 3⟩, ⟨"/c", 0.5, 4⟩]
    (by decide) (by decide)
  rw [h.2.1]
  decide

/-! ### The count stops -/

theorem sinceInserted_of_forall {cap : Nat} (hcap : 0 < cap) {a : String} {log : List Observation}
    (h : ∀ o ∈ log, o.address = a) : sinceInserted cap a log = log := by
  induction log with
  | nil => rfl
  | cons o log ih =>
    obtain ⟨ho, hlog⟩ := List.forall_mem_cons.1 h
    rw [sinceInserted, if_pos ho]
    cases log with
    | nil => simp [kept, recent]
    | cons o' log =>
      have hheld : a ∈ kept cap ((o' :: log).map (·.address)) := by
        rw [List.map_cons, hlog o' List.mem_cons_self]
        exact mem_kept_iff.2 ⟨[], log.map (·.address), rfl, List.not_mem_nil, hcap⟩
      rw [if_pos hheld, ih hlog]

/-- Packets for one address, a nanosecond apart. -/
def steadyPackets (n : Nat) : List Observation := (List.range n).map fun i => ⟨"/a", 1.0, i⟩

theorem steadyPackets_values (n : Nat) : ∀ o ∈ steadyPackets n, o.value.isNaN = false := by
  intro o ho
  obtain ⟨i, -, rfl⟩ := List.mem_map.1 ho
  show (1.0 : Float32).isNaN = false
  decide

theorem steadyPackets_times (n : Nat) : (steadyPackets n).Pairwise fun o o' => o.time < o'.time := by
  rw [steadyPackets, List.pairwise_map]
  exact List.pairwise_lt_range

theorem count_steadyPackets {n : Nat} (hn : 0 < n) :
    ∃ e ∈ ((new 1).ingestAll (steadyPackets n)).snapshot, e.count.toNat = min n (2 ^ 64 - 1) ∧
      (sinceInserted 1 e.address (steadyPackets n).reverse).length = n := by
  obtain ⟨h, hcap⟩ := tracks_ingestAll 1 (steadyPackets_values n) (steadyPackets_times n)
  have hcap : ((new 1).ingestAll (steadyPackets n)).cap = 1 := hcap
  have hlength : (steadyPackets n).reverse.length = n := by
    rw [List.length_reverse, steadyPackets, List.length_map, List.length_range]
  have haddress : ∀ o ∈ (steadyPackets n).reverse, o.address = "/a" := by
    intro o ho
    obtain ⟨i, -, rfl⟩ := List.mem_map.1 (List.mem_reverse.1 ho)
    rfl
  obtain ⟨newest, older, hlog⟩ := List.exists_cons_of_length_pos (hlength.symm ▸ hn)
  have hheld : "/a" ∈ ((new 1).ingestAll (steadyPackets n)).entries := by
    rw [h.held, hcap, hlog, List.map_cons, haddress newest (hlog ▸ List.mem_cons_self)]
    exact mem_kept_iff.2 ⟨[], older.map (·.address), rfl, List.not_mem_nil, Nat.one_pos⟩
  obtain ⟨e, he⟩ := Option.isSome_iff_exists.1 (AList.lookup_isSome.2 hheld)
  obtain ⟨hname, hdescribes⟩ := h.describes "/a" e he
  rw [hcap, sinceInserted_of_forall Nat.one_pos haddress] at hdescribes
  refine ⟨e, h.mem_snapshot.2 (hname.symm ▸ he), ?_, ?_⟩
  · rw [hdescribes.count, hlength]
  · rw [hname, sinceInserted_of_forall Nat.one_pos haddress, hlength]

theorem ingestAll_count_saturated :
    (∀ o ∈ steadyPackets (2 ^ 64), o.value.isNaN = false) ∧
    ((steadyPackets (2 ^ 64)).Pairwise fun o o' => o.time < o'.time) ∧
    ∃ e ∈ ((new 1).ingestAll (steadyPackets (2 ^ 64))).snapshot,
      e.count.toNat ≠ (sinceInserted 1 e.address (steadyPackets (2 ^ 64)).reverse).length := by
  refine ⟨steadyPackets_values _, steadyPackets_times _, ?_⟩
  obtain ⟨e, he, hcount, hlength⟩ := count_steadyPackets (show 0 < 2 ^ 64 by norm_num)
  refine ⟨e, he, ?_⟩
  rw [hcount, hlength]
  norm_num

end Sniffer

end EverythingImu.OscHaptics
