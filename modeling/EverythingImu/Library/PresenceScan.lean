import Mathlib

/-!
# Repeated scans with a memory of what is known

A scan goes over the entries that are on a bus.  It forgets the keys that are no longer there and then visits the
entries in order: an entry with a known key is skipped; the key of any other becomes known, and the entry is found if
it is supported and can be opened, while a supported one that cannot be opened is left for the next scan.

An entry settles its key when it is opened or is not supported.  A key is known exactly if it was settled in some scan
and has been there ever since (`mem_known_iff`), so what a scan finds of a key is its first settling entry, unless the
key was settled before and has not left the bus (`scan_found_filter`, `mem_found_iff`).
-/

namespace PresenceScan

/-- What is particular to one kind of scan.  Whether an entry is kept may depend on all that is on the bus. -/
structure Driver (E K : Type*) where
  keep : List E → E → Bool
  key : E → K
  supported : E → Bool

variable {E K : Type*} [DecidableEq K]

namespace Driver

variable (d : Driver E K)

/-- The entries that a scan visits; an entry of the bus says if it can be opened. -/
def selected (bus : List (E × Bool)) : List (E × Bool) :=
  bus.filter fun e => d.keep (bus.map (·.1)) e.1

/-- The keys that are there. -/
def present (bus : List (E × Bool)) : List K := (d.selected bus).map fun e => d.key e.1

/-- One entry, after some keys are known and some entries found. -/
def visit (st : Finset K × List E) (e : E × Bool) : Finset K × List E :=
  let (known, found) := st
  let key := d.key e.1
  if key ∈ known then st
  else
    let known := insert key known
    if !d.supported e.1 then (known, found)
    else if !e.2 then (known.erase key, found)
    else (known, found ++ [e.1])

def scan (known : Finset K) (bus : List (E × Bool)) : Finset K × List E :=
  (d.selected bus).foldl d.visit (known.filter (· ∈ d.present bus), [])

/-- The keys that are known before a scan. -/
def known (buses : Nat → List (E × Bool)) : Nat → Finset K
  | 0 => ∅
  | n + 1 => (d.scan (known buses n) (buses n)).1

/-- What a scan finds. -/
def found (buses : Nat → List (E × Bool)) (n : Nat) : List E := (d.scan (d.known buses n) (buses n)).2

/-- The entry settles its key. -/
def settles (k : K) (e : E × Bool) : Bool := d.key e.1 = k && (e.2 || !d.supported e.1)

/-- The first entry that settles a key. -/
def settling (bus : List (E × Bool)) (k : K) : Option E := ((d.selected bus).find? (d.settles k)).map (·.1)

variable {d}

theorem of_settling {bus : List (E × Bool)} {k : K} {e : E} (h : d.settling bus k = some e) :
    d.key e = k ∧ ∃ e' ∈ d.selected bus, e'.1 = e := by
  obtain ⟨e, hfind, rfl⟩ := Option.map_eq_some_iff.1 h
  have hs := List.find?_some hfind
  simp only [settles, Bool.and_eq_true, decide_eq_true_eq] at hs
  exact ⟨hs.1, e, List.mem_of_find?_eq_some hfind, rfl⟩

/-- A key that is always supported is settled when one of its entries is opened. -/
theorem settling_isSome_iff {bus : List (E × Bool)} {k : K}
    (hsup : ∀ e ∈ d.selected bus, d.key e.1 = k → d.supported e.1 = true) :
    (d.settling bus k).isSome = true ↔ ∃ e ∈ d.selected bus, d.key e.1 = k ∧ e.2 = true := by
  rw [settling, Option.isSome_map, List.find?_isSome]
  refine exists_congr fun e => and_congr_right fun he => ?_
  simp only [settles, Bool.and_eq_true, decide_eq_true_eq, Bool.or_eq_true]
  refine and_congr_right fun hk => or_iff_left ?_
  simp [hsup e he hk]

/-! ### One scan -/

/-- A visited key is known if it was or if the entry settles it. -/
theorem mem_visit_iff {st : Finset K × List E} {e : E × Bool} {k : K} :
    k ∈ (d.visit st e).1 ↔ k ∈ st.1 ∨ d.settles k e = true := by
  obtain ⟨known, found⟩ := st
  simp only [visit, settles, Bool.and_eq_true, decide_eq_true_eq, Bool.or_eq_true]
  by_cases hmem : d.key e.1 ∈ known
  · rw [if_pos hmem]
    exact ⟨Or.inl, fun h => h.elim id fun h => h.1 ▸ hmem⟩
  · have hins : k ∈ insert (d.key e.1) known ↔ k ∈ known ∨ d.key e.1 = k := by
      rw [Finset.mem_insert, or_comm, eq_comm]
    rw [if_neg hmem]
    by_cases hsup : d.supported e.1 = true
    · cases hopen : e.2 with
      | true => simpa [hsup] using hins
      | false => simp [hsup, Finset.erase_insert hmem]
    · simpa [hsup] using hins

/-- An entry is found if it is the first to settle its key and is supported. -/
theorem visit_found_filter {st : Finset K × List E} {e : E × Bool} {k : K} :
    (d.visit st e).2.filter (d.key · = k) =
      st.2.filter (d.key · = k) ++
        if k ∉ st.1 ∧ d.settles k e = true then [e.1].filter d.supported else [] := by
  obtain ⟨known, found⟩ := st
  simp only [visit, settles, Bool.and_eq_true, decide_eq_true_eq, Bool.or_eq_true]
  by_cases hmem : d.key e.1 ∈ known
  · have hno : ¬ (k ∉ known ∧ d.key e.1 = k ∧ (e.2 = true ∨ (!d.supported e.1) = true)) :=
      fun h => h.1 (h.2.1 ▸ hmem)
    rw [if_pos hmem, if_neg hno, List.append_nil]
  · rw [if_neg hmem]
    by_cases hsup : d.supported e.1 = true
    · cases hopen : e.2 with
      | true =>
        by_cases hk : d.key e.1 = k
        · subst hk
          simp [hsup, hmem]
        · simp [hsup, hk]
      | false => simp [hsup]
    · simp [hsup]

/-- After some entries a key is known if it was or if one of them settles it; what they add of it is the first of
those. -/
theorem visits_spec (l : List (E × Bool)) (st : Finset K × List E) (k : K) :
    (k ∈ (l.foldl d.visit st).1 ↔ k ∈ st.1 ∨ (l.find? (d.settles k)).isSome = true) ∧
      (l.foldl d.visit st).2.filter (d.key · = k) =
        st.2.filter (d.key · = k) ++
          if k ∈ st.1 then [] else ((l.find? (d.settles k)).map (·.1)).toList.filter d.supported := by
  induction l generalizing st with
  | nil => simp
  | cons e l ih =>
    obtain ⟨hknown, hfound⟩ := ih (d.visit st e)
    rw [List.foldl_cons, hknown, hfound, visit_found_filter]
    simp only [mem_visit_iff]
    by_cases hs : d.settles k e = true
    · rw [List.find?_cons_of_pos hs]
      by_cases hk : k ∈ st.1 <;> simp [hs, hk]
    · rw [List.find?_cons_of_neg hs]
      simp [hs]

/-- A key is known after a scan if it was known and is there, or if it is settled. -/
theorem mem_scan_iff {known : Finset K} {bus : List (E × Bool)} {k : K} :
    k ∈ (d.scan known bus).1 ↔ (k ∈ known ∧ k ∈ d.present bus) ∨ (d.settling bus k).isSome = true := by
  rw [scan, (visits_spec _ _ k).1, Finset.mem_filter, settling, Option.isSome_map]

theorem scan_found_filter (known : Finset K) (bus : List (E × Bool)) (k : K) :
    (d.scan known bus).2.filter (d.key · = k) =
      if k ∈ known ∧ k ∈ d.present bus then [] else (d.settling bus k).toList.filter d.supported := by
  rw [scan, (visits_spec _ _ k).2, List.filter_nil, List.nil_append, settling]
  simp only [Finset.mem_filter]

/-- The entries that a scan may find. -/
def ready (d : Driver E K) (e : E × Bool) : Bool := e.2 && d.supported e.1

/-- What some entries add is found in their order, and each of them was opened and is supported. -/
theorem exists_visits_found (l : List (E × Bool)) (st : Finset K × List E) :
    ∃ added, (l.foldl d.visit st).2 = st.2 ++ added ∧ added.Sublist ((l.filter d.ready).map (·.1)) := by
  induction l generalizing st with
  | nil => exact ⟨[], by simp, List.Sublist.refl _⟩
  | cons e l ih =>
    obtain ⟨added, heq, hsub⟩ := ih (d.visit st e)
    obtain hsame | ⟨hready, hadd⟩ : (d.visit st e).2 = st.2 ∨
        d.ready e = true ∧ (d.visit st e).2 = st.2 ++ [e.1] := by
      simp only [visit, ready, Bool.and_eq_true]
      by_cases hmem : d.key e.1 ∈ st.1
      · exact Or.inl (by rw [if_pos hmem])
      · cases hsup : d.supported e.1 <;> cases hopen : e.2 <;> simp [hmem]
    · refine ⟨added, by rw [List.foldl_cons, heq, hsame], hsub.trans ?_⟩
      exact ((List.sublist_cons_self e l).filter _).map _
    · refine ⟨e.1 :: added, by rw [List.foldl_cons, heq, hadd, List.append_assoc, List.singleton_append], ?_⟩
      rw [List.filter_cons_of_pos hready, List.map_cons]
      exact hsub.cons_cons e.1

theorem scan_found_sublist (known : Finset K) (bus : List (E × Bool)) :
    (d.scan known bus).2.Sublist (((d.selected bus).filter d.ready).map (·.1)) := by
  obtain ⟨added, heq, hsub⟩ := exists_visits_found (d.selected bus) (known.filter (· ∈ d.present bus), [])
  rw [scan, heq, List.nil_append]
  exact hsub

/-- Entries with new and different keys that can all be opened are all found, if they are supported. -/
theorem visits_found_eq {l : List (E × Bool)} (st : Finset K × List E) (hopen : ∀ e ∈ l, e.2 = true)
    (hnew : ∀ e ∈ l, d.key e.1 ∉ st.1) (hnodup : (l.map fun e => d.key e.1).Nodup) :
    (l.foldl d.visit st).2 = st.2 ++ (l.map (·.1)).filter d.supported := by
  induction l generalizing st with
  | nil => simp
  | cons e l ih =>
    obtain ⟨hne, hnodup⟩ := List.nodup_cons.1 hnodup
    have hvisit : (d.visit st e).2 = st.2 ++ [e.1].filter d.supported := by
      simp only [visit, if_neg (hnew e List.mem_cons_self), hopen e List.mem_cons_self]
      by_cases hsup : d.supported e.1 = true <;> simp [hsup]
    have hrest : ∀ e' ∈ l, d.key e'.1 ∉ (d.visit st e).1 := by
      intro e' he' hmem
      rcases mem_visit_iff.1 hmem with h | h
      · exact hnew e' (List.mem_cons_of_mem _ he') h
      · simp only [settles, Bool.and_eq_true, decide_eq_true_eq] at h
        exact hne (List.mem_map.2 ⟨e', he', h.1.symm⟩)
    rw [List.foldl_cons, ih (d.visit st e) (fun e' he' => hopen e' (List.mem_cons_of_mem _ he')) hrest hnodup, hvisit,
      List.append_assoc, ← List.filter_append, List.singleton_append, List.map_cons]

/-- The first scan of a bus with different keys, all of which can be opened, finds all that is supported. -/
theorem scan_empty_found {bus : List (E × Bool)} (hopen : ∀ e ∈ d.selected bus, e.2 = true)
    (hnodup : (d.present bus).Nodup) :
    (d.scan ∅ bus).2 = ((d.selected bus).map (·.1)).filter d.supported := by
  rw [scan, visits_found_eq _ hopen (by simp) hnodup, List.nil_append]

/-! ### Scan after scan -/

variable {buses : Nat → List (E × Bool)}

/-- A key is known before a scan exactly if an earlier scan settled it and it was there in all scans since. -/
theorem mem_known_iff {n : Nat} {k : K} :
    k ∈ d.known buses n ↔
      ∃ i < n, (d.settling (buses i) k).isSome = true ∧ ∀ m, i < m → m < n → k ∈ d.present (buses m) := by
  induction n with
  | zero => simp [known]
  | succ n ih =>
    rw [known, mem_scan_iff, ih]
    constructor
    · rintro (⟨⟨i, hi, hset, hpres⟩, hn⟩ | hset)
      · refine ⟨i, by omega, hset, fun m him hmn => ?_⟩
        obtain hm | rfl : m < n ∨ m = n := by omega
        · exact hpres m him hm
        · exact hn
      · exact ⟨n, by omega, hset, fun m hnm hmn => by omega⟩
    · rintro ⟨i, hi, hset, hpres⟩
      obtain hi | rfl : i < n ∨ i = n := by omega
      · exact Or.inl ⟨⟨i, hi, hset, fun m him hmn => hpres m him (by omega)⟩, hpres n hi (by omega)⟩
      · exact Or.inr hset

/-- A key that is there is known exactly if an earlier scan settled it and it was there ever since. -/
theorem known_and_present_iff {n : Nat} {k : K} :
    k ∈ d.known buses n ∧ k ∈ d.present (buses n) ↔
      ∃ i < n, (d.settling (buses i) k).isSome = true ∧ ∀ m, i < m → m ≤ n → k ∈ d.present (buses m) := by
  rw [mem_known_iff]
  constructor
  · rintro ⟨⟨i, hi, hset, hpres⟩, hn⟩
    refine ⟨i, hi, hset, fun m him hmn => ?_⟩
    obtain hm | rfl : m < n ∨ m = n := by omega
    · exact hpres m him hm
    · exact hn
  · rintro ⟨i, hi, hset, hpres⟩
    exact ⟨⟨i, hi, hset, fun m him hmn => hpres m him (by omega)⟩, hpres n hi le_rfl⟩

/-- No key is found twice in one scan. -/
theorem length_found_filter_le (n : Nat) (k : K) : ((d.found buses n).filter (d.key · = k)).length ≤ 1 := by
  rw [found, scan_found_filter]
  split
  · exact Nat.zero_le 1
  · refine (List.length_filter_le _ _).trans ?_
    cases d.settling (buses n) k <;> simp

/-- A key whose entries are all supported is found exactly in the scans that open an entry of it, unless an earlier scan
did and the key has been there since. -/
theorem mem_found_iff {n : Nat} {k : K} (hsup : ∀ i ≤ n, ∀ e ∈ d.selected (buses i), d.key e.1 = k → d.supported e.1) :
    k ∈ (d.found buses n).map d.key ↔
      (∃ e ∈ d.selected (buses n), d.key e.1 = k ∧ e.2 = true) ∧
        ∀ i < n, (∃ e ∈ d.selected (buses i), d.key e.1 = k ∧ e.2 = true) →
          ∃ m, i < m ∧ m ≤ n ∧ k ∉ d.present (buses m) := by
  have hset : ∀ i ≤ n, (d.settling (buses i) k).isSome = true ↔
      ∃ e ∈ d.selected (buses i), d.key e.1 = k ∧ e.2 = true :=
    fun i hi => settling_isSome_iff fun e he hk => hsup i hi e he hk
  have hmem : k ∈ (d.found buses n).map d.key ↔ (d.found buses n).filter (d.key · = k) ≠ [] := by
    rw [List.mem_map, ne_eq, List.filter_eq_nil_iff]
    push Not
    simp
  have hagain : k ∈ d.known buses n ∧ k ∈ d.present (buses n) ↔
      ¬ ∀ i < n, (∃ e ∈ d.selected (buses i), d.key e.1 = k ∧ e.2 = true) →
          ∃ m, i < m ∧ m ≤ n ∧ k ∉ d.present (buses m) := by
    rw [known_and_present_iff]
    push Not
    exact exists_congr fun i => and_congr_right fun hi => and_congr_left' (hset i hi.le)
  rw [hmem, found, scan_found_filter, ← hset n le_rfl]
  by_cases hknown : k ∈ d.known buses n ∧ k ∈ d.present (buses n)
  · rw [if_pos hknown]
    exact iff_of_false (fun h => h rfl) fun h => hagain.1 hknown h.2
  · rw [if_neg hknown, and_iff_left (not_not.1 (mt hagain.2 hknown))]
    cases hfind : d.settling (buses n) k with
    | none => simp
    | some e =>
      obtain ⟨hk, e, he, rfl⟩ := of_settling hfind
      simp [hsup n le_rfl e he hk]

end Driver

end PresenceScan
