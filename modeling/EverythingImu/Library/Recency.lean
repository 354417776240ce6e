import Mathlib.Data.Finset.Card
import Mathlib.Data.List.Perm.Basic
import Mathlib.Data.List.Nodup

/-!
# The most recent keys of a log

A log of keys has its newest entry first.  `recent log` are its distinct keys, the one seen last first, and
`kept cap log` the first `cap` of these.  A key is kept if fewer than `cap` other keys have been seen since
(`mem_kept_iff`).

A store of at most `cap` keys that drops the one seen longest ago holds `kept cap log`: a new entry leaves the kept keys
alone (`kept_cons_of_mem`), or is added to them (`kept_cons_of_lt`), or takes the place of the last one
(`kept_cons_of_full`).
-/

namespace Recency

variable {κ : Type*} [DecidableEq κ]

/-- The distinct keys of a log, the one seen last first. -/
def recent : List κ → List κ
  | [] => []
  | k :: log => k :: (recent log).erase k

/-- The `cap` keys seen last. -/
def kept (cap : Nat) (log : List κ) : List κ := (recent log).take cap

variable {k k' : κ} {log : List κ} {cap : Nat}

@[simp] theorem mem_recent : k ∈ recent log ↔ k ∈ log := by
  induction log with
  | nil => rfl
  | cons k' log ih =>
    rw [recent, List.mem_cons, List.mem_cons]
    by_cases h : k = k'
    · simp [h]
    · simp only [h, false_or]
      rw [List.mem_erase_of_ne h, ih]

theorem nodup_recent (log : List κ) : (recent log).Nodup := by
  induction log with
  | nil => exact List.nodup_nil
  | cons k log ih => exact List.nodup_cons.2 ⟨ih.not_mem_erase, ih.erase k⟩

theorem length_recent (log : List κ) : (recent log).length = log.toFinset.card := by
  rw [← List.toFinset_card_of_nodup (nodup_recent log)]
  congr 1
  ext k
  simp

theorem nodup_kept (cap : Nat) (log : List κ) : (kept cap log).Nodup :=
  (nodup_recent log).sublist (List.take_sublist cap _)

/-- As many keys are kept as have been seen, up to `cap`. -/
theorem length_kept (cap : Nat) (log : List κ) : (kept cap log).length = min cap log.toFinset.card := by
  rw [kept, List.length_take, length_recent]

theorem mem_of_mem_kept (h : k ∈ kept cap log) : k ∈ log := mem_recent.1 (List.mem_of_mem_take h)

/-! ### A new entry -/

theorem kept_cons_of_mem (h : k ∈ kept cap log) : kept cap (k :: log) = k :: (kept cap log).erase k := by
  have hsplit : (recent log).erase k = (kept cap log).erase k ++ (recent log).drop cap := by
    rw [← List.erase_append_left _ h, kept, List.take_append_drop]
  have hlen : (k :: (kept cap log).erase k).length = min cap (recent log).length := by
    rw [List.length_cons, List.length_erase_of_mem h, Nat.sub_add_cancel (List.length_pos_of_mem h), kept,
      List.length_take]
  have hrest : ((recent log).drop cap).take (cap - (k :: (kept cap log).erase k).length) = [] := by
    rw [List.take_eq_nil_iff, List.drop_eq_nil_iff]
    omega
  rw [kept, recent, hsplit, ← List.cons_append, List.take_append, hrest, List.append_nil,
    List.take_of_length_le (by omega)]

theorem kept_cons_of_lt (h : k ∉ kept cap log) (hlt : (kept cap log).length < cap) :
    kept cap (k :: log) = k :: kept cap log := by
  have hlen : (recent log).length < cap := by
    rw [kept, List.length_take] at hlt
    omega
  have hall : kept cap log = recent log := List.take_of_length_le hlen.le
  rw [hall] at h ⊢
  rw [kept, recent, List.erase_of_not_mem h, List.take_of_length_le hlen]

theorem kept_cons_of_full (h : k ∉ kept cap log) (hfull : (kept cap log).length = cap) (hpos : 0 < cap) :
    kept cap (k :: log) = k :: (kept cap log).dropLast := by
  have hsplit : (recent log).erase k = kept cap log ++ ((recent log).drop cap).erase k := by
    rw [← List.erase_append_right _ h, kept, List.take_append_drop]
  obtain ⟨n, rfl⟩ : ∃ n, cap = n + 1 := ⟨cap - 1, by omega⟩
  rw [List.dropLast_eq_take, hfull, Nat.add_sub_cancel, kept, recent, List.take_succ_cons, hsplit,
    List.take_append_of_le_length (by omega)]

/-! ### Which keys are kept -/

theorem recent_append (later earlier : List κ) :
    recent (later ++ earlier) = recent later ++ (recent earlier).filter (· ∉ later) := by
  induction later with
  | nil => simp [recent]
  | cons k later ih =>
    rw [List.cons_append, recent, recent, ih, List.cons_append]
    congr 1
    by_cases h : k ∈ later
    · rw [List.erase_append_left _ (mem_recent.2 h)]
      congr 1
      refine List.filter_congr fun k' _ => ?_
      rw [decide_eq_decide, List.mem_cons]
      refine ⟨fun hk' => ?_, fun hk' hmem => hk' (Or.inr hmem)⟩
      rintro (rfl | hmem)
      · exact hk' h
      · exact hk' hmem
    · rw [List.erase_append_right _ (fun hmem => h (mem_recent.1 hmem)),
        List.erase_of_not_mem (fun hmem => h (mem_recent.1 hmem)),
        ((nodup_recent earlier).filter _).erase_eq_filter, List.filter_filter]
      congr 1
      refine List.filter_congr fun k' _ => ?_
      rw [Bool.eq_iff_iff]
      simp

/-- A key is kept if and only if fewer than `cap` others have been seen since it was seen last. -/
theorem mem_kept_iff :
    k ∈ kept cap log ↔
      ∃ later earlier, log = later ++ k :: earlier ∧ k ∉ later ∧ later.toFinset.card < cap := by
  have hpos {later earlier : List κ} (hk : k ∉ later) :
      k ∈ kept cap (later ++ k :: earlier) ↔ later.toFinset.card < cap := by
    obtain ⟨rest, hrest⟩ : ∃ rest, (recent (k :: earlier)).filter (· ∉ later) = k :: rest :=
      ⟨_, List.filter_cons_of_pos (by simpa using hk)⟩
    rw [kept, recent_append, hrest, ← length_recent]
    constructor
    · intro hmem
      by_contra hle
      rw [List.take_append_of_le_length (by omega)] at hmem
      exact hk (mem_recent.1 (List.mem_of_mem_take hmem))
    · intro hlt
      rw [List.take_append, List.mem_append]
      refine Or.inr ?_
      obtain ⟨n, hn⟩ : ∃ n, cap - (recent later).length = n + 1 := ⟨_, (Nat.succ_pred_eq_of_pos (by omega)).symm⟩
      rw [hn, List.take_succ_cons]
      exact List.mem_cons_self
  constructor
  · intro h
    obtain ⟨later, earlier, rfl, hk⟩ := List.eq_append_cons_of_mem (mem_of_mem_kept h)
    exact ⟨later, earlier, rfl, hk, (hpos hk).1 h⟩
  · rintro ⟨later, earlier, rfl, hk, hlt⟩
    exact (hpos hk).2 hlt

end Recency
