/-!
# Scanning a stream in pieces

A parser that buffers what it is fed and takes as many records as it can from the front.  One scan of the buffer stops,
skips bytes that are no record, or takes one (`Scan`); `drain` scans until it stops, and what is left waits for more.

A scanner whose stops and skips do not depend on what follows (`Scanner`) gives the same records for a stream however it
is cut into pieces, except where a record was taken at the very end of the buffer: only there may the bytes that follow
change what a scan does.  `boundary` is the buffer of such a scan.  If the scan takes the same record with the rest
behind it (`Resumes`), the cut makes no difference (`drain_append`, `feedAll_eq_feed`); in any case the whole stream
gives what comes before that record, and then the scans of that buffer with the rest (`drain_append_of_boundary`).
-/

namespace StreamScan

inductive Scan (α ρ : Type) where
  | stop (rest : List α)
  | skip (rest : List α)
  | record (r : ρ) (rest : List α)

/-- A scan that makes progress, and whose outcome depends on what follows only when a record ends the buffer. -/
structure Scanner (α ρ : Type) where
  scan : List α → Scan α ρ
  lt_of_skip {buf rest : List α} : scan buf = .skip rest → rest.length < buf.length
  lt_of_record {buf rest : List α} {r : ρ} : scan buf = .record r rest → rest.length < buf.length
  append_of_stop {buf rest : List α} (b : List α) : scan buf = .stop rest → scan (buf ++ b) = scan (rest ++ b)
  append_of_skip {buf rest : List α} (b : List α) : scan buf = .skip rest → scan (buf ++ b) = .skip (rest ++ b)
  append_of_record {buf rest : List α} {r : ρ} (b : List α) :
    scan buf = .record r rest → rest ≠ [] → scan (buf ++ b) = .record r (rest ++ b)

namespace Scanner

variable {α ρ : Type} (s : Scanner α ρ)

/-- Scan until a scan stops: the records, and what is left. -/
def drain (buf : List α) : List ρ × List α :=
  match _ : s.scan buf with
  | .stop rest => ([], rest)
  | .skip rest => drain rest
  | .record r rest => (r :: (drain rest).1, (drain rest).2)
termination_by buf.length
decreasing_by
  · exact s.lt_of_skip ‹_›
  · exact s.lt_of_record ‹_›

/-- The buffer of the scan that takes a record at the very end, if the last record is taken there. -/
def boundary (buf : List α) : Option (List α) :=
  match _ : s.scan buf with
  | .stop _ => none
  | .skip rest => boundary rest
  | .record _ [] => some buf
  | .record _ (b :: rest) => boundary (b :: rest)
termination_by buf.length
decreasing_by
  · exact s.lt_of_skip ‹_›
  · exact s.lt_of_record ‹_›

/-- One piece of the stream. -/
def feed (buf piece : List α) : List ρ × List α := s.drain (buf ++ piece)

/-- The pieces of a stream, one after the other. -/
def feedAll (buf : List α) : List (List α) → List ρ × List α
  | [] => ([], buf)
  | piece :: pieces =>
    let first := s.feed buf piece
    let others := feedAll first.2 pieces
    (first.1 ++ others.1, others.2)

/-- A record that is taken at the end of the buffer is also taken with `b` behind it. -/
def Resumes (buf b : List α) : Prop := ∀ x, s.boundary buf = some x → ∀ r, s.scan x = .record r [] →
  s.scan (x ++ b) = .record r b

/-- No cut between the pieces makes a difference. -/
def Uncut (buf : List α) : List (List α) → Prop
  | [] => True
  | piece :: pieces => s.Resumes (buf ++ piece) pieces.flatten ∧ Uncut (s.feed buf piece).2 pieces

/-! ### One scan -/

variable {s} {buf b x rest : List α} {r : ρ}

theorem drain_of_stop (h : s.scan buf = .stop rest) : s.drain buf = ([], rest) := by
  rw [drain.eq_def]
  split <;> rename_i h' <;> rw [h] at h' <;> cases h'
  rfl

theorem drain_of_skip (h : s.scan buf = .skip rest) : s.drain buf = s.drain rest := by
  rw [drain.eq_def]
  split <;> rename_i h' <;> rw [h] at h' <;> cases h'
  rfl

theorem drain_of_record (h : s.scan buf = .record r rest) :
    s.drain buf = (r :: (s.drain rest).1, (s.drain rest).2) := by
  rw [drain.eq_def]
  split <;> rename_i h' <;> rw [h] at h' <;> cases h'
  rfl

theorem boundary_of_stop (h : s.scan buf = .stop rest) : s.boundary buf = none := by
  rw [boundary.eq_def]
  split <;> rename_i h' <;> rw [h] at h' <;> cases h'

theorem boundary_of_skip (h : s.scan buf = .skip rest) : s.boundary buf = s.boundary rest := by
  rw [boundary.eq_def]
  split <;> rename_i h' <;> rw [h] at h' <;> cases h'
  rfl

theorem boundary_of_last (h : s.scan buf = .record r []) : s.boundary buf = some buf := by
  rw [boundary.eq_def]
  split <;> rename_i h' <;> rw [h] at h' <;> cases h'

theorem boundary_of_record (h : s.scan buf = .record r rest) (hrest : rest ≠ []) :
    s.boundary buf = s.boundary rest := by
  cases rest with
  | nil => exact absurd rfl hrest
  | cons a rest =>
    rw [boundary.eq_def]
    split <;> rename_i h' <;> rw [h] at h' <;> cases h'
    rfl

variable (s) in
/-- Induction on the scans of a buffer. -/
theorem scan_induction {P : List α → Prop} (stop : ∀ buf rest, s.scan buf = .stop rest → P buf)
    (skip : ∀ buf rest, s.scan buf = .skip rest → P rest → P buf)
    (last : ∀ buf r, s.scan buf = .record r [] → P buf)
    (record : ∀ buf r rest, s.scan buf = .record r rest → rest ≠ [] → P rest → P buf) (buf : List α) : P buf := by
  cases hscan : s.scan buf with
  | stop rest => exact stop buf rest hscan
  | skip rest => exact skip buf rest hscan (scan_induction stop skip last record rest)
  | record r rest =>
    by_cases hrest : rest = []
    · subst hrest
      exact last buf r hscan
    · exact record buf r rest hscan hrest (scan_induction stop skip last record rest)
termination_by buf.length
decreasing_by
  · exact s.lt_of_skip hscan
  · exact s.lt_of_record hscan

/-- Equal scans drain to the same. -/
theorem drain_congr (h : s.scan buf = s.scan x) : s.drain buf = s.drain x := by
  cases hx : s.scan x with
  | stop rest => rw [drain_of_stop (h.trans hx), drain_of_stop hx]
  | skip rest => rw [drain_of_skip (h.trans hx), drain_of_skip hx]
  | record r rest => rw [drain_of_record (h.trans hx), drain_of_record hx]

/-- The empty buffer has no record. -/
theorem drain_nil : (s.drain []).1 = [] := by
  cases h : s.scan [] with
  | stop rest => rw [drain_of_stop h]
  | skip rest => exact absurd (s.lt_of_skip h) (Nat.not_lt_zero _)
  | record r rest => exact absurd (s.lt_of_record h) (Nat.not_lt_zero _)

/-! ### More bytes -/

/-- The record at the boundary is the last one, and nothing is left. -/
theorem drain_of_boundary (h : s.boundary buf = some x) :
    ∃ r, s.scan x = .record r [] ∧ (s.drain buf).1 = (s.drain buf).1.dropLast ++ [r] ∧
      (s.drain buf).2 = (s.drain []).2 := by
  induction buf using s.scan_induction with
  | stop buf rest hscan =>
    rw [boundary_of_stop hscan] at h
    cases h
  | skip buf rest hscan ih =>
    rw [boundary_of_skip hscan] at h
    rw [drain_of_skip hscan]
    exact ih h
  | last buf r hscan =>
    rw [boundary_of_last hscan] at h
    obtain rfl := Option.some.inj h
    rw [drain_of_record hscan, drain_nil]
    exact ⟨r, hscan, rfl, rfl⟩
  | record buf r rest hscan hrest ih =>
    rw [boundary_of_record hscan hrest] at h
    obtain ⟨r', hx, hlast, hleft⟩ := ih h
    rw [drain_of_record hscan]
    refine ⟨r', hx, ?_, hleft⟩
    have hne : (s.drain rest).1 ≠ [] := by
      intro hnil
      rw [hnil] at hlast
      cases hlast
    rw [List.dropLast_cons_of_ne_nil hne, List.cons_append, ← hlast]

/-- A buffer with a boundary has a record. -/
theorem drain_ne_nil_of_boundary (h : s.boundary buf = some x) : (s.drain buf).1 ≠ [] := by
  obtain ⟨r, -, hlast, -⟩ := drain_of_boundary h
  rw [hlast]
  exact List.append_ne_nil_of_right_ne_nil _ (List.cons_ne_nil r [])

/-- Unless a record ends the buffer, more bytes are scanned behind what is left. -/
theorem drain_append_of_none (h : s.boundary buf = none) (b : List α) :
    s.drain (buf ++ b) =
      ((s.drain buf).1 ++ (s.drain ((s.drain buf).2 ++ b)).1, (s.drain ((s.drain buf).2 ++ b)).2) := by
  induction buf using s.scan_induction with
  | stop buf rest hscan =>
    rw [drain_of_stop hscan, drain_congr (s.append_of_stop b hscan)]
    rfl
  | skip buf rest hscan ih =>
    rw [boundary_of_skip hscan] at h
    rw [drain_of_skip (s.append_of_skip b hscan), drain_of_skip hscan]
    exact ih h
  | last buf r hscan =>
    rw [boundary_of_last hscan] at h
    cases h
  | record buf r rest hscan hrest ih =>
    rw [boundary_of_record hscan hrest] at h
    rw [drain_of_record (s.append_of_record b hscan hrest), drain_of_record hscan, ih h]
    rfl

/-- When a record ends the buffer its scan is made again, with the bytes that follow. -/
theorem drain_append_of_boundary (h : s.boundary buf = some x) (b : List α) :
    s.drain (buf ++ b) = ((s.drain buf).1.dropLast ++ (s.drain (x ++ b)).1, (s.drain (x ++ b)).2) := by
  induction buf using s.scan_induction with
  | stop buf rest hscan =>
    rw [boundary_of_stop hscan] at h
    cases h
  | skip buf rest hscan ih =>
    rw [boundary_of_skip hscan] at h
    rw [drain_of_skip (s.append_of_skip b hscan), drain_of_skip hscan]
    exact ih h
  | last buf r hscan =>
    rw [boundary_of_last hscan] at h
    obtain rfl := Option.some.inj h
    rw [drain_of_record hscan, drain_nil]
    rfl
  | record buf r rest hscan hrest ih =>
    rw [boundary_of_record hscan hrest] at h
    rw [drain_of_record (s.append_of_record b hscan hrest), drain_of_record hscan, ih h,
      List.dropLast_cons_of_ne_nil (drain_ne_nil_of_boundary h)]
    rfl

/-- What follows is scanned behind what is left, when the last record is taken with it too. -/
theorem drain_append (h : s.Resumes buf b) :
    s.drain (buf ++ b) =
      ((s.drain buf).1 ++ (s.drain ((s.drain buf).2 ++ b)).1, (s.drain ((s.drain buf).2 ++ b)).2) := by
  cases hboundary : s.boundary buf with
  | none => exact drain_append_of_none hboundary b
  | some x =>
    obtain ⟨r, hx, hlast, hleft⟩ := drain_of_boundary hboundary
    have hnil : s.drain ((s.drain []).2 ++ b) = s.drain b := by
      cases hscan : s.scan [] with
      | stop rest => rw [drain_of_stop hscan, ← drain_congr (s.append_of_stop b hscan), List.nil_append]
      | skip rest => exact absurd (s.lt_of_skip hscan) (Nat.not_lt_zero _)
      | record r rest => exact absurd (s.lt_of_record hscan) (Nat.not_lt_zero _)
    rw [drain_append_of_boundary hboundary b, drain_of_record (h x hboundary r hx), hleft, hnil]
    rw [hlast, List.dropLast_concat, List.append_assoc, List.singleton_append]

/-- A stream that is not cut where it makes a difference gives the same in pieces as at once. -/
theorem feedAll_eq_feed {piece : List α} {pieces : List (List α)} (h : s.Uncut buf (piece :: pieces)) :
    s.feedAll buf (piece :: pieces) = s.feed buf (piece :: pieces).flatten := by
  induction pieces generalizing buf piece with
  | nil =>
    rw [feedAll, feedAll, List.flatten_singleton]
    simp
  | cons next pieces ih =>
    obtain ⟨hresumes, hrest⟩ := h
    rw [feedAll, ih hrest]
    show _ = s.drain (buf ++ (piece ++ (next :: pieces).flatten))
    rw [← List.append_assoc, drain_append hresumes]
    rfl

end Scanner

end StreamScan
