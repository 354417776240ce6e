import EverythingImu.Joycon.SpiCal
import EverythingImu.Library.PastTime

/-!
# Calibration reconciliation of a Joy-Con 1

The reader thread asks for three SPI blocks and feeds every 0x21 reply to `handle_spi_reply`, which keeps the
calibration, a magic flag and a cached override block (`jc1.rs`).  The replies may come in any order and more than
once, and a reply may be too short for its block.

The guard of the factory branch never holds back a store (`Reflects.guardOpen`): the cached block is taken as soon as
the magic is seen, so the cache and the flag are never both set.  A factory reply therefore overwrites an override
that was applied before it, and the calibration after a sequence of replies is the override block exactly when the
override is applied once more after the last factory reply (`calibrationAfter_eq_expected_iff`).
-/

namespace EverythingImu.Joycon

open PastTime

def SPI_ADDR_FACTORY_CAL : UInt32 := 0x6020
def SPI_ADDR_USER_OVERRIDE_MAGIC : UInt32 := 0x8026
def SPI_ADDR_USER_OVERRIDE_BLOCK : UInt32 := 0x8028

/-- What the reader thread keeps between reports: the shared calibration and the reconciliation state. -/
structure CalState where
  cal : ImuCalibration
  userOverrideMagicSeen : Bool
  pendingUserOverride : Option (List UInt8)
deriving DecidableEq

def CalState.start : CalState := ⟨ImuCalibration.zero, false, none⟩

def CalState.store (st : CalState) (cal : ImuCalibration) : CalState := { st with cal := cal }

def handleSpiReply (st : CalState) (reply : SpiReadReply) : CalState :=
  if reply.addr = SPI_ADDR_FACTORY_CAL then
    match parseFactoryBlock reply.data with
    | .ok cal =>
      -- only adopt the factory block if no user override already won
      if st.pendingUserOverride.isNone || !st.userOverrideMagicSeen then st.store cal else st
    | .error _ => st
  else if reply.addr = SPI_ADDR_USER_OVERRIDE_MAGIC then
    let st := { st with userOverrideMagicSeen := userOverrideMagicPresent reply.data }
    if st.userOverrideMagicSeen then
      match st.pendingUserOverride with
      | some data =>
        let st := { st with pendingUserOverride := none }
        match parseFactoryBlock data with
        | .ok cal => st.store cal
        | .error _ => st
      | none => st
    else st
  else if reply.addr = SPI_ADDR_USER_OVERRIDE_BLOCK then
    if st.userOverrideMagicSeen then
      match parseFactoryBlock reply.data with
      | .ok cal => st.store cal
      | .error _ => st
    -- the magic is not seen yet: keep the block until it is
    else { st with pendingUserOverride := some reply.data }
  else st

/-- The reader callback on one HID report; a report other than 0x21 leaves the calibration alone. -/
def onReport (st : CalState) (buf : List UInt8) : CalState :=
  if buf.head? = some 0x21 then
    match parse0x21SpiReply buf with
    | some reply => handleSpiReply st reply
    | none => st
  else st

/-- The reconciliation state after a sequence of reports. -/
def calibrationAfter (bufs : List (List UInt8)) : CalState := bufs.foldl onReport CalState.start

/-! ### What a sequence of replies amounts to -/

/-- The bytes parse as a calibration block. -/
def Parses (data : List UInt8) : Prop := (parseFactoryBlock data).isOk = true

instance : DecidablePred Parses := fun _ => inferInstanceAs (Decidable (_ = true))

namespace SpiReadReply

variable (r : SpiReadReply)

/-- A factory block that parses. -/
def FactoryRead : Prop := r.addr = SPI_ADDR_FACTORY_CAL ∧ Parses r.data

/-- The magic, and it matches. -/
def MagicMatches : Prop := r.addr = SPI_ADDR_USER_OVERRIDE_MAGIC ∧ userOverrideMagicPresent r.data = true

/-- The reply is long enough for the block at its address. -/
def Readable : Prop := if r.addr = SPI_ADDR_USER_OVERRIDE_MAGIC then 2 ≤ r.data.length else Parses r.data

instance : Decidable r.FactoryRead := inferInstanceAs (Decidable (_ ∧ _))
instance : Decidable r.MagicMatches := inferInstanceAs (Decidable (_ ∧ _))
instance : Decidable r.Readable := inferInstanceAs (Decidable (ite _ _ _))

end SpiReadReply

/-- The last reply for the magic matches. -/
def MagicSeen (rs : List SpiReadReply) : Prop :=
  Since (fun _ r => r.MagicMatches) (fun r => r.addr = SPI_ADDR_USER_OVERRIDE_MAGIC) rs

instance (rs : List SpiReadReply) : Decidable (MagicSeen rs) := inferInstanceAs (Decidable (Since _ _ _))

/-- The last override block came while the magic was not seen, no magic has matched since, and its bytes have `p`. -/
def Cached (p : List UInt8 → Prop) (rs : List SpiReadReply) : Prop :=
  Since (fun before r => r.addr = SPI_ADDR_USER_OVERRIDE_BLOCK ∧ ¬ MagicSeen before ∧ p r.data)
    (fun r => r.addr = SPI_ADDR_USER_OVERRIDE_BLOCK ∨ r.MagicMatches) rs

instance (p : List UInt8 → Prop) [DecidablePred p] (rs : List SpiReadReply) : Decidable (Cached p rs) :=
  inferInstanceAs (Decidable (Since _ _ _))

/-- After the replies `before`, this one brings the override: a block that parses once the magic is seen, or a magic
that matches when the last cached block parses. -/
def OverrideApplied (before : List SpiReadReply) (r : SpiReadReply) : Prop :=
  (r.addr = SPI_ADDR_USER_OVERRIDE_BLOCK ∧ Parses r.data ∧ MagicSeen before) ∨ (r.MagicMatches ∧ Cached Parses before)

instance (before : List SpiReadReply) (r : SpiReadReply) : Decidable (OverrideApplied before r) :=
  inferInstanceAs (Decidable (_ ∨ _))

/-- The override is applied, and no factory block that parses comes after that. -/
def OverrideAppliedLast (rs : List SpiReadReply) : Prop := Since OverrideApplied (·.FactoryRead) rs

instance (rs : List SpiReadReply) : Decidable (OverrideAppliedLast rs) := inferInstanceAs (Decidable (Since _ _ _))

/-- The contents of the three flash blocks of one controller. -/
structure Flash where
  factory : List UInt8
  magic : List UInt8
  override : List UInt8

/-- The data a reply for `addr` carries, for the three addresses that are asked for. -/
def Flash.block (flash : Flash) (addr : UInt32) : Option (List UInt8) :=
  if addr = SPI_ADDR_FACTORY_CAL then some flash.factory
  else if addr = SPI_ADDR_USER_OVERRIDE_MAGIC then some flash.magic
  else if addr = SPI_ADDR_USER_OVERRIDE_BLOCK then some flash.override
  else none

/-- The replies of a sequence of reports. -/
def spiReplies (bufs : List (List UInt8)) : List SpiReadReply := bufs.filterMap parse0x21SpiReply

/-- Every readable reply for one of the three addresses carries that block of the flash. -/
def Flash.Consistent (flash : Flash) (rs : List SpiReadReply) : Prop :=
  ∀ r ∈ rs, r.Readable → ∀ data ∈ flash.block r.addr, r.data = data

instance (flash : Flash) (rs : List SpiReadReply) : Decidable (flash.Consistent rs) :=
  inferInstanceAs (Decidable (∀ r ∈ rs, r.Readable → ∀ data ∈ flash.block r.addr, r.data = data))

/-- The replies are consistent with the flash, and each of its three blocks is among them. -/
structure AnswersFlash (flash : Flash) (bufs : List (List UInt8)) : Prop where
  consistent : flash.Consistent (spiReplies bufs)
  factory : ⟨SPI_ADDR_FACTORY_CAL, flash.factory⟩ ∈ spiReplies bufs
  magic : ⟨SPI_ADDR_USER_OVERRIDE_MAGIC, flash.magic⟩ ∈ spiReplies bufs
  override : ⟨SPI_ADDR_USER_OVERRIDE_BLOCK, flash.override⟩ ∈ spiReplies bufs

/-- The calibration of the override block, when the magic matches and the block parses. -/
def Flash.overrideCal (flash : Flash) : Option ImuCalibration :=
  if userOverrideMagicPresent flash.magic then (parseFactoryBlock flash.override).toOption else none

/-- The calibration of the factory block. -/
def Flash.factoryCal (flash : Flash) : Option ImuCalibration := (parseFactoryBlock flash.factory).toOption

/-- The calibration that the flash holds: the override block if it counts, else the factory block, else none. -/
def Flash.expectedCal (flash : Flash) : ImuCalibration :=
  flash.overrideCal.getD (flash.factoryCal.getD ImuCalibration.zero)

/-! ### The state after a sequence of replies -/

/-- The calibration of a block, or the one that is held at the start. -/
def calOf (data : List UInt8) : ImuCalibration := (parseFactoryBlock data).toOption.getD ImuCalibration.zero

/-- The calibration after the replies `rs`, which are consistent with the flash. -/
def calAfter (flash : Flash) (rs : List SpiReadReply) : ImuCalibration :=
  if OverrideAppliedLast rs then calOf flash.override
  else if ∃ r ∈ rs, r.FactoryRead then calOf flash.factory
  else ImuCalibration.zero

/-- The state is the one that the replies `rs` lead to. -/
structure Reflects (flash : Flash) (rs : List SpiReadReply) (st : CalState) : Prop where
  cal : st.cal = calAfter flash rs
  seen : st.userOverrideMagicSeen = true ↔ MagicSeen rs
  pending : ∀ p, (∃ data, st.pendingUserOverride = some data ∧ p data) ↔ Cached p rs
  /-- The cached block is taken as soon as the magic is seen. -/
  taken : st.userOverrideMagicSeen = true → st.pendingUserOverride = none
  block : ∀ data, st.pendingUserOverride = some data → Parses data → data = flash.override

section Step

variable {flash : Flash} {rs : List SpiReadReply} {st : CalState} {r : SpiReadReply}

private theorem override_ne_factory : SPI_ADDR_USER_OVERRIDE_BLOCK ≠ SPI_ADDR_FACTORY_CAL := by decide
private theorem override_ne_magic : SPI_ADDR_USER_OVERRIDE_BLOCK ≠ SPI_ADDR_USER_OVERRIDE_MAGIC := by decide
private theorem magic_ne_factory : SPI_ADDR_USER_OVERRIDE_MAGIC ≠ SPI_ADDR_FACTORY_CAL := by decide

theorem magicSeen_concat :
    MagicSeen (rs ++ [r]) ↔ r.MagicMatches ∨ (r.addr ≠ SPI_ADDR_USER_OVERRIDE_MAGIC ∧ MagicSeen rs) :=
  since_concat rs r

theorem cached_concat {p : List UInt8 → Prop} :
    Cached p (rs ++ [r]) ↔ (r.addr = SPI_ADDR_USER_OVERRIDE_BLOCK ∧ ¬ MagicSeen rs ∧ p r.data) ∨
      (¬ (r.addr = SPI_ADDR_USER_OVERRIDE_BLOCK ∨ r.MagicMatches) ∧ Cached p rs) :=
  since_concat rs r

theorem calAfter_concat (flash : Flash) :
    calAfter flash (rs ++ [r]) =
      if OverrideApplied rs r then calOf flash.override
      else if r.FactoryRead then calOf flash.factory
      else calAfter flash rs := by
  have hlast : OverrideAppliedLast (rs ++ [r]) ↔
      OverrideApplied rs r ∨ (¬ r.FactoryRead ∧ OverrideAppliedLast rs) := since_concat rs r
  have hread : (∃ r' ∈ rs ++ [r], r'.FactoryRead) ↔ r.FactoryRead ∨ ∃ r' ∈ rs, r'.FactoryRead := by
    simp only [List.mem_append, List.mem_singleton, or_and_right, exists_or, exists_eq_left]
    exact or_comm
  rw [calAfter, calAfter, if_congr hlast rfl rfl, if_congr hread rfl rfl]
  by_cases happ : OverrideApplied rs r
  · simp [happ]
  · by_cases hr : r.FactoryRead
    · simp [happ, hr]
    · simp [happ, hr]

theorem parses_of_ok {data : List UInt8} {cal : ImuCalibration} (h : parseFactoryBlock data = .ok cal) :
    Parses data ∧ calOf data = cal := by
  rw [Parses, calOf, h]
  exact ⟨rfl, rfl⟩

theorem not_parses_of_error {data : List UInt8} {e : SpiError} (h : parseFactoryBlock data = .error e) :
    ¬ Parses data := by
  rw [Parses, h]
  exact Bool.false_ne_true

/-- The guard of the factory branch is open in every state that replies lead to. -/
theorem Reflects.guardOpen (h : Reflects flash rs st) :
    (st.pendingUserOverride.isNone || !st.userOverrideMagicSeen) = true := by
  cases hseen : st.userOverrideMagicSeen with
  | false => rw [Bool.not_false, Bool.or_true]
  | true => rw [h.taken hseen, Option.isNone_none, Bool.true_or]

/-- A reply that touches neither the flag nor the cache can only store a calibration. -/
private theorem Reflects.store (h : Reflects flash rs st) (hm : r.addr ≠ SPI_ADDR_USER_OVERRIDE_MAGIC)
    (ho : r.addr = SPI_ADDR_USER_OVERRIDE_BLOCK → MagicSeen rs) {cal : ImuCalibration}
    (hcal : cal = calAfter flash (rs ++ [r])) : Reflects flash (rs ++ [r]) (st.store cal) where
  cal := hcal
  seen := by
    rw [magicSeen_concat]
    exact h.seen.trans ⟨fun hs => Or.inr ⟨hm, hs⟩, fun hs => hs.elim (fun hr => absurd hr.1 hm) (·.2)⟩
  pending p := by
    refine (h.pending p).trans ⟨fun hc => cached_concat.2 (Or.inr ⟨fun hr => ?_, hc⟩), fun hc => ?_⟩
    · -- an override block arrives with the magic seen, when nothing is cached
      rcases hr with hr | hr
      · obtain ⟨data, hdata, -⟩ := (h.pending p).2 hc
        rw [h.taken (h.seen.2 (ho hr))] at hdata
        cases hdata
      · exact hm hr.1
    · rcases cached_concat.1 hc with hc | hc
      · exact absurd (ho hc.1) hc.2.1
      · exact hc.2
  taken := h.taken
  block := h.block

private theorem Reflects.factory (h : Reflects flash rs st) (ha : r.addr = SPI_ADDR_FACTORY_CAL)
    (hd : Parses r.data → r.data = flash.factory) : Reflects flash (rs ++ [r]) (handleSpiReply st r) := by
  have hm : r.addr ≠ SPI_ADDR_USER_OVERRIDE_MAGIC := by rw [ha]; exact magic_ne_factory.symm
  have ho : r.addr ≠ SPI_ADDR_USER_OVERRIDE_BLOCK := by rw [ha]; exact override_ne_factory.symm
  have happ : ¬ OverrideApplied rs r := by
    rintro (happ | happ)
    · exact ho happ.1
    · exact hm happ.1.1
  have hcal : calAfter flash (rs ++ [r]) = if r.FactoryRead then calOf flash.factory else calAfter flash rs := by
    rw [calAfter_concat, if_neg happ]
  unfold handleSpiReply
  rw [if_pos ha]
  cases hparse : parseFactoryBlock r.data with
  | error e =>
    refine h.store hm (fun hr => absurd hr ho) (show st.cal = _ from ?_)
    rw [hcal, if_neg fun hr => not_parses_of_error hparse hr.2, h.cal]
  | ok cal =>
    obtain ⟨hp, rfl⟩ := parses_of_ok hparse
    dsimp only
    rw [if_pos h.guardOpen]
    refine h.store hm (fun hr => absurd hr ho) ?_
    rw [hcal, if_pos ⟨ha, hp⟩, hd hp]

private theorem Reflects.magic (h : Reflects flash rs st) (ha : r.addr = SPI_ADDR_USER_OVERRIDE_MAGIC) :
    Reflects flash (rs ++ [r]) (handleSpiReply st r) := by
  have hf : r.addr ≠ SPI_ADDR_FACTORY_CAL := by rw [ha]; exact magic_ne_factory
  have ho : r.addr ≠ SPI_ADDR_USER_OVERRIDE_BLOCK := by rw [ha]; exact override_ne_magic.symm
  have hcal : calAfter flash (rs ++ [r]) =
      if r.MagicMatches ∧ Cached Parses rs then calOf flash.override else calAfter flash rs := by
    rw [calAfter_concat, if_neg fun hr : r.FactoryRead => hf hr.1]
    exact if_congr ⟨fun happ => happ.elim (fun hr => absurd hr.1 ho) id, Or.inr⟩ rfl rfl
  unfold handleSpiReply
  rw [if_neg hf, if_pos ha]
  dsimp only
  split
  · rename_i hpresent
    have hmatches : r.MagicMatches := ⟨ha, hpresent⟩
    -- the flag is set and nothing stays cached, whatever the cached block was
    have hafter (cal : ImuCalibration) (hnew : cal = calAfter flash (rs ++ [r])) :
        Reflects flash (rs ++ [r]) ⟨cal, userOverrideMagicPresent r.data, none⟩ := by
      refine ⟨hnew, ?_, fun p => ⟨?_, fun hc => ?_⟩, fun _ => rfl, ?_⟩
      · rw [magicSeen_concat]
        exact ⟨fun _ => Or.inl hmatches, fun _ => hpresent⟩
      · rintro ⟨data, hdata, -⟩
        cases hdata
      · rcases cached_concat.1 hc with hc | hc
        · exact absurd hc.1 ho
        · exact absurd (Or.inr hmatches) hc.1
      · intro data hdata
        cases hdata
    cases hpending : st.pendingUserOverride with
    | none =>
      have hnot : ¬ Cached Parses rs := by
        intro hc
        obtain ⟨data, hdata, -⟩ := (h.pending Parses).2 hc
        rw [hpending] at hdata
        cases hdata
      refine hafter st.cal ?_
      rw [hcal, if_neg fun hr => hnot hr.2, h.cal]
    | some data =>
      dsimp only
      cases hparse : parseFactoryBlock data with
      | error e =>
        have hnot : ¬ Cached Parses rs := by
          intro hc
          obtain ⟨data', hdata, hp⟩ := (h.pending Parses).2 hc
          rw [hpending] at hdata
          cases hdata
          exact not_parses_of_error hparse hp
        refine hafter st.cal ?_
        rw [hcal, if_neg fun hr => hnot hr.2, h.cal]
      | ok cal =>
        obtain ⟨hp, rfl⟩ := parses_of_ok hparse
        refine hafter (calOf data) ?_
        rw [hcal, if_pos ⟨hmatches, (h.pending Parses).1 ⟨data, hpending, hp⟩⟩, h.block data hpending hp]
  · rename_i hpresent
    have hnot : ¬ r.MagicMatches := fun hr => hpresent hr.2
    refine ⟨?_, ?_, fun p => ?_, fun hr => absurd hr hpresent, h.block⟩
    · rw [hcal, if_neg fun hr => hnot hr.1]
      exact h.cal
    · rw [magicSeen_concat]
      exact ⟨fun hr => absurd hr hpresent, fun hr => hr.elim (fun hr => absurd hr hnot) fun hr => absurd ha hr.1⟩
    · refine (h.pending p).trans ⟨fun hc => cached_concat.2 (Or.inr ⟨fun hr => hr.elim ho hnot, hc⟩), fun hc => ?_⟩
      exact (cached_concat.1 hc).elim (fun hr => absurd hr.1 ho) (·.2)

private theorem Reflects.override (h : Reflects flash rs st) (ha : r.addr = SPI_ADDR_USER_OVERRIDE_BLOCK)
    (hd : Parses r.data → r.data = flash.override) : Reflects flash (rs ++ [r]) (handleSpiReply st r) := by
  have hf : r.addr ≠ SPI_ADDR_FACTORY_CAL := by rw [ha]; exact override_ne_factory
  have hm : r.addr ≠ SPI_ADDR_USER_OVERRIDE_MAGIC := by rw [ha]; exact override_ne_magic
  have hcal : calAfter flash (rs ++ [r]) =
      if Parses r.data ∧ MagicSeen rs then calOf flash.override else calAfter flash rs := by
    rw [calAfter_concat, if_neg fun hr : r.FactoryRead => hf hr.1]
    exact if_congr ⟨fun happ => happ.elim (·.2) fun hr => absurd hr.1.1 hm, fun hr => Or.inl ⟨ha, hr⟩⟩ rfl rfl
  unfold handleSpiReply
  rw [if_neg hf, if_neg hm, if_pos ha]
  split
  · rename_i hseen
    have hms : MagicSeen rs := h.seen.1 hseen
    cases hparse : parseFactoryBlock r.data with
    | error e =>
      refine h.store hm (fun _ => hms) (show st.cal = _ from ?_)
      rw [hcal, if_neg fun hr => not_parses_of_error hparse hr.1, h.cal]
    | ok cal =>
      obtain ⟨hp, rfl⟩ := parses_of_ok hparse
      refine h.store hm (fun _ => hms) ?_
      rw [hcal, if_pos ⟨hp, hms⟩, hd hp]
  · rename_i hseen
    have hms : ¬ MagicSeen rs := fun hr => hseen (h.seen.2 hr)
    refine ⟨?_, ?_, fun p => ?_, fun hr => absurd hr hseen, ?_⟩
    · rw [hcal, if_neg fun hr => hms hr.2]
      exact h.cal
    · rw [magicSeen_concat]
      exact h.seen.trans ⟨fun hs => absurd hs hms, fun hr => hr.elim (fun hr => absurd hr.1 hm) (·.2)⟩
    · rw [cached_concat]
      constructor
      · rintro ⟨data, hdata, hp⟩
        cases hdata
        exact Or.inl ⟨ha, hms, hp⟩
      · rintro (hr | hr)
        · exact ⟨r.data, rfl, hr.2.2⟩
        · exact absurd (Or.inl ha) hr.1
    · intro data hdata hp
      cases hdata
      exact hd hp

private theorem Reflects.other (h : Reflects flash rs st) (hf : r.addr ≠ SPI_ADDR_FACTORY_CAL)
    (hm : r.addr ≠ SPI_ADDR_USER_OVERRIDE_MAGIC) (ho : r.addr ≠ SPI_ADDR_USER_OVERRIDE_BLOCK) :
    Reflects flash (rs ++ [r]) (handleSpiReply st r) := by
  have happ : ¬ OverrideApplied rs r := by
    rintro (happ | happ)
    · exact ho happ.1
    · exact hm happ.1.1
  unfold handleSpiReply
  rw [if_neg hf, if_neg hm, if_neg ho]
  refine h.store hm (fun hr => absurd hr ho) (show st.cal = _ from ?_)
  rw [calAfter_concat, if_neg happ, if_neg fun hr : r.FactoryRead => hf hr.1, h.cal]

/-- One reply keeps `Reflects`. -/
theorem Reflects.step (h : Reflects flash rs st) (hr : r.Readable → ∀ data ∈ flash.block r.addr, r.data = data) :
    Reflects flash (rs ++ [r]) (handleSpiReply st r) := by
  by_cases hm : r.addr = SPI_ADDR_USER_OVERRIDE_MAGIC
  · exact h.magic hm
  have hreadable : Parses r.data → r.Readable := fun hp => by
    rw [SpiReadReply.Readable, if_neg hm]
    exact hp
  by_cases hf : r.addr = SPI_ADDR_FACTORY_CAL
  · exact h.factory hf fun hp => hr (hreadable hp) _ (by rw [hf]; rfl)
  by_cases ho : r.addr = SPI_ADDR_USER_OVERRIDE_BLOCK
  · exact h.override ho fun hp => hr (hreadable hp) _ (by rw [ho]; rfl)
  exact h.other hf hm ho

end Step

theorem reflects_start (flash : Flash) : Reflects flash [] CalState.start where
  cal := by
    rw [calAfter, if_neg (by exact not_since_nil), if_neg (by simp)]
    rfl
  seen := ⟨fun h => absurd h Bool.false_ne_true, fun h => absurd h not_since_nil⟩
  pending p := by
    refine ⟨?_, fun h => absurd h not_since_nil⟩
    rintro ⟨data, hdata, -⟩
    cases hdata
  taken _ := rfl
  block data hdata := by cases hdata

/-- The state after any sequence of replies that are consistent with the flash. -/
theorem reflects_foldl {flash : Flash} {rs : List SpiReadReply} (h : flash.Consistent rs) :
    Reflects flash rs (rs.foldl handleSpiReply CalState.start) := by
  induction rs using List.reverseRecOn with
  | nil => exact reflects_start flash
  | append_singleton rs r ih =>
    rw [List.foldl_append]
    exact (ih fun r' hr' => h r' (by simp [hr'])).step (h r (by simp))

private theorem head_of_parse {buf : List UInt8} {r : SpiReadReply} (h : parse0x21SpiReply buf = some r) :
    buf.head? = some 0x21 := by
  unfold parse0x21SpiReply at h
  by_cases hlen : buf.length < 20
  · rw [if_pos hlen] at h
    cases h
  · rw [if_neg hlen] at h
    by_cases hid : buf.getD 0 0 ≠ 0x21
    · rw [if_pos hid] at h
      cases h
    · cases buf with
      | nil => exact absurd hlen (by decide)
      | cons b buf => exact congrArg some (not_not.1 hid)

private theorem onReport_eq (st : CalState) (buf : List UInt8) :
    onReport st buf = ((parse0x21SpiReply buf).map (handleSpiReply st)).getD st := by
  unfold onReport
  cases h : parse0x21SpiReply buf with
  | none => simp
  | some r => simp [head_of_parse h]

/-- Only the parsed replies of a sequence of reports matter. -/
theorem calibrationAfter_eq_replies (bufs : List (List UInt8)) :
    calibrationAfter bufs = (spiReplies bufs).foldl handleSpiReply CalState.start := by
  unfold calibrationAfter spiReplies
  rw [List.foldl_filterMap]
  congr 1
  funext st buf
  rw [onReport_eq]
  cases parse0x21SpiReply buf <;> rfl

/-! ### Which orders give the override -/

/-- The replies leave the calibration that the flash holds: no override counts or it gives the calibration that is held
without it, or the override is applied once more after the last factory block. -/
def SettlesOnFlash (flash : Flash) (bufs : List (List UInt8)) : Prop :=
  flash.expectedCal = flash.factoryCal.getD ImuCalibration.zero ∨ OverrideAppliedLast (spiReplies bufs)

instance (flash : Flash) (bufs : List (List UInt8)) : Decidable (SettlesOnFlash flash bufs) :=
  inferInstanceAs (Decidable (_ ∨ _))

theorem Flash.Consistent.present {flash : Flash} {rs : List SpiReadReply} (h : flash.Consistent rs) {r : SpiReadReply}
    (hr : r ∈ rs) (hmatches : r.MagicMatches) : userOverrideMagicPresent flash.magic = true := by
  have hreadable : r.Readable := by
    rw [SpiReadReply.Readable, if_pos hmatches.1]
    have hpresent := hmatches.2
    unfold userOverrideMagicPresent at hpresent
    split at hpresent
    · cases hpresent
    · omega
  rw [← h r hr hreadable flash.magic (by rw [hmatches.1]; rfl)]
  exact hmatches.2

theorem Flash.Consistent.parses_override {flash : Flash} {rs : List SpiReadReply} (h : flash.Consistent rs)
    {r : SpiReadReply} (hr : r ∈ rs) (ha : r.addr = SPI_ADDR_USER_OVERRIDE_BLOCK) (hp : Parses r.data) :
    Parses flash.override := by
  have hreadable : r.Readable := by
    rw [SpiReadReply.Readable, if_neg (by rw [ha]; exact override_ne_magic)]
    exact hp
  rw [← h r hr hreadable flash.override (by rw [ha]; rfl)]
  exact hp

/-- The override was applied at some reply, so it counts. -/
theorem Flash.Consistent.expectedCal_of_applied {flash : Flash} {rs : List SpiReadReply} (h : flash.Consistent rs)
    (happ : OverrideAppliedLast rs) : flash.expectedCal = calOf flash.override := by
  have hcounts : userOverrideMagicPresent flash.magic = true ∧ Parses flash.override := by
    obtain ⟨before, r, after, rfl, happ, -⟩ := happ
    rcases happ with ⟨ha, hp, hseen⟩ | ⟨hmatches, hcached⟩
    · obtain ⟨-, r', hr', hmatches⟩ := hseen.exists_mem
      exact ⟨h.present (by simp [hr']) hmatches, h.parses_override (by simp) ha hp⟩
    · obtain ⟨-, r', hr', ha, -, hp⟩ := hcached.exists_mem
      exact ⟨h.present (by simp) hmatches, h.parses_override (by simp [hr']) ha hp⟩
  rw [Flash.expectedCal, Flash.overrideCal, if_pos hcounts.1]
  cases hparse : parseFactoryBlock flash.override with
  | error e => exact absurd hcounts.2 (not_parses_of_error hparse)
  | ok cal => exact (parses_of_ok hparse).2.symm

/-- With the factory block among the replies, what is held without the override is what that block gives. -/
theorem AnswersFlash.factoryCal {flash : Flash} {bufs : List (List UInt8)} (h : AnswersFlash flash bufs) :
    (if ∃ r ∈ spiReplies bufs, r.FactoryRead then calOf flash.factory else ImuCalibration.zero) =
      flash.factoryCal.getD ImuCalibration.zero := by
  split
  · rfl
  · rename_i hnone
    rw [Flash.factoryCal]
    cases hparse : parseFactoryBlock flash.factory with
    | error e => rfl
    | ok cal => exact absurd ⟨_, h.factory, rfl, (parses_of_ok hparse).1⟩ hnone

/-- The calibration after all replies is the one the flash holds exactly when `SettlesOnFlash`. -/
theorem calibrationAfter_eq_expected_iff {flash : Flash} {bufs : List (List UInt8)} (h : AnswersFlash flash bufs) :
    (calibrationAfter bufs).cal = flash.expectedCal ↔ SettlesOnFlash flash bufs := by
  rw [calibrationAfter_eq_replies, (reflects_foldl h.consistent).cal, calAfter, SettlesOnFlash, h.factoryCal]
  split
  · rename_i happ
    exact ⟨fun _ => Or.inr happ, fun _ => (h.consistent.expectedCal_of_applied happ).symm⟩
  · rename_i hnot
    exact ⟨fun heq => Or.inl heq.symm, fun hs => (hs.resolve_right hnot).symm⟩

/-- A 0x21 report that answers a read of `data` at `addr`. -/
def spiReport (addr : UInt32) (data : List UInt8) : List UInt8 :=
  (0x21 :: List.replicate 12 0 : List UInt8) ++
    [0x90, 0x10, addr.toUInt8, (addr >>> 8).toUInt8, (addr >>> 16).toUInt8, (addr >>> 24).toUInt8,
      UInt8.ofNat data.length] ++ data

/-- A flash with a matching magic and two blocks that parse to different calibrations. -/
def overriddenFlash : Flash where
  factory := List.replicate 24 1
  magic := [0xB2, 0xA1]
  override := List.replicate 24 2

def Flash.factoryReport (flash : Flash) : List UInt8 := spiReport SPI_ADDR_FACTORY_CAL flash.factory
def Flash.magicReport (flash : Flash) : List UInt8 := spiReport SPI_ADDR_USER_OVERRIDE_MAGIC flash.magic
def Flash.overrideReport (flash : Flash) : List UInt8 := spiReport SPI_ADDR_USER_OVERRIDE_BLOCK flash.override

/-- With the factory reply first the override is the calibration that is held, also when a short reply for the
override comes before the block itself. -/
theorem calibrationAfter_factory_first :
    let flash := overriddenFlash
    let bufs := [flash.factoryReport, spiReport SPI_ADDR_USER_OVERRIDE_BLOCK [2, 2], flash.overrideReport,
      flash.magicReport]
    SettlesOnFlash flash bufs ∧ (calibrationAfter bufs).cal = flash.expectedCal := by
  have hs : SettlesOnFlash overriddenFlash [overriddenFlash.factoryReport,
      spiReport SPI_ADDR_USER_OVERRIDE_BLOCK [2, 2], overriddenFlash.overrideReport, overriddenFlash.magicReport] :=
    Or.inr (by decide +kernel)
  exact ⟨hs, (calibrationAfter_eq_expected_iff
    ⟨by decide +kernel, by decide +kernel, by decide +kernel, by decide +kernel⟩).2 hs⟩

/-- With the factory reply last the same blocks leave the factory calibration, although the override counts.  So does
a short reply that takes the place of the cached override block. -/
theorem calibrationAfter_factory_last :
    let flash := overriddenFlash
    let late := [flash.magicReport, flash.overrideReport, flash.factoryReport]
    let short := [flash.factoryReport, flash.overrideReport, spiReport SPI_ADDR_USER_OVERRIDE_BLOCK [2, 2],
      flash.magicReport]
    flash.overrideCal = some flash.expectedCal ∧ ∀ bufs ∈ [late, short],
      flash.Consistent (spiReplies bufs) ∧
      (∀ r ∈ [⟨SPI_ADDR_FACTORY_CAL, flash.factory⟩, ⟨SPI_ADDR_USER_OVERRIDE_MAGIC, flash.magic⟩,
        ⟨SPI_ADDR_USER_OVERRIDE_BLOCK, flash.override⟩], r ∈ spiReplies bufs) ∧
      some (calibrationAfter bufs).cal = flash.factoryCal ∧
      (calibrationAfter bufs).cal ≠ flash.expectedCal := by
  decide +kernel

end EverythingImu.Joycon
