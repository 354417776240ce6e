import EverythingImu.Core.EventStream

/-!
# Which handles are held

A handle that `register_device` has stored is dropped exactly when its entry is gone and no `shutdown` still holds it:
the senders of a registration are open as long as the registration has not inserted its handle, an entry is its own, or
a `shutdown` has taken its handle and not dropped it yet (`HeldHandles.open_iff`).  Registrations keep their slots and
their metadata, and senders that are gone stay gone (`appStep_keeps`).
-/

namespace EverythingImu.Core

open StepRun

variable {F : Type}

/-! ### What the steps keep -/

/-- The registrations are the same with the same metadata, and no sender has come back. -/
structure Keeps (d d' : Devices F) : Prop where
  metadata : d'.slots.map (·.metadata) = d.slots.map (·.metadata)
  closed : ∀ n r r', d.slot n = some r → d'.slot n = some r' → r.stop.closed = true → r'.stop.closed = true

namespace Keeps

variable {d d' d'' : Devices F} {n : Nat} {id : DeviceId} {f : Registration F → Registration F}

theorem refl (d : Devices F) : Keeps d d := by
  refine ⟨rfl, fun n r r' hr hr' hclosed => ?_⟩
  obtain rfl := SlotTable.slot_inj hr hr'
  exact hclosed

theorem length_eq (h : Keeps d d') : d'.slots.length = d.slots.length := by
  simpa only [List.length_map] using congrArg List.length h.metadata

theorem slot (h : Keeps d d') {r : Registration F} (hr : d.slot n = some r) : ∃ r', d'.slot n = some r' := by
  have hlt : n < d'.slots.length := h.length_eq ▸ SlotTable.lt_of_slot hr
  exact ⟨d'.slots[n], List.getElem?_eq_getElem hlt⟩

theorem trans (h : Keeps d d') (h' : Keeps d' d'') : Keeps d d'' := by
  refine ⟨h'.metadata.trans h.metadata, fun n r r'' hr hr'' hclosed => ?_⟩
  obtain ⟨r', hr'⟩ := h.slot hr
  exact h'.closed n r' r'' hr' hr'' (h.closed n r r' hr hr' hclosed)

theorem modify (hf : ∀ r, d.slot n = some r →
    (f r).metadata = r.metadata ∧ (r.stop.closed = true → (f r).stop.closed = true)) : Keeps d (d.modify n f) := by
  refine ⟨SlotTable.map_modify_of_keeps fun r hr => (hf r hr).1, fun m r r' hr hr' hclosed => ?_⟩
  rcases SlotTable.slot_of_modify hr' with ⟨-, hr'⟩ | ⟨rfl, r₀, hr₀, rfl⟩
  · obtain rfl := SlotTable.slot_inj hr hr'
    exact hclosed
  · obtain rfl := SlotTable.slot_inj hr hr₀
    exact (hf r hr).2 hclosed

theorem forget : Keeps d (d.forget id) := ⟨rfl, (Keeps.refl d).closed⟩

theorem forget_modify (hf : ∀ r, (f r).metadata = r.metadata ∧ (r.stop.closed = true → (f r).stop.closed = true)) :
    Keeps d ((d.forget id).modify n f) := forget.trans (modify fun r _ => hf r)

theorem purge : Keeps d (d.purge id) :=
  Devices.purge_induction (P := Keeps d) id (.refl d) fun _ _ _ hd _ =>
    hd.trans (forget_modify fun _ => ⟨rfl, fun _ => rfl⟩)

theorem remove : Keeps d (d.remove id) := by
  rcases Devices.remove_eq d id with ⟨-, heq⟩ | ⟨n, -, heq⟩
  · rw [heq]
    exact .refl d
  · rw [heq]
    exact forget_modify fun _ => ⟨rfl, fun _ => rfl⟩

theorem insert : Keeps d (d.insert id n) := by
  have hins : Keeps d ((d.remove id).modify n Registration.setInserted) :=
    remove.trans (modify fun _ _ => ⟨rfl, fun hclosed => hclosed⟩)
  exact ⟨hins.metadata, hins.closed⟩

end Keeps

section Steps

variable [OrientationFilter F] {calibrate : List Mag → Option MagCalibration}

/-- A step adds a registration or keeps those there are. -/
theorem appStep_keeps {s s' : AppState F} {a : AppAction} (hs : appStep calibrate s a = some s') :
    Keeps s.devices s'.devices ∨ ∃ metadata, a = .registerDevice metadata ∧
      ∃ d, Keeps s.devices d ∧ s'.devices = SlotTable.push d (.new metadata) := by
  cases appStep_inv hs with
  | register metadata => exact Or.inr ⟨metadata, rfl, _, .purge, rfl⟩
  | insert hr ht hi => exact Or.inl .insert
  | @turn n r r' branch store hr hturn =>
    refine Or.inl (.modify fun r₁ hr₁ => ?_)
    obtain rfl := SlotTable.slot_inj hr hr₁
    obtain ⟨hmeta, -⟩ := Registration.turn_core hturn
    obtain ⟨hstop, -⟩ := Registration.turn_senders hturn
    exact ⟨hmeta, fun hclosed => hstop ▸ hclosed⟩
  | @reapDisconnected n r last hr ht =>
    exact Or.inl (Keeps.remove.trans (.modify (d := s.devices.remove r.metadata.id) fun _ _ => ⟨rfl, fun hc => hc⟩))
  | shutdown => exact Or.inl ⟨rfl, (Keeps.refl s.devices).closed⟩
  | spawn config now p hr ht => exact Or.inl (.modify fun _ _ => ⟨rfl, fun hc => hc⟩)
  | reapOther hr ht hres => exact Or.inl (.modify fun _ _ => ⟨rfl, fun hc => hc⟩)
  | cancel hr ha => exact Or.inl (.modify fun _ _ => ⟨rfl, fun hc => hc⟩)
  | emit evt hr hopen => exact Or.inl (.modify fun _ _ => ⟨rfl, fun hc => hc⟩)
  | closeEvents n => exact Or.inl (.modify fun _ _ => ⟨rfl, fun hc => hc⟩)
  | magCal cmd => exact Or.inl (.modify fun _ _ => ⟨rfl, fun hc => hc⟩)
  | stopDrained hn => exact Or.inl (.modify fun _ _ => ⟨rfl, fun hc => hc⟩)
  | dropDrained hn => exact Or.inl (.modify fun _ _ => ⟨rfl, fun _ => rfl⟩)

end Steps

/-! ### Handles -/

/-- The registration has not inserted its handle yet, its handle is that of an entry, or a `shutdown` has it. -/
def Held (d : Devices F) (draining : List Nat) (n : Nat) (r : Registration F) : Prop :=
  r.inserted = false ∨ (∃ id, d.current id = some n) ∨ n ∈ draining

/-- The senders of a handle that is nowhere held are gone, and `shutdown` takes every handle once. -/
structure HeldHandles (d : Devices F) (draining : List Nat) : Prop extends SendersOpen d draining where
  held : SlotTable.All (fun n r => r.stop.closed = false → Held d draining n r) d
  drainedOpen : SlotTable.All (fun n r => n ∈ draining → r.stop.closed = false) d
  nodup : draining.Nodup

namespace HeldHandles

variable {d : Devices F} {draining : List Nat} {n : Nat} {id : DeviceId} {f : Registration F → Registration F}

/-- The senders of a registration are open exactly as long as its handle is held. -/
theorem open_iff (h : HeldHandles d draining) {r : Registration F} (hr : d.slot n = some r) :
    r.stop.closed = false ↔ Held d draining n r := by
  refine ⟨h.held n r hr, ?_⟩
  rintro (hins | ⟨id, hcur⟩ | hdr)
  · exact (h.fresh n r hr hins).1
  · obtain ⟨r', hr', -, -, hopen, -⟩ := h.entry id n hcur
    obtain rfl := SlotTable.slot_inj hr hr'
    exact hopen
  · exact h.drainedOpen n r hr hdr

theorem modify (h : HeldHandles d draining)
    (hf : ∀ r, d.slot n = some r → (f r).metadata = r.metadata ∧ (f r).inserted = r.inserted ∧
      (f r).stop.closed = r.stop.closed ∧ (f r).magCalCmd.closed = r.magCalCmd.closed) :
    HeldHandles (d.modify n f) draining where
  toSendersOpen := h.toSendersOpen.modify hf
  held := by
    refine h.held.modify fun r hr hP hopen => ?_
    obtain ⟨-, hins, hstop, -⟩ := hf r hr
    rw [hstop] at hopen
    rcases hP hopen with hfresh | hcur | hdr
    · exact Or.inl (hins.trans hfresh)
    · exact Or.inr (Or.inl hcur)
    · exact Or.inr (Or.inr hdr)
  drainedOpen := by
    refine h.drainedOpen.modify fun r hr hP hdr => ?_
    rw [(hf r hr).2.2.1]
    exact hP hdr
  nodup := h.nodup

/-- The entry of an id is forgotten and its handle dropped. -/
theorem forget_modify (h : HeldHandles d draining) (hcur : d.current id = some n)
    (hf : ∀ r, (f r).inserted = r.inserted ∧ (f r).stop.closed = true) :
    HeldHandles ((d.forget id).modify n f) draining where
  toSendersOpen := h.toSendersOpen.forget_modify hcur fun r => (hf r).1
  held := by
    intro m r hr hopen
    rcases SlotTable.slot_of_modify hr with ⟨hne, hr⟩ | ⟨rfl, r₀, -, rfl⟩
    · rcases h.held m r hr hopen with hfresh | ⟨id', hcur'⟩ | hdr
      · exact Or.inl hfresh
      · refine Or.inr (Or.inl ⟨id', ?_⟩)
        have hid : id' ≠ id := by
          rintro rfl
          exact hne (Option.some.inj (hcur'.symm.trans hcur))
        exact (SlotTable.current_forget_of_ne hid).trans hcur'
      · exact Or.inr (Or.inr hdr)
    · rw [(hf r₀).2] at hopen
      cases hopen
  drainedOpen := by
    refine SlotTable.All.modify (t := d.forget id) h.drainedOpen fun r _ _ hdr => ?_
    exact absurd hcur ((h.drained n hdr).2 id)
  nodup := h.nodup

theorem purge (h : HeldHandles d draining) : HeldHandles (d.purge id) draining :=
  Devices.purge_induction (P := (HeldHandles · draining)) id h fun _ _ _ hd hcur =>
    hd.forget_modify hcur fun _ => ⟨rfl, rfl⟩

theorem push (h : HeldHandles d draining) (metadata : DeviceMetadata) :
    HeldHandles (SlotTable.push d (.new metadata)) draining where
  toSendersOpen := h.toSendersOpen.push metadata
  held := SlotTable.All.push h.held fun _ => Or.inl rfl
  drainedOpen := SlotTable.All.push h.drainedOpen fun _ => rfl
  nodup := h.nodup

theorem remove (h : HeldHandles d draining) : HeldHandles (d.remove id) draining := by
  rcases Devices.remove_eq d id with ⟨-, heq⟩ | ⟨n, hcur, heq⟩
  · rw [heq]
    exact h
  · rw [heq]
    exact h.forget_modify hcur fun _ => ⟨rfl, rfl⟩

theorem insert (h : HeldHandles d draining) {r : Registration F} (hr : d.slot n = some r) (hi : r.inserted = false) :
    HeldHandles (d.insert r.metadata.id n) draining where
  toSendersOpen := h.toSendersOpen.insert hr hi
  held := by
    intro m r' hr' hopen
    rcases SlotTable.slot_of_modify hr' with ⟨hne, hr'⟩ | ⟨rfl, -⟩
    · have hremoved : HeldHandles (d.remove r.metadata.id) draining := h.remove
      rcases hremoved.held m r' hr' hopen with hfresh | ⟨id, hcur⟩ | hdr
      · exact Or.inl hfresh
      · have hid : id ≠ r.metadata.id := (Devices.current_of_remove hcur).1
        refine Or.inr (Or.inl ⟨id, (SlotTable.current_point_of_ne hid).trans ?_⟩)
        rwa [SlotTable.current_modify]
      · exact Or.inr (Or.inr hdr)
    · exact Or.inr (Or.inl ⟨r.metadata.id, SlotTable.current_point_self⟩)
  drainedOpen :=
    have hremoved : HeldHandles (d.remove r.metadata.id) draining := h.remove
    SlotTable.All.modify hremoved.drainedOpen fun _ _ hP => hP
  nodup := h.nodup

/-- The entries point at different registrations, since each is under the id of its registration. -/
theorem entries_nodup (h : HeldHandles d draining) : (d.index.entries.map (·.2)).Nodup := by
  refine List.Nodup.map_on ?_ d.index.nodupKeys.nodup
  rintro ⟨id, n⟩ hid ⟨id', n'⟩ hid' heq
  obtain rfl : n = n' := heq
  obtain ⟨r, hr, hmeta, -⟩ := h.entry id n (AList.mem_lookup_iff.2 hid)
  obtain ⟨r', hr', hmeta', -⟩ := h.entry id' n (AList.mem_lookup_iff.2 hid')
  obtain rfl := SlotTable.slot_inj hr hr'
  obtain rfl : id = id' := hmeta.symm.trans hmeta'
  rfl

theorem shutdown (h : HeldHandles d draining) :
    HeldHandles d.forgetAll (draining ++ d.index.entries.map (·.2)) where
  toSendersOpen := h.toSendersOpen.shutdown
  held := by
    intro m r hr hopen
    rcases h.held m r hr hopen with hfresh | ⟨id, hcur⟩ | hdr
    · exact Or.inl hfresh
    · refine Or.inr (Or.inr (List.mem_append_right _ ?_))
      exact List.mem_map.2 ⟨⟨id, m⟩, AList.mem_lookup_iff.1 hcur, rfl⟩
    · exact Or.inr (Or.inr (List.mem_append_left _ hdr))
  drainedOpen := by
    intro m r hr hdr
    rcases List.mem_append.1 hdr with hdr | hdr
    · exact h.drainedOpen m r hr hdr
    · obtain ⟨e, he, rfl⟩ := List.mem_map.1 hdr
      obtain ⟨r', hr', -, -, hopen, -⟩ := h.entry e.1 e.2 (AList.mem_lookup_iff.2 he)
      obtain rfl := SlotTable.slot_inj hr hr'
      exact hopen
  nodup := by
    refine List.nodup_append.2 ⟨h.nodup, h.entries_nodup, fun m hm m' hm' => ?_⟩
    rintro rfl
    obtain ⟨e, he, rfl⟩ := List.mem_map.1 hm'
    exact (h.drained e.2 hm).2 e.1 (AList.mem_lookup_iff.2 he)

theorem dropDrained (h : HeldHandles d draining) (hn : n ∈ draining) :
    HeldHandles (d.modify n Registration.dropHandle) (draining.erase n) where
  toSendersOpen := h.toSendersOpen.dropDrained hn
  held := by
    intro m r hr hopen
    rcases SlotTable.slot_of_modify hr with ⟨hne, hr⟩ | ⟨rfl, r₀, -, rfl⟩
    · rcases h.held m r hr hopen with hfresh | hcur | hdr
      · exact Or.inl hfresh
      · exact Or.inr (Or.inl hcur)
      · exact Or.inr (Or.inr ((List.mem_erase_of_ne hne).2 hdr))
    · cases hopen
  drainedOpen := by
    intro m r hr hdr
    obtain ⟨hne, hdr⟩ := (h.nodup.mem_erase_iff).1 hdr
    rw [SlotTable.slot_modify_of_ne hne] at hr
    exact h.drainedOpen m r hr hdr
  nodup := h.nodup.erase n

end HeldHandles

variable [OrientationFilter F] {calibrate : List Mag → Option MagCalibration}

theorem appStep_heldHandles {s s' : AppState F} {a : AppAction} (h : HeldHandles s.devices s.draining)
    (hs : appStep calibrate s a = some s') : HeldHandles s'.devices s'.draining := by
  cases appStep_inv hs with
  | register metadata => exact h.purge.push metadata
  | insert hr ht hi => exact h.insert hr hi
  | @turn n r r' branch store hr hturn =>
    refine h.modify fun r₁ hr₁ => ?_
    obtain rfl := SlotTable.slot_inj hr hr₁
    obtain ⟨hmeta, hins, -⟩ := Registration.turn_core hturn
    obtain ⟨hstop, hcmd⟩ := Registration.turn_senders hturn
    exact ⟨hmeta, hins, congrArg _ hstop, congrArg _ hcmd⟩
  | reapDisconnected hr ht => exact h.remove.modify fun _ _ => ⟨rfl, rfl, rfl, rfl⟩
  | shutdown => exact h.shutdown
  | dropDrained hn => exact h.dropDrained hn
  | spawn config now p hr ht => exact h.modify fun _ _ => ⟨rfl, rfl, rfl, rfl⟩
  | reapOther hr ht hres => exact h.modify fun _ _ => ⟨rfl, rfl, rfl, rfl⟩
  | cancel hr ha => exact h.modify fun _ _ => ⟨rfl, rfl, rfl, rfl⟩
  | emit evt hr hopen => exact h.modify fun _ _ => ⟨rfl, rfl, rfl, rfl⟩
  | closeEvents n => exact h.modify fun _ _ => ⟨rfl, rfl, rfl, rfl⟩
  | magCal cmd => exact h.modify fun _ _ => ⟨rfl, rfl, rfl, rfl⟩
  | stopDrained hn => exact h.modify fun _ _ => ⟨rfl, rfl, rfl, rfl⟩

omit [OrientationFilter F] in
theorem heldHandles_start (store : BiasStore) :
    HeldHandles (AppState.start store : AppState F).devices (AppState.start store : AppState F).draining :=
  ⟨⟨.empty, .empty, nofun⟩, .empty, .empty, List.nodup_nil⟩

end EverythingImu.Core
