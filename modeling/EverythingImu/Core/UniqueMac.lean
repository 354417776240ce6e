import EverythingImu.Core.Registry

/-!
# One entry for a MAC

`register_device` purges the entries with the MAC of its device in one section and inserts its own in another.  Two
entries have the same MAC exactly when a handle is inserted while the entry of another serial is there that was inserted
since the purge (`entries_unique_mac`): the purge of the one does not see the other yet.

To say so, a run of the registry also keeps, for every registration, which handles were inserted since its purge.
-/

namespace EverythingImu.Core

open StepRun

variable {F : Type}

/-- No two entries have the same MAC. -/
def UniqueMacs (d : Devices F) : Prop :=
  ∀ id id' n n' r r', d.current id = some n → d.slot n = some r → d.current id' = some n' → d.slot n' = some r' →
    r.metadata.id.mac = r'.metadata.id.mac → id = id'

/-- The registry, and for every registration the registrations whose handles were inserted since its purge. -/
structure RegistryRun (F : Type) where
  app : AppState F
  since : Nat → List Nat

namespace RegistryRun

def start (store : BiasStore) : RegistryRun F := ⟨.start store, fun _ => []⟩

/-- The insertions, for the registrations that are already there. -/
def insertedSince (s : RegistryRun F) : AppAction → Nat → List Nat
  | .insert m => fun n => if n < s.app.devices.slots.length then m :: s.since n else s.since n
  | _ => s.since

end RegistryRun

/-! ### The invariant -/

/-- Every entry is that of its device's id, and no two have the same MAC; an entry that has the MAC of a registration
and another id was inserted since the purge of the registration. -/
structure MacInvariant (d : Devices F) (since : Nat → List Nat) : Prop where
  ids : SlotTable.Current (fun id _ r => r.metadata.id = id) d
  unique : ∀ id id' n n', d.current id = some n → d.current id' = some n' → id.mac = id'.mac → id = id'
  later : SlotTable.All (fun n r => ∀ id m, d.current id = some m → id.mac = r.metadata.id.mac →
    id ≠ r.metadata.id → m ∈ since n) d

/-- The purge leaves no entry of another id with the MAC. -/
theorem Devices.mac_of_purge {d : Devices F} (hids : SlotTable.Current (fun id _ r => r.metadata.id = id) d)
    {id did : DeviceId} {m : Nat} (h : (d.purge id).current did = some m) (hmac : did.mac = id.mac) : did = id := by
  have heq : d.purge id = d.releaseEach Registration.replaceStale (d.staleIds id) := rfl
  rw [heq] at h
  obtain ⟨hkept, hcur⟩ := SlotTable.current_of_releaseEach h
  obtain ⟨r, hr, hid⟩ := hids did m hcur
  refine Classical.byContradiction fun hne => hkept ?_
  unfold staleIds
  rw [List.mem_filter]
  refine ⟨SlotTable.mem_keys.2 ⟨m, hcur⟩, ?_⟩
  rw [hcur, Option.bind_some, hr, Option.any_some]
  subst hid
  simp [hne, hmac]

namespace MacInvariant

variable {d : Devices F} {since : Nat → List Nat} {n : Nat} {id : DeviceId}

theorem empty : MacInvariant (SlotTable.empty : Devices F) since := ⟨.empty, nofun, .empty⟩

/-- Entries and MACs in terms of the ids only. -/
theorem uniqueMacs_iff (hids : SlotTable.Current (fun id _ r => r.metadata.id = id) d) :
    UniqueMacs d ↔ ∀ id id' n n', d.current id = some n → d.current id' = some n' → id.mac = id'.mac → id = id' := by
  constructor
  · intro hu id id' n n' hcur hcur' hmac
    obtain ⟨r, hr, rfl⟩ := hids id n hcur
    obtain ⟨r', hr', rfl⟩ := hids id' n' hcur'
    exact hu _ _ n n' r r' hcur hr hcur' hr' hmac
  · intro hu id id' n n' r r' hcur hr hcur' hr' hmac
    obtain ⟨r₁, hr₁, rfl⟩ := hids id n hcur
    obtain ⟨r₂, hr₂, rfl⟩ := hids id' n' hcur'
    obtain rfl := SlotTable.slot_inj hr hr₁
    obtain rfl := SlotTable.slot_inj hr' hr₂
    exact hu _ _ n n' hcur hcur' hmac

theorem modify (h : MacInvariant d since) {f : Registration F → Registration F}
    (hf : ∀ r, d.slot n = some r → (f r).metadata = r.metadata) : MacInvariant (d.modify n f) since := by
  refine ⟨h.ids.modify fun id r _ hr hid => ?_, h.unique, h.later.modify fun r hr hlater => ?_⟩
  · rw [hf r hr, hid]
  · rw [hf r hr]
    exact hlater

/-- Entries may go. -/
theorem forget (h : MacInvariant d since) : MacInvariant (d.forget id) since := by
  refine ⟨h.ids.forget, fun id₁ id₂ n₁ n₂ h₁ h₂ => ?_, ?_⟩
  · exact h.unique id₁ id₂ n₁ n₂ (SlotTable.current_of_forget h₁).2 (SlotTable.current_of_forget h₂).2
  · exact SlotTable.All.imp (t := d) h.later fun n r _ hr id m hcur => hr id m (SlotTable.current_of_forget hcur).2

theorem purge (h : MacInvariant d since) (id : DeviceId) : MacInvariant (d.purge id) since :=
  Devices.purge_induction (P := fun d => MacInvariant d since) id h fun _ _ _ hd _ =>
    hd.forget.modify fun _ _ => rfl

theorem remove (h : MacInvariant d since) (id : DeviceId) : MacInvariant (d.remove id) since := by
  rcases Devices.remove_eq d id with ⟨-, heq⟩ | ⟨n, -, heq⟩
  · rw [heq]
    exact h
  · rw [heq]
    exact h.forget.modify fun _ _ => rfl

/-- A registration is made: no entry that its purge has left has its MAC and another id. -/
theorem register (h : MacInvariant d since) (metadata : DeviceMetadata) :
    MacInvariant (SlotTable.push (d.purge metadata.id) (.new metadata)) since := by
  have hpurged := h.purge metadata.id
  refine ⟨hpurged.ids.push, hpurged.unique, hpurged.later.push fun id m hcur hmac hne => ?_⟩
  exact absurd (Devices.mac_of_purge h.ids hcur hmac) hne

end MacInvariant

/-! ### An insertion -/

section Insert

variable {d : Devices F} {since : Nat → List Nat} {n : Nat} {r₀ : Registration F}

/-- The entries after an insertion: the new one, and the old ones of other ids. -/
private theorem current_insert_iff {id : DeviceId} {m : Nat} :
    (d.insert r₀.metadata.id n).current id = some m ↔
      id = r₀.metadata.id ∧ m = n ∨ id ≠ r₀.metadata.id ∧ d.current id = some m := by
  unfold Devices.insert
  by_cases hid : id = r₀.metadata.id
  · rw [hid, SlotTable.current_point_self, Option.some.injEq]
    simp [eq_comm]
  · have hremove : (d.remove r₀.metadata.id).current id = d.current id := by
      rcases Devices.remove_eq d r₀.metadata.id with ⟨-, heq⟩ | ⟨k, -, heq⟩
      · rw [heq]
      · rw [heq, SlotTable.current_modify, SlotTable.current_forget_of_ne hid]
    rw [SlotTable.current_point_of_ne hid, SlotTable.current_modify, hremove]
    simp [hid]

/-- An insertion keeps the ids of the entries and the order of insertions, whatever the MACs are. -/
private theorem insert_ids_later (h : MacInvariant d since) (hr₀ : d.slot n = some r₀) :
    SlotTable.Current (fun id _ r => r.metadata.id = id) (d.insert r₀.metadata.id n) ∧
      SlotTable.All (fun k r => ∀ id m, (d.insert r₀.metadata.id n).current id = some m →
        id.mac = r.metadata.id.mac → id ≠ r.metadata.id → m ∈ n :: since k) (d.insert r₀.metadata.id n) := by
  have hmod : MacInvariant ((d.remove r₀.metadata.id).modify n Registration.setInserted) since :=
    (h.remove r₀.metadata.id).modify fun _ _ => rfl
  obtain ⟨r', hr', hmeta, -⟩ := Devices.slot_remove r₀.metadata.id hr₀
  have hslot : ((d.remove r₀.metadata.id).modify n Registration.setInserted).slot n = some r'.setInserted := by
    rw [SlotTable.slot_modify_self, hr', Option.map_some]
  have hid : r'.setInserted.metadata.id = r₀.metadata.id := congrArg _ hmeta
  refine ⟨hmod.ids.point hslot hid, fun k r hr id m hcur hmac hne => ?_⟩
  rcases SlotTable.current_of_point hcur with ⟨-, rfl⟩ | ⟨-, hcur⟩
  · exact List.mem_cons_self
  · exact List.mem_cons_of_mem n (hmod.later k r hr id m hcur hmac hne)

/-- No entry that was inserted since the purge of the registration has its MAC and another id. -/
def NoRival (d : Devices F) (since : List Nat) (r₀ : Registration F) : Prop :=
  ∀ m ∈ since, ∀ r ∈ d.slot m, d.current r.metadata.id = some m → r.metadata.id.mac = r₀.metadata.id.mac →
    r.metadata.id = r₀.metadata.id

instance (d : Devices F) (since : List Nat) (r₀ : Registration F) : Decidable (NoRival d since r₀) :=
  inferInstanceAs (Decidable (∀ _ ∈ _, ∀ _ ∈ _, _))

/-- An insertion keeps the MACs apart exactly when the registration has no rival. -/
private theorem insert_uniqueMacs_iff (h : MacInvariant d since) (hr₀ : d.slot n = some r₀) :
    UniqueMacs (d.insert r₀.metadata.id n) ↔ NoRival d (since n) r₀ := by
  rw [MacInvariant.uniqueMacs_iff (insert_ids_later h hr₀).1]
  constructor
  · intro hu m _ r _ hcur hmac
    refine Classical.byContradiction fun hne => ?_
    have hold : (d.insert r₀.metadata.id n).current r.metadata.id = some m :=
      current_insert_iff.2 (Or.inr ⟨hne, hcur⟩)
    have hnew : (d.insert r₀.metadata.id n).current r₀.metadata.id = some n :=
      current_insert_iff.2 (Or.inl ⟨rfl, rfl⟩)
    exact hne (hu _ _ m n hold hnew hmac)
  · intro hrival
    -- an entry of another id with the MAC of the registration is a rival
    have hother : ∀ id m, d.current id = some m → id.mac = r₀.metadata.id.mac → id = r₀.metadata.id := by
      intro id m hcur hmac
      refine Classical.byContradiction fun hne => hne ?_
      obtain ⟨r, hr, rfl⟩ := h.ids id m hcur
      exact hrival m (h.later n r₀ hr₀ _ m hcur hmac hne) r hr hcur hmac
    intro id id' m m' hcur hcur' hmac
    rcases current_insert_iff.1 hcur with ⟨rfl, -⟩ | ⟨-, hcur⟩
    · rcases current_insert_iff.1 hcur' with ⟨rfl, -⟩ | ⟨-, hcur'⟩
      · rfl
      · exact (hother id' m' hcur' hmac.symm).symm
    · rcases current_insert_iff.1 hcur' with ⟨rfl, -⟩ | ⟨-, hcur'⟩
      · exact hother id m hcur hmac
      · exact h.unique id id' m m' hcur hcur' hmac

end Insert

/-! ### Runs -/

section Runs

variable [OrientationFilter F] {calibrate : List Mag → Option MagCalibration}

variable (calibrate) in
def registryRunStep (s : RegistryRun F) (a : AppAction) : Option (RegistryRun F) :=
  (appStep calibrate s.app a).map fun app => ⟨app, s.insertedSince a⟩

/-- A handle is inserted only when the registration has no rival. -/
def MacRaceFree (s : RegistryRun F) : AppAction → Prop
  | .insert n => ∀ r ∈ s.app.devices.slot n, NoRival s.app.devices (s.since n) r
  | _ => True

instance (s : RegistryRun F) : (a : AppAction) → Decidable (MacRaceFree s a)
  | .insert _ => inferInstanceAs (Decidable (∀ _ ∈ _, _))
  | .registerDevice _ | .spawn _ _ _ | .turn _ _ | .reap _ | .cancel _ | .emit _ _ | .closeEvents _ | .magCal _ _
  | .shutdown | .stopDrained _ | .dropDrained _ => inferInstanceAs (Decidable True)

/-- The steps other than an insertion keep the invariant. -/
private theorem appStep_macInvariant {s s' : AppState F} {since : Nat → List Nat} {a : AppAction}
    (h : MacInvariant s.devices since) (ha : ∀ n, a ≠ .insert n) (hs : appStep calibrate s a = some s') :
    MacInvariant s'.devices since := by
  cases appStep_inv hs with
  | register metadata => exact h.register metadata
  | spawn config now p hr ht => exact h.modify fun _ _ => rfl
  | insert hr ht hi => exact absurd rfl (ha _)
  | turn hr hturn =>
    refine h.modify fun r₁ hr₁ => ?_
    obtain rfl := SlotTable.slot_inj hr hr₁
    exact (Registration.turn_core hturn).1
  | reapDisconnected hr ht => exact (h.remove _).modify fun _ _ => rfl
  | reapOther hr ht hres => exact h.modify fun _ _ => rfl
  | cancel hr ha => exact h.modify fun _ _ => rfl
  | emit evt hr hopen => exact h.modify fun _ _ => rfl
  | closeEvents n => exact h.modify fun _ _ => rfl
  | magCal cmd => exact h.modify fun _ _ => rfl
  | shutdown => exact ⟨.forgetAll, nofun, SlotTable.All.imp (t := s.devices) h.later fun _ _ _ _ => nofun⟩
  | stopDrained hn => exact h.modify fun _ _ => rfl
  | dropDrained hn => exact h.modify fun _ _ => rfl

/-- A step keeps the MACs apart exactly when it is free of the race, and then it keeps the invariant. -/
theorem registryRunStep_macs {s s' : RegistryRun F} {a : AppAction} (h : MacInvariant s.app.devices s.since)
    (hs : registryRunStep calibrate s a = some s') :
    (UniqueMacs s'.app.devices ↔ MacRaceFree s a) ∧ (MacRaceFree s a → MacInvariant s'.app.devices s'.since) := by
  obtain ⟨app, happ, rfl⟩ := Option.map_eq_some_iff.1 hs
  by_cases ha : ∃ n, a = .insert n
  · obtain ⟨n, rfl⟩ := ha
    cases appStep_inv happ with
    | @insert n r hr ht hi =>
      have hiff : UniqueMacs (s.app.devices.insert r.metadata.id n) ↔ MacRaceFree s (.insert n) := by
        rw [insert_uniqueMacs_iff h hr]
        constructor
        · intro hrival r' hr'
          obtain rfl := SlotTable.slot_inj hr hr'
          exact hrival
        · intro hfree
          exact hfree r hr
      refine ⟨hiff, fun hfree => ?_⟩
      obtain ⟨hids, hlater⟩ := insert_ids_later h hr
      refine ⟨hids, (MacInvariant.uniqueMacs_iff hids).1 (hiff.2 hfree), fun k r' hr' id m hcur hmac hne => ?_⟩
      have hk : k < s.app.devices.slots.length := by
        rcases SlotTable.slot_of_modify hr' with ⟨-, hr'⟩ | ⟨rfl, -⟩
        · obtain ⟨r₁, hr₁, -⟩ := Devices.slot_of_remove hr'
          exact SlotTable.lt_of_slot hr₁
        · exact SlotTable.lt_of_slot hr
      have hsince : s.insertedSince (.insert n) k = n :: s.since k := if_pos hk
      show m ∈ s.insertedSince (.insert n) k
      rw [hsince]
      exact hlater k r' hr' id m hcur hmac hne
  · have hinv : MacInvariant app.devices s.since := appStep_macInvariant h (fun n hn => ha ⟨n, hn⟩) happ
    have hsince : s.insertedSince a = s.since := by
      cases a with
      | insert n => exact absurd ⟨n, rfl⟩ ha
      | _ => rfl
    have hfree : MacRaceFree s a := by
      cases a with
      | insert n => exact absurd ⟨n, rfl⟩ ha
      | _ => trivial
    refine ⟨iff_of_true ((MacInvariant.uniqueMacs_iff hinv.ids).2 hinv.unique) hfree, fun _ => ?_⟩
    rw [hsince]
    exact hinv

/-- As long as no insertion meets a rival no two entries have the same MAC; the first that does ends that. -/
theorem entries_unique_mac {store : BiasStore} {s : RegistryRun F}
    (h : Reaches (registryRunStep calibrate) MacRaceFree (.start store) s) :
    UniqueMacs s.app.devices ∧
      ∀ a s', registryRunStep calibrate s a = some s' → (UniqueMacs s'.app.devices ↔ MacRaceFree s a) := by
  have hinv : MacInvariant s.app.devices s.since :=
    h.invariant (I := fun s => MacInvariant s.app.devices s.since) .empty
      fun _ _ _ hi hok hs => (registryRunStep_macs hi hs).2 hok
  exact ⟨(MacInvariant.uniqueMacs_iff hinv.ids).2 hinv.unique, fun _ _ hs => (registryRunStep_macs hinv hs).1⟩

end Runs

/-- The phone under another serial. -/
def renamedPhone : DeviceMetadata := { phoneMetadata with id := { phoneMetadata.id with serial := "b" } }

/-- A phone that comes back under another serial, after its first registration, has one entry. -/
theorem renamed_phone_unique :
    ∃ s : RegistryRun StillFilter, s.app.devices.keys = [renamedPhone.id] ∧ UniqueMacs s.app.devices := by
  let run := exec (guardStep (registryRunStep noFit) MacRaceFree) (.start ∅ : RegistryRun StillFilter)
    (registerPhone 0 ++ [.registerDevice renamedPhone, .spawn 1 .default 0, .insert 1])
  have hkeys : run.map (·.app.devices.keys) = some [renamedPhone.id] := by decide +kernel
  obtain ⟨s, hs, hkeys⟩ := Option.map_eq_some_iff.1 hkeys
  exact ⟨s, hkeys, (entries_unique_mac (Reaches.of_exec _ hs)).1⟩

/-- The phone registers under two serials at the same time: both purges come before both insertions. -/
theorem renamed_phone_registered_twice :
    ∃ s : AppState StillFilter, exec (appStep noFit) emptyRegistry
        [.registerDevice phoneMetadata, .registerDevice renamedPhone, .spawn 0 .default 0, .spawn 1 .default 0,
          .insert 0, .insert 1] = some s ∧ ¬ UniqueMacs s.devices := by
  let run := exec (appStep noFit) emptyRegistry
    [.registerDevice phoneMetadata, .registerDevice renamedPhone, .spawn 0 .default 0, .spawn 1 .default 0, .insert 0,
      .insert 1]
  have hentries : run.map (fun s => (s.devices.current phoneMetadata.id, s.devices.current renamedPhone.id)) =
      some (some 0, some 1) := by decide +kernel
  have hids : run.map (fun s => s.devices.slots.map (·.metadata)) = some [phoneMetadata, renamedPhone] := by
    decide +kernel
  obtain ⟨s, hs, hentries⟩ := Option.map_eq_some_iff.1 hentries
  rw [show run = some s from hs, Option.map_some, Option.some.injEq] at hids
  simp only [Prod.mk.injEq] at hentries
  have hslot : ∀ n, (s.devices.slot n).map (·.metadata) = [phoneMetadata, renamedPhone][n]? := by
    intro n
    rw [← hids, List.getElem?_map]
    rfl
  obtain ⟨r, hr, hmeta⟩ := Option.map_eq_some_iff.1 (hslot 0)
  obtain ⟨r', hr', hmeta'⟩ := Option.map_eq_some_iff.1 (hslot 1)
  refine ⟨s, hs, fun hunique => ?_⟩
  have hsame : phoneMetadata.id = renamedPhone.id :=
    hunique _ _ 0 1 r r' hentries.1 hr hentries.2 hr' (by rw [hmeta, hmeta']; rfl)
  exact absurd hsame (by decide)

end EverythingImu.Core
