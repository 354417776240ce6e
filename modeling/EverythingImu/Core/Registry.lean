import EverythingImu.Core.AppState

/-!
# Entries, tasks and the reap

What every step does to the registry (`AppStep`), and two properties of its runs.

* No ghosts: if a handle is inserted only while its task is live, and a run that ends with anything but
  `DeviceDisconnected` has no entry then, every entry belongs to a running pipeline once the tasks whose run has
  returned are through (`registry_no_ghosts`).
* No wrong reap: the reap removes by id.  If no newer registration holds the entry when a run ends with
  `DeviceDisconnected`, and none inserts its handle before the reap, the reap leaves all newer registrations alone
  (`reap_keeps_newer`).
-/

namespace EverythingImu.Core

open Channel StepRun

variable {F : Type}

/-! ### Live tasks -/

/-- The pipeline is running, or the reap that removes its entry is still to come. -/
def Task.live : Task F → Bool
  | .running _ => true
  | .returned _ (.error .deviceDisconnected) => true
  | _ => false

/-- The run ended with `DeviceDisconnected` and the reap is still to come. -/
def Task.reaping : Task F → Bool
  | .returned _ (.error .deviceDisconnected) => true
  | _ => false

/-- The task has ended. -/
def Task.over : Task F → Bool
  | .finished _ => true
  | .cancelled => true
  | _ => false

/-- `f` touches only the channels of a registration. -/
def ChannelsOnly (f : Registration F → Registration F) : Prop :=
  ∀ r, (f r).metadata = r.metadata ∧ (f r).task = r.task ∧ (f r).inserted = r.inserted ∧ (f r).aborted = r.aborted

theorem channelsOnly_dropHandle : ChannelsOnly (Registration.dropHandle : Registration F → Registration F) :=
  fun _ => ⟨rfl, rfl, rfl, rfl⟩

/-! ### Purge, removal and insertion -/

namespace Devices

variable {d : Devices F}

/-- The purge removes entries one by one. -/
theorem purge_induction {P : Devices F → Prop} (id : DeviceId) (h : P d)
    (hstep : ∀ d did n, P d → d.current did = some n → P ((d.forget did).modify n Registration.replaceStale)) :
    P (d.purge id) := by
  unfold purge
  generalize d.staleIds id = stale
  induction stale generalizing d with
  | nil => exact h
  | cons did stale ih =>
    refine ih ?_
    unfold removeStale
    split
    · rename_i n hn
      exact hstep d did n h hn
    · exact h

theorem remove_eq (d : Devices F) (id : DeviceId) :
    d.current id = none ∧ d.remove id = d ∨
      ∃ n, d.current id = some n ∧ d.remove id = (d.forget id).modify n Registration.dropHandle := by
  unfold remove
  split
  · rename_i n hn
    exact Or.inr ⟨n, hn, rfl⟩
  · rename_i hn
    exact Or.inl ⟨hn, rfl⟩

theorem current_of_remove {id id' : DeviceId} {n : Nat} (h : (d.remove id).current id' = some n) :
    id' ≠ id ∧ d.current id' = some n := by
  rcases remove_eq d id with ⟨hnone, heq⟩ | ⟨m, -, heq⟩
  · rw [heq] at h
    refine ⟨?_, h⟩
    rintro rfl
    rw [hnone] at h
    cases h
  · rw [heq, SlotTable.current_modify] at h
    exact SlotTable.current_of_forget h

/-- A removal touches at most the channels of a registration, and those only if the entry is its own. -/
theorem slot_remove (id : DeviceId) {n : Nat} {r : Registration F} (hr : d.slot n = some r) :
    ∃ r', (d.remove id).slot n = some r' ∧ r'.metadata = r.metadata ∧ r'.task = r.task ∧ r'.aborted = r.aborted ∧
      (d.current id ≠ some n → r' = r) := by
  rcases remove_eq d id with ⟨-, heq⟩ | ⟨m, hcur, heq⟩
  · rw [heq]
    exact ⟨r, hr, rfl, rfl, rfl, fun _ => rfl⟩
  · rw [heq, hcur]
    by_cases hm : n = m
    · subst hm
      exact ⟨r.dropHandle, by simp [hr], rfl, rfl, rfl, fun hne => absurd rfl hne⟩
    · exact ⟨r, by rwa [SlotTable.slot_modify_of_ne hm], rfl, rfl, rfl, fun _ => rfl⟩

theorem slot_of_remove {id : DeviceId} {n : Nat} {r' : Registration F} (hr : (d.remove id).slot n = some r') :
    ∃ r, d.slot n = some r ∧ r'.metadata = r.metadata ∧ r'.task = r.task ∧ r'.inserted = r.inserted := by
  rcases remove_eq d id with ⟨-, heq⟩ | ⟨m, hcur, heq⟩
  · rw [heq] at hr
    exact ⟨r', hr, rfl, rfl, rfl⟩
  · rw [heq] at hr
    rcases SlotTable.slot_of_modify hr with ⟨-, hr⟩ | ⟨rfl, r, hr₀, rfl⟩
    · exact ⟨r', hr, rfl, rfl, rfl⟩
    · exact ⟨r, hr₀, rfl, rfl, rfl⟩

end Devices

/-! ### What a step does -/

section Step

variable [OrientationFilter F] {calibrate : List Mag → Option MagCalibration}

/-- What a turn takes and leaves. -/
theorem Registration.turn_spec {r r' : Registration F} {store store' : BiasStore} {branch : Branch}
    (h : r.turn calibrate store branch = some (r', store')) :
    ∃ p t, r.task = .running p ∧ r.select branch = some t ∧ store' = (p.runTurn calibrate store t).store ∧
      r' = (r.consume branch).setTask
        (match (p.runTurn calibrate store t).returned with
        | some result => .returned (p.runTurn calibrate store t).pipeline result
        | none => .running (p.runTurn calibrate store t).pipeline) := by
  unfold Registration.turn at h
  split at h
  · rename_i p hp
    obtain ⟨t, ht, heq⟩ := Option.map_eq_some_iff.1 h
    simp only [Prod.mk.injEq] at heq
    exact ⟨p, t, hp, ht, heq.2.symm, heq.1.symm⟩
  · cases h

omit [OrientationFilter F] in
theorem Registration.consume_channelsOnly (branch : Branch) :
    ChannelsOnly fun r : Registration F => r.consume branch := by
  intro r
  cases branch <;> exact ⟨rfl, rfl, rfl, rfl⟩

variable (calibrate) in
/-- The steps, with what each needs and does. -/
inductive AppStep (s : AppState F) : AppAction → AppState F → Prop
  | register (metadata : DeviceMetadata) :
    AppStep s (.registerDevice metadata)
      { s with devices := SlotTable.push (s.devices.purge metadata.id) (.new metadata) }
  | spawn {n : Nat} {r : Registration F} (config : PipelineConfig) (now : Instant) (p : Pipeline F)
    (hr : s.devices.slot n = some r) (ht : r.task = .notSpawned) :
    AppStep s (.spawn n config now) { s with devices := s.devices.modify n (Registration.setTask (.running p)) }
  | insert {n : Nat} {r : Registration F} (hr : s.devices.slot n = some r) (ht : r.task ≠ .notSpawned)
    (hi : r.inserted = false) :
    AppStep s (.insert n) { s with devices := s.devices.insert r.metadata.id n }
  | turn {n : Nat} {r r' : Registration F} {branch : Branch} {store : BiasStore}
    (hr : s.devices.slot n = some r) (hturn : r.turn calibrate s.biasStore branch = some (r', store)) :
    AppStep s (.turn n branch) { s with devices := s.devices.modify n fun _ => r', biasStore := store }
  | reapDisconnected {n : Nat} {r : Registration F} {last : Pipeline F} (hr : s.devices.slot n = some r)
    (ht : r.task = .returned last (.error .deviceDisconnected)) :
    AppStep s (.reap n)
      { s with
        devices := (s.devices.remove r.metadata.id).modify n
          (Registration.setTask (.finished (.error .deviceDisconnected))) }
  | reapOther {n : Nat} {r : Registration F} {last : Pipeline F} {result : Except AppError Unit}
    (hr : s.devices.slot n = some r) (ht : r.task = .returned last result)
    (hres : result ≠ .error .deviceDisconnected) :
    AppStep s (.reap n) { s with devices := s.devices.modify n (Registration.setTask (.finished result)) }
  | cancel {n : Nat} {r : Registration F} (hr : s.devices.slot n = some r) (ha : r.aborted = true) :
    AppStep s (.cancel n) { s with devices := s.devices.modify n (Registration.setTask .cancelled) }
  | emit {n : Nat} {r : Registration F} (evt : ChannelInfo) (hr : s.devices.slot n = some r)
    (hopen : r.events.closed = false) :
    AppStep s (.emit n evt)
      { s with devices := s.devices.modify n fun r => { r with events := r.events.send evt } }
  | closeEvents (n : Nat) :
    AppStep s (.closeEvents n)
      { s with devices := s.devices.modify n fun r => { r with events := r.events.dropSenders } }
  | magCal {n : Nat} (cmd : MagCalCommand) :
    AppStep s (.magCal n cmd)
      { s with devices := s.devices.modify n fun r => { r with magCalCmd := r.magCalCmd.send cmd } }
  | shutdown :
    AppStep s .shutdown
      { s with devices := s.devices.forgetAll, draining := s.draining ++ s.devices.index.entries.map (·.2) }
  | stopDrained {n : Nat} (hn : n ∈ s.draining) :
    AppStep s (.stopDrained n)
      { s with devices := s.devices.modify n fun r => { r with stop := r.stop.send true } }
  | dropDrained {n : Nat} (hn : n ∈ s.draining) :
    AppStep s (.dropDrained n)
      { s with devices := s.devices.modify n Registration.dropHandle, draining := s.draining.erase n }

theorem appStep_inv {s s' : AppState F} {a : AppAction} (h : appStep calibrate s a = some s') :
    AppStep calibrate s a s' := by
  cases a with
  | registerDevice metadata =>
    obtain rfl := Option.some.inj h
    exact .register metadata
  | spawn n config now =>
    obtain ⟨r, hr, h⟩ := Option.bind_eq_some_iff.1 h
    dsimp only at h
    split at h
    · obtain rfl := Option.some.inj h
      exact .spawn config now _ hr ‹_›
    · cases h
  | insert n =>
    obtain ⟨r, hr, h⟩ := Option.bind_eq_some_iff.1 h
    split at h
    · cases h
    · cases h
    · rename_i hi ht
      obtain rfl := Option.some.inj h
      exact .insert hr ht hi
  | turn n branch =>
    obtain ⟨r, hr, h⟩ := Option.bind_eq_some_iff.1 h
    obtain ⟨⟨r', store⟩, hturn, h⟩ := Option.bind_eq_some_iff.1 h
    obtain rfl := Option.some.inj h
    exact .turn hr hturn
  | reap n =>
    obtain ⟨r, hr, h⟩ := Option.bind_eq_some_iff.1 h
    dsimp only at h
    split at h
    · rename_i last result ht
      obtain rfl := Option.some.inj h
      by_cases hres : result = .error .deviceDisconnected
      · subst hres
        exact .reapDisconnected hr ht
      · split
        · exact absurd rfl hres
        · exact .reapOther hr ht hres
    · cases h
  | cancel n =>
    obtain ⟨r, hr, h⟩ := Option.bind_eq_some_iff.1 h
    split at h
    · obtain rfl := Option.some.inj h
      exact .cancel hr ‹_›
    · obtain rfl := Option.some.inj h
      exact .cancel hr ‹_›
    · cases h
  | emit n evt =>
    obtain ⟨r, hr, h⟩ := Option.bind_eq_some_iff.1 h
    split at h
    · cases h
    · obtain rfl := Option.some.inj h
      exact .emit evt hr (by simp_all)
  | closeEvents n =>
    obtain rfl := Option.some.inj h
    exact .closeEvents n
  | magCal n cmd =>
    obtain ⟨r, hr, h⟩ := Option.bind_eq_some_iff.1 h
    split at h
    · obtain rfl := Option.some.inj h
      exact .magCal cmd
    · cases h
  | shutdown =>
    obtain rfl := Option.some.inj h
    exact .shutdown
  | stopDrained n =>
    simp only [appStep] at h
    split at h
    · obtain rfl := Option.some.inj h
      exact .stopDrained ‹_›
    · cases h
  | dropDrained n =>
    simp only [appStep] at h
    split at h
    · obtain rfl := Option.some.inj h
      exact .dropDrained ‹_›
    · cases h

/-- A turn keeps everything but the channels and the task. -/
theorem Registration.turn_core {r r' : Registration F} {store store' : BiasStore} {branch : Branch}
    (h : r.turn calibrate store branch = some (r', store')) :
    r'.metadata = r.metadata ∧ r'.inserted = r.inserted ∧ r'.aborted = r.aborted := by
  obtain ⟨p, t, -, -, -, rfl⟩ := turn_spec h
  obtain ⟨hmeta, -, hins, hab⟩ := consume_channelsOnly branch r
  exact ⟨hmeta, hins, hab⟩

end Step

/-! ### No ghosts -/

/-- Every entry belongs to the registration of its id, which has inserted it, was not aborted and is live; only an
inserted registration is ever aborted. -/
structure RegistryInvariant (d : Devices F) : Prop where
  entry : SlotTable.Current
    (fun id _ r => r.metadata.id = id ∧ r.inserted = true ∧ r.aborted = false ∧ r.task.live = true) d
  fresh : SlotTable.All (fun _ r => r.inserted = false → r.aborted = false) d

namespace RegistryInvariant

variable {d : Devices F} {n : Nat} {id : DeviceId}

theorem empty : RegistryInvariant (SlotTable.empty : Devices F) := ⟨.empty, .empty⟩

/-- A change of one registration that keeps it live unless no entry is its own. -/
theorem modify (h : RegistryInvariant d) {f : Registration F → Registration F}
    (hf : ∀ r, d.slot n = some r →
      (f r).metadata = r.metadata ∧ (f r).inserted = r.inserted ∧ (f r).aborted = r.aborted ∧
        (d.current r.metadata.id = some n → r.task.live = true → (f r).task.live = true)) :
    RegistryInvariant (d.modify n f) := by
  refine ⟨h.entry.modify fun id r hcur hr hP => ?_, h.fresh.modify fun r hr hP => ?_⟩
  · obtain ⟨hmeta, hins, hab, hlive⟩ := hf r hr
    obtain ⟨rfl, hP⟩ := hP
    rw [hmeta, hins, hab]
    exact ⟨rfl, hP.1, hP.2.1, hlive hcur hP.2.2⟩
  · obtain ⟨-, hins, hab, -⟩ := hf r hr
    rw [hins, hab]
    exact hP

theorem channels (h : RegistryInvariant d) {f : Registration F → Registration F} (hf : ChannelsOnly f) :
    RegistryInvariant (d.modify n f) := by
  refine h.modify fun r _ => ?_
  obtain ⟨hmeta, htask, hins, hab⟩ := hf r
  exact ⟨hmeta, hins, hab, fun _ hlive => htask ▸ hlive⟩

/-- Forgetting an id leaves no entry to the slot that was current for it. -/
theorem forget_modify (h : RegistryInvariant d) {f : Registration F → Registration F} (hcur : d.current id = some n)
    (hf : ∀ r, (f r).inserted = r.inserted) : RegistryInvariant ((d.forget id).modify n f) := by
  obtain ⟨r₀, hr₀, -, hins₀, -⟩ := h.entry id n hcur
  refine ⟨h.entry.forget_modify (fun _ _ _ hP => hP.1) hcur, ?_⟩
  refine SlotTable.All.modify (t := d.forget id) h.fresh fun r hr _ hins => ?_
  obtain rfl := SlotTable.slot_inj hr₀ hr
  rw [hf, hins₀] at hins
  cases hins

theorem purge (h : RegistryInvariant d) : RegistryInvariant (d.purge id) :=
  Devices.purge_induction id h fun _ _ _ hd hcur => hd.forget_modify hcur fun _ => rfl

theorem push (h : RegistryInvariant d) (metadata : DeviceMetadata) :
    RegistryInvariant (SlotTable.push d (.new metadata)) :=
  ⟨h.entry.push, h.fresh.push fun _ => rfl⟩

theorem remove (h : RegistryInvariant d) : RegistryInvariant (d.remove id) := by
  rcases Devices.remove_eq d id with ⟨-, heq⟩ | ⟨n, hcur, heq⟩
  · rw [heq]
    exact h
  · rw [heq]
    exact h.forget_modify hcur fun _ => rfl

/-- The insertion of a live registration that has not inserted its handle before. -/
theorem insert (h : RegistryInvariant d) {r : Registration F} (hr : d.slot n = some r) (hi : r.inserted = false)
    (ht : r.task.live = true) : RegistryInvariant (d.insert r.metadata.id n) := by
  have hinv : RegistryInvariant (d.remove r.metadata.id) := h.remove
  obtain ⟨r₁, hr₁, hmeta, htask, hab, -⟩ := Devices.slot_remove r.metadata.id hr
  refine ⟨SlotTable.Current.point (v := r₁.setInserted) ?_ (by simp [hr₁]) ?_, ?_⟩
  · exact hinv.entry.modify fun _ _ _ _ hP => ⟨hP.1, rfl, hP.2.2⟩
  · refine ⟨congrArg _ hmeta, rfl, hab.trans (h.fresh n r hr hi), ?_⟩
    exact (congrArg _ htask).trans ht
  · exact SlotTable.All.modify (t := d.remove r.metadata.id) hinv.fresh fun _ _ _ hins => by cases hins

end RegistryInvariant

section Runs

variable [OrientationFilter F] {calibrate : List Mag → Option MagCalibration}

variable (calibrate) in
/-- A handle is inserted only while its task is live, and a run that ends with anything but `DeviceDisconnected` has
no entry then. -/
def NoGhostStep (s : AppState F) : AppAction → Prop
  | .insert n => ∀ r ∈ s.devices.slot n, r.task.live = true
  | .turn n branch => ∀ r ∈ s.devices.slot n, ∀ o ∈ r.turn calibrate s.biasStore branch,
      o.1.task.live = true ∨ s.devices.current r.metadata.id ≠ some n
  | _ => True

instance (s : AppState F) : (a : AppAction) → Decidable (NoGhostStep calibrate s a)
  | .insert _ => inferInstanceAs (Decidable (∀ _ ∈ _, _))
  | .turn _ _ => inferInstanceAs (Decidable (∀ _ ∈ _, ∀ _ ∈ _, _))
  | .registerDevice _ | .spawn _ _ _ | .reap _ | .cancel _ | .emit _ _ | .closeEvents _ | .magCal _ _ | .shutdown
  | .stopDrained _ | .dropDrained _ => inferInstanceAs (Decidable True)

omit [OrientationFilter F] in
private theorem eq_of_live_returned {last : Pipeline F} {result : Except AppError Unit}
    (h : (Task.returned last result).live = true) : result = .error .deviceDisconnected := by
  unfold Task.live at h
  split at h
  · simp_all
  · simp_all
  · cases h

theorem appStep_registryInvariant {s s' : AppState F} {a : AppAction} (h : RegistryInvariant s.devices)
    (hok : NoGhostStep calibrate s a) (hs : appStep calibrate s a = some s') : RegistryInvariant s'.devices := by
  cases appStep_inv hs with
  | register metadata => exact h.purge.push metadata
  | spawn config now p hr ht => exact h.modify fun _ _ => ⟨rfl, rfl, rfl, fun _ _ => rfl⟩
  | insert hr ht hi => exact h.insert hr hi (hok _ hr)
  | @turn n r r' branch store hr hturn =>
    refine h.modify fun r₁ hr₁ => ?_
    obtain rfl := SlotTable.slot_inj hr hr₁
    obtain ⟨hmeta, hins, hab⟩ := Registration.turn_core hturn
    refine ⟨hmeta, hins, hab, fun hcur _ => ?_⟩
    rcases hok r hr _ hturn with hlive | hnone
    · exact hlive
    · exact absurd hcur hnone
  | @reapDisconnected n r last hr ht =>
    refine h.remove.modify fun r₁ _ => ⟨rfl, rfl, rfl, fun hcur _ => ?_⟩
    -- an entry that is left to the registration would be under its own id, which the reap has removed
    obtain ⟨hne, hcur⟩ := Devices.current_of_remove hcur
    obtain ⟨r₂, hr₂, hid, -⟩ := h.entry _ _ hcur
    obtain rfl := SlotTable.slot_inj hr hr₂
    exact absurd hid.symm hne
  | @reapOther n r last result hr ht hres =>
    refine h.modify fun r₁ hr₁ => ⟨rfl, rfl, rfl, fun _ hlive => ?_⟩
    obtain rfl := SlotTable.slot_inj hr hr₁
    rw [ht] at hlive
    exact absurd (eq_of_live_returned hlive) hres
  | @cancel n r hr ha =>
    refine h.modify fun r₁ hr₁ => ⟨rfl, rfl, rfl, fun hcur _ => ?_⟩
    obtain rfl := SlotTable.slot_inj hr hr₁
    obtain ⟨r₂, hr₂, -, -, hab, -⟩ := h.entry _ _ hcur
    obtain rfl := SlotTable.slot_inj hr hr₂
    rw [ha] at hab
    cases hab
  | emit evt hr hopen => exact h.channels fun _ => ⟨rfl, rfl, rfl, rfl⟩
  | closeEvents n => exact h.channels fun _ => ⟨rfl, rfl, rfl, rfl⟩
  | magCal cmd => exact h.channels fun _ => ⟨rfl, rfl, rfl, rfl⟩
  | shutdown => exact ⟨.forgetAll, h.fresh⟩
  | stopDrained hn => exact h.channels fun _ => ⟨rfl, rfl, rfl, rfl⟩
  | dropDrained hn => exact h.channels channelsOnly_dropHandle

theorem registryInvariant_of_reaches {store : BiasStore} {s : AppState F}
    (h : Reaches (appStep calibrate) (NoGhostStep calibrate) (.start store) s) : RegistryInvariant s.devices :=
  h.invariant (I := fun s => RegistryInvariant s.devices) .empty fun _ _ _ hi hok hs =>
    appStep_registryInvariant hi hok hs

/-- Once the tasks whose run has returned are through, every entry belongs to a running pipeline. -/
def NoGhosts (s : AppState F) : Prop :=
  (∀ n r last result, s.devices.slot n = some r → r.task ≠ .returned last result) →
    ∀ id n, s.devices.current id = some n → ∃ r p, s.devices.slot n = some r ∧ r.metadata.id = id ∧ r.task = .running p

theorem registry_no_ghosts {store : BiasStore} {s : AppState F}
    (h : Reaches (appStep calibrate) (NoGhostStep calibrate) (.start store) s) : NoGhosts s := by
  intro hdone id n hcur
  obtain ⟨r, hr, hid, -, -, hlive⟩ := (registryInvariant_of_reaches h).entry id n hcur
  cases ht : r.task with
  | running p => exact ⟨r, p, hr, hid, ht⟩
  | returned last result => exact absurd ht (hdone n r last result hr)
  | notSpawned => simp [ht, Task.live] at hlive
  | finished result => simp [ht, Task.live] at hlive
  | cancelled => simp [ht, Task.live] at hlive

end Runs

/-- A phone registers. -/
def registerPhone (n : Nat) : List AppAction := [.registerDevice phoneMetadata, .spawn n .default 0, .insert n]

/-- The device sends an event, and the pipeline handles it with this outcome of its sends. -/
def handleOne (n : Nat) (evt : ChannelInfo) (send : Except String Unit) : List AppAction :=
  [.emit n evt, .turn n (.event { serverEnv (.ok ()) false with send })]

def noFit : List Mag → Option MagCalibration := fun _ => none

def emptyRegistry : AppState StillFilter := .start ∅

/-- A phone that has registered, reported its battery and disconnected leaves no entry, one that has registered again
has one. -/
theorem reregistered_no_ghosts :
    ∃ s, Reaches (appStep noFit) (NoGhostStep noFit) emptyRegistry s ∧ s.devices.current phoneMetadata.id = some 1 ∧
      NoGhosts s := by
  let run := exec (guardStep (appStep noFit) (NoGhostStep noFit)) emptyRegistry
    (registerPhone 0 ++ handleOne 0 (.battery ⟨1.0, false⟩) (.ok ()) ++ handleOne 0 .disconnected (.ok ()) ++
      [.reap 0] ++ registerPhone 1)
  have hcur : run.map (·.devices.current phoneMetadata.id) = some (some 1) := by decide +kernel
  obtain ⟨s, hs, hcur⟩ := Option.map_eq_some_iff.1 hcur
  exact ⟨s, Reaches.of_exec _ hs, hcur, registry_no_ghosts (Reaches.of_exec _ hs)⟩

/-- A run that leaves an entry to the only task, which has ended. -/
private theorem ghost_of_run {run : List AppAction}
    (h : (exec (appStep noFit) emptyRegistry run).map (fun s =>
      (s.devices.current phoneMetadata.id, s.devices.slots.map (·.task.over))) = some (some 0, [true])) :
    ∃ s, exec (appStep noFit) emptyRegistry run = some s ∧ ¬ NoGhosts s := by
  obtain ⟨s, hs, hghost⟩ := Option.map_eq_some_iff.1 h
  simp only [Prod.mk.injEq] at hghost
  obtain ⟨r, hr, hover⟩ := List.map_eq_singleton_iff.1 hghost.2
  have hslot : ∀ n r', s.devices.slot n = some r' → r'.task.over = true := by
    intro n r' hr'
    unfold SlotTable.slot at hr'
    rw [hr] at hr'
    obtain rfl := List.mem_singleton.1 (List.mem_of_getElem? hr')
    exact hover
  refine ⟨s, hs, fun hno => ?_⟩
  have hdone : ∀ n r' last result, s.devices.slot n = some r' → r'.task ≠ .returned last result := by
    intro n r' last result hr' ht
    simpa [ht, Task.over] using hslot n r' hr'
  obtain ⟨r', p, hr', -, ht⟩ := hno hdone _ 0 hghost.1
  simpa [ht, Task.over] using hslot 0 r' hr'

/-- The entry of a phone outlives its pipeline when a send fails, and when the phone disconnects before its handle is
inserted. -/
theorem ghost_entries :
    (∃ s, exec (appStep noFit) emptyRegistry
        (registerPhone 0 ++ handleOne 0 (.battery ⟨1.0, false⟩) (.error "network is down") ++ [.reap 0]) = some s ∧
      ¬ NoGhosts s) ∧
      ∃ s, exec (appStep noFit) emptyRegistry
        ([.registerDevice phoneMetadata, .spawn 0 .default 0] ++ handleOne 0 .disconnected (.ok ()) ++
          [.reap 0, .insert 0]) = some s ∧ ¬ NoGhosts s := by
  constructor
  · exact ghost_of_run (by decide +kernel)
  · exact ghost_of_run (by decide +kernel)

/-! ### The reap of an older registration -/

/-- Registration `n`, which holds the entry, is newer than registration `m`: it was made later, or it has replaced the
handle that `m` had inserted. -/
def newer (r : Registration F) (m n : Nat) : Bool := decide (m < n) || (n != m && r.inserted)

theorem newer_self (r : Registration F) (m : Nat) : newer r m m = false := by simp [newer]

/-- A reap that is still to come finds no newer registration in its entry. -/
def ReapSafe (d : Devices F) : Prop :=
  SlotTable.All
    (fun m r => r.task.reaping = true → ∀ n, d.current r.metadata.id = some n → newer r m n = false) d

namespace ReapSafe

variable {d : Devices F} {n : Nat} {id : DeviceId}

theorem modify (h : ReapSafe d) {f : Registration F → Registration F}
    (hf : ∀ r, d.slot n = some r → (f r).task.reaping = true →
      (f r).metadata = r.metadata ∧ (f r).inserted = r.inserted ∧ (r.task.reaping = true ∨
        ∀ k, d.current r.metadata.id = some k → newer r n k = false)) : ReapSafe (d.modify n f) := by
  refine SlotTable.All.modify h fun r hr hP hreap k hcur => ?_
  obtain ⟨hmeta, hins, hsafe⟩ := hf r hr hreap
  have hsame : newer (f r) n k = newer r n k := by rw [newer, newer, hins]
  rw [hmeta] at hcur
  rw [hsame]
  rcases hsafe with hreap | hsafe
  · exact hP hreap k hcur
  · exact hsafe k hcur

theorem channels (h : ReapSafe d) {f : Registration F → Registration F} (hf : ChannelsOnly f) :
    ReapSafe (d.modify n f) := by
  refine h.modify fun r _ hreap => ?_
  obtain ⟨hmeta, htask, hins, -⟩ := hf r
  exact ⟨hmeta, hins, Or.inl (htask ▸ hreap)⟩

theorem forget (h : ReapSafe d) : ReapSafe (d.forget id) :=
  SlotTable.All.imp (t := d) h fun _ _ _ hP hreap n hcur => hP hreap n (SlotTable.current_of_forget hcur).2

theorem purge (h : ReapSafe d) : ReapSafe (d.purge id) :=
  Devices.purge_induction id h fun _ _ _ hd _ => hd.forget.modify fun _ _ hreap => ⟨rfl, rfl, Or.inl hreap⟩

theorem push (h : ReapSafe d) (metadata : DeviceMetadata) : ReapSafe (SlotTable.push d (.new metadata)) :=
  SlotTable.All.push h nofun

theorem remove (h : ReapSafe d) : ReapSafe (d.remove id) := by
  rcases Devices.remove_eq d id with ⟨-, heq⟩ | ⟨n, -, heq⟩
  · rw [heq]
    exact h
  · rw [heq]
    exact h.forget.channels channelsOnly_dropHandle

/-- An insertion, when it is not newer than a registration of the id whose reap is still to come. -/
theorem insert (h : ReapSafe d) {r₀ : Registration F} (hr₀ : d.slot n = some r₀)
    (hok : ∀ m r, d.slot m = some r → r.metadata.id = r₀.metadata.id → r.task.reaping = true →
      newer r m n = false) : ReapSafe (d.insert r₀.metadata.id n) := by
  have hsafe : ReapSafe (d.remove r₀.metadata.id) := h.remove
  intro m r hr hreap k hcur
  rcases SlotTable.current_of_point hcur with ⟨hid, rfl⟩ | ⟨hne, hcur⟩
  · rcases SlotTable.slot_of_modify hr with ⟨-, hr⟩ | ⟨rfl, -⟩
    · obtain ⟨r', hr', hmeta, htask, hins⟩ := Devices.slot_of_remove hr
      rw [newer, hins]
      exact hok m r' hr' (hmeta ▸ hid) (htask ▸ hreap)
    · exact newer_self r m
  · rw [SlotTable.current_modify] at hcur
    rcases SlotTable.slot_of_modify hr with ⟨-, hr⟩ | ⟨rfl, r₁, hr₁, rfl⟩
    · exact hsafe m r hr hreap k hcur
    · -- the inserted registration's own id now points at itself
      obtain ⟨r', hr', hmeta, -⟩ := Devices.slot_of_remove hr₁
      obtain rfl := SlotTable.slot_inj hr₀ hr'
      exact absurd (congrArg _ hmeta) hne

end ReapSafe

section Runs

variable [OrientationFilter F] {calibrate : List Mag → Option MagCalibration}

variable (calibrate) in
/-- No handle is inserted that is newer than a registration of the same id whose reap is still to come, and no run
ends with `DeviceDisconnected` while a newer registration holds the entry. -/
def ReapInTime (s : AppState F) : AppAction → Prop
  | .insert n => ∀ r ∈ s.devices.slot n, ∀ m < s.devices.slots.length, ∀ r' ∈ s.devices.slot m,
      r'.metadata.id = r.metadata.id → r'.task.reaping = true → newer r' m n = false
  | .turn n branch => ∀ r ∈ s.devices.slot n, ∀ o ∈ r.turn calibrate s.biasStore branch,
      o.1.task.reaping = true → ∀ k ∈ s.devices.current r.metadata.id, newer r n k = false
  | _ => True

instance (s : AppState F) : (a : AppAction) → Decidable (ReapInTime calibrate s a)
  | .insert _ => inferInstanceAs (Decidable (∀ _ ∈ _, ∀ _ < _, ∀ _ ∈ _, _))
  | .turn _ _ => inferInstanceAs (Decidable (∀ _ ∈ _, ∀ _ ∈ _, _ → ∀ _ ∈ _, _))
  | .registerDevice _ | .spawn _ _ _ | .reap _ | .cancel _ | .emit _ _ | .closeEvents _ | .magCal _ _ | .shutdown
  | .stopDrained _ | .dropDrained _ => inferInstanceAs (Decidable True)

theorem appStep_reapSafe {s s' : AppState F} {a : AppAction} (h : ReapSafe s.devices)
    (hok : ReapInTime calibrate s a) (hs : appStep calibrate s a = some s') : ReapSafe s'.devices := by
  cases appStep_inv hs with
  | register metadata => exact h.purge.push metadata
  | spawn config now p hr ht => exact h.modify fun _ _ => nofun
  | insert hr ht hi => exact h.insert hr fun m r' hr' => hok _ hr m (SlotTable.lt_of_slot hr') r' hr'
  | @turn n r r' branch store hr hturn =>
    refine h.modify fun r₁ hr₁ hreap => ?_
    obtain rfl := SlotTable.slot_inj hr hr₁
    obtain ⟨hmeta, hins, -⟩ := Registration.turn_core hturn
    exact ⟨hmeta, hins, Or.inr (hok r hr _ hturn hreap)⟩
  | reapDisconnected hr ht => exact h.remove.modify fun _ _ => nofun
  | reapOther hr ht hres => exact h.modify fun _ _ => nofun
  | cancel hr ha => exact h.modify fun _ _ => nofun
  | emit evt hr hopen => exact h.channels fun _ => ⟨rfl, rfl, rfl, rfl⟩
  | closeEvents n => exact h.channels fun _ => ⟨rfl, rfl, rfl, rfl⟩
  | magCal cmd => exact h.channels fun _ => ⟨rfl, rfl, rfl, rfl⟩
  | shutdown => exact SlotTable.All.imp (t := s.devices) h fun _ _ _ _ _ => nofun
  | stopDrained hn => exact h.channels fun _ => ⟨rfl, rfl, rfl, rfl⟩
  | dropDrained hn => exact h.channels channelsOnly_dropHandle

/-- The reap of a registration leaves the entries of newer registrations and their senders alone. -/
theorem reap_keeps_newer {store : BiasStore} {s s' : AppState F} {m n : Nat} {r : Registration F} {id : DeviceId}
    (h : Reaches (appStep calibrate) (ReapInTime calibrate) (.start store) s) (hr : s.devices.slot m = some r)
    (hs : appStep calibrate s (.reap m) = some s') (hcur : s.devices.current id = some n)
    (hnew : newer r m n = true) :
    s'.devices.current id = some n ∧ s'.devices.slot n = s.devices.slot n := by
  have hsafe : ReapSafe s.devices :=
    h.invariant (I := fun s => ReapSafe s.devices) .empty fun _ _ _ hi hok hs => appStep_reapSafe hi hok hs
  have hne : n ≠ m := by
    rintro rfl
    rw [newer_self] at hnew
    cases hnew
  cases appStep_inv hs with
  | reapOther hr' ht hres => exact ⟨hcur, SlotTable.slot_modify_of_ne hne⟩
  | reapDisconnected hr' ht =>
    obtain rfl := SlotTable.slot_inj hr hr'
    rw [SlotTable.current_modify, SlotTable.slot_modify_of_ne hne]
    rcases Devices.remove_eq s.devices r.metadata.id with ⟨-, heq⟩ | ⟨k, hk, heq⟩
    · rw [heq]
      exact ⟨hcur, rfl⟩
    · have hold : newer r m k = false := hsafe m r hr (by rw [ht]; rfl) k hk
      have hnk : n ≠ k := by
        rintro rfl
        rw [hnew] at hold
        cases hold
      have hid : id ≠ r.metadata.id := by
        rintro rfl
        exact hnk (Option.some.inj (hcur.symm.trans hk))
      rw [heq, SlotTable.current_modify, SlotTable.current_forget_of_ne hid, SlotTable.slot_modify_of_ne hnk]
      exact ⟨hcur, rfl⟩

end Runs

/-- A phone registers again; the dropped handle ends its old pipeline, whose task leaves the new entry alone. -/
theorem stopped_phone_keeps_newer :
    ∃ s s' : AppState StillFilter, appStep noFit s (.reap 0) = some s' ∧
      s'.devices.current phoneMetadata.id = some 1 ∧ s'.devices.slot 1 = s.devices.slot 1 := by
  let run := exec (guardStep (appStep noFit) (ReapInTime noFit)) emptyRegistry
    (registerPhone 0 ++ registerPhone 1 ++ [.turn 0 .stop])
  have hfacts : run.map (fun s => (s.devices.current phoneMetadata.id, (s.devices.slot 0).isSome,
      (appStep noFit s (.reap 0)).isSome)) = some (some 1, true, true) := by decide +kernel
  obtain ⟨s, hs, hfacts⟩ := Option.map_eq_some_iff.1 hfacts
  simp only [Prod.mk.injEq] at hfacts
  obtain ⟨r, hr⟩ := Option.isSome_iff_exists.1 hfacts.2.1
  obtain ⟨s', hs'⟩ := Option.isSome_iff_exists.1 hfacts.2.2
  exact ⟨s, s', hs', reap_keeps_newer (Reaches.of_exec _ hs) hr hs' hfacts.1 rfl⟩

/-- A phone registers again between the end of its old run and the reap: the reap removes the new entry and drops the
stop sender of the running pipeline. -/
theorem reap_removes_newer :
    ∃ (s s' : AppState StillFilter) (r : Registration StillFilter),
      Reaches (appStep noFit) Always emptyRegistry s ∧ s.devices.slot 0 = some r ∧ newer r 0 1 = true ∧
        s.devices.current phoneMetadata.id = some 1 ∧ appStep noFit s (.reap 0) = some s' ∧
        s'.devices.current phoneMetadata.id = none ∧
        (s'.devices.slot 1).map (fun r => (r.task.live, r.stop.closed)) = some (true, true) := by
  let run := exec (appStep noFit) emptyRegistry
    (registerPhone 0 ++ handleOne 0 .disconnected (.ok ()) ++ registerPhone 1)
  have hbefore : run.map (fun s => (s.devices.current phoneMetadata.id, (s.devices.slot 0).isSome)) =
      some (some 1, true) := by decide +kernel
  have hafter : (run.bind fun s => appStep noFit s (.reap 0)).map (fun s' => (s'.devices.current phoneMetadata.id,
      (s'.devices.slot 1).map fun r => (r.task.live, r.stop.closed))) = some (none, some (true, true)) := by
    decide +kernel
  obtain ⟨s, hs, hbefore⟩ := Option.map_eq_some_iff.1 hbefore
  obtain ⟨s', hs', hafter⟩ := Option.map_eq_some_iff.1 hafter
  rw [show run = some s from hs, Option.bind_some] at hs'
  simp only [Prod.mk.injEq] at hbefore hafter
  obtain ⟨r, hr⟩ := Option.isSome_iff_exists.1 hbefore.2
  exact ⟨s, s', r, Reaches.of_run _ hs, hr, rfl, hbefore.1, hs', hafter.1, hafter.2⟩

end EverythingImu.Core
