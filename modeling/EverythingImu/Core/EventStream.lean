import EverythingImu.Core.Registry

/-!
# The end of an event stream

What becomes of a pipeline when the last sender of its event channel is gone and the channel is drained.

The select waits on the stop and command channels too, and their branches match any outcome, so the `else` branch is
never taken: a registered pipeline whose stream is over waits for a stop or a calibration command
(`registered_stream_over_waits`).  It ends all the same if the senders are dropped only after a `Disconnected`, and
that is handled on an open connection (`stream_over_ends`).
-/

namespace EverythingImu.Core

open Channel StepRun

variable {F : Type}

/-- The run is over. -/
def Task.ended : Task F → Bool
  | .notSpawned => false
  | .running _ => false
  | _ => true

/-! ### Waiting -/

theorem Registration.select_allDisabled (r : Registration F) : r.select .allDisabled = none := by
  simp [select, disabled_wildcard]

/-- Once the stream is over, only a stop or a command is a turn. -/
theorem Registration.select_of_over {r : Registration F} {branch : Branch} {t : RunTurn} (hover : r.events.Over)
    (h : r.select branch = some t) :
    t = .stop ∧ r.stop.changed 0 ≠ .pending ∨
      t = .magCalCmd r.magCalCmd.value ∧ r.magCalCmd.changed r.magCalCmdSeen ≠ .pending := by
  cases branch with
  | stop =>
    unfold select at h
    dsimp only at h
    split at h
    · rename_i b hb
      exact Or.inl ⟨(Option.some.inj h).symm, by rw [hb]; nofun⟩
    · cases h
  | magCalCmd =>
    unfold select at h
    dsimp only at h
    split at h
    · rename_i b hb
      exact Or.inr ⟨(Option.some.inj h).symm, by rw [hb]; nofun⟩
    · cases h
  | event env => simp [select, Mpsc.recv_of_over hover] at h
  | allDisabled => simp [select_allDisabled] at h

/-- The senders in a stored handle are open, and the handles that `shutdown` has taken belong to no entry. -/
structure SendersOpen (d : Devices F) (draining : List Nat) : Prop where
  entry : SlotTable.Current
    (fun id _ r => r.metadata.id = id ∧ r.inserted = true ∧ r.stop.closed = false ∧ r.magCalCmd.closed = false) d
  fresh : SlotTable.All (fun _ r => r.inserted = false → r.stop.closed = false ∧ r.magCalCmd.closed = false) d
  drained : ∀ n ∈ draining, (∃ r, d.slot n = some r ∧ r.inserted = true) ∧ ∀ id, d.current id ≠ some n

namespace SendersOpen

variable {d : Devices F} {draining : List Nat} {n : Nat} {id : DeviceId}

private theorem slot_inserted {m : Nat} {f : Registration F → Registration F}
    (hf : ∀ r, d.slot n = some r → r.inserted = true → (f r).inserted = true)
    (h : ∃ r, d.slot m = some r ∧ r.inserted = true) : ∃ r, (d.modify n f).slot m = some r ∧ r.inserted = true := by
  obtain ⟨r, hr, hins⟩ := h
  by_cases hm : m = n
  · subst hm
    exact ⟨f r, by simp [hr], hf r hr hins⟩
  · exact ⟨r, by rwa [SlotTable.slot_modify_of_ne hm], hins⟩

theorem modify (h : SendersOpen d draining) {f : Registration F → Registration F}
    (hf : ∀ r, d.slot n = some r → (f r).metadata = r.metadata ∧ (f r).inserted = r.inserted ∧
      (f r).stop.closed = r.stop.closed ∧ (f r).magCalCmd.closed = r.magCalCmd.closed) :
    SendersOpen (d.modify n f) draining := by
  refine ⟨h.entry.modify fun id r _ hr hP => ?_, h.fresh.modify fun r hr hP => ?_, fun m hm => ⟨?_, ?_⟩⟩
  · obtain ⟨hmeta, hins, hstop, hcmd⟩ := hf r hr
    rw [hmeta, hins, hstop, hcmd]
    exact hP
  · obtain ⟨-, hins, hstop, hcmd⟩ := hf r hr
    rw [hins, hstop, hcmd]
    exact hP
  · exact slot_inserted (fun r hr hins => (hf r hr).2.1.trans hins) (h.drained m hm).1
  · exact (h.drained m hm).2

/-- A handle that belongs to no entry any more may be dropped. -/
theorem forget_modify (h : SendersOpen d draining) {f : Registration F → Registration F}
    (hcur : d.current id = some n) (hf : ∀ r, (f r).inserted = r.inserted) :
    SendersOpen ((d.forget id).modify n f) draining := by
  obtain ⟨r₀, hr₀, -, hins₀, -⟩ := h.entry id n hcur
  refine ⟨h.entry.forget_modify (fun _ _ _ hP => hP.1) hcur, ?_, fun m hm => ⟨?_, fun id' hcur' => ?_⟩⟩
  · refine SlotTable.All.modify (t := d.forget id) h.fresh fun r hr _ hins => ?_
    obtain rfl := SlotTable.slot_inj hr₀ hr
    rw [hf, hins₀] at hins
    cases hins
  · exact slot_inserted (d := d.forget id) (fun r _ hins => (hf r).trans hins) (h.drained m hm).1
  · exact (h.drained m hm).2 id' (SlotTable.current_of_forget hcur').2

theorem purge (h : SendersOpen d draining) : SendersOpen (d.purge id) draining :=
  Devices.purge_induction (P := (SendersOpen · draining)) id h fun _ _ _ hd hcur =>
    hd.forget_modify hcur fun _ => rfl

theorem push (h : SendersOpen d draining) (metadata : DeviceMetadata) :
    SendersOpen (SlotTable.push d (.new metadata)) draining := by
  refine ⟨h.entry.push, h.fresh.push fun _ => ⟨rfl, rfl⟩, fun m hm => ⟨?_, (h.drained m hm).2⟩⟩
  obtain ⟨r, hr, hins⟩ := (h.drained m hm).1
  exact ⟨r, SlotTable.slot_push_of_some hr, hins⟩

theorem remove (h : SendersOpen d draining) : SendersOpen (d.remove id) draining := by
  rcases Devices.remove_eq d id with ⟨-, heq⟩ | ⟨n, hcur, heq⟩
  · rw [heq]
    exact h
  · rw [heq]
    exact h.forget_modify hcur fun _ => rfl

/-- The handle of a registration that has not inserted one before has open senders and was never taken. -/
theorem pointInserted (h : SendersOpen d draining) {r : Registration F} (hr : d.slot n = some r)
    (hi : r.inserted = false) :
    SendersOpen ((d.modify n Registration.setInserted).point r.metadata.id n) draining := by
  refine ⟨SlotTable.Current.point (v := r.setInserted) ?_ (by simp [hr]) ⟨rfl, rfl, h.fresh n r hr hi⟩, ?_,
    fun m hm => ⟨?_, fun id hcur => ?_⟩⟩
  · exact h.entry.modify fun _ _ _ _ hP => ⟨hP.1, rfl, hP.2.2⟩
  · exact SlotTable.All.modify h.fresh fun _ _ _ hins => by cases hins
  · exact slot_inserted (fun _ _ _ => rfl) (h.drained m hm).1
  · rcases SlotTable.current_of_point hcur with ⟨-, rfl⟩ | ⟨-, hcur⟩
    · obtain ⟨r', hr', hins⟩ := (h.drained m hm).1
      obtain rfl := SlotTable.slot_inj hr hr'
      rw [hi] at hins
      cases hins
    · exact (h.drained m hm).2 id hcur

theorem insert (h : SendersOpen d draining) {r : Registration F} (hr : d.slot n = some r) (hi : r.inserted = false) :
    SendersOpen (d.insert r.metadata.id n) draining := by
  have hnot : d.current r.metadata.id ≠ some n := by
    intro hcur
    obtain ⟨r', hr', -, hins, -⟩ := h.entry _ n hcur
    obtain rfl := SlotTable.slot_inj hr hr'
    rw [hi] at hins
    cases hins
  obtain ⟨r', hr', -, -, -, hsame⟩ := Devices.slot_remove r.metadata.id hr
  rw [hsame hnot] at hr'
  exact h.remove.pointInserted hr' hi

theorem shutdown (h : SendersOpen d draining) :
    SendersOpen d.forgetAll (draining ++ d.index.entries.map (·.2)) := by
  refine ⟨.forgetAll, h.fresh, fun m hm => ⟨?_, nofun⟩⟩
  rcases List.mem_append.1 hm with hm | hm
  · exact (h.drained m hm).1
  · obtain ⟨e, he, rfl⟩ := List.mem_map.1 hm
    obtain ⟨r, hr, -, hins, -⟩ := h.entry e.1 e.2 (AList.mem_lookup_iff.2 he)
    exact ⟨r, hr, hins⟩

theorem dropDrained (h : SendersOpen d draining) (hn : n ∈ draining) :
    SendersOpen (d.modify n Registration.dropHandle) (draining.erase n) := by
  obtain ⟨⟨r₀, hr₀, hins₀⟩, hnone⟩ := h.drained n hn
  refine ⟨h.entry.modify fun id r hcur _ _ => absurd hcur (hnone id), h.fresh.modify fun r hr _ hins => ?_,
    fun m hm => ⟨?_, (h.drained m (List.mem_of_mem_erase hm)).2⟩⟩
  · obtain rfl := SlotTable.slot_inj hr₀ hr
    exact absurd (hins₀.symm.trans hins) nofun
  · exact slot_inserted (fun _ _ hins => hins) (h.drained m (List.mem_of_mem_erase hm)).1

end SendersOpen

section Runs

variable [OrientationFilter F] {calibrate : List Mag → Option MagCalibration}

/-- A turn leaves the senders alone. -/
theorem Registration.turn_senders {r r' : Registration F} {store store' : BiasStore} {branch : Branch}
    (h : r.turn calibrate store branch = some (r', store')) :
    r'.stop = r.stop ∧ r'.magCalCmd = r.magCalCmd := by
  obtain ⟨p, t, -, -, -, rfl⟩ := turn_spec h
  cases branch <;> exact ⟨rfl, rfl⟩

theorem appStep_sendersOpen {s s' : AppState F} {a : AppAction} (h : SendersOpen s.devices s.draining)
    (hs : appStep calibrate s a = some s') : SendersOpen s'.devices s'.draining := by
  cases appStep_inv hs with
  | register metadata => exact h.purge.push metadata
  | insert hr ht hi => exact h.insert hr hi
  | @turn n r r' branch store hr hturn =>
    refine h.modify fun r₁ hr₁ => ?_
    obtain rfl := SlotTable.slot_inj hr hr₁
    obtain ⟨hmeta, hins, -⟩ := Registration.turn_core hturn
    obtain ⟨hstop, hcmd⟩ := Registration.turn_senders hturn
    exact ⟨hmeta, hins, congrArg _ hstop, congrArg _ hcmd⟩
  | reapDisconnected hr ht => exact h.remove.modify fun _ _ => ⟨rfl, rfl, rfl, rfl⟩
  | shutdown => exact h.shutdown
  | dropDrained hn => exact h.dropDrained hn
  | spawn config now p hr ht => exact h.modify fun _ _ => ⟨rfl, rfl, rfl, rfl⟩
  | reapOther hr ht hres => exact h.modify fun _ _ => ⟨rfl, rfl, rfl, rfl⟩
  | cancel hr ha => exact h.modify fun _ _ => ⟨rfl, rfl, rfl, rfl⟩
  | emit evt hr hopen => exact h.modify fun _ _ => ⟨rfl, rfl, rfl, rfl⟩
  | closeEvents n => exact h.modify fun _ _ => ⟨rfl, rfl, rfl, rfl⟩
  | magCal cmd => exact h.modify fun _ _ => ⟨rfl, rfl, rfl, rfl⟩
  | stopDrained hn => exact h.modify fun _ _ => ⟨rfl, rfl, rfl, rfl⟩

/-- In every reachable state a registered pipeline whose event stream is over can only be woken by a stop that was
sent or by a calibration command that is pending. -/
theorem registered_stream_over_waits {store : BiasStore} {s : AppState F} {id : DeviceId} {n : Nat}
    {r : Registration F} {branch : Branch} {t : RunTurn}
    (h : Reaches (appStep calibrate) Always (.start store) s) (hcur : s.devices.current id = some n)
    (hr : s.devices.slot n = some r) (hover : r.events.Over) (hsel : r.select branch = some t) :
    t = .stop ∧ r.stop.version ≠ 0 ∨ t = .magCalCmd r.magCalCmd.value ∧ r.magCalCmd.version ≠ r.magCalCmdSeen := by
  have hopen : SendersOpen s.devices s.draining :=
    h.invariant (I := fun s => SendersOpen s.devices s.draining) ⟨.empty, .empty, nofun⟩ fun _ _ _ hi _ hs =>
      appStep_sendersOpen hi hs
  obtain ⟨r', hr', -, -, hstop, hcmd⟩ := hopen.entry id n hcur
  obtain rfl := SlotTable.slot_inj hr hr'
  rcases Registration.select_of_over hover hsel with ⟨rfl, hready⟩ | ⟨rfl, hready⟩
  · exact Or.inl ⟨rfl, fun hver => hready (Watch.changed_pending_iff.2 ⟨hver, hstop⟩)⟩
  · exact Or.inr ⟨rfl, fun hver => hready (Watch.changed_pending_iff.2 ⟨hver, hcmd⟩)⟩

/-! ### Streams that end with a disconnect -/

/-- The branch handles a `Disconnected` while every connect fails. -/
def Registration.dropsDisconnected (r : Registration F) : Branch → Bool
  | .event env =>
    match r.task, r.events.queue with
    | .running p, .disconnected :: _ => !p.connects env
    | _, _ => false
  | _ => false

variable (calibrate) in
/-- The last sender is dropped only after a `Disconnected` or the end of the run, a `Disconnected` is handled on an
open connection, and no step leaves a ghost. -/
def StreamsEndDisconnected (s : AppState F) : AppAction → Prop
  | .closeEvents n => ∀ r ∈ s.devices.slot n, .disconnected ∈ r.events.queue ∨ r.task.ended = true
  | .turn n branch =>
    NoGhostStep calibrate s (.turn n branch) ∧ ∀ r ∈ s.devices.slot n, r.dropsDisconnected branch = false
  | a => NoGhostStep calibrate s a

instance (s : AppState F) : (a : AppAction) → Decidable (StreamsEndDisconnected calibrate s a)
  | .closeEvents _ => inferInstanceAs (Decidable (∀ _ ∈ _, _))
  | .turn n branch => inferInstanceAs (Decidable (NoGhostStep calibrate s (.turn n branch) ∧ ∀ _ ∈ _, _))
  | .insert n => inferInstanceAs (Decidable (NoGhostStep calibrate s (.insert n)))
  | .registerDevice _ | .spawn _ _ _ | .reap _ | .cancel _ | .emit _ _ | .magCal _ _ | .shutdown
  | .stopDrained _ | .dropDrained _ => inferInstanceAs (Decidable True)

theorem noGhostStep_of_streamsEnd {s : AppState F} {a : AppAction} (h : StreamsEndDisconnected calibrate s a) :
    NoGhostStep calibrate s a := by
  cases a with
  | turn n branch => exact h.1
  | closeEvents n => trivial
  | _ => exact h

/-- While the run goes on, a closed stream still holds a `Disconnected`. -/
def ClosedHoldsDisconnected (d : Devices F) : Prop :=
  SlotTable.All
    (fun _ r => r.events.closed = true → r.task.ended = false → .disconnected ∈ r.events.queue) d

namespace ClosedHoldsDisconnected

variable {d : Devices F} {n : Nat} {id : DeviceId}

omit [OrientationFilter F] in
/-- A step that does not touch the events of a registration and does not restart its task. -/
theorem modify (h : ClosedHoldsDisconnected d) {f : Registration F → Registration F}
    (hf : ∀ r, d.slot n = some r → (f r).events = r.events ∧ ((f r).task.ended = false → r.task.ended = false)) :
    ClosedHoldsDisconnected (d.modify n f) := by
  refine SlotTable.All.modify h fun r hr hP hclosed hended => ?_
  obtain ⟨hevents, htask⟩ := hf r hr
  rw [hevents] at hclosed ⊢
  exact hP hclosed (htask hended)

omit [OrientationFilter F] in
theorem purge (h : ClosedHoldsDisconnected d) : ClosedHoldsDisconnected (d.purge id) :=
  Devices.purge_induction (P := ClosedHoldsDisconnected) id h fun _ _ _ hd _ =>
    modify (d := SlotTable.forget _ _) hd fun _ _ => ⟨rfl, fun ht => ht⟩

omit [OrientationFilter F] in
theorem remove (h : ClosedHoldsDisconnected d) : ClosedHoldsDisconnected (d.remove id) := by
  rcases Devices.remove_eq d id with ⟨-, heq⟩ | ⟨n, -, heq⟩
  · rw [heq]
    exact h
  · rw [heq]
    exact modify (d := SlotTable.forget _ _) h fun _ _ => ⟨rfl, fun ht => ht⟩

end ClosedHoldsDisconnected

/-- A turn that goes on with the run has not taken a `Disconnected`, unless it dropped it. -/
theorem Registration.turn_queue {r r' : Registration F} {store store' : BiasStore} {branch : Branch}
    (h : r.turn calibrate store branch = some (r', store')) (hkeep : r.dropsDisconnected branch = false)
    (hended : r'.task.ended = false) :
    r.task.ended = false ∧ r'.events.closed = r.events.closed ∧
      (.disconnected ∈ r.events.queue → .disconnected ∈ r'.events.queue) := by
  obtain ⟨p, t, hp, ht, -, rfl⟩ := turn_spec h
  refine ⟨by rw [hp]; rfl, ?_⟩
  cases branch with
  | stop => exact ⟨rfl, id⟩
  | magCalCmd => exact ⟨rfl, id⟩
  | allDisabled => exact ⟨rfl, id⟩
  | event env =>
    refine ⟨rfl, fun hmem => ?_⟩
    unfold select at ht
    dsimp only at ht
    split at ht
    · rename_i evt hrecv
      obtain rfl := Option.some.inj ht
      have hq := Mpsc.recv_some hrecv
      rw [hq] at hmem
      rcases List.mem_cons.1 hmem with hevt | hmem
      · -- a handled `Disconnected` ends the run
        subst hevt
        have hc : p.connects env = true := by simpa [dropsDisconnected, hp, hq] using hkeep
        have hret := ((runTurn_disconnected_iff calibrate p store env).2 hc).1
        simp [setTask, hret, Task.ended] at hended
      · exact hmem
    · cases ht

theorem appStep_closedHoldsDisconnected {s s' : AppState F} {a : AppAction}
    (h : ClosedHoldsDisconnected s.devices) (hok : StreamsEndDisconnected calibrate s a)
    (hs : appStep calibrate s a = some s') : ClosedHoldsDisconnected s'.devices := by
  cases appStep_inv hs with
  | register metadata => exact h.purge.push nofun
  | @spawn n r config now p hr ht =>
    refine h.modify fun r₁ hr₁ => ⟨rfl, fun _ => ?_⟩
    obtain rfl := SlotTable.slot_inj hr hr₁
    rw [ht]
    rfl
  | insert hr ht hi => exact h.remove.modify fun _ _ => ⟨rfl, id⟩
  | @turn n r r' branch store hr hturn =>
    refine SlotTable.All.modify h fun r₁ hr₁ hP hclosed hended => ?_
    obtain rfl := SlotTable.slot_inj hr hr₁
    obtain ⟨hrun, hsame, hkeep⟩ := Registration.turn_queue hturn (hok.2 r hr) hended
    exact hkeep (hP (hsame.symm.trans hclosed) hrun)
  | reapDisconnected hr ht => exact h.remove.modify fun _ _ => ⟨rfl, nofun⟩
  | reapOther hr ht hres => exact h.modify fun _ _ => ⟨rfl, nofun⟩
  | cancel hr ha => exact h.modify fun _ _ => ⟨rfl, nofun⟩
  | @emit n r evt hr hopen =>
    refine SlotTable.All.modify h fun r₁ hr₁ _ hclosed _ => ?_
    obtain rfl := SlotTable.slot_inj hr hr₁
    exact absurd (hopen.symm.trans hclosed) nofun
  | closeEvents n =>
    refine SlotTable.All.modify h fun r hr _ _ hended => ?_
    rcases hok r hr with hmem | hover
    · exact hmem
    · exact absurd (hended.symm.trans hover) nofun
  | magCal cmd => exact h.modify fun _ _ => ⟨rfl, id⟩
  | shutdown => exact h
  | stopDrained hn => exact h.modify fun _ _ => ⟨rfl, id⟩
  | dropDrained hn => exact h.modify fun _ _ => ⟨rfl, id⟩

/-- A pipeline whose event stream is over has ended, its registration has no entry once its task is through, and
a turn that ends a run persists the bias. -/
def StreamEndEndsRun (calibrate : List Mag → Option MagCalibration) (s : AppState F) : Prop :=
  (∀ n r, s.devices.slot n = some r → r.events.Over →
      r.task.ended = true ∧ (r.task.over = true → ∀ id, s.devices.current id ≠ some n)) ∧
    ∀ n branch s' r last result, appStep calibrate s (.turn n branch) = some s' → s'.devices.slot n = some r →
      r.task = .returned last result → s'.biasStore = last.persistBias s.biasStore

theorem turn_returned_persists {s s' : AppState F} {n : Nat} {branch : Branch} {r : Registration F}
    {last : Pipeline F} {result : Except AppError Unit} (hs : appStep calibrate s (.turn n branch) = some s')
    (hr : s'.devices.slot n = some r) (ht : r.task = .returned last result) :
    s'.biasStore = last.persistBias s.biasStore := by
  cases appStep_inv hs with
  | @turn _ r₀ r' _ store hr₀ hturn =>
    rw [SlotTable.slot_modify_self, hr₀] at hr
    obtain rfl := Option.some.inj hr
    obtain ⟨p, t, -, -, hstore, htask⟩ := Registration.turn_spec hturn
    rw [htask] at ht
    cases hret : (p.runTurn calibrate s.biasStore t).returned with
    | none => simp [Registration.setTask, hret] at ht
    | some result' =>
      simp only [Registration.setTask, hret, Task.returned.injEq] at ht
      rw [hstore, ← ht.1]
      exact Pipeline.runTurn_returned hret

/-- In every run whose streams end with a handled disconnect, a stream that is over has ended its pipeline. -/
theorem stream_over_ends {store : BiasStore} {s : AppState F}
    (h : Reaches (appStep calibrate) (StreamsEndDisconnected calibrate) (.start store) s) :
    StreamEndEndsRun calibrate s := by
  refine ⟨fun n r hr hover => ?_, fun n branch s' r last result hs hr ht => turn_returned_persists hs hr ht⟩
  have hclosed : ClosedHoldsDisconnected s.devices :=
    h.invariant (I := fun s => ClosedHoldsDisconnected s.devices) .empty fun _ _ _ hi hok hs =>
      appStep_closedHoldsDisconnected hi hok hs
  constructor
  · cases hended : r.task.ended with
    | true => rfl
    | false =>
      have hmem := hclosed n r hr hover.1 hended
      rw [hover.2] at hmem
      cases hmem
  · intro hdone id hcur
    obtain ⟨r', hr', -, -, -, hlive⟩ :=
      (registryInvariant_of_reaches (h.mono fun _ _ => noGhostStep_of_streamsEnd)).entry id n hcur
    obtain rfl := SlotTable.slot_inj hr hr'
    cases ht : r.task <;> simp [ht, Task.over, Task.live] at hdone hlive

end Runs

/-- A phone that disconnects before its stream is closed leaves no entry. -/
theorem disconnected_phone_stream_over :
    ∃ s, Reaches (appStep noFit) (StreamsEndDisconnected noFit) emptyRegistry s ∧
      s.devices.slots.map (fun r => (r.events.closed, r.events.queue, r.task.over)) = [(true, [], true)] ∧
      StreamEndEndsRun noFit s := by
  let run := exec (guardStep (appStep noFit) (StreamsEndDisconnected noFit)) emptyRegistry
    (registerPhone 0 ++ handleOne 0 (.connected phoneMetadata.id) (.ok ()) ++
      [.emit 0 .disconnected, .closeEvents 0, .turn 0 (.event (serverEnv (.ok ()) false)), .reap 0])
  have hover : run.map (fun s => s.devices.slots.map fun r => (r.events.closed, r.events.queue, r.task.over)) =
      some [(true, [], true)] := by decide +kernel
  obtain ⟨s, hs, hover⟩ := Option.map_eq_some_iff.1 hover
  exact ⟨s, Reaches.of_exec _ hs, hover, stream_over_ends (Reaches.of_exec _ hs)⟩

/-- The route of a haptics-only phone is removed: it never sent an event, its pipeline stays registered, and no turn
is possible. -/
theorem haptics_only_phone_waits :
    ∃ (s : AppState StillFilter) (r : Registration StillFilter), Reaches (appStep noFit) Always emptyRegistry s ∧
      s.devices.current phoneMetadata.id = some 0 ∧ s.devices.slot 0 = some r ∧ r.events.Over ∧
      (∀ branch, appStep noFit s (.turn 0 branch) = none) ∧ ¬ StreamEndEndsRun noFit s := by
  let run := exec (appStep noFit) emptyRegistry (registerPhone 0 ++ [.closeEvents 0])
  have hfacts : run.bind (fun s => (s.devices.slot 0).map fun r => (s.devices.current phoneMetadata.id, r.events,
      r.task.ended, r.stop.version, r.magCalCmd.version, r.magCalCmdSeen)) =
      some (some 0, ⟨[], true⟩, false, 0, 0, 0) := by decide +kernel
  obtain ⟨s, hs, hfacts⟩ := Option.bind_eq_some_iff.1 hfacts
  obtain ⟨r, hr, hfields⟩ := Option.map_eq_some_iff.1 hfacts
  simp only [Prod.mk.injEq] at hfields
  obtain ⟨hcur, hevents, hended, hstop, hcmd, hseen⟩ := hfields
  have hover : r.events.Over := by rw [hevents]; exact ⟨rfl, rfl⟩
  refine ⟨s, r, Reaches.of_run _ hs, hcur, hr, hover, fun branch => ?_, fun hends => ?_⟩
  · have hsel : r.select branch = none := by
      rw [Option.eq_none_iff_forall_ne_some]
      intro t ht
      rcases registered_stream_over_waits (Reaches.of_run _ hs) hcur hr hover ht with ⟨-, hver⟩ | ⟨-, hver⟩
      · exact hver hstop
      · exact hver (hcmd.trans hseen.symm)
    have hturn : r.turn noFit s.biasStore branch = none := by
      unfold Registration.turn
      split
      · rw [hsel]
        rfl
      · rfl
    simp [appStep, hr, hturn]
  · exact absurd ((hends.1 0 r hr hover).1) (by simp [hended])

end EverythingImu.Core
