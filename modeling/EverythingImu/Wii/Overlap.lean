import EverythingImu.Wii.Bridge

/-!
# Overlapping connections

The tasks of all connections from one address share the rumble entry of the address and the routes of its keys.  A
task looks a key up and registers a device in two steps, and when it ends it removes the routes of the keys that it
registered and the rumble entry, whoever uses them.  So connections that overlap break each other in three ways, and
`overlap_sound_iff_careful` says that there are no others.
-/

namespace EverythingImu.Wii

open StepRun

/-! ### What the connections rely on -/

/-- The rumble entry of a connection that is served is there. -/
def Bridge.EntryKept (b : Bridge) : Prop :=
  ∀ (c : Nat) conn, b.connections[c]? = some conn → conn.pc.isOpen = true →
    (b.rumbleState.lookup conn.baseIp).isSome = true

/-- A task holds a sender of the device. -/
def Bridge.Held (b : Bridge) (n : Nat) : Prop :=
  ∃ (c : Nat) (conn : Connection), b.connections[c]? = some conn ∧ conn.pc.holds = some n

/-- The device can still be sent packets: its receiver is there, and the routing map or a task has a sender. -/
def Bridge.Live (b : Bridge) (n : Nat) (d : WiiDevice) : Prop :=
  b.routing.slot n = some d ∧ d.receiving = true ∧ ((∃ key, b.routing.current key = some n) ∨ b.Held n)

/-- There is at most one live device for each key. -/
def Bridge.OneLive (b : Bridge) : Prop :=
  ∀ n m d e, b.Live n d → b.Live m e → d.streamKey = e.streamKey → n = m

/-- When the step is a step of the teardown of a connection, it removes no route and no rumble entry that a newer
connection made which is served. -/
def Spares (b b' : Bridge) : BridgeAction → Prop
  | .advance c => ∀ conn, b.connections[c]? = some conn → conn.pc = .leaving ∨ conn.pc = .forgetting →
      ∀ (c' : Nat) conn', c < c' → b.connections[c']? = some conn' → conn'.pc.isOpen = true →
        (∀ key n d, b.routing.current key = some n → b.routing.slot n = some d → d.creator = c' →
          b'.routing.current key = some n) ∧
        ∀ ip e, b.rumbleState.lookup ip = some e → e.creator = c' → b'.rumbleState.lookup ip = some e
  | _ => True

/-! ### The condition on a step -/

/-- No task is sending to a device of the key that still receives. -/
def Bridge.Unsent (b : Bridge) (key : StreamKey) : Prop :=
  ∀ other ∈ b.connections, ∀ n ∈ other.pc.holds, ∀ d ∈ b.routing.slot n, d.streamKey = key → d.receiving = false

/-- No key has a route that a connection newer than `c` made which is served. -/
def Bridge.NotRenewed (b : Bridge) (c : Nat) (keys : List StreamKey) : Prop :=
  ∀ key ∈ keys, ∀ n ∈ b.routing.current key, ∀ d ∈ b.routing.slot n, c < d.creator →
    ∀ other ∈ b.connections[d.creator]?, other.pc.isOpen = false

/-- No connection from the address is served. -/
def Bridge.Unused (b : Bridge) (baseIp : String) : Prop :=
  ∀ other ∈ b.connections, other.baseIp = baseIp → other.pc.isOpen = false

instance (b : Bridge) (key : StreamKey) : Decidable (b.Unsent key) :=
  inferInstanceAs (Decidable (∀ other ∈ b.connections, ∀ n ∈ other.pc.holds, ∀ d ∈ b.routing.slot n,
    d.streamKey = key → d.receiving = false))

instance (b : Bridge) (c : Nat) (keys : List StreamKey) : Decidable (b.NotRenewed c keys) :=
  inferInstanceAs (Decidable (∀ key ∈ keys, ∀ n ∈ b.routing.current key, ∀ d ∈ b.routing.slot n, c < d.creator →
    ∀ other ∈ b.connections[d.creator]?, other.pc.isOpen = false))

instance (b : Bridge) (baseIp : String) : Decidable (b.Unused baseIp) :=
  inferInstanceAs (Decidable (∀ other ∈ b.connections, other.baseIp = baseIp → other.pc.isOpen = false))

/-- The condition on the next step of the task of a connection. -/
def Connection.Careful (b : Bridge) (c : Nat) (conn : Connection) : Prop :=
  match conn.pc with
  | .registering turn => b.Unsent (conn.key turn)
  | .leaving => b.NotRenewed c conn.createdKeys
  | .forgetting => b.Unused conn.baseIp
  | _ => True

instance (b : Bridge) (c : Nat) (conn : Connection) : Decidable (conn.Careful b c) := by
  unfold Connection.Careful
  split <;> infer_instance

/-- A device is registered only when no task is sending to another one of its key; a connection removes its routes only
when no newer one has renewed them, and the rumble entry only when no connection uses it. -/
def Careful (b : Bridge) : BridgeAction → Prop
  | .advance c => ∀ conn ∈ b.connections[c]?, conn.Careful b c
  | _ => True

instance (b : Bridge) : (a : BridgeAction) → Decidable (Careful b a)
  | .advance c => inferInstanceAs (Decidable (∀ conn ∈ b.connections[c]?, conn.Careful b c))
  | .accept _ | .read _ _ | .endOfStream _ | .hand _ _ | .write _ _ | .receive _ | .dropReceiver _ | .rumble _ _ =>
    inferInstanceAs (Decidable True)

/-! ### The rumble state -/

namespace RumbleState

variable {s : RumbleState} {ip ip' : String} {c : Nat} {e : RumbleEntry}

theorem lookup_orInsert_self : ((s.orInsert ip c).lookup ip).isSome = true := by
  unfold orInsert
  split
  · rename_i h
    rw [h]
    rfl
  · rw [AList.lookup_insert]
    rfl

theorem lookup_orInsert (h : (s.orInsert ip c).lookup ip' = some e) :
    s.lookup ip' = some e ∨ ip' = ip ∧ e.creator = c := by
  unfold orInsert at h
  split at h
  · exact Or.inl h
  · by_cases hip : ip' = ip
    · subst hip
      rw [AList.lookup_insert] at h
      obtain rfl := Option.some.inj h
      exact Or.inr ⟨rfl, rfl⟩
    · rw [AList.lookup_insert_ne hip] at h
      exact Or.inl h

theorem isSome_orInsert (h : (s.lookup ip').isSome = true) : ((s.orInsert ip c).lookup ip').isSome = true := by
  by_cases hip : ip' = ip
  · subst hip
    exact lookup_orInsert_self
  · unfold orInsert
    split
    · exact h
    · rw [AList.lookup_insert_ne hip]
      exact h

theorem lookup_set {key : StreamKey} {intensity : Float32} (h : (s.set key intensity).lookup ip = some e) :
    ∃ e', s.lookup ip = some e' ∧ e'.creator = e.creator := by
  unfold set at h
  split at h
  · rename_i e' he'
    by_cases hip : ip = key.baseIp
    · subst hip
      rw [AList.lookup_insert] at h
      obtain rfl := Option.some.inj h
      exact ⟨e', he', rfl⟩
    · rw [AList.lookup_insert_ne hip] at h
      exact ⟨e, h, rfl⟩
  · exact ⟨e, h, rfl⟩

theorem isSome_set {key : StreamKey} {intensity : Float32} (h : (s.lookup ip).isSome = true) :
    ((s.set key intensity).lookup ip).isSome = true := by
  unfold set
  split
  · by_cases hip : ip = key.baseIp
    · subst hip
      rw [AList.lookup_insert]
      rfl
    · rw [AList.lookup_insert_ne hip]
      exact h
  · exact h

end RumbleState

/-! ### One step -/

section Step

variable {b b' : Bridge} {a : BridgeAction} {c i : Nat} {conn conn' : Connection}

theorem connection_of_put (h : (b.put c conn).connections[i]? = some conn') :
    i = c ∧ conn' = conn ∨ b.connections[i]? = some conn' :=
  SlotTable.getElem?_of_set h

theorem connection_put_of_ne (h : i ≠ c) : (b.put c conn).connections[i]? = b.connections[i]? :=
  List.getElem?_set_ne (Ne.symm h)

/-- A connection that is served after a step was served before it, or has just got its rumble entry. -/
theorem open_of_step (h : bridgeStep b a = some b') (hi : b'.connections[i]? = some conn')
    (hopen : conn'.pc.isOpen = true) :
    (∃ conn, b.connections[i]? = some conn ∧ conn.pc.isOpen = true ∧ conn.baseIp = conn'.baseIp) ∨
      (b'.rumbleState.lookup conn'.baseIp).isSome = true := by
  have hput : ∀ {c : Nat} {conn x : Connection}, b.connections[c]? = some conn → conn.pc.isOpen = true →
      i = c ∧ conn' = x ∨ b.connections[i]? = some conn' → x.baseIp = conn.baseIp →
      ∃ conn, b.connections[i]? = some conn ∧ conn.pc.isOpen = true ∧ conn.baseIp = conn'.baseIp := by
    intro c conn x hc hconn hcases hip
    rcases hcases with ⟨rfl, rfl⟩ | hsame
    · exact ⟨conn, hc, hconn, hip.symm⟩
    · exact ⟨conn', hsame, hopen, rfl⟩
  have hleft : ∀ {c : Nat} {x : Connection}, x.pc.isOpen = false → i = c ∧ conn' = x ∨ b.connections[i]? = some conn' →
      ∃ conn, b.connections[i]? = some conn ∧ conn.pc.isOpen = true ∧ conn.baseIp = conn'.baseIp := by
    intro c x hx hcases
    rcases hcases with ⟨rfl, rfl⟩ | hsame
    · rw [hx] at hopen
      cases hopen
    · exact ⟨conn', hsame, hopen, rfl⟩
  cases bridgeStep_moves h with
  | accepts baseIp =>
    left
    rcases SlotTable.getElem?_of_concat hi with hi | ⟨-, rfl⟩
    · exact ⟨conn', hi, hopen, rfl⟩
    · cases hopen
  | reads bytes hc hpc => exact Or.inl (hput hc (by rw [hpc]; rfl) (connection_of_put hi) rfl)
  | opens hc hpc =>
    rcases connection_of_put hi with ⟨-, rfl⟩ | hsame
    · exact Or.inr RumbleState.lookup_orInsert_self
    · exact Or.inl ⟨conn', hsame, hopen, rfl⟩
  | works pc _ hc hans _ _ _ => exact Or.inl (hput hc (Pc.isOpen_of_answering hans) (connection_of_put hi) rfl)
  | registers turn hc hpc => exact Or.inl (hput hc (by rw [hpc]; rfl) (connection_of_put hi) rfl)
  | sends turn n hc hpc => exact Or.inl (hput hc (by rw [hpc]; rfl) (connection_of_put hi) rfl)
  | removes turn n hc hpc => exact Or.inl (hput hc (by rw [hpc]; rfl) (connection_of_put hi) rfl)
  | replies reply hc hpc => exact Or.inl (hput hc (by rw [hpc]; rfl) (connection_of_put hi) rfl)
  | ends _ hc hconn => exact Or.inl (hleft rfl (connection_of_put hi))
  | refused turn n hc hpc => exact Or.inl (hleft rfl (connection_of_put hi))
  | leaves hc hpc => exact Or.inl (hleft rfl (connection_of_put hi))
  | forgets hc hpc => exact Or.inl (hleft rfl (connection_of_put hi))
  | device n f _ _ => exact Or.inl ⟨conn', hi, hopen, rfl⟩
  | rumbles n key intensity => exact Or.inl ⟨conn', hi, hopen, rfl⟩

/-- A device is registered in the step. -/
def Registers (b b' : Bridge) (a : BridgeAction) : Prop :=
  ∃ (c : Nat) (conn : Connection) (turn : Turn), a = .advance c ∧ b.connections[c]? = some conn ∧
    conn.pc = .registering turn ∧
    b' = { b.put c { conn with
        pc := .handing turn b.routing.slots.length
        createdKeys := conn.createdKeys ++ [conn.key turn] } with
      routing := (b.routing.push (.new (conn.key turn) c)).point (conn.key turn) b.routing.slots.length }

/-- No device and no route is added, and no receiver comes back. -/
structure Narrowed (routing routing' : SlotTable StreamKey WiiDevice) : Prop where
  slots : ∀ n d', routing'.slot n = some d' → ∃ d, routing.slot n = some d ∧ d.streamKey = d'.streamKey ∧
    (d'.receiving = true → d.receiving = true)
  routes : ∀ key n, routing'.current key = some n → routing.current key = some n

namespace Narrowed

variable {routing : SlotTable StreamKey WiiDevice}

theorem refl (routing : SlotTable StreamKey WiiDevice) : Narrowed routing routing :=
  ⟨fun _ d' hd' => ⟨d', hd', rfl, id⟩, fun _ _ h => h⟩

theorem modify (n : Nat) {f : WiiDevice → WiiDevice} (hf : WiiDevice.Narrows f) :
    Narrowed routing (routing.modify n f) := by
  refine ⟨fun m d' hd' => ?_, fun _ _ h => h⟩
  rcases SlotTable.slot_of_modify hd' with ⟨-, hd'⟩ | ⟨rfl, d, hd, rfl⟩
  · exact ⟨d', hd', rfl, id⟩
  · exact ⟨d, hd, (hf d).1.symm, (hf d).2.2⟩

theorem forget (key : StreamKey) : Narrowed routing (routing.forget key) :=
  ⟨fun _ d' hd' => ⟨d', hd', rfl, id⟩, fun _ _ h => (SlotTable.current_of_forget h).2⟩

theorem forgetEach (keys : List StreamKey) : Narrowed routing (routing.forgetEach keys) := by
  refine ⟨fun n d' hd' => ?_, fun key n h => ?_⟩
  · rw [SlotTable.slot_forgetEach] at hd'
    exact ⟨d', hd', rfl, id⟩
  · rw [SlotTable.current_forgetEach] at h
    split at h
    · cases h
    · exact h

end Narrowed

theorem routing_of_step (h : bridgeStep b a = some b') : Narrowed b.routing b'.routing ∨ Registers b b' a := by
  cases bridgeStep_moves h with
  | registers turn hc hpc => exact Or.inr ⟨_, _, turn, rfl, hc, hpc, rfl⟩
  | sends turn n _ _ => exact Or.inl (.modify n (WiiDevice.narrows_push turn.packet))
  | removes turn n _ _ => exact Or.inl (.forget _)
  | refused turn n _ _ => exact Or.inl (.modify n WiiDevice.narrows_dropReceiver)
  | leaves _ _ => exact Or.inl (.forgetEach _)
  | device n f _ hf => exact Or.inl (.modify n hf)
  | _ => exact Or.inl (.refl _)

/-- A sender that a task holds after a step was held by it or found in the routing map, unless it is that of the device
that was registered. -/
theorem held_of_step (h : bridgeStep b a = some b') {n : Nat} (hn : b'.Held n) :
    b.Held n ∨ (∃ key, b.routing.current key = some n ∧ b'.routing.current key = some n) ∨
      Registers b b' a ∧ n = b.routing.slots.length := by
  obtain ⟨i, conn', hi, hholds⟩ := hn
  have hput : ∀ {c : Nat} {x : Connection}, x.pc.holds = none → i = c ∧ conn' = x ∨ b.connections[i]? = some conn' →
      b.Held n := by
    intro c x hx hcases
    rcases hcases with ⟨rfl, rfl⟩ | hsame
    · rw [hx] at hholds
      cases hholds
    · exact ⟨i, conn', hsame, hholds⟩
  cases bridgeStep_moves h with
  | accepts baseIp =>
    left
    rcases SlotTable.getElem?_of_concat hi with hi | ⟨-, rfl⟩
    · exact ⟨i, conn', hi, hholds⟩
    · cases hholds
  | reads bytes hc hpc => exact Or.inl (hput rfl (connection_of_put hi))
  | opens hc hpc => exact Or.inl (hput rfl (connection_of_put hi))
  | works pc _ hc hans _ _ hclones =>
    rcases connection_of_put hi with ⟨rfl, rfl⟩ | hsame
    · rcases hclones n hholds with hconn | ⟨key, hcur⟩
      · exact Or.inl ⟨_, _, hc, hconn⟩
      · exact Or.inr (Or.inl ⟨key, hcur, hcur⟩)
    · exact Or.inl ⟨i, conn', hsame, hholds⟩
  | registers turn hc hpc =>
    rcases connection_of_put hi with ⟨rfl, rfl⟩ | hsame
    · obtain rfl : b.routing.slots.length = n := Option.some.inj hholds
      exact Or.inr (Or.inr ⟨⟨_, _, turn, rfl, hc, hpc, rfl⟩, rfl⟩)
    · exact Or.inl ⟨i, conn', hsame, hholds⟩
  | sends turn n _ _ => exact Or.inl (hput rfl (connection_of_put hi))
  | removes turn n _ _ => exact Or.inl (hput rfl (connection_of_put hi))
  | replies reply hc hpc => exact Or.inl (hput rfl (connection_of_put hi))
  | ends _ hc hconn => exact Or.inl (hput rfl (connection_of_put hi))
  | refused turn n hc hpc => exact Or.inl (hput rfl (connection_of_put hi))
  | leaves hc hpc => exact Or.inl (hput rfl (connection_of_put hi))
  | forgets hc hpc => exact Or.inl (hput rfl (connection_of_put hi))
  | device m f _ _ => exact Or.inl ⟨i, conn', hi, hholds⟩
  | rumbles m key intensity => exact Or.inl ⟨i, conn', hi, hholds⟩

/-- A device that is live after a step was live before it, or was registered in it. -/
theorem live_of_step (h : bridgeStep b a = some b') {n : Nat} {d' : WiiDevice} (hlive : b'.Live n d') :
    (∃ d, b.Live n d ∧ d.streamKey = d'.streamKey) ∨ Registers b b' a ∧ n = b.routing.slots.length := by
  obtain ⟨hslot, hreceiving, hsender⟩ := hlive
  have hheld := fun hn : b'.Held n => held_of_step h hn
  rcases routing_of_step h with hnarrowed | hreg
  · obtain ⟨d, hd, hkey, hrec⟩ := hnarrowed.slots n d' hslot
    rcases hsender with ⟨key, hcur⟩ | hn
    · exact Or.inl ⟨d, ⟨hd, hrec hreceiving, Or.inl ⟨key, hnarrowed.routes key n hcur⟩⟩, hkey⟩
    · rcases hheld hn with hn | ⟨key, hcur, -⟩ | hnew
      · exact Or.inl ⟨d, ⟨hd, hrec hreceiving, Or.inr hn⟩, hkey⟩
      · exact Or.inl ⟨d, ⟨hd, hrec hreceiving, Or.inl ⟨key, hcur⟩⟩, hkey⟩
      · exact Or.inr hnew
  · by_cases hn : n = b.routing.slots.length
    · exact Or.inr ⟨hreg, hn⟩
    · obtain ⟨c, conn, turn, -, -, -, heq⟩ := id hreg
      have hrouting : b'.routing = (b.routing.push (.new (conn.key turn) c)).point (conn.key turn)
          b.routing.slots.length := by rw [heq]
      rw [hrouting] at hslot hsender
      have hd : b.routing.slot n = some d' := by
        rcases SlotTable.slot_of_push hslot with hd | ⟨hlen, -⟩
        · exact hd
        · exact absurd hlen hn
      left
      rcases hsender with ⟨key, hcur⟩ | hheld'
      · rcases SlotTable.current_of_point hcur with ⟨-, hlen⟩ | ⟨-, hcur⟩
        · exact absurd hlen hn
        · exact ⟨d', ⟨hd, hreceiving, Or.inl ⟨key, hcur⟩⟩, rfl⟩
      · rcases hheld hheld' with hold | ⟨key, hcur, -⟩ | ⟨-, hlen⟩
        · exact ⟨d', ⟨hd, hreceiving, Or.inr hold⟩, rfl⟩
        · exact ⟨d', ⟨hd, hreceiving, Or.inl ⟨key, hcur⟩⟩, rfl⟩
        · exact absurd hlen hn

end Step

/-! ### The invariant -/

structure Orderly (b : Bridge) : Prop where
  entryKept : b.EntryKept
  oneLive : b.OneLive
  /-- The route of a key goes to a device of the key. -/
  keyed : SlotTable.Current (fun key _ d => d.streamKey = key) b.routing
  /-- A rumble entry was made by a connection from its address. -/
  made : ∀ ip e, b.rumbleState.lookup ip = some e → ∃ conn, b.connections[e.creator]? = some conn ∧ conn.baseIp = ip

section Orderly

variable {b b' : Bridge} {a : BridgeAction} {c : Nat} {conn : Connection}

theorem orderly_new : Orderly .new := by
  refine ⟨?_, ?_, .empty, ?_⟩
  · simp [Bridge.EntryKept, Bridge.new]
  · simp [Bridge.OneLive, Bridge.Live, Bridge.new, SlotTable.slot, SlotTable.empty]
  · intro ip e he
    simp [Bridge.new] at he

/-- The rumble entry of an address goes only when a connection from it is torn down. -/
theorem isSome_of_step (h : bridgeStep b a = some b') (hok : Careful b a) {ip : String} {i : Nat}
    (hi : b.connections[i]? = some conn) (hopen : conn.pc.isOpen = true) (hip : conn.baseIp = ip)
    (hsome : (b.rumbleState.lookup ip).isSome = true) : (b'.rumbleState.lookup ip).isSome = true := by
  cases bridgeStep_moves h with
  | opens hc hpc => exact RumbleState.isSome_orInsert hsome
  | forgets hc hpc =>
    rename_i c left
    have hunused : left.Careful b c := hok left hc
    simp only [Connection.Careful, hpc] at hunused
    have hne : ip ≠ left.baseIp := by
      intro heq
      have hclosed := hunused conn (List.mem_of_getElem? hi) (hip.trans heq)
      rw [hopen] at hclosed
      cases hclosed
    show ((b.rumbleState.erase left.baseIp).lookup ip).isSome = true
    rw [AList.lookup_erase_ne hne]
    exact hsome
  | rumbles n key intensity => exact RumbleState.isSome_set hsome
  | _ => exact hsome

theorem Orderly.entryKept_step (hb : Orderly b) (hok : Careful b a) (h : bridgeStep b a = some b') :
    b'.EntryKept := by
  intro i conn' hi hopen
  rcases open_of_step h hi hopen with ⟨conn, hconn, hwas, hip⟩ | hentry
  · have hsome : (b.rumbleState.lookup conn'.baseIp).isSome = true := by
      rw [← hip]
      exact hb.entryKept i conn hconn hwas
    exact isSome_of_step h hok hconn hwas hip hsome
  · exact hentry

theorem Orderly.keyed_step (hb : Orderly b) (h : bridgeStep b a = some b') :
    SlotTable.Current (fun key _ d => d.streamKey = key) b'.routing := by
  have hmodify : ∀ (n : Nat) {f : WiiDevice → WiiDevice}, WiiDevice.Narrows f →
      SlotTable.Current (fun key _ d => d.streamKey = key) (b.routing.modify n f) :=
    fun n _ hf => hb.keyed.modify fun _ d _ _ hd => (hf d).1.trans hd
  cases bridgeStep_moves h with
  | registers turn hc hpc =>
    exact SlotTable.Current.point hb.keyed.push SlotTable.slot_push_self rfl
  | sends turn n _ _ => exact hmodify n (WiiDevice.narrows_push turn.packet)
  | removes turn n _ _ => exact hb.keyed.forget
  | refused turn n _ _ => exact hmodify n WiiDevice.narrows_dropReceiver
  | leaves _ _ => exact hb.keyed.forgetEach _
  | device n f _ hf => exact hmodify n hf
  | _ => exact hb.keyed

/-- The only new live device is one that is registered, and its key has no other. -/
theorem Orderly.oneLive_step (hb : Orderly b) (hok : Careful b a) (h : bridgeStep b a = some b') : b'.OneLive := by
  -- an old device that is live beside a new one has another key
  have hother : ∀ n d, b'.Live n d → n ≠ b.routing.slots.length → ∀ d', b'.Live b.routing.slots.length d' →
      Registers b b' a → d.streamKey ≠ d'.streamKey := by
    intro n d hd hn d' hd' hreg hkey
    obtain ⟨c, conn, turn, rfl, hc, hpc, heq⟩ := id hreg
    have hrouting : b'.routing = (b.routing.push (.new (conn.key turn) c)).point (conn.key turn)
        b.routing.slots.length := by rw [heq]
    obtain ⟨hslot, hreceiving, hsender⟩ := hd
    obtain ⟨hslot', -, -⟩ := hd'
    rw [hrouting] at hslot hslot'
    have hold : b.routing.slot n = some d := by
      rcases SlotTable.slot_of_push hslot with hold | ⟨hlen, -⟩
      · exact hold
      · exact absurd hlen hn
    have hnew : d'.streamKey = conn.key turn := by
      rcases SlotTable.slot_of_push hslot' with hold' | ⟨-, rfl⟩
      · have hlt := SlotTable.lt_of_slot hold'
        omega
      · rfl
    have hroute : ∀ key, b'.routing.current key = some n → False := by
      intro key hcur
      rw [hrouting] at hcur
      rcases SlotTable.current_of_point hcur with ⟨-, hlen⟩ | ⟨hne, hcur⟩
      · exact hn hlen
      · obtain ⟨d₀, hd₀, hkey₀⟩ := hb.keyed key n hcur
        obtain rfl := SlotTable.slot_inj hold hd₀
        exact hne (hkey₀.symm.trans (hkey.trans hnew))
    rcases hsender with ⟨key, hcur⟩ | hheld
    · exact hroute key hcur
    · rcases held_of_step h hheld with ⟨i, other, hi, hholds⟩ | ⟨key, -, hcur⟩ | ⟨-, hlen⟩
      · have hunsent : conn.Careful b c := hok conn hc
        simp only [Connection.Careful, hpc] at hunsent
        have hgone := hunsent other (List.mem_of_getElem? hi) n hholds d hold (hkey.trans hnew)
        rw [hreceiving] at hgone
        cases hgone
      · exact hroute key hcur
      · exact hn hlen
  intro n m d e hd he hkey
  rcases live_of_step h hd with ⟨d₀, hd₀, hkd⟩ | ⟨hreg, hn⟩
  · rcases live_of_step h he with ⟨e₀, he₀, hke⟩ | ⟨hreg, hm⟩
    · exact hb.oneLive n m d₀ e₀ hd₀ he₀ (hkd.trans (hkey.trans hke.symm))
    · by_cases hn : n = b.routing.slots.length
      · exact hn.trans hm.symm
      · subst hm
        exact absurd hkey (hother n d hd hn e he hreg)
  · by_cases hm : m = b.routing.slots.length
    · exact hn.trans hm.symm
    · subst hn
      exact absurd hkey.symm (hother m e he hm d hd hreg)

theorem Orderly.made_step (hb : Orderly b) (h : bridgeStep b a = some b') :
    ∀ ip e, b'.rumbleState.lookup ip = some e → ∃ conn, b'.connections[e.creator]? = some conn ∧ conn.baseIp = ip := by
  have hpersists : ∀ (i : Nat) conn, b.connections[i]? = some conn →
      ∃ conn', b'.connections[i]? = some conn' ∧ conn'.baseIp = conn.baseIp := by
    intro i conn hi
    obtain ⟨conn', hi', hmove⟩ := connection_after_step h hi
    rcases hmove with rfl | ⟨bytes, -, -, rfl⟩ | hgoes
    · exact ⟨conn', hi', rfl⟩
    · exact ⟨_, hi', rfl⟩
    · exact ⟨conn', hi', hgoes.baseIp_eq⟩
  have hkept : ∀ ip (e e' : RumbleEntry), b.rumbleState.lookup ip = some e' → e'.creator = e.creator →
      ∃ conn, b'.connections[e.creator]? = some conn ∧ conn.baseIp = ip := by
    intro ip e e' he' hcreator
    obtain ⟨conn, hconn, hip⟩ := hb.made ip e' he'
    obtain ⟨conn', hconn', hip'⟩ := hpersists e'.creator conn hconn
    exact ⟨conn', by rw [← hcreator]; exact hconn', hip'.trans hip⟩
  intro ip e he
  cases bridgeStep_moves h with
  | opens hc hpc =>
    rcases RumbleState.lookup_orInsert he with hold | ⟨rfl, hcreator⟩
    · exact hkept ip e e hold rfl
    · obtain ⟨conn', hconn', hip⟩ := hpersists _ _ hc
      exact ⟨conn', by rw [hcreator]; exact hconn', hip⟩
  | forgets hc hpc =>
    rename_i left
    have hne : ip ≠ left.baseIp := by
      rintro rfl
      simp at he
    have hold : b.rumbleState.lookup ip = some e := by
      rw [← AList.lookup_erase_ne hne]
      exact he
    exact hkept ip e e hold rfl
  | rumbles n key intensity =>
    obtain ⟨e', he', hcreator⟩ := RumbleState.lookup_set he
    exact hkept ip e e' he' hcreator
  | _ => exact hkept ip e e he rfl

theorem Orderly.step (hb : Orderly b) (hok : Careful b a) (h : bridgeStep b a = some b') : Orderly b' :=
  ⟨hb.entryKept_step hok h, hb.oneLive_step hok h, hb.keyed_step h, hb.made_step h⟩

theorem advance_eq (h : bridgeStep b (.advance c) = some b') (hc : b.connections[c]? = some conn) :
    b.advance c conn = some b' := by
  obtain ⟨conn₀, hc₀, h⟩ := Option.bind_eq_some_iff.1 h
  obtain rfl : conn = conn₀ := Option.some.inj (hc.symm.trans hc₀)
  exact h

theorem leaving_eq (h : bridgeStep b (.advance c) = some b') (hc : b.connections[c]? = some conn)
    (hpc : conn.pc = .leaving) :
    b' = { b.put c (conn.goto .forgetting) with routing := b.routing.forgetEach conn.createdKeys } := by
  have hadv := advance_eq h hc
  unfold Bridge.advance at hadv
  rw [hpc] at hadv
  exact (Option.some.inj hadv).symm

theorem forgetting_eq (h : bridgeStep b (.advance c) = some b') (hc : b.connections[c]? = some conn)
    (hpc : conn.pc = .forgetting) :
    b' = { b.put c (conn.goto .closed) with rumbleState := b.rumbleState.erase conn.baseIp } := by
  have hadv := advance_eq h hc
  unfold Bridge.advance at hadv
  rw [hpc] at hadv
  exact (Option.some.inj hadv).symm

theorem registering_eq {turn : Turn} (h : bridgeStep b (.advance c) = some b') (hc : b.connections[c]? = some conn)
    (hpc : conn.pc = .registering turn) :
    b' = { b.put c { conn with
        pc := .handing turn b.routing.slots.length
        createdKeys := conn.createdKeys ++ [conn.key turn] } with
      routing := (b.routing.push (.new (conn.key turn) c)).point (conn.key turn) b.routing.slots.length } := by
  have hadv := advance_eq h hc
  unfold Bridge.advance at hadv
  rw [hpc] at hadv
  exact (Option.some.inj hadv).symm

/-- A careful teardown spares what the newer connections made. -/
theorem Orderly.spares (hb : Orderly b) (hok : Careful b a) (h : bridgeStep b a = some b') : Spares b b' a := by
  cases a with
  | advance c =>
    intro conn hc hteardown c' conn' hlt hc' hopen
    have hcareful : conn.Careful b c := hok conn hc
    rcases hteardown with hpc | hpc
    · simp only [Connection.Careful, hpc] at hcareful
      rw [leaving_eq h hc hpc]
      refine ⟨fun key n d hcur hd hcreator => ?_, fun ip e he _ => he⟩
      show (b.routing.forgetEach conn.createdKeys).current key = some n
      rw [SlotTable.current_forgetEach, if_neg, hcur]
      intro hmem
      have hnewer : c < d.creator := by omega
      have hclosed := hcareful key hmem n hcur d hd hnewer conn' (by rw [hcreator]; exact hc')
      rw [hopen] at hclosed
      cases hclosed
    · simp only [Connection.Careful, hpc] at hcareful
      rw [forgetting_eq h hc hpc]
      refine ⟨fun key n d hcur _ _ => hcur, fun ip e he hcreator => ?_⟩
      obtain ⟨maker, hmaker, hip⟩ := hb.made ip e he
      rw [hcreator] at hmaker
      obtain rfl : conn' = maker := Option.some.inj (hc'.symm.trans hmaker)
      have hne : ip ≠ conn.baseIp := by
        intro heq
        have hclosed := hcareful conn' (List.mem_of_getElem? hc') (hip.trans heq)
        rw [hopen] at hclosed
        cases hclosed
      show (b.rumbleState.erase conn.baseIp).lookup ip = some e
      rw [AList.lookup_erase_ne hne, he]
  | _ => trivial

/-- A registration that leaves one live device was careful. -/
theorem unsent_of_oneLive {turn : Turn} (h : bridgeStep b (.advance c) = some b') (hc : b.connections[c]? = some conn)
    (hpc : conn.pc = .registering turn) (hone : b'.OneLive) : b.Unsent (conn.key turn) := by
  intro other hother n hn d hd hkey
  obtain ⟨i, hi⟩ := List.getElem?_of_mem hother
  have heq := registering_eq h hc hpc
  have hne : i ≠ c := by
    rintro rfl
    obtain rfl : other = conn := Option.some.inj (hi.symm.trans hc)
    rw [hpc] at hn
    cases hn
  obtain ⟨hlt, -⟩ := List.getElem?_eq_some_iff.1 hc
  by_contra hreceiving
  have hreceiving : d.receiving = true := by simpa using hreceiving
  have hold : b'.Live n d := by
    refine ⟨?_, hreceiving, Or.inr ⟨i, other, ?_, hn⟩⟩
    · rw [heq]
      exact SlotTable.slot_push_of_some hd
    · rw [heq]
      exact (connection_put_of_ne hne).trans hi
  have hnew : b'.Live b.routing.slots.length (.new (conn.key turn) c) := by
    refine ⟨?_, rfl, Or.inl ⟨conn.key turn, ?_⟩⟩
    · rw [heq]
      exact SlotTable.slot_push_self
    · rw [heq]
      exact SlotTable.current_point_self
  have hsame : n = b.routing.slots.length := hone _ _ _ _ hold hnew hkey
  have hslot := SlotTable.lt_of_slot (show b.routing.slot n = some d from hd)
  omega

/-- The removal of routes that spares the newer connections was careful. -/
theorem notRenewed_of_spares (h : bridgeStep b (.advance c) = some b') (hc : b.connections[c]? = some conn)
    (hpc : conn.pc = .leaving) (hspares : Spares b b' (.advance c)) : b.NotRenewed c conn.createdKeys := by
  intro key hkey n hcur d hd hnewer other hother
  by_contra hopen
  have hopen : other.pc.isOpen = true := by simpa using hopen
  have hkept := (hspares conn hc (Or.inl hpc) d.creator other hnewer hother hopen).1 key n d hcur hd rfl
  rw [leaving_eq h hc hpc] at hkept
  have hgone : (b.routing.forgetEach conn.createdKeys).current key = none := by
    rw [SlotTable.current_forgetEach, if_pos hkey]
  exact absurd (hgone.symm.trans hkept) nofun

/-- The removal of a rumble entry that leaves the entries of the served connections was careful. -/
theorem unused_of_entryKept (h : bridgeStep b (.advance c) = some b') (hc : b.connections[c]? = some conn)
    (hpc : conn.pc = .forgetting) (hentry : b'.EntryKept) : b.Unused conn.baseIp := by
  intro other hother hip
  obtain ⟨i, hi⟩ := List.getElem?_of_mem hother
  by_contra hopen
  have hopen : other.pc.isOpen = true := by simpa using hopen
  have hne : i ≠ c := by
    rintro rfl
    obtain rfl : other = conn := Option.some.inj (hi.symm.trans hc)
    rw [hpc] at hopen
    cases hopen
  have hi' : b'.connections[i]? = some other := by
    rw [forgetting_eq h hc hpc]
    exact (connection_put_of_ne hne).trans hi
  have hsome := hentry i other hi' hopen
  rw [forgetting_eq h hc hpc, hip] at hsome
  have hsome : ((b.rumbleState.erase conn.baseIp).lookup conn.baseIp).isSome = true := hsome
  rw [AList.lookup_erase] at hsome
  cases hsome

theorem careful_of_sound (h : bridgeStep b a = some b') (hentry : b'.EntryKept) (hone : b'.OneLive)
    (hspares : Spares b b' a) : Careful b a := by
  cases a with
  | advance c =>
    intro conn hc
    unfold Connection.Careful
    split
    · rename_i turn hpc
      exact unsent_of_oneLive h hc hpc hone
    · rename_i hpc
      exact notRenewed_of_spares h hc hpc hspares
    · rename_i hpc
      exact unused_of_entryKept h hc hpc hentry
    · trivial
  | _ => trivial

end Orderly

/-! ### Runs -/

/-- As long as every step is careful, the rumble entry of every served connection is there, each key has at most one
live device and no teardown removes what a newer served connection made; and the first step that is not careful breaks
one of the three. -/
theorem overlap_sound_iff_careful {b : Bridge} (h : Reaches bridgeStep Careful .new b) :
    b.EntryKept ∧ b.OneLive ∧
      ∀ a b', bridgeStep b a = some b' → ((b'.EntryKept ∧ b'.OneLive ∧ Spares b b' a) ↔ Careful b a) := by
  have hb : Orderly b := h.invariant orderly_new fun _ _ _ hI hok hs => hI.step hok hs
  refine ⟨hb.entryKept, hb.oneLive, fun a b' hs => ⟨fun hsound => ?_, fun hok => ?_⟩⟩
  · exact careful_of_sound hs hsound.1 hsound.2.1 hsound.2.2
  · have hb' : Orderly b' := hb.step hok hs
    exact ⟨hb'.entryKept, hb'.oneLive, hb.spares hok hs⟩

/-- A record of controller 0. -/
def recordOfZero : List UInt8 := List.replicate 17 0

def keyOfZero : StreamKey := ⟨"10.0.0.2", 0⟩

/-- The task of a connection opens, reads a record of controller 0 and looks its key up. -/
def lookUp (c : Nat) : List BridgeAction := [.advance c, .read c recordOfZero, .advance c]

/-- The task registers the device, hands it over and answers. -/
def registerAndAnswer (c : Nat) : List BridgeAction :=
  [.advance c, .hand c true, .advance c, .advance c, .advance c, .write c true]

/-- The companion is served and goes away. -/
def serve (c : Nat) : List BridgeAction :=
  lookUp c ++ registerAndAnswer c ++ [.endOfStream c, .advance c, .advance c]

/-- Two connections that follow each other are both served with care. -/
theorem reconnect_after_teardown : ∃ b, Reaches bridgeStep Careful .new b ∧ b.connections.length = 2 ∧
    b.EntryKept ∧ b.OneLive ∧
      ∀ a b', bridgeStep b a = some b' → ((b'.EntryKept ∧ b'.OneLive ∧ Spares b b' a) ↔ Careful b a) := by
  have hrun : (exec (guardStep bridgeStep Careful) .new
      ([.accept "10.0.0.2"] ++ serve 0 ++ [.accept "10.0.0.2"] ++ serve 1)).map (fun b => b.connections.length) =
      some 2 := by decide +kernel
  obtain ⟨b, hb, hlen⟩ := Option.map_eq_some_iff.1 hrun
  have hreach := Reaches.of_exec _ hb
  exact ⟨b, hreach, hlen, overlap_sound_iff_careful hreach⟩

/-- The companion reconnects before its old connection is torn down, and the old one takes the rumble entry along. -/
def tornDownLate : List BridgeAction :=
  [.accept "10.0.0.2", .advance 0, .accept "10.0.0.2", .advance 1, .endOfStream 0, .advance 0, .advance 0]

/-- Both connections look the key up before one of them registers a device. -/
def registeredTwice : List BridgeAction :=
  [.accept "10.0.0.2", .accept "10.0.0.2"] ++ lookUp 0 ++ lookUp 1 ++ [.advance 0, .advance 1]

/-- The older of the two is about to remove its routes. -/
def aboutToLeave : List BridgeAction :=
  registeredTwice ++ [.hand 0 true, .advance 0, .advance 0, .advance 0, .write 0 true, .endOfStream 0]

/-- Overlapping connections lose the rumble entry of one that is served, make two live devices of one key, and remove
the route of a newer one. -/
theorem overlapping_connections_break :
    (∃ b conn, Reaches bridgeStep Always .new b ∧ b.connections[1]? = some conn ∧ conn.pc = .reading ∧
      b.rumbleState.lookup conn.baseIp = none) ∧
    (∃ b d e, Reaches bridgeStep Always .new b ∧ b.Live 0 d ∧ b.Live 1 e ∧ d.streamKey = e.streamKey) ∧
    ∃ b b', Reaches bridgeStep Always .new b ∧ bridgeStep b (.advance 0) = some b' ∧ ¬ Spares b b' (.advance 0) := by
  refine ⟨?_, ?_, ?_⟩
  · have hrun : (exec bridgeStep .new tornDownLate).map (fun b =>
        ((b.connections[1]?).map fun conn => (conn.pc, conn.baseIp), (b.rumbleState.lookup "10.0.0.2").isSome)) =
        some (some (.reading, "10.0.0.2"), false) := by decide +kernel
    obtain ⟨b, hb, hfacts⟩ := Option.map_eq_some_iff.1 hrun
    simp only [Prod.mk.injEq] at hfacts
    obtain ⟨conn, hconn, hpc⟩ := Option.map_eq_some_iff.1 hfacts.1
    simp only [Prod.mk.injEq] at hpc
    refine ⟨b, conn, Reaches.of_run _ hb, hconn, hpc.1, ?_⟩
    rw [hpc.2]
    simpa using hfacts.2
  · have hrun : (exec bridgeStep .new registeredTwice).map (fun b =>
        ((b.connections[0]?).bind fun conn => conn.pc.holds, b.routing.current keyOfZero,
          (b.routing.slot 0).any fun d => d.streamKey = keyOfZero ∧ d.receiving = true,
          (b.routing.slot 1).any fun d => d.streamKey = keyOfZero ∧ d.receiving = true)) =
        some (some 0, some 1, true, true) := by decide +kernel
    obtain ⟨b, hb, hfacts⟩ := Option.map_eq_some_iff.1 hrun
    simp only [Prod.mk.injEq, Option.any_eq_true, decide_eq_true_eq] at hfacts
    obtain ⟨hheld, hcur, ⟨d, hd, hdkey, hdrec⟩, ⟨e, he, hekey, herec⟩⟩ := hfacts
    obtain ⟨conn, hconn, hholds⟩ := Option.bind_eq_some_iff.1 hheld
    exact ⟨b, d, e, Reaches.of_run _ hb, ⟨hd, hdrec, Or.inr ⟨0, conn, hconn, hholds⟩⟩,
      ⟨he, herec, Or.inl ⟨keyOfZero, hcur⟩⟩, hdkey.trans hekey.symm⟩
  · have hrun : (exec bridgeStep .new aboutToLeave).map (fun b =>
        ((b.connections[0]?).any fun conn => conn.pc = .leaving, (b.connections[1]?).any fun conn => conn.pc.isOpen,
          (bridgeStep b (.advance 0)).any fun b' => b'.routing.current keyOfZero = none,
          b.routing.current keyOfZero, (b.routing.slot 1).any fun d => d.creator = 1)) =
        some (true, true, true, some 1, true) := by decide +kernel
    obtain ⟨b, hb, hfacts⟩ := Option.map_eq_some_iff.1 hrun
    simp only [Prod.mk.injEq, Option.any_eq_true, decide_eq_true_eq] at hfacts
    obtain ⟨⟨conn, hconn, hpc⟩, ⟨conn', hconn', hopen⟩, ⟨b', hb', hgone⟩, hcur, ⟨d, hd, hcreator⟩⟩ := hfacts
    refine ⟨b, b', Reaches.of_run _ hb, hb', fun hspares => ?_⟩
    have hkept := (hspares conn hconn (Or.inl hpc) 1 conn' (by decide) hconn' hopen).1 keyOfZero 1 d hcur hd hcreator
    rw [hgone] at hkept
    cases hkept

end EverythingImu.Wii
