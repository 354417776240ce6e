import EverythingImu.SlimeTracker.Decode

/-!
# The packet codec

What the decoders accept, shape by shape: exactly the encodings of canonical packets, except that any three bytes may
stand in the padding of a handshake.  A datagram that was encoded is decoded to the packet it came from, a datagram
that is decoded is encoded back to itself up to the padding, and behind a packet nothing may follow.
-/

namespace EverythingImu.SlimeTracker

open Words

/-! ### Fields -/

theorem readsField_word (W : Type) [Word W] : ReadsField (readWord W) (fun _ => True) toBe :=
  readsField_takeWord DekuError.incomplete W

theorem readsField_int32 : ReadsField readInt32 (fun _ => True) fun i => toBe i.toUInt32 := by
  have hmap : Decodes readInt32 _ Never := (readsField_word UInt32).map (fun _ => Iff.rfl)
  refine hmap.congr ?_
  intro i e
  constructor
  · rintro ⟨w, ⟨-, rfl⟩, rfl⟩
    exact ⟨trivial, congrArg toBe w.toUInt32_toInt32.symm⟩
  · rintro ⟨-, rfl⟩
    exact ⟨i.toUInt32, ⟨trivial, rfl⟩, i.toInt32_toUInt32.symm⟩

theorem readsField_variant (α : Type) [VariantType α] :
    ReadsField (readVariant α) VariantType.Canonical fun a => toBe (VariantType.id a) :=
  VariantType.readsField_read DekuError.incomplete DekuError.parse

theorem readsField_boardType : ReadsField (readVariant BoardType) VariantType.Canonical fun b => toBe b.id :=
  readsField_variant BoardType

theorem readsField_mcuType : ReadsField (readVariant McuType) VariantType.Canonical fun m => toBe m.id :=
  readsField_variant McuType

theorem readsField_imuType : ReadsField (readVariant ImuType) VariantType.Canonical fun i => [i.id] :=
  (readsField_variant ImuType).congr (fun _ => Iff.rfl) fun i => toBe_uInt8 i.id

theorem readsField_actionType : ReadsField (readVariant ActionType) VariantType.Canonical fun a => [a.id] :=
  (readsField_variant ActionType).congr (fun _ => Iff.rfl) fun a => toBe_uInt8 a.id

theorem readsField_trackerPosition : ReadsField (readVariant TrackerPosition) VariantType.Canonical fun p => [p.id] :=
  (readsField_variant TrackerPosition).congr (fun _ => Iff.rfl) fun p => toBe_uInt8 p.id

-- every value of an enumeration without an unknown variant is canonical
theorem readsField_sensorStatus : ReadsField (readVariant SensorStatus) (fun _ => True) fun s => [s.id] := by
  refine (readsField_variant SensorStatus).congr ?_ fun s => toBe_uInt8 s.id
  intro s
  cases s <;> exact iff_true_intro (.inl (by decide))

theorem readsField_sensorDataType : ReadsField (readVariant SensorDataType) (fun _ => True) fun d => [d.id] := by
  refine (readsField_variant SensorDataType).congr ?_ fun d => toBe_uInt8 d.id
  intro d
  cases d <;> exact iff_true_intro (.inl (by decide))

theorem readsField_trackerDataType : ReadsField (readVariant TrackerDataType) (fun _ => True) fun d => [d.id] := by
  refine (readsField_variant TrackerDataType).congr ?_ fun d => toBe_uInt8 d.id
  intro d
  cases d <;> exact iff_true_intro (.inl (by decide))

theorem readsField_vector3 : ReadsField readVector3 (fun _ => True) SbPacket.vector3 := by
  have h : Decodes readVector3 _ Never := (readsField_word F32).next fun x => (readsField_word F32).next fun y =>
    (readsField_word F32).next fun z => decodes_done nofun
  refine h.congr ?_
  intro v e
  obtain ⟨x, y, z⟩ := v
  simp [Layout, SbPacket.vector3, and_assoc]

theorem readsField_slimeQuaternion : ReadsField readSlimeQuaternion (fun _ => True)
    fun q => toBe q.i ++ toBe q.j ++ toBe q.k ++ toBe q.w := by
  have h : Decodes readSlimeQuaternion _ Never := (readsField_word F32).next fun i => (readsField_word F32).next
    fun j => (readsField_word F32).next fun k => (readsField_word F32).next fun w => decodes_done nofun
  refine h.congr ?_
  intro q e
  obtain ⟨i, j, k, w⟩ := q
  simp [Layout, and_assoc]

/-- The length byte counts the bytes behind it. -/
def SlimeString.WellFormed (s : SlimeString) : Prop := s.data.length = s.count.toNat

theorem SlimeString.wellFormed_ofString (s : String) : (SlimeString.ofString s).WellFormed := by
  simp only [WellFormed, ofString]
  split
  · have hlen : ((Buffer.utf8 s).take SLIME_STRING_MAX).length ≤ 255 := by
      rw [List.length_take]
      exact Nat.min_le_left _ _
    rw [UInt8.toNat_ofNat_of_lt' (Nat.lt_succ_of_le hlen)]
  · next h =>
    have hlen : (Buffer.utf8 s).length ≤ 255 := Nat.le_of_not_lt h
    rw [UInt8.toNat_ofNat_of_lt' (Nat.lt_succ_of_le hlen)]

theorem readsField_slimeString :
    ReadsField readSlimeString SlimeString.WellFormed fun s => s.count :: s.data := by
  have h : Decodes readSlimeString _ Never := (readsField_word UInt8).next fun count =>
    (readsField_takeBytes DekuError.incomplete count.toNat).next fun data => decodes_done nofun
  refine h.congr ?_
  intro s e
  obtain ⟨count, data⟩ := s
  simp [Layout, SlimeString.WellFormed, and_assoc]

/-! ### Texts -/

namespace SlimeString

open Buffer

/-- The string of a text counts its bytes, and they are a beginning of the text: all of it when it fits. -/
structure StaysText (s : String) : Prop where
  count : (ofString s).count.toNat = (ofString s).data.length
  fits : (ofString s).data.length ≤ SLIME_STRING_MAX
  text : ∃ p, (ofString s).toString? = some p ∧ (∃ rest, s = p ++ rest) ∧ ((utf8 s).length ≤ SLIME_STRING_MAX → p = s)

theorem ofString_data (s : String) : (ofString s).data = (utf8 s).take SLIME_STRING_MAX := by
  unfold ofString
  dsimp only
  split
  · rfl
  · next h => exact (List.take_of_length_le (Nat.le_of_not_lt h)).symm

/-- A text that fits is kept as it is. -/
theorem toString?_ofString {s : String} (h : (utf8 s).length ≤ SLIME_STRING_MAX) : (ofString s).toString? = some s := by
  unfold toString?
  rw [ofString_data, List.take_of_length_le h, ofUtf8?_utf8]

/-- The cut does not go through a character exactly when the first byte that is cut off begins one. -/
theorem staysText_iff (s : String) : StaysText s ↔ ∀ b ∈ (utf8 s)[SLIME_STRING_MAX]?, b.IsUTF8FirstByte := by
  by_cases hfits : (utf8 s).length ≤ SLIME_STRING_MAX
  · have hnone : (utf8 s)[SLIME_STRING_MAX]? = none := List.getElem?_eq_none hfits
    rw [hnone]
    refine iff_of_true
      ⟨(wellFormed_ofString s).symm, ?_, s, toString?_ofString hfits, ⟨"", by simp⟩, fun _ => rfl⟩ nofun
    rw [ofString_data]
    exact List.length_take_le ..
  · have hlong : SLIME_STRING_MAX ≤ (utf8 s).length := Nat.le_of_not_le hfits
    rw [← take_utf8_iff hlong, ← ofString_data]
    constructor
    · rintro ⟨-, -, p, hp, hrest, -⟩
      exact ⟨p, hp, hrest⟩
    · rintro ⟨p, hp, hrest⟩
      refine ⟨(wellFormed_ofString s).symm, ?_, p, hp, hrest, fun h => absurd h hfits⟩
      rw [ofString_data]
      exact List.length_take_le ..

/-- An accented letter whose two bytes are the last that fits and the first that does not. -/
theorem not_staysText_of_cut_letter : ¬ StaysText ("".pushn 'a' 254 ++ "é") := by
  rintro ⟨-, -, p, hp, -, -⟩
  have hbytes : ofString ("".pushn 'a' 254 ++ "é") = ⟨255, List.replicate 254 0x61 ++ [0xC3]⟩ := by decide +kernel
  have hcut : (⟨255, List.replicate 254 0x61 ++ [0xC3]⟩ : SlimeString).toString? = none := by decide +kernel
  rw [hbytes, hcut] at hp
  cases hp

end SlimeString

/-! ### Packets to the server -/

namespace SbPacket

open VariantType

/-- No variant keeps the id of a known one, and a string has the length that its length byte says. -/
def Canonical : SbPacket → Prop
  | handshake board imu mcu _ _ firmware _ =>
    VariantType.Canonical board ∧ VariantType.Canonical imu ∧ VariantType.Canonical mcu ∧ firmware.WellFormed
  | sensorInfo _ _ sensorType _ _ trackerPosition _ =>
    VariantType.Canonical sensorType ∧ VariantType.Canonical trackerPosition
  | userAction action => VariantType.Canonical action
  | _ => True

/-- The packet takes all the bytes behind the header. -/
def OpenEnded : SbPacket → Prop
  | featureFlags _ | bundle _ => True
  | _ => False

/-- The fields of the packet with `pad` in the padding of a handshake. -/
def bodyPadded (pad : Vector UInt8 3) : SbPacket → List UInt8
  | handshake board imu mcu imuInfo protocolVersion firmware macAddress =>
    toBe board.id ++ (pad.toList ++ imu.id :: (toBe mcu.id ++ toBe imuInfo.1.toUInt32 ++ toBe imuInfo.2.1.toUInt32 ++
      toBe imuInfo.2.2.toUInt32 ++ toBe protocolVersion.toUInt32 ++ firmware.count :: firmware.data ++
      macAddress.toList))
  | p => p.body

/-- What stands behind a header with the tag. -/
def Form (tag : UInt32) (p : SbPacket) (e : List UInt8) : Prop :=
  p.dekuId = tag ∧ p.Canonical ∧ ∃ pad, e = p.bodyPadded pad

theorem decodes_heartbeat : Decodes (read 0) (Form 0) OpenEnded := by
  have h : Decodes (read 0) _ OpenEnded := (readsField_word UInt8).next fun trackerId => decodes_done nofun
  refine h.congr fun p e => ?_
  cases p <;> simp [Layout, Form, dekuId, Canonical, bodyPadded, body, and_assoc]

theorem decodes_handshake : Decodes (read 3) (Form 3) OpenEnded := by
  have h : Decodes (read 3) _ OpenEnded :=
    readsField_boardType.next fun board => (readsField_takeVector DekuError.incomplete 3).next fun pad =>
    readsField_imuType.next fun imu => readsField_mcuType.next fun mcu => readsField_int32.next fun info0 =>
    readsField_int32.next fun info1 => readsField_int32.next fun info2 => readsField_int32.next fun protocolVersion =>
    readsField_slimeString.next fun firmware => (readsField_takeVector DekuError.incomplete 6).next fun macAddress =>
    decodes_done nofun
  refine h.congr fun p e => ?_
  cases p with
  | handshake board imu mcu imuInfo protocolVersion firmware macAddress =>
    obtain ⟨info0, info1, info2⟩ := imuInfo
    simp [Layout, Form, dekuId, Canonical, bodyPadded, and_assoc]
  | _ => simp [Layout, Form, dekuId]

theorem decodes_acceleration : Decodes (read 4) (Form 4) OpenEnded := by
  have h : Decodes (read 4) _ OpenEnded :=
    readsField_vector3.next fun vector => (readsField_word UInt8).next fun sensorId => decodes_done nofun
  refine h.congr fun p e => ?_
  cases p <;> simp [Layout, Form, dekuId, Canonical, bodyPadded, body, and_assoc]

theorem decodes_magnetometer : Decodes (read 5) (Form 5) OpenEnded := by
  have h : Decodes (read 5) _ OpenEnded :=
    (readsField_word UInt8).next fun sensorId => readsField_sensorDataType.next fun dataType =>
    readsField_vector3.next fun vector => (readsField_word UInt8).next fun calibrationInfo => decodes_done nofun
  refine h.congr fun p e => ?_
  cases p <;> simp [Layout, Form, dekuId, Canonical, bodyPadded, body, and_assoc]

theorem decodes_ping : Decodes (read 10) (Form 10) OpenEnded := by
  have h : Decodes (read 10) _ OpenEnded :=
    (readsField_takeVector DekuError.incomplete 4).next fun challenge => decodes_done nofun
  refine h.congr fun p e => ?_
  cases p <;> simp [Layout, Form, dekuId, Canonical, bodyPadded, body, and_assoc]

theorem decodes_batteryLevel : Decodes (read 12) (Form 12) OpenEnded := by
  have h : Decodes (read 12) _ OpenEnded :=
    (readsField_word F32).next fun voltageVolts => (readsField_word F32).next fun level => decodes_done nofun
  refine h.congr fun p e => ?_
  cases p <;> simp [Layout, Form, dekuId, Canonical, bodyPadded, body, and_assoc]

theorem decodes_sensorInfo : Decodes (read 15) (Form 15) OpenEnded := by
  have h : Decodes (read 15) _ OpenEnded :=
    (readsField_word UInt8).next fun sensorId => readsField_sensorStatus.next fun sensorStatus =>
    readsField_imuType.next fun sensorType => (readsField_word UInt16).next fun sensorConfig =>
    (readsField_word UInt8).next fun hasCompletedRestCalibration =>
    readsField_trackerPosition.next fun trackerPosition => readsField_trackerDataType.next fun trackerDataType =>
    decodes_done nofun
  refine h.congr fun p e => ?_
  cases p <;> simp [Layout, Form, dekuId, Canonical, bodyPadded, body, and_assoc]

theorem decodes_rotationData : Decodes (read 17) (Form 17) OpenEnded := by
  have h : Decodes (read 17) _ OpenEnded :=
    (readsField_word UInt8).next fun sensorId => readsField_sensorDataType.next fun dataType =>
    readsField_slimeQuaternion.next fun quat => (readsField_word UInt8).next fun calibrationInfo => decodes_done nofun
  refine h.congr fun p e => ?_
  cases p <;> simp [Layout, Form, dekuId, Canonical, bodyPadded, body, and_assoc]

theorem decodes_userAction : Decodes (read 21) (Form 21) OpenEnded := by
  have h : Decodes (read 21) _ OpenEnded := readsField_actionType.next fun action => decodes_done nofun
  refine h.congr fun p e => ?_
  cases p <;> simp [Layout, Form, dekuId, Canonical, bodyPadded, body, and_assoc]

theorem decodes_featureFlags : Decodes (read 22) (Form 22) OpenEnded := by
  have h : Decodes (read 22) _ OpenEnded := decodes_tail fun _ => trivial
  refine h.congr fun p e => ?_
  cases p <;> simp [Layout, Form, dekuId, Canonical, bodyPadded, body]

theorem decodes_ackConfigChange : Decodes (read 24) (Form 24) OpenEnded := by
  have h : Decodes (read 24) _ OpenEnded :=
    (readsField_word UInt8).next fun sensorId => (readsField_word UInt16).next fun configType => decodes_done nofun
  refine h.congr fun p e => ?_
  cases p <;> simp [Layout, Form, dekuId, Canonical, bodyPadded, body, and_assoc]

theorem decodes_bundle : Decodes (read 100) (Form 100) OpenEnded := by
  have h : Decodes (read 100) _ OpenEnded := decodes_tail fun _ => trivial
  refine h.congr fun p e => ?_
  cases p <;> simp [Layout, Form, dekuId, Canonical, bodyPadded, body]

/-- Behind a header with the tag the decoder accepts the bodies of the canonical packets with the tag, whatever stands
in the padding. -/
theorem decodes_read (tag : UInt32) : Decodes (read tag) (Form tag) OpenEnded := by
  by_cases h : tag ∈ ([0, 3, 4, 5, 10, 12, 15, 17, 21, 22, 24, 100] : List UInt32)
  · simp only [List.mem_cons, List.not_mem_nil, or_false] at h
    rcases h with rfl | rfl | rfl | rfl | rfl | rfl | rfl | rfl | rfl | rfl | rfl | rfl
    · exact decodes_heartbeat
    · exact decodes_handshake
    · exact decodes_acceleration
    · exact decodes_magnetometer
    · exact decodes_ping
    · exact decodes_batteryLevel
    · exact decodes_sensorInfo
    · exact decodes_rotationData
    · exact decodes_userAction
    · exact decodes_featureFlags
    · exact decodes_ackConfigChange
    · exact decodes_bundle
  · have hread : read tag = throw .parse := by
      unfold read
      split <;> simp_all
    rw [hread]
    refine (Decodes.throw DekuError.parse).congr fun p e => ?_
    have hid : p.dekuId ≠ tag := by
      intro ht
      apply h
      rw [← ht]
      cases p <;> simp [dekuId]
    simp [Form, hid]

/-- The encoder writes zeros into the padding. -/
theorem bodyPadded_zero (p : SbPacket) : p.bodyPadded (Vector.replicate 3 0) = p.body := by
  cases p with
  | handshake board imu mcu imuInfo protocolVersion firmware macAddress =>
    simp only [bodyPadded, body, List.append_assoc]
    rfl
  | _ => rfl

end SbPacket

/-! ### Packets from the server -/

namespace CbPacket

def OpenEnded : CbPacket → Prop
  | featureFlags _ | handshakeResponse _ => True
  | _ => False

/-- What stands behind a header with the tag. -/
def Form (tag : UInt32) (p : CbPacket) (e : List UInt8) : Prop := p.dekuId = tag ∧ e = p.body

theorem decodes_ping : Decodes (read 10) (Form 10) OpenEnded := by
  have h : Decodes (read 10) _ OpenEnded :=
    (readsField_takeVector DekuError.incomplete 4).next fun challenge => decodes_done nofun
  refine h.congr fun p e => ?_
  cases p <;> simp [Layout, Form, dekuId, body]

theorem decodes_setConfigFlag : Decodes (read 25) (Form 25) OpenEnded := by
  have h : Decodes (read 25) _ OpenEnded :=
    (readsField_word UInt8).next fun sensorId => (readsField_word UInt16).next fun configType =>
    (readsField_word UInt8).next fun state => decodes_done nofun
  refine h.congr fun p e => ?_
  cases p <;> simp [Layout, Form, dekuId, body, and_assoc]

theorem decodes_read (tag : UInt32) : Decodes (read tag) (Form tag) OpenEnded := by
  by_cases h : tag ∈ ([0, 1, 10, 22, 25, 55076217] : List UInt32)
  · simp only [List.mem_cons, List.not_mem_nil, or_false] at h
    rcases h with rfl | rfl | rfl | rfl | rfl | rfl
    · refine (Decodes.pure nofun).congr fun p e => ?_
      cases p <;> simp [Form, dekuId, body]
    · refine (Decodes.pure nofun).congr fun p e => ?_
      cases p <;> simp [Form, dekuId, body]
    · exact decodes_ping
    · refine (decodes_tail fun _ => trivial).congr fun p e => ?_
      cases p <;> simp [Layout, Form, dekuId, body]
    · exact decodes_setConfigFlag
    · refine (decodes_tail fun _ => trivial).congr fun p e => ?_
      cases p <;> simp [Layout, Form, dekuId, body]
  · have hread : read tag = throw .parse := by
      unfold read
      split <;> simp_all
    rw [hread]
    refine (Decodes.throw DekuError.parse).congr fun p e => ?_
    have hid : p.dekuId ≠ tag := by
      intro ht
      apply h
      rw [← ht]
      cases p <;> simp [dekuId]
    simp [Form, hid]

end CbPacket

/-! ### Whole datagrams -/

section Datagrams

variable {D P : Type}

theorem decodes_readPacket {read : UInt32 → Reader DekuError D} {Form : UInt32 → D → List UInt8 → Prop}
    {Tail : D → Prop} (h : ∀ tag, Decodes (read tag) (Form tag) Tail) :
    Decodes (readPacket read) (fun t e => ∃ b, Form t.1 t.2.2 b ∧ e = toBe t.1 ++ toBe t.2.1 ++ b)
      fun t => Tail t.2.2 := by
  have hdata : ∀ (tag : UInt32) (seq : UInt64), Decodes (do let data ← read tag; return (tag, seq, data))
      (fun t e => ∃ d, Form tag d e ∧ t = (tag, seq, d)) fun t : UInt32 × UInt64 × D => Tail t.2.2 := by
    intro tag seq
    rw [bind_pure_comp]
    exact (h tag).map fun _ => Iff.rfl
  refine ((readsField_word UInt32).bind fun tag => (readsField_word UInt64).bind fun seq => hdata tag seq).congr ?_
  intro t e
  constructor
  · intro ⟨tag, e₁, e₂, ⟨_, he₁⟩, ⟨seq, e₃, b, ⟨_, he₃⟩, ⟨d, hform, ht⟩, he₂⟩, he⟩
    subst ht
    exact ⟨b, hform, by rw [he, he₂, he₁, he₃, List.append_assoc]⟩
  · intro ⟨b, hform, he⟩
    exact ⟨t.1, _, _, ⟨trivial, rfl⟩, ⟨t.2.1, _, b, ⟨trivial, rfl⟩, ⟨t.2.2, hform, rfl⟩, rfl⟩,
      by rw [he, List.append_assoc]⟩

variable {read : Reader DekuError P} {Form : P → List UInt8 → Prop} {Tail : P → Prop}

theorem deserializeFrom_eq_ok_iff (h : Decodes read Form Tail) {buf : List UInt8} {p : P} :
    deserializeFrom read buf = .ok p ↔ Form p buf := by
  have hrun : deserializeFrom read buf = .ok p ↔ read.run buf = .ok (p, []) := by
    unfold deserializeFrom
    split <;> simp_all
  rw [hrun, h]
  constructor
  · intro ⟨e, hform, _, he⟩
    rwa [he, List.append_nil]
  · intro hform
    exact ⟨buf, hform, fun _ => rfl, (List.append_nil buf).symm⟩

/-- Behind a packet that does not take all the bytes nothing may follow. -/
theorem deserializeFrom_leftover (h : Decodes read Form Tail) {buf extra : List UInt8} {p : P}
    (hp : deserializeFrom read buf = .ok p) (ht : ¬Tail p) (hextra : extra ≠ []) :
    deserializeFrom read (buf ++ extra) = .error .bytesRemaining := by
  have hform := (deserializeFrom_eq_ok_iff h).1 hp
  have hrun : read.run (buf ++ extra) = .ok (p, extra) := (h _ _ _).2 ⟨buf, hform, fun hp => absurd hp ht, rfl⟩
  obtain ⟨b, bs, rfl⟩ := List.exists_cons_of_ne_nil hextra
  rw [deserializeFrom, hrun]

end Datagrams

/-- A codec of packets that loses nothing: what was encoded is decoded to the same packet, what is decoded is encoded to
the same bytes, up to `cleared`, and nothing may follow a packet that does not take all the bytes. -/
structure Lossless {P D : Type} (new : UInt64 → D → P) (data : P → D) (toBytes : P → List UInt8)
    (deserializeFrom : List UInt8 → Except DeserializeError P) (Canonical OpenEnded : D → Prop)
    (cleared : P → List UInt8 → List UInt8) : Prop where
  decode_encode : ∀ seq d, Canonical d → deserializeFrom (toBytes (new seq d)) = .ok (new seq d)
  encode_decode : ∀ buf p, deserializeFrom buf = .ok p → toBytes p = cleared p buf
  leftover : ∀ buf p, deserializeFrom buf = .ok p → ¬OpenEnded (data p) → ∀ extra, extra ≠ [] →
    deserializeFrom (buf ++ extra) = .error .bytesRemaining

/-- A handshake with zeros in its padding, which stands behind the header and the board. -/
def clearPadding (p : Packet) (buf : List UInt8) : List UInt8 :=
  if p.tag = 3 then buf.take 16 ++ [0, 0, 0] ++ buf.drop 19 else buf

theorem decodes_packet :
    Decodes ((fun (tag, seq, data) => Packet.mk tag seq data) <$> readPacket SbPacket.read)
      (fun p e => ∃ b, SbPacket.Form p.tag p.data b ∧ e = toBe p.tag ++ toBe p.seq ++ b)
      fun p => p.data.OpenEnded := by
  have hmap : Decodes ((fun (tag, seq, data) => Packet.mk tag seq data) <$> readPacket SbPacket.read) _
    fun p => p.data.OpenEnded := (decodes_readPacket SbPacket.decodes_read).map (fun _ => Iff.rfl)
  refine hmap.congr fun p e => ?_
  constructor
  · rintro ⟨t, hform, rfl⟩
    exact hform
  · intro hform
    exact ⟨(p.tag, p.seq, p.data), hform, rfl⟩

theorem decodes_cbDatagram :
    Decodes ((fun (tag, seq, data) => CbDatagram.mk tag seq data) <$> readPacket CbPacket.read)
      (fun p e => ∃ b, CbPacket.Form p.tag p.data b ∧ e = toBe p.tag ++ toBe p.seq ++ b)
      fun p => p.data.OpenEnded := by
  have hmap : Decodes ((fun (tag, seq, data) => CbDatagram.mk tag seq data) <$> readPacket CbPacket.read) _
    fun p => p.data.OpenEnded := (decodes_readPacket CbPacket.decodes_read).map (fun _ => Iff.rfl)
  refine hmap.congr fun p e => ?_
  constructor
  · rintro ⟨t, hform, rfl⟩
    exact hform
  · intro hform
    exact ⟨(p.tag, p.seq, p.data), hform, rfl⟩

/-- Other bytes between the first part and the last one. -/
private theorem replace_middle {α : Type} {l m : List α} {i j : Nat} (hl : l.length = i) (hm : m.length + i = j)
    (m' r : List α) : (l ++ (m ++ r)).take i ++ m' ++ (l ++ (m ++ r)).drop j = l ++ (m' ++ r) := by
  have hlm : (l ++ m).length = j := by
    rw [List.length_append]
    omega
  rw [List.take_left' hl, ← List.append_assoc l m r, List.drop_left' hlm, List.append_assoc]

/-- The bytes of a decoded packet are the ones it was decoded from, up to the padding of a handshake. -/
theorem toBytes_eq_clearPadding {p : Packet} {pad : Vector UInt8 3} (htag : p.data.dekuId = p.tag) :
    p.toBytes = clearPadding p (toBe p.tag ++ toBe p.seq ++ p.data.bodyPadded pad) := by
  obtain ⟨tag, seq, data⟩ := p
  simp only at htag
  subst htag
  cases data with
  | handshake board imu mcu imuInfo protocolVersion firmware macAddress =>
    have hhead : (toBe (3 : UInt32) ++ toBe seq ++ toBe board.id).length = 16 := by simp
    have hpad : pad.toList.length + 16 = 19 := by simp
    have hcut := replace_middle hhead hpad [0, 0, 0] (imu.id :: (toBe mcu.id ++ toBe imuInfo.1.toUInt32 ++
      toBe imuInfo.2.1.toUInt32 ++ toBe imuInfo.2.2.toUInt32 ++ toBe protocolVersion.toUInt32 ++
      firmware.count :: firmware.data ++ macAddress.toList))
    simp only [clearPadding, Packet.toBytes, SbPacket.dekuId, SbPacket.body, SbPacket.bodyPadded, if_true,
      List.append_assoc] at hcut ⊢
    rw [hcut]
    rfl
  | _ => exact (if_neg (by simp [SbPacket.dekuId])).symm

/-- Both packet types have a codec that loses nothing but what stands in the padding of a handshake. -/
theorem packets_lossless :
    Lossless Packet.new Packet.data Packet.toBytes Packet.deserializeFrom SbPacket.Canonical SbPacket.OpenEnded
        clearPadding ∧
      Lossless CbDatagram.new CbDatagram.data CbDatagram.toBytes CbDatagram.deserializeFrom (fun _ => True)
        CbPacket.OpenEnded fun _ buf => buf := by
  constructor
  · constructor
    · intro seq d hd
      refine (deserializeFrom_eq_ok_iff decodes_packet).2 ⟨d.body, ⟨rfl, hd, _, (d.bodyPadded_zero).symm⟩, rfl⟩
    · intro buf p hp
      obtain ⟨b, ⟨htag, -, pad, rfl⟩, rfl⟩ := (deserializeFrom_eq_ok_iff decodes_packet).1 hp
      exact toBytes_eq_clearPadding htag
    · intro buf p hp ht extra hextra
      exact deserializeFrom_leftover decodes_packet hp ht hextra
  · constructor
    · intro seq d _
      exact (deserializeFrom_eq_ok_iff decodes_cbDatagram).2 ⟨d.body, ⟨rfl, rfl⟩, rfl⟩
    · intro buf p hp
      obtain ⟨b, ⟨-, rfl⟩, rfl⟩ := (deserializeFrom_eq_ok_iff decodes_cbDatagram).1 hp
      rfl
    · intro buf p hp ht extra hextra
      exact deserializeFrom_leftover decodes_cbDatagram hp ht hextra

end EverythingImu.SlimeTracker
