import EverythingImu.Library.Buffer

/-!
# Bundles

`encode_bundle` and `decode_bundle` (`lib.rs`): a datagram with the tag 100 and its own sequence number that carries
any number of inner packets, each with a 16-bit length that counts the four bytes of its type.

A string is decoded exactly when it is the encoding of what it is decoded to (`decodeBundle_eq_ok_iff`), and the
decoder never reads outside its buffer (`decodeBundle_ne_panic`).
-/

namespace EverythingImu.SlimeTracker

open Buffer Words

def BUNDLE_TAG : UInt32 := 100

/-- The error of the encoder. -/
inductive SerializeError where
  | bufferTooSmall
deriving DecidableEq

/-- The errors of a derived decoder: the input ends early, or a tag or an id is unknown. -/
inductive DekuError where
  | incomplete
  | parse
deriving DecidableEq

/-- The errors of the decoders. -/
inductive DeserializeError where
  | deku (error : DekuError)
  | bytesRemaining
  | truncated
  | wrongTag (tag : UInt32)
deriving DecidableEq

/-- One inner packet: its type and its payload. -/
abbrev BundleInner := UInt32 × List UInt8

def encodeInners : List BundleInner → Outcome SerializeError (List UInt8)
  | [] => .ok []
  | (innerType, payload) :: inners =>
    let innerLen := 4 + payload.length
    if innerLen > 0xFFFF then .fail .bufferTooSmall
    else do
      let rest ← encodeInners inners
      return toBe (UInt16.ofNat innerLen) ++ toBe innerType ++ payload ++ rest

def encodeBundle (seq : UInt64) (inners : List BundleInner) : Outcome SerializeError (List UInt8) := do
  let body ← encodeInners inners
  return toBe BUNDLE_TAG ++ toBe seq ++ body

/-- The loop of `decode_bundle` from `cursor` on. -/
def decodeInners (buf : List UInt8) (cursor : Nat) : Outcome DeserializeError (List BundleInner) :=
  if cursor < buf.length then
    if buf.length < cursor + 6 then .fail .truncated
    else do
      let innerLen := (← beWord UInt16 buf cursor).toNat
      if innerLen < 4 ∨ buf.length < cursor + 2 + innerLen then .fail .truncated
      else do
        let innerType ← beWord UInt32 buf (cursor + 2)
        let payloadLen := innerLen - 4
        let payload ← slice buf (cursor + 6) (cursor + 6 + payloadLen)
        let out ← decodeInners buf (cursor + 6 + payloadLen)
        return (innerType, payload) :: out
  else .ok []
termination_by buf.length - cursor

def decodeBundle (buf : List UInt8) : Outcome DeserializeError (UInt64 × List BundleInner) :=
  if buf.length < 12 then .fail .truncated
  else do
    let tag ← beWord UInt32 buf 0
    if tag ≠ BUNDLE_TAG then .fail (.wrongTag tag)
    else do
      let seqBytes ← copyFromSlice 8 (← slice buf 4 12)
      let out ← decodeInners buf 12
      return (ofBe seqBytes.toList, out)

/-! ### One inner packet -/

/-- The length field at the start of an inner packet. -/
private def lenField (x : List UInt8) : Nat := (ofBe (portion x 0 2) : UInt16).toNat

/-- The rest of the buffer starts with a whole inner packet. -/
private def Whole (x : List UInt8) : Prop := 6 ≤ x.length ∧ 4 ≤ lenField x ∧ 2 + lenField x ≤ x.length

private theorem portion_drop (buf : List UInt8) (cursor o n : Nat) :
    portion (buf.drop cursor) o n = portion buf (cursor + o) n := by
  rw [portion, portion, List.drop_drop]

/-- A truncated inner packet is rejected. -/
private theorem decodeInners_truncated {buf : List UInt8} {cursor : Nat} (h : cursor < buf.length)
    (hw : ¬ Whole (buf.drop cursor)) : decodeInners buf cursor = .fail .truncated := by
  have hlen : (buf.drop cursor).length = buf.length - cursor := List.length_drop
  rw [decodeInners, if_pos h]
  by_cases h6 : buf.length < cursor + 6
  · rw [if_pos h6]
  · have hread : cursor + Word.width UInt16 ≤ buf.length := by
      show cursor + 2 ≤ buf.length
      omega
    rw [if_neg h6, beWord_eq hread, Outcome.ok_bind]
    have hfield : (ofBe (portion buf cursor (Word.width UInt16)) : UInt16).toNat = lenField (buf.drop cursor) := by
      rw [lenField, portion_drop]
      rfl
    rw [hfield]
    have hshort : ¬ (4 ≤ lenField (buf.drop cursor) ∧ 2 + lenField (buf.drop cursor) ≤ buf.length - cursor) := by
      rintro ⟨h4, hfit⟩
      exact hw ⟨by omega, h4, by omega⟩
    refine if_pos ?_
    omega

/-- A whole inner packet is read, and the loop goes on behind it. -/
private theorem decodeInners_whole {buf : List UInt8} {cursor : Nat} (hw : Whole (buf.drop cursor)) :
    decodeInners buf cursor = do
      let out ← decodeInners buf (cursor + 2 + lenField (buf.drop cursor))
      return (ofBe (portion (buf.drop cursor) 2 4),
        portion (buf.drop cursor) 6 (lenField (buf.drop cursor) - 4)) :: out := by
  have hlen : (buf.drop cursor).length = buf.length - cursor := List.length_drop
  obtain ⟨h6, h4, hfit⟩ := hw
  have hcur : cursor < buf.length := by omega
  have hread : cursor + Word.width UInt16 ≤ buf.length := by
    show cursor + 2 ≤ buf.length
    omega
  have htype : cursor + 2 + Word.width UInt32 ≤ buf.length := by
    show cursor + 2 + 4 ≤ buf.length
    omega
  have hfield : (ofBe (portion buf cursor (Word.width UInt16)) : UInt16).toNat = lenField (buf.drop cursor) := by
    rw [lenField, portion_drop]
    rfl
  have hnext : cursor + 6 + (lenField (buf.drop cursor) - 4) = cursor + 2 + lenField (buf.drop cursor) := by omega
  have hend : cursor + 6 + (lenField (buf.drop cursor) - 4) ≤ buf.length := by omega
  have hn6 : ¬ buf.length < cursor + 6 := by omega
  have hok : ¬ (lenField (buf.drop cursor) < 4 ∨ buf.length < cursor + 2 + lenField (buf.drop cursor)) := by omega
  rw [decodeInners, if_pos hcur, if_neg hn6, beWord_eq hread, Outcome.ok_bind]
  simp only
  rw [hfield, if_neg hok, beWord_eq htype, Outcome.ok_bind, slice_eq hend, Outcome.ok_bind, hnext, portion_drop,
    portion_drop]
  rfl

/-- A string is the encoding of an inner packet in front of the rest exactly when it starts with a whole inner
packet. -/
private theorem encodeInner_iff {x tail payload : List UInt8} {innerType : UInt32}
    (hfit : 4 + payload.length ≤ 0xFFFF) :
    toBe (UInt16.ofNat (4 + payload.length)) ++ toBe innerType ++ payload ++ tail = x ↔
      Whole x ∧ ofBe (portion x 2 4) = innerType ∧ portion x 6 (lenField x - 4) = payload ∧
        x.drop (2 + lenField x) = tail := by
  constructor
  · rintro rfl
    have hl2 : (toBe (UInt16.ofNat (4 + payload.length))).length = 2 := length_toBe _
    have hl4 : (toBe innerType).length = 4 := length_toBe _
    have hfield : lenField (toBe (UInt16.ofNat (4 + payload.length)) ++ toBe innerType ++ payload ++ tail) =
        4 + payload.length := by
      rw [lenField, List.append_assoc, List.append_assoc, portion_append_left (by omega), portion_self hl2, ofBe_toBe,
        UInt16.toNat_ofNat_of_lt' (by show 4 + payload.length < 65536; omega)]
    refine ⟨⟨?_, ?_, ?_⟩, ?_, ?_, ?_⟩
    · simp only [List.length_append, hl2, hl4]
      omega
    · omega
    · rw [hfield]
      simp only [List.length_append, hl2, hl4]
      omega
    · rw [List.append_assoc, portion_append_left (by simp only [List.length_append, hl2, hl4]; omega),
        portion_append_right (by omega), hl2, portion_self hl4, ofBe_toBe]
    · have hlen : 4 + payload.length - 4 = payload.length := by omega
      rw [hfield, hlen, portion_append_left (by simp only [List.length_append, hl2, hl4]; omega),
        portion_append_right (by simp only [List.length_append, hl2, hl4]; omega)]
      simp only [List.length_append, hl2, hl4]
      exact portion_self rfl
    · have hlen : (toBe (UInt16.ofNat (4 + payload.length)) ++ toBe innerType ++ payload).length =
          2 + (4 + payload.length) := by
        simp only [List.length_append, hl2, hl4]
        omega
      rw [hfield, ← hlen, List.drop_left]
  · rintro ⟨⟨h6, h4, hlen⟩, rfl, rfl, rfl⟩
    have hpay : (portion x 6 (lenField x - 4)).length = lenField x - 4 := length_portion (by omega)
    have hadd : 4 + (lenField x - 4) = lenField x := by omega
    have hfield : toBe (UInt16.ofNat (lenField x)) = portion x 0 2 := by
      rw [lenField, UInt16.ofNat_toNat]
      exact toBe_ofBe (length_portion (by omega))
    have htype : toBe (ofBe (portion x 2 4) : UInt32) = portion x 2 4 := toBe_ofBe (length_portion (by omega))
    have hend : 2 + lenField x = 0 + 2 + 4 + (lenField x - 4) := by omega
    rw [hpay, hadd, hfield, htype, hend]
    have hx : x = portion x 0 (2 + 4 + (lenField x - 4)) ++ x.drop (0 + (2 + 4 + (lenField x - 4))) := by
      rw [← drop_eq_portion_append, List.drop_zero]
    rw [portion_add, portion_add] at hx
    rw [Nat.add_assoc 0, Nat.add_assoc 0]
    exact hx.symm

/-! ### The loop -/

theorem decodeInners_ne_panic (buf : List UInt8) (cursor : Nat) : decodeInners buf cursor ≠ .panic := by
  by_cases hcur : cursor < buf.length
  · by_cases hw : Whole (buf.drop cursor)
    · rw [decodeInners_whole hw]
      exact Outcome.bind_ne_panic (decodeInners_ne_panic buf _) fun _ _ => nofun
    · rw [decodeInners_truncated hcur hw]
      nofun
  · rw [decodeInners, if_neg hcur]
    nofun
termination_by buf.length - cursor
decreasing_by omega

/-- The loop returns a list exactly when it reads the head of the list and returns its tail behind it. -/
private theorem decodeInners_eq_cons_iff {buf payload : List UInt8} {cursor : Nat} {innerType : UInt32}
    {inners : List BundleInner} :
    decodeInners buf cursor = .ok ((innerType, payload) :: inners) ↔
      Whole (buf.drop cursor) ∧ ofBe (portion (buf.drop cursor) 2 4) = innerType ∧
        portion (buf.drop cursor) 6 (lenField (buf.drop cursor) - 4) = payload ∧
        decodeInners buf (cursor + 2 + lenField (buf.drop cursor)) = .ok inners := by
  by_cases hw : Whole (buf.drop cursor)
  · rw [decodeInners_whole hw, Outcome.bind_eq_ok]
    constructor
    · rintro ⟨out, hout, hcons⟩
      simp only [Outcome.pure_eq, Outcome.ok.injEq, List.cons.injEq, Prod.mk.injEq] at hcons
      obtain ⟨⟨htype, hpayload⟩, rfl⟩ := hcons
      exact ⟨hw, htype, hpayload, hout⟩
    · rintro ⟨-, rfl, rfl, hout⟩
      exact ⟨inners, hout, rfl⟩
  · constructor
    · intro hdec
      rcases Nat.lt_or_ge cursor buf.length with hlt | hge
      · rw [decodeInners_truncated hlt hw] at hdec
        cases hdec
      · rw [decodeInners, if_neg (by omega)] at hdec
        cases hdec
    · rintro ⟨hw', -⟩
      exact absurd hw' hw

/-- A string encodes a list exactly when it starts with the head of the list and encodes its tail behind it. -/
private theorem encodeInners_eq_cons_iff {x payload : List UInt8} {innerType : UInt32} {inners : List BundleInner} :
    encodeInners ((innerType, payload) :: inners) = .ok x ↔
      Whole x ∧ ofBe (portion x 2 4) = innerType ∧ portion x 6 (lenField x - 4) = payload ∧
        encodeInners inners = .ok (x.drop (2 + lenField x)) := by
  rw [encodeInners]
  by_cases hfit : 4 + payload.length > 0xFFFF
  · rw [if_pos hfit]
    constructor
    · nofun
    · rintro ⟨⟨h6, h4, hlen⟩, -, rfl, -⟩
      have hpay : (portion x 6 (lenField x - 4)).length = lenField x - 4 := length_portion (by omega)
      have hfield : lenField x < 65536 := (ofBe (portion x 0 2) : UInt16).toNat_lt
      omega
  · have hfit' : 4 + payload.length ≤ 0xFFFF := by omega
    rw [if_neg hfit, Outcome.bind_eq_ok]
    constructor
    · rintro ⟨rest, hrest, hx⟩
      simp only [Outcome.pure_eq, Outcome.ok.injEq] at hx
      obtain ⟨hw, htype, hpayload, hdrop⟩ := (encodeInner_iff hfit').1 hx
      exact ⟨hw, htype, hpayload, hdrop ▸ hrest⟩
    · rintro ⟨hw, htype, hpayload, hrest⟩
      refine ⟨_, hrest, ?_⟩
      rw [Outcome.pure_eq, (encodeInner_iff hfit').2 ⟨hw, htype, hpayload, rfl⟩]

/-- What the loop returns is what the rest of the buffer encodes. -/
theorem decodeInners_eq_ok_iff {buf : List UInt8} {cursor : Nat} {inners : List BundleInner}
    (hcur : cursor ≤ buf.length) :
    decodeInners buf cursor = .ok inners ↔ encodeInners inners = .ok (buf.drop cursor) := by
  induction inners generalizing cursor with
  | nil =>
    rw [encodeInners, Outcome.ok.injEq, eq_comm (a := []), List.drop_eq_nil_iff]
    constructor
    · intro hdec
      rcases Nat.lt_or_ge cursor buf.length with hlt | hge
      · by_cases hw : Whole (buf.drop cursor)
        · rw [decodeInners_whole hw, Outcome.bind_eq_ok] at hdec
          obtain ⟨out, -, hcons⟩ := hdec
          cases hcons
        · rw [decodeInners_truncated hlt hw] at hdec
          cases hdec
      · exact hge
    · intro hend
      rw [decodeInners, if_neg (by omega)]
  | cons inner inners ih =>
    obtain ⟨innerType, payload⟩ := inner
    rw [decodeInners_eq_cons_iff, encodeInners_eq_cons_iff]
    refine and_congr_right fun hw => and_congr_right fun _ => and_congr_right fun _ => ?_
    have hlen : (buf.drop cursor).length = buf.length - cursor := List.length_drop
    obtain ⟨-, -, hfit⟩ := hw
    rw [ih (by omega), List.drop_drop, Nat.add_assoc]

/-! ### The whole bundle -/

/-- A buffer with the header of a bundle is decoded as its sequence number and its inner packets. -/
private theorem decodeBundle_of_header {buf : List UInt8} (h12 : 12 ≤ buf.length)
    (htag : (ofBe (portion buf 0 4) : UInt32) = BUNDLE_TAG) :
    decodeBundle buf = do
      let out ← decodeInners buf 12
      return (ofBe (portion buf 4 8), out) := by
  have hn : ¬ buf.length < 12 := by omega
  have hread : 0 + Word.width UInt32 ≤ buf.length := by
    show 0 + 4 ≤ buf.length
    omega
  have hseq : (portion buf 4 8).length = 8 := length_portion (by omega)
  have htag' : ¬ (ofBe (portion buf 0 (Word.width UInt32)) : UInt32) ≠ BUNDLE_TAG := not_not_intro htag
  rw [decodeBundle, if_neg hn, beWord_eq hread, Outcome.ok_bind, if_neg htag', slice_eq (by omega : 4 + 8 ≤ buf.length),
    Outcome.ok_bind, copyFromSlice_eq hseq, Outcome.ok_bind]
  rfl

/-- A buffer without the header of a bundle is rejected. -/
private theorem decodeBundle_of_not_header {buf : List UInt8}
    (h : ¬ (12 ≤ buf.length ∧ (ofBe (portion buf 0 4) : UInt32) = BUNDLE_TAG)) :
    ∃ e, decodeBundle buf = .fail e := by
  by_cases h12 : buf.length < 12
  · exact ⟨.truncated, by rw [decodeBundle, if_pos h12]⟩
  · have hread : 0 + Word.width UInt32 ≤ buf.length := by
      show 0 + 4 ≤ buf.length
      omega
    have htag : (ofBe (portion buf 0 (Word.width UInt32)) : UInt32) ≠ BUNDLE_TAG := fun htag => h ⟨by omega, htag⟩
    refine ⟨.wrongTag (ofBe (portion buf 0 4)), ?_⟩
    rw [decodeBundle, if_neg h12, beWord_eq hread, Outcome.ok_bind, if_pos htag]
    rfl

theorem decodeBundle_ne_panic (buf : List UInt8) : decodeBundle buf ≠ .panic := by
  by_cases h : 12 ≤ buf.length ∧ (ofBe (portion buf 0 4) : UInt32) = BUNDLE_TAG
  · rw [decodeBundle_of_header h.1 h.2]
    exact Outcome.bind_ne_panic (decodeInners_ne_panic buf 12) fun _ _ => nofun
  · obtain ⟨e, he⟩ := decodeBundle_of_not_header h
    rw [he]
    nofun

/-- A string encodes a bundle exactly when it starts with the header and encodes the inner packets behind it. -/
private theorem encodeBundle_eq_ok_iff {buf : List UInt8} {seq : UInt64} {inners : List BundleInner} :
    encodeBundle seq inners = .ok buf ↔
      12 ≤ buf.length ∧ (ofBe (portion buf 0 4) : UInt32) = BUNDLE_TAG ∧ (ofBe (portion buf 4 8) : UInt64) = seq ∧
        encodeInners inners = .ok (buf.drop 12) := by
  rw [encodeBundle, Outcome.bind_eq_ok]
  constructor
  · rintro ⟨body, hbody, hbuf⟩
    simp only [Outcome.pure_eq, Outcome.ok.injEq] at hbuf
    subst hbuf
    have ht : (toBe BUNDLE_TAG).length = 4 := length_toBe _
    have hs : (toBe seq).length = 8 := length_toBe _
    have hhead : (toBe BUNDLE_TAG ++ toBe seq).length = 12 := by rw [List.length_append, ht, hs]
    refine ⟨?_, ?_, ?_, ?_⟩
    · rw [List.length_append]
      omega
    · rw [List.append_assoc, portion_append_left (by omega), portion_self ht, ofBe_toBe]
    · rw [List.append_assoc, portion_append_right (by omega), ht, portion_append_left (by omega), portion_self hs,
        ofBe_toBe]
    · rw [← hhead, List.drop_left]
      exact hbody
  · rintro ⟨h12, htag, rfl, hbody⟩
    refine ⟨_, hbody, ?_⟩
    have ht : toBe BUNDLE_TAG = portion buf 0 4 := by
      rw [← htag]
      exact toBe_ofBe (length_portion (by omega))
    have hs : toBe (ofBe (portion buf 4 8) : UInt64) = portion buf 4 8 := toBe_ofBe (length_portion (by omega))
    have hbuf : buf = portion buf 0 (4 + 8) ++ buf.drop (0 + (4 + 8)) := by
      rw [← drop_eq_portion_append, List.drop_zero]
    rw [portion_add] at hbuf
    rw [Outcome.pure_eq, ht, hs]
    exact congrArg _ hbuf.symm

/-- What is decoded is what was encoded. -/
theorem decodeBundle_eq_ok_iff {buf : List UInt8} {seq : UInt64} {inners : List BundleInner} :
    decodeBundle buf = .ok (seq, inners) ↔ encodeBundle seq inners = .ok buf := by
  rw [encodeBundle_eq_ok_iff]
  by_cases h : 12 ≤ buf.length ∧ (ofBe (portion buf 0 4) : UInt32) = BUNDLE_TAG
  · rw [decodeBundle_of_header h.1 h.2, Outcome.bind_eq_ok]
    constructor
    · rintro ⟨out, hout, heq⟩
      simp only [Outcome.pure_eq, Outcome.ok.injEq, Prod.mk.injEq] at heq
      obtain ⟨hseq, rfl⟩ := heq
      exact ⟨h.1, h.2, hseq, (decodeInners_eq_ok_iff h.1).1 hout⟩
    · rintro ⟨-, -, rfl, hbody⟩
      exact ⟨inners, (decodeInners_eq_ok_iff h.1).2 hbody, rfl⟩
  · obtain ⟨e, he⟩ := decodeBundle_of_not_header h
    rw [he]
    constructor
    · nofun
    · rintro ⟨h12, htag, -⟩
      exact absurd ⟨h12, htag⟩ h

/-- The encoder fails exactly on a payload that does not fit the length field. -/
theorem encodeBundle_isOk_iff {seq : UInt64} {inners : List BundleInner} :
    (∃ buf, encodeBundle seq inners = .ok buf) ↔ ∀ inner ∈ inners, 4 + inner.2.length ≤ 0xFFFF := by
  have hinners : (∃ body, encodeInners inners = .ok body) ↔ ∀ inner ∈ inners, 4 + inner.2.length ≤ 0xFFFF := by
    induction inners with
    | nil => exact ⟨fun _ _ => nofun, fun _ => ⟨[], rfl⟩⟩
    | cons inner inners ih =>
      obtain ⟨innerType, payload⟩ := inner
      rw [List.forall_mem_cons, ← ih, encodeInners]
      show _ ↔ 4 + payload.length ≤ 0xFFFF ∧ _
      by_cases hfit : 4 + payload.length > 0xFFFF
      · rw [if_pos hfit]
        constructor
        · rintro ⟨_, hfail⟩
          cases hfail
        · rintro ⟨hle, -⟩
          omega
      · rw [if_neg hfit]
        constructor
        · rintro ⟨body, hbody⟩
          obtain ⟨rest, hrest, -⟩ := Outcome.bind_eq_ok.1 hbody
          exact ⟨by omega, rest, hrest⟩
        · rintro ⟨-, rest, hrest⟩
          exact ⟨_, Outcome.bind_eq_ok.2 ⟨rest, hrest, rfl⟩⟩
  rw [← hinners, encodeBundle]
  constructor
  · rintro ⟨buf, hbuf⟩
    obtain ⟨body, hbody, -⟩ := Outcome.bind_eq_ok.1 hbuf
    exact ⟨body, hbody⟩
  · rintro ⟨body, hbody⟩
    exact ⟨_, Outcome.bind_eq_ok.2 ⟨body, hbody, rfl⟩⟩

/-- Framing round-trips: encoding and decoding are inverse to each other on everything that fits, and the decoder
ends on every string, inside its buffer, with an error unless the string is an encoding. -/
theorem bundle_roundTrip :
    (∀ seq inners, (∀ inner ∈ inners, 4 + inner.2.length ≤ 0xFFFF) →
      ∃ buf, encodeBundle seq inners = .ok buf ∧ decodeBundle buf = .ok (seq, inners)) ∧
      (∀ buf seq inners, decodeBundle buf = .ok (seq, inners) → encodeBundle seq inners = .ok buf) ∧
      (∀ buf, decodeBundle buf ≠ .panic) ∧
      ∀ buf, (∀ seq inners, encodeBundle seq inners ≠ .ok buf) → ∃ e, decodeBundle buf = .fail e := by
  refine ⟨?_, ?_, decodeBundle_ne_panic, ?_⟩
  · intro seq inners hfit
    obtain ⟨buf, hbuf⟩ := encodeBundle_isOk_iff.2 hfit
    exact ⟨buf, hbuf, decodeBundle_eq_ok_iff.2 hbuf⟩
  · intro buf seq inners hdec
    exact decodeBundle_eq_ok_iff.1 hdec
  · intro buf hnot
    cases hdec : decodeBundle buf with
    | panic => exact absurd hdec (decodeBundle_ne_panic buf)
    | fail e => exact ⟨e, rfl⟩
    | ok res => exact absurd (decodeBundle_eq_ok_iff.1 hdec) (hnot res.1 res.2)

/-- Two inner packets, the second without a payload. -/
example : encodeBundle 7 [(17, [1, 2]), (4, [])] =
    .ok [0, 0, 0, 100, 0, 0, 0, 0, 0, 0, 0, 7, 0, 6, 0, 0, 0, 17, 1, 2, 0, 4, 0, 0, 0, 4] := by
  decide

end EverythingImu.SlimeTracker
