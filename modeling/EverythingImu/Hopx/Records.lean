import EverythingImu.Hopx.RecordParser
import EverythingImu.Library.Scalar

/-!
# Records through the parser

A tracker that sends nothing but records: each is a marker, a sequence number, and the six channels as words, the gyro
first.  Every prefix of such a stream scans to its complete records, and what is left is the beginning of the next one;
so the parser gives the records back from whatever chunks the stream comes in (`records_roundTrip`).  For any input the
parser keeps less than one record, from a marker on (`feed_keeps_less`).
-/

namespace EverythingImu.Hopx

open LittleEndian StreamScan

/-- A record as the tracker means it. -/
structure Record where
  seq : UInt8
  gyro : Vector Int16 3
  accel : Vector Int16 3
deriving DecidableEq

namespace Record

/-- The channels in wire order. -/
def channels (r : Record) : List Int16 := r.gyro.toList ++ r.accel.toList

def encode (r : Record) : List UInt8 := FRAME_MARKER :: r.seq :: r.channels.flatMap putI16

/-- The record without its scales. -/
def raw (r : Record) : RawRecord := ⟨r.seq, r.channels⟩

/-- The record in SI units. -/
def parsed (r : Record) : ParsedRecord where
  seq := r.seq
  accel := r.accel.map fun x => Float32.ofInt x.toInt * ACCEL_M_S2_PER_LSB
  gyro := r.gyro.map fun x => Float32.ofInt x.toInt * GYRO_RAD_S_PER_LSB

theorem encode_length (r : Record) : r.encode.length = RECORD_LEN := by
  unfold encode channels
  rw [List.length_cons, List.length_cons, length_flatMap_putI16, List.length_append, Vector.length_toList,
    Vector.length_toList]
  rfl

/-- As many bytes as a record has, from a marker on, are a record. -/
theorem exists_encode_eq (bytes : List UInt8) (hlen : bytes.length = RECORD_LEN)
    (hhead : bytes.head? = some FRAME_MARKER) : ∃ r : Record, r.encode = bytes := by
  match bytes, hlen, hhead with
  | b :: seq :: words, hlen, hhead =>
    obtain rfl : b = FRAME_MARKER := Option.some.inj hhead
    have hwords : words.length = 2 * 6 := Nat.add_right_cancel (show words.length + 2 = 12 + 2 from hlen)
    obtain ⟨xs, hxs, rfl⟩ := exists_flatMap_putI16 6 words hwords
    have hgyro : (xs.take 3).toArray.size = 3 := by
      rw [List.size_toArray, List.length_take]
      omega
    have haccel : (xs.drop 3).toArray.size = 3 := by
      rw [List.size_toArray, List.length_drop]
      omega
    refine ⟨⟨seq, ⟨(xs.take 3).toArray, hgyro⟩, ⟨(xs.drop 3).toArray, haccel⟩⟩, ?_⟩
    unfold encode channels
    show FRAME_MARKER :: seq :: (xs.take 3 ++ xs.drop 3).flatMap putI16 = _
    rw [List.take_append_drop]

def chunk (r : Record) : Chunk := ⟨r.encode.toArray, r.encode_length⟩

theorem toList_chunk (r : Record) : r.chunk.toList = r.encode := rfl

theorem channels_eq (r : Record) :
    r.channels = [r.gyro.x, r.gyro.y, r.gyro.z, r.accel.x, r.accel.y, r.accel.z] := by
  have hgyro : r.gyro.toList = [r.gyro.x, r.gyro.y, r.gyro.z] := congrArg Vector.toList r.gyro.eq_coordinates
  have haccel : r.accel.toList = [r.accel.x, r.accel.y, r.accel.z] := congrArg Vector.toList r.accel.eq_coordinates
  unfold channels
  rw [hgyro, haccel]
  rfl

/-- The words of an encoded record are its channels. -/
theorem readI16_encode (r : Record) (i : Nat) {o : Nat} (ho : o = 2 * i + 2) :
    readI16 r.encode o = r.channels.getD i 0 := by
  subst ho
  exact readI16_flatMap r.channels i

theorem readI16x3_gyro (r : Record) : readI16x3 r.encode 2 = r.gyro := by
  have hx : readI16 r.encode 2 = r.gyro.x := by
    rw [r.readI16_encode 0 rfl, r.channels_eq, List.getD_cons_zero]
  have hy : readI16 r.encode (2 + 2) = r.gyro.y := by
    rw [r.readI16_encode 1 rfl, r.channels_eq, List.getD_cons_succ, List.getD_cons_zero]
  have hz : readI16 r.encode (2 + 4) = r.gyro.z := by
    rw [r.readI16_encode 2 rfl, r.channels_eq, List.getD_cons_succ, List.getD_cons_succ, List.getD_cons_zero]
  simp only [readI16x3, hx, hy, hz]
  exact r.gyro.eq_coordinates.symm

theorem readI16x3_accel (r : Record) : readI16x3 r.encode 8 = r.accel := by
  have hx : readI16 r.encode 8 = r.accel.x := by
    rw [r.readI16_encode 3 rfl, r.channels_eq]
    rfl
  have hy : readI16 r.encode (8 + 2) = r.accel.y := by
    rw [r.readI16_encode 4 rfl, r.channels_eq]
    rfl
  have hz : readI16 r.encode (8 + 4) = r.accel.z := by
    rw [r.readI16_encode 5 rfl, r.channels_eq]
    rfl
  simp only [readI16x3, hx, hy, hz]
  exact r.accel.eq_coordinates.symm

/-- Every field of an encoded record is decoded. -/
theorem parseRecord_chunk (r : Record) : parseRecord r.chunk = r.parsed := by
  have hseq : r.chunk.toList.getD 1 0 = r.seq := rfl
  unfold parseRecord
  rw [hseq, toList_chunk, readI16x3_gyro, readI16x3_accel]
  simp only [remapAxes]
  unfold parsed
  rfl

theorem parseRaw_chunk (r : Record) : parseRaw r.chunk = r.raw := by
  have hseq : r.chunk.toList.getD 1 0 = r.seq := rfl
  unfold parseRaw raw
  rw [hseq, toList_chunk, List.map_cons, List.map_cons, List.map_cons, List.map_cons, List.map_cons, List.map_cons,
    List.map_nil, r.readI16_encode 0 rfl, r.readI16_encode 1 rfl, r.readI16_encode 2 rfl, r.readI16_encode 3 rfl,
    r.readI16_encode 4 rfl, r.readI16_encode 5 rfl, r.channels_eq]
  congr 1

end Record

/-! ### A clean stream -/

section Clean

variable {rs : List Record} {x y : List UInt8}

/-- What follows a record in a clean stream is a marker, if it is there yet. -/
theorem head?_clean (h : x ++ y = rs.flatMap Record.encode) : x.head?.all (· = FRAME_MARKER) = true := by
  cases x with
  | nil => rfl
  | cons b x =>
    cases rs with
    | nil => cases h
    | cons r rs =>
      have hb : b = FRAME_MARKER := (List.cons.inj h).1
      simpa using hb

theorem dropWhile_of_head? (h : x.head?.all (· = FRAME_MARKER) = true) : x.dropWhile (· != FRAME_MARKER) = x := by
  cases x with
  | nil => rfl
  | cons b x =>
    have hb : b = FRAME_MARKER := by simpa using h
    rw [List.dropWhile_cons_of_neg (by simp [hb])]

/-- The beginning of a record waits. -/
theorem scanChunk_of_short (h : x.head?.all (· = FRAME_MARKER) = true) (hlen : x.length < RECORD_LEN) :
    scanChunk x = .stop x := by
  unfold scanChunk
  rw [dropWhile_of_head? h, scanFrame_of_short hlen]

/-- A record in front of the next marker, or of nothing, is taken. -/
theorem scanChunk_encode (r : Record) (h : x.head?.all (· = FRAME_MARKER) = true) :
    scanChunk (r.encode ++ x) = .record r.chunk x := by
  refine scanChunk_eq_record_iff.2 ⟨dropWhile_of_head? (by rfl), ?_⟩
  cases x with
  | nil => rfl
  | cons b x =>
    have hb : b = FRAME_MARKER := by simpa using h
    simp [isMarker, hb]

/-- A prefix of a clean stream drains to its complete records; what is left begins the next record. -/
theorem drain_clean (h : x ++ y = rs.flatMap Record.encode) :
    ∃ done left rest, rs = done ++ left ∧ chunkScanner.drain x = (done.map Record.chunk, rest) ∧
      rest ++ y = left.flatMap Record.encode := by
  induction rs generalizing x with
  | nil =>
    obtain ⟨rfl, rfl⟩ := List.append_eq_nil_iff.1 h
    exact ⟨[], [], [], rfl, Scanner.drain_of_stop rfl, rfl⟩
  | cons r rs ih =>
    have hhead := head?_clean h
    by_cases hlen : x.length < RECORD_LEN
    · exact ⟨[], r :: rs, x, rfl, Scanner.drain_of_stop (scanChunk_of_short hhead hlen), h⟩
    · -- the first record is complete
      have hle : r.encode.length ≤ x.length := by
        rw [r.encode_length]
        omega
      have hx : r.encode ++ x.drop RECORD_LEN = x := by
        have htake := congrArg (List.take RECORD_LEN) h
        rw [List.take_append_of_le_length (by omega), List.flatMap_cons, ← r.encode_length, List.take_left] at htake
        rw [← htake, r.encode_length, List.take_append_drop]
      have hrest : x.drop RECORD_LEN ++ y = rs.flatMap Record.encode := by
        rw [← hx, List.append_assoc, List.flatMap_cons] at h
        exact List.append_cancel_left h
      obtain ⟨done, left, rest, rfl, hdrain, hleft⟩ := ih hrest
      refine ⟨r :: done, left, rest, rfl, ?_, hleft⟩
      have hscan := scanChunk_encode r (head?_clean hrest)
      rw [hx] at hscan
      rw [Scanner.drain_of_record hscan, hdrain]
      rfl

end Clean

/-! ### The parser -/

namespace RecordParser

/-- The parser keeps less than one record, from a marker on. -/
private theorem drain_keeps_less (buf : List UInt8) :
    (chunkScanner.drain buf).2.length < RECORD_LEN ∧
      (chunkScanner.drain buf).2.head?.all (· = FRAME_MARKER) = true := by
  induction buf using chunkScanner.scan_induction with
  | stop buf rest hscan =>
    rw [Scanner.drain_of_stop hscan]
    obtain ⟨rfl, hlen⟩ := scanChunk_eq_stop hscan
    refine ⟨hlen, ?_⟩
    cases hhead : (buf.dropWhile (· != FRAME_MARKER)).head? with
    | none => rfl
    | some b =>
      have hb := List.head?_dropWhile_not (· != FRAME_MARKER) buf
      rw [hhead] at hb
      simpa using hb
  | skip buf rest hscan ih => rwa [Scanner.drain_of_skip hscan]
  | last buf r hscan =>
    have hnil : chunkScanner.drain [] = ([], []) := Scanner.drain_of_stop rfl
    rw [Scanner.drain_of_record hscan, hnil]
    exact ⟨Nat.succ_pos _, rfl⟩
  | record buf r rest hscan hrest ih => rwa [Scanner.drain_of_record hscan]

theorem feed_keeps_less (p : RecordParser) (data : List UInt8) :
    (p.feed data).2.buf.length < RECORD_LEN ∧ (p.feed data).2.buf.head?.all (· = FRAME_MARKER) = true :=
  drain_keeps_less (p.buf ++ data)

/-- One notification of a clean stream. -/
theorem feed_clean {p : RecordParser} {rs : List Record} {data y : List UInt8}
    (h : p.buf ++ data ++ y = rs.flatMap Record.encode) :
    ∃ done left, rs = done ++ left ∧ (p.feed data).1 = done.map Record.parsed ∧
      (p.feed data).2.buf ++ y = left.flatMap Record.encode := by
  obtain ⟨done, left, rest, hrs, hdrain, hleft⟩ := drain_clean h
  refine ⟨done, left, hrs, ?_, ?_⟩
  · show (chunkScanner.drain (p.buf ++ data)).1.map parseRecord = done.map Record.parsed
    rw [hdrain, List.map_map]
    exact List.map_congr_left fun r _ => r.parseRecord_chunk
  · show (chunkScanner.drain (p.buf ++ data)).2 ++ y = left.flatMap Record.encode
    rw [hdrain]
    exact hleft

/-- What is buffered of a clean stream is the beginning of its first record. -/
theorem feedAll_clean {p : RecordParser} {rs : List Record} {stream : List (List UInt8)}
    (hlen : p.buf.length < RECORD_LEN) (h : p.buf ++ stream.flatten = rs.flatMap Record.encode) :
    p.feedAll stream = (rs.map Record.parsed, RecordParser.new) := by
  induction stream generalizing p rs with
  | nil =>
    rw [List.flatten_nil, List.append_nil] at h
    cases rs with
    | nil =>
      obtain ⟨buf⟩ := p
      obtain rfl : buf = [] := h
      rfl
    | cons r rs =>
      rw [h, List.flatMap_cons, List.length_append, r.encode_length] at hlen
      omega
  | cons data stream ih =>
    rw [List.flatten_cons, ← List.append_assoc] at h
    obtain ⟨done, left, rfl, hdone, hleft⟩ := feed_clean h
    have hrest := ih (p.feed_keeps_less data).1 hleft
    rw [feedAll, hdone, hrest, List.map_append]

end RecordParser

/-- The records of a clean stream come out as they were meant, whatever the chunks, and nothing is left; and a feed
keeps less than one record, from a marker on, whatever it is fed. -/
theorem records_roundTrip :
    (∀ (rs : List Record) (stream : List (List UInt8)), stream.flatten = rs.flatMap Record.encode →
      RecordParser.new.feedAll stream = (rs.map Record.parsed, RecordParser.new)) ∧
    ∀ (p : RecordParser) (data : List UInt8),
      (p.feed data).2.buf.length < RECORD_LEN ∧ (p.feed data).2.buf.head?.all (· = FRAME_MARKER) = true :=
  ⟨fun _ _ h => RecordParser.feedAll_clean (Nat.succ_pos _) h, RecordParser.feed_keeps_less⟩

/-- Two records, the cut inside the first. -/
theorem records_roundTrip_cut :
    let r : Record := ⟨7, #v[1, -2, 3], #v[34, 0, -2048]⟩
    RecordParser.new.feedAll [r.encode.take 5, r.encode.drop 5 ++ r.encode] =
      ([r.parsed, r.parsed], RecordParser.new) := by
  intro r
  refine records_roundTrip.1 [r, r] _ ?_
  rfl

end EverythingImu.Hopx
