import EverythingImu.Library.LittleEndian
import EverythingImu.Library.StreamScan

/-!
# The record parser of the BLE tracker

`RecordParser` (`device-hopx/src/protocol.rs`) puts the notification stream together again and takes fixed 14-byte
records off it.  A record starts with a marker, and the byte behind it must be a marker too, if it is there yet; if it
is not there, the record is taken without that check.

So the records do not depend on how the stream is cut into notifications, except at one kind of place: when a record was
taken at the very end of what has arrived, and the next byte turns out to be no marker (`feed_pieces`).  Had it been
there, the record would not have been taken, and the scan would have gone on behind its marker.
-/

namespace EverythingImu.Hopx

open LittleEndian StreamScan

def FRAME_MARKER : UInt8 := 0x22
def ALT_MARKER : UInt8 := 0x25
def RECORD_LEN : Nat := 14

def PI : Float32 := 3.14159265358979323846
def STANDARD_GRAVITY : Float32 := 9.80665
def ACCEL_M_S2_PER_LSB : Float32 := STANDARD_GRAVITY / 2048.0
def GYRO_RAD_S_PER_LSB : Float32 := 0.070 * (PI / 180.0)

/-- `[u8; RECORD_LEN]`. -/
abbrev Chunk := Vector UInt8 RECORD_LEN

structure ParsedRecord where
  seq : UInt8
  /-- Accelerometer, m/s². -/
  accel : Vector Float32 3
  /-- Gyroscope, rad/s. -/
  gyro : Vector Float32 3
deriving DecidableEq

/-- The undecoded channels of a record, in wire order. -/
structure RawRecord where
  seq : UInt8
  channels : List Int16
deriving DecidableEq

def remapAxes (v : Vector Float32 3) : Vector Float32 3 := v

def parseRaw (chunk : Chunk) : RawRecord where
  seq := chunk.toList.getD 1 0
  channels := [2, 4, 6, 8, 10, 12].map (readI16 chunk.toList)

/-- Gyro first, then accel. -/
def parseRecord (chunk : Chunk) : ParsedRecord where
  seq := chunk.toList.getD 1 0
  gyro := remapAxes ((readI16x3 chunk.toList 2).map fun x => Float32.ofInt x.toInt * GYRO_RAD_S_PER_LSB)
  accel := remapAxes ((readI16x3 chunk.toList 8).map fun x => Float32.ofInt x.toInt * ACCEL_M_S2_PER_LSB)

/-! ### The loop -/

def isMarker (b : UInt8) : Bool := b = FRAME_MARKER || b = ALT_MARKER

/-- The rest of a turn, once the buffer starts with a marker or is empty. -/
def scanFrame (buf : List UInt8) : Scan UInt8 Chunk :=
  if h : buf.length < RECORD_LEN then .stop buf
  -- a byte that is no marker behind the record: the marker was payload
  else if buf[RECORD_LEN]?.any fun next => !isMarker next then .skip (buf.drop 1)
  else .record ⟨(buf.take RECORD_LEN).toArray, by simp; omega⟩ (buf.drop RECORD_LEN)

/-- One turn of the loop: everything in front of the first marker goes. -/
def scanChunk (buf : List UInt8) : Scan UInt8 Chunk := scanFrame (buf.dropWhile (· != FRAME_MARKER))

section Scan

variable {buf rest : List UInt8} {chunk : Chunk}

theorem scanFrame_of_short (h : buf.length < RECORD_LEN) : scanFrame buf = .stop buf := by
  rw [scanFrame, dif_pos h]

theorem scanFrame_of_payload (h : RECORD_LEN ≤ buf.length)
    (hnext : (buf[RECORD_LEN]?.any fun next => !isMarker next) = true) : scanFrame buf = .skip (buf.drop 1) := by
  rw [scanFrame, dif_neg (by omega), if_pos hnext]

theorem scanFrame_of_record (h : rest.head?.all isMarker = true) :
    scanFrame (chunk.toList ++ rest) = .record chunk rest := by
  have hlen : chunk.toList.length = RECORD_LEN := chunk.length_toList
  have hnext : ((chunk.toList ++ rest)[RECORD_LEN]?.any fun next => !isMarker next) = false := by
    rw [List.getElem?_append_right (by omega), hlen, Nat.sub_self, ← List.head?_eq_getElem?]
    cases hhead : rest.head? with
    | none => rfl
    | some next =>
      rw [hhead] at h
      simpa using h
  have htake : (chunk.toList ++ rest).take RECORD_LEN = chunk.toList := List.take_left' hlen
  have hdrop : (chunk.toList ++ rest).drop RECORD_LEN = rest := List.drop_left' hlen
  rw [scanFrame, dif_neg (by rw [List.length_append]; omega), if_neg (by rw [hnext]; nofun), hdrop]
  congr 1
  apply Vector.toList_inj.1
  exact htake

/-- A scan of a frame stops, skips its marker, or takes it. -/
private inductive FrameScan (frame : List UInt8) : Scan UInt8 Chunk → Prop
  | stop (hshort : frame.length < RECORD_LEN) : FrameScan frame (.stop frame)
  | skip (hlen : RECORD_LEN ≤ frame.length) (hnext : (frame[RECORD_LEN]?.any fun next => !isMarker next) = true) :
    FrameScan frame (.skip (frame.drop 1))
  | record (chunk : Chunk) (rest : List UInt8) (heq : frame = chunk.toList ++ rest)
    (hrest : rest.head?.all isMarker = true) : FrameScan frame (.record chunk rest)

private theorem scanFrame_inv (frame : List UInt8) : FrameScan frame (scanFrame frame) := by
  by_cases hshort : frame.length < RECORD_LEN
  · rw [scanFrame_of_short hshort]
    exact .stop hshort
  · cases hnext : frame[RECORD_LEN]?.any fun next => !isMarker next with
    | true =>
      have hlen : RECORD_LEN ≤ frame.length := by omega
      rw [scanFrame_of_payload hlen hnext]
      exact .skip hlen hnext
    | false =>
      have hlen : (frame.take RECORD_LEN).toArray.size = RECORD_LEN := by
        rw [List.size_toArray, List.length_take]
        omega
      let chunk : Chunk := ⟨(frame.take RECORD_LEN).toArray, hlen⟩
      have heq : frame = chunk.toList ++ frame.drop RECORD_LEN := (List.take_append_drop RECORD_LEN frame).symm
      have hrest : (frame.drop RECORD_LEN).head?.all isMarker = true := by
        rw [List.head?_drop]
        cases hget : frame[RECORD_LEN]? with
        | none => rfl
        | some next =>
          rw [hget] at hnext
          simpa using hnext
      have hscan : scanFrame (chunk.toList ++ frame.drop RECORD_LEN) = .record chunk (frame.drop RECORD_LEN) :=
        scanFrame_of_record hrest
      rw [← heq] at hscan
      rw [hscan]
      exact .record _ _ heq hrest

/-- What a turn did to the buffer behind its first marker. -/
private theorem frameScan_of_scanChunk {result : Scan UInt8 Chunk} (h : scanChunk buf = result) :
    FrameScan (buf.dropWhile (· != FRAME_MARKER)) result := h ▸ scanFrame_inv _

private theorem length_dropWhile_le (buf : List UInt8) :
    (buf.dropWhile (· != FRAME_MARKER)).length ≤ buf.length := (List.dropWhile_sublist _).length_le

/-- What follows a marker in the buffer is scanned with it. -/
private theorem dropWhile_append_of_ne_nil {b : List UInt8} (h : buf.dropWhile (· != FRAME_MARKER) ≠ []) :
    (buf ++ b).dropWhile (· != FRAME_MARKER) = buf.dropWhile (· != FRAME_MARKER) ++ b := by
  rw [List.dropWhile_append, if_neg (by simpa using h)]

private theorem dropWhile_dropWhile (buf : List UInt8) :
    (buf.dropWhile (· != FRAME_MARKER)).dropWhile (· != FRAME_MARKER) = buf.dropWhile (· != FRAME_MARKER) := by
  induction buf with
  | nil => rfl
  | cons a buf ih =>
    rw [List.dropWhile_cons]
    by_cases ha : (a != FRAME_MARKER) = true
    · rw [if_pos ha, ih]
    · rw [if_neg ha, List.dropWhile_cons, if_neg ha]

theorem scanChunk_append_of_stop {b : List UInt8} (h : scanChunk buf = .stop rest) :
    scanChunk (buf ++ b) = scanChunk (rest ++ b) := by
  cases frameScan_of_scanChunk h with
  | stop hshort =>
    unfold scanChunk
    by_cases hnil : buf.dropWhile (· != FRAME_MARKER) = []
    · rw [hnil, List.dropWhile_append, if_pos (by simpa using hnil), List.nil_append]
    · rw [dropWhile_append_of_ne_nil hnil, dropWhile_append_of_ne_nil (by rwa [dropWhile_dropWhile]),
        dropWhile_dropWhile]

/-- The marker that is skipped is skipped whatever follows. -/
theorem scanChunk_append_of_skip {b : List UInt8} (h : scanChunk buf = .skip rest) :
    scanChunk (buf ++ b) = .skip (rest ++ b) := by
  cases frameScan_of_scanChunk h with
  | skip hlen hnext =>
    generalize hframe : buf.dropWhile (· != FRAME_MARKER) = frame at hlen hnext
    have hne : frame ≠ [] := by
      rintro rfl
      exact absurd hlen (by decide)
    have hlt : RECORD_LEN < frame.length := by
      rcases Nat.lt_or_ge RECORD_LEN frame.length with hlt | hge
      · exact hlt
      · rw [List.getElem?_eq_none hge] at hnext
        cases hnext
    have hlen' : RECORD_LEN ≤ (frame ++ b).length := by
      rw [List.length_append]
      omega
    have hnext' : ((frame ++ b)[RECORD_LEN]?.any fun next => !isMarker next) = true := by
      rw [List.getElem?_append_left hlt]
      exact hnext
    unfold scanChunk
    rw [dropWhile_append_of_ne_nil (by rw [hframe]; exact hne), hframe, scanFrame_of_payload hlen' hnext',
      List.drop_append_of_le_length (by omega)]

/-- What a record needs: the frame is the record and what is left, which starts with a marker if it is there. -/
theorem scanChunk_eq_record_iff :
    scanChunk buf = .record chunk rest ↔
      buf.dropWhile (· != FRAME_MARKER) = chunk.toList ++ rest ∧ rest.head?.all isMarker = true := by
  constructor
  · intro h
    cases frameScan_of_scanChunk h with
    | record chunk rest heq hrest => exact ⟨heq, hrest⟩
  · rintro ⟨heq, hrest⟩
    unfold scanChunk
    rw [heq, scanFrame_of_record hrest]

/-- A record is taken when no byte that is no marker follows. -/
theorem scanChunk_append_of_record {b : List UInt8} (h : scanChunk buf = .record chunk rest)
    (hb : (rest ++ b).head?.all isMarker = true) : scanChunk (buf ++ b) = .record chunk (rest ++ b) := by
  obtain ⟨heq, -⟩ := scanChunk_eq_record_iff.1 h
  have hne : buf.dropWhile (· != FRAME_MARKER) ≠ [] := by
    intro hnil
    have hlen := congrArg List.length (hnil.symm.trans heq)
    rw [List.length_append, Vector.length_toList] at hlen
    exact absurd hlen (by rw [RECORD_LEN, List.length_nil]; omega)
  rw [scanChunk_eq_record_iff, dropWhile_append_of_ne_nil hne, heq, List.append_assoc]
  exact ⟨rfl, hb⟩

/-- A scan stops when too little is left behind the first marker. -/
theorem scanChunk_eq_stop (h : scanChunk buf = .stop rest) :
    rest = buf.dropWhile (· != FRAME_MARKER) ∧ rest.length < RECORD_LEN := by
  cases frameScan_of_scanChunk h with
  | stop hshort => exact ⟨rfl, hshort⟩

theorem length_lt_of_scanChunk_skip (h : scanChunk buf = .skip rest) : rest.length < buf.length := by
  have hle := length_dropWhile_le buf
  have hpos : 0 < RECORD_LEN := by decide
  cases frameScan_of_scanChunk h with
  | skip hlen hnext =>
    rw [List.length_drop]
    omega

theorem length_lt_of_scanChunk_record (h : scanChunk buf = .record chunk rest) : rest.length < buf.length := by
  have hle := length_dropWhile_le buf
  have hpos : 0 < RECORD_LEN := by decide
  rw [(scanChunk_eq_record_iff.1 h).1, List.length_append, Vector.length_toList] at hle
  omega

end Scan

/-- The loop of `drain_chunks` as a scanner. -/
def chunkScanner : Scanner UInt8 Chunk where
  scan := scanChunk
  lt_of_skip := length_lt_of_scanChunk_skip
  lt_of_record := length_lt_of_scanChunk_record
  append_of_stop _ := scanChunk_append_of_stop
  append_of_skip _ := scanChunk_append_of_skip
  append_of_record {buf rest chunk} b h hrest := by
    refine scanChunk_append_of_record h ?_
    have hhead : (rest ++ b).head? = rest.head? := by
      cases rest with
      | nil => exact absurd rfl hrest
      | cons next rest => rfl
    rw [hhead]
    exact (scanChunk_eq_record_iff.1 h).2

/-! ### The parser -/

structure RecordParser where
  buf : List UInt8
deriving DecidableEq

namespace RecordParser

def new : RecordParser := ⟨[]⟩

/-- Every complete record that is buffered now. -/
def drainChunks (p : RecordParser) (data : List UInt8) : List Chunk × RecordParser :=
  let drained := chunkScanner.drain (p.buf ++ data)
  (drained.1, ⟨drained.2⟩)

def feed (p : RecordParser) (data : List UInt8) : List ParsedRecord × RecordParser :=
  ((p.drainChunks data).1.map parseRecord, (p.drainChunks data).2)

def feedRaw (p : RecordParser) (data : List UInt8) : List RawRecord × RecordParser :=
  ((p.drainChunks data).1.map parseRaw, (p.drainChunks data).2)

/-- The notifications of a stream, one after the other. -/
def feedAll (p : RecordParser) : List (List UInt8) → List ParsedRecord × RecordParser
  | [] => ([], p)
  | data :: stream =>
    let first := p.feed data
    let others := first.2.feedAll stream
    (first.1 ++ others.1, others.2)

/-- The record that is taken at the very end of what has arrived, if there is one. -/
def lastTaken (p : RecordParser) (data : List UInt8) : Option Chunk :=
  (chunkScanner.boundary (p.buf ++ data)).bind fun _ => (p.drainChunks data).1.getLast?

/-- A record is taken at the very end, and the next byte is no marker. -/
def Splits (p : RecordParser) (data next : List UInt8) : Prop :=
  (p.lastTaken data).isSome = true ∧ (next.head?.any fun b => !isMarker b) = true

/-- No notification of the stream ends at such a place. -/
def Unsplit (p : RecordParser) : List (List UInt8) → Prop
  | [] => True
  | data :: stream => ¬ p.Splits data stream.flatten ∧ (p.feed data).2.Unsplit stream

variable {p : RecordParser} {a b : List UInt8} {chunk : Chunk}

/-- The record at the very end, by its scan. -/
theorem lastTaken_eq_some_iff :
    p.lastTaken a = some chunk ↔
      ∃ x, chunkScanner.boundary (p.buf ++ a) = some x ∧ scanChunk x = .record chunk [] := by
  unfold lastTaken
  constructor
  · intro h
    obtain ⟨x, hx, hlast⟩ := Option.bind_eq_some_iff.1 h
    obtain ⟨chunk', hscan, hchunks, -⟩ := Scanner.drain_of_boundary hx
    have hlast' : (p.drainChunks a).1.getLast? = some chunk' := by
      show (chunkScanner.drain (p.buf ++ a)).1.getLast? = some chunk'
      rw [hchunks, List.getLast?_concat]
    rw [hlast'] at hlast
    obtain rfl := Option.some.inj hlast
    exact ⟨x, hx, hscan⟩
  · rintro ⟨x, hx, hscan⟩
    obtain ⟨chunk', hscan', hchunks, -⟩ := Scanner.drain_of_boundary hx
    obtain ⟨rfl, -⟩ := Scan.record.inj (hscan.symm.trans hscan')
    rw [hx, Option.bind_some]
    show (chunkScanner.drain (p.buf ++ a)).1.getLast? = some chunk
    rw [hchunks, List.getLast?_concat]

/-- Away from such a place the last record is taken with what follows, too. -/
private theorem resumes_of_not_splits (h : ¬ p.Splits a b) : chunkScanner.Resumes (p.buf ++ a) b := by
  intro x hx chunk hscan
  have hlast : p.lastTaken a = some chunk := lastTaken_eq_some_iff.2 ⟨x, hx, hscan⟩
  refine scanChunk_append_of_record hscan ?_
  rw [List.nil_append]
  cases hhead : b.head? with
  | none => rfl
  | some next =>
    refine Classical.byContradiction fun hno => h ⟨by rw [hlast]; rfl, ?_⟩
    rw [hhead]
    simpa using hno

/-- Two pieces and both at once. -/
private theorem drainChunks_append (h : ¬ p.Splits a b) :
    p.drainChunks (a ++ b) =
      ((p.drainChunks a).1 ++ ((p.drainChunks a).2.drainChunks b).1, ((p.drainChunks a).2.drainChunks b).2) := by
  unfold drainChunks
  dsimp only
  rw [← List.append_assoc, Scanner.drain_append (resumes_of_not_splits h)]

/-- The record that should not have been taken is scanned again without its marker. -/
private theorem drain_of_splits {x : List UInt8} (hscan : scanChunk x = .record chunk [])
    (hb : (b.head?.any fun next => !isMarker next) = true) :
    chunkScanner.drain (x ++ b) = chunkScanner.drain (chunk.toList.drop 1 ++ b) := by
  have hframe := (scanChunk_eq_record_iff.1 hscan).1
  rw [List.append_nil] at hframe
  have hlen : chunk.toList.length = RECORD_LEN := chunk.length_toList
  have hpos : 0 < RECORD_LEN := by decide
  have hne : x.dropWhile (· != FRAME_MARKER) ≠ [] := by
    rw [hframe]
    intro hnil
    rw [hnil, List.length_nil] at hlen
    omega
  have hlong : RECORD_LEN ≤ (chunk.toList ++ b).length := by
    rw [List.length_append]
    omega
  have hnext : ((chunk.toList ++ b)[RECORD_LEN]?.any fun next => !isMarker next) = true := by
    rw [List.getElem?_append_right (by omega), hlen, Nat.sub_self, ← List.head?_eq_getElem?]
    exact hb
  have hskip : scanChunk (x ++ b) = .skip (chunk.toList.drop 1 ++ b) := by
    unfold scanChunk
    rw [dropWhile_append_of_ne_nil hne, hframe, scanFrame_of_payload hlong hnext,
      List.drop_append_of_le_length (by omega)]
  exact Scanner.drain_of_skip hskip

private theorem feedAll_eq (p : RecordParser) (stream : List (List UInt8)) :
    p.feedAll stream =
      ((chunkScanner.feedAll p.buf stream).1.map parseRecord, ⟨(chunkScanner.feedAll p.buf stream).2⟩) := by
  induction stream generalizing p with
  | nil => rfl
  | cons data stream ih =>
    rw [feedAll, Scanner.feedAll, ih, List.map_append]
    rfl

private theorem uncut_of_unsplit {stream : List (List UInt8)} (h : p.Unsplit stream) :
    chunkScanner.Uncut p.buf stream := by
  induction stream generalizing p with
  | nil => trivial
  | cons data stream ih => exact ⟨resumes_of_not_splits h.1, ih h.2⟩

/-- What the pieces of a stream give.  Two pieces give what they give at once, unless a record is taken at the very end
of the first one and the second one starts with a byte that is no marker; then at once the record is not taken, and its
bytes behind the marker are scanned with the second piece.  A stream that is not split at such a place gives the same
in whatever notifications it comes. -/
theorem feed_pieces (p : RecordParser) :
    (∀ a b, ¬ p.Splits a b →
      p.feed (a ++ b) = ((p.feed a).1 ++ ((p.feed a).2.feed b).1, ((p.feed a).2.feed b).2) ∧
        p.feedRaw (a ++ b) = ((p.feedRaw a).1 ++ ((p.feedRaw a).2.feedRaw b).1, ((p.feedRaw a).2.feedRaw b).2)) ∧
    (∀ a b chunk, p.lastTaken a = some chunk → p.Splits a b →
      (p.feed a).1 = (p.feed a).1.dropLast ++ [parseRecord chunk] ∧
        p.feed (a ++ b) =
          ((p.feed a).1.dropLast ++ (feed ⟨chunk.toList.drop 1⟩ b).1, (feed ⟨chunk.toList.drop 1⟩ b).2)) ∧
    ∀ data stream, p.Unsplit (data :: stream) → p.feedAll (data :: stream) = p.feed (data :: stream).flatten := by
  refine ⟨fun a b h => ?_, fun a b chunk hlast hsplits => ?_, fun data stream h => ?_⟩
  · rw [feed, feedRaw, drainChunks_append h, List.map_append, List.map_append]
    exact ⟨rfl, rfl⟩
  · obtain ⟨x, hx, hscan⟩ := lastTaken_eq_some_iff.1 hlast
    obtain ⟨chunk', hscan', hchunks, -⟩ := Scanner.drain_of_boundary hx
    obtain ⟨rfl, -⟩ := Scan.record.inj (hscan.symm.trans hscan')
    unfold feed drainChunks
    dsimp only
    refine ⟨?_, ?_⟩
    · rw [← List.map_dropLast, ← List.map_singleton (f := parseRecord), ← List.map_append, ← hchunks]
    · rw [← List.append_assoc, Scanner.drain_append_of_boundary hx, drain_of_splits hscan hsplits.2, List.map_append,
        List.map_dropLast]
  · rw [feedAll_eq, Scanner.feedAll_eq_feed (uncut_of_unsplit h)]
    rfl

/-- A record of zeros, and a byte that is no marker: in two pieces the record is taken, at once it is not. -/
theorem feed_pieces_differ :
    let record := FRAME_MARKER :: List.replicate 13 0
    ((new.feed record).1 ++ ((new.feed record).2.feed [0]).1).length = 1 ∧ (new.feed (record ++ [0])).1 = [] := by
  have hrecord : chunkScanner.scan (FRAME_MARKER :: List.replicate 13 0) =
      .record ⟨(FRAME_MARKER :: List.replicate 13 0).toArray, rfl⟩ [] := rfl
  have hempty : chunkScanner.scan [] = .stop [] := rfl
  have hzero : chunkScanner.scan [0] = .stop [] := rfl
  have hskip : chunkScanner.scan (FRAME_MARKER :: List.replicate 13 0 ++ [0]) =
      .skip (List.replicate 13 0 ++ [0]) := rfl
  have hzeros : chunkScanner.scan (List.replicate 13 0 ++ [0]) = .stop [] := rfl
  have hfirst : new.drainChunks (FRAME_MARKER :: List.replicate 13 0) =
      ([⟨(FRAME_MARKER :: List.replicate 13 0).toArray, rfl⟩], new) := by
    unfold drainChunks new
    rw [List.nil_append, Scanner.drain_of_record hrecord, Scanner.drain_of_stop hempty]
  have hsecond : new.drainChunks [0] = ([], new) := by
    unfold drainChunks new
    rw [List.nil_append, Scanner.drain_of_stop hzero]
  have honce : new.drainChunks (FRAME_MARKER :: List.replicate 13 0 ++ [0]) = ([], new) := by
    unfold drainChunks new
    rw [List.nil_append, Scanner.drain_of_skip hskip, Scanner.drain_of_stop hzeros]
  unfold feed
  dsimp only
  rw [hfirst, hsecond, honce]
  exact ⟨rfl, rfl⟩

end RecordParser

end EverythingImu.Hopx
