import EverythingImu.Library.StreamScan
import EverythingImu.Wii.Bridge

/-!
# The records of a connection

TCP has no message framing, so a read may split a record of the companion or bring several.  `take_complete_packets`
(`device-wii/src/factory.rs`) takes the complete ones and leaves the rest in the buffer.  However the stream is cut into
reads, the records are the stream cut into pieces of `PACKET_LEN` bytes (`takeReads_eq_records`), and what a connection
has left over is the end of all that it received (`framed_of_reaches`).
-/

namespace EverythingImu.Wii

open Buffer StepRun StreamScan

/-- The stream cut into consecutive records. -/
def records (stream : List UInt8) : List (List UInt8) :=
  (List.range (stream.length / PACKET_LEN)).map fun i => portion stream (i * PACKET_LEN) PACKET_LEN

/-- The bytes after the last complete record. -/
def tail (stream : List UInt8) : List UInt8 := stream.drop (stream.length / PACKET_LEN * PACKET_LEN)

/-- The records that the reads of the client loop give, and the buffer after them. -/
def takeReads (leftover : List UInt8) : List (List UInt8) → List (List UInt8) × List UInt8
  | [] => ([], leftover)
  | bytes :: reads =>
    let taken := takeCompletePackets (leftover ++ bytes)
    let later := takeReads taken.2 reads
    (taken.1 ++ later.1, later.2)

theorem takeCompletePackets_eq (stream : List UInt8) : takeCompletePackets stream = (records stream, tail stream) := by
  have hcomplete : stream.length - stream.length % PACKET_LEN = stream.length / PACKET_LEN * PACKET_LEN := by
    rw [PACKET_LEN]
    omega
  have hpos : 0 < PACKET_LEN := by decide
  rw [takeCompletePackets, hcomplete, Nat.mul_div_cancel _ hpos, records, tail]

theorem length_tail_lt (stream : List UInt8) : (tail stream).length < PACKET_LEN := by
  rw [tail, List.length_drop, PACKET_LEN]
  omega

/-- A scan takes the record at the front of the buffer. -/
def scanRecord (buf : List UInt8) : Scan UInt8 (List UInt8) :=
  if PACKET_LEN ≤ buf.length then .record (buf.take PACKET_LEN) (buf.drop PACKET_LEN) else .stop buf

section Scan

variable {buf rest r : List UInt8}

theorem scanRecord_of_long (h : PACKET_LEN ≤ buf.length) :
    scanRecord buf = .record (buf.take PACKET_LEN) (buf.drop PACKET_LEN) := if_pos h

theorem scanRecord_of_short (h : ¬ PACKET_LEN ≤ buf.length) : scanRecord buf = .stop buf := if_neg h

theorem scanRecord_ne_skip : scanRecord buf ≠ .skip rest := by
  by_cases h : PACKET_LEN ≤ buf.length
  · rw [scanRecord_of_long h]
    nofun
  · rw [scanRecord_of_short h]
    nofun

theorem of_scanRecord_record (h : scanRecord buf = .record r rest) :
    PACKET_LEN ≤ buf.length ∧ r = buf.take PACKET_LEN ∧ rest = buf.drop PACKET_LEN := by
  by_cases hlen : PACKET_LEN ≤ buf.length
  · rw [scanRecord_of_long hlen] at h
    obtain ⟨rfl, rfl⟩ := Scan.record.inj h
    exact ⟨hlen, rfl, rfl⟩
  · rw [scanRecord_of_short hlen] at h
    cases h

theorem length_lt_of_scanRecord_record (h : scanRecord buf = .record r rest) : rest.length < buf.length := by
  obtain ⟨hlen, -, rfl⟩ := of_scanRecord_record h
  rw [PACKET_LEN] at hlen
  rw [List.length_drop, PACKET_LEN]
  omega

theorem scanRecord_append_of_stop (b : List UInt8) (h : scanRecord buf = .stop rest) :
    scanRecord (buf ++ b) = scanRecord (rest ++ b) := by
  by_cases hlen : PACKET_LEN ≤ buf.length
  · rw [scanRecord_of_long hlen] at h
    cases h
  · rw [scanRecord_of_short hlen] at h
    cases h
    rfl

theorem scanRecord_append_of_record (b : List UInt8) (h : scanRecord buf = .record r rest) :
    scanRecord (buf ++ b) = .record r (rest ++ b) := by
  obtain ⟨hlen, rfl, rfl⟩ := of_scanRecord_record h
  have hlen' : PACKET_LEN ≤ (buf ++ b).length := by
    rw [List.length_append]
    omega
  rw [scanRecord_of_long hlen', List.take_append_of_le_length hlen, List.drop_append_of_le_length hlen]

end Scan

def recordScanner : Scanner UInt8 (List UInt8) where
  scan := scanRecord
  lt_of_skip h := absurd h scanRecord_ne_skip
  lt_of_record := length_lt_of_scanRecord_record
  append_of_stop := scanRecord_append_of_stop
  append_of_skip _ h := absurd h scanRecord_ne_skip
  append_of_record b h _ := scanRecord_append_of_record b h

theorem records_of_short {stream : List UInt8} (h : ¬ PACKET_LEN ≤ stream.length) :
    records stream = [] ∧ tail stream = stream := by
  have hdiv : stream.length / PACKET_LEN = 0 := Nat.div_eq_of_lt (not_le.1 h)
  rw [records, tail, hdiv]
  exact ⟨rfl, by simp⟩

theorem records_of_long {stream : List UInt8} (h : PACKET_LEN ≤ stream.length) :
    records stream = stream.take PACKET_LEN :: records (stream.drop PACKET_LEN) ∧
      tail stream = tail (stream.drop PACKET_LEN) := by
  have hdiv : stream.length / PACKET_LEN = (stream.drop PACKET_LEN).length / PACKET_LEN + 1 := by
    rw [List.length_drop, ← Nat.add_div_right _ (by decide), Nat.sub_add_cancel h]
  constructor
  · rw [records, records, hdiv, List.range_succ_eq_map, List.map_cons, List.map_map, Nat.zero_mul]
    congr 1
    apply List.map_congr_left
    intro i _
    simp only [portion, Function.comp_apply, Nat.succ_eq_add_one, List.drop_drop, Nat.add_mul, Nat.one_mul,
      Nat.add_comm]
  · rw [tail, tail, hdiv, List.drop_drop, Nat.add_mul, Nat.one_mul, Nat.add_comm]

/-- Induction on the records of a stream. -/
theorem records_induction {P : List UInt8 → Prop} (short : ∀ stream, ¬ PACKET_LEN ≤ stream.length → P stream)
    (long : ∀ stream, PACKET_LEN ≤ stream.length → P (stream.drop PACKET_LEN) → P stream) (stream : List UInt8) :
    P stream := by
  by_cases h : PACKET_LEN ≤ stream.length
  · exact long stream h (records_induction short long (stream.drop PACKET_LEN))
  · exact short stream h
termination_by stream.length
decreasing_by
  rw [List.length_drop, PACKET_LEN] at *
  omega

/-- Nothing is lost, doubled or reordered. -/
theorem flatten_records_append_tail (stream : List UInt8) : (records stream).flatten ++ tail stream = stream := by
  induction stream using records_induction with
  | short stream h =>
    obtain ⟨hrecords, htail⟩ := records_of_short h
    rw [hrecords, htail]
    rfl
  | long stream h ih =>
    obtain ⟨hrecords, htail⟩ := records_of_long h
    rw [hrecords, htail, List.flatten_cons, List.append_assoc, ih, List.take_append_drop]

theorem length_of_mem_records {stream record : List UInt8} (h : record ∈ records stream) :
    record.length = PACKET_LEN := by
  induction stream using records_induction with
  | short stream hlen =>
    rw [(records_of_short hlen).1] at h
    cases h
  | long stream hlen ih =>
    rw [(records_of_long hlen).1] at h
    rcases List.mem_cons.1 h with rfl | h
    · exact List.length_take_of_le hlen
    · exact ih h

theorem drain_eq (stream : List UInt8) : recordScanner.drain stream = (records stream, tail stream) := by
  induction stream using records_induction with
  | short stream h =>
    obtain ⟨hrecords, htail⟩ := records_of_short h
    rw [Scanner.drain_of_stop (s := recordScanner) (scanRecord_of_short h), hrecords, htail]
  | long stream h ih =>
    obtain ⟨hrecords, htail⟩ := records_of_long h
    rw [Scanner.drain_of_record (s := recordScanner) (scanRecord_of_long h), ih, hrecords, htail]

/-- A record at the end of the buffer does not depend on what follows. -/
theorem recordScanner_resumes (buf b : List UInt8) : recordScanner.Resumes buf b := by
  intro x _ r hr
  exact scanRecord_append_of_record b hr

theorem recordScanner_uncut (buf : List UInt8) (reads : List (List UInt8)) : recordScanner.Uncut buf reads := by
  induction reads generalizing buf with
  | nil => trivial
  | cons bytes reads ih => exact ⟨recordScanner_resumes _ _, ih _⟩

theorem takeReads_eq_feedAll (leftover : List UInt8) (reads : List (List UInt8)) :
    takeReads leftover reads = recordScanner.feedAll leftover reads := by
  induction reads generalizing leftover with
  | nil => rfl
  | cons bytes reads ih =>
    rw [takeReads, Scanner.feedAll, Scanner.feed, takeCompletePackets_eq, ← drain_eq]
    rw [ih]

/-- The records of all reads are the records of the stream, however it is cut into reads. -/
theorem takeReads_eq_records (reads : List (List UInt8)) :
    takeReads [] reads = (records reads.flatten, tail reads.flatten) ∧
      (takeReads [] reads).1.flatten ++ (takeReads [] reads).2 = reads.flatten ∧
      (∀ record ∈ (takeReads [] reads).1, record.length = PACKET_LEN) ∧
      (takeReads [] reads).2.length < PACKET_LEN := by
  have heq : takeReads [] reads = (records reads.flatten, tail reads.flatten) := by
    cases reads with
    | nil => rfl
    | cons bytes reads =>
      rw [takeReads_eq_feedAll, Scanner.feedAll_eq_feed (recordScanner_uncut _ _), Scanner.feed, List.nil_append,
        drain_eq]
  rw [heq]
  exact ⟨rfl, flatten_records_append_tail _, fun _ h => length_of_mem_records h, length_tail_lt _⟩

/-! ### The connections of the bridge -/

/-- What is left over is the end of what was received. -/
def Connection.Framed (conn : Connection) : Prop := conn.leftover = tail conn.received

/-- The records that a read gives are those that the whole stream has more than before. -/
theorem Connection.Framed.onRead {conn : Connection} (h : conn.Framed) (bytes : List UInt8) :
    (conn.onRead bytes).Framed ∧ records (conn.onRead bytes).received
      = records conn.received ++ (takeCompletePackets (conn.leftover ++ bytes)).1 := by
  have hdrain := Scanner.drain_append (recordScanner_resumes conn.received bytes)
  simp only [drain_eq, Prod.mk.injEq] at hdrain
  obtain ⟨hrecords, htail⟩ := hdrain
  have hreceived : (conn.onRead bytes).received = conn.received ++ bytes := rfl
  rw [Connection.Framed, hreceived, hrecords, htail, ← h, takeCompletePackets_eq]
  exact ⟨congrArg Prod.snd (takeCompletePackets_eq _), rfl⟩

theorem Connection.framed_new (baseIp : String) : (Connection.new baseIp).Framed := by
  simp [Connection.Framed, Connection.new, tail]

theorem Connection.Framed.goes {conn conn' : Connection} (h : conn.Framed) (hgoes : conn.Goes conn') :
    conn'.Framed := by
  cases hgoes <;> exact h

/-- In every reachable state the buffer of a connection holds the end of all that it received. -/
theorem framed_of_reaches {b : Bridge} (h : Reaches bridgeStep Always .new b) :
    ∀ (c : Nat) conn, b.connections[c]? = some conn → conn.Framed := by
  refine h.invariant (I := fun b => ∀ (c : Nat) conn, b.connections[c]? = some conn → conn.Framed)
    (by simp [Bridge.new]) ?_
  intro b a b' hI _ hs c conn' hc
  rcases connection_of_step hs hc with hsame | ⟨baseIp, -, rfl⟩ | ⟨conn, hconn, hmove⟩
  · exact hI c conn' hsame
  · exact Connection.framed_new baseIp
  · rcases hmove with ⟨bytes, -, -, rfl⟩ | hgoes
    · exact ((hI c conn hconn).onRead bytes).1
    · exact (hI c conn hconn).goes hgoes

end EverythingImu.Wii
