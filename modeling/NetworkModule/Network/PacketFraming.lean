import NetworkModule.Lib.Cutting
import Mathlib

/-!
# Packet framing

`Session::ProcessRawRecv` turns the byte stream of a connection back into
packets.  A packet begins with a `PacketHeader`, whose first field is the length
of the whole packet, and a chunk of the stream may end anywhere in a packet.

A chunk that is exactly one packet, with nothing left over from before, goes to
`OnRecv` as it is.  Every other chunk is appended to an accumulation buffer that
has a read offset.  A loop copies the complete packets from there into a batch
and records where each lies, the consumed part of the buffer is erased when it
is more than half of it, and the packets are delivered from the batch.

The main result is that the deliveries do not depend on how the stream is cut
(`packets_received`).  What the session has not delivered is always a proper
beginning of the next packet, so it is shorter than a packet, and the guard
against an overflow of the accumulation buffer cannot fire.
-/

namespace NetworkModule.PacketFraming

/-! ## The packet header -/

/-- `PACKET_HEADER_SIZE`, which is `sizeof(PacketHeader)`. -/
def packetHeaderSize : Nat := 4

/-- `MAX_PACKET_SIZE`. -/
def maxPacketSize : Nat := 4096

/-- `MAX_PACKET_TOTAL_SIZE`. -/
def maxPacketTotalSize : Nat := maxPacketSize

/-- `RECV_BUFFER_SIZE`. -/
def recvBufferSize : Nat := 8192

/-- `kMaxAccumSize` of `ProcessRawRecv`. -/
def kMaxAccumSize : Nat := maxPacketSize * 4

/-- `hdr->size`: the first two bytes, the low one first.  The source reads it
only where a whole header is there. -/
def hdrSize : List UInt8 → Nat
  | b₀ :: b₁ :: _ => b₀.toNat + 256 * b₁.toNat
  | _ => 0

/-- The size field is one that a packet can have. -/
def validSize (size : Nat) : Bool :=
  decide (packetHeaderSize ≤ size) && decide (size ≤ maxPacketTotalSize)

/-- A packet as a peer should send it: the size field is in range and is the
length of the packet. -/
def WellFormed (p : List UInt8) : Prop := validSize (hdrSize p) = true ∧ hdrSize p = p.length

instance (p : List UInt8) : Decidable (WellFormed p) :=
  inferInstanceAs (Decidable (_ ∧ _))

/-! ## The session -/

/-- The receive side of a `Session`. -/
structure Session where
  /-- `mRecvAccumBuffer`. -/
  mRecvAccumBuffer : List UInt8
  /-- `mRecvAccumOffset`. -/
  mRecvAccumOffset : Nat
  /-- `mRecvBatchBuf`. -/
  mRecvBatchBuf : List UInt8
  /-- Whether `mState` is `Disconnected`. -/
  closed : Bool
  /-- Whether the overflow guard has ever fired. -/
  overflowed : Bool
  /-- The arguments of the calls of `OnRecv`, oldest first. -/
  received : List (List UInt8)
  deriving DecidableEq, Repr

/-- A session after `Initialize`. -/
def init : Session := ⟨[], 0, [], false, false, []⟩

/-- A call of `OnRecv`. -/
def Session.onRecv (s : Session) (data : List UInt8) : Session :=
  { s with received := s.received ++ [data] }

/-- The part of `Close` that concerns the receive side. -/
def Session.close (s : Session) : Session :=
  if s.closed then s
  else { s with closed := true, mRecvAccumBuffer := [], mRecvAccumOffset := 0 }

/-- `PacketSpan`: where a packet lies in the batch. -/
structure PacketSpan where
  /-- The first byte. -/
  offset : UInt32
  /-- The number of bytes. -/
  size : UInt32
  deriving DecidableEq, Repr

/-- The variables of the parsing loop. -/
structure Parse where
  /-- `mRecvAccumBuffer`. -/
  accum : List UInt8
  /-- `mRecvAccumOffset`. -/
  offset : Nat
  /-- `mRecvBatchBuf`. -/
  batch : List UInt8
  /-- `spans`. -/
  spans : List PacketSpan
  /-- `shouldClose`. -/
  shouldClose : Bool
  deriving DecidableEq, Repr

/-- The parsing loop. -/
def parseLoop (s : Parse) : Parse :=
  if packetHeaderSize ≤ s.accum.length - s.offset then
    let size := hdrSize (s.accum.drop s.offset)
    if size < packetHeaderSize ∨ maxPacketTotalSize < size then
      { s with accum := [], offset := 0, shouldClose := true }
    else if s.accum.length - s.offset < size then s
    else
      parseLoop { s with
        spans := s.spans ++ [⟨UInt32.ofNat s.batch.length, UInt32.ofNat size⟩]
        batch := s.batch ++ (s.accum.drop s.offset).take size
        offset := s.offset + size }
  else s
termination_by s.accum.length - s.offset
decreasing_by
  rename_i _ hbad _
  have hpos : 0 < packetHeaderSize := by decide
  simp only [not_or, not_lt] at hbad
  omega

/-- What the loop leaves in the accumulation buffer, once the consumed part is
erased where that pays. -/
def compact (accum : List UInt8) (offset : Nat) : List UInt8 × Nat :=
  if accum.length ≤ offset then ([], 0)
  else if accum.length / 2 < offset then (accum.drop offset, 0)
  else (accum, offset)

/-- The bytes of a packet in the batch. -/
def PacketSpan.bytes (localBatch : List UInt8) (sp : PacketSpan) : List UInt8 :=
  (localBatch.drop sp.offset.toNat).take sp.size.toNat

/-- The general path of `ProcessRawRecv`. -/
def Session.generalPath (s : Session) (data : List UInt8) : Session :=
  let offset := if s.mRecvAccumBuffer.length < s.mRecvAccumOffset then 0 else s.mRecvAccumOffset
  let unread := s.mRecvAccumBuffer.length - offset
  if kMaxAccumSize < unread + data.length then
    Session.close
      { s with mRecvAccumBuffer := [], mRecvAccumOffset := 0, overflowed := true }
  else
    let r := parseLoop ⟨s.mRecvAccumBuffer ++ data, offset, [], [], false⟩
    let left := compact r.accum r.offset
    -- The swap leaves the batch buffer of the session empty.
    let s' := { s with
      mRecvAccumBuffer := left.1, mRecvAccumOffset := left.2, mRecvBatchBuf := [] }
    if r.shouldClose then s'.close
    else r.spans.foldl (fun t sp => t.onRecv (sp.bytes r.batch)) s'

/-- The test for the fast path. -/
def Session.fastPath (s : Session) (data : List UInt8) : Bool :=
  s.mRecvAccumBuffer.isEmpty && decide (packetHeaderSize ≤ data.length) &&
    (validSize (hdrSize data) && hdrSize data == data.length)

/-- `Session::ProcessRawRecv`. -/
def Session.processRawRecv (s : Session) (data : List UInt8) : Session :=
  if s.fastPath data then s.onRecv data else s.generalPath data

/-- Successive chunks. -/
def Session.recvAll (s : Session) (chunks : List (List UInt8)) : Session :=
  chunks.foldl Session.processRawRecv s

/-- Successive chunks, if there were no fast path. -/
def Session.recvAllGeneral (s : Session) (chunks : List (List UInt8)) : Session :=
  chunks.foldl Session.generalPath s

/-- The received bytes that have not been delivered. -/
def Session.unread (s : Session) : List UInt8 := s.mRecvAccumBuffer.drop s.mRecvAccumOffset

/-! ## Whole packets and beginnings of packets -/

theorem WellFormed.header_le {p : List UInt8} (h : WellFormed p) : packetHeaderSize ≤ p.length := by
  have hsize := h.1
  simp only [validSize, Bool.and_eq_true, decide_eq_true_eq] at hsize
  rw [← h.2]
  exact hsize.1

theorem WellFormed.le_max {p : List UInt8} (h : WellFormed p) : p.length ≤ maxPacketTotalSize := by
  have hsize := h.1
  simp only [validSize, Bool.and_eq_true, decide_eq_true_eq] at hsize
  rw [← h.2]
  exact hsize.2

theorem WellFormed.ne_nil {p : List UInt8} (h : WellFormed p) : p ≠ [] := by
  intro hp
  have hlen := h.header_le
  rw [hp] at hlen
  exact absurd hlen (by decide)

/-- The size field is read from the first bytes, whatever follows. -/
theorem hdrSize_append {p : List UInt8} (h : packetHeaderSize ≤ p.length) (q : List UInt8) :
    hdrSize (p ++ q) = hdrSize p := by
  match p, h with
  | _ :: _ :: _, _ => rfl
  | [_], h => exact absurd h (by simp [packetHeaderSize])
  | [], h => exact absurd h (by simp [packetHeaderSize])

/-- The loop stops here: either the header is not complete, or it announces
more bytes than there are. -/
def Incomplete (tail : List UInt8) : Prop :=
  packetHeaderSize ≤ tail.length → validSize (hdrSize tail) = true ∧ tail.length < hdrSize tail

theorem incomplete_nil : Incomplete [] := fun h => absurd h (by decide)

/-- A proper beginning of a packet is incomplete, and shorter than a packet. -/
theorem incomplete_of_begun {tail : List UInt8} {todo : List (List UInt8)}
    (htodo : ∀ p ∈ todo, WellFormed p) (h : Cutting.Begun tail todo) :
    Incomplete tail ∧ tail.length < maxPacketTotalSize := by
  rcases h with ⟨-, rfl⟩ | ⟨p, more, rfl, ⟨q, hq⟩, hlt⟩
  · exact ⟨incomplete_nil, by decide⟩
  · have hp := htodo p (List.mem_cons_self ..)
    refine ⟨fun hhdr => ?_, lt_of_lt_of_le hlt hp.le_max⟩
    have hsize : hdrSize tail = hdrSize p := by rw [← hq, hdrSize_append hhdr]
    rw [hsize]
    exact ⟨hp.1, by rw [hp.2]; exact hlt⟩

/-! ## The parsing loop -/

/-- The loop stops at an incomplete packet. -/
theorem parseLoop_incomplete (s : Parse) (h : Incomplete (s.accum.drop s.offset)) :
    parseLoop s = s := by
  rw [parseLoop]
  by_cases hhdr : packetHeaderSize ≤ s.accum.length - s.offset
  · obtain ⟨hvalid, hshort⟩ := h (by simpa using hhdr)
    simp only [validSize, Bool.and_eq_true, decide_eq_true_eq] at hvalid
    rw [List.length_drop] at hshort
    rw [if_pos hhdr, if_neg (by omega), if_pos hshort]
  · rw [if_neg hhdr]

/-- The loop takes one whole packet. -/
theorem parseLoop_packet (s : Parse) {p rest : List UInt8} (hp : WellFormed p)
    (h : s.accum.drop s.offset = p ++ rest) :
    parseLoop s = parseLoop { s with
      spans := s.spans ++ [⟨UInt32.ofNat s.batch.length, UInt32.ofNat p.length⟩]
      batch := s.batch ++ p
      offset := s.offset + p.length } := by
  have hlen : s.accum.length - s.offset = p.length + rest.length := by
    rw [← List.length_drop, h, List.length_append]
  have hsize : hdrSize (s.accum.drop s.offset) = p.length := by
    rw [h, hdrSize_append hp.header_le, hp.2]
  have hle := hp.header_le
  have hmax := hp.le_max
  have htake : (s.accum.drop s.offset).take p.length = p := by rw [h, List.take_left]
  rw [parseLoop, if_pos (by omega)]
  simp only [hsize]
  rw [if_neg (by omega), if_neg (by omega), htake]

/-- Where packets lie that are appended to a batch of length `base`. -/
def spansFrom (base : Nat) : List (List UInt8) → List PacketSpan
  | [] => []
  | p :: ps => ⟨UInt32.ofNat base, UInt32.ofNat p.length⟩ :: spansFrom (base + p.length) ps

/-- The loop takes every whole packet and stops at the incomplete one. -/
theorem parseLoop_whole {whole : List (List UInt8)} (hw : ∀ p ∈ whole, WellFormed p) (s : Parse)
    {tail : List UInt8} (ht : Incomplete tail)
    (h : s.accum.drop s.offset = whole.flatten ++ tail) :
    parseLoop s = { s with
      spans := s.spans ++ spansFrom s.batch.length whole
      batch := s.batch ++ whole.flatten
      offset := s.offset + whole.flatten.length } := by
  induction whole generalizing s with
  | nil =>
      rw [parseLoop_incomplete s (by simpa [h] using ht)]
      simp [spansFrom]
  | cons p ps ih =>
      have hp := hw p (List.mem_cons_self ..)
      rw [List.flatten_cons, List.append_assoc] at h
      rw [parseLoop_packet s hp h, ih fun q hq => hw q (List.mem_cons_of_mem p hq)]
      · simp [spansFrom, Nat.add_assoc]
      · rw [← List.drop_drop, h, List.drop_left]

/-- A packet is found in the batch where its span says. -/
theorem PacketSpan.bytes_middle (pre p post : List UInt8)
    (h : (pre ++ p ++ post).length < 2 ^ 32) :
    PacketSpan.bytes (pre ++ p ++ post) ⟨UInt32.ofNat pre.length, UInt32.ofNat p.length⟩ = p := by
  simp only [List.length_append] at h
  have hpre : (UInt32.ofNat pre.length).toNat = pre.length :=
    UInt32.toNat_ofNat_of_lt' (show _ < 2 ^ 32 by omega)
  have hp : (UInt32.ofNat p.length).toNat = p.length :=
    UInt32.toNat_ofNat_of_lt' (show _ < 2 ^ 32 by omega)
  rw [PacketSpan.bytes, hpre, hp, List.append_assoc, List.drop_left, List.take_left]

/-- The deliveries from the batch are the packets that were put into it. -/
theorem foldl_onRecv_spansFrom (s : Session) (pre : List UInt8) (whole : List (List UInt8))
    (h : (pre ++ whole.flatten).length < 2 ^ 32) :
    (spansFrom pre.length whole).foldl
        (fun t sp => t.onRecv (sp.bytes (pre ++ whole.flatten))) s =
      { s with received := s.received ++ whole } := by
  induction whole generalizing s pre with
  | nil => simp [spansFrom]
  | cons p ps ih =>
      rw [List.flatten_cons, ← List.append_assoc] at h ⊢
      rw [spansFrom, List.foldl_cons, PacketSpan.bytes_middle pre p ps.flatten h,
        ← List.length_append, ih _ _ h]
      simp [Session.onRecv]

/-! ## One chunk -/

/-- The read offset is inside the accumulation buffer, and the batch buffer is
empty between two chunks. -/
structure Session.Inv (s : Session) : Prop where
  /-- What the defensive reset of the source never finds broken. -/
  offset_le : s.mRecvAccumOffset ≤ s.mRecvAccumBuffer.length
  /-- The swap at the end of the general path. -/
  batch_eq : s.mRecvBatchBuf = []

theorem inv_init : init.Inv := ⟨le_rfl, rfl⟩

theorem compact_offset_le (accum : List UInt8) (offset : Nat) :
    (compact accum offset).2 ≤ (compact accum offset).1.length := by
  unfold compact
  split
  · simp
  · split
    · simp
    · simp only
      omega

/-- Erasing the consumed part keeps the unread bytes. -/
theorem drop_compact (accum : List UInt8) (offset : Nat) :
    (compact accum offset).1.drop (compact accum offset).2 = accum.drop offset := by
  unfold compact
  split
  · next h => simp [List.drop_eq_nil_of_le h]
  · split
    · simp
    · rfl

/-- Where everything was consumed, the buffer is empty. -/
theorem compact_length (accum : List UInt8) : compact accum accum.length = ([], 0) :=
  if_pos le_rfl

theorem Session.Inv.close {s : Session} (h : s.Inv) : s.close.Inv := by
  unfold Session.close
  split
  · exact h
  · exact ⟨le_rfl, h.batch_eq⟩

theorem Session.inv_foldl_onRecv {s : Session} (h : s.Inv) (f : PacketSpan → List UInt8)
    (spans : List PacketSpan) : (spans.foldl (fun t sp => t.onRecv (f sp)) s).Inv := by
  induction spans generalizing s with
  | nil => exact h
  | cons sp spans ih => exact ih ⟨h.offset_le, h.batch_eq⟩

/-- The general path keeps the invariant, whatever the bytes are. -/
theorem Session.Inv.generalPath {s : Session} (h : s.Inv) (data : List UInt8) :
    (s.generalPath data).Inv := by
  unfold Session.generalPath
  simp only [if_neg (Nat.not_lt.mpr h.offset_le)]
  split
  · apply Session.Inv.close
    exact ⟨le_rfl, h.batch_eq⟩
  · split
    · apply Session.Inv.close
      exact ⟨compact_offset_le _ _, rfl⟩
    · apply Session.inv_foldl_onRecv
      exact ⟨compact_offset_le _ _, rfl⟩

/-- What the general path does with some whole packets and a beginning of the
next one. -/
theorem Session.generalPath_whole {s : Session} (hs : s.Inv) {data : List UInt8}
    {whole : List (List UInt8)} {tail : List UInt8} (hw : ∀ p ∈ whole, WellFormed p)
    (ht : Incomplete tail) (h : s.unread ++ data = whole.flatten ++ tail)
    (hfit : (s.unread ++ data).length ≤ kMaxAccumSize) :
    s.generalPath data =
      { s with
        mRecvAccumBuffer := (compact (s.mRecvAccumBuffer ++ data)
          (s.mRecvAccumOffset + whole.flatten.length)).1
        mRecvAccumOffset := (compact (s.mRecvAccumBuffer ++ data)
          (s.mRecvAccumOffset + whole.flatten.length)).2
        mRecvBatchBuf := []
        received := s.received ++ whole } := by
  have hoff := hs.offset_le
  have hparse := parseLoop_whole hw ⟨s.mRecvAccumBuffer ++ data, s.mRecvAccumOffset, [], [], false⟩
    ht (by rw [← h, List.drop_append_of_le_length hoff]; rfl)
  have hshort : whole.flatten.length < 2 ^ 32 := by
    rw [h, List.length_append] at hfit
    have hmax : kMaxAccumSize < 2 ^ 32 := by decide
    omega
  rw [List.length_append, Session.unread, List.length_drop] at hfit
  unfold Session.generalPath
  simp only [if_neg (Nat.not_lt.mpr hoff), if_neg (Nat.not_lt.mpr hfit), hparse]
  exact foldl_onRecv_spansFrom _ [] whole hshort

/-- The unread bytes after the general path. -/
theorem Session.unread_generalPath_whole {s : Session} (hs : s.Inv) {data : List UInt8}
    {whole : List (List UInt8)} {tail : List UInt8} (hw : ∀ p ∈ whole, WellFormed p)
    (ht : Incomplete tail) (h : s.unread ++ data = whole.flatten ++ tail)
    (hfit : (s.unread ++ data).length ≤ kMaxAccumSize) :
    (s.generalPath data).unread = tail := by
  rw [Session.generalPath_whole hs hw ht h hfit, Session.unread, drop_compact, ← List.drop_drop,
    List.drop_append_of_le_length hs.offset_le]
  change (s.unread ++ data).drop _ = tail
  rw [h, List.drop_left]

/-- On a chunk that takes the fast path, the general path does the same. -/
theorem Session.generalPath_of_fastPath {s : Session} (hs : s.Inv) {data : List UInt8}
    (h : s.fastPath data = true) : s.generalPath data = s.onRecv data := by
  simp only [Session.fastPath, Bool.and_eq_true, List.isEmpty_iff, beq_iff_eq] at h
  obtain ⟨⟨hempty, -⟩, hvalid, hsize⟩ := h
  have hp : WellFormed data := ⟨hvalid, hsize⟩
  have hzero : s.mRecvAccumOffset = 0 := by simpa [hempty] using hs.offset_le
  have hunread : s.unread = [] := by simp [Session.unread, hempty]
  have hfit : data.length ≤ kMaxAccumSize := le_trans hp.le_max (by decide)
  have hone : s.unread ++ data = [data].flatten ++ [] := by simp [hunread]
  have hwhole := Session.generalPath_whole hs (by simpa using hp) incomplete_nil hone
    (by simpa [hunread] using hfit)
  have hbatch := hs.batch_eq
  cases s
  simp_all [Session.onRecv, compact_length]

/-- The fast path is an optimisation: on every chunk, well-formed or not, the
two paths lead to the same session. -/
theorem Session.processRawRecv_eq_generalPath {s : Session} (hs : s.Inv) (data : List UInt8) :
    s.processRawRecv data = s.generalPath data := by
  unfold Session.processRawRecv
  split
  · next h => exact (Session.generalPath_of_fastPath hs h).symm
  · rfl

theorem Session.Inv.processRawRecv {s : Session} (hs : s.Inv) (data : List UInt8) :
    (s.processRawRecv data).Inv := by
  rw [Session.processRawRecv_eq_generalPath hs]
  exact hs.generalPath data

/-- So are the two runs over any chunks. -/
theorem Session.recvAll_eq_recvAllGeneral {s : Session} (hs : s.Inv) (chunks : List (List UInt8)) :
    s.recvAll chunks = s.recvAllGeneral chunks := by
  induction chunks generalizing s with
  | nil => rfl
  | cons c chunks ih =>
      calc s.recvAll (c :: chunks)
          = (s.processRawRecv c).recvAll chunks := rfl
        _ = (s.processRawRecv c).recvAllGeneral chunks := ih (hs.processRawRecv c)
        _ = (s.generalPath c).recvAllGeneral chunks := by
            rw [Session.processRawRecv_eq_generalPath hs]

/-! ## A whole run -/

/-- The session is open, has delivered `sent`, and holds a proper beginning of
the packets `todo`. -/
structure Session.Tracks (s : Session) (sent todo : List (List UInt8)) : Prop where
  /-- The buffers are in order. -/
  inv : s.Inv
  /-- The session has not been closed. -/
  closed_eq : s.closed = false
  /-- The overflow guard has not fired. -/
  overflowed_eq : s.overflowed = false
  /-- The deliveries. -/
  received_eq : s.received = sent
  /-- The rest. -/
  begun : Cutting.Begun s.unread todo

theorem tracks_init {packets : List (List UInt8)} (h : ∀ p ∈ packets, WellFormed p) :
    init.Tracks [] packets :=
  ⟨inv_init, rfl, rfl, rfl, Cutting.begun_nil fun p hp => (h p hp).ne_nil⟩

/-- One chunk of the stream delivers the packets it completes. -/
theorem Session.Tracks.processRawRecv {s : Session} {sent todo : List (List UInt8)}
    (hs : s.Tracks sent todo) (htodo : ∀ p ∈ todo, WellFormed p) {data rest : List UInt8}
    (hdata : data.length ≤ recvBufferSize) (h : s.unread ++ data ++ rest = todo.flatten) :
    ∃ whole todo', todo = whole ++ todo' ∧ (s.processRawRecv data).Tracks (sent ++ whole) todo' ∧
      (s.processRawRecv data).unread ++ rest = todo'.flatten := by
  have hne : ∀ p ∈ todo, p ≠ [] := fun p hp => (htodo p hp).ne_nil
  obtain ⟨whole, todo', tail, hsplit, hunread, hbegun⟩ := Cutting.exists_whole_append hne h
  have hwhole : ∀ p ∈ whole, WellFormed p := fun p hp => htodo p (by simp [hsplit, hp])
  have htodo' : ∀ p ∈ todo', WellFormed p := fun p hp => htodo p (by simp [hsplit, hp])
  have hincomplete := (incomplete_of_begun htodo' hbegun).1
  -- Less than a packet is left over from before, so the guard does not fire.
  have hfit : (s.unread ++ data).length ≤ kMaxAccumSize := by
    have hleft := (incomplete_of_begun htodo hs.begun).2
    have hmax : maxPacketTotalSize + recvBufferSize ≤ kMaxAccumSize := by decide
    rw [List.length_append]
    omega
  have hstep := Session.generalPath_whole hs.inv hwhole hincomplete hunread hfit
  have htail := Session.unread_generalPath_whole hs.inv hwhole hincomplete hunread hfit
  rw [Session.processRawRecv_eq_generalPath hs.inv]
  refine ⟨whole, todo', hsplit, ⟨hs.inv.generalPath data, ?_, ?_, ?_, ?_⟩, ?_⟩
  · rw [hstep]
    exact hs.closed_eq
  · rw [hstep]
    exact hs.overflowed_eq
  · rw [hstep, ← hs.received_eq]
  · rw [htail]
    exact hbegun
  · rw [htail]
    exact Cutting.append_eq_flatten_of_whole (by rw [← hunread, ← hsplit]; exact h)

/-- Successive chunks of the stream deliver the packets they complete. -/
theorem Session.Tracks.recvAll {s : Session} {sent todo : List (List UInt8)}
    (hs : s.Tracks sent todo) (htodo : ∀ p ∈ todo, WellFormed p) {chunks : List (List UInt8)}
    (hchunks : ∀ c ∈ chunks, c.length ≤ recvBufferSize) {rest : List UInt8}
    (h : s.unread ++ chunks.flatten ++ rest = todo.flatten) :
    ∃ whole todo', todo = whole ++ todo' ∧ (s.recvAll chunks).Tracks (sent ++ whole) todo' ∧
      (s.recvAll chunks).unread ++ rest = todo'.flatten := by
  induction chunks generalizing s sent todo with
  | nil =>
      have hnil : s.recvAll [] = s := rfl
      exact ⟨[], todo, rfl, by simpa [hnil] using hs, by simpa [hnil] using h⟩
  | cons c chunks ih =>
      have hnow : s.unread ++ c ++ (chunks.flatten ++ rest) = todo.flatten := by simpa using h
      obtain ⟨now, todo₁, hsplit₁, hs₁, hrest₁⟩ :=
        hs.processRawRecv htodo (hchunks c (List.mem_cons_self ..)) hnow
      obtain ⟨later, todo₂, hsplit₂, hs₂, hrest₂⟩ :=
        ih hs₁ (fun p hp => htodo p (by simp [hsplit₁, hp]))
          (fun d hd => hchunks d (List.mem_cons_of_mem c hd)) (by simpa using hrest₁)
      refine ⟨now ++ later, todo₂, by simp [hsplit₁, hsplit₂], ?_, hrest₂⟩
      rw [← List.append_assoc]
      exact hs₂

/-- A stream that ends leaves nothing behind, and every packet was delivered. -/
theorem Session.Tracks.eq_nil_of_flatten {s : Session} {sent todo : List (List UInt8)}
    (hs : s.Tracks sent todo) (h : s.unread = todo.flatten) : todo = [] := by
  rcases hs.begun with ⟨htodo, -⟩ | ⟨p, more, rfl, -, hlt⟩
  · exact htodo
  · rw [h, List.flatten_cons, List.length_append] at hlt
    omega

/-- However the concatenation of well-formed packets is cut into chunks of at
most `RECV_BUFFER_SIZE` bytes, `OnRecv` gets exactly these packets.  After every
chunk the session is open and the overflow guard has not fired, and without the
fast path the session would be the same. -/
theorem packets_received (packets chunks : List (List UInt8))
    (hpackets : ∀ p ∈ packets, WellFormed p)
    (hchunks : ∀ c ∈ chunks, c ≠ [] ∧ c.length ≤ recvBufferSize)
    (hcut : chunks.flatten = packets.flatten) :
    (init.recvAll chunks).received = packets ∧
      ∀ k, (init.recvAll (chunks.take k)).closed = false ∧
        (init.recvAll (chunks.take k)).overflowed = false ∧
        (init.recvAll (chunks.take k)).received <+: packets ∧
        init.recvAllGeneral (chunks.take k) = init.recvAll (chunks.take k) := by
  have hstart := tracks_init hpackets
  constructor
  · have hall : init.unread ++ chunks.flatten ++ [] = packets.flatten := by
      simpa [Session.unread, init] using hcut
    obtain ⟨whole, todo, hsplit, hs, hrest⟩ := hstart.recvAll hpackets
      (fun c hc => (hchunks c hc).2) hall
    have htodo : todo = [] := hs.eq_nil_of_flatten (by simpa using hrest)
    rw [hs.received_eq, hsplit, htodo]
    simp
  · intro k
    have hfirst : init.unread ++ (chunks.take k).flatten ++ (chunks.drop k).flatten =
        packets.flatten := by
      rw [← hcut]
      simp [Session.unread, init, ← List.flatten_append]
    obtain ⟨whole, todo, hsplit, hs, -⟩ := hstart.recvAll hpackets
      (fun c hc => (hchunks c (List.mem_of_mem_take hc)).2) hfirst
    refine ⟨hs.closed_eq, hs.overflowed_eq, ?_, ?_⟩
    · rw [hs.received_eq, hsplit]
      simp
    · exact (Session.recvAll_eq_recvAllGeneral inv_init _).symm

/-- Two packets of six and four bytes, cut inside the first header and inside
the second one. -/
theorem packets_received_two :
    (init.recvAll [[6], [0, 1, 0, 7, 8, 4, 0], [2, 0]]).received =
      [[6, 0, 1, 0, 7, 8], [4, 0, 2, 0]] :=
  (packets_received [[6, 0, 1, 0, 7, 8], [4, 0, 2, 0]] [[6], [0, 1, 0, 7, 8, 4, 0], [2, 0]]
    (by decide) (by decide) (by decide)).1

end NetworkModule.PacketFraming
