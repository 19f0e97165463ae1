import NetworkModule.Network.PacketFraming

/-!
# A bad header in the stream

`ProcessRawRecv` collects the packets of a chunk in a batch and delivers them after
the parsing loop.  If the loop meets a header whose size field is not valid, the
session is closed and the batch is dropped, with the packets before the header that
the same chunk has completed.  Chunks that come later are skipped, since `Close` has
cancelled the scope of the session.

So the packets before a bad header are delivered up to the chunk that completes the
header (`Session.Awaits.badChunk`).  All of them are delivered exactly if some chunk
ends at the end of the last packet or inside the bad header
(`delivered_before_bad_iff`).
-/

namespace NetworkModule.PacketFraming

/-! ## Chunks as the dispatcher runs them -/

/-- The task of a chunk, which is skipped once `Close` has cancelled the scope. -/
def Session.dispatchRecv (s : Session) (data : List UInt8) : Session :=
  if s.closed then s else s.processRawRecv data

/-- Successive tasks. -/
def Session.dispatchAll (s : Session) (chunks : List (List UInt8)) : Session :=
  chunks.foldl Session.dispatchRecv s

@[simp] theorem Session.dispatchAll_nil (s : Session) : s.dispatchAll [] = s := rfl

theorem Session.dispatchAll_of_closed {s : Session} (h : s.closed = true)
    (chunks : List (List UInt8)) : s.dispatchAll chunks = s := by
  induction chunks with
  | nil => rfl
  | cons c chunks ih =>
      rw [Session.dispatchAll, List.foldl_cons, Session.dispatchRecv, if_pos h]
      exact ih

theorem Session.dispatchAll_append (s : Session) (chunks chunks' : List (List UInt8)) :
    s.dispatchAll (chunks ++ chunks') = (s.dispatchAll chunks).dispatchAll chunks' :=
  List.foldl_append

/-! ## The parsing loop at a bad header -/

/-- A whole header with a size that no packet has, and what follows. -/
structure BadHeader (bad : List UInt8) : Prop where
  whole : packetHeaderSize ≤ bad.length
  invalid : validSize (hdrSize bad) = false

/-- The loop takes every whole packet and drops everything at the bad header. -/
theorem parseLoop_bad {whole : List (List UInt8)} (hw : ∀ p ∈ whole, WellFormed p)
    {bad : List UInt8} (hbad : BadHeader bad) (s : Parse)
    (h : s.accum.drop s.offset = whole.flatten ++ bad) :
    (parseLoop s).shouldClose = true := by
  induction whole generalizing s with
  | nil =>
      have hdrop : s.accum.drop s.offset = bad := by simpa using h
      have hlen : packetHeaderSize ≤ s.accum.length - s.offset := by
        rw [← List.length_drop, hdrop]
        exact hbad.whole
      have hsize : hdrSize bad < packetHeaderSize ∨ maxPacketTotalSize < hdrSize bad := by
        have hinvalid := hbad.invalid
        simp only [validSize, Bool.and_eq_false_iff, decide_eq_false_iff_not, not_le] at hinvalid
        exact hinvalid
      rw [parseLoop, if_pos hlen]
      simp only [hdrop]
      rw [if_pos hsize]
  | cons p ps ih =>
      rw [List.flatten_cons, List.append_assoc] at h
      rw [parseLoop_packet s (hw p List.mem_cons_self) h]
      refine ih (fun q hq => hw q (List.mem_cons_of_mem p hq)) _ ?_
      rw [← List.drop_drop, h, List.drop_left]

/-- The chunk that completes the bad header closes the session, and delivers nothing. -/
theorem Session.generalPath_bad {s : Session} (hs : s.Inv) (hopen : s.closed = false)
    {data : List UInt8} {whole : List (List UInt8)} (hw : ∀ p ∈ whole, WellFormed p)
    {bad : List UInt8} (hbad : BadHeader bad) (h : s.unread ++ data = whole.flatten ++ bad)
    (hfit : (s.unread ++ data).length ≤ kMaxAccumSize) :
    (s.generalPath data).closed = true ∧ (s.generalPath data).received = s.received := by
  have hoff := hs.offset_le
  have hclose := parseLoop_bad hw hbad
    ⟨s.mRecvAccumBuffer ++ data, s.mRecvAccumOffset, [], [], false⟩
    (by rw [← h, List.drop_append_of_le_length hoff]; rfl)
  rw [List.length_append, Session.unread, List.length_drop] at hfit
  unfold Session.generalPath
  simp only [if_neg (Nat.not_lt.mpr hoff), if_neg (Nat.not_lt.mpr hfit), hclose, if_true,
    Session.close, hopen, Bool.false_eq_true, if_false]
  exact ⟨trivial, trivial⟩

/-! ## Packets before a bad header -/

/-- The session is open, has delivered `sent`, and has less than the packets `todo` and a
header of what is left of the stream. -/
structure Session.Awaits (s : Session) (sent todo : List (List UInt8)) : Prop where
  inv : s.Inv
  open_eq : s.closed = false
  received_eq : s.received = sent
  /-- Either a packet is to come, or the bad header is not complete. -/
  begun : Cutting.Begun s.unread todo ∨ (todo = [] ∧ s.unread.length < packetHeaderSize)

section Stream

variable {s : Session} {sent todo : List (List UInt8)} {bad : List UInt8}

/-- Less than a header is incomplete. -/
theorem incomplete_of_short {tail : List UInt8} (h : tail.length < packetHeaderSize) :
    Incomplete tail := fun hle => absurd hle (Nat.not_le_of_lt h)

/-- What the session holds is incomplete, and shorter than a packet. -/
theorem Session.Awaits.incomplete (hs : s.Awaits sent todo) (htodo : ∀ p ∈ todo, WellFormed p) :
    Incomplete s.unread ∧ s.unread.length < maxPacketTotalSize := by
  rcases hs.begun with hbegun | ⟨-, hshort⟩
  · exact incomplete_of_begun htodo hbegun
  · exact ⟨incomplete_of_short hshort, lt_trans hshort (by decide)⟩

/-- With a packet to come, the session has less than the packets. -/
theorem Session.Awaits.unread_lt (hs : s.Awaits sent todo) (hne : todo ≠ []) :
    s.unread.length < todo.flatten.length := by
  rcases hs.begun with (⟨hnil, -⟩ | ⟨p, more, rfl, -, hlt⟩) | ⟨hnil, -⟩
  · exact absurd hnil hne
  · rw [List.flatten_cons, List.length_append]
    omega
  · exact absurd hnil hne

theorem Session.Awaits.fits (hs : s.Awaits sent todo) (htodo : ∀ p ∈ todo, WellFormed p)
    {data : List UInt8} (hdata : data.length ≤ recvBufferSize) :
    (s.unread ++ data).length ≤ kMaxAccumSize := by
  have hleft := (hs.incomplete htodo).2
  have hmax : maxPacketTotalSize + recvBufferSize ≤ kMaxAccumSize := by decide
  rw [List.length_append]
  omega

/-- What has been seen of packets and a bad header that is not complete: some whole packets
and a proper beginning of the next one or of the header. -/
theorem exists_whole_of_short (hne : ∀ p ∈ todo, p ≠ []) {r rest : List UInt8}
    (h : r ++ rest = todo.flatten ++ bad)
    (hlt : r.length < todo.flatten.length + packetHeaderSize) :
    ∃ whole todo' tail, todo = whole ++ todo' ∧ r = whole.flatten ++ tail ∧
      (Cutting.Begun tail todo' ∨ (todo' = [] ∧ tail.length < packetHeaderSize)) := by
  rcases List.append_eq_append_iff.mp h with ⟨mid, hmid, -⟩ | ⟨mid, hmid, -⟩
  · obtain ⟨whole, todo', tail, hsplit, hr, hbegun⟩ := Cutting.exists_whole_append hne hmid.symm
    exact ⟨whole, todo', tail, hsplit, hr, .inl hbegun⟩
  · refine ⟨todo, [], mid, (List.append_nil todo).symm, hmid, .inr ⟨rfl, ?_⟩⟩
    rw [hmid, List.length_append] at hlt
    omega

/-- A chunk that does not complete the bad header delivers the packets it completes. -/
theorem Session.Awaits.chunk (hs : s.Awaits sent todo) (htodo : ∀ p ∈ todo, WellFormed p)
    {data rest : List UInt8} (hdata : data.length ≤ recvBufferSize)
    (h : s.unread ++ data ++ rest = todo.flatten ++ bad)
    (hlt : (s.unread ++ data).length < todo.flatten.length + packetHeaderSize) :
    ∃ whole todo', todo = whole ++ todo' ∧ (s.dispatchRecv data).Awaits (sent ++ whole) todo' ∧
      (s.dispatchRecv data).unread ++ rest = todo'.flatten ++ bad := by
  obtain ⟨whole, todo', tail, hsplit, hunread, hbegun⟩ :=
    exists_whole_of_short (fun p hp => (htodo p hp).ne_nil) h hlt
  have hwhole : ∀ p ∈ whole, WellFormed p := fun p hp => htodo p (by simp [hsplit, hp])
  have htodo' : ∀ p ∈ todo', WellFormed p := fun p hp => htodo p (by simp [hsplit, hp])
  have hincomplete : Incomplete tail := by
    rcases hbegun with hbegun | ⟨-, hshort⟩
    · exact (incomplete_of_begun htodo' hbegun).1
    · exact incomplete_of_short hshort
  have hfit := hs.fits htodo hdata
  have hstep := Session.generalPath_whole hs.inv hwhole hincomplete hunread hfit
  have htail := Session.unread_generalPath_whole hs.inv hwhole hincomplete hunread hfit
  have hdispatch : s.dispatchRecv data = s.generalPath data := by
    rw [Session.dispatchRecv, hs.open_eq, if_neg Bool.false_ne_true,
      Session.processRawRecv_eq_generalPath hs.inv]
  rw [hdispatch, htail]
  refine ⟨whole, todo', hsplit, ⟨hs.inv.generalPath data, ?_, ?_, ?_⟩, ?_⟩
  · rw [hstep]
    exact hs.open_eq
  · rw [hstep, ← hs.received_eq]
  · rw [htail]
    exact hbegun
  · rw [hunread, hsplit, List.flatten_append, List.append_assoc, List.append_assoc] at h
    exact List.append_cancel_left h

/-- Successive chunks that do not complete the bad header. -/
theorem Session.Awaits.chunks (hs : s.Awaits sent todo) (htodo : ∀ p ∈ todo, WellFormed p)
    {chunks : List (List UInt8)} (hchunks : ∀ c ∈ chunks, c.length ≤ recvBufferSize)
    {rest : List UInt8} (h : s.unread ++ chunks.flatten ++ rest = todo.flatten ++ bad)
    (hlt : (s.unread ++ chunks.flatten).length < todo.flatten.length + packetHeaderSize) :
    ∃ whole todo', todo = whole ++ todo' ∧ (s.dispatchAll chunks).Awaits (sent ++ whole) todo' ∧
      (s.dispatchAll chunks).unread ++ rest = todo'.flatten ++ bad := by
  induction chunks generalizing s sent todo with
  | nil => exact ⟨[], todo, rfl, by simpa using hs, by simpa using h⟩
  | cons c chunks ih =>
      have hnow : s.unread ++ c ++ (chunks.flatten ++ rest) = todo.flatten ++ bad := by
        simpa using h
      have hshort : (s.unread ++ c).length < todo.flatten.length + packetHeaderSize := by
        simp only [List.flatten_cons, List.length_append] at hlt ⊢
        omega
      obtain ⟨now, todo₁, hsplit₁, hs₁, hrest₁⟩ :=
        hs.chunk htodo (hchunks c List.mem_cons_self) hnow hshort
      have hlen := congrArg List.length hrest₁
      have hlen₀ := congrArg List.length h
      simp only [List.flatten_cons, List.length_append] at hlt hlen hlen₀
      obtain ⟨later, todo₂, hsplit₂, hs₂, hrest₂⟩ :=
        ih hs₁ (fun p hp => htodo p (by simp [hsplit₁, hp]))
          (fun d hd => hchunks d (List.mem_cons_of_mem c hd)) (by simpa using hrest₁)
          (by simp only [List.length_append]; omega)
      refine ⟨now ++ later, todo₂, by simp [hsplit₁, hsplit₂], ?_, hrest₂⟩
      rw [← List.append_assoc]
      exact hs₂

/-- The chunk that completes the bad header closes the session. -/
theorem Session.Awaits.badChunk (hs : s.Awaits sent todo) (htodo : ∀ p ∈ todo, WellFormed p)
    (hbad : BadHeader bad) {data rest : List UInt8} (hdata : data.length ≤ recvBufferSize)
    (h : s.unread ++ data ++ rest = todo.flatten ++ bad)
    (hle : todo.flatten.length + packetHeaderSize ≤ (s.unread ++ data).length) :
    (s.dispatchRecv data).closed = true ∧ (s.dispatchRecv data).received = sent := by
  obtain ⟨head, hhead, hprefix⟩ : ∃ head, s.unread ++ data = todo.flatten ++ head ∧
      head ++ rest = bad := by
    rcases List.append_eq_append_iff.mp h with ⟨mid, hmid, -⟩ | ⟨mid, hmid, hrest⟩
    · rw [hmid, List.length_append] at hle
      have hpos : 0 < packetHeaderSize := by decide
      omega
    · exact ⟨mid, hmid, hrest.symm⟩
  have hwhole : packetHeaderSize ≤ head.length := by
    rw [hhead, List.length_append] at hle
    omega
  have hheader : BadHeader head := by
    refine ⟨hwhole, ?_⟩
    rw [← hdrSize_append hwhole rest, hprefix]
    exact hbad.invalid
  have hclosed := Session.generalPath_bad hs.inv hs.open_eq htodo hheader hhead
    (hs.fits htodo hdata)
  rw [Session.dispatchRecv, hs.open_eq, if_neg Bool.false_ne_true,
    Session.processRawRecv_eq_generalPath hs.inv, ← hs.received_eq]
  exact hclosed

end Stream

/-! ## A whole stream -/

theorem awaits_init {packets : List (List UInt8)} (h : ∀ p ∈ packets, WellFormed p) :
    init.Awaits [] packets :=
  ⟨inv_init, rfl, rfl, .inl (Cutting.begun_nil fun p hp => (h p hp).ne_nil)⟩

/-- However packets and a bad header are cut into chunks, the packets before some packet are
delivered and the session is closed.  Nothing is left out exactly if a chunk ends at the end
of the last packet or inside the bad header. -/
theorem dispatchAll_bad {packets chunks : List (List UInt8)} {bad : List UInt8}
    (hpackets : ∀ p ∈ packets, WellFormed p) (hbad : BadHeader bad)
    (hchunks : ∀ c ∈ chunks, c.length ≤ recvBufferSize)
    (hcut : chunks.flatten = packets.flatten ++ bad) :
    ∃ sent todo, packets = sent ++ todo ∧ (init.dispatchAll chunks).received = sent ∧
      (init.dispatchAll chunks).closed = true ∧
      (todo = [] ↔ ∃ k, packets.flatten.length ≤ (chunks.take k).flatten.length ∧
        (chunks.take k).flatten.length < packets.flatten.length + packetHeaderSize) := by
  have hheader : packetHeaderSize ≤ bad.length := hbad.whole
  have hreach : packets.flatten.length + packetHeaderSize ≤ chunks.flatten.length := by
    rw [hcut, List.length_append]
    omega
  obtain ⟨before, c, after, hsplit, hbefore, hc⟩ :=
    Cutting.exists_piece_reaching (Nat.add_pos_right _ (by decide)) hreach
  -- The chunks before `c` do not complete the bad header, and `c` does.
  have hstream : init.unread ++ before.flatten ++ (c ++ after.flatten) =
      packets.flatten ++ bad := by
    rw [← hcut, hsplit]
    simp [Session.unread, init]
  obtain ⟨sent, todo, htodo, hs, hrest⟩ := (awaits_init hpackets).chunks hpackets
    (fun d hd => hchunks d (by simp [hsplit, hd])) hstream hbefore
  rw [List.nil_append] at hs
  have hlen := congrArg List.length hrest
  have hlen₀ := congrArg List.length hstream
  have hunread : init.unread.length = 0 := rfl
  have hpackets_len : packets.flatten.length = sent.flatten.length + todo.flatten.length := by
    rw [htodo, List.flatten_append, List.length_append]
  simp only [List.length_append] at hlen hlen₀
  obtain ⟨hclosed, hreceived⟩ := hs.badChunk (fun p hp => hpackets p (by simp [htodo, hp])) hbad
    (hchunks c (by simp [hsplit])) (by simpa using hrest)
    (by rw [List.length_append]; omega)
  have hend : init.dispatchAll chunks = (init.dispatchAll before).dispatchRecv c := by
    rw [hsplit, Session.dispatchAll_append]
    exact Session.dispatchAll_of_closed hclosed after
  rw [hend]
  refine ⟨sent, todo, htodo, hreceived, hclosed, fun hnil => ⟨before.length, ?_⟩, ?_⟩
  · have htake : chunks.take before.length = before := by rw [hsplit, List.take_left]
    rw [htake]
    refine ⟨?_, hbefore⟩
    have hzero : todo.flatten.length = 0 := by rw [hnil]; rfl
    omega
  · rintro ⟨k, hge, hlt⟩
    by_contra hne
    have hshort := hs.unread_lt hne
    -- The first `k` chunks are among those before `c`.
    have hk : k ≤ before.length := by
      by_contra hk
      obtain ⟨j, rfl⟩ : ∃ j, k = before.length + (j + 1) := ⟨k - before.length - 1, by omega⟩
      rw [hsplit, List.take_length_add_append, List.take_succ_cons, List.flatten_append,
        List.flatten_cons, List.length_append, List.length_append] at hlt
      omega
    have hle : (chunks.take k).flatten.length ≤ before.flatten.length := by
      rw [hsplit, List.take_append_of_le_length hk]
      conv_rhs => rw [← List.take_append_drop k before, List.flatten_append, List.length_append]
      exact Nat.le_add_right _ _
    omega

/-- The packets before a bad header are all delivered, and the session is closed, exactly if a
chunk ends at the end of the last packet or inside the bad header. -/
theorem delivered_before_bad_iff {packets chunks : List (List UInt8)} {bad : List UInt8}
    (hpackets : ∀ p ∈ packets, WellFormed p) (hbad : BadHeader bad)
    (hchunks : ∀ c ∈ chunks, c.length ≤ recvBufferSize)
    (hcut : chunks.flatten = packets.flatten ++ bad) :
    (init.dispatchAll chunks).received = packets ∧ (init.dispatchAll chunks).closed = true ↔
      ∃ k, packets.flatten.length ≤ (chunks.take k).flatten.length ∧
        (chunks.take k).flatten.length < packets.flatten.length + packetHeaderSize := by
  obtain ⟨sent, todo, hsplit, hreceived, hclosed, hiff⟩ :=
    dispatchAll_bad hpackets hbad hchunks hcut
  rw [← hiff, hreceived, hsplit]
  constructor
  · rintro ⟨hall, -⟩
    exact List.self_eq_append_right.mp hall
  · intro hnil
    exact ⟨by rw [hnil, List.append_nil], hclosed⟩

/-- A packet and a header of size 0, cut inside the header. -/
theorem delivered_before_bad_iff_cut :
    (init.dispatchAll [[4, 0, 1, 0, 0], [0, 0, 0]]).received = [[4, 0, 1, 0]] ∧
        (init.dispatchAll [[4, 0, 1, 0, 0], [0, 0, 0]]).closed = true ↔
      ∃ k, [[(4 : UInt8), 0, 1, 0]].flatten.length ≤
          ([[(4 : UInt8), 0, 1, 0, 0], [0, 0, 0]].take k).flatten.length ∧
        ([[(4 : UInt8), 0, 1, 0, 0], [0, 0, 0]].take k).flatten.length <
          [[(4 : UInt8), 0, 1, 0]].flatten.length + packetHeaderSize :=
  delivered_before_bad_iff (by decide) (show BadHeader [0, 0, 0, 0] from ⟨by decide, by decide⟩)
    (by decide) rfl

/-- In one chunk the packet is dropped. -/
theorem not_delivered_one_chunk :
    (init.dispatchAll [[4, 0, 1, 0, 0, 0, 0, 0]]).received ≠ [[4, 0, 1, 0]] := by
  have hp : ∀ p ∈ [[(4 : UInt8), 0, 1, 0]], WellFormed p := by decide
  have hbad : BadHeader [0, 0, 0, 0] := ⟨by decide, by decide⟩
  have hstream : init.unread ++ [4, 0, 1, 0, 0, 0, 0, 0] ++ [] =
      [[(4 : UInt8), 0, 1, 0]].flatten ++ [0, 0, 0, 0] := rfl
  have hclosed := (awaits_init hp).badChunk hp hbad (by decide) hstream (by decide)
  rw [Session.dispatchAll, List.foldl_cons, List.foldl_nil, hclosed.2]
  exact (List.cons_ne_nil _ _).symm

end NetworkModule.PacketFraming
