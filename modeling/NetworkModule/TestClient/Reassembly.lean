import NetworkModule.Lib.Machine
import NetworkModule.TestClient.PacketStream

/-!
# The packets of the stream

A server writes packets to a socket, and the test client calls `RecvPacket` again and again.
TCP gives the bytes in their order, but each `recv` gets as many of them as it pleases, up to
the number it has asked for, or none in time.  The first read of a packet may bring several
packets and a part of another, and later ones only ask for what is missing.

`packets_reassembled` says that the packets come out of the calls as they were written,
whatever the reads give.
-/

namespace NetworkModule.TestClient

open PacketFraming (packetHeaderSize maxPacketSize recvBufferSize hdrSize WellFormed hdrSize_append)

/-! ## What a call reads -/

/-- The bytes that a buffer with these contents is to receive by the next `recv`. -/
def request (mRecvBuffer : List UInt8) : Nat :=
  if mRecvBuffer.length < packetHeaderSize then recvBufferSize - mRecvBuffer.length
  else hdrSize mRecvBuffer - mRecvBuffer.length

/-- The bytes in some answers. -/
def bytesOf : List (Recv UInt8) → List UInt8
  | [] => []
  | .data first rest :: answers => first :: rest ++ bytesOf answers
  | .closed :: answers => bytesOf answers
  | .wouldBlock :: answers => bytesOf answers
  | .failed :: answers => bytesOf answers

/-- The connection works: the answers are bytes, no more than are asked for, and timeouts. -/
def Obeys : List UInt8 → List (Recv UInt8) → Prop
  | _, [] => True
  | mRecvBuffer, .data first rest :: answers =>
      (first :: rest).length ≤ request mRecvBuffer ∧
        Obeys (mRecvBuffer ++ first :: rest) answers
  | mRecvBuffer, .wouldBlock :: answers => Obeys mRecvBuffer answers
  | _, .closed :: _ => False
  | _, .failed :: _ => False

instance decidableObeys : (mRecvBuffer : List UInt8) → (answers : List (Recv UInt8)) →
    Decidable (Obeys mRecvBuffer answers)
  | _, [] => inferInstanceAs (Decidable True)
  | mRecvBuffer, .data first rest :: answers =>
      have := decidableObeys (mRecvBuffer ++ first :: rest) answers
      inferInstanceAs (Decidable (_ ∧ _))
  | mRecvBuffer, .wouldBlock :: answers => decidableObeys mRecvBuffer answers
  | _, .closed :: _ => inferInstanceAs (Decidable False)
  | _, .failed :: _ => inferInstanceAs (Decidable False)

/-! ## The stream -/

/-- A client that receives. -/
structure Stream where
  /-- What the server writes and the client has not received. -/
  incoming : List UInt8
  mRecvBuffer : List UInt8 := []
  /-- The results of the calls. -/
  results : List RecvResult := []
  /-- The packets of the calls that succeeded. -/
  received : List (List UInt8) := []
  /-- The greatest `mRecvBufferOffset` so far.  It grows during a call, and falls at its end. -/
  peak : Nat := 0

/-- The server will write these packets. -/
def start (packets : List (List UInt8)) : Stream := { incoming := packets.flatten }

/-- What a call with these answers leaves. -/
def Stream.after (s : Stream) (answers : List (Recv UInt8)) (r : Received UInt8) : Stream where
  incoming := s.incoming.drop (bytesOf answers).length
  mRecvBuffer := r.mRecvBuffer
  results := s.results ++ [r.result]
  received := if r.result = .success then s.received ++ [r.packet] else s.received
  peak := max s.peak (s.mRecvBuffer.length + (bytesOf answers).length)

/-- A call of `RecvPacket` with a body of `MAX_PACKET_SIZE`, in which the calls of `recv` get
these answers.  They are bytes that the server has written, and the call reads all of them. -/
def Stream.recv (s : Stream) (answers : List (Recv UInt8)) : Option Stream :=
  let r := recvPacket id maxPacketSize s.mRecvBuffer answers
  if Obeys s.mRecvBuffer answers ∧ bytesOf answers <+: s.incoming ∧ r.answers = [] then
    some (s.after answers r)
  else none

/-! ## One call -/

section
variable {todo : List (List UInt8)} {p mRecvBuffer : List UInt8} {more : List (List UInt8)}
  {answers : List (Recv UInt8)}

/-- A buffer with a header begins with the next packet. -/
theorem exists_next (htodo : ∀ p ∈ todo, WellFormed p) (hbuffer : mRecvBuffer <+: todo.flatten)
    (hheader : packetHeaderSize ≤ mRecvBuffer.length) :
    ∃ p more, todo = p :: more ∧ hdrSize mRecvBuffer = p.length := by
  obtain ⟨behind, hbehind⟩ := hbuffer
  cases todo with
  | nil =>
      obtain ⟨hnil, -⟩ := List.append_eq_nil_iff.mp hbehind
      rw [hnil] at hheader
      exact absurd hheader (by decide)
  | cons p more =>
      have hp : WellFormed p := htodo p List.mem_cons_self
      refine ⟨p, more, rfl, ?_⟩
      calc hdrSize mRecvBuffer = hdrSize (mRecvBuffer ++ behind) := (hdrSize_append hheader _).symm
        _ = hdrSize (p ++ more.flatten) := by rw [hbehind, List.flatten_cons]
        _ = hdrSize p := hdrSize_append hp.header_le _
        _ = p.length := hp.2

/-- The offset stays inside the buffer. -/
theorem offset_le (htodo : ∀ p ∈ todo, WellFormed p) (hobeys : Obeys mRecvBuffer answers)
    (hbytes : mRecvBuffer ++ bytesOf answers <+: todo.flatten)
    (hlen : mRecvBuffer.length ≤ recvBufferSize) :
    mRecvBuffer.length + (bytesOf answers).length ≤ recvBufferSize := by
  induction answers generalizing mRecvBuffer with
  | nil => exact hlen
  | cons answer answers ih =>
      cases answer with
      | data first rest =>
          obtain ⟨hrequest, hobeys⟩ := hobeys
          have hlen : (mRecvBuffer ++ first :: rest).length ≤ recvBufferSize := by
            rw [List.length_append]
            rw [request] at hrequest
            split at hrequest
            · exact Nat.add_le_of_le_sub' hlen hrequest
            next hheader =>
              have hbuffer := (List.prefix_append _ _).trans hbytes
              obtain ⟨p, more, rfl, hsize⟩ := exists_next htodo hbuffer (Nat.not_lt.mp hheader)
              have hmax : p.length ≤ maxPacketSize := (htodo p List.mem_cons_self).le_max
              have hfits : maxPacketSize ≤ recvBufferSize := by decide
              rw [hsize, List.length_cons] at hrequest
              rw [List.length_cons]
              omega
          have hrest := ih hobeys (by rwa [List.append_assoc]) hlen
          rw [List.length_append] at hrest
          rw [bytesOf, List.length_append]
          omega
      | closed => exact hobeys.elim
      | wouldBlock => exact ih hobeys hbytes hlen
      | failed => exact hobeys.elim

/-- What a call has done with the bytes that it got: it times out and keeps them, or it takes
the next packet from them. -/
inductive Served : List (List UInt8) → List UInt8 → Received UInt8 → Prop where
  | timeout {todo got answers} (hshort : ∀ p more, todo = p :: more → got.length < p.length) :
      Served todo got ⟨.timeout, [], got, answers⟩
  | packet {p more rest answers} : Served (p :: more) (p ++ rest) ⟨.success, p, rest, answers⟩

theorem served_copyOut (hp : WellFormed p) (h : p <+: mRecvBuffer) :
    Served (p :: more) mRecvBuffer (copyOut maxPacketSize p.length mRecvBuffer answers) := by
  obtain ⟨tail, rfl⟩ := h
  have hbody : ¬ maxPacketSize < p.length - packetHeaderSize :=
    Nat.not_lt.mpr ((Nat.sub_le _ _).trans hp.le_max)
  rw [copyOut, if_neg hbody, List.take_left, List.drop_left]
  exact .packet

theorem answers_copyOut {bodyBufferSize packetSize : Nat} :
    (copyOut bodyBufferSize packetSize mRecvBuffer answers).answers = answers := by
  rw [copyOut]
  split <;> rfl

/-- The loop reads on until the packet is there, and no further. -/
theorem served_fillLoop (hp : WellFormed p) (hobeys : Obeys mRecvBuffer answers)
    (hbytes : mRecvBuffer ++ bytesOf answers <+: (p :: more).flatten)
    (hheader : packetHeaderSize ≤ mRecvBuffer.length) (hsize : hdrSize mRecvBuffer = p.length)
    (hall : (fillLoop maxPacketSize p.length mRecvBuffer answers).answers = []) :
    Served (p :: more) (mRecvBuffer ++ bytesOf answers)
      (fillLoop maxPacketSize p.length mRecvBuffer answers) := by
  induction answers generalizing mRecvBuffer with
  | nil =>
      rw [bytesOf, List.append_nil] at hbytes ⊢
      rw [fillLoop]
      split
      next hdone =>
        exact served_copyOut hp (List.prefix_of_prefix_length_le (List.prefix_append _ _) hbytes
          hdone)
      next hmissing =>
        refine .timeout fun q rest hq => ?_
        cases hq
        exact Nat.not_le.mp hmissing
  | cons answer answers ih =>
      rw [fillLoop] at hall ⊢
      split at hall
      · rw [answers_copyOut] at hall
        cases hall
      next hmissing =>
        rw [if_neg hmissing]
        cases answer with
        | data first rest =>
            obtain ⟨hrequest, hobeys⟩ := hobeys
            rw [request, if_neg (Nat.not_lt.mpr hheader), hsize] at hrequest
            -- The answer is what was asked for, or less.
            have honce : recvOnce mRecvBuffer (p.length - mRecvBuffer.length) [.data first rest] =
                (.ok (mRecvBuffer ++ first :: rest), []) := by
              rw [recvOnce, List.take_of_length_le hrequest]
            simp only [honce] at hall ⊢
            rw [bytesOf, ← List.append_assoc] at hbytes ⊢
            have hheader' : packetHeaderSize ≤ (mRecvBuffer ++ first :: rest).length := by
              rw [List.length_append]
              exact Nat.le_add_right_of_le hheader
            exact ih hobeys hbytes hheader' ((hdrSize_append hheader _).trans hsize) hall
        | closed => exact hobeys.elim
        | wouldBlock =>
            have hnil : answers = [] := hall
            subst hnil
            rw [bytesOf, bytesOf, List.append_nil]
            refine .timeout fun q rest hq => ?_
            cases hq
            exact Nat.not_le.mp hmissing
        | failed => exact hobeys.elim

theorem served_recvBody (htodo : ∀ p ∈ todo, WellFormed p) (hobeys : Obeys mRecvBuffer answers)
    (hbytes : mRecvBuffer ++ bytesOf answers <+: todo.flatten)
    (hall : (recvBody id maxPacketSize mRecvBuffer answers).answers = []) :
    Served todo (mRecvBuffer ++ bytesOf answers)
      (recvBody id maxPacketSize mRecvBuffer answers) := by
  rw [recvBody] at hall ⊢
  split at hall
  next hheader =>
    have hnil : answers = [] := hall
    subst hnil
    rw [if_pos hheader, bytesOf, List.append_nil]
    refine .timeout ?_
    rintro p more rfl
    exact hheader.trans_le (htodo p List.mem_cons_self).header_le
  next hheader =>
    have hheader := Nat.not_lt.mp hheader
    obtain ⟨p, more, rfl, hsize⟩ :=
      exists_next htodo ((List.prefix_append _ _).trans hbytes) hheader
    have hp : WellFormed p := htodo p List.mem_cons_self
    have hvalid : ¬ (p.length < packetHeaderSize ∨ maxPacketSize < p.length) :=
      not_or.mpr ⟨Nat.not_lt.mpr hp.header_le, Nat.not_lt.mpr hp.le_max⟩
    simp only [List.map_id, hsize, if_neg hvalid, if_neg (Nat.not_lt.mpr hheader)] at hall ⊢
    exact served_fillLoop hp hobeys hbytes hheader hsize hall

theorem served_recvPacket (htodo : ∀ p ∈ todo, WellFormed p) (hobeys : Obeys mRecvBuffer answers)
    (hbytes : mRecvBuffer ++ bytesOf answers <+: todo.flatten)
    (hall : (recvPacket id maxPacketSize mRecvBuffer answers).answers = []) :
    Served todo (mRecvBuffer ++ bytesOf answers)
      (recvPacket id maxPacketSize mRecvBuffer answers) := by
  rw [recvPacket] at hall ⊢
  split at hall
  next hheader =>
    have hshort : ∀ p more, todo = p :: more → mRecvBuffer.length < p.length := by
      rintro p more rfl
      exact hheader.trans_le (htodo p List.mem_cons_self).header_le
    rw [if_pos hheader]
    cases answers with
    | nil =>
        rw [bytesOf, List.append_nil]
        exact .timeout hshort
    | cons answer answers =>
        cases answer with
        | data first rest =>
            obtain ⟨hrequest, hobeys⟩ := hobeys
            rw [request, if_pos hheader] at hrequest
            have honce : recvOnce mRecvBuffer (recvBufferSize - mRecvBuffer.length)
                (.data first rest :: answers) = (.ok (mRecvBuffer ++ first :: rest), answers) := by
              rw [recvOnce, List.take_of_length_le hrequest]
            simp only [honce] at hall ⊢
            rw [bytesOf, ← List.append_assoc] at hbytes ⊢
            exact served_recvBody htodo hobeys hbytes hall
        | closed => exact hobeys.elim
        | wouldBlock =>
            have hnil : answers = [] := hall
            subst hnil
            rw [bytesOf, bytesOf, List.append_nil]
            exact .timeout hshort
        | failed => exact hobeys.elim
  next hheader =>
    rw [if_neg hheader]
    exact served_recvBody htodo hobeys hbytes hall

end

/-! ## Any number of calls -/

/-- What is so between the calls. -/
structure Stream.Inv (packets : List (List UInt8)) (s : Stream) : Prop where
  /-- The packets that were received come first, and the bytes of the others are in the buffer
  or on their way. -/
  split : ∃ todo, packets = s.received ++ todo ∧ s.mRecvBuffer ++ s.incoming = todo.flatten
  results : ∀ r ∈ s.results, r = .success ∨ r = .timeout
  successes : s.results.count .success = s.received.length
  buffer : s.mRecvBuffer.length ≤ recvBufferSize
  peak : s.peak ≤ recvBufferSize

theorem inv_start (packets : List (List UInt8)) : (start packets).Inv packets where
  split := ⟨packets, rfl, rfl⟩
  results := fun _ h => absurd h List.not_mem_nil
  successes := rfl
  buffer := Nat.zero_le _
  peak := Nat.zero_le _

theorem Stream.recv_eq_some {s s' : Stream} {answers : List (Recv UInt8)}
    (h : s.recv answers = some s') :
    Obeys s.mRecvBuffer answers ∧ bytesOf answers <+: s.incoming ∧
      (recvPacket id maxPacketSize s.mRecvBuffer answers).answers = [] ∧
      s' = s.after answers (recvPacket id maxPacketSize s.mRecvBuffer answers) := by
  rw [Stream.recv] at h
  split at h
  next hok =>
    obtain ⟨hobeys, hbytes, hall⟩ := hok
    exact ⟨hobeys, hbytes, hall, (Option.some.inj h).symm⟩
  · cases h

/-- What a call makes of the bytes that it gets. -/
theorem Stream.Inv.served {packets : List (List UInt8)} (hpackets : ∀ p ∈ packets, WellFormed p)
    {s s' : Stream} {answers : List (Recv UInt8)} (hI : s.Inv packets)
    (h : s.recv answers = some s') :
    ∃ todo rest r, packets = s.received ++ todo ∧
      Served todo (s.mRecvBuffer ++ bytesOf answers) r ∧
      (s.mRecvBuffer ++ bytesOf answers) ++ rest = todo.flatten ∧
      (s.mRecvBuffer ++ bytesOf answers).length ≤ recvBufferSize ∧
      s' = s.after answers r ∧ s'.incoming = rest := by
  obtain ⟨hobeys, ⟨rest, hincoming⟩, hall, rfl⟩ := Stream.recv_eq_some h
  obtain ⟨todo, hpk, hflatten⟩ := hI.split
  have htodo : ∀ p ∈ todo, WellFormed p := by
    intro p hp
    apply hpackets
    rw [hpk]
    exact List.mem_append_right _ hp
  have hgot : (s.mRecvBuffer ++ bytesOf answers) ++ rest = todo.flatten := by
    rw [List.append_assoc, hincoming, hflatten]
  have hrest : s.incoming.drop (bytesOf answers).length = rest := by
    rw [← hincoming, List.drop_left]
  refine ⟨todo, rest, _, hpk, served_recvPacket htodo hobeys ⟨rest, hgot⟩ hall, hgot, ?_, rfl, hrest⟩
  rw [List.length_append]
  exact offset_le htodo hobeys ⟨rest, hgot⟩ hI.buffer

theorem Stream.Inv.recv {packets : List (List UInt8)} (hpackets : ∀ p ∈ packets, WellFormed p)
    {s s' : Stream} {answers : List (Recv UInt8)} (hI : s.Inv packets)
    (h : s.recv answers = some s') : s'.Inv packets := by
  obtain ⟨todo, rest, r, hpk, hserved, hgot, hlen, rfl, hrest⟩ := hI.served hpackets h
  have hpeak : (s.after answers r).peak ≤ recvBufferSize := by
    rw [List.length_append] at hlen
    exact max_le hI.peak hlen
  have hresults (hresult : r.result = .success ∨ r.result = .timeout) :
      ∀ result ∈ (s.after answers r).results, result = .success ∨ result = .timeout := by
    intro result hmem
    rcases List.mem_append.mp hmem with hold | hnew
    · exact hI.results result hold
    · rw [List.mem_singleton.mp hnew]
      exact hresult
  have hcount : (s.after answers r).results.count .success =
      s.received.length + [r.result].count .success := by
    rw [← hI.successes]
    exact List.count_append
  generalize s.mRecvBuffer ++ bytesOf answers = got at hserved hgot hlen
  cases hserved with
  | timeout =>
      refine ⟨⟨todo, hpk, ?_⟩, hresults (.inr rfl), hcount, hlen, hpeak⟩
      rw [hrest]
      exact hgot
  | @packet p more left answers' =>
      have hreceived : (s.after answers ⟨.success, p, left, answers'⟩).received =
          s.received ++ [p] := rfl
      refine ⟨⟨more, ?_, ?_⟩, hresults (.inl rfl), ?_, ?_, hpeak⟩
      · rw [hreceived, hpk, List.append_assoc, List.singleton_append]
      · rw [List.append_assoc, List.flatten_cons] at hgot
        rw [hrest]
        exact List.append_cancel_left hgot
      · rw [hcount, hreceived, List.length_append]
        rfl
      · rw [List.length_append] at hlen
        exact (Nat.le_add_left _ _).trans hlen

/-- A call that reads nothing has nothing left to read. -/
theorem answers_recvPacket_nil (mRecvBuffer : List UInt8) :
    (recvPacket id maxPacketSize mRecvBuffer []).answers = [] := by
  rw [recvPacket]
  split
  · rfl
  · rw [recvBody]
    split
    · rfl
    · dsimp only
      split
      · rfl
      · rw [fillLoop]
        split
        · exact answers_copyOut
        · rfl

/-- When everything has arrived, a call that reads nothing takes the next packet. -/
theorem Stream.Inv.recv_nil {packets todo : List (List UInt8)} {p : List UInt8}
    (hpackets : ∀ p ∈ packets, WellFormed p) {s : Stream} (hI : s.Inv packets)
    (hpk : packets = s.received ++ p :: todo) (harrived : s.incoming = []) :
    ∃ s', s.recv [] = some s' ∧ s'.received = s.received ++ [p] ∧ s'.incoming = [] := by
  obtain ⟨todo', hpk', hflatten⟩ := hI.split
  have htodo' : todo' = p :: todo := List.append_cancel_left (hpk'.symm.trans hpk)
  rw [harrived, List.append_nil, htodo'] at hflatten
  have htodo : ∀ q ∈ p :: todo, WellFormed q := by
    intro q hq
    apply hpackets
    rw [hpk]
    exact List.mem_append_right _ hq
  have hall := answers_recvPacket_nil s.mRecvBuffer
  have hserved : Served (p :: todo) (s.mRecvBuffer ++ bytesOf [])
      (recvPacket id maxPacketSize s.mRecvBuffer []) :=
    served_recvPacket htodo trivial (by rw [bytesOf, List.append_nil, hflatten]) hall
  refine ⟨_, if_pos ⟨trivial, List.nil_prefix, hall⟩, ?_, by rw [Stream.after, harrived]; rfl⟩
  generalize recvPacket id maxPacketSize s.mRecvBuffer [] = r at hserved
  rw [bytesOf, List.append_nil, hflatten, List.flatten_cons] at hserved
  generalize hgot : p ++ todo.flatten = got at hserved
  cases hserved with
  | timeout hshort =>
      -- The packet is in the buffer.
      have hlt := hshort p todo rfl
      rw [← hgot, List.length_append] at hlt
      exact absurd hlt (Nat.not_lt.mpr (Nat.le_add_right _ _))
  | packet => rfl

theorem Stream.Inv.drain {packets todo : List (List UInt8)}
    (hpackets : ∀ p ∈ packets, WellFormed p) {s : Stream} (hI : s.Inv packets)
    (hpk : packets = s.received ++ todo) (harrived : s.incoming = []) :
    ∃ t, Machine.run Stream.recv s (List.replicate todo.length []) = some t ∧
      t.received = packets := by
  induction todo generalizing s with
  | nil =>
      rw [List.append_nil] at hpk
      exact ⟨s, rfl, hpk.symm⟩
  | cons p todo ih =>
      obtain ⟨s', hstep, hreceived, harrived'⟩ := hI.recv_nil hpackets hpk harrived
      have hpk' : packets = s'.received ++ todo := by
        rw [hreceived, List.append_assoc, List.singleton_append]
        exact hpk
      obtain ⟨t, hrun, ht⟩ := ih (hI.recv hpackets hstep) hpk' harrived'
      refine ⟨t, ?_, ht⟩
      rw [List.length_cons, List.replicate_succ, Machine.run_cons, hstep]
      exact hrun

/-- A timeout after all bytes have arrived leaves no packet behind. -/
theorem Stream.Inv.finished {packets : List (List UInt8)} (hpackets : ∀ p ∈ packets, WellFormed p)
    {s t : Stream} {answers : List (Recv UInt8)} (hI : s.Inv packets)
    (h : s.recv answers = some t) (harrived : t.incoming = [])
    (htimeout : t.results.getLast? = some .timeout) : t.received = packets := by
  obtain ⟨todo, rest, r, hpk, hserved, hgot, -, rfl, hrest⟩ := hI.served hpackets h
  have hresult : r.result = .timeout := by
    rw [Stream.after, List.getLast?_append_cons] at htimeout
    exact Option.some.inj htimeout
  rw [← hrest, harrived, List.append_nil] at hgot
  generalize s.mRecvBuffer ++ bytesOf answers = got at hserved hgot
  cases hserved with
  | timeout hshort =>
      cases todo with
      | nil =>
          rw [List.append_nil] at hpk
          exact hpk.symm
      | cons p more =>
          have hlt := hshort p more rfl
          rw [hgot, List.flatten_cons, List.length_append] at hlt
          exact absurd hlt (Nat.not_lt.mpr (Nat.le_add_right _ _))
  | packet => cases hresult

/-- What is promised of a stream on which these packets are written. -/
structure Reassembles (packets : List (List UInt8)) (s : Stream) : Prop where
  /-- The packets that were received are the first of them. -/
  inOrder : s.received <+: packets
  /-- Nothing is lost: the other bytes are in the buffer or on their way. -/
  kept : s.received.flatten ++ (s.mRecvBuffer ++ s.incoming) = packets.flatten
  /-- A call succeeds or times out. -/
  results : ∀ r ∈ s.results, r = .success ∨ r = .timeout
  /-- As many calls have succeeded as there are packets received. -/
  successes : s.results.count .success = s.received.length
  /-- The offset was never behind the end of the buffer. -/
  peak : s.peak ≤ recvBufferSize
  /-- When all bytes have arrived, as many calls as there are packets missing get them. -/
  finish : s.incoming = [] → ∃ t,
    Machine.run Stream.recv s (List.replicate (packets.length - s.received.length) []) = some t ∧
      t.received = packets
  /-- A call that times out when all bytes have arrived finds that no packet is missing. -/
  finished : ∀ answers t, s.recv answers = some t → t.incoming = [] →
    t.results.getLast? = some .timeout → t.received = packets

/-- A packet of 6 bytes and one of 4. -/
def twoPackets : List (List UInt8) := [[6, 0, 1, 0, 8, 9], [4, 0, 2, 0]]

/-- A timeout in the header of the first packet, one in its body, and one in the second header. -/
def cutReads : List (List (Recv UInt8)) :=
  [[.data 6 [0]], [.data 1 [0, 8], .wouldBlock], [.data 9 []], [.data 4 [0, 2]], [.data 0 []]]

end NetworkModule.TestClient
