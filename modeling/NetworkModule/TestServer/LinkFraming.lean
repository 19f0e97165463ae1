import NetworkModule.TestServer.Reconnect

/-!
# Packets of the DB connections

The DB server sends well-formed packets on every connection, and `recv` cuts the bytes as
it likes.  The packets given to `OnRecv` for a connection should be the complete packets
of its own bytes.

The receive buffer outlives the connection.  If a connection is lost inside a packet, the
beginning of this packet stays in the buffer, and `ConnectToDBServer` does not remove it:
only `DisconnectFromDBServer` clears the buffer.  The bytes of the next connection are then
read as the rest of the packet.  `connections_framed` says that the packets are right as
long as every new connection finds no unread bytes.
-/

namespace NetworkModule.TestServer.DBLink

open NetworkModule.PacketFraming (hdrSize hdrSize_append)

/-! ## Whole packets and beginnings of packets -/

theorem WellFormed.ne_nil {p : List UInt8} (h : WellFormed p) : p ≠ [] := by
  intro hp
  have hlen := h.1
  rw [hp] at hlen
  exact absurd hlen (by decide)

/-- The size field lies in the header, whatever follows. -/
theorem hdrSize_append_of_header {p : List UInt8} (h : serverPacketHeaderSize ≤ p.length)
    (q : List UInt8) : hdrSize (p ++ q) = hdrSize p :=
  hdrSize_append (le_trans (by decide) h) q

/-- The loop stops here: either the header is not complete, or it announces more bytes than
there are. -/
def Incomplete (tail : List UInt8) : Prop :=
  serverPacketHeaderSize ≤ tail.length →
    serverPacketHeaderSize ≤ hdrSize tail ∧ hdrSize tail ≤ maxServerPacketSize ∧
      tail.length < hdrSize tail

theorem incomplete_of_begun {tail : List UInt8} {todo : List (List UInt8)}
    (htodo : ∀ p ∈ todo, WellFormed p) (h : Cutting.Begun tail todo) : Incomplete tail := by
  rcases h with ⟨-, rfl⟩ | ⟨p, more, rfl, ⟨q, hq⟩, hlt⟩
  · exact fun hhdr => absurd hhdr (by decide)
  · intro hhdr
    obtain ⟨hmin, hmax, hlen⟩ := htodo p (List.mem_cons_self ..)
    have hsize : hdrSize tail = p.length := by
      rw [← hlen, ← hq, hdrSize_append_of_header hhdr]
    rw [hsize]
    exact ⟨hmin, hmax, hlt⟩

/-! ## The loop over the packets -/

theorem packetLoop_incomplete {buf : List UInt8} {off : Nat} (packets : List (List UInt8))
    (h : Incomplete (buf.drop off)) : packetLoop buf off packets = (buf, off, packets) := by
  rw [packetLoop]
  by_cases hhdr : serverPacketHeaderSize ≤ buf.length - off
  · obtain ⟨hmin, hmax, hshort⟩ := h (by simpa using hhdr)
    rw [List.length_drop] at hshort
    simp only [if_pos hhdr]
    rw [if_neg (by omega), if_pos hshort]
  · rw [if_neg hhdr]

theorem packetLoop_packet {buf : List UInt8} {off : Nat} (packets : List (List UInt8))
    {p rest : List UInt8} (hp : WellFormed p) (h : buf.drop off = p ++ rest) :
    packetLoop buf off packets = packetLoop buf (off + p.length) (packets ++ [p]) := by
  obtain ⟨hmin, hmax, hlen⟩ := hp
  have hroom : buf.length - off = p.length + rest.length := by
    rw [← List.length_drop, h, List.length_append]
  have hsize : hdrSize (buf.drop off) = p.length := by
    rw [h, hdrSize_append_of_header hmin, hlen]
  have htake : (buf.drop off).take p.length = p := by rw [h, List.take_left]
  rw [packetLoop, if_pos (by omega)]
  simp only [hsize]
  rw [if_neg (by omega), if_neg (by omega), htake]

/-- The loop takes every whole packet and stops at the incomplete one. -/
theorem packetLoop_whole {whole : List (List UInt8)} (hw : ∀ p ∈ whole, WellFormed p)
    {buf : List UInt8} {off : Nat} (packets : List (List UInt8)) {tail : List UInt8}
    (ht : Incomplete tail) (h : buf.drop off = whole.flatten ++ tail) :
    packetLoop buf off packets = (buf, off + whole.flatten.length, packets ++ whole) := by
  induction whole generalizing off packets with
  | nil =>
      rw [packetLoop_incomplete packets (by simpa [h] using ht)]
      simp
  | cons p ps ih =>
      have hp := hw p (List.mem_cons_self ..)
      rw [List.flatten_cons, List.append_assoc] at h
      rw [packetLoop_packet packets hp h, ih fun q hq => hw q (List.mem_cons_of_mem p hq)]
      · simp [Nat.add_assoc]
      · rw [← List.drop_drop, h, List.drop_left]

theorem compact_offset_le {buf : List UInt8} {off : Nat} (h : off ≤ buf.length) :
    (compact buf off).2 ≤ (compact buf off).1.length := by
  unfold compact
  split
  · simp
  · exact h

/-- Compacting keeps the unread bytes. -/
theorem drop_compact (buf : List UInt8) (off : Nat) :
    (compact buf off).1.drop (compact buf off).2 = buf.drop off := by
  unfold compact
  split
  · rfl
  · rfl

/-- The bytes that the loop has not consumed. -/
def Link.unread (s : Link) : List UInt8 := s.mDBRecvBuffer.drop s.mDBRecvOffset

/-- What a chunk does that completes the packets `whole`. -/
theorem receive_whole {s : Link} {chunk : List UInt8} {whole : List (List UInt8)}
    {tail : List UInt8} (hoff : s.mDBRecvOffset ≤ s.mDBRecvBuffer.length)
    (hw : ∀ p ∈ whole, WellFormed p) (ht : Incomplete tail)
    (h : s.unread ++ chunk = whole.flatten ++ tail) :
    (receive s chunk).mDBRecvOffset ≤ (receive s chunk).mDBRecvBuffer.length ∧
      (receive s chunk).unread = tail ∧
      (receive s chunk).conns = s.conns.modify (s.conns.length - 1) fun c =>
        { bytes := c.bytes ++ chunk, passed := c.passed ++ whole } := by
  have hdrop : (s.mDBRecvBuffer ++ chunk).drop s.mDBRecvOffset = whole.flatten ++ tail := by
    rw [List.drop_append_of_le_length hoff]
    exact h
  have hloop := packetLoop_whole hw [] ht hdrop
  have hle : s.mDBRecvOffset + whole.flatten.length ≤ (s.mDBRecvBuffer ++ chunk).length := by
    have hlen := congrArg List.length hdrop
    simp only [List.length_drop, List.length_append] at hlen ⊢
    omega
  refine ⟨?_, ?_, ?_⟩
  · simp only [receive, hloop]
    exact compact_offset_le hle
  · simp only [Link.unread, receive, hloop, drop_compact]
    rw [← List.drop_drop, hdrop, List.drop_left]
  · simp only [receive, hloop, List.nil_append]

/-! ## What a step does to the bytes -/

/-- A new connection finds no unread bytes. -/
def startsEmpty (s : Link) : Act → Bool
  | .main _ => s.main ≠ .connecting .store || s.unread = []
  | .reconnect _ => s.reconnect ≠ .connecting .store || s.unread = []
  | .recv _ => true

/-- The newest connection has a thread in `recv`, or is about to get one. -/
def Receiving (s : Link) : Prop :=
  s.recv = .head ∨ s.recv = .recv ∨ s.main = .connecting .spawn ∨ s.reconnect = .connecting .spawn

/-- What one step does to the receive buffer and the connections. -/
inductive Effect (s s' : Link) : Prop where
  | still (hbuf : s'.mDBRecvBuffer = s.mDBRecvBuffer) (hoff : s'.mDBRecvOffset = s.mDBRecvOffset)
      (hconns : s'.conns = s.conns) (hrecv : Receiving s' → Receiving s)
  | connect (hbuf : s'.mDBRecvBuffer = s.mDBRecvBuffer) (hoff : s'.mDBRecvOffset = s.mDBRecvOffset)
      (hconns : s'.conns = s.conns ++ [({} : Conn)]) (hempty : s.unread = [])
  | receive (chunk : List UInt8) (hbuf : s'.mDBRecvBuffer = (receive s chunk).mDBRecvBuffer)
      (hoff : s'.mDBRecvOffset = (receive s chunk).mDBRecvOffset)
      (hconns : s'.conns = (receive s chunk).conns) (hrecv : Receiving s)
  | clear (hbuf : s'.mDBRecvBuffer = []) (hoff : s'.mDBRecvOffset = 0)
      (hconns : s'.conns = s.conns) (hrecv : ¬ Receiving s')

/-- `Stop` has joined the reconnect loop. -/
def MainPc.joinedLoop : MainPc → Bool
  | .dbTest | .dbStore | .joinRecv | .reset | .stopped => true
  | _ => false

/-- What holds of the threads while the server stops. -/
structure StopInv (s : Link) : Prop where
  /-- A loop that starts late finds that the server does not run. -/
  late : s.main.joinedLoop = true → ∀ pc, s.reconnect ≠ .connecting pc
  joined : s.main = .reset → s.recv = .none

section
variable {s s' : Link}

theorem recvStep_effect {answer : RecvAnswer} (hs : recvStep s answer = some s') :
    Effect s s' := by
  cases hpc : s.recv with
  | none | ended => simp [recvStep, hpc] at hs
  | recv =>
      cases answer with
      | data chunk =>
          simp only [recvStep, hpc] at hs
          split at hs
          · cases hs
            exact .receive chunk rfl rfl rfl (by simp [Receiving, hpc])
          · cases hs
      | lost | interrupted =>
          simp only [recvStep, hpc, Option.some.injEq] at hs
          subst hs
          exact .still rfl rfl rfl fun _ => by simp [Receiving, hpc]
  | head =>
      simp only [recvStep, hpc, Option.some.injEq] at hs
      subst hs
      exact .still rfl rfl rfl fun _ => by simp [Receiving, hpc]
  | store | set =>
      simp only [recvStep, hpc, Option.some.injEq] at hs
      subst hs
      exact .still rfl rfl rfl fun hr => by simpa [Receiving, hpc] using hr
  | runningTest | reconnectTest =>
      simp only [recvStep, hpc, Option.some.injEq] at hs
      subst hs
      refine .still rfl rfl rfl fun hr => ?_
      simp only [Receiving, hpc] at hr ⊢
      split at hr <;> simpa using hr
  | join =>
      simp only [recvStep, hpc] at hs
      split at hs
      · cases hs
        refine .still rfl rfl rfl fun hr => ?_
        have hmain : s.main = .connecting .spawn := by simpa [Receiving] using hr
        exact .inr (.inr (.inl hmain))
      · cases hs
  | spawn =>
      simp only [recvStep, hpc, Option.some.injEq] at hs
      subst hs
      refine .still rfl rfl rfl fun hr => ?_
      have hmain : s.main = .connecting .spawn := by simpa [Receiving] using hr
      exact .inr (.inr (.inl hmain))

theorem reconnectStep_effect {answer : ConnectAnswer}
    (hok : startsEmpty s (.reconnect answer) = true) (hs : reconnectStep s answer = some s') :
    Effect s s' := by
  cases hpc : s.reconnect with
  | none | ended => simp [reconnectStep, hpc] at hs
  | wait | clear =>
      simp only [reconnectStep, hpc, Option.some.injEq] at hs
      subst hs
      exact .still rfl rfl rfl fun hr => by simpa [Receiving, hpc] using hr
  | runningTest | dbRunningTest | wakeTest =>
      simp only [reconnectStep, hpc, Option.some.injEq] at hs
      subst hs
      refine .still rfl rfl rfl fun hr => ?_
      simp only [Receiving, hpc] at hr ⊢
      split at hr <;> simpa using hr
  | connecting cpc =>
      cases cpc with
      | test =>
          simp only [reconnectStep, hpc, connectStep, Option.map_some, Option.some.injEq] at hs
          subst hs
          by_cases hup : s.mDBRunning = true
          · simp only [if_pos hup]
            exact .still rfl rfl rfl fun hr => by simpa [Receiving, hpc] using hr
          · simp only [if_neg hup]
            exact .still rfl rfl rfl fun hr => by simpa [Receiving, hpc] using hr
      | join =>
          simp only [reconnectStep, hpc, connectStep] at hs
          split at hs
          · simp only [Option.map_some, Option.some.injEq] at hs
            subst hs
            refine .still rfl rfl rfl fun hr => ?_
            have hmain : s.main = .connecting .spawn := by simpa [Receiving] using hr
            exact .inr (.inr (.inl hmain))
          · cases hs
      | openSocket =>
          cases answer with
          | ok | invalidAddress | failed =>
              simp only [reconnectStep, hpc, connectStep, Option.map_some, Option.some.injEq] at hs
              subst hs
              exact .still rfl rfl rfl fun hr => by simpa [Receiving, hpc] using hr
      | store =>
          simp only [reconnectStep, hpc, connectStep, Option.map_some, Option.some.injEq] at hs
          subst hs
          exact .connect rfl rfl rfl (by simpa [startsEmpty, hpc] using hok)
      | spawn =>
          simp only [reconnectStep, hpc, connectStep, Option.map_some, Option.some.injEq] at hs
          subst hs
          exact .still rfl rfl rfl fun _ => by simp [Receiving, hpc]

theorem mainStep_effect {answer : ConnectAnswer} (hI : StopInv s)
    (hok : startsEmpty s (.main answer) = true) (hs : mainStep s answer = some s') :
    Effect s s' := by
  cases hpc : s.main with
  | connecting cpc =>
      cases cpc with
      | test =>
          simp only [mainStep, hpc, connectStep, Option.map_some, Option.some.injEq] at hs
          subst hs
          by_cases hup : s.mDBRunning = true
          · simp only [if_pos hup]
            exact .still rfl rfl rfl fun hr => by simpa [Receiving, hpc] using hr
          · simp only [if_neg hup]
            exact .still rfl rfl rfl fun hr => by simpa [Receiving, hpc] using hr
      | join =>
          simp only [mainStep, hpc, connectStep] at hs
          split at hs
          · simp only [Option.map_some, Option.some.injEq] at hs
            subst hs
            refine .still rfl rfl rfl fun hr => ?_
            have hloop : s.reconnect = .connecting .spawn := by simpa [Receiving] using hr
            exact .inr (.inr (.inr hloop))
          · cases hs
      | openSocket =>
          cases answer with
          | ok | invalidAddress | failed =>
              simp only [mainStep, hpc, connectStep, Option.map_some, Option.some.injEq] at hs
              subst hs
              exact .still rfl rfl rfl fun hr => by simpa [Receiving, hpc] using hr
      | store =>
          simp only [mainStep, hpc, connectStep, Option.map_some, Option.some.injEq] at hs
          subst hs
          exact .connect rfl rfl rfl (by simpa [startsEmpty, hpc] using hok)
      | spawn =>
          simp only [mainStep, hpc, connectStep, Option.map_some, Option.some.injEq] at hs
          subst hs
          exact .still rfl rfl rfl fun _ => by simp [Receiving, hpc]
  | up | store | dbStore =>
      simp only [mainStep, hpc, Option.some.injEq] at hs
      subst hs
      exact .still rfl rfl rfl fun hr => by simpa [Receiving, hpc] using hr
  | dbTest =>
      simp only [mainStep, hpc, Option.some.injEq] at hs
      subst hs
      refine .still rfl rfl rfl fun hr => ?_
      simp only [Receiving, hpc] at hr ⊢
      split at hr <;> simpa using hr
  | joinReconnect =>
      simp only [mainStep, hpc] at hs
      split at hs
      · cases hs
        refine .still rfl rfl rfl fun hr => ?_
        have hrecv : s.recv = .head ∨ s.recv = .recv := by simpa [Receiving] using hr
        exact hrecv.imp_right .inl
      · cases hs
  | joinRecv =>
      simp only [mainStep, hpc] at hs
      split at hs
      · cases hs
        refine .still rfl rfl rfl fun hr => ?_
        have hloop : s.reconnect = .connecting .spawn := by simpa [Receiving] using hr
        exact .inr (.inr (.inr hloop))
      · cases hs
  | reset =>
      -- Both threads are gone, so nobody misses the bytes.
      simp only [mainStep, hpc, Option.some.injEq] at hs
      subst hs
      have hloop := hI.late (by rw [hpc]; rfl) .spawn
      exact .clear rfl rfl rfl (by simp [Receiving, hI.joined hpc, hloop])
  | stopped => simp [mainStep, hpc] at hs

theorem step_effect {a : Act} (hI : StopInv s) (hok : startsEmpty s a = true)
    (hs : DBLink.step s a = some s') : Effect s s' := by
  cases a with
  | main answer => exact mainStep_effect hI hok hs
  | recv answer => exact recvStep_effect hs
  | reconnect answer => exact reconnectStep_effect hok hs

/-! ## Stopping -/

theorem stopInv_init : StopInv {} where
  late := by simp [MainPc.joinedLoop]
  joined := by simp

theorem connectStep_main {answer : ConnectAnswer} {pc : ConnectPc} {r : Link × ConnectNext}
    (h : connectStep s answer pc = some r) : r.1.main = s.main := by
  revert h
  fun_cases connectStep s answer pc <;> intro h <;> cases h <;> rfl

theorem reconnectStep_main {answer : ConnectAnswer} (hs : reconnectStep s answer = some s') :
    s'.main = s.main := by
  cases hpc : s.reconnect with
  | connecting pc =>
      simp only [reconnectStep, hpc] at hs
      obtain ⟨r, hr, rfl⟩ := Option.map_eq_some_iff.mp hs
      rw [← connectStep_main hr]
      split <;> rfl
  | none | ended => simp [reconnectStep, hpc] at hs
  | _ =>
      simp only [reconnectStep, hpc, Option.some.injEq] at hs
      subst hs
      rfl

theorem StopInv.recv {answer : RecvAnswer} (h : StopInv s) (hs : recvStep s answer = some s') :
    StopInv s' := by
  have hmain : s'.main = s.main ∧ (s'.reconnect = s.reconnect ∨ s'.reconnect = .none ∨
      s'.reconnect = .runningTest) := by
    revert hs
    fun_cases recvStep s answer <;> intro hs <;> cases hs <;> simp [receive]
  refine ⟨fun hj pc => ?_, fun hm => ?_⟩
  · rw [hmain.1] at hj
    rcases hmain.2 with hr | hr | hr
    · rw [hr]
      exact h.late hj pc
    · simp [hr]
    · simp [hr]
  · rw [hmain.1] at hm
    simp [recvStep, h.joined hm] at hs

theorem StopInv.reconnect {answer : ConnectAnswer} (hI : LinkInv s) (h : StopInv s)
    (hs : reconnectStep s answer = some s') : StopInv s' := by
  have hmain := reconnectStep_main hs
  by_cases hj : s.main.joinedLoop = true
  · -- The loop cannot come to `ConnectToDBServer` any more.
    have hoff : s.mIsRunning = false := by
      refine hI.stopping ?_
      cases hm : s.main <;> simp [hm, MainPc.joinedLoop] at hj <;> rfl
    have hmove : s'.recv = s.recv ∧ ∀ pc, s'.reconnect ≠ .connecting pc := by
      have hlate := h.late hj
      cases hpc : s.reconnect with
      | connecting pc => exact absurd hpc (hlate pc)
      | none | ended => simp [reconnectStep, hpc] at hs
      | runningTest | wait | wakeTest | clear =>
          simp only [reconnectStep, hpc, hoff, Option.some.injEq] at hs
          subst hs
          exact ⟨rfl, fun pc => by simp⟩
      | dbRunningTest =>
          simp only [reconnectStep, hpc, Option.some.injEq] at hs
          subst hs
          exact ⟨rfl, fun pc => by simp only; split <;> simp⟩
    refine ⟨fun _ => hmove.2, fun hm => ?_⟩
    rw [hmove.1]
    exact h.joined (hmain ▸ hm)
  · refine ⟨fun hj' => absurd (hmain ▸ hj') hj, fun hm => ?_⟩
    rw [hmain] at hm
    simp [hm, MainPc.joinedLoop] at hj

theorem StopInv.main {answer : ConnectAnswer} (h : StopInv s) (hs : mainStep s answer = some s') :
    StopInv s' := by
  cases hpc : s.main with
  | connecting cpc =>
      simp only [mainStep, hpc] at hs
      obtain ⟨⟨t, next⟩, -, rfl⟩ := Option.map_eq_some_iff.mp hs
      cases next with
      | goesOn pc => exact ⟨by simp [MainPc.joinedLoop], by simp⟩
      | returns ok => exact ⟨by simp [MainPc.joinedLoop], by simp⟩
  | up | store =>
      simp only [mainStep, hpc, Option.some.injEq] at hs
      subst hs
      exact ⟨by simp [MainPc.joinedLoop], by simp⟩
  | joinReconnect =>
      simp only [mainStep, hpc] at hs
      split at hs
      · cases hs
        exact ⟨fun _ pc => by simp, by simp⟩
      · cases hs
  | dbTest =>
      simp only [mainStep, hpc, Option.some.injEq] at hs
      subst hs
      refine ⟨fun _ => h.late (by rw [hpc]; rfl), fun hm => ?_⟩
      simp only at hm
      split at hm <;> cases hm
  | dbStore =>
      simp only [mainStep, hpc, Option.some.injEq] at hs
      subst hs
      exact ⟨fun _ => h.late (by rw [hpc]; rfl), by simp⟩
  | joinRecv =>
      simp only [mainStep, hpc] at hs
      split at hs
      · cases hs
        exact ⟨fun _ => h.late (by rw [hpc]; rfl), fun _ => rfl⟩
      · cases hs
  | reset =>
      simp only [mainStep, hpc, Option.some.injEq] at hs
      subst hs
      exact ⟨fun _ => h.late (by rw [hpc]; rfl), by simp⟩
  | stopped => simp [mainStep, hpc] at hs

theorem StopInv.step {a : Act} (hI : LinkInv s) (h : StopInv s)
    (hs : DBLink.step s a = some s') : StopInv s' := by
  cases a with
  | main answer => exact h.main hs
  | recv answer => exact h.recv hs
  | reconnect answer => exact h.reconnect hI hs

/-! ## The connections -/

/-- The bytes of a connection begin the packets `stream`, and `OnRecv` got the complete
ones. -/
def Delivered (stream : List (List UInt8)) (c : Conn) : Prop :=
  ∃ todo tail, stream = c.passed ++ todo ∧ c.bytes = c.passed.flatten ++ tail ∧
    Cutting.Begun tail todo

/-- What has been received on each connection begins what was sent on it. -/
def Sent (streams : Nat → List (List UInt8)) (s : Link) : Prop :=
  ∀ k c, s.conns[k]? = some c → c.bytes <+: (streams k).flatten

/-- Every connection got its own packets, and the unread bytes are of the newest one. -/
structure Framed (streams : Nat → List (List UInt8)) (s : Link) : Prop where
  offset_le : s.mDBRecvOffset ≤ s.mDBRecvBuffer.length
  delivered : ∀ k c, s.conns[k]? = some c → Delivered (streams k) c
  newest : Receiving s → ∀ c, s.conns.getLast? = some c →
    c.bytes = c.passed.flatten ++ s.unread

variable {streams : Nat → List (List UInt8)}

theorem framed_init : Framed streams {} where
  offset_le := le_rfl
  delivered := by simp
  newest := by simp

/-- A new connection has received nothing. -/
theorem delivered_empty {stream : List (List UInt8)} (h : ∀ p ∈ stream, WellFormed p) :
    Delivered stream {} :=
  ⟨stream, [], rfl, rfl, Cutting.begun_nil fun p hp => (h p hp).ne_nil⟩

theorem Framed.still (h : Framed streams s) (hbuf : s'.mDBRecvBuffer = s.mDBRecvBuffer)
    (hoff : s'.mDBRecvOffset = s.mDBRecvOffset) (hconns : s'.conns = s.conns)
    (hrecv : Receiving s' → Receiving s) : Framed streams s' where
  offset_le := by simpa [hbuf, hoff] using h.offset_le
  delivered := by simpa [hconns] using h.delivered
  newest := fun hr c hc => by
    simpa [Link.unread, hbuf, hoff] using h.newest (hrecv hr) c (by simpa [hconns] using hc)

theorem Framed.connect (hwf : ∀ k, ∀ p ∈ streams k, WellFormed p) (h : Framed streams s)
    (hbuf : s'.mDBRecvBuffer = s.mDBRecvBuffer) (hoff : s'.mDBRecvOffset = s.mDBRecvOffset)
    (hconns : s'.conns = s.conns ++ [({} : Conn)]) (hempty : s.unread = []) :
    Framed streams s' where
  offset_le := by simpa [hbuf, hoff] using h.offset_le
  delivered := fun k c hc => by
    rw [hconns, List.getElem?_append] at hc
    split at hc
    · exact h.delivered k c hc
    · obtain rfl : c = {} := by simpa using List.mem_of_getElem? hc
      exact delivered_empty (hwf k)
  newest := fun _ c hc => by
    obtain rfl : ({} : Conn) = c := by simpa [hconns] using hc
    have hunread : s'.unread = [] := by simpa [Link.unread, hbuf, hoff] using hempty
    simp [hunread]

theorem Framed.clear (h : Framed streams s) (hoff : s'.mDBRecvOffset = 0)
    (hconns : s'.conns = s.conns) (hrecv : ¬ Receiving s') :
    Framed streams s' where
  offset_le := by simp [hoff]
  delivered := by simpa [hconns] using h.delivered
  newest := fun hr => absurd hr hrecv

/-- The newest connection. -/
theorem getElem?_newest {conns : List Conn} (hne : conns ≠ []) :
    ∃ c, conns[conns.length - 1]? = some c ∧ conns.getLast? = some c := by
  refine ⟨conns.getLast hne, ?_, List.getLast?_eq_getLast_of_ne_nil hne⟩
  rw [← List.getLast?_eq_getElem?]
  exact List.getLast?_eq_getLast_of_ne_nil hne

theorem Framed.receive (hwf : ∀ k, ∀ p ∈ streams k, WellFormed p) (h : Framed streams s)
    (hne : s.conns ≠ []) {chunk : List UInt8} (hrecv : Receiving s)
    (hbuf : s'.mDBRecvBuffer = (receive s chunk).mDBRecvBuffer)
    (hoff : s'.mDBRecvOffset = (receive s chunk).mDBRecvOffset)
    (hconns : s'.conns = (receive s chunk).conns) (hsent : Sent streams s') :
    Framed streams s' := by
  obtain ⟨c, hc, hlast⟩ := getElem?_newest hne
  obtain ⟨todo, tail, hstream, hbytes, hbegun⟩ := h.delivered _ c hc
  have hunread : tail = s.unread :=
    List.append_cancel_left (hbytes.symm.trans (h.newest hrecv c hlast))
  subst hunread
  -- The bytes so far begin the packets that are not delivered.
  obtain ⟨rest, hrest⟩ : c.bytes ++ chunk <+: (streams (s.conns.length - 1)).flatten := by
    refine hsent (s.conns.length - 1)
      { bytes := c.bytes ++ chunk
        passed := c.passed ++ (packetLoop (s.mDBRecvBuffer ++ chunk) s.mDBRecvOffset []).2.2 } ?_
    simp [hconns, DBLink.receive, hc]
  have htodo : s.unread ++ chunk ++ rest = todo.flatten := by
    have hflat : c.passed.flatten ++ (s.unread ++ chunk) ++ rest = (c.passed ++ todo).flatten := by
      rw [← hstream, ← hrest, hbytes]
      simp
    exact Cutting.append_eq_flatten_of_whole hflat
  have hwf' : ∀ p ∈ todo, WellFormed p := fun p hp => hwf _ p (by rw [hstream]; simp [hp])
  obtain ⟨whole, todo', tail', rfl, hcut, hbegun'⟩ :=
    Cutting.exists_whole_append (fun p hp => (hwf' p hp).ne_nil) htodo
  obtain ⟨hle, hleft, hmod⟩ := receive_whole h.offset_le
    (fun p hp => hwf' p (by simp [hp]))
    (incomplete_of_begun (fun p hp => hwf' p (by simp [hp])) hbegun') hcut
  rw [← hconns] at hmod
  have hunread' : s'.unread = tail' := by simpa [Link.unread, hbuf, hoff] using hleft
  have hbytes' : c.bytes ++ chunk = (c.passed ++ whole).flatten ++ tail' := by
    rw [hbytes, List.append_assoc, hcut]
    simp
  refine ⟨by simpa [hbuf, hoff] using hle, fun k d hd => ?_, fun _ d hd => ?_⟩
  · rw [hmod, List.getElem?_modify] at hd
    by_cases hk : s.conns.length - 1 = k
    · subst hk
      obtain rfl : { bytes := c.bytes ++ chunk, passed := c.passed ++ whole } = d := by
        simpa [hc] using hd
      exact ⟨todo', tail', by simp [hstream], hbytes', hbegun'⟩
    · exact h.delivered k d (by simpa [hk] using hd)
  · rw [List.getLast?_eq_getElem?, hmod, List.length_modify, List.getElem?_modify_eq, hc] at hd
    obtain rfl : { bytes := c.bytes ++ chunk, passed := c.passed ++ whole } = d := by
      simpa using hd
    rw [hunread']
    exact hbytes'

/-! ## Runs -/

/-- The bytes of a connection only grow. -/
theorem Effect.sent (he : Effect s s') (h : Sent streams s') : Sent streams s := by
  intro k c hc
  cases he with
  | still _ _ hconns | clear _ _ hconns => exact h k c (by rw [hconns, hc])
  | connect _ _ hconns => exact h k c (by rw [hconns, List.getElem?_append_left, hc]; grind)
  | receive chunk _ _ hconns =>
      have hgrow : ∃ c', s'.conns[k]? = some c' ∧ c.bytes <+: c'.bytes := by
        rw [hconns, DBLink.receive, List.getElem?_modify, hc]
        by_cases hk : s.conns.length - 1 = k
        · exact ⟨_, by simp only [if_pos hk]; rfl, List.prefix_append ..⟩
        · exact ⟨c, by simp [hk], List.prefix_rfl⟩
      obtain ⟨c', hc', hle⟩ := hgrow
      exact hle.trans (h k c' hc')

theorem LinkInv.conns_ne_nil (hI : LinkInv s) (hr : Receiving s) : s.conns ≠ [] := by
  rcases hr with hr | hr | hr | hr
  · exact hI.connected (.inl (by simp [hr]))
  · exact hI.connected (.inl (by simp [hr]))
  · exact hI.connected (.inr (.inr hr))
  · exact hI.connected (.inr (.inl (by simp [hr])))

theorem Framed.step (hwf : ∀ k, ∀ p ∈ streams k, WellFormed p) (hI : LinkInv s)
    (h : Framed streams s) (he : Effect s s') (hsent : Sent streams s') : Framed streams s' := by
  cases he with
  | still hbuf hoff hconns hrecv => exact h.still hbuf hoff hconns hrecv
  | connect hbuf hoff hconns hempty => exact h.connect hwf hbuf hoff hconns hempty
  | receive chunk hbuf hoff hconns hrecv =>
      exact h.receive hwf (hI.conns_ne_nil hrecv) hrecv hbuf hoff hconns hsent
  | clear _ hoff hconns hrecv => exact h.clear hoff hconns hrecv

/-- If every new connection finds no unread bytes, then every connection gets exactly the
complete packets of its own bytes, in order. -/
theorem connections_framed (streams : Nat → List (List UInt8))
    (hwf : ∀ k, ∀ p ∈ streams k, WellFormed p) {as : List Act}
    (hrun : Machine.run DBLink.step {} as = some s)
    (hok : Machine.Meets DBLink.step (fun s a => startsEmpty s a) {} as)
    (hsent : ∀ k c, s.conns[k]? = some c → c.bytes <+: (streams k).flatten) {k : Nat} {c : Conn}
    (hc : s.conns[k]? = some c) :
    ∃ whole todo tail, streams k = whole ++ todo ∧ c.bytes = whole.flatten ++ tail ∧
      Cutting.Begun tail todo ∧ c.passed = whole := by
  have hall : LinkInv s ∧ StopInv s ∧ (Sent streams s → Framed streams s) := by
    refine Machine.run_invariant_of_meets
      (I := fun s => LinkInv s ∧ StopInv s ∧ (Sent streams s → Framed streams s))
      (fun s a s' h hok hs => ?_) ⟨linkInv_init, stopInv_init, fun _ => framed_init⟩ hok hrun
    obtain ⟨hI, hS, hF⟩ := h
    have he := step_effect hS hok hs
    exact ⟨hI.step hs, hS.step hI hs, fun hsent => (hF (he.sent hsent)).step hwf hI he hsent⟩
  obtain ⟨todo, tail, hstream, hbytes, hbegun⟩ := (hall.2.2 hsent).delivered k c hc
  exact ⟨c.passed, todo, tail, hstream, hbytes, hbegun, rfl⟩

end

/-- A connection that receives the chunks and is lost, and the loop that connects again. -/
def lostAfter (chunks : List (List UInt8)) : List Act :=
  List.flatten
    [chunks.flatMap fun chunk => [.recv .lost, .recv (.data chunk)], List.replicate 8 (.recv .lost),
      List.replicate 10 (.reconnect .ok)]

/-- Each connection has one packet with its own id. -/
def onePacket (k : Nat) : List (List UInt8) := [[8, 0, UInt8.ofNat k, 0, 0, 0, 0, 0]]

theorem wellFormed_onePacket (k : Nat) : ∀ p ∈ onePacket k, WellFormed p := by
  intro p hp
  obtain rfl : p = [8, 0, UInt8.ofNat k, 0, 0, 0, 0, 0] := by simpa [onePacket] using hp
  exact ⟨le_rfl, by simp [maxServerPacketSize], rfl⟩

theorem sent_of_two {s : Link} {a b : Conn} (h : s.conns = [a, b])
    (ha : a.bytes <+: (onePacket 0).flatten) (hb : b.bytes <+: (onePacket 1).flatten) :
    Sent onePacket s := by
  intro k c hc
  rw [h] at hc
  match k with
  | 0 =>
      cases hc
      exact ha
  | 1 =>
      cases hc
      exact hb
  | k + 2 => cases hc

/-- The first connection is lost after a packet. -/
def packetEndTrace : List Act :=
  List.flatten
    [List.replicate 5 (.main .ok), lostAfter [[8, 0, 0], [0, 0, 0, 0, 0]],
      [.recv .lost, .recv (.data [8, 0, 1, 0, 0]), .recv .lost, .recv (.data [0, 0, 0])]]

theorem connections_framed_packetEndTrace :
    ∃ s c, Machine.run step {} packetEndTrace = some s ∧ s.conns[1]? = some c ∧
      ∃ whole todo tail, onePacket 1 = whole ++ todo ∧ c.bytes = whole.flatten ++ tail ∧
        Cutting.Begun tail todo ∧ c.passed = whole := by
  have hend : (Machine.run step {} packetEndTrace).any (fun s => decide
      (s.conns = [⟨(onePacket 0).flatten, onePacket 0⟩, ⟨(onePacket 1).flatten, onePacket 1⟩])) =
        true := by
    decide +kernel
  obtain ⟨s, hrun, hconns⟩ := (Option.any_eq_true _ _).mp hend
  replace hconns := of_decide_eq_true hconns
  have hsent := sent_of_two hconns List.prefix_rfl List.prefix_rfl
  have hc : s.conns[1]? = some ⟨(onePacket 1).flatten, onePacket 1⟩ := by rw [hconns]; rfl
  exact ⟨s, _, hrun, hc, connections_framed onePacket wellFormed_onePacket hrun
    (by decide +kernel) hsent hc⟩

/-- The first connection is lost after five bytes of its packet. -/
def packetMiddleTrace : List Act :=
  List.flatten
    [List.replicate 5 (.main .ok), lostAfter [[8, 0, 0, 0, 0]],
      [.recv .lost, .recv (.data [8, 0, 1, 0, 0, 0, 0, 0])]]

/-- The second connection has received its packet, but `OnRecv` got the five bytes and the
beginning of it. -/
theorem not_framed_packetMiddleTrace :
    ∃ s c, Machine.run step {} packetMiddleTrace = some s ∧
      (∀ k, ∀ p ∈ onePacket k, WellFormed p) ∧ Sent onePacket s ∧ s.conns[1]? = some c ∧
      c.bytes = (onePacket 1).flatten ∧ c.passed = [[8, 0, 0, 0, 0, 8, 0, 1]] ∧
      c.passed ≠ onePacket 1 := by
  have hend : (Machine.run step {} packetMiddleTrace).any (fun s => decide
      (s.conns = [⟨[8, 0, 0, 0, 0], []⟩,
        ⟨(onePacket 1).flatten, [[8, 0, 0, 0, 0, 8, 0, 1]]⟩])) = true := by
    decide +kernel
  obtain ⟨s, hrun, hconns⟩ := (Option.any_eq_true _ _).mp hend
  replace hconns := of_decide_eq_true hconns
  have hsent := sent_of_two hconns ⟨[0, 0, 0], rfl⟩ List.prefix_rfl
  exact ⟨s, _, hrun, wellFormed_onePacket, hsent, by rw [hconns]; rfl, rfl, rfl, by decide⟩

end NetworkModule.TestServer.DBLink
