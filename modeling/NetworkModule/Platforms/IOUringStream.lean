import NetworkModule.Lib.Machine
import NetworkModule.Network.SendPipeline
import NetworkModule.Platforms.IOUring
import Mathlib

/-!
# The byte stream of an io_uring session

The send pipeline of a session over the io_uring provider.  `SendAsync` prepares
one `send` of the whole packet.  The kernel may send less than that, and says in
the completion how much it has sent.  The number travels from the completion
queue through the completion entry to `ProcessSendCompletion`, which does not
look at it and posts the next packet.

So the bytes on the wire are the packets, each cut off where the kernel stopped,
and they are the packets themselves exactly if the kernel never stopped early
(`streamIntact_iff`).
-/

namespace NetworkModule.IOUringStream

open AsyncIO SessionSend SendPipeline IOUring

/-! ## The stream -/

/-- A session, the sends in the ring, and what has come of them. -/
structure Stream where
  pipeline : Pipeline
  /-- The packets of the sends that the kernel has not completed, oldest first. -/
  requests : List (List UInt8)
  /-- The results in the completion queue, oldest first. -/
  cq : List Nat
  /-- The bytes the kernel has put on the wire. -/
  wire : List UInt8
  /-- The completed sends, oldest first: the packet and the result. -/
  results : List (List UInt8 × Nat)
  deriving DecidableEq, Repr

/-- Who moves. -/
inductive StreamAct where
  /-- A thread calls `Send`. -/
  | send (data : List UInt8)
  /-- Call `k` takes its next step. -/
  | step (k : Nat)
  /-- The kernel completes the oldest send, having sent `n` bytes. -/
  | kernelSend (n : Nat)
  /-- A worker processes the oldest completion. -/
  | processCompletion
  deriving DecidableEq, Repr

/-- The packet that the next step of a call gives to `SendAsync`. -/
def requested : CallPc → List (List UInt8)
  | .sendAsync b => [b.data]
  | _ => []

/-- `BaseNetworkEngine::ProcessSendCompletion`: it fires `DataSent` and calls
`PostSend`.  The number of bytes is not used. -/
def processSendCompletion (p : Pipeline) (_bytesSent : Int) : Option Pipeline :=
  pipelineStep p .complete

/-- One step.  `op` is what the provider records for a send of this session. -/
def streamStep (op : PendingOperation) (s : Stream) : StreamAct → Option Stream
  | .send data => (pipelineStep s.pipeline (.send data)).map fun p => { s with pipeline := p }
  | .step k =>
      (pipelineStep s.pipeline (.step k)).map fun p =>
        { s with
          pipeline := p
          requests := s.requests ++ (s.pipeline.session.calls[k]?.map requested).getD [] }
  | .kernelSend n =>
      match s.requests with
      | [] => none
      | d :: rest =>
          if 1 ≤ n ∧ n ≤ d.length then
            some { s with
              requests := rest
              cq := s.cq ++ [n]
              wire := s.wire ++ d.take n
              results := s.results ++ [(d, n)] }
          else none
  | .processCompletion =>
      match s.cq with
      | [] => none
      | n :: rest =>
          let e := op.entry n
          -- A positive result is no error.
          if e.isError then none
          else (processSendCompletion s.pipeline e.mResult).map fun p =>
            { s with pipeline := p, cq := rest }

/-- The stream before the first `Send`. -/
def start : Stream := ⟨SendPipeline.start, [], [], [], []⟩

/-- The packets that the session has given to `SendAsync`, oldest first. -/
def Stream.packets (s : Stream) : List (List UInt8) := s.pipeline.session.sent.map (·.2.data)

/-- What is on the wire is the concatenation of the packets whose sends have been
completed. -/
def StreamIntact (s : Stream) : Prop := s.wire = (s.packets.take s.results.length).flatten

instance (s : Stream) : Decidable (StreamIntact s) := inferInstanceAs (Decidable (_ = _))

/-! ## Packets that were cut off -/

/-- Packets that were cut off somewhere make up the whole only if none was. -/
theorem flatten_take_eq_iff {rs : List (List UInt8 × Nat)} (h : ∀ r ∈ rs, r.2 ≤ r.1.length) :
    (rs.map fun r => r.1.take r.2).flatten = (rs.map Prod.fst).flatten ↔
      ∀ r ∈ rs, r.2 = r.1.length := by
  have hle : ∀ ps : List (List UInt8 × Nat),
      (ps.map fun r => r.1.take r.2).flatten.length ≤ (ps.map Prod.fst).flatten.length := by
    intro ps
    induction ps with
    | nil => exact Nat.le_refl 0
    | cons r ps ih =>
        simp only [List.map_cons, List.flatten_cons, List.length_append, List.length_take]
        omega
  induction rs with
  | nil => simp
  | cons r rs ih =>
      have hr := h r (List.mem_cons_self ..)
      have hrs := ih fun q hq => h q (List.mem_cons_of_mem r hq)
      simp only [List.map_cons, List.flatten_cons, List.forall_mem_cons]
      constructor
      · intro heq
        have hlen := congrArg List.length heq
        simp only [List.length_append, List.length_take] at hlen
        have hshort := hle rs
        have hfull : r.2 = r.1.length := by omega
        rw [hfull, List.take_length] at heq
        exact ⟨hfull, hrs.mp (List.append_cancel_left heq)⟩
      · rintro ⟨hfull, hrest⟩
        rw [hfull, List.take_length, hrs.mpr hrest]

/-! ## The invariant -/

/-- How the history relates to the packets. -/
structure StreamInv (s : Stream) : Prop where
  /-- The sends are completed in order. -/
  order : s.results.map Prod.fst ++ s.requests = s.packets
  /-- Each packet is on the wire up to its result. -/
  wire : s.wire = (s.results.map fun r => r.1.take r.2).flatten
  /-- No result is larger than its packet. -/
  bound : ∀ r ∈ s.results, r.2 ≤ r.1.length

section
variable {op : PendingOperation} {s s' : Stream}

theorem streamInv_start : StreamInv start := ⟨rfl, rfl, by simp [start]⟩

theorem sent_lock {t t' : Session} {k : Nat} {pc : CallPc} (h : t.lock k pc = some t') :
    t'.sent = t.sent := by
  unfold Session.lock at h
  split at h
  · cases h
  · cases h
    rfl

/-- A step of a call gives at most its own packet to `SendAsync`. -/
theorem sent_callStep {t t' : Session} {k : Nat} {ok : Bool} {pc : CallPc}
    (h : callStep t k ok pc = some t') :
    t'.sent.map (·.2.data) = t.sent.map (·.2.data) ++ requested pc := by
  cases pc with
  | sendAsync b =>
      cases h
      simp [requested, Session.setCall]
  | sendConnected b | sendPressure b | flush =>
      simp only [callStep] at h
      split at h <;> cases h <;> simp [requested, Session.setCall]
  | sendLock b | postLock | snapshotLock b | closeLock | providerLock =>
      rw [sent_lock h]
      simp [requested]
  | postPop | closeDrain =>
      simp only [callStep] at h
      split at h <;> cases h <;> simp [requested, Session.setCall]
  | returned => cases h
  | _ =>
      cases h
      simp [requested, Session.setCall, Session.unlock]

/-- A step of a call in the pipeline. -/
theorem packets_step {p p' : Pipeline} {k : Nat} (h : pipelineStep p (.step k) = some p') :
    p'.session.sent.map (·.2.data) =
      p.session.sent.map (·.2.data) ++ (p.session.calls[k]?.map requested).getD [] := by
  simp only [pipelineStep] at h
  split at h
  · cases h
  next pc hk =>
    split at h
    · obtain ⟨t, ht, rfl⟩ := Option.map_eq_some_iff.mp h
      rw [sent_callStep ht, hk]
      rfl
    · cases h

/-- A new call sends nothing yet. -/
theorem packets_call {t t' : Session} {pc : CallPc} (h : t.call pc = some t') :
    t'.sent = t.sent := by
  unfold Session.call at h
  split at h
  · cases h
    rfl
  · cases h

/-- Every step keeps the invariant. -/
theorem StreamInv.step {a : StreamAct} (hI : StreamInv s) (h : streamStep op s a = some s') :
    StreamInv s' := by
  cases a with
  | send data =>
      obtain ⟨p, hp, rfl⟩ := Option.map_eq_some_iff.mp h
      obtain ⟨t, ht, rfl⟩ := Option.map_eq_some_iff.mp hp
      refine ⟨?_, hI.wire, hI.bound⟩
      simp only [Stream.packets, packets_call ht]
      exact hI.order
  | step k =>
      obtain ⟨p, hp, rfl⟩ := Option.map_eq_some_iff.mp h
      refine ⟨?_, hI.wire, hI.bound⟩
      simp only [Stream.packets, packets_step hp]
      rw [← List.append_assoc, hI.order]
      rfl
  | kernelSend n =>
      simp only [streamStep] at h
      split at h
      · cases h
      next d rest hreq =>
        split at h
        next hn =>
          cases h
          have horder := hI.order
          rw [hreq] at horder
          refine ⟨?_, ?_, ?_⟩
          · simpa [Stream.packets] using horder
          · simp [hI.wire]
          · intro r hr
            rcases List.mem_append.mp hr with hr | hr
            · exact hI.bound r hr
            · rw [List.mem_singleton.mp hr]
              exact hn.2
        · cases h
  | processCompletion =>
      simp only [streamStep] at h
      split at h
      · cases h
      next n rest hcq =>
        split at h
        · cases h
        · obtain ⟨p, hp, rfl⟩ := Option.map_eq_some_iff.mp h
          simp only [processSendCompletion, pipelineStep] at hp
          split at hp
          · cases hp
          · obtain ⟨t, ht, rfl⟩ := Option.map_eq_some_iff.mp hp
            refine ⟨?_, hI.wire, hI.bound⟩
            simp only [Stream.packets, packets_call ht]
            exact hI.order

/-- In every run, the bytes on the wire are the concatenation of the packets
exactly if every result was the size of its packet. -/
theorem streamIntact_iff (op : PendingOperation) (as : List StreamAct) (s : Stream)
    (hrun : Machine.run (streamStep op) start as = some s) :
    StreamIntact s ↔ ∀ r ∈ s.results, r.2 = r.1.length := by
  have hI : StreamInv s :=
    Machine.run_invariant (fun _ _ _ hI h => StreamInv.step hI h) streamInv_start hrun
  have hpackets : s.packets.take s.results.length = s.results.map Prod.fst := by
    rw [← hI.order, List.take_append_of_le_length (by simp), List.take_of_length_le (by simp)]
  rw [StreamIntact, hI.wire, hpackets]
  exact flatten_take_eq_iff hI.bound

/-- What the provider records for the session of the traces. -/
def exampleOp : PendingOperation := ⟨1, .send, 5, 2, 0⟩

/-- Two packets of two bytes, where the kernel sends `n` bytes of the first. -/
def twoPacketsTrace (n : Nat) : List StreamAct :=
  List.flatten [[.send [1, 2]], List.replicate 17 (.step 1), [.send [3, 4]],
    List.replicate 7 (.step 2), [.kernelSend n, .processCompletion], List.replicate 10 (.step 3),
    [.kernelSend 2, .processCompletion]]

/-- Both packets are sent in full. -/
theorem streamIntact_twoPacketsTrace :
    ∃ s, Machine.run (streamStep exampleOp) start (twoPacketsTrace 2) = some s ∧
      s.wire = [1, 2, 3, 4] ∧ StreamIntact s :=
  ⟨_, rfl, by decide, (streamIntact_iff exampleOp (twoPacketsTrace 2) _ rfl).mpr (by decide)⟩

/-- The kernel sends one byte of the first packet, and the second packet follows. -/
theorem shortSend_loses_byte :
    ∃ s, Machine.run (streamStep exampleOp) start (twoPacketsTrace 1) = some s ∧
      s.packets = [[1, 2], [3, 4]] ∧ s.wire = [1, 3, 4] ∧ ¬ StreamIntact s :=
  ⟨_, rfl, by decide, by decide, by decide⟩

end

end NetworkModule.IOUringStream
