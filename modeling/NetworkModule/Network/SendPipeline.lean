import NetworkModule.Lib.Machine
import NetworkModule.Lib.Tally
import NetworkModule.Network.SessionSend
import Mathlib

/-!
# The send pipeline

While a session stays open and its provider accepts and completes every
`SendAsync`, the calls of `Network/SessionSend` form a pipeline: any number of
threads push packets, one thread at a time is the sender, and each completion
calls `PostSend` for the next packet (`BaseNetworkEngine::ProcessSendCompletion`).

Who is the sender is decided by a compare-and-swap on `mIsSending`.  The flag
stays set from there over `SendAsync` to the completion, and over to the
`PostSend` of the completion.  A sender that finds `mSendQueueSize` zero clears
the flag and looks again, because a `Send` may have pushed and failed to become
the sender in between.  `sends_in_order` says that no packet is lost there.

The steps of the threads interleave.  Reorderings that the memory model of C++
allows beyond that are not part of this model.
-/

namespace NetworkModule.SendPipeline

open SessionSend

/-! ## The pipeline -/

/-- A session, the sends its provider has not completed, and a history. -/
structure Pipeline where
  session : Session
  /-- How many `SendAsync` have not been completed. -/
  outstanding : Nat
  /-- The buffers that were pushed, oldest first.  These are the buffers of the
  calls of `Send` that return `Ok`. -/
  pushed : List Buffer
  deriving DecidableEq, Repr

/-- Who moves. -/
inductive PipelineAct where
  /-- A thread calls `Send`. -/
  | send (data : List UInt8)
  /-- The provider completes a send, and `ProcessSendCompletion` calls `PostSend`. -/
  | complete
  /-- Call `k` takes its next step. -/
  | step (k : Nat)
  deriving DecidableEq, Repr

/-- The buffer that the next step of a call pushes. -/
def pushes : CallPc → List Buffer
  | .sendPush b => [b]
  | _ => []

/-- How many sends the next step of a call starts. -/
def starts : CallPc → Nat
  | .sendAsync _ => 1
  | _ => 0

/-- No `std::queue` holds this many elements: `max_size()` is smaller, and a push
beyond it throws. -/
def queueLimit : Nat := 2 ^ 63

/-- The next step of a call is possible as far as the queue is concerned. -/
def roomFor (s : Session) (pc : CallPc) : Bool :=
  decide (s.mSendQueue.length + (pushes pc).length < queueLimit)

/-- One step of the pipeline.  The provider accepts every `SendAsync`. -/
def pipelineStep (p : Pipeline) : PipelineAct → Option Pipeline
  | .send data =>
      (p.session.call (.sendConnected ⟨p.session.incarnation, data⟩)).map fun s =>
        { p with session := s }
  | .complete =>
      if p.outstanding = 0 then none
      else
        (p.session.call .postLoad).map fun s =>
          { p with session := s, outstanding := p.outstanding - 1 }
  | .step k =>
      match p.session.calls[k]? with
      | none => none
      | some pc =>
          if roomFor p.session pc then
            (callStep p.session k true pc).map fun s =>
              ⟨s, p.outstanding + starts pc, p.pushed ++ pushes pc⟩
          else none

/-- The session when the engine has set its provider. -/
def connected : Session where
  mState := .connected
  mSocket := true
  mAsyncProvider := true
  calls := [.returned]
  phase := .live
  incarnation := 1

/-- The pipeline before the first `Send`. -/
def start : Pipeline := ⟨connected, 0, []⟩

/-- A pool slot gets there by `Initialize` and `SetAsyncProvider`. -/
theorem run_connected :
    Machine.run sessionStep {}
      (List.replicate 4 .lifecycle ++ .setAsyncProvider :: steps 0 3) = some connected := rfl

/-- The step of the session that a step of the pipeline is. -/
def PipelineAct.toSessionAct : PipelineAct → SessionAct
  | .send data => .send data
  | .complete => .postSend
  | .step k => .step k true

theorem sessionStep_of_pipelineStep {p p' : Pipeline} {a : PipelineAct}
    (h : pipelineStep p a = some p') : sessionStep p.session a.toSessionAct = some p'.session := by
  cases a with
  | send data =>
      obtain ⟨s, hs, rfl⟩ := Option.map_eq_some_iff.mp h
      exact hs
  | complete =>
      simp only [pipelineStep] at h
      split at h
      · cases h
      · obtain ⟨s, hs, rfl⟩ := Option.map_eq_some_iff.mp h
        exact hs
  | step k =>
      simp only [pipelineStep] at h
      split at h
      · cases h
      next pc hk =>
        split at h
        · obtain ⟨s, hs, rfl⟩ := Option.map_eq_some_iff.mp h
          simp only [PipelineAct.toSessionAct, sessionStep, hk]
          exact hs
        · cases h

/-- Every run of the pipeline is a run of the session. -/
theorem simulates_session : Machine.Simulates pipelineStep sessionStep Pipeline.session := by
  intro p a p' h
  refine ⟨[a.toSessionAct], ?_⟩
  rw [Machine.run_cons, sessionStep_of_pipelineStep h]
  rfl

/-! ## Places -/

/-- The call is the sender. -/
def sending : CallPc → Bool
  | .postLoad | .postRelease | .postLock | .postEmpty | .postPop | .postUncount _ | .postUnlock _
  | .snapshotLock _ | .snapshotCopy _ | .snapshotUnlock _ _ | .sendAsync _ => true
  | _ => false

/-- The call holds `mSendMutex`. -/
def locking : CallPc → Bool
  | .sendPush _ | .sendCount | .sendUnlock | .postEmpty | .postPop | .postUncount _ | .postUnlock _
  | .snapshotCopy _ | .snapshotUnlock _ _ => true
  | _ => false

/-- The call has pushed and not yet counted. -/
def uncounted : CallPc → Bool
  | .sendCount => true
  | _ => false

/-- The call has popped and not yet counted. -/
def overcounted : CallPc → Bool
  | .postUncount _ => true
  | _ => false

/-- The call will look at the queue or at `mIsSending`. -/
def waking : CallPc → Bool
  | .sendCount | .sendUnlock | .flush | .postRecheck => true
  | _ => false

/-- The buffer of a call that has popped it and not yet sent it. -/
def popped? : CallPc → Option Buffer
  | .postUncount b | .postUnlock b | .snapshotLock b | .snapshotCopy b | .snapshotUnlock b _
  | .sendAsync b => some b
  | _ => none

/-- The call has popped a buffer and not yet sent it. -/
def carrying (pc : CallPc) : Bool := (popped? pc).isSome

/-- The places a call can be at while nobody closes the session.  A sender that
has seen a size other than 0 finds the queue nonempty, and a sender finds the
provider. -/
def Possible (queue : List Buffer) : CallPc → Prop
  | .sendConnected _ | .sendPressure _ | .sendLock _ | .sendPush _ | .sendCount | .sendUnlock
  | .flush | .postLoad | .postRelease | .postRecheck | .postUncount _ | .postUnlock _
  | .snapshotLock _ | .snapshotCopy _ | .sendAsync _ | .returned => True
  | .postLock | .postEmpty | .postPop => queue ≠ []
  | .snapshotUnlock _ provider => provider = true
  | _ => False

/-- The places that need a nonempty queue are places of the sender. -/
theorem Possible.of_not_sending {queue queue' : List Buffer} {pc : CallPc} (h : Possible queue pc)
    (hno : sending pc = false) : Possible queue' pc := by
  cases pc with
  | postLock | postEmpty | postPop => cases hno
  | _ => exact h

/-- A buffer more does no harm. -/
theorem Possible.concat {queue : List Buffer} {pc : CallPc} (h : Possible queue pc) (b : Buffer) :
    Possible (queue ++ [b]) pc := by
  cases pc with
  | postLock | postEmpty | postPop => exact List.append_ne_nil_of_left_ne_nil h [b]
  | _ => exact h

/-! ## The invariant -/

/-- What holds in every state of the pipeline. -/
structure PipelineInv (p : Pipeline) : Prop where
  /-- `mIsSending` is set exactly while there is a sender or an outstanding send,
  and then there is one. -/
  senders : p.session.calls.countP sending + p.outstanding = p.session.mIsSending.toNat
  /-- `mSendMutex` is held by one call. -/
  lockers : p.session.calls.countP locking = p.session.mSendMutex.toNat
  /-- `mSendQueueSize` is the length of the queue, up to the calls that have
  changed only one of the two. -/
  size : p.session.mSendQueueSize.toNat + p.session.calls.countP uncounted =
    p.session.mSendQueue.length + p.session.calls.countP overcounted
  /-- While packets wait and nobody sends, some call will notice. -/
  wake : p.session.mSendQueue ≠ [] → p.session.mIsSending = false →
    0 < p.session.calls.countP waking
  /-- Every call is at a possible place. -/
  possible : ∀ pc ∈ p.session.calls, Possible p.session.mSendQueue pc
  /-- The provider is set. -/
  provider : p.session.mAsyncProvider = true
  /-- The queue is one that exists. -/
  room : p.session.mSendQueue.length < queueLimit
  /-- Where no packet is between the queue and the provider, what was pushed is
  what was sent and then the queue. -/
  order : p.session.calls.countP carrying = 0 →
    p.session.sent.map Prod.snd ++ p.session.mSendQueue = p.pushed
  /-- A packet between the queue and the provider comes in between. -/
  order_popped : ∀ pc ∈ p.session.calls, ∀ b, popped? pc = some b →
    p.session.sent.map Prod.snd ++ b :: p.session.mSendQueue = p.pushed

theorem pipelineInv_start : PipelineInv start where
  senders := rfl
  lockers := rfl
  size := rfl
  wake := fun h => absurd rfl h
  possible := by simp [start, connected, Possible]
  provider := rfl
  room := by decide
  order := fun _ => rfl
  order_popped := by simp [start, connected, popped?]

section
variable {p : Pipeline} {k : Nat} {pc pc' : CallPc} {t : Session}

/-- A call that has a popped packet is the sender. -/
theorem sending_of_popped {b : Buffer} (h : popped? pc = some b) : sending pc = true := by
  cases pc <;> simp_all [popped?, sending]

theorem countP_carrying_le (calls : List CallPc) :
    calls.countP carrying ≤ calls.countP sending := by
  refine List.countP_mono_left fun pc _ h => ?_
  obtain ⟨b, hb⟩ := Option.isSome_iff_exists.mp h
  exact sending_of_popped hb

/-- A call at a waking place keeps the wake-up. -/
theorem wake_of_waking (hk : p.session.calls[k]? = some pc) (h : waking pc' = true) :
    0 < (p.session.calls.set k pc').countP waking := by
  have hcount := Tally.countP_set waking pc' hk
  have hle := Tally.toNat_le_countP waking hk
  rw [h] at hcount
  simp only [Bool.toNat_true] at hcount
  omega

/-- So does the move of a call that is not at a waking place. -/
theorem PipelineInv.wake_of_not_waking (hI : PipelineInv p) (hk : p.session.calls[k]? = some pc)
    (h : waking pc = false) (hq : p.session.mSendQueue ≠ []) (hs : p.session.mIsSending = false) :
    0 < (p.session.calls.set k pc').countP waking := by
  have hcount := Tally.countP_set waking pc' hk
  have hpos := hI.wake hq hs
  rw [h] at hcount
  simp only [Bool.toNat_false] at hcount
  omega

/-- The sender is alone: the flag is set and no send is outstanding. -/
theorem PipelineInv.sender (hI : PipelineInv p) (hk : p.session.calls[k]? = some pc)
    (h : sending pc = true) : p.session.mIsSending = true ∧
      p.session.calls.countP sending = 1 ∧ p.outstanding = 0 := by
  have hle := Tally.toNat_le_countP sending hk
  have heq := hI.senders
  rw [h, Bool.toNat_true] at hle
  cases hs : p.session.mIsSending with
  | false =>
      rw [hs, Bool.toNat_false] at heq
      omega
  | true =>
      rw [hs, Bool.toNat_true] at heq
      exact ⟨rfl, by omega, by omega⟩

/-- The call in the locked region is alone there. -/
theorem PipelineInv.locker (hI : PipelineInv p) (hk : p.session.calls[k]? = some pc)
    (h : locking pc = true) : p.session.mSendMutex = true ∧
      p.session.calls.countP locking = 1 := by
  have hle := Tally.toNat_le_countP locking hk
  have heq := hI.lockers
  rw [h, Bool.toNat_true] at hle
  cases hs : p.session.mSendMutex with
  | false =>
      rw [hs, Bool.toNat_false] at heq
      omega
  | true =>
      rw [hs, Bool.toNat_true] at heq
      exact ⟨rfl, heq⟩

/-- A call that moves and leaves the queue and the history alone keeps the
invariant, if the flags and the size change with its place. -/
theorem PipelineInv.move (hI : PipelineInv p) (hk : p.session.calls[k]? = some pc)
    (hcalls : t.calls = p.session.calls) (hqueue : t.mSendQueue = p.session.mSendQueue)
    (hsent : t.sent = p.session.sent) (hprovider : t.mAsyncProvider = p.session.mAsyncProvider)
    (hsending : t.mIsSending.toNat + (sending pc).toNat =
      p.session.mIsSending.toNat + (sending pc').toNat)
    (hlocking : t.mSendMutex.toNat + (locking pc).toNat =
      p.session.mSendMutex.toNat + (locking pc').toNat)
    (hsize : t.mSendQueueSize.toNat + (uncounted pc').toNat + (overcounted pc).toNat =
      p.session.mSendQueueSize.toNat + (uncounted pc).toNat + (overcounted pc').toNat)
    (hwake : p.session.mSendQueue ≠ [] → t.mIsSending = false →
      0 < (p.session.calls.set k pc').countP waking)
    (hpossible : Possible p.session.mSendQueue pc') (hpopped : popped? pc' = popped? pc) :
    PipelineInv ⟨t.setCall k pc', p.outstanding, p.pushed⟩ := by
  have hmem : pc ∈ p.session.calls := List.mem_of_getElem? hk
  have hset : (t.setCall k pc').calls = p.session.calls.set k pc' := by rw [← hcalls]; rfl
  have hpop : ∀ q ∈ (t.setCall k pc').calls, ∃ q' ∈ p.session.calls, popped? q = popped? q' := by
    intro q hq
    rw [hset] at hq
    rcases List.mem_or_eq_of_mem_set hq with hq | rfl
    · exact ⟨q, hq, rfl⟩
    · exact ⟨pc, hmem, hpopped⟩
  constructor
  · have hcount := Tally.countP_set sending pc' hk
    have heq := hI.senders
    have hle := Tally.toNat_le_countP sending hk
    rw [hset]
    change _ = t.mIsSending.toNat
    simp only
    omega
  · have hcount := Tally.countP_set locking pc' hk
    have heq := hI.lockers
    rw [hset]
    change _ = t.mSendMutex.toNat
    omega
  · have hcount := Tally.countP_set uncounted pc' hk
    have hcount' := Tally.countP_set overcounted pc' hk
    have heq := hI.size
    rw [hset]
    change t.mSendQueueSize.toNat + _ = t.mSendQueue.length + _
    rw [hqueue]
    omega
  · intro hq hs
    rw [hset]
    exact hwake (by rw [← hqueue]; exact hq) hs
  · intro q hq
    rw [hset] at hq
    change Possible t.mSendQueue q
    rw [hqueue]
    rcases List.mem_or_eq_of_mem_set hq with hq | rfl
    · exact hI.possible q hq
    · exact hpossible
  · exact hprovider.trans hI.provider
  · change t.mSendQueue.length < queueLimit
    rw [hqueue]
    exact hI.room
  · intro hnone
    change t.sent.map Prod.snd ++ t.mSendQueue = p.pushed
    rw [hqueue, hsent]
    apply hI.order
    have hcount := Tally.countP_set carrying pc' hk
    rw [hset] at hnone
    simp only [carrying, hpopped] at hcount
    omega
  · intro q hq b hb
    change t.sent.map Prod.snd ++ b :: t.mSendQueue = p.pushed
    rw [hqueue, hsent]
    obtain ⟨q', hq', heq⟩ := hpop q hq
    exact hI.order_popped q' hq' b (heq ▸ hb)

end

/-! ## Steps -/

section
variable {p p' : Pipeline} {k : Nat} {pc pc' : CallPc} {s' : Session}

/-- A call that takes `mSendMutex`. -/
theorem PipelineInv.lock (hI : PipelineInv p) (hk : p.session.calls[k]? = some pc)
    (h : p.session.lock k pc' = some s') (hsending : sending pc' = sending pc)
    (hlocking : locking pc = false ∧ locking pc' = true)
    (hsize : uncounted pc' = uncounted pc ∧ overcounted pc' = overcounted pc)
    (hwaking : waking pc = false) (hpossible : Possible p.session.mSendQueue pc')
    (hpopped : popped? pc' = popped? pc) :
    PipelineInv ⟨s', p.outstanding, p.pushed⟩ := by
  unfold Session.lock at h
  split at h
  · cases h
  next hfree =>
    cases h
    refine hI.move hk rfl rfl rfl rfl ?_ ?_ ?_ (hI.wake_of_not_waking hk hwaking) hpossible hpopped
    · simp [hsending]
    · simp [hlocking, hfree]
    · simp [hsize]

/-- A call that keeps its role and changes nothing else. -/
theorem PipelineInv.idle (hI : PipelineInv p) (hk : p.session.calls[k]? = some pc)
    (hsending : sending pc' = sending pc) (hlocking : locking pc' = locking pc)
    (hsize : uncounted pc' = uncounted pc ∧ overcounted pc' = overcounted pc)
    (hwaking : waking pc = false) (hpossible : Possible p.session.mSendQueue pc')
    (hpopped : popped? pc' = popped? pc) :
    PipelineInv ⟨p.session.setCall k pc', p.outstanding, p.pushed⟩ := by
  refine hI.move hk rfl rfl rfl rfl ?_ ?_ ?_ (hI.wake_of_not_waking hk hwaking) hpossible hpopped
  · rw [hsending]
  · rw [hlocking]
  · rw [hsize.1, hsize.2]

/-- A call that releases `mSendMutex`. -/
theorem PipelineInv.unlock (hI : PipelineInv p) (hk : p.session.calls[k]? = some pc)
    (hsending : sending pc' = sending pc)
    (hlocking : locking pc = true ∧ locking pc' = false)
    (hsize : uncounted pc' = uncounted pc ∧ overcounted pc' = overcounted pc)
    (hwaking : waking pc = false ∨ waking pc' = true)
    (hpossible : Possible p.session.mSendQueue pc') (hpopped : popped? pc' = popped? pc) :
    PipelineInv ⟨p.session.unlock k pc', p.outstanding, p.pushed⟩ := by
  have hheld := (hI.locker hk hlocking.1).1
  refine hI.move hk rfl rfl rfl rfl ?_ ?_ ?_ ?_ hpossible hpopped
  · simp [hsending]
  · simp [hlocking, hheld]
  · simp [hsize]
  · intro hq hs
    rcases hwaking with hw | hw
    · exact hI.wake_of_not_waking hk hw hq hs
    · exact wake_of_waking hk hw

/-- `mSendQueue.push`. -/
theorem PipelineInv.push {b : Buffer} (hI : PipelineInv p)
    (hk : p.session.calls[k]? = some (.sendPush b))
    (hroom : p.session.mSendQueue.length + 1 < queueLimit) :
    PipelineInv ⟨{ p.session with mSendQueue := p.session.mSendQueue ++ [b] }.setCall k .sendCount,
      p.outstanding, p.pushed ++ [b]⟩ := by
  have hsending := Tally.countP_set sending .sendCount hk
  have hlocking := Tally.countP_set locking .sendCount hk
  have huncounted := Tally.countP_set uncounted .sendCount hk
  have hover := Tally.countP_set overcounted .sendCount hk
  simp only [sending, locking, uncounted, overcounted, Bool.toNat_false, Bool.toNat_true,
    Nat.add_zero] at hsending hlocking huncounted hover
  have hpopped : (p.session.calls.set k .sendCount).countP carrying =
      p.session.calls.countP carrying := Tally.countP_set carrying .sendCount hk
  constructor
  · change (p.session.calls.set k .sendCount).countP sending + _ = _
    rw [hsending]
    exact hI.senders
  · change (p.session.calls.set k .sendCount).countP locking = _
    have heq := hI.lockers
    change _ = p.session.mSendMutex.toNat
    omega
  · change p.session.mSendQueueSize.toNat + (p.session.calls.set k .sendCount).countP uncounted =
      (p.session.mSendQueue ++ [b]).length + (p.session.calls.set k .sendCount).countP overcounted
    have heq := hI.size
    rw [List.length_append, List.length_singleton]
    omega
  · intro _ _
    exact wake_of_waking hk rfl
  · intro q hq
    rcases List.mem_or_eq_of_mem_set hq with hq | rfl
    · exact (hI.possible q hq).concat _
    · exact trivial
  · exact hI.provider
  · change (p.session.mSendQueue ++ [b]).length < queueLimit
    rw [List.length_append]
    exact hroom
  · intro hnone
    change p.session.sent.map Prod.snd ++ (p.session.mSendQueue ++ [b]) = p.pushed ++ [b]
    rw [← List.append_assoc, hI.order (hpopped ▸ hnone)]
  · intro q hq d hd
    change p.session.sent.map Prod.snd ++ d :: (p.session.mSendQueue ++ [b]) = p.pushed ++ [b]
    rcases List.mem_or_eq_of_mem_set hq with hq | rfl
    · rw [← hI.order_popped q hq d hd]
      simp
    · cases hd

/-- Moving the front out of `mSendQueue`. -/
theorem PipelineInv.pop {b : Buffer} {rest : List Buffer} (hI : PipelineInv p)
    (hk : p.session.calls[k]? = some .postPop) (hq : p.session.mSendQueue = b :: rest) :
    PipelineInv ⟨{ p.session with mSendQueue := rest }.setCall k (.postUncount b),
      p.outstanding, p.pushed⟩ := by
  have hsending := Tally.countP_set sending (.postUncount b) hk
  have hlocking := Tally.countP_set locking (.postUncount b) hk
  have huncounted := Tally.countP_set uncounted (.postUncount b) hk
  have hover := Tally.countP_set overcounted (.postUncount b) hk
  simp only [sending, locking, uncounted, overcounted, Bool.toNat_false, Bool.toNat_true,
    Nat.add_zero] at hsending hlocking huncounted hover
  have hpopped : (p.session.calls.set k (.postUncount b)).countP carrying =
      p.session.calls.countP carrying + 1 := Tally.countP_set carrying (.postUncount b) hk
  obtain ⟨hflag, halone, -⟩ := hI.sender hk rfl
  have hothers := fun q hq => Tally.eq_or_not_of_mem_set sending (b := .postUncount b) (q := q)
    halone hk rfl hq
  have hnone : p.session.calls.countP carrying = 0 := by
    have hle := countP_carrying_le (p.session.calls.set k (.postUncount b))
    omega
  have horder := hI.order hnone
  rw [hq] at horder
  constructor
  · change (p.session.calls.set k (.postUncount b)).countP sending + _ = p.session.mIsSending.toNat
    have heq := hI.senders
    simp only
    omega
  · change (p.session.calls.set k (.postUncount b)).countP locking = p.session.mSendMutex.toNat
    have heq := hI.lockers
    omega
  · change p.session.mSendQueueSize.toNat +
        (p.session.calls.set k (.postUncount b)).countP uncounted =
      rest.length + (p.session.calls.set k (.postUncount b)).countP overcounted
    have heq := hI.size
    rw [hq, List.length_cons] at heq
    omega
  · intro _ hs
    change p.session.mIsSending = false at hs
    rw [hflag] at hs
    cases hs
  · intro q hmem
    rcases hothers q hmem with rfl | ⟨hmem', hno⟩
    · exact trivial
    · exact (hI.possible q hmem').of_not_sending hno
  · exact hI.provider
  · change rest.length < queueLimit
    have hroom := hI.room
    rw [hq, List.length_cons] at hroom
    omega
  · intro hzero
    change (p.session.calls.set k (.postUncount b)).countP carrying = 0 at hzero
    omega
  · intro q hmem d hd
    rcases hothers q hmem with rfl | ⟨-, hno⟩
    · cases hd
      exact horder
    · rw [sending_of_popped hd] at hno
      cases hno

/-- `SendAsync`: the packet goes to the provider, and the send is outstanding. -/
theorem PipelineInv.sendAsync {b : Buffer} (hI : PipelineInv p)
    (hk : p.session.calls[k]? = some (.sendAsync b)) :
    PipelineInv ⟨{ p.session with
        sent := p.session.sent ++ [(p.session.incarnation, b)] }.setCall k .returned,
      p.outstanding + 1, p.pushed⟩ := by
  have hsending := Tally.countP_set sending .returned hk
  have hlocking := Tally.countP_set locking .returned hk
  have huncounted := Tally.countP_set uncounted .returned hk
  have hover := Tally.countP_set overcounted .returned hk
  simp only [sending, locking, uncounted, overcounted, Bool.toNat_false, Bool.toNat_true,
    Nat.add_zero] at hsending hlocking huncounted hover
  obtain ⟨hflag, halone, -⟩ := hI.sender hk rfl
  have horder := hI.order_popped _ (List.mem_of_getElem? hk) b rfl
  constructor
  · change (p.session.calls.set k .returned).countP sending + _ = p.session.mIsSending.toNat
    have heq := hI.senders
    simp only
    omega
  · change (p.session.calls.set k .returned).countP locking = p.session.mSendMutex.toNat
    rw [hlocking]
    exact hI.lockers
  · change p.session.mSendQueueSize.toNat + (p.session.calls.set k .returned).countP uncounted =
      p.session.mSendQueue.length + (p.session.calls.set k .returned).countP overcounted
    rw [huncounted, hover]
    exact hI.size
  · intro _ hs
    change p.session.mIsSending = false at hs
    rw [hflag] at hs
    cases hs
  · intro q hmem
    rcases List.mem_or_eq_of_mem_set hmem with hmem | rfl
    · exact hI.possible q hmem
    · exact trivial
  · exact hI.provider
  · exact hI.room
  · intro _
    change (p.session.sent ++ [(p.session.incarnation, b)]).map Prod.snd ++ p.session.mSendQueue =
      p.pushed
    rw [← horder]
    simp
  · intro q hmem d hd
    rcases Tally.eq_or_not_of_mem_set sending halone hk rfl hmem with rfl | ⟨-, hno⟩
    · cases hd
    · rw [sending_of_popped hd] at hno
      cases hno

/-- Whoever has changed only one of the queue and its size holds the mutex. -/
theorem countP_miscounted_le (calls : List CallPc) :
    calls.countP uncounted + calls.countP overcounted ≤ calls.countP locking :=
  Tally.countP_add_le (fun pc => by cases pc <;> simp [uncounted, overcounted, locking]) calls

/-- `mSendQueueSize.fetch_add` does not overflow. -/
theorem PipelineInv.toNat_size_add_one (hI : PipelineInv p)
    (hk : p.session.calls[k]? = some .sendCount) :
    (p.session.mSendQueueSize + 1).toNat = p.session.mSendQueueSize.toNat + 1 := by
  have hsize := hI.size
  have hmis := countP_miscounted_le p.session.calls
  have halone := (hI.locker hk rfl).2
  have hroom := hI.room
  simp only [queueLimit] at hroom
  rw [UInt64.toNat_add]
  change (p.session.mSendQueueSize.toNat + 1) % 2 ^ 64 = _
  omega

/-- `mSendQueueSize.fetch_sub` does not go below zero. -/
theorem PipelineInv.toNat_size_sub_one {b : Buffer} (hI : PipelineInv p)
    (hk : p.session.calls[k]? = some (.postUncount b)) :
    (p.session.mSendQueueSize - 1).toNat + 1 = p.session.mSendQueueSize.toNat := by
  have hsize := hI.size
  have hover := Tally.toNat_le_countP overcounted hk
  simp only [overcounted, Bool.toNat_true] at hover
  have hmis := countP_miscounted_le p.session.calls
  have halone := (hI.locker hk rfl).2
  have hpos : 1 ≤ p.session.mSendQueueSize.toNat := by omega
  have hle : (1 : UInt64) ≤ p.session.mSendQueueSize := UInt64.le_iff_toNat_le.mpr (by simpa using hpos)
  rw [UInt64.toNat_sub_of_le _ _ hle]
  exact Nat.sub_add_cancel hpos

/-- A sender that reads a size other than 0 finds the queue nonempty. -/
theorem PipelineInv.queue_ne_nil (hI : PipelineInv p) (hk : p.session.calls[k]? = some .postLoad)
    (h : p.session.mSendQueueSize ≠ 0) : p.session.mSendQueue ≠ [] := by
  intro hq
  have hsize := hI.size
  rw [hq, List.length_nil] at hsize
  have hpos : 0 < p.session.mSendQueueSize.toNat := by
    rw [Nat.pos_iff_ne_zero]
    exact fun hz => h (UInt64.toNat_inj.mp hz)
  -- Only the sender pops, and it has not.
  have hover : p.session.calls.countP overcounted +
      p.session.calls.countP (fun pc => decide (pc = .postLoad)) ≤ p.session.calls.countP sending :=
    Tally.countP_add_le (fun pc => by cases pc <;> simp [overcounted, sending]) _
  have hself := Tally.toNat_le_countP (fun pc => decide (pc = .postLoad)) hk
  have halone := (hI.sender hk rfl).2.1
  simp only [decide_true, Bool.toNat_true] at hself
  omega

/-- A call that sees the size 0 leaves a `Send` behind that has pushed and not
counted, if the queue is not empty. -/
theorem PipelineInv.wake_of_size_eq_zero (hI : PipelineInv p)
    (hk : p.session.calls[k]? = some .postRecheck) (h : p.session.mSendQueueSize = 0)
    (hq : p.session.mSendQueue ≠ []) :
    0 < (p.session.calls.set k .returned).countP waking := by
  have hsize := hI.size
  have hlen := List.length_pos_of_ne_nil hq
  have hzero : p.session.mSendQueueSize.toNat = 0 := by rw [h]; rfl
  have hle : p.session.calls.countP uncounted +
      p.session.calls.countP (fun pc => decide (pc = .postRecheck)) ≤ p.session.calls.countP waking :=
    Tally.countP_add_le (fun pc => by cases pc <;> simp [uncounted, waking]) _
  have hself := Tally.toNat_le_countP (fun pc => decide (pc = .postRecheck)) hk
  have hcount := Tally.countP_set waking .returned hk
  simp only [decide_true, Bool.toNat_true] at hself
  simp only [waking, Bool.toNat_true, Bool.toNat_false] at hcount
  omega

/-- A step of a call keeps the invariant. -/
theorem PipelineInv.callStep (hI : PipelineInv p) (hk : p.session.calls[k]? = some pc)
    (hroom : roomFor p.session pc = true) (h : callStep p.session k true pc = some s') :
    PipelineInv ⟨s', p.outstanding + starts pc, p.pushed ++ pushes pc⟩ := by
  have hposs := hI.possible pc (List.mem_of_getElem? hk)
  have hplain : ∀ {s : Session}, PipelineInv ⟨s, p.outstanding, p.pushed⟩ →
      PipelineInv ⟨s, p.outstanding + 0, p.pushed ++ []⟩ := by
    intro s hs
    rwa [List.append_nil]
  cases pc with
  | sendConnected b =>
      apply hplain
      simp only [SessionSend.callStep] at h
      split at h <;> cases h <;> exact hI.idle hk rfl rfl ⟨rfl, rfl⟩ rfl trivial rfl
  | sendPressure b =>
      apply hplain
      simp only [SessionSend.callStep] at h
      split at h <;> cases h <;> exact hI.idle hk rfl rfl ⟨rfl, rfl⟩ rfl trivial rfl
  | sendLock b =>
      apply hplain
      exact hI.lock hk h rfl ⟨rfl, rfl⟩ ⟨rfl, rfl⟩ rfl trivial rfl
  | sendPush b =>
      cases h
      exact hI.push hk (by simpa [roomFor, pushes] using hroom)
  | sendCount =>
      cases h
      apply hplain
      have hadd := hI.toNat_size_add_one hk
      refine hI.move hk rfl rfl rfl rfl rfl rfl ?_ (fun _ _ => wake_of_waking hk rfl) trivial rfl
      simp only [uncounted, overcounted, Bool.toNat_false, Bool.toNat_true]
      omega
  | sendUnlock =>
      cases h
      apply hplain
      exact hI.unlock hk rfl ⟨rfl, rfl⟩ ⟨rfl, rfl⟩ (Or.inr rfl) trivial rfl
  | flush =>
      apply hplain
      simp only [SessionSend.callStep] at h
      split at h
      next hsending =>
        cases h
        refine hI.move hk rfl rfl rfl rfl rfl rfl rfl (fun _ hs => ?_) trivial rfl
        rw [hsending] at hs
        cases hs
      next hsending =>
        cases h
        refine hI.move hk rfl rfl rfl rfl ?_ rfl rfl (fun _ hs => by cases hs) trivial rfl
        simp [hsending, sending]
  | postLoad =>
      apply hplain
      cases h
      split
      · exact hI.idle hk rfl rfl ⟨rfl, rfl⟩ rfl trivial rfl
      next hsize => exact hI.idle hk rfl rfl ⟨rfl, rfl⟩ rfl (hI.queue_ne_nil hk hsize) rfl
  | postRelease =>
      cases h
      apply hplain
      have hflag := (hI.sender hk rfl).1
      refine hI.move hk rfl rfl rfl rfl ?_ rfl rfl (fun _ _ => wake_of_waking hk rfl) trivial rfl
      simp [hflag, sending]
  | postRecheck =>
      apply hplain
      cases h
      split
      · exact hI.move hk rfl rfl rfl rfl rfl rfl rfl (fun _ _ => wake_of_waking hk rfl) trivial rfl
      next hsize =>
        have hzero : p.session.mSendQueueSize = 0 := by
          rw [← UInt64.toNat_inj]
          have hlt : ¬ (0 : UInt64).toNat < p.session.mSendQueueSize.toNat := hsize
          simp only [UInt64.toNat_zero] at hlt ⊢
          omega
        exact hI.move hk rfl rfl rfl rfl rfl rfl rfl
          (fun hq _ => hI.wake_of_size_eq_zero hk hzero hq) trivial rfl
  | postLock =>
      apply hplain
      exact hI.lock hk h rfl ⟨rfl, rfl⟩ ⟨rfl, rfl⟩ rfl hposs rfl
  | postEmpty =>
      apply hplain
      cases h
      have hne : p.session.mSendQueue.isEmpty = false := by simpa [Possible] using hposs
      rw [if_neg (by simp [hne])]
      exact hI.idle hk rfl rfl ⟨rfl, rfl⟩ rfl hposs rfl
  | postPop =>
      apply hplain
      simp only [SessionSend.callStep] at h
      split at h
      · cases h
      next b rest hq =>
        cases h
        exact hI.pop hk hq
  | postUncount b =>
      cases h
      apply hplain
      have hsub := hI.toNat_size_sub_one hk
      refine hI.move hk rfl rfl rfl rfl rfl rfl ?_ (hI.wake_of_not_waking hk rfl) trivial rfl
      simp only [uncounted, overcounted, Bool.toNat_false, Bool.toNat_true]
      omega
  | postUnlock b =>
      cases h
      apply hplain
      exact hI.unlock hk rfl ⟨rfl, rfl⟩ ⟨rfl, rfl⟩ (Or.inl rfl) trivial rfl
  | snapshotLock b =>
      apply hplain
      exact hI.lock hk h rfl ⟨rfl, rfl⟩ ⟨rfl, rfl⟩ rfl trivial rfl
  | snapshotCopy b =>
      cases h
      apply hplain
      exact hI.idle hk rfl rfl ⟨rfl, rfl⟩ rfl hI.provider rfl
  | snapshotUnlock b provider =>
      cases h
      apply hplain
      have hprovider : provider = true := hposs
      subst hprovider
      exact hI.unlock hk rfl ⟨rfl, rfl⟩ ⟨rfl, rfl⟩ (Or.inl rfl) trivial rfl
  | sendAsync b =>
      cases h
      simpa only [starts, pushes, List.append_nil, if_true] using hI.sendAsync hk
  | returned => cases h
  | _ => exact absurd hposs id

/-- A new call, which is not in a locked region and has no packet popped. -/
theorem PipelineInv.call {outstanding : Nat} (hI : PipelineInv p)
    (h : p.session.call pc = some s') (hlocking : locking pc = false)
    (hcount : uncounted pc = false ∧ overcounted pc = false) (hpopped : popped? pc = none)
    (hpossible : ∀ q, Possible q pc)
    (hsenders : (sending pc).toNat + outstanding = p.outstanding) :
    PipelineInv ⟨s', outstanding, p.pushed⟩ := by
  unfold Session.call at h
  split at h
  · cases h
    have hsum := fun f : CallPc → Bool => Tally.countP_concat f p.session.calls pc
    constructor
    · have heq := hI.senders
      simp only [hsum]
      omega
    · simp only [hsum, hlocking]
      exact hI.lockers
    · simp only [hsum, hcount]
      exact hI.size
    · intro hq hs
      have hpos := hI.wake hq hs
      simp only [hsum]
      omega
    · intro q hq
      rcases List.mem_append.mp hq with hq | hq
      · exact hI.possible q hq
      · rw [List.mem_singleton.mp hq]
        exact hpossible _
    · exact hI.provider
    · exact hI.room
    · intro hnone
      simp only [hsum] at hnone
      exact hI.order (by omega)
    · intro q hq b hb
      rcases List.mem_append.mp hq with hq | hq
      · exact hI.order_popped q hq b hb
      · rw [List.mem_singleton.mp hq, hpopped] at hb
        cases hb
  · cases h

/-- Every step of the pipeline keeps the invariant. -/
theorem PipelineInv.step {a : PipelineAct} (hI : PipelineInv p) (h : pipelineStep p a = some p') :
    PipelineInv p' := by
  cases a with
  | send data =>
      obtain ⟨s, hs, rfl⟩ := Option.map_eq_some_iff.mp h
      exact hI.call hs rfl ⟨rfl, rfl⟩ rfl (fun _ => trivial) (by simp [sending])
  | complete =>
      simp only [pipelineStep] at h
      split at h
      · cases h
      next hout =>
        obtain ⟨s, hs, rfl⟩ := Option.map_eq_some_iff.mp h
        refine hI.call hs rfl ⟨rfl, rfl⟩ rfl (fun _ => trivial) ?_
        simp only [sending, Bool.toNat_true]
        omega
  | step k =>
      simp only [pipelineStep] at h
      split at h
      · cases h
      next pc hk =>
        split at h
        next hroom =>
          obtain ⟨s, hs, rfl⟩ := Option.map_eq_some_iff.mp h
          exact hI.callStep hk hroom hs
        · cases h

/-- Where no call is in progress, none is counted. -/
theorem countP_eq_zero_of_quiet {s : Session} (h : s.quiet = true) {f : CallPc → Bool}
    (hf : f .returned = false) : s.calls.countP f = 0 := by
  rw [List.countP_eq_zero]
  intro pc hpc
  rw [Session.quiet_iff.mp h pc hpc, hf]
  exact Bool.false_ne_true

/-- Whatever the threads and the completions do, the provider gets the pushed
packets in order, with at most one send outstanding.  Where nobody is inside
`Send` or `PostSend` and no send is outstanding, it has got all of them, the
queue is empty and its size is right. -/
theorem sends_in_order (as : List PipelineAct) (p : Pipeline)
    (hrun : Machine.run pipelineStep start as = some p) :
    p.session.sent.map Prod.snd <+: p.pushed ∧ p.outstanding ≤ 1 ∧
      (p.session.quiet = true → p.outstanding = 0 →
        p.session.sent.map Prod.snd = p.pushed ∧ p.session.mSendQueue = [] ∧
          p.session.mSendQueueSize.toNat = p.session.mSendQueue.length) := by
  have hI : PipelineInv p :=
    Machine.run_invariant (fun _ _ _ hI h => PipelineInv.step hI h) pipelineInv_start hrun
  refine ⟨?_, ?_, fun hquiet hout => ?_⟩
  · by_cases hnone : p.session.calls.countP carrying = 0
    · exact ⟨_, hI.order hnone⟩
    · obtain ⟨pc, hpc, hcarry⟩ := List.countP_pos_iff.mp (Nat.pos_of_ne_zero hnone)
      obtain ⟨b, hb⟩ := Option.isSome_iff_exists.mp hcarry
      exact ⟨_, hI.order_popped pc hpc b hb⟩
  · have hsenders := hI.senders
    have hle := Bool.toNat_le p.session.mIsSending
    omega
  · have hzero : ∀ f : CallPc → Bool, f .returned = false → p.session.calls.countP f = 0 :=
      fun f hf => countP_eq_zero_of_quiet hquiet hf
    have hidle : p.session.mIsSending = false := by
      have hsenders := hI.senders
      rw [hzero sending rfl, hout] at hsenders
      exact Bool.toNat_eq_zero.mp hsenders.symm
    have hempty : p.session.mSendQueue = [] := by
      by_contra hne
      have hwake := hI.wake hne hidle
      rw [hzero waking rfl] at hwake
      exact Nat.lt_irrefl 0 hwake
    have hsize := hI.size
    rw [hzero uncounted rfl, hzero overcounted rfl] at hsize
    refine ⟨?_, hempty, hsize⟩
    have horder := hI.order (hzero carrying rfl)
    rw [hempty, List.append_nil] at horder
    exact horder

/-- One thread sends the byte 1, and a second one pushes the byte 2 while the
first is the sender.  Both are completed. -/
def twoSendsTrace : List PipelineAct :=
  List.flatten [[.send [1]], List.replicate 9 (.step 1), [.send [2]], List.replicate 2 (.step 2),
    List.replicate 8 (.step 1), List.replicate 5 (.step 2), [.complete],
    List.replicate 10 (.step 3), [.complete], List.replicate 3 (.step 4)]

/-- The provider has got both bytes and the pipeline is empty. -/
theorem sends_in_order_twoSendsTrace :
    ∃ p, Machine.run pipelineStep start twoSendsTrace = some p ∧
      p.pushed = [⟨1, [1]⟩, ⟨1, [2]⟩] ∧ p.session.sent.map Prod.snd = p.pushed := by
  -- The first byte is with the provider, and the second thread waits for the lock.
  have hfirst : Machine.run pipelineStep start (twoSendsTrace.take 21) =
      some ⟨{ connected with
        mIsSending := true
        calls := [.returned, .returned, .sendLock ⟨1, [2]⟩]
        sent := [(1, ⟨1, [1]⟩)] }, 1, [⟨1, [1]⟩]⟩ := by
    decide +kernel
  have hview : (Machine.run pipelineStep start twoSendsTrace).map (fun p =>
      (p.pushed, p.session.quiet, p.outstanding)) = some ([⟨1, [1]⟩, ⟨1, [2]⟩], true, 0) := by
    rw [← List.take_append_drop 21 twoSendsTrace, Machine.run_append, hfirst]
    decide +kernel
  obtain ⟨p, hrun, hp⟩ := Option.map_eq_some_iff.mp hview
  simp only [Prod.mk.injEq] at hp
  obtain ⟨hpushed, hquiet, hnone⟩ := hp
  exact ⟨p, hrun, hpushed, ((sends_in_order twoSendsTrace p hrun).2.2 hquiet hnone).1⟩

end

end NetworkModule.SendPipeline
