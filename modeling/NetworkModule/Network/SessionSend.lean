import NetworkModule.Lib.Machine
import NetworkModule.Types
import Mathlib

/-!
# The send path of a pooled session

The session of `Network/Core/Session.cpp` on POSIX systems, with the pool slot
it lives in.  Any number of threads may be inside `Send`, `PostSend`, `Close`
and `SetAsyncProvider` at once, and each atomic access, lock operation and
queue operation is one step.

The slot goes around: `Initialize` starts an incarnation, the session is in use,
and when the last reference is dropped the deleter calls `Close` and `Reset`.
Every caller holds a reference, so the deleter runs only when no call is in
progress.  A buffer remembers the incarnation in which its `Send` was called,
and `sent` records every buffer given to `SendAsync` with the incarnation in
which that happened.

`Close` empties `mSendQueue`, but a `Send` that had tested `IsConnected` before
may push afterwards, and neither `Reset` nor `Initialize` looks at the queue
again.  `sendsOwn_of_emptyAtReset` says that this is the only way a buffer can
reach the next client.
-/

namespace NetworkModule.SessionSend

/-! ## The session -/

/-- `SEND_QUEUE_BACKPRESSURE_THRESHOLD`. -/
def sendQueueBackpressureThreshold : UInt64 := 64

/-- `MAX_PACKET_TOTAL_SIZE`. -/
def maxPacketTotalSize : Nat := 4096

/-- A buffer, with the incarnation in which its `Send` was called. -/
structure Buffer where
  madeIn : Nat
  data : List UInt8
  deriving DecidableEq, Repr

/-- Where a call stands. -/
inductive CallPc where
  /-- `Send` tests `IsConnected` and its arguments. -/
  | sendConnected (b : Buffer)
  /-- `Send` loads `mSendQueueSize` for the back-pressure test. -/
  | sendPressure (b : Buffer)
  /-- `Send` takes `mSendMutex`. -/
  | sendLock (b : Buffer)
  /-- `mSendQueue.push`. -/
  | sendPush (b : Buffer)
  /-- `mSendQueueSize.fetch_add`. -/
  | sendCount
  /-- `Send` releases `mSendMutex`. -/
  | sendUnlock
  /-- `FlushSendQueue`: the compare-and-swap on `mIsSending`. -/
  | flush
  /-- `PostSend` loads `mSendQueueSize`. -/
  | postLoad
  /-- The size was 0.  Storing `mIsSending`. -/
  | postRelease
  /-- Loading `mSendQueueSize` again. -/
  | postRecheck
  /-- `PostSend` takes `mSendMutex`. -/
  | postLock
  /-- Testing `mSendQueue`. -/
  | postEmpty
  /-- The queue was empty.  Storing `mIsSending`. -/
  | postEmptyRelease
  /-- Releasing `mSendMutex` and returning. -/
  | postEmptyUnlock
  /-- Moving the front out of `mSendQueue`. -/
  | postPop
  /-- `mSendQueueSize.fetch_sub`. -/
  | postUncount (b : Buffer)
  /-- Releasing `mSendMutex`. -/
  | postUnlock (b : Buffer)
  /-- Taking `mSendMutex` for the provider. -/
  | snapshotLock (b : Buffer)
  /-- Copying `mAsyncProvider`. -/
  | snapshotCopy (b : Buffer)
  /-- Releasing `mSendMutex`. -/
  | snapshotUnlock (b : Buffer) (provider : Bool)
  /-- `SendAsync`. -/
  | sendAsync (b : Buffer)
  /-- There is no provider.  Storing `mIsSending` and returning. -/
  | noProvider
  /-- `SendAsync` failed.  Storing `mIsSending`. -/
  | sendFailed
  /-- `Close` exchanges `mState`. -/
  | closeExchange
  /-- `Close` exchanges `mSocket`. -/
  | closeSocket
  /-- `Close` takes `mSendMutex`. -/
  | closeLock
  /-- `mAsyncProvider.reset()`. -/
  | closeProvider
  /-- The loop that pops `mSendQueue`. -/
  | closeDrain
  /-- Storing 0 to `mSendQueueSize`. -/
  | closeZero
  /-- Releasing `mSendMutex`. -/
  | closeUnlock
  /-- `SetAsyncProvider` takes `mSendMutex`. -/
  | providerLock
  /-- Storing `mAsyncProvider`. -/
  | providerStore
  /-- Releasing `mSendMutex`. -/
  | providerUnlock
  /-- The call has returned. -/
  | returned
  deriving DecidableEq, Repr

/-- Where the slot stands in its cycle. -/
inductive Phase where
  /-- In the free list. -/
  | free
  /-- `Initialize` stores `mState`. -/
  | initState
  /-- `Initialize` stores `mIsSending`. -/
  | initSending
  /-- `Initialize` stores `mSendQueueSize`. -/
  | initSize
  /-- In use. -/
  | live
  /-- The deleter is in `Close`. -/
  | closing
  /-- `Reset` stores `mIsSending`. -/
  | resetSending
  /-- `Reset` stores `mSendQueueSize`. -/
  | resetSize
  deriving DecidableEq, Repr

/-- A session, its slot, and the calls made on it. -/
structure Session where
  mState : SessionState := .none
  /-- Whether `mSocket` is a valid descriptor. -/
  mSocket : Bool := false
  /-- Whether `mAsyncProvider` is set. -/
  mAsyncProvider : Bool := false
  mSendQueue : List Buffer := []
  mSendQueueSize : UInt64 := 0
  mIsSending : Bool := false
  /-- Whether `mSendMutex` is held. -/
  mSendMutex : Bool := false
  /-- The calls made so far. -/
  calls : List CallPc := []
  phase : Phase := .free
  /-- How often `Initialize` has been called. -/
  incarnation : Nat := 0
  /-- The buffers given to `SendAsync`, each with the incarnation of that moment. -/
  sent : List (Nat × Buffer) := []
  deriving DecidableEq, Repr

/-! ## Steps -/

/-- Move call `k`. -/
def Session.setCall (s : Session) (k : Nat) (pc : CallPc) : Session :=
  { s with calls := s.calls.set k pc }

/-- Take `mSendMutex` if it is free, and move call `k`. -/
def Session.lock (s : Session) (k : Nat) (pc : CallPc) : Option Session :=
  if s.mSendMutex then none else some ({ s with mSendMutex := true }.setCall k pc)

/-- Release `mSendMutex`, and move call `k`. -/
def Session.unlock (s : Session) (k : Nat) (pc : CallPc) : Session :=
  { s with mSendMutex := false }.setCall k pc

/-- One step of call `k`, which stands at `pc`.  `ok` is the answer of `SendAsync`. -/
def callStep (s : Session) (k : Nat) (ok : Bool) : CallPc → Option Session
  | .sendConnected b =>
      if s.mState ≠ .connected ∨ b.data.length = 0 ∨ maxPacketTotalSize < b.data.length then
        some (s.setCall k .returned)
      else some (s.setCall k (.sendPressure b))
  | .sendPressure b =>
      if sendQueueBackpressureThreshold ≤ s.mSendQueueSize then some (s.setCall k .returned)
      else some (s.setCall k (.sendLock b))
  | .sendLock b => s.lock k (.sendPush b)
  | .sendPush b => some ({ s with mSendQueue := s.mSendQueue ++ [b] }.setCall k .sendCount)
  | .sendCount =>
      some ({ s with mSendQueueSize := s.mSendQueueSize + 1 }.setCall k .sendUnlock)
  | .sendUnlock => some (s.unlock k .flush)
  | .flush =>
      if s.mIsSending then some (s.setCall k .returned)
      else some ({ s with mIsSending := true }.setCall k .postLoad)
  | .postLoad => some (s.setCall k (if s.mSendQueueSize = 0 then .postRelease else .postLock))
  | .postRelease => some ({ s with mIsSending := false }.setCall k .postRecheck)
  | .postRecheck => some (s.setCall k (if 0 < s.mSendQueueSize then .flush else .returned))
  | .postLock => s.lock k .postEmpty
  | .postEmpty =>
      some (s.setCall k (if s.mSendQueue.isEmpty then .postEmptyRelease else .postPop))
  | .postEmptyRelease => some ({ s with mIsSending := false }.setCall k .postEmptyUnlock)
  | .postEmptyUnlock => some (s.unlock k .returned)
  | .postPop =>
      match s.mSendQueue with
      | [] => none
      | b :: rest => some ({ s with mSendQueue := rest }.setCall k (.postUncount b))
  | .postUncount b =>
      some ({ s with mSendQueueSize := s.mSendQueueSize - 1 }.setCall k (.postUnlock b))
  | .postUnlock b => some (s.unlock k (.snapshotLock b))
  | .snapshotLock b => s.lock k (.snapshotCopy b)
  | .snapshotCopy b => some (s.setCall k (.snapshotUnlock b s.mAsyncProvider))
  | .snapshotUnlock b provider => some (s.unlock k (if provider then .sendAsync b else .noProvider))
  | .sendAsync b =>
      some ({ s with sent := s.sent ++ [(s.incarnation, b)] }.setCall k
        (if ok then .returned else .sendFailed))
  | .noProvider => some ({ s with mIsSending := false }.setCall k .returned)
  | .sendFailed => some ({ s with mIsSending := false }.setCall k .closeExchange)
  | .closeExchange =>
      some ({ s with mState := .disconnected }.setCall k
        (if s.mState = SessionState.disconnected then .returned else .closeSocket))
  | .closeSocket => some ({ s with mSocket := false }.setCall k .closeLock)
  | .closeLock => s.lock k .closeProvider
  | .closeProvider => some ({ s with mAsyncProvider := false }.setCall k .closeDrain)
  | .closeDrain =>
      match s.mSendQueue with
      | [] => some (s.setCall k .closeZero)
      | _ :: rest => some { s with mSendQueue := rest }
  | .closeZero => some ({ s with mSendQueueSize := 0 }.setCall k .closeUnlock)
  | .closeUnlock => some (s.unlock k .returned)
  | .providerLock => s.lock k .providerStore
  | .providerStore => some ({ s with mAsyncProvider := true }.setCall k .providerUnlock)
  | .providerUnlock => some (s.unlock k .returned)
  | .returned => none

/-- No call is in progress. -/
def Session.quiet (s : Session) : Bool := s.calls.all (· = .returned)

/-- The next step of the slot.  Its holder is alone with the session: nobody else
has a reference before `Initialize` is done, or after the last one was dropped. -/
def lifecycleStep (s : Session) : Option Session :=
  match s.phase with
  | .free =>
      some { s with incarnation := s.incarnation + 1, mSocket := true, phase := .initState }
  | .initState => some { s with mState := .connected, phase := .initSending }
  | .initSending => some { s with mIsSending := false, phase := .initSize }
  | .initSize => some { s with mSendQueueSize := 0, phase := .live }
  | .live =>
      -- The deleter of the last reference calls `Close`.
      if s.quiet then some { s with calls := s.calls ++ [.closeExchange], phase := .closing }
      else none
  | .closing =>
      -- `Close` is done, and `Reset` stores `mState`.
      if s.quiet then some { s with mState := .none, phase := .resetSending } else none
  | .resetSending => some { s with mIsSending := false, phase := .resetSize }
  | .resetSize => some { s with mSendQueueSize := 0, phase := .free }

/-- Who moves. -/
inductive SessionAct where
  /-- A thread calls `Send`. -/
  | send (data : List UInt8)
  /-- A send completion calls `PostSend`. -/
  | postSend
  /-- A thread calls `Close`. -/
  | close
  /-- A thread calls `SetAsyncProvider`. -/
  | setAsyncProvider
  /-- Call `k` takes its next step. -/
  | step (k : Nat) (ok : Bool)
  /-- The slot goes on in its cycle. -/
  | lifecycle
  deriving DecidableEq, Repr

/-- A thread with a reference makes a call. -/
def Session.call (s : Session) (pc : CallPc) : Option Session :=
  if s.phase = .live then some { s with calls := s.calls ++ [pc] } else none

/-- One step of the session. -/
def sessionStep (s : Session) : SessionAct → Option Session
  | .send data => s.call (.sendConnected ⟨s.incarnation, data⟩)
  | .postSend => s.call .postLoad
  | .close => s.call .closeExchange
  | .setAsyncProvider => s.call .providerLock
  | .step k ok =>
      match s.calls[k]? with
      | none => none
      | some pc => callStep s k ok pc
  | .lifecycle => lifecycleStep s

/-! ## A session sends only what was sent to its client -/

/-- Every buffer that was given to `SendAsync` came from a `Send` of the same
incarnation. -/
def Session.SendsOwn (s : Session) : Prop := ∀ x ∈ s.sent, x.2.madeIn = x.1

instance (s : Session) : Decidable s.SendsOwn := inferInstanceAs (Decidable (∀ x ∈ s.sent, _))

/-- `Reset` is called only on a session whose send queue is empty. -/
def emptyAtReset (s : Session) (a : SessionAct) : Bool :=
  match a, s.phase with
  | .lifecycle, .closing => s.mSendQueue.isEmpty
  | _, _ => true

/-! ## What a step does to the buffers -/

/-- The buffer a call carries. -/
def CallPc.buffer? : CallPc → Option Buffer
  | .sendConnected b | .sendPressure b | .sendLock b | .sendPush b | .postUncount b | .postUnlock b
  | .snapshotLock b | .snapshotCopy b | .snapshotUnlock b _ | .sendAsync b => some b
  | _ => none

/-- After a step of a call at `pc`, every buffer of the session was in its queue
or carried by the call, and the cycle has not moved. -/
structure Carries (s : Session) (pc : CallPc) (s' : Session) : Prop where
  incarnation : s'.incarnation = s.incarnation
  phase : s'.phase = s.phase
  queue : ∀ b ∈ s'.mSendQueue, b ∈ s.mSendQueue ∨ pc.buffer? = some b
  sent : ∀ x ∈ s'.sent, x ∈ s.sent ∨ ∃ b, pc.buffer? = some b ∧ x = (s.incarnation, b)
  calls : ∀ p ∈ s'.calls, p ∈ s.calls ∨
    ∀ b, p.buffer? = some b → pc.buffer? = some b ∨ b ∈ s.mSendQueue

section
variable {s s' : Session} {k : Nat} {ok : Bool} {pc pc' : CallPc}

/-- A step that moves the call and leaves the queue and the history alone. -/
theorem Carries.move {t : Session} (hinc : t.incarnation = s.incarnation)
    (hphase : t.phase = s.phase) (hqueue : t.mSendQueue = s.mSendQueue) (hsent : t.sent = s.sent)
    (hcalls : t.calls = s.calls)
    (hpc : ∀ b, pc'.buffer? = some b → pc.buffer? = some b ∨ b ∈ s.mSendQueue) :
    Carries s pc (t.setCall k pc') where
  incarnation := hinc
  phase := hphase
  queue := fun b hb => Or.inl (hqueue ▸ hb)
  sent := fun x hx => Or.inl (hsent ▸ hx)
  calls := fun p hp => by
    rcases List.mem_or_eq_of_mem_set hp with hp | rfl
    · exact Or.inl (hcalls ▸ hp)
    · exact Or.inr hpc

theorem Carries.lock (h : s.lock k pc' = some s')
    (hpc : ∀ b, pc'.buffer? = some b → pc.buffer? = some b ∨ b ∈ s.mSendQueue) :
    Carries s pc s' := by
  unfold Session.lock at h
  split at h
  · cases h
  · cases h
    exact .move rfl rfl rfl rfl rfl hpc

theorem callStep_carries (h : callStep s k ok pc = some s') : Carries s pc s' := by
  cases pc with
  | sendConnected b =>
      simp only [callStep] at h
      split at h <;> cases h <;> exact .move rfl rfl rfl rfl rfl (by simp [CallPc.buffer?])
  | sendPressure b =>
      simp only [callStep] at h
      split at h <;> cases h <;> exact .move rfl rfl rfl rfl rfl (by simp [CallPc.buffer?])
  | flush =>
      simp only [callStep] at h
      split at h <;> cases h <;> exact .move rfl rfl rfl rfl rfl (by simp [CallPc.buffer?])
  | sendLock b => exact .lock h (by simp [CallPc.buffer?])
  | postLock => exact .lock h (by simp [CallPc.buffer?])
  | snapshotLock b => exact .lock h (by simp [CallPc.buffer?])
  | closeLock => exact .lock h (by simp [CallPc.buffer?])
  | providerLock => exact .lock h (by simp [CallPc.buffer?])
  | sendPush b =>
      cases h
      have hmove : Carries s (.sendPush b) (s.setCall k .sendCount) :=
        .move rfl rfl rfl rfl rfl (by simp [CallPc.buffer?])
      refine ⟨rfl, rfl, fun d hd => ?_, fun x hx => Or.inl hx, hmove.calls⟩
      rcases List.mem_append.mp hd with hd | hd
      · exact Or.inl hd
      · rw [List.mem_singleton.mp hd]
        exact Or.inr rfl
  | postPop =>
      simp only [callStep] at h
      split at h
      · cases h
      next b rest hq =>
        cases h
        have hmove : Carries s .postPop (s.setCall k (.postUncount b)) :=
          .move rfl rfl rfl rfl rfl (by simp [CallPc.buffer?, hq])
        exact ⟨rfl, rfl, fun d hd => Or.inl (by rw [hq]; exact List.mem_cons_of_mem _ hd),
          fun x hx => Or.inl hx, hmove.calls⟩
  | closeDrain =>
      simp only [callStep] at h
      split at h
      · cases h
        exact .move rfl rfl rfl rfl rfl (by simp [CallPc.buffer?])
      next b rest hq =>
        cases h
        exact ⟨rfl, rfl, fun d hd => Or.inl (by rw [hq]; exact List.mem_cons_of_mem _ hd),
          fun x hx => Or.inl hx, fun p hp => Or.inl hp⟩
  | sendAsync b =>
      cases h
      have hmove : Carries s (.sendAsync b) (s.setCall k (if ok then .returned else .sendFailed)) :=
        .move rfl rfl rfl rfl rfl (by split <;> simp [CallPc.buffer?])
      refine ⟨rfl, rfl, fun d hd => Or.inl hd, fun x hx => ?_, hmove.calls⟩
      rcases List.mem_append.mp hx with hx | hx
      · exact Or.inl hx
      · exact Or.inr ⟨b, rfl, List.mem_singleton.mp hx⟩
  | postLoad | postRecheck | postEmpty | snapshotUnlock | closeExchange =>
      cases h
      exact .move rfl rfl rfl rfl rfl (by split <;> simp [CallPc.buffer?])
  | returned => cases h
  | _ =>
      cases h
      exact .move rfl rfl rfl rfl rfl (by simp [CallPc.buffer?])

end

/-! ## The invariant -/

/-- `Reset` has been called and `Initialize` has not. -/
def Phase.pooled : Phase → Bool
  | .free | .resetSending | .resetSize => true
  | .initState | .initSending | .initSize | .live | .closing => false

/-- Every buffer of the session belongs to the present incarnation, and in the
pool there is none. -/
structure SessionInv (s : Session) : Prop where
  queue : ∀ b ∈ s.mSendQueue, b.madeIn = s.incarnation
  calls : ∀ pc ∈ s.calls, ∀ b, pc.buffer? = some b → b.madeIn = s.incarnation
  pooled : s.phase.pooled = true → s.mSendQueue = [] ∧ s.quiet = true
  sent : s.SendsOwn

theorem sessionInv_init : SessionInv {} := by
  refine ⟨?_, ?_, fun _ => ⟨rfl, rfl⟩, ?_⟩
  · intro b hb; cases hb
  · intro pc hpc; cases hpc
  · intro x hx; cases hx

section
variable {s s' : Session}

theorem Session.quiet_iff : s.quiet = true ↔ ∀ pc ∈ s.calls, pc = .returned := by
  simp [Session.quiet]

/-- A new call carries at most a buffer of this incarnation. -/
theorem SessionInv.call (hI : SessionInv s) {pc : CallPc}
    (hpc : ∀ b, pc.buffer? = some b → b.madeIn = s.incarnation) (h : s.call pc = some s') :
    SessionInv s' := by
  unfold Session.call at h
  split at h
  next hlive =>
    cases h
    refine ⟨hI.queue, fun p hp => ?_, fun hp => ?_, hI.sent⟩
    · rcases List.mem_append.mp hp with hp | hp
      · exact hI.calls p hp
      · rw [List.mem_singleton.mp hp]
        exact hpc
    · change s.phase.pooled = true at hp
      rw [hlive] at hp
      cases hp
  · cases h

/-- A step of a call keeps the invariant. -/
theorem SessionInv.callStep {k : Nat} {ok : Bool} {pc : CallPc} (hI : SessionInv s)
    (hk : s.calls[k]? = some pc) (h : callStep s k ok pc = some s') : SessionInv s' := by
  have hc := callStep_carries h
  have hmem : pc ∈ s.calls := List.mem_of_getElem? hk
  have hown : ∀ b, pc.buffer? = some b → b.madeIn = s.incarnation := hI.calls pc hmem
  refine ⟨fun b hb => ?_, fun p hp b hb => ?_, fun hp => ?_, fun x hx => ?_⟩
  · rw [hc.incarnation]
    exact (hc.queue b hb).elim (hI.queue b) (hown b)
  · rw [hc.incarnation]
    rcases hc.calls p hp with hp | hp
    · exact hI.calls p hp b hb
    · exact (hp b hb).elim (hown b) (hI.queue b)
  · -- In the pool every call has returned, so none can step.
    rw [hc.phase] at hp
    have hret := Session.quiet_iff.mp (hI.pooled hp).2 pc hmem
    subst hret
    cases h
  · rcases hc.sent x hx with hx | ⟨b, hb, rfl⟩
    · exact hI.sent x hx
    · exact hown b hb

/-- The slot goes on, and `Reset` finds the queue empty. -/
theorem SessionInv.lifecycleStep (hI : SessionInv s) (hok : emptyAtReset s .lifecycle = true)
    (h : lifecycleStep s = some s') : SessionInv s' := by
  unfold SessionSend.lifecycleStep at h
  cases hphase : s.phase with
  | free =>
      -- A new incarnation begins, and nothing of the old one is left.
      simp only [hphase] at h
      cases h
      obtain ⟨hq, hquiet⟩ := hI.pooled (by rw [hphase]; rfl)
      refine ⟨fun b hb => ?_, fun pc hpc b hb => ?_, (fun hp => by cases hp), hI.sent⟩
      · change b ∈ s.mSendQueue at hb
        rw [hq] at hb
        cases hb
      · rw [Session.quiet_iff.mp hquiet pc hpc] at hb
        cases hb
  | initState | initSending | initSize =>
      simp only [hphase] at h
      cases h
      exact ⟨hI.queue, hI.calls, (fun hp => by cases hp), hI.sent⟩
  | live =>
      simp only [hphase] at h
      split at h
      · cases h
        refine ⟨hI.queue, fun pc hpc => ?_, (fun hp => by cases hp), hI.sent⟩
        rcases List.mem_append.mp hpc with hpc | hpc
        · exact hI.calls pc hpc
        · rw [List.mem_singleton.mp hpc]
          intro b hb
          cases hb
      · cases h
  | closing =>
      simp only [hphase] at h
      split at h
      next hquiet =>
        cases h
        have hempty : s.mSendQueue = [] := by simpa [emptyAtReset, hphase] using hok
        exact ⟨hI.queue, hI.calls, fun _ => ⟨hempty, hquiet⟩, hI.sent⟩
      · cases h
  | resetSending | resetSize =>
      simp only [hphase] at h
      cases h
      exact ⟨hI.queue, hI.calls, fun _ => hI.pooled (by rw [hphase]; rfl), hI.sent⟩

/-- Every allowed step keeps the invariant. -/
theorem SessionInv.step {a : SessionAct} (hI : SessionInv s) (hok : emptyAtReset s a = true)
    (h : sessionStep s a = some s') : SessionInv s' := by
  cases a with
  | send data =>
      refine hI.call (fun b hb => ?_) h
      cases hb
      rfl
  | postSend => exact hI.call (by simp [CallPc.buffer?]) h
  | close => exact hI.call (by simp [CallPc.buffer?]) h
  | setAsyncProvider => exact hI.call (by simp [CallPc.buffer?]) h
  | step k ok =>
      simp only [sessionStep] at h
      split at h
      · cases h
      next pc hk => exact hI.callStep hk h
  | lifecycle => exact hI.lifecycleStep hok h

/-- In every run in which `Reset` always finds the send queue empty, a session
sends only what was given to it in the same incarnation. -/
theorem sendsOwn_of_emptyAtReset (as : List SessionAct) (s : Session)
    (hok : Machine.Meets sessionStep (fun s a => emptyAtReset s a) {} as)
    (hrun : Machine.run sessionStep {} as = some s) : s.SendsOwn :=
  (Machine.run_invariant_of_meets (fun _ _ _ hI hok h => SessionInv.step hI hok h)
    sessionInv_init hok hrun).sent

/-- Call `k` takes `n` steps. -/
def steps (k n : Nat) : List SessionAct := List.replicate n (.step k true)

/-- The slot is given out, call `k` sets the provider, and call `k + 1` sends one
byte. -/
def connectAndSend (k : Nat) (byte : UInt8) : List SessionAct :=
  .setAsyncProvider :: steps k 3 ++ .send [byte] :: steps (k + 1) 17

/-- The session is closed and given out again, and both clients get their own
byte. -/
def reuseTrace : List SessionAct :=
  List.replicate 4 .lifecycle ++ connectAndSend 0 1 ++ .postSend :: steps 2 3 ++
    .close :: steps 3 7 ++ .lifecycle :: steps 4 1 ++ List.replicate 7 .lifecycle ++
    connectAndSend 5 3

/-- Each byte was sent in the incarnation it was made in. -/
theorem sendsOwn_reuseTrace :
    ∃ s, Machine.run sessionStep {} reuseTrace = some s ∧
      s.sent = [(1, ⟨1, [1]⟩), (2, ⟨2, [3]⟩)] ∧ s.SendsOwn :=
  ⟨_, rfl, by decide, sendsOwn_of_emptyAtReset reuseTrace _ (by decide +kernel) rfl⟩

/-- While the first byte is on its way, a `Send` of the byte 2 finds the session
connected.  `Close` empties the queue, and only then does the `Send` push. -/
def latePushTrace : List SessionAct :=
  List.replicate 4 .lifecycle ++ connectAndSend 0 1 ++ .send [2] :: steps 2 1 ++
    .close :: steps 3 7 ++ steps 2 6 ++ .lifecycle :: steps 4 1 ++
    List.replicate 7 .lifecycle ++ connectAndSend 5 3

/-- The next client is sent the byte 2 of the first one. -/
theorem latePush_reaches_next_client :
    ∃ s, Machine.run sessionStep {} latePushTrace = some s ∧
      s.sent = [(1, ⟨1, [1]⟩), (2, ⟨1, [2]⟩)] ∧ ¬ s.SendsOwn :=
  ⟨_, rfl, by decide, by decide⟩

end

end NetworkModule.SessionSend
