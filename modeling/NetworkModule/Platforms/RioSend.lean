import NetworkModule.Lib.Machine
import NetworkModule.Lib.Tally

/-!
# Sending with the RIO provider

A session that has a provider (`mAsyncProvider`) gives each packet to
`RIOAsyncIOProvider::SendAsync` at once.  The queue of the session, and `mIsSending`, are not
used on this path.  `GetOrCreateRequestQueue` makes the request queue of the socket for one
outstanding send, because, as its comment says, the engine issues one send at a time.

Nothing makes that true.  RIO keeps to the limit (`Rio`): while a send is outstanding it
refuses the next, and `Session::Send` gives `QueueFull`.  `accepting_iff_meets` says exactly
when no packet of a connected session is refused for this: nothing is outstanding on its queue
whenever `RIOSend` is called.

Any number of threads call `Send` for any number of sessions, and each session has its own
socket.  A request is outstanding from `RIOSend` on until its completion is dequeued.  The
provider is initialized all the time, and receiving is left out.
-/

namespace NetworkModule.RioSend

/-! ## What is there -/

/-- `RIOSend` on a socket that is open, from the size of the request queue and the number of
requests that are outstanding on it. -/
structure Rio where
  accepts : Nat → Nat → Bool
  accepts_iff : ∀ maxOutstandingSend outstanding,
    accepts maxOutstandingSend outstanding = true ↔ outstanding < maxOutstandingSend

def MAX_PACKET_TOTAL_SIZE : Nat := 4096
/-- `mSendPool.SlotSize()`. -/
def slotSize : Nat := 8192
def maxOutstandingSend : Nat := 1

structure Session where
  /-- `mState` is not `Disconnected`. -/
  connected : Bool := false
  /-- `mSocket` is valid, and the socket is open. -/
  mSocket : Bool := false
  mAsyncProvider : Bool := false
  /-- The entry of `mRequestQueues` for the socket, with the limit of the queue. -/
  requestQueue : Option Nat := none
  deriving DecidableEq, Repr

/-- `PendingOperation`. -/
structure PendingOperation where
  mOpId : Nat
  mContext : Nat
  mBufferSize : Nat
  mSendSlotIdx : Nat
  deriving DecidableEq, Repr

inductive SendResult where
  | ok
  | notConnected
  | queueFull
  deriving DecidableEq, Repr

/-- Why a call of `Send` returns what it returns. -/
inductive Cause where
  | posted
  | notConnected
  | tooLarge
  | slotTooSmall
  | noSlot
  | rioSendFailed
  deriving DecidableEq, Repr

def Cause.sendResult : Cause → SendResult
  | .posted => .ok
  | .notConnected => .notConnected
  | .tooLarge | .slotTooSmall | .noSlot | .rioSendFailed => .queueFull

/-- What `SendAsync` assigns to `mLastError`. -/
def Cause.mLastError : Cause → Option String
  | .slotTooSmall => some "Send size exceeds slab slot size"
  | .noSlot => some "Send slot pool exhausted"
  | .rioSendFailed => some "RIOSend failed"
  | .posted | .notConnected | .tooLarge => none

/-- Where a call of `Send` stands. -/
inductive SendPc where
  /-- At the tests of the state and of the size. -/
  | entry
  | loadSocket
  /-- Where `mAsyncProvider` is copied under `mSendMutex`. -/
  | snapshot
  /-- In `SendAsync`, at `GetOrCreateRequestQueue`. -/
  | sendAsync
  /-- At `mSendPool.Acquire()`, with the limit of the request queue. -/
  | acquire (max opKey : Nat)
  /-- At the critical section with `RIOSend`. -/
  | rioSend (max opKey slot : Nat)
  /-- The provider was gone, and the packet goes to the queue of the session. -/
  | iocp
  /-- `connected` is whether the session was connected then. -/
  | returned (cause : Cause) (connected : Bool)
  deriving DecidableEq, Repr

structure SendCall where
  session : Nat
  size : Nat
  pc : SendPc := .entry
  deriving DecidableEq, Repr

structure Provider where
  sessions : Nat → Session := fun _ => {}
  mNextOpId : Nat := 1
  /-- `mFreeIndices` of the pool. -/
  mSendPool : List Nat
  mPendingOps : List PendingOperation := []
  /-- The requests that RIO has, with the session and the key. -/
  outstanding : List (Nat × Nat) := []
  /-- The keys of the completions that a worker has dequeued. -/
  dequeued : List Nat := []
  calls : List SendCall := []

/-- How many requests are outstanding on the queue of the session. -/
def Provider.outstandingOf (s : Provider) (k : Nat) : Nat :=
  s.outstanding.countP fun request => request.1 = k

/-! ## Steps -/

/-- What happens next. -/
inductive Act where
  /-- The socket of a new session is associated, and the session gets the provider. -/
  | associate (k : Nat)
  | send (k size : Nat)
  /-- The call `i` goes on. -/
  | call (i : Nat)
  /-- `Close` of the session goes on. -/
  | close (k : Nat)
  /-- A completion is dequeued. -/
  | dequeue (i : Nat)
  /-- A worker goes through the loop of `ProcessCompletions` for the next one. -/
  | process
  deriving DecidableEq, Repr

def Provider.setSession (s : Provider) (k : Nat) (session : Session) : Provider :=
  { s with sessions := Function.update s.sessions k session }

def Provider.setPc (s : Provider) (i : Nat) (c : SendCall) (pc : SendPc) : Provider :=
  { s with calls := s.calls.set i { c with pc } }

def Provider.returns (s : Provider) (i : Nat) (c : SendCall) (cause : Cause) : Provider :=
  s.setPc i c (.returned cause (s.sessions c.session).connected)

/-- `GetOrCreateRequestQueue`. -/
def Session.getOrCreateRequestQueue (session : Session) : Session × Nat :=
  match session.requestQueue with
  | some max => (session, max)
  | none => ({ session with requestQueue := some maxOutstandingSend }, maxOutstandingSend)

/-- A step of the call `c`, which is the call `i`. -/
def callStep (rio : Rio) (s : Provider) (i : Nat) (c : SendCall) : Option Provider :=
  let session := s.sessions c.session
  match c.pc with
  | .entry =>
      if session.connected = true ∧ 0 < c.size then
        if c.size ≤ MAX_PACKET_TOTAL_SIZE then some (s.setPc i c .loadSocket)
        else some (s.returns i c .tooLarge)
      else some (s.returns i c .notConnected)
  | .loadSocket =>
      if session.mSocket then some (s.setPc i c .snapshot) else some (s.returns i c .notConnected)
  | .snapshot =>
      if session.mAsyncProvider then some (s.setPc i c .sendAsync) else some (s.setPc i c .iocp)
  | .sendAsync =>
      let created := session.getOrCreateRequestQueue
      if c.size ≤ slotSize then
        some { (s.setSession c.session created.1).setPc i c (.acquire created.2 s.mNextOpId) with
               mNextOpId := s.mNextOpId + 1 }
      else some ((s.setSession c.session created.1).returns i c .slotTooSmall)
  | .acquire max opKey =>
      match s.mSendPool.getLast? with
      | some slot =>
          some { s.setPc i c (.rioSend max opKey slot) with mSendPool := s.mSendPool.dropLast }
      | none => some (s.returns i c .noSlot)
  | .rioSend max opKey slot =>
      if session.mSocket && rio.accepts max (s.outstandingOf c.session) then
        some { s.returns i c .posted with
               mPendingOps := s.mPendingOps ++ [⟨opKey, c.session, c.size, slot⟩]
               outstanding := s.outstanding ++ [(c.session, opKey)] }
      else
        -- `mPendingOps` is as it was, and the slot goes back.
        some { s.returns i c .rioSendFailed with mSendPool := s.mSendPool ++ [slot] }
  | .iocp => none
  | .returned _ _ => none

/-- `Close`, up to the end of the critical section. -/
def Session.close (session : Session) : Option Session :=
  if session.connected then some { session with connected := false }
  else if session.mSocket then some { session with mSocket := false }
  else if session.mAsyncProvider then some { session with mAsyncProvider := false }
  else none

/-- One step. -/
def step (rio : Rio) (s : Provider) : Act → Option Provider
  | .associate k =>
      if (s.sessions k).requestQueue = none then
        some (s.setSession k ⟨true, true, true, some maxOutstandingSend⟩)
      else none
  | .send k size => some { s with calls := s.calls ++ [⟨k, size, .entry⟩] }
  | .call i =>
      match s.calls[i]? with
      | some c => callStep rio s i c
      | none => none
  | .close k => (s.sessions k).close.map (s.setSession k)
  | .dequeue i =>
      match s.outstanding[i]? with
      | some request =>
          some { s with
            outstanding := s.outstanding.eraseIdx i
            dequeued := s.dequeued ++ [request.2] }
      | none => none
  | .process =>
      match s.dequeued with
      | [] => none
      | opKey :: dequeued =>
          match s.mPendingOps.find? fun op => op.mOpId = opKey with
          | none => some { s with dequeued }
          | some op =>
              some { s with
                dequeued
                mPendingOps := s.mPendingOps.erase op
                mSendPool := s.mSendPool ++ [op.mSendSlotIdx] }

/-! ## The discipline -/

/-- The packet is valid. -/
def Valid (size : Nat) : Prop := 0 < size ∧ size ≤ MAX_PACKET_TOTAL_SIZE

/-- A valid packet is not refused while the session is connected and there is a slot for it. -/
def SendCall.Accepted (c : SendCall) : Prop :=
  ∀ cause, c.pc = .returned cause true → Valid c.size → cause = .posted ∨ cause = .noSlot

structure Accepting (s : Provider) : Prop where
  one_outstanding : ∀ k, s.outstandingOf k ≤ 1
  accepted : ∀ c ∈ s.calls, c.Accepted

/-- `RIOSend` is called for a connected session when nothing is outstanding on its queue. -/
def Alone (s : Provider) : Act → Prop
  | .call i =>
      match s.calls[i]? with
      | some ⟨k, _, .rioSend _ _ _⟩ =>
          (s.sessions k).connected = true → s.outstandingOf k = 0
      | _ => True
  | _ => True

instance (s : Provider) (a : Act) : Decidable (Alone s a) := by
  unfold Alone
  split
  · split <;> infer_instance
  · infer_instance

/-! ## The invariant of all runs -/

variable {rio : Rio} {s s' : Provider} {i : Nat} {c : SendCall}

/-- What is known where the call stands. -/
def SendCall.Fits (c : SendCall) : Prop :=
  match c.pc with
  | .entry | .iocp | .returned _ _ => True
  | .loadSocket | .snapshot | .sendAsync => Valid c.size
  | .acquire max _ | .rioSend max _ _ => Valid c.size ∧ max = maxOutstandingSend

/-- A connected session has its socket, the request queues have their limit, and RIO keeps to
it. -/
structure Sound (s : Provider) : Prop where
  one : ∀ k, s.outstandingOf k ≤ 1
  socket : ∀ k, (s.sessions k).connected = true → (s.sessions k).mSocket = true
  limit : ∀ k max, (s.sessions k).requestQueue = some max → max = maxOutstandingSend
  fits : ∀ c ∈ s.calls, c.Fits

theorem forall_mem_set {p : SendCall → Prop} {calls : List SendCall} {c' : SendCall}
    (h : ∀ c ∈ calls, p c) (hc' : p c') (i : Nat) : ∀ c ∈ calls.set i c', p c := by
  intro c hc
  rcases List.mem_or_eq_of_mem_set hc with hc | rfl
  · exact h c hc
  · exact hc'

/-- A call goes on, and of its session at most the request queue is new. -/
theorem Sound.move (h : Sound s) (c' : SendCall) (hfits : c'.Fits)
    (hcalls : s'.calls = s.calls.set i c') (hone : ∀ k, s'.outstandingOf k ≤ 1)
    (hsessions : s'.sessions = s.sessions) : Sound s' where
  one := hone
  socket := by
    rw [hsessions]
    exact h.socket
  limit := by
    rw [hsessions]
    exact h.limit
  fits := by
    rw [hcalls]
    exact forall_mem_set h.fits hfits i

/-- A session changes. -/
theorem Sound.setSession (h : Sound s) {k : Nat} {session : Session}
    (hsocket : session.connected = true → session.mSocket = true)
    (hlimit : ∀ max, session.requestQueue = some max → max = maxOutstandingSend) :
    Sound (s.setSession k session) where
  one := h.one
  socket := fun k' hk' => by
    by_cases hk : k' = k
    · subst hk
      simp only [Provider.setSession, Function.update_self] at hk' ⊢
      exact hsocket hk'
    · simp only [Provider.setSession, Function.update_of_ne hk] at hk' ⊢
      exact h.socket k' hk'
  limit := fun k' max hmax => by
    by_cases hk : k' = k
    · subst hk
      simp only [Provider.setSession, Function.update_self] at hmax
      exact hlimit max hmax
    · simp only [Provider.setSession, Function.update_of_ne hk] at hmax
      exact h.limit k' max hmax
  fits := h.fits

theorem Sound.queue (h : Sound s) (k : Nat) :
    (s.sessions k).getOrCreateRequestQueue.2 = maxOutstandingSend ∧
      Sound (s.setSession k (s.sessions k).getOrCreateRequestQueue.1) := by
  unfold Session.getOrCreateRequestQueue
  cases hq : (s.sessions k).requestQueue with
  | some max =>
      refine ⟨h.limit k max hq, h.setSession (h.socket k) fun max' hmax' => ?_⟩
      exact h.limit k max' hmax'
  | none =>
      refine ⟨rfl, h.setSession (h.socket k) fun max' hmax' => ?_⟩
      exact (Option.some.inj hmax').symm

/-- What `RIOSend` accepts is outstanding alone. -/
theorem outstandingOf_post (h : Sound s) {k max : Nat} (opKey : Nat)
    (hmax : max = maxOutstandingSend)
    (hpost : rio.accepts max (s.outstandingOf k) = true) (k' : Nat) :
    (s.outstanding ++ [(k, opKey)]).countP (fun request => request.1 = k') ≤ 1 := by
  have hzero : s.outstandingOf k = 0 := by
    rw [rio.accepts_iff, hmax] at hpost
    exact Nat.lt_one_iff.mp hpost
  rw [Tally.countP_concat]
  by_cases hk : k = k'
  · subst hk
    rw [Provider.outstandingOf] at hzero
    rw [hzero, Nat.zero_add]
    exact Bool.toNat_le _
  · have hone := h.one k'
    rw [Provider.outstandingOf] at hone
    simpa [hk] using hone

theorem Sound.callStep (h : Sound s) (hc : c ∈ s.calls) (hs : callStep rio s i c = some s') :
    Sound s' := by
  have hfits := h.fits c hc
  obtain ⟨k, size, pc⟩ := c
  cases pc with
  | entry =>
      simp only [RioSend.callStep] at hs
      split at hs
      · next hopen =>
          split at hs
          · next hsize =>
              cases hs
              exact h.move ⟨k, size, .loadSocket⟩ ⟨hopen.2, hsize⟩ rfl h.one rfl
          · cases hs
            exact h.move ⟨k, size, .returned _ _⟩ trivial rfl h.one rfl
      · cases hs
        exact h.move ⟨k, size, .returned _ _⟩ trivial rfl h.one rfl
  | loadSocket =>
      simp only [RioSend.callStep] at hs
      split at hs
      · cases hs
        exact h.move ⟨k, size, .snapshot⟩ hfits rfl h.one rfl
      · cases hs
        exact h.move ⟨k, size, .returned _ _⟩ trivial rfl h.one rfl
  | snapshot =>
      simp only [RioSend.callStep] at hs
      split at hs
      · cases hs
        exact h.move ⟨k, size, .sendAsync⟩ hfits rfl h.one rfl
      · cases hs
        exact h.move ⟨k, size, .iocp⟩ trivial rfl h.one rfl
  | sendAsync =>
      obtain ⟨hmax, hqueue⟩ := h.queue k
      simp only [RioSend.callStep] at hs
      split at hs
      · cases hs
        exact hqueue.move ⟨k, size, .acquire _ _⟩ ⟨hfits, hmax⟩ rfl h.one rfl
      · cases hs
        exact hqueue.move ⟨k, size, .returned _ _⟩ trivial rfl h.one rfl
  | acquire max opKey =>
      simp only [RioSend.callStep] at hs
      split at hs
      · cases hs
        exact h.move ⟨k, size, .rioSend _ _ _⟩ hfits rfl h.one rfl
      · cases hs
        exact h.move ⟨k, size, .returned _ _⟩ trivial rfl h.one rfl
  | rioSend max opKey slot =>
      simp only [RioSend.callStep] at hs
      split at hs
      · next hpost =>
          cases hs
          rw [Bool.and_eq_true] at hpost
          have hone := outstandingOf_post h opKey hfits.2 hpost.2
          exact h.move ⟨k, size, .returned _ _⟩ trivial rfl hone rfl
      · cases hs
        exact h.move ⟨k, size, .returned _ _⟩ trivial rfl h.one rfl
  | iocp => cases hs
  | returned cause connected => cases hs

theorem Sound.step {a : Act} (h : Sound s) (hs : step rio s a = some s') : Sound s' := by
  cases a with
  | associate k =>
      simp only [RioSend.step] at hs
      split at hs
      · cases hs
        exact h.setSession (fun _ => rfl) fun max hmax => (Option.some.inj hmax).symm
      · cases hs
  | send k size =>
      cases hs
      refine ⟨h.one, h.socket, h.limit, fun c hc => ?_⟩
      rcases List.mem_append.mp hc with hc | hc
      · exact h.fits c hc
      · rw [List.mem_singleton.mp hc]
        exact trivial
  | call i =>
      simp only [RioSend.step] at hs
      split at hs
      · next c hcall => exact h.callStep (List.mem_of_getElem? hcall) hs
      · cases hs
  | close k =>
      obtain ⟨session, hclose, rfl⟩ := Option.map_eq_some_iff.mp hs
      unfold Session.close at hclose
      split at hclose
      · cases hclose
        exact h.setSession Bool.noConfusion (h.limit k)
      · next hdown =>
          split at hclose
          · cases hclose
            exact h.setSession (fun hup => absurd hup hdown) (h.limit k)
          · split at hclose
            · cases hclose
              exact h.setSession (fun hup => absurd hup hdown) (h.limit k)
            · cases hclose
  | dequeue j =>
      simp only [RioSend.step] at hs
      split at hs
      · next request hrequest =>
          cases hs
          refine ⟨fun k => ?_, h.socket, h.limit, h.fits⟩
          exact (List.Sublist.countP_le (List.eraseIdx_sublist _ _)).trans (h.one k)
      · cases hs
  | process =>
      simp only [RioSend.step] at hs
      split at hs
      · cases hs
      · split at hs
        · cases hs
          exact ⟨h.one, h.socket, h.limit, h.fits⟩
        · cases hs
          exact ⟨h.one, h.socket, h.limit, h.fits⟩

/-! ## What a call returns -/

theorem Valid.le_slotSize {size : Nat} (h : Valid size) : size ≤ slotSize :=
  h.2.trans (by decide)

/-- On a connected session with nothing outstanding RIO accepts a send. -/
theorem Sound.posts (h : Sound s) {k max : Nat} (hmax : max = maxOutstandingSend)
    (hup : (s.sessions k).connected = true) (hzero : s.outstandingOf k = 0) :
    ((s.sessions k).mSocket && rio.accepts max (s.outstandingOf k)) = true := by
  rw [Bool.and_eq_true, rio.accepts_iff, hzero, hmax]
  exact ⟨h.socket k hup, Nat.one_pos⟩

/-- A step of a call that finds nothing outstanding, and then a valid packet is not refused. -/
theorem Sound.accepted_callStep (h : Sound s) (hc : c ∈ s.calls)
    (halone : ∀ max opKey slot, c.pc = .rioSend max opKey slot →
      (s.sessions c.session).connected = true → s.outstandingOf c.session = 0)
    (hs : RioSend.callStep rio s i c = some s') :
    ∃ c', s'.calls = s.calls.set i c' ∧ c'.Accepted := by
  have hfits := h.fits c hc
  obtain ⟨k, size, pc⟩ := c
  cases pc with
  | entry =>
      simp only [RioSend.callStep] at hs
      split at hs
      · split at hs
        · cases hs
          exact ⟨_, rfl, fun cause hpc => by cases hpc⟩
        · next hsize =>
            cases hs
            exact ⟨_, rfl, fun cause _ hvalid => absurd hvalid.2 hsize⟩
      · next hclosed =>
          cases hs
          refine ⟨_, rfl, fun cause hpc hvalid => ?_⟩
          obtain ⟨-, hup⟩ := SendPc.returned.inj hpc
          exact absurd ⟨hup, hvalid.1⟩ hclosed
  | loadSocket =>
      simp only [RioSend.callStep] at hs
      split at hs
      · cases hs
        exact ⟨_, rfl, fun cause hpc => by cases hpc⟩
      · next hsocket =>
          cases hs
          refine ⟨_, rfl, fun cause hpc _ => ?_⟩
          obtain ⟨-, hup⟩ := SendPc.returned.inj hpc
          exact absurd (h.socket k hup) hsocket
  | snapshot =>
      simp only [RioSend.callStep] at hs
      split at hs <;>
        · cases hs
          exact ⟨_, rfl, fun cause hpc => by cases hpc⟩
  | sendAsync =>
      simp only [RioSend.callStep] at hs
      split at hs
      · cases hs
        exact ⟨_, rfl, fun cause hpc => by cases hpc⟩
      · next hsize =>
          cases hs
          exact ⟨_, rfl, fun cause _ hvalid => absurd hvalid.le_slotSize hsize⟩
  | acquire max opKey =>
      simp only [RioSend.callStep] at hs
      split at hs
      · cases hs
        exact ⟨_, rfl, fun cause hpc => by cases hpc⟩
      · cases hs
        exact ⟨_, rfl, fun cause hpc _ => .inr (SendPc.returned.inj hpc).1.symm⟩
  | rioSend max opKey slot =>
      simp only [RioSend.callStep] at hs
      split at hs
      · cases hs
        exact ⟨_, rfl, fun cause hpc _ => .inl (SendPc.returned.inj hpc).1.symm⟩
      · next hrefused =>
          cases hs
          refine ⟨_, rfl, fun cause hpc _ => ?_⟩
          obtain ⟨-, hup⟩ := SendPc.returned.inj hpc
          exact absurd (h.posts hfits.2 hup (halone max opKey slot rfl hup)) hrefused
  | iocp => cases hs
  | returned cause connected => cases hs

/-- A step that finds nothing outstanding where it calls `RIOSend` refuses no valid packet. -/
theorem Accepting.step {a : Act} (hsound : Sound s) (h : Accepting s) (hok : Alone s a)
    (hs : step rio s a = some s') : Accepting s' := by
  refine ⟨(hsound.step hs).one, ?_⟩
  cases a with
  | associate k =>
      simp only [RioSend.step] at hs
      split at hs
      · cases hs
        exact h.accepted
      · cases hs
  | send k size =>
      cases hs
      intro c hc
      rcases List.mem_append.mp hc with hc | hc
      · exact h.accepted c hc
      · rw [List.mem_singleton.mp hc]
        exact fun cause hpc => by cases hpc
  | call i =>
      simp only [RioSend.step] at hs
      split at hs
      · next c hcall =>
          have halone : ∀ max opKey slot, c.pc = .rioSend max opKey slot →
              (s.sessions c.session).connected = true → s.outstandingOf c.session = 0 := by
            obtain ⟨k, size, pc⟩ := c
            rintro max opKey slot rfl
            simpa [Alone, hcall] using hok
          obtain ⟨c', hcalls, haccepted⟩ :=
            hsound.accepted_callStep (List.mem_of_getElem? hcall) halone hs
          rw [hcalls]
          exact forall_mem_set h.accepted haccepted i
      · cases hs
  | close k =>
      obtain ⟨session, -, rfl⟩ := Option.map_eq_some_iff.mp hs
      exact h.accepted
  | dequeue j =>
      simp only [RioSend.step] at hs
      split at hs
      · cases hs
        exact h.accepted
      · cases hs
  | process =>
      simp only [RioSend.step] at hs
      split at hs
      · cases hs
      · split at hs <;>
          · cases hs
            exact h.accepted

/-- A step that calls `RIOSend` while a send is outstanding refuses the packet. -/
theorem not_accepting_of_not_alone {a : Act} (hsound : Sound s) (hbad : ¬ Alone s a)
    (hs : step rio s a = some s') : ¬ Accepting s' := by
  intro h
  cases a with
  | call i =>
      simp only [RioSend.step] at hs
      split at hs
      · next c hcall =>
          obtain ⟨k, size, pc⟩ := c
          cases pc with
          | rioSend max opKey slot =>
              have hmem := List.mem_of_getElem? hcall
              obtain ⟨hvalid, hmax⟩ := hsound.fits _ hmem
              simp only [Alone, hcall, Classical.not_imp] at hbad
              obtain ⟨hup, hbusy⟩ := hbad
              have hrefused : ¬ rio.accepts max (s.outstandingOf k) = true := by
                rw [rio.accepts_iff, hmax]
                exact fun hlt => hbusy (Nat.lt_one_iff.mp hlt)
              simp only [RioSend.callStep, hrefused, Bool.and_false, Bool.false_eq_true,
                if_false] at hs
              cases hs
              have hlt := (List.getElem?_eq_some_iff.mp hcall).1
              have hnew := h.accepted _ (List.mem_set hlt _)
              rcases hnew .rioSendFailed (by rw [hup]) hvalid with hcause | hcause <;> cases hcause
          | entry | loadSocket | snapshot | sendAsync | acquire | iocp | returned =>
              simp [Alone, hcall] at hbad
      · cases hs
  | associate k | send k size | close k | dequeue j | process => exact hbad trivial

/-! ## All runs -/

theorem sound_start (mSendPool : List Nat) : Sound { mSendPool } where
  one := fun _ => Nat.zero_le _
  socket := fun _ hup => by cases hup
  limit := fun _ _ hmax => by cases hmax
  fits := fun c hc => by cases hc

/-- Throughout a run there is at most one send outstanding for each session and no valid packet
of a connected session is refused, exactly when nothing is outstanding whenever `RIOSend` is
called. -/
theorem accepting_iff_meets {mSendPool : List Nat} {as : List Act}
    (hrun : Machine.run (step rio) { mSendPool } as = some s) :
    Machine.Always (step rio) Accepting { mSendPool } as ↔
      Machine.Meets (step rio) Alone { mSendPool } as :=
  Machine.always_iff_meets (fun _ _ _ h hs => h.step hs)
    (fun _ _ _ hsound h hok hs => h.step hsound hok hs)
    (fun _ _ _ hsound hbad hs => not_accepting_of_not_alone hsound hbad hs)
    (sound_start mSendPool) ⟨fun _ => Nat.zero_le _, fun c hc => by cases hc⟩ hrun

/-- RIO as documented. -/
def Rio.documented : Rio where
  accepts := fun maxOutstandingSend outstanding => decide (outstanding < maxOutstandingSend)
  accepts_iff := fun _ _ => decide_eq_true_iff

/-- The second packet is sent after the completion of the first. -/
theorem accepting_iff_meets_sequence :
    ∃ s, Machine.run (step Rio.documented) { mSendPool := [0, 1] }
        (([.associate 0, .send 0 10] : List Act) ++ List.replicate 6 (Act.call 0) ++
          ([.dequeue 0, .process, .send 0 10] : List Act) ++ List.replicate 6 (Act.call 1)) = some s ∧
      Machine.Always (step Rio.documented) Accepting { mSendPool := [0, 1] }
        (([.associate 0, .send 0 10] : List Act) ++ List.replicate 6 (Act.call 0) ++
          ([.dequeue 0, .process, .send 0 10] : List Act) ++ List.replicate 6 (Act.call 1)) :=
  ⟨_, rfl, (accepting_iff_meets rfl).mpr (by decide +kernel)⟩

/-- The second packet is sent before the completion of the first, and refused. -/
theorem not_accepting_two_sends :
    ∃ s, Machine.run (step Rio.documented) { mSendPool := [0, 1] }
        (([.associate 0, .send 0 10] : List Act) ++ List.replicate 6 (Act.call 0) ++
          ([.send 0 10] : List Act) ++ List.replicate 6 (Act.call 1)) = some s ∧ ¬ Accepting s := by
  refine ⟨_, rfl, fun h => ?_⟩
  have hsecond := h.accepted ⟨0, 10, .returned .rioSendFailed true⟩ (by decide +kernel)
  rcases hsecond .rioSendFailed rfl ⟨by decide, by decide⟩ with hcause | hcause <;> cases hcause

end NetworkModule.RioSend
