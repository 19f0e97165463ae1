import NetworkModule.Lib.Machine
import NetworkModule.Lib.Tally
import NetworkModule.Network.SessionSend
import NetworkModule.Types
import Mathlib

/-!
# The slots of `SendBufferPool`

The send path of `Network/Core/Session.cpp` on Windows without RIO, over the
pool of `SendBufferPool.cpp` that all sessions share.  A slot goes from the free
list to the local of `Send`, to `mSendQueue`, to the local `req` of `PostSend`,
to `mCurrentSendSlotIdx`, and back to the free list.

Threads make calls on the sessions, any number of them.  An access to an atomic or to
`mCurrentSendSlotIdx` is one step, and so is a section of `mSendMutex` or of the
pool's mutex, except where the pool is used under `mSendMutex`: there the session
keeps its mutex over several steps.  A handle that `closesocket` has closed is not
given out again, so `WSASend` fails on it.

`mSendMutex` does not protect `mCurrentSendSlotIdx`.  A call that tests it while
another call is about to give the same slot back gives the slot back a second time.
And a `Send` that had passed its tests before `Close` may push a slot after `Close`
has emptied `mSendQueue`.  `conserved_of_meets` says that these are the only two ways in
which slots are doubled or lost.

The argument is a count.  A slot is on the free list or is held, by the queue, by
`mCurrentSendSlotIdx` or by a call, and one that was just given back is *stale* until
`mCurrentSendSlotIdx` is cleared.
-/

namespace NetworkModule.SendSlots

open SessionSend (sendQueueBackpressureThreshold maxPacketTotalSize)

/-! ## The pool -/

/-- `SendBufferPool` between `Initialize` and `Shutdown`.  The last element of `mFreeSlots`
is the top of the stack.  `acquired` and `released` list what `Acquire` has given out and
what `Release` has taken back. -/
structure SendBufferPool where
  mPoolSize : Nat
  mFreeSlots : List Nat
  acquired : List Nat := []
  released : List Nat := []
  deriving DecidableEq, Repr

/-- `SendBufferPool::Initialize`. -/
def SendBufferPool.initial (poolSize : Nat) : SendBufferPool where
  mPoolSize := poolSize
  mFreeSlots := List.range poolSize

/-- `SendBufferPool::Acquire`. -/
def SendBufferPool.acquire (p : SendBufferPool) : Option (Nat × SendBufferPool) :=
  match p.mFreeSlots.getLast? with
  | none => none
  | some idx =>
      some (idx, { p with mFreeSlots := p.mFreeSlots.dropLast, acquired := p.acquired ++ [idx] })

/-- `SendBufferPool::Release`, which ignores an index out of range. -/
def SendBufferPool.release (p : SendBufferPool) (slotIdx : Nat) : SendBufferPool :=
  if slotIdx < p.mPoolSize then
    { p with mFreeSlots := p.mFreeSlots ++ [slotIdx], released := p.released ++ [slotIdx] }
  else p

/-! ## The session -/

/-- `SendRequest`. -/
structure SendRequest where
  slotIdx : Nat
  size : UInt32
  deriving DecidableEq, Repr

/-- The four places that give `mCurrentSendSlotIdx` back, by what they do next. -/
inductive After where
  /-- `PostSend` has found `mSendQueueSize` at 0. -/
  | idle
  /-- `PostSend` has found `mSendQueue` empty, under the mutex. -/
  | empty
  /-- `PostSend` has taken `req` from the queue. -/
  | commit (req : SendRequest)
  /-- `Close`. -/
  | close
  deriving DecidableEq, Repr

/-- Where a call stands. -/
inductive Pc where
  /-- `Send` tests `IsConnected` and its arguments. -/
  | sendArgs (data : Bool) (size : UInt32)
  /-- `Send` loads `mSocket`. -/
  | sendSocket (size : UInt32)
  /-- `Send` copies `mAsyncProvider`, which is null, under the mutex. -/
  | sendProvider (size : UInt32)
  /-- `Send` loads `mSendQueueSize` for the back-pressure test. -/
  | sendPressure (size : UInt32)
  /-- `SendBufferPool::Acquire`. -/
  | acquire (size : UInt32)
  /-- `mSendQueue.push` and `mSendQueueSize.fetch_add`, under the mutex. -/
  | push (req : SendRequest)
  /-- `FlushSendQueue`: the compare-and-swap on `mIsSending`. -/
  | flush
  /-- `PostSend` loads `mSendQueueSize`. -/
  | postLoad
  /-- Testing `mCurrentSendSlotIdx`. -/
  | test (k : After)
  /-- Reading `mCurrentSendSlotIdx` again and releasing that slot. -/
  | release (k : After)
  /-- The slot `x` was released.  Clearing `mCurrentSendSlotIdx`. -/
  | clear (x : Option Nat) (k : After)
  /-- `mIsSending.store(false)`. -/
  | idleStore
  /-- Loading `mSendQueueSize` again. -/
  | idleRecheck
  /-- `PostSend` takes the mutex, and pops the queue if it is not empty. -/
  | postPop
  /-- `mIsSending.store(false)` and the end of the section. -/
  | emptyStore
  /-- `PostSend` loads `mSocket`. -/
  | postSocket (req : SendRequest)
  /-- There is no socket.  Releasing the slot of `req`. -/
  | dropRelease (req : SendRequest)
  /-- `mIsSending.store(false)`. -/
  | dropStore
  /-- Storing `mCurrentSendSlotIdx`. -/
  | setCurrent (req : SendRequest)
  /-- `WSASend`. -/
  | wsaSend (req : SendRequest)
  /-- `WSASend` failed.  Releasing the slot of `req`. -/
  | failRelease (req : SendRequest)
  /-- Clearing `mCurrentSendSlotIdx`. -/
  | failClear (req : SendRequest)
  /-- `mIsSending.store(false)`. -/
  | failStore
  /-- `Close` exchanges `mState`. -/
  | closeState
  /-- `Close` exchanges `mSocket`. -/
  | closeSocket
  /-- `closesocket`. -/
  | closeHandle
  /-- `Close` takes the mutex and resets `mAsyncProvider`. -/
  | drainLock
  /-- The loop that releases the slots of `mSendQueue`.  At its end `mSendQueueSize` is stored. -/
  | drain
  /-- The call has returned. -/
  | returned
  deriving DecidableEq, Repr

/-- What follows once `mCurrentSendSlotIdx` is seen to. -/
def After.next : After → Pc
  | .idle => .idleStore
  | .empty => .emptyStore
  | .commit req => .postSocket req
  | .close => .drainLock

/-- A session, and the calls made on it. -/
structure Session where
  mState : SessionState := .none
  /-- Whether `mSocket` is a valid handle. -/
  mSocket : Bool := false
  /-- Whether the handle that `Initialize` was given is open. -/
  handleOpen : Bool := false
  mSendQueue : List SendRequest := []
  mSendQueueSize : UInt64 := 0
  mIsSending : Bool := false
  /-- Whether `mSendMutex` is held. -/
  mSendMutex : Bool := false
  mCurrentSendSlotIdx : Option Nat := none
  /-- Whether a `WSASend` is under way. -/
  pending : Bool := false
  calls : List Pc := []
  deriving DecidableEq, Repr

/-- Move call `i`. -/
@[simp] def Session.move (s : Session) (i : Nat) (pc : Pc) : Session :=
  { s with calls := s.calls.set i pc }

/-- A new call. -/
def Session.call (s : Session) (pc : Pc) : Session := { s with calls := s.calls ++ [pc] }

/-- No call is in progress. -/
def Session.Quiet (s : Session) : Prop := ∀ pc ∈ s.calls, pc = .returned

instance (s : Session) : Decidable s.Quiet := inferInstanceAs (Decidable (∀ pc ∈ s.calls, _))

/-! ## Steps -/

/-- One step of call `i`, which stands at `pc`.  `ok` is the answer of `WSASend`. -/
def callStep (p : SendBufferPool) (s : Session) (i : Nat) (ok : Bool) :
    Pc → Option (SendBufferPool × Session)
  | .sendArgs data size =>
      if s.mState ≠ .connected ∨ data = false ∨ size = 0 ∨ maxPacketTotalSize < size.toNat then
        some (p, s.move i .returned)
      else some (p, s.move i (.sendSocket size))
  | .sendSocket size =>
      if s.mSocket then some (p, s.move i (.sendProvider size)) else some (p, s.move i .returned)
  | .sendProvider size =>
      if s.mSendMutex then none else some (p, s.move i (.sendPressure size))
  | .sendPressure size =>
      if sendQueueBackpressureThreshold ≤ s.mSendQueueSize then some (p, s.move i .returned)
      else some (p, s.move i (.acquire size))
  | .acquire size =>
      match p.acquire with
      | none => some (p, s.move i .returned)
      | some (idx, p') => some (p', s.move i (.push ⟨idx, size⟩))
  | .push req =>
      if s.mSendMutex then none
      else some (p, { s with mSendQueue := s.mSendQueue ++ [req],
                             mSendQueueSize := s.mSendQueueSize + 1 }.move i .flush)
  | .flush =>
      if s.mIsSending then some (p, s.move i .returned)
      else some (p, { s with mIsSending := true }.move i .postLoad)
  | .postLoad => some (p, s.move i (if s.mSendQueueSize = 0 then .test .idle else .postPop))
  | .test k =>
      match s.mCurrentSendSlotIdx with
      | none => some (p, s.move i k.next)
      | some _ => some (p, s.move i (.release k))
  | .release k =>
      match s.mCurrentSendSlotIdx with
      | none => some (p, s.move i (.clear none k))
      | some x => some (p.release x, s.move i (.clear (some x) k))
  | .clear _ k => some (p, { s with mCurrentSendSlotIdx := none }.move i k.next)
  | .idleStore => some (p, { s with mIsSending := false }.move i .idleRecheck)
  | .idleRecheck => some (p, s.move i (if 0 < s.mSendQueueSize then .flush else .returned))
  | .postPop =>
      if s.mSendMutex then none
      else
        match s.mSendQueue with
        | [] => some (p, { s with mSendMutex := true }.move i (.test .empty))
        | req :: rest =>
            some (p, { s with mSendQueue := rest,
                              mSendQueueSize := s.mSendQueueSize - 1 }.move i (.test (.commit req)))
  | .emptyStore =>
      some (p, { s with mIsSending := false, mSendMutex := false }.move i .returned)
  | .postSocket req =>
      if s.mSocket then some (p, s.move i (.setCurrent req))
      else some (p, s.move i (.dropRelease req))
  | .dropRelease req => some (p.release req.slotIdx, s.move i .dropStore)
  | .dropStore => some (p, { s with mIsSending := false }.move i .returned)
  | .setCurrent req =>
      some (p, { s with mCurrentSendSlotIdx := some req.slotIdx }.move i (.wsaSend req))
  | .wsaSend req =>
      if ok = true ∧ s.handleOpen = true then some (p, { s with pending := true }.move i .returned)
      else some (p, s.move i (.failRelease req))
  | .failRelease req => some (p.release req.slotIdx, s.move i (.failClear req))
  | .failClear _ => some (p, { s with mCurrentSendSlotIdx := none }.move i .failStore)
  | .failStore => some (p, { s with mIsSending := false }.move i .closeState)
  | .closeState =>
      if s.mState = .disconnected then some (p, s.move i .returned)
      else some (p, { s with mState := .disconnected }.move i .closeSocket)
  | .closeSocket =>
      if s.mSocket then some (p, { s with mSocket := false }.move i .closeHandle)
      else some (p, s.move i (.test .close))
  | .closeHandle => some (p, { s with handleOpen := false }.move i (.test .close))
  | .drainLock =>
      if s.mSendMutex then none else some (p, { s with mSendMutex := true }.move i .drain)
  | .drain =>
      match s.mSendQueue with
      | [] => some (p, { s with mSendQueueSize := 0, mSendMutex := false }.move i .returned)
      | req :: rest => some (p.release req.slotIdx, { s with mSendQueue := rest })
  | .returned => none

/-- What happens on a session. -/
inductive Act where
  /-- `Initialize` on a session that was taken from `SessionPool`. -/
  | init
  /-- The deleter of the last reference, after its `Close`, calls `Reset`. -/
  | reset
  /-- A thread calls `Send`.  `data` says whether its pointer is not null. -/
  | send (data : Bool) (size : UInt32)
  /-- A thread calls `Close`. -/
  | close
  /-- A send completion is found: `ProcessSendCompletion` calls `PostSend`. -/
  | completed
  /-- A completion with an error: the session is removed, which calls `Close`. -/
  | failed
  /-- A completion of a session that `SessionManager` no longer has is dropped. -/
  | dropped
  /-- Call `i` takes its next step. -/
  | call (i : Nat) (ok : Bool)
  deriving DecidableEq, Repr

/-- One step on a session, and what it does to the pool. -/
def sessionStep (p : SendBufferPool) (s : Session) : Act → Option (SendBufferPool × Session)
  | .init =>
      if s.mState = .none ∧ s.Quiet then
        some (p, { s with mState := .connected, mSocket := true, handleOpen := true,
                          mIsSending := false, mSendQueueSize := 0, mCurrentSendSlotIdx := none })
      else none
  | .reset =>
      if s.mState = .disconnected ∧ s.Quiet then
        some (p, { s with mState := .none, mIsSending := false, mSendQueueSize := 0,
                          mCurrentSendSlotIdx := none, pending := false })
      else none
  | .send data size => some (p, s.call (.sendArgs data size))
  | .close => some (p, s.call .closeState)
  | .completed => if s.pending then some (p, { s with pending := false }.call .postLoad) else none
  | .failed => if s.pending then some (p, { s with pending := false }.call .closeState) else none
  | .dropped => if s.pending then some (p, { s with pending := false }) else none
  | .call i ok =>
      match s.calls[i]? with
      | none => none
      | some pc => callStep p s i ok pc

/-- The pool and the sessions that use it. -/
structure Sessions where
  pool : SendBufferPool
  sessions : List Session
  deriving DecidableEq, Repr

/-- A pool just initialized, and `capacity` sessions of which none has been used. -/
def Sessions.initial (poolSize capacity : Nat) : Sessions where
  pool := .initial poolSize
  sessions := List.replicate capacity {}

/-- One step: something happens on session `k`. -/
def step (t : Sessions) : Nat × Act → Option Sessions
  | (k, a) =>
      match t.sessions[k]? with
      | none => none
      | some s =>
          match sessionStep t.pool s a with
          | none => none
          | some (p', s') => some ⟨p', t.sessions.set k s'⟩

/-! ## Conservation -/

/-- All sessions are closed, and nobody is sending. -/
def Sessions.AllClosed (t : Sessions) : Prop := ∀ s ∈ t.sessions, s.mState ≠ .connected ∧ s.Quiet

instance (t : Sessions) : Decidable t.AllClosed :=
  inferInstanceAs (Decidable (∀ s ∈ t.sessions, _))

/-- The free list has no slot twice.  A slot was taken back as often as it was given
out, or once less.  When all sessions are closed every slot was taken back and is free. -/
structure Sessions.Conserved (t : Sessions) : Prop where
  nodup : t.pool.mFreeSlots.Nodup
  released : ∀ x, t.pool.released.count x ≤ t.pool.acquired.count x ∧
    t.pool.acquired.count x ≤ t.pool.released.count x + 1
  closed : t.AllClosed → t.pool.mFreeSlots.Perm (List.range t.pool.mPoolSize) ∧
    ∀ x, t.pool.released.count x = t.pool.acquired.count x

/-! ## The condition -/

/-- The call is about to give the slot of `mCurrentSendSlotIdx` back, or has just done so, or
will do so if `WSASend` fails. -/
@[simp] def Pc.hot : Pc → Bool
  | .release _ | .clear _ _ | .wsaSend _ | .failRelease _ | .failClear _ => true
  | _ => false

/-- The call is a `Close` that has yet to empty `mSendQueue`. -/
@[simp] def Pc.closing : Pc → Bool
  | .closeSocket | .closeHandle | .drainLock | .drain => true
  | .test k | .release k | .clear _ k => k = .close
  | _ => false

/-- A call tests a `mCurrentSendSlotIdx` that is set only while no other call is about to give its
slot back, and no slot is pushed once `Close` has emptied the queue. -/
def Session.Orderly (s : Session) : Pc → Prop
  | .test _ => s.mCurrentSendSlotIdx = none ∨ s.calls.countP Pc.hot = 0
  | .push _ => s.mState = .connected ∨ 0 < s.calls.countP Pc.closing
  | _ => True

instance (s : Session) : ∀ pc, Decidable (s.Orderly pc)
  | .test _ => inferInstanceAs (Decidable (_ ∨ _))
  | .push _ => inferInstanceAs (Decidable (_ ∨ _))
  | .sendArgs .. | .sendSocket _ | .sendProvider _ | .sendPressure _ | .acquire _ | .flush
  | .postLoad | .release _ | .clear .. | .idleStore | .idleRecheck | .postPop | .emptyStore
  | .postSocket _ | .dropRelease _ | .dropStore | .setCurrent _ | .wsaSend _ | .failRelease _
  | .failClear _ | .failStore | .closeState | .closeSocket | .closeHandle | .drainLock | .drain
  | .returned => isTrue trivial

/-- The step, if it is one of a call, is orderly on its session. -/
def Orderly (t : Sessions) : Nat × Act → Prop
  | (k, .call i _) => ∀ s ∈ t.sessions[k]?, ∀ pc ∈ s.calls[i]?, s.Orderly pc
  | _ => True

instance (t : Sessions) : ∀ a, Decidable (Orderly t a)
  | (_, .call ..) => inferInstanceAs (Decidable (∀ s ∈ _, ∀ pc ∈ _, Session.Orderly s pc))
  | (_, .init) | (_, .reset) | (_, .send ..) | (_, .close) | (_, .completed) | (_, .failed)
  | (_, .dropped) => isTrue trivial

/-! ## What is known of a session -/

/-- The call has set `mIsSending` and has yet to clear it. -/
@[simp] def Pc.sending : Pc → Bool
  | .postLoad | .idleStore | .postPop | .emptyStore | .postSocket _ | .dropRelease _ | .dropStore
  | .setCurrent _ | .wsaSend _ | .failRelease _ | .failClear _ | .failStore => true
  | .test k | .release k | .clear _ k => k ≠ .close
  | _ => false

/-- The call is a `Close` that has yet to test `mCurrentSendSlotIdx`. -/
@[simp] def Pc.early : Pc → Bool
  | .closeSocket | .closeHandle => true
  | .test k => k = .close
  | _ => false

/-- The call exchanges `mSocket`. -/
@[simp] def Pc.atSocket : Pc → Bool
  | .closeSocket => true
  | _ => false

/-- The call closes the handle. -/
@[simp] def Pc.atHandle : Pc → Bool
  | .closeHandle => true
  | _ => false

/-- The call may stand here while `mCurrentSendSlotIdx` is `cur`. -/
def Pc.Fits (cur : Option Nat) : Pc → Prop
  | .release _ => cur ≠ none
  | .clear x _ => cur ≠ none ∧ x = cur
  | .idleStore | .emptyStore | .postSocket _ | .dropRelease _ | .setCurrent _ => cur = none
  | .wsaSend req | .failRelease req | .failClear req => cur = some req.slotIdx
  | _ => True

/-- One if the session is connected. -/
@[simp] def Session.connected (s : Session) : Nat := (decide (s.mState = .connected)).toNat

/-- One if the session is disconnected. -/
@[simp] def Session.disconnected (s : Session) : Nat := (decide (s.mState = .disconnected)).toNat

/-- What the numbers of calls at the places above say about the fields. -/
@[mk_iff]
structure Session.Counted (s : Session) (hot sending closing early atSocket atHandle : Nat) :
    Prop where
  hot_le : hot ≤ 1
  sending_le : sending + s.pending.toNat ≤ s.mIsSending.toNat
  closing_le : closing ≤ s.disconnected
  handle_le : s.handleOpen.toNat ≤ s.mSocket.toNat + atHandle
  socket_le : s.mSocket.toNat ≤ s.connected + atSocket
  current_le : s.mCurrentSendSlotIdx.isSome.toNat ≤ s.connected + early + hot
  queue_le : (!s.mSendQueue.isEmpty).toNat ≤ s.connected + closing
  pending_le : s.pending.toNat ≤ s.connected + s.disconnected

/-- The invariant of a session. -/
structure Session.Ok (s : Session) : Prop where
  counted : s.Counted (s.calls.countP Pc.hot) (s.calls.countP Pc.sending)
    (s.calls.countP Pc.closing) (s.calls.countP Pc.early) (s.calls.countP Pc.atSocket)
    (s.calls.countP Pc.atHandle)
  fits : ∀ pc ∈ s.calls, pc.Fits s.mCurrentSendSlotIdx

/-- How the fields may change when a call goes from `pc` to `pc'`.  The numbers are those of the
other calls: of these, one that closes the handle has yet to test `mCurrentSendSlotIdx`, and one that
has yet to test it has yet to empty the queue. -/
def Keeps (s s' : Session) (pc pc' : Pc) : Prop :=
  ∀ hot sending closing early atSocket atHandle,
    s.calls.countP Pc.hot = hot + pc.hot.toNat →
    s.calls.countP Pc.closing = closing + pc.closing.toNat →
    atSocket + atHandle ≤ early → early ≤ closing →
    s.Counted (hot + pc.hot.toNat) (sending + pc.sending.toNat) (closing + pc.closing.toNat)
      (early + pc.early.toNat) (atSocket + pc.atSocket.toNat)
      (atHandle + pc.atHandle.toNat) →
    s'.Counted (hot + pc'.hot.toNat) (sending + pc'.sending.toNat) (closing + pc'.closing.toNat)
      (early + pc'.early.toNat) (atSocket + pc'.atSocket.toNat)
      (atHandle + pc'.atHandle.toNat)

section
variable {s s' : Session} {i : Nat} {pc pc' : Pc}

/-- A call that closes the handle has yet to test `mCurrentSendSlotIdx`. -/
theorem opening_le_early (calls : List Pc) :
    calls.countP Pc.atSocket + calls.countP Pc.atHandle ≤ calls.countP Pc.early := by
  refine Tally.countP_add_le (fun pc => ?_) calls
  cases pc <;> simp

/-- A call that has yet to test `mCurrentSendSlotIdx` has yet to empty the queue. -/
theorem early_le_closing (calls : List Pc) :
    calls.countP Pc.early ≤ calls.countP Pc.closing := by
  refine List.countP_mono_left fun pc _ hearly => ?_
  cases pc <;> simp_all

/-- Where the call goes once `mCurrentSendSlotIdx` is seen to. -/
theorem After.next_places (k : After) : k.next.hot = false ∧
    k.next.sending = (Pc.test k).sending ∧ k.next.closing = (Pc.test k).closing ∧
    k.next.early = false ∧ k.next.atSocket = false ∧ k.next.atHandle = false := by
  cases k <;> exact ⟨rfl, rfl, rfl, rfl, rfl, rfl⟩

/-- A call moves, and the session keeps its invariant. -/
theorem Session.Ok.set (h : s.Ok) (hi : s.calls[i]? = some pc)
    (hcalls : s'.calls = s.calls.set i pc') (hkeeps : Keeps s s' pc pc')
    (hfits : ∀ q ∈ s'.calls, q.Fits s'.mCurrentSendSlotIdx) : s'.Ok := by
  obtain ⟨hlt, -⟩ := List.getElem?_eq_some_iff.mp hi
  have hi' : (s.calls.set i pc')[i]? = some pc' := List.getElem?_set_self hlt
  have herase : (s.calls.set i pc').eraseIdx i = s.calls.eraseIdx i := List.eraseIdx_set_eq
  have hcounted := h.counted
  refine ⟨?_, hfits⟩
  rw [hcalls]
  simp only [Tally.countP_eraseIdx _ hi] at hcounted
  simp only [Tally.countP_eraseIdx _ hi', herase]
  exact hkeeps _ _ _ _ _ _ (Tally.countP_eraseIdx _ hi) (Tally.countP_eraseIdx _ hi)
    (opening_le_early _) (early_le_closing _) hcounted

/-- The others fit if `mCurrentSendSlotIdx` is the same. -/
theorem Session.Ok.fits_set (h : s.Ok) (hfits : pc'.Fits s.mCurrentSendSlotIdx) :
    ∀ q ∈ s.calls.set i pc', q.Fits s.mCurrentSendSlotIdx := fun q hq => by
  rcases List.mem_or_eq_of_mem_set hq with hq | rfl
  · exact h.fits q hq
  · exact hfits

/-- A call that is not hot may stand where it is when `mCurrentSendSlotIdx` is clear. -/
theorem Pc.fits_none (hcold : pc.hot = false) : pc.Fits none := by
  cases pc with
  | release _ | clear _ _ | wsaSend _ | failRelease _ | failClear _ => cases hcold
  | idleStore | emptyStore | postSocket _ | dropRelease _ | setCurrent _ => rfl
  | _ => exact trivial

/-- A call that is neither hot nor sending may stand where it is. -/
theorem Pc.fits_of_cold (hcold : pc.hot = false) (hsending : pc.sending = false)
    (cur : Option Nat) : pc.Fits cur := by
  cases pc with
  | release _ | clear _ _ | wsaSend _ | failRelease _ | failClear _ => cases hcold
  | idleStore | emptyStore | postSocket _ | dropRelease _ | setCurrent _ => cases hsending
  | _ => exact trivial

/-- A hot call stands where `mCurrentSendSlotIdx` is set. -/
theorem Pc.Fits.ne_none {cur : Option Nat} (h : pc.Fits cur) (hhot : pc.hot = true) :
    cur ≠ none := by
  cases pc with
  | release _ => exact h
  | clear _ _ => exact h.1
  | wsaSend _ | failRelease _ | failClear _ => simp [show cur = some _ from h]
  | _ => cases hhot

/-- The only hot call clears `mCurrentSendSlotIdx`. -/
theorem Session.Ok.fits_clear (h : s.Ok) (hi : s.calls[i]? = some pc) (hhot : pc.hot = true)
    (hfits : pc'.Fits none) : ∀ q ∈ s.calls.set i pc', q.Fits none := fun q hq => by
  have hle := Tally.toNat_le_countP Pc.hot hi
  rw [hhot, Bool.toNat_true] at hle
  have hone : s.calls.countP Pc.hot = 1 := Nat.le_antisymm h.counted.hot_le hle
  rcases Tally.eq_or_not_of_mem_set Pc.hot hone hi hhot hq with rfl | ⟨-, hcold⟩
  · exact hfits
  · exact Pc.fits_none hcold

/-- The only sending call sets `mCurrentSendSlotIdx`, which is clear. -/
theorem Session.Ok.fits_assign (h : s.Ok) (hi : s.calls[i]? = some pc) (hsending : pc.sending = true)
    (hclear : s.mCurrentSendSlotIdx = none) {cur : Option Nat} (hfits : pc'.Fits cur) :
    ∀ q ∈ s.calls.set i pc', q.Fits cur := fun q hq => by
  have hle := Tally.toNat_le_countP Pc.sending hi
  rw [hsending, Bool.toNat_true] at hle
  have hsend := h.counted.sending_le
  have hbool := Bool.toNat_le s.mIsSending
  have hone : s.calls.countP Pc.sending = 1 := by omega
  rcases Tally.eq_or_not_of_mem_set Pc.sending hone hi hsending hq with rfl | ⟨hmem, hcold⟩
  · exact hfits
  · refine Pc.fits_of_cold ?_ hcold cur
    cases hhot : q.hot with
    | false => rfl
    | true => exact absurd hclear ((h.fits q hmem).ne_none hhot)

/-- The places a call is counted at. -/
def Pc.classes (pc : Pc) : Bool × Bool × Bool × Bool × Bool × Bool :=
  (pc.hot, pc.sending, pc.closing, pc.early, pc.atSocket, pc.atHandle)

/-- A call moves between places that are not told apart, and the fields keep their values. -/
theorem Session.Ok.move (h : s.Ok) (hi : s.calls[i]? = some pc)
    (hfits : pc'.Fits s.mCurrentSendSlotIdx) (hclasses : pc'.classes = pc.classes) :
    (s.move i pc').Ok := by
  refine h.set hi rfl (fun _ _ _ _ _ _ _ _ _ _ hcounted => ?_) (h.fits_set hfits)
  simp only [Pc.classes, Prod.mk.injEq] at hclasses
  obtain ⟨hhot, hsending, hclosing, hearly, hsocket, hhandle⟩ := hclasses
  rw [hhot, hsending, hclosing, hearly, hsocket, hhandle]
  simpa [Session.counted_iff] using hcounted

/-- Beside a sending call no other is sending, and no `WSASend` is under way. -/
theorem Session.Counted.alone {hot sending closing early atSocket atHandle : Nat}
    (h : s.Counted hot (sending + 1) closing early atSocket atHandle) :
    sending = 0 ∧ s.pending = false := by
  have hsending := h.sending_le
  have hbool := Bool.toNat_le s.mIsSending
  refine ⟨by omega, ?_⟩
  have hpending : s.pending.toNat = 0 := by omega
  simpa using hpending

/-- The sending call clears `mIsSending`. -/
theorem Session.Ok.stop (h : s.Ok) (hi : s.calls[i]? = some pc) (mSendMutex : Bool)
    (hpc : pc.classes = (false, true, false, false, false, false))
    (hpc' : pc'.classes = (false, false, false, false, false, false))
    (hfits : pc'.Fits s.mCurrentSendSlotIdx) :
    ({ s with mIsSending := false, mSendMutex := mSendMutex }.move i pc').Ok := by
  refine h.set hi rfl ?_ (h.fits_set hfits)
  simp only [Pc.classes, Prod.mk.injEq] at hpc hpc'
  obtain ⟨h1, h2, h3, h4, h5, h6⟩ := hpc
  obtain ⟨h1', h2', h3', h4', h5', h6'⟩ := hpc'
  rw [Keeps, h1, h2, h3, h4, h5, h6, h1', h2', h3', h4', h5', h6']
  intro hot sending closing early atSocket atHandle hhot hclosing hopening hearly h
  obtain ⟨rfl, hpending⟩ := h.alone
  simp [Session.counted_iff, hpending] at h ⊢
  omega

variable {p p' : SendBufferPool} {ok : Bool}

/-- The step of a call that is orderly keeps the invariant of its session. -/
theorem callStep_ok (h : s.Ok) (hi : s.calls[i]? = some pc) (horderly : s.Orderly pc)
    (hs : callStep p s i ok pc = some (p', s')) : s'.Ok := by
  have hfits : pc.Fits s.mCurrentSendSlotIdx := h.fits pc (List.mem_of_getElem? hi)
  cases pc with
  | sendArgs data size =>
      simp only [callStep] at hs
      split at hs <;> cases hs <;> exact h.move hi trivial rfl
  | sendSocket size =>
      simp only [callStep] at hs
      split at hs <;> cases hs <;> exact h.move hi trivial rfl
  | sendProvider size =>
      simp only [callStep] at hs
      split at hs <;> cases hs
      exact h.move hi trivial rfl
  | sendPressure size =>
      simp only [callStep] at hs
      split at hs <;> cases hs <;> exact h.move hi trivial rfl
  | acquire size =>
      simp only [callStep] at hs
      split at hs <;> cases hs <;> exact h.move hi trivial rfl
  | push req =>
      simp only [callStep] at hs
      split at hs <;> cases hs
      refine h.set hi rfl ?_ (h.fits_set trivial)
      intro hot sending closing early atSocket atHandle hhot hclosing hopening hearly h
      have hopen : 1 ≤ s.connected + closing := by
        rcases horderly with hstate | hpos
        · simp [hstate]
        · rw [hclosing] at hpos
          exact Nat.le_add_left_of_le hpos
      have hbool := Bool.toNat_le (!(s.mSendQueue ++ [req]).isEmpty)
      simp [Session.counted_iff] at h hopen ⊢
      omega
  | flush =>
      simp only [callStep] at hs
      split at hs <;> cases hs
      · exact h.move hi trivial rfl
      next hbusy =>
        have hidle : s.mIsSending = false := by simpa using hbusy
        refine h.set hi rfl ?_ (h.fits_set trivial)
        intro hot sending closing early atSocket atHandle hhot hclosing hopening hearly h
        obtain ⟨rfl, hpending⟩ : sending = 0 ∧ s.pending = false := by
          simpa [hidle] using h.sending_le
        simp [Session.counted_iff, hidle, hpending] at h ⊢
        omega
  | postLoad =>
      cases hs
      split <;> exact h.move hi trivial rfl
  | test k =>
      simp only [callStep] at hs
      split at hs
      next hclear =>
        cases hs
        refine h.set hi rfl ?_ (h.fits_set ?_)
        · intro hot sending closing early atSocket atHandle hhot hclosing hopening hearly h
          obtain ⟨hcold, hsending, hempties, htested, hsocket, hhandle⟩ := k.next_places
          rw [hcold, hsending, hempties, htested, hsocket, hhandle]
          simp [Session.counted_iff, hclear] at h ⊢
          omega
        · cases k <;> simp [After.next, Pc.Fits, hclear]
      next x hx =>
        cases hs
        refine h.set hi rfl ?_ (h.fits_set ?_)
        · intro hot sending closing early atSocket atHandle hhot hclosing hopening hearly h
          have hnone : s.calls.countP Pc.hot = 0 :=
            horderly.resolve_left (by simp [hx])
          rw [hhot] at hnone
          simp [Session.counted_iff, hx] at h hnone ⊢
          omega
        · simp [hx, Pc.Fits]
  | release k =>
      simp only [callStep] at hs
      split at hs
      next hclear => exact absurd hclear hfits
      next x hx =>
        cases hs
        exact h.move hi ⟨hfits, hx.symm⟩ rfl
  | clear x k =>
      cases hs
      refine h.set hi rfl ?_ (h.fits_clear hi rfl ?_)
      · intro hot sending closing early atSocket atHandle hhot hclosing hopening hearly h
        obtain ⟨hcold, hsending, hempties, htested, hsocket, hhandle⟩ := k.next_places
        rw [hcold, hsending, hempties, htested, hsocket, hhandle]
        simp [Session.counted_iff] at h ⊢
        omega
      · cases k <;> simp [After.next, Pc.Fits]
  | idleStore =>
      cases hs
      exact h.stop hi s.mSendMutex rfl rfl trivial
  | idleRecheck =>
      cases hs
      split <;> exact h.move hi trivial rfl
  | postPop =>
      simp only [callStep] at hs
      split at hs
      · cases hs
      · split at hs
        · cases hs
          refine h.set hi rfl ?_ (h.fits_set trivial)
          intro hot sending closing early atSocket atHandle hhot hclosing hopening hearly h
          simpa [Session.counted_iff] using h
        next req rest hqueue =>
          cases hs
          refine h.set hi rfl ?_ (h.fits_set trivial)
          intro hot sending closing early atSocket atHandle hhot hclosing hopening hearly h
          have hbool := Bool.toNat_le (!rest.isEmpty)
          simp [Session.counted_iff, hqueue] at h ⊢
          omega
  | emptyStore =>
      cases hs
      exact h.stop hi false rfl rfl trivial
  | postSocket req =>
      simp only [callStep] at hs
      split at hs <;> cases hs <;> exact h.move hi hfits rfl
  | dropRelease req =>
      cases hs
      exact h.move hi trivial rfl
  | dropStore =>
      cases hs
      exact h.stop hi s.mSendMutex rfl rfl trivial
  | setCurrent req =>
      cases hs
      refine h.set hi rfl ?_ (h.fits_assign hi rfl hfits rfl)
      have hcold : s.calls.countP Pc.hot = 0 :=
        List.countP_eq_zero.mpr fun q hq hhot => (h.fits q hq).ne_none hhot hfits
      intro hot sending closing early atSocket atHandle hhot hclosing hopening hearly h
      rw [hhot] at hcold
      simp [Session.counted_iff] at h hcold ⊢
      omega
  | wsaSend req =>
      simp only [callStep] at hs
      split at hs
      next hsent =>
        cases hs
        refine h.set hi rfl ?_ (h.fits_set trivial)
        intro hot sending closing early atSocket atHandle hhot hclosing hopening hearly h
        obtain ⟨rfl, hpending⟩ := h.alone
        have hcur : s.mCurrentSendSlotIdx = some req.slotIdx := hfits
        simp [Session.counted_iff, hpending, hsent.2, hcur] at h ⊢
        omega
      · cases hs
        exact h.move hi hfits rfl
  | failRelease req =>
      cases hs
      exact h.move hi hfits rfl
  | failClear req =>
      cases hs
      refine h.set hi rfl ?_ (h.fits_clear hi rfl trivial)
      intro hot sending closing early atSocket atHandle hhot hclosing hopening hearly h
      simp [Session.counted_iff] at h ⊢
      omega
  | failStore =>
      cases hs
      exact h.stop hi s.mSendMutex rfl rfl trivial
  | closeState =>
      simp only [callStep] at hs
      split at hs
      · cases hs
        exact h.move hi trivial rfl
      next hopen =>
        cases hs
        refine h.set hi rfl ?_ (h.fits_set trivial)
        intro hot sending closing early atSocket atHandle hhot hclosing hopening hearly h
        have hbool := Bool.toNat_le s.mSocket
        have hbool' := Bool.toNat_le s.mCurrentSendSlotIdx.isSome
        have hbool'' := Bool.toNat_le (!s.mSendQueue.isEmpty)
        have hbool''' := Bool.toNat_le s.pending
        simp [Session.counted_iff, hopen] at h ⊢
        omega
  | closeSocket =>
      simp only [callStep] at hs
      split at hs
      next hsocket =>
        cases hs
        refine h.set hi rfl ?_ (h.fits_set trivial)
        intro hot sending closing early atSocket atHandle hhot hclosing hopening hearly h
        simp [Session.counted_iff, hsocket] at h ⊢
        omega
      next hvalid =>
        have hsocket : s.mSocket = false := by simpa using hvalid
        cases hs
        refine h.set hi rfl ?_ (h.fits_set trivial)
        intro hot sending closing early atSocket atHandle hhot hclosing hopening hearly h
        simp [Session.counted_iff, hsocket] at h ⊢
        omega
  | closeHandle =>
      cases hs
      refine h.set hi rfl ?_ (h.fits_set trivial)
      intro hot sending closing early atSocket atHandle hhot hclosing hopening hearly h
      simp [Session.counted_iff] at h ⊢
      omega
  | drainLock =>
      simp only [callStep] at hs
      split at hs <;> cases hs
      refine h.set hi rfl ?_ (h.fits_set trivial)
      intro hot sending closing early atSocket atHandle hhot hclosing hopening hearly h
      simpa [Session.counted_iff] using h
  | drain =>
      simp only [callStep] at hs
      split at hs
      next hqueue =>
        cases hs
        refine h.set hi rfl ?_ (h.fits_set trivial)
        intro hot sending closing early atSocket atHandle hhot hclosing hopening hearly h
        simp [Session.counted_iff, hqueue] at h ⊢
        omega
      next req rest hqueue =>
        cases hs
        obtain ⟨hlt, hget⟩ := List.getElem?_eq_some_iff.mp hi
        have hsame : s.calls.set i .drain = s.calls := by rw [← hget, List.set_getElem_self]
        refine h.set hi hsame.symm ?_ h.fits
        intro hot sending closing early atSocket atHandle hhot hclosing hopening hearly h
        have hbool := Bool.toNat_le (!rest.isEmpty)
        simp [Session.counted_iff, hqueue] at h ⊢
        omega
  | returned => cases hs

/-- On a quiet session no call is counted, and nothing is asked of the calls. -/
theorem Session.Quiet.ok_iff (hquiet : s.Quiet) : s.Ok ↔ s.Counted 0 0 0 0 0 0 := by
  have hzero : ∀ place : Pc → Bool, place .returned = false → s.calls.countP place = 0 :=
    fun place hreturned => List.countP_eq_zero.mpr fun q hq hplace => by
      rw [hquiet q hq, hreturned] at hplace
      cases hplace
  have hfits : ∀ q ∈ s.calls, q.Fits s.mCurrentSendSlotIdx := fun q hq => by
    rw [hquiet q hq]
    exact trivial
  constructor
  · intro h
    have hcounted := h.counted
    rwa [hzero Pc.hot rfl, hzero Pc.sending rfl, hzero Pc.closing rfl, hzero Pc.early rfl,
      hzero _ rfl, hzero _ rfl] at hcounted
  · intro hcounted
    refine ⟨?_, hfits⟩
    rwa [hzero Pc.hot rfl, hzero Pc.sending rfl, hzero Pc.closing rfl, hzero Pc.early rfl,
      hzero _ rfl, hzero _ rfl]

/-- A call begins at a place that is not counted. -/
theorem Session.Ok.call (h : s.Ok) (hfits : pc.Fits s.mCurrentSendSlotIdx)
    (hclasses : pc.classes = Pc.returned.classes) : (s.call pc).Ok := by
  simp only [Pc.classes, Prod.mk.injEq] at hclasses
  obtain ⟨hhot, hsending, hclosing, hearly, hsocket, hhandle⟩ := hclasses
  refine ⟨?_, fun q hq => ?_⟩
  · have hcounted := h.counted
    simp only [Session.call, Tally.countP_concat, hhot, hsending, hclosing, hearly, hsocket, hhandle]
    simpa [Session.counted_iff] using hcounted
  · rcases List.mem_append.mp hq with hq | hq
    · exact h.fits q hq
    · rw [List.mem_singleton.mp hq]
      exact hfits

/-- A completion takes the sending over, or nobody does. -/
theorem Session.Ok.complete (h : s.Ok) (hpending : s.pending = true) :
    ({ s with pending := false }.call .postLoad).Ok ∧ { s with pending := false }.Ok := by
  have hcounted := h.counted
  refine ⟨⟨?_, fun q hq => ?_⟩, ⟨?_, h.fits⟩⟩
  · simp only [Session.call, Tally.countP_concat]
    simp [Session.counted_iff, hpending] at hcounted ⊢
    omega
  · rcases List.mem_append.mp hq with hq | hq
    · exact h.fits q hq
    · rw [List.mem_singleton.mp hq]
      exact trivial
  · simp [Session.counted_iff, hpending] at hcounted ⊢
    omega

/-- Every step on a session, orderly if it is one of a call, keeps the invariant. -/
theorem sessionStep_ok {a : Act} (h : s.Ok)
    (horderly : ∀ i ok, a = .call i ok → ∀ pc ∈ s.calls[i]?, s.Orderly pc)
    (hs : sessionStep p s a = some (p', s')) : s'.Ok := by
  cases a with
  | init =>
      simp only [sessionStep] at hs
      split at hs
      next hunused =>
        cases hs
        obtain ⟨hnone, hquiet⟩ := hunused
        have hcounted := hquiet.ok_iff.mp h
        refine (Session.Quiet.ok_iff ?_).mpr ?_
        · exact hquiet
        · have hbool := Bool.toNat_le (!s.mSendQueue.isEmpty)
          simp [Session.counted_iff, hnone] at hcounted ⊢
          exact ⟨hcounted.2.2.2.2.2, hbool, Bool.toNat_le _⟩
      · cases hs
  | reset =>
      simp only [sessionStep] at hs
      split at hs
      next hunused =>
        cases hs
        obtain ⟨hclosed, hquiet⟩ := hunused
        have hcounted := hquiet.ok_iff.mp h
        refine (Session.Quiet.ok_iff ?_).mpr ?_
        · exact hquiet
        · simp [Session.counted_iff, hclosed] at hcounted ⊢
          obtain ⟨-, hhandle, hsocket, -, hqueue, -⟩ := hcounted
          simpa [hsocket, hqueue] using hhandle
      · cases hs
  | send data size =>
      cases hs
      exact h.call trivial rfl
  | close =>
      cases hs
      exact h.call trivial rfl
  | completed =>
      simp only [sessionStep] at hs
      split at hs
      next hpending =>
        cases hs
        exact (h.complete hpending).1
      · cases hs
  | failed =>
      simp only [sessionStep] at hs
      split at hs
      next hpending =>
        cases hs
        exact (h.complete hpending).2.call trivial rfl
      · cases hs
  | dropped =>
      simp only [sessionStep] at hs
      split at hs
      next hpending =>
        cases hs
        exact (h.complete hpending).2
      · cases hs
  | call i ok =>
      simp only [sessionStep] at hs
      split at hs
      · cases hs
      next pc hi => exact callStep_ok h hi (horderly i ok rfl pc hi) hs

end

/-! ## Where the slots are -/

/-- The slot of `req`, if the call took one from the queue. -/
def After.holds : After → List Nat
  | .commit req => [req.slotIdx]
  | _ => []

/-- The slots in the locals of a call, up to the moment they are in `mCurrentSendSlotIdx`. -/
@[simp] def Pc.holds : Pc → List Nat
  | .push req | .postSocket req | .dropRelease req | .setCurrent req => [req.slotIdx]
  | .test k | .release k | .clear _ k => k.holds
  | _ => []

/-- The slot that was given back and is still in `mCurrentSendSlotIdx`. -/
@[simp] def Pc.stale : Pc → List Nat
  | .clear x _ => x.toList
  | .failClear req => [req.slotIdx]
  | _ => []

/-- The slots a session holds. -/
def Session.held (s : Session) : List Nat :=
  s.mSendQueue.map SendRequest.slotIdx ++ s.mCurrentSendSlotIdx.toList ++ s.calls.flatMap Pc.holds

/-- Those of them that were given back. -/
def Session.stale (s : Session) : List Nat := s.calls.flatMap Pc.stale

/-- What leaves the free list is held, and what enters it is not or is stale.  The history
of the pool is that of its free list. -/
structure Shifts (p p' : SendBufferPool) (s s' : Session) : Prop where
  poolSize : p'.mPoolSize = p.mPoolSize
  history : ∀ x, p'.mFreeSlots.count x + p'.acquired.count x + p.released.count x =
    p.mFreeSlots.count x + p.acquired.count x + p'.released.count x
  balance : ∀ x, p'.mFreeSlots.count x + s'.held.count x + s.stale.count x =
    p.mFreeSlots.count x + s.held.count x + s'.stale.count x

section
variable {p p' : SendBufferPool} {s s' : Session} {i : Nat} {pc pc' : Pc} {ok : Bool}

theorem After.next_holds (k : After) : k.next.holds = k.holds := by
  cases k <;> rfl

theorem After.next_stale (k : After) : k.next.stale = [] := by
  cases k <;> rfl

/-- Only a hot call has given a slot back that is still in `mCurrentSendSlotIdx`. -/
theorem Pc.stale_of_cold (hcold : pc.hot = false) : pc.stale = [] := by
  cases pc with
  | clear _ _ | failClear _ => cases hcold
  | _ => rfl

/-- It is one slot at most. -/
theorem Pc.length_stale_le (pc : Pc) : pc.stale.length ≤ pc.hot.toNat := by
  cases pc with
  | clear x _ => cases x <;> simp
  | failClear req => exact Nat.le_refl 1
  | _ => exact Nat.zero_le _

/-- A stale slot is the one in `mCurrentSendSlotIdx`. -/
theorem Pc.Fits.of_mem_stale {cur : Option Nat} (h : pc.Fits cur) {x : Nat} (hx : x ∈ pc.stale) :
    cur = some x := by
  cases pc with
  | clear y _ =>
      rw [← h.2]
      simpa using hx
  | failClear req =>
      rw [List.mem_singleton.mp hx]
      exact h
  | _ => cases hx

/-- A slot is stale at most once, and then it is the one in `mCurrentSendSlotIdx`. -/
theorem Session.Ok.stale_le (h : s.Ok) (x : Nat) :
    s.stale.count x ≤ s.mCurrentSendSlotIdx.toList.count x := by
  by_cases hx : s.mCurrentSendSlotIdx = some x
  · have hle : s.stale.count x ≤ s.calls.countP Pc.hot :=
      Tally.countP_flatMap_le fun pc _ => List.countP_le_length.trans pc.length_stale_le
    rw [hx]
    simpa using hle.trans h.counted.hot_le
  · rw [List.count_eq_zero.mpr]
    · exact Nat.zero_le _
    · intro hmem
      obtain ⟨pc, hpc, hstale⟩ := List.mem_flatMap.mp hmem
      exact hx ((h.fits pc hpc).of_mem_stale hstale)

/-- While a hot call has not given its slot back, no slot is stale. -/
theorem Session.Ok.stale_eq_nil (h : s.Ok) (hi : s.calls[i]? = some pc) (hhot : pc.hot = true)
    (hstale : pc.stale = []) : s.stale = [] := by
  have hle := Tally.toNat_le_countP Pc.hot hi
  rw [hhot, Bool.toNat_true] at hle
  have hone : s.calls.countP Pc.hot = 1 := Nat.le_antisymm h.counted.hot_le hle
  refine List.flatMap_eq_nil_iff.mpr fun q hq => ?_
  obtain ⟨hlt, hget⟩ := List.getElem?_eq_some_iff.mp hi
  have hmem : q ∈ s.calls.set i pc := by rwa [← hget, List.set_getElem_self]
  rcases Tally.eq_or_not_of_mem_set Pc.hot hone hi hhot hmem with rfl | ⟨-, hcold⟩
  · exact hstale
  · exact Pc.stale_of_cold hcold

theorem count_held (s : Session) (x : Nat) : s.held.count x =
    (s.mSendQueue.map SendRequest.slotIdx).count x + s.mCurrentSendSlotIdx.toList.count x +
      (s.calls.flatMap Pc.holds).count x := by
  simp only [Session.held, List.count_append]

/-- A call moves, the pool is as before, and the fields give the slots what the call gives up. -/
theorem Shifts.of_set (hi : s.calls[i]? = some pc) (hcalls : s'.calls = s.calls.set i pc')
    (hslots : ∀ x, (s'.mSendQueue.map SendRequest.slotIdx).count x +
        s'.mCurrentSendSlotIdx.toList.count x + pc'.holds.count x + pc.stale.count x =
      (s.mSendQueue.map SendRequest.slotIdx).count x + s.mCurrentSendSlotIdx.toList.count x +
        pc.holds.count x + pc'.stale.count x) : Shifts p p s s' := by
  refine ⟨rfl, fun _ => rfl, fun x => ?_⟩
  have hholds := Tally.count_flatMap_set Pc.holds pc' hi x
  have hstale := Tally.count_flatMap_set Pc.stale pc' hi x
  have hx := hslots x
  simp only [count_held, Session.stale, hcalls]
  omega

/-- A call moves, and holds the same. -/
theorem Shifts.move (hi : s.calls[i]? = some pc) (hholds : pc'.holds = pc.holds)
    (hstale : pc'.stale = pc.stale) : Shifts p p s (s.move i pc') :=
  .of_set hi rfl fun x => by rw [hholds, hstale]; rfl

/-- A call moves and releases a slot in range. -/
theorem Shifts.release {x : Nat} (hx : x < p.mPoolSize) (hi : s.calls[i]? = some pc)
    (hcalls : s'.calls = s.calls.set i pc')
    (hslots : ∀ y, (s'.mSendQueue.map SendRequest.slotIdx).count y +
        s'.mCurrentSendSlotIdx.toList.count y + pc'.holds.count y + pc.stale.count y + [x].count y =
      (s.mSendQueue.map SendRequest.slotIdx).count y + s.mCurrentSendSlotIdx.toList.count y +
        pc.holds.count y + pc'.stale.count y) : Shifts p (p.release x) s s' := by
  rw [SendBufferPool.release, if_pos hx]
  refine ⟨rfl, fun y => ?_, fun y => ?_⟩
  · simp only [List.count_append]
    omega
  · have hholds := Tally.count_flatMap_set Pc.holds pc' hi y
    have hstale := Tally.count_flatMap_set Pc.stale pc' hi y
    have hy := hslots y
    simp only [count_held, Session.stale, hcalls, List.count_append]
    omega

/-- What is left of the free list once its top is taken. -/
theorem acquire_eq_some {idx : Nat} (h : p.acquire = some (idx, p')) :
    p.mFreeSlots = p'.mFreeSlots ++ [idx] ∧ p'.acquired = p.acquired ++ [idx] ∧
      p'.released = p.released ∧ p'.mPoolSize = p.mPoolSize := by
  simp only [SendBufferPool.acquire] at h
  split at h
  · cases h
  next top htop =>
    cases h
    obtain ⟨rest, hrest⟩ := List.getLast?_eq_some_iff.mp htop
    simp [hrest]

/-- The step of a call shifts slots, if those it releases are in range. -/
theorem callStep_shifts (h : s.Ok) (hi : s.calls[i]? = some pc)
    (hrange : ∀ x, s.stale.count x < s.held.count x → x < p.mPoolSize)
    (hs : callStep p s i ok pc = some (p', s')) : Shifts p p' s s' := by
  have hfits : pc.Fits s.mCurrentSendSlotIdx := h.fits pc (List.mem_of_getElem? hi)
  cases pc with
  | sendArgs data size =>
      simp only [callStep] at hs
      split at hs <;> cases hs <;> exact .move hi rfl rfl
  | sendSocket size =>
      simp only [callStep] at hs
      split at hs <;> cases hs <;> exact .move hi rfl rfl
  | sendProvider size =>
      simp only [callStep] at hs
      split at hs <;> cases hs
      exact .move hi rfl rfl
  | sendPressure size =>
      simp only [callStep] at hs
      split at hs <;> cases hs <;> exact .move hi rfl rfl
  | acquire size =>
      simp only [callStep] at hs
      split at hs
      · cases hs
        exact .move hi rfl rfl
      next idx q hacquire =>
        cases hs
        obtain ⟨hfree, hacquired, hreleased, hsize⟩ := acquire_eq_some hacquire
        refine ⟨hsize, fun x => ?_, fun x => ?_⟩
        · rw [hfree, hacquired, hreleased, List.count_append, List.count_append]
          omega
        · have hholds := Tally.count_flatMap_set Pc.holds (.push ⟨idx, size⟩) hi x
          have hstale := Tally.count_flatMap_set Pc.stale (.push ⟨idx, size⟩) hi x
          simp only [Pc.holds, Pc.stale, List.count_nil] at hholds hstale
          simp only [count_held, Session.stale, Session.move, hfree, List.count_append]
          omega
  | push req =>
      simp only [callStep] at hs
      split at hs <;> cases hs
      refine .of_set hi rfl fun x => ?_
      simp [Session.move]
      omega
  | flush =>
      simp only [callStep] at hs
      split at hs <;> cases hs <;> exact .of_set hi rfl fun _ => rfl
  | postLoad =>
      cases hs
      split <;> exact .move hi rfl rfl
  | test k =>
      simp only [callStep] at hs
      split at hs <;> cases hs
      · exact .move hi k.next_holds k.next_stale
      · exact .move hi rfl rfl
  | release k =>
      simp only [callStep] at hs
      split at hs
      next hclear => exact absurd hclear hfits
      next x hx =>
        cases hs
        refine .release (hrange x ?_) hi rfl fun y => ?_
        · rw [h.stale_eq_nil hi rfl rfl]
          simp [count_held, hx]
        · simp [hx]
  | clear x k =>
      cases hs
      obtain ⟨-, rfl⟩ := hfits
      refine .of_set hi rfl fun y => ?_
      rw [k.next_holds, k.next_stale]
      simp
      omega
  | idleStore =>
      cases hs
      exact .of_set hi rfl fun _ => rfl
  | idleRecheck =>
      cases hs
      split <;> exact .move hi rfl rfl
  | postPop =>
      simp only [callStep] at hs
      split at hs
      · cases hs
      · split at hs
        · cases hs
          exact .of_set hi rfl fun _ => rfl
        next req rest hqueue =>
          cases hs
          refine .of_set hi rfl fun x => ?_
          simp [hqueue, After.holds, List.count_cons]
          omega
  | emptyStore =>
      cases hs
      exact .of_set hi rfl fun _ => rfl
  | postSocket req =>
      simp only [callStep] at hs
      split at hs <;> cases hs <;> exact .move hi rfl rfl
  | dropRelease req =>
      cases hs
      refine .release (hrange _ ?_) hi rfl fun y => ?_
      · have hstale := h.stale_le req.slotIdx
        have hmem : 0 < (s.calls.flatMap Pc.holds).count req.slotIdx :=
          List.count_pos_iff.mpr (List.mem_flatMap.mpr
            ⟨_, List.mem_of_getElem? hi, List.mem_singleton_self _⟩)
        rw [count_held]
        omega
      · simp
  | dropStore =>
      cases hs
      exact .of_set hi rfl fun _ => rfl
  | setCurrent req =>
      cases hs
      have hclear : s.mCurrentSendSlotIdx = none := hfits
      refine .of_set hi rfl fun x => ?_
      simp [hclear]
  | wsaSend req =>
      simp only [callStep] at hs
      split at hs <;> cases hs
      · exact .of_set hi rfl fun _ => rfl
      · exact .move hi rfl rfl
  | failRelease req =>
      cases hs
      have hcur : s.mCurrentSendSlotIdx = some req.slotIdx := hfits
      refine .release (hrange _ ?_) hi rfl fun y => ?_
      · rw [h.stale_eq_nil hi rfl rfl]
        simp [count_held, hcur]
      · simp
  | failClear req =>
      cases hs
      have hcur : s.mCurrentSendSlotIdx = some req.slotIdx := hfits
      refine .of_set hi rfl fun x => ?_
      simp [hcur]
  | failStore =>
      cases hs
      exact .of_set hi rfl fun _ => rfl
  | closeState =>
      simp only [callStep] at hs
      split at hs <;> cases hs <;> exact .of_set hi rfl fun _ => rfl
  | closeSocket =>
      simp only [callStep] at hs
      split at hs <;> cases hs <;> exact .of_set hi rfl fun _ => rfl
  | closeHandle =>
      cases hs
      exact .of_set hi rfl fun _ => rfl
  | drainLock =>
      simp only [callStep] at hs
      split at hs <;> cases hs
      exact .of_set hi rfl fun _ => rfl
  | drain =>
      simp only [callStep] at hs
      split at hs
      · cases hs
        exact .of_set hi rfl fun _ => rfl
      next req rest hqueue =>
        cases hs
        obtain ⟨hlt, hget⟩ := List.getElem?_eq_some_iff.mp hi
        have hsame : s.calls.set i .drain = s.calls := by rw [← hget, List.set_getElem_self]
        refine .release (hrange _ ?_) hi hsame.symm fun y => ?_
        · have hstale := h.stale_le req.slotIdx
          rw [count_held, hqueue, List.map_cons, List.count_cons_self]
          omega
        · simp [hqueue, List.count_cons]
          omega
  | returned => cases hs

/-- A new call holds no slot. -/
theorem Shifts.call {s' : Session} (hcalls : s'.calls = s.calls ++ [pc]) (hholds : pc.holds = [])
    (hstale : pc.stale = []) (hqueue : s'.mSendQueue = s.mSendQueue)
    (hcur : s'.mCurrentSendSlotIdx = s.mCurrentSendSlotIdx) : Shifts p p s s' := by
  refine ⟨rfl, fun _ => rfl, fun x => ?_⟩
  simp only [count_held, Session.stale, hcalls, hqueue, hcur, List.flatMap_append,
    List.flatMap_singleton, hholds, hstale, List.append_nil]

/-- A quiet session that is not connected holds nothing. -/
theorem Session.Ok.held_eq_nil (h : s.Ok) (hstate : s.mState ≠ .connected) (hquiet : s.Quiet) :
    s.mSendQueue = [] ∧ s.mCurrentSendSlotIdx = none ∧ s.held = [] ∧ s.stale = [] := by
  have hcounted := hquiet.ok_iff.mp h
  simp [Session.counted_iff, hstate] at hcounted
  obtain ⟨-, -, -, hcur, hqueue, -⟩ := hcounted
  have hreturned : ∀ f : Pc → List Nat, f .returned = [] → s.calls.flatMap f = [] := fun f hf =>
    List.flatMap_eq_nil_iff.mpr fun q hq => by rw [hquiet q hq, hf]
  refine ⟨hqueue, hcur, ?_, hreturned _ rfl⟩
  simp [Session.held, hqueue, hcur, hreturned Pc.holds rfl]

/-- Every step on a session shifts slots, if those it releases are in range. -/
theorem sessionStep_shifts {a : Act} (h : s.Ok)
    (hrange : ∀ x, s.stale.count x < s.held.count x → x < p.mPoolSize)
    (hs : sessionStep p s a = some (p', s')) : Shifts p p' s s' := by
  cases a with
  | init =>
      simp only [sessionStep] at hs
      split at hs
      next hunused =>
        cases hs
        obtain ⟨-, hcur, -⟩ := h.held_eq_nil (by simp [hunused.1]) hunused.2
        refine ⟨rfl, fun _ => rfl, fun x => ?_⟩
        simp only [count_held, Session.stale, hcur]
      · cases hs
  | reset =>
      simp only [sessionStep] at hs
      split at hs
      next hunused =>
        cases hs
        obtain ⟨-, hcur, -⟩ := h.held_eq_nil (by simp [hunused.1]) hunused.2
        refine ⟨rfl, fun _ => rfl, fun x => ?_⟩
        simp only [count_held, Session.stale, hcur]
      · cases hs
  | send data size =>
      cases hs
      exact .call rfl rfl rfl rfl rfl
  | close =>
      cases hs
      exact .call rfl rfl rfl rfl rfl
  | completed =>
      simp only [sessionStep] at hs
      split at hs <;> cases hs
      exact .call rfl rfl rfl rfl rfl
  | failed =>
      simp only [sessionStep] at hs
      split at hs <;> cases hs
      exact .call rfl rfl rfl rfl rfl
  | dropped =>
      simp only [sessionStep] at hs
      split at hs <;> cases hs
      exact ⟨rfl, fun _ => rfl, fun _ => rfl⟩
  | call i ok =>
      simp only [sessionStep] at hs
      split at hs
      · cases hs
      next pc hi => exact callStep_shifts h hi hrange hs

end

/-! ## All sessions -/

/-- The invariant.  A slot of the pool is free or held, and one that was given back twice over
would be counted twice. -/
structure Sessions.Inv (t : Sessions) : Prop where
  ok : ∀ s ∈ t.sessions, s.Ok
  history : ∀ x, t.pool.mFreeSlots.count x + t.pool.acquired.count x =
    (List.range t.pool.mPoolSize).count x + t.pool.released.count x
  balance : ∀ x, t.pool.mFreeSlots.count x + (t.sessions.flatMap Session.held).count x =
    (List.range t.pool.mPoolSize).count x + (t.sessions.flatMap Session.stale).count x

/-- In a session no more is stale than held. -/
theorem Session.Ok.stale_le_held {s : Session} (h : s.Ok) (x : Nat) :
    s.stale.count x ≤ s.held.count x := by
  have hle := h.stale_le x
  rw [count_held]
  omega

section
variable {t t' : Sessions}

/-- In all sessions no more is stale than held. -/
theorem Sessions.Inv.stale_le_held (h : t.Inv) (x : Nat) :
    (t.sessions.flatMap Session.stale).count x ≤ (t.sessions.flatMap Session.held).count x := by
  rw [List.count_flatMap, List.count_flatMap]
  exact List.sum_le_sum fun s hs => (h.ok s hs).stale_le_held x

/-- A slot that some session holds and that is not stale there is one of the pool. -/
theorem Sessions.Inv.lt_poolSize (h : t.Inv) {s : Session} (hs : s ∈ t.sessions) {x : Nat}
    (hx : s.stale.count x < s.held.count x) : x < t.pool.mPoolSize := by
  have hlt : (t.sessions.flatMap Session.stale).count x <
      (t.sessions.flatMap Session.held).count x := by
    rw [List.count_flatMap, List.count_flatMap]
    exact List.sum_lt_sum _ _ (fun u hu => (h.ok u hu).stale_le_held x) ⟨s, hs, hx⟩
  have hbalance := h.balance x
  have hpos : 0 < (List.range t.pool.mPoolSize).count x := by omega
  exact List.mem_range.mp (List.count_pos_iff.mp hpos)

/-- Every orderly step keeps the invariant. -/
theorem step_inv {a : Nat × Act} (h : t.Inv) (horderly : Orderly t a) (hs : step t a = some t') :
    t'.Inv := by
  obtain ⟨k, a⟩ := a
  simp only [step] at hs
  split at hs
  · cases hs
  next s hk =>
    have hmem : s ∈ t.sessions := List.mem_of_getElem? hk
    split at hs
    · cases hs
    next p' s' hstep =>
      cases hs
      have hok : s'.Ok := by
        refine sessionStep_ok (h.ok s hmem) (fun i ok ha pc hpc => ?_) hstep
        subst ha
        exact horderly s hk pc hpc
      obtain ⟨hsize, hhistory, hbalance⟩ :=
        sessionStep_shifts (h.ok s hmem) (fun x hx => h.lt_poolSize hmem hx) hstep
      refine ⟨fun u hu => ?_, fun x => ?_, fun x => ?_⟩
      · rcases List.mem_or_eq_of_mem_set hu with hu | rfl
        · exact h.ok u hu
        · exact hok
      · have h1 := h.history x
        have h2 := hhistory x
        simp only [hsize]
        omega
      · have h1 := h.balance x
        have h2 := hbalance x
        have hheld := Tally.count_flatMap_set Session.held s' hk x
        have hstale := Tally.count_flatMap_set Session.stale s' hk x
        simp only [hsize]
        omega

theorem inv_initial (poolSize capacity : Nat) : (Sessions.initial poolSize capacity).Inv where
  ok := fun s hs => by
    rw [List.eq_of_mem_replicate hs]
    refine (Session.Quiet.ok_iff fun _ hq => by cases hq).mpr ?_
    simp [Session.counted_iff]
  history := fun _ => rfl
  balance := fun x => by
    have hempty : ∀ f : Session → List Nat, f {} = [] →
        (Sessions.initial poolSize capacity).sessions.flatMap f = [] := fun f hf =>
      List.flatMap_eq_nil_iff.mpr fun s hs => by rw [List.eq_of_mem_replicate hs, hf]
    rw [hempty _ rfl, hempty _ rfl]
    rfl

/-- The invariant says that the slots are conserved. -/
theorem Sessions.Inv.conserved (h : t.Inv) : t.Conserved := by
  have hfree : ∀ x, t.pool.mFreeSlots.count x ≤ (List.range t.pool.mPoolSize).count x := fun x => by
    have hbalance := h.balance x
    have hle := h.stale_le_held x
    omega
  have hrange : ∀ x, (List.range t.pool.mPoolSize).count x ≤ 1 := fun x =>
    List.nodup_iff_count_le_one.mp List.nodup_range x
  refine ⟨List.nodup_iff_count_le_one.mpr fun x => (hfree x).trans (hrange x), fun x => ?_,
    fun hclosed => ?_⟩
  · have hx := hfree x
    have h1 := hrange x
    have h2 := h.history x
    omega
  · have hnil : ∀ s ∈ t.sessions, s.held = [] ∧ s.stale = [] := fun s hs =>
      ((h.ok s hs).held_eq_nil (hclosed s hs).1 (hclosed s hs).2).2.2
    have hheld : t.sessions.flatMap Session.held = [] :=
      List.flatMap_eq_nil_iff.mpr fun s hs => (hnil s hs).1
    have hstale : t.sessions.flatMap Session.stale = [] :=
      List.flatMap_eq_nil_iff.mpr fun s hs => (hnil s hs).2
    have hcount : ∀ x, t.pool.mFreeSlots.count x = (List.range t.pool.mPoolSize).count x :=
      fun x => by simpa [hheld, hstale] using h.balance x
    refine ⟨List.perm_iff_count.mpr hcount, fun x => ?_⟩
    have h1 := hcount x
    have h2 := h.history x
    omega

end

/-- In every run in which no call tests a `mCurrentSendSlotIdx` that another call is about to give
back, and no slot is pushed behind `Close`, the slots are conserved. -/
theorem conserved_of_meets {poolSize capacity : Nat} {as : List (Nat × Act)} {t : Sessions}
    (horderly : Machine.Meets step Orderly (Sessions.initial poolSize capacity) as)
    (hrun : Machine.run step (Sessions.initial poolSize capacity) as = some t) : t.Conserved :=
  (Machine.run_invariant_of_meets (fun _ _ _ h ha hs => step_inv h ha hs)
    (inv_initial poolSize capacity) horderly hrun).conserved

/-- Call `i` on the only session takes `n` steps, and `WSASend` succeeds if it can. -/
def steps (i n : Nat) : List (Nat × Act) := List.replicate n (0, .call i true)

/-- A `Send`, the completion that gives its slot back, `Close` and `Reset`. -/
def sentTrace : List (Nat × Act) :=
  (0, .init) :: (0, .send true 8) :: steps 0 13 ++ (0, .completed) :: steps 1 6 ++
    (0, .close) :: steps 2 6 ++ [(0, .reset)]

theorem conserved_sentTrace : ∃ t, Machine.run step (.initial 2 1) sentTrace = some t ∧
    t.pool.acquired = [1] ∧ t.AllClosed ∧ t.Conserved :=
  ⟨_, rfl, rfl, by decide,
    conserved_of_meets
      (show Machine.Meets step Orderly (.initial 2 1) sentTrace by decide) rfl⟩

/-- `PostSend` has stored `mCurrentSendSlotIdx` and is about to call `WSASend`.  `Close` closes
the socket and gives the slot back.  Then `WSASend` fails. -/
def doubledTrace : List (Nat × Act) :=
  (0, .init) :: (0, .send true 8) :: steps 0 12 ++ (0, .close) :: steps 1 8 ++ steps 0 2

/-- While a `WSASend` is under way another `Send` has acquired a slot.  `Close` runs, and then the
slot is pushed. -/
def lostTrace : List (Nat × Act) :=
  (0, .init) :: (0, .send true 8) :: steps 0 13 ++ (0, .send true 8) :: steps 1 5 ++
    (0, .close) :: steps 2 8 ++ steps 1 2

/-- The first run puts a slot on the free list twice, and the second loses one. -/
theorem not_conserved_doubledTrace_lostTrace :
    (∃ t, Machine.run step (.initial 2 1) doubledTrace = some t ∧
      t.pool.mFreeSlots = [0, 1, 1] ∧ ¬ t.Conserved) ∧
    ∃ t, Machine.run step (.initial 2 1) lostTrace = some t ∧
      t.AllClosed ∧ t.pool.mFreeSlots = [1] ∧ ¬ t.Conserved :=
  ⟨⟨_, rfl, rfl, fun h => absurd h.nodup (by decide)⟩,
    ⟨_, rfl, by decide, rfl, fun h => absurd (h.closed (by decide)).1 (by decide)⟩⟩

end NetworkModule.SendSlots
