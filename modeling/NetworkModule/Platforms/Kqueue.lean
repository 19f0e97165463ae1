import Mathlib

/-!
# Requests of the kqueue provider

`KqueueAsyncIOProvider` keeps at most one pending receive and one pending send for
each socket, in two maps under `mMutex`, and adds a one-shot filter to the kqueue for
each request.  A request is recorded first and its filter added after that.

`RecvAsync` looks at the answer of `kevent()`, and takes the request back when it
failed (`recvAsync_atomic`).  `SendAsync` does not look at it.  When `kevent()`
fails it has still recorded the send and returns `Success`, no event will come for
it, and every later send on the socket finds it in the map
(`sends_refused_after_failure`).  `sendAtomic_iff` says that this is the only way
for `SendAsync` to fail half-way.
-/

namespace NetworkModule.Kqueue

/-! ## The provider -/

/-- `SocketHandle`, an `int` on this platform. -/
abbrev SocketHandle := Int

/-- `AsyncIOError`, as far as a request returns it. -/
inductive AsyncIOError where
  | success
  | notInitialized
  | invalidParameter
  | operationFailed
  deriving DecidableEq, Repr

/-- `PendingOperation` of a send: the copy of its bytes. -/
structure SendOp where
  mContext : UInt64
  mOwnedBuffer : List UInt8
  mBufferSize : UInt32
  deriving DecidableEq, Repr

/-- `PendingOperation` of a receive: the buffer of the caller. -/
structure RecvOp where
  mContext : UInt64
  mBuffer : UInt64
  mBufferSize : UInt32
  deriving DecidableEq, Repr

/-- `ProviderStats`, as far as a request counts. -/
structure ProviderStats where
  mTotalRequests : UInt64 := 0
  mPendingRequests : UInt64 := 0
  deriving DecidableEq, Repr

/-- One more request. -/
def ProviderStats.add (t : ProviderStats) : ProviderStats :=
  ⟨t.mTotalRequests + 1, t.mPendingRequests + 1⟩

/-- A request is taken back. -/
def ProviderStats.rollback (t : ProviderStats) : ProviderStats :=
  ⟨t.mTotalRequests - 1, t.mPendingRequests - 1⟩

/-- The provider, and the filters in its kqueue. -/
structure Provider where
  mInitialized : Bool := true
  mPendingRecvOps : SocketHandle → Option RecvOp := fun _ => none
  mPendingSendOps : SocketHandle → Option SendOp := fun _ => none
  mStats : ProviderStats := {}
  mLastError : String := ""
  /-- The sockets with an `EVFILT_READ`. -/
  evfiltRead : SocketHandle → Bool := fun _ => false
  /-- The sockets with an `EVFILT_WRITE`. -/
  evfiltWrite : SocketHandle → Bool := fun _ => false

/-- `kevent()` adds a one-shot `EVFILT_WRITE`, or fails. -/
def Provider.addWrite (s : Provider) (socket : SocketHandle) (added : Bool) : Provider :=
  if added then { s with evfiltWrite := Function.update s.evfiltWrite socket true } else s

/-- `kevent()` adds a one-shot `EVFILT_READ`, or fails. -/
def Provider.addRead (s : Provider) (socket : SocketHandle) (added : Bool) : Provider :=
  if added then { s with evfiltRead := Function.update s.evfiltRead socket true } else s

/-- `SendAsync`.  `buffer` is `none` for a null pointer, and `added` the answer of
`kevent()`, which nobody looks at. -/
def Provider.sendAsync (s : Provider) (socket : SocketHandle) (buffer : Option (List UInt8))
    (context : UInt64) (added : Bool) : Provider × AsyncIOError :=
  if !s.mInitialized then (s, .notInitialized)
  else
    match buffer with
    | none => (s, .invalidParameter)
    | some bytes =>
        if socket < 0 ∨ bytes = [] then (s, .invalidParameter)
        else if 2 ^ 32 - 1 < bytes.length then
          ({ s with mLastError := "SendAsync: buffer size exceeds uint32_t max (4 GiB)" },
            .invalidParameter)
        else if (s.mPendingSendOps socket).isSome then
          ({ s with mLastError := "SendAsync: duplicate pending send for socket" },
            .operationFailed)
        else
          let pending : SendOp := ⟨context, bytes, UInt32.ofNat bytes.length⟩
          let s' := { s with
            mPendingSendOps := Function.update s.mPendingSendOps socket (some pending)
            mStats := s.mStats.add }
          (s'.addWrite socket added, .success)

/-- `RecvAsync`.  A null pointer is 0. -/
def Provider.recvAsync (s : Provider) (socket : SocketHandle) (buffer : UInt64) (size : Nat)
    (context : UInt64) (added : Bool) : Provider × AsyncIOError :=
  if !s.mInitialized then (s, .notInitialized)
  else if socket < 0 ∨ buffer = 0 ∨ size = 0 then (s, .invalidParameter)
  else
    let pending : RecvOp := ⟨context, buffer, UInt32.ofNat size⟩
    let s' := { s with
      mPendingRecvOps := Function.update s.mPendingRecvOps socket (some pending)
      mStats := s.mStats.add }
    if added then (s'.addRead socket added, .success)
    else
      ({ s' with
        mPendingRecvOps := Function.update s'.mPendingRecvOps socket none
        mStats := s'.mStats.rollback }, .operationFailed)

/-! ## All or nothing -/

/-- A send is refused before it is recorded. -/
def Provider.refuses (s : Provider) (socket : SocketHandle) (buffer : Option (List UInt8)) : Bool :=
  !s.mInitialized || decide (socket < 0) || (buffer.getD []).isEmpty ||
    decide (2 ^ 32 - 1 < (buffer.getD []).length) || (s.mPendingSendOps socket).isSome

/-- `SendAsync` succeeds only with its filter in the kqueue, and leaves no trace in the
pending sends and in the statistics when it does not.  A filter that could not be
added makes no later send a duplicate. -/
structure SendAtomic (s : Provider) (socket : SocketHandle) (buffer : Option (List UInt8))
    (context : UInt64) (added : Bool) : Prop where
  registered : (s.sendAsync socket buffer context added).2 = .success →
    added = true ∧ (s.sendAsync socket buffer context added).1.evfiltWrite socket = true
  unchanged : (s.sendAsync socket buffer context added).2 ≠ .success →
    (s.sendAsync socket buffer context added).1.mPendingSendOps = s.mPendingSendOps ∧
      (s.sendAsync socket buffer context added).1.mStats = s.mStats
  repeatable : added = false →
    ((s.sendAsync socket buffer context added).1.mPendingSendOps socket).isSome = true →
      (s.mPendingSendOps socket).isSome = true

section
variable {s : Provider} {socket : SocketHandle} {buffer : Option (List UInt8)} {context : UInt64}
  {added : Bool}

/-- A send that is refused leaves no trace but the text of the error. -/
theorem sendAsync_of_refuses (context : UInt64) (added : Bool)
    (h : s.refuses socket buffer = true) :
    (s.sendAsync socket buffer context added).2 ≠ .success ∧
      (s.sendAsync socket buffer context added).1.mPendingSendOps = s.mPendingSendOps ∧
      (s.sendAsync socket buffer context added).1.mStats = s.mStats := by
  unfold Provider.sendAsync
  split
  · exact ⟨(fun h => by cases h), rfl, rfl⟩
  next hinit =>
    cases buffer with
    | none => exact ⟨(fun h => by cases h), rfl, rfl⟩
    | some bytes =>
        simp only
        split
        · exact ⟨(fun h => by cases h), rfl, rfl⟩
        next hparam =>
          split
          · exact ⟨(fun h => by cases h), rfl, rfl⟩
          next hsize =>
            split
            · exact ⟨(fun h => by cases h), rfl, rfl⟩
            next hpending =>
              exfalso
              simp only [Provider.refuses, Option.getD_some, Bool.or_eq_true, decide_eq_true_eq,
                List.isEmpty_iff] at h
              tauto

/-- A send that is not refused is recorded, whatever `kevent()` answers. -/
theorem sendAsync_of_not_refuses (context : UInt64) (added : Bool)
    (h : s.refuses socket buffer = false) :
    ∃ pending, s.sendAsync socket buffer context added =
      ({ s with
          mPendingSendOps := Function.update s.mPendingSendOps socket (some pending)
          mStats := s.mStats.add }.addWrite socket added, .success) := by
  simp only [Provider.refuses, Bool.or_eq_false_iff, decide_eq_false_iff_not] at h
  obtain ⟨⟨⟨⟨hinit, hsocket⟩, hempty⟩, hsize⟩, hpending⟩ := h
  cases buffer with
  | none => cases hempty
  | some bytes =>
      simp only [Option.getD_some, List.isEmpty_eq_false_iff] at hempty hsize
      refine ⟨⟨context, bytes, UInt32.ofNat bytes.length⟩, ?_⟩
      simp only [Provider.sendAsync, hinit, hsocket, hempty, hsize, hpending, Bool.false_eq_true,
        or_self, if_false]

@[simp] theorem mPendingSendOps_addWrite (s : Provider) (socket : SocketHandle) (added : Bool) :
    (s.addWrite socket added).mPendingSendOps = s.mPendingSendOps := by
  cases added <;> rfl

end

/-- `SendAsync` is all or nothing exactly if it refuses the send before it records it, or
`kevent()` adds the filter. -/
theorem sendAtomic_iff (s : Provider) (socket : SocketHandle) (buffer : Option (List UInt8))
    (context : UInt64) (added : Bool) :
    SendAtomic s socket buffer context added ↔ s.refuses socket buffer = true ∨ added = true := by
  cases hrefuses : s.refuses socket buffer with
  | true =>
      obtain ⟨hfail, hops, hstats⟩ :=
        sendAsync_of_refuses context added hrefuses
      refine ⟨fun _ => Or.inl rfl, fun _ => ⟨fun h => absurd h hfail, fun _ => ⟨hops, hstats⟩,
        fun _ h => ?_⟩⟩
      rwa [hops] at h
  | false =>
      obtain ⟨pending, heq⟩ :=
        sendAsync_of_not_refuses context added hrefuses
      constructor
      · intro h
        exact Or.inr (h.registered (by rw [heq])).1
      · intro h
        have hadded : added = true := h.resolve_left (by simp)
        subst hadded
        refine ⟨fun _ => ⟨rfl, ?_⟩, fun h => absurd (by rw [heq]) h, fun h => by cases h⟩
        rw [heq]
        simp [Provider.addWrite]

/-- A send of one byte on a fresh provider, when `kevent()` fails. -/
theorem sendAsync_ignores_kevent :
    (Provider.sendAsync {} 3 (some [1]) 7 false).2 = .success ∧
      (Provider.sendAsync {} 3 (some [1]) 7 false).1.evfiltWrite 3 = false ∧
      (Provider.sendAsync {} 3 (some [1]) 7 false).1.mPendingSendOps 3 = some ⟨7, [1], 1⟩ ∧
      ¬ SendAtomic {} 3 (some [1]) 7 false := by
  refine ⟨by decide, by decide, by decide, fun h => ?_⟩
  exact absurd (h.registered (by decide)).1 (by decide)

/-! ## After a failure -/

/-- A call of `SendAsync`. -/
structure SendCall where
  socket : SocketHandle
  buffer : Option (List UInt8)
  context : UInt64
  added : Bool
  deriving DecidableEq, Repr

/-- The state and the answers after some calls of `SendAsync`. -/
def sends (s : Provider) : List SendCall → Provider × List (SendCall × AsyncIOError)
  | [] => (s, [])
  | c :: cs =>
      let r := s.sendAsync c.socket c.buffer c.context c.added
      ((sends r.1 cs).1, (c, r.2) :: (sends r.1 cs).2)

section
variable {s : Provider} {socket : SocketHandle}

/-- No send takes another one out of the map. -/
theorem isSome_of_sendAsync (h : (s.mPendingSendOps socket).isSome = true) (c : SendCall) :
    ((s.sendAsync c.socket c.buffer c.context c.added).1.mPendingSendOps socket).isSome = true := by
  cases hrefuses : s.refuses c.socket c.buffer with
  | true =>
      rw [(sendAsync_of_refuses _ _ hrefuses).2.1]
      exact h
  | false =>
      obtain ⟨pending, heq⟩ :=
        sendAsync_of_not_refuses c.context c.added hrefuses
      rw [heq]
      simp only [mPendingSendOps_addWrite, Function.update_apply]
      split
      · rfl
      · exact h

/-- While a send is pending, no other is accepted for its socket. -/
theorem sends_refused (h : (s.mPendingSendOps socket).isSome = true) (cs : List SendCall) :
    ∀ x ∈ (sends s cs).2, x.1.socket = socket → x.2 ≠ .success := by
  induction cs generalizing s with
  | nil => exact fun _ hx => absurd hx List.not_mem_nil
  | cons c cs ih =>
      intro x hx hsocket
      rcases List.mem_cons.mp hx with rfl | hx
      · subst hsocket
        have hrefuses : s.refuses c.socket c.buffer = true := by simp [Provider.refuses, h]
        exact (sendAsync_of_refuses _ _ hrefuses).1
      · exact ih (isSome_of_sendAsync h c) x hx hsocket

/-- A send whose filter could not be added shuts out every later send on its socket, on
whichever thread and whatever `kevent()` answers then. -/
theorem sends_refused_after_failure {buffer : Option (List UInt8)} {context : UInt64}
    (h : s.refuses socket buffer = false) (cs : List SendCall) :
    ∀ x ∈ (sends (s.sendAsync socket buffer context false).1 cs).2, x.1.socket = socket →
      x.2 ≠ .success := by
  obtain ⟨pending, heq⟩ := sendAsync_of_not_refuses context false h
  refine sends_refused ?_ cs
  rw [heq]
  simp

end

/-! ## The other request -/

/-- `RecvAsync` is all or nothing, whatever `kevent()` answers, if no other receive was
pending. -/
theorem recvAsync_atomic (s : Provider) (socket : SocketHandle) (buffer context : UInt64)
    (size : Nat) (added : Bool) (h : s.mPendingRecvOps socket = none) :
    ((s.recvAsync socket buffer size context added).2 = .success →
      (s.recvAsync socket buffer size context added).1.evfiltRead socket = true) ∧
    ((s.recvAsync socket buffer size context added).2 ≠ .success →
      (s.recvAsync socket buffer size context added).1 = s) := by
  unfold Provider.recvAsync
  split
  · exact ⟨(fun h => by cases h), fun _ => rfl⟩
  · split
    · exact ⟨(fun h => by cases h), fun _ => rfl⟩
    · cases added with
      | true => exact ⟨fun _ => by simp [Provider.addRead], fun h => absurd rfl h⟩
      | false =>
          refine ⟨(fun h => by cases h), fun _ => ?_⟩
          have hops : Function.update s.mPendingRecvOps socket none = s.mPendingRecvOps := by
            rw [← h]
            exact Function.update_eq_self socket s.mPendingRecvOps
          simp [ProviderStats.add, ProviderStats.rollback, hops]

end NetworkModule.Kqueue
