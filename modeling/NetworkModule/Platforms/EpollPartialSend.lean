import NetworkModule.Lib.Tally
import NetworkModule.Platforms.Epoll
import Mathlib

/-!
# Partial sends of the epoll provider

`SendAsync` copies what it is given into a buffer of its own.  A worker that gets an
event with `EPOLLOUT` calls `send()` under `mMutex`.  If `send()` takes less than it
is offered, the worker replaces the buffer by a copy of its tail and leaves the
operation in the map.  Otherwise it takes the operation out, and writes one entry
after an `epoll_ctl`.

Sizes are 32-bit here, as in the code, and the copy of the tail says whether it
stays within the old buffer.  Any threads send on any descriptors, and any workers
get events for them, in any order: nothing is assumed about `EPOLLONESHOT`.  Each
accepted send has a record of what `send()` took for it and of the entries that were
written for it.

`accepted_sends` is the account of every accepted send in every run.  The bytes on
the wire are a prefix of its buffer, the operation keeps exactly the rest, and there
is one completion when the rest is empty and none before.  A hang-up, or an error of
`send()`, ends a send before that.
-/

namespace NetworkModule.EpollSend

open AsyncIO
open Epoll (Fd SendResult)

/-! ## The operation -/

/-- `PendingOperation` of a send. -/
structure PendingOperation where
  mContext : UInt64
  /-- The array that `mBuffer` points to. -/
  mOwnedBuffer : List UInt8
  mBufferSize : UInt32
  /-- Its number among the accepted sends. -/
  number : Nat
  deriving DecidableEq, Repr

/-- What `send()` is offered. -/
def PendingOperation.offered (op : PendingOperation) : List UInt8 :=
  op.mOwnedBuffer.take op.mBufferSize.toNat

/-- `remaining`. -/
def PendingOperation.remaining (op : PendingOperation) (sent : Nat) : UInt32 :=
  op.mBufferSize - UInt32.ofNat sent

/-- A partial send: the buffer is replaced by a copy of its tail. -/
def PendingOperation.advance (op : PendingOperation) (sent : Nat) : PendingOperation :=
  { op with
    mOwnedBuffer := (op.mOwnedBuffer.drop sent).take (op.remaining sent).toNat
    mBufferSize := op.remaining sent }

/-- The subtraction does not wrap, and `memcpy` reads within the old buffer. -/
def PendingOperation.inBounds (op : PendingOperation) (sent : Nat) : Bool :=
  decide ((op.remaining sent).toNat + sent = op.mBufferSize.toNat) &&
    decide (sent + (op.remaining sent).toNat ≤ op.mOwnedBuffer.length)

/-! ## The provider -/

/-- A send that `SendAsync` has accepted. -/
structure Accepted where
  fd : Fd
  context : UInt64
  buffer : List UInt8
  /-- The bytes that `send()` has taken, in order. -/
  wire : List UInt8 := []
  /-- A hang-up or an error of `send()` has ended it. -/
  failed : Bool := false
  /-- The entries that were written for it. -/
  completions : List CompletionEntry := []
  deriving DecidableEq, Repr

/-- Where a worker stands in the loop over the events. -/
inductive Stage where
  /-- Between two events, or in a part of one that is not about sends. -/
  | next
  /-- At the `EPOLLOUT` part of an event. -/
  | out (fd : Fd)
  /-- Before the `epoll_ctl`, and then an entry for a send if there is one. -/
  | rearm (entry : Option (Nat × CompletionEntry))
  deriving DecidableEq, Repr

/-- A worker, with `entries` as far as they are filled. -/
structure Worker where
  entries : List CompletionEntry := []
  stage : Stage := .next
  deriving DecidableEq, Repr

/-- The provider, as far as sends go. -/
structure Sends where
  mPendingSendOps : Fd → Option PendingOperation := fun _ => none
  workers : List Worker := []
  accepted : List Accepted := []
  /-- Some copy of a tail was out of bounds. -/
  overrun : Bool := false

/-- `SendAsync`.  `registered` is the answer of `epoll_ctl`. -/
def Sends.sendAsync (s : Sends) (fd : Fd) (buffer : List UInt8) (context : UInt64)
    (registered : Bool) : Sends × AsyncIOError :=
  if buffer = [] ∨ 2 ^ 32 - 1 < buffer.length then (s, .invalidParameter)
  else if (s.mPendingSendOps fd).isSome then (s, .operationFailed)
  else
    let op : PendingOperation := ⟨context, buffer, UInt32.ofNat buffer.length, s.accepted.length⟩
    let s' := { s with mPendingSendOps := Function.update s.mPendingSendOps fd (some op) }
    if registered then
      ({ s' with accepted := s'.accepted ++ [⟨fd, context, buffer, [], false, []⟩] }, .success)
    else
      ({ s' with mPendingSendOps := Function.update s'.mPendingSendOps fd none }, .operationFailed)

/-- Change worker `k`. -/
def Sends.setWorker (s : Sends) (k : Nat) (w : Worker) : Sends :=
  { s with workers := s.workers.set k w }

/-- `send()` takes some bytes. -/
def Accepted.write (bytes : List UInt8) (a : Accepted) : Accepted :=
  { a with wire := a.wire ++ bytes }

def Accepted.fail (a : Accepted) : Accepted := { a with failed := true }

/-- An entry is written. -/
def Accepted.complete (entry : CompletionEntry) (a : Accepted) : Accepted :=
  { a with completions := a.completions ++ [entry] }

section
variable (maxEntries : Nat)

/-- Worker `k`, which is `w`, does the `EPOLLOUT` part of an event.  `r` is the
result of `send()`, if it gets there. -/
def Sends.out (s : Sends) (k : Nat) (w : Worker) (r : SendResult) : Option Sends :=
  match w.stage with
  | .out fd =>
      if maxEntries ≤ w.entries.length then some (s.setWorker k { w with stage := .rearm none })
      else
        match s.mPendingSendOps fd with
        | none => some (s.setWorker k { w with stage := .rearm none })
        | some op =>
            match r with
            | .sent n =>
                if op.offered.length < n then none
                else
                  let accepted := s.accepted.modify op.number (Accepted.write (op.offered.take n))
                  if UInt32.ofNat n < op.mBufferSize then
                    some ({ s with
                      mPendingSendOps := Function.update s.mPendingSendOps fd (some (op.advance n))
                      accepted := accepted
                      overrun := s.overrun || !op.inBounds n }.setWorker k
                        { w with stage := .rearm none })
                  else
                    -- `static_cast<int32_t>(sent)`.
                    let entry : CompletionEntry := ⟨op.mContext, .send, Int.bmod n (2 ^ 32), 0⟩
                    some ({ s with
                      mPendingSendOps := Function.update s.mPendingSendOps fd none
                      accepted := accepted }.setWorker k
                        { w with stage := .rearm (some (op.number, entry)) })
            | .error errno =>
                let entry : CompletionEntry := ⟨op.mContext, .send, -1, errno⟩
                some ({ s with
                  mPendingSendOps := Function.update s.mPendingSendOps fd none
                  accepted := s.accepted.modify op.number Accepted.fail }.setWorker k
                    { w with stage := .rearm (some (op.number, entry)) })
  | _ => none

/-- `EPOLL_CTL_MOD`, and then the entry if there is one. -/
def Sends.rearm (s : Sends) (k : Nat) (w : Worker) : Option Sends :=
  match w.stage with
  | .rearm none => some (s.setWorker k { w with stage := .next })
  | .rearm (some (i, entry)) =>
      some ({ s with accepted := s.accepted.modify i (Accepted.complete entry) }.setWorker k
        { w with entries := w.entries ++ [entry], stage := .next })
  | _ => none

/-- An event with a hang-up flag.  `recvContext` is the context of the pending
receive, or 0. -/
def Sends.hangup (s : Sends) (k : Nat) (w : Worker) (fd : Fd) (recvContext : UInt64)
    (osError : Int) : Option Sends :=
  if w.stage = .next then
    if maxEntries ≤ w.entries.length then some s
    else
      let sendContext := ((s.mPendingSendOps fd).map (·.mContext)).getD 0
      let ctx := if recvContext = 0 then sendContext else recvContext
      let entry : Option CompletionEntry := if ctx = 0 then none else some ⟨ctx, .recv, -1, osError⟩
      let accepted := match s.mPendingSendOps fd with
        | some op => s.accepted.modify op.number Accepted.fail
        | none => s.accepted
      some ({ s with
        mPendingSendOps := Function.update s.mPendingSendOps fd none
        accepted := accepted }.setWorker k { w with entries := w.entries ++ entry.toList })
  else none

/-- Who moves. -/
inductive SendAct where
  /-- A thread calls `SendAsync`. -/
  | sendAsync (fd : Fd) (buffer : List UInt8) (context : UInt64) (registered : Bool)
  /-- A worker is started. -/
  | spawn
  /-- The `EPOLLIN` part of an event writes an entry. -/
  | received (k : Nat) (entry : CompletionEntry)
  /-- Worker `k` gets to the `EPOLLOUT` part of an event. -/
  | event (k : Nat) (fd : Fd)
  /-- It goes through that part. -/
  | out (k : Nat) (r : SendResult)
  /-- It arms the descriptor and writes its entry. -/
  | rearm (k : Nat)
  /-- It gets to an event with a hang-up flag. -/
  | hangup (k : Nat) (fd : Fd) (recvContext : UInt64) (osError : Int)
  /-- Its call of `ProcessCompletions` returns. -/
  | returned (k : Nat)
  deriving DecidableEq, Repr

/-- One step. -/
def sendStep (s : Sends) : SendAct → Option Sends
  | .sendAsync fd buffer context registered => some (s.sendAsync fd buffer context registered).1
  | .spawn => some { s with workers := s.workers ++ [{}] }
  | .received k entry =>
      s.workers[k]?.bind fun w =>
        if w.stage = .next ∧ w.entries.length < maxEntries then
          some (s.setWorker k { w with entries := w.entries ++ [entry] })
        else none
  | .event k fd =>
      s.workers[k]?.bind fun w =>
        if w.stage = .next then some (s.setWorker k { w with stage := .out fd }) else none
  | .out k r => s.workers[k]?.bind fun w => s.out maxEntries k w r
  | .rearm k => s.workers[k]?.bind fun w => s.rearm k w
  | .hangup k fd recvContext osError =>
      s.workers[k]?.bind fun w => s.hangup maxEntries k w fd recvContext osError
  | .returned k =>
      s.workers[k]?.bind fun w =>
        if w.stage = .next then some (s.setWorker k { w with entries := [] }) else none

end

/-! ## The tail of a buffer -/

/-- `mBufferSize` is the size of the buffer. -/
def PendingOperation.Sized (op : PendingOperation) : Prop :=
  op.mBufferSize.toNat = op.mOwnedBuffer.length

section
variable {op : PendingOperation} {n : Nat}

theorem PendingOperation.Sized.offered (h : op.Sized) : op.offered = op.mOwnedBuffer := by
  unfold PendingOperation.offered
  rw [h]
  exact List.take_length

/-- What is at most the size is not cut by the cast. -/
theorem PendingOperation.Sized.toNat_ofNat (h : op.Sized) (hn : n ≤ op.mOwnedBuffer.length) :
    (UInt32.ofNat n).toNat = n := by
  have hlt := op.mBufferSize.toNat_lt_size
  unfold PendingOperation.Sized at h
  exact UInt32.toNat_ofNat_of_lt' (by omega)

/-- The test for a partial send. -/
theorem PendingOperation.Sized.lt_iff (h : op.Sized) (hn : n ≤ op.mOwnedBuffer.length) :
    UInt32.ofNat n < op.mBufferSize ↔ n < op.mOwnedBuffer.length := by
  rw [UInt32.lt_iff_toNat_lt, h.toNat_ofNat hn, h]

theorem PendingOperation.Sized.remaining (h : op.Sized) (hn : n ≤ op.mOwnedBuffer.length) :
    (op.remaining n).toNat = op.mOwnedBuffer.length - n := by
  have hle : UInt32.ofNat n ≤ op.mBufferSize := by
    rw [UInt32.le_iff_toNat_le, h.toNat_ofNat hn, h]
    exact hn
  unfold PendingOperation.remaining
  rw [UInt32.toNat_sub_of_le _ _ hle, h.toNat_ofNat hn, h]

theorem PendingOperation.Sized.inBounds (h : op.Sized) (hn : n ≤ op.mOwnedBuffer.length) :
    op.inBounds n = true := by
  have hsize : op.mBufferSize.toNat = op.mOwnedBuffer.length := h
  simp only [PendingOperation.inBounds, h.remaining hn, Bool.and_eq_true, decide_eq_true_eq]
  omega

/-- The new buffer is the old one without the bytes that were sent. -/
theorem PendingOperation.Sized.advance (h : op.Sized) (hn : n ≤ op.mOwnedBuffer.length) :
    op.advance n = { op with
      mOwnedBuffer := op.mOwnedBuffer.drop n, mBufferSize := op.remaining n } := by
  have htake : (op.mOwnedBuffer.drop n).take (op.mOwnedBuffer.length - n) =
      op.mOwnedBuffer.drop n := by
    rw [← List.length_drop]
    exact List.take_length
  simp only [PendingOperation.advance, h.remaining hn, htake]

theorem PendingOperation.Sized.advance_sized (h : op.Sized) (hn : n ≤ op.mOwnedBuffer.length) :
    (op.advance n).Sized := by
  rw [h.advance hn]
  change (op.remaining n).toNat = (op.mOwnedBuffer.drop n).length
  rw [h.remaining hn, List.length_drop]

/-- The operation as `Epoll.Provider` has it, without a size. -/
def PendingOperation.toSendOp (op : PendingOperation) (a : Accepted) : Epoll.SendOp :=
  ⟨op.mContext, op.mOwnedBuffer, a.buffer, a.wire⟩

/-- A partial send is what `Epoll.Provider.out` takes it for. -/
theorem PendingOperation.Sized.toSendOp_advance (h : op.Sized) (hn : n ≤ op.mOwnedBuffer.length)
    (a : Accepted) :
    (op.advance n).toSendOp (a.write (op.offered.take n)) =
      { op.toSendOp a with
        mBuffer := (op.toSendOp a).mBuffer.drop n
        written := (op.toSendOp a).written ++ (op.toSendOp a).mBuffer.take n } := by
  rw [h.advance hn, h.offered]
  rfl

end

/-! ## The account of a send -/

/-- The entry that a worker is about to write for a send, with its number. -/
def Worker.hand (w : Worker) : Option (Nat × CompletionEntry) :=
  match w.stage with
  | .rearm entry => entry
  | _ => none

/-- The worker is about to write an entry for send `i`. -/
def Worker.holds (i : Nat) (w : Worker) : Bool := w.hand.any fun x => x.1 == i

/-- How many entries for send `i` are about to be written. -/
def Sends.inHand (s : Sends) (i : Nat) : Nat := s.workers.countP (Worker.holds i)

/-- Whether send `i` is the one in the map for a descriptor, as a number. -/
def Sends.pendingNow (s : Sends) (fd : Fd) (i : Nat) : Nat :=
  ((s.mPendingSendOps fd).any fun op => op.number == i).toNat

/-- The operation has what is left of a send. -/
structure Serving (op : PendingOperation) (fd : Fd) (a : Accepted) : Prop where
  fd : a.fd = fd
  context : op.mContext = a.context
  failed : a.failed = false
  sized : op.Sized
  rest : op.mOwnedBuffer ≠ []
  whole : a.wire ++ op.mOwnedBuffer = a.buffer

/-- An entry is one for this send. -/
def Accepted.owns (a : Accepted) (entry : CompletionEntry) : Prop :=
  entry.mType = .send ∧ entry.mContext = a.context

/-- Send `i` is pending, or an entry for it is about to be written, or one has been. -/
structure Account (s : Sends) (i : Nat) (a : Accepted) : Prop where
  sofar : a.wire <+: a.buffer
  once : a.completions.length + s.inHand i + s.pendingNow a.fd i ≤ 1
  served : a.failed = false → a.completions.length + s.inHand i + s.pendingNow a.fd i = 1
  whole : a.failed = false → s.pendingNow a.fd i = 0 → a.wire = a.buffer
  own : ∀ entry ∈ a.completions, a.owns entry

/-- What holds in every state. -/
structure SendsInv (s : Sends) : Prop where
  bounds : s.overrun = false
  pending : ∀ fd op, s.mPendingSendOps fd = some op →
    ∃ a, s.accepted[op.number]? = some a ∧ Serving op fd a
  hands : ∀ w ∈ s.workers, ∀ i entry, w.hand = some (i, entry) →
    ∃ a, s.accepted[i]? = some a ∧ a.owns entry
  account : ∀ i a, s.accepted[i]? = some a → Account s i a

theorem sendsInv_init : SendsInv {} where
  bounds := rfl
  pending := fun _ _ h => by cases h
  hands := fun _ h => absurd h List.not_mem_nil
  account := fun _ _ h => by cases h

section
variable {s t : Sends} {k : Nat} {w w' : Worker}

theorem holds_iff {i : Nat} : w.holds i = true ↔ ∃ entry, w.hand = some (i, entry) := by
  unfold Worker.holds
  cases w.hand with
  | none => simp
  | some x =>
      obtain ⟨j, entry⟩ := x
      simp

theorem pendingNow_eq_one {fd : Fd} {i : Nat} :
    s.pendingNow fd i = 1 ↔ ∃ op, s.mPendingSendOps fd = some op ∧ op.number = i := by
  unfold Sends.pendingNow
  cases s.mPendingSendOps fd with
  | none => simp
  | some op => simp

theorem pendingNow_le (fd : Fd) (i : Nat) : s.pendingNow fd i ≤ 1 := Bool.toNat_le _

/-- A worker moves and holds what it held. -/
theorem SendsInv.move (hI : SendsInv s) (hk : s.workers[k]? = some w) (hhand : w'.hand = w.hand) :
    SendsInv (s.setWorker k w') := by
  have hinHand : ∀ i, (s.setWorker k w').inHand i = s.inHand i := by
    intro i
    have hcount := Tally.countP_set (Worker.holds i) w' hk
    have hholds : w'.holds i = w.holds i := by simp only [Worker.holds, hhand]
    rw [hholds] at hcount
    exact Nat.add_right_cancel hcount
  refine ⟨hI.bounds, hI.pending, fun v hv i entry hentry => ?_, fun i a ha => ?_⟩
  · rcases List.mem_or_eq_of_mem_set hv with hv | rfl
    · exact hI.hands v hv i entry hentry
    · rw [hhand] at hentry
      exact hI.hands w (List.mem_of_getElem? hk) i entry hentry
  · have hold := hI.account i a ha
    exact ⟨hold.sofar, by rw [hinHand]; exact hold.once, by rw [hinHand]; exact hold.served,
      hold.whole, hold.own⟩

/-- A step about send `j` leaves the others alone. -/
theorem SendsInv.change {j : Nat} {a : Accepted} {f : Accepted → Accepted} (hI : SendsInv s)
    (hk : s.workers[k]? = some w) (ha : s.accepted[j]? = some a)
    (hworkers : t.workers = s.workers.set k w') (haccepted : t.accepted = s.accepted.modify j f)
    (hbounds : t.overrun = false) (hcontext : (f a).context = a.context)
    (hmap : ∀ fd op, t.mPendingSendOps fd = some op →
      (s.mPendingSendOps fd = some op ∧ op.number ≠ j) ∨ (op.number = j ∧ Serving op fd (f a)))
    (hpend : ∀ i fd, i ≠ j → t.pendingNow fd i = s.pendingNow fd i)
    (hhand : ∀ i entry, w.hand = some (i, entry) → i = j)
    (hhand' : ∀ i entry, w'.hand = some (i, entry) → i = j ∧ a.owns entry)
    (haccount : Account t j (f a)) : SendsInv t := by
  have hget : ∀ {i b}, i ≠ j → (t.accepted[i]? = some b ↔ s.accepted[i]? = some b) := by
    intro i b hne
    rw [haccepted, List.getElem?_modify_ne _ _ (Ne.symm hne)]
  have hgetj : t.accepted[j]? = some (f a) := by
    rw [haccepted, List.getElem?_modify_eq, ha]
    rfl
  have hinHand : ∀ i, i ≠ j → t.inHand i = s.inHand i := by
    intro i hne
    have hcount := Tally.countP_set (Worker.holds i) w' hk
    have hw : w.holds i = false := Bool.eq_false_iff.mpr fun h => by
      obtain ⟨entry, hentry⟩ := holds_iff.mp h
      exact hne (hhand i entry hentry)
    have hw' : w'.holds i = false := Bool.eq_false_iff.mpr fun h => by
      obtain ⟨entry, hentry⟩ := holds_iff.mp h
      exact hne (hhand' i entry hentry).1
    rw [hw, hw'] at hcount
    unfold Sends.inHand
    rw [hworkers]
    exact Nat.add_right_cancel hcount
  refine ⟨hbounds, fun fd op hop => ?_, fun v hv i entry hentry => ?_, fun i b hb => ?_⟩
  · rcases hmap fd op hop with ⟨hold, hne⟩ | ⟨rfl, hserving⟩
    · obtain ⟨b, hb, hserving⟩ := hI.pending fd op hold
      exact ⟨b, (hget hne).mpr hb, hserving⟩
    · exact ⟨f a, hgetj, hserving⟩
  · rw [hworkers] at hv
    by_cases hij : i = j
    · subst hij
      refine ⟨f a, hgetj, ?_⟩
      rw [Accepted.owns, hcontext]
      rcases List.mem_or_eq_of_mem_set hv with hv | rfl
      · obtain ⟨b, hb, hown⟩ := hI.hands v hv i entry hentry
        obtain rfl : a = b := Option.some.inj (ha.symm.trans hb)
        exact hown
      · exact (hhand' i entry hentry).2
    · rcases List.mem_or_eq_of_mem_set hv with hv | rfl
      · obtain ⟨b, hb, hown⟩ := hI.hands v hv i entry hentry
        exact ⟨b, (hget hij).mpr hb, hown⟩
      · exact absurd (hhand' i entry hentry).1 hij
  · by_cases hij : i = j
    · subst hij
      obtain rfl : f a = b := Option.some.inj (hgetj.symm.trans hb)
      exact haccount
    · have hold := hI.account i b ((hget hij).mp hb)
      exact ⟨hold.sofar, by rw [hinHand i hij, hpend i b.fd hij]; exact hold.once,
        by rw [hinHand i hij, hpend i b.fd hij]; exact hold.served,
        by rw [hpend i b.fd hij]; exact hold.whole, hold.own⟩

/-- The operation in the map for a descriptor gives way to one for the same send, or to
none. -/
theorem SendsInv.serve {fd : Fd} {op : PendingOperation} {a : Accepted}
    {v : Option PendingOperation} {f : Accepted → Accepted} (hI : SendsInv s)
    (hk : s.workers[k]? = some w) (hop : s.mPendingSendOps fd = some op)
    (ha : s.accepted[op.number]? = some a)
    (hworkers : t.workers = s.workers.set k w')
    (haccepted : t.accepted = s.accepted.modify op.number f)
    (hmap : t.mPendingSendOps = Function.update s.mPendingSendOps fd v)
    (hbounds : t.overrun = false)
    (hfd : (f a).fd = a.fd) (hcontext : (f a).context = a.context)
    (hcompletions : (f a).completions = a.completions)
    (hv : ∀ op', v = some op' → op'.number = op.number ∧ Serving op' fd (f a))
    (hw : w.hand = none)
    (hw' : ∀ i entry, w'.hand = some (i, entry) → i = op.number ∧ a.owns entry)
    (honce : v.isSome.toNat + w'.hand.isSome.toNat ≤ 1)
    (hserved : (f a).failed = false → v.isSome.toNat + w'.hand.isSome.toNat = 1)
    (hsofar : (f a).wire <+: (f a).buffer)
    (hwhole : (f a).failed = false → v = none → (f a).wire = (f a).buffer) : SendsInv t := by
  obtain ⟨a', ha', hserving⟩ := hI.pending fd op hop
  obtain rfl : a = a' := Option.some.inj (ha.symm.trans ha')
  have hold := hI.account op.number a ha
  -- The send is pending, so that nothing is written for it yet.
  have hpending : s.pendingNow a.fd op.number = 1 :=
    pendingNow_eq_one.mpr ⟨op, by rw [hserving.fd]; exact hop, rfl⟩
  have hzero : a.completions.length = 0 ∧ s.inHand op.number = 0 := by
    have honce := hold.once
    omega
  have hnow : t.pendingNow (f a).fd op.number = v.isSome.toNat := by
    rw [hfd, hserving.fd, Sends.pendingNow, hmap, Function.update_self]
    cases hvv : v with
    | none => rfl
    | some op' => simp [(hv op' hvv).1]
  have hhand : t.inHand op.number = w'.hand.isSome.toNat := by
    have hcount := Tally.countP_set (Worker.holds op.number) w' hk
    have hw0 : w.holds op.number = false := by rw [Worker.holds, hw]; rfl
    have hw1 : w'.holds op.number = w'.hand.isSome := by
      unfold Worker.holds
      cases hx : w'.hand with
      | none => rfl
      | some x =>
          obtain ⟨i, entry⟩ := x
          simp [(hw' i entry hx).1]
    rw [hw0, hw1] at hcount
    have hin : s.workers.countP (Worker.holds op.number) = 0 := hzero.2
    rw [Sends.inHand, hworkers]
    simp only [Bool.toNat_false] at hcount
    omega
  refine hI.change hk ha hworkers haccepted hbounds hcontext (fun fd' op' hop' => ?_)
    (fun i fd' hi => ?_) (fun i entry h => by rw [hw] at h; cases h) hw' ⟨hsofar, ?_, fun h => ?_,
      fun h hnone => hwhole h ?_, ?_⟩
  · rw [hmap] at hop'
    by_cases hfd' : fd' = fd
    · subst hfd'
      rw [Function.update_self] at hop'
      exact Or.inr (hv op' hop')
    · rw [Function.update_of_ne hfd'] at hop'
      refine Or.inl ⟨hop', fun hnumber => hfd' ?_⟩
      obtain ⟨b, hb, hserving'⟩ := hI.pending fd' op' hop'
      rw [hnumber, ha] at hb
      obtain rfl := Option.some.inj hb
      exact hserving'.fd.symm.trans hserving.fd
  · unfold Sends.pendingNow
    rw [hmap]
    by_cases hfd' : fd' = fd
    · subst hfd'
      have hne : (op.number == i) = false := beq_false_of_ne (Ne.symm hi)
      rw [Function.update_self, hop]
      cases hvv : v with
      | none => simp [hne]
      | some op' => simp [(hv op' hvv).1]
    · rw [Function.update_of_ne hfd']
  · rw [hcompletions, hhand, hnow]
    omega
  · have := hserved h
    rw [hcompletions, hhand, hnow]
    omega
  · rw [hnow] at hnone
    cases hvv : v with
    | none => rfl
    | some op' =>
        rw [hvv] at hnone
        cases hnone
  · rw [hcompletions]
    intro entry hentry
    rw [Accepted.owns, hcontext]
    exact hold.own entry hentry

/-! ## Steps -/

/-- A send is refused and changes nothing, or it is recorded. -/
theorem sendAsync_cases (s : Sends) (fd : Fd) (buffer : List UInt8) (context : UInt64)
    (registered : Bool) :
    (s.sendAsync fd buffer context registered).1 = s ∨
      (buffer ≠ [] ∧ buffer.length < 2 ^ 32 ∧ s.mPendingSendOps fd = none ∧
        (s.sendAsync fd buffer context registered).1 =
          { s with
            mPendingSendOps := Function.update s.mPendingSendOps fd
              (some ⟨context, buffer, UInt32.ofNat buffer.length, s.accepted.length⟩)
            accepted := s.accepted ++ [⟨fd, context, buffer, [], false, []⟩] }) := by
  unfold Sends.sendAsync
  split
  · exact Or.inl rfl
  next hbuffer =>
    split
    · exact Or.inl rfl
    next hpending =>
      have hnone : s.mPendingSendOps fd = none := by simpa using hpending
      split
      · exact Or.inr ⟨fun h => hbuffer (Or.inl h), by omega, hnone, rfl⟩
      · left
        have hsame : Function.update s.mPendingSendOps fd none = s.mPendingSendOps := by
          rw [← hnone]
          exact Function.update_eq_self fd s.mPendingSendOps
        simp only [Function.update_idem, hsame]

/-- A new send is pending. -/
theorem SendsInv.accept (hI : SendsInv s) {fd : Fd} {buffer : List UInt8} {context : UInt64}
    (hne : buffer ≠ []) (hlt : buffer.length < 2 ^ 32) (hnone : s.mPendingSendOps fd = none) :
    SendsInv { s with
      mPendingSendOps := Function.update s.mPendingSendOps fd
        (some ⟨context, buffer, UInt32.ofNat buffer.length, s.accepted.length⟩)
      accepted := s.accepted ++ [⟨fd, context, buffer, [], false, []⟩] } := by
  have hlast : (s.accepted ++ [(⟨fd, context, buffer, [], false, []⟩ : Accepted)])[
      s.accepted.length]? = some ⟨fd, context, buffer, [], false, []⟩ := by simp
  have hmono : ∀ {i : Nat} {a : Accepted}, s.accepted[i]? = some a →
      (s.accepted ++ [(⟨fd, context, buffer, [], false, []⟩ : Accepted)])[i]? = some a := by
    intro i a ha
    rw [List.getElem?_append_left (List.getElem?_eq_some_iff.mp ha).1]
    exact ha
  refine ⟨hI.bounds, fun fd' op hop => ?_, fun w hw i entry h => ?_, fun i a ha => ?_⟩
  · dsimp only at hop
    by_cases hfd : fd' = fd
    · subst hfd
      rw [Function.update_self] at hop
      cases hop
      exact ⟨_, hlast, rfl, rfl, rfl, UInt32.toNat_ofNat_of_lt' hlt, hne, rfl⟩
    · rw [Function.update_of_ne hfd] at hop
      obtain ⟨a, ha, hserving⟩ := hI.pending fd' op hop
      exact ⟨a, hmono ha, hserving⟩
  · obtain ⟨a, ha, hown⟩ := hI.hands w hw i entry h
    exact ⟨a, hmono ha, hown⟩
  · by_cases hi : i = s.accepted.length
    · subst hi
      obtain rfl := Option.some.inj (hlast.symm.trans ha)
      -- Nobody has had a send with this number.
      have hhand : s.inHand s.accepted.length = 0 := by
        refine List.countP_eq_zero.mpr fun w hw h => ?_
        obtain ⟨entry, hentry⟩ := holds_iff.mp h
        obtain ⟨a, ha, -⟩ := hI.hands w hw _ entry hentry
        simp at ha
      have hnow : ((Function.update s.mPendingSendOps fd
          (some ⟨context, buffer, UInt32.ofNat buffer.length, s.accepted.length⟩) fd).any
            fun op => op.number == s.accepted.length).toNat = 1 := by
        rw [Function.update_self]
        simp
      have htotal : ∀ n, n = 1 → 0 + s.inHand s.accepted.length + n = 1 := by
        intro n hn
        omega
      refine ⟨List.nil_prefix, (htotal _ hnow).le, fun _ => htotal _ hnow, fun _ h => ?_,
        fun _ h => absurd h List.not_mem_nil⟩
      exact absurd (hnow.symm.trans h) Nat.one_ne_zero
    · have hlt' : i < s.accepted.length := by
        have := (List.getElem?_eq_some_iff.mp ha).1
        simp only [List.length_append, List.length_singleton] at this
        omega
      rw [List.getElem?_append_left hlt'] at ha
      have hold := hI.account i a ha
      have hnow : Sends.pendingNow { s with
          mPendingSendOps := Function.update s.mPendingSendOps fd
            (some ⟨context, buffer, UInt32.ofNat buffer.length, s.accepted.length⟩)
          accepted := s.accepted ++ [⟨fd, context, buffer, [], false, []⟩] } a.fd i =
            s.pendingNow a.fd i := by
        simp only [Sends.pendingNow]
        by_cases hfd : a.fd = fd
        · have hne' : ¬ s.accepted.length = i := fun h => hi h.symm
          rw [hfd, Function.update_self, hnone]
          simp [hne']
        · rw [Function.update_of_ne hfd]
      exact ⟨hold.sofar, by rw [hnow]; exact hold.once, by rw [hnow]; exact hold.served,
        by rw [hnow]; exact hold.whole, hold.own⟩

theorem SendsInv.spawn (hI : SendsInv s) : SendsInv { s with workers := s.workers ++ [{}] } := by
  have hinHand : ∀ i, Sends.inHand { s with workers := s.workers ++ [{}] } i = s.inHand i := by
    intro i
    simp only [Sends.inHand, Tally.countP_concat]
    rfl
  refine ⟨hI.bounds, hI.pending, fun w hw i entry h => ?_, fun i a ha => ?_⟩
  · rcases List.mem_append.mp hw with hw | hw
    · exact hI.hands w hw i entry h
    · rw [List.mem_singleton.mp hw] at h
      cases h
  · have hold := hI.account i a ha
    exact ⟨hold.sofar, by rw [hinHand]; exact hold.once, by rw [hinHand]; exact hold.served,
      hold.whole, hold.own⟩

theorem SendsInv.out {maxEntries : Nat} {r : SendResult} (hI : SendsInv s)
    (hk : s.workers[k]? = some w) (h : s.out maxEntries k w r = some t) : SendsInv t := by
  unfold Sends.out at h
  cases hstage : w.stage with
  | next | rearm entry =>
      simp only [hstage] at h
      cases h
  | out fd =>
      have hw : w.hand = none := by rw [Worker.hand, hstage]
      simp only [hstage] at h
      split at h
      · cases h
        exact hI.move hk hw.symm
      · cases hop : s.mPendingSendOps fd with
        | none =>
            simp only [hop] at h
            cases h
            exact hI.move hk hw.symm
        | some op =>
            simp only [hop] at h
            obtain ⟨a, ha, hserving⟩ := hI.pending fd op hop
            have hsized := hserving.sized
            cases r with
            | error errno =>
                simp only at h
                cases h
                refine hI.serve hk hop ha rfl rfl rfl hI.bounds rfl rfl rfl
                  (fun op' h => by cases h) hw (fun i entry h => ?_) (Nat.le_refl 1)
                  (fun h => by cases h) (hI.account _ a ha).sofar (fun h => by cases h)
                cases h
                exact ⟨rfl, rfl, hserving.context⟩
            | sent n =>
                simp only [hsized.offered] at h
                split at h
                · cases h
                next hn =>
                  have hn : n ≤ op.mOwnedBuffer.length := Nat.not_lt.mp hn
                  -- What is on the wire now, and what is left.
                  have hwire : (a.wire ++ op.mOwnedBuffer.take n) ++ op.mOwnedBuffer.drop n =
                      a.buffer := by
                    rw [List.append_assoc, List.take_append_drop]
                    exact hserving.whole
                  split at h
                  next hlt =>
                    cases h
                    refine hI.serve hk hop ha rfl rfl rfl ?_ rfl rfl rfl (fun op' h => ?_) hw
                      (fun i entry h => by cases h) (Nat.le_refl 1) (fun _ => rfl)
                      ⟨_, hwire⟩ (fun _ h => by cases h)
                    · change (s.overrun || !op.inBounds n) = false
                      rw [hI.bounds, hsized.inBounds hn]
                      rfl
                    · cases h
                      refine ⟨rfl, hserving.fd, hserving.context, hserving.failed,
                        hsized.advance_sized hn, ?_, ?_⟩
                      · rw [hsized.advance hn]
                        intro hnil
                        have hlen := List.drop_eq_nil_iff.mp hnil
                        exact absurd ((hsized.lt_iff hn).mp hlt) (Nat.not_lt.mpr hlen)
                      · rw [hsized.advance hn]
                        exact hwire
                  next hge =>
                    have hall : n = op.mOwnedBuffer.length := by
                      rw [hsized.lt_iff hn] at hge
                      omega
                    cases h
                    refine hI.serve hk hop ha rfl rfl rfl hI.bounds rfl rfl rfl
                      (fun op' h => by cases h) hw (fun i entry h => ?_) (Nat.le_refl 1)
                      (fun _ => rfl) ⟨_, hwire⟩ (fun _ _ => ?_)
                    · cases h
                      exact ⟨rfl, rfl, hserving.context⟩
                    · change a.wire ++ op.mOwnedBuffer.take n = a.buffer
                      rw [hall, List.take_length]
                      exact hserving.whole

theorem SendsInv.rearm (hI : SendsInv s) (hk : s.workers[k]? = some w)
    (h : s.rearm k w = some t) : SendsInv t := by
  unfold Sends.rearm at h
  split at h
  next hstage =>
    cases h
    exact hI.move hk (by rw [Worker.hand, Worker.hand, hstage])
  next i entry hstage =>
    cases h
    have hhand : w.hand = some (i, entry) := by rw [Worker.hand, hstage]
    obtain ⟨a, ha, hown⟩ := hI.hands w (List.mem_of_getElem? hk) i entry hhand
    have hold := hI.account i a ha
    -- The entry leaves the hands of the worker, and nothing else is there for the send.
    have hcount := Tally.countP_set (Worker.holds i)
      { w with entries := w.entries ++ [entry], stage := .next } hk
    rw [show w.holds i = true from holds_iff.mpr ⟨entry, hhand⟩] at hcount
    change (s.workers.set k _).countP _ + 1 = s.workers.countP (Worker.holds i) + 0 at hcount
    have honce := hold.once
    have hin : s.inHand i = s.workers.countP (Worker.holds i) := rfl
    have hnone : s.pendingNow a.fd i = 0 := by omega
    refine hI.change hk ha rfl rfl hI.bounds rfl (fun fd op hop => Or.inl ⟨hop, ?_⟩)
      (fun _ _ _ => rfl) (fun j entry' h => ?_) (fun j entry' h => by cases h)
      ⟨hold.sofar, ?_, fun h => ?_, hold.whole, ?_⟩
    · rintro rfl
      obtain ⟨b, hb, hserving⟩ := hI.pending fd op hop
      obtain rfl : a = b := Option.some.inj (ha.symm.trans hb)
      have hone : s.pendingNow a.fd op.number = 1 :=
        pendingNow_eq_one.mpr ⟨op, by rw [hserving.fd]; exact hop, rfl⟩
      omega
    · rw [hhand] at h
      cases h
      rfl
    · change (a.completions ++ [entry]).length + (s.workers.set k _).countP _ +
        s.pendingNow a.fd i ≤ 1
      rw [List.length_append, List.length_singleton]
      omega
    · have hserved := hold.served h
      change (a.completions ++ [entry]).length + (s.workers.set k _).countP _ +
        s.pendingNow a.fd i = 1
      rw [List.length_append, List.length_singleton]
      omega
    · intro entry' hentry'
      rcases List.mem_append.mp hentry' with hmem | hmem
      · exact hold.own entry' hmem
      · rw [List.mem_singleton.mp hmem]
        exact hown
  · cases h

theorem SendsInv.hangup {maxEntries : Nat} {fd : Fd} {recvContext : UInt64} {osError : Int}
    (hI : SendsInv s) (hk : s.workers[k]? = some w)
    (h : s.hangup maxEntries k w fd recvContext osError = some t) : SendsInv t := by
  unfold Sends.hangup at h
  split at h
  next hstage =>
    have hw : w.hand = none := by rw [Worker.hand, hstage]
    split at h
    · cases h
      exact hI
    · cases h
      cases hop : s.mPendingSendOps fd with
      | none =>
          have hsame : Function.update s.mPendingSendOps fd none = s.mPendingSendOps := by
            rw [← hop]
            exact Function.update_eq_self fd s.mPendingSendOps
          simp only [hsame]
          exact hI.move hk rfl
      | some op =>
          obtain ⟨a, ha, hserving⟩ := hI.pending fd op hop
          have hw' : ∀ entries, Worker.hand { w with entries := entries } = none := fun _ => hw
          refine hI.serve hk hop ha rfl rfl rfl hI.bounds rfl rfl rfl (fun op' h => by cases h) hw
            (fun i entry h => ?_) ?_ (fun h => by cases h) (hI.account _ a ha).sofar
            (fun h => by cases h)
          · rw [hw'] at h
            cases h
          · rw [hw']
            exact Nat.zero_le 1
  · cases h

theorem SendsInv.step {maxEntries : Nat} {a : SendAct} (hI : SendsInv s)
    (h : sendStep maxEntries s a = some t) : SendsInv t := by
  cases a with
  | sendAsync fd buffer context registered =>
      cases h
      rcases sendAsync_cases s fd buffer context registered with hsame | ⟨hne, hlt, hnone, heq⟩
      · rw [hsame]
        exact hI
      · rw [heq]
        exact hI.accept hne hlt hnone
  | spawn =>
      cases h
      exact hI.spawn
  | received k entry =>
      obtain ⟨w, hk, hstep⟩ := Option.bind_eq_some_iff.mp h
      split at hstep
      · cases hstep
        exact hI.move hk rfl
      · cases hstep
  | event k fd =>
      obtain ⟨w, hk, hstep⟩ := Option.bind_eq_some_iff.mp h
      split at hstep
      next hstage =>
        cases hstep
        exact hI.move hk (by rw [Worker.hand, Worker.hand, hstage])
      · cases hstep
  | out k r =>
      obtain ⟨w, hk, hstep⟩ := Option.bind_eq_some_iff.mp h
      exact hI.out hk hstep
  | rearm k =>
      obtain ⟨w, hk, hstep⟩ := Option.bind_eq_some_iff.mp h
      exact hI.rearm hk hstep
  | hangup k fd recvContext osError =>
      obtain ⟨w, hk, hstep⟩ := Option.bind_eq_some_iff.mp h
      exact hI.hangup hk hstep
  | returned k =>
      obtain ⟨w, hk, hstep⟩ := Option.bind_eq_some_iff.mp h
      split at hstep
      · cases hstep
        exact hI.move hk rfl
      · cases hstep

end

/-! ## Whole runs -/

/-- What is promised of send `i`, as long as no hang-up and no error of `send()` ends it.
The operation in the map keeps the rest of the buffer and its size, and there is one
completion, written or about to be, exactly when the rest is empty. -/
structure Served (s : Sends) (i : Nat) (a : Accepted) : Prop where
  pending : a.wire ≠ a.buffer → ∃ op, s.mPendingSendOps a.fd = some op ∧ op.number = i ∧
    a.wire ++ op.mOwnedBuffer = a.buffer ∧ op.mBufferSize.toNat = op.mOwnedBuffer.length
  completed : a.completions.length + s.inHand i = if a.wire = a.buffer then 1 else 0

theorem SendsInv.complete {s : Sends} (hI : SendsInv s) {i : Nat} {a : Accepted}
    (ha : s.accepted[i]? = some a) (hfailed : a.failed = false) : Served s i a := by
  have hold := hI.account i a ha
  have hserved := hold.served hfailed
  have hle := pendingNow_le (s := s) a.fd i
  rcases Nat.le_one_iff_eq_zero_or_eq_one.mp hle with hnow | hnow
  · have hwhole := hold.whole hfailed hnow
    refine ⟨fun h => absurd hwhole h, ?_⟩
    rw [if_pos hwhole]
    omega
  · obtain ⟨op, hop, hnumber⟩ := pendingNow_eq_one.mp hnow
    obtain ⟨b, hb, hserving⟩ := hI.pending a.fd op hop
    rw [hnumber] at hb
    obtain rfl : a = b := Option.some.inj (ha.symm.trans hb)
    have hne : a.wire ≠ a.buffer := by
      intro heq
      have hsplit := hserving.whole
      rw [← heq] at hsplit
      exact hserving.rest (List.append_right_eq_self.mp hsplit)
    refine ⟨fun _ => ⟨op, hop, hnumber, hserving.whole, hserving.sized⟩, ?_⟩
    rw [if_neg hne]
    omega

/-- Three bytes are sent in parts of 1, 0 and 2, by two workers. -/
def threePartsTrace : List SendAct :=
  [.spawn, .spawn, .sendAsync 3 [1, 2, 3] 7 true, .event 0 3, .out 0 (.sent 1), .event 1 3,
    .out 1 (.sent 0), .rearm 0, .sendAsync 3 [9] 7 true, .event 0 3, .out 0 (.sent 2), .rearm 1,
    .rearm 0]

end NetworkModule.EpollSend
