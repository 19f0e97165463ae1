import NetworkModule.Lib.Machine
import NetworkModule.Platforms.AsyncIOProvider
import Mathlib

/-!
# The epoll provider

`EpollAsyncIOProvider` keeps at most one pending receive and one pending send for
each descriptor, in two maps under `mMutex`.  A descriptor is registered with
epoll under `EPOLLONESHOT`: an event disarms it, and an `EPOLL_CTL_MOD` arms it
again, with the interest it names and no other.  The interest always has
`EPOLLIN`, and some calls add `EPOLLOUT`.

Any number of workers call `ProcessCompletions`.  A worker gets a batch of events
and works it off event by event.  What it does under `mMutex` is one step, and so
is each system call it makes outside.  `SendAsync` and `RecvAsync` hold `mMutex`
from the insertion into the map to the `epoll_ctl`, and since nobody looks at the
maps without it, each is one step.
-/

namespace NetworkModule.Epoll

open AsyncIO

/-! ## The provider -/

/-- `SocketHandle`. -/
abbrev Fd := Nat

/-- What epoll knows of a descriptor. -/
inductive Interest where
  /-- It is not registered. -/
  | absent
  /-- An event has been reported and the descriptor not been armed since. -/
  | disarmed
  /-- It is armed, with `EPOLLOUT` or without. -/
  | armed (epollout : Bool)
  deriving DecidableEq, Repr

/-- An `epoll_event`. -/
structure Event where
  fd : Fd
  epollin : Bool
  epollout : Bool
  /-- `EPOLLERR`. -/
  epollerr : Bool
  /-- `EPOLLHUP` or `EPOLLRDHUP`. -/
  epollhup : Bool
  deriving DecidableEq, Repr

/-- `PendingOperation` of a receive. -/
structure RecvOp where
  mContext : UInt64
  /-- The session whose receive buffer `mBuffer` is. -/
  mBuffer : UInt64
  mBufferSize : Nat
  deriving DecidableEq, Repr

/-- `PendingOperation` of a send. -/
structure SendOp where
  mContext : UInt64
  /-- The bytes still to send. -/
  mBuffer : List UInt8
  /-- The bytes `SendAsync` was given. -/
  given : List UInt8
  /-- The bytes that `send()` has taken. -/
  written : List UInt8
  deriving DecidableEq, Repr

/-- Where a worker stands in `ProcessCompletions`. -/
inductive Stage where
  /-- Outside.  The entries of the last call are there to be handled. -/
  | returned
  /-- At the head of the loop over the events. -/
  | next
  /-- `EPOLLIN`: taking the pending receive. -/
  | takeRecv (e : Event)
  /-- Calling `recv()`. -/
  | recv (e : Event) (op : RecvOp)
  /-- `recv()` would block.  Putting the receive back. -/
  | putBack (e : Event) (op : RecvOp)
  /-- `EPOLLOUT`: calling `send()` for the pending send. -/
  | out (e : Event)
  /-- `EPOLL_CTL_MOD`, and then an entry to write if there is one. -/
  | rearm (fd : Fd) (epollout : Bool) (entry : Option CompletionEntry)
  deriving DecidableEq, Repr

/-- A worker. -/
structure Worker where
  /-- The events that it has not begun. -/
  events : List Event := []
  /-- `entries`, as far as they are filled. -/
  entries : List CompletionEntry := []
  stage : Stage := .returned
  deriving DecidableEq, Repr

/-- A send that has left `mPendingSendOps`, with the entry about it. -/
structure Finished where
  op : SendOp
  entry : CompletionEntry
  deriving DecidableEq, Repr

/-- The provider, its workers, and a history of the sends. -/
structure Provider where
  mPendingRecvOps : Fd → Option RecvOp := fun _ => none
  mPendingSendOps : Fd → Option SendOp := fun _ => none
  interest : Fd → Interest := fun _ => .absent
  workers : List Worker := []
  /-- The sends that have left the map, in order. -/
  finished : List Finished := []
  /-- The entries that were written for sends, in order. -/
  reported : List CompletionEntry := []

/-- `epoll_ctl` with `EPOLL_CTL_MOD`. -/
def Provider.ctlMod (s : Provider) (fd : Fd) (epollout : Bool) : Option Provider :=
  match s.interest fd with
  | .absent => none
  | _ => some { s with interest := Function.update s.interest fd (.armed epollout) }

/-- `AssociateSocket`. -/
def Provider.associateSocket (s : Provider) (fd : Fd) : Provider × AsyncIOError :=
  match s.interest fd with
  | .absent => ({ s with interest := Function.update s.interest fd (.armed false) }, .success)
  | _ => (s, .operationFailed)

/-- `SendAsync`. -/
def Provider.sendAsync (s : Provider) (fd : Fd) (buffer : List UInt8) (context : UInt64) :
    Provider × AsyncIOError :=
  if buffer = [] ∨ 2 ^ 32 - 1 < buffer.length then (s, .invalidParameter)
  else if (s.mPendingSendOps fd).isSome then (s, .operationFailed)
  else
    let s' := { s with
      mPendingSendOps := Function.update s.mPendingSendOps fd (some ⟨context, buffer, buffer, []⟩) }
    match s'.ctlMod fd true with
    | some s'' => (s'', .success)
    | none =>
        ({ s' with mPendingSendOps := Function.update s'.mPendingSendOps fd none }, .operationFailed)

/-- `RecvAsync`. -/
def Provider.recvAsync (s : Provider) (fd : Fd) (buffer : UInt64) (size : Nat)
    (context : UInt64) : Provider × AsyncIOError :=
  if size = 0 then (s, .invalidParameter)
  else
    let s' := { s with
      mPendingRecvOps := Function.update s.mPendingRecvOps fd (some ⟨context, buffer, size⟩) }
    match s'.ctlMod fd false with
    | some s'' => (s'', .success)
    | none =>
        ({ s' with mPendingRecvOps := Function.update s'.mPendingRecvOps fd none }, .operationFailed)

/-! ## The workers -/

/-- The result of `recv()`. -/
inductive RecvResult where
  | data (bytes : List UInt8)
  /-- `EAGAIN` or `EWOULDBLOCK`. -/
  | wouldBlock
  | error (errno : Int)
  deriving DecidableEq, Repr

/-- The result of `send()`. -/
inductive SendResult where
  | sent (n : Nat)
  | error (errno : Int)
  deriving DecidableEq, Repr

/-- `EAGAIN`. -/
def eagain : Int := 11

/-- `EIO`. -/
def eio : Int := 5

/-- Change worker `k`. -/
def Provider.setWorker (s : Provider) (k : Nat) (w : Worker) : Provider :=
  { s with workers := s.workers.set k w }

/-- After the `EPOLLIN` part of an event. -/
def afterIn (e : Event) : Stage := if e.epollout then .out e else .next

/-- An error or hangup event: both pending operations are dropped and one entry
is written, if there was one. -/
def Provider.hangup (s : Provider) (e : Event) : Provider × Option CompletionEntry :=
  let recvContext := ((s.mPendingRecvOps e.fd).map (·.mContext)).getD 0
  let ctx := if recvContext = 0 then ((s.mPendingSendOps e.fd).map (·.mContext)).getD 0
    else recvContext
  ({ s with
      mPendingRecvOps := Function.update s.mPendingRecvOps e.fd none
      mPendingSendOps := Function.update s.mPendingSendOps e.fd none },
    if ctx = 0 then none else some ⟨ctx, .recv, -1, if e.epollerr then eio else 0⟩)

section
variable (maxEntries : Nat)

/-- A step of worker `k`, which is `w`, without a result of a system call. -/
def Provider.workerStep (s : Provider) (k : Nat) (w : Worker) : Option Provider :=
  match w.stage with
  | .next =>
      match w.events with
      | [] => some (s.setWorker k { w with stage := .returned })
      | e :: rest =>
          let w := { w with events := rest }
          if maxEntries ≤ w.entries.length then
            some (s.setWorker k { w with stage := .rearm e.fd e.epollout none })
          else if e.epollerr || e.epollhup then
            let r := s.hangup e
            some (r.1.setWorker k { w with entries := w.entries ++ r.2.toList })
          else if e.epollin then some (s.setWorker k { w with stage := .takeRecv e })
          else some (s.setWorker k { w with stage := afterIn e })
  | .takeRecv e =>
      match s.mPendingRecvOps e.fd with
      | some op =>
          some ({ s with mPendingRecvOps := Function.update s.mPendingRecvOps e.fd none }.setWorker k
            { w with stage := .recv e op })
      | none => some (s.setWorker k { w with stage := afterIn e })
  | .putBack e op =>
      some ({ s with mPendingRecvOps := Function.update s.mPendingRecvOps e.fd (some op) }.setWorker k
        { w with stage := .rearm e.fd false none })
  | .rearm fd epollout entry =>
      -- A failing `epoll_ctl` is not acted on.
      let s' := (s.ctlMod fd epollout).getD s
      some ({ s' with reported := s'.reported ++ entry.toList }.setWorker k
        { w with entries := w.entries ++ entry.toList, stage := .next })
  | _ => none

/-- Worker `k`, which is `w`, calls `recv()`. -/
def Provider.recv (s : Provider) (k : Nat) (w : Worker) (r : RecvResult) : Option Provider :=
  match w.stage with
  | .recv e op =>
      match r with
      | .data bytes =>
          if bytes.length ≤ op.mBufferSize then
            some (s.setWorker k { w with
              entries := w.entries ++ [⟨op.mContext, .recv, bytes.length, 0⟩]
              stage := afterIn e })
          else none
      | .wouldBlock => some (s.setWorker k { w with stage := .putBack e op })
      | .error errno =>
          some (s.setWorker k { w with
            entries := w.entries ++ [⟨op.mContext, .recv, -1, errno⟩]
            stage := .next })
  | _ => none

/-- A send leaves `mPendingSendOps`. -/
def Provider.finish (s : Provider) (fd : Fd) (f : Finished) : Provider :=
  { s with
    mPendingSendOps := Function.update s.mPendingSendOps fd none
    finished := s.finished ++ [f] }

/-- Worker `k`, which is `w`, does the `EPOLLOUT` part of an event.  `r` is the
result of `send()`, if it gets there. -/
def Provider.out (s : Provider) (k : Nat) (w : Worker) (r : SendResult) : Option Provider :=
  match w.stage with
  | .out e =>
      if maxEntries ≤ w.entries.length then
        some (s.setWorker k { w with stage := .rearm e.fd true none })
      else
        match s.mPendingSendOps e.fd with
        | none => some (s.setWorker k { w with stage := .rearm e.fd false none })
        | some op =>
            match r with
            | .sent n =>
                let op' := { op with
                  mBuffer := op.mBuffer.drop n, written := op.written ++ op.mBuffer.take n }
                if n < op.mBuffer.length then
                  some ({ s with
                    mPendingSendOps := Function.update s.mPendingSendOps e.fd (some op') }.setWorker k
                      { w with stage := .rearm e.fd true none })
                else if n = op.mBuffer.length then
                  let entry : CompletionEntry := ⟨op.mContext, .send, n, 0⟩
                  some ((s.finish e.fd ⟨op', entry⟩).setWorker k
                    { w with stage := .rearm e.fd false (some entry) })
                else none
            | .error errno =>
                let entry : CompletionEntry := ⟨op.mContext, .send, -1, errno⟩
                some ((s.finish e.fd ⟨op, entry⟩).setWorker k
                  { w with stage := .rearm e.fd false (some entry) })
  | _ => none

/-- The kernel may report an event: its descriptor is armed, and `EPOLLOUT` is
reported only where it was asked for. -/
def Provider.reportable (s : Provider) (e : Event) : Bool :=
  match s.interest e.fd with
  | .armed epollout =>
      (!e.epollout || epollout) && (e.epollin || e.epollout || e.epollerr || e.epollhup)
  | _ => false

/-- `epoll_wait` returns some events to worker `k`, and their descriptors are
disarmed. -/
def Provider.epollWait (s : Provider) (k : Nat) (w : Worker) (events : List Event) :
    Option Provider :=
  if w.stage = .returned ∧ w.entries = [] ∧ events.length ≤ maxEntries ∧
      (events.map Event.fd).Nodup ∧ ∀ e ∈ events, s.reportable e = true then
    some ({ s with
      interest := fun fd => if fd ∈ events.map Event.fd then .disarmed else s.interest fd }.setWorker
        k { w with events := events, stage := .next })
  else none

/-! ## Steps -/

/-- Who moves. -/
inductive ProviderAct where
  /-- `AssociateSocket`. -/
  | associate (fd : Fd)
  /-- A thread calls `SendAsync`. -/
  | sendAsync (fd : Fd) (buffer : List UInt8) (context : UInt64)
  /-- A thread calls `RecvAsync`. -/
  | recvAsync (fd : Fd) (buffer : UInt64) (size : Nat) (context : UInt64)
  /-- A worker is started. -/
  | spawn
  /-- `epoll_wait` returns events to worker `k`. -/
  | epollWait (k : Nat) (events : List Event)
  /-- Worker `k` takes a step. -/
  | worker (k : Nat)
  /-- Worker `k` calls `recv()`. -/
  | recv (k : Nat) (r : RecvResult)
  /-- Worker `k` does the `EPOLLOUT` part of an event. -/
  | out (k : Nat) (r : SendResult)
  /-- The caller of `ProcessCompletions` on worker `k` is done with the first
  entry. -/
  | handled (k : Nat)
  deriving DecidableEq, Repr

/-- One step of the provider. -/
def providerStep (s : Provider) : ProviderAct → Option Provider
  | .associate fd => some (s.associateSocket fd).1
  | .sendAsync fd buffer context => some (s.sendAsync fd buffer context).1
  | .recvAsync fd buffer size context => some (s.recvAsync fd buffer size context).1
  | .spawn => some { s with workers := s.workers ++ [{}] }
  | .epollWait k events => s.workers[k]?.bind fun w => s.epollWait maxEntries k w events
  | .worker k => s.workers[k]?.bind fun w => s.workerStep maxEntries k w
  | .recv k r => s.workers[k]?.bind fun w => s.recv k w r
  | .out k r => s.workers[k]?.bind fun w => s.out maxEntries k w r
  | .handled k =>
      s.workers[k]?.bind fun w =>
        match w.stage, w.entries with
        | .returned, _ :: rest => some (s.setWorker k { w with entries := rest })
        | _, _ => none

end

/-! ## What the requests do -/

section
variable {s : Provider} {fd : Fd} {context : UInt64}

theorem ctlMod_of_absent {b : Bool} (h : s.interest fd = .absent) : s.ctlMod fd b = none := by
  simp [Provider.ctlMod, h]

theorem ctlMod_of_ne {b : Bool} (h : s.interest fd ≠ .absent) :
    s.ctlMod fd b = some { s with interest := Function.update s.interest fd (.armed b) } := by
  unfold Provider.ctlMod
  split
  next hab => exact absurd hab h
  · rfl

/-- An `EPOLL_CTL_MOD` whose result is not looked at. -/
theorem ctlMod_getD (s : Provider) (fd : Fd) (b : Bool) :
    (s.ctlMod fd b).getD s = { s with
      interest := if s.interest fd = .absent then s.interest
        else Function.update s.interest fd (.armed b) } := by
  by_cases hab : s.interest fd = .absent
  · rw [ctlMod_of_absent hab, if_pos hab]
    rfl
  · rw [ctlMod_of_ne hab, if_neg hab]
    rfl

/-- Associating a descriptor registers it, or fails and changes nothing. -/
theorem associateSocket_cases (s : Provider) (fd : Fd) :
    s.associateSocket fd = (s, .operationFailed) ∨
      s.associateSocket fd =
        ({ s with interest := Function.update s.interest fd (.armed false) }, .success) := by
  unfold Provider.associateSocket
  split
  · exact Or.inr rfl
  · exact Or.inl rfl

/-- A send is refused and changes nothing, or it is recorded and the descriptor
armed with `EPOLLOUT`. -/
theorem sendAsync_cases (s : Provider) (fd : Fd) (buffer : List UInt8) (context : UInt64) :
    (s.sendAsync fd buffer context).1 = s ∨
      (buffer ≠ [] ∧ s.mPendingSendOps fd = none ∧ s.interest fd ≠ .absent ∧
        s.sendAsync fd buffer context =
          ({ s with
              mPendingSendOps := Function.update s.mPendingSendOps fd
                (some ⟨context, buffer, buffer, []⟩)
              interest := Function.update s.interest fd (.armed true) }, .success)) := by
  unfold Provider.sendAsync
  split
  · exact Or.inl rfl
  next hbuffer =>
    split
    · exact Or.inl rfl
    next hfree =>
      have hnone : s.mPendingSendOps fd = none := by simpa using hfree
      by_cases hab : s.interest fd = .absent
      · left
        simp only [Provider.ctlMod, hab, Function.update_idem]
        rw [← hnone, Function.update_eq_self]
      · right
        refine ⟨fun hnil => hbuffer (Or.inl hnil), hnone, hab, ?_⟩
        have hctl := fun ops => ctlMod_of_ne (s := { s with mPendingSendOps := ops }) (b := true) hab
        simp only [hctl]

/-- A receive replaces what was recorded for the descriptor, and where that is
registered it is armed without `EPOLLOUT`.  Otherwise the record is erased. -/
theorem recvAsync_cases (s : Provider) (fd : Fd) (buffer : UInt64) (size : Nat)
    (context : UInt64) :
    s.recvAsync fd buffer size context = (s, .invalidParameter) ∨
      (s.interest fd = .absent ∧ s.recvAsync fd buffer size context =
        ({ s with mPendingRecvOps := Function.update s.mPendingRecvOps fd none },
          .operationFailed)) ∨
      (s.interest fd ≠ .absent ∧ s.recvAsync fd buffer size context =
        ({ s with
            mPendingRecvOps := Function.update s.mPendingRecvOps fd (some ⟨context, buffer, size⟩)
            interest := Function.update s.interest fd (.armed false) }, .success)) := by
  unfold Provider.recvAsync
  split
  · exact Or.inl rfl
  · right
    by_cases hab : s.interest fd = .absent
    · left
      refine ⟨hab, ?_⟩
      simp only [Provider.ctlMod, hab, Function.update_idem]
    · right
      refine ⟨hab, ?_⟩
      have hctl := fun ops => ctlMod_of_ne (s := { s with mPendingRecvOps := ops }) (b := false) hab
      simp only [hctl]

end

/-! ## What the workers do to the receives -/

/-- The receive that a worker has taken from the map, with its descriptor. -/
def Worker.held (w : Worker) : Option (Fd × RecvOp) :=
  match w.stage with
  | .recv e op | .putBack e op => some (e.fd, op)
  | _ => none

/-- The entry that a worker is about to write after an `EPOLL_CTL_MOD`. -/
def Worker.writing (w : Worker) : Option CompletionEntry :=
  match w.stage with
  | .rearm _ _ entry => entry
  | _ => none

section
variable {maxEntries : Nat} {s s' : Provider} {k : Nat} {w : Worker}

@[simp] theorem held_recv (e : Event) (op : RecvOp) (events : List Event)
    (entries : List CompletionEntry) :
    Worker.held ⟨events, entries, .recv e op⟩ = some (e.fd, op) := rfl

@[simp] theorem held_rearm (fd : Fd) (b : Bool) (entry : Option CompletionEntry)
    (events : List Event) (entries : List CompletionEntry) :
    Worker.held ⟨events, entries, .rearm fd b entry⟩ = none := rfl

theorem held_afterIn {e : Event} {events : List Event} {entries : List CompletionEntry} :
    Worker.held ⟨events, entries, afterIn e⟩ = none := by
  unfold afterIn
  split <;> rfl

theorem writing_afterIn {e : Event} {events : List Event} {entries : List CompletionEntry} :
    Worker.writing ⟨events, entries, afterIn e⟩ = none := by
  unfold afterIn
  split <;> rfl

/-- A step without the result of a system call moves the worker only, or drops
the operations of a descriptor with an error, or takes a receive from the map, or
puts one back, or arms a descriptor and writes an entry. -/
theorem workerStep_cases (h : s.workerStep maxEntries k w = some s') :
    (∃ w', s' = s.setWorker k w' ∧ w.held = none ∧ w'.held = none ∧ w'.entries = w.entries ∧
      w'.writing = none) ∨
    (∃ e w', s' = (s.hangup e).1.setWorker k w' ∧ w.held = none ∧ w'.held = none ∧
      w'.entries = w.entries ++ (s.hangup e).2.toList ∧ w'.writing = none) ∨
    (∃ e op, w.stage = .takeRecv e ∧ s.mPendingRecvOps e.fd = some op ∧
      s' = { s with mPendingRecvOps := Function.update s.mPendingRecvOps e.fd none }.setWorker k
        { w with stage := .recv e op }) ∨
    (∃ e op, w.stage = .putBack e op ∧
      s' = { s with mPendingRecvOps := Function.update s.mPendingRecvOps e.fd (some op) }.setWorker k
        { w with stage := .rearm e.fd false none }) ∨
    (∃ fd b entry, w.stage = .rearm fd b entry ∧
      s' = { (s.ctlMod fd b).getD s with
        reported := ((s.ctlMod fd b).getD s).reported ++ entry.toList }.setWorker k
          { w with entries := w.entries ++ entry.toList, stage := .next }) := by
  unfold Provider.workerStep at h
  cases hstage : w.stage with
  | returned | recv e op | out e =>
      simp only [hstage] at h
      cases h
  | next =>
      have hheld : w.held = none := by rw [Worker.held, hstage]
      simp only [hstage] at h
      split at h
      · cases h
        exact Or.inl ⟨_, rfl, hheld, rfl, rfl, rfl⟩
      next e rest hevents =>
        split at h
        · cases h
          exact Or.inl ⟨_, rfl, hheld, rfl, rfl, rfl⟩
        · split at h
          · cases h
            exact Or.inr (Or.inl ⟨e, _, rfl, hheld, rfl, rfl, rfl⟩)
          · split at h
            · cases h
              exact Or.inl ⟨_, rfl, hheld, rfl, rfl, rfl⟩
            · cases h
              exact Or.inl ⟨_, rfl, hheld, held_afterIn, rfl, writing_afterIn⟩
  | takeRecv e =>
      have hheld : w.held = none := by rw [Worker.held, hstage]
      simp only [hstage] at h
      split at h
      next op hop =>
        cases h
        exact Or.inr (Or.inr (Or.inl ⟨e, op, rfl, hop, rfl⟩))
      · cases h
        exact Or.inl ⟨_, rfl, hheld, held_afterIn, rfl, writing_afterIn⟩
  | putBack e op =>
      simp only [hstage] at h
      cases h
      exact Or.inr (Or.inr (Or.inr (Or.inl ⟨e, op, rfl, rfl⟩)))
  | rearm fd b entry =>
      simp only [hstage] at h
      cases h
      exact Or.inr (Or.inr (Or.inr (Or.inr ⟨fd, b, entry, rfl, rfl⟩)))

/-- `recv()` turns the receive into an entry, or the worker keeps it to put it
back. -/
theorem recv_cases {r : RecvResult} (h : s.recv k w r = some s') :
    ∃ e op, w.stage = .recv e op ∧
      ((r = .wouldBlock ∧ s' = s.setWorker k { w with stage := .putBack e op }) ∨
        (∃ bytes w', r = .data bytes ∧ s' = s.setWorker k w' ∧ w'.held = none ∧
          w'.entries = w.entries ++ [⟨op.mContext, .recv, bytes.length, 0⟩] ∧
          w'.writing = none ∧ bytes.length ≤ op.mBufferSize) ∨
        (∃ errno w', r = .error errno ∧ s' = s.setWorker k w' ∧ w'.held = none ∧
          w'.entries = w.entries ++ [⟨op.mContext, .recv, -1, errno⟩] ∧ w'.writing = none)) := by
  unfold Provider.recv at h
  split at h
  next e op hstage =>
    refine ⟨e, op, hstage, ?_⟩
    cases r with
    | data bytes =>
        simp only at h
        split at h
        next hlen =>
          cases h
          exact Or.inr (Or.inl ⟨bytes, _, rfl, rfl, held_afterIn, rfl, writing_afterIn, hlen⟩)
        · cases h
    | wouldBlock =>
        cases h
        exact Or.inl ⟨rfl, rfl⟩
    | error errno =>
        cases h
        exact Or.inr (Or.inr ⟨errno, _, rfl, rfl, rfl, rfl, rfl⟩)
  · cases h

/-- The `EPOLLOUT` part of an event leaves the receives alone.  Each pending send
keeps its context, and an entry to be written is one for a send. -/
theorem out_cases {r : SendResult} (h : s.out maxEntries k w r = some s') :
    ∃ e w', w.stage = .out e ∧ s'.workers = s.workers.set k w' ∧
      s'.mPendingRecvOps = s.mPendingRecvOps ∧ s'.interest = s.interest ∧ w'.held = none ∧
      w'.entries = w.entries ∧ (∀ entry, w'.writing = some entry → entry.mType = .send) ∧
      ∀ fd op', s'.mPendingSendOps fd = some op' →
        ∃ op, s.mPendingSendOps fd = some op ∧ op.mContext = op'.mContext := by
  unfold Provider.out at h
  split at h
  next e hstage =>
    refine ⟨e, ?_⟩
    split at h
    · cases h
      exact ⟨_, hstage, rfl, rfl, rfl, rfl, rfl, (fun _ h => by cases h),
        fun fd op hop => ⟨op, hop, rfl⟩⟩
    · split at h
      · cases h
        exact ⟨_, hstage, rfl, rfl, rfl, rfl, rfl, (fun _ h => by cases h),
          fun fd op hop => ⟨op, hop, rfl⟩⟩
      next op hop =>
        have hfinish : ∀ fd op', Function.update s.mPendingSendOps e.fd none fd = some op' →
            ∃ op, s.mPendingSendOps fd = some op ∧ op.mContext = op'.mContext := by
          intro fd op' hop'
          by_cases he : fd = e.fd
          · simp [he] at hop'
          · rw [Function.update_of_ne he] at hop'
            exact ⟨op', hop', rfl⟩
        cases r with
        | sent n =>
            simp only at h
            split at h
            · cases h
              refine ⟨_, hstage, rfl, rfl, rfl, rfl, rfl, (fun _ h => by cases h),
                fun fd op' hop' => ?_⟩
              by_cases he : fd = e.fd
              · subst he
                simp only [Provider.setWorker, Function.update_self, Option.some.injEq] at hop'
                exact ⟨op, hop, by rw [← hop']⟩
              · simp only [Provider.setWorker, Function.update_of_ne he] at hop'
                exact ⟨op', hop', rfl⟩
            · split at h
              · cases h
                refine ⟨_, hstage, rfl, rfl, rfl, rfl, rfl, fun entry h => ?_, hfinish⟩
                cases h
                rfl
              · cases h
        | error errno =>
            cases h
            refine ⟨_, hstage, rfl, rfl, rfl, rfl, rfl, fun entry h => ?_, hfinish⟩
            cases h
            rfl
  · cases h

end

/-! ## Operations that are there -/

/-- A receive on a descriptor is in the map or in the hands of a worker. -/
def RecvAt (s : Provider) (fd : Fd) (op : RecvOp) : Prop :=
  s.mPendingRecvOps fd = some op ∨ ∃ w ∈ s.workers, w.held = some (fd, op)

/-- The operations of one state are operations of another.  A send may have got
shorter. -/
structure Within (s' s : Provider) : Prop where
  recvs : ∀ fd op, RecvAt s' fd op → RecvAt s fd op
  sends : ∀ fd op', s'.mPendingSendOps fd = some op' →
    ∃ op, s.mPendingSendOps fd = some op ∧ op.mContext = op'.mContext

section
variable {maxEntries : Nat} {s s' : Provider} {k : Nat} {w w' : Worker}

/-- A receive that the map still has after one was erased. -/
theorem eq_some_of_update_none {fd fd' : Fd} {op : RecvOp}
    (h : Function.update s.mPendingRecvOps fd none fd' = some op) :
    s.mPendingRecvOps fd' = some op := by
  by_cases hfd : fd' = fd
  · subst hfd
    simp at h
  · rwa [Function.update_of_ne hfd] at h

theorem Within.refl (s : Provider) : Within s s := ⟨fun _ _ h => h, fun _ op h => ⟨op, h, rfl⟩⟩

theorem Within.of_setWorker (hworkers : s'.workers = s.workers.set k w')
    (hheld : ∀ fd op, w'.held = some (fd, op) → RecvAt s fd op)
    (hmap : ∀ fd op, s'.mPendingRecvOps fd = some op → RecvAt s fd op)
    (hsends : ∀ fd op', s'.mPendingSendOps fd = some op' →
      ∃ op, s.mPendingSendOps fd = some op ∧ op.mContext = op'.mContext) : Within s' s := by
  refine ⟨fun fd op hop => ?_, hsends⟩
  rcases hop with hop | ⟨w'', hmem, hop⟩
  · exact hmap fd op hop
  · rw [hworkers] at hmem
    rcases List.mem_or_eq_of_mem_set hmem with hmem | rfl
    · exact Or.inr ⟨w'', hmem, hop⟩
    · exact hheld fd op hop

theorem recvAt_of_held {fd : Fd} {op : RecvOp} (hw : s.workers[k]? = some w)
    (h : w.held = some (fd, op)) : RecvAt s fd op :=
  Or.inr ⟨w, List.mem_of_getElem? hw, h⟩

theorem within_of_workerStep (hw : s.workers[k]? = some w)
    (h : s.workerStep maxEntries k w = some s') : Within s' s := by
  rcases workerStep_cases h with ⟨w', rfl, -, hheld, -⟩ | ⟨e, w', rfl, -, hheld, -⟩ |
    ⟨e, op, -, hop, rfl⟩ | ⟨e, op, hstage, rfl⟩ | ⟨fd, b, entry, -, rfl⟩
  · refine Within.of_setWorker rfl (fun fd op h => ?_) (fun _ _ => Or.inl) fun _ op hop =>
      ⟨op, hop, rfl⟩
    rw [hheld] at h
    cases h
  · refine Within.of_setWorker rfl (fun fd op h => ?_)
      (fun _ _ hop => Or.inl (eq_some_of_update_none hop)) fun fd op hop => ⟨op, ?_, rfl⟩
    · rw [hheld] at h
      cases h
    · by_cases hfd : fd = e.fd
      · simp [Provider.setWorker, Provider.hangup, hfd] at hop
      · simpa [Provider.setWorker, Provider.hangup, hfd] using hop
  · refine Within.of_setWorker rfl (fun fd op' h => ?_)
      (fun _ _ hop => Or.inl (eq_some_of_update_none hop)) fun _ op hop => ⟨op, hop, rfl⟩
    simp only [Worker.held, Option.some.injEq, Prod.mk.injEq] at h
    obtain ⟨rfl, rfl⟩ := h
    exact Or.inl hop
  · refine Within.of_setWorker rfl (fun fd op' h => ?_) (fun fd op' hop => ?_) fun _ op hop =>
      ⟨op, hop, rfl⟩
    · cases h
    · by_cases hfd : fd = e.fd
      · subst hfd
        simp only [Provider.setWorker, Function.update_self, Option.some.injEq] at hop
        subst hop
        exact recvAt_of_held hw (by rw [Worker.held, hstage])
      · exact Or.inl (by simpa [Provider.setWorker, hfd] using hop)
  · rw [ctlMod_getD]
    refine Within.of_setWorker rfl (fun fd op' h => ?_) (fun _ _ => Or.inl) fun _ op hop =>
      ⟨op, hop, rfl⟩
    cases h

theorem within_of_recv {r : RecvResult} (hw : s.workers[k]? = some w)
    (h : s.recv k w r = some s') : Within s' s := by
  obtain ⟨e, op, hstage, ⟨-, rfl⟩ | ⟨bytes, w', -, rfl, hheld, -⟩ | ⟨errno, w', -, rfl, hheld, -⟩⟩ :=
    recv_cases h
  · refine Within.of_setWorker rfl (fun fd op' h => ?_) (fun _ _ => Or.inl) fun _ op hop =>
      ⟨op, hop, rfl⟩
    simp only [Worker.held, Option.some.injEq, Prod.mk.injEq] at h
    obtain ⟨rfl, rfl⟩ := h
    exact recvAt_of_held hw (by rw [Worker.held, hstage])
  all_goals
    refine Within.of_setWorker rfl (fun fd op' h => ?_) (fun _ _ => Or.inl) fun _ op hop =>
      ⟨op, hop, rfl⟩
    rw [hheld] at h
    cases h

theorem within_of_out {r : SendResult} (h : s.out maxEntries k w r = some s') : Within s' s := by
  obtain ⟨e, w', -, hworkers, hrecvs, -, hheld, -, -, hsends⟩ := out_cases h
  refine Within.of_setWorker hworkers (fun fd op h => ?_) (fun fd op hop => ?_) hsends
  · rw [hheld] at h
    cases h
  · rw [hrecvs] at hop
    exact Or.inl hop

theorem within_of_epollWait {events : List Event} (h : s.epollWait maxEntries k w events = some s') :
    Within s' s := by
  unfold Provider.epollWait at h
  split at h
  · cases h
    exact Within.of_setWorker rfl (fun _ _ h => by cases h) (fun _ _ => Or.inl) fun _ op hop =>
      ⟨op, hop, rfl⟩
  · cases h

theorem within_spawn : Within { s with workers := s.workers ++ [{}] } s := by
  refine ⟨fun fd op hop => ?_, fun _ op hop => ⟨op, hop, rfl⟩⟩
  rcases hop with hop | ⟨w, hmem, hop⟩
  · exact Or.inl hop
  · rcases List.mem_append.mp hmem with hmem | hmem
    · exact Or.inr ⟨w, hmem, hop⟩
    · rw [List.mem_singleton.mp hmem] at hop
      cases hop

/-- After `RecvAsync` there is one new receive at most. -/
theorem recvAt_of_recvAsync {fd fd' : Fd} {buffer context : UInt64} {size : Nat} {op : RecvOp}
    (h : RecvAt (s.recvAsync fd buffer size context).1 fd' op) :
    RecvAt s fd' op ∨ (fd' = fd ∧ op = ⟨context, buffer, size⟩) := by
  rcases recvAsync_cases s fd buffer size context with heq | ⟨-, heq⟩ | ⟨-, heq⟩
  · rw [heq] at h
    exact Or.inl h
  · rw [heq] at h
    rcases h with h | h
    · exact Or.inl (Or.inl (eq_some_of_update_none h))
    · exact Or.inl (Or.inr h)
  · rw [heq] at h
    rcases h with h | h
    · simp only [Function.update_apply] at h
      split at h
      next hfd => exact Or.inr ⟨hfd, (Option.some.inj h).symm⟩
      · exact Or.inl (Or.inl h)
    · exact Or.inl (Or.inr h)

/-- `RecvAsync` looks at the receives only. -/
theorem recvAsync_frame (s : Provider) (fd : Fd) (buffer : UInt64) (size : Nat) (context : UInt64) :
    (s.recvAsync fd buffer size context).1.mPendingSendOps = s.mPendingSendOps ∧
      (s.recvAsync fd buffer size context).1.workers = s.workers := by
  rcases recvAsync_cases s fd buffer size context with heq | ⟨-, heq⟩ | ⟨-, heq⟩ <;> rw [heq] <;>
    exact ⟨rfl, rfl⟩

/-- `SendAsync` looks at the sends only. -/
theorem sendAsync_frame (s : Provider) (fd : Fd) (buffer : List UInt8) (context : UInt64) :
    (s.sendAsync fd buffer context).1.mPendingRecvOps = s.mPendingRecvOps ∧
      (s.sendAsync fd buffer context).1.workers = s.workers := by
  rcases sendAsync_cases s fd buffer context with heq | ⟨-, -, -, heq⟩ <;> rw [heq] <;>
    exact ⟨rfl, rfl⟩

/-- After `SendAsync` there is one new send at most. -/
theorem mContext_of_sendAsync {fd fd' : Fd} {buffer : List UInt8} {context : UInt64} {op : SendOp}
    (h : (s.sendAsync fd buffer context).1.mPendingSendOps fd' = some op) :
    s.mPendingSendOps fd' = some op ∨ (fd' = fd ∧ op.mContext = context) := by
  rcases sendAsync_cases s fd buffer context with heq | ⟨-, -, -, heq⟩
  · rw [heq] at h
    exact Or.inl h
  · rw [heq] at h
    simp only [Function.update_apply] at h
    split at h
    next hfd =>
      rw [← Option.some.inj h]
      exact Or.inr ⟨hfd, rfl⟩
    · exact Or.inl h

end

end NetworkModule.Epoll
