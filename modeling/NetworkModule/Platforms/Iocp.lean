import NetworkModule.Lib.Machine
import NetworkModule.Platforms.AsyncIOProvider
import Mathlib

/-!
# The IOCP provider

`SendAsync` and `RecvAsync` allocate a `PendingOperation`, put it into `mPendingSendOps` or
`mPendingRecvOps` under the address of its `OVERLAPPED`, release `mMutex`, and call `WSASend` or
`WSARecv`.  They do not keep the mutex for the call, so the kernel may complete the operation, and
a worker may report it, before the call has returned.  If the call fails, they take the operation
out again.

`ProcessCompletions` takes completions from the port and looks for their operations in both
maps.  A completion that is for neither is one of a session that called `WSASend` or `WSARecv`
itself; its type comes from the table of the session pool.  `Shutdown` sets two flags, closes the
port and clears the maps.

Any number of threads are in these calls.  One step is one critical section or one call of the
system, and the kernel completes operations in any order.  Requests have numbers, which no step
reads.
-/

namespace NetworkModule.Iocp

open AsyncIO

/-! ## The provider -/

/-- A call of `SendAsync` or `RecvAsync`. -/
structure Request where
  type : AsyncIOType
  context : UInt64
  buffer : List UInt8
  deriving DecidableEq, Repr

/-- `PendingOperation`, and the number of its request. -/
structure PendingOperation where
  number : Nat
  mBuffer : List UInt8
  mCallerSize : Nat
  mContext : UInt64
  mType : AsyncIOType
  deriving DecidableEq, Repr

/-- The address of an operation, for whoever has it. -/
structure Handle where
  number : Nat
  mType : AsyncIOType
  opKey : Nat
  deriving DecidableEq, Repr

/-- An operation that the kernel has, and the length in its `WSABUF`. -/
structure KernelOp where
  handle : Handle
  len : Nat
  deriving DecidableEq, Repr

/-- How an operation ended: what `GetQueuedCompletionStatus` returns, the bytes that were
transferred, and the error. -/
structure Answer where
  result : Bool
  bytes : List UInt8
  error : Int
  deriving DecidableEq, Repr

/-- A completion in the port. -/
structure Packet where
  pOverlapped : Option Nat
  completionKey : UInt64
  answer : Answer
  /-- The operation that has ended, if it is one of the provider. -/
  handle : Option Handle
  deriving DecidableEq, Repr

/-- An element of `entries`, the request it is for, and what was copied to the caller's buffer. -/
structure Reported where
  entry : CompletionEntry
  number : Option Nat
  copied : List UInt8
  deriving DecidableEq, Repr

/-- Where a thread stands. -/
inductive IocpPc where
  | idle
  /-- `SendAsync` or `RecvAsync` with its operation, before the lock. -/
  | emplace (h : Handle) (op : PendingOperation)
  /-- Calling `WSASend` or `WSARecv`. -/
  | submit (h : Handle) (len : Nat)
  /-- After that call has failed. -/
  | undo (h : Handle)
  /-- `ProcessCompletions`: at `GetQueuedCompletionStatus`. -/
  | loop (maxEntries i : Nat) (entries : List Reported)
  /-- With a completion, before the lock. -/
  | lookup (maxEntries i : Nat) (entries : List Reported) (p : Packet)
  /-- With a new entry, before `mTotalCompletions` is incremented. -/
  | count (maxEntries i : Nat) (entries : List Reported) (r : Reported)
  deriving DecidableEq, Repr

/-- How far `Shutdown` has come. -/
inductive ShutdownStage where
  | running
  /-- `mInitialized` is false. -/
  | uninitialized
  /-- `mShuttingDown` is true. -/
  | shuttingDown
  /-- `mCompletionPort` is closed. -/
  | closed
  /-- The maps are cleared. -/
  | cleared
  deriving DecidableEq, Repr

/-- `IocpAsyncIOProvider`, the kernel, and the threads. -/
structure Provider where
  stage : ShutdownStage := .running
  /-- `mPendingRecvOps` and `mPendingSendOps`. -/
  mPendingOps : AsyncIOType → AList fun _ : Nat => PendingOperation := fun _ => ∅
  mTotalRequests : Nat := 0
  mTotalCompletions : Nat := 0
  mPendingRequests : Nat := 0
  mErrorCount : Nat := 0
  kernel : List KernelOp := []
  port : List Packet := []
  calls : List IocpPc
  requests : List Request := []
  /-- The requests that `WSASend` or `WSARecv` has accepted. -/
  accepted : List Nat := []
  answers : List (Nat × Answer) := []
  /-- The entries of the calls of `ProcessCompletions` that have returned. -/
  returned : List Reported := []

/-- The provider after `Initialize`, with `n` threads. -/
def Provider.init (n : Nat) : Provider where
  calls := .replicate n .idle

/-- `mInitialized`. -/
def Provider.mInitialized (s : Provider) : Bool := s.stage = .running

/-- `mShuttingDown`. -/
def Provider.mShuttingDown (s : Provider) : Bool := s.stage ≠ .running ∧ s.stage ≠ .uninitialized

/-- The port is open. -/
def Provider.isOpen (s : Provider) : Bool := s.stage ≠ .closed ∧ s.stage ≠ .cleared

def Provider.goto (s : Provider) (i : Nat) (pc : IocpPc) : Provider :=
  { s with calls := s.calls.set i pc }

/-! ## Steps -/

/-- The operation of a request: `SendAsync` copies the caller's bytes, `RecvAsync` makes an empty
buffer and keeps the size of the caller's. -/
def Request.operation (r : Request) (number : Nat) : PendingOperation where
  number
  mBuffer := match r.type with
    | .send => r.buffer
    | .recv => .replicate r.buffer.length 0
  mCallerSize := match r.type with
    | .send => 0
    | .recv => r.buffer.length
  mContext := r.context
  mType := r.type

/-- The address that a thread has allocated. -/
def IocpPc.allocated : IocpPc → Option Nat
  | .emplace h _ => some h.opKey
  | _ => none

/-- Nothing lives at the address. -/
def Provider.Fresh (resolve : Nat → Option AsyncIOType) (s : Provider) (opKey : Nat) : Prop :=
  resolve opKey = none ∧ opKey ∉ s.mPendingOps .recv ∧ opKey ∉ s.mPendingOps .send ∧
    ∀ pc ∈ s.calls, pc.allocated ≠ some opKey

instance (resolve : Nat → Option AsyncIOType) (s : Provider) (opKey : Nat) :
    Decidable (s.Fresh resolve opKey) :=
  inferInstanceAs (Decidable (_ ∧ _ ∧ _ ∧ _))

/-- What happens next. -/
inductive IocpAct where
  /-- `SendAsync` or `RecvAsync`, with the address that the new operation gets. -/
  | request (i : Nat) (r : Request) (opKey : Nat)
  /-- `ProcessCompletions`. -/
  | process (i maxEntries : Nat)
  /-- The thread goes on.  `answer` says whether `WSASend` or `WSARecv` accepts the operation, or
  whether `GetQueuedCompletionStatus` returns a completion. -/
  | thread (i : Nat) (answer : Bool)
  /-- The kernel is done with one of its operations. -/
  | complete (k : Nat) (completionKey : UInt64) (a : Answer)
  /-- A completion that is not for an operation of the provider. -/
  | foreign (p : Packet)
  /-- The next step of `Shutdown`. -/
  | shutdown
  deriving DecidableEq, Repr

def IocpAct.sendAsync (i : Nat) (context : UInt64) (buffer : List UInt8) (opKey : Nat) : IocpAct :=
  .request i ⟨.send, context, buffer⟩ opKey

def IocpAct.recvAsync (i : Nat) (context : UInt64) (buffer : List UInt8) (opKey : Nat) : IocpAct :=
  .request i ⟨.recv, context, buffer⟩ opKey

/-- `static_cast<int32_t>` of a `DWORD`. -/
def toInt32 (n : Nat) : Int := (BitVec.ofNat 32 n).toInt

/-- `mResult` and `mOsError` of an entry. -/
def Answer.entry (a : Answer) (mContext : UInt64) (mType : AsyncIOType) : CompletionEntry where
  mContext
  mType
  mResult := if a.result then toInt32 a.bytes.length else -1
  mOsError := if a.result then 0 else a.error

/-- The entry for an operation.  The bytes go to the caller's buffer. -/
def PendingOperation.report (op : PendingOperation) (a : Answer) : Reported where
  entry := a.entry op.mContext op.mType
  number := some op.number
  copied :=
    if a.result ∧ op.mType = .recv ∧ 0 < a.bytes.length then
      op.mBuffer.take (min a.bytes.length op.mCallerSize)
    else []

/-- The search for the operation of a completion: first in `mPendingRecvOps`, then in
`mPendingSendOps`. -/
def Provider.find (s : Provider) (pOverlapped : Nat) : Option (AsyncIOType × PendingOperation) :=
  match (s.mPendingOps .recv).lookup pOverlapped with
  | some op => some (.recv, op)
  | none => ((s.mPendingOps .send).lookup pOverlapped).map fun op => (.send, op)

/-- The body of the loop, after a completion has been taken. -/
def Provider.dispatch (resolve : Nat → Option AsyncIOType) (s : Provider) (i : Nat)
    (maxEntries n : Nat) (entries : List Reported) (p : Packet) : Provider :=
  match p.pOverlapped with
  | none => s.goto i (.loop maxEntries (n + 1) entries)
  | some key =>
      match s.find key with
      | some (t, op) =>
          { s with
            mPendingOps := Function.update s.mPendingOps t ((s.mPendingOps t).erase key)
            mPendingRequests := s.mPendingRequests - 1 }.goto i
              (.count maxEntries n entries (op.report p.answer))
      | none =>
          match resolve key with
          | some t =>
              s.goto i (.count maxEntries n entries ⟨p.answer.entry p.completionKey t, none, []⟩)
          | none => s.goto i (.loop maxEntries (n + 1) entries)

/-- A step of the call that the thread `i` is in. -/
def threadStep (resolve : Nat → Option AsyncIOType) (s : Provider) (i : Nat) (answer : Bool) :
    Option Provider :=
  match s.calls[i]? with
  | some (.emplace h op) =>
      if s.mInitialized = false ∨ s.mShuttingDown = true then some (s.goto i .idle)
      else if h.opKey ∈ s.mPendingOps h.mType then
        some ({ s with mErrorCount := s.mErrorCount + 1 }.goto i .idle)
      else
        some ({ s with
          mPendingOps :=
            Function.update s.mPendingOps h.mType ((s.mPendingOps h.mType).insert h.opKey op)
          mTotalRequests := s.mTotalRequests + 1
          mPendingRequests := s.mPendingRequests + 1 }.goto i
            -- `mWsaBuffer.len` is a `ULONG`.
            (.submit h (op.mBuffer.length % 2 ^ 32)))
  | some (.submit h len) =>
      if answer then
        some ({ s with
          kernel := s.kernel ++ [KernelOp.mk h len]
          accepted := s.accepted ++ [h.number] }.goto i .idle)
      else some (s.goto i (.undo h))
  | some (.undo h) =>
      some ({ s with
        mPendingOps :=
          Function.update s.mPendingOps h.mType ((s.mPendingOps h.mType).erase h.opKey)
        mPendingRequests := s.mPendingRequests - 1
        mErrorCount := s.mErrorCount + 1 }.goto i .idle)
  | some (.loop maxEntries n entries) =>
      if n < maxEntries ∧ answer then
        match s.port with
        | [] => none
        | p :: port => some ({ s with port := port }.goto i (.lookup maxEntries n entries p))
      else some ({ s with returned := s.returned ++ entries }.goto i .idle)
  | some (.lookup maxEntries n entries p) => some (s.dispatch resolve i maxEntries n entries p)
  | some (.count maxEntries n entries r) =>
      some ({ s with mTotalCompletions := s.mTotalCompletions + 1 }.goto i
        (.loop maxEntries (n + 1) (entries ++ [r])))
  | _ => none

/-- What the kernel does with the memory of an operation: it sends bytes from the beginning of the
buffer, or writes to its beginning.  `none` if these cannot be the bytes. -/
def PendingOperation.transfer (op : PendingOperation) (bytes : List UInt8) :
    Option PendingOperation :=
  match op.mType with
  | .send => if op.mBuffer.take bytes.length = bytes then some op else none
  | .recv => some { op with mBuffer := bytes ++ op.mBuffer.drop bytes.length }

/-- The kernel is done with the operation.  If `Shutdown` has freed it, nobody reads the memory,
and if the port is closed, nobody gets the completion. -/
def Provider.complete (s : Provider) (k : Nat) (completionKey : UInt64) (a : Answer) :
    Option Provider :=
  match s.kernel[k]? with
  | none => none
  | some op =>
      if a.bytes.length ≤ op.len then
        let h := op.handle
        let s' := { s with
          kernel := s.kernel.eraseIdx k
          answers := s.answers ++ [(h.number, a)]
          port :=
            if s.isOpen then s.port ++ [⟨some h.opKey, completionKey, a, some h⟩] else s.port }
        match (s.mPendingOps h.mType).lookup h.opKey with
        | none => some s'
        | some op => (op.transfer a.bytes).map fun op =>
            { s' with mPendingOps :=
              Function.update s.mPendingOps h.mType ((s.mPendingOps h.mType).insert h.opKey op) }
      else none

/-- One step. -/
def iocpStep (resolve : Nat → Option AsyncIOType) (s : Provider) : IocpAct → Option Provider
  | .request i r opKey =>
      match s.calls[i]? with
      | some .idle =>
          if s.mInitialized = false ∨ s.mShuttingDown = true ∨ r.buffer = [] then some s
          else if s.Fresh resolve opKey then
            some ({ s with requests := s.requests ++ [r] }.goto i
              (.emplace ⟨s.requests.length, r.type, opKey⟩ (r.operation s.requests.length)))
          else none
      | _ => none
  | .process i maxEntries =>
      match s.calls[i]? with
      | some .idle =>
          if s.mInitialized = false ∨ s.mShuttingDown = true ∨ maxEntries = 0 then some s
          else some (s.goto i (.loop maxEntries 0 []))
      | _ => none
  | .thread i answer => threadStep resolve s i answer
  | .complete k completionKey a => s.complete k completionKey a
  | .foreign p =>
      if p.handle = none ∧ (∀ key ∈ p.pOverlapped, resolve key ≠ none) ∧ s.isOpen then
        some { s with port := s.port ++ [p] }
      else none
  | .shutdown =>
      match s.stage with
      | .running => some { s with stage := .uninitialized }
      | .uninitialized => some { s with stage := .shuttingDown }
      | .shuttingDown => some { s with stage := .closed, port := [] }
      | .closed => some { s with stage := .cleared, mPendingOps := fun _ => ∅ }
      | .cleared => none

/-! ## What a step can do -/

section
variable {resolve : Nat → Option AsyncIOType} {s s' : Provider} {i : Nat}

/-- What a thread can do. -/
inductive ThreadMove (resolve : Nat → Option AsyncIOType) (s : Provider) (i : Nat) :
    Provider → Prop where
  | refused {h op} (hpc : s.calls[i]? = some (.emplace h op)) (hstage : s.stage ≠ .running) :
      ThreadMove resolve s i (s.goto i .idle)
  | duplicate {h op} (hpc : s.calls[i]? = some (.emplace h op))
      (hdup : h.opKey ∈ s.mPendingOps h.mType) :
      ThreadMove resolve s i ({ s with mErrorCount := s.mErrorCount + 1 }.goto i .idle)
  | emplaced {h op} (hpc : s.calls[i]? = some (.emplace h op)) (hstage : s.stage = .running)
      (hnew : h.opKey ∉ s.mPendingOps h.mType) :
      ThreadMove resolve s i ({ s with
        mPendingOps :=
          Function.update s.mPendingOps h.mType ((s.mPendingOps h.mType).insert h.opKey op)
        mTotalRequests := s.mTotalRequests + 1
        mPendingRequests := s.mPendingRequests + 1 }.goto i
          (.submit h (op.mBuffer.length % 2 ^ 32)))
  | accepted {h len} (hpc : s.calls[i]? = some (.submit h len)) :
      ThreadMove resolve s i ({ s with
        kernel := s.kernel ++ [KernelOp.mk h len]
        accepted := s.accepted ++ [h.number] }.goto i .idle)
  | failed {h len} (hpc : s.calls[i]? = some (.submit h len)) :
      ThreadMove resolve s i (s.goto i (.undo h))
  | undone {h} (hpc : s.calls[i]? = some (.undo h)) :
      ThreadMove resolve s i ({ s with
        mPendingOps :=
          Function.update s.mPendingOps h.mType ((s.mPendingOps h.mType).erase h.opKey)
        mPendingRequests := s.mPendingRequests - 1
        mErrorCount := s.mErrorCount + 1 }.goto i .idle)
  | taken {maxEntries n entries p port} (hpc : s.calls[i]? = some (.loop maxEntries n entries))
      (hport : s.port = p :: port) :
      ThreadMove resolve s i ({ s with port := port }.goto i (.lookup maxEntries n entries p))
  | returned {maxEntries n entries} (hpc : s.calls[i]? = some (.loop maxEntries n entries)) :
      ThreadMove resolve s i ({ s with returned := s.returned ++ entries }.goto i .idle)
  | found {maxEntries n entries p key t op}
      (hpc : s.calls[i]? = some (.lookup maxEntries n entries p)) (hkey : p.pOverlapped = some key)
      (hfind : s.find key = some (t, op)) :
      ThreadMove resolve s i ({ s with
        mPendingOps := Function.update s.mPendingOps t ((s.mPendingOps t).erase key)
        mPendingRequests := s.mPendingRequests - 1 }.goto i
          (.count maxEntries n entries (op.report p.answer)))
  | session {maxEntries n entries p key t}
      (hpc : s.calls[i]? = some (.lookup maxEntries n entries p)) (hkey : p.pOverlapped = some key)
      (hfind : s.find key = none) (hresolve : resolve key = some t) :
      ThreadMove resolve s i
        (s.goto i (.count maxEntries n entries ⟨p.answer.entry p.completionKey t, none, []⟩))
  | dropped {maxEntries n entries p} (hpc : s.calls[i]? = some (.lookup maxEntries n entries p))
      (hunknown : ∀ key, p.pOverlapped = some key → s.find key = none ∧ resolve key = none) :
      ThreadMove resolve s i (s.goto i (.loop maxEntries (n + 1) entries))
  | counted {maxEntries n entries r}
      (hpc : s.calls[i]? = some (.count maxEntries n entries r)) :
      ThreadMove resolve s i ({ s with mTotalCompletions := s.mTotalCompletions + 1 }.goto i
        (.loop maxEntries (n + 1) (entries ++ [r])))

theorem mInitialized_eq_false : s.mInitialized = false ↔ s.stage ≠ .running := by
  simp [Provider.mInitialized]

theorem mShuttingDown_eq_true : s.mShuttingDown = true → s.stage ≠ .running := by
  intro h
  exact (of_decide_eq_true h).1

theorem threadStep_move {answer : Bool} (hs : threadStep resolve s i answer = some s') :
    ThreadMove resolve s i s' := by
  unfold threadStep at hs
  cases hpc : s.calls[i]? with
  | none => simp only [hpc] at hs; cases hs
  | some pc =>
      cases pc with
      | idle => simp only [hpc] at hs; cases hs
      | emplace h op =>
          simp only [hpc] at hs
          split at hs
          next hflags =>
            cases hs
            refine .refused hpc ?_
            rcases hflags with hflags | hflags
            · exact mInitialized_eq_false.mp hflags
            · exact mShuttingDown_eq_true hflags
          next hflags =>
            have hstage : s.stage = .running := by
              by_contra hne
              exact hflags (.inl (mInitialized_eq_false.mpr hne))
            split at hs
            next hdup =>
              cases hs
              exact .duplicate hpc hdup
            next hnew =>
              cases hs
              exact .emplaced hpc hstage hnew
      | submit h len =>
          simp only [hpc] at hs
          split at hs
          · cases hs
            exact .accepted hpc
          · cases hs
            exact .failed hpc
      | undo h =>
          simp only [hpc] at hs
          cases hs
          exact .undone hpc
      | loop maxEntries n entries =>
          simp only [hpc] at hs
          split at hs
          · split at hs
            · cases hs
            next p port hport =>
              cases hs
              exact .taken hpc hport
          · cases hs
            exact .returned hpc
      | lookup maxEntries n entries p =>
          simp only [hpc, Provider.dispatch] at hs
          split at hs
          next hkey =>
            cases hs
            exact .dropped hpc fun key hk => by rw [hkey] at hk; cases hk
          next key hkey =>
            split at hs
            next t op hfind =>
              cases hs
              exact .found hpc hkey hfind
            next hfind =>
              split at hs
              next t hresolve =>
                cases hs
                exact .session hpc hkey hfind hresolve
              next hresolve =>
                cases hs
                refine .dropped hpc fun key' hk => ?_
                rw [hkey] at hk
                cases hk
                exact ⟨hfind, hresolve⟩
      | count maxEntries n entries r =>
          simp only [hpc] at hs
          cases hs
          exact .counted hpc

/-- What the kernel, `Shutdown` and the beginning of a call can do. -/
inductive OtherMove (resolve : Nat → Option AsyncIOType) (s : Provider) : Provider → Prop where
  | rejected : OtherMove resolve s s
  | request {i r opKey} (hpc : s.calls[i]? = some .idle) (hfresh : s.Fresh resolve opKey) :
      OtherMove resolve s ({ s with requests := s.requests ++ [r] }.goto i
        (.emplace ⟨s.requests.length, r.type, opKey⟩ (r.operation s.requests.length)))
  | process {i maxEntries} (hpc : s.calls[i]? = some .idle) :
      OtherMove resolve s (s.goto i (.loop maxEntries 0 []))
  | complete {k completionKey a op ops}
      (hk : s.kernel[k]? = some op) (hlen : a.bytes.length ≤ op.len)
      (hops : ((s.mPendingOps op.handle.mType).lookup op.handle.opKey = none ∧
          ops = s.mPendingOps) ∨
        ∃ pop pop', (s.mPendingOps op.handle.mType).lookup op.handle.opKey = some pop ∧
          pop.transfer a.bytes = some pop' ∧ ops = Function.update s.mPendingOps op.handle.mType
            ((s.mPendingOps op.handle.mType).insert op.handle.opKey pop')) :
      OtherMove resolve s { s with
        mPendingOps := ops
        kernel := s.kernel.eraseIdx k
        answers := s.answers ++ [(op.handle.number, a)]
        port := if s.isOpen then
          s.port ++ [⟨some op.handle.opKey, completionKey, a, some op.handle⟩] else s.port }
  | foreign {p} (hhandle : p.handle = none)
      (hkey : ∀ key ∈ p.pOverlapped, resolve key ≠ none) (hopen : s.isOpen = true) :
      OtherMove resolve s { s with port := s.port ++ [p] }
  | flag {stage} (hstage : s.stage ≠ .cleared ∧ stage ≠ .running ∧ stage ≠ .cleared)
      (hopen : s.isOpen = true) (hopen' : { s with stage := stage }.isOpen = true) :
      OtherMove resolve s { s with stage := stage }
  | close (hstage : s.stage = .shuttingDown) :
      OtherMove resolve s { s with stage := .closed, port := [] }
  | clear (hstage : s.stage = .closed) :
      OtherMove resolve s { s with stage := .cleared, mPendingOps := fun _ => ∅ }

theorem complete_move {k : Nat} {completionKey : UInt64} {a : Answer}
    (hs : s.complete k completionKey a = some s') : OtherMove resolve s s' := by
  unfold Provider.complete at hs
  split at hs
  · cases hs
  next op hk =>
    split at hs
    next hlen =>
      dsimp only at hs
      split at hs
      next hnone =>
        cases hs
        exact .complete hk hlen (.inl ⟨hnone, rfl⟩)
      next pop hsome =>
        obtain ⟨pop', htransfer, rfl⟩ := Option.map_eq_some_iff.mp hs
        exact .complete hk hlen (.inr ⟨pop, pop', hsome, htransfer, rfl⟩)
    · cases hs

theorem iocpStep_cases {a : IocpAct} (hs : iocpStep resolve s a = some s') :
    (∃ i answer, a = .thread i answer ∧ ThreadMove resolve s i s') ∨ OtherMove resolve s s' := by
  cases a with
  | request i r opKey =>
      right
      simp only [iocpStep] at hs
      split at hs
      next hpc =>
        split at hs
        · cases hs
          exact .rejected
        · split at hs
          next hfresh =>
            cases hs
            exact .request hpc hfresh
          · cases hs
      · cases hs
  | process i maxEntries =>
      right
      simp only [iocpStep] at hs
      split at hs
      next hpc =>
        split at hs
        · cases hs
          exact .rejected
        · cases hs
          exact .process hpc
      · cases hs
  | thread i answer => exact .inl ⟨i, answer, rfl, threadStep_move hs⟩
  | complete k completionKey a => exact .inr (complete_move hs)
  | foreign p =>
      right
      simp only [iocpStep] at hs
      split at hs
      next hp =>
        cases hs
        exact .foreign hp.1 hp.2.1 hp.2.2
      · cases hs
  | shutdown =>
      right
      simp only [iocpStep] at hs
      cases hstage : s.stage with
      | running =>
          simp only [hstage] at hs
          cases hs
          exact .flag (by simp [hstage]) (by simp [Provider.isOpen, hstage]) rfl
      | uninitialized =>
          simp only [hstage] at hs
          cases hs
          exact .flag (by simp [hstage]) (by simp [Provider.isOpen, hstage]) rfl
      | shuttingDown =>
          simp only [hstage] at hs
          cases hs
          exact .close hstage
      | closed =>
          simp only [hstage] at hs
          cases hs
          exact .clear hstage
      | cleared =>
          simp only [hstage] at hs
          cases hs

end

end NetworkModule.Iocp
