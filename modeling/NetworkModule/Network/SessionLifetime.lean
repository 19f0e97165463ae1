import NetworkModule.Lib.Machine
import NetworkModule.Lib.References

/-!
# Sessions, references and the logic workers

A `Session` lives in a slot of `SessionPool` and is reached through `SessionRef`s.  The
session manager has one for each registered session, threads have them in local variables,
and every closure that the engine gives to `KeyedDispatcher` has captured one.  When the last
one goes, the deleter calls `ReleaseInternal`: the session is closed and reset, and its slot
goes back to the free list for the next `Acquire`.

This is a model of all of it in one generation of the pool: `SessionManager`, `AsyncScope`
with the lambda that `Submit` wraps around a task, the queues of the dispatcher and the
local variable `task` of its workers.  The threads are any number of callers.  A thread that
is not in a call may begin any call, with any reference that it has.

Every critical section and every access to an atomic is one step.  The size and the policy
of the queues are left out: a `Push` may be accepted or refused at any time.  So are the
locks, since no step here depends on who waits.
-/

namespace NetworkModule.SessionLifetime

open References (Ref Released)

/-! ## Slots -/

/-- `SessionState`, as far as `Close` and `IsConnected` see it. -/
inductive SessionState where
  | none
  | connected
  | disconnected
  deriving DecidableEq, Repr

/-- Where `ReleaseInternal` stands. -/
inductive ReleasePc where
  /-- `Session::Close`. -/
  | close
  /-- `Session::Reset`. -/
  | reset
  /-- Clearing `inUse` and pushing the slot on the free list. -/
  | push
  deriving DecidableEq, Repr

/-- A slot of the pool, with its session and the `AsyncScope` of the session. -/
structure Slot where
  inUse : Bool := false
  /-- `ReleaseInternal` is called for the slot. -/
  release : Option ReleasePc := none
  mId : Nat := 0
  mState : SessionState := .none
  mCancelled : Bool := false
  mInFlight : Nat := 0
  /-- How often the slot has been acquired. -/
  incarnation : Nat := 0
  deriving DecidableEq, Repr

/-! ## Closures and workers -/

/-- Where a closure is on its way. -/
inductive Stage where
  /-- It has not been made. -/
  | none
  /-- `Submit` calls `BeginTask`. -/
  | beginTask
  /-- `Submit` loads `mCancelled`. -/
  | cancelledTest
  /-- `Dispatch` loads `mRunning`. -/
  | dispatch
  /-- `Dispatch` pushes it. -/
  | push
  /-- The scope was cancelled.  `Submit` calls `EndTask`. -/
  | cancelled
  /-- `Dispatch` has refused it and destroyed it.  `Submit` calls `EndTask`. -/
  | rejected
  /-- `Submit` has returned false. -/
  | refused
  | queued
  /-- A worker has popped it.  The wrapped task loads `mCancelled`. -/
  | popped
  /-- The body runs. -/
  | body
  /-- The wrapped task calls `EndTask`. -/
  | endTask
  /-- It has returned or thrown, and is in the variable of the worker. -/
  | done (threw : Bool)
  | destroyed
  deriving DecidableEq, Repr

/-- A closure that has captured a `SessionRef`. -/
structure Closure where
  /-- The slot of the session. -/
  slot : Nat := 0
  /-- The incarnation of the slot when the closure was made. -/
  incarnation : Nat := 0
  /-- It goes through `AsyncScope::Submit`, and not to `Dispatch` directly. -/
  inScope : Bool := false
  /-- The worker that its key selects. -/
  worker : Nat := 0
  /-- The thread that submits it. -/
  owner : Nat := 0
  stage : Stage := .none
  deriving DecidableEq, Repr

/-- Where a worker stands. -/
inductive WorkerPc where
  /-- In `Pop`. -/
  | pop
  /-- It runs what it has popped. -/
  | run
  /-- `WorkerThreadFunc` has returned. -/
  | exited
  deriving DecidableEq, Repr

/-- A worker of the dispatcher. -/
structure Worker where
  mQueue : List Nat := []
  /-- The local variable `task`. -/
  task : Option Nat := none
  pc : WorkerPc := .pop
  deriving DecidableEq, Repr

/-! ## Threads -/

/-- Who holds a reference. -/
inductive Holder where
  /-- `mSessions[id]`. -/
  | map (id : Nat)
  /-- A local variable of a thread. -/
  | thread (t : Nat)
  /-- A closure. -/
  | closure (n : Nat)
  deriving DecidableEq, Repr

/-- What a thread does after a call of `Close`. -/
inductive AfterClose where
  | nothing
  /-- `RemoveSession(id)`. -/
  | erase (id : Nat)
  /-- `CloseAllSessions` goes on with its copy. -/
  | closeAll (rest : List Nat)
  deriving DecidableEq, Repr

/-- The call that a thread is in. -/
inductive ThreadPc where
  | idle
  /-- `CreateSession` compares the number of sessions with `MAX_CONNECTIONS`. -/
  | limitTest
  /-- `SessionPool::Acquire`. -/
  | acquire
  /-- `Session::Initialize` for the slot `k`. -/
  | initSession (k : Nat)
  /-- `mSessions[id] = session`. -/
  | register (k id : Nat)
  /-- `Close` exchanges `mState` of the slot `k`. -/
  | close (k : Nat) (next : AfterClose)
  /-- `Close` calls `Cancel`. -/
  | cancel (k : Nat) (next : AfterClose)
  /-- `RemoveSession(session)` has read the id, and calls `IsConnected`. -/
  | removeTest (k id : Nat)
  /-- `RemoveSession(id)`. -/
  | erase (id : Nat)
  /-- `CloseAllSessions`: what is left of the copy. -/
  | closeAll (rest : List Nat)
  /-- In `Submit` or `Dispatch` with the closure `n`. -/
  | submit (n : Nat)
  deriving DecidableEq, Repr

/-- The call after a call of `Close`. -/
def AfterClose.pc : AfterClose → ThreadPc
  | .nothing => .idle
  | .erase id => .erase id
  | .closeAll rest => .closeAll rest

/-- The pool, the manager, the dispatcher and the threads. -/
structure Engine where
  /-- The free list of the pool, the last one first. -/
  mFreeList : List Nat
  slots : Nat → Slot := fun _ => {}
  /-- All references that exist. -/
  refs : List (Ref Holder Nat) := []
  /-- `sGlobalSeq` of `KeyGenerator`. -/
  sGlobalSeq : Nat := 0
  threads : Nat → ThreadPc := fun _ => .idle
  closures : Nat → Closure := fun _ => {}
  /-- The closures that have been made. -/
  made : List Nat := []
  workers : Nat → Worker := fun _ => {}
  mRunning : Bool := true
  /-- `Reset` has found a task in flight. -/
  aborted : Bool := false

/-- The engine after `Initialize(capacity)`. -/
def Engine.init (capacity : Nat) : Engine := { mFreeList := (List.range capacity).reverse }

/-! ## Changes of the state -/

/-- The references change, and `ReleaseInternal` is called for the slots that are released. -/
def Engine.setRefs (s : Engine) (refs : List (Ref Holder Nat)) : Engine :=
  { s with
    refs := refs
    slots := fun k =>
      if Released s.refs refs k then { s.slots k with release := some .close } else s.slots k }

/-- A reference more. -/
def Engine.addRef (s : Engine) (holder : Holder) (k : Nat) : Engine :=
  { s with refs := ⟨holder, k⟩ :: s.refs }

/-- The references of a holder go. -/
def Engine.dropAll (s : Engine) (holder : Holder) : Engine :=
  s.setRefs (s.refs.filter fun r => r.holder ≠ holder)

def Engine.setSlot (s : Engine) (k : Nat) (slot : Slot) : Engine :=
  { s with slots := Function.update s.slots k slot }

def Engine.setThread (s : Engine) (t : Nat) (pc : ThreadPc) : Engine :=
  { s with threads := Function.update s.threads t pc }

def Engine.setStage (s : Engine) (n : Nat) (stage : Stage) : Engine :=
  { s with closures := Function.update s.closures n { s.closures n with stage := stage } }

def Engine.setWorker (s : Engine) (i : Nat) (w : Worker) : Engine :=
  { s with workers := Function.update s.workers i w }

/-- A closure is destroyed. -/
def Engine.destroy (s : Engine) (n : Nat) : Engine :=
  (s.dropAll (.closure n)).setStage n .destroyed

/-- The thread has a reference to the slot. -/
def Engine.holds (s : Engine) (t k : Nat) : Prop := ⟨.thread t, k⟩ ∈ s.refs

instance (s : Engine) (t k : Nat) : Decidable (s.holds t k) :=
  inferInstanceAs (Decidable (_ ∈ s.refs))

/-! ## The session manager -/

/-- The entry of a reference that the manager holds. -/
def entry (r : Ref Holder Nat) : Option (Nat × Nat) :=
  match r.holder with
  | .map id => some (id, r.slot)
  | .thread _ | .closure _ => none

/-- `mSessions`: the ids and the slots of the sessions. -/
def Engine.mSessions (s : Engine) : List (Nat × Nat) := s.refs.filterMap entry

/-- `mSessions.find(id)`. -/
def Engine.find (s : Engine) (id : Nat) : Option Nat := s.mSessions.lookup id

/-- `MAX_CONNECTIONS`. -/
def maxConnections : Nat := 1000

/-- `NextGlobalId`. -/
def nextGlobalId (sGlobalSeq : Nat) : Nat := (sGlobalSeq + 1) % 2 ^ 64

/-! ## The threads -/

section
variable (workerCount : Nat)

/-- A step of `Submit`, or of `Dispatch` called directly.  `accepted` says whether `Push`
takes the closure. -/
def submitStep (s : Engine) (t n : Nat) (accepted : Bool) : Option Engine :=
  let k := (s.closures n).slot
  match (s.closures n).stage with
  | .beginTask =>
      some ((s.setSlot k { s.slots k with mInFlight := (s.slots k).mInFlight + 1 }).setStage n
        .cancelledTest)
  | .cancelledTest =>
      some (s.setStage n (if (s.slots k).mCancelled then .cancelled else .dispatch))
  | .dispatch =>
      if s.mRunning = true ∧ 0 < workerCount then some (s.setStage n .push)
      else some ((s.destroy n).setStage n .rejected)
  | .push =>
      if accepted then
        let w := s.workers (s.closures n).worker
        some (((s.setWorker (s.closures n).worker { w with mQueue := w.mQueue ++ [n] }).setStage n
          .queued).setThread t .idle)
      else some ((s.destroy n).setStage n .rejected)
  | .cancelled =>
      some (((s.setSlot k { s.slots k with mInFlight := (s.slots k).mInFlight - 1 }).destroy
        n).setStage n .refused |>.setThread t .idle)
  | .rejected =>
      let slot := s.slots k
      some ((if (s.closures n).inScope then
          s.setSlot k { slot with mInFlight := slot.mInFlight - 1 } else s).setStage n
        .refused |>.setThread t .idle)
  | _ => none

/-- The thread goes on with its call. -/
def threadStep (s : Engine) (t : Nat) (accepted : Bool) : Option Engine :=
  match s.threads t with
  | .idle => none
  | .limitTest =>
      some (s.setThread t (if maxConnections ≤ s.mSessions.length then .idle else .acquire))
  | .acquire =>
      match s.mFreeList with
      | [] => some (s.setThread t .idle)
      | k :: rest =>
          some ({ s with mFreeList := rest }.setSlot k
            { s.slots k with inUse := true, incarnation := (s.slots k).incarnation + 1 }
              |>.addRef (.thread t) k |>.setThread t (.initSession k))
  | .initSession k =>
      let id := nextGlobalId s.sGlobalSeq
      some ({ s with sGlobalSeq := s.sGlobalSeq + 1 }.setSlot k
        { s.slots k with mId := id, mState := .connected } |>.setThread t (.register k id))
  | .register k id =>
      some ((s.setRefs (⟨.map id, k⟩ :: s.refs.filter fun r => r.holder ≠ .map id)).setThread t
        .idle)
  | .close k next =>
      some (if (s.slots k).mState = .disconnected then s.setThread t next.pc
        else (s.setSlot k { s.slots k with mState := .disconnected }).setThread t (.cancel k next))
  | .cancel k next => some ((s.setSlot k { s.slots k with mCancelled := true }).setThread t next.pc)
  | .removeTest k id =>
      some (s.setThread t (if (s.slots k).mState = .connected then .close k (.erase id)
        else .erase id))
  | .erase id => some ((s.dropAll (.map id)).setThread t .idle)
  | .closeAll [] =>
      some ((s.setRefs (s.refs.filter fun r => (entry r).isNone)).setThread t .idle)
  | .closeAll (k :: rest) => some (s.setThread t (.close k (.closeAll rest)))
  | .submit n => submitStep workerCount s t n accepted

/-! ## The workers -/

/-- A step of the worker `i` in the closure `n`.  `throws` says how the body ends. -/
def runStep (s : Engine) (i n : Nat) (throws : Bool) : Option Engine :=
  let k := (s.closures n).slot
  let w := s.workers i
  match (s.closures n).stage with
  | .popped =>
      some (s.setStage n (if (s.closures n).inScope ∧ (s.slots k).mCancelled then .endTask
        else .body))
  | .body =>
      some (if throws then (s.setStage n (.done true)).setWorker i { w with pc := .pop }
        else if (s.closures n).inScope then s.setStage n .endTask
        else (s.setStage n (.done false)).setWorker i { w with pc := .pop })
  | .endTask =>
      some (((s.setSlot k { s.slots k with mInFlight := (s.slots k).mInFlight - 1 }).setStage n
        (.done false)).setWorker i { w with pc := .pop })
  | _ => none

/-- What is in the variable `task` is destroyed. -/
def Engine.dropTask (s : Engine) (i : Nat) : Engine :=
  match (s.workers i).task with
  | none => s
  | some n => s.destroy n

/-- A step of the worker `i`.  What it pops is moved into `task`. -/
def workerStep (s : Engine) (i : Nat) (throws : Bool) : Option Engine :=
  let w := s.workers i
  match w.pc with
  | .pop =>
      match w.mQueue with
      | n :: rest =>
          some (((s.dropTask i).setStage n .popped).setWorker i
            { mQueue := rest, task := some n, pc := .run })
      | [] =>
          if s.mRunning then none
          else some ((s.dropTask i).setWorker i { mQueue := [], task := none, pc := .exited })
  | .run =>
      match w.task with
      | some n => runStep s i n throws
      | none => none
  | .exited => none

/-! ## Releasing a slot -/

/-- The effect of `Close` where nobody else has a reference. -/
def Slot.close (slot : Slot) : Slot :=
  if slot.mState = .disconnected then slot
  else { slot with mState := .disconnected, mCancelled := true }

/-- A step of `ReleaseInternal(k)`. -/
def releaseStep (s : Engine) (k : Nat) : Option Engine :=
  match (s.slots k).release with
  | none => none
  | some .close => some (s.setSlot k { (s.slots k).close with release := some .reset })
  | some .reset =>
      some (if (s.slots k).mInFlight ≠ 0 then { s with aborted := true }
        else s.setSlot k
          { s.slots k with mId := 0, mState := .none, mCancelled := false, release := some .push })
  | some .push =>
      some { s.setSlot k { s.slots k with inUse := false, release := none } with
        mFreeList := k :: s.mFreeList }

/-! ## Steps -/

/-- What happens next. -/
inductive Act where
  /-- `CreateSession`. -/
  | create (t : Nat)
  /-- `GetSession(id)`. -/
  | get (t id : Nat)
  /-- The thread copies one of its references to the slot `k`. -/
  | copy (t k : Nat)
  /-- The thread drops one of its references to the slot `k`. -/
  | drop (t k : Nat)
  /-- `RemoveSession(id)`. -/
  | removeId (t id : Nat)
  /-- `RemoveSession(session)` with one of its references. -/
  | remove (t k : Nat)
  /-- `Session::Close` with one of its references. -/
  | close (t k : Nat)
  /-- `CloseAllSessions`. -/
  | closeAll (t : Nat)
  /-- `Submit` or `Dispatch` of a new closure `n`, with one of its references. -/
  | submit (t k n : Nat) (inScope : Bool)
  /-- The thread goes on with its call. -/
  | thread (t : Nat) (accepted : Bool)
  /-- The body that the worker `i` runs gives a thread a copy of its reference. -/
  | give (i t : Nat)
  /-- A step of the worker `i`. -/
  | worker (i : Nat) (throws : Bool)
  /-- `Shutdown` of the dispatcher clears `mRunning`. -/
  | shutdown
  /-- It destroys a closure that is left in the queue of the worker `i`. -/
  | clear (i : Nat)
  /-- A step of `ReleaseInternal(k)`. -/
  | release (k : Nat)
  deriving DecidableEq, Repr

/-- One step. -/
def step (s : Engine) (a : Act) : Option Engine :=
  if s.aborted then none
  else
    match a with
    | .create t => if s.threads t = .idle then some (s.setThread t .limitTest) else none
    | .get t id =>
        if s.threads t = .idle then
          match s.find id with
          | none => some s
          | some k => some (s.addRef (.thread t) k)
        else none
    | .copy t k =>
        if s.threads t = .idle ∧ s.holds t k then some (s.addRef (.thread t) k) else none
    | .drop t k =>
        if s.threads t = .idle ∧ s.holds t k then some (s.setRefs (s.refs.erase ⟨.thread t, k⟩))
        else none
    | .removeId t id => if s.threads t = .idle then some (s.setThread t (.erase id)) else none
    | .remove t k =>
        if s.threads t = .idle ∧ s.holds t k then
          some (s.setThread t (.removeTest k (s.slots k).mId))
        else none
    | .close t k =>
        if s.threads t = .idle ∧ s.holds t k then some (s.setThread t (.close k .nothing)) else none
    | .closeAll t =>
        if s.threads t = .idle then
          let copy := s.mSessions.map Prod.snd
          some ({ s with refs := (copy.map fun k => Ref.mk (Holder.thread t) k) ++ s.refs }.setThread t
            (.closeAll copy))
        else none
    | .submit t k n inScope =>
        if s.threads t = .idle ∧ s.holds t k ∧ (s.closures n).stage = .none then
          some ({ s.addRef (.closure n) k with
              made := s.made ++ [n]
              closures := Function.update s.closures n {
                slot := k
                incarnation := (s.slots k).incarnation
                inScope := inScope
                worker := (s.slots k).mId % workerCount
                owner := t
                stage := if inScope then .beginTask else .dispatch } }.setThread t (.submit n))
        else none
    | .thread t accepted => threadStep workerCount s t accepted
    | .give i t =>
        match (s.workers i).task with
        | none => none
        | some n =>
            if s.threads t = .idle ∧ (s.closures n).stage = .body then
              some (s.addRef (.thread t) (s.closures n).slot)
            else none
    | .worker i throws => workerStep s i throws
    | .shutdown => some { s with mRunning := false }
    | .clear i =>
        if s.mRunning = false ∧ ∀ j < workerCount, (s.workers j).pc = .exited then
          match (s.workers i).mQueue with
          | [] => none
          | n :: rest => some ((s.destroy n).setWorker i { s.workers i with mQueue := rest })
        else none
    | .release k => releaseStep s k

end

end NetworkModule.SessionLifetime
