import NetworkModule.DBServer.Worker

/-!
# DBServerTaskQueue

The whole queue of `TestServer/src/DBServerTaskQueue.cpp`: its workers with their
threads, `Initialize` and `Shutdown`, `EnqueueTask` and `OnDBResponse`.  A task
goes to the worker `sessionId % mWorkers.size()`, and a response goes to the
worker whose index is the slot in the request id.

`Initialize` and `Shutdown` are called by one thread, one after the other.  The
other calls come from any thread.  `EnqueueTask` reads `mIsRunning` twice, so a
call is in progress between the two reads.

The histories record the callbacks that `EnqueueTask` invokes and the responses
that `OnDBResponse` delivers, each with the index of the worker.
-/

namespace NetworkModule.DBServer

/-- A worker and its thread. -/
structure Worker where
  data : WorkerData
  pc : WorkerPc := .stopped

/-- How far `Shutdown` has come. -/
inductive ShutdownPc where
  /-- `Shutdown` is not running. -/
  | idle
  /-- It has cleared `mIsRunning` and waits for the threads. -/
  | joining
  /-- The threads have ended, and the next `ShutdownDrain` is for the worker `i`. -/
  | draining (i : Nat)
  deriving DecidableEq, Repr

/-- `DBServerTaskQueue`. -/
structure DBServerTaskQueue where
  mWorkers : List Worker := []
  mIsRunning : Bool := false
  shutdownPc : ShutdownPc := .idle
  /-- The calls of `EnqueueTask` past their first checks, each with its worker. -/
  calls : List (DBServerTask × Nat) := []
  /-- The steady clock, in milliseconds. -/
  clock : Nat := 0
  /-- The number of the next task. -/
  nextUid : Nat := 0
  /-- The callbacks that `EnqueueTask` invoked. -/
  rejected : List Invoked := []
  /-- The responses delivered, each with the worker that got it. -/
  delivered : List (UInt64 × Nat) := []

namespace DBServerTaskQueue

/-! ## Lifecycle -/

/-- The body of `Initialize` past its checks.  The workers of an earlier cycle are
still in `mWorkers`, and their threads are started again. -/
def startWorkers (q : DBServerTaskQueue) (workerCount : Nat) : DBServerTaskQueue :=
  let mWorkers := q.mWorkers ++ (List.range workerCount).map fun i => { data := .make i }
  { q with
    mIsRunning := true
    mWorkers := mWorkers.map fun w => { w with pc := .wait } }

/-- `Initialize`, with what it returns. -/
def initializeQueue (q : DBServerTaskQueue) (workerCount : Nat) (hasSendFunc : Bool) :
    Bool × DBServerTaskQueue :=
  if q.mIsRunning then (true, q)
  else if workerCount = 0 ∨ workerCount > 255 then (false, q)
  else if !hasSendFunc then (false, q)
  else (true, q.startWorkers workerCount)

/-- The first part of `Shutdown`. -/
def shutdown (q : DBServerTaskQueue) : DBServerTaskQueue :=
  if q.mIsRunning then { q with mIsRunning := false, shutdownPc := .joining } else q

/-- Change one worker. -/
def modifyWorker (q : DBServerTaskQueue) (p : Nat) (f : Worker → Worker) : DBServerTaskQueue :=
  { q with mWorkers := q.mWorkers.modify p f }

/-! ## EnqueueTask and OnDBResponse -/

/-- The worker of a session. -/
def workerIndex (q : DBServerTaskQueue) (sessionId : ConnectionId) : Nat :=
  sessionId.toNat % q.mWorkers.length

/-- Invoke the callback of a task that is not accepted. -/
def reject (q : DBServerTaskQueue) (t : DBServerTask) (result : ResultCode) (detail : String) :
    DBServerTaskQueue :=
  { q with rejected := q.rejected ++ (t.callback.map fun uid => Invoked.mk uid result detail).toList }

/-- `EnqueueTask` up to the lock. -/
def enqueueTask (q : DBServerTaskQueue) (t : DBServerTask) : DBServerTaskQueue :=
  if !q.mIsRunning then q.reject t .shuttingDown "DBServerTaskQueue not running"
  else if q.mWorkers.isEmpty then q.reject t .notInitialized "No workers"
  else { q with calls := q.calls ++ [(t, q.workerIndex t.sessionId)] }

/-- `EnqueueTask` from the lock on, with the second check. -/
def pushTask (q : DBServerTaskQueue) (t : DBServerTask) (p : Nat) : DBServerTaskQueue :=
  if q.mIsRunning then
    q.modifyWorker p fun w =>
      { w with data := { w.data with taskQueue := w.data.taskQueue ++ [t] } }
  else q.reject t .shuttingDown "DBServerTaskQueue shutting down"

/-- `OnDBResponse`. -/
def onDBResponse (q : DBServerTaskQueue) (resp : DBResponseEvent) : DBServerTaskQueue :=
  let p := (KeyGenerator.getSlot resp.requestId).toNat
  if p ≥ q.mWorkers.length then q
  else
    { q.modifyWorker p fun w =>
        { w with data := { w.data with responseQueue := w.data.responseQueue ++ [resp] } } with
      delivered := q.delivered ++ [(resp.requestId, p)] }

end DBServerTaskQueue

/-! ## Steps -/

/-- Who moves. -/
inductive QueueAct where
  | initializeQueue (workerCount : Nat) (hasSendFunc : Bool)
  | shutdown
  /-- `Shutdown` has joined every thread. -/
  | join
  /-- `Shutdown` calls `ShutdownDrain` for the next worker, or returns. -/
  | drain
  /-- A thread calls `EnqueueTask`.  The task gets the next number. -/
  | enqueue (t : DBServerTask)
  /-- A call of `EnqueueTask` takes the lock. -/
  | push (c : Nat)
  | respond (resp : DBResponseEvent)
  /-- The clock moves forward by `ms`. -/
  | tick (ms : Nat)
  /-- The map of sessions of worker `p` changes its order of iteration. -/
  | rehash (p : Nat) (m : Sessions)
  /-- The thread of worker `p` takes its next step. -/
  | work (p : Nat) (sendOk : Bool)

/-- One step of the queue and its environment. -/
def queueStep (q : DBServerTaskQueue) : QueueAct → Option DBServerTaskQueue
  | .initializeQueue workerCount hasSendFunc =>
      if q.shutdownPc = .idle then some (q.initializeQueue workerCount hasSendFunc).2 else none
  | .shutdown => if q.shutdownPc = .idle then some q.shutdown else none
  | .join =>
      if q.shutdownPc = .joining ∧ ∀ w ∈ q.mWorkers, w.pc = .stopped then
        some { q with shutdownPc := .draining 0 }
      else none
  | .drain =>
      match q.shutdownPc with
      | .draining i =>
          if i < q.mWorkers.length then
            some { q.modifyWorker i fun w => { w with data := w.data.shutdownDrain } with
              shutdownPc := .draining (i + 1) }
          else some { q with shutdownPc := .idle }
      | _ => none
  | .enqueue t => some { q.enqueueTask { t with uid := q.nextUid } with nextUid := q.nextUid + 1 }
  | .push c =>
      match q.calls[c]? with
      | none => none
      | some (t, p) => some ({ q with calls := q.calls.eraseIdx c }.pushTask t p)
  | .respond resp => some (q.onDBResponse resp)
  | .tick ms => some { q with clock := q.clock + ms }
  | .rehash p m =>
      match q.mWorkers[p]? with
      | none => none
      | some w =>
          if m.entries.Perm w.data.sessions.entries then
            some (q.modifyWorker p fun w => { w with data := { w.data with sessions := m } })
          else none
  | .work p sendOk =>
      match q.mWorkers[p]? with
      | none => none
      | some w =>
          (workerStep q.mIsRunning q.clock sendOk w.data w.pc).map fun x =>
            q.modifyWorker p fun _ => ⟨x.1, x.2⟩

end NetworkModule.DBServer
