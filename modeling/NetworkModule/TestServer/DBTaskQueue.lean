import NetworkModule.Lib.FifoPool
import NetworkModule.Wal.Queue

/-!
# The threads of DBTaskQueue

The queue of `TestServer/src/DBTaskQueue.cpp` in one life of the process, with all
its threads: any number of `EnqueueTask` calls, one thread per worker, and one
`Shutdown`.  Every atomic access, lock operation and queue operation is one step.
The write-ahead log is a list of chunks here.  Its meaning is the subject of
`Wal.Queue`, where a call pushes its task in one step.

A task is known by the number of the `EnqueueTask` call that brought it.  A
notification of a condition variable is not modelled: a worker that sleeps may wake
at any time, as the standard allows.  Callbacks do not throw, so the drain never
gets to its `catch`.

The state carries histories that no step reads: the calls whose task was pushed,
taken, processed and rejected, each in order, and the callbacks invoked.  The queue
refines the pool of `FifoPool` with one lane per worker (`simulates_pool`).
-/

namespace NetworkModule.TestServer

open NetworkModule.Wal (DBTask DbAnswer processResult Chunk pendingChunk doneChunk nextGlobalId)

/-! ## Threads -/

/-- Where an `EnqueueTask` call stands. -/
inductive CallPc where
  /-- The call has not been made. -/
  | idle
  /-- The first load of `mIsRunning`. -/
  | runningTest
  /-- `WalNextSeq`. -/
  | nextSeq
  /-- `WalWritePending`. -/
  | writePending
  /-- Taking the mutex of the worker. -/
  | lock
  /-- The second load of `mIsRunning`, under the lock. -/
  | lockedTest
  /-- `taskQueue.push`. -/
  | push
  /-- Releasing the mutex. -/
  | unlock (accepted : Bool)
  /-- `cv.notify_one`. -/
  | notify
  /-- `WalWriteDone` for a task that was rejected under the lock. -/
  | writeDone
  /-- Invoking the callback of a rejected task. -/
  | callback (text : String)
  /-- The call has returned. -/
  | returned (accepted : Bool)
  deriving DecidableEq, Repr

/-- Where a thread stands with a task it has taken. -/
inductive RunPc where
  /-- In the handler of `ProcessTask`. -/
  | process
  /-- At the callback of `ProcessTask`. -/
  | callback (success : Bool) (result : String)
  /-- `ProcessTask` has returned.  At `WalWriteDone`. -/
  | writeDone
  deriving DecidableEq, Repr

/-- Where the thread of a worker stands, and after its end, where `Shutdown` stands
with the worker. -/
inductive WorkerPc where
  /-- The load of `mIsRunning` at the head of the loop. -/
  | head
  /-- Taking the mutex, before `wait` or inside it. -/
  | lock
  /-- The predicate of `wait` tests the queue. -/
  | queueTest
  /-- The queue is empty, and the predicate loads `mIsRunning`. -/
  | runningTest
  /-- Asleep in `wait`, without the mutex. -/
  | sleep
  /-- Taking the front of the queue. -/
  | take
  /-- Releasing the mutex. -/
  | unlock (task : Option Nat)
  | running (c : Nat) (pc : RunPc)
  /-- The thread has ended. -/
  | stopped
  /-- `Shutdown` moves the queue to `drainTasks`. -/
  | collect (drainTasks : List Nat)
  /-- `Shutdown` is at the head of its loop over `drainTasks`. -/
  | next (drainTasks : List Nat)
  | draining (drainTasks : List Nat) (c : Nat) (pc : RunPc)
  /-- `Shutdown` is done with the worker. -/
  | drained
  deriving DecidableEq, Repr

/-- `WorkerData`. -/
structure WorkerData where
  taskQueue : List Nat := []
  pc : WorkerPc := .head
  deriving DecidableEq, Repr

/-- Where `Shutdown` stands. -/
inductive ShutdownPc where
  /-- Not called. -/
  | idle
  /-- `mIsRunning.store(false)`. -/
  | store
  /-- Joining the thread of worker `i`. -/
  | join (i : Nat)
  /-- Draining worker `i`. -/
  | drain (i : Nat)
  /-- Closing the log. -/
  | closeWal
  /-- The call has returned. -/
  | returned
  deriving DecidableEq, Repr

/-- The queue and all its threads. -/
structure DBTaskQueue where
  mIsRunning : Bool := true
  /-- The workers, by index. -/
  workers : Nat → WorkerData := fun _ => {}
  /-- Whether the mutex of each worker is held. -/
  mutexes : Nat → Bool := fun _ => false
  /-- The `EnqueueTask` calls, by number. -/
  calls : Nat → CallPc := fun _ => .idle
  /-- The field `walSeq` of the task of each call. -/
  walSeq : Nat → Nat := fun _ => 0
  shutdown : ShutdownPc := .idle
  /-- The counter of `NextGlobalId`. -/
  sGlobalSeq : Nat := 0
  wal : List Chunk := []
  /-- The callbacks invoked, in order. -/
  callbacks : List (Nat × Bool × String) := []
  /-- The calls whose task was pushed, in order. -/
  pushed : List Nat := []
  /-- The calls whose task was taken for processing, in order. -/
  taken : List Nat := []
  /-- The calls whose task `ProcessTask` has processed, in order. -/
  finished : List Nat := []
  /-- The calls whose task was rejected, in order. -/
  rejected : List Nat := []

/-- What a run of the queue is given: the number of workers, and the tasks that the
`EnqueueTask` calls bring. -/
structure QueueConfig where
  workerCount : Nat
  /-- `EnqueueTask` divides by the number of workers. -/
  workerCount_pos : 0 < workerCount
  args : Nat → DBTask

/-! ## Steps -/

/-- Who moves. -/
inductive QueueAct where
  /-- A thread calls `EnqueueTask` as call number `c`. -/
  | call (c : Nat)
  /-- Call `c` takes its next step. -/
  | enqueue (c : Nat)
  /-- The thread of worker `i` takes its next step.  `answer` is what a handler finds in
  the database. -/
  | work (i : Nat) (answer : DbAnswer)
  /-- `Shutdown` is called or takes its next step. -/
  | shutdown (answer : DbAnswer)
  deriving DecidableEq

section
variable (cfg : QueueConfig)

/-- The worker a call is routed to. -/
def workerIndex (c : Nat) : Nat := (cfg.args c).sessionId.toNat % cfg.workerCount

namespace DBTaskQueue

/-- The task of a call as it stands. -/
def task (s : DBTaskQueue) (c : Nat) : DBTask := { cfg.args c with uid := c, walSeq := s.walSeq c }

/-- Move a call to another place. -/
def setCall (s : DBTaskQueue) (c : Nat) (pc : CallPc) : DBTaskQueue :=
  { s with calls := Function.update s.calls c pc }

/-- Replace a worker. -/
def setWorker (s : DBTaskQueue) (i : Nat) (w : WorkerData) : DBTaskQueue :=
  { s with workers := Function.update s.workers i w }

/-- Take or release the mutex of a worker. -/
def setMutex (s : DBTaskQueue) (i : Nat) (held : Bool) : DBTaskQueue :=
  { s with mutexes := Function.update s.mutexes i held }

/-- Append to the log. -/
def append (s : DBTaskQueue) (chunk : Chunk) : DBTaskQueue := { s with wal := s.wal ++ [chunk] }

/-- Invoke the callback of a task, if there is one. -/
def invoke (s : DBTaskQueue) (c : Nat) (success : Bool) (result : String) : DBTaskQueue :=
  { s with
    callbacks := s.callbacks ++ if (cfg.args c).hasCallback then [(c, success, result)] else [] }

end DBTaskQueue

/-- One step of the `EnqueueTask` call `c`. -/
def enqueueStep (s : DBTaskQueue) (c : Nat) : Option DBTaskQueue :=
  let i := workerIndex cfg c
  match s.calls c with
  | .idle => none
  | .runningTest =>
      if s.mIsRunning then some (s.setCall c (if s.walSeq c = 0 then .nextSeq else .lock))
      else some (s.setCall c (.callback "DBTaskQueue not running"))
  | .nextSeq =>
      let seq := nextGlobalId s.sGlobalSeq
      some ({ s with sGlobalSeq := seq, walSeq := Function.update s.walSeq c seq }.setCall c
        .writePending)
  | .writePending => some ((s.append (pendingChunk (s.task cfg c))).setCall c .lock)
  | .lock => if s.mutexes i then none else some ((s.setMutex i true).setCall c .lockedTest)
  | .lockedTest => some (s.setCall c (if s.mIsRunning then .push else .unlock false))
  | .push =>
      let w := s.workers i
      some (({ s with pushed := s.pushed ++ [c] }.setWorker i
        { w with taskQueue := w.taskQueue ++ [c] }).setCall c (.unlock true))
  | .unlock accepted =>
      some ((s.setMutex i false).setCall c
        (if accepted then .notify
        else if s.walSeq c ≠ 0 then .writeDone
        else .callback "DBTaskQueue shutting down"))
  | .notify => some (s.setCall c (.returned true))
  | .writeDone =>
      some ((s.append (doneChunk (s.task cfg c))).setCall c (.callback "DBTaskQueue shutting down"))
  | .callback text =>
      some (({ s with rejected := s.rejected ++ [c] }.invoke cfg c false text).setCall c
        (.returned false))
  | .returned _ => none

/-- One step with a task that was taken, and where the thread is with it then.  The
loop of the worker and the drain of `Shutdown` share it. -/
def taskStep (s : DBTaskQueue) (c : Nat) (answer : DbAnswer) : RunPc → DBTaskQueue × Option RunPc
  | .process =>
      let r := processResult (s.task cfg c) answer
      (s, some (.callback r.1 r.2))
  | .callback success result =>
      ({ s with finished := s.finished ++ [c] }.invoke cfg c success result,
        if success && s.walSeq c ≠ 0 then some .writeDone else none)
  | .writeDone => (s.append (doneChunk (s.task cfg c)), none)

/-- One step of the thread of worker `i`. -/
def workStep (s : DBTaskQueue) (i : Nat) (answer : DbAnswer) : Option DBTaskQueue :=
  let w := s.workers i
  match w.pc with
  | .head => some (s.setWorker i { w with pc := if s.mIsRunning then .lock else .stopped })
  | .lock =>
      if s.mutexes i then none else some ((s.setMutex i true).setWorker i { w with pc := .queueTest })
  | .queueTest =>
      some (s.setWorker i { w with pc := if w.taskQueue.isEmpty then .runningTest else .take })
  | .runningTest =>
      if s.mIsRunning then some ((s.setMutex i false).setWorker i { w with pc := .sleep })
      else some (s.setWorker i { w with pc := .unlock none })
  | .sleep => some (s.setWorker i { w with pc := .lock })
  | .take =>
      match w.taskQueue with
      | c :: rest =>
          some ({ s with taken := s.taken ++ [c] }.setWorker i ⟨rest, .unlock (some c)⟩)
      | [] => none
  | .unlock task =>
      some ((s.setMutex i false).setWorker i { w with
        pc := match task with
          | some c => .running c .process
          | none => .head })
  | .running c pc =>
      let r := taskStep cfg s c answer pc
      some (r.1.setWorker i { w with
        pc := match r.2 with
          | some pc' => .running c pc'
          | none => .head })
  | _ => none

/-- One step of the loop of `Shutdown` with worker `i`, whose thread has ended.  No
lock is taken. -/
def drainStep (s : DBTaskQueue) (i : Nat) (answer : DbAnswer) : Option DBTaskQueue :=
  let w := s.workers i
  match w.pc with
  | .stopped => some (s.setWorker i { w with pc := .collect [] })
  | .collect drainTasks =>
      match w.taskQueue with
      | c :: rest => some (s.setWorker i ⟨rest, .collect (drainTasks ++ [c])⟩)
      | [] => some (s.setWorker i { w with pc := .next drainTasks })
  | .next (c :: drainTasks) =>
      some ({ s with taken := s.taken ++ [c] }.setWorker i
        { w with pc := .draining drainTasks c .process })
  | .next [] => some (s.setWorker i { w with pc := .drained })
  | .draining drainTasks c pc =>
      let r := taskStep cfg s c answer pc
      some (r.1.setWorker i { w with
        pc := match r.2 with
          | some pc' => .draining drainTasks c pc'
          | none => .next drainTasks })
  | _ => none

/-- One step of `Shutdown`. -/
def shutdownStep (s : DBTaskQueue) (answer : DbAnswer) : Option DBTaskQueue :=
  match s.shutdown with
  | .idle => some { s with shutdown := if s.mIsRunning then .store else .returned }
  | .store => some { s with mIsRunning := false, shutdown := .join 0 }
  | .join i =>
      if i < cfg.workerCount then
        if (s.workers i).pc = .stopped then some { s with shutdown := .join (i + 1) } else none
      else some { s with shutdown := .drain 0 }
  | .drain i =>
      if i < cfg.workerCount then
        if (s.workers i).pc = .drained then some { s with shutdown := .drain (i + 1) }
        else drainStep cfg s i answer
      else some { s with shutdown := .closeWal }
  | .closeWal => some { s with shutdown := .returned }
  | .returned => none

/-- One step of the queue. -/
def queueStep (s : DBTaskQueue) : QueueAct → Option DBTaskQueue
  | .call c =>
      if s.calls c = .idle then
        some ({ s with walSeq := Function.update s.walSeq c (cfg.args c).walSeq }.setCall c
          .runningTest)
      else none
  | .enqueue c => enqueueStep cfg s c
  | .work i answer => if i < cfg.workerCount then workStep cfg s i answer else none
  | .shutdown answer => shutdownStep cfg s answer

/-! ## What a step does -/

/-- The task of the call has been pushed. -/
def CallPc.accepted : CallPc → Bool
  | .notify => true
  | .unlock accepted | .returned accepted => accepted
  | _ => false

/-- The task of the call has been rejected, and its callback was invoked. -/
def CallPc.rejected : CallPc → Bool
  | .returned accepted => !accepted
  | _ => false

/-- Whether `ProcessTask` is still to return. -/
def RunPc.inProcess : RunPc → Bool
  | .process | .callback _ _ => true
  | .writeDone => false

/-- The task that is taken from a worker's queue and not processed. -/
def WorkerPc.held : WorkerPc → Option Nat
  | .unlock task => task
  | .running c pc | .draining _ c pc => if pc.inProcess then some c else none
  | _ => none

/-- The tasks that `Shutdown` has collected and not taken. -/
def WorkerPc.collected : WorkerPc → List Nat
  | .collect drainTasks | .next drainTasks | .draining drainTasks _ _ => drainTasks
  | _ => []

/-- `Shutdown` has found the queue of the worker empty. -/
def WorkerPc.emptied : WorkerPc → Bool
  | .next _ | .draining _ _ _ | .drained => true
  | _ => false

/-- The workers that `Shutdown` is done with. -/
def ShutdownPc.drained : ShutdownPc → Nat
  | .drain i => i
  | .closeWal | .returned => cfg.workerCount
  | _ => 0

/-- What a step does to the worker it is for, apart from its tasks. -/
structure WorkerMove (w w' : WorkerData) : Prop where
  live : w.pc ≠ .drained
  /-- Nothing is taken from a queue that was found empty. -/
  kept : w.pc.emptied = true → w'.pc.emptied = true ∧ w'.taskQueue = w.taskQueue
  left : w'.pc.emptied = true → w.pc.emptied = true ∨ w'.taskQueue = []

/-- Everything a step can do, with the guards that matter. -/
inductive Effect (s : DBTaskQueue) : QueueAct → DBTaskQueue → Prop where
  /-- A call moves, and its task is neither pushed nor rejected. -/
  | move (a : QueueAct) (c seq : Nat) (pc : CallPc) (walSeq : Nat → Nat) (wal : List Chunk)
      (mutexes : Nat → Bool) : s.calls c ≠ .push → pc.accepted = (s.calls c).accepted →
      pc.rejected = (s.calls c).rejected → (∀ d, a = .enqueue d → d = c) → pc ≠ .idle →
      Effect s a ({ s with
        sGlobalSeq := seq
        walSeq := walSeq
        wal := wal
        mutexes := mutexes }.setCall c pc)
  | push (c : Nat) : s.calls c = .push →
      Effect s (.enqueue c) (({ s with pushed := s.pushed ++ [c] }.setWorker (workerIndex cfg c)
        { s.workers (workerIndex cfg c) with
          taskQueue := (s.workers (workerIndex cfg c)).taskQueue ++ [c] }).setCall c (.unlock true))
  | reject (c : Nat) (text : String) : s.calls c = .callback text →
      Effect s (.enqueue c)
        (({ s with rejected := s.rejected ++ [c] }.invoke cfg c false text).setCall c
          (.returned false))
  /-- A worker or `Shutdown` moves, and its tasks stay where they are. -/
  | idle (a : QueueAct) (i : Nat) (w : WorkerData) (wal : List Chunk) (mutexes : Nat → Bool) :
      (∀ c, a ≠ .enqueue c) → WorkerMove (s.workers i) w →
      w.pc.collected ++ w.taskQueue = (s.workers i).pc.collected ++ (s.workers i).taskQueue →
      w.pc.held = (s.workers i).pc.held →
      Effect s a ({ s with wal := wal, mutexes := mutexes }.setWorker i w)
  | take (a : QueueAct) (i c : Nat) (w : WorkerData) : (∀ c, a ≠ .enqueue c) →
      WorkerMove (s.workers i) w →
      (s.workers i).pc.collected ++ (s.workers i).taskQueue = c :: (w.pc.collected ++ w.taskQueue) →
      (s.workers i).pc.held = none → w.pc.held = some c →
      Effect s a ({ s with taken := s.taken ++ [c] }.setWorker i w)
  | finish (a : QueueAct) (i c : Nat) (success : Bool) (result : String) (w : WorkerData) :
      (∀ c, a ≠ .enqueue c) → WorkerMove (s.workers i) w →
      w.pc.collected ++ w.taskQueue = (s.workers i).pc.collected ++ (s.workers i).taskQueue →
      (s.workers i).pc.held = some c → w.pc.held = none →
      Effect s a
        (({ s with finished := s.finished ++ [c] }.invoke cfg c success result).setWorker i w)
  | shut (a : QueueAct) (pc : ShutdownPc) (running : Bool) : (∀ c, a ≠ .enqueue c) → pc ≠ .idle →
      ((s.shutdown = .idle → s.mIsRunning = true) → ∀ i, i < pc.drained cfg →
        i < s.shutdown.drained cfg ∨ (s.workers i).pc = .drained) →
      Effect s a { s with shutdown := pc, mIsRunning := running }

variable {cfg}

theorem enqueueStep_effect {s s' : DBTaskQueue} {c : Nat} (h : enqueueStep cfg s c = some s') :
    Effect cfg s (.enqueue c) s' := by
  have hself : ∀ d, QueueAct.enqueue c = .enqueue d → d = c := fun d hd =>
    (QueueAct.enqueue.inj hd).symm
  simp only [enqueueStep] at h
  cases hpc : s.calls c with
  | idle | returned => simp [hpc] at h
  | runningTest =>
      simp only [hpc] at h
      split at h
      · cases h
        refine .move _ c s.sGlobalSeq _ s.walSeq s.wal s.mutexes (by simp [hpc]) ?_ ?_ hself ?_ <;>
          split <;> simp [hpc, CallPc.accepted, CallPc.rejected]
      · cases h
        exact .move _ c s.sGlobalSeq _ s.walSeq s.wal s.mutexes (by simp [hpc])
          (by simp [hpc, CallPc.accepted]) (by simp [hpc, CallPc.rejected]) hself (by simp)
  | nextSeq =>
      simp only [hpc] at h
      cases h
      exact .move _ c _ _ _ s.wal s.mutexes (by simp [hpc]) (by simp [hpc, CallPc.accepted])
        (by simp [hpc, CallPc.rejected]) hself (by simp)
  | writePending =>
      simp only [hpc] at h
      cases h
      exact .move _ c s.sGlobalSeq _ s.walSeq _ s.mutexes (by simp [hpc])
        (by simp [hpc, CallPc.accepted]) (by simp [hpc, CallPc.rejected]) hself (by simp)
  | lock =>
      simp only [hpc] at h
      split at h
      · cases h
      · cases h
        exact .move _ c s.sGlobalSeq _ s.walSeq s.wal _ (by simp [hpc])
          (by simp [hpc, CallPc.accepted]) (by simp [hpc, CallPc.rejected]) hself (by simp)
  | lockedTest =>
      simp only [hpc] at h
      cases h
      refine .move _ c s.sGlobalSeq _ s.walSeq s.wal s.mutexes (by simp [hpc]) ?_ ?_ hself ?_ <;>
        split <;> simp [hpc, CallPc.accepted, CallPc.rejected]
  | push =>
      simp only [hpc] at h
      cases h
      exact .push c hpc
  | unlock accepted =>
      simp only [hpc] at h
      cases h
      refine .move _ c s.sGlobalSeq _ s.walSeq s.wal _ (by simp [hpc]) ?_ ?_ hself ?_ <;>
        cases accepted <;> simp only [Bool.false_eq_true, if_true, if_false] <;>
        (try split) <;> simp [hpc, CallPc.accepted, CallPc.rejected]
  | notify =>
      simp only [hpc] at h
      cases h
      exact .move _ c s.sGlobalSeq _ s.walSeq s.wal s.mutexes (by simp [hpc])
        (by simp [hpc, CallPc.accepted]) (by simp [hpc, CallPc.rejected]) hself (by simp)
  | writeDone =>
      simp only [hpc] at h
      cases h
      exact .move _ c s.sGlobalSeq _ s.walSeq _ s.mutexes (by simp [hpc])
        (by simp [hpc, CallPc.accepted]) (by simp [hpc, CallPc.rejected]) hself (by simp)
  | callback text =>
      simp only [hpc] at h
      cases h
      exact .reject c text hpc

/-- A thread that has not come to the drain, before and after. -/
theorem WorkerMove.of_working {w w' : WorkerData} (h : w.pc.emptied = false)
    (h' : w'.pc.emptied = false) : WorkerMove w w' where
  live := fun hd => by simp [hd, WorkerPc.emptied] at h
  kept := fun he => by simp [h] at he
  left := fun he => by simp [h'] at he

/-- `Shutdown` with a worker whose queue it has found empty. -/
theorem WorkerMove.of_draining {w w' : WorkerData} (h : w.pc.emptied = true)
    (h' : w'.pc.emptied = true) (hq : w'.taskQueue = w.taskQueue) (hd : w.pc ≠ .drained) :
    WorkerMove w w' where
  live := hd
  kept := fun _ => ⟨h', hq⟩
  left := fun _ => .inl h

theorem workStep_effect {s s' : DBTaskQueue} {i : Nat} {answer : DbAnswer}
    (h : workStep cfg s i answer = some s') : Effect cfg s (.work i answer) s' := by
  have hno : ∀ c, QueueAct.work i answer ≠ .enqueue c := fun c hc => by cases hc
  simp only [workStep] at h
  cases hpc : (s.workers i).pc with
  | head =>
      simp only [hpc] at h
      cases h
      refine .idle _ i _ s.wal s.mutexes hno (.of_working (by simp [hpc, WorkerPc.emptied]) ?_) ?_ ?_ <;>
        split <;> simp [hpc, WorkerPc.emptied, WorkerPc.collected, WorkerPc.held]
  | lock =>
      simp only [hpc] at h
      split at h
      · cases h
      · cases h
        exact .idle _ i _ s.wal _ hno (.of_working (by simp [hpc, WorkerPc.emptied]) rfl)
          (by simp [hpc, WorkerPc.collected]) (by simp [hpc, WorkerPc.held])
  | queueTest =>
      simp only [hpc] at h
      cases h
      refine .idle _ i _ s.wal s.mutexes hno (.of_working (by simp [hpc, WorkerPc.emptied]) ?_) ?_ ?_ <;>
        split <;> simp [hpc, WorkerPc.emptied, WorkerPc.collected, WorkerPc.held]
  | runningTest =>
      simp only [hpc] at h
      split at h
      · cases h
        exact .idle _ i _ s.wal _ hno (.of_working (by simp [hpc, WorkerPc.emptied]) rfl)
          (by simp [hpc, WorkerPc.collected]) (by simp [hpc, WorkerPc.held])
      · cases h
        exact .idle _ i _ s.wal s.mutexes hno (.of_working (by simp [hpc, WorkerPc.emptied]) rfl)
          (by simp [hpc, WorkerPc.collected]) (by simp [hpc, WorkerPc.held])
  | sleep =>
      simp only [hpc] at h
      cases h
      exact .idle _ i _ s.wal s.mutexes hno (.of_working (by simp [hpc, WorkerPc.emptied]) rfl)
        (by simp [hpc, WorkerPc.collected]) (by simp [hpc, WorkerPc.held])
  | take =>
      simp only [hpc] at h
      split at h
      next c rest hq =>
        cases h
        exact .take _ i c _ hno (.of_working (by simp [hpc, WorkerPc.emptied]) rfl)
          (by simp [hpc, hq, WorkerPc.collected]) (by simp [hpc, WorkerPc.held]) rfl
      · cases h
  | unlock task =>
      simp only [hpc] at h
      cases h
      cases task with
      | none =>
          exact .idle _ i _ s.wal _ hno (.of_working (by simp [hpc, WorkerPc.emptied]) rfl)
            (by simp [hpc, WorkerPc.collected]) (by simp [hpc, WorkerPc.held])
      | some c =>
          exact .idle _ i _ s.wal _ hno (.of_working (by simp [hpc, WorkerPc.emptied]) rfl)
            (by simp [hpc, WorkerPc.collected]) (by simp [hpc, WorkerPc.held, RunPc.inProcess])
  | running c pc =>
      simp only [hpc] at h
      cases h
      cases pc with
      | process =>
          exact .idle _ i _ s.wal s.mutexes hno (.of_working (by simp [hpc, WorkerPc.emptied]) rfl)
            (by simp [hpc, taskStep, WorkerPc.collected])
            (by simp [hpc, taskStep, WorkerPc.held, RunPc.inProcess])
      | callback success result =>
          have hheld : (s.workers i).pc.held = some c := by
            simp [hpc, WorkerPc.held, RunPc.inProcess]
          simp only [taskStep]
          by_cases hd : (success && s.walSeq c ≠ 0) = true
          · rw [if_pos hd]
            exact .finish _ i c success result _ hno
              (.of_working (by simp [hpc, WorkerPc.emptied]) rfl)
              (by simp [hpc, WorkerPc.collected]) hheld rfl
          · rw [if_neg hd]
            exact .finish _ i c success result _ hno
              (.of_working (by simp [hpc, WorkerPc.emptied]) rfl)
              (by simp [hpc, WorkerPc.collected]) hheld rfl
      | writeDone =>
          exact .idle _ i _ _ s.mutexes hno (.of_working (by simp [hpc, WorkerPc.emptied]) rfl)
            (by simp [hpc, taskStep, WorkerPc.collected])
            (by simp [hpc, taskStep, WorkerPc.held, RunPc.inProcess])
  | stopped | collect | next | draining | drained => simp [hpc] at h

theorem drainStep_effect {s s' : DBTaskQueue} {i : Nat} {answer : DbAnswer}
    (h : drainStep cfg s i answer = some s') : Effect cfg s (.shutdown answer) s' := by
  have hno : ∀ c, QueueAct.shutdown answer ≠ .enqueue c := fun c hc => by cases hc
  simp only [drainStep] at h
  cases hpc : (s.workers i).pc with
  | stopped =>
      simp only [hpc] at h
      cases h
      exact .idle _ i _ s.wal s.mutexes hno (.of_working (by simp [hpc, WorkerPc.emptied]) rfl)
        (by simp [hpc, WorkerPc.collected]) (by simp [hpc, WorkerPc.held])
  | collect drainTasks =>
      simp only [hpc] at h
      split at h
      next c rest hq =>
        cases h
        exact .idle _ i _ s.wal s.mutexes hno (.of_working (by simp [hpc, WorkerPc.emptied]) rfl)
          (by simp [hpc, hq, WorkerPc.collected]) (by simp [hpc, WorkerPc.held])
      next hq =>
        cases h
        refine .idle _ i _ s.wal s.mutexes hno ⟨by simp [hpc], ?_, fun _ => .inr hq⟩
          (by simp [hpc, WorkerPc.collected]) (by simp [hpc, WorkerPc.held])
        simp [hpc, WorkerPc.emptied]
  | next drainTasks =>
      have hold : (s.workers i).pc.emptied = true := by simp [hpc, WorkerPc.emptied]
      cases drainTasks with
      | nil =>
          simp only [hpc] at h
          cases h
          exact .idle _ i _ s.wal s.mutexes hno (.of_draining hold rfl rfl (by simp [hpc]))
            (by simp [hpc, WorkerPc.collected]) (by simp [hpc, WorkerPc.held])
      | cons c drainTasks =>
          simp only [hpc] at h
          cases h
          exact .take _ i c _ hno (.of_draining hold rfl rfl (by simp [hpc]))
            (by simp [hpc, WorkerPc.collected]) (by simp [hpc, WorkerPc.held]) rfl
  | draining drainTasks c pc =>
      have hold : (s.workers i).pc.emptied = true := by simp [hpc, WorkerPc.emptied]
      simp only [hpc] at h
      cases h
      cases pc with
      | process =>
          exact .idle _ i _ s.wal s.mutexes hno (.of_draining hold rfl rfl (by simp [hpc]))
            (by simp [hpc, taskStep, WorkerPc.collected])
            (by simp [hpc, taskStep, WorkerPc.held, RunPc.inProcess])
      | callback success result =>
          have hheld : (s.workers i).pc.held = some c := by
            simp [hpc, WorkerPc.held, RunPc.inProcess]
          simp only [taskStep]
          by_cases hd : (success && s.walSeq c ≠ 0) = true
          · rw [if_pos hd]
            exact .finish _ i c success result _ hno (.of_draining hold rfl rfl (by simp [hpc]))
              (by simp [hpc, WorkerPc.collected]) hheld rfl
          · rw [if_neg hd]
            exact .finish _ i c success result _ hno (.of_draining hold rfl rfl (by simp [hpc]))
              (by simp [hpc, WorkerPc.collected]) hheld rfl
      | writeDone =>
          exact .idle _ i _ _ s.mutexes hno (.of_draining hold rfl rfl (by simp [hpc]))
            (by simp [hpc, taskStep, WorkerPc.collected])
            (by simp [hpc, taskStep, WorkerPc.held, RunPc.inProcess])
  | _ => simp [hpc] at h

theorem shutdownStep_effect {s s' : DBTaskQueue} {answer : DbAnswer}
    (h : shutdownStep cfg s answer = some s') : Effect cfg s (.shutdown answer) s' := by
  have hno : ∀ c, QueueAct.shutdown answer ≠ .enqueue c := fun c hc => by cases hc
  simp only [shutdownStep] at h
  cases hpc : s.shutdown with
  | idle =>
      simp only [hpc] at h
      cases h
      refine .shut _ _ s.mIsRunning hno (by split <;> simp) fun hrun i hi => ?_
      simp [hrun hpc, ShutdownPc.drained] at hi
  | store =>
      simp only [hpc] at h
      cases h
      exact .shut _ _ _ hno (by simp) fun _ i hi => absurd hi (Nat.not_lt_zero i)
  | join k =>
      simp only [hpc] at h
      split at h
      · split at h
        · cases h
          exact .shut _ _ s.mIsRunning hno (by simp) fun _ i hi => absurd hi (Nat.not_lt_zero i)
        · cases h
      · cases h
        exact .shut _ _ s.mIsRunning hno (by simp) fun _ i hi => absurd hi (Nat.not_lt_zero i)
  | drain k =>
      simp only [hpc] at h
      split at h
      · split at h
        next hd =>
          cases h
          refine .shut _ _ s.mIsRunning hno (by simp) fun _ i hi => ?_
          rcases Nat.lt_succ_iff_lt_or_eq.mp hi with hlt | rfl
          · exact .inl (by rw [hpc]; exact hlt)
          · exact .inr hd
        · exact drainStep_effect h
      next hk =>
        cases h
        refine .shut _ _ s.mIsRunning hno (by simp) fun _ i hi => .inl ?_
        rw [hpc]
        exact Nat.lt_of_lt_of_le hi (Nat.le_of_not_lt hk)
  | closeWal =>
      simp only [hpc] at h
      cases h
      exact .shut _ _ s.mIsRunning hno (by simp) fun _ i hi => .inl (by rw [hpc]; exact hi)
  | returned => simp [hpc] at h

/-- Every step has one of the effects. -/
theorem queueStep_effect {s s' : DBTaskQueue} {a : QueueAct} (h : queueStep cfg s a = some s') :
    Effect cfg s a s' := by
  cases a with
  | call c =>
      simp only [queueStep] at h
      split at h
      next hpc =>
        cases h
        exact .move _ c s.sGlobalSeq _ _ s.wal s.mutexes (by simp [hpc])
          (by simp [hpc, CallPc.accepted]) (by simp [hpc, CallPc.rejected])
          (fun d hd => by cases hd) (by simp)
      · cases h
  | enqueue c => exact enqueueStep_effect h
  | work i answer =>
      simp only [queueStep] at h
      split at h
      · exact workStep_effect h
      · cases h
  | shutdown answer => exact shutdownStep_effect h

/-! ## The queue refines the pool -/

/-- The pool that the queue implements: one lane per worker. -/
def DBTaskQueue.pool (s : DBTaskQueue) : FifoPool.Pool Nat Nat where
  queue i := (s.workers i).pc.collected ++ (s.workers i).taskQueue
  current i := (s.workers i).pc.held
  accepted := s.pushed
  taken := s.taken
  finished := s.finished

/-- Replacing a worker changes its lane. -/
theorem pool_setWorker (s : DBTaskQueue) (i : Nat) (w : WorkerData) :
    (s.setWorker i w).pool =
      { s.pool with queue := Function.update s.pool.queue i (w.pc.collected ++ w.taskQueue)
                    current := Function.update s.pool.current i w.pc.held } := by
  have hq := Function.comp_update (fun w : WorkerData => w.pc.collected ++ w.taskQueue) s.workers i w
  have hc := Function.comp_update (fun w : WorkerData => w.pc.held) s.workers i w
  simp only [DBTaskQueue.pool, DBTaskQueue.setWorker]
  exact congrArg₂ (fun q c => FifoPool.Pool.mk q c s.pushed s.taken s.finished) hq hc

/-- A worker whose tasks stay where they are leaves the pool unchanged. -/
theorem pool_setWorker_of_eq {s : DBTaskQueue} {i : Nat} {w : WorkerData}
    (hq : w.pc.collected ++ w.taskQueue = (s.workers i).pc.collected ++ (s.workers i).taskQueue)
    (hc : w.pc.held = (s.workers i).pc.held) : (s.setWorker i w).pool = s.pool := by
  rw [pool_setWorker, hq, hc]
  show { s.pool with
    queue := Function.update s.pool.queue i (s.pool.queue i)
    current := Function.update s.pool.current i (s.pool.current i) } = s.pool
  simp

/-- Each effect is none, one acceptance, one taking or one completion. -/
theorem Effect.pool_run {s s' : DBTaskQueue} {a : QueueAct} (h : Effect cfg s a s') :
    ∃ bs, Machine.run (FifoPool.step (workerIndex cfg)) s.pool bs = some s'.pool := by
  cases h with
  | push c hpc =>
      refine ⟨[.accept c], ?_⟩
      show some _ = some (DBTaskQueue.pool (DBTaskQueue.setWorker _ _ _))
      rw [pool_setWorker]
      simp [DBTaskQueue.pool, List.append_assoc]
  | idle _ i w wal mutexes _ _ hq hc =>
      refine ⟨[], ?_⟩
      exact congrArg some (pool_setWorker_of_eq (s := s) hq hc).symm
  | take _ i c w _ _ hq hn hc =>
      refine ⟨[.take i], ?_⟩
      have h1 : s.pool.queue i = c :: (w.pc.collected ++ w.taskQueue) := hq
      have h2 : s.pool.current i = none := hn
      rw [Machine.run_cons]
      simp only [FifoPool.step, h1, h2]
      show some _ = some (DBTaskQueue.pool (DBTaskQueue.setWorker _ _ _))
      rw [pool_setWorker, hc]
      rfl
  | finish _ i c success result w _ _ hq hc hn =>
      refine ⟨[.finish i], ?_⟩
      have h1 : s.pool.current i = some c := hc
      rw [Machine.run_cons]
      simp only [FifoPool.step, h1]
      show some _ = some (DBTaskQueue.pool (DBTaskQueue.setWorker _ _ _))
      rw [pool_setWorker, hq, hn]
      show some { s.pool with
        current := Function.update s.pool.current i none
        finished := s.pool.finished ++ [c] } = some { s.pool with
        queue := Function.update s.pool.queue i (s.pool.queue i)
        current := Function.update s.pool.current i none
        finished := s.pool.finished ++ [c] }
      rw [Function.update_eq_self]
  | _ => exact ⟨[], rfl⟩

/-- Every step of the queue is matched by the pool. -/
theorem simulates_pool : Machine.Simulates (queueStep cfg) (FifoPool.step (workerIndex cfg))
    DBTaskQueue.pool :=
  fun _ _ _ h => (queueStep_effect h).pool_run

end

end NetworkModule.TestServer
