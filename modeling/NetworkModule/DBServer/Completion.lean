import NetworkModule.Lib.Tally
import NetworkModule.DBServer.Ledger

/-!
# Every callback of DBServerTaskQueue

The queue of `TestServer/src/DBServerTaskQueue.cpp` between `Initialize` and the end of
one `Shutdown`, with every atomic access, lock operation and queue operation as one
step: any number of `EnqueueTask` calls, `OnDBResponse`, the threads of the workers, and
`Shutdown` with its drain.  `TaskQueue` has the same queue with coarser steps, over many
cycles.

A task is known by the number of the `EnqueueTask` call that brought it.  A worker in
`wait_for` may go on at any time when its mutex is free, since the wait ends by a
notification or by its timeout.  Each step of a worker is given the time and the answer
of `mSendFunc`.

`Complete` states what the queue promises for the callbacks.  A call loads `mIsRunning`
again under the lock and then pushes, and `Shutdown` drains without the lock, so the
push may come after the drain.  `complete_iff_beforeDrain` says that nothing else loses
or repeats a callback.
-/

namespace NetworkModule.DBServer.Completion

open Tally (Lists)

/-! ## Threads -/

/-- Where an `EnqueueTask` call stands. -/
inductive CallPc where
  /-- The call has not been made. -/
  | idle
  /-- The first load of `mIsRunning`. -/
  | runningTest
  /-- `mWorkers.empty()`. -/
  | workersTest
  /-- Taking the mutex of the worker. -/
  | lock
  /-- The second load of `mIsRunning`, under the lock. -/
  | lockedTest
  /-- `taskQueue.push`. -/
  | push
  /-- Releasing the mutex. -/
  | unlock (accepted : Bool)
  /-- `cv.notify_one`. -/
  | notify
  /-- Invoking the callback of a rejected task. -/
  | callback (result : ResultCode) (detail : String)
  /-- The call has returned. -/
  | returned (accepted : Bool)
  deriving DecidableEq, Repr

/-- Where the thread of a worker stands, and after its end, where `Shutdown` stands
with the worker. -/
inductive ThreadPc where
  /-- The load of `mIsRunning` at the head of the loop. -/
  | head
  /-- In `wait_for`. -/
  | wait
  /-- At the first loop of `CheckTimeouts`. -/
  | checkTimeouts
  /-- In the second loop of `CheckTimeouts`, with the sessions still to look at. -/
  | timeouts (ids : List ConnectionId)
  /-- Taking the front of `responseQueue`. -/
  | takeResponse
  /-- In `HandleResponse`. -/
  | response (resp : DBResponseEvent)
  /-- The load of `mIsRunning` at the head of the loop over the tasks. -/
  | tasksTest
  /-- Taking the front of `taskQueue`. -/
  | takeTask
  /-- In `ProcessTask`. -/
  | task (t : DBServerTask)
  /-- The thread has ended. -/
  | stopped
  /-- `Shutdown` is in the second loop of `ShutdownDrain`. -/
  | drainTasks
  /-- `Shutdown` is in the third loop of `ShutdownDrain`. -/
  | drainResponses
  /-- `Shutdown` is done with the worker. -/
  | drained
  deriving DecidableEq, Repr

/-- A worker and its thread. -/
structure Lane where
  data : WorkerData
  pc : ThreadPc := .head

/-- Where `Shutdown` stands. -/
inductive ShutdownPc where
  /-- Not called. -/
  | idle
  /-- `mIsRunning.store(false)`. -/
  | store
  /-- Joining the thread of worker `i`. -/
  | join (i : Nat)
  /-- In `ShutdownDrain(i)`. -/
  | drain (i : Nat)
  /-- The call has returned. -/
  | returned
  deriving DecidableEq, Repr

/-- The queue and all its threads. -/
structure Queue where
  mIsRunning : Bool := true
  /-- The workers, by index. -/
  workers : Nat → Lane := fun i => { data := .make i }
  /-- Whether the mutex of each worker is held. -/
  mutexes : Nat → Bool := fun _ => false
  /-- The `EnqueueTask` calls, by number. -/
  calls : Nat → CallPc := fun _ => .idle
  shutdown : ShutdownPc := .idle
  /-- The callbacks that `EnqueueTask` invoked. -/
  invoked : List Invoked := []
  /-- The calls whose task was pushed, in order. -/
  pushed : List Nat := []
  /-- The calls whose task was rejected, in order. -/
  rejected : List Nat := []

/-- What a run of the queue is given: the number of workers, and the tasks that the
`EnqueueTask` calls bring. -/
structure Config where
  workerCount : Nat
  /-- `Initialize` refuses to start without workers. -/
  workerCount_pos : 0 < workerCount
  args : Nat → DBServerTask

/-! ## Steps -/

/-- Who moves. -/
inductive Act where
  /-- A thread calls `EnqueueTask` as call number `c`. -/
  | call (c : Nat)
  /-- Call `c` takes its next step. -/
  | enqueue (c : Nat)
  /-- `OnDBResponse`. -/
  | respond (resp : DBResponseEvent)
  /-- The map of sessions of worker `i` changes its order of iteration. -/
  | rehash (i : Nat) (m : Sessions)
  /-- The thread of worker `i` takes its next step. -/
  | work (i now : Nat) (sendOk : Bool)
  /-- `Shutdown` is called or takes its next step. -/
  | shutdown

section
variable (cfg : Config)

/-- The worker a call is routed to. -/
def workerIndex (c : Nat) : Nat := (cfg.args c).sessionId.toNat % cfg.workerCount

/-- The task that a call brings. -/
def Config.task (c : Nat) : DBServerTask := { cfg.args c with uid := c }

namespace Queue

/-- Move a call to another place. -/
def setCall (s : Queue) (c : Nat) (pc : CallPc) : Queue :=
  { s with calls := Function.update s.calls c pc }

/-- Replace a worker. -/
def setWorker (s : Queue) (i : Nat) (w : Lane) : Queue :=
  { s with workers := Function.update s.workers i w }

/-- Take or release the mutex of a worker. -/
def setMutex (s : Queue) (i : Nat) (held : Bool) : Queue :=
  { s with mutexes := Function.update s.mutexes i held }

end Queue

/-- One step of the `EnqueueTask` call `c`. -/
def enqueueStep (s : Queue) (c : Nat) : Option Queue :=
  let i := workerIndex cfg c
  match s.calls c with
  | .idle => none
  | .runningTest =>
      some (s.setCall c (if s.mIsRunning then .workersTest
        else .callback .shuttingDown "DBServerTaskQueue not running"))
  | .workersTest =>
      some (s.setCall c (if cfg.workerCount = 0 then .callback .notInitialized "No workers"
        else .lock))
  | .lock => if s.mutexes i then none else some ((s.setMutex i true).setCall c .lockedTest)
  | .lockedTest => some (s.setCall c (if s.mIsRunning then .push else .unlock false))
  | .push =>
      let w := s.workers i
      some (({ s with pushed := s.pushed ++ [c] }.setWorker i
        { w with data := { w.data with taskQueue := w.data.taskQueue ++ [cfg.task c] } }).setCall c
        (.unlock true))
  | .unlock accepted =>
      some ((s.setMutex i false).setCall c
        (if accepted then .notify
        else .callback .shuttingDown "DBServerTaskQueue shutting down"))
  | .notify => some (s.setCall c (.returned true))
  | .callback result detail =>
      some ({ s with
        invoked := s.invoked ++
          ((cfg.task c).callback.map fun uid => Invoked.mk uid result detail).toList
        rejected := s.rejected ++ [c] }.setCall c (.returned false))
  | .returned _ => none

/-- `OnDBResponse`. -/
def onDBResponse (s : Queue) (resp : DBResponseEvent) : Option Queue :=
  let i := (KeyGenerator.getSlot resp.requestId).toNat
  if i ≥ cfg.workerCount then some s
  else if s.mutexes i then none
  else
    let w := s.workers i
    some (s.setWorker i
      { w with data := { w.data with responseQueue := w.data.responseQueue ++ [resp] } })

/-- One step of the thread of worker `i`. -/
def workStep (s : Queue) (i now : Nat) (sendOk : Bool) : Option Queue :=
  let w := s.workers i
  match w.pc with
  | .head => some (s.setWorker i { w with pc := if s.mIsRunning then .wait else .stopped })
  | .wait => if s.mutexes i then none else some (s.setWorker i { w with pc := .checkTimeouts })
  | .checkTimeouts => some (s.setWorker i { w with pc := .timeouts (w.data.timedOut now) })
  | .timeouts [] => some (s.setWorker i { w with pc := .takeResponse })
  | .timeouts (id :: ids) =>
      some (s.setWorker i ⟨w.data.timeoutSession now sendOk id, .timeouts ids⟩)
  | .takeResponse =>
      if s.mutexes i then none
      else
        match w.data.responseQueue with
        | [] => some (s.setWorker i { w with pc := .tasksTest })
        | resp :: rest =>
            some (s.setWorker i ⟨{ w.data with responseQueue := rest }, .response resp⟩)
  | .response resp => some (s.setWorker i ⟨w.data.handleResponse now sendOk resp, .takeResponse⟩)
  | .tasksTest => some (s.setWorker i { w with pc := if s.mIsRunning then .takeTask else .head })
  | .takeTask =>
      if s.mutexes i then none
      else
        match w.data.taskQueue with
        | [] => some (s.setWorker i { w with pc := .head })
        | t :: rest => some (s.setWorker i ⟨{ w.data with taskQueue := rest }, .task t⟩)
  | .task t => some (s.setWorker i ⟨w.data.processTask now sendOk t, .tasksTest⟩)
  | _ => none

/-- One step of `ShutdownDrain(i)`, for a worker whose thread has ended.  No lock is
taken. -/
def drainStep (s : Queue) (i : Nat) : Option Queue :=
  let w := s.workers i
  match w.pc with
  | .stopped => some (s.setWorker i ⟨w.data.drainSessions, .drainTasks⟩)
  | .drainTasks =>
      match w.data.taskQueue with
      | t :: rest => some (s.setWorker i ⟨w.data.drainTask t rest, .drainTasks⟩)
      | [] => some (s.setWorker i { w with pc := .drainResponses })
  | .drainResponses =>
      match w.data.responseQueue with
      | _ :: rest => some (s.setWorker i ⟨{ w.data with responseQueue := rest }, .drainResponses⟩)
      | [] => some (s.setWorker i { w with pc := .drained })
  | _ => none

/-- One step of `Shutdown`. -/
def shutdownStep (s : Queue) : Option Queue :=
  match s.shutdown with
  | .idle => some { s with shutdown := if s.mIsRunning then .store else .returned }
  | .store => some { s with mIsRunning := false, shutdown := .join 0 }
  | .join i =>
      if i < cfg.workerCount then
        if (s.workers i).pc = .stopped then some { s with shutdown := .join (i + 1) } else none
      else some { s with shutdown := .drain 0 }
  | .drain i =>
      if i < cfg.workerCount then
        if (s.workers i).pc = .drained then some { s with shutdown := .drain (i + 1) }
        else drainStep s i
      else some { s with shutdown := .returned }
  | .returned => none

/-- One step of the queue. -/
def step (s : Queue) : Act → Option Queue
  | .call c => if s.calls c = .idle then some (s.setCall c .runningTest) else none
  | .enqueue c => enqueueStep cfg s c
  | .respond resp => onDBResponse cfg s resp
  | .rehash i m =>
      let w := s.workers i
      if m.entries.Perm w.data.sessions.entries then
        some (s.setWorker i { w with data := { w.data with sessions := m } })
      else none
  | .work i now sendOk => if i < cfg.workerCount then workStep s i now sendOk else none
  | .shutdown => shutdownStep cfg s

/-! ## The promise -/

/-- `Shutdown` and all `EnqueueTask` calls have returned. -/
def Queue.Returned (s : Queue) : Prop :=
  s.shutdown = .returned ∧ ∀ c, s.calls c = .idle ∨ ∃ accepted, s.calls c = .returned accepted

/-- How often the callback of a call was invoked, by the call itself or for a worker. -/
def Queue.invocations (s : Queue) (c : Nat) : Nat :=
  (s.invoked.map (·.uid)).count c +
    ∑ i ∈ Finset.range cfg.workerCount, ((s.workers i).data.invoked.map (·.uid)).count c

/-- The callback of every task is invoked exactly once, if there is one. -/
def Complete (s : Queue) : Prop :=
  s.Returned → ∀ c, s.calls c ≠ .idle → s.invocations cfg c = (cfg.args c).hasCallback.toNat

/-- `Shutdown` has found the task queue of the worker empty. -/
def ThreadPc.emptied : ThreadPc → Bool
  | .drainResponses | .drained => true
  | _ => false

/-- A call whose task has a callback does not push to a queue that `Shutdown` has found
empty. -/
def beforeDrain (s : Queue) : Act → Bool
  | .enqueue c =>
      s.calls c ≠ .push || !(cfg.args c).hasCallback || !(s.workers (workerIndex cfg c)).pc.emptied
  | _ => true

/-! ## What a step does -/

/-- The task of the call has been pushed. -/
def CallPc.accepted : CallPc → Bool
  | .notify => true
  | .unlock accepted | .returned accepted => accepted
  | _ => false

/-- The task of the call has been rejected, and its callback was invoked. -/
def CallPc.rejected : CallPc → Bool
  | .returned accepted => !accepted
  | _ => false

/-- The callback of the task that a thread has taken and not processed. -/
def ThreadPc.owed : ThreadPc → List Nat
  | .task t => t.callback.toList
  | _ => []

/-- `Shutdown` has drained the sessions of the worker. -/
def ThreadPc.cleared : ThreadPc → Bool
  | .drainTasks | .drainResponses | .drained => true
  | _ => false

/-- How often the callback `c` was invoked for a worker or waits to be. -/
def Lane.due (w : Lane) (c : Nat) : Nat := w.data.due c + w.pc.owed.count c

/-- The workers that `Shutdown` is done with. -/
def ShutdownPc.drained : ShutdownPc → Nat
  | .drain i => i
  | .returned => cfg.workerCount
  | _ => 0

/-- What holds of a worker. -/
structure LaneInv (w : Lane) : Prop where
  idle : Idle w.data
  cleared : w.pc.cleared = true → w.data.sessions = ∅

/-- What a step does to the worker it is for. -/
structure LaneMove (w w' : Lane) : Prop where
  due : ∀ c, w'.due c = w.due c
  inv : LaneInv w'
  drained : w.pc = .drained → w'.pc = .drained
  /-- Nothing is taken from a queue that was found empty. -/
  kept : w.pc.emptied = true → w'.pc.emptied = true ∧ w'.data.taskQueue = w.data.taskQueue
  left : w'.pc.emptied = true → w.pc.emptied = true ∨ w'.data.taskQueue = []

/-- Everything a step can do, with the guards that matter. -/
inductive Effect (s : Queue) : Act → Queue → Prop where
  /-- A call moves, and its task is neither pushed nor rejected. -/
  | move (a : Act) (c : Nat) (pc : CallPc) (mutexes : Nat → Bool) : s.calls c ≠ .push →
      pc.accepted = (s.calls c).accepted → pc.rejected = (s.calls c).rejected →
      (∀ d, a = .enqueue d → d = c) →
      Effect s a ({ s with mutexes := mutexes }.setCall c pc)
  | push (c : Nat) : s.calls c = .push →
      Effect s (.enqueue c) (({ s with pushed := s.pushed ++ [c] }.setWorker (workerIndex cfg c)
        { s.workers (workerIndex cfg c) with
          data := { (s.workers (workerIndex cfg c)).data with
            taskQueue := (s.workers (workerIndex cfg c)).data.taskQueue ++ [cfg.task c] } }).setCall
        c (.unlock true))
  | reject (c : Nat) (result : ResultCode) (detail : String) :
      s.calls c = .callback result detail →
      Effect s (.enqueue c) ({ s with
        invoked := s.invoked ++
          ((cfg.task c).callback.map fun uid => Invoked.mk uid result detail).toList
        rejected := s.rejected ++ [c] }.setCall c (.returned false))
  | work (a : Act) (i : Nat) (w : Lane) : (∀ c, a ≠ .enqueue c) →
      (LaneInv (s.workers i) → LaneMove (s.workers i) w) → Effect s a (s.setWorker i w)
  | shut (a : Act) (pc : ShutdownPc) (running : Bool) : (∀ c, a ≠ .enqueue c) → pc ≠ .idle →
      ((s.shutdown = .idle → s.mIsRunning = true) → ∀ i, i < pc.drained cfg →
        i < s.shutdown.drained cfg ∨ (s.workers i).pc = .drained) →
      Effect s a { s with shutdown := pc, mIsRunning := running }
  /-- A response for no worker. -/
  | stay (a : Act) : (∀ c, a ≠ .enqueue c) → Effect s a s

variable {cfg}

theorem enqueueStep_effect {s s' : Queue} {c : Nat} (h : enqueueStep cfg s c = some s') :
    Effect cfg s (.enqueue c) s' := by
  have hself : ∀ d, Act.enqueue c = .enqueue d → d = c := fun d hd => (Act.enqueue.inj hd).symm
  simp only [enqueueStep] at h
  cases hpc : s.calls c with
  | idle | returned => simp [hpc] at h
  | runningTest | workersTest | lockedTest =>
      simp only [hpc] at h
      cases h
      refine .move _ c _ s.mutexes (by simp [hpc]) ?_ ?_ hself <;>
        split <;> simp [hpc, CallPc.accepted, CallPc.rejected]
  | lock =>
      simp only [hpc] at h
      split at h
      · cases h
      · cases h
        exact .move _ c _ _ (by simp [hpc]) (by simp [hpc, CallPc.accepted])
          (by simp [hpc, CallPc.rejected]) hself
  | push =>
      simp only [hpc] at h
      cases h
      exact .push c hpc
  | unlock accepted =>
      simp only [hpc] at h
      cases h
      refine .move _ c _ _ (by simp [hpc]) ?_ ?_ hself <;>
        cases accepted <;> simp [hpc, CallPc.accepted, CallPc.rejected]
  | notify =>
      simp only [hpc] at h
      cases h
      exact .move _ c _ s.mutexes (by simp [hpc]) (by simp [hpc, CallPc.accepted])
        (by simp [hpc, CallPc.rejected]) hself
  | callback result detail =>
      simp only [hpc] at h
      cases h
      exact .reject c result detail hpc

/-- A thread that has not come to the drain, before and after. -/
theorem LaneMove.of_working {w w' : Lane} (h : w.pc.cleared = false)
    (h' : w'.pc.cleared = false) (hdue : ∀ c, w'.due c = w.due c) (hidle : Idle w'.data) :
    LaneMove w w' where
  due := hdue
  inv := ⟨hidle, fun hc => by simp [h'] at hc⟩
  drained := fun hd => by simp [hd, ThreadPc.cleared] at h
  kept := fun he => by cases hpc : w.pc <;> simp [hpc, ThreadPc.cleared, ThreadPc.emptied] at h he
  left := fun he => by cases hpc : w'.pc <;> simp [hpc, ThreadPc.cleared, ThreadPc.emptied] at h' he

theorem workStep_effect {s s' : Queue} {i now : Nat} {sendOk : Bool}
    (h : workStep s i now sendOk = some s') : Effect cfg s (.work i now sendOk) s' := by
  have hno : ∀ c, Act.work i now sendOk ≠ .enqueue c := fun c hc => by cases hc
  simp only [workStep] at h
  cases hpc : (s.workers i).pc with
  | head =>
      simp only [hpc] at h
      cases h
      refine .work _ i _ hno fun hI => .of_working (by rw [hpc]; rfl) ?_ (fun c => ?_) hI.idle <;>
        split <;> simp [Lane.due, hpc, ThreadPc.owed, ThreadPc.cleared]
  | wait =>
      simp only [hpc] at h
      split at h
      · cases h
      · cases h
        exact .work _ i _ hno fun hI => .of_working (by rw [hpc]; rfl) rfl
          (fun c => by simp [Lane.due, hpc, ThreadPc.owed]) hI.idle
  | checkTimeouts =>
      simp only [hpc] at h
      cases h
      exact .work _ i _ hno fun hI => .of_working (by rw [hpc]; rfl) rfl
        (fun c => by simp [Lane.due, hpc, ThreadPc.owed]) hI.idle
  | timeouts ids =>
      cases ids with
      | nil =>
          simp only [hpc] at h
          cases h
          exact .work _ i _ hno fun hI => .of_working (by rw [hpc]; rfl) rfl
            (fun c => by simp [Lane.due, hpc, ThreadPc.owed]) hI.idle
      | cons id ids =>
          simp only [hpc] at h
          cases h
          exact .work _ i _ hno fun hI => .of_working (by rw [hpc]; rfl) rfl
            (fun c => by simp [Lane.due, hpc, ThreadPc.owed, due_timeoutSession hI.idle])
            (hI.idle.timeoutSession id)
  | takeResponse =>
      simp only [hpc] at h
      split at h
      · cases h
      · split at h
        · cases h
          exact .work _ i _ hno fun hI => .of_working (by rw [hpc]; rfl) rfl
            (fun c => by simp [Lane.due, hpc, ThreadPc.owed]) hI.idle
        · cases h
          exact .work _ i _ hno fun hI => .of_working (by rw [hpc]; rfl) rfl
            (fun c => by simp [Lane.due, hpc, ThreadPc.owed, WorkerData.due]) hI.idle
  | response resp =>
      simp only [hpc] at h
      cases h
      exact .work _ i _ hno fun hI => .of_working (by rw [hpc]; rfl) rfl
        (fun c => by simp [Lane.due, hpc, ThreadPc.owed, due_handleResponse hI.idle])
        (hI.idle.handleResponse resp)
  | tasksTest =>
      simp only [hpc] at h
      cases h
      refine .work _ i _ hno fun hI => .of_working (by rw [hpc]; rfl) ?_ (fun c => ?_) hI.idle <;>
        split <;> simp [Lane.due, hpc, ThreadPc.owed, ThreadPc.cleared]
  | takeTask =>
      simp only [hpc] at h
      split at h
      · cases h
      · split at h
        · cases h
          exact .work _ i _ hno fun hI => .of_working (by rw [hpc]; rfl) rfl
            (fun c => by simp [Lane.due, hpc, ThreadPc.owed]) hI.idle
        next t rest hq =>
          cases h
          refine .work _ i _ hno fun hI => .of_working (by rw [hpc]; rfl) rfl (fun c => ?_) hI.idle
          have hdue := due_takeTask hq c
          simp only [Lane.due, hpc, ThreadPc.owed, List.count_nil]
          omega
  | task t =>
      simp only [hpc] at h
      cases h
      exact .work _ i _ hno fun hI => .of_working (by rw [hpc]; rfl) rfl
        (fun c => by simp [Lane.due, hpc, ThreadPc.owed, due_processTask hI.idle])
        (hI.idle.processTask t)
  | stopped | drainTasks | drainResponses | drained => simp [hpc] at h

theorem drainStep_effect {s s' : Queue} {i : Nat} (h : drainStep s i = some s') :
    Effect cfg s .shutdown s' := by
  have hno : ∀ c, Act.shutdown ≠ .enqueue c := fun c hc => by cases hc
  simp only [drainStep] at h
  cases hpc : (s.workers i).pc with
  | stopped =>
      simp only [hpc] at h
      cases h
      refine .work _ i _ hno fun hI => ⟨fun c => ?_, ⟨?_, fun _ => rfl⟩, ?_, ?_, ?_⟩
      · simp [Lane.due, hpc, ThreadPc.owed, due_drainSessions hI.idle]
      · exact fun sid _ => rfl
      · simp [hpc]
      · simp [hpc, ThreadPc.emptied]
      · simp [ThreadPc.emptied]
  | drainTasks =>
      simp only [hpc] at h
      split at h
      next t rest hq =>
        cases h
        refine .work _ i _ hno fun hI => ⟨fun c => ?_, ⟨hI.idle, fun _ => ?_⟩, ?_, ?_, ?_⟩
        · simp [Lane.due, hpc, ThreadPc.owed, due_drainTask hq]
        · exact hI.cleared (by rw [hpc]; rfl)
        · simp [hpc]
        · simp [hpc, ThreadPc.emptied]
        · simp [ThreadPc.emptied]
      next hq =>
        cases h
        refine .work _ i _ hno fun hI => ⟨fun c => ?_, ⟨hI.idle, fun _ => ?_⟩, ?_, ?_, fun _ => ?_⟩
        · simp [Lane.due, hpc, ThreadPc.owed]
        · exact hI.cleared (by rw [hpc]; rfl)
        · simp [hpc]
        · simp [hpc, ThreadPc.emptied]
        · exact .inr hq
  | drainResponses =>
      simp only [hpc] at h
      split at h
      · cases h
        refine .work _ i _ hno fun hI =>
          ⟨fun c => ?_, ⟨hI.idle, fun _ => ?_⟩, ?_, fun _ => ⟨rfl, rfl⟩, fun _ => .inl ?_⟩
        · simp [Lane.due, hpc, ThreadPc.owed, WorkerData.due]
        · exact hI.cleared (by rw [hpc]; rfl)
        · simp [hpc]
        · simp [hpc, ThreadPc.emptied]
      · cases h
        refine .work _ i _ hno fun hI =>
          ⟨fun c => ?_, ⟨hI.idle, fun _ => ?_⟩, fun _ => rfl, fun _ => ⟨rfl, rfl⟩, fun _ => .inl ?_⟩
        · simp [Lane.due, hpc, ThreadPc.owed]
        · exact hI.cleared (by rw [hpc]; rfl)
        · simp [hpc, ThreadPc.emptied]
  | _ => simp [hpc] at h

theorem shutdownStep_effect {s s' : Queue} (h : shutdownStep cfg s = some s') :
    Effect cfg s .shutdown s' := by
  have hno : ∀ c, Act.shutdown ≠ .enqueue c := fun c hc => by cases hc
  simp only [shutdownStep] at h
  cases hpc : s.shutdown with
  | idle =>
      simp only [hpc] at h
      cases h
      refine .shut _ _ s.mIsRunning hno (by split <;> simp) fun hrun i hi => ?_
      simp [hrun hpc, ShutdownPc.drained] at hi
  | store =>
      simp only [hpc] at h
      cases h
      exact .shut _ _ _ hno (by simp) fun _ i hi => absurd hi (Nat.not_lt_zero i)
  | join k =>
      simp only [hpc] at h
      split at h
      · split at h
        · cases h
          exact .shut _ _ s.mIsRunning hno (by simp) fun _ i hi => absurd hi (Nat.not_lt_zero i)
        · cases h
      · cases h
        exact .shut _ _ s.mIsRunning hno (by simp) fun _ i hi => absurd hi (Nat.not_lt_zero i)
  | drain k =>
      simp only [hpc] at h
      split at h
      · split at h
        next hd =>
          cases h
          refine .shut _ _ s.mIsRunning hno (by simp) fun _ i hi => ?_
          rcases Nat.lt_succ_iff_lt_or_eq.mp hi with hlt | rfl
          · exact .inl (by rw [hpc]; exact hlt)
          · exact .inr hd
        · exact drainStep_effect h
      next hk =>
        cases h
        refine .shut _ _ s.mIsRunning hno (by simp) fun _ i hi => .inl ?_
        rw [hpc]
        exact Nat.lt_of_lt_of_le hi (Nat.le_of_not_lt hk)
  | returned => simp [hpc] at h

/-- Every step has one of the effects. -/
theorem step_effect {s s' : Queue} {a : Act} (h : step cfg s a = some s') : Effect cfg s a s' := by
  cases a with
  | call c =>
      simp only [step] at h
      split at h
      next hpc =>
        cases h
        exact .move _ c _ s.mutexes (by simp [hpc]) (by simp [hpc, CallPc.accepted])
          (by simp [hpc, CallPc.rejected]) (fun d hd => by cases hd)
      · cases h
  | enqueue c => exact enqueueStep_effect h
  | respond resp =>
      have hno : ∀ c, Act.respond resp ≠ .enqueue c := fun c hc => by cases hc
      simp only [step, onDBResponse] at h
      split at h
      · cases h
        exact .stay _ hno
      · split at h
        · cases h
        · cases h
          exact .work _ _ _ hno fun hI => ⟨fun _ => rfl, ⟨hI.idle, hI.cleared⟩, fun hd => hd,
            fun he => ⟨he, rfl⟩, fun he => .inl he⟩
  | rehash i m =>
      have hno : ∀ c, Act.rehash i m ≠ .enqueue c := fun c hc => by cases hc
      simp only [step] at h
      split at h
      next hm =>
        cases h
        refine .work _ i _ hno fun hI => ⟨fun c => ?_, ⟨hI.idle.rehash hm, fun hc => ?_⟩,
          fun hd => hd, fun he => ⟨he, rfl⟩, fun he => .inl he⟩
        · simp [Lane.due, due_rehash hm]
        · rw [hI.cleared hc] at hm
          exact AList.ext (List.perm_nil.mp hm)
      · cases h
  | work i now sendOk =>
      simp only [step] at h
      split at h
      · exact workStep_effect h
      · cases h
  | shutdown => exact shutdownStep_effect h

/-! ## Invariants -/

variable {s s' : Queue} {a : Act}

/-- What holds in every state of the queue. -/
structure QueueInv (cfg : Config) (s : Queue) : Prop where
  lane : ∀ i, LaneInv (s.workers i)
  /-- A worker has what was pushed to it. -/
  due : ∀ i c, (s.workers i).due c =
    if workerIndex cfg c = i ∧ (cfg.args c).hasCallback = true then s.pushed.count c else 0
  /-- `pushed` lists the calls whose task was pushed. -/
  pushed : Lists CallPc.accepted s.calls s.pushed
  /-- `rejected` lists the calls whose task was rejected. -/
  rejected : Lists CallPc.rejected s.calls s.rejected
  invoked : ∀ c, (s.invoked.map (·.uid)).count c =
    if (cfg.args c).hasCallback then s.rejected.count c else 0
  running : s.shutdown = .idle → s.mIsRunning = true
  drained : ∀ i, i < s.shutdown.drained cfg → (s.workers i).pc = .drained

theorem queueInv_init (cfg : Config) : QueueInv cfg {} where
  lane := fun i => ⟨fun sid _ => rfl, fun hc => by cases hc⟩
  due := fun i c => by
    simp [Lane.due, WorkerData.due, WorkerData.make, owedBy, ThreadPc.owed]
  pushed := Tally.lists_nil fun _ => rfl
  rejected := Tally.lists_nil fun _ => rfl
  invoked := fun c => by simp
  running := fun _ => rfl
  drained := fun i hi => absurd hi (Nat.not_lt_zero i)

theorem count_callback (c d : Nat) :
    (cfg.task c).callback.toList.count d =
      if (cfg.args d).hasCallback then [c].count d else 0 := by
  have hcb : (cfg.task c).callback = if (cfg.args c).hasCallback then some c else none := rfl
  rw [hcb]
  by_cases hcd : c = d
  · subst hcd
    cases (cfg.args c).hasCallback <;> simp
  · cases (cfg.args c).hasCallback <;> simp [hcd]

/-- The worker of a call gets its callback. -/
theorem due_push (w : Lane) (c d : Nat) :
    Lane.due { w with data := { w.data with taskQueue := w.data.taskQueue ++ [cfg.task c] } } d =
      w.due d + (cfg.task c).callback.toList.count d := by
  have hone : ([cfg.task c].filterMap (·.callback)).count d =
      (cfg.task c).callback.toList.count d := by
    cases hc : (cfg.task c).callback <;> simp [hc]
  simp only [Lane.due, WorkerData.due, List.filterMap_append, List.count_append, hone]
  omega

theorem Effect.lane (h : Effect cfg s a s') (hI : ∀ i, LaneInv (s.workers i)) (i : Nat) :
    LaneInv (s'.workers i) := by
  cases h with
  | push c hpc =>
      by_cases hi : i = workerIndex cfg c
      · subst hi
        simp only [Queue.setCall, Queue.setWorker, Function.update_self]
        exact ⟨(hI _).idle, (hI _).cleared⟩
      · simp only [Queue.setCall, Queue.setWorker, Function.update_of_ne hi]
        exact hI i
  | work _ k w _ hm =>
      by_cases hi : i = k
      · subst hi
        simp only [Queue.setWorker, Function.update_self]
        exact (hm (hI i)).inv
      · simp only [Queue.setWorker, Function.update_of_ne hi]
        exact hI i
  | _ => exact hI i

theorem Effect.due (h : Effect cfg s a s') (hI : QueueInv cfg s) (i d : Nat) :
    (s'.workers i).due d =
      if workerIndex cfg d = i ∧ (cfg.args d).hasCallback = true then s'.pushed.count d else 0 := by
  cases h with
  | push c hpc =>
      show ((Function.update s.workers (workerIndex cfg c) _) i).due d =
        if _ then (s.pushed ++ [c]).count d else 0
      have hold := hI.due i d
      rw [List.count_append]
      by_cases hi : i = workerIndex cfg c
      · subst hi
        rw [Function.update_self, due_push, hold, count_callback]
        by_cases hcd : c = d
        · subst hcd
          by_cases hcb : (cfg.args c).hasCallback = true <;> simp [hcb]
        · simp [hcd]
      · rw [Function.update_of_ne hi, hold]
        by_cases hcd : c = d
        · subst hcd
          rw [if_neg fun h => hi h.1.symm, if_neg fun h => hi h.1.symm]
        · simp [hcd]
  | work _ k w _ hm =>
      by_cases hi : i = k
      · subst hi
        simp only [Queue.setWorker, Function.update_self]
        rw [(hm (hI.lane i)).due d]
        exact hI.due i d
      · simp only [Queue.setWorker, Function.update_of_ne hi]
        exact hI.due i d
  | _ => exact hI.due i d

theorem Effect.pushed (h : Effect cfg s a s') (hI : Lists CallPc.accepted s.calls s.pushed) :
    Lists CallPc.accepted s'.calls s'.pushed := by
  cases h with
  | move _ c pc mutexes _ ha => exact hI.move ha
  | push c hpc => exact hI.enter (by simp [hpc, CallPc.accepted]) rfl
  | reject c result detail hpc => exact hI.move (by simp [hpc, CallPc.accepted])
  | _ => exact hI

theorem Effect.rejected (h : Effect cfg s a s') (hI : Lists CallPc.rejected s.calls s.rejected) :
    Lists CallPc.rejected s'.calls s'.rejected := by
  cases h with
  | move _ c pc mutexes _ _ hr => exact hI.move hr
  | push c hpc => exact hI.move (by simp [hpc, CallPc.rejected])
  | reject c result detail hpc => exact hI.enter (by simp [hpc, CallPc.rejected]) rfl
  | _ => exact hI

theorem Effect.invoked (h : Effect cfg s a s')
    (hI : ∀ c, (s.invoked.map (·.uid)).count c =
      if (cfg.args c).hasCallback then s.rejected.count c else 0) (d : Nat) :
    (s'.invoked.map (·.uid)).count d =
      if (cfg.args d).hasCallback then s'.rejected.count d else 0 := by
  cases h with
  | reject c result detail hpc =>
      show ((s.invoked ++ _).map (·.uid)).count d =
        if (cfg.args d).hasCallback then (s.rejected ++ [c]).count d else 0
      have huid : (((cfg.task c).callback.map fun uid => Invoked.mk uid result detail).toList.map
          (·.uid)).count d = (cfg.task c).callback.toList.count d := by
        cases (cfg.task c).callback <;> rfl
      rw [List.map_append, List.count_append, huid, count_callback, hI d, List.count_append]
      split <;> rfl
  | _ => exact hI d

theorem Effect.running (h : Effect cfg s a s') (hI : s.shutdown = .idle → s.mIsRunning = true) :
    s'.shutdown = .idle → s'.mIsRunning = true := by
  cases h with
  | shut _ pc running _ hpc => exact fun hidle => absurd hidle hpc
  | _ => exact hI

/-- A worker that `Shutdown` is done with stays so. -/
theorem Effect.drained_worker (h : Effect cfg s a s') (hI : ∀ i, LaneInv (s.workers i)) {i : Nat}
    (hd : (s.workers i).pc = .drained) : (s'.workers i).pc = .drained := by
  cases h with
  | push c hpc =>
      by_cases hi : i = workerIndex cfg c
      · subst hi
        simp [Queue.setWorker, Queue.setCall, hd]
      · simp [Queue.setWorker, Queue.setCall, hd, hi]
  | work _ k w _ hm =>
      by_cases hi : i = k
      · subst hi
        simp only [Queue.setWorker, Function.update_self]
        exact (hm (hI i)).drained hd
      · simp [Queue.setWorker, hi, hd]
  | _ => exact hd

theorem Effect.drained (h : Effect cfg s a s') (hI : QueueInv cfg s) :
    ∀ i, i < s'.shutdown.drained cfg → (s'.workers i).pc = .drained := by
  have hkeep : ∀ i, i < s.shutdown.drained cfg → (s'.workers i).pc = .drained :=
    fun i hi => h.drained_worker hI.lane (hI.drained i hi)
  cases h with
  | shut _ pc running _ _ hd =>
      intro i hi
      exact (hd hI.running i hi).elim (hI.drained i) id
  | _ => exact hkeep

/-- Every step keeps the invariant. -/
theorem QueueInv.step (hI : QueueInv cfg s) (hs : step cfg s a = some s') : QueueInv cfg s' := by
  have h := step_effect hs
  exact {
    lane := h.lane hI.lane
    due := h.due hI
    pushed := h.pushed hI.pushed
    rejected := h.rejected hI.rejected
    invoked := h.invoked hI.invoked
    running := h.running hI.running
    drained := h.drained hI }

/-! ## Callbacks left behind -/

/-- No callback is in a queue that `Shutdown` has found empty. -/
def NothingLeft (s : Queue) : Prop :=
  ∀ i, (s.workers i).pc.emptied = true →
    (s.workers i).data.taskQueue.filterMap (·.callback) = []

/-- A push before the drain leaves nothing behind, and nothing else does. -/
theorem Effect.nothingLeft (h : Effect cfg s a s') (hlane : ∀ i, LaneInv (s.workers i))
    (hok : beforeDrain cfg s a = true) (hI : NothingLeft s) : NothingLeft s' := by
  cases h with
  | push c hpc =>
      intro i he
      by_cases hi : i = workerIndex cfg c
      · subst hi
        simp only [Queue.setCall, Queue.setWorker, Function.update_self] at he ⊢
        have hcb : (cfg.args c).hasCallback = false := by simpa [beforeDrain, hpc, he] using hok
        rw [List.filterMap_append, hI _ he]
        simp [Config.task, DBServerTask.callback, hcb]
      · simp only [Queue.setCall, Queue.setWorker, Function.update_of_ne hi] at he ⊢
        exact hI i he
  | work _ k w _ hm =>
      intro i he
      by_cases hi : i = k
      · subst hi
        have hmove := hm (hlane i)
        simp only [Queue.setWorker, Function.update_self] at he ⊢
        rcases hmove.left he with hold | hq
        · rw [(hmove.kept hold).2]
          exact hI i hold
        · rw [hq, List.filterMap_nil]
      · simp only [Queue.setWorker, Function.update_of_ne hi] at he ⊢
        exact hI i he
  | _ => exact hI

/-- A push after the drain leaves its callback behind. -/
theorem Effect.left (h : Effect cfg s a s') (hok : beforeDrain cfg s a = false) :
    ¬ NothingLeft s' := by
  intro hI
  cases a with
  | enqueue c =>
      simp only [beforeDrain, ne_eq, decide_not, Bool.or_eq_false_iff, Bool.not_eq_false',
        decide_eq_true_eq] at hok
      obtain ⟨⟨hpc, hcb⟩, he⟩ := hok
      cases h with
      | move _ d pc mutexes hne _ _ hd =>
          rw [hd c rfl] at hpc
          exact hne hpc
      | push =>
          have hq := hI (workerIndex cfg c)
          simp only [Queue.setCall, Queue.setWorker, Function.update_self, List.filterMap_append,
            List.append_eq_nil_iff] at hq
          have hnone := (hq he).2
          simp [Config.task, DBServerTask.callback, hcb] at hnone
      | reject _ result detail hpc' => simp [hpc] at hpc'
      | work _ _ _ hno => exact hno c rfl
      | shut _ _ _ hno => exact hno c rfl
      | stay _ hno => exact hno c rfl
  | _ => simp [beforeDrain] at hok

/-- What has been left behind stays behind. -/
theorem Effect.left_stable (h : Effect cfg s a s') (hlane : ∀ i, LaneInv (s.workers i))
    (hI : ¬ NothingLeft s) : ¬ NothingLeft s' := by
  intro hI'
  refine hI fun i he => ?_
  have hi := hI' i
  cases h with
  | push c hpc =>
      by_cases hik : i = workerIndex cfg c
      · subst hik
        simp only [Queue.setCall, Queue.setWorker, Function.update_self, List.filterMap_append,
          List.append_eq_nil_iff] at hi
        exact (hi he).1
      · simp only [Queue.setCall, Queue.setWorker, Function.update_of_ne hik] at hi
        exact hi he
  | work _ k w _ hm =>
      by_cases hik : i = k
      · subst hik
        have hkept := (hm (hlane i)).kept he
        simp only [Queue.setWorker, Function.update_self] at hi
        rw [← hkept.2]
        exact hi hkept.1
      · simp only [Queue.setWorker, Function.update_of_ne hik] at hi
        exact hi he
  | _ => exact hi he

/-- A run leaves nothing behind exactly when no callback is pushed after its drain. -/
theorem nothingLeft_iff_beforeDrain {as : List Act}
    (hrun : Machine.run (step cfg) {} as = some s) :
    NothingLeft s ↔ Machine.Meets (step cfg) (fun s a => beforeDrain cfg s a) {} as := by
  constructor
  · intro hs
    refine Machine.meets_of_run (I := QueueInv cfg) (B := fun s => ¬ NothingLeft s)
      (fun _ _ _ hI hs => hI.step hs) ?_ ?_ (queueInv_init cfg) hrun (not_not_intro hs)
    · exact fun _ _ _ _ hno hstep => (step_effect hstep).left (by simpa using hno)
    · exact fun _ _ _ hI hB hstep => (step_effect hstep).left_stable hI.lane hB
  · intro hok
    have hboth : QueueInv cfg s ∧ NothingLeft s := by
      refine Machine.run_invariant_of_meets (I := fun s => QueueInv cfg s ∧ NothingLeft s) ?_
        ⟨queueInv_init cfg, fun i he => by cases he⟩ hok hrun
      exact fun _ _ _ hI hok hstep =>
        ⟨hI.1.step hstep, (step_effect hstep).nothingLeft hI.1.lane hok hI.2⟩
    exact hboth.2

/-! ## The promise is kept exactly in these runs -/

/-- Only the worker of a call invokes its callback. -/
theorem QueueInv.invocations_eq (hI : QueueInv cfg s) (c : Nat) :
    s.invocations cfg c = (s.invoked.map (·.uid)).count c +
      ((s.workers (workerIndex cfg c)).data.invoked.map (·.uid)).count c := by
  have hlt : workerIndex cfg c < cfg.workerCount := Nat.mod_lt _ cfg.workerCount_pos
  rw [Queue.invocations, Finset.sum_eq_single (workerIndex cfg c)]
  · intro i _ hne
    have hdue := hI.due i c
    rw [if_neg fun h => hne h.1.symm, Lane.due, WorkerData.due] at hdue
    omega
  · exact fun hout => absurd (Finset.mem_range.mpr hlt) hout

theorem QueueInv.complete (hI : QueueInv cfg s) (hret : s.Returned) (hleft : NothingLeft s) {c : Nat}
    (hc : s.calls c ≠ .idle) : s.invocations cfg c = (cfg.args c).hasCallback.toNat := by
  obtain ⟨accepted, hpc⟩ := (hret.2 c).resolve_left hc
  have hlt : workerIndex cfg c < cfg.workerCount := Nat.mod_lt _ cfg.workerCount_pos
  have hd : (s.workers (workerIndex cfg c)).pc = .drained :=
    hI.drained _ (by rw [hret.1]; exact hlt)
  have hdue := hI.due (workerIndex cfg c) c
  have hq := hleft (workerIndex cfg c) (by rw [hd]; rfl)
  have hsess := (hI.lane (workerIndex cfg c)).cleared (by rw [hd]; rfl)
  have hnone : owedBy (∅ : Sessions) = [] := rfl
  -- Nothing waits any more, so what is due was invoked.
  simp only [Lane.due, WorkerData.due, hd, hq, hsess, hnone, ThreadPc.owed, List.count_nil,
    Nat.add_zero, true_and] at hdue
  rw [hI.invocations_eq c, hdue, hI.invoked c, hI.pushed.count c, hI.rejected.count c, hpc]
  cases accepted <;> cases (cfg.args c).hasCallback <;> rfl

/-- If every callback was invoked, then none was left behind. -/
theorem QueueInv.nothingLeft (hI : QueueInv cfg s)
    (honce : ∀ c, s.calls c ≠ .idle → s.invocations cfg c = (cfg.args c).hasCallback.toNat) :
    NothingLeft s := by
  intro i _
  by_contra hne
  obtain ⟨c, hc⟩ := List.exists_mem_of_ne_nil _ hne
  have hpos := List.count_pos_iff.mpr hc
  have hdue := hI.due i c
  rw [Lane.due, WorkerData.due] at hdue
  split at hdue
  next hmine =>
    obtain ⟨rfl, hcb⟩ := hmine
    have hpushed := hI.pushed.count c
    have hacc : (s.calls c).accepted = true := by
      by_contra hno
      rw [Bool.not_eq_true] at hno
      rw [hno, Bool.toNat_false] at hpushed
      omega
    have hidle : s.calls c ≠ .idle := fun hz => by simp [hz, CallPc.accepted] at hacc
    have hrej : (s.calls c).rejected = false := by
      cases hpc : s.calls c <;> simp_all [CallPc.accepted, CallPc.rejected]
    have hinv := honce c hidle
    rw [hI.invocations_eq c, hI.invoked c, hI.rejected.count c, hrej, hcb] at hinv
    rw [hacc, Bool.toNat_true] at hpushed
    simp only [if_true, Bool.toNat_false, Bool.toNat_true] at hinv
    omega
  next => omega

/-- A run keeps the promise exactly when `Shutdown` or a call has not returned or no
callback was pushed to a queue that `Shutdown` had found empty. -/
theorem complete_iff_beforeDrain (cfg : Config) (as : List Act) (s : Queue)
    (hrun : Machine.run (step cfg) {} as = some s) :
    Complete cfg s ↔ (s.Returned →
      Machine.Meets (step cfg) (fun s a => beforeDrain cfg s a) {} as) := by
  have hI : QueueInv cfg s :=
    Machine.run_invariant (fun _ _ _ hI hs => hI.step hs) (queueInv_init cfg) hrun
  rw [← nothingLeft_iff_beforeDrain hrun]
  constructor
  · exact fun h hret => hI.nothingLeft (h hret)
  · exact fun hleft hret c hc => hI.complete hret (hleft hret) hc

end

/-- One worker, and tasks of the session 7 with data and callbacks. -/
def oneWorker : Config := ⟨1, Nat.one_pos, fun _ => saveTask [1]⟩

/-- The worker sends the first task, and the second waits behind it.  A response
completes the first, and the second is sent.  The third is in the queue when `Shutdown`
comes, and the fourth comes too late. -/
def completeTrace : List Act :=
  List.flatten
    [[.call 0], List.replicate 7 (.enqueue 0), [.call 1], List.replicate 7 (.enqueue 1),
      List.replicate 11 (.work 0 0 true), [.respond (answer 1)], List.replicate 6 (.work 0 0 true),
      [.call 2], List.replicate 7 (.enqueue 2), [.shutdown, .shutdown],
      List.replicate 5 (.work 0 0 true), [.call 3], List.replicate 2 (.enqueue 3),
      List.replicate 8 .shutdown]

theorem complete_completeTrace :
    ∃ s, Machine.run (step oneWorker) {} completeTrace = some s ∧ s.shutdown = .returned ∧
      (s.workers 0).data.invoked.map (·.uid) = [0, 1, 2] ∧ s.invoked.map (·.uid) = [3] ∧
      Complete oneWorker s :=
  ⟨_, rfl, rfl, by decide +kernel, by decide +kernel,
    (complete_iff_beforeDrain oneWorker completeTrace _ rfl).mpr fun _ => by decide +kernel⟩

/-- A call has found `mIsRunning` set under the lock and is about to push.  `Shutdown`
clears the flag, the worker leaves at the head of its loop, and the drain finds nothing. -/
def pushAfterDrainTrace : List Act :=
  List.flatten
    [[.call 0], List.replicate 4 (.enqueue 0), [.shutdown, .shutdown, .work 0 0 true],
      List.replicate 7 .shutdown, List.replicate 3 (.enqueue 0)]

/-- Everybody has returned, and the callback was not invoked. -/
theorem not_complete_pushAfterDrainTrace :
    ∃ s, Machine.run (step oneWorker) {} pushAfterDrainTrace = some s ∧ s.shutdown = .returned ∧
      s.calls 0 = .returned true ∧ s.invocations oneWorker 0 = 0 ∧ ¬ Complete oneWorker s := by
  have hzero : ∃ s, Machine.run (step oneWorker) {} pushAfterDrainTrace = some s ∧
      s.shutdown = .returned ∧ s.calls 0 = .returned true ∧ s.invocations oneWorker 0 = 0 ∧
      ∀ c, s.calls (c + 1) = .idle :=
    ⟨_, rfl, rfl, rfl, by decide +kernel, fun _ => rfl⟩
  obtain ⟨s, hrun, hdown, hcall, hinv, hidle⟩ := hzero
  refine ⟨s, hrun, hdown, hcall, hinv, fun h => ?_⟩
  have hone := h ⟨hdown, fun c => ?_⟩ 0 (by rw [hcall]; decide)
  · rw [hinv] at hone
    exact absurd hone (by decide)
  · cases c with
    | zero => exact .inr ⟨true, hcall⟩
    | succ c => exact .inl (hidle c)

end NetworkModule.DBServer.Completion
