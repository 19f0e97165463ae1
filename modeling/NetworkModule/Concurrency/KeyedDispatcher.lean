import NetworkModule.Lib.FifoPool
import NetworkModule.Concurrency.ExecutionQueue

/-!
# KeyedDispatcher

The dispatcher of `Concurrency/KeyedDispatcher.h` with all its threads: any
number of `Dispatch` calls, one thread per worker, and one `Shutdown`.  Every
atomic access, lock operation and queue operation is one step, and a label says
which thread takes the next one.  A task is known by the number of the
`Dispatch` call that brought it.

The state carries three histories that no step reads: the calls whose task was
pushed, the calls whose task a worker has taken, and the calls whose task has
run and been counted, each in order.

The dispatcher refines the pool of `FifoPool` with one lane per worker
(`simulates`).  The order of the tasks of one key and the absence of overlap
come from there.
-/

namespace NetworkModule.Concurrency

/-! ## Threads -/

/-- A thread that can hold the mutex of a worker's queue. -/
inductive Party where
  /-- The `Dispatch` call with this number. -/
  | call (c : Nat)
  /-- The worker of the queue. -/
  | worker
  deriving DecidableEq, Repr

/-- Where a `Dispatch` call stands. -/
inductive CallPc where
  /-- The call has not been made. -/
  | idle
  /-- Taking `mWorkersMutex` shared. -/
  | sharedLock
  /-- Testing `mRunning`, the task and the worker list. -/
  | runningTest
  /-- Inside `mQueue.Push`. -/
  | pushing (pc : PushPc)
  /-- `mSubmitted.fetch_add`. -/
  | countSubmitted
  /-- `mRejected.fetch_add`. -/
  | countRejected
  /-- Releasing the shared lock with the result `r`. -/
  | sharedUnlock (r : Bool)
  /-- The call has returned. -/
  | returned (r : Bool)
  deriving DecidableEq, Repr

/-- The arguments of a `Dispatch` call. -/
structure DispatchArgs where
  /-- `key`. -/
  key : UInt64
  /-- Whether the `std::function` holds a task. -/
  hasTask : Bool := true
  /-- `timeoutMs`. -/
  timeoutMs : Int := -1
  deriving DecidableEq, Repr

/-- Where a worker thread stands. -/
inductive WorkerPc where
  /-- Inside `mQueue.Pop(task, 100)`. -/
  | popping (pc : PopPc Nat)
  /-- `Pop` failed.  Testing `mRunning`. -/
  | runningTest
  /-- `mRunning` is false.  Testing `mQueue.Empty()`. -/
  | emptyTest
  /-- Running the task of a call. -/
  | executing (c : Nat)
  /-- The task returned or threw.  Counting it. -/
  | counting (c : Nat) (threw : Bool)
  /-- The thread has left its loop. -/
  | exited
  deriving DecidableEq, Repr

/-- A worker: its queue and its thread. -/
structure Worker where
  /-- `mQueue`. -/
  mQueue : ExecutionQueue Nat Party := {}
  /-- The thread. -/
  pc : WorkerPc := .popping .tryLock
  deriving DecidableEq, Repr

/-- Where `Shutdown` stands. -/
inductive ShutdownPc where
  /-- Not called. -/
  | idle
  /-- Shutting down the queue of worker `i`. -/
  | queue (i : Nat)
  /-- Joining the thread of worker `i`. -/
  | join (i : Nat)
  /-- Taking `mWorkersMutex` exclusively. -/
  | exclusiveLock
  /-- `mWorkers.clear()`. -/
  | clear
  /-- Releasing the exclusive lock. -/
  | exclusiveUnlock
  /-- The call has returned. -/
  | returned
  deriving DecidableEq, Repr

/-- The dispatcher and all its threads. -/
structure KeyedDispatcher where
  /-- `mRunning`. -/
  mRunning : Bool := true
  /-- The workers, by index. -/
  workers : Nat → Worker := fun _ => {}
  /-- Whether `mWorkers` has been cleared. -/
  cleared : Bool := false
  /-- The calls that hold `mWorkersMutex` shared. -/
  shared : List Nat := []
  /-- Whether `mWorkersMutex` is held exclusively. -/
  exclusive : Bool := false
  mSubmitted : Nat := 0
  mRejected : Nat := 0
  mCompleted : Nat := 0
  mFailed : Nat := 0
  /-- The `Dispatch` calls, by number. -/
  calls : Nat → CallPc := fun _ => .idle
  /-- `Shutdown`. -/
  shutdown : ShutdownPc := .idle
  /-- The calls whose task was pushed, in order. -/
  pushed : List Nat := []
  /-- The calls whose task was taken from a queue, in order. -/
  taken : List Nat := []
  /-- The calls whose task has run and been counted, in order. -/
  finished : List Nat := []

/-- What a run of the dispatcher is given: the number of workers and the queue
options of `Initialize`, and the arguments of the `Dispatch` calls. -/
structure DispatcherConfig where
  /-- `mWorkerCount` after the defaults. -/
  workerCount : Nat
  /-- `Initialize` never leaves the count at 0. -/
  workerCount_pos : 0 < workerCount
  /-- `mQueueOptions`. -/
  mQueueOptions : ExecutionQueueOptions := {}
  /-- The arguments of each call. -/
  args : Nat → DispatchArgs

/-! ## Steps -/

/-- Who moves. -/
inductive DispatcherAct where
  /-- A thread calls `Dispatch` as call number `c`. -/
  | call (c : Nat)
  /-- Call `c` takes its next step. -/
  | dispatch (c : Nat) (expired : Bool)
  /-- Worker `i` takes its next step.  `throws` is the fate of a task that ends
  with it. -/
  | work (i : Nat) (expired throws : Bool)
  /-- `Shutdown` is called or takes its next step. -/
  | shutdown
  deriving DecidableEq, Repr

section
variable (cfg : DispatcherConfig)

/-- `KeyToWorkerIndex`. -/
def keyToWorkerIndex (key : UInt64) : Nat := key.toNat % cfg.workerCount

/-- The worker a call is routed to. -/
def workerOf (c : Nat) : Nat := keyToWorkerIndex cfg (cfg.args c).key

/-- Move a call to another place. -/
def KeyedDispatcher.setCall (s : KeyedDispatcher) (c : Nat) (pc : CallPc) : KeyedDispatcher :=
  { s with calls := Function.update s.calls c pc }

/-- Replace a worker. -/
def KeyedDispatcher.setWorker (s : KeyedDispatcher) (i : Nat) (w : Worker) : KeyedDispatcher :=
  { s with workers := Function.update s.workers i w }

/-- The place of a call once a step of `Push` has led to `pc`. -/
def CallPc.afterPush : PushPc → CallPc
  | .returned true => .countSubmitted
  | .returned false => .countRejected
  | pc => .pushing pc

/-- One step of the `Dispatch` call `c`. -/
def dispatchStep (s : KeyedDispatcher) (c : Nat) (expired : Bool) : Option KeyedDispatcher :=
  match s.calls c with
  | .idle => none
  | .sharedLock =>
      if s.exclusive then none
      else some ({ s with shared := c :: s.shared }.setCall c .runningTest)
  | .runningTest =>
      if !s.mRunning || !(cfg.args c).hasTask || s.cleared then
        some (s.setCall c .countRejected)
      else some (s.setCall c (.pushing .entry))
  | .pushing pc =>
      let i := workerOf cfg c
      match pushStep cfg.mQueueOptions (.call c) c (cfg.args c).timeoutMs expired
          (s.workers i).mQueue pc with
      | none => none
      | some (q, pc') =>
          let s' := { s with pushed := if pc = PushPc.push then s.pushed ++ [c] else s.pushed }
          some ((s'.setWorker i { s.workers i with mQueue := q }).setCall c (.afterPush pc'))
  | .countSubmitted =>
      some ({ s with mSubmitted := s.mSubmitted + 1 }.setCall c (.sharedUnlock true))
  | .countRejected =>
      some ({ s with mRejected := s.mRejected + 1 }.setCall c (.sharedUnlock false))
  | .sharedUnlock r => some ({ s with shared := s.shared.erase c }.setCall c (.returned r))
  | .returned _ => none

/-- The place of a worker once a step of `Pop` has led to `pc`. -/
def WorkerPc.afterPop : PopPc Nat → WorkerPc
  | .returned (some c) => .executing c
  | .returned none => .runningTest
  | pc => .popping pc

/-- The call whose task a worker thread has taken and not yet counted. -/
def WorkerPc.held : WorkerPc → Option Nat
  | .popping pc => pc.held
  | .executing c | .counting c _ => some c
  | .runningTest | .emptyTest | .exited => none

/-- The timeout a worker gives to `Pop`. -/
def popTimeoutMs : Int := 100

/-- One step of the thread of worker `i`. -/
def workStep (s : KeyedDispatcher) (i : Nat) (expired throws : Bool) : Option KeyedDispatcher :=
  let w := s.workers i
  match w.pc with
  | .popping pc =>
      match popStep .worker popTimeoutMs expired w.mQueue pc with
      | none => none
      | some (q, pc') =>
          let s' := { s with
            taken := if pc = PopPc.take then s.taken ++ pc'.held.toList else s.taken }
          some (s'.setWorker i ⟨q, .afterPop pc'⟩)
  | .runningTest =>
      some (s.setWorker i { w with pc := if s.mRunning then .popping .tryLock else .emptyTest })
  | .emptyTest =>
      some (s.setWorker i { w with pc := if w.mQueue.empty then .exited else .popping .tryLock })
  | .executing c => some (s.setWorker i { w with pc := .counting c throws })
  | .counting c threw =>
      let s' := if threw then { s with mFailed := s.mFailed + 1 }
        else { s with mCompleted := s.mCompleted + 1 }
      some ({ s' with finished := s'.finished ++ [c] }.setWorker i
        { w with pc := .popping .tryLock })
  | .exited => none

/-- One step of `Shutdown`. -/
def shutdownStep (s : KeyedDispatcher) : Option KeyedDispatcher :=
  match s.shutdown with
  | .idle =>
      -- The compare-and-swap on `mRunning`.  A call that finds it false returns.
      if s.mRunning then some { s with mRunning := false, shutdown := .queue 0 }
      else some { s with shutdown := .returned }
  | .queue i =>
      if i < cfg.workerCount then
        let w := s.workers i
        some { s.setWorker i { w with mQueue := w.mQueue.shutdown } with shutdown := .queue (i + 1) }
      else some { s with shutdown := .join 0 }
  | .join i =>
      if i < cfg.workerCount then
        if (s.workers i).pc = .exited then some { s with shutdown := .join (i + 1) } else none
      else some { s with shutdown := .exclusiveLock }
  | .exclusiveLock =>
      if s.exclusive || !s.shared.isEmpty then none
      else some { s with exclusive := true, shutdown := .clear }
  | .clear => some { s with cleared := true, shutdown := .exclusiveUnlock }
  | .exclusiveUnlock => some { s with exclusive := false, shutdown := .returned }
  | .returned => none

/-- One step of the dispatcher. -/
def dispatcherStep (s : KeyedDispatcher) : DispatcherAct → Option KeyedDispatcher
  | .call c => if s.calls c = .idle then some (s.setCall c .sharedLock) else none
  | .dispatch c expired => dispatchStep cfg s c expired
  | .work i expired throws => if i < cfg.workerCount then workStep s i expired throws else none
  | .shutdown => shutdownStep cfg s

/-! ## What a step does -/

/-- Everything a step can do, with its label and the guards it passed. -/
inductive Effect (s : KeyedDispatcher) : DispatcherAct → KeyedDispatcher → Prop where
  | call (c : Nat) : s.calls c = .idle → Effect s (.call c) (s.setCall c .sharedLock)
  | enter (c : Nat) (e : Bool) : s.calls c = .sharedLock → s.exclusive = false →
      Effect s (.dispatch c e) ({ s with shared := c :: s.shared }.setCall c .runningTest)
  | refuse (c : Nat) (e : Bool) : s.calls c = .runningTest →
      Effect s (.dispatch c e) (s.setCall c .countRejected)
  | tested (c : Nat) (e : Bool) : s.calls c = .runningTest → s.mRunning = true →
      Effect s (.dispatch c e) (s.setCall c (.pushing .entry))
  | push (c : Nat) (e : Bool) (q : ExecutionQueue Nat Party) : s.calls c = .pushing .push →
      q.mQueue = (s.workers (workerOf cfg c)).mQueue.mQueue ++ [c] →
      Effect s (.dispatch c e) (({ s with pushed := s.pushed ++ [c] }.setWorker (workerOf cfg c)
        { s.workers (workerOf cfg c) with mQueue := q }).setCall c (.pushing .count))
  | pushing (c : Nat) (e : Bool) (pc : PushPc) (pc' : CallPc) (q : ExecutionQueue Nat Party) :
      s.calls c = .pushing pc → pc ≠ .push →
      q.mQueue = (s.workers (workerOf cfg c)).mQueue.mQueue →
      pc' = .pushing (.unlock true) ∧ pc = .count ∨ pc' = .countSubmitted ∧ pc = .unlock true ∨
        (pc ≠ .count ∧ pc ≠ .unlock true ∧
          (pc' = .countRejected ∨ ∃ p, pc' = .pushing p ∧ p ≠ .count ∧ p ≠ .unlock true)) →
      Effect s (.dispatch c e) ((s.setWorker (workerOf cfg c)
        { s.workers (workerOf cfg c) with mQueue := q }).setCall c pc')
  | submitted (c : Nat) (e : Bool) : s.calls c = .countSubmitted →
      Effect s (.dispatch c e)
        ({ s with mSubmitted := s.mSubmitted + 1 }.setCall c (.sharedUnlock true))
  | rejected (c : Nat) (e : Bool) : s.calls c = .countRejected →
      Effect s (.dispatch c e)
        ({ s with mRejected := s.mRejected + 1 }.setCall c (.sharedUnlock false))
  | leave (c : Nat) (e r : Bool) : s.calls c = .sharedUnlock r →
      Effect s (.dispatch c e) ({ s with shared := s.shared.erase c }.setCall c (.returned r))
  | take (i c : Nat) (e t : Bool) (q : ExecutionQueue Nat Party) (pc : WorkerPc) :
      (s.workers i).pc = .popping .take → (s.workers i).mQueue.mQueue = c :: q.mQueue →
      pc.held = some c → (∀ d b, pc ≠ .counting d b) →
      Effect s (.work i e t) ({ s with taken := s.taken ++ [c] }.setWorker i ⟨q, pc⟩)
  | idle (i : Nat) (e t : Bool) (q : ExecutionQueue Nat Party) (pc : WorkerPc) :
      (s.workers i).pc ≠ .exited → q.mQueue = (s.workers i).mQueue.mQueue →
      pc.held = (s.workers i).pc.held →
      (pc = .exited ↔ (s.workers i).pc = .emptyTest ∧ (s.workers i).mQueue.empty = true) →
      (∀ c b, pc = .counting c b → (s.workers i).pc = .executing c ∧ b = t) →
      Effect s (.work i e t) (s.setWorker i ⟨q, pc⟩)
  | finish (i c completed failed : Nat) (e t threw : Bool) :
      (s.workers i).pc = .counting c threw →
      completed + failed = s.mCompleted + s.mFailed + 1 →
      Effect s (.work i e t)
        ({ s with mCompleted := completed, mFailed := failed,
                  finished := s.finished ++ [c] }.setWorker i
          { s.workers i with pc := .popping .tryLock })
  | stop : s.shutdown = .idle → s.mRunning = true →
      Effect s .shutdown { s with mRunning := false, shutdown := .queue 0 }
  | stopped : s.shutdown = .idle → s.mRunning = false →
      Effect s .shutdown { s with shutdown := .returned }
  | closeQueue (i : Nat) : s.shutdown = .queue i →
      Effect s .shutdown
        { s.setWorker i { s.workers i with mQueue := (s.workers i).mQueue.shutdown } with
          shutdown := .queue (i + 1) }
  | closed (i : Nat) : s.shutdown = .queue i → Effect s .shutdown { s with shutdown := .join 0 }
  | join (i : Nat) : s.shutdown = .join i → (s.workers i).pc = .exited →
      Effect s .shutdown { s with shutdown := .join (i + 1) }
  | joined (i : Nat) : s.shutdown = .join i → cfg.workerCount ≤ i →
      Effect s .shutdown { s with shutdown := .exclusiveLock }
  | exclude : s.shutdown = .exclusiveLock → s.shared = [] →
      Effect s .shutdown { s with exclusive := true, shutdown := .clear }
  | clear : s.shutdown = .clear →
      Effect s .shutdown { s with cleared := true, shutdown := .exclusiveUnlock }
  | finished : s.shutdown = .exclusiveUnlock →
      Effect s .shutdown { s with exclusive := false, shutdown := .returned }

variable {cfg}

/-- A step of a `Dispatch` call has one of the effects. -/
theorem dispatchStep_effect {s s' : KeyedDispatcher} {c : Nat} {expired : Bool}
    (h : dispatchStep cfg s c expired = some s') : Effect cfg s (.dispatch c expired) s' := by
  unfold dispatchStep at h
  cases hpc : s.calls c with
  | idle => simp [hpc] at h
  | sharedLock =>
      simp only [hpc] at h
      split at h
      · cases h
      next he =>
        cases h
        exact .enter c _ hpc (by simpa using he)
  | runningTest =>
      simp only [hpc] at h
      split at h
      · cases h
        exact .refuse c _ hpc
      next hg =>
        cases h
        simp only [Bool.or_eq_true, Bool.not_eq_true', not_or, Bool.not_eq_false,
          Bool.not_eq_true] at hg
        exact .tested c _ hpc hg.1.1
  | pushing pc =>
      simp only [hpc] at h
      split at h
      · cases h
      next q pc' hp =>
        cases h
        rcases pushStep_cases hp with ⟨rfl, rfl, hq⟩ | ⟨rfl, rfl, hq⟩ | ⟨rfl, rfl, hq⟩ |
          ⟨h1, h2, h3, h4, h5, h6, hq⟩
        · exact .push c _ q hpc hq
        · exact .pushing c _ .count _ q hpc (by simp) hq (.inl ⟨rfl, rfl⟩)
        · exact .pushing c _ (.unlock true) _ q hpc (by simp) hq (.inr (.inl ⟨rfl, rfl⟩))
        · simp only [if_neg h1]
          refine .pushing c _ pc _ q hpc h1 hq (.inr (.inr ⟨h2, h3, ?_⟩))
          cases pc' with
          | returned r =>
              cases r with
              | false => exact Or.inl rfl
              | true => exact absurd rfl h6
          | _ => exact Or.inr ⟨_, rfl, h4, h5⟩
  | countSubmitted => simp only [hpc] at h; cases h; exact .submitted c _ hpc
  | countRejected => simp only [hpc] at h; cases h; exact .rejected c _ hpc
  | sharedUnlock r => simp only [hpc] at h; cases h; exact .leave c _ r hpc
  | returned r => simp [hpc] at h

@[simp] theorem WorkerPc.held_afterPop (pc : PopPc Nat) : (WorkerPc.afterPop pc).held = pc.held := by
  cases pc with
  | returned r => cases r <;> rfl
  | _ => rfl

theorem WorkerPc.afterPop_ne_counting (pc : PopPc Nat) (c : Nat) (b : Bool) :
    WorkerPc.afterPop pc ≠ .counting c b := by
  cases pc with
  | returned r => cases r <;> simp [WorkerPc.afterPop]
  | _ => simp [WorkerPc.afterPop]

theorem WorkerPc.afterPop_ne_exited (pc : PopPc Nat) : WorkerPc.afterPop pc ≠ .exited := by
  cases pc with
  | returned r => cases r <;> simp [WorkerPc.afterPop]
  | _ => simp [WorkerPc.afterPop]

/-- A step of a worker has one of the effects. -/
theorem workStep_effect {s s' : KeyedDispatcher} {i : Nat} {expired throws : Bool}
    (h : workStep s i expired throws = some s') : Effect cfg s (.work i expired throws) s' := by
  simp only [workStep] at h
  cases hpc : (s.workers i).pc with
  | popping pc =>
      simp only [hpc] at h
      split at h
      · cases h
      next q pc' hp =>
        cases h
        rcases popStep_cases hp with ⟨c, h1, h2, hq, rfl⟩ | ⟨h1, hq, hne⟩
        · rw [if_pos rfl, h2]
          exact .take i c _ _ q _ hpc hq (by simp [h2]) (WorkerPc.afterPop_ne_counting _)
        · rw [if_neg hne]
          refine .idle i _ _ q _ (by simp [hpc]) hq (by rw [WorkerPc.held_afterPop, h1, hpc]; rfl)
            ?_ ?_
          · simp [WorkerPc.afterPop_ne_exited pc', hpc]
          · exact fun c b he => absurd he (WorkerPc.afterPop_ne_counting _ c b)
  | runningTest =>
      simp only [hpc] at h
      cases h
      exact .idle i _ _ _ _ (by simp [hpc]) rfl
        (by split <;> simp [hpc, WorkerPc.held, PopPc.held]) (by split <;> simp [hpc])
        (by split <;> simp)
  | emptyTest =>
      simp only [hpc] at h
      cases h
      refine .idle i _ _ _ _ (by simp [hpc]) rfl
        (by split <;> simp [hpc, WorkerPc.held, PopPc.held]) ?_ (by split <;> simp)
      split
      next he => simp [hpc, he]
      next he => simp [he]
  | executing c =>
      simp only [hpc] at h
      cases h
      exact .idle i _ _ _ _ (by simp [hpc]) rfl (by simp [hpc, WorkerPc.held]) (by simp [hpc])
        (by simp_all)
  | counting c threw =>
      simp only [hpc] at h
      cases h
      cases threw with
      | false => exact .finish i c (s.mCompleted + 1) s.mFailed _ _ false hpc (by omega)
      | true => exact .finish i c s.mCompleted (s.mFailed + 1) _ _ true hpc (by omega)
  | exited => simp [hpc] at h

/-- A step of `Shutdown` has one of the effects. -/
theorem shutdownStep_effect {s s' : KeyedDispatcher} (h : shutdownStep cfg s = some s') :
    Effect cfg s .shutdown s' := by
  unfold shutdownStep at h
  cases hpc : s.shutdown with
  | idle =>
      simp only [hpc] at h
      split at h
      next hr => cases h; exact .stop hpc hr
      next hr => cases h; exact .stopped hpc (by simpa using hr)
  | queue i =>
      simp only [hpc] at h
      split at h
      · cases h; exact .closeQueue i hpc
      · cases h; exact .closed i hpc
  | join i =>
      simp only [hpc] at h
      split at h
      · split at h
        next he => cases h; exact .join i hpc he
        · cases h
      next hi => cases h; exact .joined i hpc (by omega)
  | exclusiveLock =>
      simp only [hpc] at h
      split at h
      · cases h
      next hg =>
        cases h
        refine .exclude hpc ?_
        simpa using (by simpa using hg : s.exclusive = false ∧ s.shared = []).2
  | clear => simp only [hpc] at h; cases h; exact .clear hpc
  | exclusiveUnlock => simp only [hpc] at h; cases h; exact .finished hpc
  | returned => simp [hpc] at h

/-- Every step has one of the effects. -/
theorem step_effect {s s' : KeyedDispatcher} {a : DispatcherAct}
    (h : dispatcherStep cfg s a = some s') : Effect cfg s a s' := by
  cases a with
  | call c =>
      simp only [dispatcherStep] at h
      split at h
      next hpc => cases h; exact .call c hpc
      · cases h
  | dispatch c expired => exact dispatchStep_effect h
  | work i expired throws =>
      simp only [dispatcherStep] at h
      split at h
      · exact workStep_effect h
      · cases h
  | shutdown => exact shutdownStep_effect h

/-! ## The dispatcher refines the pool -/

/-- The pool a dispatcher implements: one lane per worker. -/
def KeyedDispatcher.pool (s : KeyedDispatcher) : FifoPool.Pool Nat Nat where
  queue i := (s.workers i).mQueue.mQueue
  current i := (s.workers i).pc.held
  accepted := s.pushed
  taken := s.taken
  finished := s.finished

/-- Replacing a worker changes its lane. -/
theorem pool_setWorker (s : KeyedDispatcher) (i : Nat) (w : Worker) :
    (s.setWorker i w).pool =
      { s.pool with queue := Function.update s.pool.queue i w.mQueue.mQueue
                    current := Function.update s.pool.current i w.pc.held } := by
  have hq : (fun k => (Function.update s.workers i w k).mQueue.mQueue) =
      Function.update s.pool.queue i w.mQueue.mQueue :=
    Function.comp_update (fun w : Worker => w.mQueue.mQueue) s.workers i w
  have hc : (fun k => (Function.update s.workers i w k).pc.held) =
      Function.update s.pool.current i w.pc.held :=
    Function.comp_update (fun w : Worker => w.pc.held) s.workers i w
  simp only [KeyedDispatcher.pool, KeyedDispatcher.setWorker]
  rw [hq, hc]
  rfl

/-- A worker whose queue and task do not change leaves the pool unchanged. -/
theorem pool_setWorker_of_eq (s : KeyedDispatcher) (i : Nat) (w : Worker)
    (hq : w.mQueue.mQueue = (s.workers i).mQueue.mQueue)
    (hc : w.pc.held = (s.workers i).pc.held) : (s.setWorker i w).pool = s.pool := by
  rw [pool_setWorker, hq, hc]
  show { s.pool with
    queue := Function.update s.pool.queue i (s.pool.queue i)
    current := Function.update s.pool.current i (s.pool.current i) } = s.pool
  simp

/-- Each effect is none, one acceptance, one taking or one completion. -/
theorem Effect.pool_run {s s' : KeyedDispatcher} {a : DispatcherAct} (h : Effect cfg s a s') :
    ∃ bs, Machine.run (FifoPool.step (workerOf cfg)) s.pool bs = some s'.pool := by
  cases h with
  | push c _ q hpc hq =>
      refine ⟨[.accept c], ?_⟩
      show some _ = some (KeyedDispatcher.pool (KeyedDispatcher.setWorker _ _ _))
      rw [pool_setWorker, hq]
      simp [KeyedDispatcher.pool]
  | pushing c _ pc pc' q hpc hne hq _ =>
      refine ⟨[], ?_⟩
      exact congrArg some (pool_setWorker_of_eq s (workerOf cfg c)
        { s.workers (workerOf cfg c) with mQueue := q } hq rfl).symm
  | take i c _ _ q pc hpc hq hc _ =>
      refine ⟨[.take i], ?_⟩
      have h1 : s.pool.queue i = c :: q.mQueue := hq
      have h2 : s.pool.current i = none := by
        simp [KeyedDispatcher.pool, hpc, WorkerPc.held, PopPc.held]
      rw [Machine.run_cons]
      simp only [FifoPool.step, h1, h2]
      show some _ = some (KeyedDispatcher.pool (KeyedDispatcher.setWorker _ _ _))
      rw [pool_setWorker, hc]
      rfl
  | idle i _ _ q pc _ hq hc _ _ =>
      refine ⟨[], ?_⟩
      rw [pool_setWorker_of_eq s i ⟨q, pc⟩ hq hc]
      rfl
  | finish i c completed failed _ _ threw hpc _ =>
      refine ⟨[.finish i], ?_⟩
      have h1 : s.pool.current i = some c := by simp [KeyedDispatcher.pool, hpc, WorkerPc.held]
      rw [Machine.run_cons]
      simp only [FifoPool.step, h1]
      show some _ = some (KeyedDispatcher.pool (KeyedDispatcher.setWorker _ _ _))
      rw [pool_setWorker]
      simp [KeyedDispatcher.pool, WorkerPc.held, PopPc.held]
  | closeQueue i hpc =>
      refine ⟨[], ?_⟩
      exact congrArg some (pool_setWorker_of_eq s i
        { s.workers i with mQueue := (s.workers i).mQueue.shutdown } rfl rfl).symm
  | _ => exact ⟨[], rfl⟩

/-- Every step of the dispatcher is matched by the pool. -/
theorem simulates : Machine.Simulates (dispatcherStep cfg) (FifoPool.step (workerOf cfg))
    KeyedDispatcher.pool :=
  fun _ _ _ h => (step_effect h).pool_run

end

end NetworkModule.Concurrency
