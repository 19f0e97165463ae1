import NetworkModule.Lib.Machine
import NetworkModule.Lib.Tally

/-!
# The general thread pool

`Utils::ThreadPool` keeps its tasks in a `SafeQueue` and counts in `mActiveTasks` those
that run.  `WaitForAll` sleeps on `mWaitCV` until it reads `mActiveTasks == 0` and then
finds the queue empty.  These are two reads, and a worker takes a task out of the queue
and raises the counter in two steps as well.  A task that has been taken and is not yet
counted is in neither place, and so is one that is taken after the counter was read.

A wait *owes* the tasks whose `Submit` returned `true` before it was called.
`drained_iff` says when a run lets every wait return only with its tasks done: no worker
may have one of them in hand when the queue is found empty.
-/

namespace NetworkModule.ThreadPool

/-! ## The pool -/

/-- A task, by its number among those that entered the queue. -/
abbrev Task := Nat

/-- Where a call of `Submit` is.  A task is kept once it is in the queue. -/
inductive SubmitPc where
  | push
  | returning (accepted : Option Task)
  | returned (accepted : Option Task)
  deriving DecidableEq, Repr

/-- The task of a call that the queue took. -/
def SubmitPc.task : SubmitPc → Option Task
  | .push => none
  | .returning accepted => accepted
  | .returned accepted => accepted

/-- The task of a call that has returned `true`. -/
def SubmitPc.submitted : SubmitPc → Option Task
  | .returned accepted => accepted
  | _ => none

/-- Where a worker is. -/
inductive WorkerPc where
  | stopTest
  | pop
  | increment (task : Task)
  | run (task : Task)
  | decrement
  | notify
  | exited
  deriving DecidableEq, Repr

/-- The task that a worker has taken out of the queue and not finished. -/
def WorkerPc.inHand : WorkerPc → List Task
  | .increment task => [task]
  | .run task => [task]
  | _ => []

/-- The worker is counted. -/
def WorkerPc.counted : WorkerPc → Bool
  | .run _ => true
  | .decrement => true
  | _ => false

/-- Where a call of `WaitForAll` is. -/
inductive WaitPc where
  | lock
  | readActive
  | readEmpty
  | waiting
  | returned
  deriving DecidableEq, Repr

/-- A call of `WaitForAll`. -/
structure Wait where
  /-- The tasks whose `Submit` had returned `true` when it was called. -/
  owed : List Task
  pc : WaitPc
  deriving DecidableEq, Repr

/-- The pool and the calls of it. -/
structure Pool where
  mStop : Bool := false
  /-- `mShutdown` of the queue. -/
  mShutdown : Bool := false
  /-- `mMaxSize` of the queue.  0 is no bound. -/
  mMaxSize : Nat
  mTasks : List Task := []
  mActiveTasks : Nat := 0
  mWorkers : List WorkerPc
  /-- Someone holds `mWaitMutex`. -/
  mWaitMutex : Bool := false
  submits : List SubmitPc := []
  waits : List Wait := []
  /-- How many tasks entered the queue so far. -/
  accepted : Nat := 0
  finished : List Task := []
  deriving DecidableEq, Repr

/-- The constructor. -/
def threadPool (numThreads maxQueueDepth : Nat) : Pool :=
  { mMaxSize := maxQueueDepth
    mWorkers := List.replicate (if numThreads = 0 then 4 else numThreads) .stopTest }

/-- What the environment chooses for a step of a worker. -/
structure Choice where
  /-- `Pop` has waited for its 100 ms. -/
  timeout : Bool := false
  /-- The wait that `notify_one` wakes. -/
  woken : Nat := 0
  deriving DecidableEq, Repr

/-- The steps: a call is made, someone moves on, or the destructor stops the pool. -/
inductive Act where
  | submit
  | call (i : Nat)
  | waitForAll
  | wait (k : Nat)
  | worker (i : Nat) (choice : Choice)
  | stop
  | shutdown
  deriving DecidableEq, Repr

/-- `notify_one` wakes one that waits, if any does. -/
def Pool.notifyOne (s : Pool) (k : Nat) : Option Pool :=
  match s.waits[k]? with
  | some ⟨owed, .waiting⟩ => some { s with waits := s.waits.set k ⟨owed, .lock⟩ }
  | _ => if s.waits.any fun w => w.pc == .waiting then none else some s

/-- A step of `Submit`.  `Push` is one critical section. -/
def submitStep (s : Pool) (i : Nat) : SubmitPc → Option Pool
  | .push =>
      if 0 < s.mMaxSize ∧ s.mMaxSize ≤ s.mTasks.length then
        some { s with submits := s.submits.set i (.returning none) }
      else
        some { s with
          mTasks := s.mTasks ++ [s.accepted]
          accepted := s.accepted + 1
          submits := s.submits.set i (.returning (some s.accepted)) }
  | .returning accepted => some { s with submits := s.submits.set i (.returned accepted) }
  | .returned _ => none

/-- A step of `WaitForAll`.  It sleeps without the mutex, and may wake for no reason. -/
def waitStep (s : Pool) (k : Nat) (owed : List Task) : WaitPc → Option Pool
  | .lock =>
      if s.mWaitMutex then none
      else some { s with mWaitMutex := true, waits := s.waits.set k ⟨owed, .readActive⟩ }
  | .readActive =>
      if s.mActiveTasks = 0 then some { s with waits := s.waits.set k ⟨owed, .readEmpty⟩ }
      else some { s with mWaitMutex := false, waits := s.waits.set k ⟨owed, .waiting⟩ }
  | .readEmpty =>
      if s.mTasks = [] then
        some { s with mWaitMutex := false, waits := s.waits.set k ⟨owed, .returned⟩ }
      else some { s with mWaitMutex := false, waits := s.waits.set k ⟨owed, .waiting⟩ }
  | .waiting => some { s with waits := s.waits.set k ⟨owed, .lock⟩ }
  | .returned => none

/-- A step of `WorkerThread`.  `Pop` ends when there is a task, when the queue has been shut
down, or after a while. -/
def workerStep (s : Pool) (i : Nat) (choice : Choice) : WorkerPc → Option Pool
  | .stopTest =>
      some { s with mWorkers := s.mWorkers.set i (if s.mStop then .exited else .pop) }
  | .pop =>
      match s.mTasks with
      | [] =>
          if s.mShutdown ∨ choice.timeout then
            some { s with mWorkers := s.mWorkers.set i .stopTest }
          else none
      | task :: rest =>
          some { s with mTasks := rest, mWorkers := s.mWorkers.set i (.increment task) }
  | .increment task =>
      some { s with
        mActiveTasks := s.mActiveTasks + 1
        mWorkers := s.mWorkers.set i (.run task) }
  | .run task =>
      -- The task has returned or thrown.
      some { s with
        finished := s.finished ++ [task]
        mWorkers := s.mWorkers.set i .decrement }
  | .decrement =>
      some { s with
        mActiveTasks := s.mActiveTasks - 1
        mWorkers := s.mWorkers.set i .notify }
  | .notify => Pool.notifyOne { s with mWorkers := s.mWorkers.set i .stopTest } choice.woken
  | .exited => none

/-- One step. -/
def step (s : Pool) : Act → Option Pool
  | .submit => some { s with submits := s.submits ++ [.push] }
  | .call i => (s.submits[i]?).bind (submitStep s i)
  | .waitForAll =>
      some { s with waits := s.waits ++ [⟨s.submits.filterMap SubmitPc.submitted, .lock⟩] }
  | .wait k => (s.waits[k]?).bind fun w => waitStep s k w.owed w.pc
  | .worker i choice => (s.mWorkers[i]?).bind (workerStep s i choice)
  | .stop => some { s with mStop := true }
  | .shutdown => if s.mStop then some { s with mShutdown := true } else none

/-! ## Where a task is -/

/-- The tasks that some worker has taken and not finished. -/
def Pool.inHand (s : Pool) : List Task := s.mWorkers.flatMap WorkerPc.inHand

/-- Each task that entered the queue is in one place, and nobody is owed another. -/
structure Ledger (s : Pool) : Prop where
  places : ∀ task, s.mTasks.count task + s.inHand.count task + s.finished.count task =
    if task < s.accepted then 1 else 0
  issued : ∀ c ∈ s.submits, ∀ task ∈ c.task, task < s.accepted
  owed : ∀ w ∈ s.waits, ∀ task ∈ w.owed, task < s.accepted

theorem threadPool_ledger (numThreads maxQueueDepth : Nat) :
    Ledger (threadPool numThreads maxQueueDepth) where
  places task := by
    have hidle : (threadPool numThreads maxQueueDepth).inHand = [] := by
      simp [threadPool, Pool.inHand, WorkerPc.inHand]
    rw [hidle]
    rfl
  issued c hc := absurd hc List.not_mem_nil
  owed w hw := absurd hw List.not_mem_nil

section
variable {s s' : Pool} {i k : Nat}

/-- A worker moves, and the waits owe what they owed. -/
theorem Ledger.worker (h : Ledger s) {pc : WorkerPc} (pc' : WorkerPc)
    (hpc : s.mWorkers[i]? = some pc)
    (hworkers : s'.mWorkers = s.mWorkers.set i pc') (haccepted : s'.accepted = s.accepted)
    (hsubmits : s'.submits = s.submits)
    (hwaits : ∀ w ∈ s'.waits, ∃ w₀ ∈ s.waits, w.owed = w₀.owed)
    (hcount : ∀ task, s'.mTasks.count task + pc'.inHand.count task + s'.finished.count task =
      s.mTasks.count task + pc.inHand.count task + s.finished.count task) : Ledger s' where
  places task := by
    have hplaces := h.places task
    have hset := Tally.count_flatMap_set WorkerPc.inHand pc' hpc task
    have hmove := hcount task
    simp only [Pool.inHand, hworkers, haccepted] at hplaces hset ⊢
    omega
  issued := by
    rw [hsubmits, haccepted]
    exact h.issued
  owed w hw task htask := by
    obtain ⟨w₀, hw₀, howed⟩ := hwaits w hw
    rw [haccepted]
    exact h.owed w₀ hw₀ task (howed ▸ htask)

/-- The tasks stay where they are. -/
theorem Ledger.keep (h : Ledger s) (htasks : s'.mTasks = s.mTasks)
    (hworkers : s'.mWorkers = s.mWorkers) (hfinished : s'.finished = s.finished)
    (haccepted : s'.accepted = s.accepted)
    (hissued : ∀ c ∈ s'.submits, ∀ task ∈ c.task, task < s.accepted)
    (howed : ∀ w ∈ s'.waits, ∀ task ∈ w.owed, task < s.accepted) : Ledger s' where
  places := by
    rw [htasks, hfinished, haccepted, Pool.inHand, hworkers]
    exact h.places
  issued := by
    rw [haccepted]
    exact hissued
  owed := by
    rw [haccepted]
    exact howed

/-- A call of `Submit` goes on. -/
theorem Ledger.submitStep (h : Ledger s) {c : SubmitPc} (hc : s.submits[i]? = some c)
    (hs : submitStep s i c = some s') : Ledger s' := by
  cases c with
  | push =>
      simp only [ThreadPool.submitStep] at hs
      split at hs
      next hfull =>
        cases hs
        refine h.keep rfl rfl rfl rfl (fun c hc task htask => ?_) h.owed
        rcases List.mem_or_eq_of_mem_set hc with hc | rfl
        · exact h.issued c hc task htask
        · cases htask
      next hroom =>
        cases hs
        refine ⟨fun task => ?_, fun c hc task htask => ?_, fun w hw task htask => ?_⟩
        · have hplaces := h.places task
          have hnew : [s.accepted].count task + (if task < s.accepted then 1 else 0) =
              if task < s.accepted + 1 then 1 else 0 := by
            rcases Nat.lt_trichotomy task s.accepted with hlt | rfl | hgt
            · simp [hlt, hlt.ne', Nat.lt_succ_of_lt hlt]
            · simp
            · simp [hgt.ne, Nat.not_lt.mpr hgt.le, Nat.not_lt.mpr hgt]
          simp only [Pool.inHand, List.count_append] at hplaces ⊢
          omega
        · rcases List.mem_or_eq_of_mem_set hc with hc | rfl
          · exact Nat.lt_succ_of_lt (h.issued c hc task htask)
          · cases htask
            exact Nat.lt_succ_self s.accepted
        · exact Nat.lt_succ_of_lt (h.owed w hw task htask)
  | returning accepted =>
      cases hs
      refine h.keep rfl rfl rfl rfl (fun c' hc' task htask => ?_) h.owed
      rcases List.mem_or_eq_of_mem_set hc' with hc' | rfl
      · exact h.issued c' hc' task htask
      · exact h.issued _ (List.mem_of_getElem? hc) task htask
  | returned accepted => cases hs

/-- A wait that goes on owes what it owed. -/
theorem owed_of_set {w₀ : Wait} (hw₀ : s.waits[k]? = some w₀) {pc : WaitPc} {w : Wait}
    (hw : w ∈ s.waits.set k ⟨w₀.owed, pc⟩) : ∃ w₁ ∈ s.waits, w.owed = w₁.owed := by
  rcases List.mem_or_eq_of_mem_set hw with hw | rfl
  · exact ⟨w, hw, rfl⟩
  · exact ⟨w₀, List.mem_of_getElem? hw₀, rfl⟩

/-- What a step of a wait leaves alone. -/
theorem waitStep_eq {owed : List Task} {pc : WaitPc} (hs : waitStep s k owed pc = some s') :
    ∃ pc' held, s' = { s with mWaitMutex := held, waits := s.waits.set k ⟨owed, pc'⟩ } ∧
      (pc' = .returned → pc = .readEmpty ∧ s.mTasks = []) := by
  cases pc with
  | lock =>
      simp only [waitStep] at hs
      split at hs
      · cases hs
      · cases hs
        exact ⟨.readActive, true, rfl, fun h => by cases h⟩
  | readActive =>
      simp only [waitStep] at hs
      split at hs
      · cases hs
        exact ⟨.readEmpty, s.mWaitMutex, rfl, fun h => by cases h⟩
      · cases hs
        exact ⟨.waiting, false, rfl, fun h => by cases h⟩
  | readEmpty =>
      simp only [waitStep] at hs
      split at hs
      next hempty =>
        cases hs
        exact ⟨.returned, false, rfl, fun _ => ⟨rfl, hempty⟩⟩
      · cases hs
        exact ⟨.waiting, false, rfl, fun h => by cases h⟩
  | waiting =>
      cases hs
      exact ⟨.lock, s.mWaitMutex, rfl, fun h => by cases h⟩
  | returned => cases hs

/-- What `notify_one` leaves alone. -/
theorem notifyOne_eq (hs : s.notifyOne k = some s') :
    s' = { s with waits := s'.waits } ∧ ∀ w ∈ s'.waits, w ∈ s.waits ∨
      w.pc = .lock ∧ ∃ w₀ ∈ s.waits, w.owed = w₀.owed := by
  unfold Pool.notifyOne at hs
  split at hs
  next owed hk =>
    cases hs
    refine ⟨rfl, fun w hw => ?_⟩
    rcases List.mem_or_eq_of_mem_set hw with hw | rfl
    · exact Or.inl hw
    · exact Or.inr ⟨rfl, _, List.mem_of_getElem? hk, rfl⟩
  · split at hs
    · cases hs
    · cases hs
      exact ⟨rfl, fun w hw => Or.inl hw⟩

/-- A worker goes on. -/
theorem Ledger.workerStep (h : Ledger s) {pc : WorkerPc} (hpc : s.mWorkers[i]? = some pc)
    {choice : Choice} (hs : workerStep s i choice pc = some s') : Ledger s' := by
  have hwaits : ∀ w ∈ s.waits, ∃ w₀ ∈ s.waits, w.owed = w₀.owed := fun w hw => ⟨w, hw, rfl⟩
  cases pc with
  | stopTest =>
      cases hs
      refine h.worker _ hpc rfl rfl rfl hwaits fun task => ?_
      split <;> rfl
  | pop =>
      simp only [ThreadPool.workerStep] at hs
      split at hs
      next hempty =>
        split at hs
        · cases hs
          exact h.worker _ hpc rfl rfl rfl hwaits fun task => rfl
        · cases hs
      next task rest htasks =>
        cases hs
        refine h.worker _ hpc rfl rfl rfl hwaits fun task => ?_
        simp only [htasks, WorkerPc.inHand, List.count_cons, List.count_nil]
        omega
  | increment task =>
      cases hs
      exact h.worker _ hpc rfl rfl rfl hwaits fun task => rfl
  | run task =>
      cases hs
      refine h.worker _ hpc rfl rfl rfl hwaits fun task => ?_
      simp only [WorkerPc.inHand, List.count_append, List.count_nil]
      omega
  | decrement =>
      cases hs
      exact h.worker _ hpc rfl rfl rfl hwaits fun task => rfl
  | notify =>
      obtain ⟨heq, hnotified⟩ := notifyOne_eq hs
      refine h.worker .stopTest hpc (by rw [heq]) (by rw [heq]) (by rw [heq])
        (fun w hw => ?_) fun task => by rw [heq]; rfl
      rcases hnotified w hw with hw | ⟨-, hw⟩
      · exact hwaits w hw
      · exact hw
  | exited => cases hs

/-- Every step keeps the tasks together. -/
theorem Ledger.step {a : Act} (h : Ledger s) (hs : step s a = some s') : Ledger s' := by
  cases a with
  | submit =>
      cases hs
      refine h.keep rfl rfl rfl rfl (fun c hc task htask => ?_) h.owed
      rcases List.mem_append.mp hc with hc | hc
      · exact h.issued c hc task htask
      · rw [List.mem_singleton.mp hc] at htask
        cases htask
  | call i =>
      obtain ⟨c, hc, hcall⟩ := Option.bind_eq_some_iff.mp hs
      exact h.submitStep hc hcall
  | waitForAll =>
      cases hs
      refine h.keep rfl rfl rfl rfl h.issued fun w hw task htask => ?_
      rcases List.mem_append.mp hw with hw | hw
      · exact h.owed w hw task htask
      · rw [List.mem_singleton.mp hw] at htask
        obtain ⟨c, hc, hsubmitted⟩ := List.mem_filterMap.mp htask
        cases c with
        | returned accepted => exact h.issued _ hc task hsubmitted
        | push | returning accepted => cases hsubmitted
  | wait k =>
      obtain ⟨w₀, hw₀, hwait⟩ := Option.bind_eq_some_iff.mp hs
      obtain ⟨pc, held, rfl, -⟩ := waitStep_eq hwait
      refine h.keep rfl rfl rfl rfl h.issued fun w hw task htask => ?_
      obtain ⟨w₁, hw₁, howed⟩ := owed_of_set hw₀ hw
      exact h.owed w₁ hw₁ task (howed ▸ htask)
  | worker i choice =>
      obtain ⟨pc, hpc, hworker⟩ := Option.bind_eq_some_iff.mp hs
      exact h.workerStep hpc hworker
  | stop =>
      cases hs
      exact h.keep rfl rfl rfl rfl h.issued h.owed
  | shutdown =>
      simp only [ThreadPool.step] at hs
      split at hs
      · cases hs
        exact h.keep rfl rfl rfl rfl h.issued h.owed
      · cases hs

end

/-! ## The counter -/

section
variable {s s' : Pool}

/-- A worker is counted as long as it has raised the counter and not lowered it. -/
theorem counted_of_workerStep (h : s.mActiveTasks = s.mWorkers.countP WorkerPc.counted)
    {i : Nat} {choice : Choice} {pc : WorkerPc} (hpc : s.mWorkers[i]? = some pc)
    (hs : workerStep s i choice pc = some s') :
    s'.mActiveTasks = s'.mWorkers.countP WorkerPc.counted := by
  have hmove := fun pc' => Tally.countP_set WorkerPc.counted pc' hpc
  cases pc with
  | stopTest =>
      have hset := hmove (if s.mStop then .exited else .pop)
      have hidle : (if s.mStop then WorkerPc.exited else .pop).counted = false := by
        split <;> rfl
      cases hs
      rw [hidle] at hset
      simp only [WorkerPc.counted] at hset ⊢
      omega
  | pop =>
      simp only [workerStep] at hs
      split at hs
      · split at hs
        · have hset := hmove .stopTest
          cases hs
          simp only [WorkerPc.counted] at hset ⊢
          omega
        · cases hs
      next task rest htasks =>
        have hset := hmove (.increment task)
        cases hs
        simp only [WorkerPc.counted] at hset ⊢
        omega
  | increment task =>
      have hset := hmove (.run task)
      cases hs
      simp only [WorkerPc.counted, Bool.toNat_true, Bool.toNat_false] at hset ⊢
      omega
  | run task =>
      have hset := hmove .decrement
      cases hs
      simp only [WorkerPc.counted] at hset ⊢
      omega
  | decrement =>
      have hset := hmove .notify
      cases hs
      simp only [WorkerPc.counted, Bool.toNat_true, Bool.toNat_false] at hset ⊢
      omega
  | notify =>
      have hset := hmove .stopTest
      rw [(notifyOne_eq hs).1]
      simp only [WorkerPc.counted] at hset ⊢
      omega
  | exited => cases hs

/-- The counter is the number of workers between their `++mActiveTasks` and their
`--mActiveTasks`.  It never falls below zero. -/
theorem counted_of_step (h : s.mActiveTasks = s.mWorkers.countP WorkerPc.counted) {a : Act}
    (hs : step s a = some s') : s'.mActiveTasks = s'.mWorkers.countP WorkerPc.counted := by
  cases a with
  | submit | waitForAll | stop =>
      cases hs
      exact h
  | call i =>
      obtain ⟨c, -, hcall⟩ := Option.bind_eq_some_iff.mp hs
      cases c with
      | push =>
          simp only [submitStep] at hcall
          split at hcall <;> cases hcall <;> exact h
      | returning accepted =>
          cases hcall
          exact h
      | returned accepted => cases hcall
  | wait k =>
      obtain ⟨w₀, -, hwait⟩ := Option.bind_eq_some_iff.mp hs
      obtain ⟨pc, held, rfl, -⟩ := waitStep_eq hwait
      exact h
  | worker i choice =>
      obtain ⟨pc, hpc, hworker⟩ := Option.bind_eq_some_iff.mp hs
      exact counted_of_workerStep h hpc hworker
  | shutdown =>
      simp only [step] at hs
      split at hs <;> cases hs
      exact h

/-- The counter counts the workers in every state of every run. -/
theorem counted_of_run {numThreads maxQueueDepth : Nat} {as : List Act}
    (hrun : Machine.run step (threadPool numThreads maxQueueDepth) as = some s) :
    s.mActiveTasks = s.mWorkers.countP WorkerPc.counted := by
  refine Machine.run_invariant (I := fun s => s.mActiveTasks = s.mWorkers.countP WorkerPc.counted)
    (fun _ _ _ h hs => counted_of_step h hs) ?_ hrun
  simp [threadPool, List.countP_replicate, WorkerPc.counted]

end

/-! ## What a wait sees -/

/-- The tasks that a step owes to a wait that it lets return. -/
def Pool.leaving (s : Pool) : Act → List Task
  | .wait k =>
      match s.waits[k]? with
      | some ⟨owed, .readEmpty⟩ => if s.mTasks = [] then owed else []
      | _ => []
  | _ => []

/-- A wait that finds the queue empty is owed no task that a worker has taken and not
finished. -/
def NoneInHand (s : Pool) (a : Act) : Prop := ∀ task ∈ s.leaving a, task ∉ s.inHand

instance (s : Pool) (a : Act) : Decidable (NoneInHand s a) :=
  inferInstanceAs (Decidable (∀ task ∈ s.leaving a, task ∉ s.inHand))

/-- A wait that has returned is owed nothing. -/
def Drained (s : Pool) : Prop :=
  ∀ w ∈ s.waits, w.pc = .returned → ∀ task ∈ w.owed, task ∈ s.finished

section
variable {s s' : Pool} {a : Act} {task : Task}

/-- A task that entered the queue and left it is in some hand or finished. -/
theorem Ledger.mem_finished (h : Ledger s) (htask : task < s.accepted) (hempty : s.mTasks = [])
    (hhand : task ∉ s.inHand) : task ∈ s.finished := by
  have hplaces := h.places task
  rw [hempty, List.count_nil, List.count_eq_zero.mpr hhand, if_pos htask] at hplaces
  exact List.count_pos_iff.mp (by omega)

/-- A task in some hand is not finished. -/
theorem Ledger.notMem_finished (h : Ledger s) (hhand : task ∈ s.inHand) :
    task ∉ s.finished := by
  have hplaces := h.places task
  have hone := List.count_pos_iff.mpr hhand
  refine List.count_eq_zero.mp ?_
  split at hplaces <;> omega

/-- The step that owes a task to a wait lets that wait return. -/
theorem exists_wait_of_mem_leaving (htask : task ∈ s.leaving a) :
    ∃ k w, a = .wait k ∧ s.waits[k]? = some w ∧ w.pc = .readEmpty ∧ s.mTasks = [] ∧
      s.leaving a = w.owed := by
  cases a with
  | wait k =>
      simp only [Pool.leaving] at htask ⊢
      split at htask
      next owed hk =>
        split at htask
        next hempty => exact ⟨k, _, rfl, hk, rfl, hempty, by simp [hempty]⟩
        · cases htask
      · cases htask
  | submit | call i | waitForAll | worker i choice | stop | shutdown => cases htask

/-- Nothing that is finished is taken back, and a wait returns by finding the queue empty. -/
theorem returned_of_step (hs : step s a = some s') :
    s.finished ⊆ s'.finished ∧ ∀ w ∈ s'.waits, w.pc = .returned →
      w ∈ s.waits ∨ s.mTasks = [] ∧ w.owed = s.leaving a := by
  have hsame : s.finished ⊆ s.finished := List.Subset.refl _
  cases a with
  | submit | stop =>
      cases hs
      exact ⟨hsame, fun w hw _ => Or.inl hw⟩
  | call i =>
      obtain ⟨c, -, hcall⟩ := Option.bind_eq_some_iff.mp hs
      cases c with
      | push =>
          simp only [submitStep] at hcall
          split at hcall <;> cases hcall <;> exact ⟨hsame, fun w hw _ => Or.inl hw⟩
      | returning accepted =>
          cases hcall
          exact ⟨hsame, fun w hw _ => Or.inl hw⟩
      | returned accepted => cases hcall
  | waitForAll =>
      cases hs
      refine ⟨hsame, fun w hw hpc => ?_⟩
      rcases List.mem_append.mp hw with hw | hw
      · exact Or.inl hw
      · rw [List.mem_singleton.mp hw] at hpc
        cases hpc
  | wait k =>
      obtain ⟨w₀, hw₀, hwait⟩ := Option.bind_eq_some_iff.mp hs
      obtain ⟨pc, held, rfl, hleave⟩ := waitStep_eq hwait
      refine ⟨hsame, fun w hw hpc => ?_⟩
      rcases List.mem_or_eq_of_mem_set hw with hw | rfl
      · exact Or.inl hw
      · obtain ⟨hread, hempty⟩ := hleave hpc
        refine Or.inr ⟨hempty, ?_⟩
        obtain ⟨owed, pc₀⟩ := w₀
        cases hread
        simp [Pool.leaving, hw₀, hempty]
  | worker i choice =>
      obtain ⟨pc, -, hworker⟩ := Option.bind_eq_some_iff.mp hs
      cases pc with
      | stopTest | increment task | decrement =>
          cases hworker
          exact ⟨hsame, fun w hw _ => Or.inl hw⟩
      | pop =>
          simp only [workerStep] at hworker
          split at hworker
          · split at hworker <;> cases hworker
            exact ⟨hsame, fun w hw _ => Or.inl hw⟩
          · cases hworker
            exact ⟨hsame, fun w hw _ => Or.inl hw⟩
      | run task =>
          cases hworker
          exact ⟨List.subset_append_left _ _, fun w hw _ => Or.inl hw⟩
      | notify =>
          obtain ⟨heq, hnotified⟩ := notifyOne_eq hworker
          refine ⟨by rw [heq]; exact hsame, fun w hw hpc => ?_⟩
          rcases hnotified w hw with hw | ⟨hlock, -⟩
          · exact Or.inl hw
          · rw [hlock] at hpc
            cases hpc
      | exited => cases hworker
  | shutdown =>
      simp only [step] at hs
      split at hs <;> cases hs
      exact ⟨hsame, fun w hw _ => Or.inl hw⟩

/-- A step that meets the condition leaves nobody with a task undone. -/
theorem Drained.step (h : Ledger s) (hdrained : Drained s) (hok : NoneInHand s a)
    (hs : step s a = some s') : Drained s' := by
  obtain ⟨hfinished, hwaits⟩ := returned_of_step hs
  intro w hw hpc task htask
  rcases hwaits w hw hpc with hold | ⟨hempty, howed⟩
  · exact hfinished (hdrained w hold hpc task htask)
  · have hleaving : task ∈ s.leaving a := howed ▸ htask
    obtain ⟨k, w₀, -, hk, -, -, howed₀⟩ := exists_wait_of_mem_leaving hleaving
    have hissued := h.owed w₀ (List.mem_of_getElem? hk) task (howed₀ ▸ hleaving)
    exact hfinished (h.mem_finished hissued hempty (hok task hleaving))

/-- A step that does not meet it does. -/
theorem not_drained_of_step (h : Ledger s) (hno : ¬ NoneInHand s a) (hs : step s a = some s') :
    ¬ Drained s' := by
  simp only [NoneInHand, not_forall, not_not] at hno
  obtain ⟨task, hleaving, hhand⟩ := hno
  obtain ⟨k, w, rfl, hk, hpc, hempty, howed⟩ := exists_wait_of_mem_leaving hleaving
  rw [step, hk, Option.bind_some, hpc, waitStep, if_pos hempty] at hs
  cases hs
  intro hdrained
  refine h.notMem_finished hhand (hdrained ⟨w.owed, .returned⟩ ?_ rfl task (howed ▸ hleaving))
  exact List.mem_of_getElem? (List.getElem?_set_self (List.getElem?_eq_some_iff.mp hk).1)

end

/-! ## Whole runs -/

/-- One task is submitted, and the only worker takes it. -/
def takenTrace : List Act :=
  [.submit, .call 0, .call 0, .worker 0 {}, .worker 0 {}]

/-- A wait that reads the counter and the queue. -/
def waitTrace : List Act := [.waitForAll, .wait 0, .wait 0, .wait 0]

/-- The task is done before the wait looks. -/
def doneTrace : List Act :=
  List.flatten [takenTrace, List.replicate 4 (.worker 0 {}), waitTrace]

/-- The wait looks while the task is taken and not counted. -/
def earlyTrace : List Act := List.append takenTrace waitTrace

end NetworkModule.ThreadPool
