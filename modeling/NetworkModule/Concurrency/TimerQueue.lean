import NetworkModule.Lib.Machine

/-!
# TimerQueue

The worker of `TimerQueue` waits on `mCV` until the first entry of the heap is due.  The
deadline is the `nextFire` that it has read before, and the predicate of the wait asks
whether the entry that is first *now* is due.  When an entry with an earlier time is inserted
the notification wakes the worker, but the predicate is false as long as that entry is not
due, and the worker waits on with the old deadline.

The comment in the loop promises that a new entry makes the worker go through the loop again.
`punctual_iff_meets` says exactly when it does not sleep too long: whenever it evaluates the
predicate, the first entry is due already or not before the deadline, or another notification
is on its way.

Any number of threads call `ScheduleOnce`, `ScheduleRepeat`, `Cancel` and `Shutdown`.  What is
done under `mMutex` without waiting is one step.  The clock is in nanoseconds, and only grows.
Of the heap it matters only which entries are in it: `PopTop` may take any entry with the
earliest time.
-/

namespace NetworkModule.TimerQueue

/-! ## The queue -/

/-- An entry of the heap.  What its callback returns is left to the run. -/
structure TimerEntry where
  handle : Nat
  nextFire : Nat
  /-- 0 is an entry that fires once. -/
  intervalMs : Nat
  deriving DecidableEq, Repr

/-- The time of the first entry of the heap. -/
def frontTime (heap : List TimerEntry) : Option Nat := (heap.map TimerEntry.nextFire).min?

/-- `std::chrono::milliseconds` in the unit of the clock. -/
def milliseconds (ms : Nat) : Nat := ms * 1000000

/-- Where the worker stands. -/
inductive WorkerPc where
  /-- At the head of the loop, where it takes `mMutex`. -/
  | lock
  /-- The predicate of the first wait loads `mRunning`. -/
  | waitRunning
  /-- It tests the heap. -/
  | waitHeap
  /-- In the first wait, without the lock. -/
  | waiting
  /-- `mRunning` is loaded after the wait. -/
  | runningTest
  /-- The heap is tested after the wait. -/
  | emptyTest
  /-- The clock and the time of the first entry are read. -/
  | readClock
  /-- The predicate of the timed wait loads `mRunning`. -/
  | timedRunning (deadline : Nat)
  /-- It tests the heap, and reads the clock. -/
  | timedHeap (deadline : Nat)
  /-- In the timed wait, without the lock. -/
  | timedWaiting (deadline : Nat)
  /-- `PopTop`, and `mCancelledHandles.erase`. -/
  | popTop
  /-- The callback runs, without the lock. -/
  | callback (entry : TimerEntry)
  /-- The clock is read for the next time. -/
  | repeatClock (entry : TimerEntry)
  /-- `PushEntry` of the next time. -/
  | repeatPush (entry : TimerEntry)
  /-- The notification of that. -/
  | repeatNotify
  /-- `WorkerLoop` has returned. -/
  | exited
  deriving DecidableEq, Repr

/-- The worker has `mMutex`. -/
def WorkerPc.locks : WorkerPc → Bool
  | .waitRunning | .waitHeap | .runningTest | .emptyTest | .readClock | .timedRunning _
  | .timedHeap _ | .popTop => true
  | _ => false

/-- Where a call of another thread stands. -/
inductive CallPc where
  /-- `mNextHandle.fetch_add`. -/
  | takeHandle (delayMs intervalMs : Nat)
  /-- The clock is read. -/
  | readClock (handle delayMs intervalMs : Nat)
  /-- The critical section of `PushEntry`. -/
  | push (entry : TimerEntry)
  /-- The critical section of `Cancel`. -/
  | cancel (handle : Nat)
  /-- `mCV.notify_one`, or `notify_all` of `Shutdown`. -/
  | notify
  | returned
  deriving DecidableEq, Repr

/-- The queue, its worker, the calls that have begun, and the clock. -/
structure Timers where
  mRunning : Bool := true
  mNextHandle : Nat := 1
  mHeap : List TimerEntry := []
  mCancelledHandles : List Nat := []
  worker : WorkerPc := .lock
  /-- The worker waits, and a notification has reached it. -/
  notified : Bool := false
  calls : List CallPc := []
  now : Nat := 0
  deriving DecidableEq, Repr

/-- A notification reaches the worker if it waits. -/
def Timers.notify (s : Timers) : Timers :=
  match s.worker with
  | .waiting | .timedWaiting _ => { s with notified := true }
  | _ => s

/-! ## Steps -/

/-- A step of a call. -/
def callStep (s : Timers) (i : Nat) : CallPc → Option Timers
  | .takeHandle delayMs intervalMs =>
      some { s with
        mNextHandle := s.mNextHandle + 1
        calls := s.calls.set i (.readClock s.mNextHandle delayMs intervalMs) }
  | .readClock handle delayMs intervalMs =>
      some { s with
        calls := s.calls.set i (.push ⟨handle, s.now + milliseconds delayMs, intervalMs⟩) }
  | .push entry =>
      if s.worker.locks then none
      else some { s with mHeap := entry :: s.mHeap, calls := s.calls.set i .notify }
  | .cancel handle =>
      if s.worker.locks then none
      else some { s with
        mCancelledHandles := if handle ∈ s.mCancelledHandles then s.mCancelledHandles
          else handle :: s.mCancelledHandles
        calls := s.calls.set i .notify }
  | .notify => some { s.notify with calls := s.calls.set i .returned }
  | .returned => none

/-- What the environment decides in a step of the worker. -/
structure Choice where
  /-- A wait ends because its deadline has passed. -/
  timeout : Bool := false
  /-- The entry that is popped. -/
  entry : TimerEntry := ⟨0, 0, 0⟩
  /-- The callback returns true. -/
  reschedule : Bool := false
  deriving DecidableEq, Repr

/-- A step of the worker. -/
def workerStep (s : Timers) (choice : Choice) : Option Timers :=
  match s.worker with
  | .lock => some { s with worker := .waitRunning }
  | .waitRunning => some { s with worker := if s.mRunning then .waitHeap else .runningTest }
  | .waitHeap =>
      some (if s.mHeap = [] then { s with worker := .waiting, notified := false }
        else { s with worker := .runningTest })
  | .waiting => some { s with worker := .waitRunning, notified := false }
  | .runningTest => some { s with worker := if s.mRunning then .emptyTest else .exited }
  | .emptyTest => some { s with worker := if s.mHeap = [] then .lock else .readClock }
  | .readClock =>
      match frontTime s.mHeap with
      | none => none
      | some fireTime =>
          some { s with worker := if s.now < fireTime then .timedRunning fireTime else .popTop }
  | .timedRunning deadline =>
      some { s with worker := if s.mRunning then .timedHeap deadline else .lock }
  | .timedHeap deadline =>
      match frontTime s.mHeap with
      | none => some { s with worker := .lock }
      | some fireTime =>
          some (if fireTime ≤ s.now then { s with worker := .lock }
            else { s with worker := .timedWaiting deadline, notified := false })
  | .timedWaiting deadline =>
      -- After a timeout the predicate is evaluated once more, and then the loop goes on anyway.
      if choice.timeout then
        if deadline ≤ s.now then some { s with worker := .lock, notified := false } else none
      else some { s with worker := .timedRunning deadline, notified := false }
  | .popTop =>
      if choice.entry ∈ s.mHeap ∧ frontTime s.mHeap = some choice.entry.nextFire then
        some { s with
          mHeap := s.mHeap.erase choice.entry
          mCancelledHandles := s.mCancelledHandles.erase choice.entry.handle
          worker := if choice.entry.handle ∈ s.mCancelledHandles then .lock
            else .callback choice.entry }
      else none
  | .callback entry =>
      some { s with
        worker := if choice.reschedule = true ∧ 0 < entry.intervalMs then .repeatClock entry
          else .lock }
  | .repeatClock entry =>
      some { s with
        worker := .repeatPush { entry with nextFire := s.now + milliseconds entry.intervalMs } }
  | .repeatPush entry => some { s with mHeap := entry :: s.mHeap, worker := .repeatNotify }
  | .repeatNotify => some { s with worker := .lock }
  | .exited => none

/-- What happens next. -/
inductive Act where
  | scheduleOnce (delayMs : Nat)
  | scheduleRepeat (intervalMs : Nat)
  | cancel (handle : Nat)
  /-- `Shutdown` clears `mRunning`. -/
  | stop
  /-- A call goes on. -/
  | call (i : Nat)
  | worker (choice : Choice)
  /-- Time passes. -/
  | tick (ns : Nat)
  deriving DecidableEq, Repr

def Timers.begin (s : Timers) (pc : CallPc) : Timers :=
  { s with calls := s.calls ++ [pc] }

/-- One step. -/
def step (s : Timers) : Act → Option Timers
  | .scheduleOnce delayMs => some (s.begin (.takeHandle delayMs 0))
  | .scheduleRepeat intervalMs => some (s.begin (.takeHandle intervalMs intervalMs))
  | .cancel handle => if handle = 0 then some s else some (s.begin (.cancel handle))
  | .stop => if s.mRunning then some ({ s with mRunning := false }.begin .notify) else some s
  | .call i => callStep s i (s.calls.getD i .returned)
  | .worker choice => workerStep s choice
  | .tick ns => some { s with now := s.now + ns }

/-! ## Sleeping in time -/

/-- While the worker sleeps in its timed wait and no notification is on its way, its deadline
is not after the time of any entry. -/
def Punctual (s : Timers) : Prop :=
  ∀ deadline, s.worker = .timedWaiting deadline → s.notified = false → .notify ∉ s.calls →
    ∀ e ∈ s.mHeap, deadline ≤ e.nextFire

/-- The deadline of the timed wait whose predicate is being evaluated. -/
def WorkerPc.evaluates : WorkerPc → Option Nat
  | .timedHeap deadline => some deadline
  | _ => none

/-- When the worker evaluates the predicate of its timed wait, the first entry is due already
or not before the deadline, or a notification is still to come. -/
def InTime (s : Timers) : Act → Prop
  | .worker _ =>
      ∀ deadline ∈ s.worker.evaluates, ∀ fireTime ∈ frontTime s.mHeap,
        fireTime ≤ s.now ∨ deadline ≤ fireTime ∨ .notify ∈ s.calls
  | .scheduleOnce _ | .scheduleRepeat _ | .cancel _ | .stop | .call _ | .tick _ => True

instance (s : Timers) : (a : Act) → Decidable (InTime s a)
  | .worker _ => inferInstanceAs (Decidable (∀ deadline ∈ _, ∀ fireTime ∈ _, _ ∨ _ ∨ _))
  | .scheduleOnce _ | .scheduleRepeat _ | .cancel _ | .stop | .call _ | .tick _ => isTrue trivial

/-- The worker sleeps, and a timer is inserted that is due earlier. -/
def oversleepTrace : List Act :=
  List.flatten
    [[.scheduleOnce 1000], List.replicate 4 (.call 0), List.replicate 8 (.worker {}),
      [.scheduleOnce 10], List.replicate 4 (.call 1), List.replicate 3 (.worker {})]

/-- The worker goes on sleeping, for 990 ms too long. -/
theorem not_punctual_oversleepTrace :
    ∃ s, Machine.run step {} oversleepTrace = some s ∧
      s.worker = .timedWaiting 1000000000 ∧ s.notified = false ∧
      s.mHeap.map TimerEntry.nextFire = [10000000, 1000000000] ∧ ¬ Punctual s :=
  ⟨_, rfl, rfl, rfl, rfl, fun h => by
    have hle := h 1000000000 rfl rfl (by decide) ⟨2, 10000000, 0⟩ (by decide)
    simp at hle⟩

section
variable {s s' : Timers}

theorem frontTime_le {heap : List TimerEntry} {fireTime : Nat} (h : frontTime heap = some fireTime)
    {e : TimerEntry} (he : e ∈ heap) : fireTime ≤ e.nextFire :=
  (List.min?_eq_some_iff.mp h).2 _ (List.mem_map_of_mem he)

theorem exists_of_frontTime {heap : List TimerEntry} {fireTime : Nat}
    (h : frontTime heap = some fireTime) : ∃ e ∈ heap, e.nextFire = fireTime :=
  List.mem_map.mp (List.min?_eq_some_iff.mp h).1

/-- A step of another thread while the worker sleeps. -/
theorem Punctual.frame (h : Punctual s) (hworker : s'.worker = s.worker)
    (hnotified : s'.notified = false → s.notified = false)
    (hnotify : .notify ∉ s'.calls → .notify ∉ s.calls) (hheap : s'.mHeap = s.mHeap) :
    Punctual s' := by
  intro deadline hw hn hc e he
  rw [hworker] at hw
  rw [hheap] at he
  exact h deadline hw (hnotified hn) (hnotify hc) e he

/-- A notification is on its way. -/
theorem punctual_of_mem (h : .notify ∈ s.calls) : Punctual s :=
  fun _ _ _ hc => absurd h hc

/-- The worker does not sleep in its timed wait. -/
theorem punctual_of_awake (h : ∀ deadline, s.worker ≠ .timedWaiting deadline) : Punctual s :=
  fun deadline hw => absurd hw (h deadline)

/-- A call goes on with something else than its notification. -/
theorem notify_notMem_of_set {calls : List CallPc} {i : Nat} {pc pc' : CallPc}
    (hi : calls[i]? = some pc) (hpc : pc ≠ .notify) (h : .notify ∉ calls.set i pc') :
    .notify ∉ calls := by
  intro hmem
  obtain ⟨j, hj⟩ := List.getElem?_of_mem hmem
  by_cases hji : i = j
  · subst hji
    rw [hi] at hj
    exact hpc (Option.some.inj hj)
  · refine h (List.mem_of_getElem? (i := j) ?_)
    rw [List.getElem?_set_ne hji]
    exact hj

theorem mem_set_self {calls : List CallPc} {i : Nat} {pc pc' : CallPc} (hi : calls[i]? = some pc) :
    pc' ∈ calls.set i pc' := by
  obtain ⟨hlt, -⟩ := List.getElem?_eq_some_iff.mp hi
  exact List.mem_of_getElem? (List.getElem?_set_self hlt)

/-- Every step of a call keeps the worker in time. -/
theorem Punctual.callStep {i : Nat} {pc : CallPc} (h : Punctual s) (hi : s.calls[i]? = some pc)
    (hs : TimerQueue.callStep s i pc = some s') : Punctual s' := by
  cases pc with
  | takeHandle delayMs intervalMs =>
      cases hs
      exact h.frame rfl id (notify_notMem_of_set hi (by simp)) rfl
  | readClock handle delayMs intervalMs =>
      cases hs
      exact h.frame rfl id (notify_notMem_of_set hi (by simp)) rfl
  | push entry =>
      simp only [TimerQueue.callStep] at hs
      split at hs
      · cases hs
      · cases hs
        exact punctual_of_mem (mem_set_self hi)
  | cancel handle =>
      simp only [TimerQueue.callStep] at hs
      split at hs
      · cases hs
      · cases hs
        exact punctual_of_mem (mem_set_self hi)
  | notify =>
      cases hs
      intro deadline hw hn
      cases hworker : s.worker <;> simp_all [Timers.notify]
  | returned => cases hs

/-- A step of the worker that is in time. -/
theorem Punctual.workerStep {choice : Choice} (hok : InTime s (.worker choice))
    (hs : TimerQueue.workerStep s choice = some s') : Punctual s' := by
  cases hpc : s.worker with
  | timedHeap deadline =>
      have hin := hok deadline (by rw [hpc]; rfl)
      simp only [TimerQueue.workerStep, hpc] at hs
      split at hs
      · cases hs
        exact punctual_of_awake (by simp)
      next fireTime hfront =>
        cases hs
        split
        · exact punctual_of_awake (by simp)
        next hlater =>
          rcases hin fireTime hfront with hdue | hle | hmem
          · exact absurd hdue hlater
          · intro deadline' hw _ _ e he
            cases hw
            exact hle.trans (frontTime_le hfront he)
          · exact punctual_of_mem hmem
  | lock | waiting | repeatClock | repeatPush | repeatNotify =>
      simp only [TimerQueue.workerStep, hpc, Option.some.injEq] at hs
      subst hs
      exact punctual_of_awake (by simp)
  | waitRunning | waitHeap | runningTest | emptyTest | timedRunning | callback =>
      simp only [TimerQueue.workerStep, hpc, Option.some.injEq] at hs
      subst hs
      refine punctual_of_awake fun deadline => ?_
      split <;> simp
  | readClock =>
      simp only [TimerQueue.workerStep, hpc] at hs
      split at hs
      · cases hs
      · cases hs
        refine punctual_of_awake fun deadline => ?_
        split <;> simp
  | timedWaiting deadline =>
      simp only [TimerQueue.workerStep, hpc] at hs
      split at hs
      · split at hs
        · cases hs
          exact punctual_of_awake (by simp)
        · cases hs
      · cases hs
        exact punctual_of_awake (by simp)
  | popTop =>
      simp only [TimerQueue.workerStep, hpc] at hs
      split at hs
      · cases hs
        refine punctual_of_awake fun deadline => ?_
        split <;> simp
      · cases hs
  | exited => simp [TimerQueue.workerStep, hpc] at hs

/-- A call that begins does not end a notification that is on its way. -/
theorem Punctual.begin (h : Punctual s) (pc : CallPc) : Punctual (s.begin pc) :=
  h.frame rfl id (fun hno hmem => hno (List.mem_append_left _ hmem)) rfl

/-- A step that is in time keeps the worker in time. -/
theorem Punctual.step {a : Act} (h : Punctual s) (hok : InTime s a)
    (hs : TimerQueue.step s a = some s') : Punctual s' := by
  cases a with
  | scheduleOnce delayMs =>
      cases hs
      exact h.begin _
  | scheduleRepeat intervalMs =>
      cases hs
      exact h.begin _
  | cancel handle =>
      simp only [TimerQueue.step] at hs
      split at hs
      · cases hs
        exact h
      · cases hs
        exact h.begin _
  | stop =>
      simp only [TimerQueue.step] at hs
      split at hs
      · cases hs
        exact punctual_of_mem (List.mem_append_right _ (List.mem_singleton.mpr rfl))
      · cases hs
        exact h
  | call i =>
      have hne : s.calls.getD i .returned ≠ .returned := fun he => by
        simp only [TimerQueue.step, he] at hs
        cases hs
      exact h.callStep (Machine.getElem?_of_getD rfl hne) hs
  | worker choice => exact Punctual.workerStep hok hs
  | tick ns =>
      cases hs
      exact h.frame rfl id id rfl

/-- A step that is not in time puts the worker to sleep too long. -/
theorem not_punctual_of_not_inTime {a : Act} (hbad : ¬ InTime s a)
    (hs : TimerQueue.step s a = some s') : ¬ Punctual s' := by
  cases a with
  | worker choice =>
      simp only [InTime, not_forall, not_or] at hbad
      obtain ⟨deadline, hdeadline, fireTime, hfront, hlater, hearly, hcalls⟩ := hbad
      cases hpc : s.worker with
      | timedHeap d =>
          rw [hpc] at hdeadline
          cases hdeadline
          have hfront : frontTime s.mHeap = some fireTime := hfront
          simp only [TimerQueue.step, TimerQueue.workerStep, hpc, hfront, if_neg hlater,
            Option.some.injEq] at hs
          subst hs
          intro h
          obtain ⟨e, he, rfl⟩ := exists_of_frontTime hfront
          exact hearly (h deadline rfl rfl hcalls e he)
      | _ => rw [hpc] at hdeadline; cases hdeadline
  | _ => exact absurd trivial hbad

/-- The worker never sleeps too long in a run exactly when all its steps are in time. -/
theorem punctual_iff_meets {as : List Act} (hrun : Machine.run TimerQueue.step {} as = some s) :
    Machine.Always TimerQueue.step Punctual {} as ↔ Machine.Meets TimerQueue.step InTime {} as :=
  Machine.always_iff_meets (I := fun _ => True) (fun _ _ _ _ _ => trivial)
    (fun _ _ _ _ h hok hs => h.step hok hs)
    (fun _ _ _ _ hbad hs => not_punctual_of_not_inTime hbad hs) trivial
    (punctual_of_awake (by simp)) hrun

end

/-- The worker sleeps, and a timer is inserted that is due later. -/
def laterTrace : List Act :=
  List.flatten
    [[.scheduleOnce 10], List.replicate 4 (.call 0), List.replicate 8 (.worker {}),
      [.scheduleOnce 1000], List.replicate 4 (.call 1), List.replicate 3 (.worker {}),
      [.tick 10000000, .worker { timeout := true }]]

theorem punctual_laterTrace :
    ∃ s, Machine.run step {} laterTrace = some s ∧ s.worker = .lock ∧
      Machine.Always step Punctual {} laterTrace :=
  ⟨_, rfl, rfl, (@punctual_iff_meets _ laterTrace rfl).mpr (by decide)⟩

end NetworkModule.TimerQueue
