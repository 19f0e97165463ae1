import NetworkModule.Concurrency.TimerShutdown
import NetworkModule.Lib.FlagWait
import NetworkModule.Lib.Machine
import NetworkModule.Lib.Tally
import NetworkModule.Wal.Format

/-!
# The sleeping workers of DBTaskQueue

A worker of `DBTaskQueue` waits on its own condition variable until its queue has a task or
`mIsRunning` is cleared.  `Shutdown` clears `mIsRunning` and notifies the workers one after
another, all without their mutexes.  Each worker is a waiter of `FlagWait`, and every step
of the queue is a move of every worker (`step_move`), if `Shutdown` does not notify a worker
that has found its predicate false and is about to block.  Then no worker is left asleep,
and neither is the worker of `TimerQueue` (`none_stranded`).  One notification in the gap
puts a worker to sleep for ever (`stranded_of_gap`).

A worker has its mutex from the evaluation of its predicate to the blocking or to the pop.
`EnqueueTask` takes the mutex for its push only, which is one step.  Any number of threads
call `EnqueueTask` and `Shutdown`.  The log and the handlers are left out.
-/

namespace NetworkModule.Wal.SleepingWorkers

/-! ## The queue -/

/-- Where a worker stands. -/
inductive Pc where
  /-- The head of the loop loads `mIsRunning`. -/
  | head
  /-- Taking the mutex and evaluating the predicate of the wait. -/
  | test
  /-- The predicate was false, and the worker is about to block.  It has the mutex. -/
  | checked
  /-- Blocked, without the mutex. -/
  | blocked
  /-- Woken, and about to take the mutex and evaluate the predicate again. -/
  | woken
  /-- The predicate was true.  The worker has the mutex. -/
  | take
  /-- In `ProcessTask`. -/
  | process (t : DBTask)
  /-- `WorkerThreadFunc` has returned. -/
  | stopped
  deriving DecidableEq

/-- The worker has its mutex. -/
def Pc.locks : Pc → Bool
  | .checked | .take => true
  | .head | .test | .blocked | .woken | .process _ | .stopped => false

/-- A notification reaches the worker. -/
def Pc.wake : Pc → Pc
  | .blocked => .woken
  | pc => pc

/-- `WorkerData`. -/
structure WorkerData where
  taskQueue : List DBTask := []
  pc : Pc := .head
  deriving DecidableEq

/-- Where a call of `EnqueueTask` stands. -/
inductive EnqueuePc where
  /-- `mIsRunning` is loaded. -/
  | load
  /-- The critical section, which loads `mIsRunning` again. -/
  | push
  /-- `cv.notify_one`. -/
  | notify
  | returned
  deriving DecidableEq

/-- Where a call of `Shutdown` stands. -/
inductive ShutdownPc where
  /-- `mIsRunning` is loaded. -/
  | load
  /-- `mIsRunning` is cleared. -/
  | store
  /-- `cv.notify_all` of the worker `k`. -/
  | notify (k : Nat)
  /-- The worker `k` is joined. -/
  | join (k : Nat)
  | returned
  deriving DecidableEq

/-- The queue, with the calls that have begun. -/
structure Pool where
  mIsRunning : Bool := true
  workers : List WorkerData := []
  enqueues : List (DBTask × EnqueuePc) := []
  shutdowns : List ShutdownPc := []
  deriving DecidableEq

/-- The queue after `Initialize`. -/
def Pool.initial (workerThreadCount : Nat) : Pool :=
  { workers := List.replicate workerThreadCount {} }

/-! ## Steps -/

namespace Pool

/-- Where the worker `k` stands. -/
def pcAt (s : Pool) (k : Nat) : Pc := (s.workers.getD k {}).pc

def setWorker (s : Pool) (k : Nat) (w : WorkerData) : Pool :=
  { s with workers := s.workers.set k w }

def setEnqueue (s : Pool) (i : Nat) (t : DBTask) (pc : EnqueuePc) : Pool :=
  { s with enqueues := s.enqueues.set i (t, pc) }

def setShutdown (s : Pool) (i : Nat) (pc : ShutdownPc) : Pool :=
  { s with shutdowns := s.shutdowns.set i pc }

/-- A notification of the condition variable of the worker `k`. -/
def notify (s : Pool) (k : Nat) : Pool :=
  { s with workers := s.workers.modify k fun w => { w with pc := w.pc.wake } }

/-- The worker of a session. -/
def workerIndex (s : Pool) (t : DBTask) : Nat := t.sessionId.toNat % s.workers.length

end Pool

/-- A step of the worker `k`, which is `w`. -/
def workerStep (s : Pool) (k : Nat) (w : WorkerData) : Option Pool :=
  match w.pc with
  | .head => some (s.setWorker k { w with pc := if s.mIsRunning then .test else .stopped })
  | .test | .woken =>
      some (s.setWorker k
        { w with pc := if !w.taskQueue.isEmpty || !s.mIsRunning then .take else .checked })
  | .checked => some (s.setWorker k { w with pc := .blocked })
  | .blocked => some (s.setWorker k { w with pc := .woken })
  | .take =>
      match w.taskQueue with
      | [] => some (s.setWorker k { w with pc := .head })
      | t :: rest => some (s.setWorker k ⟨rest, .process t⟩)
  | .process _ => some (s.setWorker k { w with pc := .head })
  | .stopped => none

/-- A step of the call `i` of `EnqueueTask`. -/
def enqueueStep (s : Pool) (i : Nat) (t : DBTask) : EnqueuePc → Option Pool
  | .load => some (s.setEnqueue i t (if s.mIsRunning then .push else .returned))
  | .push =>
      match s.workers[s.workerIndex t]? with
      | none => none
      | some w =>
          if w.pc.locks then none
          else if s.mIsRunning then
            some ((s.setWorker (s.workerIndex t)
              { w with taskQueue := w.taskQueue ++ [t] }).setEnqueue i t .notify)
          else some (s.setEnqueue i t .returned)
  | .notify => some ((s.notify (s.workerIndex t)).setEnqueue i t .returned)
  | .returned => none

/-- A step of the call `i` of `Shutdown`. -/
def shutdownStep (s : Pool) (i : Nat) : ShutdownPc → Option Pool
  | .load => some (s.setShutdown i (if s.mIsRunning then .store else .returned))
  | .store => some ({ s with mIsRunning := false }.setShutdown i (.notify 0))
  | .notify k =>
      if k < s.workers.length then some ((s.notify k).setShutdown i (.notify (k + 1)))
      else some (s.setShutdown i (.join 0))
  | .join k =>
      if k < s.workers.length then
        if s.pcAt k = .stopped then some (s.setShutdown i (.join (k + 1))) else none
      else some (s.setShutdown i .returned)
  | .returned => none

/-- What happens next. -/
inductive Act where
  /-- A thread calls `EnqueueTask`. -/
  | enqueueTask (t : DBTask)
  | enqueue (i : Nat)
  | worker (k : Nat)
  /-- A thread calls `Shutdown`. -/
  | callShutdown
  | shutdown (i : Nat)
  deriving DecidableEq

/-- One step. -/
def step (s : Pool) : Act → Option Pool
  | .enqueueTask t => some { s with enqueues := s.enqueues ++ [(t, .load)] }
  | .enqueue i =>
      match s.enqueues[i]? with
      | none => none
      | some (t, pc) => enqueueStep s i t pc
  | .worker k =>
      match s.workers[k]? with
      | none => none
      | some w => workerStep s k w
  | .callShutdown => some { s with shutdowns := s.shutdowns ++ [.load] }
  | .shutdown i =>
      match s.shutdowns[i]? with
      | none => none
      | some pc => shutdownStep s i pc

/-! ## The workers as waiters -/

/-- What the waiting of a worker looks like from outside. -/
def Pc.position : Pc → FlagWait.Position
  | .checked => .checked
  | .blocked => .blocked
  | .head | .test | .woken | .take | .process _ | .stopped => .awake

/-- The call of `Shutdown` has cleared `mIsRunning`, and the worker `k` is still to be
notified. -/
def ShutdownPc.owes (k : Nat) : ShutdownPc → Bool
  | .notify j => decide (j ≤ k)
  | .load | .store | .join _ | .returned => false

/-- The worker that a call of `Shutdown` notifies next. -/
def ShutdownPc.notifies : ShutdownPc → Option Nat
  | .notify k => some k
  | .load | .store | .join _ | .returned => none

/-- The worker `k` as a waiter. -/
def Pool.waiter (s : Pool) (k : Nat) : FlagWait.Waiter where
  flag := s.mIsRunning
  position := (s.pcAt k).position
  owed := s.shutdowns.countP (ShutdownPc.owes k)

/-- `Shutdown` notifies no worker that has found its predicate false and is about to block,
unless another call notifies it later. -/
def OutsideGap (s : Pool) : Act → Prop
  | .shutdown i => ∀ k ∈ (s.shutdowns[i]?).bind ShutdownPc.notifies,
      s.pcAt k = .checked → s.mIsRunning = true ∨ 2 ≤ s.shutdowns.countP (ShutdownPc.owes k)
  | .enqueueTask _ | .enqueue _ | .worker _ | .callShutdown => True

instance (s : Pool) : (a : Act) → Decidable (OutsideGap s a)
  | .shutdown _ => inferInstanceAs (Decidable (∀ k ∈ _, _ → _))
  | .enqueueTask _ | .enqueue _ | .worker _ | .callShutdown => isTrue trivial

section
variable {s s' : Pool} {i j k : Nat}

theorem pcAt_setWorker {w w' : WorkerData} (hk : s.workers[k]? = some w) (j : Nat) :
    (s.setWorker k w').pcAt j = if k = j then w'.pc else s.pcAt j := by
  obtain ⟨hlt, -⟩ := List.getElem?_eq_some_iff.mp hk
  simp only [Pool.pcAt, Pool.setWorker, List.getD_eq_getElem?_getD, List.getElem?_set]
  split
  next he => simp
  · rfl

theorem pcAt_notify (s : Pool) (k j : Nat) :
    (s.notify k).pcAt j = if k = j then (s.pcAt j).wake else s.pcAt j := by
  simp only [Pool.pcAt, Pool.notify, List.getD_eq_getElem?_getD, List.getElem?_modify]
  cases s.workers[j]? with
  | none => split <;> rfl
  | some w => split <;> rfl

theorem pcAt_eq {w : WorkerData} (hk : s.workers[k]? = some w) : s.pcAt k = w.pc := by
  simp [Pool.pcAt, List.getD_eq_getElem?_getD, hk]

theorem position_wake (pc : Pc) : pc.wake.position = pc.position.wake := by
  cases pc <;> rfl

theorem position_eq_checked {pc : Pc} (h : pc.position = .checked) : pc = .checked := by
  cases pc with
  | checked => rfl
  | _ => cases h

/-- A worker moves to another place, and its waiter with it. -/
theorem setWorker_move {w : WorkerData} (hk : s.workers[k]? = some w) (w' : WorkerData)
    (hmove : FlagWait.Move (s.waiter k) { s.waiter k with position := w'.pc.position }) (j : Nat) :
    FlagWait.Move (s.waiter j) ((s.setWorker k w').waiter j) := by
  simp only [Pool.waiter, pcAt_setWorker hk]
  split
  next he =>
    subst he
    exact hmove
  · exact .same

/-- A worker evaluates its predicate. -/
theorem test_move {w : WorkerData} (hk : s.workers[k]? = some w) (j : Nat) :
    FlagWait.Move (s.waiter j) ((s.setWorker k { w with
      pc := if !w.taskQueue.isEmpty || !s.mIsRunning then .take else .checked }).waiter j) := by
  refine setWorker_move hk _ ?_ j
  split
  · exact .wake
  next hfalse =>
    simp only [Bool.or_eq_true, not_or, Bool.not_eq_true', Bool.not_eq_false] at hfalse
    exact .check hfalse.2

theorem workerStep_move {w : WorkerData} (hk : s.workers[k]? = some w)
    (hs : workerStep s k w = some s') (j : Nat) : FlagWait.Move (s.waiter j) (s'.waiter j) := by
  cases hpc : w.pc with
  | head =>
      simp only [workerStep, hpc, Option.some.injEq] at hs
      subst hs
      refine setWorker_move hk _ ?_ j
      split
      · exact .wake
      · exact .wake
  | test =>
      simp only [workerStep, hpc, Option.some.injEq] at hs
      subst hs
      exact test_move hk j
  | checked =>
      simp only [workerStep, hpc, Option.some.injEq] at hs
      subst hs
      refine setWorker_move hk _ (.block ?_) j
      rw [Pool.waiter, pcAt_eq hk, hpc, Pc.position]
  | blocked =>
      simp only [workerStep, hpc, Option.some.injEq] at hs
      subst hs
      exact setWorker_move hk _ .wake j
  | woken =>
      simp only [workerStep, hpc, Option.some.injEq] at hs
      subst hs
      exact test_move hk j
  | take =>
      simp only [workerStep, hpc] at hs
      split at hs
      · cases hs
        exact setWorker_move hk _ .wake j
      · cases hs
        exact setWorker_move hk _ .wake j
  | process t =>
      simp only [workerStep, hpc, Option.some.injEq] at hs
      subst hs
      exact setWorker_move hk _ .wake j
  | stopped =>
      simp only [workerStep, hpc] at hs
      cases hs

/-- A notification of `EnqueueTask`. -/
theorem notify_move (s : Pool) (k j : Nat) :
    FlagWait.Move (s.waiter j) ((s.notify k).waiter j) := by
  have hwaiter : (s.notify k).waiter j =
      { s.waiter j with position := ((s.notify k).pcAt j).position } := rfl
  rw [hwaiter, pcAt_notify]
  split
  · rw [position_wake]
    exact .other _
  · exact .same

theorem enqueueStep_move {t : DBTask} {pc : EnqueuePc} (hs : enqueueStep s i t pc = some s')
    (j : Nat) : FlagWait.Move (s.waiter j) (s'.waiter j) := by
  cases pc with
  | load =>
      cases hs
      exact .same
  | push =>
      simp only [enqueueStep] at hs
      split at hs
      · cases hs
      next w hk =>
        split at hs
        · cases hs
        · split at hs
          · cases hs
            -- The worker stays where it is.
            have hmove := setWorker_move hk { w with taskQueue := w.taskQueue ++ [t] } (by
              rw [← pcAt_eq hk]
              exact .same) j
            exact hmove
          · cases hs
            exact .same
  | notify =>
      cases hs
      exact notify_move s _ j
  | returned => cases hs

/-- A call of `Shutdown` goes on, and owes the worker the same as before. -/
theorem waiter_setShutdown {pc pc' : ShutdownPc} (hi : s.shutdowns[i]? = some pc)
    (howes : pc'.owes j = pc.owes j) : (s.setShutdown i pc').waiter j = s.waiter j := by
  have hset := Tally.countP_set (ShutdownPc.owes j) pc' hi
  have hcount : (s.shutdowns.set i pc').countP (ShutdownPc.owes j) =
      s.shutdowns.countP (ShutdownPc.owes j) := by
    rw [howes] at hset
    omega
  simp only [Pool.waiter, Pool.setShutdown, hcount]
  rfl

theorem shutdownStep_move {pc : ShutdownPc} (hi : s.shutdowns[i]? = some pc)
    (hgap : ∀ k ∈ pc.notifies, s.pcAt k = .checked →
      s.mIsRunning = true ∨ 2 ≤ s.shutdowns.countP (ShutdownPc.owes k))
    (hs : shutdownStep s i pc = some s') (j : Nat) :
    FlagWait.Move (s.waiter j) (s'.waiter j) := by
  have hset := fun pc' => Tally.countP_set (ShutdownPc.owes j) pc' hi
  cases pc with
  | load =>
      cases hs
      rw [waiter_setShutdown hi (by split <;> rfl)]
      exact .same
  | store =>
      cases hs
      have hcount := hset (.notify 0)
      have hclear : ({ s with mIsRunning := false }.setShutdown i (.notify 0)).waiter j =
          { s.waiter j with flag := false, owed := (s.waiter j).owed + 1 } := by
        simp only [ShutdownPc.owes, Nat.zero_le, decide_true, Bool.toNat_true, Bool.toNat_false,
          Nat.add_zero] at hcount
        simp only [Pool.waiter, Pool.setShutdown, FlagWait.Waiter.mk.injEq]
        exact ⟨trivial, rfl, hcount⟩
      rw [hclear]
      exact .clear
  | notify k =>
      simp only [shutdownStep] at hs
      split at hs
      next hlt =>
        cases hs
        rcases eq_or_ne k j with rfl | hne
        · have hcount := hset (.notify (k + 1))
          have hlater : ¬ k + 1 ≤ k := by omega
          simp only [ShutdownPc.owes, le_refl, hlater, decide_true, decide_false, Bool.toNat_true,
            Bool.toNat_false, Nat.add_zero] at hcount
          have hnotify : ((s.notify k).setShutdown i (.notify (k + 1))).waiter k =
              { s.waiter k with
                position := (s.waiter k).position.wake, owed := (s.waiter k).owed - 1 } := by
            have hpc := pcAt_notify s k k
            rw [if_pos rfl] at hpc
            simp only [Pool.waiter, FlagWait.Waiter.mk.injEq]
            refine ⟨rfl, ?_, ?_⟩
            · rw [← position_wake, ← hpc]
              rfl
            · exact Nat.eq_sub_of_add_eq hcount
          rw [hnotify]
          exact .notify fun hpos => hgap k rfl (position_eq_checked hpos)
        · have hsame : (s.notify k).waiter j = s.waiter j := by
            have hpc := pcAt_notify s k j
            rw [if_neg hne] at hpc
            simp only [Pool.waiter, hpc]
            rfl
          have hi' : (s.notify k).shutdowns[i]? = some (.notify k) := hi
          have howes : ShutdownPc.owes j (.notify (k + 1)) = ShutdownPc.owes j (.notify k) :=
            decide_eq_decide.mpr (by omega)
          rw [waiter_setShutdown hi' howes, hsame]
          exact .same
      next hge =>
        cases hs
        rcases Nat.lt_or_ge j k with hlt | hle
        · have howes : ShutdownPc.owes j (.join 0) = ShutdownPc.owes j (.notify k) :=
            (decide_eq_false (Nat.not_le.mpr hlt)).symm
          rw [waiter_setShutdown hi howes]
          exact .same
        · -- There is no such worker.
          have hcount := hset (.join 0)
          simp only [ShutdownPc.owes, hle, decide_true, Bool.toNat_true, Bool.toNat_false,
            Nat.add_zero] at hcount
          have hnone : (s.waiter j).position = .awake := by
            have hout : s.workers[j]? = none := List.getElem?_eq_none (by omega)
            simp [Pool.waiter, Pool.pcAt, List.getD_eq_getElem?_getD, hout, Pc.position]
          have hnotify : (s.setShutdown i (.join 0)).waiter j =
              { s.waiter j with
                position := (s.waiter j).position.wake, owed := (s.waiter j).owed - 1 } := by
            rw [hnone]
            simp only [Pool.waiter, FlagWait.Waiter.mk.injEq]
            exact ⟨rfl, hnone, Nat.eq_sub_of_add_eq hcount⟩
          rw [hnotify]
          exact .notify fun hpos => absurd hpos (by simp [hnone])
  | join k =>
      simp only [shutdownStep] at hs
      have hjoin : ∀ pc' : ShutdownPc, pc'.owes j = false →
          FlagWait.Move (s.waiter j) ((s.setShutdown i pc').waiter j) := fun pc' howes => by
        rw [waiter_setShutdown hi howes]
        exact .same
      split at hs
      · split at hs
        · cases hs
          exact hjoin _ rfl
        · cases hs
      · cases hs
        exact hjoin _ rfl
  | returned => cases hs

/-- Every step outside the gap is a move of every worker. -/
theorem step_move {a : Act} (hgap : OutsideGap s a) (hs : step s a = some s') (j : Nat) :
    FlagWait.Move (s.waiter j) (s'.waiter j) := by
  cases a with
  | enqueueTask t =>
      cases hs
      exact .same
  | enqueue i =>
      simp only [step] at hs
      split at hs
      · cases hs
      · exact enqueueStep_move hs j
  | worker k =>
      simp only [step] at hs
      split at hs
      · cases hs
      next w hk => exact workerStep_move hk hs j
  | callShutdown =>
      cases hs
      have hcount := Tally.countP_concat (ShutdownPc.owes j) s.shutdowns .load
      have hsame : Pool.waiter { s with shutdowns := s.shutdowns ++ [.load] } j = s.waiter j := by
        simp only [Pool.waiter, hcount]
        rfl
      rw [hsame]
      exact .same
  | shutdown i =>
      simp only [step] at hs
      split at hs
      · cases hs
      next pc hi => exact shutdownStep_move hi (fun k hk => hgap k (by rw [hi]; exact hk)) hs j

end

theorem sound_initial (workerThreadCount k : Nat) :
    ((Pool.initial workerThreadCount).waiter k).Sound :=
  fun _ => .inl rfl

/-- In a run in which `Shutdown` does not notify in the gap no worker is left asleep. -/
theorem not_stranded_of_meets {workerThreadCount : Nat} {as : List Act} {s : Pool}
    (hgap : Machine.Meets step OutsideGap (Pool.initial workerThreadCount) as)
    (hrun : Machine.run step (Pool.initial workerThreadCount) as = some s) (k : Nat) :
    ¬ (s.waiter k).Stranded := by
  have hsound : ∀ j, (s.waiter j).Sound :=
    Machine.run_invariant_of_meets (I := fun s => ∀ j, (s.waiter j).Sound)
      (fun _ _ _ hI hok hs j => (hI j).move (step_move hok hs j))
      (sound_initial workerThreadCount) hgap hrun
  exact (hsound k).not_stranded

/-- A notification of `Shutdown` in the gap leaves the worker asleep. -/
theorem stranded_of_gap {s s' : Pool} {a : Act} (hgap : ¬ OutsideGap s a)
    (hs : step s a = some s') :
    ∃ k s'', step s' (.worker k) = some s'' ∧ (s''.waiter k).Stranded := by
  cases a with
  | shutdown i =>
      simp only [OutsideGap, not_forall, not_or, not_le] at hgap
      obtain ⟨k, hk, hchecked, hrunning, hone⟩ := hgap
      obtain ⟨pc, hi, hnotifies⟩ := Option.bind_eq_some_iff.mp hk
      cases pc with
      | notify j =>
          cases hnotifies
          cases hw : s.workers[k]? with
          | none =>
              simp [Pool.pcAt, List.getD_eq_getElem?_getD, hw] at hchecked
          | some w =>
              have hpc : w.pc = .checked := (pcAt_eq hw).symm.trans hchecked
              obtain ⟨hlt, -⟩ := List.getElem?_eq_some_iff.mp hw
              simp only [step, hi, shutdownStep, if_pos hlt, Option.some.injEq] at hs
              subst hs
              have hw' : (s.workers.modify k fun w => { w with pc := w.pc.wake })[k]? = some w := by
                simp only [List.getElem?_modify, hw, if_true, Option.map_eq_map, Option.map_some]
                cases w
                cases hpc
                rfl
              refine ⟨k, ((s.notify k).setShutdown i (.notify (k + 1))).setWorker k
                { w with pc := .blocked }, ?_, ?_⟩
              · simp only [step, Pool.setShutdown, Pool.notify, hw', workerStep, hpc]
              · have hset := Tally.countP_set (ShutdownPc.owes k) (.notify (k + 1)) hi
                have hlater : ¬ k + 1 ≤ k := by omega
                simp only [ShutdownPc.owes, le_refl, hlater, decide_true, decide_false,
                  Bool.toNat_true, Bool.toNat_false, Nat.add_zero] at hset
                have hstopped : s.mIsRunning = false := by simpa using hrunning
                have hnone :
                    (s.shutdowns.set i (.notify (k + 1))).countP (ShutdownPc.owes k) = 0 := by omega
                refine ⟨?_, hstopped, hnone⟩
                have hpcAt :
                    (((s.notify k).setShutdown i (.notify (k + 1))).setWorker k
                      { w with pc := .blocked }).pcAt k = if k = k then _ else _ :=
                  pcAt_setWorker hw' k
                rw [if_pos rfl] at hpcAt
                rw [Pool.waiter, hpcAt, Pc.position]
      | _ => cases hnotifies
  | _ => exact absurd trivial hgap

/-! ## Both components -/

/-- Neither a worker of `DBTaskQueue` nor the worker of `TimerQueue` is left asleep in a run in
which no notification of `Shutdown` comes in the gap. -/
theorem none_stranded (workerThreadCount : Nat) :
    (∀ (as : List Act) (s : Pool),
      Machine.Meets step OutsideGap (Pool.initial workerThreadCount) as →
      Machine.run step (Pool.initial workerThreadCount) as = some s →
      ∀ k, ¬ (s.waiter k).Stranded) ∧
    ∀ (as : List TimerQueue.Act) (s : TimerQueue.Stopping),
      Machine.Meets TimerQueue.Stopping.step TimerQueue.Stopping.OutsideGap {} as →
      Machine.run TimerQueue.Stopping.step {} as = some s → ¬ s.waiter.Stranded :=
  ⟨fun _ _ hgap hrun k => not_stranded_of_meets hgap hrun k,
    fun _ _ hgap hrun => TimerQueue.not_stranded_of_meets hgap hrun⟩

/-- The worker blocks, and `Shutdown` wakes and joins it. -/
def wokenTrace : List Act :=
  [.worker 0, .worker 0, .worker 0, .callShutdown, .shutdown 0, .shutdown 0, .shutdown 0, .worker 0,
    .worker 0, .worker 0, .shutdown 0, .shutdown 0, .shutdown 0]

/-- The worker of `TimerQueue` blocks, and `Shutdown` wakes it. -/
def wokenTimerTrace : List TimerQueue.Act :=
  [.worker {}, .worker {}, .worker {}, .stop, .call 0, .worker {}, .worker {}, .worker {}]

theorem none_stranded_wokenTrace :
    (∃ s, Machine.run step (Pool.initial 1) wokenTrace = some s ∧ s.shutdowns = [.returned] ∧
      ∀ k, ¬ (s.waiter k).Stranded) ∧
    ∃ s, Machine.run TimerQueue.Stopping.step {} wokenTimerTrace = some s ∧
      s.timers.worker = .exited ∧ ¬ s.waiter.Stranded :=
  ⟨⟨_, rfl, rfl, (none_stranded 1).1 wokenTrace _ (by decide) rfl⟩,
    ⟨_, rfl, rfl, (none_stranded 1).2 wokenTimerTrace _ (by decide) rfl⟩⟩

/-- `Shutdown` notifies the worker that has found its predicate false and then blocks. -/
def lostTrace : List Act :=
  [.worker 0, .worker 0, .callShutdown, .shutdown 0, .shutdown 0, .shutdown 0, .worker 0,
    .shutdown 0]

/-- The same for the worker of `TimerQueue`. -/
def lostTimerTrace : List TimerQueue.Act := [.worker {}, .worker {}, .stop, .call 0, .worker {}]

/-- Both workers are left asleep, and `DBTaskQueue::Shutdown` waits for its worker. -/
theorem stranded_lostTrace :
    (∃ s, Machine.run step (Pool.initial 1) lostTrace = some s ∧ s.shutdowns = [.join 0] ∧
      (s.waiter 0).Stranded) ∧
    ∃ s, Machine.run TimerQueue.Stopping.step {} lostTimerTrace = some s ∧
      s.timers.calls = [.returned] ∧ s.waiter.Stranded :=
  ⟨⟨_, rfl, rfl, by decide⟩, ⟨_, rfl, rfl, by decide⟩⟩

end NetworkModule.Wal.SleepingWorkers
