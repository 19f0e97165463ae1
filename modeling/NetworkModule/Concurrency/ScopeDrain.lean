import NetworkModule.Lib.Machine
import NetworkModule.Lib.Tally

/-!
# Waiting for the drain of a scope

`WaitForDrain(-1)` evaluates its predicate under `mDrainMutex` and then blocks.
`EndTask` decrements `mInFlight` and, if it was the last task, calls `notify_all`, both
without the mutex.  A notification wakes only the threads that are blocked.  So if it
comes between the evaluation and the blocking, it is lost, and the waiter blocks
although `mInFlight` is zero.  The comments of the class say that the mutex is not
needed.

`Awaited` says that a blocked waiter has something to wait for: `mInFlight` is not
zero, or a notification is still to come.  It holds throughout every run in which
no notification comes in that gap, unless another task has begun or another
notification is to come (`awaited_of_meets`).  A notification in the gap is all it
takes (`not_awaited_of_gap`).

Any number of threads submit tasks and wait.  The queue of the dispatcher is left
out: a task that is dispatched runs at some time, or never.
-/

namespace NetworkModule.Concurrency.ScopeDrain

/-! ## The scope -/

/-- Where a call of `Submit` stands, and then its task. -/
inductive TaskPc where
  /-- `BeginTask`. -/
  | beginTask
  /-- `Submit` loads `mCancelled`. -/
  | cancelledTest
  /-- `Dispatch`. -/
  | dispatch
  /-- The wrapped task loads `mCancelled` when it runs. -/
  | runTest
  /-- The task itself runs. -/
  | body
  /-- `mInFlight.fetch_sub` of `EndTask`. -/
  | endTask
  /-- `mDrainCV.notify_all`. -/
  | notify
  /-- The task has thrown, and `EndTask` is not called. -/
  | thrown
  | finished
  deriving DecidableEq, Repr

/-- Where a call of `WaitForDrain(-1)` stands. -/
inductive DrainPc where
  /-- Taking `mDrainMutex`, at the beginning or after a wake-up. -/
  | lock
  /-- The predicate loads `mInFlight`. -/
  | test
  /-- The predicate was false, and the thread is about to block.  It has the mutex. -/
  | checked
  /-- Blocked, without the mutex. -/
  | blocked
  | returned
  deriving DecidableEq, Repr

/-- The thread has `mDrainMutex`. -/
def DrainPc.locks : DrainPc → Bool
  | .test | .checked => true
  | .lock | .blocked | .returned => false

/-- What `notify_all` does to a thread. -/
def DrainPc.wake : DrainPc → DrainPc
  | .blocked => .lock
  | pc => pc

/-- The scope, with the calls of `Submit` and of `WaitForDrain(-1)` that have begun. -/
structure Scope where
  mCancelled : Bool := false
  mInFlight : Nat := 0
  tasks : List TaskPc := []
  waiters : List DrainPc := []
  deriving DecidableEq, Repr

/-! ## Steps -/

def Scope.setTask (s : Scope) (i : Nat) (pc : TaskPc) : Scope :=
  { s with tasks := s.tasks.set i pc }

def Scope.setWaiter (s : Scope) (j : Nat) (pc : DrainPc) : Scope :=
  { s with waiters := s.waiters.set j pc }

/-- A step of a call of `Submit` or of its task.  `ok` says whether the dispatcher takes the
task, or whether the task returns. -/
def taskStep (s : Scope) (i : Nat) (ok : Bool) : TaskPc → Option Scope
  | .beginTask => some ({ s with mInFlight := s.mInFlight + 1 }.setTask i .cancelledTest)
  | .cancelledTest => some (s.setTask i (if s.mCancelled then .endTask else .dispatch))
  | .dispatch => some (s.setTask i (if ok then .runTest else .endTask))
  | .runTest => some (s.setTask i (if s.mCancelled then .endTask else .body))
  | .body => some (s.setTask i (if ok then .endTask else .thrown))
  | .endTask =>
      some ({ s with mInFlight := s.mInFlight - 1 }.setTask i
        (if s.mInFlight = 1 then .notify else .finished))
  | .notify => some ({ s with waiters := s.waiters.map DrainPc.wake }.setTask i .finished)
  | .thrown | .finished => none

/-- A step of a call of `WaitForDrain(-1)`.  A blocked thread may wake up at any time. -/
def waiterStep (s : Scope) (j : Nat) : DrainPc → Option Scope
  | .lock => if s.waiters.any DrainPc.locks then none else some (s.setWaiter j .test)
  | .test => some (s.setWaiter j (if s.mInFlight = 0 then .returned else .checked))
  | .checked => some (s.setWaiter j .blocked)
  | .blocked => some (s.setWaiter j .lock)
  | .returned => none

/-- What happens next. -/
inductive Act where
  /-- A thread calls `Submit`. -/
  | submit
  | task (i : Nat) (ok : Bool)
  /-- `Cancel`. -/
  | cancel
  /-- A thread calls `WaitForDrain(-1)`. -/
  | waitForDrain
  | waiter (j : Nat)
  deriving DecidableEq, Repr

/-- One step. -/
def step (s : Scope) : Act → Option Scope
  | .submit => some { s with tasks := s.tasks ++ [.beginTask] }
  | .task i ok =>
      match s.tasks[i]? with
      | none => none
      | some pc => taskStep s i ok pc
  | .cancel => some { s with mCancelled := true }
  | .waitForDrain => some { s with waiters := s.waiters ++ [.lock] }
  | .waiter j =>
      match s.waiters[j]? with
      | none => none
      | some pc => waiterStep s j pc

/-! ## Waiting for something -/

/-- A blocked waiter waits for a task, or for a notification that is still to come. -/
def Awaited (s : Scope) : Prop :=
  .blocked ∈ s.waiters → s.mInFlight ≠ 0 ∨ .notify ∈ s.tasks

instance (s : Scope) : Decidable (Awaited s) := inferInstanceAs (Decidable (_ → _ ∨ _))

/-- No notification comes while a waiter has found its predicate false and is about to
block, unless a task has begun or another notification is to come. -/
def OutsideGap (s : Scope) : Act → Prop
  | .task i _ => s.tasks[i]? = some .notify → .checked ∈ s.waiters →
      s.mInFlight ≠ 0 ∨ 2 ≤ s.tasks.count .notify
  | .submit | .cancel | .waitForDrain | .waiter _ => True

instance (s : Scope) : (a : Act) → Decidable (OutsideGap s a)
  | .task _ _ => inferInstanceAs (Decidable (_ → _ → _))
  | .submit | .cancel | .waitForDrain | .waiter _ => isTrue trivial

/-- `BeginTask` was called for the task, and `EndTask` was not. -/
def TaskPc.inFlight : TaskPc → Bool
  | .cancelledTest | .dispatch | .runTest | .body | .endTask | .thrown => true
  | .beginTask | .notify | .finished => false

/-- The thread has found its predicate false, and has not been woken since. -/
def DrainPc.waits : DrainPc → Bool
  | .checked | .blocked => true
  | .lock | .test | .returned => false

/-- The invariant of the runs without a lost notification. -/
structure Inv (s : Scope) : Prop where
  balance : s.mInFlight = s.tasks.countP TaskPc.inFlight
  /-- Who waits has something to wait for, also before it blocks. -/
  awaited : 0 < s.waiters.countP DrainPc.waits → s.mInFlight = 0 → 0 < s.tasks.count .notify

theorem inv_init : Inv {} := ⟨rfl, fun h => absurd h (lt_irrefl 0)⟩

theorem Inv.to_awaited {s : Scope} (h : Inv s) : Awaited s := by
  intro hb
  have hpos : 0 < s.waiters.countP DrainPc.waits := List.countP_pos_iff.mpr ⟨_, hb, rfl⟩
  by_cases hz : s.mInFlight = 0
  · exact .inr (List.count_pos_iff.mp (h.awaited hpos hz))
  · exact .inl hz

section
variable {s s' : Scope} {i j : Nat}

/-- A task moves to another place. -/
theorem Inv.setTask (h : Inv s) {pc : TaskPc} (hi : s.tasks[i]? = some pc) (pc' : TaskPc) (n : Nat)
    (hn : n + pc.inFlight.toNat = s.mInFlight + pc'.inFlight.toNat)
    (hawaited : 0 < s.waiters.countP DrainPc.waits → n = 0 →
      0 < (s.tasks.set i pc').count .notify) :
    Inv ({ s with mInFlight := n }.setTask i pc') := by
  refine ⟨?_, hawaited⟩
  have hset := Tally.countP_set TaskPc.inFlight pc' hi
  have hbalance := h.balance
  simp only [Scope.setTask]
  omega

/-- A task moves, and neither ends nor notifies. -/
theorem Inv.moveTask (h : Inv s) {pc : TaskPc} (hi : s.tasks[i]? = some pc) (pc' : TaskPc) (n : Nat)
    (hn : n + pc.inFlight.toNat = s.mInFlight + pc'.inFlight.toNat) (hle : s.mInFlight ≤ n)
    (hpc : pc ≠ .notify) : Inv ({ s with mInFlight := n }.setTask i pc') := by
  refine h.setTask hi pc' n hn fun hwaits hz => ?_
  have hset := Tally.countP_set (· == TaskPc.notify) pc' hi
  have hold := h.awaited hwaits (by omega)
  have hno : (pc == TaskPc.notify) = false := by simpa using hpc
  rw [hno] at hset
  simp only [List.count] at hold ⊢
  simp only [Bool.toNat_false, Nat.add_zero] at hset
  omega

/-- The waiters that a notification leaves waiting are those in the gap. -/
theorem countP_waits_wake (ws : List DrainPc) :
    (ws.map DrainPc.wake).countP DrainPc.waits = ws.count .checked := by
  rw [List.countP_map, List.count]
  refine List.countP_congr fun w _ => ?_
  cases w <;> simp [DrainPc.wake, DrainPc.waits]

theorem Inv.taskStep (h : Inv s) {ok : Bool} {pc : TaskPc} (hi : s.tasks[i]? = some pc)
    (hgap : pc = .notify → .checked ∈ s.waiters → s.mInFlight ≠ 0 ∨ 2 ≤ s.tasks.count .notify)
    (hs : ScopeDrain.taskStep s i ok pc = some s') : Inv s' := by
  cases pc with
  | beginTask =>
      cases hs
      exact h.moveTask hi _ _ rfl (Nat.le_succ _) (by simp)
  | cancelledTest =>
      cases hs
      exact h.moveTask hi _ s.mInFlight (by split <;> rfl) le_rfl (by simp)
  | dispatch =>
      cases hs
      exact h.moveTask hi _ s.mInFlight (by split <;> rfl) le_rfl (by simp)
  | runTest =>
      cases hs
      exact h.moveTask hi _ s.mInFlight (by split <;> rfl) le_rfl (by simp)
  | body =>
      cases hs
      exact h.moveTask hi _ s.mInFlight (by split <;> rfl) le_rfl (by simp)
  | endTask =>
      cases hs
      have hone : 1 ≤ s.mInFlight := h.balance ▸ Tally.toNat_le_countP TaskPc.inFlight hi
      refine h.setTask hi _ _ ?_ fun _ hz => ?_
      · split
        · simp only [TaskPc.inFlight, Bool.toNat_true, Bool.toNat_false]
          omega
        · simp only [TaskPc.inFlight, Bool.toNat_true, Bool.toNat_false]
          omega
      · -- The last task is the one that notifies.
        have hlast : s.mInFlight = 1 := by omega
        rw [if_pos hlast]
        obtain ⟨hlt, -⟩ := List.getElem?_eq_some_iff.mp hi
        exact List.count_pos_iff.mpr (List.mem_of_getElem? (List.getElem?_set_self hlt))
  | notify =>
      cases hs
      have hset := Tally.countP_set TaskPc.inFlight TaskPc.finished hi
      have hcount := Tally.countP_set (· == TaskPc.notify) TaskPc.finished hi
      refine ⟨?_, fun hwaits hz => ?_⟩
      · have hbalance := h.balance
        simp only [Scope.setTask]
        simp only [TaskPc.inFlight, Bool.toNat_false] at hset
        omega
      · simp only [Scope.setTask, countP_waits_wake] at hwaits hz ⊢
        have htwo := (hgap rfl (List.count_pos_iff.mp hwaits)).resolve_left (not_not_intro hz)
        have hfinished : (TaskPc.finished == TaskPc.notify) = false := rfl
        rw [beq_self_eq_true, hfinished, Bool.toNat_true, Bool.toNat_false] at hcount
        simp only [List.count] at htwo ⊢
        omega
  | thrown => cases hs
  | finished => cases hs

theorem Inv.waiterStep (h : Inv s) {pc : DrainPc} (hj : s.waiters[j]? = some pc)
    (hs : ScopeDrain.waiterStep s j pc = some s') : Inv s' := by
  -- A waiter that does not begin to wait leaves the others as they are.
  have hmove : ∀ pc' : DrainPc, (pc'.waits = true → pc.waits = true) → Inv (s.setWaiter j pc') := by
    intro pc' hpc'
    refine ⟨h.balance, fun hwaits hz => h.awaited ?_ hz⟩
    have hset := Tally.countP_set DrainPc.waits pc' hj
    have hle : pc'.waits.toNat ≤ pc.waits.toNat := by
      cases hw : pc'.waits with
      | false => exact Nat.zero_le _
      | true => rw [hpc' hw]
    have hwaits' : 0 < (s.waiters.set j pc').countP DrainPc.waits := hwaits
    omega
  cases pc with
  | lock =>
      simp only [ScopeDrain.waiterStep] at hs
      split at hs
      · cases hs
      · cases hs
        exact hmove .test (by simp [DrainPc.waits])
  | test =>
      simp only [ScopeDrain.waiterStep, Option.some.injEq] at hs
      subst hs
      split
      · exact hmove .returned (by simp [DrainPc.waits])
      next hne => exact ⟨h.balance, fun _ hz => absurd hz hne⟩
  | checked =>
      cases hs
      exact hmove .blocked fun _ => rfl
  | blocked =>
      cases hs
      exact hmove .lock (by simp [DrainPc.waits])
  | returned => cases hs

end

/-- Every step outside the gap keeps the invariant. -/
theorem Inv.step {s s' : Scope} (h : Inv s) {a : Act} (hgap : OutsideGap s a)
    (hs : ScopeDrain.step s a = some s') : Inv s' := by
  cases a with
  | submit =>
      cases hs
      refine ⟨?_, fun hwaits hz => ?_⟩
      · exact h.balance.trans (Tally.countP_concat TaskPc.inFlight s.tasks .beginTask).symm
      · have hold := h.awaited hwaits hz
        simp only [List.count_append]
        omega
  | task i ok =>
      simp only [ScopeDrain.step] at hs
      cases hi : s.tasks[i]? with
      | none =>
          rw [hi] at hs
          cases hs
      | some pc =>
          rw [hi] at hs
          exact h.taskStep hi (fun hpc => hgap (hpc ▸ hi)) hs
  | cancel =>
      cases hs
      exact ⟨h.balance, h.awaited⟩
  | waitForDrain =>
      cases hs
      refine ⟨h.balance, fun hwaits => h.awaited ?_⟩
      have hconcat := Tally.countP_concat DrainPc.waits s.waiters .lock
      exact lt_of_lt_of_eq hwaits hconcat
  | waiter j =>
      simp only [ScopeDrain.step] at hs
      cases hj : s.waiters[j]? with
      | none =>
          rw [hj] at hs
          cases hs
      | some pc =>
          rw [hj] at hs
          exact h.waiterStep hj hs

/-- In a run in which no notification comes in the gap, every blocked waiter has something to
wait for. -/
theorem awaited_of_meets {as : List Act} {s : Scope}
    (hgap : Machine.Meets step OutsideGap {} as) (hrun : Machine.run step {} as = some s) :
    Awaited s :=
  (Machine.run_invariant_of_meets (fun _ _ _ hI hok hs => hI.step hok hs) inv_init hgap
    hrun).to_awaited

/-! ## The gap -/

/-- After a notification in the gap the waiter blocks for nothing. -/
theorem not_awaited_of_gap {s s' : Scope} {i : Nat} {ok : Bool}
    (hgap : ¬ OutsideGap s (.task i ok)) (hs : step s (.task i ok) = some s') :
    ∃ j s'', step s' (.waiter j) = some s'' ∧ ¬ Awaited s'' := by
  simp only [OutsideGap, not_forall, not_or, not_not, not_le] at hgap
  obtain ⟨hi, hchecked, hz, hone⟩ := hgap
  simp only [step, hi, taskStep, Option.some.injEq] at hs
  subst hs
  obtain ⟨j, hj⟩ := List.getElem?_of_mem hchecked
  have hj' : (s.waiters.map DrainPc.wake)[j]? = some .checked := by
    rw [List.getElem?_map, hj]
    rfl
  have hblock : step ({ s with waiters := s.waiters.map DrainPc.wake }.setTask i .finished)
      (.waiter j) = some (({ s with waiters := s.waiters.map DrainPc.wake }.setTask i
        .finished).setWaiter j .blocked) := by
    simp only [step, Scope.setTask, hj', waiterStep]
  refine ⟨j, _, hblock, fun hawaited => ?_⟩
  obtain ⟨hlt, -⟩ := List.getElem?_eq_some_iff.mp hj'
  have hblocked : DrainPc.blocked ∈ (s.waiters.map DrainPc.wake).set j .blocked :=
    List.mem_of_getElem? (List.getElem?_set_self hlt)
  rcases hawaited hblocked with hne | hnotify
  · exact hne hz
  · have hset := Tally.countP_set (· == TaskPc.notify) TaskPc.finished hi
    have hpos : 0 < (s.tasks.set i .finished).count .notify := List.count_pos_iff.mpr hnotify
    have hfinished : (TaskPc.finished == TaskPc.notify) = false := rfl
    rw [beq_self_eq_true, hfinished, Bool.toNat_true, Bool.toNat_false] at hset
    simp only [List.count] at hone hpos
    omega

/-- A task that ends while a waiter goes to sleep, with a wake-up in time. -/
def wokenTrace : List Act :=
  [.submit, .task 0 true, .task 0 true, .task 0 true, .task 0 true, .waitForDrain, .waiter 0,
    .waiter 0, .waiter 0, .task 0 true, .task 0 true, .task 0 true]

/-- The waiter is woken. -/
theorem awaited_wokenTrace :
    ∃ s, Machine.run step {} wokenTrace = some s ∧ s.waiters = [.lock] ∧ Awaited s :=
  ⟨_, rfl, rfl, awaited_of_meets (show Machine.Meets step OutsideGap {} wokenTrace by decide) rfl⟩

/-- The same, with the notification between the evaluation and the blocking. -/
def lostTrace : List Act :=
  [.submit, .task 0 true, .task 0 true, .task 0 true, .task 0 true, .waitForDrain, .waiter 0,
    .waiter 0, .task 0 true, .task 0 true, .task 0 true, .waiter 0]

/-- The waiter is blocked for nothing. -/
theorem not_awaited_lostTrace :
    ∃ s, Machine.run step {} lostTrace = some s ∧ s.waiters = [.blocked] ∧ s.mInFlight = 0 ∧
      s.tasks = [.finished] ∧ ¬ Awaited s :=
  ⟨_, rfl, rfl, rfl, rfl, by decide⟩

end NetworkModule.Concurrency.ScopeDrain
