import Mathlib

/-!
# ExecutionQueue

The queue of `Concurrency/ExecutionQueue.h`, one step per atomic access, lock
operation and container operation.  `pushStep` walks a thread through `Push`
and `popStep` through `Pop`.  Both take the thread's place in the source as a
program counter and return the queue and the next place, or `none` when the
thread has to wait for `mMutex`.

A condition variable is modelled by what a waiter may rely on.  Waiting
releases `mMutex`, and the waiter may then take the mutex again at any time,
woken or not, and looks at its predicate.  Whether its deadline has passed is
chosen by the label.  Notifications therefore change nothing and are not
steps.
-/

namespace NetworkModule.Concurrency

/-- `BackpressurePolicy`. -/
inductive BackpressurePolicy where
  | rejectNewest
  | block
  deriving DecidableEq, Repr

/-- `ExecutionQueueOptions`.  A capacity of 0 means no bound. -/
structure ExecutionQueueOptions where
  mBackpressure : BackpressurePolicy := .rejectNewest
  mCapacity : Nat := 0
  deriving DecidableEq, Repr

/-- The queue of `T` values, with the thread that holds `mMutex`. -/
structure ExecutionQueue (T I : Type) where
  /-- `mShutdown`. -/
  mShutdown : Bool := false
  /-- `mSize`, the lock-free mirror of the length. -/
  mSize : Nat := 0
  /-- `mQueue`, oldest first. -/
  mQueue : List T := []
  /-- The holder of `mMutex`. -/
  mMutex : Option I := none
  deriving DecidableEq, Repr

section
variable {T I : Type}

/-- Take `mMutex` if it is free. -/
def ExecutionQueue.lock (q : ExecutionQueue T I) (me : I) : Option (ExecutionQueue T I) :=
  match q.mMutex with
  | none => some { q with mMutex := some me }
  | some _ => none

/-- Release `mMutex`. -/
def ExecutionQueue.unlock (q : ExecutionQueue T I) : ExecutionQueue T I :=
  { q with mMutex := none }

/-- `Shutdown`: the compare-and-swap on `mShutdown`. -/
def ExecutionQueue.shutdown (q : ExecutionQueue T I) : ExecutionQueue T I :=
  { q with mShutdown := true }

/-- `Empty()` reads the mirror and not the queue. -/
def ExecutionQueue.empty (q : ExecutionQueue T I) : Bool := q.mSize == 0

/-! ## Push -/

/-- Where a call of `Push` stands. -/
inductive PushPc where
  /-- `Push` looks at the policy. -/
  | entry
  /-- `TryPush` loads `mShutdown`. -/
  | tryLoad
  /-- `TryPushImpl` takes the lock. -/
  | tryLock
  /-- It loads `mShutdown` again. -/
  | tryShutdown
  /-- It compares the length with the capacity. -/
  | tryCapacity
  /-- `PushBlocking` takes the lock. -/
  | blockLock
  /-- `canPush` loads `mShutdown`.  `late` says that the deadline has passed. -/
  | canPush (late : Bool)
  /-- `canPush` looks at the capacity. -/
  | canPushSize (late : Bool)
  /-- Waiting on `mNotFullCV`, without the lock. -/
  | wait
  /-- `PushBlocking` loads `mShutdown` after the wait. -/
  | blockShutdown
  /-- `mQueue.push`. -/
  | push
  /-- `mSize.fetch_add`. -/
  | count
  /-- Leaving the lock with the result `r`. -/
  | unlock (r : Bool)
  /-- The call has returned. -/
  | returned (r : Bool)
  deriving DecidableEq, Repr

/-- One step of `Push(v, timeoutMs)` by the thread `me`.  `expired` says whether
the deadline has passed when the thread stops waiting. -/
def pushStep (o : ExecutionQueueOptions) (me : I) (v : T) (timeoutMs : Int) (expired : Bool)
    (q : ExecutionQueue T I) : PushPc → Option (ExecutionQueue T I × PushPc)
  | .entry => some (q, if o.mBackpressure = .rejectNewest then .tryLoad else .blockLock)
  | .tryLoad => some (q, if q.mShutdown then .returned false else .tryLock)
  | .tryLock => (q.lock me).map (·, .tryShutdown)
  | .tryShutdown => some (q, if q.mShutdown then .unlock false else .tryCapacity)
  | .tryCapacity =>
      some (q, if 0 < o.mCapacity ∧ o.mCapacity ≤ q.mQueue.length then .unlock false else .push)
  | .blockLock => (q.lock me).map (·, .canPush false)
  | .canPush late => some (q, if q.mShutdown then .blockShutdown else .canPushSize late)
  | .canPushSize late =>
      if o.mCapacity = 0 ∨ q.mQueue.length < o.mCapacity then some (q, .blockShutdown)
      else if late then some (q, .unlock false)
      else some (q.unlock, .wait)
  | .wait => (q.lock me).map (·, .canPush (decide (0 ≤ timeoutMs) && expired))
  | .blockShutdown => some (q, if q.mShutdown then .unlock false else .push)
  | .push => some ({ q with mQueue := q.mQueue ++ [v] }, .count)
  | .count => some ({ q with mSize := q.mSize + 1 }, .unlock true)
  | .unlock r => some (q.unlock, .returned r)
  | .returned _ => none

/-! ## Pop -/

/-- Where a call of `Pop` stands. -/
inductive PopPc (T : Type) where
  /-- `TryPop` takes the lock. -/
  | tryLock
  /-- `TryPop` tests the queue. -/
  | tryTest
  /-- `TryPop` found nothing and leaves the lock. -/
  | tryUnlock
  /-- The head of the loop of `PopWait` loads `mShutdown`. -/
  | loop
  /-- The loop body takes the lock. -/
  | waitLock
  /-- `hasItem` loads `mShutdown`.  `late` says that the deadline has passed. -/
  | hasItem (late : Bool)
  /-- `hasItem` tests the queue. -/
  | hasItemEmpty (late : Bool)
  /-- Waiting on `mNotEmptyCV`, without the lock. -/
  | wait
  /-- The loop body loads `mShutdown` after the wait. -/
  | shutdownTest
  /-- The loop body tests the queue. -/
  | emptyTest
  /-- `break` leaves the lock. -/
  | breakUnlock
  /-- The loop body ends and leaves the lock. -/
  | againUnlock
  /-- The drain after the loop takes the lock. -/
  | drainLock
  /-- The drain tests the queue. -/
  | drainTest
  /-- Moving the front out of `mQueue`. -/
  | take
  /-- `mSize.fetch_sub`, with the value taken. -/
  | uncount (v : T)
  /-- Leaving the lock with the value. -/
  | unlock (v : T)
  /-- Leaving the lock without a value. -/
  | failUnlock
  /-- The call has returned. -/
  | returned (r : Option T)
  deriving DecidableEq, Repr

/-- One step of `Pop(out, timeoutMs)` by the thread `me`. -/
def popStep (me : I) (timeoutMs : Int) (expired : Bool) (q : ExecutionQueue T I) :
    PopPc T → Option (ExecutionQueue T I × PopPc T)
  | .tryLock => (q.lock me).map (·, .tryTest)
  | .tryTest => some (q, if q.mQueue.isEmpty then .tryUnlock else .take)
  | .tryUnlock => some (q.unlock, if timeoutMs = 0 then .returned none else .loop)
  | .loop => some (q, if q.mShutdown then .drainLock else .waitLock)
  | .waitLock => (q.lock me).map (·, .hasItem false)
  | .hasItem late => some (q, if q.mShutdown then .shutdownTest else .hasItemEmpty late)
  | .hasItemEmpty late =>
      if q.mQueue.isEmpty then
        if late then some (q, .failUnlock) else some (q.unlock, .wait)
      else some (q, .shutdownTest)
  | .wait => (q.lock me).map (·, .hasItem (decide (0 ≤ timeoutMs) && expired))
  | .shutdownTest => some (q, if q.mShutdown then .breakUnlock else .emptyTest)
  | .emptyTest => some (q, if q.mQueue.isEmpty then .againUnlock else .take)
  | .breakUnlock => some (q.unlock, .drainLock)
  | .againUnlock => some (q.unlock, .loop)
  | .drainLock => (q.lock me).map (·, .drainTest)
  | .drainTest => some (q, if q.mQueue.isEmpty then .failUnlock else .take)
  | .take =>
      match q.mQueue with
      | [] => none
      | v :: rest => some ({ q with mQueue := rest }, .uncount v)
  | .uncount v => some ({ q with mSize := q.mSize - 1 }, .unlock v)
  | .unlock v => some (q.unlock, .returned (some v))
  | .failUnlock => some (q.unlock, .returned none)
  | .returned _ => none

/-- The value a call of `Pop` has taken out of the queue. -/
def PopPc.held : PopPc T → Option T
  | .uncount v | .unlock v => some v
  | .returned r => r
  | _ => none

/-! ## What a step does to the queue -/

@[simp] theorem ExecutionQueue.unlock_mQueue (q : ExecutionQueue T I) :
    q.unlock.mQueue = q.mQueue := rfl

theorem ExecutionQueue.lock_mQueue {q q' : ExecutionQueue T I} {me : I}
    (h : q.lock me = some q') : q'.mQueue = q.mQueue := by
  unfold ExecutionQueue.lock at h
  split at h
  · cases h; rfl
  · cases h

/-- A step of `Push` appends its value at the place `push` and leaves the queue
alone elsewhere.  Only the places `push` and `count` lead on to `true`. -/
theorem pushStep_cases {o : ExecutionQueueOptions} {me : I} {v : T} {timeoutMs : Int}
    {expired : Bool} {q q' : ExecutionQueue T I} {pc pc' : PushPc}
    (h : pushStep o me v timeoutMs expired q pc = some (q', pc')) :
    (pc = .push ∧ pc' = .count ∧ q'.mQueue = q.mQueue ++ [v]) ∨
      (pc = .count ∧ pc' = .unlock true ∧ q'.mQueue = q.mQueue) ∨
      (pc = .unlock true ∧ pc' = .returned true ∧ q'.mQueue = q.mQueue) ∨
      (pc ≠ .push ∧ pc ≠ .count ∧ pc ≠ .unlock true ∧ pc' ≠ .count ∧ pc' ≠ .unlock true ∧
        pc' ≠ .returned true ∧ q'.mQueue = q.mQueue) := by
  cases pc with
  | tryLock | blockLock | wait =>
      obtain ⟨q₁, hq, he⟩ := Option.map_eq_some_iff.mp h
      cases he
      simp [ExecutionQueue.lock_mQueue hq]
  | entry | tryLoad | tryShutdown | tryCapacity | canPush | blockShutdown =>
      simp only [pushStep, Option.some.injEq, Prod.mk.injEq] at h
      obtain ⟨rfl, rfl⟩ := h
      split <;> simp
  | canPushSize late =>
      simp only [pushStep] at h
      split at h
      · cases h; simp
      · split at h <;> cases h <;> simp
  | push => cases h; simp
  | count => cases h; simp
  | unlock r => cases h; cases r <;> simp
  | returned r => cases h

/-- A step of `Pop` takes the front of the queue at the place `take` and leaves
the queue alone elsewhere.  A value once taken is kept. -/
theorem popStep_cases {me : I} {timeoutMs : Int} {expired : Bool} {q q' : ExecutionQueue T I}
    {pc pc' : PopPc T} (h : popStep me timeoutMs expired q pc = some (q', pc')) :
    (∃ v, pc.held = none ∧ pc'.held = some v ∧ q.mQueue = v :: q'.mQueue ∧ pc = .take) ∨
      (pc'.held = pc.held ∧ q'.mQueue = q.mQueue ∧ pc ≠ .take) := by
  cases pc with
  | tryLock | waitLock | wait | drainLock =>
      obtain ⟨q₁, hq, he⟩ := Option.map_eq_some_iff.mp h
      cases he
      simp [PopPc.held, ExecutionQueue.lock_mQueue hq]
  | tryTest | loop | hasItem | shutdownTest | emptyTest | drainTest | tryUnlock =>
      simp only [popStep, Option.some.injEq, Prod.mk.injEq] at h
      obtain ⟨rfl, rfl⟩ := h
      split <;> simp [PopPc.held]
  | hasItemEmpty late =>
      simp only [popStep] at h
      split at h
      · split at h <;> cases h <;> simp [PopPc.held]
      · cases h; simp [PopPc.held]
  | breakUnlock | againUnlock | failUnlock => cases h; simp [PopPc.held]
  | take =>
      simp only [popStep] at h
      split at h
      · cases h
      next v rest hq =>
        cases h
        exact Or.inl ⟨v, rfl, rfl, hq, rfl⟩
  | uncount v => cases h; simp [PopPc.held]
  | unlock v => cases h; simp [PopPc.held]
  | returned r => cases h

theorem ExecutionQueue.lock_mShutdown {q q' : ExecutionQueue T I} {me : I}
    (h : q.lock me = some q') : q'.mShutdown = q.mShutdown := by
  unfold ExecutionQueue.lock at h
  split at h
  · cases h; rfl
  · cases h

/-- `Push` does not shut the queue down. -/
theorem pushStep_mShutdown {o : ExecutionQueueOptions} {me : I} {v : T} {timeoutMs : Int}
    {expired : Bool} {q q' : ExecutionQueue T I} {pc pc' : PushPc}
    (h : pushStep o me v timeoutMs expired q pc = some (q', pc')) : q'.mShutdown = q.mShutdown := by
  cases pc with
  | tryLock | blockLock | wait =>
      obtain ⟨q₁, hq, he⟩ := Option.map_eq_some_iff.mp h
      cases he
      exact ExecutionQueue.lock_mShutdown hq
  | canPushSize late =>
      simp only [pushStep] at h
      split at h
      · cases h; rfl
      · split at h <;> cases h <;> rfl
  | returned r => cases h
  | _ => cases h; rfl

/-- `Pop` does not shut the queue down. -/
theorem popStep_mShutdown {me : I} {timeoutMs : Int} {expired : Bool} {q q' : ExecutionQueue T I}
    {pc pc' : PopPc T} (h : popStep me timeoutMs expired q pc = some (q', pc')) :
    q'.mShutdown = q.mShutdown := by
  cases pc with
  | tryLock | waitLock | wait | drainLock =>
      obtain ⟨q₁, hq, he⟩ := Option.map_eq_some_iff.mp h
      cases he
      exact ExecutionQueue.lock_mShutdown hq
  | hasItemEmpty late =>
      simp only [popStep] at h
      split at h
      · split at h <;> cases h <;> rfl
      · cases h; rfl
  | take =>
      simp only [popStep] at h
      split at h
      · cases h
      · cases h; rfl
  | returned r => cases h
  | _ => cases h; rfl

/-! ## Pushing to an open queue -/

/-- The call has not failed. -/
def PushPc.fine : PushPc → Bool
  | .unlock r | .returned r => r
  | _ => true

/-- The capacity test of the step passes. -/
def PushPc.hasRoom (o : ExecutionQueueOptions) (q : ExecutionQueue T I) : PushPc → Bool
  | .tryCapacity | .canPushSize _ => o.mCapacity = 0 || decide (q.mQueue.length < o.mCapacity)
  | _ => true

/-- On a queue with room that is not shut down, `Push` does not fail. -/
theorem pushStep_fine {o : ExecutionQueueOptions} {me : I} {v : T} {timeoutMs : Int}
    {expired : Bool} {q q' : ExecutionQueue T I} {pc pc' : PushPc}
    (h : pushStep o me v timeoutMs expired q pc = some (q', pc')) (hopen : q.mShutdown = false)
    (hroom : pc.hasRoom o q = true) (hpc : pc.fine = true) : pc'.fine = true := by
  cases pc with
  | tryLock | blockLock | wait =>
      obtain ⟨q₁, hq, he⟩ := Option.map_eq_some_iff.mp h
      cases he
      rfl
  | entry =>
      cases h
      split <;> rfl
  | tryLoad | tryShutdown | canPush | blockShutdown =>
      simp only [pushStep, hopen] at h
      cases h
      rfl
  | tryCapacity =>
      have hno : ¬ (0 < o.mCapacity ∧ o.mCapacity ≤ q.mQueue.length) := by
        simp only [PushPc.hasRoom, Bool.or_eq_true, decide_eq_true_eq] at hroom
        omega
      simp only [pushStep, if_neg hno] at h
      cases h
      rfl
  | canPushSize late =>
      have hyes : o.mCapacity = 0 ∨ q.mQueue.length < o.mCapacity := by
        simpa [PushPc.hasRoom] using hroom
      simp only [pushStep, if_pos hyes] at h
      cases h
      rfl
  | push => cases h; rfl
  | count => cases h; rfl
  | unlock r => cases h; exact hpc
  | returned r => cases h

end

end NetworkModule.Concurrency
