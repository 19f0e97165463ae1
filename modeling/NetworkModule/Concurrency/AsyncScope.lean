import NetworkModule.Concurrency.DispatcherDrain

/-!
# AsyncScope

The scope of `Concurrency/AsyncScope.h` over the dispatcher of
`KeyedDispatcher`.  A `Submit` call has a number, and it is the `Dispatch` call
of that number that carries its wrapped task.  Calls of `Dispatch` by other
clients have numbers of their own.

When a worker runs a wrapped task, the steps are those of the lambda in
`Submit`: load `mCancelled`, run the body, and call `EndTask`.  A body that
throws leaves the lambda at once, and `EndTask` is not reached.  The worker
then catches the exception and counts the task as failed.

`Accounts` states what `mInFlight` is for, and `accounts_iff_noThrow` says that
a run keeps it exactly when no body throws.
-/

namespace NetworkModule.Concurrency

open Tally (tally)

/-! ## The scope and its callers -/

/-- `AsyncScope`, with the thread that holds `mDrainMutex`. -/
structure AsyncScope where
  mCancelled : Bool := false
  mInFlight : Nat := 0
  mDrainMutex : Option Nat := none
  deriving DecidableEq, Repr

/-- `BeginTask`. -/
def AsyncScope.beginTask (x : AsyncScope) : AsyncScope := { x with mInFlight := x.mInFlight + 1 }

/-- `EndTask`. -/
def AsyncScope.endTask (x : AsyncScope) : AsyncScope := { x with mInFlight := x.mInFlight - 1 }

/-- Where a `Submit` call stands. -/
inductive SubmitPc where
  /-- The call has not been made. -/
  | idle
  /-- `BeginTask`. -/
  | beginTask
  /-- Loading `mCancelled`. -/
  | cancelledTest
  /-- Calling `Dispatch`. -/
  | dispatch
  /-- Inside `Dispatch`. -/
  | dispatching
  /-- The task was not accepted.  `EndTask`. -/
  | endTask
  /-- The call has returned. -/
  | returned (r : Bool)
  deriving DecidableEq, Repr

/-- Where a wrapped task stands. -/
inductive WrappedPc where
  /-- Not started, or about to load `mCancelled`. -/
  | queued
  /-- The scope is not cancelled.  Running the body. -/
  | body
  /-- `EndTask`. -/
  | endTask
  /-- The task has returned or thrown. -/
  | finished (threw : Bool)
  deriving DecidableEq, Repr

/-- A `Submit` call and its wrapped task. -/
structure Submission where
  pc : SubmitPc := .idle
  wrapped : WrappedPc := .queued
  deriving DecidableEq, Repr

/-- Where a `WaitForDrain(timeoutMs)` call stands. -/
inductive WaitPc where
  /-- The call has not been made. -/
  | idle
  /-- Taking `mDrainMutex`, for the first time or after a wait. -/
  | lock (timeoutMs : Int) (late : Bool)
  /-- Loading `mInFlight` in the predicate. -/
  | test (timeoutMs : Int) (late : Bool)
  /-- Waiting on `mDrainCV`, without the mutex. -/
  | wait (timeoutMs : Int)
  /-- Releasing the mutex with the result `r`. -/
  | unlock (r : Bool)
  /-- The call has returned. -/
  | returned (r : Bool)
  deriving DecidableEq, Repr

/-- Where `Reset` stands. -/
inductive ResetPc where
  | idle
  /-- `mInFlight` was 0.  Storing `mCancelled`. -/
  | store
  /-- `mInFlight` was not 0, and the process has aborted. -/
  | aborted
  deriving DecidableEq, Repr

/-- A scope, the dispatcher under it, and the threads that use them. -/
structure ScopedDispatcher where
  dispatcher : KeyedDispatcher := {}
  scope : AsyncScope := {}
  /-- The `Submit` calls, by number. -/
  submits : Nat → Submission := fun _ => {}
  /-- The `WaitForDrain` calls, by number. -/
  waits : Nat → WaitPc := fun _ => .idle
  reset : ResetPc := .idle
  /-- The `Submit` calls that have called `BeginTask`, in order. -/
  begun : List Nat := []

/-- Replace a `Submit` call. -/
def ScopedDispatcher.setSubmit (s : ScopedDispatcher) (c : Nat) (x : Submission) :
    ScopedDispatcher :=
  { s with submits := Function.update s.submits c x }

/-- Move a `WaitForDrain` call. -/
def ScopedDispatcher.setWait (s : ScopedDispatcher) (w : Nat) (pc : WaitPc) : ScopedDispatcher :=
  { s with waits := Function.update s.waits w pc }

/-! ## Steps -/

/-- Who moves. -/
inductive ScopeAct where
  /-- A thread calls `Submit` as call number `c`. -/
  | call (c : Nat)
  /-- `Submit` call `c` takes its next step outside `Dispatch`. -/
  | submit (c : Nat)
  /-- Worker `i` takes the next step of the wrapped task it runs.  `throws` is the
  fate of a body that ends with it. -/
  | run (i : Nat) (throws : Bool)
  /-- `Cancel`. -/
  | cancel
  /-- `Reset` takes its next step. -/
  | reset
  /-- A thread calls `WaitForDrain(timeoutMs)` as call number `w`. -/
  | waitCall (w : Nat) (timeoutMs : Int)
  /-- `WaitForDrain` call `w` takes its next step.  `expired` says whether its
  deadline has passed when it stops waiting. -/
  | wait (w : Nat) (expired : Bool)
  /-- The dispatcher takes a step. -/
  | dispatcher (a : DispatcherAct)
  deriving DecidableEq, Repr

section
variable (cfg : DispatcherConfig)

/-- One step of the `Submit` call `c` outside `Dispatch`. -/
def submitStep (s : ScopedDispatcher) (c : Nat) : Option ScopedDispatcher :=
  let x := s.submits c
  match x.pc with
  | .idle => none
  | .beginTask =>
      some ({ s with scope := s.scope.beginTask, begun := s.begun ++ [c] }.setSubmit c
        { x with pc := .cancelledTest })
  | .cancelledTest =>
      some (s.setSubmit c { x with pc := if s.scope.mCancelled then .endTask else .dispatch })
  | .dispatch =>
      match dispatcherStep cfg s.dispatcher (.call c) with
      | none => none
      | some d => some ({ s with dispatcher := d }.setSubmit c { x with pc := .dispatching })
  | .dispatching =>
      match s.dispatcher.calls c with
      | .returned r => some (s.setSubmit c { x with pc := if r then .returned true else .endTask })
      | _ => none
  | .endTask =>
      some ({ s with scope := s.scope.endTask }.setSubmit c { x with pc := .returned false })
  | .returned _ => none

/-- One step of the wrapped task of call `c`. -/
def wrappedStep (s : ScopedDispatcher) (c : Nat) (throws : Bool) : Option ScopedDispatcher :=
  let x := s.submits c
  match x.wrapped with
  | .queued =>
      some (s.setSubmit c { x with wrapped := if s.scope.mCancelled then .endTask else .body })
  | .body => some (s.setSubmit c { x with wrapped := if throws then .finished true else .endTask })
  | .endTask =>
      some ({ s with scope := s.scope.endTask }.setSubmit c { x with wrapped := .finished false })
  | .finished _ => none

/-- One step of worker `i` inside a wrapped task. -/
def runStep (s : ScopedDispatcher) (i : Nat) (throws : Bool) : Option ScopedDispatcher :=
  match (s.dispatcher.workers i).pc with
  | .executing c => if (s.submits c).pc = .idle then none else wrappedStep s c throws
  | _ => none

/-- One step of the `WaitForDrain` call `w`. -/
def waitStep (s : ScopedDispatcher) (w : Nat) (expired : Bool) : Option ScopedDispatcher :=
  match s.waits w with
  | .idle => none
  | .lock timeoutMs late =>
      match s.scope.mDrainMutex with
      | some _ => none
      | none =>
          some ({ s with scope := { s.scope with mDrainMutex := some w } }.setWait w
            (.test timeoutMs late))
  | .test timeoutMs late =>
      if s.scope.mInFlight = 0 then some (s.setWait w (.unlock true))
      else if late then some (s.setWait w (.unlock false))
      else
        some ({ s with scope := { s.scope with mDrainMutex := none } }.setWait w (.wait timeoutMs))
  | .wait timeoutMs => some (s.setWait w (.lock timeoutMs (decide (0 ≤ timeoutMs) && expired)))
  | .unlock r => some ({ s with scope := { s.scope with mDrainMutex := none } }.setWait w (.returned r))
  | .returned _ => none

/-- One step of `Reset`. -/
def resetStep (s : ScopedDispatcher) : Option ScopedDispatcher :=
  match s.reset with
  | .idle => some { s with reset := if s.scope.mInFlight = 0 then .store else .aborted }
  | .store => some { s with scope := { s.scope with mCancelled := false }, reset := .idle }
  | .aborted => none

/-- The steps of the dispatcher that are not steps of the scope: a call by
another client, and a worker outside a wrapped task. -/
def ScopedDispatcher.allows (s : ScopedDispatcher) : DispatcherAct → Bool
  | .call c => (s.submits c).pc = .idle
  | .work i _ throws =>
      match (s.dispatcher.workers i).pc with
      | .executing c => (s.submits c).pc = .idle || (s.submits c).wrapped = .finished throws
      | _ => true
  | .dispatch _ _ | .shutdown => true

/-- One step of the scope and the dispatcher. -/
def scopeStep (s : ScopedDispatcher) (a : ScopeAct) : Option ScopedDispatcher :=
  if s.reset = .aborted then none
  else
    match a with
    | .call c =>
        if (s.submits c).pc = .idle ∧ s.dispatcher.calls c = .idle then
          some (s.setSubmit c { pc := .beginTask })
        else none
    | .submit c => submitStep cfg s c
    | .run i throws => runStep s i throws
    | .cancel => some { s with scope := { s.scope with mCancelled := true } }
    | .reset => resetStep s
    | .waitCall w timeoutMs =>
        if s.waits w = .idle then some (s.setWait w (.lock timeoutMs false)) else none
    | .wait w expired => waitStep s w expired
    | .dispatcher a =>
        if s.allows a then (dispatcherStep cfg s.dispatcher a).map ({ s with dispatcher := · })
        else none

/-! ## What a step does -/

/-- Everything a step can do, with its label and the guards it passed. -/
inductive ScopeEffect (s : ScopedDispatcher) : ScopeAct → ScopedDispatcher → Prop where
  | call (c : Nat) : (s.submits c).pc = .idle → s.dispatcher.calls c = .idle →
      ScopeEffect s (.call c) (s.setSubmit c { pc := .beginTask })
  | beginTask (c : Nat) : (s.submits c).pc = .beginTask →
      ScopeEffect s (.submit c)
        ({ s with scope := s.scope.beginTask, begun := s.begun ++ [c] }.setSubmit c
          { s.submits c with pc := .cancelledTest })
  | cancelled (c : Nat) : (s.submits c).pc = .cancelledTest → s.scope.mCancelled = true →
      ScopeEffect s (.submit c) (s.setSubmit c { s.submits c with pc := .endTask })
  | admitted (c : Nat) : (s.submits c).pc = .cancelledTest → s.scope.mCancelled = false →
      ScopeEffect s (.submit c) (s.setSubmit c { s.submits c with pc := .dispatch })
  | dispatch (c : Nat) (d : KeyedDispatcher) : (s.submits c).pc = .dispatch →
      dispatcherStep cfg s.dispatcher (.call c) = some d →
      ScopeEffect s (.submit c)
        ({ s with dispatcher := d }.setSubmit c { s.submits c with pc := .dispatching })
  | accepted (c : Nat) : (s.submits c).pc = .dispatching →
      s.dispatcher.calls c = .returned true →
      ScopeEffect s (.submit c) (s.setSubmit c { s.submits c with pc := .returned true })
  | refused (c : Nat) : (s.submits c).pc = .dispatching →
      s.dispatcher.calls c = .returned false →
      ScopeEffect s (.submit c) (s.setSubmit c { s.submits c with pc := .endTask })
  | undone (c : Nat) : (s.submits c).pc = .endTask →
      ScopeEffect s (.submit c)
        ({ s with scope := s.scope.endTask }.setSubmit c { s.submits c with pc := .returned false })
  | skip (i c : Nat) (t : Bool) : (s.dispatcher.workers i).pc = .executing c →
      (s.submits c).pc ≠ .idle → (s.submits c).wrapped = .queued → s.scope.mCancelled = true →
      ScopeEffect s (.run i t) (s.setSubmit c { s.submits c with wrapped := .endTask })
  | start (i c : Nat) (t : Bool) : (s.dispatcher.workers i).pc = .executing c →
      (s.submits c).pc ≠ .idle → (s.submits c).wrapped = .queued → s.scope.mCancelled = false →
      ScopeEffect s (.run i t) (s.setSubmit c { s.submits c with wrapped := .body })
  | body (i c : Nat) (t : Bool) : (s.dispatcher.workers i).pc = .executing c →
      (s.submits c).pc ≠ .idle → (s.submits c).wrapped = .body →
      ScopeEffect s (.run i t)
        (s.setSubmit c { s.submits c with wrapped := if t then .finished true else .endTask })
  | ended (i c : Nat) (t : Bool) : (s.dispatcher.workers i).pc = .executing c →
      (s.submits c).pc ≠ .idle → (s.submits c).wrapped = .endTask →
      ScopeEffect s (.run i t)
        ({ s with scope := s.scope.endTask }.setSubmit c
          { s.submits c with wrapped := .finished false })
  | cancel : ScopeEffect s .cancel { s with scope := { s.scope with mCancelled := true } }
  | reset (r : ResetPc) : ScopeEffect s .reset { s with reset := r }
  | resetStore : ScopeEffect s .reset
      { s with scope := { s.scope with mCancelled := false }, reset := .idle }
  | waitCall (w : Nat) (timeoutMs : Int) (pc : WaitPc) :
      ScopeEffect s (.waitCall w timeoutMs) (s.setWait w pc)
  | wait (w : Nat) (e : Bool) (m : Option Nat) (pc : WaitPc) :
      ScopeEffect s (.wait w e)
        ({ s with scope := { s.scope with mDrainMutex := m } }.setWait w pc)
  | dispatcher (a : DispatcherAct) (d : KeyedDispatcher) : s.allows a = true →
      dispatcherStep cfg s.dispatcher a = some d →
      ScopeEffect s (.dispatcher a) { s with dispatcher := d }

variable {cfg}

theorem submitStep_effect {s s' : ScopedDispatcher} {c : Nat} (h : submitStep cfg s c = some s') :
    ScopeEffect cfg s (.submit c) s' := by
  simp only [submitStep] at h
  cases hpc : (s.submits c).pc with
  | idle => simp [hpc] at h
  | beginTask => simp only [hpc] at h; cases h; exact .beginTask c hpc
  | cancelledTest =>
      simp only [hpc] at h
      cases h
      cases hc : s.scope.mCancelled with
      | true => exact .cancelled c hpc hc
      | false => exact .admitted c hpc hc
  | dispatch =>
      simp only [hpc] at h
      split at h
      · cases h
      next d hd => cases h; exact .dispatch c d hpc hd
  | dispatching =>
      simp only [hpc] at h
      split at h
      next r hr =>
        cases h
        cases r with
        | true => exact .accepted c hpc hr
        | false => exact .refused c hpc hr
      · cases h
  | endTask => simp only [hpc] at h; cases h; exact .undone c hpc
  | returned r => simp [hpc] at h

theorem runStep_effect {s s' : ScopedDispatcher} {i : Nat} {t : Bool}
    (h : runStep s i t = some s') : ScopeEffect cfg s (.run i t) s' := by
  unfold runStep at h
  split at h
  next c hw =>
    split at h
    · cases h
    next hne =>
      simp only [wrappedStep] at h
      cases hpc : (s.submits c).wrapped with
      | queued =>
          simp only [hpc] at h
          cases h
          cases hc : s.scope.mCancelled with
          | true => exact .skip i c t hw hne hpc hc
          | false => exact .start i c t hw hne hpc hc
      | body => simp only [hpc] at h; cases h; exact .body i c t hw hne hpc
      | endTask => simp only [hpc] at h; cases h; exact .ended i c t hw hne hpc
      | finished b => simp [hpc] at h
  · cases h

theorem waitStep_effect {s s' : ScopedDispatcher} {w : Nat} {e : Bool}
    (h : waitStep s w e = some s') : ScopeEffect cfg s (.wait w e) s' := by
  unfold waitStep at h
  split at h
  · cases h
  · split at h
    · cases h
    · cases h; exact .wait w e _ _
  · split at h
    · cases h; exact .wait w e s.scope.mDrainMutex _
    · split at h
      · cases h; exact .wait w e s.scope.mDrainMutex _
      · cases h; exact .wait w e _ _
  · cases h; exact .wait w e s.scope.mDrainMutex _
  · cases h; exact .wait w e _ _
  · cases h

/-- Every step has one of the effects. -/
theorem scopeStep_effect {s s' : ScopedDispatcher} {a : ScopeAct}
    (h : scopeStep cfg s a = some s') : ScopeEffect cfg s a s' := by
  unfold scopeStep at h
  split at h
  · cases h
  · cases a with
    | call c =>
        simp only at h
        split at h
        next hpc => cases h; exact .call c hpc.1 hpc.2
        · cases h
    | submit c => exact submitStep_effect h
    | run i t => exact runStep_effect h
    | cancel => cases h; exact .cancel
    | reset =>
        simp only [resetStep] at h
        split at h
        · cases h; exact .reset _
        · cases h; exact .resetStore
        · cases h
    | waitCall w timeoutMs =>
        simp only at h
        split at h
        · cases h; exact .waitCall w timeoutMs _
        · cases h
    | wait w e => exact waitStep_effect h
    | dispatcher a =>
        simp only at h
        split at h
        next hall =>
          obtain ⟨d, hd, rfl⟩ := Option.map_eq_some_iff.mp h
          exact .dispatcher a d hall hd
        · cases h

end

end NetworkModule.Concurrency
