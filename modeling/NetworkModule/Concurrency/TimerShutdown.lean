import NetworkModule.Concurrency.TimerQueue
import NetworkModule.Lib.FlagWait

/-!
# Shutdown of TimerQueue

The worker of `TimerQueue` waits without a timeout as long as `mRunning` is set and the heap
is empty.  `Shutdown` clears `mRunning` and notifies, both without `mMutex`, so the worker is
a waiter of `FlagWait`.  Only one call of `Shutdown` gets as far as that, and the model keeps
which one it is (`Stopping`).  The notification is lost if the worker has loaded `mRunning`
before and has not blocked yet.  After any other run the worker is not left asleep.
-/

namespace NetworkModule.TimerQueue

/-! ## The worker as a waiter -/

/-- The queue, and the call of `Shutdown` that has cleared `mRunning`. -/
structure Stopping where
  timers : Timers := {}
  stopper : Option Nat := none
  deriving DecidableEq

/-- Whether the step is the call of `Shutdown` that clears `mRunning`. -/
def stops (s : Timers) : Act → Bool
  | .stop => s.mRunning
  | _ => false

/-- One step of the queue. -/
def Stopping.step (s : Stopping) (a : Act) : Option Stopping :=
  match TimerQueue.step s.timers a with
  | none => none
  | some t => some ⟨t, if stops s.timers a then some s.timers.calls.length else s.stopper⟩

/-- What the untimed wait of the worker looks like from outside. -/
def Timers.position (s : Timers) : FlagWait.Position :=
  match s.worker with
  | .waitHeap => if s.mHeap = [] then .checked else .awake
  | .waiting => if s.notified then .awake else .blocked
  | _ => .awake

/-- The call has its notification to perform. -/
def Timers.pends (s : Timers) (i : Nat) : Bool := s.calls[i]? == some .notify

/-- The notifications that `Shutdown` has still to perform. -/
def Stopping.owed (s : Stopping) : Nat :=
  match s.stopper with
  | none => 0
  | some i => (s.timers.pends i).toNat

/-- The worker as a waiter. -/
def Stopping.waiter (s : Stopping) : FlagWait.Waiter where
  flag := s.timers.mRunning
  position := s.timers.position
  owed := s.owed

/-- `Shutdown` does not notify while the worker has found `mRunning` set and the heap empty and
is about to block. -/
def Stopping.OutsideGap (s : Stopping) : Act → Prop
  | .call i => s.stopper = some i → s.timers.pends i = true → s.timers.position ≠ .checked
  | _ => True

instance (s : Stopping) : (a : Act) → Decidable (s.OutsideGap a)
  | .call _ => inferInstanceAs (Decidable (_ → _ → _))
  | .scheduleOnce _ | .scheduleRepeat _ | .cancel _ | .stop | .worker _ | .tick _ =>
      isTrue trivial

/-- The invariant of the runs without a lost notification. -/
structure Stopping.Inv (s : Stopping) : Prop where
  none_of_running : s.timers.mRunning = true → s.stopper = none
  /-- The call of `Shutdown` has nothing to do but to notify. -/
  stopper : ∀ i, s.stopper = some i →
    s.timers.calls[i]? = some .notify ∨ s.timers.calls[i]? = some .returned
  sound : s.waiter.Sound

theorem Stopping.inv_init : Stopping.Inv {} :=
  ⟨fun _ => rfl, fun _ h => (by cases h), fun h => absurd rfl h⟩

section
variable {s s' : Stopping} {t t' : Timers}

/-- What a step of the worker does. -/
structure WorkerEffect (t t' : Timers) : Prop where
  calls : t'.calls = t.calls
  running : t'.mRunning = t.mRunning
  position : t'.position = .awake ∨ (t.mRunning = true ∧ t'.position = .checked) ∨
    (t.position = .checked ∧ t'.position = .blocked)

theorem workerStep_effect {choice : Choice} (hs : TimerQueue.workerStep t choice = some t') :
    WorkerEffect t t' := by
  cases hpc : t.worker with
  | waitRunning =>
      simp only [TimerQueue.workerStep, hpc, Option.some.injEq] at hs
      subst hs
      refine ⟨rfl, rfl, ?_⟩
      split
      next hrunning =>
        by_cases hheap : t.mHeap = []
        · exact .inr (.inl ⟨hrunning, if_pos hheap⟩)
        · exact .inl (if_neg hheap)
      · exact .inl rfl
  | waitHeap =>
      simp only [TimerQueue.workerStep, hpc, Option.some.injEq] at hs
      subst hs
      split
      next hheap => exact ⟨rfl, rfl, .inr (.inr ⟨by simp [Timers.position, hpc, hheap], rfl⟩)⟩
      · exact ⟨rfl, rfl, .inl rfl⟩
  | lock | waiting | repeatClock | repeatPush | repeatNotify =>
      simp only [TimerQueue.workerStep, hpc, Option.some.injEq] at hs
      subst hs
      exact ⟨rfl, rfl, .inl rfl⟩
  | runningTest | emptyTest | timedRunning | callback =>
      simp only [TimerQueue.workerStep, hpc, Option.some.injEq] at hs
      subst hs
      refine ⟨rfl, rfl, .inl ?_⟩
      split <;> rfl
  | timedHeap deadline =>
      simp only [TimerQueue.workerStep, hpc] at hs
      split at hs
      · cases hs
        exact ⟨rfl, rfl, .inl rfl⟩
      · cases hs
        split <;> exact ⟨rfl, rfl, .inl rfl⟩
  | readClock =>
      simp only [TimerQueue.workerStep, hpc] at hs
      split at hs
      · cases hs
      · cases hs
        refine ⟨rfl, rfl, .inl ?_⟩
        split <;> rfl
  | timedWaiting deadline =>
      simp only [TimerQueue.workerStep, hpc] at hs
      split at hs
      · split at hs
        · cases hs
          exact ⟨rfl, rfl, .inl rfl⟩
        · cases hs
      · cases hs
        exact ⟨rfl, rfl, .inl rfl⟩
  | popTop =>
      simp only [TimerQueue.workerStep, hpc] at hs
      split at hs
      · cases hs
        refine ⟨rfl, rfl, .inl ?_⟩
        split <;> rfl
      · cases hs
  | exited => simp [TimerQueue.workerStep, hpc] at hs

/-- What a step of a call does. -/
structure CallEffect (t t' : Timers) (i : Nat) : Prop where
  running : t'.mRunning = t.mRunning
  calls : ∃ pc', t'.calls = t.calls.set i pc'
  /-- Only a notification moves the worker. -/
  position : t'.position = t.position ∨ (t.pends i = true ∧ t'.position = t.position.wake)
  /-- A notification is the end of its call. -/
  returned : t.pends i = true → t'.calls = t.calls.set i .returned ∧
    t'.position = t.position.wake

/-- The position of a worker that has not the mutex does not depend on the heap. -/
theorem position_of_unlocked (hfree : ¬ t.worker.locks = true) (heap : List TimerEntry)
    (cancelled : List Nat) (calls : List CallPc) :
    Timers.position { t with mHeap := heap, mCancelledHandles := cancelled, calls } =
      t.position := by
  cases hpc : t.worker with
  | waitHeap => exact absurd (by rw [hpc]; rfl) hfree
  | _ => simp only [Timers.position, hpc]

theorem position_notify (t : Timers) : t.notify.position = t.position.wake := by
  cases hpc : t.worker with
  | waiting =>
      cases hn : t.notified with
      | true => simp [Timers.notify, Timers.position, hpc, hn, FlagWait.Position.wake]
      | false => simp [Timers.notify, Timers.position, hpc, hn, FlagWait.Position.wake]
  | waitHeap =>
      simp only [Timers.notify, Timers.position, hpc]
      split <;> rfl
  | _ => simp only [Timers.notify, Timers.position, hpc, FlagWait.Position.wake]

theorem callStep_effect {i : Nat} {pc : CallPc} (hi : t.calls[i]? = some pc)
    (hs : TimerQueue.callStep t i pc = some t') : CallEffect t t' i := by
  have hpends : pc ≠ .notify → t.pends i = true → t'.calls = t.calls.set i .returned ∧
      t'.position = t.position.wake := fun hne hp => by
    simp only [Timers.pends, hi, beq_iff_eq, Option.some.injEq] at hp
    exact absurd hp hne
  cases pc with
  | takeHandle delayMs intervalMs =>
      cases hs
      exact ⟨rfl, ⟨_, rfl⟩, .inl rfl, hpends (by simp)⟩
  | readClock handle delayMs intervalMs =>
      cases hs
      exact ⟨rfl, ⟨_, rfl⟩, .inl rfl, hpends (by simp)⟩
  | push entry =>
      simp only [TimerQueue.callStep] at hs
      split at hs
      · cases hs
      next hfree =>
        cases hs
        exact ⟨rfl, ⟨_, rfl⟩, .inl (position_of_unlocked hfree _ _ _), hpends (by simp)⟩
  | cancel handle =>
      simp only [TimerQueue.callStep] at hs
      split at hs
      · cases hs
      next hfree =>
        cases hs
        exact ⟨rfl, ⟨_, rfl⟩, .inl (position_of_unlocked hfree _ _ _), hpends (by simp)⟩
  | notify =>
      cases hs
      have hpos : Timers.position { t.notify with calls := t.calls.set i .returned } =
          t.position.wake := position_notify t
      have hrunning : t.notify.mRunning = t.mRunning := by
        simp only [Timers.notify]
        split <;> rfl
      refine ⟨hrunning, ⟨_, rfl⟩, .inr ⟨?_, hpos⟩, fun _ => ⟨rfl, hpos⟩⟩
      simp [Timers.pends, hi]
  | returned => cases hs

/-- A step that is a move of the waiter, and does not clear `mRunning`. -/
theorem Stopping.Inv.keep (h : s.Inv) (hrunning : t'.mRunning = s.timers.mRunning)
    (hstopper : ∀ i, s.stopper = some i →
      t'.calls[i]? = some .notify ∨ t'.calls[i]? = some .returned)
    (hmove : FlagWait.Move s.waiter (Stopping.waiter ⟨t', s.stopper⟩)) :
    Stopping.Inv ⟨t', s.stopper⟩ :=
  ⟨fun hr => h.none_of_running (hrunning ▸ hr), hstopper, h.sound.move hmove⟩

/-- A call that begins. -/
theorem Stopping.Inv.begin (h : s.Inv) (pc : CallPc) :
    Stopping.Inv ⟨s.timers.begin pc, s.stopper⟩ := by
  have hsame : ∀ i, s.stopper = some i → (s.timers.calls ++ [pc])[i]? = s.timers.calls[i]? := by
    intro i hi
    have hlt : i < s.timers.calls.length := by
      rcases h.stopper i hi with hc | hc
      · exact (List.getElem?_eq_some_iff.mp hc).1
      · exact (List.getElem?_eq_some_iff.mp hc).1
    exact List.getElem?_append_left hlt
  have howed : Stopping.owed ⟨s.timers.begin pc, s.stopper⟩ = s.owed := by
    simp only [Stopping.owed]
    cases hi : s.stopper with
    | none => rfl
    | some i => simp only [Timers.pends, Timers.begin, hsame i hi]
  refine h.keep rfl (fun i hi => ?_) ?_
  · rw [Timers.begin, hsame i hi]
    exact h.stopper i hi
  · have hwaiter : Stopping.waiter ⟨s.timers.begin pc, s.stopper⟩ = s.waiter := by
      simp only [Stopping.waiter, howed]
      rfl
    rw [hwaiter]
    exact .same

/-- A call of another thread, or the notification of `Shutdown`. -/
theorem Stopping.Inv.callStep (h : s.Inv) {i : Nat} {pc : CallPc}
    (hi : s.timers.calls[i]? = some pc) (hgap : s.OutsideGap (.call i))
    (hs : TimerQueue.callStep s.timers i pc = some t') : Stopping.Inv ⟨t', s.stopper⟩ := by
  have heff := callStep_effect hi hs
  by_cases hstopper : s.stopper = some i
  · -- The call of `Shutdown` goes on, so it notifies.
    have hpends : s.timers.pends i = true := by
      rcases h.stopper i hstopper with hc | hc
      · simp [Timers.pends, hc]
      · rw [hi, Option.some.injEq] at hc
        subst hc
        cases hs
    obtain ⟨hcalls, hposition⟩ := heff.returned hpends
    obtain ⟨hlt, -⟩ := List.getElem?_eq_some_iff.mp hi
    have hreturned : t'.calls[i]? = some .returned := by
      rw [hcalls]
      exact List.getElem?_set_self hlt
    refine h.keep heff.running (fun j hj => ?_) ?_
    · rw [hstopper, Option.some.injEq] at hj
      exact .inr (hj ▸ hreturned)
    · have hwaiter : Stopping.waiter ⟨t', s.stopper⟩ =
          { s.waiter with
            position := s.waiter.position.wake, owed := s.waiter.owed - 1 } := by
        have hone : s.owed = 1 := by simp [Stopping.owed, hstopper, hpends]
        have hnone : Stopping.owed ⟨t', s.stopper⟩ = 0 := by
          simp [Stopping.owed, hstopper, Timers.pends, hreturned]
        simp only [Stopping.waiter, hone, hnone, heff.running, hposition]
      rw [hwaiter]
      exact .notify fun hchecked => absurd hchecked (hgap hstopper hpends)
  · obtain ⟨pc', hcalls⟩ := heff.calls
    have hsame : ∀ j, s.stopper = some j → t'.calls[j]? = s.timers.calls[j]? := fun j hj => by
      rw [hcalls]
      exact List.getElem?_set_ne fun he => hstopper (hj.trans (congrArg some he.symm))
    have howed : Stopping.owed ⟨t', s.stopper⟩ = s.owed := by
      simp only [Stopping.owed]
      cases hj : s.stopper with
      | none => rfl
      | some j => simp only [Timers.pends, hsame j hj]
    refine h.keep heff.running (fun j hj => by rw [hsame j hj]; exact h.stopper j hj) ?_
    have hwaiter : Stopping.waiter ⟨t', s.stopper⟩ = { s.waiter with position := t'.position } := by
      simp only [Stopping.waiter, howed, heff.running]
    rw [hwaiter]
    rcases heff.position with heq | ⟨-, hwake⟩
    · rw [heq]
      exact .same
    · rw [hwake]
      exact .other s.waiter

theorem Stopping.Inv.workerStep (h : s.Inv) {choice : Choice}
    (hs : TimerQueue.workerStep s.timers choice = some t') : Stopping.Inv ⟨t', s.stopper⟩ := by
  have heff := workerStep_effect hs
  have howed : Stopping.owed ⟨t', s.stopper⟩ = s.owed := by
    simp only [Stopping.owed, Timers.pends, heff.calls]
  have hwaiter : Stopping.waiter ⟨t', s.stopper⟩ = { s.waiter with position := t'.position } := by
    simp only [Stopping.waiter, howed, heff.running]
  refine h.keep heff.running (fun i hi => heff.calls ▸ h.stopper i hi) ?_
  rw [hwaiter]
  rcases heff.position with heq | ⟨hrunning, heq⟩ | ⟨hchecked, heq⟩
  · rw [heq]
    exact .wake
  · rw [heq]
    exact .check hrunning
  · rw [heq]
    exact .block hchecked

/-- Every step outside the gap keeps the invariant. -/
theorem Stopping.Inv.step {a : Act} (h : s.Inv) (hgap : s.OutsideGap a)
    (hs : s.step a = some s') : s'.Inv := by
  simp only [Stopping.step] at hs
  split at hs
  · cases hs
  next t ht =>
    cases hs
    cases a with
    | scheduleOnce delayMs =>
        cases ht
        exact h.begin _
    | scheduleRepeat intervalMs =>
        cases ht
        exact h.begin _
    | cancel handle =>
        simp only [TimerQueue.step] at ht
        split at ht
        · cases ht
          exact h
        · cases ht
          exact h.begin _
    | stop =>
        simp only [TimerQueue.step] at ht
        split at ht
        next hrunning =>
          cases ht
          simp only [stops, hrunning, if_true]
          have hnotify : (s.timers.calls ++ [CallPc.notify])[s.timers.calls.length]? =
              some .notify := List.getElem?_concat_length
          refine ⟨fun hr => (by cases hr), fun i hi => ?_, fun _ => .inr ?_⟩
          · cases hi
            exact .inl hnotify
          · simp only [Stopping.waiter, Stopping.owed, Timers.pends, Timers.begin, hnotify]
            exact Nat.one_pos
        next hstopped =>
          cases ht
          simp only [stops, hstopped]
          exact h
    | call i =>
        have hne : s.timers.calls.getD i .returned ≠ .returned := fun he => by
          simp only [TimerQueue.step, he] at ht
          cases ht
        exact h.callStep (Machine.getElem?_of_getD rfl hne) hgap ht
    | worker choice => exact h.workerStep ht
    | tick ns =>
        cases ht
        exact h.keep rfl h.stopper .same

end

/-- In a run in which `Shutdown` does not notify in the gap the worker is not left asleep. -/
theorem not_stranded_of_meets {as : List Act} {s : Stopping}
    (hgap : Machine.Meets Stopping.step Stopping.OutsideGap {} as)
    (hrun : Machine.run Stopping.step {} as = some s) : ¬ s.waiter.Stranded :=
  (Machine.run_invariant_of_meets (fun _ _ _ hI hok hs => hI.step hok hs) Stopping.inv_init hgap
    hrun).sound.not_stranded

/-- A notification of `Shutdown` in the gap leaves the worker asleep. -/
theorem stranded_of_gap {s s' : Stopping} (h : s.Inv) {a : Act} (hgap : ¬ s.OutsideGap a)
    (hs : s.step a = some s') :
    ∃ s'', s'.step (.worker {}) = some s'' ∧ s''.waiter.Stranded := by
  cases a with
  | call i =>
      simp only [Stopping.OutsideGap, not_forall, not_not] at hgap
      obtain ⟨hstopper, hpends, hchecked⟩ := hgap
      have hi : s.timers.calls[i]? = some .notify := by simpa [Timers.pends] using hpends
      obtain ⟨hlt, -⟩ := List.getElem?_eq_some_iff.mp hi
      have hstopped : s.timers.mRunning = false := by
        cases hrunning : s.timers.mRunning with
        | false => rfl
        | true => exact absurd (h.none_of_running hrunning) (by simp [hstopper])
      have hworker : s.timers.worker = .waitHeap ∧ s.timers.mHeap = [] := by
        simp only [Timers.position] at hchecked
        split at hchecked
        next hw =>
          split at hchecked
          next hheap => exact ⟨hw, hheap⟩
          · cases hchecked
        · split at hchecked <;> cases hchecked
        · cases hchecked
      have hsame : s.timers.notify = s.timers := by simp only [Timers.notify, hworker.1]
      have hd : s.timers.calls.getD i .returned = .notify := by
        rw [List.getD_eq_getElem?_getD, hi, Option.getD_some]
      have hs' : s' = ⟨{ s.timers with calls := s.timers.calls.set i .returned }, s.stopper⟩ := by
        simp only [Stopping.step, TimerQueue.step, hd, callStep, hsame, stops] at hs
        exact (Option.some.inj hs).symm
      subst hs'
      refine ⟨⟨{ s.timers with
        calls := s.timers.calls.set i .returned, worker := .waiting, notified := false },
          s.stopper⟩, ?_, ?_⟩
      · simp [Stopping.step, TimerQueue.step, workerStep, hworker, stops]
      · refine ⟨rfl, hstopped, ?_⟩
        simp [Stopping.waiter, Stopping.owed, hstopper, Timers.pends, List.getElem?_set_self hlt]
  | _ => exact absurd trivial hgap

end NetworkModule.TimerQueue
