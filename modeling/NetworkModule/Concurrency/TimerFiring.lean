import NetworkModule.Concurrency.TimerCancel
import NetworkModule.Concurrency.TimerShutdown
import Mathlib

/-!
# Callbacks after Cancel

The worker pops an entry, unlocks, and then calls the callback.  `Firing` keeps these
apart: an entry that has been popped is called in a step of its own, and the calls are
recorded with their time.  It also keeps which call of `Cancel` is about which handle.

A handle is *settled* when it is in `mCancelledHandles`, or was given out and has no entry
any more.  `Cancel` settles its handle, and nothing unsettles it.  A settled handle is not
started again, an entry apart that was popped already and not yet called
(`starts_after_cancel`).
-/

namespace NetworkModule.TimerQueue

/-! ## Starts -/

/-- A callback was called. -/
structure Start where
  entry : TimerEntry
  time : Nat
  deriving DecidableEq, Repr

/-- The queue, and the history of its callbacks and of the calls of `Cancel`. -/
structure Firing where
  timers : Timers := {}
  /-- The callback of the entry in the hands of the worker has been called. -/
  running : Bool := false
  /-- The callbacks that were called, oldest first. -/
  starts : List Start := []
  /-- The calls of `Cancel`, by their number, with the handle. -/
  cancels : List (Nat × Nat) := []
  deriving DecidableEq, Repr

/-- Who moves. -/
inductive FireAct where
  /-- The worker calls the callback of the entry that it has popped. -/
  | start
  | timers (a : Act)
  deriving DecidableEq, Repr

/-- The step is the return of a callback. -/
def Timers.returns (s : Timers) : Act → Bool
  | .worker _ =>
      match s.worker with
      | .callback _ => true
      | _ => false
  | _ => false

/-- The call of `Cancel` that begins with this step. -/
def Timers.cancelling (s : Timers) : Act → Option (Nat × Nat)
  | .cancel handle => if handle = 0 then none else some (s.calls.length, handle)
  | _ => none

/-- One step over a step function of the queue. -/
def fireStep (base : Timers → Act → Option Timers) (s : Firing) : FireAct → Option Firing
  | .start =>
      match s.timers.worker with
      | .callback entry =>
          if s.running then none
          else some { s with
            running := true, starts := s.starts ++ [⟨entry, s.timers.now⟩] }
      | _ => none
  | .timers a =>
      if s.timers.returns a && !s.running then none
      else (base s.timers a).map fun t =>
        { s with
          timers := t
          running := s.running && !s.timers.returns a
          cancels := s.cancels ++ (s.timers.cancelling a).toList }

/-- How often the callback of a handle was called. -/
def Firing.started (s : Firing) (handle : Nat) : Nat :=
  s.starts.countP fun x => x.entry.handle == handle

/-- The worker has popped the entry with this handle and not yet called its callback. -/
def Firing.popped (s : Firing) (handle : Nat) : Bool :=
  match s.timers.worker with
  | .callback entry => entry.handle == handle && !s.running
  | _ => false

/-- The callback with this handle runs. -/
def Firing.runs (s : Firing) (handle : Nat) : Bool :=
  match s.timers.worker with
  | .callback entry => entry.handle == handle && s.running
  | _ => false

/-- Call `i` of `Cancel` has put its handle into the set.  It may have its notification still
to do, or have returned. -/
def Firing.cancelled (s : Firing) (handle : Nat) : Prop :=
  ∃ i, (i, handle) ∈ s.cancels ∧
    (s.timers.calls[i]? = some .notify ∨ s.timers.calls[i]? = some .returned)

/-! ## Settled handles -/

/-- The handle is in the set, or was given out and has no entry any more. -/
def Settled (s : Timers) (handle : Nat) : Prop :=
  handle ∈ s.mCancelledHandles ∨ (s.carriers handle = 0 ∧ handle < s.mNextHandle)

section
variable {s s' : Timers} {handle : Nat}

theorem Settled.step {a : Act} (h : Settled s handle) (hE : Entries s)
    (hs : TimerQueue.step s a = some s') : Settled s' handle := by
  have heffect := effect_of_step hs
  rcases h with hmem | ⟨hzero, hlt⟩
  · refine (heffect.cancelled handle hmem).imp_right fun hgone => ?_
    have hone := hE.unique handle
    have hgiven : handle < s.mNextHandle := by
      by_contra hle
      have hzero := hE.fresh handle (Nat.not_lt.mp hle)
      omega
    exact ⟨by omega, hgiven.trans_le heffect.next⟩
  · right
    refine ⟨?_, hlt.trans_le heffect.next⟩
    rcases heffect.carriers handle with h | ⟨rfl, -, -⟩
    · omega
    · exact absurd hlt (Nat.lt_irrefl _)

/-- The worker gets to the callback of an entry by popping it, and its handle is not settled. -/
theorem popped_of_step {a : Act} {entry : TimerEntry} (hs : TimerQueue.step s a = some s')
    (hworker : s'.worker = .callback entry) :
    (s.worker = .callback entry ∧ s.returns a = false) ∨ ¬ Settled s entry.handle := by
  cases a with
  | scheduleOnce | scheduleRepeat | tick =>
      cases hs
      exact Or.inl ⟨hworker, rfl⟩
  | cancel handle =>
      simp only [TimerQueue.step] at hs
      split at hs <;> cases hs <;> exact Or.inl ⟨hworker, rfl⟩
  | stop =>
      simp only [TimerQueue.step] at hs
      split at hs <;> cases hs <;> exact Or.inl ⟨hworker, rfl⟩
  | call i =>
      refine Or.inl ⟨?_, rfl⟩
      simp only [TimerQueue.step] at hs
      cases hpc : s.calls.getD i .returned with
      | takeHandle | readClock =>
          rw [hpc] at hs
          cases hs
          exact hworker
      | push | cancel =>
          rw [hpc] at hs
          simp only [callStep] at hs
          split at hs <;> cases hs
          exact hworker
      | notify =>
          rw [hpc] at hs
          cases hs
          simpa using hworker
      | returned =>
          rw [hpc] at hs
          cases hs
  | worker choice =>
      right
      simp only [TimerQueue.step] at hs
      cases hpc : s.worker with
      | popTop =>
          simp only [workerStep, hpc] at hs
          split at hs
          next hpop =>
            cases hs
            dsimp only at hworker
            split at hworker
            · cases hworker
            next hno =>
              obtain rfl := WorkerPc.callback.inj hworker
              rintro (hmem | ⟨hzero, -⟩)
              · exact hno hmem
              · -- The entry has just been in the heap.
                have hpos : 0 < s.inHeap choice.entry.handle :=
                  List.countP_pos_iff.mpr ⟨choice.entry, hpop.1, by simp⟩
                simp only [Timers.carriers] at hzero
                omega
          · cases hs
      | lock | waiting | repeatClock | repeatPush | repeatNotify =>
          simp only [workerStep, hpc, Option.some.injEq] at hs
          subst hs
          cases hworker
      | waitRunning | waitHeap | runningTest | emptyTest | timedRunning | callback =>
          simp only [workerStep, hpc, Option.some.injEq] at hs
          subst hs
          split at hworker <;> cases hworker
      | readClock =>
          simp only [workerStep, hpc] at hs
          split at hs <;> cases hs
          split at hworker <;> cases hworker
      | timedHeap deadline =>
          simp only [workerStep, hpc] at hs
          split at hs <;> cases hs
          · cases hworker
          · split at hworker <;> cases hworker
      | timedWaiting deadline =>
          simp only [workerStep, hpc] at hs
          split at hs
          · split at hs <;> cases hs
            cases hworker
          · cases hs
            cases hworker
      | exited => simp [workerStep, hpc] at hs

end

/-! ## The calls of Cancel -/

/-- What holds in every state. -/
structure FiringInv (s : Firing) : Prop where
  entries : Entries s.timers
  /-- A call of `Cancel` has its handle still to put into the set, or the handle is settled. -/
  cancels : ∀ i handle, (i, handle) ∈ s.cancels →
    s.timers.calls[i]? = some (.cancel handle) ∨
      ((s.timers.calls[i]? = some .notify ∨ s.timers.calls[i]? = some .returned) ∧
        Settled s.timers handle)

theorem firingInv_init : FiringInv {} :=
  ⟨entries_init, fun _ _ h => absurd h List.not_mem_nil⟩

section
variable {s s' : Firing} {handle : Nat}

/-- A step of the queue, seen from one call of `Cancel`. -/
theorem cancel_of_step {t t' : Timers} {a : Act} {i : Nat} (hE : Entries t)
    (hs : TimerQueue.step t a = some t')
    (h : t.calls[i]? = some (.cancel handle) ∨
      ((t.calls[i]? = some .notify ∨ t.calls[i]? = some .returned) ∧ Settled t handle)) :
    t'.calls[i]? = some (.cancel handle) ∨
      ((t'.calls[i]? = some .notify ∨ t'.calls[i]? = some .returned) ∧ Settled t' handle) := by
  have hset : ∀ handle, Settled t handle → Settled t' handle := fun _ h => h.step hE hs
  -- The call itself stays where it is, unless the step is its own.
  have hkeep : t'.calls[i]? = t.calls[i]? → t'.calls[i]? = some (.cancel handle) ∨
      ((t'.calls[i]? = some .notify ∨ t'.calls[i]? = some .returned) ∧ Settled t' handle) := by
    intro hsame
    rw [hsame]
    exact h.imp_right (And.imp_right (hset handle))
  have hlt : i < t.calls.length := by
    rcases h with h | ⟨h | h, -⟩ <;> exact (List.getElem?_eq_some_iff.mp h).1
  cases a with
  | scheduleOnce | scheduleRepeat =>
      cases hs
      exact hkeep (List.getElem?_append_left hlt)
  | tick =>
      cases hs
      exact hkeep rfl
  | cancel handle' =>
      simp only [TimerQueue.step] at hs
      split at hs <;> cases hs
      · exact hkeep rfl
      · exact hkeep (List.getElem?_append_left hlt)
  | stop =>
      simp only [TimerQueue.step] at hs
      split at hs <;> cases hs
      · exact hkeep (List.getElem?_append_left hlt)
      · exact hkeep rfl
  | worker choice =>
      exact hkeep (by rw [(workerStep_effect hs).calls])
  | call j =>
      have hne : t.calls.getD j .returned ≠ .returned := fun he => by
        simp only [TimerQueue.step, he] at hs
        cases hs
      have hj := Machine.getElem?_of_getD rfl hne
      by_cases hij : j = i
      · subst hij
        have hself : ∀ pc, (t.calls.set j pc)[j]? = some pc := fun pc =>
          List.getElem?_set_self hlt
        rcases h with h | ⟨h | h, hsettled⟩
        · -- The handle enters the set.
          rw [TimerQueue.step, List.getD_eq_getElem?_getD, h, Option.getD_some] at hs
          simp only [callStep] at hs
          split at hs <;> cases hs
          refine Or.inr ⟨Or.inl (hself _), Or.inl ?_⟩
          dsimp only
          split
          next hmem => exact hmem
          · exact List.mem_cons_self ..
        · have hstep := hs
          rw [TimerQueue.step, List.getD_eq_getElem?_getD, h, Option.getD_some] at hs
          cases hs
          exact Or.inr ⟨Or.inr (hself _), hset handle hsettled⟩
        · rw [List.getD_eq_getElem?_getD, h] at hne
          exact absurd rfl hne
      · obtain ⟨pc', hcalls⟩ := (callStep_effect hj hs).calls
        exact hkeep (by rw [hcalls, List.getElem?_set_ne hij])

theorem FiringInv.step {a : FireAct} (hI : FiringInv s)
    (hs : fireStep TimerQueue.step s a = some s') : FiringInv s' := by
  cases a with
  | start =>
      simp only [fireStep] at hs
      split at hs
      · split at hs <;> cases hs
        exact ⟨hI.entries, hI.cancels⟩
      · cases hs
  | timers a =>
      simp only [fireStep] at hs
      split at hs
      · cases hs
      · obtain ⟨t, ht, rfl⟩ := Option.map_eq_some_iff.mp hs
        refine ⟨hI.entries.step ht, fun i handle hmem => ?_⟩
        rcases List.mem_append.mp hmem with hold | hnew
        · exact cancel_of_step hI.entries ht (hI.cancels i handle hold)
        · -- The call begins with this step.
          cases a with
          | cancel handle' =>
              simp only [Timers.cancelling] at hnew
              simp only [TimerQueue.step] at ht
              split at ht
              next hzero =>
                rw [if_pos hzero] at hnew
                cases hnew
              next hne =>
                rw [if_neg hne] at hnew
                cases ht
                obtain ⟨rfl, rfl⟩ := Prod.mk.inj (List.mem_singleton.mp hnew)
                left
                simp [Timers.begin]
          | scheduleOnce | scheduleRepeat | stop | call | worker | tick => cases hnew

theorem Firing.settled_of_cancelled (hI : FiringInv s) (h : s.cancelled handle) :
    Settled s.timers handle := by
  obtain ⟨i, hmem, hcall⟩ := h
  rcases hI.cancels i handle hmem with hc | ⟨-, hsettled⟩
  · rw [hc] at hcall
    rcases hcall with hcall | hcall <;> cases hcall
  · exact hsettled

/-- The callback of a settled handle is called only after it was popped before. -/
theorem started_step {a : FireAct} (hsettled : Settled s.timers handle)
    (hs : fireStep TimerQueue.step s a = some s') :
    s'.started handle + (s'.popped handle).toNat ≤ s.started handle + (s.popped handle).toNat ∧
      s.started handle ≤ s'.started handle := by
  cases a with
  | start =>
      simp only [fireStep] at hs
      split at hs
      next entry hworker =>
        split at hs
        · cases hs
        next hrunning =>
          cases hs
          have hrun : s.running = false := Bool.eq_false_iff.mpr hrunning
          simp only [Firing.started, Firing.popped, Tally.countP_concat, hworker, hrun,
            Bool.not_true, Bool.and_false, Bool.not_false, Bool.and_true, Bool.toNat_false]
          omega
      · cases hs
  | timers a =>
      simp only [fireStep] at hs
      split at hs
      · cases hs
      · obtain ⟨t, ht, rfl⟩ := Option.map_eq_some_iff.mp hs
        refine ⟨Nat.add_le_add_left ?_ _, Nat.le_refl _⟩
        cases hpopped : Firing.popped { s with
            timers := t
            running := s.running && !s.timers.returns a
            cancels := s.cancels ++ (s.timers.cancelling a).toList } handle with
        | false => exact Nat.zero_le _
        | true =>
            simp only [Firing.popped] at hpopped
            split at hpopped
            next entry hworker =>
              simp only [Bool.and_eq_true, beq_iff_eq] at hpopped
              obtain ⟨rfl, hidle⟩ := hpopped
              rcases popped_of_step ht hworker with ⟨hsame, hreturns⟩ | hno
              · have hrunning : s.running = false := by simpa [hreturns] using hidle
                simp [Firing.popped, hsame, hrunning]
              · exact absurd hsettled hno
            · cases hpopped

end

/-! ## Whole runs -/

/-- Once a call of `Cancel` has put its handle into the set, and so after it has returned, the
callback is called at most once more, and that only if its entry was popped before and not
yet called.  If it was running, it is never called again, whatever it returns. -/
theorem starts_after_cancel (as₁ as₂ : List FireAct) (s₁ s₂ : Firing) (handle : Nat)
    (h₁ : Machine.run (fireStep step) {} as₁ = some s₁) (hcancel : s₁.cancelled handle)
    (h₂ : Machine.run (fireStep step) s₁ as₂ = some s₂) :
    s₂.started handle ≤ s₁.started handle + (s₁.popped handle).toNat ∧
      (s₁.runs handle = true → s₂.started handle = s₁.started handle) := by
  have hI : FiringInv s₁ := Machine.run_invariant (fun _ _ _ hI hs => hI.step hs) firingInv_init h₁
  have hrun : (FiringInv s₂ ∧ Settled s₂.timers handle) ∧
      s₂.started handle + (s₂.popped handle).toNat ≤
        s₁.started handle + (s₁.popped handle).toNat ∧
      s₁.started handle ≤ s₂.started handle := by
    refine Machine.run_invariant (I := fun s => (FiringInv s ∧ Settled s.timers handle) ∧
      s.started handle + (s.popped handle).toNat ≤ s₁.started handle + (s₁.popped handle).toNat ∧
        s₁.started handle ≤ s.started handle) ?_
      ⟨⟨hI, Firing.settled_of_cancelled hI hcancel⟩, Nat.le_refl _, Nat.le_refl _⟩ h₂
    rintro s a s' ⟨⟨hI, hsettled⟩, hle, hge⟩ hs
    obtain ⟨hle', hge'⟩ := started_step hsettled hs
    refine ⟨⟨hI.step hs, ?_⟩, hle'.trans hle, hge.trans hge'⟩
    cases a with
    | start =>
        simp only [fireStep] at hs
        split at hs
        · split at hs <;> cases hs
          exact hsettled
        · cases hs
    | timers a =>
        simp only [fireStep] at hs
        split at hs
        · cases hs
        · obtain ⟨t, ht, rfl⟩ := Option.map_eq_some_iff.mp hs
          exact hsettled.step hI.entries ht
  obtain ⟨-, hle, hge⟩ := hrun
  refine ⟨by omega, fun hruns => ?_⟩
  have hpopped : s₁.popped handle = false := by
    simp only [Firing.runs, Firing.popped] at hruns ⊢
    split at hruns
    next entry hworker =>
      simp only [Bool.and_eq_true] at hruns
      simp [hruns.2]
    · cases hruns
  rw [hpopped, Bool.toNat_false] at hle
  omega

/-- A repeating timer is popped, and cancelled before its callback is called. -/
def cancelPoppedTrace : List FireAct :=
  List.flatten
    [[.timers (.scheduleRepeat 0)], List.replicate 3 (.timers (.call 0)), [.timers (.cancel 1)],
      List.replicate 7 (.timers (.worker { entry := ⟨1, 0, 0⟩ })),
      List.replicate 2 (.timers (.call 1))]

/-- Its callback is called and asks to be repeated. -/
def lastCallTrace : List FireAct :=
  [.start, .timers (.worker { reschedule := true })]

theorem starts_cancelPoppedTrace : ∃ s₁ s₂,
    Machine.run (fireStep step) {} cancelPoppedTrace = some s₁ ∧
      Machine.run (fireStep step) s₁ lastCallTrace = some s₂ ∧
      s₁.popped 1 = true ∧ s₂.started 1 = 1 ∧
      s₂.started 1 ≤ s₁.started 1 + (s₁.popped 1).toNat := by
  refine ⟨_, _, rfl, rfl, rfl, rfl, ?_⟩
  refine (starts_after_cancel cancelPoppedTrace lastCallTrace _ _ 1 ?_ ?_ ?_).1
  · rfl
  · exact ⟨1, by decide, by decide⟩
  · rfl

end NetworkModule.TimerQueue
