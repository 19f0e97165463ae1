import NetworkModule.Concurrency.KeyedDispatcher

/-!
# A dispatcher that is not shut down

As long as nobody calls `Shutdown` and no queue is full, `Dispatch` refuses
nothing: `Open` is kept by every such step (`Open.step`), and it rules out the
places of `Dispatch` that lead to `false`.
-/

namespace NetworkModule.Concurrency

/-- The call has not been refused. -/
def CallPc.fine : CallPc → Bool
  | .countRejected => false
  | .pushing pc => pc.fine
  | .sharedUnlock r | .returned r => r
  | _ => true

/-- The dispatcher runs, its queues are open, and no call has been refused. -/
structure Open (d : KeyedDispatcher) : Prop where
  running : d.mRunning = true
  cleared : d.cleared = false
  queues : ∀ i, (d.workers i).mQueue.mShutdown = false
  calls : ∀ c, (d.calls c).fine = true

theorem open_init : Open {} := ⟨rfl, rfl, fun _ => rfl, fun _ => rfl⟩

section
variable (cfg : DispatcherConfig)

/-- A step that looks at the capacity of a queue finds room. -/
def neverFull (d : KeyedDispatcher) : DispatcherAct → Bool
  | .dispatch c _ =>
      match d.calls c with
      | .pushing pc => pc.hasRoom cfg.mQueueOptions (d.workers (workerOf cfg c)).mQueue
      | _ => true
  | _ => true

variable {cfg} {d d' : KeyedDispatcher}

theorem fine_update {calls : Nat → CallPc} (h : ∀ c, (calls c).fine = true) (k : Nat)
    {pc : CallPc} (hpc : pc.fine = true) (c : Nat) :
    (Function.update calls k pc c).fine = true :=
  (Function.forall_update_iff calls (p := fun _ p => CallPc.fine p = true)).mpr
    ⟨hpc, fun c _ => h c⟩ c

theorem mShutdown_update {workers : Nat → Worker}
    (h : ∀ i, (workers i).mQueue.mShutdown = false) (k : Nat) {w : Worker}
    (hw : w.mQueue.mShutdown = false) (i : Nat) :
    (Function.update workers k w i).mQueue.mShutdown = false :=
  (Function.forall_update_iff workers
    (p := fun _ (w : Worker) => w.mQueue.mShutdown = false)).mpr ⟨hw, fun i _ => h i⟩ i

theorem Open.dispatchStep {c : Nat} {e : Bool} (h : Open d) (htask : (cfg.args c).hasTask = true)
    (hfull : neverFull cfg d (.dispatch c e) = true)
    (hs : Concurrency.dispatchStep cfg d c e = some d') : Open d' := by
  have hc := h.calls c
  unfold Concurrency.dispatchStep at hs
  cases hpc : d.calls c with
  | idle => simp [hpc] at hs
  | sharedLock =>
      simp only [hpc] at hs
      split at hs
      · cases hs
      · cases hs
        exact ⟨h.running, h.cleared, h.queues, fine_update h.calls c rfl⟩
  | runningTest =>
      simp only [hpc, h.running, htask, h.cleared, Bool.not_true, Bool.or_false] at hs
      cases hs
      exact ⟨h.running, h.cleared, h.queues, fine_update h.calls c rfl⟩
  | pushing pc =>
      simp only [hpc] at hs
      split at hs
      · cases hs
      next q pc' hp =>
        cases hs
        have hroom : pc.hasRoom cfg.mQueueOptions (d.workers (workerOf cfg c)).mQueue = true := by
          simpa [neverFull, hpc] using hfull
        have hfine : pc'.fine = true :=
          pushStep_fine hp (h.queues _) hroom (by simpa [hpc, CallPc.fine] using hc)
        have hq : q.mShutdown = false := (pushStep_mShutdown hp).trans (h.queues _)
        refine ⟨h.running, h.cleared, mShutdown_update h.queues _ hq, fine_update h.calls c ?_⟩
        cases pc' with
        | returned r =>
            cases r with
            | true => rfl
            | false => cases hfine
        | _ => exact hfine
  | countSubmitted =>
      simp only [hpc] at hs
      cases hs
      exact ⟨h.running, h.cleared, h.queues, fine_update h.calls c rfl⟩
  | countRejected => simp [hpc, CallPc.fine] at hc
  | sharedUnlock r =>
      simp only [hpc] at hs
      cases hs
      rw [hpc] at hc
      exact ⟨h.running, h.cleared, h.queues, fine_update h.calls c hc⟩
  | returned r => simp [hpc] at hs

theorem Open.workStep {i : Nat} {e t : Bool} (h : Open d)
    (hs : Concurrency.workStep d i e t = some d') : Open d' := by
  simp only [Concurrency.workStep] at hs
  cases hpc : (d.workers i).pc with
  | popping pc =>
      simp only [hpc] at hs
      split at hs
      · cases hs
      next q pc' hp =>
        cases hs
        have hq : q.mShutdown = false := (popStep_mShutdown hp).trans (h.queues i)
        exact ⟨h.running, h.cleared, mShutdown_update h.queues i hq, h.calls⟩
  | counting c threw =>
      simp only [hpc] at hs
      cases hs
      cases threw <;>
        exact ⟨h.running, h.cleared, mShutdown_update h.queues i (h.queues i), h.calls⟩
  | exited => simp [hpc] at hs
  | _ =>
      simp only [hpc] at hs
      cases hs
      exact ⟨h.running, h.cleared, mShutdown_update h.queues i (h.queues i), h.calls⟩

/-- Without `Shutdown` and without a full queue, the dispatcher stays open. -/
theorem Open.step {a : DispatcherAct} (h : Open d) (htask : ∀ c, (cfg.args c).hasTask = true)
    (ha : a ≠ .shutdown) (hfull : neverFull cfg d a = true)
    (hs : dispatcherStep cfg d a = some d') : Open d' := by
  cases a with
  | call c =>
      simp only [dispatcherStep] at hs
      split at hs
      · cases hs
        exact ⟨h.running, h.cleared, h.queues, fine_update h.calls c rfl⟩
      · cases hs
  | dispatch c e => exact h.dispatchStep (htask c) hfull hs
  | work i e t =>
      simp only [dispatcherStep] at hs
      split at hs
      · exact h.workStep hs
      · cases hs
  | shutdown => exact absurd rfl ha

end

end NetworkModule.Concurrency
