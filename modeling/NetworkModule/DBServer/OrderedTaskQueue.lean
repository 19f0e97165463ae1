import NetworkModule.Concurrency.DispatcherDrain

/-!
# OrderedTaskQueue

`OrderedTaskQueue` of the DB server gives its tasks to a `KeyedDispatcher`, wrapped in a function
that catches what they throw, and keeps counters of its own
(`DBServer/src/OrderedTaskQueue.cpp`).  `EnqueueTask` counts a task after `Dispatch` has returned,
when a worker may have counted it as processed already, and `mTotalFailed` has both the tasks that
threw and those that the dispatcher rejected.  `queue_accounts` says what the counters mean, and
what the last line of the log says after `Shutdown`.

The queue has been initialized.  A task is known by the number of the `EnqueueTask` call that
brought it, and the call of `Dispatch` in it has the same number.
-/

namespace NetworkModule.OrderedTasks

open Concurrency Tally

/-! ## The queue -/

/-- Where a call of `EnqueueTask` stands. -/
inductive EnqueuePc where
  | idle
  /-- Testing `mIsRunning`. -/
  | runningTest
  /-- In `Dispatch`. -/
  | dispatching
  /-- `mTotalEnqueued.fetch_add`. -/
  | countEnqueued
  /-- `mTotalFailed.fetch_add`, since the dispatcher has rejected the task. -/
  | countFailed
  /-- It has returned since the queue was not running. -/
  | refused
  | enqueued
  | rejected
  deriving DecidableEq, Repr

/-- Where the function that wraps a task stands. -/
inductive WrapperPc where
  /-- The task has not returned. -/
  | task
  /-- `mTotalProcessed.fetch_add`, or `mTotalFailed.fetch_add` in a handler. -/
  | count (threw : Bool)
  | done (threw : Bool)
  deriving DecidableEq, Repr

/-- Where `Shutdown` stands. -/
inductive StopPc where
  | idle
  /-- Testing `mIsRunning`. -/
  | runningTest
  /-- `mIsRunning.store(false)`. -/
  | clear
  /-- In `Shutdown` of the dispatcher. -/
  | dispatcher
  | returned
  deriving DecidableEq, Repr

structure OrderedTaskQueue where
  mIsRunning : Bool := true
  mDispatcher : KeyedDispatcher := {}
  mTotalEnqueued : Nat := 0
  mTotalProcessed : Nat := 0
  mTotalFailed : Nat := 0
  /-- The calls of `EnqueueTask`. -/
  calls : Nat → EnqueuePc := fun _ => .idle
  /-- The wrapped tasks. -/
  wrappers : Nat → WrapperPc := fun _ => .task
  shutdown : StopPc := .idle

structure Config where
  /-- `mWorkerCount`. -/
  workerCount : Nat
  /-- `Initialize` has found it so. -/
  workerCount_pos : 0 < workerCount
  /-- The key of each call. -/
  key : Nat → UInt32

/-- The options of the dispatcher, and the arguments of `Dispatch`. -/
def Config.dispatcher (cfg : Config) : DispatcherConfig where
  workerCount := cfg.workerCount
  workerCount_pos := cfg.workerCount_pos
  mQueueOptions := { mBackpressure := .block, mCapacity := 8192 }
  args := fun c => { key := (cfg.key c).toUInt64 }

/-- Who moves. -/
inductive Act where
  /-- A thread calls `EnqueueTask` as call number `c`. -/
  | call (c : Nat)
  | enqueue (c : Nat) (expired : Bool)
  /-- Worker `i` goes on.  `throws` is the fate of a task that ends with it. -/
  | work (i : Nat) (expired throws : Bool)
  /-- `Shutdown` is called or goes on. -/
  | shutdown
  deriving DecidableEq, Repr

/-- The dispatcher takes a step. -/
def OrderedTaskQueue.dispatch (cfg : Config) (s : OrderedTaskQueue) (a : DispatcherAct) :
    Option OrderedTaskQueue :=
  (dispatcherStep cfg.dispatcher s.mDispatcher a).map fun d => { s with mDispatcher := d }

def OrderedTaskQueue.setCall (s : OrderedTaskQueue) (c : Nat) (pc : EnqueuePc) :
    OrderedTaskQueue :=
  { s with calls := Function.update s.calls c pc }

def OrderedTaskQueue.setWrapper (s : OrderedTaskQueue) (c : Nat) (pc : WrapperPc) :
    OrderedTaskQueue :=
  { s with wrappers := Function.update s.wrappers c pc }

/-- A step of `EnqueueTask`. -/
def enqueueStep (cfg : Config) (s : OrderedTaskQueue) (c : Nat) (expired : Bool) :
    Option OrderedTaskQueue :=
  match s.calls c with
  | .runningTest =>
      if s.mIsRunning then (s.setCall c .dispatching).dispatch cfg (.call c)
      else some (s.setCall c .refused)
  | .dispatching =>
      match s.mDispatcher.calls c with
      | .returned true => some (s.setCall c .countEnqueued)
      | .returned false => some (s.setCall c .countFailed)
      | _ => s.dispatch cfg (.dispatch c expired)
  | .countEnqueued =>
      some ({ s with mTotalEnqueued := s.mTotalEnqueued + 1 }.setCall c .enqueued)
  | .countFailed => some ({ s with mTotalFailed := s.mTotalFailed + 1 }.setCall c .rejected)
  | .idle | .refused | .enqueued | .rejected => none

/-- A step of the worker `i`.  The wrapper lets no exception out. -/
def workStep (cfg : Config) (s : OrderedTaskQueue) (i : Nat) (expired throws : Bool) :
    Option OrderedTaskQueue :=
  match (s.mDispatcher.workers i).pc with
  | .executing c =>
      match s.wrappers c with
      | .task => some (s.setWrapper c (.count throws))
      | .count false =>
          some ({ s with mTotalProcessed := s.mTotalProcessed + 1 }.setWrapper c (.done false))
      | .count true =>
          some ({ s with mTotalFailed := s.mTotalFailed + 1 }.setWrapper c (.done true))
      | .done _ => s.dispatch cfg (.work i expired false)
  | _ => s.dispatch cfg (.work i expired false)

/-- A step of `Shutdown`. -/
def shutdownStep (cfg : Config) (s : OrderedTaskQueue) : Option OrderedTaskQueue :=
  match s.shutdown with
  | .idle => some { s with shutdown := .runningTest }
  | .runningTest => some { s with shutdown := if s.mIsRunning then .clear else .returned }
  | .clear => some { s with mIsRunning := false, shutdown := .dispatcher }
  | .dispatcher =>
      if s.mDispatcher.shutdown = .returned then some { s with shutdown := .returned }
      else s.dispatch cfg .shutdown
  | .returned => none

/-- One step. -/
def step (cfg : Config) (s : OrderedTaskQueue) : Act → Option OrderedTaskQueue
  | .call c => if s.calls c = .idle then some (s.setCall c .runningTest) else none
  | .enqueue c expired => enqueueStep cfg s c expired
  | .work i expired throws => workStep cfg s i expired throws
  | .shutdown => shutdownStep cfg s

/-! ## What a step does -/

section
variable {cfg : Config} {s s' : OrderedTaskQueue}

/-- What a step does to the dispatcher and to the calls, the wrappers and the counters. -/
inductive Effect (cfg : Config) (s : OrderedTaskQueue) : Act → OrderedTaskQueue → Prop where
  /-- The dispatcher takes a step of a call that is in `Dispatch`, of a worker or of
  `Shutdown`. -/
  | dispatcher {act : Act} {a : DispatcherAct} {d : KeyedDispatcher}
      (hd : dispatcherStep cfg.dispatcher s.mDispatcher a = some d)
      (hcall : ∀ c, a ≠ .call c) (hdispatch : ∀ c e, a = .dispatch c e → s.calls c = .dispatching)
      (hwork : ∀ i e t c, a = .work i e t → (s.mDispatcher.workers i).pc = .executing c →
        ∃ threw, s.wrappers c = .done threw) :
      Effect cfg s act { s with mDispatcher := d }
  /-- `EnqueueTask` calls `Dispatch`. -/
  | dispatch {c : Nat} {e : Bool} {d : KeyedDispatcher} (hpc : s.calls c = .runningTest)
      (hd : dispatcherStep cfg.dispatcher s.mDispatcher (.call c) = some d) :
      Effect cfg s (.enqueue c e) { s.setCall c .dispatching with mDispatcher := d }
  | begin {c : Nat} (hpc : s.calls c = .idle) : Effect cfg s (.call c) (s.setCall c .runningTest)
  | refuse {c : Nat} {e : Bool} (hpc : s.calls c = .runningTest) :
      Effect cfg s (.enqueue c e) (s.setCall c .refused)
  | returned {c : Nat} {e queued : Bool} (hpc : s.calls c = .dispatching)
      (hd : s.mDispatcher.calls c = .returned queued) :
      Effect cfg s (.enqueue c e) (s.setCall c (if queued then .countEnqueued else .countFailed))
  | enqueued {c : Nat} {e : Bool} (hpc : s.calls c = .countEnqueued) :
      Effect cfg s (.enqueue c e)
        ({ s with mTotalEnqueued := s.mTotalEnqueued + 1 }.setCall c .enqueued)
  | rejected {c : Nat} {e : Bool} (hpc : s.calls c = .countFailed) :
      Effect cfg s (.enqueue c e)
        ({ s with mTotalFailed := s.mTotalFailed + 1 }.setCall c .rejected)
  | ended {i c : Nat} {e threw : Bool} (hwork : (s.mDispatcher.workers i).pc = .executing c)
      (hpc : s.wrappers c = .task) :
      Effect cfg s (.work i e threw) (s.setWrapper c (.count threw))
  | processed {i c : Nat} {e t : Bool} (hwork : (s.mDispatcher.workers i).pc = .executing c)
      (hpc : s.wrappers c = .count false) :
      Effect cfg s (.work i e t)
        ({ s with mTotalProcessed := s.mTotalProcessed + 1 }.setWrapper c (.done false))
  | failed {i c : Nat} {e t : Bool} (hwork : (s.mDispatcher.workers i).pc = .executing c)
      (hpc : s.wrappers c = .count true) :
      Effect cfg s (.work i e t)
        ({ s with mTotalFailed := s.mTotalFailed + 1 }.setWrapper c (.done true))
  /-- `Shutdown` goes on by itself. -/
  | stop {running : Bool} {pc : StopPc}
      (hstop : (s.shutdown = .idle ∧ running = s.mIsRunning ∧ pc = .runningTest) ∨
        (s.shutdown = .runningTest ∧ running = s.mIsRunning ∧
          pc = if s.mIsRunning then .clear else .returned) ∨
        (s.shutdown = .clear ∧ running = false ∧ pc = .dispatcher) ∨
        (s.shutdown = .dispatcher ∧ running = s.mIsRunning ∧ pc = .returned ∧
          s.mDispatcher.shutdown = .returned)) :
      Effect cfg s .shutdown { s with mIsRunning := running, shutdown := pc }

theorem dispatch_eq_some {a : DispatcherAct} (h : s.dispatch cfg a = some s') :
    ∃ d, dispatcherStep cfg.dispatcher s.mDispatcher a = some d ∧
      s' = { s with mDispatcher := d } := by
  obtain ⟨d, hd, rfl⟩ := Option.map_eq_some_iff.mp h
  exact ⟨d, hd, rfl⟩

theorem enqueueStep_effect {c : Nat} {expired : Bool} (h : enqueueStep cfg s c expired = some s') :
    Effect cfg s (.enqueue c expired) s' := by
  rw [enqueueStep] at h
  split at h
  · next hpc =>
      split at h
      · obtain ⟨d, hd, rfl⟩ := dispatch_eq_some h
        exact .dispatch hpc hd
      · cases h
        exact .refuse hpc
  · next hpc =>
      split at h
      · next hd =>
          cases h
          have heffect := @Effect.returned cfg _ _ expired _ hpc hd
          exact heffect
      · next hd =>
          cases h
          have heffect := @Effect.returned cfg _ _ expired _ hpc hd
          exact heffect
      · obtain ⟨d, hd, rfl⟩ := dispatch_eq_some h
        refine .dispatcher hd (fun c hc => by cases hc) (fun c' e hc => ?_)
          fun i e t c hw => by cases hw
        obtain ⟨rfl, -⟩ := DispatcherAct.dispatch.inj hc
        exact hpc
  · next hpc =>
      cases h
      exact .enqueued hpc
  · next hpc =>
      cases h
      exact .rejected hpc
  · cases h
  · cases h
  · cases h
  · cases h

theorem workStep_effect {i : Nat} {expired throws : Bool}
    (h : workStep cfg s i expired throws = some s') : Effect cfg s (.work i expired throws) s' := by
  have hdispatch : ∀ (hwork : ∀ c, (s.mDispatcher.workers i).pc = .executing c →
      ∃ threw, s.wrappers c = .done threw), s.dispatch cfg (.work i expired false) = some s' →
      Effect cfg s (.work i expired throws) s' := by
    intro hwork h
    obtain ⟨d, hd, rfl⟩ := dispatch_eq_some h
    refine .dispatcher hd (fun c hc => by cases hc) (fun c e hc => by cases hc) ?_
    intro j e t c hj hpc
    obtain ⟨rfl, -, -⟩ := DispatcherAct.work.inj hj
    exact hwork c hpc
  rw [workStep] at h
  split at h
  · next c hpc =>
      split at h
      · next hw =>
          cases h
          exact .ended hpc hw
      · next hw =>
          cases h
          exact .processed hpc hw
      · next hw =>
          cases h
          exact .failed hpc hw
      · next threw hw =>
          refine hdispatch (fun d hd => ⟨threw, ?_⟩) h
          rwa [← WorkerPc.executing.inj (hpc.symm.trans hd)]
  · next hpc => exact hdispatch (fun c hc => absurd hc (hpc c)) h

theorem shutdownStep_effect (h : shutdownStep cfg s = some s') : Effect cfg s .shutdown s' := by
  rw [shutdownStep] at h
  split at h
  · next hpc =>
      cases h
      exact .stop (.inl ⟨hpc, rfl, rfl⟩)
  · next hpc =>
      cases h
      exact .stop (.inr (.inl ⟨hpc, rfl, rfl⟩))
  · next hpc =>
      cases h
      exact .stop (.inr (.inr (.inl ⟨hpc, rfl, rfl⟩)))
  · next hpc =>
      split at h
      · next hd =>
          cases h
          exact .stop (.inr (.inr (.inr ⟨hpc, rfl, rfl, hd⟩)))
      · obtain ⟨d, hd, rfl⟩ := dispatch_eq_some h
        exact .dispatcher hd (fun c hc => by cases hc) (fun c e hc => by cases hc)
          fun i e t c hw => by cases hw
  · cases h

theorem step_effect {a : Act} (h : step cfg s a = some s') : Effect cfg s a s' := by
  cases a with
  | call c =>
      rw [step] at h
      split at h
      · next hpc =>
          cases h
          exact .begin hpc
      · cases h
  | enqueue c expired => exact enqueueStep_effect h
  | work i expired throws => exact workStep_effect h
  | shutdown => exact shutdownStep_effect h

/-! ## The dispatcher in the queue -/

/-- The call of `Dispatch` in a call of `EnqueueTask`. -/
def EnqueuePc.fits (pc : EnqueuePc) (call : CallPc) : Prop :=
  match pc with
  | .idle | .runningTest | .refused => call = .idle
  | .dispatching => call ≠ .idle
  | .countEnqueued | .enqueued => call = .returned true
  | .countFailed | .rejected => call = .returned false

/-- What holds of the dispatcher and the threads of the queue in every run. -/
structure Inv (cfg : Config) (s : OrderedTaskQueue) : Prop where
  dispatcher : DispatcherInv cfg.dispatcher s.mDispatcher
  fits : ∀ c, (s.calls c).fits (s.mDispatcher.calls c)
  /-- The wrapper of a task that the dispatcher counts has returned. -/
  ran : ∀ c, s.mDispatcher.Ran c → ∃ threw, s.wrappers c = .done threw
  taken : ∀ c, s.wrappers c ≠ .task → c ∈ s.mDispatcher.taken
  running : s.shutdown = .idle ∨ s.shutdown = .runningTest → s.mIsRunning = true
  stopped : s.shutdown = .returned → s.mDispatcher.shutdown = .returned

theorem Inv.start (cfg : Config) : Inv cfg {} where
  dispatcher := dispatcherInv_init _
  fits := fun _ => rfl
  ran := fun c hc => by
    rcases hc with hc | ⟨i, b, hc⟩ <;> cases hc
  taken := fun c hc => absurd rfl hc
  running := fun _ => rfl
  stopped := fun h => by cases h

/-- A task once taken stays in the history. -/
theorem taken_isPrefix {cfg : DispatcherConfig} {d d' : KeyedDispatcher} {a : DispatcherAct}
    (h : dispatcherStep cfg d a = some d') : d.taken <+: d'.taken := by
  cases Concurrency.step_effect h with
  | take => exact List.prefix_append _ _
  | _ => exact List.prefix_rfl

/-- `Shutdown` of the dispatcher has returned for good. -/
theorem returned_stays {cfg : DispatcherConfig} {d d' : KeyedDispatcher} {a : DispatcherAct}
    (h : dispatcherStep cfg d a = some d') (hret : d.shutdown = .returned) :
    d'.shutdown = .returned := by
  cases Concurrency.step_effect h with
  | stopped hpc => rfl
  | finished hpc => rfl
  | stop hpc | exclude hpc | clear hpc =>
      rw [hret] at hpc
      cases hpc
  | closeQueue i hpc | closed i hpc | join i hpc | joined i hpc =>
      rw [hret] at hpc
      cases hpc
  | _ => exact hret

/-- A call of `Dispatch` that has begun does not become one that has not. -/
theorem calls_ne_idle {cfg : DispatcherConfig} {d d' : KeyedDispatcher} {c : Nat} {e : Bool}
    (h : dispatcherStep cfg d (.dispatch c e) = some d') : d'.calls c ≠ .idle := by
  have hset : ∀ {t : KeyedDispatcher} {pc : CallPc}, pc ≠ .idle →
      (t.setCall c pc).calls c ≠ .idle := fun hpc => by simpa [KeyedDispatcher.setCall] using hpc
  cases Concurrency.step_effect h with
  | pushing _ _ pc pc' q hpc hne hq hnew =>
      refine hset ?_
      rcases hnew with ⟨rfl, -⟩ | ⟨rfl, -⟩ | ⟨-, -, rfl | ⟨p, rfl, -⟩⟩ <;> simp
  | _ => exact hset (by simp)

/-- A step of the dispatcher that is not the beginning of a call. -/
theorem Inv.fits_dispatcher (h : Inv cfg s) {a : DispatcherAct} {d : KeyedDispatcher}
    (hd : dispatcherStep cfg.dispatcher s.mDispatcher a = some d) (hcall : ∀ c, a ≠ .call c)
    (hdispatch : ∀ c e, a = .dispatch c e → s.calls c = .dispatching) (c : Nat) :
    (s.calls c).fits (d.calls c) := by
  rcases (Concurrency.step_effect hd).calls_cases c with heq | heq | ⟨⟨e, rfl⟩, -, -⟩
  · rw [heq]
    exact h.fits c
  · exact absurd heq (hcall c)
  · rw [hdispatch c e rfl]
    exact calls_ne_idle hd

/-- The wrappers move no more than this. -/
theorem Inv.setWrapper (h : Inv cfg s) {i c : Nat} {pc : WrapperPc}
    (hwork : (s.mDispatcher.workers i).pc = .executing c)
    (hold : ∀ threw, s.wrappers c ≠ .done threw) (hd : s'.mDispatcher = s.mDispatcher)
    (hcalls : s'.calls = s.calls)
    (hw : s'.wrappers = Function.update s.wrappers c pc) (hrun : s'.mIsRunning = s.mIsRunning)
    (hstop : s'.shutdown = s.shutdown) : Inv cfg s' where
  dispatcher := hd ▸ h.dispatcher
  fits := by
    rw [hcalls, hd]
    exact h.fits
  ran := fun k hk => by
    rw [hd] at hk
    obtain ⟨threw, hdone⟩ := h.ran k hk
    by_cases hkc : k = c
    · subst hkc
      exact absurd hdone (hold threw)
    · rw [hw, Function.update_of_ne hkc]
      exact ⟨threw, hdone⟩
  taken := fun k hk => by
    rw [hd]
    by_cases hkc : k = c
    · subst hkc
      have hlane := h.dispatcher.pool.taken_eq i
      rw [show s.mDispatcher.pool.current i = some k by
        rw [KeyedDispatcher.pool]; exact congrArg WorkerPc.held hwork] at hlane
      have hmem : k ∈ FifoPool.onLane (workerOf cfg.dispatcher) i s.mDispatcher.pool.taken := by
        rw [hlane]
        exact List.mem_append_right _ List.mem_cons_self
      exact (FifoPool.mem_onLane.mp hmem).1
    · rw [hw, Function.update_of_ne hkc] at hk
      exact h.taken k hk
  running := by
    rw [hstop, hrun]
    exact h.running
  stopped := by
    rw [hstop, hd]
    exact h.stopped

/-- A call moves outside of `Dispatch`. -/
theorem Inv.setCall (h : Inv cfg s) {c : Nat} (pc : EnqueuePc)
    (hfits : pc.fits (s.mDispatcher.calls c)) (hd : s'.mDispatcher = s.mDispatcher)
    (hcalls : s'.calls = Function.update s.calls c pc) (hw : s'.wrappers = s.wrappers)
    (hrun : s'.mIsRunning = s.mIsRunning) (hstop : s'.shutdown = s.shutdown) : Inv cfg s' where
  dispatcher := hd ▸ h.dispatcher
  fits := fun k => by
    rw [hd, hcalls]
    by_cases hkc : k = c
    · subst hkc
      rwa [Function.update_self]
    · rw [Function.update_of_ne hkc]
      exact h.fits k
  ran := by
    rw [hd, hw]
    exact h.ran
  taken := by
    rw [hd, hw]
    exact h.taken
  running := by
    rw [hstop, hrun]
    exact h.running
  stopped := by
    rw [hstop, hd]
    exact h.stopped

theorem Effect.inv {act : Act} (he : Effect cfg s act s') (h : Inv cfg s) : Inv cfg s' := by
  have hfits : ∀ {c : Nat} {old : EnqueuePc}, s.calls c = old → old.fits (s.mDispatcher.calls c) :=
    fun {c} {_} hpc => hpc ▸ h.fits c
  cases he with
  | @dispatcher _ a d hd hcall hdispatch hwork =>
      exact {
        dispatcher := h.dispatcher.step hd
        fits := h.fits_dispatcher hd hcall hdispatch
        ran := fun c hc => by
          rcases (Concurrency.step_effect hd).ran_cases hc with hold | ⟨i, e, t, ha, hpc⟩
          · exact h.ran c hold
          · exact hwork i e t c ha hpc
        taken := fun c hc => (taken_isPrefix hd).subset (h.taken c hc)
        running := h.running
        stopped := fun hret => returned_stays hd (h.stopped hret) }
  | @dispatch c e d hpc hd =>
      have hstep := Concurrency.step_effect hd
      refine {
        dispatcher := h.dispatcher.step hd
        fits := fun k => ?_
        ran := fun k hk => ?_
        taken := fun k hk => (taken_isPrefix hd).subset (h.taken k hk)
        running := h.running
        stopped := fun hret => returned_stays hd (h.stopped hret) }
      · by_cases hkc : k = c
        · subst hkc
          cases hstep with
          | call _ _ => simp [OrderedTaskQueue.setCall, KeyedDispatcher.setCall, EnqueuePc.fits]
        · simp only [OrderedTaskQueue.setCall, Function.update_of_ne hkc]
          rcases hstep.calls_cases k with heq | heq | ⟨⟨e', he⟩, -⟩
          · rw [heq]
            exact h.fits k
          · exact absurd (DispatcherAct.call.inj heq).symm hkc
          · cases he
      · rcases hstep.ran_cases hk with hold | ⟨i, e, t, ha, -⟩
        · exact h.ran k hold
        · cases ha
  | @begin c hpc =>
      have hold := hfits hpc
      exact h.setCall .runningTest hold rfl rfl rfl rfl rfl
  | @refuse c e hpc =>
      have hold := hfits hpc
      exact h.setCall .refused hold rfl rfl rfl rfl rfl
  | @returned c e queued hpc hd =>
      refine h.setCall (if queued then .countEnqueued else .countFailed) ?_ rfl rfl rfl rfl rfl
      cases queued with
      | true => exact hd
      | false => exact hd
  | @enqueued c e hpc =>
      have hold := hfits hpc
      exact h.setCall .enqueued hold rfl rfl rfl rfl rfl
  | @rejected c e hpc =>
      have hold := hfits hpc
      exact h.setCall .rejected hold rfl rfl rfl rfl rfl
  | ended hwork hpc => exact h.setWrapper hwork (by simp [hpc]) rfl rfl rfl rfl rfl
  | processed hwork hpc => exact h.setWrapper hwork (by simp [hpc]) rfl rfl rfl rfl rfl
  | failed hwork hpc => exact h.setWrapper hwork (by simp [hpc]) rfl rfl rfl rfl rfl
  | @stop running pc hstop =>
      refine ⟨h.dispatcher, h.fits, h.ran, h.taken, fun hpc => ?_, fun hpc => ?_⟩
      · rcases hstop with ⟨hold, rfl, rfl⟩ | ⟨hold, rfl, rfl⟩ | ⟨-, -, rfl⟩ | ⟨-, -, rfl, -⟩
        · exact h.running (.inl hold)
        · exact h.running (.inr hold)
        · rcases hpc with hpc | hpc <;> cases hpc
        · rcases hpc with hpc | hpc <;> cases hpc
      · rcases hstop with ⟨-, -, rfl⟩ | ⟨hold, -, rfl⟩ | ⟨-, -, rfl⟩ | ⟨-, -, -, hret⟩
        · cases hpc
        · rw [h.running (.inr hold)] at hpc
          cases hpc
        · cases hpc
        · exact hret

/-! ## The counters -/

/-- What the counters count: the calls that have enqueued a task, those whose task the dispatcher
has rejected, and the tasks that have returned and those that have thrown. -/
structure Counts (s : OrderedTaskQueue) (enqueued rejected processed failed : List Nat) : Prop where
  isEnqueued : Lists (fun pc => decide (pc = .enqueued)) s.calls enqueued
  isRejected : Lists (fun pc => decide (pc = .rejected)) s.calls rejected
  isProcessed : Lists (fun pc => decide (pc = .done false)) s.wrappers processed
  isFailed : Lists (fun pc => decide (pc = .done true)) s.wrappers failed
  mTotalEnqueued : s.mTotalEnqueued = enqueued.length
  mTotalProcessed : s.mTotalProcessed = processed.length
  mTotalFailed : s.mTotalFailed = rejected.length + failed.length

theorem Counts.start : Counts {} [] [] [] [] where
  isEnqueued := lists_nil fun _ => rfl
  isRejected := lists_nil fun _ => rfl
  isProcessed := lists_nil fun _ => rfl
  isFailed := lists_nil fun _ => rfl
  mTotalEnqueued := rfl
  mTotalProcessed := rfl
  mTotalFailed := rfl

section
variable {enqueued rejected processed failed : List Nat}

/-- A call moves and is not counted. -/
theorem Counts.setCall (h : Counts s enqueued rejected processed failed) {c : Nat}
    {pc old : EnqueuePc} (hold : s.calls c = old)
    (hpc : decide (pc = .enqueued) = decide (old = .enqueued))
    (hpc' : decide (pc = .rejected) = decide (old = .rejected)) :
    Counts (s.setCall c pc) enqueued rejected processed failed :=
  { h with
    isEnqueued := h.isEnqueued.move (hold ▸ hpc)
    isRejected := h.isRejected.move (hold ▸ hpc') }

theorem Effect.counts {act : Act} (he : Effect cfg s act s')
    (h : Counts s enqueued rejected processed failed) :
    ∃ enqueued rejected processed failed, Counts s' enqueued rejected processed failed := by
  cases he with
  | dispatcher | stop =>
      exact ⟨enqueued, rejected, processed, failed, { h with }⟩
  | @dispatch c e d hpc hd =>
      have hset : Counts (s.setCall c .dispatching) enqueued rejected processed failed :=
        h.setCall hpc rfl rfl
      exact ⟨_, _, _, _, { hset with }⟩
  | begin hpc => exact ⟨_, _, _, _, h.setCall hpc rfl rfl⟩
  | refuse hpc => exact ⟨_, _, _, _, h.setCall hpc rfl rfl⟩
  | @returned c e queued hpc hd =>
      refine ⟨_, _, _, _, h.setCall hpc ?_ ?_⟩ <;> cases queued <;> rfl
  | @enqueued c e hpc =>
      exact ⟨enqueued ++ [c], rejected, processed, failed,
        { h with
          isEnqueued := h.isEnqueued.enter (by rw [hpc]; rfl) rfl
          isRejected := h.isRejected.move (by rw [hpc]; rfl)
          mTotalEnqueued := by rw [List.length_append, ← h.mTotalEnqueued]; rfl }⟩
  | @rejected c e hpc =>
      refine ⟨enqueued, rejected ++ [c], processed, failed,
        { h with
          isEnqueued := h.isEnqueued.move (by rw [hpc]; rfl)
          isRejected := h.isRejected.enter (by rw [hpc]; rfl) rfl
          mTotalFailed := ?_ }⟩
      have hfailed := h.mTotalFailed
      simp [OrderedTaskQueue.setCall]
      omega
  | @ended i c e threw hwork hpc =>
      exact ⟨enqueued, rejected, processed, failed,
        { h with
          isProcessed := h.isProcessed.move (by rw [hpc]; rfl)
          isFailed := h.isFailed.move (by rw [hpc]; rfl) }⟩
  | @processed i c e t hwork hpc =>
      exact ⟨enqueued, rejected, processed ++ [c], failed,
        { h with
          isProcessed := h.isProcessed.enter (by rw [hpc]; rfl) rfl
          isFailed := h.isFailed.move (by rw [hpc]; rfl)
          mTotalProcessed := by rw [List.length_append, ← h.mTotalProcessed]; rfl }⟩
  | @failed i c e t hwork hpc =>
      refine ⟨enqueued, rejected, processed, failed ++ [c],
        { h with
          isProcessed := h.isProcessed.move (by rw [hpc]; rfl)
          isFailed := h.isFailed.enter (by rw [hpc]; rfl) rfl
          mTotalFailed := ?_ }⟩
      have hfailed := h.mTotalFailed
      simp [OrderedTaskQueue.setWrapper]
      omega

end

/-! ## All runs -/

theorem inv_of_run {as : List Act} (hrun : Machine.run (step cfg) {} as = some s) : Inv cfg s :=
  Machine.run_invariant (fun _ _ _ h hs => (step_effect hs).inv h) (Inv.start cfg) hrun

theorem counts_of_run {as : List Act} (hrun : Machine.run (step cfg) {} as = some s) :
    ∃ enqueued rejected processed failed, Counts s enqueued rejected processed failed := by
  refine Machine.run_invariant (I := fun s => ∃ enqueued rejected processed failed,
    Counts s enqueued rejected processed failed) (fun s a s' h hs => ?_)
    ⟨_, _, _, _, Counts.start⟩ hrun
  obtain ⟨enqueued, rejected, processed, failed, h⟩ := h
  exact (step_effect hs).counts h

/-- The call is not on its way. -/
def EnqueuePc.settled : EnqueuePc → Bool
  | .idle | .refused | .enqueued | .rejected => true
  | _ => false

/-- The call has a place in the counters. -/
theorem EnqueuePc.eq_enqueued {pc : EnqueuePc} {call : CallPc} (hset : pc.settled = true)
    (hfits : pc.fits call) (hcall : call = .returned true) : pc = .enqueued := by
  subst hcall
  cases pc with
  | enqueued => rfl
  | idle | refused | rejected => cases hfits
  | _ => cases hset

theorem WrapperPc.ne_task {pc : WrapperPc} : pc ≠ .task ↔ (∃ threw, pc = .count threw) ∨
    pc = .done false ∨ pc = .done true := by
  rcases pc with _ | threw | threw
  · simp
  · simp
  · cases threw <;> simp

/-- The counters count calls and tasks, each at most once, and a task that is counted was pushed.
When `Shutdown` has returned, no task has been left in a queue and no call is on its way, the tasks
that have been processed or have failed are those that were enqueued.  So `mTotalEnqueued` and the
rejected calls together are `mTotalProcessed` and `mTotalFailed` together. -/
theorem queue_accounts {as : List Act} (hrun : Machine.run (step cfg) {} as = some s) :
    ∃ enqueued rejected processed failed,
      Counts s enqueued rejected processed failed ∧
      (∀ c ∈ processed ++ failed, c ∈ s.mDispatcher.pushed) ∧
      (s.shutdown = .returned → NothingLeft s.mDispatcher → (∀ c, (s.calls c).settled = true) →
        (processed ++ failed).Perm enqueued ∧
        s.mTotalEnqueued + rejected.length = s.mTotalProcessed + s.mTotalFailed) := by
  have h := inv_of_run hrun
  obtain ⟨enqueued, rejected, processed, failed, hc⟩ := counts_of_run hrun
  have hmem : ∀ c, c ∈ processed ++ failed ↔
      s.wrappers c = .done false ∨ s.wrappers c = .done true := by
    intro c
    rw [List.mem_append, hc.isProcessed.mem, hc.isFailed.mem, decide_eq_true_iff,
      decide_eq_true_iff]
  have hpushed : ∀ c ∈ processed ++ failed, c ∈ s.mDispatcher.pushed := fun c hcm =>
    h.dispatcher.pool.mem_accepted_of_taken
      (h.taken c (WrapperPc.ne_task.mpr (.inr ((hmem c).mp hcm))))
  refine ⟨enqueued, rejected, processed, failed, hc, hpushed, fun hstop hleft hset => ?_⟩
  have hret := h.stopped hstop
  have hnodup : (processed ++ failed).Nodup := by
    refine List.nodup_append'.mpr ⟨hc.isProcessed.nodup, hc.isFailed.nodup, fun c hp hf => ?_⟩
    have hfalse := of_decide_eq_true ((hc.isProcessed.mem c).mp hp)
    have htrue := of_decide_eq_true ((hc.isFailed.mem c).mp hf)
    rw [hfalse] at htrue
    cases htrue
  have hperm : (processed ++ failed).Perm enqueued := by
    refine (List.perm_ext_iff_of_nodup hnodup hc.isEnqueued.nodup).mpr fun c => ?_
    rw [hc.isEnqueued.mem, decide_eq_true_iff]
    constructor
    · intro hcm
      have hcall := (h.dispatcher.pushed_iff hret c).mp (hpushed c hcm)
      exact EnqueuePc.eq_enqueued (hset c) (h.fits c) hcall
    · intro hcall
      have hfits := h.fits c
      rw [hcall] at hfits
      have hfinished := h.dispatcher.once hret hleft hfits
      obtain ⟨threw, hdone⟩ :=
        h.ran c (.inl (List.count_pos_iff.mp (by rw [hfinished]; exact Nat.one_pos)))
      refine (hmem c).mpr ?_
      cases threw with
      | true => exact .inr hdone
      | false => exact .inl hdone
  refine ⟨hperm, ?_⟩
  have hlength := hperm.length_eq
  rw [List.length_append] at hlength
  rw [hc.mTotalEnqueued, hc.mTotalProcessed, hc.mTotalFailed]
  omega

/-- One worker, and tasks for the server 7. -/
def oneServer : Config := ⟨1, Nat.one_pos, fun _ => 7⟩

/-- A task is enqueued and processed, and then `Shutdown` runs through. -/
def drainedTrace : List Act :=
  List.flatten
    [[.call 0], List.replicate 15 (.enqueue 0 false), List.replicate 9 (.work 0 false false),
      List.replicate 6 .shutdown, List.replicate 9 (.work 0 true false), List.replicate 6 .shutdown]

/-- A call that has not been made, and is not made by the step. -/
theorem Effect.calls_idle {act : Act} (he : Effect cfg s act s') {c : Nat} (hc : act ≠ .call c)
    (h : s.calls c = .idle) : s'.calls c = .idle := by
  have hset : ∀ {d : Nat} {pc old : EnqueuePc}, s.calls d = old → old ≠ .idle →
      Function.update s.calls d pc c = .idle := by
    intro d pc old hd hold
    have hcd : c ≠ d := fun hcd => hold (hd.symm.trans (hcd ▸ h))
    rwa [Function.update_of_ne hcd]
  cases he with
  | @begin d hpc =>
      have hcd : c ≠ d := fun hcd => hc (congrArg Act.call hcd.symm)
      exact (Function.update_of_ne hcd ..).trans h
  | dispatch hpc hd => exact hset hpc (by simp)
  | refuse hpc => exact hset hpc (by simp)
  | returned hpc hd => exact hset hpc (by simp)
  | enqueued hpc => exact hset hpc (by simp)
  | rejected hpc => exact hset hpc (by simp)
  | _ => exact h

/-- A call that nobody makes. -/
theorem calls_of_notMem {as : List Act} (hrun : Machine.run (step cfg) {} as = some s) {c : Nat}
    (hc : .call c ∉ as) : s.calls c = .idle := by
  have hother : ∀ a ∈ as, a ≠ .call c := by
    rintro a ha rfl
    exact hc ha
  have hok : Machine.Meets (step cfg) (fun _ a => a ≠ .call c) {} as :=
    Machine.Meets.of_forall_mem hother _
  exact Machine.run_invariant_of_meets (I := fun s : OrderedTaskQueue => s.calls c = .idle)
    (fun _ _ _ h hok hs => (step_effect hs).calls_idle hok h) rfl hok hrun

/-- The task has been enqueued and processed when `Shutdown` returns. -/
theorem queue_accounts_drained :
    ∃ s, Machine.run (step oneServer) {} drainedTrace = some s ∧ s.mTotalEnqueued = 1 ∧
      s.mTotalProcessed = 1 ∧
      ∃ enqueued rejected processed failed,
        Counts s enqueued rejected processed failed ∧ (processed ++ failed).Perm enqueued := by
  have hrun : (Machine.run (step oneServer) {} drainedTrace).any (fun s =>
      decide (s.shutdown = .returned ∧ s.mTotalEnqueued = 1 ∧ s.mTotalProcessed = 1 ∧
        s.calls 0 = .enqueued ∧ s.mDispatcher.finished = [0])) = true := by decide +kernel
  obtain ⟨s, hs, hp⟩ := (Option.any_eq_true _ _).mp hrun
  obtain ⟨hstop, henqueued, hprocessed, hcall, hfinished⟩ := of_decide_eq_true hp
  obtain ⟨enqueued, rejected, processed, failed, hc, -, hquiet⟩ := queue_accounts hs
  have h := inv_of_run hs
  have hidle : ∀ c, c ≠ 0 → s.calls c = .idle := fun c hc0 =>
    calls_of_notMem hs (by simp [drainedTrace, hc0])
  refine ⟨s, hs, henqueued, hprocessed, enqueued, rejected, processed, failed, hc,
    (hquiet hstop (h.dispatcher.nothingLeft (h.stopped hstop) fun c hret => ?_) fun c => ?_).1⟩
  · by_cases hc0 : c = 0
    · rw [hfinished, hc0]
      rfl
    · have hfits := h.fits c
      rw [hidle c hc0, hret] at hfits
      cases hfits
  · by_cases hc0 : c = 0
    · rw [hc0, hcall]
      rfl
    · rw [hidle c hc0]
      rfl

end

end NetworkModule.OrderedTasks
