import NetworkModule.Lib.Tally
import NetworkModule.TestServer.DBTaskQueue

/-!
# What a shut-down DBTaskQueue has done

`ProcessedOnce` states the contract of the queue.  When `Shutdown` and all
`EnqueueTask` calls have returned, the callback of every task has been invoked exactly
once, and the accepted tasks of a session were processed in the order they were pushed.
Two tasks of one session are never in `ProcessTask` together.

A call loads `mIsRunning` again under the lock of the worker, and then pushes.
`Shutdown` clears the flag, joins the worker and drains its queue without that lock, so
the push may come after the drain.  Then the task stays in the queue for ever.
`processedOnce_iff_beforeDrain` says that nothing else breaks the contract.
-/

namespace NetworkModule.TestServer

open NetworkModule.Wal (DBTask DbAnswer)
open Tally (Lists)

section
variable (cfg : QueueConfig)

/-! ## The contract -/

/-- The calls of one session in a history. -/
def ofSession (sid : ConnectionId) (l : List Nat) : List Nat :=
  l.filter fun c => (cfg.args c).sessionId = sid

/-- `Shutdown` and all `EnqueueTask` calls have returned. -/
def DBTaskQueue.Returned (s : DBTaskQueue) : Prop :=
  s.shutdown = .returned ∧ ∀ c, s.calls c = .idle ∨ ∃ accepted, s.calls c = .returned accepted

/-- The task in `ProcessTask`, called by the worker's thread or by `Shutdown` for the
worker. -/
def WorkerPc.processing : WorkerPc → Option Nat
  | .running c pc | .draining _ c pc => if pc.inProcess then some c else none
  | _ => none

/-- The contract of the queue. -/
structure ProcessedOnce (s : DBTaskQueue) : Prop where
  /-- The callback of a task is invoked exactly once, if there is one. -/
  once : s.Returned → ∀ c, s.calls c ≠ .idle →
    (s.callbacks.map (·.1)).count c = (cfg.args c).hasCallback.toNat
  /-- The accepted tasks of a session are processed in the order they were pushed. -/
  inOrder : s.Returned → ∀ sid, ofSession cfg sid s.finished = ofSession cfg sid s.pushed
  /-- Two tasks of one session are not processed together. -/
  noOverlap : ∀ i j c d, (s.workers i).pc.processing = some c →
    (s.workers j).pc.processing = some d → (cfg.args c).sessionId = (cfg.args d).sessionId →
    i = j ∧ c = d

/-- A call does not push to a queue that `Shutdown` has found empty. -/
def beforeDrain (s : DBTaskQueue) : QueueAct → Bool
  | .enqueue c => s.calls c ≠ .push || !(s.workers (workerIndex cfg c)).pc.emptied
  | _ => true

/-! ## Invariants -/

/-- What holds in every state of the queue. -/
structure QueueInv (s : DBTaskQueue) : Prop where
  pool : FifoPool.Inv (workerIndex cfg) s.pool
  /-- `pushed` lists the calls whose task was pushed. -/
  pushed : Lists CallPc.accepted s.calls s.pushed
  /-- `rejected` lists the calls whose task was rejected. -/
  rejected : Lists CallPc.rejected s.calls s.rejected
  /-- A callback is invoked when its task is rejected or processed. -/
  callbacks : ∀ c, (s.callbacks.map (·.1)).count c =
    if (cfg.args c).hasCallback then s.rejected.count c + s.finished.count c else 0
  running : s.shutdown = .idle → s.mIsRunning = true
  drained : ∀ i, i < s.shutdown.drained cfg → (s.workers i).pc = .drained

theorem queueInv_init : QueueInv cfg {} where
  pool := FifoPool.inv_empty _
  pushed := Tally.lists_nil fun _ => rfl
  rejected := Tally.lists_nil fun _ => rfl
  callbacks := fun c => by simp
  running := fun _ => rfl
  drained := fun i hi => absurd hi (Nat.not_lt_zero i)

end

section
variable {cfg : QueueConfig} {s s' : DBTaskQueue} {a : QueueAct}

theorem Effect.pushed (h : Effect cfg s a s') (hI : Lists CallPc.accepted s.calls s.pushed) :
    Lists CallPc.accepted s'.calls s'.pushed := by
  cases h with
  | move _ c seq pc walSeq wal mutexes _ ha _ _ _ => exact hI.move ha
  | push c hpc => exact hI.enter (by simp [hpc, CallPc.accepted]) rfl
  | reject c text hpc => exact hI.move (by simp [hpc, CallPc.accepted])
  | _ => exact hI

theorem Effect.rejected (h : Effect cfg s a s') (hI : Lists CallPc.rejected s.calls s.rejected) :
    Lists CallPc.rejected s'.calls s'.rejected := by
  cases h with
  | move _ c seq pc walSeq wal mutexes _ _ hr _ _ => exact hI.move hr
  | push c hpc => exact hI.move (by simp [hpc, CallPc.rejected])
  | reject c text hpc => exact hI.enter (by simp [hpc, CallPc.rejected]) rfl
  | _ => exact hI

/-- The callbacks of a call after one of `c` was invoked. -/
theorem count_invoke (s : DBTaskQueue) (c d : Nat) (success : Bool) (result : String) :
    ((s.invoke cfg c success result).callbacks.map (·.1)).count d =
      (s.callbacks.map (·.1)).count d +
        if (cfg.args d).hasCallback then [c].count d else 0 := by
  simp only [DBTaskQueue.invoke, List.map_append, List.count_append]
  congr 1
  by_cases hcd : c = d
  · subst hcd
    split <;> simp
  · split <;> simp [hcd]

theorem Effect.callbacks (h : Effect cfg s a s')
    (hI : ∀ c, (s.callbacks.map (·.1)).count c =
      if (cfg.args c).hasCallback then s.rejected.count c + s.finished.count c else 0) (d : Nat) :
    (s'.callbacks.map (·.1)).count d =
      if (cfg.args d).hasCallback then s'.rejected.count d + s'.finished.count d else 0 := by
  cases h with
  | reject c text hpc =>
      show ((DBTaskQueue.invoke cfg _ c false text).callbacks.map (·.1)).count d =
        if (cfg.args d).hasCallback then (s.rejected ++ [c]).count d + s.finished.count d else 0
      rw [count_invoke, hI d, List.count_append]
      split <;> omega
  | finish _ i c success result w =>
      show ((DBTaskQueue.invoke cfg _ c success result).callbacks.map (·.1)).count d =
        if (cfg.args d).hasCallback then s.rejected.count d + (s.finished ++ [c]).count d else 0
      rw [count_invoke, hI d, List.count_append]
      split <;> omega
  | _ => exact hI d

/-- A worker that `Shutdown` is done with does not move. -/
theorem Effect.drained_worker (h : Effect cfg s a s') {i : Nat}
    (hd : (s.workers i).pc = .drained) : (s'.workers i).pc = .drained := by
  have hother : ∀ {t : DBTaskQueue} {k : Nat} {w : WorkerData}, t.workers = s.workers →
      WorkerMove (s.workers k) w → ((t.setWorker k w).workers i).pc = .drained := by
    intro t k w ht hm
    have hik : i ≠ k := fun hik => hm.live (hik ▸ hd)
    rw [DBTaskQueue.setWorker, ht]
    simp only [Function.update_of_ne hik]
    exact hd
  cases h with
  | push c hpc =>
      by_cases hi : i = workerIndex cfg c
      · subst hi
        simp [DBTaskQueue.setWorker, DBTaskQueue.setCall, hd]
      · simp [DBTaskQueue.setWorker, DBTaskQueue.setCall, hd, hi]
  | idle _ k w wal mutexes _ hm => exact hother rfl hm
  | take _ k c w _ hm => exact hother rfl hm
  | finish _ k c success result w _ hm => exact hother rfl hm
  | _ => exact hd

theorem Effect.drained (h : Effect cfg s a s') (hI : QueueInv cfg s) :
    ∀ i, i < s'.shutdown.drained cfg → (s'.workers i).pc = .drained := by
  have hkeep : ∀ i, i < s.shutdown.drained cfg → (s'.workers i).pc = .drained :=
    fun i hi => h.drained_worker (hI.drained i hi)
  cases h with
  | shut _ pc running _ _ hd =>
      intro i hi
      exact (hd hI.running i hi).elim (hI.drained i) id
  | _ => exact hkeep

theorem Effect.running (h : Effect cfg s a s') (hI : s.shutdown = .idle → s.mIsRunning = true) :
    s'.shutdown = .idle → s'.mIsRunning = true := by
  cases h with
  | shut _ pc running _ hpc => exact fun hidle => absurd hidle hpc
  | _ => exact hI

/-- Every step keeps the invariant. -/
theorem QueueInv.step (hI : QueueInv cfg s) (hs : queueStep cfg s a = some s') :
    QueueInv cfg s' := by
  have h := queueStep_effect hs
  obtain ⟨bs, hbs⟩ := h.pool_run
  exact {
    pool := FifoPool.run_inv hI.pool hbs
    pushed := h.pushed hI.pushed
    rejected := h.rejected hI.rejected
    callbacks := h.callbacks hI.callbacks
    running := h.running hI.running
    drained := h.drained hI }

/-! ## Tasks left behind -/

/-- No task is in a queue that `Shutdown` has found empty. -/
def NothingLeft (s : DBTaskQueue) : Prop :=
  ∀ i, (s.workers i).pc.emptied = true → (s.workers i).taskQueue = []

/-- A lane that a worker or `Shutdown` has moved, and the others. -/
theorem nothingLeft_setWorker {t : DBTaskQueue} {k : Nat} {w : WorkerData}
    (ht : t.workers = s.workers) (hm : WorkerMove (s.workers k) w) (hI : NothingLeft s) :
    NothingLeft (t.setWorker k w) := by
  intro i he
  by_cases hik : i = k
  · subst hik
    simp only [DBTaskQueue.setWorker, Function.update_self] at he ⊢
    rcases hm.left he with hold | hq
    · rw [(hm.kept hold).2]
      exact hI i hold
    · exact hq
  · simp only [DBTaskQueue.setWorker, Function.update_of_ne hik, ht] at he ⊢
    exact hI i he

/-- A push before the drain leaves nothing behind, and nothing else does. -/
theorem Effect.nothingLeft (h : Effect cfg s a s') (hok : beforeDrain cfg s a = true)
    (hI : NothingLeft s) : NothingLeft s' := by
  cases h with
  | push c hpc =>
      intro i he
      by_cases hi : i = workerIndex cfg c
      · subst hi
        simp [DBTaskQueue.setWorker, DBTaskQueue.setCall] at he
        simp [beforeDrain, hpc, he] at hok
      · simp [DBTaskQueue.setWorker, DBTaskQueue.setCall, hi] at he ⊢
        exact hI i he
  | idle _ k w wal mutexes _ hm =>
      exact nothingLeft_setWorker (t := { s with wal := wal, mutexes := mutexes }) rfl hm hI
  | take _ k c w _ hm =>
      exact nothingLeft_setWorker (t := { s with taken := s.taken ++ [c] }) rfl hm hI
  | finish _ k c success result w _ hm =>
      exact nothingLeft_setWorker
        (t := { s with finished := s.finished ++ [c] }.invoke cfg c success result) rfl hm hI
  | _ => exact hI

/-- A push after the drain leaves its task behind. -/
theorem Effect.left (h : Effect cfg s a s') (hok : beforeDrain cfg s a = false) :
    ¬ NothingLeft s' := by
  intro hI
  cases a with
  | enqueue c =>
      simp only [beforeDrain, ne_eq, decide_not, Bool.or_eq_false_iff, Bool.not_eq_false',
        decide_eq_true_eq] at hok
      obtain ⟨hpc, he⟩ := hok
      cases h with
      | move _ d seq pc walSeq wal mutexes hne _ _ hd _ =>
          rw [hd c rfl] at hpc
          exact hne hpc
      | push =>
          have hq := hI (workerIndex cfg c) (by
            simpa [DBTaskQueue.setWorker, DBTaskQueue.setCall] using he)
          simp [DBTaskQueue.setWorker, DBTaskQueue.setCall] at hq
      | reject _ text hpc' => simp [hpc] at hpc'
      | idle _ _ _ _ _ hno => exact hno c rfl
      | take _ _ _ _ hno => exact hno c rfl
      | finish _ _ _ _ _ _ hno => exact hno c rfl
      | shut _ _ _ hno => exact hno c rfl
  | _ => simp [beforeDrain] at hok

/-- What has been left behind stays behind. -/
theorem Effect.left_stable (h : Effect cfg s a s') (hI : ¬ NothingLeft s) : ¬ NothingLeft s' := by
  intro hI'
  refine hI fun i he => ?_
  have hmove : ∀ {t : DBTaskQueue} {k : Nat} {w : WorkerData}, t.workers = s.workers →
      WorkerMove (s.workers k) w → NothingLeft (t.setWorker k w) → (s.workers i).taskQueue = [] := by
    intro t k w ht hm hleft
    have hi := hleft i
    by_cases hik : i = k
    · subst hik
      simp only [DBTaskQueue.setWorker, Function.update_self] at hi
      rw [← (hm.kept he).2]
      exact hi (hm.kept he).1
    · simp only [DBTaskQueue.setWorker, Function.update_of_ne hik, ht] at hi
      exact hi he
  cases h with
  | push c hpc =>
      have hi := hI' i
      by_cases hik : i = workerIndex cfg c
      · subst hik
        simp [DBTaskQueue.setWorker, DBTaskQueue.setCall, he] at hi
      · simp [DBTaskQueue.setWorker, DBTaskQueue.setCall, hik, he] at hi
        exact hi
  | idle _ k w wal mutexes _ hm => exact hmove rfl hm hI'
  | take _ k c w _ hm => exact hmove rfl hm hI'
  | finish _ k c success result w _ hm => exact hmove rfl hm hI'
  | _ => exact hI' i he

/-- A run leaves nothing behind exactly when no push comes after its drain. -/
theorem nothingLeft_iff_beforeDrain {as : List QueueAct}
    (hrun : Machine.run (queueStep cfg) {} as = some s) :
    NothingLeft s ↔ Machine.Meets (queueStep cfg) (fun s a => beforeDrain cfg s a) {} as := by
  constructor
  · intro hs
    refine Machine.meets_of_run (I := fun _ => True) (B := fun s => ¬ NothingLeft s)
      (fun _ _ _ _ _ => trivial) ?_ ?_ trivial hrun (not_not_intro hs)
    · exact fun _ _ _ _ hno hstep => (queueStep_effect hstep).left (by simpa using hno)
    · exact fun _ _ _ _ hB hstep => (queueStep_effect hstep).left_stable hB
  · intro hok
    refine Machine.run_invariant_of_meets ?_ ?_ hok hrun
    · exact fun _ _ _ hI hok hstep => (queueStep_effect hstep).nothingLeft hok hI
    · intro i he
      cases he

/-! ## The contract holds exactly in these runs -/

theorem WorkerPc.held_of_processing {pc : WorkerPc} {c : Nat} (h : pc.processing = some c) :
    pc.held = some c := by
  cases pc <;> simp_all [WorkerPc.processing, WorkerPc.held]

theorem QueueInv.noOverlap (hI : QueueInv cfg s) {i j c d : Nat}
    (hc : (s.workers i).pc.processing = some c) (hd : (s.workers j).pc.processing = some d)
    (hsid : (cfg.args c).sessionId = (cfg.args d).sessionId) : i = j ∧ c = d := by
  have h1 : workerIndex cfg c = i := hI.pool.current_lane (WorkerPc.held_of_processing hc)
  have h2 : workerIndex cfg d = j := hI.pool.current_lane (WorkerPc.held_of_processing hd)
  have hij : i = j := by rw [← h1, ← h2, workerIndex, workerIndex, hsid]
  subst hij
  rw [hc] at hd
  exact ⟨rfl, Option.some.inj hd⟩

/-- When `Shutdown` has returned and nothing was left behind, the lanes are at rest. -/
theorem QueueInv.finished_eq (hI : QueueInv cfg s) (hret : s.shutdown = .returned)
    (hleft : NothingLeft s) (c : Nat) :
    FifoPool.onLane (workerIndex cfg) (workerIndex cfg c) s.finished =
      FifoPool.onLane (workerIndex cfg) (workerIndex cfg c) s.pushed := by
  have hlt : workerIndex cfg c < cfg.workerCount := Nat.mod_lt _ cfg.workerCount_pos
  have hd : (s.workers (workerIndex cfg c)).pc = .drained := hI.drained _ (by rw [hret]; exact hlt)
  have hq : s.pool.queue (workerIndex cfg c) = [] := by
    have := hleft _ (by rw [hd]; rfl)
    simp [DBTaskQueue.pool, hd, WorkerPc.collected, this]
  have hc : s.pool.current (workerIndex cfg c) = none := by
    simp [DBTaskQueue.pool, hd, WorkerPc.held]
  have ha := hI.pool.accepted_eq (workerIndex cfg c)
  have ht := hI.pool.taken_eq (workerIndex cfg c)
  rw [hq, List.append_nil, ht, hc, Option.toList_none, List.append_nil] at ha
  exact ha.symm

theorem QueueInv.once (hI : QueueInv cfg s) (hret : s.Returned) (hleft : NothingLeft s) {c : Nat}
    (hc : s.calls c ≠ .idle) :
    (s.callbacks.map (·.1)).count c = (cfg.args c).hasCallback.toNat := by
  obtain ⟨accepted, hpc⟩ := (hret.2 c).resolve_left hc
  have hfin : s.finished.count c = s.pushed.count c := by
    rw [← FifoPool.count_onLane (workerIndex cfg) c, hI.finished_eq hret.1 hleft c,
      FifoPool.count_onLane]
  rw [hI.callbacks c, hfin, hI.pushed.count c, hI.rejected.count c, hpc]
  cases accepted <;> cases (cfg.args c).hasCallback <;> rfl

/-- The calls of a session are calls of its worker. -/
theorem ofSession_onLane (c : Nat) (l : List Nat) :
    ofSession cfg (cfg.args c).sessionId (FifoPool.onLane (workerIndex cfg) (workerIndex cfg c) l) =
      ofSession cfg (cfg.args c).sessionId l := by
  rw [ofSession, ofSession, FifoPool.onLane, List.filter_filter]
  refine List.filter_congr fun d _ => ?_
  by_cases hd : (cfg.args d).sessionId = (cfg.args c).sessionId
  · simp [hd, workerIndex]
  · simp [hd]

theorem QueueInv.inOrder (hI : QueueInv cfg s) (hret : s.shutdown = .returned)
    (hleft : NothingLeft s) (sid : ConnectionId) :
    ofSession cfg sid s.finished = ofSession cfg sid s.pushed := by
  by_cases hsid : ∃ c, (cfg.args c).sessionId = sid
  · obtain ⟨c, rfl⟩ := hsid
    rw [← ofSession_onLane c s.finished, hI.finished_eq hret hleft c, ofSession_onLane]
  · -- No call is of this session.
    have hnone : ∀ l : List Nat, ofSession cfg sid l = [] := fun l =>
      List.filter_eq_nil_iff.mpr fun c _ => by simpa using fun hc => hsid ⟨c, hc⟩
    rw [hnone, hnone]

/-- If the accepted tasks have been processed, then nothing was left behind. -/
theorem QueueInv.nothingLeft (hI : QueueInv cfg s)
    (horder : ∀ sid, ofSession cfg sid s.finished = ofSession cfg sid s.pushed) :
    NothingLeft s := by
  intro i _
  by_contra hne
  obtain ⟨c, hc⟩ := List.exists_mem_of_ne_nil _ hne
  have hlt : s.finished.count c < s.pushed.count c :=
    hI.pool.count_lt (i := i) (List.mem_append_right _ hc)
  have hcount : ∀ l : List Nat, (ofSession cfg (cfg.args c).sessionId l).count c = l.count c :=
    fun l => by simp [ofSession, List.count_filter]
  rw [← hcount s.finished, ← hcount s.pushed, horder] at hlt
  exact absurd hlt (lt_irrefl _)

/-- A run keeps the contract exactly when `Shutdown` or a call has not returned or no
task was pushed to a queue that `Shutdown` had found empty. -/
theorem processedOnce_iff_beforeDrain (cfg : QueueConfig) (as : List QueueAct) (s : DBTaskQueue)
    (hrun : Machine.run (queueStep cfg) {} as = some s) :
    ProcessedOnce cfg s ↔ (s.Returned →
      Machine.Meets (queueStep cfg) (fun s a => beforeDrain cfg s a) {} as) := by
  have hI : QueueInv cfg s :=
    Machine.run_invariant (fun _ _ _ hI hs => hI.step hs) (queueInv_init cfg) hrun
  rw [← nothingLeft_iff_beforeDrain hrun]
  constructor
  · exact fun h hret => hI.nothingLeft (h.inOrder hret)
  · intro hleft
    exact {
      once := fun hret c hc => hI.once hret (hleft hret) hc
      inOrder := fun hret => hI.inOrder hret.1 (hleft hret)
      noOverlap := fun i j c d hc hd => hI.noOverlap hc hd }

end

/-- One worker, and tasks of the session 7 with callbacks. -/
def oneWorker : QueueConfig := ⟨1, Nat.one_pos, fun _ => ⟨0, .updatePlayerData, 7, [], true, 0⟩⟩

/-- The worker processes one task, `Shutdown` drains another, and a third is rejected. -/
def drainedTrace : List QueueAct :=
  List.flatten
    [[.call 0], List.replicate 8 (.enqueue 0), List.replicate 8 (.work 0 .ok), [.call 1],
      List.replicate 8 (.enqueue 1), List.replicate 2 (.shutdown .ok), [.work 0 .ok, .call 2],
      List.replicate 2 (.enqueue 2), List.replicate 13 (.shutdown .ok)]

theorem processedOnce_drainedTrace :
    ∃ s, Machine.run (queueStep oneWorker) {} drainedTrace = some s ∧ s.shutdown = .returned ∧
      s.callbacks.map (·.1) = [0, 2, 1] ∧ ProcessedOnce oneWorker s :=
  ⟨_, rfl, rfl, rfl,
    (processedOnce_iff_beforeDrain oneWorker drainedTrace _ rfl).mpr fun _ => by decide⟩

/-- A call has found `mIsRunning` set under the lock and is about to push.  `Shutdown`
clears the flag, the worker leaves at the head of its loop, and the drain finds nothing. -/
def pushAfterDrainTrace : List QueueAct :=
  List.flatten
    [[.call 0], List.replicate 5 (.enqueue 0), List.replicate 2 (.shutdown .ok), [.work 0 .ok],
      List.replicate 8 (.shutdown .ok), List.replicate 3 (.enqueue 0)]

/-- Everybody has returned, and the callback was not invoked. -/
theorem not_processedOnce_pushAfterDrainTrace :
    ∃ s, Machine.run (queueStep oneWorker) {} pushAfterDrainTrace = some s ∧
      s.shutdown = .returned ∧ s.calls 0 = .returned true ∧ s.callbacks = [] ∧
      ¬ ProcessedOnce oneWorker s := by
  refine ⟨_, rfl, rfl, rfl, rfl, fun h => ?_⟩
  have hone := h.once ⟨rfl, fun c => ?_⟩ 0 (by decide)
  · exact absurd hone (by decide)
  · cases c with
    | zero => exact .inr ⟨true, rfl⟩
    | succ c => exact .inl rfl

end NetworkModule.TestServer
