import NetworkModule.Lib.Tally
import NetworkModule.Concurrency.KeyedDispatcher

/-!
# What a shut-down dispatcher has done

`Delivers` states the contract of `KeyedDispatcher`: every task for which
`Dispatch` returned `true` has run exactly once when `Shutdown` returns, the
tasks of one key run in the order they were pushed and never overlap, and the
counters add up.

Order and absence of overlap hold in every run.  The rest depends on how the
threads interleave.  `Dispatch` tests `mRunning` before it pushes, and a worker
decides to exit from `mRunning` and the size mirror, without the queue's lock.
A task may thus be pushed to a worker that has left, or stand in the queue of a
worker that leaves because `mSize` has not been raised yet.  `lossless` names
the two steps, and `delivers_iff_lossless` says that a run keeps the contract
exactly when it takes neither.
-/

namespace NetworkModule.Concurrency

open Tally (tally)

section
variable (cfg : DispatcherConfig)

/-! ## The contract -/

/-- The calls of one key in a history. -/
def ofKey (key : UInt64) (l : List Nat) : List Nat := l.filter fun c => (cfg.args c).key = key

/-- The contract of the dispatcher. -/
structure Delivers (s : KeyedDispatcher) : Prop where
  /-- An accepted task has run exactly once when `Shutdown` has returned. -/
  once : s.shutdown = .returned → ∀ c, s.calls c = .returned true → s.finished.count c = 1
  /-- Tasks of one key are taken and finished in the order they were pushed. -/
  inOrder : ∀ key, ofKey cfg key s.finished <+: ofKey cfg key s.taken ∧
    ofKey cfg key s.taken <+: ofKey cfg key s.pushed
  /-- Two workers never run tasks of one key. -/
  noOverlap : ∀ i j c d, (s.workers i).pc = .executing c → (s.workers j).pc = .executing d →
    (cfg.args c).key = (cfg.args d).key → i = j
  /-- The counters add up when `Shutdown` has returned. -/
  counts : s.shutdown = .returned → s.mCompleted + s.mFailed = s.mSubmitted

/-- A step loses no task: a call does not append to the queue of a worker that
has left its loop, and a worker does not leave on an `Empty()` that is not true
of the queue. -/
def lossless (s : KeyedDispatcher) : DispatcherAct → Bool
  | .dispatch c _ =>
      s.calls c ≠ .pushing .push || (s.workers (workerOf cfg c)).pc ≠ .exited
  | .work i _ _ =>
      (s.workers i).pc ≠ .emptyTest || !(s.workers i).mQueue.empty ||
        (s.workers i).mQueue.mQueue.isEmpty
  | _ => true

/-! ## Calls -/

/-- The call holds `mWorkersMutex`. -/
def CallPc.inside : CallPc → Bool
  | .runningTest | .pushing _ | .countSubmitted | .countRejected | .sharedUnlock _ => true
  | .idle | .sharedLock | .returned _ => false

/-- The task of the call has been pushed. -/
def CallPc.accepted : CallPc → Bool
  | .pushing .count | .pushing (.unlock true) | .countSubmitted => true
  | .sharedUnlock r | .returned r => r
  | _ => false

/-- The task of the call has been counted in `mSubmitted`. -/
def CallPc.counted : CallPc → Bool
  | .sharedUnlock r | .returned r => r
  | _ => false

/-- The call can still bring a task or has one to report. -/
def CallPc.bringing : CallPc → Bool
  | .pushing _ | .countSubmitted => true
  | .sharedUnlock r => r
  | _ => false

theorem CallPc.accepted_pushing {p : PushPc} (h1 : p ≠ .count) (h2 : p ≠ .unlock true) :
    (CallPc.pushing p).accepted = false := by
  cases p with
  | count => exact absurd rfl h1
  | unlock r =>
      cases r with
      | true => exact absurd rfl h2
      | false => rfl
  | _ => rfl

theorem CallPc.inside_of_bringing {pc : CallPc} (h : pc.bringing = true) : pc.inside = true := by
  cases pc <;> simp_all [CallPc.bringing, CallPc.inside]

/-- An accepted call that brings nothing any more has returned `true`. -/
theorem CallPc.eq_returned_of_accepted {pc : CallPc} (ha : pc.accepted = true)
    (hb : pc.bringing = false) : pc = .returned true := by
  cases pc <;> simp_all [CallPc.accepted, CallPc.bringing]

/-- What the places of the calls say about the lock, the history of pushes and
`mSubmitted`. -/
structure CallInv (calls : Nat → CallPc) (shared pushed : List Nat) (mSubmitted : Nat) : Prop where
  /-- `shared` lists the calls inside the lock. -/
  inside : ∀ c, c ∈ shared ↔ (calls c).inside = true
  shared_nodup : shared.Nodup
  /-- `pushed` lists the calls whose task was pushed. -/
  accepted : ∀ c, c ∈ pushed ↔ (calls c).accepted = true
  pushed_nodup : pushed.Nodup
  submitted : mSubmitted = tally CallPc.counted calls pushed

end

section
variable {calls : Nat → CallPc} {shared pushed : List Nat} {n c : Nat}

/-- A list that names the threads whose place satisfies a test still does after
one thread moved, if the list changed by that thread in the same way. -/
theorem mem_iff_update {p : CallPc → Bool} {pc : CallPc} {l l' : List Nat}
    (h : ∀ d, d ∈ l ↔ p (calls d) = true) (hc : c ∈ l' ↔ p pc = true)
    (hd : ∀ d, d ≠ c → (d ∈ l' ↔ d ∈ l)) (d : Nat) :
    d ∈ l' ↔ p (Function.update calls c pc d) = true := by
  by_cases he : d = c
  · subst he
    rw [Function.update_self]
    exact hc
  · rw [Function.update_of_ne he, hd d he]
    exact h d

/-- A move that keeps the lock, the push and the count of the call as they are. -/
theorem CallInv.move (h : CallInv calls shared pushed n) {old : CallPc} (hpc : calls c = old)
    (pc : CallPc) (hi : pc.inside = old.inside) (ha : pc.accepted = old.accepted)
    (hc : pc.counted = old.counted) : CallInv (Function.update calls c pc) shared pushed n := by
  subst hpc
  exact {
    inside := mem_iff_update h.inside (hi ▸ h.inside c) fun _ _ => Iff.rfl
    shared_nodup := h.shared_nodup
    accepted := mem_iff_update h.accepted (ha ▸ h.accepted c) fun _ _ => Iff.rfl
    pushed_nodup := h.pushed_nodup
    submitted := h.submitted.trans (Tally.tally_update_of_eq _ _ _ hc).symm }

/-- A call takes the lock. -/
theorem CallInv.enter (h : CallInv calls shared pushed n) (hpc : calls c = .sharedLock) :
    CallInv (Function.update calls c .runningTest) (c :: shared) pushed n := by
  have hnot : c ∉ shared := by simp [h.inside c, hpc, CallPc.inside]
  refine ⟨?_, List.nodup_cons.mpr ⟨hnot, h.shared_nodup⟩, ?_, h.pushed_nodup, ?_⟩
  · refine mem_iff_update h.inside (by simp [CallPc.inside]) fun d hd => ?_
    simp [hd]
  · refine mem_iff_update h.accepted ?_ fun _ _ => Iff.rfl
    simp [h.accepted c, hpc, CallPc.accepted]
  · exact h.submitted.trans (Tally.tally_update_of_eq _ _ _ (by simp [hpc, CallPc.counted])).symm

/-- A call appends its task to a queue. -/
theorem CallInv.push (h : CallInv calls shared pushed n) (hpc : calls c = .pushing .push) :
    CallInv (Function.update calls c (.pushing .count)) shared (pushed ++ [c]) n := by
  have hnot : c ∉ pushed := by simp [h.accepted c, hpc, CallPc.accepted]
  refine ⟨?_, h.shared_nodup, ?_, List.nodup_append.mpr ⟨h.pushed_nodup, by simp, ?_⟩, ?_⟩
  · refine mem_iff_update h.inside ?_ fun _ _ => Iff.rfl
    simp [h.inside c, hpc, CallPc.inside]
  · refine mem_iff_update h.accepted (by simp [CallPc.accepted]) fun d hd => ?_
    simp [hd]
  · intro d hd e he
    rw [List.mem_singleton.mp he]
    exact fun hdc => hnot (hdc ▸ hd)
  · rw [Tally.tally_append, Tally.tally_singleton,
      Tally.tally_update_of_eq _ _ _ (by simp [hpc, CallPc.counted]), h.submitted]
    simp [CallPc.counted]

/-- A call counts its task in `mSubmitted`. -/
theorem CallInv.submit (h : CallInv calls shared pushed n) (hpc : calls c = .countSubmitted) :
    CallInv (Function.update calls c (.sharedUnlock true)) shared pushed (n + 1) := by
  have hmem : c ∈ pushed := by simp [h.accepted c, hpc, CallPc.accepted]
  refine ⟨?_, h.shared_nodup, ?_, h.pushed_nodup, ?_⟩
  · refine mem_iff_update h.inside ?_ fun _ _ => Iff.rfl
    simp [h.inside c, hpc, CallPc.inside]
  · refine mem_iff_update h.accepted ?_ fun _ _ => Iff.rfl
    simp [h.accepted c, hpc, CallPc.accepted]
  · have := Tally.tally_update CallPc.counted calls (.sharedUnlock true) h.pushed_nodup hmem
    simp only [hpc, CallPc.counted, Bool.toNat_false, Bool.toNat_true] at this
    rw [h.submitted]
    omega

/-- A call releases the lock. -/
theorem CallInv.leave {r : Bool} (h : CallInv calls shared pushed n)
    (hpc : calls c = .sharedUnlock r) :
    CallInv (Function.update calls c (.returned r)) (shared.erase c) pushed n := by
  refine ⟨?_, h.shared_nodup.erase c, ?_, h.pushed_nodup, ?_⟩
  · refine mem_iff_update h.inside ?_ fun d hd => ?_
    · simp [h.shared_nodup.mem_erase_iff, CallPc.inside]
    · simp [h.shared_nodup.mem_erase_iff, hd]
  · refine mem_iff_update h.accepted ?_ fun _ _ => Iff.rfl
    simp [h.accepted c, hpc, CallPc.accepted]
  · exact h.submitted.trans (Tally.tally_update_of_eq _ _ _ (by simp [hpc, CallPc.counted])).symm

end

section
variable {cfg : DispatcherConfig} {s s' : KeyedDispatcher} {a : DispatcherAct}

/-- Every effect keeps the invariant of the calls. -/
theorem Effect.callInv (h : Effect cfg s a s')
    (hI : CallInv s.calls s.shared s.pushed s.mSubmitted) :
    CallInv s'.calls s'.shared s'.pushed s'.mSubmitted := by
  cases h with
  | call c hpc => exact hI.move hpc .sharedLock rfl rfl rfl
  | enter c _ hpc => exact hI.enter hpc
  | refuse c _ hpc => exact hI.move hpc .countRejected rfl rfl rfl
  | tested c _ hpc => exact hI.move hpc (.pushing .entry) rfl rfl rfl
  | push c _ q hpc => exact hI.push hpc
  | pushing c _ pc pc' q hpc hne hq hcases =>
      rcases hcases with ⟨rfl, rfl⟩ | ⟨rfl, rfl⟩ | ⟨h1, h2, hpc'⟩
      · exact hI.move hpc (.pushing (.unlock true)) rfl rfl rfl
      · exact hI.move hpc .countSubmitted rfl rfl rfl
      · have hold := CallPc.accepted_pushing h1 h2
        rcases hpc' with rfl | ⟨p, rfl, h3, h4⟩
        · exact hI.move hpc .countRejected rfl hold.symm rfl
        · exact hI.move hpc (.pushing p) rfl ((CallPc.accepted_pushing h3 h4).trans hold.symm) rfl
  | submitted c _ hpc => exact hI.submit hpc
  | rejected c _ hpc => exact hI.move hpc (.sharedUnlock false) rfl rfl rfl
  | leave c _ r hpc => exact hI.leave hpc
  | _ => exact hI

/-! ## Workers and Shutdown -/

/-- The workers `Shutdown` has joined. -/
def ShutdownPc.joined (cfg : DispatcherConfig) : ShutdownPc → Nat
  | .idle | .queue _ => 0
  | .join i => i
  | .exclusiveLock | .clear | .exclusiveUnlock | .returned => cfg.workerCount

/-- `Shutdown` has held the exclusive lock. -/
def ShutdownPc.sealed : ShutdownPc → Bool
  | .clear | .exclusiveUnlock | .returned => true
  | .idle | .queue _ | .join _ | .exclusiveLock => false

/-- A worker that has left stays away, and its queue only grows. -/
theorem Effect.exited (h : Effect cfg s a s') {i : Nat} (he : (s.workers i).pc = .exited) :
    (s'.workers i).pc = .exited ∧
      (s.workers i).mQueue.mQueue <+: (s'.workers i).mQueue.mQueue := by
  cases h with
  | push c _ q hpc hq =>
      by_cases hi : i = workerOf cfg c
      · subst hi
        simp [KeyedDispatcher.setWorker, KeyedDispatcher.setCall, he, hq]
      · simp [KeyedDispatcher.setWorker, KeyedDispatcher.setCall, he, hi]
  | pushing c _ pc pc' q hpc hne hq _ =>
      by_cases hi : i = workerOf cfg c
      · subst hi
        simp [KeyedDispatcher.setWorker, KeyedDispatcher.setCall, he, hq]
      · simp [KeyedDispatcher.setWorker, KeyedDispatcher.setCall, he, hi]
  | take k c _ _ q pc hpc hq hc _ =>
      have hi : i ≠ k := fun hik => by simp [← hik, he] at hpc
      simp [KeyedDispatcher.setWorker, he, hi]
  | idle k _ _ q pc hne hq hc _ _ =>
      have hi : i ≠ k := fun hik => hne (hik ▸ he)
      simp [KeyedDispatcher.setWorker, he, hi]
  | finish k c _ _ _ _ threw hpc _ =>
      have hi : i ≠ k := fun hik => by simp [← hik, he] at hpc
      simp [KeyedDispatcher.setWorker, he, hi]
  | closeQueue k hpc =>
      by_cases hi : i = k
      · subst hi
        simp [KeyedDispatcher.setWorker, ExecutionQueue.shutdown, he]
      · simp [KeyedDispatcher.setWorker, he, hi]
  | _ => exact ⟨he, List.prefix_rfl⟩

/-- What holds in every state of the dispatcher. -/
structure DispatcherInv (cfg : DispatcherConfig) (s : KeyedDispatcher) : Prop where
  calls : CallInv s.calls s.shared s.pushed s.mSubmitted
  pool : FifoPool.Inv (workerOf cfg) s.pool
  /-- Every finished task was counted. -/
  counted : s.mCompleted + s.mFailed = s.finished.length
  running : s.mRunning = true ↔ s.shutdown = .idle
  joined : ∀ i, i < s.shutdown.joined cfg → (s.workers i).pc = .exited
  /-- Once `Shutdown` has had the lock for itself, no call brings a task. -/
  sealed : s.shutdown.sealed = true → ∀ c, (s.calls c).bringing = false

theorem dispatcherInv_init (cfg : DispatcherConfig) : DispatcherInv cfg {} where
  calls := by
    refine ⟨?_, List.nodup_nil, ?_, List.nodup_nil, rfl⟩ <;> intro c <;>
      simp [CallPc.inside, CallPc.accepted]
  pool := FifoPool.inv_empty _
  counted := rfl
  running := by simp
  joined := fun i hi => absurd hi (Nat.not_lt_zero i)
  sealed := fun h => by cases h

theorem Effect.counted (h : Effect cfg s a s')
    (hI : s.mCompleted + s.mFailed = s.finished.length) :
    s'.mCompleted + s'.mFailed = s'.finished.length := by
  cases h with
  | finish i c completed failed _ _ threw hpc hsum =>
      show completed + failed = (s.finished ++ [c]).length
      rw [hsum, hI, List.length_append, List.length_singleton]
  | _ => exact hI

theorem Effect.running (h : Effect cfg s a s') (hI : s.mRunning = true ↔ s.shutdown = .idle) :
    s'.mRunning = true ↔ s'.shutdown = .idle := by
  cases h with
  | stop | stopped | closed | join | joined | exclude | clear | finished => simp_all
  | closeQueue i hpc => simp_all [KeyedDispatcher.setWorker]
  | _ => exact hI

theorem Effect.joined_exited (h : Effect cfg s a s') (hr : s.mRunning = true ↔ s.shutdown = .idle)
    (hI : ∀ i, i < s.shutdown.joined cfg → (s.workers i).pc = .exited) :
    ∀ i, i < s'.shutdown.joined cfg → (s'.workers i).pc = .exited := by
  -- The joined workers stay away.  Only `Shutdown` adds to them.
  have hkeep : ∀ i, i < s.shutdown.joined cfg → (s'.workers i).pc = .exited :=
    fun i hi => (h.exited (hI i hi)).1
  cases h with
  | stop hpc => exact fun i hi => absurd hi (Nat.not_lt_zero i)
  | stopped hpc hf => simp [hr.mpr hpc] at hf
  | closeQueue k hpc => exact fun i hi => absurd hi (Nat.not_lt_zero i)
  | closed k hpc => exact fun i hi => absurd hi (Nat.not_lt_zero i)
  | join k hpc he =>
      intro i hi
      rcases Nat.lt_succ_iff_lt_or_eq.mp hi with hlt | rfl
      · exact hI i (by rw [hpc]; exact hlt)
      · exact he
  | joined k hpc hk => exact fun i hi => hI i (by rw [hpc]; exact Nat.lt_of_lt_of_le hi hk)
  | exclude hpc => exact fun i hi => hI i (by rw [hpc]; exact hi)
  | clear hpc => exact fun i hi => hI i (by rw [hpc]; exact hi)
  | finished hpc => exact fun i hi => hI i (by rw [hpc]; exact hi)
  | _ => exact hkeep

/-- A call that moves and then brings nothing, among calls that bring nothing. -/
theorem bringing_update {calls : Nat → CallPc} {c : Nat} {pc : CallPc}
    (h : ∀ d, (calls d).bringing = false) (hpc : pc.bringing = false) (d : Nat) :
    (Function.update calls c pc d).bringing = false := by
  by_cases hd : d = c
  · subst hd
    rw [Function.update_self]
    exact hpc
  · rw [Function.update_of_ne hd]
    exact h d

theorem Effect.sealed (h : Effect cfg s a s') (hr : s.mRunning = true ↔ s.shutdown = .idle)
    (hin : ∀ c, c ∈ s.shared ↔ (s.calls c).inside = true)
    (hI : s.shutdown.sealed = true → ∀ c, (s.calls c).bringing = false) :
    s'.shutdown.sealed = true → ∀ c, (s'.calls c).bringing = false := by
  cases h with
  | call c hpc => exact fun hs => bringing_update (hI hs) rfl
  | enter c _ hpc => exact fun hs => bringing_update (hI hs) rfl
  | refuse c _ hpc => exact fun hs => bringing_update (hI hs) rfl
  | rejected c _ hpc => exact fun hs => bringing_update (hI hs) rfl
  | leave c _ r hpc => exact fun hs => bringing_update (hI hs) rfl
  | tested c _ hpc hrun =>
      -- `mRunning` is only true before `Shutdown` starts.
      intro hs
      have hidle : s.shutdown = .idle := hr.mp hrun
      change s.shutdown.sealed = true at hs
      simp [hidle, ShutdownPc.sealed] at hs
  | push c _ q hpc => intro hs; simpa [hpc, CallPc.bringing] using hI hs c
  | pushing c _ pc pc' q hpc => intro hs; simpa [hpc, CallPc.bringing] using hI hs c
  | submitted c _ hpc => intro hs; simpa [hpc, CallPc.bringing] using hI hs c
  | stop hpc => intro hs; cases hs
  | stopped hpc hf => simp [hr.mpr hpc] at hf
  | closeQueue k hpc => intro hs; cases hs
  | closed k hpc => intro hs; cases hs
  | join k hpc => intro hs; cases hs
  | joined k hpc => intro hs; cases hs
  | exclude hpc hempty =>
      -- Nobody is inside the lock, and a call that brings a task is inside.
      intro _ c
      by_contra hb
      have hc := (hin c).mpr (CallPc.inside_of_bringing (by simpa using hb))
      simp [hempty] at hc
  | clear hpc => exact fun _ => hI (by rw [hpc]; rfl)
  | finished hpc => exact fun _ => hI (by rw [hpc]; rfl)
  | take | idle | finish => exact hI

/-- Every step keeps the invariant. -/
theorem DispatcherInv.step (hI : DispatcherInv cfg s) (hs : dispatcherStep cfg s a = some s') :
    DispatcherInv cfg s' := by
  have h := step_effect hs
  obtain ⟨bs, hbs⟩ := h.pool_run
  exact {
    calls := h.callInv hI.calls
    pool := FifoPool.run_inv hI.pool hbs
    counted := h.counted hI.counted
    running := h.running hI.running
    joined := h.joined_exited hI.running hI.joined
    sealed := h.sealed hI.running hI.calls.inside hI.sealed }

/-! ## Calls and tasks over a step -/

/-- The task of a call has run: it is being counted or has been. -/
def KeyedDispatcher.Ran (s : KeyedDispatcher) (c : Nat) : Prop :=
  c ∈ s.finished ∨ ∃ i b, (s.workers i).pc = .counting c b

/-- A call moves only by a step of its own, and not before it is made or after
it has returned. -/
theorem Effect.calls_cases (h : Effect cfg s a s') (c : Nat) :
    s'.calls c = s.calls c ∨ a = .call c ∨
      (∃ e, a = .dispatch c e) ∧ s.calls c ≠ .idle ∧ ∀ r, s.calls c ≠ .returned r := by
  have hmove : ∀ {t : KeyedDispatcher} {d : Nat} {pc old : CallPc} {e : Bool},
      t.calls = s.calls → s.calls d = old → old ≠ .idle → (∀ r, old ≠ .returned r) →
      (t.setCall d pc).calls c = s.calls c ∨ DispatcherAct.dispatch d e = .call c ∨
        (∃ e', DispatcherAct.dispatch d e = .dispatch c e') ∧ s.calls c ≠ .idle ∧
          ∀ r, s.calls c ≠ .returned r := by
    intro t d pc old e ht hold hidle hret
    by_cases hcd : c = d
    · subst hcd
      exact Or.inr (Or.inr ⟨⟨e, rfl⟩, hold ▸ hidle, hold ▸ hret⟩)
    · refine Or.inl ?_
      rw [KeyedDispatcher.setCall, ht]
      exact Function.update_of_ne hcd _ _
  cases h with
  | call d hpc =>
      by_cases hcd : c = d
      · subst hcd
        exact Or.inr (Or.inl rfl)
      · exact Or.inl (Function.update_of_ne hcd _ _)
  | enter d _ hpc => exact hmove rfl hpc (by simp) (by simp)
  | refuse d _ hpc => exact hmove rfl hpc (by simp) (by simp)
  | tested d _ hpc => exact hmove rfl hpc (by simp) (by simp)
  | push d _ q hpc => exact hmove rfl hpc (by simp) (by simp)
  | pushing d _ pc pc' q hpc => exact hmove rfl hpc (by simp) (by simp)
  | submitted d _ hpc => exact hmove rfl hpc (by simp) (by simp)
  | rejected d _ hpc => exact hmove rfl hpc (by simp) (by simp)
  | leave d _ r hpc => exact hmove rfl hpc (by simp) (by simp)
  | _ => exact Or.inl rfl

/-- A task once pushed stays in the history. -/
theorem Effect.pushed_isPrefix (h : Effect cfg s a s') : s.pushed <+: s'.pushed := by
  cases h with
  | push => exact List.prefix_append _ _
  | _ => exact List.prefix_rfl

/-- A task has newly run only when its worker leaves it. -/
theorem Effect.ran_cases (h : Effect cfg s a s') {c : Nat} (hc : s'.Ran c) :
    s.Ran c ∨ ∃ i e t, a = .work i e t ∧ (s.workers i).pc = .executing c := by
  -- A worker that the step leaves alone counts what it counted before.
  have hother : ∀ {t : KeyedDispatcher} {k j : Nat} {w : Worker} {b : Bool},
      t.workers = s.workers → j ≠ k → ((t.setWorker k w).workers j).pc = .counting c b →
      s.Ran c := by
    intro t k j w b ht hjk hj
    rw [KeyedDispatcher.setWorker, ht] at hj
    simp only [Function.update_of_ne hjk] at hj
    exact Or.inr ⟨j, b, hj⟩
  cases h with
  | push d _ q hpc hq =>
      rcases hc with hf | ⟨j, b, hj⟩
      · exact Or.inl (Or.inl hf)
      · by_cases hjk : j = workerOf cfg d
        · subst hjk
          exact Or.inl (Or.inr ⟨_, b, by simpa [KeyedDispatcher.setWorker, KeyedDispatcher.setCall] using hj⟩)
        · exact Or.inl (hother (t := { s with pushed := s.pushed ++ [d] }) rfl hjk hj)
  | pushing d _ pc pc' q hpc hne hq _ =>
      rcases hc with hf | ⟨j, b, hj⟩
      · exact Or.inl (Or.inl hf)
      · by_cases hjk : j = workerOf cfg d
        · subst hjk
          exact Or.inl (Or.inr ⟨_, b, by simpa [KeyedDispatcher.setWorker, KeyedDispatcher.setCall] using hj⟩)
        · exact Or.inl (hother (t := s) rfl hjk hj)
  | take i d e t q pc hpc hq hh hcnt =>
      rcases hc with hf | ⟨j, b, hj⟩
      · exact Or.inl (Or.inl hf)
      · by_cases hjk : j = i
        · subst hjk
          exact absurd (by simpa [KeyedDispatcher.setWorker] using hj) (hcnt c b)
        · exact Or.inl (hother (t := { s with taken := s.taken ++ [d] }) rfl hjk hj)
  | idle i e t q pc hne hq hh hexit hcnt =>
      rcases hc with hf | ⟨j, b, hj⟩
      · exact Or.inl (Or.inl hf)
      · by_cases hjk : j = i
        · subst hjk
          have hpc : pc = .counting c b := by simpa [KeyedDispatcher.setWorker] using hj
          exact Or.inr ⟨j, e, t, rfl, (hcnt c b hpc).1⟩
        · exact Or.inl (hother (t := s) rfl hjk hj)
  | finish i d completed failed e t threw hpc hsum =>
      rcases hc with hf | ⟨j, b, hj⟩
      · rcases List.mem_append.mp hf with hf | hf
        · exact Or.inl (Or.inl hf)
        · rw [List.mem_singleton.mp hf]
          exact Or.inl (Or.inr ⟨i, threw, hpc⟩)
      · by_cases hjk : j = i
        · subst hjk
          simp [KeyedDispatcher.setWorker] at hj
        · exact Or.inl (hother (t := { s with
            mCompleted := completed, mFailed := failed, finished := s.finished ++ [d] }) rfl hjk hj)
  | closeQueue i hpc =>
      rcases hc with hf | ⟨j, b, hj⟩
      · exact Or.inl (Or.inl hf)
      · by_cases hjk : j = i
        · subst hjk
          exact Or.inl (Or.inr ⟨j, b, by simpa [KeyedDispatcher.setWorker] using hj⟩)
        · exact Or.inl (hother (t := s) rfl hjk hj)
  | _ => exact Or.inl hc

/-- A task that runs was pushed. -/
theorem DispatcherInv.accepted_of_executing (hI : DispatcherInv cfg s) {i c : Nat}
    (h : (s.workers i).pc = .executing c) : (s.calls c).accepted = true :=
  (hI.calls.accepted c).mp (hI.pool.mem_accepted_of_current
    (show (s.workers i).pc.held = some c by rw [h]; rfl))

/-- A task that has run was pushed. -/
theorem DispatcherInv.accepted_of_ran (hI : DispatcherInv cfg s) {c : Nat} (h : s.Ran c) :
    (s.calls c).accepted = true := by
  refine (hI.calls.accepted c).mp ?_
  rcases h with h | ⟨i, b, h⟩
  · exact hI.pool.mem_accepted_of_finished h
  · exact hI.pool.mem_accepted_of_current (show (s.workers i).pc.held = some c by rw [h]; rfl)

/-- A call whose task was pushed keeps it. -/
theorem DispatcherInv.accepted_step (hI : DispatcherInv cfg s)
    (hs : dispatcherStep cfg s a = some s') {c : Nat} (h : (s.calls c).accepted = true) :
    (s'.calls c).accepted = true := by
  have hmem := (step_effect hs).pushed_isPrefix.subset ((hI.calls.accepted c).mpr h)
  exact ((hI.step hs).calls.accepted c).mp hmem

/-! ## Order and overlap -/

/-- Calls of one key share a worker. -/
theorem workerOf_eq_of_key {c d : Nat} (h : (cfg.args c).key = (cfg.args d).key) :
    workerOf cfg c = workerOf cfg d := by
  rw [workerOf, workerOf, h]

/-- The calls of a key are calls of the key's worker. -/
theorem ofKey_onLane (key : UInt64) (l : List Nat) :
    ofKey cfg key (FifoPool.onLane (workerOf cfg) (keyToWorkerIndex cfg key) l) =
      ofKey cfg key l := by
  rw [ofKey, ofKey, FifoPool.onLane, List.filter_filter]
  refine List.filter_congr fun c _ => ?_
  by_cases hk : (cfg.args c).key = key
  · simp [hk, workerOf]
  · simp [hk]

/-- A history that is a prefix on each worker is a prefix on each key. -/
theorem ofKey_isPrefix {l m : List Nat} (key : UInt64)
    (h : FifoPool.onLane (workerOf cfg) (keyToWorkerIndex cfg key) l <+:
      FifoPool.onLane (workerOf cfg) (keyToWorkerIndex cfg key) m) :
    ofKey cfg key l <+: ofKey cfg key m := by
  rw [← ofKey_onLane key l, ← ofKey_onLane key m]
  exact h.filter _

theorem DispatcherInv.inOrder (hI : DispatcherInv cfg s) (key : UInt64) :
    ofKey cfg key s.finished <+: ofKey cfg key s.taken ∧
      ofKey cfg key s.taken <+: ofKey cfg key s.pushed :=
  ⟨ofKey_isPrefix key (hI.pool.finished_isPrefix _), ofKey_isPrefix key (hI.pool.taken_isPrefix _)⟩

theorem DispatcherInv.noOverlap (hI : DispatcherInv cfg s) {i j c d : Nat}
    (hc : (s.workers i).pc = .executing c) (hd : (s.workers j).pc = .executing d)
    (hkey : (cfg.args c).key = (cfg.args d).key) : i = j := by
  have h1 : workerOf cfg c = i :=
    hI.pool.current_lane (show (s.workers i).pc.held = some c by rw [hc]; rfl)
  have h2 : workerOf cfg d = j :=
    hI.pool.current_lane (show (s.workers j).pc.held = some d by rw [hd]; rfl)
  rw [← h1, ← h2, workerOf_eq_of_key hkey]

/-! ## Loss -/

/-- No worker has left a task behind. -/
def NothingLeft (s : KeyedDispatcher) : Prop :=
  ∀ i, (s.workers i).pc = .exited → (s.workers i).mQueue.mQueue = []

/-- A lossless step leaves nothing behind. -/
theorem Effect.nothingLeft (h : Effect cfg s a s') (hok : lossless cfg s a = true)
    (hI : NothingLeft s) : NothingLeft s' := by
  intro i he
  cases h with
  | push c _ q hpc hq =>
      by_cases hi : i = workerOf cfg c
      · subst hi
        simp [KeyedDispatcher.setWorker, KeyedDispatcher.setCall] at he
        simp [lossless, hpc, he] at hok
      · simp [KeyedDispatcher.setWorker, KeyedDispatcher.setCall, hi] at he ⊢
        exact hI i he
  | pushing c _ pc pc' q hpc hne hq _ =>
      by_cases hi : i = workerOf cfg c
      · subst hi
        simp [KeyedDispatcher.setWorker, KeyedDispatcher.setCall] at he ⊢
        rw [hq, hI _ he]
      · simp [KeyedDispatcher.setWorker, KeyedDispatcher.setCall, hi] at he ⊢
        exact hI i he
  | take k c _ _ q pc hpc hq hc _ =>
      by_cases hi : i = k
      · subst hi
        simp [KeyedDispatcher.setWorker] at he
        simp [he, WorkerPc.held] at hc
      · simp [KeyedDispatcher.setWorker, hi] at he ⊢
        exact hI i he
  | idle k _ _ q pc hne hq hc hexit _ =>
      by_cases hi : i = k
      · subst hi
        simp [KeyedDispatcher.setWorker] at he ⊢
        obtain ⟨htest, hempty⟩ := hexit.mp he
        simp [lossless, htest, hempty] at hok
        rw [hq, hok]
      · simp [KeyedDispatcher.setWorker, hi] at he ⊢
        exact hI i he
  | finish k c _ _ _ _ threw hpc _ =>
      by_cases hi : i = k
      · subst hi
        simp [KeyedDispatcher.setWorker] at he
      · simp [KeyedDispatcher.setWorker, hi] at he ⊢
        exact hI i he
  | closeQueue k hpc =>
      by_cases hi : i = k
      · subst hi
        simp [KeyedDispatcher.setWorker, ExecutionQueue.shutdown] at he ⊢
        exact hI i he
      · simp [KeyedDispatcher.setWorker, hi] at he ⊢
        exact hI i he
  | _ => exact hI i he

/-- A step that is not lossless leaves a task behind. -/
theorem Effect.left (h : Effect cfg s a s') (hok : lossless cfg s a = false) :
    ¬ NothingLeft s' := by
  intro hI
  cases a with
  | call c => simp [lossless] at hok
  | shutdown => simp [lossless] at hok
  | dispatch c e =>
      simp only [lossless, ne_eq, decide_not, Bool.or_eq_false_iff, Bool.not_eq_false',
        decide_eq_true_eq] at hok
      obtain ⟨hpc, he⟩ := hok
      cases h with
      | push c _ q _ hq =>
          have := hI (workerOf cfg c) (by
            simpa [KeyedDispatcher.setWorker, KeyedDispatcher.setCall] using he)
          simp [KeyedDispatcher.setWorker, KeyedDispatcher.setCall, hq] at this
      | pushing _ _ pc pc' q hpc' hne => simp_all
      | _ => simp_all
  | work i e t =>
      simp only [lossless, ne_eq, decide_not, Bool.or_eq_false_iff, Bool.not_eq_false',
        decide_eq_true_eq, List.isEmpty_eq_false_iff] at hok
      obtain ⟨⟨hpc, hempty⟩, hne⟩ := hok
      cases h with
      | take _ c _ _ q pc hpc' => simp [hpc] at hpc'
      | idle _ _ _ q pc _ hq hc hexit _ =>
          have := hI i (by simpa [KeyedDispatcher.setWorker] using hexit.mpr ⟨hpc, hempty⟩)
          simp [KeyedDispatcher.setWorker, hq, hne] at this
      | finish _ c _ _ _ _ threw hpc' => simp [hpc] at hpc'

/-- What has been left behind stays behind. -/
theorem Effect.left_stable (h : Effect cfg s a s') (hI : ¬ NothingLeft s) : ¬ NothingLeft s' := by
  intro hI'
  refine hI fun i he => ?_
  obtain ⟨he', hq⟩ := h.exited he
  rw [hI' i he'] at hq
  exact List.prefix_nil.mp hq

/-- A run leaves nothing behind exactly when all its steps are lossless. -/
theorem nothingLeft_iff_lossless {as : List DispatcherAct}
    (hrun : Machine.run (dispatcherStep cfg) {} as = some s) :
    NothingLeft s ↔ Machine.Meets (dispatcherStep cfg) (fun s a => lossless cfg s a) {} as := by
  constructor
  · intro hs
    refine Machine.meets_of_run (I := fun _ => True) (B := fun s => ¬ NothingLeft s)
      (fun _ _ _ _ _ => trivial) ?_ ?_ trivial hrun (not_not_intro hs)
    · exact fun _ _ _ _ hno hstep => (step_effect hstep).left (by simpa using hno)
    · exact fun _ _ _ _ hB hstep => (step_effect hstep).left_stable hB
  · intro hok
    refine Machine.run_invariant_of_meets ?_ ?_ hok hrun
    · exact fun _ _ _ hI hok hstep => (step_effect hstep).nothingLeft hok hI
    · intro i he
      cases he

/-! ## The contract holds exactly in the lossless runs -/

theorem workerOf_lt (c : Nat) : workerOf cfg c < cfg.workerCount :=
  Nat.mod_lt _ cfg.workerCount_pos

/-- When `Shutdown` has returned, a call whose task was pushed has returned
`true`. -/
theorem DispatcherInv.pushed_iff (hI : DispatcherInv cfg s) (hret : s.shutdown = .returned)
    (c : Nat) : c ∈ s.pushed ↔ s.calls c = .returned true := by
  rw [hI.calls.accepted c]
  constructor
  · exact fun ha => CallPc.eq_returned_of_accepted ha (hI.sealed (by rw [hret]; rfl) c)
  · intro h
    rw [h]
    rfl

/-- When `Shutdown` has returned and nothing was left behind, a task was
finished as often as it was pushed. -/
theorem DispatcherInv.count_finished (hI : DispatcherInv cfg s) (hret : s.shutdown = .returned)
    (hleft : NothingLeft s) (c : Nat) : s.finished.count c = s.pushed.count c := by
  have he : (s.workers (workerOf cfg c)).pc = .exited :=
    hI.joined _ (by rw [hret]; exact workerOf_lt c)
  have hq : s.pool.queue (workerOf cfg c) = [] := hleft _ he
  have hc : s.pool.current (workerOf cfg c) = none := by
    simp [KeyedDispatcher.pool, he, WorkerPc.held]
  exact hI.pool.count_eq hq hc

theorem DispatcherInv.once (hI : DispatcherInv cfg s) (hret : s.shutdown = .returned)
    (hleft : NothingLeft s) {c : Nat} (hc : s.calls c = .returned true) :
    s.finished.count c = 1 := by
  rw [hI.count_finished hret hleft]
  exact List.count_eq_one_of_mem hI.calls.pushed_nodup ((hI.pushed_iff hret c).mpr hc)

theorem DispatcherInv.counts (hI : DispatcherInv cfg s) (hret : s.shutdown = .returned)
    (hleft : NothingLeft s) : s.mCompleted + s.mFailed = s.mSubmitted := by
  have hperm : s.finished.Perm s.pushed :=
    List.perm_iff_count.mpr (hI.count_finished hret hleft)
  have hall : tally CallPc.counted s.calls s.pushed = s.pushed.length := by
    refine Tally.tally_eq_length fun c hc => ?_
    rw [(hI.pushed_iff hret c).mp hc]
    rfl
  rw [hI.counted, hI.calls.submitted, hall, hperm.length_eq]

/-- If every accepted task has run, then nothing was left behind. -/
theorem DispatcherInv.nothingLeft (hI : DispatcherInv cfg s) (hret : s.shutdown = .returned)
    (honce : ∀ c, s.calls c = .returned true → s.finished.count c = 1) : NothingLeft s := by
  intro i he
  by_contra hne
  obtain ⟨c, hc⟩ := List.exists_mem_of_ne_nil _ hne
  have hlane : workerOf cfg c = i := hI.pool.queue_lane hc
  have hpushed : c ∈ s.pushed := hI.pool.mem_accepted hc
  have hfin : s.finished.count c = 1 := honce c ((hI.pushed_iff hret c).mp hpushed)
  -- The task waits, so it would have been accepted twice.
  have htwo : s.finished.count c < s.pushed.count c := hI.pool.count_lt hc
  have hnodup := List.nodup_iff_count_le_one.mp hI.calls.pushed_nodup c
  omega

/-- A run keeps the contract exactly when `Shutdown` has not returned or all
steps were lossless. -/
theorem delivers_iff_lossless (cfg : DispatcherConfig) (as : List DispatcherAct)
    (s : KeyedDispatcher) (hrun : Machine.run (dispatcherStep cfg) {} as = some s) :
    Delivers cfg s ↔ (s.shutdown = .returned →
      Machine.Meets (dispatcherStep cfg) (fun s a => lossless cfg s a) {} as) := by
  have hI : DispatcherInv cfg s :=
    Machine.run_invariant (fun _ _ _ hI hs => hI.step hs) (dispatcherInv_init cfg) hrun
  rw [← nothingLeft_iff_lossless hrun]
  constructor
  · exact fun hd hret => hI.nothingLeft hret (hd.once hret)
  · intro hleft
    exact {
      once := fun hret c hc => hI.once hret (hleft hret) hc
      inOrder := hI.inOrder
      noOverlap := fun i j c d hc hd => hI.noOverlap hc hd
      counts := fun hret => hI.counts hret (hleft hret) }

/-- One worker, and calls with the key 7. -/
def oneWorker : DispatcherConfig := ⟨1, by decide, {}, fun _ => { key := 7 }⟩

/-- A call brings a task, the worker runs it, and then `Shutdown` runs through. -/
def deliveredTrace : List DispatcherAct :=
  List.flatten
    [[.call 0], List.replicate 12 (.dispatch 0 false), List.replicate 7 (.work 0 false false),
      List.replicate 3 .shutdown, List.replicate 9 (.work 0 true false), List.replicate 5 .shutdown]

/-- The task has run when `Shutdown` returns. -/
theorem delivers_deliveredTrace :
    ∃ s, Machine.run (dispatcherStep oneWorker) {} deliveredTrace = some s ∧
      s.shutdown = .returned ∧ s.calls 0 = .returned true ∧ s.finished = [0] ∧
      Delivers oneWorker s :=
  ⟨_, rfl, rfl, rfl, rfl,
    (delivers_iff_lossless oneWorker deliveredTrace _ rfl).mpr fun _ => by decide⟩

/-- The worker's `Pop` times out.  A call finds `mRunning` set, `Shutdown` clears
it, and the worker leaves.  Only then does the call push its task. -/
def latePushTrace : List DispatcherAct :=
  List.flatten
    [List.replicate 11 (.work 0 true false),
      [.call 0, .dispatch 0 false, .dispatch 0 false, .shutdown, .work 0 true false,
        .work 0 true false],
      List.replicate 10 (.dispatch 0 false), List.replicate 7 .shutdown]

/-- `Dispatch` returned `true`, `Shutdown` has returned, and the task never ran. -/
theorem latePush_loses_task :
    ∃ s, Machine.run (dispatcherStep oneWorker) {} latePushTrace = some s ∧
      s.shutdown = .returned ∧ s.calls 0 = .returned true ∧ s.finished = [] ∧
      s.mSubmitted = 1 ∧ s.mCompleted + s.mFailed = 0 ∧ ¬ Delivers oneWorker s := by
  refine ⟨_, rfl, rfl, rfl, rfl, rfl, rfl, fun h => ?_⟩
  have hcount := h.counts rfl
  revert hcount
  decide

end

end NetworkModule.Concurrency
