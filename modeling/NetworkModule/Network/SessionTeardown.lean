import NetworkModule.Types
import NetworkModule.Concurrency.ScopeAccounting
import NetworkModule.Concurrency.OpenDispatcher
import Mathlib

/-!
# The teardown of a session

One session of the engine from its registration to its removal, with all the
threads that may tear it down: `CloseConnection`, `ProcessRecvCompletion` and
`ProcessErrorCompletion`.  Each of them submits a task through the session's
`AsyncScope` and then calls `RemoveSession`, which closes the session, and
`Close` cancels the scope.  The task of a thread is the `Submit` call with the
thread's number.

The task of a teardown calls `OnDisconnected` and then fires the `Disconnected`
event.  A worker that reaches the task after the scope was cancelled skips both.
-/

namespace NetworkModule.SessionTeardown

open Concurrency

/-! ## Threads -/

/-- What a thread calls. -/
inductive Entry where
  /-- `CloseConnection`. -/
  | closeConnection
  /-- `ProcessRecvCompletion` with a byte count. -/
  | recvCompletion (bytesReceived : Int)
  /-- `ProcessErrorCompletion`. -/
  | errorCompletion
  deriving DecidableEq, Repr

/-- The thread submits a task that fires `Disconnected`.  The others submit
received data. -/
def Entry.disconnects : Entry → Bool
  | .closeConnection | .errorCompletion => true
  | .recvCompletion bytesReceived => bytesReceived ≤ 0

/-- Where a thread stands. -/
inductive ThreadPc where
  /-- The call has not been made. -/
  | idle
  /-- `GetSession` takes `mMutex` of the manager. -/
  | getLock
  /-- `GetSession` looks the session up. -/
  | getFind
  /-- `GetSession` releases `mMutex`. -/
  | getUnlock (found : Bool)
  /-- `ProcessRecvCompletion` tests `IsConnected`. -/
  | connectedTest
  /-- Calling `Submit`. -/
  | submit
  /-- Inside `Submit`. -/
  | submitting
  /-- `RemoveSession` tests `IsConnected`. -/
  | removeTest
  /-- `Close` exchanges `mState`. -/
  | exchange
  /-- `Close` closes the socket and drops what is queued. -/
  | cleanup
  /-- `Close` cancels the scope. -/
  | cancel
  /-- `RemoveSession` takes `mMutex`. -/
  | eraseLock
  /-- `RemoveSession` erases the session. -/
  | erase
  /-- `RemoveSession` releases `mMutex`. -/
  | eraseUnlock
  /-- The call has returned. -/
  | returned
  deriving DecidableEq, Repr

/-- A session, its scope, and the threads around it. -/
structure Engine where
  /-- `mAsyncScope` over `mLogicDispatcher`. -/
  logic : ScopedDispatcher := {}
  /-- Whether `mSessions` holds the session. -/
  inMap : Bool := true
  /-- The holder of the manager's `mMutex`. -/
  mMutex : Option Nat := none
  mState : SessionState := .connected
  /-- The threads, by number. -/
  threads : Nat → ThreadPc := fun _ => .idle
  /-- The teardown tasks that have found the scope not cancelled, in order. -/
  started : List Nat := []
  /-- The teardown tasks that have fired `Disconnected`, in order. -/
  fired : List Nat := []

/-- What a run of the engine is given. -/
structure EngineConfig where
  /-- The logic dispatcher. -/
  dispatcher : DispatcherConfig
  /-- Every caller of `Dispatch` in the engine passes a lambda. -/
  hasTask : ∀ c, (dispatcher.args c).hasTask = true
  /-- What each thread calls. -/
  entries : Nat → Entry

/-! ## Steps -/

/-- Who moves. -/
inductive EngineAct where
  /-- Thread `k` makes its call. -/
  | enter (k : Nat)
  /-- Thread `k` takes its next step outside `Submit`. -/
  | thread (k : Nat)
  /-- The teardown task on worker `i` fires its event. -/
  | fireEvent (i : Nat)
  /-- The scope or the dispatcher takes a step. -/
  | scope (a : ScopeAct)
  deriving DecidableEq, Repr

/-- Move a thread. -/
def Engine.setThread (s : Engine) (k : Nat) (pc : ThreadPc) : Engine :=
  { s with threads := Function.update s.threads k pc }

section
variable (cfg : EngineConfig)

/-- The thread submits a teardown task. -/
def EngineConfig.disconnects (k : Nat) : Bool := (cfg.entries k).disconnects

/-- One step of thread `k` outside `Submit`. -/
def threadStep (s : Engine) (k : Nat) : Option Engine :=
  match s.threads k with
  | .idle => none
  | .getLock =>
      if s.mMutex.isSome then none else some ({ s with mMutex := some k }.setThread k .getFind)
  | .getFind => some (s.setThread k (.getUnlock s.inMap))
  | .getUnlock found =>
      let next := if !found then .returned
        else if cfg.entries k = .closeConnection then .submit else .connectedTest
      some ({ s with mMutex := none }.setThread k next)
  | .connectedTest =>
      some (s.setThread k (if s.mState = .connected then .submit else .returned))
  | .submit =>
      (scopeStep cfg.dispatcher s.logic (.call k)).map
        fun x => { s with logic := x }.setThread k .submitting
  | .submitting =>
      match (s.logic.submits k).pc with
      | .returned r =>
          -- A teardown goes on in any case, received data only if it was refused.
          some (s.setThread k (if cfg.disconnects k || !r then .removeTest else .returned))
      | _ => none
  | .removeTest =>
      some (s.setThread k (if s.mState = .connected then .exchange else .eraseLock))
  | .exchange =>
      if s.mState = .disconnected then some (s.setThread k .eraseLock)
      else some ({ s with mState := .disconnected }.setThread k .cleanup)
  | .cleanup => some (s.setThread k .cancel)
  | .cancel =>
      (scopeStep cfg.dispatcher s.logic .cancel).map
        fun x => { s with logic := x }.setThread k .eraseLock
  | .eraseLock =>
      if s.mMutex.isSome then none else some ({ s with mMutex := some k }.setThread k .erase)
  | .erase => some ({ s with inMap := false }.setThread k .eraseUnlock)
  | .eraseUnlock => some ({ s with mMutex := none }.setThread k .returned)
  | .returned => none

/-- The teardown task that worker `i` runs, if it runs one at the place `pc`. -/
def Engine.teardownAt (s : Engine) (i : Nat) (pc : WrappedPc) : Option Nat :=
  match (s.logic.dispatcher.workers i).pc with
  | .executing c =>
      if (s.logic.submits c).pc ≠ .idle ∧ cfg.disconnects c = true ∧
          (s.logic.submits c).wrapped = pc then some c
      else none
  | _ => none

/-- The steps of the scope that are not steps of a thread.  The body of a
teardown task returns only after it has fired its event. -/
def Engine.permits (s : Engine) : ScopeAct → Bool
  | .call _ | .cancel | .reset | .dispatcher .shutdown => false
  | .run i throws =>
      match s.teardownAt cfg i .body with
      | some c => throws || s.fired.contains c
      | none => true
  | _ => true

/-- The teardown task that a step of the scope starts. -/
def Engine.starting (s : Engine) : ScopeAct → Option Nat
  | .run i _ => if s.logic.scope.mCancelled then none else s.teardownAt cfg i .queued
  | _ => none

/-- One step of the engine. -/
def engineStep (s : Engine) : EngineAct → Option Engine
  | .enter k => if s.threads k = .idle then some (s.setThread k .getLock) else none
  | .thread k => threadStep cfg s k
  | .fireEvent i =>
      match s.teardownAt cfg i .body with
      | some c => if s.fired.contains c then none else some { s with fired := s.fired ++ [c] }
      | none => none
  | .scope a =>
      if s.permits cfg a then
        (scopeStep cfg.dispatcher s.logic a).map fun x =>
          { s with logic := x, started := s.started ++ (s.starting cfg a).toList }
      else none

/-! ## Exactly one event -/

/-- Once the session is removed and every accepted task has run, the event has
been fired exactly once. -/
def FiresOnce (s : Engine) : Prop :=
  s.inMap = false → (∀ c ∈ s.logic.dispatcher.pushed, c ∈ s.logic.dispatcher.finished) →
    s.fired.length = 1

instance (s : Engine) : Decidable (FiresOnce s) := inferInstanceAs (Decidable (_ → _))

/-- The queues of the dispatcher are never full. -/
def queuesNeverFull (s : Engine) : EngineAct → Bool
  | .scope (.dispatcher a) => neverFull cfg.dispatcher s.logic.dispatcher a
  | _ => true

/-- The scope is cancelled only after a teardown task has started, no second
teardown task starts, and none throws before it has fired. -/
def startsOnce (s : Engine) : EngineAct → Bool
  | .thread k => s.threads k ≠ .cancel || !s.started.isEmpty
  | .scope (.run i throws) =>
      ((s.starting cfg (.run i throws)).isNone || s.started.isEmpty) &&
        match s.teardownAt cfg i .body with
        | some c => !throws || s.fired.contains c
        | none => true
  | _ => true

/-! ## The invariant -/

/-- What the place of thread `k` says.  A thread that goes on to close the session
has handed its teardown task over, or the scope is cancelled, and a thread past
the exchange has left the session disconnected. -/
def ThreadPc.Ok (s : Engine) (k : Nat) : ThreadPc → Prop
  | .removeTest | .exchange =>
      s.logic.scope.mCancelled = true ∨
        cfg.disconnects k = true ∧ (s.logic.submits k).pc = .returned true
  | .cleanup | .cancel | .eraseLock | .erase | .eraseUnlock => s.mState = .disconnected
  | _ => True

/-- What holds of the teardown tasks. -/
structure TasksOk (s : Engine) : Prop where
  /-- A teardown task that has been looked at has started or been cancelled. -/
  looked : ∀ c, cfg.disconnects c = true → (s.logic.submits c).wrapped ≠ .queued →
    c ∈ s.started ∨ s.logic.scope.mCancelled = true
  /-- A teardown task in its body has started. -/
  inBody : ∀ c, cfg.disconnects c = true → (s.logic.submits c).wrapped = .body → c ∈ s.started
  /-- A task that has started is an accepted teardown task, and it is in its body
  or has fired. -/
  started : ∀ c ∈ s.started, cfg.disconnects c = true ∧ s.logic.accepted c = true ∧
    ((s.logic.submits c).wrapped = .body ∨ c ∈ s.fired ∧ (s.logic.submits c).wrapped ≠ .queued)
  started_le : s.started.length ≤ 1
  fired_subset : ∀ c ∈ s.fired, c ∈ s.started
  fired_nodup : s.fired.Nodup

/-- What holds in every state the condition allows. -/
structure EngineInv (s : Engine) : Prop where
  scope : ScopeInv cfg.dispatcher s.logic
  isOpen : Open s.logic.dispatcher
  rejected : ∀ c, (s.logic.submits c).pc.rejected = true → s.logic.scope.mCancelled = true
  state : s.mState = .connected ∨ s.mState = .disconnected
  cancelled : s.logic.scope.mCancelled = true → s.mState = .disconnected ∧ s.started ≠ []
  removed : s.inMap = false → s.mState = .disconnected
  /-- Whoever closed the session had handed a teardown task over. -/
  closer : s.mState = .disconnected → s.logic.scope.mCancelled = true ∨
    ∃ k, cfg.disconnects k = true ∧ (s.logic.submits k).pc = .returned true
  threads : ∀ k, (s.threads k).Ok cfg s k
  tasks : TasksOk cfg s

variable {cfg} {s s' : Engine}

theorem engineInv_init : EngineInv cfg {} where
  scope := scopeInv_init cfg.dispatcher
  isOpen := open_init
  rejected := fun c h => by cases h
  state := Or.inl rfl
  cancelled := fun h => by cases h
  removed := fun h => by cases h
  closer := fun h => by cases h
  threads := fun _ => trivial
  tasks := ⟨fun _ _ h => absurd rfl h, (fun _ _ h => by cases h),
    fun _ h => absurd h (List.not_mem_nil), Nat.zero_le _,
    fun _ h => absurd h (List.not_mem_nil), List.nodup_nil⟩

/-- What the place of a thread says is not lost when the scope moves on. -/
theorem ThreadPc.Ok.mono {k : Nat} {pc : ThreadPc} (h : pc.Ok cfg s k)
    (hcan : s.logic.scope.mCancelled = true → s'.logic.scope.mCancelled = true)
    (hret : (s.logic.submits k).pc = .returned true → (s'.logic.submits k).pc = .returned true)
    (hst : s.mState = .disconnected → s'.mState = .disconnected) : pc.Ok cfg s' k := by
  cases pc with
  | removeTest | exchange =>
      rcases h with h | ⟨hd, h⟩
      · exact Or.inl (hcan h)
      · exact Or.inr ⟨hd, hret h⟩
  | cleanup | cancel | eraseLock | erase | eraseUnlock => exact hst h
  | _ => trivial

/-! ## Steps of a thread -/

/-- A thread moves, and nothing else but the manager's mutex changes. -/
theorem EngineInv.move (hI : EngineInv cfg s) {k : Nat} (m : Option Nat) (pc : ThreadPc)
    (hpc : pc.Ok cfg s k) : EngineInv cfg ({ s with mMutex := m }.setThread k pc) where
  scope := hI.scope
  isOpen := hI.isOpen
  rejected := hI.rejected
  state := hI.state
  cancelled := hI.cancelled
  removed := hI.removed
  closer := hI.closer
  threads := (Function.forall_update_iff s.threads (p := fun k pc => ThreadPc.Ok cfg s k pc)).mpr
    ⟨hpc, fun j _ => hI.threads j⟩
  tasks := ⟨hI.tasks.looked, hI.tasks.inBody, hI.tasks.started, hI.tasks.started_le,
    hI.tasks.fired_subset, hI.tasks.fired_nodup⟩

/-! ## Steps of the scope -/

/-- The teardown task a worker runs. -/
theorem teardownAt_eq_some {i c : Nat} {pc : WrappedPc} (h : s.teardownAt cfg i pc = some c) :
    (s.logic.dispatcher.workers i).pc = .executing c ∧ (s.logic.submits c).pc ≠ .idle ∧
      cfg.disconnects c = true ∧ (s.logic.submits c).wrapped = pc := by
  unfold Engine.teardownAt at h
  split at h
  next d hw =>
    split at h
    next hd =>
      cases h
      exact ⟨hw, hd⟩
    · cases h
  · cases h

theorem teardownAt_of {i c : Nat} {pc : WrappedPc}
    (hw : (s.logic.dispatcher.workers i).pc = .executing c) (hne : (s.logic.submits c).pc ≠ .idle)
    (hd : cfg.disconnects c = true) (hpc : (s.logic.submits c).wrapped = pc) :
    s.teardownAt cfg i pc = some c := by
  simp [Engine.teardownAt, hw, hne, hd, hpc]

section
variable {a : ScopeAct} {x : ScopedDispatcher}

/-- A step of the scope keeps what holds of the scope, as long as it is not
cancelled, reset or shut down. -/
theorem EngineInv.logic (hI : EngineInv cfg s) (hs : scopeStep cfg.dispatcher s.logic a = some x)
    (hc : a ≠ .cancel) (hr : a ≠ .reset) (hsd : a ≠ .dispatcher .shutdown)
    (hfull : ∀ b, a = .dispatcher b → neverFull cfg.dispatcher s.logic.dispatcher b = true) :
    ScopeInv cfg.dispatcher x ∧ Open x.dispatcher ∧
      x.scope.mCancelled = s.logic.scope.mCancelled ∧
      ∀ c, (x.submits c).pc.rejected = true → x.scope.mCancelled = true := by
  have heff := scopeStep_effect hs
  have hcan := heff.mCancelled_eq hc hr
  refine ⟨hI.scope.step hs, ?_, hcan, fun c hrej => ?_⟩
  · rcases heff.dispatcher_cases with heq | ⟨b, hb, hcall⟩
    · rw [heq]
      exact hI.isOpen
    · refine hI.isOpen.step cfg.hasTask ?_ ?_ hb
      · rintro rfl
        rcases hcall with ⟨c, hcc⟩ | hcc
        · cases hcc
        · exact hsd hcc
      · rcases hcall with ⟨c, rfl⟩ | hcc
        · rfl
        · exact hfull b hcc
  · rw [hcan]
    rcases heff.rejected_cases hrej with h | h | h
    · exact hI.rejected c h
    · exact h
    · -- `Dispatch` refuses nothing while the dispatcher is open.
      have := hI.isOpen.calls c
      rw [h] at this
      cases this

/-- A task that is found queued in a scope that is not cancelled enters its body. -/
theorem body_of_start {i c : Nat} {t : Bool}
    (hs : scopeStep cfg.dispatcher s.logic (.run i t) = some x)
    (hw : (s.logic.dispatcher.workers i).pc = .executing c)
    (hq : (s.logic.submits c).wrapped = .queued) (hcan : s.logic.scope.mCancelled = false) :
    (x.submits c).wrapped = .body := by
  cases scopeStep_effect hs with
  | skip _ d _ hw' _ _ hcan' => simp [hcan] at hcan'
  | start _ d _ hw' =>
      rw [hw] at hw'
      cases hw'
      simp [ScopedDispatcher.setSubmit]
  | body _ d _ hw' _ hq' => rw [hw] at hw'; cases hw'; simp [hq] at hq'
  | ended _ d _ hw' _ hq' => rw [hw] at hw'; cases hw'; simp [hq] at hq'

/-- The task that a step of the scope starts. -/
theorem starting_eq_some {c : Nat} (h : s.starting cfg a = some c) :
    ∃ i t, a = .run i t ∧ s.logic.scope.mCancelled = false ∧
      s.teardownAt cfg i .queued = some c := by
  cases a with
  | run i t =>
      simp only [Engine.starting] at h
      split at h
      · cases h
      next hcan => exact ⟨i, t, rfl, by simpa using hcan, h⟩
  | _ => cases h

/-- A permitted step of the scope keeps what holds of the teardown tasks. -/
theorem EngineInv.tasks_step (hI : EngineInv cfg s)
    (hs : scopeStep cfg.dispatcher s.logic a = some x)
    (hperm : ∀ i t, a = .run i t → s.permits cfg a = true)
    (hcan : x.scope.mCancelled = s.logic.scope.mCancelled)
    (honce : startsOnce cfg s (.scope a) = true) :
    TasksOk cfg { s with logic := x, started := s.started ++ (s.starting cfg a).toList } where
  looked := by
    intro c hd hw
    rcases hI.scope.wrapped_cases hs c with heq | ⟨i, t, rfl, hex, hne, hcase⟩
    · rw [heq] at hw
      rw [hcan]
      exact (hI.tasks.looked c hd hw).imp_left (List.mem_append_left _)
    · rcases hcase with ⟨hq, hc, -⟩ | ⟨hq, hc, -⟩ | ⟨hb, -⟩ | ⟨he, -⟩
      · exact Or.inr (hcan.trans hc)
      · refine Or.inl (List.mem_append_right _ ?_)
        simp [Engine.starting, hc, teardownAt_of hex hne hd hq]
      · rw [hcan]
        exact (hI.tasks.looked c hd (by simp [hb])).imp_left (List.mem_append_left _)
      · rw [hcan]
        exact (hI.tasks.looked c hd (by simp [he])).imp_left (List.mem_append_left _)
  inBody := by
    intro c hd hw
    rcases hI.scope.wrapped_cases hs c with heq | ⟨i, t, rfl, hex, hne, hcase⟩
    · exact List.mem_append_left _ (hI.tasks.inBody c hd (heq.symm.trans hw))
    · change (x.submits c).wrapped = .body at hw
      rcases hcase with ⟨-, -, hnew⟩ | ⟨hq, hc, -⟩ | ⟨hb, -⟩ | ⟨-, hnew⟩
      · simp [hw] at hnew
      · refine List.mem_append_right _ ?_
        simp [Engine.starting, hc, teardownAt_of hex hne hd hq]
      · exact List.mem_append_left _ (hI.tasks.inBody c hd hb)
      · simp [hw] at hnew
  started := by
    intro c hc
    rcases List.mem_append.mp hc with hc | hc
    · obtain ⟨hd, hacc, hw⟩ := hI.tasks.started c hc
      refine ⟨hd, hI.scope.accepted_step hs hacc, ?_⟩
      rcases hI.scope.wrapped_cases hs c with heq | ⟨i, t, rfl, hex, hne, hcase⟩
      · rw [heq]
        exact hw
      · rcases hcase with ⟨hq, -⟩ | ⟨hq, -⟩ | ⟨hb, hnew⟩ | ⟨he, hnew⟩
        · simp [hq] at hw
        · simp [hq] at hw
        · -- The body ends.  It has fired, for it neither returns nor throws before.
          have hat := teardownAt_of hex hne hd hb
          have h1 : t = true ∨ c ∈ s.fired := by
            simpa [Engine.permits, hat] using hperm i t rfl
          have h2 : t = false ∨ c ∈ s.fired := by
            have := (Bool.and_eq_true_iff.mp honce).2
            simpa [hat] using this
          have hfired : c ∈ s.fired := by
            rcases h1 with h1 | h1
            · rcases h2 with h2 | h2
              · rw [h1] at h2
                cases h2
              · exact h2
            · exact h1
          refine Or.inr ⟨hfired, ?_⟩
          show (x.submits c).wrapped ≠ .queued
          rw [hnew]
          split <;> simp
        · rcases hw with hw | ⟨hf, -⟩
          · simp [he] at hw
          · refine Or.inr ⟨hf, ?_⟩
            show (x.submits c).wrapped ≠ .queued
            simp [hnew]
    · obtain ⟨i, t, rfl, hc', hat⟩ := starting_eq_some (Option.mem_toList.mp hc)
      obtain ⟨hex, hne, hd, hq⟩ := teardownAt_eq_some hat
      refine ⟨hd, ?_, Or.inl (body_of_start hs hex hq hc')⟩
      exact hI.scope.accepted_step hs (hI.scope.executing hex hne).1
  started_le := by
    show (s.started ++ (s.starting cfg a).toList).length ≤ 1
    have hle := hI.tasks.started_le
    cases hst : s.starting cfg a with
    | none => simpa using hle
    | some c =>
        obtain ⟨i, t, rfl, -, -⟩ := starting_eq_some hst
        have hempty : s.started = [] := by
          have := (Bool.and_eq_true_iff.mp honce).1
          simpa [hst] using this
        simp [hempty]
  fired_subset := fun c hc => List.mem_append_left _ (hI.tasks.fired_subset c hc)
  fired_nodup := hI.tasks.fired_nodup

/-- A step of the scope keeps the invariant. -/
theorem EngineInv.scope_step (hI : EngineInv cfg s)
    (hs : scopeStep cfg.dispatcher s.logic a = some x)
    (hc : a ≠ .cancel) (hr : a ≠ .reset) (hsd : a ≠ .dispatcher .shutdown)
    (hperm : ∀ i t, a = .run i t → s.permits cfg a = true)
    (hfull : queuesNeverFull cfg s (.scope a) = true)
    (honce : startsOnce cfg s (.scope a) = true) :
    EngineInv cfg { s with logic := x, started := s.started ++ (s.starting cfg a).toList } := by
  obtain ⟨hscope, hopen, hcan, hrej⟩ := hI.logic hs hc hr hsd (by rintro b rfl; exact hfull)
  exact {
    scope := hscope
    isOpen := hopen
    rejected := hrej
    state := hI.state
    cancelled := by
      intro hc
      obtain ⟨hst, hne⟩ := hI.cancelled (hcan.symm.trans hc)
      exact ⟨hst, fun h => hne (List.append_eq_nil_iff.mp h).1⟩
    removed := hI.removed
    closer := by
      intro hst
      rcases hI.closer hst with hc | ⟨k, hd, hret⟩
      · exact Or.inl (hcan.trans hc)
      · exact Or.inr ⟨k, hd, (scopeStep_effect hs).returned hret⟩
    threads := fun k => (hI.threads k).mono (fun h => hcan.trans h)
      (fun h => (scopeStep_effect hs).returned h) id
    tasks := hI.tasks_step hs hperm hcan honce }

end

/-! ## Every allowed step keeps the invariant -/

/-- The thread calls `Submit`. -/
theorem EngineInv.submit_step (hI : EngineInv cfg s) {k : Nat} {x : ScopedDispatcher}
    (hs : scopeStep cfg.dispatcher s.logic (.call k) = some x) :
    EngineInv cfg ({ s with logic := x }.setThread k .submitting) := by
  have h := hI.scope_step hs (by simp) (by simp) (by simp) (by simp) rfl rfl
  have heq : s.started ++ (s.starting cfg (.call k)).toList = s.started := by
    simp [Engine.starting]
  rw [heq] at h
  exact h.move s.mMutex .submitting trivial

/-- The thread exchanges `mState` and goes on to close the session. -/
theorem EngineInv.exchange_step (hI : EngineInv cfg s) {k : Nat} (hpc : s.threads k = .exchange) :
    EngineInv cfg ({ s with mState := .disconnected }.setThread k .cleanup) where
  scope := hI.scope
  isOpen := hI.isOpen
  rejected := hI.rejected
  state := Or.inr rfl
  cancelled := fun hc => ⟨rfl, (hI.cancelled hc).2⟩
  removed := fun _ => rfl
  closer := by
    intro _
    have hok := hI.threads k
    rw [hpc] at hok
    exact hok.imp_right fun h => ⟨k, h⟩
  threads := by
    have hmono : ∀ j, (s.threads j).Ok cfg { s with mState := .disconnected } j :=
      fun j => (hI.threads j).mono id id fun _ => rfl
    exact (Function.forall_update_iff s.threads
      (p := fun j pc => ThreadPc.Ok cfg { s with mState := .disconnected } j pc)).mpr
        ⟨rfl, fun j _ => hmono j⟩
  tasks := ⟨hI.tasks.looked, hI.tasks.inBody, hI.tasks.started, hI.tasks.started_le,
    hI.tasks.fired_subset, hI.tasks.fired_nodup⟩

/-- The thread cancels the scope after a teardown task has started. -/
theorem EngineInv.cancel_step (hI : EngineInv cfg s) {k : Nat} {x : ScopedDispatcher}
    (hpc : s.threads k = .cancel) (hstarted : s.started ≠ [])
    (hs : scopeStep cfg.dispatcher s.logic .cancel = some x) :
    EngineInv cfg ({ s with logic := x }.setThread k .eraseLock) := by
  have hst : s.mState = .disconnected := by
    have hok := hI.threads k
    rw [hpc] at hok
    exact hok
  have hscope := hI.scope.step hs
  cases scopeStep_effect hs
  exact {
    scope := hscope
    isOpen := hI.isOpen
    rejected := fun _ _ => rfl
    state := hI.state
    cancelled := fun _ => ⟨hst, hstarted⟩
    removed := hI.removed
    closer := fun _ => Or.inl rfl
    threads := by
      have hmono : ∀ j, (s.threads j).Ok cfg { s with
          logic := { s.logic with scope := { s.logic.scope with mCancelled := true } } } j :=
        fun j => (hI.threads j).mono (fun _ => rfl) id id
      exact (Function.forall_update_iff s.threads
        (p := fun j pc => ThreadPc.Ok cfg { s with
          logic := { s.logic with scope := { s.logic.scope with mCancelled := true } } } j pc)).mpr
        ⟨hst, fun j _ => hmono j⟩
    tasks := ⟨fun c hd hw => (hI.tasks.looked c hd hw).imp_right fun _ => rfl, hI.tasks.inBody,
      hI.tasks.started, hI.tasks.started_le, hI.tasks.fired_subset, hI.tasks.fired_nodup⟩ }

/-- An allowed step of a thread keeps the invariant. -/
theorem EngineInv.thread_step (hI : EngineInv cfg s) {k : Nat}
    (honce : startsOnce cfg s (.thread k) = true) (hs : threadStep cfg s k = some s') :
    EngineInv cfg s' := by
  have hok := hI.threads k
  unfold threadStep at hs
  cases hpc : s.threads k with
  | idle => simp [hpc] at hs
  | getLock =>
      simp only [hpc] at hs
      split at hs
      · cases hs
      · cases hs; exact hI.move _ _ trivial
  | getFind => simp only [hpc] at hs; cases hs; exact hI.move s.mMutex _ trivial
  | getUnlock found =>
      simp only [hpc] at hs
      cases hs
      refine hI.move _ _ ?_
      split
      · trivial
      · split <;> trivial
  | connectedTest =>
      simp only [hpc] at hs
      cases hs
      refine hI.move s.mMutex _ ?_
      split <;> trivial
  | submit =>
      simp only [hpc] at hs
      obtain ⟨x, hx, rfl⟩ := Option.map_eq_some_iff.mp hs
      exact hI.submit_step hx
  | submitting =>
      simp only [hpc] at hs
      split at hs
      next r hr =>
        cases hs
        refine hI.move s.mMutex _ ?_
        split
        next hgo =>
          -- A rejected call means a cancelled scope.
          cases r with
          | false => exact Or.inl (hI.rejected k (by rw [hr]; rfl))
          | true => exact Or.inr ⟨by simpa using hgo, hr⟩
        · trivial
      · cases hs
  | removeTest =>
      simp only [hpc] at hs
      cases hs
      refine hI.move s.mMutex _ ?_
      split
      · rw [hpc] at hok
        exact hok
      next hne => exact hI.state.resolve_left hne
  | exchange =>
      simp only [hpc] at hs
      split at hs
      next hd => cases hs; exact hI.move s.mMutex .eraseLock hd
      next => cases hs; exact hI.exchange_step hpc
  | cleanup =>
      simp only [hpc] at hs
      cases hs
      rw [hpc] at hok
      exact hI.move s.mMutex .cancel hok
  | cancel =>
      simp only [hpc] at hs
      obtain ⟨x, hx, rfl⟩ := Option.map_eq_some_iff.mp hs
      refine hI.cancel_step hpc ?_ hx
      simpa [startsOnce, hpc] using honce
  | eraseLock =>
      simp only [hpc] at hs
      rw [hpc] at hok
      split at hs
      · cases hs
      · cases hs; exact hI.move _ .erase hok
  | erase =>
      simp only [hpc] at hs
      cases hs
      rw [hpc] at hok
      have h := hI.move (k := k) s.mMutex .eraseUnlock hok
      exact ⟨h.scope, h.isOpen, h.rejected, h.state, h.cancelled, fun _ => hok, h.closer,
        h.threads, ⟨h.tasks.looked, h.tasks.inBody, h.tasks.started, h.tasks.started_le,
          h.tasks.fired_subset, h.tasks.fired_nodup⟩⟩
  | eraseUnlock => simp only [hpc] at hs; cases hs; exact hI.move _ .returned trivial
  | returned => simp [hpc] at hs

/-- Firing an event keeps the invariant. -/
theorem EngineInv.fire_step (hI : EngineInv cfg s) {i c : Nat}
    (hat : s.teardownAt cfg i .body = some c) (hnot : c ∉ s.fired) :
    EngineInv cfg { s with fired := s.fired ++ [c] } := by
  obtain ⟨hex, hne, hd, hb⟩ := teardownAt_eq_some hat
  have hmem : c ∈ s.started := hI.tasks.inBody c hd hb
  refine ⟨hI.scope, hI.isOpen, hI.rejected, hI.state, hI.cancelled, hI.removed, hI.closer,
    hI.threads, ⟨hI.tasks.looked, hI.tasks.inBody, ?_, hI.tasks.started_le, ?_, ?_⟩⟩
  · intro d hds
    obtain ⟨h1, h2, h3⟩ := hI.tasks.started d hds
    exact ⟨h1, h2, h3.imp_right fun h => ⟨List.mem_append_left _ h.1, h.2⟩⟩
  · intro d hdf
    rcases List.mem_append.mp hdf with h | h
    · exact hI.tasks.fired_subset d h
    · rw [List.mem_singleton.mp h]
      exact hmem
  · refine List.nodup_append.mpr ⟨hI.tasks.fired_nodup, by simp, fun d hdf e he => ?_⟩
    rw [List.mem_singleton.mp he]
    exact fun hde => hnot (hde ▸ hdf)

/-- Every allowed step keeps the invariant. -/
theorem EngineInv.step {a : EngineAct} (hI : EngineInv cfg s)
    (hfull : queuesNeverFull cfg s a = true) (honce : startsOnce cfg s a = true)
    (hs : engineStep cfg s a = some s') : EngineInv cfg s' := by
  cases a with
  | enter k =>
      simp only [engineStep] at hs
      split at hs
      · cases hs; exact hI.move s.mMutex .getLock trivial
      · cases hs
  | thread k => exact hI.thread_step honce hs
  | fireEvent i =>
      simp only [engineStep] at hs
      split at hs
      next c hat =>
        split at hs
        · cases hs
        next hnot => cases hs; exact hI.fire_step hat (by simpa using hnot)
      · cases hs
  | scope a =>
      simp only [engineStep] at hs
      split at hs
      next hperm =>
        obtain ⟨x, hx, rfl⟩ := Option.map_eq_some_iff.mp hs
        exact hI.scope_step hx (by rintro rfl; cases hperm) (by rintro rfl; cases hperm)
          (by rintro rfl; cases hperm) (fun _ _ _ => hperm) hfull honce
      · cases hs

/-- In a state that satisfies the invariant, the event is fired once. -/
theorem EngineInv.firesOnce (hI : EngineInv cfg s) : FiresOnce s := by
  intro hremoved hran
  -- An accepted teardown task is over, for the dispatcher is done with it.
  have hover : ∀ c, s.logic.accepted c = true → (s.logic.submits c).pc ≠ .idle →
      (s.logic.submits c).wrapped.isFinished = true :=
    fun c hacc hne => (hI.scope.submits c).finished hne
      (Or.inl (hran c ((hI.scope.dispatcher.calls.accepted c).mpr hacc)))
  have hstarted : s.started ≠ [] := by
    rcases hI.closer (hI.removed hremoved) with hc | ⟨k, hd, hret⟩
    · exact (hI.cancelled hc).2
    · have hk := hover k (hI.scope.accepted_of_returned hret) (by simp [hret])
      rcases hI.tasks.looked k hd (fun hq => by simp [hq, WrappedPc.isFinished] at hk) with hmem | hc
      · exact List.ne_nil_of_mem hmem
      · exact (hI.cancelled hc).2
  obtain ⟨c, hc⟩ := List.exists_mem_of_ne_nil _ hstarted
  obtain ⟨hd, hacc, hw⟩ := hI.tasks.started c hc
  have hfired : c ∈ s.fired := by
    rcases hw with hw | hw
    · have hne : (s.logic.submits c).pc ≠ .idle := fun he => by
        simp [(hI.scope.submits c).idle he] at hw
      have := hover c hacc hne
      rw [hw] at this
      cases this
    · exact hw.1
  have hle : s.fired.length ≤ s.started.length :=
    (List.Nodup.subperm hI.tasks.fired_nodup hI.tasks.fired_subset).length_le
  have hpos : 0 < s.fired.length := List.length_pos_of_mem hfired
  have := hI.tasks.started_le
  omega

/-- In every run in which the queues are never full, the scope is cancelled only
after a teardown task has started, no second one starts, and none throws before
it has fired, the `Disconnected` event is fired exactly once. -/
theorem firesOnce_of_startsOnce (cfg : EngineConfig) (as : List EngineAct) (s : Engine)
    (hfull : Machine.Meets (engineStep cfg) (fun s a => queuesNeverFull cfg s a) {} as)
    (honce : Machine.Meets (engineStep cfg) (fun s a => startsOnce cfg s a) {} as)
    (hrun : Machine.run (engineStep cfg) {} as = some s) : FiresOnce s := by
  have hboth := hfull.and honce
  have hI : EngineInv cfg s := Machine.run_invariant_of_meets
    (fun _ _ _ hI hok hs => hI.step hok.1 hok.2 hs) engineInv_init hboth hrun
  exact hI.firesOnce

/-- One worker, thread 0 calls `CloseConnection`, and the others see a peer that
has closed. -/
def peerConfig : EngineConfig :=
  ⟨oneWorker, fun _ => rfl, fun k => if k = 0 then .closeConnection else .recvCompletion 0⟩

/-- Thread 0 finds the session and hands its teardown task over. -/
def handOver : List EngineAct :=
  List.flatten
    [[.enter 0], List.replicate 4 (.thread 0), List.replicate 3 (.scope (.submit 0)),
      List.replicate 12 (.scope (.dispatcher (.dispatch 0 false))), [.scope (.submit 0)]]

/-- Thread 0 closes and removes the session. -/
def removal : List EngineAct := List.replicate 8 (.thread 0)

/-- The worker takes the task and looks at the scope. -/
def takeTask : List EngineAct :=
  List.replicate 5 (.scope (.dispatcher (.work 0 false false))) ++ [.scope (.run 0 false)]

/-- The worker starts the task before thread 0 goes on. -/
def promptTrace : List EngineAct :=
  List.flatten
    [handOver, takeTask, removal, [.fireEvent 0, .scope (.run 0 false), .scope (.run 0 false)],
      List.replicate 2 (.scope (.dispatcher (.work 0 false false)))]

/-- The session is removed, its task has run, and the event was fired once. -/
theorem firesOnce_promptTrace :
    ∃ s, Machine.run (engineStep peerConfig) {} promptTrace = some s ∧ s.inMap = false ∧
      s.logic.dispatcher.finished = [0] ∧ s.fired = [0] ∧ FiresOnce s :=
  ⟨_, rfl, rfl, rfl, rfl,
    firesOnce_of_startsOnce peerConfig promptTrace _ (by decide) (by decide) rfl⟩

/-- Thread 0 cancels the scope before the worker takes the task. -/
def cancelFirstTrace : List EngineAct :=
  List.flatten
    [handOver, removal, takeTask, [.scope (.run 0 false)],
      List.replicate 2 (.scope (.dispatcher (.work 0 false false)))]

/-- The session is removed and its task has run, but no event was fired. -/
theorem cancelFirst_fires_nothing :
    ∃ s, Machine.run (engineStep peerConfig) {} cancelFirstTrace = some s ∧ s.inMap = false ∧
      s.threads 0 = .returned ∧ s.logic.dispatcher.pushed = [0] ∧
      s.logic.dispatcher.finished = [0] ∧ s.fired = [] ∧ ¬ FiresOnce s :=
  ⟨_, rfl, rfl, rfl, rfl, rfl, rfl, by decide⟩

end

end NetworkModule.SessionTeardown
