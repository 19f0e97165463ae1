import NetworkModule.Types
import NetworkModule.Lib.Machine
import NetworkModule.Network.PacketFraming
import Mathlib

/-!
# The engine and its sessions

`LinuxNetworkEngine` and `BaseNetworkEngine` from the accepted connection to the
events of its session.  The accept thread creates a session, dispatches the
`Connected` task and queues the first receive.  Any number of other threads handle
completions, call `CloseConnection`, as the application and the timeout sweep do,
or send.  Each of these calls is a thread of its own here, so every interleaving of
them is a run.

A session's tasks have its id as their key.  `KeyedDispatcher` runs the tasks of one
key one after the other in the order in which they were accepted, so a session has
one queue and at most one running task.  The label of a step says whether the
dispatcher accepts a task, whether `RecvAsync` or `SendAsync` succeeds, and what was
received.

`Session::Close` is three steps: it exchanges `mState`, it drops what the session
has, and it cancels the session's `AsyncScope`.  `SessionManager::RemoveSession`
closes the session and erases it from the manager.  Not every caller of `Close` goes
on to erase.
-/

namespace NetworkModule.LinuxEngine

/-! ## Sessions -/

/-- `NetworkEvent`, as far as the engine fires it. -/
inductive NetworkEvent where
  | connected
  | disconnected
  | dataReceived
  | dataSent
  deriving DecidableEq, Repr

/-- What is dispatched to the logic queue of a session. -/
inductive Task where
  /-- `AcceptLoop`: `OnConnected` and the event. -/
  | connected
  /-- `AcceptLoop` after the first receive could not be queued: the event. -/
  | disconnected
  /-- `CloseConnection` and `ProcessRecvCompletion`: `OnDisconnected` and the event. -/
  | teardown
  /-- `ProcessRecvCompletion`: `ProcessRawRecv` and the event. -/
  | data (chunk : List UInt8)
  deriving DecidableEq, Repr

/-- The task was submitted through the session's `AsyncScope`. -/
def Task.scoped : Task → Bool
  | .teardown | .data _ => true
  | .connected | .disconnected => false

/-- The task fires `Disconnected`. -/
def Task.disconnects : Task → Bool
  | .disconnected | .teardown => true
  | .connected | .data _ => false

/-- Where a thread stands in `Session::Close`. -/
inductive ClosePc where
  /-- The exchange of `mState`. -/
  | exchange
  /-- The socket is closed and the buffers are cleared. -/
  | cleanup
  /-- `mAsyncScope.Cancel()`. -/
  | cancel
  deriving DecidableEq, Repr

/-- Where the running task of a session stands. -/
inductive RunPc where
  /-- The wrapper of a scoped task loads `mCancelled`. -/
  | cancelledTest (task : Task)
  /-- The body of the task, up to the end of `ProcessRawRecv`. -/
  | body (task : Task)
  /-- `ProcessRawRecv` closes the session. -/
  | close (pc : ClosePc) (chunk : List UInt8)
  /-- `FireEvent(DataReceived)` with the chunk. -/
  | fire (chunk : List UInt8)
  deriving DecidableEq, Repr

/-- A session, its logic queue and its events. -/
structure Sess where
  /-- Whether `mSessions` of the manager holds it. -/
  registered : Bool := true
  mState : SessionState := .connected
  /-- `mCancelled` of its `AsyncScope`. -/
  mCancelled : Bool := false
  /-- Its receive side. -/
  recv : PacketFraming.Session := PacketFraming.init
  /-- The tasks that are queued. -/
  tasks : List Task := []
  /-- The task that is running. -/
  running : Option RunPc := none
  /-- The events fired for it, oldest first. -/
  events : List NetworkEvent := []
  /-- The tasks that the dispatcher has accepted, oldest first. -/
  dispatched : List Task := []
  deriving DecidableEq, Repr

/-- `IsConnected`. -/
def Sess.isConnected (x : Sess) : Bool := x.mState == .connected

/-- The dispatcher accepts a task. -/
def Sess.push (x : Sess) (task : Task) : Sess :=
  { x with tasks := x.tasks ++ [task], dispatched := x.dispatched ++ [task] }

/-- `FireEvent`. -/
def Sess.fireEvent (x : Sess) (event : NetworkEvent) : Sess :=
  { x with events := x.events ++ [event] }

/-- A step of `Session::Close`, and where it stands then, if it has not returned. -/
def ClosePc.step (x : Sess) : ClosePc → Sess × Option ClosePc
  | .exchange =>
      if x.mState = .disconnected then (x, none)
      else ({ x with mState := .disconnected }, some .cleanup)
  | .cleanup =>
      ({ x with recv := { x.recv with mRecvAccumBuffer := [], mRecvAccumOffset := 0 } }, some .cancel)
  | .cancel => ({ x with mCancelled := true }, none)

/-- `ProcessRawRecv` up to the test of `shouldClose`, and its value. -/
def Sess.processRawRecv (x : Sess) (chunk : List UInt8) : Sess × Bool :=
  let r := { x.recv with closed := false }.processRawRecv chunk
  ({ x with recv := { r with closed := false } }, r.closed)

/-- The next step of the logic worker on the tasks of the session. -/
def Sess.logic (x : Sess) : Option Sess :=
  match x.running with
  | none =>
      match x.tasks with
      | [] => none
      | task :: rest =>
          some { x with
            tasks := rest
            running := some (if task.scoped then .cancelledTest task else .body task) }
  | some (.cancelledTest task) =>
      some { x with running := if x.mCancelled then none else some (.body task) }
  | some (.body .connected) => some { x.fireEvent .connected with running := none }
  | some (.body .disconnected) | some (.body .teardown) =>
      some { x.fireEvent .disconnected with running := none }
  | some (.body (.data chunk)) =>
      let r := x.processRawRecv chunk
      some { r.1 with running := some (if r.2 then .close .exchange chunk else .fire chunk) }
  | some (.close pc chunk) =>
      let r := pc.step x
      some { r.1 with running := some (r.2.elim (.fire chunk) fun pc' => .close pc' chunk) }
  | some (.fire _) => some { x.fireEvent .dataReceived with running := none }

/-! ## Threads -/

/-- What a thread calls. -/
inductive Call where
  /-- `CloseConnection`. -/
  | closeConnection
  /-- `ProcessCompletions` with a receive that brought in bytes. -/
  | recvCompletion (chunk : List UInt8)
  /-- `ProcessCompletions` with a failed operation. -/
  | errorCompletion
  /-- `ProcessCompletions` with a send. -/
  | sendCompletion
  /-- `SendData`. -/
  | sendData
  deriving DecidableEq, Repr

/-- Where `ProcessRecvCompletion` returns to. -/
inductive After where
  /-- `ProcessCompletions`, which then queues the next receive. -/
  | requeue
  /-- Out of the engine. -/
  | done
  deriving DecidableEq, Repr

/-- Where a thread stands. -/
inductive ThreadPc where
  /-- `GetSession`. -/
  | getSession (call : Call)
  /-- `ProcessRecvCompletion` tests `IsConnected`.  No bytes stand for an error. -/
  | connectedTest (chunk : List UInt8) (after : After)
  /-- `Submit` loads `mCancelled`. -/
  | cancelledTest (task : Task) (after : After)
  /-- `Submit` calls `Dispatch`. -/
  | dispatch (task : Task) (after : After)
  /-- `RemoveSession` tests `IsConnected`. -/
  | removeTest (after : After)
  /-- `Close`, called by `RemoveSession` or by `PostSend`. -/
  | close (pc : ClosePc) (remove : Option After)
  /-- `RemoveSession` erases the session. -/
  | erase (after : After)
  /-- `ProcessCompletions` tests `IsConnected` before it queues the next receive. -/
  | requeueTest
  /-- `QueueRecv`. -/
  | queueRecv
  /-- `ProcessSendCompletion` fires `DataSent`. -/
  | dataSent
  /-- `Send` tests `IsConnected`. -/
  | sendTest
  /-- `PostSend`. -/
  | postSend
  /-- The call has returned. -/
  | returned
  deriving DecidableEq, Repr

/-- The first step of a call, once the session is found. -/
def Call.begin : Call → ThreadPc
  | .closeConnection => .cancelledTest .teardown .done
  | .recvCompletion chunk => .connectedTest chunk (if chunk = [] then .done else .requeue)
  | .errorCompletion => .connectedTest [] .done
  | .sendCompletion => .dataSent
  | .sendData => .sendTest

/-- `ProcessRecvCompletion` returns. -/
def After.resume : After → ThreadPc
  | .requeue => .requeueTest
  | .done => .returned

/-- After `Submit`: a teardown goes on to `RemoveSession`, and so does received data
that was refused. -/
def afterSubmit (accepted : Bool) (after : After) : Task → ThreadPc
  | .data _ => if accepted then after.resume else .removeTest after
  | _ => .removeTest after

/-- After `Close`. -/
def afterClose : Option After → ThreadPc
  | none => .returned
  | some after => .erase after

/-- The next step of a thread on its session.  `ok` is the answer of `Dispatch`,
`RecvAsync` or `SendAsync`. -/
def ThreadPc.step (x : Sess) (ok : Bool) : ThreadPc → Option (Sess × ThreadPc)
  | .getSession call => some (x, if x.registered then call.begin else .returned)
  | .connectedTest chunk after =>
      some (x, if x.isConnected then
          .cancelledTest (if chunk = [] then .teardown else .data chunk) after
        else after.resume)
  | .cancelledTest task after =>
      some (x, if x.mCancelled then afterSubmit false after task else .dispatch task after)
  | .dispatch task after => some (if ok then x.push task else x, afterSubmit ok after task)
  | .removeTest after =>
      some (x, if x.isConnected then .close .exchange (some after) else .erase after)
  | .close pc remove =>
      let r := pc.step x
      some (r.1, r.2.elim (afterClose remove) fun pc' => .close pc' remove)
  | .erase after => some ({ x with registered := false }, after.resume)
  | .requeueTest => some (x, if x.isConnected then .queueRecv else .returned)
  -- A receive that cannot be queued is handled as an error.
  | .queueRecv => some (x, if ok then .returned else .connectedTest [] .done)
  | .dataSent => some (x.fireEvent .dataSent, .postSend)
  | .sendTest => some (x, if x.isConnected then .postSend else .returned)
  -- Where nothing is left to send, `SendAsync` is not called.
  | .postSend => some (x, if ok then .returned else .close .exchange none)
  | .returned => none

/-- A thread and the session it works on. -/
structure Thread where
  sess : Nat
  pc : ThreadPc
  deriving DecidableEq, Repr

/-- Where the accept thread stands with a session. -/
inductive AcceptPc where
  /-- `AssociateSocket`. -/
  | associate
  /-- `Dispatch` of the `Connected` task. -/
  | connected
  /-- `QueueRecv`. -/
  | queueRecv
  /-- `Dispatch` of the `Disconnected` task. -/
  | disconnected
  deriving DecidableEq, Repr

/-- The next step of the accept thread, where it stands then, and whether it goes on
to `RemoveSession`.  The answer of `Dispatch` is not looked at. -/
def AcceptPc.step (x : Sess) (ok : Bool) : AcceptPc → Sess × Option AcceptPc × Bool
  | .associate => (x, if ok then some .connected else none, !ok)
  | .connected => (if ok then x.push .connected else x, some .queueRecv, false)
  | .queueRecv => (x, if ok then none else some .disconnected, false)
  | .disconnected => (if ok then x.push .disconnected else x, none, true)

/-- The engine.  Sessions are numbered in the order in which they were created. -/
structure Engine where
  sessions : List Sess := []
  /-- The session the accept thread works on. -/
  accepting : Option (Nat × AcceptPc) := none
  threads : List Thread := []
  deriving DecidableEq, Repr

/-! ## Steps -/

/-- Who moves. -/
inductive EngineAct where
  /-- A connection is accepted and `CreateSession` makes a session for it. -/
  | accept
  /-- The accept thread takes its next step. -/
  | acceptStep (ok : Bool)
  /-- A thread makes a call on session `i`. -/
  | call (i : Nat) (call : Call)
  /-- Thread `k` takes its next step. -/
  | thread (k : Nat) (ok : Bool)
  /-- The logic worker takes its next step on the tasks of session `i`. -/
  | logic (i : Nat)
  deriving DecidableEq, Repr

/-- One step of the engine. -/
def engineStep (s : Engine) : EngineAct → Option Engine
  | .accept =>
      if s.accepting = none then
        some { s with
          sessions := s.sessions ++ [{}], accepting := some (s.sessions.length, .associate) }
      else none
  | .acceptStep ok =>
      s.accepting.bind fun a => s.sessions[a.1]?.map fun x =>
        let r := a.2.step x ok
        { s with
          sessions := s.sessions.set a.1 r.1
          accepting := r.2.1.map fun pc => (a.1, pc)
          -- `RemoveSession` is left to a thread of its own.
          threads := if r.2.2 then s.threads ++ [⟨a.1, .removeTest .done⟩] else s.threads }
  | .call i call =>
      if i < s.sessions.length then
        some { s with threads := s.threads ++ [⟨i, .getSession call⟩] }
      else none
  | .thread k ok =>
      s.threads[k]?.bind fun th => s.sessions[th.sess]?.bind fun x =>
        (th.pc.step x ok).map fun r =>
          { s with
            sessions := s.sessions.set th.sess r.1
            threads := s.threads.set k ⟨th.sess, r.2⟩ }
  | .logic i =>
      s.sessions[i]?.bind fun x => x.logic.map fun x' => { s with sessions := s.sessions.set i x' }

/-- No task is queued or running, no completion is being handled and no thread is
inside the engine. -/
def Engine.Quiescent (s : Engine) : Prop :=
  s.accepting = none ∧ (∀ th ∈ s.threads, th.pc = .returned) ∧
    ∀ x ∈ s.sessions, x.tasks = [] ∧ x.running = none

instance (s : Engine) : Decidable s.Quiescent := inferInstanceAs (Decidable (_ ∧ _ ∧ _))

/-! ## What a step does -/

section
variable {s s' : Engine}

theorem acceptStep_cases {ok : Bool} (h : engineStep s (.acceptStep ok) = some s') :
    ∃ i pc x, s.accepting = some (i, pc) ∧ s.sessions[i]? = some x ∧
      s'.sessions = s.sessions.set i (pc.step x ok).1 ∧
      s'.accepting = (pc.step x ok).2.1.map (fun pc' => (i, pc')) ∧
      s'.threads = if (pc.step x ok).2.2 then s.threads ++ [⟨i, .removeTest .done⟩]
        else s.threads := by
  obtain ⟨⟨i, pc⟩, hacc, h⟩ := Option.bind_eq_some_iff.mp h
  obtain ⟨x, hx, rfl⟩ := Option.map_eq_some_iff.mp h
  exact ⟨i, pc, x, hacc, hx, rfl, rfl, rfl⟩

theorem threadStep_cases {k : Nat} {ok : Bool} (h : engineStep s (.thread k ok) = some s') :
    ∃ i pc x x' pc', s.threads[k]? = some ⟨i, pc⟩ ∧ s.sessions[i]? = some x ∧
      pc.step x ok = some (x', pc') ∧
      s' = { s with sessions := s.sessions.set i x', threads := s.threads.set k ⟨i, pc'⟩ } := by
  obtain ⟨⟨i, pc⟩, hk, h⟩ := Option.bind_eq_some_iff.mp h
  obtain ⟨x, hx, h⟩ := Option.bind_eq_some_iff.mp h
  obtain ⟨⟨x', pc'⟩, hstep, rfl⟩ := Option.map_eq_some_iff.mp h
  exact ⟨i, pc, x, x', pc', hk, hx, hstep, rfl⟩

theorem logicStep_cases {i : Nat} (h : engineStep s (.logic i) = some s') :
    ∃ x x', s.sessions[i]? = some x ∧ x.logic = some x' ∧
      s' = { s with sessions := s.sessions.set i x' } := by
  obtain ⟨x, hx, h⟩ := Option.bind_eq_some_iff.mp h
  obtain ⟨x', hstep, rfl⟩ := Option.map_eq_some_iff.mp h
  exact ⟨x, x', hx, hstep, rfl⟩

end

/-- The session with number `j` after session `i` has changed. -/
theorem getElem?_set_cases {sessions : List Sess} {i j : Nat} {x' y : Sess}
    (h : (sessions.set i x')[j]? = some y) : (j = i ∧ y = x') ∨ (j ≠ i ∧ sessions[j]? = some y) := by
  by_cases hj : j = i
  · subst hj
    rw [List.getElem?_set_self'] at h
    obtain ⟨_, -, rfl⟩ := Option.map_eq_some_iff.mp h
    exact Or.inl ⟨rfl, rfl⟩
  · rw [List.getElem?_set_ne (Ne.symm hj)] at h
    exact Or.inr ⟨hj, h⟩

/-- The session with number `j` after one more has been created. -/
theorem getElem?_concat_cases {sessions : List Sess} {j : Nat} {x y : Sess}
    (h : (sessions ++ [x])[j]? = some y) :
    sessions[j]? = some y ∨ (j = sessions.length ∧ y = x) := by
  rcases Nat.lt_or_ge j sessions.length with hj | hj
  · rw [List.getElem?_append_left hj] at h
    exact Or.inl h
  · rw [List.getElem?_append_right hj, List.getElem?_singleton] at h
    split at h
    next hzero =>
      cases h
      exact Or.inr ⟨by omega, rfl⟩
    · cases h

end NetworkModule.LinuxEngine
