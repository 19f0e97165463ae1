import NetworkModule.Lib.Machine
import NetworkModule.Types
import NetworkModule.Utils.KeyGenerator
import Mathlib

/-!
# A worker of DBServerTaskQueue

What one worker thread of `TestServer/src/DBServerTaskQueue.cpp` does with the
data it owns: `ProcessTask`, `HandleResponse` and `CheckTimeouts` over the map
of sessions, and the loop around them.  A session has at most one request in
flight.  Tasks that arrive meanwhile wait in its `pending` queue, and whoever
ends the request takes the next one from there.

The map is an association list without duplicate keys.  The order of its
entries is the order in which the source iterates over the `unordered_map`,
which is unspecified, so the step `rehash` may permute them at any time.

A task has a number, by which the histories know it.  The worker records every
packet given to `mSendFunc`, every callback it invokes, and the requests that
are outstanding: sent, and neither answered nor timed out.
-/

namespace NetworkModule.DBServer

/-! ## Tasks and sessions -/

/-- The result codes the queue uses itself, and any other code of the peer. -/
inductive ResultCode where
  | success
  | unknown
  | invalidRequest
  | notInitialized
  | shuttingDown
  | dbServerNotConnected
  | dbServerTimeout
  | other (code : Int)
  deriving DecidableEq, Repr

/-- `DBServerTaskType`.  A value that is no enumerator is `other`. -/
inductive DBServerTaskType where
  | savePlayerProgress
  | loadPlayerData
  | other (value : UInt8)
  deriving DecidableEq, Repr

/-- `DBServerTask`. -/
structure DBServerTask where
  /-- The number of the task. -/
  uid : Nat
  type : DBServerTaskType := .savePlayerProgress
  sessionId : ConnectionId
  data : List UInt8 := []
  /-- What `checkFunc` answers on the task, if there is one. -/
  checkFunc : Option Bool := none
  /-- Whether there is a `callback`. -/
  hasCallback : Bool := true
  deriving DecidableEq, Repr

/-- The callback of the task, known by the task's number. -/
def DBServerTask.callback (t : DBServerTask) : Option Nat :=
  if t.hasCallback then some t.uid else none

/-- `DBResponseEvent`. -/
structure DBResponseEvent where
  requestId : UInt64
  result : ResultCode := .unknown
  detail : String := ""
  deriving DecidableEq, Repr

/-- `SessionState`. -/
structure SessionState where
  /-- The request in flight, or 0. -/
  requestId : UInt64 := 0
  callback : Option Nat := none
  /-- The tasks that arrived while a request was in flight, oldest first. -/
  pending : List DBServerTask := []
  inflightDeadline : Nat := 0
  deriving DecidableEq, Repr

/-- `PKT_DBQueryReq`. -/
structure DBQueryReq where
  queryId : UInt64
  taskType : DBServerTaskType
  data : List UInt8
  deriving DecidableEq, Repr

/-- A packet given to `mSendFunc`, with the task it was made from. -/
structure Send where
  pkt : DBQueryReq
  sessionId : ConnectionId
  uid : Nat
  deriving DecidableEq, Repr

/-- A callback that was invoked. -/
structure Invoked where
  uid : Nat
  result : ResultCode
  detail : String
  deriving DecidableEq, Repr

/-- The map of sessions. -/
abbrev Sessions := AList fun _ : ConnectionId => SessionState

/-- `WorkerData`, with the worker's histories. -/
structure WorkerData where
  taskQueue : List DBServerTask := []
  responseQueue : List DBResponseEvent := []
  sessions : Sessions := ∅
  keyGen : KeyGenerator
  /-- The packets given to `mSendFunc`, in order. -/
  sends : List Send := []
  /-- The callbacks invoked, in order. -/
  invoked : List Invoked := []
  /-- The requests that were sent and neither answered nor timed out. -/
  outstanding : List (ConnectionId × UInt64) := []
  /-- The callbacks that a response invoked, each with the id of the response. -/
  completed : List (UInt64 × Nat) := []

/-- `WorkerData(idx)`. -/
def WorkerData.make (idx : Nat) : WorkerData :=
  { keyGen := .make .dbQuery (UInt8.ofNat idx) }

/-- `kRequestTimeoutMs`. -/
def kRequestTimeoutMs : Nat := 5000

/-- `sizeof(pkt.data)`. -/
def queryDataSize : Nat := 512

/-! ## ProcessTask -/

/-- `CheckTask`. -/
def checkTask (t : DBServerTask) : Bool :=
  match t.type with
  | .savePlayerProgress => !t.data.isEmpty
  | .loadPlayerData => true
  | .other _ => false

/-- `CheckTask`, and then the custom check. -/
def checkPassed (t : DBServerTask) : Bool := checkTask t && t.checkFunc.getD true

/-- Call a callback, if there is one. -/
def WorkerData.invoke (w : WorkerData) (cb : Option Nat) (result : ResultCode) (detail : String) :
    WorkerData :=
  { w with invoked := w.invoked ++ (cb.map fun uid => Invoked.mk uid result detail).toList }

/-- `sessions.find(sessionId)`, or the state that `operator[]` would make. -/
def WorkerData.session (w : WorkerData) (sessionId : ConnectionId) : SessionState :=
  (w.sessions.lookup sessionId).getD {}

/-- Store a session state. -/
def WorkerData.setSession (w : WorkerData) (sessionId : ConnectionId) (ss : SessionState) :
    WorkerData :=
  { w with sessions := w.sessions.insert sessionId ss }

/-- `sessions.erase(sessionId)`. -/
def WorkerData.eraseSession (w : WorkerData) (sessionId : ConnectionId) : WorkerData :=
  { w with sessions := w.sessions.erase sessionId }

/-- The packet for a task. -/
def buildPacket (requestId : UInt64) (t : DBServerTask) : DBQueryReq :=
  ⟨requestId, t.type, t.data.take (queryDataSize - 1)⟩

/-- The state of the session is stored, and then the packet goes to `mSendFunc`. -/
def WorkerData.storeRequest (w : WorkerData) (now : Nat) (t : DBServerTask) : WorkerData :=
  { w.setSession t.sessionId { w.session t.sessionId with
      requestId := w.keyGen.nextId
      callback := t.callback
      inflightDeadline := now + kRequestTimeoutMs } with
    keyGen := w.keyGen.next
    sends := w.sends ++ [⟨buildPacket w.keyGen.nextId t, t.sessionId, t.uid⟩] }

/-- `mSendFunc` has answered `false`. -/
def WorkerData.sendFailed (w : WorkerData) (t : DBServerTask) : WorkerData :=
  let ss := w.session t.sessionId
  let w' := if ss.pending.isEmpty then w.eraseSession t.sessionId
    else w.setSession t.sessionId { ss with requestId := 0, callback := none }
  w'.invoke ss.callback .dbServerNotConnected "Send failed"

/-- The part of `ProcessTask` from `keyGen.Next()` on. -/
def WorkerData.sendTask (w : WorkerData) (now : Nat) (sendOk : Bool) (t : DBServerTask) :
    WorkerData :=
  let w' := w.storeRequest now t
  if sendOk then
    { w' with outstanding := w.outstanding ++ [(t.sessionId, w.keyGen.nextId)] }
  else w'.sendFailed t

/-- `ProcessTask`.  `now` is the time and `sendOk` the answer of `mSendFunc`. -/
def WorkerData.processTask (w : WorkerData) (now : Nat) (sendOk : Bool) (t : DBServerTask) :
    WorkerData :=
  let ss := w.session t.sessionId
  if ss.requestId ≠ 0 then w.setSession t.sessionId { ss with pending := ss.pending ++ [t] }
  else if checkPassed t then w.sendTask now sendOk t
  else
    let w' := if ss.pending.isEmpty then w.eraseSession t.sessionId else w
    w'.invoke t.callback .invalidRequest "Check failed"

/-! ## Responses and timeouts -/

/-- The end of `HandleResponse` and of the loop body of `CheckTimeouts`: invoke the
callback of a session, and process its next pending task or erase it. -/
def WorkerData.resolve (w : WorkerData) (now : Nat) (sendOk : Bool) (sessionId : ConnectionId)
    (ss : SessionState) (result : ResultCode) (detail : String) : WorkerData :=
  let w' := w.invoke ss.callback result detail
  match ss.pending with
  | [] => w'.eraseSession sessionId
  | t :: rest =>
      (w'.setSession sessionId { ss with requestId := 0, callback := none, pending := rest }).processTask
        now sendOk t

/-- `HandleResponse`. -/
def WorkerData.handleResponse (w : WorkerData) (now : Nat) (sendOk : Bool)
    (resp : DBResponseEvent) : WorkerData :=
  match w.sessions.entries.find? (fun e => e.2.requestId = resp.requestId) with
  | none => w
  | some ⟨sessionId, ss⟩ =>
      { w with
        outstanding := w.outstanding.filter fun o => o.2 ≠ resp.requestId
        completed := w.completed ++ (ss.callback.map fun uid => (resp.requestId, uid)).toList }.resolve
        now sendOk sessionId ss resp.result resp.detail

/-- The first loop of `CheckTimeouts`. -/
def WorkerData.timedOut (w : WorkerData) (now : Nat) : List ConnectionId :=
  (w.sessions.entries.filter fun e =>
    e.2.requestId ≠ 0 && decide (e.2.inflightDeadline ≤ now)).map fun e => e.1

/-- The body of the second loop of `CheckTimeouts`. -/
def WorkerData.timeoutSession (w : WorkerData) (now : Nat) (sendOk : Bool)
    (sessionId : ConnectionId) : WorkerData :=
  match w.sessions.lookup sessionId with
  | none => w
  | some ss =>
      if ss.requestId = 0 then w
      else
        { w with outstanding := w.outstanding.filter fun o => o ≠ (sessionId, ss.requestId) }.resolve
          now sendOk sessionId ss .dbServerTimeout "DB request timed out"

/-! ## ShutdownDrain -/

/-- The callbacks that `ShutdownDrain` invokes for one session. -/
def SessionState.drain (ss : SessionState) : List Nat :=
  (if ss.requestId ≠ 0 then ss.callback.toList else []) ++ ss.pending.filterMap (·.callback)

/-- `ShutdownDrain`. -/
def WorkerData.shutdownDrain (w : WorkerData) : WorkerData :=
  let uids := w.sessions.entries.flatMap (fun e => e.2.drain) ++ w.taskQueue.filterMap (·.callback)
  { w with
    taskQueue := []
    responseQueue := []
    sessions := ∅
    invoked := w.invoked ++ uids.map fun uid => ⟨uid, .shuttingDown, "Server shutting down"⟩ }

/-! ## The loop -/

/-- Where the thread of a worker stands. -/
inductive WorkerPc where
  /-- At the head of the loop or in `wait_for`. -/
  | wait
  /-- In `CheckTimeouts`, with the sessions still to look at. -/
  | timeouts (ids : List ConnectionId)
  /-- Draining the responses. -/
  | responses
  /-- Draining the tasks. -/
  | tasks
  /-- The thread has ended. -/
  | stopped
  deriving DecidableEq, Repr

/-- One step of the thread.  `running` is `mIsRunning`, `now` is the time, and
`sendOk` is what `mSendFunc` answers if the step sends. -/
def workerStep (running : Bool) (now : Nat) (sendOk : Bool) (w : WorkerData) :
    WorkerPc → Option (WorkerData × WorkerPc)
  | .wait => some (w, if running then .timeouts (w.timedOut now) else .stopped)
  | .timeouts [] => some (w, .responses)
  | .timeouts (id :: ids) => some (w.timeoutSession now sendOk id, .timeouts ids)
  | .responses =>
      match w.responseQueue with
      | [] => some (w, .tasks)
      | resp :: rest =>
          some ({ w with responseQueue := rest }.handleResponse now sendOk resp, .responses)
  | .tasks =>
      if !running then some (w, .wait)
      else
        match w.taskQueue with
        | [] => some (w, .wait)
        | t :: rest => some ({ w with taskQueue := rest }.processTask now sendOk t, .tasks)
  | .stopped => none

end NetworkModule.DBServer
