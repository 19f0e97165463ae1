import NetworkModule.Lib.Machine
import NetworkModule.Wal.Format

/-!
# DBTaskQueue and its crashes

The queue of `TestServer/src/DBTaskQueue.cpp` with its write-ahead log, over many
lives of the process: `EnqueueTask`, the workers with `ProcessTask`, `Shutdown`
with its drain, and `WalRecover` in its single file operations.  A crash may come
between any two steps.  It leaves the two files and the database, and the counter
behind the sequence numbers starts from zero again.

`Initialize` and `Shutdown` are called by one thread.  Other threads call
`EnqueueTask` only after `Initialize` has returned, so nobody else writes to the
log while `WalRecover` reads it.  A write is one step, and it does not fail.

A task has a number, which it keeps when `WalRecover` enqueues it again.  The
histories know the tasks by their numbers.
-/

namespace NetworkModule.Wal

/-! ## Handlers -/

/-- What a handler finds when it goes to the database. -/
inductive DbAnswer where
  /-- `mDatabase` is null. -/
  | null
  /-- The database is not connected, and the handler only logs. -/
  | disconnected
  /-- The statement was executed. -/
  | ok
  /-- The statement threw. -/
  | error (what : String)
  /-- Something else threw, and `ProcessTask` catches it. -/
  | throws (what : String)
  deriving DecidableEq

/-- The tables. -/
structure Database where
  connectLog : List (ConnectionId × List Char) := []
  disconnectLog : List (ConnectionId × List Char) := []
  players : ConnectionId → Option (List Char) := fun _ => none

/-- The statement of a task: two inserts and an upsert. -/
def Database.execute (db : Database) (t : DBTask) : Database :=
  match t.type with
  | .recordConnectTime => { db with connectLog := db.connectLog ++ [(t.sessionId, t.data)] }
  | .recordDisconnectTime => { db with disconnectLog := db.disconnectLog ++ [(t.sessionId, t.data)] }
  | .updatePlayerData => { db with players := Function.update db.players t.sessionId (some t.data) }
  | .other _ _ => db

/-- The body that the three handlers share, with their two texts. -/
def handle (stored logged : String) : DbAnswer → Bool × String
  | .null => (false, "Database pointer is null")
  | .disconnected => (true, logged)
  | .ok => (true, stored)
  | .error what => (false, "DB error: " ++ what)
  | .throws what => (false, "Exception: " ++ what)

/-- `HandleRecordConnectTime`. -/
def handleRecordConnectTime : DbAnswer → Bool × String :=
  handle "Connect time recorded to DB" "Connect time logged (no DB)"

/-- `HandleRecordDisconnectTime`. -/
def handleRecordDisconnectTime : DbAnswer → Bool × String :=
  handle "Disconnect time recorded to DB" "Disconnect time logged (no DB)"

/-- `HandleUpdatePlayerData`. -/
def handleUpdatePlayerData : DbAnswer → Bool × String :=
  handle "Player data updated to DB" "Player data logged (no DB)"

/-- The success and the result of `ProcessTask`. -/
def processResult (t : DBTask) (answer : DbAnswer) : Bool × String :=
  match t.type with
  | .recordConnectTime => handleRecordConnectTime answer
  | .recordDisconnectTime => handleRecordDisconnectTime answer
  | .updatePlayerData => handleUpdatePlayerData answer
  | .other value _ => (false, "Unknown DB task type: " ++ String.ofList (CppText.decimal value))

/-! ## Threads -/

/-- Where a worker stands. -/
inductive WorkerPc where
  /-- At the head of the loop. -/
  | head
  /-- In `wait`. -/
  | waiting
  /-- About to call `ProcessTask`. -/
  | process (t : DBTask)
  /-- About to call `WalWriteDone`. -/
  | writeDone (t : DBTask)
  /-- The thread has ended.  What is left in the queue is for the drain. -/
  | stopped
  deriving DecidableEq

/-- `WorkerData`. -/
structure Worker where
  taskQueue : List DBTask := []
  pc : WorkerPc := .head
  deriving DecidableEq

/-- Where a call of `EnqueueTask` stands, after its first check. -/
inductive CallPc where
  | nextSeq
  | writePending
  | push
  /-- The task was rejected under the lock. -/
  | writeDone
  deriving DecidableEq

/-- A call of `EnqueueTask`. -/
structure Call where
  task : DBTask
  pc : CallPc := .nextSeq
  deriving DecidableEq

/-- Where `WalRecover` stands. -/
inductive RecoverPc where
  | parsePrimary
  | parseBackup (pendingMap : PendingMap) (maxSeenSeq : Nat)
  /-- Nothing is pending, and both files are removed. -/
  | cleanPrimary
  | cleanBackup
  | removeBackup (pendingMap : PendingMap)
  /-- `hadBackup` says whether the removal before found a file. -/
  | rename (pendingMap : PendingMap) (hadBackup : Bool)
  /-- The rename has failed. -/
  | removePrimary (pendingMap : PendingMap)
  /-- The loop over `pendingMap`, with the entries left and the call in progress.
  `inMemory` says whether some entries are in no file: a backup was removed, or the
  primary could not be renamed. -/
  | requeue (left : List (Nat × WalEntry)) (call : Option Call) (inMemory : Bool)
  | removeBackupLast
  | done

/-- Whether `WalRecover` has returned. -/
def RecoverPc.isDone : RecoverPc → Bool
  | .done => true
  | _ => false

/-- A task that `WalRecover` has enqueued again. -/
structure Replay where
  /-- The life of the process in which it was. -/
  life : Nat
  uid : Nat
  /-- Whether a `D` line for the task had been written before. -/
  acked : Bool
  deriving DecidableEq

/-! ## The state -/

/-- The files, the process if there is one, the database and the histories. -/
structure WalState where
  /-- The file `mWalPath`. -/
  primary : Option (List Chunk) := none
  /-- The file with the suffix `.bak`. -/
  bak : Option (List Chunk) := none
  db : Database := {}
  /-- Whether the process is alive. -/
  up : Bool := false
  /-- The counter of `NextGlobalId`. -/
  sGlobalSeq : Nat := 0
  mIsRunning : Bool := false
  /-- Whether `Shutdown` has joined the workers. -/
  joined : Bool := false
  workers : List Worker := []
  calls : List Call := []
  recover : RecoverPc := .done
  /-- The life of the process. -/
  life : Nat := 0
  /-- The number of the next task. -/
  nextUid : Nat := 0
  /-- The tasks whose `P` line was written. -/
  durable : List Nat := []
  /-- The tasks that were rejected after that. -/
  rejected : List Nat := []
  /-- The tasks that a handler processed with success. -/
  processed : List Nat := []
  /-- The tasks whose `D` line was written. -/
  acked : List Nat := []
  /-- The durable tasks neither rejected nor processed when this life began. -/
  owed : List Nat := []
  replays : List Replay := []
  /-- The tasks that callers enqueued, in order. -/
  enqueued : List DBTask := []
  /-- The callbacks invoked. -/
  callbacks : List (Nat × Bool × String) := []

namespace WalState

/-- Append to the log. -/
def append (s : WalState) (c : Chunk) : WalState :=
  { s with primary := some (s.primary.getD [] ++ [c]) }

/-- Invoke the callback of a task, if there is one. -/
def callback (s : WalState) (t : DBTask) (success : Bool) (result : String) : WalState :=
  { s with callbacks := s.callbacks ++ if t.hasCallback then [(t.uid, success, result)] else [] }

/-- `WalWriteDone` for the task `t`. -/
def walWriteDone (s : WalState) (t : DBTask) : WalState :=
  { s.append (doneChunk t) with acked := s.acked ++ [t.uid] }

/-- `WalWritePending`. -/
def walWritePending (s : WalState) (t : DBTask) : WalState :=
  { s.append (pendingChunk t) with durable := s.durable ++ [t.uid] }

/-- Push a task to the queue of its worker. -/
def pushTask (s : WalState) (t : DBTask) : WalState :=
  { s with
    workers := s.workers.modify (t.sessionId.toNat % s.workers.length)
      fun w => { w with taskQueue := w.taskQueue ++ [t] }
    enqueued := if s.recover.isDone then s.enqueued ++ [t] else s.enqueued }

end WalState

/-- `NextGlobalId`. -/
def nextGlobalId (sGlobalSeq : Nat) : Nat := (sGlobalSeq + 1) % 2 ^ 64

/-! ## Steps of the threads -/

/-- One step of a call of `EnqueueTask`, and what is left of the call. -/
def callStep (s : WalState) (c : Call) : WalState × Option Call :=
  match c.pc with
  | .nextSeq =>
      let seq := nextGlobalId s.sGlobalSeq
      ({ s with sGlobalSeq := seq }, some ⟨{ c.task with walSeq := seq }, .writePending⟩)
  | .writePending => (s.walWritePending c.task, some ⟨c.task, .push⟩)
  | .push =>
      if s.mIsRunning then (s.pushTask c.task, none)
      else
        let s' := { s with rejected := s.rejected ++ [c.task.uid] }
        if c.task.walSeq ≠ 0 then (s', some ⟨c.task, .writeDone⟩)
        else (s'.callback c.task false "DBTaskQueue shutting down", none)
  | .writeDone =>
      ((s.walWriteDone c.task).callback c.task false "DBTaskQueue shutting down", none)

/-- The task made from an entry of the log. -/
def WalEntry.task (e : WalEntry) : DBTask := ⟨e.uid, e.type, e.sessionId, e.data, false, 0⟩

/-- One step of `WalRecover`.  `renameOk` is the answer of `std::rename` if there is a
primary file. -/
def recoverStep (s : WalState) (renameOk : Bool) : Option WalState :=
  match s.recover with
  | .parsePrimary =>
      let r := parseWalFile (.empty, 0) s.primary
      some { s with recover := .parseBackup r.1 r.2 }
  | .parseBackup m maxSeenSeq =>
      let r := parseWalFile (m, maxSeenSeq) s.bak
      if r.1.entries.isEmpty then
        some { s with recover := if r.2 = 0 then .done else .cleanPrimary }
      else some { s with recover := .removeBackup r.1 }
  | .cleanPrimary => some { s with primary := none, recover := .cleanBackup }
  | .cleanBackup => some { s with bak := none, recover := .done }
  | .removeBackup m => some { s with bak := none, recover := .rename m s.bak.isSome }
  | .rename m hadBackup =>
      if s.primary.isSome && renameOk then
        some { s with primary := none, bak := s.primary, recover := .requeue m.entries none hadBackup }
      else some { s with recover := .removePrimary m }
  | .removePrimary m => some { s with primary := none, recover := .requeue m.entries none true }
  | .requeue left (some c) inMemory =>
      let r := callStep s c
      some { r.1 with recover := .requeue left r.2 inMemory }
  | .requeue ((_, e) :: left) none inMemory =>
      some { s with
        replays := s.replays ++ [⟨s.life, e.uid, e.uid ∈ s.acked⟩]
        recover := .requeue left (some { task := e.task }) inMemory }
  | .requeue [] none _ => some { s with recover := .removeBackupLast }
  | .removeBackupLast => some { s with bak := none, recover := .done }
  | .done => none

/-- `ProcessTask`, and what the worker does next. -/
def processTask (s : WalState) (t : DBTask) (answer : DbAnswer) : WalState :=
  let r := processResult t answer
  { s.callback t r.1 r.2 with
    db := if answer = .ok then s.db.execute t else s.db
    processed := if r.1 then s.processed ++ [t.uid] else s.processed }

/-- Where the worker goes after `ProcessTask`. -/
def afterProcess (t : DBTask) (answer : DbAnswer) : WorkerPc :=
  if (processResult t answer).1 && t.walSeq ≠ 0 then .writeDone t else .head

/-- Change the worker `p`. -/
def WalState.setWorker (s : WalState) (p : Nat) (w : Worker) : WalState :=
  { s with workers := s.workers.set p w }

/-- One step of the worker `p`, which is `w`. -/
def workStep (s : WalState) (p : Nat) (w : Worker) (answer : DbAnswer) : Option WalState :=
  match w.pc with
  | .head => some (s.setWorker p { w with pc := if s.mIsRunning then .waiting else .stopped })
  | .waiting =>
      match w.taskQueue with
      | t :: rest => some (s.setWorker p ⟨rest, .process t⟩)
      | [] => if s.mIsRunning then none else some (s.setWorker p { w with pc := .head })
  | .process t => some ((processTask s t answer).setWorker p { w with pc := afterProcess t answer })
  | .writeDone t => some ((s.walWriteDone t).setWorker p { w with pc := .head })
  | .stopped =>
      match w.taskQueue with
      | t :: rest => if s.joined then some (s.setWorker p ⟨rest, .process t⟩) else none
      | [] => none

/-! ## Steps of the system -/

/-- Who moves. -/
inductive Act where
  /-- A process starts and calls `Initialize`. -/
  | start (workerThreadCount : Nat)
  /-- `WalRecover` takes its next step. -/
  | recover (renameOk : Bool)
  /-- Another component takes an id from `NextGlobalId`. -/
  | takeId
  /-- A thread calls `EnqueueTask`.  The task gets the next number. -/
  | enqueue (t : DBTask)
  /-- The call `i` of `EnqueueTask` takes its next step. -/
  | call (i : Nat)
  /-- The worker `p` takes its next step. -/
  | work (p : Nat) (answer : DbAnswer)
  /-- `Shutdown` clears `mIsRunning`. -/
  | stop
  /-- `Shutdown` has joined the workers. -/
  | join
  /-- The process ends, at any point. -/
  | crash

/-- The process starts. -/
def WalState.startProcess (s : WalState) (workerThreadCount : Nat) : WalState :=
  { s with
    up := true
    sGlobalSeq := 0
    mIsRunning := true
    joined := false
    workers := List.replicate workerThreadCount {}
    calls := []
    recover := .parsePrimary
    life := s.life + 1
    owed := s.durable.filter fun u => u ∉ s.rejected ∧ u ∉ s.processed }

/-- The process is gone.  A call whose `P` line was written counts as enqueued. -/
def WalState.endProcess (s : WalState) : WalState :=
  { s with
    up := false
    workers := []
    calls := []
    recover := .done
    enqueued := s.enqueued ++ (s.calls.filter (·.pc = .push)).map (·.task) }

/-- One step. -/
def step (s : WalState) : Act → Option WalState
  | .start n => if !s.up && 0 < n then some (s.startProcess n) else none
  | .recover renameOk => if s.up then recoverStep s renameOk else none
  | .takeId => if s.up then some { s with sGlobalSeq := nextGlobalId s.sGlobalSeq } else none
  | .enqueue t =>
      let t := { t with uid := s.nextUid, walSeq := 0 }
      let s' := { s with nextUid := s.nextUid + 1 }
      if !s.up || !s.recover.isDone then none
      else if s.mIsRunning then some { s' with calls := s.calls ++ [{ task := t }] }
      else some (s'.callback t false "DBTaskQueue not running")
  | .call i =>
      match s.calls[i]? with
      | none => none
      | some c =>
          let r := callStep s c
          some { r.1 with calls := (s.calls.take i ++ r.2.toList) ++ s.calls.drop (i + 1) }
  | .work p answer =>
      match s.workers[p]? with
      | none => none
      | some w => workStep s p w answer
  | .stop => if s.up && s.recover.isDone then some { s with mIsRunning := false } else none
  | .join =>
      if s.up && !s.mIsRunning && s.workers.all (·.pc = .stopped) then
        some { s with joined := true }
      else none
  | .crash => if s.up then some s.endProcess else none

end NetworkModule.Wal
