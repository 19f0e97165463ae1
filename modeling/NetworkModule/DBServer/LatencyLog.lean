import NetworkModule.DBServer.OrderedTaskQueue
import NetworkModule.DBServer.LatencyAgreement

/-!
# The latency log

The tasks of the `OrderedTaskQueue` are calls of `RecordLatency` and of `SavePingTime` of the
`ServerLatencyManager`.  Each of them changes a map under one mutex and inserts a row into the
database under another, and between the two the tasks of other workers go on.  The row of a
round-trip time has the statistics as they were after the time was recorded.

The key of a task is the id of its server, so one worker has all tasks of a server.  Whatever the
order of the workers, the statistics of a server are those of its round-trip times in the order
in which they were queued, and its rows in the log are the rows of a sequential run, less those
that the database did not insert (`latencyLog_inOrder`).

The manager is initialized before the queue and shut down after it (`TestDBServer::Stop`).
-/

namespace NetworkModule.LatencyLog

open Concurrency Latency OrderedTasks

/-! ## The rows -/

/-- A row of `T_ServerLatencyLog`, as `SP_InsertServerLatencyLog.sql` gets it. -/
structure LatencyRow where
  serverId : UInt32
  serverName : String
  rttMs : UInt64
  avgRttMs : ℚ
  minRttMs : UInt64
  maxRttMs : UInt64
  pingCount : Nat
  measuredTime : String
  deriving DecidableEq

/-- A row of `T_PingTimeLog`. -/
structure PingTimeRow where
  serverId : UInt32
  serverName : String
  pingTime : String
  deriving DecidableEq

/-- `PKT_DBSavePingTimeRes`.  The message goes with the result. -/
structure DBSavePingTimeRes where
  serverId : UInt32
  result : UInt8
  deriving DecidableEq

/-! ## The tasks -/

/-- The tasks of `HandleServerPingRequest` and of `HandleDBSavePingTimeRequest`. -/
inductive Task where
  | recordLatency (call : RecordCall)
  | savePingTime (serverId : UInt32) (serverName : String) (timestamp : UInt64)

/-- The key of the task. -/
def Task.serverId : Task → UInt32
  | .recordLatency call => call.serverId
  | .savePingTime serverId _ _ => serverId

/-- Where a task stands. -/
inductive TaskPc where
  | start
  /-- `RecordLatency` has `updatedInfo`, and inserts the row. -/
  | persistLatency (updatedInfo : ServerLatencyInfo)
  /-- `SavePingTime` inserts the row. -/
  | persistPingTime
  /-- Sending the response. -/
  | respond (result : UInt8)
  | done

/-- What the database does. -/
inductive Insert where
  /-- It is null or not connected. -/
  | noDatabase
  | inserted
  /-- It throws, with the row or without. -/
  | throws (hasRow : Bool)
  deriving DecidableEq, Repr

/-- What a step of a task finds out. -/
structure Answer where
  /-- `sessionRef->IsConnected()`. -/
  connected : Bool := true
  insert : Insert := .inserted

structure Config where
  workerCount : Nat
  workerCount_pos : 0 < workerCount
  task : Nat → Task
  /-- `FormatTimestamp`. -/
  formatTimestamp : UInt64 → String

def Config.queue (cfg : Config) : OrderedTasks.Config where
  workerCount := cfg.workerCount
  workerCount_pos := cfg.workerCount_pos
  key := fun c => (cfg.task c).serverId

structure State where
  mOrderedTaskQueue : OrderedTaskQueue := {}
  mLatencyManager : ServerLatencyManager := { mInitialized := true }
  mLastPingTimeMap : UInt32 → Option UInt64 := fun _ => none
  latencyLog : List LatencyRow := []
  pingTimeLog : List PingTimeRow := []
  responses : List DBSavePingTimeRes := []
  tasks : Nat → TaskPc := fun _ => .start
  /-- The tasks that have begun, in order. -/
  begun : List Nat := []

def State.setTask (s : State) (c : Nat) (pc : TaskPc) : State :=
  { s with tasks := Function.update s.tasks c pc }

/-- The row that `RecordLatency` inserts. -/
def latencyRow (formatTimestamp : UInt64 → String) (call : RecordCall)
    (updatedInfo : ServerLatencyInfo) : LatencyRow where
  serverId := call.serverId
  serverName := call.serverName
  rttMs := call.rttMs
  avgRttMs := updatedInfo.avgRttMs
  minRttMs := updatedInfo.minRttMs
  maxRttMs := updatedInfo.maxRttMs
  pingCount := updatedInfo.pingCount
  measuredTime := formatTimestamp call.timestamp

/-- The row is in the database. -/
def Insert.row : Insert → Bool
  | .noDatabase => false
  | .inserted => true
  | .throws hasRow => hasRow

/-- A step of the task `c`. -/
def taskStep (cfg : Config) (s : State) (c : Nat) (answer : Answer) : Option State :=
  match cfg.task c, s.tasks c with
  | .recordLatency call, .start =>
      let s := { s with begun := s.begun ++ [c] }
      if s.mLatencyManager.mInitialized then
        -- Under `mLatencyMutex`.
        let manager := s.mLatencyManager.recordLatency call.serverId call.serverName call.rttMs
          call.timestamp
        some ({ s with mLatencyManager := manager }.setTask c
          (.persistLatency (manager.mLatencyMap call.serverId)))
      else some (s.setTask c .done)
  | .recordLatency call, .persistLatency updatedInfo =>
      -- What the database throws is caught.
      let row := latencyRow cfg.formatTimestamp call updatedInfo
      some ({ s with
        latencyLog := if answer.insert.row then s.latencyLog ++ [row] else s.latencyLog }.setTask c
          .done)
  | .savePingTime serverId _ timestamp, .start =>
      let s := { s with begun := s.begun ++ [c] }
      if !answer.connected then some (s.setTask c .done)
      else if s.mLatencyManager.mInitialized then
        let mLastPingTimeMap := Function.update s.mLastPingTimeMap serverId (some timestamp)
        some ({ s with mLastPingTimeMap }.setTask c .persistPingTime)
      else some (s.setTask c (.respond 2))
  | .savePingTime serverId serverName timestamp, .persistPingTime =>
      let row : PingTimeRow := ⟨serverId, serverName, cfg.formatTimestamp timestamp⟩
      let s := { s with
        pingTimeLog := if answer.insert.row then s.pingTimeLog ++ [row] else s.pingTimeLog }
      match answer.insert with
      | .throws _ => some (s.setTask c (.respond 1))
      | _ => some (s.setTask c (.respond 0))
  | .savePingTime serverId _ _, .respond result =>
      let response : DBSavePingTimeRes := ⟨serverId, result⟩
      some ({ s with
        responses := if answer.connected then s.responses ++ [response]
          else s.responses }.setTask c .done)
  | _, _ => none

/-! ## The system -/

/-- Who moves. -/
inductive Act where
  | queue (a : OrderedTasks.Act)
  /-- The task that the worker `i` runs. -/
  | task (i : Nat) (answer : Answer)

/-- The task that the worker `i` runs. -/
def running (s : State) (i : Nat) : Option Nat :=
  match (s.mOrderedTaskQueue.mDispatcher.workers i).pc with
  | .executing c => if s.mOrderedTaskQueue.wrappers c = .task then some c else none
  | _ => none

/-- A task that runs goes on by itself, and returns when it is done. -/
def mayGo (s : State) : OrderedTasks.Act → Bool
  | .work i _ throws =>
      match running s i with
      | some c =>
          match s.tasks c with
          | .done => !throws
          | _ => false
      | none => true
  | _ => true

/-- One step. -/
def step (cfg : Config) (s : State) : Act → Option State
  | .queue a =>
      if mayGo s a then
        (OrderedTasks.step cfg.queue s.mOrderedTaskQueue a).map fun queue =>
          { s with mOrderedTaskQueue := queue }
      else none
  | .task i answer => (running s i).bind fun c => taskStep cfg s c answer

/-! ## A sequential run -/

/-- The call of `RecordLatency` for the server, if the task is one. -/
def Task.callFor (serverId : UInt32) : Task → Option RecordCall
  | .recordLatency call => if call.serverId = serverId then some call else none
  | .savePingTime .. => none

/-- The calls of `RecordLatency` for a server among some tasks. -/
def recordsOf (cfg : Config) (serverId : UInt32) (l : List Nat) : List RecordCall :=
  l.filterMap fun c => (cfg.task c).callFor serverId

/-- One call after the other, for one server. -/
def recordCalls (info : ServerLatencyInfo) (calls : List RecordCall) : ServerLatencyInfo :=
  calls.foldl (fun info call =>
    info.record call.serverId call.serverName call.rttMs call.timestamp) info

/-- The rows of a sequential run. -/
def rowsOf (formatTimestamp : UInt64 → String) (info : ServerLatencyInfo) :
    List RecordCall → List LatencyRow
  | [] => []
  | call :: calls =>
      let info := info.record call.serverId call.serverName call.rttMs call.timestamp
      latencyRow formatTimestamp call info :: rowsOf formatTimestamp info calls

section
variable {cfg : Config} {serverId : UInt32}

theorem recordCalls_append (info : ServerLatencyInfo) (calls calls' : List RecordCall) :
    recordCalls info (calls ++ calls') = recordCalls (recordCalls info calls) calls' :=
  List.foldl_append

theorem rowsOf_append (formatTimestamp : UInt64 → String) (info : ServerLatencyInfo)
    (calls calls' : List RecordCall) :
    rowsOf formatTimestamp info (calls ++ calls') =
      rowsOf formatTimestamp info calls ++
        rowsOf formatTimestamp (recordCalls info calls) calls' := by
  induction calls generalizing info with
  | nil => rfl
  | cons call calls ih =>
      rw [List.cons_append, rowsOf, rowsOf, ih]
      rfl

theorem pingCount_record (info : ServerLatencyInfo) (serverId : UInt32) (serverName : String)
    (rttMs timestamp : UInt64) :
    (info.record serverId serverName rttMs timestamp).pingCount = info.pingCount + 1 := by
  rw [ServerLatencyInfo.record]
  split_ifs <;> rfl

/-- The rows are numbered. -/
theorem pingCounts_rowsOf (formatTimestamp : UInt64 → String) (info : ServerLatencyInfo)
    (calls : List RecordCall) :
    (rowsOf formatTimestamp info calls).map LatencyRow.pingCount =
      List.range' (info.pingCount + 1) calls.length := by
  induction calls generalizing info with
  | nil => rfl
  | cons call calls ih =>
      rw [rowsOf, List.map_cons, ih, List.length_cons, List.range'_succ, latencyRow,
        pingCount_record]

theorem recordsOf_append (l l' : List Nat) :
    recordsOf cfg serverId (l ++ l') = recordsOf cfg serverId l ++ recordsOf cfg serverId l' :=
  List.filterMap_append

theorem recordsOf_singleton (c : Nat) :
    recordsOf cfg serverId [c] = ((cfg.task c).callFor serverId).toList := by
  rw [recordsOf, List.filterMap_cons]
  cases (cfg.task c).callFor serverId <;> rfl

/-- A task with a call for the server has its key. -/
theorem serverId_of_callFor {c : Nat} {call : RecordCall}
    (h : (cfg.task c).callFor serverId = some call) : (cfg.task c).serverId = serverId := by
  cases htask : cfg.task c with
  | recordLatency call' =>
      rw [htask, Task.callFor] at h
      split at h
      · next heq => exact heq
      · cases h
  | savePingTime id name timestamp =>
      rw [htask] at h
      cases h

/-- One worker has the calls for a server. -/
theorem recordsOf_onLane (l : List Nat) :
    recordsOf cfg serverId (FifoPool.onLane (workerOf cfg.queue.dispatcher)
      (keyToWorkerIndex cfg.queue.dispatcher serverId.toUInt64) l) =
      recordsOf cfg serverId l := by
  induction l with
  | nil => rfl
  | cons c l ih =>
      rw [← List.singleton_append, FifoPool.onLane_append, recordsOf_append, recordsOf_append, ih,
        FifoPool.onLane_singleton]
      split_ifs with hlane
      · rfl
      · have hnone : (cfg.task c).callFor serverId = none := by
          by_contra hsome
          obtain ⟨call, hcall⟩ := Option.ne_none_iff_exists'.mp hsome
          refine hlane ?_
          rw [← serverId_of_callFor hcall]
          rfl
        rw [recordsOf_singleton, hnone]
        rfl

end

/-! ## The dispatcher -/

section
variable {cfg : DispatcherConfig} {d d' : KeyedDispatcher} {a : DispatcherAct}

/-- Each task is taken once. -/
theorem taken_nodup (h : DispatcherInv cfg d) : d.taken.Nodup := by
  refine List.nodup_iff_count_le_one.mpr fun c => ?_
  have hcount : d.taken.count c ≤ d.pushed.count c := by
    rw [← FifoPool.count_onLane (workerOf cfg) c d.taken,
      ← FifoPool.count_onLane (workerOf cfg) c d.pushed]
    exact (h.pool.taken_isPrefix _).sublist.count_le c
  exact hcount.trans (List.nodup_iff_count_le_one.mp h.calls.pushed_nodup c)

theorem taken_cases (hs : dispatcherStep cfg d a = some d') :
    d'.taken = d.taken ∨ ∃ c, d'.taken = d.taken ++ [c] := by
  cases Concurrency.step_effect hs with
  | take i c => exact .inr ⟨c, rfl⟩
  | _ => exact .inl rfl

/-- A worker leaves its task by a step of its own. -/
theorem executing_stays (hs : dispatcherStep cfg d a = some d') {i c : Nat}
    (hpc : (d.workers i).pc = .executing c) :
    (d'.workers i).pc = .executing c ∨ ∃ e t, a = .work i e t := by
  have hother : ∀ {t : KeyedDispatcher} {k : Nat} {w : Worker}, t.workers = d.workers →
      (k = i → w.pc = .executing c) → ((t.setWorker k w).workers i).pc = .executing c := by
    intro t k w ht hk
    by_cases hki : k = i
    · rw [KeyedDispatcher.setWorker, hki]
      simpa using hk hki
    · rw [KeyedDispatcher.setWorker, ht]
      simpa [Function.update_of_ne (Ne.symm hki)] using hpc
  cases Concurrency.step_effect hs with
  | push k _ q hk hq =>
      refine .inl (hother (t := { d with pushed := d.pushed ++ [k] }) rfl fun hi => ?_)
      rw [hi]
      exact hpc
  | pushing k _ pc pc' q hk hne hq hnew =>
      refine .inl (hother (t := d) rfl fun hi => ?_)
      rw [hi]
      exact hpc
  | closeQueue k hk =>
      refine .inl (hother (t := d) rfl fun hi => ?_)
      rw [hi]
      exact hpc
  | take k c' e t q pc hk =>
      by_cases hki : k = i
      · exact .inr ⟨e, t, hki ▸ rfl⟩
      · exact .inl (hother (t := { d with taken := d.taken ++ [c'] }) rfl fun hi => absurd hi hki)
  | idle k e t q pc hk =>
      by_cases hki : k = i
      · exact .inr ⟨e, t, hki ▸ rfl⟩
      · exact .inl (hother (t := d) rfl fun hi => absurd hi hki)
  | finish k c' completed failed e t threw hk hsum =>
      by_cases hki : k = i
      · exact .inr ⟨e, t, hki ▸ rfl⟩
      · exact .inl (hother (t := { d with
          mCompleted := completed, mFailed := failed, finished := d.finished ++ [c'] }) rfl
            fun hi => absurd hi hki)
  | _ => exact .inl hpc

/-- A task that a worker runs was taken. -/
theorem taken_of_executing (h : DispatcherInv cfg d) {i c : Nat}
    (hpc : (d.workers i).pc = .executing c) :
    c ∈ d.taken ∧ workerOf cfg c = i ∧
      FifoPool.onLane (workerOf cfg) i d.taken =
        FifoPool.onLane (workerOf cfg) i d.finished ++ [c] := by
  have hcurrent : d.pool.current i = some c := congrArg WorkerPc.held hpc
  have htaken := h.pool.taken_eq i
  rw [hcurrent] at htaken
  refine ⟨?_, h.pool.current_lane hcurrent, htaken⟩
  have hmem : c ∈ FifoPool.onLane (workerOf cfg) i d.pool.taken := by
    rw [htaken]
    exact List.mem_append_right _ List.mem_cons_self
  exact (FifoPool.mem_onLane.mp hmem).1

end

/-! ## The invariant -/

/-- The rows for a server. -/
def State.rowsFor (s : State) (serverId : UInt32) : List LatencyRow :=
  s.latencyLog.filter fun row => row.serverId = serverId

/-- The rows for a server in a sequential run of the tasks that have begun. -/
def State.sequentialRows (cfg : Config) (s : State) (serverId : UInt32) : List LatencyRow :=
  rowsOf cfg.formatTimestamp {} (recordsOf cfg serverId s.begun)

structure Inv (cfg : Config) (s : State) : Prop where
  queue : OrderedTasks.Inv cfg.queue s.mOrderedTaskQueue
  initialized : s.mLatencyManager.mInitialized = true
  wrapped : ∀ c, s.mOrderedTaskQueue.wrappers c ≠ .task → s.tasks c = .done
  active : ∀ c, s.tasks c ≠ .start → s.tasks c ≠ .done →
    ∃ i, (s.mOrderedTaskQueue.mDispatcher.workers i).pc = .executing c
  begun : ∀ c, c ∈ s.begun ↔ s.tasks c ≠ .start
  taken : ∀ c ∈ s.begun, c ∈ s.mOrderedTaskQueue.mDispatcher.taken
  /-- The tasks of a worker begin in the order in which it has taken them. -/
  order : ∀ i, FifoPool.onLane (workerOf cfg.queue.dispatcher) i s.begun =
    (FifoPool.onLane (workerOf cfg.queue.dispatcher) i
      s.mOrderedTaskQueue.mDispatcher.taken).filter (· ∈ s.begun)
  info : ∀ serverId, s.mLatencyManager.mLatencyMap serverId =
    recordCalls {} (recordsOf cfg serverId s.begun)
  log : ∀ serverId, (s.rowsFor serverId).Sublist (s.sequentialRows cfg serverId)
  /-- A row that is about to be inserted comes next. -/
  pending : ∀ c call info, cfg.task c = .recordLatency call → s.tasks c = .persistLatency info →
    (s.rowsFor call.serverId ++ [latencyRow cfg.formatTimestamp call info]).Sublist
      (s.sequentialRows cfg call.serverId)

section
variable {cfg : Config} {s s' : State}

theorem Inv.start : Inv cfg {} where
  queue := OrderedTasks.Inv.start _
  initialized := rfl
  wrapped := fun c hc => absurd rfl hc
  active := fun c hc => absurd rfl hc
  begun := fun c => ⟨fun hc => (by cases hc), fun hc => absurd rfl hc⟩
  taken := fun c hc => by cases hc
  order := fun _ => rfl
  info := fun _ => rfl
  log := fun _ => List.nil_sublist _
  pending := fun c call info _ hc => by cases hc

/-! ### Steps of the queue -/

/-- What a step of the queue does to the dispatcher. -/
theorem dispatcher_cases {cfg : OrderedTasks.Config} {q q' : OrderedTaskQueue}
    {a : OrderedTasks.Act} (he : OrderedTasks.Effect cfg q a q') :
    q'.mDispatcher = q.mDispatcher ∨
      ∃ b, dispatcherStep cfg.dispatcher q.mDispatcher b = some q'.mDispatcher ∧
        ∀ i e t c, b = .work i e t → (q.mDispatcher.workers i).pc = .executing c →
          ∃ threw, q.wrappers c = .done threw := by
  cases he with
  | @dispatcher _ b d hd hcall hdispatch hwork => exact .inr ⟨b, hd, hwork⟩
  | @dispatch c e d hpc hd => exact .inr ⟨.call c, hd, fun i e t c' hb => by cases hb⟩
  | _ => exact .inl rfl

/-- A wrapper that has left its task. -/
theorem wrapper_cases {cfg : OrderedTasks.Config} {q q' : OrderedTaskQueue}
    {a : OrderedTasks.Act} (he : OrderedTasks.Effect cfg q a q') {c : Nat}
    (hc : q'.wrappers c ≠ .task) :
    q.wrappers c ≠ .task ∨ ∃ i e t, a = .work i e t ∧
      (q.mDispatcher.workers i).pc = .executing c ∧ q.wrappers c = .task := by
  have hset : ∀ {d : Nat} {pc : WrapperPc}, Function.update q.wrappers d pc c ≠ .task → c ≠ d →
      q.wrappers c ≠ .task := fun hne hcd => by rwa [Function.update_of_ne hcd] at hne
  cases he with
  | @ended i d e threw hwork hpc =>
      by_cases hcd : c = d
      · subst hcd
        exact .inr ⟨i, e, threw, rfl, hwork, hpc⟩
      · exact .inl (hset hc hcd)
  | @processed i d e t hwork hpc =>
      by_cases hcd : c = d
      · subst hcd
        exact .inl (by simp [hpc])
      · exact .inl (hset hc hcd)
  | @failed i d e t hwork hpc =>
      by_cases hcd : c = d
      · subst hcd
        exact .inl (by simp [hpc])
      · exact .inl (hset hc hcd)
  | _ => exact .inl hc

theorem Inv.queue_step (h : Inv cfg s) {a : OrderedTasks.Act} {q : OrderedTaskQueue}
    (hgo : mayGo s a = true) (hs : OrderedTasks.step cfg.queue s.mOrderedTaskQueue a = some q) :
    Inv cfg { s with mOrderedTaskQueue := q } := by
  have he := OrderedTasks.step_effect hs
  have hq := he.inv h.queue
  refine { h with queue := hq, wrapped := fun c hc => ?_, active := fun c hstart hdone => ?_,
                  taken := fun c hc => ?_, order := fun i => ?_ }
  · rcases wrapper_cases he hc with hold | ⟨i, e, t, rfl, hpc, htask⟩
    · exact h.wrapped c hold
    · -- The worker goes on when the task is done.
      have hrunning : running s i = some c := by rw [running, hpc]; exact if_pos htask
      rw [mayGo, hrunning] at hgo
      cases htasks : s.tasks c with
      | done => rfl
      | _ =>
          simp only [htasks] at hgo
          cases hgo
  · obtain ⟨i, hpc⟩ := h.active c hstart hdone
    rcases dispatcher_cases he with heq | ⟨b, hb, hwork⟩
    · exact ⟨i, heq ▸ hpc⟩
    · rcases executing_stays hb hpc with hstays | ⟨e, t, rfl⟩
      · exact ⟨i, hstays⟩
      · obtain ⟨threw, hwrapper⟩ := hwork i e t c rfl hpc
        exact absurd (h.wrapped c (by simp [hwrapper])) hdone
  · rcases dispatcher_cases he with heq | ⟨b, hb, -⟩
    · exact heq ▸ h.taken c hc
    · exact (taken_isPrefix hb).subset (h.taken c hc)
  · rcases dispatcher_cases he with heq | ⟨b, hb, -⟩
    · rw [heq]
      exact h.order i
    · rcases taken_cases hb with heq | ⟨c, heq⟩
      · rw [heq]
        exact h.order i
      · -- The task that is taken has not begun.
        have hnodup := taken_nodup hq.dispatcher
        rw [heq] at hnodup
        have hc : c ∉ s.begun := fun hc =>
          (List.nodup_append.mp hnodup).2.2 c (h.taken c hc) c (List.mem_singleton_self c) rfl
        rw [heq, FifoPool.onLane_append, List.filter_append, ← h.order i,
          FifoPool.onLane_singleton]
        split_ifs
        · simp [hc]
        · exact (List.append_nil _).symm

/-! ### Steps of the tasks -/

/-- The task that a worker runs. -/
theorem running_eq_some {i c : Nat} (h : running s i = some c) :
    (s.mOrderedTaskQueue.mDispatcher.workers i).pc = .executing c ∧
      s.mOrderedTaskQueue.wrappers c = .task := by
  rw [running] at h
  split at h
  · next d hpc =>
      split at h
      · next htask =>
          cases h
          exact ⟨hpc, htask⟩
      · cases h
  · cases h

/-- No two tasks of a server are under way. -/
theorem Inv.unique (h : Inv cfg s) {i c d : Nat} (hrun : running s i = some c)
    (hstart : s.tasks d ≠ .start) (hdone : s.tasks d ≠ .done)
    (hkey : (cfg.task d).serverId = (cfg.task c).serverId) : d = c := by
  obtain ⟨j, hd⟩ := h.active d hstart hdone
  have hc := (running_eq_some hrun).1
  have hij : j = i := h.queue.dispatcher.noOverlap hd hc (congrArg UInt32.toUInt64 hkey)
  subst hij
  exact WorkerPc.executing.inj (hd.symm.trans hc)

/-- A task begins. -/
theorem Inv.begin (h : Inv cfg s) {i c : Nat} (hrun : running s i = some c)
    (hold : s.tasks c = .start) {pc : TaskPc} (hpc : pc ≠ .start)
    (hqueue : s'.mOrderedTaskQueue = s.mOrderedTaskQueue) (hbegun : s'.begun = s.begun ++ [c])
    (htasks : s'.tasks = Function.update s.tasks c pc) (hlog : s'.latencyLog = s.latencyLog)
    (hinit : s'.mLatencyManager.mInitialized = true)
    (hinfo : ∀ serverId, s'.mLatencyManager.mLatencyMap serverId =
      recordCalls {} (recordsOf cfg serverId s'.begun))
    (hpending : ∀ call info, cfg.task c = .recordLatency call → pc = .persistLatency info →
      info = recordCalls {} (recordsOf cfg call.serverId s'.begun)) : Inv cfg s' := by
  obtain ⟨hexec, htask⟩ := running_eq_some hrun
  obtain ⟨htaken, hlane, hlast⟩ := taken_of_executing h.queue.dispatcher hexec
  have hnot : c ∉ s.begun := fun hc => (h.begun c).mp hc hold
  have hother : ∀ {d : Nat}, d ≠ c → s'.tasks d = s.tasks d := fun hd => by
    rw [htasks, Function.update_of_ne hd]
  have hself : s'.tasks c = pc := by rw [htasks, Function.update_self]
  have hrows : ∀ serverId, s'.rowsFor serverId = s.rowsFor serverId := fun serverId => by
    rw [State.rowsFor, State.rowsFor, hlog]
  have hgrow : ∀ serverId, s.sequentialRows cfg serverId <+: s'.sequentialRows cfg serverId := by
    intro serverId
    rw [State.sequentialRows, State.sequentialRows, hbegun, recordsOf_append, rowsOf_append]
    exact List.prefix_append _ _
  refine { queue := hqueue ▸ h.queue, initialized := hinit, wrapped := fun d hd => ?_,
           active := fun d hstart hdone => ?_, begun := fun d => ?_, taken := fun d hd => ?_,
           order := fun j => ?_, info := hinfo, log := fun serverId => ?_,
           pending := fun d call info hd hinfo' => ?_ }
  · rw [hqueue] at hd
    have hdc : d ≠ c := by
      rintro rfl
      exact hd htask
    rw [hother hdc]
    exact h.wrapped d hd
  · rw [hqueue]
    by_cases hdc : d = c
    · exact ⟨i, hdc ▸ hexec⟩
    · rw [hother hdc] at hstart hdone
      exact h.active d hstart hdone
  · rw [hbegun, List.mem_append, List.mem_singleton]
    by_cases hdc : d = c
    · subst hdc
      rw [hself]
      exact ⟨fun _ => hpc, fun _ => .inr rfl⟩
    · rw [hother hdc, ← h.begun d]
      exact ⟨fun hd => hd.resolve_right hdc, .inl⟩
  · rw [hqueue]
    rw [hbegun] at hd
    rcases List.mem_append.mp hd with hd | hd
    · exact h.taken d hd
    · exact List.mem_singleton.mp hd ▸ htaken
  · -- The task is the last that its worker has taken.
    rw [hqueue, hbegun, FifoPool.onLane_append, FifoPool.onLane_singleton, h.order j]
    split_ifs with hj
    · have hji : j = i := hj.symm.trans hlane
      subst hji
      have hfresh : c ∉ FifoPool.onLane (workerOf cfg.queue.dispatcher) j
          s.mOrderedTaskQueue.mDispatcher.finished := by
        have hnodup := (taken_nodup h.queue.dispatcher).filter
          (fun d => workerOf cfg.queue.dispatcher d = j)
        rw [FifoPool.onLane] at hlast
        rw [hlast] at hnodup
        exact fun hc => (List.nodup_append.mp hnodup).2.2 c hc c (List.mem_singleton_self c) rfl
      have hsame : (FifoPool.onLane (workerOf cfg.queue.dispatcher) j
          s.mOrderedTaskQueue.mDispatcher.finished).filter (· ∈ s.begun ++ [c]) =
          (FifoPool.onLane (workerOf cfg.queue.dispatcher) j
            s.mOrderedTaskQueue.mDispatcher.finished).filter (· ∈ s.begun) := by
        refine List.filter_congr fun d hd => ?_
        have hdc : d ≠ c := fun hdc => hfresh (hdc ▸ hd)
        simp [hdc]
      rw [hlast, List.filter_append, List.filter_append, hsame]
      simp [hnot]
    · rw [List.append_nil]
      refine List.filter_congr fun d hd => ?_
      have hdc : d ≠ c := fun hdc => hj (hdc ▸ (FifoPool.mem_onLane.mp hd).2)
      simp [hdc]
  · rw [hrows]
    exact (h.log serverId).trans (hgrow serverId).sublist
  · by_cases hdc : d = c
    · subst hdc
      rw [hself] at hinfo'
      have hnew := hpending call info hd hinfo'
      have hsingle : recordsOf cfg call.serverId [d] = [call] := by
        rw [recordsOf_singleton, hd, Task.callFor, if_pos rfl]
        rfl
      rw [hbegun, recordsOf_append, hsingle, recordCalls_append] at hnew
      rw [hrows, State.sequentialRows, hbegun, recordsOf_append, hsingle, rowsOf_append, hnew]
      exact (h.log call.serverId).append (List.Sublist.refl _)
    · rw [hother hdc] at hinfo'
      rw [hrows]
      exact (h.pending d call info hd hinfo').trans (hgrow call.serverId).sublist

/-- A task goes on after it has begun. -/
theorem Inv.move (h : Inv cfg s) {i c : Nat} (hrun : running s i = some c)
    (hold : s.tasks c ≠ .start) {pc : TaskPc} (hpc : pc ≠ .start)
    (hpc' : ∀ info, pc ≠ .persistLatency info)
    (hqueue : s'.mOrderedTaskQueue = s.mOrderedTaskQueue) (hbegun : s'.begun = s.begun)
    (htasks : s'.tasks = Function.update s.tasks c pc)
    (hmanager : s'.mLatencyManager = s.mLatencyManager)
    (hlog : ∀ serverId, (s'.rowsFor serverId).Sublist (s.sequentialRows cfg serverId))
    (hrows : ∀ serverId, serverId ≠ (cfg.task c).serverId →
      s'.rowsFor serverId = s.rowsFor serverId) : Inv cfg s' := by
  obtain ⟨hexec, htask⟩ := running_eq_some hrun
  have hother : ∀ {d : Nat}, d ≠ c → s'.tasks d = s.tasks d := fun hd => by
    rw [htasks, Function.update_of_ne hd]
  have hself : s'.tasks c = pc := by rw [htasks, Function.update_self]
  have hseq : ∀ serverId, s'.sequentialRows cfg serverId = s.sequentialRows cfg serverId :=
    fun serverId => by rw [State.sequentialRows, State.sequentialRows, hbegun]
  refine { queue := hqueue ▸ h.queue, initialized := hmanager ▸ h.initialized,
           wrapped := fun d hd => ?_, active := fun d hstart hdone => ?_, begun := fun d => ?_,
           taken := fun d hd => ?_, order := fun j => ?_, info := fun serverId => ?_,
           log := fun serverId => ?_, pending := fun d call info hd hinfo => ?_ }
  · rw [hqueue] at hd
    have hdc : d ≠ c := by
      rintro rfl
      exact hd htask
    rw [hother hdc]
    exact h.wrapped d hd
  · rw [hqueue]
    by_cases hdc : d = c
    · exact ⟨i, hdc ▸ hexec⟩
    · rw [hother hdc] at hstart hdone
      exact h.active d hstart hdone
  · rw [hbegun]
    by_cases hdc : d = c
    · subst hdc
      rw [hself]
      exact ⟨fun _ => hpc, fun _ => (h.begun d).mpr hold⟩
    · rw [hother hdc]
      exact h.begun d
  · rw [hqueue]
    exact h.taken d (hbegun ▸ hd)
  · rw [hqueue, hbegun]
    exact h.order j
  · rw [hmanager, hbegun]
    exact h.info serverId
  · rw [hseq]
    exact hlog serverId
  · by_cases hdc : d = c
    · rw [hdc, hself] at hinfo
      exact absurd hinfo (hpc' info)
    · rw [hother hdc] at hinfo
      have hkey : call.serverId ≠ (cfg.task c).serverId := fun hkey =>
        hdc (h.unique hrun (by simp [hinfo]) (by simp [hinfo]) (by rw [hd]; exact hkey))
      rw [hseq, hrows _ hkey]
      exact h.pending d call info hd hinfo

/-- The rows of the servers when a row is inserted. -/
theorem rowsFor_insert (s s' : State) (row : LatencyRow) {inserted : Bool} (serverId : UInt32)
    (hlog : s'.latencyLog = if inserted then s.latencyLog ++ [row] else s.latencyLog) :
    (s'.rowsFor serverId).Sublist (s.rowsFor serverId ++ [row]) ∧
      (serverId ≠ row.serverId → s'.rowsFor serverId = s.rowsFor serverId) := by
  rw [State.rowsFor, State.rowsFor, hlog]
  cases inserted with
  | true =>
      rw [if_pos rfl, List.filter_append]
      refine ⟨(List.Sublist.refl _).append List.filter_sublist, fun hne => ?_⟩
      rw [List.filter_singleton, decide_eq_false hne.symm]
      exact List.append_nil _
  | false => exact ⟨List.sublist_append_left _ _, fun _ => rfl⟩

theorem Inv.taskStep (h : Inv cfg s) {i c : Nat} {answer : Answer} (hrun : running s i = some c)
    (hs : taskStep cfg s c answer = some s') : Inv cfg s' := by
  have hsingle : ∀ {id : UInt32} {name : String} {timestamp : UInt64} (serverId : UInt32),
      cfg.task c = .savePingTime id name timestamp →
      recordsOf cfg serverId (s.begun ++ [c]) = recordsOf cfg serverId s.begun := by
    intro id name timestamp serverId htask
    rw [recordsOf_append, recordsOf_singleton, htask]
    exact List.append_nil _
  rw [LatencyLog.taskStep] at hs
  split at hs
  · next call htask hstart =>
      rw [if_pos h.initialized] at hs
      cases hs
      have hinfo : ∀ serverId, (s.mLatencyManager.recordLatency call.serverId call.serverName
          call.rttMs call.timestamp).mLatencyMap serverId =
          recordCalls {} (recordsOf cfg serverId (s.begun ++ [c])) := by
        intro serverId
        rw [recordsOf_append, recordsOf_singleton, htask, Task.callFor, recordCalls_append,
          ← h.info serverId, ServerLatencyManager.recordLatency, if_pos h.initialized]
        dsimp only
        split_ifs with hid
        · rw [← hid, Function.update_self]
          rfl
        · rw [Function.update_of_ne (Ne.symm hid)]
          rfl
      have hne : ∀ info, TaskPc.persistLatency info ≠ .start := fun _ => by simp
      refine h.begin hrun hstart (hne _) rfl rfl rfl rfl ?_ hinfo ?_
      · dsimp only [State.setTask]
        rw [ServerLatencyManager.recordLatency, if_pos h.initialized]
        exact h.initialized
      · intro call' info htask' hpc
        obtain rfl := Task.recordLatency.inj (htask.symm.trans htask')
        exact (TaskPc.persistLatency.inj hpc).symm.trans (hinfo call.serverId)
  · next call info htask hpc =>
      cases hs
      have hserver : (cfg.task c).serverId = call.serverId := by rw [htask]; rfl
      have hinsert := fun serverId => rowsFor_insert s
        (State.setTask { s with
          latencyLog := if answer.insert.row then
            s.latencyLog ++ [latencyRow cfg.formatTimestamp call info] else s.latencyLog } c .done)
        (latencyRow cfg.formatTimestamp call info) serverId rfl
      refine h.move hrun (by simp [hpc]) (by simp) (by simp) rfl rfl rfl rfl (fun serverId => ?_)
        fun serverId hne => (hinsert serverId).2 fun hid => hne (hid.trans hserver.symm)
      by_cases hid : serverId = call.serverId
      · subst hid
        exact (hinsert call.serverId).1.trans (h.pending c call info htask hpc)
      · rw [(hinsert serverId).2 hid]
        exact h.log serverId
  · next id name timestamp htask hstart =>
      have hbegin : ∀ {t : State} {pc : TaskPc}, t.mOrderedTaskQueue = s.mOrderedTaskQueue →
          t.begun = s.begun ++ [c] → t.tasks = Function.update s.tasks c pc →
          t.latencyLog = s.latencyLog → t.mLatencyManager = s.mLatencyManager → pc ≠ .start →
          Inv cfg t := by
        intro t pc hqueue hbegun htasks hlog hmanager hpc
        refine h.begin hrun hstart hpc hqueue hbegun htasks hlog (hmanager ▸ h.initialized)
          (fun serverId => ?_) fun call info htask' => ?_
        · rw [hmanager, hbegun, hsingle serverId htask]
          exact h.info serverId
        · rw [htask] at htask'
          cases htask'
      split at hs
      · cases hs
        exact hbegin rfl rfl rfl rfl rfl (by simp)
      · dsimp only at hs
        split at hs
        · cases hs
          exact hbegin rfl rfl rfl rfl rfl (by simp)
        · cases hs
          exact hbegin rfl rfl rfl rfl rfl (by simp)
  · next id name timestamp htask hpc =>
      have hmove : ∀ {t : State} {result : UInt8}, t.mOrderedTaskQueue = s.mOrderedTaskQueue →
          t.begun = s.begun → t.tasks = Function.update s.tasks c (.respond result) →
          t.latencyLog = s.latencyLog → t.mLatencyManager = s.mLatencyManager → Inv cfg t := by
        intro t result hqueue hbegun htasks hlog hmanager
        have hrows : ∀ serverId, t.rowsFor serverId = s.rowsFor serverId := fun serverId => by
          rw [State.rowsFor, State.rowsFor, hlog]
        exact h.move hrun (by simp [hpc]) (by simp) (by simp) hqueue hbegun htasks hmanager
          (fun serverId => hrows serverId ▸ h.log serverId) fun serverId _ => hrows serverId
      dsimp only at hs
      split at hs
      · cases hs
        exact hmove rfl rfl rfl rfl rfl
      · cases hs
        exact hmove rfl rfl rfl rfl rfl
  · next id name timestamp result htask hpc =>
      cases hs
      exact h.move hrun (by simp [hpc]) (by simp) (by simp) rfl rfl rfl rfl h.log fun _ _ => rfl
  · cases hs

theorem Inv.step {a : Act} (h : Inv cfg s) (hs : LatencyLog.step cfg s a = some s') :
    Inv cfg s' := by
  cases a with
  | queue a =>
      rw [LatencyLog.step] at hs
      split at hs
      · next hgo =>
          obtain ⟨q, hq, rfl⟩ := Option.map_eq_some_iff.mp hs
          exact h.queue_step hgo hq
      · cases hs
  | task i answer =>
      obtain ⟨c, hrun, hs⟩ := Option.bind_eq_some_iff.mp hs
      exact h.taskStep hrun hs

/-! ## All runs -/

/-- The tasks of a worker begin in the order of its queue. -/
theorem Inv.begun_isPrefix (h : Inv cfg s) (i : Nat) :
    FifoPool.onLane (workerOf cfg.queue.dispatcher) i s.begun <+:
      FifoPool.onLane (workerOf cfg.queue.dispatcher) i s.mOrderedTaskQueue.mDispatcher.pushed := by
  refine List.IsPrefix.trans ?_ (h.queue.dispatcher.pool.taken_isPrefix i)
  have htaken := h.queue.dispatcher.pool.taken_eq i
  have hfinished : ∀ c ∈ FifoPool.onLane (workerOf cfg.queue.dispatcher) i
      s.mOrderedTaskQueue.mDispatcher.pool.finished, c ∈ s.begun := by
    intro c hc
    obtain ⟨threw, hdone⟩ := h.queue.ran c (.inl (FifoPool.mem_onLane.mp hc).1)
    rw [h.begun c, h.wrapped c (by simp [hdone])]
    simp
  have horder := h.order i
  rw [show s.mOrderedTaskQueue.mDispatcher.taken =
    s.mOrderedTaskQueue.mDispatcher.pool.taken from rfl, htaken, List.filter_append,
    List.filter_eq_self.mpr fun c hc => decide_eq_true (hfinished c hc)] at horder
  rw [horder, htaken]
  refine List.prefix_append_right_inj _ |>.mpr ?_
  cases s.mOrderedTaskQueue.mDispatcher.pool.current i with
  | none => exact List.prefix_rfl
  | some c =>
      by_cases hc : c ∈ s.begun
      · simp [hc]
      · simp [hc]

/-- When the queue has shut down and left no task, its tasks have begun. -/
theorem Inv.begun_eq (h : Inv cfg s) (hstop : s.mOrderedTaskQueue.shutdown = .returned)
    (hleft : NothingLeft s.mOrderedTaskQueue.mDispatcher) {c : Nat}
    (hc : c ∈ s.mOrderedTaskQueue.mDispatcher.pushed) : c ∈ s.begun := by
  have hret := h.queue.stopped hstop
  have hcount := h.queue.dispatcher.count_finished hret hleft c
  have hfinished : c ∈ s.mOrderedTaskQueue.mDispatcher.finished :=
    List.count_pos_iff.mp (hcount ▸ List.count_pos_iff.mpr hc)
  obtain ⟨threw, hdone⟩ := h.queue.ran c (.inl hfinished)
  rw [h.begun c, h.wrapped c (by simp [hdone])]
  simp

/-- In every run the statistics of a server are those of its first round-trip times in the order
of the queue, and its rows in the log are some of the rows of a sequential run, in order and with
increasing ping counts.  When the queue has shut down and left no task, they are those of all
its round-trip times. -/
theorem latencyLog_inOrder {as : List Act} (hrun : Machine.run (LatencyLog.step cfg) {} as = some s)
    (serverId : UInt32) :
    ∃ calls, calls <+: recordsOf cfg serverId s.mOrderedTaskQueue.mDispatcher.pushed ∧
      s.mLatencyManager.mLatencyMap serverId = recordCalls {} calls ∧
      (s.rowsFor serverId).Sublist (rowsOf cfg.formatTimestamp {} calls) ∧
      ((s.rowsFor serverId).map LatencyRow.pingCount).Pairwise (· < ·) ∧
      (s.mOrderedTaskQueue.shutdown = .returned → NothingLeft s.mOrderedTaskQueue.mDispatcher →
        calls = recordsOf cfg serverId s.mOrderedTaskQueue.mDispatcher.pushed) := by
  have h : Inv cfg s := Machine.run_invariant (fun _ _ _ h hs => h.step hs) Inv.start hrun
  have hlane := h.begun_isPrefix (keyToWorkerIndex cfg.queue.dispatcher serverId.toUInt64)
  refine ⟨recordsOf cfg serverId s.begun, ?_, h.info serverId, h.log serverId, ?_,
    fun hstop hleft => ?_⟩
  · rw [← recordsOf_onLane s.begun, ← recordsOf_onLane s.mOrderedTaskQueue.mDispatcher.pushed]
    exact hlane.filterMap _
  · refine List.Pairwise.sublist ((h.log serverId).map _) ?_
    rw [State.sequentialRows, pingCounts_rowsOf]
    exact List.pairwise_lt_range'
  · rw [← recordsOf_onLane s.begun, ← recordsOf_onLane s.mOrderedTaskQueue.mDispatcher.pushed]
    have hnodup := h.queue.dispatcher.calls.pushed_nodup.filter fun c =>
      workerOf cfg.queue.dispatcher c =
        keyToWorkerIndex cfg.queue.dispatcher serverId.toUInt64
    have hsub : FifoPool.onLane (workerOf cfg.queue.dispatcher)
        (keyToWorkerIndex cfg.queue.dispatcher serverId.toUInt64)
        s.mOrderedTaskQueue.mDispatcher.pushed ⊆
        FifoPool.onLane (workerOf cfg.queue.dispatcher)
          (keyToWorkerIndex cfg.queue.dispatcher serverId.toUInt64) s.begun := by
      intro c hc
      obtain ⟨hpushed, hkey⟩ := FifoPool.mem_onLane.mp hc
      exact FifoPool.mem_onLane.mpr ⟨h.begun_eq hstop hleft hpushed, hkey⟩
    rw [hlane.eq_of_length_le (hnodup.subperm hsub).length_le]

/-- Three tasks of two servers, on two workers. -/
def twoServers : Config where
  workerCount := 2
  workerCount_pos := by decide
  task := fun c =>
    if c = 0 then .recordLatency ⟨1, "Server_1", 30, 1000⟩
    else if c = 1 then .recordLatency ⟨2, "Server_2", 5, 2000⟩
    else .recordLatency ⟨1, "Server_1", 10, 3000⟩
  formatTimestamp := fun timestamp => toString timestamp

/-- `EnqueueTask` runs through. -/
def enqueueTrace (c : Nat) : List Act :=
  (OrderedTasks.Act.call c :: List.replicate 15 (.enqueue c false)).map .queue

/-- A worker takes a task, whose row is inserted or not. -/
def runTrace (i : Nat) (insert : Insert) : List Act :=
  List.replicate 5 (.queue (.work i false false)) ++
    List.replicate 2 (.task i { insert }) ++ List.replicate 4 (.queue (.work i false false))

/-- The second worker runs between the tasks of the first, and the row of the first task is
lost. -/
def interleavedTrace : List Act :=
  enqueueTrace 0 ++ enqueueTrace 1 ++ enqueueTrace 2 ++ runTrace 1 (.throws false) ++
    runTrace 0 .inserted ++ runTrace 1 .inserted

theorem latencyLog_inOrder_interleaved :
    ∃ s, Machine.run (LatencyLog.step twoServers) {} interleavedTrace = some s ∧
      s.latencyLog.map LatencyRow.pingCount = [1, 2] ∧
      ∃ calls, calls <+: recordsOf twoServers 1 s.mOrderedTaskQueue.mDispatcher.pushed ∧
        s.mLatencyManager.mLatencyMap 1 = recordCalls {} calls ∧
        (s.rowsFor 1).Sublist (rowsOf twoServers.formatTimestamp {} calls) := by
  have hrun : (Machine.run (LatencyLog.step twoServers) {} interleavedTrace).any (fun s =>
      decide (s.latencyLog.map LatencyRow.pingCount = [1, 2])) = true := by decide +kernel
  obtain ⟨s, hs, hp⟩ := (Option.any_eq_true _ _).mp hrun
  obtain ⟨calls, hcalls, hinfo, hrows, -⟩ := latencyLog_inOrder hs 1
  exact ⟨s, hs, of_decide_eq_true hp, calls, hcalls, hinfo, hrows⟩

end

end NetworkModule.LatencyLog
