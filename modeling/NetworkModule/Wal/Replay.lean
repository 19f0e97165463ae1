import NetworkModule.Wal.Lifecycle

/-!
# What a replay leaves in the database

The player data of a session after some tasks is that of its last update among them,
and what it was before if there is none (`dataAfter`).  The tasks of a session are
all at one worker, in the order in which they were pushed.

A life that only replays, with every statement executed, has an outcome: the player
data of each session when nothing is left to process.  It is known when the process
starts, from the files and the database, and no step changes it (`Replaying.step`).
-/

namespace NetworkModule.Wal

/-! ## Updates of one session -/

/-- Whether the task updates the player data of the session. -/
def DBTask.updates (sid : ConnectionId) (t : DBTask) : Bool :=
  t.type = .updatePlayerData && t.sessionId = sid

/-- The updates of a session, in their order. -/
def updatesOf (sid : ConnectionId) (ts : List DBTask) : List DBTask := ts.filter (·.updates sid)

/-- The last update of a session. -/
def lastUpdate (sid : ConnectionId) (ts : List DBTask) : Option DBTask := (updatesOf sid ts).getLast?

/-- The player data of a session after the tasks, if it was `x` before. -/
def dataAfter (sid : ConnectionId) (ts : List DBTask) (x : Option (List Char)) : Option (List Char) :=
  ((lastUpdate sid ts).map (·.data)).or x

section
variable {sid : ConnectionId}

@[simp] theorem updatesOf_nil : updatesOf sid [] = [] := rfl

@[simp] theorem updatesOf_append (ts ts' : List DBTask) :
    updatesOf sid (ts ++ ts') = updatesOf sid ts ++ updatesOf sid ts' := List.filter_append ..

theorem updatesOf_cons (t : DBTask) (ts : List DBTask) :
    updatesOf sid (t :: ts) = updatesOf sid [t] ++ updatesOf sid ts := updatesOf_append [t] ts

theorem updatesOf_singleton (t : DBTask) :
    updatesOf sid [t] = if t.updates sid then [t] else [] := by
  rw [updatesOf, List.filter_cons]
  rfl

/-- A task of another session is no update of this one. -/
theorem updates_eq_false {t : DBTask} (h : t.sessionId ≠ sid) : t.updates sid = false := by
  simp [DBTask.updates, h]

theorem dataAfter_congr {ts ts' : List DBTask} (h : updatesOf sid ts = updatesOf sid ts')
    (x : Option (List Char)) : dataAfter sid ts x = dataAfter sid ts' x := by
  rw [dataAfter, lastUpdate, h]
  rfl

/-- The outcome does not depend on the number of a task. -/
theorem dataAfter_walSeq (ts ts' : List DBTask) (t : DBTask) (q : Nat) (x : Option (List Char)) :
    dataAfter sid (ts ++ { t with walSeq := q } :: ts') x = dataAfter sid (ts ++ t :: ts') x := by
  have hsame : ({ t with walSeq := q } : DBTask).updates sid = t.updates sid := rfl
  simp only [dataAfter, lastUpdate, updatesOf_append]
  rw [updatesOf_cons, updatesOf_cons t, updatesOf_singleton, updatesOf_singleton, hsame]
  cases t.updates sid with
  | false => rfl
  | true =>
      simp only [if_true, List.singleton_append, List.getLast?_append, List.getLast?_cons]
      cases (updatesOf sid ts').getLast? <;> rfl

/-- The statement of a task stores its data. -/
theorem players_execute (db : Database) (t : DBTask) :
    (db.execute t).players sid = if t.updates sid then some t.data else db.players sid := by
  cases ht : t.type with
  | updatePlayerData =>
      by_cases hsid : t.sessionId = sid
      · simp [Database.execute, DBTask.updates, ht, hsid]
      · simp [Database.execute, DBTask.updates, ht, hsid, Function.update_of_ne (Ne.symm hsid)]
  | _ => simp [Database.execute, DBTask.updates, ht]

/-- Processing the first task does not change the outcome. -/
theorem dataAfter_execute (db : Database) (t : DBTask) (ts : List DBTask) :
    dataAfter sid ts ((db.execute t).players sid) = dataAfter sid (t :: ts) (db.players sid) := by
  rw [players_execute, dataAfter, dataAfter, lastUpdate, lastUpdate, updatesOf_cons,
    updatesOf_singleton]
  cases t.updates sid with
  | false => rfl
  | true =>
      simp only [if_true, List.singleton_append, List.getLast?_cons]
      cases (updatesOf sid ts).getLast? <;> rfl

end

/-! ## Workers and sessions -/

/-- The tasks that the worker of a session still has to process. -/
def tasksFor (ws : List Worker) (sid : ConnectionId) : List DBTask :=
  (ws[sid.toNat % ws.length]?.map Worker.tasks).getD []

/-- Every task is at the worker of its session. -/
def Routed (ws : List Worker) : Prop :=
  ∀ (p : Nat) (w : Worker), ws[p]? = some w → ∀ t ∈ w.tasks, t.sessionId.toNat % ws.length = p

section
variable {ws : List Worker} {p : Nat} {w w' : Worker} {sid : ConnectionId}

theorem tasksFor_set (hw : ws[p]? = some w) (sid : ConnectionId) :
    tasksFor (ws.set p w') sid =
      if sid.toNat % ws.length = p then w'.tasks else tasksFor ws sid := by
  obtain ⟨hlt, -⟩ := List.getElem?_eq_some_iff.mp hw
  rw [tasksFor, List.length_set]
  by_cases hp : sid.toNat % ws.length = p
  · rw [if_pos hp, hp, List.getElem?_set_self hlt]
    rfl
  · rw [if_neg hp, List.getElem?_set_ne (Ne.symm hp)]
    rfl

theorem tasksFor_of_getElem? (hw : ws[p]? = some w) (hp : sid.toNat % ws.length = p) :
    tasksFor ws sid = w.tasks := by
  rw [tasksFor, hp, hw]
  rfl

/-- A worker may be changed to one whose tasks belong there. -/
theorem Routed.set (h : Routed ws) (hw : ∀ t ∈ w'.tasks, t.sessionId.toNat % ws.length = p) :
    Routed (ws.set p w') := by
  intro q x hx t ht
  rw [List.length_set]
  rw [List.getElem?_set] at hx
  split at hx
  next heq =>
    split at hx
    · cases hx
      exact (hw t ht).trans heq
    · cases hx
  next => exact h q x hx t ht

/-- A step of a worker that leaves its tasks alone. -/
theorem tasksFor_move (h : Routed ws) (hw : ws[p]? = some w) (ht : w'.tasks = w.tasks) :
    Routed (ws.set p w') ∧ ∀ sid, tasksFor (ws.set p w') sid = tasksFor ws sid := by
  refine ⟨h.set fun t hm => h p w hw t (ht ▸ hm), fun sid => ?_⟩
  rw [tasksFor_set hw]
  split
  next hp => rw [ht, tasksFor_of_getElem? hw hp]
  next => rfl

/-- A worker drops its first task, and other sessions do not notice. -/
theorem updatesOf_tasksFor_pop (h : Routed ws) (hw : ws[p]? = some w) {t : DBTask}
    (ht : w.tasks = t :: w'.tasks) (sid : ConnectionId) :
    updatesOf sid (tasksFor ws sid) = updatesOf sid (t :: tasksFor (ws.set p w') sid) := by
  rw [tasksFor_set hw]
  split
  next hp => rw [tasksFor_of_getElem? hw hp, ht]
  next hp =>
    have hne : t.sessionId ≠ sid := by
      rintro rfl
      exact hp (h p w hw t (ht ▸ List.mem_cons_self))
    rw [updatesOf_cons, updatesOf_singleton, updates_eq_false hne]
    rfl

theorem Routed.pop (h : Routed ws) (hw : ws[p]? = some w) {t : DBTask}
    (ht : w.tasks = t :: w'.tasks) : Routed (ws.set p w') :=
  h.set fun t' hm => h p w hw t' (ht ▸ List.mem_cons_of_mem _ hm)

/-- The tasks of a worker after a push. -/
theorem tasks_push (w : Worker) (t : DBTask) :
    ({ w with taskQueue := w.taskQueue ++ [t] } : Worker).tasks = w.tasks ++ [t] := by
  obtain ⟨q, pc⟩ := w
  cases pc <;> rfl

end

section
variable {s s' : WalState}

/-- A push as a change of one worker. -/
theorem workers_pushTask (hw : 0 < s.workers.length) (t : DBTask) :
    ∃ w, s.workers[t.sessionId.toNat % s.workers.length]? = some w ∧
      (s.pushTask t).workers = s.workers.set (t.sessionId.toNat % s.workers.length)
        { w with taskQueue := w.taskQueue ++ [t] } := by
  have hlt : t.sessionId.toNat % s.workers.length < s.workers.length := Nat.mod_lt _ hw
  refine ⟨_, List.getElem?_eq_getElem hlt, ?_⟩
  rw [WalState.pushTask]
  simp only [List.modify_eq_set_getElem?, List.getElem?_eq_getElem hlt]
  rfl

/-- A push adds the task at the end, for its session. -/
theorem updatesOf_tasksFor_push (hw : 0 < s.workers.length) (t : DBTask) (sid : ConnectionId) :
    updatesOf sid (tasksFor (s.pushTask t).workers sid) =
      updatesOf sid (tasksFor s.workers sid ++ [t]) := by
  obtain ⟨w, hget, hset⟩ := workers_pushTask hw t
  rw [hset, tasksFor_set hget]
  split
  next hp => rw [tasks_push, tasksFor_of_getElem? hget hp]
  next hp =>
    have hne : t.sessionId ≠ sid := by
      rintro rfl
      exact hp rfl
    rw [updatesOf_append, updatesOf_singleton, updates_eq_false hne]
    exact (List.append_nil _).symm

theorem Routed.push (h : Routed s.workers) (hw : 0 < s.workers.length) (t : DBTask) :
    Routed (s.pushTask t).workers := by
  obtain ⟨w, hget, hset⟩ := workers_pushTask hw t
  rw [hset]
  refine h.set fun t' ht' => ?_
  rw [tasks_push] at ht'
  rcases List.mem_append.mp ht' with ht' | ht'
  · exact h _ w hget t' ht'
  · rw [List.mem_singleton.mp ht']

/-- What a worker leaves alone besides the frame. -/
structure WorkFrame (s s' : WalState) : Prop where
  frame : Frame s s'
  calls : s'.calls = s.calls
  mIsRunning : s'.mIsRunning = s.mIsRunning
  enqueued : s'.enqueued = s.enqueued

/-- A step of a worker leaves its tasks and the database alone, or it processes its
first task. -/
theorem workStep_cases {p : Nat} {w : Worker} {answer : DbAnswer}
    (hs : workStep s p w answer = some s') :
    WorkFrame s s' ∧
      ((∃ w' : Worker, s'.workers = s.workers.set p w' ∧ w'.tasks = w.tasks ∧ s'.db = s.db) ∨
        ∃ (t : DBTask) (w' : Worker), w.pc = .process t ∧ w.tasks = t :: w'.tasks ∧
          w' = { w with pc := afterProcess t answer } ∧
          s' = (processTask s t answer).setWorker p w') := by
  obtain ⟨hf, hcalls⟩ := workStep_frame hs
  obtain ⟨q, pc⟩ := w
  cases pc with
  | head =>
      cases hs
      refine ⟨⟨hf, hcalls, rfl, rfl⟩, .inl ⟨_, rfl, ?_, rfl⟩⟩
      cases s.mIsRunning <;> rfl
  | waiting =>
      simp only [workStep] at hs
      split at hs
      · cases hs
        exact ⟨⟨hf, hcalls, rfl, rfl⟩, .inl ⟨_, rfl, rfl, rfl⟩⟩
      · split at hs
        · cases hs
        · cases hs
          exact ⟨⟨hf, hcalls, rfl, rfl⟩, .inl ⟨_, rfl, rfl, rfl⟩⟩
  | process t =>
      cases hs
      refine ⟨⟨hf, hcalls, rfl, rfl⟩, .inr ⟨t, _, rfl, ?_, rfl, rfl⟩⟩
      rw [afterProcess]
      split <;> rfl
  | writeDone t =>
      cases hs
      exact ⟨⟨hf, hcalls, rfl, rfl⟩, .inl ⟨_, rfl, rfl, rfl⟩⟩
  | stopped =>
      simp only [workStep] at hs
      split at hs
      · split at hs
        · cases hs
          exact ⟨⟨hf, hcalls, rfl, rfl⟩, .inl ⟨_, rfl, rfl, rfl⟩⟩
        · cases hs
      · cases hs

end

/-! ## The second life -/

/-- The tasks made from the entries of a log. -/
def tasksOf (es : List (Nat × WalEntry)) : List DBTask := es.map (·.2.task)

/-- The tasks that `WalRecover` is still going to push. -/
def WalState.replaying (s : WalState) : List DBTask :=
  match s.recover with
  | .parsePrimary => tasksOf (parseWalFile (parseWalFile (.empty, 0) s.primary) s.bak).1.entries
  | .parseBackup m maxSeenSeq => tasksOf (parseWalFile (m, maxSeenSeq) s.bak).1.entries
  | .removeBackup m => tasksOf m.entries
  | .rename m _ => tasksOf m.entries
  | .removePrimary m => tasksOf m.entries
  | .requeue left call _ => call.toList.map (·.task) ++ tasksOf left
  | _ => []

/-- The player data of a session when all of them are processed. -/
def WalState.outcome (s : WalState) (sid : ConnectionId) : Option (List Char) :=
  dataAfter sid (tasksFor s.workers sid ++ s.replaying) (s.db.players sid)

/-- A life in which nobody enqueues and every statement is executed. -/
def replayOk (_ : WalState) : Act → Bool
  | .enqueue _ => false
  | .crash => false
  | .work _ answer => answer = .ok
  | _ => true

/-- `WalRecover` has returned, and the workers have nothing left to process. -/
def Settled (s : WalState) : Prop := s.recover.isDone = true ∧ ∀ w ∈ s.workers, w.tasks = []

/-- What holds in such a life.  `out` is the outcome, and `enqueued` are the tasks
enqueued before. -/
structure Replaying (out : ConnectionId → Option (List Char)) (enqueued : List DBTask)
    (s : WalState) : Prop where
  up : s.up = true
  workers : 0 < s.workers.length
  calls : s.calls = []
  mIsRunning : s.recover.isDone = false → s.mIsRunning = true
  call : ∀ c, s.recover.call = some c → c.pc ≠ .writeDone
  /-- Nobody writes to the log before it is read. -/
  idle : s.recover = .parsePrimary → ∀ w ∈ s.workers, w.tasks = [] ∧ w.dones = []
  routed : Routed s.workers
  enqueued_eq : s.enqueued = enqueued
  outcome : ∀ sid, s.outcome sid = out sid

section
variable {s s' : WalState} {out : ConnectionId → Option (List Char)} {ts : List DBTask}

theorem outcome_congr {sid : ConnectionId} (hdb : s'.db = s.db)
    (h : updatesOf sid (tasksFor s'.workers sid ++ s'.replaying) =
      updatesOf sid (tasksFor s.workers sid ++ s.replaying)) : s'.outcome sid = s.outcome sid := by
  rw [WalState.outcome, hdb]
  exact dataAfter_congr h _

/-- A step of `WalRecover` that reads or moves files. -/
theorem Replaying.reading (h : Replaying out ts s) (hdone : s.recover.isDone = false)
    (hdb : s'.db = s.db) (hup : s'.up = s.up) (hws : s'.workers = s.workers)
    (hcalls : s'.calls = s.calls) (hrun : s'.mIsRunning = s.mIsRunning)
    (henq : s'.enqueued = s.enqueued) (hcall : s'.recover.call = none)
    (hpc : s'.recover ≠ .parsePrimary)
    (htasks : s'.replaying = s.replaying) : Replaying out ts s' where
  up := hup.trans h.up
  workers := by rw [hws]; exact h.workers
  calls := hcalls.trans h.calls
  mIsRunning := fun _ => hrun.trans (h.mIsRunning hdone)
  call := by
    intro c hc
    rw [hcall] at hc
    cases hc
  idle := fun hr => absurd hr hpc
  routed := by rw [hws]; exact h.routed
  enqueued_eq := henq.trans h.enqueued_eq
  outcome := by
    intro sid
    rw [← h.outcome sid]
    exact outcome_congr hdb (by rw [hws, htasks])

/-- The call of `WalRecover` takes a step. -/
theorem Replaying.callStep (h : Replaying out ts s) {left : List (Nat × WalEntry)} {c : Call} {b : Bool}
    (hr : s.recover = .requeue left (some c) b) :
    Replaying out ts { (callStep s c).1 with recover := .requeue left (callStep s c).2 b } := by
  have hrun := h.mIsRunning (by rw [hr]; rfl)
  have hold : s.replaying = c.task :: tasksOf left := by rw [WalState.replaying, hr]; rfl
  cases hpc : c.pc with
  | nextSeq =>
      simp only [Wal.callStep, hpc]
      refine ⟨h.up, h.workers, h.calls, (fun _ => hrun), ?_, (fun h => by cases h), h.routed,
        h.enqueued_eq, fun sid => ?_⟩
      · intro c' hc'
        cases hc'
        exact fun h => by cases h
      · rw [← h.outcome sid, WalState.outcome, WalState.outcome, hold]
        exact dataAfter_walSeq ..
  | writePending =>
      simp only [Wal.callStep, hpc]
      refine ⟨h.up, h.workers, h.calls, (fun _ => hrun), ?_, (fun h => by cases h), h.routed,
        h.enqueued_eq, fun sid => ?_⟩
      · intro c' hc'
        cases hc'
        exact fun h => by cases h
      · rw [← h.outcome sid]
        refine outcome_congr rfl ?_
        rw [hold]
        rfl
  | push =>
      simp only [Wal.callStep, hpc, hrun, if_true]
      refine ⟨h.up, ?_, h.calls, (fun _ => hrun), (fun _ h => by cases h),
        (fun h => by cases h), h.routed.push h.workers c.task, ?_, fun sid => ?_⟩
      · simpa [WalState.pushTask] using h.workers
      · simpa [WalState.pushTask, hr, RecoverPc.isDone] using h.enqueued_eq
      · rw [← h.outcome sid]
        refine outcome_congr rfl ?_
        show updatesOf sid (tasksFor (s.pushTask c.task).workers sid ++ tasksOf left) = _
        rw [updatesOf_append, updatesOf_tasksFor_push h.workers, hold, ← updatesOf_append,
          List.append_assoc]
        rfl
  | writeDone => exact absurd hpc (h.call c (by rw [hr]; rfl))

theorem Replaying.recoverStep {b : Bool} (h : Replaying out ts s)
    (hs : recoverStep s b = some s') : Replaying out ts s' := by
  cases hr : s.recover with
  | requeue left call inMemory =>
      cases call with
      | some c =>
          simp only [Wal.recoverStep, hr] at hs
          cases hs
          exact h.callStep hr
      | none =>
          have hrun := h.mIsRunning (by rw [hr]; rfl)
          cases left with
          | nil =>
              simp only [Wal.recoverStep, hr] at hs
              cases hs
              refine h.reading (by rw [hr]; rfl) rfl rfl rfl rfl rfl rfl rfl (fun h => by cases h) ?_
              simp [WalState.replaying, hr, tasksOf]
          | cons x left =>
              simp only [Wal.recoverStep, hr] at hs
              cases hs
              refine ⟨h.up, h.workers, h.calls, (fun _ => hrun), ?_, (fun h => by cases h), h.routed,
        h.enqueued_eq, fun sid => ?_⟩
              · intro c hc
                cases hc
                exact fun h => by cases h
              · rw [← h.outcome sid]
                refine outcome_congr rfl ?_
                simp [WalState.replaying, hr, tasksOf]
  | parsePrimary =>
      simp only [Wal.recoverStep, hr] at hs
      cases hs
      refine h.reading (by rw [hr]; rfl) rfl rfl rfl rfl rfl rfl rfl (fun h => by cases h) ?_
      rw [WalState.replaying, WalState.replaying, hr]
  | parseBackup m maxSeenSeq =>
      have hold : s.replaying = tasksOf (parseWalFile (m, maxSeenSeq) s.bak).1.entries := by
        rw [WalState.replaying, hr]
      simp only [Wal.recoverStep, hr] at hs
      split at hs
      next hnone =>
        have hnil : s.replaying = [] := by rw [hold, List.isEmpty_iff.mp hnone]; rfl
        cases hs
        by_cases h0 : (parseWalFile (m, maxSeenSeq) s.bak).2 = 0
        · refine h.reading (by rw [hr]; rfl) rfl rfl rfl rfl rfl rfl ?_ ?_ ?_
          · simp only [if_pos h0]
            rfl
          · simp only [if_pos h0]
            exact fun h => by cases h
          · rw [hnil]
            simp only [WalState.replaying, if_pos h0]
        · refine h.reading (by rw [hr]; rfl) rfl rfl rfl rfl rfl rfl ?_ ?_ ?_
          · simp only [if_neg h0]
            rfl
          · simp only [if_neg h0]
            exact fun h => by cases h
          · rw [hnil]
            simp only [WalState.replaying, if_neg h0]
      next =>
        cases hs
        exact h.reading (by rw [hr]; rfl) rfl rfl rfl rfl rfl rfl rfl (fun h => by cases h) hold.symm
  | cleanPrimary =>
      simp only [Wal.recoverStep, hr] at hs
      cases hs
      refine h.reading (by rw [hr]; rfl) rfl rfl rfl rfl rfl rfl rfl (fun h => by cases h) ?_
      rw [WalState.replaying, WalState.replaying, hr]
  | cleanBackup =>
      simp only [Wal.recoverStep, hr] at hs
      cases hs
      refine h.reading (by rw [hr]; rfl) rfl rfl rfl rfl rfl rfl rfl (fun h => by cases h) ?_
      rw [WalState.replaying, WalState.replaying, hr]
  | removeBackup m =>
      simp only [Wal.recoverStep, hr] at hs
      cases hs
      refine h.reading (by rw [hr]; rfl) rfl rfl rfl rfl rfl rfl rfl (fun h => by cases h) ?_
      rw [WalState.replaying, WalState.replaying, hr]
  | rename m hadBackup =>
      have hold : s.replaying = tasksOf m.entries := by rw [WalState.replaying, hr]
      simp only [Wal.recoverStep, hr] at hs
      split at hs
      · cases hs
        exact h.reading (by rw [hr]; rfl) rfl rfl rfl rfl rfl rfl rfl (fun h => by cases h) hold.symm
      · cases hs
        exact h.reading (by rw [hr]; rfl) rfl rfl rfl rfl rfl rfl rfl (fun h => by cases h) hold.symm
  | removePrimary m =>
      have hold : s.replaying = tasksOf m.entries := by rw [WalState.replaying, hr]
      simp only [Wal.recoverStep, hr] at hs
      cases hs
      exact h.reading (by rw [hr]; rfl) rfl rfl rfl rfl rfl rfl rfl (fun h => by cases h) hold.symm
  | removeBackupLast =>
      simp only [Wal.recoverStep, hr] at hs
      cases hs
      refine h.reading (by rw [hr]; rfl) rfl rfl rfl rfl rfl rfl rfl (fun h => by cases h) ?_
      rw [WalState.replaying, WalState.replaying, hr]
  | done =>
      simp only [Wal.recoverStep, hr] at hs
      cases hs

/-- A worker that executes its statements keeps the outcome. -/
theorem Replaying.workStep {p : Nat} {w : Worker} (h : Replaying out ts s) (hw : s.workers[p]? = some w)
    (hs : workStep s p w .ok = some s') : Replaying out ts s' := by
  obtain ⟨hwf, hcases⟩ := workStep_cases hs
  have hf := hwf.frame
  have hrep : s'.replaying = s.replaying := by
    rw [WalState.replaying, WalState.replaying, hf.recover, hf.bak]
    cases hr : s.recover with
    | parsePrimary =>
        obtain ⟨ht, hd⟩ := h.idle hr w (List.mem_of_getElem? hw)
        obtain ⟨w', rfl, -⟩ := workStep_idle ht hd hs
        rfl
    | _ => rfl
  have hidle : s'.recover = .parsePrimary → ∀ x ∈ s'.workers, x.tasks = [] ∧ x.dones = [] := by
    intro hr x hx
    rw [hf.recover] at hr
    obtain ⟨ht, hd⟩ := h.idle hr w (List.mem_of_getElem? hw)
    obtain ⟨w', rfl, ht', hd'⟩ := workStep_idle ht hd hs
    rcases List.mem_or_eq_of_mem_set hx with hx | rfl
    · exact h.idle hr x hx
    · exact ⟨ht', hd'⟩
  have hbase : ∀ (hrt : Routed s'.workers) (hout : ∀ sid, s'.outcome sid = s.outcome sid),
      Replaying out ts s' := by
    intro hrt hout
    refine ⟨hf.up.trans h.up, hf.workers ▸ h.workers, hwf.calls.trans h.calls, ?_, ?_, hidle, hrt,
      hwf.enqueued.trans h.enqueued_eq, fun sid => (hout sid).trans (h.outcome sid)⟩
    · rw [hf.recover, hwf.mIsRunning]
      exact h.mIsRunning
    · rw [hf.recover]
      exact h.call
  rcases hcases with ⟨w', hws, ht, hdb⟩ | ⟨t, w', -, ht, -, rfl⟩
  · obtain ⟨hrt, htasks⟩ := tasksFor_move h.routed hw ht
    refine hbase (hws ▸ hrt) fun sid => outcome_congr hdb ?_
    rw [hws, htasks, hrep]
  · refine hbase (h.routed.pop hw ht) fun sid => ?_
    have hpop := updatesOf_tasksFor_pop h.routed hw ht sid
    rw [WalState.outcome, WalState.outcome, hrep]
    refine (dataAfter_execute s.db t _).trans (dataAfter_congr ?_ _)
    rw [← List.cons_append, updatesOf_append, updatesOf_append, hpop]
    rfl

/-- Every step of such a life keeps the outcome. -/
theorem Replaying.step {a : Act} (h : Replaying out ts s) (hok : replayOk s a = true)
    (hs : step s a = some s') : Replaying out ts s' := by
  cases a with
  | start n =>
      simp [Wal.step, h.up] at hs
  | recover b =>
      simp only [Wal.step, if_pos h.up] at hs
      exact h.recoverStep hs
  | takeId =>
      simp only [Wal.step, if_pos h.up] at hs
      cases hs
      exact ⟨h.up, h.workers, h.calls, h.mIsRunning, h.call, h.idle, h.routed, h.enqueued_eq, h.outcome⟩
  | enqueue t => cases hok
  | call i => simp [Wal.step, h.calls] at hs
  | work p answer =>
      have hans : answer = .ok := by simpa [replayOk] using hok
      subst hans
      simp only [Wal.step] at hs
      split at hs
      · cases hs
      next w hw => exact h.workStep hw hs
  | stop =>
      simp only [Wal.step] at hs
      split at hs
      next hcond =>
        cases hs
        have hdone : s.recover.isDone = true := (Bool.and_eq_true_iff.mp hcond).2
        exact ⟨h.up, h.workers, h.calls, (fun hno => by cases hdone.symm.trans hno), h.call, h.idle,
          h.routed, h.enqueued_eq, h.outcome⟩
      · cases hs
  | join =>
      simp only [Wal.step] at hs
      split at hs
      · cases hs
        exact ⟨h.up, h.workers, h.calls, h.mIsRunning, h.call, h.idle, h.routed, h.enqueued_eq, h.outcome⟩
      · cases hs
  | crash => cases hok

/-- At the start of a life everything is still in the files. -/
theorem replaying_startProcess {n : Nat} (hn : 0 < n) :
    Replaying (s.startProcess n).outcome s.enqueued (s.startProcess n) where
  up := rfl
  workers := by simpa [WalState.startProcess] using hn
  calls := rfl
  mIsRunning := fun _ => rfl
  call := fun _ h => by cases h
  idle := by
    intro _ w hw
    rw [List.eq_of_mem_replicate hw]
    exact ⟨rfl, rfl⟩
  routed := by
    intro p w hw t ht
    rw [List.eq_of_mem_replicate (List.mem_of_getElem? hw)] at ht
    cases ht
  enqueued_eq := rfl
  outcome := fun _ => rfl

theorem tasksFor_replicate (n : Nat) (sid : ConnectionId) :
    tasksFor (List.replicate n {}) sid = [] := by
  rw [tasksFor]
  cases hw : (List.replicate n ({} : Worker))[sid.toNat % (List.replicate n ({} : Worker)).length]? with
  | none => rfl
  | some w =>
      rw [List.eq_of_mem_replicate (List.mem_of_getElem? hw)]
      rfl

/-- When the replay is over, the outcome is in the database. -/
theorem Settled.players (h : Settled s) (sid : ConnectionId) : s.db.players sid = s.outcome sid := by
  have htasks : tasksFor s.workers sid = [] := by
    rw [tasksFor]
    cases hw : s.workers[sid.toNat % s.workers.length]? with
    | none => rfl
    | some w => exact h.2 w (List.mem_of_getElem? hw)
  have hrep : s.replaying = [] := by
    have hdone := h.1
    cases hr : s.recover with
    | done => rw [WalState.replaying, hr]
    | _ =>
        rw [hr] at hdone
        cases hdone
  rw [WalState.outcome, htasks, hrep]
  rfl

end

end NetworkModule.Wal
