import NetworkModule.DBServer.WorkerOrder

/-!
# The callbacks that a worker owes

A callback migrates: from the task queue to the pending queue of a session, from there
to the record of the request in flight, and out through a failed check, a failed send,
a response, a timeout or the drain.  `WorkerData.due` counts a callback wherever it is,
and once it was invoked.  Everything the worker does keeps the count
(`due_timeoutSession`, `due_handleResponse`), and a task that it is given adds its
callback to it (`due_processTask`).

The drain passes over the callback of an idle session, so an idle session must not
have one (`Idle`).
-/

namespace NetworkModule.DBServer

/-! ## Counting callbacks -/

/-- The callbacks that a session holds. -/
def SessionState.owed (ss : SessionState) : List Nat :=
  ss.callback.toList ++ ss.pending.filterMap (·.callback)

/-- The callbacks that the sessions hold. -/
def owedBy (m : Sessions) : List Nat := m.entries.flatMap fun e => e.2.owed

/-- How often the callback `c` was invoked or waits to be. -/
def WorkerData.due (w : WorkerData) (c : Nat) : Nat :=
  (w.invoked.map (·.uid)).count c + (owedBy w.sessions).count c +
    (w.taskQueue.filterMap (·.callback)).count c

/-- A session without a request in flight holds no callback of one. -/
def Idle (w : WorkerData) : Prop :=
  ∀ sid, (w.session sid).requestId = 0 → (w.session sid).callback = none

/-! ## The drain, in its parts -/

/-- The first loop of `ShutdownDrain`. -/
def WorkerData.drainSessions (w : WorkerData) : WorkerData :=
  { w with
    sessions := ∅
    invoked := w.invoked ++ (w.sessions.entries.flatMap fun e => e.2.drain).map fun uid =>
      ⟨uid, .shuttingDown, "Server shutting down"⟩ }

/-- The body of the second loop of `ShutdownDrain`, for the front `t` of the queue. -/
def WorkerData.drainTask (w : WorkerData) (t : DBServerTask) (rest : List DBServerTask) :
    WorkerData :=
  { w with taskQueue := rest }.invoke t.callback .shuttingDown "Server shutting down"

/-- The second loop of `ShutdownDrain`, if nobody else moves meanwhile. -/
def WorkerData.drainTasks (w : WorkerData) : List DBServerTask → WorkerData
  | [] => w
  | t :: rest => (w.drainTask t rest).drainTasks rest

theorem drainTasks_eq (w : WorkerData) (l : List DBServerTask) :
    { w with taskQueue := l }.drainTasks l = { w with
      taskQueue := []
      invoked := w.invoked ++ (l.filterMap (·.callback)).map fun uid =>
        ⟨uid, .shuttingDown, "Server shutting down"⟩ } := by
  induction l generalizing w with
  | nil => simp [WorkerData.drainTasks]
  | cons t rest ih =>
      rw [WorkerData.drainTasks]
      have hstep : { w with taskQueue := t :: rest }.drainTask t rest =
          { w.invoke t.callback .shuttingDown "Server shutting down" with taskQueue := rest } := rfl
      rw [hstep, ih]
      cases ht : t.callback <;> simp [WorkerData.invoke, ht]

/-- The parts make up `ShutdownDrain`. -/
theorem shutdownDrain_eq (w : WorkerData) :
    w.shutdownDrain = { w.drainSessions.drainTasks w.taskQueue with responseQueue := [] } := by
  have h := drainTasks_eq w.drainSessions w.taskQueue
  have hself : { w.drainSessions with taskQueue := w.taskQueue } = w.drainSessions := rfl
  rw [hself] at h
  rw [h]
  simp [WorkerData.shutdownDrain, WorkerData.drainSessions]

/-! ## What the operations do to the count -/

section
variable {w : WorkerData} {now : Nat} {sendOk : Bool}

/-- One session and the others. -/
theorem count_owedBy (m : Sessions) (sid : ConnectionId) (c : Nat) :
    (owedBy m).count c =
      ((m.lookup sid).getD {}).owed.count c + (owedBy (m.erase sid)).count c := by
  by_cases hsid : sid ∈ m
  · obtain ⟨ss, l₁, l₂, -, hentries, herase⟩ := List.exists_of_kerase (AList.mem_keys.mp hsid)
    have hlookup : m.lookup sid = some ss :=
      AList.mem_lookup_iff.mpr (by rw [hentries]; simp)
    have herase' : (m.erase sid).entries = l₁ ++ l₂ := herase
    rw [owedBy, owedBy, herase', hentries, hlookup]
    simp only [List.flatMap_append, List.flatMap_cons, List.count_append, Option.getD_some]
    omega
  · have hlookup : m.lookup sid = none := AList.lookup_eq_none.mpr hsid
    have herase : (m.erase sid).entries = m.entries := List.kerase_of_notMem_keys hsid
    rw [owedBy, owedBy, herase, hlookup]
    simp [SessionState.owed]

@[simp] theorem due_invoke (cb : Option Nat) (r : ResultCode) (d : String) (c : Nat) :
    (w.invoke cb r d).due c = w.due c + cb.toList.count c := by
  simp only [WorkerData.due, WorkerData.invoke, List.map_append, List.count_append]
  cases cb with
  | none => simp
  | some uid =>
      simp only [Option.map_some, Option.toList_some, List.map_cons, List.map_nil]
      omega

/-- The callbacks that a session held leave the count, and those that it gets enter it. -/
theorem due_setSession (sid : ConnectionId) (ss : SessionState) (c : Nat) :
    (w.setSession sid ss).due c + (w.session sid).owed.count c = w.due c + ss.owed.count c := by
  have hnew : owedBy (w.sessions.insert sid ss) = ss.owed ++ owedBy (w.sessions.erase sid) := rfl
  simp only [WorkerData.due, WorkerData.setSession, WorkerData.session, hnew, List.count_append,
    count_owedBy w.sessions sid c]
  omega

theorem due_eraseSession (sid : ConnectionId) (c : Nat) :
    (w.eraseSession sid).due c + (w.session sid).owed.count c = w.due c := by
  simp only [WorkerData.due, WorkerData.eraseSession, WorkerData.session,
    count_owedBy w.sessions sid c]
  omega

/-- A change of one session to an idle one without a callback. -/
theorem Idle.setSession (h : Idle w) {sid : ConnectionId} {ss : SessionState}
    (hss : ss.requestId = 0 → ss.callback = none) : Idle (w.setSession sid ss) := by
  intro k hk
  by_cases hsid : k = sid
  · subst hsid
    rw [session_setSession_self] at hk ⊢
    exact hss hk
  · rw [session_setSession_of_ne _ _ _ hsid] at hk ⊢
    exact h k hk

theorem Idle.eraseSession (h : Idle w) (sid : ConnectionId) : Idle (w.eraseSession sid) := by
  intro k hk
  by_cases hsid : k = sid
  · subst hsid
    rw [session_eraseSession_self]
  · rw [session_eraseSession_of_ne _ _ hsid] at hk ⊢
    exact h k hk

theorem idle_storeRequest (h : Idle w) (t : DBServerTask) : Idle (w.storeRequest now t) := by
  refine Idle.setSession h ?_
  exact fun hz => absurd hz (nextId_ne_zero _)

/-- A request in flight holds the callback of its task. -/
theorem due_storeRequest (t : DBServerTask) (hidle : (w.session t.sessionId).callback = none)
    (c : Nat) : (w.storeRequest now t).due c = w.due c + t.callback.toList.count c := by
  have hset : (w.storeRequest now t).due c + (w.session t.sessionId).owed.count c =
      w.due c + (SessionState.mk w.keyGen.nextId t.callback (w.session t.sessionId).pending
        (now + kRequestTimeoutMs)).owed.count c :=
    due_setSession (w := w) t.sessionId ⟨w.keyGen.nextId, t.callback,
      (w.session t.sessionId).pending, now + kRequestTimeoutMs⟩ c
  simp only [SessionState.owed, hidle, Option.toList_none, List.nil_append,
    List.count_append] at hset
  omega

theorem Idle.sendFailed (h : Idle w) (t : DBServerTask) : Idle (w.sendFailed t) := by
  simp only [WorkerData.sendFailed]
  split
  · exact h.eraseSession t.sessionId
  · exact h.setSession fun _ => rfl

theorem due_sendFailed (t : DBServerTask) (c : Nat) : (w.sendFailed t).due c = w.due c := by
  simp only [WorkerData.sendFailed]
  split
  next hp =>
    have herase := due_eraseSession (w := w) t.sessionId c
    have hpend := List.isEmpty_iff.mp hp
    simp only [SessionState.owed, hpend, List.filterMap_nil, List.append_nil] at herase
    rw [due_invoke]
    omega
  next hp =>
    have hset := due_setSession (w := w) t.sessionId
      { w.session t.sessionId with requestId := 0, callback := none } c
    simp only [SessionState.owed, Option.toList_none, List.nil_append, List.count_append] at hset
    rw [due_invoke]
    omega

/-- `ProcessTask` takes on the callback of its task. -/
theorem due_processTask (h : Idle w) (t : DBServerTask) (c : Nat) :
    (w.processTask now sendOk t).due c = w.due c + t.callback.toList.count c := by
  simp only [WorkerData.processTask]
  split
  next hbusy =>
    have hset := due_setSession (w := w) t.sessionId
      { w.session t.sessionId with pending := (w.session t.sessionId).pending ++ [t] } c
    simp only [SessionState.owed, List.filterMap_append, List.count_append] at hset
    have hone : ([t].filterMap (·.callback)).count c = t.callback.toList.count c := by
      cases ht : t.callback <;> simp [ht]
    omega
  next hbusy =>
    have hcb := h t.sessionId (not_not.mp hbusy)
    split
    next hck =>
      have hstore : (w.storeRequest now t).due c = _ := due_storeRequest t hcb c
      simp only [WorkerData.sendTask]
      split
      · exact hstore
      · rw [due_sendFailed, hstore]
    next hck =>
      rw [due_invoke]
      split
      next hp =>
        have herase := due_eraseSession (w := w) t.sessionId c
        simp only [SessionState.owed, hcb, List.isEmpty_iff.mp hp, List.filterMap_nil,
          Option.toList_none, List.append_nil, List.count_nil] at herase
        omega
      · rfl

theorem Idle.processTask (h : Idle w) (t : DBServerTask) : Idle (w.processTask now sendOk t) := by
  simp only [WorkerData.processTask]
  split
  · exact h.setSession fun hz => h t.sessionId hz
  · split
    · have hstore : Idle (w.storeRequest now t) := idle_storeRequest h t
      simp only [WorkerData.sendTask]
      split
      · exact hstore
      · exact hstore.sendFailed t
    · split
      · exact h.eraseSession t.sessionId
      · exact h

/-- Ending a request moves its callback out, and takes on the next task. -/
theorem due_resolve (h : Idle w) (sid : ConnectionId) (r : ResultCode) (d : String) (c : Nat) :
    (w.resolve now sendOk sid (w.session sid) r d).due c = w.due c := by
  simp only [WorkerData.resolve]
  split
  next hp =>
    have herase := due_eraseSession (w := w.invoke (w.session sid).callback r d) sid c
    simp only [session_invoke, SessionState.owed, hp, List.filterMap_nil, List.append_nil,
      due_invoke] at herase
    omega
  next t rest hp =>
    have hidle : Idle ((w.invoke (w.session sid).callback r d).setSession sid
        ⟨0, none, rest, (w.session sid).inflightDeadline⟩) :=
      Idle.setSession (w := w.invoke _ r d) h fun _ => rfl
    have hset := due_setSession (w := w.invoke (w.session sid).callback r d) sid
      ⟨0, none, rest, (w.session sid).inflightDeadline⟩ c
    have hone : ((t :: rest).filterMap (·.callback)).count c =
        t.callback.toList.count c + (rest.filterMap (·.callback)).count c := by
      cases ht : t.callback <;> simp [ht, List.count_cons, Nat.add_comm]
    simp only [session_invoke, SessionState.owed, hp, hone, due_invoke, Option.toList_none,
      List.nil_append, List.count_append] at hset
    refine (due_processTask hidle t c).trans ?_
    omega

theorem Idle.resolve (h : Idle w) (sid : ConnectionId) (ss : SessionState) (r : ResultCode)
    (d : String) : Idle (w.resolve now sendOk sid ss r d) := by
  simp only [WorkerData.resolve]
  split
  · exact Idle.eraseSession (w := w.invoke _ r d) h sid
  · exact (Idle.setSession (w := w.invoke _ r d) h fun _ => rfl).processTask _

theorem due_handleResponse (h : Idle w) (resp : DBResponseEvent) (c : Nat) :
    (w.handleResponse now sendOk resp).due c = w.due c := by
  simp only [WorkerData.handleResponse]
  split
  · rfl
  next sid ss hf =>
    obtain ⟨rfl, -⟩ := session_of_find hf
    refine (due_resolve ?_ sid _ _ c).trans rfl
    exact h

theorem Idle.handleResponse (h : Idle w) (resp : DBResponseEvent) :
    Idle (w.handleResponse now sendOk resp) := by
  simp only [WorkerData.handleResponse]
  split
  · exact h
  · refine Idle.resolve ?_ _ _ _ _
    exact h

theorem due_timeoutSession (h : Idle w) (sid : ConnectionId) (c : Nat) :
    (w.timeoutSession now sendOk sid).due c = w.due c := by
  simp only [WorkerData.timeoutSession]
  split
  · rfl
  next ss hl =>
    split
    · rfl
    · have hss : w.session sid = ss := by rw [WorkerData.session, hl]; rfl
      subst hss
      refine (due_resolve ?_ sid _ _ c).trans rfl
      exact h

theorem Idle.timeoutSession (h : Idle w) (sid : ConnectionId) :
    Idle (w.timeoutSession now sendOk sid) := by
  simp only [WorkerData.timeoutSession]
  split
  · exact h
  · split
    · exact h
    · refine Idle.resolve ?_ _ _ _ _
      exact h

/-- The drain invokes what an idle worker's sessions hold. -/
theorem due_drainSessions (h : Idle w) (c : Nat) : w.drainSessions.due c = w.due c := by
  have hsame : ∀ e ∈ w.sessions.entries, e.2.drain = e.2.owed := by
    rintro ⟨sid, ss⟩ he
    have hss : w.session sid = ss := by
      rw [WorkerData.session, AList.mem_lookup_iff.mpr he]
      rfl
    by_cases hz : ss.requestId = 0
    · have hcb := h sid (by rw [hss]; exact hz)
      rw [hss] at hcb
      simp [SessionState.drain, SessionState.owed, hz, hcb]
    · simp [SessionState.drain, SessionState.owed, hz]
  have hdrain : (w.sessions.entries.flatMap fun e => e.2.drain) = owedBy w.sessions :=
    List.flatMap_congr hsame
  have hempty : owedBy (∅ : Sessions) = [] := rfl
  have huids : ∀ l : List Nat, (l.map fun uid =>
      Invoked.mk uid .shuttingDown "Server shutting down").map (·.uid) = l := fun l => by
    simp [List.map_map, Function.comp_def]
  simp only [WorkerData.due, WorkerData.drainSessions, hdrain, hempty, List.map_append,
    List.count_append, huids, List.count_nil]
  omega

theorem due_drainTask {t : DBServerTask} {rest : List DBServerTask} (hq : w.taskQueue = t :: rest)
    (c : Nat) : (w.drainTask t rest).due c = w.due c := by
  rw [WorkerData.drainTask, due_invoke]
  simp only [WorkerData.due, hq]
  cases ht : t.callback <;> simp [ht, List.count_cons]
  omega

/-- A task that is taken from the queue leaves the count until it is processed. -/
theorem due_takeTask {t : DBServerTask} {rest : List DBServerTask} (hq : w.taskQueue = t :: rest)
    (c : Nat) : { w with taskQueue := rest }.due c + t.callback.toList.count c = w.due c := by
  simp only [WorkerData.due, hq]
  cases ht : t.callback <;> simp [ht, List.count_cons]
  omega

/-- Changing the order of iteration changes nothing. -/
theorem due_rehash {m : Sessions} (hm : m.entries.Perm w.sessions.entries) (c : Nat) :
    { w with sessions := m }.due c = w.due c := by
  have hcount : (owedBy m).count c = (owedBy w.sessions).count c :=
    (hm.flatMap_right _).count_eq c
  simp only [WorkerData.due, hcount]

theorem Idle.rehash (h : Idle w) {m : Sessions} (hm : m.entries.Perm w.sessions.entries) :
    Idle { w with sessions := m } := by
  intro sid
  rw [session_rehash hm]
  exact h sid

end

end NetworkModule.DBServer
