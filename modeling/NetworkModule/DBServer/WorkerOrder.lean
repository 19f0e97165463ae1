import NetworkModule.DBServer.Worker

/-!
# The order of a session's requests

A worker with its environment: tasks and responses arrive at any time, the clock
moves, and the thread takes its steps.  `Ordered` states what the queue promises
for each session: its requests go to `mSendFunc` in the order their tasks were
enqueued, and at most one of them is in flight.

The second half holds in every run.  The first half can fail, because
`ProcessTask` does not look at `pending` when the session is idle.  If a pending
task fails its check or cannot be sent, then the session is left idle with the
rest of its tasks pending, and a task that is taken from `taskQueue` next goes
first.  `ordered_of_noOvertaking` says that nothing else breaks the order.
-/

namespace NetworkModule.DBServer

/-! ## A worker and its environment -/

/-- A worker, its thread and its environment. -/
structure WorkerRun where
  worker : WorkerData
  pc : WorkerPc := .wait
  mIsRunning : Bool := true
  /-- The steady clock, in milliseconds. -/
  clock : Nat := 0
  /-- The number of the next task. -/
  nextUid : Nat := 0

/-- A worker with the index `idx` that has seen no task. -/
def WorkerRun.init (idx : Nat) : WorkerRun := { worker := .make idx }

/-- Who moves. -/
inductive WorkerAct where
  /-- `EnqueueTask` pushes a task, which gets the next number. -/
  | enqueue (t : DBServerTask)
  /-- `OnDBResponse` pushes a response. -/
  | respond (resp : DBResponseEvent)
  /-- The clock moves forward by `ms`. -/
  | tick (ms : Nat)
  /-- `Shutdown` clears `mIsRunning`. -/
  | stop
  /-- The map of sessions changes its order of iteration. -/
  | rehash (m : Sessions)
  /-- The thread takes its next step. -/
  | work (sendOk : Bool)

/-- One step of a worker and its environment. -/
def runStep (s : WorkerRun) : WorkerAct → Option WorkerRun
  | .enqueue t =>
      if s.mIsRunning then
        some { s with
          worker := { s.worker with taskQueue := s.worker.taskQueue ++ [{ t with uid := s.nextUid }] }
          nextUid := s.nextUid + 1 }
      else none
  | .respond resp =>
      some { s with worker := { s.worker with responseQueue := s.worker.responseQueue ++ [resp] } }
  | .tick ms => some { s with clock := s.clock + ms }
  | .stop => some { s with mIsRunning := false }
  | .rehash m =>
      if m.entries.Perm s.worker.sessions.entries then
        some { s with worker := { s.worker with sessions := m } }
      else none
  | .work sendOk =>
      (workerStep s.mIsRunning s.clock sendOk s.worker s.pc).map fun x =>
        { s with worker := x.1, pc := x.2 }

/-! ## The promise -/

/-- The tasks of a session whose requests went to `mSendFunc`, in that order. -/
def WorkerData.sentOf (w : WorkerData) (sid : ConnectionId) : List Nat :=
  (w.sends.filter (·.sessionId = sid)).map (·.uid)

/-- What the worker promises for each session. -/
structure Ordered (w : WorkerData) : Prop where
  /-- Requests are sent in the order their tasks were enqueued. -/
  inOrder : ∀ sid, (w.sentOf sid).Pairwise (· < ·)
  /-- At most one request of a session is in flight. -/
  oneInFlight : ∀ sid, (w.outstanding.filter (·.1 = sid)).length ≤ 1

/-- A task that passes its checks is taken from `taskQueue` only if its session has
a request in flight or nothing pending. -/
def noOvertaking (s : WorkerRun) (a : WorkerAct) : Bool :=
  match a, s.pc, s.worker.taskQueue with
  | .work _, .tasks, t :: _ =>
      !s.mIsRunning || !checkPassed t || (s.worker.session t.sessionId).requestId ≠ 0 ||
        (s.worker.session t.sessionId).pending.isEmpty
  | _, _, _ => true

/-! ## Sessions of a worker -/

section
variable (w : WorkerData) (sid : ConnectionId) (ss : SessionState) (cb : Option Nat)
  (r : ResultCode) (d : String)

@[simp] theorem session_setSession_self : (w.setSession sid ss).session sid = ss := by
  simp [WorkerData.session, WorkerData.setSession]

@[simp] theorem session_setSession_of_ne {k : ConnectionId} (h : k ≠ sid) :
    (w.setSession sid ss).session k = w.session k := by
  simp [WorkerData.session, WorkerData.setSession, AList.lookup_insert_ne h]

@[simp] theorem session_eraseSession_self : (w.eraseSession sid).session sid = {} := by
  simp [WorkerData.session, WorkerData.eraseSession]

@[simp] theorem session_eraseSession_of_ne {k : ConnectionId} (h : k ≠ sid) :
    (w.eraseSession sid).session k = w.session k := by
  simp [WorkerData.session, WorkerData.eraseSession, AList.lookup_erase_ne h]

@[simp] theorem session_invoke {k : ConnectionId} : (w.invoke cb r d).session k = w.session k := rfl

end

/-! ## At most one request in flight -/

/-- What holds of the outstanding requests and the pending tasks. -/
structure Flights (w : WorkerData) : Prop where
  /-- An outstanding request is the one its session has in flight. -/
  own : ∀ o ∈ w.outstanding, (w.session o.1).requestId = o.2
  nonzero : ∀ o ∈ w.outstanding, o.2 ≠ 0
  nodup : (w.outstanding.map Prod.fst).Nodup
  /-- A session's pending tasks are its own. -/
  pending : ∀ sid, ∀ t ∈ (w.session sid).pending, t.sessionId = sid

section
variable {w : WorkerData} {now : Nat} {sendOk : Bool}

/-- A session without an outstanding request may be changed freely, as long as its
pending tasks are its own. -/
theorem Flights.change (h : Flights w) {w' : WorkerData} {sid : ConnectionId}
    (hout : w'.outstanding = w.outstanding) (hne : ∀ k, k ≠ sid → w'.session k = w.session k)
    (hidle : ∀ o ∈ w.outstanding, o.1 ≠ sid)
    (hp : ∀ t ∈ (w'.session sid).pending, t.sessionId = sid) : Flights w' where
  own := by
    intro o ho
    rw [hout] at ho
    rw [hne o.1 (hidle o ho)]
    exact h.own o ho
  nonzero := fun o ho => h.nonzero o (hout ▸ ho)
  nodup := hout ▸ h.nodup
  pending := by
    intro k t ht
    by_cases hk : k = sid
    · subst hk
      exact hp t ht
    · rw [hne k hk] at ht
      exact h.pending k t ht

/-- An idle session has no outstanding request. -/
theorem Flights.idle (h : Flights w) {sid : ConnectionId} (hidle : (w.session sid).requestId = 0) :
    ∀ o ∈ w.outstanding, o.1 ≠ sid := by
  intro o ho he
  have := h.own o ho
  rw [he, hidle] at this
  exact h.nonzero o ho this.symm

theorem nextId_ne_zero (g : KeyGenerator) : g.nextId ≠ 0 := by
  simp only [KeyGenerator.nextId]
  split
  · simp
  next hne => simp [hne]

/-- What sending the task `t` does to a worker. -/
structure Sent (w : WorkerData) (sendOk : Bool) (t : DBServerTask) (w' : WorkerData) : Prop where
  other : ∀ k, k ≠ t.sessionId → w'.session k = w.session k
  pending : (w'.session t.sessionId).pending = (w.session t.sessionId).pending
  sends : w'.sends = w.sends ++ [⟨buildPacket w.keyGen.nextId t, t.sessionId, t.uid⟩]
  taskQueue : w'.taskQueue = w.taskQueue
  /-- The request is in flight and outstanding, or the session is idle. -/
  flight : if sendOk then
      w'.outstanding = w.outstanding ++ [(t.sessionId, w.keyGen.nextId)] ∧
        (w'.session t.sessionId).requestId = w.keyGen.nextId
    else w'.outstanding = w.outstanding ∧ (w'.session t.sessionId).requestId = 0

theorem session_storeRequest_self (w : WorkerData) (now : Nat) (t : DBServerTask) :
    ((w.storeRequest now t).session t.sessionId).pending = (w.session t.sessionId).pending ∧
      ((w.storeRequest now t).session t.sessionId).requestId = w.keyGen.nextId := by
  have hself : (w.storeRequest now t).session t.sessionId = _ := session_setSession_self w _ _
  rw [hself]
  exact ⟨rfl, rfl⟩

theorem session_storeRequest_of_ne (w : WorkerData) (now : Nat) (t : DBServerTask)
    {k : ConnectionId} (h : k ≠ t.sessionId) : (w.storeRequest now t).session k = w.session k :=
  session_setSession_of_ne w _ _ h

/-- A failed send leaves the session idle, with its pending tasks. -/
theorem sendFailed_session (w : WorkerData) (t : DBServerTask) :
    ((w.sendFailed t).session t.sessionId).pending = (w.session t.sessionId).pending ∧
      ((w.sendFailed t).session t.sessionId).requestId = 0 ∧
      ∀ k, k ≠ t.sessionId → (w.sendFailed t).session k = w.session k := by
  simp only [WorkerData.sendFailed, session_invoke]
  split
  next hp =>
    refine ⟨?_, ?_, fun k hk => session_eraseSession_of_ne w _ hk⟩
    · rw [session_eraseSession_self, List.isEmpty_iff.mp hp]
    · rw [session_eraseSession_self]
  next => exact ⟨by simp, by simp, fun k hk => session_setSession_of_ne w _ _ hk⟩

/-- A failed send touches nothing but the session and the callbacks. -/
theorem sendFailed_frame (w : WorkerData) (t : DBServerTask) :
    (w.sendFailed t).sends = w.sends ∧ (w.sendFailed t).taskQueue = w.taskQueue ∧
      (w.sendFailed t).outstanding = w.outstanding := by
  simp only [WorkerData.sendFailed]
  split <;> exact ⟨rfl, rfl, rfl⟩

theorem sendTask_sent (w : WorkerData) (now : Nat) (sendOk : Bool) (t : DBServerTask) :
    Sent w sendOk t (w.sendTask now sendOk t) := by
  obtain ⟨hself, hid⟩ := session_storeRequest_self w now t
  cases sendOk with
  | true =>
      exact ⟨fun k hk => session_storeRequest_of_ne w now t hk, hself, rfl, rfl, rfl, hid⟩
  | false =>
      obtain ⟨hp, hr, hne⟩ := sendFailed_session (w.storeRequest now t) t
      obtain ⟨hs, hq, ho⟩ := sendFailed_frame (w.storeRequest now t) t
      exact ⟨fun k hk => (hne k hk).trans (session_storeRequest_of_ne w now t hk),
        hp.trans hself, hs, hq, ho, hr⟩

/-- Sending the task of an idle session puts one request in flight, or none. -/
theorem Flights.sendTask (h : Flights w) {t : DBServerTask}
    (hidle : (w.session t.sessionId).requestId = 0) : Flights (w.sendTask now sendOk t) := by
  have hsent := sendTask_sent w now sendOk t
  have hnone := h.idle hidle
  have hpend : ∀ x ∈ ((w.sendTask now sendOk t).session t.sessionId).pending,
      x.sessionId = t.sessionId := by
    rw [hsent.pending]
    exact h.pending t.sessionId
  have hflight := hsent.flight
  cases sendOk with
  | false => exact h.change hflight.1 hsent.other hnone hpend
  | true =>
      -- Without the new request, the session was changed freely.
      have hold : Flights { w.sendTask now true t with outstanding := w.outstanding } :=
        h.change rfl hsent.other hnone hpend
      have hout := hflight.1
      refine ⟨?_, ?_, ?_, hold.pending⟩
      · intro o ho
        rw [hout] at ho
        rcases List.mem_append.mp ho with ho | ho
        · exact hold.own o ho
        · rw [List.mem_singleton.mp ho]
          exact hflight.2
      · intro o ho
        rw [hout] at ho
        rcases List.mem_append.mp ho with ho | ho
        · exact h.nonzero o ho
        · rw [List.mem_singleton.mp ho]
          exact nextId_ne_zero _
      · rw [hout, List.map_append]
        refine List.nodup_append.mpr ⟨h.nodup, by simp, fun k hk l hl => ?_⟩
        obtain ⟨o, ho, rfl⟩ := List.mem_map.mp hk
        simp only [List.map_cons, List.map_nil, List.mem_singleton] at hl
        rw [hl]
        exact hnone o ho

/-- `ProcessTask` keeps at most one request of each session in flight. -/
theorem Flights.processTask (h : Flights w) (t : DBServerTask) :
    Flights (w.processTask now sendOk t) := by
  simp only [WorkerData.processTask]
  split
  next hbusy =>
    -- The session is busy, and only its pending tasks change.
    refine ⟨fun o ho => ?_, h.nonzero, h.nodup, fun k x hx => ?_⟩
    · by_cases hk : o.1 = t.sessionId
      · rw [hk, session_setSession_self, ← hk]
        exact h.own o ho
      · rw [session_setSession_of_ne _ _ _ hk]
        exact h.own o ho
    · by_cases hk : k = t.sessionId
      · subst hk
        rw [session_setSession_self] at hx
        rcases List.mem_append.mp hx with hx | hx
        · exact h.pending _ x hx
        · rw [List.mem_singleton.mp hx]
      · rw [session_setSession_of_ne _ _ _ hk] at hx
        exact h.pending k x hx
  next hidle =>
    have hidle' : (w.session t.sessionId).requestId = 0 := by simpa using hidle
    split
    · exact h.sendTask hidle'
    · split
      next hp =>
        exact h.change rfl (fun k hk => session_eraseSession_of_ne w _ hk)
          (h.idle hidle') (by simp)
      next => exact ⟨h.own, h.nonzero, h.nodup, h.pending⟩

/-- Ending the request of a session, once it is no longer outstanding, keeps at
most one request of each session in flight. -/
theorem Flights.resolve (h : Flights w) {sid : ConnectionId} {r : ResultCode} {d : String}
    (hnone : ∀ o ∈ w.outstanding, o.1 ≠ sid) :
    Flights (w.resolve now sendOk sid (w.session sid) r d) := by
  simp only [WorkerData.resolve]
  split
  next hp =>
    exact h.change rfl (fun k hk => session_eraseSession_of_ne (w.invoke _ r d) _ hk) hnone
      (by simp)
  next t rest hp =>
    have hset : Flights ((w.invoke (w.session sid).callback r d).setSession sid
        { w.session sid with requestId := 0, callback := none, pending := rest }) := by
      refine h.change rfl (fun k hk => session_setSession_of_ne (w.invoke _ r d) _ _ hk) hnone ?_
      intro x hx
      rw [session_setSession_self] at hx
      exact h.pending sid x (by rw [hp]; exact List.mem_cons_of_mem _ hx)
    exact hset.processTask t

/-- The session that `HandleResponse` finds. -/
theorem session_of_find {w : WorkerData} {id : UInt64} {sid : ConnectionId} {ss : SessionState}
    (hf : w.sessions.entries.find? (fun e => e.2.requestId = id) = some ⟨sid, ss⟩) :
    w.session sid = ss ∧ ss.requestId = id := by
  have hmem : ⟨sid, ss⟩ ∈ w.sessions.entries := List.mem_of_find?_eq_some hf
  have hid : ss.requestId = id := by simpa using List.find?_some hf
  have hlook : w.sessions.lookup sid = some ss := AList.mem_lookup_iff.mpr hmem
  refine ⟨?_, hid⟩
  rw [WorkerData.session, hlook]
  rfl

/-- Forgetting outstanding requests. -/
theorem Flights.forget (h : Flights w) (p : ConnectionId × UInt64 → Bool)
    (c : List (UInt64 × Nat)) :
    Flights { w with outstanding := w.outstanding.filter p, completed := c } where
  own := fun o ho => h.own o (List.mem_of_mem_filter ho)
  nonzero := fun o ho => h.nonzero o (List.mem_of_mem_filter ho)
  nodup := h.nodup.sublist (List.filter_sublist.map _)
  pending := h.pending

theorem Flights.handleResponse (h : Flights w) (resp : DBResponseEvent) :
    Flights (w.handleResponse now sendOk resp) := by
  simp only [WorkerData.handleResponse]
  split
  · exact h
  next sid ss hf =>
    obtain ⟨hss, hid⟩ := session_of_find hf
    subst hss
    refine Flights.resolve (h.forget (fun o => o.2 ≠ resp.requestId) _) fun o ho he => ?_
    obtain ⟨hmem, hne⟩ := List.mem_filter.mp ho
    have hown := h.own o hmem
    rw [he] at hown
    exact absurd (hown.symm.trans hid) (by simpa using hne)

theorem Flights.timeoutSession (h : Flights w) (sid : ConnectionId) :
    Flights (w.timeoutSession now sendOk sid) := by
  simp only [WorkerData.timeoutSession]
  split
  · exact h
  next ss hl =>
    split
    · exact h
    next hbusy =>
      have hss : w.session sid = ss := by rw [WorkerData.session, hl]; rfl
      subst hss
      refine Flights.resolve (h.forget (fun o => o ≠ (sid, (w.session sid).requestId)) w.completed)
        fun o ho he => ?_
      obtain ⟨hmem, hne⟩ := List.mem_filter.mp ho
      have hown := h.own o hmem
      rw [he] at hown
      exact absurd (Prod.ext he hown.symm) (by simpa using hne)

/-- Every step of the thread keeps at most one request of each session in flight. -/
theorem Flights.step (h : Flights w) {running : Bool} {pc : WorkerPc} {x : WorkerData × WorkerPc}
    (hs : workerStep running now sendOk w pc = some x) : Flights x.1 := by
  cases pc with
  | wait => cases hs; exact h
  | timeouts ids =>
      cases ids with
      | nil => cases hs; exact h
      | cons id ids => cases hs; exact h.timeoutSession id
  | responses =>
      simp only [workerStep] at hs
      split at hs
      · cases hs; exact h
      next resp rest _ =>
        cases hs
        have h' : Flights { w with responseQueue := rest } :=
          ⟨h.own, h.nonzero, h.nodup, h.pending⟩
        exact h'.handleResponse resp
  | tasks =>
      simp only [workerStep] at hs
      split at hs
      · cases hs; exact h
      · split at hs
        · cases hs; exact h
        next t rest _ =>
          cases hs
          have h' : Flights { w with taskQueue := rest } :=
            ⟨h.own, h.nonzero, h.nodup, h.pending⟩
          exact h'.processTask t
  | stopped => cases hs

/-- At most one outstanding request of a session, from the absence of duplicates. -/
theorem Flights.oneInFlight (h : Flights w) (sid : ConnectionId) :
    (w.outstanding.filter (·.1 = sid)).length ≤ 1 := by
  have hnodup : ((w.outstanding.filter (·.1 = sid)).map Prod.fst).Nodup :=
    h.nodup.sublist (List.filter_sublist.map _)
  have hall : ∀ k ∈ (w.outstanding.filter (·.1 = sid)).map Prod.fst, k = sid := by
    intro k hk
    obtain ⟨o, ho, rfl⟩ := List.mem_map.mp hk
    simpa using (List.mem_filter.mp ho).2
  have hrep := List.eq_replicate_of_mem hall
  rw [hrep, List.nodup_replicate, List.length_map] at hnodup
  exact hnodup

/-! ## The line of a session -/

/-- The tasks of a session that wait in `pending`. -/
def WorkerData.pendingOf (w : WorkerData) (sid : ConnectionId) : List Nat :=
  (w.session sid).pending.map (·.uid)

/-- The tasks of a session that wait in `taskQueue`. -/
def WorkerData.queuedOf (w : WorkerData) (sid : ConnectionId) : List Nat :=
  (w.taskQueue.filter (·.sessionId = sid)).map (·.uid)

/-- The tasks of a session in the order in which they were or will be sent. -/
def WorkerData.line (w : WorkerData) (sid : ConnectionId) : List Nat :=
  w.sentOf sid ++ (w.pendingOf sid ++ w.queuedOf sid)

/-- Every line is in the order of enqueueing, and the next task comes after it. -/
def InLine (n : Nat) (w : WorkerData) : Prop :=
  ∀ sid, (w.line sid ++ [n]).Pairwise (· < ·)

/-- Tasks may leave a line. -/
theorem InLine.mono {n : Nat} {w' : WorkerData} (h : InLine n w)
    (hsub : ∀ sid, (w'.line sid).Sublist (w.line sid)) : InLine n w' :=
  fun sid => (h sid).sublist ((hsub sid).append_right _)

theorem line_congr {w' : WorkerData} {sid : ConnectionId} (hs : w'.sends = w.sends)
    (hp : (w'.session sid).pending = (w.session sid).pending) (hq : w'.taskQueue = w.taskQueue) :
    w'.line sid = w.line sid := by
  simp only [WorkerData.line, WorkerData.sentOf, WorkerData.pendingOf, WorkerData.queuedOf, hs, hp,
    hq]

/-- After sending, the task stands behind those that were sent before it. -/
theorem Sent.line {t : DBServerTask} {w' : WorkerData} (h : Sent w sendOk t w')
    (sid : ConnectionId) :
    w'.line sid = if sid = t.sessionId then
        w.sentOf sid ++ t.uid :: (w.pendingOf sid ++ w.queuedOf sid)
      else w.line sid := by
  split
  next hsid =>
    subst hsid
    simp [WorkerData.line, WorkerData.sentOf, WorkerData.pendingOf, WorkerData.queuedOf, h.sends,
      h.pending, h.taskQueue]
  next hsid =>
    simp [WorkerData.line, WorkerData.sentOf, WorkerData.pendingOf, WorkerData.queuedOf, h.sends,
      h.other sid hsid, h.taskQueue, Ne.symm hsid]

/-- `ProcessTask` puts the task behind the pending ones if the session is busy, and
before them if it sends the task. -/
theorem processTask_line (w : WorkerData) (t : DBServerTask) (sid : ConnectionId) :
    (w.processTask now sendOk t).line sid =
      if sid = t.sessionId then
        if (w.session sid).requestId ≠ 0 then
          w.sentOf sid ++ (w.pendingOf sid ++ t.uid :: w.queuedOf sid)
        else if checkPassed t then
          w.sentOf sid ++ t.uid :: (w.pendingOf sid ++ w.queuedOf sid)
        else w.line sid
      else w.line sid := by
  by_cases hsid : sid = t.sessionId
  · subst hsid
    simp only [WorkerData.processTask, if_true]
    split
    next hbusy =>
      simp [WorkerData.line, WorkerData.sentOf, WorkerData.pendingOf, WorkerData.queuedOf,
        WorkerData.setSession, WorkerData.session]
    next hidle =>
      split
      · rw [(sendTask_sent w now sendOk t).line, if_pos rfl]
      · split
        next hp =>
          refine line_congr rfl ?_ rfl
          rw [session_invoke, session_eraseSession_self, List.isEmpty_iff.mp hp]
        next => exact line_congr rfl rfl rfl
  · simp only [WorkerData.processTask, if_neg hsid]
    split
    · exact line_congr rfl (by rw [session_setSession_of_ne _ _ _ hsid]) rfl
    · split
      · rw [(sendTask_sent w now sendOk t).line, if_neg hsid]
      · split
        · exact line_congr rfl (by rw [session_invoke, session_eraseSession_of_ne _ _ hsid]) rfl
        · exact line_congr rfl rfl rfl

/-- A task that is taken from `taskQueue` keeps its place, if it does not overtake
the pending ones. -/
theorem processTask_line_sublist {t : DBServerTask} {rest : List DBServerTask}
    (hq : w.taskQueue = t :: rest)
    (hok : checkPassed t = true → (w.session t.sessionId).requestId = 0 →
      (w.session t.sessionId).pending = []) (sid : ConnectionId) :
    (({ w with taskQueue := rest }.processTask now sendOk t).line sid).Sublist (w.line sid) := by
  rw [processTask_line]
  split
  next hsid =>
    subst hsid
    have hline : w.line t.sessionId = w.sentOf t.sessionId ++
        (w.pendingOf t.sessionId ++ t.uid :: { w with taskQueue := rest }.queuedOf t.sessionId) := by
      simp [WorkerData.line, WorkerData.queuedOf, hq]
    rw [hline]
    split
    next => exact List.Sublist.refl _
    next hidle =>
      split
      next hck =>
        have hp : (w.session t.sessionId).pending = [] := hok hck (not_not.mp hidle)
        have hp' : w.pendingOf t.sessionId = [] := by rw [WorkerData.pendingOf, hp]; rfl
        have hp'' : { w with taskQueue := rest }.pendingOf t.sessionId = [] := hp'
        rw [hp', hp'']
        exact List.Sublist.refl _
      next =>
        exact List.Sublist.append_left (List.Sublist.append_left (List.sublist_cons_self _ _) _) _
  next hsid =>
    have hne : ¬ t.sessionId = sid := fun h => hsid h.symm
    simp [WorkerData.line, WorkerData.sentOf, WorkerData.pendingOf, WorkerData.queuedOf, hq, hne,
      WorkerData.session]

/-- Ending the request of a session sends or drops its first pending task. -/
theorem resolve_line_sublist (h : Flights w) (sid : ConnectionId) (r : ResultCode) (d : String)
    (k : ConnectionId) :
    ((w.resolve now sendOk sid (w.session sid) r d).line k).Sublist (w.line k) := by
  simp only [WorkerData.resolve]
  split
  next hp =>
    have heq : ((w.invoke (w.session sid).callback r d).eraseSession sid).line k = w.line k := by
      refine line_congr rfl ?_ rfl
      by_cases hk : k = sid
      · subst hk
        rw [session_eraseSession_self, hp]
      · rw [session_eraseSession_of_ne _ _ hk, session_invoke]
    rw [heq]
  next t rest hp =>
    have ht : t.sessionId = sid := h.pending sid t (by rw [hp]; exact List.mem_cons_self ..)
    subst ht
    rw [processTask_line]
    split
    next hk =>
      -- The session is idle now, and its first pending task goes first.
      subst hk
      have hline : w.line t.sessionId = w.sentOf t.sessionId ++ t.uid ::
          (rest.map (·.uid) ++ w.queuedOf t.sessionId) := by
        simp [WorkerData.line, WorkerData.pendingOf, hp]
      have hidle : ((w.invoke (w.session t.sessionId).callback r d).setSession t.sessionId
          { w.session t.sessionId with
            requestId := 0, callback := none, pending := rest }).session t.sessionId = _ :=
        session_setSession_self _ _ _
      rw [hline, hidle, if_neg (by simp)]
      split
      · have hpend : ((w.invoke (w.session t.sessionId).callback r d).setSession t.sessionId
            { w.session t.sessionId with
              requestId := 0, callback := none, pending := rest }).pendingOf t.sessionId =
            rest.map (·.uid) := by
          rw [WorkerData.pendingOf, hidle]
        rw [hpend]
        exact List.Sublist.refl _
      · rw [WorkerData.line, WorkerData.pendingOf, hidle]
        exact List.Sublist.append_left (List.sublist_cons_self _ _) _
    next hk =>
      have heq : ((w.invoke (w.session t.sessionId).callback r d).setSession t.sessionId
          { w.session t.sessionId with
            requestId := 0, callback := none, pending := rest }).line k = w.line k := by
        refine line_congr rfl ?_ rfl
        rw [session_setSession_of_ne _ _ _ hk, session_invoke]
      rw [heq]

theorem handleResponse_line_sublist (h : Flights w) (resp : DBResponseEvent) (k : ConnectionId) :
    ((w.handleResponse now sendOk resp).line k).Sublist (w.line k) := by
  simp only [WorkerData.handleResponse]
  split
  · exact List.Sublist.refl _
  next sid ss hf =>
    obtain ⟨hss, -⟩ := session_of_find hf
    subst hss
    exact resolve_line_sublist (h.forget _ _) sid resp.result resp.detail k

theorem timeoutSession_line_sublist (h : Flights w) (sid k : ConnectionId) :
    ((w.timeoutSession now sendOk sid).line k).Sublist (w.line k) := by
  simp only [WorkerData.timeoutSession]
  split
  · exact List.Sublist.refl _
  next ss hl =>
    split
    · exact List.Sublist.refl _
    · have hss : w.session sid = ss := by rw [WorkerData.session, hl]; rfl
      subst hss
      exact resolve_line_sublist (h.forget _ w.completed) sid .dbServerTimeout
        "DB request timed out" k

/-- A step of the thread that does not let a task overtake keeps every line. -/
theorem workerStep_line_sublist (h : Flights w) {running : Bool} {pc : WorkerPc}
    {x : WorkerData × WorkerPc}
    (hok : ∀ t rest, pc = .tasks → running = true → w.taskQueue = t :: rest →
      checkPassed t = true → (w.session t.sessionId).requestId = 0 →
      (w.session t.sessionId).pending = [])
    (hs : workerStep running now sendOk w pc = some x) (k : ConnectionId) :
    (x.1.line k).Sublist (w.line k) := by
  cases pc with
  | wait => cases hs; exact List.Sublist.refl _
  | timeouts ids =>
      cases ids with
      | nil => cases hs; exact List.Sublist.refl _
      | cons id ids => cases hs; exact timeoutSession_line_sublist h id k
  | responses =>
      simp only [workerStep] at hs
      split at hs
      · cases hs; exact List.Sublist.refl _
      next resp rest _ =>
        cases hs
        have h' : Flights { w with responseQueue := rest } :=
          ⟨h.own, h.nonzero, h.nodup, h.pending⟩
        exact handleResponse_line_sublist h' resp k
  | tasks =>
      simp only [workerStep] at hs
      split at hs
      · cases hs; exact List.Sublist.refl _
      next hrun =>
        split at hs
        · cases hs; exact List.Sublist.refl _
        next t rest hq =>
          cases hs
          exact processTask_line_sublist hq (hok t rest rfl (by simpa using hrun) hq) k
  | stopped => cases hs

end

/-! ## Runs -/

/-- What holds in every state that the condition allows. -/
structure RunInv (s : WorkerRun) : Prop where
  flights : Flights s.worker
  inLine : InLine s.nextUid s.worker

theorem runInv_init (idx : Nat) : RunInv (.init idx) where
  flights := by
    refine ⟨?_, ?_, List.nodup_nil, ?_⟩
    · intro o ho; cases ho
    · intro o ho; cases ho
    · intro sid t ht; cases ht
  inLine := fun sid => List.pairwise_singleton _ _

/-- A new task joins its line at the end. -/
theorem InLine.enqueue {n : Nat} {w : WorkerData} (h : InLine n w) (t : DBServerTask) :
    InLine (n + 1) { w with taskQueue := w.taskQueue ++ [{ t with uid := n }] } := by
  intro sid
  have hsid := h sid
  have hbound : ∀ u ∈ w.line sid ++ [n], u < n + 1 := by
    intro u hu
    rcases List.mem_append.mp hu with hu | hu
    · have := (List.pairwise_append.mp hsid).2.2 u hu n (List.mem_singleton.mpr rfl)
      omega
    · rw [List.mem_singleton.mp hu]
      omega
  have hlong : (w.line sid ++ [n] ++ [n + 1]).Pairwise (· < ·) := by
    refine List.pairwise_append.mpr ⟨hsid, List.pairwise_singleton _ _, fun u hu v hv => ?_⟩
    rw [List.mem_singleton.mp hv]
    exact hbound u hu
  refine hlong.sublist (List.Sublist.append_right ?_ _)
  by_cases ht : t.sessionId = sid
  · simp [WorkerData.line, WorkerData.sentOf, WorkerData.pendingOf, WorkerData.queuedOf,
      WorkerData.session, ht]
  · have heq : { w with taskQueue := w.taskQueue ++ [{ t with uid := n }] }.line sid = w.line sid := by
      simp [WorkerData.line, WorkerData.sentOf, WorkerData.pendingOf, WorkerData.queuedOf,
        WorkerData.session, ht]
    rw [heq]
    exact List.sublist_append_left _ _

/-- Another order of iteration finds the same sessions. -/
theorem session_rehash {w : WorkerData} {m : Sessions} (h : m.entries.Perm w.sessions.entries)
    (sid : ConnectionId) : { w with sessions := m }.session sid = w.session sid := by
  simp only [WorkerData.session]
  rw [AList.perm_lookup h]

theorem Flights.rehash {w : WorkerData} {m : Sessions} (h : Flights w)
    (hperm : m.entries.Perm w.sessions.entries) : Flights { w with sessions := m } := by
  have hsame := session_rehash hperm
  refine ⟨fun o ho => ?_, h.nonzero, h.nodup, fun sid t ht => ?_⟩
  · exact (congrArg SessionState.requestId (hsame o.1)).trans (h.own o ho)
  · exact h.pending sid t (by rw [← hsame sid]; exact ht)

theorem RunInv.step {s s' : WorkerRun} {a : WorkerAct} (hI : RunInv s)
    (hok : noOvertaking s a = true) (hs : runStep s a = some s') : RunInv s' := by
  have hF := hI.flights
  cases a with
  | enqueue t =>
      simp only [runStep] at hs
      split at hs
      · cases hs
        exact ⟨⟨hF.own, hF.nonzero, hF.nodup, hF.pending⟩, hI.inLine.enqueue t⟩
      · cases hs
  | respond resp => cases hs; exact ⟨⟨hF.own, hF.nonzero, hF.nodup, hF.pending⟩, hI.inLine⟩
  | tick ms => cases hs; exact ⟨hF, hI.inLine⟩
  | stop => cases hs; exact ⟨hF, hI.inLine⟩
  | rehash m =>
      simp only [runStep] at hs
      split at hs
      next hperm =>
        cases hs
        refine ⟨hF.rehash hperm, fun sid => ?_⟩
        have heq : { s.worker with sessions := m }.line sid = s.worker.line sid :=
          line_congr rfl (by rw [session_rehash hperm sid]) rfl
        show ({ s.worker with sessions := m }.line sid ++ [s.nextUid]).Pairwise (· < ·)
        rw [heq]
        exact hI.inLine sid
      · cases hs
  | work sendOk =>
      obtain ⟨x, hx, rfl⟩ := Option.map_eq_some_iff.mp hs
      refine ⟨hF.step hx, hI.inLine.mono (workerStep_line_sublist hF ?_ hx)⟩
      intro t rest hpc hrun hq hck hidle
      simpa [noOvertaking, hpc, hrun, hq, hck, hidle] using hok

/-- In every run in which no task overtakes the pending tasks of its session, the
requests of a session are sent in order, one at a time. -/
theorem ordered_of_noOvertaking (idx : Nat) (as : List WorkerAct) (s : WorkerRun)
    (hok : Machine.Meets runStep (fun s a => noOvertaking s a) (.init idx) as)
    (hrun : Machine.run runStep (.init idx) as = some s) : Ordered s.worker := by
  have hI : RunInv s := Machine.run_invariant_of_meets
    (fun _ _ _ hI hok hs => RunInv.step hI hok hs) (runInv_init idx) hok hrun
  refine ⟨fun sid => ?_, hI.flights.oneInFlight⟩
  exact (hI.inLine sid).sublist ((List.sublist_append_left _ _).trans (List.sublist_append_left _ _))

/-- A task of session 7 that saves `data`. -/
def saveTask (data : List UInt8) : DBServerTask := { uid := 0, sessionId := 7, data := data }

/-- The response to the request with the sequence number `seq` of worker 0. -/
def answer (seq : UInt64) : DBResponseEvent := ⟨0x0100000000000000 + seq, .success, ""⟩

/-- Two tasks of one session, and the response to the first. -/
def inTurnTrace : List WorkerAct :=
  List.flatten
    [[.enqueue (saveTask [1]), .enqueue (saveTask [2])], List.replicate 6 (.work true),
      [.respond (answer 1)], List.replicate 3 (.work true)]

/-- The second request goes out when the first is answered. -/
theorem ordered_inTurnTrace :
    ∃ s, Machine.run runStep (.init 0) inTurnTrace = some s ∧ s.worker.sentOf 7 = [0, 1] ∧
      s.worker.outstanding = [(7, 0x0100000000000002)] ∧ Ordered s.worker :=
  ⟨_, rfl, by decide +kernel, by decide +kernel,
    ordered_of_noOvertaking 0 inTurnTrace _ (by decide +kernel) rfl⟩

/-- Task 0 is in flight, and the tasks 1 and 2 wait.  The response to task 0 brings
up task 1, whose data is empty.  It fails its check, and task 2 stays behind in an
idle session.  Task 3 comes and is sent before it. -/
def overtakingTrace : List WorkerAct :=
  List.flatten
    [[.enqueue (saveTask [1]), .enqueue (saveTask []), .enqueue (saveTask [3])],
      List.replicate 7 (.work true), [.respond (answer 1), .enqueue (saveTask [4])],
      List.replicate 6 (.work true), [.respond (answer 2)], List.replicate 3 (.work true)]

/-- The requests of session 7 are sent in the order 0, 3, 2. -/
theorem overtaking_breaks_order :
    ∃ s, Machine.run runStep (.init 0) overtakingTrace = some s ∧
      s.worker.sentOf 7 = [0, 3, 2] ∧ ¬ Ordered s.worker := by
  refine ⟨_, rfl, by decide +kernel, fun h => ?_⟩
  have hord := h.inOrder 7
  revert hord
  decide +kernel

end NetworkModule.DBServer
