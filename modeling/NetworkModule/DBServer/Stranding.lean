import NetworkModule.DBServer.WorkerOrder

/-!
# Tasks left behind in an idle session

A session that is idle should have nothing pending, for nobody looks at the pending
tasks of an idle session: they are taken when a request of the session ends.

Whoever ends a request takes exactly one pending task and starts it.  If that task
fails its check, or cannot be sent, then the session is idle, and the tasks behind it
stay where they are.  `notStranded_of_nextStarts` says that this is the only way.
-/

namespace NetworkModule.DBServer

/-! ## The promise -/

/-- Every session with pending tasks has a request in flight. -/
def NotStranded (w : WorkerData) : Prop :=
  ∀ sid ss, w.sessions.lookup sid = some ss → ss.pending ≠ [] → ss.requestId ≠ 0

/-- If the request of this session ends and more than one task is pending, then the
first of them is sent. -/
def SessionState.nextStarts (ss : SessionState) (sendOk : Bool) : Bool :=
  match ss.pending with
  | t :: _ :: _ => checkPassed t && sendOk
  | _ => true

/-- A step that ends the request of a session starts the next task, or nothing stays
behind it. -/
def nextStarts (s : WorkerRun) (a : WorkerAct) : Bool :=
  match a, s.pc, s.worker.responseQueue with
  | .work sendOk, .timeouts (sid :: _), _ =>
      (s.worker.session sid).requestId = 0 || (s.worker.session sid).nextStarts sendOk
  | .work sendOk, .responses, resp :: _ =>
      match s.worker.sessions.entries.find? (fun e => e.2.requestId = resp.requestId) with
      | some e => e.2.nextStarts sendOk
      | none => true
  | _, _, _ => true

/-! ## Steps of the thread -/

section
variable {w : WorkerData} {now : Nat} {sendOk : Bool}

/-- The same, for the state that `operator[]` would make as well. -/
theorem notStranded_iff :
    NotStranded w ↔ ∀ sid, (w.session sid).pending ≠ [] → (w.session sid).requestId ≠ 0 := by
  constructor
  · intro h sid hp
    cases hl : w.sessions.lookup sid with
    | none =>
        rw [WorkerData.session, hl] at hp
        exact absurd rfl hp
    | some ss =>
        rw [WorkerData.session, hl] at hp ⊢
        exact h sid ss hl hp
  · intro h sid ss hl hp
    have hss : w.session sid = ss := by rw [WorkerData.session, hl]; rfl
    rw [← hss]
    exact h sid (by rw [hss]; exact hp)

/-- Sessions without a stranded task, up to one of them. -/
def NotStrandedBut (w : WorkerData) (sid : ConnectionId) : Prop :=
  ∀ k, k ≠ sid → (w.session k).pending ≠ [] → (w.session k).requestId ≠ 0

/-- `ProcessTask` leaves nothing behind in the session of its task, if the session has
nothing pending or the task is sent. -/
theorem notStranded_processTask {t : DBServerTask} (h : NotStrandedBut w t.sessionId)
    (hstart : (w.session t.sessionId).requestId = 0 →
      (w.session t.sessionId).pending = [] ∨ (checkPassed t = true ∧ sendOk = true)) :
    NotStranded (w.processTask now sendOk t) := by
  refine notStranded_iff.mpr fun k hp => ?_
  by_cases hk : k = t.sessionId
  · subst hk
    simp only [WorkerData.processTask] at hp ⊢
    split at hp
    next hbusy =>
      rw [if_pos hbusy, session_setSession_self]
      exact hbusy
    next hidle =>
      rw [if_neg hidle]
      have hnext := hstart (not_not.mp hidle)
      split at hp
      next hck =>
        rw [if_pos hck]
        have hsent := sendTask_sent w now sendOk t
        rw [hsent.pending] at hp
        obtain ⟨-, rfl⟩ := hnext.resolve_left hp
        rw [hsent.flight.2]
        exact nextId_ne_zero _
      next hck =>
        -- The check fails, so nothing was pending.
        have hnil := hnext.resolve_right fun hs => hck hs.1
        rw [if_pos (List.isEmpty_iff.mpr hnil), session_invoke, session_eraseSession_self] at hp
        exact absurd rfl hp
  · have hsame : (w.processTask now sendOk t).session k = w.session k := by
      simp only [WorkerData.processTask]
      split
      · exact session_setSession_of_ne _ _ _ hk
      · split
        · exact (sendTask_sent w now sendOk t).other k hk
        · split
          · rw [session_invoke, session_eraseSession_of_ne _ _ hk]
          · rfl
    rw [hsame] at hp ⊢
    exact h k hk hp

/-- Ending the request of a session leaves nothing behind, if the next task starts. -/
theorem notStranded_resolve (hF : Flights w) (h : NotStranded w) {sid : ConnectionId}
    {r : ResultCode} {d : String} (hnext : (w.session sid).nextStarts sendOk = true) :
    NotStranded (w.resolve now sendOk sid (w.session sid) r d) := by
  have h' := notStranded_iff.mp h
  simp only [WorkerData.resolve]
  split
  next hp =>
    refine notStranded_iff.mpr fun k hk => ?_
    by_cases hsid : k = sid
    · subst hsid
      rw [session_eraseSession_self] at hk
      exact absurd rfl hk
    · rw [session_eraseSession_of_ne _ _ hsid, session_invoke] at hk ⊢
      exact h' k hk
  next t rest hp =>
    have ht : t.sessionId = sid := hF.pending sid t (by rw [hp]; exact List.mem_cons_self)
    subst ht
    refine notStranded_processTask (fun k hk hpk => ?_) fun _ => ?_
    · rw [session_setSession_of_ne _ _ _ hk, session_invoke] at hpk ⊢
      exact h' k hpk
    · rw [session_setSession_self]
      cases rest with
      | nil => exact .inl rfl
      | cons t' rest =>
          right
          rw [SessionState.nextStarts, hp] at hnext
          exact Bool.and_eq_true_iff.mp hnext

/-- A step of the thread leaves nothing behind, if the next task starts. -/
theorem NotStranded.work {s s' : WorkerRun} (hF : Flights s.worker) (h : NotStranded s.worker)
    (hok : nextStarts s (.work sendOk) = true) (hs : runStep s (.work sendOk) = some s') :
    NotStranded s'.worker := by
  obtain ⟨x, hx, rfl⟩ := Option.map_eq_some_iff.mp hs
  cases hpc : s.pc with
  | wait =>
      rw [hpc] at hx
      cases hx
      exact h
  | timeouts ids =>
      rw [hpc] at hx
      cases ids with
      | nil =>
          cases hx
          exact h
      | cons sid ids =>
          cases hx
          simp only [WorkerData.timeoutSession]
          split
          · exact h
          next ss hl =>
            split
            · exact h
            next hbusy =>
              have hss : s.worker.session sid = ss := by rw [WorkerData.session, hl]; rfl
              subst hss
              refine notStranded_resolve (hF.forget _ s.worker.completed) h ?_
              have hor : (s.worker.session sid).requestId = 0 ∨
                  (s.worker.session sid).nextStarts sendOk = true := by
                simpa [nextStarts, hpc] using hok
              exact hor.resolve_left hbusy
  | responses =>
      rw [hpc] at hx
      simp only [workerStep] at hx
      split at hx
      · cases hx
        exact h
      next resp rest hq =>
        cases hx
        simp only [WorkerData.handleResponse]
        split
        · exact h
        next sid ss hf =>
          obtain ⟨hss, -⟩ := session_of_find hf
          have hF' : Flights { s.worker with responseQueue := rest } :=
            ⟨hF.own, hF.nonzero, hF.nodup, hF.pending⟩
          have hnext : ss.nextStarts sendOk = true := by
            simp only [nextStarts, hpc, hq] at hok
            have hf' : s.worker.sessions.entries.find? (fun e => e.2.requestId = resp.requestId) =
                some ⟨sid, ss⟩ := hf
            rw [hf'] at hok
            exact hok
          subst hss
          exact notStranded_resolve (hF'.forget _ _) h hnext
  | tasks =>
      rw [hpc] at hx
      simp only [workerStep] at hx
      split at hx
      · cases hx
        exact h
      · split at hx
        · cases hx
          exact h
        next t rest hq =>
          cases hx
          have h' := notStranded_iff.mp h
          refine notStranded_processTask (fun k _ => h' k) fun hidle => .inl ?_
          by_contra hp
          exact h' t.sessionId hp hidle
  | stopped =>
      rw [hpc] at hx
      cases hx

end

/-! ## Runs -/

/-- What holds in every state that the condition allows. -/
structure StrandingInv (s : WorkerRun) : Prop where
  flights : Flights s.worker
  notStranded : NotStranded s.worker

theorem StrandingInv.step {s s' : WorkerRun} {a : WorkerAct} (hI : StrandingInv s)
    (hok : nextStarts s a = true) (hs : runStep s a = some s') : StrandingInv s' := by
  have hF := hI.flights
  cases a with
  | enqueue t =>
      simp only [runStep] at hs
      split at hs
      · cases hs
        exact ⟨⟨hF.own, hF.nonzero, hF.nodup, hF.pending⟩, hI.notStranded⟩
      · cases hs
  | respond resp =>
      cases hs
      exact ⟨⟨hF.own, hF.nonzero, hF.nodup, hF.pending⟩, hI.notStranded⟩
  | tick ms =>
      cases hs
      exact ⟨hF, hI.notStranded⟩
  | stop =>
      cases hs
      exact ⟨hF, hI.notStranded⟩
  | rehash m =>
      simp only [runStep] at hs
      split at hs
      next hperm =>
        cases hs
        refine ⟨hF.rehash hperm, fun sid ss hl hp => ?_⟩
        have hl' : m.lookup sid = some ss := hl
        rw [AList.perm_lookup hperm] at hl'
        exact hI.notStranded sid ss hl' hp
      · cases hs
  | work sendOk =>
      have hns := hI.notStranded.work hF hok hs
      obtain ⟨x, hx, rfl⟩ := Option.map_eq_some_iff.mp hs
      exact ⟨hF.step hx, hns⟩

/-- In every run in which the next task of a session starts whenever a request ends
with more than one task pending, no task is left behind in an idle session. -/
theorem notStranded_of_nextStarts (idx : Nat) (as : List WorkerAct) (s : WorkerRun)
    (hok : Machine.Meets runStep (fun s a => nextStarts s a) (.init idx) as)
    (hrun : Machine.run runStep (.init idx) as = some s) : NotStranded s.worker := by
  have hinit : StrandingInv (.init idx) :=
    ⟨(runInv_init idx).flights, fun sid ss hl => by cases hl⟩
  exact (Machine.run_invariant_of_meets (fun _ _ _ hI hok hs => StrandingInv.step hI hok hs)
    hinit hok hrun).notStranded

/-- Three tasks of one session, and the response to the first. -/
def threeTasksTrace : List WorkerAct :=
  List.flatten
    [[.enqueue (saveTask [1]), .enqueue (saveTask [2]), .enqueue (saveTask [3])],
      List.replicate 7 (.work true), [.respond (answer 1)], List.replicate 5 (.work true)]

/-- The second is in flight, and the third waits behind it. -/
theorem notStranded_threeTasksTrace :
    ∃ s, Machine.run runStep (.init 0) threeTasksTrace = some s ∧ s.pc = .wait ∧
      (s.worker.session 7).pending.map (·.uid) = [2] ∧
      (s.worker.session 7).requestId = 0x0100000000000002 ∧ NotStranded s.worker :=
  ⟨_, rfl, by decide +kernel, by decide +kernel, by decide +kernel,
    notStranded_of_nextStarts 0 threeTasksTrace _ (by decide +kernel) rfl⟩

/-- The same, but the data of the second is empty. -/
def strandingTrace : List WorkerAct :=
  List.flatten
    [[.enqueue (saveTask [1]), .enqueue (saveTask []), .enqueue (saveTask [3])],
      List.replicate 7 (.work true), [.respond (answer 1)], List.replicate 5 (.work true)]

/-- The second fails its check, and the third waits in an idle session. -/
theorem failedCheck_strands_task :
    ∃ s, Machine.run runStep (.init 0) strandingTrace = some s ∧ s.pc = .wait ∧
      (s.worker.session 7).pending.map (·.uid) = [2] ∧ (s.worker.session 7).requestId = 0 ∧
      ¬ NotStranded s.worker := by
  refine ⟨_, rfl, by decide +kernel, by decide +kernel, by decide +kernel, fun h => ?_⟩
  exact notStranded_iff.mp h 7 (by decide +kernel) (by decide +kernel)

end NetworkModule.DBServer
