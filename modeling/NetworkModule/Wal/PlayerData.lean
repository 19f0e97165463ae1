import NetworkModule.Wal.Outstanding
import NetworkModule.Wal.Replay
import NetworkModule.Wal.Durability

/-!
# Player data after a restart

A task that a handler failed on stays pending in the log, and the next life enqueues
it again.  The update that came after it may have been stored and acknowledged long
before.  Then the older data comes last.

`Latest` is what one would like: when the tasks of a restart are processed, the
player data of a session is that of the last update enqueued for it.
`latest_iff_newestPending` says when this is so.  It compares the last update
enqueued with the newest update that the log has as pending when the process ends.

If the log has none, the data is the right one already.  In the first life a worker
processes the updates of a session in the order in which they were enqueued, and the
last one it is done with is stored or dropped (`InOrder`).
-/

namespace NetworkModule.Wal

/-! ## The promise -/

/-- The player data of every session is that of the last update enqueued for it. -/
def Latest (s : WalState) : Prop :=
  ∀ sid t, lastUpdate sid s.enqueued = some t → s.db.players sid = some t.data

/-- If the process ends in this state and an update of a session is pending in the
log, the newest one has the data of the last update enqueued for the session. -/
def NewestPending (s : WalState) : Prop :=
  ∀ sid t t', lastUpdate sid s.endProcess.enqueued = some t →
    lastUpdate sid (tasksOf (parseWalFile (.empty, 0) s.primary).1.entries) = some t' →
    t'.data = t.data

/-- A life without a crash, within bounds, and with no update that is only logged
because the database is not connected. -/
def firstLifeOk (s : WalState) : Act → Bool
  | .crash => false
  | .work p answer =>
      match s.workers[p]?.map Worker.pc with
      | some (.process t) => t.type ≠ .updatePlayerData || answer ≠ .disconnected
      | _ => true
  | a => inBounds s a

/-! ## The order of the updates -/

/-- The updates of a session that were enqueued are those its worker is done with and
then those it has.  The last one it is done with is dropped or stored. -/
def InOrder (s : WalState) (sid : ConnectionId) : Prop :=
  ∃ handled, updatesOf sid s.enqueued = handled ++ updatesOf sid (tasksFor s.workers sid) ∧
    ∀ t, handled.getLast? = some t → Dropped s.view t ∨ s.db.players sid = some t.data

/-- What holds while callers may enqueue. -/
structure Serving (s : WalState) : Prop where
  outstanding : Outstanding s.view
  routed : Routed s.workers
  order : ∀ sid, InOrder s sid

section
variable {s s' : WalState} {sid : ConnectionId}

theorem InOrder.keep (h : InOrder s sid) (hD : ∀ t, Dropped s.view t → Dropped s'.view t)
    (henq : s'.enqueued = s.enqueued) (hws : tasksFor s'.workers sid = tasksFor s.workers sid)
    (hdb : s'.db = s.db) : InOrder s' sid := by
  obtain ⟨handled, heq, hlast⟩ := h
  refine ⟨handled, by rw [henq, hws]; exact heq, fun t ht => ?_⟩
  rw [hdb]
  exact (hlast t ht).imp_left (hD t)

/-- A task is pushed. -/
theorem InOrder.push (h : InOrder s sid) (hD : ∀ t, Dropped s.view t → Dropped s'.view t) {t : DBTask}
    (henq : s'.enqueued = s.enqueued ++ [t])
    (hws : updatesOf sid (tasksFor s'.workers sid) = updatesOf sid (tasksFor s.workers sid ++ [t]))
    (hdb : s'.db = s.db) : InOrder s' sid := by
  obtain ⟨handled, heq, hlast⟩ := h
  refine ⟨handled, ?_, fun t ht => ?_⟩
  · rw [henq, hws, updatesOf_append, updatesOf_append, heq, List.append_assoc]
  · rw [hdb]
    exact (hlast t ht).imp_left (hD t)

/-- The worker processes its first task. -/
theorem InOrder.process (h : InOrder s sid) (hD : ∀ t, Dropped s.view t → Dropped s'.view t)
    {t : DBTask} (henq : s'.enqueued = s.enqueued)
    (hws : updatesOf sid (tasksFor s.workers sid) = updatesOf sid (t :: tasksFor s'.workers sid))
    (hself : t.updates sid = true → Dropped s'.view t ∨ s'.db.players sid = some t.data)
    (hother : t.updates sid = false → s'.db.players sid = s.db.players sid) : InOrder s' sid := by
  obtain ⟨handled, heq, hlast⟩ := h
  rw [hws, updatesOf_cons, updatesOf_singleton] at heq
  cases hu : t.updates sid with
  | true =>
      refine ⟨handled ++ [t], ?_, fun t' ht' => ?_⟩
      · rw [henq, heq, hu, if_pos rfl, List.append_assoc]
      · rw [List.getLast?_concat] at ht'
        cases ht'
        exact hself hu
  | false =>
      refine ⟨handled, ?_, fun t' ht' => ?_⟩
      · rw [henq, heq, hu]
        rfl
      · rw [hother hu]
        exact (hlast t' ht').imp_left (hD t')

/-- What a failed update leaves. -/
theorem dropped_of_fail (hN : Numbered s.view) (h : Outstanding s.view) {p : Nat} {w : Worker}
    (hw : s.workers[p]? = some w) {t : DBTask} {w' : Worker} (ht : w.tasks = t :: w'.tasks)
    (hd : w.dones = []) (hd' : w'.dones = []) (answer : DbAnswer) :
    Dropped ((processTask s t answer).setWorker p w').view t := by
  obtain ⟨R, hR, hR'⟩ := flatMap_set_perm (f := Worker.tasks) hw
  obtain ⟨D, hD, hD'⟩ := flatMap_set_perm (f := Worker.dones) hw
  specialize hR' w'
  specialize hD' w'
  rw [ht] at hR
  rw [hd] at hD
  rw [hd'] at hD'
  have hmem : t ∈ s.view.tasks := hR.mem_iff.mpr List.mem_cons_self
  refine h.dropped (hN.tasks t hmem) rfl
    (R := s.view.calls.flatMap Call.numbered ++ ((w'.tasks ++ R) ++ D)) ?_ ?_
  · exact ((hR.append hD).append_left _).trans List.perm_middle
  · exact (hR'.append hD').append_left _

/-- An update is stored or dropped. -/
theorem stored_or_dropped (hN : Numbered s.view) (h : Outstanding s.view) {p : Nat} {w w' : Worker}
    {answer : DbAnswer} (hw : s.workers[p]? = some w) {t : DBTask} (hpc : w.pc = .process t)
    (ht : w.tasks = t :: w'.tasks) (hw' : w' = { w with pc := afterProcess t answer })
    (hconn : answer ≠ .disconnected) (hu : t.updates sid = true) :
    Dropped ((processTask s t answer).setWorker p w').view t ∨
      ((processTask s t answer).setWorker p w').db.players sid = some t.data := by
  have htype : t.type = .updatePlayerData := by
    simp only [DBTask.updates, Bool.and_eq_true, decide_eq_true_eq] at hu
    exact hu.1
  have hd : w.dones = [] := by simp [Worker.dones, hpc]
  have hfail : (processResult t answer).1 = false →
      Dropped ((processTask s t answer).setWorker p w').view t := by
    intro hr
    refine dropped_of_fail hN h hw ht hd ?_ answer
    simp [hw', Worker.dones, afterProcess, hr]
  cases answer with
  | ok =>
      refine .inr ((players_execute s.db t).trans ?_)
      rw [if_pos hu]
  | disconnected => exact absurd rfl hconn
  | null => exact .inl (hfail (by simp [processResult, htype, handleUpdatePlayerData, handle]))
  | error what => exact .inl (hfail (by simp [processResult, htype, handleUpdatePlayerData, handle]))
  | throws what => exact .inl (hfail (by simp [processResult, htype, handleUpdatePlayerData, handle]))

/-! ## Steps of the first life -/

/-- A call of `EnqueueTask` takes a step. -/
theorem Serving.callStep {i : Nat} (h : Serving s) (hdone : s.recover = .done)
    (hw : 0 < s.workers.length) (hout : Outstanding s'.view)
    (hD : ∀ t, Dropped s.view t → Dropped s'.view t) (hs : step s (.call i) = some s') :
    Serving s' := by
  simp only [step] at hs
  split at hs
  · cases hs
  next c hc =>
    cases hs
    cases hpc : c.pc with
    | nextSeq =>
        simp only [Wal.callStep, hpc] at hout hD ⊢
        exact ⟨hout, h.routed, fun sid => (h.order sid).keep hD rfl rfl rfl⟩
    | writePending =>
        simp only [Wal.callStep, hpc] at hout hD ⊢
        exact ⟨hout, h.routed, fun sid => (h.order sid).keep hD rfl rfl rfl⟩
    | push =>
        simp only [Wal.callStep, hpc] at hout hD ⊢
        by_cases hrun : s.mIsRunning = true
        · simp only [if_pos hrun] at hout hD ⊢
          refine ⟨hout, h.routed.push hw c.task, fun sid => (h.order sid).push (t := c.task) hD ?_ ?_ rfl⟩
          · simp [WalState.pushTask, hdone, RecoverPc.isDone]
          · exact updatesOf_tasksFor_push hw c.task sid
        · simp only [if_neg hrun] at hout hD ⊢
          by_cases hseq : c.task.walSeq ≠ 0
          · simp only [if_pos hseq] at hout hD ⊢
            exact ⟨hout, h.routed, fun sid => (h.order sid).keep hD rfl rfl rfl⟩
          · simp only [if_neg hseq] at hout hD ⊢
            exact ⟨hout, h.routed, fun sid => (h.order sid).keep hD rfl rfl rfl⟩
    | writeDone =>
        simp only [Wal.callStep, hpc] at hout hD ⊢
        exact ⟨hout, h.routed, fun sid => (h.order sid).keep hD rfl rfl rfl⟩

/-- A worker takes a step. -/
theorem Serving.workStep {p : Nat} {w : Worker} {answer : DbAnswer} (h : Serving s)
    (hN : Numbered s.view) (hout : Outstanding s'.view)
    (hD : ∀ t, Dropped s.view t → Dropped s'.view t) (hw : s.workers[p]? = some w)
    (hok : firstLifeOk s (.work p answer) = true) (hs : workStep s p w answer = some s') :
    Serving s' := by
  obtain ⟨hwf, ⟨w', hws, ht, hdb⟩ | ⟨t, w', hpc, ht, hw', rfl⟩⟩ := workStep_cases hs
  · obtain ⟨hrt, htasks⟩ := tasksFor_move h.routed hw ht
    refine ⟨hout, hws ▸ hrt, fun sid => (h.order sid).keep hD hwf.enqueued ?_ hdb⟩
    rw [hws, htasks]
  · refine ⟨hout, h.routed.pop hw ht, fun sid => (h.order sid).process hD rfl
      (updatesOf_tasksFor_pop h.routed hw ht sid) (fun hu => ?_) fun hu => ?_⟩
    · have hconn : answer ≠ .disconnected := by
        simp only [DBTask.updates, Bool.and_eq_true, decide_eq_true_eq] at hu
        simpa [firstLifeOk, hw, hpc, hu.1] using hok
      exact stored_or_dropped hN h.outstanding hw hpc ht hw' hconn hu
    · show (if answer = .ok then s.db.execute t else s.db).players sid = _
      split
      · rw [players_execute, hu]
        rfl
      · rfl

theorem Serving.inner {a : Act} (h : Serving s) (hS : Sound s) (hup : s.up = true)
    (hdone : s.recover = .done) (ha : a.isInner = true) (hok : firstLifeOk s a = true)
    (hs : step s a = some s') : Serving s' := by
  have hown : s.recover.ownsLog = true := by rw [hdone]; rfl
  have hN := hS.numbered hup hown
  have hbounds : inBounds s a = true := by
    cases a with
    | work p answer => rfl
    | crash => cases ha
    | _ => exact hok
  obtain ⟨hstep, -⟩ := inner_logStep hS hup hown ha hbounds hs
  have hout := h.outstanding.step hN hstep
  have hD : ∀ t, Dropped s.view t → Dropped s'.view t := fun t hd => hd.step hN hstep
  cases a with
  | takeId =>
      simp only [step, if_pos hup] at hs
      cases hs
      exact ⟨hout, h.routed, fun sid => (h.order sid).keep hD rfl rfl rfl⟩
  | call i => exact h.callStep hdone (hS.workers hup) hout hD hs
  | work p answer =>
      simp only [step] at hs
      split at hs
      · cases hs
      next w hw => exact h.workStep hN hout hD hw hok hs
  | stop =>
      simp only [step] at hs
      split at hs
      · cases hs
        exact ⟨hout, h.routed, fun sid => (h.order sid).keep hD rfl rfl rfl⟩
      · cases hs
  | join =>
      simp only [step] at hs
      split at hs
      · cases hs
        exact ⟨hout, h.routed, fun sid => (h.order sid).keep hD rfl rfl rfl⟩
      · cases hs
  | start n => cases ha
  | recover b => cases ha
  | enqueue t => cases ha
  | crash => cases ha

/-- A call that has no number yet is not outstanding. -/
theorem Serving.enqueue {t : DBTask} (h : Serving s) (hs : step s (.enqueue t) = some s') :
    Serving s' := by
  obtain ⟨-, -, -, rfl | ⟨cb, rfl⟩⟩ := enqueue_cases hs
  · have hsame : ({ s with nextUid := s.nextUid + 1, calls := s.calls ++
        [{ task := { t with uid := s.nextUid, walSeq := 0 } }] } : WalState).view.outstanding =
        s.view.outstanding := by
      simp [View.outstanding, WalState.view, Call.numbered]
    have hD : ∀ t', Dropped s.view t' → Dropped ({ s with nextUid := s.nextUid + 1, calls := s.calls ++
        [{ task := { t with uid := s.nextUid, walSeq := 0 } }] } : WalState).view t' := fun t' hd =>
      ⟨hd.pends, hsame ▸ hd.other⟩
    refine ⟨⟨?_, ?_⟩, h.routed, fun sid => (h.order sid).keep hD rfl rfl rfl⟩
    · rw [hsame]
      exact h.outstanding.nodup
    · rw [hsame]
      exact h.outstanding.pends
  · exact ⟨h.outstanding, h.routed, fun sid => (h.order sid).keep (fun _ hd => hd) rfl rfl rfl⟩

/-- What holds in every state of the first life. -/
structure FirstLife (s : WalState) : Prop where
  sound : Sound s
  bak : s.bak = none
  early : s.up = false ∨ s.recover.isDone = false → s.primary = none ∧ s.enqueued = []
  reading : s.recover.isDone = false →
    s.recover = .parsePrimary ∨ ∃ m, s.recover = .parseBackup m 0 ∧ m.entries = []
  serving : s.up = true → s.recover = .done → Serving s

theorem firstLife_init (db : Database) : FirstLife { db } where
  sound := sound_init db
  bak := rfl
  early := fun _ => ⟨rfl, rfl⟩
  reading := fun h => by cases h
  serving := fun h => by cases h

/-- The empty log is read, and callers may enqueue. -/
theorem FirstLife.recoverStep {b : Bool} (h : FirstLife s) (hup : s.up = true)
    (hlt : s.sGlobalSeq + 1 < 2 ^ 64) (hs : recoverStep s b = some s') : FirstLife s' := by
  have hsound := h.sound.recoverStep hup hlt hs
  cases hd : s.recover.isDone with
  | true =>
      cases hr : s.recover with
      | done =>
          simp only [Wal.recoverStep, hr] at hs
          cases hs
      | _ =>
          rw [hr] at hd
          cases hd
  | false =>
      obtain ⟨hprimary, henq⟩ := h.early (.inr hd)
      rcases h.reading hd with hr | ⟨m, hr, hm⟩
      · have hparse : parseWalFile (.empty, 0) s.primary = (.empty, 0) := by rw [hprimary]; rfl
        simp only [Wal.recoverStep, hr, hparse] at hs
        cases hs
        exact ⟨hsound, h.bak, (fun _ => ⟨hprimary, henq⟩), (fun _ => .inr ⟨_, rfl, rfl⟩),
          (fun _ h => by cases h)⟩
      · obtain ⟨hcalls, htasks, hdones⟩ := h.sound.idle hup (by rw [hr]; rfl)
        have hparse : parseWalFile (m, 0) s.bak = (m, 0) := by rw [h.bak]; rfl
        simp only [Wal.recoverStep, hr, hparse, hm, List.isEmpty_nil, if_true] at hs
        cases hs
        have hempty : ∀ w ∈ s.workers, w.tasks = [] := List.flatMap_eq_nil_iff.mp htasks
        have hnone : ∀ sid, tasksFor s.workers sid = [] := by
          intro sid
          rw [tasksFor]
          cases hw : s.workers[sid.toNat % s.workers.length]? with
          | none => rfl
          | some w => exact hempty w (List.mem_of_getElem? hw)
        refine ⟨hsound, h.bak, (fun _ => ⟨hprimary, henq⟩), (fun h => by cases h),
          fun _ _ => ⟨?_, ?_, fun sid => ?_⟩⟩
        · have hnil : ({ s with recover := .done } : WalState).view.outstanding = [] := by
            simp only [View.outstanding, WalState.view, hcalls]
            simp only [WalState.view] at htasks hdones
            rw [htasks, hdones]
            rfl
          refine ⟨?_, ?_⟩ <;> rw [hnil]
          · exact List.nodup_nil
          · exact fun t ht => by cases ht
        · intro p w hw t ht
          rw [hempty w (List.mem_of_getElem? hw)] at ht
          cases ht
        · refine ⟨[], ?_, fun _ h => by cases h⟩
          show updatesOf sid s.enqueued = [] ++ updatesOf sid (tasksFor s.workers sid)
          rw [henq, hnone sid]
          rfl

/-- Before callers may enqueue, the threads enqueue nothing. -/
theorem enqueued_inner {a : Act} (hcalls : s.calls = []) (ha : a.isInner = true)
    (hs : step s a = some s') : s'.enqueued = s.enqueued := by
  cases a with
  | takeId =>
      simp only [step] at hs
      split at hs
      · cases hs
        rfl
      · cases hs
  | call i => simp [step, hcalls] at hs
  | work p answer =>
      simp only [step] at hs
      split at hs
      · cases hs
      next w hw => exact (workStep_cases hs).1.enqueued
  | stop =>
      simp only [step] at hs
      split at hs
      · cases hs
        rfl
      · cases hs
  | join =>
      simp only [step] at hs
      split at hs
      · cases hs
        rfl
      · cases hs
  | start n => cases ha
  | recover b => cases ha
  | enqueue t => cases ha
  | crash => cases ha

theorem isDone_iff {r : RecoverPc} : r.isDone = true ↔ r = .done := by
  cases r <;> simp [RecoverPc.isDone]

theorem FirstLife.step {a : Act} (h : FirstLife s) (hok : firstLifeOk s a = true)
    (hs : step s a = some s') : FirstLife s' := by
  have hbounds : inBounds s a = true := by
    cases a with
    | work p answer => rfl
    | crash => rfl
    | _ => exact hok
  have hsound := h.sound.step hbounds hs
  by_cases ha : a.isInner = true
  · have hup := inner_up h.sound ha hs
    cases hd : s.recover.isDone with
    | true =>
        have hdone := isDone_iff.mp hd
        obtain ⟨-, hf⟩ := inner_logStep h.sound hup (by rw [hdone]; rfl) ha hbounds hs
        have hserve := (h.serving hup hdone).inner h.sound hup hdone ha hok hs
        refine ⟨hsound, hf.bak.trans h.bak, ?_, ?_, fun _ _ => hserve⟩
        · rintro (hdown | hno)
          · cases (hf.up.trans hup).symm.trans hdown
          · rw [hf.recover, hd] at hno
            cases hno
        · intro hno
          rw [hf.recover, hd] at hno
          cases hno
    | false =>
        obtain ⟨hprimary, henq⟩ := h.early (.inr hd)
        have hown : s.recover.ownsLog = false := by
          rcases h.reading hd with hr | ⟨m, hr, -⟩ <;> rw [hr] <;> rfl
        have hI := inner_idle h.sound hup hown ha hs
        have henq' := enqueued_inner (h.sound.idle hup hown).1 ha hs
        refine ⟨hsound, hI.frame.bak.trans h.bak, (fun _ => ⟨hI.primary.trans hprimary, henq'.trans henq⟩),
          ?_, fun _ hdone => ?_⟩
        · rw [hI.frame.recover]
          exact h.reading
        · rw [← hI.frame.recover, hdone] at hd
          cases hd
  · cases a with
    | start n =>
        simp only [Wal.step] at hs
        split at hs
        next hcond =>
          cases hs
          have hdown : s.up = false := by simpa using (Bool.and_eq_true_iff.mp hcond).1
          exact ⟨hsound, h.bak, (fun _ => h.early (.inl hdown)), (fun _ => .inl rfl),
            (fun _ h => by cases h)⟩
        · cases hs
    | recover b =>
        simp only [Wal.step] at hs
        split at hs
        next hup => exact h.recoverStep hup (by simpa [inBounds] using hbounds) hs
        · cases hs
    | enqueue t =>
        have hserve : s.up = true → s.recover = .done → Serving s' := fun hup hdone =>
          (h.serving hup hdone).enqueue hs
        obtain ⟨hup, hdone, -, rfl | ⟨cb, rfl⟩⟩ := enqueue_cases hs
        · exact ⟨hsound, h.bak, h.early, h.reading, hserve⟩
        · exact ⟨hsound, h.bak, h.early, h.reading, hserve⟩
    | crash => cases hok
    | takeId => exact absurd rfl ha
    | call i => exact absurd rfl ha
    | work p answer => exact absurd rfl ha
    | stop => exact absurd rfl ha
    | join => exact absurd rfl ha

/-! ## The end of the first life -/

/-- A pending task is among those that a restart reads. -/
theorem Pends.mem_tasksOf {t : DBTask} (h : Pends s.log t) :
    (entryOf t).task ∈ tasksOf (parseWalFile (.empty, 0) s.primary).1.entries := by
  have hlook : (parseWalFile (.empty, 0) s.primary).1.lookup t.walSeq = some (entryOf t) := by
    rw [lookup_parse]
    exact h
  exact List.mem_map.mpr ⟨(t.walSeq, entryOf t), (OrderedMap.mem_entries _).mpr hlook, rfl⟩

/-- If no update of a session is pending when the process ends, the data of the last
one enqueued is stored. -/
theorem FirstLife.stored (h : FirstLife s) (hup : s.up = true) {t : DBTask}
    (hlast : lastUpdate sid s.endProcess.enqueued = some t)
    (hnone : lastUpdate sid (tasksOf (parseWalFile (.empty, 0) s.primary).1.entries) = none) :
    s.db.players sid = some t.data := by
  have hno : ∀ t, Pends s.log t → t.updates sid = false := by
    intro t ht
    have hnil := List.filter_eq_nil_iff.mp (List.getLast?_eq_none_iff.mp hnone) _ ht.mem_tasksOf
    exact Bool.eq_false_iff.mpr hnil
  cases hd : s.recover.isDone with
  | false =>
      have hown : s.recover.ownsLog = false := by
        rcases h.reading hd with hr | ⟨m, hr, -⟩ <;> rw [hr] <;> rfl
      have hnil : s.endProcess.enqueued = [] := by
        simp [WalState.endProcess, (h.early (.inr hd)).2, (h.sound.idle hup hown).1]
      rw [hnil] at hlast
      cases hlast
  | true =>
      have hdone := isDone_iff.mp hd
      have hserve := h.serving hup hdone
      have hN := h.sound.numbered hup (by rw [hdone]; rfl)
      have hpend : ∀ t ∈ s.view.outstanding, Written s.log t → t.updates sid = false := fun t ht hw =>
        hno t (hw.pends (hserve.outstanding.pends t ht))
      -- The calls that were about to push.
      have hpush : updatesOf sid ((s.calls.filter (·.pc = .push)).map (·.task)) = [] := by
        refine List.filter_eq_nil_iff.mpr fun t ht => ?_
        obtain ⟨c, hc, rfl⟩ := List.mem_map.mp ht
        obtain ⟨hmem, hpc⟩ := List.mem_filter.mp hc
        have hpc' : c.pc = .push := by simpa using hpc
        have hmem' : c ∈ s.view.calls := List.mem_append_right _ hmem
        refine Bool.eq_false_iff.mp (hpend c.task ?_ (hN.pushing c hmem' hpc'))
        exact List.mem_append_left _ (List.mem_flatMap.mpr ⟨c, hmem', by simp [Call.numbered, hpc']⟩)
      -- The tasks that the worker had.
      have htasks : updatesOf sid (tasksFor s.workers sid) = [] := by
        refine List.filter_eq_nil_iff.mpr fun t ht => ?_
        have hmem : t ∈ s.view.tasks := by
          rw [tasksFor] at ht
          cases hw : s.workers[sid.toNat % s.workers.length]? with
          | none =>
              rw [hw] at ht
              cases ht
          | some w =>
              rw [hw] at ht
              exact List.mem_flatMap.mpr ⟨w, List.mem_of_getElem? hw, ht⟩
        refine Bool.eq_false_iff.mp (hpend t ?_ (hN.tasks t hmem))
        exact List.mem_append_right _ (List.mem_append_left _ hmem)
      obtain ⟨handled, heq, hstored⟩ := hserve.order sid
      have hhandled : handled.getLast? = some t := by
        have hlast' : (updatesOf sid (s.enqueued ++ (s.calls.filter (·.pc = .push)).map (·.task))).getLast? =
            some t := hlast
        rw [updatesOf_append, hpush, heq, htasks, List.append_nil, List.append_nil] at hlast'
        exact hlast'
      rcases hstored t hhandled with hdrop | hdb
      · have hmem : t ∈ updatesOf sid s.enqueued := by
          rw [heq]
          exact List.mem_append_left _ (List.mem_of_getLast? hhandled)
        have hu : t.updates sid = true := (List.mem_filter.mp hmem).2
        rw [hno t hdrop.pends] at hu
        cases hu
      · exact hdb

end

/-! ## A restart -/

/-- A process that starts with empty files runs for a life and ends.  The next one
recovers, nobody enqueues, and every statement is executed.  When all is processed,
the player data of every session is that of the last update enqueued for it exactly
if the newest pending updates had that data when the first process ended. -/
theorem latest_iff_newestPending (db : Database) (as as' : List Act) (n : Nat) (s s' : WalState)
    (hok : Machine.Meets step (fun s a => firstLifeOk s a) { db } as)
    (hrun : Machine.run step { db } as = some s)
    (hok' : Machine.Meets step (fun s a => replayOk s a) (s.endProcess.startProcess n) as')
    (hrun' : Machine.run step s (.crash :: .start n :: as') = some s') (hend : Settled s') :
    Latest s' ↔ NewestPending s := by
  have h : FirstLife s :=
    Machine.run_invariant_of_meets (fun _ _ _ h hok hs => h.step hok hs) (firstLife_init db) hok hrun
  obtain ⟨s₁, hcrash, hrun₁⟩ := Machine.run_cons_eq_some hrun'
  obtain ⟨s₂, hstart, hrun₂⟩ := Machine.run_cons_eq_some hrun₁
  simp only [step] at hcrash
  split at hcrash
  next hup =>
    cases hcrash
    simp only [step] at hstart
    split at hstart
    next hcond =>
      cases hstart
      have hn : 0 < n := by simpa using (Bool.and_eq_true_iff.mp hcond).2
      have hR := Machine.run_invariant_of_meets (fun _ _ _ h hok hs => Replaying.step h hok hs)
        (replaying_startProcess hn) hok' hrun₂
      have hplayers : ∀ sid, s'.db.players sid =
          dataAfter sid (tasksOf (parseWalFile (.empty, 0) s.primary).1.entries) (s.db.players sid) := by
        intro sid
        rw [hend.players sid, hR.outcome sid, WalState.outcome]
        have hws : tasksFor (s.endProcess.startProcess n).workers sid = [] := tasksFor_replicate n sid
        have hrep : (s.endProcess.startProcess n).replaying =
            tasksOf (parseWalFile (.empty, 0) s.primary).1.entries := by
          show tasksOf (parseWalFile (parseWalFile (.empty, 0) s.primary) s.bak).1.entries = _
          rw [h.bak]
          rfl
        rw [hws, hrep]
        rfl
      constructor
      · intro hlatest sid t t' ht ht'
        have hdata := hlatest sid t (by rw [hR.enqueued_eq]; exact ht)
        rw [hplayers sid, dataAfter, ht'] at hdata
        exact Option.some.inj hdata
      · intro hnewest sid t ht
        rw [hR.enqueued_eq] at ht
        rw [hplayers sid, dataAfter]
        cases hp : lastUpdate sid (tasksOf (parseWalFile (.empty, 0) s.primary).1.entries) with
        | some t' => exact congrArg some (hnewest sid t t' ht hp)
        | none => exact h.stored hup ht hp
    · cases hstart
  · cases hcrash

/-- A worker takes a task, and the database answers. -/
def workAll (answers : List DbAnswer) : List Act :=
  answers.flatMap fun answer => [.work 0 .ok, .work 0 .ok, .work 0 answer]

/-- Two updates of a session are enqueued.  The first is stored, and the second
fails. -/
def lastFailsTrace : List Act :=
  List.flatten
    [[.start 1], recoverAll 2, enqueueAll (update 1 "a"), enqueueAll (update 1 "b"),
      workAll [.ok], [.work 0 .ok], workAll [.error "busy"]]

/-- The update that is pending is enqueued again and processed. -/
def replayTrace : List Act := recoverAll (4 + 4 + 2) ++ workAll [.ok]

/-- The replay stores the second. -/
theorem latest_lastFailsTrace :
    ∃ s s', Machine.run step {} lastFailsTrace = some s ∧
      Machine.run step s (.crash :: .start 1 :: replayTrace) = some s' ∧
      s.db.players 1 = some ['a'] ∧ s'.db.players 1 = some ['b'] ∧ (Latest s' ↔ NewestPending s) :=
  ⟨_, _, rfl, rfl, by decide +kernel, by decide +kernel,
    latest_iff_newestPending {} lastFailsTrace replayTrace 1 _ _ (by decide +kernel) rfl
      (by decide +kernel) rfl ⟨by decide +kernel, by decide +kernel⟩⟩

/-- The first fails, and the second is stored and acknowledged. -/
def firstFailsTrace : List Act :=
  List.flatten
    [[.start 1], recoverAll 2, enqueueAll (update 1 "a"), enqueueAll (update 1 "b"),
      workAll [.error "busy", .ok], [.work 0 .ok]]

/-- The replay stores the first. -/
theorem replay_overwrites_newer :
    ∃ s s', Machine.run step {} firstFailsTrace = some s ∧
      Machine.run step s (.crash :: .start 1 :: replayTrace) = some s' ∧ Settled s' ∧
      s.db.players 1 = some ['b'] ∧ s'.db.players 1 = some ['a'] ∧ ¬ Latest s' := by
  refine ⟨_, _, rfl, rfl, ⟨by decide +kernel, by decide +kernel⟩, by decide +kernel, by decide +kernel,
    fun h => ?_⟩
  have hplayers := h 1 ⟨1, .updatePlayerData, 1, ['b'], false, 2⟩ (by decide +kernel)
  revert hplayers
  decide +kernel

end NetworkModule.Wal
