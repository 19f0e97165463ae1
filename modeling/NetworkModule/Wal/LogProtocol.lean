import NetworkModule.Wal.Queue
import NetworkModule.Wal.Records

/-!
# The protocol of the log

What the queue does to its log in one life, apart from the threads that do it.  A
`View` has the records of the log, the calls in progress and the tasks that the
workers have.  `LogStep` lists what can happen: a call takes a sequence number,
writes its `P` line, pushes its task or cancels it with a `D` line, and a worker
processes a task and writes its `D` line.

`Numbered` is what keeps the log readable: no number is used twice, and a `D` line
is written only for the task of the `P` line with its number.  Every step of the
protocol keeps it (`Numbered.step`), and the steps of the queue are steps of the
protocol (`callStep_logStep`, `workStep_logStep`).
-/

namespace NetworkModule.Wal

/-! ## Views -/

/-- The tasks of a worker that are still to be processed. -/
def Worker.tasks (w : Worker) : List DBTask :=
  match w.pc with
  | .process t => t :: w.taskQueue
  | _ => w.taskQueue

/-- The task of a worker that is processed and not acknowledged. -/
def Worker.dones (w : Worker) : List DBTask :=
  match w.pc with
  | .writeDone t => [t]
  | _ => []

/-- The call that `WalRecover` has in progress. -/
def RecoverPc.call : RecoverPc → Option Call
  | .requeue _ call _ => call
  | _ => none

/-- The records of the primary file. -/
def WalState.log (s : WalState) : List WalRecord := records (s.primary.getD [])

/-- The records of the backup file. -/
def WalState.backupLog (s : WalState) : List WalRecord := records (s.bak.getD [])

/-- What the protocol sees of a state. -/
structure View where
  log : List WalRecord
  seq : Nat
  calls : List Call
  tasks : List DBTask
  dones : List DBTask
  durable : List Nat
  rejected : List Nat
  processed : List Nat
  acked : List Nat

/-- The view of a state. -/
def WalState.view (s : WalState) : View where
  log := s.log
  seq := s.sGlobalSeq
  calls := s.recover.call.toList ++ s.calls
  tasks := s.workers.flatMap Worker.tasks
  dones := s.workers.flatMap Worker.dones
  durable := s.durable
  rejected := s.rejected
  processed := s.processed
  acked := s.acked

/-- One step of the protocol.  The order of the calls and of the tasks is not part
of it. -/
inductive LogStep (v : View) : View → Prop where
  /-- Nothing that the protocol knows of. -/
  | move {cs : List Call} {ts ds : List DBTask} (hc : cs.Perm v.calls) (ht : ts.Perm v.tasks)
      (hd : ds.Perm v.dones) : LogStep v { v with calls := cs, tasks := ts, dones := ds }
  | takeId (hlt : v.seq + 1 < 2 ^ 64) : LogStep v { v with seq := v.seq + 1 }
  | nextSeq {c : Call} {R cs : List Call} (h : v.calls.Perm (c :: R)) (hpc : c.pc = .nextSeq)
      (hlt : v.seq + 1 < 2 ^ 64)
      (h' : cs.Perm (⟨{ c.task with walSeq := v.seq + 1 }, .writePending⟩ :: R)) :
      LogStep v { v with seq := v.seq + 1, calls := cs }
  | writePending {c : Call} {R cs : List Call} (h : v.calls.Perm (c :: R))
      (hpc : c.pc = .writePending) (h' : cs.Perm (⟨c.task, .push⟩ :: R)) :
      LogStep v { v with
        log := v.log ++ [.pending c.task.walSeq (entryOf c.task)]
        durable := v.durable ++ [c.task.uid]
        calls := cs }
  | push {c : Call} {R cs : List Call} {ts ds : List DBTask} (h : v.calls.Perm (c :: R))
      (hpc : c.pc = .push) (h' : cs.Perm R) (ht : ts.Perm (c.task :: v.tasks))
      (hd : ds.Perm v.dones) : LogStep v { v with calls := cs, tasks := ts, dones := ds }
  | reject {c : Call} {R cs : List Call} (h : v.calls.Perm (c :: R)) (hpc : c.pc = .push)
      (h' : cs.Perm (⟨c.task, .writeDone⟩ :: R)) :
      LogStep v { v with rejected := v.rejected ++ [c.task.uid], calls := cs }
  | cancel {c : Call} {R cs : List Call} (h : v.calls.Perm (c :: R)) (hpc : c.pc = .writeDone)
      (h' : cs.Perm R) :
      LogStep v { v with
        log := v.log ++ [.done c.task.walSeq]
        acked := v.acked ++ [c.task.uid]
        calls := cs }
  /-- A handler fails, and the task is dropped. -/
  | fail {t : DBTask} {R ts ds : List DBTask} (h : v.tasks.Perm (t :: R)) (ht : ts.Perm R)
      (hd : ds.Perm v.dones) : LogStep v { v with tasks := ts, dones := ds }
  | succeed {t : DBTask} {R ts ds : List DBTask} (h : v.tasks.Perm (t :: R)) (ht : ts.Perm R)
      (hd : ds.Perm (t :: v.dones)) :
      LogStep v { v with processed := v.processed ++ [t.uid], tasks := ts, dones := ds }
  | ack {t : DBTask} {R ts ds : List DBTask} (h : v.dones.Perm (t :: R)) (ht : ts.Perm v.tasks)
      (hd : ds.Perm R) :
      LogStep v { v with
        log := v.log ++ [.done t.walSeq]
        acked := v.acked ++ [t.uid]
        tasks := ts
        dones := ds }

/-! ## Numbering -/

/-- The log has the `P` line of the task. -/
def Written (log : List WalRecord) (t : DBTask) : Prop :=
  ∃ e, .pending t.walSeq e ∈ log ∧ e.uid = t.uid

theorem Written.append {log : List WalRecord} {t : DBTask} (h : Written log t) (r : WalRecord) :
    Written (log ++ [r]) t := by
  obtain ⟨e, he, hu⟩ := h
  exact ⟨e, List.mem_append_left _ he, hu⟩

/-- What holds of the log and its writers. -/
structure Numbered (v : View) : Prop where
  seq_lt : v.seq < 2 ^ 64
  proper : Proper v.log
  seq_le : ∀ r ∈ v.log, ∀ q, r.seq? = some q → q ≤ v.seq
  /-- A number has one `P` line. -/
  unique : ∀ q e e', .pending q e ∈ v.log → .pending q e' ∈ v.log → e = e'
  tasks : ∀ t ∈ v.tasks, Written v.log t
  dones : ∀ t ∈ v.dones, Written v.log t ∧ t.uid ∈ v.processed
  pushing : ∀ c ∈ v.calls, c.pc = .push → Written v.log c.task
  canceling : ∀ c ∈ v.calls, c.pc = .writeDone → Written v.log c.task ∧ c.task.uid ∈ v.rejected
  /-- The number of a call that is about to write is not in the log. -/
  writing : ∀ c ∈ v.calls, c.pc = .writePending →
    0 < c.task.walSeq ∧ c.task.walSeq ≤ v.seq ∧ ∀ r ∈ v.log, r.seq? ≠ some c.task.walSeq
  distinct : ((v.calls.filter (·.pc = .writePending)).map (·.task.walSeq)).Nodup
  data : ∀ c ∈ v.calls, c.pc = .nextSeq ∨ c.pc = .writePending → '\n' ∉ c.task.data

section
variable {v v' : View}

theorem Written.walSeq_pos {log : List WalRecord} {t : DBTask} (h : Written log t)
    (hp : Proper log) : 0 < t.walSeq := by
  obtain ⟨e, he, -⟩ := h
  obtain ⟨q, hq, hpos, -⟩ := hp _ he
  cases hq
  exact hpos

theorem Numbered.walSeq_le (h : Numbered v) {t : DBTask} (ht : Written v.log t) :
    t.walSeq ≤ v.seq := by
  obtain ⟨e, he, -⟩ := ht
  exact h.seq_le _ he _ rfl

/-- An entry that is pending under the number of a task is the entry of that task. -/
theorem Numbered.uid_eq (h : Numbered v) {t : DBTask} (ht : Written v.log t) {e : WalEntry}
    (he : pendingAt t.walSeq none v.log = some e) : e.uid = t.uid := by
  obtain ⟨e', he', hu⟩ := ht
  rw [h.unique _ _ _ (mem_of_pending he) he', hu]

theorem Numbered.move (h : Numbered v) {cs : List Call} {ts ds : List DBTask}
    (hc : cs.Perm v.calls) (ht : ∀ t ∈ ts, t ∈ v.tasks) (hd : ∀ t ∈ ds, t ∈ v.dones) :
    Numbered { v with calls := cs, tasks := ts, dones := ds } where
  seq_lt := h.seq_lt
  proper := h.proper
  seq_le := h.seq_le
  unique := h.unique
  tasks := fun t hm => h.tasks t (ht t hm)
  dones := fun t hm => h.dones t (hd t hm)
  pushing := fun c hm => h.pushing c (hc.mem_iff.mp hm)
  canceling := fun c hm => h.canceling c (hc.mem_iff.mp hm)
  writing := fun c hm => h.writing c (hc.mem_iff.mp hm)
  distinct := ((hc.filter _).map _).nodup_iff.mpr h.distinct
  data := fun c hm => h.data c (hc.mem_iff.mp hm)

/-- A call that is past its write, or has not begun, may be changed to another such
call or be dropped. -/
theorem Numbered.replaceCall (h : Numbered v) (cs' : List Call) {c : Call} {R cs : List Call}
    (hp : v.calls.Perm (c :: R)) (hcs : cs.Perm (cs' ++ R))
    (hpush : ∀ d ∈ cs', d.pc = .push → Written v.log d.task)
    (hcancel : ∀ d ∈ cs', d.pc = .writeDone → Written v.log d.task ∧ d.task.uid ∈ v.rejected)
    (hpc : ∀ d ∈ cs', d.pc ≠ .writePending)
    (hdata : ∀ d ∈ cs', d.pc = .nextSeq → '\n' ∉ d.task.data) :
    Numbered { v with calls := cs } := by
  have hmem : ∀ d ∈ cs, d ∈ cs' ∨ d ∈ v.calls := by
    intro d hd
    rcases List.mem_append.mp (hcs.mem_iff.mp hd) with hd | hd
    · exact .inl hd
    · exact .inr (hp.mem_iff.mpr (List.mem_cons_of_mem _ hd))
  have hnone : cs'.filter (·.pc = .writePending) = [] :=
    List.filter_eq_nil_iff.mpr fun d hd => by simpa using hpc d hd
  refine ⟨h.seq_lt, h.proper, h.seq_le, h.unique, h.tasks, h.dones, ?_, ?_, ?_, ?_, ?_⟩
  · intro d hd he
    rcases hmem d hd with hd | hd
    · exact hpush d hd he
    · exact h.pushing d hd he
  · intro d hd he
    rcases hmem d hd with hd | hd
    · exact hcancel d hd he
    · exact h.canceling d hd he
  · intro d hd he
    rcases hmem d hd with hd | hd
    · exact absurd he (hpc d hd)
    · exact h.writing d hd he
  · refine ((hcs.filter _).map _).nodup_iff.mpr ?_
    have hsub : (R.filter (·.pc = .writePending)).Sublist ((c :: R).filter (·.pc = .writePending)) :=
      (List.sublist_cons_self c R).filter _
    rw [List.filter_append, hnone, List.nil_append]
    exact (((hp.filter _).map _).nodup_iff.mp h.distinct).sublist (hsub.map _)
  · intro d hd he
    rcases hmem d hd with hd | hd
    · rcases he with he | he
      · exact hdata d hd he
      · exact absurd he (hpc d hd)
    · exact h.data d hd he

/-- A `D` line for a task of the log. -/
theorem Numbered.appendDone (h : Numbered v) {t : DBTask} (ht : Written v.log t) :
    Numbered { v with log := v.log ++ [.done t.walSeq], acked := v.acked ++ [t.uid] } := by
  have hpos := ht.walSeq_pos h.proper
  have hmem : ∀ q e, .pending q e ∈ v.log ++ [.done t.walSeq] → .pending q e ∈ v.log := by
    intro q e he
    rcases List.mem_append.mp he with he | he
    · exact he
    · cases List.mem_singleton.mp he
  refine ⟨h.seq_lt, h.proper.append rfl hpos (by intro e he; cases he), ?_, ?_, ?_, ?_, ?_, ?_, ?_,
    h.distinct, h.data⟩
  · intro r hr q hq
    rcases List.mem_append.mp hr with hr | hr
    · exact h.seq_le r hr q hq
    · rw [List.mem_singleton.mp hr] at hq
      cases hq
      exact h.walSeq_le ht
  · intro q e e' he he'
    exact h.unique q e e' (hmem q e he) (hmem q e' he')
  · exact fun t' ht' => (h.tasks t' ht').append _
  · exact fun t' ht' => ⟨(h.dones t' ht').1.append _, (h.dones t' ht').2⟩
  · exact fun c hc he => (h.pushing c hc he).append _
  · exact fun c hc he => ⟨(h.canceling c hc he).1.append _, (h.canceling c hc he).2⟩
  · intro c hc he
    obtain ⟨hpos', hle, hnew⟩ := h.writing c hc he
    refine ⟨hpos', hle, fun r hr heq => ?_⟩
    rcases List.mem_append.mp hr with hr | hr
    · exact hnew r hr heq
    · rw [List.mem_singleton.mp hr] at heq
      obtain ⟨e, he', -⟩ := ht
      exact hnew _ he' heq

/-- A call takes the next number. -/
theorem Numbered.nextSeq (h : Numbered v) {c : Call} {R cs : List Call}
    (hp : v.calls.Perm (c :: R)) (hpc : c.pc = .nextSeq) (hlt : v.seq + 1 < 2 ^ 64)
    (hcs : cs.Perm (⟨{ c.task with walSeq := v.seq + 1 }, .writePending⟩ :: R)) :
    Numbered { v with seq := v.seq + 1, calls := cs } := by
  have hR : ∀ d ∈ R, d ∈ v.calls := fun d hd => hp.mem_iff.mpr (List.mem_cons_of_mem _ hd)
  have hc : c ∈ v.calls := hp.mem_iff.mpr List.mem_cons_self
  have hmem : ∀ d ∈ cs, d = ⟨{ c.task with walSeq := v.seq + 1 }, .writePending⟩ ∨ d ∈ v.calls := by
    intro d hd
    exact (List.mem_cons.mp (hcs.mem_iff.mp hd)).imp_right (hR d)
  have hdistinct : ((R.filter (·.pc = .writePending)).map (·.task.walSeq)).Nodup :=
    (((hp.filter _).map _).nodup_iff.mp h.distinct).sublist
      (((List.sublist_cons_self c R).filter _).map _)
  refine ⟨hlt, h.proper, fun r hr q hq => Nat.le_succ_of_le (h.seq_le r hr q hq), h.unique, h.tasks,
    h.dones, ?_, ?_, ?_, ?_, ?_⟩
  · intro d hd he
    rcases hmem d hd with rfl | hd
    · cases he
    · exact h.pushing d hd he
  · intro d hd he
    rcases hmem d hd with rfl | hd
    · cases he
    · exact h.canceling d hd he
  · intro d hd he
    rcases hmem d hd with rfl | hd
    · refine ⟨Nat.succ_pos _, le_refl _, fun r hr heq => ?_⟩
      have hle := h.seq_le r hr _ heq
      exact absurd hle (Nat.not_succ_le_self _)
    · obtain ⟨hpos, hle, hnew⟩ := h.writing d hd he
      exact ⟨hpos, Nat.le_succ_of_le hle, hnew⟩
  · refine ((hcs.filter _).map _).nodup_iff.mpr ?_
    rw [List.filter_cons_of_pos (by simp), List.map_cons]
    refine List.nodup_cons.mpr ⟨fun hin => ?_, hdistinct⟩
    obtain ⟨d, hd, heq⟩ := List.mem_map.mp hin
    obtain ⟨hdR, hdpc⟩ := List.mem_filter.mp hd
    have hle := (h.writing d (hR d hdR) (by simpa using hdpc)).2.1
    have heq' : d.task.walSeq = v.seq + 1 := heq
    omega
  · intro d hd he
    rcases hmem d hd with rfl | hd
    · exact h.data c hc (.inl hpc)
    · exact h.data d hd he

/-- A call writes its `P` line. -/
theorem Numbered.writePending (h : Numbered v) {c : Call} {R cs : List Call}
    (hp : v.calls.Perm (c :: R)) (hpc : c.pc = .writePending)
    (hcs : cs.Perm (⟨c.task, .push⟩ :: R)) :
    Numbered { v with
      log := v.log ++ [.pending c.task.walSeq (entryOf c.task)]
      durable := v.durable ++ [c.task.uid]
      calls := cs } := by
  have hR : ∀ d ∈ R, d ∈ v.calls := fun d hd => hp.mem_iff.mpr (List.mem_cons_of_mem _ hd)
  have hc : c ∈ v.calls := hp.mem_iff.mpr List.mem_cons_self
  obtain ⟨hpos, hle, hnew⟩ := h.writing c hc hpc
  have hdata : '\n' ∉ (entryOf c.task).data :=
    notMem_unescape (notMem_escape (h.data c hc (.inr hpc)))
  have hmem : ∀ d ∈ cs, d = ⟨c.task, .push⟩ ∨ d ∈ v.calls := by
    intro d hd
    exact (List.mem_cons.mp (hcs.mem_iff.mp hd)).imp_right (hR d)
  have hnodup : (c.task.walSeq :: (R.filter (·.pc = .writePending)).map (·.task.walSeq)).Nodup := by
    have := ((hp.filter (·.pc = .writePending)).map (·.task.walSeq)).nodup_iff.mp h.distinct
    rw [List.filter_cons_of_pos (by simpa using hpc)] at this
    exact this
  refine ⟨h.seq_lt, h.proper.append rfl hpos fun e he => ?_, ?_, ?_, fun t ht => (h.tasks t ht).append _,
    fun t ht => ⟨(h.dones t ht).1.append _, (h.dones t ht).2⟩, ?_, ?_, ?_, ?_, ?_⟩
  · cases he
    exact hdata
  · intro r hr q hq
    rcases List.mem_append.mp hr with hr | hr
    · exact h.seq_le r hr q hq
    · rw [List.mem_singleton.mp hr] at hq
      cases hq
      exact hle
  · intro q e e' he he'
    rcases List.mem_append.mp he with he | he <;> rcases List.mem_append.mp he' with he' | he'
    · exact h.unique q e e' he he'
    · cases List.mem_singleton.mp he'
      exact absurd rfl (hnew _ he)
    · cases List.mem_singleton.mp he
      exact absurd rfl (hnew _ he')
    · cases List.mem_singleton.mp he
      cases List.mem_singleton.mp he'
      rfl
  · intro d hd he
    rcases hmem d hd with rfl | hd
    · exact ⟨_, List.mem_append_right _ (List.mem_singleton_self _), rfl⟩
    · exact (h.pushing d hd he).append _
  · intro d hd he
    rcases hmem d hd with rfl | hd
    · cases he
    · exact ⟨(h.canceling d hd he).1.append _, (h.canceling d hd he).2⟩
  · intro d hd he
    rcases List.mem_cons.mp (hcs.mem_iff.mp hd) with rfl | hdR
    · cases he
    · obtain ⟨hpos', hle', hnew'⟩ := h.writing d (hR d hdR) he
      refine ⟨hpos', hle', fun r hr heq => ?_⟩
      rcases List.mem_append.mp hr with hr | hr
      · exact hnew' r hr heq
      · rw [List.mem_singleton.mp hr] at heq
        have hsame : c.task.walSeq = d.task.walSeq := Option.some.inj heq
        refine (List.nodup_cons.mp hnodup).1 (List.mem_map.mpr ⟨d, ?_, hsame.symm⟩)
        exact List.mem_filter.mpr ⟨hdR, by simpa using he⟩
  · refine ((hcs.filter _).map _).nodup_iff.mpr ?_
    rw [List.filter_cons_of_neg (by simp)]
    exact (List.nodup_cons.mp hnodup).2
  · intro d hd he
    rcases hmem d hd with rfl | hd
    · rcases he with he | he <;> cases he
    · exact h.data d hd he

/-- Every step of the protocol keeps the numbering. -/
theorem Numbered.step (h : Numbered v) (hs : LogStep v v') : Numbered v' := by
  cases hs with
  | move hc ht hd => exact h.move hc (fun t hm => ht.mem_iff.mp hm) fun t hm => hd.mem_iff.mp hm
  | takeId hlt =>
      refine ⟨hlt, h.proper, fun r hr q hq => Nat.le_succ_of_le (h.seq_le r hr q hq), h.unique,
        h.tasks, h.dones, h.pushing, h.canceling, fun c hc he => ?_, h.distinct, h.data⟩
      obtain ⟨hpos, hle, hnew⟩ := h.writing c hc he
      exact ⟨hpos, Nat.le_succ_of_le hle, hnew⟩
  | nextSeq hp hpc hlt hcs => exact h.nextSeq hp hpc hlt hcs
  | writePending hp hpc hcs => exact h.writePending hp hpc hcs
  | push hp hpc hcs ht hd =>
      have hc := h.pushing _ (hp.mem_iff.mpr List.mem_cons_self) hpc
      have h' := h.replaceCall [] hp (by simpa using hcs) (by simp) (by simp) (by simp) (by simp)
      refine { h' with tasks := fun t hm => ?_, dones := fun t hm => h.dones t (hd.mem_iff.mp hm) }
      rcases List.mem_cons.mp (ht.mem_iff.mp hm) with rfl | hm
      · exact hc
      · exact h.tasks t hm
  | @reject c R cs hp hpc hcs =>
      have hc := h.pushing _ (hp.mem_iff.mpr List.mem_cons_self) hpc
      have h' : Numbered { v with rejected := v.rejected ++ [c.task.uid] } :=
        { h with canceling := fun d hd he =>
            ⟨(h.canceling d hd he).1, List.mem_append_left _ (h.canceling d hd he).2⟩ }
      refine h'.replaceCall [⟨c.task, .writeDone⟩] hp hcs ?_ ?_ ?_ ?_
      · intro d hd he
        cases List.mem_singleton.mp hd
        cases he
      · intro d hd _
        cases List.mem_singleton.mp hd
        exact ⟨hc, List.mem_append_right _ (List.mem_singleton_self _)⟩
      · intro d hd he
        cases List.mem_singleton.mp hd
        cases he
      · intro d hd he
        cases List.mem_singleton.mp hd
        cases he
  | cancel hp hpc hcs =>
      have hc := (h.canceling _ (hp.mem_iff.mpr List.mem_cons_self) hpc).1
      exact (h.appendDone hc).replaceCall [] hp (by simpa using hcs) (by simp) (by simp) (by simp)
        (by simp)
  | fail hp ht hd =>
      exact h.move (List.Perm.refl _) (fun t hm => hp.mem_iff.mpr
        (List.mem_cons_of_mem _ (ht.mem_iff.mp hm))) fun t hm => hd.mem_iff.mp hm
  | @succeed t R ts ds hp ht hd =>
      have hR : ∀ t' ∈ ts, t' ∈ v.tasks := fun t' hm =>
        hp.mem_iff.mpr (List.mem_cons_of_mem _ (ht.mem_iff.mp hm))
      refine { h with tasks := fun t' hm => h.tasks t' (hR t' hm), dones := fun t' hm => ?_ }
      rcases List.mem_cons.mp (hd.mem_iff.mp hm) with rfl | hm
      · exact ⟨h.tasks _ (hp.mem_iff.mpr List.mem_cons_self),
          List.mem_append_right _ (List.mem_singleton_self _)⟩
      · exact ⟨(h.dones t' hm).1, List.mem_append_left _ (h.dones t' hm).2⟩
  | ack hp ht hd =>
      have hw := (h.dones _ (hp.mem_iff.mpr List.mem_cons_self)).1
      exact (h.appendDone hw).move (List.Perm.refl _) (fun t hm => ht.mem_iff.mp hm)
        fun t hm => hp.mem_iff.mpr (List.mem_cons_of_mem _ (hd.mem_iff.mp hm))

end

/-! ## The queue follows the protocol -/

/-- Changing one worker changes the lists of tasks at one place. -/
theorem flatMap_set_perm {f : Worker → List DBTask} {ws : List Worker} {p : Nat} {w : Worker}
    (hw : ws[p]? = some w) : ∃ R, (ws.flatMap f).Perm (f w ++ R) ∧
      ∀ w', ((ws.set p w').flatMap f).Perm (f w' ++ R) := by
  induction ws generalizing p with
  | nil => cases hw
  | cons x ws ih =>
      cases p with
      | zero =>
          cases hw
          exact ⟨ws.flatMap f, List.Perm.refl _, fun w' => List.Perm.refl _⟩
      | succ p =>
          obtain ⟨R, hR, hset⟩ := ih hw
          refine ⟨f x ++ R, ?_, fun w' => ?_⟩
          · exact (hR.append_left (f x)).trans (List.perm_append_comm_assoc _ _ _)
          · exact ((hset w').append_left (f x)).trans (List.perm_append_comm_assoc _ _ _)

section
variable {s s' : WalState}

@[simp] theorem log_append (s : WalState) (c : Chunk) :
    (s.append c).log = records (s.primary.getD [] ++ [c]) := rfl

theorem log_walWritePending {t : DBTask} (hseq : t.walSeq < 2 ^ 64) (hdata : '\n' ∉ t.data) :
    (s.walWritePending t).log = s.log ++ [.pending t.walSeq (entryOf t)] :=
  records_append_pending _ hseq hdata

theorem log_walWriteDone {t : DBTask} (hseq : t.walSeq < 2 ^ 64) :
    (s.walWriteDone t).log = s.log ++ [.done t.walSeq] := records_append_done _ hseq

/-- The task goes to a worker that there is. -/
theorem tasks_pushTask (hw : 0 < s.workers.length) (t : DBTask) :
    (s.pushTask t).view.tasks.Perm (t :: s.view.tasks) ∧
      (s.pushTask t).view.dones.Perm s.view.dones := by
  have hlt : t.sessionId.toNat % s.workers.length < s.workers.length := Nat.mod_lt _ hw
  obtain ⟨w, hget⟩ : ∃ w, s.workers[t.sessionId.toNat % s.workers.length]? = some w :=
    ⟨_, List.getElem?_eq_getElem hlt⟩
  have hset : (s.pushTask t).workers =
      s.workers.set (t.sessionId.toNat % s.workers.length)
        { w with taskQueue := w.taskQueue ++ [t] } := by
    rw [WalState.pushTask]
    simp only [List.modify_eq_set_getElem?, hget]
    rfl
  simp only [WalState.view, hset]
  constructor
  · obtain ⟨R, hR, hR'⟩ := flatMap_set_perm (f := Worker.tasks) hget
    have htasks : (Worker.tasks { w with taskQueue := w.taskQueue ++ [t] }).Perm (t :: w.tasks) := by
      have hcomm : (w.taskQueue ++ [t]).Perm (t :: w.taskQueue) := List.perm_append_singleton _ _
      simp only [Worker.tasks]
      split
      · exact (hcomm.cons _).trans (List.Perm.swap _ _ _)
      · exact hcomm
    exact (hR' _).trans ((htasks.append_right R).trans (hR.symm.cons t))
  · obtain ⟨R, hR, hR'⟩ := flatMap_set_perm (f := Worker.dones) hget
    exact (hR' _).trans hR.symm

/-- A step of a call is a step of the protocol.  `R` are the other calls, and `cs`
the calls after the step. -/
theorem callStep_logStep (hN : Numbered s.view) (hw : 0 < s.workers.length)
    (hlt : s.sGlobalSeq + 1 < 2 ^ 64) {c : Call} {R cs : List Call} (hp : s.view.calls.Perm (c :: R))
    (hcs : cs.Perm ((callStep s c).2.toList ++ R)) :
    LogStep s.view { (callStep s c).1.view with calls := cs } := by
  have hc : c ∈ s.view.calls := hp.mem_iff.mpr List.mem_cons_self
  cases hpc : c.pc with
  | nextSeq =>
      have hseq : nextGlobalId s.sGlobalSeq = s.sGlobalSeq + 1 := Nat.mod_eq_of_lt hlt
      simp only [callStep, hpc, hseq] at hcs ⊢
      exact .nextSeq hp hpc hlt hcs
  | writePending =>
      have hle : c.task.walSeq ≤ s.sGlobalSeq := (hN.writing c hc hpc).2.1
      have hlog := log_walWritePending (s := s) (show c.task.walSeq < 2 ^ 64 by omega)
        (hN.data c hc (.inr hpc))
      simp only [callStep, hpc] at hcs ⊢
      have hstep := LogStep.writePending (v := s.view) hp hpc hcs
      have hview : { (s.walWritePending c.task).view with calls := cs } =
          { s.view with
            log := s.log ++ [.pending c.task.walSeq (entryOf c.task)]
            durable := s.durable ++ [c.task.uid]
            calls := cs } := by
        simp only [WalState.view, hlog]
        rfl
      rw [hview]
      exact hstep
  | push =>
      have hpos := (hN.pushing c hc hpc).walSeq_pos hN.proper
      simp only [callStep, hpc] at hcs ⊢
      split at hcs
      next hrun =>
        obtain ⟨ht, hd⟩ := tasks_pushTask hw c.task
        rw [if_pos hrun]
        exact .push hp hpc hcs ht hd
      next hrun =>
        rw [if_neg hrun]
        have hne : c.task.walSeq ≠ 0 := by omega
        rw [if_pos hne] at hcs ⊢
        exact .reject hp hpc hcs
  | writeDone =>
      have hw' := (hN.canceling c hc hpc).1
      have hle : c.task.walSeq ≤ s.sGlobalSeq := hN.walSeq_le hw'
      have hlog : ((s.walWriteDone c.task).callback c.task false "DBTaskQueue shutting down").log =
          s.log ++ [.done c.task.walSeq] := log_walWriteDone (by omega)
      simp only [callStep, hpc] at hcs ⊢
      have hstep := LogStep.cancel (v := s.view) hp hpc hcs
      have hview : { ((s.walWriteDone c.task).callback c.task false
            "DBTaskQueue shutting down").view with calls := cs } =
          { s.view with
            log := s.log ++ [.done c.task.walSeq]
            acked := s.acked ++ [c.task.uid]
            calls := cs } := by
        simp only [WalState.view, hlog]
        rfl
      rw [hview]
      exact hstep

/-- A step of a worker is a step of the protocol. -/
theorem workStep_logStep (hN : Numbered s.view) {p : Nat} {w : Worker} {answer : DbAnswer}
    (hget : s.workers[p]? = some w) (hs : workStep s p w answer = some s') :
    LogStep s.view s'.view := by
  obtain ⟨R, hR, hR'⟩ := flatMap_set_perm (f := Worker.tasks) hget
  obtain ⟨D, hD, hD'⟩ := flatMap_set_perm (f := Worker.dones) hget
  -- A step that changes only where the worker stands.
  have hmove : ∀ w' : Worker, w'.tasks = w.tasks → w'.dones = w.dones →
      LogStep s.view (s.setWorker p w').view := by
    intro w' ht hd
    have ht' := (hR' w').trans (ht ▸ hR.symm)
    have hd' := (hD' w').trans (hd ▸ hD.symm)
    exact .move (List.Perm.refl _) ht' hd'
  cases hpc : w.pc with
  | head =>
      simp only [workStep, hpc] at hs
      cases hs
      cases s.mIsRunning with
      | true => exact hmove _ (by simp [Worker.tasks, hpc]) (by simp [Worker.dones, hpc])
      | false => exact hmove _ (by simp [Worker.tasks, hpc]) (by simp [Worker.dones, hpc])
  | waiting =>
      simp only [workStep, hpc] at hs
      split at hs
      next t rest hq =>
        cases hs
        exact hmove _ (by simp [Worker.tasks, hpc, hq]) (by simp [Worker.dones, hpc])
      next hq =>
        split at hs
        · cases hs
        · cases hs
          exact hmove _ (by simp [Worker.tasks, hpc]) (by simp [Worker.dones, hpc])
  | process t =>
      simp only [workStep, hpc] at hs
      cases hs
      have htasks : w.tasks = t :: w.taskQueue := by simp [Worker.tasks, hpc]
      have hdones : w.dones = [] := by simp [Worker.dones, hpc]
      have hmem : t ∈ s.view.tasks := hR.mem_iff.mpr (by simp [htasks])
      have hpos := (hN.tasks t hmem).walSeq_pos hN.proper
      rw [htasks] at hR
      rw [hdones] at hD
      cases hr : (processResult t answer).1 with
      | true =>
          have hafter : afterProcess t answer = .writeDone t := by
            simp only [afterProcess, hr, Bool.true_and, ne_eq, decide_not, Bool.not_eq_eq_eq_not,
              Bool.not_true, decide_eq_false_iff_not, ite_eq_left_iff]
            omega
          have hproc : (processTask s t answer).processed = s.processed ++ [t.uid] := by
            simp only [processTask, hr, if_true]
          have hview : ((processTask s t answer).setWorker p { w with pc := .writeDone t }).view =
              { (s.setWorker p { w with pc := .writeDone t }).view with
                processed := s.processed ++ [t.uid] } := by
            rw [← hproc]
            rfl
          rw [hafter, hview]
          exact .succeed hR (hR' _) ((hD' _).trans (hD.symm.cons t))
      | false =>
          have hafter : afterProcess t answer = .head := by simp [afterProcess, hr]
          have hproc : (processTask s t answer).processed = s.processed := by
            simp only [processTask, hr, Bool.false_eq_true, if_false]
          have hview : ((processTask s t answer).setWorker p { w with pc := .head }).view =
              { (s.setWorker p { w with pc := .head }).view with processed := s.processed } := by
            rw [← hproc]
            rfl
          rw [hafter, hview]
          exact .fail hR (hR' _) ((hD' _).trans hD.symm)
  | writeDone t =>
      simp only [workStep, hpc] at hs
      cases hs
      have htasks : w.tasks = w.taskQueue := by simp [Worker.tasks, hpc]
      have hdones : w.dones = [t] := by simp [Worker.dones, hpc]
      have hmem : t ∈ s.view.dones := hD.mem_iff.mpr (by simp [hdones])
      have hle : t.walSeq ≤ s.sGlobalSeq := hN.walSeq_le (hN.dones t hmem).1
      have hlt : s.sGlobalSeq < 2 ^ 64 := hN.seq_lt
      have hlog : ((s.walWriteDone t).setWorker p { w with pc := .head }).log =
          s.log ++ [.done t.walSeq] := log_walWriteDone (by omega)
      rw [htasks] at hR
      rw [hdones] at hD
      have hview : ((s.walWriteDone t).setWorker p { w with pc := .head }).view =
          { (s.setWorker p { w with pc := .head }).view with
            log := s.log ++ [.done t.walSeq]
            acked := s.acked ++ [t.uid] } := by
        rw [← hlog]
        rfl
      rw [hview]
      exact .ack hD ((hR' _).trans hR.symm) (hD' _)
  | stopped =>
      simp only [workStep, hpc] at hs
      split at hs
      next t rest hq =>
        split at hs
        · cases hs
          exact hmove _ (by simp [Worker.tasks, hpc, hq]) (by simp [Worker.dones, hpc])
        · cases hs
      next => cases hs

end

end NetworkModule.Wal
