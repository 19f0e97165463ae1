import NetworkModule.Wal.Durability
import Mathlib

/-!
# No acknowledged task comes back

A `D` line retires the task of its number.  `NeverAgain` states what that is for:
`WalRecover` never enqueues a task again for which a `D` line was written.

While `WalRecover` enqueues, the old lines of the tasks are still in the backup, and
their new lines have other numbers.  A `D` line for a new number does not retire the
old line.  So a crash with a backup beside a log of the new life brings back what
the workers have finished in between.  `neverAgain_of_oneFile` says that this is the
only way: it holds in every run in which a crash never leaves both files.
-/

namespace NetworkModule.Wal

/-! ## The promise -/

/-- No task was enqueued again after a `D` line for it. -/
def NeverAgain (s : WalState) : Prop := ∀ r ∈ s.replays, r.acked = false

/-- A crash leaves one file at most. -/
def oneFile (s : WalState) : Act → Bool
  | .crash => s.primary.isNone || s.bak.isNone
  | _ => true

/-! ## Each task once -/

/-- The task of a `P` line. -/
def WalRecord.uid? : WalRecord → Option Nat
  | .pending _ e => some e.uid
  | _ => none

/-- The tasks with a `P` line, with repetitions. -/
def logUids (rs : List WalRecord) : List Nat := rs.filterMap WalRecord.uid?

theorem mem_logUids {rs : List WalRecord} {q : Nat} {e : WalEntry} (h : .pending q e ∈ rs) :
    e.uid ∈ logUids rs := List.mem_filterMap.mpr ⟨_, h, rfl⟩

/-- If no task has two `P` lines, two lines of one task have one number. -/
theorem seq_eq_of_uid_eq {rs : List WalRecord} (h : (logUids rs).Nodup) {q q' : Nat}
    {e e' : WalEntry} (he : .pending q e ∈ rs) (he' : .pending q' e' ∈ rs) (hu : e.uid = e'.uid) :
    q = q' ∧ e = e' := by
  induction rs with
  | nil => cases he
  | cons r rs ih =>
      have htail : (logUids rs).Nodup := h.sublist ((List.sublist_cons_self r rs).filterMap _)
      rcases List.mem_cons.mp he with rfl | hm <;> rcases List.mem_cons.mp he' with heq | hm'
      · cases heq
        exact ⟨rfl, rfl⟩
      · have hnot : e.uid ∉ logUids rs := (List.nodup_cons.mp h).1
        exact absurd (hu ▸ mem_logUids hm') hnot
      · subst heq
        have hnot : e'.uid ∉ logUids rs := (List.nodup_cons.mp h).1
        exact absurd (hu ▸ mem_logUids hm) hnot
      · exact ih htail hm hm'

/-- The tasks of the calls whose `P` line is still to be written. -/
def View.unwritten (v : View) : List Nat := v.calls.flatMap Call.unwritten

/-- Every task is at one place: still to be enqueued again (`X`), in a call before its
`P` line, or in the log.  The acknowledged ones are none of these, or not pending.
`n` bounds the numbers of the tasks. -/
structure Once (n : Nat) (X : List Nat) (v : View) : Prop where
  count : ∀ u, X.count u + v.unwritten.count u + (logUids v.log).count u ≤ 1
  acked : ∀ u ∈ v.acked, u ∉ X ∧ u ∉ v.unwritten ∧ ¬ Pending v.log u
  bound : ∀ u, u ∈ X ∨ u ∈ v.unwritten ∨ u ∈ logUids v.log ∨ u ∈ v.acked → u < n

section
variable {n : Nat} {X : List Nat} {v v' : View}

theorem Once.nodup (h : Once n X v) : (logUids v.log).Nodup := by
  refine List.nodup_iff_count.mpr fun u => ?_
  have := h.count u
  omega

/-- A step that moves calls without writing. -/
theorem Once.congr (h : Once n X v) (hlog : v'.log = v.log) (hacked : v'.acked = v.acked)
    (hp : v'.unwritten.Perm v.unwritten) : Once n X v' where
  count := by
    intro u
    rw [hlog, hp.count_eq]
    exact h.count u
  acked := by
    intro u hu
    rw [hacked] at hu
    rw [hp.mem_iff, hlog]
    exact h.acked u hu
  bound := by
    intro u hu
    rw [hp.mem_iff, hlog, hacked] at hu
    exact h.bound u hu

/-- A task that a record after the log does not touch. -/
theorem Pending.of_append {log : List WalRecord} {r : WalRecord} {u : Nat}
    (h : Pending (log ++ [r]) u) (hr : r.uid? ≠ some u) : Pending log u := by
  obtain ⟨q, e, he, hu⟩ := h
  rw [pendingAt_append] at he
  refine ⟨q, e, ?_, hu⟩
  cases r with
  | pending q' e' =>
      simp only [keyStep] at he
      split at he
      · cases hx : pendingAt q none log with
        | none =>
            rw [hx] at he
            cases he
            exact absurd (congrArg some hu) hr
        | some e'' =>
            rw [hx] at he
            exact he
      · exact he
  | done q' =>
      simp only [keyStep] at he
      split at he
      · cases he
      · exact he
  | seen q' => exact he
  | skip => exact he

/-- A `D` line retires its task. -/
theorem Once.appendDone (h : Once n X v) {t : DBTask} (ht : Written v.log t) {cs : List Call}
    {ts ds : List DBTask} (hcs : (cs.flatMap Call.unwritten).Perm v.unwritten) :
    Once n X { v with
      log := v.log ++ [.done t.walSeq]
      acked := v.acked ++ [t.uid]
      calls := cs
      tasks := ts
      dones := ds } := by
  obtain ⟨e₀, he₀, hu₀⟩ := ht
  have hlog : logUids (v.log ++ [.done t.walSeq]) = logUids v.log := by
    simp [logUids, WalRecord.uid?]
  have hin : t.uid ∈ logUids v.log := hu₀ ▸ mem_logUids he₀
  have hpos : 0 < (logUids v.log).count t.uid := List.count_pos_iff.mpr hin
  have hcount := h.count t.uid
  refine ⟨fun u => ?_, fun u hu => ?_, fun u hu => ?_⟩
  · show X.count u + (cs.flatMap Call.unwritten).count u + (logUids (v.log ++ [.done t.walSeq])).count u ≤ 1
    rw [hlog, hcs.count_eq]
    exact h.count u
  · show u ∉ X ∧ u ∉ cs.flatMap Call.unwritten ∧ ¬ Pending (v.log ++ [.done t.walSeq]) u
    rw [hcs.mem_iff]
    rcases List.mem_append.mp hu with hu | hu
    · obtain ⟨hX, hun, hpend⟩ := h.acked u hu
      exact ⟨hX, hun, fun hp => hpend (hp.of_append (by simp [WalRecord.uid?]))⟩
    · rw [List.mem_singleton.mp hu]
      refine ⟨?_, ?_, ?_⟩
      · rw [← List.count_eq_zero]
        omega
      · rw [← List.count_eq_zero]
        omega
      · -- Another line of the task would have the same number, which is done.
        rintro ⟨q, e, he, hue⟩
        rw [pendingAt_append] at he
        by_cases hq : q = t.walSeq
        · subst hq
          simp [keyStep] at he
        · have hseq : (WalRecord.done t.walSeq).seq? ≠ some q := fun heq =>
            hq (Option.some.inj heq).symm
          rw [keyStep_of_ne hseq] at he
          exact hq (seq_eq_of_uid_eq h.nodup (mem_of_pending he) he₀ (hue.trans hu₀.symm)).1
  · have hu' : u ∈ X ∨ u ∈ cs.flatMap Call.unwritten ∨ u ∈ logUids (v.log ++ [.done t.walSeq]) ∨
        u ∈ v.acked ++ [t.uid] := hu
    rw [hcs.mem_iff, hlog, List.mem_append, List.mem_singleton] at hu'
    rcases hu' with hu' | hu' | hu' | hu' | rfl
    · exact h.bound u (.inl hu')
    · exact h.bound u (.inr (.inl hu'))
    · exact h.bound u (.inr (.inr (.inl hu')))
    · exact h.bound u (.inr (.inr (.inr hu')))
    · exact h.bound _ (.inr (.inr (.inl hin)))

/-- A `P` line takes its task from the calls to the log. -/
theorem Once.writePending (h : Once n X v) {c : Call} {R cs : List Call}
    (hp : v.calls.Perm (c :: R)) (hpc : c.pc = .writePending)
    (hcs : cs.Perm (⟨c.task, .push⟩ :: R)) :
    Once n X { v with
      log := v.log ++ [.pending c.task.walSeq (entryOf c.task)]
      durable := v.durable ++ [c.task.uid]
      calls := cs } := by
  have hold : v.unwritten.Perm (c.task.uid :: R.flatMap Call.unwritten) := by
    have := hp.flatMap_right Call.unwritten
    simpa [View.unwritten, Call.unwritten, hpc] using this
  have hnew : (cs.flatMap Call.unwritten).Perm (R.flatMap Call.unwritten) := by
    simpa [Call.unwritten] using hcs.flatMap_right Call.unwritten
  have hlog : logUids (v.log ++ [.pending c.task.walSeq (entryOf c.task)]) =
      logUids v.log ++ [c.task.uid] := by
    simp [logUids, WalRecord.uid?, entryOf]
  refine ⟨fun u => ?_, fun u hu => ?_, fun u hu => ?_⟩
  · show X.count u + (cs.flatMap Call.unwritten).count u + (logUids _).count u ≤ 1
    have hcount := h.count u
    rw [hold.count_eq, List.count_cons] at hcount
    rw [hlog, hnew.count_eq, List.count_append, List.count_singleton]
    omega
  · show u ∉ X ∧ u ∉ cs.flatMap Call.unwritten ∧ ¬ Pending _ u
    obtain ⟨hX, hun, hpend⟩ := h.acked u hu
    rw [hold.mem_iff, List.mem_cons, not_or] at hun
    rw [hnew.mem_iff]
    refine ⟨hX, hun.2, fun hp => hpend (hp.of_append fun heq => hun.1 ?_)⟩
    exact (Option.some.inj heq).symm
  · have hu' : u ∈ X ∨ u ∈ cs.flatMap Call.unwritten ∨ u ∈ logUids _ ∨ u ∈ v.acked := hu
    rw [hnew.mem_iff, hlog, List.mem_append, List.mem_singleton] at hu'
    refine h.bound u ?_
    rw [hold.mem_iff, List.mem_cons]
    rcases hu' with hX | hun | (hin | rfl) | hacked
    · exact .inl hX
    · exact .inr (.inl (.inr hun))
    · exact .inr (.inr (.inl hin))
    · exact .inr (.inl (.inl rfl))
    · exact .inr (.inr (.inr hacked))

/-- A task that is to be enqueued again goes to a call. -/
theorem Once.requeue {u₀ : Nat} (h : Once n (u₀ :: X) v) (hlog : v'.log = v.log)
    (hacked : v'.acked = v.acked) (hp : v'.unwritten.Perm (u₀ :: v.unwritten)) : Once n X v' where
  count := by
    intro u
    have hcount := h.count u
    rw [List.count_cons] at hcount
    rw [hlog, hp.count_eq, List.count_cons]
    omega
  acked := by
    intro u hu
    rw [hacked] at hu
    obtain ⟨hX, hun, hpend⟩ := h.acked u hu
    rw [List.mem_cons, not_or] at hX
    rw [hp.mem_iff, List.mem_cons, not_or, hlog]
    exact ⟨hX.2, ⟨hX.1, hun⟩, hpend⟩
  bound := by
    intro u hu
    rw [hp.mem_iff, List.mem_cons, hlog, hacked] at hu
    refine h.bound u ?_
    rw [List.mem_cons]
    tauto

/-- A new task goes to a call. -/
theorem Once.enqueue (h : Once n X v) (hlog : v'.log = v.log) (hacked : v'.acked = v.acked)
    (hp : v'.unwritten.Perm (n :: v.unwritten)) : Once (n + 1) X v' where
  count := by
    intro u
    have hcount := h.count u
    rw [hlog, hp.count_eq, List.count_cons]
    by_cases hn : n = u
    · subst hn
      have hfresh : ∀ {l : List Nat}, (n ∈ l → n < n) → l.count n = 0 := fun hl =>
        List.count_eq_zero.mpr fun hm => lt_irrefl _ (hl hm)
      rw [hfresh fun hm => h.bound n (.inl hm), hfresh fun hm => h.bound n (.inr (.inl hm)),
        hfresh fun hm => h.bound n (.inr (.inr (.inl hm)))]
      simp
    · have hne : (n == u) = false := by simpa using hn
      rw [hne]
      simpa using hcount
  acked := by
    intro u hu
    rw [hacked] at hu
    obtain ⟨hX, hun, hpend⟩ := h.acked u hu
    rw [hp.mem_iff, List.mem_cons, not_or, hlog]
    exact ⟨hX, ⟨ne_of_lt (h.bound u (.inr (.inr (.inr hu)))), hun⟩, hpend⟩
  bound := by
    intro u hu
    rw [hp.mem_iff, List.mem_cons, hlog, hacked] at hu
    rcases hu with hu | (rfl | hu) | hu | hu
    · exact Nat.lt_succ_of_lt (h.bound u (.inl hu))
    · exact Nat.lt_succ_self _
    · exact Nat.lt_succ_of_lt (h.bound u (.inr (.inl hu)))
    · exact Nat.lt_succ_of_lt (h.bound u (.inr (.inr (.inl hu))))
    · exact Nat.lt_succ_of_lt (h.bound u (.inr (.inr (.inr hu))))

/-- A step that leaves the log empty acknowledges nothing. -/
theorem LogStep.log_nil (hs : LogStep v v') (hnil : v'.log = []) :
    v.log = [] ∧ v'.acked = v.acked := by
  cases hs with
  | writePending hp hpc hcs => simp at hnil
  | cancel hp hpc hcs => simp at hnil
  | ack hp ht hd => simp at hnil
  | _ => exact ⟨hnil, rfl⟩

/-- The protocol keeps every task at one place. -/
theorem Once.step (h : Once n X v) (hN : Numbered v) (hs : LogStep v v') : Once n X v' := by
  -- A call that goes on without writing a line has the same tasks.
  have hcall : ∀ {c c' : Call} {R cs : List Call}, v.calls.Perm (c :: R) → cs.Perm (c' :: R) →
      c'.unwritten = c.unwritten → (cs.flatMap Call.unwritten).Perm v.unwritten := by
    intro c c' R cs hp hcs heq
    refine (hcs.flatMap_right Call.unwritten).trans ?_
    rw [List.flatMap_cons, heq, ← List.flatMap_cons]
    exact (hp.flatMap_right Call.unwritten).symm
  have hdrop : ∀ {c : Call} {R cs : List Call}, v.calls.Perm (c :: R) → cs.Perm R →
      c.unwritten = [] → (cs.flatMap Call.unwritten).Perm v.unwritten := by
    intro c R cs hp hcs heq
    refine (hcs.flatMap_right Call.unwritten).trans ?_
    have := (hp.flatMap_right Call.unwritten).symm
    rwa [List.flatMap_cons, heq, List.nil_append] at this
  cases hs with
  | move hc ht hd => exact h.congr rfl rfl (hc.flatMap_right _)
  | takeId hlt => exact h.congr rfl rfl (List.Perm.refl _)
  | fail hp ht hd => exact h.congr rfl rfl (List.Perm.refl _)
  | succeed hp ht hd => exact h.congr rfl rfl (List.Perm.refl _)
  | nextSeq hp hpc hlt hcs => exact h.congr rfl rfl (hcall hp hcs (by simp [Call.unwritten, hpc]))
  | push hp hpc hcs ht hd => exact h.congr rfl rfl (hdrop hp hcs (by simp [Call.unwritten, hpc]))
  | reject hp hpc hcs => exact h.congr rfl rfl (hcall hp hcs (by simp [Call.unwritten, hpc]))
  | writePending hp hpc hcs => exact h.writePending hp hpc hcs
  | cancel hp hpc hcs =>
      have hw := (hN.canceling _ (hp.mem_iff.mpr List.mem_cons_self) hpc).1
      exact h.appendDone hw (hdrop hp hcs (by simp [Call.unwritten, hpc]))
  | ack hp ht hd =>
      have hw := (hN.dones _ (hp.mem_iff.mpr List.mem_cons_self)).1
      exact h.appendDone hw (List.Perm.refl _)

end

/-! ## Files -/

/-- A file from which no acknowledged task comes back, and none twice. -/
structure FileOk (n : Nat) (acked : List Nat) (rs : List WalRecord) : Prop where
  nodup : (logUids rs).Nodup
  acked : ∀ u ∈ acked, ¬ Pending rs u
  bound : ∀ u ∈ logUids rs, u < n

/-- The same for the entries that were read. -/
structure EntriesOk (n : Nat) (acked : List Nat) (es : List (Nat × WalEntry)) : Prop where
  nodup : (uids es).Nodup
  acked : ∀ u ∈ acked, u ∉ uids es
  bound : ∀ u ∈ uids es, u < n

section
variable {n : Nat} {acked : List Nat} {rs : List WalRecord}

theorem fileOk_nil : FileOk n acked [] where
  nodup := List.nodup_nil
  acked := by
    rintro u - ⟨q, e, he, -⟩
    cases he
  bound := fun _ hu => by cases hu

theorem FileOk.mono (h : FileOk n acked rs) {n' : Nat} (hn : n ≤ n') : FileOk n' acked rs :=
  ⟨h.nodup, h.acked, fun u hu => lt_of_lt_of_le (h.bound u hu) hn⟩

/-- What is read from such a file. -/
theorem FileOk.entries (h : FileOk n acked rs) {m : PendingMap}
    (hm : ∀ q, m.lookup q = pendingAt q none rs) : EntriesOk n acked m.entries := by
  have hrec : ∀ x ∈ m.entries, .pending x.1 x.2 ∈ rs := by
    rintro ⟨q, e⟩ hx
    exact mem_of_pending ((hm q).symm.trans ((OrderedMap.mem_entries _).mp hx))
  refine ⟨?_, fun u hu hin => ?_, fun u hu => ?_⟩
  · have hnodup : m.entries.Nodup := m.sorted.imp fun hlt heq => by
      rw [heq] at hlt
      exact lt_irrefl _ hlt
    refine List.Nodup.map_on (fun x hx y hy hxy => ?_) hnodup
    obtain ⟨hq, he⟩ := seq_eq_of_uid_eq h.nodup (hrec x hx) (hrec y hy) hxy
    exact Prod.ext hq he
  · obtain ⟨q, e, hq, hue⟩ := mem_uids.mp hin
    exact h.acked u hu ⟨q, e, (hm q).symm.trans hq, hue⟩
  · obtain ⟨x, hx, rfl⟩ := List.mem_map.mp hu
    exact h.bound _ (mem_logUids (hrec x hx))

end

/-- What a log of this life leaves behind. -/
theorem Once.fileOk {n : Nat} {X : List Nat} {v : View} (h : Once n X v) :
    FileOk n v.acked v.log :=
  ⟨h.nodup, fun u hu => (h.acked u hu).2.2, fun u hu => h.bound u (.inr (.inr (.inl hu)))⟩

/-- At most one of the two files has records, and they are in order. -/
structure FilesOk (s : WalState) : Prop where
  one : s.log = [] ∨ s.backupLog = []
  log : FileOk s.nextUid s.acked s.log
  backup : FileOk s.nextUid s.acked s.backupLog

/-- What holds while `WalRecover` stands at a given point. -/
def AckStage (s : WalState) : RecoverPc → Prop
  | .parseBackup m _ => ∀ q, m.lookup q = pendingAt q none s.log
  | .removeBackup m => EntriesOk s.nextUid s.acked m.entries
  | .rename m _ => EntriesOk s.nextUid s.acked m.entries
  | .removePrimary m => EntriesOk s.nextUid s.acked m.entries
  | .requeue left _ _ =>
      Once s.nextUid (uids left) s.view ∧
        (s.log = [] → FileOk s.nextUid s.acked s.backupLog)
  | .removeBackupLast =>
      Once s.nextUid [] s.view ∧ (s.log = [] → FileOk s.nextUid s.acked s.backupLog)
  | .done => Once s.nextUid [] s.view ∧ (s.log = [] → FileOk s.nextUid s.acked s.backupLog)
  | _ => True

/-- What holds in every state that the condition allows. -/
structure AckInv (s : WalState) : Prop where
  sound : Sound s
  replays : ∀ r ∈ s.replays, r.acked = false
  acked_lt : ∀ u ∈ s.acked, u < s.nextUid
  /-- While there is no log of this life, the files are in order. -/
  files : s.up = false ∨ s.recover.ownsLog = false → FilesOk s
  stage : s.up = true → AckStage s s.recover

section
variable {s s' : WalState}

/-- A log of this life begins with nothing acknowledged among what is to be
enqueued again. -/
theorem once_of_entries {n : Nat} {v : View} {es : List (Nat × WalEntry)}
    (he : EntriesOk n v.acked es) (hlt : ∀ u ∈ v.acked, u < n) (hlog : v.log = [])
    (hcalls : v.calls = []) : Once n (uids es) v := by
  have hun : v.unwritten = [] := by rw [View.unwritten, hcalls]; rfl
  refine ⟨fun u => ?_, fun u hu => ⟨he.acked u hu, ?_, ?_⟩, fun u hu => ?_⟩
  · have hcount := List.nodup_iff_count.mp he.nodup u
    rw [hun, hlog]
    simpa [logUids] using hcount
  · rw [hun]
    exact List.not_mem_nil
  · rw [hlog]
    rintro ⟨q, e, hq, -⟩
    cases hq
  · rw [hun, hlog] at hu
    rcases hu with hu | hu | hu | hu
    · exact he.bound u hu
    · cases hu
    · cases hu
    · exact hlt u hu

/-- Reading two files of which one is empty. -/
theorem FilesOk.merged (h : FilesOk s) {m : PendingMap}
    (hm : ∀ q, m.lookup q = pendingAt q (pendingAt q none s.log) s.backupLog) :
    EntriesOk s.nextUid s.acked m.entries := by
  rcases h.one with hnil | hnil
  · refine h.backup.entries fun q => ?_
    rw [hm q, hnil]
    rfl
  · refine h.log.entries fun q => ?_
    rw [hm q, hnil]
    rfl

/-- After an allowed crash the files are in order. -/
theorem AckInv.crash (h : AckInv s) (hup : s.up = true) (hok : oneFile s .crash = true) :
    FilesOk s := by
  have hone : s.log = [] ∨ s.backupLog = [] := by
    simp only [oneFile, Bool.or_eq_true, Option.isNone_iff_eq_none] at hok
    rcases hok with hok | hok
    · left
      rw [WalState.log, hok]
      rfl
    · right
      rw [WalState.backupLog, hok]
      rfl
  -- In a log of this life, the backup matters only if the log is empty.
  have hown : ∀ {X : List Nat}, Once s.nextUid X s.view →
      (s.log = [] → FileOk s.nextUid s.acked s.backupLog) → FilesOk s := by
    intro X honce hbackup
    refine ⟨hone, honce.fileOk, ?_⟩
    rcases hone with hnil | hnil
    · exact hbackup hnil
    · rw [hnil]
      exact fileOk_nil
  have hstage := h.stage hup
  cases hr : s.recover with
  | requeue left call inMemory =>
      rw [hr] at hstage
      exact hown hstage.1 hstage.2
  | removeBackupLast =>
      rw [hr] at hstage
      exact hown hstage.1 hstage.2
  | done =>
      rw [hr] at hstage
      exact hown hstage.1 hstage.2
  | _ => exact h.files (.inr (by rw [hr]; rfl))

/-- A step of the protocol in a log of this life. -/
theorem AckInv.owning {X : List Nat} (hsound : Sound s') (hup : s'.up = true)
    (hown : s'.recover.ownsLog = true) (hrep : ∀ r ∈ s.replays, r.acked = false)
    (hreplays : s'.replays = s.replays) (huid : s'.nextUid = s.nextUid) (hbak : s'.bak = s.bak)
    (honce : Once s.nextUid X s'.view)
    (hbackup : s.log = [] → FileOk s.nextUid s.acked s.backupLog) (hstep : LogStep s.view s'.view)
    (hstage : Once s'.nextUid X s'.view →
      (s'.log = [] → FileOk s'.nextUid s'.acked s'.backupLog) → AckStage s' s'.recover) :
    AckInv s' where
  sound := hsound
  replays := hreplays ▸ hrep
  acked_lt := fun u hu => huid ▸ honce.bound u (.inr (.inr (.inr hu)))
  files := by
    rintro (hd | ho)
    · cases hup.symm.trans hd
    · cases hown.symm.trans ho
  stage := by
    intro _
    refine hstage (huid ▸ honce) fun hnil => ?_
    obtain ⟨hnil', hacked⟩ := hstep.log_nil hnil
    have hacked' : s'.acked = s.acked := hacked
    have hlog : s'.backupLog = s.backupLog := by rw [WalState.backupLog, hbak]; rfl
    rw [huid, hacked', hlog]
    exact hbackup hnil'

/-! ## Steps of `WalRecover` -/

theorem entriesOk_nil {n : Nat} {acked : List Nat} : EntriesOk n acked [] :=
  ⟨List.nodup_nil, (fun _ _ hu => by cases hu), (fun _ hu => by cases hu)⟩

theorem AckInv.recoverStep {b : Bool} (h : AckInv s) (hup : s.up = true)
    (hlt : s.sGlobalSeq + 1 < 2 ^ 64) (hs : recoverStep s b = some s') : AckInv s' := by
  have hsound := h.sound.recoverStep hup hlt hs
  have hstage := h.stage hup
  have hfiles := h.files
  have hacked := h.acked_lt
  have hidle := h.sound.idle hup
  have hnot : ∀ {P : Prop}, s.up = false ∨ RecoverPc.ownsLog .done = false → P := by
    rintro P (hd | ho)
    · cases hup.symm.trans hd
    · cases ho
  cases hr : s.recover with
  | parsePrimary =>
      have hF := hfiles (.inr (by rw [hr]; rfl))
      simp only [Wal.recoverStep, hr] at hs
      cases hs
      exact ⟨hsound, h.replays, hacked, (fun _ => ⟨hF.one, hF.log, hF.backup⟩),
        (fun _ q => lookup_parse _ _ _ q)⟩
  | parseBackup m n =>
      have hF := hfiles (.inr (by rw [hr]; rfl))
      have hc := (hidle (by rw [hr]; rfl)).1
      rw [hr] at hstage
      have hmap : ∀ q, (parseWalFile (m, n) s.bak).1.lookup q =
          pendingAt q (pendingAt q none s.log) s.backupLog := by
        intro q
        rw [lookup_parse, hstage q]
        rfl
      simp only [Wal.recoverStep, hr] at hs
      split at hs
      · by_cases h0 : (parseWalFile (m, n) s.bak).2 = 0
        · rw [if_pos h0] at hs
          cases hs
          have hn : n = 0 := by
            have hle := le_foldl_applyRecord (records (s.bak.getD [])) (m, n)
            simp only [parseWalFile] at h0
            omega
          have hlog : s.log = [] := h.sound.seen m (by rw [hr, hn])
          exact ⟨hsound, h.replays, hacked, (fun hd => hnot hd),
            (fun _ => ⟨once_of_entries entriesOk_nil hacked hlog hc, fun _ => hF.backup⟩)⟩
        · rw [if_neg h0] at hs
          cases hs
          exact ⟨hsound, h.replays, hacked, (fun _ => ⟨hF.one, hF.log, hF.backup⟩), (fun _ => trivial)⟩
      · cases hs
        exact ⟨hsound, h.replays, hacked, (fun _ => ⟨hF.one, hF.log, hF.backup⟩),
          (fun _ => hF.merged hmap)⟩
  | cleanPrimary =>
      have hF := hfiles (.inr (by rw [hr]; rfl))
      simp only [Wal.recoverStep, hr] at hs
      cases hs
      exact ⟨hsound, h.replays, hacked, (fun _ => ⟨.inl rfl, fileOk_nil, hF.backup⟩), (fun _ => trivial)⟩
  | cleanBackup =>
      have hc := (hidle (by rw [hr]; rfl)).1
      have hlog : s.log = [] := by
        rw [WalState.log, h.sound.cleaned hr]
        rfl
      simp only [Wal.recoverStep, hr] at hs
      cases hs
      exact ⟨hsound, h.replays, hacked, (fun hd => hnot hd),
        (fun _ => ⟨once_of_entries entriesOk_nil hacked hlog hc, fun _ => fileOk_nil⟩)⟩
  | removeBackup m =>
      have hF := hfiles (.inr (by rw [hr]; rfl))
      rw [hr] at hstage
      simp only [Wal.recoverStep, hr] at hs
      cases hs
      exact ⟨hsound, h.replays, hacked, (fun _ => ⟨.inr rfl, hF.log, fileOk_nil⟩), (fun _ => hstage)⟩
  | rename m had =>
      have hF := hfiles (.inr (by rw [hr]; rfl))
      have hc := (hidle (by rw [hr]; rfl)).1
      rw [hr] at hstage
      simp only [Wal.recoverStep, hr] at hs
      split at hs
      · cases hs
        exact ⟨hsound, h.replays, hacked, (fun hd => hnot hd),
          (fun _ => ⟨once_of_entries hstage hacked rfl hc, fun _ => hF.log⟩)⟩
      · cases hs
        exact ⟨hsound, h.replays, hacked, (fun _ => ⟨hF.one, hF.log, hF.backup⟩), (fun _ => hstage)⟩
  | removePrimary m =>
      have hF := hfiles (.inr (by rw [hr]; rfl))
      have hc := (hidle (by rw [hr]; rfl)).1
      rw [hr] at hstage
      simp only [Wal.recoverStep, hr] at hs
      cases hs
      exact ⟨hsound, h.replays, hacked, (fun hd => hnot hd),
        (fun _ => ⟨once_of_entries hstage hacked rfl hc, fun _ => hF.backup⟩)⟩
  | requeue left call inMemory =>
      rw [hr] at hstage
      obtain ⟨honce, hbackup⟩ := hstage
      have hN := h.sound.numbered hup (by rw [hr]; rfl)
      cases call with
      | some c =>
          have hstep := requeue_logStep hN (h.sound.workers hup) hlt hr
          obtain ⟨hf, -⟩ := callStep_frame s c
          simp only [Wal.recoverStep, hr] at hs
          cases hs
          exact AckInv.owning hsound (hf.up.trans hup) rfl h.replays hf.replays hf.nextUid hf.bak
            (honce.step hN hstep) hbackup hstep
            (fun honce' hbackup' => ⟨honce', hbackup'⟩)
      | none =>
          have hcalls : s.view.calls = s.calls := view_calls (by rw [hr]; rfl)
          cases left with
          | nil =>
              simp only [Wal.recoverStep, hr] at hs
              cases hs
              refine ⟨hsound, h.replays, hacked, (fun hd => hnot hd), (fun _ => ⟨?_, hbackup⟩)⟩
              refine honce.congr rfl rfl ?_
              simp only [View.unwritten, hcalls]
              exact List.Perm.refl _
          | cons x left =>
              simp only [Wal.recoverStep, hr] at hs
              cases hs
              have hnew : x.2.uid ∉ s.acked := fun hu =>
                (honce.acked _ hu).1 List.mem_cons_self
              refine ⟨hsound, fun r hm => ?_, hacked, (fun hd => hnot hd), (fun _ => ⟨?_, hbackup⟩)⟩
              · rcases List.mem_append.mp hm with hm | hm
                · exact h.replays r hm
                · rw [List.mem_singleton.mp hm]
                  exact decide_eq_false hnew
              · refine Once.requeue honce rfl rfl ?_
                simp only [View.unwritten, hcalls]
                exact List.Perm.refl _
  | removeBackupLast =>
      rw [hr] at hstage
      have hcalls : s.view.calls = s.calls := view_calls (by rw [hr]; rfl)
      simp only [Wal.recoverStep, hr] at hs
      cases hs
      refine ⟨hsound, h.replays, hacked, (fun hd => hnot hd), (fun _ => ⟨?_, fun _ => fileOk_nil⟩)⟩
      refine hstage.1.congr rfl rfl ?_
      simp only [View.unwritten, hcalls]
      exact List.Perm.refl _
  | done =>
      simp only [Wal.recoverStep, hr] at hs
      cases hs

/-! ## Steps of the system -/

theorem ackInv_init : AckInv {} where
  sound := sound_init {}
  replays := fun _ hr => by cases hr
  acked_lt := fun _ hu => by cases hu
  files := fun _ => ⟨.inl rfl, fileOk_nil, fileOk_nil⟩
  stage := fun hup => by cases hup

/-- Threads without tasks change nothing that a stage before the loop is about. -/
theorem AckInv.idle (h : AckInv s) (hsound : Sound s') (hup : s.up = true)
    (hown : s.recover.ownsLog = false) (hI : Idle s s') : AckInv s' := by
  have hf := hI.frame
  have hlog : s'.log = s.log := by rw [WalState.log, hI.primary]; rfl
  have hbackup := hf.backupLog
  have hF := h.files (.inr hown)
  have hstage := h.stage hup
  have hentries : ∀ {l : List (Nat × WalEntry)},
      EntriesOk s.nextUid s.acked l → EntriesOk s'.nextUid s'.acked l := by
    intro l hl
    rw [hI.acked, hf.nextUid]
    exact hl
  refine ⟨hsound, hf.replays ▸ h.replays, ?_, fun _ => ?_, fun _ => ?_⟩
  · rw [hI.acked, hf.nextUid]
    exact h.acked_lt
  · refine ⟨?_, ?_, ?_⟩
    · rw [hlog, hbackup]
      exact hF.one
    · rw [hlog, hI.acked, hf.nextUid]
      exact hF.log
    · rw [hbackup, hI.acked, hf.nextUid]
      exact hF.backup
  · rw [hf.recover]
    cases hr : s.recover with
    | parsePrimary => trivial
    | parseBackup m maxSeenSeq =>
        rw [hr] at hstage
        intro q
        rw [hlog]
        exact hstage q
    | cleanPrimary => trivial
    | cleanBackup => trivial
    | removeBackup m =>
        rw [hr] at hstage
        exact hentries hstage
    | rename m hadBackup =>
        rw [hr] at hstage
        exact hentries hstage
    | removePrimary m =>
        rw [hr] at hstage
        exact hentries hstage
    | requeue left call inMemory =>
        rw [hr] at hown
        cases hown
    | removeBackupLast =>
        rw [hr] at hown
        cases hown
    | done =>
        rw [hr] at hown
        cases hown

theorem AckInv.inner {a : Act} (h : AckInv s) (hsound : Sound s') (hup : s.up = true)
    (hown : s.recover.ownsLog = true) (ha : a.isInner = true) (hok : inBounds s a = true)
    (hs : step s a = some s') : AckInv s' := by
  obtain ⟨hstep, hf⟩ := inner_logStep h.sound hup hown ha hok hs
  have hN := h.sound.numbered hup hown
  have hstage := h.stage hup
  have hup' := hf.up.trans hup
  have hown' : s'.recover.ownsLog = true := by rw [hf.recover]; exact hown
  cases hr : s.recover with
  | requeue left call inMemory =>
      rw [hr] at hstage
      refine .owning hsound hup' hown' h.replays hf.replays hf.nextUid hf.bak
        (hstage.1.step hN hstep) hstage.2 hstep fun honce hbackup => ?_
      rw [hf.recover, hr]
      exact ⟨honce, hbackup⟩
  | removeBackupLast =>
      rw [hr] at hstage
      refine .owning hsound hup' hown' h.replays hf.replays hf.nextUid hf.bak
        (hstage.1.step hN hstep) hstage.2 hstep fun honce hbackup => ?_
      rw [hf.recover, hr]
      exact ⟨honce, hbackup⟩
  | done =>
      rw [hr] at hstage
      refine .owning hsound hup' hown' h.replays hf.replays hf.nextUid hf.bak
        (hstage.1.step hN hstep) hstage.2 hstep fun honce hbackup => ?_
      rw [hf.recover, hr]
      exact ⟨honce, hbackup⟩
  | _ =>
      rw [hr] at hown
      cases hown

theorem AckInv.enqueue {t : DBTask} (h : AckInv s) (hsound : Sound s')
    (hs : step s (.enqueue t) = some s') : AckInv s' := by
  obtain ⟨hup, hdone, -, hcases⟩ := enqueue_cases hs
  have hstage := h.stage hup
  rw [hdone] at hstage
  obtain ⟨honce, hbackup⟩ := hstage
  have hlt : ∀ u ∈ s.acked, u < s.nextUid + 1 := fun u hu => Nat.lt_succ_of_lt (h.acked_lt u hu)
  have hbackup' : s.log = [] → FileOk (s.nextUid + 1) s.acked s.backupLog := fun hnil =>
    (hbackup hnil).mono (Nat.le_succ _)
  have hfiles : ∀ s₁ : WalState, s₁.up = s.up → s₁.recover = s.recover →
      s₁.up = false ∨ s₁.recover.ownsLog = false → FilesOk s₁ := by
    rintro s₁ hu hr (hd | ho)
    · rw [hu, hup] at hd
      cases hd
    · rw [hr, hdone] at ho
      cases ho
  rcases hcases with rfl | ⟨cb, rfl⟩
  · refine ⟨hsound, h.replays, hlt, hfiles _ rfl rfl, fun _ => ?_⟩
    show AckStage _ s.recover
    rw [hdone]
    refine ⟨Once.enqueue honce rfl rfl ?_, hbackup'⟩
    simp only [View.unwritten, WalState.view, hdone, RecoverPc.call, Option.toList_none,
      List.nil_append, List.flatMap_append]
    exact List.perm_append_singleton _ _
  · refine ⟨hsound, h.replays, hlt, hfiles _ rfl rfl, fun _ => ?_⟩
    show AckStage _ s.recover
    rw [hdone]
    have honce' : Once (s.nextUid + 1) [] s.view :=
      ⟨honce.count, honce.acked, fun u hu => Nat.lt_succ_of_lt (honce.bound u hu)⟩
    refine ⟨honce'.congr rfl rfl ?_, hbackup'⟩
    simp only [View.unwritten, WalState.view, hdone]
    exact List.Perm.refl _

theorem AckInv.step {a : Act} (h : AckInv s) (hok : inBounds s a = true)
    (hone : oneFile s a = true) (hs : step s a = some s') : AckInv s' := by
  have hsound := h.sound.step hok hs
  by_cases ha : a.isInner = true
  · have hup := inner_up h.sound ha hs
    cases hown : s.recover.ownsLog with
    | true => exact h.inner hsound hup hown ha hok hs
    | false => exact h.idle hsound hup hown (inner_idle h.sound hup hown ha hs)
  · cases a with
    | start n =>
        simp only [Wal.step] at hs
        split at hs
        next hcond =>
          cases hs
          have hdown : s.up = false := by simpa using (Bool.and_eq_true_iff.mp hcond).1
          have hF := h.files (.inl hdown)
          exact ⟨hsound, h.replays, h.acked_lt, (fun _ => ⟨hF.one, hF.log, hF.backup⟩),
            (fun _ => trivial)⟩
        · cases hs
    | recover b =>
        simp only [Wal.step] at hs
        split at hs
        next hup => exact h.recoverStep hup (by simpa [inBounds] using hok) hs
        · cases hs
    | enqueue t => exact h.enqueue hsound hs
    | crash =>
        simp only [Wal.step] at hs
        split at hs
        next hup =>
          cases hs
          have hF := h.crash hup hone
          exact ⟨hsound, h.replays, h.acked_lt, (fun _ => ⟨hF.one, hF.log, hF.backup⟩),
            (fun hu => by cases hu)⟩
        · cases hs
    | takeId => exact absurd rfl ha
    | call i => exact absurd rfl ha
    | work p answer => exact absurd rfl ha
    | stop => exact absurd rfl ha
    | join => exact absurd rfl ha

end

/-! ## Runs -/

/-- The condition on every step: within bounds, and no crash between two files. -/
def oneFileOk (s : WalState) (a : Act) : Bool := inBounds s a && oneFile s a

/-- In every run in which a crash never leaves both files, `WalRecover` never enqueues
a task again for which a `D` line was written. -/
theorem neverAgain_of_oneFile (as : List Act) (s : WalState)
    (hok : Machine.Meets step (fun s a => oneFileOk s a) {} as)
    (hrun : Machine.run step {} as = some s) : NeverAgain s := by
  have hI : AckInv s := by
    refine Machine.run_invariant_of_meets (fun s a s' hI hok hs => ?_) ackInv_init hok hrun
    obtain ⟨hb, hc⟩ := Bool.and_eq_true_iff.mp hok
    exact hI.step hb hc hs
  exact hI.replays

/-- The process crashes with one of two tasks done, and again when the other is back
in the log. -/
def twoCrashesTrace : List Act :=
  List.flatten
    [[.start 1], recoverAll 2, enqueueAll (update 1 "a"), enqueueAll (update 2 "b"),
      List.replicate 4 (.work 0 .ok), [.crash, .start 1], recoverAll (4 + 4 + 2),
      [.crash, .start 1], recoverAll (4 + 4 + 2)]

/-- Only the other task is enqueued again, once in each life. -/
theorem neverAgain_twoCrashesTrace :
    ∃ s, Machine.run step {} twoCrashesTrace = some s ∧ s.acked = [0] ∧
      s.replays.map (fun r => (r.life, r.uid)) = [(2, 1), (3, 1)] ∧ NeverAgain s :=
  ⟨_, rfl, by decide +kernel, by decide +kernel,
    neverAgain_of_oneFile twoCrashesTrace _ (by decide +kernel) rfl⟩

/-- A task is enqueued and the process crashes.  `WalRecover` moves the log to the
backup and enqueues the task again.  A worker processes it and writes its `D` line,
and the process crashes before the backup is removed. -/
def backupTrace : List Act :=
  List.flatten
    [[.start 1], recoverAll 2, enqueueAll (update 1 "a"), [.crash, .start 1], recoverAll (4 + 4),
      List.replicate 4 (.work 0 .ok), [.crash, .start 1], recoverAll (4 + 1)]

/-- The line in the backup brings the task back. -/
theorem backup_brings_back :
    ∃ s, Machine.run step {} backupTrace = some s ∧ s.acked = [0] ∧
      s.replays = [⟨2, 0, false⟩, ⟨3, 0, true⟩] ∧ ¬ NeverAgain s := by
  refine ⟨_, rfl, by decide +kernel, by decide +kernel, fun h => ?_⟩
  have hbad := h ⟨3, 0, true⟩ (by decide +kernel)
  cases hbad

end NetworkModule.Wal
