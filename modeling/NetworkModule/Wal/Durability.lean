import NetworkModule.Wal.Lifecycle

/-!
# No task is lost

A task whose `P` line was written, and that was neither rejected nor processed, is
owed.  `Recovered` states what the log is for: when `WalRecover` returns, it has
enqueued again every task that was owed when the process started.

Two gaps in `WalRecover` break this.  It removes an old backup before the tasks in
it are in any other file.  And the numbers of a new life start from 1 again, so the
new primary and the backup can use one number for two tasks, and the merge keeps
one of them or, after a `D` line, none.  `recovered_of_crashSafe` says that nothing
else loses a task: it holds in every run whose crashes stay out of the two gaps.
-/

namespace NetworkModule.Wal

/-! ## The promise -/

/-- The task has been enqueued again in this life. -/
def WalState.Replayed (s : WalState) (u : Nat) : Prop :=
  ∃ r ∈ s.replays, r.life = s.life ∧ r.uid = u

/-- When `WalRecover` has returned, every task that was owed is enqueued again. -/
def Recovered (s : WalState) : Prop :=
  s.up = true → s.recover = .done → ∀ u ∈ s.owed, s.Replayed u

/-- The tasks of a call whose `P` line is still to be written. -/
def Call.unwritten (c : Call) : List Nat :=
  match c.pc with
  | .nextSeq => [c.task.uid]
  | .writePending => [c.task.uid]
  | _ => []

/-- No number that is pending in the primary file has a line in the backup. -/
def WalState.noClash (s : WalState) : Bool :=
  (parseWalFile (.empty, 0) s.primary).1.entries.all fun x =>
    s.backupLog.all fun r => r.seq? ≠ some x.1

/-- A crash does not come after the removal of an old backup, or after a failed
rename, before the last task is in the new log.  While there is a backup beside the
new log, no number that is pending in the new log has a line in the backup. -/
def crashSafe (s : WalState) : Act → Bool
  | .crash =>
      match s.recover with
      | .rename _ hadBackup => !hadBackup
      | .removePrimary _ => false
      | .requeue left call inMemory =>
          (!inMemory || (left.isEmpty && (call.toList.flatMap Call.unwritten).isEmpty)) && s.noClash
      | .removeBackupLast => s.noClash
      | _ => true
  | _ => true

/-! ## Pending tasks -/

/-- The task is pending in the records alone. -/
def Pending (rs : List WalRecord) (u : Nat) : Prop :=
  ∃ q e, pendingAt q none rs = some e ∧ e.uid = u

/-- The task is pending when both files are read. -/
def Recoverable (log backup : List WalRecord) (u : Nat) : Prop :=
  ∃ q e, pendingAt q (pendingAt q none log) backup = some e ∧ e.uid = u

section
variable {log : List WalRecord} {u : Nat}

/-- A line with a new number leaves a task pending. -/
theorem Pending.append_pending (h : Pending log u) {q : Nat} (e : WalEntry)
    (hnew : ∀ r ∈ log, r.seq? ≠ some q) : Pending (log ++ [.pending q e]) u := by
  obtain ⟨q', e', he, hu⟩ := h
  refine ⟨q', e', ?_, hu⟩
  have hne : q' ≠ q := by
    rintro rfl
    rw [pendingAt_of_notMem hnew] at he
    cases he
  have hseq : (WalRecord.pending q e).seq? ≠ some q' := fun heq => hne (Option.some.inj heq).symm
  rw [pendingAt_append, keyStep_of_ne hseq]
  exact he

/-- A line with a new number makes its task pending. -/
theorem pending_append_self {q : Nat} (e : WalEntry) (hnew : ∀ r ∈ log, r.seq? ≠ some q) :
    Pending (log ++ [.pending q e]) e.uid := by
  refine ⟨q, e, ?_, rfl⟩
  rw [pendingAt_append, pendingAt_of_notMem hnew]
  simp [keyStep]

/-- A `D` line for another task leaves a task pending. -/
theorem Pending.append_done (h : Pending log u) {q : Nat}
    (hother : ∀ e, pendingAt q none log = some e → e.uid ≠ u) : Pending (log ++ [.done q]) u := by
  obtain ⟨q', e', he, hu⟩ := h
  refine ⟨q', e', ?_, hu⟩
  have hne : q' ≠ q := by
    rintro rfl
    exact hother e' he hu
  have hseq : (WalRecord.done q).seq? ≠ some q' := fun heq => hne (Option.some.inj heq).symm
  rw [pendingAt_append, keyStep_of_ne hseq]
  exact he

end

/-- The task is durable, and neither rejected nor processed. -/
def View.Live (v : View) (u : Nat) : Prop := u ∈ v.durable ∧ u ∉ v.rejected ∧ u ∉ v.processed

/-- Every live task is pending in the log or among the tasks `X`. -/
def Kept (X : List Nat) (v : View) : Prop := ∀ u, v.Live u → u ∈ X ∨ Pending v.log u

/-- The protocol keeps every live task. -/
theorem Kept.step {X : List Nat} {v v' : View} (h : Kept X v) (hN : Numbered v)
    (hs : LogStep v v') : Kept X v' := by
  cases hs with
  | move hc ht hd => exact h
  | takeId hlt => exact h
  | nextSeq hp hpc hlt hcs => exact h
  | push hp hpc hcs ht hd => exact h
  | fail hp ht hd => exact h
  | @writePending c R cs hp hpc hcs =>
      intro u hu
      obtain ⟨-, -, hnew⟩ := hN.writing c (hp.mem_iff.mpr List.mem_cons_self) hpc
      obtain ⟨hdur, hrej, hproc⟩ := hu
      rcases List.mem_append.mp hdur with hdur | hdur
      · exact (h u ⟨hdur, hrej, hproc⟩).imp_right fun hpend => hpend.append_pending _ hnew
      · rw [List.mem_singleton.mp hdur]
        exact .inr (pending_append_self (entryOf c.task) hnew)
  | @reject c R cs hp hpc hcs =>
      intro u hu
      exact h u ⟨hu.1, fun hm => hu.2.1 (List.mem_append_left _ hm), hu.2.2⟩
  | @succeed t R ts ds hp ht hd =>
      intro u hu
      exact h u ⟨hu.1, hu.2.1, fun hm => hu.2.2 (List.mem_append_left _ hm)⟩
  | @cancel c R cs hp hpc hcs =>
      intro u hu
      obtain ⟨hw, hrej⟩ := hN.canceling c (hp.mem_iff.mpr List.mem_cons_self) hpc
      refine (h u hu).imp_right fun hpend => hpend.append_done fun e he heq => hu.2.1 ?_
      rw [← heq, hN.uid_eq hw he]
      exact hrej
  | @ack t R ts ds hp ht hd =>
      intro u hu
      obtain ⟨hw, hproc⟩ := hN.dones t (hp.mem_iff.mpr List.mem_cons_self)
      refine (h u hu).imp_right fun hpend => hpend.append_done fun e he heq => hu.2.2 ?_
      rw [← heq, hN.uid_eq hw he]
      exact hproc

/-! ## The stages of `WalRecover` -/

/-- The tasks of some entries. -/
def uids (es : List (Nat × WalEntry)) : List Nat := es.map (·.2.uid)

/-- The tasks whose new `P` line is still to be written. -/
def leftUids (left : List (Nat × WalEntry)) (call : Option Call) : List Nat :=
  uids left ++ call.toList.flatMap Call.unwritten

theorem mem_uids {m : PendingMap} {u : Nat} :
    u ∈ uids m.entries ↔ ∃ q e, m.lookup q = some e ∧ e.uid = u := by
  constructor
  · intro h
    obtain ⟨⟨q, e⟩, hx, rfl⟩ := List.mem_map.mp h
    exact ⟨q, e, (OrderedMap.mem_entries _).mp hx, rfl⟩
  · rintro ⟨q, e, hq, rfl⟩
    exact List.mem_map.mpr ⟨(q, e), (OrderedMap.mem_entries _).mpr hq, rfl⟩

/-- What holds while `WalRecover` stands at a given point. -/
def StageOk (s : WalState) : RecoverPc → Prop
  | .parsePrimary => ∀ u ∈ s.owed, Recoverable s.log s.backupLog u
  | .parseBackup m _ =>
      (∀ q, m.lookup q = pendingAt q none s.log) ∧ ∀ u ∈ s.owed, Recoverable s.log s.backupLog u
  | .cleanPrimary => s.owed = []
  | .cleanBackup => s.owed = []
  | .removeBackup m =>
      (∀ q, m.lookup q = pendingAt q (pendingAt q none s.log) s.backupLog) ∧
        ∀ u ∈ s.owed, u ∈ uids m.entries
  | .rename m hadBackup =>
      s.bak = none ∧ (∀ u ∈ s.owed, u ∈ uids m.entries) ∧
        (hadBackup = false → ∀ q, m.lookup q = pendingAt q none s.log)
  | .removePrimary m => ∀ u ∈ s.owed, u ∈ uids m.entries
  | .requeue left call inMemory =>
      Kept (leftUids left call) s.view ∧
        (inMemory = false → ∀ u ∈ leftUids left call, Pending s.backupLog u) ∧
        ∀ u ∈ s.owed, u ∈ uids left ∨ s.Replayed u
  | .removeBackupLast => Kept [] s.view ∧ ∀ u ∈ s.owed, s.Replayed u
  | .done => Kept [] s.view ∧ s.backupLog = [] ∧ ∀ u ∈ s.owed, s.Replayed u

/-- What holds in every state that the condition allows. -/
structure DurableInv (s : WalState) : Prop where
  sound : Sound s
  /-- Without a process, the files have every live task. -/
  down : s.up = false → ∀ u, s.view.Live u → Recoverable s.log s.backupLog u
  /-- While the files are read and moved, the live tasks are those that were owed. -/
  owed : s.up = true → s.recover.ownsLog = false → ∀ u, s.view.Live u → u ∈ s.owed
  stage : s.up = true → StageOk s s.recover

section
variable {s s' : WalState}

/-! ## Crashes -/

theorem noClash_spec (h : s.noClash = true) {q : Nat} {e : WalEntry}
    (he : pendingAt q none s.log = some e) : ∀ r ∈ s.backupLog, r.seq? ≠ some q := by
  intro r hr
  have hlook : (parseWalFile (.empty, 0) s.primary).1.lookup q = some e := by
    rw [lookup_parse]
    exact he
  have hall := List.all_eq_true.mp h (q, e) ((OrderedMap.mem_entries _).mpr hlook)
  simpa using List.all_eq_true.mp hall r hr

/-- What is pending in the primary is still pending when the backup is merged. -/
theorem recoverable_of_log (hclash : s.noClash = true) {u : Nat} (h : Pending s.log u) :
    Recoverable s.log s.backupLog u := by
  obtain ⟨q, e, he, hu⟩ := h
  refine ⟨q, e, ?_, hu⟩
  rw [pendingAt_of_notMem (noClash_spec hclash he)]
  exact he

/-- What is pending in the backup is not hidden by the primary. -/
theorem recoverable_of_backup (hclash : s.noClash = true) {u : Nat} (h : Pending s.backupLog u) :
    Recoverable s.log s.backupLog u := by
  obtain ⟨q, e, he, hu⟩ := h
  refine ⟨q, e, ?_, hu⟩
  have hnone : pendingAt q none s.log = none := by
    cases hlog : pendingAt q none s.log with
    | none => rfl
    | some e' => exact absurd rfl (noClash_spec hclash hlog _ (mem_of_pending he))
  rw [hnone]
  exact he

/-- After an allowed crash the files have every live task. -/
theorem DurableInv.crash (h : DurableInv s) (hup : s.up = true)
    (hok : crashSafe s .crash = true) {u : Nat} (hu : s.view.Live u) :
    Recoverable s.log s.backupLog u := by
  have hstage := h.stage hup
  have howed : s.recover.ownsLog = false → u ∈ s.owed := fun hown => h.owed hup hown u hu
  simp only [crashSafe] at hok
  cases hr : s.recover with
  | parsePrimary =>
      rw [hr] at hstage howed
      exact hstage u (howed rfl)
  | parseBackup m n =>
      rw [hr] at hstage howed
      exact hstage.2 u (howed rfl)
  | cleanPrimary =>
      rw [hr] at hstage howed
      have hmem := howed rfl
      rw [hstage] at hmem
      cases hmem
  | cleanBackup =>
      rw [hr] at hstage howed
      have hmem := howed rfl
      rw [hstage] at hmem
      cases hmem
  | removeBackup m =>
      rw [hr] at hstage howed
      obtain ⟨q, e, hq, hue⟩ := mem_uids.mp (hstage.2 u (howed rfl))
      exact ⟨q, e, (hstage.1 q).symm.trans hq, hue⟩
  | rename m had =>
      rw [hr] at hstage howed hok
      obtain ⟨hbak, hin, hmap⟩ := hstage
      obtain ⟨q, e, hq, hue⟩ := mem_uids.mp (hin u (howed rfl))
      have hnil : s.backupLog = [] := by rw [WalState.backupLog, hbak]; rfl
      refine ⟨q, e, ?_, hue⟩
      rw [hnil, pendingAt_nil, ← hmap (by simpa using hok)]
      exact hq
  | removePrimary m =>
      rw [hr] at hok
      cases hok
  | requeue left call inMemory =>
      rw [hr] at hstage hok
      obtain ⟨hkept, hbackup, -⟩ := hstage
      obtain ⟨hleft, hclash⟩ := Bool.and_eq_true_iff.mp hok
      rcases hkept u hu with hin | hpend
      · cases inMemory with
        | false => exact recoverable_of_backup hclash (hbackup rfl u hin)
        | true =>
            -- Nothing is left to be written.
            have hnil : leftUids left call = [] := by
              simp only [Bool.not_true, Bool.false_or, Bool.and_eq_true, List.isEmpty_iff] at hleft
              simp [leftUids, uids, hleft.1, hleft.2]
            rw [hnil] at hin
            cases hin
      · exact recoverable_of_log hclash hpend
  | removeBackupLast =>
      rw [hr] at hstage hok
      exact recoverable_of_log hok ((hstage.1 u hu).resolve_left (by simp))
  | done =>
      rw [hr] at hstage
      obtain ⟨hkept, hnil, -⟩ := hstage
      obtain ⟨q, e, he, hue⟩ := (hkept u hu).resolve_left (by simp)
      exact ⟨q, e, by rw [hnil]; exact he, hue⟩

/-! ## Steps of `WalRecover` -/

/-- A call drops out of the unwritten ones when its task is pending in the log. -/
theorem unwritten_callStep (hN : Numbered s.view) {c : Call} (hc : c ∈ s.view.calls) :
    (∀ u ∈ (callStep s c).2.toList.flatMap Call.unwritten, u ∈ c.unwritten) ∧
      ∀ u ∈ c.unwritten, u ∈ (callStep s c).2.toList.flatMap Call.unwritten ∨
        Pending (callStep s c).1.log u := by
  cases hpc : c.pc with
  | nextSeq => simp [callStep, hpc, Call.unwritten]
  | writePending =>
      obtain ⟨-, hle, hnew⟩ := hN.writing c hc hpc
      have hlt : s.sGlobalSeq < 2 ^ 64 := hN.seq_lt
      have hle' : c.task.walSeq ≤ s.sGlobalSeq := hle
      have hlog := log_walWritePending (s := s) (show c.task.walSeq < 2 ^ 64 by omega)
        (hN.data c hc (.inr hpc))
      have hpend : Pending (s.walWritePending c.task).log c.task.uid := by
        rw [hlog]
        exact pending_append_self (entryOf c.task) hnew
      simp [callStep, hpc, Call.unwritten, hpend]
  | push =>
      simp only [callStep, hpc, Call.unwritten]
      split
      · simp
      · split <;> simp [Call.unwritten]
  | writeDone => simp [callStep, hpc, Call.unwritten]

theorem DurableInv.recoverStep {b : Bool} (h : DurableInv s) (hup : s.up = true)
    (hlt : s.sGlobalSeq + 1 < 2 ^ 64) (hs : recoverStep s b = some s') : DurableInv s' := by
  have hsound := h.sound.recoverStep hup hlt hs
  have hstage := h.stage hup
  have howed := h.owed hup
  cases hr : s.recover with
  | parsePrimary =>
      rw [hr] at hstage howed
      simp only [Wal.recoverStep, hr] at hs
      cases hs
      refine ⟨hsound, (fun hd => by cases hup.symm.trans hd), (fun _ _ => howed rfl), fun _ => ?_⟩
      exact ⟨fun q => lookup_parse _ _ _ q, hstage⟩
  | parseBackup m n =>
      rw [hr] at hstage howed
      obtain ⟨hmap, hrec⟩ := hstage
      have hmap' : ∀ q, (parseWalFile (m, n) s.bak).1.lookup q =
          pendingAt q (pendingAt q none s.log) s.backupLog := by
        intro q
        rw [lookup_parse, hmap q]
        rfl
      have hin : ∀ u ∈ s.owed, u ∈ uids (parseWalFile (m, n) s.bak).1.entries := by
        intro u hu
        obtain ⟨q, e, he, hue⟩ := hrec u hu
        exact mem_uids.mpr ⟨q, e, (hmap' q).trans he, hue⟩
      simp only [Wal.recoverStep, hr] at hs
      split at hs
      next hnone =>
        -- Nothing is pending, so nothing was owed.
        have hnil : s.owed = [] := by
          refine List.eq_nil_iff_forall_not_mem.mpr fun u hu => ?_
          have hmem := hin u hu
          rw [List.isEmpty_iff.mp hnone] at hmem
          cases hmem
        by_cases h0 : (parseWalFile (m, n) s.bak).2 = 0
        · rw [if_pos h0] at hs
          cases hs
          refine ⟨hsound, (fun hd => by cases hup.symm.trans hd), (fun _ ho => by cases ho), fun _ => ?_⟩
          refine ⟨fun u hu => ?_, h.sound.backup.eq_nil h0, fun u hu => ?_⟩
          · have hmem := howed rfl u hu
            rw [hnil] at hmem
            cases hmem
          · have hmem : u ∈ s.owed := hu
            rw [hnil] at hmem
            cases hmem
        · rw [if_neg h0] at hs
          cases hs
          exact ⟨hsound, (fun hd => by cases hup.symm.trans hd), (fun _ _ => howed rfl), (fun _ => hnil)⟩
      · cases hs
        exact ⟨hsound, (fun hd => by cases hup.symm.trans hd), (fun _ _ => howed rfl),
          (fun _ => ⟨hmap', hin⟩)⟩
  | cleanPrimary =>
      rw [hr] at hstage howed
      simp only [Wal.recoverStep, hr] at hs
      cases hs
      exact ⟨hsound, (fun hd => by cases hup.symm.trans hd), (fun _ _ => howed rfl), (fun _ => hstage)⟩
  | cleanBackup =>
      rw [hr] at hstage howed
      simp only [Wal.recoverStep, hr] at hs
      cases hs
      refine ⟨hsound, (fun hd => by cases hup.symm.trans hd), (fun _ ho => by cases ho), fun _ => ?_⟩
      refine ⟨fun u hu => ?_, rfl, fun u hu => ?_⟩
      · have hmem := howed rfl u hu
        rw [hstage] at hmem
        cases hmem
      · have hmem : u ∈ s.owed := hu
        rw [hstage] at hmem
        cases hmem
  | removeBackup m =>
      rw [hr] at hstage howed
      obtain ⟨hmap, hin⟩ := hstage
      simp only [Wal.recoverStep, hr] at hs
      cases hs
      refine ⟨hsound, (fun hd => by cases hup.symm.trans hd), (fun _ _ => howed rfl), fun _ => ?_⟩
      refine ⟨rfl, hin, fun hhad q => ?_⟩
      have hnil : s.backupLog = [] := by
        have hbak : s.bak = none := by simpa using hhad
        rw [WalState.backupLog, hbak]
        rfl
      rw [hmap q, hnil]
      rfl
  | rename m had =>
      rw [hr] at hstage howed
      obtain ⟨hbak, hin, hmap⟩ := hstage
      simp only [Wal.recoverStep, hr] at hs
      split at hs
      · cases hs
        refine ⟨hsound, (fun hd => by cases hup.symm.trans hd), (fun _ ho => by cases ho), fun _ => ?_⟩
        refine ⟨fun u hu => .inl ?_, fun hhad u hu => ?_, fun u hu => .inl (hin u hu)⟩
        · exact List.mem_append_left _ (hin u (howed rfl u hu))
        · have hu' : u ∈ uids m.entries := by simpa [leftUids] using hu
          obtain ⟨q, e, hq, hue⟩ := mem_uids.mp hu'
          exact ⟨q, e, (hmap hhad q).symm.trans hq, hue⟩
      · cases hs
        exact ⟨hsound, (fun hd => by cases hup.symm.trans hd), (fun _ _ => howed rfl), (fun _ => hin)⟩
  | removePrimary m =>
      rw [hr] at hstage howed
      simp only [Wal.recoverStep, hr] at hs
      cases hs
      refine ⟨hsound, (fun hd => by cases hup.symm.trans hd), (fun _ ho => by cases ho), fun _ => ?_⟩
      refine ⟨fun u hu => .inl ?_, (fun hb => by cases hb), fun u hu => .inl (hstage u hu)⟩
      exact List.mem_append_left _ (hstage u (howed rfl u hu))
  | requeue left call inMemory =>
      rw [hr] at hstage
      obtain ⟨hkept, hbackup, hdone⟩ := hstage
      have hN := h.sound.numbered hup (by rw [hr]; rfl)
      cases call with
      | some c =>
          have hstep := requeue_logStep hN (h.sound.workers hup) hlt hr
          obtain ⟨hf, -⟩ := callStep_frame s c
          have hc : c ∈ s.view.calls := by simp [WalState.view, hr, RecoverPc.call]
          obtain ⟨hsub, hcover⟩ := unwritten_callStep hN hc
          simp only [Wal.recoverStep, hr] at hs
          cases hs
          refine ⟨hsound, (fun hd => by cases (hf.up.trans hup).symm.trans hd), (fun _ ho => by cases ho),
            fun _ => ⟨fun u hu => ?_, fun hb u hu => ?_, fun u hu => ?_⟩⟩
          · rcases hkept.step hN hstep u hu with hin | hpend
            · rcases List.mem_append.mp hin with hin | hin
              · exact .inl (List.mem_append_left _ hin)
              · have hin' : u ∈ c.unwritten := by simpa using hin
                exact (hcover u hin').imp_left fun hm => List.mem_append_right _ hm
            · exact .inr hpend
          · have hlog : { (callStep s c).1 with
                recover := .requeue left (callStep s c).2 inMemory }.backupLog = s.backupLog := by
              rw [WalState.backupLog, hf.bak]
              rfl
            rw [hlog]
            refine hbackup hb u ?_
            rcases List.mem_append.mp hu with hu | hu
            · exact List.mem_append_left _ hu
            · exact List.mem_append_right _ (by simpa using hsub u hu)
          · have hu' : u ∈ s.owed := hf.owed ▸ hu
            rcases hdone u hu' with hin | ⟨r, hmem, hlife, huid⟩
            · exact .inl hin
            · exact .inr ⟨r, hf.replays ▸ hmem, hlife.trans hf.life.symm, huid⟩
      | none =>
          cases left with
          | nil =>
              simp only [Wal.recoverStep, hr] at hs
              cases hs
              refine ⟨hsound, (fun hd => by cases hup.symm.trans hd), (fun _ ho => by cases ho),
                fun _ => ⟨hkept, fun u hu => ?_⟩⟩
              exact (hdone u hu).resolve_left (by simp [uids])
          | cons x left =>
              simp only [Wal.recoverStep, hr] at hs
              cases hs
              have hperm : ∀ u, u ∈ leftUids (x :: left) none ↔
                  u ∈ leftUids left (some { task := x.2.task }) := by
                intro u
                simp [leftUids, uids, Call.unwritten, WalEntry.task, or_comm]
              refine ⟨hsound, (fun hd => by cases hup.symm.trans hd), (fun _ ho => by cases ho),
                fun _ => ⟨fun u hu => ?_, fun hb u hu => hbackup hb u ((hperm u).mpr hu), fun u hu => ?_⟩⟩
              · exact (hkept u hu).imp_left (hperm u).mp
              · rcases hdone u hu with hin | ⟨r, hmem, hlife, huid⟩
                · rcases List.mem_cons.mp hin with rfl | hin
                  · exact .inr ⟨_, List.mem_append_right _ (List.mem_singleton_self _), rfl, rfl⟩
                  · exact .inl hin
                · exact .inr ⟨r, List.mem_append_left _ hmem, hlife, huid⟩
  | removeBackupLast =>
      rw [hr] at hstage
      simp only [Wal.recoverStep, hr] at hs
      cases hs
      exact ⟨hsound, (fun hd => by cases hup.symm.trans hd), (fun _ ho => by cases ho),
        (fun _ => ⟨hstage.1, rfl, hstage.2⟩)⟩
  | done =>
      simp only [Wal.recoverStep, hr] at hs
      cases hs

/-! ## Steps of the threads -/

theorem Frame.backupLog (hf : Frame s s') : s'.backupLog = s.backupLog := by
  rw [WalState.backupLog, hf.bak]
  rfl

theorem Frame.replayed (hf : Frame s s') {u : Nat} (h : s.Replayed u) : s'.Replayed u := by
  obtain ⟨r, hr, hlife, hu⟩ := h
  exact ⟨r, hf.replays ▸ hr, hlife.trans hf.life.symm, hu⟩

/-- The threads keep every live task in the log of this life. -/
theorem StageOk.inner {pc : RecoverPc} (hown : pc.ownsLog = true) (h : StageOk s pc)
    (hN : Numbered s.view) (hstep : LogStep s.view s'.view) (hf : Frame s s') : StageOk s' pc := by
  have hrep : ∀ u, s.Replayed u → s'.Replayed u := fun u => hf.replayed
  cases pc with
  | requeue left call inMemory =>
      obtain ⟨hkept, hbackup, hdone⟩ := h
      refine ⟨hkept.step hN hstep, ?_, fun u hu => ?_⟩
      · rw [hf.backupLog]
        exact hbackup
      · exact (hdone u (hf.owed ▸ hu)).imp_right (hrep u)
  | removeBackupLast =>
      obtain ⟨hkept, hdone⟩ := h
      exact ⟨hkept.step hN hstep, fun u hu => hrep u (hdone u (hf.owed ▸ hu))⟩
  | done =>
      obtain ⟨hkept, hnil, hdone⟩ := h
      exact ⟨hkept.step hN hstep, hf.backupLog.trans hnil,
        fun u hu => hrep u (hdone u (hf.owed ▸ hu))⟩
  | _ => cases hown

/-- Threads without tasks change nothing that a stage before the loop is about. -/
theorem StageOk.idle {pc : RecoverPc} (hown : pc.ownsLog = false) (h : StageOk s pc)
    (hI : Idle s s') : StageOk s' pc := by
  have hlog : s'.log = s.log := by rw [WalState.log, hI.primary]; rfl
  have hbackup := hI.frame.backupLog
  have howed := hI.frame.owed
  have hbak := hI.frame.bak
  cases pc with
  | requeue left call inMemory => cases hown
  | removeBackupLast => cases hown
  | done => cases hown
  | _ =>
      simp only [StageOk] at h ⊢
      simpa only [hlog, hbackup, howed, hbak] using h

theorem durableInv_init : DurableInv {} where
  sound := sound_init {}
  down := fun _ _ hu => by cases hu.1
  owed := fun hup => by cases hup
  stage := fun hup => by cases hup

theorem DurableInv.step {a : Act} (h : DurableInv s) (hok : inBounds s a = true)
    (hsafe : crashSafe s a = true) (hs : step s a = some s') : DurableInv s' := by
  have hsound := h.sound.step hok hs
  by_cases ha : a.isInner = true
  · have hup := inner_up h.sound ha hs
    have hstage := h.stage hup
    cases hown : s.recover.ownsLog with
    | true =>
        obtain ⟨hstep, hf⟩ := inner_logStep h.sound hup hown ha hok hs
        have hstage' := hstage.inner hown (h.sound.numbered hup hown) hstep hf
        refine ⟨hsound, (fun hd => by cases (hf.up.trans hup).symm.trans hd), fun _ ho => ?_,
          fun _ => hf.recover ▸ hstage'⟩
        rw [hf.recover, hown] at ho
        cases ho
    | false =>
        have hI := inner_idle h.sound hup hown ha hs
        have hf := hI.frame
        refine ⟨hsound, (fun hd => by cases (hf.up.trans hup).symm.trans hd), fun _ _ u hu => ?_,
          fun _ => hf.recover ▸ hstage.idle hown hI⟩
        have hlive : s.view.Live u := by
          simpa only [View.Live, WalState.view, hI.durable, hI.rejected, hI.processed] using hu
        exact hf.owed ▸ h.owed hup hown u hlive
  · cases a with
    | start n =>
        simp only [Wal.step] at hs
        split at hs
        next hcond =>
          cases hs
          have hdown : s.up = false := by simpa using (Bool.and_eq_true_iff.mp hcond).1
          have hmem : ∀ u, u ∈ (s.startProcess n).owed ↔ s.view.Live u := by
            intro u
            simp [WalState.startProcess, View.Live, WalState.view]
          exact ⟨hsound, (fun hd => by cases hd), (fun _ _ u hu => (hmem u).mpr hu),
            (fun _ u hu => h.down hdown u ((hmem u).mp hu))⟩
        · cases hs
    | recover b =>
        simp only [Wal.step] at hs
        split at hs
        next hup => exact h.recoverStep hup (by simpa [inBounds] using hok) hs
        · cases hs
    | enqueue t =>
        obtain ⟨hup, hdone, -, hcases⟩ := enqueue_cases hs
        have hstage := h.stage hup
        rw [hdone] at hstage
        rcases hcases with rfl | ⟨cb, rfl⟩
        · refine ⟨hsound, (fun hd => by cases hup.symm.trans hd), (fun _ ho => ?_), fun _ => ?_⟩
          · rw [hdone] at ho
            cases ho
          · show StageOk _ s.recover
            rw [hdone]
            exact hstage
        · refine ⟨hsound, (fun hd => by cases hup.symm.trans hd), (fun _ ho => ?_), fun _ => ?_⟩
          · rw [hdone] at ho
            cases ho
          · show StageOk _ s.recover
            rw [hdone]
            exact hstage
    | crash =>
        simp only [Wal.step] at hs
        split at hs
        next hup =>
          cases hs
          exact ⟨hsound, (fun _ u hu => h.crash hup hsafe hu), (fun hu => by cases hu),
            (fun hu => by cases hu)⟩
        · cases hs
    | takeId => exact absurd rfl ha
    | call i => exact absurd rfl ha
    | work p answer => exact absurd rfl ha
    | stop => exact absurd rfl ha
    | join => exact absurd rfl ha

end

/-! ## Runs -/

/-- The condition on every step: within bounds, and no crash in a gap. -/
def durableOk (s : WalState) (a : Act) : Bool := inBounds s a && crashSafe s a

/-- In every run whose crashes stay out of the two gaps, whenever `WalRecover` has
returned, it has enqueued again every task that was owed. -/
theorem recovered_of_crashSafe (as : List Act) (s : WalState)
    (hok : Machine.Meets step (fun s a => durableOk s a) {} as)
    (hrun : Machine.run step {} as = some s) : Recovered s := by
  have hI : DurableInv s := by
    refine Machine.run_invariant_of_meets (fun s a s' hI hok hs => ?_) durableInv_init hok hrun
    obtain ⟨hb, hc⟩ := Bool.and_eq_true_iff.mp hok
    exact hI.step hb hc hs
  intro hup hdone
  have hstage := hI.stage hup
  rw [hdone] at hstage
  exact hstage.2.2

/-! ## Two runs -/

/-- An update of the player data of a session. -/
def update (sessionId : ConnectionId) (data : String) : DBTask :=
  { uid := 0, type := .updatePlayerData, sessionId, data := data.toList }

/-- A whole call of `EnqueueTask`. -/
def enqueueAll (t : DBTask) : List Act := .enqueue t :: List.replicate 3 (.call 0)

/-- Some steps of `WalRecover`. -/
def recoverAll (n : Nat) : List Act := List.replicate n (.recover true)

/-- Two tasks are enqueued and the first is processed.  The process crashes, and
`WalRecover` enqueues the second again. -/
def restartTrace : List Act :=
  List.flatten
    [[.start 1], recoverAll 2, enqueueAll (update 1 "a"), enqueueAll (update 2 "b|c"),
      List.replicate 4 (.work 0 .ok), [.crash, .start 1], recoverAll (4 + 4 + 2)]

/-- The log of the new life has the second task alone. -/
theorem recovered_restartTrace :
    ∃ s, Machine.run step {} restartTrace = some s ∧ s.owed = [1] ∧
      s.primary.map (·.map fun c => String.ofList c.text) = some ["P|2|2|1|b\x01c\n"] ∧
      Recovered s :=
  ⟨_, rfl, by decide +kernel, by decide +kernel,
    recovered_of_crashSafe restartTrace _ (by decide +kernel) rfl⟩

/-- Three tasks A, B and C have the numbers 1, 2 and 3, and A is done.  After a crash
`WalRecover` enqueues B and C again with the numbers 1 and 2, and the process crashes
before it removes the backup.  In the third life the primary has B and C under 1
and 2.  The backup has C under 3, its B is hidden by C, and its `D` line for A
erases the other B. -/
def collisionTrace : List Act :=
  List.flatten
    [[.start 1], recoverAll 2, enqueueAll (update 1 "a"), enqueueAll (update 2 "b"),
      enqueueAll (update 3 "c"), List.replicate 4 (.work 0 .ok), [.crash, .start 1],
      recoverAll (4 + 8), [.crash, .start 1], recoverAll (4 + 8 + 2)]

/-- B is owed, and `WalRecover` has enqueued C twice. -/
theorem collision_loses_task :
    ∃ s, Machine.run step {} collisionTrace = some s ∧ s.up = true ∧ s.recover.isDone = true ∧
      1 ∈ s.owed ∧ (s.replays.filter (·.life = 3)).map (·.uid) = [2, 2] ∧ ¬ Recovered s := by
  refine ⟨_, rfl, by decide +kernel, by decide +kernel, by decide +kernel, by decide +kernel,
    fun h => ?_⟩
  obtain ⟨r, hr, hlife, hu⟩ := h (by decide +kernel) rfl 1 (by decide +kernel)
  revert r
  decide +kernel

end NetworkModule.Wal
