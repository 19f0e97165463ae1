import NetworkModule.Wal.LogProtocol

/-!
# Tasks that are outstanding

A task is outstanding from the moment its call has a sequence number until a worker
drops it or its `D` line is written.  No two outstanding tasks have one number, and
a task whose `P` line is in the log is pending there.

A task that a handler failed on is not outstanding any more.  No line with its
number is written again in this life, so it stays pending (`Dropped.step`).
-/

namespace NetworkModule.Wal

/-! ## Outstanding tasks -/

/-- The task of a call that has its number. -/
def Call.numbered (c : Call) : List DBTask :=
  match c.pc with
  | .nextSeq => []
  | _ => [c.task]

/-- The tasks with whose number a line may still be written. -/
def View.outstanding (v : View) : List DBTask := v.calls.flatMap Call.numbered ++ (v.tasks ++ v.dones)

/-- The log says that the task is pending. -/
def Pends (log : List WalRecord) (t : DBTask) : Prop :=
  pendingAt t.walSeq none log = some (entryOf t)

/-- The log has no line with the number of the task. -/
def Unused (log : List WalRecord) (t : DBTask) : Prop := ∀ r ∈ log, r.seq? ≠ some t.walSeq

/-- What a step does to the log and to the outstanding tasks. -/
inductive LogChange (v v' : View) : Prop where
  | same (hlog : v'.log = v.log) (h : v'.outstanding.Perm v.outstanding)
  | take (t : DBTask) (hlog : v'.log = v.log) (hseq : t.walSeq = v.seq + 1)
      (h : v'.outstanding.Perm (t :: v.outstanding))
  | write (t : DBTask) (R : List DBTask) (hlog : v'.log = v.log ++ [.pending t.walSeq (entryOf t)])
      (hnew : Unused v.log t) (h : v.outstanding.Perm (t :: R)) (h' : v'.outstanding.Perm (t :: R))
  | drop (t : DBTask) (R : List DBTask)
      (hlog : v'.log = v.log ∨ v'.log = v.log ++ [.done t.walSeq])
      (h : v.outstanding.Perm (t :: R)) (h' : v'.outstanding.Perm R)

/-- No two outstanding tasks have one number, and each is pending or not written. -/
structure Outstanding (v : View) : Prop where
  nodup : (v.outstanding.map (·.walSeq)).Nodup
  pends : ∀ t ∈ v.outstanding, Pends v.log t ∨ Unused v.log t

/-- The task is pending, and nobody writes a line with its number. -/
structure Dropped (v : View) (t : DBTask) : Prop where
  pends : Pends v.log t
  other : ∀ t' ∈ v.outstanding, t'.walSeq ≠ t.walSeq

section
variable {log : List WalRecord} {t t' : DBTask}

theorem Pends.written (h : Pends log t) : .pending t.walSeq (entryOf t) ∈ log := mem_of_pending h

theorem Pends.ne_of_unused (h : Pends log t) (h' : Unused log t') : t'.walSeq ≠ t.walSeq := by
  intro heq
  exact h' _ h.written (congrArg some heq.symm)

/-- A line with another number changes nothing. -/
theorem Pends.append (h : Pends log t) {r : WalRecord} (hr : r.seq? ≠ some t.walSeq) :
    Pends (log ++ [r]) t := by
  rw [Pends, pendingAt_append, keyStep_of_ne hr]
  exact h

theorem Unused.append (h : Unused log t) {r : WalRecord} (hr : r.seq? ≠ some t.walSeq) :
    Unused (log ++ [r]) t := by
  intro r' hr'
  rcases List.mem_append.mp hr' with hr' | hr'
  · exact h r' hr'
  · rw [List.mem_singleton.mp hr']
    exact hr

/-- The `P` line makes its task pending. -/
theorem Unused.pends (h : Unused log t) : Pends (log ++ [.pending t.walSeq (entryOf t)]) t := by
  rw [Pends, pendingAt_append, pendingAt_of_notMem h]
  simp [keyStep]

theorem Written.pends (hw : Written log t) (h : Pends log t ∨ Unused log t) : Pends log t := by
  obtain ⟨e, he, -⟩ := hw
  exact h.resolve_right fun hnew => hnew _ he rfl

end

/-! ## Steps of the protocol -/

section
variable {v v' : View}

/-- A call that goes on with its number changes nothing. -/
theorem outstanding_replace {c c' : Call} {R cs : List Call} (hp : v.calls.Perm (c :: R))
    (hcs : cs.Perm (c' :: R)) (heq : c'.numbered = c.numbered) :
    ({ v with calls := cs }.outstanding).Perm v.outstanding := by
  refine List.Perm.append_right _ ((hcs.flatMap_right Call.numbered).trans ?_)
  rw [List.flatMap_cons, heq, ← List.flatMap_cons]
  exact (hp.flatMap_right Call.numbered).symm

theorem LogStep.change (hs : LogStep v v') (hN : Numbered v) : LogChange v v' := by
  have hnum : ∀ {c : Call}, c.pc ≠ .nextSeq → c.numbered = [c.task] := by
    intro c hc
    cases hpc : c.pc with
    | nextSeq => exact absurd hpc hc
    | _ => simp [Call.numbered, hpc]
  -- The task of a call stands before the others.
  have hcall : ∀ {c : Call} {R : List Call}, v.calls.Perm (c :: R) → c.pc ≠ .nextSeq →
      v.outstanding.Perm (c.task :: (R.flatMap Call.numbered ++ (v.tasks ++ v.dones))) := by
    intro c R hp hc
    have hp' := (hp.flatMap_right Call.numbered).append_right (v.tasks ++ v.dones)
    rw [List.flatMap_cons, hnum hc] at hp'
    exact hp'
  cases hs with
  | move hc ht hd =>
      exact .same rfl ((hc.flatMap_right _).append (ht.append hd))
  | takeId hlt => exact .same rfl (List.Perm.refl _)
  | @nextSeq c R cs hp hpc hlt hcs =>
      refine .take { c.task with walSeq := v.seq + 1 } rfl rfl ?_
      have hold := hp.flatMap_right Call.numbered
      have hnew := hcs.flatMap_right Call.numbered
      have hnil : c.numbered = [] := by simp [Call.numbered, hpc]
      rw [List.flatMap_cons, hnil, List.nil_append] at hold
      rw [List.flatMap_cons, hnum (by simp)] at hnew
      exact (hnew.trans (hold.symm.cons _)).append_right _
  | @writePending c R cs hp hpc hcs =>
      have hnew := (hN.writing c (hp.mem_iff.mpr List.mem_cons_self) hpc).2.2
      have hold := hcall hp (by simp [hpc])
      refine .write c.task _ rfl hnew hold ((outstanding_replace hp hcs ?_).trans hold)
      rw [hnum (by simp), hnum (by simp [hpc])]
  | @push c R cs ts ds hp hpc hcs ht hd =>
      refine .same rfl ?_
      have hnew : (cs.flatMap Call.numbered ++ (ts ++ ds)).Perm
          (R.flatMap Call.numbered ++ (c.task :: (v.tasks ++ v.dones))) :=
        (hcs.flatMap_right _).append (ht.append hd)
      exact hnew.trans (List.perm_middle.trans (hcall hp (by simp [hpc])).symm)
  | @reject c R cs hp hpc hcs =>
      refine .same rfl (outstanding_replace hp hcs ?_)
      rw [hnum (by simp), hnum (by simp [hpc])]
  | @cancel c R cs hp hpc hcs =>
      exact .drop c.task _ (.inr rfl) (hcall hp (by simp [hpc]))
        ((hcs.flatMap_right _).append_right _)
  | @fail t R ts ds hp ht hd =>
      refine .drop t (v.calls.flatMap Call.numbered ++ (R ++ v.dones)) (.inl rfl) ?_
        ((ht.append hd).append_left _)
      exact ((hp.append_right _).append_left _).trans List.perm_middle
  | @succeed t R ts ds hp ht hd =>
      refine .same rfl (List.Perm.append_left _ ((ht.append hd).trans ?_))
      exact List.perm_middle.trans (hp.append_right v.dones).symm
  | @ack t R ts ds hp ht hd =>
      refine .drop t (v.calls.flatMap Call.numbered ++ (v.tasks ++ R)) (.inr rfl) ?_
        ((ht.append hd).append_left _)
      refine ((hp.append_left _).append_left _).trans ?_
      exact (List.perm_middle.append_left _).trans List.perm_middle

/-- The first of some outstanding tasks has a number of its own. -/
theorem Outstanding.ne_of_perm (h : Outstanding v) {t : DBTask} {R : List DBTask}
    (hp : v.outstanding.Perm (t :: R)) : ∀ t' ∈ R, t'.walSeq ≠ t.walSeq := by
  have hnodup := (hp.map (·.walSeq)).nodup_iff.mp h.nodup
  intro t' ht' heq
  exact (List.nodup_cons.mp hnodup).1 (List.mem_map.mpr ⟨t', ht', heq⟩)

/-- The number of an outstanding task has been taken. -/
theorem Numbered.outstanding_le (hN : Numbered v) : ∀ t ∈ v.outstanding, t.walSeq ≤ v.seq := by
  intro t ht
  rcases List.mem_append.mp ht with ht | ht
  · obtain ⟨c, hc, htc⟩ := List.mem_flatMap.mp ht
    cases hpc : c.pc with
    | nextSeq => simp [Call.numbered, hpc] at htc
    | writePending =>
        have htask : t = c.task := by simpa [Call.numbered, hpc] using htc
        exact htask ▸ (hN.writing c hc hpc).2.1
    | push =>
        have htask : t = c.task := by simpa [Call.numbered, hpc] using htc
        exact htask ▸ hN.walSeq_le (hN.pushing c hc hpc)
    | writeDone =>
        have htask : t = c.task := by simpa [Call.numbered, hpc] using htc
        exact htask ▸ hN.walSeq_le (hN.canceling c hc hpc).1
  · rcases List.mem_append.mp ht with ht | ht
    · exact hN.walSeq_le (hN.tasks t ht)
    · exact hN.walSeq_le (hN.dones t ht).1

theorem Outstanding.step (h : Outstanding v) (hN : Numbered v) (hs : LogStep v v') :
    Outstanding v' := by
  cases hs.change hN with
  | same hlog hp =>
      refine ⟨(hp.map _).nodup_iff.mpr h.nodup, fun t ht => ?_⟩
      rw [hlog]
      exact h.pends t (hp.mem_iff.mp ht)
  | take t hlog hseq hp =>
      refine ⟨(hp.map _).nodup_iff.mpr (List.nodup_cons.mpr ⟨fun hin => ?_, h.nodup⟩), fun t' ht' => ?_⟩
      · obtain ⟨t', ht', heq⟩ := List.mem_map.mp hin
        have hle := hN.outstanding_le t' ht'
        have heq' : t'.walSeq = t.walSeq := heq
        omega
      · rw [hlog]
        rcases List.mem_cons.mp (hp.mem_iff.mp ht') with rfl | ht'
        · refine .inr fun r hr heq => ?_
          have hle := hN.seq_le r hr _ heq
          omega
        · exact h.pends t' ht'
  | write t R hlog hnew hp hp' =>
      refine ⟨(hp'.map _).nodup_iff.mpr ((hp.map _).nodup_iff.mp h.nodup), fun t' ht' => ?_⟩
      rw [hlog]
      rcases List.mem_cons.mp (hp'.mem_iff.mp ht') with rfl | ht'
      · exact .inl hnew.pends
      · have hne : (WalRecord.pending t.walSeq (entryOf t)).seq? ≠ some t'.walSeq := fun heq =>
          h.ne_of_perm hp t' ht' (Option.some.inj heq).symm
        exact (h.pends t' (hp.mem_iff.mpr (List.mem_cons_of_mem _ ht'))).imp (·.append hne)
          (·.append hne)
  | drop t R hlog hp hp' =>
      refine ⟨(hp'.map _).nodup_iff.mpr ?_, fun t' ht' => ?_⟩
      · exact (List.nodup_cons.mp ((hp.map _).nodup_iff.mp h.nodup)).2
      · have hR := hp'.mem_iff.mp ht'
        have hold := h.pends t' (hp.mem_iff.mpr (List.mem_cons_of_mem _ hR))
        rcases hlog with hlog | hlog
        · rw [hlog]
          exact hold
        · have hne : (WalRecord.done t.walSeq).seq? ≠ some t'.walSeq := fun heq =>
            h.ne_of_perm hp t' hR (Option.some.inj heq).symm
          rw [hlog]
          exact hold.imp (·.append hne) (·.append hne)

/-- A task that was dropped stays pending. -/
theorem Dropped.step {t : DBTask} (h : Dropped v t) (hN : Numbered v) (hs : LogStep v v') :
    Dropped v' t := by
  cases hs.change hN with
  | same hlog hp =>
      refine ⟨?_, fun t' ht' => h.other t' (hp.mem_iff.mp ht')⟩
      rw [hlog]
      exact h.pends
  | take t' hlog hseq hp =>
      have hle : t.walSeq ≤ v.seq := hN.seq_le _ h.pends.written _ rfl
      refine ⟨?_, fun t'' ht'' => ?_⟩
      · rw [hlog]
        exact h.pends
      · rcases List.mem_cons.mp (hp.mem_iff.mp ht'') with rfl | ht''
        · omega
        · exact h.other t'' ht''
  | write t' R hlog hnew hp hp' =>
      refine ⟨?_, fun t'' ht'' => h.other t'' (hp.mem_iff.mpr (hp'.mem_iff.mp ht''))⟩
      have hne : (WalRecord.pending t'.walSeq (entryOf t')).seq? ≠ some t.walSeq := fun heq =>
        h.pends.ne_of_unused hnew (Option.some.inj heq)
      rw [hlog]
      exact h.pends.append hne
  | drop t' R hlog hp hp' =>
      refine ⟨?_, fun t'' ht'' =>
        h.other t'' (hp.mem_iff.mpr (List.mem_cons_of_mem _ (hp'.mem_iff.mp ht'')))⟩
      rcases hlog with hlog | hlog
      · rw [hlog]
        exact h.pends
      · have hne : (WalRecord.done t'.walSeq).seq? ≠ some t.walSeq := fun heq =>
          h.other t' (hp.mem_iff.mpr List.mem_cons_self) (Option.some.inj heq)
        rw [hlog]
        exact h.pends.append hne

/-- A task that is outstanding no more and whose line was not written is dropped. -/
theorem Outstanding.dropped (h : Outstanding v) {t : DBTask} {R : List DBTask}
    (hw : Written v.log t) (hlog : v'.log = v.log) (hp : v.outstanding.Perm (t :: R))
    (hp' : v'.outstanding.Perm R) : Dropped v' t := by
  refine ⟨?_, fun t' ht' => h.ne_of_perm hp t' (hp'.mem_iff.mp ht')⟩
  rw [hlog]
  exact hw.pends (h.pends t (hp.mem_iff.mpr List.mem_cons_self))

end

end NetworkModule.Wal
