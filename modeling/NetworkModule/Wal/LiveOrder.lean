import NetworkModule.Lib.Tickets
import NetworkModule.Wal.Lifecycle

/-!
# The order of the queue and the order of the log

`EnqueueTask` draws the sequence number of a task and writes its `P` line before it takes the
lock of the worker.  A call that draws a later number may push its task first.  Then the
worker processes the two tasks in one order, and after a crash `WalRecover` replays them in
the other, since it goes through `pendingMap` in ascending order.

The numbers are the tickets of `Tickets`, with the sessions as keys.  A run has no overtaking
if every call that pushes a task is the first of its session: no other call of the session
with a smaller number is still before its push.  Then the tasks of a session were pushed in
the order of their numbers, and a replay has the unfinished ones in that order
(`agrees_of_meets`).
-/

namespace NetworkModule.Wal

/-! ## The pushes -/

/-- The queue and its crashes, and the tasks pushed in this life of the process. -/
structure Pushes where
  queue : WalState := {}
  pushed : List DBTask := []

/-- The call has drawn its number and has not pushed its task. -/
def Call.drawn (c : Call) : Bool :=
  match c.pc with
  | .writePending | .push => true
  | .nextSeq | .writeDone => false

/-- What the next step of the call pushes. -/
def Call.pushes (c : Call) (mIsRunning : Bool) : List DBTask :=
  if c.pc = .push ∧ mIsRunning = true then [c.task] else []

/-- What a step pushes. -/
def WalState.pushedBy (s : WalState) : Act → List DBTask
  | .call i => s.calls[i]?.toList.flatMap fun c => c.pushes s.mIsRunning
  | .recover _ => s.recover.call.toList.flatMap fun c => c.pushes s.mIsRunning
  | _ => []

/-- One step. -/
def Pushes.step (s : Pushes) (a : Act) : Option Pushes :=
  match Wal.step s.queue a with
  | none => none
  | some q =>
      some ⟨q, match a with
        | .start _ => []
        | _ => s.pushed ++ s.queue.pushedBy a⟩

/-! ## Live order and replay order -/

/-- The tasks of a session were pushed in the order of their sequence numbers. -/
def Pushes.LiveOrder (s : Pushes) : Prop := Tickets.InOrder DBTask.sessionId DBTask.walSeq s.pushed

/-- `pendingMap` of a `WalRecover` that would read the files now. -/
def WalState.pendingMap (s : WalState) : PendingMap :=
  (parseWalFile (parseWalFile (.empty, 0) s.primary) s.bak).1

/-- The tasks of a session that were pushed and are pending in the log, in the order in which
they were pushed. -/
def Pushes.unfinished (s : Pushes) (sid : ConnectionId) : List DBTask :=
  s.pushed.filter fun t =>
    t.sessionId = sid && (s.queue.pendingMap.lookup t.walSeq).map WalEntry.uid == some t.uid

/-- The replay goes through the unfinished tasks of every session in the order in which they
were pushed. -/
def Pushes.ReplayOrder (s : Pushes) : Prop :=
  ∀ sid, ((s.unfinished sid).map DBTask.walSeq).Sublist (s.queue.pendingMap.entries.map Prod.fst)

/-- If the call pushes its task now, no other call of its session with a smaller number is still
before its push. -/
def Call.First (c : Call) (others : List Call) : Prop :=
  c.pc = .push → ∀ c' ∈ others, c'.drawn = true → c'.task.sessionId = c.task.sessionId →
    c.task.walSeq < c'.task.walSeq

instance (c : Call) (others : List Call) : Decidable (c.First others) :=
  inferInstanceAs (Decidable (_ → ∀ c' ∈ others, _ → _ → _))

/-- No call pushes its task before one with a smaller number, and there are ids left. -/
def NoOvertaking (s : Pushes) : Act → Prop
  | .call i => s.queue.sGlobalSeq + 1 < 2 ^ 64 ∧
      (s.queue.mIsRunning = true → ∀ c ∈ s.queue.calls[i]?, c.First (s.queue.calls.eraseIdx i))
  | .recover _ | .takeId => s.queue.sGlobalSeq + 1 < 2 ^ 64
  | .start _ | .enqueue _ | .work _ _ | .stop | .join | .crash => True

instance (s : Pushes) : (a : Act) → Decidable (NoOvertaking s a)
  | .call _ => inferInstanceAs (Decidable (_ ∧ (_ → ∀ c ∈ _, Call.First c _)))
  | .recover _ | .takeId => inferInstanceAs (Decidable (_ < _))
  | .start _ | .enqueue _ | .work _ _ | .stop | .join | .crash => isTrue trivial

/-! ## Tickets -/

/-- The tasks of the calls that have drawn a number and not pushed. -/
def waitingOf (cs : List Call) : List DBTask := (cs.filter Call.drawn).map Call.task

/-- The queue as a desk. -/
def Pushes.desk (s : Pushes) : Tickets.Desk DBTask where
  next := s.queue.sGlobalSeq
  waiting := waitingOf (s.queue.recover.call.toList ++ s.queue.calls)
  used := s.pushed

section
variable {q : WalState} {s s' : Pushes}

theorem mem_waitingOf {cs : List Call} {t : DBTask} :
    t ∈ waitingOf cs ↔ ∃ c ∈ cs, c.drawn = true ∧ c.task = t := by
  simp [waitingOf, and_assoc]

theorem waitingOf_subset {cs cs' : List Call} (h : ∀ c ∈ cs, c.drawn = true → c ∈ cs') :
    waitingOf cs ⊆ waitingOf cs' := by
  intro t ht
  obtain ⟨c, hc, hd, rfl⟩ := mem_waitingOf.mp ht
  exact mem_waitingOf.mpr ⟨c, h c hc hd, hd, rfl⟩

/-- A step of the call `c`, beside the calls `R`. -/
theorem callStep_move {c : Call} {R cs cs' : List Call} (pushed : List DBTask)
    (hlt : q.sGlobalSeq + 1 < 2 ^ 64) (hfirst : q.mIsRunning = true → c.First R)
    (hc : c ∈ cs) (hR : ∀ c' ∈ R, c' ∈ cs) (hcs' : ∀ c' ∈ cs', c' ∈ (callStep q c).2.toList ++ R) :
    Tickets.Move DBTask.sessionId DBTask.walSeq ⟨q.sGlobalSeq, waitingOf cs, pushed⟩
      ⟨(callStep q c).1.sGlobalSeq, waitingOf cs', pushed ++ c.pushes q.mIsRunning⟩ := by
  -- A call that drops out of the waiting ones, or stays with the same task.
  have hdrop : ∀ {cs' : List Call},
      (∀ c' ∈ cs', c'.drawn = true → c' ∈ R ∨ c'.task = c.task ∧ c.drawn = true) →
      waitingOf cs' ⊆ waitingOf cs := by
    intro cs' h t ht
    obtain ⟨c', hc', hd, rfl⟩ := mem_waitingOf.mp ht
    rcases h c' hc' hd with hmem | ⟨htask, hdc⟩
    · exact mem_waitingOf.mpr ⟨c', hR c' hmem, hd, rfl⟩
    · exact mem_waitingOf.mpr ⟨c, hc, hdc, htask.symm⟩
  cases hpc : c.pc with
  | nextSeq =>
      have hseq : nextGlobalId q.sGlobalSeq = q.sGlobalSeq + 1 := Nat.mod_eq_of_lt hlt
      have hpushes : c.pushes q.mIsRunning = [] := by simp [Call.pushes, hpc]
      simp only [callStep, hpc, hseq, Option.toList_some] at hcs' ⊢
      rw [hpushes, List.append_nil]
      refine .draw (t := { c.task with walSeq := q.sGlobalSeq + 1 }) rfl fun t ht => ?_
      obtain ⟨c', hc', hd, rfl⟩ := mem_waitingOf.mp ht
      rcases List.mem_append.mp (hcs' c' hc') with hnew | hmem
      · rw [List.mem_singleton.mp hnew]
        exact List.mem_cons_self
      · exact List.mem_cons_of_mem _ (mem_waitingOf.mpr ⟨c', hR c' hmem, hd, rfl⟩)
  | writePending =>
      have hpushes : c.pushes q.mIsRunning = [] := by simp [Call.pushes, hpc]
      simp only [callStep, hpc, Option.toList_some] at hcs' ⊢
      rw [hpushes, List.append_nil]
      refine .drop le_rfl (hdrop fun c' hc' _ => ?_)
      rcases List.mem_append.mp (hcs' c' hc') with hnew | hmem
      · rw [List.mem_singleton.mp hnew]
        exact .inr ⟨rfl, by simp [Call.drawn, hpc]⟩
      · exact .inl hmem
  | push =>
      simp only [callStep, hpc] at hcs' ⊢
      cases hrun : q.mIsRunning with
      | true =>
          have hpushes : c.pushes true = [c.task] := by simp [Call.pushes, hpc]
          simp only [hrun, if_true, Option.toList_none, List.nil_append] at hcs' ⊢
          rw [hpushes]
          refine .use (mem_waitingOf.mpr ⟨c, hc, by simp [Call.drawn, hpc], rfl⟩)
            (hdrop fun c' hc' _ => .inl (hcs' c' hc')) fun u hu hkey => ?_
          obtain ⟨c', hc', hd, rfl⟩ := mem_waitingOf.mp hu
          exact hfirst hrun hpc c' (hcs' c' hc') hd hkey
      | false =>
          have hpushes : c.pushes false = [] := by simp [Call.pushes]
          simp only [hrun, Bool.false_eq_true, if_false] at hcs' ⊢
          rw [hpushes, List.append_nil]
          split at hcs'
          next hne =>
            rw [if_pos hne]
            refine .drop le_rfl (hdrop fun c' hc' hd => ?_)
            rcases List.mem_append.mp (hcs' c' hc') with hnew | hmem
            · rw [Option.toList_some, List.mem_singleton] at hnew
              rw [hnew] at hd
              cases hd
            · exact .inl hmem
          next hz =>
            rw [if_neg hz]
            exact .drop le_rfl (hdrop fun c' hc' _ => .inl (by simpa using hcs' c' hc'))
  | writeDone =>
      have hpushes : c.pushes q.mIsRunning = [] := by simp [Call.pushes, hpc]
      simp only [callStep, hpc, Option.toList_none, List.nil_append] at hcs' ⊢
      rw [hpushes, List.append_nil]
      exact .drop le_rfl (hdrop fun c' hc' _ => .inl (hcs' c' hc'))

/-- A step of `WalRecover` is a step of the call it has in progress, or draws and pushes
nothing. -/
theorem recoverStep_cases {q' : WalState} {b : Bool} (hs : recoverStep q b = some q') :
    q.recover.isDone = false ∧ q'.calls = q.calls ∧
      ((∃ c, q.recover.call = some c ∧ q'.sGlobalSeq = (callStep q c).1.sGlobalSeq ∧
          q'.recover.call = (callStep q c).2) ∨
        (q.recover.call = none ∧ q'.sGlobalSeq = q.sGlobalSeq ∧
          ∀ c, q'.recover.call = some c → c.drawn = false)) := by
  cases hr : q.recover with
  | parsePrimary =>
      simp only [recoverStep, hr] at hs
      cases hs
      exact ⟨rfl, rfl, .inr ⟨rfl, rfl, fun c hc => by cases hc⟩⟩
  | parseBackup m maxSeenSeq =>
      simp only [recoverStep, hr] at hs
      split at hs
      · cases hs
        refine ⟨rfl, rfl, .inr ⟨rfl, rfl, fun c hc => ?_⟩⟩
        split at hc <;> cases hc
      · cases hs
        exact ⟨rfl, rfl, .inr ⟨rfl, rfl, fun c hc => by cases hc⟩⟩
  | cleanPrimary =>
      simp only [recoverStep, hr] at hs
      cases hs
      exact ⟨rfl, rfl, .inr ⟨rfl, rfl, fun c hc => by cases hc⟩⟩
  | cleanBackup =>
      simp only [recoverStep, hr] at hs
      cases hs
      exact ⟨rfl, rfl, .inr ⟨rfl, rfl, fun c hc => by cases hc⟩⟩
  | removeBackup m =>
      simp only [recoverStep, hr] at hs
      cases hs
      exact ⟨rfl, rfl, .inr ⟨rfl, rfl, fun c hc => by cases hc⟩⟩
  | rename m hadBackup =>
      simp only [recoverStep, hr] at hs
      split at hs
      · cases hs
        exact ⟨rfl, rfl, .inr ⟨rfl, rfl, fun c hc => by cases hc⟩⟩
      · cases hs
        exact ⟨rfl, rfl, .inr ⟨rfl, rfl, fun c hc => by cases hc⟩⟩
  | removePrimary m =>
      simp only [recoverStep, hr] at hs
      cases hs
      exact ⟨rfl, rfl, .inr ⟨rfl, rfl, fun c hc => by cases hc⟩⟩
  | requeue left call inMemory =>
      cases call with
      | some c =>
          obtain ⟨-, hcalls⟩ := callStep_frame q c
          simp only [recoverStep, hr] at hs
          cases hs
          exact ⟨rfl, hcalls, .inl ⟨c, rfl, rfl, rfl⟩⟩
      | none =>
          cases left with
          | nil =>
              simp only [recoverStep, hr] at hs
              cases hs
              exact ⟨rfl, rfl, .inr ⟨rfl, rfl, fun c hc => by cases hc⟩⟩
          | cons x left =>
              simp only [recoverStep, hr] at hs
              cases hs
              exact ⟨rfl, rfl, .inr ⟨rfl, rfl, fun c hc => by cases hc; rfl⟩⟩
  | removeBackupLast =>
      simp only [recoverStep, hr] at hs
      cases hs
      exact ⟨rfl, rfl, .inr ⟨rfl, rfl, fun c hc => by cases hc⟩⟩
  | done =>
      simp only [recoverStep, hr] at hs
      cases hs

/-- A worker draws no number. -/
theorem workStep_sGlobalSeq {q' : WalState} {p : Nat} {w : Worker} {answer : DbAnswer}
    (hs : workStep q p w answer = some q') : q'.sGlobalSeq = q.sGlobalSeq := by
  obtain ⟨ts, pc⟩ := w
  cases pc with
  | head =>
      cases hs
      rfl
  | waiting =>
      simp only [workStep] at hs
      split at hs
      · cases hs
        rfl
      · split at hs
        · cases hs
        · cases hs
          rfl
  | process t =>
      cases hs
      rfl
  | writeDone t =>
      cases hs
      rfl
  | stopped =>
      simp only [workStep] at hs
      split at hs
      · split at hs
        · cases hs
          rfl
        · cases hs
      · cases hs

/-! ## The invariant -/

/-- The invariant of the runs without overtaking. -/
structure Pushes.Inv (s : Pushes) : Prop where
  /-- Nobody else calls `EnqueueTask` before `Initialize` has returned. -/
  alone : s.queue.recover.isDone = false → s.queue.calls = []
  sound : Tickets.Sound DBTask.sessionId DBTask.walSeq s.desk

theorem pushes_init (db : Database) : Pushes.Inv { queue := { db } } :=
  ⟨fun _ => rfl, Tickets.sound_empty⟩

/-- Without a call in progress `WalRecover` pushes nothing. -/
theorem call_of_isDone {r : RecoverPc} (h : r.isDone = true) : r.call = none := by
  cases r with
  | done => rfl
  | _ => cases h

/-- A step that draws no number and adds no call that has one. -/
theorem Pushes.Inv.quiet (h : s.Inv) {q' : WalState} (hseq : s.queue.sGlobalSeq ≤ q'.sGlobalSeq)
    (halone : q'.recover.isDone = false → q'.calls = [])
    (hcalls : ∀ c ∈ q'.recover.call.toList ++ q'.calls, c.drawn = true →
      c ∈ s.queue.recover.call.toList ++ s.queue.calls) :
    Pushes.Inv ⟨q', s.pushed ++ []⟩ := by
  refine ⟨halone, ?_⟩
  rw [List.append_nil]
  exact h.sound.move (.drop hseq (waitingOf_subset hcalls))

/-- Every step without overtaking keeps the invariant. -/
theorem Pushes.Inv.step {a : Act} (h : s.Inv) (hok : NoOvertaking s a) (hs : s.step a = some s') :
    s'.Inv := by
  simp only [Pushes.step] at hs
  split at hs
  · cases hs
  next q' hq =>
    cases hs
    cases a with
    | start n =>
        simp only [Wal.step] at hq
        split at hq
        · cases hq
          exact ⟨fun _ => rfl, Tickets.sound_empty⟩
        · cases hq
    | recover b =>
        simp only [Wal.step] at hq
        split at hq
        · obtain ⟨hrunning, hcalls, hcase⟩ := recoverStep_cases hq
          have hnone : s.queue.calls = [] := h.alone hrunning
          rcases hcase with ⟨c, hc, hseq, hrest⟩ | ⟨hc, hseq, hdrawn⟩
          · refine ⟨fun _ => hcalls.trans hnone, h.sound.move ?_⟩
            have hmove : Tickets.Move DBTask.sessionId DBTask.walSeq
                ⟨s.queue.sGlobalSeq, waitingOf (s.queue.recover.call.toList ++ s.queue.calls),
                  s.pushed⟩
                ⟨(callStep s.queue c).1.sGlobalSeq, waitingOf (q'.recover.call.toList ++ q'.calls),
                  s.pushed ++ c.pushes s.queue.mIsRunning⟩ :=
              callStep_move (R := []) s.pushed hok (fun _ _ c' hc' => by cases hc') (by simp [hc])
                (by simp) (by simp [hrest, hcalls, hnone])
            simpa [WalState.pushedBy, hc, Pushes.desk, hseq] using hmove
          · have hpushed : s.queue.pushedBy (.recover b) = [] := by simp [WalState.pushedBy, hc]
            rw [hpushed]
            refine h.quiet hseq.ge (fun _ => hcalls.trans hnone) fun c hmem hd => ?_
            rw [hcalls, hnone, List.append_nil, Option.mem_toList] at hmem
            exact absurd hd (by simp [hdrawn c hmem])
        · cases hq
    | takeId =>
        simp only [Wal.step] at hq
        split at hq
        · cases hq
          have hseq : nextGlobalId s.queue.sGlobalSeq = s.queue.sGlobalSeq + 1 :=
            Nat.mod_eq_of_lt hok
          exact h.quiet (hseq ▸ Nat.le_succ _) h.alone fun c hc _ => hc
        · cases hq
    | enqueue t =>
        obtain ⟨-, hdone, -, rfl | ⟨cb, rfl⟩⟩ := enqueue_cases hq
        · have hisDone : s.queue.recover.isDone = true := by rw [hdone, RecoverPc.isDone]
          refine h.quiet le_rfl (fun hr => absurd (hisDone.symm.trans hr) (by simp))
            fun c hc hd => ?_
          rcases List.mem_append.mp hc with hc | hc
          · exact List.mem_append_left _ hc
          · rcases List.mem_append.mp hc with hc | hc
            · exact List.mem_append_right _ hc
            · rw [List.mem_singleton.mp hc] at hd
              cases hd
        · exact h.quiet le_rfl h.alone fun c hc _ => hc
    | call i =>
        simp only [Wal.step] at hq
        split at hq
        · cases hq
        next c hc =>
          cases hq
          obtain ⟨hf, -⟩ := callStep_frame s.queue c
          have hdone : s.queue.recover.isDone = true := by
            cases hd : s.queue.recover.isDone with
            | true => rfl
            | false =>
                rw [h.alone hd] at hc
                cases hc
          have hrecover := call_of_isDone hdone
          refine ⟨fun hr => ?_, h.sound.move ?_⟩
          · have hr' : (callStep s.queue c).1.recover.isDone = false := hr
            rw [hf.recover, hdone] at hr'
            cases hr'
          · have herase := List.eraseIdx_eq_take_drop_succ s.queue.calls i
            have hmove : Tickets.Move DBTask.sessionId DBTask.walSeq
                ⟨s.queue.sGlobalSeq, waitingOf s.queue.calls, s.pushed⟩
                ⟨(callStep s.queue c).1.sGlobalSeq,
                  waitingOf (s.queue.calls.take i ++ (callStep s.queue c).2.toList ++
                    s.queue.calls.drop (i + 1)),
                  s.pushed ++ c.pushes s.queue.mIsRunning⟩ :=
              callStep_move s.pushed hok.1 (fun hrun => hok.2 hrun c hc) (List.mem_of_getElem? hc)
                (fun c' hc' => List.mem_of_mem_eraseIdx hc') (by
                  intro c' hc'
                  rw [herase]
                  simp only [List.mem_append] at hc' ⊢
                  tauto)
            simpa [WalState.pushedBy, hc, Pushes.desk, hf.recover, hrecover] using hmove
    | work p answer =>
        simp only [Wal.step] at hq
        split at hq
        · cases hq
        next w hw =>
          obtain ⟨hf, hcalls⟩ := workStep_frame hq
          refine h.quiet (workStep_sGlobalSeq hq).ge (fun hr => ?_) fun c hc _ => ?_
          · rw [hcalls]
            exact h.alone (hf.recover ▸ hr)
          · rw [hf.recover, hcalls] at hc
            exact hc
    | stop =>
        simp only [Wal.step] at hq
        split at hq
        · cases hq
          exact h.quiet le_rfl h.alone fun c hc _ => hc
        · cases hq
    | join =>
        simp only [Wal.step] at hq
        split at hq
        · cases hq
          exact h.quiet le_rfl h.alone fun c hc _ => hc
        · cases hq
    | crash =>
        simp only [Wal.step] at hq
        split at hq
        · cases hq
          exact h.quiet le_rfl (fun _ => rfl) fun c hc _ => by cases hc
        · cases hq

theorem Pushes.Inv.liveOrder (h : s.Inv) : s.LiveOrder := h.sound.sorted

/-- A replay in ascending order goes with the live order. -/
theorem Pushes.LiveOrder.replayOrder (h : s.LiveOrder) : s.ReplayOrder := by
  intro sid
  refine h.sublist List.filter_sublist (k := sid) (fun t ht => ?_)
    (List.pairwise_map.mpr s.queue.pendingMap.sorted) fun t ht => ?_
  · have hcond := (List.mem_filter.mp ht).2
    simp only [Bool.and_eq_true, decide_eq_true_eq] at hcond
    exact hcond.1
  · have hcond := (List.mem_filter.mp ht).2
    simp only [Bool.and_eq_true, beq_iff_eq, Option.map_eq_some_iff] at hcond
    obtain ⟨-, e, he, -⟩ := hcond
    exact List.mem_map.mpr ⟨(t.walSeq, e), (OrderedMap.mem_entries _).mpr he, rfl⟩

/-- In a run without overtaking the tasks of a session are pushed in the order of their
numbers, and replayed in the order in which they were pushed. -/
theorem agrees_of_meets {db : Database} {as : List Act}
    (hok : Machine.Meets Pushes.step NoOvertaking { queue := { db } } as)
    (hrun : Machine.run Pushes.step { queue := { db } } as = some s) :
    s.LiveOrder ∧ s.ReplayOrder := by
  have hI : s.Inv :=
    Machine.run_invariant_of_meets (fun _ _ _ hI hok hs => hI.step hok hs) (pushes_init db) hok hrun
  exact ⟨hI.liveOrder, hI.liveOrder.replayOrder⟩

end

/-- Two calls for one session, up to the writes of their `P` lines.  The first one draws the
first number. -/
def twoCalls : List Act :=
  [.start 1, .recover true, .recover true, .enqueue ⟨0, .updatePlayerData, 1, ['a'], false, 0⟩,
    .enqueue ⟨0, .updatePlayerData, 1, ['b'], false, 0⟩, .call 0, .call 1, .call 0, .call 1]

/-- They push in the order of their numbers, and the process ends. -/
def inOrderTrace : List Act := twoCalls ++ [.call 0, .call 0, .crash]

theorem agrees_inOrderTrace : ∃ s, Machine.run Pushes.step {} inOrderTrace = some s ∧
    s.pushed.map DBTask.data = [['a'], ['b']] ∧
    s.queue.pendingMap.entries.map (fun x => x.2.data) = [['a'], ['b']] ∧
    s.LiveOrder ∧ s.ReplayOrder :=
  ⟨_, rfl, by decide +kernel, by decide +kernel,
    agrees_of_meets (show Machine.Meets Pushes.step NoOvertaking {} inOrderTrace by decide +kernel)
      rfl⟩

/-- The second call pushes first. -/
def overtakingTrace : List Act := twoCalls ++ [.call 1, .call 0, .crash]

/-- The worker would have processed the tasks in one order, and the replay has the other. -/
theorem not_agrees_overtakingTrace : ∃ s, Machine.run Pushes.step {} overtakingTrace = some s ∧
    s.pushed.map DBTask.data = [['b'], ['a']] ∧
    s.queue.pendingMap.entries.map (fun x => x.2.data) = [['a'], ['b']] ∧
    ¬ s.LiveOrder ∧ ¬ s.ReplayOrder := by
  refine ⟨_, rfl, by decide +kernel, by decide +kernel, fun h => ?_, fun h => ?_⟩
  · have hlt := (List.pairwise_cons.mp h).1 ⟨0, .updatePlayerData, 1, ['a'], false, 1⟩
      (by decide +kernel) rfl
    revert hlt
    decide +kernel
  · have hsub := h 1
    revert hsub
    decide +kernel

end NetworkModule.Wal
