import NetworkModule.Wal.LogProtocol

/-!
# Lives of the process

Which log the queue writes to, and when.  While `WalRecover` reads and moves the
files, no thread has a task.  From its loop on, the primary file is the log of this
life, and the protocol of `LogProtocol` governs it.

`Sound` collects this for both files over all lives.  It holds in every run in
which the data of the tasks has no newline and the 64-bit ids do not run out
(`Sound.step`).  Nothing is assumed about crashes.
-/

namespace NetworkModule.Wal

/-! ## Stages -/

/-- Whether the primary file is the log of this life. -/
def RecoverPc.ownsLog : RecoverPc → Bool
  | .requeue _ _ _ => true
  | .removeBackupLast => true
  | .done => true
  | _ => false

/-- The entries that `WalRecover` has in memory. -/
def RecoverPc.entries : RecoverPc → List (Nat × WalEntry)
  | .parseBackup m _ => m.entries
  | .removeBackup m => m.entries
  | .rename m _ => m.entries
  | .removePrimary m => m.entries
  | .requeue left _ _ => left
  | _ => []

/-- The data of a new task has no newline, and there are ids left. -/
def inBounds (s : WalState) : Act → Bool
  | .enqueue t => '\n' ∉ t.data
  | .recover _ => s.sGlobalSeq + 1 < 2 ^ 64
  | .takeId => s.sGlobalSeq + 1 < 2 ^ 64
  | .call _ => s.sGlobalSeq + 1 < 2 ^ 64
  | _ => true

/-- What holds in every state, whatever the crashes were. -/
structure Sound (s : WalState) : Prop where
  log : Proper s.log
  backup : Proper s.backupLog
  entries : ∀ x ∈ s.recover.entries, '\n' ∉ x.2.data
  seq_lt : s.sGlobalSeq < 2 ^ 64
  workers : s.up = true → 0 < s.workers.length
  down : s.up = false → s.calls = [] ∧ s.workers = [] ∧ s.recover = .done
  /-- While the files are read and moved, no thread has a task. -/
  idle : s.up = true → s.recover.ownsLog = false →
    s.calls = [] ∧ s.view.tasks = [] ∧ s.view.dones = []
  numbered : s.up = true → s.recover.ownsLog = true → Numbered s.view
  seen : ∀ m, s.recover = .parseBackup m 0 → s.log = []
  cleaned : s.recover = .cleanBackup → s.primary = none

/-! ## Frames -/

/-- What the threads leave alone. -/
structure Frame (s s' : WalState) : Prop where
  bak : s'.bak = s.bak
  up : s'.up = s.up
  recover : s'.recover = s.recover
  workers : s'.workers.length = s.workers.length
  owed : s'.owed = s.owed
  replays : s'.replays = s.replays
  life : s'.life = s.life
  nextUid : s'.nextUid = s.nextUid

section
variable {s s' : WalState}

theorem Frame.refl (s : WalState) : Frame s s := ⟨rfl, rfl, rfl, rfl, rfl, rfl, rfl, rfl⟩

theorem callStep_frame (s : WalState) (c : Call) :
    Frame s (callStep s c).1 ∧ (callStep s c).1.calls = s.calls := by
  simp only [callStep]
  split
  · exact ⟨⟨rfl, rfl, rfl, rfl, rfl, rfl, rfl, rfl⟩, rfl⟩
  · exact ⟨⟨rfl, rfl, rfl, rfl, rfl, rfl, rfl, rfl⟩, rfl⟩
  · split
    · exact ⟨⟨rfl, rfl, rfl, List.length_modify _ _ _, rfl, rfl, rfl, rfl⟩, rfl⟩
    · split <;> exact ⟨⟨rfl, rfl, rfl, rfl, rfl, rfl, rfl, rfl⟩, rfl⟩
  · exact ⟨⟨rfl, rfl, rfl, rfl, rfl, rfl, rfl, rfl⟩, rfl⟩

theorem workStep_frame {p : Nat} {w : Worker} {answer : DbAnswer}
    (hs : workStep s p w answer = some s') : Frame s s' ∧ s'.calls = s.calls := by
  -- Every branch ends by setting the worker.
  have hset : ∀ (s₁ : WalState) (w' : Worker), Frame s s₁ ∧ s₁.calls = s.calls →
      Frame s (s₁.setWorker p w') ∧ (s₁.setWorker p w').calls = s.calls := by
    rintro s₁ w' ⟨hf, hc⟩
    exact ⟨⟨hf.bak, hf.up, hf.recover, List.length_set.trans hf.workers, hf.owed, hf.replays, hf.life,
      hf.nextUid⟩, hc⟩
  have hrefl : Frame s s ∧ s.calls = s.calls := ⟨Frame.refl s, rfl⟩
  cases hpc : w.pc with
  | head =>
      simp only [workStep, hpc] at hs
      cases hs
      exact hset s _ hrefl
  | waiting =>
      simp only [workStep, hpc] at hs
      split at hs
      · cases hs
        exact hset s _ hrefl
      · split at hs
        · cases hs
        · cases hs
          exact hset s _ hrefl
  | process t =>
      simp only [workStep, hpc] at hs
      cases hs
      exact hset _ _ ⟨⟨rfl, rfl, rfl, rfl, rfl, rfl, rfl, rfl⟩, rfl⟩
  | writeDone t =>
      simp only [workStep, hpc] at hs
      cases hs
      exact hset _ _ ⟨⟨rfl, rfl, rfl, rfl, rfl, rfl, rfl, rfl⟩, rfl⟩
  | stopped =>
      simp only [workStep, hpc] at hs
      split at hs
      · split at hs
        · cases hs
          exact hset s _ hrefl
        · cases hs
      · cases hs

/-- A worker without tasks only changes where it stands. -/
theorem workStep_idle {p : Nat} {w : Worker} {answer : DbAnswer} (ht : w.tasks = [])
    (hd : w.dones = []) (hs : workStep s p w answer = some s') :
    ∃ w' : Worker, s' = s.setWorker p w' ∧ w'.tasks = [] ∧ w'.dones = [] := by
  obtain ⟨q, pc⟩ := w
  cases pc with
  | head =>
      cases hs
      refine ⟨_, rfl, ?_, ?_⟩
      · cases s.mIsRunning <;> exact ht
      · cases s.mIsRunning <;> exact hd
  | waiting =>
      cases ht
      simp only [workStep] at hs
      split at hs
      · cases hs
      · cases hs
        exact ⟨_, rfl, rfl, rfl⟩
  | process t => cases ht
  | writeDone t => cases hd
  | stopped =>
      cases ht
      cases hs

/-! ## Numbering at the start of a log -/

theorem numbered_of_empty {v : View} (hseq : v.seq < 2 ^ 64) (hlog : v.log = []) (hc : v.calls = [])
    (ht : v.tasks = []) (hd : v.dones = []) : Numbered v := by
  obtain ⟨log, seq, calls, tasks, dones, _, _, _, _⟩ := v
  cases hlog
  cases hc
  cases ht
  cases hd
  refine ⟨hseq, proper_nil, ?_, ?_, ?_, ?_, ?_, ?_, ?_, List.nodup_nil, ?_⟩ <;> simp

/-- A new call. -/
theorem Numbered.addCall {v : View} (h : Numbered v) {t : DBTask} {cs : List Call}
    (hcs : cs.Perm (⟨t, .nextSeq⟩ :: v.calls)) (hdata : '\n' ∉ t.data) :
    Numbered { v with calls := cs } := by
  have hmem : ∀ c ∈ cs, c = ⟨t, .nextSeq⟩ ∨ c ∈ v.calls := fun c hc =>
    List.mem_cons.mp (hcs.mem_iff.mp hc)
  refine { h with pushing := ?_, canceling := ?_, writing := ?_, distinct := ?_, data := ?_ }
  · intro c hc he
    rcases hmem c hc with rfl | hc
    · cases he
    · exact h.pushing c hc he
  · intro c hc he
    rcases hmem c hc with rfl | hc
    · cases he
    · exact h.canceling c hc he
  · intro c hc he
    rcases hmem c hc with rfl | hc
    · cases he
    · exact h.writing c hc he
  · refine ((hcs.filter _).map _).nodup_iff.mpr ?_
    rw [List.filter_cons_of_neg (by simp)]
    exact h.distinct
  · intro c hc he
    rcases hmem c hc with rfl | hc
    · exact hdata
    · exact h.data c hc he

/-! ## Steps of the threads -/

/-- A step of a thread that is already there. -/
def Act.isInner : Act → Bool
  | .takeId => true
  | .call _ => true
  | .work _ _ => true
  | .stop => true
  | .join => true
  | _ => false

/-- Replacing the call `i`. -/
theorem perm_of_getElem? {cs : List Call} {i : Nat} {c : Call} (h : cs[i]? = some c) :
    cs.Perm (c :: (cs.take i ++ cs.drop (i + 1))) := by
  obtain ⟨hlt, rfl⟩ := List.getElem?_eq_some_iff.mp h
  conv_lhs => rw [← List.take_append_drop i cs, List.drop_eq_getElem_cons hlt]
  exact List.perm_middle

/-- While the primary file is the log of this life, the threads follow the
protocol. -/
theorem inner_logStep (hS : Sound s) (hup : s.up = true) (hown : s.recover.ownsLog = true) {a : Act}
    (ha : a.isInner = true) (hok : inBounds s a = true) (hs : step s a = some s') :
    LogStep s.view s'.view ∧ Frame s s' := by
  have hN := hS.numbered hup hown
  cases a with
  | takeId =>
      simp only [step, if_pos hup] at hs
      cases hs
      have hlt : s.sGlobalSeq + 1 < 2 ^ 64 := by simpa [inBounds] using hok
      have hseq : nextGlobalId s.sGlobalSeq = s.sGlobalSeq + 1 := Nat.mod_eq_of_lt hlt
      rw [hseq]
      exact ⟨.takeId hlt, ⟨rfl, rfl, rfl, rfl, rfl, rfl, rfl, rfl⟩⟩
  | call i =>
      simp only [step] at hs
      split at hs
      · cases hs
      next c hc =>
        cases hs
        have hlt : s.sGlobalSeq + 1 < 2 ^ 64 := by simpa [inBounds] using hok
        obtain ⟨hf, hcalls⟩ := callStep_frame s c
        have hp : s.view.calls.Perm
            (c :: (s.recover.call.toList ++ (s.calls.take i ++ s.calls.drop (i + 1)))) :=
          ((perm_of_getElem? hc).append_left _).trans List.perm_middle
        have hp' : (s.recover.call.toList ++
            ((s.calls.take i ++ (callStep s c).2.toList) ++ s.calls.drop (i + 1))).Perm
            ((callStep s c).2.toList ++
              (s.recover.call.toList ++ (s.calls.take i ++ s.calls.drop (i + 1)))) := by
          rw [List.append_assoc]
          refine ((List.perm_append_comm_assoc _ _ _).append_left _).trans ?_
          exact List.perm_append_comm_assoc _ _ _
        have hstep := callStep_logStep hN (hS.workers hup) hlt hp hp'
        refine ⟨?_, ⟨hf.bak, hf.up, hf.recover, hf.workers, hf.owed, hf.replays, hf.life, hf.nextUid⟩⟩
        rw [← hf.recover] at hstep
        exact hstep
  | work p answer =>
      simp only [step] at hs
      split at hs
      · cases hs
      next w hw => exact ⟨workStep_logStep hN hw hs, (workStep_frame hs).1⟩
  | stop =>
      simp only [step] at hs
      split at hs
      · cases hs
        exact ⟨.move (List.Perm.refl _) (List.Perm.refl _) (List.Perm.refl _),
          ⟨rfl, rfl, rfl, rfl, rfl, rfl, rfl, rfl⟩⟩
      · cases hs
  | join =>
      simp only [step] at hs
      split at hs
      · cases hs
        exact ⟨.move (List.Perm.refl _) (List.Perm.refl _) (List.Perm.refl _),
          ⟨rfl, rfl, rfl, rfl, rfl, rfl, rfl, rfl⟩⟩
      · cases hs
  | start n => cases ha
  | recover b => cases ha
  | enqueue t => cases ha
  | crash => cases ha

/-- What a thread without a task leaves alone as well. -/
structure Idle (s s' : WalState) : Prop where
  frame : Frame s s'
  seq_lt : s'.sGlobalSeq < 2 ^ 64
  primary : s'.primary = s.primary
  calls : s'.calls = s.calls
  tasks : s'.view.tasks = []
  dones : s'.view.dones = []
  durable : s'.durable = s.durable
  rejected : s'.rejected = s.rejected
  processed : s'.processed = s.processed
  acked : s'.acked = s.acked

theorem inner_idle (hS : Sound s) (hup : s.up = true) (hown : s.recover.ownsLog = false) {a : Act}
    (ha : a.isInner = true) (hs : step s a = some s') : Idle s s' := by
  obtain ⟨hc, ht, hd⟩ := hS.idle hup hown
  cases a with
  | takeId =>
      simp only [step, if_pos hup] at hs
      cases hs
      exact ⟨⟨rfl, rfl, rfl, rfl, rfl, rfl, rfl, rfl⟩, Nat.mod_lt _ (by decide), rfl, rfl, ht, hd, rfl,
        rfl, rfl, rfl⟩
  | call i =>
      simp only [step, hc] at hs
      cases hs
  | work p answer =>
      simp only [step] at hs
      split at hs
      · cases hs
      next w hw =>
        have hmem : w ∈ s.workers := List.mem_of_getElem? hw
        have htw : w.tasks = [] := List.flatMap_eq_nil_iff.mp ht w hmem
        have hdw : w.dones = [] := List.flatMap_eq_nil_iff.mp hd w hmem
        obtain ⟨w', rfl, ht', hd'⟩ := workStep_idle htw hdw hs
        have hnil : ∀ f : Worker → List DBTask, s.workers.flatMap f = [] → f w' = [] →
            (s.workers.set p w').flatMap f = [] := by
          intro f hf hw'
          refine List.flatMap_eq_nil_iff.mpr fun x hx => ?_
          rcases List.mem_or_eq_of_mem_set hx with hx | rfl
          · exact List.flatMap_eq_nil_iff.mp hf x hx
          · exact hw'
        exact ⟨(workStep_frame hs).1, hS.seq_lt, rfl, rfl, hnil _ ht ht', hnil _ hd hd', rfl, rfl, rfl, rfl⟩
  | stop =>
      simp only [step] at hs
      split at hs
      · cases hs
        exact ⟨⟨rfl, rfl, rfl, rfl, rfl, rfl, rfl, rfl⟩, hS.seq_lt, rfl, rfl, ht, hd, rfl, rfl, rfl, rfl⟩
      · cases hs
  | join =>
      simp only [step] at hs
      split at hs
      · cases hs
        exact ⟨⟨rfl, rfl, rfl, rfl, rfl, rfl, rfl, rfl⟩, hS.seq_lt, rfl, rfl, ht, hd, rfl, rfl, rfl, rfl⟩
      · cases hs
  | start n => cases ha
  | recover b => cases ha
  | enqueue t => cases ha
  | crash => cases ha

/-! ## Sound states -/

/-- The entries of a parsed file are clean if those before it were. -/
theorem entries_parse {m : PendingMap} {n : Nat} {file : Option (List Chunk)}
    (hm : ∀ x ∈ m.entries, '\n' ∉ x.2.data) (hp : Proper (records (file.getD []))) :
    ∀ x ∈ (parseWalFile (m, n) file).1.entries, '\n' ∉ x.2.data := by
  rintro ⟨q, e⟩ hx
  have hlook := (OrderedMap.mem_entries _).mp hx
  rw [lookup_parse] at hlook
  rcases mem_of_pendingAt hlook with hold | hnew
  · exact hm (q, e) ((OrderedMap.mem_entries _).mpr hold)
  · exact hp.data hnew

/-- `WalRecover` enqueues through the protocol. -/
theorem requeue_logStep (hN : Numbered s.view) (hw : 0 < s.workers.length)
    (hlt : s.sGlobalSeq + 1 < 2 ^ 64) {left : List (Nat × WalEntry)} {c : Call} {b : Bool}
    (hr : s.recover = .requeue left (some c) b) :
    LogStep s.view
      { (callStep s c).1 with recover := .requeue left (callStep s c).2 b }.view := by
  obtain ⟨hf, hcalls⟩ := callStep_frame s c
  have hp : s.view.calls.Perm (c :: s.calls) := by
    simp only [WalState.view, hr]
    exact List.Perm.refl _
  have hstep := callStep_logStep hN hw hlt hp (List.Perm.refl _)
  rw [← hcalls] at hstep
  exact hstep

/-- A state in which the files are read and moved. -/
theorem Sound.reading (hup : s.up = true) (hw : 0 < s.workers.length) (hseq : s.sGlobalSeq < 2 ^ 64)
    (hown : s.recover.ownsLog = false) (hlog : Proper s.log) (hbak : Proper s.backupLog)
    (hentries : ∀ x ∈ s.recover.entries, '\n' ∉ x.2.data)
    (hidle : s.calls = [] ∧ s.view.tasks = [] ∧ s.view.dones = [])
    (hseen : ∀ m, s.recover = .parseBackup m 0 → s.log = [])
    (hcleaned : s.recover = .cleanBackup → s.primary = none) : Sound s where
  log := hlog
  backup := hbak
  entries := hentries
  seq_lt := hseq
  workers := fun _ => hw
  down := fun hd => absurd (hup.symm.trans hd) (by decide)
  idle := fun _ _ => hidle
  numbered := fun _ ho => absurd (hown.symm.trans ho) (by decide)
  seen := hseen
  cleaned := hcleaned

/-- A state in which the primary file is the log of this life. -/
theorem Sound.owning (hup : s.up = true) (hw : 0 < s.workers.length)
    (hown : s.recover.ownsLog = true) (hbak : Proper s.backupLog)
    (hentries : ∀ x ∈ s.recover.entries, '\n' ∉ x.2.data) (hN : Numbered s.view) : Sound s where
  log := hN.proper
  backup := hbak
  entries := hentries
  seq_lt := hN.seq_lt
  workers := fun _ => hw
  down := fun hd => absurd (hup.symm.trans hd) (by decide)
  idle := fun _ ho => absurd (hown.symm.trans ho) (by decide)
  numbered := fun _ _ => hN
  seen := by
    intro m hm
    rw [hm] at hown
    cases hown
  cleaned := by
    intro hm
    rw [hm] at hown
    cases hown

/-- A log that starts empty is numbered. -/
theorem Sound.numbered_fresh (h : Sound s) (hup : s.up = true) (hown : s.recover.ownsLog = false)
    (hlog : s'.log = []) (hseq : s'.sGlobalSeq = s.sGlobalSeq) (hcall : s'.recover.call = none)
    (hcalls : s'.calls = s.calls) (hws : s'.workers = s.workers) : Numbered s'.view := by
  obtain ⟨hc, ht, hd⟩ := h.idle hup hown
  refine numbered_of_empty ?_ hlog ?_ ?_ ?_
  · show s'.sGlobalSeq < 2 ^ 64
    rw [hseq]
    exact h.seq_lt
  · simp only [WalState.view, hcall, hcalls, hc]
    rfl
  · simp only [WalState.view, hws]
    exact ht
  · simp only [WalState.view, hws]
    exact hd

/-- Without a call of `WalRecover`, the calls are those of the other threads. -/
theorem view_calls (h : s.recover.call = none) : s.view.calls = s.calls := by
  simp only [WalState.view, h]
  rfl

theorem Sound.recoverStep {b : Bool} (h : Sound s) (hup : s.up = true)
    (hlt : s.sGlobalSeq + 1 < 2 ^ 64) (hs : recoverStep s b = some s') : Sound s' := by
  have hw := h.workers hup
  have hentries := h.entries
  cases hr : s.recover with
  | parsePrimary =>
      have hidle := h.idle hup (by rw [hr]; rfl)
      simp only [Wal.recoverStep, hr] at hs
      cases hs
      refine .reading hup hw h.seq_lt rfl h.log h.backup
        (entries_parse (fun _ hx => by cases hx) h.log) hidle (fun m hm => ?_) (fun hm => by cases hm)
      injection hm with _ hn
      exact h.log.eq_nil hn
  | parseBackup m n =>
      have hown : s.recover.ownsLog = false := by rw [hr]; rfl
      have hidle := h.idle hup hown
      rw [hr] at hentries
      simp only [Wal.recoverStep, hr] at hs
      split at hs
      · by_cases h0 : (parseWalFile (m, n) s.bak).2 = 0
        · -- Neither file has a record, and the primary goes on as it is.
          rw [if_pos h0] at hs
          cases hs
          have hn : n = 0 := by
            have hle := le_foldl_applyRecord (records (s.bak.getD [])) (m, n)
            simp only [parseWalFile] at h0
            omega
          have hlog : s.log = [] := h.seen m (by rw [hr, hn])
          exact .owning hup hw rfl h.backup (fun _ hx => by cases hx)
            (h.numbered_fresh hup hown hlog rfl rfl rfl rfl)
        · rw [if_neg h0] at hs
          cases hs
          exact .reading hup hw h.seq_lt rfl h.log h.backup (fun _ hx => by cases hx) hidle
            (fun _ hm => by cases hm) (fun hm => by cases hm)
      · cases hs
        exact .reading hup hw h.seq_lt rfl h.log h.backup (entries_parse hentries h.backup) hidle
          (fun _ hm => by cases hm) (fun hm => by cases hm)
  | cleanPrimary =>
      have hidle := h.idle hup (by rw [hr]; rfl)
      simp only [Wal.recoverStep, hr] at hs
      cases hs
      exact .reading hup hw h.seq_lt rfl proper_nil h.backup (fun _ hx => by cases hx) hidle
        (fun _ hm => by cases hm) (fun _ => rfl)
  | cleanBackup =>
      have hown : s.recover.ownsLog = false := by rw [hr]; rfl
      have hlog : s.log = [] := by
        rw [WalState.log, h.cleaned hr]
        rfl
      simp only [Wal.recoverStep, hr] at hs
      cases hs
      exact .owning hup hw rfl proper_nil (fun _ hx => by cases hx)
        (h.numbered_fresh hup hown hlog rfl rfl rfl rfl)
  | removeBackup m =>
      have hidle := h.idle hup (by rw [hr]; rfl)
      rw [hr] at hentries
      simp only [Wal.recoverStep, hr] at hs
      cases hs
      exact .reading hup hw h.seq_lt rfl h.log proper_nil hentries hidle
        (fun _ hm => by cases hm) (fun hm => by cases hm)
  | rename m had =>
      have hown : s.recover.ownsLog = false := by rw [hr]; rfl
      rw [hr] at hentries
      simp only [Wal.recoverStep, hr] at hs
      split at hs
      · cases hs
        exact .owning hup hw rfl h.log hentries (h.numbered_fresh hup hown rfl rfl rfl rfl rfl)
      · cases hs
        exact .reading hup hw h.seq_lt rfl h.log h.backup hentries (h.idle hup hown)
          (fun _ hm => by cases hm) (fun hm => by cases hm)
  | removePrimary m =>
      have hown : s.recover.ownsLog = false := by rw [hr]; rfl
      rw [hr] at hentries
      simp only [Wal.recoverStep, hr] at hs
      cases hs
      exact .owning hup hw rfl h.backup hentries (h.numbered_fresh hup hown rfl rfl rfl rfl rfl)
  | requeue left call inMemory =>
      have hN := h.numbered hup (by rw [hr]; rfl)
      rw [hr] at hentries
      cases call with
      | some c =>
          have hN' := hN.step (requeue_logStep hN hw hlt hr)
          obtain ⟨hf, -⟩ := callStep_frame s c
          simp only [Wal.recoverStep, hr] at hs
          cases hs
          refine .owning (hf.up.trans hup) (by rw [hf.workers]; exact hw) rfl ?_ hentries hN'
          rw [WalState.backupLog, hf.bak]
          exact h.backup
      | none =>
          have hcalls : s.view.calls = s.calls := view_calls (by rw [hr]; rfl)
          cases left with
          | nil =>
              simp only [Wal.recoverStep, hr] at hs
              cases hs
              refine .owning hup hw rfl h.backup (fun _ hx => by cases hx) ?_
              exact hN.move (hcalls ▸ List.Perm.refl _) (fun _ ht => ht) (fun _ ht => ht)
          | cons x left =>
              simp only [Wal.recoverStep, hr] at hs
              cases hs
              refine .owning hup hw rfl h.backup (fun y hy => hentries y (List.mem_cons_of_mem _ hy)) ?_
              have hperm : ({ task := x.2.task } :: s.calls).Perm
                  (⟨x.2.task, .nextSeq⟩ :: s.view.calls) := by rw [hcalls]
              exact hN.addCall hperm (hentries x List.mem_cons_self)
  | removeBackupLast =>
      have hN := h.numbered hup (by rw [hr]; rfl)
      have hcalls : s.view.calls = s.calls := view_calls (by rw [hr]; rfl)
      simp only [Wal.recoverStep, hr] at hs
      cases hs
      refine .owning hup hw rfl proper_nil (fun _ hx => by cases hx) ?_
      exact hN.move (hcalls ▸ List.Perm.refl _) (fun _ ht => ht) (fun _ ht => ht)
  | done =>
      simp only [Wal.recoverStep, hr] at hs
      cases hs

/-- What `EnqueueTask` does before its first step. -/
theorem enqueue_cases {t : DBTask} (hs : step s (.enqueue t) = some s') :
    s.up = true ∧ s.recover = .done ∧ s'.nextUid = s.nextUid + 1 ∧
      (s' = { s with nextUid := s.nextUid + 1, calls := s.calls ++
          [{ task := { t with uid := s.nextUid, walSeq := 0 } }] } ∨
        ∃ cb, s' = { s with nextUid := s.nextUid + 1, callbacks := cb }) := by
  simp only [step] at hs
  split at hs
  · cases hs
  next hcond =>
    have hup : s.up = true := by
      cases hu : s.up with
      | true => rfl
      | false => simp [hu] at hcond
    have hdone : s.recover = .done := by
      cases hr : s.recover with
      | done => rfl
      | _ => simp [hr, RecoverPc.isDone] at hcond
    refine ⟨hup, hdone, ?_⟩
    split at hs
    · cases hs
      exact ⟨rfl, .inl rfl⟩
    · cases hs
      exact ⟨rfl, .inr ⟨_, rfl⟩⟩

theorem sound_init (db : Database) : Sound { db } where
  log := proper_nil
  backup := proper_nil
  entries := fun _ hx => by cases hx
  seq_lt := Nat.two_pow_pos 64
  workers := fun hup => by cases hup
  down := fun _ => ⟨rfl, rfl, rfl⟩
  idle := fun hup => by cases hup
  numbered := fun hup => by cases hup
  seen := fun _ hm => by cases hm
  cleaned := fun hm => by cases hm

/-- Without a process there are no threads. -/
theorem inner_up (h : Sound s) {a : Act} (ha : a.isInner = true) (hs : step s a = some s') :
    s.up = true := by
  cases hup : s.up with
  | true => rfl
  | false =>
      obtain ⟨hc, hws, -⟩ := h.down hup
      cases a with
      | takeId => simp [step, hup] at hs
      | call i => simp [step, hc] at hs
      | work p answer => simp [step, hws] at hs
      | stop => simp [step, hup] at hs
      | join => simp [step, hup] at hs
      | start n => cases ha
      | recover b => cases ha
      | enqueue t => cases ha
      | crash => cases ha

/-- Every step within bounds leads to a sound state. -/
theorem Sound.step {a : Act} (h : Sound s) (hok : inBounds s a = true)
    (hs : step s a = some s') : Sound s' := by
  by_cases ha : a.isInner = true
  · have hup := inner_up h ha hs
    cases hown : s.recover.ownsLog with
    | true =>
        obtain ⟨hstep, hf⟩ := inner_logStep h hup hown ha hok hs
        exact .owning (hf.up.trans hup) (by rw [hf.workers]; exact h.workers hup)
          (by rw [hf.recover]; exact hown) (by rw [WalState.backupLog, hf.bak]; exact h.backup)
          (by rw [hf.recover]; exact h.entries) ((h.numbered hup hown).step hstep)
    | false =>
        have hI := inner_idle h hup hown ha hs
        have hf := hI.frame
        have hlog : s'.log = s.log := by rw [WalState.log, hI.primary]; rfl
        exact .reading (hf.up.trans hup) (by rw [hf.workers]; exact h.workers hup) hI.seq_lt
          (by rw [hf.recover]; exact hown) (hlog ▸ h.log)
          (by rw [WalState.backupLog, hf.bak]; exact h.backup)
          (by rw [hf.recover]; exact h.entries)
          ⟨hI.calls.trans (h.idle hup hown).1, hI.tasks, hI.dones⟩
          (fun m hm => hlog.trans (h.seen m (hf.recover ▸ hm)))
          (fun hm => hI.primary.trans (h.cleaned (hf.recover ▸ hm)))
  · cases a with
    | start n =>
        simp only [Wal.step] at hs
        split at hs
        next hcond =>
          cases hs
          have hn : 0 < n := by simpa using (Bool.and_eq_true_iff.mp hcond).2
          have hnil : ∀ f : Worker → List DBTask, f {} = [] →
              (List.replicate n ({} : Worker)).flatMap f = [] := by
            intro f hf
            refine List.flatMap_eq_nil_iff.mpr fun w hw => ?_
            rw [List.eq_of_mem_replicate hw]
            exact hf
          exact .reading rfl (by simpa [WalState.startProcess] using hn) (by simp [WalState.startProcess])
            rfl h.log h.backup (fun _ hx => by cases hx) ⟨rfl, hnil _ rfl, hnil _ rfl⟩
            (fun _ hm => by cases hm) (fun hm => by cases hm)
        · cases hs
    | recover b =>
        simp only [Wal.step] at hs
        split at hs
        next hup => exact h.recoverStep hup (by simpa [inBounds] using hok) hs
        · cases hs
    | enqueue t =>
        have hdata : '\n' ∉ t.data := by simpa [inBounds] using hok
        obtain ⟨hup, hdone, -, rfl | ⟨cb, rfl⟩⟩ := enqueue_cases hs
        · have hN := h.numbered hup (by rw [hdone]; rfl)
          refine .owning hup (h.workers hup) (by rw [hdone]; rfl) h.backup h.entries ?_
          refine hN.addCall (t := { t with uid := s.nextUid, walSeq := 0 }) ?_ hdata
          rw [← List.append_assoc]
          exact List.perm_append_singleton _ _
        · exact ⟨h.log, h.backup, h.entries, h.seq_lt, h.workers, h.down, h.idle, h.numbered, h.seen,
            h.cleaned⟩
    | crash =>
        simp only [Wal.step] at hs
        split at hs
        · cases hs
          exact ⟨h.log, h.backup, (fun _ hx => by cases hx), h.seq_lt, (fun hup => by cases hup),
            (fun _ => ⟨rfl, rfl, rfl⟩), (fun hup => by cases hup), (fun hup => by cases hup),
            (fun _ hm => by cases hm), (fun hm => by cases hm)⟩
        · cases hs
    | takeId => exact absurd rfl ha
    | call i => exact absurd rfl ha
    | work p answer => exact absurd rfl ha
    | stop => exact absurd rfl ha
    | join => exact absurd rfl ha

end

end NetworkModule.Wal
