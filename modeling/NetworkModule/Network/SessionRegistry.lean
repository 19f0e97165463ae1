import NetworkModule.Network.SessionReferences

/-!
# The session manager and the pool

Every step keeps `LifeInv` (`LifeInv.step`).  For the session manager this means that every
entry is a session with the id of the entry, that no slot is in two entries, and that
`GetSession(id)` gives a session whose id is `id`, which it keeps as long as there is a
reference to it.
-/

namespace NetworkModule.SessionLifetime

open References (Ref Held Released held_of_mem held_cons)

section
variable {workerCount : Nat} {s s' : Engine}

/-! ## The steps of the threads -/

/-- A step of `Submit`. -/
theorem LifeInv.submitStep {t n : Nat} {accepted : Bool} (h : LifeInv s)
    (hpc : s.threads t = .submit n)
    (hs : SessionLifetime.submitStep workerCount s t n accepted = some s') : LifeInv s' := by
  cases hstage : (s.closures n).stage with
  | beginTask =>
      simp only [SessionLifetime.submitStep, hstage, Option.some.injEq] at hs
      subst hs
      exact (h.setState _ _ _ _).setStage hstage rfl rfl rfl (.inl rfl)
  | cancelledTest =>
      simp only [SessionLifetime.submitStep, hstage, Option.some.injEq] at hs
      subst hs
      split
      · exact h.setStage hstage rfl rfl rfl (.inl rfl)
      · exact h.setStage hstage rfl rfl rfl (.inl rfl)
  | dispatch =>
      simp only [SessionLifetime.submitStep, hstage] at hs
      split at hs
      · cases hs
        exact h.setStage hstage rfl rfl rfl (.inl rfl)
      · cases hs
        exact h.reject hpc
  | push =>
      simp only [SessionLifetime.submitStep, hstage] at hs
      split at hs
      · cases hs
        exact h.push hpc rfl (by rw [hstage]; rfl)
      · cases hs
        exact h.reject hpc
  | cancelled =>
      simp only [SessionLifetime.submitStep, hstage, Option.some.injEq] at hs
      subst hs
      rw [← setStage_setStage _ n .rejected .refused]
      exact ((h.setState _ _ _ _).reject hpc).refuse hpc (by simp [Engine.setStage, Stage.alive])
  | rejected =>
      simp only [SessionLifetime.submitStep, hstage, Option.some.injEq] at hs
      subst hs
      split
      · exact (h.setState _ _ _ _).refuse hpc (congrArg Stage.alive hstage)
      · exact h.refuse hpc (congrArg Stage.alive hstage)
  | _ => simp [SessionLifetime.submitStep, hstage] at hs

/-- A step of a thread in a call. -/
theorem LifeInv.threadStep {t : Nat} {accepted : Bool} (h : LifeInv s)
    (hs : SessionLifetime.threadStep workerCount s t accepted = some s') : LifeInv s' := by
  have hneeds := h.threads.needs t
  cases hpc : s.threads t with
  | idle => simp [SessionLifetime.threadStep, hpc] at hs
  | limitTest =>
      simp only [SessionLifetime.threadStep, hpc, Option.some.injEq] at hs
      subst hs
      split
      · exact h.setThread (by simp [ThreadPc.needs]) rfl (by simp [hpc]) (by simp)
      · exact h.setThread (by simp [ThreadPc.needs]) rfl (by simp [hpc]) (by simp)
  | acquire =>
      simp only [SessionLifetime.threadStep, hpc] at hs
      split at hs
      · cases hs
        exact h.setThread (by simp [ThreadPc.needs]) rfl (by simp [hpc]) (by simp)
      next k rest hfree =>
        cases hs
        exact h.acquire hpc hfree
  | initSession k =>
      simp only [SessionLifetime.threadStep, hpc, Option.some.injEq] at hs
      subst hs
      exact h.initSession hpc _ _ _
  | register k id =>
      simp only [SessionLifetime.threadStep, hpc, Option.some.injEq] at hs
      subst hs
      exact h.register hpc
  | close k next =>
      simp only [SessionLifetime.threadStep, hpc, Option.some.injEq] at hs
      subst hs
      rw [hpc] at hneeds
      split
      · exact h.afterClose (fun j hj => hneeds j (List.mem_cons_of_mem k hj)) (by simp [hpc])
      · exact (h.setState _ _ _ _).setThread hneeds rfl (by simp [hpc, Engine.setSlot]) (by simp)
  | cancel k next =>
      simp only [SessionLifetime.threadStep, hpc, Option.some.injEq] at hs
      subst hs
      rw [hpc] at hneeds
      exact (h.setState _ _ _ _).afterClose (fun j hj => hneeds j (List.mem_cons_of_mem k hj))
        (by simp [hpc, Engine.setSlot])
  | removeTest k id =>
      simp only [SessionLifetime.threadStep, hpc, Option.some.injEq] at hs
      subst hs
      rw [hpc] at hneeds
      split
      · exact h.setThread hneeds rfl (by simp [hpc]) (by simp)
      · exact h.setThread (by simp [ThreadPc.needs]) rfl (by simp [hpc]) (by simp)
  | erase id =>
      simp only [SessionLifetime.threadStep, hpc, Option.some.injEq] at hs
      subst hs
      have hdrop : LifeInv (s.dropAll (.map id)) := h.drop (List.filter_subset_self _) fun r hr => by
        by_cases hm : r.holder = .map id
        · exact .inr (by simp [hm])
        · exact .inl (List.mem_filter.mpr ⟨hr, by simpa using hm⟩)
      exact hdrop.setThread (by simp [ThreadPc.needs]) rfl
        (by simp [hpc, Engine.dropAll, Engine.setRefs]) (by simp)
  | closeAll rest =>
      cases rest with
      | nil =>
          simp only [SessionLifetime.threadStep, hpc, Option.some.injEq] at hs
          subst hs
          have hdrop : LifeInv (s.setRefs (s.refs.filter fun r => (entry r).isNone)) :=
            h.drop (List.filter_subset_self _) fun r hr => by
              cases hh : r.holder with
              | map id => exact .inr (by simp)
              | thread t' => exact .inl (List.mem_filter.mpr ⟨hr, by simp [entry, hh]⟩)
              | closure n => exact .inl (List.mem_filter.mpr ⟨hr, by simp [entry, hh]⟩)
          exact hdrop.setThread (by simp [ThreadPc.needs]) rfl (by simp [hpc, Engine.setRefs])
            (by simp)
      | cons k rest =>
          simp only [SessionLifetime.threadStep, hpc, Option.some.injEq] at hs
          subst hs
          rw [hpc] at hneeds
          exact h.setThread hneeds rfl (by simp [hpc]) (by simp)
  | submit n =>
      simp only [SessionLifetime.threadStep, hpc] at hs
      exact h.submitStep hpc hs

/-! ## The steps of the workers -/

/-- A step of a worker in a closure. -/
theorem LifeInv.runStep {i n : Nat} {throws : Bool} (h : LifeInv s)
    (htask : (s.workers i).task = some n)
    (hs : SessionLifetime.runStep s i n throws = some s') : LifeInv s' := by
  cases hstage : (s.closures n).stage with
  | popped =>
      simp only [SessionLifetime.runStep, hstage, Option.some.injEq] at hs
      subst hs
      split
      · exact h.setStage hstage rfl rfl rfl (.inr rfl)
      · exact h.setStage hstage rfl rfl rfl (.inr rfl)
  | body =>
      simp only [SessionLifetime.runStep, hstage, Option.some.injEq] at hs
      subst hs
      have hrunning : (s.closures n).stage.running = true := by rw [hstage]; rfl
      split
      · exact h.finish rfl htask hrunning
      · split
        · exact h.setStage hstage rfl rfl rfl (.inr rfl)
        · exact h.finish rfl htask hrunning
  | endTask =>
      simp only [SessionLifetime.runStep, hstage, Option.some.injEq] at hs
      subst hs
      exact (h.setState _ _ _ _).finish rfl htask (congrArg Stage.running hstage)
  | _ => simp [SessionLifetime.runStep, hstage] at hs

/-- A worker that runs nothing has at most a closure that is done in its variable. -/
theorem LifeInv.dropTask {i : Nat} (h : LifeInv s) (hpc : (s.workers i).pc = .pop)
    (pc : WorkerPc) :
    LifeInv ((s.dropTask i).setWorker i { s.workers i with task := none, pc := pc }) := by
  simp only [Engine.dropTask]
  split
  next htask =>
    rw [← htask]
    exact h.exit htask pc
  next n htask => exact h.empty hpc htask pc

theorem setWorker_setWorker (s : Engine) (i : Nat) (w w' : Worker) :
    (s.setWorker i w).setWorker i w' = s.setWorker i w' := by
  simp [Engine.setWorker]

/-- Every step of a worker keeps the invariant. -/
theorem LifeInv.workerStep {i : Nat} {throws : Bool} (h : LifeInv s)
    (hs : SessionLifetime.workerStep s i throws = some s') : LifeInv s' := by
  cases hpc : (s.workers i).pc with
  | pop =>
      simp only [SessionLifetime.workerStep, hpc] at hs
      split at hs
      next n rest hqueue =>
        cases hs
        have hempty := h.dropTask hpc .pop
        have hpop : LifeInv ((((s.dropTask i).setStage n .popped).setWorker i
            { s.workers i with task := none, pc := .pop }).setWorker i
            { mQueue := rest, task := some n, pc := .run }) :=
          hempty.pop (by simp [Engine.setWorker]) (by simp [Engine.setWorker, hqueue])
        rwa [setWorker_setWorker] at hpop
      next hqueue =>
        split at hs
        · cases hs
        · cases hs
          simpa only [hqueue] using h.dropTask hpc .exited
  | run =>
      simp only [SessionLifetime.workerStep, hpc] at hs
      split at hs
      next n htask => exact h.runStep htask hs
      · cases hs
  | exited => simp [SessionLifetime.workerStep, hpc] at hs

/-! ## Every step -/

/-- An entry of the manager is a reference that it holds. -/
theorem mem_mSessions {id k : Nat} : (id, k) ∈ s.mSessions ↔ ⟨.map id, k⟩ ∈ s.refs := by
  simp only [Engine.mSessions, List.mem_filterMap]
  constructor
  · rintro ⟨⟨holder, j⟩, hr, he⟩
    cases holder with
    | map id' =>
        simp only [entry, Option.some.injEq, Prod.mk.injEq] at he
        rw [← he.1, ← he.2]
        exact hr
    | thread t => simp [entry] at he
    | closure n => simp [entry] at he
  · exact fun hr => ⟨_, hr, rfl⟩

/-- `GetSession` finds an entry. -/
theorem mem_of_find {id k : Nat} (hfind : s.find id = some k) : ⟨.map id, k⟩ ∈ s.refs := by
  refine mem_mSessions.mp ?_
  obtain ⟨l₁, l₂, hl, -⟩ := List.lookup_eq_some_iff.mp hfind
  simp [hl]

/-- Every step keeps the invariant. -/
theorem LifeInv.step {a : Act} (h : LifeInv s)
    (hs : SessionLifetime.step workerCount s a = some s') : LifeInv s' := by
  simp only [SessionLifetime.step] at hs
  split at hs
  · cases hs
  cases a with
  | create t =>
      simp only at hs
      split at hs
      next hidle =>
        cases hs
        exact h.setThread (by simp [ThreadPc.needs]) rfl (by simp [hidle]) (by simp)
      · cases hs
  | get t id =>
      simp only at hs
      split at hs
      next hidle =>
        split at hs
        · cases hs
          exact h
        next k hfind =>
          cases hs
          have hr := mem_of_find hfind
          exact h.copy (held_of_mem hr) (h.not_creates hr (by simp))
      · cases hs
  | copy t k =>
      simp only at hs
      split at hs
      next hidle =>
        cases hs
        exact h.copy (held_of_mem hidle.2) (h.not_creates hidle.2 fun t' he => by
          cases he
          exact hidle.1)
      · cases hs
  | drop t k =>
      simp only at hs
      split at hs
      next hidle =>
        cases hs
        refine h.drop List.erase_subset fun r hr => ?_
        by_cases he : r = ⟨.thread t, k⟩
        · refine .inr ⟨by simp [he], fun t' ht' => ?_⟩
          rw [he] at ht'
          cases ht'
          exact hidle.1
        · exact .inl ((List.mem_erase_of_ne he).mpr hr)
      · cases hs
  | removeId t id =>
      simp only at hs
      split at hs
      next hidle =>
        cases hs
        exact h.setThread (by simp [ThreadPc.needs]) rfl (by simp [hidle]) (by simp)
      · cases hs
  | remove t k =>
      simp only at hs
      split at hs
      next hidle =>
        cases hs
        exact h.setThread (by simpa [ThreadPc.needs] using hidle.2) rfl (by simp [hidle.1])
          (by simp)
      · cases hs
  | close t k =>
      simp only at hs
      split at hs
      next hidle =>
        cases hs
        exact h.setThread (by simpa [ThreadPc.needs, AfterClose.needs] using hidle.2) rfl
          (by simp [hidle.1]) (by simp)
      · cases hs
  | closeAll t =>
      simp only at hs
      split at hs
      next hidle =>
        cases hs
        have hks : ∀ k ∈ s.mSessions.map Prod.snd,
            Held s.refs k ∧ ∀ t', (s.threads t').creates ≠ some k := by
          intro k hk
          obtain ⟨⟨id, k'⟩, hmem, rfl⟩ := List.mem_map.mp hk
          have hr := mem_mSessions.mp hmem
          exact ⟨held_of_mem hr, h.not_creates hr (by simp)⟩
        refine (h.copies hks).setThread (fun k hk => List.mem_append_left _ ?_) rfl
          (by simp [hidle]) (by simp)
        exact List.mem_map_of_mem hk
      · cases hs
  | submit t k n inScope =>
      simp only at hs
      split at hs
      next hidle =>
        cases hs
        refine h.submit hidle.1 hidle.2.1 hidle.2.2 _ rfl rfl rfl ?_ ?_
        · cases inScope <;> rfl
        · cases inScope <;> rfl
      · cases hs
  | thread t accepted => exact h.threadStep hs
  | give i t =>
      simp only at hs
      split at hs
      · cases hs
      next n htask =>
        split at hs
        next hbody =>
          cases hs
          have hr : ⟨.closure n, (s.closures n).slot⟩ ∈ s.refs :=
            (h.closures.ref n _).mpr ⟨by rw [hbody.2]; rfl, rfl⟩
          exact h.copy (held_of_mem hr) (h.not_creates hr (by simp))
        · cases hs
  | worker i throws => exact h.workerStep hs
  | shutdown =>
      cases hs
      exact { h with }
  | clear i =>
      simp only at hs
      split at hs
      · split at hs
        · cases hs
        next n rest hqueue =>
          cases hs
          exact h.clear hqueue
      · cases hs
  | release k => exact h.release hs

/-! ## The map of the manager -/

/-- What the manager promises: every entry is a session with the id of the entry, no slot
is in two entries, and `GetSession` gives a session with the id it is asked for. -/
structure Consistent (s : Engine) : Prop where
  id : ∀ id k, (id, k) ∈ s.mSessions → (s.slots k).mId = id
  slot : ∀ id id' k k', (id, k) ∈ s.mSessions → (id', k') ∈ s.mSessions → (id = id' ↔ k = k')
  get : ∀ id k, s.find id = some k →
    (s.slots k).inUse = true ∧ (s.slots k).release = none ∧ (s.slots k).mId = id

theorem LifeInv.consistent (h : LifeInv s) : Consistent s where
  id := fun id k hk => h.map.id id k (mem_mSessions.mp hk)
  slot := by
    intro id id' k k' hk hk'
    have hr := mem_mSessions.mp hk
    have hr' := mem_mSessions.mp hk'
    constructor
    · rintro rfl
      exact h.map.once id k k' hr hr'
    · rintro rfl
      rw [← h.map.id id k hr, h.map.id id' k hr']
  get := fun id k hfind =>
    have hr := mem_of_find hfind
    have hused := h.slots.used k (held_of_mem hr)
    ⟨hused.1, hused.2, h.map.id id k hr⟩

theorem lifeInv_run {capacity : Nat} {as : List Act}
    (hrun : Machine.run (SessionLifetime.step workerCount) (.init capacity) as = some s) :
    LifeInv s :=
  Machine.run_invariant (fun _ _ _ h hs => h.step hs) (lifeInv_init capacity) hrun

/-- The map is consistent in every state of every run. -/
theorem consistent_run {capacity : Nat} {as : List Act}
    (hrun : Machine.run (SessionLifetime.step workerCount) (.init capacity) as = some s) :
    Consistent s :=
  (lifeInv_run hrun).consistent

end

/-- `CreateSession` by the thread `t`. -/
def createTrace (t : Nat) : List Act := .create t :: List.replicate 4 (.thread t false)

/-- The pool has one slot.  Its session is removed by reference, the reference is dropped,
and the next session gets the slot, while an old id is still asked for. -/
def reuseTrace : List Act :=
  List.flatten
    [createTrace 0, [.remove 0 0], List.replicate 4 (.thread 0 false), [.drop 0 0],
      List.replicate 3 (.release 0), createTrace 1, [.get 2 1, .get 2 2]]

theorem consistent_reuseTrace :
    ∃ s, Machine.run (step 4) (.init 1) reuseTrace = some s ∧ s.mSessions = [(2, 0)] ∧
      s.holds 2 0 ∧ (s.slots 0).incarnation = 2 ∧ Consistent s :=
  ⟨_, rfl, rfl, by decide, rfl, @consistent_run 4 _ 1 reuseTrace rfl⟩

end NetworkModule.SessionLifetime
