import NetworkModule.Concurrency.TimerFiring
import NetworkModule.Lib.BinaryHeap
import Mathlib

/-!
# The order of the timers

`mHeap` is a vector that `std::push_heap` and `std::pop_heap` keep as a heap for
`EntryCompare`, so that its first entry has the earliest `nextFire`.  The worker reads that
time and the clock under the lock, and pops the first entry if it is due.

`vecStep` is the queue with this vector.  It does what the queue of `step` does, for which
the heap is a set of entries and `PopTop` takes one with the earliest time
(`exists_step_of_vecStep`).

When a callback is called its entry is due, and if the entry is inserted again it is due an
interval after that (`Spaced`).  `firing_order` puts both together.
-/

namespace NetworkModule.TimerQueue

open BinaryHeap

/-! ## The queue with its vector -/

section
variable (ops : HeapOps TimerEntry.nextFire)

/-- A step of a call. -/
def vecCallStep (s : Timers) (i : Nat) : CallPc → Option Timers
  | .push entry =>
      if s.worker.locks then none
      else some { s with
        mHeap := ops.push (s.mHeap ++ [entry]), calls := s.calls.set i .notify }
  | pc => callStep s i pc

/-- A step of the worker.  `mHeap.front()` is the first entry of the vector. -/
def vecWorkerStep (s : Timers) (choice : Choice) : Option Timers :=
  match s.worker with
  | .readClock =>
      match s.mHeap.head? with
      | none => none
      | some front =>
          some { s with
            worker := if s.now < front.nextFire then .timedRunning front.nextFire else .popTop }
  | .timedHeap deadline =>
      match s.mHeap.head? with
      | none => some { s with worker := .lock }
      | some front =>
          some (if front.nextFire ≤ s.now then { s with worker := .lock }
            else { s with worker := .timedWaiting deadline, notified := false })
  | .popTop =>
      match (ops.pop s.mHeap).getLast? with
      | none => none
      | some entry =>
          some { s with
            mHeap := (ops.pop s.mHeap).dropLast
            mCancelledHandles := s.mCancelledHandles.erase entry.handle
            worker := if entry.handle ∈ s.mCancelledHandles then .lock else .callback entry }
  | .repeatPush entry =>
      some { s with mHeap := ops.push (s.mHeap ++ [entry]), worker := .repeatNotify }
  | _ => workerStep s choice

/-- One step. -/
def vecStep (s : Timers) : Act → Option Timers
  | .call i => vecCallStep ops s i (s.calls.getD i .returned)
  | .worker choice => vecWorkerStep ops s choice
  | a => step s a

/-! ## The vector as a set of entries -/

/-- The vector is a heap, and its entries are those of a queue that has them in some order. -/
structure Models (v t : Timers) : Prop where
  same : t = { v with mHeap := t.mHeap }
  perm : v.mHeap.Perm t.mHeap
  isHeap : IsHeap TimerEntry.nextFire v.mHeap

variable {ops} {v v' t : Timers}

theorem Models.heap_nil (h : Models v t) : t.mHeap = [] ↔ v.mHeap = [] := by
  constructor
  · intro hnil
    have hperm := h.perm
    rw [hnil] at hperm
    exact hperm.eq_nil
  · intro hnil
    have hperm := h.perm
    rw [hnil] at hperm
    exact hperm.nil_eq.symm

/-- The first entry of the vector has the earliest time. -/
theorem Models.frontTime (h : Models v t) :
    TimerQueue.frontTime t.mHeap = v.mHeap.head?.map TimerEntry.nextFire := by
  cases hfront : v.mHeap.head? with
  | none =>
      have hnil : t.mHeap = [] := h.heap_nil.mpr (List.head?_eq_none_iff.mp hfront)
      rw [hnil]
      rfl
  | some front =>
      refine List.min?_eq_some_iff.mpr ⟨?_, fun time htime => ?_⟩
      · exact List.mem_map_of_mem (h.perm.subset (List.mem_of_mem_head? hfront))
      · obtain ⟨e, he, rfl⟩ := List.mem_map.mp htime
        exact h.isHeap.head_le hfront e (h.perm.symm.subset he)

/-- An entry is pushed. -/
theorem Models.push (h : Models v t) (entry : TimerEntry) {w u : Timers}
    (hw : w.mHeap = ops.push (v.mHeap ++ [entry])) (hu : u.mHeap = entry :: t.mHeap)
    (hsame : u = { w with mHeap := u.mHeap }) : Models w u := by
  refine ⟨hsame, ?_, ?_⟩
  · rw [hw, hu]
    exact (ops.push_perm _).trans ((List.perm_append_singleton entry v.mHeap).trans
      (h.perm.cons entry))
  · rw [hw]
    exact ops.push_isHeap _ entry h.isHeap

/-- Neither side touches the entries. -/
theorem Models.keep (h : Models v t) {w u : Timers} (hw : w.mHeap = v.mHeap)
    (hu : u.mHeap = t.mHeap) (hsame : u = { w with mHeap := u.mHeap }) : Models w u :=
  ⟨hsame, by rw [hw, hu]; exact h.perm, by rw [hw]; exact h.isHeap⟩

/-- A notification does not look at the heap. -/
theorem notify_mHeap (v : Timers) (heap : List TimerEntry) :
    Timers.notify { v with mHeap := heap } = { v.notify with mHeap := heap } := by
  cases hpc : v.worker <;> simp only [Timers.notify, hpc]

/-- A step of a call. -/
theorem exists_callStep_of_vecCallStep {i : Nat} {pc : CallPc} (h : Models v t)
    (hs : vecCallStep ops v i pc = some v') :
    ∃ t', callStep t i pc = some t' ∧ Models v' t' := by
  have hsame := h.same
  generalize t.mHeap = heap at hsame
  subst hsame
  cases pc with
  | push entry =>
      simp only [vecCallStep] at hs
      split at hs
      · cases hs
      next hfree =>
        cases hs
        exact ⟨_, if_neg hfree, h.push entry rfl rfl rfl⟩
  | takeHandle delayMs intervalMs | readClock handle delayMs intervalMs =>
      cases hs
      exact ⟨_, rfl, h.keep rfl rfl rfl⟩
  | cancel handle =>
      simp only [vecCallStep, callStep] at hs
      split at hs
      · cases hs
      next hfree =>
        cases hs
        exact ⟨_, if_neg hfree, h.keep rfl rfl rfl⟩
  | notify =>
      cases hs
      refine ⟨_, rfl, h.keep (by simp) (by simp) ?_⟩
      simp only [notify_mHeap]
  | returned => cases hs

/-- A step of the worker.  The entry that it pops is the one that the vector gives. -/
theorem exists_workerStep_of_vecWorkerStep {choice : Choice} (h : Models v t)
    (hs : vecWorkerStep ops v choice = some v') :
    ∃ choice' t', workerStep t choice' = some t' ∧ Models v' t' := by
  have hfront := h.frontTime
  have hnil := h.heap_nil
  have hsame := h.same
  generalize hheap : t.mHeap = heap at hsame hfront hnil
  subst hsame
  cases hpc : v.worker with
  | readClock =>
      simp only [vecWorkerStep, hpc] at hs
      cases hhead : v.mHeap.head? with
      | none =>
          rw [hhead] at hs
          cases hs
      | some front =>
          rw [hhead] at hs hfront
          cases hs
          refine ⟨choice, { v with
            mHeap := heap
            worker := if v.now < front.nextFire then .timedRunning front.nextFire else .popTop },
            ?_, h.keep rfl rfl rfl⟩
          simp [workerStep, hfront]
  | timedHeap deadline =>
      simp only [vecWorkerStep, hpc] at hs
      cases hhead : v.mHeap.head? with
      | none =>
          rw [hhead] at hs hfront
          cases hs
          refine ⟨choice, { v with mHeap := heap, worker := .lock }, ?_, h.keep rfl rfl rfl⟩
          simp [workerStep, hfront]
      | some front =>
          rw [hhead] at hs hfront
          cases hs
          refine ⟨choice, { (if front.nextFire ≤ v.now then { v with worker := .lock }
            else { v with worker := .timedWaiting deadline, notified := false }) with
              mHeap := heap }, ?_, h.keep ?_ rfl rfl⟩
          · simp only [workerStep, hfront, Option.map_some]
            split <;> rfl
          · split <;> rfl
  | popTop =>
      simp only [vecWorkerStep, hpc] at hs
      cases hlast : (ops.pop v.mHeap).getLast? with
      | none =>
          rw [hlast] at hs
          cases hs
      | some entry =>
          rw [hlast] at hs
          cases hs
          obtain ⟨hmin, hperm⟩ := ops.pop_eq h.isHeap hlast
          have hmem : entry ∈ heap := h.perm.subset (hperm.symm.subset (List.mem_cons_self ..))
          have htime : frontTime heap = some entry.nextFire := by
            rw [hfront, ← ops.pop_getLast _ h.isHeap, hlast]
            rfl
          refine ⟨{ choice with entry := entry }, { v with
            mHeap := heap.erase entry
            mCancelledHandles := v.mCancelledHandles.erase entry.handle
            worker := if entry.handle ∈ v.mCancelledHandles then .lock else .callback entry },
            ?_, rfl, ?_, ops.pop_isHeap _ h.isHeap⟩
          · simp [workerStep, hmem, htime]
          · -- The others are the same on both sides.
            have hrest := hperm.symm.trans (h.perm.trans (List.perm_cons_erase hmem))
            exact (List.perm_cons entry).mp hrest
  | repeatPush entry =>
      simp only [vecWorkerStep, hpc] at hs
      cases hs
      refine ⟨choice, { v with mHeap := entry :: heap, worker := .repeatNotify }, ?_,
        h.push entry rfl rfl rfl⟩
      simp [workerStep]
  | waitHeap =>
      simp only [vecWorkerStep, hpc, workerStep] at hs
      cases hs
      refine ⟨choice, { (if v.mHeap = [] then { v with worker := .waiting, notified := false }
        else { v with worker := .runningTest }) with mHeap := heap }, ?_, h.keep ?_ rfl rfl⟩
      · simp only [workerStep, hnil]
        split <;> rfl
      · split <;> rfl
  | emptyTest =>
      simp only [vecWorkerStep, hpc, workerStep] at hs
      cases hs
      refine ⟨choice, { v with
        mHeap := heap, worker := if v.mHeap = [] then .lock else .readClock }, ?_,
        h.keep rfl rfl rfl⟩
      simp [workerStep, hnil]
  | timedWaiting deadline =>
      simp only [vecWorkerStep, hpc, workerStep] at hs
      refine ⟨choice, { v' with mHeap := heap }, ?_, ?_⟩
      · simp only [workerStep]
        split at hs
        next htimeout =>
          split at hs
          next hdue =>
            cases hs
            rw [if_pos htimeout, if_pos hdue]
          · cases hs
        next htimeout =>
          cases hs
          rw [if_neg htimeout]
      · refine h.keep ?_ rfl rfl
        split at hs
        · split at hs <;> cases hs
          rfl
        · cases hs
          rfl
  | lock | waiting | waitRunning | runningTest | timedRunning | callback | repeatClock
  | repeatNotify =>
      simp only [vecWorkerStep, hpc, workerStep, Option.some.injEq] at hs
      refine ⟨choice, { v' with mHeap := heap }, ?_, h.keep ?_ rfl rfl⟩
      · rw [← hs]
        simp only [workerStep]
      · rw [← hs]
  | exited => simp [vecWorkerStep, workerStep, hpc] at hs

/-- Every step with the vector is a step of the queue. -/
theorem exists_step_of_vecStep {a : Act} (h : Models v t) (hs : vecStep ops v a = some v') :
    ∃ a' t', step t a' = some t' ∧ Models v' t' ∧ t.returns a' = v.returns a ∧
      t.cancelling a' = v.cancelling a := by
  have hworker : t.worker = v.worker := by rw [h.same]
  have hcalls : t.calls = v.calls := by rw [h.same]
  have hrunning : t.mRunning = v.mRunning := by rw [h.same]
  have hkeep : ∀ {w u}, w.mHeap = v.mHeap → u.mHeap = t.mHeap → u = { w with mHeap := u.mHeap } →
      Models w u := h.keep
  cases a with
  | scheduleOnce delayMs =>
      cases hs
      exact ⟨.scheduleOnce delayMs, _, rfl, hkeep rfl rfl (by rw [h.same]; rfl), rfl, rfl⟩
  | scheduleRepeat intervalMs =>
      cases hs
      exact ⟨.scheduleRepeat intervalMs, _, rfl, hkeep rfl rfl (by rw [h.same]; rfl), rfl, rfl⟩
  | tick ns =>
      cases hs
      exact ⟨.tick ns, _, rfl, hkeep rfl rfl (by rw [h.same]), rfl, rfl⟩
  | cancel handle =>
      simp only [vecStep, step] at hs
      have hcancelling : t.cancelling (.cancel handle) = v.cancelling (.cancel handle) := by
        simp only [Timers.cancelling, hcalls]
      split at hs
      next hzero =>
        cases hs
        exact ⟨.cancel handle, t, if_pos hzero, h, rfl, hcancelling⟩
      next hne =>
        cases hs
        exact ⟨.cancel handle, _, if_neg hne, hkeep rfl rfl (by rw [h.same]; rfl), rfl, hcancelling⟩
  | stop =>
      simp only [vecStep, step] at hs
      split at hs
      next hrun =>
        cases hs
        exact ⟨.stop, _, if_pos (hrunning.trans hrun), hkeep rfl rfl (by rw [h.same]; rfl), rfl,
          rfl⟩
      next hrun =>
        cases hs
        exact ⟨.stop, t, if_neg (by rw [hrunning]; exact hrun), h, rfl, rfl⟩
  | call i =>
      obtain ⟨t', ht, hmodels⟩ := exists_callStep_of_vecCallStep h hs
      exact ⟨.call i, t', by rw [step, hcalls]; exact ht, hmodels, rfl, rfl⟩
  | worker choice =>
      obtain ⟨choice', t', ht, hmodels⟩ := exists_workerStep_of_vecWorkerStep h hs
      refine ⟨.worker choice', t', ht, hmodels, ?_, rfl⟩
      simp only [Timers.returns, hworker]

/-- Every run with the vector has the starts of a run of the queue. -/
theorem exists_run_of_vecRun {as : List FireAct} {f : Firing}
    (hrun : Machine.run (fireStep (vecStep ops)) {} as = some f) :
    ∃ as' g, Machine.run (fireStep step) {} as' = some g ∧ Models f.timers g.timers ∧
      g = { f with timers := g.timers } := by
  refine Machine.run_invariant (I := fun f => ∃ as' g,
    Machine.run (fireStep step) {} as' = some g ∧ Models f.timers g.timers ∧
      g = { f with timers := g.timers }) ?_ ⟨[], {}, rfl, ⟨rfl, .refl _, isHeap_nil⟩, rfl⟩ hrun
  rintro f a f' ⟨as', g, hg, hmodels, hsame⟩ hs
  have hsnoc : ∀ {b g'}, fireStep step g b = some g' →
      Machine.run (fireStep step) {} (as' ++ [b]) = some g' := by
    intro b g' hb
    rw [Machine.run_append, hg]
    simp [Machine.run, hb]
  have hrunning : g.running = f.running := by rw [hsame]
  have hstarts : g.starts = f.starts := by rw [hsame]
  have hcancels : g.cancels = f.cancels := by rw [hsame]
  cases a with
  | start =>
      simp only [fireStep] at hs
      split at hs
      next entry hworker =>
        split at hs
        · cases hs
        next hrun =>
          cases hs
          have hworker' : g.timers.worker = .callback entry := by rw [hmodels.same]; exact hworker
          have hnow : g.timers.now = f.timers.now := by rw [hmodels.same]
          refine ⟨_, { g with running := true, starts := g.starts ++ [⟨entry, g.timers.now⟩] },
            hsnoc (b := .start) ?_, hmodels, ?_⟩
          · simp [fireStep, hworker', hrunning, hrun]
          · simp [hstarts, hnow, hcancels]
      · cases hs
  | timers a =>
      simp only [fireStep] at hs
      split at hs
      · cases hs
      next hallowed =>
        obtain ⟨v', hv, rfl⟩ := Option.map_eq_some_iff.mp hs
        obtain ⟨a', t', ht, hmodels', hreturns, hcancelling⟩ := exists_step_of_vecStep hmodels hv
        refine ⟨_, { g with
          timers := t'
          running := g.running && !g.timers.returns a'
          cancels := g.cancels ++ (g.timers.cancelling a').toList },
          hsnoc (b := .timers a') ?_, hmodels', ?_⟩
        · simp only [fireStep, hreturns, hrunning, if_neg hallowed, ht, Option.map_some]
        · simp [hreturns, hcancelling, hrunning, hstarts, hcancels]

end

/-! ## What a step does to the entries -/

/-- The entry in the hands of the worker. -/
def WorkerPc.entry : WorkerPc → Option TimerEntry
  | .callback entry | .repeatClock entry | .repeatPush entry => some entry
  | _ => none

/-- The ways of the entries through the heap and the hands of the worker. -/
inductive EntryMove (t : Timers) (a : Act) (t' : Timers) : Prop where
  /-- Another thread moves, or time passes. -/
  | quiet (heap : t'.mHeap = t.mHeap) (worker : t'.worker = t.worker) (now : t.now ≤ t'.now)
      (returns : t.returns a = false)
  /-- A call inserts its entry. -/
  | push (entry : TimerEntry) (call : .push entry ∈ t.calls) (free : t.worker.locks = false)
      (heap : t'.mHeap = entry :: t.mHeap) (worker : t'.worker = t.worker) (now : t'.now = t.now)
      (returns : t.returns a = false)
  /-- The worker moves, and has no entry. -/
  | move (heap : t'.mHeap = t.mHeap) (now : t'.now = t.now) (before : t.worker.entry = none)
      (after : t'.worker.entry = none)
      (due : t'.worker = .popTop →
        ∃ fireTime, frontTime t.mHeap = some fireTime ∧ fireTime ≤ t.now)
  | pop (entry : TimerEntry) (worker : t.worker = .popTop) (mem : entry ∈ t.mHeap)
      (front : frontTime t.mHeap = some entry.nextFire) (heap : t'.mHeap = t.mHeap.erase entry)
      (now : t'.now = t.now) (after : t'.worker = .lock ∨ t'.worker = .callback entry)
  | returned (entry : TimerEntry) (worker : t.worker = .callback entry)
      (heap : t'.mHeap = t.mHeap) (now : t'.now = t.now)
      (after : t'.worker = .lock ∨ t'.worker = .repeatClock entry)
      (returns : t.returns a = true)
  | again (entry : TimerEntry) (worker : t.worker = .repeatClock entry)
      (heap : t'.mHeap = t.mHeap) (now : t'.now = t.now)
      (after : t'.worker =
        .repeatPush { entry with nextFire := t.now + milliseconds entry.intervalMs })
  | reinsert (entry : TimerEntry) (worker : t.worker = .repeatPush entry)
      (heap : t'.mHeap = entry :: t.mHeap) (now : t'.now = t.now)
      (after : t'.worker = .repeatNotify)

section
variable {t t' : Timers}

@[simp] theorem now_notify (t : Timers) : t.notify.now = t.now := by
  unfold Timers.notify
  split <;> rfl

theorem entryMove_of_callStep {i : Nat} {pc : CallPc} (hi : t.calls[i]? = some pc)
    (hs : callStep t i pc = some t') : EntryMove t (.call i) t' := by
  cases pc with
  | takeHandle | readClock =>
      cases hs
      exact .quiet rfl rfl (Nat.le_refl _) rfl
  | push entry =>
      simp only [callStep] at hs
      split at hs
      · cases hs
      next hfree =>
        cases hs
        exact .push entry (List.mem_of_getElem? hi) (Bool.eq_false_iff.mpr hfree) rfl rfl rfl rfl
  | cancel handle =>
      simp only [callStep] at hs
      split at hs <;> cases hs
      exact .quiet rfl rfl (Nat.le_refl _) rfl
  | notify =>
      cases hs
      exact .quiet (by simp) (by simp) (by simp) rfl
  | returned => cases hs

theorem entryMove_of_workerStep {choice : Choice} (hs : workerStep t choice = some t') :
    EntryMove t (.worker choice) t' := by
  cases hpc : t.worker with
  | lock | waiting | repeatNotify =>
      simp only [workerStep, hpc, Option.some.injEq] at hs
      subst hs
      exact .move rfl rfl (by rw [hpc]; rfl) rfl fun h => by cases h
  | waitRunning | runningTest | emptyTest | timedRunning =>
      simp only [workerStep, hpc, Option.some.injEq] at hs
      subst hs
      refine .move rfl rfl (by rw [hpc]; rfl) ?_ fun h => ?_
      · dsimp only
        split <;> rfl
      · dsimp only at h
        split at h <;> cases h
  | waitHeap =>
      simp only [workerStep, hpc, Option.some.injEq] at hs
      subst hs
      split <;> exact .move rfl rfl (by rw [hpc]; rfl) rfl fun h => by cases h
  | readClock =>
      simp only [workerStep, hpc] at hs
      split at hs
      · cases hs
      next fireTime hfront =>
        cases hs
        refine .move rfl rfl (by rw [hpc]; rfl) ?_ fun h => ⟨fireTime, hfront, ?_⟩
        · dsimp only
          split <;> rfl
        · dsimp only at h
          split at h
          · cases h
          next hdue => exact Nat.not_lt.mp hdue
  | timedHeap deadline =>
      simp only [workerStep, hpc] at hs
      split at hs <;> cases hs
      · exact .move rfl rfl (by rw [hpc]; rfl) rfl fun h => by cases h
      · split <;> exact .move rfl rfl (by rw [hpc]; rfl) rfl fun h => by cases h
  | timedWaiting deadline =>
      simp only [workerStep, hpc] at hs
      split at hs
      · split at hs <;> cases hs
        exact .move rfl rfl (by rw [hpc]; rfl) rfl fun h => by cases h
      · cases hs
        exact .move rfl rfl (by rw [hpc]; rfl) rfl fun h => by cases h
  | popTop =>
      simp only [workerStep, hpc] at hs
      split at hs
      next hpop =>
        cases hs
        refine .pop choice.entry hpc hpop.1 hpop.2 rfl rfl ?_
        dsimp only
        split
        · exact Or.inl rfl
        · exact Or.inr rfl
      · cases hs
  | callback entry =>
      simp only [workerStep, hpc, Option.some.injEq] at hs
      subst hs
      refine .returned entry hpc rfl rfl ?_ (by simp [Timers.returns, hpc])
      dsimp only
      split
      · exact Or.inr rfl
      · exact Or.inl rfl
  | repeatClock entry =>
      simp only [workerStep, hpc, Option.some.injEq] at hs
      subst hs
      exact .again entry hpc rfl rfl rfl
  | repeatPush entry =>
      simp only [workerStep, hpc, Option.some.injEq] at hs
      subst hs
      exact .reinsert entry hpc rfl rfl rfl
  | exited => simp [workerStep, hpc] at hs

theorem entryMove_of_step {a : Act} (hs : step t a = some t') : EntryMove t a t' := by
  cases a with
  | scheduleOnce | scheduleRepeat =>
      cases hs
      exact .quiet rfl rfl (Nat.le_refl _) rfl
  | tick ns =>
      cases hs
      exact .quiet rfl rfl (Nat.le_add_right _ _) rfl
  | cancel | stop =>
      simp only [step] at hs
      split at hs <;> cases hs <;> exact .quiet rfl rfl (Nat.le_refl _) rfl
  | call i =>
      have hne : t.calls.getD i .returned ≠ .returned := fun he => by
        simp only [step, he] at hs
        cases hs
      exact entryMove_of_callStep (Machine.getElem?_of_getD rfl hne) hs
  | worker choice => exact entryMove_of_workerStep hs

/-- A call that begins to carry a handle has just been given it. -/
theorem countP_calls_of_step {a : Act} (hs : step t a = some t') (handle : Nat) :
    t'.calls.countP (CallPc.carries handle) ≤ t.calls.countP (CallPc.carries handle) ∨
      handle = t.mNextHandle := by
  have hbegin : ∀ pc : CallPc, pc.carries handle = false →
      (t.calls ++ [pc]).countP (CallPc.carries handle) ≤
        t.calls.countP (CallPc.carries handle) := by
    intro pc hpc
    rw [Tally.countP_concat, hpc]
    exact Nat.le_refl _
  cases a with
  | scheduleOnce | scheduleRepeat =>
      cases hs
      exact Or.inl (hbegin _ rfl)
  | tick =>
      cases hs
      exact Or.inl (Nat.le_refl _)
  | cancel =>
      simp only [step] at hs
      split at hs <;> cases hs
      · exact Or.inl (Nat.le_refl _)
      · exact Or.inl (hbegin _ rfl)
  | stop =>
      simp only [step] at hs
      split at hs <;> cases hs
      · exact Or.inl (hbegin _ rfl)
      · exact Or.inl (Nat.le_refl _)
  | worker choice =>
      left
      rw [(workerStep_effect hs).calls]
  | call i =>
      have hne : t.calls.getD i .returned ≠ .returned := fun he => by
        simp only [step, he] at hs
        cases hs
      have hi := Machine.getElem?_of_getD rfl hne
      have hcount := fun pc' => Tally.countP_set (CallPc.carries handle) pc' hi
      simp only [step] at hs
      cases hpc : t.calls.getD i .returned with
      | takeHandle delayMs intervalMs =>
          rw [hpc] at hs hcount
          cases hs
          by_cases hhandle : t.mNextHandle = handle
          · exact Or.inr hhandle.symm
          · have hc := hcount (.readClock t.mNextHandle delayMs intervalMs)
            simp only [CallPc.carries, beq_false_of_ne hhandle, Bool.toNat_false] at hc
            exact Or.inl (by simp only; omega)
      | readClock h delayMs intervalMs =>
          rw [hpc] at hs hcount
          cases hs
          have hc := hcount (.push ⟨h, t.now + milliseconds delayMs, intervalMs⟩)
          simp only [CallPc.carries] at hc
          exact Or.inl (by simp only; omega)
      | push | cancel =>
          rw [hpc] at hs hcount
          simp only [callStep] at hs
          split at hs <;> cases hs
          have hc := hcount .notify
          simp only [CallPc.carries, Bool.toNat_false] at hc
          exact Or.inl (by simp only; omega)
      | notify =>
          rw [hpc] at hs hcount
          cases hs
          have hc := hcount .returned
          simp only [CallPc.carries, Bool.toNat_false] at hc
          exact Or.inl (by simp only; omega)
      | returned =>
          rw [hpc] at hs
          cases hs

end

/-! ## Firings that are spaced -/

/-- The entries in the heap and in the hands of the worker. -/
def Timers.entries (t : Timers) : List TimerEntry := t.mHeap ++ t.worker.entry.toList

/-- The entry in the hands of the worker whose callback is still to be called. -/
def Firing.next (f : Firing) : Option TimerEntry :=
  match f.timers.worker with
  | .callback entry => if f.running then none else some entry
  | .repeatPush entry => some entry
  | _ => none

/-- The entries whose callbacks are still to be called. -/
def Firing.pending (f : Firing) : List TimerEntry := f.timers.mHeap ++ f.next.toList

/-- What holds in every state. -/
structure Spaced (f : Firing) : Prop where
  entries : Entries f.timers
  idle : f.running = true → ∃ entry, f.timers.worker = .callback entry
  /-- The worker pops when the first entry is due. -/
  due : f.timers.worker = .popTop →
    ∃ fireTime, frontTime f.timers.mHeap = some fireTime ∧ fireTime ≤ f.timers.now
  ready : ∀ entry, f.timers.worker = .callback entry → entry.nextFire ≤ f.timers.now
  punctual : ∀ x ∈ f.starts, x.entry.nextFire ≤ x.time ∧ x.time ≤ f.timers.now
  /-- No call is on its way with a handle that has fired. -/
  given : ∀ x ∈ f.starts, x.entry.handle < f.timers.mNextHandle ∧
    f.timers.calls.countP (CallPc.carries x.entry.handle) = 0
  /-- An entry keeps its interval. -/
  interval : ∀ x ∈ f.starts, ∀ e ∈ f.timers.entries, e.handle = x.entry.handle →
    e.intervalMs = x.entry.intervalMs
  /-- It is not due before the interval is over. -/
  later : ∀ x ∈ f.starts, ∀ e ∈ f.pending, e.handle = x.entry.handle →
    x.time + milliseconds x.entry.intervalMs ≤ e.nextFire
  apart : f.starts.Pairwise fun x y => x.entry.handle = y.entry.handle →
    x.time + milliseconds x.entry.intervalMs ≤ y.time

theorem spaced_init : Spaced {} where
  entries := entries_init
  idle := fun h => by cases h
  due := fun h => by cases h
  ready := fun _ h => by cases h
  punctual := fun _ h => absurd h List.not_mem_nil
  given := fun _ h => absurd h List.not_mem_nil
  interval := fun _ h => absurd h List.not_mem_nil
  later := fun _ h => absurd h List.not_mem_nil
  apart := List.Pairwise.nil

section
variable {f f' : Firing}

/-- The entry that the worker has is the only one with its handle. -/
theorem Spaced.only (h : Spaced f) {entry : TimerEntry}
    (hworker : f.timers.worker = .callback entry) :
    (∀ e ∈ f.timers.mHeap, e.handle ≠ entry.handle) ∧ entry.handle < f.timers.mNextHandle ∧
      f.timers.calls.countP (CallPc.carries entry.handle) = 0 := by
  have hone := h.entries.unique entry.handle
  simp only [Timers.carriers, hworker, WorkerPc.carries, beq_self_eq_true, Bool.toNat_true] at hone
  refine ⟨fun e he heq => ?_, ?_, by omega⟩
  · have hpos : 0 < f.timers.inHeap entry.handle :=
      List.countP_pos_iff.mpr ⟨e, he, beq_iff_eq.mpr heq⟩
    omega
  · by_contra hle
    have hzero := h.entries.fresh entry.handle (Nat.not_lt.mp hle)
    simp only [Timers.carriers, hworker, WorkerPc.carries, beq_self_eq_true,
      Bool.toNat_true] at hzero
    omega

/-- The callback of the popped entry is called. -/
theorem Spaced.start (h : Spaced f) {entry : TimerEntry}
    (hworker : f.timers.worker = .callback entry) (hrunning : f.running = false) :
    Spaced { f with running := true, starts := f.starts ++ [⟨entry, f.timers.now⟩] } := by
  obtain ⟨hheap, hgiven, hcalls⟩ := h.only hworker
  have hentry : entry ∈ f.timers.entries := by
    simp [Timers.entries, hworker, WorkerPc.entry]
  have hpending : entry ∈ f.pending := by
    simp [Firing.pending, Firing.next, hworker, hrunning]
  have hready := h.ready entry hworker
  have hsplit : ∀ {P : Start → Prop}, (∀ x ∈ f.starts, P x) → P ⟨entry, f.timers.now⟩ →
      ∀ x ∈ f.starts ++ [⟨entry, f.timers.now⟩], P x := by
    intro P hold hnew x hx
    rcases List.mem_append.mp hx with hx | hx
    · exact hold x hx
    · rw [List.mem_singleton.mp hx]
      exact hnew
  refine ⟨h.entries, fun _ => ⟨entry, hworker⟩, h.due, h.ready,
    hsplit h.punctual ⟨hready, Nat.le_refl _⟩, hsplit h.given ⟨hgiven, hcalls⟩,
    hsplit h.interval fun e he heq => ?_, hsplit (fun x hx e he => ?_) fun e he heq => ?_, ?_⟩
  · rcases List.mem_append.mp he with he | he
    · exact absurd heq (hheap e he)
    · simp only [hworker, WorkerPc.entry, Option.toList_some, List.mem_singleton] at he
      rw [he]
  · refine h.later x hx e ?_
    simp only [Firing.pending, Firing.next, hworker, if_true, Option.toList_none,
      List.append_nil] at he
    exact List.mem_append_left _ he
  · simp only [Firing.pending, Firing.next, hworker, if_true, Option.toList_none,
      List.append_nil] at he
    exact absurd heq (hheap e he)
  · refine List.pairwise_append.mpr ⟨h.apart, List.pairwise_singleton _ _, fun x hx y hy heq => ?_⟩
    rw [List.mem_singleton.mp hy] at heq ⊢
    exact (h.later x hx entry hpending heq.symm).trans hready

/-- A worker that has no callback is not running one. -/
theorem Spaced.still (h : Spaced f) (hno : ∀ entry, f.timers.worker ≠ .callback entry) :
    f.running = false := by
  refine Bool.eq_false_iff.mpr fun hrunning => ?_
  obtain ⟨entry, hentry⟩ := h.idle hrunning
  exact hno entry hentry

/-- A worker that has no entry has none whose callback is still to be called. -/
theorem pending_eq_mHeap (hworker : f.timers.worker.entry = none) :
    f.pending = f.timers.mHeap := by
  have hnext : f.next = none := by
    rw [Firing.next]
    split
    next entry heq =>
      rw [heq] at hworker
      cases hworker
    next entry heq =>
      rw [heq] at hworker
      cases hworker
    · rfl
  rw [Firing.pending, hnext, Option.toList_none, List.append_nil]

/-- The entries stay with a worker that does not move. -/
theorem pending_eq_of_worker (hworker : f'.timers.worker = f.timers.worker)
    (hrunning : f'.running = f.running) : f'.pending = f'.timers.mHeap ++ f.next.toList := by
  rw [Firing.pending, Firing.next, hworker, hrunning, ← Firing.next]

/-- A step of the queue that brings no entry forward. -/
theorem Spaced.frame (h : Spaced f) {a : Act} (hs : step f.timers a = some f'.timers)
    (hstarts : f'.starts = f.starts)
    (hidle : f'.running = true → ∃ entry, f'.timers.worker = .callback entry)
    (hnow : f.timers.now ≤ f'.timers.now)
    (hdue : f'.timers.worker = .popTop → ∃ fireTime, frontTime f'.timers.mHeap = some fireTime ∧
      fireTime ≤ f'.timers.now)
    (hready : ∀ entry, f'.timers.worker = .callback entry → entry.nextFire ≤ f'.timers.now)
    (hentries : ∀ x ∈ f.starts, ∀ e ∈ f'.timers.entries, e.handle = x.entry.handle →
      e.intervalMs = x.entry.intervalMs)
    (hpending : ∀ x ∈ f.starts, ∀ e ∈ f'.pending, e.handle = x.entry.handle →
      x.time + milliseconds x.entry.intervalMs ≤ e.nextFire) : Spaced f' := by
  refine ⟨h.entries.step hs, hidle, hdue, hready, fun x hx => ?_, fun x hx => ?_,
    fun x hx => hentries x (hstarts ▸ hx), fun x hx => hpending x (hstarts ▸ hx),
    by rw [hstarts]; exact h.apart⟩
  · rw [hstarts] at hx
    obtain ⟨hle, hpast⟩ := h.punctual x hx
    exact ⟨hle, hpast.trans hnow⟩
  · rw [hstarts] at hx
    obtain ⟨hlt, hzero⟩ := h.given x hx
    refine ⟨hlt.trans_le (effect_of_step hs).next, ?_⟩
    rcases countP_calls_of_step hs x.entry.handle with hle | heq
    · exact Nat.le_zero.mp (hzero ▸ hle)
    · exact absurd hlt (heq ▸ Nat.lt_irrefl _)

/-- The worker gets to a place where it neither pops nor calls. -/
theorem Spaced.away (h : Spaced f) {a : Act} (hs : step f.timers a = some f'.timers)
    (hstarts : f'.starts = f.starts) (hidle : f'.running = false)
    (hnow : f'.timers.now = f.timers.now) (hpop : f'.timers.worker ≠ .popTop)
    (hcallback : ∀ entry, f'.timers.worker ≠ .callback entry)
    (hentries : ∀ x ∈ f.starts, ∀ e ∈ f'.timers.entries, e.handle = x.entry.handle →
      e.intervalMs = x.entry.intervalMs)
    (hpending : ∀ x ∈ f.starts, ∀ e ∈ f'.pending, e.handle = x.entry.handle →
      x.time + milliseconds x.entry.intervalMs ≤ e.nextFire) : Spaced f' := by
  refine h.frame hs hstarts (fun hrunning => ?_) hnow.ge (fun hworker => absurd hworker hpop)
    (fun entry hworker => absurd hworker (hcallback entry)) hentries hpending
  rw [hidle] at hrunning
  cases hrunning

/-- Another thread moves, or time passes. -/
theorem Spaced.quiet (h : Spaced f) {a : Act} (hs : step f.timers a = some f'.timers)
    (hstarts : f'.starts = f.starts) (hrunning : f'.running = f.running)
    (heap : f'.timers.mHeap = f.timers.mHeap) (worker : f'.timers.worker = f.timers.worker)
    (now : f.timers.now ≤ f'.timers.now) : Spaced f' := by
  refine h.frame hs hstarts (fun hrun => ?_) now (fun hpop => ?_) (fun entry hcallback => ?_)
    (fun x hx e he => h.interval x hx e ?_) fun x hx e he => h.later x hx e ?_
  · rw [worker]
    exact h.idle (hrunning ▸ hrun)
  · rw [worker] at hpop
    obtain ⟨fireTime, hfront, hle⟩ := h.due hpop
    exact ⟨fireTime, by rw [heap]; exact hfront, hle.trans now⟩
  · rw [worker] at hcallback
    exact (h.ready entry hcallback).trans now
  · rwa [Timers.entries, heap, worker] at he
  · rwa [pending_eq_of_worker worker hrunning, heap] at he

/-- A call inserts its entry, which has a handle that has not fired. -/
theorem Spaced.push (h : Spaced f) {a : Act} (hs : step f.timers a = some f'.timers)
    (hstarts : f'.starts = f.starts) (hrunning : f'.running = f.running) {entry : TimerEntry}
    (call : .push entry ∈ f.timers.calls) (free : f.timers.worker.locks = false)
    (heap : f'.timers.mHeap = entry :: f.timers.mHeap)
    (worker : f'.timers.worker = f.timers.worker) (now : f'.timers.now = f.timers.now) :
    Spaced f' := by
  have hother : ∀ x ∈ f.starts, entry.handle ≠ x.entry.handle := by
    intro x hx heq
    have hpos : 0 < f.timers.calls.countP (CallPc.carries x.entry.handle) :=
      List.countP_pos_iff.mpr ⟨_, call, beq_iff_eq.mpr heq⟩
    have hzero := (h.given x hx).2
    omega
  refine h.frame hs hstarts (fun hrun => ?_) now.ge (fun hpop => ?_) (fun e hcallback => ?_)
    (fun x hx e he heq => ?_) fun x hx e he heq => ?_
  · rw [worker]
    exact h.idle (hrunning ▸ hrun)
  · rw [worker] at hpop
    rw [hpop] at free
    cases free
  · rw [worker] at hcallback
    rw [now]
    exact h.ready e hcallback
  · rw [Timers.entries, heap, worker, List.cons_append] at he
    rcases List.mem_cons.mp he with rfl | he
    · exact absurd heq (hother x hx)
    · exact h.interval x hx e he heq
  · rw [pending_eq_of_worker worker hrunning, heap, List.cons_append] at he
    rcases List.mem_cons.mp he with rfl | he
    · exact absurd heq (hother x hx)
    · exact h.later x hx e he heq

/-- The worker moves, and has no entry. -/
theorem Spaced.move (h : Spaced f) {a : Act} (hs : step f.timers a = some f'.timers)
    (hstarts : f'.starts = f.starts) (hidle : f'.running = false)
    (heap : f'.timers.mHeap = f.timers.mHeap) (now : f'.timers.now = f.timers.now)
    (after : f'.timers.worker.entry = none)
    (due : f'.timers.worker = .popTop →
      ∃ fireTime, frontTime f.timers.mHeap = some fireTime ∧ fireTime ≤ f.timers.now) :
    Spaced f' := by
  refine h.frame hs hstarts (fun hrunning => ?_) now.ge (fun hpop => ?_)
    (fun entry hcallback => ?_) (fun x hx e he => h.interval x hx e ?_)
    fun x hx e he => h.later x hx e ?_
  · rw [hidle] at hrunning
    cases hrunning
  · rw [heap, now]
    exact due hpop
  · rw [hcallback] at after
    cases after
  · rw [Timers.entries, heap, after, Option.toList_none, List.append_nil] at he
    exact List.mem_append_left _ he
  · rw [pending_eq_mHeap after, heap] at he
    exact List.mem_append_left _ he

/-- The worker pops an entry that is due. -/
theorem Spaced.pop (h : Spaced f) {a : Act} (hs : step f.timers a = some f'.timers)
    (hstarts : f'.starts = f.starts) (hidle : f'.running = false) {entry : TimerEntry}
    (worker : f.timers.worker = .popTop) (mem : entry ∈ f.timers.mHeap)
    (front : frontTime f.timers.mHeap = some entry.nextFire)
    (heap : f'.timers.mHeap = f.timers.mHeap.erase entry) (now : f'.timers.now = f.timers.now)
    (after : f'.timers.worker = .lock ∨ f'.timers.worker = .callback entry) : Spaced f' := by
  have hsub : ∀ e ∈ f'.timers.mHeap ++ f'.timers.worker.entry.toList, e ∈ f.timers.mHeap := by
    intro e he
    rw [heap] at he
    rcases List.mem_append.mp he with he | he
    · exact List.mem_of_mem_erase he
    · rcases after with after | after
      · rw [after] at he
        cases he
      · rw [after] at he
        rw [List.mem_singleton.mp he]
        exact mem
  have hpending : ∀ e ∈ f'.pending, e ∈ f'.timers.mHeap ++ f'.timers.worker.entry.toList := by
    intro e he
    rcases after with after | after
    · rw [pending_eq_mHeap (by rw [after]; rfl)] at he
      exact List.mem_append_left _ he
    · rw [after]
      simpa [Firing.pending, Firing.next, after, hidle, WorkerPc.entry, eq_comm] using he
  refine h.frame hs hstarts (fun hrunning => ?_) now.ge (fun hpop => ?_) (fun e hcallback => ?_)
    (fun x hx e he => h.interval x hx e (List.mem_append_left _ (hsub e he)))
    fun x hx e he => h.later x hx e (List.mem_append_left _ (hsub e (hpending e he)))
  · rw [hidle] at hrunning
    cases hrunning
  · rcases after with after | after <;> rw [after] at hpop <;> cases hpop
  · rcases after with after | after
    · rw [after] at hcallback
      cases hcallback
    · rw [after] at hcallback
      cases hcallback
      obtain ⟨fireTime, hfront, hle⟩ := h.due worker
      rw [front] at hfront
      cases hfront
      rw [now]
      exact hle

/-- The callback returns. -/
theorem Spaced.returned (h : Spaced f) {a : Act} (hs : step f.timers a = some f'.timers)
    (hstarts : f'.starts = f.starts) (hidle : f'.running = false) {entry : TimerEntry}
    (worker : f.timers.worker = .callback entry) (heap : f'.timers.mHeap = f.timers.mHeap)
    (now : f'.timers.now = f.timers.now)
    (after : f'.timers.worker = .lock ∨ f'.timers.worker = .repeatClock entry) : Spaced f' := by
  refine h.away hs hstarts hidle now (fun hpop => ?_) (fun e hcallback => ?_)
    (fun x hx e he => h.interval x hx e ?_) fun x hx e he => h.later x hx e ?_
  · rcases after with after | after <;> rw [after] at hpop <;> cases hpop
  · rcases after with after | after <;> rw [after] at hcallback <;> cases hcallback
  · have hentry : f.timers.worker.entry = some entry := by rw [worker]; rfl
    rw [Timers.entries, heap] at he
    rw [Timers.entries, hentry]
    rcases after with after | after
    · rw [after] at he
      exact List.mem_append_left _ (by simpa [WorkerPc.entry] using he)
    · rwa [after] at he
  · refine List.mem_append_left _ ?_
    rcases after with after | after
    · rwa [pending_eq_mHeap (by rw [after]; rfl), heap] at he
    · simpa only [Firing.pending, Firing.next, heap, after, Option.toList_none,
        List.append_nil] using he

/-- The entry that the worker has is due an interval from now. -/
theorem Spaced.again (h : Spaced f) {a : Act} (hs : step f.timers a = some f'.timers)
    (hstarts : f'.starts = f.starts) (hidle : f'.running = false) {entry : TimerEntry}
    (worker : f.timers.worker = .repeatClock entry) (heap : f'.timers.mHeap = f.timers.mHeap)
    (now : f'.timers.now = f.timers.now)
    (after : f'.timers.worker =
      .repeatPush { entry with nextFire := f.timers.now + milliseconds entry.intervalMs }) :
    Spaced f' := by
  have hentry : entry ∈ f.timers.entries := by
    simp [Timers.entries, worker, WorkerPc.entry]
  refine h.away hs hstarts hidle now (fun hpop => ?_) (fun e hcallback => ?_)
    (fun x hx e he heq => ?_) fun x hx e he heq => ?_
  · rw [after] at hpop
    cases hpop
  · rw [after] at hcallback
    cases hcallback
  · rw [Timers.entries, heap, after] at he
    rcases List.mem_append.mp he with he | he
    · exact h.interval x hx e (List.mem_append_left _ he) heq
    · rw [List.mem_singleton.mp he] at heq ⊢
      exact h.interval x hx entry hentry heq
  · simp only [Firing.pending, Firing.next, heap, after, Option.toList_some] at he
    rcases List.mem_append.mp he with he | he
    · exact h.later x hx e (List.mem_append_left _ he) heq
    · -- The last call was not after now.
      rw [List.mem_singleton.mp he] at heq ⊢
      rw [← h.interval x hx entry hentry heq]
      exact Nat.add_le_add_right (h.punctual x hx).2 _

/-- The worker inserts the entry that it has. -/
theorem Spaced.reinsert (h : Spaced f) {a : Act} (hs : step f.timers a = some f'.timers)
    (hstarts : f'.starts = f.starts) (hidle : f'.running = false) {entry : TimerEntry}
    (worker : f.timers.worker = .repeatPush entry)
    (heap : f'.timers.mHeap = entry :: f.timers.mHeap) (now : f'.timers.now = f.timers.now)
    (after : f'.timers.worker = .repeatNotify) : Spaced f' := by
  have hold : ∀ e ∈ entry :: f.timers.mHeap, e ∈ f.timers.entries ∧ e ∈ f.pending := by
    intro e he
    rcases List.mem_cons.mp he with rfl | he
    · simp [Timers.entries, Firing.pending, Firing.next, worker, WorkerPc.entry]
    · exact ⟨List.mem_append_left _ he, List.mem_append_left _ he⟩
  have hnone : f'.timers.worker.entry = none := by rw [after]; rfl
  refine h.away hs hstarts hidle now (fun hpop => ?_) (fun e hcallback => ?_)
    (fun x hx e he => h.interval x hx e (hold e ?_).1)
    fun x hx e he => h.later x hx e (hold e ?_).2
  · rw [after] at hpop
    cases hpop
  · rw [after] at hcallback
    cases hcallback
  · rwa [Timers.entries, heap, hnone, Option.toList_none, List.append_nil] at he
  · rwa [pending_eq_mHeap hnone, heap] at he

theorem Spaced.step {a : FireAct} (h : Spaced f)
    (hs : fireStep TimerQueue.step f a = some f') : Spaced f' := by
  cases a with
  | start =>
      simp only [fireStep] at hs
      split at hs
      next entry hworker =>
        split at hs
        · cases hs
        next hrunning =>
          cases hs
          exact h.start hworker (Bool.eq_false_iff.mpr hrunning)
      · cases hs
  | timers a =>
      simp only [fireStep] at hs
      split at hs
      · cases hs
      · obtain ⟨t', ht, rfl⟩ := Option.map_eq_some_iff.mp hs
        have hgoes : f.timers.returns a = false →
            (f.running && !f.timers.returns a) = f.running := fun hreturns => by
          rw [hreturns, Bool.not_false, Bool.and_true]
        have hstill : (∀ entry, f.timers.worker ≠ .callback entry) →
            (f.running && !f.timers.returns a) = false := fun hno => by
          rw [h.still hno, Bool.false_and]
        cases entryMove_of_step ht with
        | quiet heap worker now returns => exact h.quiet ht rfl (hgoes returns) heap worker now
        | push entry call free heap worker now returns =>
            exact h.push ht rfl (hgoes returns) call free heap worker now
        | move heap now before after due =>
            refine h.move ht rfl (hstill fun entry hentry => ?_) heap now after due
            rw [hentry] at before
            cases before
        | pop entry worker mem front heap now after =>
            exact h.pop ht rfl (hstill (by simp [worker])) worker mem front heap now after
        | returned entry worker heap now after returns =>
            exact h.returned ht rfl (by simp [returns]) worker heap now after
        | again entry worker heap now after =>
            exact h.again ht rfl (hstill (by simp [worker])) worker heap now after
        | reinsert entry worker heap now after =>
            exact h.reinsert ht rfl (hstill (by simp [worker])) worker heap now after

end

/-! ## Whole runs -/

/-- What is promised of the order of the timers. -/
structure FiringOrder (ops : HeapOps TimerEntry.nextFire) (f : Firing) : Prop where
  /-- No callback was called before its time. -/
  punctual : ∀ x ∈ f.starts, x.entry.nextFire ≤ x.time
  /-- `PopTop` would take an entry with the earliest time. -/
  minimal : ∀ entry, (ops.pop f.timers.mHeap).getLast? = some entry →
    entry ∈ f.timers.mHeap ∧ ∀ e ∈ f.timers.mHeap, entry.nextFire ≤ e.nextFire
  /-- A handle has one entry in the heap at most. -/
  single : ∀ handle, f.timers.inHeap handle ≤ 1
  /-- Two calls of the callback of a handle are an interval apart at least. -/
  apart : f.starts.Pairwise fun x y => x.entry.handle = y.entry.handle →
    x.time + milliseconds x.entry.intervalMs ≤ y.time

/-- The timers fire in order in every run, whatever keeps the vector a heap. -/
theorem firing_order (ops : HeapOps TimerEntry.nextFire) (as : List FireAct) (f : Firing)
    (hrun : Machine.run (fireStep (vecStep ops)) {} as = some f) : FiringOrder ops f := by
  obtain ⟨as', g, hg, hmodels, hsame⟩ := exists_run_of_vecRun hrun
  have hspaced : Spaced g := Machine.run_invariant (fun _ _ _ h hs => h.step hs) spaced_init hg
  have hstarts : g.starts = f.starts := by rw [hsame]
  refine ⟨fun x hx => (hspaced.punctual x (hstarts ▸ hx)).1, fun entry hlast => ?_,
    fun handle => ?_, by rw [← hstarts]; exact hspaced.apart⟩
  · obtain ⟨hmin, hperm⟩ := ops.pop_eq hmodels.isHeap hlast
    exact ⟨hperm.symm.subset (List.mem_cons_self ..), hmin⟩
  · have hone := hspaced.entries.unique handle
    have hcount := hmodels.perm.countP_eq fun e : TimerEntry => e.handle == handle
    simp only [Timers.carriers, Timers.inHeap] at hone ⊢
    omega

/-- A timer that repeats every millisecond, and another one that is due between its first
call and its second. -/
def repeatTrace : List FireAct :=
  List.flatten
    [[.timers (.scheduleRepeat 1)], List.replicate 3 (.timers (.call 0)),
      [.timers (.tick 1200000), .timers (.scheduleOnce 0)], List.replicate 3 (.timers (.call 1)),
      List.replicate 7 (.timers (.worker {})), [.start],
      List.replicate 11 (.timers (.worker { reschedule := true })),
      [.start, .timers (.worker {}), .timers (.tick 1000000)],
      List.replicate 7 (.timers (.worker {})), [.start]]

theorem firing_order_repeatTrace : ∃ f,
    Machine.run (fireStep (vecStep (sortedOps TimerEntry.nextFire))) {} repeatTrace = some f ∧
      f.starts.map Start.time = [1200000, 1200000, 2200000] ∧
      f.starts.map (fun x => x.entry.handle) = [1, 2, 1] ∧
      FiringOrder (sortedOps TimerEntry.nextFire) f := by
  have hview : (Machine.run (fireStep (vecStep (sortedOps TimerEntry.nextFire))) {}
      repeatTrace).map (fun f => (f.starts.map Start.time,
        f.starts.map fun x => x.entry.handle)) =
      some ([1200000, 1200000, 2200000], [1, 2, 1]) := by
    decide +kernel
  obtain ⟨f, hrun, hstarts⟩ := Option.map_eq_some_iff.mp hview
  exact ⟨f, hrun, congrArg Prod.fst hstarts, congrArg Prod.snd hstarts,
    firing_order (sortedOps TimerEntry.nextFire) repeatTrace f hrun⟩

end NetworkModule.TimerQueue
