import NetworkModule.Concurrency.TimerQueue
import NetworkModule.Lib.Tally
import Mathlib

/-!
# Cancelling timers

`Cancel` puts a handle into `mCancelledHandles` and notifies.  The worker looks into the
set when it pops an entry, and at no other time: an entry whose handle is there is dropped,
and the handle leaves the set.  Meanwhile the entry may be on its way into the heap, in the
heap, or in the hands of the worker, who runs its callback without the lock and may insert it
again.

The *carriers* of a handle are the places where its entry can be.  There is one at most,
and none any more once the entry is gone (`Entries`).  So a handle that is cancelled has
no entry left after it was taken out of the set, and its callback is not started again
(`starts_after_cancel`).

The set is meant to hold no handle whose entry is gone.  It does, when `Cancel` comes after
the entry has gone or before it is there, or while its last callback runs.
`inUse_iff_prompt` says that these are the only ways.
-/

namespace NetworkModule.TimerQueue

/-! ## Where an entry can be -/

/-- The call is on its way to insert an entry with this handle. -/
def CallPc.carries (handle : Nat) : CallPc → Bool
  | .readClock h _ _ => h == handle
  | .push entry => entry.handle == handle
  | _ => false

/-- The worker has an entry with this handle, from `PopTop` until it is dropped or inserted
again. -/
def WorkerPc.carries (handle : Nat) : WorkerPc → Bool
  | .callback entry | .repeatClock entry | .repeatPush entry => entry.handle == handle
  | _ => false

/-- The entries in the heap with this handle. -/
def Timers.inHeap (s : Timers) (handle : Nat) : Nat := s.mHeap.countP fun e => e.handle == handle

/-- The places where an entry with this handle is. -/
def Timers.carriers (s : Timers) (handle : Nat) : Nat :=
  s.calls.countP (CallPc.carries handle) + s.inHeap handle + (s.worker.carries handle).toNat

/-- Every handle is at one place at most, and at none before it is given out. -/
structure Entries (s : Timers) : Prop where
  unique : ∀ handle, s.carriers handle ≤ 1
  fresh : ∀ handle, s.mNextHandle ≤ handle → s.carriers handle = 0
  nodup : s.mCancelledHandles.Nodup

theorem entries_init : Entries {} where
  unique := fun _ => Nat.zero_le 1
  fresh := fun _ _ => rfl
  nodup := List.nodup_nil

/-- What a step does to the entries and to the set. -/
structure Effect (s s' : Timers) : Prop where
  next : s.mNextHandle ≤ s'.mNextHandle
  /-- An entry moves, or goes, or a handle is given out. -/
  carriers : ∀ handle, s'.carriers handle ≤ s.carriers handle ∨
    (handle = s.mNextHandle ∧ s.mNextHandle < s'.mNextHandle ∧
      s'.carriers handle ≤ s.carriers handle + 1)
  /-- A handle stays in the set, or its entry goes. -/
  cancelled : ∀ handle ∈ s.mCancelledHandles,
    handle ∈ s'.mCancelledHandles ∨ s'.carriers handle + 1 ≤ s.carriers handle
  nodup : s.mCancelledHandles.Nodup → s'.mCancelledHandles.Nodup

section
variable {s s' : Timers} {handle : Nat}

/-- Nothing that has to do with entries. -/
theorem Effect.of_eq (hnext : s'.mNextHandle = s.mNextHandle)
    (hset : s'.mCancelledHandles = s.mCancelledHandles)
    (hcarriers : ∀ handle, s'.carriers handle ≤ s.carriers handle) : Effect s s' where
  next := hnext.ge
  carriers := fun handle => Or.inl (hcarriers handle)
  cancelled := fun handle h => Or.inl (by rw [hset]; exact h)
  nodup := fun h => by rw [hset]; exact h

@[simp] theorem calls_notify (s : Timers) : s.notify.calls = s.calls := by
  unfold Timers.notify
  split <;> rfl

@[simp] theorem worker_notify (s : Timers) : s.notify.worker = s.worker := by
  unfold Timers.notify
  split <;> rfl

@[simp] theorem mHeap_notify (s : Timers) : s.notify.mHeap = s.mHeap := by
  unfold Timers.notify
  split <;> rfl

@[simp] theorem mNextHandle_notify (s : Timers) : s.notify.mNextHandle = s.mNextHandle := by
  unfold Timers.notify
  split <;> rfl

@[simp] theorem mCancelledHandles_notify (s : Timers) :
    s.notify.mCancelledHandles = s.mCancelledHandles := by
  unfold Timers.notify
  split <;> rfl

/-- A step of a call. -/
theorem effect_of_callStep {i : Nat} {pc : CallPc} (hi : s.calls[i]? = some pc)
    (hs : callStep s i pc = some s') : Effect s s' := by
  have hcount : ∀ pc' handle, (s.calls.set i pc').countP (CallPc.carries handle) +
      (pc.carries handle).toNat = s.calls.countP (CallPc.carries handle) +
        (pc'.carries handle).toNat :=
    fun pc' handle => Tally.countP_set (CallPc.carries handle) pc' hi
  cases pc with
  | takeHandle delayMs intervalMs =>
      cases hs
      refine ⟨Nat.le_succ _, fun handle => ?_, fun _ h => Or.inl h, id⟩
      have hc := hcount (.readClock s.mNextHandle delayMs intervalMs) handle
      by_cases hhandle : s.mNextHandle = handle
      · subst hhandle
        refine Or.inr ⟨rfl, Nat.lt_succ_self _, ?_⟩
        simp only [CallPc.carries, beq_self_eq_true, Bool.toNat_true, Bool.toNat_false] at hc
        simp only [Timers.carriers, Timers.inHeap]
        omega
      · left
        simp only [CallPc.carries, beq_false_of_ne hhandle, Bool.toNat_false] at hc
        simp only [Timers.carriers, Timers.inHeap]
        omega
  | readClock h delayMs intervalMs =>
      cases hs
      refine .of_eq rfl rfl fun handle => ?_
      have hc := hcount (.push ⟨h, s.now + milliseconds delayMs, intervalMs⟩) handle
      simp only [CallPc.carries] at hc
      simp only [Timers.carriers, Timers.inHeap]
      omega
  | push entry =>
      simp only [callStep] at hs
      split at hs
      · cases hs
      · cases hs
        refine .of_eq rfl rfl fun handle => ?_
        have hc := hcount .notify handle
        simp only [CallPc.carries, Bool.toNat_false] at hc
        simp only [Timers.carriers, Timers.inHeap, Tally.countP_cons_toNat]
        omega
  | cancel h =>
      simp only [callStep] at hs
      split at hs
      · cases hs
      · cases hs
        refine ⟨Nat.le_refl _, fun handle => Or.inl ?_, fun handle hmem => Or.inl ?_, fun hn => ?_⟩
        · have hc := hcount .notify handle
          simp only [CallPc.carries, Bool.toNat_false] at hc
          simp only [Timers.carriers, Timers.inHeap]
          omega
        · dsimp only
          split
          · exact hmem
          · exact List.mem_cons_of_mem h hmem
        · dsimp only
          split
          · exact hn
          next hno => exact List.nodup_cons.mpr ⟨hno, hn⟩
  | notify =>
      cases hs
      refine .of_eq (by simp) (by simp) fun handle => ?_
      have hc := hcount .returned handle
      simp only [CallPc.carries, Bool.toNat_false] at hc
      simp only [Timers.carriers, Timers.inHeap, worker_notify, mHeap_notify]
      omega
  | returned => cases hs

/-- An entry leaves the heap. -/
theorem inHeap_erase {e : TimerEntry} (he : e ∈ s.mHeap) (handle : Nat) :
    (s.mHeap.erase e).countP (fun e => e.handle == handle) + (e.handle == handle).toNat =
      s.inHeap handle := by
  have hperm := List.perm_cons_erase he
  rw [Timers.inHeap, hperm.countP_eq, Tally.countP_cons_toNat]

/-- A step of the worker. -/
theorem effect_of_workerStep {choice : Choice} (hs : workerStep s choice = some s') :
    Effect s s' := by
  cases hpc : s.worker with
  | lock | waiting =>
      simp only [workerStep, hpc, Option.some.injEq] at hs
      subst hs
      refine .of_eq rfl rfl fun handle => ?_
      simp [Timers.carriers, Timers.inHeap, hpc, WorkerPc.carries]
  | waitRunning | runningTest | emptyTest | timedRunning =>
      simp only [workerStep, hpc, Option.some.injEq] at hs
      subst hs
      refine .of_eq rfl rfl fun handle => ?_
      simp only [Timers.carriers, Timers.inHeap, hpc]
      split <;> exact Nat.le_refl _
  | waitHeap =>
      simp only [workerStep, hpc, Option.some.injEq] at hs
      subst hs
      split <;> exact .of_eq rfl rfl fun handle => by simp [Timers.carriers, Timers.inHeap, hpc,
        WorkerPc.carries]
  | readClock =>
      simp only [workerStep, hpc] at hs
      split at hs
      · cases hs
      · cases hs
        refine .of_eq rfl rfl fun handle => ?_
        simp only [Timers.carriers, Timers.inHeap, hpc]
        split <;> exact Nat.le_refl _
  | timedHeap deadline =>
      simp only [workerStep, hpc] at hs
      split at hs
      · cases hs
        exact .of_eq rfl rfl fun handle => by simp [Timers.carriers, Timers.inHeap, hpc,
          WorkerPc.carries]
      · cases hs
        split <;> exact .of_eq rfl rfl fun handle => by simp [Timers.carriers, Timers.inHeap, hpc,
          WorkerPc.carries]
  | timedWaiting deadline =>
      simp only [workerStep, hpc] at hs
      split at hs
      · split at hs
        · cases hs
          exact .of_eq rfl rfl fun handle => by simp [Timers.carriers, Timers.inHeap, hpc,
            WorkerPc.carries]
        · cases hs
      · cases hs
        exact .of_eq rfl rfl fun handle => by simp [Timers.carriers, Timers.inHeap, hpc,
          WorkerPc.carries]
  | popTop =>
      simp only [workerStep, hpc] at hs
      split at hs
      next hpop =>
        cases hs
        have herase := inHeap_erase (s := s) hpop.1
        refine ⟨Nat.le_refl _, fun handle => Or.inl ?_, fun handle hmem => ?_,
          fun hn => hn.erase _⟩
        · have he := herase handle
          simp only [Timers.carriers, hpc]
          split
          · simp only [WorkerPc.carries, Bool.toNat_false, Timers.inHeap] at he ⊢
            omega
          · simp only [WorkerPc.carries, Bool.toNat_false, Timers.inHeap] at he ⊢
            omega
        · by_cases hhandle : handle = choice.entry.handle
          · subst hhandle
            right
            have he := herase choice.entry.handle
            simp only [Timers.carriers, hpc, if_pos hmem]
            simp only [beq_self_eq_true, Bool.toNat_true, Timers.inHeap] at he
            simp only [WorkerPc.carries, Bool.toNat_false, Timers.inHeap]
            omega
          · exact Or.inl ((List.mem_erase_of_ne hhandle).mpr hmem)
      · cases hs
  | callback entry =>
      simp only [workerStep, hpc, Option.some.injEq] at hs
      subst hs
      refine .of_eq rfl rfl fun handle => ?_
      simp only [Timers.carriers, Timers.inHeap, hpc]
      split
      · exact Nat.le_refl _
      · simp only [WorkerPc.carries, Bool.toNat_false]
        omega
  | repeatClock entry =>
      simp only [workerStep, hpc, Option.some.injEq] at hs
      subst hs
      exact .of_eq rfl rfl fun handle => by simp [Timers.carriers, Timers.inHeap, hpc,
        WorkerPc.carries]
  | repeatPush entry =>
      simp only [workerStep, hpc, Option.some.injEq] at hs
      subst hs
      refine .of_eq rfl rfl fun handle => ?_
      simp only [Timers.carriers, Timers.inHeap, hpc, Tally.countP_cons_toNat, WorkerPc.carries,
        Bool.toNat_false]
      omega
  | repeatNotify =>
      simp only [workerStep, hpc, Option.some.injEq] at hs
      subst hs
      exact .of_eq rfl rfl fun handle => by simp [Timers.carriers, Timers.inHeap, hpc,
        WorkerPc.carries]
  | exited => simp [workerStep, hpc] at hs

/-- A call begins. -/
theorem effect_of_begin {pc : CallPc} (hpc : ∀ handle, pc.carries handle = false) :
    Effect s (s.begin pc) := by
  refine .of_eq rfl rfl fun handle => ?_
  simp only [Timers.carriers, Timers.inHeap, Timers.begin, Tally.countP_concat, hpc handle]
  exact Nat.le_refl _

theorem effect_of_step {a : Act} (hs : step s a = some s') : Effect s s' := by
  have hsame : Effect s s := .of_eq rfl rfl fun _ => Nat.le_refl _
  cases a with
  | scheduleOnce delayMs =>
      cases hs
      exact effect_of_begin fun _ => rfl
  | scheduleRepeat intervalMs =>
      cases hs
      exact effect_of_begin fun _ => rfl
  | cancel handle =>
      simp only [step] at hs
      split at hs <;> cases hs
      · exact hsame
      · exact effect_of_begin fun _ => rfl
  | stop =>
      simp only [step] at hs
      split at hs <;> cases hs
      · refine .of_eq rfl rfl fun handle => ?_
        simp only [Timers.carriers, Timers.inHeap, Timers.begin, Tally.countP_concat]
        exact Nat.le_refl _
      · exact hsame
  | call i =>
      have hne : s.calls.getD i .returned ≠ .returned := fun he => by
        simp only [step, he] at hs
        cases hs
      exact effect_of_callStep (Machine.getElem?_of_getD rfl hne) hs
  | worker choice => exact effect_of_workerStep hs
  | tick ns =>
      cases hs
      exact .of_eq rfl rfl fun _ => Nat.le_refl _

theorem Entries.step {a : Act} (hE : Entries s) (hs : TimerQueue.step s a = some s') :
    Entries s' := by
  have heffect := effect_of_step hs
  refine ⟨fun handle => ?_, fun handle hle => ?_, heffect.nodup hE.nodup⟩
  · have hone := hE.unique handle
    rcases heffect.carriers handle with h | ⟨rfl, -, h⟩
    · omega
    · have hzero := hE.fresh s.mNextHandle (Nat.le_refl _)
      omega
  · have hnext := heffect.next
    have hzero := hE.fresh handle (hnext.trans hle)
    rcases heffect.carriers handle with h | ⟨rfl, hlt, h⟩
    · omega
    · omega

end

/-! ## The set of cancelled handles -/

/-- An entry with this handle is in the heap or in the hands of the worker. -/
def Timers.live (s : Timers) (handle : Nat) : Bool :=
  (s.mHeap.any fun e => e.handle == handle) || s.worker.carries handle

/-- The set holds the handles of such entries only. -/
def InUse (s : Timers) : Prop := ∀ handle ∈ s.mCancelledHandles, s.live handle = true

/-- The handle that a call is about to put into the set. -/
def CallPc.cancels : CallPc → Option Nat
  | .cancel handle => some handle
  | _ => none

/-- The handle whose last callback ends with this step. -/
def WorkerPc.ends (choice : Choice) : WorkerPc → Option Nat
  | .callback entry =>
      if choice.reschedule = true ∧ 0 < entry.intervalMs then none else some entry.handle
  | _ => none

/-- `Cancel` finds an entry with its handle in the heap or in the hands of the worker, and it
does not come while the last callback of its entry runs. -/
def Prompt (s : Timers) : Act → Prop
  | .call i => ∀ handle ∈ s.calls[i]?.bind CallPc.cancels, s.live handle = true
  | .worker choice => ∀ handle ∈ s.worker.ends choice, handle ∉ s.mCancelledHandles
  | .scheduleOnce _ | .scheduleRepeat _ | .cancel _ | .stop | .tick _ => True

instance (s : Timers) : (a : Act) → Decidable (Prompt s a)
  | .call _ => inferInstanceAs (Decidable (∀ handle ∈ _, _))
  | .worker _ => inferInstanceAs (Decidable (∀ handle ∈ _, _))
  | .scheduleOnce _ | .scheduleRepeat _ | .cancel _ | .stop | .tick _ => isTrue trivial

section
variable {s s' : Timers} {handle : Nat}

theorem live_iff : s.live handle = true ↔
    (∃ e ∈ s.mHeap, e.handle = handle) ∨ s.worker.carries handle = true := by
  simp [Timers.live]

/-- No handle enters the set, and every handle that was in use is. -/
theorem InUse.frame (h : InUse s) (hset : ∀ handle ∈ s'.mCancelledHandles,
    handle ∈ s.mCancelledHandles) (hlive : ∀ handle, s.live handle = true → s'.live handle = true) :
    InUse s' :=
  fun handle hmem => hlive handle (h handle (hset handle hmem))

/-- The worker has no entry, and goes on without one. -/
theorem InUse.move (h : InUse s) (hset : s'.mCancelledHandles = s.mCancelledHandles)
    (hheap : s'.mHeap = s.mHeap) (hworker : ∀ handle, s.worker.carries handle = false) :
    InUse s' := by
  refine h.frame (fun _ hmem => hset ▸ hmem) fun handle hlive => ?_
  rcases live_iff.mp hlive with hin | hcarries
  · exact live_iff.mpr (Or.inl (by rw [hheap]; exact hin))
  · rw [hworker handle] at hcarries
    cases hcarries

theorem InUse.callStep {i : Nat} {pc : CallPc} (h : InUse s) (hi : s.calls[i]? = some pc)
    (hok : Prompt s (.call i)) (hs : TimerQueue.callStep s i pc = some s') : InUse s' := by
  cases pc with
  | takeHandle delayMs intervalMs | readClock handle delayMs intervalMs =>
      cases hs
      exact h
  | push entry =>
      simp only [TimerQueue.callStep] at hs
      split at hs
      · cases hs
      · cases hs
        refine h.frame (fun _ hmem => hmem) fun handle hlive => live_iff.mpr ?_
        refine (live_iff.mp hlive).imp_left fun hin => ?_
        obtain ⟨e, he, hhandle⟩ := hin
        exact ⟨e, List.mem_cons_of_mem entry he, hhandle⟩
  | cancel handle =>
      have hlive : s.live handle = true := hok handle (by rw [hi]; rfl)
      simp only [TimerQueue.callStep] at hs
      split at hs
      · cases hs
      · cases hs
        intro handle' hmem
        dsimp only at hmem
        split at hmem
        · exact h handle' hmem
        · rcases List.mem_cons.mp hmem with rfl | hmem
          · exact hlive
          · exact h handle' hmem
  | notify =>
      cases hs
      refine h.frame (fun _ hmem => by simpa using hmem) fun handle hlive => ?_
      simpa [Timers.live] using hlive
  | returned => cases hs

theorem InUse.workerStep {choice : Choice} (h : InUse s) (hE : Entries s)
    (hok : Prompt s (.worker choice)) (hs : TimerQueue.workerStep s choice = some s') :
    InUse s' := by
  cases hpc : s.worker with
  | lock | waiting | waitRunning | runningTest | emptyTest | timedRunning | repeatNotify =>
      simp only [TimerQueue.workerStep, hpc, Option.some.injEq] at hs
      subst hs
      exact h.move rfl rfl fun _ => by rw [hpc]; rfl
  | waitHeap =>
      simp only [TimerQueue.workerStep, hpc, Option.some.injEq] at hs
      subst hs
      split <;> exact h.move rfl rfl fun _ => by rw [hpc]; rfl
  | readClock =>
      simp only [TimerQueue.workerStep, hpc] at hs
      split at hs
      · cases hs
      · cases hs
        exact h.move rfl rfl fun _ => by rw [hpc]; rfl
  | timedHeap deadline =>
      simp only [TimerQueue.workerStep, hpc] at hs
      split at hs
      · cases hs
        exact h.move rfl rfl fun _ => by rw [hpc]; rfl
      · cases hs
        split <;> exact h.move rfl rfl fun _ => by rw [hpc]; rfl
  | timedWaiting deadline =>
      simp only [TimerQueue.workerStep, hpc] at hs
      split at hs
      · split at hs
        · cases hs
          exact h.move rfl rfl fun _ => by rw [hpc]; rfl
        · cases hs
      · cases hs
        exact h.move rfl rfl fun _ => by rw [hpc]; rfl
  | popTop =>
      simp only [TimerQueue.workerStep, hpc] at hs
      split at hs
      · cases hs
        -- The handle of the popped entry leaves the set, and the other entries stay.
        intro handle hmem
        obtain ⟨hne, hmem⟩ := hE.nodup.mem_erase_iff.mp hmem
        rcases live_iff.mp (h handle hmem) with ⟨e, he, rfl⟩ | hcarries
        · have hother : e ≠ choice.entry := fun heq => hne (by rw [heq])
          exact live_iff.mpr (Or.inl ⟨e, (List.mem_erase_of_ne hother).mpr he, rfl⟩)
        · rw [hpc] at hcarries
          cases hcarries
      · cases hs
  | callback entry =>
      simp only [TimerQueue.workerStep, hpc, Option.some.injEq] at hs
      subst hs
      intro handle hmem
      have hmem : handle ∈ s.mCancelledHandles := hmem
      rw [live_iff]
      rcases live_iff.mp (h handle hmem) with hin | hcarries
      · exact Or.inl hin
      · rw [hpc] at hcarries
        by_cases hrepeat : choice.reschedule = true ∧ 0 < entry.intervalMs
        · simp only [if_pos hrepeat]
          exact Or.inr hcarries
        · have hends : entry.handle ∈ s.worker.ends choice := by
            simp [hpc, WorkerPc.ends, hrepeat]
          have heq : entry.handle = handle := beq_iff_eq.mp hcarries
          exact absurd (heq ▸ hmem) (hok entry.handle hends)
  | repeatClock entry =>
      simp only [TimerQueue.workerStep, hpc, Option.some.injEq] at hs
      subst hs
      exact h.frame (fun _ hmem => hmem) fun handle hlive => by simpa [Timers.live, hpc,
        WorkerPc.carries] using hlive
  | repeatPush entry =>
      simp only [TimerQueue.workerStep, hpc, Option.some.injEq] at hs
      subst hs
      refine h.frame (fun _ hmem => hmem) fun handle hlive => live_iff.mpr (Or.inl ?_)
      rcases live_iff.mp hlive with ⟨e, he, hhandle⟩ | hcarries
      · exact ⟨e, List.mem_cons_of_mem entry he, hhandle⟩
      · rw [hpc] at hcarries
        exact ⟨entry, List.mem_cons_self .., beq_iff_eq.mp hcarries⟩
  | exited => simp [TimerQueue.workerStep, hpc] at hs

/-- A prompt step keeps the set in use. -/
theorem InUse.step {a : Act} (h : InUse s) (hE : Entries s) (hok : Prompt s a)
    (hs : TimerQueue.step s a = some s') : InUse s' := by
  cases a with
  | scheduleOnce delayMs | scheduleRepeat intervalMs | tick ns =>
      cases hs
      exact h
  | cancel handle =>
      simp only [TimerQueue.step] at hs
      split at hs <;> cases hs <;> exact h
  | stop =>
      simp only [TimerQueue.step] at hs
      split at hs <;> cases hs <;> exact h
  | call i =>
      have hne : s.calls.getD i .returned ≠ .returned := fun he => by
        simp only [TimerQueue.step, he] at hs
        cases hs
      exact h.callStep (Machine.getElem?_of_getD rfl hne) hok hs
  | worker choice => exact h.workerStep hE hok hs

/-- A step that is not prompt leaves a handle in the set without an entry. -/
theorem not_inUse_of_not_prompt {a : Act} (hE : Entries s) (hbad : ¬ Prompt s a)
    (hs : TimerQueue.step s a = some s') : ¬ InUse s' := by
  cases a with
  | scheduleOnce | scheduleRepeat | cancel | stop | tick => exact absurd trivial hbad
  | call i =>
      simp only [Prompt, not_forall] at hbad
      obtain ⟨handle, hcancels, hlive⟩ := hbad
      obtain ⟨pc, hi, hpc⟩ := Option.bind_eq_some_iff.mp hcancels
      cases pc with
      | cancel h =>
          cases hpc
          simp only [TimerQueue.step, List.getD_eq_getElem?_getD, hi, Option.getD_some,
            TimerQueue.callStep] at hs
          split at hs
          · cases hs
          · cases hs
            intro hP
            refine hlive (hP _ ?_)
            dsimp only
            split
            next hmem => exact hmem
            · exact List.mem_cons_self ..
      | takeHandle | readClock | push | notify | returned => cases hpc
  | worker choice =>
      simp only [Prompt, not_forall, not_not] at hbad
      obtain ⟨handle, hends, hmem⟩ := hbad
      cases hpc : s.worker with
      | callback entry =>
          simp only [hpc, WorkerPc.ends, Option.mem_def] at hends
          split at hends
          · cases hends
          next hlast =>
            obtain rfl := Option.some.inj hends
            simp only [TimerQueue.step, TimerQueue.workerStep, hpc, if_neg hlast,
              Option.some.injEq] at hs
            subst hs
            intro hP
            -- The worker has the only entry with this handle, and gives it up.
            have hone := hE.unique entry.handle
            simp only [Timers.carriers, hpc, WorkerPc.carries, beq_self_eq_true,
              Bool.toNat_true] at hone
            rcases live_iff.mp (hP entry.handle hmem) with ⟨e, he, hhandle⟩ | hcarries
            · have hpos : 0 < s.inHeap entry.handle :=
                List.countP_pos_iff.mpr ⟨e, he, beq_iff_eq.mpr hhandle⟩
              omega
            · cases hcarries
      | _ =>
          rw [hpc] at hends
          cases hends

/-- A set in use is not longer than the heap, the entry of the worker apart. -/
theorem InUse.length_le (h : InUse s) (hE : Entries s) :
    s.mCancelledHandles.length ≤ s.mHeap.length + 1 := by
  have hsub : ∀ w : List Nat, (∀ handle, s.worker.carries handle = true → handle ∈ w) →
      s.mCancelledHandles.length ≤ s.mHeap.length + w.length := by
    intro w hw
    have hsubset : s.mCancelledHandles ⊆ s.mHeap.map TimerEntry.handle ++ w := by
      intro handle hmem
      rcases live_iff.mp (h handle hmem) with ⟨e, he, hhandle⟩ | hcarries
      · exact List.mem_append_left _ (List.mem_map.mpr ⟨e, he, hhandle⟩)
      · exact List.mem_append_right _ (hw handle hcarries)
    simpa using (List.subperm_of_subset hE.nodup hsubset).length_le
  cases hpc : s.worker with
  | callback entry | repeatClock entry | repeatPush entry =>
      refine hsub [entry.handle] fun handle hcarries => ?_
      rw [hpc] at hcarries
      exact List.mem_singleton.mpr (beq_iff_eq.mp hcarries).symm
  | _ =>
      refine (hsub [] fun handle hcarries => ?_).trans (Nat.le_succ _)
      rw [hpc] at hcarries
      cases hcarries

end

/-- The set holds handles of entries that are there, throughout a run, exactly when every step
of the run is prompt. -/
theorem inUse_iff_prompt (as : List Act) (s : Timers) (hrun : Machine.run step {} as = some s) :
    Machine.Always step InUse {} as ↔ Machine.Meets step Prompt {} as :=
  Machine.always_iff_meets (I := Entries) (fun _ _ _ hE hs => hE.step hs)
    (fun _ _ _ hE hP hok hs => hP.step hE hok hs)
    (fun _ _ _ hE hbad hs => not_inUse_of_not_prompt hE hbad hs) entries_init
    (fun _ hmem => absurd hmem List.not_mem_nil) hrun

/-- A timer is cancelled while it is in the heap, and popped. -/
def cancelTrace : List Act :=
  .scheduleOnce 0 :: .call 0 :: .call 0 :: .call 0 :: .call 0 :: .cancel 1 :: .call 1 ::
    .call 1 :: List.replicate 7 (.worker { entry := ⟨1, 0, 0⟩ })

theorem inUse_cancelTrace : ∃ s, Machine.run step {} cancelTrace = some s ∧
    s.mHeap = [] ∧ s.mCancelledHandles = [] ∧ Machine.Always step InUse {} cancelTrace :=
  ⟨_, rfl, rfl, rfl, (inUse_iff_prompt cancelTrace _ rfl).mpr (by decide)⟩

/-- A timer fires, and is cancelled afterwards. -/
def cancelAfterwardsTrace : List Act :=
  List.flatten [.scheduleOnce 0 :: List.replicate 4 (.call 0),
    List.replicate 8 (.worker { entry := ⟨1, 0, 0⟩ }), [.cancel 1, .call 1, .call 1]]

theorem cancelled_handle_stays : ∃ s, Machine.run step {} cancelAfterwardsTrace = some s ∧
    s.mHeap = [] ∧ s.worker = .lock ∧ s.mCancelledHandles = [1] ∧ ¬ InUse s :=
  ⟨_, rfl, rfl, rfl, rfl, fun h => absurd (h 1 (by decide)) (by decide)⟩

end NetworkModule.TimerQueue
