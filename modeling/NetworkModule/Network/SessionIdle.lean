import NetworkModule.Network.SessionRegistry

/-!
# Slots in use while nothing runs

When no thread holds a reference and the workers have nothing to run, only two things can
hold one: the map of the manager, and the closure that a worker ran last.  The loop of a
worker declares `task` outside, and `Pop` assigns to it, so the closure stays there until the
worker pops another one or exits, and with it the `SessionRef` that it has captured.

The comments promise that the reference goes with the task: `CloseConnection` keeps the
object "alive until the task runs".  So the slots in use are those of the registered sessions
exactly when the last closure of every worker belongs to a registered session
(`inUse_iff_registered_run`).
-/

namespace NetworkModule.SessionLifetime

open References (Ref held_of_mem)

/-- The session in the slot is registered. -/
def Engine.registered (s : Engine) (k : Nat) : Prop := ∃ id, (id, k) ∈ s.mSessions

/-- Nothing runs: the queues are empty, no worker is in a closure, no thread has a reference,
and none is in `ReleaseInternal`. -/
structure Idle (s : Engine) : Prop where
  mQueue : ∀ i, (s.workers i).mQueue = []
  pc : ∀ i, (s.workers i).pc ≠ .run
  thread : ∀ t k, ¬ s.holds t k
  release : ∀ k, (s.slots k).release = none

section
variable {workerCount : Nat} {s : Engine}

/-- A closure that exists while nothing runs is the last one of its worker. -/
theorem LifeInv.task_of_alive (h : LifeInv s) (hidle : Idle s) {n : Nat}
    (halive : (s.closures n).stage.alive = true) :
    (s.workers (s.closures n).worker).task = some n := by
  have hsubmit : (s.closures n).stage.inSubmit = false := by
    by_contra hno
    have hin : (s.closures n).stage.inSubmit = true := by simpa using hno
    exact hidle.thread _ _ (h.closures.submit _ n (h.closures.owner n hin)).1
  have hqueued : (s.closures n).stage ≠ .queued := fun hq => by
    have hmem := h.closures.queued n hq
    rw [hidle.mQueue] at hmem
    cases hmem
  cases hstage : (s.closures n).stage with
  | done b => exact h.closures.done n b hstage
  | popped => exact h.closures.running n (by rw [hstage]; rfl)
  | body => exact h.closures.running n (by rw [hstage]; rfl)
  | endTask => exact h.closures.running n (by rw [hstage]; rfl)
  | queued => exact absurd hstage hqueued
  | _ => simp [hstage, Stage.alive, Stage.inSubmit] at halive hsubmit

/-- What a worker has in its variable while nothing runs keeps its session. -/
theorem LifeInv.inUse_of_task (h : LifeInv s) {i n : Nat} (htask : (s.workers i).task = some n) :
    (s.slots (s.closures n).slot).inUse = true := by
  have halive : (s.closures n).stage.alive = true := by
    rcases (h.closures.task i n htask).2 with ⟨-, hrunning⟩ | ⟨-, b, hdone⟩
    · revert hrunning
      cases (s.closures n).stage <;> simp [Stage.running, Stage.alive]
    · rw [hdone]
      rfl
  have hr := (h.closures.ref n _).mpr ⟨halive, rfl⟩
  exact (h.slots.used _ (held_of_mem hr)).1

/-- A slot is in use while nothing runs for one of two reasons. -/
theorem LifeInv.inUse_iff (h : LifeInv s) (hidle : Idle s) (k : Nat) :
    (s.slots k).inUse = true ↔
      s.registered k ∨ ∃ i n, (s.workers i).task = some n ∧ (s.closures n).slot = k := by
  constructor
  · intro hu
    obtain ⟨⟨holder, k'⟩, hr, rfl⟩ := h.slots.held k hu (hidle.release k)
    cases holder with
    | map id => exact .inl ⟨id, mem_mSessions.mpr hr⟩
    | thread t => exact absurd hr (hidle.thread t k')
    | closure n =>
        obtain ⟨halive, hslot⟩ := (h.closures.ref n k').mp hr
        exact .inr ⟨_, n, h.task_of_alive hidle halive, hslot⟩
  · rintro (⟨id, hid⟩ | ⟨i, n, htask, rfl⟩)
    · exact (h.slots.used k (held_of_mem (mem_mSessions.mp hid))).1
    · exact h.inUse_of_task htask

/-- In every state of every run in which nothing runs, the slots in use are those of the
registered sessions exactly when no worker has the closure of another session in its
variable. -/
theorem inUse_iff_registered_run {capacity : Nat} {as : List Act}
    (hrun : Machine.run (SessionLifetime.step workerCount) (.init capacity) as = some s)
    (hidle : Idle s) :
    (∀ k, (s.slots k).inUse = true ↔ s.registered k) ↔
      ∀ i n, (s.workers i).task = some n → s.registered (s.closures n).slot := by
  have h := lifeInv_run hrun
  constructor
  · exact fun hslots i n htask => (hslots _).mp (h.inUse_of_task htask)
  · intro htasks k
    rw [h.inUse_iff hidle k]
    constructor
    · rintro (hk | ⟨i, n, htask, rfl⟩)
      · exact hk
      · exact htasks i n htask
    · exact .inl

end

/-- `CloseConnection`: the closure that disconnects is submitted, and a worker runs it.  The
session is removed, and the reference of the caller goes. -/
def disconnectTrace : List Act :=
  List.flatten
    [createTrace 0, [.submit 0 0 0 true], List.replicate 4 (.thread 0 true),
      List.replicate 4 (.worker 1 false), [.remove 0 0], List.replicate 4 (.thread 0 false),
      [.drop 0 0]]

/-- Nothing runs, no session is registered, and the slot is in use. -/
theorem inUse_disconnectTrace :
    ∃ s, Machine.run (step 4) (.init 1) disconnectTrace = some s ∧ Idle s ∧
      ¬ ∀ k, (s.slots k).inUse = true ↔ s.registered k := by
  refine ⟨_, rfl, ⟨?_, ?_, ?_, ?_⟩, fun hslots => ?_⟩
  · rintro (_ | _ | i) <;> rfl
  · rintro (_ | _ | i) <;> exact (by decide : WorkerPc.pop ≠ .run)
  · intro t k hr
    have hmem : (⟨.thread t, k⟩ : Ref Holder Nat) ∈ [⟨.closure 0, 0⟩] := hr
    simp at hmem
  · rintro (_ | k) <;> rfl
  · obtain ⟨id, hid⟩ := (hslots 0).mp rfl
    have hmem : (id, 0) ∈ ([] : List (Nat × Nat)) := hid
    cases hmem

/-- The same, and the worker then exits. -/
def exitTrace : List Act :=
  List.flatten [disconnectTrace, [.shutdown, .worker 1 false], List.replicate 3 (.release 0)]

theorem inUse_iff_registered_exitTrace :
    ∃ s, Machine.run (step 4) (.init 1) exitTrace = some s ∧ Idle s ∧ s.mFreeList = [0] ∧
      ((∀ k, (s.slots k).inUse = true ↔ s.registered k) ↔
        ∀ i n, (s.workers i).task = some n → s.registered (s.closures n).slot) := by
  have hidle : Idle ((Machine.run (step 4) (.init 1) exitTrace).get rfl) := by
    refine ⟨?_, ?_, ?_, ?_⟩
    · rintro (_ | _ | i) <;> rfl
    · rintro (_ | _ | i)
      · exact (by decide : WorkerPc.pop ≠ .run)
      · exact (by decide : WorkerPc.exited ≠ .run)
      · exact (by decide : WorkerPc.pop ≠ .run)
    · intro t k hr
      have hmem : (⟨.thread t, k⟩ : Ref Holder Nat) ∈ [] := hr
      cases hmem
    · rintro (_ | k) <;> rfl
  exact ⟨_, rfl, hidle, rfl, @inUse_iff_registered_run 4 _ 1 exitTrace rfl hidle⟩

end NetworkModule.SessionLifetime
