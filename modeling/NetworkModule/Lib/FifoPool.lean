import NetworkModule.Lib.Machine
import Mathlib

/-!
# Pools of first-in first-out workers

The abstract view of a keyed executor.  A job has a lane (`lane : τ → ι`), and
each lane is served by one worker: it takes the oldest job of its queue, runs
it, and takes the next one only after that.  The pool remembers the order in
which jobs were accepted, taken and finished.

`Inv` says how these three histories relate on each lane: what was accepted is
what was taken followed by what waits, and what was taken is what was finished
followed by the job at work.  It holds after every run (`run_inv`), and the
laws a client of the pool relies on follow from it: jobs of one lane are taken
in the order they were accepted (`Inv.taken_isPrefix`), and two lanes never work
on jobs of one lane (`Inv.current_lane`).
-/

namespace FifoPool

variable {τ ι : Type*} [DecidableEq ι]

/-- The state of a pool. -/
structure Pool (τ ι : Type*) where
  /-- The jobs that wait on a lane, oldest first. -/
  queue : ι → List τ
  /-- The job the worker of a lane holds. -/
  current : ι → Option τ
  /-- The jobs accepted so far, in order. -/
  accepted : List τ
  /-- The jobs taken from a queue so far, in order. -/
  taken : List τ
  /-- The jobs finished so far, in order. -/
  finished : List τ

/-- What can happen to a pool. -/
inductive Act (τ ι : Type*) where
  /-- A job enters the queue of its lane. -/
  | accept (j : τ)
  /-- The worker of a lane takes its oldest job. -/
  | take (i : ι)
  /-- The worker of a lane is done with its job. -/
  | finish (i : ι)

/-- A pool that has seen no job. -/
def Pool.empty : Pool τ ι := ⟨fun _ => [], fun _ => none, [], [], []⟩

/-- One step of a pool whose jobs have the lanes `lane`. -/
def step (lane : τ → ι) (p : Pool τ ι) : Act τ ι → Option (Pool τ ι)
  | .accept j =>
      some { p with queue := Function.update p.queue (lane j) (p.queue (lane j) ++ [j])
                    accepted := p.accepted ++ [j] }
  | .take i =>
      match p.current i, p.queue i with
      | none, j :: rest =>
          some { p with queue := Function.update p.queue i rest
                        current := Function.update p.current i (some j)
                        taken := p.taken ++ [j] }
      | _, _ => none
  | .finish i =>
      match p.current i with
      | some j =>
          some { p with current := Function.update p.current i none
                        finished := p.finished ++ [j] }
      | none => none

/-- The jobs of one lane in a history. -/
def onLane (lane : τ → ι) (i : ι) (l : List τ) : List τ := l.filter fun j => lane j = i

@[simp] theorem onLane_nil (lane : τ → ι) (i : ι) : onLane lane i [] = [] := rfl

theorem onLane_append (lane : τ → ι) (i : ι) (l m : List τ) :
    onLane lane i (l ++ m) = onLane lane i l ++ onLane lane i m := by
  simp [onLane]

theorem onLane_singleton (lane : τ → ι) (i : ι) (j : τ) :
    onLane lane i [j] = if lane j = i then [j] else [] := by
  by_cases h : lane j = i <;> simp [onLane, h]

theorem mem_onLane {lane : τ → ι} {i : ι} {l : List τ} {j : τ} :
    j ∈ onLane lane i l ↔ j ∈ l ∧ lane j = i := by
  simp [onLane]

/-- How the histories of a pool relate, lane by lane. -/
structure Inv (lane : τ → ι) (p : Pool τ ι) : Prop where
  /-- What was accepted was taken or waits, in that order. -/
  accepted_eq : ∀ i, onLane lane i p.accepted = onLane lane i p.taken ++ p.queue i
  /-- What was taken is finished or at work, in that order. -/
  taken_eq : ∀ i, onLane lane i p.taken = onLane lane i p.finished ++ (p.current i).toList

theorem inv_empty (lane : τ → ι) : Inv lane (Pool.empty : Pool τ ι) :=
  ⟨fun _ => rfl, fun _ => rfl⟩

section
variable {lane : τ → ι} {p p' : Pool τ ι}

/-- Jobs that wait on a lane belong to it. -/
theorem Inv.queue_lane (h : Inv lane p) {i : ι} {j : τ} (hj : j ∈ p.queue i) : lane j = i := by
  have hm : j ∈ onLane lane i p.accepted := by
    rw [h.accepted_eq i]
    exact List.mem_append_right _ hj
  exact (mem_onLane.mp hm).2

/-- The job at work on a lane belongs to it. -/
theorem Inv.current_lane (h : Inv lane p) {i : ι} {j : τ} (hj : p.current i = some j) :
    lane j = i := by
  have hm : j ∈ onLane lane i p.taken := by
    rw [h.taken_eq i, hj]
    exact List.mem_append_right _ (List.mem_singleton.mpr rfl)
  exact (mem_onLane.mp hm).2

/-- Every step keeps the invariant. -/
theorem step_inv {a : Act τ ι} (h : Inv lane p) (hs : step lane p a = some p') : Inv lane p' := by
  cases a with
  | accept j =>
      cases hs
      refine ⟨fun i => ?_, h.taken_eq⟩
      simp only [onLane_append, onLane_singleton, h.accepted_eq i]
      by_cases hi : lane j = i
      · subst hi
        simp
      · simp [hi, Function.update_of_ne (Ne.symm hi)]
  | take i =>
      simp only [step] at hs
      split at hs
      next j rest hc hq =>
        cases hs
        have hj : lane j = i := h.queue_lane (by rw [hq]; exact List.mem_cons_self ..)
        refine ⟨fun k => ?_, fun k => ?_⟩
        · simp only [onLane_append, onLane_singleton, h.accepted_eq k]
          by_cases hk : i = k
          · subst hk
            simp [hj, hq]
          · simp [hj, hk, Function.update_of_ne (Ne.symm hk)]
        · simp only [onLane_append, onLane_singleton, h.taken_eq k]
          by_cases hk : i = k
          · subst hk
            simp [hj, hc]
          · simp [hj, hk, Function.update_of_ne (Ne.symm hk)]
      next => cases hs
  | finish i =>
      simp only [step] at hs
      split at hs
      next j hc =>
        cases hs
        have hj : lane j = i := h.current_lane hc
        refine ⟨h.accepted_eq, fun k => ?_⟩
        simp only [onLane_append, onLane_singleton, h.taken_eq k]
        by_cases hk : i = k
        · subst hk
          simp [hj, hc]
        · simp [hj, hk, Function.update_of_ne (Ne.symm hk)]
      next => cases hs

/-- Every run from a pool that satisfies the invariant keeps it. -/
theorem run_inv {as : List (Act τ ι)} (h : Inv lane p)
    (hr : Machine.run (step lane) p as = some p') : Inv lane p' :=
  Machine.run_invariant (fun _ _ _ h hs => step_inv h hs) h hr

/-- Jobs of one lane are taken in the order they were accepted. -/
theorem Inv.taken_isPrefix (h : Inv lane p) (i : ι) :
    onLane lane i p.taken <+: onLane lane i p.accepted := by
  rw [h.accepted_eq i]
  exact List.prefix_append _ _

/-- Jobs of one lane are finished in the order they were taken. -/
theorem Inv.finished_isPrefix (h : Inv lane p) (i : ι) :
    onLane lane i p.finished <+: onLane lane i p.taken := by
  rw [h.taken_eq i]
  exact List.prefix_append _ _

/-- A job that waits was accepted. -/
theorem Inv.mem_accepted (h : Inv lane p) {i : ι} {j : τ} (hj : j ∈ p.queue i) :
    j ∈ p.accepted := by
  have hm : j ∈ onLane lane i p.accepted := by
    rw [h.accepted_eq i]
    exact List.mem_append_right _ hj
  exact (mem_onLane.mp hm).1

/-- A job that was taken was accepted. -/
theorem Inv.mem_accepted_of_taken (h : Inv lane p) {j : τ} (hj : j ∈ p.taken) :
    j ∈ p.accepted := by
  have hm := (h.taken_isPrefix (lane j)).subset (mem_onLane.mpr ⟨hj, rfl⟩)
  exact (mem_onLane.mp hm).1

/-- The job at work was accepted. -/
theorem Inv.mem_accepted_of_current (h : Inv lane p) {i : ι} {j : τ}
    (hj : p.current i = some j) : j ∈ p.accepted := by
  have hm : j ∈ onLane lane i p.taken := by
    rw [h.taken_eq i, hj]
    exact List.mem_append_right _ (List.mem_singleton.mpr rfl)
  exact h.mem_accepted_of_taken (mem_onLane.mp hm).1

/-- A job that was finished was accepted. -/
theorem Inv.mem_accepted_of_finished (h : Inv lane p) {j : τ} (hj : j ∈ p.finished) :
    j ∈ p.accepted := by
  have hm := (h.finished_isPrefix (lane j)).subset (mem_onLane.mpr ⟨hj, rfl⟩)
  exact h.mem_accepted_of_taken (mem_onLane.mp hm).1

theorem count_onLane [DecidableEq τ] (lane : τ → ι) (j : τ) (l : List τ) :
    (onLane lane (lane j) l).count j = l.count j := by
  simp [onLane, List.count_filter]

/-- Of a job's acceptances, each is finished, at work or waiting. -/
theorem Inv.count_accepted [DecidableEq τ] (h : Inv lane p) (j : τ) :
    p.accepted.count j = p.finished.count j + (p.current (lane j)).toList.count j +
      (p.queue (lane j)).count j := by
  rw [← count_onLane lane j p.accepted, h.accepted_eq, h.taken_eq, List.count_append,
    List.count_append, count_onLane]

/-- On a lane at rest, a job is finished as often as it was accepted. -/
theorem Inv.count_eq [DecidableEq τ] (h : Inv lane p) {j : τ} (hq : p.queue (lane j) = [])
    (hc : p.current (lane j) = none) : p.finished.count j = p.accepted.count j := by
  simp [h.count_accepted j, hq, hc]

/-- A job that waits has been finished less often than accepted. -/
theorem Inv.count_lt [DecidableEq τ] (h : Inv lane p) {i : ι} {j : τ} (hj : j ∈ p.queue i) :
    p.finished.count j < p.accepted.count j := by
  have hlane := h.queue_lane hj
  subst hlane
  have hpos := List.count_pos_iff.mpr hj
  rw [h.count_accepted j]
  omega

end

end FifoPool
