import NetworkModule.Lib.Tally
import NetworkModule.Network.SessionRegistry

/-!
# Tasks and the reuse of sessions

`AsyncScope::Reset` aborts the process when `mInFlight` is not zero, and nothing waits for
the tasks before `ReleaseInternal` calls it.  What makes it safe is that every task that
`mInFlight` counts keeps a reference to its session: `Submit` is called by a thread that has
one, and the closure has one until it is destroyed, which is after it has called `EndTask`.

So when the last reference goes there is no task in flight, provided that no body throws and
that the dispatcher runs every closure it has accepted (`reuseSafe_run`).
-/

namespace NetworkModule.SessionLifetime

open References (Ref Held held_of_mem)
open Tally (tally)

/-! ## What mInFlight counts -/

/-- `BeginTask` has been called for the closure, and `EndTask` has not. -/
def Closure.counts (c : Closure) : Bool :=
  c.inScope &&
    match c.stage with
    | .cancelledTest | .dispatch | .push | .cancelled | .rejected | .queued | .popped | .body
    | .endTask => true
    | .none | .beginTask | .refused | .done _ | .destroyed => false

/-- Only `Submit` and its wrapped task get here. -/
def Stage.ofScope : Stage → Bool
  | .beginTask | .cancelledTest | .cancelled | .endTask => true
  | _ => false

/-- No body throws, and the dispatcher destroys no closure that it has not run. -/
def Act.runs : Act → Bool
  | .worker _ throws => !throws
  | .clear _ => false
  | _ => true

/-- What holds as long as no body throws and the dispatcher runs every closure. -/
structure FlightInv (s : Engine) : Prop where
  made_nodup : s.made.Nodup
  made : ∀ n, n ∈ s.made ↔ (s.closures n).stage ≠ .none
  ofScope : ∀ n, (s.closures n).stage.ofScope = true → (s.closures n).inScope = true
  balance : ∀ k, (s.slots k).mInFlight =
    tally (fun c : Closure => c.counts && decide (c.slot = k)) s.closures s.made
  alive : s.aborted = false

theorem flightInv_init (capacity : Nat) : FlightInv (.init capacity) where
  made_nodup := List.nodup_nil
  made := by simp [Engine.init]
  ofScope := by simp [Engine.init, Stage.ofScope]
  balance := by simp [Engine.init]
  alive := rfl

section
variable {workerCount : Nat} {s s' : Engine}

/-- No closure changes. -/
theorem FlightInv.frame (h : FlightInv s) (hclosures : s'.closures = s.closures)
    (hmade : s'.made = s.made) (hslots : ∀ k, (s'.slots k).mInFlight = (s.slots k).mInFlight)
    (halive : s'.aborted = s.aborted := by rfl) : FlightInv s' where
  made_nodup := by
    rw [hmade]
    exact h.made_nodup
  made := by
    rw [hmade, hclosures]
    exact h.made
  ofScope := by
    rw [hclosures]
    exact h.ofScope
  balance := by
    rw [hmade, hclosures]
    exact fun k => (hslots k).trans (h.balance k)
  alive := halive.trans h.alive

/-- A closure goes on, and its slot counts it or not. -/
theorem FlightInv.stage (h : FlightInv s) {n : Nat} {c : Closure}
    (hclosures : s'.closures = Function.update s.closures n c) (hmade : s'.made = s.made)
    (hsame : c.slot = (s.closures n).slot) (hold : (s.closures n).stage ≠ .none)
    (hnew : c.stage ≠ .none) (hscope : c.stage.ofScope = true → c.inScope = true)
    (hslot : (s'.slots c.slot).mInFlight + (s.closures n).counts.toNat =
      (s.slots c.slot).mInFlight + c.counts.toNat)
    (hother : ∀ k, k ≠ c.slot → (s'.slots k).mInFlight = (s.slots k).mInFlight)
    (halive : s'.aborted = s.aborted := by rfl) : FlightInv s' where
  made_nodup := by
    rw [hmade]
    exact h.made_nodup
  made := fun m => by
    rw [hmade, hclosures, h.made m]
    by_cases hm : m = n
    · subst hm
      simp [hold, hnew]
    · rw [Function.update_of_ne hm]
  ofScope := fun m hm => by
    rw [hclosures] at hm ⊢
    by_cases hmn : m = n
    · subst hmn
      rw [Function.update_self] at hm ⊢
      exact hscope hm
    · rw [Function.update_of_ne hmn] at hm ⊢
      exact h.ofScope m hm
  balance := fun k => by
    have hmem : n ∈ s.made := (h.made n).mpr hold
    have htally := Tally.tally_update (fun c : Closure => c.counts && decide (c.slot = k))
      s.closures c h.made_nodup hmem
    have hbalance := h.balance k
    rw [hmade, hclosures]
    rw [← hsame] at htally
    by_cases hk : k = c.slot
    · subst hk
      simp only [decide_true, Bool.and_true] at htally hbalance ⊢
      omega
    · have hne : c.slot ≠ k := Ne.symm hk
      rw [hother k hk]
      simp only [hne, decide_false, Bool.and_false, Bool.toNat_false] at htally
      omega
  alive := halive.trans h.alive

/-- A closure goes on, and its slot goes on counting it or not counting it. -/
theorem FlightInv.quiet (h : FlightInv s) {n : Nat} {c : Closure}
    (hclosures : s'.closures = Function.update s.closures n c) (hmade : s'.made = s.made)
    (hsame : c.slot = (s.closures n).slot) (hold : (s.closures n).stage ≠ .none)
    (hnew : c.stage ≠ .none) (hscope : c.stage.ofScope = true → c.inScope = true)
    (hcounts : c.counts = (s.closures n).counts)
    (hslots : ∀ k, (s'.slots k).mInFlight = (s.slots k).mInFlight)
    (halive : s'.aborted = s.aborted := by rfl) : FlightInv s' := by
  refine h.stage hclosures hmade hsame hold hnew hscope ?_ (fun k _ => hslots k) halive
  rw [hcounts, hslots]

/-- A counted closure keeps its session alive: it has a reference, or the thread that
submits it has. -/
theorem LifeInv.held_of_counts (h : LifeInv s) {n : Nat} (hcounts : (s.closures n).counts = true) :
    Held s.refs (s.closures n).slot := by
  cases halive : (s.closures n).stage.alive with
  | true =>
      have hr : ⟨.closure n, (s.closures n).slot⟩ ∈ s.refs := (h.closures.ref n _).mpr ⟨halive, rfl⟩
      exact held_of_mem hr
  | false =>
      have hsubmit : (s.closures n).stage.inSubmit = true := by
        cases hstage : (s.closures n).stage <;>
          simp_all [Closure.counts, Stage.alive, Stage.inSubmit]
      exact held_of_mem (h.closures.submit _ n (h.closures.owner n hsubmit)).1

/-- A slot that nobody holds counts nothing. -/
theorem FlightInv.mInFlight_eq_zero (h : FlightInv s) (hI : LifeInv s) {k : Nat}
    (hk : ¬ Held s.refs k) : (s.slots k).mInFlight = 0 := by
  rw [h.balance k]
  refine List.countP_eq_zero.mpr fun n _ hcounts => hk ?_
  simp only [Bool.and_eq_true, decide_eq_true_eq] at hcounts
  rw [← hcounts.2]
  exact hI.held_of_counts hcounts.1

/-- A closure goes on with a step that counts it or stops counting it. -/
theorem FlightInv.count (h : FlightInv s) {n : Nat} {c : Closure} {slot : Slot}
    (hclosures : s'.closures = Function.update s.closures n c) (hmade : s'.made = s.made)
    (hsame : c.slot = (s.closures n).slot) (hold : (s.closures n).stage ≠ .none)
    (hnew : c.stage ≠ .none) (hscope : c.stage.ofScope = true → c.inScope = true)
    (hslots : ∀ k, (s'.slots k).mInFlight =
      (Function.update s.slots (s.closures n).slot slot k).mInFlight)
    (hcount : slot.mInFlight + (s.closures n).counts.toNat =
      (s.slots (s.closures n).slot).mInFlight + c.counts.toNat)
    (halive : s'.aborted = s.aborted := by rfl) : FlightInv s' := by
  refine h.stage hclosures hmade hsame hold hnew hscope ?_ (fun k hk => ?_) halive
  · rw [hslots, hsame, Function.update_self]
    exact hcount
  · rw [hslots, Function.update_of_ne (hsame ▸ hk)]

/-- The session of a counted closure counts something. -/
theorem FlightInv.pos (h : FlightInv s) {n : Nat} (hcounts : (s.closures n).counts = true) :
    0 < (s.slots (s.closures n).slot).mInFlight := by
  have hmem : n ∈ s.made := (h.made n).mpr fun hstage => by simp [Closure.counts, hstage] at hcounts
  rw [h.balance]
  exact List.countP_pos_iff.mpr ⟨n, hmem, by simp [hcounts]⟩

/-- A closure that is destroyed goes on to the stage that it has then. -/
theorem destroy_setStage (s : Engine) (n : Nat) (stage : Stage) :
    ((s.destroy n).setStage n stage).closures =
      Function.update s.closures n { s.closures n with stage := stage } := by
  simp [Engine.destroy, Engine.setStage, Engine.dropAll, Engine.setRefs]

theorem destroy_mInFlight (s : Engine) (n k : Nat) :
    ((s.destroy n).slots k).mInFlight = (s.slots k).mInFlight := (setRefs_slots s _ k).2.2

/-- A step of `Submit`. -/
theorem FlightInv.submitStep {t n : Nat} {accepted : Bool} (h : FlightInv s)
    (hs : SessionLifetime.submitStep workerCount s t n accepted = some s') : FlightInv s' := by
  have hscope := h.ofScope n
  have hpos := h.pos (n := n)
  cases hstage : (s.closures n).stage with
  | beginTask =>
      simp only [SessionLifetime.submitStep, hstage, Option.some.injEq] at hs
      subst hs
      have hin := hscope (by rw [hstage]; rfl)
      exact h.count rfl rfl rfl (by simp [hstage]) (by simp) (fun _ => hin) (fun _ => rfl)
        (by simp [Engine.setSlot, Closure.counts, hstage, hin])
  | cancelledTest =>
      simp only [SessionLifetime.submitStep, hstage, Option.some.injEq] at hs
      subst hs
      have hin := hscope (by rw [hstage]; rfl)
      split
      · exact h.quiet rfl rfl rfl (by simp [hstage]) (by simp) (fun _ => hin)
          (by simp [Closure.counts, hstage]) fun _ => rfl
      · exact h.quiet rfl rfl rfl (by simp [hstage]) (by simp) (fun _ => hin)
          (by simp [Closure.counts, hstage]) fun _ => rfl
  | dispatch =>
      simp only [SessionLifetime.submitStep, hstage] at hs
      split at hs
      · cases hs
        exact h.quiet rfl rfl rfl (by simp [hstage]) (by simp) (by simp [Stage.ofScope])
          (by simp [Closure.counts, hstage]) fun _ => rfl
      · cases hs
        exact h.quiet (destroy_setStage s n .rejected) rfl rfl (by simp [hstage]) (by simp)
          (by simp [Stage.ofScope]) (by simp [Closure.counts, hstage]) (destroy_mInFlight s n)
  | push =>
      simp only [SessionLifetime.submitStep, hstage] at hs
      split at hs
      · cases hs
        exact h.quiet rfl rfl rfl (by simp [hstage]) (by simp) (by simp [Stage.ofScope])
          (by simp [Closure.counts, hstage, Engine.setWorker]) fun _ => rfl
      · cases hs
        exact h.quiet (destroy_setStage s n .rejected) rfl rfl (by simp [hstage]) (by simp)
          (by simp [Stage.ofScope]) (by simp [Closure.counts, hstage]) (destroy_mInFlight s n)
  | cancelled =>
      simp only [SessionLifetime.submitStep, hstage, Option.some.injEq] at hs
      subst hs
      have hin := hscope (by rw [hstage]; rfl)
      have hcounts : (s.closures n).counts = true := by simp [Closure.counts, hstage, hin]
      have hpos := hpos hcounts
      refine h.count (destroy_setStage _ n .refused) rfl rfl (by simp [hstage]) (by simp)
        (by simp [Stage.ofScope]) (destroy_mInFlight _ n) ?_
      rw [hcounts]
      simp [Closure.counts]
      omega
  | rejected =>
      simp only [SessionLifetime.submitStep, hstage, Option.some.injEq] at hs
      subst hs
      cases hin : (s.closures n).inScope with
      | true =>
          have hcounts : (s.closures n).counts = true := by simp [Closure.counts, hstage, hin]
          have hpos := hpos hcounts
          refine h.count rfl rfl rfl (by simp [hstage]) (by simp) (by simp [Stage.ofScope])
            (fun _ => rfl) ?_
          rw [hcounts]
          simp [Engine.setSlot, Closure.counts]
          omega
      | false =>
          exact h.quiet rfl rfl rfl (by simp [hstage]) (by simp) (by simp [Stage.ofScope])
            (by simp [Closure.counts, hin]) fun _ => rfl
  | _ => simp [SessionLifetime.submitStep, hstage] at hs

/-- A slot that changes and counts the same. -/
theorem setSlot_mInFlight {slots : Nat → Slot} {k : Nat} {slot : Slot}
    (hslot : slot.mInFlight = (slots k).mInFlight) (j : Nat) :
    (Function.update slots k slot j).mInFlight = (slots j).mInFlight := by
  by_cases hj : j = k
  · subst hj
    simpa using hslot
  · rw [Function.update_of_ne hj]

/-- A step of a thread in a call. -/
theorem FlightInv.threadStep {t : Nat} {accepted : Bool} (h : FlightInv s)
    (hs : SessionLifetime.threadStep workerCount s t accepted = some s') : FlightInv s' := by
  cases hpc : s.threads t with
  | idle => simp [SessionLifetime.threadStep, hpc] at hs
  | limitTest =>
      simp only [SessionLifetime.threadStep, hpc, Option.some.injEq] at hs
      subst hs
      exact h.frame rfl rfl fun _ => rfl
  | acquire =>
      simp only [SessionLifetime.threadStep, hpc] at hs
      split at hs
      · cases hs
        exact h.frame rfl rfl fun _ => rfl
      · cases hs
        exact h.frame rfl rfl (setSlot_mInFlight rfl)
  | initSession k =>
      simp only [SessionLifetime.threadStep, hpc, Option.some.injEq] at hs
      subst hs
      exact h.frame rfl rfl (setSlot_mInFlight rfl)
  | register k id =>
      simp only [SessionLifetime.threadStep, hpc, Option.some.injEq] at hs
      subst hs
      exact h.frame rfl rfl fun j => (setRefs_slots s _ j).2.2
  | close k next =>
      simp only [SessionLifetime.threadStep, hpc, Option.some.injEq] at hs
      subst hs
      split
      · exact h.frame rfl rfl fun _ => rfl
      · exact h.frame rfl rfl (setSlot_mInFlight rfl)
  | cancel k next =>
      simp only [SessionLifetime.threadStep, hpc, Option.some.injEq] at hs
      subst hs
      exact h.frame rfl rfl (setSlot_mInFlight rfl)
  | removeTest k id =>
      simp only [SessionLifetime.threadStep, hpc, Option.some.injEq] at hs
      subst hs
      exact h.frame rfl rfl fun _ => rfl
  | erase id =>
      simp only [SessionLifetime.threadStep, hpc, Option.some.injEq] at hs
      subst hs
      exact h.frame rfl rfl fun j => (setRefs_slots s _ j).2.2
  | closeAll rest =>
      cases rest with
      | nil =>
          simp only [SessionLifetime.threadStep, hpc, Option.some.injEq] at hs
          subst hs
          exact h.frame rfl rfl fun j => (setRefs_slots s _ j).2.2
      | cons k rest =>
          simp only [SessionLifetime.threadStep, hpc, Option.some.injEq] at hs
          subst hs
          exact h.frame rfl rfl fun _ => rfl
  | submit n =>
      simp only [SessionLifetime.threadStep, hpc] at hs
      exact h.submitStep hs

/-- A step of a worker in a closure whose body does not throw. -/
theorem FlightInv.runStep {i n : Nat} (h : FlightInv s)
    (hs : SessionLifetime.runStep s i n false = some s') : FlightInv s' := by
  cases hstage : (s.closures n).stage with
  | popped =>
      simp only [SessionLifetime.runStep, hstage, Option.some.injEq] at hs
      subst hs
      split
      next hcancelled =>
        exact h.quiet rfl rfl rfl (by simp [hstage]) (by simp) (fun _ => hcancelled.1)
          (by simp [Closure.counts, hstage]) fun _ => rfl
      · exact h.quiet rfl rfl rfl (by simp [hstage]) (by simp) (by simp [Stage.ofScope])
          (by simp [Closure.counts, hstage]) fun _ => rfl
  | body =>
      simp only [SessionLifetime.runStep, hstage, Bool.false_eq_true, if_false,
        Option.some.injEq] at hs
      subst hs
      split
      next hin =>
        exact h.quiet rfl rfl rfl (by simp [hstage]) (by simp) (fun _ => hin)
          (by simp [Closure.counts, hstage]) fun _ => rfl
      next hin =>
        exact h.quiet rfl rfl rfl (by simp [hstage]) (by simp) (by simp [Stage.ofScope])
          (by simp [Closure.counts, hstage, hin]) fun _ => rfl
  | endTask =>
      simp only [SessionLifetime.runStep, hstage, Option.some.injEq] at hs
      subst hs
      have hin := h.ofScope n (by rw [hstage]; rfl)
      have hcounts : (s.closures n).counts = true := by simp [Closure.counts, hstage, hin]
      have hpos := h.pos hcounts
      refine h.count rfl rfl rfl (by simp [hstage]) (by simp) (by simp [Stage.ofScope])
        (fun _ => rfl) ?_
      rw [hcounts]
      simp [Engine.setSlot, Closure.counts]
      omega
  | _ => simp [SessionLifetime.runStep, hstage] at hs

/-- A closure that is done is not counted. -/
theorem FlightInv.dropTask {i : Nat} (h : FlightInv s) (hI : LifeInv s)
    (hpc : (s.workers i).pc = .pop) : FlightInv (s.dropTask i) := by
  simp only [Engine.dropTask]
  split
  · exact h
  next n htask =>
    obtain ⟨b, hb⟩ : ∃ b, (s.closures n).stage = .done b := by
      simpa [hpc] using (hI.closures.task i n htask).2
    exact h.quiet rfl rfl rfl (by simp [hb]) (by simp) (by simp [Stage.ofScope])
      (by simp [Closure.counts, hb, Engine.dropAll, Engine.setRefs]) (destroy_mInFlight s n)

/-- The other closures stay. -/
theorem dropTask_closures {i n : Nat} (htask : (s.workers i).task ≠ some n) :
    (s.dropTask i).closures n = s.closures n := by
  simp only [Engine.dropTask]
  split
  · rfl
  next m hm =>
    have hne : n ≠ m := fun he => htask (he ▸ hm)
    exact Function.update_of_ne hne ..

/-- A step of a worker whose body does not throw. -/
theorem FlightInv.workerStep {i : Nat} (h : FlightInv s) (hI : LifeInv s)
    (hs : SessionLifetime.workerStep s i false = some s') : FlightInv s' := by
  cases hpc : (s.workers i).pc with
  | pop =>
      simp only [SessionLifetime.workerStep, hpc] at hs
      split at hs
      next n rest hqueue =>
        cases hs
        have hdrop := h.dropTask hI hpc
        have hqueued := (hI.closures.queue i n (by simp [hqueue])).1
        have hstage : ((s.dropTask i).closures n).stage = .queued := by
          rw [dropTask_closures fun htask => ?_, hqueued]
          simpa [hpc, hqueued] using (hI.closures.task i n htask).2
        exact hdrop.quiet rfl rfl rfl (by simp [hstage]) (by simp) (by simp [Stage.ofScope])
          (by simp [Closure.counts, hstage]) fun _ => rfl
      · split at hs
        · cases hs
        · cases hs
          exact (h.dropTask hI hpc).frame rfl rfl fun _ => rfl
  | run =>
      simp only [SessionLifetime.workerStep, hpc] at hs
      split at hs
      · exact h.runStep hs
      · cases hs
  | exited => simp [SessionLifetime.workerStep, hpc] at hs

/-- A new closure.  It does not count yet. -/
theorem FlightInv.submit (h : FlightInv s) {n : Nat} {c : Closure}
    (hclosures : s'.closures = Function.update s.closures n c) (hmade : s'.made = s.made ++ [n])
    (hold : (s.closures n).stage = .none) (hnew : c.stage ≠ .none)
    (hscope : c.stage.ofScope = true → c.inScope = true) (hcounts : c.counts = false)
    (hslots : s'.slots = s.slots) (halive : s'.aborted = s.aborted := by rfl) : FlightInv s' := by
  have hn : n ∉ s.made := fun hn => (h.made n).mp hn hold
  refine ⟨?_, fun m => ?_, fun m hm => ?_, fun k => ?_, halive.trans h.alive⟩
  · rw [hmade]
    refine List.nodup_append.mpr ⟨h.made_nodup, by simp, fun m hm j hj => ?_⟩
    rw [List.mem_singleton.mp hj]
    exact fun he => hn (he ▸ hm)
  · rw [hmade, hclosures, List.mem_append, List.mem_singleton, h.made m]
    by_cases hm : m = n
    · subst hm
      simp [hnew]
    · simp [hm]
  · rw [hclosures] at hm ⊢
    by_cases hmn : m = n
    · subst hmn
      rw [Function.update_self] at hm ⊢
      exact hscope hm
    · rw [Function.update_of_ne hmn] at hm ⊢
      exact h.ofScope m hm
  · rw [hmade, hclosures, hslots, Tally.tally_append, Tally.tally_update_of_notMem _ _ _ hn,
      Tally.tally_singleton, h.balance k]
    simp [hcounts]

/-- A step of `ReleaseInternal`.  `Reset` does not abort. -/
theorem FlightInv.release {k : Nat} (h : FlightInv s) (hI : LifeInv s)
    (hs : releaseStep s k = some s') : FlightInv s' := by
  cases hrel : (s.slots k).release with
  | none => simp [releaseStep, hrel] at hs
  | some pc =>
      have hzero : (s.slots k).mInFlight = 0 :=
        h.mInFlight_eq_zero hI (hI.slots.not_held (.inr (by simp [hrel])))
      cases pc with
      | close =>
          simp only [releaseStep, hrel, Option.some.injEq] at hs
          subst hs
          exact h.frame rfl rfl (setSlot_mInFlight (Slot.close_inUse (s.slots k)).2.2)
      | reset =>
          simp only [releaseStep, hrel, hzero, ne_eq, not_true_eq_false, if_false,
            Option.some.injEq] at hs
          subst hs
          exact h.frame rfl rfl (setSlot_mInFlight hzero.symm)
      | push =>
          simp only [releaseStep, hrel, Option.some.injEq] at hs
          subst hs
          exact h.frame rfl rfl (setSlot_mInFlight rfl)

/-- Every step keeps the accounting, if no body throws and no accepted closure is destroyed
unrun. -/
theorem FlightInv.step {a : Act} (h : FlightInv s) (hI : LifeInv s) (hruns : a.runs = true)
    (hs : SessionLifetime.step workerCount s a = some s') : FlightInv s' := by
  simp only [SessionLifetime.step] at hs
  split at hs
  · cases hs
  cases a with
  | create t =>
      simp only at hs
      split at hs
      · cases hs
        exact h.frame rfl rfl fun _ => rfl
      · cases hs
  | get t id =>
      simp only at hs
      split at hs
      · split at hs
        · cases hs
          exact h
        · cases hs
          exact h.frame rfl rfl fun _ => rfl
      · cases hs
  | copy t k =>
      simp only at hs
      split at hs
      · cases hs
        exact h.frame rfl rfl fun _ => rfl
      · cases hs
  | drop t k =>
      simp only at hs
      split at hs
      · cases hs
        exact h.frame rfl rfl fun j => (setRefs_slots s _ j).2.2
      · cases hs
  | removeId t id =>
      simp only at hs
      split at hs
      · cases hs
        exact h.frame rfl rfl fun _ => rfl
      · cases hs
  | remove t k =>
      simp only at hs
      split at hs
      · cases hs
        exact h.frame rfl rfl fun _ => rfl
      · cases hs
  | close t k =>
      simp only at hs
      split at hs
      · cases hs
        exact h.frame rfl rfl fun _ => rfl
      · cases hs
  | closeAll t =>
      simp only at hs
      split at hs
      · cases hs
        exact h.frame rfl rfl fun _ => rfl
      · cases hs
  | submit t k n inScope =>
      simp only at hs
      split at hs
      next hidle =>
        cases hs
        refine h.submit rfl rfl hidle.2.2 ?_ ?_ ?_ rfl
        · cases inScope <;> simp
        · cases inScope <;> simp [Stage.ofScope]
        · cases inScope <;> rfl
      · cases hs
  | thread t accepted => exact h.threadStep hs
  | give i t =>
      simp only at hs
      split at hs
      · cases hs
      · split at hs
        · cases hs
          exact h.frame rfl rfl fun _ => rfl
        · cases hs
  | worker i throws =>
      have hthrows : throws = false := by simpa [Act.runs] using hruns
      subst hthrows
      exact h.workerStep hI hs
  | shutdown =>
      cases hs
      exact h.frame rfl rfl fun _ => rfl
  | clear i => cases hruns
  | release k => exact h.release hI hs

/-! ## Reuse of a slot -/

/-- What the reuse of a session needs: `Reset` finds no task in flight, and a body runs in
the incarnation of the session in which it was submitted. -/
structure ReuseSafe (s : Engine) : Prop where
  reset : ∀ k, (s.slots k).release = some .reset → (s.slots k).mInFlight = 0
  alive : s.aborted = false
  body : ∀ n, (s.closures n).stage = .body →
    (s.slots (s.closures n).slot).inUse = true ∧ (s.slots (s.closures n).slot).release = none ∧
      (s.slots (s.closures n).slot).incarnation = (s.closures n).incarnation

theorem FlightInv.reuseSafe (h : FlightInv s) (hI : LifeInv s) : ReuseSafe s where
  reset := fun k hk => h.mInFlight_eq_zero hI (hI.slots.not_held (.inr (by simp [hk])))
  alive := h.alive
  body := by
    intro n hn
    have halive : (s.closures n).stage.alive = true := by simp [hn, Stage.alive]
    have hr : ⟨.closure n, (s.closures n).slot⟩ ∈ s.refs := (hI.closures.ref n _).mpr ⟨halive, rfl⟩
    obtain ⟨hu, hrel⟩ := hI.slots.used _ (held_of_mem hr)
    exact ⟨hu, hrel, hI.closures.incarnation n halive⟩

/-- In every state of every run in which no body throws and every accepted closure is run,
the reuse of sessions is safe. -/
theorem reuseSafe_run {capacity : Nat} {as : List Act} (hruns : ∀ a ∈ as, a.runs = true)
    (hrun : Machine.run (SessionLifetime.step workerCount) (.init capacity) as = some s) :
    ReuseSafe s := by
  have hinv : LifeInv s ∧ FlightInv s := by
    refine Machine.run_invariant_of_meets (I := fun s => LifeInv s ∧ FlightInv s) ?_
      ⟨lifeInv_init capacity, flightInv_init capacity⟩ (Machine.Meets.of_forall_mem hruns _) hrun
    exact fun u a u' hu hok hs => ⟨hu.1.step hs, hu.2.step hu.1 hok hs⟩
  exact hinv.2.reuseSafe hinv.1

end

/-- The thread `t` submits the closure `n` to the scope of the session in the slot 0, and
`Push` takes it. -/
def submitTrace (t n : Nat) : List Act :=
  .submit t 0 n true :: List.replicate 4 (.thread t true)

/-- The pool has one slot.  Its session is removed while a task runs and another waits.  The
closure of the second has the last reference, and is destroyed when the worker exits.  Then
the slot is used again. -/
def lateTrace : List Act :=
  List.flatten
    [createTrace 0, submitTrace 0 0, submitTrace 0 1, List.replicate 3 (.worker 1 false),
      [.remove 0 0], List.replicate 4 (.thread 0 false), [.drop 0 0],
      List.replicate 4 (.worker 1 false), [.shutdown, .worker 1 false],
      List.replicate 3 (.release 0), createTrace 0]

theorem reuseSafe_lateTrace :
    ∃ s, Machine.run (step 4) (.init 1) lateTrace = some s ∧ s.mSessions = [(2, 0)] ∧
      (s.slots 0).incarnation = 2 ∧ (s.closures 1).stage = .destroyed ∧ ReuseSafe s := by
  have hview : (Machine.run (step 4) (.init 1) lateTrace).map (fun s =>
      (s.mSessions, (s.slots 0).incarnation, (s.closures 1).stage)) =
      some ([(2, 0)], 2, .destroyed) := by
    decide +kernel
  obtain ⟨s, hrun, hs⟩ := Option.map_eq_some_iff.mp hview
  simp only [Prod.mk.injEq] at hs
  exact ⟨s, hrun, hs.1, hs.2.1, hs.2.2, @reuseSafe_run 4 s 1 lateTrace (by decide) hrun⟩

end NetworkModule.SessionLifetime
