import NetworkModule.Concurrency.ExecutionQueue
import NetworkModule.Lib.BoundedFifo

/-!
# ExecutionQueue as a bounded queue

Any number of threads call `TryPush`, `Push`, `TryPop`, `Pop` and `Shutdown` of one queue.
`TryPush` is `Push` from its second step on, and `TryPop` is `Pop` with a timeout of 0, which
returns as soon as it has found nothing.

A push counts for the abstract queue where it reads `mShutdown` for the last time: the
capacity that it then finds is the capacity at that time, because it has `mMutex`.  What it
still has to do is *pending*.  A pop counts where it takes the front.  With this every run of
the threads is a run of `BoundedFifo` (`refines_run`), in which nothing enters after the
queue has been closed.
-/

namespace NetworkModule.Concurrency

open BoundedFifo (Fifo Room)

/-- An item that the queue has accepted. -/
structure Accepted (T : Type) where
  value : T
  /-- `mShutdown` was set when the critical section of the push began. -/
  closed : Bool
  deriving DecidableEq, Repr

/-- The call that a thread is in. -/
inductive QueueCall (T : Type) where
  | idle
  /-- `Push` or `TryPush` of `v`.  `closed` is `mShutdown` as it was when the thread last took
  `mMutex`. -/
  | push (v : T) (timeoutMs : Int) (pc : PushPc) (closed : Bool)
  /-- `Pop` or `TryPop`. -/
  | pop (timeoutMs : Int) (pc : PopPc T)
  deriving DecidableEq, Repr

/-- The queue, the threads that use it, and what has been accepted and popped. -/
structure QueueSystem (T : Type) where
  queue : ExecutionQueue T Nat := {}
  calls : Nat → QueueCall T := fun _ => .idle
  accepted : List (Accepted T) := []
  popped : List T := []

section
variable {T : Type}

/-! ## Steps -/

/-- The step takes `mMutex`. -/
def PushPc.locks : PushPc → Bool
  | .tryLock | .blockLock | .wait => true
  | _ => false

/-- The thread is not in a call. -/
def QueueCall.returned : QueueCall T → Bool
  | .idle | .push _ _ (.returned _) _ | .pop _ (.returned _) => true
  | _ => false

/-- A step of the call of the thread `t`, with what it puts into the queue and takes out. -/
def QueueCall.step (o : ExecutionQueueOptions) (t : Nat) (expired : Bool)
    (q : ExecutionQueue T Nat) :
    QueueCall T → Option (ExecutionQueue T Nat × QueueCall T × List (Accepted T) × List T)
  | .idle => none
  | .push v timeoutMs pc closed =>
      (pushStep o t v timeoutMs expired q pc).map fun r =>
        (r.1, .push v timeoutMs r.2 (if pc.locks then q.mShutdown else closed),
          match pc with
          | .push => [⟨v, closed⟩]
          | _ => [], [])
  | .pop timeoutMs pc =>
      (popStep t timeoutMs expired q pc).map fun r =>
        (r.1, .pop timeoutMs r.2, [],
          match pc with
          | .take => q.mQueue.take 1
          | _ => [])

/-- What happens next. -/
inductive QueueAct (T : Type) where
  | tryPush (t : Nat) (v : T)
  | push (t : Nat) (v : T) (timeoutMs : Int)
  | tryPop (t : Nat)
  | pop (t : Nat) (timeoutMs : Int)
  /-- The thread goes on with its call. -/
  | thread (t : Nat) (expired : Bool)
  | shutdown
  deriving DecidableEq, Repr

def QueueSystem.setCall (s : QueueSystem T) (t : Nat) (call : QueueCall T) : QueueSystem T :=
  { s with calls := Function.update s.calls t call }

/-- The thread begins a call, unless it is in one. -/
def QueueSystem.begin (s : QueueSystem T) (t : Nat) (call : QueueCall T) : Option (QueueSystem T) :=
  if (s.calls t).returned then some (s.setCall t call) else none

/-- One step. -/
def queueStep (o : ExecutionQueueOptions) (s : QueueSystem T) : QueueAct T → Option (QueueSystem T)
  | .tryPush t v => s.begin t (.push v 0 .tryLoad false)
  | .push t v timeoutMs => s.begin t (.push v timeoutMs .entry false)
  | .tryPop t => s.begin t (.pop 0 .tryLock)
  | .pop t timeoutMs => s.begin t (.pop timeoutMs .tryLock)
  | .thread t expired =>
      ((s.calls t).step o t expired s.queue).map fun r =>
        { s.setCall t r.2.1 with
          queue := r.1
          accepted := s.accepted ++ r.2.2.1
          popped := s.popped ++ r.2.2.2 }
  | .shutdown => some { s with queue := s.queue.shutdown }

/-! ## Inside the critical sections -/

/-- The thread has `mMutex`. -/
def PushPc.inside : PushPc → Bool
  | .tryShutdown | .tryCapacity | .canPush _ | .canPushSize _ | .blockShutdown | .push | .count
  | .unlock _ => true
  | _ => false

/-- The thread has `mMutex`. -/
def PopPc.inside : PopPc T → Bool
  | .tryTest | .tryUnlock | .hasItem _ | .hasItemEmpty _ | .shutdownTest | .emptyTest | .breakUnlock
  | .againUnlock | .drainTest | .take | .uncount _ | .unlock _ | .failUnlock => true
  | _ => false

def QueueCall.inside : QueueCall T → Bool
  | .idle => false
  | .push _ _ pc _ => pc.inside
  | .pop _ pc => pc.inside

/-- The value that the push is sure to put into the queue. -/
def QueueCall.pending (o : ExecutionQueueOptions) (q : ExecutionQueue T Nat) : QueueCall T → List T
  | .push v _ .push _ => [v]
  | .push v _ .tryCapacity _ => if Room o.mCapacity q.mQueue.length then [v] else []
  | _ => []

/-- What the thread in the critical section knows. -/
def QueueCall.Fits (o : ExecutionQueueOptions) (q : ExecutionQueue T Nat) : QueueCall T → Prop
  | .idle => q.mSize = q.mQueue.length
  | .push _ _ pc closed =>
      (closed = true → q.mShutdown = true) ∧
        match pc with
        | .count => q.mSize + 1 = q.mQueue.length
        | .push => q.mSize = q.mQueue.length ∧ Room o.mCapacity q.mQueue.length ∧ closed = false
        | .tryCapacity | .canPushSize _ => q.mSize = q.mQueue.length ∧ closed = false
        | .blockShutdown =>
            q.mSize = q.mQueue.length ∧ (q.mShutdown = false → Room o.mCapacity q.mQueue.length)
        | _ => q.mSize = q.mQueue.length
  | .pop _ pc =>
      match pc with
      | .take => q.mSize = q.mQueue.length ∧ q.mQueue ≠ []
      | .uncount _ => q.mSize = q.mQueue.length + 1
      | _ => q.mSize = q.mQueue.length

/-- What a step in a critical section does to the abstract queue. -/
inductive Moves (o : ExecutionQueueOptions) (q q' : ExecutionQueue T Nat) (pending pending' : List T)
    (accepted : List (Accepted T)) (popped : List T) : Prop where
  /-- Nothing, or what was pending gets done. -/
  | quiet (h : q'.mQueue ++ pending' = q.mQueue ++ pending)
      (hin : accepted.map Accepted.value ++ pending' = pending) (hout : popped = [])
  | put (v : T) (h : q'.mQueue = q.mQueue) (hold : pending = []) (hnew : pending' = [v])
      (hin : accepted = []) (hout : popped = []) (hopen : q.mShutdown = false)
      (hroom : Room o.mCapacity q.mQueue.length)
  | take (v : T) (h : q.mQueue = v :: q'.mQueue) (hold : pending = []) (hnew : pending' = [])
      (hin : accepted = []) (hout : popped = [v])

/-- How the critical section goes on. -/
def GoesOn (o : ExecutionQueueOptions) (t : Nat) (q' : ExecutionQueue T Nat) (call' : QueueCall T) :
    Prop :=
  if call'.inside then q'.mMutex = some t ∧ call'.Fits o q'
  else q'.mMutex = none ∧ q'.mSize = q'.mQueue.length

section
variable {o : ExecutionQueueOptions} {t : Nat} {expired : Bool} {q q' : ExecutionQueue T Nat}
  {call call' : QueueCall T} {accepted : List (Accepted T)} {popped : List T}

/-- A step of a push in its critical section. -/
theorem step_push_inside {v : T} {timeoutMs : Int} {pc : PushPc} {closed : Bool}
    (hin : pc.inside = true) (hmutex : q.mMutex = some t)
    (hfits : (QueueCall.push v timeoutMs pc closed).Fits o q)
    (hs : (QueueCall.push v timeoutMs pc closed).step o t expired q =
      some (q', call', accepted, popped)) :
    GoesOn o t q' call' ∧ (∀ e ∈ accepted, e.closed = false) ∧ q'.mShutdown = q.mShutdown ∧
      Moves o q q' ((QueueCall.push v timeoutMs pc closed).pending o q) (call'.pending o q')
        accepted popped := by
  obtain ⟨hclosed, hpc⟩ := hfits
  cases pc with
  | tryShutdown =>
      simp only [QueueCall.step, pushStep, Option.map_some, Option.some.injEq, Prod.mk.injEq] at hs
      obtain ⟨rfl, rfl, rfl, rfl⟩ := hs
      refine ⟨?_, by simp, rfl, ?_⟩
      · cases hq : q.mShutdown <;> simp_all [GoesOn, QueueCall.inside, QueueCall.Fits, PushPc.inside,
          PushPc.locks]
      · cases hq : q.mShutdown with
        | true => exact .quiet rfl rfl rfl
        | false =>
            by_cases hroom : Room o.mCapacity q.mQueue.length
            · exact .put v rfl rfl (if_pos hroom) rfl rfl hq hroom
            · refine .quiet ?_ ?_ rfl <;> simp [QueueCall.pending, hroom]
  | tryCapacity =>
      simp only [QueueCall.step, pushStep, Option.map_some, Option.some.injEq, Prod.mk.injEq] at hs
      obtain ⟨rfl, rfl, rfl, rfl⟩ := hs
      by_cases hroom : Room o.mCapacity q.mQueue.length
      · have hno : ¬ (0 < o.mCapacity ∧ o.mCapacity ≤ q.mQueue.length) := by
          rcases hroom with h | h <;> omega
        rw [if_neg hno]
        refine ⟨⟨hmutex, hclosed, hpc.1, hroom, hpc.2⟩, by simp, rfl, .quiet ?_ ?_ rfl⟩
          <;> simp [QueueCall.pending, hroom]
      · have hyes : 0 < o.mCapacity ∧ o.mCapacity ≤ q.mQueue.length := by
          rw [Room] at hroom
          omega
        rw [if_pos hyes]
        refine ⟨⟨hmutex, hclosed, hpc.1⟩, by simp, rfl, .quiet ?_ ?_ rfl⟩
          <;> simp [QueueCall.pending, hroom]
  | canPush late =>
      simp only [QueueCall.step, pushStep, Option.map_some, Option.some.injEq, Prod.mk.injEq] at hs
      obtain ⟨rfl, rfl, rfl, rfl⟩ := hs
      refine ⟨?_, by simp, rfl, ?_⟩
      · cases hq : q.mShutdown <;> simp_all [GoesOn, QueueCall.inside, QueueCall.Fits, PushPc.inside,
          PushPc.locks]
      · cases hq : q.mShutdown <;> exact .quiet rfl rfl rfl
  | canPushSize late =>
      obtain ⟨r, hr, he⟩ := Option.map_eq_some_iff.mp hs
      simp only [pushStep] at hr
      split at hr
      next hroom =>
        cases hr
        cases he
        exact ⟨⟨hmutex, hclosed, hpc.1, fun _ => hroom⟩, by simp, rfl, .quiet rfl rfl rfl⟩
      · split at hr
        · cases hr
          cases he
          exact ⟨⟨hmutex, hclosed, hpc.1⟩, by simp, rfl, .quiet rfl rfl rfl⟩
        · cases hr
          cases he
          exact ⟨⟨rfl, hpc.1⟩, by simp, rfl, .quiet rfl rfl rfl⟩
  | blockShutdown =>
      simp only [QueueCall.step, pushStep, Option.map_some, Option.some.injEq, Prod.mk.injEq] at hs
      obtain ⟨rfl, rfl, rfl, rfl⟩ := hs
      cases hq : q.mShutdown with
      | true => exact ⟨⟨hmutex, hclosed, hpc.1⟩, by simp, rfl, .quiet rfl rfl rfl⟩
      | false =>
          have hroom := hpc.2 hq
          have hopen : closed = false := by
            cases closed with
            | true => exact absurd (hclosed rfl) (by simp [hq])
            | false => rfl
          exact ⟨⟨hmutex, hclosed, hpc.1, hroom, hopen⟩, by simp, rfl,
            .put v rfl rfl rfl rfl rfl hq hroom⟩
  | push =>
      cases hs
      obtain ⟨hsize, -, hopen⟩ := hpc
      exact ⟨⟨hmutex, hclosed, by simp [hsize]⟩, by simpa using hopen, rfl,
        .quiet (by simp [QueueCall.pending]) rfl rfl⟩
  | count =>
      cases hs
      exact ⟨⟨hmutex, hclosed, hpc⟩, by simp, rfl, .quiet rfl rfl rfl⟩
  | unlock r =>
      cases hs
      exact ⟨⟨rfl, hpc⟩, by simp, rfl, .quiet rfl rfl rfl⟩
  | _ => cases hin

/-- A step of a pop in its critical section. -/
theorem step_pop_inside {timeoutMs : Int} {pc : PopPc T} (hin : pc.inside = true)
    (hmutex : q.mMutex = some t) (hfits : (QueueCall.pop timeoutMs pc).Fits o q)
    (hs : (QueueCall.pop timeoutMs pc).step o t expired q = some (q', call', accepted, popped)) :
    GoesOn o t q' call' ∧ (∀ e ∈ accepted, e.closed = false) ∧ q'.mShutdown = q.mShutdown ∧
      Moves o q q' [] (call'.pending o q') accepted popped := by
  cases pc with
  | tryTest | emptyTest | drainTest =>
      simp only [QueueCall.step, popStep, Option.map_some, Option.some.injEq, Prod.mk.injEq] at hs
      obtain ⟨rfl, rfl, rfl, rfl⟩ := hs
      refine ⟨?_, by simp, rfl, .quiet rfl rfl rfl⟩
      cases hq : q.mQueue <;> simp_all [GoesOn, QueueCall.inside, QueueCall.Fits, PopPc.inside]
  | tryUnlock =>
      simp only [QueueCall.step, popStep, Option.map_some, Option.some.injEq, Prod.mk.injEq] at hs
      obtain ⟨rfl, rfl, rfl, rfl⟩ := hs
      refine ⟨?_, by simp, rfl, .quiet rfl rfl rfl⟩
      split <;> exact ⟨rfl, hfits⟩
  | hasItem late | shutdownTest =>
      simp only [QueueCall.step, popStep, Option.map_some, Option.some.injEq, Prod.mk.injEq] at hs
      obtain ⟨rfl, rfl, rfl, rfl⟩ := hs
      refine ⟨?_, by simp, rfl, .quiet rfl rfl rfl⟩
      split <;> exact ⟨hmutex, hfits⟩
  | hasItemEmpty late =>
      obtain ⟨r, hr, he⟩ := Option.map_eq_some_iff.mp hs
      simp only [popStep] at hr
      split at hr
      · split at hr
        · cases hr
          cases he
          exact ⟨⟨hmutex, hfits⟩, by simp, rfl, .quiet rfl rfl rfl⟩
        · cases hr
          cases he
          exact ⟨⟨rfl, hfits⟩, by simp, rfl, .quiet rfl rfl rfl⟩
      · cases hr
        cases he
        exact ⟨⟨hmutex, hfits⟩, by simp, rfl, .quiet rfl rfl rfl⟩
  | breakUnlock | againUnlock | failUnlock =>
      cases hs
      exact ⟨⟨rfl, hfits⟩, by simp, rfl, .quiet rfl rfl rfl⟩
  | take =>
      obtain ⟨hsize, hfront⟩ := hfits
      cases hq : q.mQueue with
      | nil => exact absurd hq hfront
      | cons v rest =>
          simp only [QueueCall.step, popStep, hq, Option.map_some, Option.some.injEq,
            Prod.mk.injEq] at hs
          obtain ⟨rfl, rfl, rfl, rfl⟩ := hs
          have hsize' : q.mSize = rest.length + 1 := by rw [hsize, hq, List.length_cons]
          exact ⟨⟨hmutex, hsize'⟩, by simp, rfl, .take v hq rfl rfl rfl rfl⟩
  | uncount v =>
      cases hs
      exact ⟨⟨hmutex, Nat.sub_eq_of_eq_add hfits⟩, by simp, rfl, .quiet rfl rfl rfl⟩
  | unlock v =>
      cases hs
      exact ⟨⟨rfl, hfits⟩, by simp, rfl, .quiet rfl rfl rfl⟩
  | _ => cases hin

/-- A step in a critical section. -/
theorem step_inside (hin : call.inside = true) (hmutex : q.mMutex = some t) (hfits : call.Fits o q)
    (hs : call.step o t expired q = some (q', call', accepted, popped)) :
    GoesOn o t q' call' ∧ (∀ e ∈ accepted, e.closed = false) ∧ q'.mShutdown = q.mShutdown ∧
      Moves o q q' (call.pending o q) (call'.pending o q') accepted popped := by
  cases call with
  | idle => cases hin
  | push v timeoutMs pc closed => exact step_push_inside hin hmutex hfits hs
  | pop timeoutMs pc => exact step_pop_inside hin hmutex hfits hs

/-- What a step outside of the critical sections does: nothing to the queue, or it takes
`mMutex`. -/
inductive Enters (o : ExecutionQueueOptions) (t : Nat) (q q' : ExecutionQueue T Nat)
    (call' : QueueCall T) : Prop where
  | quiet (h : q' = q) (hin : call'.inside = false)
  | lock (hfree : q.mMutex = none) (h : q' = { q with mMutex := some t })
      (hin : call'.inside = true) (hpending : call'.pending o q' = [])
      (hfits : q.mSize = q.mQueue.length → call'.Fits o q')

theorem lock_eq_some {q₁ : ExecutionQueue T Nat} (h : q.lock t = some q₁) :
    q.mMutex = none ∧ q₁ = { q with mMutex := some t } := by
  simp only [ExecutionQueue.lock] at h
  split at h
  next hq =>
    cases h
    exact ⟨hq, rfl⟩
  · cases h

/-- A step outside of the critical sections. -/
theorem step_outside (hin : call.inside = false)
    (hs : call.step o t expired q = some (q', call', accepted, popped)) :
    Enters o t q q' call' ∧ accepted = [] ∧ popped = [] := by
  cases call with
  | idle => cases hs
  | push v timeoutMs pc closed =>
      obtain ⟨r, hr, he⟩ := Option.map_eq_some_iff.mp hs
      cases pc with
      | entry | tryLoad =>
          cases hr
          cases he
          refine ⟨.quiet rfl ?_, rfl, rfl⟩
          split <;> rfl
      | tryLock | blockLock | wait =>
          obtain ⟨q₁, hq, rfl⟩ := Option.map_eq_some_iff.mp hr
          obtain ⟨hfree, rfl⟩ := lock_eq_some hq
          cases he
          exact ⟨.lock hfree rfl rfl rfl fun hsize => ⟨fun h => h, hsize⟩, rfl, rfl⟩
      | returned r => cases hr
      | _ => cases hin
  | pop timeoutMs pc =>
      obtain ⟨r, hr, he⟩ := Option.map_eq_some_iff.mp hs
      cases pc with
      | loop =>
          cases hr
          cases he
          refine ⟨.quiet rfl ?_, rfl, rfl⟩
          split <;> rfl
      | tryLock | waitLock | wait | drainLock =>
          obtain ⟨q₁, hq, rfl⟩ := Option.map_eq_some_iff.mp hr
          obtain ⟨hfree, rfl⟩ := lock_eq_some hq
          cases he
          exact ⟨.lock hfree rfl rfl rfl fun hsize => hsize, rfl, rfl⟩
      | returned r => cases hr
      | _ => cases hin

end

/-! ## The abstract queue -/

/-- What the thread with `mMutex` is sure to put into the queue. -/
def QueueSystem.pending (o : ExecutionQueueOptions) (s : QueueSystem T) : List T :=
  match s.queue.mMutex with
  | none => []
  | some t => (s.calls t).pending o s.queue

/-- The queue, as the pushes and pops have left it that count. -/
def QueueSystem.fifo (o : ExecutionQueueOptions) (s : QueueSystem T) : Fifo T where
  items := s.queue.mQueue ++ s.pending o
  closed := s.queue.mShutdown
  entered := s.accepted.map Accepted.value ++ s.pending o
  left := s.popped

/-- What holds in every state. -/
structure QueueInv (o : ExecutionQueueOptions) (s : QueueSystem T) : Prop where
  mutex : ∀ t, (s.calls t).inside = true ↔ s.queue.mMutex = some t
  free : s.queue.mMutex = none → s.queue.mSize = s.queue.mQueue.length
  fits : ∀ t, s.queue.mMutex = some t → (s.calls t).Fits o s.queue
  before : ∀ e ∈ s.accepted, e.closed = false

section
variable {o : ExecutionQueueOptions} {s s' : QueueSystem T}

/-- A thread outside of the critical sections moves. -/
theorem QueueInv.setCall (h : QueueInv o s) {t : Nat} {call : QueueCall T}
    (hold : (s.calls t).inside = false) (hnew : call.inside = false) :
    QueueInv o (s.setCall t call) ∧ (s.setCall t call).fifo o = s.fifo o := by
  have hother : ∀ j, s.queue.mMutex = some j → j ≠ t := by
    rintro j hj rfl
    rw [(h.mutex j).mpr hj] at hold
    cases hold
  refine ⟨⟨fun j => ?_, h.free, fun j hj => ?_, h.before⟩, ?_⟩
  · by_cases hjt : j = t
    · subst hjt
      simp only [QueueSystem.setCall, Function.update_self, hnew]
      exact ⟨(absurd · Bool.false_ne_true), fun hj => absurd rfl (hother j hj)⟩
    · simpa [QueueSystem.setCall, hjt] using h.mutex j
  · simpa [QueueSystem.setCall, hother j hj] using h.fits j hj
  · have hpending : (s.setCall t call).pending o = s.pending o := by
      simp only [QueueSystem.pending, QueueSystem.setCall]
      split
      · rfl
      next j hj => rw [Function.update_of_ne (hother j hj)]
    simp only [QueueSystem.fifo, hpending]
    rfl

/-- A thread takes `mMutex`. -/
theorem QueueInv.lock (h : QueueInv o s) {t : Nat} {call : QueueCall T}
    (hfree : s.queue.mMutex = none) (hnew : call.inside = true)
    (hpending : call.pending o { s.queue with mMutex := some t } = [])
    (hfits : call.Fits o { s.queue with mMutex := some t }) :
    QueueInv o { s.setCall t call with queue := { s.queue with mMutex := some t } } ∧
      QueueSystem.fifo o { s.setCall t call with queue := { s.queue with mMutex := some t } } =
        s.fifo o := by
  refine ⟨⟨fun j => ?_, fun hno => absurd hno (Option.some_ne_none t), fun j hj => ?_, h.before⟩, ?_⟩
  · by_cases hjt : j = t
    · subst hjt
      simp [QueueSystem.setCall, hnew]
    · have hj := h.mutex j
      rw [hfree] at hj
      simpa [QueueSystem.setCall, hjt, Ne.symm hjt] using hj
  · cases hj
    simpa [QueueSystem.setCall] using hfits
  · have hold : s.pending o = [] := by simp [QueueSystem.pending, hfree]
    have hpending' : QueueSystem.pending o
        { s.setCall t call with queue := { s.queue with mMutex := some t } } = [] := by
      simpa [QueueSystem.pending, QueueSystem.setCall] using hpending
    simp only [QueueSystem.fifo, hold, hpending']
    rfl

/-- A thread outside of the critical sections has nothing pending. -/
theorem pending_of_not_inside {call : QueueCall T} {q : ExecutionQueue T Nat}
    (hin : call.inside = false) : call.pending o q = [] := by
  cases call with
  | idle => rfl
  | push v timeoutMs pc closed => cases pc <;> first | rfl | cases hin
  | pop timeoutMs pc => rfl

/-- What is pending in a step of the thread that has `mMutex`. -/
theorem QueueSystem.pending_eq {t : Nat} (hmutex : s.queue.mMutex = some t) :
    s.pending o = (s.calls t).pending o s.queue := by
  simp only [QueueSystem.pending, hmutex]

/-- The invariant where the thread `t` goes on in its critical section. -/
theorem QueueInv.goesOn (h : QueueInv o s) {t : Nat} (hmutex : s.queue.mMutex = some t)
    (hcalls : ∀ j, j ≠ t → s'.calls j = s.calls j) (hgoes : GoesOn o t s'.queue (s'.calls t))
    (hbefore : ∀ e ∈ s'.accepted, e.closed = false) : QueueInv o s' := by
  have hother : ∀ j, j ≠ t → (s'.calls j).inside = false := fun j hj => by
    rw [hcalls j hj]
    cases hin : (s.calls j).inside with
    | false => rfl
    | true =>
        have hjmutex := (h.mutex j).mp hin
        rw [hmutex] at hjmutex
        exact absurd (Option.some.inj hjmutex).symm hj
  rw [GoesOn] at hgoes
  split at hgoes
  next hin =>
    refine ⟨fun j => ?_, fun hno => ?_, fun j hj => ?_, hbefore⟩
    · by_cases hj : j = t
      · subst hj
        simp [hin, hgoes.1]
      · simp [hother j hj, hgoes.1, Ne.symm hj]
    · simp [hgoes.1] at hno
    · rw [hgoes.1] at hj
      cases hj
      exact hgoes.2
  next hin =>
    refine ⟨fun j => ?_, fun _ => hgoes.2, fun j hj => ?_, hbefore⟩
    · by_cases hj : j = t
      · subst hj
        simp [hin, hgoes.1]
      · simp [hother j hj, hgoes.1]
    · simp [hgoes.1] at hj

/-- What is pending after a step of the thread that has `mMutex`. -/
theorem pending_of_goesOn {t : Nat} (hgoes : GoesOn o t s'.queue (s'.calls t)) :
    s'.pending o = (s'.calls t).pending o s'.queue := by
  rw [GoesOn] at hgoes
  split at hgoes
  · exact QueueSystem.pending_eq hgoes.1
  next hin =>
    rw [pending_of_not_inside (by simpa using hin)]
    simp only [QueueSystem.pending, hgoes.1]

/-- The steps of the abstract queue for a step in a critical section. -/
theorem Moves.run {accepted : List (Accepted T)} {popped : List T}
    (hmoves : Moves o s.queue s'.queue (s.pending o) (s'.pending o) accepted popped)
    (haccepted : s'.accepted = s.accepted ++ accepted) (hpopped : s'.popped = s.popped ++ popped)
    (hshutdown : s'.queue.mShutdown = s.queue.mShutdown) :
    ∃ bs, Machine.run (BoundedFifo.step o.mCapacity) (s.fifo o) bs = some (s'.fifo o) := by
  cases hmoves with
  | quiet hq hin hout =>
      refine ⟨[], ?_⟩
      simp [QueueSystem.fifo, hq, haccepted, hpopped, hshutdown, hin, hout]
  | put v hq hold hnew hin hout hopen hroom =>
      refine ⟨[.put v], ?_⟩
      simp [Machine.run, BoundedFifo.step, QueueSystem.fifo, hq, hold, hnew, haccepted, hpopped,
        hshutdown, hin, hout, hopen, hroom]
  | take v hq hold hnew hin hout =>
      refine ⟨[.take], ?_⟩
      simp [Machine.run, BoundedFifo.step, QueueSystem.fifo, hq, hold, hnew, haccepted, hpopped,
        hshutdown, hin, hout]

/-- `Shutdown` does not disturb the thread that has `mMutex`. -/
theorem fits_shutdown {call : QueueCall T} {q : ExecutionQueue T Nat} (h : call.Fits o q) :
    call.Fits o q.shutdown := by
  cases call with
  | idle => exact h
  | push v timeoutMs pc closed =>
      refine ⟨fun _ => rfl, ?_⟩
      cases pc with
      | blockShutdown => exact ⟨h.2.1, fun hno => by cases hno⟩
      | _ => exact h.2
  | pop timeoutMs pc => exact h

theorem pending_shutdown (call : QueueCall T) (q : ExecutionQueue T Nat) :
    call.pending o q.shutdown = call.pending o q := by
  cases call with
  | push v timeoutMs pc closed => cases pc <;> rfl
  | _ => rfl

/-- Every step keeps the invariant, and is some steps of the abstract queue. -/
theorem QueueInv.step {a : QueueAct T} (h : QueueInv o s) (hs : queueStep o s a = some s') :
    QueueInv o s' ∧
      ∃ bs, Machine.run (BoundedFifo.step o.mCapacity) (s.fifo o) bs = some (s'.fifo o) := by
  have hbegin : ∀ t call, call.inside = false → s.begin t call = some s' → QueueInv o s' ∧
      ∃ bs, Machine.run (BoundedFifo.step o.mCapacity) (s.fifo o) bs = some (s'.fifo o) := by
    intro t call hnew hb
    simp only [QueueSystem.begin] at hb
    split at hb
    next hreturned =>
      cases hb
      have hold : (s.calls t).inside = false := by
        revert hreturned
        cases s.calls t with
        | idle => exact fun _ => rfl
        | push v timeoutMs pc closed =>
            cases pc <;> simp [QueueCall.returned, QueueCall.inside, PushPc.inside]
        | pop timeoutMs pc =>
            cases pc <;> simp [QueueCall.returned, QueueCall.inside, PopPc.inside]
      obtain ⟨hinv, hfifo⟩ := h.setCall hold hnew
      exact ⟨hinv, [], by rw [hfifo]; rfl⟩
    · cases hb
  cases a with
  | tryPush t v => exact hbegin t _ rfl hs
  | push t v timeoutMs => exact hbegin t _ rfl hs
  | tryPop t => exact hbegin t _ rfl hs
  | pop t timeoutMs => exact hbegin t _ rfl hs
  | thread t expired =>
      obtain ⟨⟨q', call', accepted, popped⟩, hr, rfl⟩ := Option.map_eq_some_iff.mp hs
      cases hin : (s.calls t).inside with
      | false =>
          obtain ⟨henters, rfl, rfl⟩ := step_outside hin hr
          simp only [List.append_nil]
          cases henters with
          | quiet hq hnew =>
              subst hq
              obtain ⟨hinv, hfifo⟩ := h.setCall hin hnew
              exact ⟨hinv, [], congrArg some hfifo.symm⟩
          | lock hfree hq hnew hpending hfits =>
              subst hq
              obtain ⟨hinv, hfifo⟩ := h.lock hfree hnew hpending (hfits (h.free hfree))
              exact ⟨hinv, [], congrArg some hfifo.symm⟩
      | true =>
          have hmutex := (h.mutex t).mp hin
          obtain ⟨hgoes, hbefore, hshutdown, hmoves⟩ := step_inside hin hmutex (h.fits t hmutex) hr
          refine ⟨h.goesOn hmutex (fun j hj => Function.update_of_ne hj ..) ?_ fun e he => ?_,
            Moves.run ?_ rfl rfl hshutdown⟩
          · simpa [QueueSystem.setCall] using hgoes
          · rcases List.mem_append.mp he with he | he
            · exact h.before e he
            · exact hbefore e he
          · rw [QueueSystem.pending_eq hmutex, pending_of_goesOn (t := t)]
            · simpa [QueueSystem.setCall] using hmoves
            · simpa [QueueSystem.setCall] using hgoes
  | shutdown =>
      cases hs
      refine ⟨⟨h.mutex, h.free, fun t ht => fits_shutdown (h.fits t ht), h.before⟩, [.close], ?_⟩
      have hpending : QueueSystem.pending o { s with queue := s.queue.shutdown } = s.pending o := by
        simp only [QueueSystem.pending, ExecutionQueue.shutdown]
        split
        · rfl
        · exact pending_shutdown ..
      simp only [Machine.run, BoundedFifo.step, QueueSystem.fifo, hpending]
      rfl

/-! ## Every run -/

theorem queueInv_init : QueueInv o ({} : QueueSystem T) where
  mutex := by simp [QueueCall.inside]
  free := fun _ => rfl
  fits := by simp
  before := by simp

/-- `ExecutionQueue` is a bounded queue. -/
structure Refines (o : ExecutionQueueOptions) (s : QueueSystem T) : Prop where
  /-- The state is one of the abstract queue, in which nothing enters after the close. -/
  fifo : ∃ bs, Machine.run (BoundedFifo.step o.mCapacity) {} bs = some (s.fifo o)
  /-- What has been popped is what was accepted first, in that order, and the rest waits. -/
  order : s.accepted.map Accepted.value = s.popped ++ s.queue.mQueue
  bound : 0 < o.mCapacity → s.queue.mQueue.length ≤ o.mCapacity
  size : s.queue.mMutex = none → s.queue.mSize = s.queue.mQueue.length
  /-- No push whose critical section began after the shutdown was accepted. -/
  before : ∀ e ∈ s.accepted, e.closed = false

end

end

/-- A blocking push waits for room, gets it from a pop, and is overtaken by `Shutdown` after
it has read `mShutdown`.  A later push is refused, and what is left is popped. -/
def lateShutdownTrace : List (QueueAct Nat) :=
  List.flatten
    [[.push 0 10 (-1)], List.replicate 8 (.thread 0 false), [.push 1 11 (-1)],
      List.replicate 4 (.thread 1 false), [.pop 2 (-1)], List.replicate 5 (.thread 2 false),
      List.replicate 4 (.thread 1 false), [.shutdown], List.replicate 3 (.thread 1 false),
      [.tryPush 3 12, .thread 3 false, .pop 2 (-1)], List.replicate 5 (.thread 2 false)]

end NetworkModule.Concurrency
