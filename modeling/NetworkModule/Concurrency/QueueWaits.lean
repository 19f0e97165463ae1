import NetworkModule.Lib.Machine
import NetworkModule.Lib.Tally

/-!
# The waits of ExecutionQueue

`Pop(-1)` and, with the `Block` policy, `Push(-1)` wait on two condition variables of
`ExecutionQueue`.  The model has one step for each evaluation of a predicate, each
blocking, each change of the queue or the flag, and each notification.  A notification
wakes only a thread that is blocked, and `notify_one` wakes one of them.

Whoever changes the queue has `mMutex`, and a waiter keeps it from the evaluation of its
predicate to the blocking.  So a notification after a push or a pop is not lost:
there are never more items than notifications to come and consumers that are awake
to take one, as long as a consumer is blocked (`Released`).  `Shutdown` sets its flag and
notifies without the mutex.  Its notification is lost if it comes between the evaluation
of a predicate and the blocking (`not_released_of_gap`).  In every other run nobody is
left behind (`released_of_meets`).

The pop of the drain after `Shutdown` notifies nobody, and nobody needs it: a producer
that is blocked then waits for the notification of `Shutdown`.
-/

namespace NetworkModule.Concurrency.QueueWaits

variable {T : Type}

/-! ## The queue and its threads -/

/-- Where a thread stands.  `v` is the value that is pushed or was popped. -/
inductive Pc (T : Type) where
  /-- The critical section of `TryPop`, which `Pop(-1)` calls first. -/
  | tryPop (wait : Bool)
  /-- Its `mNotFullCV.notify_one`, under the mutex. -/
  | tryPopNotify (v : T)
  /-- The head of the loop of `PopWait` loads `mShutdown`. -/
  | popLoop
  /-- Taking the mutex and evaluating `hasItem`. -/
  | popTest
  /-- `hasItem` was false, and the thread is about to block.  It has the mutex. -/
  | popChecked
  /-- Blocked on `mNotEmptyCV`. -/
  | popBlocked
  /-- Woken, and about to take the mutex and evaluate `hasItem` again. -/
  | popWoken
  /-- `hasItem` was true.  The thread has the mutex. -/
  | popAfter
  /-- `mNotFullCV.notify_one`, without the mutex. -/
  | popNotify (v : T)
  /-- The critical section of the drain. -/
  | popDrain
  /-- `Pop` or `TryPop` has returned. -/
  | popped (r : Option T)
  /-- Taking the mutex and evaluating `canPush`. -/
  | pushTest (v : T)
  /-- `canPush` was false, and the thread is about to block.  It has the mutex. -/
  | pushChecked (v : T)
  /-- Blocked on `mNotFullCV`. -/
  | pushBlocked (v : T)
  /-- Woken, and about to take the mutex and evaluate `canPush` again. -/
  | pushWoken (v : T)
  /-- `canPush` was true.  The thread has the mutex. -/
  | pushAfter (v : T)
  /-- `TryPush` loads `mShutdown`. -/
  | tryLoad (v : T)
  /-- The critical section of `TryPushImpl`. -/
  | tryPush (v : T)
  /-- `mNotEmptyCV.notify_one`, without the mutex. -/
  | pushNotify
  /-- `Push` or `TryPush` has returned. -/
  | pushed (r : Bool)
  /-- The compare-and-swap of `Shutdown`. -/
  | shutdown
  /-- `mNotEmptyCV.notify_all`. -/
  | shutdownNotEmpty
  /-- `mNotFullCV.notify_all`. -/
  | shutdownNotFull
  /-- `Shutdown` has returned. -/
  | down
  deriving DecidableEq, Repr

/-- The queue, with the calls that have begun. -/
structure Queue (T : Type) where
  mShutdown : Bool := false
  /-- `mQueue`, oldest first. -/
  mQueue : List T := []
  threads : List (Pc T) := []
  deriving DecidableEq, Repr

namespace Pc

/-- The thread has found `hasItem` false and is about to block. -/
@[simp] def isPopChecked : Pc T → Bool
  | popChecked => true
  | _ => false

/-- The thread has found `canPush` false and is about to block. -/
@[simp] def isPushChecked : Pc T → Bool
  | pushChecked _ => true
  | _ => false

/-- The thread has the mutex, and is not about to block. -/
@[simp] def takes : Pc T → Bool
  | popAfter | pushAfter _ | tryPopNotify _ => true
  | _ => false

/-- The thread has the mutex. -/
def locks (pc : Pc T) : Bool := pc.isPopChecked || pc.isPushChecked || pc.takes

def isPopBlocked : Pc T → Bool
  | popBlocked => true
  | _ => false

def isPushBlocked : Pc T → Bool
  | pushBlocked _ => true
  | _ => false

/-- A notification of `mNotEmptyCV` reaches the thread. -/
def wakePop : Pc T → Pc T
  | popBlocked => popWoken
  | pc => pc

/-- A notification of `mNotFullCV` reaches the thread. -/
def wakePush : Pc T → Pc T
  | pushBlocked v => pushWoken v
  | pc => pc

end Pc

/-! ## Steps -/

namespace Queue

/-- Some thread has the mutex. -/
def locked (s : Queue T) : Bool := s.threads.any Pc.locks

def set (s : Queue T) (i : Nat) (pc : Pc T) : Queue T := { s with threads := s.threads.set i pc }

/-- `notify_one`.  The label says which blocked thread wakes up, if there is one. -/
def notifyOne (s : Queue T) (blocked : Pc T → Bool) (wake : Pc T → Pc T) (j : Nat) :
    Option (Queue T) :=
  if s.threads.any blocked then
    match s.threads[j]? with
    | none => none
    | some pc => if blocked pc then some (s.set j (wake pc)) else none
  else some s

/-- `notify_all`. -/
def notifyAll (s : Queue T) (wake : Pc T → Pc T) : Queue T :=
  { s with threads := s.threads.map wake }

/-- The front of the queue goes to the thread `i`, and the queue is `rest`. -/
def pop (s : Queue T) (i : Nat) (rest : List T) (pc : Pc T) : Queue T :=
  { s with mQueue := rest }.set i pc

/-- `hasItem`. -/
def hasItem (s : Queue T) : Bool := s.mShutdown || !s.mQueue.isEmpty

/-- `canPush`. -/
def canPush (mCapacity : Nat) (s : Queue T) : Bool :=
  s.mShutdown || decide (mCapacity = 0) || decide (s.mQueue.length < mCapacity)

end Queue

/-- A step of the thread `i`.  `j` is the thread that a `notify_one` wakes. -/
def threadStep (mCapacity : Nat) (s : Queue T) (i j : Nat) : Pc T → Option (Queue T)
  | .tryPop wait =>
      if s.locked then none
      else
        match s.mQueue with
        | [] => some (s.set i (if wait then .popLoop else .popped none))
        | v :: rest => some (s.pop i rest (.tryPopNotify v))
  | .tryPopNotify v | .popNotify v =>
      (s.set i (.popped (some v))).notifyOne Pc.isPushBlocked Pc.wakePush j
  | .popLoop => some (s.set i (if s.mShutdown then .popDrain else .popTest))
  | .popTest | .popWoken =>
      if s.locked then none else some (s.set i (if s.hasItem then .popAfter else .popChecked))
  | .popChecked => some (s.set i .popBlocked)
  | .popBlocked => some (s.set i .popWoken)
  | .popAfter =>
      if s.mShutdown then some (s.set i .popDrain)
      else
        match s.mQueue with
        | [] => some (s.set i .popLoop)
        | v :: rest => some (s.pop i rest (.popNotify v))
  | .popDrain =>
      if s.locked then none
      else
        match s.mQueue with
        | [] => some (s.set i (.popped none))
        | v :: rest => some (s.pop i rest (.popped (some v)))
  | .pushTest v | .pushWoken v =>
      if s.locked then none
      else some (s.set i (if s.canPush mCapacity then .pushAfter v else .pushChecked v))
  | .pushChecked v => some (s.set i (.pushBlocked v))
  | .pushBlocked v => some (s.set i (.pushWoken v))
  | .pushAfter v =>
      if s.mShutdown then some (s.set i (.pushed false))
      else some ({ s with mQueue := s.mQueue ++ [v] }.set i .pushNotify)
  | .tryLoad v => some (s.set i (if s.mShutdown then .pushed false else .tryPush v))
  | .tryPush v =>
      if s.locked then none
      else if s.mShutdown || (decide (0 < mCapacity) && decide (mCapacity ≤ s.mQueue.length)) then
        some (s.set i (.pushed false))
      else some ({ s with mQueue := s.mQueue ++ [v] }.set i .pushNotify)
  | .pushNotify => (s.set i (.pushed true)).notifyOne Pc.isPopBlocked Pc.wakePop j
  | .shutdown =>
      if s.mShutdown then some (s.set i .down)
      else some ({ s with mShutdown := true }.set i .shutdownNotEmpty)
  | .shutdownNotEmpty => some ((s.set i .shutdownNotFull).notifyAll Pc.wakePop)
  | .shutdownNotFull => some ((s.set i .down).notifyAll Pc.wakePush)
  | .popped _ | .pushed _ | .down => none

/-- What happens next. -/
inductive Act (T : Type) where
  /-- A thread calls `Pop(-1)`. -/
  | pop
  /-- A thread calls `TryPop`. -/
  | tryPop
  /-- A thread calls `Push(v, -1)`. -/
  | push (v : T)
  /-- A thread calls `TryPush(v)`. -/
  | tryPush (v : T)
  /-- A thread calls `Shutdown`. -/
  | shutdown
  /-- The thread `i` takes its next step. -/
  | thread (i j : Nat)
  deriving DecidableEq, Repr

def Queue.begin (s : Queue T) (pc : Pc T) : Queue T := { s with threads := s.threads ++ [pc] }

/-- One step. -/
def step (mCapacity : Nat) (s : Queue T) : Act T → Option (Queue T)
  | .pop => some (s.begin (.tryPop true))
  | .tryPop => some (s.begin (.tryPop false))
  | .push v => some (s.begin (.pushTest v))
  | .tryPush v => some (s.begin (.tryLoad v))
  | .shutdown => some (s.begin .shutdown)
  | .thread i j =>
      match s.threads[i]? with
      | none => none
      | some pc => threadStep mCapacity s i j pc

/-! ## Nobody is left behind -/

namespace Pc

/-- The thread has found `hasItem` false, and has not been woken since. -/
@[simp] def popWaits : Pc T → Bool
  | popChecked | popBlocked => true
  | _ => false

/-- The thread has found `canPush` false, and has not been woken since. -/
@[simp] def pushWaits : Pc T → Bool
  | pushChecked _ | pushBlocked _ => true
  | _ => false

/-- The thread is about to notify `mNotEmptyCV`, after a push. -/
@[simp] def owesNotEmpty : Pc T → Bool
  | pushNotify => true
  | _ => false

/-- The thread is about to notify `mNotFullCV`, after a pop. -/
@[simp] def owesNotFull : Pc T → Bool
  | tryPopNotify _ | popNotify _ => true
  | _ => false

/-- The consumer was woken and is about to look at the queue, or is about to pop. -/
@[simp] def popAwake : Pc T → Bool
  | popWoken | popAfter => true
  | _ => false

/-- The producer was woken and is about to look at the queue, or is about to push. -/
@[simp] def pushAwake : Pc T → Bool
  | pushWoken _ | pushAfter _ => true
  | _ => false

/-- `Shutdown` is about to notify `mNotEmptyCV`. -/
@[simp] def isNotEmptyAll : Pc T → Bool
  | shutdownNotEmpty => true
  | _ => false

/-- `Shutdown` is about to notify `mNotFullCV`, or will be. -/
@[simp] def isNotFullAll : Pc T → Bool
  | shutdownNotEmpty | shutdownNotFull => true
  | _ => false

@[simp] def isDrain : Pc T → Bool
  | popDrain => true
  | _ => false

end Pc

/-- A thread that is blocked although its predicate is true has a notification to come.
For the items and the free places there are as many notifications to come, or given to
threads that are awake and have not looked yet. -/
structure Released (mCapacity : Nat) (s : Queue T) : Prop where
  popDown : 0 < s.threads.countP Pc.isPopBlocked → s.mShutdown = true →
    0 < s.threads.countP Pc.isNotEmptyAll
  popItem : 0 < s.threads.countP Pc.isPopBlocked → s.mShutdown = false →
    s.mQueue.length ≤ s.threads.countP Pc.owesNotEmpty + s.threads.countP Pc.popAwake
  pushDown : 0 < s.threads.countP Pc.isPushBlocked → s.mShutdown = true →
    0 < s.threads.countP Pc.isNotFullAll
  pushPlace : 0 < s.threads.countP Pc.isPushBlocked → s.mShutdown = false →
    mCapacity ≤ s.mQueue.length + s.threads.countP Pc.owesNotFull + s.threads.countP Pc.pushAwake

/-- `Shutdown` does not notify while a thread has found its predicate false and is about to
block. -/
def OutsideGap (s : Queue T) : Act T → Prop
  | .thread i _ => ∀ pc ∈ s.threads[i]?,
      (pc.isNotEmptyAll = true → s.threads.countP Pc.isPopChecked = 0) ∧
        (pc.isNotFullAll = true → pc.isNotEmptyAll = false →
          s.threads.countP Pc.isPushChecked = 0)
  | .pop | .tryPop | .push _ | .tryPush _ | .shutdown => True

instance (s : Queue T) : (a : Act T) → Decidable (OutsideGap s a)
  | .thread _ _ => inferInstanceAs (Decidable (∀ pc ∈ _, _))
  | .pop | .tryPop | .push _ | .tryPush _ | .shutdown => isTrue trivial

/-! ## The invariant -/

/-- The invariant of the runs without a lost notification.  `items` notifications of
`mNotEmptyCV` and `places` of `mNotFullCV` have left their threads and are on their way. -/
structure Inv (mCapacity items places : Nat) (s : Queue T) : Prop where
  /-- One thread has the mutex. -/
  one : s.threads.countP Pc.isPopChecked + s.threads.countP Pc.isPushChecked +
    s.threads.countP Pc.takes ≤ 1
  /-- While a consumer is about to block there is no item. -/
  popGap : 0 < s.threads.countP Pc.isPopChecked → s.mQueue.length = 0
  /-- While a producer is about to block there is no place. -/
  pushGap : 0 < s.threads.countP Pc.isPushChecked → mCapacity ≤ s.mQueue.length
  drain : 0 < s.threads.countP Pc.isDrain → s.mShutdown = true
  down : 0 < s.threads.countP Pc.isNotFullAll → s.mShutdown = true
  /-- One call of `Shutdown` sets the flag. -/
  once : s.threads.countP Pc.isNotFullAll ≤ 1
  popDown : 0 < s.threads.countP Pc.popWaits → s.mShutdown = true →
    0 < s.threads.countP Pc.isNotEmptyAll
  popItem : 0 < s.threads.countP Pc.popWaits → s.mShutdown = false →
    s.mQueue.length ≤
      s.threads.countP Pc.owesNotEmpty + s.threads.countP Pc.popAwake + items
  pushDown : 0 < s.threads.countP Pc.pushWaits → s.mShutdown = true →
    0 < s.threads.countP Pc.isNotFullAll
  pushPlace : 0 < s.threads.countP Pc.pushWaits → s.mShutdown = false →
    mCapacity ≤ s.mQueue.length +
      (s.threads.countP Pc.owesNotFull + s.threads.countP Pc.pushAwake + places)

theorem inv_init (mCapacity : Nat) : Inv mCapacity 0 0 ({} : Queue T) := by
  constructor <;> simp

/-- What changes in the counters when one thread moves. -/
structure Moved (ts ts' : List (Pc T)) (pc pc' : Pc T) : Prop where
  popChecked : ts'.countP Pc.isPopChecked + pc.isPopChecked.toNat =
    ts.countP Pc.isPopChecked + pc'.isPopChecked.toNat
  pushChecked : ts'.countP Pc.isPushChecked + pc.isPushChecked.toNat =
    ts.countP Pc.isPushChecked + pc'.isPushChecked.toNat
  takes : ts'.countP Pc.takes + pc.takes.toNat = ts.countP Pc.takes + pc'.takes.toNat
  drain : ts'.countP Pc.isDrain + pc.isDrain.toNat = ts.countP Pc.isDrain + pc'.isDrain.toNat
  popWaits : ts'.countP Pc.popWaits + pc.popWaits.toNat = ts.countP Pc.popWaits + pc'.popWaits.toNat
  pushWaits : ts'.countP Pc.pushWaits + pc.pushWaits.toNat =
    ts.countP Pc.pushWaits + pc'.pushWaits.toNat
  owesNotEmpty : ts'.countP Pc.owesNotEmpty + pc.owesNotEmpty.toNat =
    ts.countP Pc.owesNotEmpty + pc'.owesNotEmpty.toNat
  owesNotFull : ts'.countP Pc.owesNotFull + pc.owesNotFull.toNat =
    ts.countP Pc.owesNotFull + pc'.owesNotFull.toNat
  popAwake : ts'.countP Pc.popAwake + pc.popAwake.toNat = ts.countP Pc.popAwake + pc'.popAwake.toNat
  pushAwake : ts'.countP Pc.pushAwake + pc.pushAwake.toNat =
    ts.countP Pc.pushAwake + pc'.pushAwake.toNat
  notEmptyAll : ts'.countP Pc.isNotEmptyAll + pc.isNotEmptyAll.toNat =
    ts.countP Pc.isNotEmptyAll + pc'.isNotEmptyAll.toNat
  notFullAll : ts'.countP Pc.isNotFullAll + pc.isNotFullAll.toNat =
    ts.countP Pc.isNotFullAll + pc'.isNotFullAll.toNat

theorem moved_set {ts : List (Pc T)} {i : Nat} {pc : Pc T} (hi : ts[i]? = some pc) (pc' : Pc T) :
    Moved ts (ts.set i pc') pc pc' := by
  constructor <;> exact Tally.countP_set _ pc' hi

section
variable {mCapacity items places items' places' : Nat} {s s' : Queue T} {i j : Nat}

/-- Nobody has the mutex. -/
theorem unlocked (h : s.locked = false) : s.threads.countP Pc.isPopChecked = 0 ∧
    s.threads.countP Pc.isPushChecked = 0 ∧ s.threads.countP Pc.takes = 0 := by
  simp only [Queue.locked, List.any_eq_false, Pc.locks, Bool.or_eq_true, not_or] at h
  refine ⟨?_, ?_, ?_⟩
  · exact List.countP_eq_zero.mpr fun pc hpc => (h pc hpc).1.1
  · exact List.countP_eq_zero.mpr fun pc hpc => (h pc hpc).1.2
  · exact List.countP_eq_zero.mpr fun pc hpc => (h pc hpc).2

theorem eq_true_of_toNat {b : Bool} (h : 0 < b.toNat) : b = true := by
  cases b with
  | false => exact absurd h (lt_irrefl 0)
  | true => rfl

/-- 1 if the thread has the mutex. -/
def Pc.hold (pc : Pc T) : Nat := pc.isPopChecked.toNat + pc.isPushChecked.toNat + pc.takes.toNat

theorem Pc.hold_le (pc : Pc T) : pc.hold ≤ 1 := by
  cases pc <;> first | exact Nat.zero_le 1 | exact Nat.le_refl 1

/-- What a move must not do to the counters of the waits. -/
structure Pc.Keeps (mShutdown : Bool) (pc pc' : Pc T) : Prop where
  popWaits : pc'.popWaits.toNat ≤ pc.popWaits.toNat + pc'.isPopChecked.toNat
  pushWaits : pc'.pushWaits.toNat ≤ pc.pushWaits.toNat + pc'.isPushChecked.toNat
  notEmptyAll : pc.isNotEmptyAll.toNat ≤ pc'.isNotEmptyAll.toNat
  notFullAll : pc.isNotFullAll.toNat ≤ pc'.isNotFullAll.toNat
  drain : 0 < pc'.isDrain.toNat → mShutdown = true
  down : pc'.isNotFullAll.toNat ≤ pc.isNotFullAll.toNat

/-- A thread moves, and the queue and the flag stay. -/
theorem Inv.quiet (h : Inv mCapacity items places s) {pc : Pc T} (hi : s.threads[i]? = some pc)
    (pc' : Pc T) (hkeeps : pc.Keeps s.mShutdown pc') (hlock : pc'.hold ≤ pc.hold ∨ s.locked = false)
    (hpopGap : pc'.isPopChecked = true → s.mShutdown = false ∧ s.mQueue.length = 0)
    (hpushGap : pc'.isPushChecked = true → s.mShutdown = false ∧ mCapacity ≤ s.mQueue.length)
    (hpop : s.mShutdown = true ∨ s.mQueue.length = 0 ∨
      pc.owesNotEmpty.toNat + pc.popAwake.toNat + items ≤
        pc'.owesNotEmpty.toNat + pc'.popAwake.toNat + items')
    (hpush : s.mShutdown = true ∨ mCapacity ≤ s.mQueue.length ∨
      pc.owesNotFull.toNat + pc.pushAwake.toNat + places ≤
        pc'.owesNotFull.toNat + pc'.pushAwake.toNat + places') :
    Inv mCapacity items' places' (s.set i pc') := by
  have hm := moved_set hi pc'
  have hpopDown : s.mShutdown = true → pc'.isPopChecked.toNat = 0 := by
    intro hb
    cases hc : pc'.isPopChecked with
    | false => rfl
    | true => exact absurd hb (by simp [(hpopGap hc).1])
  have hpushDown : s.mShutdown = true → pc'.isPushChecked.toNat = 0 := by
    intro hb
    cases hc : pc'.isPushChecked with
    | false => rfl
    | true => exact absurd hb (by simp [(hpushGap hc).1])
  have hpopLen : 0 < pc'.isPopChecked.toNat → s.mQueue.length = 0 := fun hp =>
    (hpopGap (eq_true_of_toNat hp)).2
  have hpushLen : 0 < pc'.isPushChecked.toNat → mCapacity ≤ s.mQueue.length := fun hp =>
    (hpushGap (eq_true_of_toNat hp)).2
  have hwaits := hkeeps.popWaits
  have hwaits' := hkeeps.pushWaits
  refine ⟨?_, ?_, ?_, ?_, ?_, ?_, fun hpos hb => ?_, fun hpos hb => ?_, fun hpos hb => ?_,
    fun hpos hb => ?_⟩ <;> simp only [Queue.set] at *
  · have hone := h.one
    have hle := pc'.hold_le
    have h1 := hm.popChecked
    have h2 := hm.pushChecked
    have h3 := hm.takes
    simp only [Pc.hold] at hlock hle
    rcases hlock with hlock | hfree
    · omega
    · obtain ⟨f1, f2, f3⟩ := unlocked hfree
      omega
  · have hold := h.popGap
    have h1 := hm.popChecked
    omega
  · have hold := h.pushGap
    have h2 := hm.pushChecked
    omega
  · intro hpos
    rcases Nat.eq_zero_or_pos pc'.isDrain.toNat with hz | hp
    · have h4 := hm.drain
      exact h.drain (by omega)
    · exact hkeeps.drain hp
  · intro hpos
    have h12 := hm.notFullAll
    have hkeep := hkeeps.down
    exact h.down (by omega)
  · have h12 := hm.notFullAll
    have hkeep := hkeeps.down
    have hold := h.once
    omega
  · have hold := fun hw => h.popDown hw hb
    have h5 := hm.popWaits
    have h11 := hm.notEmptyAll
    have hkeep := hkeeps.notEmptyAll
    have hno := hpopDown hb
    omega
  · have hold := fun hw => h.popItem hw hb
    have h5 := hm.popWaits
    have h7 := hm.owesNotEmpty
    have h9 := hm.popAwake
    have hcount := hpop.resolve_left (by simp [hb])
    omega
  · have hold := fun hw => h.pushDown hw hb
    have h6 := hm.pushWaits
    have h12 := hm.notFullAll
    have hkeep := hkeeps.notFullAll
    have hno := hpushDown hb
    omega
  · have hold := fun hw => h.pushPlace hw hb
    have h6 := hm.pushWaits
    have h8 := hm.owesNotFull
    have h10 := hm.pushAwake
    have hcount := hpush.resolve_left (by simp [hb])
    omega

/-- A thread that has the mutex, or takes it, changes the queue. -/
theorem Inv.change (h : Inv mCapacity items places s) {pc : Pc T}
    (hi : s.threads[i]? = some pc) (pc' : Pc T) (mQueue : List T)
    (hkeeps : pc.Keeps s.mShutdown pc')
    (hlock : (pc.takes = true ∧ pc'.takes = false) ∨ s.locked = false)
    (hnot : pc'.isPopChecked = false ∧ pc'.isPushChecked = false)
    (hpop : s.mShutdown = true ∨ mQueue.length + pc.owesNotEmpty.toNat + pc.popAwake.toNat ≤
      s.mQueue.length + pc'.owesNotEmpty.toNat + pc'.popAwake.toNat)
    (hpush : s.mShutdown = true ∨ s.mQueue.length + pc.owesNotFull.toNat + pc.pushAwake.toNat ≤
      mQueue.length + pc'.owesNotFull.toNat + pc'.pushAwake.toNat) :
    Inv mCapacity items places ({ s with mQueue := mQueue }.set i pc') := by
  have hm := moved_set hi pc'
  -- Nobody is about to block.
  have hnobody : s.threads.countP Pc.isPopChecked = 0 ∧ s.threads.countP Pc.isPushChecked = 0 ∧
      s.threads.countP Pc.takes = pc.takes.toNat := by
    rcases hlock with ⟨htakes, -⟩ | hfree
    · have hone := h.one
      have hpos := Tally.toNat_le_countP Pc.takes hi
      rw [htakes, Bool.toNat_true] at hpos ⊢
      omega
    · obtain ⟨f1, f2, f3⟩ := unlocked hfree
      have hpos := Tally.toNat_le_countP Pc.takes hi
      omega
  have hle := pc'.hold_le
  have hwaits := hkeeps.popWaits
  have hwaits' := hkeeps.pushWaits
  simp only [Pc.hold, hnot, Bool.toNat_false] at hle hwaits hwaits'
  refine ⟨?_, ?_, ?_, ?_, ?_, ?_, fun hpos hb => ?_, fun hpos hb => ?_, fun hpos hb => ?_,
    fun hpos hb => ?_⟩ <;> simp only [Queue.set] at *
  · have h1 := hm.popChecked
    have h2 := hm.pushChecked
    have h3 := hm.takes
    simp only [hnot, Bool.toNat_false] at h1 h2
    omega
  · have h1 := hm.popChecked
    simp only [hnot, Bool.toNat_false] at h1
    omega
  · have h2 := hm.pushChecked
    simp only [hnot, Bool.toNat_false] at h2
    omega
  · intro hpos
    rcases Nat.eq_zero_or_pos pc'.isDrain.toNat with hz | hp
    · have h4 := hm.drain
      exact h.drain (by omega)
    · exact hkeeps.drain hp
  · intro hpos
    have h12 := hm.notFullAll
    have hkeep := hkeeps.down
    exact h.down (by omega)
  · have h12 := hm.notFullAll
    have hkeep := hkeeps.down
    have hold := h.once
    omega
  · have hold := fun hw => h.popDown hw hb
    have h5 := hm.popWaits
    have h11 := hm.notEmptyAll
    have hkeep := hkeeps.notEmptyAll
    omega
  · have hold := fun hw => h.popItem hw hb
    have h5 := hm.popWaits
    have h7 := hm.owesNotEmpty
    have h9 := hm.popAwake
    have hcount := hpop.resolve_left (by simp [hb])
    omega
  · have hold := fun hw => h.pushDown hw hb
    have h6 := hm.pushWaits
    have h12 := hm.notFullAll
    have hkeep := hkeeps.notFullAll
    omega
  · have hold := fun hw => h.pushPlace hw hb
    have h6 := hm.pushWaits
    have h8 := hm.owesNotFull
    have h10 := hm.pushAwake
    have hcount := hpush.resolve_left (by simp [hb])
    omega

/-- Who waits for an item is about to block or blocked. -/
theorem countP_popWaits (ts : List (Pc T)) :
    ts.countP Pc.popWaits = ts.countP Pc.isPopChecked + ts.countP Pc.isPopBlocked := by
  induction ts with
  | nil => rfl
  | cons pc ts ih =>
      simp only [Tally.countP_cons_toNat, ih]
      cases pc <;> simp only [Pc.popWaits, Pc.isPopChecked, Pc.isPopBlocked, Bool.toNat_false,
        Bool.toNat_true] <;> omega

/-- Who waits for a place is about to block or blocked. -/
theorem countP_pushWaits (ts : List (Pc T)) :
    ts.countP Pc.pushWaits = ts.countP Pc.isPushChecked + ts.countP Pc.isPushBlocked := by
  induction ts with
  | nil => rfl
  | cons pc ts ih =>
      simp only [Tally.countP_cons_toNat, ih]
      cases pc <;> simp only [Pc.pushWaits, Pc.isPushChecked, Pc.isPushBlocked, Bool.toNat_false,
        Bool.toNat_true] <;> omega

/-- A notification that wakes nobody, or one blocked thread. -/
theorem notifyOne_cases {blocked : Pc T → Bool} {wake : Pc T → Pc T}
    (hs : s.notifyOne blocked wake j = some s') :
    (s' = s ∧ s.threads.countP blocked = 0) ∨
      ∃ pc, s.threads[j]? = some pc ∧ blocked pc = true ∧ s' = s.set j (wake pc) := by
  simp only [Queue.notifyOne] at hs
  split at hs
  · split at hs
    · cases hs
    next pc hj =>
      split at hs
      next hblocked =>
        cases hs
        exact .inr ⟨pc, hj, hblocked, rfl⟩
      · cases hs
  next hnone =>
    cases hs
    refine .inl ⟨rfl, List.countP_eq_zero.mpr fun pc hpc => ?_⟩
    exact fun hb => hnone (List.any_eq_true.mpr ⟨pc, hpc, hb⟩)

/-- A notification of `mNotEmptyCV` arrives. -/
theorem Inv.notifyNotEmpty (h : Inv mCapacity 1 places s)
    (hs : s.notifyOne Pc.isPopBlocked Pc.wakePop j = some s') : Inv mCapacity 0 places s' := by
  rcases notifyOne_cases hs with ⟨rfl, hnone⟩ | ⟨pc, hj, hblocked, rfl⟩
  · -- Who waits is about to block, and there is no item.
    refine ⟨h.one, h.popGap, h.pushGap, h.drain, h.down, h.once, h.popDown, fun hpos hb => ?_,
      h.pushDown, h.pushPlace⟩
    rw [countP_popWaits, hnone] at hpos
    have hgap := h.popGap hpos
    omega
  · cases pc with
    | popBlocked =>
        exact h.quiet hj .popWoken (by constructor <;> simp) (.inl (Nat.zero_le _)) (by simp)
          (by simp) (.inr (.inr (by simp))) (.inr (.inr (by simp)))
    | _ => cases hblocked

/-- A notification of `mNotFullCV` arrives. -/
theorem Inv.notifyNotFull (h : Inv mCapacity items 1 s)
    (hs : s.notifyOne Pc.isPushBlocked Pc.wakePush j = some s') : Inv mCapacity items 0 s' := by
  rcases notifyOne_cases hs with ⟨rfl, hnone⟩ | ⟨pc, hj, hblocked, rfl⟩
  · -- Who waits is about to block, and there is no place.
    refine ⟨h.one, h.popGap, h.pushGap, h.drain, h.down, h.once, h.popDown, h.popItem, h.pushDown,
      fun hpos hb => ?_⟩
    rw [countP_pushWaits, hnone] at hpos
    have hgap := h.pushGap hpos
    omega
  · cases pc with
    | pushBlocked v =>
        exact h.quiet hj (.pushWoken v) (by constructor <;> simp) (.inl (Nat.zero_le _)) (by simp)
          (by simp) (.inr (.inr (by simp))) (.inr (.inr (by simp)))
    | _ => cases hblocked

/-- The flag is set, and both notifications of `Shutdown` are to come. -/
theorem Inv.swap (h : Inv mCapacity 0 0 s) (hi : s.threads[i]? = some .shutdown)
    (hup : s.mShutdown = false) :
    Inv mCapacity 0 0 ({ s with mShutdown := true }.set i .shutdownNotEmpty) := by
  have hm := moved_set hi .shutdownNotEmpty
  have hone := h.one
  have hpopGap := h.popGap
  have hpushGap := h.pushGap
  have h1 := hm.popChecked
  have h2 := hm.pushChecked
  have h3 := hm.takes
  have h11 := hm.notEmptyAll
  have h12 := hm.notFullAll
  simp only [Pc.isPopChecked, Pc.isPushChecked, Pc.takes, Pc.isNotEmptyAll, Pc.isNotFullAll,
    Bool.toNat_false, Bool.toNat_true, Nat.add_zero] at h1 h2 h3 h11 h12
  have hnone : s.threads.countP Pc.isNotFullAll = 0 :=
    Nat.eq_zero_of_not_pos fun hpos => absurd (h.down hpos) (by simp [hup])
  refine ⟨?_, ?_, ?_, fun _ => rfl, fun _ => rfl, ?_, fun _ _ => ?_, fun _ hb => ?_, fun _ _ => ?_,
    fun _ hb => ?_⟩
  all_goals simp only [Queue.set] at *
  · omega
  · omega
  · omega
  · omega
  · omega
  · cases hb
  · omega
  · cases hb

/-- What `notify_all` of `mNotEmptyCV` changes in the counters. -/
theorem countP_wakePop {p q : Pc T → Bool} (h : ∀ pc, p pc.wakePop = q pc) (ts : List (Pc T)) :
    (ts.map Pc.wakePop).countP p = ts.countP q := by
  rw [List.countP_map]
  exact List.countP_congr fun pc _ => by rw [Function.comp_apply, h]

/-- What `notify_all` of `mNotFullCV` changes in the counters. -/
theorem countP_wakePush {p q : Pc T → Bool} (h : ∀ pc, p pc.wakePush = q pc) (ts : List (Pc T)) :
    (ts.map Pc.wakePush).countP p = ts.countP q := by
  rw [List.countP_map]
  exact List.countP_congr fun pc _ => by rw [Function.comp_apply, h]

/-- `Shutdown` notifies `mNotEmptyCV` while nobody is about to block on it. -/
theorem Inv.notEmptyAll (h : Inv mCapacity 0 0 s) (hi : s.threads[i]? = some .shutdownNotEmpty)
    (hgap : s.threads.countP Pc.isPopChecked = 0) :
    Inv mCapacity 0 0 ((s.set i .shutdownNotFull).notifyAll Pc.wakePop) := by
  have hm := moved_set hi .shutdownNotFull
  have hdown : s.mShutdown = true :=
    h.down (lt_of_lt_of_le Nat.one_pos (Tally.toNat_le_countP Pc.isNotFullAll hi))
  have hone := h.one
  have honce := h.once
  have hpushGap := h.pushGap
  have hpushDown := fun hw => h.pushDown hw hdown
  have h1 := hm.popChecked
  have h2 := hm.pushChecked
  have h3 := hm.takes
  have h6 := hm.pushWaits
  have h12 := hm.notFullAll
  simp only [Pc.isPopChecked, Pc.isPushChecked, Pc.takes, Pc.pushWaits, Pc.isNotFullAll,
    Bool.toNat_false, Bool.toNat_true, Nat.add_zero] at h1 h2 h3 h6 h12
  have w1 := countP_wakePop (T := T) (p := Pc.isPopChecked) fun pc => by cases pc <;> rfl
  have w2 := countP_wakePop (T := T) (p := Pc.isPushChecked) fun pc => by cases pc <;> rfl
  have w3 := countP_wakePop (T := T) (p := Pc.takes) fun pc => by cases pc <;> rfl
  have w5 : ∀ ts : List (Pc T), (ts.map Pc.wakePop).countP Pc.popWaits =
      ts.countP Pc.isPopChecked := countP_wakePop fun pc => by cases pc <;> rfl
  have w6 := countP_wakePop (T := T) (p := Pc.pushWaits) fun pc => by cases pc <;> rfl
  have w12 := countP_wakePop (T := T) (p := Pc.isNotFullAll) fun pc => by cases pc <;> rfl
  refine ⟨?_, ?_, ?_, fun _ => hdown, fun _ => hdown, ?_, fun hpos _ => ?_, fun _ hb => ?_,
    fun hpos _ => ?_, fun _ hb => ?_⟩
  all_goals simp only [Queue.set, Queue.notifyAll, w1, w2, w3, w5, w6, w12] at *
  · omega
  · omega
  · omega
  · omega
  · omega
  · exact absurd hdown (by simp [hb])
  · omega
  · exact absurd hdown (by simp [hb])

/-- `Shutdown` notifies `mNotFullCV` while nobody is about to block on it. -/
theorem Inv.notFullAll (h : Inv mCapacity 0 0 s) (hi : s.threads[i]? = some .shutdownNotFull)
    (hgap : s.threads.countP Pc.isPushChecked = 0) :
    Inv mCapacity 0 0 ((s.set i .down).notifyAll Pc.wakePush) := by
  have hm := moved_set hi .down
  have hdown : s.mShutdown = true :=
    h.down (lt_of_lt_of_le Nat.one_pos (Tally.toNat_le_countP Pc.isNotFullAll hi))
  have hone := h.one
  have honce := h.once
  have hpopGap := h.popGap
  have hpopDown := fun hw => h.popDown hw hdown
  have h1 := hm.popChecked
  have h2 := hm.pushChecked
  have h3 := hm.takes
  have h5 := hm.popWaits
  have h11 := hm.notEmptyAll
  have h12 := hm.notFullAll
  simp only [Pc.isPopChecked, Pc.isPushChecked, Pc.takes, Pc.popWaits, Pc.isNotEmptyAll,
    Pc.isNotFullAll, Bool.toNat_false, Bool.toNat_true, Nat.add_zero] at h1 h2 h3 h5 h11 h12
  have w1 := countP_wakePush (T := T) (p := Pc.isPopChecked) fun pc => by cases pc <;> rfl
  have w2 := countP_wakePush (T := T) (p := Pc.isPushChecked) fun pc => by cases pc <;> rfl
  have w3 := countP_wakePush (T := T) (p := Pc.takes) fun pc => by cases pc <;> rfl
  have w5 := countP_wakePush (T := T) (p := Pc.popWaits) fun pc => by cases pc <;> rfl
  have w6 : ∀ ts : List (Pc T), (ts.map Pc.wakePush).countP Pc.pushWaits =
      ts.countP Pc.isPushChecked := countP_wakePush fun pc => by cases pc <;> rfl
  have w11 := countP_wakePush (T := T) (p := Pc.isNotEmptyAll) fun pc => by cases pc <;> rfl
  have w12 := countP_wakePush (T := T) (p := Pc.isNotFullAll) fun pc => by cases pc <;> rfl
  refine ⟨?_, ?_, ?_, fun _ => hdown, fun _ => hdown, ?_, fun hpos _ => ?_, fun _ hb => ?_,
    fun hpos _ => ?_, fun _ hb => ?_⟩
  all_goals simp only [Queue.set, Queue.notifyAll, w1, w2, w3, w5, w6, w11, w12] at *
  · omega
  · omega
  · omega
  · omega
  · omega
  · exact absurd hdown (by simp [hb])
  · omega
  · exact absurd hdown (by simp [hb])

/-- A consumer takes the mutex and evaluates `hasItem`. -/
theorem Inv.popLook (h : Inv mCapacity 0 0 s) {pc : Pc T} (hi : s.threads[i]? = some pc)
    (hpc : pc = .popTest ∨ pc = .popWoken) (hfree : s.locked = false) :
    Inv mCapacity 0 0 (s.set i (if s.hasItem then .popAfter else .popChecked)) := by
  cases hitem : s.hasItem with
  | true =>
      rw [if_pos rfl]
      rcases hpc with rfl | rfl
      · exact h.quiet hi .popAfter (by constructor <;> simp) (.inr hfree) (by simp) (by simp)
          (.inr (.inr (by simp))) (.inr (.inr (by simp)))
      · exact h.quiet hi .popAfter (by constructor <;> simp) (.inr hfree) (by simp) (by simp)
          (.inr (.inr (by simp))) (.inr (.inr (by simp)))
  | false =>
      simp only [Queue.hasItem, Bool.or_eq_false_iff, Bool.not_eq_false', List.isEmpty_iff] at hitem
      obtain ⟨hup, hq⟩ := hitem
      have hempty : s.mQueue.length = 0 := by rw [hq, List.length_nil]
      rw [if_neg Bool.false_ne_true]
      rcases hpc with rfl | rfl
      · exact h.quiet hi .popChecked (by constructor <;> simp) (.inr hfree)
          (fun _ => ⟨hup, hempty⟩) (by simp) (.inr (.inl hempty)) (.inr (.inr (by simp)))
      · exact h.quiet hi .popChecked (by constructor <;> simp) (.inr hfree)
          (fun _ => ⟨hup, hempty⟩) (by simp) (.inr (.inl hempty)) (.inr (.inr (by simp)))

/-- A producer takes the mutex and evaluates `canPush`. -/
theorem Inv.pushLook (h : Inv mCapacity 0 0 s) {pc : Pc T} {v : T} (hi : s.threads[i]? = some pc)
    (hpc : pc = .pushTest v ∨ pc = .pushWoken v) (hfree : s.locked = false) :
    Inv mCapacity 0 0
      (s.set i (if s.canPush mCapacity then .pushAfter v else .pushChecked v)) := by
  cases hplace : s.canPush mCapacity with
  | true =>
      rw [if_pos rfl]
      rcases hpc with rfl | rfl
      · exact h.quiet hi (.pushAfter v) (by constructor <;> simp) (.inr hfree) (by simp) (by simp)
          (.inr (.inr (by simp))) (.inr (.inr (by simp)))
      · exact h.quiet hi (.pushAfter v) (by constructor <;> simp) (.inr hfree) (by simp) (by simp)
          (.inr (.inr (by simp))) (.inr (.inr (by simp)))
  | false =>
      simp only [Queue.canPush, Bool.or_eq_false_iff, decide_eq_false_iff_not, not_lt] at hplace
      obtain ⟨⟨hup, -⟩, hfull⟩ := hplace
      rw [if_neg Bool.false_ne_true]
      rcases hpc with rfl | rfl
      · exact h.quiet hi (.pushChecked v) (by constructor <;> simp) (.inr hfree) (by simp)
          (fun _ => ⟨hup, hfull⟩) (.inr (.inr (by simp))) (.inr (.inl hfull))
      · exact h.quiet hi (.pushChecked v) (by constructor <;> simp) (.inr hfree) (by simp)
          (fun _ => ⟨hup, hfull⟩) (.inr (.inr (by simp))) (.inr (.inl hfull))

/-- A call begins. -/
theorem Inv.begin (h : Inv mCapacity 0 0 s) (pc : Pc T)
    (hpc : ∀ p ∈ [Pc.isPopChecked, Pc.isPushChecked, Pc.takes, Pc.isDrain, Pc.popWaits,
      Pc.pushWaits, Pc.isNotFullAll], p pc = false) : Inv mCapacity 0 0 (s.begin pc) := by
  have hsame : ∀ p : Pc T → Bool, p pc = false →
      (s.threads ++ [pc]).countP p = s.threads.countP p := fun p hp => by
    rw [Tally.countP_concat, hp, Bool.toNat_false, Nat.add_zero]
  have hmono : ∀ p : Pc T → Bool, s.threads.countP p ≤ (s.threads ++ [pc]).countP p := fun p => by
    rw [Tally.countP_concat]
    exact Nat.le_add_right ..
  simp only [List.forall_mem_cons] at hpc
  obtain ⟨c1, c2, c3, c4, c5, c6, c12, -⟩ := hpc
  have m7 := hmono Pc.owesNotEmpty
  have m8 := hmono Pc.owesNotFull
  have m9 := hmono Pc.popAwake
  have m10 := hmono Pc.pushAwake
  refine ⟨?_, ?_, ?_, ?_, ?_, ?_, fun hpos hb => ?_, fun hpos hb => ?_, fun hpos hb => ?_,
    fun hpos hb => ?_⟩
  all_goals simp only [Queue.begin, hsame _ c1, hsame _ c2, hsame _ c3, hsame _ c4, hsame _ c5,
    hsame _ c6, hsame _ c12] at *
  · exact h.one
  · exact h.popGap
  · exact h.pushGap
  · exact h.drain
  · exact h.down
  · exact h.once
  · exact lt_of_lt_of_le (h.popDown hpos hb) (hmono _)
  · have hold := h.popItem hpos hb
    omega
  · exact h.pushDown hpos hb
  · have hold := h.pushPlace hpos hb
    omega

theorem Inv.threadStep (h : Inv mCapacity 0 0 s) {pc : Pc T} (hi : s.threads[i]? = some pc)
    (hgap : (pc.isNotEmptyAll = true → s.threads.countP Pc.isPopChecked = 0) ∧
      (pc.isNotFullAll = true → pc.isNotEmptyAll = false → s.threads.countP Pc.isPushChecked = 0))
    (hs : QueueWaits.threadStep mCapacity s i j pc = some s') : Inv mCapacity 0 0 s' := by
  cases pc with
  | tryPop wait =>
      simp only [QueueWaits.threadStep] at hs
      split at hs
      · cases hs
      next hfree =>
        split at hs
        · cases hs
          cases wait <;> exact h.quiet hi _ (by constructor <;> simp) (.inl (Nat.zero_le _))
            (by simp) (by simp) (.inr (.inr (by simp))) (.inr (.inr (by simp)))
        next v rest hq =>
          cases hs
          exact h.change hi (.tryPopNotify v) rest (by constructor <;> simp)
            (.inr (by simpa using hfree)) (by simp) (.inr (by simp [hq])) (.inr (by simp [hq]))
  | tryPopNotify v =>
      have hleft : Inv mCapacity 0 1 (s.set i (.popped (some v))) :=
        h.quiet hi _ (by constructor <;> simp) (.inl (Nat.zero_le _)) (by simp) (by simp)
          (.inr (.inr (by simp))) (.inr (.inr (by simp)))
      exact hleft.notifyNotFull hs
  | popLoop =>
      simp only [QueueWaits.threadStep, Option.some.injEq] at hs
      subst hs
      split
      next hdown =>
        exact h.quiet hi .popDrain (by constructor <;> simp [hdown]) (.inl (Nat.zero_le _))
          (by simp) (by simp) (.inl hdown) (.inl hdown)
      · exact h.quiet hi .popTest (by constructor <;> simp) (.inl (Nat.zero_le _)) (by simp)
          (by simp) (.inr (.inr (by simp))) (.inr (.inr (by simp)))
  | popTest =>
      simp only [QueueWaits.threadStep] at hs
      split at hs
      · cases hs
      next hfree =>
        cases hs
        exact h.popLook hi (.inl rfl) (by simpa using hfree)
  | popChecked =>
      cases hs
      exact h.quiet hi .popBlocked (by constructor <;> simp) (.inl (Nat.zero_le _)) (by simp)
        (by simp) (.inr (.inr (by simp))) (.inr (.inr (by simp)))
  | popBlocked =>
      cases hs
      exact h.quiet hi .popWoken (by constructor <;> simp) (.inl (Nat.zero_le _)) (by simp)
        (by simp) (.inr (.inr (by simp))) (.inr (.inr (by simp)))
  | popWoken =>
      simp only [QueueWaits.threadStep] at hs
      split at hs
      · cases hs
      next hfree =>
        cases hs
        exact h.popLook hi (.inr rfl) (by simpa using hfree)
  | popAfter =>
      simp only [QueueWaits.threadStep] at hs
      split at hs
      next hdown =>
        cases hs
        exact h.quiet hi .popDrain (by constructor <;> simp [hdown]) (.inl (Nat.zero_le _))
          (by simp) (by simp) (.inl hdown) (.inl hdown)
      · split at hs
        next hq =>
          cases hs
          exact h.quiet hi .popLoop (by constructor <;> simp) (.inl (Nat.zero_le _)) (by simp)
            (by simp) (.inr (.inl (by simp [hq]))) (.inr (.inr (by simp)))
        next v rest hq =>
          cases hs
          exact h.change hi (.popNotify v) rest (by constructor <;> simp) (.inl ⟨rfl, rfl⟩)
            (by simp) (.inr (by simp [hq])) (.inr (by simp [hq]))
  | popNotify v =>
      have hleft : Inv mCapacity 0 1 (s.set i (.popped (some v))) :=
        h.quiet hi _ (by constructor <;> simp) (.inl (Nat.zero_le _)) (by simp) (by simp)
          (.inr (.inr (by simp))) (.inr (.inr (by simp)))
      exact hleft.notifyNotFull hs
  | popDrain =>
      -- The drain begins after `Shutdown` has set the flag, and then no producer waits for it.
      have hdown : s.mShutdown = true :=
        h.drain (lt_of_lt_of_le Nat.one_pos (Tally.toNat_le_countP Pc.isDrain hi))
      simp only [QueueWaits.threadStep] at hs
      split at hs
      · cases hs
      next hfree =>
        split at hs
        · cases hs
          exact h.quiet hi _ (by constructor <;> simp) (.inl (Nat.zero_le _)) (by simp) (by simp)
            (.inl hdown) (.inl hdown)
        next v rest hq =>
          cases hs
          exact h.change hi _ rest (by constructor <;> simp) (.inr (by simpa using hfree))
            (by simp) (.inl hdown) (.inl hdown)
  | popped r => cases hs
  | pushTest v =>
      simp only [QueueWaits.threadStep] at hs
      split at hs
      · cases hs
      next hfree =>
        cases hs
        exact h.pushLook hi (.inl rfl) (by simpa using hfree)
  | pushChecked v =>
      cases hs
      exact h.quiet hi (.pushBlocked v) (by constructor <;> simp) (.inl (Nat.zero_le _)) (by simp)
        (by simp) (.inr (.inr (by simp))) (.inr (.inr (by simp)))
  | pushBlocked v =>
      cases hs
      exact h.quiet hi (.pushWoken v) (by constructor <;> simp) (.inl (Nat.zero_le _)) (by simp)
        (by simp) (.inr (.inr (by simp))) (.inr (.inr (by simp)))
  | pushWoken v =>
      simp only [QueueWaits.threadStep] at hs
      split at hs
      · cases hs
      next hfree =>
        cases hs
        exact h.pushLook hi (.inr rfl) (by simpa using hfree)
  | pushAfter v =>
      simp only [QueueWaits.threadStep] at hs
      split at hs
      next hdown =>
        cases hs
        exact h.quiet hi (.pushed false) (by constructor <;> simp) (.inl (Nat.zero_le _))
          (by simp) (by simp) (.inl hdown) (.inl hdown)
      · cases hs
        exact h.change hi .pushNotify _ (by constructor <;> simp) (.inl ⟨rfl, rfl⟩) (by simp)
          (.inr (by simp)) (.inr (by simp))
  | tryLoad v =>
      simp only [QueueWaits.threadStep, Option.some.injEq] at hs
      subst hs
      split
      · exact h.quiet hi (.pushed false) (by constructor <;> simp) (.inl (Nat.zero_le _))
          (by simp) (by simp) (.inr (.inr (by simp))) (.inr (.inr (by simp)))
      · exact h.quiet hi (.tryPush v) (by constructor <;> simp) (.inl (Nat.zero_le _))
          (by simp) (by simp) (.inr (.inr (by simp))) (.inr (.inr (by simp)))
  | tryPush v =>
      simp only [QueueWaits.threadStep] at hs
      split at hs
      · cases hs
      next hfree =>
        split at hs
        · cases hs
          exact h.quiet hi (.pushed false) (by constructor <;> simp) (.inl (Nat.zero_le _))
            (by simp) (by simp) (.inr (.inr (by simp))) (.inr (.inr (by simp)))
        · cases hs
          exact h.change hi .pushNotify _ (by constructor <;> simp) (.inr (by simpa using hfree))
            (by simp) (.inr (by simp)) (.inr (by simp))
  | pushNotify =>
      have hleft : Inv mCapacity 1 0 (s.set i (.pushed true)) :=
        h.quiet hi _ (by constructor <;> simp) (.inl (Nat.zero_le _)) (by simp) (by simp)
          (.inr (.inr (by simp))) (.inr (.inr (by simp)))
      exact hleft.notifyNotEmpty hs
  | pushed r => cases hs
  | shutdown =>
      simp only [QueueWaits.threadStep] at hs
      split at hs
      · cases hs
        exact h.quiet hi .down (by constructor <;> simp) (.inl (Nat.zero_le _)) (by simp) (by simp)
          (.inr (.inr (by simp))) (.inr (.inr (by simp)))
      next hup =>
        cases hs
        exact h.swap hi (by simpa using hup)
  | shutdownNotEmpty =>
      cases hs
      exact h.notEmptyAll hi (hgap.1 rfl)
  | shutdownNotFull =>
      cases hs
      exact h.notFullAll hi (hgap.2 rfl rfl)
  | down => cases hs

end

/-- Every step outside the gap keeps the invariant. -/
theorem Inv.step {mCapacity : Nat} {s s' : Queue T} (h : Inv mCapacity 0 0 s) {a : Act T}
    (hgap : OutsideGap s a) (hs : QueueWaits.step mCapacity s a = some s') :
    Inv mCapacity 0 0 s' := by
  cases a with
  | pop =>
      cases hs
      exact h.begin _ (by simp)
  | tryPop =>
      cases hs
      exact h.begin _ (by simp)
  | push v =>
      cases hs
      exact h.begin _ (by simp)
  | tryPush v =>
      cases hs
      exact h.begin _ (by simp)
  | shutdown =>
      cases hs
      exact h.begin _ (by simp)
  | thread i j =>
      simp only [QueueWaits.step] at hs
      cases hi : s.threads[i]? with
      | none =>
          rw [hi] at hs
          cases hs
      | some pc =>
          rw [hi] at hs
          exact h.threadStep hi (hgap pc hi) hs

theorem Inv.to_released {mCapacity : Nat} {s : Queue T} (h : Inv mCapacity 0 0 s) :
    Released mCapacity s := by
  have hpop := countP_popWaits s.threads
  have hpush := countP_pushWaits s.threads
  refine ⟨fun hpos hb => ?_, fun hpos hb => ?_, fun hpos hb => ?_, fun hpos hb => ?_⟩
  · exact h.popDown (by omega) hb
  · exact h.popItem (by omega) hb
  · exact h.pushDown (by omega) hb
  · have hold := h.pushPlace (by omega) hb
    omega

/-- In a run in which `Shutdown` does not notify in the gap, every blocked thread whose
predicate is true has a notification to come. -/
theorem released_of_meets {mCapacity : Nat} {as : List (Act T)} {s : Queue T}
    (hgap : Machine.Meets (step mCapacity) OutsideGap {} as)
    (hrun : Machine.run (step mCapacity) {} as = some s) : Released mCapacity s :=
  (Machine.run_invariant_of_meets (fun _ _ _ hI hok hs => hI.step hok hs) (inv_init mCapacity)
    hgap hrun).to_released

/-- A consumer blocks, `TryPush` is about to notify it, and a producer blocks. -/
def releasedTrace : List (Act Nat) :=
  [.pop, .thread 0 0, .thread 0 0, .thread 0 0, .thread 0 0, .tryPush 7, .thread 1 0, .thread 1 0,
    .push 8, .thread 2 0, .thread 2 0]

theorem released_releasedTrace : ∃ s, Machine.run (step 1) {} releasedTrace = some s ∧
    s.threads = [.popBlocked, .pushNotify, .pushBlocked 8] ∧ Released 1 s :=
  ⟨_, rfl, rfl,
    released_of_meets (show Machine.Meets (step 1) OutsideGap {} releasedTrace by decide) rfl⟩

/-- `Shutdown` notifies while a consumer has found the queue empty and is about to block. -/
def lostTrace : List (Act Nat) :=
  [.pop, .thread 0 0, .thread 0 0, .thread 0 0, .shutdown, .thread 1 0, .thread 1 0, .thread 0 0,
    .thread 1 0]

theorem not_released_lostTrace : ∃ s, Machine.run (step 1) {} lostTrace = some s ∧
    s.threads = [.popBlocked, .down] ∧ s.mShutdown = true ∧ ¬ Released 1 s :=
  ⟨_, rfl, rfl, rfl, fun h => absurd (h.popDown (by decide) rfl) (by decide)⟩

/-! ## The gap -/

section
variable {mCapacity : Nat} {s s' : Queue T}

/-- A consumer that blocks after the notification of `Shutdown` is left behind. -/
theorem not_released_of_popChecked {k : Nat} (hk : s.threads[k]? = some .popChecked)
    (hdown : s.mShutdown = true) (hnone : s.threads.countP Pc.isNotEmptyAll = 0) :
    ∃ s'', step mCapacity s (.thread k 0) = some s'' ∧ ¬ Released mCapacity s'' := by
  refine ⟨s.set k .popBlocked, by simp only [step, hk, threadStep], fun hreleased => ?_⟩
  have hblocked := Tally.countP_set Pc.isPopBlocked Pc.popBlocked hk
  have hsame := Tally.countP_set Pc.isNotEmptyAll Pc.popBlocked hk
  have hcome := hreleased.popDown (by
    simp only [Queue.set, Pc.isPopBlocked, Bool.toNat_true, Bool.toNat_false] at hblocked ⊢
    omega) hdown
  simp only [Queue.set, Pc.isNotEmptyAll, Bool.toNat_false] at hcome hsame
  omega

/-- A producer that blocks after the notification of `Shutdown` is left behind. -/
theorem not_released_of_pushChecked {k : Nat} {v : T} (hk : s.threads[k]? = some (.pushChecked v))
    (hdown : s.mShutdown = true) (hnone : s.threads.countP Pc.isNotFullAll = 0) :
    ∃ s'', step mCapacity s (.thread k 0) = some s'' ∧ ¬ Released mCapacity s'' := by
  refine ⟨s.set k (.pushBlocked v), by simp only [step, hk, threadStep], fun hreleased => ?_⟩
  have hblocked := Tally.countP_set Pc.isPushBlocked (Pc.pushBlocked v) hk
  have hsame := Tally.countP_set Pc.isNotFullAll (Pc.pushBlocked v) hk
  have hcome := hreleased.pushDown (by
    simp only [Queue.set, Pc.isPushBlocked, Bool.toNat_true, Bool.toNat_false] at hblocked ⊢
    omega) hdown
  simp only [Queue.set, Pc.isNotFullAll, Bool.toNat_false] at hcome hsame
  omega

/-- Beside a thread that is not at a counted place there is one that is. -/
theorem exists_other_of_pos {p : Pc T → Bool} {l : List (Pc T)} {i : Nat} {pc : Pc T}
    (hi : l[i]? = some pc) (hno : p pc = false) (hpos : 0 < l.countP p) :
    ∃ (k : Nat) (other : Pc T), i ≠ k ∧ l[k]? = some other ∧ p other = true := by
  obtain ⟨other, hmem, hother⟩ := List.countP_pos_iff.mp hpos
  obtain ⟨k, hk⟩ := List.getElem?_of_mem hmem
  refine ⟨k, other, fun he => ?_, hk, hother⟩
  rw [← he, hi] at hk
  cases hk
  rw [hno] at hother
  cases hother

/-- A notification of `Shutdown` in the gap leaves somebody behind. -/
theorem not_released_of_gap (h : Inv mCapacity 0 0 s) {a : Act T} (hgap : ¬ OutsideGap s a)
    (hs : step mCapacity s a = some s') :
    ∃ k s'', step mCapacity s' (.thread k 0) = some s'' ∧ ¬ Released mCapacity s'' := by
  cases a with
  | thread i j =>
      simp only [OutsideGap, not_forall] at hgap
      obtain ⟨pc, hi, hno⟩ := hgap
      have hi : s.threads[i]? = some pc := hi
      simp only [step, hi] at hs
      have honce := h.once
      have hle : s.threads.countP Pc.isNotEmptyAll ≤ s.threads.countP Pc.isNotFullAll :=
        List.countP_mono_left fun pc _ hpc => by
          cases pc with
          | shutdownNotEmpty => rfl
          | _ => cases hpc
      have hdown : pc.isNotFullAll = true → s.mShutdown = true := fun hpc => by
        have hpos := Tally.toNat_le_countP Pc.isNotFullAll hi
        rw [hpc] at hpos
        exact h.down (lt_of_lt_of_le Nat.one_pos hpos)
      cases pc with
      | shutdownNotEmpty =>
          cases hs
          have hpos : 0 < s.threads.countP Pc.isPopChecked :=
            Nat.pos_of_ne_zero fun hz => hno ⟨fun _ => hz, fun _ hfalse => by cases hfalse⟩
          obtain ⟨k, pc, hne, hk, hpc⟩ := exists_other_of_pos hi rfl hpos
          have hset := Tally.countP_set Pc.isNotEmptyAll Pc.shutdownNotFull hi
          have hwake := countP_wakePop (T := T) (p := Pc.isNotEmptyAll) fun pc => by
            cases pc <;> rfl
          simp only [Pc.isNotEmptyAll, Bool.toNat_true, Bool.toNat_false] at hset
          cases pc with
          | popChecked =>
              refine ⟨k, not_released_of_popChecked ?_ (hdown rfl) ?_⟩
              · simp only [Queue.notifyAll, Queue.set, List.getElem?_map,
                  List.getElem?_set_ne hne, hk, Option.map_some, Pc.wakePop]
              · simp only [Queue.notifyAll, Queue.set, hwake]
                omega
          | _ => cases hpc
      | shutdownNotFull =>
          cases hs
          have hpos : 0 < s.threads.countP Pc.isPushChecked :=
            Nat.pos_of_ne_zero fun hz => hno ⟨fun hfalse => (by cases hfalse), fun _ _ => hz⟩
          obtain ⟨k, pc, hne, hk, hpc⟩ := exists_other_of_pos hi rfl hpos
          have hset := Tally.countP_set Pc.isNotFullAll Pc.down hi
          have hwake := countP_wakePush (T := T) (p := Pc.isNotFullAll) fun pc => by
            cases pc <;> rfl
          simp only [Pc.isNotFullAll, Bool.toNat_true, Bool.toNat_false] at hset
          cases pc with
          | pushChecked v =>
              refine ⟨k, not_released_of_pushChecked (v := v) ?_ (hdown rfl) ?_⟩
              · simp only [Queue.notifyAll, Queue.set, List.getElem?_map,
                  List.getElem?_set_ne hne, hk, Option.map_some, Pc.wakePush]
              · simp only [Queue.notifyAll, Queue.set, hwake]
                omega
          | _ => cases hpc
      | _ => exact absurd ⟨(fun hpc => by cases hpc), (fun hpc _ => by cases hpc)⟩ hno
  | _ => exact absurd trivial hgap

end

end NetworkModule.Concurrency.QueueWaits
