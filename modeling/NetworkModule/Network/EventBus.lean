import NetworkModule.Lib.BoundedFifo
import NetworkModule.Lib.References
import NetworkModule.Lib.SharedMutex

/-!
# The event bus

`NetworkEventBus` has a list of subscriptions for each kind of event.  A subscription refers to
its channel weakly: the subscriber owns the channel, and the bus must not keep it alive.

`Publish` takes `mMutex` shared and turns the weak references into shared ones, as far as the
channels still exist.  It sends after it has released the mutex, so that other threads may
subscribe and unsubscribe while it does, and owners may let go of their channels at any time.
Subscriptions whose channel was gone are removed at the end, under the mutex and after another
look at every channel.

Any number of threads are in calls of the bus, and one step is one access to what they share.
The channels are the queues of `BoundedFifo`, to which `QueueRefinement` reduces the
`ExecutionQueue` of a `Channel`.  Each event has the number of the `Publish` call that sent it,
which no step reads.
-/

namespace NetworkModule.EventBus

open References (Ref Held)
open SharedMutex (Mutex Exclusive)
open BoundedFifo (Fifo)

/-! ## The bus -/

/-- `NetworkEventBus::Subscription`. -/
structure Subscription where
  handle : UInt64
  channel : Nat
  deriving DecidableEq, Repr

/-- Who has a shared reference to a channel. -/
inductive Holder where
  | owner
  /-- The call that the thread `i` is in: its argument, or its `liveChannels`. -/
  | call (i : Nat)
  deriving DecidableEq, Repr

/-- An event in a channel. -/
structure Sent (Data : Type) where
  call : Nat
  data : Data
  deriving DecidableEq, Repr

/-- What came of an event for a channel. -/
inductive Outcome where
  | sent
  /-- `IsShutdown` was true, or `TrySend` returned false for that reason. -/
  | closed
  /-- `TrySend` returned false because there was no room. -/
  | full
  deriving DecidableEq, Repr

/-- The history of a `Publish` call. -/
structure Publication (Data : Type) where
  thread : Nat
  key : UInt8
  data : Data
  /-- The subscriptions that the call found when it had the mutex. -/
  subscribers : List Subscription
  /-- Those that it has looked at, and whether their channel existed. -/
  checked : List (Subscription × Bool) := []
  /-- The channels that it is done with. -/
  outcomes : List (Nat × Outcome) := []
  deriving DecidableEq, Repr

/-- The arguments of a `Publish` call, and its number. -/
structure Publishing (Data : Type) where
  number : Nat
  key : UInt8
  data : Data
  deriving DecidableEq, Repr

/-- Where a thread stands. -/
inductive BusPc (Data : Type) where
  | idle
  /-- `Publish`: taking `readLock`. -/
  | publish (key : UInt8) (data : Data)
  /-- In the loop over the subscriptions. -/
  | collect (p : Publishing Data) (it : Nat) (liveChannels : List Nat) (needsPrune : Bool)
  /-- In the loop over `liveChannels`. -/
  | isShutdown (p : Publishing Data) (rest : List Nat) (needsPrune : Bool)
  | trySend (p : Publishing Data) (channel : Nat) (rest : List Nat) (needsPrune : Bool)
  /-- Taking `writeLock`. -/
  | pruneLock (p : Publishing Data)
  /-- In `remove_if`, with the subscriptions that stay. -/
  | prune (p : Publishing Data) (it : Nat) (kept : List Subscription)
  /-- `Subscribe`: drawing a handle. -/
  | subscribe (key : UInt8) (channel : Nat)
  /-- Taking `writeLock` and putting the subscription in. -/
  | insert (key : UInt8) (sub : Subscription)
  | unsubscribe (handle : UInt64)
  /-- The call returns, and its shared references go. -/
  | exit
  deriving DecidableEq, Repr

/-- `NetworkEventBus`, the channels, and the threads.  A kind of event that `mSubscribers` does
not have is one without subscriptions. -/
structure Bus (Data : Type) where
  mSubscribers : UInt8 → List Subscription := fun _ => []
  mMutex : Mutex Nat := {}
  mNextHandle : UInt64 := 1
  queues : Nat → Fifo (Sent Data) := fun _ => {}
  /-- The shared references to channels. -/
  refs : List (Ref Holder Nat)
  calls : Nat → BusPc Data := fun _ => .idle
  /-- What `mSubscribers` would be if `Publish` removed nothing. -/
  registry : UInt8 → List Subscription := fun _ => []
  published : List (Publication Data) := []

/-- The bus at the start.  A channel that a subscriber makes later is one that nobody has used
so far. -/
def Bus.init {Data : Type} (owned : List Nat) : Bus Data where
  refs := owned.map fun c => ⟨.owner, c⟩

section
variable {Data : Type}

/-! ## Steps -/

def Bus.goto (s : Bus Data) (i : Nat) (pc : BusPc Data) : Bus Data :=
  { s with calls := Function.update s.calls i pc }

/-- The history of the call says what happened. -/
def Bus.note (s : Bus Data) (n : Nat) (f : Publication Data → Publication Data) : Bus Data :=
  { s with published := s.published.modify n f }

/-- The call has taken the mutex. -/
def Publication.start (i : Nat) (key : UInt8) (data : Data) (subscribers : List Subscription) :
    Publication Data where
  thread := i
  key
  data
  subscribers

/-- A subscription has been looked at. -/
def Publication.check (sub : Subscription) (alive : Bool) (pub : Publication Data) :
    Publication Data :=
  { pub with checked := pub.checked ++ [(sub, alive)] }

/-- The call is done with a channel. -/
def Publication.outcome (channel : Nat) (o : Outcome) (pub : Publication Data) :
    Publication Data :=
  { pub with outcomes := pub.outcomes ++ [(channel, o)] }

/-- What happens next. -/
inductive BusAct (Data : Type) where
  | publish (i : Nat) (key : UInt8) (data : Data)
  | subscribe (i : Nat) (key : UInt8) (channel : Nat)
  | unsubscribe (i : Nat) (handle : UInt64)
  /-- The thread goes on with its call. -/
  | thread (i : Nat)
  /-- An owner copies its reference. -/
  | share (channel : Nat)
  /-- An owner lets go of its reference. -/
  | drop (channel : Nat)
  /-- An owner calls `Receive`, and there is an event. -/
  | receive (channel : Nat)
  | shutdown (channel : Nat)
  deriving DecidableEq, Repr

/-- The thread begins a call, unless it is in one. -/
def Bus.begin (s : Bus Data) (i : Nat) (pc : BusPc Data) : Option (Bus Data) :=
  match s.calls i with
  | .idle => some (s.goto i pc)
  | _ => none

variable (mCapacity : Nat → Nat)

/-- A step of the call that the thread `i` is in. -/
def threadStep (s : Bus Data) (i : Nat) : Option (Bus Data) :=
  match s.calls i with
  | .idle => none
  | .publish key data =>
      (SharedMutex.lockShared s.mMutex i).map fun m =>
        { s with
          mMutex := m
          published := s.published ++ [Publication.start i key data (s.mSubscribers key)] }.goto i
            (.collect ⟨s.published.length, key, data⟩ 0 [] false)
  | .collect p it liveChannels needsPrune =>
      match (s.mSubscribers p.key)[it]? with
      | none =>
          some ({ s with mMutex := SharedMutex.unlockShared s.mMutex i }.goto i
            (.isShutdown p liveChannels needsPrune))
      | some sub =>
          if Held s.refs sub.channel then
            some (({ s with refs := ⟨.call i, sub.channel⟩ :: s.refs }.note p.number
              (.check sub true)).goto i
                (.collect p (it + 1) (liveChannels ++ [sub.channel]) needsPrune))
          else
            some ((s.note p.number (.check sub false)).goto i
              (.collect p (it + 1) liveChannels true))
  | .isShutdown p [] needsPrune =>
      some (s.goto i (if needsPrune then .pruneLock p else .exit))
  | .isShutdown p (channel :: rest) needsPrune =>
      if (s.queues channel).closed then
        some ((s.note p.number (.outcome channel .closed)).goto i (.isShutdown p rest needsPrune))
      else some (s.goto i (.trySend p channel rest needsPrune))
  | .trySend p channel rest needsPrune =>
      let s := s.goto i (.isShutdown p rest needsPrune)
      match BoundedFifo.step (mCapacity channel) (s.queues channel) (.put ⟨p.number, p.data⟩) with
      | some queue =>
          some ({ s with queues := Function.update s.queues channel queue }.note p.number
            (.outcome channel .sent))
      | none =>
          some (s.note p.number
            (.outcome channel (if (s.queues channel).closed then .closed else .full)))
  | .pruneLock p =>
      (SharedMutex.lock s.mMutex i).map fun m => { s with mMutex := m }.goto i (.prune p 0 [])
  | .prune p it kept =>
      match (s.mSubscribers p.key)[it]? with
      | none =>
          some ({ s with
            mSubscribers := Function.update s.mSubscribers p.key kept
            mMutex := SharedMutex.unlock s.mMutex }.goto i .exit)
      | some sub =>
          -- `expired()` of the weak reference.
          some (s.goto i (.prune p (it + 1)
            (if Held s.refs sub.channel then kept ++ [sub] else kept)))
  | .subscribe key channel =>
      some ({ s with mNextHandle := s.mNextHandle + 1 }.goto i
        (.insert key ⟨s.mNextHandle, channel⟩))
  | .insert key sub =>
      (SharedMutex.lock s.mMutex i).map fun _ =>
        { s with
          mSubscribers := Function.update s.mSubscribers key (s.mSubscribers key ++ [sub])
          registry := Function.update s.registry key (s.registry key ++ [sub]) }.goto i .exit
  | .unsubscribe handle =>
      (SharedMutex.lock s.mMutex i).map fun _ =>
        { s with
          mSubscribers := fun key => (s.mSubscribers key).filter fun sub => sub.handle ≠ handle
          registry := fun key => (s.registry key).filter fun sub => sub.handle ≠ handle }.goto i
            .exit
  | .exit =>
      some ({ s with refs := s.refs.filter fun r => r.holder ≠ Holder.call i }.goto i .idle)

/-- One step.  Only an owner can use a channel outside the bus. -/
def busStep (s : Bus Data) : BusAct Data → Option (Bus Data)
  | .publish i key data => s.begin i (.publish key data)
  | .subscribe i key channel =>
      if ⟨.owner, channel⟩ ∈ s.refs then
        { s with refs := ⟨.call i, channel⟩ :: s.refs }.begin i (.subscribe key channel)
      else none
  | .unsubscribe i handle => s.begin i (.unsubscribe handle)
  | .thread i => threadStep mCapacity s i
  | .share channel =>
      if ⟨.owner, channel⟩ ∈ s.refs then some { s with refs := ⟨.owner, channel⟩ :: s.refs }
      else none
  | .drop channel => some { s with refs := s.refs.erase ⟨.owner, channel⟩ }
  | .receive channel =>
      if ⟨.owner, channel⟩ ∈ s.refs then
        (BoundedFifo.step (mCapacity channel) (s.queues channel) .take).map fun queue =>
          { s with queues := Function.update s.queues channel queue }
      else none
  | .shutdown channel =>
      if ⟨.owner, channel⟩ ∈ s.refs then
        (BoundedFifo.step (mCapacity channel) (s.queues channel) .close).map fun queue =>
          { s with queues := Function.update s.queues channel queue }
      else none

/-- The `Publish` call that the thread is in, once it has taken the mutex. -/
def BusPc.publishing : BusPc Data → Option (Publishing Data)
  | .collect p .. | .isShutdown p .. | .trySend p .. | .pruneLock p | .prune p .. => some p
  | _ => none

/-- The thread has the mutex shared. -/
def BusPc.reads : BusPc Data → Bool
  | .collect .. => true
  | _ => false

/-- The thread has the mutex alone. -/
def BusPc.writes : BusPc Data → Bool
  | .prune .. => true
  | _ => false

/-! ## What a step can do -/

variable {mCapacity : Nat → Nat} {s s' : Bus Data} {i : Nat}

/-- What a thread can do. -/
inductive ThreadMove (mCapacity : Nat → Nat) (s : Bus Data) (i : Nat) : Bus Data → Prop where
  | publish {key data m} (hpc : s.calls i = .publish key data)
      (hm : SharedMutex.lockShared s.mMutex i = some m) :
      ThreadMove mCapacity s i ({ s with
        mMutex := m
        published := s.published ++ [Publication.start i key data (s.mSubscribers key)] }.goto i
          (.collect ⟨s.published.length, key, data⟩ 0 [] false))
  | collectAlive {p it live needsPrune sub} (hpc : s.calls i = .collect p it live needsPrune)
      (hsub : (s.mSubscribers p.key)[it]? = some sub) (halive : Held s.refs sub.channel) :
      ThreadMove mCapacity s i (({ s with refs := ⟨.call i, sub.channel⟩ :: s.refs }.note p.number
        (.check sub true)).goto i (.collect p (it + 1) (live ++ [sub.channel]) needsPrune))
  | collectGone {p it live needsPrune sub} (hpc : s.calls i = .collect p it live needsPrune)
      (hsub : (s.mSubscribers p.key)[it]? = some sub) (hgone : ¬ Held s.refs sub.channel) :
      ThreadMove mCapacity s i ((s.note p.number (.check sub false)).goto i
        (.collect p (it + 1) live true))
  | collectEnd {p it live needsPrune} (hpc : s.calls i = .collect p it live needsPrune)
      (hend : (s.mSubscribers p.key)[it]? = none) :
      ThreadMove mCapacity s i ({ s with mMutex := SharedMutex.unlockShared s.mMutex i }.goto i
        (.isShutdown p live needsPrune))
  | sentAll {p needsPrune} (hpc : s.calls i = .isShutdown p [] needsPrune) :
      ThreadMove mCapacity s i (s.goto i (if needsPrune then .pruneLock p else .exit))
  | skip {p c rest needsPrune} (hpc : s.calls i = .isShutdown p (c :: rest) needsPrune)
      (hclosed : (s.queues c).closed = true) :
      ThreadMove mCapacity s i ((s.note p.number (.outcome c .closed)).goto i
        (.isShutdown p rest needsPrune))
  | attempt {p c rest needsPrune} (hpc : s.calls i = .isShutdown p (c :: rest) needsPrune) :
      ThreadMove mCapacity s i (s.goto i (.trySend p c rest needsPrune))
  | send {p c rest needsPrune queue} (hpc : s.calls i = .trySend p c rest needsPrune)
      (hput : BoundedFifo.step (mCapacity c) (s.queues c) (.put ⟨p.number, p.data⟩) = some queue) :
      ThreadMove mCapacity s i (({ s with
        queues := Function.update s.queues c queue }.note p.number (.outcome c .sent)).goto i
          (.isShutdown p rest needsPrune))
  | reject {p c rest needsPrune} (hpc : s.calls i = .trySend p c rest needsPrune)
      (hput : BoundedFifo.step (mCapacity c) (s.queues c) (.put ⟨p.number, p.data⟩) = none) :
      ThreadMove mCapacity s i ((s.note p.number
        (.outcome c (if (s.queues c).closed then .closed else .full))).goto i
          (.isShutdown p rest needsPrune))
  | pruneLock {p m} (hpc : s.calls i = .pruneLock p)
      (hm : SharedMutex.lock s.mMutex i = some m) :
      ThreadMove mCapacity s i ({ s with mMutex := m }.goto i (.prune p 0 []))
  | prune {p it kept sub} (hpc : s.calls i = .prune p it kept)
      (hsub : (s.mSubscribers p.key)[it]? = some sub) :
      ThreadMove mCapacity s i (s.goto i
        (.prune p (it + 1) (if Held s.refs sub.channel then kept ++ [sub] else kept)))
  | pruneEnd {p it kept} (hpc : s.calls i = .prune p it kept)
      (hend : (s.mSubscribers p.key)[it]? = none) :
      ThreadMove mCapacity s i ({ s with
        mSubscribers := Function.update s.mSubscribers p.key kept
        mMutex := SharedMutex.unlock s.mMutex }.goto i .exit)
  | subscribe {key c} (hpc : s.calls i = .subscribe key c) :
      ThreadMove mCapacity s i ({ s with mNextHandle := s.mNextHandle + 1 }.goto i
        (.insert key ⟨s.mNextHandle, c⟩))
  | insert {key sub m} (hpc : s.calls i = .insert key sub)
      (hm : SharedMutex.lock s.mMutex i = some m) :
      ThreadMove mCapacity s i ({ s with
        mSubscribers := Function.update s.mSubscribers key (s.mSubscribers key ++ [sub])
        registry := Function.update s.registry key (s.registry key ++ [sub]) }.goto i .exit)
  | unsubscribe {handle m} (hpc : s.calls i = .unsubscribe handle)
      (hm : SharedMutex.lock s.mMutex i = some m) :
      ThreadMove mCapacity s i ({ s with
        mSubscribers := fun key => (s.mSubscribers key).filter fun sub => sub.handle ≠ handle
        registry := fun key => (s.registry key).filter fun sub => sub.handle ≠ handle }.goto i
          .exit)
  | exit (hpc : s.calls i = .exit) :
      ThreadMove mCapacity s i
        ({ s with refs := s.refs.filter fun r => r.holder ≠ Holder.call i }.goto i .idle)

theorem threadStep_move (hs : threadStep mCapacity s i = some s') :
    ThreadMove mCapacity s i s' := by
  unfold threadStep at hs
  cases hpc : s.calls i with
  | idle => simp only [hpc] at hs; cases hs
  | publish key data =>
      simp only [hpc] at hs
      obtain ⟨m, hm, rfl⟩ := Option.map_eq_some_iff.mp hs
      exact .publish hpc hm
  | collect p it live needsPrune =>
      simp only [hpc] at hs
      split at hs
      next hend =>
        cases hs
        exact .collectEnd hpc hend
      next sub hsub =>
        split at hs
        next halive =>
          cases hs
          exact .collectAlive hpc hsub halive
        next hgone =>
          cases hs
          exact .collectGone hpc hsub hgone
  | isShutdown p rest needsPrune =>
      cases rest with
      | nil =>
          simp only [hpc] at hs
          cases hs
          exact .sentAll hpc
      | cons c rest =>
          simp only [hpc] at hs
          split at hs
          next hclosed =>
            cases hs
            exact .skip hpc hclosed
          · cases hs
            exact .attempt hpc
  | trySend p c rest needsPrune =>
      simp only [hpc] at hs
      split at hs
      next queue hput =>
        cases hs
        exact .send hpc hput
      next hput =>
        cases hs
        exact .reject hpc hput
  | pruneLock p =>
      simp only [hpc] at hs
      obtain ⟨m, hm, rfl⟩ := Option.map_eq_some_iff.mp hs
      exact .pruneLock hpc hm
  | prune p it kept =>
      simp only [hpc] at hs
      split at hs
      next hend =>
        cases hs
        exact .pruneEnd hpc hend
      next sub hsub =>
        cases hs
        exact .prune hpc hsub
  | subscribe key c =>
      simp only [hpc] at hs
      cases hs
      exact .subscribe hpc
  | insert key sub =>
      simp only [hpc] at hs
      obtain ⟨m, hm, rfl⟩ := Option.map_eq_some_iff.mp hs
      exact .insert hpc hm
  | unsubscribe handle =>
      simp only [hpc] at hs
      obtain ⟨m, hm, rfl⟩ := Option.map_eq_some_iff.mp hs
      exact .unsubscribe hpc hm
  | exit =>
      simp only [hpc] at hs
      cases hs
      exact .exit hpc

/-- What an owner can do, and how a call begins. -/
inductive OwnerMove (mCapacity : Nat → Nat) (s : Bus Data) : Bus Data → Prop where
  | call {i pc refs} (hidle : s.calls i = .idle)
      (hpc : pc.publishing = none ∧ pc.reads = false ∧ pc.writes = false)
      (hrefs : ∀ c, Held refs c → Held s.refs c) :
      OwnerMove mCapacity s ({ s with refs := refs }.goto i pc)
  | refs {refs} (hrefs : ∀ c, Held refs c → Held s.refs c) :
      OwnerMove mCapacity s { s with refs := refs }
  | queue {c a queue} (ha : a = .take ∨ a = .close)
      (hq : BoundedFifo.step (mCapacity c) (s.queues c) a = some queue) :
      OwnerMove mCapacity s { s with queues := Function.update s.queues c queue }

theorem busStep_cases {a : BusAct Data} (hs : busStep mCapacity s a = some s') :
    (∃ i, a = .thread i ∧ ThreadMove mCapacity s i s') ∨ OwnerMove mCapacity s s' := by
  have hheld : ∀ {r : Ref Holder Nat}, r ∈ s.refs → ∀ h c,
      Held (⟨h, r.slot⟩ :: s.refs) c → Held s.refs c := by
    intro r hr h c hc
    rcases References.held_cons.mp hc with hslot | hc
    · exact ⟨r, hr, hslot⟩
    · exact hc
  have hbegin : ∀ {i pc refs}, (pc.publishing = none ∧ pc.reads = false ∧ pc.writes = false) →
      (∀ c, Held refs c → Held s.refs c) →
        ({ s with refs := refs } : Bus Data).begin i pc = some s' → OwnerMove mCapacity s s' := by
    intro i pc refs hpc hrefs hb
    rw [Bus.begin] at hb
    split at hb
    next hidle =>
      cases hb
      exact .call hidle hpc hrefs
    · cases hb
  cases a with
  | publish i key data => exact .inr (hbegin ⟨rfl, rfl, rfl⟩ (fun _ h => h) hs)
  | subscribe i key c =>
      simp only [busStep] at hs
      split at hs
      next hown => exact .inr (hbegin ⟨rfl, rfl, rfl⟩ (hheld hown _) hs)
      · cases hs
  | unsubscribe i handle => exact .inr (hbegin ⟨rfl, rfl, rfl⟩ (fun _ h => h) hs)
  | thread i => exact .inl ⟨i, rfl, threadStep_move hs⟩
  | share c =>
      simp only [busStep] at hs
      split at hs
      next hown =>
        cases hs
        exact .inr (.refs (hheld hown _))
      · cases hs
  | drop c =>
      cases hs
      refine .inr (.refs fun c' hc' => ?_)
      obtain ⟨r, hr, hslot⟩ := hc'
      exact ⟨r, List.mem_of_mem_erase hr, hslot⟩
  | receive c =>
      simp only [busStep] at hs
      split at hs
      · obtain ⟨queue, hq, rfl⟩ := Option.map_eq_some_iff.mp hs
        exact .inr (.queue (.inl rfl) hq)
      · cases hs
  | shutdown c =>
      simp only [busStep] at hs
      split at hs
      · obtain ⟨queue, hq, rfl⟩ := Option.map_eq_some_iff.mp hs
        exact .inr (.queue (.inr rfl) hq)
      · cases hs

/-- A reference comes from a reference, so a channel that is gone does not come back. -/
theorem ThreadMove.held (h : ThreadMove mCapacity s i s') {c : Nat} (hc : Held s'.refs c) :
    Held s.refs c := by
  cases h with
  | collectAlive hpc hsub halive =>
      rcases References.held_cons.mp hc with hslot | hc
      · exact hslot ▸ halive
      · exact hc
  | exit hpc =>
      obtain ⟨r, hr, hslot⟩ := hc
      exact ⟨r, (List.mem_filter.mp hr).1, hslot⟩
  | _ => exact hc

theorem OwnerMove.held (h : OwnerMove mCapacity s s') {c : Nat} (hc : Held s'.refs c) :
    Held s.refs c := by
  cases h with
  | call hidle hpc hrefs => exact hrefs c hc
  | refs hrefs => exact hrefs c hc
  | queue ha hq => exact hc

theorem held_step {a : BusAct Data} (hs : busStep mCapacity s a = some s') {c : Nat}
    (hc : Held s'.refs c) : Held s.refs c := by
  rcases busStep_cases hs with ⟨i, -, hm⟩ | hm
  · exact hm.held hc
  · exact hm.held hc

/-! ## The mutex -/

/-- The threads in the loops have the mutex, and nobody else has. -/
structure LockInv (s : Bus Data) : Prop where
  exclusive : Exclusive s.mMutex
  readers : ∀ i, i ∈ s.mMutex.readers ↔ (s.calls i).reads = true
  writer : ∀ i, s.mMutex.writer = some i ↔ (s.calls i).writes = true

theorem lockInv_init (owned : List Nat) : LockInv (Bus.init owned : Bus Data) where
  exclusive := SharedMutex.exclusive_init
  readers := fun _ => by simp [Bus.init, BusPc.reads]
  writer := fun _ => by simp [Bus.init, BusPc.writes]

/-- The step does not take the mutex or release it. -/
theorem LockInv.goto (h : LockInv s) {pc : BusPc Data} (hm : s'.mMutex = s.mMutex)
    (hcalls : s'.calls = Function.update s.calls i pc) (hr : pc.reads = (s.calls i).reads)
    (hw : pc.writes = (s.calls i).writes) : LockInv s' := by
  refine ⟨hm ▸ h.exclusive, fun j => ?_, fun j => ?_⟩
  · rw [hm, hcalls, h.readers]
    rcases eq_or_ne j i with rfl | hne
    · rw [Function.update_self, hr]
    · rw [Function.update_of_ne hne]
  · rw [hm, hcalls, h.writer]
    rcases eq_or_ne j i with rfl | hne
    · rw [Function.update_self, hw]
    · rw [Function.update_of_ne hne]

/-- The step leaves the mutex to the threads that have it shared, `i` or not `i`. -/
theorem LockInv.shared (h : LockInv s) {pc : BusPc Data} (hex : Exclusive s'.mMutex)
    (hcalls : s'.calls = Function.update s.calls i pc)
    (hreaders : ∀ j, j ∈ s'.mMutex.readers ↔
      if j = i then pc.reads = true else j ∈ s.mMutex.readers)
    (hwriter : s'.mMutex.writer = s.mMutex.writer) (hw : pc.writes = (s.calls i).writes) :
    LockInv s' := by
  refine ⟨hex, fun j => ?_, fun j => ?_⟩
  · rw [hreaders, hcalls]
    rcases eq_or_ne j i with rfl | hne
    · rw [if_pos rfl, Function.update_self]
    · rw [if_neg hne, Function.update_of_ne hne, h.readers]
  · rw [hwriter, hcalls, h.writer]
    rcases eq_or_ne j i with rfl | hne
    · rw [Function.update_self, hw]
    · rw [Function.update_of_ne hne]

theorem LockInv.threadMove (h : LockInv s) (hm : ThreadMove mCapacity s i s') : LockInv s' := by
  cases hm with
  | @publish key data m hpc hl =>
      obtain ⟨hw, rfl⟩ := SharedMutex.lockShared_eq_some hl
      refine h.shared (Exclusive.lockShared hl) rfl (fun j => ?_) rfl (by rw [hpc]; rfl)
      rcases eq_or_ne j i with rfl | hne
      · simp [BusPc.reads, Bus.goto]
      · simp [Bus.goto, hne]
  | collectEnd hpc hend =>
      refine h.shared (h.exclusive.unlockShared i) rfl (fun j => ?_) rfl (by rw [hpc]; rfl)
      refine SharedMutex.mem_readers_unlockShared.trans ?_
      rcases eq_or_ne j i with rfl | hne
      · simp [BusPc.reads]
      · simp [hne]
  | @pruneLock p m hpc hl =>
      obtain ⟨⟨hreaders, hwriter⟩, rfl⟩ := SharedMutex.lock_eq_some hl
      refine ⟨Exclusive.lock hl, fun j => ?_, fun j => ?_⟩
      · have hno := h.readers j
        rcases eq_or_ne j i with rfl | hne
        · simp [Bus.goto, hreaders, BusPc.reads]
        · simpa [Bus.goto, hne] using hno
      · have hno := h.writer j
        rcases eq_or_ne j i with rfl | hne
        · simp [Bus.goto, BusPc.writes]
        · simp only [Bus.goto, Function.update_of_ne hne, ← hno, hwriter, Option.some.injEq]
          exact iff_of_false hne.symm (by simp)
  | pruneEnd hpc hend =>
      have hi : s.mMutex.writer = some i := (h.writer i).mpr (by rw [hpc]; rfl)
      refine ⟨SharedMutex.exclusive_unlock _, fun j => ?_, fun j => ?_⟩
      · have hno := h.readers j
        rcases eq_or_ne j i with rfl | hne
        · rw [hpc] at hno
          simpa [Bus.goto, SharedMutex.unlock, BusPc.reads] using hno
        · simpa [Bus.goto, SharedMutex.unlock, hne] using hno
      · have hno := h.writer j
        rcases eq_or_ne j i with rfl | hne
        · simp [Bus.goto, SharedMutex.unlock, BusPc.writes]
        · simp only [Bus.goto, SharedMutex.unlock, Function.update_of_ne hne, ← hno, hi,
            Option.some.injEq]
          exact iff_of_false (by simp) hne.symm
  | @sentAll p needsPrune hpc =>
      cases needsPrune <;> exact h.goto rfl rfl (by rw [hpc]; rfl) (by rw [hpc]; rfl)
  | collectAlive hpc | collectGone hpc | skip hpc | attempt hpc | send hpc | reject hpc | prune hpc
  | subscribe hpc | insert hpc | unsubscribe hpc | exit hpc =>
      exact h.goto rfl rfl (by rw [hpc]; rfl) (by rw [hpc]; rfl)

theorem LockInv.ownerMove (h : LockInv s) (hm : OwnerMove mCapacity s s') : LockInv s' := by
  cases hm with
  | call hidle hpc hrefs =>
      exact h.goto rfl rfl (by rw [hidle]; exact hpc.2.1) (by rw [hidle]; exact hpc.2.2)
  | refs hrefs => exact ⟨h.exclusive, h.readers, h.writer⟩
  | queue ha hq => exact ⟨h.exclusive, h.readers, h.writer⟩

theorem LockInv.step {a : BusAct Data} (h : LockInv s) (hs : busStep mCapacity s a = some s') :
    LockInv s' := by
  rcases busStep_cases hs with ⟨i, -, hm⟩ | hm
  · exact h.threadMove hm
  · exact h.ownerMove hm

theorem lockInv_run {owned : List Nat} {as : List (BusAct Data)}
    (hrun : Machine.run (busStep mCapacity) (.init owned) as = some s) : LockInv s :=
  Machine.run_invariant (fun _ _ _ h hs => h.step hs) (lockInv_init owned) hrun

/-- The thread can go on. -/
def Enabled (mCapacity : Nat → Nat) (s : Bus Data) (i : Nat) : Prop :=
  (busStep mCapacity s (.thread i)).isSome = true

/-- The loops do not wait. -/
theorem enabled_of_holds (h : (s.calls i).reads = true ∨ (s.calls i).writes = true) :
    Enabled mCapacity s i := by
  unfold Enabled busStep threadStep
  cases hpc : s.calls i with
  | collect p it live needsPrune =>
      cases hsub : (s.mSubscribers p.key)[it]? with
      | none => simp only [hpc, hsub, Option.isSome_some]
      | some sub =>
          simp only [hpc, hsub]
          split <;> rfl
  | prune p it kept =>
      cases hsub : (s.mSubscribers p.key)[it]? with
      | none => simp only [hpc, hsub, Option.isSome_some]
      | some sub => simp only [hpc, hsub, Option.isSome_some]
  | _ => simp [hpc, BusPc.reads, BusPc.writes] at h

/-- The mutex is the only thing that a call waits for. -/
theorem enabled_of_free (hbusy : s.calls i ≠ .idle)
    (hfree : s.mMutex.readers = [] ∧ s.mMutex.writer = none) : Enabled mCapacity s i := by
  have hlock : (SharedMutex.lock s.mMutex i).isSome = true := by
    rw [SharedMutex.lock, if_pos hfree]
    rfl
  have hshared : (SharedMutex.lockShared s.mMutex i).isSome = true := by
    rw [SharedMutex.lockShared, if_pos hfree.2]
    rfl
  by_cases hholds : (s.calls i).reads = true ∨ (s.calls i).writes = true
  · exact enabled_of_holds hholds
  unfold Enabled busStep threadStep
  cases hpc : s.calls i with
  | idle => exact absurd hpc hbusy
  | collect => exact absurd (.inl (by rw [hpc]; rfl)) hholds
  | prune => exact absurd (.inr (by rw [hpc]; rfl)) hholds
  | isShutdown p rest needsPrune =>
      cases rest with
      | nil => simp only [hpc, Option.isSome_some]
      | cons c rest =>
          simp only [hpc]
          split <;> rfl
  | trySend p c rest needsPrune =>
      simp only [hpc]
      split <;> rfl
  | publish => simpa only [hpc, Option.isSome_map] using hshared
  | pruneLock => simpa only [hpc, Option.isSome_map] using hlock
  | insert => simpa only [hpc, Option.isSome_map] using hlock
  | unsubscribe => simpa only [hpc, Option.isSome_map] using hlock
  | subscribe => simp only [hpc, Option.isSome_some]
  | exit => simp only [hpc, Option.isSome_some]

/-- A call that cannot go on waits for a thread that can. -/
theorem bus_deadlockFree {owned : List Nat} {as : List (BusAct Data)}
    (hrun : Machine.run (busStep mCapacity) (.init owned) as = some s)
    (hbusy : s.calls i ≠ .idle) :
    Enabled mCapacity s i ∨
      ∃ j, ((s.calls j).reads = true ∨ (s.calls j).writes = true) ∧ Enabled mCapacity s j := by
  have h := lockInv_run hrun
  by_cases hfree : s.mMutex.readers = [] ∧ s.mMutex.writer = none
  · exact .inl (enabled_of_free hbusy hfree)
  right
  cases hw : s.mMutex.writer with
  | some j =>
      have hj := (h.writer j).mp hw
      exact ⟨j, .inr hj, enabled_of_holds (.inr hj)⟩
  | none =>
      obtain ⟨j, hmem⟩ := List.exists_mem_of_ne_nil _ fun hnil => hfree ⟨hnil, hw⟩
      have hj := (h.readers j).mp hmem
      exact ⟨j, .inl hj, enabled_of_holds (.inl hj)⟩

/-- One thread wants to subscribe while another is in the loop of `Publish`. -/
def waitingTrace : List (BusAct Nat) :=
  [.publish 1 1 42, .thread 1, .subscribe 0 1 7, .thread 0]

theorem bus_deadlockFree_waiting :
    ∃ s, Machine.run (busStep fun _ => 0) (.init [7]) waitingTrace = some s ∧
      s.calls 0 = .insert 1 ⟨1, 7⟩ ∧ (Enabled (fun _ => 0) s 0 ∨
        ∃ j, ((s.calls j).reads = true ∨ (s.calls j).writes = true) ∧
          Enabled (fun _ => 0) s j) := by
  have hrun : (Machine.run (busStep fun _ => 0) (.init [7]) waitingTrace).any (fun s =>
      decide (s.calls 0 = .insert 1 ⟨1, 7⟩)) = true := by decide +kernel
  obtain ⟨s, hs, hp⟩ := (Option.any_eq_true _ _).mp hrun
  have hinsert := of_decide_eq_true hp
  exact ⟨s, hs, hinsert, bus_deadlockFree hs (by rw [hinsert]; simp)⟩

/-! ## Pruning -/

/-- The channel of the subscription still exists. -/
def alive (refs : List (Ref Holder Nat)) (sub : Subscription) : Bool := Held refs sub.channel

/-- As far as channels exist, `mSubscribers` is what `Subscribe` and `Unsubscribe` made it. -/
structure RegistryInv (s : Bus Data) : Prop where
  lists : ∀ key, (s.mSubscribers key).filter (alive s.refs) = (s.registry key).filter (alive s.refs)
  sublist : ∀ key, (s.mSubscribers key).Sublist (s.registry key)
  /-- `remove_if` has kept what exists. -/
  kept : ∀ i p it kept, s.calls i = .prune p it kept →
    kept.filter (alive s.refs) = ((s.mSubscribers p.key).take it).filter (alive s.refs) ∧
      kept.Sublist ((s.mSubscribers p.key).take it)

theorem registryInv_init (owned : List Nat) : RegistryInv (Bus.init owned : Bus Data) :=
  ⟨fun _ => rfl, fun _ => .slnil, fun _ _ _ _ h => by cases h⟩

/-- Lists that agree on what exists still do so when less exists. -/
theorem filter_alive_mono (hheld : ∀ c, Held s'.refs c → Held s.refs c)
    {l l' : List Subscription} (h : l.filter (alive s.refs) = l'.filter (alive s.refs)) :
    l.filter (alive s'.refs) = l'.filter (alive s'.refs) := by
  have hand : ∀ l : List Subscription,
      l.filter (alive s'.refs) = (l.filter (alive s.refs)).filter (alive s'.refs) := by
    intro l
    rw [List.filter_filter]
    refine List.filter_congr fun sub _ => ?_
    rw [Bool.eq_iff_iff, Bool.and_eq_true]
    simp only [alive, decide_eq_true_eq]
    exact ⟨fun hc => ⟨hc, hheld _ hc⟩, fun hc => hc.1⟩
  rw [hand l, hand l', h]

/-- The step does not write `mSubscribers`, and no thread moves on in `remove_if`. -/
theorem RegistryInv.frame (h : RegistryInv s) (hsubs : s'.mSubscribers = s.mSubscribers)
    (hreg : s'.registry = s.registry) (hheld : ∀ c, Held s'.refs c → Held s.refs c)
    (hcalls : ∀ j p it kept, s'.calls j = .prune p it kept →
      s.calls j = .prune p it kept ∨ (it = 0 ∧ kept = [])) : RegistryInv s' := by
  refine ⟨fun key => ?_, fun key => ?_, fun j p it kept hj => ?_⟩
  · rw [hsubs, hreg]
    exact filter_alive_mono hheld (h.lists key)
  · rw [hsubs, hreg]
    exact h.sublist key
  · rw [hsubs]
    rcases hcalls j p it kept hj with hj | ⟨rfl, rfl⟩
    · exact ⟨filter_alive_mono hheld (h.kept j p it kept hj).1, (h.kept j p it kept hj).2⟩
    · exact ⟨rfl, .slnil⟩

/-- Another thread does not prune while the mutex is free or `i` has it. -/
theorem LockInv.not_prune (h : LockInv s) {pc : BusPc Data}
    (hw : s.mMutex.writer = none ∨ s.mMutex.writer = some i) {j : Nat} {p : Publishing Data}
    {it : Nat} {kept : List Subscription}
    (hj : Function.update s.calls i pc j = .prune p it kept) (hpc : pc.writes = false) : False := by
  rcases eq_or_ne j i with rfl | hne
  · rw [Function.update_self] at hj
    rw [hj] at hpc
    cases hpc
  · rw [Function.update_of_ne hne] at hj
    have hwriter := (h.writer j).mpr (by rw [hj]; rfl)
    rcases hw with hw | hw
    · rw [hw] at hwriter
      cases hwriter
    · rw [hw] at hwriter
      exact hne (Option.some.inj hwriter).symm

theorem RegistryInv.threadMove (h : RegistryInv s) (hl : LockInv s)
    (hm : ThreadMove mCapacity s i s') : RegistryInv s' := by
  have hheld : ∀ c, Held s'.refs c → Held s.refs c := fun c hc => hm.held hc
  -- Another pc of `i` that is not in `remove_if`.
  have hother : ∀ pc : BusPc Data, pc.writes = false → ∀ j p it kept,
      Function.update s.calls i pc j = .prune p it kept →
        s.calls j = .prune p it kept ∨ (it = 0 ∧ kept = []) := by
    intro pc hpc j p it kept hj
    rcases eq_or_ne j i with rfl | hne
    · rw [Function.update_self] at hj
      rw [hj] at hpc
      cases hpc
    · rw [Function.update_of_ne hne] at hj
      exact .inl hj
  cases hm with
  | pruneLock hpc hlock =>
      refine h.frame rfl rfl hheld fun j p it kept hj => ?_
      rcases eq_or_ne j i with rfl | hne
      · simp only [Bus.goto, Function.update_self, BusPc.prune.injEq] at hj
        exact .inr ⟨hj.2.1.symm, hj.2.2.symm⟩
      · simp only [Bus.goto, Function.update_of_ne hne] at hj
        exact .inl hj
  | @prune p it kept sub hpc hsub =>
      refine ⟨h.lists, h.sublist, fun j q it' kept' hj => ?_⟩
      rcases eq_or_ne j i with rfl | hne
      · obtain ⟨hlist, hsublist⟩ := h.kept j p it kept hpc
        simp only [Bus.goto, Function.update_self, BusPc.prune.injEq] at hj
        obtain ⟨rfl, rfl, rfl⟩ := hj
        have htake : (s.mSubscribers p.key).take (it + 1) =
            (s.mSubscribers p.key).take it ++ [sub] := by
          rw [List.take_add_one, hsub]
          rfl
        simp only [Bus.goto]
        rw [htake]
        split
        next halive =>
          refine ⟨?_, hsublist.append (List.Sublist.refl _)⟩
          rw [List.filter_append, List.filter_append]
          exact congrArg (· ++ _) hlist
        next hgone =>
          refine ⟨?_, hsublist.trans (List.sublist_append_left _ _)⟩
          have hdead : [sub].filter (alive s.refs) = [] :=
            List.filter_eq_nil_iff.mpr fun x hx => by
              rw [List.mem_singleton.mp hx]
              simpa [alive] using hgone
          rw [List.filter_append]
          rw [hdead, List.append_nil]
          exact hlist
      · simp only [Bus.goto, Function.update_of_ne hne] at hj
        exact h.kept j q it' kept' hj
  | @pruneEnd p it kept hpc hend =>
      obtain ⟨hlist, hsublist⟩ := h.kept i p it kept hpc
      rw [List.take_of_length_le (List.getElem?_eq_none_iff.mp hend)] at hlist hsublist
      refine ⟨fun key => ?_, fun key => ?_, fun j q it' kept' hj => ?_⟩
      · rcases eq_or_ne key p.key with rfl | hne
        · simp only [Bus.goto, Function.update_self]
          exact hlist.trans (h.lists _)
        · simp only [Bus.goto, Function.update_of_ne hne]
          exact h.lists key
      · rcases eq_or_ne key p.key with rfl | hne
        · simp only [Bus.goto, Function.update_self]
          exact hsublist.trans (h.sublist _)
        · simp only [Bus.goto, Function.update_of_ne hne]
          exact h.sublist key
      · exact (hl.not_prune (.inr ((hl.writer i).mpr (by rw [hpc]; rfl))) hj rfl).elim
  | @insert key sub m hpc hlock =>
      obtain ⟨⟨-, hwriter⟩, -⟩ := SharedMutex.lock_eq_some hlock
      refine ⟨fun key' => ?_, fun key' => ?_, fun j q it' kept' hj => ?_⟩
      · rcases eq_or_ne key' key with rfl | hne
        · simp only [Bus.goto, Function.update_self, List.filter_append]
          exact congrArg (· ++ _) (h.lists _)
        · simp only [Bus.goto, Function.update_of_ne hne]
          exact h.lists key'
      · rcases eq_or_ne key' key with rfl | hne
        · simp only [Bus.goto, Function.update_self]
          exact (h.sublist _).append (List.Sublist.refl _)
        · simp only [Bus.goto, Function.update_of_ne hne]
          exact h.sublist key'
      · exact (hl.not_prune (.inl hwriter) hj rfl).elim
  | @unsubscribe handle m hpc hlock =>
      obtain ⟨⟨-, hwriter⟩, -⟩ := SharedMutex.lock_eq_some hlock
      refine ⟨fun key => ?_, fun key => (h.sublist key).filter _, fun j q it' kept' hj => ?_⟩
      · simp only [Bus.goto]
        rw [List.filter_comm, List.filter_comm (l := s.registry key)]
        exact congrArg _ (h.lists key)
      · exact (hl.not_prune (.inl hwriter) hj rfl).elim
  | @sentAll p needsPrune hpc =>
      cases needsPrune <;> exact h.frame rfl rfl hheld (hother _ rfl)
  | publish hpc | collectAlive hpc | collectGone hpc | collectEnd hpc | skip hpc | attempt hpc
  | send hpc | reject hpc | subscribe hpc | exit hpc =>
      exact h.frame rfl rfl hheld (hother _ rfl)

theorem RegistryInv.ownerMove (h : RegistryInv s) (hm : OwnerMove mCapacity s s') :
    RegistryInv s' := by
  have hheld : ∀ c, Held s'.refs c → Held s.refs c := fun c hc => hm.held hc
  cases hm with
  | @call i pc refs hidle hpc hrefs =>
      refine h.frame rfl rfl hheld fun j p it kept hj => ?_
      rcases eq_or_ne j i with rfl | hne
      · simp only [Bus.goto, Function.update_self] at hj
        have hw := hpc.2.2
        rw [hj] at hw
        cases hw
      · simp only [Bus.goto, Function.update_of_ne hne] at hj
        exact .inl hj
  | refs hrefs => exact h.frame rfl rfl hheld fun _ _ _ _ hj => .inl hj
  | queue ha hq => exact h.frame rfl rfl hheld fun _ _ _ _ hj => .inl hj

theorem RegistryInv.step {a : BusAct Data} (h : RegistryInv s) (hl : LockInv s)
    (hs : busStep mCapacity s a = some s') : RegistryInv s' := by
  rcases busStep_cases hs with ⟨i, -, hm⟩ | hm
  · exact h.threadMove hl hm
  · exact h.ownerMove hm

/-- Nobody can tell that `Publish` removes subscriptions: for each kind of event, those whose
channel exists are the ones that `Subscribe` put in and `Unsubscribe` did not take out, in order. -/
theorem prune_invisible {owned : List Nat} {as : List (BusAct Data)}
    (hrun : Machine.run (busStep mCapacity) (.init owned) as = some s) (key : UInt8) :
    (s.mSubscribers key).filter (alive s.refs) = (s.registry key).filter (alive s.refs) ∧
      (s.mSubscribers key).Sublist (s.registry key) := by
  have h : LockInv s ∧ RegistryInv s := by
    refine Machine.run_invariant (I := fun s => LockInv s ∧ RegistryInv s) ?_
      ⟨lockInv_init owned, registryInv_init owned⟩ hrun
    rintro u a u' ⟨hl, hr⟩ hs
    exact ⟨hl.step hs, hr.step hl hs⟩
  exact ⟨h.2.lists key, h.2.sublist key⟩

/-- The owner of a channel subscribes and lets go of it before an event is published. -/
def prunedTrace : List (BusAct Nat) :=
  [.subscribe 0 1 7, .thread 0, .thread 0, .thread 0, .drop 7, .publish 1 1 42] ++
    .replicate 8 (.thread 1)

theorem prune_invisible_pruned :
    ∃ s, Machine.run (busStep fun _ => 0) (.init [7]) prunedTrace = some s ∧
      s.mSubscribers 1 = [] ∧ s.registry 1 = [⟨1, 7⟩] ∧
        ((s.mSubscribers 1).filter (alive s.refs) = (s.registry 1).filter (alive s.refs) ∧
          (s.mSubscribers 1).Sublist (s.registry 1)) := by
  have hrun : (Machine.run (busStep fun _ => 0) (.init [7]) prunedTrace).any (fun s =>
      decide (s.mSubscribers 1 = [] ∧ s.registry 1 = [⟨1, 7⟩])) = true := by decide +kernel
  obtain ⟨s, hs, hp⟩ := (Option.any_eq_true _ _).mp hrun
  obtain ⟨hsubs, hreg⟩ := of_decide_eq_true hp
  exact ⟨s, hs, hsubs, hreg, prune_invisible hs 1⟩

end

end NetworkModule.EventBus
