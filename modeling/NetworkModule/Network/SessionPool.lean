import NetworkModule.Lib.Machine
import NetworkModule.Lib.Tally

/-!
# SessionPool

The free list and the slots of `SessionPool`, with `Initialize`, `Shutdown`, `Acquire` and
`ReleaseInternal` step by step.  A `SessionRef` stands for all copies of one `shared_ptr`, and
when the last of them goes its deleter calls `ReleaseInternal` with the slot index that it has
captured.  The deleter captures nothing else.  The array that the index belongs to is what
the model calls the *generation* of the reference.

The lock of the free list protects `Acquire`, `ReleaseInternal` and `Shutdown` from each
other, but neither `Initialize` nor the accesses to `mSlots` take it.
-/

namespace NetworkModule.SessionPool

/-- A reference to a session of the pool. -/
structure SessionRef where
  /-- What the deleter has captured. -/
  slotIdx : Nat
  /-- The array that the session is in. -/
  generation : Nat
  deriving DecidableEq, Repr

/-- Where a call stands. -/
inductive CallPc where
  /-- `Initialize` tests `mInitialized` and the capacity. -/
  | initTest (capacity : UInt64)
  /-- `mCapacity = capacity`. -/
  | initCapacity (capacity : UInt64)
  /-- `mSlots = std::make_unique<PoolSlot[]>(capacity)`. -/
  | initSlots (capacity : UInt64)
  /-- The loop that fills the free list. -/
  | initPush (capacity : UInt64) (i : Nat)
  /-- `mInitialized = true`. -/
  | initDone
  /-- `Shutdown` tests `mInitialized`. -/
  | shutdownTest
  /-- `mInitialized = false`. -/
  | shutdownFlag
  | shutdownLock
  /-- `mFreeList.clear()`. -/
  | shutdownClear
  /-- `mSlots.reset()`. -/
  | shutdownSlots
  /-- `mCapacity = 0`. -/
  | shutdownCapacity
  /-- `mActiveCount.store(0)`, and the end of the critical section. -/
  | shutdownCount
  /-- The critical section of `Acquire`. -/
  | acquirePop
  /-- `slot.inUse.store(true)`. -/
  | acquireInUse (slotIdx : Nat)
  /-- `mActiveCount.fetch_add(1)`. -/
  | acquireCount (r : SessionRef)
  /-- `Acquire` makes the reference. -/
  | acquireReturn (r : SessionRef)
  /-- `ReleaseInternal` tests `mSlots` and the index. -/
  | releaseTest (r : SessionRef)
  /-- `Close` and `Reset` of the session. -/
  | releaseClose (slotIdx : Nat)
  /-- `slot.inUse.store(false)`. -/
  | releaseInUse (slotIdx : Nat)
  /-- `mActiveCount.fetch_sub(1)`. -/
  | releaseCount (slotIdx : Nat)
  /-- The critical section of `ReleaseInternal`. -/
  | releasePush (slotIdx : Nat)
  | returned
  deriving DecidableEq, Repr

/-- The pool, its references and the calls that have begun. -/
structure Pool where
  mInitialized : Bool := false
  mCapacity : UInt64 := 0
  /-- The `inUse` flags of the slots. -/
  mSlots : Option (List Bool) := none
  /-- The last one first. -/
  mFreeList : List Nat := []
  /-- The call of `Shutdown` that has `mFreeListMutex`. -/
  mFreeListMutex : Option Nat := none
  /-- A `size_t`. -/
  mActiveCount : Nat := 0
  refs : List SessionRef := []
  /-- How often `mSlots` has been set. -/
  generation : Nat := 0
  calls : List CallPc := []
  /-- A slot has been used that does not exist. -/
  undefined : Bool := false
  deriving DecidableEq, Repr

/-- The call with number `i`. -/
def Pool.callAt (s : Pool) (i : Nat) : CallPc := s.calls.getD i .returned

def Pool.setCall (s : Pool) (i : Nat) (pc : CallPc) : Pool := { s with calls := s.calls.set i pc }

def Pool.begin (s : Pool) (pc : CallPc) : Pool := { s with calls := s.calls ++ [pc] }

/-- The call uses the slot, and goes on. -/
def Pool.useSlot (s : Pool) (i slotIdx : Nat) (f : Bool → Bool) (pc : CallPc) : Pool :=
  match s.mSlots with
  | none => { s with undefined := true }
  | some slots =>
      if slotIdx < slots.length then { s with mSlots := some (slots.modify slotIdx f) }.setCall i pc
      else { s with undefined := true }

/-- `fetch_add(1)` of a `size_t`. -/
def increment (count : Nat) : Nat := (count + 1) % 2 ^ 64

/-- `fetch_sub(1)` of a `size_t`. -/
def decrement (count : Nat) : Nat := if count = 0 then 2 ^ 64 - 1 else count - 1

/-- A step of the call with number `i`. -/
def callStep (s : Pool) (i : Nat) : CallPc → Option Pool
  | .initTest capacity =>
      some (s.setCall i (if s.mInitialized = true ∨ capacity = 0 then .returned
        else .initCapacity capacity))
  | .initCapacity capacity => some ({ s with mCapacity := capacity }.setCall i (.initSlots capacity))
  | .initSlots capacity =>
      some ({ s with
        mSlots := some (List.replicate capacity.toNat false)
        generation := s.generation + 1 }.setCall i (.initPush capacity 0))
  | .initPush capacity k =>
      some (if k < capacity.toNat then
          { s with mFreeList := k :: s.mFreeList }.setCall i (.initPush capacity (k + 1))
        else s.setCall i .initDone)
  | .initDone => some ({ s with mInitialized := true }.setCall i .returned)
  | .shutdownTest => some (s.setCall i (if s.mInitialized then .shutdownFlag else .returned))
  | .shutdownFlag => some ({ s with mInitialized := false }.setCall i .shutdownLock)
  | .shutdownLock =>
      if s.mFreeListMutex = none then
        some ({ s with mFreeListMutex := some i }.setCall i .shutdownClear)
      else none
  | .shutdownClear => some ({ s with mFreeList := [] }.setCall i .shutdownSlots)
  | .shutdownSlots =>
      some ({ s with mSlots := none, generation := s.generation + 1 }.setCall i .shutdownCapacity)
  | .shutdownCapacity => some ({ s with mCapacity := 0 }.setCall i .shutdownCount)
  | .shutdownCount =>
      some ({ s with mActiveCount := 0, mFreeListMutex := none }.setCall i .returned)
  | .acquirePop =>
      if s.mFreeListMutex = none then
        match s.mFreeList with
        | [] => some (s.setCall i .returned)
        | k :: rest => some ({ s with mFreeList := rest }.setCall i (.acquireInUse k))
      else none
  | .acquireInUse k => some (s.useSlot i k (fun _ => true) (.acquireCount ⟨k, s.generation⟩))
  | .acquireCount r =>
      some ({ s with mActiveCount := increment s.mActiveCount }.setCall i (.acquireReturn r))
  | .acquireReturn r => some ({ s with refs := r :: s.refs }.setCall i .returned)
  | .releaseTest r =>
      some (s.setCall i (if s.mSlots = none ∨ s.mCapacity.toNat ≤ r.slotIdx then .returned
        else .releaseClose r.slotIdx))
  | .releaseClose k => some (s.useSlot i k id (.releaseInUse k))
  | .releaseInUse k => some (s.useSlot i k (fun _ => false) (.releaseCount k))
  | .releaseCount k =>
      some ({ s with mActiveCount := decrement s.mActiveCount }.setCall i
        (.releasePush k))
  | .releasePush k =>
      if s.mFreeListMutex = none then
        some ({ s with mFreeList := k :: s.mFreeList }.setCall i .returned)
      else none
  | .returned => none

/-- What happens next. -/
inductive Act where
  | init (capacity : UInt64)
  | shutdown
  | acquire
  /-- The last copy of a reference goes. -/
  | drop (r : SessionRef)
  /-- A call goes on. -/
  | call (i : Nat)
  deriving DecidableEq, Repr

/-- One step. -/
def step (s : Pool) (a : Act) : Option Pool :=
  if s.undefined then none
  else
    match a with
    | .init capacity => some (s.begin (.initTest capacity))
    | .shutdown => some (s.begin .shutdownTest)
    | .acquire => some (s.begin .acquirePop)
    | .drop r =>
        if r ∈ s.refs then some ({ s with refs := s.refs.erase r }.begin (.releaseTest r)) else none
    | .call i => callStep s i (s.callAt i)

/-! ## Who has the slots -/

/-- The slot of a reference to a session of this generation. -/
def SessionRef.slot (generation : Nat) (r : SessionRef) : Option Nat :=
  if r.generation = generation then some r.slotIdx else none

/-- The slot that a call has in hand: `Acquire` has popped it and not yet made a reference, or
its last reference has gone and `ReleaseInternal` has not yet pushed it. -/
def CallPc.slot (generation : Nat) : CallPc → Option Nat
  | .acquireInUse k | .releaseClose k | .releaseInUse k | .releaseCount k | .releasePush k => some k
  | .acquireCount r | .acquireReturn r => some r.slotIdx
  | .releaseTest r => r.slot generation
  | _ => none

/-- `mActiveCount` counts the slot that the call has in hand. -/
def CallPc.counted (generation : Nat) : CallPc → Bool
  | .acquireReturn _ | .releaseClose _ | .releaseInUse _ | .releaseCount _ => true
  | .releaseTest r => r.generation = generation
  | _ => false

/-- The slots of the live references of this generation. -/
def Pool.live (s : Pool) : List Nat := s.refs.filterMap (SessionRef.slot s.generation)

/-- The slots that calls have in hand. -/
def Pool.inHand (s : Pool) : List Nat := s.calls.filterMap (CallPc.slot s.generation)

/-- `Initialize` or `Shutdown`. -/
def CallPc.manages : CallPc → Bool
  | .initTest _ | .initCapacity _ | .initSlots _ | .initPush _ _ | .initDone | .shutdownTest
  | .shutdownFlag | .shutdownLock | .shutdownClear | .shutdownSlots | .shutdownCapacity
  | .shutdownCount => true
  | _ => false

/-- `Initialize` or `Shutdown` in the middle. -/
def CallPc.mid : CallPc → Bool
  | .initTest _ | .shutdownTest => false
  | pc => pc.manages

/-- While no `Initialize` and no `Shutdown` is under way, the free list, the live references and
the calls partition the slots, and `mActiveCount` counts those that are not free. -/
structure Partition (s : Pool) : Prop where
  slots : (s.mFreeList ++ (s.live ++ s.inHand)).Perm (List.range s.mCapacity.toNat)
  active : s.mActiveCount = s.live.length + s.calls.countP (CallPc.counted s.generation)

/-! ## Runs in which nothing outlives its array -/

/-- `Initialize` and `Shutdown` run beside no other call. -/
def Pool.Alone (s : Pool) (i : Nat) : Prop :=
  ∀ j < s.calls.length, j ≠ i → (s.callAt i).manages = true ∨ (s.callAt j).manages = true →
    s.callAt j = .returned

instance (s : Pool) (i : Nat) : Decidable (s.Alone i) :=
  inferInstanceAs (Decidable (∀ j < _, _ → _ → _))

/-- The reference whose last copy has gone. -/
def CallPc.dropped : CallPc → Option SessionRef
  | .releaseTest r => some r
  | _ => none

/-- The reference that goes is of this generation, or `ReleaseInternal` returns at once. -/
def Pool.Fresh (s : Pool) (pc : CallPc) : Prop :=
  ∀ r ∈ pc.dropped,
    r.generation = s.generation ∨ s.mSlots = none ∨ s.mCapacity.toNat ≤ r.slotIdx

instance (s : Pool) (pc : CallPc) : Decidable (s.Fresh pc) :=
  inferInstanceAs (Decidable (∀ r ∈ _, _))

/-- Nothing outlives the array that it belongs to. -/
def Orderly (s : Pool) : Act → Prop
  | .call i => s.Alone i ∧ s.Fresh (s.callAt i)
  | .init _ | .shutdown | .acquire | .drop _ => True

instance (s : Pool) : (a : Act) → Decidable (Orderly s a)
  | .call _ => inferInstanceAs (Decidable (_ ∧ _))
  | .init _ | .shutdown | .acquire | .drop _ => isTrue trivial

/-- A reference outlives a `Shutdown`, and goes after the pool has been initialized again. -/
def staleTrace : List Act :=
  List.flatten
    [[.init 2], List.replicate 7 (.call 0), [.acquire], List.replicate 4 (.call 1), [.shutdown],
      List.replicate 7 (.call 2), [.init 2], List.replicate 7 (.call 3), [.drop ⟨1, 1⟩],
      List.replicate 5 (.call 4)]

/-- The index is in the free list twice then, and the count of no slots has wrapped. -/
theorem not_partition_staleTrace :
    ∃ s, Machine.run step {} staleTrace = some s ∧ (∀ pc ∈ s.calls, pc.mid = false) ∧
      s.mFreeList = [1, 1, 0] ∧ s.mActiveCount = 2 ^ 64 - 1 ∧ ¬ Partition s :=
  ⟨_, rfl, by decide, rfl, rfl, fun h => absurd h.active (by decide)⟩

end NetworkModule.SessionPool
