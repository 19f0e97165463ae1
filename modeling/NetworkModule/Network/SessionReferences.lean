import NetworkModule.Network.SessionLifetime

/-!
# What a reference guarantees

A slot to which there is a reference is in use and is not being released, and a slot in use
that nobody is releasing has a reference (`SlotInv`).  So the session of a reference stays
what it was: only `CreateSession` gives it its id, before any other thread can get at it, and
only `ReleaseInternal` takes it away (`MapInv`, `ThreadInv`).  A closure has its reference
from the time it is made until it is destroyed, and it is in one place all the time
(`ClosureInv`).

`LifeInv` is all of this.  Here is what the moves of one part of the engine do to it.
-/

namespace NetworkModule.SessionLifetime

open References (Ref Held Released held_of_mem held_cons)

/-! ## Invariants -/

/-- The slots that the thread will close after this call of `Close`. -/
def AfterClose.needs : AfterClose → List Nat
  | .nothing | .erase _ => []
  | .closeAll rest => rest

/-- The slots of which the thread needs its reference to go on. -/
def ThreadPc.needs : ThreadPc → List Nat
  | .idle | .limitTest | .acquire | .erase _ | .submit _ => []
  | .initSession k | .register k _ | .removeTest k _ => [k]
  | .close k next | .cancel k next => k :: next.needs
  | .closeAll rest => rest

/-- The thread has acquired the slot and has not registered the session. -/
def ThreadPc.creates : ThreadPc → Option Nat
  | .initSession k | .register k _ => some k
  | _ => none

/-- The closure exists. -/
def Stage.alive : Stage → Bool
  | .none | .rejected | .refused | .destroyed => false
  | _ => true

/-- `Submit` or `Dispatch` has not returned. -/
def Stage.inSubmit : Stage → Bool
  | .beginTask | .cancelledTest | .dispatch | .push | .cancelled | .rejected => true
  | _ => false

/-- A worker runs the closure. -/
def Stage.running : Stage → Bool
  | .popped | .body | .endTask => true
  | _ => false

/-- A slot with a reference is in use, and the others are free or are being released. -/
structure SlotInv (slots : Nat → Slot) (refs : List (Ref Holder Nat)) (mFreeList : List Nat) :
    Prop where
  used : ∀ k, Held refs k → (slots k).inUse = true ∧ (slots k).release = none
  held : ∀ k, (slots k).inUse = true → (slots k).release = none → Held refs k
  releasing : ∀ k, (slots k).release ≠ none → (slots k).inUse = true
  free : ∀ k ∈ mFreeList, (slots k).inUse = false
  free_nodup : mFreeList.Nodup

/-- The entries of the manager are the sessions with these ids. -/
structure MapInv (slots : Nat → Slot) (refs : List (Ref Holder Nat)) : Prop where
  id : ∀ id k, ⟨.map id, k⟩ ∈ refs → (slots k).mId = id
  once : ∀ id k k', ⟨.map id, k⟩ ∈ refs → ⟨.map id, k'⟩ ∈ refs → k = k'

/-- The threads have the references that their calls use. -/
structure ThreadInv (slots : Nat → Slot) (refs : List (Ref Holder Nat)) (threads : Nat → ThreadPc) :
    Prop where
  needs : ∀ t, ∀ k ∈ (threads t).needs, ⟨.thread t, k⟩ ∈ refs
  /-- Nobody else gets at a session that is being created. -/
  creates : ∀ t k, (threads t).creates = some k → ∀ r ∈ refs, r.slot = k → r.holder = .thread t
  register : ∀ t k id, threads t = .register k id → (slots k).mId = id

/-- The closures have their references, and are where their stages say. -/
structure ClosureInv (slots : Nat → Slot) (refs : List (Ref Holder Nat)) (threads : Nat → ThreadPc)
    (closures : Nat → Closure) (workers : Nat → Worker) : Prop where
  ref : ∀ n k, ⟨.closure n, k⟩ ∈ refs ↔
    (closures n).stage.alive = true ∧ (closures n).slot = k
  incarnation : ∀ n, (closures n).stage.alive = true →
    (slots (closures n).slot).incarnation = (closures n).incarnation
  submit : ∀ t n, threads t = .submit n → ⟨.thread t, (closures n).slot⟩ ∈ refs ∧
    (closures n).owner = t ∧ (closures n).stage.inSubmit = true
  owner : ∀ n, (closures n).stage.inSubmit = true → threads (closures n).owner = .submit n
  queue : ∀ i, ∀ n ∈ (workers i).mQueue, (closures n).stage = .queued ∧ (closures n).worker = i
  queue_nodup : ∀ i, (workers i).mQueue.Nodup
  queued : ∀ n, (closures n).stage = .queued → n ∈ (workers (closures n).worker).mQueue
  task : ∀ i n, (workers i).task = some n → (closures n).worker = i ∧
    ((workers i).pc = .run ∧ (closures n).stage.running = true ∨
      (workers i).pc = .pop ∧ ∃ b, (closures n).stage = .done b)
  running : ∀ n, (closures n).stage.running = true →
    (workers (closures n).worker).task = some n
  done : ∀ n b, (closures n).stage = .done b → (workers (closures n).worker).task = some n

/-- What holds in every state. -/
structure LifeInv (s : Engine) : Prop where
  slots : SlotInv s.slots s.refs s.mFreeList
  map : MapInv s.slots s.refs
  threads : ThreadInv s.slots s.refs s.threads
  closures : ClosureInv s.slots s.refs s.threads s.closures s.workers

theorem lifeInv_init (capacity : Nat) : LifeInv (.init capacity) where
  slots := {
    used := by simp [Engine.init, Held]
    held := by simp [Engine.init]
    releasing := by simp [Engine.init]
    free := by simp [Engine.init]
    free_nodup := List.nodup_reverse.mpr List.nodup_range }
  map := ⟨by simp [Engine.init], by simp [Engine.init]⟩
  threads := ⟨by simp [Engine.init, ThreadPc.needs], by simp [Engine.init], by simp [Engine.init]⟩
  closures := {
    ref := by simp [Engine.init, Stage.alive]
    incarnation := by simp [Engine.init, Stage.alive]
    submit := by simp [Engine.init]
    owner := by simp [Engine.init, Stage.inSubmit]
    queue := by simp [Engine.init]
    queue_nodup := by simp [Engine.init]
    queued := by simp [Engine.init]
    task := by simp [Engine.init]
    running := by simp [Engine.init, Stage.running]
    done := by simp [Engine.init] }

/-! ## Slots -/

section
variable {slots slots' : Nat → Slot} {refs refs' : List (Ref Holder Nat)} {mFreeList : List Nat}

/-- The change does not use or release a slot. -/
theorem SlotInv.congr (h : SlotInv slots refs mFreeList)
    (hslots : ∀ k, (slots' k).inUse = (slots k).inUse ∧ (slots' k).release = (slots k).release) :
    SlotInv slots' refs mFreeList where
  used := fun k hk => by
    rw [(hslots k).1, (hslots k).2]
    exact h.used k hk
  held := fun k => by
    rw [(hslots k).1, (hslots k).2]
    exact h.held k
  releasing := fun k => by
    rw [(hslots k).1, (hslots k).2]
    exact h.releasing k
  free := fun k hk => by
    rw [(hslots k).1]
    exact h.free k hk
  free_nodup := h.free_nodup

/-- References are copied. -/
theorem SlotInv.grow (h : SlotInv slots refs mFreeList) (hsub : refs ⊆ refs')
    (hheld : ∀ r ∈ refs', Held refs r.slot) : SlotInv slots refs' mFreeList :=
  { h with
    used := by
      rintro k ⟨r, hr, rfl⟩
      exact h.used _ (hheld r hr)
    held := fun k hu hn => by
      obtain ⟨r, hr, hk⟩ := h.held k hu hn
      exact ⟨r, hsub hr, hk⟩ }

/-- The references change, and the slots without one are released. -/
theorem SlotInv.setRefs (h : SlotInv slots refs mFreeList)
    (hheld : ∀ r ∈ refs', Held refs r.slot) :
    SlotInv (fun k => if Released refs refs' k then { slots k with release := some .close }
      else slots k) refs' mFreeList where
  used := by
    rintro k ⟨r, hr, rfl⟩
    rw [if_neg fun hrel => hrel.2 (held_of_mem hr)]
    exact h.used _ (hheld r hr)
  held := fun k hu hn => by
    by_cases hrel : Released refs refs' k
    · simp [hrel] at hn
    · rw [if_neg hrel] at hu hn
      by_contra hno
      exact hrel ⟨h.held k hu hn, hno⟩
  releasing := fun k hn => by
    by_cases hrel : Released refs refs' k
    · rw [if_pos hrel]
      exact (h.used k hrel.1).1
    · rw [if_neg hrel] at hn ⊢
      exact h.releasing k hn
  free := fun k hk => by
    have hfree := h.free k hk
    split
    · exact hfree
    · exact hfree
  free_nodup := h.free_nodup

/-- A slot that is free or is being released has no reference. -/
theorem SlotInv.not_held (h : SlotInv slots refs mFreeList) {k : Nat}
    (hk : (slots k).inUse = false ∨ (slots k).release ≠ none) : ¬ Held refs k := by
  intro hheld
  obtain ⟨hu, hn⟩ := h.used k hheld
  rcases hk with hk | hk
  · simp [hu] at hk
  · exact hk hn

/-- `Acquire` takes the last slot of the free list. -/
theorem SlotInv.acquire {k : Nat} {slot : Slot} {holder : Holder}
    (h : SlotInv slots refs (k :: mFreeList)) (hu : slot.inUse = true)
    (hn : slot.release = (slots k).release) :
    SlotInv (Function.update slots k slot) (⟨holder, k⟩ :: refs) mFreeList := by
  have hfree : (slots k).inUse = false := h.free k (List.mem_cons_self ..)
  have hnone : (slots k).release = none := by
    by_contra hne
    simp [h.releasing k hne] at hfree
  obtain ⟨hnot, hnodup⟩ := List.nodup_cons.mp h.free_nodup
  refine ⟨fun j hj => ?_, fun j hju hjn => ?_, fun j hj => ?_, fun j hj => ?_, hnodup⟩
  · by_cases hjk : j = k
    · subst hjk
      simp [hu, hn, hnone]
    · rw [Function.update_of_ne hjk]
      exact h.used j ((held_cons.mp hj).resolve_left (Ne.symm hjk))
  · by_cases hjk : j = k
    · exact ⟨_, List.mem_cons_self .., hjk.symm⟩
    · rw [Function.update_of_ne hjk] at hju hjn
      exact held_cons.mpr (.inr (h.held j hju hjn))
  · by_cases hjk : j = k
    · subst hjk
      simpa using hu
    · rw [Function.update_of_ne hjk] at hj ⊢
      exact h.releasing j hj
  · have hjk : j ≠ k := fun he => hnot (he ▸ hj)
    rw [Function.update_of_ne hjk]
    exact h.free j (List.mem_cons_of_mem k hj)

/-- A step of `ReleaseInternal` before the last. -/
theorem SlotInv.releasing_step {k : Nat} {slot : Slot} (h : SlotInv slots refs mFreeList)
    (hk : (slots k).release ≠ none) (hu : slot.inUse = (slots k).inUse)
    (hn : slot.release ≠ none) : SlotInv (Function.update slots k slot) refs mFreeList := by
  have hnot := h.not_held (.inr hk)
  have hinUse := h.releasing k hk
  refine ⟨fun j hj => ?_, fun j hju hjn => ?_, fun j hj => ?_, fun j hj => ?_, h.free_nodup⟩
  · have hjk : j ≠ k := fun he => hnot (he ▸ hj)
    rw [Function.update_of_ne hjk]
    exact h.used j hj
  · by_cases hjk : j = k
    · subst hjk
      simp [hn] at hjn
    · rw [Function.update_of_ne hjk] at hju hjn
      exact h.held j hju hjn
  · by_cases hjk : j = k
    · subst hjk
      simpa [hu] using hinUse
    · rw [Function.update_of_ne hjk] at hj ⊢
      exact h.releasing j hj
  · have hjk : j ≠ k := fun he => by simp [he ▸ h.free j hj] at hinUse
    rw [Function.update_of_ne hjk]
    exact h.free j hj

/-- The last step of `ReleaseInternal`. -/
theorem SlotInv.push {k : Nat} {slot : Slot} (h : SlotInv slots refs mFreeList)
    (hk : (slots k).release ≠ none) (hu : slot.inUse = false) (hn : slot.release = none) :
    SlotInv (Function.update slots k slot) refs (k :: mFreeList) := by
  have hnot := h.not_held (.inr hk)
  have hinUse := h.releasing k hk
  have hnotFree : k ∉ mFreeList := fun hm => by simp [h.free k hm] at hinUse
  refine ⟨fun j hj => ?_, fun j hju hjn => ?_, fun j hj => ?_, fun j hj => ?_,
    List.nodup_cons.mpr ⟨hnotFree, h.free_nodup⟩⟩
  · have hjk : j ≠ k := fun he => hnot (he ▸ hj)
    rw [Function.update_of_ne hjk]
    exact h.used j hj
  · by_cases hjk : j = k
    · subst hjk
      simp [hu] at hju
    · rw [Function.update_of_ne hjk] at hju hjn
      exact h.held j hju hjn
  · by_cases hjk : j = k
    · subst hjk
      simp [hn] at hj
    · rw [Function.update_of_ne hjk] at hj ⊢
      exact h.releasing j hj
  · by_cases hjk : j = k
    · subst hjk
      simpa using hu
    · rw [Function.update_of_ne hjk]
      exact h.free j ((List.mem_cons.mp hj).resolve_left hjk)

end

/-! ## Moves of one part -/

section
variable {s s' : Engine}

/-- A thread goes on, and its next call needs no more than it has. -/
theorem LifeInv.setThread (h : LifeInv s) {t : Nat} {pc : ThreadPc}
    (hneeds : ∀ k ∈ pc.needs, s.holds t k) (hcreates : pc.creates = none)
    (hold : ∀ n, s.threads t ≠ .submit n) (hsubmit : ∀ n, pc ≠ .submit n) :
    LifeInv (s.setThread t pc) := by
  have hreg : ∀ k id, pc ≠ .register k id := by
    rintro k id rfl
    cases hcreates
  refine { h with threads := ?_, closures := { h.closures with submit := ?_, owner := ?_ } }
  · obtain ⟨h1, h2, h3⟩ := h.threads
    refine ⟨?_, ?_, ?_⟩ <;>
      simp only [Engine.setThread, Function.update_apply] <;> grind -ring -linarith [Engine.holds]
  · have h1 := h.closures.submit
    simp only [Engine.setThread, Function.update_apply]
    grind -ring -linarith
  · have h1 := h.closures.owner
    simp only [Engine.setThread, Function.update_apply]
    grind -ring -linarith

/-- A slot changes, but not what the invariant says of it. -/
theorem LifeInv.setSlot (h : LifeInv s) {k : Nat} {slot : Slot}
    (hu : slot.inUse = (s.slots k).inUse) (hn : slot.release = (s.slots k).release)
    (hid : slot.mId = (s.slots k).mId) (hinc : slot.incarnation = (s.slots k).incarnation) :
    LifeInv (s.setSlot k slot) := by
  have hsame : ∀ j, ((Function.update s.slots k slot) j).inUse = (s.slots j).inUse ∧
      ((Function.update s.slots k slot) j).release = (s.slots j).release ∧
      ((Function.update s.slots k slot) j).mId = (s.slots j).mId ∧
      ((Function.update s.slots k slot) j).incarnation = (s.slots j).incarnation := by
    intro j
    by_cases hj : j = k
    · subst hj
      simp [hu, hn, hid, hinc]
    · simp [hj]
  exact {
    slots := h.slots.congr fun j => ⟨(hsame j).1, (hsame j).2.1⟩
    map := {
      id := fun id j hj => (hsame j).2.2.1.trans (h.map.id id j hj)
      once := h.map.once }
    threads := { h.threads with
      register := fun t j id hpc => (hsame j).2.2.1.trans (h.threads.register t j id hpc) }
    closures := { h.closures with
      incarnation := fun n hn => (hsame _).2.2.2.trans (h.closures.incarnation n hn) } }

/-- A session is opened or closed, or its tasks are counted. -/
theorem LifeInv.setState (h : LifeInv s) (k : Nat) (mState : SessionState) (mCancelled : Bool)
    (mInFlight : Nat) :
    LifeInv (s.setSlot k { s.slots k with
      mState := mState, mCancelled := mCancelled, mInFlight := mInFlight }) :=
  h.setSlot rfl rfl rfl rfl

/-- A thread goes on after a call of `Close`. -/
theorem LifeInv.afterClose (h : LifeInv s) {t : Nat} {next : AfterClose}
    (hneeds : ∀ k ∈ next.needs, s.holds t k) (hold : ∀ n, s.threads t ≠ .submit n) :
    LifeInv (s.setThread t next.pc) := by
  cases next with
  | nothing =>
      exact h.setThread (by simp [AfterClose.pc, ThreadPc.needs]) rfl hold (by simp [AfterClose.pc])
  | erase id =>
      exact h.setThread (by simp [AfterClose.pc, ThreadPc.needs]) rfl hold (by simp [AfterClose.pc])
  | closeAll rest => exact h.setThread hneeds rfl hold (by simp [AfterClose.pc])

/-- What changes at the slots when the references do. -/
theorem setRefs_slots (s : Engine) (refs : List (Ref Holder Nat)) (k : Nat) :
    ((s.setRefs refs).slots k).mId = (s.slots k).mId ∧
      ((s.setRefs refs).slots k).incarnation = (s.slots k).incarnation ∧
      ((s.setRefs refs).slots k).mInFlight = (s.slots k).mInFlight := by
  simp only [Engine.setRefs]
  split <;> exact ⟨rfl, rfl, rfl⟩

/-- References that are added release nothing. -/
theorem setRefs_of_subset (s : Engine) {refs : List (Ref Holder Nat)} (hsub : s.refs ⊆ refs) :
    s.setRefs refs = { s with refs := refs } := by
  have hslots : (s.setRefs refs).slots = s.slots := funext fun k =>
    if_neg (References.not_released_of_subset hsub k)
  exact congrArg (fun slots => { s with refs := refs, slots := slots }) hslots

/-- References are copied and dropped, and the closures keep theirs. -/
theorem LifeInv.setRefs (h : LifeInv s) {refs : List (Ref Holder Nat)}
    (hnew : ∀ r ∈ refs, r ∈ s.refs ∨
      Held s.refs r.slot ∧ ∀ t, (s.threads t).creates ≠ some r.slot)
    (hmap : MapInv s.slots refs) (hneeds : ∀ t, ∀ k ∈ (s.threads t).needs, ⟨.thread t, k⟩ ∈ refs)
    (hsubmit : ∀ t n, s.threads t = .submit n → ⟨.thread t, (s.closures n).slot⟩ ∈ refs)
    (hclosure : ∀ n k, ⟨.closure n, k⟩ ∈ refs ↔ ⟨.closure n, k⟩ ∈ s.refs) :
    LifeInv (s.setRefs refs) where
  slots := h.slots.setRefs fun r hr => by
    rcases hnew r hr with hr | hr
    · exact held_of_mem hr
    · exact hr.1
  map := {
    id := fun id k hk => (setRefs_slots s refs k).1.trans (hmap.id id k hk)
    once := hmap.once }
  threads := {
    needs := hneeds
    creates := fun t k hpc r hr hk => by
      rcases hnew r hr with hr | ⟨-, hno⟩
      · exact h.threads.creates t k hpc r hr hk
      · exact absurd (hk ▸ hpc) (hno t)
    register := fun t k id hpc =>
      (setRefs_slots s refs k).1.trans (h.threads.register t k id hpc) }
  closures := { h.closures with
    ref := fun n k => (hclosure n k).trans (h.closures.ref n k)
    incarnation := fun n hn => (setRefs_slots s refs _).2.1.trans (h.closures.incarnation n hn)
    submit := fun t n hpc => ⟨hsubmit t n hpc, (h.closures.submit t n hpc).2⟩ }

/-- References of threads that need none, and of the manager, are dropped. -/
theorem LifeInv.drop (h : LifeInv s) {refs : List (Ref Holder Nat)} (hsub : refs ⊆ s.refs)
    (hkeep : ∀ r ∈ s.refs, r ∈ refs ∨
      (∀ n, r.holder ≠ .closure n) ∧ ∀ t, r.holder = .thread t → s.threads t = .idle) :
    LifeInv (s.setRefs refs) := by
  have hthread : ∀ t k, s.threads t ≠ .idle → ⟨.thread t, k⟩ ∈ s.refs → ⟨.thread t, k⟩ ∈ refs := by
    intro t k hpc hk
    exact (hkeep _ hk).resolve_right fun hno => hpc (hno.2 t rfl)
  refine h.setRefs (fun r hr => .inl (hsub hr)) ?_ (fun t k hk => ?_) (fun t n hpc => ?_)
    fun n k => ⟨fun hr => hsub hr, fun hr => ?_⟩
  · exact ⟨fun id k hk => h.map.id id k (hsub hk),
      fun id k k' hk hk' => h.map.once id k k' (hsub hk) (hsub hk')⟩
  · exact hthread t k (fun hpc => by simp [hpc, ThreadPc.needs] at hk) (h.threads.needs t k hk)
  · exact hthread t _ (by simp [hpc]) (h.closures.submit t n hpc).1
  · exact (hkeep _ hr).resolve_right fun hno => hno.1 n rfl

/-- A thread copies a reference to a session that nobody is creating. -/
theorem LifeInv.copies (h : LifeInv s) {t : Nat} {ks : List Nat}
    (hks : ∀ k ∈ ks, Held s.refs k ∧ ∀ t', (s.threads t').creates ≠ some k) :
    LifeInv { s with refs := (ks.map fun k => Ref.mk (Holder.thread t) k) ++ s.refs } := by
  have hsub : ∀ r ∈ s.refs, r ∈ (ks.map fun k => Ref.mk (Holder.thread t) k) ++ s.refs :=
    fun r hr => List.mem_append_right _ hr
  have hback : ∀ r ∈ (ks.map fun k => Ref.mk (Holder.thread t) k) ++ s.refs,
      r.holder ≠ .thread t → r ∈ s.refs := by
    intro r hr hno
    rcases List.mem_append.mp hr with hr | hr
    · obtain ⟨k, -, rfl⟩ := List.mem_map.mp hr
      exact absurd rfl hno
    · exact hr
  rw [← setRefs_of_subset s hsub]
  refine h.setRefs (fun r hr => ?_) ?_ (fun t' k hk => hsub _ (h.threads.needs t' k hk))
    (fun t' n hpc => hsub _ (h.closures.submit t' n hpc).1)
    fun n k => ⟨fun hr => hback _ hr (by simp), fun hr => hsub _ hr⟩
  · rcases List.mem_append.mp hr with hr | hr
    · obtain ⟨k, hk, rfl⟩ := List.mem_map.mp hr
      exact .inr (hks k hk)
    · exact .inl hr
  · exact ⟨fun id k hk => h.map.id id k (hback _ hk (by simp)),
      fun id k k' hk hk' => h.map.once id k k' (hback _ hk (by simp)) (hback _ hk' (by simp))⟩

theorem LifeInv.copy (h : LifeInv s) {t k : Nat} (hheld : Held s.refs k)
    (hcreates : ∀ t', (s.threads t').creates ≠ some k) : LifeInv (s.addRef (.thread t) k) := by
  have hone : ∀ j ∈ [k], Held s.refs j ∧ ∀ t', (s.threads t').creates ≠ some j := by
    simp [hheld, hcreates]
  exact h.copies hone

/-- A session is not being created if somebody else has a reference to it. -/
theorem LifeInv.not_creates (h : LifeInv s) {r : Ref Holder Nat} (hr : r ∈ s.refs)
    (hno : ∀ t, r.holder = .thread t → s.threads t = .idle) (t : Nat) :
    (s.threads t).creates ≠ some r.slot := by
  intro hpc
  have hidle := hno t (h.threads.creates t r.slot hpc r hr rfl)
  simp [hidle, ThreadPc.creates] at hpc

/-! ## CreateSession -/

theorem ThreadPc.mem_needs_of_creates {pc : ThreadPc} {k : Nat} (h : pc.creates = some k) :
    k ∈ pc.needs := by
  cases pc <;> simp_all [ThreadPc.creates, ThreadPc.needs]

/-- `Acquire` gives a slot to a thread. -/
theorem LifeInv.acquire (h : LifeInv s) {t k : Nat} {rest : List Nat}
    (hpc : s.threads t = .acquire) (hfree : s.mFreeList = k :: rest) :
    LifeInv ({ s with mFreeList := rest }.setSlot k
      { s.slots k with inUse := true, incarnation := (s.slots k).incarnation + 1 }
        |>.addRef (.thread t) k |>.setThread t (.initSession k)) := by
  have hslots := h.slots
  rw [hfree] at hslots
  have hnot : ¬ Held s.refs k := hslots.not_held (.inl (hslots.free k (List.mem_cons_self ..)))
  have hno : ∀ r ∈ s.refs, r.slot ≠ k := fun r hr he => hnot (he ▸ held_of_mem hr)
  have hcreates : ∀ t', (s.threads t').creates ≠ some k := fun t' hc =>
    hno _ (h.threads.needs t' k (ThreadPc.mem_needs_of_creates hc)) rfl
  have halive : ∀ n, (s.closures n).stage.alive = true → (s.closures n).slot ≠ k := fun n ha =>
    hno _ ((h.closures.ref n _).mpr ⟨ha, rfl⟩)
  simp only [Engine.setThread, Engine.addRef, Engine.setSlot]
  refine ⟨hslots.acquire rfl rfl, ⟨?_, ?_⟩, ⟨?_, ?_, ?_⟩,
    { h.closures with ref := ?_, incarnation := ?_, submit := ?_, owner := ?_ }⟩
  all_goals simp only [Function.update_apply, List.mem_cons]
  · have hid := h.map.id
    grind -ring -linarith
  · have honce := h.map.once
    grind -ring -linarith
  · have hneeds := h.threads.needs
    grind -ring -linarith [ThreadPc.needs]
  · have hcreating := h.threads.creates
    grind -ring -linarith [ThreadPc.creates]
  · have hregister := h.threads.register
    grind -ring -linarith [ThreadPc.needs]
  · have href := h.closures.ref
    grind -ring -linarith
  · have hincarnation := h.closures.incarnation
    grind -ring -linarith
  · have hsubmits := h.closures.submit
    grind -ring -linarith
  · have howners := h.closures.owner
    grind -ring -linarith

/-- `Session::Initialize` gives the session its id. -/
theorem LifeInv.initSession (h : LifeInv s) {t k : Nat} (hpc : s.threads t = .initSession k) (id : Nat)
    (mState : SessionState) (seq : Nat) :
    LifeInv ({ s with sGlobalSeq := seq }.setSlot k { s.slots k with mId := id, mState := mState }
      |>.setThread t (.register k id)) := by
  have hnew : ∀ r ∈ s.refs, r.slot = k → r.holder = .thread t :=
    h.threads.creates t k (by simp [hpc, ThreadPc.creates])
  have hholds : ⟨.thread t, k⟩ ∈ s.refs := h.threads.needs t k (by simp [hpc, ThreadPc.needs])
  have honly : ∀ t' id', s.threads t' = .register k id' → t' = t := fun t' id' hpc' => by
    have hr := h.threads.creates t' k (by simp [hpc', ThreadPc.creates]) _ hholds rfl
    cases hr
    rfl
  simp only [Engine.setThread, Engine.setSlot]
  refine ⟨h.slots.congr fun j => ?_, ⟨?_, h.map.once⟩, ⟨?_, ?_, ?_⟩,
    { h.closures with incarnation := ?_, submit := ?_, owner := ?_ }⟩
  all_goals simp only [Function.update_apply]
  · grind -ring -linarith
  · have hid := h.map.id
    grind -ring -linarith
  · have hneeds := h.threads.needs
    grind -ring -linarith [ThreadPc.needs]
  · have hcreating := h.threads.creates
    grind -ring -linarith [ThreadPc.creates]
  · have hregister := h.threads.register
    grind -ring -linarith [ThreadPc.needs]
  · have hincarnation := h.closures.incarnation
    grind -ring -linarith
  · have hsubmits := h.closures.submit
    grind -ring -linarith
  · have howners := h.closures.owner
    grind -ring -linarith

/-- The manager registers the session. -/
theorem LifeInv.register (h : LifeInv s) {t k id : Nat} (hpc : s.threads t = .register k id) :
    LifeInv ((s.setRefs (⟨.map id, k⟩ :: s.refs.filter fun r => r.holder ≠ .map id)).setThread t
      .idle) := by
  have hholds : ⟨.thread t, k⟩ ∈ s.refs := h.threads.needs t k (by simp [hpc, ThreadPc.needs])
  have hid : (s.slots k).mId = id := h.threads.register t k id hpc
  have hnew : ∀ r ∈ s.refs, r.slot = k → r.holder = .thread t :=
    h.threads.creates t k (by simp [hpc, ThreadPc.creates])
  have hidle : LifeInv (s.setThread t .idle) :=
    h.setThread (by simp [ThreadPc.needs]) rfl (by simp [hpc]) (by simp)
  have hcreates : ∀ t', ((s.setThread t .idle).threads t').creates ≠ some k := by
    intro t' hc
    have hr := hidle.threads.creates t' k hc ⟨.thread t, k⟩ hholds rfl
    cases hr
    simp [Engine.setThread, ThreadPc.creates] at hc
  have hfilter : ∀ r, r ∈ (⟨.map id, k⟩ :: s.refs.filter fun r => r.holder ≠ .map id) ↔
      r = ⟨.map id, k⟩ ∨ r ∈ s.refs ∧ r.holder ≠ .map id := by
    simp
  refine hidle.setRefs (fun r hr => ?_) ?_ (fun t' j hj => ?_) (fun t' n hn => ?_) fun n j => ?_
  · rcases (hfilter r).mp hr with rfl | hr
    · have hheld : Held s.refs k := held_of_mem hholds
      exact .inr ⟨hheld, hcreates⟩
    · exact .inl hr.1
  · refine ⟨fun id' j hj => ?_, fun id' j j' hj hj' => ?_⟩
    · rcases (hfilter _).mp hj with he | hj
      · cases he
        exact hid
      · exact h.map.id id' j hj.1
    · rcases (hfilter _).mp hj with he | hj <;> rcases (hfilter _).mp hj' with he' | hj'
      · cases he
        cases he'
        rfl
      · cases he
        exact absurd rfl hj'.2
      · cases he'
        exact absurd rfl hj.2
      · exact h.map.once id' j j' hj.1 hj'.1
  · exact (hfilter _).mpr (.inr ⟨hidle.threads.needs t' j hj, by simp⟩)
  · exact (hfilter _).mpr (.inr ⟨(hidle.closures.submit t' n hn).1, by simp⟩)
  · rw [hfilter]
    simp [Engine.setThread]

/-! ## Closures -/

theorem setStage_setStage (s : Engine) (n : Nat) (stage stage' : Stage) :
    (s.setStage n stage).setStage n stage' = s.setStage n stage' := by
  simp [Engine.setStage]

/-- A closure goes on where it is. -/
theorem LifeInv.setStage (h : LifeInv s) {n : Nat} {old stage : Stage}
    (hstage : (s.closures n).stage = old) (halive : stage.alive = old.alive)
    (hsubmit : stage.inSubmit = old.inSubmit) (hrunning : stage.running = old.running)
    (hplace : old.inSubmit = true ∨ old.running = true) : LifeInv (s.setStage n stage) := by
  have hold : old ≠ .queued ∧ ∀ b, old ≠ .done b := by
    constructor
    · rintro rfl
      simp [Stage.inSubmit, Stage.running] at hplace
    · rintro b rfl
      simp [Stage.inSubmit, Stage.running] at hplace
  have hnew : stage ≠ .queued ∧ ∀ b, stage ≠ .done b := by
    rw [← hsubmit, ← hrunning] at hplace
    constructor
    · rintro rfl
      simp [Stage.inSubmit, Stage.running] at hplace
    · rintro b rfl
      simp [Stage.inSubmit, Stage.running] at hplace
  refine { h with closures := ⟨?_, ?_, ?_, ?_, ?_, h.closures.queue_nodup, ?_, ?_, ?_, ?_⟩ }
  all_goals simp only [Engine.setStage, Function.update_apply]
  · have href := h.closures.ref
    grind -ring -linarith
  · have hincarnation := h.closures.incarnation
    grind -ring -linarith
  · have hsubmits := h.closures.submit
    grind -ring -linarith
  · have howners := h.closures.owner
    grind -ring -linarith
  · have hqueues := h.closures.queue
    grind -ring -linarith
  · have hqueuedIn := h.closures.queued
    grind -ring -linarith
  · have htasks := h.closures.task
    grind -ring -linarith
  · have hrunnings := h.closures.running
    grind -ring -linarith
  · have hdones := h.closures.done
    grind -ring -linarith

/-- A thread submits a new closure. -/
theorem LifeInv.submit (h : LifeInv s) {t k n : Nat} {c : Closure} (hpc : s.threads t = .idle)
    (hholds : s.holds t k) (hstage : (s.closures n).stage = .none) (made : List Nat)
    (hslot : c.slot = k) (hinc : c.incarnation = (s.slots k).incarnation) (howner : c.owner = t)
    (halive : c.stage.alive = true) (hsubmit : c.stage.inSubmit = true) :
    LifeInv ({ s.addRef (.closure n) k with
      made := made, closures := Function.update s.closures n c }.setThread t (.submit n)) := by
  have hcreates := h.not_creates hholds fun t' he => by
    cases he
    exact hpc
  have hheld : Held s.refs k := held_of_mem hholds
  have hfresh : (s.closures n).stage.alive = false ∧ (s.closures n).stage.inSubmit = false ∧
      (s.closures n).stage.running = false := by
    rw [hstage]
    exact ⟨rfl, rfl, rfl⟩
  have hplace : c.stage ≠ .queued ∧ c.stage.running = false ∧ ∀ b, c.stage ≠ .done b := by
    cases hc : c.stage <;> simp_all [Stage.inSubmit, Stage.running]
  simp only [Engine.setThread, Engine.addRef, Engine.holds] at *
  refine ⟨h.slots.grow (List.subset_cons_self ..) ?_, ⟨?_, ?_⟩, ⟨?_, ?_, ?_⟩,
    ⟨?_, ?_, ?_, ?_, ?_, h.closures.queue_nodup, ?_, ?_, ?_, ?_⟩⟩
  · intro r hr
    rcases List.mem_cons.mp hr with rfl | hr
    · exact hheld
    · exact held_of_mem hr
  all_goals simp only [Function.update_apply, List.mem_cons]
  · have hid := h.map.id
    grind -ring -linarith
  · have honce := h.map.once
    grind -ring -linarith
  · have hneeds := h.threads.needs
    grind -ring -linarith [ThreadPc.needs]
  · have hcreating := h.threads.creates
    grind -ring -linarith [ThreadPc.creates]
  · have hregister := h.threads.register
    grind -ring -linarith
  · have href := h.closures.ref
    grind -ring -linarith
  · have hincarnation := h.closures.incarnation
    grind -ring -linarith
  · have hsubmits := h.closures.submit
    grind -ring -linarith
  · have howners := h.closures.owner
    grind -ring -linarith
  · have hqueues := h.closures.queue
    grind -ring -linarith
  · have hqueuedIn := h.closures.queued
    grind -ring -linarith
  · have htasks := h.closures.task
    grind -ring -linarith
  · have hrunnings := h.closures.running
    grind -ring -linarith
  · have hdones := h.closures.done
    grind -ring -linarith

/-! ## The end of a closure -/

/-- The reference of a closure goes. -/
theorem LifeInv.dropClosure (h : LifeInv s) (n : Nat) {refs : List (Ref Holder Nat)}
    (hrefs : refs = s.refs.filter fun r => r.holder ≠ .closure n) :
    SlotInv (s.setRefs refs).slots refs s.mFreeList ∧ MapInv (s.setRefs refs).slots refs ∧
      ThreadInv (s.setRefs refs).slots refs s.threads := by
  have hmem : ∀ r, r ∈ refs ↔ r ∈ s.refs ∧ r.holder ≠ .closure n := by simp [hrefs]
  have hid : ∀ k, ((s.setRefs refs).slots k).mId = (s.slots k).mId := fun k =>
    (setRefs_slots s refs k).1
  refine ⟨h.slots.setRefs fun r hr => held_of_mem ((hmem r).mp hr).1, ⟨fun id k hk => ?_,
    fun id k k' hk hk' => ?_⟩, ⟨fun t k hk => ?_, fun t k hc r hr hk => ?_, fun t k id hpc => ?_⟩⟩
  · exact (hid k).trans (h.map.id id k ((hmem _).mp hk).1)
  · exact h.map.once id k k' ((hmem _).mp hk).1 ((hmem _).mp hk').1
  · exact (hmem _).mpr ⟨h.threads.needs t k hk, by simp⟩
  · exact h.threads.creates t k hc r ((hmem r).mp hr).1 hk
  · exact (hid k).trans (h.threads.register t k id hpc)

/-- A thread has returned from `Submit`. -/
theorem ThreadInv.idle {slots : Nat → Slot} {refs : List (Ref Holder Nat)}
    {threads : Nat → ThreadPc} (h : ThreadInv slots refs threads) (t : Nat) :
    ThreadInv slots refs (Function.update threads t .idle) := by
  obtain ⟨h3, h4, h5⟩ := h
  refine ⟨?_, ?_, ?_⟩
  all_goals simp only [Function.update_apply]
  · grind -ring -linarith [ThreadPc.needs]
  · grind -ring -linarith [ThreadPc.creates]
  · grind -ring -linarith

/-- The incarnations are all that the closures need to know of the slots. -/
theorem ClosureInv.congr {slots slots' : Nat → Slot} {refs : List (Ref Holder Nat)}
    {threads : Nat → ThreadPc} {closures : Nat → Closure} {workers : Nat → Worker}
    (h : ClosureInv slots refs threads closures workers)
    (hinc : ∀ k, (slots' k).incarnation = (slots k).incarnation) :
    ClosureInv slots' refs threads closures workers :=
  { h with incarnation := fun n hn => (hinc _).trans (h.incarnation n hn) }

/-- `Dispatch` refuses a closure. -/
theorem LifeInv.reject (h : LifeInv s) {t n : Nat} (hpc : s.threads t = .submit n) :
    LifeInv ((s.destroy n).setStage n .rejected) := by
  obtain ⟨hslots, hmap, hthreads⟩ := h.dropClosure n rfl
  obtain ⟨hholds, howner, hsubmit⟩ := h.closures.submit t n hpc
  have hold : (s.closures n).stage ≠ .queued ∧ (s.closures n).stage.running = false ∧
      ∀ b, (s.closures n).stage ≠ .done b := by
    cases hc : (s.closures n).stage <;> simp_all [Stage.inSubmit, Stage.running]
  have hnew : Stage.rejected.alive = false ∧ Stage.rejected.inSubmit = true ∧
      Stage.rejected.running = false := ⟨rfl, rfl, rfl⟩
  refine ⟨hslots, hmap, hthreads, ClosureInv.congr (?_ : ClosureInv s.slots _ _ _ _) fun k =>
    (setRefs_slots s _ k).2.1⟩
  refine ⟨?_, ?_, ?_, ?_, ?_, h.closures.queue_nodup, ?_, ?_, ?_, ?_⟩
  all_goals simp only [Engine.setStage, Engine.destroy, Engine.dropAll, Engine.setRefs,
    Function.update_apply, List.mem_filter]
  · have href := h.closures.ref
    grind -ring -linarith
  · have hincarnation := h.closures.incarnation
    grind -ring -linarith
  · have hsubmits := h.closures.submit
    grind -ring -linarith
  · have howners := h.closures.owner
    grind -ring -linarith
  · have hqueues := h.closures.queue
    grind -ring -linarith
  · have hqueuedIn := h.closures.queued
    grind -ring -linarith
  · have htasks := h.closures.task
    grind -ring -linarith
  · have hrunnings := h.closures.running
    grind -ring -linarith
  · have hdones := h.closures.done
    grind -ring -linarith

/-- `Push` takes a closure, and `Submit` returns. -/
theorem LifeInv.push (h : LifeInv s) {t n : Nat} {w : Worker} (hpc : s.threads t = .submit n)
    (hw : w = s.workers (s.closures n).worker) (halive : (s.closures n).stage.alive = true) :
    LifeInv (((s.setWorker (s.closures n).worker { w with mQueue := w.mQueue ++ [n] }).setStage n
      .queued).setThread t .idle) := by
  obtain ⟨hholds, howner, hsubmit⟩ := h.closures.submit t n hpc
  have hold : (s.closures n).stage ≠ .queued ∧ (s.closures n).stage.running = false ∧
      ∀ b, (s.closures n).stage ≠ .done b := by
    cases hc : (s.closures n).stage <;> simp_all [Stage.inSubmit, Stage.running]
  have hnew : Stage.queued.alive = true ∧ Stage.queued.inSubmit = false ∧
      Stage.queued.running = false := ⟨rfl, rfl, rfl⟩
  subst hw
  refine ⟨h.slots, h.map, h.threads.idle t, ?_⟩
  refine ⟨?_, ?_, ?_, ?_, ?_, ?_, ?_, ?_, ?_, ?_⟩
  all_goals simp only [Engine.setStage, Engine.setThread, Engine.setWorker, Function.update_apply]
  · have href := h.closures.ref
    grind -ring -linarith
  · have hincarnation := h.closures.incarnation
    grind -ring -linarith
  · have hsubmits := h.closures.submit
    grind -ring -linarith
  · have howners := h.closures.owner
    grind -ring -linarith
  · have hqueues := h.closures.queue
    grind -ring -linarith
  · have hqueues := h.closures.queue
    have hnodups := h.closures.queue_nodup
    grind -ring -linarith
  · have hqueuedIn := h.closures.queued
    grind -ring -linarith
  · have htasks := h.closures.task
    grind -ring -linarith
  · have hrunnings := h.closures.running
    grind -ring -linarith
  · have hdones := h.closures.done
    grind -ring -linarith

/-- `Submit` returns false. -/
theorem LifeInv.refuse (h : LifeInv s) {t n : Nat} (hpc : s.threads t = .submit n)
    (halive : (s.closures n).stage.alive = false) :
    LifeInv ((s.setStage n .refused).setThread t .idle) := by
  obtain ⟨hholds, howner, hsubmit⟩ := h.closures.submit t n hpc
  have hold : (s.closures n).stage ≠ .queued ∧ (s.closures n).stage.running = false ∧
      ∀ b, (s.closures n).stage ≠ .done b := by
    cases hc : (s.closures n).stage <;> simp_all [Stage.inSubmit, Stage.running]
  have hnew : Stage.refused.alive = false ∧ Stage.refused.inSubmit = false ∧
      Stage.refused.running = false := ⟨rfl, rfl, rfl⟩
  refine ⟨h.slots, h.map, h.threads.idle t, ?_⟩
  refine ⟨?_, ?_, ?_, ?_, ?_, h.closures.queue_nodup, ?_, ?_, ?_, ?_⟩
  all_goals simp only [Engine.setStage, Engine.setThread, Function.update_apply]
  · have href := h.closures.ref
    grind -ring -linarith
  · have hincarnation := h.closures.incarnation
    grind -ring -linarith
  · have hsubmits := h.closures.submit
    grind -ring -linarith
  · have howners := h.closures.owner
    grind -ring -linarith
  · have hqueues := h.closures.queue
    grind -ring -linarith
  · have hqueuedIn := h.closures.queued
    grind -ring -linarith
  · have htasks := h.closures.task
    grind -ring -linarith
  · have hrunnings := h.closures.running
    grind -ring -linarith
  · have hdones := h.closures.done
    grind -ring -linarith

/-- A worker has run a closure. -/
theorem LifeInv.finish (h : LifeInv s) {i n : Nat} {b : Bool} {w : Worker}
    (hw : w = s.workers i) (htask : w.task = some n)
    (hrunning : (s.closures n).stage.running = true) :
    LifeInv ((s.setStage n (.done b)).setWorker i { w with pc := .pop }) := by
  have hold : (s.closures n).stage ≠ .queued ∧ (s.closures n).stage.inSubmit = false ∧
      (s.closures n).stage.alive = true ∧ ∀ b, (s.closures n).stage ≠ .done b := by
    cases hc : (s.closures n).stage <;> simp_all [Stage.inSubmit, Stage.running, Stage.alive]
  have hnew : (Stage.done b).alive = true ∧ (Stage.done b).inSubmit = false ∧
      (Stage.done b).running = false := ⟨rfl, rfl, rfl⟩
  subst hw
  refine ⟨h.slots, h.map, h.threads, ?_⟩
  refine ⟨?_, ?_, ?_, ?_, ?_, ?_, ?_, ?_, ?_, ?_⟩
  all_goals simp only [Engine.setStage, Engine.setWorker, Function.update_apply]
  · have href := h.closures.ref
    grind -ring -linarith
  · have hincarnation := h.closures.incarnation
    grind -ring -linarith
  · have hsubmits := h.closures.submit
    grind -ring -linarith
  · have howners := h.closures.owner
    grind -ring -linarith
  · have hqueues := h.closures.queue
    grind -ring -linarith
  · have hqueues := h.closures.queue
    have hnodups := h.closures.queue_nodup
    grind -ring -linarith
  · have hqueuedIn := h.closures.queued
    grind -ring -linarith
  · have htasks := h.closures.task
    grind -ring -linarith
  · have hrunnings := h.closures.running
    grind -ring -linarith
  · have hrunnings := h.closures.running
    have hdones := h.closures.done
    grind -ring -linarith

/-- The variable `task` of a worker is emptied, and what was in it is destroyed. -/
theorem LifeInv.empty (h : LifeInv s) {i n : Nat} (hpc : (s.workers i).pc = .pop)
    (htask : (s.workers i).task = some n) (pc : WorkerPc) :
    LifeInv ((s.destroy n).setWorker i { s.workers i with task := none, pc := pc }) := by
  obtain ⟨hslots, hmap, hthreads⟩ := h.dropClosure n rfl
  obtain ⟨hworker, hdone⟩ := h.closures.task i n htask
  obtain ⟨b, hb⟩ : ∃ b, (s.closures n).stage = .done b := by simpa [hpc] using hdone
  have hold : (s.closures n).stage.inSubmit = false ∧ (s.closures n).stage.running = false := by
    rw [hb]
    exact ⟨rfl, rfl⟩
  have hnew : Stage.destroyed.alive = false ∧ Stage.destroyed.inSubmit = false ∧
      Stage.destroyed.running = false := ⟨rfl, rfl, rfl⟩
  refine ⟨hslots, hmap, hthreads, ClosureInv.congr (?_ : ClosureInv s.slots _ _ _ _) fun k =>
    (setRefs_slots s _ k).2.1⟩
  refine ⟨?_, ?_, ?_, ?_, ?_, ?_, ?_, ?_, ?_, ?_⟩
  all_goals simp only [Engine.setStage, Engine.destroy, Engine.dropAll, Engine.setRefs,
    Engine.setWorker, Function.update_apply, List.mem_filter]
  · have href := h.closures.ref
    grind -ring -linarith
  · have hincarnation := h.closures.incarnation
    grind -ring -linarith
  · have hsubmits := h.closures.submit
    grind -ring -linarith
  · have howners := h.closures.owner
    grind -ring -linarith
  · have hqueues := h.closures.queue
    grind -ring -linarith
  · have hqueues := h.closures.queue
    have hnodups := h.closures.queue_nodup
    grind -ring -linarith
  · have hqueuedIn := h.closures.queued
    grind -ring -linarith
  · have htasks := h.closures.task
    grind -ring -linarith
  · have hrunnings := h.closures.running
    grind -ring -linarith
  · have hdones := h.closures.done
    grind -ring -linarith

/-- A closure that is left in a queue is destroyed. -/
theorem LifeInv.clear (h : LifeInv s) {i n : Nat} {rest : List Nat}
    (hqueue : (s.workers i).mQueue = n :: rest) :
    LifeInv ((s.destroy n).setWorker i { s.workers i with mQueue := rest }) := by
  obtain ⟨hslots, hmap, hthreads⟩ := h.dropClosure n rfl
  have hqueued := h.closures.queue i n (by simp [hqueue])
  have hnodup := h.closures.queue_nodup i
  rw [hqueue, List.nodup_cons] at hnodup
  have hmem : ∀ m, m ∈ (s.workers i).mQueue ↔ m = n ∨ m ∈ rest := by simp [hqueue]
  have hold : (s.closures n).stage.inSubmit = false ∧ (s.closures n).stage.running = false := by
    rw [hqueued.1]
    exact ⟨rfl, rfl⟩
  have hnew : Stage.destroyed.alive = false ∧ Stage.destroyed.inSubmit = false ∧
      Stage.destroyed.running = false := ⟨rfl, rfl, rfl⟩
  refine ⟨hslots, hmap, hthreads, ClosureInv.congr (?_ : ClosureInv s.slots _ _ _ _) fun k =>
    (setRefs_slots s _ k).2.1⟩
  refine ⟨?_, ?_, ?_, ?_, ?_, ?_, ?_, ?_, ?_, ?_⟩
  all_goals simp only [Engine.setStage, Engine.destroy, Engine.dropAll, Engine.setRefs,
    Engine.setWorker, Function.update_apply, List.mem_filter]
  · have href := h.closures.ref
    grind -ring -linarith
  · have hincarnation := h.closures.incarnation
    grind -ring -linarith
  · have hsubmits := h.closures.submit
    grind -ring -linarith
  · have howners := h.closures.owner
    grind -ring -linarith
  · have hqueues := h.closures.queue
    grind -ring -linarith
  · have hqueues := h.closures.queue
    have hnodups := h.closures.queue_nodup
    grind -ring -linarith
  · have hqueuedIn := h.closures.queued
    grind -ring -linarith
  · have htasks := h.closures.task
    grind -ring -linarith
  · have hrunnings := h.closures.running
    grind -ring -linarith
  · have hdones := h.closures.done
    grind -ring -linarith

/-- A worker without a task leaves. -/
theorem LifeInv.exit (h : LifeInv s) {i : Nat} (htask : (s.workers i).task = none)
    (pc : WorkerPc) : LifeInv (s.setWorker i { s.workers i with pc := pc }) := by
  refine { h with closures := { h.closures with
    queue := ?_, queue_nodup := ?_, queued := ?_, task := ?_, running := ?_, done := ?_ } }
  all_goals simp only [Engine.setWorker, Function.update_apply]
  · have hqueues := h.closures.queue
    grind -ring -linarith
  · have hnodups := h.closures.queue_nodup
    grind -ring -linarith
  · have hqueuedIn := h.closures.queued
    grind -ring -linarith
  · have htasks := h.closures.task
    grind -ring -linarith
  · have hrunnings := h.closures.running
    grind -ring -linarith
  · have hdones := h.closures.done
    grind -ring -linarith

/-- A worker pops a closure, and its variable `task` was empty. -/
theorem LifeInv.pop (h : LifeInv s) {i n : Nat} {rest : List Nat}
    (htask : (s.workers i).task = none) (hqueue : (s.workers i).mQueue = n :: rest) :
    LifeInv ((s.setStage n .popped).setWorker i { mQueue := rest, task := some n, pc := .run }) := by
  have hqueued := h.closures.queue i n (by simp [hqueue])
  have hnodup := h.closures.queue_nodup i
  rw [hqueue, List.nodup_cons] at hnodup
  have hmem : ∀ m, m ∈ (s.workers i).mQueue ↔ m = n ∨ m ∈ rest := by simp [hqueue]
  have hold : (s.closures n).stage.inSubmit = false ∧ (s.closures n).stage.running = false ∧
      (s.closures n).stage.alive = true := by
    rw [hqueued.1]
    exact ⟨rfl, rfl, rfl⟩
  have hnew : Stage.popped.alive = true ∧ Stage.popped.inSubmit = false ∧
      Stage.popped.running = true := ⟨rfl, rfl, rfl⟩
  refine ⟨h.slots, h.map, h.threads, ?_⟩
  refine ⟨?_, ?_, ?_, ?_, ?_, ?_, ?_, ?_, ?_, ?_⟩
  all_goals simp only [Engine.setStage, Engine.setWorker, Function.update_apply]
  · have href := h.closures.ref
    grind -ring -linarith
  · have hincarnation := h.closures.incarnation
    grind -ring -linarith
  · have hsubmits := h.closures.submit
    grind -ring -linarith
  · have howners := h.closures.owner
    grind -ring -linarith
  · have hqueues := h.closures.queue
    grind -ring -linarith
  · have hqueues := h.closures.queue
    have hnodups := h.closures.queue_nodup
    grind -ring -linarith
  · have hqueuedIn := h.closures.queued
    grind -ring -linarith
  · have htasks := h.closures.task
    grind -ring -linarith
  · have hrunnings := h.closures.running
    grind -ring -linarith
  · have hdones := h.closures.done
    grind -ring -linarith

/-! ## ReleaseInternal -/

/-- Nothing refers to a slot that is being released. -/
theorem LifeInv.not_held (h : LifeInv s) {k : Nat} (hk : (s.slots k).release ≠ none) :
    ∀ r ∈ s.refs, r.slot ≠ k := by
  rintro r hr rfl
  exact h.slots.not_held (.inr hk) (held_of_mem hr)

/-- A slot changes to which nothing refers. -/
theorem LifeInv.setReleased (h : LifeInv s) {k : Nat} {slot : Slot} {mFreeList : List Nat}
    (hk : (s.slots k).release ≠ none)
    (hslots : SlotInv (Function.update s.slots k slot) s.refs mFreeList)
    (hinc : slot.incarnation = (s.slots k).incarnation) :
    LifeInv { s.setSlot k slot with mFreeList := mFreeList } := by
  have hno := h.not_held hk
  have hne : ∀ j, j ≠ k → Function.update s.slots k slot j = s.slots j := fun j hj =>
    Function.update_of_ne hj ..
  exact {
    slots := hslots
    map := {
      id := fun id j hj => by
        rw [← h.map.id id j hj]
        exact congrArg Slot.mId (hne j (hno _ hj))
      once := h.map.once }
    threads := { h.threads with
      register := fun t j id hpc => by
        have hpc : s.threads t = .register j id := hpc
        have hholds := h.threads.needs t j (by simp [hpc, ThreadPc.needs])
        rw [← h.threads.register t j id hpc]
        exact congrArg Slot.mId (hne j (hno _ hholds)) }
    closures := h.closures.congr fun j => by
      by_cases hj : j = k
      · subst hj
        exact (congrArg Slot.incarnation (Function.update_self ..)).trans hinc
      · exact congrArg Slot.incarnation (hne j hj) }

theorem Slot.close_inUse (slot : Slot) :
    slot.close.inUse = slot.inUse ∧ slot.close.incarnation = slot.incarnation ∧
      slot.close.mInFlight = slot.mInFlight := by
  simp only [Slot.close]
  split <;> exact ⟨rfl, rfl, rfl⟩

/-- Every step of `ReleaseInternal` keeps the invariant. -/
theorem LifeInv.release (h : LifeInv s) {k : Nat} (hs : releaseStep s k = some s') :
    LifeInv s' := by
  cases hrel : (s.slots k).release with
  | none => simp [releaseStep, hrel] at hs
  | some pc =>
      have hk : (s.slots k).release ≠ none := by simp [hrel]
      cases pc with
      | close =>
          simp only [releaseStep, hrel, Option.some.injEq] at hs
          subst hs
          obtain ⟨hu, hinc, -⟩ := Slot.close_inUse (s.slots k)
          exact h.setReleased hk (h.slots.releasing_step hk hu (by simp)) hinc
      | reset =>
          simp only [releaseStep, hrel, Option.some.injEq] at hs
          subst hs
          split
          · exact { h with }
          · exact h.setReleased hk (h.slots.releasing_step hk rfl (by simp)) rfl
      | push =>
          simp only [releaseStep, hrel, Option.some.injEq] at hs
          subst hs
          exact h.setReleased hk (h.slots.push hk rfl rfl) rfl

end

end NetworkModule.SessionLifetime
