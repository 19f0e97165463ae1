import NetworkModule.Network.SessionPool

/-!
# The slots of the pool

What `Partition` says is kept by counting.  Every index is in the free list, in a live
reference of this generation or in the hand of a call, `total` times altogether.  While no
`Initialize` and no `Shutdown` is in the middle this is once for every index of the array and
never for another (`Fits`).  In the middle of one of them the place of that call says how far
the array has come (`Phase`), and nobody else is in the middle.

A reference of an earlier generation is not counted.  So when one is dropped its call must
find the test of `ReleaseInternal` against it, or it would push an index that was not in its
hand (`Orderly`).
-/

namespace NetworkModule.SessionPool

/-! ## Counting -/

/-- How often the index `k` is in the pool, in a reference or in a hand. -/
def Pool.total (s : Pool) (k : Nat) : Nat :=
  s.mFreeList.count k + s.refs.countP (fun r => r.slot s.generation = some k) +
    s.calls.countP (fun pc => pc.slot s.generation = some k)

/-- What `mActiveCount` counts. -/
def Pool.held (s : Pool) : Nat :=
  s.refs.countP (fun r => r.generation = s.generation) +
    s.calls.countP (CallPc.counted s.generation)

/-- The indices below `n` are in the pool. -/
structure Fits (s : Pool) (n : Nat) : Prop where
  total : ∀ k, s.total k = if k < n then 1 else 0
  active : s.mActiveCount = s.held % 2 ^ 64

/-- The pool has no array. -/
structure Blank (s : Pool) : Prop where
  mSlots : s.mSlots = none
  total : ∀ k, s.total k = 0

/-- The pool has an array with all its indices, or none. -/
structure Settled (s : Pool) : Prop where
  fits : Fits s s.mCapacity.toNat
  mSlots : s.mSlots.map List.length = if s.mInitialized then some s.mCapacity.toNat else none
  mCapacity : s.mInitialized = false → s.mCapacity = 0

/-- What holds when the call that stands here is the only one in the middle. -/
def Phase (s : Pool) : CallPc → Prop
  | .initCapacity _ => Fits s 0
  | .initSlots capacity => Fits s 0 ∧ s.mCapacity = capacity
  | .initPush capacity k =>
      Fits s k ∧ k ≤ capacity.toNat ∧ s.mCapacity = capacity ∧
        s.mSlots.map List.length = some capacity.toNat
  | .initDone | .shutdownFlag =>
      Fits s s.mCapacity.toNat ∧ s.mSlots.map List.length = some s.mCapacity.toNat
  | .shutdownLock | .shutdownClear => s.mInitialized = false
  | .shutdownSlots => s.mInitialized = false ∧ s.mFreeList = []
  | .shutdownCapacity => s.mInitialized = false ∧ Blank s
  | .shutdownCount => s.mInitialized = false ∧ Blank s ∧ s.mCapacity = 0
  | _ => Settled s

/-- What holds in every state of an orderly run. -/
structure PoolInv (s : Pool) : Prop where
  generation : ∀ r ∈ s.refs, r.generation ≤ s.generation
  acquired : ∀ r, .acquireCount r ∈ s.calls ∨ .acquireReturn r ∈ s.calls →
    r.generation = s.generation
  dropped : ∀ r, .releaseTest r ∈ s.calls → r.generation ≤ s.generation
  phase : ∀ i, (∀ j, j ≠ i → (s.callAt j).mid = false) → Phase s (s.callAt i)
  defined : s.undefined = false

section
variable {s s' : Pool}

theorem mid_of_not_manages {pc : CallPc} (h : pc.manages = false) : pc.mid = false := by
  cases pc with
  | initTest | shutdownTest => rfl
  | _ => exact h

/-- A call that is not in the middle says nothing more about the array. -/
theorem phase_of_not_mid {pc : CallPc} (h : pc.mid = false) : Phase s pc = Settled s := by
  cases pc with
  | initTest capacity => rfl
  | shutdownTest => rfl
  | initCapacity | initSlots | initPush | initDone | shutdownFlag | shutdownLock | shutdownClear
  | shutdownSlots | shutdownCapacity | shutdownCount => cases h
  | _ => rfl

/-! ## One call -/

theorem callAt_set_of_ne {i j : Nat} {pc : CallPc} (hcalls : s'.calls = s.calls.set i pc)
    (hj : j ≠ i) : s'.callAt j = s.callAt j := by
  rw [Pool.callAt, Pool.callAt, hcalls, List.getD_eq_getElem?_getD, List.getD_eq_getElem?_getD,
    List.getElem?_set_ne (Ne.symm hj)]

theorem callAt_set_self {i : Nat} {pc pc' : CallPc} (hcalls : s'.calls = s.calls.set i pc')
    (hi : s.calls[i]? = some pc) : s'.callAt i = pc' := by
  obtain ⟨hlt, -⟩ := List.getElem?_eq_some_iff.mp hi
  rw [Pool.callAt, hcalls, List.getD_eq_getElem?_getD, List.getElem?_set_self hlt]
  rfl

/-- A call goes on, and the array stays. -/
theorem total_set {i : Nat} {pc pc' : CallPc} (hi : s.calls[i]? = some pc)
    (hcalls : s'.calls = s.calls.set i pc') (hgen : s'.generation = s.generation) (k : Nat) :
    s'.total k + (decide (pc.slot s.generation = some k)).toNat + s.mFreeList.count k +
        s.refs.countP (fun r => r.slot s.generation = some k) =
      s.total k + (decide (pc'.slot s.generation = some k)).toNat + s'.mFreeList.count k +
        s'.refs.countP (fun r => r.slot s.generation = some k) := by
  have hset := Tally.countP_set (fun pc => decide (pc.slot s.generation = some k)) pc' hi
  simp only [Pool.total, hcalls, hgen]
  omega

theorem held_set {i : Nat} {pc pc' : CallPc} (hi : s.calls[i]? = some pc)
    (hcalls : s'.calls = s.calls.set i pc') (hgen : s'.generation = s.generation) :
    s'.held + (pc.counted s.generation).toNat +
        s.refs.countP (fun r => r.generation = s.generation) =
      s.held + (pc'.counted s.generation).toNat +
        s'.refs.countP (fun r => r.generation = s.generation) := by
  have hset := Tally.countP_set (CallPc.counted s.generation) pc' hi
  simp only [Pool.held, hcalls, hgen]
  omega

/-- A call goes on with what it has in hand. -/
theorem Fits.quiet {i n : Nat} {pc pc' : CallPc} (h : Fits s n) (hi : s.calls[i]? = some pc)
    (hcalls : s'.calls = s.calls.set i pc') (hgen : s'.generation = s.generation)
    (hfree : s'.mFreeList = s.mFreeList) (hrefs : s'.refs = s.refs)
    (hactive : s'.mActiveCount = s.mActiveCount)
    (hslot : pc'.slot s.generation = pc.slot s.generation)
    (hcounted : pc'.counted s.generation = pc.counted s.generation) : Fits s' n where
  total := fun k => by
    have htotal := total_set hi hcalls hgen k
    rw [hfree, hrefs, hslot] at htotal
    rw [← h.total k]
    omega
  active := by
    have hheld := held_set hi hcalls hgen
    rw [hrefs, hcounted] at hheld
    have heq : s'.held = s.held := by omega
    exact hactive.trans (heq ▸ h.active)

/-- A call goes on that has nothing in hand. -/
theorem Blank.quiet {i : Nat} {pc : CallPc} (h : Blank s) (pc' : CallPc) (hi : s.calls[i]? = some pc)
    (hcalls : s'.calls = s.calls.set i pc') (hgen : s'.generation = s.generation)
    (hfree : s'.mFreeList = s.mFreeList) (hrefs : s'.refs = s.refs) (hslots : s'.mSlots = s.mSlots)
    (hslot : pc'.slot s.generation = pc.slot s.generation) : Blank s' where
  mSlots := hslots.trans h.mSlots
  total := fun k => by
    have htotal := total_set hi hcalls hgen k
    rw [hfree, hrefs, hslot, h.total k] at htotal
    omega

/-- A slot in a hand is one of the pool. -/
theorem Fits.lt {i n k : Nat} {pc : CallPc} (h : Fits s n) (hi : s.calls[i]? = some pc)
    (hslot : pc.slot s.generation = some k) : k < n := by
  have hpos : 0 < s.calls.countP (fun pc => pc.slot s.generation = some k) :=
    List.countP_pos_iff.mpr ⟨pc, List.mem_of_getElem? hi, by simpa using hslot⟩
  have htotal := h.total k
  rw [Pool.total] at htotal
  by_contra hno
  rw [if_neg hno] at htotal
  omega

/-- Nothing is counted where no index is. -/
theorem held_eq_zero (h : ∀ k, s.total k = 0) : s.held = 0 := by
  have hrefs : s.refs.countP (fun r => r.generation = s.generation) = 0 := by
    refine List.countP_eq_zero.mpr fun r hr hgen => ?_
    have hpos : 0 < s.refs.countP (fun q => q.slot s.generation = some r.slotIdx) := by
      refine List.countP_pos_iff.mpr ⟨r, hr, ?_⟩
      simpa [SessionRef.slot] using hgen
    have htotal := h r.slotIdx
    rw [Pool.total] at htotal
    omega
  have hcalls : s.calls.countP (CallPc.counted s.generation) = 0 := by
    refine List.countP_eq_zero.mpr fun pc hpc hcounted => ?_
    obtain ⟨k, hk⟩ : ∃ k, pc.slot s.generation = some k := by
      revert hcounted
      cases pc <;> simp [CallPc.counted, CallPc.slot, SessionRef.slot]
    have hpos : 0 < s.calls.countP (fun pc => pc.slot s.generation = some k) :=
      List.countP_pos_iff.mpr ⟨pc, hpc, by simpa using hk⟩
    have htotal := h k
    rw [Pool.total] at htotal
    omega
  rw [Pool.held, hrefs, hcalls]

theorem mFreeList_eq_nil (h : ∀ k, s.total k = 0) : s.mFreeList = [] := by
  refine List.eq_nil_iff_forall_not_mem.mpr fun k hk => ?_
  have hpos := List.count_pos_iff.mpr hk
  have htotal := h k
  rw [Pool.total] at htotal
  omega

/-- A pool without an array counts nothing. -/
theorem fits_zero (h : ∀ k, s.total k = 0) (hactive : s.mActiveCount = 0) : Fits s 0 where
  total := fun k => by rw [h k, if_neg (Nat.not_lt_zero k)]
  active := by rw [hactive, held_eq_zero h, Nat.zero_mod]

/-- The calls after a step beside which there is no other. -/
theorem eq_of_mem_set {i : Nat} {pc pc' : CallPc} (hcalls : s'.calls = s.calls.set i pc')
    (halone : ∀ j, j ≠ i → s.callAt j = .returned) (hpc : pc ∈ s'.calls) :
    pc = .returned ∨ pc = pc' := by
  rw [hcalls] at hpc
  obtain ⟨j, hj⟩ := List.getElem?_of_mem hpc
  by_cases hji : j = i
  · subst hji
    rw [List.getElem?_set_self'] at hj
    obtain ⟨-, -, rfl⟩ := Option.map_eq_some_iff.mp hj
    exact .inr rfl
  · rw [List.getElem?_set_ne (Ne.symm hji)] at hj
    have hreturned := halone j hji
    rw [Pool.callAt, List.getD_eq_getElem?_getD, hj] at hreturned
    exact .inl hreturned

/-- The array changes while no other call has begun: nothing is left of the indices. -/
theorem total_eq_zero {i : Nat} {pc' : CallPc} (h : PoolInv s) (hcalls : s'.calls = s.calls.set i pc')
    (hgen : s'.generation = s.generation + 1) (hrefs : s'.refs = s.refs)
    (hfree : s'.mFreeList = []) (halone : ∀ j, j ≠ i → s.callAt j = .returned)
    (hslot : pc'.slot s'.generation = none) (k : Nat) : s'.total k = 0 := by
  have hr : s'.refs.countP (fun r => r.slot s'.generation = some k) = 0 := by
    refine List.countP_eq_zero.mpr fun r hr => ?_
    rw [hrefs] at hr
    have hle := h.generation r hr
    have hne : r.generation ≠ s'.generation := by omega
    simp [SessionRef.slot, hne]
  have hc : s'.calls.countP (fun pc => pc.slot s'.generation = some k) = 0 := by
    refine List.countP_eq_zero.mpr fun pc hpc => ?_
    rcases eq_of_mem_set hcalls halone hpc with rfl | rfl
    · simp [CallPc.slot]
    · simp [hslot]
  rw [Pool.total, hfree, hr, hc]
  rfl

/-! ## One call goes on -/

/-- The call that goes on is the only one in the middle. -/
theorem PoolInv.of_phase {i : Nat} {pc pc' : CallPc} (h : PoolInv s) (hi : s.calls[i]? = some pc)
    (hcalls : s'.calls = s.calls.set i pc') (hgen : s.generation ≤ s'.generation)
    (hmid : ∀ j, j ≠ i → (s.callAt j).mid = false)
    (hrefs : ∀ r ∈ s'.refs, r ∈ s.refs ∨ r.generation = s'.generation)
    (hacquired : ∀ r, .acquireCount r ∈ s'.calls ∨ .acquireReturn r ∈ s'.calls →
      r.generation = s'.generation)
    (hdropped : ∀ r, pc' ≠ .releaseTest r) (hdefined : s'.undefined = s.undefined)
    (hphase : Phase s' pc') : PoolInv s' where
  generation := fun r hr => by
    rcases hrefs r hr with hr | hr
    · exact (h.generation r hr).trans hgen
    · exact hr.le
  acquired := hacquired
  dropped := fun r hr => by
    rw [hcalls] at hr
    rcases List.mem_or_eq_of_mem_set hr with hr | hr
    · exact (h.dropped r hr).trans hgen
    · exact absurd hr.symm (hdropped r)
  phase := fun j hj => by
    by_cases hji : j = i
    · subst hji
      rw [callAt_set_self hcalls hi]
      exact hphase
    · have hpc' : pc'.mid = false := by
        have := hj i (Ne.symm hji)
        rwa [callAt_set_self hcalls hi] at this
      rw [callAt_set_of_ne hcalls hji, phase_of_not_mid (hmid j hji)]
      rwa [phase_of_not_mid hpc'] at hphase
  defined := hdefined.trans h.defined

/-- A call goes on, and the array stays. -/
theorem PoolInv.advance {i : Nat} {pc : CallPc} (h : PoolInv s) (pc' : CallPc) (hi : s.calls[i]? = some pc)
    (hmid : ∀ j, j ≠ i → (s.callAt j).mid = false) (hphase : Phase s' pc')
    (hcalls : s'.calls = s.calls.set i pc' := by rfl)
    (hgen : s'.generation = s.generation := by rfl)
    (hrefs : ∀ r ∈ s'.refs, r ∈ s.refs ∨ r.generation = s.generation := by exact fun _ => Or.inl)
    (hacquired : ∀ r, pc' = .acquireCount r ∨ pc' = .acquireReturn r →
      r.generation = s.generation := by simp)
    (hdropped : ∀ r, pc' ≠ .releaseTest r := by simp)
    (hdefined : s'.undefined = s.undefined := by rfl) : PoolInv s' := by
  refine h.of_phase hi hcalls hgen.ge hmid (hgen ▸ hrefs) ?_ hdropped hdefined hphase
  rw [hgen, hcalls]
  rintro r (hr | hr)
  · rcases List.mem_or_eq_of_mem_set hr with hr | hr
    · exact h.acquired r (.inl hr)
    · exact hacquired r (.inl hr.symm)
  · rcases List.mem_or_eq_of_mem_set hr with hr | hr
    · exact h.acquired r (.inr hr)
    · exact hacquired r (.inr hr.symm)

/-- `mSlots` changes while no other call has begun. -/
theorem PoolInv.newArray {i : Nat} {pc : CallPc} (h : PoolInv s) (pc' : CallPc) (hi : s.calls[i]? = some pc)
    (halone : ∀ j, j ≠ i → s.callAt j = .returned) (hphase : Phase s' pc')
    (hcalls : s'.calls = s.calls.set i pc' := by rfl)
    (hgen : s'.generation = s.generation + 1 := by rfl) (hrefs : s'.refs = s.refs := by rfl)
    (hacquired : ∀ r, pc' ≠ .acquireCount r ∧ pc' ≠ .acquireReturn r := by simp)
    (hdropped : ∀ r, pc' ≠ .releaseTest r := by simp)
    (hdefined : s'.undefined = s.undefined := by rfl) : PoolInv s' := by
  refine h.of_phase hi hcalls (by omega) (fun j hj => by rw [halone j hj]; rfl)
    (fun r hr => .inl (hrefs ▸ hr)) ?_ hdropped hdefined hphase
  rintro r (hr | hr)
  · rcases eq_of_mem_set hcalls halone hr with he | he
    · cases he
    · exact absurd he.symm (hacquired r).1
  · rcases eq_of_mem_set hcalls halone hr with he | he
    · cases he
    · exact absurd he.symm (hacquired r).2

/-! ## Initialize and Shutdown -/

/-- A step of `Initialize` or `Shutdown` beside which there is no other call. -/
theorem PoolInv.manageStep {i : Nat} {pc : CallPc} (h : PoolInv s) (hi : s.calls[i]? = some pc)
    (halone : ∀ j, j ≠ i → s.callAt j = .returned) (hphase : Phase s pc) (hpc : pc.manages = true)
    (hs : callStep s i pc = some s') : PoolInv s' := by
  have hmid : ∀ j, j ≠ i → (s.callAt j).mid = false := fun j hj => by rw [halone j hj]; rfl
  cases pc with
  | initTest capacity =>
      simp only [callStep, Option.some.injEq] at hs
      subst hs
      split
      · exact h.advance .returned hi hmid
          ⟨hphase.fits.quiet hi rfl rfl rfl rfl rfl rfl rfl, hphase.mSlots, hphase.mCapacity⟩
      next hno =>
        refine h.advance (.initCapacity capacity) hi hmid ?_
        have hinit : s.mInitialized = false := by
          simpa using fun hyes => hno (Or.inl hyes)
        have hfits := hphase.fits
        rw [hphase.mCapacity hinit] at hfits
        exact hfits.quiet hi rfl rfl rfl rfl rfl rfl rfl
  | initCapacity capacity =>
      cases hs
      exact h.advance (.initSlots capacity) hi hmid
        ⟨Fits.quiet hphase hi rfl rfl rfl rfl rfl rfl rfl, rfl⟩
  | initSlots capacity =>
      cases hs
      obtain ⟨hfits, hcapacity⟩ := hphase
      have hzero : ∀ k, s.total k = 0 := fun k => by rw [hfits.total k, if_neg (Nat.not_lt_zero k)]
      have hactive := hfits.active
      rw [held_eq_zero hzero, Nat.zero_mod] at hactive
      have hfree := mFreeList_eq_nil hzero
      exact h.newArray (.initPush capacity 0) hi halone
        ⟨fits_zero (total_eq_zero h rfl rfl rfl hfree halone rfl) hactive, Nat.zero_le _, hcapacity,
          by simp [Pool.setCall]⟩
  | initPush capacity k =>
      obtain ⟨hfits, hle, hcapacity, hslots⟩ := hphase
      simp only [callStep, Option.some.injEq] at hs
      subst hs
      split
      next hlt =>
        refine h.advance (.initPush capacity (k + 1)) hi hmid ⟨⟨fun j => ?_, ?_⟩, hlt, hcapacity,
          hslots⟩
        · have hcalls : ({ s with mFreeList := k :: s.mFreeList }.setCall i
              (.initPush capacity (k + 1))).calls = s.calls.set i (.initPush capacity (k + 1)) := rfl
          have htotal := total_set hi hcalls rfl j
          have hold := hfits.total j
          simp only [Pool.setCall, CallPc.slot, List.count_cons] at htotal ⊢
          grind
        · have hcalls : ({ s with mFreeList := k :: s.mFreeList }.setCall i
              (.initPush capacity (k + 1))).calls = s.calls.set i (.initPush capacity (k + 1)) := rfl
          have hheld := held_set hi hcalls rfl
          have heq := Nat.add_right_cancel (Nat.add_right_cancel hheld)
          exact heq ▸ hfits.active
      next hlt =>
        have heq : k = s.mCapacity.toNat := by
          rw [hcapacity]
          omega
        subst heq
        rw [← hcapacity] at hslots
        exact h.advance .initDone hi hmid ⟨hfits.quiet hi rfl rfl rfl rfl rfl rfl rfl, hslots⟩
  | initDone =>
      cases hs
      obtain ⟨hfits, hslots⟩ := hphase
      exact h.advance .returned hi hmid
        ⟨hfits.quiet hi rfl rfl rfl rfl rfl rfl rfl, hslots, fun hno => by cases hno⟩
  | shutdownTest =>
      simp only [callStep, Option.some.injEq] at hs
      subst hs
      split
      next hinit =>
        have hslots := hphase.mSlots
        rw [if_pos hinit] at hslots
        exact h.advance .shutdownFlag hi hmid
          ⟨hphase.fits.quiet hi rfl rfl rfl rfl rfl rfl rfl, hslots⟩
      · exact h.advance .returned hi hmid
          ⟨hphase.fits.quiet hi rfl rfl rfl rfl rfl rfl rfl, hphase.mSlots, hphase.mCapacity⟩
  | shutdownFlag =>
      cases hs
      exact h.advance .shutdownLock hi hmid rfl
  | shutdownLock =>
      simp only [callStep] at hs
      split at hs
      · cases hs
        exact h.advance .shutdownClear hi hmid hphase
      · cases hs
  | shutdownClear =>
      cases hs
      exact h.advance .shutdownSlots hi hmid ⟨hphase, rfl⟩
  | shutdownSlots =>
      cases hs
      exact h.newArray .shutdownCapacity hi halone
        ⟨hphase.1, rfl, total_eq_zero h rfl rfl rfl hphase.2 halone rfl⟩
  | shutdownCapacity =>
      cases hs
      exact h.advance .shutdownCount hi hmid ⟨hphase.1, hphase.2.quiet _ hi rfl rfl rfl rfl rfl rfl, rfl⟩
  | shutdownCount =>
      cases hs
      obtain ⟨hinit, hblank, hcapacity⟩ := hphase
      have hblank' : Blank ({ s with mActiveCount := 0, mFreeListMutex := none }.setCall i
          .returned) :=
        hblank.quiet .returned hi rfl rfl rfl rfl rfl rfl
      have hfits := fits_zero hblank'.total rfl
      refine h.advance .returned hi hmid ⟨?_, ?_, fun _ => hcapacity⟩
      · have hzero : s.mCapacity.toNat = 0 := by rw [hcapacity]; rfl
        show Fits _ s.mCapacity.toNat
        rw [hzero]
        exact hfits
      · simp [Pool.setCall, hblank.mSlots, hinit]
  | _ => cases hpc

/-! ## Acquire and ReleaseInternal -/

/-- A call goes on, and the pool stays settled. -/
theorem Settled.setCall {i : Nat} {pc pc' : CallPc} (h : Settled s) (hi : s.calls[i]? = some pc)
    (hslot : pc'.slot s.generation = pc.slot s.generation)
    (hcounted : pc'.counted s.generation = pc.counted s.generation) : Settled (s.setCall i pc') :=
  ⟨h.fits.quiet hi rfl rfl rfl rfl rfl hslot hcounted, h.mSlots, h.mCapacity⟩

/-- A call goes on, and what it has in hand comes from the free list or the references, or
goes there. -/
theorem Settled.change {i : Nat} {pc pc' : CallPc} (h : Settled s) (hi : s.calls[i]? = some pc)
    (hcalls : s'.calls = s.calls.set i pc') (hgen : s'.generation = s.generation)
    (hslots : s'.mSlots = s.mSlots) (hinit : s'.mInitialized = s.mInitialized)
    (hcapacity : s'.mCapacity = s.mCapacity)
    (htotal : ∀ k, (decide (pc'.slot s.generation = some k)).toNat + s'.mFreeList.count k +
        s'.refs.countP (fun r => r.slot s.generation = some k) =
      (decide (pc.slot s.generation = some k)).toNat + s.mFreeList.count k +
        s.refs.countP (fun r => r.slot s.generation = some k))
    (hactive : ∀ held held', s.mActiveCount = held % 2 ^ 64 →
      held' + (pc.counted s.generation).toNat +
          s.refs.countP (fun r => r.generation = s.generation) =
        held + (pc'.counted s.generation).toNat +
          s'.refs.countP (fun r => r.generation = s.generation) →
      s'.mActiveCount = held' % 2 ^ 64) : Settled s' where
  fits := {
    total := fun k => by
      have hset := total_set hi hcalls hgen k
      have hk := htotal k
      rw [hcapacity, ← h.fits.total k]
      omega
    active := hactive _ _ h.fits.active (held_set hi hcalls hgen) }
  mSlots := by
    rw [hslots, hinit, hcapacity]
    exact h.mSlots
  mCapacity := by
    rw [hinit, hcapacity]
    exact h.mCapacity

/-- A slot in a hand exists. -/
theorem Settled.exists_slots {i k : Nat} {pc : CallPc} (h : Settled s) (hi : s.calls[i]? = some pc)
    (hslot : pc.slot s.generation = some k) :
    ∃ slots, s.mSlots = some slots ∧ k < slots.length ∧ slots.length = s.mCapacity.toNat := by
  have hlt := h.fits.lt hi hslot
  have hslots := h.mSlots
  cases hinit : s.mInitialized with
  | false =>
      rw [h.mCapacity hinit] at hlt
      exact absurd hlt (Nat.not_lt_zero k)
  | true =>
      rw [if_pos hinit] at hslots
      obtain ⟨slots, hsome, hlength⟩ := Option.map_eq_some_iff.mp hslots
      exact ⟨slots, hsome, hlength ▸ hlt, hlength⟩

/-- A call uses the slot that it has in hand. -/
theorem PoolInv.useSlot {i k : Nat} {pc pc' : CallPc} {f : Bool → Bool} (h : PoolInv s)
    (hsettled : Settled s) (hi : s.calls[i]? = some pc)
    (hmid : ∀ j, j ≠ i → (s.callAt j).mid = false) (hslot : pc.slot s.generation = some k)
    (hslot' : pc'.slot s.generation = pc.slot s.generation)
    (hcounted : pc'.counted s.generation = pc.counted s.generation) (hpc' : pc'.manages = false)
    (hacquired : ∀ r, pc' = .acquireCount r ∨ pc' = .acquireReturn r →
      r.generation = s.generation) (hdropped : ∀ r, pc' ≠ .releaseTest r) :
    PoolInv (s.useSlot i k f pc') := by
  obtain ⟨slots, hsome, hlt, hlength⟩ := hsettled.exists_slots hi hslot
  have hsettled' : Settled ({ s with mSlots := some (slots.modify k f) }.setCall i pc') := by
    refine ⟨hsettled.fits.quiet hi rfl rfl rfl rfl rfl hslot' hcounted, ?_, hsettled.mCapacity⟩
    have hslots := hsettled.mSlots
    rw [hsome, Option.map_some] at hslots
    show some (slots.modify k f).length = _
    rw [List.length_modify]
    exact hslots
  simp only [Pool.useSlot, hsome, if_pos hlt]
  refine h.advance pc' hi hmid ?_ rfl rfl (fun _ => Or.inl) hacquired hdropped
  rwa [phase_of_not_mid (mid_of_not_manages hpc')]

/-- A step of `Acquire` or `ReleaseInternal`, while no `Initialize` and no `Shutdown` is under
way. -/
theorem PoolInv.useStep {i : Nat} {pc : CallPc} (h : PoolInv s) (hi : s.calls[i]? = some pc)
    (hmid : ∀ j, j ≠ i → (s.callAt j).mid = false) (hphase : Phase s pc) (hfresh : s.Fresh pc)
    (hpc : pc.manages = false) (hs : callStep s i pc = some s') : PoolInv s' := by
  cases pc with
  | acquirePop =>
      simp only [callStep] at hs
      split at hs
      · split at hs
        · cases hs
          exact h.advance .returned hi hmid (hphase.setCall hi rfl rfl)
        next k rest hfree =>
          cases hs
          refine h.advance (.acquireInUse k) hi hmid
            (hphase.change hi rfl rfl rfl rfl rfl (fun j => ?_) fun held held' hactive hheld => ?_)
          · by_cases hk : k = j
            · simp [Pool.setCall, CallPc.slot, hfree, hk]
              omega
            · simp [Pool.setCall, CallPc.slot, hfree, hk]
          · simp only [Pool.setCall, CallPc.counted, Bool.toNat_false] at hheld ⊢
            omega
      · cases hs
  | acquireInUse k =>
      cases hs
      exact h.useSlot hphase hi hmid rfl rfl rfl rfl (by simp) (by simp)
  | acquireCount r =>
      cases hs
      have hgen := h.acquired r (.inl (List.mem_of_getElem? hi))
      refine h.advance (.acquireReturn r) hi hmid
        (hphase.change hi rfl rfl rfl rfl rfl (fun _ => rfl) fun held held' hactive hheld => ?_)
        rfl rfl (fun _ => Or.inl) (by simpa using hgen)
      simp only [Pool.setCall, increment, CallPc.counted, Bool.toNat_true, Bool.toNat_false] at hheld ⊢
      omega
  | acquireReturn r =>
      cases hs
      have hgen := h.acquired r (.inr (List.mem_of_getElem? hi))
      refine h.advance .returned hi hmid
        (hphase.change hi rfl rfl rfl rfl rfl (fun j => ?_) fun held held' hactive hheld => ?_)
        rfl rfl (fun q hq => ?_)
      · by_cases hk : r.slotIdx = j
        · simp [Pool.setCall, CallPc.slot, SessionRef.slot, hgen, hk]
          omega
        · simp [Pool.setCall, CallPc.slot, SessionRef.slot, hgen, hk]
      · simp only [Pool.setCall, CallPc.counted, List.countP_cons, hgen, decide_true, if_true,
          Bool.toNat_true, Bool.toNat_false] at hheld ⊢
        omega
      · rcases List.mem_cons.mp hq with rfl | hq
        · exact .inr hgen
        · exact .inl hq
  | releaseTest r =>
      simp only [callStep, Option.some.injEq] at hs
      subst hs
      split
      next htest =>
        -- The test is against a reference of this generation only if the pool has no such slot.
        have hne : r.generation ≠ s.generation := by
          intro heq
          have hslot : CallPc.slot s.generation (.releaseTest r) = some r.slotIdx := if_pos heq
          obtain ⟨slots, hsome, hlt, hlength⟩ := hphase.exists_slots hi hslot
          rcases htest with htest | htest
          · simp [hsome] at htest
          · omega
        refine h.advance .returned hi hmid (hphase.setCall hi ?_ ?_)
        · simp [CallPc.slot, SessionRef.slot, hne]
        · simp [CallPc.counted, hne]
      next htest =>
        have heq : r.generation = s.generation :=
          (hfresh r rfl).resolve_right fun hno => htest hno
        refine h.advance (.releaseClose r.slotIdx) hi hmid (hphase.setCall hi ?_ ?_)
        · simp [CallPc.slot, SessionRef.slot, heq]
        · simp [CallPc.counted, heq]
  | releaseClose k =>
      cases hs
      exact h.useSlot hphase hi hmid rfl rfl rfl rfl (by simp) (by simp)
  | releaseInUse k =>
      cases hs
      exact h.useSlot hphase hi hmid rfl rfl rfl rfl (by simp) (by simp)
  | releaseCount k =>
      cases hs
      refine h.advance (.releasePush k) hi hmid
        (hphase.change hi rfl rfl rfl rfl rfl (fun _ => rfl) fun held held' hactive hheld => ?_)
      simp only [Pool.setCall, decrement, CallPc.counted, Bool.toNat_true, Bool.toNat_false]
        at hheld ⊢
      split <;> omega
  | releasePush k =>
      simp only [callStep] at hs
      split at hs
      · cases hs
        refine h.advance .returned hi hmid
          (hphase.change hi rfl rfl rfl rfl rfl (fun j => ?_) fun held held' hactive hheld => ?_)
        · by_cases hk : k = j
          · simp [Pool.setCall, CallPc.slot, hk]
            omega
          · simp [Pool.setCall, CallPc.slot, hk]
        · simp only [Pool.setCall, CallPc.counted, Bool.toNat_false] at hheld ⊢
          omega
      · cases hs
  | returned => cases hs
  | _ => cases hpc

/-! ## Calls begin -/

/-- Nothing changes of what `Phase` is about. -/
structure SamePool (s s' : Pool) : Prop where
  total : ∀ k, s'.total k = s.total k
  held : s'.held = s.held
  mInitialized : s'.mInitialized = s.mInitialized
  mCapacity : s'.mCapacity = s.mCapacity
  mSlots : s'.mSlots = s.mSlots
  mFreeList : s'.mFreeList = s.mFreeList
  mActiveCount : s'.mActiveCount = s.mActiveCount

theorem SamePool.fits {n : Nat} (h : SamePool s s') (hf : Fits s n) : Fits s' n where
  total := fun k => (h.total k).trans (hf.total k)
  active := h.mActiveCount.trans (h.held ▸ hf.active)

theorem SamePool.blank (h : SamePool s s') (hb : Blank s) : Blank s' where
  mSlots := h.mSlots.trans hb.mSlots
  total := fun k => (h.total k).trans (hb.total k)

theorem SamePool.settled (h : SamePool s s') (hs : Settled s) : Settled s' where
  fits := by
    rw [h.mCapacity]
    exact h.fits hs.fits
  mSlots := by
    rw [h.mSlots, h.mInitialized, h.mCapacity]
    exact hs.mSlots
  mCapacity := by
    rw [h.mInitialized, h.mCapacity]
    exact hs.mCapacity

theorem SamePool.phase {pc : CallPc} (h : SamePool s s') (hp : Phase s pc) : Phase s' pc := by
  cases pc with
  | initCapacity capacity => exact h.fits hp
  | initSlots capacity => exact ⟨h.fits hp.1, h.mCapacity.trans hp.2⟩
  | initPush capacity k =>
      obtain ⟨hfits, hle, hcapacity, hslots⟩ := hp
      exact ⟨h.fits hfits, hle, h.mCapacity.trans hcapacity, h.mSlots ▸ hslots⟩
  | initDone | shutdownFlag =>
      obtain ⟨hfits, hslots⟩ := hp
      have hfits' := h.fits hfits
      rw [← h.mCapacity] at hfits' hslots
      exact ⟨hfits', h.mSlots ▸ hslots⟩
  | shutdownLock | shutdownClear => exact h.mInitialized.trans hp
  | shutdownSlots => exact ⟨h.mInitialized.trans hp.1, h.mFreeList.trans hp.2⟩
  | shutdownCapacity => exact ⟨h.mInitialized.trans hp.1, h.blank hp.2⟩
  | shutdownCount =>
      exact ⟨h.mInitialized.trans hp.1, h.blank hp.2.1, h.mCapacity.trans hp.2.2⟩
  | _ => exact h.settled hp

/-- A call begins. -/
theorem PoolInv.begins {pc : CallPc} (h : PoolInv s) (hsame : SamePool s s')
    (hcalls : s'.calls = s.calls ++ [pc]) (hgen : s'.generation = s.generation)
    (hdefined : s'.undefined = s.undefined) (hrefs : s'.refs ⊆ s.refs) (hmid : pc.mid = false)
    (hacquired : ∀ r, pc ≠ .acquireCount r ∧ pc ≠ .acquireReturn r)
    (hdropped : ∀ r, pc = .releaseTest r → r.generation ≤ s.generation) : PoolInv s' where
  generation := fun r hr => by
    rw [hgen]
    exact h.generation r (hrefs hr)
  acquired := fun r hr => by
    rw [hcalls, List.mem_append, List.mem_append, List.mem_singleton, List.mem_singleton] at hr
    rw [hgen]
    rcases hr with (hr | hr) | (hr | hr)
    · exact h.acquired r (.inl hr)
    · exact absurd hr.symm (hacquired r).1
    · exact h.acquired r (.inr hr)
    · exact absurd hr.symm (hacquired r).2
  dropped := fun r hr => by
    rw [hcalls, List.mem_append, List.mem_singleton] at hr
    rw [hgen]
    rcases hr with hr | hr
    · exact h.dropped r hr
    · exact hdropped r hr.symm
  phase := fun i hi => by
    have hcall : ∀ j, s'.callAt j = s.callAt j ∨ s.callAt j = .returned ∧ s'.callAt j = pc := by
      intro j
      simp only [Pool.callAt, hcalls, List.getD_eq_getElem?_getD]
      rcases Nat.lt_trichotomy j s.calls.length with hj | rfl | hj
      · rw [List.getElem?_append_left hj]
        exact .inl rfl
      · simp
      · rw [List.getElem?_eq_none (by simp; omega), List.getElem?_eq_none (by omega)]
        exact .inl rfl
    have hold : Phase s (s.callAt i) := h.phase i fun j hj => by
      rcases hcall j with he | ⟨he, -⟩
      · rw [← he]
        exact hi j hj
      · rw [he]
        rfl
    have hnew := hsame.phase hold
    rcases hcall i with he | ⟨he, he'⟩
    · rwa [he]
    · rw [he] at hnew
      rwa [he', phase_of_not_mid hmid]
  defined := hdefined.trans h.defined

/-- Nothing has happened to the pool when a call begins that has nothing in hand. -/
theorem samePool_begin {pc : CallPc} (hslot : pc.slot s.generation = none)
    (hcounted : pc.counted s.generation = false) : SamePool s (s.begin pc) where
  total := fun k => by
    simp only [Pool.total, Pool.begin, Tally.countP_concat, hslot]
    rfl
  held := by
    simp only [Pool.held, Pool.begin, Tally.countP_concat, hcounted]
    rfl
  mInitialized := rfl
  mCapacity := rfl
  mSlots := rfl
  mFreeList := rfl
  mActiveCount := rfl

/-- When a reference goes, its slot is in the hand of the call. -/
theorem samePool_drop {r : SessionRef} (hr : r ∈ s.refs) :
    SamePool s ({ s with refs := s.refs.erase r }.begin (.releaseTest r)) where
  total := fun k => by
    have herase := (List.perm_cons_erase hr).countP_eq
      fun r => decide (r.slot s.generation = some k)
    have hcalls := Tally.countP_concat
      (fun pc : CallPc => decide (pc.slot s.generation = some k)) s.calls (.releaseTest r)
    have hslot : CallPc.slot s.generation (.releaseTest r) = r.slot s.generation := rfl
    rw [Tally.countP_cons_toNat] at herase
    show s.mFreeList.count k + (s.refs.erase r).countP (fun r => r.slot s.generation = some k) +
      (s.calls ++ [CallPc.releaseTest r]).countP (fun pc => pc.slot s.generation = some k) =
        s.total k
    rw [hcalls, hslot, Pool.total, herase]
    omega
  held := by
    have herase := (List.perm_cons_erase hr).countP_eq
      fun r => decide (r.generation = s.generation)
    have hcalls := Tally.countP_concat (CallPc.counted s.generation) s.calls (.releaseTest r)
    have hcounted : CallPc.counted s.generation (.releaseTest r) =
      decide (r.generation = s.generation) := rfl
    rw [Tally.countP_cons_toNat] at herase
    show (s.refs.erase r).countP (fun r => r.generation = s.generation) +
      (s.calls ++ [CallPc.releaseTest r]).countP (CallPc.counted s.generation) = s.held
    rw [hcalls, hcounted, Pool.held, herase]
    omega
  mInitialized := rfl
  mCapacity := rfl
  mSlots := rfl
  mFreeList := rfl
  mActiveCount := rfl

/-! ## Every step -/

/-- `Initialize` and `Shutdown` go on while no other call is under way. -/
theorem Pool.Alone.returned {i : Nat} (h : s.Alone i) (hi : (s.callAt i).manages = true) {j : Nat}
    (hj : j ≠ i) : s.callAt j = .returned := by
  by_cases hlt : j < s.calls.length
  · exact h j hlt hj (.inl hi)
  · rw [Pool.callAt, List.getD_eq_getElem?_getD, List.getElem?_eq_none (by omega)]
    rfl

/-- The other calls go on while no `Initialize` and no `Shutdown` is under way. -/
theorem Pool.Alone.mid {i : Nat} (h : s.Alone i) {j : Nat} (hj : j ≠ i) :
    (s.callAt j).mid = false := by
  by_cases hlt : j < s.calls.length
  · cases hm : (s.callAt j).manages with
    | true =>
        rw [h j hlt hj (.inr hm)] at hm
        cases hm
    | false => exact mid_of_not_manages hm
  · rw [Pool.callAt, List.getD_eq_getElem?_getD, List.getElem?_eq_none (by omega)]
    rfl

/-- Every orderly step keeps the invariant. -/
theorem PoolInv.step {a : Act} (h : PoolInv s) (hok : Orderly s a)
    (hs : SessionPool.step s a = some s') : PoolInv s' := by
  simp only [SessionPool.step] at hs
  rw [if_neg (by simp [h.defined])] at hs
  cases a with
  | init capacity =>
      cases hs
      exact h.begins (samePool_begin rfl rfl) rfl rfl rfl (List.Subset.refl _) rfl (by simp)
        (by simp)
  | shutdown =>
      cases hs
      exact h.begins (samePool_begin rfl rfl) rfl rfl rfl (List.Subset.refl _) rfl (by simp)
        (by simp)
  | acquire =>
      cases hs
      exact h.begins (samePool_begin rfl rfl) rfl rfl rfl (List.Subset.refl _) rfl (by simp)
        (by simp)
  | drop r =>
      simp only at hs
      split at hs
      next hr =>
        cases hs
        refine h.begins (samePool_drop hr) rfl rfl rfl List.erase_subset rfl (by simp) fun q hq => ?_
        cases hq
        exact h.generation r hr
      · cases hs
  | call i =>
      obtain ⟨halone, hfresh⟩ := hok
      have hs : callStep s i (s.callAt i) = some s' := hs
      have hne : s.callAt i ≠ .returned := fun he => by
        rw [he] at hs
        cases hs
      have hi : s.calls[i]? = some (s.callAt i) := Machine.getElem?_of_getD rfl hne
      have hphase := h.phase i fun j hj => halone.mid hj
      cases hm : (s.callAt i).manages with
      | true => exact h.manageStep hi (fun j hj => halone.returned hm hj) hphase hm hs
      | false => exact h.useStep hi (fun j hj => halone.mid hj) hphase hfresh hm hs

theorem poolInv_init : PoolInv {} where
  generation := by simp
  acquired := by simp
  dropped := by simp
  phase := fun i _ =>
    show Settled {} from ⟨⟨fun k => by simp [Pool.total], rfl⟩, rfl, fun _ => rfl⟩
  defined := rfl

/-! ## The partition -/

theorem count_eq_total (k : Nat) :
    (s.mFreeList ++ (s.live ++ s.inHand)).count k = s.total k := by
  have hrefs := List.count_filterMap (b := k) (f := SessionRef.slot s.generation) (l := s.refs)
  have hcalls := List.count_filterMap (b := k) (f := CallPc.slot s.generation) (l := s.calls)
  simp only [beq_eq_decide] at hrefs hcalls
  rw [List.count_append, List.count_append, Pool.live, Pool.inHand, hrefs, hcalls, Pool.total]
  omega

theorem length_live : s.live.length = s.refs.countP (fun r => r.generation = s.generation) := by
  rw [Pool.live, List.length_filterMap_eq_countP]
  refine List.countP_congr fun r _ => ?_
  simp [SessionRef.slot]

/-- What is counted in a hand is a slot. -/
theorem countP_counted_le : s.calls.countP (CallPc.counted s.generation) ≤ s.inHand.length := by
  rw [Pool.inHand, List.length_filterMap_eq_countP]
  refine List.countP_mono_left fun pc _ => ?_
  cases pc <;> simp [CallPc.counted, CallPc.slot, SessionRef.slot]

/-- While no call is in the middle, the invariant is the partition. -/
theorem PoolInv.partition (h : PoolInv s) (hmid : ∀ pc ∈ s.calls, pc.mid = false) :
    Partition s := by
  have hcall : ∀ j, (s.callAt j).mid = false := fun j => by
    rw [Pool.callAt, List.getD_eq_getElem?_getD]
    cases hj : s.calls[j]? with
    | none => rfl
    | some pc => exact hmid pc (List.mem_of_getElem? hj)
  have hsettled : Settled s := by
    have hphase := h.phase 0 fun j _ => hcall j
    rwa [phase_of_not_mid (hcall 0)] at hphase
  have hperm : (s.mFreeList ++ (s.live ++ s.inHand)).Perm (List.range s.mCapacity.toNat) := by
    refine List.perm_iff_count.mpr fun k => ?_
    rw [count_eq_total, hsettled.fits.total, List.nodup_range.count]
    simp only [List.mem_range]
  refine ⟨hperm, ?_⟩
  have hheld : s.held = s.live.length + s.calls.countP (CallPc.counted s.generation) := by
    rw [Pool.held, length_live]
  have hlength := hperm.length_eq
  simp only [List.length_append, List.length_range] at hlength
  have hcounted := countP_counted_le (s := s)
  have hlt := s.mCapacity.toNat_lt
  rw [hsettled.fits.active, ← hheld]
  exact Nat.mod_eq_of_lt (by omega)

/-- In every state of every orderly run, the slots are partitioned. -/
theorem partition_run {as : List Act} (hok : Machine.Meets SessionPool.step Orderly {} as)
    (hrun : Machine.run SessionPool.step {} as = some s)
    (hmid : ∀ pc ∈ s.calls, pc.mid = false) : Partition s := by
  have h : PoolInv s :=
    Machine.run_invariant_of_meets (fun _ _ _ h hok hs => h.step hok hs) poolInv_init hok hrun
  exact h.partition hmid

end

/-- A reference outlives a `Shutdown`, and goes before the pool is initialized again. -/
def lateTrace : List Act :=
  List.flatten
    [[.init 2], List.replicate 7 (.call 0), [.acquire], List.replicate 4 (.call 1), [.acquire],
      List.replicate 4 (.call 2), [.drop ⟨0, 1⟩], List.replicate 5 (.call 3), [.shutdown],
      List.replicate 7 (.call 4), [.drop ⟨1, 1⟩, .call 5, .init 1], List.replicate 6 (.call 6),
      [.acquire], List.replicate 4 (.call 7)]

theorem partition_lateTrace :
    ∃ s, Machine.run step {} lateTrace = some s ∧ s.mFreeList = [] ∧ s.refs = [⟨0, 3⟩] ∧
      Partition s :=
  ⟨_, rfl, rfl, rfl, @partition_run _ lateTrace (by decide +kernel) rfl (by decide)⟩

end NetworkModule.SessionPool
