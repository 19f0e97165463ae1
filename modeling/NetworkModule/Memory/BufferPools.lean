import NetworkModule.Lib.Machine

/-!
# The geometry of the buffer pools

`StandardBufferPool`, `IOUringBufferPool`, `RIOBufferPool` and `SendBufferPool` cut one
allocation into slots of the same size, and `Acquire` computes the address of a slot from its
index.  The number of bytes is a product of 64 bits.  Two of the pools refuse sizes with which
it overflows, and two do not.  `IOUringBufferPool` tells the kernel the number of its slots in
32 bits, and `RIOBufferPool` the number of its bytes.

`geometry_iff_fits` says for which sizes the slots lie inside the memory that was allocated and
registered, and apart from each other, whatever is acquired and released.
-/

namespace NetworkModule.BufferPools

/-! ## The pools -/

/-- A range of addresses. -/
structure Region where
  start : Nat
  length : Nat
  deriving DecidableEq, Repr

/-- `BufferSlot`. -/
structure BufferSlot where
  ptr : UInt64
  index : UInt64
  capacity : UInt64
  deriving DecidableEq, Repr

/-- The members that the pools have in common, under the names of `StandardBufferPool`, with the
memory that the last `Initialize` got. -/
structure BufferPool where
  mStorage : UInt64 := 0
  mSlotSize : UInt64 := 0
  mPoolSize : UInt64 := 0
  /-- The last element is the top of the stack. -/
  mFreeIndices : List UInt64 := []
  allocated : Region := ⟨0, 0⟩
  /-- What the kernel knows, for the pools that register their memory. -/
  registered : Option (List Region) := none

/-- What the system answers. -/
structure System where
  /-- The address of an allocation. -/
  alloc : UInt64 → Option UInt64
  alloc_room : ∀ bytes storage, alloc bytes = some storage →
    0 < storage ∧ storage.toNat + bytes.toNat < 2 ^ 64
  /-- The socket of `RIOBufferPool::Initialize` gives the functions for registration. -/
  functionTable : Bool
  /-- The registration succeeds. -/
  register : Bool

/-- `std::iota` from 0. -/
def iota (poolSize : UInt64) : List UInt64 := (List.range poolSize.toNat).map UInt64.ofNat

/-- `StandardBufferPool::Initialize`. -/
def initializeStandard (system : System) (pool : BufferPool) (poolSize slotSize : UInt64) :
    Bool × BufferPool :=
  if poolSize = 0 ∨ slotSize = 0 then (false, pool)
  else if (2 ^ 64 - 1 : UInt64) / poolSize < slotSize then (false, pool)
  else if pool.mStorage ≠ 0 then (false, pool)
  else
    match system.alloc (poolSize * slotSize) with
    | none => (false, pool)
    | some mStorage =>
        (true, {
          mStorage
          mSlotSize := slotSize
          mPoolSize := poolSize
          mFreeIndices := iota poolSize
          allocated := ⟨mStorage.toNat, (poolSize * slotSize).toNat⟩ })

/-- The entry of `mIovecs` for an index. -/
def iovec (mStorage slotSize i : UInt64) : Region := ⟨(mStorage + i * slotSize).toNat, slotSize.toNat⟩

/-- `IOUringBufferPool::InitializeFixed`.  `Initialize` calls it without a ring. -/
def initializeFixed (ring : Bool) (system : System) (pool : BufferPool)
    (poolSize slotSize : UInt64) : Bool × BufferPool :=
  if poolSize = 0 ∨ slotSize = 0 then (false, pool)
  else if (2 ^ 64 - 1 : UInt64) / poolSize < slotSize then (false, pool)
  else if pool.mStorage ≠ 0 then (false, pool)
  else
    match system.alloc (poolSize * slotSize) with
    | none => (false, pool)
    | some mStorage =>
        let mIovecs := (iota poolSize).map (iovec mStorage slotSize)
        if ring = true ∧ system.register = false then
          (false, { pool with mSlotSize := slotSize, mPoolSize := poolSize })
        else
          (true, {
            mStorage
            mSlotSize := slotSize
            mPoolSize := poolSize
            mFreeIndices := iota poolSize
            allocated := ⟨mStorage.toNat, (poolSize * slotSize).toNat⟩
            registered := if ring then some (mIovecs.take poolSize.toUInt32.toNat) else none })

/-- `RIOBufferPool::Initialize`.  `mStorage` is `mSlab`. -/
def initializeRio (system : System) (pool : BufferPool) (poolSize slotSize : UInt64) :
    Bool × BufferPool :=
  if poolSize = 0 ∨ slotSize = 0 then (false, pool)
  else if pool.mStorage ≠ 0 then (false, pool)
  else if system.functionTable = false then (false, pool)
  else
    let slabBytes := poolSize * slotSize
    match system.alloc slabBytes with
    | none => (false, pool)
    | some mSlab =>
        if system.register = false then (false, pool)
        else
          (true, {
            mStorage := mSlab
            mSlotSize := slotSize
            mPoolSize := poolSize
            mFreeIndices := iota poolSize
            allocated := ⟨mSlab.toNat, slabBytes.toNat⟩
            registered := some [⟨mSlab.toNat, slabBytes.toUInt32.toNat⟩] })

/-- `SendBufferPool::Initialize`.  `mFreeIndices` is `mFreeSlots`. -/
def initializeSend (system : System) (pool : BufferPool) (poolSize slotSize : UInt64) :
    Bool × BufferPool :=
  if poolSize = 0 ∨ slotSize = 0 then (false, pool)
  else
    match system.alloc (poolSize * slotSize) with
    | none => (false, { pool with mStorage := 0, mSlotSize := slotSize, mPoolSize := poolSize })
    | some mStorage =>
        (true, {
          mStorage
          mSlotSize := slotSize
          mPoolSize := poolSize
          mFreeIndices := iota poolSize
          allocated := ⟨mStorage.toNat, (poolSize * slotSize).toNat⟩ })

/-- The slot for an index. -/
def BufferPool.slot (pool : BufferPool) (idx : UInt64) : BufferSlot :=
  ⟨pool.mStorage + idx * pool.mSlotSize, idx, pool.mSlotSize⟩

/-- `Acquire` of the pools other than `SendBufferPool`, unless it returns an empty slot. -/
def BufferPool.acquire (pool : BufferPool) : Option (BufferSlot × BufferPool) :=
  match pool.mFreeIndices.getLast? with
  | none => none
  | some idx => some (pool.slot idx, { pool with mFreeIndices := pool.mFreeIndices.dropLast })

/-- `SendBufferPool::Acquire`. -/
def BufferPool.acquireSend (pool : BufferPool) : Option (BufferSlot × BufferPool) :=
  if pool.mStorage = 0 then none else pool.acquire

/-- `Release` of the pools other than `SendBufferPool`. -/
def BufferPool.release (pool : BufferPool) (index : UInt64) : BufferPool :=
  { pool with mFreeIndices := pool.mFreeIndices ++ [index] }

/-- `SendBufferPool::Release`. -/
def BufferPool.releaseSend (pool : BufferPool) (slotIdx : UInt64) : BufferPool :=
  if pool.mPoolSize ≤ slotIdx then pool
  else if pool.mStorage = 0 then pool
  else pool.release slotIdx

/-- The four pools. -/
inductive Kind where
  | standard
  /-- With or without a ring. -/
  | ioUring (ring : Bool)
  | rio
  | send
  deriving DecidableEq, Repr

def Kind.init : Kind → System → BufferPool → UInt64 → UInt64 → Bool × BufferPool
  | .standard => initializeStandard
  | .ioUring ring => initializeFixed ring
  | .rio => initializeRio
  | .send => initializeSend

def Kind.acquire : Kind → BufferPool → Option (BufferSlot × BufferPool)
  | .send => BufferPool.acquireSend
  | _ => BufferPool.acquire

def Kind.release : Kind → BufferPool → UInt64 → BufferPool
  | .send => BufferPool.releaseSend
  | _ => BufferPool.release

/-! ## Users of a pool -/

/-- A pool, and the slots that it has handed out. -/
structure Users where
  pool : BufferPool
  handed : List BufferSlot := []

inductive Act where
  | acquire
  /-- A slot is given back by its index, perhaps more than once. -/
  | release (index : UInt64)
  deriving DecidableEq, Repr

def step (kind : Kind) (s : Users) : Act → Option Users
  | .acquire =>
      match kind.acquire s.pool with
      | none => some s
      | some (slot, pool) => some { pool, handed := s.handed ++ [slot] }
  | .release index =>
      if index ∈ s.handed.map BufferSlot.index then
        some { s with pool := kind.release s.pool index }
      else none

/-! ## What is promised -/

def Region.stop (r : Region) : Nat := r.start + r.length

def Region.Within (r outer : Region) : Prop := outer.start ≤ r.start ∧ r.stop ≤ outer.stop

def Region.Apart (r s : Region) : Prop := r.stop ≤ s.start ∨ s.stop ≤ r.start

def BufferSlot.region (slot : BufferSlot) : Region := ⟨slot.ptr.toNat, slot.capacity.toNat⟩

/-- The geometry of the slots that were handed out. -/
structure Geometry (s : Users) : Prop where
  allocated : ∀ slot ∈ s.handed, slot.region.Within s.pool.allocated
  registered : ∀ regions, s.pool.registered = some regions →
    ∀ slot ∈ s.handed, ∃ r ∈ regions, slot.region.Within r
  apart : ∀ slot ∈ s.handed, ∀ other ∈ s.handed, slot.index ≠ other.index →
    slot.region.Apart other.region

/-- The numbers of bytes and of slots fit into their types. -/
def Kind.Fits (poolSize slotSize : UInt64) : Kind → Prop
  | .standard => True
  | .ioUring ring => ring = true → poolSize.toNat < 2 ^ 32
  | .rio => poolSize.toNat * slotSize.toNat < 2 ^ 32
  | .send => poolSize.toNat * slotSize.toNat < 2 ^ 64

/-! ## A pool that is ready -/

section
variable {kind : Kind} {system : System} {pool : BufferPool} {poolSize slotSize : UInt64}

/-- What a kind of pool registers. -/
def Kind.regions (mStorage poolSize slotSize : UInt64) : Kind → Option (List Region)
  | .ioUring true =>
      some (((iota poolSize).map (iovec mStorage slotSize)).take poolSize.toUInt32.toNat)
  | .rio => some [⟨mStorage.toNat, (poolSize * slotSize).toUInt32.toNat⟩]
  | _ => none

/-- The pools that look whether the number of bytes fits. -/
def Kind.Guards : Kind → Prop
  | .standard | .ioUring _ => True
  | .rio | .send => False

/-- A pool after `Initialize` has returned `true`. -/
structure Ready (kind : Kind) (poolSize slotSize : UInt64) (pool : BufferPool) : Prop where
  poolSize_ne : poolSize ≠ 0
  slotSize_ne : slotSize ≠ 0
  storage_ne : pool.mStorage ≠ 0
  room : pool.mStorage.toNat + (poolSize * slotSize).toNat < 2 ^ 64
  mSlotSize : pool.mSlotSize = slotSize
  mPoolSize : pool.mPoolSize = poolSize
  free : pool.mFreeIndices = iota poolSize
  allocated : pool.allocated = ⟨pool.mStorage.toNat, (poolSize * slotSize).toNat⟩
  registered : pool.registered = kind.regions pool.mStorage poolSize slotSize
  guarded : kind.Guards → poolSize.toNat * slotSize.toNat < 2 ^ 64

/-- An address of an allocation. -/
theorem System.alloc_ne {bytes storage : UInt64} (h : system.alloc bytes = some storage) :
    storage ≠ 0 := by
  rintro rfl
  exact absurd (system.alloc_room _ _ h).1 (UInt64.lt_irrefl _)

/-- The test that guards the product. -/
theorem mul_lt_of_guard (hpool : poolSize ≠ 0)
    (hguard : ¬ (2 ^ 64 - 1 : UInt64) / poolSize < slotSize) :
    poolSize.toNat * slotSize.toNat < 2 ^ 64 := by
  have hpos : 0 < poolSize.toNat := by
    rcases Nat.eq_zero_or_pos poolSize.toNat with hzero | hpos
    · exact absurd (UInt64.toNat_inj.mp hzero) hpool
    · exact hpos
  have hle : slotSize.toNat ≤ (2 ^ 64 - 1) / poolSize.toNat := by
    have hmax : (2 ^ 64 - 1 : UInt64).toNat = 2 ^ 64 - 1 := by decide +kernel
    have hle := UInt64.le_iff_toNat_le.mp (UInt64.not_lt.mp hguard)
    rwa [UInt64.toNat_div, hmax] at hle
  have hmul : poolSize.toNat * slotSize.toNat ≤ 2 ^ 64 - 1 :=
    (Nat.mul_le_mul_left _ hle).trans (Nat.mul_div_le _ _)
  omega

theorem ready_standard (h : (initializeStandard system pool poolSize slotSize).1 = true) :
    Ready .standard poolSize slotSize (initializeStandard system pool poolSize slotSize).2 := by
  revert h
  rw [initializeStandard]
  split
  · exact fun h => absurd h Bool.false_ne_true
  next hsizes =>
    obtain ⟨hpool, hslot⟩ := not_or.mp hsizes
    split
    · exact fun h => absurd h Bool.false_ne_true
    next hguard =>
      split
      · exact fun h => absurd h Bool.false_ne_true
      · cases halloc : system.alloc (poolSize * slotSize) with
        | none => exact fun h => absurd h Bool.false_ne_true
        | some storage =>
            intro _
            exact ⟨hpool, hslot, System.alloc_ne halloc, (system.alloc_room _ _ halloc).2, rfl, rfl,
              rfl, rfl, rfl, fun _ => mul_lt_of_guard hpool hguard⟩

theorem ready_fixed {ring : Bool}
    (h : (initializeFixed ring system pool poolSize slotSize).1 = true) :
    Ready (.ioUring ring) poolSize slotSize
      (initializeFixed ring system pool poolSize slotSize).2 := by
  revert h
  rw [initializeFixed]
  split
  · exact fun h => absurd h Bool.false_ne_true
  next hsizes =>
    obtain ⟨hpool, hslot⟩ := not_or.mp hsizes
    split
    · exact fun h => absurd h Bool.false_ne_true
    next hguard =>
      split
      · exact fun h => absurd h Bool.false_ne_true
      · cases halloc : system.alloc (poolSize * slotSize) with
        | none => exact fun h => absurd h Bool.false_ne_true
        | some storage =>
            dsimp only
            split
            · exact fun h => absurd h Bool.false_ne_true
            · intro _
              have hregions : (if ring then
                  some (((iota poolSize).map (iovec storage slotSize)).take poolSize.toUInt32.toNat)
                  else none) = (Kind.ioUring ring).regions storage poolSize slotSize := by
                cases ring <;> rfl
              exact ⟨hpool, hslot, System.alloc_ne halloc, (system.alloc_room _ _ halloc).2, rfl,
                rfl, rfl, rfl, hregions, fun _ => mul_lt_of_guard hpool hguard⟩

theorem ready_rio (h : (initializeRio system pool poolSize slotSize).1 = true) :
    Ready .rio poolSize slotSize (initializeRio system pool poolSize slotSize).2 := by
  revert h
  rw [initializeRio]
  split
  · exact fun h => absurd h Bool.false_ne_true
  next hsizes =>
    obtain ⟨hpool, hslot⟩ := not_or.mp hsizes
    split
    · exact fun h => absurd h Bool.false_ne_true
    · split
      · exact fun h => absurd h Bool.false_ne_true
      · dsimp only
        cases halloc : system.alloc (poolSize * slotSize) with
        | none => exact fun h => absurd h Bool.false_ne_true
        | some storage =>
            dsimp only
            split
            · exact fun h => absurd h Bool.false_ne_true
            · intro _
              exact ⟨hpool, hslot, System.alloc_ne halloc, (system.alloc_room _ _ halloc).2, rfl,
                rfl, rfl, rfl, rfl, False.elim⟩

theorem ready_send (h : (initializeSend system pool poolSize slotSize).1 = true) :
    Ready .send poolSize slotSize (initializeSend system pool poolSize slotSize).2 := by
  revert h
  rw [initializeSend]
  split
  · exact fun h => absurd h Bool.false_ne_true
  next hsizes =>
    obtain ⟨hpool, hslot⟩ := not_or.mp hsizes
    cases halloc : system.alloc (poolSize * slotSize) with
    | none => exact fun h => absurd h Bool.false_ne_true
    | some storage =>
        intro _
        exact ⟨hpool, hslot, System.alloc_ne halloc, (system.alloc_room _ _ halloc).2, rfl, rfl, rfl,
          rfl, rfl, False.elim⟩

theorem ready_init (h : (kind.init system pool poolSize slotSize).1 = true) :
    Ready kind poolSize slotSize (kind.init system pool poolSize slotSize).2 := by
  cases kind with
  | standard => exact ready_standard h
  | ioUring ring => exact ready_fixed h
  | rio => exact ready_rio h
  | send => exact ready_send h

end

/-! ## Runs -/

section
variable {kind : Kind} {pool pool' base : BufferPool} {slot : BufferSlot} {index : UInt64}

/-- `Acquire` pops an index, and gives its slot. -/
theorem acquire_eq_some (h : kind.acquire pool = some (slot, pool')) :
    ∃ idx, pool.mFreeIndices = pool'.mFreeIndices ++ [idx] ∧ slot = pool.slot idx ∧
      pool' = { pool with mFreeIndices := pool'.mFreeIndices } := by
  have hpop : pool.acquire = some (slot, pool') := by
    cases kind with
    | send =>
        change (if pool.mStorage = 0 then none else pool.acquire) = _ at h
        split at h
        · cases h
        · exact h
    | _ => exact h
  rw [BufferPool.acquire] at hpop
  cases hlast : pool.mFreeIndices.getLast? with
  | none =>
      rw [hlast] at hpop
      cases hpop
  | some idx =>
      rw [hlast] at hpop
      cases hpop
      exact ⟨idx, (List.dropLast_append_getLast? idx hlast).symm, rfl, rfl⟩

/-- `Release` pushes the index, or it does nothing. -/
theorem release_cases (kind : Kind) (pool : BufferPool) (index : UInt64) :
    kind.release pool index = pool ∨
      kind.release pool index = { pool with mFreeIndices := pool.mFreeIndices ++ [index] } := by
  cases kind with
  | send =>
      rw [show Kind.send.release pool index = pool.releaseSend index from rfl,
        BufferPool.releaseSend]
      split
      · exact .inl rfl
      · split
        · exact .inl rfl
        · exact .inr rfl
  | _ => exact .inr rfl

/-- What is so in every run from a pool: only the free list changes, and the indices in it and
those of the slots that were handed out are in range. -/
structure Users.Inv (base : BufferPool) (s : Users) : Prop where
  pool : s.pool = { base with mFreeIndices := s.pool.mFreeIndices }
  free : ∀ idx ∈ s.pool.mFreeIndices, idx < base.mPoolSize
  handed : ∀ slot ∈ s.handed, slot = base.slot slot.index ∧ slot.index < base.mPoolSize

theorem Users.Inv.acquire {s : Users} (hI : s.Inv base)
    (h : kind.acquire s.pool = some (slot, pool)) :
    Users.Inv base ⟨pool, s.handed ++ [slot]⟩ := by
  obtain ⟨idx, hfree, rfl, hpool⟩ := acquire_eq_some h
  have hall := hI.free
  rw [hfree, List.forall_mem_append, List.forall_mem_singleton] at hall
  constructor
  · rw [hI.pool] at hpool
    exact hpool
  · exact hall.1
  · refine List.forall_mem_append.mpr ⟨hI.handed, List.forall_mem_singleton.mpr ⟨?_, hall.2⟩⟩
    rw [hI.pool]
    rfl

theorem Users.Inv.release {s : Users} (hI : s.Inv base) (hslot : slot ∈ s.handed) :
    Users.Inv base { s with pool := kind.release s.pool slot.index } := by
  rcases release_cases kind s.pool slot.index with hr | hr
  · rw [hr]
    exact hI
  · rw [hr]
    refine ⟨?_, ?_, hI.handed⟩
    · exact congrArg (fun p : BufferPool =>
        { p with mFreeIndices := s.pool.mFreeIndices ++ [slot.index] }) hI.pool
    · exact List.forall_mem_append.mpr
        ⟨hI.free, List.forall_mem_singleton.mpr (hI.handed slot hslot).2⟩

theorem Users.Inv.step {s s' : Users} {act : Act} (hI : s.Inv base)
    (h : step kind s act = some s') : s'.Inv base := by
  cases act with
  | acquire =>
      rw [BufferPools.step] at h
      rcases hacquire : kind.acquire s.pool with _ | ⟨slot, pool⟩
      · rw [hacquire] at h
        cases h
        exact hI
      · rw [hacquire] at h
        cases h
        exact hI.acquire hacquire
  | release index =>
      rw [BufferPools.step] at h
      split at h
      next hmem =>
        cases h
        obtain ⟨slot, hslot, rfl⟩ := List.mem_map.mp hmem
        exact hI.release hslot
      · cases h

theorem acquire_of_free (kind : Kind) {free : List UInt64} {idx : UInt64}
    (hstorage : pool.mStorage ≠ 0) (hfree : pool.mFreeIndices = free ++ [idx]) :
    kind.acquire pool = some (pool.slot idx, { pool with mFreeIndices := free }) := by
  have hpop : pool.acquire = some (pool.slot idx, { pool with mFreeIndices := free }) := by
    rw [BufferPool.acquire, hfree, List.getLast?_concat, List.dropLast_concat]
  cases kind with
  | send => exact (if_neg hstorage).trans hpop
  | _ => exact hpop

/-- Acquiring often enough hands out the slot for a free index. -/
theorem exists_handed (kind : Kind) {s : Users} {before behind : List UInt64} {idx : UInt64}
    (hstorage : s.pool.mStorage ≠ 0) (hfree : s.pool.mFreeIndices = before ++ idx :: behind) :
    ∃ acts s', Machine.run (BufferPools.step kind) s acts = some s' ∧
      s.pool.slot idx ∈ s'.handed ∧ s'.pool = { s.pool with mFreeIndices := before } := by
  induction behind using List.reverseRecOn generalizing s with
  | nil =>
      have hacquire := acquire_of_free kind hstorage hfree
      refine ⟨[.acquire], ⟨{ s.pool with mFreeIndices := before }, s.handed ++ [s.pool.slot idx]⟩,
        ?_, List.mem_append_right s.handed List.mem_cons_self, rfl⟩
      rw [Machine.run_cons, BufferPools.step, hacquire]
      rfl
  | append_singleton behind last ih =>
      have hlast : s.pool.mFreeIndices = (before ++ idx :: behind) ++ [last] := by
        rw [hfree, List.append_assoc, List.cons_append]
      have hacquire := acquire_of_free kind hstorage hlast
      obtain ⟨acts, s', hrun, hslot, hpool⟩ := ih (s := ⟨{ s.pool with
        mFreeIndices := before ++ idx :: behind }, s.handed ++ [s.pool.slot last]⟩) hstorage rfl
      refine ⟨.acquire :: acts, s', ?_, hslot, hpool⟩
      rw [Machine.run_cons, BufferPools.step, hacquire]
      exact hrun

end

/-! ## Slots as multiples -/

/-- The slot for an index, without overflow. -/
def cut (start size i : Nat) : Region := ⟨start + i * size, size⟩

theorem cut_within {start size i n : Nat} (hi : i < n) :
    (cut start size i).Within ⟨start, n * size⟩ := by
  have hle : (i + 1) * size ≤ n * size := Nat.mul_le_mul_right size hi
  rw [Nat.succ_mul] at hle
  refine ⟨Nat.le_add_right _ _, ?_⟩
  change start + i * size + size ≤ start + n * size
  omega

theorem cut_apart {start size i j : Nat} (hij : i ≠ j) :
    (cut start size i).Apart (cut start size j) := by
  have hle (i j : Nat) (hlt : i < j) : (cut start size i).stop ≤ (cut start size j).start := by
    have hle : (i + 1) * size ≤ j * size := Nat.mul_le_mul_right size hlt
    rw [Nat.succ_mul] at hle
    change start + i * size + size ≤ start + j * size
    omega
  rcases Nat.lt_or_gt_of_ne hij with hlt | hgt
  · exact .inl (hle i j hlt)
  · exact .inr (hle j i hgt)

/-- Slots that need more than the bytes there are: one of them goes beyond the end. -/
theorem exists_beyond {n size bytes : Nat} (hsize : 0 < size) (h : bytes < n * size) :
    ∃ i < n, i * size ≤ bytes ∧ bytes < i * size + size := by
  refine ⟨bytes / size, ?_, Nat.div_mul_le_self bytes size, ?_⟩
  · exact Nat.div_lt_of_lt_mul (h.trans_eq (Nat.mul_comm _ _))
  · exact Nat.lt_div_mul_add hsize

theorem toNat_add_mul {start i size : UInt64} (h : start.toNat + i.toNat * size.toNat < 2 ^ 64) :
    (start + i * size).toNat = start.toNat + i.toNat * size.toNat := by
  have hmul : i.toNat * size.toNat < 2 ^ 64 := (Nat.le_add_left _ _).trans_lt h
  rw [UInt64.toNat_add, UInt64.toNat_mul, Nat.mod_eq_of_lt hmul, Nat.mod_eq_of_lt h]

theorem toNat_pos {x : UInt64} (h : x ≠ 0) : 0 < x.toNat :=
  Nat.pos_of_ne_zero fun hzero => h (UInt64.toNat_inj.mp hzero)

theorem mem_iota {poolSize idx : UInt64} (h : idx < poolSize) : idx ∈ iota poolSize :=
  List.mem_map.mpr ⟨idx.toNat, List.mem_range.mpr (UInt64.lt_iff_toNat_lt.mp h),
    UInt64.ofNat_toNat⟩

/-! ## The geometry -/

section
variable {kind : Kind} {pool : BufferPool} {poolSize slotSize : UInt64}

/-- The slots of a run are where they should be if the pool has room for all of them. -/
theorem Ready.region_eq (hready : Ready kind poolSize slotSize pool) {slot : BufferSlot}
    (hslot : slot = pool.slot slot.index)
    (hroom : pool.mStorage.toNat + slot.index.toNat * slotSize.toNat < 2 ^ 64) :
    slot.region = cut pool.mStorage.toNat slotSize.toNat slot.index.toNat := by
  rw [BufferSlot.region, cut, hslot]
  change Region.mk (pool.mStorage + slot.index * pool.mSlotSize).toNat pool.mSlotSize.toNat = _
  rw [hready.mSlotSize, toNat_add_mul hroom]
  rfl

/-- The sizes that fit do not overflow. -/
theorem Ready.mul_lt (hready : Ready kind poolSize slotSize pool)
    (hfits : kind.Fits poolSize slotSize) : poolSize.toNat * slotSize.toNat < 2 ^ 64 := by
  cases kind with
  | standard => exact hready.guarded trivial
  | ioUring ring => exact hready.guarded trivial
  | rio => exact hfits.trans (by decide)
  | send => exact hfits

/-- The entry for a slot in the table of the ring. -/
theorem Ready.iovec_eq (hready : Ready kind poolSize slotSize pool) {slot : BufferSlot}
    (hslot : slot = pool.slot slot.index) :
    iovec pool.mStorage slotSize slot.index = slot.region := by
  rw [hslot]
  change _ = Region.mk (pool.mStorage + slot.index * pool.mSlotSize).toNat pool.mSlotSize.toNat
  rw [hready.mSlotSize]
  rfl

/-- All of the slots are in the table if their number is one of 32 bits. -/
theorem take_iota {poolSize : UInt64} (h : poolSize.toNat < 2 ^ 32) {α : Type} (f : UInt64 → α) :
    ((iota poolSize).map f).take poolSize.toUInt32.toNat = (iota poolSize).map f := by
  refine List.take_of_length_le (le_of_eq ?_)
  rw [List.length_map, iota, List.length_map, List.length_range, UInt64.toNat_toUInt32,
    Nat.mod_eq_of_lt h]

theorem geometry_of_fits (hready : Ready kind poolSize slotSize pool)
    (hfits : kind.Fits poolSize slotSize) {s : Users} (hI : s.Inv pool) : Geometry s := by
  have hmul := hready.mul_lt hfits
  have hbytes : (poolSize * slotSize).toNat = poolSize.toNat * slotSize.toNat := by
    rw [UInt64.toNat_mul, Nat.mod_eq_of_lt hmul]
  have hroom := hready.room
  rw [hbytes] at hroom
  have hindex : ∀ slot ∈ s.handed, slot.index.toNat < poolSize.toNat := by
    intro slot hslot
    rw [← hready.mPoolSize]
    exact UInt64.lt_iff_toNat_lt.mp (hI.handed slot hslot).2
  have hregion : ∀ slot ∈ s.handed,
      slot.region = cut pool.mStorage.toNat slotSize.toNat slot.index.toNat := by
    intro slot hslot
    refine hready.region_eq (hI.handed slot hslot).1 (lt_of_le_of_lt ?_ hroom)
    exact Nat.add_le_add_left (Nat.mul_le_mul_right _ (hindex slot hslot).le) _
  have hpool := hI.pool
  constructor
  · intro slot hslot
    rw [hregion slot hslot, hpool, hready.allocated, hbytes]
    exact cut_within (hindex slot hslot)
  · intro regions hregions slot hslot
    rw [hpool, hready.registered] at hregions
    cases kind with
    | standard => cases hregions
    | send => cases hregions
    | rio =>
        cases hregions
        refine ⟨_, List.mem_cons_self, ?_⟩
        rw [UInt64.toNat_toUInt32, hbytes, Nat.mod_eq_of_lt hfits, hregion slot hslot]
        exact cut_within (hindex slot hslot)
    | ioUring ring =>
        cases ring with
        | false => cases hregions
        | true =>
            cases hregions
            rw [take_iota (hfits rfl)]
            refine ⟨_, List.mem_map_of_mem (mem_iota (UInt64.lt_iff_toNat_lt.mpr
              (hindex slot hslot))), ?_⟩
            rw [hready.iovec_eq (hI.handed slot hslot).1]
            exact ⟨le_rfl, le_rfl⟩
  · intro slot hslot other hother hne
    rw [hregion slot hslot, hregion other hother]
    exact cut_apart fun heq => hne (UInt64.toNat_inj.mp heq)

/-- A run hands out the slot for any index in range. -/
theorem Ready.exists_slot (hready : Ready kind poolSize slotSize pool) {i : Nat}
    (hi : i < poolSize.toNat) (hroom : pool.mStorage.toNat + i * slotSize.toNat < 2 ^ 64) :
    ∃ acts s, Machine.run (step kind) ⟨pool, []⟩ acts = some s ∧
      s.pool.allocated = pool.allocated ∧ s.pool.registered = pool.registered ∧
      ∃ slot ∈ s.handed, slot.region = cut pool.mStorage.toNat slotSize.toNat i := by
  have hlt : i < 2 ^ 64 := hi.trans poolSize.toNat_lt
  have hindex : (UInt64.ofNat i).toNat = i := UInt64.toNat_ofNat_of_lt' hlt
  have hmem : UInt64.ofNat i ∈ pool.mFreeIndices := by
    rw [hready.free]
    apply mem_iota
    rw [UInt64.lt_iff_toNat_lt, hindex]
    exact hi
  obtain ⟨before, behind, hfree⟩ := List.append_of_mem hmem
  obtain ⟨acts, s, hrun, hslot, hpool⟩ :=
    exists_handed kind (s := ⟨pool, []⟩) hready.storage_ne hfree
  refine ⟨acts, s, hrun, by rw [hpool], by rw [hpool], _, hslot, ?_⟩
  have hroom : pool.mStorage.toNat + (UInt64.ofNat i).toNat * slotSize.toNat < 2 ^ 64 := by
    rw [hindex]
    exact hroom
  have hregion : (pool.slot (UInt64.ofNat i)).region =
      cut pool.mStorage.toNat slotSize.toNat (UInt64.ofNat i).toNat := hready.region_eq rfl hroom
  rwa [hindex] at hregion

/-- If the slots do not fit into the first bytes of the memory, a run hands out one that is not
inside these. -/
theorem Ready.exists_outside (hready : Ready kind poolSize slotSize pool) {bytes : Nat}
    (hbytes : bytes ≤ (poolSize * slotSize).toNat)
    (hlt : bytes < poolSize.toNat * slotSize.toNat) :
    ∃ acts s, Machine.run (step kind) ⟨pool, []⟩ acts = some s ∧
      s.pool.allocated = pool.allocated ∧ s.pool.registered = pool.registered ∧
      ∃ slot ∈ s.handed, ¬ slot.region.Within ⟨pool.mStorage.toNat, bytes⟩ := by
  obtain ⟨i, hi, hstart, hstop⟩ := exists_beyond (toNat_pos hready.slotSize_ne) hlt
  have hroom : pool.mStorage.toNat + i * slotSize.toNat < 2 ^ 64 :=
    lt_of_le_of_lt (Nat.add_le_add_left (hstart.trans hbytes) _) hready.room
  obtain ⟨acts, s, hrun, hallocated, hregistered, slot, hslot, hregion⟩ :=
    hready.exists_slot hi hroom
  refine ⟨acts, s, hrun, hallocated, hregistered, slot, hslot, ?_⟩
  rw [hregion]
  rintro ⟨-, hwithin⟩
  change pool.mStorage.toNat + i * slotSize.toNat + slotSize.toNat ≤
    pool.mStorage.toNat + bytes at hwithin
  omega

/-- A ring that does not know all slots. -/
theorem Ready.exists_unregistered (hready : Ready (.ioUring true) poolSize slotSize pool)
    (hwide : ¬ poolSize.toNat < 2 ^ 32) :
    ∃ acts s, Machine.run (step (.ioUring true)) ⟨pool, []⟩ acts = some s ∧ ¬ Geometry s := by
  have hsize : 0 < slotSize.toNat := toNat_pos hready.slotSize_ne
  have hmul : poolSize.toNat * slotSize.toNat < 2 ^ 64 := hready.guarded trivial
  have hroom := hready.room
  rw [UInt64.toNat_mul, Nat.mod_eq_of_lt hmul] at hroom
  have hlt (j : Nat) (hj : j < poolSize.toNat) :
      pool.mStorage.toNat + j * slotSize.toNat < 2 ^ 64 :=
    lt_of_le_of_lt (Nat.add_le_add_left (Nat.mul_le_mul_right _ hj.le) _) hroom
  -- The first slot that is not registered.
  have hi : poolSize.toUInt32.toNat < poolSize.toNat := by
    rw [UInt64.toNat_toUInt32]
    exact (Nat.mod_lt _ (by decide)).trans_le (Nat.not_lt.mp hwide)
  obtain ⟨acts, s, hrun, -, hregistered, slot, hslot, hregion⟩ := hready.exists_slot hi (hlt _ hi)
  refine ⟨acts, s, hrun, fun hgeometry => ?_⟩
  obtain ⟨r, hr, hwithin⟩ :=
    hgeometry.registered _ (hregistered.trans hready.registered) slot hslot
  rw [iota, List.map_map, ← List.map_take, List.take_range] at hr
  obtain ⟨j, hj, rfl⟩ := List.mem_map.mp hr
  have hj : j < poolSize.toUInt32.toNat :=
    (List.mem_range.mp hj).trans_le (Nat.min_le_left _ _)
  have hindex : (UInt64.ofNat j).toNat = j :=
    UInt64.toNat_ofNat_of_lt' ((hj.trans hi).trans poolSize.toNat_lt)
  have hstart : (pool.mStorage + UInt64.ofNat j * slotSize).toNat =
      pool.mStorage.toNat + j * slotSize.toNat := by
    have hj' : pool.mStorage.toNat + (UInt64.ofNat j).toNat * slotSize.toNat < 2 ^ 64 := by
      rw [hindex]
      exact hlt j (hj.trans hi)
    rw [toNat_add_mul hj', hindex]
  rw [hregion] at hwithin
  have hstop : pool.mStorage.toNat + poolSize.toUInt32.toNat * slotSize.toNat + slotSize.toNat ≤
      (pool.mStorage + UInt64.ofNat j * slotSize).toNat + slotSize.toNat := hwithin.2
  rw [hstart] at hstop
  have hmono : j * slotSize.toNat < poolSize.toUInt32.toNat * slotSize.toNat :=
    Nat.mul_lt_mul_of_pos_right hj hsize
  omega

/-- With other sizes a run hands out a slot that is not inside. -/
theorem not_geometry_of_not_fits (hready : Ready kind poolSize slotSize pool)
    (hfits : ¬ kind.Fits poolSize slotSize) :
    ∃ acts s, Machine.run (step kind) ⟨pool, []⟩ acts = some s ∧ ¬ Geometry s := by
  cases kind with
  | standard => exact absurd trivial hfits
  | ioUring ring =>
      obtain ⟨hring, hwide⟩ := Classical.not_imp.mp hfits
      subst hring
      exact hready.exists_unregistered hwide
  | rio =>
      have hwide : 2 ^ 32 ≤ poolSize.toNat * slotSize.toNat := Nat.not_lt.mp hfits
      have hregisters : (poolSize * slotSize).toUInt32.toNat ≤ (poolSize * slotSize).toNat := by
        rw [UInt64.toNat_toUInt32]
        exact Nat.mod_le _ _
      obtain ⟨acts, s, hrun, -, hregistered, slot, hslot, hout⟩ :=
        hready.exists_outside hregisters ((UInt32.toNat_lt _).trans_le hwide)
      refine ⟨acts, s, hrun, fun hgeometry => ?_⟩
      obtain ⟨r, hr, hwithin⟩ :=
        hgeometry.registered _ (hregistered.trans hready.registered) slot hslot
      rw [List.mem_singleton.mp hr] at hwithin
      exact hout hwithin
  | send =>
      have hwide : 2 ^ 64 ≤ poolSize.toNat * slotSize.toNat := Nat.not_lt.mp hfits
      obtain ⟨acts, s, hrun, hallocated, -, slot, hslot, hout⟩ :=
        hready.exists_outside le_rfl ((UInt64.toNat_lt _).trans_le hwide)
      refine ⟨acts, s, hrun, fun hgeometry => ?_⟩
      have hwithin := hgeometry.allocated slot hslot
      rw [hallocated, hready.allocated] at hwithin
      exact hout hwithin

end

section
variable {kind : Kind} {system : System} {pool : BufferPool} {poolSize slotSize : UInt64}

/-- The slots are where they should be in every run exactly when the numbers of bytes and of slots
fit into the types in which the pool computes and registers them. -/
theorem geometry_iff_fits (h : (kind.init system pool poolSize slotSize).1 = true) :
    (∀ acts s, Machine.run (step kind) ⟨(kind.init system pool poolSize slotSize).2, []⟩ acts =
      some s → Geometry s) ↔ kind.Fits poolSize slotSize := by
  have hready := ready_init h
  constructor
  · intro hall
    refine not_not.mp fun hfits => ?_
    obtain ⟨acts, s, hrun, hgeometry⟩ := not_geometry_of_not_fits hready hfits
    exact hgeometry (hall acts s hrun)
  · intro hfits acts s hrun
    have hstart : Users.Inv (kind.init system pool poolSize slotSize).2
        ⟨(kind.init system pool poolSize slotSize).2, []⟩ := by
      refine ⟨rfl, ?_, fun _ hslot => absurd hslot List.not_mem_nil⟩
      intro idx hidx
      rw [hready.mPoolSize]
      rw [hready.free] at hidx
      obtain ⟨i, hi, rfl⟩ := List.mem_map.mp hidx
      have hi := List.mem_range.mp hi
      rw [UInt64.lt_iff_toNat_lt, UInt64.toNat_ofNat_of_lt' (hi.trans poolSize.toNat_lt)]
      exact hi
    exact geometry_of_fits hready hfits
      (Machine.run_invariant (fun _ _ _ hI hstep => hI.step hstep) hstart hrun)

end

/-- Memory from one address on, up to 8 GiB, and a kernel that registers it. -/
def roomy : System where
  alloc bytes := if bytes ≤ 2 ^ 33 then some 65536 else none
  alloc_room := by
    intro bytes storage h
    split at h
    next hle =>
      cases h
      have hbytes : bytes.toNat ≤ (2 ^ 33 : UInt64).toNat := UInt64.le_iff_toNat_le.mp hle
      have hmax : (2 ^ 33 : UInt64).toNat = 2 ^ 33 := by decide +kernel
      have hstorage : (65536 : UInt64).toNat = 65536 := rfl
      rw [hmax] at hbytes
      refine ⟨by decide, ?_⟩
      rw [hstorage]
      omega
    · cases h
  functionTable := true
  register := true

theorem geometry_iff_fits_rio :
    (∀ acts s, Machine.run (step .rio) ⟨(Kind.rio.init roomy {} 256 4096).2, []⟩ acts =
      some s → Geometry s) ↔ Kind.rio.Fits 256 4096 :=
  geometry_iff_fits (by decide +kernel)

/-- A slab of 4 GiB and one slot, of which the kernel knows the first 4096 bytes. -/
theorem not_geometry_wideSlab : (Kind.rio.init roomy {} (2 ^ 20 + 1) 4096).1 = true ∧
    ¬ ∀ acts s, Machine.run (step .rio) ⟨(Kind.rio.init roomy {} (2 ^ 20 + 1) 4096).2, []⟩ acts =
      some s → Geometry s := by
  have htrue : (Kind.rio.init roomy {} (2 ^ 20 + 1) 4096).1 = true := by decide +kernel
  have hwide : ¬ Kind.rio.Fits (2 ^ 20 + 1) 4096 := by
    change ¬ (2 ^ 20 + 1 : UInt64).toNat * (4096 : UInt64).toNat < 2 ^ 32
    decide +kernel
  refine ⟨htrue, fun hall => ?_⟩
  obtain ⟨acts, s, hrun, hgeometry⟩ := not_geometry_of_not_fits (ready_init htrue) hwide
  exact hgeometry (hall acts s hrun)

end NetworkModule.BufferPools
