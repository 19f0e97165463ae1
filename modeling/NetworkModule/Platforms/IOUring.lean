import NetworkModule.Lib.Machine
import NetworkModule.Lib.Tally
import NetworkModule.Platforms.AsyncIOProvider
import Mathlib

/-!
# The buffer slots of the io_uring provider

`IOUringAsyncIOProvider` copies what it sends into a slot of `mSendPool` and
receives into a slot of `mRecvPool`.  A request takes a slot, records a pending
operation under a new key, prepares an entry in the submission queue and submits.
The slot goes back to its pool when the completion with that key is processed.

The rest of a request after `Acquire` runs under `mMutex`, and nobody looks at
`mPendingOps` without it, so it is one step here.  The kernel, and
`FlushRequests`, which takes no lock, move in between.  `io_uring_get_sqe` and
`io_uring_submit` fail whenever the label says so, and a failed submit leaves the
prepared entries where they are.

A request whose submit fails gives its slot back while its entry stays in the
submission queue.  `slotsOwned_of_submits` says that nothing else makes a slot
free that the ring still refers to.
-/

namespace NetworkModule.IOUring

open AsyncIO

/-! ## The provider -/

/-- `PendingOperation`, without the addresses of the buffers. -/
structure PendingOperation where
  mContext : UInt64
  mType : AsyncIOType
  mSocket : Nat
  mBufferSize : Nat
  mPoolSlotIndex : Nat
  deriving DecidableEq, Repr

/-- An entry of the submission queue: an operation on a slot, with its key. -/
structure Sqe where
  userData : UInt64
  type : AsyncIOType
  slot : Nat
  deriving DecidableEq, Repr

/-- An entry of the completion queue. -/
structure Cqe where
  userData : UInt64
  res : Int
  deriving DecidableEq, Repr

/-- A call of `SendAsync` or `RecvAsync` that has got its slot and not yet taken
`mMutex`. -/
structure Call where
  type : AsyncIOType
  context : UInt64
  socket : Nat
  size : Nat
  slot : Nat
  deriving DecidableEq, Repr

/-- The provider and its ring. -/
structure Provider where
  /-- `mFreeIndices` of `mSendPool`. -/
  mSendPool : List Nat
  /-- `mFreeIndices` of `mRecvPool`. -/
  mRecvPool : List Nat
  mPendingOps : AList fun _ : UInt64 => PendingOperation
  mNextOpKey : UInt64
  /-- The prepared entries that the kernel has not taken. -/
  sq : List Sqe
  /-- The entries that the kernel works on. -/
  kernel : List Sqe
  cq : List Cqe
  /-- The calls in progress. -/
  calls : List Call

/-- The provider after `Initialize`, with `maxConcurrent` slots in each pool. -/
def init (maxConcurrent : Nat) : Provider where
  mSendPool := List.range maxConcurrent
  mRecvPool := List.range maxConcurrent
  mPendingOps := ∅
  mNextOpKey := 1
  sq := []
  kernel := []
  cq := []
  calls := []

/-- The free slots of a pool. -/
def Provider.pool (s : Provider) : AsyncIOType → List Nat
  | .send => s.mSendPool
  | .recv => s.mRecvPool

/-- Change the free slots of a pool. -/
def Provider.setPool (s : Provider) : AsyncIOType → List Nat → Provider
  | .send, l => { s with mSendPool := l }
  | .recv, l => { s with mRecvPool := l }

/-- `Release`. -/
def Provider.release (s : Provider) (t : AsyncIOType) (index : Nat) : Provider :=
  s.setPool t (s.pool t ++ [index])

/-- `SubmitRing`.  `submitted` is the answer of `io_uring_submit`: `none` is an
error, and otherwise that many entries go to the kernel. -/
def Provider.submitRing (s : Provider) (submitted : Option Nat) : Provider × Bool :=
  match submitted with
  | none => (s, false)
  | some n => ({ s with kernel := s.kernel ++ s.sq.take n, sq := s.sq.drop n }, true)

/-- The part of `SendAsync` and `RecvAsync` under `mMutex`.  `sqe` says whether
`io_uring_get_sqe` has found an entry. -/
def Provider.request (s : Provider) (c : Call) (sqe : Bool) (submitted : Option Nat) :
    Provider × AsyncIOError :=
  let opKey := s.mNextOpKey
  let pending : PendingOperation := ⟨c.context, c.type, c.socket, c.size, c.slot⟩
  let s := { s with mNextOpKey := opKey + 1, mPendingOps := s.mPendingOps.insert opKey pending }
  if sqe then
    let r := Provider.submitRing { s with sq := s.sq ++ [⟨opKey, c.type, c.slot⟩] } submitted
    if r.2 then (r.1, .success)
    else
      ({ r.1 with mPendingOps := r.1.mPendingOps.erase opKey }.release c.type c.slot,
        .operationFailed)
  else
    ({ s with mPendingOps := s.mPendingOps.erase opKey }.release c.type c.slot, .noResources)

/-- The entry for a completion. -/
def PendingOperation.entry (op : PendingOperation) (res : Int) : CompletionEntry :=
  ⟨op.mContext, op.mType, res, if res < 0 then -res else 0⟩

/-- The loop of `ProcessCompletionQueue` over the completions. -/
def processCqes (maxEntries : Nat) (s : Provider) (entries : List CompletionEntry) :
    List Cqe → Provider × List CompletionEntry
  | [] => ({ s with cq := [] }, entries)
  | c :: cs =>
      if maxEntries ≤ entries.length then ({ s with cq := c :: cs }, entries)
      else
        match s.mPendingOps.lookup c.userData with
        | some op =>
            processCqes maxEntries
              ({ s with mPendingOps := s.mPendingOps.erase c.userData }.release op.mType
                op.mPoolSlotIndex)
              (entries ++ [op.entry c.res]) cs
        | none => processCqes maxEntries s entries cs

/-- `ProcessCompletionQueue`. -/
def Provider.processCompletionQueue (s : Provider) (maxEntries : Nat) :
    Provider × List CompletionEntry :=
  processCqes maxEntries s [] s.cq

/-! ## Steps -/

/-- Who moves. -/
inductive ProviderAct where
  /-- A thread calls `SendAsync` or `RecvAsync` and gets a slot. -/
  | acquire (type : AsyncIOType) (context : UInt64) (socket size : Nat)
  /-- Call `k` goes through the locked part. -/
  | request (k : Nat) (sqe : Bool) (submitted : Option Nat)
  /-- `FlushRequests`. -/
  | flush (submitted : Option Nat)
  /-- The kernel completes its request `i`. -/
  | complete (i : Nat) (res : Int)
  /-- `ProcessCompletions`. -/
  | processCompletions (maxEntries : Nat)
  deriving DecidableEq, Repr

/-- One step of the provider. -/
def providerStep (s : Provider) : ProviderAct → Option Provider
  | .acquire type context socket size =>
      match (s.pool type).getLast? with
      -- The pool is exhausted and the call returns `NoResources`.
      | none => some s
      | some slot =>
          let s' := s.setPool type (s.pool type).dropLast
          some { s' with calls := s'.calls ++ [⟨type, context, socket, size, slot⟩] }
  | .request k sqe submitted =>
      match s.calls[k]? with
      | none => none
      | some c => some ({ s with calls := s.calls.eraseIdx k }.request c sqe submitted).1
  | .flush submitted => some (s.submitRing submitted).1
  | .complete i res =>
      match s.kernel[i]? with
      | none => none
      | some e =>
          some { s with kernel := s.kernel.eraseIdx i, cq := s.cq ++ [⟨e.userData, res⟩] }
  | .processCompletions maxEntries => some (s.processCompletionQueue maxEntries).1

/-! ## Ownership -/

/-- A pending operation holds a slot. -/
def PendingOperation.holds (t : AsyncIOType) (a : Nat) (op : PendingOperation) : Bool :=
  decide (op.mType = t) && op.mPoolSlotIndex == a

/-- A call in progress holds a slot. -/
def Call.holds (t : AsyncIOType) (a : Nat) (c : Call) : Bool :=
  decide (c.type = t) && c.slot == a

/-- At how many places a slot is: in the free list, in a pending operation, or in
a call in progress. -/
def Provider.places (s : Provider) (t : AsyncIOType) (a : Nat) : Nat :=
  (s.pool t).count a + s.mPendingOps.entries.countP (fun x => x.2.holds t a) +
    s.calls.countP (Call.holds t a)

/-- Each slot is at exactly one place, and the ring refers to no free slot. -/
def SlotsOwned (maxConcurrent : Nat) (s : Provider) : Prop :=
  (∀ t a, s.places t a = if a < maxConcurrent then 1 else 0) ∧
    ∀ e ∈ s.sq ++ s.kernel, e.slot ∉ s.pool e.type

/-- A request that has prepared its entry can submit, and its key is not the one
of a pending operation. -/
def submits (s : Provider) : ProviderAct → Bool
  | .request _ sqe submitted =>
      (!sqe || submitted.isSome) && !decide (s.mNextOpKey ∈ s.mPendingOps)
  | _ => true

/-! ## The pools -/

section
variable {s : Provider} {t : AsyncIOType}

@[simp] theorem pool_setPool (s : Provider) (t t' : AsyncIOType) (l : List Nat) :
    (s.setPool t l).pool t' = if t' = t then l else s.pool t' := by
  cases t <;> cases t' <;> rfl

@[simp] theorem mPendingOps_setPool (s : Provider) (t : AsyncIOType) (l : List Nat) :
    (s.setPool t l).mPendingOps = s.mPendingOps := by
  cases t <;> rfl

@[simp] theorem sq_setPool (s : Provider) (t : AsyncIOType) (l : List Nat) :
    (s.setPool t l).sq = s.sq := by
  cases t <;> rfl

@[simp] theorem kernel_setPool (s : Provider) (t : AsyncIOType) (l : List Nat) :
    (s.setPool t l).kernel = s.kernel := by
  cases t <;> rfl

@[simp] theorem cq_setPool (s : Provider) (t : AsyncIOType) (l : List Nat) :
    (s.setPool t l).cq = s.cq := by
  cases t <;> rfl

@[simp] theorem calls_setPool (s : Provider) (t : AsyncIOType) (l : List Nat) :
    (s.setPool t l).calls = s.calls := by
  cases t <;> rfl

/-- A released slot is in the pool once more. -/
theorem count_pool_release (s : Provider) (t t' : AsyncIOType) (i a : Nat) :
    ((s.release t i).pool t').count a =
      (s.pool t').count a + (decide (t = t') && i == a).toNat := by
  rw [Provider.release, pool_setPool]
  by_cases ht : t' = t
  · subst ht
    by_cases ha : i = a
    · subst ha
      simp
    · simp [ha]
  · have ht' : ¬ t = t' := fun h => ht h.symm
    simp [ht, ht']

/-- An operation that is erased held one slot. -/
theorem countP_erase_lookup (m : AList fun _ : UInt64 => PendingOperation) {key : UInt64}
    {op : PendingOperation} (h : m.lookup key = some op) (f : PendingOperation → Bool) :
    m.entries.countP (fun x => f x.2) =
      (m.erase key).entries.countP (fun x => f x.2) + (f op).toNat := by
  have hmem : key ∈ m.entries.keys := AList.lookup_isSome.mp (by rw [h]; rfl)
  obtain ⟨op', l₁, l₂, -, heq, herase⟩ := List.exists_of_kerase hmem
  have hop : op' = op := by
    have hin : (⟨key, op'⟩ : Sigma fun _ : UInt64 => PendingOperation) ∈ m.entries := by simp [heq]
    have hlook := AList.mem_lookup_iff.mpr hin
    rw [h] at hlook
    exact (Option.some.inj hlook).symm
  subst hop
  change _ = (m.entries.kerase key).countP _ + _
  rw [herase, heq, List.countP_append, List.countP_append]
  cases hf : f op'
  · rw [List.countP_cons_of_neg (by simp [hf])]
    simp
  · rw [List.countP_cons_of_pos (by simp [hf])]
    simp
    omega

/-- An operation that is recorded under a new key holds one more slot. -/
theorem countP_insert_new (m : AList fun _ : UInt64 => PendingOperation) {key : UInt64}
    (h : key ∉ m) (op : PendingOperation) (f : PendingOperation → Bool) :
    (m.insert key op).entries.countP (fun x => f x.2) =
      m.entries.countP (fun x => f x.2) + (f op).toNat := by
  rw [AList.entries_insert_of_notMem h]
  cases hf : f op
  · rw [List.countP_cons_of_neg (by simp [hf])]
    simp
  · rw [List.countP_cons_of_pos (by simp [hf])]
    simp

end

/-! ## The invariant -/

/-- How often a key is in the ring. -/
def Provider.refs (s : Provider) (key : UInt64) : Nat :=
  s.sq.countP (·.userData == key) + s.kernel.countP (·.userData == key) +
    s.cq.countP (·.userData == key)

/-- The ring refers to pending operations only, each once, and each slot is at
one place. -/
structure RingInv (maxConcurrent : Nat) (s : Provider) : Prop where
  places : ∀ t a, s.places t a = if a < maxConcurrent then 1 else 0
  /-- No two entries of the ring have the same key. -/
  refs : ∀ key, s.refs key ≤ 1
  /-- An entry has the slot of the operation with its key. -/
  entries : ∀ e ∈ s.sq ++ s.kernel, ∃ op, s.mPendingOps.lookup e.userData = some op ∧
    op.mType = e.type ∧ op.mPoolSlotIndex = e.slot
  /-- A completion belongs to a pending operation. -/
  completed : ∀ c ∈ s.cq, c.userData ∈ s.mPendingOps

section
variable {n : Nat} {s s' : Provider}

theorem ringInv_init (n : Nat) : RingInv n (init n) where
  places := by
    intro t a
    have hpool : (init n).pool t = List.range n := by cases t <;> rfl
    have hplaces : (init n).places t a = (List.range n).count a := by
      rw [← hpool]
      rfl
    rw [hplaces]
    split
    next h => exact List.count_eq_one_of_mem List.nodup_range (List.mem_range.mpr h)
    next h => exact List.count_eq_zero_of_not_mem (by simpa using h)
  refs := fun _ => Nat.zero_le 1
  entries := by simp [init]
  completed := by simp [init]

/-- An entry of the ring keeps its slot out of the pool. -/
theorem RingInv.slotsOwned (hI : RingInv n s) : SlotsOwned n s := by
  refine ⟨hI.places, fun e he hfree => ?_⟩
  obtain ⟨op, hop, htype, hslot⟩ := hI.entries e he
  have hplaces := hI.places e.type e.slot
  have hone : 1 ≤ (s.pool e.type).count e.slot := List.count_pos_iff.mpr hfree
  have htwo : 1 ≤ s.mPendingOps.entries.countP (fun x => x.2.holds e.type e.slot) := by
    rw [countP_erase_lookup s.mPendingOps hop]
    simp [PendingOperation.holds, htype, hslot]
  unfold Provider.places at hplaces
  split at hplaces <;> omega

/-! ## Steps -/

/-- A key of the ring belongs to a pending operation. -/
theorem RingInv.refs_eq_zero (hI : RingInv n s) {key : UInt64} (h : key ∉ s.mPendingOps) :
    s.refs key = 0 := by
  have hsqe : ∀ e ∈ s.sq ++ s.kernel, ¬ (e.userData == key) = true := by
    intro e he heq
    obtain ⟨op, hop, -, -⟩ := hI.entries e he
    have hmem : e.userData ∈ s.mPendingOps := AList.lookup_isSome.mp (by rw [hop]; rfl)
    exact h (beq_iff_eq.mp heq ▸ hmem)
  have hcqe : ∀ c ∈ s.cq, ¬ (c.userData == key) = true := by
    intro c hc heq
    exact h (beq_iff_eq.mp heq ▸ hI.completed c hc)
  have hzero := List.countP_eq_zero.mpr hsqe
  rw [List.countP_append] at hzero
  have hcq := List.countP_eq_zero.mpr hcqe
  unfold Provider.refs
  omega

/-- `Acquire`. -/
theorem RingInv.acquire (hI : RingInv n s) {c : Call}
    (h : (s.pool c.type).getLast? = some c.slot) :
    RingInv n { s.setPool c.type (s.pool c.type).dropLast with
      calls := (s.setPool c.type (s.pool c.type).dropLast).calls ++ [c] } := by
  have hpool : s.pool c.type = (s.pool c.type).dropLast ++ [c.slot] :=
    (List.dropLast_append_getLast? c.slot (by simp [h])).symm
  have hfree : ∀ t a, (s.pool t).count a =
      ((s.setPool c.type (s.pool c.type).dropLast).pool t).count a + (c.holds t a).toNat := by
    intro t a
    rw [pool_setPool]
    by_cases ht : t = c.type
    · subst ht
      rw [if_pos rfl]
      nth_rewrite 1 [hpool]
      rw [List.count_append, List.count_singleton]
      by_cases ha : c.slot = a <;> simp [Call.holds, ha]
    · have ht' : ¬ c.type = t := fun he => ht he.symm
      simp [Call.holds, ht, ht']
  constructor
  · intro t a
    rw [← hI.places t a]
    unfold Provider.places
    change ((s.setPool c.type (s.pool c.type).dropLast).pool t).count a + _ +
      (_ ++ [c]).countP (Call.holds t a) = _
    rw [Tally.countP_concat, hfree]
    simp only [mPendingOps_setPool, calls_setPool]
    omega
  · intro key
    have hkey := hI.refs key
    simpa [Provider.refs] using hkey
  · intro e he
    have hold := hI.entries e (by simpa using he)
    simpa using hold
  · intro c hc
    have hold := hI.completed c (by simpa using hc)
    simpa using hold

/-- `SubmitRing`, whatever `io_uring_submit` answers. -/
theorem RingInv.submitRing (hI : RingInv n s) (submitted : Option Nat) :
    RingInv n (s.submitRing submitted).1 := by
  cases submitted with
  | none => exact hI
  | some m =>
      refine ⟨hI.places, fun key => ?_, fun e he => hI.entries e ?_, hI.completed⟩
      · have hkey := hI.refs key
        have hsplit : (s.sq.take m).countP (·.userData == key) +
            (s.sq.drop m).countP (·.userData == key) = s.sq.countP (·.userData == key) := by
          rw [← List.countP_append, List.take_append_drop]
        unfold Provider.refs at hkey ⊢
        simp only [Provider.submitRing, List.countP_append]
        omega
      · simp only [Provider.submitRing, List.mem_append] at he ⊢
        rcases he with he | he | he
        · exact Or.inl (List.mem_of_mem_drop he)
        · exact Or.inr he
        · exact Or.inl (List.mem_of_mem_take he)

/-- A call hands its slot over to a pending operation under a new key, and
prepares the entry for it. -/
theorem RingInv.prepare (hI : RingInv n s) {k : Nat} {c : Call} (hk : s.calls[k]? = some c)
    (hnew : s.mNextOpKey ∉ s.mPendingOps) :
    RingInv n { s with
      calls := s.calls.eraseIdx k
      mNextOpKey := s.mNextOpKey + 1
      mPendingOps := s.mPendingOps.insert s.mNextOpKey
        ⟨c.context, c.type, c.socket, c.size, c.slot⟩
      sq := s.sq ++ [⟨s.mNextOpKey, c.type, c.slot⟩] } := by
  constructor
  · intro t a
    rw [← hI.places t a]
    unfold Provider.places
    have hcalls := Tally.countP_eraseIdx (Call.holds t a) hk
    have hops := countP_insert_new s.mPendingOps hnew
      ⟨c.context, c.type, c.socket, c.size, c.slot⟩ (PendingOperation.holds t a)
    change (s.pool t).count a + _ + _ = _
    simp only
    rw [hops, hcalls]
    simp only [PendingOperation.holds, Call.holds]
    omega
  · intro key
    have hkey := hI.refs key
    unfold Provider.refs at hkey ⊢
    simp only [Tally.countP_concat]
    by_cases h : s.mNextOpKey = key
    · have hzero := hI.refs_eq_zero (h ▸ hnew)
      unfold Provider.refs at hzero
      have hone := Bool.toNat_le (s.mNextOpKey == key)
      omega
    · have hbeq : (s.mNextOpKey == key) = false := by simpa using h
      rw [hbeq, Bool.toNat_false]
      omega
  · intro e he
    simp only [List.mem_append, List.mem_singleton] at he
    have hcase : e ∈ s.sq ++ s.kernel ∨ e = ⟨s.mNextOpKey, c.type, c.slot⟩ := by
      simp only [List.mem_append]
      tauto
    rcases hcase with he | rfl
    · obtain ⟨op, hop, hrest⟩ := hI.entries e he
      have hne : e.userData ≠ s.mNextOpKey := by
        intro heq
        exact hnew (heq ▸ AList.lookup_isSome.mp (by rw [hop]; rfl))
      exact ⟨op, by rw [AList.lookup_insert_ne hne]; exact hop, hrest⟩
    · exact ⟨_, AList.lookup_insert _, rfl, rfl⟩
  · intro d hd
    exact (AList.mem_insert _).mpr (Or.inr (hI.completed d hd))

/-- A call that finds no entry gives its slot back. -/
theorem RingInv.giveBack (hI : RingInv n s) {k : Nat} {c : Call} (hk : s.calls[k]? = some c)
    (hnew : s.mNextOpKey ∉ s.mPendingOps) (op : PendingOperation) :
    RingInv n (Provider.release { s with
      calls := s.calls.eraseIdx k
      mNextOpKey := s.mNextOpKey + 1
      mPendingOps := (s.mPendingOps.insert s.mNextOpKey op).erase s.mNextOpKey } c.type c.slot) := by
  have hsame : (s.mPendingOps.insert s.mNextOpKey op).erase s.mNextOpKey = s.mPendingOps := by
    rw [AList.insert_of_notMem hnew]
    apply AList.ext
    exact List.kerase_cons_eq rfl
  rw [hsame]
  constructor
  · intro t a
    rw [← hI.places t a]
    unfold Provider.places
    have hcalls := Tally.countP_eraseIdx (Call.holds t a) hk
    rw [count_pool_release]
    simp only [Provider.release, mPendingOps_setPool, calls_setPool]
    change (s.pool t).count a + _ + _ + _ = _
    rw [hcalls]
    simp only [Call.holds]
    omega
  · intro key
    have hkey := hI.refs key
    simpa [Provider.refs, Provider.release] using hkey
  · intro e he
    have hold := hI.entries e (by simpa [Provider.release] using he)
    simpa [Provider.release] using hold
  · intro d hd
    have hold := hI.completed d (by simpa [Provider.release] using hd)
    simpa [Provider.release] using hold

/-- The kernel completes a request. -/
theorem RingInv.complete (hI : RingInv n s) {i : Nat} {e : Sqe} (hi : s.kernel[i]? = some e)
    (res : Int) :
    RingInv n { s with kernel := s.kernel.eraseIdx i, cq := s.cq ++ [⟨e.userData, res⟩] } := by
  refine ⟨hI.places, fun key => ?_, fun d hd => hI.entries d ?_, fun d hd => ?_⟩
  · have hkey := hI.refs key
    have hkernel := Tally.countP_eraseIdx (fun d : Sqe => d.userData == key) hi
    unfold Provider.refs at hkey ⊢
    simp only [Tally.countP_concat]
    omega
  · simp only [List.mem_append] at hd ⊢
    exact hd.imp_right List.mem_of_mem_eraseIdx
  · rcases List.mem_append.mp hd with hd | hd
    · exact hI.completed d hd
    · rw [List.mem_singleton.mp hd]
      obtain ⟨op, hop, -, -⟩ := hI.entries e
        (List.mem_append_right _ (List.mem_of_getElem? hi))
      exact AList.lookup_isSome.mp (by rw [hop]; rfl)

/-- The completion of a pending operation frees its slot.  Nothing else in the
ring has its key. -/
theorem RingInv.finish {c : Cqe} {cs : List Cqe} (hI : RingInv n { s with cq := c :: cs })
    {op : PendingOperation} (hop : s.mPendingOps.lookup c.userData = some op) :
    RingInv n { Provider.release { s with mPendingOps := s.mPendingOps.erase c.userData } op.mType
      op.mPoolSlotIndex with cq := cs } := by
  have hrefs := hI.refs c.userData
  unfold Provider.refs at hrefs
  simp only [List.countP_cons, beq_self_eq_true, if_true] at hrefs
  have hnone : (s.sq ++ s.kernel).countP (·.userData == c.userData) = 0 := by
    rw [List.countP_append]
    omega
  have hnone' : cs.countP (·.userData == c.userData) = 0 := by omega
  constructor
  · intro t a
    rw [← hI.places t a]
    unfold Provider.places
    have hops := countP_erase_lookup s.mPendingOps hop (PendingOperation.holds t a)
    have hpool := count_pool_release { s with mPendingOps := s.mPendingOps.erase c.userData }
      op.mType t op.mPoolSlotIndex a
    change ((Provider.release _ op.mType op.mPoolSlotIndex).pool t).count a + _ + _ = _
    rw [hpool]
    simp only [Provider.release, mPendingOps_setPool, calls_setPool]
    change (s.pool t).count a + _ + _ + _ = (s.pool t).count a + _ + _
    rw [hops]
    simp only [PendingOperation.holds]
    omega
  · intro key
    have hkey := hI.refs key
    unfold Provider.refs at hkey ⊢
    simp only [List.countP_cons, Provider.release, sq_setPool, kernel_setPool] at hkey ⊢
    omega
  · intro e he
    simp only [Provider.release, sq_setPool, kernel_setPool] at he
    obtain ⟨op', hop', hrest⟩ := hI.entries e he
    have hne : e.userData ≠ c.userData := by
      have hno := List.countP_eq_zero.mp hnone e he
      simpa using hno
    refine ⟨op', ?_, hrest⟩
    simp only [Provider.release, mPendingOps_setPool]
    rw [AList.lookup_erase_ne hne]
    exact hop'
  · intro d hd
    have hne : d.userData ≠ c.userData := by
      have hno := List.countP_eq_zero.mp hnone' d hd
      simpa using hno
    simp only [Provider.release, mPendingOps_setPool]
    exact AList.mem_erase.mpr ⟨hne, hI.completed d (List.mem_cons_of_mem c hd)⟩

/-- A completion that is passed over leaves the ring. -/
theorem RingInv.skip {c : Cqe} {cs : List Cqe} (hI : RingInv n { s with cq := c :: cs }) :
    RingInv n { s with cq := cs } := by
  refine ⟨hI.places, fun key => ?_, hI.entries,
    fun d hd => hI.completed d (List.mem_cons_of_mem c hd)⟩
  have hkey := hI.refs key
  unfold Provider.refs at hkey ⊢
  simp only [List.countP_cons] at hkey
  simp only
  omega

/-- The loop over the completions. -/
theorem RingInv.processCqes {maxEntries : Nat} {entries : List CompletionEntry} {cs : List Cqe}
    (hI : RingInv n { s with cq := cs }) : RingInv n (processCqes maxEntries s entries cs).1 := by
  induction cs generalizing s entries with
  | nil => exact hI
  | cons c cs ih =>
      rw [IOUring.processCqes]
      split
      · exact hI
      · split
        next op hop => exact ih (hI.finish hop)
        next => exact ih hI.skip

/-- Every step whose request can submit keeps the invariant. -/
theorem RingInv.step {a : ProviderAct} (hI : RingInv n s) (hok : submits s a = true)
    (h : providerStep s a = some s') : RingInv n s' := by
  cases a with
  | acquire type context socket size =>
      simp only [providerStep] at h
      split at h
      · cases h
        exact hI
      next slot hslot =>
        cases h
        exact hI.acquire (c := ⟨type, context, socket, size, slot⟩) hslot
  | request k sqe submitted =>
      simp only [providerStep] at h
      split at h
      · cases h
      next c hk =>
        simp only [submits, Bool.and_eq_true, Bool.or_eq_true, Bool.not_eq_eq_eq_not, Bool.not_true,
          decide_eq_false_iff_not] at hok
        obtain ⟨hsubmit, hnew⟩ := hok
        cases h
        cases sqe with
        | false => exact hI.giveBack hk hnew _
        | true =>
            obtain ⟨m, rfl⟩ := Option.isSome_iff_exists.mp (hsubmit.resolve_left (by simp))
            exact (hI.prepare hk hnew).submitRing (some m)
  | flush submitted =>
      cases h
      exact hI.submitRing submitted
  | complete i res =>
      simp only [providerStep] at h
      split at h
      · cases h
      next e hi =>
        cases h
        exact hI.complete hi res
  | processCompletions maxEntries =>
      cases h
      exact RingInv.processCqes hI

/-- In every run in which the requests that get an entry can submit it, each
slot is at one place and no free slot is referred to by the ring. -/
theorem slotsOwned_of_submits (n : Nat) (as : List ProviderAct) (s : Provider)
    (hok : Machine.Meets providerStep (fun s a => submits s a) (init n) as)
    (hrun : Machine.run providerStep (init n) as = some s) : SlotsOwned n s :=
  (Machine.run_invariant_of_meets (fun _ _ _ hI hok h => RingInv.step hI hok h)
    (ringInv_init n) hok hrun).slotsOwned

/-- Two slots.  A send is submitted by the flush after it and completed, while
a receive finds no entry. -/
def sendAndRecvTrace : List ProviderAct :=
  [.acquire .send 7 3 100, .acquire .recv 7 3 8192, .request 0 true (some 0), .flush none,
    .flush (some 1), .request 0 false none, .complete 0 100, .processCompletions 64]

/-- All slots are free again. -/
theorem slotsOwned_sendAndRecvTrace :
    ∃ s, Machine.run providerStep (init 2) sendAndRecvTrace = some s ∧
      s.pool .send = [0, 1] ∧ SlotsOwned 2 s :=
  ⟨_, rfl, by decide, slotsOwned_of_submits 2 sendAndRecvTrace _ (by decide +kernel) rfl⟩

/-- The submit of a send fails.  Another send takes the same slot, and its submit
hands both entries to the kernel. -/
def failedSubmitTrace : List ProviderAct :=
  [.acquire .send 7 3 100, .request 0 true none, .acquire .send 8 4 50,
    .request 0 true (some 2), .complete 1 50, .processCompletions 64]

/-- The second send is done and its slot is free, while the kernel still sends
from it. -/
theorem failedSubmit_frees_slot_in_use :
    ∃ s, Machine.run providerStep (init 1) failedSubmitTrace = some s ∧
      s.pool .send = [0] ∧ s.kernel = [⟨1, .send, 0⟩] ∧ ¬ SlotsOwned 1 s := by
  refine ⟨_, rfl, by decide, by decide, fun h => ?_⟩
  exact h.2 ⟨1, .send, 0⟩ (by decide) (by decide)

end

end NetworkModule.IOUring
