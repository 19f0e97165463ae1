import NetworkModule.Platforms.IocpConservation

/-!
# The entries of the IOCP provider

The operation that `ProcessCompletions` finds is the one that the completion is for
(`MapInv.found`), so an entry has the context and the type of its request, and the result that the
kernel gave.  `SendAsync` has copied the bytes of its caller before the lock, and the kernel sends
from that copy.  `RecvAsync` lets the kernel write to a buffer of its own, from which the bytes are
copied when the completion is reported.  `entries_truthful` says that this comes to the same as if
the kernel used the callers' buffers.

`stats_exact` says what the counters of `GetStats` count.
-/

namespace NetworkModule.Iocp

open AsyncIO

section
variable {resolve : Nat → Option AsyncIOType} {s s' : Provider} {i : Nat}

/-! ## What operations, completions and entries say -/

/-- The operation is that of the request, except for what the kernel has written to the buffer. -/
structure PendingOperation.Fits (op : PendingOperation) (r : Request) : Prop where
  mType : op.mType = r.type
  mContext : op.mContext = r.context
  sent : r.type = .send → op.mBuffer = r.buffer
  received : r.type = .recv →
    op.mBuffer.length = r.buffer.length ∧ op.mCallerSize = r.buffer.length

theorem Request.operation_fits (r : Request) (number : Nat) : (r.operation number).Fits r := by
  refine ⟨?_, rfl, fun hr => ?_, fun hr => ?_⟩
  · cases hr : r.type <;> simp [Request.operation, hr]
  · simp [Request.operation, hr]
  · simp [Request.operation, hr]

theorem PendingOperation.Fits.transfer {op op' : PendingOperation} {r : Request}
    {bytes : List UInt8} (h : op.Fits r) (htransfer : op.transfer bytes = some op')
    (hlen : bytes.length ≤ r.buffer.length) : op'.Fits r := by
  obtain ⟨-, hmtype, hcontext, hsize, hsend, hrecv⟩ := PendingOperation.transfer_eq_some htransfer
  refine ⟨hmtype.trans h.mType, hcontext.trans h.mContext, fun hr => ?_, fun hr => ?_⟩
  · rw [(hsend (h.mType.trans hr)).1]
    exact h.sent hr
  · obtain ⟨hbuffer, hcaller⟩ := h.received hr
    refine ⟨?_, hsize.trans hcaller⟩
    rw [hrecv (h.mType.trans hr), List.length_append, List.length_drop, hbuffer]
    omega

theorem PendingOperation.Fits.length {op : PendingOperation} {r : Request} (h : op.Fits r) :
    op.mBuffer.length = r.buffer.length := by
  cases hr : r.type with
  | send => rw [h.sent hr]
  | recv => exact (h.received hr).1

/-- The kernel's answer is one to the request. -/
structure Answer.Fits (a : Answer) (r : Request) : Prop where
  length : a.bytes.length ≤ r.buffer.length
  sent : r.type = .send → a.bytes <+: r.buffer

/-- The entry says what became of the request. -/
def Reported.Truthful (s : Provider) (e : Reported) : Prop :=
  ∀ n, e.number = some n → ∃ r a, s.requests[n]? = some r ∧ (n, a) ∈ s.answers ∧ a.Fits r ∧
    e.entry = a.entry r.context r.type ∧
      (r.type = .recv → a.result = true → e.copied = a.bytes)

/-- The entries that a thread has written. -/
def IocpPc.written : IocpPc → List Reported
  | .loop _ _ entries | .lookup _ _ entries _ => entries
  | .count _ _ entries r => r :: entries
  | _ => []

/-- An address, and the length that the kernel was told or will be told. -/
def IocpPc.submitting : IocpPc → List KernelOp
  | .submit h len => [⟨h, len⟩]
  | _ => []

structure DataInv (s : Provider) : Prop where
  ops : ∀ t key op, (s.mPendingOps t).lookup key = some op →
    ∃ r, s.requests[op.number]? = some r ∧ op.Fits r
  emplace : ∀ h op, IocpPc.emplace h op ∈ s.calls →
    ∃ r, s.requests[h.number]? = some r ∧ op.Fits r ∧ op.number = h.number ∧ r.type = h.mType
  kernel : ∀ k, k ∈ s.kernel ∨ k ∈ s.calls.flatMap IocpPc.submitting →
    ∃ r, s.requests[k.handle.number]? = some r ∧ k.len ≤ r.buffer.length ∧ r.type = k.handle.mType
  packets : ∀ p h, s.HasPacket p → p.handle = some h →
    ∃ r, s.requests[h.number]? = some r ∧ (h.number, p.answer) ∈ s.answers ∧ p.answer.Fits r ∧
      ∀ op, (s.mPendingOps h.mType).lookup h.opKey = some op → r.type = .recv →
        op.mBuffer.take p.answer.bytes.length = p.answer.bytes
  written : ∀ e ∈ s.calls.flatMap IocpPc.written, e.Truthful s
  returned : ∀ e ∈ s.returned, e.Truthful s
  answered : ∀ n, (s.kernel.map (·.handle.number)).count n + (s.answers.map (·.1)).count n =
    s.accepted.count n

/-- The report of an operation that fits its request. -/
theorem PendingOperation.Fits.report {op : PendingOperation} {r : Request} {a : Answer}
    (h : op.Fits r) (hr : s.requests[op.number]? = some r) (ha : (op.number, a) ∈ s.answers)
    (hfits : a.Fits r)
    (hbuffer : r.type = .recv → op.mBuffer.take a.bytes.length = a.bytes) :
    (op.report a).Truthful s := by
  rintro n hn
  cases hn
  refine ⟨r, a, hr, ha, hfits, ?_, fun hrecv hresult => ?_⟩
  · rw [PendingOperation.report, h.mContext, h.mType]
  · rw [PendingOperation.report, hresult, h.mType, hrecv]
    split
    next hcopy =>
      rw [(h.received hrecv).2, Nat.min_eq_left hfits.length]
      exact hbuffer hrecv
    next hnot =>
      have hzero : a.bytes.length = 0 := by
        by_contra hne
        exact hnot ⟨rfl, rfl, Nat.pos_of_ne_zero hne⟩
      exact (List.eq_nil_of_length_eq_zero hzero).symm

/-- Requests and answers are only added. -/
theorem Reported.Truthful.mono {e : Reported} (h : e.Truthful s)
    (hrequests : s.requests <+: s'.requests) (hanswers : s.answers <+: s'.answers) :
    e.Truthful s' := by
  intro n hn
  obtain ⟨r, a, hr, ha, hrest⟩ := h n hn
  obtain ⟨more, hmore⟩ := hrequests
  refine ⟨r, a, ?_, hanswers.subset ha, hrest⟩
  rw [← hmore, List.getElem?_append_left (List.getElem?_eq_some_iff.mp hr).1]
  exact hr

/-- Nothing becomes of the requests, or something that is as it should be. -/
theorem DataInv.frame (h : DataInv s) (hrequests : s.requests <+: s'.requests)
    (hanswers : s'.answers = s.answers)
    (hops : ∀ t key op, (s'.mPendingOps t).lookup key = some op →
      (s.mPendingOps t).lookup key = some op ∨ ∃ r, s'.requests[op.number]? = some r ∧ op.Fits r)
    (hemplace : ∀ hd op, IocpPc.emplace hd op ∈ s'.calls → IocpPc.emplace hd op ∈ s.calls ∨
      ∃ r, s'.requests[hd.number]? = some r ∧ op.Fits r ∧ op.number = hd.number ∧ r.type = hd.mType)
    (hkernel : ∀ k, k ∈ s'.kernel ∨ k ∈ s'.calls.flatMap IocpPc.submitting →
      (k ∈ s.kernel ∨ k ∈ s.calls.flatMap IocpPc.submitting) ∨
        ∃ r, s'.requests[k.handle.number]? = some r ∧ k.len ≤ r.buffer.length ∧
          r.type = k.handle.mType)
    (hpackets : ∀ p hd, s'.HasPacket p → p.handle = some hd → s.HasPacket p ∧
      ∀ op, (s'.mPendingOps hd.mType).lookup hd.opKey = some op →
        (s.mPendingOps hd.mType).lookup hd.opKey = some op)
    (hwritten : ∀ e ∈ s'.calls.flatMap IocpPc.written, e ∈ s.calls.flatMap IocpPc.written ∨
      e.Truthful s)
    (hreturned : ∀ e ∈ s'.returned, e ∈ s.returned ∨ e ∈ s.calls.flatMap IocpPc.written)
    (hanswered : ∀ n, (s'.kernel.map (·.handle.number)).count n + s.accepted.count n =
      (s.kernel.map (·.handle.number)).count n + s'.accepted.count n) : DataInv s' := by
  have hmono : ∀ {n : Nat} {r : Request}, s.requests[n]? = some r → s'.requests[n]? = some r := by
    intro n r hr
    obtain ⟨more, hmore⟩ := hrequests
    rw [← hmore, List.getElem?_append_left (List.getElem?_eq_some_iff.mp hr).1]
    exact hr
  have hpre : s.answers <+: s'.answers := hanswers ▸ List.prefix_refl _
  refine ⟨fun t key op hop => ?_, fun hd op hop => ?_, fun k hk => ?_, fun p hd hp hh => ?_,
    fun e he => ?_, fun e he => ?_, fun n => ?_⟩
  · rcases hops t key op hop with hop | hnew
    · obtain ⟨r, hr, hfits⟩ := h.ops t key op hop
      exact ⟨r, hmono hr, hfits⟩
    · exact hnew
  · rcases hemplace hd op hop with hop | hnew
    · obtain ⟨r, hr, hrest⟩ := h.emplace hd op hop
      exact ⟨r, hmono hr, hrest⟩
    · exact hnew
  · rcases hkernel k hk with hk | hnew
    · obtain ⟨r, hr, hrest⟩ := h.kernel k hk
      exact ⟨r, hmono hr, hrest⟩
    · exact hnew
  · obtain ⟨hp, hlookup⟩ := hpackets p hd hp hh
    obtain ⟨r, hr, ha, hfits, hbuffer⟩ := h.packets p hd hp hh
    exact ⟨r, hmono hr, hpre.subset ha, hfits, fun op hop => hbuffer op (hlookup op hop)⟩
  · rcases hwritten e he with he | htrue
    · exact (h.written e he).mono hrequests hpre
    · exact htrue.mono hrequests hpre
  · rcases hreturned e he with he | he
    · exact (h.returned e he).mono hrequests hpre
    · exact (h.written e he).mono hrequests hpre
  · have hn := h.answered n
    have hcount := hanswered n
    rw [hanswers]
    omega

/-- A thread moves. -/
theorem DataInv.move (h : DataInv s) {pc' : IocpPc} (hcalls : s'.calls = s.calls.set i pc')
    (hrequests : s'.requests = s.requests) (hanswers : s'.answers = s.answers)
    (hops : ∀ t key op, (s'.mPendingOps t).lookup key = some op →
      (s.mPendingOps t).lookup key = some op ∨ ∃ r, s.requests[op.number]? = some r ∧ op.Fits r)
    (hkernel : ∀ k, k ∈ s'.kernel ∨ k ∈ pc'.submitting →
      (k ∈ s.kernel ∨ k ∈ s.calls.flatMap IocpPc.submitting) ∨
        ∃ r, s.requests[k.handle.number]? = some r ∧ k.len ≤ r.buffer.length ∧
          r.type = k.handle.mType)
    (hport : ∀ p ∈ s'.port, p ∈ s.port)
    (hpackets : ∀ p hd, s.HasPacket p → p.handle = some hd →
      ∀ op, (s'.mPendingOps hd.mType).lookup hd.opKey = some op →
        (s.mPendingOps hd.mType).lookup hd.opKey = some op)
    (hreturned : ∀ e ∈ s'.returned, e ∈ s.returned ∨ e ∈ s.calls.flatMap IocpPc.written)
    (hanswered : ∀ n, (s'.kernel.map (·.handle.number)).count n + s.accepted.count n =
      (s.kernel.map (·.handle.number)).count n + s'.accepted.count n)
    (hnew : ∀ hd op, pc' ≠ .emplace hd op)
    (htaken : ∀ maxEntries n entries p, pc' = .lookup maxEntries n entries p → s.HasPacket p)
    (hwritten : ∀ e ∈ pc'.written, e ∈ s.calls.flatMap IocpPc.written ∨ e.Truthful s) :
    DataInv s' := by
  refine h.frame (hrequests ▸ List.prefix_refl _) hanswers (fun t key op hop => ?_)
    (fun hd op hop => .inl ?_) (fun k hk => ?_) (fun p hd hp hh => ?_) (fun e he => ?_) hreturned
    hanswered
  · rw [hrequests]
    exact hops t key op hop
  · obtain ⟨j, hj⟩ := List.mem_iff_getElem?.mp hop
    exact List.mem_of_getElem? (emplace_of_set hcalls hnew hj).2
  · rw [hrequests]
    rcases hk with hk | hk
    · exact hkernel k (.inl hk)
    · rw [hcalls] at hk
      rcases Tally.mem_flatMap_set hk with hk | hk
      · exact hkernel k (.inr hk)
      · exact .inl (.inr hk)
  · have hp' := hasPacket_of_set hcalls htaken hport hp
    exact ⟨hp', hpackets p hd hp' hh⟩
  · rw [hcalls] at he
    rcases Tally.mem_flatMap_set he with he | he
    · exact hwritten e he
    · exact .inl he

/-- A thread moves, and keeps to what it has. -/
theorem DataInv.goto (h : DataInv s) {pc pc' : IocpPc} (hpc : s.calls[i]? = some pc)
    (hcalls : s'.calls = s.calls.set i pc') (hrequests : s'.requests = s.requests)
    (hanswers : s'.answers = s.answers) (hops : ∀ t key op,
      (s'.mPendingOps t).lookup key = some op → (s.mPendingOps t).lookup key = some op)
    (hkernel : s'.kernel = s.kernel) (haccepted : s'.accepted = s.accepted)
    (hport : ∀ p ∈ s'.port, p ∈ s.port) (hreturned : s'.returned = s.returned)
    (hnew : ∀ hd op, pc' ≠ .emplace hd op) (hsubmit : pc'.submitting = [])
    (htaken : ∀ maxEntries n entries p, pc' = .lookup maxEntries n entries p → s.HasPacket p)
    (hwritten : ∀ e ∈ pc'.written, e ∈ pc.written ∨ e.Truthful s) : DataInv s' := by
  refine h.move hcalls hrequests hanswers (fun t key op hop => .inl (hops t key op hop))
    (fun k hk => .inl (.inl ?_)) hport (fun p hd _ _ => hops _ _)
    (fun e he => .inl (hreturned ▸ he)) (fun n => by rw [hkernel, haccepted]) hnew htaken
    fun e he => ?_
  · rcases hk with hk | hk
    · exact hkernel ▸ hk
    · rw [hsubmit] at hk
      cases hk
  · rcases hwritten e he with he | htrue
    · exact .inl (List.mem_flatMap.mpr ⟨pc, List.mem_of_getElem? hpc, he⟩)
    · exact .inr htrue

/-- The search has found the operation, and its entry is right. -/
theorem DataInv.report (h : DataInv s) (hmap : MapInv resolve s) {p : Packet}
    (hp : s.HasPacket p) {key : Nat} {t : AsyncIOType} {op : PendingOperation}
    (hkey : p.pOverlapped = some key) (hfind : s.find key = some (t, op)) :
    (op.report p.answer).Truthful s := by
  obtain ⟨hd, hhandle, hnumber, rfl, rfl⟩ := hmap.found hp hkey hfind
  obtain ⟨r, hr, hfits⟩ := h.ops _ _ op (find_eq_some hfind)
  obtain ⟨r', hr', ha, hafits, hbuffer⟩ := h.packets p hd hp hhandle
  rw [hnumber, hr] at hr'
  cases hr'
  exact hfits.report hr (hnumber ▸ ha) hafits (hbuffer op (find_eq_some hfind))

theorem DataInv.threadMove (h : DataInv s) (hmap : MapInv resolve s)
    (hm : ThreadMove resolve s i s') : DataInv s' := by
  cases hm with
  | refused hpc | duplicate hpc | failed hpc =>
      exact h.goto hpc rfl rfl rfl (fun t key op hop => hop) rfl rfl (fun p hp => hp) rfl (by simp)
        rfl (by simp) fun e he => (by cases he)
  | @undone hd hpc =>
      refine h.goto hpc rfl rfl rfl (fun t key op hop => ?_) rfl rfl (fun p hp => hp) rfl (by simp)
        rfl (by simp) fun e he => (by cases he)
      exact lookup_of_erase hop
  | dropped hpc =>
      exact h.goto hpc rfl rfl rfl (fun t key op hop => hop) rfl rfl (fun p hp => hp) rfl (by simp)
        rfl (by simp) fun e he => .inl he
  | counted hpc =>
      refine h.goto hpc rfl rfl rfl (fun t key op hop => hop) rfl rfl (fun p hp => hp) rfl (by simp)
        rfl (by simp) fun e he => .inl ?_
      rcases List.mem_append.mp he with he | he
      · exact List.mem_cons_of_mem _ he
      · rw [List.mem_singleton.mp he]
        exact List.mem_cons_self ..
  | @session maxEntries n entries p key t hpc hkey hfind hresolve =>
      refine h.goto hpc rfl rfl rfl (fun t key op hop => hop) rfl rfl (fun p hp => hp) rfl (by simp)
        rfl (by simp) fun e he => ?_
      rcases List.mem_cons.mp he with rfl | he
      · exact .inr fun n hn => by cases hn
      · exact .inl he
  | @found maxEntries n entries p key t op hpc hkey hfind =>
      have hp : s.HasPacket p := .inr ⟨_, _, _, List.mem_of_getElem? hpc⟩
      refine h.goto hpc rfl rfl rfl (fun t' key' op' hop => lookup_of_erase hop) rfl rfl
        (fun p hp => hp) rfl (by simp) rfl (by simp) fun e he => ?_
      rcases List.mem_cons.mp he with rfl | he
      · exact .inr (h.report hmap hp hkey hfind)
      · exact .inl he
  | @taken maxEntries n entries p port hpc hport =>
      refine h.goto hpc rfl rfl rfl (fun t key op hop => hop) rfl rfl
        (fun q hq => hport ▸ List.mem_cons_of_mem p hq) rfl (by simp) rfl ?_ fun e he => .inl he
      intro maxEntries' n' entries' q heq
      cases heq
      exact .inl (hport ▸ List.mem_cons_self ..)
  | @returned maxEntries n entries hpc =>
      refine h.move rfl rfl rfl (fun t key op hop => .inl hop) (fun k hk => .inl ?_)
        (fun p hp => hp) (fun p hd _ _ op hop => hop) (fun e he => ?_) (fun n => rfl)
        (by simp) (by simp)
        fun e he => (by cases he)
      · rcases hk with hk | hk
        · exact .inl hk
        · cases hk
      · rcases List.mem_append.mp he with he | he
        · exact .inl he
        · exact .inr (List.mem_flatMap.mpr ⟨_, List.mem_of_getElem? hpc, he⟩)
  | @accepted hd len hpc =>
      refine h.move rfl rfl rfl (fun t key op hop => .inl hop) (fun k hk => .inl ?_)
        (fun p hp => hp) (fun p hd _ _ op hop => hop) (fun e he => .inl he)
        (fun n => ?_) (by simp) (by simp)
        fun e he => (by cases he)
      · rcases hk with hk | hk
        · rcases List.mem_append.mp hk with hk | hk
          · exact .inl hk
          · exact .inr (List.mem_flatMap.mpr ⟨_, List.mem_of_getElem? hpc, hk⟩)
        · cases hk
      · simp only [Provider.goto, List.map_append, List.map_singleton, List.count_append]
        omega
  | @emplaced hd op hpc hstage hnew =>
      obtain ⟨r, hr, hfits, hnumber, hmtype⟩ := h.emplace hd op (List.mem_of_getElem? hpc)
      refine h.move rfl rfl rfl (fun t key op' hop => ?_) (fun k hk => ?_) (fun p hp => hp)
        (fun p hd' hp hh op' hop => ?_) (fun e he => .inl he) (fun n => rfl) (by simp) (by simp)
        fun e he => (by cases he)
      · rcases lookup_of_insert hop with ⟨-, -, rfl⟩ | ⟨-, hop⟩
        · exact .inr ⟨r, hnumber ▸ hr, hfits⟩
        · exact .inl hop
      · rcases hk with hk | hk
        · exact .inl (.inl hk)
        · rw [List.mem_singleton.mp hk]
          exact .inr ⟨r, hr, (Nat.mod_le _ _).trans hfits.length.le, hmtype⟩
      · -- The operation of the completion was there before, at another address.
        obtain ⟨op₁, hop₁, -⟩ := hmap.mapped (by simp [hstage]) hd' (hp.holds hh)
        rcases lookup_of_insert hop with ⟨ht, hkey, -⟩ | ⟨-, hop⟩
        · rw [ht, hkey] at hop₁
          exact absurd (AList.lookup_isSome.mp (by rw [hop₁]; rfl)) hnew
        · exact hop

/-- Nothing happens to the requests. -/
theorem DataInv.environment (h : DataInv s) (hcalls : s'.calls = s.calls)
    (hrequests : s'.requests = s.requests) (hanswers : s'.answers = s.answers)
    (hops : ∀ t key op, (s'.mPendingOps t).lookup key = some op →
      (s.mPendingOps t).lookup key = some op)
    (hkernel : s'.kernel = s.kernel) (haccepted : s'.accepted = s.accepted)
    (hport : ∀ p ∈ s'.port, p ∈ s.port ∨ p.handle = none)
    (hreturned : s'.returned = s.returned) : DataInv s' := by
  refine h.frame (hrequests ▸ List.prefix_refl _) hanswers
    (fun t key op hop => .inl (hops t key op hop))
    (fun hd op hop => .inl (hcalls ▸ hop)) (fun k hk => .inl ?_) (fun p hd hp hh => ⟨?_, hops _ _⟩)
    (fun e he => .inl (hcalls ▸ he)) (fun e he => .inl (hreturned ▸ he))
    fun n => by rw [hkernel, haccepted]
  · rwa [hkernel, hcalls] at hk
  · rcases hp with hp | ⟨maxEntries, n, entries, hp⟩
    · rcases hport p hp with hp | hnone
      · exact .inl hp
      · rw [hnone] at hh
        cases hh
    · exact .inr ⟨maxEntries, n, entries, hcalls ▸ hp⟩

/-- An operation is not with the kernel and in the port. -/
theorem NumInv.number_ne_of_kernel (h : NumInv s) {k : KernelOp} (hk : k ∈ s.kernel) {p : Packet}
    (hp : s.HasPacket p) {hd : Handle} (hhandle : p.handle = some hd) :
    hd.number ≠ k.handle.number := by
  intro heq
  have hkernel : 0 < (s.kernel.map (·.handle.number)).count hd.number :=
    List.count_pos_iff.mpr (heq ▸ List.mem_map_of_mem hk)
  have hnumber : hd.number ∈ p.numbers := by simp [Packet.numbers, hhandle]
  have honce := h.once hd.number
  have hplaces := h.places hd.number
  simp only [Provider.places, List.count_append] at hplaces
  rcases hp with hp | ⟨maxEntries, n, entries, hp⟩
  · have hport : 0 < (s.port.flatMap Packet.numbers).count hd.number :=
      List.count_pos_iff.mpr (List.mem_flatMap.mpr ⟨p, hp, hnumber⟩)
    omega
  · have hlate : 0 < (s.calls.flatMap IocpPc.late).count hd.number :=
      List.count_pos_iff.mpr
        (List.mem_flatMap.mpr ⟨_, hp, List.mem_append.mpr (.inl hnumber)⟩)
    omega

/-- The kernel is done with an operation. -/
theorem DataInv.complete (h : DataInv s) (hnum : NumInv s) (hmap : MapInv resolve s) {k : Nat}
    {completionKey : UInt64} {a : Answer} {op : KernelOp}
    {ops : AsyncIOType → AList fun _ : Nat => PendingOperation} (hk : s.kernel[k]? = some op)
    (hlen : a.bytes.length ≤ op.len)
    (hops : ((s.mPendingOps op.handle.mType).lookup op.handle.opKey = none ∧
        ops = s.mPendingOps) ∨
      ∃ pop pop', (s.mPendingOps op.handle.mType).lookup op.handle.opKey = some pop ∧
        pop.transfer a.bytes = some pop' ∧ ops = Function.update s.mPendingOps op.handle.mType
          ((s.mPendingOps op.handle.mType).insert op.handle.opKey pop')) :
    DataInv { s with
      mPendingOps := ops
      kernel := s.kernel.eraseIdx k
      answers := s.answers ++ [(op.handle.number, a)]
      port := if s.isOpen then
        s.port ++ [⟨some op.handle.opKey, completionKey, a, some op.handle⟩] else s.port } := by
  have hmem := List.mem_of_getElem? hk
  have hholds : s.Holds op.handle := .inr (.inl ⟨op, hmem, rfl⟩)
  obtain ⟨r, hr, hlen', hmtype⟩ := h.kernel op (.inl hmem)
  have hbytes : a.bytes.length ≤ r.buffer.length := hlen.trans hlen'
  -- An operation that the kernel has written to is that of the request.
  have hpop : ∀ pop, (s.mPendingOps op.handle.mType).lookup op.handle.opKey = some pop →
      pop.number = op.handle.number ∧ pop.Fits r := by
    intro pop hpop
    have hstage : s.stage ≠ .cleared := fun hc =>
      hmap.cleared hc _ _ (AList.lookup_isSome.mp (by rw [hpop]; rfl))
    obtain ⟨pop₁, hpop₁, hnumber⟩ := hmap.mapped hstage op.handle hholds
    rw [hpop] at hpop₁
    cases hpop₁
    obtain ⟨r₁, hr₁, hfits⟩ := h.ops _ _ pop hpop
    rw [hnumber, hr] at hr₁
    cases hr₁
    exact ⟨hnumber, hfits⟩
  have hlookup : ∀ t key op', (ops t).lookup key = some op' →
      (s.mPendingOps t).lookup key = some op' ∨ (t = op.handle.mType ∧ key = op.handle.opKey ∧
        ∃ pop, (s.mPendingOps t).lookup key = some pop ∧ pop.transfer a.bytes = some op') := by
    intro t key op' hop'
    rcases hops with ⟨-, rfl⟩ | ⟨pop, pop', hpop, htransfer, rfl⟩
    · exact .inl hop'
    · rcases lookup_of_insert hop' with ⟨rfl, rfl, rfl⟩ | ⟨-, hop'⟩
      · exact .inr ⟨rfl, rfl, pop, hpop, htransfer⟩
      · exact .inl hop'
  have hpre : s.answers <+: s.answers ++ [(op.handle.number, a)] := List.prefix_append _ _
  refine ⟨fun t key op' hop' => ?_, h.emplace, fun x hx => ?_, fun p hd hp hh => ?_,
    fun e he => (h.written e he).mono (List.prefix_refl _) hpre,
    fun e he => (h.returned e he).mono (List.prefix_refl _) hpre, fun n => ?_⟩
  · rcases hlookup t key op' hop' with hop' | ⟨rfl, rfl, pop, hsome, htransfer⟩
    · exact h.ops t key op' hop'
    · obtain ⟨hnumber, hfits⟩ := hpop pop hsome
      refine ⟨r, ?_, hfits.transfer htransfer hbytes⟩
      rw [(PendingOperation.transfer_eq_some htransfer).1, hnumber]
      exact hr
  · rcases hx with hx | hx
    · exact h.kernel x (.inl (List.mem_of_mem_eraseIdx hx))
    · exact h.kernel x (.inr hx)
  · have hold : s.HasPacket p → ∃ r, s.requests[hd.number]? = some r ∧
        (hd.number, p.answer) ∈ s.answers ++ [(op.handle.number, a)] ∧ p.answer.Fits r ∧
          ∀ op', (ops hd.mType).lookup hd.opKey = some op' → r.type = .recv →
            op'.mBuffer.take p.answer.bytes.length = p.answer.bytes := by
      intro hp
      obtain ⟨r', hr', ha, hfits, hbuffer⟩ := h.packets p hd hp hh
      refine ⟨r', hr', hpre.subset ha, hfits, fun op' hop' => ?_⟩
      rcases hlookup _ _ op' hop' with hop' | ⟨ht, hkey, pop, hsome, -⟩
      · exact hbuffer op' hop'
      · have hstage : s.stage ≠ .cleared := fun hc =>
          hmap.cleared hc _ _ (AList.lookup_isSome.mp (by rw [hsome]; rfl))
        exact absurd (hmap.number_eq hstage hholds (hp.holds hh) ht hkey)
          (hnum.number_ne_of_kernel hmem hp hh)
    rcases hp with hp | hp
    · dsimp only at hp
      split at hp
      next hopen =>
        rcases List.mem_append.mp hp with hp | hp
        · exact hold (.inl hp)
        · rw [List.mem_singleton.mp hp] at hh ⊢
          cases hh
          have hstage : s.stage ≠ .cleared := fun hc => by simp [Provider.isOpen, hc] at hopen
          obtain ⟨pop, hsome, -⟩ := hmap.mapped hstage op.handle hholds
          obtain ⟨-, hfits⟩ := hpop pop hsome
          rcases hops with ⟨hnone, -⟩ | ⟨pop₁, pop', hsome₁, htransfer, rfl⟩
          · rw [hsome] at hnone
            cases hnone
          rw [hsome] at hsome₁
          cases hsome₁
          obtain ⟨-, -, -, -, hsend, hrecv⟩ := PendingOperation.transfer_eq_some htransfer
          refine ⟨r, hr, List.mem_append_right _ (List.mem_singleton_self _), ⟨hbytes, ?_⟩, ?_⟩
          · intro ht
            exact hfits.sent ht ▸ (hsend (hfits.mType.trans ht)).2
          · intro op' hop' ht
            dsimp only at hop'
            rw [Function.update_self, AList.lookup_insert] at hop'
            cases hop'
            rw [hrecv (hfits.mType.trans ht), List.take_left]
      · exact hold (.inl hp)
    · exact hold (.inr hp)
  · have hn := h.answered n
    have hcount := count_kernel_eraseIdx hk n
    simp only [List.map_append, List.map_singleton, List.count_append]
    omega

theorem DataInv.otherMove (h : DataInv s) (hnum : NumInv s) (hmap : MapInv resolve s)
    (hm : OtherMove resolve s s') : DataInv s' := by
  cases hm with
  | rejected => exact h
  | process hpc =>
      exact h.goto hpc rfl rfl rfl (fun t key op hop => hop) rfl rfl (fun p hp => hp) rfl (by simp)
        rfl (by simp) fun e he => (by cases he)
  | @request i r opKey hpc hfresh =>
      have hlast : (s.requests ++ [r])[s.requests.length]? = some r := by simp
      refine h.frame (List.prefix_append _ _) rfl (fun t key op hop => .inl hop)
        (fun hd op hop => ?_) (fun k hk => .inl ?_) (fun p hd hp hh => ⟨?_, fun op hop => hop⟩)
        (fun e he => .inl ?_) (fun e he => .inl he) fun n => rfl
      · rcases List.mem_or_eq_of_mem_set hop with hop | heq
        · exact .inl hop
        · cases heq
          refine .inr ⟨r, hlast, r.operation_fits _, ?_, rfl⟩
          cases hr : r.type <;> simp [Request.operation, hr]
      · rcases hk with hk | hk
        · exact .inl hk
        · rcases Tally.mem_flatMap_set hk with hk | hk
          · cases hk
          · exact .inr hk
      · rcases hp with hp | ⟨maxEntries, n, entries, hp⟩
        · exact .inl hp
        · rcases List.mem_or_eq_of_mem_set hp with hp | heq
          · exact .inr ⟨maxEntries, n, entries, hp⟩
          · cases heq
      · rcases Tally.mem_flatMap_set he with he | he
        · cases he
        · exact he
  | complete hk hlen hops => exact h.complete hnum hmap hk hlen hops
  | @foreign p hhandle hkey hopen =>
      refine h.environment rfl rfl rfl (fun t key op hop => hop) rfl rfl (fun q hq => ?_) rfl
      rcases List.mem_append.mp hq with hq | hq
      · exact .inl hq
      · exact .inr (List.mem_singleton.mp hq ▸ hhandle)
  | flag hstage hopen hopen' =>
      exact h.environment rfl rfl rfl (fun t key op hop => hop) rfl rfl (fun p hp => .inl hp) rfl
  | close hstage =>
      exact h.environment rfl rfl rfl (fun t key op hop => hop) rfl rfl
        (fun p hp => (by cases hp)) rfl
  | clear hstage =>
      exact h.environment rfl rfl rfl (fun t key op hop => (by cases hop)) rfl rfl
        (fun p hp => .inl hp) rfl

theorem dataInv_init (threads : Nat) : DataInv (.init threads) := by
  have hidle : ∀ pc ∈ (Provider.init threads).calls, pc = .idle :=
    fun pc hpc => List.eq_of_mem_replicate hpc
  refine ⟨fun t key op hop => (by cases hop), fun hd op hop => (by cases hidle _ hop),
    fun k hk => ?_, fun p hd hp hh => ?_, fun e he => ?_, fun e he => (by cases he), fun n => rfl⟩
  · rcases hk with hk | hk
    · cases hk
    · rw [Provider.init, flatMap_replicate_idle rfl] at hk
      cases hk
  · rcases hp with hp | ⟨maxEntries, n, entries, hp⟩
    · cases hp
    · cases hidle _ hp
  · rw [Provider.init, flatMap_replicate_idle rfl] at he
    cases he

theorem dataInv_run {threads : Nat} {as : List IocpAct}
    (hrun : Machine.run (iocpStep resolve) (.init threads) as = some s) :
    NumInv s ∧ DataInv s := by
  have h : NumInv s ∧ MapInv resolve s ∧ DataInv s := by
    refine Machine.run_invariant (I := fun s => NumInv s ∧ MapInv resolve s ∧ DataInv s) ?_
      ⟨numInv_init threads, mapInv_init resolve threads, dataInv_init threads⟩ hrun
    rintro u a u' ⟨hn, hmap, hd⟩ hs
    obtain ⟨hn', hmap'⟩ := inv_step hn hmap hs
    rcases iocpStep_cases hs with ⟨i, answer, -, hm⟩ | hm
    · exact ⟨hn', hmap', hd.threadMove hmap hm⟩
    · exact ⟨hn', hmap', hd.otherMove hn hmap hm⟩
  exact ⟨h.1, h.2.2⟩

/-- The entries of a thread that `mTotalCompletions` counts. -/
def IocpPc.counted : IocpPc → List Reported
  | .loop _ _ entries | .lookup _ _ entries _ | .count _ _ entries _ => entries
  | _ => []

/-- How many operations are in the maps. -/
def size (f : AsyncIOType → AList fun _ : Nat => PendingOperation) : Nat :=
  (f .recv).keys.length + (f .send).keys.length

/-- The entries for requests, returned or not. -/
def Provider.reported (s : Provider) : Nat :=
  (s.calls.flatMap IocpPc.written).countP (·.number.isSome) +
    s.returned.countP (·.number.isSome)

structure StatInv (s : Provider) : Prop where
  pending : s.stage ≠ .cleared → s.mPendingRequests = size s.mPendingOps
  total : s.stage ≠ .cleared →
    s.mTotalRequests = s.mErrorCount + s.mPendingRequests + s.reported
  completions : s.mTotalCompletions =
    (s.calls.flatMap IocpPc.counted).length + s.returned.length

theorem size_insert {f : AsyncIOType → AList fun _ : Nat => PendingOperation} {t : AsyncIOType}
    {key : Nat} (h : key ∉ f t) (op : PendingOperation) :
    size (Function.update f t ((f t).insert key op)) = size f + 1 := by
  have hlen : ((f t).insert key op).keys.length = (f t).keys.length + 1 := by
    rw [AList.keys_insert, List.length_cons, List.erase_of_not_mem (mt AList.mem_keys.mpr h)]
  cases t with
  | recv => simp only [size, Function.update_self, hlen, Function.update_of_ne (by simp :
      AsyncIOType.send ≠ .recv)]; omega
  | send => simp only [size, Function.update_self, hlen, Function.update_of_ne (by simp :
      AsyncIOType.recv ≠ .send)]; omega

/-- Another operation under the same address. -/
theorem size_overwrite {f : AsyncIOType → AList fun _ : Nat => PendingOperation} {t : AsyncIOType}
    {key : Nat} (h : key ∈ f t) (op : PendingOperation) :
    size (Function.update f t ((f t).insert key op)) = size f := by
  have hlen : ((f t).insert key op).keys.length = (f t).keys.length := by
    have hmem := AList.mem_keys.mp h
    rw [AList.keys_insert, List.length_cons, List.length_erase_of_mem hmem]
    exact Nat.sub_add_cancel (List.length_pos_of_mem hmem)
  cases t with
  | recv => simp only [size, Function.update_self, hlen, Function.update_of_ne (by simp :
      AsyncIOType.send ≠ .recv)]
  | send => simp only [size, Function.update_self, hlen, Function.update_of_ne (by simp :
      AsyncIOType.recv ≠ .send)]

theorem size_erase {f : AsyncIOType → AList fun _ : Nat => PendingOperation} {t : AsyncIOType}
    {key : Nat} (h : key ∈ f t) :
    size (Function.update f t ((f t).erase key)) + 1 = size f := by
  have hlen : ((f t).erase key).keys.length + 1 = (f t).keys.length := by
    have hmem := AList.mem_keys.mp h
    rw [AList.keys_erase, List.length_erase_of_mem hmem]
    exact Nat.sub_add_cancel (List.length_pos_of_mem hmem)
  cases t with
  | recv => simp only [size, Function.update_self, Function.update_of_ne (by simp :
      AsyncIOType.send ≠ .recv)]; omega
  | send => simp only [size, Function.update_self, Function.update_of_ne (by simp :
      AsyncIOType.recv ≠ .send)]; omega

/-- A thread moves. -/
theorem StatInv.move (h : StatInv s) {pc pc' : IocpPc} (hpc : s.calls[i]? = some pc)
    (hcalls : s'.calls = s.calls.set i pc') (hstage : s'.stage = s.stage)
    (hpending : s.stage ≠ .cleared → s.mPendingRequests = size s.mPendingOps →
      s'.mPendingRequests = size s'.mPendingOps)
    (htotal : s.stage ≠ .cleared → s.mPendingRequests = size s.mPendingOps →
      s'.mTotalRequests + s.mErrorCount + s.mPendingRequests +
          (s.returned.countP (·.number.isSome) + pc.written.countP (·.number.isSome)) =
        s.mTotalRequests + s'.mErrorCount + s'.mPendingRequests +
          (s'.returned.countP (·.number.isSome) + pc'.written.countP (·.number.isSome)))
    (hcompletions : s'.mTotalCompletions + s.returned.length + pc.counted.length =
      s.mTotalCompletions + s'.returned.length + pc'.counted.length) : StatInv s' := by
  have hwritten := Tally.countP_flatMap_set (fun e : Reported => e.number.isSome) IocpPc.written pc'
    hpc
  have hcounted := Tally.length_flatMap_set IocpPc.counted pc' hpc
  refine ⟨fun hc => hpending (hstage ▸ hc) (h.pending (hstage ▸ hc)), fun hc => ?_, ?_⟩
  · have ht := htotal (hstage ▸ hc) (h.pending (hstage ▸ hc))
    have hold := h.total (hstage ▸ hc)
    simp only [Provider.reported, hcalls] at hold ⊢
    omega
  · have hold := h.completions
    rw [hcalls]
    omega

theorem StatInv.threadMove (h : StatInv s) (hmap : MapInv resolve s)
    (hm : ThreadMove resolve s i s') : StatInv s' := by
  cases hm with
  | refused hpc hstage => exact h.move hpc rfl rfl (fun _ hp => hp) (fun _ _ => rfl) rfl
  | failed hpc => exact h.move hpc rfl rfl (fun _ hp => hp) (fun _ _ => rfl) rfl
  | accepted hpc => exact h.move hpc rfl rfl (fun _ hp => hp) (fun _ _ => rfl) rfl
  | taken hpc hport => exact h.move hpc rfl rfl (fun _ hp => hp) (fun _ _ => rfl) rfl
  | dropped hpc hunknown => exact h.move hpc rfl rfl (fun _ hp => hp) (fun _ _ => rfl) rfl
  | session hpc hkey hfind hresolve =>
      exact h.move hpc rfl rfl (fun _ hp => hp) (fun _ _ => rfl) rfl
  | @duplicate hd op hpc hdup => exact absurd hdup ((hmap.fresh i hd op hpc).2.1 hd.mType)
  | @emplaced hd op hpc hstage hnew =>
      refine h.move hpc rfl rfl (fun _ hp => ?_) (fun _ hp => ?_) rfl
      · simp only [Provider.goto, size_insert hnew, hp]
      · simp only [Provider.goto, IocpPc.written]
        omega
  | @undone hd hpc =>
      have hkey : s.stage ≠ .cleared → hd.opKey ∈ s.mPendingOps hd.mType := by
        intro hc
        obtain ⟨op, hop, -⟩ := hmap.mapped hc hd (.inl ⟨_, List.mem_of_getElem? hpc, rfl⟩)
        exact AList.lookup_isSome.mp (by rw [hop]; rfl)
      refine h.move hpc rfl rfl (fun hc hp => ?_) (fun hc hp => ?_) rfl
      · have hsize := size_erase (hkey hc)
        simp only [Provider.goto]
        omega
      · have hsize := size_erase (hkey hc)
        simp only [Provider.goto, IocpPc.written]
        omega
  | returned hpc =>
      refine h.move hpc rfl rfl (fun _ hp => hp) (fun _ _ => ?_) ?_
      · simp only [Provider.goto, IocpPc.written, List.countP_append, List.countP_nil]
        omega
      · simp only [Provider.goto, IocpPc.counted, List.length_append, List.length_nil]
        omega
  | counted hpc =>
      refine h.move hpc rfl rfl (fun _ hp => hp) (fun _ _ => ?_) ?_
      · simp only [Provider.goto, IocpPc.written, List.countP_append, List.countP_cons,
          List.countP_nil]
        omega
      · simp only [Provider.goto, IocpPc.counted, List.length_append, List.length_singleton]
        omega
  | @found maxEntries n entries p key t op hpc hkey hfind =>
      have hmem : key ∈ s.mPendingOps t :=
        AList.lookup_isSome.mp (by rw [find_eq_some hfind]; rfl)
      have hsize := size_erase hmem
      refine h.move hpc rfl rfl (fun _ hp => ?_) (fun _ hp => ?_) rfl
      · simp only [Provider.goto]
        omega
      · simp only [Provider.goto, IocpPc.written, List.countP_cons, PendingOperation.report,
          Option.isSome_some, if_pos]
        omega

theorem StatInv.otherMove (h : StatInv s) (hm : OtherMove resolve s s') : StatInv s' := by
  cases hm with
  | rejected => exact h
  | request hpc hfresh => exact h.move hpc rfl rfl (fun _ hp => hp) (fun _ _ => rfl) rfl
  | process hpc => exact h.move hpc rfl rfl (fun _ hp => hp) (fun _ _ => rfl) rfl
  | complete hk hlen hops =>
      refine ⟨fun hc => ?_, h.total, h.completions⟩
      rcases hops with ⟨-, rfl⟩ | ⟨pop, pop', hpop, -, rfl⟩
      · exact h.pending hc
      · exact (h.pending hc).trans
          (size_overwrite (AList.lookup_isSome.mp (by rw [hpop]; rfl)) pop').symm
  | foreign => exact ⟨h.pending, h.total, h.completions⟩
  | flag hstage => exact ⟨fun _ => h.pending hstage.1, fun _ => h.total hstage.1, h.completions⟩
  | close hstage =>
      exact ⟨fun _ => h.pending (by simp [hstage]), fun _ => h.total (by simp [hstage]),
        h.completions⟩
  | clear hstage => exact ⟨fun hc => absurd rfl hc, fun hc => absurd rfl hc, h.completions⟩

theorem statInv_init (threads : Nat) : StatInv (.init threads) := by
  have hwritten : (Provider.init threads).calls.flatMap IocpPc.written = [] :=
    flatMap_replicate_idle rfl
  have hcounted : (Provider.init threads).calls.flatMap IocpPc.counted = [] :=
    flatMap_replicate_idle rfl
  refine ⟨fun _ => rfl, fun _ => ?_, ?_⟩
  · simp only [Provider.reported, hwritten]
    rfl
  · rw [hcounted]
    rfl

/-- Until `Shutdown` clears the maps, `mPendingRequests` is the number of operations in them, and a
request that `mTotalRequests` counts is pending, has failed or has been reported.
`mTotalCompletions` is the number of entries, and no address is in a map already. -/
theorem stats_exact {threads : Nat} {as : List IocpAct}
    (hrun : Machine.run (iocpStep resolve) (.init threads) as = some s) :
    (s.stage ≠ .cleared → s.mPendingRequests = size s.mPendingOps ∧
        s.mTotalRequests = s.mErrorCount + s.mPendingRequests + s.reported) ∧
      s.mTotalCompletions = (s.calls.flatMap IocpPc.counted).length + s.returned.length ∧
        ∀ h op, IocpPc.emplace h op ∈ s.calls → h.opKey ∉ s.mPendingOps h.mType := by
  have h : NumInv s ∧ MapInv resolve s ∧ StatInv s := by
    refine Machine.run_invariant (I := fun s => NumInv s ∧ MapInv resolve s ∧ StatInv s) ?_
      ⟨numInv_init threads, mapInv_init resolve threads, statInv_init threads⟩ hrun
    rintro u a u' ⟨hn, hmap, hstat⟩ hs
    obtain ⟨hn', hmap'⟩ := inv_step hn hmap hs
    rcases iocpStep_cases hs with ⟨i, answer, -, hm⟩ | hm
    · exact ⟨hn', hmap', hstat.threadMove hmap hm⟩
    · exact ⟨hn', hmap', hstat.otherMove hm⟩
  obtain ⟨-, hmap, hstat⟩ := h
  refine ⟨fun hc => ⟨hstat.pending hc, hstat.total hc⟩, hstat.completions, fun hd op hop => ?_⟩
  obtain ⟨j, hj⟩ := List.mem_iff_getElem?.mp hop
  exact (hmap.fresh j hd op hj).2.1 hd.mType

theorem stats_exact_received :
    ∃ s, Machine.run (iocpStep fun _ => none) (.init 2)
        (receivedTrace ++ [.thread 1 true, .thread 1 true, .thread 1 false]) = some s ∧
      s.stage = .running ∧ s.mTotalRequests = 2 ∧ s.reported = 1 ∧ s.mErrorCount = 0 ∧
        s.mPendingRequests = 1 := by
  have hrun : (Machine.run (iocpStep fun _ => none) (.init 2)
      (receivedTrace ++ [.thread 1 true, .thread 1 true, .thread 1 false])).any (fun s =>
        decide (s.stage = .running ∧ s.mTotalRequests = 2 ∧ s.reported = 1 ∧
          s.mErrorCount = 0)) = true := by decide +kernel
  obtain ⟨s, hs, hp⟩ := (Option.any_eq_true _ _).mp hrun
  obtain ⟨hstage, htotal, hreported, herror⟩ := of_decide_eq_true hp
  obtain ⟨-, hsum⟩ := (stats_exact hs).1 (by rw [hstage]; simp)
  exact ⟨s, hs, hstage, htotal, hreported, herror, by omega⟩

end

end NetworkModule.Iocp
