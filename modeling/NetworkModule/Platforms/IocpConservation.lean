import NetworkModule.Lib.Tally
import NetworkModule.Platforms.Iocp

/-!
# No completion is lost

Whoever has the address of an operation finds the operation in its map, as long as `Shutdown` has
not cleared the maps (`MapInv`), and nobody else has a request with the same number (`NumInv`).
Each of the two needs the other: a completion leads to its own operation only because addresses
are not shared, and they are not shared because the operation leaves its map with the last
address.

`completions_conserved` says where the requests are that the kernel has accepted.
-/

namespace NetworkModule.Iocp

open AsyncIO

section
variable {resolve : Nat → Option AsyncIOType} {s s' : Provider} {i : Nat}

/-! ## Where a request is -/

def Packet.numbers (p : Packet) : List Nat := (p.handle.map Handle.number).toList

def Reported.numbers (r : Reported) : List Nat := r.number.toList

/-- The request of a thread, before the kernel has accepted it. -/
def IocpPc.early : IocpPc → List Nat
  | .emplace h _ | .submit h _ | .undo h => [h.number]
  | _ => []

/-- The requests that a thread in `ProcessCompletions` has. -/
def IocpPc.late : IocpPc → List Nat
  | .loop _ _ entries => entries.flatMap Reported.numbers
  | .lookup _ _ entries p => p.numbers ++ entries.flatMap Reported.numbers
  | .count _ _ entries r => r.numbers ++ entries.flatMap Reported.numbers
  | _ => []

/-- The requests that are not accepted yet. -/
def Provider.early (s : Provider) : List Nat := s.calls.flatMap IocpPc.early

/-- The accepted requests: in the kernel, in the port, in a call of `ProcessCompletions`, and
returned. -/
def Provider.places (s : Provider) : List Nat :=
  s.kernel.map (·.handle.number) ++ s.port.flatMap Packet.numbers ++
    s.calls.flatMap IocpPc.late ++ s.returned.flatMap Reported.numbers

/-- The address of an operation that a thread has. -/
def IocpPc.holds : IocpPc → Option Handle
  | .submit h _ | .undo h => some h
  | .lookup _ _ _ p => p.handle
  | _ => none

/-- Somebody has the address. -/
def Provider.Holds (s : Provider) (h : Handle) : Prop :=
  (∃ pc ∈ s.calls, pc.holds = some h) ∨ (∃ k ∈ s.kernel, k.handle = h) ∨
    ∃ p ∈ s.port, p.handle = some h

/-- A completion is in the port or has been taken from it. -/
def Provider.HasPacket (s : Provider) (p : Packet) : Prop :=
  p ∈ s.port ∨ ∃ maxEntries n entries, .lookup maxEntries n entries p ∈ s.calls

/-- A request is in one place at most, and in one of `places` once it is accepted, as long as the
port is open. -/
structure NumInv (s : Provider) : Prop where
  known : ∀ n, 0 < s.early.count n + s.accepted.count n → n < s.requests.length
  once : ∀ n, s.early.count n + s.accepted.count n ≤ 1
  places : ∀ n, s.places.count n ≤ s.accepted.count n
  kept : s.isOpen = true → ∀ n, s.accepted.count n ≤ s.places.count n

/-- The maps have the operations that somebody has the address of, each under its address. -/
structure MapInv (resolve : Nat → Option AsyncIOType) (s : Provider) : Prop where
  mapped : s.stage ≠ .cleared → ∀ h, s.Holds h →
    ∃ op, (s.mPendingOps h.mType).lookup h.opKey = some op ∧ op.number = h.number
  own : ∀ h, s.Holds h → resolve h.opKey = none
  ops : ∀ t key op, (s.mPendingOps t).lookup key = some op → op.mType = t ∧ resolve key = none
  disjoint : ∀ key, key ∈ s.mPendingOps .recv → key ∉ s.mPendingOps .send
  fresh : ∀ (j : Nat) h op, s.calls[j]? = some (.emplace h op) → resolve h.opKey = none ∧
    (∀ t, h.opKey ∉ s.mPendingOps t) ∧ op.number = h.number ∧ op.mType = h.mType
  distinct : ∀ (i j : Nat) h op h' op', s.calls[i]? = some (.emplace h op) →
    s.calls[j]? = some (.emplace h' op') → h.opKey = h'.opKey → i = j
  packets : ∀ p, s.HasPacket p → (∀ h, p.handle = some h → p.pOverlapped = some h.opKey) ∧
    (p.handle = none → ∀ key ∈ p.pOverlapped, resolve key ≠ none)
  cleared : s.stage = .cleared → ∀ t key, key ∉ s.mPendingOps t

/-- Whoever has an address has its request. -/
theorem Provider.Holds.counted {h : Handle} (hh : s.Holds h) :
    0 < s.early.count h.number + s.places.count h.number := by
  have hplaces : ∀ {l : List Nat}, h.number ∈ l → 0 < l.count h.number := List.count_pos_iff.mpr
  simp only [Provider.places, List.count_append]
  rcases hh with ⟨pc, hpc, hh⟩ | ⟨k, hk, rfl⟩ | ⟨p, hp, hh⟩
  · cases pc with
    | submit h' len =>
        cases hh
        have := hplaces (l := s.early) (List.mem_flatMap.mpr ⟨_, hpc, List.mem_singleton_self _⟩)
        omega
    | undo h' =>
        cases hh
        have := hplaces (l := s.early) (List.mem_flatMap.mpr ⟨_, hpc, List.mem_singleton_self _⟩)
        omega
    | lookup maxEntries n entries p =>
        have hmem : h.number ∈ (IocpPc.lookup maxEntries n entries p).late := by
          have hp : p.handle = some h := hh
          simp [IocpPc.late, Packet.numbers, hp]
        have := hplaces (l := s.calls.flatMap IocpPc.late) (List.mem_flatMap.mpr ⟨_, hpc, hmem⟩)
        omega
    | idle | emplace | loop | count => cases hh
  · have := hplaces (l := s.kernel.map (·.handle.number)) (List.mem_map_of_mem hk)
    omega
  · have := hplaces (l := s.port.flatMap Packet.numbers)
      (List.mem_flatMap.mpr ⟨p, hp, by simp [Packet.numbers, hh]⟩)
    omega

theorem find_eq_some {key : Nat} {t : AsyncIOType} {op : PendingOperation}
    (h : s.find key = some (t, op)) : (s.mPendingOps t).lookup key = some op := by
  unfold Provider.find at h
  split at h
  next op' hop =>
    cases h
    exact hop
  next hnone =>
    obtain ⟨op', hop, heq⟩ := Option.map_eq_some_iff.mp h
    cases heq
    exact hop

theorem find_eq_none {key : Nat} (h : s.find key = none) (t : AsyncIOType) :
    (s.mPendingOps t).lookup key = none := by
  unfold Provider.find at h
  split at h
  · cases h
  next hnone =>
    cases t with
    | recv => exact hnone
    | send => exact Option.map_eq_none_iff.mp h

theorem Provider.HasPacket.holds {p : Packet} (hp : s.HasPacket p) {hd : Handle}
    (hhandle : p.handle = some hd) : s.Holds hd := by
  rcases hp with hp | ⟨maxEntries, n, entries, hp⟩
  · exact .inr (.inr ⟨p, hp, hhandle⟩)
  · exact .inl ⟨_, hp, hhandle⟩

/-- The search finds the operation that the completion is for. -/
theorem MapInv.found (h : MapInv resolve s) {p : Packet} (hp : s.HasPacket p) {key : Nat}
    {t : AsyncIOType} {op : PendingOperation} (hkey : p.pOverlapped = some key)
    (hfind : s.find key = some (t, op)) :
    ∃ hd, p.handle = some hd ∧ hd.number = op.number ∧ hd.mType = t ∧ hd.opKey = key := by
  have hop := find_eq_some hfind
  cases hhandle : p.handle with
  | none => exact absurd (h.ops t key op hop).2 ((h.packets p hp).2 hhandle key hkey)
  | some hd =>
      have heq := (h.packets p hp).1 hd hhandle
      rw [hkey] at heq
      cases heq
      have hstage : s.stage ≠ .cleared := fun hc =>
        h.cleared hc t _ (AList.lookup_isSome.mp (by rw [hop]; rfl))
      obtain ⟨op', hop', hnumber⟩ := h.mapped hstage hd (hp.holds hhandle)
      have ht : hd.mType = t := by
        by_contra hne
        have hmem := AList.lookup_isSome.mp (by rw [hop]; rfl : ((s.mPendingOps t).lookup _).isSome)
        have hmem' := AList.lookup_isSome.mp
          (by rw [hop']; rfl : ((s.mPendingOps hd.mType).lookup _).isSome)
        cases t with
        | recv =>
            cases hm : hd.mType with
            | recv => exact hne hm
            | send => exact h.disjoint _ hmem (hm ▸ hmem')
        | send =>
            cases hm : hd.mType with
            | recv => exact h.disjoint _ (hm ▸ hmem') hmem
            | send => exact hne hm
      subst ht
      rw [hop] at hop'
      cases hop'
      exact ⟨hd, rfl, hnumber.symm, rfl, rfl⟩

/-- Where accepted requests are that no thread has. -/
def Provider.rest (s : Provider) : List Nat :=
  s.kernel.map (·.handle.number) ++ s.port.flatMap Packet.numbers ++
    s.returned.flatMap Reported.numbers

theorem count_places (s : Provider) (n : Nat) :
    s.places.count n = s.rest.count n + (s.calls.flatMap IocpPc.late).count n := by
  simp only [Provider.places, Provider.rest, List.count_append]
  omega

/-- A thread moves, and takes its requests along. -/
theorem NumInv.move (h : NumInv s) {pc pc' : IocpPc} (hpc : s.calls[i]? = some pc)
    (hcalls : s'.calls = s.calls.set i pc') (hlen : s.requests.length ≤ s'.requests.length)
    (hearly : ∀ n, pc'.early.count n + s'.accepted.count n ≤
      pc.early.count n + s.accepted.count n +
        if n = s.requests.length ∧ n < s'.requests.length then 1 else 0)
    (hlate : ∀ n, s'.rest.count n + pc'.late.count n + s.accepted.count n ≤
      s.rest.count n + pc.late.count n + s'.accepted.count n)
    (hkept : s'.isOpen = true → s.isOpen = true ∧ ∀ n,
      s.rest.count n + pc.late.count n + s'.accepted.count n ≤
        s'.rest.count n + pc'.late.count n + s.accepted.count n) : NumInv s' := by
  have hearlySet : ∀ n, s'.early.count n + pc.early.count n =
      s.early.count n + pc'.early.count n := by
    intro n
    rw [Provider.early, hcalls]
    exact Tally.count_flatMap_set IocpPc.early pc' hpc n
  have hlateSet : ∀ n, (s'.calls.flatMap IocpPc.late).count n + pc.late.count n =
      (s.calls.flatMap IocpPc.late).count n + pc'.late.count n := by
    intro n
    rw [hcalls]
    exact Tally.count_flatMap_set IocpPc.late pc' hpc n
  refine ⟨fun n hn => ?_, fun n => ?_, fun n => ?_, fun hopen n => ?_⟩
  · have hset := hearlySet n
    have he := hearly n
    split at he
    next hnew => exact hnew.2
    · exact (h.known n (by omega)).trans_le hlen
  · have hset := hearlySet n
    have he := hearly n
    have honce := h.once n
    split at he
    next hnew =>
      -- The number has not been used.
      have hunused : ¬ 0 < s.early.count n + s.accepted.count n := fun hpos =>
        absurd (h.known n hpos) (by omega)
      omega
    · omega
  · have hset := hlateSet n
    have hl := hlate n
    have hplaces := h.places n
    rw [count_places] at hplaces ⊢
    omega
  · obtain ⟨hopen, hk⟩ := hkept hopen
    have hset := hlateSet n
    have hl := hk n
    have hplaces := h.kept hopen n
    rw [count_places] at hplaces ⊢
    omega

/-- A thread moves, and nothing else changes where the requests are. -/
theorem NumInv.goto (h : NumInv s) {pc pc' : IocpPc} (hpc : s.calls[i]? = some pc)
    (hcalls : s'.calls = s.calls.set i pc') (hlen : s'.requests = s.requests)
    (haccepted : s'.accepted = s.accepted) (hrest : s'.rest = s.rest)
    (hstage : s'.stage = s.stage) (hearly : pc'.early = pc.early)
    (hlate : ∀ n, pc'.late.count n = pc.late.count n) : NumInv s' := by
  refine h.move hpc hcalls (by rw [hlen]) (fun n => ?_) (fun n => ?_) fun hopen => ⟨?_, fun n => ?_⟩
  · rw [hearly, haccepted, hlen, if_neg (by omega), Nat.add_zero]
  · rw [hrest, haccepted, hlate]
  · simpa only [Provider.isOpen, hstage] using hopen
  · rw [hrest, haccepted, hlate]

/-- A thread gives a request up that is not accepted yet. -/
theorem NumInv.giveUp (h : NumInv s) {pc : IocpPc} (hpc : s.calls[i]? = some pc)
    (hcalls : s'.calls = s.calls.set i .idle) (hlen : s'.requests = s.requests)
    (haccepted : s'.accepted = s.accepted) (hrest : s'.rest = s.rest)
    (hstage : s'.stage = s.stage) (hlate : pc.late = []) : NumInv s' := by
  refine h.move hpc hcalls (by rw [hlen]) (fun n => ?_) (fun n => ?_) fun hopen => ⟨?_, fun n => ?_⟩
  · have hidle : IocpPc.idle.early = [] := rfl
    rw [haccepted, hidle, List.count_nil]
    omega
  · rw [hrest, haccepted, hlate]
    rfl
  · simpa only [Provider.isOpen, hstage] using hopen
  · rw [hrest, haccepted, hlate]
    rfl

/-- A completion for an operation of the provider finds it, as long as the maps are not
cleared. -/
theorem MapInv.mapped_packet (h : MapInv resolve s) {p : Packet} (hp : s.HasPacket p)
    (hstage : s.stage ≠ .cleared) {hd : Handle} (hhandle : p.handle = some hd) :
    p.pOverlapped = some hd.opKey ∧ s.find hd.opKey ≠ none := by
  obtain ⟨op, hop, -⟩ := h.mapped hstage hd (hp.holds hhandle)
  refine ⟨(h.packets p hp).1 hd hhandle, fun hnone => ?_⟩
  rw [find_eq_none hnone] at hop
  cases hop

theorem NumInv.threadMove (h : NumInv s) (hmap : MapInv resolve s)
    (hm : ThreadMove resolve s i s') : NumInv s' := by
  cases hm with
  | refused hpc hstage => exact h.giveUp hpc rfl rfl rfl rfl rfl rfl
  | duplicate hpc hdup => exact h.giveUp hpc rfl rfl rfl rfl rfl rfl
  | undone hpc => exact h.giveUp hpc rfl rfl rfl rfl rfl rfl
  | emplaced hpc hstage hnew => exact h.goto hpc rfl rfl rfl rfl rfl rfl fun _ => rfl
  | failed hpc => exact h.goto hpc rfl rfl rfl rfl rfl rfl fun _ => rfl
  | counted hpc =>
      refine h.goto hpc rfl rfl rfl rfl rfl rfl fun n => ?_
      simp only [IocpPc.late, List.flatMap_append, List.flatMap_singleton, List.count_append]
      omega
  | @accepted hd len hpc =>
      refine h.move hpc rfl le_rfl (fun n => ?_) (fun n => ?_) fun hopen => ⟨hopen, fun n => ?_⟩
      · simp only [Provider.goto, IocpPc.early, List.count_append, List.count_nil]
        omega
      · simp only [Provider.goto, Provider.rest, IocpPc.late, List.map_append, List.map_singleton,
          List.count_append]
        omega
      · simp only [Provider.goto, Provider.rest, IocpPc.late, List.map_append, List.map_singleton,
          List.count_append]
        omega
  | taken hpc hport =>
      refine h.move hpc rfl le_rfl (fun n => le_self_add) (fun n => ?_)
        fun hopen => ⟨hopen, fun n => ?_⟩
      · simp only [Provider.goto, Provider.rest, IocpPc.late, hport, List.flatMap_cons,
          List.count_append]
        omega
      · simp only [Provider.goto, Provider.rest, IocpPc.late, hport, List.flatMap_cons,
          List.count_append]
        omega
  | returned hpc =>
      refine h.move hpc rfl le_rfl (fun n => le_self_add) (fun n => ?_)
        fun hopen => ⟨hopen, fun n => ?_⟩
      · simp only [Provider.goto, Provider.rest, IocpPc.late, List.flatMap_append,
          List.count_append, List.count_nil]
        omega
      · simp only [Provider.goto, Provider.rest, IocpPc.late, List.flatMap_append,
          List.count_append, List.count_nil]
        omega
  | @found maxEntries n entries p key t op hpc hkey hfind =>
      obtain ⟨hd, hhandle, hnumber, -, -⟩ := hmap.found
        (.inr ⟨_, _, _, List.mem_of_getElem? hpc⟩) hkey hfind
      refine h.goto hpc rfl rfl rfl rfl rfl rfl fun n => ?_
      simp [IocpPc.late, Packet.numbers, Reported.numbers, PendingOperation.report, hhandle,
        hnumber]
  | @session maxEntries n entries p key t hpc hkey hfind hresolve =>
      have hp : s.HasPacket p := .inr ⟨_, _, _, List.mem_of_getElem? hpc⟩
      have hnone : p.handle = none := by
        cases hhandle : p.handle with
        | none => rfl
        | some hd =>
            have heq := (hmap.packets p hp).1 hd hhandle
            rw [hkey] at heq
            cases heq
            rw [hmap.own hd (hp.holds hhandle)] at hresolve
            cases hresolve
      refine h.goto hpc rfl rfl rfl rfl rfl rfl fun n => ?_
      simp only [IocpPc.late, Packet.numbers, Reported.numbers, hnone, Option.map_none]
  | @dropped maxEntries n entries p hpc hunknown =>
      have hp : s.HasPacket p := .inr ⟨_, _, _, List.mem_of_getElem? hpc⟩
      refine h.move hpc rfl le_rfl (fun n => le_self_add) (fun n => ?_)
        fun hopen => ⟨hopen, fun n => ?_⟩
      · simp only [Provider.goto, Provider.rest, IocpPc.late, List.count_append]
        omega
      · have hstage : s.stage ≠ .cleared := fun hc => by
          simp [Provider.goto, Provider.isOpen, hc] at hopen
        have hnone : p.handle = none := by
          cases hhandle : p.handle with
          | none => rfl
          | some hd =>
              obtain ⟨hkey, hfind⟩ := hmap.mapped_packet hp hstage hhandle
              exact absurd (hunknown _ hkey).1 hfind
        simp only [Provider.goto, Provider.rest, IocpPc.late, Packet.numbers, hnone,
          Option.map_none, Option.toList_none, List.nil_append, le_refl]

/-- The kernel is done with an operation. -/
theorem count_kernel_eraseIdx {k : Nat} {op : KernelOp} (hk : s.kernel[k]? = some op) (n : Nat) :
    (s.kernel.map (·.handle.number)).count n =
      ((s.kernel.eraseIdx k).map (·.handle.number)).count n + [op.handle.number].count n := by
  have hcount := Tally.countP_eraseIdx (fun x : KernelOp => x.handle.number == n) hk
  simp only [List.count_eq_countP, List.countP_map, List.countP_singleton] at hcount ⊢
  cases hn : op.handle.number == n with
  | true => rwa [hn] at hcount
  | false => rwa [hn] at hcount

/-- Completions come and go, and no thread moves. -/
theorem NumInv.environment (h : NumInv s) (hcalls : s'.calls = s.calls)
    (hrequests : s'.requests = s.requests) (haccepted : s'.accepted = s.accepted)
    (hrest : ∀ n, s'.rest.count n ≤ s.rest.count n)
    (hkept : s'.isOpen = true → s.isOpen = true ∧ ∀ n, s.rest.count n ≤ s'.rest.count n) :
    NumInv s' := by
  have hearly : s'.early = s.early := congrArg (List.flatMap IocpPc.early) hcalls
  refine ⟨fun n hn => ?_, fun n => ?_, fun n => ?_, fun hopen n => ?_⟩
  · rw [hearly, haccepted] at hn
    rw [hrequests]
    exact h.known n hn
  · rw [hearly, haccepted]
    exact h.once n
  · have hplaces := h.places n
    have hr := hrest n
    rw [count_places] at hplaces ⊢
    rw [hcalls, haccepted]
    omega
  · obtain ⟨hopen, hk⟩ := hkept hopen
    have hplaces := h.kept hopen n
    have hr := hk n
    rw [count_places] at hplaces ⊢
    rw [hcalls, haccepted]
    omega

theorem NumInv.otherMove (h : NumInv s) (hm : OtherMove resolve s s') : NumInv s' := by
  cases hm with
  | rejected => exact h
  | process hpc => exact h.goto hpc rfl rfl rfl rfl rfl rfl fun _ => rfl
  | @request i r opKey hpc hfresh =>
      refine h.move hpc rfl ?_ (fun n => ?_) (fun n => le_rfl) fun hopen => ⟨hopen, fun n => le_rfl⟩
      · simp [Provider.goto]
      · simp only [Provider.goto, IocpPc.early, List.count_nil, List.count_singleton,
          List.length_append, List.length_singleton]
        by_cases hn : n = s.requests.length
        · simp [hn, Nat.add_comm]
        · simp [hn, Ne.symm hn]
  | @complete k completionKey a op ops hk hlen hops =>
      have hkernel := count_kernel_eraseIdx hk
      refine h.environment rfl rfl rfl (fun n => ?_) fun ho => ⟨ho, fun n => ?_⟩
      · have hn := hkernel n
        simp only [Provider.rest, List.count_append] at hn ⊢
        split
        · simp only [List.flatMap_append, List.flatMap_singleton, List.count_append, Packet.numbers,
            Option.map_some, Option.toList_some]
          omega
        · omega
      · have hn := hkernel n
        have hopen : s.isOpen = true := ho
        simp only [Provider.rest, hopen, if_pos, List.count_append, List.flatMap_append,
          List.flatMap_singleton, Packet.numbers, Option.map_some, Option.toList_some] at hn ⊢
        omega
  | @foreign p hhandle hkey hopen =>
      have hnil : p.numbers = [] := by simp [Packet.numbers, hhandle]
      have hrest : ∀ n, ({ s with port := s.port ++ [p] } : Provider).rest.count n =
          s.rest.count n := by
        intro n
        simp [Provider.rest, hnil]
      exact h.environment rfl rfl rfl (fun n => (hrest n).le) fun ho => ⟨ho, fun n => (hrest n).ge⟩
  | flag hstage hopen hopen' =>
      exact h.environment rfl rfl rfl (fun n => le_rfl) fun _ => ⟨hopen, fun n => le_rfl⟩
  | close hstage =>
      refine h.environment rfl rfl rfl (fun n => ?_) fun ho => ?_
      · simp only [Provider.rest, List.flatMap_nil, List.append_nil, List.count_append]
        omega
      · cases ho
  | clear hstage =>
      refine h.environment rfl rfl rfl (fun n => le_rfl) fun ho => ?_
      cases ho

/-! ## The maps -/

theorem lookup_of_erase {f : AsyncIOType → AList fun _ : Nat => PendingOperation}
    {t t' : AsyncIOType} {key key' : Nat} {op : PendingOperation}
    (h : (Function.update f t ((f t).erase key) t').lookup key' = some op) :
    (f t').lookup key' = some op := by
  rcases eq_or_ne t' t with rfl | hne
  · rw [Function.update_self] at h
    rcases eq_or_ne key' key with rfl | hne'
    · rw [AList.lookup_erase] at h
      cases h
    · rwa [AList.lookup_erase_ne hne'] at h
  · rwa [Function.update_of_ne hne] at h

theorem lookup_of_insert {f : AsyncIOType → AList fun _ : Nat => PendingOperation}
    {t t' : AsyncIOType} {key key' : Nat} {op op' : PendingOperation}
    (h : (Function.update f t ((f t).insert key op) t').lookup key' = some op') :
    (t' = t ∧ key' = key ∧ op' = op) ∨
      (¬ (t' = t ∧ key' = key) ∧ (f t').lookup key' = some op') := by
  rcases eq_or_ne t' t with rfl | hne
  · rw [Function.update_self] at h
    rcases eq_or_ne key' key with rfl | hne'
    · rw [AList.lookup_insert] at h
      exact .inl ⟨rfl, rfl, (Option.some.inj h).symm⟩
    · rw [AList.lookup_insert_ne hne'] at h
      exact .inr ⟨fun heq => hne' heq.2, h⟩
  · rw [Function.update_of_ne hne] at h
    exact .inr ⟨fun heq => hne heq.1, h⟩

/-- The maps are as before, and nobody has a new address. -/
theorem MapInv.frame (h : MapInv resolve s) (hops : s'.mPendingOps = s.mPendingOps)
    (hstage : s'.stage = .cleared ↔ s.stage = .cleared) (hholds : ∀ hd, s'.Holds hd → s.Holds hd)
    (hpackets : ∀ p, s'.HasPacket p →
      s.HasPacket p ∨ p.handle = none ∧ ∀ key ∈ p.pOverlapped, resolve key ≠ none)
    (hcalls : ∀ (j : Nat) hd op, s'.calls[j]? = some (.emplace hd op) →
      s.calls[j]? = some (.emplace hd op)) : MapInv resolve s' where
  mapped := fun hc hd hh => by
    rw [hops]
    exact h.mapped (fun hc' => hc (hstage.mpr hc')) hd (hholds hd hh)
  own := fun hd hh => h.own hd (hholds hd hh)
  ops := fun t key op hop => h.ops t key op (hops ▸ hop)
  disjoint := hops ▸ h.disjoint
  fresh := fun j hd op hj => by
    rw [hops]
    exact h.fresh j hd op (hcalls j hd op hj)
  distinct := fun i j hd op hd' op' hi hj =>
    h.distinct i j hd op hd' op' (hcalls i hd op hi) (hcalls j hd' op' hj)
  packets := fun p hp => by
    rcases hpackets p hp with hp | ⟨hhandle, hkey⟩
    · exact h.packets p hp
    · exact ⟨fun hd hh => absurd (hhandle.symm.trans hh) (by simp), fun _ => hkey⟩
  cleared := fun hc => hops ▸ h.cleared (hstage.mp hc)

/-- The addresses that somebody has after a thread has moved. -/
theorem holds_of_set {pc' : IocpPc} (hcalls : s'.calls = s.calls.set i pc')
    (hnew : ∀ hd, pc'.holds = some hd → s.Holds hd) (hkernel : ∀ k ∈ s'.kernel, s.Holds k.handle)
    (hport : ∀ p ∈ s'.port, p ∈ s.port) {hd : Handle} (hh : s'.Holds hd) : s.Holds hd := by
  rcases hh with ⟨pc, hpc, hh⟩ | ⟨k, hk, rfl⟩ | ⟨p, hp, hh⟩
  · rw [hcalls] at hpc
    rcases List.mem_or_eq_of_mem_set hpc with hpc | rfl
    · exact .inl ⟨pc, hpc, hh⟩
    · exact hnew hd hh
  · exact hkernel k hk
  · exact .inr (.inr ⟨p, hport p hp, hh⟩)

theorem hasPacket_of_set {pc' : IocpPc} (hcalls : s'.calls = s.calls.set i pc')
    (hnew : ∀ maxEntries n entries p, pc' = .lookup maxEntries n entries p → s.HasPacket p)
    (hport : ∀ p ∈ s'.port, p ∈ s.port) {p : Packet} (hp : s'.HasPacket p) : s.HasPacket p := by
  rcases hp with hp | ⟨maxEntries, n, entries, hp⟩
  · exact .inl (hport p hp)
  · rw [hcalls] at hp
    rcases List.mem_or_eq_of_mem_set hp with hp | heq
    · exact .inr ⟨maxEntries, n, entries, hp⟩
    · exact hnew maxEntries n entries p heq.symm

theorem emplace_of_set {pc' : IocpPc} (hcalls : s'.calls = s.calls.set i pc')
    (hnew : ∀ hd op, pc' ≠ .emplace hd op) {j : Nat} {hd : Handle} {op : PendingOperation}
    (hj : s'.calls[j]? = some (.emplace hd op)) : j ≠ i ∧ s.calls[j]? = some (.emplace hd op) := by
  rw [hcalls, List.getElem?_set] at hj
  split at hj
  next heq =>
    split at hj
    · exact absurd (Option.some.inj hj) (hnew hd op)
    · cases hj
  next hne => exact ⟨fun heq => hne heq.symm, hj⟩

/-- A thread moves, and the maps are as before. -/
theorem MapInv.goto (h : MapInv resolve s) {pc' : IocpPc} (hcalls : s'.calls = s.calls.set i pc')
    (hops : s'.mPendingOps = s.mPendingOps) (hstage : s'.stage = s.stage)
    (hkernel : ∀ k ∈ s'.kernel, s.Holds k.handle) (hport : ∀ p ∈ s'.port, p ∈ s.port)
    (hheld : ∀ hd, pc'.holds = some hd → s.Holds hd)
    (htaken : ∀ maxEntries n entries p, pc' = .lookup maxEntries n entries p → s.HasPacket p)
    (hold : ∀ hd op, pc' ≠ .emplace hd op) : MapInv resolve s' :=
  h.frame hops (by rw [hstage]) (fun _ => holds_of_set hcalls hheld hkernel hport)
    (fun _ hp => .inl (hasPacket_of_set hcalls htaken hport hp))
    fun _ _ _ hj => (emplace_of_set hcalls hold hj).2

/-- An operation leaves a map together with the last address of it. -/
theorem MapInv.erase (h : MapInv resolve s) {pc' : IocpPc} {t : AsyncIOType} {key : Nat}
    (hcalls : s'.calls = s.calls.set i pc') (hops : s'.mPendingOps =
      Function.update s.mPendingOps t ((s.mPendingOps t).erase key))
    (hstage : s'.stage = s.stage) (hkernel : s'.kernel = s.kernel) (hport : s'.port = s.port)
    (hpc' : pc' = .idle ∨ ∃ maxEntries n entries r, pc' = .count maxEntries n entries r)
    (hlast : s.stage ≠ .cleared → ∀ hd, s.Holds hd → s'.Holds hd → hd.mType = t →
      hd.opKey ≠ key) :
    MapInv resolve s' := by
  have hnone : pc'.holds = none := by
    rcases hpc' with rfl | ⟨maxEntries, n, entries, r, rfl⟩
    · rfl
    · rfl
  have hold : ∀ hd op, pc' ≠ .emplace hd op := by
    rintro hd op rfl
    rcases hpc' with heq | ⟨maxEntries, n, entries, r, heq⟩
    · cases heq
    · cases heq
  have hholds : ∀ hd, s'.Holds hd → s.Holds hd := fun hd hh =>
    holds_of_set hcalls (fun hd' hd'' => absurd (hnone.symm.trans hd'') (by simp))
      (fun k hk => .inr (.inl ⟨k, hkernel ▸ hk, rfl⟩)) (fun p hp => hport ▸ hp) hh
  have hlookup : ∀ t' key' op, (s'.mPendingOps t').lookup key' = some op →
      (s.mPendingOps t').lookup key' = some op := fun t' key' op hop =>
    lookup_of_erase (hops ▸ hop)
  have hmem : ∀ t' key', key' ∈ s'.mPendingOps t' → key' ∈ s.mPendingOps t' := by
    intro t' key' hkey
    obtain ⟨op, hop⟩ := Option.isSome_iff_exists.mp (AList.lookup_isSome.mpr hkey)
    exact AList.lookup_isSome.mp (by rw [hlookup t' key' op hop]; rfl)
  refine ⟨fun hc hd hh => ?_, fun hd hh => h.own hd (hholds hd hh),
    fun t' key' op hop => h.ops t' key' op (hlookup t' key' op hop),
    fun key' hrecv hsend => h.disjoint key' (hmem _ _ hrecv) (hmem _ _ hsend),
    fun j hd op hj => ?_, fun j j' hd op hd' op' hj hj' => ?_, fun p hp => ?_,
    fun hc t' key' hkey => ?_⟩
  · rw [hstage] at hc
    obtain ⟨op, hop, hnumber⟩ := h.mapped hc hd (hholds hd hh)
    refine ⟨op, ?_, hnumber⟩
    rw [hops]
    rcases eq_or_ne hd.mType t with heq | hne
    · have hne := hlast hc hd (hholds hd hh) hh heq
      rw [heq, Function.update_self, AList.lookup_erase_ne hne, ← heq]
      exact hop
    · rw [Function.update_of_ne hne]
      exact hop
  · obtain ⟨hresolve, hnew, hop⟩ := h.fresh j hd op (emplace_of_set hcalls hold hj).2
    exact ⟨hresolve, fun t' hkey => hnew t' (hmem t' _ hkey), hop⟩
  · exact h.distinct j j' hd op hd' op' (emplace_of_set hcalls hold hj).2
      (emplace_of_set hcalls hold hj').2
  · refine h.packets p (hasPacket_of_set hcalls ?_ (fun p hp => hport ▸ hp) hp)
    rintro maxEntries n entries q rfl
    rcases hpc' with heq | ⟨maxEntries', n', entries', r, heq⟩
    · cases heq
    · cases heq
  · rw [hstage] at hc
    exact h.cleared hc t' key' (hmem t' key' hkey)

/-- Nobody has the address of an operation that has just been found. -/
theorem NumInv.number_ne_of_count (h : NumInv s) {maxEntries n k : Nat} {entries : List Reported}
    {r : Reported} (hpc : s.calls[i]? = some (.count maxEntries n entries r))
    (hr : r.number = some k) {hd : Handle} (hh : s.Holds hd) : hd.number ≠ k := by
  rintro rfl
  -- Without the new entry there would still be the address.
  have hholds : (s.goto i (.loop maxEntries n entries)).Holds hd := by
    rcases hh with ⟨pc, hpc', hh⟩ | hh
    · obtain ⟨j, hj⟩ := List.mem_iff_getElem?.mp hpc'
      have hne : i ≠ j := by
        rintro rfl
        rw [hpc] at hj
        cases hj
        cases hh
      have hj' : (s.goto i (.loop maxEntries n entries)).calls[j]? = some pc := by
        rw [Provider.goto, List.getElem?_set_ne hne, hj]
      exact .inl ⟨pc, List.mem_of_getElem? hj', hh⟩
    · exact .inr hh
  have hcount := hholds.counted
  have hearly := Tally.count_flatMap_set IocpPc.early (.loop maxEntries n entries) hpc hd.number
  have hlate := Tally.count_flatMap_set IocpPc.late (.loop maxEntries n entries) hpc hd.number
  have honce := h.once hd.number
  have hplaces := h.places hd.number
  rw [count_places] at hcount hplaces
  simp only [IocpPc.early, IocpPc.late, Reported.numbers, hr, Option.toList_some, List.count_append,
    List.count_nil, List.count_singleton_self] at hearly hlate
  simp only [Provider.early, Provider.goto, Provider.rest] at hcount honce hplaces
  omega

/-- Nobody has the address of an operation that has just been taken out again. -/
theorem NumInv.number_ne_of_undo (h : NumInv s) {hd : Handle}
    (hpc : s.calls[i]? = some (.undo hd)) {hd' : Handle} (h' : NumInv s') (hh : s'.Holds hd')
    (hcalls : s'.calls = s.calls.set i .idle) (haccepted : s'.accepted = s.accepted) :
    hd'.number ≠ hd.number := by
  intro heq
  have hcount := hh.counted
  have hearly := Tally.count_flatMap_set IocpPc.early .idle hpc hd'.number
  have honce := h.once hd'.number
  have hplaces := h'.places hd'.number
  rw [← hcalls] at hearly
  simp only [IocpPc.early, heq, List.count_nil, List.count_singleton_self] at hearly
  rw [heq] at hcount honce hplaces
  rw [haccepted] at hplaces
  simp only [Provider.early] at hcount honce
  omega

/-- An address is that of one operation. -/
theorem MapInv.number_eq (h : MapInv resolve s) (hc : s.stage ≠ .cleared) {hd hd' : Handle}
    (hh : s.Holds hd) (hh' : s.Holds hd') (ht : hd'.mType = hd.mType)
    (hkey : hd'.opKey = hd.opKey) : hd'.number = hd.number := by
  obtain ⟨op, hop, hnumber⟩ := h.mapped hc hd hh
  obtain ⟨op', hop', hnumber'⟩ := h.mapped hc hd' hh'
  rw [ht, hkey, hop] at hop'
  cases hop'
  exact hnumber'.symm.trans hnumber

/-- An operation enters its map. -/
theorem MapInv.emplaced (h : MapInv resolve s) {hd : Handle} {op : PendingOperation} {len : Nat}
    (hpc : s.calls[i]? = some (.emplace hd op)) (hcalls : s'.calls = s.calls.set i (.submit hd len))
    (hops : s'.mPendingOps =
      Function.update s.mPendingOps hd.mType ((s.mPendingOps hd.mType).insert hd.opKey op))
    (hstage : s.stage = .running) (hstage' : s'.stage = .running) (hkernel : s'.kernel = s.kernel)
    (hport : s'.port = s.port) : MapInv resolve s' := by
  obtain ⟨hresolve, hnew, hnumber, hmtype⟩ := h.fresh i hd op hpc
  have hold : ∀ hd' op', IocpPc.submit hd len ≠ .emplace hd' op' := by simp
  have hholds : ∀ hd', s'.Holds hd' → hd' = hd ∨ s.Holds hd' := by
    rintro hd' (⟨pc, hpc', hh⟩ | ⟨k, hk, rfl⟩ | ⟨p, hp, hh⟩)
    · rw [hcalls] at hpc'
      rcases List.mem_or_eq_of_mem_set hpc' with hpc' | rfl
      · exact .inr (.inl ⟨pc, hpc', hh⟩)
      · exact .inl (Option.some.inj hh).symm
    · exact .inr (.inr (.inl ⟨k, hkernel ▸ hk, rfl⟩))
    · exact .inr (.inr (.inr ⟨p, hport ▸ hp, hh⟩))
  have hlookup : ∀ t key op', (s'.mPendingOps t).lookup key = some op' →
      (t = hd.mType ∧ key = hd.opKey ∧ op' = op) ∨
        (¬ (t = hd.mType ∧ key = hd.opKey) ∧ (s.mPendingOps t).lookup key = some op') :=
    fun t key op' hop' => lookup_of_insert (hops ▸ hop')
  have hmem : ∀ t key, key ∈ s'.mPendingOps t → (t = hd.mType ∧ key = hd.opKey) ∨
      key ∈ s.mPendingOps t := by
    intro t key hkey
    obtain ⟨op', hop'⟩ := Option.isSome_iff_exists.mp (AList.lookup_isSome.mpr hkey)
    rcases hlookup t key op' hop' with ⟨ht, hk, -⟩ | ⟨-, hop⟩
    · exact .inl ⟨ht, hk⟩
    · exact .inr (AList.lookup_isSome.mp (by rw [hop]; rfl))
  refine ⟨fun hc hd' hh => ?_, fun hd' hh => ?_, fun t key op' hop' => ?_,
    fun key hrecv hsend => ?_, fun j hd' op' hj => ?_, fun j j' hd₁ op₁ hd₂ op₂ hj hj' => ?_,
    fun p hp => ?_, fun hc => absurd (hstage'.symm.trans hc) (by simp)⟩
  · rw [hops]
    rcases hholds hd' hh with rfl | hh'
    · exact ⟨op, by rw [Function.update_self, AList.lookup_insert], hnumber⟩
    · obtain ⟨op', hop', hn⟩ := h.mapped (by simp [hstage]) hd' hh'
      refine ⟨op', ?_, hn⟩
      rcases eq_or_ne hd'.mType hd.mType with ht | hne
      · have hne : hd'.opKey ≠ hd.opKey := by
          intro heq
          exact hnew hd'.mType (heq ▸ AList.lookup_isSome.mp (by rw [hop']; rfl))
        rw [ht, Function.update_self, AList.lookup_insert_ne hne, ← ht]
        exact hop'
      · rw [Function.update_of_ne hne]
        exact hop'
  · rcases hholds hd' hh with rfl | hh'
    · exact hresolve
    · exact h.own hd' hh'
  · rcases hlookup t key op' hop' with ⟨rfl, rfl, rfl⟩ | ⟨-, hop⟩
    · exact ⟨hmtype, hresolve⟩
    · exact h.ops t key op' hop
  · rcases hmem _ _ hrecv with ⟨ht, rfl⟩ | hrecv
    · rcases hmem _ _ hsend with ⟨ht', -⟩ | hsend
      · rw [← ht] at ht'
        cases ht'
      · exact hnew _ hsend
    · rcases hmem _ _ hsend with ⟨-, rfl⟩ | hsend
      · exact hnew _ hrecv
      · exact h.disjoint key hrecv hsend
  · obtain ⟨hne, hj⟩ := emplace_of_set hcalls hold hj
    obtain ⟨hresolve', hnew', hop'⟩ := h.fresh j hd' op' hj
    refine ⟨hresolve', fun t hkey => ?_, hop'⟩
    rcases hmem t _ hkey with ⟨-, heq⟩ | hkey
    · exact hne (h.distinct j i hd' op' hd op hj hpc heq)
    · exact hnew' t hkey
  · exact h.distinct j j' hd₁ op₁ hd₂ op₂ (emplace_of_set hcalls hold hj).2
      (emplace_of_set hcalls hold hj').2
  · exact h.packets p (hasPacket_of_set hcalls (by simp) (fun p hp => hport ▸ hp) hp)

theorem MapInv.threadMove (h : MapInv resolve s) (hnum : NumInv s) (hnum' : NumInv s')
    (hm : ThreadMove resolve s i s') : MapInv resolve s' := by
  have hkernel : ∀ k ∈ s.kernel, s.Holds k.handle := fun k hk => .inr (.inl ⟨k, hk, rfl⟩)
  -- The thread has no address any more, and takes no completion.
  have hmove : ∀ {u : Provider} {pc' : IocpPc}, u.calls = s.calls.set i pc' →
      u.mPendingOps = s.mPendingOps → u.stage = s.stage → u.kernel = s.kernel → u.port = s.port →
        (∀ hd, pc'.holds = some hd → s.Holds hd) → (∀ hd op, pc' ≠ .emplace hd op) →
          (∀ maxEntries n entries p, pc' ≠ .lookup maxEntries n entries p) → MapInv resolve u := by
    intro u pc' hcalls hops hstage hk hp hheld hold hnew
    exact h.goto hcalls hops hstage (hk ▸ hkernel) (fun p hp' => hp ▸ hp') hheld
      (fun m n es p heq => absurd heq (hnew m n es p)) hold
  cases hm with
  | refused hpc hstage | duplicate hpc hdup | counted hpc | returned hpc | session hpc
  | dropped hpc =>
      exact hmove rfl rfl rfl rfl rfl (by simp [IocpPc.holds]) (by simp) (by simp)
  | failed hpc =>
      refine hmove rfl rfl rfl rfl rfl (fun hd hh => ?_) (by simp) (by simp)
      exact .inl ⟨_, List.mem_of_getElem? hpc, hh⟩
  | @accepted hd len hpc =>
      refine h.goto rfl rfl rfl (fun k hk => ?_) (fun p hp => hp) (by simp [IocpPc.holds]) (by simp)
        (by simp)
      rcases List.mem_append.mp hk with hk | hk
      · exact hkernel k hk
      · rw [List.mem_singleton.mp hk]
        exact .inl ⟨_, List.mem_of_getElem? hpc, rfl⟩
  | @taken maxEntries n entries p port hpc hport =>
      have hp : p ∈ s.port := hport ▸ List.mem_cons_self ..
      refine h.goto rfl rfl rfl hkernel (fun q hq => hport ▸ List.mem_cons_of_mem p hq)
        (fun hd hh => .inr (.inr ⟨p, hp, hh⟩)) ?_ (by simp)
      intro maxEntries' n' entries' q heq
      cases heq
      exact .inl hp
  | @undone hd hpc =>
      refine h.erase rfl rfl rfl rfl rfl (.inl rfl) fun hc hd' hh hh' ht hkey => ?_
      have hundo : s.Holds hd := .inl ⟨_, List.mem_of_getElem? hpc, rfl⟩
      exact hnum.number_ne_of_undo hpc hnum' hh' rfl rfl (h.number_eq hc hundo hh ht hkey)
  | emplaced hpc hstage hnew => exact h.emplaced hpc rfl rfl hstage hstage rfl rfl
  | @found maxEntries n entries p key t op hpc hkey hfind =>
      have hp : s.HasPacket p := .inr ⟨_, _, _, List.mem_of_getElem? hpc⟩
      obtain ⟨hd, hhandle, hnumber, rfl, rfl⟩ := h.found hp hkey hfind
      refine h.erase rfl rfl rfl rfl rfl (.inr ⟨_, _, _, _, rfl⟩) fun hc hd' hh hh' ht hkey => ?_
      have heq := h.number_eq hc (hp.holds hhandle) hh ht hkey
      have hi : i < s.calls.length := (List.getElem?_eq_some_iff.mp hpc).1
      exact hnum'.number_ne_of_count (by rw [Provider.goto, List.getElem?_set_self hi])
        (congrArg some hnumber.symm) hh' heq

/-- The operation is the same, but for the buffer. -/
theorem PendingOperation.transfer_eq_some {op op' : PendingOperation} {bytes : List UInt8}
    (h : op.transfer bytes = some op') : op'.number = op.number ∧ op'.mType = op.mType ∧
      op'.mContext = op.mContext ∧ op'.mCallerSize = op.mCallerSize ∧
        (op.mType = .send → op' = op ∧ bytes <+: op.mBuffer) ∧
          (op.mType = .recv → op'.mBuffer = bytes ++ op.mBuffer.drop bytes.length) := by
  unfold PendingOperation.transfer at h
  cases ht : op.mType with
  | send =>
      simp only [ht] at h
      split at h
      next heq =>
        cases h
        exact ⟨rfl, ht, rfl, rfl, fun _ => ⟨rfl, heq ▸ List.take_prefix _ _⟩,
          fun hr => (by cases hr)⟩
      · cases h
  | recv =>
      simp only [ht] at h
      cases h
      exact ⟨rfl, rfl, rfl, rfl, fun hs => (by cases hs), fun _ => rfl⟩

/-- The kernel writes to an operation, if it is still there. -/
structure Rewrites (s s' : Provider) (hd : Handle) : Prop where
  lookup : ∀ t key, (s'.mPendingOps t).lookup key = (s.mPendingOps t).lookup key ∨
    (t = hd.mType ∧ key = hd.opKey ∧ ∃ op op', (s.mPendingOps t).lookup key = some op ∧
      (s'.mPendingOps t).lookup key = some op' ∧ op'.number = op.number ∧ op'.mType = op.mType)

theorem Rewrites.mem {hd : Handle} (h : Rewrites s s' hd) (t : AsyncIOType) (key : Nat) :
    key ∈ s'.mPendingOps t ↔ key ∈ s.mPendingOps t := by
  rw [← AList.lookup_isSome, ← AList.lookup_isSome]
  rcases h.lookup t key with heq | ⟨-, -, op, op', hop, hop', -, -⟩
  · rw [heq]
  · rw [hop, hop']
    rfl

/-- The kernel is done with an operation. -/
theorem MapInv.complete (h : MapInv resolve s) {k : Nat} {kop : KernelOp} {p : Packet}
    (hk : s.kernel[k]? = some kop) (hcalls : s'.calls = s.calls) (hstage : s'.stage = s.stage)
    (hkernel : s'.kernel = s.kernel.eraseIdx k) (hport : s'.port = s.port ∨ s'.port = s.port ++ [p])
    (hp : p.handle = some kop.handle ∧ p.pOverlapped = some kop.handle.opKey)
    (hrewrites : Rewrites s s' kop.handle) : MapInv resolve s' := by
  have hkop : s.Holds kop.handle := .inr (.inl ⟨kop, List.mem_of_getElem? hk, rfl⟩)
  have hportMem : ∀ q ∈ s'.port, q ∈ s.port ∨ q = p := by
    intro q hq
    rcases hport with hport | hport
    · exact .inl (hport ▸ hq)
    · rw [hport] at hq
      rcases List.mem_append.mp hq with hq | hq
      · exact .inl hq
      · exact .inr (List.mem_singleton.mp hq)
  have hholds : ∀ hd, s'.Holds hd → s.Holds hd := by
    rintro hd (⟨pc, hpc, hh⟩ | ⟨x, hx, rfl⟩ | ⟨q, hq, hh⟩)
    · exact .inl ⟨pc, hcalls ▸ hpc, hh⟩
    · exact .inr (.inl ⟨x, List.mem_of_mem_eraseIdx (hkernel ▸ hx), rfl⟩)
    · rcases hportMem q hq with hq | rfl
      · exact .inr (.inr ⟨q, hq, hh⟩)
      · rw [hp.1] at hh
        cases hh
        exact hkop
  refine ⟨fun hc hd hh => ?_, fun hd hh => h.own hd (hholds hd hh), fun t key op hop => ?_,
    fun key hrecv hsend => ?_, fun j hd op hj => ?_, fun j j' hd op hd' op' hj hj' => ?_,
    fun q hq => ?_, fun hc t key hkey => ?_⟩
  · rw [hstage] at hc
    obtain ⟨op, hop, hn⟩ := h.mapped hc hd (hholds hd hh)
    rcases hrewrites.lookup hd.mType hd.opKey with heq | ⟨-, -, op₁, op₂, hop₁, hop₂, hn₂, -⟩
    · exact ⟨op, heq.trans hop, hn⟩
    · rw [hop] at hop₁
      cases hop₁
      exact ⟨op₂, hop₂, hn₂.trans hn⟩
  · rcases hrewrites.lookup t key with heq | ⟨-, -, op₁, op₂, hop₁, hop₂, -, ht⟩
    · exact h.ops t key op (heq ▸ hop)
    · rw [hop] at hop₂
      cases hop₂
      exact ⟨ht.trans (h.ops t key op₁ hop₁).1, (h.ops t key op₁ hop₁).2⟩
  · exact h.disjoint key ((hrewrites.mem _ _).mp hrecv) ((hrewrites.mem _ _).mp hsend)
  · rw [hcalls] at hj
    obtain ⟨hresolve, hnew, hop⟩ := h.fresh j hd op hj
    exact ⟨hresolve, fun t hkey => hnew t ((hrewrites.mem _ _).mp hkey), hop⟩
  · rw [hcalls] at hj hj'
    exact h.distinct j j' hd op hd' op' hj hj'
  · rcases hq with hq | ⟨maxEntries, n, entries, hq⟩
    · rcases hportMem q hq with hq | rfl
      · exact h.packets q (.inl hq)
      · refine ⟨fun hd hh => ?_, fun hnone => ?_⟩
        · rw [hp.1] at hh
          cases hh
          exact hp.2
        · rw [hp.1] at hnone
          cases hnone
    · exact h.packets q (.inr ⟨maxEntries, n, entries, hcalls ▸ hq⟩)
  · rw [hstage] at hc
    exact h.cleared hc t key ((hrewrites.mem _ _).mp hkey)

/-- A call has made an operation. -/
theorem MapInv.request (h : MapInv resolve s) {hd : Handle} {op : PendingOperation}
    (hpc : s.calls[i]? = some .idle) (hfresh : s.Fresh resolve hd.opKey)
    (hcalls : s'.calls = s.calls.set i (.emplace hd op)) (hops : s'.mPendingOps = s.mPendingOps)
    (hstage : s'.stage = s.stage) (hkernel : s'.kernel = s.kernel) (hport : s'.port = s.port)
    (hop : op.number = hd.number ∧ op.mType = hd.mType) : MapInv resolve s' := by
  obtain ⟨hresolve, hrecv, hsend, hallocated⟩ := hfresh
  have hi : i < s.calls.length := (List.getElem?_eq_some_iff.mp hpc).1
  -- A thread with an operation is this one, or had it before and at another address.
  have hcases : ∀ (j : Nat) hd' op', s'.calls[j]? = some (.emplace hd' op') →
      (j = i ∧ hd' = hd ∧ op' = op) ∨
        (s.calls[j]? = some (.emplace hd' op') ∧ hd'.opKey ≠ hd.opKey) := by
    intro j hd' op' hj
    rw [hcalls, List.getElem?_set] at hj
    split at hj
    next heq =>
      cases hj
      exact .inl ⟨heq.symm, rfl, rfl⟩
    next hne =>
      exact .inr ⟨hj, fun heq => hallocated _ (List.mem_of_getElem? hj) (congrArg some heq)⟩
  have hholds : ∀ hd', s'.Holds hd' → s.Holds hd' := fun hd' hh =>
    holds_of_set hcalls (by simp [IocpPc.holds]) (fun k hk => .inr (.inl ⟨k, hkernel ▸ hk, rfl⟩))
      (fun p hp => hport ▸ hp) hh
  refine ⟨fun hc hd' hh => ?_, fun hd' hh => h.own hd' (hholds hd' hh),
    fun t key op' hop' => h.ops t key op' (hops ▸ hop'), hops ▸ h.disjoint, fun j hd' op' hj => ?_,
    fun j j' hd₁ op₁ hd₂ op₂ hj hj' heq => ?_, fun p hp => ?_, fun hc => ?_⟩
  · rw [hops]
    exact h.mapped (hstage ▸ hc) hd' (hholds hd' hh)
  · rw [hops]
    rcases hcases j hd' op' hj with ⟨-, rfl, rfl⟩ | ⟨hj, -⟩
    · refine ⟨hresolve, fun t => ?_, hop⟩
      cases t with
      | send => exact hsend
      | recv => exact hrecv
    · exact h.fresh j hd' op' hj
  · rcases hcases j hd₁ op₁ hj with ⟨rfl, rfl, -⟩ | ⟨hj, hne⟩
    · rcases hcases j' hd₂ op₂ hj' with ⟨rfl, -, -⟩ | ⟨-, hne'⟩
      · rfl
      · exact absurd heq.symm hne'
    · rcases hcases j' hd₂ op₂ hj' with ⟨-, rfl, -⟩ | ⟨hj', -⟩
      · exact absurd heq hne
      · exact h.distinct j j' hd₁ op₁ hd₂ op₂ hj hj' heq
  · exact h.packets p (hasPacket_of_set hcalls (by simp) (fun p hp => hport ▸ hp) hp)
  · rw [hops]
    exact h.cleared (hstage ▸ hc)

theorem MapInv.otherMove (h : MapInv resolve s) (hm : OtherMove resolve s s') :
    MapInv resolve s' := by
  have hkernel : ∀ k ∈ s.kernel, s.Holds k.handle := fun k hk => .inr (.inl ⟨k, hk, rfl⟩)
  cases hm with
  | rejected => exact h
  | process hpc =>
      exact h.goto rfl rfl rfl hkernel (fun p hp => hp) (by simp [IocpPc.holds]) (by simp) (by simp)
  | @request i r opKey hpc hfresh =>
      have hop : (r.operation s.requests.length).number = s.requests.length ∧
          (r.operation s.requests.length).mType = r.type := by
        cases hr : r.type <;> simp [Request.operation, hr]
      exact h.request hpc hfresh rfl rfl rfl rfl rfl hop
  | @complete k completionKey a op ops hk hlen hops =>
      let p : Packet := ⟨some op.handle.opKey, completionKey, a, some op.handle⟩
      refine h.complete (p := p) hk rfl rfl rfl ?_ ⟨rfl, rfl⟩ ⟨fun t key => ?_⟩
      · split
        · exact .inr rfl
        · exact .inl rfl
      · rcases hops with ⟨-, rfl⟩ | ⟨pop, pop', hpop, htransfer, rfl⟩
        · exact .inl rfl
        · obtain ⟨hnumber, hmtype, -⟩ := PendingOperation.transfer_eq_some htransfer
          dsimp only
          rcases eq_or_ne t op.handle.mType with rfl | hne
          · rcases eq_or_ne key op.handle.opKey with rfl | hne'
            · refine .inr ⟨rfl, rfl, pop, pop', hpop, ?_, hnumber, hmtype⟩
              rw [Function.update_self, AList.lookup_insert]
            · left
              rw [Function.update_self, AList.lookup_insert_ne hne']
          · left
            rw [Function.update_of_ne hne]
  | @foreign p hhandle hkey hopen =>
      refine h.frame rfl Iff.rfl (fun hd hh => ?_) (fun q hq => ?_) fun j hd op hj => hj
      · rcases hh with hh | hh | ⟨q, hq, hh⟩
        · exact .inl hh
        · exact .inr (.inl hh)
        · rcases List.mem_append.mp hq with hq | hq
          · exact .inr (.inr ⟨q, hq, hh⟩)
          · rw [List.mem_singleton.mp hq, hhandle] at hh
            cases hh
      · rcases hq with hq | hq
        · rcases List.mem_append.mp hq with hq | hq
          · exact .inl (.inl hq)
          · rw [List.mem_singleton.mp hq]
            exact .inr ⟨hhandle, hkey⟩
        · exact .inl (.inr hq)
  | flag hstage hopen hopen' =>
      exact h.frame rfl (iff_of_false hstage.2.2 hstage.1) (fun hd hh => hh) (fun p hp => .inl hp)
        fun j hd op hj => hj
  | close hstage =>
      refine h.frame rfl (iff_of_false (by simp) (by simp [hstage])) (fun hd hh => ?_)
        (fun p hp => ?_) fun j hd op hj => hj
      · rcases hh with hh | hh | ⟨q, hq, -⟩
        · exact .inl hh
        · exact .inr (.inl hh)
        · cases hq
      · rcases hp with hp | hp
        · cases hp
        · exact .inl (.inr hp)
  | clear hstage =>
      have hempty : ∀ (t : AsyncIOType) (key : Nat),
          key ∉ (fun _ => ∅ : AsyncIOType → AList fun _ : Nat => PendingOperation) t :=
        fun _ => AList.notMem_empty
      exact ⟨fun hc => absurd rfl hc, h.own, fun t key op hop => (by cases hop),
        fun key hkey => absurd hkey (hempty .recv key),
        fun j hd op hj => ⟨(h.fresh j hd op hj).1, fun t => hempty t _, (h.fresh j hd op hj).2.2⟩,
        h.distinct, h.packets, fun _ => hempty⟩

/-! ## Whole runs -/

variable {as : List IocpAct} {threads : Nat}

theorem flatMap_replicate_idle {β : Type} {f : IocpPc → List β} (hf : f .idle = []) :
    (List.replicate threads IocpPc.idle).flatMap f = [] :=
  List.flatMap_eq_nil_iff.mpr fun pc hpc => by rw [List.eq_of_mem_replicate hpc, hf]

theorem numInv_init (threads : Nat) : NumInv (.init threads) := by
  have hearly : (Provider.init threads).early = [] := flatMap_replicate_idle rfl
  have hplaces : (Provider.init threads).places = [] := by
    have hlate : (Provider.init threads).calls.flatMap IocpPc.late = [] :=
      flatMap_replicate_idle rfl
    simp only [Provider.places, hlate]
    rfl
  refine ⟨fun n hn => ?_, fun n => ?_, fun n => ?_, fun _ n => Nat.zero_le _⟩
  · rw [hearly] at hn
    cases hn
  · rw [hearly]
    exact Nat.zero_le _
  · rw [hplaces]
    exact Nat.zero_le _

theorem mapInv_init (resolve : Nat → Option AsyncIOType) (threads : Nat) :
    MapInv resolve (.init threads) := by
  have hidle : ∀ pc ∈ (Provider.init threads).calls, pc = .idle :=
    fun pc hpc => List.eq_of_mem_replicate hpc
  have hemplace : ∀ (j : Nat) hd op, (Provider.init threads).calls[j]? ≠ some (.emplace hd op) :=
    fun j hd op hj => by cases hidle _ (List.mem_of_getElem? hj)
  have hholds : ∀ hd, ¬ (Provider.init threads).Holds hd := by
    rintro hd (⟨pc, hpc, hh⟩ | ⟨k, hk, -⟩ | ⟨p, hp, -⟩)
    · rw [hidle pc hpc] at hh
      cases hh
    · cases hk
    · cases hp
  have hpacket : ∀ p, ¬ (Provider.init threads).HasPacket p := by
    rintro p (hp | ⟨maxEntries, n, entries, hp⟩)
    · cases hp
    · cases hidle _ hp
  exact ⟨fun _ hd hh => absurd hh (hholds hd), fun hd hh => absurd hh (hholds hd),
    fun t key op hop => (by cases hop), fun key hkey => absurd hkey (AList.notMem_empty key),
    fun j hd op hj => absurd hj (hemplace j hd op),
    fun j j' hd op hd' op' hj _ => absurd hj (hemplace j hd op),
    fun p hp => absurd hp (hpacket p), fun hc => (by cases hc)⟩

theorem inv_step {a : IocpAct} (hn : NumInv s) (hmap : MapInv resolve s)
    (hs : iocpStep resolve s a = some s') : NumInv s' ∧ MapInv resolve s' := by
  rcases iocpStep_cases hs with ⟨i, answer, -, hm⟩ | hm
  · have hn' := hn.threadMove hmap hm
    exact ⟨hn', hmap.threadMove hn hn' hm⟩
  · exact ⟨hn.otherMove hm, hmap.otherMove hm⟩

theorem inv_run (hrun : Machine.run (iocpStep resolve) (.init threads) as = some s) :
    NumInv s ∧ MapInv resolve s := by
  refine Machine.run_invariant (I := fun s => NumInv s ∧ MapInv resolve s) ?_
    ⟨numInv_init threads, mapInv_init resolve threads⟩ hrun
  rintro u a u' ⟨hn, hmap⟩ hs
  exact inv_step hn hmap hs

/-- Every request that `WSASend` or `WSARecv` has accepted is in one place: with the kernel, in
the port, with a thread in `ProcessCompletions`, or among the entries that have been returned.
After the port has been closed it is in one place at most. -/
theorem completions_conserved
    (hrun : Machine.run (iocpStep resolve) (.init threads) as = some s) :
    s.accepted.Nodup ∧ s.places.Nodup ∧ (∀ n ∈ s.places, n ∈ s.accepted) ∧
      (s.isOpen = true → s.places.Perm s.accepted) := by
  obtain ⟨h, -⟩ := inv_run hrun
  have haccepted : ∀ n, s.accepted.count n ≤ 1 := fun n => (Nat.le_add_left _ _).trans (h.once n)
  refine ⟨List.nodup_iff_count_le_one.mpr haccepted,
    List.nodup_iff_count_le_one.mpr fun n => (h.places n).trans (haccepted n), fun n hn => ?_,
    fun hopen => ?_⟩
  · exact List.count_pos_iff.mp ((List.count_pos_iff.mpr hn).trans_le (h.places n))
  · exact List.perm_iff_count.mpr fun n => Nat.le_antisymm (h.places n) (h.kept hopen n)

/-- A receive is completed, and a worker takes the completion while another thread sends. -/
def receivedTrace : List IocpAct :=
  [.recvAsync 0 5 [0, 0, 0] 100, .thread 0 true, .thread 0 true, .sendAsync 0 6 [7] 200,
    .complete 0 5 ⟨true, [1, 2], 0⟩, .process 1 4, .thread 1 true, .thread 0 true, .thread 0 true]

theorem completions_conserved_received :
    ∃ s, Machine.run (iocpStep fun _ => none) (.init 2) receivedTrace = some s ∧
      s.accepted = [0, 1] ∧ s.places = [1, 0] ∧ (s.accepted.Nodup ∧ s.places.Nodup ∧
        (∀ n ∈ s.places, n ∈ s.accepted) ∧ (s.isOpen = true → s.places.Perm s.accepted)) := by
  have hrun : (Machine.run (iocpStep fun _ => none) (.init 2) receivedTrace).any (fun s =>
      decide (s.accepted = [0, 1] ∧ s.places = [1, 0])) = true := by decide +kernel
  obtain ⟨s, hs, hp⟩ := (Option.any_eq_true _ _).mp hrun
  obtain ⟨haccepted, hplaces⟩ := of_decide_eq_true hp
  exact ⟨s, hs, haccepted, hplaces, completions_conserved hs⟩

end

end NetworkModule.Iocp
