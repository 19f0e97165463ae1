import NetworkModule.Lib.Machine

/-!
# What the RIO provider keeps for each socket

`RIOAsyncIOProvider` has a request queue (`mRequestQueues`) and a slot of the receive pool
(`mSocketRecvSlot`) for each socket, by the value of the handle.  It drops both in one place
only: where `ProcessCompletions` takes out a receive that has failed or has got no bytes.  A
socket that is closed while no receive is outstanding leaves its queue and its slot behind,
and the next socket with the same handle gets them.

`tidy_of_meets` says when everything is dropped in time: a socket with a queue or a slot is
closed only while a receive is outstanding, a receive of a closed socket does not complete with
bytes, `AssociateSocket` is called for open sockets only, and the handle of a closed socket is
used again only after its queue and its slot have been dropped.

Each operation of the provider is one step.  A *generation* is a number that the model gives to
each socket, so that two sockets with one handle can be told apart.
-/

namespace NetworkModule.RioSockets

/-! ## The provider -/

def INVALID_SOCKET : Nat := 2 ^ 64 - 1

/-- `mSendPool.SlotSize()`. -/
def slotSize : Nat := 8192

inductive AsyncIOError where
  | success
  | invalidBuffer
  | invalidSocket
  | noResources
  | operationFailed
  deriving DecidableEq, Repr

inductive AsyncIOType where
  | recv
  | send
  deriving DecidableEq, Repr

/-- `PendingOperation`. -/
structure PendingOperation where
  mSocket : Nat
  mType : AsyncIOType
  /-- The socket of the request queue that the operation was put on. -/
  generation : Nat
  mSendSlotIdx : Option Nat := none
  deriving DecidableEq, Repr

/-- An entry of `mSocketRecvSlot`. -/
structure RecvSlot where
  socket : Nat
  index : Nat
  /-- The socket that was open when the slot was taken. -/
  generation : Nat
  deriving DecidableEq, Repr

structure Provider where
  /-- The queue is known by the socket that it was made for. -/
  mRequestQueues : Nat → Option Nat := fun _ => none
  mSocketRecvSlot : List RecvSlot := []
  mRecvPool : List Nat
  mSendPool : List Nat
  mPendingOps : List PendingOperation := []

/-- `mSocketRecvSlot.find`. -/
def Provider.recvSlot (p : Provider) (socket : Nat) : Option RecvSlot :=
  p.mSocketRecvSlot.find? fun entry => entry.socket = socket

/-- `GetOrCreateRequestQueue`.  `created` is what `RIOCreateRequestQueue` gives. -/
def Provider.getOrCreateRequestQueue (p : Provider) (socket : Nat) (created : Option Nat) :
    Provider × Except AsyncIOError Nat :=
  if socket = INVALID_SOCKET then (p, .error .invalidSocket)
  else
    match p.mRequestQueues socket with
    | some queue => (p, .ok queue)
    | none =>
        match created with
        | none => (p, .error .operationFailed)
        | some queue =>
            ({ p with mRequestQueues := Function.update p.mRequestQueues socket (some queue) },
              .ok queue)

/-- `AssociateSocket`, for the socket `generation` if the handle is open. -/
def Provider.associateSocket (p : Provider) (socket : Nat) (created : Option Nat)
    (generation : Nat) : Provider × AsyncIOError :=
  match p.getOrCreateRequestQueue socket created with
  | (p, .error error) => (p, error)
  | (p, .ok _) =>
      match p.recvSlot socket with
      | some _ => (p, .success)
      | none =>
          match p.mRecvPool.getLast? with
          | none => (p, .noResources)
          | some index =>
              ({ p with
                mRecvPool := p.mRecvPool.dropLast
                mSocketRecvSlot := ⟨socket, index, generation⟩ :: p.mSocketRecvSlot }, .success)

/-- `SendAsync`.  `posted` is what `RIOSend` gives for the request queue. -/
def Provider.sendAsync (p : Provider) (socket size : Nat) (created : Option Nat)
    (posted : Nat → Bool) : Provider × AsyncIOError :=
  if size = 0 then (p, .invalidBuffer)
  else
    match p.getOrCreateRequestQueue socket created with
    | (p, .error error) => (p, error)
    | (p, .ok queue) =>
        if slotSize < size then (p, .invalidBuffer)
        else
          match p.mSendPool.getLast? with
          | none => (p, .noResources)
          | some index =>
              if posted queue then
                ({ p with
                  mSendPool := p.mSendPool.dropLast
                  mPendingOps := p.mPendingOps ++ [⟨socket, .send, queue, some index⟩] }, .success)
              else (p, .operationFailed)

/-- `RecvAsync`.  `posted` is what `RIOReceive` gives for the request queue. -/
def Provider.recvAsync (p : Provider) (socket size : Nat) (created : Option Nat)
    (posted : Nat → Bool) : Provider × AsyncIOError :=
  if size = 0 then (p, .invalidBuffer)
  else
    match p.getOrCreateRequestQueue socket created with
    | (p, .error error) => (p, error)
    | (p, .ok queue) =>
        match p.recvSlot socket with
        | none => (p, .invalidSocket)
        | some _ =>
            if posted queue then
              ({ p with mPendingOps := p.mPendingOps ++ [⟨socket, .recv, queue, none⟩] }, .success)
            else (p, .operationFailed)

/-- A `RIORESULT`. -/
structure RioResult where
  hasError : Bool
  BytesTransferred : Nat
  deriving DecidableEq, Repr

/-- `isDisconnect`. -/
def RioResult.isDisconnect (result : RioResult) (mType : AsyncIOType) : Bool :=
  result.hasError || (mType = .recv && result.BytesTransferred = 0)

/-- What `ProcessCompletions` does for an operation. -/
def Provider.complete (p : Provider) (i : Nat) (op : PendingOperation) (result : RioResult) :
    Provider :=
  let p := { p with
    mPendingOps := p.mPendingOps.eraseIdx i
    mSendPool := p.mSendPool ++ op.mSendSlotIdx.toList }
  if result.isDisconnect op.mType = true ∧ op.mType = .recv then
    let p := { p with mRequestQueues := Function.update p.mRequestQueues op.mSocket none }
    match p.recvSlot op.mSocket with
    | none => p
    | some entry =>
        { p with
          mRecvPool := p.mRecvPool ++ [entry.index]
          mSocketRecvSlot := p.mSocketRecvSlot.erase entry }
  else p

/-! ## The engine and the sockets -/

/-- An open socket. -/
structure OpenSocket where
  handle : Nat
  generation : Nat
  /-- `AssociateSocket` has succeeded for it. -/
  associated : Bool := false
  deriving DecidableEq, Repr

structure System where
  provider : Provider
  sockets : List OpenSocket := []
  /-- How many sockets there have been. -/
  accepted : Nat := 0

/-- The open socket with the handle. -/
def System.openAt (s : System) (handle : Nat) : Option OpenSocket :=
  s.sockets.find? fun socket => socket.handle = handle

/-- What happens next. -/
inductive Act where
  | accept (handle : Nat)
  | associate (socket : Nat) (created : Bool)
  | recv (socket size : Nat) (created posted : Bool)
  | send (socket size : Nat) (created posted : Bool)
  /-- The completion of the operation `i` is dequeued. -/
  | complete (i : Nat) (result : RioResult)
  | close (handle : Nat)
  deriving DecidableEq, Repr

/-- A request queue can be made for an open socket only. -/
def System.creates (s : System) (socket : Nat) (created : Bool) : Option Nat :=
  if created then (s.openAt socket).map OpenSocket.generation else none

/-- An operation can be put on the queue of an open socket only. -/
def System.posts (s : System) (socket : Nat) (posted : Bool) (queue : Nat) : Bool :=
  posted && ((s.openAt socket).map OpenSocket.generation = some queue)

def System.associated (s : System) (handle : Nat) : List OpenSocket :=
  s.sockets.map fun socket =>
    if socket.handle = handle then { socket with associated := true } else socket

/-- One step. -/
def step (s : System) : Act → Option System
  | .accept handle =>
      if s.openAt handle = none ∧ handle ≠ INVALID_SOCKET then
        some { s with
          sockets := ⟨handle, s.accepted, false⟩ :: s.sockets
          accepted := s.accepted + 1 }
      else none
  | .associate socket created =>
      let generation := ((s.openAt socket).map OpenSocket.generation).getD s.accepted
      let result := s.provider.associateSocket socket (s.creates socket created) generation
      some { s with
        provider := result.1
        sockets := if result.2 = .success then s.associated socket else s.sockets }
  | .recv socket size created posted =>
      some { s with
        provider := (s.provider.recvAsync socket size (s.creates socket created)
          (s.posts socket posted)).1 }
  | .send socket size created posted =>
      some { s with
        provider := (s.provider.sendAsync socket size (s.creates socket created)
          (s.posts socket posted)).1 }
  | .complete i result =>
      match s.provider.mPendingOps[i]? with
      | some op => some { s with provider := s.provider.complete i op result }
      | none => none
  | .close handle =>
      match s.openAt handle with
      | some socket => some { s with sockets := s.sockets.erase socket }
      | none => none

/-! ## What should be left -/

/-- The socket is open. -/
def System.IsOpen (s : System) (handle generation : Nat) : Prop :=
  ∃ socket ∈ s.sockets, socket.handle = handle ∧ socket.generation = generation

/-- An operation of the socket has not completed. -/
def System.Busy (s : System) (handle generation : Nat) : Prop :=
  ∃ op ∈ s.provider.mPendingOps, op.mSocket = handle ∧ op.generation = generation

instance (s : System) (handle generation : Nat) : Decidable (s.IsOpen handle generation) :=
  inferInstanceAs (Decidable (∃ socket ∈ s.sockets, _))

instance (s : System) (handle generation : Nat) : Decidable (s.Busy handle generation) :=
  inferInstanceAs (Decidable (∃ op ∈ s.provider.mPendingOps, _))

/-- The closed sockets with operations that have not completed. -/
def System.closing (s : System) : List (Nat × Nat) :=
  (s.provider.mPendingOps.map fun op => (op.mSocket, op.generation)).dedup.filter fun socket =>
    ¬ s.IsOpen socket.1 socket.2

/-- `slots` are the receive slots that there are. -/
structure Tidy (slots : List Nat) (s : System) : Prop where
  /-- The slots that are not in the pool are the ones in the map. -/
  pool : (s.provider.mRecvPool ++ s.provider.mSocketRecvSlot.map RecvSlot.index).Perm slots
  /-- Nothing is left in the maps for a closed socket whose operations have completed. -/
  no_queue : ∀ handle generation, s.provider.mRequestQueues handle = some generation →
    s.IsOpen handle generation ∨ s.Busy handle generation
  no_slot : ∀ entry ∈ s.provider.mSocketRecvSlot,
    s.IsOpen entry.socket entry.generation ∨ s.Busy entry.socket entry.generation
  /-- The request queue and the slot of an open socket are its own. -/
  fresh_queue : ∀ socket ∈ s.sockets, ∀ generation,
    s.provider.mRequestQueues socket.handle = some generation → generation = socket.generation
  fresh_slot : ∀ socket ∈ s.sockets, ∀ entry ∈ s.provider.mSocketRecvSlot,
    entry.socket = socket.handle → entry.generation = socket.generation
  /-- There are no more used slots than open associated sockets, and closed sockets with
  operations that have not completed. -/
  used_le : s.provider.mSocketRecvSlot.length ≤
    (s.sockets.filter OpenSocket.associated).length + s.closing.length

/-- The provider has something for the handle. -/
def Provider.Keeps (p : Provider) (handle : Nat) : Prop :=
  p.mRequestQueues handle ≠ none ∨ p.recvSlot handle ≠ none

instance (p : Provider) (handle : Nat) : Decidable (p.Keeps handle) :=
  inferInstanceAs (Decidable (_ ∨ _))

/-- A receive of the socket has not completed. -/
def System.Receiving (s : System) (handle generation : Nat) : Prop :=
  ∃ op ∈ s.provider.mPendingOps,
    op.mSocket = handle ∧ op.generation = generation ∧ op.mType = .recv

instance (s : System) (handle generation : Nat) : Decidable (s.Receiving handle generation) :=
  inferInstanceAs (Decidable (∃ op ∈ s.provider.mPendingOps, _))

/-- When nothing is left behind. -/
def Orderly (s : System) : Act → Prop
  -- The queue and the slot of the last socket with the handle have been dropped.
  | .accept handle => ¬ s.provider.Keeps handle
  | .associate socket _ => s.openAt socket ≠ none
  -- A receive of a closed socket gets no bytes.
  | .complete i result =>
      ∀ op ∈ s.provider.mPendingOps[i]?, op.mType = .recv →
        s.IsOpen op.mSocket op.generation ∨ result.isDisconnect .recv = true
  -- A receive of the socket will complete.
  | .close handle =>
      ∀ socket ∈ s.openAt handle, s.provider.Keeps handle →
        s.Receiving handle socket.generation
  | .recv _ _ _ _ | .send _ _ _ _ => True

instance (s : System) : (a : Act) → Decidable (Orderly s a)
  | .accept handle => inferInstanceAs (Decidable (¬ s.provider.Keeps handle))
  | .associate socket _ => inferInstanceAs (Decidable (s.openAt socket ≠ none))
  | .complete i _ => inferInstanceAs (Decidable (∀ op ∈ s.provider.mPendingOps[i]?, _))
  | .close handle => inferInstanceAs (Decidable (∀ socket ∈ s.openAt handle, _))
  | .recv _ _ _ _ => isTrue trivial
  | .send _ _ _ _ => isTrue trivial

/-! ## The invariant -/

/-- What holds after every orderly run.  A receive that has not completed is what will drop
the queue and the slot of a closed socket. -/
structure Kept (slots : List Nat) (s : System) : Prop where
  pool : (s.provider.mRecvPool ++ s.provider.mSocketRecvSlot.map RecvSlot.index).Perm slots
  keys : (s.provider.mSocketRecvSlot.map RecvSlot.socket).Nodup
  handles : (s.sockets.map OpenSocket.handle).Nodup
  queue : ∀ handle generation, s.provider.mRequestQueues handle = some generation →
    s.IsOpen handle generation ∨ s.Receiving handle generation
  slot : ∀ entry ∈ s.provider.mSocketRecvSlot,
    s.IsOpen entry.socket entry.generation ∨ s.Receiving entry.socket entry.generation
  own_queue : ∀ socket ∈ s.sockets, ∀ generation,
    s.provider.mRequestQueues socket.handle = some generation → generation = socket.generation
  own_slot : ∀ socket ∈ s.sockets, ∀ entry ∈ s.provider.mSocketRecvSlot,
    entry.socket = socket.handle → entry.generation = socket.generation ∧ socket.associated = true

variable {slots : List Nat} {s s' : System}

theorem System.Receiving.busy {handle generation : Nat} (h : s.Receiving handle generation) :
    s.Busy handle generation := by
  obtain ⟨op, hop, hsocket, hgeneration, -⟩ := h
  exact ⟨op, hop, hsocket, hgeneration⟩

theorem mem_closing {handle generation : Nat} (hbusy : s.Busy handle generation)
    (hclosed : ¬ s.IsOpen handle generation) : (handle, generation) ∈ s.closing := by
  obtain ⟨op, hop, rfl, rfl⟩ := hbusy
  refine List.mem_filter.mpr ⟨?_, by simpa using hclosed⟩
  exact List.mem_dedup.mpr (List.mem_map_of_mem hop)

/-- Different slots belong to different sockets that are open and associated, or closing. -/
theorem Kept.used_le (h : Kept slots s) : s.provider.mSocketRecvSlot.length ≤
    (s.sockets.filter OpenSocket.associated).length + s.closing.length := by
  have hnodup : (s.provider.mSocketRecvSlot.map fun entry =>
      (entry.socket, entry.generation)).Nodup := by
    refine List.Nodup.of_map Prod.fst ?_
    rw [List.map_map]
    exact h.keys
  have hsub : (s.provider.mSocketRecvSlot.map fun entry => (entry.socket, entry.generation)) ⊆
      (s.sockets.filter OpenSocket.associated).map
        (fun socket => (socket.handle, socket.generation)) ++ s.closing := by
    intro key hkey
    obtain ⟨entry, hentry, rfl⟩ := List.mem_map.mp hkey
    by_cases hopen : s.IsOpen entry.socket entry.generation
    · obtain ⟨socket, hsocket, hhandle, hgeneration⟩ := hopen
      obtain ⟨-, hassociated⟩ := h.own_slot socket hsocket entry hentry hhandle.symm
      refine List.mem_append_left _ (List.mem_map.mpr ⟨socket, ?_, by rw [hhandle, hgeneration]⟩)
      exact List.mem_filter.mpr ⟨hsocket, hassociated⟩
    · have hreceiving := (h.slot entry hentry).resolve_left hopen
      exact List.mem_append_right _ (mem_closing hreceiving.busy hopen)
  have hle := (hnodup.subperm hsub).length_le
  rwa [List.length_append, List.length_map, List.length_map] at hle

theorem Kept.tidy (h : Kept slots s) : Tidy slots s where
  pool := h.pool
  no_queue := fun handle generation hq =>
    (h.queue handle generation hq).imp_right fun hr => hr.busy
  no_slot := fun entry hentry => (h.slot entry hentry).imp_right fun hr => hr.busy
  fresh_queue := h.own_queue
  fresh_slot := fun socket hsocket entry hentry hsame =>
    (h.own_slot socket hsocket entry hentry hsame).1
  used_le := h.used_le

/-! ### The open sockets -/

theorem mem_of_openAt {handle : Nat} {socket : OpenSocket} (h : s.openAt handle = some socket) :
    socket ∈ s.sockets ∧ socket.handle = handle := by
  refine ⟨List.mem_of_find?_eq_some h, ?_⟩
  have hfound := List.find?_some h
  simpa using hfound

theorem handle_ne_of_openAt {handle : Nat} (h : s.openAt handle = none) :
    ∀ socket ∈ s.sockets, socket.handle ≠ handle := fun socket hsocket => by
  simpa using List.find?_eq_none.mp h socket hsocket

theorem socket_ne_of_recvSlot {p : Provider} {handle : Nat} (h : p.recvSlot handle = none) :
    ∀ entry ∈ p.mSocketRecvSlot, entry.socket ≠ handle := fun entry hentry => by
  simpa using List.find?_eq_none.mp h entry hentry

/-- Two open sockets with one handle are one. -/
theorem Kept.eq_of_handle (h : Kept slots s) {a b : OpenSocket} (ha : a ∈ s.sockets)
    (hb : b ∈ s.sockets) (hab : a.handle = b.handle) : a = b :=
  List.inj_on_of_nodup_map h.handles ha hb hab

/-! ### The provider goes on -/

/-- Operations are added, and at most a request queue for an open socket. -/
structure Extends (s : System) (p : Provider) : Prop where
  pool : p.mRecvPool = s.provider.mRecvPool
  slots : p.mSocketRecvSlot = s.provider.mSocketRecvSlot
  ops : ∀ op ∈ s.provider.mPendingOps, op ∈ p.mPendingOps
  queues : ∀ handle generation, p.mRequestQueues handle = some generation →
    s.provider.mRequestQueues handle = some generation ∨
      ∃ socket, s.openAt handle = some socket ∧ socket.generation = generation

theorem extends_refl (s : System) : Extends s s.provider :=
  ⟨rfl, rfl, fun _ hop => hop, fun _ _ hq => .inl hq⟩

theorem extends_getOrCreateRequestQueue (s : System) (socket : Nat) (created : Bool) :
    Extends s (s.provider.getOrCreateRequestQueue socket (s.creates socket created)).1 := by
  unfold Provider.getOrCreateRequestQueue
  split
  · exact extends_refl s
  · split
    · exact extends_refl s
    · split
      · exact extends_refl s
      · next queue hcreated =>
          refine ⟨rfl, rfl, fun _ hop => hop, fun handle generation hq => ?_⟩
          by_cases hsame : handle = socket
          · subst hsame
            simp only [Function.update_self] at hq
            unfold System.creates at hcreated
            split at hcreated
            · obtain ⟨found, hopen, hgeneration⟩ := Option.map_eq_some_iff.mp hcreated
              exact .inr ⟨found, hopen, hgeneration.trans (Option.some.inj hq)⟩
            · cases hcreated
          · simp only [Function.update_of_ne hsame] at hq
            exact .inl hq

theorem extends_recvAsync (s : System) (socket size : Nat) (created : Bool)
    (posted : Nat → Bool) :
    Extends s (s.provider.recvAsync socket size (s.creates socket created) posted).1 := by
  have hqueue := extends_getOrCreateRequestQueue s socket created
  unfold Provider.recvAsync
  split
  · exact extends_refl s
  · split
    · next heq => rwa [heq] at hqueue
    · next heq =>
        rw [heq] at hqueue
        split
        · exact hqueue
        · split
          · exact ⟨hqueue.pool, hqueue.slots,
              fun op hop => List.mem_append_left _ (hqueue.ops op hop), hqueue.queues⟩
          · exact hqueue

theorem extends_sendAsync (s : System) (socket size : Nat) (created : Bool)
    (posted : Nat → Bool) :
    Extends s (s.provider.sendAsync socket size (s.creates socket created) posted).1 := by
  have hqueue := extends_getOrCreateRequestQueue s socket created
  unfold Provider.sendAsync
  split
  · exact extends_refl s
  · split
    · next heq => rwa [heq] at hqueue
    · next heq =>
        rw [heq] at hqueue
        split
        · exact hqueue
        · split
          · exact hqueue
          · split
            · exact ⟨hqueue.pool, hqueue.slots,
                fun op hop => List.mem_append_left _ (hqueue.ops op hop), hqueue.queues⟩
            · exact hqueue

theorem Kept.extends (h : Kept slots s) {p : Provider} (he : Extends s p) :
    Kept slots { s with provider := p } where
  pool := by
    rw [he.pool, he.slots]
    exact h.pool
  keys := by
    rw [he.slots]
    exact h.keys
  handles := h.handles
  queue := fun handle generation hq => by
    rcases he.queues handle generation hq with hq | ⟨socket, hopen, hgeneration⟩
    · refine (h.queue handle generation hq).imp_right fun ⟨op, hop, hmatch⟩ => ?_
      exact ⟨op, he.ops op hop, hmatch⟩
    · obtain ⟨hsocket, hhandle⟩ := mem_of_openAt hopen
      exact .inl ⟨socket, hsocket, hhandle, hgeneration⟩
  slot := fun entry hentry => by
    rw [he.slots] at hentry
    exact (h.slot entry hentry).imp_right fun ⟨op, hop, hmatch⟩ => ⟨op, he.ops op hop, hmatch⟩
  own_queue := fun socket hsocket generation hq => by
    rcases he.queues socket.handle generation hq with hq | ⟨found, hopen, hgeneration⟩
    · exact h.own_queue socket hsocket generation hq
    · obtain ⟨hfound, hhandle⟩ := mem_of_openAt hopen
      rw [← hgeneration, h.eq_of_handle hfound hsocket hhandle]
  own_slot := fun socket hsocket entry hentry => by
    rw [he.slots] at hentry
    exact h.own_slot socket hsocket entry hentry

/-! ### Associating -/

theorem mem_associated {handle : Nat} {socket : OpenSocket} (h : socket ∈ s.associated handle) :
    ∃ old ∈ s.sockets, old.handle = socket.handle ∧ old.generation = socket.generation ∧
      (old.associated = true → socket.associated = true) ∧
      (socket.handle = handle → socket.associated = true) := by
  obtain ⟨old, hold, rfl⟩ := List.mem_map.mp h
  split
  · exact ⟨old, hold, rfl, rfl, fun _ => rfl, fun _ => rfl⟩
  · next hne => exact ⟨old, hold, rfl, rfl, id, fun hsame => absurd hsame hne⟩

theorem isOpen_associated {handle h generation : Nat} (hopen : s.IsOpen h generation) :
    ({ s with sockets := s.associated handle } : System).IsOpen h generation := by
  obtain ⟨old, hold, hhandle, hgeneration⟩ := hopen
  refine ⟨_, List.mem_map_of_mem hold, ?_⟩
  split <;> exact ⟨hhandle, hgeneration⟩

theorem map_handle_associated (s : System) (handle : Nat) :
    (s.associated handle).map OpenSocket.handle = s.sockets.map OpenSocket.handle := by
  rw [System.associated, List.map_map]
  refine List.map_congr_left fun socket _ => ?_
  simp only [Function.comp]
  split <;> rfl

/-- The socket counts as associated from now on. -/
theorem Kept.associated (h : Kept slots s) (handle : Nat) :
    Kept slots { s with sockets := s.associated handle } where
  pool := h.pool
  keys := h.keys
  handles := (map_handle_associated s handle).symm ▸ h.handles
  queue := fun k generation hq => (h.queue k generation hq).imp_left isOpen_associated
  slot := fun entry hentry => (h.slot entry hentry).imp_left isOpen_associated
  own_queue := fun socket hsocket generation hq => by
    obtain ⟨old, hold, hhandle, hgeneration, -⟩ := mem_associated hsocket
    rw [← hgeneration]
    exact h.own_queue old hold generation (by rwa [hhandle])
  own_slot := fun socket hsocket entry hentry hsame => by
    obtain ⟨old, hold, hhandle, hgeneration, hkeep, -⟩ := mem_associated hsocket
    have hown := h.own_slot old hold entry hentry (hsame.trans hhandle.symm)
    exact ⟨hown.1.trans hgeneration, hkeep hown.2⟩

/-- A slot is taken for an open socket, which is associated. -/
theorem Kept.take (h : Kept slots s) {socket : OpenSocket} (hsocket : socket ∈ s.sockets)
    (hassociated : socket.associated = true) (hnone : s.provider.recvSlot socket.handle = none)
    {index : Nat} (hindex : s.provider.mRecvPool.getLast? = some index) :
    Kept slots { s with
      provider := { s.provider with
        mRecvPool := s.provider.mRecvPool.dropLast
        mSocketRecvSlot := ⟨socket.handle, index, socket.generation⟩ ::
          s.provider.mSocketRecvSlot } } where
  pool := by
    have hpool := h.pool
    rw [← List.dropLast_append_getLast? index hindex, List.append_assoc] at hpool
    exact hpool
  keys := by
    refine List.nodup_cons.mpr ⟨fun hmem => ?_, h.keys⟩
    obtain ⟨entry, hentry, hsame⟩ := List.mem_map.mp hmem
    exact socket_ne_of_recvSlot hnone entry hentry hsame
  handles := h.handles
  queue := h.queue
  slot := fun entry hentry => by
    rcases List.mem_cons.mp hentry with rfl | hentry
    · exact .inl ⟨socket, hsocket, rfl, rfl⟩
    · exact h.slot entry hentry
  own_queue := h.own_queue
  own_slot := fun other hother entry hentry hsame => by
    rcases List.mem_cons.mp hentry with rfl | hentry
    · rw [h.eq_of_handle hother hsocket hsame.symm]
      exact ⟨rfl, hassociated⟩
    · exact h.own_slot other hother entry hentry hsame

/-- `AssociateSocket` has a request queue or fails, and it takes a slot if there is none yet. -/
theorem Provider.associateSocket_cases (p : Provider) (socket : Nat) (created : Option Nat)
    (generation : Nat) :
    (∃ error, p.associateSocket socket created generation =
      ((p.getOrCreateRequestQueue socket created).1, error)) ∨
    (∃ index, (p.getOrCreateRequestQueue socket created).1.recvSlot socket = none ∧
      (p.getOrCreateRequestQueue socket created).1.mRecvPool.getLast? = some index ∧
      p.associateSocket socket created generation =
        ({ (p.getOrCreateRequestQueue socket created).1 with
          mRecvPool := (p.getOrCreateRequestQueue socket created).1.mRecvPool.dropLast
          mSocketRecvSlot := ⟨socket, index, generation⟩ ::
            (p.getOrCreateRequestQueue socket created).1.mSocketRecvSlot }, .success)) := by
  unfold Provider.associateSocket
  split
  · next heq =>
      rw [heq]
      exact .inl ⟨_, rfl⟩
  · next heq =>
      rw [heq]
      split
      · exact .inl ⟨_, rfl⟩
      · next hnone =>
          split
          · exact .inl ⟨_, rfl⟩
          · next index hindex => exact .inr ⟨index, hnone, hindex, rfl⟩

theorem Kept.associate (h : Kept slots s) {handle : Nat} {created : Bool}
    (hok : Orderly s (.associate handle created))
    (hs : step s (.associate handle created) = some s') : Kept slots s' := by
  obtain ⟨socket, hopen⟩ := Option.ne_none_iff_exists'.mp hok
  obtain ⟨hsocket, rfl⟩ := mem_of_openAt hopen
  have hkept := h.extends (extends_getOrCreateRequestQueue s socket.handle created)
  cases hs
  simp only [hopen, Option.map_some, Option.getD_some]
  rcases s.provider.associateSocket_cases socket.handle (s.creates socket.handle created)
    socket.generation with ⟨error, heq⟩ | ⟨index, hnone, hindex, heq⟩
  · rw [heq]
    split
    · exact hkept.associated socket.handle
    · exact hkept
  · rw [heq, if_pos rfl]
    have hmem : ({ socket with associated := true } : OpenSocket) ∈ s.associated socket.handle :=
      List.mem_map.mpr ⟨socket, hsocket, if_pos rfl⟩
    exact (hkept.associated socket.handle).take hmem rfl hnone hindex

/-! ### Completions -/

theorem mem_eraseIdx_or_eq {α : Type} {l : List α} {i : Nat} {a b : α} (ha : l[i]? = some a)
    (hb : b ∈ l) : b = a ∨ b ∈ l.eraseIdx i := by
  obtain ⟨j, hj⟩ := List.mem_iff_getElem?.mp hb
  by_cases hij : j = i
  · subst hij
    exact .inl (Option.some.inj (hj.symm.trans ha))
  · refine .inr (List.mem_eraseIdx_iff_getElem?.mpr ⟨j, hij, hj⟩)

/-- A completion that drops nothing, because it is of a send or of an open socket. -/
theorem Kept.complete_keep (h : Kept slots s) {i : Nat} {op : PendingOperation}
    (hop : s.provider.mPendingOps[i]? = some op) {mSendPool : List Nat}
    (hkeep : op.mType = .recv → s.IsOpen op.mSocket op.generation) :
    Kept slots { s with
      provider := { s.provider with
        mPendingOps := s.provider.mPendingOps.eraseIdx i
        mSendPool := mSendPool } } := by
  have hreceiving : ∀ handle generation, s.Receiving handle generation →
      s.IsOpen handle generation ∨ ∃ op' ∈ s.provider.mPendingOps.eraseIdx i,
        op'.mSocket = handle ∧ op'.generation = generation ∧ op'.mType = .recv := by
    rintro handle generation ⟨op', hop', rfl, rfl, htype⟩
    rcases mem_eraseIdx_or_eq hop hop' with rfl | hmem
    · exact .inl (hkeep htype)
    · exact .inr ⟨op', hmem, rfl, rfl, htype⟩
  exact ⟨h.pool, h.keys, h.handles,
    fun handle generation hq => (h.queue handle generation hq).elim .inl (hreceiving _ _),
    fun entry hentry => (h.slot entry hentry).elim .inl (hreceiving _ _), h.own_queue, h.own_slot⟩

/-- A receive that fails or gets no bytes drops the queue and the slot of the handle. -/
theorem Kept.complete_drop (h : Kept slots s) {i : Nat} {op : PendingOperation}
    (hop : s.provider.mPendingOps[i]? = some op) {mSendPool mRecvPool : List Nat}
    {mSocketRecvSlot : List RecvSlot}
    (hpool : (mRecvPool ++ mSocketRecvSlot.map RecvSlot.index).Perm slots)
    (hsub : mSocketRecvSlot.Sublist s.provider.mSocketRecvSlot)
    (hgone : ∀ entry ∈ mSocketRecvSlot, entry.socket ≠ op.mSocket) :
    Kept slots { s with
      provider := { mRequestQueues := Function.update s.provider.mRequestQueues op.mSocket none
                    mSocketRecvSlot, mRecvPool, mSendPool
                    mPendingOps := s.provider.mPendingOps.eraseIdx i } } := by
  have hqueues : ∀ handle generation,
      Function.update s.provider.mRequestQueues op.mSocket none handle = some generation →
        handle ≠ op.mSocket ∧ s.provider.mRequestQueues handle = some generation := by
    intro handle generation hq
    by_cases hsame : handle = op.mSocket
    · rw [hsame, Function.update_self] at hq
      cases hq
    · rw [Function.update_of_ne hsame] at hq
      exact ⟨hsame, hq⟩
  have hreceiving : ∀ handle generation, handle ≠ op.mSocket → s.Receiving handle generation →
      ∃ op' ∈ s.provider.mPendingOps.eraseIdx i,
        op'.mSocket = handle ∧ op'.generation = generation ∧ op'.mType = .recv := by
    rintro handle generation hne ⟨op', hop', rfl, rfl, htype⟩
    rcases mem_eraseIdx_or_eq hop hop' with rfl | hmem
    · exact absurd rfl hne
    · exact ⟨op', hmem, rfl, rfl, htype⟩
  refine ⟨hpool, h.keys.sublist (hsub.map _), h.handles, fun handle generation hq => ?_,
    fun entry hentry => ?_, fun socket hsocket generation hq => ?_,
    fun socket hsocket entry hentry => ?_⟩
  · obtain ⟨hne, hq⟩ := hqueues handle generation hq
    exact (h.queue handle generation hq).imp_right (hreceiving _ _ hne)
  · exact (h.slot entry (hsub.subset hentry)).imp_right (hreceiving _ _ (hgone entry hentry))
  · exact h.own_queue socket hsocket generation (hqueues _ _ hq).2
  · exact h.own_slot socket hsocket entry (hsub.subset hentry)

theorem Kept.complete (h : Kept slots s) {i : Nat} {op : PendingOperation} {result : RioResult}
    (hop : s.provider.mPendingOps[i]? = some op)
    (hok : op.mType = .recv →
      s.IsOpen op.mSocket op.generation ∨ result.isDisconnect .recv = true) :
    Kept slots { s with provider := s.provider.complete i op result } := by
  unfold Provider.complete
  dsimp only
  split
  · split
    · next hnone =>
        exact h.complete_drop hop h.pool (.refl _) (socket_ne_of_recvSlot (p := s.provider) hnone)
    · next entry hfound =>
        have hfound' : s.provider.mSocketRecvSlot.find?
            (fun entry => entry.socket = op.mSocket) = some entry := hfound
        have hmem := List.mem_of_find?_eq_some hfound'
        have hsame : entry.socket = op.mSocket := by simpa using List.find?_some hfound'
        refine h.complete_drop hop ?_ List.erase_sublist fun other hother hsocket => ?_
        · have hperm := ((List.perm_cons_erase hmem).map RecvSlot.index).append_left
            s.provider.mRecvPool
          rw [List.append_assoc]
          exact hperm.symm.trans h.pool
        · -- No other entry has the handle.
          have hcons := ((List.perm_cons_erase hmem).map RecvSlot.socket).nodup_iff.mp h.keys
          rw [List.map_cons, List.nodup_cons] at hcons
          exact hcons.1 (hsame.trans hsocket.symm ▸ List.mem_map_of_mem hother)
  · next hkeep =>
      refine h.complete_keep hop fun htype => (hok htype).resolve_right fun hdisconnect => ?_
      exact hkeep ⟨htype.symm ▸ hdisconnect, htype⟩

/-! ### All steps -/

theorem Kept.accept (h : Kept slots s) {handle : Nat} (hclosed : s.openAt handle = none)
    (hok : ¬ s.provider.Keeps handle) :
    Kept slots { s with
      sockets := ⟨handle, s.accepted, false⟩ :: s.sockets
      accepted := s.accepted + 1 } := by
  obtain ⟨hqueue, hslot⟩ := not_or.mp hok
  have hopen : ∀ k generation, s.IsOpen k generation →
      ∃ socket ∈ (⟨handle, s.accepted, false⟩ :: s.sockets : List OpenSocket),
        socket.handle = k ∧ socket.generation = generation :=
    fun k generation ⟨socket, hsocket, hmatch⟩ => ⟨socket, List.mem_cons_of_mem _ hsocket, hmatch⟩
  refine ⟨h.pool, h.keys, ?_, fun k generation hq => (h.queue k generation hq).imp_left (hopen _ _),
    fun entry hentry => (h.slot entry hentry).imp_left (hopen _ _),
    fun socket hsocket generation hq => ?_, fun socket hsocket entry hentry hsame => ?_⟩
  · refine List.nodup_cons.mpr ⟨fun hmem => ?_, h.handles⟩
    obtain ⟨socket, hsocket, hsame⟩ := List.mem_map.mp hmem
    exact handle_ne_of_openAt hclosed socket hsocket hsame
  · rcases List.mem_cons.mp hsocket with rfl | hsocket
    · exact absurd (Option.some_ne_none generation) (by rw [← hq]; exact hqueue)
    · exact h.own_queue socket hsocket generation hq
  · rcases List.mem_cons.mp hsocket with rfl | hsocket
    · exact absurd hsame (socket_ne_of_recvSlot (not_not.mp hslot) entry hentry)
    · exact h.own_slot socket hsocket entry hentry hsame

theorem Kept.close (h : Kept slots s) {socket : OpenSocket}
    (hopen : s.openAt socket.handle = some socket)
    (hok : s.provider.Keeps socket.handle → s.Receiving socket.handle socket.generation) :
    Kept slots { s with sockets := s.sockets.erase socket } := by
  have hstill : ∀ k generation, s.provider.Keeps k → s.IsOpen k generation →
      (∃ other ∈ s.sockets.erase socket, other.handle = k ∧ other.generation = generation) ∨
        s.Receiving k generation := by
    rintro k generation hkeeps ⟨other, hother, rfl, rfl⟩
    by_cases hsame : other = socket
    · subst hsame
      exact .inr (hok hkeeps)
    · exact .inl ⟨other, (List.mem_erase_of_ne hsame).mpr hother, rfl, rfl⟩
  refine ⟨h.pool, h.keys, h.handles.sublist (List.erase_sublist.map _), fun k generation hq => ?_,
    fun entry hentry => ?_, fun other hother => h.own_queue other (List.mem_of_mem_erase hother),
    fun other hother => h.own_slot other (List.mem_of_mem_erase hother)⟩
  · have hkeeps : s.provider.Keeps k := .inl (by rw [hq]; exact Option.some_ne_none generation)
    exact (h.queue k generation hq).elim (hstill k generation hkeeps) .inr
  · have hkeeps : s.provider.Keeps entry.socket :=
      .inr fun hnone => socket_ne_of_recvSlot hnone entry hentry rfl
    exact (h.slot entry hentry).elim (hstill _ _ hkeeps) .inr

theorem Kept.step {a : Act} (h : Kept slots s) (hok : Orderly s a) (hs : step s a = some s') :
    Kept slots s' := by
  cases a with
  | accept handle =>
      simp only [RioSockets.step] at hs
      split at hs
      · next hclosed =>
          cases hs
          exact h.accept hclosed.1 hok
      · cases hs
  | associate handle created => exact h.associate hok hs
  | recv handle size created posted =>
      cases hs
      exact h.extends (extends_recvAsync s handle size created _)
  | send handle size created posted =>
      cases hs
      exact h.extends (extends_sendAsync s handle size created _)
  | complete i result =>
      simp only [RioSockets.step] at hs
      split at hs
      · next op hop =>
          cases hs
          exact h.complete hop (hok op hop)
      · cases hs
  | close handle =>
      simp only [RioSockets.step] at hs
      split at hs
      · next socket hopen =>
          cases hs
          obtain ⟨-, rfl⟩ := mem_of_openAt hopen
          exact h.close hopen (hok socket hopen)
      · cases hs

/-! ## All runs -/

theorem kept_start (mRecvPool mSendPool : List Nat) :
    Kept mRecvPool { provider := { mRecvPool, mSendPool } } where
  pool := by simp
  keys := List.nodup_nil
  handles := List.nodup_nil
  queue := fun _ _ hq => by cases hq
  slot := fun _ hentry => by cases hentry
  own_queue := fun _ hsocket => by cases hsocket
  own_slot := fun _ hsocket => by cases hsocket

/-- In every run of orderly steps nothing is left behind for a closed socket whose operations
have completed, and a new socket with its handle starts afresh. -/
theorem tidy_of_meets {mRecvPool mSendPool : List Nat} {as : List Act}
    (hok : Machine.Meets step Orderly { provider := { mRecvPool, mSendPool } } as)
    (hrun : Machine.run step { provider := { mRecvPool, mSendPool } } as = some s) :
    Tidy mRecvPool s := by
  have hkept : Kept mRecvPool s :=
    Machine.run_invariant_of_meets (fun _ _ _ h hok hs => h.step hok hs)
      (kept_start mRecvPool mSendPool) hok hrun
  exact hkept.tidy

/-- A socket gets some bytes and is closed while its next receive is outstanding, which fails.
The next socket has the same handle. -/
theorem tidy_of_meets_reuse :
    ∃ s, Machine.run step { provider := { mRecvPool := [0, 1], mSendPool := [0] } }
        [.accept 5, .associate 5 true, .recv 5 64 false true, .complete 0 ⟨false, 8⟩,
          .recv 5 64 false true, .close 5, .complete 0 ⟨true, 0⟩, .accept 5,
          .associate 5 true] = some s ∧ Tidy [0, 1] s :=
  ⟨_, rfl, @tidy_of_meets _ [0, 1] [0] [.accept 5, .associate 5 true, .recv 5 64 false true,
    .complete 0 ⟨false, 8⟩, .recv 5 64 false true, .close 5, .complete 0 ⟨true, 0⟩, .accept 5,
    .associate 5 true] (by decide +kernel) rfl⟩

/-- A socket is closed after its receive has got some bytes, and before the next one.  Its
request queue is left behind. -/
theorem not_tidy_close :
    ∃ s, Machine.run step { provider := { mRecvPool := [0, 1], mSendPool := [0] } }
        [.accept 5, .associate 5 true, .recv 5 64 false true, .complete 0 ⟨false, 8⟩,
          .close 5] = some s ∧ ¬ Tidy [0, 1] s :=
  ⟨_, rfl, fun h => absurd (h.no_queue 5 0 rfl) (by decide +kernel)⟩

end NetworkModule.RioSockets
