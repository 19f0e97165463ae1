import NetworkModule.Lib.Machine
import NetworkModule.Platforms.Epoll
import Mathlib

/-!
# The engine over the epoll provider

`LinuxNetworkEngine` with the epoll provider, as far as descriptors and received
data go.  The accept thread creates a session for a descriptor, associates the
descriptor and queues the first receive.  Each worker calls `ProcessCompletions`
and then handles the entries: the data of a receive is copied out of the session's
receive buffer and submitted to the session's logic queue, and the next receive is
queued.

`Session::Close` closes the descriptor, and the kernel may give the same number
to the next connection.  The provider is not told.  What it has recorded for the
number stays there, and a thread may still be about to use it.  `owner` says which
session's connection an open descriptor is, and the logs say on whose connection
each operation took place.  `isolated_of_freshFd` says that a connection stays apart
from all others if its number was not given out while an old operation on it was
left.
-/

namespace NetworkModule.EpollEngine

open AsyncIO Epoll

/-! ## Sessions and threads -/

/-- A session.  One that has been removed from the manager is disconnected, and
completions for it are ignored either way. -/
structure Sess where
  /-- The descriptor it was created with. -/
  fd : Fd
  /-- Whether `mState` is `Connected`. -/
  connected : Bool
  /-- Whether `mSocket` is still the descriptor. -/
  mSocket : Bool
  deriving DecidableEq, Repr

/-- Where the accept thread stands with the session it has created. -/
inductive AcceptPc where
  /-- `AssociateSocket`. -/
  | associate
  /-- `QueueRecv`. -/
  | queueRecv
  deriving DecidableEq, Repr

/-- Where a worker stands with a completion entry. -/
inductive HandlerPc where
  /-- Between two entries. -/
  | idle
  /-- `ProcessRecvCompletion` tests `IsConnected`. -/
  | recvTest (ctx : UInt64) (n : Nat)
  /-- `ProcessRecvCompletion` copies the data. -/
  | copy (ctx : UInt64) (n : Nat)
  /-- It submits the copy to the logic queue. -/
  | submit (ctx : UInt64) (dataCopy : List UInt8)
  /-- `ProcessCompletions` tests `IsConnected` before it queues the next receive. -/
  | requeueTest (ctx : UInt64)
  /-- `QueueRecv` has loaded the descriptor and calls `RecvAsync`. -/
  | requeue (ctx : UInt64) (fd : Fd)
  /-- `ProcessErrorCompletion`. -/
  | close (ctx : UInt64)
  deriving DecidableEq, Repr

/-- The engine, its sessions, and what has happened on the connections. -/
structure Engine where
  provider : Provider := {}
  /-- The session whose connection an open descriptor is. -/
  owner : Fd → Option UInt64 := fun _ => none
  sessions : UInt64 → Option Sess := fun _ => none
  /-- The session the accept thread is working on. -/
  accepting : Option (UInt64 × AcceptPc) := none
  /-- The workers of the provider, with the entry each is handling. -/
  handlers : List HandlerPc := []
  /-- The calls of `PostSend` that have loaded `mSocket` and not yet called
  `SendAsync`: the session and the descriptor. -/
  senders : List (UInt64 × Fd) := []
  /-- The receive buffers of the sessions. -/
  buffers : UInt64 → List UInt8 := fun _ => []
  /-- The positive results of `recv()` on the connection of a session, in order. -/
  received : UInt64 → List (List UInt8) := fun _ => []
  /-- The chunks that were submitted to the logic queue of a session, in order. -/
  submitted : UInt64 → List (List UInt8) := fun _ => []
  /-- The operations `recv()` was called for with data to come, each with the
  session on whose connection that was. -/
  recvLog : List (UInt64 × RecvOp) := []
  /-- The contexts of the operations that `send()` wrote for, likewise. -/
  sendLog : List (UInt64 × UInt64) := []
  /-- The sends of a session on its own connection that were refused as duplicates:
  the session, and the context of the send that was pending. -/
  refused : List (UInt64 × UInt64) := []

/-- Whether a session is connected. -/
def Engine.isConnected (s : Engine) (ctx : UInt64) : Bool :=
  ((s.sessions ctx).map Sess.connected).getD false

/-- The exchange of `mState` in `Session::Close`.  The descriptor is closed in a
later step, and until then every other thread may move. -/
def Engine.disconnect (s : Engine) (ctx : UInt64) : Engine :=
  { s with sessions := fun c =>
      if c = ctx then (s.sessions c).map fun x => { x with connected := false } else s.sessions c }

/-- `Session::Close` after that: the descriptor is closed, which takes it out of
epoll. -/
def Engine.closeSocket (s : Engine) (ctx : UInt64) : Engine :=
  match s.sessions ctx with
  | none => s
  | some x =>
      if x.mSocket then
        { s with
          sessions := Function.update s.sessions ctx (some { x with mSocket := false })
          owner := Function.update s.owner x.fd none
          provider := { s.provider with
            interest := Function.update s.provider.interest x.fd .absent } }
      else s

/-- `GetRecvBufferSize()`. -/
def recvBufferSize : Nat := 8192

/-! ## Steps -/

/-- Who moves. -/
inductive EngineAct where
  /-- `accept()` returns `fd`, and `CreateSession` makes session `ctx` for it. -/
  | accept (fd : Fd) (ctx : UInt64)
  /-- The accept thread takes its next step. -/
  | acceptStep
  /-- Some other thread that closes a session exchanges `mState`. -/
  | disconnect (ctx : UInt64)
  /-- The thread that has exchanged `mState` closes the descriptor. -/
  | closeSocket (ctx : UInt64)
  /-- `PostSend` loads `mSocket`. -/
  | loadSocket (ctx : UInt64)
  /-- Sender `i` calls `SendAsync`. -/
  | sendAsync (i : Nat) (data : List UInt8)
  /-- A worker is started. -/
  | spawn
  /-- `epoll_wait` returns events to worker `k`. -/
  | epollWait (k : Nat) (events : List Event)
  /-- Worker `k` takes a step in `ProcessCompletions` of the provider. -/
  | worker (k : Nat)
  /-- Worker `k` calls `recv()`. -/
  | recv (k : Nat) (r : RecvResult)
  /-- Worker `k` does the `EPOLLOUT` part of an event. -/
  | out (k : Nat) (r : SendResult)
  /-- Worker `k` goes on with the entries.  `accepted` is the answer of `Submit`. -/
  | handle (k : Nat) (accepted : Bool)
  deriving DecidableEq, Repr

/-- The operation whose `recv()` worker `k` is calling, and its descriptor. -/
def receiving (s : Provider) (k : Nat) : Option (Fd × RecvOp) :=
  match s.workers[k]?.map Worker.stage with
  | some (.recv e op) => some (e.fd, op)
  | _ => none

/-- The descriptor and the pending send that worker `k` is calling `send()` for. -/
def sending (maxEntries : Nat) (s : Provider) (k : Nat) : Option (Fd × SendOp) :=
  match s.workers[k]? with
  | some w =>
      match w.stage with
      | .out e =>
          if maxEntries ≤ w.entries.length then none
          else (s.mPendingSendOps e.fd).map fun op => (e.fd, op)
      | _ => none
  | none => none

/-- `recv()` puts the data at the beginning of the buffer. -/
def fill (buffer bytes : List UInt8) : List UInt8 := bytes ++ buffer.drop bytes.length

/-- The next step of the accept thread. -/
def Engine.acceptStep (s : Engine) : Option Engine :=
  match s.accepting with
  | none => none
  | some (ctx, pc) =>
      match s.sessions ctx with
      | none => none
      | some x =>
          match pc with
          | .associate =>
              -- On a closed descriptor `epoll_ctl` fails.
              let r := if x.mSocket then s.provider.associateSocket x.fd
                else (s.provider, AsyncIOError.operationFailed)
              if r.2 = AsyncIOError.success then
                some { s with provider := r.1, accepting := some (ctx, .queueRecv) }
              else some ({ s with provider := r.1, accepting := none }.disconnect ctx)
          | .queueRecv =>
              -- A descriptor that is closed after it was loaded is not given out
              -- again before this call is over.
              let r := if x.mSocket then s.provider.recvAsync x.fd ctx recvBufferSize ctx
                else (s.provider, AsyncIOError.invalidParameter)
              if r.2 = AsyncIOError.success then
                some { s with provider := r.1, accepting := none }
              else some ({ s with provider := r.1, accepting := none }.disconnect ctx)

/-- Sender `i` calls `SendAsync`. -/
def Engine.sendAsync (s : Engine) (i : Nat) (data : List UInt8) : Option Engine :=
  match s.senders[i]? with
  | none => none
  | some (ctx, fd) =>
      let r := s.provider.sendAsync fd data ctx
      some { s with
        provider := r.1
        senders := s.senders.eraseIdx i
        refused := s.refused ++
          if r.2 = AsyncIOError.operationFailed ∧ s.owner fd = some ctx then
            ((s.provider.mPendingSendOps fd).map fun op => (ctx, op.mContext)).toList
          else [] }

/-- Put a handler to a place. -/
def Engine.setHandler (s : Engine) (k : Nat) (pc : HandlerPc) : Engine :=
  { s with handlers := s.handlers.set k pc }

/-- The first entry of worker `k` is taken. -/
def Engine.takeEntry (s : Engine) (k : Nat) (w : Worker) (entry : CompletionEntry)
    (rest : List CompletionEntry) : Engine :=
  let s' := { s with provider := s.provider.setWorker k { w with entries := rest } }
  match s.sessions entry.mContext with
  | none => s'
  | some _ =>
      if entry.isError then s'.setHandler k (.close entry.mContext)
      else
        match entry.mType with
        | .recv => s'.setHandler k (.recvTest entry.mContext entry.mResult.toNat)
        -- `ProcessSendCompletion` calls `PostSend`.
        | .send => s'

/-- Worker `k`, whose handler is at `pc`, goes on. -/
def Engine.handle (s : Engine) (k : Nat) (accepted : Bool) : HandlerPc → Option Engine
  | .idle =>
      s.provider.workers[k]?.bind fun w =>
        match w.stage, w.entries with
        | .returned, entry :: rest => some (s.takeEntry k w entry rest)
        | _, _ => none
  | .recvTest ctx n =>
      some (s.setHandler k (if s.isConnected ctx then .copy ctx n else .requeueTest ctx))
  | .copy ctx n => some (s.setHandler k (.submit ctx ((s.buffers ctx).take n)))
  | .submit ctx dataCopy =>
      if accepted then
        some ({ s with
          submitted := Function.update s.submitted ctx (s.submitted ctx ++ [dataCopy]) }.setHandler
            k (.requeueTest ctx))
      else some ((s.disconnect ctx).setHandler k (.requeueTest ctx))
  | .requeueTest ctx =>
      match s.sessions ctx with
      | some x => some (s.setHandler k (if x.connected then .requeue ctx x.fd else .idle))
      | none => some (s.setHandler k .idle)
  | .requeue ctx fd =>
      let r := s.provider.recvAsync fd ctx recvBufferSize ctx
      some ({ s with provider := r.1 }.setHandler k
        (if r.2 = AsyncIOError.success then .idle else .close ctx))
  | .close ctx => some ((s.disconnect ctx).setHandler k .idle)

section
variable (maxEntries : Nat)

/-- A step of the provider. -/
def Engine.lift (s : Engine) (a : ProviderAct) : Option Engine :=
  (providerStep maxEntries s.provider a).map fun p => { s with provider := p }

/-- One step of the engine. -/
def engineStep (s : Engine) : EngineAct → Option Engine
  | .accept fd ctx =>
      if s.accepting = none ∧ s.owner fd = none ∧ s.sessions ctx = none then
        some { s with
          owner := Function.update s.owner fd (some ctx)
          sessions := Function.update s.sessions ctx (some ⟨fd, true, true⟩)
          accepting := some (ctx, .associate) }
      else none
  | .acceptStep => s.acceptStep
  | .disconnect ctx => some (s.disconnect ctx)
  | .closeSocket ctx => if s.isConnected ctx then none else some (s.closeSocket ctx)
  | .loadSocket ctx =>
      match s.sessions ctx with
      | some x => if x.mSocket then some { s with senders := s.senders ++ [(ctx, x.fd)] } else none
      | none => none
  | .sendAsync i data => s.sendAsync i data
  | .spawn => (s.lift maxEntries .spawn).map fun s => { s with handlers := s.handlers ++ [.idle] }
  | .epollWait k events =>
      if s.handlers[k]? = some .idle then s.lift maxEntries (.epollWait k events) else none
  | .worker k => s.lift maxEntries (.worker k)
  | .recv k r =>
      match receiving s.provider k, r with
      | some (fd, op), .data bytes =>
          -- On a closed descriptor `recv()` fails.
          match s.owner fd with
          | none => none
          | some o =>
              (s.lift maxEntries (.recv k r)).map fun s =>
                if bytes = [] then s
                else { s with
                  buffers := Function.update s.buffers op.mBuffer (fill (s.buffers op.mBuffer) bytes)
                  received := Function.update s.received o (s.received o ++ [bytes])
                  recvLog := s.recvLog ++ [(o, op)] }
      | some (fd, _), .wouldBlock =>
          if (s.owner fd).isSome then s.lift maxEntries (.recv k r) else none
      | _, _ => s.lift maxEntries (.recv k r)
  | .out k r =>
      match sending maxEntries s.provider k, r with
      | some (fd, op), .sent _ =>
          match s.owner fd with
          | none => none
          | some o =>
              (s.lift maxEntries (.out k r)).map fun s =>
                { s with sendLog := s.sendLog ++ [(o, op.mContext)] }
      | _, _ => s.lift maxEntries (.out k r)
  | .handle k accepted => s.handlers[k]?.bind fun pc => s.handle k accepted pc

/-! ## Isolation -/

/-- Every operation on the connection of session `me` was an operation of that
session, and no send of it was refused because of the send of another session. -/
def Isolated (me : UInt64) (s : Engine) : Prop :=
  (∀ x ∈ s.recvLog, x.1 = me → x.2.mContext = me ∧ x.2.mBuffer = me) ∧
    (∀ x ∈ s.sendLog, x.1 = me → x.2 = me) ∧ ∀ x ∈ s.refused, x.1 = me → x.2 = me

instance (me : UInt64) (s : Engine) : Decidable (Isolated me s) :=
  inferInstanceAs (Decidable (_ ∧ _ ∧ _))

/-- A handler is about to queue a receive on this descriptor. -/
def HandlerPc.uses (fd : Fd) : HandlerPc → Bool
  | .requeue _ fd' => fd' == fd
  | _ => false

/-- No operation is left on a descriptor: none is recorded in the provider, none is
in the hands of a worker, and no thread that has loaded the descriptor is about to
call `RecvAsync` or `SendAsync`. -/
def Engine.unused (s : Engine) (fd : Fd) : Bool :=
  (s.provider.mPendingRecvOps fd).isNone && (s.provider.mPendingSendOps fd).isNone &&
    s.provider.workers.all (fun w => !w.held.any (·.1 == fd)) &&
    s.handlers.all (fun pc => !pc.uses fd) && s.senders.all fun x => x.2 != fd

/-- The descriptor that session `me` gets is one that no operation is left on. -/
def freshFd (me : UInt64) (s : Engine) : EngineAct → Bool
  | .accept fd ctx => ctx != me || s.unused fd
  | _ => true

end

/-! ## What is left on an open descriptor -/

/-- Whatever is left on the descriptor of session `me` is its own. -/
structure OwnedInv (me : UInt64) (s : Engine) : Prop where
  recvs : ∀ fd op, s.owner fd = some me → RecvAt s.provider fd op →
    op.mContext = me ∧ op.mBuffer = me
  sends : ∀ fd op, s.owner fd = some me → s.provider.mPendingSendOps fd = some op →
    op.mContext = me
  handlers : ∀ c fd, HandlerPc.requeue c fd ∈ s.handlers → s.owner fd = some me → c = me
  senders : ∀ c fd, (c, fd) ∈ s.senders → s.owner fd = some me → c = me
  /-- A session that has its descriptor owns it. -/
  mSocket : ∀ c x, s.sessions c = some x → x.mSocket = true → s.owner x.fd = some c
  connected : ∀ c x, s.sessions c = some x → x.connected = true → x.mSocket = true
  session : ∀ fd, s.owner fd = some me → ∃ x, s.sessions me = some x ∧ x.fd = fd
  isolated : Isolated me s

section
variable {maxEntries : Nat} {me ctx : UInt64} {s s' : Engine} {k : Nat} {fd : Fd}

theorem ownedInv_init : OwnedInv me {} where
  recvs _ _ h := by cases h
  sends _ _ h := by cases h
  handlers _ _ h := by cases h
  senders _ _ h := by cases h
  mSocket _ _ h := by cases h
  connected _ _ h := by cases h
  session _ h := by cases h
  isolated := ⟨(fun _ h => by cases h), (fun _ h => by cases h), fun _ h => by cases h⟩

/-- A step that makes no new operation and opens and closes nothing. -/
theorem OwnedInv.of_within (h : OwnedInv me s) (hp : Within s'.provider s.provider)
    (howner : s'.owner = s.owner) (hsessions : s'.sessions = s.sessions)
    (hhandlers : s'.handlers = s.handlers) (hsenders : ∀ x ∈ s'.senders, x ∈ s.senders)
    (hisolated : Isolated me s') : OwnedInv me s' where
  recvs fd op ho hop := h.recvs fd op (howner ▸ ho) (hp.recvs fd op hop)
  sends fd op ho hop := by
    obtain ⟨op', hop', heq⟩ := hp.sends fd op hop
    rw [← heq]
    exact h.sends fd op' (howner ▸ ho) hop'
  handlers c fd hmem ho := h.handlers c fd (hhandlers ▸ hmem) (howner ▸ ho)
  senders c fd hmem ho := h.senders c fd (hsenders _ hmem) (howner ▸ ho)
  mSocket c x hx hm := by
    rw [howner]
    exact h.mSocket c x (hsessions ▸ hx) hm
  connected c x hx hc := h.connected c x (hsessions ▸ hx) hc
  session fd ho := by
    rw [hsessions]
    exact h.session fd (howner ▸ ho)
  isolated := hisolated

theorem OwnedInv.setHandler (h : OwnedInv me s) {pc : HandlerPc}
    (hpc : ∀ c fd, pc = .requeue c fd → s.owner fd = some me → c = me) :
    OwnedInv me (s.setHandler k pc) where
  recvs := h.recvs
  sends := h.sends
  handlers c fd hmem ho := by
    rcases List.mem_or_eq_of_mem_set hmem with hmem | heq
    · exact h.handlers c fd hmem ho
    · exact hpc c fd heq.symm ho
  senders := h.senders
  mSocket := h.mSocket
  connected := h.connected
  session := h.session
  isolated := h.isolated

/-- A handler that is not about to queue a receive has nothing to keep. -/
theorem OwnedInv.setHandler_of_ne (h : OwnedInv me s) {pc : HandlerPc}
    (hne : ∀ c fd, pc ≠ .requeue c fd) : OwnedInv me (s.setHandler k pc) :=
  h.setHandler fun c fd heq => absurd heq (hne c fd)

/-- `RecvAsync` on a descriptor that is the caller's or not that of `me`. -/
theorem OwnedInv.recvAsync (h : OwnedInv me s) (hfd : s.owner fd = some me → ctx = me)
    (size : Nat) : OwnedInv me { s with provider := (s.provider.recvAsync fd ctx size ctx).1 } := by
  refine { h with recvs := fun fd' op ho hop => ?_, sends := fun fd' op ho hop => ?_ }
  · rcases recvAt_of_recvAsync hop with hop | ⟨rfl, rfl⟩
    · exact h.recvs fd' op ho hop
    · exact ⟨hfd ho, hfd ho⟩
  · exact h.sends fd' op ho ((recvAsync_frame s.provider fd ctx size ctx).1 ▸ hop)

theorem disconnect_eq_some {x : Sess} {ctx' : UInt64} (h : (s.disconnect ctx).sessions ctx' = some x) :
    ∃ y, s.sessions ctx' = some y ∧ x.fd = y.fd ∧ x.mSocket = y.mSocket ∧
      (x.connected = true → y.connected = true ∧ ctx' ≠ ctx) := by
  simp only [Engine.disconnect] at h
  split at h
  · obtain ⟨y, hy, rfl⟩ := Option.map_eq_some_iff.mp h
    exact ⟨y, hy, rfl, rfl, fun hc => by cases hc⟩
  next hne => exact ⟨x, h, rfl, rfl, fun hc => ⟨hc, hne⟩⟩

theorem disconnect_of_eq_some (ctx : UInt64) {x : Sess} {c : UInt64} (h : s.sessions c = some x) :
    ∃ y, (s.disconnect ctx).sessions c = some y ∧ y.fd = x.fd := by
  by_cases hc : c = ctx
  · exact ⟨{ x with connected := false }, by simp [Engine.disconnect, if_pos hc, h], rfl⟩
  · exact ⟨x, by simp [Engine.disconnect, if_neg hc, h], rfl⟩

theorem OwnedInv.disconnect (h : OwnedInv me s) : OwnedInv me (s.disconnect ctx) where
  recvs := h.recvs
  sends := h.sends
  handlers := h.handlers
  senders := h.senders
  mSocket c x hx hm := by
    obtain ⟨y, hy, hfd, hsocket, -⟩ := disconnect_eq_some hx
    rw [hfd]
    exact h.mSocket c y hy (hsocket ▸ hm)
  connected c x hx hc := by
    obtain ⟨y, hy, -, hsocket, hconn⟩ := disconnect_eq_some hx
    rw [hsocket]
    exact h.connected c y hy (hconn hc).1
  session fd ho := by
    obtain ⟨x, hx, hfd⟩ := h.session fd ho
    obtain ⟨y, hy, heq⟩ := disconnect_of_eq_some ctx hx
    exact ⟨y, hy, heq.trans hfd⟩
  isolated := h.isolated

/-- A descriptor that is open after one was closed. -/
theorem owner_of_update_none {fd' : Fd} {o : UInt64}
    (h : Function.update s.owner fd none fd' = some o) : s.owner fd' = some o := by
  by_cases hfd : fd' = fd
  · subst hfd
    simp at h
  · rwa [Function.update_of_ne hfd] at h

theorem OwnedInv.closeSocket (h : OwnedInv me s) (hdown : s.isConnected ctx = false) :
    OwnedInv me (s.closeSocket ctx) := by
  unfold Engine.closeSocket
  split
  · exact h
  next x hx =>
    split
    next hm =>
      refine ⟨fun fd op ho => h.recvs fd op (owner_of_update_none ho),
        fun fd op ho => h.sends fd op (owner_of_update_none ho),
        fun c fd hmem ho => h.handlers c fd hmem (owner_of_update_none ho),
        fun c fd hmem ho => h.senders c fd hmem (owner_of_update_none ho),
        fun c y hy hym => ?_, fun c y hy hyc => ?_, fun fd ho => ?_, h.isolated⟩
      · simp only [Function.update_apply] at hy ⊢
        split at hy
        · cases hy
          cases hym
        next hc =>
          have hown := h.mSocket c y hy hym
          -- Two sessions that have their descriptors do not share one.
          have hfd : y.fd ≠ x.fd := by
            intro heq
            rw [heq, h.mSocket ctx x hx hm] at hown
            exact hc (Option.some.inj hown).symm
          rw [if_neg hfd]
          exact hown
      · simp only [Function.update_apply] at hy
        split at hy
        next hc =>
          cases hy
          simp only [Engine.isConnected, hx, Option.map_some, Option.getD_some] at hdown
          exact absurd hyc (by simp [hdown])
        · exact h.connected c y hy hyc
      · obtain ⟨y, hy, hfd⟩ := h.session fd (owner_of_update_none ho)
        simp only [Function.update_apply]
        split
        next hc =>
          subst hc
          cases hx.symm.trans hy
          exact ⟨_, rfl, hfd⟩
        · exact ⟨y, hy, hfd⟩
    · exact h

/-! ## Each step keeps it -/

theorem OwnedInv.accept (h : OwnedInv me s) (hfresh : freshFd me s (.accept fd ctx) = true)
    (hclosed : s.owner fd = none) (hnew : s.sessions ctx = none) :
    OwnedInv me { s with
      owner := Function.update s.owner fd (some ctx)
      sessions := Function.update s.sessions ctx (some ⟨fd, true, true⟩)
      accepting := some (ctx, .associate) } := by
  -- A descriptor of `me` is the new one, and then unused, or was there before.
  have howner : ∀ {fd'}, Function.update s.owner fd (some ctx) fd' = some me →
      (fd' = fd ∧ ctx = me ∧ s.unused fd = true) ∨ s.owner fd' = some me := by
    intro fd' ho
    simp only [Function.update_apply] at ho
    split at ho
    next hfd =>
      have hme := Option.some.inj ho
      exact Or.inl ⟨hfd, hme, by simpa [freshFd, hme] using hfresh⟩
    · exact Or.inr ho
  simp only [Engine.unused, Bool.and_eq_true, Option.isNone_iff_eq_none, List.all_eq_true,
    Bool.not_eq_true', bne_iff_ne, ne_eq] at howner
  refine ⟨fun fd' op ho hop => ?_, fun fd' op ho hop => ?_, fun c fd' hmem ho => ?_,
    fun c fd' hmem ho => ?_, fun c y hy hm => ?_, fun c y hy hc => ?_, fun fd' ho => ?_, h.isolated⟩
  · rcases howner ho with ⟨rfl, -, ⟨⟨⟨hrecv, -⟩, hheld⟩, -⟩, -⟩ | ho
    · rcases hop with hop | ⟨w, hw, hop⟩
      · rw [show s.provider.mPendingRecvOps fd' = some op from hop] at hrecv
        cases hrecv
      · have hno := hheld w hw
        rw [hop] at hno
        simp at hno
    · exact h.recvs fd' op ho hop
  · rcases howner ho with ⟨rfl, -, ⟨⟨⟨-, hsend⟩, -⟩, -⟩, -⟩ | ho
    · rw [show s.provider.mPendingSendOps fd' = some op from hop] at hsend
      cases hsend
    · exact h.sends fd' op ho hop
  · rcases howner ho with ⟨rfl, -, ⟨-, hhandlers⟩, -⟩ | ho
    · have hno := hhandlers _ hmem
      simp [HandlerPc.uses] at hno
    · exact h.handlers c fd' hmem ho
  · rcases howner ho with ⟨rfl, -, -, hsenders⟩ | ho
    · exact absurd rfl (hsenders _ hmem)
    · exact h.senders c fd' hmem ho
  · simp only [Function.update_apply] at hy ⊢
    split at hy
    next hc =>
      cases hy
      rw [if_pos rfl, hc]
    · have hown := h.mSocket c y hy hm
      have hfd : y.fd ≠ fd := by
        intro heq
        rw [heq, hclosed] at hown
        cases hown
      rw [if_neg hfd]
      exact hown
  · simp only [Function.update_apply] at hy
    split at hy
    · cases hy
      rfl
    · exact h.connected c y hy hc
  · rcases howner ho with ⟨rfl, rfl, -⟩ | ho
    · exact ⟨_, Function.update_self .., rfl⟩
    · obtain ⟨x, hx, hfd⟩ := h.session fd' ho
      have hne : me ≠ ctx := by
        rintro rfl
        rw [hnew] at hx
        cases hx
      exact ⟨x, (Function.update_of_ne hne ..).trans hx, hfd⟩

/-- The accept thread associates the descriptor or queues the first receive, and
if it fails it closes the session. -/
theorem acceptStep_cases (h : s.acceptStep = some s') :
    ∃ c pc x, s.accepting = some (c, pc) ∧ s.sessions c = some x ∧
      ((∃ interest, pc = .associate ∧ s' = { s with
          provider := { s.provider with interest := interest }, accepting := some (c, .queueRecv) }) ∨
        s' = { s with accepting := none }.disconnect c ∨
        (x.mSocket = true ∧ s' = { s with
          provider := (s.provider.recvAsync x.fd c recvBufferSize c).1, accepting := none }) ∨
        (x.mSocket = true ∧ s' = { s with
          provider := (s.provider.recvAsync x.fd c recvBufferSize c).1,
          accepting := none }.disconnect c)) := by
  unfold Engine.acceptStep at h
  split at h
  · cases h
  next c pc hacc =>
    split at h
    · cases h
    next x hx =>
      refine ⟨c, pc, x, hacc, hx, ?_⟩
      cases pc with
      | associate =>
          cases hm : x.mSocket with
          | true =>
              rcases associateSocket_cases s.provider x.fd with heq | heq
              · simp only [hm, heq, if_true] at h
                cases h
                exact Or.inr (Or.inl rfl)
              · simp only [hm, heq, if_true] at h
                cases h
                exact Or.inl ⟨_, rfl, rfl⟩
          | false =>
              simp only [hm] at h
              cases h
              exact Or.inr (Or.inl rfl)
      | queueRecv =>
          cases hm : x.mSocket with
          | true =>
              simp only [hm, if_true] at h
              split at h <;> cases h
              · exact Or.inr (Or.inr (Or.inl ⟨rfl, rfl⟩))
              · exact Or.inr (Or.inr (Or.inr ⟨rfl, rfl⟩))
          | false =>
              simp only [hm] at h
              cases h
              exact Or.inr (Or.inl rfl)

theorem OwnedInv.acceptStep (h : OwnedInv me s) (hs : s.acceptStep = some s') : OwnedInv me s' := by
  obtain ⟨c, pc, x, -, hx, hcases⟩ := acceptStep_cases hs
  have hrecv : x.mSocket = true → OwnedInv me { s with
      provider := (s.provider.recvAsync x.fd c recvBufferSize c).1, accepting := none } := by
    intro hm
    refine (h.recvAsync (fun ho => ?_) recvBufferSize).of_within (Within.refl _) rfl rfl rfl
      (fun _ h => h) h.isolated
    rw [h.mSocket c x hx hm] at ho
    exact Option.some.inj ho
  rcases hcases with ⟨interest, -, rfl⟩ | rfl | ⟨hm, rfl⟩ | ⟨hm, rfl⟩
  · exact { h with }
  · exact OwnedInv.disconnect { h with }
  · exact hrecv hm
  · exact (hrecv hm).disconnect

theorem OwnedInv.sendAsync (h : OwnedInv me s) {i : Nat} {data : List UInt8}
    (hs : s.sendAsync i data = some s') : OwnedInv me s' := by
  unfold Engine.sendAsync at hs
  split at hs
  · cases hs
  next ctx fd hi =>
    cases hs
    have hmem := List.mem_of_getElem? hi
    refine ⟨fun fd' op ho hop => h.recvs fd' op ho ?_, fun fd' op ho hop => ?_, h.handlers,
      fun c fd' hc ho => h.senders c fd' (List.mem_of_mem_eraseIdx hc) ho, h.mSocket, h.connected,
      h.session, h.isolated.1, h.isolated.2.1, fun x hx => ?_⟩
    · simpa only [RecvAt, (sendAsync_frame s.provider fd data ctx).1,
        (sendAsync_frame s.provider fd data ctx).2] using hop
    · rcases mContext_of_sendAsync hop with hop | ⟨rfl, hctx⟩
      · exact h.sends fd' op ho hop
      · rw [hctx]
        exact h.senders ctx fd' hmem ho
    · rcases List.mem_append.mp hx with hx | hx
      · exact h.isolated.2.2 x hx
      · split at hx
        next hrefused =>
          obtain ⟨op, hop, rfl⟩ := Option.map_eq_some_iff.mp (Option.mem_toList.mp hx)
          rintro rfl
          exact h.sends fd op hrefused.2 hop
        · cases hx

theorem within_setEntries {p : Provider} {w : Worker} (entries : List CompletionEntry)
    (hw : p.workers[k]? = some w) : Within (p.setWorker k { w with entries := entries }) p :=
  Within.of_setWorker rfl (fun _ _ hheld => recvAt_of_held hw hheld) (fun _ _ => Or.inl)
    fun _ op hop => ⟨op, hop, rfl⟩

/-- An entry is skipped, or the handler begins with it. -/
theorem takeEntry_cases (s : Engine) (k : Nat) (w : Worker) (entry : CompletionEntry)
    (rest : List CompletionEntry) :
    s.takeEntry k w entry rest = { s with
        provider := s.provider.setWorker k { w with entries := rest } } ∨
      ∃ pc, s.takeEntry k w entry rest = { s with
          provider := s.provider.setWorker k { w with entries := rest } }.setHandler k pc ∧
        (pc = .close entry.mContext ∨
          (pc = .recvTest entry.mContext entry.mResult.toNat ∧ entry.isError = false ∧
            entry.mType = .recv)) := by
  unfold Engine.takeEntry
  split
  · exact Or.inl rfl
  · split
    · exact Or.inr ⟨_, rfl, Or.inl rfl⟩
    next herror =>
      split
      next htype => exact Or.inr ⟨_, rfl, Or.inr ⟨rfl, by simpa using herror, htype⟩⟩
      · exact Or.inl rfl

theorem OwnedInv.handle (h : OwnedInv me s) {accepted : Bool} {pc : HandlerPc}
    (hpc : s.handlers[k]? = some pc) (hs : s.handle k accepted pc = some s') : OwnedInv me s' := by
  cases pc with
  | idle =>
      obtain ⟨w, hw, hs⟩ := Option.bind_eq_some_iff.mp hs
      split at hs
      next entry rest hstage hentries =>
        cases hs
        have hskip : OwnedInv me { s with
            provider := s.provider.setWorker k { w with entries := rest } } :=
          h.of_within (within_setEntries rest hw) rfl rfl rfl (fun _ h => h) h.isolated
        rcases takeEntry_cases s k w entry rest with heq | ⟨pc, heq, rfl | ⟨rfl, -⟩⟩ <;> rw [heq]
        · exact hskip
        · exact hskip.setHandler_of_ne fun _ _ h => by cases h
        · exact hskip.setHandler_of_ne fun _ _ h => by cases h
      · cases hs
  | recvTest c n =>
      cases hs
      refine h.setHandler_of_ne fun c' fd heq => ?_
      split at heq <;> cases heq
  | copy c n =>
      cases hs
      exact h.setHandler_of_ne fun _ _ h => by cases h
  | submit c dataCopy =>
      simp only [Engine.handle] at hs
      split at hs <;> cases hs
      · have hsubmitted : OwnedInv me { s with
            submitted := Function.update s.submitted c (s.submitted c ++ [dataCopy]) } := { h with }
        exact hsubmitted.setHandler_of_ne fun _ _ h => by cases h
      · exact h.disconnect.setHandler_of_ne fun _ _ h => by cases h
  | requeueTest c =>
      simp only [Engine.handle] at hs
      split at hs
      next x hx =>
        cases hs
        refine h.setHandler fun c' fd heq ho => ?_
        split at heq
        next hc =>
          cases heq
          rw [h.mSocket c x hx (h.connected c x hx hc)] at ho
          exact Option.some.inj ho
        · cases heq
      · cases hs
        exact h.setHandler_of_ne fun _ _ h => by cases h
  | requeue c fd =>
      cases hs
      have hmem := List.mem_of_getElem? hpc
      refine (h.recvAsync (h.handlers c fd hmem) recvBufferSize).setHandler_of_ne
        fun c' fd' heq => ?_
      split at heq <;> cases heq
  | close c =>
      cases hs
      exact h.disconnect.setHandler_of_ne fun _ _ h => by cases h

theorem receiving_eq_some {p : Provider} {op : RecvOp} (h : receiving p k = some (fd, op)) :
    ∃ w, p.workers[k]? = some w ∧ w.held = some (fd, op) := by
  unfold receiving at h
  split at h
  next e op' hstage =>
    obtain ⟨w, hw, hst⟩ := Option.map_eq_some_iff.mp hstage
    cases h
    exact ⟨w, hw, by rw [Worker.held, hst]⟩
  · cases h

theorem sending_eq_some {p : Provider} {op : SendOp} (h : sending maxEntries p k = some (fd, op)) :
    p.mPendingSendOps fd = some op := by
  unfold sending at h
  split at h
  · split at h
    · split at h
      · cases h
      · obtain ⟨op', hop, heq⟩ := Option.map_eq_some_iff.mp h
        cases heq
        exact hop
    · cases h
  · cases h

/-- A call of `recv()` brings bytes in on an open descriptor, or none. -/
theorem engineRecv_cases {r : RecvResult} (h : engineStep maxEntries s (.recv k r) = some s') :
    ∃ w p, s.provider.workers[k]? = some w ∧ s.provider.recv k w r = some p ∧
      ((s' = { s with provider := p } ∧ ∀ bytes, r = .data bytes → bytes = []) ∨
        ∃ fd op o bytes, w.held = some (fd, op) ∧ s.owner fd = some o ∧ r = .data bytes ∧
          bytes ≠ [] ∧ s' = { s with
            provider := p
            buffers := Function.update s.buffers op.mBuffer (fill (s.buffers op.mBuffer) bytes)
            received := Function.update s.received o (s.received o ++ [bytes])
            recvLog := s.recvLog ++ [(o, op)] }) := by
  have hlift : ∀ t, s.lift maxEntries (.recv k r) = some t →
      ∃ w p, s.provider.workers[k]? = some w ∧ s.provider.recv k w r = some p ∧
        t = { s with provider := p } := by
    intro t ht
    obtain ⟨p, hp, rfl⟩ := Option.map_eq_some_iff.mp ht
    obtain ⟨w, hw, hp⟩ := Option.bind_eq_some_iff.mp hp
    exact ⟨w, p, hw, hp, rfl⟩
  simp only [engineStep] at h
  split at h
  next fd op bytes hrecv =>
    split at h
    · cases h
    next o ho =>
      obtain ⟨t, ht, rfl⟩ := Option.map_eq_some_iff.mp h
      obtain ⟨w, p, hw, hp, rfl⟩ := hlift t ht
      refine ⟨w, p, hw, hp, ?_⟩
      by_cases hb : bytes = []
      · rw [if_pos hb]
        refine Or.inl ⟨rfl, fun b hr => ?_⟩
        cases hr
        exact hb
      · rw [if_neg hb]
        obtain ⟨w', hw', hheld⟩ := receiving_eq_some hrecv
        cases hw.symm.trans hw'
        exact Or.inr ⟨fd, op, o, bytes, hheld, ho, rfl, hb, rfl⟩
  next fd op hrecv =>
    split at h
    · obtain ⟨w, p, hw, hp, rfl⟩ := hlift s' h
      exact ⟨w, p, hw, hp, Or.inl ⟨rfl, fun b hr => by cases hr⟩⟩
    · cases h
  next hdata hblock =>
    obtain ⟨w, p, hw, hp, rfl⟩ := hlift s' h
    refine ⟨w, p, hw, hp, Or.inl ⟨rfl, fun b hr => ?_⟩⟩
    obtain ⟨e, op, hstage, -⟩ := recv_cases hp
    exact absurd hr (hdata e.fd op b (by simp [receiving, hw, hstage]))

theorem OwnedInv.recv (h : OwnedInv me s) {r : RecvResult}
    (hs : engineStep maxEntries s (.recv k r) = some s') : OwnedInv me s' := by
  obtain ⟨w, p, hw, hp, ⟨rfl, -⟩ | ⟨fd, op, o, bytes, hheld, ho, -, -, rfl⟩⟩ := engineRecv_cases hs
  · exact h.of_within (within_of_recv hw hp) rfl rfl rfl (fun _ h => h) h.isolated
  · refine h.of_within (within_of_recv hw hp) rfl rfl rfl (fun _ h => h)
      ⟨fun x hx => ?_, h.isolated.2⟩
    rcases List.mem_append.mp hx with hx | hx
    · exact h.isolated.1 x hx
    · rw [List.mem_singleton.mp hx]
      rintro rfl
      exact h.recvs fd op ho (recvAt_of_held hw hheld)

/-- The `EPOLLOUT` part of an event is a step of the provider, with a record of
the connection when bytes were sent. -/
theorem engineOut_cases {r : SendResult} (h : engineStep maxEntries s (.out k r) = some s') :
    ∃ w p, s.provider.workers[k]? = some w ∧ s.provider.out maxEntries k w r = some p ∧
      (s' = { s with provider := p } ∨
        ∃ fd op o, s.provider.mPendingSendOps fd = some op ∧ s.owner fd = some o ∧
          s' = { s with provider := p, sendLog := s.sendLog ++ [(o, op.mContext)] }) := by
  have hlift : ∀ t, s.lift maxEntries (.out k r) = some t →
      ∃ w p, s.provider.workers[k]? = some w ∧ s.provider.out maxEntries k w r = some p ∧
        t = { s with provider := p } := by
    intro t ht
    obtain ⟨p, hp, rfl⟩ := Option.map_eq_some_iff.mp ht
    obtain ⟨w, hw, hp⟩ := Option.bind_eq_some_iff.mp hp
    exact ⟨w, p, hw, hp, rfl⟩
  simp only [engineStep] at h
  split at h
  next fd op n hsend =>
    split at h
    · cases h
    next o ho =>
      obtain ⟨t, ht, rfl⟩ := Option.map_eq_some_iff.mp h
      obtain ⟨w, p, hw, hp, rfl⟩ := hlift t ht
      exact ⟨w, p, hw, hp, Or.inr ⟨fd, op, o, sending_eq_some hsend, ho, rfl⟩⟩
  · obtain ⟨w, p, hw, hp, rfl⟩ := hlift s' h
    exact ⟨w, p, hw, hp, Or.inl rfl⟩

theorem OwnedInv.out (h : OwnedInv me s) {r : SendResult}
    (hs : engineStep maxEntries s (.out k r) = some s') : OwnedInv me s' := by
  obtain ⟨w, p, hw, hp, rfl | ⟨fd, op, o, hop, ho, rfl⟩⟩ := engineOut_cases hs
  · exact h.of_within (within_of_out hp) rfl rfl rfl (fun _ h => h) h.isolated
  · refine h.of_within (within_of_out hp) rfl rfl rfl (fun _ h => h)
      ⟨h.isolated.1, fun x hx => ?_, h.isolated.2.2⟩
    rcases List.mem_append.mp hx with hx | hx
    · exact h.isolated.2.1 x hx
    · rw [List.mem_singleton.mp hx]
      rintro rfl
      exact h.sends fd op ho hop

/-- Each step keeps it, if the descriptor that `me` gets is fresh. -/
theorem OwnedInv.step {a : EngineAct} (h : OwnedInv me s) (hfresh : freshFd me s a = true)
    (hs : engineStep maxEntries s a = some s') : OwnedInv me s' := by
  cases a with
  | accept fd ctx =>
      simp only [engineStep] at hs
      split at hs
      next hguard =>
        cases hs
        exact h.accept hfresh hguard.2.1 hguard.2.2
      · cases hs
  | acceptStep => exact h.acceptStep hs
  | disconnect ctx =>
      cases hs
      exact h.disconnect
  | closeSocket ctx =>
      simp only [engineStep] at hs
      split at hs
      · cases hs
      next hdown =>
        cases hs
        exact h.closeSocket (by simpa using hdown)
  | loadSocket ctx =>
      simp only [engineStep] at hs
      split at hs
      next x hx =>
        split at hs
        next hm =>
          cases hs
          refine { h with senders := fun c fd hmem ho => ?_ }
          rcases List.mem_append.mp hmem with hmem | hmem
          · exact h.senders c fd hmem ho
          · cases List.mem_singleton.mp hmem
            exact Option.some.inj ((h.mSocket ctx x hx hm).symm.trans ho)
        · cases hs
      · cases hs
  | sendAsync i data => exact h.sendAsync hs
  | spawn =>
      cases hs
      have hspawn : OwnedInv me { s with
          provider := { s.provider with workers := s.provider.workers ++ [{}] } } :=
        h.of_within within_spawn rfl rfl rfl (fun _ h => h) h.isolated
      refine { hspawn with handlers := fun c fd hmem ho => ?_ }
      rcases List.mem_append.mp hmem with hmem | hmem
      · exact h.handlers c fd hmem ho
      · cases List.mem_singleton.mp hmem
  | epollWait k events =>
      simp only [engineStep] at hs
      split at hs
      · obtain ⟨p, hp, rfl⟩ := Option.map_eq_some_iff.mp hs
        obtain ⟨w, hw, hp⟩ := Option.bind_eq_some_iff.mp hp
        exact h.of_within (within_of_epollWait hp) rfl rfl rfl (fun _ h => h) h.isolated
      · cases hs
  | worker k =>
      obtain ⟨p, hp, rfl⟩ := Option.map_eq_some_iff.mp hs
      obtain ⟨w, hw, hp⟩ := Option.bind_eq_some_iff.mp hp
      exact h.of_within (within_of_workerStep hw hp) rfl rfl rfl (fun _ h => h) h.isolated
  | recv k r => exact h.recv hs
  | out k r => exact h.out hs
  | handle k accepted =>
      obtain ⟨pc, hpc, hs⟩ := Option.bind_eq_some_iff.mp hs
      exact h.handle hpc hs

theorem ownedInv_of_run {acts : List EngineAct}
    (hfresh : Machine.Meets (engineStep maxEntries) (fun s a => freshFd me s a = true) {} acts)
    (hrun : Machine.run (engineStep maxEntries) {} acts = some s) : OwnedInv me s :=
  Machine.run_invariant_of_meets (fun _ _ _ h hok hs => h.step hok hs) ownedInv_init hfresh hrun

/-- A session whose descriptor was not given to it while an operation of an old
session was left on it has its connection to itself: what is received on it is
reported for the session and goes into its buffer, and no send on it is mixed with,
or refused because of, a send of another session. -/
theorem isolated_of_freshFd {acts : List EngineAct}
    (hfresh : Machine.Meets (engineStep maxEntries) (fun s a => freshFd me s a = true) {} acts)
    (hrun : Machine.run (engineStep maxEntries) {} acts = some s) : Isolated me s :=
  (ownedInv_of_run hfresh hrun).isolated

/-- Session 1 is closed while its receive is in the map.  A worker that has an
event for the descriptor takes the receive and `recv()` fails.  Then the
descriptor is given to session 2, and its data goes to session 2. -/
def reuseTrace : List EngineAct :=
  [.spawn, .accept 3 1, .acceptStep, .acceptStep, .epollWait 0 [⟨3, true, false, false, false⟩],
    .disconnect 1, .closeSocket 1, .worker 0, .worker 0, .recv 0 (.error 9), .worker 0,
    .handle 0 true, .handle 0 true, .accept 3 2, .acceptStep, .acceptStep,
    .epollWait 0 [⟨3, true, false, false, false⟩], .worker 0, .worker 0, .recv 0 (.data [104, 105])]

theorem isolated_reuseTrace :
    ∃ s, Machine.run (engineStep 64) {} reuseTrace = some s ∧ s.received 2 = [[104, 105]] ∧
      s.recvLog = [(2, ⟨2, 2, 8192⟩)] ∧ Isolated 2 s :=
  ⟨_, rfl, by decide, by decide,
    @isolated_of_freshFd 64 2 _ reuseTrace (by decide +kernel) rfl⟩

/-- Session 1 is closed while a receive and a send of it are in the maps, and the
descriptor is given to session 2.  The first send of session 2 is refused because
of the old one, and its first data goes to session 1. -/
def staleTrace : List EngineAct :=
  [.spawn, .accept 3 1, .acceptStep, .acceptStep, .loadSocket 1, .sendAsync 0 [1, 2, 3],
    .disconnect 1, .closeSocket 1, .accept 3 2, .acceptStep, .loadSocket 2, .sendAsync 0 [9],
    .epollWait 0 [⟨3, true, false, false, false⟩], .worker 0, .worker 0, .recv 0 (.data [104, 105])]

theorem not_isolated_staleTrace :
    ∃ s, Machine.run (engineStep 64) {} staleTrace = some s ∧ s.received 2 = [[104, 105]] ∧
      s.buffers 1 = [104, 105] ∧ s.recvLog = [(2, ⟨1, 1, 8192⟩)] ∧ s.refused = [(2, 1)] ∧
      ¬ Isolated 2 s :=
  ⟨_, rfl, by decide, by decide, by decide, by decide, by decide⟩

end

end NetworkModule.EpollEngine
