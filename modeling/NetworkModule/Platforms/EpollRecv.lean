import NetworkModule.Lib.Tally
import NetworkModule.Platforms.EpollEngine
import Mathlib

/-!
# The receives of a connection

A session has one receive buffer, and any number of workers may get events for
its descriptor.  What keeps them apart is a token.  The receive that is queued for
the session is in the map, or in the hands of the worker that took it, or it has
become an entry, or a handler is at work on the entry and will queue the next
receive.  There is never more than one of these (`RecvInv.token`), so while a chunk
is in transit from `recv()` to the logic queue nobody calls `recv()` for the session
again, and the buffer holds the chunk until it has been copied.

`chunks_submitted` says what follows for the logic queue.  It is about a session
whose descriptor was fresh when it got it, as long as the session is connected.
-/

namespace NetworkModule.EpollEngine

open AsyncIO Epoll

/-! ## The token -/

section
variable (me : UInt64)

/-- An entry about data that session `me` has received. -/
def carries (entry : CompletionEntry) : Bool :=
  entry.mContext == me && entry.mType == .recv && !entry.isError

/-- The entries about data of session `me` that are to be handled. -/
def carriers (p : Provider) : List CompletionEntry :=
  p.workers.flatMap fun w => w.entries.filter (carries me)

/-- A handler has data of session `me` to submit. -/
def HandlerPc.carries : HandlerPc → Bool
  | .recvTest c _ | .copy c _ | .submit c _ => c == me
  | _ => false

/-- A handler is about to queue the next receive of session `me`. -/
def HandlerPc.requeues : HandlerPc → Bool
  | .requeueTest c | .requeue c _ => c == me
  | _ => false

/-- The chunks of session `me` that `recv()` has returned and that have not been
submitted. -/
def inTransit (s : Engine) : Nat :=
  (carriers me s.provider).length + s.handlers.countP (HandlerPc.carries me)

/-- These, and the threads that are to queue a receive for session `me`. -/
def busy (s : Engine) : Nat :=
  inTransit me s + s.handlers.countP (HandlerPc.requeues me) +
    (s.accepting.any (·.1 == me)).toNat

/-- The receives on a descriptor that are pending: in the map, or in the hands of a
worker. -/
def pendingRecvs (p : Provider) (fd : Fd) : Nat :=
  (p.mPendingRecvOps fd).isSome.toNat + p.workers.countP fun w => w.held.any (·.1 == fd)

/-- The buffer of session `me` begins with the `n` bytes of a chunk, and that chunk
is the only one that has not been submitted. -/
def InBuffer (s : Engine) (n : Nat) : Prop :=
  ∃ chunk, s.received me = s.submitted me ++ [chunk] ∧ chunk.length = n ∧
    (s.buffers me).take n = chunk

/-- What a handler works on is the chunk that has not been submitted. -/
def HandlerPc.Right (s : Engine) : HandlerPc → Prop
  | .recvTest c n | .copy c n => c = me → InBuffer me s n
  | .submit c dataCopy => c = me → s.received me = s.submitted me ++ [dataCopy]
  | _ => True

end

/-- The entries that the workers are about to write are about sends. -/
def WritesSends (p : Provider) : Prop :=
  ∀ w ∈ p.workers, ∀ entry, w.writing = some entry → entry.mType = .send

/-- There is one token for a connected session, and its data is in order. -/
structure RecvInv (me : UInt64) (s : Engine) : Prop where
  owned : OwnedInv me s
  /-- A receive for the session is on its descriptor. -/
  placed : ∀ fd op, RecvAt s.provider fd op → op.mContext = me ∨ op.mBuffer = me →
    ∃ x, s.sessions me = some x ∧ x.fd = fd
  requeue : ∀ fd, HandlerPc.requeue me fd ∈ s.handlers → ∃ x, s.sessions me = some x ∧ x.fd = fd
  writing : WritesSends s.provider
  unborn : s.sessions me = none → busy me s = 0 ∧ s.received me = s.submitted me
  token : ∀ x, s.sessions me = some x → x.connected = true →
    pendingRecvs s.provider x.fd + busy me s ≤ 1
  idle : s.isConnected me = true → inTransit me s = 0 → s.received me = s.submitted me
  entry : s.isConnected me = true → ∀ e ∈ carriers me s.provider, InBuffer me s e.mResult.toNat
  handler : s.isConnected me = true → ∀ pc ∈ s.handlers, pc.Right me s

/-! ## Steps of the provider that move no chunk -/

/-- A step of the provider that makes no receive and moves no chunk. -/
structure Quiet (me : UInt64) (p p' : Provider) : Prop where
  recvs : ∀ fd op, RecvAt p' fd op → RecvAt p fd op
  carriers : carriers me p' = carriers me p
  writing : WritesSends p'
  pending : ∀ fd, pendingRecvs p' fd ≤ pendingRecvs p fd

section
variable {maxEntries : Nat} {me : UInt64} {p p' : Provider} {k : Nat} {w w' : Worker}

theorem not_carries_of_isError {entry : CompletionEntry} (h : entry.isError = true) :
    carries me entry = false := by
  simp [carries, h]

theorem not_carries_of_send {entry : CompletionEntry} (h : entry.mType = .send) :
    carries me entry = false := by
  simp [carries, h]

theorem writesSends_set (h : WritesSends p) (hworkers : p'.workers = p.workers.set k w')
    (hw' : ∀ entry, w'.writing = some entry → entry.mType = .send) : WritesSends p' := by
  intro w'' hmem entry hentry
  rw [hworkers] at hmem
  rcases List.mem_or_eq_of_mem_set hmem with hmem | rfl
  · exact h w'' hmem entry hentry
  · exact hw' entry hentry

theorem Quiet.of_setWorker (hwr : WritesSends p) (hwithin : Within p' p)
    (hw : p.workers[k]? = some w) (hworkers : p'.workers = p.workers.set k w')
    (hentries : w'.entries.filter (carries me) = w.entries.filter (carries me))
    (hwriting : ∀ entry, w'.writing = some entry → entry.mType = .send)
    (hpending : ∀ fd, (p'.mPendingRecvOps fd).isSome.toNat + (w'.held.any (·.1 == fd)).toNat ≤
      (p.mPendingRecvOps fd).isSome.toNat + (w.held.any (·.1 == fd)).toNat) : Quiet me p p' where
  recvs := hwithin.recvs
  carriers := by
    rw [EpollEngine.carriers, hworkers]
    exact Tally.flatMap_set_of_eq hw hentries
  writing := writesSends_set hwr hworkers hwriting
  pending fd := by
    have hcount := Tally.countP_set (fun w : Worker => w.held.any (·.1 == fd)) w' hw
    have hfd := hpending fd
    simp only [pendingRecvs, hworkers]
    omega

theorem isSome_update_none (f : Fd → Option RecvOp) (fd fd' : Fd) :
    (Function.update f fd none fd').isSome.toNat ≤ (f fd').isSome.toNat := by
  simp only [Function.update_apply]
  split
  · exact Nat.zero_le _
  · exact Nat.le_refl _

theorem quiet_of_workerStep (hwr : WritesSends p) (hw : p.workers[k]? = some w)
    (h : p.workerStep maxEntries k w = some p') : Quiet me p p' := by
  have hwithin := within_of_workerStep hw h
  rcases workerStep_cases h with ⟨w', rfl, hheld, hheld', hentries, hwriting⟩ |
    ⟨e, w', rfl, hheld, hheld', hentries, hwriting⟩ | ⟨e, op, hstage, hop, rfl⟩ |
    ⟨e, op, hstage, rfl⟩ | ⟨fd, b, entry, hstage, rfl⟩
  · refine Quiet.of_setWorker hwr hwithin hw rfl (by rw [hentries]) (fun entry h => ?_) fun fd => ?_
    · rw [hwriting] at h
      cases h
    · rw [hheld, hheld']
      exact Nat.le_refl _
  · refine Quiet.of_setWorker hwr hwithin hw rfl ?_ (fun entry h => ?_) fun fd => ?_
    · have herror : (p.hangup e).2.toList.filter (carries me) = [] := by
        refine List.filter_eq_nil_iff.mpr fun entry hmem => ?_
        simp only [Provider.hangup, Option.mem_toList, Option.ite_none_left_eq_some] at hmem
        obtain ⟨-, hentry⟩ := hmem
        rw [← Option.some.inj hentry, not_carries_of_isError (by simp [CompletionEntry.isError])]
        exact Bool.false_ne_true
      rw [hentries, List.filter_append, herror, List.append_nil]
    · rw [hwriting] at h
      cases h
    · rw [hheld, hheld']
      exact Nat.add_le_add_right (isSome_update_none p.mPendingRecvOps e.fd fd) _
  · refine Quiet.of_setWorker hwr hwithin hw rfl rfl (fun entry h => by cases h) fun fd => ?_
    have hheld : w.held = none := by rw [Worker.held, hstage]
    rw [hheld]
    by_cases hfd : fd = e.fd
    · subst hfd
      simp [Provider.setWorker, hop]
    · have hne : (e.fd == fd) = false := by simpa using Ne.symm hfd
      simp [Provider.setWorker, hfd, hne]
  · refine Quiet.of_setWorker hwr hwithin hw rfl rfl (fun entry h => by cases h) fun fd => ?_
    have hheld : w.held = some (e.fd, op) := by rw [Worker.held, hstage]
    rw [hheld]
    by_cases hfd : fd = e.fd
    · subst hfd
      simp [Provider.setWorker]
    · simp [Provider.setWorker, hfd]
  · have hheld : w.held = none := by rw [Worker.held, hstage]
    rw [ctlMod_getD] at hwithin ⊢
    refine Quiet.of_setWorker hwr hwithin hw rfl ?_ (fun entry h => by cases h) fun fd => ?_
    · have hsend : entry.toList.filter (carries me) = [] := by
        refine List.filter_eq_nil_iff.mpr fun e he => ?_
        have hwriting : w.writing = some e := by
          rw [Worker.writing, hstage]
          exact Option.mem_toList.mp he
        rw [not_carries_of_send (hwr w (List.mem_of_getElem? hw) e hwriting)]
        exact Bool.false_ne_true
      rw [List.filter_append, hsend, List.append_nil]
    · rw [hheld]
      exact Nat.le_refl _

theorem writesSends_of_recv {r : RecvResult} (hwr : WritesSends p) (h : p.recv k w r = some p') :
    WritesSends p' := by
  obtain ⟨e, op, -, ⟨-, rfl⟩ | ⟨bytes, w', -, rfl, -, -, hwriting, -⟩ |
    ⟨errno, w', -, rfl, -, -, hwriting⟩⟩ := recv_cases h
  · exact writesSends_set hwr rfl fun entry h => by cases h
  · exact writesSends_set hwr rfl fun entry h => by rw [hwriting] at h; cases h
  · exact writesSends_set hwr rfl fun entry h => by rw [hwriting] at h; cases h

/-- A `recv()` that brings in nothing for session `me`. -/
theorem quiet_of_recv {r : RecvResult} (hwr : WritesSends p) (hw : p.workers[k]? = some w)
    (h : p.recv k w r = some p')
    (hno : ∀ fd op bytes, w.held = some (fd, op) → r = .data bytes → bytes = [] ∨ op.mContext ≠ me) :
    Quiet me p p' := by
  have hwithin := within_of_recv hw h
  obtain ⟨e, op, hstage, hcases⟩ := recv_cases h
  have hheld : w.held = some (e.fd, op) := by rw [Worker.held, hstage]
  -- The worker gives its receive away and writes an entry that is not for `me`.
  have hwrite : ∀ (w' : Worker) (entry : CompletionEntry), carries me entry = false →
      p' = p.setWorker k w' → w'.held = none → w'.entries = w.entries ++ [entry] →
      w'.writing = none → Quiet me p p' := by
    rintro w' entry hentry rfl hheld' hentries hwriting
    refine Quiet.of_setWorker hwr hwithin hw rfl ?_ (fun entry' h => ?_) fun fd => ?_
    · rw [hentries, List.filter_append, List.filter_cons_of_neg (by simp [hentry]), List.filter_nil,
        List.append_nil]
    · rw [hwriting] at h
      cases h
    · rw [hheld']
      exact Nat.add_le_add_left (Nat.zero_le _) _
  rcases hcases with ⟨-, rfl⟩ | ⟨bytes, w', hr, hp', hheld', hentries, hwriting, -⟩ |
    ⟨errno, w', -, hp', hheld', hentries, hwriting⟩
  · refine Quiet.of_setWorker hwr hwithin hw rfl rfl (fun entry h => by cases h) fun fd => ?_
    rw [hheld]
    exact Nat.le_refl _
  · refine hwrite w' _ ?_ hp' hheld' hentries hwriting
    rcases hno e.fd op bytes hheld hr with hempty | hne
    · exact not_carries_of_isError (by simp [CompletionEntry.isError, hempty])
    · simp [carries, hne]
  · exact hwrite w' _ (not_carries_of_isError (by simp [CompletionEntry.isError])) hp' hheld'
      hentries hwriting

theorem quiet_of_out {r : SendResult} (hwr : WritesSends p) (hw : p.workers[k]? = some w)
    (h : p.out maxEntries k w r = some p') : Quiet me p p' := by
  have hwithin := within_of_out h
  obtain ⟨e, w', hstage, hworkers, hrecvs, -, hheld, hentries, hwriting, -⟩ := out_cases h
  refine Quiet.of_setWorker hwr hwithin hw hworkers (by rw [hentries]) hwriting fun fd => ?_
  rw [hrecvs, hheld]
  exact Nat.add_le_add_left (Nat.zero_le _) _

theorem quiet_of_epollWait {events : List Event} (hwr : WritesSends p) (hw : p.workers[k]? = some w)
    (h : p.epollWait maxEntries k w events = some p') : Quiet me p p' := by
  have hwithin := within_of_epollWait h
  unfold Provider.epollWait at h
  split at h
  · cases h
    refine Quiet.of_setWorker hwr hwithin hw rfl rfl (fun entry h => by cases h) fun fd => ?_
    exact Nat.add_le_add_left (Nat.zero_le _) _
  · cases h

theorem quiet_spawn (hwr : WritesSends p) :
    Quiet me p { p with workers := p.workers ++ [{}] } where
  recvs := within_spawn.recvs
  carriers := by simp [EpollEngine.carriers]
  writing w hmem entry hentry := by
    rcases List.mem_append.mp hmem with hmem | hmem
    · exact hwr w hmem entry hentry
    · rw [List.mem_singleton.mp hmem] at hentry
      cases hentry
  pending fd := by
    simp only [pendingRecvs, Tally.countP_concat]
    exact Nat.le_refl _

/-- A handler takes an entry that is not about data of session `me`. -/
theorem quiet_setEntries {entry : CompletionEntry} {rest : List CompletionEntry}
    (hwr : WritesSends p) (hw : p.workers[k]? = some w) (hentries : w.entries = entry :: rest)
    (hno : carries me entry = false) : Quiet me p (p.setWorker k { w with entries := rest }) := by
  refine Quiet.of_setWorker hwr (within_setEntries rest hw) hw rfl ?_ (fun e h => ?_) fun fd => ?_
  · rw [hentries, List.filter_cons_of_neg (by simp [hno])]
  · exact hwr w (List.mem_of_getElem? hw) e h
  · exact Nat.le_refl _

end

/-! ## Steps that move no chunk -/

theorem Quiet.refl {me : UInt64} {p : Provider} (h : WritesSends p) : Quiet me p p :=
  ⟨fun _ _ h => h, rfl, h, fun _ => Nat.le_refl _⟩

section
variable {maxEntries : Nat} {me c : UInt64} {s s' : Engine} {k : Nat} {fd : Fd} {x : Sess}

theorem recvInv_init : RecvInv me {} where
  owned := ownedInv_init
  placed fd op h := by
    rcases h with h | ⟨w, hw, -⟩
    · cases h
    · cases hw
  requeue fd h := by cases h
  writing w h := by cases h
  unborn _ := ⟨rfl, rfl⟩
  token x h := by cases h
  idle h := by cases h
  entry h := by cases h
  handler h := by cases h

theorem right_of_not_carries {pc : HandlerPc} (h : pc.carries me = false) : pc.Right me s := by
  cases pc with
  | recvTest c n | copy c n | submit c d =>
      intro hc
      simp [HandlerPc.carries, hc] at h
  | idle | requeueTest c | requeue c fd | close c => trivial

theorem Right.congr {pc : HandlerPc} (hdata : s'.received me = s.received me ∧
      s'.submitted me = s.submitted me ∧ s'.buffers me = s.buffers me) (h : pc.Right me s) :
    pc.Right me s' := by
  obtain ⟨hr, hs, hb⟩ := hdata
  cases pc with
  | recvTest c n | copy c n =>
      simp only [HandlerPc.Right, InBuffer, hr, hs, hb] at h ⊢
      exact h
  | submit c d =>
      simp only [HandlerPc.Right, hr, hs] at h ⊢
      exact h
  | idle | requeueTest c | requeue c fd | close c => trivial

theorem isConnected_iff : s.isConnected c = true ↔ ∃ x, s.sessions c = some x ∧ x.connected = true := by
  cases h : s.sessions c <;> simp [Engine.isConnected, h]

/-- Of a session that has been disconnected little is asked. -/
theorem RecvInv.of_down (h : RecvInv me s) {y : Sess} (howned : OwnedInv me s')
    (hrecvs : ∀ fd op, RecvAt s'.provider fd op → RecvAt s.provider fd op)
    (hwriting : WritesSends s'.provider)
    (hrequeue : ∀ fd, HandlerPc.requeue me fd ∈ s'.handlers → HandlerPc.requeue me fd ∈ s.handlers)
    (hx : s.sessions me = some x) (hy : s'.sessions me = some y) (hfd : y.fd = x.fd)
    (hdown : y.connected = false) : RecvInv me s' := by
  have hno : ¬ s'.isConnected me = true := by simp [Engine.isConnected, hy, hdown]
  have hplace : ∀ fd, (∃ z, s.sessions me = some z ∧ z.fd = fd) →
      ∃ z, s'.sessions me = some z ∧ z.fd = fd := by
    rintro fd ⟨z, hz, rfl⟩
    cases hx.symm.trans hz
    exact ⟨y, hy, hfd⟩
  refine ⟨howned, fun fd op hop hme => hplace fd (h.placed fd op (hrecvs fd op hop) hme),
    fun fd hmem => hplace fd (h.requeue fd (hrequeue fd hmem)), hwriting, fun hnone => ?_,
    fun z hz hc => ?_, fun hc => absurd hc hno, fun hc => absurd hc hno, fun hc => absurd hc hno⟩
  · rw [hy] at hnone
    cases hnone
  · cases hy.symm.trans hz
    rw [hdown] at hc
    cases hc

theorem RecvInv.frame (h : RecvInv me s) (howned : OwnedInv me s')
    (hq : Quiet me s.provider s'.provider) (hsessions : s'.sessions me = s.sessions me)
    (hhandlers : s'.handlers = s.handlers)
    (haccepting : (s'.accepting.any (·.1 == me)).toNat ≤ (s.accepting.any (·.1 == me)).toNat)
    (hdata : s'.received me = s.received me ∧ s'.submitted me = s.submitted me ∧
      s'.buffers me = s.buffers me) : RecvInv me s' := by
  have htransit : inTransit me s' = inTransit me s := by rw [inTransit, hq.carriers, hhandlers, inTransit]
  have hbusy : busy me s' ≤ busy me s := by
    simp only [busy, htransit, hhandlers]
    omega
  have hconn : s'.isConnected me = s.isConnected me := by
    rw [Engine.isConnected, hsessions, Engine.isConnected]
  refine ⟨howned, fun fd op hop hme => ?_, fun fd hmem => ?_, hq.writing, fun hnone => ?_,
    fun x hx hc => ?_, fun hc hidle => ?_, fun hc e he => ?_, fun hc pc hpc => ?_⟩
  · rw [hsessions]
    exact h.placed fd op (hq.recvs fd op hop) hme
  · rw [hsessions]
    exact h.requeue fd (hhandlers ▸ hmem)
  · obtain ⟨hzero, heq⟩ := h.unborn (hsessions ▸ hnone)
    refine ⟨by omega, ?_⟩
    rw [hdata.1, hdata.2.1]
    exact heq
  · have htoken := h.token x (hsessions ▸ hx) hc
    have hpending := hq.pending x.fd
    omega
  · rw [hdata.1, hdata.2.1]
    exact h.idle (hconn ▸ hc) (htransit ▸ hidle)
  · obtain ⟨chunk, hchunk⟩ := h.entry (hconn ▸ hc) e (hq.carriers ▸ he)
    refine ⟨chunk, ?_⟩
    rw [hdata.1, hdata.2.1, hdata.2.2]
    exact hchunk
  · exact Right.congr hdata (h.handler (hconn ▸ hc) pc (hhandlers ▸ hpc))

/-- A handler goes on without giving a chunk away. -/
theorem RecvInv.setHandler (h : RecvInv me s) {pc pc' : HandlerPc} (hpc : s.handlers[k]? = some pc)
    (howned : OwnedInv me (s.setHandler k pc')) (hcarries : pc'.carries me = pc.carries me)
    (hrequeues : (pc'.requeues me).toNat ≤ (pc.requeues me).toNat)
    (hright : s.isConnected me = true → pc'.Right me s)
    (hrequeue : ∀ fd, pc' = .requeue me fd → ∃ x, s.sessions me = some x ∧ x.fd = fd) :
    RecvInv me (s.setHandler k pc') := by
  have hcount := Tally.countP_set (HandlerPc.carries me) pc' hpc
  have hcount' := Tally.countP_set (HandlerPc.requeues me) pc' hpc
  rw [hcarries] at hcount
  have htransit : inTransit me (s.setHandler k pc') = inTransit me s := by
    simp only [inTransit, Engine.setHandler]
    omega
  have hbusy : busy me (s.setHandler k pc') ≤ busy me s := by
    rw [busy, busy, htransit]
    simp only [Engine.setHandler]
    omega
  refine ⟨howned, h.placed, fun fd hmem => ?_, h.writing, fun hnone => ?_, fun x hx hc => ?_,
    fun hc hidle => h.idle hc (htransit ▸ hidle), h.entry, fun hc pc'' hpc'' => ?_⟩
  · rcases List.mem_or_eq_of_mem_set hmem with hmem | heq
    · exact h.requeue fd hmem
    · exact hrequeue fd heq.symm
  · obtain ⟨hzero, heq⟩ := h.unborn hnone
    exact ⟨by omega, heq⟩
  · have htoken := h.token x hx hc
    exact le_trans (Nat.add_le_add_left hbusy _) htoken
  · rcases List.mem_or_eq_of_mem_set hpc'' with hmem | rfl
    · exact h.handler hc pc'' hmem
    · exact hright hc

theorem pendingRecvs_recvAsync (p : Provider) (fd fd' : Fd) (size : Nat) :
    pendingRecvs (p.recvAsync fd c size c).1 fd' ≤ pendingRecvs p fd' + (fd' == fd).toNat := by
  by_cases hfd : fd' = fd
  · subst hfd
    have hone := Bool.toNat_le (((p.recvAsync fd' c size c).1.mPendingRecvOps fd').isSome)
    simp only [pendingRecvs, (recvAsync_frame p fd' c size c).2, beq_self_eq_true, Bool.toNat_true]
    omega
  · have hsame : (p.recvAsync fd c size c).1.mPendingRecvOps fd' = p.mPendingRecvOps fd' := by
      rcases recvAsync_cases p fd c size c with heq | ⟨-, heq⟩ | ⟨-, heq⟩ <;> rw [heq]
      · exact Function.update_of_ne hfd ..
      · exact Function.update_of_ne hfd ..
    simp only [pendingRecvs, hsame, (recvAsync_frame p fd c size c).2]
    exact Nat.le_add_right _ _

/-- A worker is started. -/
theorem RecvInv.addHandler (h : RecvInv me s)
    (howned : OwnedInv me { s with handlers := s.handlers ++ [.idle] }) :
    RecvInv me { s with handlers := s.handlers ++ [.idle] } := by
  have hcarries : (s.handlers ++ [HandlerPc.idle]).countP (HandlerPc.carries me) =
      s.handlers.countP (HandlerPc.carries me) := Tally.countP_concat ..
  have hrequeues : (s.handlers ++ [HandlerPc.idle]).countP (HandlerPc.requeues me) =
      s.handlers.countP (HandlerPc.requeues me) := Tally.countP_concat ..
  have htransit : inTransit me { s with handlers := s.handlers ++ [.idle] } = inTransit me s := by
    rw [inTransit, hcarries, inTransit]
  have hbusy : busy me { s with handlers := s.handlers ++ [.idle] } = busy me s := by
    rw [busy, htransit, hrequeues, busy]
  refine ⟨howned, h.placed, fun fd hmem => ?_, h.writing, fun hnone => hbusy ▸ h.unborn hnone,
    fun x hx hc => hbusy ▸ h.token x hx hc, fun hc hidle => h.idle hc (htransit ▸ hidle), h.entry,
    fun hc pc hmem => ?_⟩
  · rcases List.mem_append.mp hmem with hmem | hmem
    · exact h.requeue fd hmem
    · cases List.mem_singleton.mp hmem
  · rcases List.mem_append.mp hmem with hmem | hmem
    · exact h.handler hc pc hmem
    · cases List.mem_singleton.mp hmem
      trivial

/-- `RecvAsync`, where the caller has just given up the token. -/
theorem RecvInv.recvAsync (h : RecvInv me s) (hfd : s.owner fd = some me → c = me) (size : Nat)
    (hplaced : c = me → ∃ x, s.sessions me = some x ∧ x.fd = fd)
    (hroom : ∀ x, s.sessions me = some x → x.connected = true → x.fd = fd →
      pendingRecvs s.provider fd + busy me s = 0) :
    RecvInv me { s with provider := (s.provider.recvAsync fd c size c).1 } := by
  have hworkers := (recvAsync_frame s.provider fd c size c).2
  have hcarriers : carriers me (s.provider.recvAsync fd c size c).1 = carriers me s.provider := by
    rw [carriers, hworkers, carriers]
  have htransit : inTransit me { s with provider := (s.provider.recvAsync fd c size c).1 } =
      inTransit me s := by
    rw [inTransit, hcarriers, inTransit]
  have hbusy : busy me { s with provider := (s.provider.recvAsync fd c size c).1 } = busy me s := by
    rw [busy, htransit, busy]
  refine ⟨h.owned.recvAsync hfd size, fun fd' op hop hme => ?_, h.requeue, ?_, fun hnone => ?_,
    fun x hx hc => ?_, fun hc hidle => h.idle hc (htransit ▸ hidle),
    fun hc e he => h.entry hc e (hcarriers ▸ he), h.handler⟩
  · rcases recvAt_of_recvAsync hop with hop | ⟨rfl, rfl⟩
    · exact h.placed fd' op hop hme
    · exact hplaced (by simpa using hme)
  · intro w hw
    rw [hworkers] at hw
    exact h.writing w hw
  · rw [hbusy]
    exact h.unborn hnone
  · have hpending := pendingRecvs_recvAsync (c := c) s.provider fd x.fd size
    rw [hbusy]
    by_cases heq : x.fd = fd
    · have hzero := hroom x hx hc heq
      have hone := Bool.toNat_le (x.fd == fd)
      rw [heq] at hpending hone ⊢
      simp only at hpending ⊢
      omega
    · have htoken := h.token x hx hc
      rw [beq_false_of_ne heq] at hpending
      simp only [Bool.toNat_false] at hpending ⊢
      omega

theorem RecvInv.disconnect (h : RecvInv me s) : RecvInv me (s.disconnect c) := by
  cases hx : (s.disconnect c).sessions me with
  | none =>
      refine h.frame h.owned.disconnect (Quiet.refl h.writing) ?_ rfl (Nat.le_refl _) ⟨rfl, rfl, rfl⟩
      cases hy : s.sessions me with
      | none => exact hx
      | some y =>
          obtain ⟨z, hz, -⟩ := disconnect_of_eq_some c hy
          rw [hx] at hz
          cases hz
  | some x =>
      obtain ⟨y, hy, hfd, -, -⟩ := disconnect_eq_some hx
      cases hc : x.connected with
      | false =>
          exact h.of_down h.owned.disconnect (fun _ _ hop => hop) h.writing (fun _ hmem => hmem) hy hx hfd hc
      | true =>
          refine h.frame h.owned.disconnect (Quiet.refl h.writing) ?_ rfl (Nat.le_refl _) ⟨rfl, rfl, rfl⟩
          obtain ⟨y', hy', -, -, hconn⟩ := disconnect_eq_some hx
          simp [Engine.disconnect, (hconn hc).2]

theorem closeSocket_sessions_of_ne (h : c ≠ me) : (s.closeSocket c).sessions me = s.sessions me := by
  unfold Engine.closeSocket
  split
  · rfl
  · split
    · exact Function.update_of_ne (Ne.symm h) ..
    · rfl

theorem closeSocket_frame (s : Engine) (c : UInt64) :
    (s.closeSocket c).handlers = s.handlers ∧ (s.closeSocket c).accepting = s.accepting ∧
      (s.closeSocket c).received = s.received ∧ (s.closeSocket c).submitted = s.submitted ∧
      (s.closeSocket c).buffers = s.buffers ∧
      ∃ interest, (s.closeSocket c).provider = { s.provider with interest := interest } := by
  unfold Engine.closeSocket
  split
  · exact ⟨rfl, rfl, rfl, rfl, rfl, _, rfl⟩
  · split <;> exact ⟨rfl, rfl, rfl, rfl, rfl, _, rfl⟩

theorem quiet_interest {p : Provider} {interest : Fd → Interest} (h : WritesSends p) :
    Quiet me p { p with interest := interest } :=
  ⟨fun _ _ hop => hop, rfl, h, fun _ => Nat.le_refl _⟩

theorem quiet_sendAsync {p : Provider} {data : List UInt8} (h : WritesSends p) :
    Quiet me p (p.sendAsync fd data c).1 := by
  obtain ⟨hrecvs, hworkers⟩ := sendAsync_frame p fd data c
  refine ⟨fun fd' op hop => ?_, by rw [carriers, hworkers, carriers], fun w hw => ?_, fun fd' => ?_⟩
  · rwa [RecvAt, hrecvs, hworkers] at hop
  · rw [hworkers] at hw
    exact h w hw
  · rw [pendingRecvs, hrecvs, hworkers, pendingRecvs]

theorem RecvInv.closeSocket (h : RecvInv me s) (hdown : s.isConnected c = false) :
    RecvInv me (s.closeSocket c) := by
  obtain ⟨hhandlers, haccepting, hreceived, hsubmitted, hbuffers, interest, hprovider⟩ :=
    closeSocket_frame s c
  have hq : Quiet me s.provider (s.closeSocket c).provider := by
    rw [hprovider]
    exact quiet_interest h.writing
  by_cases hc : c = me
  · subst hc
    cases hx : s.sessions c with
    | none =>
        have hsame : s.closeSocket c = s := by simp [Engine.closeSocket, hx]
        rw [hsame]
        exact h
    | some x =>
        have hy : ∃ y, (s.closeSocket c).sessions c = some y ∧ y.fd = x.fd ∧
            y.connected = x.connected := by
          unfold Engine.closeSocket
          rw [hx]
          simp only
          split
          · exact ⟨_, Function.update_self .., rfl, rfl⟩
          · exact ⟨x, hx, rfl, rfl⟩
        obtain ⟨y, hy, hfd, hconn⟩ := hy
        refine h.of_down (h.owned.closeSocket hdown) hq.recvs hq.writing
          (fun fd hmem => hhandlers ▸ hmem) hx hy hfd ?_
        rw [hconn]
        simpa [Engine.isConnected, hx] using hdown
  · exact h.frame (h.owned.closeSocket hdown) hq (closeSocket_sessions_of_ne hc) hhandlers
      (by rw [haccepting]) ⟨by rw [hreceived], by rw [hsubmitted], by rw [hbuffers]⟩

theorem pendingRecvs_of_unused (h : s.unused fd = true) : pendingRecvs s.provider fd = 0 := by
  simp only [Engine.unused, Bool.and_eq_true, Option.isNone_iff_eq_none, List.all_eq_true,
    Bool.not_eq_true'] at h
  obtain ⟨⟨⟨⟨hrecv, -⟩, hheld⟩, -⟩, -⟩ := h
  have hcount : s.provider.workers.countP (fun w => w.held.any (·.1 == fd)) = 0 :=
    List.countP_eq_zero.mpr fun w hw => by simp [hheld w hw]
  simp [pendingRecvs, hrecv, hcount]

theorem RecvInv.accept (h : RecvInv me s) (hfresh : freshFd me s (.accept fd c) = true)
    (hfree : s.accepting = none) (hclosed : s.owner fd = none) (hnew : s.sessions c = none) :
    RecvInv me { s with
      owner := Function.update s.owner fd (some c)
      sessions := Function.update s.sessions c (some ⟨fd, true, true⟩)
      accepting := some (c, .associate) } := by
  have howned := h.owned.accept hfresh hclosed hnew
  by_cases hc : c = me
  · subst hc
    obtain ⟨hzero, heq⟩ := h.unborn hnew
    have hunused : s.unused fd = true := by simpa [freshFd] using hfresh
    have hpending := pendingRecvs_of_unused hunused
    simp only [busy, hfree, Option.any_none, Bool.toNat_false] at hzero
    have hcarriers : carriers c s.provider = [] := List.length_eq_zero_iff.mp (by
      simp only [inTransit] at hzero
      omega)
    refine ⟨howned, fun fd' op hop hme => ?_, fun fd' hmem => ?_, h.writing, fun hnone => ?_,
      fun x hx _ => ?_, fun _ _ => heq, fun _ e he => ?_, fun _ pc hpc => ?_⟩
    · obtain ⟨x, hx, -⟩ := h.placed fd' op hop hme
      rw [hnew] at hx
      cases hx
    · obtain ⟨x, hx, -⟩ := h.requeue fd' hmem
      rw [hnew] at hx
      cases hx
    · simp at hnone
    · simp only [Function.update_self, Option.some.injEq] at hx
      subst hx
      simp only [busy, inTransit, Option.any_some, beq_self_eq_true, Bool.toNat_true] at hzero ⊢
      omega
    · rw [show carriers c s.provider = [] from hcarriers] at he
      cases he
    · refine right_of_not_carries ?_
      have hnone : s.handlers.countP (HandlerPc.carries c) = 0 := by
        simp only [inTransit] at hzero
        omega
      simpa using List.countP_eq_zero.mp hnone pc hpc
  · refine h.frame howned (Quiet.refl h.writing) (Function.update_of_ne (Ne.symm hc) ..) rfl ?_
      ⟨rfl, rfl, rfl⟩
    simp [beq_false_of_ne hc]

theorem RecvInv.acceptStep (h : RecvInv me s) (hs : s.acceptStep = some s') : RecvInv me s' := by
  obtain ⟨c, pc, x, hacc, hx, hcases⟩ := acceptStep_cases hs
  -- The accept thread gives up the token first.
  have hnone : RecvInv me { s with accepting := none } :=
    h.frame { h.owned with } (Quiet.refl h.writing) rfl rfl (Nat.zero_le _) ⟨rfl, rfl, rfl⟩
  have hrecv : x.mSocket = true → RecvInv me { s with
      provider := (s.provider.recvAsync x.fd c recvBufferSize c).1, accepting := none } := by
    intro hm
    have howner := h.owned.mSocket c x hx hm
    refine hnone.recvAsync (fun ho => ?_) recvBufferSize (fun hc => ?_) fun y hy hyc hfd => ?_
    · exact Option.some.inj (howner.symm.trans ho)
    · subst hc
      exact ⟨x, hx, rfl⟩
    · -- The descriptor is that of `me`, so it is `me` that is being accepted.
      have hme : c = me := by
        have ho := h.owned.mSocket me y hy (h.owned.connected me y hy hyc)
        rw [hfd, howner] at ho
        exact Option.some.inj ho
      have htoken := h.token y hy hyc
      rw [hfd] at htoken
      simp only [busy, hacc, Option.any_some, hme, beq_self_eq_true, Bool.toNat_true] at htoken
      simp only [busy, inTransit, Option.any_none, Bool.toNat_false] at htoken ⊢
      omega
  rcases hcases with ⟨interest, -, rfl⟩ | rfl | ⟨hm, rfl⟩ | ⟨hm, rfl⟩
  · refine h.frame { h.owned with } (quiet_interest h.writing) rfl rfl ?_ ⟨rfl, rfl, rfl⟩
    rw [hacc]
    exact Nat.le_refl _
  · exact hnone.disconnect
  · exact hrecv hm
  · exact (hrecv hm).disconnect

/-! ## Steps that move a chunk -/

theorem pendingRecvs_setEntries {p : Provider} {w : Worker} (entries : List CompletionEntry)
    (hw : p.workers[k]? = some w) (fd : Fd) :
    pendingRecvs (p.setWorker k { w with entries := entries }) fd = pendingRecvs p fd := by
  have hcount := Tally.countP_set (fun w : Worker => w.held.any (·.1 == fd))
    { w with entries := entries } hw
  have hheld : Worker.held { w with entries := entries } = w.held := rfl
  simp only [pendingRecvs, Provider.setWorker, hheld] at hcount ⊢
  omega

theorem mem_carriers {p : Provider} {w : Worker} {entry : CompletionEntry}
    (hw : p.workers[k]? = some w) (hmem : entry ∈ w.entries) (hcarries : carries me entry = true) :
    entry ∈ carriers me p :=
  List.mem_flatMap.mpr ⟨w, List.mem_of_getElem? hw, List.mem_filter.mpr ⟨hmem, hcarries⟩⟩

/-- A handler takes the entry about a chunk. -/
theorem RecvInv.takeCarrier (h : RecvInv me s) {w : Worker} {entry : CompletionEntry}
    {rest : List CompletionEntry} (hw : s.provider.workers[k]? = some w)
    (hentries : w.entries = entry :: rest) (hpc : s.handlers[k]? = some .idle)
    (hcarries : carries me entry = true)
    (hs' : s' = { s with provider := s.provider.setWorker k { w with entries := rest } }.setHandler k
      (.recvTest me entry.mResult.toNat)) : RecvInv me s' := by
  have hwithin := within_setEntries rest hw
  have hlength := Tally.length_flatMap_set (fun w : Worker => w.entries.filter (carries me))
    { w with entries := rest } hw
  have hcount := Tally.countP_set (HandlerPc.carries me) (.recvTest me entry.mResult.toNat) hpc
  have hcount' := Tally.countP_set (HandlerPc.requeues me) (.recvTest me entry.mResult.toNat) hpc
  simp only [hentries, List.filter_cons_of_pos hcarries, List.length_cons, HandlerPc.carries,
    HandlerPc.requeues, Bool.toNat_false, beq_self_eq_true, Bool.toNat_true] at hlength hcount hcount'
  have htransit : inTransit me s' = inTransit me s := by
    simp only [inTransit, carriers, hs', Engine.setHandler, Provider.setWorker]
    omega
  have hbusy : busy me s' = busy me s := by
    rw [busy, htransit, hs']
    simp only [busy, Engine.setHandler]
    omega
  subst hs'
  refine ⟨?_, fun fd op hop => h.placed fd op (hwithin.recvs fd op hop), fun fd hmem => ?_, ?_,
    fun hnone => ?_, fun x hx hc => ?_, fun hc hidle => h.idle hc (htransit ▸ hidle),
    fun hc e he => h.entry hc e ?_, fun hc pc hmem => ?_⟩
  · have howned : OwnedInv me { s with
        provider := s.provider.setWorker k { w with entries := rest } } :=
      h.owned.of_within hwithin rfl rfl rfl (fun _ h => h) h.owned.isolated
    exact howned.setHandler_of_ne fun c fd heq => by cases heq
  · rcases List.mem_or_eq_of_mem_set hmem with hmem | heq
    · exact h.requeue fd hmem
    · cases heq
  · exact writesSends_set h.writing rfl fun e he => h.writing w (List.mem_of_getElem? hw) e he
  · rw [hbusy]
    exact h.unborn hnone
  · rw [hbusy]
    have hpending := pendingRecvs_setEntries rest hw x.fd
    exact le_of_eq_of_le (congrArg (· + busy me s) hpending) (h.token x hx hc)
  · rcases Tally.mem_flatMap_set he with he | he
    · obtain ⟨hmem, hcar⟩ := List.mem_filter.mp he
      exact mem_carriers hw (hentries ▸ List.mem_cons_of_mem entry hmem) hcar
    · exact he
  · rcases List.mem_or_eq_of_mem_set hmem with hmem | rfl
    · exact h.handler hc pc hmem
    · exact fun _ => h.entry hc entry (mem_carriers hw (hentries ▸ List.mem_cons_self ..) hcarries)

theorem take_fill (buffer bytes : List UInt8) : (fill buffer bytes).take bytes.length = bytes := by
  simp [fill]

/-- `recv()` brings in a chunk on the connection of session `me`. -/
theorem RecvInv.recvChunk (h : RecvInv me s) {w : Worker} {op : RecvOp} {bytes : List UInt8}
    {p : Provider} (hw : s.provider.workers[k]? = some w)
    (hp : s.provider.recv k w (.data bytes) = some p) (hheld : w.held = some (fd, op))
    (howner : s.owner fd = some me) (hbytes : bytes ≠ [])
    (hs' : s' = { s with
      provider := p
      buffers := Function.update s.buffers op.mBuffer (fill (s.buffers op.mBuffer) bytes)
      received := Function.update s.received me (s.received me ++ [bytes])
      recvLog := s.recvLog ++ [(me, op)] }) (howned : OwnedInv me s') : RecvInv me s' := by
  have hwithin := within_of_recv hw hp
  obtain ⟨x, hx, hfd⟩ := h.owned.session fd howner
  obtain ⟨hcontext, hbuffer⟩ := h.owned.recvs fd op howner (recvAt_of_held hw hheld)
  obtain ⟨e, op', hstage, ⟨hr, -⟩ | ⟨bytes', w', hr, rfl, hheld', hentries, hwriting, -⟩ |
    ⟨errno, w', hr, -⟩⟩ := recv_cases hp
  · cases hr
  · cases hr
    have hop : op' = op ∧ e.fd = fd := by
      rw [Worker.held, hstage] at hheld
      cases hheld
      exact ⟨rfl, rfl⟩
    obtain ⟨rfl, rfl⟩ := hop
    have hwrites := writesSends_of_recv h.writing hp
    cases hc : x.connected with
    | false =>
        subst hs'
        exact h.of_down howned hwithin.recvs hwrites (fun _ hmem => hmem) hx hx rfl hc
    | true =>
        have hconn : s.isConnected me = true := isConnected_iff.mpr ⟨x, hx, hc⟩
        -- The worker has the token, so nobody else has.
        have htoken := h.token x hx hc
        have hone := Tally.toNat_le_countP (fun w : Worker => w.held.any (·.1 == x.fd)) hw
        have hcount := Tally.countP_set (fun w : Worker => w.held.any (·.1 == x.fd)) w' hw
        simp only [hheld, hheld', hfd, Option.any_some, Option.any_none, beq_self_eq_true,
          Bool.toNat_true, Bool.toNat_false, busy, inTransit, pendingRecvs] at htoken hone hcount
        have hcarriers : carriers me s.provider = [] := List.length_eq_zero_iff.mp (by omega)
        have hhandlers : s.handlers.countP (HandlerPc.carries me) = 0 := by omega
        have heq : s.received me = s.submitted me :=
          h.idle hconn (by rw [inTransit, hcarriers, hhandlers, List.length_nil])
        have hcarries : carries me ⟨op'.mContext, .recv, bytes.length, 0⟩ = true := by
          simp [carries, CompletionEntry.isError, hcontext, hbytes]
        have hfilter : w'.entries.filter (carries me) =
            w.entries.filter (carries me) ++ [⟨op'.mContext, .recv, bytes.length, 0⟩] := by
          rw [hentries, List.filter_append, List.filter_cons_of_pos hcarries, List.filter_nil]
        have hlength := Tally.length_flatMap_set (fun w : Worker => w.entries.filter (carries me)) w' hw
        have hnil : (s.provider.workers.flatMap fun w => w.entries.filter (carries me)) = [] := hcarriers
        simp only [hfilter, hnil, List.length_append, List.length_singleton, List.length_nil] at hlength
        have hin : InBuffer me s' bytes.length := by
          refine ⟨bytes, ?_, rfl, ?_⟩
          · simp [hs', heq]
          · simp [hs', hbuffer, take_fill]
        subst hs'
        refine ⟨howned, fun fd' op hop => h.placed fd' op (hwithin.recvs fd' op hop), h.requeue, hwrites,
          fun hnone => ?_, fun y hy _ => ?_, fun _ hidle => ?_, fun _ e' he => ?_, fun _ pc hpc => ?_⟩
        · rw [show s.sessions me = none from hnone] at hx
          cases hx
        · cases hx.symm.trans hy
          simp only [busy, inTransit, pendingRecvs, carriers, Provider.setWorker, hfd]
          omega
        · simp only [inTransit, carriers, Provider.setWorker] at hidle
          omega
        · rcases Tally.mem_flatMap_set he with he | he
          · rw [hfilter] at he
            rcases List.mem_append.mp he with he | he
            · have hmem : e' ∈ carriers me s.provider :=
                List.mem_flatMap.mpr ⟨w, List.mem_of_getElem? hw, he⟩
              rw [hcarriers] at hmem
              cases hmem
            · rw [List.mem_singleton.mp he]
              exact hin
          · rw [hnil] at he
            cases he
        · refine right_of_not_carries ?_
          simpa using List.countP_eq_zero.mp hhandlers pc hpc
  · cases hr

/-- While a session is connected, a receive for it is on a connection of its own. -/
theorem RecvInv.owner_eq (h : RecvInv me s) {op : RecvOp} {o : UInt64}
    (hop : RecvAt s.provider fd op) (howner : s.owner fd = some o)
    (hme : op.mContext = me ∨ op.mBuffer = me) (hconn : s.isConnected me = true) : o = me := by
  obtain ⟨x, hx, hc⟩ := isConnected_iff.mp hconn
  obtain ⟨y, hy, rfl⟩ := h.placed fd op hop hme
  cases hx.symm.trans hy
  have ho := h.owned.mSocket me x hx (h.owned.connected me x hx hc)
  exact Option.some.inj (howner.symm.trans ho)

theorem RecvInv.recv (h : RecvInv me s) {r : RecvResult}
    (hs : engineStep maxEntries s (.recv k r) = some s') : RecvInv me s' := by
  have howned := h.owned.recv hs
  obtain ⟨w, p, hw, hp, ⟨rfl, hempty⟩ | ⟨fd, op, o, bytes, hheld, ho, rfl, hbytes, rfl⟩⟩ :=
    engineRecv_cases hs
  · exact h.frame howned
      (quiet_of_recv h.writing hw hp fun fd op bytes _ hr => Or.inl (hempty bytes hr)) rfl rfl
      (Nat.le_refl _) ⟨rfl, rfl, rfl⟩
  · by_cases hme : o = me
    · subst hme
      exact h.recvChunk hw hp hheld ho hbytes rfl howned
    · have hop := recvAt_of_held hw hheld
      by_cases hforeign : op.mContext = me ∨ op.mBuffer = me
      · -- Such a receive can be left only if the session has been disconnected.
        have hdown : ¬ s.isConnected me = true :=
          fun hconn => hme (h.owner_eq hop ho hforeign hconn)
        obtain ⟨x, hx, -⟩ := h.placed fd op hop hforeign
        have hxdown : x.connected = false := by
          simpa [Engine.isConnected, hx] using hdown
        exact h.of_down howned (within_of_recv hw hp).recvs (writesSends_of_recv h.writing hp)
          (fun _ hmem => hmem) hx hx rfl hxdown
      · rw [not_or] at hforeign
        refine h.frame howned (quiet_of_recv h.writing hw hp fun fd' op' b hheld' _ => Or.inr ?_) rfl rfl
          (Nat.le_refl _) ⟨Function.update_of_ne (Ne.symm hme) .., rfl,
            Function.update_of_ne (Ne.symm hforeign.2) ..⟩
        cases hheld.symm.trans hheld'
        exact hforeign.1

/-- The copy of the chunk is submitted. -/
theorem RecvInv.submit (h : RecvInv me s) {dataCopy : List UInt8}
    (hpc : s.handlers[k]? = some (.submit me dataCopy))
    (hs' : s' = { s with
      submitted := Function.update s.submitted me (s.submitted me ++ [dataCopy]) }.setHandler k
        (.requeueTest me)) : RecvInv me s' := by
  have howned : OwnedInv me s' := by
    have hsubmitted : OwnedInv me { s with
        submitted := Function.update s.submitted me (s.submitted me ++ [dataCopy]) } :=
      { h.owned with }
    rw [hs']
    exact hsubmitted.setHandler_of_ne fun c fd heq => by cases heq
  have hrequeue : ∀ fd, HandlerPc.requeue me fd ∈ s'.handlers → HandlerPc.requeue me fd ∈ s.handlers := by
    intro fd hmem
    subst hs'
    rcases List.mem_or_eq_of_mem_set hmem with hmem | heq
    · exact hmem
    · cases heq
  have hone := Tally.toNat_le_countP (HandlerPc.carries me) hpc
  have hcount := Tally.countP_set (HandlerPc.carries me) (.requeueTest me) hpc
  have hcount' := Tally.countP_set (HandlerPc.requeues me) (.requeueTest me) hpc
  simp only [HandlerPc.carries, HandlerPc.requeues, beq_self_eq_true, Bool.toNat_true,
    Bool.toNat_false] at hone hcount hcount'
  cases hx : s.sessions me with
  | none =>
      have hzero := (h.unborn hx).1
      simp only [busy, inTransit] at hzero
      omega
  | some x =>
      have hx' : s'.sessions me = some x := by
        subst hs'
        exact hx
      cases hc : x.connected with
      | false =>
          subst hs'
          exact h.of_down howned (fun _ _ hop => hop) h.writing hrequeue hx hx' rfl hc
      | true =>
          have hconn : s.isConnected me = true := isConnected_iff.mpr ⟨x, hx, hc⟩
          -- The handler has the token, so nobody else has.
          have htoken := h.token x hx hc
          simp only [busy, inTransit] at htoken
          have hcarriers : carriers me s.provider = [] := List.length_eq_zero_iff.mp (by omega)
          have heq : s.received me = s.submitted me ++ [dataCopy] :=
            h.handler hconn _ (List.mem_of_getElem? hpc) rfl
          subst hs'
          refine ⟨howned, h.placed, fun fd hmem => h.requeue fd (hrequeue fd hmem), h.writing,
            fun hnone => ?_, fun y hy _ => ?_, fun _ _ => ?_, fun _ e he => ?_, fun _ pc hmem => ?_⟩
          · rw [hx'] at hnone
            cases hnone
          · cases hx.symm.trans hy
            simp only [busy, inTransit, Engine.setHandler]
            omega
          · simpa [Engine.setHandler] using heq
          · have hmem : e ∈ carriers me s.provider := he
            rw [hcarriers] at hmem
            cases hmem
          · have hzero : (s.handlers.set k (.requeueTest me)).countP (HandlerPc.carries me) = 0 := by
              omega
            refine right_of_not_carries ?_
            simpa using List.countP_eq_zero.mp hzero pc hmem

/-- An entry is taken. -/
theorem RecvInv.takeEntry (h : RecvInv me s) {w : Worker} {entry : CompletionEntry}
    {rest : List CompletionEntry} (hw : s.provider.workers[k]? = some w)
    (hentries : w.entries = entry :: rest) (hpc : s.handlers[k]? = some .idle) :
    RecvInv me (s.takeEntry k w entry rest) := by
  cases hcarries : carries me entry with
  | true =>
      refine h.takeCarrier hw hentries hpc hcarries ?_
      -- The session is known, since a chunk of it is in transit.
      have hmem := mem_carriers hw (hentries ▸ List.mem_cons_self ..) hcarries
      have hpos := List.length_pos_of_mem hmem
      simp only [carries, Bool.and_eq_true, beq_iff_eq, Bool.not_eq_true'] at hcarries
      obtain ⟨⟨hcontext, htype⟩, herror⟩ := hcarries
      unfold Engine.takeEntry
      rw [hcontext]
      cases hx : s.sessions me with
      | none =>
          have hzero := (h.unborn hx).1
          simp only [busy, inTransit] at hzero
          omega
      | some x => simp only [herror, htype, Bool.false_eq_true, if_false]
  | false =>
      have hskip : RecvInv me { s with
          provider := s.provider.setWorker k { w with entries := rest } } :=
        h.frame (h.owned.of_within (within_setEntries rest hw) rfl rfl rfl (fun _ h => h)
            h.owned.isolated) (quiet_setEntries h.writing hw hentries hcarries) rfl rfl (Nat.le_refl _)
          ⟨rfl, rfl, rfl⟩
      rcases takeEntry_cases s k w entry rest with heq | ⟨pc, heq, rfl | ⟨rfl, herror, htype⟩⟩ <;> rw [heq]
      · exact hskip
      · exact hskip.setHandler hpc (hskip.owned.setHandler_of_ne fun c fd heq => by cases heq) rfl
          (Nat.le_refl _) (fun _ => trivial) fun fd heq => by cases heq
      · have hne : (entry.mContext == me) = false := by
          simpa [carries, herror, htype] using hcarries
        exact hskip.setHandler hpc (hskip.owned.setHandler_of_ne fun c fd heq => by cases heq) hne
          (Nat.le_refl _) (fun _ => right_of_not_carries hne) fun fd heq => by cases heq

/-- A session with a chunk at a handler is known. -/
theorem RecvInv.exists_session (h : RecvInv me s) {pc : HandlerPc} (hpc : s.handlers[k]? = some pc)
    (hcarries : pc.carries me = true) : ∃ x, s.sessions me = some x := by
  cases hx : s.sessions me with
  | some x => exact ⟨x, rfl⟩
  | none =>
      have hzero := (h.unborn hx).1
      have hone := Tally.toNat_le_countP (HandlerPc.carries me) hpc
      rw [hcarries, Bool.toNat_true] at hone
      simp only [busy, inTransit] at hzero
      omega

/-- A handler gives up on a session that has been disconnected. -/
theorem RecvInv.giveUp (h : RecvInv me s) {pc : HandlerPc} (hpc : s.handlers[k]? = some pc)
    (hcarries : pc.carries c = true) (hdown : s.isConnected c = false) :
    RecvInv me (s.setHandler k (.requeueTest c)) := by
  have howned : OwnedInv me (s.setHandler k (.requeueTest c)) :=
    h.owned.setHandler_of_ne fun c fd heq => by cases heq
  by_cases hc : c = me
  · subst hc
    obtain ⟨x, hx⟩ := h.exists_session hpc hcarries
    refine h.of_down howned (fun _ _ hop => hop) h.writing (fun fd hmem => ?_) hx hx rfl
      (by simpa [Engine.isConnected, hx] using hdown)
    rcases List.mem_or_eq_of_mem_set hmem with hmem | heq
    · exact hmem
    · cases heq
  · have hne : (c == me) = false := beq_false_of_ne hc
    refine h.setHandler hpc howned ?_ (by simp [HandlerPc.requeues, hne]) (fun _ => trivial)
      fun fd heq => by cases heq
    cases pc with
    | recvTest c' n | copy c' n | submit c' d =>
        have hc' : c' = c := by simpa [HandlerPc.carries] using hcarries
        simp [HandlerPc.carries, hc', hne]
    | idle | requeueTest c' | requeue c' fd | close c' => cases hcarries

/-- The next receive is queued, and the handler has nothing more to do with it. -/
theorem RecvInv.queueNext (h : RecvInv me s) {pc : HandlerPc}
    (hpc : s.handlers[k]? = some (.requeue c fd)) (hcarries : pc.carries me = false)
    (hrequeues : pc.requeues me = false) (hne : ∀ c' fd', pc ≠ .requeue c' fd') {size : Nat} :
    RecvInv me ({ s with provider := (s.provider.recvAsync fd c size c).1 }.setHandler k pc) := by
  have hmem := List.mem_of_getElem? hpc
  have hset : RecvInv me (s.setHandler k pc) :=
    h.setHandler hpc (h.owned.setHandler_of_ne hne) hcarries (by simp [hrequeues])
      (fun _ => right_of_not_carries hcarries) fun fd' heq => absurd heq (hne me fd')
  refine hset.recvAsync (h.owned.handlers c fd hmem) size (fun hc => ?_) fun y hy hyc hfd => ?_
  · subst hc
    exact h.requeue fd hmem
  · -- The descriptor is that of `me`, so the handler had the token.
    have hown : s.owner fd = some me := by
      rw [← hfd]
      exact h.owned.mSocket me y hy (h.owned.connected me y hy hyc)
    have hme := h.owned.handlers c fd hmem hown
    have htoken := h.token y hy hyc
    have hcount := Tally.countP_set (HandlerPc.carries me) pc hpc
    have hcount' := Tally.countP_set (HandlerPc.requeues me) pc hpc
    rw [hcarries] at hcount
    rw [hrequeues] at hcount'
    simp only [HandlerPc.carries, HandlerPc.requeues, hme, beq_self_eq_true, Bool.toNat_true,
      Bool.toNat_false] at hcount hcount'
    rw [hfd] at htoken
    simp only [busy, inTransit, Engine.setHandler] at htoken ⊢
    omega

theorem not_isConnected_disconnect (s : Engine) (c : UInt64) : (s.disconnect c).isConnected c = false := by
  cases hx : s.sessions c <;> simp [Engine.isConnected, Engine.disconnect, hx]

theorem RecvInv.handle (h : RecvInv me s) {accepted : Bool} {pc : HandlerPc}
    (hpc : s.handlers[k]? = some pc) (hs : s.handle k accepted pc = some s') : RecvInv me s' := by
  have howned := h.owned.handle hpc hs
  have hmem := List.mem_of_getElem? hpc
  cases pc with
  | idle =>
      obtain ⟨w, hw, hs⟩ := Option.bind_eq_some_iff.mp hs
      split at hs
      next entry rest hstage hentries =>
        cases hs
        exact h.takeEntry hw hentries hpc
      · cases hs
  | recvTest c n =>
      cases hs
      split at howned
      next hconn =>
        rw [if_pos hconn]
        exact h.setHandler hpc howned rfl (Nat.le_refl _) (fun hme hc => h.handler hme (.recvTest c n) hmem hc)
          fun fd heq => by cases heq
      next hdown =>
        rw [if_neg hdown]
        exact h.giveUp hpc (by simp [HandlerPc.carries]) (by simpa using hdown)
  | copy c n =>
      cases hs
      refine h.setHandler hpc howned rfl (Nat.le_refl _) (fun hme hc => ?_) fun fd heq => by cases heq
      obtain ⟨chunk, hchunk, -, htake⟩ := h.handler hme _ hmem hc
      rw [hc, htake]
      exact hchunk
  | submit c dataCopy =>
      simp only [Engine.handle] at hs
      split at hs
      · cases hs
        by_cases hc : c = me
        · subst hc
          exact h.submit hpc rfl
        · have hne : (c == me) = false := beq_false_of_ne hc
          have hsubmitted : RecvInv me { s with
              submitted := Function.update s.submitted c (s.submitted c ++ [dataCopy]) } :=
            h.frame { h.owned with } (Quiet.refl h.writing) rfl rfl (Nat.le_refl _)
              ⟨rfl, Function.update_of_ne (Ne.symm hc) .., rfl⟩
          exact hsubmitted.setHandler hpc howned (by simp [HandlerPc.carries, hne])
            (by simp [HandlerPc.requeues, hne]) (fun _ => trivial) fun fd heq => by cases heq
      · cases hs
        exact h.disconnect.giveUp hpc (by simp [HandlerPc.carries]) (not_isConnected_disconnect s c)
  | requeueTest c =>
      simp only [Engine.handle] at hs
      split at hs
      next x hx =>
        cases hs
        split at howned
        next hconn =>
          rw [if_pos hconn]
          refine h.setHandler hpc howned rfl (Nat.le_refl _) (fun _ => trivial) fun fd heq => ?_
          cases heq
          exact ⟨x, hx, rfl⟩
        next hdown =>
          rw [if_neg hdown]
          exact h.setHandler hpc howned rfl (Nat.zero_le _) (fun _ => trivial) fun fd heq => by cases heq
      · cases hs
        exact h.setHandler hpc howned rfl (Nat.zero_le _) (fun _ => trivial) fun fd heq => by cases heq
  | requeue c fd =>
      cases hs
      exact h.queueNext hpc (by split <;> rfl) (by split <;> rfl) fun c' fd' => by split <;> simp
  | close c =>
      cases hs
      exact h.disconnect.setHandler hpc howned rfl (Nat.le_refl _) (fun _ => trivial)
        fun fd heq => by cases heq

/-! ## Runs -/

/-- Each step keeps the token and the order, if the descriptor that `me` gets is
fresh. -/
theorem RecvInv.step {a : EngineAct} (h : RecvInv me s) (hfresh : freshFd me s a = true)
    (hs : engineStep maxEntries s a = some s') : RecvInv me s' := by
  have howned := h.owned.step hfresh hs
  cases a with
  | accept fd c =>
      simp only [engineStep] at hs
      split at hs
      next hguard =>
        cases hs
        exact h.accept hfresh hguard.1 hguard.2.1 hguard.2.2
      · cases hs
  | acceptStep => exact h.acceptStep hs
  | disconnect c =>
      cases hs
      exact h.disconnect
  | closeSocket c =>
      simp only [engineStep] at hs
      split at hs
      · cases hs
      next hdown =>
        cases hs
        exact h.closeSocket (by simpa using hdown)
  | loadSocket c =>
      simp only [engineStep] at hs
      split at hs
      · split at hs
        · cases hs
          exact h.frame howned (Quiet.refl h.writing) rfl rfl (Nat.le_refl _) ⟨rfl, rfl, rfl⟩
        · cases hs
      · cases hs
  | sendAsync i data =>
      simp only [engineStep, Engine.sendAsync] at hs
      split at hs
      · cases hs
      next c fd hi =>
        cases hs
        refine h.frame howned ?_ rfl rfl (Nat.le_refl _) ⟨rfl, rfl, rfl⟩
        exact quiet_sendAsync h.writing
  | spawn =>
      cases hs
      have hspawn : RecvInv me { s with
          provider := { s.provider with workers := s.provider.workers ++ [{}] } } :=
        h.frame (h.owned.of_within within_spawn rfl rfl rfl (fun _ h => h) h.owned.isolated)
          (quiet_spawn h.writing) rfl rfl (Nat.le_refl _) ⟨rfl, rfl, rfl⟩
      exact hspawn.addHandler howned
  | epollWait k events =>
      simp only [engineStep] at hs
      split at hs
      · obtain ⟨p, hp, rfl⟩ := Option.map_eq_some_iff.mp hs
        obtain ⟨w, hw, hp⟩ := Option.bind_eq_some_iff.mp hp
        exact h.frame howned (quiet_of_epollWait h.writing hw hp) rfl rfl (Nat.le_refl _)
          ⟨rfl, rfl, rfl⟩
      · cases hs
  | worker k =>
      obtain ⟨p, hp, rfl⟩ := Option.map_eq_some_iff.mp hs
      obtain ⟨w, hw, hp⟩ := Option.bind_eq_some_iff.mp hp
      exact h.frame howned (quiet_of_workerStep h.writing hw hp) rfl rfl (Nat.le_refl _)
        ⟨rfl, rfl, rfl⟩
  | recv k r => exact h.recv hs
  | out k r =>
      obtain ⟨w, p, hw, hp, rfl | ⟨fd, op, o, -, -, rfl⟩⟩ := engineOut_cases hs
      all_goals
        exact h.frame howned (quiet_of_out h.writing hw hp) rfl rfl (Nat.le_refl _) ⟨rfl, rfl, rfl⟩
  | handle k accepted =>
      obtain ⟨pc, hpc, hs⟩ := Option.bind_eq_some_iff.mp hs
      exact h.handle hpc hs

/-- A chunk in transit is the one that was received last and not submitted. -/
theorem RecvInv.exists_chunk (h : RecvInv me s) (hconn : s.isConnected me = true)
    (hpos : 0 < inTransit me s) : ∃ chunk, s.received me = s.submitted me ++ [chunk] := by
  rcases Nat.add_pos_iff_pos_or_pos.mp hpos with hcarriers | hhandlers
  · obtain ⟨e, he⟩ := List.exists_mem_of_length_pos hcarriers
    obtain ⟨chunk, hchunk, -⟩ := h.entry hconn e he
    exact ⟨chunk, hchunk⟩
  · obtain ⟨pc, hmem, hcarries⟩ := List.countP_pos_iff.mp hhandlers
    have hright := h.handler hconn pc hmem
    cases pc with
    | recvTest c n | copy c n =>
        obtain ⟨chunk, hchunk, -⟩ := hright (by simpa [HandlerPc.carries] using hcarries)
        exact ⟨chunk, hchunk⟩
    | submit c dataCopy => exact ⟨dataCopy, hright (by simpa [HandlerPc.carries] using hcarries)⟩
    | idle | requeueTest c | requeue c fd | close c => cases hcarries

/-- For any number of workers and any results of `recv()` and `send()`: as long as a
session that got a fresh descriptor is connected, there is at most one receive
pending or one chunk in transit, and the chunks that were submitted to its logic
queue are what `recv()` has returned on its connection, in this order, up to the one
in transit. -/
theorem chunks_submitted {acts : List EngineAct}
    (hfresh : Machine.Meets (engineStep maxEntries) (fun s a => freshFd me s a = true) {} acts)
    (hrun : Machine.run (engineStep maxEntries) {} acts = some s)
    (hx : s.sessions me = some x) (hc : x.connected = true) :
    pendingRecvs s.provider x.fd + inTransit me s ≤ 1 ∧
      ∃ transit, s.received me = s.submitted me ++ transit ∧ transit.length = inTransit me s := by
  have h : RecvInv me s :=
    Machine.run_invariant_of_meets (fun _ _ _ h hok hs => h.step hok hs) recvInv_init hfresh hrun
  have hconn : s.isConnected me = true := isConnected_iff.mpr ⟨x, hx, hc⟩
  have htoken := h.token x hx hc
  simp only [busy] at htoken
  refine ⟨by omega, ?_⟩
  rcases Nat.eq_zero_or_pos (inTransit me s) with hzero | hpos
  · exact ⟨[], by rw [List.append_nil]; exact h.idle hconn hzero, hzero.symm⟩
  · obtain ⟨chunk, hchunk⟩ := h.exists_chunk hconn hpos
    exact ⟨[chunk], hchunk, by rw [List.length_singleton]; omega⟩

/-- Two workers.  The first receives a chunk and is at work on it when a send arms
the descriptor again and wakes the second, which finds no receive.  The next
`recv()` would block, and the one after it brings in the second chunk. -/
def twoWorkersTrace : List EngineAct :=
  List.flatten [[.spawn, .spawn, .accept 3 1, .acceptStep, .acceptStep],
    [.epollWait 0 [⟨3, true, false, false, false⟩], .worker 0, .worker 0, .recv 0 (.data [1, 2]),
      .worker 0, .handle 0 true],
    [.loadSocket 1, .sendAsync 0 [9], .epollWait 1 [⟨3, true, true, false, false⟩], .worker 1,
      .worker 1, .out 1 (.sent 1), .worker 1, .worker 1],
    List.replicate 5 (.handle 0 true),
    [.epollWait 0 [⟨3, true, false, false, false⟩], .worker 0, .worker 0, .recv 0 .wouldBlock,
      .worker 0, .worker 0, .worker 0],
    [.epollWait 0 [⟨3, true, false, false, false⟩], .worker 0, .worker 0, .recv 0 (.data [3]),
      .worker 0, .handle 0 true, .handle 0 true]]

theorem chunks_submitted_twoWorkers :
    ∃ s, Machine.run (engineStep 64) {} twoWorkersTrace = some s ∧
      s.received 1 = [[1, 2], [3]] ∧ s.submitted 1 = [[1, 2]] ∧
      (pendingRecvs s.provider 3 + inTransit 1 s ≤ 1 ∧
        ∃ transit, s.received 1 = s.submitted 1 ++ transit ∧ transit.length = inTransit 1 s) :=
  ⟨_, rfl, by decide, by decide,
    @chunks_submitted 64 1 _ ⟨3, true, true⟩ twoWorkersTrace (by decide +kernel) rfl (by decide)
      (by decide)⟩

end

end NetworkModule.EpollEngine
