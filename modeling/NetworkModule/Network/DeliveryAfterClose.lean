import NetworkModule.Lib.Machine
import NetworkModule.Network.PacketFraming

/-!
# Deliveries after a close

`OnRecv` may close its own session, with `Session::Close` or with `CloseConnection`
of the engine, which closes the session in the caller's thread.  Chunks that come
after that are skipped, since `Close` has cancelled the scope of the session.  The
loop that delivers a batch goes on.

What `OnRecv` does is a function of the packets received so far.  `late` has the
packets that were delivered when the session was closed.  It stays empty exactly if
no callback closes the session before the last packet of a batch
(`late_eq_nil_iff_quiet`).
-/

namespace NetworkModule.PacketFraming

/-! ## ProcessRawRecv up to the deliveries -/

/-- `ProcessRawRecv` without the calls of `OnRecv`: the session, and the packets that
are to be delivered. -/
def Session.parseRecv (s : Session) (data : List UInt8) : Session × List (List UInt8) :=
  if s.fastPath data then (s, [data])
  else
    let offset := if s.mRecvAccumBuffer.length < s.mRecvAccumOffset then 0 else s.mRecvAccumOffset
    let unread := s.mRecvAccumBuffer.length - offset
    if kMaxAccumSize < unread + data.length then
      (Session.close { s with mRecvAccumBuffer := [], mRecvAccumOffset := 0, overflowed := true },
        [])
    else
      let r := parseLoop ⟨s.mRecvAccumBuffer ++ data, offset, [], [], false⟩
      let left := compact r.accum r.offset
      let s' := { s with
        mRecvAccumBuffer := left.1, mRecvAccumOffset := left.2, mRecvBatchBuf := [] }
      if r.shouldClose then (s'.close, []) else (s', r.spans.map fun sp => sp.bytes r.batch)

/-- With callbacks that do nothing, the packets are received one after the other. -/
theorem Session.processRawRecv_eq_foldl (s : Session) (data : List UInt8) :
    s.processRawRecv data =
      (s.parseRecv data).2.foldl Session.onRecv (s.parseRecv data).1 := by
  rw [Session.processRawRecv, Session.parseRecv]
  split
  · rfl
  · simp only [Session.generalPath]
    generalize (if s.mRecvAccumBuffer.length < s.mRecvAccumOffset then 0
      else s.mRecvAccumOffset) = offset
    split
    · rfl
    · split
      · rfl
      · rw [List.foldl_map]

theorem Session.received_foldl (s : Session) (batch : List (List UInt8)) :
    (batch.foldl Session.onRecv s).received = s.received ++ batch := by
  induction batch generalizing s with
  | nil => exact (List.append_nil _).symm
  | cons p ps ih =>
      rw [List.foldl_cons, ih, Session.onRecv, List.append_assoc]
      rfl

theorem Session.received_close (s : Session) : s.close.received = s.received := by
  rw [Session.close]
  split <;> rfl

/-- Nothing is received before the deliveries, and a session that is closed on the way
delivers nothing. -/
theorem Session.parseRecv_frame (s : Session) (data : List UInt8) :
    (s.parseRecv data).1.received = s.received ∧
      ((s.parseRecv data).2 = [] ∨ (s.parseRecv data).1.closed = s.closed) := by
  rw [Session.parseRecv]
  split
  · exact ⟨rfl, .inr rfl⟩
  · simp only
    generalize (if s.mRecvAccumBuffer.length < s.mRecvAccumOffset then 0
      else s.mRecvAccumOffset) = offset
    split
    · exact ⟨Session.received_close _, .inl rfl⟩
    · split
      · exact ⟨Session.received_close _, .inl rfl⟩
      · exact ⟨rfl, .inr rfl⟩

/-- The deliveries of a chunk are the packets that it completes. -/
theorem Session.parseRecv_whole {s : Session} (hs : s.Inv) {data : List UInt8}
    {whole : List (List UInt8)} {tail : List UInt8} (hw : ∀ p ∈ whole, WellFormed p)
    (ht : Incomplete tail) (h : s.unread ++ data = whole.flatten ++ tail)
    (hfit : (s.unread ++ data).length ≤ kMaxAccumSize) : (s.parseRecv data).2 = whole := by
  have hstep := congrArg Session.received (Session.generalPath_whole hs hw ht h hfit)
  rw [← Session.processRawRecv_eq_generalPath hs, Session.processRawRecv_eq_foldl,
    Session.received_foldl, (s.parseRecv_frame data).1] at hstep
  exact List.append_cancel_left hstep

/-! ## Callbacks that close the session -/

/-- Whether the session is closed while `OnRecv` handles the last of these packets. -/
abbrev Callback := List (List UInt8) → Bool

/-- A session with the packets that it delivered when it was closed. -/
structure Recv where
  session : Session := init
  late : List (List UInt8) := []

/-- A call of `OnRecv`, with what its callback does. -/
def Recv.deliver (closes : Callback) (r : Recv) (data : List UInt8) : Recv :=
  let s := r.session.onRecv data
  { session := if closes s.received then s.close else s
    late := if r.session.closed then r.late ++ [data] else r.late }

/-- `ProcessRawRecv`. -/
def Recv.processRawRecv (closes : Callback) (r : Recv) (data : List UInt8) : Recv :=
  (r.session.parseRecv data).2.foldl (Recv.deliver closes) ⟨(r.session.parseRecv data).1, r.late⟩

/-- The tasks of the worker of the session. -/
inductive RecvAct where
  /-- The task of a chunk, which is skipped once `Close` has cancelled the scope. -/
  | chunk (data : List UInt8)
  /-- Another task closes the session. -/
  | close
  deriving DecidableEq

/-- One task. -/
def recvStep (closes : Callback) (r : Recv) : RecvAct → Option Recv
  | .chunk data => some (if r.session.closed then r else r.processRawRecv closes data)
  | .close => some { r with session := r.session.close }

/-- No callback closes the session before the last packet of the batch. -/
def Quiet (closes : Callback) (r : Recv) : RecvAct → Prop
  | .chunk data => r.session.closed = true ∨ ∀ i < (r.session.parseRecv data).2.length - 1,
      closes (r.session.received ++ (r.session.parseRecv data).2.take (i + 1)) = false
  | .close => True

/-! ## One batch -/

section Batch

variable {closes : Callback}

theorem Session.closed_close (s : Session) : s.close.closed = true := by
  rw [Session.close]
  split
  next h => exact h
  next => rfl

theorem Recv.received_deliver (r : Recv) (data : List UInt8) :
    (r.deliver closes data).session.received = r.session.received ++ [data] := by
  simp only [Recv.deliver]
  split
  · exact Session.received_close _
  · rfl

theorem Recv.closed_deliver (r : Recv) (data : List UInt8) :
    (r.deliver closes data).session.closed =
      (r.session.closed || closes (r.session.received ++ [data])) := by
  have hreceived : (r.session.onRecv data).received = r.session.received ++ [data] := rfl
  rw [Recv.deliver, hreceived]
  cases closes (r.session.received ++ [data]) with
  | true => exact (Session.closed_close _).trans (Bool.or_true _).symm
  | false => exact (Bool.or_false _).symm

/-- A closed session delivers the rest of its batch late. -/
theorem Recv.foldl_deliver_closed {r : Recv} (h : r.session.closed = true)
    (batch : List (List UInt8)) :
    (batch.foldl (Recv.deliver closes) r).late = r.late ++ batch := by
  induction batch generalizing r with
  | nil => exact (List.append_nil _).symm
  | cons p ps ih =>
      have hclosed : (r.deliver closes p).session.closed = true := by
        rw [Recv.closed_deliver, h, Bool.true_or]
      have hlate : (r.deliver closes p).late = r.late ++ [p] := if_pos h
      rw [List.foldl_cons, ih hclosed, hlate, List.append_assoc]
      rfl

/-- An open session delivers a batch in time exactly if no callback but the last closes it. -/
theorem Recv.foldl_deliver_late {r : Recv} (hopen : r.session.closed = false)
    (batch : List (List UInt8)) :
    (batch.foldl (Recv.deliver closes) r).late = r.late ↔
      ∀ i < batch.length - 1, closes (r.session.received ++ batch.take (i + 1)) = false := by
  induction batch generalizing r with
  | nil => exact ⟨fun _ i hi => absurd hi (Nat.not_lt_zero i), fun _ => rfl⟩
  | cons p ps ih =>
      have hlate : (r.deliver closes p).late = r.late := by
        simp only [Recv.deliver, hopen, Bool.false_eq_true, if_false]
      rw [List.foldl_cons]
      cases hp : closes (r.session.received ++ [p]) with
      | true =>
          have hclosed : (r.deliver closes p).session.closed = true := by
            rw [Recv.closed_deliver, hp, Bool.or_true]
          rw [Recv.foldl_deliver_closed hclosed, hlate]
          constructor
          · intro h
            have hps : ps = [] := List.append_right_eq_self.mp h
            subst hps
            exact fun i hi => absurd hi (Nat.not_lt_zero i)
          · intro h
            cases ps with
            | nil => exact List.append_nil _
            | cons q qs =>
                have hfirst := h 0 (by simp)
                simp only [Nat.zero_add, List.take_succ_cons, List.take_zero] at hfirst
                rw [hp] at hfirst
                cases hfirst
      | false =>
          have hstill : (r.deliver closes p).session.closed = false := by
            rw [Recv.closed_deliver, hp, hopen, Bool.or_false]
          rw [← hlate, ih hstill, Recv.received_deliver]
          constructor
          · intro h i hi
            cases i with
            | zero => simpa using hp
            | succ i =>
                have := h i (by simp at hi; omega)
                simpa using this
          · intro h i hi
            have := h (i + 1) (by simp; omega)
            simpa using this

end Batch

/-! ## Runs -/

section Runs

variable (closes : Callback)

/-- The packets delivered late do not go away. -/
theorem Recv.late_prefix_foldl (r : Recv) (batch : List (List UInt8)) :
    r.late <+: (batch.foldl (Recv.deliver closes) r).late := by
  induction batch generalizing r with
  | nil => exact List.prefix_rfl
  | cons p ps ih =>
      refine List.IsPrefix.trans ?_ (ih (r.deliver closes p))
      simp only [Recv.deliver]
      split
      · exact List.prefix_append _ _
      · exact List.prefix_rfl

/-- A chunk is delivered in time exactly if the step is quiet. -/
theorem late_recvStep {r r' : Recv} {a : RecvAct} (h : recvStep closes r a = some r') :
    r'.late = r.late ↔ Quiet closes r a := by
  cases a with
  | close =>
      cases h
      exact ⟨fun _ => trivial, fun _ => rfl⟩
  | chunk data =>
      simp only [recvStep, Option.some.injEq] at h
      split at h
      next hclosed =>
        subst h
        exact ⟨fun _ => .inl hclosed, fun _ => rfl⟩
      next hopen =>
        subst h
        obtain ⟨hreceived, hstate⟩ := r.session.parseRecv_frame data
        have hquiet : Quiet closes r (.chunk data) ↔ ∀ i < (r.session.parseRecv data).2.length - 1,
            closes (r.session.received ++ (r.session.parseRecv data).2.take (i + 1)) = false :=
          or_iff_right hopen
        rw [hquiet, Recv.processRawRecv]
        rcases hstate with hnil | hstate
        · rw [hnil]
          exact ⟨fun _ i hi => absurd hi (Nat.not_lt_zero i), fun _ => rfl⟩
        · rw [← hreceived]
          exact Recv.foldl_deliver_late (hstate.trans (Bool.not_eq_true _ ▸ hopen)) _

theorem late_prefix_recvStep {r r' : Recv} {a : RecvAct} (h : recvStep closes r a = some r') :
    r.late <+: r'.late := by
  cases a with
  | close =>
      cases h
      exact List.prefix_rfl
  | chunk data =>
      simp only [recvStep, Option.some.injEq] at h
      split at h
      · subst h
        exact List.prefix_rfl
      · subst h
        exact Recv.late_prefix_foldl closes ⟨(r.session.parseRecv data).1, r.late⟩ _

/-- Every task can run. -/
theorem exists_run_recvStep (r : Recv) (as : List RecvAct) :
    ∃ r', Machine.run (recvStep closes) r as = some r' := by
  induction as generalizing r with
  | nil => exact ⟨r, rfl⟩
  | cons a as ih =>
      obtain ⟨r', hr'⟩ : ∃ r', recvStep closes r a = some r' := by
        cases a with
        | chunk data => exact ⟨_, rfl⟩
        | close => exact ⟨_, rfl⟩
      obtain ⟨r'', hr''⟩ := ih r'
      exact ⟨r'', by rw [Machine.run_cons, hr']; exact hr''⟩

/-- In a run no packet is delivered after the session is closed exactly if no callback closes
the session before the last packet of its batch. -/
theorem late_eq_nil_iff_quiet (as : List RecvAct) :
    Machine.Always (recvStep closes) (fun r => r.late = []) {} as ↔
      Machine.Meets (recvStep closes) (Quiet closes) {} as := by
  obtain ⟨t, hrun⟩ := exists_run_recvStep closes {} as
  refine Machine.always_iff_meets (I := fun _ => True) (fun _ _ _ _ _ => trivial) ?_ ?_ trivial rfl
    hrun
  · intro r a r' _ hlate hquiet hstep
    exact ((late_recvStep closes hstep).mpr hquiet).trans hlate
  · intro r a r' _ hloud hstep hlate
    have hprefix := late_prefix_recvStep closes hstep
    rw [hlate, List.prefix_nil] at hprefix
    exact hloud ((late_recvStep closes hstep).mp (hlate.trans hprefix.symm))

end Runs

/-- Two packets in one chunk.  The callback of the first closes the session, and the second
is delivered. -/
theorem late_two_packets :
    ∃ r, Machine.run (recvStep fun _ => true) {} [.chunk [4, 0, 1, 0, 4, 0, 2, 0]] = some r ∧
      r.late = [[4, 0, 2, 0]] := by
  have hw : ∀ p ∈ [[(4 : UInt8), 0, 1, 0], [4, 0, 2, 0]], WellFormed p := by decide
  have hbatch : (init.parseRecv [4, 0, 1, 0, 4, 0, 2, 0]).2 = [[4, 0, 1, 0], [4, 0, 2, 0]] :=
    Session.parseRecv_whole inv_init hw incomplete_nil rfl (by decide)
  have hopen : (init.parseRecv [4, 0, 1, 0, 4, 0, 2, 0]).1.closed = false := by
    refine ((init.parseRecv_frame _).2.resolve_left ?_).trans rfl
    rw [hbatch]
    exact List.cons_ne_nil _ _
  refine ⟨_, rfl, ?_⟩
  simp only [Recv.processRawRecv, hbatch, List.foldl_cons, List.foldl_nil, Recv.deliver,
    Session.onRecv, hopen]
  simp [Session.close, init]

end NetworkModule.PacketFraming
