import NetworkModule.Lib.Machine
import NetworkModule.Lib.Tally

/-!
# Connect and disconnect records

`TestServer` records in the local database when a client connects and when it
disconnects.  `OnClientConnectionEstablished` and `OnClientConnectionClosed` handle the
events of the engine on the logic workers, and put a record into `DBTaskQueue`.  Once
`Stop` has cleared `mIsRunning`, `OnClientConnectionClosed` leaves the record to `Stop`,
which takes a snapshot of the session manager and puts a record for every session of it
that is connected.

A session for which both or neither see themselves responsible is recorded twice or not at
all.  `paired_iff_handedOver` says exactly which steps do this.

The engine is taken as the events need it: it accepts sessions, fires `Connected` once for
each, and `Disconnected` once for each that is closed.  The two may come in any order.
Every load and store of a flag, every test of a session, the snapshot, and every push is
one step.
-/

namespace NetworkModule.TestServer.Pairing

/-! ## Sessions and handlers -/

/-- How a handler has ended. -/
inductive Outcome where
  | recorded
  /-- `mIsRunning` was clear. -/
  | declined
  /-- The queue was not running. -/
  | refused
  deriving DecidableEq, Repr

/-- Where a handler stands. -/
inductive HandlerPc where
  /-- The event has not been fired. -/
  | none
  /-- `OnClientConnectionClosed` loads `mIsRunning`. -/
  | runningTest
  /-- `mDBTaskQueue->IsRunning()`. -/
  | queueTest
  /-- `EnqueueTask` loads the flag of the queue. -/
  | firstTest
  /-- `EnqueueTask` loads it again under the lock, and pushes. -/
  | lockedTest
  | done (outcome : Outcome)
  deriving DecidableEq, Repr

/-- A session. -/
structure Sess where
  /-- Whether the session manager has it. -/
  registered : Bool := false
  /-- `IsConnected()`. -/
  connected : Bool := false
  /-- Whether `Disconnected` has been dispatched. -/
  submitted : Bool := false
  /-- `OnClientConnectionEstablished`. -/
  connect : HandlerPc := .none
  /-- `OnClientConnectionClosed`. -/
  disconnect : HandlerPc := .none
  deriving DecidableEq, Repr

/-- Where `Stop` stands. -/
inductive StopPc where
  /-- Not called. -/
  | idle
  /-- `mIsRunning.store(false)`. -/
  | store
  /-- `mDBTaskQueue->IsRunning()`. -/
  | queueTest
  /-- `GetAllSessions()`. -/
  | snapshot
  /-- The loop over the snapshot, at the test of its head. -/
  | loop (rest : List Nat)
  /-- `RecordDisconnectTime` for `x`: the first load in `EnqueueTask`. -/
  | firstTest (x : Nat) (rest : List Nat)
  /-- The second load, and the push. -/
  | lockedTest (x : Nat) (rest : List Nat)
  /-- `mDBTaskQueue->Shutdown()` loads its flag. -/
  | shutdownTest
  /-- And clears it. -/
  | shutdownStore
  /-- `mClientEngine->Stop()` waits for the logic workers. -/
  | engineStop
  | returned
  deriving DecidableEq, Repr

/-- `TestServer`, as far as it is about the records. -/
structure Server where
  mIsRunning : Bool := true
  /-- `mIsRunning` of the queue. -/
  queueRunning : Bool := true
  /-- The sessions that have been accepted. -/
  ids : List Nat := []
  sessions : Nat → Sess := fun _ => {}
  stop : StopPc := .idle
  /-- The sessions that `Stop` has recorded. -/
  byStop : List Nat := []
  /-- The sessions for which the queue has accepted `RecordConnectTime`. -/
  connects : List Nat := []
  /-- The sessions for which the queue has accepted `RecordDisconnectTime`. -/
  disconnects : List Nat := []

/-- Replace a session. -/
def Server.set (s : Server) (x : Nat) (sess : Sess) : Server :=
  { s with sessions := Function.update s.sessions x sess }

/-! ## Steps -/

/-- The part that both handlers have: where the handler stands then. -/
def recordStep (queueRunning : Bool) : HandlerPc → Option HandlerPc
  | .queueTest => some (if queueRunning then .firstTest else .done .refused)
  | .firstTest => some (if queueRunning then .lockedTest else .done .refused)
  | .lockedTest => some (if queueRunning then .done .recorded else .done .refused)
  | .none | .runningTest | .done _ => none

/-- A handler that gets to `done recorded` has pushed its record. -/
def pushed (x : Nat) (pc : HandlerPc) : List Nat := if pc = .done .recorded then [x] else []

/-- `OnClientConnectionEstablished` for the session `x`. -/
def connectStep (s : Server) (x : Nat) : Option Server :=
  match (s.sessions x).connect with
  | .none =>
      if x ∈ s.ids then some (s.set x { s.sessions x with connect := .queueTest }) else none
  | pc =>
      (recordStep s.queueRunning pc).map fun pc' =>
        { s.set x { s.sessions x with connect := pc' } with connects := s.connects ++ pushed x pc' }

/-- `OnClientConnectionClosed` for the session `x`. -/
def disconnectStep (s : Server) (x : Nat) : Option Server :=
  match (s.sessions x).disconnect with
  | .none =>
      if (s.sessions x).submitted then
        some (s.set x { s.sessions x with disconnect := .runningTest })
      else none
  | .runningTest =>
      some (s.set x { s.sessions x with
        disconnect := if s.mIsRunning then .queueTest else .done .declined })
  | pc =>
      (recordStep s.queueRunning pc).map fun pc' =>
        { s.set x { s.sessions x with disconnect := pc' } with
          disconnects := s.disconnects ++ pushed x pc' }

/-- The handler has returned. -/
def HandlerPc.ended : HandlerPc → Bool
  | .done _ => true
  | _ => false

/-- `Disconnected` has been handled, if it was dispatched or the session is closed. -/
def Sess.settled (sess : Sess) : Bool :=
  (!sess.submitted && sess.connected) || sess.disconnect.ended

/-- One step of `Stop`.  The manager gives its sessions in any order. -/
def stopStep (s : Server) (allSessions : List Nat) : Option Server :=
  match s.stop with
  | .idle => some { s with stop := .store }
  | .store => some { s with mIsRunning := false, stop := .queueTest }
  | .queueTest => some { s with stop := if s.queueRunning then .snapshot else .shutdownTest }
  | .snapshot =>
      if allSessions.Perm (s.ids.filter fun x => (s.sessions x).registered) then
        some { s with stop := .loop allSessions }
      else none
  | .loop [] => some { s with stop := .shutdownTest }
  | .loop (x :: rest) =>
      some { s with stop := if (s.sessions x).connected then .firstTest x rest else .loop rest }
  | .firstTest x rest =>
      some { s with stop := if s.queueRunning then .lockedTest x rest else .loop rest }
  | .lockedTest x rest =>
      if s.queueRunning then
        some { s with
          stop := .loop rest, byStop := s.byStop ++ [x], disconnects := s.disconnects ++ [x] }
      else some { s with stop := .loop rest }
  | .shutdownTest => some { s with stop := if s.queueRunning then .shutdownStore else .engineStop }
  | .shutdownStore => some { s with queueRunning := false, stop := .engineStop }
  | .engineStop =>
      if ∀ x ∈ s.ids, (s.sessions x).settled = true then some { s with stop := .returned } else none
  | .returned => none

/-- What happens next. -/
inductive Act where
  /-- The engine accepts a session. -/
  | accept (x : Nat)
  /-- A step of `OnClientConnectionEstablished`, or the event. -/
  | connectEvent (x : Nat)
  /-- The engine dispatches `Disconnected`. -/
  | submit (x : Nat)
  /-- The session is closed. -/
  | close (x : Nat)
  /-- The session manager forgets the session. -/
  | erase (x : Nat)
  /-- A step of `OnClientConnectionClosed`, or the event. -/
  | disconnectEvent (x : Nat)
  | stop (allSessions : List Nat)
  deriving DecidableEq, Repr

/-- One step.  Nothing happens after `Stop` has returned. -/
def step (s : Server) (a : Act) : Option Server :=
  if s.stop = .returned then none
  else
    match a with
    | .accept x =>
        if x ∈ s.ids then none
        else some { s.set x { registered := true, connected := true } with ids := s.ids ++ [x] }
    | .connectEvent x => connectStep s x
    | .submit x =>
        if x ∈ s.ids ∧ (s.sessions x).submitted = false then
          some (s.set x { s.sessions x with submitted := true })
        else none
    | .close x =>
        if x ∈ s.ids then some (s.set x { s.sessions x with connected := false }) else none
    | .erase x =>
        if x ∈ s.ids ∧ (s.sessions x).connected = false then
          some (s.set x { s.sessions x with registered := false })
        else none
    | .disconnectEvent x => disconnectStep s x
    | .stop allSessions => stopStep s allSessions

/-! ## Who records a session -/

/-- The handler has not loaded `mIsRunning`. -/
def HandlerPc.unchecked : HandlerPc → Bool
  | .none | .runningTest => true
  | _ => false

/-- The handler has found `mIsRunning` set, and the queue has not refused its record. -/
def HandlerPc.took : HandlerPc → Bool
  | .queueTest | .firstTest | .lockedTest | .done .recorded => true
  | _ => false

/-- `Stop` has found the session connected. -/
def Server.found (s : Server) (x : Nat) : Bool :=
  x ∈ s.byStop ||
    match s.stop with
    | .firstTest y _ | .lockedTest y _ => y = x
    | _ => false

/-- `Stop` will test the session, if it stays registered until the snapshot. -/
def Server.toCheck (s : Server) (x : Nat) : Bool :=
  match s.stop with
  | .idle | .store | .queueTest | .snapshot => (s.sessions x).registered
  | .loop rest | .firstTest _ rest | .lockedTest _ rest => x ∈ rest
  | _ => false

/-- Nobody will record the session. -/
def Server.lost (s : Server) (x : Nat) : Bool :=
  !s.found x && !((s.sessions x).connected && s.toCheck x) && !(s.sessions x).disconnect.took &&
    !((s.sessions x).disconnect.unchecked && s.mIsRunning)

/-- `Stop` and the handler record the session. -/
def Server.twice (s : Server) (x : Nat) : Bool :=
  s.found x && (s.sessions x).disconnect = .done .recorded

/-- The session has a connect record. -/
def Server.recorded (s : Server) (x : Nat) : Bool := (s.sessions x).connect = .done .recorded

/-- The step hands the session `x` over wrongly:

* `Stop` clears `mIsRunning`, and the session is closed but its handler has not loaded
  `mIsRunning`;
* `Stop` finds the session connected, and its handler has recorded it;
* the session is closed during `Stop`, and neither has `Stop` found it nor has its handler
  found `mIsRunning` set;
* the handler has found `mIsRunning` set, but the queue is not running, and `Stop` has not
  found the session;
* the handler pushes its record, and `Stop` has found the session;
* the connect record is accepted for a session that nobody will record, or that two have. -/
def misses (s : Server) (x : Nat) : Act → Bool
  | .stop _ =>
      s.recorded x &&
        match s.stop with
        | .store => !(s.sessions x).connected && (s.sessions x).disconnect.unchecked
        | .loop (y :: _) =>
            y = x && (s.sessions x).connected && (s.sessions x).disconnect = .done .recorded
        | _ => false
  | .close y =>
      y = x && s.recorded x && !s.mIsRunning && !s.found x && !(s.sessions x).disconnect.took
  | .disconnectEvent y =>
      y = x && s.recorded x &&
        match (s.sessions x).disconnect with
        | .queueTest | .firstTest => !s.queueRunning && !s.found x
        | .lockedTest => s.queueRunning == s.found x
        | _ => false
  | .connectEvent y =>
      y = x && (s.sessions x).connect = .lockedTest && s.queueRunning && (s.lost x || s.twice x)
  | .accept _ | .submit _ | .erase _ => false

/-- The step hands no session over wrongly. -/
def handedOver (s : Server) (a : Act) : Prop := ∀ x ∈ s.ids, misses s x a = false

instance (s : Server) (a : Act) : Decidable (handedOver s a) :=
  inferInstanceAs (Decidable (∀ x ∈ s.ids, misses s x a = false))

/-- A session with a connect record that is recorded twice or not at all. -/
def Server.bad (s : Server) (x : Nat) : Bool := s.recorded x && (s.lost x || s.twice x)

/-! ## Invariants -/

/-- `Stop` has cleared `mIsRunning`. -/
def StopPc.begun : StopPc → Bool
  | .idle | .store => false
  | _ => true

/-- `Stop` has gone through the snapshot. -/
def StopPc.pastLoop : StopPc → Bool
  | .shutdownTest | .shutdownStore | .engineStop | .returned => true
  | _ => false

/-- What `Stop` still has to go through. -/
def StopPc.remaining : StopPc → List Nat
  | .loop rest => rest
  | .firstTest x rest | .lockedTest x rest => x :: rest
  | _ => []

/-- What holds in every state. -/
structure PairInv (s : Server) : Prop where
  ids_nodup : s.ids.Nodup
  registered_mem : ∀ x, (s.sessions x).registered = true → x ∈ s.ids
  connected_registered : ∀ x, (s.sessions x).connected = true → (s.sessions x).registered = true
  connect_mem : ∀ x, (s.sessions x).connect ≠ .none → x ∈ s.ids
  disconnect_submitted : ∀ x, (s.sessions x).disconnect ≠ .none → (s.sessions x).submitted = true
  submitted_mem : ∀ x, (s.sessions x).submitted = true → x ∈ s.ids
  running : s.mIsRunning = !s.stop.begun
  early : s.mIsRunning = true → ∀ x, (s.sessions x).disconnect ≠ .done .declined ∧
    (s.sessions x).disconnect ≠ .done .refused
  queue : s.queueRunning = false → s.stop = .engineStop ∨ s.stop = .returned
  nodup : (s.byStop ++ s.stop.remaining).Nodup
  before : s.stop.begun = false ∨ s.stop = .queueTest ∨ s.stop = .snapshot → s.byStop = []
  connects : Tally.Lists (fun sess : Sess => decide (sess.connect = .done .recorded)) s.sessions
    s.connects
  disconnects : ∀ x, s.disconnects.count x =
    (decide ((s.sessions x).disconnect = .done .recorded)).toNat + s.byStop.count x
  settled : s.stop = .returned → ∀ x ∈ s.ids, (s.sessions x).settled = true

theorem pairInv_init : PairInv {} where
  ids_nodup := List.nodup_nil
  registered_mem := by simp
  connected_registered := by simp
  connect_mem := by simp
  disconnect_submitted := by simp
  submitted_mem := by simp
  running := rfl
  early := by simp
  queue := by simp
  nodup := by simp [StopPc.remaining]
  before := by simp
  connects := Tally.lists_nil (by simp)
  disconnects := by simp
  settled := by simp

section
variable {s s' : Server} {x : Nat}

/-- A session changes. -/
theorem PairInv.setSess (h : PairInv s) (hlive : s.stop ≠ .returned) {sess : Sess}
    {ids connects disconnects : List Nat} (hids : s.ids ⊆ ids) (hnodup : ids.Nodup) (hx : x ∈ ids)
    (hreg : sess.connected = true → sess.registered = true)
    (hsub : sess.disconnect ≠ .none → sess.submitted = true)
    (hearly : s.mIsRunning = true → sess.disconnect ≠ .done .declined ∧
      sess.disconnect ≠ .done .refused)
    (hconnects : Tally.Lists (fun sess : Sess => decide (sess.connect = .done .recorded))
      (Function.update s.sessions x sess) connects)
    (hself : disconnects.count x =
      (decide (sess.disconnect = .done .recorded)).toNat + s.byStop.count x)
    (hother : ∀ y, y ≠ x → disconnects.count y = s.disconnects.count y) :
    PairInv { s.set x sess with
      ids := ids, connects := connects, disconnects := disconnects } where
  ids_nodup := hnodup
  registered_mem := fun y hy => by
    by_cases hyx : y = x
    · rw [hyx]
      exact hx
    · exact hids (h.registered_mem y (by simpa [Server.set, hyx] using hy))
  connected_registered := fun y hy => by
    by_cases hyx : y = x
    · subst hyx
      simpa [Server.set] using hreg (by simpa [Server.set] using hy)
    · simpa [Server.set, hyx] using h.connected_registered y (by simpa [Server.set, hyx] using hy)
  connect_mem := fun y hy => by
    by_cases hyx : y = x
    · rw [hyx]
      exact hx
    · exact hids (h.connect_mem y (by simpa [Server.set, hyx] using hy))
  disconnect_submitted := fun y hy => by
    by_cases hyx : y = x
    · subst hyx
      simpa [Server.set] using hsub (by simpa [Server.set] using hy)
    · simpa [Server.set, hyx] using h.disconnect_submitted y (by simpa [Server.set, hyx] using hy)
  submitted_mem := fun y hy => by
    by_cases hyx : y = x
    · rw [hyx]
      exact hx
    · exact hids (h.submitted_mem y (by simpa [Server.set, hyx] using hy))
  running := h.running
  early := fun hr y => by
    by_cases hyx : y = x
    · subst hyx
      simpa [Server.set] using hearly hr
    · simpa [Server.set, hyx] using h.early hr y
  queue := h.queue
  nodup := h.nodup
  before := h.before
  connects := hconnects
  disconnects := fun y => by
    by_cases hyx : y = x
    · subst hyx
      simpa [Server.set] using hself
    · simpa [Server.set, hyx, hother y hyx] using h.disconnects y
  settled := fun hr => absurd hr hlive

/-- What a step of a handler does to its place. -/
theorem recordStep_cases {q : Bool} {pc pc' : HandlerPc} (h : recordStep q pc = some pc') :
    (q = true ∧ (pc = .queueTest ∧ pc' = .firstTest ∨ pc = .firstTest ∧ pc' = .lockedTest ∨
      pc = .lockedTest ∧ pc' = .done .recorded)) ∨
    q = false ∧ (pc = .queueTest ∨ pc = .firstTest ∨ pc = .lockedTest) ∧
      pc' = .done .refused := by
  cases q <;> cases pc <;> simp [recordStep] at h <;> simp [h]

theorem connectStep_cases (hs : connectStep s x = some s') :
    ((s.sessions x).connect = .none ∧ x ∈ s.ids ∧
      s' = s.set x { s.sessions x with connect := .queueTest }) ∨
    ∃ pc, recordStep s.queueRunning (s.sessions x).connect = some pc ∧
      s' = { s.set x { s.sessions x with connect := pc } with
        connects := s.connects ++ pushed x pc } := by
  simp only [connectStep] at hs
  split at hs
  next hpc =>
    split at hs
    next hx =>
      cases hs
      exact .inl ⟨hpc, hx, rfl⟩
    · cases hs
  · obtain ⟨pc, hpc, rfl⟩ := Option.map_eq_some_iff.mp hs
    exact .inr ⟨pc, hpc, rfl⟩

theorem disconnectStep_cases (hs : disconnectStep s x = some s') :
    ((s.sessions x).disconnect = .none ∧ (s.sessions x).submitted = true ∧
      s' = s.set x { s.sessions x with disconnect := .runningTest }) ∨
    ((s.sessions x).disconnect = .runningTest ∧
      s' = s.set x { s.sessions x with
        disconnect := if s.mIsRunning then .queueTest else .done .declined }) ∨
    ∃ pc, recordStep s.queueRunning (s.sessions x).disconnect = some pc ∧
      s' = { s.set x { s.sessions x with disconnect := pc } with
        disconnects := s.disconnects ++ pushed x pc } := by
  simp only [disconnectStep] at hs
  split at hs
  next hpc =>
    split at hs
    next hsub =>
      cases hs
      exact .inl ⟨hpc, hsub, rfl⟩
    · cases hs
  next hpc =>
    cases hs
    exact .inr (.inl ⟨hpc, rfl⟩)
  · obtain ⟨pc, hpc, rfl⟩ := Option.map_eq_some_iff.mp hs
    exact .inr (.inr ⟨pc, hpc, rfl⟩)

theorem PairInv.connect (h : PairInv s) (hlive : s.stop ≠ .returned)
    (hs : connectStep s x = some s') : PairInv s' := by
  have hx : (s.sessions x).connect ≠ .none → x ∈ s.ids := h.connect_mem x
  rcases connectStep_cases hs with ⟨hpc, hmem, rfl⟩ | ⟨pc, hpc, rfl⟩
  · exact h.setSess hlive (fun _ hy => hy) h.ids_nodup hmem (h.connected_registered x)
      (h.disconnect_submitted x) (fun hr => h.early hr x) (h.connects.move (by simp [hpc]))
      (h.disconnects x) fun _ _ => rfl
  · have hmem : x ∈ s.ids := hx fun hn => by simp [hn, recordStep] at hpc
    refine h.setSess hlive (fun _ hy => hy) h.ids_nodup hmem (h.connected_registered x)
      (h.disconnect_submitted x) (fun hr => h.early hr x) ?_ (h.disconnects x) fun _ _ => rfl
    rcases recordStep_cases hpc with ⟨-, ⟨ho, rfl⟩ | ⟨ho, rfl⟩ | ⟨ho, rfl⟩⟩ | ⟨-, ho, rfl⟩
    · simpa [pushed] using h.connects.move (by simp [ho])
    · simpa [pushed] using h.connects.move (by simp [ho])
    · simpa [pushed] using h.connects.enter (by simp [ho]) (by simp)
    · rw [pushed, if_neg (by simp), List.append_nil]
      exact h.connects.move (by rcases ho with ho | ho | ho <;> simp [ho])

theorem PairInv.disconnect (h : PairInv s) (hlive : s.stop ≠ .returned)
    (hs : disconnectStep s x = some s') : PairInv s' := by
  have hcount := h.disconnects x
  rcases disconnectStep_cases hs with ⟨hpc, hsub, rfl⟩ | ⟨hpc, rfl⟩ | ⟨pc, hpc, rfl⟩
  · refine h.setSess hlive (fun _ hy => hy) h.ids_nodup (h.submitted_mem x hsub)
      (h.connected_registered x) (fun _ => hsub) (by simp) (h.connects.move rfl) ?_ fun _ _ => rfl
    simpa [hpc] using hcount
  · have hsub := h.disconnect_submitted x (by simp [hpc])
    refine h.setSess hlive (fun _ hy => hy) h.ids_nodup (h.submitted_mem x hsub)
      (h.connected_registered x) (fun _ => hsub) (fun hr => by simp [hr]) (h.connects.move rfl) ?_
      fun _ _ => rfl
    cases hr : s.mIsRunning <;> simpa [hpc, hr] using hcount
  · have hsub := h.disconnect_submitted x fun hn => by simp [hn, recordStep] at hpc
    have hq : s.queueRunning = false → s.mIsRunning = false := fun hq => by
      rcases h.queue hq with hst | hst <;> simp [h.running, hst, StopPc.begun]
    refine h.setSess hlive (fun _ hy => hy) h.ids_nodup (h.submitted_mem x hsub)
      (h.connected_registered x) (fun _ => hsub) (fun hr => ?_) (h.connects.move rfl) ?_
      fun y hy => ?_
    · rcases recordStep_cases hpc with ⟨-, ⟨-, rfl⟩ | ⟨-, rfl⟩ | ⟨-, rfl⟩⟩ | ⟨hno, -⟩
      · simp
      · simp
      · simp
      · simp [hq hno] at hr
    · rcases recordStep_cases hpc with ⟨-, ⟨ho, rfl⟩ | ⟨ho, rfl⟩ | ⟨ho, rfl⟩⟩ | ⟨-, ho, rfl⟩
      · simpa [pushed, ho] using hcount
      · simpa [pushed, ho] using hcount
      · simp only [ho] at hcount
        simp [pushed, hcount, Nat.add_comm]
      · rcases ho with ho | ho | ho <;> simpa [pushed, ho] using hcount
    · simp only [pushed]
      split
      · simp [hy.symm]
      · simp

/-- `Stop` goes on, and nothing else changes. -/
theorem PairInv.stopTo (h : PairInv s) {pc : StopPc} (hbegun : pc.begun = s.stop.begun)
    (hqueue : s.queueRunning = false → pc = .engineStop ∨ pc = .returned)
    (hnodup : (s.byStop ++ pc.remaining).Nodup)
    (hbefore : pc.begun = false ∨ pc = .queueTest ∨ pc = .snapshot → s.byStop = [])
    (hsettled : pc = .returned → ∀ x ∈ s.ids, (s.sessions x).settled = true) :
    PairInv { s with stop := pc } :=
  { h with
    running := by simpa [hbegun] using h.running
    queue := hqueue
    nodup := hnodup
    before := hbefore
    settled := hsettled }

/-- The queue runs until `Shutdown` has been called. -/
theorem PairInv.queue_running (h : PairInv s) (he : s.stop ≠ .engineStop)
    (hr : s.stop ≠ .returned) : s.queueRunning = true := by
  by_contra hq
  rcases h.queue (by simpa using hq) with hst | hst
  · exact he hst
  · exact hr hst

theorem PairInv.stop {allSessions : List Nat} (h : PairInv s)
    (hs : stopStep s allSessions = some s') : PairInv s' := by
  have hnodup := h.nodup
  have hq := h.queue_running
  cases hpc : s.stop with
  | idle =>
      simp only [stopStep, hpc, Option.some.injEq] at hs
      subst hs
      have hq := hq (by simp [hpc]) (by simp [hpc])
      rw [hpc] at hnodup
      exact h.stopTo (by rw [hpc]; rfl) (by simp [hq]) hnodup
        (fun _ => h.before (.inl (by rw [hpc]; rfl))) (by simp)
  | store =>
      simp only [stopStep, hpc, Option.some.injEq] at hs
      subst hs
      have hq := hq (by simp [hpc]) (by simp [hpc])
      exact { h with
        running := rfl
        early := by simp
        queue := by simp [hq]
        nodup := by
          rw [hpc] at hnodup
          exact hnodup
        before := fun _ => h.before (.inl (by rw [hpc]; rfl))
        settled := by simp }
  | queueTest =>
      have hq := hq (by simp [hpc]) (by simp [hpc])
      simp only [stopStep, hpc, if_pos hq, Option.some.injEq] at hs
      subst hs
      rw [hpc] at hnodup
      exact h.stopTo (by rw [hpc]; rfl) (by simp [hq]) hnodup
        (fun _ => h.before (.inr (.inl hpc))) (by simp)
  | snapshot =>
      have hq := hq (by simp [hpc]) (by simp [hpc])
      have hempty := h.before (.inr (.inr hpc))
      simp only [stopStep, hpc] at hs
      split at hs
      next hperm =>
        cases hs
        refine h.stopTo (by rw [hpc]; rfl) (by simp [hq]) ?_ (by simp [StopPc.begun]) (by simp)
        rw [hempty]
        exact hperm.nodup_iff.mpr (h.ids_nodup.filter _)
      · cases hs
  | loop rest =>
      have hq := hq (by simp [hpc]) (by simp [hpc])
      rw [hpc] at hnodup
      cases rest with
      | nil =>
          simp only [stopStep, hpc, Option.some.injEq] at hs
          subst hs
          exact h.stopTo (by rw [hpc]; rfl) (by simp [hq]) hnodup (by simp [StopPc.begun]) (by simp)
      | cons x rest =>
          simp only [stopStep, hpc, Option.some.injEq] at hs
          subst hs
          split
          · exact h.stopTo (by rw [hpc]; rfl) (by simp [hq]) hnodup (by simp [StopPc.begun])
              (by simp)
          · refine h.stopTo (by rw [hpc]; rfl) (by simp [hq]) ?_ (by simp [StopPc.begun]) (by simp)
            exact hnodup.sublist (List.Sublist.append_left (List.sublist_cons_self x rest) _)
  | firstTest x rest =>
      have hq := hq (by simp [hpc]) (by simp [hpc])
      rw [hpc] at hnodup
      simp only [stopStep, hpc, if_pos hq, Option.some.injEq] at hs
      subst hs
      exact h.stopTo (by rw [hpc]; rfl) (by simp [hq]) hnodup (by simp [StopPc.begun]) (by simp)
  | lockedTest x rest =>
      have hq := hq (by simp [hpc]) (by simp [hpc])
      rw [hpc] at hnodup
      simp only [stopStep, hpc, if_pos hq, Option.some.injEq] at hs
      subst hs
      exact { h with
        running := by simpa [hpc, StopPc.begun] using h.running
        queue := by simp [hq]
        nodup := by simpa [StopPc.remaining] using hnodup
        before := by simp [StopPc.begun]
        disconnects := fun y => by
          simp only [List.count_append, h.disconnects y]
          omega
        settled := by simp }
  | shutdownTest =>
      have hq := hq (by simp [hpc]) (by simp [hpc])
      rw [hpc] at hnodup
      simp only [stopStep, hpc, if_pos hq, Option.some.injEq] at hs
      subst hs
      exact h.stopTo (by rw [hpc]; rfl) (by simp [hq]) hnodup (by simp [StopPc.begun]) (by simp)
  | shutdownStore =>
      rw [hpc] at hnodup
      simp only [stopStep, hpc, Option.some.injEq] at hs
      subst hs
      exact { h with
        running := by simpa [hpc, StopPc.begun] using h.running
        queue := by simp
        nodup := hnodup
        before := by simp [StopPc.begun]
        settled := by simp }
  | engineStop =>
      rw [hpc] at hnodup
      simp only [stopStep, hpc] at hs
      split at hs
      next hall =>
        cases hs
        exact h.stopTo (by rw [hpc]; rfl) (by simp) hnodup (by simp [StopPc.begun]) fun _ => hall
      · cases hs
  | returned => simp [stopStep, hpc] at hs

/-- Every step keeps the invariant. -/
theorem PairInv.step {a : Act} (h : PairInv s) (hs : Pairing.step s a = some s') : PairInv s' := by
  simp only [Pairing.step] at hs
  split at hs
  · cases hs
  next hlive =>
    cases a with
    | accept x =>
        simp only at hs
        split at hs
        · cases hs
        next hx =>
          cases hs
          have hconnect : (s.sessions x).connect = .none := by
            by_contra hne
            exact hx (h.connect_mem x hne)
          have hdisconnect : (s.sessions x).disconnect = .none := by
            by_contra hne
            exact hx (h.submitted_mem x (h.disconnect_submitted x hne))
          refine h.setSess hlive (List.subset_append_left _ _) ?_ (by simp) (fun _ => rfl)
            (by simp) (by simp) (h.connects.move (by simp [hconnect])) ?_ fun _ _ => rfl
          · exact List.nodup_append.mpr ⟨h.ids_nodup, by simp, fun y hy z hz => by
              rw [List.mem_singleton.mp hz]
              exact fun he => hx (he ▸ hy)⟩
          · simpa [Server.set, hdisconnect] using h.disconnects x
    | connectEvent x => exact h.connect hlive hs
    | submit x =>
        simp only at hs
        split at hs
        next hx =>
          cases hs
          exact h.setSess hlive (fun _ hy => hy) h.ids_nodup hx.1 (h.connected_registered x)
            (fun _ => rfl) (fun hr => h.early hr x) (h.connects.move rfl) (h.disconnects x)
            fun _ _ => rfl
        · cases hs
    | close x =>
        simp only at hs
        split at hs
        next hx =>
          cases hs
          exact h.setSess hlive (fun _ hy => hy) h.ids_nodup hx (by simp)
            (h.disconnect_submitted x) (fun hr => h.early hr x) (h.connects.move rfl)
            (h.disconnects x) fun _ _ => rfl
        · cases hs
    | erase x =>
        simp only at hs
        split at hs
        next hx =>
          cases hs
          exact h.setSess hlive (fun _ hy => hy) h.ids_nodup hx.1 (by simp [hx.2])
            (h.disconnect_submitted x) (fun hr => h.early hr x) (h.connects.move rfl)
            (h.disconnects x) fun _ _ => rfl
        · cases hs
    | disconnectEvent x => exact h.disconnect hlive hs
    | stop allSessions => exact h.stop hs

/-! ## One step -/

/-- What badness depends on. -/
def badAt (recorded found waits : Bool) (pc : HandlerPc) (mIsRunning : Bool) : Bool :=
  recorded && (!found && !waits && !pc.took && !(pc.unchecked && mIsRunning) ||
    found && pc = .done .recorded)

theorem bad_eq (s : Server) (x : Nat) :
    s.bad x = badAt (s.recorded x) (s.found x) ((s.sessions x).connected && s.toCheck x)
      (s.sessions x).disconnect s.mIsRunning := rfl

/-- Whether `Stop` will test a session depends on `Stop` and on the session manager. -/
theorem toCheck_congr (hstop : s'.stop = s.stop)
    (hreg : (s'.sessions x).registered = (s.sessions x).registered) :
    s'.toCheck x = s.toCheck x := by
  simp only [Server.toCheck, hstop, hreg]

/-- Whether a session is bad depends on it, on `Stop` and on `mIsRunning`. -/
theorem bad_congr (hsess : s'.sessions x = s.sessions x) (hstop : s'.stop = s.stop)
    (hby : s'.byStop = s.byStop) (hrun : s'.mIsRunning = s.mIsRunning) : s'.bad x = s.bad x := by
  have hfound : s'.found x = s.found x := by simp only [Server.found, hby, hstop]
  rw [bad_eq, bad_eq, Server.recorded, hsess, hfound, toCheck_congr hstop (by rw [hsess]), hrun]
  rfl

/-- A step of another session. -/
theorem bad_set_of_ne {y : Nat} {sess : Sess} {ids connects disconnects : List Nat} (hxy : x ≠ y) :
    { s.set y sess with ids := ids, connects := connects, disconnects := disconnects }.bad x =
      s.bad x :=
  bad_congr (Function.update_of_ne hxy ..) rfl rfl rfl

theorem PairInv.not_recorded_of_notMem (h : PairInv s) (hx : x ∉ s.ids) : s.recorded x = false := by
  by_contra hr
  simp only [Server.recorded, Bool.not_eq_false, decide_eq_true_eq] at hr
  exact hx (h.connect_mem x (by simp [hr]))

/-- A step of the session itself. -/
theorem bad_of_sess (sess : Sess) {connects disconnects : List Nat}
    (hreg : sess.connected = true → sess.registered = (s.sessions x).registered) :
    { s.set x sess with connects := connects, disconnects := disconnects }.bad x =
      badAt (sess.connect = .done .recorded) (s.found x) (sess.connected && s.toCheck x)
        sess.disconnect s.mIsRunning := by
  have hself : Function.update s.sessions x sess x = sess := Function.update_self ..
  rw [bad_eq]
  simp only [Server.recorded, Server.set, hself]
  refine congrArg (fun b => badAt _ (s.found x) b _ s.mIsRunning) ?_
  cases hc : sess.connected with
  | false => rfl
  | true => exact congrArg _ (toCheck_congr rfl (by simp only [hself, hreg hc]))

/-- A step of `OnClientConnectionEstablished`. -/
theorem bad_connect (hs : connectStep s x = some s') :
    s'.bad x = (s.bad x || misses s x (.connectEvent x)) := by
  rcases connectStep_cases hs with ⟨hpc, -, rfl⟩ | ⟨pc, hpc, rfl⟩
  · refine (bad_of_sess { s.sessions x with connect := .queueTest } fun _ => rfl).trans ?_
    simp [bad_eq, badAt, Server.recorded, misses, hpc]
  · refine (bad_of_sess { s.sessions x with connect := pc } fun _ => rfl).trans ?_
    rcases recordStep_cases hpc with ⟨hq, ⟨ho, rfl⟩ | ⟨ho, rfl⟩ | ⟨ho, rfl⟩⟩ | ⟨hq, ho, rfl⟩
    · simp [bad_eq, badAt, Server.recorded, misses, ho]
    · simp [bad_eq, badAt, Server.recorded, misses, ho]
    · simp [bad_eq, badAt, Server.recorded, misses, ho, hq, Server.lost, Server.twice]
    · rcases ho with ho | ho | ho <;> simp [bad_eq, badAt, Server.recorded, misses, ho, hq]

/-- The queue runs until `Stop` has gone through the snapshot. -/
theorem PairInv.toCheck_of_queue (h : PairInv s) (hq : s.queueRunning = false) :
    s.toCheck x = false := by
  rcases h.queue hq with hst | hst <;> simp [Server.toCheck, hst]

/-- A step of `OnClientConnectionClosed`. -/
theorem bad_disconnect (h : PairInv s) (hs : disconnectStep s x = some s') :
    s'.bad x = (s.bad x || misses s x (.disconnectEvent x)) := by
  rcases disconnectStep_cases hs with ⟨hpc, -, rfl⟩ | ⟨hpc, rfl⟩ | ⟨pc, hpc, rfl⟩
  · refine (bad_of_sess { s.sessions x with disconnect := .runningTest } fun _ => rfl).trans ?_
    simp [bad_eq, badAt, Server.recorded, misses, hpc, HandlerPc.took, HandlerPc.unchecked]
  · refine (bad_of_sess { s.sessions x with
      disconnect := if s.mIsRunning then .queueTest else .done .declined } fun _ => rfl).trans ?_
    cases hr : s.mIsRunning <;>
      simp [bad_eq, badAt, Server.recorded, misses, hpc, hr, HandlerPc.took, HandlerPc.unchecked]
  · refine (bad_of_sess { s.sessions x with disconnect := pc } fun _ => rfl).trans ?_
    rcases recordStep_cases hpc with ⟨hq, ⟨ho, rfl⟩ | ⟨ho, rfl⟩ | ⟨ho, rfl⟩⟩ | ⟨hq, ho, rfl⟩
    · simp [bad_eq, badAt, Server.recorded, misses, ho, hq, HandlerPc.took]
    · simp [bad_eq, badAt, Server.recorded, misses, ho, hq, HandlerPc.took]
    · simp [bad_eq, badAt, Server.recorded, misses, ho, hq, HandlerPc.took]
    · have hcheck : s.toCheck x = false := h.toCheck_of_queue hq
      rcases ho with ho | ho | ho <;>
        simp [bad_eq, badAt, Server.recorded, misses, ho, hq, hcheck, HandlerPc.took,
          HandlerPc.unchecked]

/-- While the server runs, every handler can still record its session or has done so. -/
theorem PairInv.took_of_running (h : PairInv s) (hr : s.mIsRunning = true) :
    (s.sessions x).disconnect.took = !(s.sessions x).disconnect.unchecked := by
  have hearly := h.early hr x
  cases hpc : (s.sessions x).disconnect with
  | done outcome =>
      cases outcome with
      | recorded => rfl
      | declined => exact absurd hpc hearly.1
      | refused => exact absurd hpc hearly.2
  | none => rfl
  | runningTest => rfl
  | queueTest => rfl
  | firstTest => rfl
  | lockedTest => rfl

/-- The session is closed. -/
theorem bad_close (h : PairInv s) :
    (s.set x { s.sessions x with connected := false }).bad x =
      (s.bad x || misses s x (.close x)) := by
  refine (bad_of_sess { s.sessions x with connected := false } (by simp)).trans ?_
  simp only [bad_eq, badAt, Server.recorded, misses, decide_true, Bool.true_and]
  cases hr : s.mIsRunning with
  | true =>
      rw [h.took_of_running hr]
      cases (s.sessions x).disconnect.unchecked <;> simp
  | false =>
      cases decide ((s.sessions x).connect = .done .recorded) <;> cases s.found x <;>
        cases (s.sessions x).disconnect.took <;> simp

/-- The session manager forgets a closed session. -/
theorem bad_erase (hc : (s.sessions x).connected = false) :
    (s.set x { s.sessions x with registered := false }).bad x = s.bad x := by
  refine (bad_of_sess { s.sessions x with registered := false } (by simp [hc])).trans ?_
  simp only [bad_eq, Server.recorded, hc, Bool.false_and]

/-- `Stop` goes on with what it has found and what it will test. -/
theorem bad_of_stop {pc : StopPc} {byStop : List Nat} {queueRunning : Bool}
    {disconnects : List Nat} {s' : Server}
    (hs' : s' = { s with
      stop := pc, byStop := byStop, queueRunning := queueRunning, disconnects := disconnects })
    (hfound : s'.found x = s.found x)
    (hcheck : (s.sessions x).connected = true → s'.toCheck x = s.toCheck x) :
    s'.bad x = s.bad x := by
  rw [bad_eq, bad_eq, hfound]
  subst hs'
  refine congrArg (fun b => badAt _ (s.found x) b _ s.mIsRunning) ?_
  cases hc : (s.sessions x).connected with
  | false => rfl
  | true => exact congrArg _ (hcheck hc)

/-- The snapshot has the sessions that are registered. -/
theorem PairInv.mem_snapshot {allSessions : List Nat} (h : PairInv s)
    (hperm : allSessions.Perm (s.ids.filter fun x => (s.sessions x).registered)) :
    x ∈ allSessions ↔ (s.sessions x).registered = true := by
  rw [hperm.mem_iff, List.mem_filter]
  exact ⟨And.right, fun hx => ⟨h.registered_mem x hx, hx⟩⟩

/-- `Stop` clears `mIsRunning`. -/
theorem bad_store (h : PairInv s) (hpc : s.stop = .store) {allSessions : List Nat} :
    { s with mIsRunning := false, stop := .queueTest }.bad x =
      (s.bad x || misses s x (.stop allSessions)) := by
  have hrun : s.mIsRunning = true := by simp [h.running, hpc, StopPc.begun]
  have hby : s.byStop = [] := h.before (.inl (by rw [hpc]; rfl))
  have hreg : ((s.sessions x).connected && (s.sessions x).registered) =
      (s.sessions x).connected := by
    cases hc : (s.sessions x).connected with
    | false => rfl
    | true => exact h.connected_registered x hc
  simp only [bad_eq, badAt, misses, Server.recorded, Server.found, Server.toCheck, hpc, hby, hrun,
    hreg, h.took_of_running hrun]
  cases decide ((s.sessions x).connect = .done .recorded) <;> cases (s.sessions x).connected <;>
    cases (s.sessions x).disconnect.unchecked <;> simp

/-- `Stop` tests the head of what remains of the snapshot. -/
theorem bad_loop (h : PairInv s) {y : Nat} {rest allSessions : List Nat}
    (hpc : s.stop = .loop (y :: rest)) :
    { s with stop := if (s.sessions y).connected then .firstTest y rest else .loop rest }.bad x =
      (s.bad x || misses s x (.stop allSessions)) := by
  by_cases hxy : y = x
  · subst hxy
    have hnodup := h.nodup
    rw [hpc] at hnodup
    have hby : y ∉ s.byStop := fun hy =>
      (List.nodup_append.mp hnodup).2.2 y hy y (List.mem_cons_self ..) rfl
    cases hc : (s.sessions y).connected with
    | true =>
        simp [bad_eq, badAt, misses, Server.recorded, Server.found, Server.toCheck, hpc, hc, hby]
    | false =>
        simp [bad_eq, badAt, misses, Server.recorded, Server.found, Server.toCheck, hpc, hc, hby]
  · have hmiss : misses s x (.stop allSessions) = false := by simp [misses, hpc, hxy]
    rw [hmiss, Bool.or_false]
    refine bad_of_stop rfl ?_ fun _ => ?_
    · split <;> simp [Server.found, hpc, hxy]
    · split <;> simp [Server.toCheck, hpc, Ne.symm hxy]

/-- The other steps of `Stop` hand nothing over. -/
theorem bad_stop_of_quiet {allSessions : List Nat} (h : PairInv s) (hstore : s.stop ≠ .store)
    (hloop : ∀ y rest, s.stop ≠ .loop (y :: rest)) (hs : stopStep s allSessions = some s') :
    s'.bad x = s.bad x := by
  have hq := h.queue_running
  cases hpc : s.stop with
  | idle =>
      simp only [stopStep, hpc, Option.some.injEq] at hs
      subst hs
      exact bad_of_stop rfl (by simp [Server.found, hpc]) (by simp [Server.toCheck, hpc])
  | store => exact absurd hpc hstore
  | queueTest =>
      have hq := hq (by simp [hpc]) (by simp [hpc])
      simp only [stopStep, hpc, if_pos hq, Option.some.injEq] at hs
      subst hs
      exact bad_of_stop rfl (by simp [Server.found, hpc]) (by simp [Server.toCheck, hpc])
  | snapshot =>
      simp only [stopStep, hpc] at hs
      split at hs
      next hperm =>
        cases hs
        refine bad_of_stop rfl (by simp [Server.found, hpc]) fun _ => ?_
        simp [Server.toCheck, hpc, h.mem_snapshot hperm]
      · cases hs
  | loop rest =>
      cases rest with
      | nil =>
          simp only [stopStep, hpc, Option.some.injEq] at hs
          subst hs
          exact bad_of_stop rfl (by simp [Server.found, hpc]) (by simp [Server.toCheck, hpc])
      | cons y rest => exact absurd hpc (hloop y rest)
  | firstTest y rest =>
      have hq := hq (by simp [hpc]) (by simp [hpc])
      simp only [stopStep, hpc, if_pos hq, Option.some.injEq] at hs
      subst hs
      exact bad_of_stop rfl (by simp [Server.found, hpc]) (by simp [Server.toCheck, hpc])
  | lockedTest y rest =>
      have hq := hq (by simp [hpc]) (by simp [hpc])
      simp only [stopStep, hpc, if_pos hq, Option.some.injEq] at hs
      subst hs
      exact bad_of_stop rfl (by simp [Server.found, hpc, eq_comm]) (by simp [Server.toCheck, hpc])
  | shutdownTest =>
      have hq := hq (by simp [hpc]) (by simp [hpc])
      simp only [stopStep, hpc, if_pos hq, Option.some.injEq] at hs
      subst hs
      exact bad_of_stop rfl (by simp [Server.found, hpc]) (by simp [Server.toCheck, hpc])
  | shutdownStore =>
      simp only [stopStep, hpc, Option.some.injEq] at hs
      subst hs
      exact bad_of_stop rfl (by simp [Server.found, hpc]) (by simp [Server.toCheck, hpc])
  | engineStop =>
      simp only [stopStep, hpc] at hs
      split at hs
      · cases hs
        exact bad_of_stop rfl (by simp [Server.found, hpc]) (by simp [Server.toCheck, hpc])
      · cases hs
  | returned => simp [stopStep, hpc] at hs

/-- A step of `Stop`. -/
theorem bad_stop {allSessions : List Nat} (h : PairInv s) (hs : stopStep s allSessions = some s') :
    s'.bad x = (s.bad x || misses s x (.stop allSessions)) := by
  by_cases hstore : s.stop = .store
  · simp only [stopStep, hstore, Option.some.injEq] at hs
    subst hs
    exact bad_store h hstore
  by_cases hloop : ∃ y rest, s.stop = .loop (y :: rest)
  · obtain ⟨y, rest, hpc⟩ := hloop
    simp only [stopStep, hpc, Option.some.injEq] at hs
    subst hs
    exact bad_loop h hpc
  · have hloop : ∀ y rest, s.stop ≠ .loop (y :: rest) := fun y rest hpc => hloop ⟨y, rest, hpc⟩
    have hmiss : misses s x (.stop allSessions) = false := by
      simp only [misses, Bool.and_false]
    rw [hmiss, Bool.or_false]
    exact bad_stop_of_quiet h hstore hloop hs

/-- A step makes exactly those sessions bad that it hands over wrongly. -/
theorem bad_step {a : Act} (h : PairInv s) (hs : step s a = some s') (x : Nat) :
    s'.bad x = (s.bad x || misses s x a) := by
  simp only [step] at hs
  split at hs
  · cases hs
  cases a with
  | accept y =>
      simp only at hs
      split at hs
      · cases hs
      next hy =>
        cases hs
        by_cases hxy : x = y
        · subst hxy
          have hnone : s.bad x = false := by simp [Server.bad, h.not_recorded_of_notMem hy]
          rw [hnone]
          simp [misses, Server.bad, Server.recorded, Server.set]
        · rw [bad_set_of_ne hxy, misses, Bool.or_false]
  | connectEvent y =>
      by_cases hxy : x = y
      · subst hxy
        exact bad_connect hs
      · have hmiss : misses s x (.connectEvent y) = false := by simp [misses, Ne.symm hxy]
        rw [hmiss, Bool.or_false]
        rcases connectStep_cases hs with ⟨-, -, rfl⟩ | ⟨pc, -, rfl⟩
        · exact bad_set_of_ne hxy
        · exact bad_set_of_ne hxy
  | submit y =>
      simp only at hs
      split at hs
      · cases hs
        rw [misses, Bool.or_false]
        by_cases hxy : x = y
        · subst hxy
          exact bad_of_sess { s.sessions x with submitted := true } fun _ => rfl
        · exact bad_set_of_ne hxy
      · cases hs
  | close y =>
      simp only at hs
      split at hs
      · cases hs
        by_cases hxy : x = y
        · subst hxy
          exact bad_close h
        · have hmiss : misses s x (.close y) = false := by simp [misses, Ne.symm hxy]
          rw [hmiss, Bool.or_false]
          exact bad_set_of_ne hxy
      · cases hs
  | erase y =>
      simp only at hs
      split at hs
      next hy =>
        cases hs
        rw [misses, Bool.or_false]
        by_cases hxy : x = y
        · subst hxy
          exact bad_erase hy.2
        · exact bad_set_of_ne hxy
      · cases hs
  | disconnectEvent y =>
      by_cases hxy : x = y
      · subst hxy
        exact bad_disconnect h hs
      · have hmiss : misses s x (.disconnectEvent y) = false := by simp [misses, Ne.symm hxy]
        rw [hmiss, Bool.or_false]
        rcases disconnectStep_cases hs with ⟨-, -, rfl⟩ | ⟨-, rfl⟩ | ⟨pc, -, rfl⟩
        · exact bad_set_of_ne hxy
        · exact bad_set_of_ne hxy
        · exact bad_set_of_ne hxy
  | stop allSessions => exact bad_stop h hs

/-- A step hands over only sessions that have been accepted. -/
theorem PairInv.mem_of_misses {a : Act} (h : PairInv s) (hm : misses s x a = true) : x ∈ s.ids := by
  by_contra hx
  have hr := h.not_recorded_of_notMem hx
  have hc : (s.sessions x).connect ≠ .lockedTest := fun hc => hx (h.connect_mem x (by simp [hc]))
  cases a with
  | accept y => simp [misses] at hm
  | connectEvent y => simp [misses, hc] at hm
  | submit y => simp [misses] at hm
  | close y => simp [misses, hr] at hm
  | erase y => simp [misses] at hm
  | disconnectEvent y => simp [misses, hr] at hm
  | stop allSessions => simp [misses, hr] at hm

/-! ## Runs -/

/-- Some session is recorded twice or not at all. -/
def Server.mismatched (s : Server) : Prop := ∃ x, s.bad x = true

theorem mismatched_of_not_handedOver {a : Act} (h : PairInv s) (hno : ¬ handedOver s a)
    (hs : step s a = some s') : s'.mismatched := by
  simp only [handedOver, not_forall, Bool.not_eq_false] at hno
  obtain ⟨x, -, hm⟩ := hno
  exact ⟨x, by rw [bad_step h hs, hm, Bool.or_true]⟩

theorem mismatched_step {a : Act} (h : PairInv s) (hb : s.mismatched)
    (hs : step s a = some s') : s'.mismatched := by
  obtain ⟨x, hx⟩ := hb
  exact ⟨x, by rw [bad_step h hs, hx, Bool.true_or]⟩

theorem not_mismatched_step {a : Act} (h : PairInv s) (hb : ¬ s.mismatched) (hok : handedOver s a)
    (hs : step s a = some s') : ¬ s'.mismatched := by
  rintro ⟨x, hx⟩
  rw [bad_step h hs, Bool.or_eq_true] at hx
  rcases hx with hx | hx
  · exact hb ⟨x, hx⟩
  · simp [hok x (h.mem_of_misses hx)] at hx

/-- A run ends with no session mismatched just if every step hands its sessions over. -/
theorem not_mismatched_iff {as : List Act} (hrun : Machine.run step {} as = some s) :
    ¬ s.mismatched ↔ Machine.Meets step handedOver {} as := by
  have hinit : ¬ Server.mismatched {} := by
    rintro ⟨x, hx⟩
    simp [Server.bad, Server.recorded] at hx
  constructor
  · intro hend
    exact Machine.meets_of_run (fun _ _ _ h hs => PairInv.step h hs)
      (fun _ _ _ h hno hs => mismatched_of_not_handedOver h hno hs)
      (fun _ _ _ h hb hs => mismatched_step h hb hs) pairInv_init hrun hend
  · intro hmeets
    exact (Machine.run_invariant_of_meets (I := fun s => PairInv s ∧ ¬ s.mismatched)
      (fun _ _ _ h hok hs => ⟨h.1.step hs, not_mismatched_step h.1 h.2 hok hs⟩)
      ⟨pairInv_init, hinit⟩ hmeets hrun).2

/-- Every session with a connect record has exactly one disconnect record. -/
def Paired (s : Server) : Prop := ∀ x ∈ s.connects, s.disconnects.count x = 1

instance (s : Server) : Decidable (Paired s) :=
  inferInstanceAs (Decidable (∀ x ∈ s.connects, s.disconnects.count x = 1))

/-- When `Stop` has returned, no handler is on its way. -/
theorem PairInv.took_of_returned (h : PairInv s) (hret : s.stop = .returned) (hx : x ∈ s.ids) :
    (s.sessions x).disconnect.took = decide ((s.sessions x).disconnect = .done .recorded) := by
  have hsettled := h.settled hret x hx
  simp only [Sess.settled, Bool.or_eq_true, Bool.and_eq_true, Bool.not_eq_true'] at hsettled
  rcases hsettled with ⟨hsub, -⟩ | hended
  · have hnone : (s.sessions x).disconnect = .none := by
      by_contra hne
      simp [h.disconnect_submitted x hne] at hsub
    simp [hnone, HandlerPc.took]
  · cases hpc : (s.sessions x).disconnect with
    | done outcome => cases outcome <;> simp [HandlerPc.took]
    | none => simp [hpc, HandlerPc.ended] at hended
    | runningTest => simp [hpc, HandlerPc.ended] at hended
    | queueTest => simp [hpc, HandlerPc.ended] at hended
    | firstTest => simp [hpc, HandlerPc.ended] at hended
    | lockedTest => simp [hpc, HandlerPc.ended] at hended

/-- When `Stop` has returned, a bad session has no disconnect record or two. -/
theorem PairInv.bad_of_returned (h : PairInv s) (hret : s.stop = .returned)
    (hx : x ∈ s.connects) : s.bad x = false ↔ s.disconnects.count x = 1 := by
  have hrec : (s.sessions x).connect = .done .recorded := by simpa using (h.connects.mem x).mp hx
  have hmem : x ∈ s.ids := h.connect_mem x (by simp [hrec])
  have hrun : s.mIsRunning = false := by simp [h.running, hret, StopPc.begun]
  have hnodup : s.byStop.Nodup := (List.nodup_append.mp h.nodup).1
  have hcount : s.byStop.count x = (decide (x ∈ s.byStop)).toNat := by
    by_cases hb : x ∈ s.byStop
    · simp [hb, List.count_eq_one_of_mem hnodup hb]
    · simp [hb, List.count_eq_zero.mpr hb]
  rw [h.disconnects x, hcount, bad_eq]
  simp only [badAt, Server.recorded, Server.found, Server.toCheck, hret, hrun, hrec,
    h.took_of_returned hret hmem]
  by_cases hb : x ∈ s.byStop <;> by_cases hd : (s.sessions x).disconnect = .done .recorded <;>
    simp [hb, hd]

theorem PairInv.paired_iff (h : PairInv s) (hret : s.stop = .returned) :
    Paired s ↔ ¬ s.mismatched := by
  constructor
  · rintro hp ⟨x, hx⟩
    have hmem : x ∈ s.connects := (h.connects.mem x).mpr (by simp_all [Server.bad, Server.recorded])
    simp [(h.bad_of_returned hret hmem).mpr (hp x hmem)] at hx
  · intro hno x hx
    refine (h.bad_of_returned hret hx).mp ?_
    by_contra hb
    exact hno ⟨x, by simpa using hb⟩

/-- When `Stop` returns, every session with a connect record has exactly one disconnect
record, just if no step has handed a session over wrongly. -/
theorem paired_iff_handedOver {as : List Act} (hrun : Machine.run Pairing.step {} as = some s)
    (hret : s.stop = .returned) : Paired s ↔ Machine.Meets Pairing.step handedOver {} as := by
  have h : PairInv s :=
    Machine.run_invariant (fun _ _ _ h hs => PairInv.step h hs) pairInv_init hrun
  rw [h.paired_iff hret]
  exact not_mismatched_iff hrun

end

/-- The client `x` connects, and its connect record is accepted. -/
def arrive (x : Nat) : List Act := .accept x :: List.replicate 4 (.connectEvent x)

/-- The client 1 comes and goes, and its handler records it.  The client 2 is there when
the server stops, and `Stop` records it. -/
def handoverTrace : List Act :=
  List.flatten
    [arrive 1, [.submit 1, .close 1], List.replicate 5 (.disconnectEvent 1), [.erase 1], arrive 2,
      List.replicate 9 (.stop [2]), [.close 2, .submit 2, .disconnectEvent 2, .disconnectEvent 2],
      [.stop [], .stop []]]

theorem paired_handoverTrace :
    ∃ s, Machine.run step {} handoverTrace = some s ∧ s.stop = .returned ∧ s.connects = [1, 2] ∧
      s.disconnects = [1, 2] ∧ Paired s :=
  ⟨_, rfl, rfl, rfl, rfl, (@paired_iff_handedOver _ handoverTrace rfl rfl).mpr (by decide)⟩

/-- The client goes, and `Stop` clears `mIsRunning` before the handler has loaded it. -/
def lostTrace : List Act :=
  List.flatten
    [arrive 1, [.submit 1, .close 1, .disconnectEvent 1], List.replicate 2 (.stop []),
      [.disconnectEvent 1, .erase 1], List.replicate 6 (.stop [])]

/-- Nobody has recorded that the client has gone. -/
theorem not_paired_lostTrace :
    ∃ s, Machine.run step {} lostTrace = some s ∧ s.stop = .returned ∧ s.connects = [1] ∧
      s.disconnects = [] ∧ ¬ Paired s :=
  ⟨_, rfl, rfl, rfl, rfl, by decide⟩

end NetworkModule.TestServer.Pairing
