import NetworkModule.Lib.Machine
import NetworkModule.Types
import Mathlib

/-!
# The session-timeout sweep

`BaseNetworkEngine::Initialize` schedules a timer callback that closes the
sessions no ping has reached for `pingTimeoutMs` milliseconds.  The callback
reads the clock once, takes a snapshot of the sessions, and then visits them
one by one.  Ping handlers on other threads store new times meanwhile.  A
handler reads the clock first and stores what it read later
(`ClientPacketHandler::HandlePingRequest`), so the two are separate steps here.

The elapsed time is `now - lastPing` in `uint64_t`.  A session whose last-ping
time is later than `now` therefore looks as if it had been silent for almost
`2 ^ 64` milliseconds.  The clock is a parameter of the run: any label `tick`
may move it forward by any amount.
-/

namespace NetworkModule.TimeoutSweep

/-! ## Sessions and the sweep -/

/-- A session object, as far as the sweep reads it. -/
structure Session where
  /-- `mId`. -/
  mId : ConnectionId
  /-- Whether `mState` is `Connected`. -/
  connected : Bool
  /-- Whether the session is in `SessionManager::mSessions`. -/
  managed : Bool
  /-- `mLastPingTime`. -/
  mLastPingTime : Timestamp
  deriving DecidableEq, Repr

/-- A session the sweep decided to close, with what it knew and when. -/
structure Closed where
  /-- The session. -/
  id : ConnectionId
  /-- The time the sweep had captured. -/
  now : Timestamp
  /-- The last-ping time the sweep read. -/
  lastPing : Timestamp
  /-- The clock at the moment of that read. -/
  readAt : Timestamp
  deriving DecidableEq, Repr

/-- Where the timer callback stands. -/
inductive SweepPc where
  /-- Not running. -/
  | idle
  /-- About to read the clock. -/
  | capture
  /-- About to take the snapshot of the sessions. -/
  | snapshot (now : Timestamp)
  /-- At the head of the loop over the snapshot. -/
  | visit (now : Timestamp) (rest : List ConnectionId)
  /-- The session is connected.  About to read its last-ping time. -/
  | read (now : Timestamp) (id : ConnectionId) (rest : List ConnectionId)
  /-- The session timed out.  About to call `CloseConnection`. -/
  | close (now : Timestamp) (id : ConnectionId) (rest : List ConnectionId)
  deriving DecidableEq, Repr

/-- The engine, its clock, and the ping handlers that have read the clock and
not yet stored what they read. -/
structure State where
  /-- `Timer::GetCurrentTimestamp()` of this moment. -/
  clock : Timestamp
  /-- `mRunning`. -/
  mRunning : Bool
  /-- Every session object ever made, closed ones included. -/
  sessions : List Session
  /-- Ping handlers between the clock read and the store. -/
  pings : List (ConnectionId × Timestamp)
  /-- The sweep. -/
  pc : SweepPc
  /-- What the sweep closed, newest first. -/
  closed : List Closed
  deriving DecidableEq, Repr

/-- An engine that has not started, at a given time. -/
def init (clock : Timestamp) : State := ⟨clock, false, [], [], .idle, []⟩

/-- The test of the sweep on two readings: `lastPing != 0 && (now - lastPing) >
pingTimeoutMs`, with the subtraction in 64 bits. -/
def timedOut (pingTimeoutMs : UInt32) (now lastPing : Timestamp) : Bool :=
  lastPing ≠ 0 && decide (pingTimeoutMs.toUInt64 < now - lastPing)

/-- The session object with an identifier. -/
def State.find (s : State) (id : ConnectionId) : Option Session :=
  s.sessions.find? (·.mId = id)

/-- Change the session object with an identifier. -/
def State.modify (s : State) (id : ConnectionId) (f : Session → Session) : State :=
  { s with sessions := s.sessions.map fun x => if x.mId = id then f x else x }

/-- `CloseConnection`: the session is closed and leaves the manager. -/
def State.closeConnection (s : State) (id : ConnectionId) : State :=
  s.modify id fun x => { x with connected := false, managed := false }

/-- `SessionManager::GetAllSessions`. -/
def State.getAllSessions (s : State) : List ConnectionId :=
  (s.sessions.filter (·.managed)).map (·.mId)

/-! ## Steps -/

/-- Who moves. -/
inductive Act where
  /-- The clock moves forward to `t`. -/
  | tick (t : Timestamp)
  /-- `Start`. -/
  | start
  /-- `Stop` clears `mRunning`. -/
  | stop
  /-- `Session::Initialize` on a session with a new identifier. -/
  | create (id : ConnectionId)
  /-- `CreateSession` puts the session into the map. -/
  | register (id : ConnectionId)
  /-- A session is closed by another path. -/
  | disconnect (id : ConnectionId)
  /-- A ping handler reads the clock. -/
  | pingRead (id : ConnectionId)
  /-- The `k`-th waiting ping handler stores the time it read. -/
  | pingStore (k : Nat)
  /-- The timer fires, or the callback takes its next step. -/
  | sweep
  deriving DecidableEq, Repr

/-- One step of the timer callback. -/
def sweepStep (pingTimeoutMs : UInt32) (s : State) : State :=
  match s.pc with
  | .idle => if s.mRunning then { s with pc := .capture } else s
  | .capture => { s with pc := .snapshot s.clock }
  | .snapshot now => { s with pc := .visit now s.getAllSessions }
  | .visit _ [] => { s with pc := .idle }
  | .visit now (id :: rest) =>
      -- `!session || !session->IsConnected()` skips the session.
      match s.find id with
      | none => { s with pc := .visit now rest }
      | some x => { s with pc := if x.connected then .read now id rest else .visit now rest }
  | .read now id rest =>
      match s.find id with
      | none => { s with pc := .visit now rest }
      | some x =>
          if timedOut pingTimeoutMs now x.mLastPingTime then
            { s with pc := .close now id rest
                     closed := ⟨id, now, x.mLastPingTime, s.clock⟩ :: s.closed }
          else { s with pc := .visit now rest }
  | .close now id rest => { s.closeConnection id with pc := .visit now rest }

/-- One step of the engine. -/
def step (pingTimeoutMs : UInt32) (s : State) : Act → Option State
  | .tick t => if s.clock ≤ t then some { s with clock := t } else none
  | .start => some { s with mRunning := true }
  | .stop => some { s with mRunning := false }
  | .create id =>
      -- `Initialize` takes the connect time as the first last-ping time.
      if (s.find id).isSome then none
      else some { s with sessions := ⟨id, true, false, s.clock⟩ :: s.sessions }
  | .register id => some (s.modify id fun x => { x with managed := true })
  | .disconnect id => some (s.closeConnection id)
  | .pingRead id => some { s with pings := s.pings ++ [(id, s.clock)] }
  | .pingStore k =>
      match s.pings[k]? with
      | none => none
      | some (id, t) =>
          some { s.modify id (fun x => { x with mLastPingTime := t }) with
            pings := s.pings.eraseIdx k }
  | .sweep => some (sweepStep pingTimeoutMs s)

/-! ## What a close means -/

/-- At least `pingTimeoutMs` milliseconds lie between the last-ping time and the
moment the sweep read it. -/
def Closed.Elapsed (pingTimeoutMs : UInt32) (c : Closed) : Prop :=
  c.lastPing ≤ c.readAt ∧ pingTimeoutMs.toNat ≤ c.readAt.toNat - c.lastPing.toNat

instance (pingTimeoutMs : UInt32) (c : Closed) : Decidable (c.Elapsed pingTimeoutMs) :=
  inferInstanceAs (Decidable (_ ∧ _))

/-- Every session was closed after a real silence, and none of them because of a
ping newer than the time the sweep had captured. -/
def State.ClosesTimely (pingTimeoutMs : UInt32) (s : State) : Prop :=
  ∀ c ∈ s.closed, c.Elapsed pingTimeoutMs ∧ c.lastPing ≤ c.now

instance (pingTimeoutMs : UInt32) (s : State) : Decidable (s.ClosesTimely pingTimeoutMs) :=
  inferInstanceAs (Decidable (∀ c ∈ s.closed, _))

/-- The sweep may read a last-ping time only if it is not later than the time
the sweep captured. -/
def noNewerPing (s : State) (a : Act) : Bool :=
  match a, s.pc with
  | .sweep, .read now id _ => (s.find id).all (·.mLastPingTime ≤ now)
  | _, _ => true

/-! ## The captured time is in the past -/

/-- The time the sweep has captured, if it has. -/
def SweepPc.now? : SweepPc → Option Timestamp
  | .idle | .capture => none
  | .snapshot now | .visit now _ | .read now _ _ | .close now _ _ => some now

/-- The captured time is not later than the clock, and the closes so far were
timely. -/
structure Inv (pingTimeoutMs : UInt32) (s : State) : Prop where
  captured : ∀ now, s.pc.now? = some now → now ≤ s.clock
  timely : s.ClosesTimely pingTimeoutMs

/-- Without a wrap, a timed-out session was silent for the whole timeout. -/
theorem elapsed_of_timedOut {pingTimeoutMs : UInt32} {now lastPing readAt : Timestamp}
    (ht : timedOut pingTimeoutMs now lastPing = true) (hle : lastPing ≤ now)
    (hnow : now ≤ readAt) (id : ConnectionId) :
    (Closed.mk id now lastPing readAt).Elapsed pingTimeoutMs := by
  simp only [timedOut, Bool.and_eq_true, decide_eq_true_eq] at ht
  have hlt := UInt64.lt_iff_toNat_lt.mp ht.2
  rw [UInt64.toNat_sub_of_le _ _ hle, UInt32.toNat_toUInt64] at hlt
  have h1 := UInt64.le_iff_toNat_le.mp hle
  have h2 := UInt64.le_iff_toNat_le.mp hnow
  refine ⟨UInt64.le_iff_toNat_le.mpr ?_, ?_⟩
  · show lastPing.toNat ≤ readAt.toNat
    omega
  · show pingTimeoutMs.toNat ≤ readAt.toNat - lastPing.toNat
    omega

/-- What a step of the callback can do: it leaves the clock alone, a time it has
captured is the one it had or the clock, and it closes a session only from
`read`, on a session that timed out. -/
theorem sweepStep_cases (pingTimeoutMs : UInt32) (s : State) :
    (sweepStep pingTimeoutMs s).clock = s.clock ∧
      (∀ now, (sweepStep pingTimeoutMs s).pc.now? = some now →
        s.pc.now? = some now ∨ now = s.clock) ∧
      ((sweepStep pingTimeoutMs s).closed = s.closed ∨
        ∃ now id rest x, s.pc = .read now id rest ∧ s.find id = some x ∧
          timedOut pingTimeoutMs now x.mLastPingTime = true ∧
          (sweepStep pingTimeoutMs s).closed = ⟨id, now, x.mLastPingTime, s.clock⟩ :: s.closed) := by
  cases hpc : s.pc with
  | idle => cases hr : s.mRunning <;> simp [sweepStep, hpc, hr, SweepPc.now?]
  | capture =>
      refine ⟨by simp [sweepStep, hpc], ?_, by simp [sweepStep, hpc]⟩
      intro now hn
      simp only [sweepStep, hpc, SweepPc.now?, Option.some.injEq] at hn
      exact Or.inr hn.symm
  | snapshot now => simp [sweepStep, hpc, SweepPc.now?]
  | visit now rest =>
      cases rest with
      | nil => simp [sweepStep, hpc, SweepPc.now?]
      | cons id rest =>
          cases hf : s.find id with
          | none => simp [sweepStep, hpc, hf, SweepPc.now?]
          | some x => cases hx : x.connected <;> simp [sweepStep, hpc, hf, hx, SweepPc.now?]
  | read now id rest =>
      cases hf : s.find id with
      | none => simp [sweepStep, hpc, hf, SweepPc.now?]
      | some x =>
          cases ht : timedOut pingTimeoutMs now x.mLastPingTime <;>
            simp [sweepStep, hpc, hf, ht, SweepPc.now?]
  | close now id rest =>
      simp [sweepStep, hpc, State.closeConnection, State.modify, SweepPc.now?]

/-- One step of the callback keeps the invariant. -/
theorem sweepStep_inv {pingTimeoutMs : UInt32} {s : State} (hI : Inv pingTimeoutMs s)
    (hok : noNewerPing s .sweep) : Inv pingTimeoutMs (sweepStep pingTimeoutMs s) := by
  obtain ⟨hclock, hnow, hclosed⟩ := sweepStep_cases pingTimeoutMs s
  refine ⟨?_, ?_⟩
  · intro now hn
    rw [hclock]
    rcases hnow now hn with h | h
    · exact hI.captured now h
    · exact UInt64.le_of_eq h
  · rcases hclosed with heq | ⟨now, id, rest, x, hpc, hf, ht, heq⟩
    · intro c hc
      rw [heq] at hc
      exact hI.timely c hc
    · have hle : x.mLastPingTime ≤ now := by
        simpa [noNewerPing, hpc, hf] using hok
      intro c hc
      rw [heq] at hc
      cases List.mem_cons.mp hc with
      | inl he =>
          subst he
          have hcap := hI.captured now (by simp [hpc, SweepPc.now?])
          exact ⟨elapsed_of_timedOut ht hle hcap id, hle⟩
      | inr hc' => exact hI.timely c hc'

/-- Every allowed step of the engine keeps the invariant. -/
theorem step_inv {pingTimeoutMs : UInt32} {s s' : State} {a : Act} (hI : Inv pingTimeoutMs s)
    (hok : noNewerPing s a) (h : step pingTimeoutMs s a = some s') : Inv pingTimeoutMs s' := by
  obtain ⟨hcap, hcl⟩ := hI
  cases a with
  | tick t =>
      simp only [step] at h
      split at h
      next hle =>
        cases h
        exact ⟨fun now hn => UInt64.le_trans (hcap now hn) hle, hcl⟩
      next => cases h
  | start => cases h; exact ⟨hcap, hcl⟩
  | stop => cases h; exact ⟨hcap, hcl⟩
  | create id =>
      simp only [step] at h
      split at h
      next => cases h
      next => cases h; exact ⟨hcap, hcl⟩
  | register id => cases h; exact ⟨hcap, hcl⟩
  | disconnect id => cases h; exact ⟨hcap, hcl⟩
  | pingRead id => cases h; exact ⟨hcap, hcl⟩
  | pingStore k =>
      simp only [step] at h
      split at h
      next => cases h
      next => cases h; exact ⟨hcap, hcl⟩
  | sweep =>
      cases h
      exact sweepStep_inv ⟨hcap, hcl⟩ hok

/-- In every run in which the sweep never reads a last-ping time later than the
time it captured, it closes only sessions that were silent for at least
`pingTimeoutMs` milliseconds. -/
theorem closesTimely_of_noNewerPing (pingTimeoutMs : UInt32) (clock : Timestamp) (as : List Act)
    (s : State)
    (hok : Machine.Meets (step pingTimeoutMs) (fun s a => noNewerPing s a) (init clock) as)
    (hrun : Machine.run (step pingTimeoutMs) (init clock) as = some s) :
    s.ClosesTimely pingTimeoutMs := by
  have h0 : Inv pingTimeoutMs (init clock) :=
    ⟨by simp [init, SweepPc.now?], by simp [init, State.ClosesTimely]⟩
  exact (Machine.run_invariant_of_meets (fun _ _ _ hI hok h => step_inv hI hok h)
    h0 hok hrun).timely

/-- One session is silent for 6000 ms, another pings in time, and one sweep visits
both. -/
def silentTrace : List Act :=
  [.start, .create 7, .register 7, .create 8, .register 8, .tick 7000, .pingRead 8, .pingStore 0,
    .sweep, .sweep, .sweep, .sweep, .sweep, .sweep, .sweep, .sweep]

/-- Only the silent session is closed. -/
theorem closesTimely_silentTrace :
    ∃ s, Machine.run (step 5000) (init 1000) silentTrace = some s ∧
      s.closed = [⟨7, 7000, 1000, 7000⟩] ∧ s.ClosesTimely 5000 :=
  ⟨_, rfl, by decide, closesTimely_of_noNewerPing 5000 1000 silentTrace _ (by decide) rfl⟩

/-- The sweep captures 1000, the clock moves to 1001, and a ping stores 1001
before the sweep reads it. -/
def newerPingTrace : List Act :=
  [.start, .create 7, .register 7, .sweep, .sweep, .tick 1001, .pingRead 7, .pingStore 0,
    .sweep, .sweep, .sweep]

/-- The sweep closes the session that has just pinged: `1000 - 1001` is
`2 ^ 64 - 1`. -/
theorem newerPing_closes_session :
    ∃ s, Machine.run (step 5000) (init 1000) newerPingTrace = some s ∧
      s.closed = [⟨7, 1000, 1001, 1001⟩] ∧ ¬ (Closed.mk 7 1000 1001 1001).Elapsed 5000 ∧
      ¬ s.ClosesTimely 5000 :=
  ⟨_, rfl, by decide, by decide, by decide⟩

end NetworkModule.TimeoutSweep
