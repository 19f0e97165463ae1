import NetworkModule.Lib.Machine

/-!
# Round-trip times

`HandleServerPingRequest` of the DB server subtracts the timestamp of the packet from its
own clock, answers, and gives the difference to the `OrderedTaskQueue`, where a task calls
`RecordLatency` with it.  `HandlePongResponse` of the test client does the same subtraction
and calls `LatencyStats::Update`.  All of these are 64-bit numbers without sign, and the
timestamp comes from the peer.

The client skips a packet whose timestamp is ahead of its clock.  The server does not look,
and its difference wraps to a number near `2 ^ 64`.  `exact_iff_notAhead` says that this is the
only way for a round-trip time to be wrong.  The least, the greatest and the last time in the
statistics are times that were measured (`kept_of_run`), so one that has wrapped stays there.
-/

namespace NetworkModule.Latency

/-! ## The statistics -/

/-- `ServerLatencyInfo`, with an exact average. -/
structure ServerLatencyInfo where
  serverId : UInt32 := 0
  serverName : String := ""
  lastRttMs : UInt64 := 0
  avgRttMs : ℚ := 0
  minRttMs : UInt64 := 2 ^ 64 - 1
  maxRttMs : UInt64 := 0
  pingCount : Nat := 0
  lastMeasuredTime : UInt64 := 0

/-- `RecordLatency` with the record of the server. -/
def ServerLatencyInfo.record (info : ServerLatencyInfo) (serverId : UInt32) (serverName : String)
    (rttMs timestamp : UInt64) : ServerLatencyInfo :=
  let info :=
    if info.pingCount = 0 then
      { info with
        serverId, serverName
        minRttMs := rttMs
        maxRttMs := rttMs
        avgRttMs := rttMs.toNat }
    else
      { info with
        -- `std::min` and `std::max`.
        minRttMs := if rttMs < info.minRttMs then rttMs else info.minRttMs
        maxRttMs := if info.maxRttMs < rttMs then rttMs else info.maxRttMs
        avgRttMs := info.avgRttMs + (rttMs.toNat - info.avgRttMs) / (info.pingCount + 1 : Nat) }
  { info with
    lastRttMs := rttMs
    pingCount := info.pingCount + 1
    lastMeasuredTime := timestamp }

/-- `ServerLatencyManager`.  `mLatencyMap[serverId]` makes a record that is not there. -/
structure ServerLatencyManager where
  mInitialized : Bool := false
  mLatencyMap : UInt32 → ServerLatencyInfo := fun _ => {}

/-- `ServerLatencyManager::RecordLatency`. -/
def ServerLatencyManager.recordLatency (manager : ServerLatencyManager) (serverId : UInt32)
    (serverName : String) (rttMs timestamp : UInt64) : ServerLatencyManager :=
  if manager.mInitialized then
    { manager with
      mLatencyMap := Function.update manager.mLatencyMap serverId
        ((manager.mLatencyMap serverId).record serverId serverName rttMs timestamp) }
  else manager

/-- `LatencyStats` of the client, with an exact average. -/
structure LatencyStats where
  lastRtt : UInt64 := 0
  minRtt : UInt64 := 2 ^ 64 - 1
  maxRtt : UInt64 := 0
  avgRtt : ℚ := 0
  pongCount : Nat := 0

/-- `LatencyStats::Update`. -/
def LatencyStats.update (stats : LatencyStats) (rtt : UInt64) : LatencyStats where
  lastRtt := rtt
  minRtt := if rtt < stats.minRtt then rtt else stats.minRtt
  maxRtt := if stats.maxRtt < rtt then rtt else stats.maxRtt
  avgRtt := (stats.avgRtt * stats.pongCount + rtt.toNat) / (stats.pongCount + 1 : Nat)
  pongCount := stats.pongCount + 1

/-! ## The handlers -/

/-- `PKT_ServerPingReq`. -/
structure ServerPingReq where
  timestamp : UInt64
  sequence : UInt32
  deriving DecidableEq, Repr

/-- `PKT_ServerPongRes`. -/
structure ServerPongRes where
  sequence : UInt32
  requestTimestamp : UInt64
  responseTimestamp : UInt64
  deriving DecidableEq, Repr

/-- `PKT_PongRes`, as far as `HandlePongResponse` uses it. -/
structure PongRes where
  clientTime : UInt64
  deriving DecidableEq, Repr

/-- The task for the queue, and the packet that it is about. -/
structure LatencyTask where
  capturedServerId : UInt32
  capturedRtt : UInt64
  capturedTime : UInt64
  packet : ServerPingReq
  deriving DecidableEq, Repr

/-- A call of `RecordLatency` or of `Update`: its round-trip time, the timestamp of the packet
and the time when it was received. -/
structure Measurement where
  rtt : UInt64
  timestamp : UInt64
  receiveTime : UInt64
  deriving DecidableEq, Repr

/-- The DB server, a client, and the history of the round-trip times. -/
structure Pings where
  /-- The pointers of the `ServerPacketHandler` are set. -/
  mLatencyManager : Bool := false
  mOrderedTaskQueue : Bool := false
  manager : ServerLatencyManager := {}
  /-- The tasks in the queue. -/
  tasks : List LatencyTask := []
  pongs : List ServerPongRes := []
  mStats : LatencyStats := {}
  measured : List Measurement := []

/-- `"Server_" + std::to_string(serverId)`. -/
def serverName (serverId : UInt32) : String := "Server_" ++ toString serverId.toNat

/-- A call of `RecordLatency`. -/
def Pings.recordLatency (s : Pings) (serverId : UInt32) (rttMs receiveTime : UInt64)
    (packet : ServerPingReq) : Pings :=
  { s with
    manager := s.manager.recordLatency serverId (serverName serverId) rttMs receiveTime
    measured := s.measured ++ [⟨rttMs, packet.timestamp, receiveTime⟩] }

/-- `ServerPacketHandler::HandleServerPingRequest`.  `queued` says whether the queue accepts
the task. -/
def Pings.handleServerPingRequest (s : Pings) (sessionId receiveTime : UInt64)
    (packet : ServerPingReq) (queued : Bool) : Pings :=
  let rttMs := receiveTime - packet.timestamp
  let s := { s with pongs := s.pongs ++ [⟨packet.sequence, packet.timestamp, receiveTime⟩] }
  let serverId := sessionId.toUInt32
  if s.mOrderedTaskQueue && s.mLatencyManager then
    if queued then { s with tasks := s.tasks ++ [⟨serverId, rttMs, receiveTime, packet⟩] } else s
  else if s.mLatencyManager then s.recordLatency serverId rttMs receiveTime packet
  else s

/-- `TestClient::HandlePongResponse`. -/
def Pings.handlePongResponse (s : Pings) (now : UInt64) (packet : PongRes) : Pings :=
  if now < packet.clientTime then s
  else
    let rtt := now - packet.clientTime
    { s with
      mStats := s.mStats.update rtt
      measured := s.measured ++ [⟨rtt, packet.clientTime, now⟩] }

/-- What happens. -/
inductive PingAct where
  /-- `ServerPacketHandler::Initialize`. -/
  | setHandler (latencyManager orderedTaskQueue : Bool)
  /-- The manager is initialized or shut down. -/
  | setManager (initialized : Bool)
  | serverPing (sessionId receiveTime : UInt64) (packet : ServerPingReq) (queued : Bool)
  /-- The task `i` is run. -/
  | task (i : Nat)
  /-- The queue is destroyed with its tasks. -/
  | clearTasks
  | pong (now : UInt64) (packet : PongRes)
  deriving DecidableEq, Repr

/-- One step. -/
def pingStep (s : Pings) : PingAct → Option Pings
  | .setHandler latencyManager orderedTaskQueue =>
      some { s with mLatencyManager := latencyManager, mOrderedTaskQueue := orderedTaskQueue }
  | .setManager initialized => some { s with manager.mInitialized := initialized }
  | .serverPing sessionId receiveTime packet queued =>
      some (s.handleServerPingRequest sessionId receiveTime packet queued)
  | .task i =>
      match s.tasks[i]? with
      | none => none
      | some t =>
          let s := { s with tasks := s.tasks.eraseIdx i }
          if s.manager.mInitialized then
            some (s.recordLatency t.capturedServerId t.capturedRtt t.capturedTime t.packet)
          else some s
  | .clearTasks => some { s with tasks := [] }
  | .pong now packet => some (s.handlePongResponse now packet)

/-! ## Exact times -/

/-- The round-trip time is the difference as an integer. -/
def Measurement.Exact (m : Measurement) : Prop :=
  (m.rtt.toNat : ℤ) = m.receiveTime.toNat - m.timestamp.toNat

instance (m : Measurement) : Decidable m.Exact := by
  unfold Measurement.Exact
  infer_instance

/-- Every round-trip time that was recorded is right. -/
def Exact (s : Pings) : Prop := ∀ m ∈ s.measured, m.Exact

/-- The server does not call `RecordLatency` for a packet with a timestamp ahead of the time
when it was received. -/
def NotAhead (s : Pings) : PingAct → Prop
  | .serverPing _ receiveTime packet _ =>
      s.mLatencyManager = true → s.mOrderedTaskQueue = false → packet.timestamp ≤ receiveTime
  | .task i =>
      s.manager.mInitialized = true → ∀ t ∈ s.tasks[i]?, t.packet.timestamp ≤ t.capturedTime
  | _ => True

instance (s : Pings) (a : PingAct) : Decidable (NotAhead s a) := by
  unfold NotAhead
  split <;> infer_instance

/-- What holds in every run: the differences are those of 64-bit numbers. -/
structure PingInv (s : Pings) : Prop where
  tasks : ∀ t ∈ s.tasks, t.capturedRtt = t.capturedTime - t.packet.timestamp
  measured : ∀ m ∈ s.measured, m.rtt = m.receiveTime - m.timestamp

theorem pingInv_init : PingInv {} where
  tasks := by simp
  measured := by simp

/-- The difference is exact when the timestamp is not ahead. -/
theorem Measurement.exact_iff {m : Measurement} (hrtt : m.rtt = m.receiveTime - m.timestamp) :
    m.Exact ↔ m.timestamp ≤ m.receiveTime := by
  have hreceived := m.receiveTime.toNat_lt
  have htimestamp := m.timestamp.toNat_lt
  rw [Measurement.Exact, hrtt, UInt64.toNat_sub, UInt64.le_iff_toNat_le]
  omega

/-- What a step does to the statistics and to the history. -/
inductive Effect (s : Pings) (a : PingAct) (s' : Pings) : Prop where
  /-- Nothing is recorded. -/
  | quiet (measured : s'.measured = s.measured)
      (map : s'.manager.mLatencyMap = s.manager.mLatencyMap) (stats : s'.mStats = s.mStats)
      (ok : NotAhead s a)
  | recorded (m : Measurement) (measured : s'.measured = s.measured ++ [m])
      (rtt : m.rtt = m.receiveTime - m.timestamp)
      (map : s'.manager.mLatencyMap = s.manager.mLatencyMap ∨ ∃ serverId serverName,
        s'.manager.mLatencyMap = Function.update s.manager.mLatencyMap serverId
          ((s.manager.mLatencyMap serverId).record serverId serverName m.rtt m.receiveTime))
      (stats : s'.mStats = s.mStats ∨ s'.mStats = s.mStats.update m.rtt)
      (ok : NotAhead s a ↔ m.timestamp ≤ m.receiveTime)

/-- The least, the greatest and the last time of some statistics were measured. -/
structure Among (rtts : List UInt64) (least greatest last : UInt64) : Prop where
  least : least ∈ rtts
  greatest : greatest ∈ rtts
  last : last ∈ rtts

/-- The statistics are about times that were measured, once there are any. -/
structure Kept (s : Pings) : Prop where
  server : ∀ serverId, 0 < (s.manager.mLatencyMap serverId).pingCount →
    Among (s.measured.map Measurement.rtt) (s.manager.mLatencyMap serverId).minRttMs
      (s.manager.mLatencyMap serverId).maxRttMs (s.manager.mLatencyMap serverId).lastRttMs
  client : 0 < s.mStats.pongCount →
    Among (s.measured.map Measurement.rtt) s.mStats.minRtt s.mStats.maxRtt s.mStats.lastRtt
  clientFirst : s.mStats.pongCount = 0 → s.mStats.minRtt = 2 ^ 64 - 1 ∧ s.mStats.maxRtt = 0

section
variable {s s' : Pings} {a : PingAct}

/-- A call of `RecordLatency` with the difference of the code. -/
theorem PingInv.recordLatency (h : PingInv s) {serverId : UInt32} {rttMs receiveTime : UInt64}
    {packet : ServerPingReq} (hrtt : rttMs = receiveTime - packet.timestamp) :
    PingInv (s.recordLatency serverId rttMs receiveTime packet) where
  tasks := h.tasks
  measured := List.forall_mem_append.mpr ⟨h.measured, List.forall_mem_singleton.mpr hrtt⟩

theorem map_recordLatency (manager : ServerLatencyManager) (serverId : UInt32)
    (serverName : String) (rttMs timestamp : UInt64) :
    (manager.recordLatency serverId serverName rttMs timestamp).mLatencyMap = manager.mLatencyMap ∨
      ∃ id name, (manager.recordLatency serverId serverName rttMs timestamp).mLatencyMap =
        Function.update manager.mLatencyMap id
          ((manager.mLatencyMap id).record id name rttMs timestamp) := by
  rw [ServerLatencyManager.recordLatency]
  split
  · exact Or.inr ⟨serverId, serverName, rfl⟩
  · exact Or.inl rfl

theorem PingInv.serverPing (h : PingInv s) (sessionId receiveTime : UInt64)
    (packet : ServerPingReq) (queued : Bool) :
    PingInv (s.handleServerPingRequest sessionId receiveTime packet queued) ∧
      Effect s (.serverPing sessionId receiveTime packet queued)
        (s.handleServerPingRequest sessionId receiveTime packet queued) := by
  unfold Pings.handleServerPingRequest
  dsimp only
  split
  next hboth =>
    obtain ⟨hqueue, -⟩ := Bool.and_eq_true_iff.mp hboth
    have hok : NotAhead s (.serverPing sessionId receiveTime packet queued) := by
      intro _ hnone
      rw [hqueue] at hnone
      cases hnone
    split
    · exact ⟨⟨List.forall_mem_append.mpr ⟨h.tasks, List.forall_mem_singleton.mpr rfl⟩, h.measured⟩,
        .quiet rfl rfl rfl hok⟩
    · exact ⟨⟨h.tasks, h.measured⟩, .quiet rfl rfl rfl hok⟩
  next hboth =>
    split
    next hmanager =>
      have hnone : s.mOrderedTaskQueue = false := by
        rw [hmanager, Bool.and_true] at hboth
        exact Bool.eq_false_iff.mpr hboth
      have h' : PingInv { s with
          pongs := s.pongs ++ [⟨packet.sequence, packet.timestamp, receiveTime⟩] } :=
        ⟨h.tasks, h.measured⟩
      refine ⟨h'.recordLatency rfl,
        .recorded _ rfl rfl (map_recordLatency s.manager _ _ _ _) (.inl rfl)
          ⟨fun hok => ?_, fun hle => ?_⟩⟩
      · exact hok hmanager hnone
      · exact fun _ _ => hle
    next hmanager =>
      exact ⟨⟨h.tasks, h.measured⟩, .quiet rfl rfl rfl fun htrue => absurd htrue hmanager⟩

theorem PingInv.task (h : PingInv s) {i : Nat} (hs : pingStep s (.task i) = some s') :
    PingInv s' ∧ Effect s (.task i) s' := by
  rw [pingStep] at hs
  split at hs
  · cases hs
  next t ht =>
    have hmem := List.mem_of_getElem? ht
    have h' : PingInv { s with tasks := s.tasks.eraseIdx i } :=
      ⟨fun t ht => h.tasks t (List.mem_of_mem_eraseIdx ht), h.measured⟩
    dsimp only at hs
    split at hs
    next hinit =>
      cases hs
      refine ⟨h'.recordLatency (h.tasks t hmem),
        .recorded _ rfl (h.tasks t hmem) (map_recordLatency s.manager _ _ _ _) (.inl rfl)
          ⟨fun hok => ?_, fun hle => ?_⟩⟩
      · exact hok hinit t ht
      · intro _ t' ht'
        rw [ht] at ht'
        cases ht'
        exact hle
    next hinit =>
      cases hs
      exact ⟨h', .quiet rfl rfl rfl fun htrue => absurd htrue hinit⟩

theorem PingInv.pong (h : PingInv s) (now : UInt64) (packet : PongRes) :
    PingInv (s.handlePongResponse now packet) ∧
      Effect s (.pong now packet) (s.handlePongResponse now packet) := by
  rw [Pings.handlePongResponse]
  split
  · exact ⟨h, .quiet rfl rfl rfl trivial⟩
  next hlt =>
    exact ⟨⟨h.tasks, List.forall_mem_append.mpr ⟨h.measured, List.forall_mem_singleton.mpr rfl⟩⟩,
      .recorded _ rfl rfl (.inl rfl) (.inr rfl)
        ⟨fun _ => UInt64.not_lt.mp hlt, fun _ => trivial⟩⟩

/-- Every step keeps the invariant, and records one time at most. -/
theorem PingInv.step (h : PingInv s) (hs : pingStep s a = some s') : PingInv s' ∧ Effect s a s' := by
  cases a with
  | setHandler latencyManager orderedTaskQueue =>
      cases hs
      exact ⟨⟨h.tasks, h.measured⟩, .quiet rfl rfl rfl trivial⟩
  | setManager initialized =>
      cases hs
      exact ⟨⟨h.tasks, h.measured⟩, .quiet rfl rfl rfl trivial⟩
  | clearTasks =>
      cases hs
      exact ⟨⟨fun t ht => absurd ht List.not_mem_nil, h.measured⟩, .quiet rfl rfl rfl trivial⟩
  | serverPing sessionId receiveTime packet queued =>
      cases hs
      exact h.serverPing sessionId receiveTime packet queued
  | task i => exact h.task hs
  | pong now packet =>
      cases hs
      exact h.pong now packet

theorem kept_init : Kept {} where
  server := fun _ hpos => absurd hpos (Nat.lt_irrefl 0)
  client := fun hpos => absurd hpos (Nat.lt_irrefl 0)
  clientFirst := fun _ => ⟨rfl, rfl⟩

theorem Among.mono {rtts rtts' : List UInt64} {least greatest last : UInt64} (hsub : rtts ⊆ rtts')
    (h : Among rtts least greatest last) : Among rtts' least greatest last :=
  ⟨hsub h.least, hsub h.greatest, hsub h.last⟩

/-- `RecordLatency` with a time that was measured. -/
theorem among_record {rtts : List UInt64} {info : ServerLatencyInfo} {rtt : UInt64}
    (h : 0 < info.pingCount → Among rtts info.minRttMs info.maxRttMs info.lastRttMs)
    (hmem : rtt ∈ rtts) (id : UInt32) (name : String) (time : UInt64) :
    Among rtts (info.record id name rtt time).minRttMs (info.record id name rtt time).maxRttMs
      (info.record id name rtt time).lastRttMs := by
  by_cases hzero : info.pingCount = 0
  · simp only [ServerLatencyInfo.record, if_pos hzero]
    exact ⟨hmem, hmem, hmem⟩
  · have hold := h (Nat.pos_of_ne_zero hzero)
    simp only [ServerLatencyInfo.record, if_neg hzero]
    refine ⟨?_, ?_, hmem⟩
    · split
      · exact hmem
      · exact hold.least
    · split
      · exact hmem
      · exact hold.greatest

/-- No time is above the limit of the type. -/
theorem eq_greatest_of_not_lt {rtt : UInt64} (h : ¬ rtt < 2 ^ 64 - 1) : rtt = 2 ^ 64 - 1 := by
  have hmax : (2 ^ 64 - 1 : UInt64).toNat = 2 ^ 64 - 1 := by decide +kernel
  have hrtt := rtt.toNat_lt
  rw [UInt64.lt_iff_toNat_lt, hmax] at h
  refine UInt64.toNat_inj.mp ?_
  rw [hmax]
  omega

theorem eq_zero_of_not_pos {rtt : UInt64} (h : ¬ 0 < rtt) : rtt = 0 :=
  UInt64.toNat_inj.mp (Nat.le_antisymm (UInt64.not_lt.mp h) (Nat.zero_le _))

/-- `Update` with a time that was measured.  The first one replaces the limits of the type. -/
theorem among_update {rtts : List UInt64} {stats : LatencyStats} {rtt : UInt64}
    (h : 0 < stats.pongCount → Among rtts stats.minRtt stats.maxRtt stats.lastRtt)
    (hfirst : stats.pongCount = 0 → stats.minRtt = 2 ^ 64 - 1 ∧ stats.maxRtt = 0)
    (hmem : rtt ∈ rtts) :
    Among rtts (stats.update rtt).minRtt (stats.update rtt).maxRtt (stats.update rtt).lastRtt := by
  refine ⟨?_, ?_, hmem⟩
  · simp only [LatencyStats.update]
    split
    · exact hmem
    next hlt =>
      rcases Nat.eq_zero_or_pos stats.pongCount with hzero | hpos
      · -- The time is the greatest of all, which is what `minRtt` is.
        rw [(hfirst hzero).1] at hlt ⊢
        rw [← eq_greatest_of_not_lt hlt]
        exact hmem
      · exact (h hpos).least
  · simp only [LatencyStats.update]
    split
    · exact hmem
    next hlt =>
      rcases Nat.eq_zero_or_pos stats.pongCount with hzero | hpos
      · rw [(hfirst hzero).2] at hlt ⊢
        rw [← eq_zero_of_not_pos hlt]
        exact hmem
      · exact (h hpos).greatest

/-- The statistics take over what a step records. -/
theorem Kept.step (h : Kept s) (hE : Effect s a s') : Kept s' := by
  cases hE with
  | quiet measured map stats ok =>
      refine ⟨fun serverId => ?_, ?_, ?_⟩
      · rw [map, measured]
        exact h.server serverId
      · rw [stats, measured]
        exact h.client
      · rw [stats]
        exact h.clientFirst
  | recorded m measured rtt map stats ok =>
      have hsub : s.measured.map Measurement.rtt ⊆ s'.measured.map Measurement.rtt := by
        rw [measured, List.map_append]
        exact List.subset_append_left _ _
      have hnew : m.rtt ∈ s'.measured.map Measurement.rtt := by
        rw [measured, List.map_append]
        exact List.mem_append_right _ (List.mem_singleton_self _)
      refine ⟨fun serverId hpos => ?_, fun hpos => ?_, fun hzero => ?_⟩
      · rcases map with map | ⟨id, name, map⟩
        · rw [map] at hpos ⊢
          exact (h.server serverId hpos).mono hsub
        · rw [map] at hpos ⊢
          by_cases hid : serverId = id
          · subst hid
            rw [Function.update_self]
            exact among_record (fun hold => (h.server serverId hold).mono hsub) hnew _ _ _
          · rw [Function.update_of_ne hid] at hpos ⊢
            exact (h.server serverId hpos).mono hsub
      · rcases stats with stats | stats
        · rw [stats] at hpos ⊢
          exact (h.client hpos).mono hsub
        · rw [stats]
          exact among_update (fun hold => (h.client hold).mono hsub) h.clientFirst hnew
      · rcases stats with stats | stats
        · rw [stats] at hzero ⊢
          exact h.clientFirst hzero
        · rw [stats] at hzero
          cases hzero

/-- A step that is not ahead keeps the times exact. -/
theorem Exact.step (hP : Exact s) (hE : Effect s a s') (hok : NotAhead s a) : Exact s' := by
  intro m hm
  cases hE with
  | quiet measured map stats ok =>
      rw [measured] at hm
      exact hP m hm
  | recorded m' measured rtt map stats ok =>
      rw [measured] at hm
      rcases List.mem_append.mp hm with hm | hm
      · exact hP m hm
      · rw [List.mem_singleton.mp hm]
        exact (Measurement.exact_iff rtt).mpr (ok.mp hok)

/-- Any other step records a time that is wrong. -/
theorem not_exact_of_step (hE : Effect s a s') (hno : ¬ NotAhead s a) : ¬ Exact s' := by
  intro hP
  cases hE with
  | quiet measured map stats ok => exact hno ok
  | recorded m measured rtt map stats ok =>
      have hm : m ∈ s'.measured := by
        rw [measured]
        exact List.mem_append_right _ (List.mem_singleton_self m)
      exact hno (ok.mpr ((Measurement.exact_iff rtt).mp (hP m hm)))

end

/-- The round-trip times are exact throughout a run exactly when the server never calls
`RecordLatency` for a packet from the future. -/
theorem exact_iff_notAhead (as : List PingAct) (s : Pings)
    (hrun : Machine.run pingStep {} as = some s) :
    Machine.Always pingStep Exact {} as ↔ Machine.Meets pingStep NotAhead {} as :=
  Machine.always_iff_meets (I := PingInv) (fun _ _ _ h hs => (h.step hs).1)
    (fun _ _ _ h hP hok hs => hP.step (h.step hs).2 hok)
    (fun _ _ _ h hno hs => not_exact_of_step (h.step hs).2 hno) pingInv_init
    (fun _ hm => absurd hm List.not_mem_nil) hrun

/-- What the statistics say was measured, in every run. -/
theorem kept_of_run {as : List PingAct} {s : Pings} (hrun : Machine.run pingStep {} as = some s) :
    Kept s := by
  refine (Machine.run_invariant (I := fun s => PingInv s ∧ Kept s) ?_
    ⟨pingInv_init, kept_init⟩ hrun).2
  rintro s a s' ⟨h, hkept⟩ hs
  exact ⟨(h.step hs).1, hkept.step (h.step hs).2⟩

/-- A ping of the past, and a pong of the future, which the client skips. -/
def pastPingTrace : List PingAct :=
  [.setHandler true true, .setManager true, .serverPing 7 1000 ⟨990, 1⟩ true, .task 0,
    .pong 500 ⟨600⟩, .pong 700 ⟨600⟩]

theorem exact_pastPingTrace : ∃ s, Machine.run pingStep {} pastPingTrace = some s ∧
    s.measured = [⟨10, 990, 1000⟩, ⟨100, 600, 700⟩] ∧
      Machine.Always pingStep Exact {} pastPingTrace := by
  have hview : (Machine.run pingStep {} pastPingTrace).map Pings.measured =
      some [⟨10, 990, 1000⟩, ⟨100, 600, 700⟩] := by decide +kernel
  obtain ⟨s, hrun, hmeasured⟩ := Option.map_eq_some_iff.mp hview
  exact ⟨s, hrun, hmeasured, (exact_iff_notAhead pastPingTrace s hrun).mpr (by decide +kernel)⟩

/-- The timestamp of the ping is one millisecond ahead. -/
def futurePingTrace : List PingAct :=
  [.setHandler true true, .setManager true, .serverPing 7 1000 ⟨1001, 1⟩ true, .task 0]

theorem not_exact_futurePingTrace : ∃ s, Machine.run pingStep {} futurePingTrace = some s ∧
    (s.manager.mLatencyMap 7).maxRttMs = 2 ^ 64 - 1 ∧ ¬ Exact s := by
  have hview : (Machine.run pingStep {} futurePingTrace).map
      (fun s => (s.measured, (s.manager.mLatencyMap 7).maxRttMs)) =
        some ([⟨2 ^ 64 - 1, 1001, 1000⟩], 2 ^ 64 - 1) := by decide +kernel
  obtain ⟨s, hrun, hs⟩ := Option.map_eq_some_iff.mp hview
  obtain ⟨hmeasured, hmax⟩ := Prod.mk.inj hs
  refine ⟨s, hrun, hmax, fun h => ?_⟩
  have hexact := h ⟨2 ^ 64 - 1, 1001, 1000⟩ (hmeasured ▸ List.mem_singleton_self _)
  exact absurd hexact (by decide)

end NetworkModule.Latency
