import NetworkModule.DBServer.PingLatency
import NetworkModule.Lib.RunningSummary

/-!
# The statistics of both sides

The DB server and the test client keep the same statistics in different ways.  `RecordLatency`
has a branch for the first time of a server, and moves the average by a share of the difference.
`LatencyStats::Update` starts from the limits of the type, and weights the average with its count.
With exact averages and counts both have the summary of all times
(`latency_agree`).
-/

namespace NetworkModule.Latency

open RunningSummary

/-! ## The calls -/

/-- A call of `RecordLatency`. -/
structure RecordCall where
  serverId : UInt32
  serverName : String
  rttMs : UInt64
  timestamp : UInt64
  deriving DecidableEq, Repr

/-- One call after the other. -/
def ServerLatencyManager.recordAll (manager : ServerLatencyManager) (calls : List RecordCall) :
    ServerLatencyManager :=
  calls.foldl (fun manager call =>
    manager.recordLatency call.serverId call.serverName call.rttMs call.timestamp) manager

/-- The calls for a server. -/
def callsOf (serverId : UInt32) (calls : List RecordCall) : List RecordCall :=
  calls.filter fun call => call.serverId = serverId

/-- The round-trip times that are recorded for a server. -/
def rttsOf (serverId : UInt32) (calls : List RecordCall) : List UInt64 :=
  (callsOf serverId calls).map RecordCall.rttMs

/-- `LatencyStats::Reset`. -/
def LatencyStats.reset (stats : LatencyStats) : LatencyStats :=
  { stats with lastRtt := 0, minRtt := 2 ^ 64 - 1, maxRtt := 0, avgRtt := 0, pongCount := 0 }

/-- `Update` with one time after the other. -/
def LatencyStats.updateAll (stats : LatencyStats) (rtts : List UInt64) : LatencyStats :=
  rtts.foldl LatencyStats.update stats

/-! ## Summaries -/

/-- A round-trip time as a number. -/
def exactRtt (rtt : UInt64) : ℚ := rtt.toNat

/-- The least, the greatest and the last time, the arithmetic mean and the number of times. -/
def summaryOf (rtts : List UInt64) (h : rtts ≠ []) : Summary ℚ :=
  summarize (rtts.map exactRtt) (List.map_eq_nil_iff.not.mpr h)

def ServerLatencyInfo.summary (info : ServerLatencyInfo) : Summary ℚ where
  least := exactRtt info.minRttMs
  greatest := exactRtt info.maxRttMs
  last := exactRtt info.lastRttMs
  mean := info.avgRttMs
  count := info.pingCount

def LatencyStats.summary (stats : LatencyStats) : Summary ℚ where
  least := exactRtt stats.minRtt
  greatest := exactRtt stats.maxRtt
  last := exactRtt stats.lastRtt
  mean := stats.avgRtt
  count := stats.pongCount

/-- Both sides have the same numbers. -/
structure Agree (info : ServerLatencyInfo) (stats : LatencyStats) : Prop where
  least : info.minRttMs = stats.minRtt
  greatest : info.maxRttMs = stats.maxRtt
  last : info.lastRttMs = stats.lastRtt
  mean : info.avgRttMs = stats.avgRtt
  count : info.pingCount = stats.pongCount

theorem exactRtt_injective : Function.Injective exactRtt :=
  fun _ _ h => UInt64.toNat_inj.mp (Nat.cast_injective h)

theorem exactRtt_lt {a b : UInt64} : exactRtt a < exactRtt b ↔ a < b :=
  Nat.cast_lt.trans UInt64.lt_iff_toNat_lt.symm

theorem exactRtt_ite_lt_left (least rtt : UInt64) :
    exactRtt (if rtt < least then rtt else least) = min (exactRtt least) (exactRtt rtt) := by
  split
  next hlt => exact (min_eq_right (exactRtt_lt.mpr hlt).le).symm
  next hge => exact (min_eq_left (not_lt.mp (exactRtt_lt.not.mpr hge))).symm

theorem exactRtt_ite_lt_right (greatest rtt : UInt64) :
    exactRtt (if greatest < rtt then rtt else greatest) =
      max (exactRtt greatest) (exactRtt rtt) := by
  split
  next hlt => exact (max_eq_right (exactRtt_lt.mpr hlt).le).symm
  next hge => exact (max_eq_left (not_lt.mp (exactRtt_lt.not.mpr hge))).symm

theorem agree_of_summary_eq {info : ServerLatencyInfo} {stats : LatencyStats}
    (h : info.summary = stats.summary) : Agree info stats := by
  obtain ⟨hleast, hgreatest, hlast, hmean, hcount⟩ := Summary.mk.inj h
  exact ⟨exactRtt_injective hleast, exactRtt_injective hgreatest, exactRtt_injective hlast,
    hmean, hcount⟩

/-! ## One time -/

section
variable (serverId : UInt32) (serverName : String) (rtt timestamp : UInt64)

/-- The first time of a server. -/
theorem ServerLatencyInfo.summary_record_first {info : ServerLatencyInfo}
    (h : info.pingCount = 0) :
    (info.record serverId serverName rtt timestamp).summary = .single (exactRtt rtt) := by
  rw [ServerLatencyInfo.record, if_pos h]
  simp only [ServerLatencyInfo.summary, Summary.single, h, Nat.zero_add]
  rfl

theorem ServerLatencyInfo.summary_record {info : ServerLatencyInfo} (h : info.pingCount ≠ 0) :
    (info.record serverId serverName rtt timestamp).summary = info.summary.add (exactRtt rtt) := by
  rw [ServerLatencyInfo.record, if_neg h]
  simp only [ServerLatencyInfo.summary, Summary.add, exactRtt_ite_lt_left, exactRtt_ite_lt_right]
  rfl

/-- The limits of the type give way to the first time. -/
theorem LatencyStats.summary_update_first {stats : LatencyStats} (hmin : stats.minRtt = 2 ^ 64 - 1)
    (hmax : stats.maxRtt = 0) (hcount : stats.pongCount = 0) :
    (stats.update rtt).summary = .single (exactRtt rtt) := by
  have hleast : (stats.update rtt).minRtt = rtt := by
    simp only [LatencyStats.update]
    split
    · rfl
    next hlt =>
      rw [hmin] at hlt ⊢
      exact (eq_greatest_of_not_lt hlt).symm
  have hgreatest : (stats.update rtt).maxRtt = rtt := by
    simp only [LatencyStats.update]
    split
    · rfl
    next hlt =>
      rw [hmax] at hlt ⊢
      exact (eq_zero_of_not_pos hlt).symm
  have hmean : (stats.update rtt).avgRtt = exactRtt rtt := by
    simp [LatencyStats.update, hcount, exactRtt]
  have hone : (stats.update rtt).pongCount = 1 := congrArg (· + 1) hcount
  rw [LatencyStats.summary, hleast, hgreatest, hmean, hone]
  rfl

theorem LatencyStats.summary_update (stats : LatencyStats) :
    (stats.update rtt).summary = stats.summary.add (exactRtt rtt) := by
  simp only [LatencyStats.summary, LatencyStats.update, Summary.add, exactRtt_ite_lt_left,
    exactRtt_ite_lt_right, ← weighted_mean]
  rfl

end

/-! ## Any number of times -/

/-- The other servers do not matter. -/
theorem mLatencyMap_recordAll (calls : List RecordCall) (serverId : UInt32)
    {manager : ServerLatencyManager} (h : manager.mInitialized = true) :
    (manager.recordAll calls).mLatencyMap serverId =
      (callsOf serverId calls).foldl (fun info call =>
        info.record call.serverId call.serverName call.rttMs call.timestamp)
        (manager.mLatencyMap serverId) := by
  induction calls generalizing manager with
  | nil => rfl
  | cons call calls ih =>
      rw [ServerLatencyManager.recordAll, List.foldl_cons]
      refine (ih ?_).trans ?_
      · rw [ServerLatencyManager.recordLatency, if_pos h]
        exact h
      · rw [ServerLatencyManager.recordLatency, if_pos h, callsOf, callsOf, List.filter_cons]
        dsimp only
        rcases eq_or_ne call.serverId serverId with rfl | hne
        · rw [if_pos (decide_eq_true rfl), List.foldl_cons, Function.update_self]
        · rw [if_neg (by rw [decide_eq_true_eq]; exact hne), Function.update_of_ne hne.symm]

/-- The record of a server has the summary of its round-trip times. -/
theorem summary_recordAll (calls : List RecordCall) (serverId : UInt32)
    (h : rttsOf serverId calls ≠ []) :
    (({ mInitialized := true } : ServerLatencyManager).recordAll calls
      |>.mLatencyMap serverId).summary = summaryOf (rttsOf serverId calls) h := by
  have hmap : (rttsOf serverId calls).map exactRtt =
      (callsOf serverId calls).map fun call => exactRtt call.rttMs := List.map_map
  rw [mLatencyMap_recordAll calls serverId rfl]
  simp only [summaryOf, hmap]
  refine view_foldl (fun call => ?_) (fun info call hcount => ?_) _ _
  · exact ServerLatencyInfo.summary_record_first _ _ _ _ rfl
  · exact ServerLatencyInfo.summary_record _ _ _ _ hcount

/-- So have the statistics of the client after a `Reset`. -/
theorem summary_updateAll (stats : LatencyStats) (rtts : List UInt64) (h : rtts ≠ []) :
    (stats.reset.updateAll rtts).summary = summaryOf rtts h := by
  have hmin : stats.reset.minRtt = 2 ^ 64 - 1 := by rw [LatencyStats.reset]
  have hmax : stats.reset.maxRtt = 0 := by rw [LatencyStats.reset]
  have hcount : stats.reset.pongCount = 0 := by rw [LatencyStats.reset]
  generalize stats.reset = start at hmin hmax hcount ⊢
  refine view_foldl (fun rtt => ?_) (fun stats rtt _ => ?_) rtts _
  · exact LatencyStats.summary_update_first rtt hmin hmax hcount
  · exact LatencyStats.summary_update rtt stats

/-- Both sides have the least, the greatest and the last time, the arithmetic mean and the number
of the times that were recorded for a server. -/
theorem latency_agree (calls : List RecordCall) (serverId : UInt32) (stats : LatencyStats)
    (h : rttsOf serverId calls ≠ []) :
    (({ mInitialized := true } : ServerLatencyManager).recordAll calls
        |>.mLatencyMap serverId).summary = summaryOf (rttsOf serverId calls) h ∧
      (stats.reset.updateAll (rttsOf serverId calls)).summary =
        summaryOf (rttsOf serverId calls) h ∧
      Agree (({ mInitialized := true } : ServerLatencyManager).recordAll calls
        |>.mLatencyMap serverId) (stats.reset.updateAll (rttsOf serverId calls)) := by
  have hserver := summary_recordAll calls serverId h
  have hclient := summary_updateAll stats (rttsOf serverId calls) h
  exact ⟨hserver, hclient, agree_of_summary_eq (hserver.trans hclient.symm)⟩

/-- Times of 30, 10 and 20 for a server, and one for another server between them. -/
def twoServersCalls : List RecordCall :=
  [⟨1, "Server_1", 30, 0⟩, ⟨2, "Server_2", 5, 1⟩, ⟨1, "Server_1", 10, 2⟩, ⟨1, "Server_1", 20, 3⟩]

theorem latency_agree_twoServersCalls :
    rttsOf 1 twoServersCalls = [30, 10, 20] ∧
      (({ mInitialized := true } : ServerLatencyManager).recordAll twoServersCalls
        |>.mLatencyMap 1).summary = ⟨10, 30, 20, 20, 3⟩ ∧
      Agree (({ mInitialized := true } : ServerLatencyManager).recordAll twoServersCalls
        |>.mLatencyMap 1)
        (LatencyStats.updateAll (LatencyStats.reset {}) (rttsOf 1 twoServersCalls)) := by
  have hsummary : summaryOf (rttsOf 1 twoServersCalls) (by decide) = ⟨10, 30, 20, 20, 3⟩ := by
    decide +kernel
  obtain ⟨hserver, -, hagree⟩ := latency_agree twoServersCalls 1 {} (by decide)
  exact ⟨by decide, hserver.trans hsummary, hagree⟩

end NetworkModule.Latency
