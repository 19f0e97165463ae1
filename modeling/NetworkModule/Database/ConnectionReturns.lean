import NetworkModule.Database.ConnectionPool

/-!
# Connections that are returned anyhow

`ReturnConnection` takes any pointer from any caller.  It looks for the connection in the
pool, clears its `mInUse` and lowers `mActiveConnections`, and it does not look whether
`mInUse` was set.  Here the calls of it are free: a connection may come back twice, while it
is idle, or without being of the pool.  Only the last is harmless.

`accounted_iff` says when the counter is the number of the connections in use throughout a
run.  Where it is not, it has gone below that number, and from 0 to the largest `size_t`
(`wraps_of_idle`).  The wait of `Shutdown` for 0 then ends too early or not at all.
-/

namespace NetworkModule.Database.Pool

/-! ## The steps -/

/-- What happens next.  A null pointer is `none`. -/
inductive ReturnAct where
  | getConnection
  | returnConnection (pConnection : Option Nat) (now : Nat)
  /-- A call of `GetConnection` or of `Shutdown` goes on. -/
  | call (i : Nat) (answers : Answers)
  | shutdown
  | clear
  | cleanupIdleConnections (now : Nat)

/-- One step.  What `GetConnection` has lent comes back by `returnConnection` only. -/
def returnStep (config : DatabaseConfig) (s : PoolSystem) : ReturnAct → Option PoolSystem
  | .getConnection => step config s .getConnection
  | .returnConnection none _ => some s
  | .returnConnection (some pConnection) now =>
      some { s with pool := s.pool.returnConnection now pConnection }
  | .call i answers =>
      match s.calls.getD i .returned with
      | .lent _ => none
      | .returning _ => none
      | pc => callStep s i answers pc
  | .shutdown => step config s .shutdown
  | .clear => step config s .clear
  | .cleanupIdleConnections now => step config s (.cleanupIdleConnections now)

/-- The pool after `Initialize` has succeeded.  `now` is the time of each connection. -/
def opened (config : DatabaseConfig) (now : Nat → Nat) : PoolSystem where
  pool := ConnectionPool.initializePool config .database true config.mMinPoolSize now 0 {}
  fresh := config.mMinPoolSize

/-! ## The counter -/

/-- The counter counts the connections in use.  It is not larger than the pool, so it has not
wrapped, and `Shutdown` waits for the borrowers and nothing else. -/
structure Accounted (s : PoolSystem) : Prop where
  active_eq : s.pool.mActiveConnections = s.pool.inUse
  bounded : s.pool.mActiveConnections ≤ s.pool.mConnections.length
  drained : s.pool.mActiveConnections = 0 ↔ ∀ pooled ∈ s.pool.mConnections, pooled.mInUse = false

/-- The connection that `ReturnConnection` finds. -/
def ConnectionPool.found (pool : ConnectionPool) (pConnection : Nat) : Option PooledConnection :=
  pool.mConnections.find? fun pooled => pooled.mConnection = pConnection

/-- A connection of the pool that is returned is in use. -/
def ReturnsInUse (s : PoolSystem) : ReturnAct → Prop
  | .returnConnection (some pConnection) _ =>
      ∀ pooled ∈ s.pool.found pConnection, pooled.mInUse = true
  | _ => True

instance (s : PoolSystem) : (a : ReturnAct) → Decidable (ReturnsInUse s a)
  | .returnConnection (some pConnection) _ =>
      inferInstanceAs (Decidable (∀ pooled ∈ s.pool.found pConnection, pooled.mInUse = true))
  | .returnConnection none _ => isTrue trivial
  | .getConnection => isTrue trivial
  | .call _ _ => isTrue trivial
  | .shutdown => isTrue trivial
  | .clear => isTrue trivial
  | .cleanupIdleConnections _ => isTrue trivial

section
variable {config : DatabaseConfig} {s s' : PoolSystem} {a : ReturnAct} {pool : ConnectionPool}
  {pConnection now : Nat} {pooled : PooledConnection}

theorem accounted_of_active (h : s.pool.mActiveConnections = s.pool.inUse) : Accounted s where
  active_eq := h
  bounded := by
    rw [h]
    exact List.countP_le_length
  drained := by
    rw [h, ConnectionPool.inUse, List.countP_eq_zero]
    simp only [Bool.not_eq_true]

/-- `ReturnConnection` of a connection of the pool. -/
theorem ConnectionPool.returnConnection_of_found (now : Nat)
    (hfound : pool.found pConnection = some pooled) :
    ∃ before after, pool.mConnections = before ++ pooled :: after ∧
      pool.returnConnection now pConnection = { pool with
        mConnections := before ++ { pooled with mInUse := false, mLastUsed := now } :: after
        mActiveConnections :=
          if pool.mActiveConnections = 0 then 2 ^ 64 - 1 else pool.mActiveConnections - 1 } := by
  rw [found, ← map_updateFirst _ fun pooled => { pooled with mInUse := false, mLastUsed := now }]
    at hfound
  obtain ⟨⟨first, mConnections⟩, hupdate, rfl⟩ := Option.map_eq_some_iff.mp hfound
  obtain ⟨before, after, hconns, rfl, -⟩ := updateFirst_eq_some hupdate
  refine ⟨before, after, hconns, ?_⟩
  rw [returnConnection, hupdate]

/-- `ReturnConnection` of another connection does nothing. -/
theorem ConnectionPool.returnConnection_foreign (hfound : pool.found pConnection = none) :
    pool.returnConnection now pConnection = pool := by
  rw [found, ← map_updateFirst _ fun pooled => { pooled with mInUse := false, mLastUsed := now }]
    at hfound
  rw [returnConnection, Option.map_eq_none_iff.mp hfound]

/-- A connection that is returned while everything is idle makes the counter wrap. -/
theorem ConnectionPool.wraps_of_idle (hactive : pool.mActiveConnections = 0)
    (hfound : pool.found pConnection = some pooled) :
    (pool.returnConnection now pConnection).mActiveConnections = 2 ^ 64 - 1 := by
  obtain ⟨before, after, -, heq⟩ := returnConnection_of_found now hfound
  rw [heq, hactive]
  rfl

/-- A step of `GetConnection` or of `Shutdown`. -/
theorem active_of_callStep {i : Nat} {answers : Answers} {pc : CallPc}
    (h : s.pool.mActiveConnections = s.pool.inUse) (hpc : ∀ c, pc.holds c = false)
    (hs : callStep s i answers pc = some s') : s'.pool.mActiveConnections = s'.pool.inUse := by
  have hwait : (s.wait i answers).pool.mActiveConnections = (s.wait i answers).pool.inUse := by
    unfold PoolSystem.wait
    split
    · split
      next hget => exact ConnectionPool.active_getConnection h hget
      · exact h
    · split <;> exact h
  cases pc with
  | get =>
      cases hs
      split
      · exact hwait
      · exact h
  | waiting =>
      cases hs
      exact hwait
  | lent c => simpa [CallPc.holds] using hpc c
  | returning c => simpa [CallPc.holds] using hpc c
  | shutdown =>
      rw [callStep] at hs
      split at hs <;> · cases hs; exact h
  | shutdownLock =>
      cases hs
      exact ConnectionPool.active_shutdown h
  | returned => cases hs

/-- A step that meets the condition keeps the account. -/
theorem Accounted.step (h : Accounted s) (hok : ReturnsInUse s a)
    (hs : returnStep config s a = some s') : Accounted s' := by
  refine accounted_of_active ?_
  cases a with
  | getConnection | shutdown =>
      cases hs
      exact h.active_eq
  | returnConnection pConnection now =>
      cases pConnection with
      | none =>
          cases hs
          exact h.active_eq
      | some pConnection =>
          cases hs
          cases hfound : s.pool.found pConnection with
          | none =>
              rw [ConnectionPool.returnConnection_foreign hfound]
              exact h.active_eq
          | some pooled =>
              obtain ⟨before, after, hconns, heq⟩ :=
                ConnectionPool.returnConnection_of_found now hfound
              exact ConnectionPool.active_returnConnection h.active_eq hconns
                (hok pooled hfound) heq
  | call i answers =>
      simp only [returnStep] at hs
      split at hs
      · cases hs
      · cases hs
      next hlent hreturning =>
        refine active_of_callStep h.active_eq (fun c => ?_) hs
        cases hpc : s.calls.getD i .returned with
        | lent c => exact absurd hpc (hlent c)
        | returning c => exact absurd hpc (hreturning c)
        | _ => rfl
  | clear =>
      cases hs
      exact ConnectionPool.active_clear h.active_eq
  | cleanupIdleConnections now =>
      cases hs
      exact ConnectionPool.active_cleanup h.active_eq now

/-- A connection that is returned while it is idle breaks it. -/
theorem Accounted.not_step (h : Accounted s) (hno : ¬ ReturnsInUse s a)
    (hs : returnStep config s a = some s') : ¬ Accounted s' := by
  cases a with
  | returnConnection pConnection now =>
      cases pConnection with
      | none => exact absurd trivial hno
      | some pConnection =>
          simp only [ReturnsInUse, not_forall, Bool.not_eq_true] at hno
          obtain ⟨pooled, hfound, hidle⟩ := hno
          obtain ⟨before, after, hconns, heq⟩ :=
            ConnectionPool.returnConnection_of_found now hfound
          cases hs
          intro h'
          -- The counter goes down, and the number in use does not.
          have hactive := h.active_eq
          have hactive' := h'.active_eq
          rw [ConnectionPool.inUse, hconns, countP_middle, hidle] at hactive
          rw [heq, ConnectionPool.inUse, countP_middle] at hactive'
          dsimp only at hactive'
          rw [← hactive] at hactive'
          split at hactive' <;> omega
  | getConnection | call i answers | shutdown | clear | cleanupIdleConnections now =>
      exact absurd trivial hno

theorem accounted_opened (config : DatabaseConfig) (now : Nat → Nat) :
    Accounted (opened config now) := by
  refine accounted_of_active ?_
  have hidle : (opened config now).pool.inUse = 0 := by
    simp [opened, ConnectionPool.initializePool, ConnectionPool.inUse, List.countP_map]
  have hzero : (opened config now).pool.mActiveConnections = 0 := by
    simp [opened, ConnectionPool.initializePool]
  rw [hidle, hzero]

end

/-! ## Whole runs -/

/-- The counter is right throughout a run, whoever returns what, exactly if every connection
of the pool is in use when it is returned. -/
theorem accounted_iff (config : DatabaseConfig) (now : Nat → Nat) (as : List ReturnAct)
    (s : PoolSystem)
    (hrun : Machine.run (returnStep config) (opened config now) as = some s) :
    Machine.Always (returnStep config) Accounted (opened config now) as ↔
      Machine.Meets (returnStep config) ReturnsInUse (opened config now) as :=
  Machine.always_iff_meets_of_holds (I := fun _ => True) (fun _ _ _ _ _ => trivial)
    (fun _ _ _ _ h hok hs => h.step hok hs) (fun _ _ _ _ h hno hs => h.not_step hno hs) trivial
    (accounted_opened config now) hrun

/-- Two connections are lent, and one of them is returned. -/
def returnTrace : List ReturnAct :=
  [.getConnection, .call 0 {}, .getConnection, .call 1 {}, .returnConnection (some 0) 1]

/-- A null pointer and a connection of another pool are returned too. -/
def foreignTrace : List ReturnAct :=
  List.append returnTrace [.returnConnection none 1, .returnConnection (some 7) 1]

theorem accounted_iff_foreign : ∃ s,
    Machine.run (returnStep ⟨2, 2⟩) (opened ⟨2, 2⟩ fun _ => 0) foreignTrace = some s ∧
      s.pool.mActiveConnections = 1 ∧
      Machine.Always (returnStep ⟨2, 2⟩) Accounted (opened ⟨2, 2⟩ fun _ => 0) foreignTrace :=
  ⟨_, rfl, rfl, (accounted_iff ⟨2, 2⟩ (fun _ => 0) foreignTrace _ rfl).mpr (by decide)⟩

/-- The same connection is returned again, and `Shutdown` is called. -/
def doubleReturnTrace : List ReturnAct :=
  List.append returnTrace [.returnConnection (some 0) 1, .shutdown, .call 2 {}]

/-- `Shutdown` finds nothing to wait for, while the other connection is still lent. -/
theorem not_accounted_double_return : ∃ s,
    Machine.run (returnStep ⟨2, 2⟩) (opened ⟨2, 2⟩ fun _ => 0) doubleReturnTrace = some s ∧
      s.calls = [.lent 0, .lent 1, .shutdownLock] ∧ s.pool.mActiveConnections = 0 ∧
      s.pool.inUse = 1 ∧ ¬ Accounted s :=
  ⟨_, rfl, rfl, rfl, rfl, fun h => absurd h.active_eq (by decide)⟩

end NetworkModule.Database.Pool
