import NetworkModule.Lib.Machine
import NetworkModule.Lib.Tally

/-!
# ConnectionPool

`ConnectionPool` (`ServerEngine/Database/ConnectionPool.cpp`) lends connections.  Any number
of threads call it.  Everything it does under `mMutex` is one step, and the mutex is free
between two steps.  A connection may go down at any time: each evaluation of `IsOpen` has its
own answer, which is a part of the label of the step.

A call of `GetConnection` that returns a connection stays on the list of calls as the loan of
it, and the borrower may then call `ReturnConnection`.  So each loan is returned at most once.

`Initialize` leaves `mDatabase` connected when it cannot open a connection, and
`GetConnection` does not read `mInitialized` again after its wait.  A call that wakes then
opens a connection for a pool that is not initialized, and the next `Initialize` either adds
its own connections to it or drops it from the list without counting it out.
`exclusive_iff_meets` says exactly when the pool is right all the time: there is room for the
new connections whenever `Initialize` succeeds, and nothing is lent whenever it fails.
-/

namespace NetworkModule.Database.Pool

/-! ## Updating the first element that is found -/

/-- A loop that changes the first element with `p` and leaves.  It gives the element as it was. -/
def updateFirst {α : Type} (p : α → Bool) (f : α → α) : List α → Option (α × List α)
  | [] => none
  | a :: l => if p a then some (a, f a :: l) else (updateFirst p f l).map fun r => (r.1, a :: r.2)

theorem updateFirst_eq_some {α : Type} {p : α → Bool} {f : α → α} {l l' : List α} {a : α}
    (h : updateFirst p f l = some (a, l')) :
    ∃ before after, l = before ++ a :: after ∧ l' = before ++ f a :: after ∧ p a = true := by
  induction l generalizing l' with
  | nil => cases h
  | cons b l ih =>
      rw [updateFirst] at h
      split at h
      · next hb =>
          cases h
          exact ⟨[], l, rfl, rfl, hb⟩
      · obtain ⟨r, hr, heq⟩ := Option.map_eq_some_iff.mp h
        cases heq
        obtain ⟨before, after, hl, hl', ha⟩ := ih hr
        exact ⟨b :: before, after, by rw [hl]; rfl, by rw [hl']; rfl, ha⟩

theorem updateFirst_eq_none {α : Type} {p : α → Bool} {f : α → α} {l : List α}
    (h : updateFirst p f l = none) : ∀ a ∈ l, p a = false := by
  induction l with
  | nil => simp
  | cons b l ih =>
      rw [updateFirst] at h
      split at h
      · cases h
      · next hb =>
          exact List.forall_mem_cons.mpr ⟨Bool.eq_false_of_not_eq_true hb,
            ih (Option.map_eq_none_iff.mp h)⟩

theorem map_updateFirst {α : Type} (p : α → Bool) (f : α → α) (l : List α) :
    (updateFirst p f l).map Prod.fst = l.find? p := by
  induction l with
  | nil => rfl
  | cons a l ih =>
      rw [updateFirst, List.find?_cons]
      cases p a with
      | true => rfl
      | false =>
          rw [← ih]
          simp [Function.comp_def]

/-! ## The pool -/

/-- `PooledConnection`.  A connection is known by a number. -/
structure PooledConnection where
  mConnection : Nat
  mLastUsed : Nat
  mInUse : Bool := false
  deriving DecidableEq, Repr

structure DatabaseConfig where
  mMaxPoolSize : Nat
  mMinPoolSize : Nat
  deriving DecidableEq, Repr

structure ConnectionPool where
  mInitialized : Bool := false
  /-- The database and `IsConnected()` of it, or the null pointer. -/
  mDatabase : Option Bool := none
  mConnections : List PooledConnection := []
  mActiveConnections : Nat := 0
  mMaxPoolSize : Nat := 10
  mMinPoolSize : Nat := 2
  /-- In seconds. -/
  mIdleTimeout : Nat := 300
  deriving DecidableEq, Repr

/-- What `DatabaseFactory::CreateDatabase` does. -/
inductive Created where
  | throws
  | null
  | database
  deriving DecidableEq, Repr

/-- What a step of a call finds out. -/
structure Answers where
  /-- The clock, in nanoseconds. -/
  now : Nat := 0
  /-- `IsOpen()` of each connection in the predicate of the wait. -/
  isOpen : Nat → Bool := fun _ => true
  /-- `IsOpen()` of each connection in the loop after the wait. -/
  stillOpen : Nat → Bool := fun _ => true
  /-- `CreateConnection` and `Open` succeed. -/
  opens : Bool := true
  /-- The timeout of the wait is over. -/
  expired : Bool := false

/-- `Initialize`.  `opens` is how many connections can be opened before `CreateNewConnection`
throws, and `fresh` is the first number that has not been given to a connection. -/
def ConnectionPool.initializePool (config : DatabaseConfig) (created : Created) (connects : Bool)
    (opens : Nat) (now : Nat → Nat) (fresh : Nat) (pool : ConnectionPool) : ConnectionPool :=
  if pool.mInitialized then pool
  else
    let pool :=
      { pool with mMaxPoolSize := config.mMaxPoolSize, mMinPoolSize := config.mMinPoolSize }
    match created with
    | .throws => pool
    | .null => { pool with mDatabase := none }
    | .database =>
        if connects then
          if config.mMinPoolSize ≤ opens then
            { pool with
              mDatabase := some true
              mConnections := pool.mConnections ++
                (List.range config.mMinPoolSize).map fun k => ⟨fresh + k, now k, false⟩
              mInitialized := true }
          else { pool with mDatabase := some true, mConnections := [] }
        else { pool with mDatabase := some false, mConnections := [] }

/-- The predicate of the wait in `GetConnection`. -/
def ConnectionPool.canGet (isOpen : Nat → Bool) (pool : ConnectionPool) : Bool :=
  pool.mConnections.any (fun pooled => !pooled.mInUse && isOpen pooled.mConnection) ||
    decide (pool.mConnections.length < pool.mMaxPoolSize)

/-- `GetConnection` after the wait.  `none` is an exception. -/
def ConnectionPool.getConnection (answers : Answers) (fresh : Nat) (pool : ConnectionPool) :
    Option (ConnectionPool × Nat) :=
  match updateFirst (fun pooled => !pooled.mInUse && answers.stillOpen pooled.mConnection)
      (fun pooled => { pooled with mInUse := true, mLastUsed := answers.now })
      pool.mConnections with
  | some (pooled, mConnections) =>
      some ({ pool with mConnections, mActiveConnections := pool.mActiveConnections + 1 },
        pooled.mConnection)
  | none =>
      if pool.mConnections.length < pool.mMaxPoolSize then
        -- `CreateNewConnection()`
        if pool.mDatabase = some true ∧ answers.opens = true then
          some ({ pool with
            mConnections := pool.mConnections ++ [⟨fresh, answers.now, true⟩]
            mActiveConnections := pool.mActiveConnections + 1 }, fresh)
        else none
      else none

/-- `ReturnConnection` under the lock.  The counter is a `size_t`. -/
def ConnectionPool.returnConnection (now : Nat) (pConnection : Nat) (pool : ConnectionPool) :
    ConnectionPool :=
  match updateFirst (fun pooled => pooled.mConnection = pConnection)
      (fun pooled => { pooled with mInUse := false, mLastUsed := now }) pool.mConnections with
  | some (_, mConnections) =>
      { pool with
        mConnections
        mActiveConnections :=
          if pool.mActiveConnections = 0 then 2 ^ 64 - 1 else pool.mActiveConnections - 1 }
  | none => pool

/-- `ClearLocked`. -/
def ConnectionPool.clear (pool : ConnectionPool) : ConnectionPool :=
  { pool with mConnections := pool.mConnections.filter fun pooled => pooled.mInUse }

/-- The loop in `CleanupIdleConnections`.  `size` is `mConnections.size()`. -/
def cleanup (now mIdleTimeout mMinPoolSize : Nat) : Nat → List PooledConnection →
    List PooledConnection
  | _, [] => []
  | size, pooled :: rest =>
      if pooled.mInUse = false ∧ mIdleTimeout < (now - pooled.mLastUsed) / 1000000000 ∧
          mMinPoolSize < size then
        cleanup now mIdleTimeout mMinPoolSize (size - 1) rest
      else pooled :: cleanup now mIdleTimeout mMinPoolSize size rest

/-- `CleanupIdleConnections`. -/
def ConnectionPool.cleanupIdleConnections (now : Nat) (pool : ConnectionPool) : ConnectionPool :=
  { pool with
    mConnections := cleanup now pool.mIdleTimeout pool.mMinPoolSize pool.mConnections.length
      pool.mConnections }

/-- `Shutdown` after its wait. -/
def ConnectionPool.shutdown (pool : ConnectionPool) : ConnectionPool :=
  let pool := { pool with mInitialized := false }
  let pool :=
    if 0 < pool.mActiveConnections then { pool with mConnections := [], mActiveConnections := 0 }
    else pool.clear
  { pool with mDatabase := none }

/-! ## The calls -/

/-- Where a call stands. -/
inductive CallPc where
  /-- `GetConnection` has loaded `mInitialized`, and takes the lock. -/
  | get
  /-- It is in its wait. -/
  | waiting
  /-- It has returned the connection, which the caller has. -/
  | lent (connection : Nat)
  /-- The caller is in `ReturnConnection`. -/
  | returning (connection : Nat)
  /-- `Shutdown` is at its wait or in it. -/
  | shutdown
  /-- It takes the lock for the second time. -/
  | shutdownLock
  | returned
  deriving DecidableEq, Repr

structure PoolSystem where
  pool : ConnectionPool := {}
  /-- The connections with smaller numbers have been made. -/
  fresh : Nat := 0
  calls : List CallPc := []
  deriving DecidableEq, Repr

/-- What happens next. -/
inductive PoolAct where
  | initializePool (created : Created) (connects : Bool) (opens : Nat) (now : Nat → Nat)
  | getConnection
  | shutdown
  /-- The call `i` goes on.  For a loan, the borrower calls `ReturnConnection`. -/
  | call (i : Nat) (answers : Answers)
  | clear
  | cleanupIdleConnections (now : Nat)

def PoolSystem.begin (s : PoolSystem) (pc : CallPc) : PoolSystem :=
  { s with calls := s.calls ++ [pc] }

def PoolSystem.setCall (s : PoolSystem) (i : Nat) (pc : CallPc) : PoolSystem :=
  { s with calls := s.calls.set i pc }

/-- `GetConnection` with the lock, from the predicate of its wait on. -/
def PoolSystem.wait (s : PoolSystem) (i : Nat) (answers : Answers) : PoolSystem :=
  if s.pool.canGet answers.isOpen then
    match s.pool.getConnection answers s.fresh with
    | some (pool, connection) =>
        { pool, fresh := max s.fresh (connection + 1), calls := s.calls.set i (.lent connection) }
    | none => s.setCall i .returned
  else if answers.expired then s.setCall i .returned
  else s.setCall i .waiting

/-- A step of the call `i`. -/
def callStep (s : PoolSystem) (i : Nat) (answers : Answers) : CallPc → Option PoolSystem
  | .get => some (if s.pool.mInitialized then s.wait i answers else s.setCall i .returned)
  | .waiting => some (s.wait i answers)
  | .lent connection => some (s.setCall i (.returning connection))
  | .returning connection =>
      some { s.setCall i .returned with pool := s.pool.returnConnection answers.now connection }
  | .shutdown =>
      if s.pool.mActiveConnections = 0 ∨ answers.expired = true then
        some (s.setCall i .shutdownLock)
      else some s
  | .shutdownLock => some { s.setCall i .returned with pool := s.pool.shutdown }
  | .returned => none

/-- One step. -/
def step (config : DatabaseConfig) (s : PoolSystem) : PoolAct → Option PoolSystem
  | .initializePool created connects opens now =>
      some { s with
        pool := s.pool.initializePool config created connects opens now s.fresh
        fresh := s.fresh + config.mMinPoolSize }
  | .getConnection => some (s.begin (if s.pool.mInitialized then .get else .returned))
  | .shutdown => some (s.begin (if s.pool.mInitialized then .shutdown else .returned))
  | .call i answers => callStep s i answers (s.calls.getD i .returned)
  | .clear => some { s with pool := s.pool.clear }
  | .cleanupIdleConnections now => some { s with pool := s.pool.cleanupIdleConnections now }

/-! ## What the pool promises -/

/-- The call is a loan of the connection. -/
def CallPc.holds (connection : Nat) : CallPc → Bool
  | .lent c | .returning c => c = connection
  | _ => false

/-- How many borrowers have the connection. -/
def PoolSystem.borrowers (s : PoolSystem) (connection : Nat) : Nat :=
  s.calls.countP (CallPc.holds connection)

def ConnectionPool.inUse (pool : ConnectionPool) : Nat :=
  pool.mConnections.countP fun pooled => pooled.mInUse

structure Exclusive (s : PoolSystem) : Prop where
  lent_once : ∀ connection, s.borrowers connection ≤ 1
  active_eq : s.pool.mActiveConnections = s.pool.inUse
  size_le : s.pool.mConnections.length ≤ s.pool.mMaxPoolSize

/-- `Initialize` finds room for its connections if it succeeds, and nothing in use if it
fails after the database has been made. -/
def Vacant (config : DatabaseConfig) (s : PoolSystem) : PoolAct → Prop
  | .initializePool .database connects opens _ =>
      s.pool.mInitialized = false →
        if connects = true ∧ config.mMinPoolSize ≤ opens then
          s.pool.mConnections.length + config.mMinPoolSize ≤ config.mMaxPoolSize
        else s.pool.mActiveConnections = 0
  | _ => True

instance (config : DatabaseConfig) (s : PoolSystem) :
    (a : PoolAct) → Decidable (Vacant config s a)
  | .initializePool .database _ _ _ => by unfold Vacant; infer_instance
  | .initializePool .throws _ _ _ => isTrue trivial
  | .initializePool .null _ _ _ => isTrue trivial
  | .getConnection => isTrue trivial
  | .shutdown => isTrue trivial
  | .call _ _ => isTrue trivial
  | .clear => isTrue trivial
  | .cleanupIdleConnections _ => isTrue trivial

/-! ## What a call finds and changes -/

variable {config : DatabaseConfig} {s s' : PoolSystem}

/-- `GetConnection` takes a connection that is not in use, or adds one if there is room. -/
theorem ConnectionPool.getConnection_cases {answers : Answers} {fresh connection : Nat}
    {pool pool' : ConnectionPool}
    (h : pool.getConnection answers fresh = some (pool', connection)) :
    (∃ before pooled after, pool.mConnections = before ++ pooled :: after ∧
      pooled.mInUse = false ∧ connection = pooled.mConnection ∧
      pool' = { pool with
        mConnections :=
          before ++ { pooled with mInUse := true, mLastUsed := answers.now } :: after
        mActiveConnections := pool.mActiveConnections + 1 }) ∨
    (pool.mConnections.length < pool.mMaxPoolSize ∧ pool.mDatabase = some true ∧
      connection = fresh ∧
      pool' = { pool with
        mConnections := pool.mConnections ++ [⟨fresh, answers.now, true⟩]
        mActiveConnections := pool.mActiveConnections + 1 }) := by
  unfold ConnectionPool.getConnection at h
  split at h
  · next pooled mConnections hfound =>
      obtain ⟨before, after, hconns, rfl, hidle⟩ := updateFirst_eq_some hfound
      cases h
      simp only [Bool.and_eq_true, Bool.not_eq_true'] at hidle
      exact .inl ⟨before, pooled, after, hconns, hidle.1, rfl, rfl⟩
  · split at h
    · next hroom =>
        split at h
        · next hdatabase =>
            cases h
            exact .inr ⟨hroom, hdatabase.1, rfl, rfl⟩
        · cases h
    · cases h

/-- `ReturnConnection` finds the connection, or changes nothing. -/
theorem ConnectionPool.returnConnection_cases (now connection : Nat) (pool : ConnectionPool) :
    (∃ before pooled after, pool.mConnections = before ++ pooled :: after ∧
      pooled.mConnection = connection ∧
      pool.returnConnection now connection = { pool with
        mConnections := before ++ { pooled with mInUse := false, mLastUsed := now } :: after
        mActiveConnections :=
          if pool.mActiveConnections = 0 then 2 ^ 64 - 1 else pool.mActiveConnections - 1 }) ∨
    (pool.returnConnection now connection = pool ∧
      ∀ pooled ∈ pool.mConnections, pooled.mConnection ≠ connection) := by
  unfold ConnectionPool.returnConnection
  split
  · next pooled mConnections hfound =>
      obtain ⟨before, after, hconns, rfl, hsame⟩ := updateFirst_eq_some hfound
      exact .inl ⟨before, pooled, after, hconns, of_decide_eq_true hsame, rfl⟩
  · next hnone =>
      refine .inr ⟨rfl, fun pooled hmem => ?_⟩
      exact of_decide_eq_false (updateFirst_eq_none hnone pooled hmem)

theorem cleanup_sublist (now idle least size : Nat) (l : List PooledConnection) :
    (cleanup now idle least size l).Sublist l := by
  induction l generalizing size with
  | nil => exact .slnil
  | cons pooled rest ih =>
      rw [cleanup]
      split
      · exact (ih _).cons _
      · exact (ih _).cons_cons _

/-- What is in use is not cleaned up. -/
theorem countP_cleanup (now idle least size : Nat) (l : List PooledConnection) :
    (cleanup now idle least size l).countP (fun pooled => pooled.mInUse) =
      l.countP fun pooled => pooled.mInUse := by
  induction l generalizing size with
  | nil => rfl
  | cons pooled rest ih =>
      rw [cleanup]
      split
      · next hidle => rw [ih, List.countP_cons_of_neg (by simp [hidle.1])]
      · rw [Tally.countP_cons_toNat, Tally.countP_cons_toNat, ih]

/-- A call that is no loan goes on. -/
theorem borrowers_set {i : Nat} {pc : CallPc} (hcall : s.calls[i]? = some pc) (pc' : CallPc)
    (c : Nat) :
    (s.calls.set i pc').countP (CallPc.holds c) + (pc.holds c).toNat =
      s.borrowers c + (pc'.holds c).toNat :=
  Tally.countP_set _ _ hcall

theorem borrowers_begin (pc : CallPc) (hpc : ∀ c, pc.holds c = false) (c : Nat) :
    (s.begin pc).borrowers c = s.borrowers c := by
  rw [PoolSystem.borrowers, PoolSystem.begin, Tally.countP_concat, hpc]
  rfl

theorem borrowers_setCall {i : Nat} {pc pc' : CallPc} (hcall : s.calls[i]? = some pc)
    (hpc : ∀ c, pc'.holds c = pc.holds c) (c : Nat) :
    (s.setCall i pc').borrowers c = s.borrowers c := by
  have hset := borrowers_set hcall pc' c
  rw [hpc] at hset
  exact Nat.add_right_cancel hset

/-! ## The invariant of all runs -/

/-- Nobody has a connection that is not in use, and no two have the same one. -/
structure Sound (config : DatabaseConfig) (s : PoolSystem) : Prop where
  nodup : (s.pool.mConnections.map PooledConnection.mConnection).Nodup
  known : ∀ pooled ∈ s.pool.mConnections, pooled.mConnection < s.fresh
  unlent : ∀ c, s.fresh ≤ c → s.borrowers c = 0
  once : ∀ c, s.borrowers c ≤ 1
  idle : ∀ pooled ∈ s.pool.mConnections, pooled.mInUse = false →
    s.borrowers pooled.mConnection = 0
  sizes : s.pool.mMaxPoolSize = config.mMaxPoolSize ∨
    (s.pool.mConnections = [] ∧ s.pool.mDatabase = none)

/-- A step that drops connections, and leaves the loans as they are. -/
theorem Sound.sublist (h : Sound config s)
    (hconns : s'.pool.mConnections.Sublist s.pool.mConnections)
    (hsize : s'.pool.mMaxPoolSize = config.mMaxPoolSize ∨
      (s'.pool.mMaxPoolSize = s.pool.mMaxPoolSize ∧
        (s.pool.mDatabase = none → s'.pool.mDatabase = none)))
    (hfresh : s.fresh ≤ s'.fresh) (hcalls : ∀ c, s'.borrowers c = s.borrowers c) :
    Sound config s' where
  nodup := h.nodup.sublist (hconns.map _)
  known := fun pooled hmem => (h.known pooled (hconns.subset hmem)).trans_le hfresh
  unlent := fun c hc => (hcalls c).trans (h.unlent c (hfresh.trans hc))
  once := fun c => (hcalls c).trans_le (h.once c)
  idle := fun pooled hmem hidle => (hcalls _).trans (h.idle pooled (hconns.subset hmem) hidle)
  sizes := by
    rcases hsize with heq | ⟨hsame, hnone⟩
    · exact .inl heq
    · rcases h.sizes with heq | ⟨hnil, hdatabase⟩
      · exact .inl (hsame.trans heq)
      · rw [hnil] at hconns
        exact .inr ⟨List.sublist_nil.mp hconns, hnone hdatabase⟩

/-- A call that is no loan goes on, and the pool stays as it is. -/
theorem Sound.frame (h : Sound config s) (hpool : s'.pool = s.pool) (hfresh : s'.fresh = s.fresh)
    (hcalls : ∀ c, s'.borrowers c = s.borrowers c) : Sound config s' :=
  h.sublist (by rw [hpool]) (.inr ⟨by rw [hpool], by rw [hpool]; exact id⟩) hfresh.ge hcalls

theorem mem_middle {α : Type} {before after : List α} {a b : α} :
    b ∈ before ++ a :: after ↔ b = a ∨ b ∈ before ++ after := by
  simp only [List.mem_append, List.mem_cons]
  tauto

/-- In a list without repetition, the others are other ones. -/
theorem ne_of_mem_rest {before after : List PooledConnection} {pooled other : PooledConnection}
    (h : ((before ++ pooled :: after).map PooledConnection.mConnection).Nodup)
    (hmem : other ∈ before ++ after) : other.mConnection ≠ pooled.mConnection := by
  have hperm : (before ++ pooled :: after).Perm (pooled :: (before ++ after)) :=
    List.perm_middle
  have hcons := (hperm.map PooledConnection.mConnection).nodup_iff.mp h
  rw [List.map_cons, List.nodup_cons] at hcons
  exact fun heq => hcons.1 (heq ▸ List.mem_map_of_mem hmem)

/-! ### Lending -/

theorem borrowers_lend {i : Nat} {pc : CallPc} (hcall : s.calls[i]? = some pc)
    (hpc : ∀ c, pc.holds c = false) (connection c : Nat) :
    (s.calls.set i (.lent connection)).countP (CallPc.holds c) =
      s.borrowers c + if connection = c then 1 else 0 := by
  have hset := borrowers_set hcall (.lent connection) c
  rw [hpc, Bool.toNat_false, Nat.add_zero] at hset
  rw [hset]
  by_cases hc : connection = c <;> simp [CallPc.holds, hc]

theorem Sound.lend (h : Sound config s) {i : Nat} {pc : CallPc} (hcall : s.calls[i]? = some pc)
    (hpc : ∀ c, pc.holds c = false) {answers : Answers} {pool : ConnectionPool} {connection : Nat}
    (hget : s.pool.getConnection answers s.fresh = some (pool, connection)) :
    Sound config { pool, fresh := max s.fresh (connection + 1),
                   calls := s.calls.set i (.lent connection) } := by
  have hlend := borrowers_lend hcall hpc connection
  -- In both cases nobody has the connection.
  have hfree : s.borrowers connection = 0 := by
    rcases ConnectionPool.getConnection_cases hget with
      ⟨before, pooled, after, hconns, hidle, rfl, -⟩ | ⟨-, -, rfl, -⟩
    · exact h.idle pooled (by rw [hconns]; exact mem_middle.mpr (.inl rfl)) hidle
    · exact h.unlent _ (le_refl _)
  have hothers : ∀ c, connection ≠ c →
      (s.calls.set i (.lent connection)).countP (CallPc.holds c) = s.borrowers c := fun c hc => by
    rw [hlend, if_neg hc, Nat.add_zero]
  have honce : ∀ c, (s.calls.set i (.lent connection)).countP (CallPc.holds c) ≤ 1 := by
    intro c
    by_cases hc : connection = c
    · subst hc
      rw [hlend, hfree, if_pos rfl]
    · rw [hothers c hc]
      exact h.once c
  have hunlent : ∀ c, max s.fresh (connection + 1) ≤ c →
      (s.calls.set i (.lent connection)).countP (CallPc.holds c) = 0 := by
    intro c hc
    rw [hothers c (by omega)]
    exact h.unlent c (by omega)
  rcases ConnectionPool.getConnection_cases hget with
    ⟨before, pooled, after, hconns, hidle, hconn, rfl⟩ | ⟨-, hdatabase, hconn, rfl⟩
  · have hnodup := h.nodup
    rw [hconns] at hnodup
    have hmem : ∀ other ∈ before ++ after, other ∈ s.pool.mConnections := fun other ho => by
      rw [hconns]
      exact mem_middle.mpr (.inr ho)
    have hpooled : pooled ∈ s.pool.mConnections := by
      rw [hconns]
      exact mem_middle.mpr (.inl rfl)
    refine ⟨by simpa using hnodup, ?_, hunlent, honce, ?_, ?_⟩
    · intro other ho
      rcases mem_middle.mp ho with rfl | ho
      · exact (h.known pooled hpooled).trans_le (le_max_left _ _)
      · exact (h.known other (hmem other ho)).trans_le (le_max_left _ _)
    · intro other ho hother
      rcases mem_middle.mp ho with rfl | ho
      · cases hother
      · have hne := ne_of_mem_rest hnodup ho
        exact (hothers _ (hconn ▸ hne.symm)).trans (h.idle other (hmem other ho) hother)
    · exact .inl (h.sizes.resolve_right fun hnone => List.ne_nil_of_mem hpooled hnone.1)
  · refine ⟨?_, ?_, hunlent, honce, ?_, ?_⟩
    · rw [List.map_append, List.nodup_append]
      refine ⟨h.nodup, List.nodup_singleton _, fun c hc c' hc' => ?_⟩
      obtain ⟨other, ho, rfl⟩ := List.mem_map.mp hc
      rw [List.mem_singleton.mp hc']
      exact (h.known other ho).ne
    · intro other ho
      rcases List.mem_append.mp ho with ho | ho
      · exact (h.known other ho).trans_le (le_max_left _ _)
      · rw [List.mem_singleton.mp ho, hconn]
        exact (Nat.lt_succ_self _).trans_le (le_max_right _ _)
    · intro other ho hother
      rcases List.mem_append.mp ho with ho | ho
      · have hne : connection ≠ other.mConnection := hconn ▸ (h.known other ho).ne'
        exact (hothers _ hne).trans (h.idle other ho hother)
      · rw [List.mem_singleton.mp ho] at hother
        cases hother
    · refine .inl (h.sizes.resolve_right fun hnone => ?_)
      rw [hnone.2] at hdatabase
      cases hdatabase

/-! ### Giving back -/

theorem borrowers_giveBack {i connection : Nat} (hcall : s.calls[i]? = some (.returning connection))
    (c : Nat) :
    (s.calls.set i .returned).countP (CallPc.holds c) + (if connection = c then 1 else 0) =
      s.borrowers c := by
  have hset := borrowers_set hcall .returned c
  by_cases hc : connection = c <;> simpa [CallPc.holds, hc] using hset

theorem Sound.giveBack (h : Sound config s) {i connection : Nat}
    (hcall : s.calls[i]? = some (.returning connection)) (now : Nat) :
    Sound config { s.setCall i .returned with
                   pool := s.pool.returnConnection now connection } := by
  have hback := borrowers_giveBack hcall
  have hle : ∀ c, (s.calls.set i .returned).countP (CallPc.holds c) ≤ s.borrowers c := fun c => by
    rw [← hback c]
    exact Nat.le_add_right _ _
  have hunlent : ∀ c, s.fresh ≤ c → (s.calls.set i .returned).countP (CallPc.holds c) = 0 :=
    fun c hc => Nat.le_zero.mp ((hle c).trans_eq (h.unlent c hc))
  have honce : ∀ c, (s.calls.set i .returned).countP (CallPc.holds c) ≤ 1 :=
    fun c => (hle c).trans (h.once c)
  rcases ConnectionPool.returnConnection_cases now connection s.pool with
    ⟨before, pooled, after, hconns, hsame, heq⟩ | ⟨heq, -⟩
  · have hmem : ∀ other ∈ before ++ after, other ∈ s.pool.mConnections := fun other ho => by
      rw [hconns]
      exact mem_middle.mpr (.inr ho)
    have hpooled : pooled ∈ s.pool.mConnections := by
      rw [hconns]
      exact mem_middle.mpr (.inl rfl)
    have hnodup := h.nodup
    rw [hconns] at hnodup
    rw [heq]
    refine ⟨by simpa using hnodup, ?_, hunlent, honce, ?_, ?_⟩
    · intro other ho
      rcases mem_middle.mp ho with rfl | ho
      · exact h.known pooled hpooled
      · exact h.known other (hmem other ho)
    · intro other ho hother
      rcases mem_middle.mp ho with rfl | ho
      · -- The borrower was the only one.
        have hone := hback pooled.mConnection
        rw [if_pos hsame.symm] at hone
        have honce := h.once pooled.mConnection
        have hzero : (s.calls.set i .returned).countP (CallPc.holds pooled.mConnection) = 0 := by
          omega
        exact hzero
      · exact Nat.le_zero.mp ((hle _).trans_eq (h.idle other (hmem other ho) hother))
    · exact .inl (h.sizes.resolve_right fun hnone => List.ne_nil_of_mem hpooled hnone.1)
  · rw [heq]
    exact ⟨h.nodup, h.known, hunlent, honce,
      fun other ho hother => Nat.le_zero.mp ((hle _).trans_eq (h.idle other ho hother)), h.sizes⟩

/-! ### All steps -/

/-- What `Initialize` does to the list of a pool that is not initialized. -/
theorem ConnectionPool.initializePool_cases (config : DatabaseConfig) (created : Created)
    (connects : Bool) (opens : Nat) (now : Nat → Nat) (fresh : Nat) {pool : ConnectionPool}
    (h : pool.mInitialized = false) :
    (created = .database ∧ (connects = true ∧ config.mMinPoolSize ≤ opens) ∧
      pool.initializePool config created connects opens now fresh = { pool with
        mMaxPoolSize := config.mMaxPoolSize
        mMinPoolSize := config.mMinPoolSize
        mDatabase := some true
        mConnections := pool.mConnections ++
          (List.range config.mMinPoolSize).map fun k => ⟨fresh + k, now k, false⟩
        mInitialized := true }) ∨
    (created = .database ∧ ¬ (connects = true ∧ config.mMinPoolSize ≤ opens) ∧
      pool.initializePool config created connects opens now fresh = { pool with
        mMaxPoolSize := config.mMaxPoolSize
        mMinPoolSize := config.mMinPoolSize
        mDatabase := some connects
        mConnections := [] }) ∨
    (created ≠ .database ∧
      ∃ mDatabase, pool.initializePool config created connects opens now fresh = { pool with
        mMaxPoolSize := config.mMaxPoolSize
        mMinPoolSize := config.mMinPoolSize
        mDatabase }) := by
  unfold ConnectionPool.initializePool
  rw [h, if_neg Bool.false_ne_true]
  cases created with
  | throws => exact .inr (.inr ⟨by decide, pool.mDatabase, rfl⟩)
  | null => exact .inr (.inr ⟨by decide, none, rfl⟩)
  | database =>
      cases connects with
      | false => exact .inr (.inl ⟨rfl, by simp, rfl⟩)
      | true =>
          by_cases hopens : config.mMinPoolSize ≤ opens
          · exact .inl ⟨rfl, ⟨rfl, hopens⟩, by simp [hopens]⟩
          · exact .inr (.inl ⟨rfl, fun hok => hopens hok.2, by simp [hopens]⟩)

theorem Sound.initializePool (h : Sound config s) (created : Created) (connects : Bool)
    (opens : Nat) (now : Nat → Nat) :
    Sound config { s with
                   pool := s.pool.initializePool config created connects opens now s.fresh
                   fresh := s.fresh + config.mMinPoolSize } := by
  cases hinit : s.pool.mInitialized with
  | true =>
      have hpool : s.pool.initializePool config created connects opens now s.fresh = s.pool :=
        if_pos hinit
      rw [hpool]
      exact h.sublist (.refl _) (.inr ⟨rfl, id⟩) (Nat.le_add_right _ _) fun _ => rfl
  | false =>
      rcases ConnectionPool.initializePool_cases config created connects opens now s.fresh
        hinit with ⟨-, -, heq⟩ | ⟨-, -, heq⟩ | ⟨-, mDatabase, heq⟩
      · rw [heq]
        refine ⟨?_, ?_, ?_, h.once, ?_, .inl rfl⟩
        · rw [List.map_append, List.nodup_append, List.map_map]
          refine ⟨h.nodup, List.Nodup.map (fun a b hab => ?_) List.nodup_range,
            fun c hc c' hc' => ?_⟩
          · exact Nat.add_left_cancel hab
          · obtain ⟨other, ho, rfl⟩ := List.mem_map.mp hc
            obtain ⟨k, -, rfl⟩ := List.mem_map.mp hc'
            exact ((h.known other ho).trans_le (Nat.le_add_right _ _)).ne
        · intro other ho
          rcases List.mem_append.mp ho with ho | ho
          · exact (h.known other ho).trans_le (Nat.le_add_right _ _)
          · obtain ⟨k, hk, rfl⟩ := List.mem_map.mp ho
            exact Nat.add_lt_add_left (List.mem_range.mp hk) _
        · exact fun c hc => h.unlent c ((Nat.le_add_right _ _).trans hc)
        · intro other ho hother
          rcases List.mem_append.mp ho with ho | ho
          · exact h.idle other ho hother
          · obtain ⟨k, -, rfl⟩ := List.mem_map.mp ho
            exact h.unlent _ (Nat.le_add_right _ _)
      · rw [heq]
        exact h.sublist (List.nil_sublist _) (.inl rfl) (Nat.le_add_right _ _) fun _ => rfl
      · rw [heq]
        exact h.sublist (.refl _) (.inl rfl) (Nat.le_add_right _ _) fun _ => rfl

theorem ConnectionPool.shutdown_sublist (pool : ConnectionPool) :
    pool.shutdown.mConnections.Sublist pool.mConnections := by
  unfold ConnectionPool.shutdown
  dsimp only
  split
  · exact List.nil_sublist _
  · exact List.filter_sublist

theorem ConnectionPool.shutdown_max (pool : ConnectionPool) :
    pool.shutdown.mMaxPoolSize = pool.mMaxPoolSize := by
  unfold ConnectionPool.shutdown
  dsimp only
  split <;> rfl

theorem Sound.wait (h : Sound config s) {i : Nat} {pc : CallPc} (hcall : s.calls[i]? = some pc)
    (hpc : ∀ c, pc.holds c = false) (answers : Answers) : Sound config (s.wait i answers) := by
  have hset : ∀ pc' : CallPc, (∀ c, pc'.holds c = false) → Sound config (s.setCall i pc') :=
    fun pc' hpc' => h.frame rfl rfl (borrowers_setCall hcall fun c => (hpc' c).trans (hpc c).symm)
  unfold PoolSystem.wait
  split
  · split
    · next hget => exact h.lend hcall hpc hget
    · exact hset _ fun _ => rfl
  · split <;> exact hset _ fun _ => rfl

theorem Sound.callStep (h : Sound config s) {i : Nat} {answers : Answers} {pc : CallPc}
    (hcall : s.calls[i]? = some pc) (hs : callStep s i answers pc = some s') :
    Sound config s' := by
  have hset : ∀ pc' : CallPc, (∀ c, pc'.holds c = pc.holds c) → Sound config (s.setCall i pc') :=
    fun pc' hpc' => h.frame rfl rfl (borrowers_setCall hcall hpc')
  cases pc with
  | get =>
      cases hs
      split
      · exact h.wait hcall (fun _ => rfl) answers
      · exact hset _ fun _ => rfl
  | waiting =>
      cases hs
      exact h.wait hcall (fun _ => rfl) answers
  | lent connection =>
      cases hs
      exact hset _ fun _ => rfl
  | returning connection =>
      cases hs
      exact h.giveBack hcall answers.now
  | shutdown =>
      rw [Pool.callStep] at hs
      split at hs
      · cases hs
        exact hset _ fun _ => rfl
      · cases hs
        exact h
  | shutdownLock =>
      cases hs
      exact h.sublist (ConnectionPool.shutdown_sublist _)
        (.inr ⟨ConnectionPool.shutdown_max _, fun _ => rfl⟩) (le_refl _)
        (borrowers_setCall hcall fun _ => rfl)
  | returned => cases hs

theorem Sound.step {a : PoolAct} (h : Sound config s) (hs : step config s a = some s') :
    Sound config s' := by
  cases a with
  | initializePool created connects opens now =>
      cases hs
      exact h.initializePool created connects opens now
  | getConnection =>
      cases hs
      exact h.frame rfl rfl (borrowers_begin _ fun c => by split <;> rfl)
  | shutdown =>
      cases hs
      exact h.frame rfl rfl (borrowers_begin _ fun c => by split <;> rfl)
  | call i answers =>
      cases hi : s.calls[i]? with
      | none => simp [Pool.step, List.getD_eq_getElem?_getD, hi, Pool.callStep] at hs
      | some pc =>
          rw [Pool.step, List.getD_eq_getElem?_getD, hi, Option.getD_some] at hs
          exact h.callStep hi hs
  | clear =>
      cases hs
      exact h.sublist List.filter_sublist (.inr ⟨rfl, id⟩) (le_refl _) fun _ => rfl
  | cleanupIdleConnections now =>
      cases hs
      exact h.sublist (cleanup_sublist _ _ _ _ _) (.inr ⟨rfl, id⟩) (le_refl _) fun _ => rfl

/-! ## The counter and the size -/

theorem countP_middle (before after : List PooledConnection) (pooled : PooledConnection) :
    (before ++ pooled :: after).countP (fun other => other.mInUse) =
      before.countP (fun other => other.mInUse) + after.countP (fun other => other.mInUse) +
        pooled.mInUse.toNat := by
  rw [List.countP_append, Tally.countP_cons_toNat, Nat.add_assoc]

section
variable {pool pool' : ConnectionPool}

/-- A connection that is lent was not in use. -/
theorem ConnectionPool.active_getConnection (h : pool.mActiveConnections = pool.inUse)
    {answers : Answers} {fresh connection : Nat}
    (hget : pool.getConnection answers fresh = some (pool', connection)) :
    pool'.mActiveConnections = pool'.inUse := by
  rcases getConnection_cases hget with
    ⟨before, pooled, after, hconns, hidle, -, rfl⟩ | ⟨hroom, -, -, rfl⟩
  · rw [inUse, hconns, countP_middle, hidle, Bool.toNat_false, Nat.add_zero] at h
    rw [inUse, countP_middle, Bool.toNat_true, ← h]
  · rw [inUse, Tally.countP_concat, Bool.toNat_true, ← inUse, ← h]

/-- A connection that is returned was in use. -/
theorem ConnectionPool.active_returnConnection (h : pool.mActiveConnections = pool.inUse)
    {before after : List PooledConnection} {pooled : PooledConnection} {now : Nat}
    (hconns : pool.mConnections = before ++ pooled :: after) (hin : pooled.mInUse = true)
    (hreturn : pool' = { pool with
      mConnections := before ++ { pooled with mInUse := false, mLastUsed := now } :: after
      mActiveConnections :=
        if pool.mActiveConnections = 0 then 2 ^ 64 - 1 else pool.mActiveConnections - 1 }) :
    pool'.mActiveConnections = pool'.inUse := by
  rw [inUse, hconns, countP_middle, hin, Bool.toNat_true] at h
  rw [hreturn, inUse, countP_middle, Bool.toNat_false, h, if_neg (Nat.succ_ne_zero _)]
  rfl

theorem ConnectionPool.active_clear (h : pool.mActiveConnections = pool.inUse) :
    pool.clear.mActiveConnections = pool.clear.inUse := by
  rw [inUse, ConnectionPool.clear, List.countP_filter]
  simpa [inUse] using h

theorem ConnectionPool.active_cleanup (h : pool.mActiveConnections = pool.inUse) (now : Nat) :
    (pool.cleanupIdleConnections now).mActiveConnections =
      (pool.cleanupIdleConnections now).inUse :=
  h.trans (countP_cleanup _ _ _ _ _).symm

theorem ConnectionPool.active_shutdown (h : pool.mActiveConnections = pool.inUse) :
    pool.shutdown.mActiveConnections = pool.shutdown.inUse := by
  unfold ConnectionPool.shutdown
  dsimp only
  split
  · rfl
  · exact active_clear h

end

/-- The counter is right and the pool is not too large. -/
structure ConnectionPool.Counted (pool : ConnectionPool) : Prop where
  active_eq : pool.mActiveConnections = pool.inUse
  size_le : pool.mConnections.length ≤ pool.mMaxPoolSize

theorem ConnectionPool.Counted.getConnection {pool pool' : ConnectionPool} (h : pool.Counted)
    {answers : Answers} {fresh connection : Nat}
    (hget : pool.getConnection answers fresh = some (pool', connection)) : pool'.Counted := by
  refine ⟨active_getConnection h.active_eq hget, ?_⟩
  have hsize := h.size_le
  rcases getConnection_cases hget with
    ⟨before, pooled, after, hconns, -, -, rfl⟩ | ⟨hroom, -, -, rfl⟩
  · rw [hconns] at hsize
    simpa using hsize
  · rw [List.length_append]
    exact hroom

/-- A connection that is returned was in use. -/
theorem ConnectionPool.Counted.returnConnection {pool : ConnectionPool} (h : pool.Counted)
    {connection : Nat}
    (hlent : ∀ pooled ∈ pool.mConnections, pooled.mConnection = connection → pooled.mInUse = true)
    (now : Nat) : (pool.returnConnection now connection).Counted := by
  rcases returnConnection_cases now connection pool with
    ⟨before, pooled, after, hconns, hsame, heq⟩ | ⟨heq, -⟩
  · have hin : pooled.mInUse = true :=
      hlent pooled (by rw [hconns]; exact mem_middle.mpr (.inl rfl)) hsame
    have hsize := h.size_le
    rw [hconns] at hsize
    refine ⟨active_returnConnection h.active_eq hconns hin heq, ?_⟩
    rw [heq]
    simpa using hsize
  · rw [heq]
    exact h

theorem ConnectionPool.Counted.clear {pool : ConnectionPool} (h : pool.Counted) :
    pool.clear.Counted :=
  ⟨active_clear h.active_eq, (List.length_filter_le _ _).trans h.size_le⟩

theorem ConnectionPool.Counted.cleanupIdleConnections {pool : ConnectionPool} (h : pool.Counted)
    (now : Nat) : (pool.cleanupIdleConnections now).Counted :=
  ⟨active_cleanup h.active_eq now, (cleanup_sublist _ _ _ _ _).length_le.trans h.size_le⟩

theorem ConnectionPool.Counted.shutdown {pool : ConnectionPool} (h : pool.Counted) :
    pool.shutdown.Counted := by
  refine ⟨active_shutdown h.active_eq, ?_⟩
  rw [ConnectionPool.shutdown_max]
  exact (ConnectionPool.shutdown_sublist pool).length_le.trans h.size_le

/-- The new connections are not in use. -/
theorem ConnectionPool.Counted.initializePool {s : PoolSystem} (h : s.pool.Counted)
    {created : Created} {connects : Bool} {opens : Nat} {now : Nat → Nat}
    (hsound : Sound config s)
    (hok : Vacant config s (.initializePool created connects opens now)) :
    (s.pool.initializePool config created connects opens now s.fresh).Counted := by
  cases hinit : s.pool.mInitialized with
  | true =>
      have hpool : s.pool.initializePool config created connects opens now s.fresh = s.pool :=
        if_pos hinit
      rw [hpool]
      exact h
  | false =>
      rcases initializePool_cases config created connects opens now s.fresh hinit with
        ⟨rfl, hdone, heq⟩ | ⟨rfl, hfail, heq⟩ | ⟨-, mDatabase, heq⟩
      · have hroom := hok hinit
        rw [if_pos hdone] at hroom
        rw [heq]
        refine ⟨?_, ?_⟩
        · have hnew : ((List.range config.mMinPoolSize).map fun k =>
              (⟨s.fresh + k, now k, false⟩ : PooledConnection)).countP
                (fun pooled => pooled.mInUse) = 0 := by
            rw [List.countP_map]
            exact List.countP_eq_zero.mpr fun _ _ => Bool.false_ne_true
          rw [inUse, List.countP_append, hnew]
          exact h.active_eq
        · rw [List.length_append, List.length_map, List.length_range]
          exact hroom
      · have hnone := hok hinit
        rw [if_neg hfail] at hnone
        rw [heq]
        exact ⟨hnone, Nat.zero_le _⟩
      · rw [heq]
        refine ⟨h.active_eq, ?_⟩
        rcases hsound.sizes with hsize | ⟨hnil, -⟩
        · exact h.size_le.trans_eq hsize
        · change s.pool.mConnections.length ≤ _
          rw [hnil]
          exact Nat.zero_le _

theorem Exclusive.counted (h : Exclusive s) : s.pool.Counted := ⟨h.active_eq, h.size_le⟩

theorem Counted.wait (h : s.pool.Counted) (i : Nat) (answers : Answers) :
    (s.wait i answers).pool.Counted := by
  unfold PoolSystem.wait
  split
  · split
    · next hget => exact h.getConnection hget
    · exact h
  · split <;> exact h

theorem Sound.counted_callStep (hsound : Sound config s) (h : s.pool.Counted) {i : Nat}
    {answers : Answers} {pc : CallPc} (hcall : s.calls[i]? = some pc)
    (hs : Pool.callStep s i answers pc = some s') : s'.pool.Counted := by
  cases pc with
  | get =>
      cases hs
      split
      · exact Counted.wait h i answers
      · exact h
  | waiting =>
      cases hs
      exact Counted.wait h i answers
  | lent connection =>
      cases hs
      exact h
  | returning connection =>
      cases hs
      refine h.returnConnection (fun pooled hmem hsame => ?_) answers.now
      -- The call itself is a loan of the connection.
      by_contra hidle
      have hnone := hsound.idle pooled hmem (Bool.eq_false_of_not_eq_true hidle)
      have hone := Tally.toNat_le_countP (CallPc.holds pooled.mConnection) hcall
      rw [← PoolSystem.borrowers, hnone, hsame] at hone
      simp [CallPc.holds] at hone
  | shutdown =>
      rw [Pool.callStep] at hs
      split at hs <;> · cases hs; exact h
  | shutdownLock =>
      cases hs
      exact h.shutdown
  | returned => cases hs

/-- A step that finds the pool vacant keeps it right. -/
theorem Exclusive.step {a : PoolAct} (hsound : Sound config s) (h : Exclusive s)
    (hok : Vacant config s a) (hs : step config s a = some s') : Exclusive s' := by
  have hcounted : s'.pool.Counted := by
    cases a with
    | initializePool created connects opens now =>
        cases hs
        exact h.counted.initializePool hsound hok
    | getConnection =>
        cases hs
        exact h.counted
    | shutdown =>
        cases hs
        exact h.counted
    | call i answers =>
        cases hi : s.calls[i]? with
        | none => simp [Pool.step, List.getD_eq_getElem?_getD, hi, Pool.callStep] at hs
        | some pc =>
            rw [Pool.step, List.getD_eq_getElem?_getD, hi, Option.getD_some] at hs
            exact hsound.counted_callStep h.counted hi hs
    | clear =>
        cases hs
        exact h.counted.clear
    | cleanupIdleConnections now =>
        cases hs
        exact h.counted.cleanupIdleConnections now
  exact ⟨(hsound.step hs).once, hcounted.active_eq, hcounted.size_le⟩

/-- A step that does not find the pool vacant breaks it. -/
theorem not_exclusive_of_not_vacant {a : PoolAct} (hbad : ¬ Vacant config s a)
    (hs : step config s a = some s') : ¬ Exclusive s' := by
  intro h
  cases a with
  | initializePool created connects opens now =>
      cases hs
      cases hinit : s.pool.mInitialized with
      | true =>
          refine hbad ?_
          cases created with
          | throws => exact trivial
          | null => exact trivial
          | database => exact fun hno => absurd (hinit.symm.trans hno) (by decide)
      | false =>
          have hcounted := h.counted
          rcases ConnectionPool.initializePool_cases config created connects opens now
            s.fresh hinit with ⟨rfl, hdone, heq⟩ | ⟨rfl, hfail, heq⟩ | ⟨hne, -⟩
          · rw [heq] at hcounted
            refine hbad fun _ => ?_
            rw [if_pos hdone]
            simpa using hcounted.size_le
          · rw [heq] at hcounted
            refine hbad fun _ => ?_
            rw [if_neg hfail]
            exact hcounted.active_eq
          · cases created with
            | throws => exact hbad trivial
            | null => exact hbad trivial
            | database => exact hne rfl
  | getConnection | shutdown | call i answers | clear | cleanupIdleConnections now =>
      exact hbad trivial

/-! ## All runs -/

theorem sound_start (config : DatabaseConfig) : Sound config {} where
  nodup := List.nodup_nil
  known := fun pooled hmem => by cases hmem
  unlent := fun _ _ => rfl
  once := fun _ => Nat.zero_le _
  idle := fun pooled hmem => by cases hmem
  sizes := .inr ⟨rfl, rfl⟩

theorem exclusive_start : Exclusive {} := ⟨fun _ => Nat.zero_le _, rfl, Nat.zero_le _⟩

/-- No connection has two borrowers and no more than one, the counter is right and the pool is
not too large throughout a run exactly when every `Initialize` finds the pool vacant. -/
theorem exclusive_iff_meets {as : List PoolAct}
    (hrun : Machine.run (step config) {} as = some s) :
    Machine.Always (step config) Exclusive {} as ↔
      Machine.Meets (step config) (Vacant config) {} as :=
  Machine.always_iff_meets (I := Sound config) (fun _ _ _ h hs => h.step hs)
    (fun _ _ _ hsound h hok hs => h.step hsound hok hs)
    (fun _ _ _ _ hbad hs => not_exclusive_of_not_vacant hbad hs) (sound_start config)
    exclusive_start hrun

/-- One connection is lent and given back. -/
theorem exclusive_iff_meets_loan :
    ∃ s, Machine.run (step ⟨1, 1⟩) {} [.initializePool .database true 1 fun _ => 0,
        .getConnection, .call 0 {}, .call 0 {}, .call 0 {}] = some s ∧
      Machine.Always (step ⟨1, 1⟩) Exclusive {} [.initializePool .database true 1 fun _ => 0,
        .getConnection, .call 0 {}, .call 0 {}, .call 0 {}] :=
  ⟨_, rfl, (exclusive_iff_meets rfl).mpr (by decide +kernel)⟩

/-- A borrower keeps the only connection over `Shutdown`, and another thread is still in its
wait.  `Initialize` fails, the thread wakes and opens a connection, and `Initialize` succeeds. -/
theorem not_exclusive_after_initialize :
    ∃ s, Machine.run (step ⟨1, 1⟩) {} [.initializePool .database true 1 fun _ => 0,
        .getConnection, .call 0 {}, .getConnection, .call 1 {},
        .shutdown, .call 2 { expired := true }, .call 2 {},
        .initializePool .database true 0 fun _ => 0, .call 1 {},
        .initializePool .database true 1 fun _ => 0] = some s ∧ ¬ Exclusive s :=
  ⟨_, rfl, fun h => absurd h.size_le (by decide +kernel)⟩

/-! ## Runs in which no `Initialize` fails -/

/-- If the database is made, it can be connected and the connections can be opened. -/
def Succeeds (config : DatabaseConfig) : PoolAct → Prop
  | .initializePool .database connects opens _ =>
      connects = true ∧ config.mMinPoolSize ≤ opens
  | _ => True

/-- There is no database and no connection. -/
structure ConnectionPool.Empty (pool : ConnectionPool) : Prop where
  database : pool.mDatabase = none
  connections : pool.mConnections = []

/-- A pool that is not initialized is empty. -/
def Settled (pool : ConnectionPool) : Prop := pool.mInitialized = false → pool.Empty

theorem ConnectionPool.Empty.getConnection {pool : ConnectionPool} (h : pool.Empty)
    (answers : Answers) (fresh : Nat) : pool.getConnection answers fresh = none := by
  simp [ConnectionPool.getConnection, h.connections, h.database, updateFirst]

theorem Settled.wait (h : Settled s.pool) (i : Nat) (answers : Answers) :
    Settled (s.wait i answers).pool := by
  unfold PoolSystem.wait
  split
  · split
    · next pool connection hget =>
        intro hinit
        have hsame : s.pool.mInitialized = pool.mInitialized := by
          rcases ConnectionPool.getConnection_cases hget with
            ⟨_, _, _, -, -, -, rfl⟩ | ⟨-, -, -, rfl⟩ <;> rfl
        rw [(h (hsame.trans hinit)).getConnection] at hget
        cases hget
    · exact h
  · split <;> exact h

/-- With the counter right, nothing is left after `Shutdown`. -/
theorem ConnectionPool.Counted.empty_shutdown {pool : ConnectionPool} (h : pool.Counted) :
    pool.shutdown.Empty := by
  refine ⟨rfl, ?_⟩
  unfold ConnectionPool.shutdown
  dsimp only
  split
  · rfl
  · next hzero =>
      have hnone : pool.inUse = 0 := by rw [← h.active_eq]; omega
      exact List.filter_eq_nil_iff.mpr (List.countP_eq_zero.mp hnone)

theorem Settled.callStep (h : Settled s.pool) (hcounted : s.pool.Counted) {i : Nat}
    {answers : Answers} {pc : CallPc} (hs : Pool.callStep s i answers pc = some s') :
    Settled s'.pool := by
  cases pc with
  | get =>
      cases hs
      split
      · exact h.wait i answers
      · exact h
  | waiting =>
      cases hs
      exact h.wait i answers
  | lent connection =>
      cases hs
      exact h
  | returning connection =>
      cases hs
      rcases ConnectionPool.returnConnection_cases answers.now connection s.pool with
        ⟨before, pooled, after, hconns, -, heq⟩ | ⟨heq, -⟩
      · intro hinit
        rw [heq] at hinit
        rw [(h hinit).connections] at hconns
        exact absurd hconns.symm (by simp)
      · rw [heq]
        exact h
  | shutdown =>
      rw [Pool.callStep] at hs
      split at hs <;> · cases hs; exact h
  | shutdownLock =>
      cases hs
      exact fun _ => hcounted.empty_shutdown
  | returned => cases hs

/-- As long as `Initialize` does not fail it finds the pool vacant. -/
theorem Settled.vacant {a : PoolAct} (h : Settled s.pool)
    (hle : config.mMinPoolSize ≤ config.mMaxPoolSize) (hok : Succeeds config a) :
    Vacant config s a := by
  cases a with
  | initializePool created connects opens now =>
      cases created with
      | throws => exact trivial
      | null => exact trivial
      | database =>
          intro hinit
          have hdone : connects = true ∧ config.mMinPoolSize ≤ opens := hok
          rw [if_pos hdone, (h hinit).connections]
          simpa using hle
  | getConnection | shutdown | call i answers | clear | cleanupIdleConnections now =>
      exact trivial

theorem Settled.step {a : PoolAct} (h : Settled s.pool) (hcounted : s.pool.Counted)
    (hok : Succeeds config a) (hs : step config s a = some s') : Settled s'.pool := by
  cases a with
  | initializePool created connects opens now =>
      cases hs
      intro hinit
      cases hold : s.pool.mInitialized with
      | true =>
          have hpool : s.pool.initializePool config created connects opens now s.fresh = s.pool :=
            if_pos hold
          rw [hpool, hold] at hinit
          cases hinit
      | false =>
          have hempty := h hold
          cases created with
          | database =>
              obtain ⟨hconnects, hopens⟩ := hok
              simp [ConnectionPool.initializePool, hold, hconnects, hopens] at hinit
          | throws =>
              simp only [ConnectionPool.initializePool, hold, Bool.false_eq_true, if_false]
              exact ⟨hempty.database, hempty.connections⟩
          | null =>
              simp only [ConnectionPool.initializePool, hold, Bool.false_eq_true, if_false]
              exact ⟨rfl, hempty.connections⟩
  | getConnection =>
      cases hs
      exact h
  | shutdown =>
      cases hs
      exact h
  | call i answers => exact h.callStep hcounted hs
  | clear =>
      cases hs
      intro hinit
      have hempty := h hinit
      exact ⟨hempty.database, by simp [ConnectionPool.clear, hempty.connections]⟩
  | cleanupIdleConnections now =>
      cases hs
      intro hinit
      have hempty := h hinit
      exact ⟨hempty.database, by
        simp [ConnectionPool.cleanupIdleConnections, hempty.connections, cleanup]⟩

/-- The pool is right after every run in which no `Initialize` fails. -/
theorem exclusive_of_succeeds (hle : config.mMinPoolSize ≤ config.mMaxPoolSize)
    {as : List PoolAct} (hok : ∀ a ∈ as, Succeeds config a)
    (hrun : Machine.run (step config) {} as = some s) : Exclusive s := by
  have hinv : Sound config s ∧ Exclusive s ∧ Settled s.pool := by
    refine Machine.run_invariant_of_meets
      (I := fun s => Sound config s ∧ Exclusive s ∧ Settled s.pool) ?_
      ⟨sound_start config, exclusive_start, fun _ => ⟨rfl, rfl⟩⟩
      (Machine.Meets.of_forall_mem hok _) hrun
    rintro s a s' ⟨hsound, hexcl, hsettled⟩ ha hs
    exact ⟨hsound.step hs, hexcl.step hsound (hsettled.vacant hle ha) hs,
      hsettled.step hexcl.counted ha hs⟩
  exact hinv.2.1

end NetworkModule.Database.Pool
