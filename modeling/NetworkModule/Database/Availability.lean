import NetworkModule.Database.ConnectionPool

/-!
# Connections that died in the pool

A connection may go down while it is in the pool.  `GetConnection` passes over it, but it
stays in `mConnections`, and the size of that list is what is compared with `mMaxPoolSize`.  So a
pool may be full of connections that nobody can use.  Only `CleanupIdleConnections` removes
one, after `mIdleTimeout` and down to `mMinPoolSize` connections.

`fair_iff_fullWithoutDead` says exactly when a call of `GetConnection` times out only if
everything is lent: whenever a wait expires, the pool is full without its dead connections.
A pool of the minimal size that has died stays dead (`stays_dead`).
-/

namespace NetworkModule.Database.Pool

/-! ## Timeouts -/

/-- The call `i` of `GetConnection` fails with a timeout.  The pool is initialized, and its
database can open connections. -/
structure TimesOut (s : PoolSystem) (i : Nat) (answers : Answers) : Prop where
  call : s.calls.getD i .returned = .get ∨ s.calls.getD i .returned = .waiting
  mInitialized : s.pool.mInitialized = true
  mDatabase : s.pool.mDatabase = some true
  opens : answers.opens = true
  nothing : s.pool.canGet answers.isOpen = false
  expired : answers.expired = true

instance (s : PoolSystem) (i : Nat) (answers : Answers) : Decidable (TimesOut s i answers) :=
  decidable_of_iff
    ((s.calls.getD i .returned = .get ∨ s.calls.getD i .returned = .waiting) ∧
      s.pool.mInitialized = true ∧ s.pool.mDatabase = some true ∧ answers.opens = true ∧
      s.pool.canGet answers.isOpen = false ∧ answers.expired = true)
    ⟨fun h => ⟨h.1, h.2.1, h.2.2.1, h.2.2.2.1, h.2.2.2.2.1, h.2.2.2.2.2⟩,
      fun h => ⟨h.call, h.mInitialized, h.mDatabase, h.opens, h.nothing, h.expired⟩⟩

/-- How many connections of the pool somebody has. -/
def PoolSystem.lent (s : PoolSystem) : Nat :=
  s.pool.mConnections.countP fun pooled => 0 < s.borrowers pooled.mConnection

/-- How many connections of the pool are idle and down. -/
def ConnectionPool.deadIdle (isOpen : Nat → Bool) (pool : ConnectionPool) : Nat :=
  pool.mConnections.countP fun pooled => !pooled.mInUse && !isOpen pooled.mConnection

/-- A call times out only if as many connections are lent as the pool may have. -/
def Fair (s : PoolSystem) : PoolAct → Prop
  | .call i answers => TimesOut s i answers → s.pool.mMaxPoolSize ≤ s.lent
  | _ => True

/-- When a call times out, the pool is full without the connections that are idle and down. -/
def FullWithoutDead (s : PoolSystem) : PoolAct → Prop
  | .call i answers => TimesOut s i answers →
      s.pool.mMaxPoolSize + s.pool.deadIdle answers.isOpen ≤ s.pool.mConnections.length
  | _ => True

instance (s : PoolSystem) : (a : PoolAct) → Decidable (Fair s a)
  | .call i answers =>
      inferInstanceAs (Decidable (TimesOut s i answers → s.pool.mMaxPoolSize ≤ s.lent))
  | .initializePool _ _ _ _ => isTrue trivial
  | .getConnection => isTrue trivial
  | .shutdown => isTrue trivial
  | .clear => isTrue trivial
  | .cleanupIdleConnections _ => isTrue trivial

section
variable {config : DatabaseConfig} {s s' : PoolSystem}

/-- A call that fails with a timeout returns, and the pool stays as it is. -/
theorem TimesOut.step {i : Nat} {answers : Answers} (h : TimesOut s i answers) :
    step config s (.call i answers) = some (s.setCall i .returned) := by
  have hwait : s.wait i answers = s.setCall i .returned := by
    rw [PoolSystem.wait, if_neg (by rw [h.nothing]; exact Bool.false_ne_true), if_pos h.expired]
  rw [Pool.step]
  rcases h.call with hget | hwaiting
  · rw [hget, callStep, if_pos h.mInitialized, hwait]
  · rw [hwaiting, callStep, hwait]

/-! ## Borrowers -/

/-- A connection that is in use has a borrower. -/
def Busy (s : PoolSystem) : Prop :=
  ∀ pooled ∈ s.pool.mConnections, pooled.mInUse = true → 0 < s.borrowers pooled.mConnection

theorem Busy.subset (h : Busy s)
    (hconns : ∀ pooled ∈ s'.pool.mConnections, pooled ∈ s.pool.mConnections)
    (hcalls : ∀ c, s'.borrowers c = s.borrowers c) : Busy s' := by
  intro pooled hmem hin
  rw [hcalls]
  exact h pooled (hconns pooled hmem) hin

theorem Busy.lend (h : Busy s) {i : Nat} {pc : CallPc} (hcall : s.calls[i]? = some pc)
    (hpc : ∀ c, pc.holds c = false) {answers : Answers} {pool : ConnectionPool} {connection : Nat}
    (hget : s.pool.getConnection answers s.fresh = some (pool, connection)) :
    Busy { pool, fresh := max s.fresh (connection + 1),
           calls := s.calls.set i (.lent connection) } := by
  have hlend := borrowers_lend hcall hpc connection
  have hnew : 0 < (s.calls.set i (.lent connection)).countP (CallPc.holds connection) := by
    rw [hlend, if_pos rfl]
    exact Nat.succ_pos _
  have hold : ∀ other ∈ s.pool.mConnections, other.mInUse = true →
      0 < (s.calls.set i (.lent connection)).countP (CallPc.holds other.mConnection) := by
    intro other hmem hin
    rw [hlend]
    exact Nat.add_pos_left (h other hmem hin) _
  rcases ConnectionPool.getConnection_cases hget with
    ⟨before, pooled, after, hconns, -, rfl, rfl⟩ | ⟨-, -, rfl, rfl⟩
  · intro other hmem hin
    rcases mem_middle.mp hmem with rfl | hmem
    · exact hnew
    · refine hold other ?_ hin
      rw [hconns]
      exact mem_middle.mpr (.inr hmem)
  · intro other hmem hin
    rcases List.mem_append.mp hmem with hmem | hmem
    · exact hold other hmem hin
    · rw [List.mem_singleton.mp hmem]
      exact hnew

theorem Busy.giveBack (h : Busy s) (hsound : Sound config s) {i connection : Nat}
    (hcall : s.calls[i]? = some (.returning connection)) (now : Nat) :
    Busy { s.setCall i .returned with pool := s.pool.returnConnection now connection } := by
  have hback := borrowers_giveBack hcall
  -- The other connections keep their borrowers.
  have hother : ∀ other ∈ s.pool.mConnections, other.mConnection ≠ connection →
      other.mInUse = true →
      0 < (s.calls.set i .returned).countP (CallPc.holds other.mConnection) := by
    intro other hmem hne hin
    have hsame := hback other.mConnection
    rw [if_neg hne.symm, Nat.add_zero] at hsame
    rw [hsame]
    exact h other hmem hin
  rcases ConnectionPool.returnConnection_cases now connection s.pool with
    ⟨before, pooled, after, hconns, hsame, heq⟩ | ⟨heq, hnone⟩
  · have hnodup := hsound.nodup
    rw [hconns] at hnodup
    rw [heq]
    intro other hmem hin
    rcases mem_middle.mp hmem with rfl | hmem
    · cases hin
    · refine hother other ?_ ?_ hin
      · rw [hconns]
        exact mem_middle.mpr (.inr hmem)
      · rw [← hsame]
        exact ne_of_mem_rest hnodup hmem
  · rw [heq]
    intro other hmem hin
    exact hother other hmem (hnone other hmem) hin

theorem Busy.setCall (h : Busy s) {i : Nat} {pc pc' : CallPc} (hcall : s.calls[i]? = some pc)
    (hpc : ∀ c, pc'.holds c = pc.holds c) : Busy (s.setCall i pc') :=
  h.subset (fun _ => id) (borrowers_setCall hcall hpc)

theorem Busy.wait (h : Busy s) {i : Nat} {pc : CallPc} (hcall : s.calls[i]? = some pc)
    (hpc : ∀ c, pc.holds c = false) (answers : Answers) : Busy (s.wait i answers) := by
  unfold PoolSystem.wait
  split
  · split
    next hget => exact h.lend hcall hpc hget
    · exact h.setCall hcall fun c => (hpc c).symm
  · split <;> exact h.setCall hcall fun c => (hpc c).symm

theorem Busy.callStep (h : Busy s) (hsound : Sound config s) {i : Nat} {answers : Answers}
    {pc : CallPc} (hcall : s.calls[i]? = some pc) (hs : callStep s i answers pc = some s') :
    Busy s' := by
  cases pc with
  | get =>
      cases hs
      split
      · exact h.wait hcall (fun _ => rfl) answers
      · exact h.setCall hcall fun _ => rfl
  | waiting =>
      cases hs
      exact h.wait hcall (fun _ => rfl) answers
  | lent connection =>
      cases hs
      exact h.setCall hcall fun _ => rfl
  | returning connection =>
      cases hs
      exact h.giveBack hsound hcall answers.now
  | shutdown =>
      rw [Pool.callStep] at hs
      split at hs
      · cases hs
        exact h.setCall hcall fun _ => rfl
      · cases hs
        exact h
  | shutdownLock =>
      cases hs
      exact h.subset (ConnectionPool.shutdown_sublist _).subset
        (borrowers_setCall hcall fun _ => rfl)
  | returned => cases hs

/-- The new connections of `Initialize` are not in use. -/
theorem Busy.initializePool (h : Busy s) (created : Created) (connects : Bool) (opens : Nat)
    (now : Nat → Nat) :
    Busy { s with
           pool := s.pool.initializePool config created connects opens now s.fresh
           fresh := s.fresh + config.mMinPoolSize } := by
  cases hinit : s.pool.mInitialized with
  | true =>
      have hpool : s.pool.initializePool config created connects opens now s.fresh = s.pool :=
        if_pos hinit
      rw [hpool]
      exact h.subset (fun _ => id) fun _ => rfl
  | false =>
      rcases ConnectionPool.initializePool_cases config created connects opens now s.fresh
        hinit with ⟨-, -, heq⟩ | ⟨-, -, heq⟩ | ⟨-, mDatabase, heq⟩
      · rw [heq]
        intro other hmem hin
        rcases List.mem_append.mp hmem with hmem | hmem
        · exact h other hmem hin
        · obtain ⟨k, -, rfl⟩ := List.mem_map.mp hmem
          cases hin
      · rw [heq]
        exact h.subset (fun _ hmem => absurd hmem List.not_mem_nil) fun _ => rfl
      · rw [heq]
        exact h.subset (fun _ => id) fun _ => rfl

theorem Busy.step {a : PoolAct} (h : Busy s) (hsound : Sound config s)
    (hs : step config s a = some s') : Busy s' := by
  cases a with
  | initializePool created connects opens now =>
      cases hs
      exact h.initializePool created connects opens now
  | getConnection =>
      cases hs
      exact h.subset (fun _ => id) (borrowers_begin _ fun c => by split <;> rfl)
  | shutdown =>
      cases hs
      exact h.subset (fun _ => id) (borrowers_begin _ fun c => by split <;> rfl)
  | call i answers =>
      cases hi : s.calls[i]? with
      | none => simp [Pool.step, List.getD_eq_getElem?_getD, hi, Pool.callStep] at hs
      | some pc =>
          rw [Pool.step, List.getD_eq_getElem?_getD, hi, Option.getD_some] at hs
          exact h.callStep hsound hi hs
  | clear =>
      cases hs
      exact h.subset (fun _ => List.mem_of_mem_filter) fun _ => rfl
  | cleanupIdleConnections now =>
      cases hs
      exact h.subset (cleanup_sublist _ _ _ _ _).subset fun _ => rfl

/-! ## What is lent -/

/-- The connections in use are those that somebody has. -/
theorem lent_eq (hsound : Sound config s) (hbusy : Busy s) : s.lent = s.pool.inUse := by
  refine List.countP_congr fun pooled hmem => ?_
  rw [decide_eq_true_iff]
  constructor
  · intro hpos
    refine Bool.eq_true_of_not_eq_false fun hidle => ?_
    rw [hsound.idle pooled hmem hidle] at hpos
    exact absurd hpos (Nat.lt_irrefl 0)
  · exact hbusy pooled hmem

/-- When a call times out, all connections that are not in use are down. -/
theorem TimesOut.length_eq {i : Nat} {answers : Answers} (h : TimesOut s i answers) :
    s.pool.mConnections.length = s.pool.inUse + s.pool.deadIdle answers.isOpen := by
  have hnothing := h.nothing
  rw [ConnectionPool.canGet, Bool.or_eq_false_iff] at hnothing
  have hdown : ∀ pooled ∈ s.pool.mConnections, pooled.mInUse = false →
      answers.isOpen pooled.mConnection = false := by
    intro pooled hmem hidle
    have hno := List.any_eq_false.mp hnothing.1 pooled hmem
    simpa [hidle] using hno
  rw [List.length_eq_countP_add_countP fun pooled => pooled.mInUse]
  congr 1
  refine List.countP_congr fun pooled hmem => ?_
  cases hin : pooled.mInUse with
  | true => simp
  | false => simp [hdown pooled hmem hin]

/-- A timeout is fair when the pool is full without its dead connections. -/
theorem fair_iff (hsound : Sound config s) (hbusy : Busy s) (a : PoolAct) :
    Fair s a ↔ FullWithoutDead s a := by
  cases a with
  | call i answers =>
      refine imp_congr_right fun htimeout => ?_
      rw [lent_eq hsound hbusy, htimeout.length_eq]
      exact (Nat.add_le_add_iff_right).symm
  | initializePool created connects opens now => exact Iff.rfl
  | getConnection => exact Iff.rfl
  | shutdown => exact Iff.rfl
  | clear => exact Iff.rfl
  | cleanupIdleConnections now => exact Iff.rfl

end

/-- Throughout a run a call times out only if everything is lent, exactly if the pool is full
without its dead connections whenever one does. -/
theorem fair_iff_fullWithoutDead (config : DatabaseConfig) (as : List PoolAct) :
    Machine.Meets (step config) Fair {} as ↔ Machine.Meets (step config) FullWithoutDead {} as := by
  have hstart : Busy {} := fun _ hmem => absurd hmem List.not_mem_nil
  exact Machine.meets_congr (I := fun s => Sound config s ∧ Busy s)
    (fun _ _ _ h hs => ⟨h.1.step hs, h.2.step h.1 hs⟩) (fun _ a h => fair_iff h.1 h.2 a)
    ⟨sound_start config, hstart⟩

/-- The only connection goes down in the pool.  A call finds nothing and gives up. -/
def deadTrace : List PoolAct :=
  [.initializePool .database true 1 fun _ => 0, .getConnection,
    .call 0 { isOpen := fun _ => false, expired := true }]

theorem not_fair_deadTrace : ¬ Machine.Meets (step ⟨1, 1⟩) Fair {} deadTrace := by
  decide +kernel

/-! ## A pool that has died -/

/-- Threads want connections and the clean-up runs, and no connection is open. -/
def OnlyGets : PoolAct → Prop
  | .getConnection | .cleanupIdleConnections _ => True
  | .call _ answers => ∀ c, answers.isOpen c = false
  | .initializePool _ _ _ _ | .shutdown | .clear => False

/-- The pool is this one, and nobody has got a connection. -/
structure Dead (pool : ConnectionPool) (s : PoolSystem) : Prop where
  pool : s.pool = pool
  calls : ∀ pc ∈ s.calls, pc = .get ∨ pc = .waiting ∨ pc = .returned

section
variable {config : DatabaseConfig} {s s' : PoolSystem} {pool : ConnectionPool}

/-- The clean-up keeps a pool of the minimal size. -/
theorem cleanup_of_le {now idle least size : Nat} (h : size ≤ least) (l : List PooledConnection) :
    cleanup now idle least size l = l := by
  induction l with
  | nil => rfl
  | cons pooled l ih => rw [cleanup, if_neg fun hidle => Nat.not_lt.mpr h hidle.2.2, ih]

theorem Dead.setCall (h : Dead pool s) (i : Nat) {pc : CallPc}
    (hpc : pc = .get ∨ pc = .waiting ∨ pc = .returned) : Dead pool (s.setCall i pc) := by
  refine ⟨h.pool, fun pc' hmem => ?_⟩
  rcases List.mem_or_eq_of_mem_set hmem with hold | rfl
  · exact h.calls pc' hold
  · exact hpc

theorem Dead.wait (h : Dead pool s) (hfull : pool.mMaxPoolSize ≤ pool.mConnections.length)
    (i : Nat) {answers : Answers} (hdown : ∀ c, answers.isOpen c = false) :
    Dead pool (s.wait i answers) := by
  have hnothing : s.pool.canGet answers.isOpen = false := by
    rw [h.pool, ConnectionPool.canGet, Bool.or_eq_false_iff, decide_eq_false_iff_not]
    refine ⟨List.any_eq_false.mpr fun pooled _ => ?_, Nat.not_lt.mpr hfull⟩
    rw [hdown, Bool.and_false]
    exact Bool.false_ne_true
  rw [PoolSystem.wait, if_neg (by rw [hnothing]; exact Bool.false_ne_true)]
  split
  · exact h.setCall i (.inr (.inr rfl))
  · exact h.setCall i (.inr (.inl rfl))

theorem Dead.step (h : Dead pool s) (hfull : pool.mMaxPoolSize ≤ pool.mConnections.length)
    (hleast : pool.mConnections.length ≤ pool.mMinPoolSize) {a : PoolAct} (hacts : OnlyGets a)
    (hs : step config s a = some s') : Dead pool s' := by
  cases a with
  | getConnection =>
      cases hs
      refine ⟨h.pool, fun pc hmem => ?_⟩
      rcases List.mem_append.mp hmem with hold | hnew
      · exact h.calls pc hold
      · rw [List.mem_singleton.mp hnew]
        split
        · exact .inl rfl
        · exact .inr (.inr rfl)
  | cleanupIdleConnections now =>
      cases hs
      refine ⟨?_, h.calls⟩
      rw [ConnectionPool.cleanupIdleConnections, h.pool, cleanup_of_le hleast]
  | call i answers =>
      rw [Pool.step] at hs
      cases hi : s.calls[i]? with
      | none =>
          rw [List.getD_eq_getElem?_getD, hi] at hs
          cases hs
      | some pc =>
          rw [List.getD_eq_getElem?_getD, hi, Option.getD_some] at hs
          rcases h.calls pc (List.mem_of_getElem? hi) with rfl | rfl | rfl
          · cases hs
            split
            · exact h.wait hfull i hacts
            · exact h.setCall i (.inr (.inr rfl))
          · cases hs
            exact h.wait hfull i hacts
          · cases hs
  | initializePool created connects opens now => exact hacts.elim
  | shutdown => exact hacts.elim
  | clear => exact hacts.elim

/-- A full pool of the minimal size in which all connections are down gives nobody a connection
any more, whatever the time limits and however often the clean-up runs. -/
theorem stays_dead (hfull : pool.mMaxPoolSize ≤ pool.mConnections.length)
    (hleast : pool.mConnections.length ≤ pool.mMinPoolSize) {as : List PoolAct}
    (hacts : ∀ a ∈ as, OnlyGets a) (h : Dead pool s)
    (hrun : Machine.run (step config) s as = some s') : Dead pool s' :=
  Machine.run_invariant_of_meets (fun _ _ _ hI hok hs => hI.step hfull hleast hok hs) h
    (Machine.Meets.of_forall_mem hacts s) hrun

end

end NetworkModule.Database.Pool
